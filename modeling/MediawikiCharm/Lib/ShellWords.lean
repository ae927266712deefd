/-
Words of a shell command.

A command is split into words at its blanks.  What stands in quotes, or behind a backslash,
belongs to a word; a comment begins with a word that begins with `#`.  A command with an open
quote has no words.
-/
import Mathlib.Tactic.Common

namespace ShellWords

/-- Where a reader stands: between two words, in a word, behind a backslash, in quotes, behind a
backslash in double quotes, or in a comment. -/
inductive Mode
  | gap
  | word
  | escape
  | single
  | double
  | doubleEscape
  | comment

/-- The characters that end a word. -/
def isBlank (c : Char) : Bool := c = ' ' || c = '\t' || c = '\r' || c = '\n'

/-- The characters that stand for themselves in a word. -/
def isPlain (c : Char) : Bool := !isBlank c && c ≠ '\'' && c ≠ '"' && c ≠ '\\'

/-- The characters before which a backslash in double quotes is an escape. -/
def isEscapable (c : Char) : Bool := c = '"' || c = '\\' || c = '$' || c.toNat = 0x60

/-- Where a character leads to that belongs to a word, and the word so far. -/
def enter (c : Char) (word : List Char) : Mode × List Char :=
  if c = '\'' then (.single, word)
  else if c = '"' then (.double, word)
  else if c = '\\' then (.escape, word)
  else (.word, word ++ [c])

/-- Read the rest of a command: the word that was begun, and the words behind it. -/
def read : Mode → List Char → List Char → Option (List (List Char))
  | .gap, _, [] | .comment, _, [] => some []
  | .word, word, [] => some [word]
  | _, _, [] => none
  | .gap, _, c :: s =>
    if isBlank c then read .gap [] s
    else if c = '#' then read .comment [] s
    else read (enter c []).1 (enter c []).2 s
  | .word, word, c :: s =>
    if isBlank c then (read .gap [] s).map (word :: ·)
    else read (enter c word).1 (enter c word).2 s
  | .escape, word, c :: s => read .word (word ++ [c]) s
  | .single, word, c :: s => if c = '\'' then read .word word s else read .single (word ++ [c]) s
  | .double, word, c :: s =>
    if c = '"' then read .word word s
    else if c = '\\' then read .doubleEscape word s
    else read .double (word ++ [c]) s
  | .doubleEscape, word, c :: s =>
    read .double (word ++ if isEscapable c then [c] else ['\\', c]) s
  | .comment, _, c :: s => if c = '\n' then read .gap [] s else read .comment [] s

/-- The words of a command. -/
def split (command : List Char) : Option (List (List Char)) := read .gap [] command

lemma enter_of_isPlain {c : Char} (h : isPlain c = true) (word : List Char) :
    enter c word = (.word, word ++ [c]) := by
  simp only [isPlain, Bool.and_eq_true, decide_eq_true_eq] at h
  rw [enter, if_neg h.1.1.2, if_neg h.1.2, if_neg h.2]

lemma not_isBlank_of_isPlain {c : Char} (h : isPlain c = true) : isBlank c = false := by
  simp only [isPlain, Bool.and_eq_true, Bool.not_eq_true'] at h
  exact h.1.1.1

/-- Plain characters join the word. -/
lemma read_word_append {a : List Char} (h : ∀ c ∈ a, isPlain c = true) (word s : List Char) :
    read .word word (a ++ s) = read .word (word ++ a) s := by
  induction a generalizing word with
  | nil => rw [List.nil_append, List.append_nil]
  | cons c a ih =>
    obtain ⟨hc, ha⟩ := List.forall_mem_cons.1 h
    rw [List.cons_append, read, not_isBlank_of_isPlain hc, if_neg Bool.false_ne_true,
      enter_of_isPlain hc, ih ha, List.append_assoc]
    rfl

/-- A word of plain characters. -/
lemma read_gap_append {c : Char} {a : List Char} (h : ∀ d ∈ c :: a, isPlain d = true)
    (hc : c ≠ '#') (s : List Char) : read .gap [] (c :: a ++ s) = read .word (c :: a) s := by
  obtain ⟨hplain, ha⟩ := List.forall_mem_cons.1 h
  rw [List.cons_append, read, not_isBlank_of_isPlain hplain, if_neg Bool.false_ne_true, if_neg hc,
    enter_of_isPlain hplain, read_word_append ha]
  rfl

/-- A blank ends the word. -/
lemma read_word_blank (word s : List Char) :
    read .word word (' ' :: s) = (read .gap [] s).map (word :: ·) := rfl

/-- A text in single quotes joins the word, where each of its single quotes is written in double
quotes, outside of the single ones. -/
lemma read_single_append (a word s : List Char) :
    read .single word (a.flatMap (fun c =>
      if c = '\'' then ['\'', '"', '\'', '"', '\''] else [c]) ++ '\'' :: s) =
        read .word (word ++ a) s := by
  induction a generalizing word with
  | nil => rw [List.append_nil]; rfl
  | cons c a ih =>
    rw [List.flatMap_cons, List.append_assoc]
    split_ifs with hc
    · have hquote : ∀ t, read .single word (['\'', '"', '\'', '"', '\''] ++ t) =
          read .single (word ++ ['\'']) t := fun t => rfl
      rw [hquote, ih, List.append_assoc, hc]
      rfl
    · rw [List.singleton_append, read, if_neg hc, ih, List.append_assoc]
      rfl

/-! ### Words that need no quotes -/

/-- A text that is read as it is. -/
def IsWord (w : List Char) : Prop := w ≠ [] ∧ w.head? ≠ some '#' ∧ ∀ c ∈ w, isPlain c = true

/-- `IsWord`, as it is tested. -/
def isWord : List Char → Bool
  | [] => false
  | c :: w => c ≠ '#' && (c :: w).all isPlain

lemma isWord_iff {w : List Char} : isWord w = true ↔ IsWord w := by
  cases w with
  | nil => exact iff_of_false Bool.false_ne_true fun h => h.1 rfl
  | cons c w => simp [isWord, IsWord]

instance (w : List Char) : Decidable (IsWord w) := decidable_of_iff _ isWord_iff

/-- The length of the words with a blank behind each. -/
def size : List (List Char) → ℕ
  | [] => 0
  | w :: ws => w.length + 1 + size ws

@[simp] lemma size_nil : size [] = 0 := rfl

@[simp] lemma size_cons (w : List Char) (ws : List (List Char)) :
    size (w :: ws) = w.length + 1 + size ws := rfl

/-- The size that the words of the rest of a command have at most. -/
def bound : Mode → List Char → List Char → ℕ
  | .gap, _, s | .comment, _, s => s.length + 1
  | .doubleEscape, word, s => word.length + s.length + 2
  | _, word, s => word.length + s.length + 1

/-- No reader adds a character, and only plain characters are not lost. -/
lemma size_le_of_read {mode : Mode} {word s : List Char} {ws : List (List Char)}
    (h : read mode word s = some ws) : size ws ≤ bound mode word s := by
  induction s generalizing mode word ws with
  | nil =>
    cases mode with
    | gap | comment =>
      obtain rfl := Option.some.inj h
      exact Nat.zero_le _
    | word =>
      obtain rfl := Option.some.inj h
      exact Nat.le_refl _
    | escape | single | double | doubleEscape => cases h
  | cons c s ih =>
    have henter : ∀ word, read (enter c word).1 (enter c word).2 s = some ws →
        size ws ≤ word.length + s.length + 2 := by
      intro word h
      have hle := ih h
      rw [enter] at hle
      split_ifs at hle with hsingle hdouble hescape
      · simp only [bound] at hle
        omega
      · simp only [bound] at hle
        omega
      · simp only [bound] at hle
        omega
      · simp only [bound, List.length_append, List.length_singleton] at hle
        omega
    cases mode with
    | gap =>
      rw [read] at h
      split_ifs at h with hblank hhash
      · have hle := ih h
        simp only [bound, List.length_cons] at hle ⊢
        omega
      · have hle := ih h
        simp only [bound, List.length_cons] at hle ⊢
        omega
      · have hle := henter [] h
        simp only [bound, List.length_cons, List.length_nil] at hle ⊢
        omega
    | word =>
      rw [read] at h
      split_ifs at h with hblank
      · obtain ⟨ws', hread, rfl⟩ := Option.map_eq_some_iff.1 h
        have hle := ih hread
        simp only [bound, size_cons, List.length_cons] at hle ⊢
        omega
      · have hle := henter word h
        simp only [bound, List.length_cons] at hle ⊢
        omega
    | escape =>
      have hread : read .word (word ++ [c]) s = some ws := h
      have hle := ih hread
      simp only [bound, List.length_append, List.length_cons, List.length_nil] at hle ⊢
      omega
    | single =>
      rw [read] at h
      split_ifs at h with hquote
      · have hle := ih h
        simp only [bound, List.length_cons] at hle ⊢
        omega
      · have hle := ih h
        simp only [bound, List.length_append, List.length_cons, List.length_nil] at hle ⊢
        omega
    | double =>
      rw [read] at h
      split_ifs at h with hquote hslash
      · have hle := ih h
        simp only [bound, List.length_cons] at hle ⊢
        omega
      · have hle := ih h
        simp only [bound, List.length_cons] at hle ⊢
        omega
      · have hle := ih h
        simp only [bound, List.length_append, List.length_cons, List.length_nil] at hle ⊢
        omega
    | doubleEscape =>
      rw [read] at h
      have hle := ih h
      have hlength : (if isEscapable c then [c] else ['\\', c]).length ≤ 2 := by
        split_ifs
        · exact Nat.le_succ 1
        · exact Nat.le_refl _
      simp only [bound, List.length_append, List.length_cons] at hle ⊢
      omega
    | comment =>
      rw [read] at h
      split_ifs at h with hnewline
      · have hle := ih h
        simp only [bound, List.length_cons] at hle ⊢
        omega
      · have hle := ih h
        simp only [bound, List.length_cons] at hle ⊢
        omega

/-- Where no character is lost, all words are plain. -/
lemma isWord_of_size (s : List Char) :
    (∀ ws, read .gap [] s = some ws → size ws = s.length + 1 → ∀ w ∈ ws, IsWord w) ∧
      ∀ word ws, read .word word s = some ws → IsWord word →
        size ws = word.length + s.length + 1 → ∀ w ∈ ws, IsWord w := by
  induction s with
  | nil =>
    refine ⟨?_, ?_⟩
    · intro ws h hsize
      obtain rfl := Option.some.inj h
      cases hsize
    · intro word ws h hword _
      obtain rfl := Option.some.inj h
      exact List.forall_mem_singleton.2 hword
  | cons c s ih =>
    -- a character that opens quotes or an escape is lost
    have hplain : ∀ word ws, isBlank c = false → read (enter c word).1 (enter c word).2 s = some ws →
        size ws = word.length + s.length + 2 →
          isPlain c = true ∧ read .word (word ++ [c]) s = some ws := by
      intro word ws hblank h hsize
      have hle := size_le_of_read h
      rw [enter] at hle h
      split_ifs at hle h with hsingle hdouble hescape
      · simp only [bound] at hle
        omega
      · simp only [bound] at hle
        omega
      · simp only [bound] at hle
        omega
      · refine ⟨?_, h⟩
        simp [isPlain, hblank, hsingle, hdouble, hescape]
    refine ⟨?_, ?_⟩
    · intro ws h hsize
      rw [read] at h
      split_ifs at h with hblank hhash
      · have hle := size_le_of_read h
        simp only [bound, List.length_cons] at hle hsize
        omega
      · have hle := size_le_of_read h
        simp only [bound, List.length_cons] at hle hsize
        omega
      · simp only [List.length_cons] at hsize
        obtain ⟨hc, hread⟩ := hplain [] ws (Bool.eq_false_iff.2 hblank) h
          (by simp only [List.length_nil]; omega)
        refine ih.2 [c] ws hread ⟨List.cons_ne_nil _ _, ?_, List.forall_mem_singleton.2 hc⟩ ?_
        · simpa using hhash
        · simp only [List.length_singleton]
          omega
    · intro word ws h hword hsize
      rw [read] at h
      split_ifs at h with hblank
      · obtain ⟨ws', hread, rfl⟩ := Option.map_eq_some_iff.1 h
        simp only [size_cons, List.length_cons] at hsize
        exact List.forall_mem_cons.2 ⟨hword, ih.1 ws' hread (by omega)⟩
      · simp only [List.length_cons] at hsize
        obtain ⟨hc, hread⟩ := hplain word ws (Bool.eq_false_iff.2 hblank) h (by omega)
        refine ih.2 _ ws hread ⟨?_, ?_, ?_⟩ ?_
        · simp
        · obtain ⟨d, a, rfl⟩ := List.exists_cons_of_ne_nil hword.1
          exact hword.2.1
        · exact List.forall_mem_append.2 ⟨hword.2.2, List.forall_mem_singleton.2 hc⟩
        · simp only [List.length_append, List.length_singleton]
          omega

lemma size_eq_of_intercalate {words : List (List Char)} (h : words ≠ []) :
    size words = ([' '].intercalate words).length + 1 := by
  induction words with
  | nil => exact absurd rfl h
  | cons w words ih =>
    cases words with
    | nil => simp
    | cons next words =>
      have hjoin : [' '].intercalate (w :: next :: words) =
          w ++ ' ' :: [' '].intercalate (next :: words) := rfl
      rw [hjoin, size_cons, ih (List.cons_ne_nil _ _), List.length_append, List.length_cons]
      omega

/-- Texts with spaces between them are read as these texts exactly if each of them needs no
quotes. -/
theorem split_intercalate_iff (words : List (List Char)) :
    split ([' '].intercalate words) = some words ↔ ∀ w ∈ words, IsWord w := by
  constructor
  · intro h
    cases words with
    | nil => exact fun _ hw => absurd hw List.not_mem_nil
    | cons w words =>
      exact (isWord_of_size _).1 _ h (size_eq_of_intercalate (List.cons_ne_nil w words))
  · intro h
    rw [split]
    induction words with
    | nil => rfl
    | cons w words ih =>
      obtain ⟨⟨hne, hhash, hplain⟩, hwords⟩ := List.forall_mem_cons.1 h
      obtain ⟨c, a, rfl⟩ := List.exists_cons_of_ne_nil hne
      have hc : c ≠ '#' := fun heq => hhash (congrArg some heq)
      cases words with
      | nil =>
        have hread := read_gap_append hplain hc []
        rw [List.append_nil] at hread
        rw [List.intercalate_singleton, hread]
        rfl
      | cons next words =>
        have hjoin : [' '].intercalate ((c :: a) :: next :: words) =
            c :: a ++ ' ' :: [' '].intercalate (next :: words) := rfl
        rw [hjoin, read_gap_append hplain hc, read_word_blank, ih hwords]
        rfl

end ShellWords
