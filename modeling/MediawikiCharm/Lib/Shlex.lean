/-
`shlex.split` of Python.

A text is read character by character, with the rules of POSIX and without comments.  A word ends
at a blank outside of quotes; in double quotes a backslash stands for itself, unless it is before a
double quote or another backslash.  A text in which a quote is open, or that ends with a backslash,
has no words.
-/
import Mathlib.Tactic.Common

namespace Shlex

/-! ### Splitting -/

/-- `state`: between words, in quotes, behind a backslash, or in a word.  `escape` knows whether the
backslash is in double quotes, as `escapedstate`. -/
inductive State
  | gap
  | quote (q : Char)
  | escape (quoted : Bool)
  | word
deriving DecidableEq

/-- `whitespace` -/
def isWhitespace (c : Char) : Bool := c = ' ' || c = '\t' || c = '\r' || c = '\n'

/-- `quotes` -/
def isQuote (c : Char) : Bool := c = '\'' || c = '"'

/-- The word that has been read, if there is one.  A word that is empty was quoted. -/
def emit (token : List Char) (quoted : Bool) : List (List Char) :=
  if token ≠ [] || quoted then [token] else []

/-- The words of the rest of a text, where `token` was read of the first one. -/
def read : State → List Char → Bool → List Char → Except String (List (List Char))
  | .gap, token, quoted, [] => .ok (emit token quoted)
  | .gap, token, quoted, c :: s =>
    if isWhitespace c then
      if token ≠ [] || quoted then (read .gap [] false s).map (token :: ·)
      else read .gap token quoted s
    else if c = '\\' then read (.escape false) token quoted s
    else if isQuote c then read (.quote c) token quoted s
    else read .word [c] quoted s
  | .quote _, _, _, [] => .error "No closing quotation"
  | .quote q, token, _, c :: s =>
    if c = q then read .word token true s
    else if c = '\\' ∧ q = '"' then read (.escape true) token true s
    else read (.quote q) (token ++ [c]) true s
  | .escape _, _, _, [] => .error "No escaped character"
  | .escape true, token, quoted, c :: s =>
    read (.quote '"') (token ++ if c ≠ '\\' ∧ c ≠ '"' then ['\\', c] else [c]) quoted s
  | .escape false, token, quoted, c :: s => read .word (token ++ [c]) quoted s
  | .word, token, quoted, [] => .ok (emit token quoted)
  | .word, token, quoted, c :: s =>
    if isWhitespace c then
      if token ≠ [] || quoted then (read .gap [] false s).map (token :: ·)
      else read .gap token quoted s
    else if isQuote c then read (.quote c) token quoted s
    else if c = '\\' then read (.escape false) token quoted s
    else read .word (token ++ [c]) quoted s

/-- `split` -/
def split (text : List Char) : Except String (List (List Char)) := read .gap [] false text

/-! ### Quoting -/

/-- The characters that are in no rule. -/
def isPlain (c : Char) : Bool := !isWhitespace c && !isQuote c && c ≠ '\\'

/-- A word in single quotes, where each of its single quotes stands in double quotes. -/
def enclose (w : List Char) : List Char :=
  '\'' :: w.flatMap (fun c => if c = '\'' then ['\'', '"', '\'', '"', '\''] else [c]) ++ ['\'']

/-- A text that is read as the word, wherever a word may begin. -/
def Spells (text w : List Char) : Prop :=
  ∀ s, ∃ quoted, (w ≠ [] ∨ quoted = true) ∧ read .gap [] false (text ++ s) = read .word w quoted s

/-- Plain characters join the word. -/
lemma read_word_append {a : List Char} (h : ∀ c ∈ a, isPlain c = true) (token s : List Char)
    (quoted : Bool) : read .word token quoted (a ++ s) = read .word (token ++ a) quoted s := by
  induction a generalizing token with
  | nil => rw [List.nil_append, List.append_nil]
  | cons c a ih =>
    obtain ⟨hc, ha⟩ := List.forall_mem_cons.1 h
    simp only [isPlain, Bool.and_eq_true, Bool.not_eq_true', decide_eq_true_eq] at hc
    obtain ⟨⟨hblank, hquote⟩, hescape⟩ := hc
    rw [List.cons_append, read, hblank, hquote, if_neg Bool.false_ne_true,
      if_neg Bool.false_ne_true, if_neg hescape, ih ha, List.append_assoc]
    rfl

/-- Plain characters are a word. -/
lemma spells_self {w : List Char} (hne : w ≠ []) (h : ∀ c ∈ w, isPlain c = true) :
    Spells w w := by
  intro s
  refine ⟨false, .inl hne, ?_⟩
  cases w with
  | nil => exact absurd rfl hne
  | cons c a =>
    obtain ⟨hc, ha⟩ := List.forall_mem_cons.1 h
    simp only [isPlain, Bool.and_eq_true, Bool.not_eq_true', decide_eq_true_eq] at hc
    obtain ⟨⟨hblank, hquote⟩, hescape⟩ := hc
    rw [List.cons_append, read, hblank, hquote, if_neg Bool.false_ne_true, if_neg hescape,
      if_neg Bool.false_ne_true, read_word_append ha]
    rfl

/-- What stands in single quotes joins the word. -/
lemma read_quote_append (a token s : List Char) (quoted : Bool) :
    read (.quote '\'') token quoted (a.flatMap (fun c =>
      if c = '\'' then ['\'', '"', '\'', '"', '\''] else [c]) ++ '\'' :: s) =
        read .word (token ++ a) true s := by
  induction a generalizing token quoted with
  | nil =>
    rw [List.append_nil]
    rfl
  | cons c a ih =>
    rw [List.flatMap_cons, List.append_assoc]
    split_ifs with hc
    · -- the quote is closed, a double quote is quoted, and the quote is opened again
      have hquote : ∀ t, read (.quote '\'') token quoted (['\'', '"', '\'', '"', '\''] ++ t) =
          read (.quote '\'') (token ++ ['\'']) true t := fun t => rfl
      rw [hquote, ih, List.append_assoc, hc]
      rfl
    · have hescape : ¬ (c = '\\' ∧ '\'' = '"') := fun h => absurd h.2 (by decide)
      rw [List.singleton_append, read, if_neg hc, if_neg hescape, ih, List.append_assoc]
      rfl

lemma spells_enclose (w : List Char) : Spells (enclose w) w := by
  intro s
  refine ⟨true, .inr rfl, ?_⟩
  have hopen : ∀ t, read .gap [] false ('\'' :: t) = read (.quote '\'') [] false t := fun t => rfl
  rw [enclose, List.append_assoc, List.cons_append, hopen, List.singleton_append, read_quote_append,
    List.nil_append]

lemma emit_eq {token : List Char} {quoted : Bool} (h : token ≠ [] ∨ quoted = true) :
    emit token quoted = [token] := by
  refine if_pos ?_
  simpa using h

/-- The words of a text that spells some words, with a space between them. -/
theorem split_intercalate {α : Type*} {spell word : α → List Char} {items : List α}
    (h : ∀ item ∈ items, Spells (spell item) (word item)) :
    split ([' '].intercalate (items.map spell)) = .ok (items.map word) := by
  rw [split]
  induction items with
  | nil => rfl
  | cons item items ih =>
    obtain ⟨hitem, hitems⟩ := List.forall_mem_cons.1 h
    cases items with
    | nil =>
      obtain ⟨quoted, hemit, hread⟩ := hitem []
      rw [List.map_cons, List.map_nil, List.intercalate_singleton, ← List.append_nil (spell item),
        hread, read, emit_eq hemit]
      rfl
    | cons next items =>
      obtain ⟨quoted, hemit, hread⟩ := hitem (' ' :: [' '].intercalate ((next :: items).map spell))
      have hjoin : [' '].intercalate ((item :: next :: items).map spell) =
          spell item ++ ' ' :: [' '].intercalate ((next :: items).map spell) := rfl
      have hblank : isWhitespace ' ' = true := rfl
      rw [hjoin, hread, read, if_pos hblank, if_pos (by simpa using hemit), ih hitems]
      rfl

end Shlex
