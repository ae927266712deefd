/-
Python's `textwrap`.

`dedent` takes from every line the white space with which all lines begin that are not blank, and
empties the blank lines.  The margin is known by the numbers of spaces with which these lines
begin, once there is a line that is indented by spaces.
-/
import MediawikiCharm.Lib.Lines
import MediawikiCharm.Lib.PyText

namespace Textwrap

open PyText Lines

/-- The symbol between lines. -/
def isNewline (c : PyChar) : Bool := c == ofChar '\n'

/-- The line has white space only, or nothing. -/
def isBlank (line : PyStr) : Bool := line.all isSpace

/-- `" " * n` -/
def spaces (n : ℕ) : PyStr := List.replicate n (ofChar ' ')

/-- The white space in front of a line. -/
def leading (line : PyStr) : PyStr := line.takeWhile fun c => c = ofChar ' ' || c = ofChar '\t'

/-- The longest common beginning. -/
def commonPrefix : PyStr → PyStr → PyStr
  | c :: s, d :: t => if c = d then c :: commonPrefix s t else []
  | _, _ => []

/-- The white space with which all lines begin that are not blank. -/
def margin (text : PyStr) : PyStr :=
  match ((text.splitOn (ofChar '\n')).filter fun line => !isBlank line).map leading with
  | [] => []
  | line :: lines => lines.foldl commonPrefix line

/-- `textwrap.dedent` -/
def dedent (text : PyStr) : PyStr :=
  [ofChar '\n'].intercalate ((text.splitOn (ofChar '\n')).map fun line =>
    if isBlank line then [] else line.drop (margin text).length)

/-- `text.replace("\n", "\n" + " " * n)` -/
def indentNewlines (n : ℕ) (text : PyStr) : PyStr :=
  text.flatMap fun c => if c = ofChar '\n' then ofChar '\n' :: spaces n else [c]

/-! ### The margin -/

lemma prefix_commonPrefix_iff {q s t : PyStr} : q <+: commonPrefix s t ↔ q <+: s ∧ q <+: t := by
  induction s generalizing q t with
  | nil =>
    have hnil : commonPrefix [] t = [] := by cases t <;> rfl
    rw [hnil, List.prefix_nil]
    refine ⟨?_, And.left⟩
    rintro rfl
    exact ⟨rfl, List.nil_prefix⟩
  | cons c s ih =>
    cases t with
    | nil =>
      have hnil : commonPrefix (c :: s) [] = [] := rfl
      rw [hnil, List.prefix_nil]
      refine ⟨?_, And.right⟩
      rintro rfl
      exact ⟨List.nil_prefix, rfl⟩
    | cons d t =>
      rw [commonPrefix]
      cases q with
      | nil => simp
      | cons e q =>
        split_ifs with hcd
        · simp only [List.cons_prefix_cons, ih, hcd]
          tauto
        · simp only [List.cons_prefix_cons, List.prefix_nil, reduceCtorEq, false_iff]
          rintro ⟨⟨rfl, -⟩, rfl, -⟩
          exact hcd rfl

lemma prefix_foldl_iff {q line : PyStr} {lines : List PyStr} :
    q <+: lines.foldl commonPrefix line ↔ q <+: line ∧ ∀ l ∈ lines, q <+: l := by
  induction lines generalizing line with
  | nil => simp
  | cons l lines ih =>
    rw [List.foldl_cons, ih, prefix_commonPrefix_iff, List.forall_mem_cons, and_assoc]

/-- What all lines begin with that are not blank. -/
lemma prefix_margin_iff {q text line : PyStr} (hline : line ∈ text.splitOn (ofChar '\n'))
    (hblank : isBlank line = false) : q <+: margin text ↔
      ∀ l ∈ text.splitOn (ofChar '\n'), isBlank l = false → q <+: leading l := by
  have hforall : (∀ l ∈ text.splitOn (ofChar '\n'), isBlank l = false → q <+: leading l) ↔
      ∀ l ∈ ((text.splitOn (ofChar '\n')).filter fun line => !isBlank line).map leading, q <+: l := by
    simp only [List.forall_mem_map, List.mem_filter, Bool.not_eq_true', and_imp]
  rw [hforall, margin]
  cases hlines : ((text.splitOn (ofChar '\n')).filter fun line => !isBlank line).map leading with
  | nil =>
    have hmem : line ∈ (text.splitOn (ofChar '\n')).filter fun line => !isBlank line :=
      List.mem_filter.2 ⟨hline, by rw [hblank]; rfl⟩
    rw [List.map_eq_nil_iff.1 hlines] at hmem
    exact absurd hmem List.not_mem_nil
  | cons l lines =>
    dsimp only
    rw [prefix_foldl_iff, List.forall_mem_cons]

lemma spaces_prefix_leading {n : ℕ} {line : PyStr} :
    spaces n <+: leading line ↔ spaces n <+: line := by
  refine ⟨fun h => h.trans (List.takeWhile_prefix _), ?_⟩
  rintro ⟨rest, rfl⟩
  have hall : ∀ c ∈ spaces n, (decide (c = ofChar ' ') || decide (c = ofChar '\t')) = true := by
    intro c hc
    rw [List.eq_of_mem_replicate hc]
    rfl
  rw [leading, List.takeWhile_append_of_pos hall]
  exact List.prefix_append _ _

lemma length_spaces (n : ℕ) : (spaces n).length = n := List.length_replicate

lemma spaces_add (m n : ℕ) : spaces (m + n) = spaces m ++ spaces n :=
  List.replicate_add m n _

lemma spaces_prefix_spaces {m n : ℕ} : spaces m <+: spaces n ↔ m ≤ n := by
  refine ⟨fun h => ?_, fun h => ?_⟩
  · have hlength := h.length_le
    rwa [length_spaces, length_spaces] at hlength
  · obtain ⟨k, rfl⟩ := Nat.exists_eq_add_of_le h
    rw [spaces_add]
    exact List.prefix_append _ _

/-- Where a line is indented by spaces, the margin has the spaces with which all lines begin. -/
lemma le_margin_iff {k n : ℕ} {text line : PyStr} (hline : line ∈ text.splitOn (ofChar '\n'))
    (hblank : isBlank line = false) (hleading : leading line = spaces k) :
    n ≤ (margin text).length ↔
      ∀ l ∈ text.splitOn (ofChar '\n'), isBlank l = false → spaces n <+: l := by
  have hmargin : margin text = spaces (margin text).length := by
    have hbegins := (prefix_margin_iff hline hblank).1 (List.prefix_refl (margin text)) line hline
      hblank
    rw [hleading] at hbegins
    exact List.eq_replicate_iff.2 ⟨rfl, fun c hc => List.eq_of_mem_replicate (hbegins.subset hc)⟩
  rw [← spaces_prefix_spaces, ← hmargin, prefix_margin_iff hline hblank]
  simp only [spaces_prefix_leading]

/-! ### Lines -/

lemma splitOn_eq (text : PyStr) : text.splitOn (ofChar '\n') =
    (split isNewline text).1 :: tail isNewline text := by
  induction text with
  | nil => rfl
  | cons c text ih =>
    rw [List.splitOn_cons_eq_if_modifyHead, ih, tail, tail, split]
    have hc : (c == ofChar '\n') = isNewline c := rfl
    rw [hc]
    split_ifs
    · rfl
    · rfl

lemma intercalate_splitOn_map (f : PyStr → PyStr) (text : PyStr) :
    [ofChar '\n'].intercalate ((text.splitOn (ofChar '\n')).map f) = mapAll isNewline f text := by
  have hbreaks : ∀ r ∈ (split isNewline text).2, r.1 = ofChar '\n' := fun r hr =>
    eq_of_beq ((free_split isNewline text).2 r hr).1
  have hlines : ∀ (line : PyStr) (rs : List (PyChar × PyStr)), (∀ r ∈ rs, r.1 = ofChar '\n') →
      [ofChar '\n'].intercalate (line :: (rs.map Prod.snd).map f) =
        line ++ rs.flatMap fun r => r.1 :: f r.2 := by
    intro line rs hrs
    induction rs generalizing line with
    | nil => simp
    | cons r rs ih =>
      obtain ⟨hr, hrs⟩ := List.forall_mem_cons.1 hrs
      rw [List.map_cons, List.map_cons, List.intercalate_cons_cons, ih _ hrs, List.flatMap_cons, hr]
      simp
  rw [splitOn_eq, List.map_cons, mapAll, ← hlines _ _ hbreaks]
  rfl

/-- What `dedent` makes of a line. -/
def cut (m : ℕ) (line : PyStr) : PyStr := if isBlank line then [] else line.drop m

lemma dedent_eq (text : PyStr) :
    dedent text = mapAll isNewline (cut (margin text).length) text :=
  intercalate_splitOn_map (cut (margin text).length) text

lemma indentNewlines_eq (n : ℕ) (text : PyStr) :
    indentNewlines n text = mapTail isNewline (spaces n ++ ·) text := by
  induction text with
  | nil => rfl
  | cons c text ih =>
    rw [indentNewlines, List.flatMap_cons, ← indentNewlines, ih]
    by_cases hc : c = ofChar '\n'
    · have hbreak : isNewline c = true := by simpa [isNewline] using hc
      rw [if_pos hc, mapTail_cons_break hbreak, mapAll, mapTail, hc]
      simp
    · have hfree : Free isNewline [c] := by simpa [Free, isNewline] using hc
      have happend := mapTail_append_free (f := (spaces n ++ ·)) (b := text) hfree
      rw [if_neg hc, ← happend]
      rfl

/-- An empty line in front does not change the margin. -/
lemma margin_cons (text : PyStr) : margin (ofChar '\n' :: text) = margin text := by
  have hsplit : (ofChar '\n' :: text).splitOn (ofChar '\n') = [] :: text.splitOn (ofChar '\n') := by
    rw [List.splitOn_cons_eq_if_modifyHead, if_pos (beq_self_eq_true _)]
  unfold margin
  rw [hsplit]
  rfl

lemma dedent_cons (text : PyStr) : dedent (ofChar '\n' :: text) = ofChar '\n' :: dedent text := by
  rw [dedent_eq, dedent_eq, margin_cons]
  rfl

lemma dedent_cons_eq (text : PyStr) : dedent (ofChar '\n' :: text) =
    mapTail isNewline (cut (margin (ofChar '\n' :: text)).length) (ofChar '\n' :: text) := by
  rw [dedent_eq]
  rfl

/-! ### A text that begins with an empty line and one that is indented by spaces -/

section Head

variable {k : ℕ} {c : PyChar}

lemma isNewline_of_not_space (hc : isSpace c = false) : isNewline c = false := by
  by_contra h
  have heq : c = ofChar '\n' := by simpa [isNewline] using h
  rw [heq] at hc
  exact absurd hc (by decide)

lemma tail_head (hc : isSpace c = false) (s : PyStr) :
    tail isNewline (ofChar '\n' :: (spaces k ++ c :: s)) =
      (spaces k ++ c :: (split isNewline s).1) :: tail isNewline s := by
  have hfree : Free isNewline (spaces k ++ [c]) := by
    refine free_append.2 ⟨fun d hd => ?_, by simpa [Free] using isNewline_of_not_space hc⟩
    rw [List.eq_of_mem_replicate hd]
    rfl
  have hbreak := @tail_append_break _ isNewline [] (spaces k ++ c :: s) (ofChar '\n') rfl
  have hsplit := split_append_free (b := s) hfree
  have happend := tail_append_free (b := s) hfree
  rw [List.append_assoc, List.singleton_append] at hsplit happend
  rw [List.nil_append] at hbreak
  rw [hbreak, hsplit, happend, List.append_assoc]
  rfl

lemma isBlank_head (hc : isSpace c = false) (s : PyStr) : isBlank (spaces k ++ c :: s) = false := by
  rw [isBlank, List.all_append, List.all_cons, hc, Bool.false_and, Bool.and_false]

lemma leading_head (hc : isSpace c = false) (s : PyStr) :
    leading (spaces k ++ c :: s) = spaces k := by
  have hspace : c ≠ ofChar ' ' := by
    rintro rfl
    exact absurd hc (by decide)
  have htab : c ≠ ofChar '\t' := by
    rintro rfl
    exact absurd hc (by decide)
  have hall : ∀ d ∈ spaces k, (decide (d = ofChar ' ') || decide (d = ofChar '\t')) = true := by
    intro d hd
    rw [List.eq_of_mem_replicate hd]
    rfl
  rw [leading, List.takeWhile_append_of_pos hall, List.takeWhile_cons, decide_eq_false hspace,
    decide_eq_false htab]
  exact List.append_nil _

/-- The margin has the spaces with which all lines begin but the first one. -/
lemma le_margin_head_iff {n : ℕ} (hc : isSpace c = false) (s : PyStr) :
    n ≤ (margin (ofChar '\n' :: (spaces k ++ c :: s))).length ↔
      ∀ l ∈ tail isNewline (ofChar '\n' :: (spaces k ++ c :: s)),
        isBlank l = false → spaces n <+: l := by
  have hmem : spaces k ++ c :: (split isNewline s).1 ∈
      (ofChar '\n' :: (spaces k ++ c :: s)).splitOn (ofChar '\n') := by
    rw [splitOn_eq, tail_head hc]
    exact List.mem_cons_of_mem _ List.mem_cons_self
  rw [le_margin_iff hmem (isBlank_head hc _) (leading_head hc _), splitOn_eq, List.forall_mem_cons]
  exact and_iff_right nofun

lemma margin_head_le (hc : isSpace c = false) (s : PyStr) :
    (margin (ofChar '\n' :: (spaces k ++ c :: s))).length ≤ k := by
  have hlines := (le_margin_head_iff (k := k) hc s).1 le_rfl
  rw [tail_head hc] at hlines
  have hbegins := spaces_prefix_leading.2 (hlines _ List.mem_cons_self (isBlank_head hc _))
  rwa [leading_head hc, spaces_prefix_spaces] at hbegins

end Head

end Textwrap
