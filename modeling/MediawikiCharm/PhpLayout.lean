/-
Layout of generated PHP (`mediawiki/_settings.py`).

Settings are rendered with their values in place and laid out afterwards.  `dedent` and the
indentation of lines take the lines of a value for lines of the code.  The code keeps its tokens,
but a value with several lines becomes another one, unless the changes cancel each other.
-/
import MediawikiCharm.Lib.Textwrap
import MediawikiCharm.PhpStrings

namespace MediawikiCharm
namespace PhpLayout

open PyText Lines Textwrap Php PhpStrings

/-! ### Layouts -/

/-- The symbols that end a line for a function of the library: they are white space, and the space
is none of them. -/
structure LineBreaks where
  isBreak : PyChar → Bool
  isSpace : ∀ c, isBreak c = true → isSpace c = true
  space : isBreak (ofChar ' ') = false

/-- `str.split("\n")` -/
def newlines : LineBreaks where
  isBreak := isNewline
  isSpace c hc := by
    rw [eq_of_beq hc]
    rfl
  space := rfl

/-- `str.splitlines()` -/
def lineBreaks : LineBreaks where
  isBreak := isLineBreak
  isSpace c hc := by
    simp only [isLineBreak, PyText.isSpace, Bool.or_eq_true, Bool.and_eq_true, decide_eq_true_eq,
      beq_iff_eq] at hc ⊢
    omega
  space := rfl

/-- A change of lines: spaces are taken from the front of a line and others put there.  Blank lines
are emptied, or have spaces put in front of them. -/
structure Layout where
  add : ℕ
  cut : ℕ
  blank : Option ℕ

namespace Layout

variable (f : Layout)

/-- What becomes of a line. -/
def line (l : PyStr) : PyStr :=
  if isBlank l then f.blank.elim [] fun n => spaces n ++ l else spaces f.add ++ l.drop f.cut

/-- There are as many spaces in front of the line as are taken. -/
def Fits (l : PyStr) : Prop := isBlank l = false → spaces f.cut <+: l

/-- `textwrap.dedent`, with a margin of so many spaces -/
def dedent (m : ℕ) : Layout := ⟨0, m, none⟩

/-- `text.replace("\n", "\n" + " " * n)` -/
def indentNewlines (n : ℕ) : Layout := ⟨n, 0, some n⟩

end Layout

variable {f : Layout} {b : LineBreaks} {l s t y : PyStr}

lemma isBlank_append : isBlank (s ++ t) = (isBlank s && isBlank t) := List.all_append

lemma isBlank_append_quote : isBlank (s ++ [ofChar '\'']) = false := by
  rw [isBlank_append, Bool.and_eq_false_iff]
  exact .inr rfl

lemma isBlank_spaces (n : ℕ) : isBlank (spaces n) = true := by
  refine List.all_eq_true.2 fun c hc => ?_
  rw [List.eq_of_mem_replicate hc]
  rfl

lemma line_of_not_blank (h : isBlank l = false) : f.line l = spaces f.add ++ l.drop f.cut := by
  rw [Layout.line, h]
  exact if_neg Bool.false_ne_true

lemma cut_le_length {n : ℕ} (h : spaces n <+: l) : n ≤ l.length := by
  have hlength := h.length_le
  rwa [length_spaces] at hlength

/-- What is behind a line that is not blank is kept. -/
lemma line_append (h : isBlank l = false) (hfits : f.Fits l) : f.line (l ++ y) = f.line l ++ y := by
  have hblank : isBlank (l ++ y) = false := by
    rw [isBlank_append, h]
    rfl
  rw [line_of_not_blank hblank, line_of_not_blank h,
    List.drop_append_of_le_length (cut_le_length (hfits h)), List.append_assoc]

lemma fits_append_iff (h : isBlank l = false) : f.Fits (l ++ y) ↔ f.Fits l := by
  have hblank : isBlank (l ++ y) = false := by
    rw [isBlank_append, h]
    rfl
  refine ⟨fun hfits _ => ?_, fun hfits _ => (hfits h).trans (List.prefix_append _ _)⟩
  rcases List.prefix_or_prefix_of_prefix (hfits hblank) (List.prefix_append l y) with hp | hp
  · exact hp
  · -- a line that consists of spaces is blank
    have hspaces : l = spaces l.length :=
      List.eq_replicate_iff.2 ⟨rfl, fun c hc => List.eq_of_mem_replicate (hp.subset hc)⟩
    rw [hspaces, isBlank_spaces] at h
    exact absurd h nofun

lemma free_spaces (n : ℕ) : Free b.isBreak (spaces n) := fun c hc => by
  rw [List.eq_of_mem_replicate hc]
  exact b.space

lemma free_line (h : Free b.isBreak l) : Free b.isBreak (f.line l) := by
  unfold Layout.line
  split_ifs
  · cases f.blank with
    | none => exact Free.nil
    | some n => exact free_append.2 ⟨free_spaces n, h⟩
  · exact free_append.2 ⟨free_spaces _, fun c hc => h c (List.mem_of_mem_drop hc)⟩

lemma not_isBreak_quote : b.isBreak (ofChar '\'') = false := by
  by_contra h
  exact absurd (b.isSpace _ (by simpa using h)) (by decide)

lemma free_append_quote (h : Free b.isBreak l) : Free b.isBreak (l ++ [ofChar '\'']) :=
  free_append.2 ⟨h, by simpa [Free] using not_isBreak_quote⟩

/-- A text with a quote at its end is a part of a line, or has a last line with the quote. -/
lemma exists_last_quote {a : PyStr} {c : PyChar} (h : s ++ [ofChar '\''] = a ++ c :: l)
    (hc : b.isBreak c = true) : ∃ l', l = l' ++ [ofChar '\''] ∧ s = a ++ c :: l' := by
  rcases List.eq_nil_or_concat l with rfl | ⟨l', d, rfl⟩
  · have hlast := (List.append_inj' h rfl).2
    rw [List.cons.injEq] at hlast
    rw [← hlast.1, not_isBreak_quote] at hc
    exact absurd hc nofun
  · rw [List.concat_eq_append] at h ⊢
    rw [← List.cons_append, ← List.append_assoc] at h
    obtain ⟨rfl, hd⟩ := List.append_inj' h rfl
    exact ⟨l', by rw [hd], rfl⟩

lemma settles_quote (hfits : ∀ l ∈ tail b.isBreak (s ++ [ofChar '\'']), f.Fits l) :
    Settles b.isBreak f.line (s ++ [ofChar '\'']) := by
  intro a c l heq hc hl y
  have hmem : l ∈ tail b.isBreak (s ++ [ofChar '\'']) := by
    rw [heq, tail_append_break hc, split_of_free hl]
    simp
  obtain ⟨l', rfl, -⟩ := exists_last_quote heq hc
  exact line_append isBlank_append_quote (hfits _ hmem)

/-! ### What becomes of a piece -/

/-- What becomes of a piece of a text that is followed by a quote. -/
def relay (b : LineBreaks) (f : Layout) (s : PyStr) : PyStr :=
  (mapTail b.isBreak f.line (s ++ [ofChar '\''])).dropLast

lemma relay_of_free (h : Free b.isBreak s) : relay b f s = s := by
  rw [relay, mapTail_of_free (free_append_quote h), List.dropLast_concat]

lemma relay_append_break {a : PyStr} {c : PyChar} (hc : b.isBreak c = true)
    (hl : Free b.isBreak l) (hfits : spaces f.cut <+: l) : relay b f (a ++ c :: l) =
      mapTail b.isBreak f.line a ++ c :: (spaces f.add ++ l.drop f.cut) := by
  rw [relay, List.append_assoc, List.cons_append, mapTail_append_break hc,
    mapAll_of_free (free_append_quote hl), line_of_not_blank isBlank_append_quote,
    List.drop_append_of_le_length (cut_le_length hfits), ← List.append_assoc,
    ← List.cons_append, ← List.append_assoc, List.dropLast_concat]

/-- The lines of a piece have as many spaces in front as are taken; the last line is not blank in
the text. -/
def Fits (b : LineBreaks) (f : Layout) (s : PyStr) : Prop :=
  ∀ l ∈ tail b.isBreak (s ++ [ofChar '\'']), f.Fits l

lemma fits_of_free (h : Free b.isBreak s) : Fits b f s := by
  rw [Fits, tail_of_free (free_append_quote h)]
  exact nofun

lemma fits_append_break {a : PyStr} {c : PyChar} (hc : b.isBreak c = true)
    (hl : Free b.isBreak l) :
    Fits b f (a ++ c :: l) ↔ (∀ l ∈ tail b.isBreak a, f.Fits l) ∧ spaces f.cut <+: l := by
  have hquote : f.Fits (l ++ [ofChar '\'']) ↔ spaces f.cut <+: l := by
    refine ⟨fun h => ?_, fun h _ => h.trans (List.prefix_append _ _)⟩
    have hbegins := h isBlank_append_quote
    rcases List.prefix_concat_iff.1 hbegins with heq | hp
    · have hmem : ofChar '\'' ∈ spaces f.cut := heq ▸ by simp
      exact absurd (List.eq_of_mem_replicate hmem) (by decide)
    · exact hp
  rw [Fits, List.append_assoc, List.cons_append, tail_append_break hc,
    split_of_free (free_append_quote hl), tail_of_free (free_append_quote hl),
    List.forall_mem_append, List.forall_mem_singleton, hquote]

lemma mapTail_append_quote (h : Fits b f s) :
    mapTail b.isBreak f.line (s ++ [ofChar '\'']) = relay b f s ++ [ofChar '\''] := by
  rcases free_or_exists_last b.isBreak s with hs | ⟨a, c, l, rfl, hc, hl⟩
  · rw [relay_of_free hs, mapTail_of_free (free_append_quote hs)]
  · have hbegins := ((fits_append_break hc hl).1 h).2
    rw [relay_append_break hc hl hbegins, List.append_assoc, List.cons_append,
      mapTail_append_break hc, mapAll_of_free (free_append_quote hl),
      line_of_not_blank isBlank_append_quote, List.drop_append_of_le_length (cut_le_length hbegins)]
    simp only [List.append_assoc, List.cons_append]

/-! ### Escaped values -/

lemma escapePhpString_append : escapePhpString (s ++ t) = escapePhpString s ++ escapePhpString t := by
  rw [escapePhpString_eq, escapePhpString_eq, escapePhpString_eq, List.flatMap_append]

lemma escapeChar_of_isSpace {c : PyChar} (h : isSpace c = true) : escapeChar c = [c] := by
  rw [escapeChar, if_neg, if_neg]
  · rintro rfl
    exact absurd h (by decide)
  · rintro rfl
    exact absurd h (by decide)

lemma escapePhpString_of_isBlank (h : isBlank s = true) : escapePhpString s = s := by
  induction s with
  | nil => rfl
  | cons c s ih =>
    obtain ⟨hc, hs⟩ := List.forall_mem_cons.1 (List.all_eq_true.1 h)
    rw [escapePhpString_cons, escapeChar_of_isSpace hc, ih (List.all_eq_true.2 hs)]
    rfl

lemma isBlank_escapeChar (c : PyChar) : isBlank (escapeChar c) = isSpace c := by
  unfold escapeChar
  split_ifs with hslash hquote
  · rw [hslash]
    rfl
  · rw [hquote]
    rfl
  · exact Bool.and_true _

lemma isBlank_escapePhpString : isBlank (escapePhpString s) = isBlank s := by
  induction s with
  | nil => rfl
  | cons c s ih =>
    rw [escapePhpString_cons, isBlank_append, isBlank_escapeChar, ih]
    rfl

lemma spaces_prefix_escapePhpString {n : ℕ} : spaces n <+: escapePhpString s ↔ spaces n <+: s := by
  constructor
  · intro h
    induction n generalizing s with
    | zero => exact List.nil_prefix
    | succ n ih =>
      cases s with
      | nil => exact absurd h.length_le (by simp [length_spaces])
      | cons c s =>
        rw [escapePhpString_cons] at h
        have hspaces : spaces (n + 1) = ofChar ' ' :: spaces n := rfl
        by_cases hc : c = ofChar ' '
        · rw [hc, escapeChar_of_isSpace rfl, hspaces, List.singleton_append,
            List.cons_prefix_cons] at h
          rw [hc, hspaces, List.cons_prefix_cons]
          exact ⟨rfl, ih h.2⟩
        · rw [hspaces] at h
          unfold escapeChar at h
          split_ifs at h
          · exact absurd (List.cons_prefix_cons.1 h).1 (by decide)
          · exact absurd (List.cons_prefix_cons.1 h).1 (by decide)
          · exact absurd (List.cons_prefix_cons.1 h).1.symm hc
  · rintro ⟨rest, rfl⟩
    rw [escapePhpString_append, escapePhpString_of_isBlank (isBlank_spaces n)]
    exact List.prefix_append _ _

lemma drop_escapePhpString {n : ℕ} (h : spaces n <+: s) :
    (escapePhpString s).drop n = escapePhpString (s.drop n) := by
  obtain ⟨rest, rfl⟩ := h
  rw [escapePhpString_append, escapePhpString_of_isBlank (isBlank_spaces n),
    List.drop_left' (length_spaces n), List.drop_left' (length_spaces n)]

lemma line_escapePhpString (h : f.Fits l) :
    f.line (escapePhpString l) = escapePhpString (f.line l) := by
  cases hblank : isBlank l with
  | true =>
    rw [escapePhpString_of_isBlank hblank, escapePhpString_of_isBlank]
    rw [Layout.line, hblank, if_pos rfl]
    cases f.blank with
    | none => rfl
    | some n =>
      change isBlank (spaces n ++ l) = true
      rw [isBlank_append, isBlank_spaces, hblank]
      rfl
  | false =>
    rw [line_of_not_blank (isBlank_escapePhpString.trans hblank), line_of_not_blank hblank,
      escapePhpString_append, escapePhpString_of_isBlank (isBlank_spaces _),
      drop_escapePhpString (h hblank)]

lemma fits_escapePhpString : f.Fits (escapePhpString l) ↔ f.Fits l := by
  rw [Layout.Fits, isBlank_escapePhpString, spaces_prefix_escapePhpString]
  rfl

/-- The lines of an escaped text are the escaped lines. -/
lemma split_escapePhpString : split b.isBreak (escapePhpString s) =
    (escapePhpString (split b.isBreak s).1,
      (split b.isBreak s).2.map fun r => (r.1, escapePhpString r.2)) := by
  induction s with
  | nil => rfl
  | cons c s ih =>
    rw [escapePhpString_cons]
    cases hc : b.isBreak c with
    | true =>
      rw [escapeChar_of_isSpace (b.isSpace c hc), List.singleton_append, split, split, hc, ih]
      rfl
    | false =>
      have hfree : Free b.isBreak (escapeChar c) := by
        intro d hd
        unfold escapeChar at hd
        by_contra hbreak
        have hspace := b.isSpace d (by simpa using hbreak)
        split_ifs at hd with hslash hquote
        · have hall : (lit "\\\\").all (fun d => !isSpace d) = true := by decide
          exact absurd (List.all_eq_true.1 hall d hd) (by simp [hspace])
        · have hall : (lit "\\'").all (fun d => !isSpace d) = true := by decide
          exact absurd (List.all_eq_true.1 hall d hd) (by simp [hspace])
        · rw [List.mem_singleton.1 hd] at hbreak
          exact hbreak hc
      rw [split_append_free hfree, split, hc, ih]
      simp [escapePhpString_cons]

lemma free_escapePhpString : Free b.isBreak (escapePhpString s) ↔ Free b.isBreak s := by
  rw [free_iff, free_iff, split_escapePhpString, List.map_eq_nil_iff]

lemma tail_escapePhpString :
    tail b.isBreak (escapePhpString s) = (tail b.isBreak s).map escapePhpString := by
  rw [tail, split_escapePhpString, tail, List.map_map, List.map_map]
  rfl

lemma escapePhpString_cons_break {c : PyChar} (hc : b.isBreak c = true) :
    escapePhpString (c :: s) = c :: escapePhpString s := by
  rw [escapePhpString_cons, escapeChar_of_isSpace (b.isSpace c hc)]
  rfl

lemma mapTail_escapePhpString (h : ∀ l ∈ tail b.isBreak s, f.Fits l) :
    mapTail b.isBreak f.line (escapePhpString s) = escapePhpString (mapTail b.isBreak f.line s) := by
  have hflat : ∀ rs : List (PyChar × PyStr), escapePhpString (rs.flatMap fun r => r.1 :: f.line r.2) =
      rs.flatMap fun r => escapePhpString (r.1 :: f.line r.2) := fun rs => by
    rw [escapePhpString_eq, List.flatMap_assoc]
    refine List.flatMap_congr fun r _ => ?_
    rw [escapePhpString_eq]
  rw [mapTail, split_escapePhpString, mapTail, escapePhpString_append, hflat, List.flatMap_map]
  congr 1
  refine List.flatMap_congr fun r hr => ?_
  rw [escapePhpString_cons_break ((free_split b.isBreak s).2 r hr).1,
    line_escapePhpString (h r.2 (List.mem_map_of_mem hr))]

lemma fits_escapePhpString_iff : Fits b f (escapePhpString s) ↔ Fits b f s := by
  rcases free_or_exists_last b.isBreak s with hs | ⟨a, c, l, rfl, hc, hl⟩
  · exact iff_of_true (fits_of_free (free_escapePhpString.2 hs)) (fits_of_free hs)
  · rw [escapePhpString_append, escapePhpString_cons_break hc,
      fits_append_break hc (free_escapePhpString.2 hl), fits_append_break hc hl,
      spaces_prefix_escapePhpString, tail_escapePhpString, List.forall_mem_map]
    simp only [fits_escapePhpString]

/-- A value is laid out like its text. -/
lemma relay_escapePhpString (h : Fits b f s) :
    relay b f (escapePhpString s) = escapePhpString (relay b f s) := by
  rcases free_or_exists_last b.isBreak s with hs | ⟨a, c, l, rfl, hc, hl⟩
  · rw [relay_of_free hs, relay_of_free (free_escapePhpString.2 hs)]
  · obtain ⟨ha, hbegins⟩ := (fits_append_break hc hl).1 h
    rw [escapePhpString_append, escapePhpString_cons_break hc,
      relay_append_break hc (free_escapePhpString.2 hl) (spaces_prefix_escapePhpString.2 hbegins),
      relay_append_break hc hl hbegins, mapTail_escapePhpString ha, drop_escapePhpString hbegins,
      escapePhpString_append, escapePhpString_cons_break hc, escapePhpString_append,
      escapePhpString_of_isBlank (isBlank_spaces _)]

end PhpLayout
end MediawikiCharm
