/-
Entries on lines of their own.

The entries of an array are joined by line breaks.  An entry begins with code, and no line break
stands in its code.  So a change that takes no spaces from the lines puts its spaces in front of
each entry, and apart from that it changes the values only.
-/
import MediawikiCharm.Lib.Split
import MediawikiCharm.PhpLayout.Text

namespace MediawikiCharm
namespace PhpLayout

open PyText Lines Textwrap Php PhpStrings

/-- A piece of an entry. -/
inductive Piece
  | code (s : PyStr)
  | value (v : PyStr)

namespace Piece

/-- The text of a piece. -/
def text : Piece → PyStr
  | code s => s
  | value v => quoted v

/-- The tokens of a piece. -/
def tokens : Piece → List Token
  | code s => (scan .code s).2
  | value v => [.str v]

/-- A piece with another value. -/
def map (g : PyStr → PyStr) : Piece → Piece
  | code s => code s
  | value v => value (g v)

/-- No line break stands in the code, and its literals are complete. -/
def IsLine (b : LineBreaks) : Piece → Prop
  | code s => Free b.isBreak s ∧ (scan .code s).1 = .code
  | value _ => True

end Piece

/-- The text of an entry. -/
def entryText (entry : List Piece) : PyStr := entry.flatMap Piece.text

/-- The tokens of an entry. -/
def entryTokens (entry : List Piece) : List Token := entry.flatMap Piece.tokens

/-- The entry stands on a line of its own, which begins with code. -/
structure IsEntry (b : LineBreaks) (entry : List Piece) : Prop where
  pieces : ∀ piece ∈ entry, piece.IsLine b
  head : ∃ c s more, entry = .code (c :: s) :: more ∧ isSpace c = false

instance (b : LineBreaks) : DecidablePred (Piece.IsLine b)
  | .code s =>
    decidable_of_iff ((s.all fun c => !b.isBreak c) = true ∧ (scan .code s).1 = .code) <| by
    rw [List.all_eq_true, Piece.IsLine, Free]
    simp only [Bool.not_eq_true']
  | .value _ => isTrue trivial

variable {f : Layout} {b : LineBreaks} {entry : List Piece} {g : PyStr → PyStr}

lemma Piece.IsLine.map {piece : Piece} (h : piece.IsLine b) : (piece.map g).IsLine b := by
  cases piece with
  | code s => exact h
  | value v => exact trivial

/-- An entry with other values. -/
lemma IsEntry.map (h : IsEntry b entry) : IsEntry b (entry.map (Piece.map g)) := by
  obtain ⟨c, s, more, rfl, hc⟩ := h.head
  exact ⟨List.forall_mem_map.2 fun piece hpiece => (h.pieces piece hpiece).map,
    c, s, more.map (Piece.map g), rfl, hc⟩

/-- The pieces of entries that are put together. -/
lemma mem_intercalate {sep : List Piece} {entries : List (List Piece)} {piece : Piece}
    (hsep : piece ∉ sep) : piece ∈ sep.intercalate entries ↔ ∃ entry ∈ entries, piece ∈ entry := by
  induction entries with
  | nil => simp
  | cons entry entries ih =>
    cases entries with
    | nil => simp
    | cons entry' entries =>
      rw [List.intercalate_cons_cons, List.mem_append, List.mem_append, ih]
      simp [hsep]

/-! ### Tokens -/

lemma scan_entryText (h : ∀ piece ∈ entry, piece.IsLine b) :
    scan .code (entryText entry) = (.code, entryTokens entry) := by
  induction entry with
  | nil => rfl
  | cons piece entry ih =>
    obtain ⟨hpiece, hentry⟩ := List.forall_mem_cons.1 h
    rw [entryText, List.flatMap_cons, entryTokens, List.flatMap_cons]
    cases piece with
    | code s =>
      change scan .code (s ++ entryText entry) = (.code, (scan .code s).2 ++ entryTokens entry)
      rw [scan_append, hpiece.2, ih hentry]
    | value v =>
      change scan .code (quoted v ++ entryText entry) = (.code, .str v :: entryTokens entry)
      rw [scan_quoted, ih hentry]

lemma entryTokens_flatten (entries : List (List Piece)) :
    entryTokens entries.flatten = entries.flatMap entryTokens := by
  induction entries with
  | nil => rfl
  | cons entry entries ih =>
    rw [List.flatten_cons, List.flatMap_cons, ← ih]
    exact List.flatMap_append

/-- The values of an entry are determined by its tokens. -/
lemma entryTokens_map_eq_iff :
    entryTokens (entry.map (Piece.map g)) = entryTokens entry ↔ ∀ v, .value v ∈ entry → g v = v := by
  induction entry with
  | nil => exact iff_of_true rfl fun v hv => absurd hv List.not_mem_nil
  | cons piece entry ih =>
    rw [List.map_cons, entryTokens, List.flatMap_cons, entryTokens, List.flatMap_cons]
    cases piece with
    | code s =>
      have hmem : ∀ v, Piece.value v ∈ .code s :: entry ↔ .value v ∈ entry := by simp
      simp only [hmem]
      exact List.append_right_inj _ |>.trans ih
    | value w =>
      have hmem : ∀ v, Piece.value v ∈ .value w :: entry ↔ v = w ∨ .value v ∈ entry := by simp
      simp only [hmem, or_imp, forall_and, forall_eq]
      refine List.cons_eq_cons.trans (and_congr ?_ ih)
      exact ⟨Token.str.inj, congrArg Token.str⟩

lemma skeleton_entryTokens (entry : List Piece) (g : PyStr → PyStr) :
    skeleton (entryTokens (entry.map (Piece.map g))) = skeleton (entryTokens entry) := by
  induction entry with
  | nil => rfl
  | cons piece entry ih =>
    have hpiece : skeleton (piece.map g).tokens = skeleton piece.tokens := by
      cases piece with
      | code s => rfl
      | value v => rfl
    rw [List.map_cons, entryTokens, entryTokens, List.flatMap_cons, List.flatMap_cons,
      skeleton_append, skeleton_append, hpiece]
    exact congrArg _ ih

/-- Entries on lines of their own have the tokens of the entries. -/
lemma scan_lines {lines : List PyStr} (h : ∀ line ∈ lines, (scan .code line).1 = .code) :
    scan .code ([ofChar '\n'].intercalate lines) =
      (.code, lines.flatMap fun line => (scan .code line).2) := by
  induction lines with
  | nil => rfl
  | cons line lines ih =>
    obtain ⟨hline, hlines⟩ := List.forall_mem_cons.1 h
    cases lines with
    | nil =>
      rw [List.intercalate_singleton, List.flatMap_singleton]
      exact Prod.ext hline rfl
    | cons line' lines =>
      rw [List.intercalate_cons_cons, List.append_assoc, scan_append, hline, List.singleton_append,
        scan_cons_skipped rfl, ih hlines]
      rfl

/-! ### Layout -/

/-- The values of an entry change, and what stands behind the entry. -/
lemma mapTail_entryText_append (h : ∀ piece ∈ entry, piece.IsLine b)
    (hfits : ∀ v, .value v ∈ entry → Fits b f v) (y : PyStr) :
    mapTail b.isBreak f.line (entryText entry ++ y) =
      entryText (entry.map (Piece.map (relay b f))) ++ mapTail b.isBreak f.line y := by
  induction entry with
  | nil => rfl
  | cons piece entry ih =>
    obtain ⟨hpiece, hentry⟩ := List.forall_mem_cons.1 h
    have ih' := ih hentry fun v hv => hfits v (List.mem_cons_of_mem _ hv)
    rw [entryText, List.flatMap_cons, List.map_cons, entryText, List.flatMap_cons,
      List.append_assoc, List.append_assoc]
    cases piece with
    | code s =>
      change mapTail b.isBreak f.line (s ++ (entryText entry ++ y)) = s ++ (entryText _ ++ _)
      rw [mapTail_append_free hpiece.1, ih']
    | value v =>
      have hvalue : Fits b f (escapePhpString v) :=
        fits_escapePhpString_iff.2 (hfits v List.mem_cons_self)
      have hfree : Free b.isBreak [ofChar '\''] := List.forall_mem_singleton.2 not_isBreak_quote
      have hsplit : ∀ w y : PyStr, quoted w ++ y =
          [ofChar '\''] ++ ((escapePhpString w ++ [ofChar '\'']) ++ y) := fun w y => by
        simp only [quoted, List.append_assoc, List.cons_append, List.nil_append]
      change mapTail b.isBreak f.line (quoted v ++ (entryText entry ++ y)) =
        quoted (relay b f v) ++ (entryText _ ++ _)
      rw [hsplit, hsplit, mapTail_append_free hfree, mapTail_append (settles_quote hvalue),
        mapTail_append_quote hvalue, relay_escapePhpString (fits_escapePhpString_iff.1 hvalue), ih']

lemma mapTail_entryText (hcut : f.cut = 0) (h : ∀ piece ∈ entry, piece.IsLine b) :
    mapTail b.isBreak f.line (entryText entry) = entryText (entry.map (Piece.map (relay b f))) := by
  have hfits : ∀ v, Piece.value v ∈ entry → Fits b f v := fun v _ l _ _ =>
    hcut ▸ List.nil_prefix
  have happend := mapTail_entryText_append h hfits []
  rwa [List.append_nil, mapTail_of_free Free.nil, List.append_nil] at happend

/-- The lines of an entry are those of its values. -/
lemma fitsAll_entryText_append {y : PyStr} (h : ∀ piece ∈ entry, piece.IsLine b) :
    FitsAll b f (entryText entry ++ y) ↔
      (∀ v, .value v ∈ entry → Fits b f v) ∧ FitsAll b f y := by
  induction entry with
  | nil => exact (and_iff_right fun v hv => absurd hv List.not_mem_nil).symm
  | cons piece entry ih =>
    obtain ⟨hpiece, hentry⟩ := List.forall_mem_cons.1 h
    rw [entryText, List.flatMap_cons, List.append_assoc]
    cases piece with
    | code s =>
      have hmem : ∀ v, Piece.value v ∈ .code s :: entry ↔ .value v ∈ entry := by simp
      simp only [hmem]
      rw [← ih hentry]
      change FitsAll b f (s ++ (entryText entry ++ y)) ↔ FitsAll b f (entryText entry ++ y)
      rw [FitsAll, tail_append_free hpiece.1]
      rfl
    | value w =>
      have hmem : ∀ v, Piece.value v ∈ .value w :: entry ↔ v = w ∨ .value v ∈ entry := by simp
      have hfree : Free b.isBreak [ofChar '\''] := List.forall_mem_singleton.2 not_isBreak_quote
      have hsplit : quoted w ++ (entryText entry ++ y) =
          [ofChar '\''] ++ ((escapePhpString w ++ [ofChar '\'']) ++ (entryText entry ++ y)) := by
        simp only [quoted, List.append_assoc, List.cons_append, List.nil_append]
      simp only [hmem, or_imp, forall_and, forall_eq]
      rw [and_assoc, ← ih hentry, ← fits_escapePhpString_iff (s := w)]
      change FitsAll b f (quoted w ++ (entryText entry ++ y)) ↔ _
      rw [hsplit, FitsAll, tail_append_free hfree,
        forall_tail_append fun a' d l h hd _ y => fits_append_of_quote h hd y]
      rfl

/-- A text that begins with a symbol has spaces put in front of it. -/
lemma mapAll_of_head (hcut : f.cut = 0) {c : PyChar} (hc : isSpace c = false) (s : PyStr) :
    mapAll b.isBreak f.line (c :: s) = spaces f.add ++ mapTail b.isBreak f.line (c :: s) := by
  have hbreak : b.isBreak c = false := by
    by_contra hb
    have hspace := b.isSpace c (eq_true_of_ne_false hb)
    rw [hc] at hspace
    exact Bool.false_ne_true hspace
  have hfirst : (split b.isBreak (c :: s)).1 = c :: (split b.isBreak s).1 := by
    rw [split, hbreak]
    rfl
  have hblank : isBlank (c :: (split b.isBreak s).1) = false := by
    rw [isBlank, List.all_cons, hc]
    rfl
  rw [mapAll, mapTail, hfirst, line_of_not_blank hblank, hcut, List.drop_zero, List.append_assoc]

/-- Spaces are put in front of each entry, and the values change. -/
lemma mapAll_entries (hcut : f.cut = 0) (hnewline : b.isBreak (ofChar '\n') = true)
    {entries : List (List Piece)} (hne : entries ≠ []) (h : ∀ entry ∈ entries, IsEntry b entry) :
    mapAll b.isBreak f.line ([ofChar '\n'].intercalate (entries.map entryText)) =
      [ofChar '\n'].intercalate (entries.map fun entry =>
        spaces f.add ++ entryText (entry.map (Piece.map (relay b f)))) := by
  induction entries with
  | nil => exact absurd rfl hne
  | cons entry entries ih =>
    obtain ⟨hentry, hentries⟩ := List.forall_mem_cons.1 h
    obtain ⟨c, s, more, hhead, hc⟩ := hentry.head
    have htext : entryText entry = c :: (s ++ entryText more) := by
      rw [hhead]
      rfl
    have hmap := mapTail_entryText (f := f) hcut hentry.pieces
    cases entries with
    | nil =>
      simp only [List.map_cons, List.map_nil, List.intercalate_singleton]
      rw [← hmap, htext, mapAll_of_head hcut hc]
    | cons entry' entries =>
      have htail := mapAll_of_head (b := b) hcut hc (s ++ entryText more ++
        ofChar '\n' :: [ofChar '\n'].intercalate ((entry' :: entries).map entryText))
      simp only [List.map_cons] at htail ih ⊢
      rw [List.intercalate_cons_cons, List.intercalate_cons_cons,
        ← ih (List.cons_ne_nil _ _) hentries, ← hmap, htext, List.append_assoc,
        List.singleton_append, List.cons_append, htail, ← List.cons_append,
        mapTail_append_break hnewline]
      simp only [List.append_assoc, List.singleton_append]

/-! ### Values that stay the same -/

lemma isLineBreak_of_isNewline {c : PyChar} (h : isNewline c = true) : isLineBreak c = true := by
  rw [eq_of_beq h]
  rfl

lemma free_newlines {v : PyStr} (h : Free isLineBreak v) : Free isNewline v := fun c hc => by
  by_contra hnewline
  exact Bool.false_ne_true ((h c hc).symm.trans
    (isLineBreak_of_isNewline (eq_true_of_ne_false hnewline)))

lemma IsEntry.newlines (h : IsEntry lineBreaks entry) : IsEntry newlines entry := by
  refine ⟨fun piece hpiece => ?_, h.head⟩
  have hline := h.pieces piece hpiece
  cases piece with
  | code s => exact ⟨free_newlines hline.1, hline.2⟩
  | value v => exact trivial

/-- The last line of a value keeps its spaces, and others are put in front of it. -/
lemma relay_last (hcut : f.cut = 0) {a l : PyStr} {c : PyChar} (hc : b.isBreak c = true)
    (hl : Free b.isBreak l) :
    relay b f (a ++ c :: l) = mapTail b.isBreak f.line a ++ c :: (spaces f.add ++ l) := by
  have hfits : spaces f.cut <+: l := hcut ▸ List.nil_prefix
  rw [relay_append_break hc hl hfits, hcut, List.drop_zero]

/-- The last line stays where blank lines are emptied. -/
lemma exists_relay_newlines {a l : PyStr} (c : PyChar) (hl : Free isLineBreak l) :
    ∃ a', relay newlines ⟨0, 0, none⟩ (a ++ c :: l) = a' ++ c :: l := by
  cases hnewline : isNewline c with
  | true => exact ⟨_, relay_last (b := newlines) rfl hnewline (free_newlines hl)⟩
  | false =>
    have hfree : Free isNewline (c :: l) := free_cons.2 ⟨hnewline, free_newlines hl⟩
    rcases free_or_exists_last isNewline a with ha | ⟨a, d, l', rfl, hd, hl'⟩
    · exact ⟨a, relay_of_free (free_append.2 ⟨ha, hfree⟩)⟩
    · refine ⟨mapTail isNewline (Layout.line ⟨0, 0, none⟩) a ++ d :: l', ?_⟩
      have hlast : Free isNewline (l' ++ c :: l) := free_append.2 ⟨hl', hfree⟩
      rw [List.append_assoc, List.cons_append, relay_last (b := newlines) rfl hd hlast,
        List.append_assoc, List.cons_append]
      rfl

/-- A value whose lines are dedented and then indented stays the same if it has one line only. -/
lemma relay_relay_eq_self_iff {n : ℕ} (hn : 0 < n) (v : PyStr) :
    relay lineBreaks ⟨n, 0, some 0⟩ (relay newlines ⟨0, 0, none⟩ v) = v ↔ Free isLineBreak v := by
  constructor
  · intro h
    rcases free_or_exists_last isLineBreak v with hfree | ⟨a, c, l, rfl, hc, hl⟩
    · exact hfree
    · -- the last line is indented
      obtain ⟨a', ha'⟩ := exists_relay_newlines (a := a) c hl
      rw [ha', relay_last (b := lineBreaks) rfl hc hl] at h
      have hspaces : Free isLineBreak (spaces n ++ l) :=
        free_append.2 ⟨free_spaces (b := lineBreaks) n, hl⟩
      have hlength : (spaces n ++ l).length = l.length :=
        congrArg List.length (last_inj h hc hc hspaces hl)
      rw [List.length_append, length_spaces] at hlength
      omega
  · intro h
    rw [relay_of_free (b := newlines) (free_newlines h), relay_of_free (b := lineBreaks) h]

end PhpLayout
end MediawikiCharm
