/-
Margins of generated texts.

The margin of a text is that of the pieces of its code and of its values together.  A value with
several lines stays the same under changes of its lines only if as many spaces are taken as are
put back, and no blank line has spaces.
-/
import MediawikiCharm.PhpLayout.Text

namespace MediawikiCharm
namespace PhpLayout

open PyText Lines Textwrap Php PhpStrings

variable {f : Layout} {b : LineBreaks} {l s rest : PyStr} {parts : List (PyStr × PyStr)} {k m n : ℕ}

/-- The further lines of a piece begin with so many spaces, but for the blank ones; the last line
is followed by a quote. -/
def Indents (b : LineBreaks) (n : ℕ) (s : PyStr) : Prop := Fits b (.dedent n) s

/-- The blank ones of the further lines of a piece are empty. -/
def BlanksEmpty (b : LineBreaks) (s : PyStr) : Prop :=
  ∀ l ∈ tail b.isBreak (s ++ [ofChar '\'']), isBlank l = true → l = []

instance : DecidablePred f.Fits := fun l =>
  inferInstanceAs (Decidable (isBlank l = false → spaces f.cut <+: l))

instance : DecidablePred (Indents b n) := fun s =>
  inferInstanceAs (Decidable (∀ l ∈ tail b.isBreak (s ++ [ofChar '\'']), (Layout.dedent n).Fits l))

instance : DecidablePred (BlanksEmpty b) := fun s =>
  inferInstanceAs (Decidable (∀ l ∈ tail b.isBreak (s ++ [ofChar '\'']), isBlank l = true → l = []))

instance : DecidablePred (FitsAll b f) := fun s =>
  inferInstanceAs (Decidable (∀ l ∈ tail b.isBreak s, f.Fits l))

lemma Indents.mono (h : Indents b n s) (hle : m ≤ n) : Indents b m s := fun l hl hblank =>
  (spaces_prefix_spaces.2 hle).trans (h l hl hblank)

lemma indents_of_free (h : Free b.isBreak s) : Indents b n s := fits_of_free h

/-! ### Changes of a piece -/

lemma isBlank_line (hfits : f.Fits l) : isBlank (f.line l) = isBlank l := by
  cases hblank : isBlank l with
  | true =>
    rw [Layout.line, hblank, if_pos rfl]
    cases f.blank with
    | none => rfl
    | some n =>
      change isBlank (spaces n ++ l) = true
      rw [isBlank_append, isBlank_spaces, hblank]
      rfl
  | false =>
    obtain ⟨rest, rfl⟩ := hfits hblank
    rw [isBlank_append, isBlank_spaces, Bool.true_and] at hblank
    rw [line_of_not_blank (by rw [isBlank_append, isBlank_spaces, hblank]; rfl),
      List.drop_left' (length_spaces _), isBlank_append, isBlank_spaces, hblank]
    rfl

/-- How far a line is indented after a change. -/
lemma fits_line (hfits : f.Fits l) : (Layout.dedent (f.add + k)).Fits (f.line l) ↔
    (Layout.dedent (f.cut + k)).Fits l := by
  unfold Layout.Fits
  rw [isBlank_line hfits]
  refine forall_congr' fun hblank => ?_
  rw [line_of_not_blank hblank]
  obtain ⟨rest, rfl⟩ := hfits hblank
  rw [List.drop_left' (length_spaces _)]
  change spaces (f.add + k) <+: _ ↔ spaces (f.cut + k) <+: _
  rw [spaces_add, spaces_add, List.prefix_append_right_inj, List.prefix_append_right_inj]

/-- Two changes of a piece. -/
lemma relay_relay {g : Layout} (h : Fits b f s) : relay b g (relay b f s) =
    (mapTail b.isBreak (g.line ∘ f.line) (s ++ [ofChar '\''])).dropLast := by
  rw [relay, ← mapTail_append_quote h, mapTail_mapTail fun _ => free_line]

lemma line_indentNewlines (l : PyStr) : (Layout.indentNewlines n).line l = spaces n ++ l := by
  unfold Layout.line
  split_ifs
  · rfl
  · rfl

lemma line_dedent (l : PyStr) : (Layout.dedent m).line l = cut m l := rfl

/-- Spaces that are put in front of the lines and taken again. -/
lemma relay_dedent_indentNewlines (hle : m ≤ n) (s : PyStr) :
    relay b (.dedent m) (relay b (.indentNewlines n) s) = relay b ⟨n - m, 0, none⟩ s := by
  have hfits : Fits b (.indentNewlines n) s := fun _ _ _ => List.nil_prefix
  rw [relay_relay hfits, relay]
  congr 1
  refine mapTail_congr fun l _ => ?_
  rw [Function.comp_apply, line_indentNewlines, line_dedent, Textwrap.cut, isBlank_append,
    isBlank_spaces, Bool.true_and, Layout.line]
  congr 1
  obtain ⟨d, rfl⟩ := Nat.exists_eq_add_of_le hle
  rw [spaces_add, List.append_assoc, List.drop_left' (length_spaces m), Nat.add_sub_cancel_left]
  rfl

/-- The spaces of a change, and spaces that are put in front of them. -/
lemma relay_add {d : ℕ} (hfits : Fits b ⟨n, m, none⟩ s) :
    relay b ⟨d, 0, none⟩ (relay b ⟨n, m, none⟩ s) = relay b ⟨d + n, m, none⟩ s := by
  rw [relay_relay hfits, relay]
  congr 1
  refine mapTail_congr fun l hl => ?_
  rw [Function.comp_apply, Layout.line, isBlank_line (hfits l hl)]
  unfold Layout.line
  split_ifs
  · rfl
  · rw [spaces_add, List.append_assoc]
    rfl

/-- Spaces are taken, and others put in front of the lines. -/
lemma relay_dedent_indentNewlines_relay {d : ℕ} (hfits : Fits b ⟨d, m, none⟩ s) (hle : k ≤ n) :
    relay b (.dedent k) (relay b (.indentNewlines n) (relay b ⟨d, m, none⟩ s)) =
      relay b ⟨n - k + d, m, none⟩ s := by
  rw [relay_dedent_indentNewlines hle, relay_add hfits]

/-- A piece stays the same if it has one line only, or if the spaces that are taken are those that
are put back, and the blank lines are empty. -/
lemma relay_eq_self_iff (hfits : Fits b ⟨n, m, none⟩ s) :
    relay b ⟨n, m, none⟩ s = s ↔ Free b.isBreak s ∨ n = m ∧ BlanksEmpty b s := by
  have hquote : relay b ⟨n, m, none⟩ s = s ↔ ∀ l ∈ tail b.isBreak (s ++ [ofChar '\'']),
      Layout.line ⟨n, m, none⟩ l = l := by
    rw [← mapTail_eq_self_iff fun _ => free_line, mapTail_append_quote hfits,
      List.append_cancel_right_eq]
  have hline : ∀ l ∈ tail b.isBreak (s ++ [ofChar '\'']), isBlank l = false →
      (Layout.line ⟨n, m, none⟩ l = l ↔ n = m) := by
    intro l hl hblank
    rw [line_of_not_blank hblank]
    obtain ⟨rest, rfl⟩ := hfits l hl hblank
    rw [List.drop_left' (length_spaces _), List.append_cancel_right_eq]
    refine ⟨fun h => ?_, fun h => by rw [h]⟩
    have hlength := congrArg List.length h
    rwa [length_spaces, length_spaces] at hlength
  rw [hquote]
  constructor
  · intro h
    rcases free_or_exists_last b.isBreak s with hs | ⟨a, c, l, rfl, hc, hl⟩
    · exact .inl hs
    · refine .inr ⟨?_, fun l hl hblank => ?_⟩
      · have hmem : l ++ [ofChar '\''] ∈ tail b.isBreak (a ++ c :: l ++ [ofChar '\'']) := by
          rw [List.append_assoc, List.cons_append, tail_append_break hc,
            split_of_free (free_append_quote hl)]
          exact List.mem_append_right _ List.mem_cons_self
        exact (hline _ hmem isBlank_append_quote).1 (h _ hmem)
      · have hkept := h l hl
        rw [Layout.line, hblank, if_pos rfl] at hkept
        exact hkept.symm
  · rintro (hs | ⟨hmn, hempty⟩)
    · rw [tail_of_free (free_append_quote hs)]
      exact fun l hl => absurd hl List.not_mem_nil
    · intro l hl
      cases hblank : isBlank l with
      | true =>
        rw [hempty l hl hblank]
        rfl
      | false => exact (hline l hl hblank).2 hmn

/-- A piece with several lines becomes shorter if spaces are taken. -/
lemma free_or_length_relay_lt (hm : 0 < m) (h : Indents b m s) :
    Free b.isBreak s ∨ (relay b (.dedent m) s).length < s.length := by
  rcases free_or_exists_last b.isBreak s with hs | ⟨a, c, l, rfl, hc, hl⟩
  · exact .inl hs
  · have hbegins := ((fits_append_break hc hl).1 h).2
    have hline : ∀ l, ((Layout.dedent m).line l).length ≤ l.length := by
      intro l
      rw [line_dedent, Textwrap.cut]
      split_ifs
      · exact Nat.zero_le _
      · rw [List.length_drop]
        omega
    have hlength := @length_mapTail_le _ b.isBreak _ hline a
    have hm' : m ≤ l.length := cut_le_length hbegins
    have hrelay : relay b (.dedent m) (a ++ c :: l) =
        mapTail b.isBreak (Layout.dedent m).line a ++ c :: l.drop m :=
      relay_append_break hc hl hbegins
    right
    rw [hrelay]
    simp only [List.length_append, List.length_cons, List.length_drop]
    omega

/-- A piece keeps its last symbol, if that is no white space. -/
lemma getLast?_relay {c : PyChar} (h : Fits b f s) (hc : isSpace c = false)
    (hlast : s.getLast? = some c) : (relay b f s).getLast? = some c := by
  rcases free_or_exists_last b.isBreak s with hs | ⟨a, d, l, rfl, hd, hl⟩
  · rwa [relay_of_free hs]
  · have hbegins := ((fits_append_break hd hl).1 h).2
    rw [relay_append_break hd hl hbegins]
    obtain ⟨rest, rfl⟩ := hbegins
    rw [List.drop_left' (length_spaces _)]
    rcases List.eq_nil_or_concat rest with rfl | ⟨rest, e, rfl⟩
    · -- the line has spaces only
      rw [List.append_nil, List.getLast?_append_cons] at hlast
      have hspace : isSpace c = true := by
        rcases List.mem_cons.1 (List.mem_of_getLast? hlast) with rfl | hmem
        · exact b.isSpace c hd
        · rw [List.eq_of_mem_replicate hmem]
          rfl
      rw [hspace] at hc
      exact absurd hc.symm Bool.false_ne_true
    · rw [List.concat_eq_append, ← List.append_assoc, ← List.cons_append, ← List.append_assoc,
        List.getLast?_concat] at hlast ⊢
      exact hlast

/-! ### Changes of a text -/

variable {text y : PyStr} {c : PyChar} {ps : List (List Token × PyStr)} {ts : List Token}

lemma FitsAll.mono (h : FitsAll b (.dedent n) text) (hle : m ≤ n) : FitsAll b (.dedent m) text :=
  fun l hl hblank => (spaces_prefix_spaces.2 hle).trans (h l hl hblank)

lemma fitsAll_indentNewlines (text : PyStr) : FitsAll b (.indentNewlines n) text :=
  fun _ _ _ => List.nil_prefix

lemma fitsAll_append_break (hc : b.isBreak c = true) :
    FitsAll b f (text ++ c :: y) ↔ FitsAll b f text ∧ FitsAll b f (c :: y) := by
  have hy : tail b.isBreak (c :: y) = (split b.isBreak y).1 :: tail b.isBreak y :=
    tail_append_break (a := []) hc
  unfold FitsAll
  rw [tail_append_break hc, hy, List.forall_mem_append]

lemma fitsAll_append_quote : FitsAll b f (s ++ [ofChar '\''] ++ y) ↔
    FitsAll b f (s ++ [ofChar '\'']) ∧ FitsAll b f y :=
  forall_tail_append fun _ _ _ h hd _ y => fits_append_of_quote h hd y

/-- A line that is put behind spaces. -/
lemma fitsAll_cons_spaces (hle : n ≤ k) :
    FitsAll newlines (.dedent n) (ofChar '\n' :: (spaces k ++ y)) ↔
      FitsAll newlines (.dedent n) y := by
  have hbreak : tail newlines.isBreak (ofChar '\n' :: (spaces k ++ y)) =
      (split newlines.isBreak (spaces k ++ y)).1 :: tail newlines.isBreak (spaces k ++ y) :=
    tail_append_break (a := []) rfl
  unfold FitsAll
  rw [hbreak, split_append_free (free_spaces k), tail_append_free (free_spaces k),
    List.forall_mem_cons]
  exact and_iff_right fun _ => (spaces_prefix_spaces.2 hle).trans (List.prefix_append _ _)

/-- How far a text is indented after a change. -/
lemma fitsAll_mapTail (h : FitsAll b f text) :
    FitsAll b (.dedent (f.add + k)) (mapTail b.isBreak f.line text) ↔
      FitsAll b (.dedent (f.cut + k)) text := by
  unfold FitsAll
  rw [tail, split_mapTail (fun _ => free_line), List.map_map, tail, List.forall_mem_map,
    List.forall_mem_map]
  refine forall₂_congr fun r hr => ?_
  exact fits_line (h r.2 (List.mem_map_of_mem hr))

lemma indents_relay (h : Fits b f s) :
    Indents b (f.add + k) (relay b f s) ↔ Indents b (f.cut + k) s := by
  have hlines : relay b f s ++ [ofChar '\''] = mapTail b.isBreak f.line (s ++ [ofChar '\'']) :=
    (mapTail_append_quote h).symm
  have hmap := @fitsAll_mapTail f b k (s ++ [ofChar '\'']) h
  rwa [← hlines] at hmap

/-- A text that begins with an empty line and one that is indented by so many spaces. -/
def HasHead (k : ℕ) (text : PyStr) : Prop :=
  ∃ c s, isSpace c = false ∧ text = ofChar '\n' :: (spaces k ++ c :: s)

lemma HasHead.append (h : HasHead k text) : HasHead k (text ++ y) := by
  obtain ⟨c, s, hc, rfl⟩ := h
  refine ⟨c, s ++ y, hc, ?_⟩
  rw [List.cons_append, List.append_assoc, List.cons_append]

/-- The number of spaces that `dedent` takes. -/
def depth (text : PyStr) : ℕ := (margin text).length

lemma le_depth_iff (h : HasHead k text) : n ≤ depth text ↔ FitsAll newlines (.dedent n) text := by
  obtain ⟨c, s, hc, rfl⟩ := h
  exact le_margin_head_iff hc s

lemma depth_le (h : HasHead k text) : depth text ≤ k := by
  obtain ⟨c, s, hc, rfl⟩ := h
  exact margin_head_le hc s

lemma fitsAll_depth (h : HasHead k text) : FitsAll newlines (.dedent (depth text)) text :=
  (le_depth_iff h).1 le_rfl

/-- The margin is that of the values, where the code is indented by at least as much as the first
line. -/
lemma le_depth_render (h : HasHead k (render parts rest))
    (hcode : ∀ part ∈ parts, Indents newlines k part.1)
    (hrest : FitsAll newlines (.dedent k) rest) : n ≤ depth (render parts rest) ↔
      n ≤ k ∧ ∀ s ∈ parts.map Prod.snd, Indents newlines n s := by
  rw [le_depth_iff h, List.forall_mem_map]
  constructor
  · intro hfits
    exact ⟨((le_depth_iff h).2 hfits).trans (depth_le h), fun part hpart =>
      ((fitsAll_render.1 hfits).1 part hpart).2⟩
  · rintro ⟨hn, hvalues⟩
    exact fitsAll_render.2 ⟨fun part hpart => ⟨(hcode part hpart).mono hn, hvalues part hpart⟩,
      hrest.mono hn⟩

lemma dedent_eq_mapTail (h : HasHead k text) :
    Textwrap.dedent text = mapTail isNewline (Layout.dedent (depth text)).line text := by
  obtain ⟨c, s, -, rfl⟩ := h
  exact dedent_cons_eq _

lemma indentNewlines_eq_mapTail (text : PyStr) :
    Textwrap.indentNewlines n text = mapTail isNewline (Layout.indentNewlines n).line text := by
  have hline : (Layout.indentNewlines n).line = (spaces n ++ ·) := funext line_indentNewlines
  rw [hline, Textwrap.indentNewlines_eq]

lemma indentNewlines_append :
    Textwrap.indentNewlines n (text ++ y) =
      Textwrap.indentNewlines n text ++ Textwrap.indentNewlines n y :=
  List.flatMap_append

lemma indentNewlines_cons : Textwrap.indentNewlines n (ofChar '\n' :: text) =
    ofChar '\n' :: (spaces n ++ Textwrap.indentNewlines n text) := by
  rw [Textwrap.indentNewlines, List.flatMap_cons, if_pos rfl, List.cons_append]
  rfl

/-- How far a text is indented that was indented before. -/
lemma fitsAll_indentNewlines_add :
    FitsAll newlines (.dedent (n + k)) (Textwrap.indentNewlines n text) ↔
    FitsAll newlines (.dedent k) text := by
  have hmap := @fitsAll_mapTail (.indentNewlines n) newlines k text (fitsAll_indentNewlines text)
  rw [indentNewlines_eq_mapTail]
  refine hmap.trans ?_
  rw [show (Layout.indentNewlines n).cut + k = k from Nat.zero_add k]

lemma fitsAll_of_le (hle : m ≤ n) :
    FitsAll newlines (.dedent m) (Textwrap.indentNewlines n text) :=
  (fitsAll_indentNewlines_add (k := 0) |>.2 fun _ _ _ => List.nil_prefix).mono hle

namespace IsText

lemma dedent (h : IsText text ps ts) (hhead : HasHead k text) :
    IsText (Textwrap.dedent text)
      (ps.map (Prod.map id (relay newlines (.dedent (depth text))))) ts := by
  rw [dedent_eq_mapTail hhead]
  exact h.layout (fitsAll_depth hhead)

lemma indentNewlines (h : IsText text ps ts) : IsText (Textwrap.indentNewlines n text)
    (ps.map (Prod.map id (relay newlines (.indentNewlines n)))) ts := by
  rw [indentNewlines_eq_mapTail]
  exact h.layout (fitsAll_indentNewlines text)

end IsText

/-! ### Values that stay the same -/

/-- No text has a line break; or their further lines have so many spaces in common and not more,
and no spaces where they are blank. -/
def Aligned (n : ℕ) (texts : List PyStr) : Prop :=
  (∀ s ∈ texts, Free isNewline s) ∨
    (∀ s ∈ texts, Indents newlines n s ∧ BlanksEmpty newlines s) ∧
      ∃ s ∈ texts, ¬ Indents newlines (n + 1) s

instance : DecidablePred (Aligned n) := fun texts =>
  inferInstanceAs (Decidable ((∀ s ∈ texts, ∀ c ∈ s, isNewline c = false) ∨
    (∀ s ∈ texts, Indents newlines n s ∧ BlanksEmpty newlines s) ∧
      ∃ s ∈ texts, ¬ Indents newlines (n + 1) s))

lemma blanksEmpty_of_free (h : Free b.isBreak s) : BlanksEmpty b s := by
  rw [BlanksEmpty, tail_of_free (free_append_quote h)]
  exact nofun

/-- Texts from which the spaces are taken that they have in common with code that is indented by
`k` spaces, and in front of which `n` spaces are put. -/
lemma aligned_iff {texts : List PyStr} (hn : n < k)
    (hdepth : ∀ j, j ≤ m ↔ j ≤ k ∧ ∀ s ∈ texts, Indents newlines j s) :
    (∀ s ∈ texts, relay newlines ⟨n, m, none⟩ s = s) ↔ Aligned n texts := by
  have hfits : ∀ s ∈ texts, Fits newlines ⟨n, m, none⟩ s := ((hdepth m).1 le_rfl).2
  have hsame : (∀ s ∈ texts, relay newlines ⟨n, m, none⟩ s = s) ↔
      ∀ s ∈ texts, Free isNewline s ∨ n = m ∧ BlanksEmpty newlines s :=
    forall₂_congr fun s hs => relay_eq_self_iff (hfits s hs)
  rw [hsame]
  constructor
  · intro h
    by_cases hfree : ∀ s ∈ texts, Free isNewline s
    · exact .inl hfree
    · obtain ⟨s₀, hs₀, hlines⟩ := not_forall₂.1 hfree
      obtain rfl : n = m := ((h s₀ hs₀).resolve_left hlines).1
      refine .inr ⟨fun s hs => ⟨hfits s hs, ?_⟩, ?_⟩
      · rcases h s hs with hs | ⟨-, hs⟩
        · exact blanksEmpty_of_free hs
        · exact hs
      · by_contra hall
        push Not at hall
        have hmore := (hdepth (n + 1)).2 ⟨hn, hall⟩
        omega
  · rintro (h | ⟨h, s₀, hs₀, hless⟩)
    · exact fun s hs => .inl (h s hs)
    · have hle : n ≤ m := (hdepth n).2 ⟨hn.le, fun s hs => (h s hs).1⟩
      have hnot : ¬ n + 1 ≤ m := fun hmore => hless (((hdepth (n + 1)).1 hmore).2 s₀ hs₀)
      exact fun s hs => .inr ⟨by omega, (h s hs).2⟩

end PhpLayout
end MediawikiCharm
