/-
Code under a change of its lines.

Outside of the literals only white space changes, which PHP skips: code with complete literals
keeps its tokens, as long as no literal has a line break.
-/
import MediawikiCharm.PhpLayout

namespace MediawikiCharm
namespace PhpLayout

open PyText Lines Textwrap Php

variable {f : Layout} {b : LineBreaks} {l s t : PyStr}

/-- Every line break stands in the code, where PHP skips it. -/
def breaksInCode (b : LineBreaks) : Mode → PyStr → Bool
  | _, [] => true
  | mode, c :: s => (!b.isBreak c || (mode = .code && isSkipped c)) &&
      breaksInCode b (step (mode, []) c).1 s

/-- The text is code with complete literals, without other white space than PHP has. -/
structure IsCode (b : LineBreaks) (s : PyStr) : Prop where
  ends : (scan .code s).1 = .code
  breaks : breaksInCode b .code s = true
  skipped : ∀ c ∈ s, isSpace c = true → isSkipped c = true

instance : DecidablePred (IsCode b) := fun s =>
  decidable_of_iff ((scan .code s).1 = .code ∧ breaksInCode b .code s = true ∧
    (s.all fun c => !isSpace c || isSkipped c) = true)
    ⟨fun h => ⟨h.1, h.2.1, fun c hc hspace => by
      simpa [hspace] using List.all_eq_true.1 h.2.2 c hc⟩,
    fun h => ⟨h.ends, h.breaks, List.all_eq_true.2 fun c hc => by
      cases hspace : isSpace c with
      | true => simp [h.skipped c hc hspace]
      | false => rfl⟩⟩

lemma breaksInCode_append (mode : Mode) : breaksInCode b mode (s ++ t) =
    (breaksInCode b mode s && breaksInCode b (scan mode s).1 t) := by
  induction s generalizing mode with
  | nil => rfl
  | cons c s ih =>
    rw [List.cons_append, breaksInCode, breaksInCode, ih, scan_cons, Bool.and_assoc]

lemma breaksInCode_of_free (mode : Mode) (h : Free b.isBreak s) : breaksInCode b mode s = true := by
  induction s generalizing mode with
  | nil => rfl
  | cons c s ih =>
    obtain ⟨hc, hs⟩ := free_cons.1 h
    rw [breaksInCode, hc, ih _ hs]
    rfl

/-- Code with a line break: what is in front of the break is code. -/
lemma breaksInCode_append_break {a : PyStr} {c : PyChar} (mode : Mode) (hc : b.isBreak c = true)
    (hl : Free b.isBreak l) : breaksInCode b mode (a ++ c :: l) = true ↔
      breaksInCode b mode a = true ∧ (scan mode a).1 = .code ∧ isSkipped c = true := by
  rw [breaksInCode_append, breaksInCode, hc, breaksInCode_of_free _ hl]
  simp

lemma isSkipped_of_mem_spaces {c : PyChar} {n : ℕ} (h : c ∈ spaces n) : isSkipped c = true := by
  rw [List.eq_of_mem_replicate h]
  rfl

lemma scan_spaces_append (n : ℕ) : scan .code (spaces n ++ s) = scan .code s :=
  scan_skipped_append fun _ => isSkipped_of_mem_spaces

lemma scan_line (hskipped : ∀ c ∈ l, isSpace c = true → isSkipped c = true) (hfits : f.Fits l) :
    scan .code (f.line l) = scan .code l := by
  cases hblank : isBlank l with
  | true =>
    have hall : ∀ c ∈ l, isSkipped c = true := fun c hc =>
      hskipped c hc (List.all_eq_true.1 hblank c hc)
    rw [Layout.line, hblank, if_pos rfl, scan_skipped hall]
    cases f.blank with
    | none => rfl
    | some n => exact (scan_spaces_append n).trans (scan_skipped hall)
  | false =>
    obtain ⟨rest, rfl⟩ := hfits hblank
    rw [line_of_not_blank hblank, List.drop_left' (length_spaces _), scan_spaces_append,
      scan_spaces_append]

lemma scan_cons_skipped {c : PyChar} (h : isSkipped c = true) :
    scan .code (c :: s) = scan .code s :=
  scan_skipped_append (a := [c]) (by simpa using h)

/-- Code is scanned alike after a change of its lines. -/
lemma scan_mapTail (h : breaksInCode b .code s = true)
    (hskipped : ∀ c ∈ s, isSpace c = true → isSkipped c = true)
    (hfits : ∀ l ∈ tail b.isBreak s, f.Fits l) :
    scan .code (mapTail b.isBreak f.line s) = scan .code s ∧
      breaksInCode b .code (mapTail b.isBreak f.line s) = true := by
  -- the last line is taken off as long as there is one
  induction hn : s.length using Nat.strong_induction_on generalizing s with
  | _ n ih =>
    rcases free_or_exists_last b.isBreak s with hs | ⟨a, c, l, rfl, hc, hl⟩
    · rw [mapTail_of_free hs]
      exact ⟨rfl, h⟩
    · obtain ⟨ha, hcode, hskip⟩ := (breaksInCode_append_break .code hc hl).1 h
      rw [tail_append_break hc, split_of_free hl, List.forall_mem_append] at hfits
      obtain ⟨hscan, hbreaks⟩ := ih a.length (by rw [← hn]; simp) ha
        (fun d hd => hskipped d (List.mem_append_left _ hd)) hfits.1 rfl
      have hline : scan .code (f.line l) = scan .code l :=
        scan_line (fun d hd => hskipped d (List.mem_append_right _ (List.mem_cons_of_mem _ hd)))
          (hfits.2 l List.mem_cons_self)
      rw [mapTail_append_break hc, mapAll_of_free hl]
      constructor
      · rw [scan_append, hscan, scan_append, hcode, scan_cons_skipped hskip,
          scan_cons_skipped hskip, hline]
      · exact (breaksInCode_append_break .code hc (free_line hl)).2
          ⟨hbreaks, hscan ▸ hcode, hskip⟩

lemma isSkipped_line {c : PyChar} (hskipped : ∀ c ∈ l, isSpace c = true → isSkipped c = true)
    (hc : c ∈ f.line l) (hspace : isSpace c = true) : isSkipped c = true := by
  unfold Layout.line at hc
  split_ifs at hc
  · cases hb : f.blank with
    | none =>
      rw [hb] at hc
      exact absurd hc List.not_mem_nil
    | some n =>
      rw [hb] at hc
      rcases List.mem_append.1 hc with hc | hc
      · exact isSkipped_of_mem_spaces hc
      · exact hskipped c hc hspace
  · rcases List.mem_append.1 hc with hc | hc
    · exact isSkipped_of_mem_spaces hc
    · exact hskipped c (List.mem_of_mem_drop hc) hspace

namespace IsCode

lemma append (hs : IsCode b s) (ht : IsCode b t) : IsCode b (s ++ t) where
  ends := by rw [scan_append, hs.ends, ht.ends]
  breaks := by
    rw [breaksInCode_append, hs.breaks, hs.ends, ht.breaks]
    rfl
  skipped := List.forall_mem_append.2 ⟨hs.skipped, ht.skipped⟩

/-- Code that was laid out is code with the same tokens. -/
lemma mapTail (hs : IsCode b s) (hfits : ∀ l ∈ tail b.isBreak s, f.Fits l) :
    scan .code (mapTail b.isBreak f.line s) = scan .code s ∧
      IsCode b (mapTail b.isBreak f.line s) := by
  obtain ⟨hscan, hbreaks⟩ := scan_mapTail hs.breaks hs.skipped hfits
  refine ⟨hscan, ⟨by rw [hscan, hs.ends], hbreaks, fun c hc hspace => ?_⟩⟩
  have hjoin := @join_split _ b.isBreak s
  have hmem : ∀ d ∈ (split b.isBreak s).1 ++
      (split b.isBreak s).2.flatMap (fun r => r.1 :: r.2), isSpace d = true → isSkipped d = true := by
    rw [hjoin]
    exact hs.skipped
  obtain ⟨hfirst, hrest⟩ := List.forall_mem_append.1 hmem
  rcases List.mem_append.1 hc with hc | hc
  · exact hfirst c hc hspace
  · obtain ⟨r, hr, hc⟩ := List.mem_flatMap.1 hc
    have hpart : ∀ d ∈ r.1 :: r.2, isSpace d = true → isSkipped d = true := fun d hd =>
      hrest d (List.mem_flatMap.2 ⟨r, hr, hd⟩)
    rcases List.mem_cons.1 hc with heq | hc
    · exact hpart c (List.mem_cons.2 (.inl heq)) hspace
    · exact isSkipped_line (fun d hd => hpart d (List.mem_cons_of_mem _ hd)) hc hspace

lemma spaces_append_iff (n : ℕ) (hfree : Free b.isBreak s) :
    IsCode b (spaces n ++ s) ↔ IsCode b s := by
  constructor
  · intro h
    refine ⟨?_, breaksInCode_of_free _ hfree, fun c hc => h.skipped c (List.mem_append_right _ hc)⟩
    rw [← scan_spaces_append n, h.ends]
  · intro h
    refine ⟨?_, breaksInCode_of_free _ (free_append.2 ⟨free_spaces n, hfree⟩), ?_⟩
    · rw [scan_spaces_append, h.ends]
    · exact List.forall_mem_append.2 ⟨fun c hc _ => isSkipped_of_mem_spaces hc, h.skipped⟩

/-- Code is code in front of a line break and behind it. -/
lemma append_break_iff {a : PyStr} {c : PyChar} (hc : b.isBreak c = true)
    (hl : Free b.isBreak l) :
    IsCode b (a ++ c :: l) ↔ IsCode b a ∧ isSkipped c = true ∧ IsCode b l := by
  constructor
  · intro h
    obtain ⟨ha, hcode, hskip⟩ := (breaksInCode_append_break .code hc hl).1 h.breaks
    have hends := h.ends
    rw [scan_append, hcode, scan_cons_skipped hskip] at hends
    exact ⟨⟨hcode, ha, fun d hd => h.skipped d (List.mem_append_left _ hd)⟩, hskip,
      ⟨hends, breaksInCode_of_free _ hl, fun d hd =>
        h.skipped d (List.mem_append_right _ (List.mem_cons_of_mem _ hd))⟩⟩
  · rintro ⟨ha, hskip, hline⟩
    refine ⟨?_, (breaksInCode_append_break .code hc hl).2 ⟨ha.breaks, ha.ends, hskip⟩, ?_⟩
    · rw [scan_append, ha.ends, scan_cons_skipped hskip, hline.ends]
    · exact List.forall_mem_append.2 ⟨ha.skipped,
        List.forall_mem_cons.2 ⟨fun _ => hskip, hline.skipped⟩⟩

/-- The same of a piece of code in front of a quote. -/
lemma relay (hs : IsCode b s) (hfits : Fits b f s) :
    scan .code (relay b f s) = scan .code s ∧ IsCode b (relay b f s) := by
  rcases free_or_exists_last b.isBreak s with hfree | ⟨a, c, l, rfl, hc, hl⟩
  · rw [relay_of_free hfree]
    exact ⟨rfl, hs⟩
  · obtain ⟨hlines, hbegins⟩ := (fits_append_break hc hl).1 hfits
    obtain ⟨ha, hskip, hline⟩ := (append_break_iff hc hl).1 hs
    obtain ⟨hscan, hmap⟩ := ha.mapTail hlines
    rw [relay_append_break hc hl hbegins]
    obtain ⟨rest, rfl⟩ := hbegins
    have hrest : Free b.isBreak rest := (free_append.1 hl).2
    rw [List.drop_left' (length_spaces _)]
    constructor
    · rw [scan_append, hscan, scan_append, ha.ends, scan_cons_skipped hskip,
        scan_cons_skipped hskip, scan_spaces_append, scan_spaces_append]
    · exact (append_break_iff hc (free_append.2 ⟨free_spaces _, hrest⟩)).2
        ⟨hmap, hskip, (spaces_append_iff _ hrest).2 ((spaces_append_iff _ hrest).1 hline)⟩

end IsCode

end PhpLayout
end MediawikiCharm
