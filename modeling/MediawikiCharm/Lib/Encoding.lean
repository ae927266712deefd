/-
Matches of encoded words in an encoded text.

A text is encoded symbol by symbol.  It is synchronised with a set of words if an encoded word
is found in the encoded text only where the word stands in the text.  Then the leftmost longest
matches of the encoded words in the encoded text are the encodings of the leftmost longest
matches of the words in the text, so that one can replace them before or after encoding.
-/
import MediawikiCharm.Lib.Substitution

namespace Substitution

variable {α β : Type*} {e : α → List β} {V : Set (List α)}

/-- An encoded word of `V` is found in the encoding of `t` only where the word stands in `t`. -/
def Synchronized (e : α → List β) (V : Set (List α)) (t : List α) : Prop :=
  ∀ x y, t.flatMap e = x ++ y → ∀ v ∈ V, v.flatMap e <+: y →
    ∃ t₁ t₂, t = t₁ ++ t₂ ∧ x = t₁.flatMap e ∧ v <+: t₂

/-- The encodings of the words of a set. -/
def encoded (e : α → List β) (V : Set (List α)) : Set (List β) := {w | ∃ v ∈ V, w = v.flatMap e}

/-! ### Prefixes of an encoded text -/

lemma flatMap_eq_nil (he : ∀ a, e a ≠ []) {s : List α} (h : s.flatMap e = []) : s = [] := by
  cases s with
  | nil => rfl
  | cons a s =>
    rw [List.flatMap_cons] at h
    exact absurd (List.append_eq_nil_iff.1 h).1 (he a)

lemma flatMap_mono {s t : List α} (h : s <+: t) : s.flatMap e <+: t.flatMap e := by
  obtain ⟨u, rfl⟩ := h
  rw [List.flatMap_append]
  exact List.prefix_append _ _

/-- Of two prefixes of a text, the one with the shorter encoding is the shorter one. -/
lemma prefix_of_flatMap (he : ∀ a, e a ≠ []) {s t u : List α} (hs : s <+: u) (ht : t <+: u)
    (h : s.flatMap e <+: t.flatMap e) : s <+: t := by
  rcases List.prefix_or_prefix_of_prefix hs ht with hst | ⟨w, rfl⟩
  · exact hst
  · have hlength := h.length_le
    rw [List.flatMap_append, List.length_append] at hlength
    have hempty : w.flatMap e = [] := List.eq_nil_of_length_eq_zero (by omega)
    rw [flatMap_eq_nil he hempty, List.append_nil]

/-- What follows a prefix of a synchronised text is synchronised. -/
lemma Synchronized.of_append (he : ∀ a, e a ≠ []) {s t : List α}
    (h : Synchronized e V (s ++ t)) : Synchronized e V t := by
  intro x y hxy v hv hpre
  have hsplit : (s ++ t).flatMap e = (s.flatMap e ++ x) ++ y := by
    rw [List.flatMap_append, hxy, List.append_assoc]
  obtain ⟨t₁, t₂, htext, hx, hvt⟩ := h _ _ hsplit v hv hpre
  have hs : s <+: s ++ t := List.prefix_append s t
  have ht₁ : t₁ <+: s ++ t := ⟨t₂, htext.symm⟩
  obtain ⟨u, rfl⟩ := prefix_of_flatMap he hs ht₁ ⟨x, hx⟩
  refine ⟨u, t₂, ?_, ?_, hvt⟩
  · rw [List.append_assoc] at htext
    exact List.append_cancel_left htext
  · rw [List.flatMap_append] at hx
    exact List.append_cancel_left hx

/-! ### Gaps and matches -/

/-- The encoded gaps and matches. -/
def encodeSegs (e : α → List β) (segs : List (List α × List α)) : List (List β × List β) :=
  segs.map fun seg => (seg.1.flatMap e, seg.2.flatMap e)

@[simp] lemma encodeSegs_nil : encodeSegs e [] = [] := rfl

@[simp] lemma encodeSegs_cons (seg : List α × List α) (segs : List (List α × List α)) :
    encodeSegs e (seg :: segs) = (seg.1.flatMap e, seg.2.flatMap e) :: encodeSegs e segs := rfl

lemma source_encodeSegs (segs : List (List α × List α)) (last : List α) :
    source (encodeSegs e segs) (last.flatMap e) = (source segs last).flatMap e := by
  induction segs with
  | nil => rfl
  | cons seg segs ih =>
    rw [encodeSegs_cons, source_cons, ih, source_cons, List.flatMap_append, List.flatMap_append]

lemma masked_encodeSegs (r : List α) (segs : List (List α × List α)) (last : List α) :
    masked (r.flatMap e) (encodeSegs e segs) (last.flatMap e) = (masked r segs last).flatMap e := by
  induction segs with
  | nil => rfl
  | cons seg segs ih =>
    rw [encodeSegs_cons, masked_cons, ih, masked_cons, List.flatMap_append, List.flatMap_append]

/-- No encoded word starts inside an encoded gap. -/
lemma NoStart.encode (he : ∀ a, e a ≠ []) {k tail : List α} (h : NoStart V k tail)
    (hsync : Synchronized e V (k ++ tail)) :
    NoStart (encoded e V) (k.flatMap e) (tail.flatMap e) := by
  rintro a b hab hb w ⟨v, hv, rfl⟩ hpre
  have hsplit : (k ++ tail).flatMap e = a ++ (b ++ tail.flatMap e) := by
    rw [List.flatMap_append, hab, List.append_assoc]
  obtain ⟨t₁, t₂, htext, rfl, hvt⟩ := hsync _ _ hsplit v hv hpre
  -- the word starts in front of the end of the gap
  have ht₁ : t₁ <+: k ++ tail := ⟨t₂, htext.symm⟩
  have hk : k <+: k ++ tail := List.prefix_append k tail
  obtain ⟨u, rfl⟩ := prefix_of_flatMap he ht₁ hk ⟨b, hab.symm⟩
  rw [List.append_assoc, List.append_cancel_left_eq] at htext
  rw [List.flatMap_append, List.append_cancel_left_eq] at hab
  refine h t₁ u rfl ?_ v hv (htext ▸ hvt)
  rintro rfl
  exact hb hab.symm

/-- The encoding of a longest word is a longest encoded word. -/
lemma IsLongest.encode {m tail : List α} (h : IsLongest V m tail)
    (hsync : Synchronized e V (m ++ tail)) (he : ∀ a, e a ≠ []) :
    IsLongest (encoded e V) (m.flatMap e) (tail.flatMap e) := by
  refine ⟨⟨m, h.1, rfl⟩, ?_⟩
  rintro w ⟨v, hv, rfl⟩ hpre
  rw [← List.flatMap_append] at hpre
  obtain ⟨t₁, t₂, htext, hx, hvt⟩ := hsync [] _ (List.nil_append _).symm v hv hpre
  have hnil : t₁ = [] := flatMap_eq_nil he hx.symm
  rw [hnil, List.nil_append] at htext
  rw [← htext] at hvt
  have hlength := h.2 v hv hvt
  rcases List.prefix_or_prefix_of_prefix hvt (List.prefix_append m tail) with hvm | hmv
  · exact (flatMap_mono hvm).length_le
  · rw [hmv.eq_of_length (le_antisymm hmv.length_le hlength)]

/-- The encodings of the leftmost longest matches are the leftmost longest matches of the
encoded words. -/
theorem LeftmostLongest.encode (he : ∀ a, e a ≠ []) {segs : List (List α × List α)}
    {last : List α} (h : LeftmostLongest V segs last)
    (hsync : Synchronized e V (source segs last)) :
    LeftmostLongest (encoded e V) (encodeSegs e segs) (last.flatMap e) := by
  induction segs with
  | nil =>
    have h : NoStart V last [] := h
    have hgap := h.encode he (by simpa using hsync)
    exact hgap
  | cons seg segs ih =>
    obtain ⟨k, m⟩ := seg
    obtain ⟨hk, hm, hrest⟩ := h
    rw [source_cons] at hsync
    have hmatch := hsync.of_append he
    refine ⟨?_, ?_, ih hrest (hmatch.of_append he)⟩
    · have hgap := hk.encode he hsync
      rwa [List.flatMap_append, ← source_encodeSegs] at hgap
    · have hlongest := hm.encode hmatch he
      rwa [← source_encodeSegs] at hlongest

end Substitution
