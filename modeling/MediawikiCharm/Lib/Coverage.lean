/-
Which occurrences of words the leftmost longest matches cover.

Of two words that overlap in a text, the matching takes the one that starts first, and what is
left of the other one is matched anew.  A word is covered wherever it occurs if and only if it
can be read as longest words one after the other, and so can whatever is left of it behind the
end of another word.  The condition is about the words alone, without the text.
-/
import MediawikiCharm.Lib.Substitution

namespace Substitution

variable {α : Type*} {V W : Set (List α)} {segs : List (List α × List α)}
  {last m v w x y z tail b : List α} {i : ℕ}

/-- The position lies in a match. -/
def InMatch : List (List α × List α) → ℕ → Prop
  | [], _ => False
  | (k, m) :: segs, i => (k.length ≤ i ∧ i < k.length + m.length) ∨
      (k.length + m.length ≤ i ∧ InMatch segs (i - (k.length + m.length)))

/-- Wherever the word occurs in the text, it lies in the matches. -/
def CoversWord (segs : List (List α × List α)) (last w : List α) : Prop :=
  ∀ a b, source segs last = a ++ w ++ b →
    ∀ i, a.length ≤ i → i < a.length + w.length → InMatch segs i

/-- The text is made of longest words, one after the other. -/
inductive Tiled (V : Set (List α)) : List α → Prop
  | nil : Tiled V []
  | cons {m tail : List α} : IsLongest V m tail → m ≠ [] → Tiled V tail → Tiled V (m ++ tail)

/-- A word, and what is left of it behind another word, are made of longest words. -/
def NoOverhang (V W : Set (List α)) : Prop :=
  ∀ w ∈ W, Tiled V w ∧ ∀ x y z, x ≠ [] → y ≠ [] → w = y ++ z → IsLongest V (x ++ y) z → Tiled V z

/-- The parts of a text before a longer part of it. -/
lemma exists_append_of_length_le {s a k t : List α} (h : a ++ s = k ++ t)
    (hle : a.length ≤ k.length) : ∃ k', k = a ++ k' ∧ s = k' ++ t := by
  rcases List.append_eq_append_iff.1 h with ⟨k', rfl, rfl⟩ | ⟨a', rfl, rfl⟩
  · exact ⟨k', rfl, rfl⟩
  · obtain rfl : a' = [] := by
      rw [List.length_append] at hle
      exact List.eq_nil_of_length_eq_zero (by omega)
    exact ⟨[], by simp, rfl⟩

/-! ### Longest words -/

/-- A longest word is longest before a shorter tail too. -/
lemma IsLongest.of_append (h : IsLongest V m (tail ++ b)) : IsLongest V m tail := by
  refine ⟨h.1, fun v hv hpre => h.2 v hv ?_⟩
  rw [← List.append_assoc]
  exact hpre.trans (List.prefix_append _ _)

/-- Two longest words at one place are the same. -/
lemma IsLongest.unique {tail' : List α} (h : IsLongest V m tail) (h' : IsLongest V v tail')
    (heq : m ++ tail = v ++ tail') : m = v ∧ tail = tail' := by
  have hle : v.length ≤ m.length := h.2 v h'.1 (heq ▸ List.prefix_append _ _)
  have hle' : m.length ≤ v.length := h'.2 m h.1 (heq ▸ List.prefix_append _ _)
  exact List.append_inj heq (by omega)

/-- A word is made of itself. -/
lemma tiled_of_mem (hv : v ∈ V) (hne : v ≠ []) : Tiled V v := by
  have hlongest : IsLongest V v [] := by
    refine ⟨hv, fun u _ hu => ?_⟩
    rw [List.append_nil] at hu
    exact hu.length_le
  have htiled := Tiled.cons hlongest hne .nil
  rwa [List.append_nil] at htiled

/-- A nonempty text made of words starts with one. -/
lemma Tiled.exists_cons (h : Tiled V w) (hne : w ≠ []) :
    ∃ m tail, w = m ++ tail ∧ IsLongest V m tail ∧ m ≠ [] ∧ Tiled V tail := by
  cases h with
  | nil => exact absurd rfl hne
  | cons hm hmne htail => exact ⟨_, _, rfl, hm, hmne, htail⟩

/-! ### Words that are covered -/

/-- No word starts in the first gap. -/
lemma nil_of_prefix {k : List α} (hk : NoStart V k tail) (hv : v ∈ V) (h : v <+: k ++ tail) :
    k = [] := by
  by_contra hne
  exact hk [] k rfl hne v hv h

/-- Longest words one after the other are matched, whatever follows them. -/
lemma Tiled.inMatch (h : Tiled V z) (hll : LeftmostLongest V segs last)
    (hsrc : source segs last = z ++ b) : ∀ i < z.length, InMatch segs i := by
  induction h generalizing segs with
  | nil => exact fun i hi => absurd hi (Nat.not_lt_zero i)
  | @cons m tail hm hne htail ih =>
    rw [List.append_assoc] at hsrc
    cases segs with
    | nil =>
      have hprefix : m <+: last ++ [] := by
        rw [List.append_nil, show last = m ++ (tail ++ b) from hsrc]
        exact List.prefix_append _ _
      obtain rfl := nil_of_prefix hll hm.1 hprefix
      exact absurd (List.append_eq_nil_iff.1 hsrc.symm).1 hne
    -- a gap before the first word would hide a start
    | cons seg segs =>
      obtain ⟨k, m'⟩ := seg
      obtain ⟨hk, hm', hrest⟩ := hll
      rw [source_cons] at hsrc
      obtain rfl := nil_of_prefix hk hm.1 (hsrc ▸ List.prefix_append _ _)
      rw [List.nil_append] at hsrc
      intro i hi
      rcases Nat.lt_or_ge i m'.length with hlt | hge
      · exact .inl ⟨Nat.zero_le i, by simpa using hlt⟩
      · -- the match ends inside, so it is the same longest word
        have hsrc' : m' ++ source segs last = m ++ tail ++ b := by
          rw [hsrc, List.append_assoc]
        obtain ⟨t, ht, -⟩ := exists_append_of_length_le hsrc' (by omega)
        have hle : m'.length ≤ m.length := hm.2 m' hm'.1 (ht ▸ List.prefix_append _ _)
        have hle' : m.length ≤ m'.length := hm'.2 m hm.1 (hsrc ▸ List.prefix_append _ _)
        obtain ⟨rfl, htail'⟩ := List.append_inj hsrc (by omega)
        refine .inr ⟨by simpa using hge, ?_⟩
        rw [List.length_append] at hi
        rw [List.length_nil, Nat.zero_add]
        exact ih hrest htail' _ (by omega)

/-- Words that leave no overhang are covered. -/
lemma NoOverhang.coversWord (h : NoOverhang V W) (hw : w ∈ W)
    (hll : LeftmostLongest V segs last) : CoversWord segs last w := by
  obtain ⟨htiled, hover⟩ := h w hw
  intro a b hsrc i hai hi
  have hne : w ≠ [] := by
    rintro rfl
    simp only [List.length_nil] at hi
    omega
  obtain ⟨m₀, tail₀, hw₀, hm₀, -, htail₀⟩ := htiled.exists_cons hne
  rw [List.append_assoc] at hsrc
  induction segs generalizing a i with
  | nil =>
    refine absurd ?_ (hll a (w ++ b) hsrc (by simp [hne]) m₀ hm₀.1)
    rw [List.append_nil, hw₀, List.append_assoc]
    exact List.prefix_append _ _
  | cons seg segs ih =>
    obtain ⟨k, m⟩ := seg
    obtain ⟨hk, hm, hrest⟩ := hll
    rw [source_cons] at hsrc
    rcases Nat.lt_or_ge a.length k.length with hlt | hge
    · -- the word would start in the gap
      obtain ⟨k', rfl, hk'⟩ := exists_append_of_length_le hsrc.symm hlt.le
      have hk'ne : k' ≠ [] := by
        rintro rfl
        simp at hlt
      refine absurd ?_ (hk a k' rfl hk'ne m₀ hm₀.1)
      rw [← hk', hw₀, List.append_assoc]
      exact List.prefix_append _ _
    · obtain ⟨x, rfl, hsrc₁⟩ := exists_append_of_length_le hsrc hge
      rw [List.length_append] at hai hi
      rcases Nat.lt_or_ge x.length m.length with hxm | hxm
      · obtain ⟨y, rfl, hrest'⟩ := exists_append_of_length_le hsrc₁.symm hxm.le
        rw [List.length_append] at hxm
        rcases Nat.lt_or_ge i (k.length + (x ++ y).length) with hlt | hge'
        · exact .inl ⟨by omega, hlt⟩
        · -- the word goes on behind the match
          rw [List.length_append] at hge'
          obtain ⟨z, rfl, hz⟩ := exists_append_of_length_le hrest'.symm (by omega)
          rw [hz] at hm
          have hy : y ≠ [] := by
            rintro rfl
            simp at hxm
          have htiledz : Tiled V z := by
            by_cases hx : x = []
            · subst hx
              obtain ⟨-, rfl⟩ := hm.of_append.unique hm₀ hw₀
              exact htail₀
            · exact hover x y z hx hy rfl hm.of_append
          rw [List.length_append] at hi
          refine .inr ⟨by rw [List.length_append]; omega, ?_⟩
          exact htiledz.inMatch hrest hz _ (by rw [List.length_append]; omega)
      · -- the word starts behind the match
        obtain ⟨x', rfl, hsrc₂⟩ := exists_append_of_length_le hsrc₁ hxm
        rw [List.length_append] at hai hi
        exact .inr ⟨by omega, ih hrest x' hsrc₂ _ (by omega) (by omega)⟩

/-! ### Words that are not covered -/

lemma not_inMatch_gap {k : List α} (h : i < k.length) : ¬ InMatch ((k, m) :: segs) i := by
  rintro (⟨hle, -⟩ | ⟨hle, -⟩) <;> omega

/-- A text all of which lies in matches is made of longest words. -/
lemma tiled_of_inMatch (hnil : [] ∉ V) (hll : LeftmostLongest V segs last)
    (h : ∀ i < (source segs last).length, InMatch segs i) : Tiled V (source segs last) := by
  induction segs with
  | nil =>
    cases last with
    | nil => exact .nil
    | cons c last => exact (h 0 (Nat.succ_pos _)).elim
  | cons seg segs ih =>
    obtain ⟨k, m⟩ := seg
    obtain ⟨-, hm, hrest⟩ := hll
    -- the first symbol lies in a match, so there is no gap before it
    have hk : k = [] := by
      by_contra hne
      have hpos := List.length_pos_of_ne_nil hne
      refine not_inMatch_gap hpos (h 0 ?_)
      rw [source_cons, List.length_append]
      omega
    subst hk
    rw [source_cons, List.nil_append] at h ⊢
    refine .cons hm (fun he => hnil (he ▸ hm.1)) (ih hrest fun i hi => ?_)
    have hin := h (m.length + i) (by rw [List.length_append]; omega)
    rcases hin with ⟨-, hlt⟩ | ⟨-, hin⟩
    · simp only [List.length_nil, Nat.zero_add] at hlt
      omega
    · simpa using hin

/-- The first match of a text that starts with a longest word. -/
lemma exists_first (hnil : [] ∉ V) (hv : IsLongest V v z) (hll : LeftmostLongest V segs last)
    (hsrc : source segs last = v ++ z) :
    ∃ segs', segs = ([], v) :: segs' ∧ source segs' last = z ∧ LeftmostLongest V segs' last := by
  cases segs with
  | nil =>
    obtain rfl := nil_of_prefix hll hv.1 (by
      rw [List.append_nil, show last = v ++ z from hsrc]
      exact List.prefix_append _ _)
    exact absurd ((List.append_eq_nil_iff.1 hsrc.symm).1 ▸ hv.1) hnil
  | cons seg segs =>
    obtain ⟨k, m⟩ := seg
    obtain ⟨hk, hm, hrest⟩ := hll
    rw [source_cons] at hsrc
    obtain rfl := nil_of_prefix hk hv.1 (hsrc ▸ List.prefix_append _ _)
    obtain ⟨rfl, htail⟩ := hm.unique hv hsrc
    exact ⟨segs, rfl, htail, hrest⟩

/-- Words that are covered in every text leave no overhang. -/
lemma noOverhang_of_coversWord (hnil : [] ∉ V) (h : ∀ text, ∃ segs last, source segs last = text ∧
    LeftmostLongest V segs last ∧ ∀ w ∈ W, CoversWord segs last w) : NoOverhang V W := by
  intro w hw
  constructor
  · obtain ⟨segs, last, hsrc, hll, hcovers⟩ := h w
    rw [← hsrc]
    refine tiled_of_inMatch hnil hll fun i hi => ?_
    exact hcovers w hw [] [] (by simpa using hsrc) i (Nat.zero_le i) (by simpa [hsrc] using hi)
  · rintro x y z hx hy rfl hlongest
    obtain ⟨segs, last, hsrc, hll, hcovers⟩ := h (x ++ y ++ z)
    obtain ⟨segs', rfl, hsrc', hll'⟩ := exists_first hnil hlongest hll hsrc
    rw [← hsrc']
    refine tiled_of_inMatch hnil hll' fun i hi => ?_
    rw [hsrc'] at hi
    have hin := hcovers (y ++ z) hw x [] (by simpa using hsrc) ((x ++ y).length + i)
      (by rw [List.length_append]; omega) (by rw [List.length_append, List.length_append]; omega)
    rcases hin with ⟨-, hlt⟩ | ⟨-, hin⟩
    · rw [List.length_nil, Nat.zero_add] at hlt
      omega
    · simpa using hin

/-! ### Texts between symbols of no word -/

/-- A text without words that stands between two symbols of no word lies in a gap. -/
theorem inside_gap {c : α} {k : List α} (hc : ∀ v ∈ V, c ∉ v) (hk : ∀ v ∈ V, ¬ v <:+: k)
    (hll : LeftmostLongest V segs last) {a : List α}
    (hsrc : source segs last = a ++ c :: (k ++ c :: b)) :
    (∃ seg ∈ segs, k <:+: seg.1) ∨ k <:+: last := by
  induction segs generalizing a with
  | nil =>
    refine .inr ⟨a ++ [c], c :: b, ?_⟩
    rw [show last = _ from hsrc]
    simp
  | cons seg segs ih =>
    obtain ⟨gap, m⟩ := seg
    obtain ⟨-, hm, hrest⟩ := hll
    -- a match cannot contain the symbol of no word
    have hcm : ∀ a' m' t, m ≠ a' ++ c :: m' ++ t := by
      rintro a' m' t rfl
      exact hc _ hm.1 (by simp)
    rw [source_cons] at hsrc
    rcases Nat.lt_or_ge a.length gap.length with hlt | hge
    · obtain ⟨gap', rfl, hgap⟩ := exists_append_of_length_le hsrc.symm hlt.le
      cases gap' with
      | nil => simp at hlt
      | cons d gap' =>
        obtain ⟨rfl, hgap₁⟩ := List.cons.inj hgap
        rcases Nat.lt_or_ge gap'.length k.length with hlt' | hge'
        · -- the match would lie in the text or contain the second symbol
          obtain ⟨k', rfl, hk'⟩ := exists_append_of_length_le hgap₁.symm hlt'.le
          rcases Nat.lt_or_ge k'.length m.length with hlt'' | hge''
          · obtain ⟨m', rfl, hm'⟩ := exists_append_of_length_le hk'.symm hlt''.le
            cases m' with
            | nil => simp at hlt''
            | cons d m' =>
              obtain ⟨rfl, -⟩ := List.cons.inj hm'
              exact absurd (List.append_nil _).symm (hcm k' m' [])
          · obtain ⟨k'', rfl, -⟩ := exists_append_of_length_le hk' hge''
            refine absurd ⟨gap', k'', ?_⟩ (hk m hm.1)
            rw [List.append_assoc]
        · obtain ⟨gap'', rfl, -⟩ := exists_append_of_length_le hgap₁ hge'
          exact .inl ⟨_, List.mem_cons_self, a ++ [c], gap'', by simp⟩
    · -- the first symbol stands behind this gap, and not in its match
      obtain ⟨a', rfl, hsrc'⟩ := exists_append_of_length_le hsrc hge
      rcases Nat.lt_or_ge a'.length m.length with hlt | hge'
      · obtain ⟨m', rfl, hm'⟩ := exists_append_of_length_le hsrc'.symm hlt.le
        cases m' with
        | nil => simp at hlt
        | cons d m' =>
          obtain ⟨rfl, -⟩ := List.cons.inj hm'
          exact absurd (List.append_nil _).symm (hcm a' m' [])
      · obtain ⟨a'', rfl, hsrc''⟩ := exists_append_of_length_le hsrc' hge'
        rcases ih hrest hsrc'' with ⟨seg, hseg, hinside⟩ | hlast
        · exact .inl ⟨seg, List.mem_cons_of_mem _ hseg, hinside⟩
        · exact .inr hlast

end Substitution
