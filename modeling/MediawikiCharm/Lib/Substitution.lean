/-
Replacing the matches of an ordered list of literal alternatives.

The text is scanned from left to right.  At each position the alternatives are tried in
their order; the first one that the text continues with is replaced, and the scan goes on
behind it.  With the longer alternatives first, the result is the decomposition of the
text into gaps and leftmost longest matches.
-/
import Mathlib.Data.Finset.Sort
import Mathlib.Data.List.Infix
import Mathlib.Data.List.Lex
import Mathlib.Tactic.Common

namespace Substitution

variable {α : Type*}

/-! ### Gaps and matches -/

/-- The text made of gaps, each followed by a match, and a last gap. -/
def source (segs : List (List α × List α)) (last : List α) : List α :=
  segs.flatMap (fun x => x.1 ++ x.2) ++ last

/-- The same text with the matches replaced. -/
def masked (r : List α) (segs : List (List α × List α)) (last : List α) : List α :=
  segs.flatMap (fun x => x.1 ++ r) ++ last

/-- No word of `V` starts inside the gap `k`, which `tail` follows. -/
def NoStart (V : Set (List α)) (k tail : List α) : Prop :=
  ∀ a b, k = a ++ b → b ≠ [] → ∀ v ∈ V, ¬ v <+: b ++ tail

/-- `m` is a longest word of `V` at its position, with `tail` behind it. -/
def IsLongest (V : Set (List α)) (m tail : List α) : Prop :=
  m ∈ V ∧ ∀ v ∈ V, v <+: m ++ tail → v.length ≤ m.length

/-- The gaps and matches are those of the leftmost longest matches. -/
def LeftmostLongest (V : Set (List α)) : List (List α × List α) → List α → Prop
  | [], last => NoStart V last []
  | (k, m) :: segs, last => NoStart V k (m ++ source segs last) ∧
      IsLongest V m (source segs last) ∧ LeftmostLongest V segs last

@[simp] lemma source_nil (last : List α) : source [] last = last := rfl

@[simp] lemma source_cons (k m : List α) (segs : List (List α × List α)) (last : List α) :
    source ((k, m) :: segs) last = k ++ (m ++ source segs last) := by
  simp [source]

@[simp] lemma masked_nil (r last : List α) : masked r [] last = last := rfl

@[simp] lemma masked_cons (r k m : List α) (segs : List (List α × List α)) (last : List α) :
    masked r ((k, m) :: segs) last = k ++ (r ++ masked r segs last) := by
  simp [masked]

variable {V : Set (List α)} {r : List α}

lemma noStart_nil (tail : List α) : NoStart V [] tail := by
  intro a b hab hb
  exact absurd (List.append_eq_nil_iff.1 hab.symm).2 hb

lemma NoStart.cons {c : α} {k tail : List α} (h : NoStart V k tail)
    (hc : ∀ v ∈ V, ¬ v <+: c :: (k ++ tail)) : NoStart V (c :: k) tail := by
  intro a b hab hb
  cases a with
  | nil =>
    obtain rfl : c :: k = b := hab
    exact hc
  | cons d a =>
    obtain ⟨-, rfl⟩ := List.cons.inj hab
    exact h a b rfl hb

/-- A gap contains no word of `V`. -/
lemma NoStart.not_infix {k tail v : List α} (h : NoStart V k tail) (hv : v ∈ V) (hne : v ≠ []) :
    ¬ v <:+: k := by
  rintro ⟨a, b, hk⟩
  refine h a (v ++ b) (by rw [← hk, List.append_assoc]) (by simp [hne]) v hv ?_
  rw [List.append_assoc]
  exact List.prefix_append _ _

/-- A symbol at which no word starts belongs to the first gap. -/
lemma exists_cons {c : α} {segs : List (List α × List α)} {last : List α}
    (h : LeftmostLongest V segs last) (hc : ∀ v ∈ V, ¬ v <+: c :: source segs last) :
    ∃ segs' last', source segs' last' = c :: source segs last ∧
      masked r segs' last' = c :: masked r segs last ∧ LeftmostLongest V segs' last' := by
  cases segs with
  | nil => exact ⟨[], c :: last, rfl, rfl, NoStart.cons h (by simpa using hc)⟩
  | cons seg segs =>
    obtain ⟨k, m⟩ := seg
    obtain ⟨hk, hm, hrest⟩ := h
    refine ⟨(c :: k, m) :: segs, last, by simp, by simp, hk.cons ?_, hm, hrest⟩
    simpa using hc

/-- No word of `V` occurs outside the matches. -/
lemma LeftmostLongest.not_infix {v : List α} {segs : List (List α × List α)} {last : List α}
    (h : LeftmostLongest V segs last) (hv : v ∈ V) (hne : v ≠ []) :
    (∀ seg ∈ segs, ¬ v <:+: seg.1) ∧ ¬ v <:+: last := by
  induction segs with
  | nil => exact ⟨by simp, NoStart.not_infix h hv hne⟩
  | cons seg segs ih =>
    obtain ⟨k, m⟩ := seg
    obtain ⟨hk, -, hrest⟩ := h
    obtain ⟨hsegs, hlast⟩ := ih hrest
    exact ⟨List.forall_mem_cons.2 ⟨hk.not_infix hv hne, hsegs⟩, hlast⟩

/-! ### What is not masked -/

lemma prefix_of_notMem {w a b : List α} {c : α} (hc : c ∉ w) (h : w <+: a ++ c :: b) : w <+: a := by
  rcases List.prefix_or_prefix_of_prefix h (List.prefix_append a (c :: b)) with hw | ⟨t, rfl⟩
  · exact hw
  · rw [List.prefix_append_right_inj] at h
    cases t with
    | nil => rw [List.append_nil]
    | cons x t =>
      obtain rfl : x = c := (List.cons_prefix_cons.1 h).1
      simp at hc

/-- What does not have a symbol is on one side of it. -/
lemma infix_or_infix {w a b : List α} {c : α} (hc : c ∉ w) (h : w <:+: a ++ c :: b) :
    w <:+: a ∨ w <:+: b := by
  induction a with
  | nil =>
    rcases List.infix_cons_iff.1 h with h | h
    · exact .inl (prefix_of_notMem (a := []) hc h).isInfix
    · exact .inr h
  | cons x a ih =>
    rcases List.infix_cons_iff.1 h with h | h
    · exact .inl (prefix_of_notMem (a := x :: a) hc h).isInfix
    · exact (ih h).imp_left fun h => List.infix_cons h

/-- What is in no gap and has none of the first and the last symbol of the replacement is not in
the masked text, unless it is inside of the replacement. -/
lemma not_infix_masked {w r : List α} {c d : α} {segs : List (List α × List α)} {last : List α}
    (hc : c ∉ w) (hd : d ∉ w) (hr : ¬ w <:+: r) (hsegs : ∀ seg ∈ segs, ¬ w <:+: seg.1)
    (hlast : ¬ w <:+: last) : ¬ w <:+: masked (c :: r ++ [d]) segs last := by
  induction segs with
  | nil => exact hlast
  | cons seg segs ih =>
    obtain ⟨hseg, hsegs⟩ := List.forall_mem_cons.1 hsegs
    have hmasked : masked (c :: r ++ [d]) (seg :: segs) last =
        seg.1 ++ c :: (r ++ d :: masked (c :: r ++ [d]) segs last) := by
      simp [masked]
    rw [hmasked]
    intro h
    rcases infix_or_infix hc h with h | h
    · exact hseg h
    rcases infix_or_infix hd h with h | h
    · exact hr h
    · exact ih hsegs h

/-! ### The scan -/

variable [DecidableEq α]

/-- The first alternative that the text continues with. -/
def firstMatch (ps : List (List α)) (s : List α) : Option (List α) :=
  ps.find? fun p => p.isPrefixOf s

/-- Scan the text, whose first `skip` symbols belong to a match that was replaced. -/
def scan (ps : List (List α)) (r : List α) : ℕ → List α → List α
  | _, [] => []
  | skip + 1, _ :: s => scan ps r skip s
  | 0, c :: s =>
    match firstMatch ps (c :: s) with
    | some p => r ++ scan ps r (p.length - 1) s
    | none => c :: scan ps r 0 s

/-- Replace the matches of nonempty alternatives by `r`. -/
def substitute (ps : List (List α)) (r s : List α) : List α := scan ps r 0 s

variable {ps : List (List α)}

lemma scan_eq (k : ℕ) (s : List α) : scan ps r k s = substitute ps r (s.drop k) := by
  induction k generalizing s with
  | zero => rfl
  | succ k ih =>
    cases s with
    | nil => rfl
    | cons c s => exact ih s

lemma firstMatch_eq_some {s p : List α} (h : firstMatch ps s = some p) : p ∈ ps ∧ p <+: s :=
  ⟨List.mem_of_find?_eq_some h, by simpa using List.find?_some h⟩

lemma firstMatch_eq_none {s : List α} (h : firstMatch ps s = none) : ∀ p ∈ ps, ¬ p <+: s := by
  intro p hp hps
  exact List.find?_eq_none.1 h p hp (List.isPrefixOf_iff_prefix.2 hps)

/-- With the longer alternatives first, the first match is a longest one. -/
lemma length_le_of_firstMatch (hs : ps.Pairwise fun p q => q.length ≤ p.length) {s p q : List α}
    (h : firstMatch ps s = some p) (hq : q ∈ ps) (hqs : q <+: s) : q.length ≤ p.length := by
  obtain ⟨-, as, bs, rfl, has⟩ := List.find?_eq_some_iff_append.1 h
  rcases List.mem_append.1 hq with hq | hq
  · have hne := has q hq
    simp [List.isPrefixOf_iff_prefix.2 hqs] at hne
  · rcases List.mem_cons.1 hq with rfl | hq
    · exact le_rfl
    · exact (List.pairwise_cons.1 (List.pairwise_append.1 hs).2.1).1 q hq

lemma substitute_of_match {s t p : List α} (hp : p ≠ []) (h : firstMatch ps (p ++ t) = some p)
    (hs : s = p ++ t) : substitute ps r s = r ++ substitute ps r t := by
  subst hs
  cases p with
  | nil => exact absurd rfl hp
  | cons c p =>
    show (match firstMatch ps (c :: p ++ t) with
      | some q => r ++ scan ps r (q.length - 1) (p ++ t)
      | none => c :: scan ps r 0 (p ++ t)) = _
    rw [h]
    simp [scan_eq]

lemma substitute_of_no_match {c : α} {s : List α} (h : firstMatch ps (c :: s) = none) :
    substitute ps r (c :: s) = c :: substitute ps r s := by
  show (match firstMatch ps (c :: s) with
    | some q => r ++ scan ps r (q.length - 1) s
    | none => c :: scan ps r 0 s) = _
  rw [h]
  rfl

/-- Without alternatives nothing is replaced. -/
@[simp] lemma substitute_nil_alternatives (r s : List α) : substitute [] r s = s := by
  induction s with
  | nil => rfl
  | cons c s ih => rw [substitute_of_no_match rfl, ih]

/-- The result of the substitution is the decomposition into leftmost longest matches. -/
theorem substitute_spec (hne : ∀ p ∈ ps, p ≠ []) (hs : ps.Pairwise fun p q => q.length ≤ p.length)
    (r s : List α) :
    ∃ segs last, source segs last = s ∧ substitute ps r s = masked r segs last ∧
      LeftmostLongest {p | p ∈ ps} segs last := by
  induction hn : s.length using Nat.strong_induction_on generalizing s with
  | _ n ih =>
    cases s with
    | nil => exact ⟨[], [], rfl, rfl, noStart_nil []⟩
    | cons c s =>
      cases hf : firstMatch ps (c :: s) with
      | none =>
        obtain ⟨segs, last, hsrc, hmask, hll⟩ := ih s.length (by simp [← hn]) s rfl
        obtain ⟨segs', last', hsrc', hmask', hll'⟩ := exists_cons (r := r) hll
          (by rw [hsrc]; exact firstMatch_eq_none hf)
        refine ⟨segs', last', by rw [hsrc', hsrc], ?_, hll'⟩
        rw [substitute_of_no_match hf, hmask, hmask']
      | some p =>
        obtain ⟨hp, t, ht⟩ := firstMatch_eq_some hf
        have hlt : t.length < n := by
          have hpos := List.length_pos_of_ne_nil (hne p hp)
          have hlen := congrArg List.length ht
          rw [List.length_append, hn] at hlen
          omega
        obtain ⟨segs, last, hsrc, hmask, hll⟩ := ih t.length hlt t rfl
        refine ⟨([], p) :: segs, last, by simp [hsrc, ht], ?_, noStart_nil _, ⟨hp, ?_⟩, hll⟩
        · rw [substitute_of_match (hne p hp) (by rw [ht]; exact hf) ht.symm, hmask]
          simp
        · intro v hv hpre
          rw [hsrc, ht] at hpre
          exact length_le_of_firstMatch hs hf hv hpre

/-! ### A set of alternatives -/

section LongestFirst

variable {α : Type*} [LinearOrder α]

/-- The longer word first; words of one length in lexicographic order. -/
def longestFirst (a b : List α) : Prop :=
  b.length < a.length ∨ a.length = b.length ∧ a ≤ b

instance : DecidableRel (@longestFirst α _) := fun _ _ =>
  inferInstanceAs (Decidable (_ ∨ _))

instance : IsTrans (List α) longestFirst where
  trans a b c := by
    rintro (hab | ⟨hab, hab'⟩) (hbc | ⟨hbc, hbc'⟩)
    · exact .inl (by omega)
    · exact .inl (by omega)
    · exact .inl (by omega)
    · exact .inr ⟨by omega, hab'.trans hbc'⟩

instance : Std.Antisymm (@longestFirst α _) where
  antisymm a b := by
    rintro (hab | ⟨hab, hab'⟩) (hba | ⟨hba, hba'⟩)
    · omega
    · omega
    · omega
    · exact le_antisymm hab' hba'

instance : Std.Total (@longestFirst α _) where
  total a b := by
    rcases lt_trichotomy a.length b.length with h | h | h
    · exact .inr (.inl h)
    · exact (le_total a b).imp (fun hab => .inr ⟨h, hab⟩) fun hba => .inr ⟨h.symm, hba⟩
    · exact .inl (.inl h)

/-- The words of a set as alternatives, the longer ones first. -/
def alternatives (V : Finset (List α)) : List (List α) := V.sort longestFirst

@[simp] lemma alternatives_empty : alternatives (∅ : Finset (List α)) = [] :=
  Finset.sort_empty longestFirst

lemma pairwise_alternatives (V : Finset (List α)) :
    (alternatives V).Pairwise fun p q => q.length ≤ p.length := by
  refine (V.pairwise_sort longestFirst).imp ?_
  rintro p q (h | ⟨h, -⟩)
  · exact h.le
  · exact h.ge

/-- Replacing the words of a set decomposes the text into its leftmost longest matches. -/
theorem substitute_alternatives {V : Finset (List α)} (hV : [] ∉ V) (r s : List α) :
    ∃ segs last, source segs last = s ∧ substitute (alternatives V) r s = masked r segs last ∧
      LeftmostLongest {v | v ∈ V} segs last := by
  have hne : ∀ p ∈ alternatives V, p ≠ [] := by
    rintro p hp rfl
    exact hV ((Finset.mem_sort _).1 hp)
  have hset : {p | p ∈ alternatives V} = {v | v ∈ V} := by
    ext p
    exact Finset.mem_sort _
  obtain ⟨segs, last, hsrc, hmask, hll⟩ := substitute_spec hne (pairwise_alternatives V) r s
  exact ⟨segs, last, hsrc, hmask, hset ▸ hll⟩

end LongestFirst

end Substitution
