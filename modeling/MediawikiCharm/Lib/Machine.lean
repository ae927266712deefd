/-
Labelled transition systems and their invariants.

A machine has initial states and steps labelled by the event that causes them.  The
one induction over runs is made here: a property of the initial states that every step
preserves holds in every reachable state.  The steps of a machine can be restricted to
those that meet a condition on the state and the event, which is how a property of the
runs whose steps all meet the condition is stated.
-/
import Mathlib.Tactic.Common

/-- A transition system over states `S` whose steps carry labels in `L`. -/
structure Machine (S L : Type) where
  /-- The states a run may start in. -/
  init : S → Prop
  /-- The states an event may lead to. -/
  step : S → L → S → Prop

namespace Machine

variable {S L : Type} (M : Machine S L)

/-- A state that some run ends in. -/
inductive Reachable : S → Prop
  | init {s : S} : M.init s → Reachable s
  | step {s s' : S} {l : L} : Reachable s → M.step s l s' → Reachable s'

/-- An invariant: it holds initially and every step preserves it. -/
structure Invariant (I : S → Prop) : Prop where
  init : ∀ s, M.init s → I s
  step : ∀ s l s', I s → M.step s l s' → I s'

variable {M}

/-- An invariant holds in every reachable state. -/
theorem Invariant.reachable {I : S → Prop} (h : M.Invariant I) {s : S} (hs : M.Reachable s) :
    I s := by
  induction hs with
  | init hi => exact h.init _ hi
  | step _ hst ih => exact h.step _ _ _ ih hst

/-- The machine whose events are only those that meet `C` in the state they occur in. -/
def restrict (M : Machine S L) (C : S → L → Prop) : Machine S L where
  init := M.init
  step s l s' := C s l ∧ M.step s l s'

/-- A run from one state to another, with the events in the order they occurred. -/
inductive Run (M : Machine S L) : S → List L → S → Prop
  | nil (s : S) : Run M s [] s
  | cons {s t u : S} {l : L} {ls : List L} : M.step s l t → Run M t ls u → Run M s (l :: ls) u

lemma Run.reachable {s t : S} {ls : List L} (h : M.Run s ls t) (hs : M.Reachable s) :
    M.Reachable t := by
  induction h with
  | nil => exact hs
  | cons hst _ ih => exact ih (.step hs hst)

lemma Run.append {s t u : S} {ls ls' : List L} (h : M.Run s ls t) (h' : M.Run t ls' u) :
    M.Run s (ls ++ ls') u := by
  induction h with
  | nil => exact h'
  | cons hst _ ih => exact .cons hst (ih h')

lemma Run.exists_of_cons {s u : S} {l : L} {ls : List L} (h : M.Run s (l :: ls) u) :
    ∃ t, M.step s l t ∧ M.Run t ls u := by
  obtain _ | ⟨hst, h⟩ := h
  exact ⟨_, hst, h⟩

lemma Run.exists_of_append {s u : S} {ls ls' : List L} (h : M.Run s (ls ++ ls') u) :
    ∃ t, M.Run s ls t ∧ M.Run t ls' u := by
  induction ls generalizing s with
  | nil => exact ⟨s, .nil s, h⟩
  | cons l ls ih =>
    obtain ⟨s', hst, h⟩ := h.exists_of_cons
    obtain ⟨t, ht, hu⟩ := ih h
    exact ⟨t, .cons hst ht, hu⟩

/-! ### Progress -/

/-- Some state of a run from `s` to `t` satisfies `Q`. -/
def Visits (M : Machine S L) (Q : S → Prop) (s : S) (ls : List L) (t : S) : Prop :=
  ∃ ls₁ ls₂ u, ls = ls₁ ++ ls₂ ∧ M.Run s ls₁ u ∧ M.Run u ls₂ t ∧ Q u

lemma Visits.append_right {Q : S → Prop} {s t u : S} {ls ls' : List L} (h : M.Visits Q s ls t)
    (h' : M.Run t ls' u) : M.Visits Q s (ls ++ ls') u := by
  obtain ⟨ls₁, ls₂, v, rfl, h₁, h₂, hv⟩ := h
  exact ⟨ls₁, ls₂ ++ ls', v, List.append_assoc .., h₁, h₂.append h', hv⟩

lemma Visits.append_left {Q : S → Prop} {s t u : S} {ls ls' : List L} (h : M.Run s ls t)
    (h' : M.Visits Q t ls' u) : M.Visits Q s (ls ++ ls') u := by
  obtain ⟨ls₁, ls₂, v, rfl, h₁, h₂, hv⟩ := h'
  exact ⟨ls ++ ls₁, ls₂, v, (List.append_assoc ..).symm, h.append h₁, h₂, hv⟩

/-- A run from `s` to `t` ends in `P` unless it visits `Q`. -/
def Ends (M : Machine S L) (P Q : S → Prop) (s : S) (ls : List L) (t : S) : Prop :=
  P t ∨ M.Visits Q s ls t

section Ends

variable {P P' Q : S → Prop} {s t u : S} {l : L} {ls ls' : List L}

lemma Ends.mono (h : M.Ends P Q s ls t) (hP : P t → P' t) : M.Ends P' Q s ls t := Or.imp_left hP h

lemma Ends.append (h : M.Ends P Q s ls t) (hrun : M.Run s ls t) (hrun' : M.Run t ls' u)
    (h' : P t → M.Ends P' Q t ls' u) : M.Ends P' Q s (ls ++ ls') u := by
  rcases h with h | h
  · exact (h' h).imp_right (Visits.append_left hrun)
  · exact .inr (h.append_right hrun')

lemma Ends.cons (hst : M.step s l t) (hrun : M.Run t ls u) (h : P t ∨ Q t)
    (h' : P t → M.Ends P' Q t ls u) : M.Ends P' Q s (l :: ls) u := by
  have hone : M.Run s [l] t := .cons hst (.nil t)
  refine Ends.append (h.imp_right fun ht => ?_) hone hrun h'
  exact ⟨[l], [], t, rfl, hone, .nil t, ht⟩

/-- A property that every step with a label in `C` keeps or leaves for `Q` is kept by a run of
such steps unless it visits `Q`. -/
theorem Run.ends {C : L → Prop} (hstep : ∀ s l s', C l → P s → M.step s l s' → P s' ∨ Q s')
    (h : M.Run s ls t) (hC : ∀ l ∈ ls, C l) (hs : P s) : M.Ends P Q s ls t := by
  induction h with
  | nil => exact .inl hs
  | @cons s t u l ls hst hrun ih =>
    obtain ⟨hl, hls⟩ := List.forall_mem_cons.1 hC
    exact .cons hst hrun (hstep s l t hl hs hst) (ih hls)

end Ends

/-- The run of a step function over a list of events. -/
def exec (f : S → L → Option S) : S → List L → Option S
  | s, [] => some s
  | s, l :: ls => (f s l).bind fun s' => exec f s' ls

/-- A run of the step function of a machine ends in a reachable state. -/
theorem reachable_of_exec {f : S → L → Option S}
    (hf : ∀ s l s', f s l = some s' → M.step s l s') {s t : S} {ls : List L}
    (hs : M.Reachable s) (h : exec f s ls = some t) : M.Reachable t := by
  induction ls generalizing s with
  | nil =>
    have hst : s = t := Option.some.inj h
    exact hst ▸ hs
  | cons l ls ih =>
    obtain ⟨s', hs', ht⟩ := Option.bind_eq_some_iff.1 h
    exact ih (.step hs (hf s l s' hs')) ht

/-- A run of the step function of a machine is a run of the machine. -/
theorem run_of_exec {f : S → L → Option S} (hf : ∀ s l s', f s l = some s' → M.step s l s')
    {s t : S} {ls : List L} (h : exec f s ls = some t) : M.Run s ls t := by
  induction ls generalizing s with
  | nil =>
    obtain rfl : s = t := Option.some.inj h
    exact .nil s
  | cons l ls ih =>
    obtain ⟨s', hs', ht⟩ := Option.bind_eq_some_iff.1 h
    exact .cons (hf s l s' hs') (ih ht)

end Machine
