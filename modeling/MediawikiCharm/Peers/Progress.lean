/-
Progress of the coordinated operations.

A pending operation ends when every unit has completed a hook that acknowledged its mode
and the leader then completes a hook that reconciles it.  The hooks of the units overlap
in any order, other hooks start and fail in between, and the leader goes on requesting
operations: until the application is back in normal operation the requested mode cannot
change, and a unit that has acknowledged it acknowledges nothing else.

The same argument, made for normal operation, shows that nothing is left behind that would
refuse the next operation: once every unit has completed a hook in normal operation the
leader's requests are recorded.
-/
import MediawikiCharm.Peers.Hooks

namespace MediawikiCharm
namespace Hooks

open Peers

variable {st st' st₁ st₂ : State} {e : Event} {u v l : String} {us : List String}
  {m : OperationMode} {k : Hook} {ls ls₁ ls₂ : List Event}

/-! ### What a step does to the units -/

/-- What the events of a running hook leave of it. -/
structure Extends (k k' : Hook) : Prop where
  mode : k'.mode = k.mode
  units : k'.units = k.units
  acked : k.acked = true → k'.acked = true
  reconciled : k.reconciled = true → k'.reconciled = true ∧ k'.app = k.app

lemma Extends.refl : Extends k k := ⟨rfl, rfl, id, fun h => ⟨h, rfl⟩⟩

/-- The hooks, the databags and the leader after an event. -/
inductive Change (st st' : State) : Event → Prop
  /-- The leader is replaced between its hooks. -/
  | elect {u : String} : (∀ l, st.leader = some l → st.hook l = none) → st'.hook = st.hook →
      st'.data = st.data → Change st st' (.elect u)
  | begin {u : String} {us : List String} {k : Hook} : st.hook u = none →
      operationMode st.app = .ok k.mode → k.units = us → u ∉ us →
      st'.hook = Function.update st.hook u (some k) → st'.data = st.data →
      st'.leader = st.leader → Change st st' (.begin u us)
  /-- An event of a running hook. -/
  | work {e : Event} {u : String} {k k' : Hook} : st.hook u = some k → Extends k k' →
      (∀ v, e = .acknowledge v → v = u ∧ k'.acked = true) →
      st'.hook = Function.update st.hook u (some k') → st'.data = st.data →
      st'.leader = st.leader → Change st st' e
  | drop {u : String} : st'.hook = Function.update st.hook u none → st'.data = st.data →
      st'.leader = st.leader → Change st st' (.finish u true)
  | commit {u : String} {k : Hook} : st.hook u = some k →
      st'.hook = Function.update st.hook u none → st'.data = Function.update st.data u k.own →
      st'.leader = st.leader → st'.app = k.app.getD st.app → Change st st' (.finish u false)
  /-- A request, which writes the application databag only. -/
  | request {e : Event} : (∀ v, e ≠ .acknowledge v) → st'.hook = st.hook → st'.data = st.data →
      st'.leader = st.leader → Change st st' e

lemma change_request {α : Type} (x : Prog (PeerWorld Bool) Exc α)
    (he : ∀ v, e ≠ .acknowledge v) : Change st (st.request us x) e := by
  unfold State.request
  split
  · exact .request he rfl rfl rfl
  · exact .request he rfl rfl rfl

lemma step_change (hst : step st e = some st') : Change st st' e := by
  cases e with
  | elect u =>
    simp only [step] at hst
    split_ifs at hst with hc
    cases hst
    refine .elect (fun l hl => ?_) rfl rfl
    simpa [hl] using hc.1
  | begin u us =>
    simp only [step] at hst
    split at hst
    · split_ifs at hst with hc
      cases hst
      exact .begin (Option.isNone_iff_eq_none.1 hc.1) ‹_› rfl hc.2.2.1 rfl rfl rfl
    · cases hst
  | renderInstall u =>
    simp only [step] at hst
    split at hst
    · rename_i k hk
      split_ifs at hst
      cases hst
      refine .work hk .refl (by simp) ?_ rfl rfl
      rw [← hk, Function.update_eq_self]
    · cases hst
  | render u =>
    simp only [step] at hst
    split at hst
    · rename_i k hk
      cases hst
      refine .work hk ?_ (by simp) rfl rfl rfl
      exact ⟨rfl, rfl, id, fun h => ⟨h, rfl⟩⟩
    · cases hst
  | acknowledge u =>
    simp only [step] at hst
    split at hst
    · rename_i k hk
      split_ifs at hst
      rw [acknowledge_run] at hst
      cases hst
      refine .work hk ?_ ?_ rfl rfl rfl
      · exact ⟨rfl, rfl, fun _ => rfl, fun h => ⟨h, rfl⟩⟩
      · intro v hv
        cases hv
        exact ⟨rfl, rfl⟩
    · cases hst
  | reconcile u outcome =>
    simp only [step] at hst
    split at hst
    · rename_i k hk
      split_ifs at hst with hc
      cases hst
      refine .work hk ?_ (by simp) rfl rfl rfl
      exact ⟨rfl, rfl, id, fun h => absurd h hc.2⟩
    · cases hst
  | finish u failed =>
    simp only [step] at hst
    split at hst
    · rename_i k hk
      cases failed with
      | true =>
        cases hst
        exact .drop rfl rfl rfl
      | false =>
        cases hst
        exact .commit hk rfl rfl rfl rfl
    · cases hst
  | requestDatabaseUpdate u us =>
    simp only [step] at hst
    split_ifs at hst
    cases hst
    exact change_request _ (by simp)
  | requestForceReconciliation u us =>
    simp only [step] at hst
    split_ifs at hst
    cases hst
    exact change_request _ (by simp)
  | requestMaintenanceMode u us enabled message protection =>
    simp only [step] at hst
    split_ifs at hst
    cases hst
    exact change_request _ (by simp)

lemma step_begin (hst : step st (.begin v us) = some st') :
    (∃ k, st'.hook v = some k ∧ operationMode st.app = .ok k.mode ∧ k.units = us) ∧
      st'.leader = st.leader := by
  simp only [step] at hst
  split at hst
  · split_ifs at hst with hc
    cases hst
    exact ⟨⟨_, State.setHook_hook_self, ‹_›, rfl⟩, rfl⟩
  · cases hst

lemma step_finish (hst : step st (.finish v false) = some st') (hk : st.hook v = some k) :
    st'.hook v = none ∧ st'.data v = k.own ∧ st'.app = k.app.getD st.app := by
  simp only [step, hk] at hst
  cases hst
  exact ⟨State.setHook_hook_self, Function.update_self .., rfl⟩

/-- A running hook goes on until its end. -/
lemma step_running (hst : step st e = some st') (hk : st.hook v = some k)
    (he : ∀ b, e ≠ .finish v b) :
    ∃ k', st'.hook v = some k' ∧ Extends k k' ∧ (e = .acknowledge v → k'.acked = true) := by
  have hsame : ∀ {u : String} {o : Option Hook}, v ≠ u → e ≠ .acknowledge v →
      st'.hook = Function.update st.hook u o →
      ∃ k', st'.hook v = some k' ∧ Extends k k' ∧ (e = .acknowledge v → k'.acked = true) := by
    intro u o hvu hne hhook
    exact ⟨k, by rw [hhook, Function.update_of_ne hvu, hk], .refl, fun h => absurd h hne⟩
  cases step_change hst with
  | elect _ hhook _ => exact ⟨k, by rw [hhook, hk], .refl, by simp⟩
  | @begin u _ _ hu _ _ _ hhook _ _ =>
    refine hsame ?_ (by simp) hhook
    rintro rfl
    rw [hk] at hu
    cases hu
  | @work _ u k₁ k₂ hu hext hack hhook _ _ =>
    by_cases hvu : v = u
    · subst hvu
      obtain rfl : k₁ = k := Option.some.inj (hu.symm.trans hk)
      exact ⟨k₂, by rw [hhook, Function.update_self], hext, fun h => (hack v h).2⟩
    · exact hsame hvu (fun h => hvu (hack v h).1) hhook
  | drop hhook _ _ => exact hsame (fun h => he true (h ▸ rfl)) (by simp) hhook
  | commit _ hhook _ _ _ => exact hsame (fun h => he false (h ▸ rfl)) (by simp) hhook
  | request hne hhook _ _ => exact ⟨k, by rw [hhook, hk], .refl, fun h => absurd h (hne v)⟩

/-- The leader stays leader while it runs a hook. -/
lemma step_leader (hst : step st e = some st') (hl : st.leader = some l)
    (hk : st.hook l = some k) : st'.leader = some l := by
  cases step_change hst with
  | elect hnone _ _ =>
    have hl := hnone l hl
    rw [hk] at hl
    cases hl
  | begin _ _ _ _ _ _ hlead => exact hlead.trans hl
  | work _ _ _ _ _ hlead => exact hlead.trans hl
  | drop _ _ hlead => exact hlead.trans hl
  | commit _ _ _ hlead _ => exact hlead.trans hl
  | request _ _ _ hlead => exact hlead.trans hl

/-! ### Units that have applied a mode -/

/-- The unit has visibly acknowledged the mode, and a hook it is running has read it. -/
structure Applied (m : OperationMode) (st : State) (v : String) : Prop where
  acked : (st.data v).operationMode = some m.value
  hook : ∀ k, st.hook v = some k → k.mode = m

/-- The visible mode is `m`. -/
structure Steady (m : OperationMode) (st : State) : Prop where
  inv : Inv st
  mode : operationMode st.app = .ok m

/-- A unit that has applied the visible mode applies no other. -/
lemma applied_step (h : Steady m st) (hst : step st e = some st') (hv : Applied m st v) :
    Applied m st' v := by
  have hacked : st'.data v = st.data v → (st'.data v).operationMode = some m.value :=
    fun hd => hd ▸ hv.acked
  cases step_change hst with
  | elect _ hhook hdata => exact ⟨hacked (congrFun hdata v), hhook ▸ hv.hook⟩
  | @begin u _ k _ hm _ _ hhook hdata _ =>
    refine ⟨hacked (congrFun hdata v), fun k' hk' => ?_⟩
    by_cases hvu : v = u
    · subst hvu
      rw [hhook, Function.update_self] at hk'
      obtain rfl := Option.some.inj hk'
      exact Except.ok.inj (hm.symm.trans h.mode)
    · rw [hhook, Function.update_of_ne hvu] at hk'
      exact hv.hook k' hk'
  | @work _ u k₁ k₂ hu hext _ hhook hdata _ =>
    refine ⟨hacked (congrFun hdata v), fun k' hk' => ?_⟩
    by_cases hvu : v = u
    · subst hvu
      rw [hhook, Function.update_self] at hk'
      obtain rfl := Option.some.inj hk'
      exact hext.mode.trans (hv.hook k₁ hu)
    · rw [hhook, Function.update_of_ne hvu] at hk'
      exact hv.hook k' hk'
  | @drop u hhook hdata _ =>
    refine ⟨hacked (congrFun hdata v), fun k' hk' => ?_⟩
    by_cases hvu : v = u
    · subst hvu
      rw [hhook, Function.update_self] at hk'
      cases hk'
    · rw [hhook, Function.update_of_ne hvu] at hk'
      exact hv.hook k' hk'
  | @commit u k hu hhook hdata _ _ =>
    by_cases hvu : v = u
    · subst hvu
      refine ⟨?_, fun k' hk' => ?_⟩
      · rw [hdata, Function.update_self, (h.inv.hook v k hu).own]
        split
        · rw [hv.hook k hu]
        · exact hv.acked
      · rw [hhook, Function.update_self] at hk'
        cases hk'
    · refine ⟨hacked (by rw [hdata, Function.update_of_ne hvu]), fun k' hk' => ?_⟩
      rw [hhook, Function.update_of_ne hvu] at hk'
      exact hv.hook k' hk'
  | request _ hhook hdata _ => exact ⟨hacked (congrFun hdata v), hhook ▸ hv.hook⟩

/-! ### Rounds of hooks -/

/-- The unit completes a hook in which it acknowledges the mode that it has read. -/
def Applies (v : String) (ls : List Event) : Prop :=
  ∃ before us during after, ls = before ++ .begin v us :: (during ++ .finish v false :: after) ∧
    .acknowledge v ∈ during ∧ ∀ b, .finish v b ∉ during

section Rounds

variable {Q : State → Prop} (hQ : ∀ st e st', Steady m st → step st e = some st' →
  Steady m st' ∨ Q st')

include hQ

lemma steady_run (h : Steady m st) (hrun : machine.Run st ls st') :
    machine.Ends (Steady m) Q st ls st' :=
  hrun.ends (C := fun _ => True) (fun s e s' _ hs hst => hQ s e s' hs hst) (fun _ _ => trivial) h

lemma applied_run (h : Steady m st) (hv : Applied m st v) (hrun : machine.Run st ls st') :
    machine.Ends (fun s => Steady m s ∧ Applied m s v) Q st ls st' := by
  refine hrun.ends (C := fun _ => True) ?_ (fun _ _ => trivial) ⟨h, hv⟩
  rintro s e s' - ⟨hs, hv⟩ hst
  exact (hQ s e s' hs hst).imp_left fun hs' => ⟨hs', applied_step hs hst hv⟩

/-- What the events of a hook keep of it holds until the end of the hook. -/
lemma running_run {R : Hook → Prop} (hR : ∀ k k', R k → Extends k k' → R k')
    (h : Steady m st) (hk : ∃ k, st.hook v = some k ∧ R k) (hrun : machine.Run st ls st')
    (hls : ∀ b, .finish v b ∉ ls) :
    machine.Ends (fun s => Steady m s ∧ ∃ k, s.hook v = some k ∧ R k) Q st ls st' := by
  refine hrun.ends (C := fun e => ∀ b, e ≠ .finish v b) ?_ (fun e he b heq => hls b (heq ▸ he))
    ⟨h, hk⟩
  rintro s e s' he ⟨hs, k, hk, hr⟩ hst
  refine (hQ s e s' hs hst).imp_left fun hs' => ⟨hs', ?_⟩
  obtain ⟨k', hk', hext, -⟩ := step_running hst hk he
  exact ⟨k', hk', hR k k' hr hext⟩

/-- A unit that completes a hook has applied the mode. -/
lemma applies_run (h : Steady m st) (hv : Applies v ls) (hrun : machine.Run st ls st') :
    machine.Ends (fun s => Steady m s ∧ Applied m s v) Q st ls st' := by
  obtain ⟨before, us, during, after, rfl, hack, hfin⟩ := hv
  obtain ⟨d₁, d₂, rfl⟩ := List.append_of_mem hack
  obtain ⟨s₁, hrun₁, hrun⟩ := hrun.exists_of_append
  refine (steady_run hQ h hrun₁).append hrun₁ hrun fun hs₁ => ?_
  -- the hook reads the mode
  obtain ⟨s₂, hst₂, hrun⟩ := hrun.exists_of_cons
  obtain ⟨⟨k₂, hk₂, hm₂, -⟩, -⟩ := step_begin hst₂
  refine .cons (P := fun s => Steady m s ∧ ∃ k, s.hook v = some k ∧ k.mode = m) hst₂ hrun
    ((hQ _ _ _ hs₁ hst₂).imp_left fun hs₂ =>
      ⟨hs₂, k₂, hk₂, Except.ok.inj (hm₂.symm.trans hs₁.mode)⟩) fun ⟨hs₂, hk₂⟩ => ?_
  rw [List.append_assoc, List.cons_append] at hrun ⊢
  obtain ⟨s₃, hrun₃, hrun⟩ := hrun.exists_of_append
  refine (running_run hQ (fun k k' hk he => he.mode.trans hk) hs₂ hk₂ hrun₃ fun b hb =>
    hfin b (List.mem_append_left _ hb)).append hrun₃ hrun fun ⟨hs₃, k₃, hk₃, hm₃⟩ => ?_
  -- acknowledges it
  obtain ⟨s₄, hst₄, hrun⟩ := hrun.exists_of_cons
  obtain ⟨k₄, hk₄, hext, hack₄⟩ := step_running hst₄ hk₃ (by simp)
  refine .cons (P := fun s => Steady m s ∧ ∃ k, s.hook v = some k ∧ k.mode = m ∧ k.acked = true)
    hst₄ hrun ((hQ _ _ _ hs₃ hst₄).imp_left fun hs₄ =>
      ⟨hs₄, k₄, hk₄, hext.mode.trans hm₃, hack₄ rfl⟩) fun ⟨hs₄, hk₄⟩ => ?_
  obtain ⟨s₅, hrun₅, hrun⟩ := hrun.exists_of_append
  refine (running_run hQ (fun k k' hk he => ⟨he.mode.trans hk.1, he.acked hk.2⟩) hs₄ hk₄ hrun₅
    fun b hb => hfin b (List.mem_append_right _ (List.mem_cons_of_mem _ hb))).append hrun₅ hrun
      fun ⟨hs₅, k₅, hk₅, hm₅, hack₅⟩ => ?_
  -- and makes the acknowledgement visible
  obtain ⟨s₆, hst₆, hrun⟩ := hrun.exists_of_cons
  obtain ⟨hnone, hdata, -⟩ := step_finish hst₆ hk₅
  have happ : Applied m s₆ v := by
    refine ⟨?_, fun k hk => ?_⟩
    · rw [hdata, (hs₅.inv.hook v k₅ hk₅).own, if_pos hack₅, hm₅]
    · rw [hnone] at hk
      cases hk
  refine .cons (P := fun s => Steady m s ∧ Applied m s v) hst₆ hrun
    ((hQ _ _ _ hs₅ hst₆).imp_left fun hs₆ => ⟨hs₆, happ⟩) fun ⟨hs₆, happ⟩ => ?_
  exact applied_run hQ hs₆ happ hrun

/-- After a round of hooks every unit has applied the mode. -/
lemma round_run (h : Steady m st) (hus : ∀ v ∈ us, Applies v ls) (hrun : machine.Run st ls st') :
    machine.Ends (fun s => Steady m s ∧ ∀ v ∈ us, Applied m s v) Q st ls st' := by
  by_cases hvis : machine.Visits Q st ls st'
  · exact .inr hvis
  refine .inl ⟨(steady_run hQ h hrun).resolve_right hvis, fun v hv => ?_⟩
  exact ((applies_run hQ h (hus v hv) hrun).resolve_right hvis).2

end Rounds

/-! ### The end of an operation -/

/-- The application is in normal operation. -/
def State.Normal (st : State) : Prop := operationMode st.app = .ok .normal

/-- The modes that the leader completes. -/
def Pending (m : OperationMode) : Prop := m = .databaseUpdate ∨ m = .forceReconciliation

lemma request_mode {α : Type} {x : Prog (PeerWorld Bool) Exc α} {Q : α → PeerWorld Bool → Prop}
    {E : Exc → PeerWorld Bool → Prop}
    (hx : x.wp Q E ⟨some { units := us, app := st.app, data := st.data }, false⟩)
    (hQ : ∀ a s, Q a s → ∀ r, s.relation = some r → operationMode r.app = .ok m)
    (hE : ∀ ex s, E ex s → ∀ r, s.relation = some r → r.app = st.app)
    (h : operationMode st.app = .ok m) : operationMode (st.request us x).app = .ok m := by
  have key := Prog.wp_state (P := fun s => ∀ r, s.relation = some r → operationMode r.app = .ok m)
    hx hQ fun ex s hs r hr => (congrArg operationMode (hE ex s hs r hr)).trans h
  unfold State.request
  split
  · rename_i r hr
    exact key r hr
  · exact h

/-- A pending mode changes to normal only. -/
lemma pending_step (hp : Pending m) (h : Steady m st) (hst : step st e = some st') :
    Steady m st' ∨ st'.Normal := by
  have hinv := inv_step h.inv hst
  have hsame : st'.app = st.app → Steady m st' ∨ st'.Normal := fun happ =>
    .inl ⟨hinv, (congrArg operationMode happ).trans h.mode⟩
  have hnormal : m ≠ .normal := by rcases hp with rfl | rfl <;> simp
  cases e with
  | elect u =>
    simp only [step] at hst
    split_ifs at hst
    cases hst
    exact hsame rfl
  | begin u us =>
    simp only [step] at hst
    split at hst
    · split_ifs at hst
      cases hst
      exact hsame rfl
    · cases hst
  | renderInstall u =>
    simp only [step] at hst
    split at hst
    · split_ifs at hst
      cases hst
      exact hsame rfl
    · cases hst
  | render u =>
    simp only [step] at hst
    split at hst
    · cases hst
      exact hsame rfl
    · cases hst
  | acknowledge u =>
    simp only [step] at hst
    split at hst
    · split_ifs at hst
      rw [acknowledge_run] at hst
      cases hst
      exact hsame rfl
    · cases hst
  | reconcile u outcome =>
    simp only [step] at hst
    split at hst
    · split_ifs at hst
      cases hst
      exact hsame rfl
    · cases hst
  | finish u failed =>
    cases hk : st.hook u with
    | none => simp [step, hk] at hst
    | some k =>
      cases failed with
      | true =>
        simp only [step, hk] at hst
        cases hst
        exact hsame rfl
      | false =>
        obtain ⟨-, -, happ⟩ := step_finish hst hk
        cases ha : k.app with
        | none => exact hsame (by rw [happ, ha, Option.getD_none])
        | some a =>
          refine .inr ?_
          rw [State.Normal, happ, ha, Option.getD_some]
          exact ((h.inv.hook u k hk).pending a ha).2.1
  | requestDatabaseUpdate u us =>
    simp only [step] at hst
    split_ifs at hst
    cases hst
    refine .inl ⟨hinv, request_mode (requestDatabaseUpdate_spec _) ?_ ?_ h.mode⟩
    · rintro recorded s (⟨-, hn, -⟩ | ⟨-, r, hr, hm, -, rfl⟩) r' hr'
      · cases hn
      cases hr
      cases hr'
      rw [Relation.setApp_app, operationMode_setOperationMode]
      rcases hm with hm | hm
      · exact absurd (Except.ok.inj (h.mode.symm.trans hm)) hnormal
      · exact hm.symm.trans h.mode
    · rintro ex s ⟨rfl, -⟩ r hr
      cases hr
      rfl
  | requestForceReconciliation u us =>
    simp only [step] at hst
    split_ifs at hst
    cases hst
    refine .inl ⟨hinv, request_mode (requestForceReconciliation_spec _) ?_ ?_ h.mode⟩
    · rintro recorded s (⟨-, hn, -⟩ | ⟨-, r, hr, hm, -, rfl⟩) r' hr'
      · cases hn
      cases hr
      exact absurd (Except.ok.inj (h.mode.symm.trans hm)) hnormal
    · rintro ex s ⟨rfl, -⟩ r hr
      cases hr
      rfl
  | requestMaintenanceMode u us enabled message protection =>
    simp only [step] at hst
    split_ifs at hst
    cases hst
    refine .inl ⟨hinv, request_mode (requestMaintenanceMode_spec enabled _ message _) ?_ ?_ h.mode⟩
    · rintro recorded s (⟨-, hn, -⟩ | ⟨-, r, m', d, hr, hm, hdu, hfr, -⟩) r' hr'
      · cases hn
      cases hr
      obtain rfl : some m = m' := by rw [← hm, h.mode, Except.toOption]
      rcases hp with rfl | rfl
      · exact absurd rfl hdu
      · exact absurd rfl hfr
    · rintro ex s (⟨rfl, -⟩ | ⟨_, m', d, -, -, -, -, -, rfl⟩) r hr
      · cases hr
        rfl
      · cases hr
        rfl

/-- The leader completes the mode once every unit it sees has acknowledged it. -/
lemma reconcile_run (hp : Pending k.mode) (hl : st.leader = some u) (hu : u ∉ k.units)
    (hall : ∀ v ∈ k.units, (st.data v).operationMode = some k.mode.value) :
    (reconcileOperationMode (decide (st.leader = some u)) k.mode (schemaUpdate (.ok ()))
      (st.peers u k)).2.relation =
      some ((st.view u k).setApp ((st.view u k).app.setOperationMode .normal)) := by
  have hdata : forM (st.view u k).units (checkApplied (st.view u k) k.mode) = .ok () := by
    refine forM_checkApplied_eq_ok.2 fun v hv => ?_
    have hvu : v ≠ u := by
      rintro rfl
      exact hu hv
    show (Function.update st.data u k.own v).operationMode = _
    rw [Function.update_of_ne hvu]
    exact hall v hv
  rcases hp with hm | hm
  · rw [hm] at hdata ⊢
    simp [reconcileOperationMode, relation, writeRelation, callback, schemaUpdate, State.peers,
      Prog.bind_run, hl, hdata]
    rfl
  · rw [hm] at hdata ⊢
    simp [reconcileOperationMode, relation, writeRelation, State.peers, Prog.bind_run, hl, hdata]

/-- The hook of the leader holds the mode that it will make visible. -/
lemma step_reconcile (hp : Pending m) (h : Steady m st)
    (hst : step st (.reconcile u (.ok ())) = some st') (hk : st.hook u = some k) (hm : k.mode = m)
    (hl : st.leader = some u) (hall : ∀ v ∈ k.units, Applied m st v) :
    ∃ k', st'.hook u = some k' ∧ k'.reconciled = true ∧ k'.app.isSome = true := by
  subst hm
  have hrun := reconcile_run hp hl (h.inv.hook u k hk).others fun v hv => (hall v hv).acked
  simp only [step, hk] at hst
  split_ifs at hst
  cases hst
  refine ⟨_, State.setHook_hook_self, rfl, ?_⟩
  simp only [Hook.afterReconcile, hrun, Option.bind_some]
  split_ifs with happ
  · -- the visible mode is pending
    have hn := congrArg operationMode happ
    rw [Relation.setApp_app, operationMode_setOperationMode, h.mode] at hn
    rcases hp with hp | hp <;> rw [hp] at hn <;> cases hn
  · rfl

/-- The leader completes a hook in which it reconciles the mode, with a schema update that
succeeds should it be called. -/
def Reconciles (l : String) (us : List String) (ls : List Event) : Prop :=
  ∃ during, ls = .begin l us :: (during ++ [.finish l false]) ∧
    .reconcile l (.ok ()) ∈ during ∧ ∀ b, .finish l b ∉ during

/-- The leader is running a hook that has read the mode, which every unit it sees has
applied. -/
structure Leading (m : OperationMode) (l : String) (us : List String) (st : State) : Prop where
  steady : Steady m st
  applied : ∀ v ∈ us, Applied m st v
  leader : st.leader = some l
  hook : ∃ k, st.hook l = some k ∧ k.mode = m ∧ k.units = us

lemma leading_step (hp : Pending m) (h : Leading m l us st) (he : ∀ b, e ≠ .finish l b)
    (hst : step st e = some st') : Leading m l us st' ∨ st'.Normal := by
  refine (pending_step hp h.steady hst).imp_left fun h' => ?_
  obtain ⟨k, hk, hm, hus⟩ := h.hook
  obtain ⟨k', hk', hext, -⟩ := step_running hst hk he
  exact ⟨h', fun v hv => applied_step h.steady hst (h.applied v hv), step_leader hst h.leader hk,
    k', hk', hext.mode.trans hm, hext.units.trans hus⟩

/-- A hook of the leader that reconciles the mode ends the operation. -/
lemma reconciles_run (hp : Pending m) (h : Steady m st) (hus : ∀ v ∈ us, Applied m st v)
    (hl : st.leader = some l) (hrec : Reconciles l us ls) (hrun : machine.Run st ls st') :
    machine.Visits State.Normal st ls st' := by
  have hQ : ∀ st e st', Steady m st → step st e = some st' → Steady m st' ∨ st'.Normal :=
    fun _ _ _ => pending_step hp
  suffices hend : machine.Ends State.Normal State.Normal st ls st' from
    hend.elim (fun hn => ⟨ls, [], st', (List.append_nil _).symm, hrun, .nil _, hn⟩) id
  obtain ⟨during, rfl, hrec, hfin⟩ := hrec
  obtain ⟨d₁, d₂, rfl⟩ := List.append_of_mem hrec
  -- the hook of the leader reads the mode
  obtain ⟨s₁, hst₁, hrun⟩ := hrun.exists_of_cons
  obtain ⟨⟨k₁, hk₁, hm₁, hus₁⟩, hl₁⟩ := step_begin hst₁
  refine .cons (P := Leading m l us) hst₁ hrun ?_ fun h₁ => ?_
  · refine (hQ _ _ _ h hst₁).imp_left fun h₁ => ?_
    exact ⟨h₁, fun v hv => applied_step h hst₁ (hus v hv), hl₁.trans hl, k₁, hk₁,
      Except.ok.inj (hm₁.symm.trans h.mode), hus₁⟩
  rw [List.append_assoc, List.cons_append] at hrun ⊢
  obtain ⟨s₂, hrun₂, hrun⟩ := hrun.exists_of_append
  have h₂ : machine.Ends (Leading m l us) State.Normal s₁ d₁ s₂ :=
    hrun₂.ends (C := fun e => ∀ b, e ≠ .finish l b)
      (fun _ _ _ he hs hst => leading_step hp hs he hst)
      (fun e he b heq => hfin b (List.mem_append_left _ (heq ▸ he))) h₁
  refine h₂.append hrun₂ hrun fun h₂ => ?_
  -- it holds the normal mode once it has reconciled
  obtain ⟨s₃, hst₃, hrun⟩ := hrun.exists_of_cons
  obtain ⟨k₂, hk₂, hm₂, hus₂⟩ := h₂.hook
  have hheld := step_reconcile hp h₂.steady hst₃ hk₂ hm₂ h₂.leader (hus₂ ▸ h₂.applied)
  refine .cons (P := fun s => Steady m s ∧
      ∃ k, s.hook l = some k ∧ k.reconciled = true ∧ k.app.isSome = true)
    hst₃ hrun ((hQ _ _ _ h₂.steady hst₃).imp_left fun h₃ => ⟨h₃, hheld⟩) fun ⟨h₃, hheld⟩ => ?_
  obtain ⟨s₄, hrun₄, hrun⟩ := hrun.exists_of_append
  refine (running_run hQ ?_ h₃ hheld hrun₄ fun b hb => hfin b
    (List.mem_append_right _ (List.mem_cons_of_mem _ hb))).append hrun₄ hrun ?_
  · rintro k k' ⟨hrec, happ⟩ hext
    obtain ⟨hrec', happ'⟩ := hext.reconciled hrec
    exact ⟨hrec', happ' ▸ happ⟩
  rintro ⟨h₄, k₄, hk₄, -, happ⟩
  -- and makes it visible
  obtain ⟨s₅, hst₅, hrun⟩ := hrun.exists_of_cons
  refine .cons (P := State.Normal) hst₅ hrun (.inl ?_) fun hn => ?_
  · obtain ⟨a, ha⟩ := Option.isSome_iff_exists.1 happ
    obtain ⟨-, -, happ'⟩ := step_finish hst₅ hk₄
    rw [State.Normal, happ', ha, Option.getD_some]
    exact ((h₄.inv.hook l k₄ hk₄).pending a ha).2.1
  · cases hrun
    exact .inl hn

/-- A pending operation ends in every run in which each of the units that the leader sees
completes a hook and the leader then completes one that reconciles the mode. -/
theorem returns_to_normal (h : machine.Reachable st) (hm : operationMode st.app = .ok m)
    (hp : Pending m) (hrun₁ : machine.Run st ls₁ st₁) (hus : ∀ v ∈ us, Applies v ls₁)
    (hl : st₁.leader = some l) (hrun₂ : machine.Run st₁ ls₂ st₂) (hrec : Reconciles l us ls₂) :
    machine.Visits State.Normal st (ls₁ ++ ls₂) st₂ := by
  have hst : Steady m st := ⟨inv_invariant.reachable h, hm⟩
  rcases round_run (fun _ _ _ => pending_step hp) hst hus hrun₁ with ⟨h₁, hus₁⟩ | hvis
  · exact .append_left hrun₁ (reconciles_run hp h₁ hus₁ hl hrec hrun₂)
  · exact hvis.append_right hrun₂

/-- The leader requests a database update after the first hook of another unit. -/
def openUpdate : List Event :=
  let u₀ := "mediawiki/0"
  let u₁ := "mediawiki/1"
  [.elect u₀, .begin u₁ [u₀], .finish u₁ false, .requestDatabaseUpdate u₀ [u₁]]

/-- A hook that applies the mode. -/
def applyMode (u : String) (us : List String) : List Event :=
  [.begin u us, .render u, .acknowledge u, .finish u false]

/-- A hook of the leader that completes the operation. -/
def reconcileMode (u : String) (us : List String) : List Event :=
  [.begin u us, .render u, .acknowledge u, .reconcile u (.ok ()), .finish u false]

lemma Applies.append (h : Applies v ls) (ls₁ ls₂ : List Event) : Applies v (ls₁ ++ ls ++ ls₂) := by
  obtain ⟨before, us, during, after, rfl, hack, hfin⟩ := h
  exact ⟨ls₁ ++ before, us, during, after ++ ls₂, by simp, hack, hfin⟩

lemma applies_applyMode (u : String) (us : List String) : Applies u (applyMode u us) :=
  ⟨[], us, [.render u, .acknowledge u], [], rfl, by simp, by simp⟩

lemma reconciles_reconcileMode (u : String) (us : List String) :
    Reconciles u us (reconcileMode u us) :=
  ⟨[.render u, .acknowledge u, .reconcile u (.ok ())], rfl, by simp, by simp⟩

theorem returns_to_normal_openUpdate : ∃ st st₁ st₂,
    Machine.exec step {} openUpdate = some st ∧
    Machine.exec step st (applyMode "mediawiki/1" ["mediawiki/0"]) = some st₁ ∧
    Machine.exec step st₁ (reconcileMode "mediawiki/0" ["mediawiki/1"]) = some st₂ ∧
    machine.Visits State.Normal st (applyMode "mediawiki/1" ["mediawiki/0"] ++
      reconcileMode "mediawiki/0" ["mediawiki/1"]) st₂ := by
  have h : (Machine.exec step {} openUpdate).isSome := by decide
  have h₁ : (Machine.exec step ((Machine.exec step {} openUpdate).get h)
    (applyMode "mediawiki/1" ["mediawiki/0"])).isSome := rfl
  have h₂ : (Machine.exec step ((Machine.exec step ((Machine.exec step {} openUpdate).get h)
    (applyMode "mediawiki/1" ["mediawiki/0"])).get h₁)
    (reconcileMode "mediawiki/0" ["mediawiki/1"])).isSome := rfl
  have h := (Option.some_get h).symm
  have h₁ := (Option.some_get h₁).symm
  have h₂ := (Option.some_get h₂).symm
  refine ⟨_, _, _, h, h₁, h₂, ?_⟩
  exact returns_to_normal (m := .databaseUpdate)
    (Machine.reachable_of_exec (fun _ _ _ h => h) (.init rfl) h) rfl (.inl rfl)
    (Machine.run_of_exec (fun _ _ _ h => h) h₁)
    (List.forall_mem_singleton.2 (applies_applyMode _ _)) rfl
    (Machine.run_of_exec (fun _ _ _ h => h) h₂) (reconciles_reconcileMode _ _)

/-! ### The next operation -/

/-- The leader's requests are recorded. -/
structure Accepts (l : String) (us : List String) (st : State) : Prop where
  databaseUpdate : ∃ st', machine.step st (.requestDatabaseUpdate l us) st' ∧
    operationMode st'.app = .ok .databaseUpdate
  forceReconciliation : ∃ st', machine.step st (.requestForceReconciliation l us) st' ∧
    operationMode st'.app = .ok .forceReconciliation
  maintenance : ∀ message, ∃ st',
    machine.step st (.requestMaintenanceMode l us true message (.ok ())) st' ∧
      operationMode st'.app = .ok .maintenance

lemma accepts_of_applied (hn : st.Normal) (hus : ∀ v ∈ l :: us, Applied .normal st v)
    (hr : st.mayRequest l us) : Accepts l us st := by
  have hens : ensureUnitsInNormalOperation l { units := us, app := st.app, data := st.data } =
      .ok () := ensureUnitsInNormalOperation_eq_ok.2 fun v hv => .inr (hus v hv).acked
  have hn : operationMode st.app = .ok .normal := hn
  refine ⟨⟨_, if_pos hr, ?_⟩, ⟨_, if_pos hr, ?_⟩, fun message => ⟨_, if_pos hr, ?_⟩⟩
  · simp [State.request, requestDatabaseUpdate, Prog.bind_run, hn, hens, writeRelation,
      State.setApp]
  · simp [State.request, requestForceReconciliation, Prog.bind_run, hn, hens, writeRelation,
      State.setApp]
  · simp [State.request, requestMaintenanceMode, Prog.bind_run, hn, hens, writeRelation,
      State.setApp, recognisedMode, recordMaintenanceMode, callback]
    exact operationMode_setOperationMode .maintenance st.app

/-- Once every unit has completed a hook in normal operation, the requests of the leader are
recorded. -/
theorem requests_recorded (h : machine.Reachable st) (hn : st.Normal)
    (hrun : machine.Run st ls st') (hus : ∀ v ∈ l :: us, Applies v ls)
    (hr : st'.mayRequest l us) :
    machine.Ends (Accepts l us) (fun s => ¬ s.Normal) st ls st' := by
  have hst : Steady .normal st := ⟨inv_invariant.reachable h, hn⟩
  have hQ : ∀ st e st', Steady .normal st → step st e = some st' →
      Steady .normal st' ∨ ¬ st'.Normal := fun _ _ s' hs hst =>
    (em s'.Normal).imp_left fun hn' => ⟨inv_step hs.inv hst, hn'⟩
  exact (round_run hQ hst hus hrun).mono fun ⟨hs, hall⟩ => accepts_of_applied hs.mode hall hr

/-- A round of two units. -/
def normalRound : List Event :=
  applyMode "mediawiki/0" [] ++ applyMode "mediawiki/1" ["mediawiki/0"]

theorem requests_recorded_normalRound : ∃ st st',
    Machine.exec step {} [.elect "mediawiki/0"] = some st ∧
    Machine.exec step st normalRound = some st' ∧
    machine.Ends (Accepts "mediawiki/0" ["mediawiki/1"]) (fun s => ¬ s.Normal) st normalRound
      st' := by
  have h : (Machine.exec step {} [.elect "mediawiki/0"]).isSome := by decide
  have h' : (Machine.exec step ((Machine.exec step {} [.elect "mediawiki/0"]).get h)
    normalRound).isSome := rfl
  have h := (Option.some_get h).symm
  have h' := (Option.some_get h').symm
  refine ⟨_, _, h, h', ?_⟩
  refine requests_recorded (Machine.reachable_of_exec (fun _ _ _ h => h) (.init rfl) h) rfl
    (Machine.run_of_exec (fun _ _ _ h => h) h') (fun v hv => ?_) rfl
  simp only [List.mem_cons, List.not_mem_nil, or_false] at hv
  rcases hv with rfl | rfl
  · exact (applies_applyMode _ _).append [] _
  · simpa [normalRound] using (applies_applyMode _ _).append (applyMode "mediawiki/0" []) []

end Hooks

end MediawikiCharm
