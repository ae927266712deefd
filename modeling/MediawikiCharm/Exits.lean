/-
The exits of a reconciliation, and what they leave of the plan and of PHP.

A cycle looks at the peers, configures the unit, brings the layer into the plan and
reconciles the services.  Where the state of the peers is missing it goes to the services at
once, without a workload.  The plan changes with `add_layer` only: an exit before it leaves
the plan and PHP as they were, whatever was configured, and a cycle without a workload that
raises after it may leave PHP running.
-/
import MediawikiCharm.Rewriting
import MediawikiCharm.Undisturbed

namespace MediawikiCharm
namespace Exits

open Json Workload Services Settings Peers MediawikiCharm.Core
open MaintenanceExits Rewriting Undisturbed

variable {F : Type}

/-! ### The parts of a cycle -/

section

variable (env : Env) (charm : Charm F)

/-- The part of `reconciliation` before it looks at the relations. -/
def awaitStorage : Prog (PeerWorld Workload) Exc Unit := do
  if !(← callback (askFlag env .canConnect)) then throw (.waiting "Waiting for pebble")
  else if !(← callback (askFlag env .storageIsReady)) then
    throw (.waiting "Waiting for cache storage to be attached")
  else pure ()

/-- The part of `reconciliation` whose errors end in an inactive cycle. -/
def peerState : Prog (PeerWorld Workload) Exc PeerState := do
  if !(← callback (askFlag env .hasRelation)) then
    throw (.blocked "Waiting for relation database.")
  else reconciliationState env charm

/-- The state of the peers is missing, and the services are reconciled without a workload
from `s'` on. -/
def Inactive (s s' : PeerWorld Workload) : Prop :=
  ∃ s₁ e, awaitStorage env s = (.ok (), s₁) ∧ peerState env charm s₁ = (.error e, s') ∧
    e.isStatus = true ∧ ∀ message, e ≠ .unknownOperationMode message

/-- The layer without a tunnel is in the plan, and then an error leaves PHP running: a
`replan` that has not stopped it, a look at the services, or a `stop` that has not stopped
it. -/
def LeavesRunning (w : Workload) : Prop :=
  ∃ w₁, addPebbleLayer env charm.layer.withoutTunnel w = (.ok (), w₁) ∧
    ((∃ f, env.pebble .replan w₁.clock = some f ∧
        Pebble.partialEffect w₁.pebble.replanEffect f.effect phpFpmServiceName ≠ .stopped) ∨
      ∃ w₂, replan env w₁ = (.ok (), w₂) ∧
        ((∃ e w₃, surveyServices env false false w₂ = (.error e, w₃)) ∨
          ∃ survey w₃ f, surveyServices env false false w₂ = (.ok survey, w₃) ∧
            env.pebble .stop w₃.clock = some f ∧ f.effect phpFpmServiceName ≠ .stopped))

variable [FiniteFloat F]

/-- The part of `reconciliation` from the configuration to `add_layer`. -/
def configureAndPlan (peerState : PeerState) (force : Bool) :
    Prog (PeerWorld Workload) Exc Bool := do
  let mode := peerState.operationMode
  tryCatch (reconcileConfiguration env charm peerState force) fun e => do
    (if mode = .maintenance then callback (stopJobWorkers env) else pure () :
      Prog (PeerWorld Workload) Exc Unit)
    throw e
  let runJobWorkers ← (if mode.allowsJobWorkers then callback (runnerQueueServiceIsReady env)
    else pure false : Prog (PeerWorld Workload) Exc Bool)
  callback (addPebbleLayer env charm.layer)
  pure runJobWorkers

/-- The late settings are written, and then an error keeps the layer out of the plan. -/
def Interrupted (force : Bool) (s s' : PeerWorld Workload) : Prop :=
  ∃ peerState s₁ e, readPeerState env charm s = (.ok peerState, s₁) ∧
    configureAndPlan env charm peerState force s₁ = (.error e, s') ∧
    s'.rest.rendered ≠ s.rest.rendered

end

variable {env : Env} {charm : Charm F} {w w' : Workload}

/-! ### The look at the peers -/

/-- The containers differ at most in the clock. -/
def RestTicked (s s' : PeerWorld Workload) : Prop := Ticked s.rest s'.rest

instance : Std.Refl RestTicked := ⟨fun s => Ticked.refl s.rest⟩

instance : IsTrans (PeerWorld Workload) RestTicked := ⟨fun _ _ _ => Ticked.trans⟩

lemma ticked_callback_ask {α : Type} (answer : ℕ → Except Exc α) :
    Prog.Within RestTicked (callback (ask answer)) := fun _ => ⟨_, rfl⟩

lemma ticked_awaitStorage : Prog.Within RestTicked (awaitStorage env) :=
  .bind (ticked_callback_ask _) fun _ => .ite (.throw _)
    (.bind (ticked_callback_ask _) fun _ => .ite (.throw _) (.pure _))

lemma ticked_peerState : Prog.Within RestTicked (peerState env charm) := by
  have hrelation : Prog.Within RestTicked (relation (D := Workload)) := by
    refine .bind .get fun s => ?_
    split
    · exact .pure _
    · exact .throw _
  exact .bind (ticked_callback_ask _) fun _ => .ite (.throw _) (.bind hrelation fun _ =>
    .bind (ticked_callback_ask _) fun _ => .bind (.ofExcept _) fun _ => .pure _)

/-- What `reconciliation` does with an error of the peers. -/
def withoutPeers (env : Env) (charm : Charm F) (e : Exc) :
    Prog (PeerWorld Workload) Exc PeerState :=
  match e with
  | .unknownOperationMode message => throw (.unknownOperationMode message)
  | e => if e.isStatus then do
      callback (reconcileServices env charm.layer false false)
      throw e
    else throw e

lemma readPeerState_eq : readPeerState env charm =
    (awaitStorage env >>= fun _ => tryCatch (peerState env charm) (withoutPeers env charm)) := by
  funext s
  rw [readPeerState, awaitStorage, Prog.bind_run, Prog.bind_run, Prog.bind_run]
  rcases callback (askFlag env .canConnect) s with ⟨e | connected, s₁⟩
  · rfl
  · cases connected with
    | false => rfl
    | true =>
      show (callback (askFlag env .storageIsReady) >>= _ :
        Prog (PeerWorld Workload) Exc PeerState) s₁ = _
      simp only [Bool.not_true, Bool.false_eq_true, if_false]
      rw [Prog.bind_run, Prog.bind_run]
      rcases callback (askFlag env .storageIsReady) s₁ with ⟨e | ready, s₂⟩
      · rfl
      · cases ready with
        | false => rfl
        | true => rfl

/-- Before the configuration nothing happens but an inactive cycle. -/
lemma readPeerState_cases (s : PeerWorld Workload) :
    (readPeerState env charm).wp (fun _ s' => Ticked s.rest s'.rest)
      (fun _ s' => Ticked s.rest s'.rest ∨ ∃ s₁, Inactive env charm s s₁ ∧ Ticked s.rest s₁.rest ∧
        s'.rest = (reconcileServices env charm.layer false false s₁.rest).2) s := by
  rw [readPeerState_eq]
  refine Prog.wp_bind.2 (Prog.wp_iff.2 ⟨fun _ s₁ hawait => ?_, fun e s' hawait => .inl ?_⟩)
  · have h₁ := Prog.wp_of_ok (ticked_awaitStorage.wp s) hawait
    refine Prog.wp_tryCatch.2 (Prog.wp_iff.2 ⟨fun _ s' hread => ?_, fun e s₂ hread => ?_⟩)
    · have h₂ := Prog.wp_of_ok (ticked_peerState.wp s₁) hread
      exact Ticked.trans h₁ h₂
    · have h₂ := Prog.wp_of_error (ticked_peerState.wp s₁) hread
      have ht : Ticked s.rest s₂.rest := Ticked.trans h₁ h₂
      unfold withoutPeers
      split
      · exact .inl ht
      · next hknown =>
        -- only a status error leads to the services
        refine Prog.wp_ite.2 ⟨fun hstatus => ?_, fun _ => .inl ht⟩
        have hinactive : Inactive env charm s s₂ := ⟨s₁, e, hawait, hread, hstatus, hknown⟩
        refine Prog.wp_bind.2 (wp_callback.2 (Prog.wp_iff.2 ⟨fun _ w' hrun => ?_,
          fun _ w' hrun => ?_⟩))
        · exact .inr ⟨s₂, hinactive, ht, (congrArg Prod.snd hrun).symm⟩
        · exact .inr ⟨s₂, hinactive, ht, (congrArg Prod.snd hrun).symm⟩
  · have h₁ := Prog.wp_of_error (ticked_awaitStorage.wp s) hawait
    exact h₁

/-- The error of the peers is raised once the services were reconciled. -/
lemma readPeerState_inactive {s s' : PeerWorld Workload} (h : Inactive env charm s s') :
    Ticked s.rest s'.rest ∧ ∃ e s'', readPeerState env charm s = (.error e, s'') ∧
      s''.rest = (reconcileServices env charm.layer false false s'.rest).2 := by
  obtain ⟨s₁, e, hawait, hread, hstatus, hknown⟩ := h
  have h₁ := Prog.wp_of_ok (ticked_awaitStorage.wp s) hawait
  have h₂ := Prog.wp_of_error (ticked_peerState.wp s₁) hread
  refine ⟨Ticked.trans h₁ h₂, ?_⟩
  have hhandler : withoutPeers env charm e = (do
      callback (reconcileServices env charm.layer false false)
      throw e : Prog (PeerWorld Workload) Exc PeerState) := by
    unfold withoutPeers
    split
    · next message => exact absurd rfl (hknown message)
    · rw [if_pos hstatus]
  rw [readPeerState_eq, Prog.bind_run_ok hawait, Prog.tryCatch_run, hread]
  show ∃ e' s'', withoutPeers env charm e s' = (.error e', s'') ∧ _
  rw [hhandler]
  -- the services may raise in turn, which hides the error of the peers
  rcases hrun : reconcileServices env charm.layer false false s'.rest with ⟨e' | _, w'⟩
  · have hcallback : callback (reconcileServices env charm.layer false false) s' =
        (.error e', { s' with rest := w' }) := by
      show ((reconcileServices env charm.layer false false s'.rest).1, _) = _
      rw [hrun]
    exact ⟨e', _, Prog.bind_run_error hcallback, rfl⟩
  · have hcallback : callback (reconcileServices env charm.layer false false) s' =
        (.ok (), { s' with rest := w' }) := by
      show ((reconcileServices env charm.layer false false s'.rest).1, _) = _
      rw [hrun]
    exact ⟨e, _, Prog.bind_run_ok hcallback, rfl⟩

/-! ### An inactive cycle -/

lemma planServices_inactive (inputs : LayerInputs) : planServices env inputs false =
    (addPebbleLayer env inputs.withoutTunnel >>= fun _ => replan env) :=
  planServices_eq inputs.withoutTunnel

/-- Before the layer is added, and where that raises, the services are left alone. -/
lemma addPebbleLayer_error (inputs : LayerInputs) :
    (addPebbleLayer env inputs).wp
      (fun _ w' => w'.pebble.plan = (w.pebble.addLayer inputs.pebbleLayer).plan)
      (fun _ w' => serviceState w' = serviceState w) w := by
  have hticked : ∀ {w' : Workload}, Ticked w w' → serviceState w' = serviceState w := by
    rintro w' ⟨n, rfl⟩
    rfl
  refine Prog.wp_bind.2 (wp_askFlag (fun b w₁ ht₁ => ?_) fun _ _ ht => hticked ht)
  refine Prog.wp_ite.2 ⟨fun _ => hticked ht₁, fun _ => ?_⟩
  refine Prog.wp_bind.2 (wp_doStep (fun w₂ ht₂ => ?_) fun _ _ ht _ => hticked (ht₁.trans ht))
  obtain ⟨n₂, rfl⟩ := ht₁.trans ht₂
  refine wp_pebbleCall (fun w₃ ht₃ => ?_) fun _ w' effect _ ht => ?_
  · obtain ⟨n₃, rfl⟩ := ht₃
    rfl
  · -- a call that raises has no effect on the services
    obtain ⟨n, rfl⟩ := ht
    have hrunning : (w.pebble.touch (Pebble.partialEffect (fun _ => .untouched) effect)).running =
        w.pebble.running := by
      funext service
      have hnone : Pebble.partialEffect (fun _ => .untouched) effect service = .untouched :=
        Pebble.partialEffect_of_untouched rfl
      simp only [Pebble.touch, hnone]
    exact congrArg (Prod.mk w.pebble.plan) hrunning

lemma stop_run (services : List String) : stop env services w =
    match env.pebble .stop w.clock with
    | some f => (.error f.error, { w with
        clock := w.clock + 1
        pebble := (w.pebble.issue (.stop services)).touch
          (Pebble.partialEffect (Pebble.stopEffect services) f.effect) })
    | none => (.ok (), { w with
        clock := w.clock + 1
        pebble := (w.pebble.issue (.stop services)).touch (Pebble.stopEffect services) }) := rfl

/-- A `stop` that raises leaves a service running only if it has not stopped it. -/
lemma stop_error {services : List String} {e : Exc} {service : String} (hs : service ∈ services)
    (h : stop env services w = (.error e, w')) (hrun : w'.pebble.isRunning service = true) :
    ∃ f, env.pebble .stop w.clock = some f ∧ f.effect service ≠ .stopped := by
  rw [stop_run] at h
  cases hf : env.pebble .stop w.clock with
  | none =>
    rw [hf] at h
    cases h
  | some f =>
    rw [hf] at h
    obtain rfl := congrArg Prod.snd h
    refine ⟨f, rfl, fun hstopped => ?_⟩
    have heffect :
        Pebble.partialEffect (Pebble.stopEffect services) f.effect service = .stopped := by
      simp [Pebble.partialEffect, Pebble.stopEffect, hs, hstopped]
    have hidle := @Pebble.isRunning_touch_of_stopped (w.pebble.issue (.stop services)) service _
      heffect
    exact absurd (hidle.symm.trans hrun) (by decide)

/-- After the survey of an inactive cycle PHP is stopped, unless `stop` raises without having
stopped it. -/
lemma applyServices_inactive :
    (applyServices env false false (surveyOf false false w)).wp
      (fun _ w' => w'.pebble.isRunning phpFpmServiceName = false)
      (fun _ w' => w'.pebble.isRunning phpFpmServiceName = true →
        w.pebble.isRunning phpFpmServiceName = true ∧
          ∃ f, env.pebble .stop w.clock = some f ∧ f.effect phpFpmServiceName ≠ .stopped) w := by
  have hphp : phpFpmServiceName ∈ allConditionalServices := by decide
  have hnot : phpFpmServiceName ∉ servicesToRun false false := by decide
  -- the first step stops what runs and is not to run
  have hstop : (if (surveyOf false false w).runningToStop ≠ [] then
      stop env (surveyOf false false w).runningToStop else pure () : Prog Workload Exc Unit).wp
      (fun _ w' => w'.pebble.isRunning phpFpmServiceName = false)
      (fun _ w' => w'.pebble.isRunning phpFpmServiceName = true →
        w.pebble.isRunning phpFpmServiceName = true ∧
          ∃ f, env.pebble .stop w.clock = some f ∧ f.effect phpFpmServiceName ≠ .stopped) w := by
    have hspec := @stop_spec env w (surveyOf false false w).runningToStop
    refine Prog.wp_iff.2 ⟨fun _ w' hrun => ?_, fun e w' hrun hphp' => ?_⟩
    · have hbecomes := Prog.wp_of_ok hspec hrun
      exact stopped_of_stop hbecomes hphp hnot
    · obtain ⟨-, hworse⟩ := Prog.wp_of_error hspec hrun
      by_cases hmem : phpFpmServiceName ∈ (surveyOf false false w).runningToStop
      · have hne : (surveyOf false false w).runningToStop ≠ [] := List.ne_nil_of_mem hmem
        rw [if_pos hne] at hrun
        exact ⟨(mem_runningToStop.1 hmem).2.2, stop_error hmem hrun hphp'⟩
      · -- what is not to be stopped did not run
        have hidle : w.pebble.isRunning phpFpmServiceName = false := by
          by_contra h
          exact hmem (mem_runningToStop.2 ⟨hphp, hnot, by simpa using h⟩)
        rw [hworse.stopped _ hmem hidle] at hphp'
        cases hphp'
  exact Prog.wp_bind.2 (Prog.wp_mono hstop (fun _ _ h => h) fun _ _ h => h)

/-- The services are as they were, or PHP runs only if it did before and is left running. -/
def StoppedUnless (env : Env) (charm : Charm F) (w w' : Workload) : Prop :=
  serviceState w' = serviceState w ∨ (w'.pebble.isRunning phpFpmServiceName = true →
    w.pebble.isRunning phpFpmServiceName = true ∧ LeavesRunning env charm w)

/-- An inactive cycle stops PHP unless it raises at one of the places in `LeavesRunning`. -/
lemma reconcileServices_inactive (w : Workload) :
    StoppedUnless env charm w (reconcileServices env charm.layer false false w).2 := by
  have hphp : phpFpmServiceName ∈ allConditionalServices := by decide
  suffices hwp : (reconcileServices env charm.layer false false).wp
      (fun _ w' => StoppedUnless env charm w w') (fun _ w' => StoppedUnless env charm w w') w from
    Prog.wp_state hwp (fun _ _ h => h) fun _ _ h => h
  -- one case for each place in `LeavesRunning`
  rw [reconcileServices, planServices_inactive]
  refine Prog.wp_bind.2 (Prog.wp_bind.2 (Prog.wp_iff.2 ⟨fun _ w₁ hadd => ?_,
    fun e w₁ hadd => .inl ?_⟩))
  · obtain ⟨hplan₁, hrun₁⟩ := Prog.wp_of_ok (addPebbleLayer_spec charm.layer.withoutTunnel) hadd
    refine Prog.wp_iff.2 ⟨fun _ w₂ hreplan => ?_, fun e w₂ hreplan => .inr fun hrun => ?_⟩
    · have hreplanned := Prog.wp_of_ok (replan_spec hplan₁) hreplan
      have hplan₂ := hreplanned.planned
      have hkept : w₂.pebble.isRunning phpFpmServiceName = w.pebble.isRunning phpFpmServiceName :=
        (hreplanned.running _ hphp).trans (hrun₁ _)
      refine Prog.wp_bind.2 (Prog.wp_iff.2 ⟨fun survey w₃ hsurvey => ?_, fun e w₃ hsurvey =>
        .inr fun hrun => ?_⟩)
      · obtain ⟨⟨n, checks, rfl⟩, rfl⟩ :=
          Prog.wp_of_ok (surveyServices_spec false false hplan₂) hsurvey
        let w₃ : Workload := { w₂ with clock := n, pebble := { w₂.pebble with checks := checks } }
        have happly := @applyServices_inactive env w₃
        refine Prog.wp_mono happly (fun _ w' h => .inr fun hrun => ?_)
          fun _ w' h => .inr fun hrun => ?_
        · rw [h] at hrun
          cases hrun
        · obtain ⟨hbefore, f, hf, heffect⟩ := h hrun
          exact ⟨hkept.symm.trans hbefore, w₁, hadd,
            .inr ⟨w₂, hreplan, .inr ⟨_, w₃, f, hsurvey, hf, heffect⟩⟩⟩
      · obtain ⟨n, checks, rfl⟩ := Prog.wp_of_error (surveyServices_spec false false hplan₂) hsurvey
        exact ⟨hkept.symm.trans hrun, w₁, hadd, .inr ⟨w₂, hreplan, .inl ⟨e, _, hsurvey⟩⟩⟩
    · obtain ⟨f, hf, heffect⟩ := replan_error hplan₁ hreplan
      obtain ⟨hbefore, hnot⟩ := (heffect _ hphp).1 hrun
      exact ⟨(hrun₁ _).symm.trans hbefore, w₁, hadd, .inl ⟨f, hf, hnot⟩⟩
  · have hsame := Prog.wp_of_error (addPebbleLayer_error charm.layer.withoutTunnel) hadd
    exact hsame

/-- A `stop` that raises has the effect the surroundings give it on each of the services. -/
lemma stop_raises {services : List String} {service : String} {f : PebbleFailure}
    (hs : service ∈ services) (hf : env.pebble .stop w.clock = some f)
    (heffect : f.effect service ≠ .stopped) (hrun : w.pebble.isRunning service = true) :
    ∃ w', stop env services w = (.error f.error, w') ∧ w'.pebble.isRunning service = true ∧
      w'.pebble.plan = w.pebble.plan := by
  have hstop := @stop_run env w services
  rw [hf] at hstop
  refine ⟨_, hstop, ?_, rfl⟩
  have hintended : Pebble.partialEffect (Pebble.stopEffect services) f.effect service =
      f.effect service := by
    simp [Pebble.partialEffect, Pebble.stopEffect, hs]
  show ((w.pebble.issue (.stop services)).touch
    (Pebble.partialEffect (Pebble.stopEffect services) f.effect)).isRunning service = true
  cases he : f.effect service with
  | untouched =>
    rw [Pebble.isRunning_touch_of_untouched (hintended.trans he)]
    exact hrun
  | stopped => exact absurd he heffect
  | started =>
    rw [Pebble.isRunning_touch_of_started (hintended.trans he)]
    exact w.pebble.planned service hrun

/-- Where an inactive cycle leaves PHP running its layer is in the plan. -/
lemma leavesRunning_spec (hrun : w.pebble.isRunning phpFpmServiceName = true)
    (h : LeavesRunning env charm w) :
    (reconcileServices env charm.layer false false w).2.pebble.isRunning phpFpmServiceName = true ∧
      ∀ service config,
        charm.layer.withoutTunnel.pebbleLayer.services.lookup service = some config →
        (reconcileServices env charm.layer false false w).2.pebble.plan service = some config := by
  have hphp : phpFpmServiceName ∈ allConditionalServices := by decide
  have hnot : phpFpmServiceName ∉ servicesToRun false false := by decide
  obtain ⟨w₁, hadd, hraises⟩ := h
  obtain ⟨hplan₁, hkept₁⟩ := Prog.wp_of_ok (addPebbleLayer_spec charm.layer.withoutTunnel) hadd
  have hlayer₁ := Prog.wp_of_ok (addPebbleLayer_error charm.layer.withoutTunnel) hadd
  have hrun₁ : w₁.pebble.isRunning phpFpmServiceName = true := (hkept₁ _).trans hrun
  have hreplanKept : KeepsPlan (replan env) := keepsPlan_issued _ fun _ => rfl
  -- the plan is the one with the layer at every exit from here on
  suffices hfinal : ∃ w', (reconcileServices env charm.layer false false w).2 = w' ∧
      w'.pebble.isRunning phpFpmServiceName = true ∧ w'.pebble.plan = w₁.pebble.plan by
    obtain ⟨w', hw', hrunning, hplan⟩ := hfinal
    rw [hw']
    refine ⟨hrunning, fun service config hlookup => ?_⟩
    rw [hplan, hlayer₁]
    exact Pebble.addLayer_plan hlookup
  rw [reconcileServices, planServices_inactive]
  rcases hraises with ⟨f, hf, heffect⟩ | ⟨w₂, hreplan, hrest⟩
  · rcases hreplan : replan env w₁ with ⟨e | _, w₂⟩
    · obtain ⟨f', hf', hiff⟩ := replan_error hplan₁ hreplan
      obtain rfl : f = f' := Option.some.inj (hf.symm.trans hf')
      have hplan₂ := Prog.wp_of_error (hreplanKept.wp w₁) hreplan
      refine ⟨w₂, ?_, (hiff _ hphp).2 ⟨hrun₁, heffect⟩, hplan₂⟩
      rw [Prog.bind_run_error ((Prog.bind_run_ok hadd).trans hreplan)]
    · rw [replan_ok hreplan] at hf
      cases hf
  · have hreplanned := Prog.wp_of_ok (replan_spec hplan₁) hreplan
    have hplan₂ := Prog.wp_of_ok (hreplanKept.wp w₁) hreplan
    have hrun₂ : w₂.pebble.isRunning phpFpmServiceName = true :=
      (hreplanned.running _ hphp).trans hrun₁
    rw [Prog.bind_run_ok ((Prog.bind_run_ok hadd).trans hreplan)]
    rcases hrest with ⟨e, w₃, hsurvey⟩ | ⟨survey, w₃, f, hsurvey, hf, heffect⟩
    · obtain ⟨n, checks, hw₃⟩ :=
        Prog.wp_of_error (surveyServices_spec false false hreplanned.planned) hsurvey
      refine ⟨w₃, ?_, ?_, ?_⟩
      · rw [Prog.bind_run_error hsurvey]
      · rw [hw₃]
        exact hrun₂
      · rw [hw₃]
        exact hplan₂
    · obtain ⟨⟨n, checks, hw₃⟩, hsurveyed⟩ :=
        Prog.wp_of_ok (surveyServices_spec false false hreplanned.planned) hsurvey
      have hrun₃ : w₃.pebble.isRunning phpFpmServiceName = true := by
        rw [hw₃]
        exact hrun₂
      have hmem : phpFpmServiceName ∈ survey.runningToStop := by
        rw [hsurveyed]
        exact mem_runningToStop.2 ⟨hphp, hnot, hrun₂⟩
      obtain ⟨w', hstop, hrun', hplan'⟩ := stop_raises hmem hf heffect hrun₃
      have hstops : (if survey.runningToStop ≠ [] then stop env survey.runningToStop else pure () :
          Prog Workload Exc Unit) w₃ = (.error f.error, w') := by
        rw [if_pos (List.ne_nil_of_mem hmem)]
        exact hstop
      refine ⟨w', ?_, hrun', ?_⟩
      · rw [Prog.bind_run_ok hsurvey, applyServices, Prog.bind_run_error hstops]
      · rw [hplan', hw₃]
        exact hplan₂

/-! ### Up to the layer -/

/-- The plan, and whether PHP runs. -/
def phpState (w : Workload) : (String → Option ServiceConfig) × Bool :=
  (w.pebble.plan, w.pebble.isRunning phpFpmServiceName)

lemma phpState_of_leaves (h : serviceState w' = serviceState w) : phpState w' = phpState w :=
  congrArg (fun p => (p.1, (p.2 phpFpmServiceName).isSome)) h

/-- To stop another service leaves PHP as it is, also when it raises. -/
lemma phpState_stop {service : String} (hs : service ≠ phpFpmServiceName) :
    Prog.Frame phpState (stop env [service]) := by
  have hphp : phpFpmServiceName ∉ [service] := by simpa using hs.symm
  have hstop : Pebble.stopEffect [service] phpFpmServiceName = .untouched := by
    simp [Pebble.stopEffect, hs.symm]
  intro w
  have hwp : (stop env [service]).wp (fun _ w' => phpState w' = phpState w)
      (fun _ w' => phpState w' = phpState w) w := by
    refine Prog.wp_bind.2 (Prog.wp_modify.2 (wp_pebbleCall (fun w' ht => ?_)
      fun e w' effect _ ht => ?_))
    · obtain ⟨n, rfl⟩ := ht
      exact congrArg (Prod.mk w.pebble.plan) (Pebble.isRunning_touch_of_untouched hstop)
    · obtain ⟨n, rfl⟩ := ht
      have heffect := @Pebble.partialEffect_of_untouched phpFpmServiceName _ effect hstop
      exact congrArg (Prod.mk w.pebble.plan) (Pebble.isRunning_touch_of_untouched heffect)
  exact Prog.wp_state hwp (fun _ _ h => h) fun _ _ h => h

lemma phpState_stopJobWorkers : Prog.Frame phpState (stopJobWorkers env) := by
  have hquery : ∀ call, Prog.Frame phpState (pebbleQuery env call) := fun _ _ => rfl
  have hjob : ∀ service, service ≠ phpFpmServiceName →
      Prog.Frame phpState (stopJobWorker env service) := fun service hs => .bind .get fun w =>
    .ite (.bind (hquery _) fun _ => .ite (phpState_stop hs) (.pure _)) (.pure _)
  rw [stopJobWorkers_eq]
  exact .bind (hquery _) fun _ => .bind (hjob _ (by decide)) fun _ =>
    .bind (hjob _ (by decide)) fun _ => .pure _

/-- The plan and PHP are as they were, and the late settings unless they were rendered anew. -/
structure Steady (env : Env) (s s' : PeerWorld Workload) : Prop where
  php : phpState s'.rest = phpState s.rest
  latest : OnRest (Latest env) s s'

instance : Std.Refl (Steady env) := ⟨fun s => ⟨rfl, refl_of (OnRest (Latest env)) s⟩⟩

instance : IsTrans (PeerWorld Workload) (Steady env) :=
  ⟨fun _ _ _ h h' => ⟨h'.php.trans h.php, trans_of (OnRest (Latest env)) h.latest h'.latest⟩⟩

lemma steady_stopJobWorkers : Prog.Within (Steady env) (callback (stopJobWorkers env)) := by
  have hwithin : Prog.Within (Changes []) (stopJobWorkers env) := within_stopJobWorkers
  intro s
  exact ⟨phpState_stopJobWorkers s.rest,
    latest_of_changes (fun _ _ => List.not_mem_nil) (hwithin s.rest)⟩

lemma steady_runnerQueueServiceIsReady :
    Prog.Within (Steady env) (callback (runnerQueueServiceIsReady env)) := by
  have hwithin : Prog.Within (Changes []) (runnerQueueServiceIsReady env) :=
    .bind (within_askFlag _) fun _ => .ite (.pure _) (within_pathExists _)
  have hleaves : Leaves (runnerQueueServiceIsReady env) :=
    .bind (leaves_askFlag _) fun _ => .ite (.pure _) (leaves_pathExists _)
  intro s
  exact ⟨phpState_of_leaves (hleaves s.rest),
    latest_of_changes (fun _ _ => List.not_mem_nil) (hwithin s.rest)⟩

/-- The layer comes into the plan, or all is as it was. -/
lemma addPebbleLayer_planned (inputs : LayerInputs) (s : PeerWorld Workload) :
    (callback (addPebbleLayer env inputs)).wp
      (fun _ s' => (∀ service config, inputs.pebbleLayer.services.lookup service = some config →
        s'.rest.pebble.plan service = some config) ∧ OnRest (Latest env) s s')
      (fun _ s' => Steady env s s') s := by
  have hwithin : Prog.Within (Changes []) (addPebbleLayer env inputs) :=
    .bind (within_askFlag _) fun _ => .ite (.throw _) (.bind (within_doStep _) fun _ =>
      within_pebbleCall _ _ _)
  have hlatest : Prog.Within (Latest env) (addPebbleLayer env inputs) :=
    latest_within hwithin fun _ _ => List.not_mem_nil
  refine wp_callback.2 (Prog.wp_iff.2 ⟨fun _ w' hrun => ?_, fun e w' hrun => ?_⟩)
  · have hplan := Prog.wp_of_ok (addPebbleLayer_error inputs) hrun
    have h := Prog.wp_of_ok (hlatest.wp s.rest) hrun
    refine ⟨fun service config hlookup => ?_, h⟩
    show w'.pebble.plan service = some config
    rw [hplan]
    exact Pebble.addLayer_plan hlookup
  · have hservices := Prog.wp_of_error (addPebbleLayer_error inputs) hrun
    have h := Prog.wp_of_error (hlatest.wp s.rest) hrun
    exact ⟨phpState_of_leaves hservices, h⟩

variable [FiniteFloat F]

/-- A configuration leaves the plan and PHP as they were. -/
lemma steady_reconcileConfiguration (peerState : PeerState) (force : Bool) :
    Prog.Within (Steady env) (reconcileConfiguration env charm peerState force) := fun s =>
  ⟨phpState_of_leaves (leaves_reconcileConfiguration peerState force s),
    (reconcileConfiguration_rewritten peerState force).within (absorbs.comap _) s⟩

/-- Up to `add_layer` an error leaves the plan and PHP as they were; a return has rendered the
late settings and brought the layer into the plan. -/
lemma configureAndPlan_spec (peerState : PeerState) (force : Bool) (s : PeerWorld Workload) :
    (configureAndPlan env charm peerState force).wp
      (fun _ s' => (∀ service config,
        charm.layer.pebbleLayer.services.lookup service = some config →
        s'.rest.pebble.plan service = some config) ∧ OnRest (Rewritten env) s s')
      (fun _ s' => Steady env s s') s := by
  refine Prog.wp_bind.2 (Prog.wp_tryCatch.2 (Prog.wp_iff.2 ⟨fun _ s₁ hrun => ?_,
    fun e s₁ hrun => ?_⟩))
  · have h₁ := Prog.wp_of_ok (reconcileConfiguration_rewritten peerState force s) hrun
    have hsteady₁ := Prog.wp_of_ok ((steady_reconcileConfiguration peerState force).wp s) hrun
    have hready : Prog.Within (Steady env) (if peerState.operationMode.allowsJobWorkers then
        callback (runnerQueueServiceIsReady env) else pure false :
        Prog (PeerWorld Workload) Exc Bool) := .ite steady_runnerQueueServiceIsReady (.pure _)
    refine Prog.wp_bind.2 (Prog.wp_mono (hready.wp s₁) ?_ fun _ _ h =>
      trans_of (Steady env) hsteady₁ h)
    intro runJobWorkers s₂ hsteady₂
    refine Prog.wp_bind.2 (Prog.wp_mono (addPebbleLayer_planned charm.layer s₂) ?_ fun _ _ h =>
      trans_of (Steady env) hsteady₁ (trans_of (Steady env) hsteady₂ h))
    rintro _ s₃ ⟨hplan, hlatest⟩
    have hlatest₃ : OnRest (Latest env) s₁ s₃ :=
      trans_of (OnRest (Latest env)) hsteady₂.latest hlatest
    exact Prog.wp_pure.2 ⟨hplan, Rewritten.trans h₁ hlatest₃⟩
  · -- the handler stops at most the job workers
    have hsteady₁ := Prog.wp_of_error ((steady_reconcileConfiguration peerState force).wp s) hrun
    have hhandler : Prog.Within (Steady env) (if peerState.operationMode = .maintenance then
        callback (stopJobWorkers env) else pure () : Prog (PeerWorld Workload) Exc Unit) :=
      .ite steady_stopJobWorkers (.pure _)
    refine Prog.wp_bind.2 (Prog.wp_mono (hhandler.wp s₁) ?_ fun _ _ h =>
      trans_of (Steady env) hsteady₁ h)
    exact fun _ s₂ h => trans_of (Steady env) hsteady₁ h

lemma callback_bind {α β : Type} (x : Prog Workload Exc α) (y : α → Prog Workload Exc β) :
    callback (x >>= y) = (callback x >>= fun a => callback (y a)) := by
  funext s
  rw [Prog.bind_run]
  have hrun : ∀ {γ : Type} (z : Prog Workload Exc γ),
      callback z s = ((z s.rest).1, { s with rest := (z s.rest).2 }) := fun _ => rfl
  rw [hrun, hrun, Prog.bind_run]
  rcases x s.rest with ⟨e | a, w⟩
  · rfl
  · rfl

/-- The part of `reconciliation` after `add_layer`. -/
def afterLayer (env : Env) (charm : Charm F) (mode : OperationMode) (runJobWorkers : Bool) :
    Prog (PeerWorld Workload) Exc OperationMode := do
  callback (do
    replan env
    let survey ← surveyServices env true runJobWorkers
    applyServices env true runJobWorkers survey)
  acknowledgeOperationMode charm.unit mode
  callback (Prog.modify fun w => { w with acknowledged := mode :: w.acknowledged })
  reconcileOperationMode charm.isLeader mode (doStep env .updateDatabaseSchema)
  callback (doStep env .updateClientConfig)
  pure mode

lemma reconcileServices_addLayer (inputs : LayerInputs) (workers : Bool) :
    reconcileServices env inputs true workers = (addPebbleLayer env inputs >>= fun _ => do
      replan env
      let survey ← surveyServices env true workers
      applyServices env true workers survey) := by
  rw [reconcileServices, planServices_eq, Prog.bind_assoc]

lemma applyPeerState_eq (peerState : PeerState) (force : Bool) :
    applyPeerState env charm peerState force = (configureAndPlan env charm peerState force >>=
      afterLayer env charm peerState.operationMode) := by
  rw [configureAndPlan, Prog.bind_assoc, applyPeerState]
  refine congrArg _ (funext fun _ => ?_)
  rw [Prog.bind_assoc]
  refine congrArg _ (funext fun runJobWorkers => ?_)
  rw [Prog.bind_assoc, reconcileServices_addLayer, callback_bind, Prog.bind_assoc]
  rfl

/-! ### After the layer -/

/-- The plan is the same, and the late settings unless they were rendered anew. -/
structure Kept (env : Env) (s s' : PeerWorld Workload) : Prop where
  plan : s'.rest.pebble.plan = s.rest.pebble.plan
  latest : OnRest (Latest env) s s'

instance : Std.Refl (Kept env) := ⟨fun s => ⟨rfl, refl_of (OnRest (Latest env)) s⟩⟩

instance : IsTrans (PeerWorld Workload) (Kept env) :=
  ⟨fun _ _ _ h h' => ⟨h'.plan.trans h.plan, trans_of (OnRest (Latest env)) h.latest h'.latest⟩⟩

lemma kept_callback {α : Type} {parts : List Part} {x : Prog Workload Exc α} (hplan : KeepsPlan x)
    (h : Prog.Within (Changes parts) x) (hp : ∀ p ∈ lateParts, p ∉ parts) :
    Prog.Within (Kept env) (callback x) := fun s =>
  ⟨hplan s.rest, latest_of_changes hp (h s.rest)⟩

lemma kept_callback_ask {α : Type} (answer : ℕ → Except Exc α) :
    Prog.Within (Kept env) (callback (ask answer)) := fun _ => ⟨rfl, latest_of_ticked ⟨_, rfl⟩⟩

lemma kept_relation : Prog.Within (Kept env) (relation (D := Workload)) := by
  refine .bind .get fun s => ?_
  split
  · exact .pure _
  · exact .throw _

lemma kept_writeRelation (r : Relation) :
    Prog.Within (Kept env) (writeRelation (D := Workload) r) :=
  .modify fun s => ⟨rfl, refl_of (Latest env) s.rest⟩

omit [FiniteFloat F] in
/-- Nothing after `add_layer` changes the plan. -/
lemma kept_afterLayer (mode : OperationMode) (workers : Bool) :
    Prog.Within (Kept env) (afterLayer env charm mode workers) := by
  have hreplan : KeepsPlan (replan env) := keepsPlan_issued _ fun _ => rfl
  have hservices : KeepsPlan (do
      replan env
      let survey ← surveyServices env true workers
      applyServices env true workers survey : Prog Workload Exc Unit) :=
    .bind hreplan fun _ => .bind (keepsPlan_of_leaves (leaves_surveyServices _ _)) fun _ =>
      keepsPlan_applyServices _ _ _
  have hwithin : Prog.Within (Changes [.file .restartRequired]) (do
      replan env
      let survey ← surveyServices env true workers
      applyServices env true workers survey : Prog Workload Exc Unit) :=
    .bind (.bind (.modify fun w => changes_setPebble _ w) fun _ => within_pebbleCall _ _ _) fun _ =>
      .bind (within_surveyServices _ _) fun _ => within_applyServices (by decide) _ _ _
  have hnote : Prog.Within (Kept env) (callback (Prog.modify fun w : Workload =>
      { w with acknowledged := mode :: w.acknowledged } : Prog Workload Exc Unit)) := fun s =>
    ⟨rfl, latest_of_eq rfl rfl⟩
  -- the mode is written to the databag only
  have hmode : Prog.Within (Kept env)
      (reconcileOperationMode charm.isLeader mode (doStep env .updateDatabaseSchema)) := by
    refine .ite (.pure _) (.bind kept_relation fun r => .bind (.ofExcept _) fun _ => ?_)
    split
    · exact .bind (kept_callback_ask _) fun _ => kept_writeRelation _
    · exact kept_writeRelation _
  exact .bind (kept_callback hservices hwithin (by decide)) fun _ =>
    .bind (.bind kept_relation fun _ => kept_writeRelation _) fun _ => .bind hnote fun _ =>
    .bind hmode fun _ => .bind (kept_callback_ask _) fun _ => .pure _

end Exits
end MediawikiCharm
