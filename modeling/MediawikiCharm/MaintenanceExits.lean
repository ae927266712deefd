/-
The job workers in maintenance mode, on every exit of a reconciliation.

An exception of the configuration is followed by `_stop_job_workers`, and once
`_reconcile_services` has come to its first `stop` the job workers are stopped however it
ends.  What comes before that `stop`, and the look-ups of `_stop_job_workers` itself, may
raise while a job worker runs; these are the only exits on which one is left running.
The acknowledgement is written only after the late settings were rendered for the mode.
-/
import MediawikiCharm.Cycles
import MediawikiCharm.Services.Convergence

namespace MediawikiCharm
namespace MaintenanceExits

open Json Workload Services Settings Composer Peers MediawikiCharm.Core

variable {F : Type} {env : Env} {charm : Charm F} {w w' : Workload}

/-! ### What is promised -/

/-- No job service runs. -/
def JobsStopped (w : Workload) : Prop := ∀ s ∈ jobServices, w.pebble.isRunning s = false

/-- Since the first state the late settings were rendered for `MAINTENANCE`, and
`LateSettings.php` holds them. -/
def Rendered (message : Option String) (w w' : Workload) : Prop :=
  ∃ before after earlier, w.rendered <:+ earlier ∧
    w'.rendered = (before ++ modeSettings .maintenance message ++ after) :: earlier ∧
    w'.files .lateSettings = some (.text (before ++ modeSettings .maintenance message ++ after))

/-- The operation mode that the unit has acknowledged, if there is a relation. -/
def acknowledgement (unit : String) (s : PeerWorld Workload) : Option (Option String) :=
  s.relation.map fun r => (r.data unit).operationMode

/-- Nothing was acknowledged between the two states. -/
structure Silent (unit : String) (s s' : PeerWorld Workload) : Prop where
  acknowledged : s'.rest.acknowledged = s.rest.acknowledged
  databag : acknowledgement unit s' = acknowledgement unit s

/-- At the end of a call no job service runs, and the call has acknowledged nothing or has
rendered the late settings for the mode. -/
structure Paused (unit : String) (message : Option String) (s s' : PeerWorld Workload) : Prop where
  stopped : JobsStopped s'.rest
  acknowledged : Silent unit s s' ∨ Rendered message s.rest s'.rest

/-! ### Stopping the job workers -/

/-- `_stop_job_workers` for one service. -/
def stopJobWorker (env : Env) (service : String) : Prog Workload Exc Unit := do
  let w ← Prog.get
  if (w.pebble.plan service).isSome then
    pebbleQuery env .getService
    if w.pebble.isRunning service then stop env [service]

lemma stopJobWorkers_eq : stopJobWorkers env =
    (pebbleQuery env .getPlan >>= fun _ => jobServices.forM (stopJobWorker env)) := rfl

/-- While `stop` succeeds only the look-up of a service in the plan may raise. -/
lemma stopJobWorker_spec (hstop : ∀ n, env.pebble .stop n = none) (service : String)
    (w : Workload) : (stopJobWorker env service).wp
      (fun _ w' => ∀ s, w'.pebble.isRunning s = (w.pebble.isRunning s && !([service].contains s)))
      (fun _ w' => (w.pebble.plan service).isSome = true ∧ env.pebble .getService w.clock ≠ none ∧
        Ticked w w') w := by
  have hidle : w.pebble.isRunning service = false →
      ∀ s, w.pebble.isRunning s = (w.pebble.isRunning s && !([service].contains s)) := by
    intro hidle s
    by_cases hs : s = service
    · rw [hs, hidle, Bool.false_and]
    · simp [hs]
  refine Prog.wp_bind.2 (Prog.wp_get.2 (Prog.wp_ite.2 ⟨fun hplan => ?_, fun hplan => ?_⟩))
  · refine Prog.wp_bind.2 (wp_pebbleQuery (fun w₁ ht₁ => ?_) fun _ w' ht h => ⟨hplan, h, ht⟩)
    obtain ⟨n, rfl⟩ := ht₁
    refine Prog.wp_ite.2 ⟨fun _ => ?_, fun hrun => Prog.wp_pure.2 ?_⟩
    · refine Prog.wp_bind.2 (Prog.wp_modify.2 (wp_pebbleCall (fun w' ht => ?_) fun _ _ _ h _ =>
        absurd (hstop _) h))
      obtain ⟨m, rfl⟩ := ht
      exact fun s => Pebble.isRunning_stop
    · exact hidle (by simpa using hrun)
  · -- a service that is not in the plan does not run
    refine Prog.wp_pure.2 (hidle ?_)
    by_contra hrun
    exact hplan (w.pebble.planned service
      (by simpa [Pebble.isRunning, Option.isSome_iff_ne_none] using hrun))

lemma forM_append_run {f : String → Prog Workload Exc PUnit} (late : List String) :
    ∀ (done : List String) {w w₁ : Workload}, done.forM f w = (.ok (), w₁) →
      (done ++ late).forM f w = late.forM f w₁
  | [], _, _, h => by
    obtain rfl := congrArg Prod.snd h
    rfl
  | s :: done, w, w₁, h => by
    show ((f s >>= fun _ => (done ++ late).forM f) : Prog Workload Exc PUnit) w = _
    have h : ((f s >>= fun _ => done.forM f) : Prog Workload Exc PUnit) w = (.ok (), w₁) := h
    rw [Prog.bind_run] at h ⊢
    rcases hs : f s w with ⟨e | _, w₂⟩
    · rw [hs] at h
      cases h
    · rw [hs] at h
      exact forM_append_run late done h

/-- The services `done` were looked at, and the look-up of the first in `late` raises. -/
def RaisesBefore (env : Env) (w : Workload) (done late : List String) : Prop :=
  ∃ s rest w₁, late = s :: rest ∧ done.forM (stopJobWorker env) w = (.ok (), w₁) ∧
    (w₁.pebble.plan s).isSome = true ∧ env.pebble .getService w₁.clock ≠ none

/-- The services are stopped one after the other until a look-up raises. -/
lemma stopEach_spec (hstop : ∀ n, env.pebble .stop n = none) :
    ∀ (services : List String) (w : Workload), (services.forM (stopJobWorker env)).wp
      (fun _ w' => ∀ s, w'.pebble.isRunning s = (w.pebble.isRunning s && !services.contains s))
      (fun _ w' => ∃ done late, services = done ++ late ∧ RaisesBefore env w done late ∧
        ∀ s, w'.pebble.isRunning s = (w.pebble.isRunning s && !done.contains s)) w
  | [], w => Prog.wp_pure.2 fun s => by simp
  | service :: services, w => by
    refine Prog.wp_bind.2 (Prog.wp_iff.2 ⟨fun _ w₁ hrun => ?_, fun e w₁ hrun => ?_⟩)
    · have h₁ := Prog.wp_of_ok (stopJobWorker_spec hstop service w) hrun
      have hcons : ∀ (l : List String) s, (w₁.pebble.isRunning s && !l.contains s) =
          (w.pebble.isRunning s && !(service :: l).contains s) := by
        intro l s
        rw [h₁ s]
        simp [Bool.and_assoc]
      refine Prog.wp_mono (stopEach_spec hstop services w₁) ?_ ?_
      · exact fun _ w' h' s => (h' s).trans (hcons services s)
      · -- the raise comes later: this worker is one of those done
        rintro e w' ⟨done, late, hservices, ⟨s, rest, w₂, hlate, hdone, hraises⟩, h'⟩
        refine ⟨service :: done, late, by rw [hservices, List.cons_append], ?_,
          fun s => (h' s).trans (hcons done s)⟩
        exact ⟨s, rest, w₂, hlate, (Prog.bind_run_ok hrun).trans hdone, hraises⟩
    · -- this worker raises, and nothing was stopped
      obtain ⟨hplan, hraises, n, rfl⟩ := Prog.wp_of_error (stopJobWorker_spec hstop service w) hrun
      refine ⟨[], service :: services, rfl, ⟨service, services, w, rfl, rfl, hplan, hraises⟩, ?_⟩
      intro s
      simp

/-- A look-up of `_stop_job_workers` raises before the services `late` were looked at. -/
def LookupRaises (env : Env) (w : Workload) (late : List String) : Prop :=
  (env.pebble .getPlan w.clock ≠ none ∧ late = jobServices) ∨
    ∃ done, jobServices = done ++ late ∧
      ∃ w₁, pebbleQuery env .getPlan w = (.ok (), w₁) ∧ RaisesBefore env w₁ done late

/-- `_stop_job_workers` is cut short while a job service that it has not looked at runs. -/
def CutShort (env : Env) (w : Workload) : Prop :=
  ∃ late, LookupRaises env w late ∧ ∃ s ∈ late, w.pebble.isRunning s = true

lemma LookupRaises.subset {late : List String} (h : LookupRaises env w late) :
    late ⊆ jobServices := by
  rcases h with ⟨-, rfl⟩ | ⟨done, hservices, -⟩
  · exact List.Subset.refl _
  · rw [hservices]
    exact List.subset_append_right _ _

lemma ticked_of_pebbleQuery {call : PebbleCall} {r : Except Exc Unit}
    (h : pebbleQuery env call w = (r, w')) : Ticked w w' := by
  have hquery : (pebbleQuery env call w).2 = w' := congrArg Prod.snd h
  exact ⟨w.clock + 1, hquery.symm⟩

/-- A look-up that raises leaves the services that were not looked at as they are. -/
lemma LookupRaises.run (hstop : ∀ n, env.pebble .stop n = none) {late : List String}
    (h : LookupRaises env w late) : ∃ e w', stopJobWorkers env w = (.error e, w') ∧
      ∀ s ∈ late, w'.pebble.isRunning s = w.pebble.isRunning s := by
  have hnodup : jobServices.Nodup := by decide
  rcases h with ⟨hplan, -⟩ | ⟨done, hservices, w₁, hquery, s, rest, w₂, rfl, hdone, hplan, hraises⟩
  · obtain ⟨f, hf⟩ := Option.ne_none_iff_exists'.1 hplan
    have hrun : pebbleQuery env .getPlan w = (.error f.error, { w with clock := w.clock + 1 }) := by
      simp [pebbleQuery, ask, hf]
    exact ⟨f.error, _, Prog.bind_run_error hrun, fun s _ => rfl⟩
  · obtain ⟨f, hf⟩ := Option.ne_none_iff_exists'.1 hraises
    have hlookup : stopJobWorker env s w₂ = (.error f.error, { w₂ with clock := w₂.clock + 1 }) := by
      simp [stopJobWorker, Prog.bind_run, hplan, pebbleQuery, ask, hf]
    have hall : jobServices.forM (stopJobWorker env) w₁ =
        (.error f.error, { w₂ with clock := w₂.clock + 1 }) := by
      rw [hservices, forM_append_run (s :: rest) done hdone]
      exact Prog.bind_run_error hlookup
    refine ⟨f.error, _, (Prog.bind_run_ok hquery).trans hall, fun t ht => ?_⟩
    have hdone' := Prog.wp_of_ok (stopEach_spec hstop done w₁) hdone t
    obtain ⟨n, rfl⟩ := ticked_of_pebbleQuery hquery
    have hmem : t ∉ done := fun h => (List.disjoint_of_nodup_append (hservices ▸ hnodup)) h ht
    simpa [hmem] using hdone'

/-- While `stop` succeeds the job workers are stopped on every exit of `_stop_job_workers`
on which it is not cut short. -/
lemma stopJobWorkers_spec (hstop : ∀ n, env.pebble .stop n = none) :
    JobsStopped (stopJobWorkers env w).2 ↔ ¬ CutShort env w := by
  constructor
  · rintro hstopped ⟨late, hlate, s, hs, hrun⟩
    obtain ⟨e, w', hraised, hkept⟩ := hlate.run hstop
    rw [hraised] at hstopped
    have hidle := hstopped s (hlate.subset hs)
    rw [hkept s hs, hrun] at hidle
    cases hidle
  · intro hcut
    -- a look-up that raises leaves only services that did not run
    have hraises : ∀ late, LookupRaises env w late → ∀ s ∈ late,
        (stopJobWorkers env w).2.pebble.isRunning s = false := by
      intro late hlate s hs
      obtain ⟨e, w', hraised, hkept⟩ := hlate.run hstop
      rw [hraised]
      refine (hkept s hs).trans ?_
      by_contra hrun
      exact hcut ⟨late, hlate, s, hs, by simpa using hrun⟩
    rcases hquery : pebbleQuery env .getPlan w with ⟨e | _, w₁⟩
    · have hplan : env.pebble .getPlan w.clock ≠ none := by
        intro hnone
        simp [pebbleQuery, ask, hnone] at hquery
      exact hraises jobServices (.inl ⟨hplan, rfl⟩)
    · have hrun : stopJobWorkers env w = jobServices.forM (stopJobWorker env) w₁ :=
        Prog.bind_run_ok hquery
      have hspec := stopEach_spec hstop jobServices w₁
      rcases hall : jobServices.forM (stopJobWorker env) w₁ with ⟨e | _, w'⟩
      · obtain ⟨done, late, hservices, hlate, hw'⟩ := Prog.wp_of_error hspec hall
        intro s hs
        rcases List.mem_append.1 (hservices ▸ hs) with hdone | hmem
        · rw [hrun, hall]
          exact (hw' s).trans (by simp [hdone])
        · exact hraises late (.inr ⟨done, hservices, w₁, hquery, hlate⟩) s hmem
      · intro s hs
        have hw' := Prog.wp_of_ok hspec hall s
        rw [hrun, hall]
        exact hw'.trans (by simp [hs])

/-! ### Reconciling the services -/

/-- The part of `_reconcile_services` up to `add_layer`. -/
def addPebbleLayer (env : Env) (inputs : LayerInputs) : Prog Workload Exc Unit := do
  if !(← askFlag env .canConnect) then throw (.waiting "Waiting for pebble")
  else
    doStep env .loadCharmConfig
    addLayer env inputs.pebbleLayer

lemma planServices_eq (inputs : LayerInputs) :
    planServices env inputs true = (addPebbleLayer env inputs >>= fun _ => replan env) := by
  funext w
  rw [planServices, addPebbleLayer, Prog.bind_run, Prog.bind_run, Prog.bind_run]
  rcases askFlag env .canConnect w with ⟨e | connected, w₁⟩
  · rfl
  · cases connected with
    | false => rfl
    | true =>
      show ((doStep env .loadCharmConfig >>= _ : Prog Workload Exc Unit) w₁) = _
      simp only [Bool.not_true, Bool.false_eq_true, if_false, if_true]
      rw [Prog.bind_run, Prog.bind_run]
      rcases doStep env .loadCharmConfig w₁ with ⟨e | _, w₂⟩
      · rfl
      · rfl

/-- The layer was added, and the `replan` that follows raises and has stopped the service. -/
def StoppedByReplan (env : Env) (inputs : LayerInputs) (w : Workload) (s : String) : Prop :=
  ∃ w₁ f, addPebbleLayer env inputs w = (.ok (), w₁) ∧ env.pebble .replan w₁.clock = some f ∧
    Pebble.partialEffect w₁.pebble.replanEffect f.effect s = .stopped

/-- The part of `_reconcile_services` before its first `stop`. -/
def planAndSurvey (env : Env) (inputs : LayerInputs) (workers : Bool) :
    Prog Workload Exc Survey := do
  planServices env inputs true
  surveyServices env true workers

/-- `_reconcile_services` raises before its first `stop` while a job service runs, and it is
no `replan` that raises and has stopped the service. -/
def LeftRunning (env : Env) (inputs : LayerInputs) (w : Workload) : Prop :=
  (∃ e w', planAndSurvey env inputs false w = (.error e, w')) ∧
    ∃ s ∈ jobServices, w.pebble.isRunning s = true ∧ ¬ StoppedByReplan env inputs w s

lemma addPebbleLayer_spec (inputs : LayerInputs) :
    (addPebbleLayer env inputs).wp
      (fun _ w' => Planned w' ∧ ∀ s, w'.pebble.isRunning s = w.pebble.isRunning s)
      (fun _ w' => ∀ s, w'.pebble.isRunning s = w.pebble.isRunning s) w := by
  have hticked : ∀ {w' : Workload}, Ticked w w' →
      ∀ s, w'.pebble.isRunning s = w.pebble.isRunning s := by
    rintro w' ⟨n, rfl⟩ s
    rfl
  refine Prog.wp_bind.2 (wp_askFlag (fun b w₁ ht₁ => ?_) fun _ _ ht => hticked ht)
  refine Prog.wp_ite.2 ⟨fun _ => hticked ht₁, fun _ => ?_⟩
  refine Prog.wp_bind.2 (wp_doStep (fun w₂ ht₂ => ?_) fun _ _ ht _ => hticked (ht₁.trans ht))
  obtain ⟨n₂, rfl⟩ := ht₁.trans ht₂
  refine wp_pebbleCall (fun w₃ ht₃ => ?_) fun _ w' effect _ ht s => ?_
  · obtain ⟨n₃, rfl⟩ := ht₃
    refine ⟨fun s hs => ?_, fun s => rfl⟩
    obtain ⟨c, hc, hstartup⟩ := lookup_pebbleLayer inputs hs
    exact ⟨c, Pebble.addLayer_plan hc, hstartup⟩
  · obtain ⟨n, rfl⟩ := ht
    have hnone : Pebble.partialEffect (fun _ => .untouched) effect s = .untouched :=
      Pebble.partialEffect_of_untouched rfl
    exact Pebble.isRunning_touch_of_untouched hnone

lemma replan_run : replan env w = pebbleCall env .replan Pebble.replanEffect
    (fun p => p.touch p.replanEffect) (w.setPebble (w.pebble.issue .replan)) := rfl

lemma replan_ok (h : replan env w = (.ok (), w')) : env.pebble .replan w.clock = none := by
  have hclock : (w.setPebble (w.pebble.issue .replan)).clock = w.clock := rfl
  rw [replan_run, pebbleCall, hclock] at h
  cases hf : env.pebble .replan w.clock with
  | none => rfl
  | some f =>
    rw [hf] at h
    cases h

/-- A `replan` that raises leaves a service running unless it has stopped it. -/
lemma replan_error (hplan : Planned w) {e : Exc} (h : replan env w = (.error e, w')) :
    ∃ f, env.pebble .replan w.clock = some f ∧ ∀ s ∈ allConditionalServices,
      (w'.pebble.isRunning s = true ↔ w.pebble.isRunning s = true ∧
        Pebble.partialEffect w.pebble.replanEffect f.effect s ≠ .stopped) := by
  have hclock : (w.setPebble (w.pebble.issue .replan)).clock = w.clock := rfl
  rw [replan_run, pebbleCall, hclock] at h
  cases hf : env.pebble .replan w.clock with
  | none =>
    rw [hf] at h
    cases h
  | some f =>
    rw [hf] at h
    obtain rfl := congrArg Prod.snd h
    refine ⟨f, rfl, fun s hs => ?_⟩
    show (w.pebble.touch (Pebble.partialEffect w.pebble.replanEffect f.effect)).isRunning s = true ↔ _
    cases heffect : Pebble.partialEffect w.pebble.replanEffect f.effect s with
    | untouched =>
      rw [Pebble.isRunning_touch_of_untouched heffect]
      simp
    | stopped =>
      rw [Pebble.isRunning_touch_of_stopped heffect]
      simp
    | started =>
      rw [Pebble.isRunning_touch_of_started heffect, hplan.isSome hs]
      -- it was running, for a replan starts no stopped service of the group
      obtain ⟨c, hc, hstartup⟩ := hplan s hs
      refine iff_of_true rfl ⟨?_, by decide⟩
      by_contra hidle
      have huntouched := Pebble.replanEffect_of_stopped hc hstartup (by simpa using hidle)
      exact partialEffect_ne_started huntouched heffect

lemma jobServices_subset : jobServices ⊆ allConditionalServices := by decide

/-- Before the first `stop` a raise leaves the job services running that no `replan` that
raises has stopped. -/
lemma planAndSurvey_spec (inputs : LayerInputs) :
    (planAndSurvey env inputs false).wp
      (fun survey w' => Planned w' ∧ survey = surveyOf true false w')
      (fun _ w' => ∀ s ∈ jobServices, (w'.pebble.isRunning s = true ↔
        w.pebble.isRunning s = true ∧ ¬ StoppedByReplan env inputs w s)) w := by
  rw [planAndSurvey, planServices_eq]
  refine Prog.wp_bind.2 (Prog.wp_bind.2 (Prog.wp_iff.2 ⟨fun _ w₁ hadd => ?_, fun e w' hadd => ?_⟩))
  · obtain ⟨hplan₁, hrun₁⟩ := Prog.wp_of_ok (addPebbleLayer_spec inputs) hadd
    refine Prog.wp_iff.2 ⟨fun _ w₂ hreplan => ?_, fun e w' hreplan => ?_⟩
    · have h₂ := Prog.wp_of_ok (replan_spec hplan₁) hreplan
      refine Prog.wp_mono (surveyServices_spec true false h₂.planned) ?_ ?_
      · rintro survey w' ⟨⟨n, c, rfl⟩, rfl⟩
        exact ⟨h₂.planned, rfl⟩
      · -- `replan` has returned, so it has stopped nothing for good
        rintro e w' ⟨n, c, rfl⟩ s hs
        have hrun : w₂.pebble.isRunning s = w.pebble.isRunning s :=
          (h₂.running s (jobServices_subset hs)).trans (hrun₁ s)
        have hno : ¬ StoppedByReplan env inputs w s := by
          rintro ⟨w₁', f, hadd', hf, -⟩
          rw [hadd] at hadd'
          obtain rfl := congrArg Prod.snd hadd'
          rw [replan_ok hreplan] at hf
          cases hf
        rw [show Pebble.isRunning { w₂.pebble with checks := c } s = _ from hrun]
        simp [hno]
    · obtain ⟨f, hf, heffect⟩ := replan_error hplan₁ hreplan
      intro s hs
      rw [heffect s (jobServices_subset hs), hrun₁ s]
      refine and_congr_right fun _ => not_congr ⟨fun h => ⟨w₁, f, hadd, hf, h⟩, ?_⟩
      -- a run has only one `replan` that raises
      rintro ⟨w₁', f', hadd', hf', heffect'⟩
      rw [hadd] at hadd'
      obtain rfl := congrArg Prod.snd hadd'
      rw [hf] at hf'
      obtain rfl := Option.some.inj hf'
      exact heffect'
  · have hrun := Prog.wp_of_error (addPebbleLayer_spec inputs) hadd
    intro s hs
    have hno : ¬ StoppedByReplan env inputs w s := by
      rintro ⟨w₁, f, hadd', -⟩
      rw [hadd] at hadd'
      cases hadd'
    rw [hrun s]
    simp [hno]

lemma not_mem_servicesToRun {s : String} (hs : s ∈ jobServices) : s ∉ servicesToRun true false := by
  have hall : ∀ s ∈ jobServices, s ∉ servicesToRun true false := by decide
  exact hall s hs

lemma reconcileServices_eq (inputs : LayerInputs) (workers : Bool) :
    reconcileServices env inputs true workers =
      (planAndSurvey env inputs workers >>= applyServices env true workers) := by
  funext w
  rw [reconcileServices, planAndSurvey, Prog.bind_run, Prog.bind_run, Prog.bind_run]
  rcases planServices env inputs true w with ⟨e | _, w₁⟩
  · rfl
  · rfl

/-- While `stop` succeeds the job workers are stopped on every exit of `_reconcile_services`
without job workers, but for those before its first `stop` on which one is left running. -/
lemma reconcileServices_stopped (hstop : ∀ n, env.pebble .stop n = none) (inputs : LayerInputs) :
    (reconcileServices env inputs true false).wp
      (fun _ w' => JobsStopped w' ∧ ¬ LeftRunning env inputs w)
      (fun _ w' => JobsStopped w' ↔ ¬ LeftRunning env inputs w) w := by
  have hspec := @planAndSurvey_spec env w inputs
  rw [reconcileServices_eq]
  refine Prog.wp_bind.2 (Prog.wp_iff.2 ⟨fun survey w₁ hrun => ?_, fun e w₁ hrun => ?_⟩)
  · obtain ⟨hplan₁, rfl⟩ := Prog.wp_of_ok hspec hrun
    have hno : ¬ LeftRunning env inputs w := by
      rintro ⟨⟨e, w', hraised⟩, -⟩
      rw [hrun] at hraised
      cases hraised
    refine Prog.wp_mono (applyServices_spec true false hplan₁) ?_ ?_
    · rintro _ w' ⟨hrunning, -, -⟩
      refine ⟨fun s hs => ?_, hno⟩
      rw [hrunning s (jobServices_subset hs)]
      simpa using not_mem_servicesToRun hs
    · rintro e w' ⟨hraises | hstopped, -⟩
      · -- `stop` does not raise here
        obtain ⟨n, hn⟩ := hraises
        exact absurd (hstop n) hn
      · exact iff_of_true (fun s hs => hstopped s (jobServices_subset hs)
          (not_mem_servicesToRun hs)) hno
  · -- the services are as the exception has left them
    have hw₁ := Prog.wp_of_error hspec hrun
    constructor
    · rintro hstopped ⟨-, s, hs, hleft⟩
      have hidle := hstopped s hs
      rw [(hw₁ s hs).2 hleft] at hidle
      cases hidle
    · intro hno s hs
      by_contra hleft
      exact hno ⟨⟨e, w₁, hrun⟩, s, hs, (hw₁ s hs).1 (by simpa using hleft)⟩

/-! ### Acknowledging -/

variable {unit : String} {parts : List Part}

instance (unit : String) : Std.Refl (Silent unit) := ⟨fun _ => ⟨rfl, rfl⟩⟩

instance (unit : String) : IsTrans (PeerWorld Workload) (Silent unit) :=
  ⟨fun _ _ _ h h' => ⟨h'.acknowledged.trans h.acknowledged, h'.databag.trans h.databag⟩⟩

lemma silent_callback {α : Type} {x : Prog Workload Exc α} (h : Prog.Within (Changes parts) x)
    (hp : .acknowledged ∉ parts) : Prog.Within (Silent unit) (callback x) :=
  h.zoom fun _ _ hw => ⟨hw .acknowledged hp, rfl⟩

/-- A change of the relation that keeps the acknowledgement of the unit. -/
lemma silent_update {g : Relation → Relation}
    (hg : ∀ r, ((g r).data unit).operationMode = (r.data unit).operationMode) :
    Prog.Within (Silent unit) (relation >>= fun r => writeRelation (g r) :
      Prog (PeerWorld Workload) Exc Unit) := by
  rintro ⟨_ | r, w⟩
  · exact ⟨rfl, rfl⟩
  · exact ⟨rfl, congrArg some (hg r)⟩

lemma silent_relation : Prog.Within (Silent unit) (relation (D := Workload)) := by
  rintro ⟨_ | r, w⟩
  · exact ⟨rfl, rfl⟩
  · exact ⟨rfl, rfl⟩

lemma silent_localisationCacheReconciliation (settingsChanged composerRan force : Bool) :
    Prog.Within (Silent charm.unit)
      (localisationCacheReconciliation env charm settingsChanged composerRan force) := by
  have hmarker : Part.file .localisationRebuild ∈ cacheParts := by decide
  have hrebuilds : Part.rebuilds ∈ cacheParts := by decide
  have hno : Part.acknowledged ∉ cacheParts := by decide
  have hrebuilt : Prog.Within (Silent charm.unit)
      (markLocalisationCacheRebuilt charm.unit charm.version) := silent_update fun r => by simp
  exact .bind (silent_callback (within_doStep _) hno) fun _ =>
    .bind (.bind silent_relation fun _ => .pure _) fun _ =>
    .bind (.ite (silent_callback (within_requestLocalisationRebuild hmarker) hno) (.pure _)) fun _ =>
    .bind (silent_callback (within_pathExists _) hno) fun _ => .ite (.pure _)
    (.bind (silent_callback (within_rebuildLocalisationCache hrebuilds) hno) fun _ =>
    .bind hrebuilt fun _ => silent_callback (within_unlink hmarker) hno)

lemma silent_install : Prog.Within (Silent charm.unit) (install env charm) := by
  have huser : Part.file .userSettings ∈ installParts := by decide
  have hmarker : Part.file .localisationRebuild ∈ installParts := by decide
  have hno : Part.acknowledged ∉ installParts := by decide
  refine .ite (silent_callback (within_awaitInstallation _) hno) (.bind
    (silent_callback (within_askFlag _) hno) fun _ => .bind
    (silent_callback (within_writeText huser _) hno) fun _ => .bind
    (silent_localisationCacheReconciliation _ _ _) fun _ => silent_callback ?_ hno)
  exact .bind (within_installAttempts _ _) fun _ => .bind (within_ensureContents huser _) fun _ =>
    .bind (within_requestLocalisationRebuild hmarker) fun _ => .bind (within_doStep _) fun _ =>
    within_doStep _

lemma silent_publishComposerLock [FiniteFloat F] :
    Prog.Within (Silent charm.unit) (publishComposerLock env charm) := by
  have hnote : ∀ lock, Prog.Within (Changes [.published]) (Prog.modify fun w : Workload =>
      { w with published := ⟨lock, dumpsText charm.config.composer.json, w.composerRuns⟩ ::
        w.published } : Prog Workload Exc Unit) := by
    refine fun lock => .modify fun w p hp => ?_
    cases p with
    | published => exact absurd hp (by decide)
    | _ => rfl
  have hno : Part.acknowledged ∉ [Part.published] := by decide
  exact .ite (.pure _) (.bind (silent_callback (within_pathExists _) hno) fun _ => .ite (.throw _)
    (.bind (silent_callback (within_readText _) hno) fun lock =>
    .bind (silent_update fun r => by simp) fun _ => silent_callback (hnote lock) hno))

lemma silent_reconcileConfiguration [FiniteFloat F] (peerState : PeerState) (force : Bool) :
    Prog.Within (Silent charm.unit) (reconcileConfiguration env charm peerState force) := by
  have hcomposer : Part.acknowledged ∉ reconcileParts := by decide
  have hsettings : ∀ secrets mode message, Prog.Within (Silent charm.unit)
      (callback (settingsReconciliation env charm secrets mode message)) := fun _ _ _ =>
    silent_callback (within_settingsReconciliation _ _ _) (by decide)
  refine .bind (silent_callback (within_reconcileComposer _ _) hcomposer) fun _ => .bind ?_ fun _ =>
    .bind silent_publishComposerLock fun _ => silent_localisationCacheReconciliation _ _ _
  exact .bind (silent_callback (within_askFlag _) hcomposer) fun _ =>
    .bind (.ite (.pure _) (.bind (hsettings _ _ _) fun _ => .bind silent_install fun _ => .pure _))
    fun _ => .bind (hsettings _ _ _) fun _ => .pure _

/-! ### Rendering the late settings -/

variable {message : Option String}

/-- The later state has all that was rendered before. -/
def Grows (w w' : Workload) : Prop := w.rendered <:+ w'.rendered

instance : Std.Refl Grows := ⟨fun w => List.suffix_refl w.rendered⟩

instance : IsTrans Workload Grows := ⟨fun _ _ _ h h' => h.trans h'⟩

lemma grows_of_changes (hp : .rendered ∉ parts) (h : Changes parts w w') : Grows w w' := by
  have hrendered : w'.rendered = w.rendered := h .rendered hp
  rw [Grows, hrendered]

lemma within_grows {α : Type} {x : Prog Workload Exc α} (h : Prog.Within (Changes parts) x)
    (hp : .rendered ∉ parts) : Prog.Within Grows x := h.mono fun _ _ => grows_of_changes hp

/-- The late settings are the same, and nothing was rendered. -/
structure SameLate (w w' : Workload) : Prop where
  rendered : w'.rendered = w.rendered
  late : w'.files .lateSettings = w.files .lateSettings

instance : Std.Refl SameLate := ⟨fun _ => ⟨rfl, rfl⟩⟩

instance : IsTrans Workload SameLate :=
  ⟨fun _ _ _ h h' => ⟨h'.rendered.trans h.rendered, h'.late.trans h.late⟩⟩

/-- The parts that show what was rendered. -/
def lateParts : List Part := [.rendered, .file .lateSettings]

lemma sameLate_of_changes (hp : ∀ p ∈ lateParts, p ∉ parts) (h : Changes parts w w') :
    SameLate w w' := by
  have hrendered : Part.rendered ∉ parts := hp _ (by decide)
  have hlate : Part.file .lateSettings ∉ parts := hp _ (by decide)
  exact ⟨h .rendered hrendered, h (.file .lateSettings) hlate⟩

lemma sameLate_within {α : Type} {x : Prog Workload Exc α} (h : Prog.Within (Changes parts) x)
    (hp : ∀ p ∈ lateParts, p ∉ parts) : Prog.Within SameLate x :=
  h.mono fun _ _ => sameLate_of_changes hp

lemma SameLate.grows (h : SameLate w w') : Grows w w' := by
  rw [Grows, h.rendered]

lemma grows_absorbs : Prog.Absorbs Grows Grows SameLate where
  weaken _ _ h := h
  within _ _ h := h.grows
  before _ _ _ h h' := h.trans h'
  after _ _ _ h h' := h.trans h'.grows

lemma Rendered.of_grows {w₁ : Workload} (hw : Grows w w₁) (h : Rendered message w₁ w') :
    Rendered message w w' := by
  obtain ⟨before, after, earlier, hsuffix, hrendered, hfile⟩ := h
  exact ⟨before, after, earlier, hw.trans hsuffix, hrendered, hfile⟩

lemma Rendered.same {w₁ : Workload} (h : Rendered message w w₁) (hw : SameLate w₁ w') :
    Rendered message w w' := by
  obtain ⟨before, after, earlier, hsuffix, hrendered, hfile⟩ := h
  exact ⟨before, after, earlier, hsuffix, hw.rendered.trans hrendered, hw.late.trans hfile⟩

lemma rendered_absorbs : Prog.Absorbs (Rendered message) Grows SameLate where
  weaken w w' h := by
    obtain ⟨before, after, earlier, hsuffix, hrendered, -⟩ := h
    rw [Grows, hrendered]
    exact hsuffix.trans (List.suffix_cons _ _)
  within _ _ h := h.grows
  before _ _ _ h h' := h'.of_grows h
  after _ _ _ h h' := h.same h'

/-- What was pushed is on disk, whether the file was changed or not. -/
lemma ensureContents_spec (path : Path) (content : String) :
    (ensureContents env path content).wp
      (fun _ w' => w'.files path = some (.text content) ∧ w'.rendered = w.rendered)
      (fun _ _ => True) w := by
  refine wp_ensureContents (fun w' ht hsame => ?_) (fun w' ht => ?_) fun _ _ _ _ => trivial
  · obtain ⟨n, rfl⟩ := ht
    exact ⟨hsame, rfl⟩
  · obtain ⟨n, rfl⟩ := ht
    exact ⟨setFile_files_self _ _ _, rfl⟩

lemma pushLateSettings_spec (secrets : MediaWikiSecrets) (w : Workload) :
    (pushLateSettings env charm secrets .maintenance message).wp
      (fun _ w' => Rendered message w w') (fun _ _ => True) w := by
  have hfragments : Part.rendered ∉ fragmentParts := by decide
  refine Prog.wp_bind.2 (Prog.wp_mono ((within_grows within_mkdir hfragments).wp w) ?_
    fun _ _ _ => trivial)
  intro _ w₁ h₁
  refine Prog.wp_bind.2 (Prog.wp_mono ((within_grows within_renderFragments hfragments).wp w₁) ?_
    fun _ _ _ => trivial)
  rintro ⟨fragments, deferredError⟩ w₂ h₂
  refine Prog.wp_bind.2 (Prog.wp_mono (ensureContents_spec _ _) ?_ fun _ _ _ => trivial)
  rintro changed w₃ ⟨hfile, hrendered⟩
  refine Prog.wp_bind.2 (Prog.wp_modify.2 ?_)
  cases deferredError with
  | none =>
    -- the lines of the mode stand between the fragments and the secrets
    have hcontent : lateSettings charm secrets .maintenance message fragments =
        charm.templates.lateSettings ++ getLoggingSettings charm.config ++ fragments ++
          modeSettings .maintenance message ++ (secretSettings secrets ++ "?>\n") := by
      simp only [lateSettings, String.append_assoc]
    have hgrows : w.rendered <:+ w₃.rendered := by
      rw [hrendered]
      exact h₁.trans h₂
    rw [hcontent] at hfile ⊢
    exact Prog.wp_pure.2 ⟨_, _, w₃.rendered, hgrows, rfl, hfile⟩
  | some e =>
    refine Prog.wp_bind.2 (Prog.wp_iff.2 ⟨fun _ _ _ => ?_, fun _ _ _ => trivial⟩)
    exact Prog.wp_throw.2 trivial

/-- The parts of the settings but for the late settings. -/
def otherParts : List Part :=
  [.file .userSettings, .file .localSettings, .file .localisationRebuild, .file .jobRunnerConfig,
    .file .restartRequired]

lemma within_recordChange (changed : Bool) : Prog.Within (Changes otherParts)
    (if changed then recordSettingsChange env else pure () : Prog Workload Exc Unit) :=
  .ite (within_requestLocalisationRebuild (by decide)) (.pure _)

lemma within_pushUserSettings : Prog.Within (Changes otherParts) (pushUserSettings env charm) :=
  within_ensureContents (by decide) _

lemma within_pushLocalSettings : Prog.Within (Changes otherParts) (pushLocalSettings env charm) :=
  within_ensureContents (by decide) _

lemma grows_pushLateSettings (secrets : MediaWikiSecrets) (mode : OperationMode) :
    Prog.Within Grows (pushLateSettings env charm secrets mode message) := by
  have hlate : ∀ content, Prog.Within (Changes [.file .lateSettings])
      (ensureContents env .lateSettings content) := fun _ => within_ensureContents (by decide) _
  have hfragments : Part.rendered ∉ fragmentParts := by decide
  refine .bind (within_grows within_mkdir hfragments) fun _ =>
    .bind (within_grows within_renderFragments hfragments) fun (_, deferredError) =>
    .bind (within_grows (hlate _) (by decide)) fun changed =>
    .bind (.modify fun w => List.suffix_cons _ _) fun _ => ?_
  cases deferredError with
  | none => exact .pure _
  | some e => exact .bind (within_grows (within_recordChange changed) (by decide)) fun _ => .throw _

/-- A relation of the containers beside the peers. -/
def OnRest (R : Workload → Workload → Prop) (s s' : PeerWorld Workload) : Prop := R s.rest s'.rest

instance (R : Workload → Workload → Prop) [Std.Refl R] : Std.Refl (OnRest R) :=
  ⟨fun s => refl_of R s.rest⟩

instance (R : Workload → Workload → Prop) [IsTrans Workload R] :
    IsTrans (PeerWorld Workload) (OnRest R) := ⟨fun _ _ _ h h' => trans_of R h h'⟩

section Achieving

variable {Q R : Workload → Workload → Prop} [IsTrans Workload R]

/-- A reconciliation of the settings achieves what writing the late settings achieves. -/
lemma settingsReconciliation_achieves {secrets : MediaWikiSecrets} {mode : OperationMode}
    (hQ : Prog.Absorbs Q R SameLate)
    (hlate : Prog.Achieves Q R (pushLateSettings env charm secrets mode message)) :
    Prog.Achieves Q R (settingsReconciliation env charm secrets mode message) := by
  have hother : ∀ p ∈ lateParts, p ∉ otherParts := by decide
  have hmkdir : Prog.Within SameLate (mkdir env) := sameLate_within within_mkdir hother
  have huser : Prog.Within SameLate (pushUserSettings env charm) :=
    sameLate_within within_pushUserSettings hother
  have hlocal : Prog.Within SameLate (pushLocalSettings env charm) :=
    sameLate_within within_pushLocalSettings hother
  have hrecord : ∀ changed : Bool, Prog.Within SameLate (if changed then recordSettingsChange env
      else pure () : Prog Workload Exc Unit) := fun _ =>
    sameLate_within (within_recordChange _) hother
  exact .bind hQ (hmkdir.mono hQ.within) fun _ => .bind hQ (huser.mono hQ.within) fun _ =>
    .bind hQ ((hrecord _).mono hQ.within) fun _ => .andThen hQ hlate fun _ =>
    .bind (hrecord _) fun _ => .bind hlocal fun _ => .bind (hrecord _) fun _ => .pure _

/-- A configuration achieves what writing the late settings for its mode achieves. -/
lemma reconcileConfiguration_achieves [FiniteFloat F] [Std.Refl R] {peerState : PeerState}
    (force : Bool) (hQ : Prog.Absorbs Q R SameLate)
    (hinstall : Prog.Within R
      (settingsReconciliation env charm peerState.secrets .databaseUpdate none))
    (hsettings : Prog.Achieves Q R (settingsReconciliation env charm peerState.secrets
      peerState.operationMode peerState.maintenanceMessage)) :
    Prog.Achieves (OnRest Q) (OnRest R) (reconcileConfiguration env charm peerState force) := by
  have hQ' : Prog.Absorbs (OnRest Q) (OnRest R) (OnRest SameLate) := hQ.comap PeerWorld.rest
  have hsame : ∀ {α : Type} {parts : List Part} {x : Prog (PeerWorld Workload) Exc α},
      Prog.Within (RestChanges parts) x → (∀ p ∈ lateParts, p ∉ parts) →
      Prog.Within (OnRest SameLate) x := fun h hp =>
    h.mono fun _ _ => sameLate_of_changes hp
  have hcomposer : Prog.Within (RestChanges reconcileParts)
      (callback (reconcileComposer env charm peerState
        (force || decide (peerState.operationMode = .forceReconciliation)))) :=
    (within_reconcileComposer _ _).zoom fun _ _ h => h
  have hflag : Prog.Within (RestChanges []) (callback (askFlag env .isDatabaseInitialized)) :=
    (within_askFlag _).zoom fun _ _ h => h
  have hpublish : Prog.Within (RestChanges [.published]) (publishComposerLock env charm) :=
    within_publishComposerLock (by decide)
  -- the settings of an installation come before those of the mode
  have hconfigure : Prog.Achieves (OnRest Q) (OnRest R)
      (installAndConfigure env charm peerState) := by
    refine .bind hQ' ((hsame hflag fun _ _ => List.not_mem_nil).mono hQ'.within) fun _ =>
      .bind hQ' (.ite (.pure _) (.bind ?_ fun _ => .bind ?_ fun _ => .pure _)) fun _ =>
      .andThen hQ' ?_ fun _ => .pure _
    · exact hinstall.zoom fun _ _ h => h
    · exact (hsame within_install (by decide)).mono hQ'.within
    · exact hsettings.zoom (fun _ _ h => h) fun _ _ h => h
  refine .bind hQ' ((hsame hcomposer (by decide)).mono hQ'.within) fun _ =>
    .andThen hQ' hconfigure fun _ => .bind (hsame hpublish (by decide)) fun _ => ?_
  exact hsame (within_localisationCacheReconciliation _ _ _) (by decide)

end Achieving

lemma grows_settingsReconciliation (secrets : MediaWikiSecrets) (mode : OperationMode) :
    Prog.Within Grows (settingsReconciliation env charm secrets mode message) := by
  have hlate : Prog.Within Grows (pushLateSettings env charm secrets mode message) :=
    grows_pushLateSettings _ _
  exact (settingsReconciliation_achieves grows_absorbs hlate.wp).within grows_absorbs

/-- A configuration for `MAINTENANCE` that returns has rendered the late settings for it. -/
lemma reconcileConfiguration_rendered [FiniteFloat F] {peerState : PeerState} (force : Bool)
    (hmode : peerState.operationMode = .maintenance) (s : PeerWorld Workload) :
    (reconcileConfiguration env charm peerState force).wp
      (fun _ s' => Rendered peerState.maintenanceMessage s.rest s'.rest)
      (fun _ s' => Grows s.rest s'.rest) s := by
  have hlate : Prog.Achieves (Rendered peerState.maintenanceMessage) Grows
      (pushLateSettings env charm peerState.secrets .maintenance peerState.maintenanceMessage) :=
    .of_wp (pushLateSettings_spec _) (grows_pushLateSettings _ _)
  rw [← hmode] at hlate
  exact reconcileConfiguration_achieves force rendered_absorbs (grows_settingsReconciliation _ _)
    (settingsReconciliation_achieves rendered_absorbs hlate) s

/-! ### Reconciling -/

/-- What the reading of the peer state leaves as it is. -/
lemma readPeerState_spec (s : PeerWorld Workload) :
    (readPeerState env charm).wp (fun _ s' => Changes [] s.rest s'.rest ∧ s'.relation = s.relation)
      (fun _ _ => True) s := by
  refine Prog.wp_bind.2 (wp_callback.2 (wp_askFlag (fun connected w₁ ht₁ => ?_) fun _ _ _ => trivial))
  refine Prog.wp_ite.2 ⟨fun _ => trivial, fun _ => ?_⟩
  refine Prog.wp_bind.2 (wp_callback.2 (wp_askFlag (fun ready w₂ ht₂ => ?_) fun _ _ _ => trivial))
  refine Prog.wp_ite.2 ⟨fun _ => trivial, fun _ => ?_⟩
  have ht : Ticked s.rest w₂ := ht₁.trans ht₂
  refine Prog.wp_tryCatch.2 (Prog.wp_mono (Q := fun _ s' =>
    Changes [] s.rest s'.rest ∧ s'.relation = s.relation) (E := fun _ _ => True) ?_ (fun _ _ h => h)
    fun e s₃ _ => ?_)
  · refine Prog.wp_bind.2 (wp_callback.2 (wp_askFlag (fun related w₃ ht₃ => ?_) fun _ _ _ => trivial))
    refine Prog.wp_ite.2 ⟨fun _ => trivial, fun _ => ?_⟩
    refine Prog.wp_bind.2 (Prog.wp_bind.2 (Prog.wp_get.2 ?_))
    split
    · refine Prog.wp_pure.2 (Prog.wp_bind.2 (wp_callback.2 (wp_doStep (fun w₄ ht₄ => ?_)
        fun _ _ _ _ => trivial)))
      refine Prog.wp_bind.2 (Prog.wp_ofExcept.2 ⟨fun mode _ => ?_, fun _ _ => trivial⟩)
      exact Prog.wp_pure.2 ⟨changes_of_ticked ((ht.trans ht₃).trans ht₄), rfl⟩
    · exact trivial
  · -- the handler raises in the end
    split
    · exact trivial
    · refine Prog.wp_ite.2 ⟨fun _ => ?_, fun _ => trivial⟩
      exact Prog.wp_bind.2 (Prog.wp_iff.2 ⟨fun _ _ _ => trivial, fun _ _ _ => trivial⟩)

variable [FiniteFloat F]

/-- A step that no handler covers raises while a job service runs: one before the first
`stop` of `_reconcile_services` after the configuration has returned, or a look-up of
`_stop_job_workers` after it has raised. -/
def Uncovered (env : Env) (charm : Charm F) (peerState : PeerState) (force : Bool)
    (s : PeerWorld Workload) : Prop :=
  match reconcileConfiguration env charm peerState force s with
  | (.ok _, s') => LeftRunning env charm.layer s'.rest
  | (.error _, s') => CutShort env s'.rest

lemma applyPeerState_spec {peerState : PeerState} (force : Bool) {s : PeerWorld Workload}
    (hmode : peerState.operationMode = .maintenance) (hstop : ∀ n, env.pebble .stop n = none) :
    Paused charm.unit peerState.maintenanceMessage s
      (applyPeerState env charm peerState force s).2 ↔ ¬ Uncovered env charm peerState force s := by
  suffices hwp : (applyPeerState env charm peerState force).wp
      (fun _ s' => Paused charm.unit peerState.maintenanceMessage s s' ↔
        ¬ Uncovered env charm peerState force s)
      (fun _ s' => Paused charm.unit peerState.maintenanceMessage s s' ↔
        ¬ Uncovered env charm peerState force s) s from
    Prog.wp_state hwp (fun _ _ h => h) fun _ _ h => h
  have hno : ∀ p ∈ lateParts, p ∉ [Part.file .restartRequired] := by decide
  refine Prog.wp_bind.2 (Prog.wp_tryCatch.2 (Prog.wp_iff.2
    ⟨fun _ s₁ hrun => ?_, fun e s₁ hrun => ?_⟩))
  · -- from here on the late settings stay as they were rendered
    have hrendered := Prog.wp_of_ok (reconcileConfiguration_rendered force hmode s) hrun
    have huncovered : Uncovered env charm peerState force s ↔
        LeftRunning env charm.layer s₁.rest := by
      rw [Uncovered, hrun]
    rw [huncovered, hmode]
    have hservices : Prog.Within (Changes [.file .restartRequired])
        (reconcileServices env charm.layer true false) := within_reconcileServices (by decide) _ _ _
    refine Prog.wp_bind.2 (Prog.wp_pure.2 (Prog.wp_bind.2 (wp_callback.2 ?_)))
    have hspec := reconcileServices_stopped (w := s₁.rest) hstop charm.layer
    refine Prog.wp_iff.2 ⟨fun _ w₂ hrun₂ => ?_, fun e w₂ hrun₂ => ?_⟩
    · obtain ⟨hstopped, hnot⟩ := Prog.wp_of_ok hspec hrun₂
      have h₂ := Prog.wp_of_ok (hservices.wp _) hrun₂
      have hpaused : ∀ s', s'.rest.pebble = w₂.pebble → Changes [.acknowledged] w₂ s'.rest →
          (Paused charm.unit peerState.maintenanceMessage s s' ↔
            ¬ LeftRunning env charm.layer s₁.rest) := by
        intro s' hpebble hs'
        refine iff_of_true ⟨fun j hj => ?_, .inr ?_⟩ hnot
        · rw [hpebble]
          exact hstopped j hj
        · have hsame := sameLate_of_changes hno h₂
          exact (hrendered.same hsame).same (sameLate_of_changes (by decide) hs')
      refine Prog.wp_bind.2 (Prog.wp_bind.2 (Prog.wp_bind.2 (Prog.wp_get.2 ?_)))
      split
      · next r hr =>
        -- the acknowledgement is written and noted
        have hnote : Changes [.acknowledged] w₂
            { w₂ with acknowledged := OperationMode.maintenance :: w₂.acknowledged } := by
          intro p hp
          cases p with
          | acknowledged => exact absurd hp (by decide)
          | _ => rfl
        refine Prog.wp_pure.2 (Prog.wp_modify.2 (Prog.wp_bind.2 (wp_callback.2
          (Prog.wp_modify.2 ?_))))
        refine Prog.wp_bind.2 (Prog.wp_ite.2 ⟨fun _ => Prog.wp_pure.2 ?_, fun h => absurd ?_ h⟩)
        · refine Prog.wp_bind.2 (wp_callback.2 (wp_doStep (fun w₃ ht => ?_) fun _ w₃ ht _ => ?_))
          · obtain ⟨n, rfl⟩ := ht
            exact hpaused _ rfl (hnote.trans (changes_of_ticked ⟨n, rfl⟩))
          · obtain ⟨n, rfl⟩ := ht
            exact hpaused _ rfl (hnote.trans (changes_of_ticked ⟨n, rfl⟩))
        · simp
      · exact hpaused _ rfl (changes_refl _ _)
    · have h₂ := Prog.wp_of_error (hservices.wp _) hrun₂
      have hspec₂ := Prog.wp_of_error hspec hrun₂
      refine Iff.trans ⟨fun h => h.stopped, fun h => ⟨h, .inr ?_⟩⟩ hspec₂
      exact hrendered.same (sameLate_of_changes hno h₂)
  · have hsilent : Silent charm.unit s s₁ := by
      have h : Silent charm.unit s (reconcileConfiguration env charm peerState force s).2 :=
        silent_reconcileConfiguration peerState force s
      rw [hrun] at h
      exact h
    have huncovered : Uncovered env charm peerState force s ↔ CutShort env s₁.rest := by
      rw [Uncovered, hrun]
    rw [huncovered, hmode, ← stopJobWorkers_spec hstop]
    have hhandler : Prog.Within (Changes []) (stopJobWorkers env) := within_stopJobWorkers
    have hpaused : Paused charm.unit peerState.maintenanceMessage s
        { s₁ with rest := (stopJobWorkers env s₁.rest).2 } ↔
          JobsStopped (stopJobWorkers env s₁.rest).2 := by
      have hkept : (stopJobWorkers env s₁.rest).2.acknowledged = s₁.rest.acknowledged :=
        hhandler s₁.rest .acknowledged (by decide)
      refine ⟨fun h => h.stopped, fun h => ⟨h, .inl ?_⟩⟩
      exact ⟨hkept.trans hsilent.acknowledged, hsilent.databag⟩
    refine Prog.wp_bind.2 (Prog.wp_ite.2 ⟨fun _ => ?_, fun h => absurd rfl h⟩)
    refine wp_callback.2 (Prog.wp_iff.2 ⟨fun _ w₂ hrun₂ => ?_, fun e' w₂ hrun₂ => ?_⟩)
    · rw [hrun₂] at hpaused ⊢
      exact Prog.wp_throw.2 hpaused
    · rw [hrun₂] at hpaused ⊢
      exact hpaused

/-- Every call that has read `MAINTENANCE` from the peers and in which `stop` succeeds pauses
the job workers, unless a step that no handler covers raises while a job service runs. -/
theorem paused_iff {peerState : PeerState} (force : Bool) {s s₁ : PeerWorld Workload}
    (hread : readPeerState env charm s = (.ok peerState, s₁))
    (hmode : peerState.operationMode = .maintenance) (hstop : ∀ n, env.pebble .stop n = none) :
    Paused charm.unit peerState.maintenanceMessage s (reconciliation env charm force s).2 ↔
      ¬ Uncovered env charm peerState force s₁ := by
  obtain ⟨hkept, hrelation⟩ := Prog.wp_of_ok (readPeerState_spec s) hread
  have hpaused : ∀ s', Paused charm.unit peerState.maintenanceMessage s₁ s' ↔
      Paused charm.unit peerState.maintenanceMessage s s' := by
    have hacknowledged : s₁.rest.acknowledged = s.rest.acknowledged :=
      hkept .acknowledged (by decide)
    have hrendered : s₁.rest.rendered = s.rest.rendered := hkept .rendered (by decide)
    have hgrows : Grows s.rest s₁.rest := by rw [Grows, hrendered]
    have hgrows' : Grows s₁.rest s.rest := by rw [Grows, hrendered]
    intro s'
    -- reading the state changes neither what was rendered nor the databag
    constructor
    · rintro ⟨hstopped, ⟨hack, hbag⟩ | h⟩
      · refine ⟨hstopped, .inl ⟨hack.trans hacknowledged, hbag.trans ?_⟩⟩
        rw [acknowledgement, hrelation, acknowledgement]
      · exact ⟨hstopped, .inr (h.of_grows hgrows)⟩
    · rintro ⟨hstopped, ⟨hack, hbag⟩ | h⟩
      · refine ⟨hstopped, .inl ⟨hack.trans hacknowledged.symm, hbag.trans ?_⟩⟩
        rw [acknowledgement, acknowledgement, hrelation]
      · exact ⟨hstopped, .inr (h.of_grows hgrows')⟩
  rw [← applyPeerState_spec force hmode hstop, reconciliation, Prog.bind_run_ok hread]
  exact (hpaused _).symm

/-- A unit in maintenance whose job workers run. -/
def busyUnit : PeerWorld Workload where
  relation :=
    some { units := [], app := { operationMode := some "maintenance" }, data := fun _ => {} }
  rest :=
    { files := fun p => if p = .composerLock then some (.text "") else none
      pebble :=
        { plan := fun s => if s ∈ jobServices then some { summary := s, command := s } else none
          running := fun s => if s ∈ jobServices then some { summary := s, command := s } else none
          planned := fun _ h => h } }

/-- Surroundings in which nothing has changed and a `replan` fails as given. -/
def replanning (failure : Option PebbleFailure) : Env where
  flag flag _ := .ok (decide (flag ≠ .certificateTransferReconcile ∧ flag ≠ .tlsReconciliation))
  composer _ := ⟨.ok 0, none⟩
  pebble call _ := if call = .replan then failure else none

/-- The leader. -/
def leader : Charm Empty := { isLeader := true }

/-- What the leader reads. -/
def readState : PeerState := { operationMode := .maintenance }

lemma busyUnit_read (failure : Option PebbleFailure) :
    readPeerState (replanning failure) leader busyUnit =
      (.ok readState, { busyUnit with rest := { busyUnit.rest with clock := 4 } }) := rfl

/-- Where nothing raises the job workers are stopped. -/
theorem paused_iff_quiet : Paused "mediawiki/0" none busyUnit
    (reconciliation (replanning none) leader false busyUnit).2 := by
  refine (paused_iff false (busyUnit_read none) rfl fun _ => rfl).2 fun huncovered => ?_
  let s₁ : PeerWorld Workload := { busyUnit with rest := { busyUnit.rest with clock := 4 } }
  have hok : (reconcileConfiguration (replanning none) leader readState false s₁).1.isOk = true := by
    decide +kernel
  have hplan : (planAndSurvey (replanning none) leader.layer false
      (reconcileConfiguration (replanning none) leader readState false s₁).2.rest).1.isOk = true := by
    decide +kernel
  unfold Uncovered at huncovered
  rcases hrun : reconcileConfiguration (replanning none) leader readState false s₁ with ⟨e | _, s₂⟩
  · rw [hrun] at hok
    cases hok
  · rw [hrun] at hplan huncovered
    obtain ⟨⟨e, w', hraised⟩, -⟩ := huncovered
    rw [hraised] at hplan
    cases hplan

/-! ### A replan that raises -/

/-- A `replan` that raises and has no effect leaves the job workers running. -/
theorem not_paused_replan : ¬ ∀ (env : Env) (charm : Charm Empty) (force : Bool)
    (peerState : PeerState) (s s₁ : PeerWorld Workload),
    readPeerState env charm s = (.ok peerState, s₁) → peerState.operationMode = .maintenance →
    (∀ n, env.pebble .stop n = none) →
    Paused charm.unit peerState.maintenanceMessage s (reconciliation env charm force s).2 := by
  intro h
  have hpaused := h (replanning (some ⟨.other "pebble.ChangeError", fun _ => .untouched⟩)) leader
    false readState busyUnit _ (busyUnit_read _) rfl fun _ => rfl
  have hrunning : (reconciliation (replanning (some ⟨.other "pebble.ChangeError",
      fun _ => .untouched⟩)) leader false busyUnit).2.rest.pebble.isRunning
        "redisJobRunnerService" = true := by decide +kernel
  rw [hpaused.stopped "redisJobRunnerService" (by decide)] at hrunning
  cases hrunning

end MaintenanceExits
end MediawikiCharm
