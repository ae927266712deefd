/-
Convergence of the services and of the restarts they owe.

A cycle of `_reconcile_services` brings the layer into the plan, looks at the services, and
then stops, starts and restarts what has to be.  The invariant is that the marker names
every running service of the group that owes a restart: whatever a call does or raises, it
adds no such service while it keeps the marker, and the marker is removed only after those
it names were restarted.
-/
import MediawikiCharm.Lib.Machine
import MediawikiCharm.Services

namespace MediawikiCharm
namespace Services

open Workload PyText

variable {env : Env} {w : Workload}

/-! ### The layer in the plan -/

/-- The services of the group are in the plan and start by name only. -/
def Planned (w : Workload) : Prop :=
  ∀ s ∈ allConditionalServices, ∃ c, w.pebble.plan s = some c ∧ c.startupEnabled = false

lemma lookup_pebbleLayer (i : LayerInputs) {s : String} (hs : s ∈ allConditionalServices) :
    ∃ c, i.pebbleLayer.services.lookup s = some c ∧ c.startupEnabled = false := by
  simp only [allConditionalServices, List.mem_cons, List.not_mem_nil, or_false] at hs
  rcases hs with rfl | rfl | rfl | rfl
  · exact ⟨_, rfl, rfl⟩
  · exact ⟨_, rfl, rfl⟩
  · exact ⟨_, rfl, rfl⟩
  · exact ⟨_, rfl, rfl⟩

lemma servicesToRun_subset (workloadActive runJobWorkers : Bool) :
    servicesToRun workloadActive runJobWorkers ⊆ allConditionalServices := by
  cases workloadActive <;> cases runJobWorkers <;> decide

lemma Planned.isSome (h : Planned w) {s : String} (hs : s ∈ allConditionalServices) :
    (w.pebble.plan s).isSome = true := by
  obtain ⟨c, hc, -⟩ := h s hs
  rw [hc]
  rfl

/-- What the plan is told leaves the services of the group as they are. -/
structure Replanned (w w' : Workload) : Prop where
  planned : Planned w'
  files : w'.files = w.files
  calmer : Pebble.Calmer w.pebble w'.pebble
  running : ∀ s ∈ allConditionalServices, w'.pebble.isRunning s = w.pebble.isRunning s
  issued : w'.pebble.issued = .replan :: w.pebble.issued

lemma Replanned.noWorse {w' : Workload} (h : Replanned w w') :
    NoWorse (fun s => s ∉ allConditionalServices) w w' :=
  ⟨h.files, h.calmer, fun s hs hrun => (h.running s (not_not.1 hs)).trans hrun⟩

/-- Nothing but a replan was issued. -/
def ReplanAtMost (w w' : Workload) : Prop :=
  w'.pebble.issued = w.pebble.issued ∨ w'.pebble.issued = .replan :: w.pebble.issued

lemma replan_spec (hplan : Planned w) :
    (replan env).wp (fun _ w' => Replanned w w')
      (fun _ w' => NoWorse (fun s => s ∉ allConditionalServices) w w' ∧
        w'.pebble.issued = .replan :: w.pebble.issued) w := by
  refine Prog.wp_bind.2 (Prog.wp_modify.2 (wp_pebbleCall (fun w' ht => ?_)
    fun e w' effect _ ht => ?_))
  · obtain ⟨n, rfl⟩ := ht
    refine ⟨hplan, rfl, Pebble.calmer_touch _ _, fun s hs => ?_, rfl⟩
    obtain ⟨c, hc, hstartup⟩ := hplan s hs
    exact Pebble.isRunning_replan hc hstartup
  · refine ⟨NoWorse.of_touch ht (Pebble.Calmer.refl _) fun s hs hrun => ⟨hrun, ?_⟩, ?_⟩
    · obtain ⟨c, hc, hstartup⟩ := hplan s (not_not.1 hs)
      exact partialEffect_ne_started (Pebble.replanEffect_of_stopped hc hstartup hrun)
    · obtain ⟨n, rfl⟩ := ht
      rfl

/-- Bringing the layer into the plan. -/
lemma planServices_spec (inputs : LayerInputs) (active : Bool) :
    (planServices env inputs active).wp (fun _ w' => Replanned w w')
      (fun _ w' => NoWorse (fun s => s ∉ allConditionalServices) w w' ∧ ReplanAtMost w w') w := by
  have hcut : ∀ {w' : Workload}, Ticked w w' →
      NoWorse (fun s => s ∉ allConditionalServices) w w' ∧ ReplanAtMost w w' := by
    intro w' ht
    refine ⟨.of_ticked ht, .inl ?_⟩
    obtain ⟨n, rfl⟩ := ht
    rfl
  refine Prog.wp_bind.2 (wp_askFlag (fun b w₁ ht₁ => ?_) fun _ _ ht => hcut ht)
  refine Prog.wp_ite.2 ⟨fun _ => hcut ht₁, fun _ => ?_⟩
  refine Prog.wp_bind.2 (wp_doStep (fun w₂ ht₂ => ?_) fun _ _ ht _ => hcut (ht₁.trans ht))
  obtain ⟨n₂, rfl⟩ := ht₁.trans ht₂
  refine Prog.wp_bind.2 (wp_pebbleCall (fun w₃ ht₃ => ?_) fun _ w' effect _ ht => ?_)
  · obtain ⟨n₃, rfl⟩ := ht₃
    refine Prog.wp_mono (replan_spec fun s hs => ?_) ?_ ?_
    · obtain ⟨c, hc, hstartup⟩ := lookup_pebbleLayer
        (if active then inputs else inputs.withoutTunnel) hs
      exact ⟨c, Pebble.addLayer_plan hc, hstartup⟩
    · rintro _ w' ⟨hplanned, hfiles, hcalm, hrun, hissued⟩
      exact ⟨hplanned, hfiles, hcalm, hrun, hissued⟩
    · rintro _ w' ⟨⟨hfiles, hcalm, hstop⟩, hissued⟩
      exact ⟨⟨hfiles, hcalm, hstop⟩, .inr hissued⟩
  · refine ⟨NoWorse.of_touch ht (Pebble.Calmer.refl _) fun s _ hrun => ⟨hrun, ?_⟩, .inl ?_⟩
    · exact partialEffect_ne_started rfl
    · obtain ⟨n, rfl⟩ := ht
      rfl

/-! ### The survey -/

/-- What a survey of services that are all in the plan finds. -/
def surveyOf (active workers : Bool) (w : Workload) : Survey where
  previouslyRunning := allConditionalServices.filter w.pebble.isRunning
  runningToStop := (allConditionalServices.filter fun s =>
    !(servicesToRun active workers).contains s).filter w.pebble.isRunning
  stoppedToStart := (servicesToRun active workers).filter fun s => !w.pebble.isRunning s

lemma filter_status (services : List String) (running : Bool) (hplan : Planned w)
    (hs : services ⊆ allConditionalServices) :
    (services.filter fun s => (w.pebble.plan s).isSome && w.pebble.isRunning s == running) =
      services.filter fun s => w.pebble.isRunning s == running := by
  refine List.filter_congr fun s hmem => ?_
  rw [hplan.isSome (hs hmem), Bool.true_and]

lemma surveyServices_spec (active workers : Bool) (hplan : Planned w) :
    (surveyServices env active workers).wp
      (fun survey w' => Checked w w' ∧ survey = surveyOf active workers w)
      (fun _ w' => Checked w w') w := by
  have hpure : ∀ w : Workload, (pure () : Prog Workload Exc Unit).wp
      (fun _ w' => Ticked w w') (fun _ w' => Ticked w w') w := fun w => Ticked.refl w
  have hget : ∀ w : Workload, (pebbleQuery env .getPlan).wp
      (fun _ w' => Ticked w w') (fun _ w' => Ticked w w') w := fun w =>
    wp_pebbleQuery (fun _ ht => ht) fun _ _ ht _ => ht
  refine Prog.wp_bind.2 (Prog.wp_mono (withStatus_spec hget true _ w) ?_ fun _ _ h => .of_ticked h)
  rintro previouslyRunning w₁ ⟨ht₁, hprev⟩
  rw [filter_status _ true hplan (List.Subset.refl _)] at hprev
  -- the checks are stopped in an inactive cycle only
  have hchecks : (if active = true then pure () else reconcileChecks env false :
      Prog Workload Exc Unit).wp (fun _ w₂ => Checked w w₂) (fun _ w₂ => Checked w w₂) w₁ := by
    refine Prog.wp_ite.2 ⟨fun _ => Checked.of_ticked ht₁, fun _ => ?_⟩
    exact Prog.wp_mono (reconcileChecks_spec false) (fun _ _ h => (Checked.of_ticked ht₁).trans h)
      fun _ _ h => (Checked.of_ticked ht₁).trans h
  refine Prog.wp_bind.2 (Prog.wp_mono hchecks ?_ fun _ _ h => h)
  rintro _ w₂ ⟨n₂, c₂, rfl⟩
  refine Prog.wp_bind.2 (wp_pebbleQuery (fun w₃ ht₃ => ?_) fun _ _ ht _ =>
    Checked.trans ⟨n₂, c₂, rfl⟩ (.of_ticked ht))
  refine Prog.wp_bind.2 (Prog.wp_mono (withStatus_spec hpure true _ w₃) ?_ fun _ _ h =>
    Checked.trans ⟨n₂, c₂, rfl⟩ (.of_ticked (ht₃.trans h)))
  rintro runningToStop w₄ ⟨ht₄, hstop⟩
  refine Prog.wp_bind.2 (Prog.wp_mono (withStatus_spec hpure false _ w₄) ?_ fun _ _ h =>
    Checked.trans ⟨n₂, c₂, rfl⟩ (.of_ticked ((ht₃.trans ht₄).trans h)))
  rintro stoppedToStart w₅ ⟨ht₅, hstart⟩
  obtain ⟨n₄, rfl⟩ := ht₃.trans ht₄
  obtain ⟨n₃, rfl⟩ := ht₃
  refine Prog.wp_pure.2 ⟨Checked.trans ⟨n₂, c₂, rfl⟩ (.of_ticked (Ticked.trans ⟨n₄, rfl⟩ ht₅)), ?_⟩
  have hstop' := filter_status (allConditionalServices.filter fun s =>
    !(servicesToRun active workers).contains s) true hplan fun s hs => List.mem_of_mem_filter hs
  have hstart' := filter_status _ false hplan (servicesToRun_subset active workers)
  subst hprev hstop hstart
  simp only [surveyOf, Survey.mk.injEq]
  refine ⟨?_, ?_, ?_⟩
  · simp
  · exact hstop'.trans (by simp)
  · exact hstart'.trans (List.filter_congr fun s _ => by simp)

/-! ### Stopping, starting and restarting -/

/-- What an active cycle makes of the services it is to run: they run and the others of the
group do not, and only those the marker did not name may still owe a restart. -/
structure Converged (toRun : List String) (w w' : Workload) : Prop where
  files : w'.files = (w.setFile .restartRequired none).files
  running : ∀ s ∈ allConditionalServices, w'.pebble.isRunning s = toRun.contains s
  owed : ∀ s ∈ toRun, w'.pebble.owed s = true →
    w.pebble.owed s = true ∧ w.pebble.isRunning s = true ∧ s ∉ pendingIn w

/-- The end of an active cycle, for services that were running before it and stay. -/
lemma finishActiveServiceReconciliation_spec (previouslyRunning : List String)
    (hplan : ∀ s ∈ previouslyRunning, (w.pebble.plan s).isSome = true) :
    (finishActiveServiceReconciliation env previouslyRunning).wp
      (fun _ w' => ∃ w₁, Becomes (fun s => w.pebble.isRunning s ||
          (previouslyRunning.filter (pendingIn w).contains).contains s)
        (fun s => w.pebble.owed s && !(previouslyRunning.filter (pendingIn w).contains).contains s)
        w w₁ ∧ Checked (w₁.setFile .restartRequired none) w')
      (fun _ w' => NoWorse (fun s => s ∈ previouslyRunning) w w' ∨
        ∃ w₁, Becomes (fun s => w.pebble.isRunning s ||
          (previouslyRunning.filter (pendingIn w).contains).contains s)
        (fun s => w.pebble.owed s && !(previouslyRunning.filter (pendingIn w).contains).contains s)
        w w₁ ∧ Checked (w₁.setFile .restartRequired none) w') w := by
  refine Prog.wp_bind.2 (Prog.wp_mono pendingServiceRestarts_spec ?_ fun _ _ h => .inl (.of_ticked h))
  rintro pending w₁ ⟨⟨n₁, rfl⟩, rfl⟩
  have hdue : ∀ s ∈ previouslyRunning.filter (pendingIn w).contains,
      (w.pebble.plan s).isSome = true := fun s hs => hplan s (List.mem_of_mem_filter hs)
  refine Prog.wp_bind.2 (Prog.wp_mono (restart_spec _ hdue) ?_ ?_)
  · rintro _ w₂ ⟨hfiles, hplan₂, hrun, howed⟩
    have hfiles : w₂.files = w.files := hfiles
    have hbecomes : Becomes (fun s => w.pebble.isRunning s ||
          (previouslyRunning.filter (pendingIn w).contains).contains s)
        (fun s => w.pebble.owed s && !(previouslyRunning.filter (pendingIn w).contains).contains s)
        w w₂ := ⟨hfiles, hplan₂, hrun, howed⟩
    refine Prog.wp_bind.2 (wp_unlink (fun w₃ ht₃ => ?_) fun _ w' ht _ => .inl ?_)
    · refine Prog.wp_mono (reconcileChecks_spec true) ?_ ?_
      · exact fun _ w' h => ⟨w₂, hbecomes, (Checked.of_ticked ht₃).trans h⟩
      · exact fun _ w' h => .inr ⟨w₂, hbecomes, (Checked.of_ticked ht₃).trans h⟩
    · -- the marker could not be removed
      obtain ⟨n, rfl⟩ := ht
      refine ⟨hfiles, fun s ho hr => ?_, fun s hs hidle => (hrun s).trans ?_⟩
      · rw [howed s] at ho
        rw [hrun s] at hr
        simp only [Bool.and_eq_true, Bool.not_eq_true', Bool.or_eq_true] at ho hr
        refine ⟨ho.1, hr.resolve_right fun h => ?_⟩
        rw [ho.2] at h
        cases h
      · have hmem : s ∉ previouslyRunning.filter (pendingIn w).contains := fun h =>
          hs (List.mem_of_mem_filter h)
        simpa [hmem] using hidle
  · rintro _ w' ⟨hfiles, hcalm, hstop⟩
    exact .inl ⟨hfiles, hcalm, fun s hs hrun => hstop s (fun h => hs (List.mem_of_mem_filter h)) hrun⟩

lemma mem_runningToStop {active workers : Bool} {s : String} :
    s ∈ (surveyOf active workers w).runningToStop ↔ s ∈ allConditionalServices ∧
      s ∉ servicesToRun active workers ∧ w.pebble.isRunning s = true := by
  simp only [surveyOf, List.mem_filter, List.contains_eq_mem, Bool.not_eq_true',
    decide_eq_false_iff_not, and_assoc]

lemma mem_stoppedToStart {active workers : Bool} {s : String} :
    s ∈ (surveyOf active workers w).stoppedToStart ↔
      s ∈ servicesToRun active workers ∧ w.pebble.isRunning s = false := by
  simp [surveyOf]

lemma mem_previouslyRunning {active workers : Bool} {s : String} :
    s ∈ (servicesToRun active workers).filter
        (surveyOf active workers w).previouslyRunning.contains ↔
      s ∈ servicesToRun active workers ∧ w.pebble.isRunning s = true := by
  have hsub := servicesToRun_subset active workers
  simp only [surveyOf, List.mem_filter, List.contains_eq_mem, decide_eq_true_eq]
  constructor
  · rintro ⟨hs, -, hrun⟩
    exact ⟨hs, hrun⟩
  · rintro ⟨hs, hrun⟩
    exact ⟨hs, hsub hs, hrun⟩

/-- The services before the end of a cycle. -/
structure Prepared (active workers : Bool) (w w' : Workload) : Prop where
  noWorse : NoWorse (fun s => s ∈ servicesToRun active workers) w w'
  plan : w'.pebble.plan = w.pebble.plan
  running : ∀ s ∈ allConditionalServices,
    w'.pebble.isRunning s = (servicesToRun active workers).contains s
  owed : ∀ s ∈ servicesToRun active workers, w'.pebble.owed s = true →
    w.pebble.owed s = true ∧ w.pebble.isRunning s = true

/-- The others of the group are stopped. -/
lemma stopped_of_stop {active workers : Bool} {w' : Workload}
    (h : Becomes (fun s => w.pebble.isRunning s &&
      !(surveyOf active workers w).runningToStop.contains s) w.pebble.owed w w') {s : String}
    (hs : s ∈ allConditionalServices) (hrun : s ∉ servicesToRun active workers) :
    w'.pebble.isRunning s = false := by
  rw [h.running s]
  cases hs' : w.pebble.isRunning s with
  | false => rfl
  | true =>
    have hmem := mem_runningToStop.2 ⟨hs, hrun, hs'⟩
    simpa using hmem

/-- The others of the group are stopped and the services to run are started. -/
lemma prepared_of_start {active workers : Bool} {w₁ w₂ : Workload}
    (h₁ : Becomes (fun s => w.pebble.isRunning s &&
      !(surveyOf active workers w).runningToStop.contains s) w.pebble.owed w w₁)
    (h₂ : Becomes (fun s => w₁.pebble.isRunning s ||
        (surveyOf active workers w).stoppedToStart.contains s)
      (fun s => w₁.pebble.owed s && !((surveyOf active workers w).stoppedToStart.contains s &&
        !w₁.pebble.isRunning s)) w₁ w₂) : Prepared active workers w w₂ := by
  have hkept : ∀ s ∈ servicesToRun active workers,
      w₁.pebble.isRunning s = w.pebble.isRunning s := by
    intro s hs
    have hstop : s ∉ (surveyOf active workers w).runningToStop := fun h =>
      (mem_runningToStop.1 h).2.1 hs
    rw [h₁.running s]
    simp [hstop]
  have hrun : ∀ s, w₁.pebble.isRunning s = true → w.pebble.isRunning s = true := by
    intro s h
    rw [h₁.running s, Bool.and_eq_true] at h
    exact h.1
  have howed : ∀ s, w₂.pebble.owed s = true → w.pebble.owed s = true ∧
      (s ∈ (surveyOf active workers w).stoppedToStart → w₁.pebble.isRunning s = true) := by
    intro s h
    rw [h₂.owed s, h₁.owed s] at h
    simpa [imp_iff_not_or] using h
  refine ⟨⟨h₂.files.trans h₁.files, ?_, ?_⟩, h₂.plan.trans h₁.plan, ?_, ?_⟩
  · intro s ho hr
    rw [h₂.running s, Bool.or_eq_true, List.contains_iff_mem] at hr
    obtain ⟨ho', hstart⟩ := howed s ho
    exact ⟨ho', hrun s (hr.elim id hstart)⟩
  · intro s hs hidle
    have hstart : s ∉ (surveyOf active workers w).stoppedToStart := fun h =>
      hs (mem_stoppedToStart.1 h).1
    rw [h₂.running s, h₁.running s]
    simp [hidle, hstart]
  · intro s hs
    rw [h₂.running s]
    by_cases hmem : s ∈ servicesToRun active workers
    · rw [hkept s hmem]
      cases hr : w.pebble.isRunning s with
      | true => simp [hmem]
      | false => simp [hmem, mem_stoppedToStart.2 ⟨hmem, hr⟩]
    · rw [stopped_of_stop h₁ hs hmem]
      have hstart : s ∉ (surveyOf active workers w).stoppedToStart := fun h =>
        hmem (mem_stoppedToStart.1 h).1
      simp [hstart, hmem]
  · intro s hs ho
    obtain ⟨ho', hstart⟩ := howed s ho
    refine ⟨ho', ?_⟩
    by_contra hidle
    have hidle : w.pebble.isRunning s = false := by simpa using hidle
    have h := hrun s (hstart (mem_stoppedToStart.2 ⟨hs, hidle⟩))
    rw [hidle] at h
    cases h

/-- A service that the marker names is restarted if it stays running. -/
lemma Prepared.converged {active workers : Bool} {w₂ w₃ w' : Workload}
    {previouslyRunning : List String} (h : Prepared active workers w w₂)
    (hprev : ∀ s, s ∈ previouslyRunning ↔
      s ∈ servicesToRun active workers ∧ w.pebble.isRunning s = true)
    (h₃ : Becomes (fun s => w₂.pebble.isRunning s ||
        (previouslyRunning.filter (pendingIn w₂).contains).contains s)
      (fun s => w₂.pebble.owed s && !(previouslyRunning.filter (pendingIn w₂).contains).contains s)
      w₂ w₃) (hw' : Checked (w₃.setFile .restartRequired none) w') :
    Converged (servicesToRun active workers) w w' := by
  have hpending : pendingIn w₂ = pendingIn w := pendingIn_congr h.noWorse.files
  have hfiles : w₃.files = w.files := h₃.files.trans h.noWorse.files
  obtain ⟨n, c, rfl⟩ := hw'
  refine ⟨?_, fun s hs => ?_, fun s hs ho => ?_⟩
  · show (w₃.setFile .restartRequired none).files = _
    rw [setFile, hfiles, setFile]
  · show w₃.pebble.isRunning s = _
    rw [h₃.running s, h.running s hs]
    by_cases hmem : s ∈ servicesToRun active workers
    · simp [hmem]
    · have hdue : s ∉ previouslyRunning := fun h => hmem ((hprev s).1 h).1
      simp [hmem, hdue]
  · have ho : w₃.pebble.owed s = true := ho
    rw [h₃.owed s, hpending, Bool.and_eq_true] at ho
    obtain ⟨ho₂, hdue⟩ := ho
    obtain ⟨ho', hrun⟩ := h.owed s hs ho₂
    refine ⟨ho', hrun, fun hmem => ?_⟩
    have hstays := (hprev s).2 ⟨hs, hrun⟩
    simp [hstays, hmem] at hdue

/-- Some `stop` of the surroundings raises. -/
def StopRaises (env : Env) : Prop := ∃ n, env.pebble .stop n ≠ none

/-- From the first `stop` on: however it ends, no service owes a restart that the marker
does not name, and once the `stop` has returned the others of the group are stopped. -/
lemma applyServices_spec (active workers : Bool) (hplan : Planned w) :
    (applyServices env active workers (surveyOf active workers w)).wp
      (fun _ w' => (∀ s ∈ allConditionalServices, w'.pebble.isRunning s =
          (servicesToRun active workers).contains s) ∧
        (active = true → Converged (servicesToRun active workers) w w') ∧
        (active = false → NoWorse (fun s => s ∈ servicesToRun active workers) w w'))
      (fun _ w' => (StopRaises env ∨ ∀ s ∈ allConditionalServices,
          s ∉ servicesToRun active workers → w'.pebble.isRunning s = false) ∧
        (NoWorse (fun s => s ∈ servicesToRun active workers) w w' ∨
          active = true ∧ Converged (servicesToRun active workers) w w')) w := by
  have hsub := servicesToRun_subset active workers
  refine Prog.wp_bind.2 (Prog.wp_mono (stop_spec _) ?_ ?_)
  · intro _ w₁ h₁
    have hstopped := fun s hs hrun => @stopped_of_stop w active workers w₁ h₁ s hs hrun
    have hstart : ∀ s ∈ (surveyOf active workers w).stoppedToStart,
        (w₁.pebble.plan s).isSome = true := by
      intro s hs
      rw [h₁.plan]
      exact hplan.isSome (hsub (mem_stoppedToStart.1 hs).1)
    refine Prog.wp_bind.2 (Prog.wp_mono (start_spec _ hstart) ?_ ?_)
    · intro _ w₂ h₂
      have hprepared := prepared_of_start h₁ h₂
      refine Prog.wp_ite.2 ⟨fun hactive => ?_, fun hinactive => ?_⟩
      · have hprev : ∀ s ∈ (servicesToRun active workers).filter
            (surveyOf active workers w).previouslyRunning.contains,
            (w₂.pebble.plan s).isSome = true := by
          intro s hs
          rw [hprepared.plan]
          exact hplan.isSome (hsub (List.mem_of_mem_filter hs))
        refine Prog.wp_mono (finishActiveServiceReconciliation_spec _ hprev) ?_ ?_
        · rintro _ w' ⟨w₃, h₃, hw'⟩
          have hconv := hprepared.converged (fun s => mem_previouslyRunning) h₃ hw'
          exact ⟨hconv.running, fun _ => hconv, fun h => absurd (hactive.symm.trans h) (by decide)⟩
        · rintro _ w' (hcut | ⟨w₃, h₃, hw'⟩)
          · have hcut' : NoWorse (fun s => s ∈ servicesToRun active workers) w₂ w' :=
              ⟨hcut.files, hcut.calmer, fun s hs =>
                hcut.stopped s fun h => hs (List.mem_of_mem_filter h)⟩
            refine ⟨.inr fun s hs hrun => hcut'.stopped s hrun ?_,
              .inl (hprepared.noWorse.trans hcut')⟩
            rw [hprepared.running s hs]
            simpa using hrun
          · have hconv := hprepared.converged (fun s => mem_previouslyRunning) h₃ hw'
            refine ⟨.inr fun s hs hrun => ?_, .inr ⟨hactive, hconv⟩⟩
            rw [hconv.running s hs]
            simpa using hrun
      · exact Prog.wp_pure.2 ⟨hprepared.running, fun h => absurd h hinactive,
          fun _ => hprepared.noWorse⟩
    · -- a start that raised may have started services to run only
      intro _ w' hcut
      have hcut' : NoWorse (fun s => s ∈ servicesToRun active workers) w₁ w' :=
        ⟨hcut.files, hcut.calmer, fun s hs => hcut.stopped s fun h => hs (mem_stoppedToStart.1 h).1⟩
      have hnoWorse : NoWorse (fun s => s ∈ servicesToRun active workers) w w₁ := by
        refine ⟨h₁.files, fun s ho hr => ?_, fun s _ hidle => ?_⟩
        · rw [h₁.owed s] at ho
          rw [h₁.running s, Bool.and_eq_true] at hr
          exact ⟨ho, hr.1⟩
        · rw [h₁.running s, hidle, Bool.false_and]
      exact ⟨.inr fun s hs hrun => hcut'.stopped s hrun (hstopped s hs hrun),
        .inl (hnoWorse.trans hcut')⟩
  · rintro _ w' ⟨hraises, hcut⟩
    refine ⟨.inl hraises, .inl ⟨hcut.files, hcut.calmer, fun s _ hidle => ?_⟩⟩
    refine hcut.stopped s (fun h => ?_) hidle
    rw [(mem_runningToStop.1 h).2.2] at hidle
    cases hidle

/-! ### A cycle -/

lemma NoWorse.mono {starting starting' : String → Prop} {w w' : Workload}
    (h : NoWorse starting w w') (hsub : ∀ s, starting s → starting' s) :
    NoWorse starting' w w' :=
  ⟨h.files, h.calmer, fun s hs hrun => h.stopped s (fun h' => hs (hsub s h')) hrun⟩

/-- What is left of a cycle once the layer is in the plan. -/
lemma surveyAndApply_spec (active workers : Bool) (hplan : Planned w) :
    (do
      let survey ← surveyServices env active workers
      applyServices env active workers survey : Prog Workload Exc Unit).wp
      (fun _ w' => (∀ s ∈ allConditionalServices, w'.pebble.isRunning s =
          (servicesToRun active workers).contains s) ∧
        (active = true → Converged (servicesToRun active workers) w w') ∧
        (active = false → NoWorse (fun s => s ∈ servicesToRun active workers) w w'))
      (fun _ w' => NoWorse (fun s => s ∈ servicesToRun active workers) w w' ∨
        active = true ∧ Converged (servicesToRun active workers) w w') w := by
  refine Prog.wp_bind.2 (Prog.wp_mono (surveyServices_spec active workers hplan) ?_
    fun _ _ h => .inl (h.noWorse _))
  rintro survey w₁ ⟨hw₁, rfl⟩
  -- the survey has changed the checks only
  have hplan₁ : Planned w₁ := by
    obtain ⟨n, c, rfl⟩ := hw₁
    exact hplan
  have hsurvey : surveyOf active workers w = surveyOf active workers w₁ := by
    obtain ⟨n, c, rfl⟩ := hw₁
    rfl
  rw [hsurvey]
  refine Prog.wp_mono (applyServices_spec active workers hplan₁) ?_ ?_
  all_goals obtain ⟨n, c, rfl⟩ := hw₁
  · rintro _ w' ⟨hrun, hconv, hcut⟩
    refine ⟨hrun, fun h => ?_, fun h => ?_⟩
    · obtain ⟨hfiles, hrunning, howed⟩ := hconv h
      exact ⟨hfiles, hrunning, howed⟩
    · obtain ⟨hfiles, hcalm, hstop⟩ := hcut h
      exact ⟨hfiles, hcalm, hstop⟩
  · rintro _ w' ⟨-, ⟨hfiles, hcalm, hstop⟩ | ⟨hactive, hfiles, hrunning, howed⟩⟩
    · exact .inl ⟨hfiles, hcalm, hstop⟩
    · exact .inr ⟨hactive, hfiles, hrunning, howed⟩

/-- A cycle: before its end it makes nothing worse, and an active cycle that gets there has
brought the services to their target. -/
lemma reconcileServices_spec (inputs : LayerInputs) (active workers : Bool) :
    (reconcileServices env inputs active workers).wp
      (fun _ w' => (∀ s ∈ allConditionalServices, w'.pebble.isRunning s =
          (servicesToRun active workers).contains s) ∧
        ∃ w₁, NoWorse (fun s => s ∉ allConditionalServices) w w₁ ∧
          (active = true → Converged (servicesToRun active workers) w₁ w') ∧
          (active = false → NoWorse (fun s => s ∈ servicesToRun active workers) w₁ w'))
      (fun _ w' => ∃ w₁, NoWorse (fun s => s ∉ allConditionalServices) w w₁ ∧
        (NoWorse (fun s => s ∈ servicesToRun active workers) w₁ w' ∨
          active = true ∧ Converged (servicesToRun active workers) w₁ w')) w := by
  refine Prog.wp_bind.2 (Prog.wp_mono (planServices_spec inputs active) ?_ ?_)
  · intro _ w₁ h₁
    refine Prog.wp_mono (surveyAndApply_spec active workers h₁.planned) ?_ ?_
    · rintro _ w' ⟨hrun, hconv, hcut⟩
      exact ⟨hrun, w₁, h₁.noWorse, hconv, hcut⟩
    · exact fun _ w' h => ⟨w₁, h₁.noWorse, h⟩
  · rintro _ w' ⟨hcut, -⟩
    exact ⟨w', hcut, .inl (.of_ticked (Ticked.refl w'))⟩

/-! ### The invariant -/

/-- The marker names every running service of the group that owes a restart. -/
def MarkerComplete (w : Workload) : Prop :=
  ∀ s ∈ allConditionalServices, w.pebble.owed s = true → w.pebble.isRunning s = true →
    s ∈ pendingIn w

lemma MarkerComplete.noWorse {w w' : Workload} {starting : String → Prop} (h : MarkerComplete w)
    (hw : NoWorse starting w w') : MarkerComplete w' := by
  intro s hs ho hr
  obtain ⟨ho', hr'⟩ := hw.calmer s ho hr
  rw [pendingIn_congr hw.files]
  exact h s hs ho' hr'

/-- At the end of an active cycle no service of the target owes a restart. -/
lemma MarkerComplete.owed_converged {w w' : Workload} {toRun : List String}
    (h : MarkerComplete w) (hsub : toRun ⊆ allConditionalServices) (hw : Converged toRun w w')
    {s : String} (hs : s ∈ toRun) : w'.pebble.owed s = false := by
  by_contra ho
  obtain ⟨ho', hr, hmem⟩ := hw.owed s hs (by simpa using ho)
  exact hmem (h s (hsub hs) ho' hr)

lemma MarkerComplete.converged {w w' : Workload} {toRun : List String} (h : MarkerComplete w)
    (hsub : toRun ⊆ allConditionalServices) (hw : Converged toRun w w') : MarkerComplete w' := by
  intro s hs ho hr
  have hmem : s ∈ toRun := by
    rw [hw.running s hs] at hr
    simpa using hr
  rw [h.owed_converged hsub hw hmem] at ho
  cases ho

lemma word_of_mem_allConditionalServices {s : String} (hs : s ∈ allConditionalServices) :
    Word s := by
  simp only [allConditionalServices, List.mem_cons, List.not_mem_nil, or_false] at hs
  have hword : ∀ s : String, (s.toList ≠ [] ∧ s.toList.all fun c => !isSpace (ofChar c)) → Word s :=
    fun s h => ⟨h.1, fun c hc => by simpa using List.all_eq_true.1 h.2 c hc⟩
  rcases hs with rfl | rfl | rfl | rfl
  all_goals exact hword _ (by decide)

lemma MarkerComplete.request (h : MarkerComplete w) (services : List String) :
    MarkerComplete (requestServiceRestart env services w).2 := by
  refine Prog.wp_state (requestServiceRestart_spec services) ?_ ?_
  · rintro _ w' ⟨hpebble, hpending⟩ s hs ho hr
    rw [hpebble] at ho hr
    refine hpending s (word_of_mem_allConditionalServices hs) ?_
    simp only [Pebble.owe, Bool.or_eq_true, List.contains_iff_mem] at ho
    exact ho.imp_left fun ho => h s hs ho hr
  · rintro _ w' ⟨hfiles, hpebble⟩ s hs ho hr
    rw [hpebble] at ho hr
    rw [pendingIn_congr hfiles]
    exact h s hs ho hr

lemma MarkerComplete.cycle (h : MarkerComplete w) (inputs : LayerInputs) (active workers : Bool) :
    MarkerComplete (reconcileServices env inputs active workers w).2 := by
  have hsub := servicesToRun_subset active workers
  refine Prog.wp_state (reconcileServices_spec inputs active workers) ?_ ?_
  · rintro _ w' ⟨-, w₁, h₁, hconv, hcut⟩
    cases hactive : active with
    | true => exact (h.noWorse h₁).converged hsub (hconv hactive)
    | false => exact (h.noWorse h₁).noWorse (hcut hactive)
  · rintro _ w' ⟨w₁, h₁, hcut | ⟨-, hconv⟩⟩
    · exact (h.noWorse h₁).noWorse hcut
    · exact (h.noWorse h₁).converged hsub hconv

/-! ### A cycle with nothing to do -/

lemma issued_of_checked {w w' : Workload} (h : Checked w w') :
    w'.pebble.issued = w.pebble.issued := by
  obtain ⟨n, c, rfl⟩ := h
  rfl

lemma surveyOf_eq_nil {active workers : Bool} (h : ∀ s ∈ allConditionalServices,
    w.pebble.isRunning s = (servicesToRun active workers).contains s) :
    (surveyOf active workers w).runningToStop = [] ∧
      (surveyOf active workers w).stoppedToStart = [] := by
  constructor
  · refine List.eq_nil_iff_forall_not_mem.2 fun s hs => ?_
    obtain ⟨hall, hmem, hrun⟩ := mem_runningToStop.1 hs
    rw [h s hall] at hrun
    exact hmem (by simpa using hrun)
  · refine List.eq_nil_iff_forall_not_mem.2 fun s hs => ?_
    obtain ⟨hmem, hrun⟩ := mem_stoppedToStart.1 hs
    rw [h s (servicesToRun_subset active workers hmem)] at hrun
    simp [hmem] at hrun

/-- Without a pending restart the end of an active cycle issues nothing. -/
lemma finishActiveServiceReconciliation_idle (previouslyRunning : List String)
    (h : pendingIn w = []) : (finishActiveServiceReconciliation env previouslyRunning).wp
      (fun _ w' => w'.pebble.issued = w.pebble.issued)
      (fun _ w' => w'.pebble.issued = w.pebble.issued) w := by
  refine Prog.wp_bind.2 (Prog.wp_mono pendingServiceRestarts_spec ?_
    fun _ _ ht => issued_of_checked (.of_ticked ht))
  rintro pending w₁ ⟨⟨n₁, rfl⟩, rfl⟩
  have hdue : previouslyRunning.filter (pendingIn w).contains = [] := by
    rw [h]
    simp
  rw [hdue]
  refine Prog.wp_bind.2 (Prog.wp_ite.2 ⟨fun hne => absurd rfl hne, fun _ => Prog.wp_pure.2 ?_⟩)
  refine Prog.wp_bind.2 (wp_unlink (fun w₂ ht₂ => ?_) fun _ _ ht _ =>
    issued_of_checked (.of_ticked ht))
  obtain ⟨n₂, rfl⟩ := ht₂
  exact Prog.wp_mono (reconcileChecks_spec true) (fun _ _ h => (issued_of_checked h).trans rfl)
    fun _ _ h => (issued_of_checked h).trans rfl

/-- A cycle that finds the services at their target and no marker issues a replan at most. -/
lemma reconcileServices_idle (inputs : LayerInputs) (active workers : Bool)
    (hrun : ∀ s ∈ allConditionalServices,
      w.pebble.isRunning s = (servicesToRun active workers).contains s)
    (hpending : pendingIn w = []) :
    ReplanAtMost w (reconcileServices env inputs active workers w).2 := by
  suffices h : (reconcileServices env inputs active workers).wp (fun _ w' => ReplanAtMost w w')
      (fun _ w' => ReplanAtMost w w') w from Prog.wp_state h (fun _ _ h => h) fun _ _ h => h
  refine Prog.wp_bind.2 (Prog.wp_mono (planServices_spec inputs active) ?_ fun _ _ h => h.2)
  intro _ w₁ h₁
  have hissued : ∀ {w' : Workload}, w'.pebble.issued = w₁.pebble.issued → ReplanAtMost w w' :=
    fun h => .inr (h.trans h₁.issued)
  refine Prog.wp_bind.2 (Prog.wp_mono (surveyServices_spec active workers h₁.planned) ?_
    fun _ _ h => hissued (issued_of_checked h))
  rintro survey w₂ ⟨hw₂, rfl⟩
  have hrun₁ : ∀ s ∈ allConditionalServices,
      w₁.pebble.isRunning s = (servicesToRun active workers).contains s := fun s hs =>
    (h₁.running s hs).trans (hrun s hs)
  obtain ⟨hstop, hstart⟩ := surveyOf_eq_nil hrun₁
  have hpending₂ : pendingIn w₂ = [] := by
    obtain ⟨n, c, rfl⟩ := hw₂
    exact (@pendingIn_congr w w₁ h₁.files).trans hpending
  rw [applyServices, hstop, hstart]
  refine Prog.wp_ite.2 ⟨fun _ => ?_, fun _ => hissued (issued_of_checked hw₂)⟩
  refine Prog.wp_mono (finishActiveServiceReconciliation_idle _ hpending₂) ?_ ?_
  · exact fun _ _ h => hissued (h.trans (issued_of_checked hw₂))
  · exact fun _ _ h => hissued (h.trans (issued_of_checked hw₂))

/-! ### Runs -/

/-- A call of the charm, with the surroundings it meets. -/
inductive Call
  | request (env : Env) (services : List String)
  | cycle (env : Env) (inputs : LayerInputs) (workloadActive runJobWorkers : Bool)

/-- What a call does. -/
def Call.program : Call → Prog Workload Exc Unit
  | .request env services => requestServiceRestart env services
  | .cycle env inputs active workers => reconcileServices env inputs active workers

/-- Calls in any order, from any services and files and before any request. -/
def machine : Machine Workload Call where
  init w := ∀ s, w.pebble.owed s = false
  step w call w' := w' = (call.program w).2

lemma markerComplete_invariant : machine.Invariant MarkerComplete where
  init w h := by
    intro s _ ho
    rw [h s] at ho
    cases ho
  step w call w' h hstep := by
    subst hstep
    cases call with
    | request env services => exact h.request services
    | cycle env inputs active workers => exact h.cycle inputs active workers

/-- No restart is lost: in every state of every run the marker names each running service of
the group that owes one.  An active cycle that returns brings the services to their target,
none of which owes a restart then, and the same cycle again issues at most a replan. -/
theorem services_converge {w : Workload} (h : machine.Reachable w) :
    (∀ s ∈ allConditionalServices, w.pebble.owed s = true → w.pebble.isRunning s = true →
      s ∈ pendingIn w) ∧
    ∀ env inputs workers w', reconcileServices env inputs true workers w = (.ok (), w') →
      (∀ s ∈ allConditionalServices,
        w'.pebble.isRunning s = true ↔ s ∈ servicesToRun true workers) ∧
      (∀ s ∈ servicesToRun true workers, w'.pebble.owed s = false) ∧
      ∀ env', ReplanAtMost w' (reconcileServices env' inputs true workers w').2 := by
  have hmarker := markerComplete_invariant.reachable h
  refine ⟨hmarker, fun env inputs workers w' hrun => ?_⟩
  obtain ⟨hrunning, w₁, h₁, hconv, -⟩ :=
    Prog.wp_of_ok (reconcileServices_spec inputs true workers) hrun
  have hconv := hconv rfl
  refine ⟨fun s hs => ?_, fun s hs => ?_, fun env' => ?_⟩
  · rw [hrunning s hs]
    simp
  · exact (hmarker.noWorse h₁).owed_converged (servicesToRun_subset true workers) hconv hs
  · have hpending : pendingIn w' = [] := by
      rw [pendingIn, hconv.files, setFile_files_self]
    exact reconcileServices_idle inputs true workers hrunning hpending

/-- Surroundings in which nothing raises. -/
def calm : Env := .quiet ⟨.ok 0, none⟩

/-- Surroundings in which Pebble refuses to restart services. -/
def refusing : Env where
  composer := calm.composer
  pebble call _ := if call = .restart then some { error := .pebble "timeout" } else none

/-- The services run and PHP-FPM is asked to restart. -/
def requestedRestart : Workload :=
  ((Call.request calm ["php-fpm"]).program ((Call.cycle calm {} true true).program {}).2).2

/-- The next cycle fails to restart it. -/
def refusedRestart : Workload := ((Call.cycle refusing {} true true).program requestedRestart).2

theorem services_converge_request :
    (reconcileServices refusing {} true true requestedRestart).1.isOk = false ∧
      "php-fpm" ∈ pendingIn refusedRestart ∧
      ∃ w', reconcileServices calm {} true true refusedRestart = (.ok (), w') ∧
        (∀ s ∈ allConditionalServices, w'.pebble.isRunning s = true) ∧
        ∀ s ∈ allConditionalServices, w'.pebble.owed s = false := by
  have hreach : machine.Reachable refusedRestart :=
    .step (l := .cycle refusing {} true true) (.step (l := .request calm ["php-fpm"])
      (.step (l := .cycle calm {} true true) (.init fun _ => rfl) rfl) rfl) rfl
  obtain ⟨hmarker, hcycle⟩ := services_converge hreach
  have hraised : (reconcileServices refusing {} true true requestedRestart).1.isOk = false := by
    decide +kernel
  have howed : refusedRestart.pebble.owed "php-fpm" = true := by decide +kernel
  have hruns : refusedRestart.pebble.isRunning "php-fpm" = true := by decide +kernel
  have hreturns : (reconcileServices calm {} true true refusedRestart).1.isOk = true := by
    decide +kernel
  refine ⟨hraised, hmarker "php-fpm" (by simp [allConditionalServices]) howed hruns, ?_⟩
  rcases hrun : reconcileServices calm {} true true refusedRestart with ⟨e | ⟨⟩, w'⟩
  · rw [hrun] at hreturns
    cases hreturns
  · obtain ⟨hrunning, hsettled, -⟩ := hcycle calm {} true w' hrun
    exact ⟨w', rfl, fun s hs => (hrunning s hs).2 hs, hsettled⟩

end Services
end MediawikiCharm
