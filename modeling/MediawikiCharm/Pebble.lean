/-
Pebble, the service manager of the workload container.

A service runs with the configuration it was started with, which may differ from the one
in the plan.  A call that succeeds takes effect on exactly the services it names; a call
that raises may have had an effect on each of them or not.  `replan` restarts the running
services whose configuration changed and starts those with an enabled startup.

Two histories stand beside the state: the services that have not been started since a
restart was asked for, and the calls that were issued.
-/
import Mathlib.Data.Finset.Sort
import Mathlib.Logic.Function.Basic

namespace MediawikiCharm

/-- A service in a layer or in the plan. -/
structure ServiceConfig where
  summary : String
  command : String
  startupEnabled : Bool := false
  user : Option String := none
  group : Option String := none
  environment : List (String × String) := []
  requires : List String := []
  after : List String := []
  onSuccess : Option String := none
  onFailure : Option String := none
deriving DecidableEq

/-- A layer: its services, which replace those of the plan, and its checks with whether
they are active from the start. -/
structure Layer where
  services : List (String × ServiceConfig)
  checks : List (String × Bool)

/-- The calls that may raise. -/
inductive PebbleCall
  | addLayer | replan | getPlan | getService | start | stop | restart
  | getCheck | startChecks | stopChecks
deriving DecidableEq

/-- What a call does to a service. -/
inductive Effect
  | untouched
  | stopped
  /-- started, or started anew -/
  | started
deriving DecidableEq

/-- A call that was issued. -/
inductive Issued
  | replan
  | start (services : List String)
  | stop (services : List String)
  | restart (services : List String)
deriving DecidableEq

/-- Nothing runs and nothing is planned. -/
lemma nothing_planned : ∀ _s : String, (none : Option ServiceConfig).isSome = true →
    (none : Option ServiceConfig).isSome = true :=
  fun _ h => h

/-- The state of Pebble and its history. -/
structure Pebble where
  plan : String → Option ServiceConfig := fun _ => none
  /-- The configuration a running service was started with. -/
  running : String → Option ServiceConfig := fun _ => none
  /-- The checks of the plan and whether they are active. -/
  checks : String → Option Bool := fun _ => none
  /-- A restart was asked for and the service has not been started since. -/
  owed : String → Bool := fun _ => false
  issued : List Issued := []
  /-- Only services of the plan run. -/
  planned : ∀ s, (running s).isSome = true → (plan s).isSome = true := by
    first | exact nothing_planned | simp

namespace Pebble

/-- `is_running` -/
def isRunning (p : Pebble) (service : String) : Bool := (p.running service).isSome

/-- Add a layer with `combine=True`. -/
def addLayer (layer : Layer) (p : Pebble) : Pebble :=
  { p with
    plan := fun s => (layer.services.lookup s).or (p.plan s)
    checks := fun c => (p.checks c).or (layer.checks.lookup c)
    planned := fun s h => by simp [p.planned s h] }

/-- Let a call have its effect on every service. -/
def touch (effect : String → Effect) (p : Pebble) : Pebble :=
  { p with
    running := fun s =>
      match effect s with
      | .untouched => p.running s
      | .stopped => none
      | .started => p.plan s
    owed := fun s => if effect s = .started then false else p.owed s
    planned := fun s h => by
      cases he : effect s with
      | untouched => exact p.planned s (by simpa [he] using h)
      | stopped => simp [he] at h
      | started => simpa [he] using h }

/-- Note a call. -/
def issue (i : Issued) (p : Pebble) : Pebble := { p with issued := i :: p.issued }

/-- The effect of `start`; a service that runs is left alone. -/
def startEffect (services : List String) (p : Pebble) (s : String) : Effect :=
  if s ∈ services ∧ p.running s = none then .started else .untouched

/-- The effect of `stop`. -/
def stopEffect (services : List String) (s : String) : Effect :=
  if s ∈ services then .stopped else .untouched

/-- The effect of `restart`. -/
def restartEffect (services : List String) (s : String) : Effect :=
  if s ∈ services then .started else .untouched

/-- The effect of `replan`. -/
def replanEffect (p : Pebble) (s : String) : Effect :=
  match p.running s, p.plan s with
  | some c, plan => if plan = some c then .untouched else .started
  | none, some c => if c.startupEnabled then .started else .untouched
  | none, none => .untouched

/-- The effect of a call that raises: any on the services it would have an effect on. -/
def partialEffect (intended effect : String → Effect) (s : String) : Effect :=
  if intended s = .untouched then .untouched else effect s

/-- Activate or deactivate a check. -/
def setCheck (check : String) (active : Bool) (p : Pebble) : Pebble :=
  { p with checks := Function.update p.checks check (some active) }

/-- A restart of the services is asked for. -/
def owe (services : List String) (p : Pebble) : Pebble :=
  { p with owed := fun s => p.owed s || services.contains s }

/-! ### The effects of the calls -/

variable (p : Pebble) (services : List String) (s : String)

@[simp] lemma touch_plan (effect : String → Effect) : (p.touch effect).plan = p.plan := rfl

@[simp] lemma touch_checks (effect : String → Effect) : (p.touch effect).checks = p.checks := rfl

@[simp] lemma touch_issued (effect : String → Effect) : (p.touch effect).issued = p.issued := rfl

@[simp] lemma issue_plan (i : Issued) : (p.issue i).plan = p.plan := rfl

@[simp] lemma issue_running (i : Issued) : (p.issue i).running = p.running := rfl

@[simp] lemma issue_isRunning (i : Issued) : (p.issue i).isRunning s = p.isRunning s := rfl

@[simp] lemma issue_owed (i : Issued) : (p.issue i).owed = p.owed := rfl

@[simp] lemma issue_issued (i : Issued) : (p.issue i).issued = i :: p.issued := rfl

@[simp] lemma addLayer_isRunning (layer : Layer) : (p.addLayer layer).isRunning s = p.isRunning s :=
  rfl

@[simp] lemma addLayer_owed (layer : Layer) : (p.addLayer layer).owed = p.owed := rfl

@[simp] lemma addLayer_issued (layer : Layer) : (p.addLayer layer).issued = p.issued := rfl

variable {p services s}

lemma addLayer_plan {layer : Layer} {c : ServiceConfig} (h : layer.services.lookup s = some c) :
    (p.addLayer layer).plan s = some c := by
  simp [addLayer, h]

lemma isRunning_touch_of_untouched {effect : String → Effect} (h : effect s = .untouched) :
    (p.touch effect).isRunning s = p.isRunning s := by
  simp [isRunning, touch, h]

lemma isRunning_touch_of_stopped {effect : String → Effect} (h : effect s = .stopped) :
    (p.touch effect).isRunning s = false := by
  simp [isRunning, touch, h]

lemma isRunning_touch_of_started {effect : String → Effect} (h : effect s = .started) :
    (p.touch effect).isRunning s = (p.plan s).isSome := by
  simp [isRunning, touch, h]

lemma owed_touch_of_started {effect : String → Effect} (h : effect s = .started) :
    (p.touch effect).owed s = false := by
  simp [touch, h]

lemma owed_touch_of_ne_started {effect : String → Effect} (h : effect s ≠ .started) :
    (p.touch effect).owed s = p.owed s := by
  simp [touch, h]

/-- A call leaves alone the services it would have no effect on, also when it raises. -/
lemma partialEffect_of_untouched {intended effect : String → Effect}
    (h : intended s = .untouched) : partialEffect intended effect s = .untouched := by
  simp [partialEffect, h]

/-- A replan has no effect on a stopped service without an enabled startup. -/
lemma replanEffect_of_stopped {c : ServiceConfig} (hplan : p.plan s = some c)
    (hstartup : c.startupEnabled = false) (hrun : p.isRunning s = false) :
    p.replanEffect s = .untouched := by
  have hrun' : p.running s = none := by simpa [isRunning] using hrun
  simp [replanEffect, hrun', hplan, hstartup]

/-- A replan does not change whether a service without an enabled startup runs. -/
lemma isRunning_replan {c : ServiceConfig} (hplan : p.plan s = some c)
    (hstartup : c.startupEnabled = false) :
    (p.touch p.replanEffect).isRunning s = p.isRunning s := by
  cases hrun : p.running s with
  | none =>
    have heffect : p.replanEffect s = .untouched := by
      simp [replanEffect, hrun, hplan, hstartup]
    exact isRunning_touch_of_untouched heffect
  | some c' =>
    by_cases hc : some c = some c'
    · have heffect : p.replanEffect s = .untouched := by
        simp [replanEffect, hrun, hplan, Option.some.inj hc]
      exact isRunning_touch_of_untouched heffect
    · have hne : c ≠ c' := fun h => hc (congrArg some h)
      have heffect : p.replanEffect s = .started := by
        simp [replanEffect, hrun, hplan, hne]
      rw [isRunning_touch_of_started heffect, hplan, isRunning, hrun]
      rfl

lemma isRunning_stop :
    (p.touch (stopEffect services)).isRunning s = (p.isRunning s && !services.contains s) := by
  by_cases h : s ∈ services
  · rw [isRunning_touch_of_stopped (by simp [stopEffect, h])]
    simp [h]
  · rw [isRunning_touch_of_untouched (by simp [stopEffect, h])]
    simp [h]

lemma owed_stop : (p.touch (stopEffect services)).owed s = p.owed s := by
  refine owed_touch_of_ne_started ?_
  unfold stopEffect
  split <;> simp

lemma isRunning_start (hplan : s ∈ services → (p.plan s).isSome = true) :
    (p.touch (p.startEffect services)).isRunning s = (p.isRunning s || services.contains s) := by
  by_cases h : s ∈ services ∧ p.running s = none
  · rw [isRunning_touch_of_started (by simp [startEffect, h]), hplan h.1]
    simp [h.1]
  · rw [isRunning_touch_of_untouched (by simp [startEffect, h])]
    by_cases hs : s ∈ services
    · have hrun : p.isRunning s = true := Option.isSome_iff_ne_none.2 fun hn => h ⟨hs, hn⟩
      rw [hrun, Bool.true_or]
    · simp [hs]

lemma owed_start : (p.touch (p.startEffect services)).owed s =
    (p.owed s && !(services.contains s && !p.isRunning s)) := by
  by_cases h : s ∈ services ∧ p.running s = none
  · rw [owed_touch_of_started (by simp [startEffect, h])]
    simp [isRunning, h.1, h.2]
  · rw [owed_touch_of_ne_started (by simp [startEffect, h])]
    by_cases hs : s ∈ services
    · have hrun : p.isRunning s = true := Option.isSome_iff_ne_none.2 fun hn => h ⟨hs, hn⟩
      simp [hrun]
    · simp [hs]

lemma isRunning_restart (hplan : s ∈ services → (p.plan s).isSome = true) :
    (p.touch (restartEffect services)).isRunning s = (p.isRunning s || services.contains s) := by
  by_cases h : s ∈ services
  · rw [isRunning_touch_of_started (by simp [restartEffect, h]), hplan h]
    simp [h]
  · rw [isRunning_touch_of_untouched (by simp [restartEffect, h])]
    simp [h]

lemma owed_restart :
    (p.touch (restartEffect services)).owed s = (p.owed s && !services.contains s) := by
  by_cases h : s ∈ services
  · rw [owed_touch_of_started (by simp [restartEffect, h])]
    simp [h]
  · rw [owed_touch_of_ne_started (by simp [restartEffect, h])]
    simp [h]

/-! ### Owed restarts -/

/-- No service owes a restart while it runs that did not do so before. -/
def Calmer (p p' : Pebble) : Prop :=
  ∀ s, p'.owed s = true → p'.isRunning s = true → p.owed s = true ∧ p.isRunning s = true

lemma Calmer.refl (p : Pebble) : Calmer p p := fun _ ho hr => ⟨ho, hr⟩

lemma Calmer.trans {p p' p'' : Pebble} (h : Calmer p p') (h' : Calmer p' p'') : Calmer p p'' := by
  intro s ho hr
  obtain ⟨ho', hr'⟩ := h' s ho hr
  exact h s ho' hr'

/-- Whatever a call does to the services, those it starts owe nothing. -/
lemma calmer_touch (effect : String → Effect) (p : Pebble) : Calmer p (p.touch effect) := by
  intro s ho hr
  cases h : effect s with
  | untouched =>
    rw [owed_touch_of_ne_started (by simp [h])] at ho
    rw [isRunning_touch_of_untouched h] at hr
    exact ⟨ho, hr⟩
  | stopped =>
    rw [isRunning_touch_of_stopped h] at hr
    cases hr
  | started =>
    rw [owed_touch_of_started h] at ho
    cases ho

end Pebble

end MediawikiCharm
