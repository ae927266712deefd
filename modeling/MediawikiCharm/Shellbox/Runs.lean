/-
MediaWiki and Shellbox have one key.

A hook that returns from the reconciliation of Shellbox has the key of the secret in the file,
and PHP-FPM was started after it was written there.  A hook that fails may leave another key
in the file, but then the secret has none yet and the next key is a new one, so that the file
changes and PHP-FPM is started again.  Once a key stays in the secret the file has no other.
-/
import MediawikiCharm.Shellbox

namespace MediawikiCharm
namespace Shellbox

open ReplicaSecrets

/-! ### The conditions -/

/-- The services are planned, and PHP-FPM runs only after it was asked to. -/
structure Sound (w : World) : Prop where
  planned : ∀ s ∈ services, (w.pebble.plan s).isSome = true
  asked : w.pebble.isRunning phpFpmService = true → w.asked = true

/-- The sidecar has no other key than this one. -/
structure Keeps (key : String) (w : World) : Prop where
  file : w.keyFile = none ∨ w.keyFile = some (keyFileOf key)
  served : w.asked = true → w.keyFile = some (keyFileOf key) ∧ w.loaded = some (keyFileOf key)

/-- PHP-FPM runs with the key. -/
structure Serves (key : String) (w : World) : Prop where
  file : w.keyFile = some (keyFileOf key)
  loaded : w.loaded = some (keyFileOf key)
  running : w.pebble.isRunning phpFpmService = true

/-- Between hooks the sidecar has no other key than the one in the secret. -/
structure Inv (w : World) : Prop where
  sound : Sound w
  keeps : ∀ key, w.key = some key → Keeps key w

/-- MediaWiki and the sidecar have no other key than the one in the secret, and PHP-FPM has it
whenever it runs. -/
structure Agrees (key : String) (w : World) : Prop where
  secret : w.key = some key
  settings : w.lateSettings = none ∨ w.lateSettings = some key
  file : w.keyFile = none ∨ w.keyFile = some (keyFileOf key)
  loaded : w.pebble.isRunning phpFpmService = true →
    w.keyFile = some (keyFileOf key) ∧ w.loaded = some (keyFileOf key)

/-! ### The services -/

section Services

variable {w w' : World} {k : String}

/-- PHP-FPM is planned with an enabled startup. -/
def Enabled (w : World) : Prop :=
  ∃ c, w.pebble.plan phpFpmService = some c ∧ c.startupEnabled = true

namespace Sound

lemma touch (h : Sound w) (effect : String → Effect) : Sound (w.touch effect) where
  planned := h.planned
  asked := by
    intro hrun
    show (w.asked || decide (effect phpFpmService = .started)) = true
    cases heffect : effect phpFpmService with
    | untouched =>
      have hrun' := (Pebble.isRunning_touch_of_untouched heffect).symm.trans hrun
      simp [h.asked hrun']
    | stopped =>
      have hrun' := (Pebble.isRunning_touch_of_stopped heffect).symm.trans hrun
      cases hrun'
    | started => simp

lemma addLayer (h : Sound w) (l : Layer) : Sound { w with pebble := w.pebble.addLayer l } where
  planned s hs := by simp [Pebble.addLayer, h.planned s hs]
  asked := h.asked

lemma of_eq (h : Sound w) (hpebble : w'.pebble = w.pebble) (hasked : w'.asked = w.asked) :
    Sound w' where
  planned := hpebble ▸ h.planned
  asked := hpebble ▸ hasked ▸ h.asked

end Sound

/-- Nothing else matters to what the sidecar has. -/
lemma Keeps.of_eq (h : Keeps k w) (hfile : w'.keyFile = w.keyFile) (hloaded : w'.loaded = w.loaded)
    (hasked : w'.asked = w.asked) : Keeps k w' := by
  obtain ⟨hk, hserved⟩ := h
  rw [← hfile] at hk hserved
  rw [← hasked, ← hloaded] at hserved
  exact ⟨hk, hserved⟩

/-- The layer enables the startup of PHP-FPM. -/
lemma enabled_addLayer (h : Sound w) :
    Enabled { w with pebble := w.pebble.addLayer (layer w.pebble) } := by
  obtain ⟨c, hc⟩ := Option.isSome_iff_exists.1 (h.planned phpFpmService List.mem_cons_self)
  have hlookup : (layer w.pebble).services.lookup phpFpmService =
      some { c with startupEnabled := true } := by
    simp [layer, services, hc]
  exact ⟨_, Pebble.addLayer_plan hlookup, rfl⟩

/-- A replan leaves PHP-FPM running. -/
lemma running_replan (h : Enabled w) :
    (w.pebble.touch w.pebble.replanEffect).isRunning phpFpmService = true := by
  obtain ⟨c, hplan, hc⟩ := h
  have hstarted : w.pebble.replanEffect phpFpmService = .started →
      (w.pebble.touch w.pebble.replanEffect).isRunning phpFpmService = true := fun heffect => by
    rw [Pebble.isRunning_touch_of_started heffect, hplan]
    rfl
  cases hrun : w.pebble.running phpFpmService with
  | none => exact hstarted (by simp [Pebble.replanEffect, hrun, hplan, hc])
  | some c' =>
    by_cases hsame : c = c'
    · have heffect : w.pebble.replanEffect phpFpmService = .untouched := by
        simp [Pebble.replanEffect, hrun, hplan, hsame]
      rw [Pebble.isRunning_touch_of_untouched heffect, Pebble.isRunning, hrun]
      rfl
    · exact hstarted (by simp [Pebble.replanEffect, hrun, hplan, hsame])

end Services

/-! ### A reconciliation -/

/-- What every exit of a reconciliation leaves, started in `w`. -/
structure Moved (w w' : World) : Prop where
  sound : Sound w'
  secret : Extends w w'
  settings : w'.lateSettings = w.lateSettings
  keeps : ∀ key, w.key = some key → Keeps key w'

/-- The key is in the secret and in the file.  It is also the one that PHP-FPM was started with
when the condition holds. -/
structure Written (w : World) (k : String) (known : Prop) (w' : World) : Prop where
  sound : Sound w'
  secret : Extends w w'
  settings : w'.lateSettings = w.lateSettings
  key : w'.key = some k
  file : w'.keyFile = some (keyFileOf k)
  loaded : known → w'.asked = true → w'.loaded = some (keyFileOf k)

section Written

variable {env : Env} {w w' : World} {k : String} {known : Prop}

namespace Written

lemma ticked (h : Written w k known w') : Written w k known w'.ticked :=
  ⟨h.sound.of_eq rfl rfl, h.secret, h.settings, h.key, h.file, h.loaded⟩

lemma addLayer (h : Written w k known w') (l : Layer) :
    Written w k known { w' with pebble := w'.pebble.addLayer l } :=
  ⟨h.sound.addLayer l, h.secret, h.settings, h.key, h.file, h.loaded⟩

lemma touch (h : Written w k known w') (effect : String → Effect) :
    Written w k known (w'.touch effect) where
  sound := h.sound.touch effect
  secret := h.secret
  settings := h.settings
  key := h.key
  file := h.file
  loaded := by
    intro hknown hasked
    show (if effect phpFpmService = .started then w'.keyFile else w'.loaded) = _
    split
    · exact h.file
    · next hnot =>
      refine h.loaded hknown ?_
      have hasked' : (w'.asked || decide (effect phpFpmService = .started)) = true := hasked
      simpa [hnot] using hasked'

/-- PHP-FPM has read the file when it was started. -/
lemma started (h : Written w k known w') {effect : String → Effect}
    (heffect : effect phpFpmService = .started) : Written w k True (w'.touch effect) where
  sound := h.sound.touch effect
  secret := h.secret
  settings := h.settings
  key := h.key
  file := h.file
  loaded := by
    intro _ _
    show (if effect phpFpmService = .started then w'.keyFile else w'.loaded) = _
    rw [if_pos heffect, h.file]

lemma mono (h : Written w k known w') {known' : Prop} (hknown : known' → known) :
    Written w k known' w' :=
  ⟨h.sound, h.secret, h.settings, h.key, h.file, fun hk => h.loaded (hknown hk)⟩

/-- A key that was in the secret before is the same one. -/
lemma moved (h : Written w k known w') (hknown : w.key ≠ none → known) : Moved w w' where
  sound := h.sound
  secret := h.secret
  settings := h.settings
  keeps := by
    intro key hkey
    have hsome : some key = some k := (h.secret.key hkey).symm.trans h.key
    obtain rfl : key = k := Option.some.inj hsome
    have hne : w.key ≠ none := fun hnone => by rw [hnone] at hkey; cases hkey
    exact ⟨.inr h.file, fun hasked => ⟨h.file, h.loaded (hknown hne) hasked⟩⟩

end Written

lemma Added.moved (h : Added w w') (hw : Inv w) : Moved w w' where
  sound := hw.sound.of_eq h.pebble h.asked
  secret := h.secret
  settings := h.lateSettings
  keeps key hkey := (hw.keeps key hkey).of_eq h.keyFile h.loaded h.asked

lemma exists_key (h : w.key ≠ none) (hadded : Added w w') (hkey : w'.key = some k) :
    w.key = some k := by
  obtain ⟨key, hw⟩ := Option.ne_none_iff_exists'.1 h
  exact hw.trans ((hadded.secret.key hw).symm.trans hkey)

/-- The file is left alone only where PHP-FPM has read it. -/
lemma ensureContents_spec (hw : Inv w) (hadded : Added w w') (hkey : w'.key = some k)
    (hfresh : w.key = none → w.keyFile ≠ some (keyFileOf k)) :
    (ensureContents env (keyFileOf k)).wp
      (fun changed w'' => Written w k (w.key ≠ none ∨ changed = false) w'')
      (fun e w'' => Moved w w'' ∧ isCaught e = false) w' := by
  have hmoved : Moved w w'.ticked := (hadded.trans (.ticked _)).moved hw
  refine Prog.wp_bind.2 (Prog.wp_get.2 (Prog.wp_ite.2 ⟨fun hfile => ?_, fun hfile => ?_⟩))
  · refine Prog.wp_bind.2 (wp_query ?_ fun f => ⟨hmoved, f.uncaught⟩)
    have hne : w.key ≠ none := fun hnone => hfresh hnone (hadded.keyFile.symm.trans hfile)
    have hkeeps := hmoved.keeps k (exists_key hne hadded hkey)
    exact ⟨hmoved.sound, hmoved.secret, hmoved.settings, hkey, hfile,
      fun _ hasked => (hkeeps.served hasked).2⟩
  · have hwritten : Written w k (w.key ≠ none)
        { w'.ticked with keyFile := some (keyFileOf k) } := by
      refine ⟨hmoved.sound.of_eq rfl rfl, hmoved.secret, hmoved.settings, hkey, rfl, ?_⟩
      intro hne hasked
      have hkeeps := hmoved.keeps k (exists_key hne hadded hkey)
      exact absurd (hkeeps.served hasked).1 hfile
    refine Prog.wp_bind.2 (wp_write ?_ (fun f => ?_) fun f => ?_)
    · refine Prog.wp_pure.2 (hwritten.mono fun h => h.resolve_right nofun)
    · exact ⟨hwritten.moved id, f.uncaught⟩
    · exact ⟨hmoved, f.uncaught⟩

/-- A reconciliation that returns leaves PHP-FPM running with the key in the secret.  Only the
wait for the sidecar is turned into a status, and it leaves everything as it is. -/
lemma reconciliation_spec (hw : Inv w)
    (hfresh : ∀ n, w.keyFile ≠ some (keyFileOf (env.tokenHex n))) :
    (reconciliation env).wp (fun _ w' => Moved w w' ∧ ∃ k, w'.key = some k ∧ Serves k w')
      (fun e w' => Moved w w' ∧ (isCaught e = true → w' = w)) w := by
  have herror : ∀ {e w'}, Moved w w' ∧ isCaught e = false →
      Moved w w' ∧ (isCaught e = true → w' = w) := fun h =>
    ⟨h.1, fun he => absurd he (by simp [h.2])⟩
  refine Prog.wp_ite.2 ⟨fun _ => ?_, fun _ => ?_⟩
  · exact ⟨⟨hw.sound, .refl w, rfl, hw.keeps⟩, fun _ => rfl⟩
  refine Prog.wp_bind.2 (Prog.wp_mono (unitSecretValue_spec _ w) ?_ ?_)
  swap
  · rintro e w₁ ⟨hadded, he⟩
    exact herror ⟨hadded.moved hw, he⟩
  rintro k w₁ ⟨hadded, hkey, hnew⟩
  have hfreshKey : w.key = none → w.keyFile ≠ some (keyFileOf k) := by
    intro hnone
    obtain ⟨n, rfl⟩ := hnew hnone
    exact hfresh n
  refine Prog.wp_bind.2 (Prog.wp_mono (ensureContents_spec hw hadded hkey hfreshKey) ?_ ?_)
  swap
  · exact fun e w₂ => herror
  intro changed w₂ hwritten
  have hmoved : ∀ {w'}, Written w k (w.key ≠ none ∨ changed = false) w' → Moved w w' :=
    fun h => h.moved .inl
  -- the layer
  refine Prog.wp_bind.2 (wp_write ?_ (fun f => ?_) fun f => ?_)
  rotate_left
  · exact herror ⟨hmoved (hwritten.ticked.addLayer _), f.uncaught⟩
  · exact herror ⟨hmoved hwritten.ticked, f.uncaught⟩
  have hlayer := hwritten.ticked.addLayer (layer w₂.ticked.pebble)
  have henabled := enabled_addLayer hwritten.ticked.sound
  generalize ({ w₂.ticked with
    pebble := w₂.ticked.pebble.addLayer (layer w₂.ticked.pebble) } : World) = w₃ at hlayer henabled
  -- the replan once PHP-FPM has the key
  have hreplan : ∀ {w₄}, Written w k True w₄ → Enabled w₄ →
      (pebbleCall env Pebble.replanEffect).wp
        (fun _ w' => Moved w w' ∧ ∃ k, w'.key = some k ∧ Serves k w')
        (fun e w' => Moved w w' ∧ (isCaught e = true → w' = w)) w₄ := by
    intro w₄ h₄ hen
    have hdone := h₄.ticked.touch (w₄.ticked.pebble.replanEffect)
    have hrunning := running_replan (w := w₄.ticked) hen
    have hserves : Serves k _ :=
      ⟨hdone.file, hdone.loaded trivial (hdone.sound.asked hrunning), hrunning⟩
    refine wp_call ⟨hdone.moved fun _ => trivial, k, hdone.key, hserves⟩ fun f => ?_
    exact herror ⟨(h₄.ticked.touch _).moved fun _ => trivial, f.uncaught⟩
  refine Prog.wp_bind.2 (Prog.wp_ite.2 ⟨fun _ => ?_, fun hchanged => ?_⟩)
  · refine wp_call (hreplan (hlayer.ticked.started ?_) henabled) fun f => ?_
    · simp [Pebble.restartEffect]
    · exact herror ⟨hmoved (hlayer.ticked.touch _), f.uncaught⟩
  · refine Prog.wp_pure.2 (hreplan (hlayer.mono fun _ => .inr ?_) henabled)
    simpa using hchanged

end Written

/-! ### A hook -/

/-- What every exit of a hook leaves, before Juju keeps or discards the secret. -/
structure Ran (w w' : World) : Prop where
  sound : Sound w'
  secret : Extends w w'
  keeps : ∀ key, w.key = some key → Keeps key w'
  settings : w'.lateSettings = w.lateSettings ∨
    ∃ key, w'.key = some key ∧ w'.lateSettings = some key

/-- The sidecar and MediaWiki have the key in the secret. -/
structure Complete (key : String) (w : World) : Prop where
  secret : w.key = some key
  serves : Serves key w
  settings : w.lateSettings = some key

section Hook

variable {w w' w'' : World} {h : Hook} {k : String}

lemma Moved.ran (h : Moved w w') : Ran w w' :=
  ⟨h.sound, h.secret, h.keeps, .inl h.settings⟩

lemma Ran.added (h : Ran w w') (hadded : Added w' w'') : Ran w w'' where
  sound := h.sound.of_eq hadded.pebble hadded.asked
  secret := h.secret.trans hadded.secret
  keeps key hkey := (h.keeps key hkey).of_eq hadded.keyFile hadded.loaded hadded.asked
  settings := by
    rw [hadded.lateSettings]
    refine h.settings.imp_right ?_
    rintro ⟨key, hkey, hlate⟩
    exact ⟨key, hadded.secret.key hkey, hlate⟩

lemma Serves.keeps (h : Serves k w) : Keeps k w := ⟨.inr h.file, fun _ => ⟨h.file, h.loaded⟩⟩

lemma Serves.added (h : Serves k w) (hadded : Added w w') : Serves k w' :=
  ⟨hadded.keyFile.trans h.file, hadded.loaded.trans h.loaded, hadded.pebble ▸ h.running⟩

/-- A key is the only one in the secret. -/
lemma keeps_of_serves (hkey : w.key = some k) (h : Serves k w) :
    ∀ key, w.key = some key → Keeps key w := by
  intro key hkey'
  obtain rfl : k = key := Option.some.inj (hkey.symm.trans hkey')
  exact h.keeps

lemma wp_raises {o : Option Exc} {Q : Unit → World → Prop} {E : Exc → World → Prop}
    (hQ : Q () w) (hE : ∀ e, E e w) : (raises o).wp Q E w := by
  cases o with
  | none => exact hQ
  | some e => exact hE e

/-- A hook that ends with a status, or completes, has no key outside the secret. -/
lemma program_spec (hw : Inv w)
    (hfresh : ∀ n, w.keyFile ≠ some (keyFileOf (h.env.tokenHex n))) :
    h.program.wp (fun _ w' => Ran w w' ∧ ∃ k, Complete k w')
      (fun e w' => Ran w w' ∧ (isCaught e = true → ∀ key, w'.key = some key → Keeps key w')) w := by
  have hstart : Ran w w := ⟨hw.sound, .refl w, hw.keeps, .inl rfl⟩
  refine Prog.wp_bind.2 (wp_raises ?_ fun e => ⟨hstart, fun _ => hw.keeps⟩)
  refine Prog.wp_bind.2 (Prog.wp_mono (reconciliation_spec hw hfresh) ?_ ?_)
  swap
  · rintro e w₁ ⟨hmoved, hsame⟩
    refine ⟨hmoved.ran, fun he => ?_⟩
    rw [hsame he]
    exact hw.keeps
  rintro - w₁ ⟨hmoved, k, hkey, hserves⟩
  refine Prog.wp_bind.2 (wp_raises ?_ fun e => ⟨hmoved.ran, fun _ => keeps_of_serves hkey hserves⟩)
  refine Prog.wp_bind.2 (Prog.wp_mono (unitSecretValue_spec _ w₁) ?_ ?_)
  swap
  · rintro e w₂ ⟨hadded, -⟩
    exact ⟨hmoved.ran.added hadded,
      fun _ => keeps_of_serves (hadded.secret.key hkey) (hserves.added hadded)⟩
  rintro k' w₂ ⟨hadded, hkey', -⟩
  obtain rfl : k = k' := Option.some.inj ((hadded.secret.key hkey).symm.trans hkey')
  have hran : Ran w w₂.ticked := (hmoved.ran.added hadded).added (.ticked w₂)
  have hserves' : Serves k w₂.ticked := (hserves.added hadded).added (.ticked w₂)
  have hkeeps := keeps_of_serves (w := w₂.ticked) hkey' hserves'
  -- the settings have the key of the secret once they are written
  have hsettings : Ran w { w₂.ticked with lateSettings := some k } :=
    ⟨hran.sound.of_eq rfl rfl, hran.secret, fun key hkey => (hran.keeps key hkey).of_eq rfl rfl rfl,
      .inr ⟨k, hkey', rfl⟩⟩
  have hcomplete : Complete k { w₂.ticked with lateSettings := some k } :=
    ⟨hkey', ⟨hserves'.file, hserves'.loaded, hserves'.running⟩, rfl⟩
  have hkeeps' := keeps_of_serves hcomplete.secret hcomplete.serves
  refine Prog.wp_bind.2 (wp_write ?_ (fun f => ⟨hsettings, fun _ => hkeeps'⟩) fun f =>
    ⟨hran, fun _ => hkeeps⟩)
  exact wp_raises ⟨hsettings, k, hcomplete⟩ fun e => ⟨hsettings, fun _ => hkeeps'⟩

/-- What every step leaves. -/
structure Kept (w w' : World) : Prop where
  inv : Inv w'
  secret : Extends w w'
  settings : ∀ key, w.key = some key →
    w'.lateSettings = w.lateSettings ∨ w'.lateSettings = none ∨ w'.lateSettings = some key

/-- A hook keeps what it has written to the secret only when the rest agrees with it. -/
lemma kept_outcome (hw : Inv w)
    (hfresh : ∀ n, w.keyFile ≠ some (keyFileOf (h.env.tokenHex n))) : Kept w (h.outcome w) := by
  have hspec := Prog.wp_iff.1 (program_spec hw hfresh)
  have hran : Ran w (h.program w).2 :=
    Prog.wp_state (program_spec hw hfresh) (fun _ _ hQ => hQ.1) fun _ _ hE => hE.1
  have hsettings : ∀ key, w.key = some key → (h.outcome w).lateSettings = w.lateSettings ∨
      (h.outcome w).lateSettings = none ∨ (h.outcome w).lateSettings = some key := by
    intro key hkey
    refine hran.settings.imp_right ?_
    rintro ⟨key', hkey', hlate⟩
    obtain rfl : key = key' := Option.some.inj ((hran.secret.key hkey).symm.trans hkey')
    exact .inr hlate
  by_cases hfails : Hook.fails (h.program w).1 = true
  · have hsecret : (h.outcome w).secret = w.secret := if_pos hfails
    have hkey : (h.outcome w).key = w.key := congrArg (value · _) hsecret
    refine ⟨⟨hran.sound.of_eq rfl rfl, fun key hk => ?_⟩, fun name v hv => ?_, hsettings⟩
    · exact (hran.keeps key (hkey.symm.trans hk)).of_eq rfl rfl rfl
    · rw [hsecret]
      exact hv
  · have houtcome : h.outcome w = (h.program w).2 := by
      rw [Hook.outcome, if_neg hfails]
    rw [houtcome] at hsettings ⊢
    refine ⟨⟨hran.sound, ?_⟩, hran.secret, hsettings⟩
    rcases hrun : h.program w with ⟨_ | ⟨⟩, w'⟩
    · have hcaught : Hook.fails (h.program w).1 = _ := congrArg (fun r => Hook.fails r.1) hrun
      rw [hcaught] at hfails
      exact (hspec.2 _ _ hrun).2 (by simpa [Hook.fails] using hfails)
    · obtain ⟨-, k, hcomplete⟩ := hspec.1 _ _ hrun
      exact keeps_of_serves hcomplete.secret hcomplete.serves

/-- A hook that completes leaves MediaWiki and the sidecar with the key in the secret. -/
lemma complete_outcome (hw : Inv w)
    (hfresh : ∀ n, w.keyFile ≠ some (keyFileOf (h.env.tokenHex n))) (hok : h.Completes w) :
    ∃ k, Complete k (h.outcome w) := by
  have hrun : h.program w = (.ok (), (h.program w).2) := Prod.ext hok rfl
  have hcomplete := (Prog.wp_of_ok (program_spec hw hfresh) hrun).2
  have houtcome : h.outcome w = (h.program w).2 := by
    have hfails : ¬ Hook.fails (h.program w).1 = true := by
      rw [hok]
      exact Bool.false_ne_true
    rw [Hook.outcome, if_neg hfails]
  rw [houtcome]
  exact hcomplete

end Hook

/-! ### Runs -/

section Runs

variable {w w' w'' : World} {l : Label} {ls : List Label} {k : String}

lemma sound_rockPebble (h : w.pebble = rockPebble) : Sound w where
  planned := by
    rw [h]
    decide
  asked := by
    intro hrun
    rw [h] at hrun
    cases hrun

/-- Pebble starts PHP-FPM anew only where it was started with the key in the file. -/
lemma keeps_touch {effect : String → Effect} (h : Keeps k w)
    (hasked : effect phpFpmService = .started → w.asked = true) : Keeps k (w.touch effect) where
  file := h.file
  served := by
    intro htouched
    have hw : w.asked = true := by
      have htouched' : (w.asked || decide (effect phpFpmService = .started)) = true := htouched
      rcases Bool.or_eq_true_iff.1 htouched' with hw | hstarted
      · exact hw
      · exact hasked (of_decide_eq_true hstarted)
    obtain ⟨hfile, hloaded⟩ := h.served hw
    refine ⟨hfile, ?_⟩
    show (if effect phpFpmService = .started then w.keyFile else w.loaded) = _
    split
    · exact hfile
    · exact hloaded

lemma kept_step (hw : Inv w) (hfresh : Fresh w l) (hst : machine.step w l w') : Kept w w' := by
  cases l with
  | hook h =>
    obtain rfl : w' = h.outcome w := hst
    exact kept_outcome hw hfresh
  | services effect =>
    obtain ⟨hasked, rfl⟩ := hst
    refine ⟨⟨hw.sound.touch effect, fun key hkey => ?_⟩, fun _ _ h => h, fun _ _ => .inl rfl⟩
    exact keeps_touch (hw.keeps key hkey) hasked
  | sidecarReplaced =>
    subst hst
    have hkeeps : ∀ key, Keeps key { w with
        keyFile := none, pebble := rockPebble, loaded := none, asked := false } := fun key =>
      ⟨.inl rfl, fun hasked => absurd hasked Bool.false_ne_true⟩
    exact ⟨⟨sound_rockPebble rfl, fun key _ => hkeeps key⟩, fun _ _ h => h, fun _ _ => .inl rfl⟩
  | mediawikiReplaced =>
    subst hst
    have hkeeps : ∀ key, w.key = some key → Keeps key { w with lateSettings := none } :=
      fun key hkey => (hw.keeps key hkey).of_eq rfl rfl rfl
    exact ⟨⟨hw.sound.of_eq rfl rfl, hkeeps⟩, fun _ _ h => h, fun _ _ => .inr (.inl rfl)⟩

lemma invariant_inv : (machine.restrict Fresh).Invariant Inv where
  init w := by
    rintro ⟨hkey, -, hpebble, -⟩
    refine ⟨sound_rockPebble hpebble, fun key h => ?_⟩
    rw [hkey] at h
    cases h
  step _ _ _ hw hst := (kept_step hw hst.1 hst.2).inv

lemma Complete.agrees (h : Complete k w) : Agrees k w :=
  ⟨h.secret, .inr h.settings, .inr h.serves.file, fun _ => ⟨h.serves.file, h.serves.loaded⟩⟩

/-- Once MediaWiki and the sidecar agree they do so for good. -/
lemma agrees_step (hw : Inv w) (hfresh : Fresh w l) (hst : machine.step w l w')
    (h : Agrees k w) : Agrees k w' := by
  obtain ⟨hinv, hsecret, hsettings⟩ := kept_step hw hfresh hst
  have hkey : w'.key = some k := hsecret.key h.secret
  have hkeeps := hinv.keeps k hkey
  refine ⟨hkey, ?_, hkeeps.file, fun hrun => hkeeps.served (hinv.sound.asked hrun)⟩
  rcases hsettings k h.secret with hsame | hnew
  · rw [hsame]
    exact h.settings
  · exact hnew

lemma agrees_run (hrun : (machine.restrict Fresh).Run w ls w') (hw : Inv w) (h : Agrees k w) :
    Inv w' ∧ Agrees k w' ∧ Extends w w' := by
  induction hrun with
  | nil w => exact ⟨hw, h, .refl w⟩
  | cons hst _ ih =>
    obtain ⟨hinv, hsecret, -⟩ := kept_step hw hst.1 hst.2
    obtain ⟨hinv', hagrees, hextends⟩ := ih hinv (agrees_step hw hst.1 hst.2 h)
    exact ⟨hinv', hagrees, hsecret.trans hextends⟩

/-- The first hook that completes gives MediaWiki and the sidecar one key, which every later
hook that completes gives them again.  From then on neither has another key at any time, and
PHP-FPM has it whenever it runs; no field of the secret is ever changed. -/
theorem one_key {h : Hook} (hw : (machine.restrict Fresh).Reachable w)
    (hst : (machine.restrict Fresh).step w (.hook h) w') (hok : h.Completes w)
    (hrun : (machine.restrict Fresh).Run w' ls w'') :
    ∃ k, Complete k w' ∧ Agrees k w'' ∧ Extends w w'' ∧
      ∀ h' w''', (machine.restrict Fresh).step w'' (.hook h') w''' → h'.Completes w'' →
        Complete k w''' := by
  obtain ⟨hfresh, rfl⟩ := hst
  have hinv := invariant_inv.reachable hw
  have hkept := kept_outcome hinv hfresh
  obtain ⟨k, hcomplete⟩ := complete_outcome hinv hfresh hok
  obtain ⟨hinv'', hagrees, hextends⟩ := agrees_run hrun hkept.inv hcomplete.agrees
  refine ⟨k, hcomplete, hagrees, hkept.secret.trans hextends, ?_⟩
  rintro h' w''' ⟨hfresh', rfl⟩ hok'
  obtain ⟨k', hcomplete'⟩ := complete_outcome hinv'' hfresh' hok'
  have hkey := (kept_outcome hinv'' hfresh').secret.key hagrees.secret
  obtain rfl : k = k' := Option.some.inj (hkey.symm.trans hcomplete'.secret)
  exact hcomplete'

/-- A hook in which nothing fails. -/
def quietHook : Hook := { env := { tokenHex := fun n => if n = 1 then "0f" else "1e" } }

/-- The state once the sidecar was replaced after the first hook. -/
def replacedWorld : World :=
  { quietHook.outcome {} with
    keyFile := none
    pebble := rockPebble
    loaded := none
    asked := false }

theorem one_key_replaced : ∃ k, Complete k (quietHook.outcome {}) ∧ Agrees k replacedWorld := by
  have hinit : machine.init {} := ⟨rfl, rfl, rfl, rfl, rfl, rfl⟩
  have hfresh : Fresh {} (.hook quietHook) := fun n => (Option.some_ne_none _).symm
  have hrun : (machine.restrict Fresh).Run (quietHook.outcome {}) [.sidecarReplaced]
      replacedWorld := .cons ⟨trivial, rfl⟩ (.nil _)
  obtain ⟨k, hcomplete, hagrees, -⟩ := one_key (.init hinit) ⟨hfresh, rfl⟩ rfl hrun
  exact ⟨k, hcomplete, hagrees⟩

end Runs

end Shellbox
end MediawikiCharm
