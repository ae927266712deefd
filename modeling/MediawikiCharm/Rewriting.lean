/-
The late settings that a configuration leaves on disk.

`_push_late_settings` notes what it has rendered as soon as it is on disk, and nothing else
writes the file.  So the late settings are the same after a configuration that has rendered
nothing, however it ends, and after any other they show what the SMTP settings were rendered
to, unless that raised.  A configuration that returns has rendered them.
-/
import MediawikiCharm.MaintenanceExits

namespace MediawikiCharm
namespace Rewriting

open Json Workload Services Settings Peers MediawikiCharm.Core MaintenanceExits

variable {F : Type} {env : Env} {charm : Charm F} {w w' : Workload}

/-! ### Writing the late settings -/

/-- The text shows the SMTP settings of some time, if they could be rendered. -/
def ShowsSmtp (env : Env) (content : String) : Prop :=
  ∃ n before text after, content = before ++ text ++ after ∧
    ∀ t, env.text .smtpSettings n = .ok t → text = t

/-- The late settings on disk are a text that shows the SMTP settings. -/
def Shown (env : Env) (w : Workload) : Prop :=
  ∃ content, w.files .lateSettings = some (.text content) ∧ ShowsSmtp env content

/-- The late settings on disk are the same unless they were rendered anew. -/
structure Latest (env : Env) (w w' : Workload) : Prop where
  grows : Grows w w'
  same : w'.rendered = w.rendered → w'.files .lateSettings = w.files .lateSettings
  shown : w'.rendered ≠ w.rendered → Shown env w'

/-- The late settings were rendered anew. -/
structure Rewritten (env : Env) (w w' : Workload) : Prop where
  grows : Grows w w'
  ne : w'.rendered ≠ w.rendered
  shown : Shown env w'

lemma Rewritten.latest (h : Rewritten env w w') : Latest env w w' :=
  ⟨h.grows, fun he => absurd he h.ne, fun _ => h.shown⟩

lemma eq_of_grows {w₁ : Workload} (h : Grows w w₁) (h' : Grows w₁ w')
    (he : w'.rendered = w.rendered) : w₁.rendered = w.rendered ∧ w'.rendered = w₁.rendered := by
  have hlength : w₁.rendered.length ≤ w.rendered.length := by
    rw [← he]
    exact h'.length_le
  have hw₁ : w₁.rendered = w.rendered := (h.eq_of_length_le hlength).symm
  exact ⟨hw₁, he.trans hw₁.symm⟩

lemma Shown.latest {w₁ : Workload} (h : Shown env w₁) (h' : Latest env w₁ w') : Shown env w' := by
  by_cases hsame : w'.rendered = w₁.rendered
  · obtain ⟨content, hcontent, hshows⟩ := h
    exact ⟨content, (h'.same hsame).trans hcontent, hshows⟩
  · exact h'.shown hsame

lemma Latest.trans {w₁ : Workload} (h : Latest env w w₁) (h' : Latest env w₁ w') :
    Latest env w w' := by
  refine ⟨h.grows.trans h'.grows, fun he => ?_, fun hne => ?_⟩
  · obtain ⟨he₁, he₂⟩ := eq_of_grows h.grows h'.grows he
    exact (h'.same he₂).trans (h.same he₁)
  · by_cases hsame : w'.rendered = w₁.rendered
    · exact (h.shown (hsame ▸ hne)).latest h'
    · exact h'.shown hsame

lemma Latest.rewritten {w₁ : Workload} (h : Latest env w w₁) (h' : Rewritten env w₁ w') :
    Rewritten env w w' :=
  ⟨h.grows.trans h'.grows, fun he => h'.ne (eq_of_grows h.grows h'.grows he).2, h'.shown⟩

lemma Rewritten.ne_of_grows {w₁ : Workload} (h : Rewritten env w w₁) (h' : Grows w₁ w') :
    w'.rendered ≠ w.rendered := fun he => h.ne (eq_of_grows h.grows h' he).1

lemma Rewritten.trans {w₁ : Workload} (h : Rewritten env w w₁) (h' : Latest env w₁ w') :
    Rewritten env w w' := ⟨h.grows.trans h'.grows, h.ne_of_grows h'.grows, h.shown.latest h'⟩

lemma latest_of_eq (hrendered : w'.rendered = w.rendered)
    (hlate : w'.files .lateSettings = w.files .lateSettings) : Latest env w w' := by
  refine ⟨?_, fun _ => hlate, fun hne => absurd hrendered hne⟩
  show w.rendered <:+ w'.rendered
  rw [hrendered]

instance : Std.Refl (Latest env) := ⟨fun _ => latest_of_eq rfl rfl⟩

instance : IsTrans Workload (Latest env) := ⟨fun _ _ _ => Latest.trans⟩

lemma absorbs : Prog.Absorbs (Rewritten env) (Latest env) SameLate where
  weaken _ _ h := h.latest
  within _ _ h := latest_of_eq h.rendered h.late
  before _ _ _ h h' := h.rewritten h'
  after _ _ _ h h' := h.trans (latest_of_eq h'.rendered h'.late)

lemma latest_of_changes {parts : List Part} (hp : ∀ p ∈ lateParts, p ∉ parts)
    (h : Changes parts w w') : Latest env w w' := by
  have hsame := sameLate_of_changes hp h
  exact latest_of_eq hsame.rendered hsame.late

lemma latest_of_ticked (h : Ticked w w') : Latest env w w' := by
  have hparts : ∀ p ∈ lateParts, p ∉ ([] : List Part) := fun _ _ => List.not_mem_nil
  exact latest_of_changes hparts (changes_of_ticked h)

lemma latest_within {α : Type} {parts : List Part} {x : Prog Workload Exc α}
    (h : Prog.Within (Changes parts) x) (hp : ∀ p ∈ lateParts, p ∉ parts) :
    Prog.Within (Latest env) x := h.mono fun _ _ => latest_of_changes hp

/-- A fragment is what it was rendered to, if that has not raised. -/
lemma deferring_spec {deferred : Exc → Bool} {instead : String} (fragment : Fragment)
    (w : Workload) : (deferring env fragment deferred instead).wp
      (fun shown _ => ∀ t, env.text fragment w.clock = .ok t → shown.1 = t)
      (fun _ _ => True) w := by
  refine Prog.wp_tryCatch.2 (Prog.wp_bind.2 (wp_ask (fun text w' _ htext => ?_)
    fun e w' _ he => ?_))
  · refine Prog.wp_pure.2 fun t ht => ?_
    exact Except.ok.inj (htext.symm.trans ht)
  · refine Prog.wp_ite.2 ⟨fun _ => Prog.wp_pure.2 fun t ht => ?_, fun _ => trivial⟩
    rw [he] at ht
    cases ht

lemma renderFragments_shows (w : Workload) : (renderFragments env).wp
    (fun rendered _ => ShowsSmtp env rendered.1) (fun _ _ => True) w := by
  have hany : ∀ {α : Type} {x : Prog Workload Exc α} {Q : α → Workload → Prop} (w : Workload),
      (∀ a w', Q a w') → x.wp Q (fun _ _ => True) w := fun w hQ =>
    Prog.wp_iff.2 ⟨fun a w' _ => hQ a w', fun _ _ _ => trivial⟩
  refine Prog.wp_bind.2 (hany _ fun proxy _ => Prog.wp_bind.2 (hany _ fun database _ => ?_))
  refine Prog.wp_bind.2 (hany _ fun cache _ => Prog.wp_bind.2 (hany _ fun shellbox _ => ?_))
  refine Prog.wp_bind.2 (hany _ fun (auth, _) w₁ => ?_)
  refine Prog.wp_bind.2 (Prog.wp_mono (deferring_spec .smtpSettings w₁) ?_ fun _ _ _ => trivial)
  rintro ⟨smtp, smtpError⟩ w₂ hsmtp
  refine Prog.wp_bind.2 (hany _ fun (s3, _) _ => Prog.wp_pure.2 ?_)
  exact ⟨w₁.clock, proxy ++ database ++ cache ++ shellbox ++ auth, smtp, s3, rfl, hsmtp⟩

/-- The fragments stand in the text. -/
lemma showsSmtp_lateSettings {charm : Charm F} {fragments : String} (h : ShowsSmtp env fragments)
    (secrets : MediaWikiSecrets) (mode : OperationMode) (message : Option String) :
    ShowsSmtp env (lateSettings charm secrets mode message fragments) := by
  obtain ⟨n, before, text, after, rfl, htext⟩ := h
  refine ⟨n, charm.templates.lateSettings ++ getLoggingSettings charm.config ++ before, text,
    after ++ modeSettings mode message ++ secretSettings secrets ++ "?>\n", ?_, htext⟩
  simp only [lateSettings, String.append_assoc]

/-- The settings are on disk and rendered, or neither. -/
lemma pushLateSettings_rewritten (secrets : MediaWikiSecrets) (mode : OperationMode)
    (message : Option String) : Prog.Achieves (Rewritten env) (Latest env)
      (pushLateSettings env charm secrets mode message) := by
  intro w
  have hfragments : ∀ p ∈ lateParts, p ∉ fragmentParts := by decide
  have hother : ∀ p ∈ lateParts, p ∉ otherParts := by decide
  refine Prog.wp_bind.2 (wp_doStep (fun w₁ ht₁ => ?_) fun _ _ ht _ => latest_of_ticked ht)
  have hchanges : Prog.Within (Changes fragmentParts) (renderFragments env) :=
    within_renderFragments
  have hrender : (renderFragments env).wp
      (fun rendered w₂ => ShowsSmtp env rendered.1 ∧ Latest env w w₂) (fun _ w₂ => Latest env w w₂)
      w₁ := by
    refine Prog.wp_iff.2 ⟨fun rendered w₂ hrun => ?_, fun e w₂ hrun => ?_⟩
    · have hshows := Prog.wp_of_ok (renderFragments_shows w₁) hrun
      have h₂ := Prog.wp_of_ok (hchanges.wp w₁) hrun
      exact ⟨hshows, (latest_of_ticked ht₁).trans (latest_of_changes hfragments h₂)⟩
    · have h₂ := Prog.wp_of_error (hchanges.wp w₁) hrun
      exact (latest_of_ticked ht₁).trans (latest_of_changes hfragments h₂)
  refine Prog.wp_bind.2 (Prog.wp_mono hrender ?_ fun _ _ h => h)
  rintro ⟨fragments, deferredError⟩ w₂ ⟨hshows, hlatest⟩
  -- after the write the text is noted before anything can raise
  have hensure : (ensureContents env .lateSettings
      (lateSettings charm secrets mode message fragments)).wp
      (fun _ w₃ => w₃.rendered = w₂.rendered ∧ w₃.files .lateSettings =
        some (.text (lateSettings charm secrets mode message fragments)))
      (fun _ w₃ => Latest env w₂ w₃) w₂ := by
    refine wp_ensureContents (fun w₃ ht h => ?_) (fun w₃ ht => ?_)
      fun _ _ ht _ => latest_of_ticked ht
    · obtain ⟨n, rfl⟩ := ht
      exact ⟨rfl, h⟩
    · obtain ⟨n, rfl⟩ := ht
      exact ⟨rfl, setFile_files_self .lateSettings _ w₂⟩
  refine Prog.wp_bind.2 (Prog.wp_mono hensure ?_ fun _ _ h => hlatest.trans h)
  rintro changed w₃ ⟨h₃, hlate⟩
  have hrewritten : ∀ content, Rewritten env w { w₃ with rendered := content :: w₃.rendered } := by
    refine fun content => hlatest.rewritten ⟨?_, ?_, ?_⟩
    · show w₂.rendered <:+ content :: w₃.rendered
      rw [h₃]
      exact List.suffix_cons _ _
    · show content :: w₃.rendered ≠ w₂.rendered
      rw [h₃]
      exact List.cons_ne_self _ _
    · exact ⟨_, hlate, showsSmtp_lateSettings hshows _ _ _⟩
  refine Prog.wp_bind.2 (Prog.wp_modify.2 ?_)
  cases deferredError with
  | none => exact hrewritten _
  | some e =>
    have hrecord : Prog.Within (Latest env) (if changed then recordSettingsChange env else pure () :
        Prog Workload Exc Unit) := latest_within (within_recordChange changed) hother
    refine Prog.wp_bind.2 (Prog.wp_mono (hrecord.wp _) ?_ ?_)
    · exact fun _ w' h => ((hrewritten _).trans h).latest
    · exact fun _ w' h => ((hrewritten _).trans h).latest

/-! ### The configuration -/

variable [FiniteFloat F]

/-- A configuration that returns has rendered the late settings. -/
lemma reconcileConfiguration_rewritten (peerState : PeerState) (force : Bool) :
    Prog.Achieves (OnRest (Rewritten env)) (OnRest (Latest env))
      (reconcileConfiguration env charm peerState force) := by
  have hsettings : ∀ secrets mode message, Prog.Achieves (Rewritten env) (Latest env)
      (settingsReconciliation env charm secrets mode message) := fun _ _ _ =>
    settingsReconciliation_achieves absorbs (pushLateSettings_rewritten _ _ _)
  exact reconcileConfiguration_achieves force absorbs ((hsettings _ _ _).within absorbs)
    (hsettings _ _ _)

end Rewriting
end MediawikiCharm
