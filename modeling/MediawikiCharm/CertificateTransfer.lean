/-
The certificates of the trust store (`relations/certificate_transfer.py`).

The bundle of certificates on disk is at once the input of `update-ca-certificates` and the
record of what was installed: a call that finds the bundle it wants refreshes nothing.  So a
refresh that failed has to be followed by the bundle of before.  It is after a command that
exits with an error, and not after one that raises, such as one that ran out of time; and the
text that is put back is the one that `read_text` made of the file.
-/
import MediawikiCharm.Lib.Machine
import MediawikiCharm.Workload

namespace MediawikiCharm
namespace CertificateTransfer

open PyText

/-- A relation that may transfer certificates. -/
structure TransferRelation where
  active : Bool
  ready : Bool

/-- The bundle on disk and the one that was on disk when `update-ca-certificates` last
succeeded. -/
structure TrustWorld where
  bundle : Option String := none
  store : Option String := none
  clock : ℕ := 0
  /-- How many commands were run. -/
  commands : ℕ := 0

/-- What one call of `reconcile` meets. -/
structure ReconcileCall where
  relations : List TransferRelation := []
  /-- `get_all_certificates()` -/
  certificates : Except Exc (List String) := .ok []
  additionalCertificates : List String := []
  /-- The exception of a file operation, if it raises. -/
  file : ℕ → Option Exc := fun _ => none
  /-- The return code of a command, or the exception of `_run_cli`. -/
  runCli : ℕ → Except Exc ℤ := fun _ => .ok 0

/-! ### The bundle -/

/-- `str.rstrip()` -/
def rstrip (s : String) : String :=
  String.ofList (s.toList.rdropWhile fun c => isSpace (ofChar c))

/-- `_build_bundle` -/
def buildBundle (certificates : List String) : String :=
  let certificates := (certificates.dedup.insertionSort (· ≤ ·)).map rstrip
  String.intercalate "\n" certificates ++ (if certificates.isEmpty then "" else "\n")

variable (c : ReconcileCall)

/-- A file operation. -/
def file : Prog TrustWorld Exc Unit := fun s =>
  (match c.file s.clock with
    | some e => .error e
    | none => .ok (), { s with clock := s.clock + 1 })

/-- `path.exists()` -/
def bundleExists : Prog TrustWorld Exc Bool := do
  file c
  let s ← Prog.get
  pure s.bundle.isSome

/-- `path.read_text()` -/
def readBundle : Prog TrustWorld Exc String := do
  file c
  let s ← Prog.get
  match s.bundle with
  | some text => pure (readAs text)
  | none => throw (.other "FileNotFoundError")

/-- `ensure_contents(path, content, …)` -/
def ensureBundle (text : String) : Prog TrustWorld Exc Bool := do
  file c
  let s ← Prog.get
  if s.bundle = some text then pure false
  else
    Prog.modify fun s => { s with bundle := some text }
    pure true

/-- The removal of the bundle in `_write_bundle`. -/
def removeBundle : Prog TrustWorld Exc Bool := do
  if ← bundleExists c then
    file c
    Prog.modify fun s => { s with bundle := none }
    pure true
  else pure false

/-- `_write_bundle` -/
def writeBundle : Option String → Prog TrustWorld Exc Bool
  | none | some "" => removeBundle c
  | some text => ensureBundle c text

/-- `_restore_bundle` -/
def restoreBundle (content : Option String) : Prog TrustWorld Exc Unit :=
  tryCatch (do
    let _ ← writeBundle c content
    pure ()) fun _ => pure ()

/-- The command succeeds. -/
def Succeeds (result : Except Exc ℤ) : Prop := result = .ok 0

instance (result : Except Exc ℤ) : Decidable (Succeeds result) :=
  match result with
  | .ok n => decidable_of_iff (n = 0) (by simp [Succeeds])
  | .error _ => .isFalse (by simp [Succeeds])

/-- `update-ca-certificates`: one that returns 0 installs the bundle on disk. -/
def runCli : Prog TrustWorld Exc ℤ := fun s =>
  (c.runCli s.commands, { s with
    commands := s.commands + 1
    store := if Succeeds (c.runCli s.commands) then s.bundle else s.store })

/-- `_refresh_trust_store` -/
def refreshTrustStore : Prog TrustWorld Exc Unit := do
  let returnCode ← runCli c
  if returnCode = 0 then pure ()
  else
    throw (.blocked "Updating the workload CA certificate store failed; see logs for details.")

/-- `_get_certificates` -/
def getCertificates : Except Exc (List String) :=
  if (c.relations.filter (·.active)).any fun relation => !relation.ready then
    .error (.waiting "Certificate transfer relation is not ready")
  else c.certificates

/-- `reconcile` from the changed bundle on. -/
def refreshOrRestore (previousBundle : Option String) : Prog TrustWorld Exc Bool := do
  tryCatch (refreshTrustStore c) fun e =>
    if e.isBlocked then do
      restoreBundle c previousBundle
      tryCatch (refreshTrustStore c) fun e' => if e'.isBlocked then pure () else throw e'
      throw e
    else throw e
  pure true

/-- `reconcile` -/
def reconcile : Prog TrustWorld Exc Bool := do
  let certificates ← Prog.ofExcept (getCertificates c)
  let desiredBundle := buildBundle (certificates ++ c.additionalCertificates)
  let previousBundle ← tryCatch (do
    if ← bundleExists c then
      let text ← readBundle c
      pure (some text)
    else pure none) fun e =>
      throw (.blocked ("Failed to read the workload CA certificate bundle: " ++ e.message))
  let changed ← tryCatch (writeBundle c (some desiredBundle)) fun e => do
    restoreBundle c previousBundle
    throw (.blocked ("Failed to install the workload CA certificate bundle: " ++ e.message))
  if !changed then pure false else refreshOrRestore c previousBundle

/-! ### What the functions do -/

/-- File operations succeed. -/
def ReconcileCall.FilesSucceed : Prop := ∀ n, c.file n = none

/-- The file that `_write_bundle` makes of a content. -/
def stored : Option String → Option String
  | none | some "" => none
  | some text => some text

/-- The certificates in a bundle; a file that is missing has none. -/
def content (bundle : Option String) : String := bundle.getD ""

/-- Only the bundle on disk may differ. -/
structure OnDisk (bundle : Option String) (s s' : TrustWorld) : Prop where
  bundle : s'.bundle = bundle
  store : s'.store = s.store
  commands : s'.commands = s.commands

variable {c} {s : TrustWorld}

@[simp] lemma content_stored (bundle : Option String) : content (stored bundle) = content bundle := by
  unfold stored
  split <;> rfl

lemma wp_file {Q : Unit → TrustWorld → Prop} {E : Exc → TrustWorld → Prop} (h : c.FilesSucceed)
    (hQ : Q () { s with clock := s.clock + 1 }) : (file c).wp Q E s := by
  unfold Prog.wp file
  rw [h s.clock]
  exact hQ

lemma bundleExists_spec (h : c.FilesSucceed) : (bundleExists c).wp
    (fun b s' => b = s.bundle.isSome ∧ OnDisk s.bundle s s') (fun _ _ => False) s :=
  Prog.wp_bind.2 (wp_file h ⟨rfl, rfl, rfl, rfl⟩)

lemma removeBundle_spec (h : c.FilesSucceed) : (removeBundle c).wp
    (fun changed s' => (changed = true ↔ none ≠ s.bundle) ∧ OnDisk none s s')
    (fun _ _ => False) s := by
  refine Prog.wp_bind.2 (Prog.wp_mono (bundleExists_spec h) ?_ fun _ _ h => h)
  rintro b s₁ ⟨rfl, h₁⟩
  refine Prog.wp_ite.2 ⟨fun hsome => ?_, fun hnone => ?_⟩
  · refine Prog.wp_bind.2 (wp_file h ?_)
    exact ⟨iff_of_true rfl (Option.isSome_iff_ne_none.1 hsome).symm, rfl, h₁.store, h₁.commands⟩
  · have hbundle : s.bundle = none := by simpa using hnone
    exact ⟨iff_of_false Bool.false_ne_true fun hne => hne hbundle.symm,
      h₁.bundle.trans hbundle, h₁.store, h₁.commands⟩

lemma ensureBundle_spec (h : c.FilesSucceed) (text : String) : (ensureBundle c text).wp
    (fun changed s' => (changed = true ↔ some text ≠ s.bundle) ∧ OnDisk (some text) s s')
    (fun _ _ => False) s := by
  refine Prog.wp_bind.2 (wp_file h (Prog.wp_bind.2 (Prog.wp_get.2 (Prog.wp_ite.2
    ⟨fun hsame => ?_, fun hnew => ?_⟩))))
  · exact ⟨iff_of_false Bool.false_ne_true fun hne => hne hsame.symm, hsame, rfl, rfl⟩
  · exact ⟨iff_of_true rfl fun hsame => hnew hsame.symm, rfl, rfl, rfl⟩

/-- `_write_bundle` returns whether the file has changed. -/
lemma writeBundle_spec (h : c.FilesSucceed) (bundle : Option String) : (writeBundle c bundle).wp
    (fun changed s' => (changed = true ↔ stored bundle ≠ s.bundle) ∧ OnDisk (stored bundle) s s')
    (fun _ _ => False) s := by
  unfold writeBundle stored
  split
  · exact removeBundle_spec h
  · exact removeBundle_spec h
  · exact ensureBundle_spec h _

lemma restoreBundle_spec (h : c.FilesSucceed) (bundle : Option String) :
    (restoreBundle c bundle).wp (fun _ s' => OnDisk (stored bundle) s s') (fun _ _ => False) s := by
  refine Prog.wp_tryCatch.2 (Prog.wp_bind.2 (Prog.wp_mono (writeBundle_spec h bundle) ?_
    fun _ _ h => h.elim))
  rintro changed s' ⟨-, h'⟩
  exact h'

/-! ### Refreshing -/

/-- The command raises what `except MediaWikiBlockedStatusException` does not catch. -/
def Escapes (result : Except Exc ℤ) : Prop := ∃ e, result = .error e ∧ e.isBlocked = false

lemma runCli_store_of_succeeds (h : Succeeds (c.runCli s.commands)) :
    (runCli c s).2.store = s.bundle := if_pos h

lemma runCli_store_of_not_succeeds (h : ¬ Succeeds (c.runCli s.commands)) :
    (runCli c s).2.store = s.store := if_neg h

/-- A refresh that returns has installed the bundle; one that raises has changed nothing, and
the exception is not caught only where the command has raised it. -/
lemma refreshTrustStore_spec : (refreshTrustStore c).wp
    (fun _ s' => Succeeds (c.runCli s.commands) ∧ s'.bundle = s.bundle ∧ s'.store = s.bundle)
    (fun e s' => ¬ Succeeds (c.runCli s.commands) ∧
      (e.isBlocked = false ↔ Escapes (c.runCli s.commands)) ∧ s'.bundle = s.bundle ∧
      s'.store = s.store ∧ s'.commands = s.commands + 1) s := by
  have hrun : (runCli c).wp
      (fun n s' => c.runCli s.commands = .ok n ∧ s' = (runCli c s).2)
      (fun e s' => c.runCli s.commands = .error e ∧ s' = (runCli c s).2) s := by
    refine Prog.wp_iff.2 ⟨fun n s' h => ?_, fun e s' h => ?_⟩
    · exact ⟨congrArg Prod.fst h, (congrArg Prod.snd h).symm⟩
    · exact ⟨congrArg Prod.fst h, (congrArg Prod.snd h).symm⟩
  refine Prog.wp_bind.2 (Prog.wp_mono hrun ?_ ?_)
  · rintro n s' ⟨hn, rfl⟩
    refine Prog.wp_ite.2 ⟨fun h0 => ?_, fun h0 => ?_⟩
    · have hok : Succeeds (c.runCli s.commands) := by rw [Succeeds, hn, h0]
      exact ⟨hok, rfl, runCli_store_of_succeeds hok⟩
    · have hno : ¬ Succeeds (c.runCli s.commands) := by
        rw [Succeeds, hn, Except.ok.injEq]
        exact h0
      have hescapes : ¬ Escapes (c.runCli s.commands) := by
        rintro ⟨e, he, -⟩
        rw [hn] at he
        cases he
      exact ⟨hno, iff_of_false nofun hescapes, rfl, runCli_store_of_not_succeeds hno, rfl⟩
  · rintro e s' ⟨he, rfl⟩
    have hno : ¬ Succeeds (c.runCli s.commands) := by
      rw [Succeeds, he]
      exact nofun
    refine ⟨hno, ⟨fun h => ⟨e, he, h⟩, ?_⟩, rfl, runCli_store_of_not_succeeds hno, rfl⟩
    rintro ⟨e', he', h⟩
    rw [he] at he'
    cases he'
    exact h

/-- What a call leaves that has changed the bundle. -/
structure Refreshed (c : ReconcileCall) (previous : Option String) (s s' : TrustWorld) : Prop where
  succeeds : Succeeds (c.runCli s.commands) → s'.bundle = s.bundle ∧ s'.store = s.bundle
  escapes : Escapes (c.runCli s.commands) → s'.bundle = s.bundle ∧ s'.store = s.store
  fails : ¬ Succeeds (c.runCli s.commands) → ¬ Escapes (c.runCli s.commands) →
    s'.bundle = stored previous ∧
      s'.store = if Succeeds (c.runCli (s.commands + 1)) then stored previous else s.store

lemma refreshOrRestore_spec (h : c.FilesSucceed) (previous : Option String) :
    (refreshOrRestore c previous).wp
      (fun b s' => b = true ∧ Refreshed c previous s s')
      (fun _ s' => Refreshed c previous s s') s := by
  refine Prog.wp_bind.2 (Prog.wp_tryCatch.2 (Prog.wp_mono refreshTrustStore_spec ?_ ?_))
  · rintro _ s₁ ⟨hok, hbundle, hstore⟩
    refine ⟨rfl, fun _ => ⟨hbundle, hstore⟩, fun hescapes => ?_, fun hno => absurd hok hno⟩
    obtain ⟨e, he, -⟩ := hescapes
    rw [hok] at he
    cases he
  · rintro e s₁ ⟨hno, hescapes, hbundle, hstore, hcommands⟩
    refine Prog.wp_ite.2 ⟨fun hblocked => ?_, fun hblocked => ?_⟩
    · have hcaught : ¬ Escapes (c.runCli s.commands) := fun hesc => by
        rw [hescapes.2 hesc] at hblocked
        cases hblocked
      refine Prog.wp_bind.2 (Prog.wp_mono (restoreBundle_spec h previous) ?_ fun _ _ h => h.elim)
      intro _ s₂ h₂
      -- the file is put back without a command, so the next run is the one after
      have hsecond : c.runCli s₂.commands = c.runCli (s.commands + 1) := by
        rw [h₂.commands, hcommands]
      have hfinal : ∀ s', s'.bundle = s₂.bundle →
          s'.store = (if Succeeds (c.runCli (s.commands + 1)) then s₂.bundle else s₂.store) →
          Refreshed c previous s s' := by
        intro s' hbundle' hstore'
        refine ⟨fun hok => absurd hok hno, fun hesc => absurd hesc hcaught, fun _ _ => ?_⟩
        rw [hbundle', hstore', h₂.bundle, h₂.store, hstore]
        exact ⟨rfl, rfl⟩
      have hthrow : ∀ s', Refreshed c previous s s' →
          (throw e : Prog TrustWorld Exc Unit).wp
            (fun _ s' => true = true ∧ Refreshed c previous s s')
            (fun _ s' => Refreshed c previous s s') s' := fun _ h => h
      refine Prog.wp_bind.2 (Prog.wp_tryCatch.2 (Prog.wp_mono refreshTrustStore_spec ?_ ?_))
      · rintro _ s₃ ⟨hok, hbundle₃, hstore₃⟩
        rw [hsecond] at hok
        exact hthrow _ (hfinal _ hbundle₃ (by rw [hstore₃, if_pos hok]))
      · rintro e' s₃ ⟨hno', -, hbundle₃, hstore₃, -⟩
        rw [hsecond] at hno'
        have hdone := hfinal s₃ hbundle₃ (by rw [hstore₃, if_neg hno'])
        exact Prog.wp_ite.2 ⟨fun _ => hdone, fun _ => hdone⟩
    · -- an error that is not caught leaves the new file in place
      have hesc : Escapes (c.runCli s.commands) := hescapes.1 (by simpa using hblocked)
      exact ⟨fun hok => absurd hok hno, fun _ => ⟨hbundle, hstore⟩,
        fun _ hcaught => absurd hesc hcaught⟩

/-! ### A call -/

/-- The bundle that the call wants, where the certificates can be read. -/
def ReconcileCall.Wants (c : ReconcileCall) (desired : String) : Prop :=
  ∃ certificates, getCertificates c = .ok certificates ∧
    desired = buildBundle (certificates ++ c.additionalCertificates)

lemma ReconcileCall.Wants.unique {desired desired' : String} (h : c.Wants desired)
    (h' : c.Wants desired') : desired = desired' := by
  obtain ⟨certificates, hread, rfl⟩ := h
  obtain ⟨certificates', hread', rfl⟩ := h'
  rw [hread] at hread'
  cases hread'
  rfl

/-- What a call leaves that wants the bundle. -/
def Outcome (c : ReconcileCall) (desired : String) (s s' : TrustWorld) : Prop :=
  if stored (some desired) = s.bundle then s'.bundle = s.bundle ∧ s'.store = s.store
  else ∃ s₁, OnDisk (stored (some desired)) s s₁ ∧ Refreshed c (s.bundle.map readAs) s₁ s'

lemma readPrevious_spec (h : c.FilesSucceed) :
    (do
      if ← bundleExists c then
        let text ← readBundle c
        pure (some text)
      else pure none : Prog TrustWorld Exc (Option String)).wp
      (fun previous s' => previous = s.bundle.map readAs ∧ OnDisk s.bundle s s')
      (fun _ _ => False) s := by
  refine Prog.wp_bind.2 (Prog.wp_mono (bundleExists_spec h) ?_ fun _ _ h => h)
  rintro b s₁ ⟨rfl, h₁⟩
  refine Prog.wp_ite.2 ⟨fun hsome => ?_, fun hnone => ?_⟩
  · obtain ⟨text, htext⟩ := Option.isSome_iff_exists.1 hsome
    refine Prog.wp_bind.2 (Prog.wp_bind.2 (wp_file h (Prog.wp_bind.2 (Prog.wp_get.2 ?_))))
    have hbundle : s₁.bundle = some text := h₁.bundle.trans htext
    dsimp only
    rw [hbundle]
    refine ⟨?_, htext.symm, h₁.store, h₁.commands⟩
    rw [htext]
    rfl
  · have hbundle : s.bundle = none := by simpa using hnone
    refine ⟨?_, h₁⟩
    rw [hbundle]
    rfl

/-- A call leaves one of the outcomes, or raises before it has touched anything. -/
lemma reconcile_spec (h : c.FilesSucceed) : (reconcile c).wp
    (fun changed s' => ∃ desired, c.Wants desired ∧ Outcome c desired s s' ∧
      (changed = false → stored (some desired) = s.bundle))
    (fun _ s' => (∃ e, getCertificates c = .error e) ∧ s' = s ∨
      ∃ desired, c.Wants desired ∧ Outcome c desired s s') s := by
  refine Prog.wp_bind.2 (Prog.wp_ofExcept.2 ⟨fun certificates hread => ?_, fun e hread =>
    .inl ⟨⟨e, hread⟩, rfl⟩⟩)
  generalize hdesired : buildBundle (certificates ++ c.additionalCertificates) = desired
  have hwants : c.Wants desired := ⟨certificates, hread, hdesired.symm⟩
  refine Prog.wp_bind.2 (Prog.wp_tryCatch.2 (Prog.wp_mono (readPrevious_spec h) ?_
    fun _ _ h => h.elim))
  rintro previous s₁ ⟨rfl, h₁⟩
  refine Prog.wp_bind.2 (Prog.wp_tryCatch.2 (Prog.wp_mono (writeBundle_spec h (some desired)) ?_
    fun _ _ h => h.elim))
  rintro changed s₂ ⟨hchanged, h₂⟩
  -- the file is compared with what it was before the cycle
  rw [h₁.bundle] at hchanged
  refine Prog.wp_ite.2 ⟨fun hsame => ?_, fun hnew => ?_⟩
  · have hbundle : stored (some desired) = s.bundle := by
      by_contra hne
      rw [hchanged.2 hne] at hsame
      cases hsame
    refine ⟨desired, hwants, ?_, fun _ => hbundle⟩
    rw [Outcome, if_pos hbundle]
    exact ⟨h₂.bundle.trans hbundle, h₂.store.trans h₁.store⟩
  · have hbundle : stored (some desired) ≠ s.bundle := hchanged.1 (by simpa using hnew)
    have hdisk : OnDisk (stored (some desired)) s s₂ :=
      ⟨h₂.bundle, h₂.store.trans h₁.store, h₂.commands.trans h₁.commands⟩
    have houtcome : ∀ s', Refreshed c (s.bundle.map readAs) s₂ s' → Outcome c desired s s' := by
      intro s' hs'
      rw [Outcome, if_neg hbundle]
      exact ⟨s₂, hdisk, hs'⟩
    refine Prog.wp_mono (refreshOrRestore_spec h (s.bundle.map readAs)) ?_ ?_
    · rintro _ s' ⟨rfl, hs'⟩
      exact ⟨desired, hwants, houtcome s' hs', nofun⟩
    · exact fun _ s' hs' => .inr ⟨desired, hwants, houtcome s' hs'⟩

/-! ### Consistency -/

/-- The bundle on disk has the certificates of the trust store. -/
def Consistent (s : TrustWorld) : Prop := content s.bundle = content s.store

/-- A call that replaces the certificates has a first refresh that does not escape the
handler, and where that one fails, a bundle that `read_text` returns as it is or a second
refresh that succeeds. -/
def Sound (c : ReconcileCall) (s : TrustWorld) : Prop :=
  ∀ desired, c.Wants desired → desired ≠ content s.bundle →
    ¬ Escapes (c.runCli s.commands) ∧
      (Succeeds (c.runCli s.commands) ∨ Succeeds (c.runCli (s.commands + 1)) ∨
        '\r' ∉ (content s.bundle).toList)

lemma content_map_readAs (bundle : Option String) :
    content (bundle.map readAs) = readAs (content bundle) := by
  cases bundle with
  | none => rfl
  | some text => rfl

/-- Only an empty file has the wanted content and is not the file that is written for it. -/
lemma content_eq_empty {desired : String} {bundle : Option String}
    (hne : stored (some desired) ≠ bundle) (h : desired = content bundle) : content bundle = "" := by
  by_contra hempty
  rw [← h] at hempty
  cases bundle with
  | none => exact hempty h
  | some text =>
    obtain rfl : desired = text := h
    refine hne ?_
    unfold stored
    split
    · next he => cases he
    · next he =>
      cases he
      exact absurd rfl hempty
    · next he => exact he.symm

lemma not_succeeds_of_escapes {result : Except Exc ℤ} (h : Escapes result) : ¬ Succeeds result := by
  obtain ⟨e, rfl, -⟩ := h
  exact nofun

/-- The outcome of a call in a consistent state is consistent exactly when the call is sound. -/
lemma consistent_iff_of_outcome {desired : String} {s' : TrustWorld} (hs : Consistent s)
    (hwants : c.Wants desired) (h : Outcome c desired s s') : Consistent s' ↔ Sound c s := by
  have hsound : Sound c s ↔ (desired ≠ content s.bundle → ¬ Escapes (c.runCli s.commands) ∧
      (Succeeds (c.runCli s.commands) ∨ Succeeds (c.runCli (s.commands + 1)) ∨
        '\r' ∉ (content s.bundle).toList)) := by
    constructor
    · exact fun hall => hall desired hwants
    · intro hone desired' hwants'
      rw [hwants'.unique hwants]
      exact hone
  rw [hsound]
  unfold Outcome at h
  split at h
  · next hsame =>
    -- the call changes nothing
    have heq : desired = content s.bundle := by rw [← hsame, content_stored]; rfl
    refine iff_of_true ?_ fun hne => absurd heq hne
    rw [Consistent, h.1, h.2]
    exact hs
  · next hne =>
    obtain ⟨s₁, h₁, hr⟩ := h
    obtain ⟨hok, hesc, hfail⟩ := hr
    rw [h₁.commands] at hok hesc hfail
    by_cases hsucceeds : Succeeds (c.runCli s.commands)
    · obtain ⟨hb, ht⟩ := hok hsucceeds
      refine iff_of_true ?_ fun _ => ⟨fun he => not_succeeds_of_escapes he hsucceeds, .inl hsucceeds⟩
      rw [Consistent, hb, ht]
    · by_cases hescapes : Escapes (c.runCli s.commands)
      · obtain ⟨hb, ht⟩ := hesc hescapes
        have hcontent : Consistent s' ↔ desired = content s.bundle := by
          rw [Consistent, hb, ht, h₁.bundle, h₁.store, content_stored, ← hs]
          rfl
        rw [hcontent]
        refine ⟨fun heq hne' => absurd heq hne', fun himp => ?_⟩
        by_contra hne'
        exact (himp hne').1 hescapes
      · obtain ⟨hb, ht⟩ := hfail hsucceeds hescapes
        by_cases hsecond : Succeeds (c.runCli (s.commands + 1))
        · rw [if_pos hsecond] at ht
          refine iff_of_true ?_ fun _ => ⟨hescapes, .inr (.inl hsecond)⟩
          rw [Consistent, hb, ht]
        · rw [if_neg hsecond, h₁.store] at ht
          have hcontent : Consistent s' ↔ '\r' ∉ (content s.bundle).toList := by
            rw [Consistent, hb, ht, content_stored, content_map_readAs, ← hs, readAs_eq_self_iff]
          rw [hcontent]
          refine ⟨fun hcr _ => ⟨hescapes, .inr (.inr hcr)⟩, fun himp => ?_⟩
          by_cases heq : desired = content s.bundle
          · rw [content_eq_empty hne heq]
            decide
          · exact ((himp heq).2.resolve_left hsucceeds).resolve_left hsecond

/-- The trust store over the calls of `reconcile`. -/
def trustStore : Machine TrustWorld ReconcileCall where
  init := Consistent
  step s c s' := c.FilesSucceed ∧ s' = (reconcile c s).2

lemma consistent_next_iff (h : c.FilesSucceed) (hs : Consistent s) :
    Consistent (reconcile c s).2 ↔ Sound c s := by
  refine Prog.wp_state (P := fun s' => Consistent s' ↔ Sound c s) (reconcile_spec h) ?_ ?_
  · rintro _ s' ⟨desired, hwants, houtcome, -⟩
    exact consistent_iff_of_outcome hs hwants houtcome
  · rintro _ s' (⟨⟨e, he⟩, rfl⟩ | ⟨desired, hwants, houtcome⟩)
    · refine iff_of_true hs fun desired hwants => ?_
      obtain ⟨certificates, hread, -⟩ := hwants
      rw [he] at hread
      cases hread
    · exact consistent_iff_of_outcome hs hwants houtcome

/-- A call is sound exactly when it keeps the bundle the one of the trust store; in a run of
sound calls it always is, and a call that finds nothing to do finds its certificates in the
trust store. -/
theorem consistent_of_sound_run (s : TrustWorld) :
    (∀ c : ReconcileCall, c.FilesSucceed → Consistent s →
      (Consistent (reconcile c s).2 ↔ Sound c s)) ∧
    ((trustStore.restrict fun s c => Sound c s).Reachable s → Consistent s ∧
      ∀ (c : ReconcileCall) (s' : TrustWorld), c.FilesSucceed → reconcile c s = (.ok false, s') →
        c.Wants (content s'.store)) := by
  refine ⟨fun c h hs => consistent_next_iff h hs, fun hreach => ?_⟩
  have hinvariant : (trustStore.restrict fun s c => Sound c s).Invariant Consistent := by
    refine ⟨fun s hs => hs, ?_⟩
    rintro s c s' hs ⟨hsound, hfiles, rfl⟩
    exact (consistent_next_iff hfiles hs).2 hsound
  have hs := hinvariant.reachable hreach
  refine ⟨hs, fun c s' h hrun => ?_⟩
  obtain ⟨desired, hwants, houtcome, hsame⟩ := Prog.wp_of_ok (reconcile_spec h) hrun
  have hsame := hsame rfl
  rw [Outcome, if_pos hsame] at houtcome
  have hcontent : content s'.store = desired := by
    rw [houtcome.2, ← hs, ← hsame, content_stored]
    rfl
  rw [hcontent]
  exact hwants

/-- A unit that trusts one certificate. -/
def trusting : TrustWorld := { bundle := some "old\n", store := some "old\n" }

/-- A call for another certificate whose commands end in the given ways. -/
def renewing (first second : Except Exc ℤ) : ReconcileCall where
  certificates := .ok ["new"]
  runCli n := if n = 0 then first else second

/-- A first refresh that fails is rolled back. -/
theorem consistent_of_sound_run_failed :
    Consistent (reconcile (renewing (.ok 1) (.ok 1)) trusting).2 := by
  have hsound : Sound (renewing (.ok 1) (.ok 1)) trusting := by
    intro desired _ _
    refine ⟨?_, .inr (.inr (by decide))⟩
    rintro ⟨e, he, -⟩
    cases he
  exact ((consistent_of_sound_run trusting).1 (renewing (.ok 1) (.ok 1)) (fun _ => rfl) rfl).2
    hsound

/-- A command that ran out of time. -/
def timedOut : Except Exc ℤ :=
  .error (.containerError "Container command execution timed out; see logs for details.")

/-- A first refresh that runs out of time leaves the new bundle with the old trust store. -/
theorem not_consistent_timeout : ¬ ∀ s, trustStore.Reachable s → Consistent s := by
  intro h
  have hinit : Consistent trusting := rfl
  have hconsistent := h _ (.step (.init hinit)
    ⟨fun _ => rfl, (rfl : _ = (reconcile (renewing timedOut (.ok 0)) trusting).2)⟩)
  have hbundle : (reconcile (renewing timedOut (.ok 0)) trusting).2.bundle = some "new\n" := by
    decide +kernel
  have hstore : (reconcile (renewing timedOut (.ok 0)) trusting).2.store = some "old\n" := by
    decide +kernel
  rw [Consistent, hbundle, hstore] at hconsistent
  exact absurd hconsistent (by decide)

end CertificateTransfer
end MediawikiCharm
