/-
Apache's TLS material and its site (`relations/tls.py`, `mediawiki/_tls.py`).

A cycle writes or removes the certificate and the key, enables or disables the site, and
then asks for a restart of Apache if it has changed anything.  Every operation on the
container may raise, before its effect or after it.  A cycle that raises has asked for no
restart, and a later one sees only the difference between the files and what it wants: a
restart is lost exactly when a cycle completes that begins with a change nobody asked a
restart for and with everything as it wants it.
-/
import MediawikiCharm.Services

namespace MediawikiCharm
namespace Tls

open Workload Services

/-! ### The material -/

/-- What the certificates relation says. -/
structure Relation where
  established : Bool := true
  /-- The messages of `get_request_errors()`. -/
  errors : List String := []
  /-- The certificate and its chain. -/
  certificate : Option (String × List String) := none
  privateKey : Option String := none

/-- The certificate chain and the private key. -/
structure Material where
  certificateChain : String
  privateKey : String
deriving DecidableEq

/-- `get_material`; a call of the library may raise in place of an answer. -/
def getMaterial : Except Exc Relation → Except Exc (Option Material)
  | .error e => .error e
  | .ok relation =>
    if !relation.established then .ok none
    else
      match relation.errors with
      | message :: _ => .error (.blocked ("TLS certificate request denied: " ++ message))
      | [] =>
        match relation.certificate, relation.privateKey with
        | some (certificate, chain), some privateKey =>
          .ok (some ⟨"\n".intercalate (certificate :: chain), privateKey⟩)
        | _, _ => .ok none

/-! ### The container -/

/-- The two files of the material. -/
inductive TlsPath
  /-- `CERTIFICATE_PATH` -/
  | certificate
  /-- `PRIVATE_KEY_PATH` -/
  | privateKey
deriving DecidableEq

/-- A file with what `ensure_contents` compares. -/
structure OwnedFile where
  content : String
  mode : ℕ
  user : String
  group : String
deriving DecidableEq

/-- A file of the material, with `_FILE_MODE`, `_FILE_USER` and `_FILE_GROUP`. -/
def ownedFile (content : String) : OwnedFile := ⟨content, 0o640, "root", "_daemon_"⟩

/-- The part of the container that TLS is about. -/
structure TlsState where
  files : TlsPath → Option OwnedFile := fun _ => none
  /-- `_APACHE_ENABLED_SITE_FILE` is a symbolic link. -/
  siteEnabled : Bool := false
  /-- A file or the link has changed since `request_service_restart` was last called for
  Apache. -/
  owed : Bool := false
  workload : Workload := {}

/-- The operations on the container. -/
inductive Operation
  /-- the comparison of `ensure_contents`, or `exists` -/
  | inspect (path : TlsPath)
  | write (path : TlsPath)
  | unlink (path : TlsPath)
  | isSymlink
  /-- `a2ensite` or `a2dissite` -/
  | exec
deriving DecidableEq

/-- An operation that raises. -/
structure Failure where
  error : Exc
  /-- It has had its effect nevertheless. -/
  done : Bool

/-- The answers of the surroundings in one cycle. -/
structure TlsEnv where
  relation : Except Exc Relation
  failure : Operation → Option Failure := fun _ => none

variable (env : TlsEnv)

/-- An operation with its effect. -/
def perform (operation : Operation) (effect : TlsState → TlsState) : Prog TlsState Exc Unit :=
  fun s =>
    match env.failure operation with
    | none => (.ok (), effect s)
    | some failure => (.error failure.error, if failure.done then effect s else s)

/-- A file changes. -/
def TlsState.setFile (path : TlsPath) (file : Option OwnedFile) (s : TlsState) : TlsState :=
  { s with files := Function.update s.files path file, owed := true }

/-- The link changes. -/
def TlsState.setSite (enabled : Bool) (s : TlsState) : TlsState :=
  { s with siteEnabled := enabled, owed := true }

/-! ### Reconciliation -/

/-- `ensure_contents` -/
def ensureContents (path : TlsPath) (file : OwnedFile) : Prog TlsState Exc Bool := do
  perform env (.inspect path) id
  let s ← Prog.get
  if s.files path = some file then pure false
  else
    perform env (.write path) (TlsState.setFile path (some file))
    pure true

/-- One round of the loop of `_remove_material`. -/
def removeFile (path : TlsPath) : Prog TlsState Exc Bool := do
  perform env (.inspect path) id
  let s ← Prog.get
  if s.files path = none then pure false
  else
    perform env (.unlink path) (TlsState.setFile path none)
    pure true

/-- `_remove_material` -/
def removeMaterial : Prog TlsState Exc Bool := do
  let certificateRemoved ← removeFile env .certificate
  let privateKeyRemoved ← removeFile env .privateKey
  pure (certificateRemoved || privateKeyRemoved)

/-- `TlsReconciliationResult` -/
structure TlsReconciliationResult where
  ready : Bool
  changed : Bool

/-- `Tls.reconcile` -/
def reconcile : Prog TlsState Exc TlsReconciliationResult := do
  match ← Prog.ofExcept (getMaterial env.relation) with
  | none =>
    let changed ← removeMaterial env
    pure ⟨false, changed⟩
  | some material =>
    let certificateChanged ← ensureContents env .certificate (ownedFile material.certificateChain)
    let privateKeyChanged ← ensureContents env .privateKey (ownedFile material.privateKey)
    pure ⟨true, certificateChanged || privateKeyChanged⟩

/-- `_set_apache_site_enabled` -/
def setApacheSiteEnabled (enabled : Bool) : Prog TlsState Exc Bool := do
  perform env .isSymlink id
  let s ← Prog.get
  if s.siteEnabled = enabled then pure false
  else
    perform env .exec (TlsState.setSite enabled)
    pure true

/-- `_tls_reconciliation` -/
def tlsReconciliation : Prog TlsState Exc Bool := do
  let result ← reconcile env
  let siteChanged ← setApacheSiteEnabled env result.ready
  pure (result.changed || siteChanged)

/-! ### Cycles -/

/-- Run a program on the rest of the container. -/
def onWorkload {α : Type} (x : Prog Workload Exc α) : Prog TlsState Exc α :=
  Prog.zoom TlsState.workload (fun w s => { s with workload := w }) x

/-- `request_service_restart` for Apache. -/
def requestApacheRestart (workloadEnv : Env) : Prog TlsState Exc Unit := do
  Prog.modify fun s => { s with owed := false }
  onWorkload (requestServiceRestart workloadEnv [serviceName])

/-- A cycle of `_reconcile_configuration`: what stands before and after the TLS step leaves
the material and the site alone. -/
structure Cycle where
  env : TlsEnv
  workloadEnv : Env
  before : Prog Workload Exc Unit := pure ()
  after : Prog Workload Exc Unit := pure ()

/-- `_reconcile_configuration`, as TLS sees it. -/
def Cycle.run (c : Cycle) : Prog TlsState Exc Unit := do
  onWorkload c.before
  let changed ← tlsReconciliation c.env
  (if changed then requestApacheRestart c.workloadEnv else pure () : Prog TlsState Exc Unit)
  onWorkload c.after

/-- The cycle gets to the end of `_tls_reconciliation`. -/
def Cycle.Completes (c : Cycle) (s : TlsState) : Prop :=
  ∃ s₁ changed s₂, onWorkload c.before s = (.ok (), s₁) ∧
    tlsReconciliation c.env s₁ = (.ok changed, s₂)

/-- In the run of these cycles no restart is lost: whenever a cycle completes, a restart was
asked for after every change. -/
def RestartKept : TlsState → List Cycle → Prop
  | _, [] => True
  | s, c :: cs => (c.Completes s → (c.run s).2.owed = false) ∧ RestartKept (c.run s).2 cs

/-- The files and the site are as this material wants them. -/
def AsWanted (material : Option Material) (s : TlsState) : Prop :=
  s.files .certificate = material.map (fun m => ownedFile m.certificateChain) ∧
    s.files .privateKey = material.map (fun m => ownedFile m.privateKey) ∧
    s.siteEnabled = material.isSome

/-- In the run of these cycles every change is noticed: a cycle that completes and begins
with a change that no restart was asked for finds something that is not as it wants it. -/
def ChangeNoticed : TlsState → List Cycle → Prop
  | _, [] => True
  | s, c :: cs => (c.Completes s → s.owed = true →
      ∀ material, getMaterial c.env.relation = .ok material → ¬ AsWanted material s) ∧
    ChangeNoticed (c.run s).2 cs

/-! ### What a cycle does -/

variable {env : TlsEnv} {s s' : TlsState}

/-- A change of one file to what is wanted: the answer is whether the file was another one,
and the change is owed from then on. -/
structure Settled (path : TlsPath) (file : Option OwnedFile) (s : TlsState) (b : Bool)
    (s' : TlsState) : Prop where
  files : ∀ p, p ≠ path → s'.files p = s.files p
  changed : b = true ↔ s.files path ≠ file
  siteEnabled : s'.siteEnabled = s.siteEnabled
  owed : s'.owed = (s.owed || b)

lemma wp_perform {operation : Operation} {effect : TlsState → TlsState}
    {Q : Unit → TlsState → Prop} (h : Q () (effect s)) :
    (perform env operation effect).wp Q (fun _ _ => True) s := by
  refine Prog.wp_iff.2 ⟨fun _ s₁ hrun => ?_, fun _ _ _ => trivial⟩
  unfold perform at hrun
  split at hrun
  · cases hrun
    exact h
  · cases hrun

/-- `ensure_contents` and a round of `_remove_material` have this shape. -/
lemma settle_spec (inspect change : Operation) (path : TlsPath) (file : Option OwnedFile)
    (s : TlsState) :
    (do
      perform env inspect id
      let s ← Prog.get
      if s.files path = file then pure false
      else
        perform env change (TlsState.setFile path file)
        pure true : Prog TlsState Exc Bool).wp (Settled path file s) (fun _ _ => True) s := by
  refine Prog.wp_bind.2 (wp_perform (Prog.wp_bind.2 (Prog.wp_get.2 (Prog.wp_ite.2 ⟨?_, ?_⟩))))
  · intro heq
    refine Prog.wp_pure.2 ⟨fun _ _ => rfl, ?_, rfl, ?_⟩
    · exact iff_of_false Bool.false_ne_true (not_not.2 heq)
    · exact (Bool.or_false _).symm
  · intro hne
    refine Prog.wp_bind.2 (wp_perform (Prog.wp_pure.2 ⟨fun p hp => ?_, ?_, rfl, ?_⟩))
    · exact Function.update_of_ne hp _ _
    · exact iff_of_true rfl hne
    · exact (Bool.or_true _).symm

lemma ensureContents_spec (path : TlsPath) (file : OwnedFile) (s : TlsState) :
    (ensureContents env path file).wp (Settled path (some file) s) (fun _ _ => True) s :=
  settle_spec (.inspect path) (.write path) path (some file) s

lemma removeFile_spec (path : TlsPath) (s : TlsState) :
    (removeFile env path).wp (Settled path none s) (fun _ _ => True) s :=
  settle_spec (.inspect path) (.unlink path) path none s

/-- The two files one after the other. -/
lemma Settled.both {s₁ s₂ : TlsState} {cert key : Option OwnedFile} {b b' : Bool}
    (h : Settled .certificate cert s b s₁) (h' : Settled .privateKey key s₁ b' s₂) :
    ((b || b') = true ↔ ¬ (s.files .certificate = cert ∧ s.files .privateKey = key)) ∧
      s₂.siteEnabled = s.siteEnabled ∧ s₂.owed = (s.owed || (b || b')) := by
  have hkey : s₁.files .privateKey = s.files .privateKey := h.files _ (by decide)
  refine ⟨?_, h'.siteEnabled.trans h.siteEnabled, ?_⟩
  · rw [Bool.or_eq_true, h.changed, h'.changed, hkey]
    tauto
  · rw [h'.owed, h.owed, Bool.or_assoc]

/-- `Tls.reconcile` finds out whether the files are those of the material. -/
lemma reconcile_spec (s : TlsState) : (reconcile env).wp
    (fun result s' => ∃ material, getMaterial env.relation = .ok material ∧
      result.ready = material.isSome ∧
      (result.changed = true ↔
        ¬ (s.files .certificate = material.map (fun m => ownedFile m.certificateChain) ∧
          s.files .privateKey = material.map (fun m => ownedFile m.privateKey))) ∧
      s'.siteEnabled = s.siteEnabled ∧ s'.owed = (s.owed || result.changed))
    (fun _ _ => True) s := by
  refine Prog.wp_bind.2 (Prog.wp_ofExcept.2 ⟨fun material hmaterial => ?_, fun _ _ => trivial⟩)
  cases material with
  | none =>
    refine Prog.wp_bind.2 (Prog.wp_bind.2 ?_)
    refine Prog.wp_mono (removeFile_spec .certificate s) (fun b s₁ h => ?_) fun _ _ h => h
    refine Prog.wp_bind.2 ?_
    refine Prog.wp_mono (removeFile_spec .privateKey s₁) (fun b' s₂ h' => ?_) fun _ _ h => h
    exact ⟨none, hmaterial, rfl, h.both h'⟩
  | some m =>
    refine Prog.wp_bind.2 ?_
    refine Prog.wp_mono (ensureContents_spec .certificate _ s) (fun b s₁ h => ?_) fun _ _ h => h
    refine Prog.wp_bind.2 ?_
    refine Prog.wp_mono (ensureContents_spec .privateKey _ s₁) (fun b' s₂ h' => ?_) fun _ _ h => h
    exact ⟨some m, hmaterial, rfl, h.both h'⟩

lemma setApacheSiteEnabled_spec (enabled : Bool) (s : TlsState) :
    (setApacheSiteEnabled env enabled).wp
      (fun changed s' => (changed = true ↔ s.siteEnabled ≠ enabled) ∧
        s'.owed = (s.owed || changed)) (fun _ _ => True) s := by
  refine Prog.wp_bind.2 (wp_perform (Prog.wp_bind.2 (Prog.wp_get.2 (Prog.wp_ite.2 ⟨?_, ?_⟩))))
  · intro heq
    exact Prog.wp_pure.2 ⟨iff_of_false Bool.false_ne_true (not_not.2 heq), (Bool.or_false _).symm⟩
  · intro hne
    refine Prog.wp_bind.2 (wp_perform (Prog.wp_pure.2 ⟨iff_of_true rfl hne, ?_⟩))
    exact (Bool.or_true _).symm

/-- `_tls_reconciliation` answers whether anything was not as it is wanted. -/
lemma tlsReconciliation_spec (s : TlsState) : (tlsReconciliation env).wp
    (fun changed s' => (∃ material, getMaterial env.relation = .ok material ∧
      (changed = true ↔ ¬ AsWanted material s)) ∧ s'.owed = (s.owed || changed))
    (fun _ _ => True) s := by
  refine Prog.wp_bind.2 (Prog.wp_mono (reconcile_spec s) ?_ fun _ _ h => h)
  rintro result s₁ ⟨material, hmaterial, hready, hchanged, hsite, howed⟩
  refine Prog.wp_bind.2 (Prog.wp_mono (setApacheSiteEnabled_spec result.ready s₁) ?_
    fun _ _ h => h)
  rintro siteChanged s₂ ⟨hsiteChanged, howed'⟩
  refine Prog.wp_pure.2 ⟨⟨material, hmaterial, ?_⟩, ?_⟩
  · rw [Bool.or_eq_true, hchanged, hsiteChanged, hsite, hready, AsWanted]
    tauto
  · rw [howed', howed, Bool.or_assoc]

/-! ### A cycle that completes -/

/-- What runs on the rest of the container leaves the files, the site and what is owed. -/
lemma frame_onWorkload {α : Type} (x : Prog Workload Exc α) :
    Prog.Frame (fun s => (s.files, s.siteEnabled, s.owed)) (onWorkload x) :=
  fun _ => rfl

lemma AsWanted.congr {material : Option Material} (hfiles : s'.files = s.files)
    (hsite : s'.siteEnabled = s.siteEnabled) : AsWanted material s' ↔ AsWanted material s := by
  rw [AsWanted, AsWanted, hfiles, hsite]

/-- A call of `request_service_restart` settles what is owed, also when it raises. -/
lemma requestApacheRestart_owed (workloadEnv : Env) (s : TlsState) :
    (requestApacheRestart workloadEnv s).2.owed = false := by
  rw [requestApacheRestart, Prog.bind_run, Prog.modify_run]
  rfl

/-- A cycle that completes leaves something owed exactly when it began with something owed and
with everything as it wants it. -/
lemma run_owed {c : Cycle} (hc : c.Completes s) : (c.run s).2.owed = false ↔
    (s.owed = true → ∀ material, getMaterial c.env.relation = .ok material →
      ¬ AsWanted material s) := by
  obtain ⟨s₁, changed, s₂, hbefore, htls⟩ := hc
  have hs₁ : (s₁.files, s₁.siteEnabled, s₁.owed) = (s.files, s.siteEnabled, s.owed) := by
    have h := frame_onWorkload c.before s
    rwa [hbefore] at h
  obtain ⟨hfiles, hsite, howed⟩ : s₁.files = s.files ∧ s₁.siteEnabled = s.siteEnabled ∧
      s₁.owed = s.owed := by simpa using hs₁
  have hspec := @tlsReconciliation_spec c.env s₁
  obtain ⟨⟨material, hmaterial, hchanged⟩, hs₂⟩ := Prog.wp_of_ok hspec htls
  rw [AsWanted.congr hfiles hsite] at hchanged
  -- what stands after the request does not change what is owed
  have hafter : (c.run s).2.owed = ((if changed then requestApacheRestart c.workloadEnv
      else pure () : Prog TlsState Exc Unit) s₂).2.owed := by
    rw [Cycle.run, Prog.bind_run_ok hbefore, Prog.bind_run_ok htls, Prog.bind_run]
    rcases (if changed then requestApacheRestart c.workloadEnv else pure () :
      Prog TlsState Exc Unit) s₂ with ⟨e | _, s₃⟩
    · rfl
    · rfl
  rw [hafter]
  cases changed with
  | true =>
    have hnot : ¬ AsWanted material s := hchanged.1 rfl
    refine iff_of_true (requestApacheRestart_owed c.workloadEnv s₂) fun _ m hm => ?_
    rw [hmaterial] at hm
    cases hm
    exact hnot
  | false =>
    have hwanted : AsWanted material s := by
      by_contra hnot
      cases hchanged.2 hnot
    show s₂.owed = false ↔ _
    rw [hs₂, Bool.or_false, howed]
    constructor
    · intro hno hyes
      rw [hno] at hyes
      cases hyes
    · intro h
      by_contra hyes
      exact h (by simpa using hyes) material hmaterial hwanted

/-- In a run of cycles no restart is lost exactly when every cycle that completes and begins
with a change that no restart was asked for finds something that is not as it wants it. -/
theorem restartKept_iff (s : TlsState) (cs : List Cycle) :
    RestartKept s cs ↔ ChangeNoticed s cs := by
  induction cs generalizing s with
  | nil => exact Iff.rfl
  | cons c cs ih =>
    rw [RestartKept, ChangeNoticed, ih]
    exact and_congr_left fun _ => forall_congr' fun hc => run_owed hc

/-- The relation with this certificate and key. -/
def issued (certificate privateKey : String) : Except Exc Relation :=
  .ok { certificate := some (certificate, []), privateKey := some privateKey }

/-- Apache runs with the first certificate. -/
def servingFirst : TlsState where
  files
    | .certificate => some (ownedFile "first")
    | .privateKey => some (ownedFile "key")
  siteEnabled := true

/-- A cycle in which nothing but the TLS step is done. -/
def renewal (failure : Operation → Option Failure) : Cycle where
  env := ⟨issued "second" "key", failure⟩
  workloadEnv := .quiet ⟨.ok 0, none⟩

/-- `is_symlink` raises after the renewed certificate was written: the next cycle finds the
certificate as it wants it and asks for no restart. -/
theorem not_restartKept_renewal : ¬ RestartKept servingFirst
    [renewal fun operation => if operation = .isSymlink then some ⟨.pebble "", false⟩ else none,
      renewal fun _ => none] := by
  rintro ⟨-, h, -⟩
  have howed := h ⟨_, false, _, rfl, rfl⟩
  revert howed
  decide

end Tls
end MediawikiCharm
