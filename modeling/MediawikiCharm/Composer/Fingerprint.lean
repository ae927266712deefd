/-
The update path of `_should_skip_composer` beside the fingerprint `state_hash`.

The update path compares what `json.loads` reads from `composer.user.json` with the wanted
dictionary, and `state_hash` prints the wanted dictionary in canonical form.  A change of the
order of keys is seen by neither.  A number that is replaced by an equal one of another type,
or a zero that changes its sign, is seen by the fingerprint only: such a change is published
without having been applied.
-/
import MediawikiCharm.Composer
import MediawikiCharm.Lib.JsonEquality

namespace MediawikiCharm
namespace Composer

open Json PyText Workload

variable {F : Type} [FiniteFloat F]

/-- The configuration was the last to be applied: `composer.user.json` is its text. -/
def Stored (c : ComposerJson F) (w : Workload) : Prop :=
  w.files .userComposer = some (.text (dumpsText c.json))

/-- An update that has succeeded leaves its configuration stored. -/
lemma stored_of_update {env : Env} {c : ComposerJson F} {lock : Option String} {force : Bool}
    {w w' : Workload} (h : composerReconciliation env c true lock force w = (.ok true, w')) :
    Stored c w' := by
  have hspec := @composerReconciliation_spec F _ env w c true lock force
  rcases Prog.wp_of_ok hspec h with ⟨hb, -⟩ | ⟨-, -, r, hr, -, ht⟩
  · cases hb
  · obtain ⟨n, rfl⟩ := ht
    exact afterRun_userComposer c r w

/-- With `stored` in the file, what the update path decides for `wanted` agrees with the
fingerprints of the two, whatever the surroundings answer: it skips for nothing whose
canonical text is new, and a mere change of the order of keys starts no command. -/
def SkipAgrees (stored wanted : ComposerJson F) : Prop :=
  ∀ (env : Env) (lock : Option String) (w : Workload), Stored stored w →
    (∀ w', shouldSkipComposer env wanted true lock w = (.ok true, w') →
      canonical stored.json = canonical wanted.json) ∧
    (SameUpToOrder stored.json wanted.json →
      (composerReconciliation env wanted true lock false w).2.composerRuns = w.composerRuns)

variable {stored wanted : ComposerJson F} {w : Workload}

lemma wanted_iff_pyEq (h : Stored stored w) {lock : Option String} :
    Wanted wanted true lock w.files ↔ pyEq stored.json wanted.json = true := by
  rw [wanted_iff h]
  exact and_iff_left (.inl rfl)

/-- The update path skips for equal dictionaries only. -/
lemma pyEq_of_skip {env : Env} {lock : Option String} {w' : Workload} (h : Stored stored w)
    (hskip : shouldSkipComposer env wanted true lock w = (.ok true, w')) :
    pyEq stored.json wanted.json = true := by
  have hspec := @shouldSkipComposer_spec F _ env w wanted true lock
  obtain ⟨-, hiff⟩ := Prog.wp_of_ok hspec hskip
  exact (wanted_iff_pyEq h).1 (hiff.1 rfl)

/-- For equal dictionaries it does skip, unless a file operation raises. -/
lemma skip_of_pyEq (env : Env) (lock : Option String) (h : Stored stored w)
    (henv : env.FilesSucceed) (heq : pyEq stored.json wanted.json = true) :
    ∃ w', shouldSkipComposer env wanted true lock w = (.ok true, w') := by
  have hspec := @shouldSkipComposer_spec F _ env w wanted true lock
  rcases hrun : shouldSkipComposer env wanted true lock w with ⟨e | skip, w'⟩
  · obtain ⟨-, hundecodable⟩ := Prog.wp_of_error hspec hrun
    rcases hundecodable henv with huser | ⟨hup, -⟩
    · rw [Stored, huser] at h
      cases h
    · cases hup
  · obtain ⟨-, hiff⟩ := Prog.wp_of_ok hspec hrun
    have hskip : skip = true := hiff.2 ((wanted_iff_pyEq h).2 heq)
    exact ⟨w', by rw [hskip]⟩

/-- For equal dictionaries no command is started, also where a file operation raises. -/
lemma composerRuns_of_pyEq (env : Env) (lock : Option String) (h : Stored stored w)
    (heq : pyEq stored.json wanted.json = true) :
    (composerReconciliation env wanted true lock false w).2.composerRuns = w.composerRuns := by
  have hspec : (composerReconciliation env wanted true lock false).wp
      (fun _ w' => w'.composerRuns = w.composerRuns)
      (fun _ w' => w'.composerRuns = w.composerRuns) w := by
    refine Prog.wp_ite.2 ⟨fun _ => rfl, fun _ => ?_⟩
    refine Prog.wp_bind.2 (Prog.wp_mono (shouldSkipComposer_spec wanted true lock) ?_ ?_)
    · rintro skip w₁ ⟨⟨n, rfl⟩, hiff⟩
      have hskip : skip = true := hiff.2 ((wanted_iff_pyEq h).2 heq)
      exact Prog.wp_ite.2 ⟨fun _ => rfl, fun hno => absurd hskip hno⟩
    · rintro e w₁ ⟨⟨n, rfl⟩, -⟩
      rfl
  exact Prog.wp_state hspec (fun _ _ h => h) fun _ _ h => h

/-- The update path agrees with the fingerprint exactly when the two dictionaries are
different in Python or hold no equal numbers of different types or signs in one place. -/
theorem skipAgrees_iff (stored wanted : ComposerJson F) : SkipAgrees stored wanted ↔
    (pyEq stored.json wanted.json = true → SpelledAlike stored.json wanted.json) := by
  have hstored : wellFormed stored.json = true := stored.wellFormed
  have hwanted : wellFormed wanted.json = true := wanted.wellFormed
  constructor
  · intro h heq
    -- surroundings in which nothing raises, and a container that holds the file
    let env : Env := .quiet ⟨.ok 0, none⟩
    let w : Workload := { files := fun _ => some (.text (dumpsText stored.json)) }
    have hw : Stored stored w := rfl
    obtain ⟨w', hskip⟩ := skip_of_pyEq env none hw (fun _ => rfl) heq
    have hcanonical := (h env none w hw).1 w' hskip
    exact ((canonical_eq_iff_pyEq hstored hwanted).1 hcanonical).2
  · intro h env lock w hw
    constructor
    · intro w' hskip
      have heq := pyEq_of_skip hw hskip
      exact (canonical_eq_iff_pyEq hstored hwanted).2 ⟨heq, h heq⟩
    · intro hsame
      have heq := ((sameUpToOrder_iff stored.json wanted.json hstored hwanted).1 hsame).1
      exact composerRuns_of_pyEq env lock hw heq

/-- `{"extra": 1}` -/
def extraOne : ComposerJson Empty := ⟨[(lit "extra", .int 1)], by decide⟩

/-- `{"extra": true}` -/
def extraTrue : ComposerJson Empty := ⟨[(lit "extra", .bool true)], by decide⟩

/-- `true` is equal to `1` and has another text: it is skipped. -/
theorem not_skipAgrees_true : ¬ SkipAgrees extraOne extraTrue := by
  intro h
  let w : Workload := { files := fun _ => some (.text (dumpsText extraOne.json)) }
  have hw : Stored extraOne w := rfl
  have heq : pyEq extraOne.json extraTrue.json = true := by decide
  obtain ⟨w', hskip⟩ := skip_of_pyEq (.quiet ⟨.ok 0, none⟩) none hw (fun _ => rfl) heq
  have hcanonical := (h _ none w hw).1 w' hskip
  have hone : wellFormed extraOne.json = true := extraOne.wellFormed
  have htrue : wellFormed extraTrue.json = true := extraTrue.wellFormed
  have hsame := (canonical_eq_iff hone htrue).1 hcanonical
  simp [ComposerJson.json, extraOne, extraTrue, SameUpToOrder, SameMembers] at hsame

end Composer
end MediawikiCharm
