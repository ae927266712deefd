/-
Histories of repairs.

A history starts with any tables whose surrogates only the charm uses.  Its events are attempts
at the repair, whatever fails in them, and changes of the tables by MediaWiki, which leave the
surrogates alone.  No statement of the repair takes the compliance of a table away or touches
what is not the charm's, and a repair that returns leaves the listed tables compliant.  It
leaves a column without a default only in a table that has a key of its own by then.
-/
import MediawikiCharm.Lib.Machine
import MediawikiCharm.PrimaryKeys.Visit

namespace MediawikiCharm
namespace PrimaryKeys

open Schema

variable {env : DatabaseEnv} {n : ℕ} {table : String} {moves : List Move} {s s' : TableState}
  {t t' : Table} {a a' : Shape} {m : Move}

/-! ### What a visit keeps -/

/-- A statement that keeps a compliant table compliant and touches the surrogate only. -/
def Sound (e : Executed) : Prop :=
  (e.before.Compliant → e.after.Compliant) ∧
    e.after.others column columnUniq = e.before.others column columnUniq

/-- What is not the charm's in a table. -/
def TableState.others (s : TableState) : Option (List Column × List Key × Bool) :=
  s.table.map (Table.others column columnUniq)

lemma step_ownKey (h : m.step a = some a') : a'.ownKey = a.ownKey := by
  revert h
  cases m <;> simp only [Move.step] <;> split <;> intro h <;>
    first | (obtain rfl := Option.some.inj h; rfl) | cases h

lemma stepAll_ownKey (h : stepAll moves a = some a') : a'.ownKey = a.ownKey := by
  induction moves generalizing a with
  | nil =>
    obtain rfl : a = a' := Option.some.inj h
    rfl
  | cons m moves ih =>
    obtain ⟨a₁, ha₁, h⟩ := Option.bind_eq_some_iff.1 h
    exact (ih h).trans (step_ownKey ha₁)

/-- An index is dropped beside a key of the table's own only. -/
lemma sound_of_performed {e : Executed} (hc : CharmOnly t) (hdrop : m = .dropIndex → ownKey t = true)
    (hstatement : e.statement = m.ddl) (hbefore : e.before = t) : Sound e := by
  obtain ⟨statement, before, after, happly⟩ := e
  obtain rfl : statement = m.ddl := hstatement
  obtain rfl : before = t := hbefore
  refine ⟨Ddl.compliant_of_apply happly fun name hname => ?_, Ddl.others_of_apply happly m.about⟩
  cases m with
  | dropIndex =>
    obtain rfl : columnUniq = name := Ddl.dropIndex.inj hname
    obtain ⟨k, hk, hcolumn⟩ := ownKey_iff.1 (hdrop rfl)
    refine ⟨k, hk, fun huniq => hcolumn ?_⟩
    rw [hc.uniq k (Table.mem_notNullKeys.1 hk).1 huniq]
    exact List.mem_singleton_self _
  | addColumn => cases hname
  | addUniqueKey => cases hname
  | setDefault => cases hname
  | dropColumn => cases hname

/-- Only the charm uses the surrogate, and all statements so far are sound. -/
structure Kept (s : TableState) : Prop where
  charmOnly : ∀ t, s.table = some t → CharmOnly t
  sound : ∀ e ∈ s.executed, Sound e

lemma kept_perform (hs : Has s t) (hsound : ∀ e ∈ s.executed, Sound e)
    (hdrop : m = .dropIndex → ownKey t = true) (hp : Performed m s t s' t') :
    (∀ e ∈ s'.executed, Sound e) ∧ s'.others = s.others := by
  obtain ⟨e, hexecuted, hstatement, hbefore, hafter⟩ := hp.executed
  have he := sound_of_performed hs.charmOnly hdrop hstatement hbefore
  constructor
  · rw [hexecuted]
    exact List.forall_mem_cons.2 ⟨he, hsound⟩
  · have hothers := he.2
    rw [hbefore, hafter] at hothers
    rw [TableState.others, TableState.others, hp.has.table, hs.table, Option.map_some, hothers]
    rfl

lemma kept_performAll (hs : Has s t) (hsound : ∀ e ∈ s.executed, Sound e)
    (hdrop : .dropIndex ∈ moves → ownKey t = true) (h : performAll moves s = some s') :
    Kept s' ∧ s'.others = s.others := by
  induction moves generalizing s t with
  | nil =>
    obtain rfl : s = s' := Option.some.inj h
    refine ⟨⟨fun t' ht' => ?_, hsound⟩, rfl⟩
    exact Option.some.inj (hs.table.symm.trans ht') ▸ hs.charmOnly
  | cons m moves ih =>
    obtain ⟨s₁, hs₁, h⟩ := Option.bind_eq_some_iff.1 h
    obtain ⟨t₁, hp⟩ := performed_of_perform hs hs₁
    obtain ⟨hsound₁, hothers₁⟩ := kept_perform hs hsound (fun hm => hdrop (by simp [hm])) hp
    have hown : ownKey t₁ = ownKey t := step_ownKey hp.step
    obtain ⟨hkept, hothers⟩ := ih hp.has hsound₁
      (fun hmem => hown.trans (hdrop (List.mem_cons_of_mem _ hmem))) h
    exact ⟨hkept, hothers.trans hothers₁⟩

/-- On every exit a visit keeps what is not the charm's, and its statements are sound. -/
lemma kept_visit (h : Kept s) :
    Kept (reconcileTable env n table s).2 ∧ (reconcileTable env n table s).2.others = s.others := by
  cases hs : s.table with
  | none =>
    rw [visit_absent hs]
    exact ⟨h, rfl⟩
  | some t =>
    have hhas : Has s t := ⟨hs, h.charmOnly t hs⟩
    have hpart : ∀ s', Visited env n table t s s' → Kept s' ∧ s'.others = s.others := by
      intro s' hvisited
      obtain ⟨part, hpart, hs'⟩ := hvisited.part
      exact kept_performAll hhas h.sound (fun hmem =>
        ownKey_of_dropIndex_mem_plan (hpart.subset hmem)) hs'
    exact Prog.wp_state (visit_wp hhas) (fun _ s' hs' => hpart s' hs'.1) fun _ s' hs' =>
      hpart s' hs'.1

/-! ### What a visit that returns leaves -/

/-- A plan leaves a key that makes the table compliant, and a default for the column. -/
lemma stepAll_plan_of_not_refused (ha : a.Valid) (hneeded : ¬ a.Redundant) (h : ¬ a.Refused)
    (ha' : stepAll (plan a) a = some a') :
    (a'.ownKey || a'.hasKey) = true ∧ (a'.hasColumn = true → a'.hasDefault = true) := by
  have hall : (stepAll (plan a) a).all (fun a' => (a'.ownKey || a'.hasKey) &&
      (!a'.hasColumn || a'.hasDefault)) = true := by
    revert ha hneeded h
    obtain ⟨c, k, d, o, r⟩ := a
    cases c <;> cases k <;> cases d <;> cases o <;> cases r <;> decide
  rw [ha', Option.all_some, Bool.and_eq_true] at hall
  refine ⟨hall.1, fun hcolumn => ?_⟩
  simpa [hcolumn] using hall.2

/-- A table is compliant after a visit that returns. -/
lemma Returned.compliant (hs : Has s t) (h : Returned env n table t s s') :
    ∀ t', s'.table = some t' → t'.Compliant := by
  obtain ⟨hvisited, hrefused, -, hplan⟩ := h
  intro t' ht'
  by_cases hredundant : (shape t).Redundant
  · obtain ⟨t₁, ht₁, hstep⟩ := performAll_spec hs (hvisited.redundant hredundant)
    obtain rfl : t' = t₁ := Option.some.inj (ht'.symm.trans ht₁.table)
    have hown : ownKey t' = true := (stepAll_ownKey hstep).trans hredundant.2
    rw [ht₁.charmOnly.compliant_iff, hown, Bool.true_or]
  · obtain ⟨t₁, ht₁, hstep⟩ := performAll_spec hs (hplan hredundant)
    obtain rfl : t' = t₁ := Option.some.inj (ht'.symm.trans ht₁.table)
    exact ht₁.charmOnly.compliant_iff.2
      (stepAll_plan_of_not_refused (shape_valid hs) hredundant hrefused hstep).1

/-- The surrogate column, if there is one, has a default. -/
def Harmless (s : TableState) : Prop :=
  ∀ t, s.table = some t → t.hasColumn column = true → t.columnHasDefault column = true

/-- The surrogate is redundant and has no default. -/
def Exposed (s : TableState) : Prop :=
  ∃ t, s.table = some t ∧ t.hasColumn column = true ∧ ownKey t = true ∧
    t.columnHasDefault column = false

/-- The removal of the surrogate works out. -/
def Removable (env : DatabaseEnv) (n : ℕ) (table : String) (s : TableState) : Prop :=
  (∃ t, s.table = some t ∧ t.hasKey columnUniq = true) ∧
    env.execute n table dropIndex = none ∧ env.execute n table dropColumn = none

/-- What the statements of the removal do to the answers. -/
lemma stepAll_dropped (hanswered : Answered env n table) (ha : a.Redundant)
    (h : stepAll (dropped env n table a) a = some a') :
    (a'.hasColumn = true → a'.hasDefault = true) ↔ a.hasDefault = true ∨ a.hasKey = true ∧
      env.execute n table dropIndex = none ∧ env.execute n table dropColumn = none := by
  obtain ⟨hcolumn, hown⟩ := ha
  unfold dropped at h
  split at h
  · -- the index was dropped
    next hindex =>
    obtain ⟨-, hkey, hindex⟩ := hindex
    split at h
    · next hdrop =>
      have hstep : stepAll [.dropIndex, .dropColumn] a =
          some { a with hasKey := false, hasColumn := false, hasDefault := false } := by
        simp [stepAll, Move.step, hkey, hcolumn]
      obtain rfl := Option.some.inj (hstep.symm.trans h)
      exact iff_of_true (fun h => absurd h Bool.false_ne_true) (.inr ⟨hkey, hindex, hdrop⟩)
    · next hdrop =>
      have hstep : stepAll [.dropIndex] a = some { a with hasKey := false } := by
        simp [stepAll, Move.step, hkey]
      obtain rfl := Option.some.inj (hstep.symm.trans h)
      simp [hcolumn, hdrop]
  · next hindex =>
    obtain rfl : a = a' := Option.some.inj h
    have hno : ¬ (a.hasKey = true ∧ env.execute n table dropIndex = none ∧
        env.execute n table dropColumn = none) := fun h => hindex ⟨hanswered, h.1, h.2.1⟩
    simp only [hcolumn, hno, or_false, forall_const]

/-- A visit that returns leaves a harmless surrogate exactly if it removes an exposed one. -/
lemma Returned.harmless_iff (hs : Has s t) (h : Returned env n table t s s') :
    Harmless s' ↔ (Exposed s → Removable env n table s) := by
  obtain ⟨hvisited, hrefused, hanswered, hplan⟩ := h
  have hexposed : Exposed s ↔ (shape t).Redundant ∧ (shape t).hasDefault = false := by
    constructor
    · rintro ⟨t₁, ht₁, hcolumn, hown, hdefault⟩
      obtain rfl : t = t₁ := Option.some.inj (hs.table.symm.trans ht₁)
      exact ⟨⟨hcolumn, hown⟩, hdefault⟩
    · rintro ⟨⟨hcolumn, hown⟩, hdefault⟩
      exact ⟨t, hs.table, hcolumn, hown, hdefault⟩
  have hremovable : Removable env n table s ↔ (shape t).hasKey = true ∧
      env.execute n table dropIndex = none ∧ env.execute n table dropColumn = none := by
    refine and_congr_left fun _ => ⟨?_, fun hkey => ⟨t, hs.table, hkey⟩⟩
    rintro ⟨t₁, ht₁, hkey⟩
    obtain rfl : t = t₁ := Option.some.inj (hs.table.symm.trans ht₁)
    exact hkey
  have hharmless : ∀ t₁, Has s' t₁ → (Harmless s' ↔
      ((shape t₁).hasColumn = true → (shape t₁).hasDefault = true)) := by
    intro t₁ ht₁
    constructor
    · intro h
      exact h t₁ ht₁.table
    · intro h t₂ ht₂
      obtain rfl : t₁ = t₂ := Option.some.inj (ht₁.table.symm.trans ht₂)
      exact h
  -- the three conditions are about the answers from here on
  rw [hexposed, hremovable]
  by_cases hredundant : (shape t).Redundant
  · obtain ⟨t₁, ht₁, hstep⟩ := performAll_spec hs (hvisited.redundant hredundant)
    rw [hharmless t₁ ht₁, stepAll_dropped hanswered hredundant hstep]
    cases (shape t).hasDefault <;> simp [hredundant]
  · obtain ⟨t₁, ht₁, hstep⟩ := performAll_spec hs (hplan hredundant)
    rw [hharmless t₁ ht₁]
    exact iff_of_true (stepAll_plan_of_not_refused (shape_valid hs) hredundant hrefused hstep).2
      fun h => absurd h.1 hredundant

/-! ### Attempts -/

variable {w w' : Database}

/-- The visits of an attempt. -/
def visits (env : DatabaseEnv) (n : ℕ) : Prog Database Exc Unit :=
  primaryKeyLessTables.forM fun table => Prog.component table (reconcileTable env n table)

/-- An attempt that returns made all its visits; one that raises made none or raised in them or
after them. -/
lemma attempt_wp (w : Database) :
    (attempt env n).wp (fun _ w' => visits env n w = (.ok (), w'))
      (fun _ w' => w' = w ∨ w' = (visits env n w).2) w := by
  have hcall : ∀ call w, (connectionCall env n call).wp (fun _ w' => w' = w)
      (fun _ w' => w' = w) w := by
    intro call w
    unfold connectionCall Prog.wp
    cases env.connection n call <;> rfl
  -- `rollback` ends in the exception whether it raises itself or not
  have hrollback : ∀ e w₁, (w₁ = w ∨ w₁ = (visits env n w).2) →
      (connectionCall env n .rollback >>= fun _ => throw e : Prog Database Exc Unit).wp
        (fun _ w' => visits env n w = (.ok (), w'))
        (fun _ w' => w' = w ∨ w' = (visits env n w).2) w₁ := fun e w₁ hw₁ =>
    Prog.wp_bind.2 (Prog.wp_mono (hcall _ w₁) (fun _ _ h => h ▸ hw₁) fun _ _ h => h ▸ hw₁)
  refine Prog.wp_bind.2 (Prog.wp_mono (hcall _ w) ?_ fun _ _ h => .inl h)
  rintro - w₁ rfl
  refine Prog.wp_tryCatch.2 (Prog.wp_bind.2 (Prog.wp_mono (hcall _ w₁) ?_ ?_))
  · rintro - w₂ rfl
    refine Prog.wp_bind.2 (Prog.wp_iff.2 ⟨fun u w₃ hvisits => ?_, fun e w₃ hvisits => ?_⟩)
    · have hw₃ : w₃ = (visits env n w₂).2 := (congrArg Prod.snd hvisits).symm
      refine Prog.wp_mono (hcall _ w₃) ?_ ?_
      · rintro - w₄ rfl
        exact hvisits
      · rintro e w₄ rfl
        exact hrollback e _ (.inr hw₃)
    · exact hrollback e _ (.inr (congrArg Prod.snd hvisits).symm)
  · rintro e w₂ rfl
    exact hrollback e _ (.inl rfl)

lemma nodup_primaryKeyLessTables : primaryKeyLessTables.Nodup := by decide

/-- A table is visited once the visits before it have returned. -/
lemma visits_table (hmem : table ∈ primaryKeyLessTables) : ∃ earlier ⊆ primaryKeyLessTables,
    ∀ env n (w : Database), ((∀ j ∈ earlier, (reconcileTable env n j (w j)).1 = .ok ()) →
        (visits env n w).2 table = (reconcileTable env n table (w table)).2) ∧
      ((¬ ∀ j ∈ earlier, (reconcileTable env n j (w j)).1 = .ok ()) →
        (visits env n w).2 table = w table) := by
  obtain ⟨earlier, later, hsplit⟩ := List.append_of_mem hmem
  have hnodup : (earlier ++ table :: later).Nodup := hsplit ▸ nodup_primaryKeyLessTables
  refine ⟨earlier, hsplit ▸ List.subset_append_left _ _, fun env n w => ?_⟩
  unfold visits
  rw [hsplit]
  exact ⟨Prog.forM_component_of_reached hnodup w, Prog.forM_component_of_not_reached hnodup w⟩

/-- The visits leave a table as it is or visit it. -/
lemma visits_or_kept (env : DatabaseEnv) (n : ℕ) (w : Database) (table : String) :
    (visits env n w).2 table = w table ∨
      (visits env n w).2 table = (reconcileTable env n table (w table)).2 := by
  by_cases hmem : table ∈ primaryKeyLessTables
  · obtain ⟨earlier, -, hvisits⟩ := visits_table hmem
    by_cases hearlier : ∀ j ∈ earlier, (reconcileTable env n j (w j)).1 = .ok ()
    · exact .inr ((hvisits env n w).1 hearlier)
    · exact .inl ((hvisits env n w).2 hearlier)
  · exact .inl (Prog.forM_component_of_notMem hmem w)

/-- An attempt leaves a table as it is or visits it. -/
lemma attempt_table (env : DatabaseEnv) (n : ℕ) (w : Database) (table : String) :
    (attempt env n w).2 table = w table ∨
      (attempt env n w).2 table = (reconcileTable env n table (w table)).2 := by
  have hvisits := visits_or_kept env n w table
  refine Prog.wp_state (P := fun w' => w' table = w table ∨
    w' table = (reconcileTable env n table (w table)).2) (attempt_wp w) ?_ ?_
  · intro _ w' hw'
    rw [hw'] at hvisits
    exact hvisits
  · rintro _ w' (rfl | rfl)
    · exact .inl rfl
    · exact hvisits

/-- An attempt that returns has visited every listed table. -/
lemma attempt_ok (h : attempt env n w = (.ok (), w')) (hmem : table ∈ primaryKeyLessTables) :
    reconcileTable env n table (w table) = (.ok (), w' table) := by
  have hvisits := Prog.wp_of_ok (attempt_wp w) h
  have hall := (Prog.forM_component_ok_iff nodup_primaryKeyLessTables w).1
    (congrArg Prod.fst hvisits)
  obtain ⟨earlier, later, hsplit⟩ := List.append_of_mem hmem
  have hreached := Prog.forM_component_of_reached (hsplit ▸ nodup_primaryKeyLessTables) w
    fun j hj => hall j (hsplit ▸ List.mem_append_left _ hj)
  rw [← hsplit] at hreached
  exact Prod.ext (hall table hmem) (hreached.symm.trans (congrFun (congrArg Prod.snd hvisits) table))

/-! ### Histories -/

/-- The surrogate of a table. -/
def surrogate (t : Option Table) : List Column × List Key :=
  ((t.map fun t => t.columns.filter (·.name == column)).getD [],
    (t.map fun t => t.keys.filter (·.name == columnUniq)).getD [])

/-- MediaWiki changes a table; the surrogate is the charm's only. -/
structure Changed (s s' : TableState) : Prop where
  executed : s'.executed = s.executed
  charmOnly : ∀ t, s'.table = some t → CharmOnly t
  surrogate : s'.table ≠ none → surrogate s'.table = surrogate s.table

/-- An event of a history. -/
inductive Event
  /-- An attempt of a repair -/
  | attempt (env : DatabaseEnv) (n : ℕ)
  /-- A change by MediaWiki -/
  | mediaWiki

/-- The histories of the tables. -/
def machine : Machine Database Event where
  init w := ∀ table, (w table).executed = [] ∧ ∀ t, (w table).table = some t → CharmOnly t
  step w event w' :=
    match event with
    | .attempt env n => w' = (attempt env n w).2
    | .mediaWiki => ∀ table, Changed (w table) (w' table)

lemma kept_attempt (h : ∀ table, Kept (w table)) (table : String) :
    Kept ((attempt env n w).2 table) ∧
      ((attempt env n w).2 table).others = (w table).others := by
  rcases attempt_table env n w table with htable | htable
  · rw [htable]
    exact ⟨h table, rfl⟩
  · rw [htable]
    exact kept_visit (h table)

lemma invariant_kept : machine.Invariant fun w => ∀ table, Kept (w table) where
  init _ hw table := by
    obtain ⟨hexecuted, hc⟩ := hw table
    refine ⟨hc, ?_⟩
    rw [hexecuted]
    exact nofun
  step _ event w' h hstep table := by
    cases event with
    | attempt env n =>
      obtain rfl := hstep
      exact (kept_attempt h table).1
    | mediaWiki =>
      obtain ⟨hexecuted, hc, -⟩ := hstep table
      refine ⟨hc, ?_⟩
      rw [hexecuted]
      exact (h table).sound

/-! ### Repairs -/

/-- What the attempts keep, the repair keeps; where it returns, one of them returned. -/
lemma dbRetry_wp {σ : Type} {func : ℕ → Prog σ Exc Unit} {P : σ → Prop}
    (hfunc : ∀ n s, P s → P (func n s).2) (left n : ℕ) {s : σ} (hs : P s) :
    (dbRetry func left n).wp (fun _ s' => P s' ∧ ∃ k s₁, P s₁ ∧ func k s₁ = (.ok (), s'))
      (fun _ s' => P s') s := by
  induction left generalizing n s with
  | zero => exact hs
  | succ left ih =>
    have hs' := hfunc n s hs
    refine Prog.wp_tryCatch.2 (Prog.wp_iff.2 ⟨fun u s' h => ?_, fun e s' h => ?_⟩)
    · rw [h] at hs'
      exact ⟨hs', n, s, hs, h⟩
    · rw [h] at hs'
      exact Prog.wp_ite.2 ⟨fun _ => ih (n + 1) hs', fun _ => hs'⟩

/-- A repair is a history of attempts. -/
lemma repair_wp (hw : machine.Reachable w) :
    (reconcilePrimaryKeyCompatibility env).wp
      (fun _ w' => machine.Reachable w' ∧
        ∃ n w₁, machine.Reachable w₁ ∧ attempt env n w₁ = (.ok (), w'))
      (fun _ w' => machine.Reachable w') w :=
  dbRetry_wp (fun n _ hw => .step (l := .attempt env n) hw rfl) _ _ hw

lemma others_repair (hw : ∀ table, Kept (w table)) (env : DatabaseEnv) (table : String) :
    ((reconcilePrimaryKeyCompatibility env w).2 table).others = (w table).others := by
  have hkeep : ∀ n w₁, (∀ table, Kept (w₁ table) ∧ (w₁ table).others = (w table).others) →
      ∀ table, Kept ((attempt env n w₁).2 table) ∧
        ((attempt env n w₁).2 table).others = (w table).others := by
    intro n w₁ h table
    have hattempt : Kept ((attempt env n w₁).2 table) ∧
        ((attempt env n w₁).2 table).others = (w₁ table).others :=
      kept_attempt (fun table => (h table).1) table
    exact ⟨hattempt.1, hattempt.2.trans (h table).2⟩
  have hall := Prog.wp_state (dbRetry_wp hkeep env.attempts 0 fun table => ⟨hw table, rfl⟩)
    (fun _ w' h => h.1) fun _ w' h => h
  exact (hall table).2

/-- Whatever fails and however often, no statement of a repair takes the compliance of a table
away or touches what is not the charm's, and a repair that returns leaves the listed tables
compliant. -/
theorem compliance_kept {w : Database} (hw : machine.Reachable w) :
    (∀ table, ∀ e ∈ (w table).executed, Sound e) ∧
    ∀ env : DatabaseEnv, machine.Reachable (reconcilePrimaryKeyCompatibility env w).2 ∧
      (∀ table, ((reconcilePrimaryKeyCompatibility env w).2 table).others = (w table).others) ∧
      ((reconcilePrimaryKeyCompatibility env w).1 = .ok () → ∀ table ∈ primaryKeyLessTables,
        ∀ t, ((reconcilePrimaryKeyCompatibility env w).2 table).table = some t → t.Compliant) := by
  have hkept := invariant_kept.reachable hw
  refine ⟨fun table => (hkept table).sound, fun env => ⟨?_, others_repair hkept env, ?_⟩⟩
  · exact Prog.wp_state (repair_wp hw) (fun _ w' h => h.1) fun _ w' h => h
  · intro hok table hmem t ht
    have hrun : reconcilePrimaryKeyCompatibility env w =
        (.ok (), (reconcilePrimaryKeyCompatibility env w).2) := Prod.ext hok rfl
    have hreturned := Prog.wp_of_ok (repair_wp hw) hrun
    -- the repair returned from its last attempt
    obtain ⟨-, n, w₁, hw₁, hattempt⟩ := hreturned
    have hvisit := attempt_ok hattempt hmem
    cases hs : (w₁ table).table with
    | none =>
      have hsame : (reconcileTable env n table (w₁ table)).2 = w₁ table := visit_absent hs
      have hnone := congrArg TableState.table ((congrArg Prod.snd hvisit).symm.trans hsame)
      exact absurd (ht.symm.trans (hnone.trans hs)) nofun
    | some t₁ =>
      have hhas : Has (w₁ table) t₁ := ⟨hs, (invariant_kept.reachable hw₁ table).charmOnly t₁ hs⟩
      have hreturned := Prog.wp_of_ok (visit_wp hhas) hvisit
      exact Returned.compliant hhas hreturned t ht

/-- A database with a single table. -/
def only (t : Table) : Database := fun table =>
  if table = "user_newtalk" then { table := some t } else {}

lemma reachable_only (h : CharmOnly t) : machine.Reachable (only t) := by
  refine .init fun table => ?_
  unfold only
  split
  · refine ⟨rfl, fun t' ht' => ?_⟩
    obtain rfl : t = t' := Option.some.inj ht'
    exact h
  · exact ⟨rfl, nofun⟩

/-- A table without a key. -/
def keyless : Table where
  columns := [{ name := "user_id" }]

lemma charmOnly_keyless : CharmOnly keyless := ⟨by decide, by decide, by decide⟩

/-- A table without a key is compliant after a repair. -/
theorem compliance_kept_keyless :
    ∃ t, ((reconcilePrimaryKeyCompatibility .quiet (only keyless)).2 "user_newtalk").table =
      some t ∧ t.Compliant :=
  ⟨_, rfl, ((compliance_kept (reachable_only charmOnly_keyless)).2 .quiet).2.2 rfl "user_newtalk"
    (by decide) _ rfl⟩

end PrimaryKeys
end MediawikiCharm
