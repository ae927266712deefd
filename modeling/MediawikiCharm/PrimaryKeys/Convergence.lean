/-
Where interrupted repairs lead.

The statements that are left of an interrupted plan are the plan for the table as it is then,
with one exception.  When the index of a redundant surrogate is dropped and its column is not,
the next removal begins with the index again, fails and gives up.  So the column stays, and if it
has no default, nothing that leaves it out can be inserted.  Apart from this, a repair in which
nothing fails ends the same wherever earlier attempts were interrupted.
-/
import MediawikiCharm.PrimaryKeys.Repair

namespace MediawikiCharm
namespace PrimaryKeys

open Schema

variable {env : DatabaseEnv} {n : ℕ} {table : String} {moves : List Move} {s s' : TableState}
  {t t' : Table} {a a' : Shape} {m : Move} {w w' : Database}

/-! ### Redundant surrogates -/

/-- In any history, an attempt that returns leaves the listed tables with harmless surrogates
exactly if it removes those that are redundant and without a default. -/
theorem surrogates_harmless_iff {w : Database} (hw : machine.Reachable w) :
    (∀ env n w', attempt env n w = (.ok (), w') →
      ((∀ table ∈ primaryKeyLessTables, Harmless (w' table)) ↔
        ∀ table ∈ primaryKeyLessTables, Exposed (w table) → Removable env n table (w table))) ∧
    ∀ env w', reconcilePrimaryKeyCompatibility env w = (.ok (), w') →
      ∃ n w₁, machine.Reachable w₁ ∧ attempt env n w₁ = (.ok (), w') := by
  constructor
  · intro env n w' hattempt
    refine forall_congr' fun table => forall_congr' fun hmem => ?_
    have hvisit := attempt_ok hattempt hmem
    cases hs : (w table).table with
    | none =>
      have hsame : (reconcileTable env n table (w table)).2 = w table := visit_absent hs
      have hw' : w' table = w table := (congrArg Prod.snd hvisit).symm.trans hsame
      rw [hw']
      refine iff_of_true (fun t ht => absurd (ht.symm.trans hs) nofun) ?_
      rintro ⟨t, ht, -⟩
      exact absurd (ht.symm.trans hs) nofun
    | some t =>
      have hhas : Has (w table) t := ⟨hs, (invariant_kept.reachable hw table).charmOnly t hs⟩
      have hreturned := Prog.wp_of_ok (visit_wp hhas) hvisit
      exact Returned.harmless_iff hhas hreturned
  · intro env w' hrun
    have hreturned := Prog.wp_of_ok (repair_wp hw) hrun
    exact hreturned.2

/-- A table without a key gets a harmless surrogate. -/
theorem surrogates_harmless_keyless :
    Harmless ((attempt .quiet 0 (only keyless)).2 "user_newtalk") := by
  refine ((surrogates_harmless_iff (reachable_only charmOnly_keyless)).1 .quiet 0 _ rfl).2 ?_ _
    (by decide)
  rintro table - ⟨t, ht, hcolumn, -⟩
  unfold only at ht
  split at ht
  · obtain rfl : keyless = t := Option.some.inj ht
    exact absurd hcolumn (by decide)
  · cases ht

/-- An index that cannot be added. -/
def interrupted : DatabaseEnv where
  execute _ _ d := if d = addUniqueKey then some (.mysql "Lock wait timeout exceeded") else none

/-- The table after an interrupted repair and an update of MediaWiki. -/
def exposed : Table where
  columns := [{ name := "user_id" }, { name := column }]
  keys := [{ name := primary, columns := ["user_id"] }]

/-- MediaWiki adds its primary key after an interrupted repair. -/
def updated : Database := fun table =>
  if table = "user_newtalk" then
    { (attempt interrupted 0 (only keyless)).2 table with table := some exposed }
  else (attempt interrupted 0 (only keyless)).2 table

lemma reachable_updated : machine.Reachable updated := by
  have hattempt : machine.Reachable (attempt interrupted 0 (only keyless)).2 :=
    .step (l := .attempt interrupted 0) (reachable_only charmOnly_keyless) rfl
  refine .step (l := .mediaWiki) hattempt fun table => ?_
  unfold updated
  split
  · next htable =>
    subst htable
    refine ⟨rfl, fun t ht => ?_, fun _ => rfl⟩
    obtain rfl : exposed = t := Option.some.inj ht
    exact ⟨by decide, by decide, by decide⟩
  · exact ⟨rfl, (invariant_kept.reachable hattempt table).charmOnly, fun _ => rfl⟩

/-- A repair may return and leave a column without a default. -/
theorem not_surrogates_harmless : ¬ ∀ w : Database, machine.Reachable w → ∀ env w',
    reconcilePrimaryKeyCompatibility env w = (.ok (), w') →
    ∀ table ∈ primaryKeyLessTables, Harmless (w' table) := by
  intro h
  have hharmless := h updated reachable_updated .quiet _ rfl "user_newtalk" (by decide) _ rfl rfl
  exact absurd hharmless (by decide)

/-! ### Without errors -/

/-- The statements of a visit in which nothing fails. -/
def settling (a : Shape) : List Move :=
  if a.Redundant ∧ a.hasKey = false then [] else plan a

lemma quiet_quiet : Quiet .quiet n table := ⟨fun _ => rfl, fun _ => rfl⟩

lemma dropped_quiet (ha : a.Redundant) : dropped .quiet n table a = settling a := by
  obtain ⟨hcolumn, hown⟩ := ha
  have hanswered : Answered .quiet n table := ⟨rfl, rfl, rfl⟩
  cases hkey : a.hasKey with
  | true =>
    have hdrop : DatabaseEnv.quiet.execute n table dropColumn = none := rfl
    rw [dropped, if_pos ⟨hanswered, hkey, rfl⟩, if_pos hdrop]
    simp [settling, plan, hkey, hcolumn, hown]
  | false => simp [dropped, settling, hkey, hcolumn, hown, Shape.Redundant]

/-- A visit in which nothing fails runs the whole plan. -/
lemma quiet_visit (n : ℕ) (table : String) (hs : Has s t) :
    performAll (settling (shape t)) s = some (reconcileTable .quiet n table s).2 ∧
      ((reconcileTable .quiet n table s).1 = .ok () ↔ ¬ (shape t).Refused) := by
  have hvisited : ∀ s', Visited .quiet n table t s s' → (¬ (shape t).Refused →
      ¬ (shape t).Redundant → performAll (plan (shape t)) s = some s') →
      performAll (settling (shape t)) s = some s' := by
    intro s' hvisited hplan
    -- a redundant surrogate is dropped, any other one is planned for
    by_cases hredundant : (shape t).Redundant
    · have hs' := hvisited.redundant hredundant
      rwa [dropped_quiet hredundant] at hs'
    · rw [settling, if_neg fun h => hredundant h.1]
      by_cases hrefused : (shape t).Refused
      · obtain ⟨part, hpart, hs'⟩ := hvisited.part
        have hplan : plan (shape t) = [] := by
          obtain ⟨hcolumn, -, hrows⟩ := hrefused
          simp [plan, hcolumn, hrows]
        rw [hplan, List.prefix_nil] at hpart
        rw [hplan, ← hpart]
        exact hs'
      · exact hplan hrefused hredundant
  rcases hrun : reconcileTable .quiet n table s with ⟨_ | u, s'⟩
  · have hraised := Prog.wp_of_error (visit_wp hs) hrun
    have hrefused : (shape t).Refused := hraised.2.resolve_right (not_not.2 quiet_quiet)
    refine ⟨hvisited s' hraised.1 fun h => absurd hrefused h, iff_of_false ?_ (not_not.2 hrefused)⟩
    intro hok
    cases hok
  · have hreturned := Prog.wp_of_ok (visit_wp hs) hrun
    exact ⟨hvisited s' hreturned.1 fun _ => hreturned.2.2.2, iff_of_true rfl hreturned.2.1⟩

/-! ### Interrupted visits -/

/-- A redundant surrogate loses its index and keeps its column. -/
def Stuck (env : DatabaseEnv) (n : ℕ) (table : String) (t : Table) : Prop :=
  t.hasColumn column = true ∧ ownKey t = true ∧ t.hasKey columnUniq = true ∧
    Answered env n table ∧ env.execute n table dropIndex = none ∧
    env.execute n table dropColumn ≠ none

/-- What is left of a plan is the plan for the answers after its first part. -/
lemma settling_after_part (ha : a.Valid) (hneeded : ¬ a.Redundant) {part rest : List Move}
    (hpart : plan a = part ++ rest) (ha' : stepAll part a = some a') :
    settling a' = rest ∧ (a'.Refused ↔ a.Refused) := by
  have hall : ∀ k ≤ 3, (stepAll ((plan a).take k) a).all (fun a' =>
      decide (settling a' = (plan a).drop k ∧ (a'.Refused ↔ a.Refused))) = true := by
    revert ha hneeded
    obtain ⟨c, k, d, o, r⟩ := a
    cases c <;> cases k <;> cases d <;> cases o <;> cases r <;> decide
  have hlength : (plan a).length ≤ 3 := by
    obtain ⟨c, k, d, o, r⟩ := a
    cases c <;> cases k <;> cases d <;> cases o <;> cases r <;> decide
  have hk : part.length ≤ 3 := by
    have happend := congrArg List.length hpart
    rw [List.length_append] at happend
    omega
  have hstep := hall part.length hk
  rw [hpart, List.take_left, List.drop_left, ha', Option.all_some, decide_eq_true_iff] at hstep
  exact hstep

lemma not_refused_of_redundant (ha : a.Redundant) : ¬ a.Refused :=
  fun h => Bool.false_ne_true (h.2.1.symm.trans ha.2)

/-- A visit in which nothing fails comes to the same after a visit as without it, unless the
surrogate lost its index and kept its column. -/
lemma Visited.settled (hs : Has s t) (h : Visited env n table t s s') :
    ∃ t', Has s' t' ∧ ((shape t').Refused ↔ (shape t).Refused) ∧ (¬ Stuck env n table t →
      performAll (settling (shape t')) s' = performAll (settling (shape t)) s) := by
  -- a redundant surrogate is removed as far as it went, for any other one the plan was begun
  by_cases hredundant : (shape t).Redundant
  · have hs' := h.redundant hredundant
    obtain ⟨t', ht', hstep⟩ := performAll_spec hs hs'
    have hown : (shape t').ownKey = true := (stepAll_ownKey hstep).trans hredundant.2
    have hrefused : ¬ (shape t').Refused := fun h => Bool.false_ne_true (h.2.1.symm.trans hown)
    refine ⟨t', ht', iff_of_false hrefused (not_refused_of_redundant hredundant), fun hstuck => ?_⟩
    by_cases hindex : Answered env n table ∧ (shape t).hasKey = true ∧
        env.execute n table dropIndex = none
    · obtain ⟨hanswered, hkey, hindex⟩ := hindex
      -- if only the column stayed the table would be stuck
      have hdrop : env.execute n table dropColumn = none := by
        by_contra hdrop
        exact hstuck ⟨hredundant.1, hredundant.2, hkey, hanswered, hindex, hdrop⟩
      rw [dropped, if_pos ⟨hanswered, hkey, hindex⟩, if_pos hdrop] at hs' hstep
      have hplan : settling (shape t) = [.dropIndex, .dropColumn] := by
        simp [settling, plan, hkey, hredundant.1, hredundant.2]
      have hdone : settling (shape t') = [] := by
        have hall : stepAll [.dropIndex, .dropColumn] (shape t) =
            some { shape t with hasKey := false, hasColumn := false, hasDefault := false } := by
          simp [stepAll, Move.step, hkey, hredundant.1]
        rw [← Option.some.inj (hall.symm.trans hstep)]
        simp [settling, plan, hredundant.2, Shape.Redundant]
      rw [hplan, hdone, hs']
      rfl
    · -- nothing was dropped, so nothing has changed
      rw [dropped, if_neg hindex] at hs'
      obtain rfl : s = s' := Option.some.inj hs'
      obtain rfl : t = t' := Option.some.inj (hs.table.symm.trans ht'.table)
      rfl
  · -- a part of the plan is done, and the rest is the plan from there
    obtain ⟨part, ⟨rest, hrest⟩, hs'⟩ := h.part
    obtain ⟨t', ht', hstep⟩ := performAll_spec hs hs'
    obtain ⟨hsettling, hrefused⟩ := settling_after_part (shape_valid hs) hredundant hrest.symm hstep
    refine ⟨t', ht', hrefused, fun _ => ?_⟩
    have hplan : settling (shape t) = part ++ rest := by
      rw [settling, if_neg fun h => hredundant h.1, hrest]
    rw [hsettling, hplan, performAll_append, hs']
    rfl

/-- The column that lost its index stays. -/
lemma Visited.stuck (hs : Has s t) (h : Visited env n table t s s') (hstuck : Stuck env n table t) :
    ((reconcileTable .quiet 0 table s').2.table.any (·.hasColumn column)) = true ∧
      ((reconcileTable .quiet 0 table s).2.table.any (·.hasColumn column)) = false := by
  obtain ⟨hcolumn, hown, hkey, hanswered, hindex, hdrop⟩ := hstuck
  have hredundant : (shape t).Redundant := ⟨hcolumn, hown⟩
  constructor
  · have hs' := h.redundant hredundant
    rw [dropped, if_pos ⟨hanswered, hkey, hindex⟩, if_neg hdrop] at hs'
    obtain ⟨t', ht', hstep⟩ := performAll_spec hs hs'
    have hall : stepAll [.dropIndex] (shape t) = some { shape t with hasKey := false } := by
      have hkey' : (shape t).hasKey = true := hkey
      simp [stepAll, Move.step, hkey']
    have hshape : shape t' = { shape t with hasKey := false } :=
      Option.some.inj (hstep.symm.trans hall)
    -- without its index the column is not dropped
    have hnothing : settling (shape t') = [] := by
      rw [hshape, settling, if_pos ⟨hredundant, rfl⟩]
    have hquiet := (quiet_visit 0 table ht').1
    rw [hnothing] at hquiet
    have hsame : s' = (reconcileTable .quiet 0 table s').2 := Option.some.inj hquiet
    rw [← hsame, ht'.table]
    exact (congrArg Shape.hasColumn hshape).trans hcolumn
  · have hquiet := (quiet_visit 0 table hs).1
    obtain ⟨t', ht', hstep⟩ := performAll_spec hs hquiet
    have hkey' : (shape t).hasKey = true := hkey
    have hplan : settling (shape t) = [.dropIndex, .dropColumn] := by
      simp [settling, plan, hkey', hredundant.1, hredundant.2]
    have hall : stepAll [.dropIndex, .dropColumn] (shape t) =
        some { shape t with hasKey := false, hasColumn := false, hasDefault := false } := by
      simp [stepAll, Move.step, hkey', hredundant.1]
    rw [hplan] at hstep
    rw [ht'.table]
    exact congrArg Shape.hasColumn (Option.some.inj (hstep.symm.trans hall))

/-! ### Interrupted repairs -/

/-- A visit of which nothing is left to do but what is left without it. -/
structure Resumed (env : DatabaseEnv) (n : ℕ) (table : String) (s : TableState) : Prop where
  settled : (reconcileTable .quiet 0 table (reconcileTable env n table s).2).2 =
    (reconcileTable .quiet 0 table s).2
  ok_iff : (reconcileTable .quiet 0 table (reconcileTable env n table s).2).1 = .ok () ↔
    (reconcileTable .quiet 0 table s).1 = .ok ()
  ok : (reconcileTable env n table s).1 = .ok () → (reconcileTable .quiet 0 table s).1 = .ok ()

lemma visited_visit (env : DatabaseEnv) (n : ℕ) (table : String) (hs : Has s t) :
    Visited env n table t s (reconcileTable env n table s).2 :=
  Prog.wp_state (visit_wp hs) (fun _ _ h => h.1) fun _ _ h => h.1

lemma resumed_of_not_stuck (hs : Has s t) (h : ¬ Stuck env n table t) : Resumed env n table s := by
  obtain ⟨t', ht', hrefused, hsettled⟩ := (visited_visit env n table hs).settled hs
  have hquiet := quiet_visit 0 table hs
  have hquiet' := quiet_visit 0 table ht'
  refine ⟨?_, ?_, fun hok => ?_⟩
  · exact Option.some.inj (hquiet'.1.symm.trans ((hsettled h).trans hquiet.1))
  · rw [hquiet'.2, hquiet.2, hrefused]
  · have hrun : reconcileTable env n table s = (.ok (), (reconcileTable env n table s).2) :=
      Prod.ext hok rfl
    have hreturned := Prog.wp_of_ok (visit_wp hs) hrun
    exact hquiet.2.2 hreturned.2.1

lemma quiet_visit_absent (hs : s.table = none) :
    (reconcileTable .quiet 0 table s).1 = .ok () := by
  obtain ⟨t, executed⟩ := s
  obtain rfl : t = none := hs
  rfl

/-- No listed table is left stuck. -/
def Unstuck (env : DatabaseEnv) (n : ℕ) (w : Database) : Prop :=
  ∀ table ∈ primaryKeyLessTables, ∀ t, (w table).table = some t → ¬ Stuck env n table t

lemma resumed_of_unstuck (hw : ∀ table, Kept (w table)) (h : Unstuck env n w)
    (hmem : table ∈ primaryKeyLessTables) : Resumed env n table (w table) := by
  cases hs : (w table).table with
  | none =>
    have hsame : (reconcileTable env n table (w table)).2 = w table := visit_absent hs
    exact ⟨by rw [hsame], by rw [hsame], fun _ => quiet_visit_absent hs⟩
  | some t => exact resumed_of_not_stuck ⟨hs, (hw table).charmOnly t hs⟩ (h table hmem t hs)

/-- After an attempt the visits of a repair without errors come to the same as without it. -/
lemma visits_after_attempt (h : ∀ table ∈ primaryKeyLessTables, Resumed env n table (w table)) :
    (visits .quiet 0 (attempt env n w).2).2 = (visits .quiet 0 w).2 := by
  -- each table was visited or left as it was
  have htable : ∀ table, (visits env n w).2 table = w table ∨
      (visits env n w).2 table = (reconcileTable env n table (w table)).2 := visits_or_kept env n w
  have hok : ∀ j ∈ primaryKeyLessTables,
      ((reconcileTable .quiet 0 j ((visits env n w).2 j)).1 = .ok () ↔
        (reconcileTable .quiet 0 j (w j)).1 = .ok ()) := by
    intro j hj
    rcases htable j with hkept | hvisited
    · rw [hkept]
    · rw [hvisited, (h j hj).ok_iff]
  have hvisits : (visits .quiet 0 (visits env n w).2).2 = (visits .quiet 0 w).2 := by
    ext1 table
    by_cases hmem : table ∈ primaryKeyLessTables
    · obtain ⟨earlier, hsub, hreach⟩ := visits_table hmem
      by_cases hearlier : ∀ j ∈ earlier, (reconcileTable .quiet 0 j (w j)).1 = .ok ()
      · have hearlier' : ∀ j ∈ earlier,
            (reconcileTable .quiet 0 j ((visits env n w).2 j)).1 = .ok () := fun j hj =>
          (hok j (hsub hj)).2 (hearlier j hj)
        rw [(hreach .quiet 0 _).1 hearlier', (hreach .quiet 0 w).1 hearlier]
        rcases htable table with hkept | hvisited
        · rw [hkept]
        · rw [hvisited, (h table hmem).settled]
      · -- what stops a repair without errors stopped the attempt
        have hearlier' : ¬ ∀ j ∈ earlier,
            (reconcileTable .quiet 0 j ((visits env n w).2 j)).1 = .ok () := fun hall =>
          hearlier fun j hj => (hok j (hsub hj)).1 (hall j hj)
        have hnot : ¬ ∀ j ∈ earlier, (reconcileTable env n j (w j)).1 = .ok () := fun hall =>
          hearlier fun j hj => (h j (hsub hj)).ok (hall j hj)
        rw [(hreach .quiet 0 _).2 hearlier', (hreach .quiet 0 w).2 hearlier, (hreach env n w).2 hnot]
    · unfold visits
      rw [Prog.forM_component_of_notMem hmem, Prog.forM_component_of_notMem hmem,
        Prog.forM_component_of_notMem hmem]
  refine Prog.wp_state (P := fun w' => (visits .quiet 0 w').2 = (visits .quiet 0 w).2)
    (attempt_wp w) ?_ ?_
  · intro _ w' hw'
    rwa [hw'] at hvisits
  · rintro _ w' (rfl | rfl)
    · rfl
    · exact hvisits

lemma attempt_quiet (w : Database) : attempt .quiet 0 w = visits .quiet 0 w := by
  have hbody : (connectionCall .quiet 0 .setLockWaitTimeout >>= fun _ => visits .quiet 0 >>= fun _ =>
      connectionCall .quiet 0 .commit) w = visits .quiet 0 w := by
    rw [Prog.bind_run_ok (rfl : connectionCall .quiet 0 .setLockWaitTimeout w = (.ok (), w)),
      Prog.bind_run]
    rcases visits .quiet 0 w with ⟨_ | _, _⟩ <;> rfl
  have hattempt : attempt .quiet 0 = (connectionCall .quiet 0 .connect >>= fun _ =>
      tryCatch (connectionCall .quiet 0 .setLockWaitTimeout >>= fun _ => visits .quiet 0 >>=
        fun _ => connectionCall .quiet 0 .commit) fun e =>
        connectionCall .quiet 0 .rollback >>= fun _ => throw e) := rfl
  rw [hattempt, Prog.bind_run_ok (rfl : connectionCall .quiet 0 .connect w = (.ok (), w)),
    Prog.tryCatch_run, hbody]
  rcases visits .quiet 0 w with ⟨_ | _, _⟩ <;> rfl

/-- A repair without errors makes its visits. -/
lemma repair_quiet (w : Database) :
    (reconcilePrimaryKeyCompatibility .quiet w).2 = (visits .quiet 0 w).2 := by
  rw [← attempt_quiet]
  show (tryCatch (attempt .quiet 0) (fun e => if isMysql e || e.isWaiting then
    dbRetry (attempt .quiet) 0 1 else throw e) w).2 = _
  rw [Prog.tryCatch_run]
  rcases attempt .quiet 0 w with ⟨e | _, w'⟩
  · show ((if isMysql e || e.isWaiting then dbRetry (attempt .quiet) 0 1 else throw e :
      Prog Database Exc Unit) w').2 = w'
    split <;> rfl
  · rfl

/-- Attempts that leave no table stuck, and nothing else. -/
def Uninterrupted (w : Database) : Event → Prop
  | .attempt env n => Unstuck env n w
  | .mediaWiki => False

lemma repair_after_run {events : List Event} (hw : machine.Reachable w)
    (h : (machine.restrict Uninterrupted).Run w events w') :
    (reconcilePrimaryKeyCompatibility .quiet w').2 =
      (reconcilePrimaryKeyCompatibility .quiet w).2 := by
  induction h with
  | nil => rfl
  | @cons w₀ w₁ w₂ event _ hstep _ ih =>
    obtain ⟨hunstuck, hstep⟩ := hstep
    refine (ih (.step hw hstep)).trans ?_
    cases event with
    | attempt env n =>
      obtain rfl : w₁ = (attempt env n w₀).2 := hstep
      rw [repair_quiet, repair_quiet]
      exact visits_after_attempt fun table hmem =>
        resumed_of_unstuck (invariant_kept.reachable hw) hunstuck hmem
    | mediaWiki => exact hunstuck.elim

/-- The attempts of a repair. -/
lemma run_dbRetry (env : DatabaseEnv) (left n : ℕ) (w : Database) : ∃ k ≤ left,
    machine.Run w ((List.range' n k).map (.attempt env)) (dbRetry (attempt env) left n w).2 := by
  induction left generalizing n w with
  | zero => exact ⟨0, le_refl 0, .nil w⟩
  | succ left ih =>
    have hone : machine.Run w ((List.range' n 1).map (.attempt env)) (attempt env n w).2 :=
      .cons rfl (.nil _)
    show ∃ k ≤ left + 1, machine.Run w _ (tryCatch (attempt env n) (fun e =>
      if isMysql e || e.isWaiting then dbRetry (attempt env) left (n + 1) else throw e) w).2
    rw [Prog.tryCatch_run]
    rcases hrun : attempt env n w with ⟨e | _, w₁⟩
    · rw [hrun] at hone
      show ∃ k ≤ left + 1, machine.Run w _ ((if isMysql e || e.isWaiting then
        dbRetry (attempt env) left (n + 1) else throw e : Prog Database Exc Unit) w₁).2
      split
      · obtain ⟨k, hk, hrest⟩ := ih (n + 1) w₁
        refine ⟨k + 1, by omega, ?_⟩
        rw [List.range'_succ, List.map_cons]
        exact .cons (congrArg Prod.snd hrun).symm hrest
      · exact ⟨1, by omega, hone⟩
    · rw [hrun] at hone
      exact ⟨1, by omega, hone⟩

/-- A repair in which nothing fails ends the same after an interrupted visit exactly if the
surrogate did not lose its index and keep its column; so it ends the same after any attempts that
leave no table stuck, and is idempotent. -/
theorem repair_resumes_iff {w : Database} (hw : machine.Reachable w) :
    (∀ env n table t, (w table).table = some t →
      ((reconcileTable .quiet 0 table (reconcileTable env n table (w table)).2).2.table =
        (reconcileTable .quiet 0 table (w table)).2.table ↔ ¬ Stuck env n table t)) ∧
    (∀ events w', (machine.restrict Uninterrupted).Run w events w' →
      (reconcilePrimaryKeyCompatibility .quiet w').2 =
        (reconcilePrimaryKeyCompatibility .quiet w).2) ∧
    (∀ env, ∃ k ≤ env.attempts, machine.Run w ((List.range' 0 k).map (.attempt env))
      (reconcilePrimaryKeyCompatibility env w).2) ∧
    (reconcilePrimaryKeyCompatibility .quiet (reconcilePrimaryKeyCompatibility .quiet w).2).2 =
      (reconcilePrimaryKeyCompatibility .quiet w).2 := by
  refine ⟨fun env n table t hs => ?_, fun events w' => repair_after_run hw,
    fun env => run_dbRetry env env.attempts 0 w, ?_⟩
  · have hhas : Has (w table) t := ⟨hs, (invariant_kept.reachable hw table).charmOnly t hs⟩
    constructor
    · intro hsame hstuck
      obtain ⟨hleft, hgone⟩ := (visited_visit env n table hhas).stuck hhas hstuck
      rw [hsame, hgone] at hleft
      cases hleft
    · intro hstuck
      rw [(resumed_of_not_stuck hhas hstuck).settled]
  · -- the quiet repair is itself a run that leaves no table stuck
    have hattempt : (machine.restrict Uninterrupted).Run w [.attempt .quiet 0]
        (attempt .quiet 0 w).2 :=
      .cons ⟨fun _ _ _ _ hstuck => hstuck.2.2.2.2.2 rfl, rfl⟩ (.nil _)
    have hsame : (reconcilePrimaryKeyCompatibility .quiet w).2 = (attempt .quiet 0 w).2 :=
      (repair_quiet w).trans (congrArg Prod.snd (attempt_quiet w)).symm
    rw [hsame, repair_after_run hw hattempt, hsame]

/-- A repair without errors is idempotent on a table without a key. -/
theorem repair_resumes_keyless :
    (reconcilePrimaryKeyCompatibility .quiet
      (reconcilePrimaryKeyCompatibility .quiet (only keyless)).2).2 =
      (reconcilePrimaryKeyCompatibility .quiet (only keyless)).2 :=
  (repair_resumes_iff (reachable_only charmOnly_keyless)).2.2.2

/-- A table whose surrogate is redundant. -/
def redundant : Table where
  columns := [{ name := "user_id" }, { name := column, hasDefault := true }]
  keys := [{ name := primary, columns := ["user_id"] }, { name := columnUniq, columns := [column] }]

/-- A column that cannot be dropped. -/
def locked : DatabaseEnv where
  execute _ _ d := if d = dropColumn then some (.mysql "Lock wait timeout exceeded") else none

/-- A repair may lead elsewhere after an interrupted one. -/
theorem not_repair_resumes : ¬ ∀ w : Database, machine.Reachable w → ∀ env table,
    ((reconcilePrimaryKeyCompatibility .quiet
      (reconcilePrimaryKeyCompatibility env w).2).2 table).table =
      ((reconcilePrimaryKeyCompatibility .quiet w).2 table).table := by
  intro h
  have hc : CharmOnly redundant := ⟨by decide, by decide, by decide⟩
  have hsame := h (only redundant) (reachable_only hc) locked "user_newtalk"
  exact absurd (congrArg (fun t : Option Table => t.any (·.hasColumn column)) hsame) (by decide)

end PrimaryKeys
end MediawikiCharm
