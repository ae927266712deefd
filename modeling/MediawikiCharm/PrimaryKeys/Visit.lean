/-
One visit of a table by the repair.

The answers about a table decide on a plan, a list of at most three statements.  A visit runs
the plan up to the first failure.  Only the removal of a redundant surrogate goes on after a
failure, which it does not report.  From this follow what a visit leaves, whether it returns or
raises, and what it makes of a database without errors.
-/
import MediawikiCharm.PrimaryKeys.Shape

namespace MediawikiCharm
namespace PrimaryKeys

open Schema

/-! ### Lists of statements -/

/-- The statements one after the other; `none` where one does not apply. -/
def performAll (moves : List Move) (s : TableState) : Option TableState :=
  moves.foldlM (fun s m => perform m.ddl s) s

/-- What they do to the answers. -/
def stepAll (moves : List Move) (a : Shape) : Option Shape := moves.foldlM (fun a m => m.step a) a

variable {moves rest : List Move} {s s' : TableState} {t : Table} {a : Shape}

lemma performAll_cons (m : Move) :
    performAll (m :: moves) s = (perform m.ddl s).bind (performAll moves) := rfl

lemma performAll_append :
    performAll (moves ++ rest) s = (performAll moves s).bind (performAll rest) :=
  List.foldlM_append

lemma stepAll_cons (m : Move) : stepAll (m :: moves) a = (m.step a).bind (stepAll moves) := rfl

lemma performAll_singleton (m : Move) : performAll [m] s = perform m.ddl s := by
  rw [performAll_cons]
  exact Option.bind_fun_some _

/-- The table is there, and only the charm uses the surrogate. -/
structure Has (s : TableState) (t : Table) : Prop where
  table : s.table = some t
  charmOnly : CharmOnly t

/-- A statement takes effect on a table, which the history records. -/
structure Performed (m : Move) (s : TableState) (t : Table) (s' : TableState) (t' : Table) :
    Prop where
  has : Has s' t'
  step : m.step (shape t) = some (shape t')
  executed : ∃ e : Executed, s'.executed = e :: s.executed ∧ e.statement = m.ddl ∧
    e.before = t ∧ e.after = t'

lemma perform_eq {d : Ddl} {t' : Table} (hs : s.table = some t) (happly : d.apply t = some t') :
    perform d s = some ⟨some t', ⟨d, t, t', happly⟩ :: s.executed⟩ := by
  obtain ⟨table, executed⟩ := s
  obtain rfl : table = some t := hs
  simp only [perform]
  split
  · next hnone =>
    rw [happly] at hnone
    cases hnone
  · next after hsome =>
    obtain rfl : t' = after := Option.some.inj (happly.symm.trans hsome)
    rfl

lemma perform_eq_none {d : Ddl} (hs : s.table = some t) (happly : d.apply t = none) :
    perform d s = none := by
  obtain ⟨table, executed⟩ := s
  obtain rfl : table = some t := hs
  simp only [perform]
  split
  · rfl
  · next after hsome =>
    rw [happly] at hsome
    cases hsome

/-- A statement takes effect where it applies to the answers. -/
lemma perform_spec (hs : Has s t) (m : Move) :
    (∃ s' t', perform m.ddl s = some s' ∧ Performed m s t s' t') ∨
      (perform m.ddl s = none ∧ m.step (shape t) = none) := by
  rcases step_spec hs.charmOnly m with ⟨t', happly, hc, hstep⟩ | ⟨happly, hstep⟩
  · exact .inl ⟨_, t', perform_eq hs.table happly, ⟨rfl, hc⟩, hstep, _, rfl, rfl, rfl, rfl⟩
  · exact .inr ⟨perform_eq_none hs.table happly, hstep⟩

lemma performed_of_perform {m : Move} (hs : Has s t) (h : perform m.ddl s = some s') :
    ∃ t', Performed m s t s' t' := by
  rcases perform_spec hs m with ⟨s₁, t', hs₁, hp⟩ | ⟨hnone, -⟩
  · obtain rfl : s₁ = s' := Option.some.inj (hs₁.symm.trans h)
    exact ⟨t', hp⟩
  · rw [hnone] at h
    cases h

lemma performAll_spec (hs : Has s t) (h : performAll moves s = some s') :
    ∃ t', Has s' t' ∧ stepAll moves (shape t) = some (shape t') := by
  induction moves generalizing s t with
  | nil =>
    obtain rfl : s = s' := Option.some.inj h
    exact ⟨t, hs, rfl⟩
  | cons m moves ih =>
    obtain ⟨s₁, hs₁, h⟩ := Option.bind_eq_some_iff.1 h
    obtain ⟨t₁, hp⟩ := performed_of_perform hs hs₁
    obtain ⟨t', ht', hstep⟩ := ih hp.has h
    refine ⟨t', ht', ?_⟩
    rw [stepAll_cons, hp.step]
    exact hstep

/-! ### Plans -/

namespace Shape

/-- The surrogate is redundant. -/
def Redundant (a : Shape) : Prop := a.hasColumn = true ∧ a.ownKey = true

/-- The surrogate cannot be added. -/
def Refused (a : Shape) : Prop := a.hasColumn = false ∧ a.ownKey = false ∧ a.hasRows = true

/-- The index and the default are those of the column. -/
def Valid (a : Shape) : Prop :=
  (a.hasKey = true → a.hasColumn = true) ∧ (a.hasDefault = true → a.hasColumn = true)

instance : Decidable a.Redundant := inferInstanceAs (Decidable (_ ∧ _))

instance : Decidable a.Refused := inferInstanceAs (Decidable (_ ∧ _))

instance : Decidable a.Valid := inferInstanceAs (Decidable ((_ → _) ∧ (_ → _)))

end Shape

/-- The statements that the answers call for. -/
def plan (a : Shape) : List Move :=
  if a.hasColumn then
    if a.ownKey then [.dropIndex, .dropColumn]
    else
      (if a.hasKey then [] else [.addUniqueKey]) ++ if a.hasDefault then [] else [.setDefault]
  else if a.ownKey || a.hasRows then [] else [.addColumn, .addUniqueKey, .setDefault]

lemma shape_valid (hs : Has s t) : (shape t).Valid :=
  ⟨hs.charmOnly.hasColumn_of_hasKey, hasColumn_of_hasDefault⟩

/-- An index is dropped only beside a key of the table's own. -/
lemma ownKey_of_dropIndex_mem_plan (h : Move.dropIndex ∈ plan a) : a.ownKey = true := by
  revert h
  obtain ⟨c, k, d, o, r⟩ := a
  cases c <;> cases k <;> cases d <;> cases o <;> cases r <;> decide

/-! ### What a visit does -/

variable {env : DatabaseEnv} {n : ℕ} {table : String}

/-- No query and no statement about the table fails. -/
def Quiet (env : DatabaseEnv) (n : ℕ) (table : String) : Prop :=
  (∀ q, env.query n table q = none) ∧ ∀ d, env.execute n table d = none

/-- The questions that come before the statements are answered. -/
def Answered (env : DatabaseEnv) (n : ℕ) (table : String) : Prop :=
  env.query n table .tableExists = none ∧ env.query n table .tableHasColumn = none ∧
    env.query n table .groupReplicationKeys = none

instance : Decidable (Answered env n table) := inferInstanceAs (Decidable (_ ∧ _ ∧ _))

/-- The statements of the removal that take effect. -/
def dropped (env : DatabaseEnv) (n : ℕ) (table : String) (a : Shape) : List Move :=
  if Answered env n table ∧ a.hasKey = true ∧ env.execute n table dropIndex = none then
    if env.execute n table dropColumn = none then [.dropIndex, .dropColumn] else [.dropIndex]
  else []

/-- The first of the statements took effect. -/
def Part (moves : List Move) (s s' : TableState) : Prop :=
  ∃ part, part <+: moves ∧ performAll part s = some s'

/-- The first of the statements took effect, then something failed. -/
def Interrupted (env : DatabaseEnv) (n : ℕ) (table : String) (moves : List Move)
    (s s' : TableState) : Prop := ¬ Quiet env n table ∧ Part moves s s'

lemma part_refl : Part moves s s := ⟨[], List.nil_prefix, rfl⟩

lemma part_all (h : performAll moves s = some s') : Part moves s s' := ⟨moves, List.prefix_rfl, h⟩

lemma Part.append (h : Part moves s s') : Part (moves ++ rest) s s' := by
  obtain ⟨part, hpart, h⟩ := h
  exact ⟨part, hpart.trans (List.prefix_append _ _), h⟩

/-- Statements that took effect, and then some of the others. -/
lemma Part.after {s₁ : TableState} (h : Part rest s₁ s') (hs₁ : performAll moves s = some s₁) :
    Part (moves ++ rest) s s' := by
  obtain ⟨part, hpart, h⟩ := h
  refine ⟨moves ++ part, (List.prefix_append_right_inj moves).2 hpart, ?_⟩
  rw [performAll_append, hs₁]
  exact h

lemma query_wp {α : Type} (q : Query) (answer : Option Table → α) :
    (query env n table q answer).wp
      (fun b s' => s' = s ∧ b = answer s.table ∧ env.query n table q = none)
      (fun _ s' => s' = s ∧ env.query n table q ≠ none) s := by
  unfold query Prog.wp
  cases h : env.query n table q with
  | none => exact ⟨rfl, rfl, rfl⟩
  | some e => exact ⟨rfl, nofun⟩

lemma execute_wp (d : Ddl) :
    (execute env n table d).wp (fun _ s' => env.execute n table d = none ∧ perform d s = some s')
      (fun e s' => s' = s ∧ (env.execute n table d ≠ none ∨
        perform d s = none ∧ isMysql e = true)) s := by
  unfold execute Prog.wp
  cases h : env.execute n table d with
  | some e => exact ⟨rfl, .inl nofun⟩
  | none =>
    dsimp only
    cases hperform : perform d s with
    | some s' => exact ⟨rfl, rfl⟩
    | none => exact ⟨rfl, .inr ⟨rfl, rfl⟩⟩

lemma not_quiet_of_query {q : Query} (h : env.query n table q ≠ none) : ¬ Quiet env n table :=
  fun hquiet => h (hquiet.1 q)

lemma not_quiet_of_execute {d : Ddl} (h : env.execute n table d ≠ none) : ¬ Quiet env n table :=
  fun hquiet => h (hquiet.2 d)

/-- A statement that applies to the answers takes effect or fails. -/
lemma execute_move_wp {m : Move} (hs : Has s t) (h : (m.step (shape t)).isSome = true) :
    (execute env n table m.ddl).wp (fun _ s' => performAll [m] s = some s')
      (fun _ s' => s' = s ∧ ¬ Quiet env n table) s := by
  refine Prog.wp_mono (execute_wp m.ddl) (fun _ s' hs' => ?_) ?_
  · rw [performAll_singleton]
    exact hs'.2
  · rintro e s' ⟨rfl, hfail | ⟨hnone, -⟩⟩
    · exact ⟨rfl, not_quiet_of_execute hfail⟩
    · rcases perform_spec hs m with ⟨s₁, t₁, hs₁, hp⟩ | ⟨-, hstep⟩
      · rw [hs₁] at hnone
        cases hnone
      · rw [hstep] at h
        cases h

/-- Statements that apply to the answers take effect up to the first failure. -/
lemma executeAll_wp (hs : Has s t) (h : (stepAll moves (shape t)).isSome = true) :
    (moves.forM fun m => execute env n table m.ddl).wp
      (fun _ s' => performAll moves s = some s') (fun _ s' => Interrupted env n table moves s s')
      s := by
  induction moves generalizing s t with
  | nil => exact rfl
  | cons m moves ih =>
    -- the first statement applies, and the others to what it leaves
    obtain ⟨a₁, hstep, hrest⟩ : ∃ a₁, m.step (shape t) = some a₁ ∧
        (stepAll moves a₁).isSome = true := by
      rw [stepAll_cons] at h
      cases hstep : m.step (shape t) with
      | none =>
        rw [hstep] at h
        cases h
      | some a₁ =>
        rw [hstep] at h
        exact ⟨a₁, rfl, h⟩
    refine Prog.wp_bind.2 (Prog.wp_mono (execute_move_wp hs (by rw [hstep]; rfl)) ?_ ?_)
    · intro _ s₁ hs₁
      obtain ⟨t₁, ht₁, hstep₁⟩ := performAll_spec hs hs₁
      obtain rfl : a₁ = shape t₁ := Option.some.inj (by
        rw [← hstep₁, stepAll_cons, hstep]
        rfl)
      refine Prog.wp_mono (ih ht₁ hrest) (fun _ s' hs' => ?_) fun _ s' hs' =>
        ⟨hs'.1, hs'.2.after hs₁⟩
      show performAll ([m] ++ moves) s = some s'
      rw [performAll_append, hs₁]
      exact hs'
    · rintro e s₁ ⟨rfl, hfail⟩
      exact ⟨hfail, part_refl⟩

/-- The three statements of the surrogate. -/
def adding : List Move := [.addColumn, .addUniqueKey, .setDefault]

lemma addSurrogateKey_of_hasRows (hs : Has s t) (hrows : t.hasRows = true) :
    (addSurrogateKey env n table).wp (fun _ _ => False) (fun _ s' => s' = s) s := by
  unfold addSurrogateKey
  refine Prog.wp_bind.2 (Prog.wp_mono (query_wp _ _) ?_ fun _ s' hs' => hs'.1)
  rintro rows s₁ ⟨rfl, rfl, -⟩
  rw [hs.table, Option.any_some, hrows]
  exact rfl

lemma addSurrogateKey_of_not_hasRows (hs : Has s t) (hcolumn : t.hasColumn column = false)
    (hkey : t.hasKey columnUniq = false) (hrows : t.hasRows = false) :
    (addSurrogateKey env n table).wp (fun _ s' => performAll adding s = some s')
      (fun _ s' => Interrupted env n table adding s s') s := by
  have happly : (stepAll adding (shape t)).isSome = true := by
    simp [stepAll, adding, Move.step, shape, hcolumn, hkey]
  have hall : (adding.forM fun m => execute env n table m.ddl).wp
      (fun _ s' => performAll adding s = some s')
      (fun _ s' => Interrupted env n table adding s s') s := executeAll_wp hs happly
  unfold addSurrogateKey
  refine Prog.wp_bind.2 (Prog.wp_mono (query_wp _ _) ?_ fun _ s' hs' =>
    ⟨not_quiet_of_query hs'.2, hs'.1 ▸ part_refl⟩)
  rintro rows s₁ ⟨rfl, rfl, -⟩
  rw [hs.table, Option.any_some, hrows]
  simpa [adding, List.forM, Move.ddl] using hall

/-- The statements that complete a surrogate. -/
def completing (a : Shape) : List Move :=
  (if a.hasKey then [] else [.addUniqueKey]) ++ if a.hasDefault then [] else [.setDefault]

lemma stepAll_first {a' : Shape} (hcolumn : a.hasColumn = true)
    (h : stepAll (if a.hasKey then [] else [.addUniqueKey]) a = some a') :
    a'.hasColumn = true ∧ a'.hasDefault = a.hasDefault := by
  cases hkey : a.hasKey with
  | true =>
    rw [hkey] at h
    obtain rfl : a = a' := Option.some.inj h
    exact ⟨hcolumn, rfl⟩
  | false =>
    have hstep : stepAll [.addUniqueKey] a = some { a with hasKey := true } := by
      simp [stepAll, Move.step, hcolumn, hkey]
    rw [hkey] at h
    obtain rfl : { a with hasKey := true } = a' := Option.some.inj (hstep.symm.trans h)
    exact ⟨hcolumn, rfl⟩

lemma completeSurrogateKey_wp (hs : Has s t) (hcolumn : t.hasColumn column = true) :
    (completeSurrogateKey env n table t.notNullKeys).wp
      (fun _ s' => performAll (completing (shape t)) s = some s')
      (fun _ s' => Interrupted env n table (completing (shape t)) s s') s := by
  -- the index is created only where it is missing
  have hkey : (if (t.notNullKeys.find? (·.name == columnUniq)).map (·.columns.toFinset) ≠
        some {column} then execute env n table addUniqueKey else pure () :
        Prog TableState Exc Unit).wp
      (fun _ s' => performAll (if (shape t).hasKey then [] else [.addUniqueKey]) s = some s')
      (fun _ s' => s' = s ∧ ¬ Quiet env n table) s := by
    refine Prog.wp_ite.2 ⟨fun h => ?_, fun h => ?_⟩
    · have hno : (shape t).hasKey = false :=
        Bool.eq_false_iff.2 (mt hs.charmOnly.find?_uniq.2 h)
      have hstep : (Move.addUniqueKey.step (shape t)).isSome = true := by
        have hhas : (shape t).hasColumn = true := hcolumn
        simp [Move.step, hhas, hno]
      rw [hno]
      exact execute_move_wp hs hstep
    · rw [show (shape t).hasKey = true from hs.charmOnly.find?_uniq.1 (not_not.1 h)]
      exact rfl
  unfold completeSurrogateKey
  refine Prog.wp_bind.2 (Prog.wp_mono hkey ?_ ?_)
  · intro _ s₁ hs₁
    obtain ⟨t₁, ht₁, hstep₁⟩ := performAll_spec hs hs₁
    have hanswers := stepAll_first hcolumn hstep₁
    refine Prog.wp_bind.2 (Prog.wp_mono (query_wp _ _) ?_ ?_)
    · rintro b s₂ ⟨rfl, rfl, -⟩
      -- the default is asked for after the index, which does not change it
      have hb : s₂.table.any (·.columnHasDefault column) = (shape t).hasDefault := by
        rw [ht₁.table, Option.any_some]
        exact hanswers.2
      rw [hb, completing]
      refine Prog.wp_ite.2 ⟨fun h => ?_, fun h => ?_⟩
      · have hno : (shape t).hasDefault = false := by simpa using h
        have hstep : (Move.setDefault.step (shape t₁)).isSome = true := by
          simp [Move.step, hanswers.1]
        refine Prog.wp_mono (execute_move_wp ht₁ hstep) (fun _ s' hs' => ?_) ?_
        · rw [hno, performAll_append, hs₁]
          exact hs'
        · rintro e s' ⟨rfl, hfail⟩
          exact ⟨hfail, (part_all hs₁).append⟩
      · have hyes : (shape t).hasDefault = true := by simpa using h
        rw [hyes, performAll_append, hs₁]
        exact rfl
    · rintro e s₂ ⟨rfl, hfail⟩
      exact ⟨not_quiet_of_query hfail, (part_all hs₁).append⟩
  · rintro e s₁ ⟨rfl, hfail⟩
    exact ⟨hfail, part_refl⟩

/-- Where the first statement of the removal takes effect, and where not. -/
lemma perform_dropIndex (hs : Has s t) (hcolumn : t.hasColumn column = true) :
    (∃ s₁ t₁, perform dropIndex s = some s₁ ∧ Has s₁ t₁ ∧ (shape t).hasKey = true ∧
      (Move.dropColumn.step (shape t₁)).isSome = true) ∨
      (perform dropIndex s = none ∧ (shape t).hasKey = false) := by
  have hhas : (shape t).hasColumn = true := hcolumn
  rcases perform_spec hs .dropIndex with ⟨s₁, t₁, hs₁, hp⟩ | ⟨hnone, hstep⟩
  · cases hkey : (shape t).hasKey with
    | true =>
      have hstep := hp.step
      simp only [Move.step, hkey, if_true, Option.some.injEq] at hstep
      refine .inl ⟨s₁, t₁, hs₁, hp.has, rfl, ?_⟩
      simp [Move.step, ← hstep, hhas]
    | false =>
      have hstep := hp.step
      simp [Move.step, hkey] at hstep
  · refine .inr ⟨hnone, ?_⟩
    simpa [Move.step] using hstep

lemma dropSurrogateKey_wp (hs : Has s t) (hcolumn : t.hasColumn column = true)
    (hanswered : Answered env n table) :
    (dropSurrogateKey env n table).wp
      (fun _ s' => performAll (dropped env n table (shape t)) s = some s')
      (fun _ s' => ¬ Quiet env n table ∧ performAll (dropped env n table (shape t)) s = some s')
      s := by
  refine Prog.wp_tryCatch.2 (Prog.wp_bind.2 (Prog.wp_mono (execute_wp dropIndex) ?_ ?_))
  · rintro - s₁ ⟨hindex, hs₁⟩
    rcases perform_dropIndex hs hcolumn with ⟨s₁', t₁, hs₁', ht₁, hkey, hstep⟩ | ⟨hnone, -⟩
    · obtain rfl : s₁' = s₁ := Option.some.inj (hs₁'.symm.trans hs₁)
      have hfirst : performAll [.dropIndex] s = some s₁' := (performAll_singleton _).trans hs₁
      refine Prog.wp_mono (execute_wp dropColumn) ?_ ?_
      · rintro - s₂ ⟨hdrop, hs₂⟩
        rw [dropped, if_pos ⟨hanswered, hkey, hindex⟩, if_pos hdrop]
        show performAll ([.dropIndex] ++ [.dropColumn]) s = some s₂
        rw [performAll_append, hfirst]
        exact (performAll_singleton .dropColumn).trans hs₂
      · rintro e s₂ ⟨rfl, hfail⟩
        -- the column can be dropped, so only a failure keeps it
        have hfail' : env.execute n table dropColumn ≠ none := by
          rcases hfail with hfail | ⟨hnone, -⟩
          · exact hfail
          · rcases perform_spec ht₁ .dropColumn with ⟨s₃, t₃, hs₃, -⟩ | ⟨-, hstep'⟩
            · exact absurd (hs₃.symm.trans hnone) nofun
            · rw [hstep'] at hstep
              cases hstep
        have hdropped : dropped env n table (shape t) = [.dropIndex] := by
          rw [dropped, if_pos ⟨hanswered, hkey, hindex⟩, if_neg hfail']
        rw [hdropped]
        exact Prog.wp_ite.2 ⟨fun _ => hfirst, fun _ => ⟨not_quiet_of_execute hfail', hfirst⟩⟩
    · exact absurd (hs₁.symm.trans hnone) nofun
  · rintro e s₁ ⟨rfl, hfail | ⟨hnone, hmysql⟩⟩
    · have hdropped : dropped env n table (shape t) = [] := by
        rw [dropped, if_neg fun h => hfail h.2.2]
      rw [hdropped]
      exact Prog.wp_ite.2 ⟨fun _ => rfl, fun _ => ⟨not_quiet_of_execute hfail, rfl⟩⟩
    · have hdropped : dropped env n table (shape t) = [] := by
        rcases perform_dropIndex hs hcolumn with ⟨s₁', t₁, hs₁', -⟩ | ⟨-, hkey⟩
        · exact absurd (hs₁'.symm.trans hnone) nofun
        · rw [dropped, if_neg fun h => Bool.false_ne_true (hkey.symm.trans h.2.1)]
      rw [hdropped]
      -- MySQL answers that there is no such index, which is passed over
      exact Prog.wp_ite.2 ⟨fun _ => rfl, fun h => absurd hmysql h⟩

lemma dropped_prefix : dropped env n table a <+: [.dropIndex, .dropColumn] := by
  unfold dropped
  split
  · split
    · exact List.prefix_rfl
    · exact ⟨[.dropColumn], rfl⟩
  · exact List.nil_prefix

/-- What every visit of a table comes to. -/
structure Visited (env : DatabaseEnv) (n : ℕ) (table : String) (t : Table) (s s' : TableState) :
    Prop where
  part : Part (plan (shape t)) s s'
  redundant : (shape t).Redundant → performAll (dropped env n table (shape t)) s = some s'

/-- What a visit that returns comes to. -/
def Returned (env : DatabaseEnv) (n : ℕ) (table : String) (t : Table) (s s' : TableState) : Prop :=
  Visited env n table t s s' ∧ ¬ (shape t).Refused ∧ Answered env n table ∧
    (¬ (shape t).Redundant → performAll (plan (shape t)) s = some s')

/-- What a visit that raises comes to. -/
def Raised (env : DatabaseEnv) (n : ℕ) (table : String) (t : Table) (s s' : TableState) : Prop :=
  Visited env n table t s s' ∧ ((shape t).Refused ∨ ¬ Quiet env n table)

/-- The branches of a visit whose questions are answered. -/
lemma branches_wp (hs : Has s t) (hanswered : Answered env n table) :
    (if t.hasColumn column then
        if ownKey t then dropSurrogateKey env n table
        else completeSurrogateKey env n table t.notNullKeys
      else if t.notNullKeys ≠ [] then pure () else addSurrogateKey env n table :
      Prog TableState Exc Unit).wp
      (fun _ s' => Returned env n table t s s') (fun _ s' => Raised env n table t s s') s := by
  have hkey_column := hs.charmOnly.hasColumn_of_hasKey
  have hcompliant := hs.charmOnly.compliant_iff
  rw [Table.compliant_iff] at hcompliant
  cases hcolumn : t.hasColumn column with
  -- the surrogate is there: it goes if there is another key, and is completed if not
  | true =>
    cases hown : ownKey t with
    | true =>
      have hplan : plan (shape t) = [.dropIndex, .dropColumn] := by
        simp [plan, shape, hcolumn, hown]
      have hvisited : ∀ s', performAll (dropped env n table (shape t)) s = some s' →
          Visited env n table t s s' := fun s' hs' =>
        ⟨⟨_, hplan ▸ dropped_prefix, hs'⟩, fun _ => hs'⟩
      refine Prog.wp_mono (dropSurrogateKey_wp hs hcolumn hanswered) (fun _ s' hs' => ?_)
        fun _ s' hs' => ⟨hvisited s' hs'.2, .inr hs'.1⟩
      refine ⟨hvisited s' hs', fun h => ?_, hanswered, fun h => absurd ⟨hcolumn, hown⟩ h⟩
      exact Bool.false_ne_true (h.1.symm.trans hcolumn)
    | false =>
      have hplan : plan (shape t) = completing (shape t) := by
        simp [plan, completing, shape, hcolumn, hown]
      have hneeded : ¬ (shape t).Redundant := fun h => Bool.false_ne_true (hown.symm.trans h.2)
      refine Prog.wp_mono (completeSurrogateKey_wp hs hcolumn) (fun _ s' hs' => ?_)
        fun _ s' hs' => ⟨⟨hplan ▸ hs'.2, fun h => absurd h hneeded⟩, .inr hs'.1⟩
      rw [← hplan] at hs'
      refine ⟨⟨part_all hs', fun h => absurd h hneeded⟩, fun h => ?_, hanswered, fun _ => hs'⟩
      exact Bool.false_ne_true (h.1.symm.trans hcolumn)
  | false =>
    -- without the column there is nothing to drop
    have hneeded : ¬ (shape t).Redundant := fun h => Bool.false_ne_true (hcolumn.symm.trans h.1)
    have hkey : t.hasKey columnUniq = false := by
      cases hkey : t.hasKey columnUniq with
      | false => rfl
      | true => exact absurd (hcolumn.symm.trans (hkey_column hkey)) Bool.false_ne_true
    rw [hkey, Bool.or_false] at hcompliant
    refine Prog.wp_ite.2 ⟨fun h => absurd h Bool.false_ne_true, fun _ =>
      Prog.wp_ite.2 ⟨fun h => ?_, fun h => ?_⟩⟩
    · have hown : ownKey t = true := hcompliant.1 h
      have hplan : plan (shape t) = [] := by simp [plan, shape, hcolumn, hown]
      refine ⟨⟨part_refl, fun h => absurd h hneeded⟩, fun h => ?_, hanswered, fun _ => ?_⟩
      · exact Bool.false_ne_true (h.2.1.symm.trans hown)
      · rw [hplan]
        rfl
    · have hown : ownKey t = false := Bool.eq_false_iff.2 fun hown => h (hcompliant.2 hown)
      cases hrows : t.hasRows with
      | true =>
        refine Prog.wp_mono (addSurrogateKey_of_hasRows hs hrows) (fun _ _ h => h.elim) ?_
        rintro e s' rfl
        exact ⟨⟨part_refl, fun h => absurd h hneeded⟩, .inl ⟨hcolumn, hown, hrows⟩⟩
      | false =>
        have hplan : plan (shape t) = adding := by simp [plan, adding, shape, hcolumn, hown, hrows]
        refine Prog.wp_mono (addSurrogateKey_of_not_hasRows hs hcolumn hkey hrows)
          (fun _ s' hs' => ?_) fun _ s' hs' =>
          ⟨⟨hplan ▸ hs'.2, fun h => absurd h hneeded⟩, .inr hs'.1⟩
        rw [← hplan] at hs'
        refine ⟨⟨part_all hs', fun h => absurd h hneeded⟩, fun h => ?_, hanswered, fun _ => hs'⟩
        exact Bool.false_ne_true (hrows.symm.trans h.2.2)

/-- A visit returns if the surrogate can be added and, where it is needed, the whole plan took
effect.  It raises where something failed or rows are in the way. -/
lemma visit_wp (hs : Has s t) :
    (reconcileTable env n table).wp (fun _ s' => Returned env n table t s s')
      (fun _ s' => Raised env n table t s s') s := by
  have hunanswered : ∀ q, env.query n table q ≠ none → ¬ Answered env n table →
      Raised env n table t s s := by
    intro q hfail hanswered
    refine ⟨⟨part_refl, fun _ => ?_⟩, .inr (not_quiet_of_query hfail)⟩
    rw [dropped, if_neg fun h => hanswered h.1]
    rfl
  -- one case for each question that can fail
  unfold reconcileTable
  refine Prog.wp_bind.2 (Prog.wp_mono (query_wp _ _) ?_ ?_)
  · rintro b s₁ ⟨rfl, rfl, hexists⟩
    rw [hs.table]
    refine Prog.wp_ite.2 ⟨fun h => absurd h Bool.false_ne_true, fun _ => ?_⟩
    refine Prog.wp_bind.2 (Prog.wp_mono (query_wp _ _) ?_ ?_)
    · rintro b s₁ ⟨rfl, rfl, hcolumn⟩
      refine Prog.wp_bind.2 (Prog.wp_mono (query_wp _ _) ?_ ?_)
      · rintro keys s₁ ⟨rfl, rfl, hkeys⟩
        rw [hs.table]
        exact branches_wp hs ⟨hexists, hcolumn, hkeys⟩
      · rintro e s₁ ⟨rfl, hfail⟩
        exact hunanswered _ hfail fun h => hfail h.2.2
    · rintro e s₁ ⟨rfl, hfail⟩
      exact hunanswered _ hfail fun h => hfail h.2.1
  · rintro e s₁ ⟨rfl, hfail⟩
    exact hunanswered _ hfail fun h => hfail h.1

/-- A table that does not exist is passed over. -/
lemma visit_absent (hs : s.table = none) : (reconcileTable env n table s).2 = s := by
  have h : (reconcileTable env n table).wp (fun _ s' => s' = s) (fun _ s' => s' = s) s := by
    unfold reconcileTable
    refine Prog.wp_bind.2 (Prog.wp_mono (query_wp _ _) ?_ fun _ s' hs' => hs'.1)
    rintro b s₁ ⟨rfl, rfl, -⟩
    rw [hs]
    exact rfl
  exact Prog.wp_state h (fun _ _ h => h) fun _ _ h => h

end PrimaryKeys
end MediawikiCharm
