/-
What the repair of a table looks at.

While only the charm uses the surrogate column and its index, five answers decide what is done
to a table: whether it has the column, the index and the default, a key of its own, and rows.
A statement about the surrogate changes these answers in a way of its own, which is what the
statements of the repair are reasoned about with.
-/
import MediawikiCharm.PrimaryKeys

namespace MediawikiCharm
namespace PrimaryKeys

open Schema

/-- Only the charm uses the surrogate column and its index: the column is not nullable, and it
is the one column of the index and in no other key. -/
structure CharmOnly (t : Table) : Prop where
  notNull : ∀ c ∈ t.columns, c.name = column → c.nullable = false
  uniq : ∀ k ∈ t.keys, k.name = columnUniq → k.columns = [column]
  others : ∀ k ∈ t.keys, k.name ≠ columnUniq → column ∉ k.columns

/-- The answers about a table. -/
structure Shape where
  hasColumn : Bool
  hasKey : Bool
  hasDefault : Bool
  /-- A key without a nullable column and without the surrogate. -/
  ownKey : Bool
  hasRows : Bool
deriving DecidableEq

/-- A table has a key of its own. -/
def ownKey (t : Table) : Bool := t.notNullKeys.any fun key => decide (column ∉ key.columns)

/-- The answers about a table. -/
def shape (t : Table) : Shape :=
  ⟨t.hasColumn column, t.hasKey columnUniq, t.columnHasDefault column, ownKey t, t.hasRows⟩

/-- A statement about the surrogate. -/
inductive Move
  | addColumn | addUniqueKey | setDefault | dropIndex | dropColumn
deriving DecidableEq

namespace Move

/-- The statement. -/
def ddl : Move → Ddl
  | addColumn => PrimaryKeys.addColumn
  | addUniqueKey => PrimaryKeys.addUniqueKey
  | setDefault => PrimaryKeys.setDefault
  | dropIndex => PrimaryKeys.dropIndex
  | dropColumn => PrimaryKeys.dropColumn

/-- What the statement does to the answers; `none` where it does not apply. -/
def step (a : Shape) : Move → Option Shape
  | addColumn =>
    if a.hasColumn then none else some { a with hasColumn := true, hasDefault := false }
  | addUniqueKey => if a.hasColumn && !a.hasKey then some { a with hasKey := true } else none
  | setDefault => if a.hasColumn then some { a with hasDefault := true } else none
  | dropIndex => if a.hasKey then some { a with hasKey := false } else none
  | dropColumn =>
    if a.hasColumn && !a.hasKey then some { a with hasColumn := false, hasDefault := false }
    else none

/-- The statement is about the surrogate. -/
lemma about (m : Move) : m.ddl.About column columnUniq := by
  cases m <;> rfl

end Move

/-! ### The answers of a table -/

variable {t t' : Table}

lemma hasColumn_iff : t.hasColumn column = true ↔ column ∈ t.columnNames := decide_eq_true_iff

lemma hasKey_iff : t.hasKey columnUniq = true ↔ ∃ k ∈ t.keys, k.name = columnUniq := by
  rw [Table.hasKey, decide_eq_true_iff, List.mem_map]

lemma ownKey_iff : ownKey t = true ↔ ∃ k ∈ t.notNullKeys, column ∉ k.columns := by
  simp [ownKey]

/-- The index is over the column. -/
lemma CharmOnly.hasColumn_of_hasKey (h : CharmOnly t) (hkey : t.hasKey columnUniq = true) :
    t.hasColumn column = true := by
  obtain ⟨k, hk, hname⟩ := hasKey_iff.1 hkey
  refine hasColumn_iff.2 ((t.key_columns k hk).2 column ?_)
  rw [h.uniq k hk hname]
  exact List.mem_singleton_self _

lemma hasColumn_of_hasDefault (h : t.columnHasDefault column = true) :
    t.hasColumn column = true := by
  obtain ⟨c, hc, hname⟩ := List.any_eq_true.1 h
  simp only [Bool.and_eq_true, beq_iff_eq] at hname
  exact hasColumn_iff.2 (List.mem_map.2 ⟨c, hc, hname.1⟩)

/-- The index makes a table compliant. -/
lemma CharmOnly.uniq_mem_notNullKeys (h : CharmOnly t) {k : Key} (hk : k ∈ t.keys)
    (hname : k.name = columnUniq) : k ∈ t.notNullKeys := by
  refine Table.mem_notNullKeys.2 ⟨hk, fun c hc hmem => ?_⟩
  rw [h.uniq k hk hname, List.mem_singleton] at hmem
  exact h.notNull c hc hmem

lemma CharmOnly.compliant_iff (h : CharmOnly t) :
    t.Compliant ↔ (ownKey t || t.hasKey columnUniq) = true := by
  rw [Table.compliant_iff, Bool.or_eq_true, ownKey_iff, hasKey_iff]
  constructor
  · intro hne
    obtain ⟨k, hk⟩ := List.exists_mem_of_ne_nil _ hne
    have hk' := (Table.mem_notNullKeys.1 hk).1
    by_cases hname : k.name = columnUniq
    · exact .inr ⟨k, hk', hname⟩
    · exact .inl ⟨k, hk, h.others k hk' hname⟩
  · rintro (⟨k, hk, -⟩ | ⟨k, hk, hname⟩)
    · exact List.ne_nil_of_mem hk
    · exact List.ne_nil_of_mem (h.uniq_mem_notNullKeys hk hname)

/-- What `_complete_surrogate_key` compares says whether the index exists. -/
lemma CharmOnly.find?_uniq (h : CharmOnly t) :
    (t.notNullKeys.find? (·.name == columnUniq)).map (·.columns.toFinset) = some {column} ↔
      t.hasKey columnUniq = true := by
  rw [hasKey_iff]
  constructor
  · intro hsome
    obtain ⟨k, hk, -⟩ := Option.map_eq_some_iff.1 hsome
    exact ⟨k, (Table.mem_notNullKeys.1 (List.mem_of_find?_eq_some hk)).1,
      by simpa using List.find?_some hk⟩
  · rintro ⟨k, hk, hname⟩
    have hfound : (t.notNullKeys.find? (·.name == columnUniq)).isSome = true := by
      rw [List.find?_isSome]
      exact ⟨k, h.uniq_mem_notNullKeys hk hname, by simpa using hname⟩
    obtain ⟨k', hk'⟩ := Option.isSome_iff_exists.1 hfound
    have hmem := (Table.mem_notNullKeys.1 (List.mem_of_find?_eq_some hk')).1
    have hname' : k'.name = columnUniq := by simpa using List.find?_some hk'
    rw [hk', Option.map_some, h.uniq k' hmem hname']
    rfl

/-! ### What a statement does to the answers -/

/-- The keys of its own are the same after a change of the surrogate. -/
lemma ownKey_congr (h : ∀ k : Key, column ∉ k.columns →
    (k ∈ t'.notNullKeys ↔ k ∈ t.notNullKeys)) : ownKey t' = ownKey t := by
  rw [Bool.eq_iff_iff, ownKey_iff, ownKey_iff]
  constructor
  · rintro ⟨k, hk, hcolumn⟩
    exact ⟨k, (h k hcolumn).1 hk, hcolumn⟩
  · rintro ⟨k, hk, hcolumn⟩
    exact ⟨k, (h k hcolumn).2 hk, hcolumn⟩

lemma step_addColumn (h : CharmOnly t) (hnew : column ∉ t.columnNames) :
    CharmOnly (t.addColumn { name := column } hnew) ∧
      Move.addColumn.step (shape t) = some (shape (t.addColumn { name := column } hnew)) := by
  have hno : t.hasColumn column = false := decide_eq_false hnew
  have hdefault : t.columnHasDefault column = false := by
    by_contra hd
    rw [hasColumn_of_hasDefault (by simpa using hd)] at hno
    cases hno
  constructor
  · refine ⟨fun c hc hname => ?_, h.uniq, h.others⟩
    rcases List.mem_append.1 hc with hc | hc
    · exact h.notNull c hc hname
    · rw [List.mem_singleton.1 hc]
  · -- no key has the new column, so the keys of others are the same
    have hown : ownKey (t.addColumn { name := column } hnew) = ownKey t := by
      refine ownKey_congr fun k hk => ?_
      rw [Table.mem_notNullKeys, Table.mem_notNullKeys]
      refine and_congr_right fun _ => ⟨fun hnull c hc => hnull c (List.mem_append_left _ hc), ?_⟩
      intro hnull c hc hmem
      rcases List.mem_append.1 hc with hc | hc
      · exact hnull c hc hmem
      · rw [List.mem_singleton.1 hc] at hmem
        exact absurd hmem hk
    have hhas : (t.addColumn { name := column } hnew).hasColumn column = true := by
      refine hasColumn_iff.2 ?_
      simp [Table.columnNames, Table.addColumn]
    have hdefault' : (t.addColumn { name := column } hnew).columnHasDefault column = false := by
      rw [← hdefault]
      simp [Table.columnHasDefault, Table.addColumn]
    rw [Move.step, shape, shape, hown, hhas, hdefault', hno]
    rfl

lemma step_addUniqueKey (h : CharmOnly t) (hcolumn : t.hasColumn column = true)
    (hkey : t.hasKey columnUniq = false) : ∃ t', addUniqueKey.apply t = some t' ∧ CharmOnly t' ∧
      Move.addUniqueKey.step (shape t) = some (shape t') := by
  have hk : columnUniq ∉ t.keys.map Key.name := of_decide_eq_false hkey
  have happly : columnUniq ∉ t.keys.map Key.name ∧ columnUniq ≠ primary ∧ [column] ≠ [] ∧
      ∀ c ∈ [column], c ∈ t.columnNames :=
    ⟨hk, by decide, List.cons_ne_nil _ _, List.forall_mem_singleton.2 (hasColumn_iff.1 hcolumn)⟩
  refine ⟨t.addUniqueKey ⟨columnUniq, [column]⟩ happly, apply_addUniqueKey.2 ⟨happly, rfl⟩, ?_, ?_⟩
  · refine ⟨h.notNull, fun k hk hname => ?_, fun k hk hname => ?_⟩
    · rcases List.mem_append.1 hk with hk | hk
      · exact h.uniq k hk hname
      · rw [List.mem_singleton.1 hk]
    · rcases List.mem_append.1 hk with hk | hk
      · exact h.others k hk hname
      · rw [List.mem_singleton.1 hk] at hname
        exact absurd rfl hname
  · have hown : ownKey (t.addUniqueKey ⟨columnUniq, [column]⟩ happly) = ownKey t := by
      refine ownKey_congr fun k hk => ?_
      rw [Table.mem_notNullKeys, Table.mem_notNullKeys]
      refine and_congr_left fun _ => ⟨fun hmem => ?_, fun hmem => List.mem_append_left _ hmem⟩
      rcases List.mem_append.1 hmem with hmem | hmem
      · exact hmem
      · rw [List.mem_singleton.1 hmem] at hk
        exact absurd (List.mem_singleton_self _) hk
    have hkey' : (t.addUniqueKey ⟨columnUniq, [column]⟩ happly).hasKey columnUniq = true := by
      refine hasKey_iff.2 ⟨⟨columnUniq, [column]⟩, ?_, rfl⟩
      exact List.mem_append_right _ (List.mem_singleton_self _)
    rw [Move.step, shape, shape, hown, hkey', hkey, hcolumn]
    simp only [Bool.not_false, Bool.and_self, if_true]
    rw [← hcolumn]
    rfl

lemma step_setDefault (h : CharmOnly t) (hcolumn : t.hasColumn column = true) :
    CharmOnly (t.setDefault column) ∧
      Move.setDefault.step (shape t) = some (shape (t.setDefault column)) := by
  constructor
  · refine ⟨fun c hc hname => ?_, h.uniq, h.others⟩
    obtain ⟨c₀, hc₀, rfl⟩ := List.mem_map.1 hc
    exact h.notNull c₀ hc₀ hname
  · -- a default makes no column nullable
    have hown : ownKey (t.setDefault column) = ownKey t := by
      refine ownKey_congr fun k hk => ?_
      rw [Table.mem_notNullKeys, Table.mem_notNullKeys]
      refine and_congr_right fun _ => ⟨fun hnull c hc =>
        hnull (c.withDefault column) (List.mem_map.2 ⟨c, hc, rfl⟩), ?_⟩
      intro hnull c hc
      obtain ⟨c₀, hc₀, rfl⟩ := List.mem_map.1 hc
      exact hnull c₀ hc₀
    have hdefault : (t.setDefault column).columnHasDefault column = true := by
      obtain ⟨c, hc, hname⟩ := List.mem_map.1 (hasColumn_iff.1 hcolumn)
      refine List.any_eq_true.2 ⟨c.withDefault column, List.mem_map_of_mem hc, ?_⟩
      simp [Column.withDefault, hname]
    have hhas : (t.setDefault column).hasColumn column = true := by
      rw [← hcolumn]
      simp [Table.hasColumn, Table.columnNames, Table.setDefault]
    rw [Move.step, shape, shape, hown, hdefault, hhas, hcolumn]
    rfl

lemma step_dropIndex (h : CharmOnly t) (hkey : t.hasKey columnUniq = true) :
    CharmOnly (t.dropIndex columnUniq) ∧
      Move.dropIndex.step (shape t) = some (shape (t.dropIndex columnUniq)) := by
  constructor
  · exact ⟨h.notNull, fun k hk => h.uniq k (List.mem_of_mem_filter hk),
      fun k hk => h.others k (List.mem_of_mem_filter hk)⟩
  · have hown : ownKey (t.dropIndex columnUniq) = ownKey t := by
      refine ownKey_congr fun k hk => ?_
      rw [Table.mem_notNullKeys, Table.mem_notNullKeys]
      refine and_congr_left fun _ =>
        ⟨List.mem_of_mem_filter, fun hmem => List.mem_filter.2 ⟨hmem, ?_⟩⟩
      have hname : k.name ≠ columnUniq := fun hname => hk (by
        rw [h.uniq k hmem hname]
        exact List.mem_singleton_self _)
      simpa using hname
    have hkey' : (t.dropIndex columnUniq).hasKey columnUniq = false :=
      decide_eq_false (notMem_names_filter Key.name _ _)
    rw [Move.step, shape, shape, hown, hkey', hkey]
    rfl

lemma step_dropColumn (h : CharmOnly t) (hcolumn : t.hasColumn column = true)
    (hkey : t.hasKey columnUniq = false) : ∃ t', dropColumn.apply t = some t' ∧ CharmOnly t' ∧
      Move.dropColumn.step (shape t) = some (shape t') := by
  have hname : ∀ k ∈ t.keys, k.name ≠ columnUniq := by
    intro k hk hname
    rw [hasKey_iff.2 ⟨k, hk, hname⟩] at hkey
    cases hkey
  -- once the index of the charm is gone no key has the column
  have hkeys : ∀ k ∈ t.keys, column ∉ k.columns := fun k hk => h.others k hk (hname k hk)
  refine ⟨t.dropColumn column hkeys, apply_dropColumn.2 ⟨hasColumn_iff.1 hcolumn, hkeys, rfl⟩, ?_, ?_⟩
  · exact ⟨fun c hc => h.notNull c (List.mem_of_mem_filter hc), h.uniq, h.others⟩
  · have hown : ownKey (t.dropColumn column hkeys) = ownKey t := by
      refine ownKey_congr fun k hk => ?_
      rw [Table.mem_notNullKeys, Table.mem_notNullKeys]
      refine and_congr_right fun _ => ⟨fun hnull c hc hmem => hnull c ?_ hmem,
        fun hnull c hc => hnull c (List.mem_of_mem_filter hc)⟩
      have hne : c.name ≠ column := fun he => hk (he ▸ hmem)
      exact List.mem_filter.2 ⟨hc, by simpa using hne⟩
    have hhas : (t.dropColumn column hkeys).hasColumn column = false :=
      decide_eq_false (notMem_names_filter Column.name _ _)
    have hdefault : (t.dropColumn column hkeys).columnHasDefault column = false := by
      by_contra hd
      rw [hasColumn_of_hasDefault (by simpa using hd)] at hhas
      cases hhas
    have hkey' : (t.dropColumn column hkeys).hasKey columnUniq = false := hkey
    rw [Move.step, shape, shape, hown, hhas, hdefault, hkey', hkey, hcolumn]
    rfl

/-- A statement about the surrogate applies to a table where it applies to the answers, and
changes them as it should. -/
lemma step_spec (h : CharmOnly t) (m : Move) :
    (∃ t', m.ddl.apply t = some t' ∧ CharmOnly t' ∧ m.step (shape t) = some (shape t')) ∨
      (m.ddl.apply t = none ∧ m.step (shape t) = none) := by
  cases m with
  | addColumn =>
    by_cases hnew : column ∉ t.columnNames
    · exact .inl ⟨_, apply_addColumn.2 ⟨hnew, rfl⟩, step_addColumn h hnew⟩
    · have hhas : t.hasColumn column = true := hasColumn_iff.2 (not_not.1 hnew)
      refine .inr ⟨dif_neg hnew, ?_⟩
      simp [Move.step, shape, hhas]
  | addUniqueKey =>
    cases hcolumn : t.hasColumn column with
    | false =>
      refine .inr ⟨dif_neg fun happly => ?_, by simp [Move.step, shape, hcolumn]⟩
      rw [hasColumn_iff.2 (happly.2.2.2 column (List.mem_singleton_self _))] at hcolumn
      cases hcolumn
    | true =>
      cases hkey : t.hasKey columnUniq with
      | false => exact .inl (step_addUniqueKey h hcolumn hkey)
      | true =>
        refine .inr ⟨dif_neg fun happly => happly.1 (of_decide_eq_true hkey), ?_⟩
        simp [Move.step, shape, hkey]
  | setDefault =>
    cases hcolumn : t.hasColumn column with
    | false =>
      exact .inr ⟨if_neg (of_decide_eq_false hcolumn), by simp [Move.step, shape, hcolumn]⟩
    | true =>
      exact .inl ⟨_, apply_setDefault.2 ⟨hasColumn_iff.1 hcolumn, rfl⟩, step_setDefault h hcolumn⟩
  | dropIndex =>
    cases hkey : t.hasKey columnUniq with
    | false => exact .inr ⟨if_neg (of_decide_eq_false hkey), by simp [Move.step, shape, hkey]⟩
    | true =>
      exact .inl ⟨_, apply_dropIndex.2 ⟨of_decide_eq_true hkey, rfl⟩, step_dropIndex h hkey⟩
  | dropColumn =>
    cases hcolumn : t.hasColumn column with
    | false =>
      refine .inr ⟨dif_neg fun happly => ?_, by simp [Move.step, shape, hcolumn]⟩
      rw [hasColumn_iff.2 happly.1] at hcolumn
      cases hcolumn
    | true =>
      cases hkey : t.hasKey columnUniq with
      | false => exact .inl (step_dropColumn h hcolumn hkey)
      | true =>
        refine .inr ⟨dif_neg fun happly => ?_, by simp [Move.step, shape, hkey]⟩
        obtain ⟨k, hk, hname⟩ := hasKey_iff.1 hkey
        refine happly.2 k hk ?_
        rw [h.uniq k hk hname]
        exact List.mem_singleton_self _

end PrimaryKeys
end MediawikiCharm
