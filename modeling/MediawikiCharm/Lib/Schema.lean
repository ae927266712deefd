/-
Tables of a relational database and the statements that alter them.

A table has columns and unique keys, of which the primary key is the one named `PRIMARY`.
A statement applies to a table or does not; where it does not, it fails and changes nothing.
A table complies when one of its keys has no nullable column.  This file shows which
statements keep a table compliant and what running a list of them up to a failure leaves.
-/
import Mathlib.Data.List.Nodup
import Mathlib.Tactic.Common

namespace Schema

/-- A column. -/
structure Column where
  name : String
  nullable : Bool := false
  hasDefault : Bool := false
deriving DecidableEq

/-- The column with a default if it has the name. -/
def Column.withDefault (name : String) (c : Column) : Column :=
  { c with hasDefault := c.hasDefault || c.name == name }

@[simp] lemma Column.withDefault_name (name : String) (c : Column) :
    (c.withDefault name).name = c.name := rfl

@[simp] lemma Column.withDefault_nullable (name : String) (c : Column) :
    (c.withDefault name).nullable = c.nullable := rfl

/-- A unique key. -/
structure Key where
  name : String
  columns : List String
deriving DecidableEq

/-- The name of the primary key. -/
def primary : String := "PRIMARY"

/-- A table. -/
structure Table where
  columns : List Column
  keys : List Key := []
  hasRows : Bool := false
  /-- Names of columns are distinct, -/
  columns_nodup : (columns.map Column.name).Nodup := by decide
  /-- and so are those of keys. -/
  keys_nodup : (keys.map Key.name).Nodup := by decide
  /-- A key has columns, which are columns of the table. -/
  key_columns : ∀ k ∈ keys, k.columns ≠ [] ∧ ∀ c ∈ k.columns, c ∈ columns.map Column.name := by
    decide
  /-- The primary key has no nullable column. -/
  primary_not_null : ∀ k ∈ keys, k.name = primary → ∀ c ∈ columns, c.name ∈ k.columns →
    c.nullable = false := by decide
deriving DecidableEq

namespace Table

variable (t : Table)

/-- The names of the columns. -/
def columnNames : List String := t.columns.map Column.name

/-- The table has the column. -/
def hasColumn (name : String) : Bool := decide (name ∈ t.columnNames)

/-- The column has a default. -/
def columnHasDefault (name : String) : Bool :=
  t.columns.any fun c => c.name == name && c.hasDefault

/-- The table has the key. -/
def hasKey (name : String) : Bool := decide (name ∈ t.keys.map Key.name)

/-- None of the columns of the key is nullable. -/
def NotNull (k : Key) : Prop := ∀ c ∈ t.columns, c.name ∈ k.columns → c.nullable = false

instance (k : Key) : Decidable (t.NotNull k) := inferInstanceAs (Decidable (∀ _ ∈ _, _))

/-- A primary key, or a unique key without a nullable column. -/
def Compliant : Prop := ∃ k ∈ t.keys, k.name = primary ∨ t.NotNull k

/-- The keys without a nullable column. -/
def notNullKeys : List Key := t.keys.filter fun k => decide (t.NotNull k)

variable {t}

lemma mem_notNullKeys {k : Key} : k ∈ t.notNullKeys ↔ k ∈ t.keys ∧ t.NotNull k := by
  rw [notNullKeys, List.mem_filter, decide_eq_true_iff]

/-- The keys without a nullable column decide whether the table complies. -/
lemma compliant_iff : t.Compliant ↔ t.notNullKeys ≠ [] := by
  constructor
  · rintro ⟨k, hk, hprimary | hnull⟩
    · exact List.ne_nil_of_mem (mem_notNullKeys.2 ⟨hk, t.primary_not_null k hk hprimary⟩)
    · exact List.ne_nil_of_mem (mem_notNullKeys.2 ⟨hk, hnull⟩)
  · intro h
    obtain ⟨k, hk⟩ := List.exists_mem_of_ne_nil _ h
    obtain ⟨hk, hnull⟩ := mem_notNullKeys.1 hk
    exact ⟨k, hk, .inr hnull⟩

instance : Decidable t.Compliant := decidable_of_iff _ compliant_iff.symm

end Table

/-! ### Statements -/

/-- A statement that alters a table. -/
inductive Ddl
  /-- `ADD COLUMN` -/
  | addColumn (c : Column)
  /-- `DROP COLUMN` with `ALGORITHM=INSTANT` -/
  | dropColumn (name : String)
  /-- `ADD UNIQUE KEY` -/
  | addUniqueKey (k : Key)
  /-- `DROP INDEX` of a unique key -/
  | dropIndex (name : String)
  /-- `ALTER COLUMN … SET DEFAULT` -/
  | setDefault (name : String)
deriving DecidableEq

namespace Table

variable (t : Table)

/-- Add a column of a new name. -/
def addColumn (c : Column) (h : c.name ∉ t.columnNames) : Table where
  columns := t.columns ++ [c]
  keys := t.keys
  hasRows := t.hasRows
  columns_nodup := by
    rw [List.map_append, List.map_singleton]
    exact List.nodup_append.2 ⟨t.columns_nodup, List.nodup_singleton _, fun a ha b hb hab =>
      h (List.mem_singleton.1 hb ▸ hab ▸ ha)⟩
  keys_nodup := t.keys_nodup
  key_columns k hk := ⟨(t.key_columns k hk).1, fun c' hc' => by
    rw [List.map_append]
    exact List.mem_append_left _ ((t.key_columns k hk).2 c' hc')⟩
  primary_not_null k hk hp c' hc' hmem := by
    rcases List.mem_append.1 hc' with hc' | hc'
    · exact t.primary_not_null k hk hp c' hc' hmem
    · rw [List.mem_singleton.1 hc'] at hmem
      exact absurd ((t.key_columns k hk).2 _ hmem) h

/-- Drop a column of no key. -/
def dropColumn (name : String) (h : ∀ k ∈ t.keys, name ∉ k.columns) : Table where
  columns := t.columns.filter fun c => c.name != name
  keys := t.keys
  hasRows := t.hasRows
  columns_nodup := t.columns_nodup.sublist (List.filter_sublist.map _)
  keys_nodup := t.keys_nodup
  key_columns k hk := ⟨(t.key_columns k hk).1, fun c' hc' => by
    obtain ⟨c, hc, rfl⟩ := List.mem_map.1 ((t.key_columns k hk).2 c' hc')
    have hne : c.name ≠ name := fun hn => h k hk (hn ▸ hc')
    exact List.mem_map_of_mem (List.mem_filter.2 ⟨hc, by simpa using hne⟩)⟩
  primary_not_null k hk hp c hc := t.primary_not_null k hk hp c (List.mem_of_mem_filter hc)

/-- Add a unique key of a new name over columns of the table. -/
def addUniqueKey (k : Key) (h : k.name ∉ t.keys.map Key.name ∧ k.name ≠ primary ∧
    k.columns ≠ [] ∧ ∀ c ∈ k.columns, c ∈ t.columnNames) : Table where
  columns := t.columns
  keys := t.keys ++ [k]
  hasRows := t.hasRows
  columns_nodup := t.columns_nodup
  keys_nodup := by
    rw [List.map_append, List.map_singleton]
    exact List.nodup_append.2 ⟨t.keys_nodup, List.nodup_singleton _, fun a ha b hb hab =>
      h.1 (List.mem_singleton.1 hb ▸ hab ▸ ha)⟩
  key_columns k' hk' := by
    rcases List.mem_append.1 hk' with hk' | hk'
    · exact t.key_columns k' hk'
    · rw [List.mem_singleton.1 hk']
      exact h.2.2
  primary_not_null k' hk' hp := by
    rcases List.mem_append.1 hk' with hk' | hk'
    · exact t.primary_not_null k' hk' hp
    · rw [List.mem_singleton.1 hk'] at hp
      exact absurd hp h.2.1

/-- Drop a unique key. -/
def dropIndex (name : String) : Table where
  columns := t.columns
  keys := t.keys.filter fun k => k.name != name
  hasRows := t.hasRows
  columns_nodup := t.columns_nodup
  keys_nodup := t.keys_nodup.sublist (List.filter_sublist.map _)
  key_columns k hk := t.key_columns k (List.mem_of_mem_filter hk)
  primary_not_null k hk := t.primary_not_null k (List.mem_of_mem_filter hk)

/-- Give a column a default. -/
def setDefault (name : String) : Table where
  columns := t.columns.map (Column.withDefault name)
  keys := t.keys
  hasRows := t.hasRows
  columns_nodup := by
    rw [List.map_map]
    exact t.columns_nodup
  keys_nodup := t.keys_nodup
  key_columns := by
    rw [List.map_map]
    exact t.key_columns
  primary_not_null k hk hp c hc := by
    obtain ⟨c₀, hc₀, rfl⟩ := List.mem_map.1 hc
    exact t.primary_not_null k hk hp c₀ hc₀

end Table

/-- What a statement makes of a table; `none` where it does not apply. -/
def Ddl.apply (t : Table) : Ddl → Option Table
  | .addColumn c => if h : c.name ∉ t.columnNames then some (t.addColumn c h) else none
  | .dropColumn name =>
    if h : name ∈ t.columnNames ∧ ∀ k ∈ t.keys, name ∉ k.columns then
      some (t.dropColumn name h.2)
    else none
  | .addUniqueKey k =>
    if h : k.name ∉ t.keys.map Key.name ∧ k.name ≠ primary ∧ k.columns ≠ [] ∧
        ∀ c ∈ k.columns, c ∈ t.columnNames then
      some (t.addUniqueKey k h)
    else none
  | .dropIndex name => if name ∈ t.keys.map Key.name then some (t.dropIndex name) else none
  | .setDefault name => if name ∈ t.columnNames then some (t.setDefault name) else none

/-! ### What the statements keep -/

section

variable {t t' : Table} {d : Ddl}

lemma apply_addColumn {c : Column} :
    (Ddl.addColumn c).apply t = some t' ↔ ∃ h, t.addColumn c h = t' := by
  simp [Ddl.apply]

lemma apply_dropColumn {name : String} : (Ddl.dropColumn name).apply t = some t' ↔
    name ∈ t.columnNames ∧ ∃ h, t.dropColumn name h = t' := by
  simp only [Ddl.apply, Option.dite_none_right_eq_some, Option.some.injEq]
  constructor
  · rintro ⟨⟨hname, h⟩, ht⟩
    exact ⟨hname, h, ht⟩
  · rintro ⟨hname, h, ht⟩
    exact ⟨⟨hname, h⟩, ht⟩

lemma apply_addUniqueKey {k : Key} :
    (Ddl.addUniqueKey k).apply t = some t' ↔ ∃ h, t.addUniqueKey k h = t' := by
  simp [Ddl.apply]

lemma apply_dropIndex {name : String} : (Ddl.dropIndex name).apply t = some t' ↔
    name ∈ t.keys.map Key.name ∧ t.dropIndex name = t' := by
  simp [Ddl.apply]

lemma apply_setDefault {name : String} : (Ddl.setDefault name).apply t = some t' ↔
    name ∈ t.columnNames ∧ t.setDefault name = t' := by
  simp [Ddl.apply]

lemma compliant_addColumn {c : Column} (h : c.name ∉ t.columnNames) (ht : t.Compliant) :
    (t.addColumn c h).Compliant := by
  obtain ⟨k, hk, hnull⟩ := ht
  refine ⟨k, hk, hnull.imp_right fun hnull c' hc' hmem => ?_⟩
  rcases List.mem_append.1 hc' with hc' | hc'
  · exact hnull c' hc' hmem
  · -- a new column is in no key
    rw [List.mem_singleton.1 hc'] at hmem
    exact absurd ((t.key_columns k hk).2 _ hmem) h

lemma compliant_dropColumn {name : String} (h : ∀ k ∈ t.keys, name ∉ k.columns)
    (ht : t.Compliant) : (t.dropColumn name h).Compliant := by
  obtain ⟨k, hk, hnull⟩ := ht
  exact ⟨k, hk, hnull.imp_right fun hnull c hc => hnull c (List.mem_of_mem_filter hc)⟩

lemma compliant_setDefault {name : String} (ht : t.Compliant) : (t.setDefault name).Compliant := by
  obtain ⟨k, hk, hnull⟩ := ht
  refine ⟨k, hk, hnull.imp_right fun hnull c hc => ?_⟩
  obtain ⟨c₀, hc₀, rfl⟩ := List.mem_map.1 hc
  exact hnull c₀ hc₀

lemma compliant_dropIndex {name : String} {k : Key} (hk : k ∈ t.notNullKeys) (hne : k.name ≠ name) :
    (t.dropIndex name).Compliant := by
  obtain ⟨hk, hnull⟩ := Table.mem_notNullKeys.1 hk
  exact ⟨k, List.mem_filter.2 ⟨hk, by simpa using hne⟩, .inr hnull⟩

/-- A statement keeps a table compliant, unless it drops the only key that makes it so. -/
lemma Ddl.compliant_of_apply (h : d.apply t = some t')
    (hdrop : ∀ name, d = .dropIndex name → ∃ k ∈ t.notNullKeys, k.name ≠ name)
    (ht : t.Compliant) : t'.Compliant := by
  cases d with
  | addColumn c =>
    obtain ⟨hnew, rfl⟩ := apply_addColumn.1 h
    exact compliant_addColumn hnew ht
  | dropColumn name =>
    obtain ⟨-, hname, rfl⟩ := apply_dropColumn.1 h
    exact compliant_dropColumn hname ht
  | addUniqueKey k =>
    obtain ⟨hk, rfl⟩ := apply_addUniqueKey.1 h
    obtain ⟨k', hk', hnull⟩ := ht
    exact ⟨k', List.mem_append_left _ hk', hnull⟩
  | dropIndex name =>
    obtain ⟨-, rfl⟩ := apply_dropIndex.1 h
    obtain ⟨k, hk, hne⟩ := hdrop name rfl
    exact compliant_dropIndex hk hne
  | setDefault name =>
    obtain ⟨-, rfl⟩ := apply_setDefault.1 h
    exact compliant_setDefault ht

/-- The statement is about the column or the key. -/
def Ddl.About (column key : String) : Ddl → Prop
  | .addColumn c => c.name = column
  | .dropColumn name => name = column
  | .addUniqueKey k => k.name = key
  | .dropIndex name => name = key
  | .setDefault name => name = column

/-- The table without the column and the key. -/
def Table.others (column key : String) (t : Table) : List Column × List Key × Bool :=
  (t.columns.filter fun c => c.name != column, t.keys.filter fun k => k.name != key, t.hasRows)

lemma notMem_names_filter {α : Type} (f : α → String) (name : String) (l : List α) :
    name ∉ (l.filter fun a => f a != name).map f := by
  intro h
  obtain ⟨a, ha, hname⟩ := List.mem_map.1 h
  have hne := (List.mem_filter.1 ha).2
  rw [hname] at hne
  simp at hne

lemma filter_withDefault (name : String) (l : List Column) :
    (l.map (Column.withDefault name)).filter (fun c => c.name != name) =
      l.filter fun c => c.name != name := by
  induction l with
  | nil => rfl
  | cons c l ih =>
    rw [List.map_cons, List.filter_cons, List.filter_cons, ih, Column.withDefault_name]
    split
    · next hne =>
      have hbeq : (c.name == name) = false := by simpa [bne] using hne
      rw [Column.withDefault, hbeq, Bool.or_false]
    · rfl

/-- A statement about a column or a key leaves the others alone. -/
lemma Ddl.others_of_apply {column key : String} (h : d.apply t = some t')
    (hd : d.About column key) : t'.others column key = t.others column key := by
  cases d with
  | addColumn c =>
    obtain ⟨hnew, rfl⟩ := apply_addColumn.1 h
    obtain rfl : c.name = column := hd
    simp [Table.others, Table.addColumn]
  | dropColumn name =>
    obtain ⟨-, hname, rfl⟩ := apply_dropColumn.1 h
    obtain rfl : name = column := hd
    simp [Table.others, Table.dropColumn]
  | addUniqueKey k =>
    obtain ⟨hk, rfl⟩ := apply_addUniqueKey.1 h
    obtain rfl : k.name = key := hd
    simp [Table.others, Table.addUniqueKey]
  | dropIndex name =>
    obtain ⟨-, rfl⟩ := apply_dropIndex.1 h
    obtain rfl : name = key := hd
    simp [Table.others, Table.dropIndex]
  | setDefault name =>
    obtain ⟨-, rfl⟩ := apply_setDefault.1 h
    obtain rfl : name = column := hd
    simp only [Table.others, Table.setDefault, filter_withDefault]

end

end Schema
