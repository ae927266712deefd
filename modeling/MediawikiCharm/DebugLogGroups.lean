/-
The option `mediawiki-debug-log-groups` (`state.py`).

The value is one record of comma-separated names.  Names that are blank are left out, and a name
that is given twice counts once.
-/
import MediawikiCharm.Lib.PyCsv
import MediawikiCharm.Lib.Split

namespace MediawikiCharm
namespace DebugLogGroups

open PyText PyCsv

/-- A key that is new stands behind the others. -/
def addKey (keys : List PyStr) (key : PyStr) : List PyStr :=
  if key ∈ keys then keys else keys ++ [key]

/-- `dict.fromkeys(group.strip() for group in record if group.strip())` -/
def groupsOf (record : List PyStr) : List PyStr :=
  ((record.filter fun group => strip group ≠ []).map strip).foldl addKey []

/-- `validate_mediawiki_debug_log_groups` -/
def validateMediawikiDebugLogGroups (value : PyStr) : Except String (List PyStr) :=
  if strip value = [] then .ok []
  else
    match reader value with
    | .ok [record] => .ok (groupsOf record)
    | .ok _ | .error _ => .error "mediawiki-debug-log-groups must be a single CSV record"

/-! ### The groups of a record -/

variable {record groups : List PyStr}

/-- A name as it is stored. -/
structure IsGroup (group : PyStr) : Prop where
  stripped : strip group = group
  ne_nil : group ≠ []
  length_le : group.length ≤ fieldLimit

/-- Names as they are stored. -/
structure AreGroups (groups : List PyStr) : Prop where
  nodup : groups.Nodup
  isGroup : ∀ group ∈ groups, IsGroup group

lemma areGroups_addKey {key : PyStr} (h : AreGroups groups) (hkey : IsGroup key) :
    AreGroups (addKey groups key) := by
  unfold addKey
  split_ifs with hmem
  · exact h
  · refine ⟨List.nodup_append.2 ⟨h.nodup, List.pairwise_singleton _ _, ?_⟩, ?_⟩
    · rintro a ha b hb rfl
      exact hmem (List.mem_singleton.1 hb ▸ ha)
    · exact List.forall_mem_append.2 ⟨h.isGroup, List.forall_mem_singleton.2 hkey⟩

lemma areGroups_foldl {keys : List PyStr} (h : AreGroups groups)
    (hkeys : ∀ key ∈ keys, IsGroup key) : AreGroups (keys.foldl addKey groups) := by
  induction keys generalizing groups with
  | nil => exact h
  | cons key keys ih =>
    obtain ⟨hkey, hkeys⟩ := List.forall_mem_cons.1 hkeys
    exact ih (areGroups_addKey h hkey) hkeys

lemma areGroups_groupsOf (h : ∀ group ∈ record, group.length ≤ fieldLimit) :
    AreGroups (groupsOf record) := by
  refine areGroups_foldl ⟨List.nodup_nil, fun _ h => absurd h List.not_mem_nil⟩ ?_
  intro key hkey
  obtain ⟨group, hgroup, rfl⟩ := List.mem_map.1 hkey
  obtain ⟨hmem, hne⟩ := List.mem_filter.1 hgroup
  have hinside : strip group <:+: group :=
    (List.rdropWhile_prefix _ _).isInfix.trans (List.dropWhile_suffix _).isInfix
  exact ⟨strip_strip group, of_decide_eq_true hne, hinside.length_le.trans (h group hmem)⟩

/-- Names that are all different stay as they are. -/
lemma foldl_addKey {keys : List PyStr} (h : (groups ++ keys).Nodup) :
    keys.foldl addKey groups = groups ++ keys := by
  induction keys generalizing groups with
  | nil => rw [List.append_nil]; rfl
  | cons key keys ih =>
    have hnew : key ∉ groups := fun hmem =>
      (List.nodup_append.1 h).2.2 key hmem key List.mem_cons_self rfl
    rw [List.append_cons] at h ⊢
    rw [List.foldl_cons, addKey, if_neg hnew, ih h]

lemma groupsOf_self (h : AreGroups groups) : groupsOf groups = groups := by
  have hfilter : (groups.filter fun group => strip group ≠ []) = groups := by
    refine List.filter_eq_self.2 fun group hgroup => decide_eq_true ?_
    rw [(h.isGroup group hgroup).stripped]
    exact (h.isGroup group hgroup).ne_nil
  have hmap : groups.map strip = groups :=
    (List.map_congr_left fun group hgroup => (h.isGroup group hgroup).stripped).trans
      (List.map_id _)
  rw [groupsOf, hfilter, hmap]
  exact foldl_addKey h.nodup

/-- Spaces in front of a name do not matter. -/
lemma groupsOf_skipSpaces (record : List PyStr) :
    groupsOf (record.map Reader.skipSpaces) = groupsOf record := by
  have hstrip : ∀ group, strip (Reader.skipSpaces group) = strip group := by
    intro group
    have hdrop : (Reader.skipSpaces group).dropWhile isSpace = group.dropWhile isSpace := by
      induction group with
      | nil => rfl
      | cons c group ih =>
        by_cases hspace : c = ofChar ' '
        · subst hspace
          exact ih
        · rw [Reader.skipSpaces, List.dropWhile_cons_of_neg (by simpa using hspace)]
    rw [strip, hdrop, strip]
  rw [groupsOf, groupsOf, List.filter_map, List.map_map]
  simp only [Function.comp_def, hstrip]

/-! ### The values -/

lemma validate_of_reader {value : PyStr} (h : reader value = .ok [record])
    (hblank : strip value ≠ []) :
    validateMediawikiDebugLogGroups value = .ok (groupsOf record) := by
  rw [validateMediawikiDebugLogGroups, if_neg hblank, h]

/-- What is accepted is the groups of the only record, or nothing. -/
lemma areGroups_of_validate {value : PyStr}
    (h : validateMediawikiDebugLogGroups value = .ok groups) : AreGroups groups := by
  rw [validateMediawikiDebugLogGroups] at h
  split_ifs at h with hblank
  · obtain rfl := Except.ok.inj h
    exact ⟨List.nodup_nil, fun _ h => absurd h List.not_mem_nil⟩
  · split at h
    · rename_i record hrecord
      obtain rfl := Except.ok.inj h
      exact areGroups_groupsOf (length_le_of_reader hrecord record (List.mem_singleton_self _))
    · cases h
    · cases h

/-- Names in quotes are accepted as they are. -/
lemma validate_quoteFields (h : AreGroups groups) :
    validateMediawikiDebugLogGroups ([ofChar ','].intercalate (groups.map quoteField)) =
      .ok groups := by
  cases groups with
  | nil => rfl
  | cons group more =>
    have hread := reader_quoteFields (List.cons_ne_nil group more) fun g hg =>
      (h.isGroup g hg).length_le
    have hquote : ofChar '"' ∈ [ofChar ','].intercalate ((group :: more).map quoteField) := by
      cases more with
      | nil => exact List.mem_cons_self
      | cons next more => exact List.mem_cons_self
    have hblank : strip ([ofChar ','].intercalate ((group :: more).map quoteField)) ≠ [] :=
      fun h => absurd (strip_eq_nil_iff.1 h _ hquote) (by decide)
    rw [validate_of_reader hread hblank, groupsOf_self h]

/-- No name is longer than the reader allows.  Spaces in front of a name do not count. -/
def Fits (value : PyStr) : Prop :=
  ∀ name ∈ value.splitOn (ofChar ','), (Reader.skipSpaces name).length ≤ fieldLimit

/-- Without quotes and newlines, the names are what stands between the commas. -/
lemma validate_plain {value : PyStr} (h : Reader.IsPlain value) :
    validateMediawikiDebugLogGroups value = .ok groups ↔
      (strip value = [] ∨ Fits value) ∧ groups = groupsOf (value.splitOn (ofChar ',')) := by
  by_cases hblank : strip value = []
  · have hpieces : (value.splitOn (ofChar ',')).filter (fun group => strip group ≠ []) = [] := by
      refine List.filter_eq_nil_iff.2 fun group hgroup hne => of_decide_eq_true hne ?_
      exact strip_eq_nil_iff.2 fun c hc =>
        strip_eq_nil_iff.1 hblank c (Split.mem_of_mem_splitOn hgroup hc)
    have hnone : groupsOf (value.splitOn (ofChar ',')) = [] := by
      rw [groupsOf, hpieces]
      rfl
    rw [validateMediawikiDebugLogGroups, if_pos hblank, hnone, and_iff_right (.inl hblank),
      Except.ok.injEq, eq_comm]
  · have hne : value ≠ [] := by
      rintro rfl
      exact hblank rfl
    have hread := reader_plain h hne
    have hmap : Fits value ↔ ∀ name ∈ (value.splitOn (ofChar ',')).map Reader.skipSpaces,
        name.length ≤ fieldLimit := by
      rw [List.forall_mem_map]
      rfl
    rw [or_iff_right hblank, hmap]
    unfold Reader.recordOf at hread
    split_ifs at hread with hfits
    · rw [validate_of_reader hread hblank, groupsOf_skipSpaces, and_iff_right hfits,
        Except.ok.injEq, eq_comm]
    · rw [validateMediawikiDebugLogGroups, if_neg hblank, hread]
      exact iff_of_false (by simp) fun h => hfits h.1

/-- The values of the option are the lists of different names that are stripped, not blank and
within the limit of the reader: any such list can be given, quoted where it has to be.  Without
quotes and newlines, a value that is not blank is accepted exactly if no name is longer than the
reader allows, and the names are what stands between the commas. -/
theorem validate_iff :
    (∀ groups, (∃ value, validateMediawikiDebugLogGroups value = .ok groups) ↔ AreGroups groups) ∧
    ∀ value groups, Reader.IsPlain value →
      (validateMediawikiDebugLogGroups value = .ok groups ↔
        (strip value = [] ∨ Fits value) ∧ groups = groupsOf (value.splitOn (ofChar ','))) :=
  ⟨fun _ => ⟨fun ⟨_, h⟩ => areGroups_of_validate h, fun h => ⟨_, validate_quoteFields h⟩⟩,
    fun _ _ => validate_plain⟩

end DebugLogGroups
end MediawikiCharm
