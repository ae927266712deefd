/-
The canonical text of a JSON value.

`canonical` prints a value with the members of every object in the order of their keys.
Two well-formed values have the same canonical text exactly when they are the same up to
that order: sorting forgets nothing but the order, and the sorted value is read back from
its text.
-/
import MediawikiCharm.Lib.JsonRoundtrip
import Mathlib.Data.List.Sort

namespace Json

variable {F : Type}

/-! ### Values up to the order of keys -/

mutual

/-- The values are the same up to the order of the members of their objects.  Numbers are
the same when they are of one type and have one value, so `1` is not `1.0`. -/
def SameUpToOrder : Json F → Json F → Prop
  | .arr xs, .arr ys => SameItems xs ys
  | .obj ms, .obj ms' => ms.length = ms'.length ∧ SameMembers ms ms'
  | v, w => v = w

def SameItems : List (Json F) → List (Json F) → Prop
  | [], [] => True
  | x :: xs, y :: ys => SameUpToOrder x y ∧ SameItems xs ys
  | _, _ => False

/-- Every member of the first object has a member of the second with its key. -/
def SameMembers : List (PyStr × Json F) → List (PyStr × Json F) → Prop
  | [], _ => True
  | (k, x) :: ms, ms' => (∃ y, (k, y) ∈ ms' ∧ SameUpToOrder x y) ∧ SameMembers ms ms'

end

/-! ### Objects with distinct keys -/

lemma wellFormedMembers_iff {ms : List (PyStr × Json F)} :
    wellFormedMembers ms = true ↔
      (ms.map Prod.fst).Nodup ∧ ∀ m ∈ ms, noPair m.1 = true ∧ wellFormed m.2 = true := by
  induction ms with
  | nil => simp [wellFormedMembers]
  | cons m ms ih =>
    obtain ⟨k, x⟩ := m
    have hnew : ms.lookup k = none ↔ k ∉ ms.map Prod.fst := by
      rw [List.lookup_eq_none_iff, List.mem_map]
      constructor
      · rintro h ⟨m, hm, rfl⟩
        simpa using h m hm
      · intro h m hm
        have hne : k ≠ m.1 := fun hk => h ⟨m, hm, hk.symm⟩
        simpa using hne
    rw [wellFormedMembers_cons, ih, hnew, List.map_cons, List.nodup_cons, List.forall_mem_cons]
    constructor
    · rintro ⟨⟨⟨hk, hn⟩, hx⟩, hnd, hall⟩
      exact ⟨⟨hn, hnd⟩, ⟨hk, hx⟩, hall⟩
    · rintro ⟨⟨hn, hnd⟩, ⟨hk, hx⟩, hall⟩
      exact ⟨⟨⟨hk, hn⟩, hx⟩, hnd, hall⟩

lemma eq_of_nodup_keys {ms : List (PyStr × Json F)} (h : (ms.map Prod.fst).Nodup)
    {m m' : PyStr × Json F} (hm : m ∈ ms) (hm' : m' ∈ ms) (hk : m.1 = m'.1) : m = m' :=
  List.inj_on_of_nodup_map h hm hm' hk

/-! ### Sorting -/

/-- The order in which `sort_keys` puts two members. -/
def keyLe (m m' : PyStr × Json F) : Bool := decide (m.1 ≤ m'.1)

lemma pairwise_sort (ms : List (PyStr × Json F)) :
    (ms.mergeSort keyLe).Pairwise fun m m' => keyLe m m' = true := by
  refine List.pairwise_mergeSort ?_ ?_ ms
  · intro m m' m'' h h'
    simp only [keyLe, decide_eq_true_eq] at h h' ⊢
    exact Std.le_trans h h'
  · intro m m'
    simp only [keyLe, Bool.or_eq_true, decide_eq_true_eq]
    exact Std.le_total

/-- Objects with distinct keys are sorted alike exactly when they have the same members. -/
lemma sort_eq_sort_iff {ms ms' : List (PyStr × Json F)} (h : (ms'.map Prod.fst).Nodup) :
    ms.mergeSort keyLe = ms'.mergeSort keyLe ↔ ms.Perm ms' := by
  constructor
  · intro heq
    have hperm := List.mergeSort_perm ms keyLe
    rw [heq] at hperm
    exact hperm.symm.trans (List.mergeSort_perm ms' keyLe)
  · intro hperm
    have hsorted := (List.mergeSort_perm ms keyLe).trans
      (hperm.trans (List.mergeSort_perm ms' keyLe).symm)
    refine List.Perm.eq_of_pairwise ?_ (pairwise_sort ms) (pairwise_sort ms') hsorted
    intro m m' hm hm' hle hle'
    simp only [keyLe, decide_eq_true_eq] at hle hle'
    have hmem : m ∈ ms' := hperm.mem_iff.1 (List.mem_mergeSort.1 hm)
    exact eq_of_nodup_keys h hmem (List.mem_mergeSort.1 hm') (Std.le_antisymm hle hle')

lemma sortKeysMembers_eq_map (ms : List (PyStr × Json F)) :
    sortKeysMembers ms = ms.map fun m => (m.1, sortKeys m.2) := by
  induction ms with
  | nil => rfl
  | cons m ms ih => rw [sortKeysMembers, ih, List.map_cons]

lemma keys_sortKeysMembers (ms : List (PyStr × Json F)) :
    (sortKeysMembers ms).map Prod.fst = ms.map Prod.fst := by
  rw [sortKeysMembers_eq_map, List.map_map]
  rfl

lemma mem_sortKeysMembers {ms : List (PyStr × Json F)} {m : PyStr × Json F} :
    m ∈ sortKeysMembers ms ↔ ∃ x, (m.1, x) ∈ ms ∧ m.2 = sortKeys x := by
  rw [sortKeysMembers_eq_map, List.mem_map]
  constructor
  · rintro ⟨⟨k, x⟩, hx, rfl⟩
    exact ⟨x, hx, rfl⟩
  · rintro ⟨x, hx, h⟩
    exact ⟨(m.1, x), hx, Prod.ext rfl h.symm⟩

lemma sortKeys_obj (ms : List (PyStr × Json F)) :
    sortKeys (.obj ms) = .obj ((sortKeysMembers ms).mergeSort keyLe) := by
  rw [sortKeys]
  rfl

/-- What well-formedness of an object says of its sorted form. -/
lemma wellFormed_sortKeys_obj {ms : List (PyStr × Json F)} (h : wellFormedMembers ms = true)
    (hval : ∀ m ∈ ms, wellFormed (sortKeys m.2) = true) :
    wellFormed (sortKeys (.obj ms)) = true := by
  obtain ⟨hnd, hall⟩ := wellFormedMembers_iff.1 h
  have hperm := List.mergeSort_perm (sortKeysMembers ms) keyLe
  rw [sortKeys_obj, wellFormed, wellFormedMembers_iff]
  constructor
  · rw [(hperm.map Prod.fst).nodup_iff, keys_sortKeysMembers]
    exact hnd
  · intro m hm
    obtain ⟨x, hx, hmx⟩ := mem_sortKeysMembers.1 (hperm.mem_iff.1 hm)
    rw [hmx]
    exact ⟨(hall _ hx).1, hval _ hx⟩

mutual

/-- A sorted value is well formed when the value was. -/
lemma wellFormed_sortKeys (v : Json F) (hv : wellFormed v = true) :
    wellFormed (sortKeys v) = true := by
  match v, hv with
  | .null, _ | .bool _, _ | .int _, _ | .float _, _ => rfl
  | .str t, hv => exact hv
  | .arr xs, hv => exact wellFormedItems_sortKeys xs hv
  | .obj ms, hv => exact wellFormed_sortKeys_obj hv (wellFormed_sortKeys_of_mem ms hv)

lemma wellFormedItems_sortKeys (xs : List (Json F)) (hxs : wellFormedItems xs = true) :
    wellFormedItems (sortKeysItems xs) = true := by
  match xs, hxs with
  | [], _ => rfl
  | x :: xs, hxs =>
    obtain ⟨hx, hxs⟩ := Bool.and_eq_true_iff.1 hxs
    exact Bool.and_eq_true_iff.2 ⟨wellFormed_sortKeys x hx, wellFormedItems_sortKeys xs hxs⟩

lemma wellFormed_sortKeys_of_mem (ms : List (PyStr × Json F)) (hms : wellFormedMembers ms = true) :
    ∀ m ∈ ms, wellFormed (sortKeys m.2) = true := by
  match ms, hms with
  | [], _ => exact nofun
  | (k, x) :: ms, hms =>
    obtain ⟨⟨-, hx⟩, hms⟩ := wellFormedMembers_cons.1 hms
    exact List.forall_mem_cons.2 ⟨wellFormed_sortKeys x hx, wellFormed_sortKeys_of_mem ms hms⟩

end

/-! ### Sorting forgets the order only -/

/-- Two objects are sorted alike exactly when they have equally many members and each member
of the first has one of the second that is sorted alike. -/
lemma sortKeys_obj_eq_iff {ms ms' : List (PyStr × Json F)} (h : wellFormedMembers ms = true)
    (h' : wellFormedMembers ms' = true) :
    sortKeys (.obj ms) = sortKeys (.obj ms') ↔ ms.length = ms'.length ∧
      ∀ m ∈ ms, ∃ y, (m.1, y) ∈ ms' ∧ sortKeys m.2 = sortKeys y := by
  have hnd : ((sortKeysMembers ms).map Prod.fst).Nodup := by
    rw [keys_sortKeysMembers]
    exact (wellFormedMembers_iff.1 h).1
  have hnd' : ((sortKeysMembers ms').map Prod.fst).Nodup := by
    rw [keys_sortKeysMembers]
    exact (wellFormedMembers_iff.1 h').1
  have hlen (l : List (PyStr × Json F)) : (sortKeysMembers l).length = l.length := by
    rw [sortKeysMembers_eq_map, List.length_map]
  -- sorted lists with distinct keys are equal if they are permutations
  rw [sortKeys_obj, sortKeys_obj, Json.obj.injEq, sort_eq_sort_iff hnd']
  constructor
  · intro hperm
    refine ⟨by rw [← hlen ms, ← hlen ms', hperm.length_eq], fun m hm => ?_⟩
    have hmem : (m.1, sortKeys m.2) ∈ sortKeysMembers ms' :=
      hperm.mem_iff.1 (mem_sortKeysMembers.2 ⟨m.2, hm, rfl⟩)
    exact mem_sortKeysMembers.1 hmem
  · rintro ⟨hl, hsub⟩
    have hsubset : sortKeysMembers ms ⊆ sortKeysMembers ms' := by
      intro m hm
      obtain ⟨x, hx, hmx⟩ := mem_sortKeysMembers.1 hm
      obtain ⟨y, hy, hxy⟩ := hsub _ hx
      exact mem_sortKeysMembers.2 ⟨y, hy, hmx.trans hxy⟩
    refine (List.subperm_of_subset (List.Nodup.of_map _ hnd) hsubset).perm_of_length_le ?_
    rw [hlen, hlen, hl]

mutual

/-- Two values are sorted alike exactly when they are the same up to the order of keys. -/
lemma sortKeys_eq_iff (v w : Json F) (hv : wellFormed v = true) (hw : wellFormed w = true) :
    sortKeys v = sortKeys w ↔ SameUpToOrder v w := by
  match v, w with
  | .arr xs, .arr ys =>
    rw [sortKeys, sortKeys, Json.arr.injEq]
    exact sortKeysItems_eq_iff xs ys hv hw
  | .obj ms, .obj ms' =>
    rw [sortKeys_obj_eq_iff hv hw, SameUpToOrder]
    exact and_congr_right fun _ => sortKeys_members_iff ms ms' hv hw
  | .arr _, .null | .arr _, .bool _ | .arr _, .int _ | .arr _, .float _ | .arr _, .str _
  | .arr _, .obj _ | .obj _, .null | .obj _, .bool _ | .obj _, .int _ | .obj _, .float _
  | .obj _, .str _ | .obj _, .arr _ => simp [sortKeys, SameUpToOrder]
  | .null, w | .bool _, w | .int _, w | .float _, w | .str _, w =>
    cases w <;> simp [sortKeys, SameUpToOrder]

lemma sortKeysItems_eq_iff (xs ys : List (Json F)) (hxs : wellFormedItems xs = true)
    (hys : wellFormedItems ys = true) :
    sortKeysItems xs = sortKeysItems ys ↔ SameItems xs ys := by
  match xs, ys, hxs, hys with
  | [], [], _, _ => simp [SameItems]
  | [], _ :: _, _, _ | _ :: _, [], _, _ => simp [sortKeysItems, SameItems]
  | x :: xs, y :: ys, hxs, hys =>
    obtain ⟨hx, hxs⟩ := Bool.and_eq_true_iff.1 hxs
    obtain ⟨hy, hys⟩ := Bool.and_eq_true_iff.1 hys
    rw [sortKeysItems, sortKeysItems, List.cons.injEq, SameItems, sortKeys_eq_iff x y hx hy,
      sortKeysItems_eq_iff xs ys hxs hys]

lemma sortKeys_members_iff (ms ms' : List (PyStr × Json F)) (hms : wellFormedMembers ms = true)
    (hms' : wellFormedMembers ms' = true) :
    (∀ m ∈ ms, ∃ y, (m.1, y) ∈ ms' ∧ sortKeys m.2 = sortKeys y) ↔ SameMembers ms ms' := by
  match ms, hms with
  | [], _ => simp [SameMembers]
  | (k, x) :: ms, hms =>
    obtain ⟨⟨-, hx⟩, hms⟩ := wellFormedMembers_cons.1 hms
    rw [List.forall_mem_cons, SameMembers, sortKeys_members_iff ms ms' hms hms']
    refine and_congr_left fun _ => exists_congr fun y => and_congr_right fun hy => ?_
    exact sortKeys_eq_iff x y hx ((wellFormedMembers_iff.1 hms').2 _ hy).2

end

/-! ### The canonical text -/

variable [FiniteFloat F]

/-- Well-formed values have one canonical text exactly when they are the same up to the
order of keys. -/
theorem canonical_eq_iff {v w : Json F} (hv : wellFormed v = true) (hw : wellFormed w = true) :
    canonical v = canonical w ↔ SameUpToOrder v w := by
  rw [← sortKeys_eq_iff v w hv hw]
  constructor
  · intro h
    have hi : Separator ',' [','] := separator_singleton (by decide)
    have hk : Separator ':' [':'] := separator_singleton (by decide)
    have hread := loads_dumpsWith hi hk (wellFormed_sortKeys v hv)
    rw [canonical, canonical] at h
    rw [h, loads_dumpsWith hi hk (wellFormed_sortKeys w hw)] at hread
    exact (Option.some.inj hread).symm
  · intro h
    rw [canonical, canonical, h]

/-- A canonical text is printable ASCII. -/
theorem printable_canonical (v : Json F) : Printable (canonical v) :=
  printable_dumpsWith (printable_of_all rfl) (printable_of_all rfl) (sortKeys v)

end Json
