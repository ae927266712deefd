/-
Python's equality of JSON values beside their canonical text.

Python compares numbers by their values, with the booleans among them, while the canonical
text of a number also tells its type and the sign of a zero.  So two values that are equal in
Python have one canonical text exactly when they hold no two numbers in one place that are
equal but printed in two ways.
-/
import MediawikiCharm.Lib.JsonCanonical

namespace Json

variable {F : Type}

/-! ### Places in a value -/

/-- A step from a container to a value that it holds. -/
inductive Place
  | key (k : PyStr)
  | item (i : ℕ)

/-- `v[k]` and `v[i]`, or `none` where these raise. -/
def child : Place → Json F → Option (Json F)
  | .key k, .obj ms => ms.lookup k
  | .item i, .arr xs => xs[i]?
  | _, _ => none

/-- The value at the end of a path. -/
def valueAt : List Place → Json F → Option (Json F)
  | [], v => some v
  | p :: ps, v => (child p v).bind (valueAt ps)

variable [FiniteFloat F]

/-- Two numbers in one place of the values that are equal are one number: of one type, and
with one sign if they are zero. -/
def SpelledAlike (v w : Json F) : Prop :=
  ∀ ps x y, valueAt ps v = some x → valueAt ps w = some y → x.num? ≠ none → x.num? = y.num? → x = y

lemma spelledAlike_self (v : Json F) : SpelledAlike v v := by
  intro ps x y hx hy _ _
  exact Option.some.inj (hx.symm.trans hy)

omit [FiniteFloat F] in
lemma mem_of_lookup_eq_some {k : PyStr} {v : Json F} {ms : List (PyStr × Json F)}
    (h : ms.lookup k = some v) : (k, v) ∈ ms := by
  obtain ⟨l, l', rfl, -⟩ := List.lookup_eq_some_iff.1 h
  exact List.mem_append_right l List.mem_cons_self

/-- What is said of two values is said of the values that they hold in one place. -/
lemma SpelledAlike.child {v w x y : Json F} (h : SpelledAlike v w) {p : Place}
    (hx : Json.child p v = some x) (hy : Json.child p w = some y) : SpelledAlike x y := by
  intro ps x' y' hx' hy'
  refine h (p :: ps) x' y' ?_ ?_
  · rw [valueAt, hx, Option.bind_some, hx']
  · rw [valueAt, hy, Option.bind_some, hy']

/-- Two values that are no numbers are spelled alike if the values that they hold are. -/
lemma spelledAlike_of_child {v w : Json F} (hv : v.num? = none)
    (h : ∀ p x y, Json.child p v = some x → Json.child p w = some y → SpelledAlike x y) :
    SpelledAlike v w := by
  intro ps x y hx hy hnum
  cases ps with
  | nil =>
    cases hx
    exact absurd hv hnum
  | cons p ps =>
    obtain ⟨x', hx', hx⟩ := Option.bind_eq_some_iff.1 hx
    obtain ⟨y', hy', hy⟩ := Option.bind_eq_some_iff.1 hy
    exact h p x' y' hx' hy' ps x y hx hy hnum

/-- Arrays are spelled alike when their items are. -/
lemma spelledAlike_arr {xs ys : List (Json F)} : SpelledAlike (.arr xs) (.arr ys) ↔
    ∀ (i : ℕ) x y, xs[i]? = some x → ys[i]? = some y → SpelledAlike x y := by
  constructor
  · intro h i x y hx hy
    exact h.child (p := .item i) hx hy
  · intro h
    refine spelledAlike_of_child rfl fun p x y hx hy => ?_
    cases p with
    | key k => cases hx
    | item i => exact h i x y hx hy

/-- Objects are spelled alike when the values of their common keys are. -/
lemma spelledAlike_obj {ms ms' : List (PyStr × Json F)} (hms : wellFormedMembers ms = true) :
    SpelledAlike (.obj ms) (.obj ms') ↔
      ∀ m ∈ ms, ∀ y, ms'.lookup m.1 = some y → SpelledAlike m.2 y := by
  constructor
  · intro h m hm y hy
    exact h.child (p := .key m.1) (lookup_of_mem hms hm) hy
  · intro h
    refine spelledAlike_of_child rfl fun p x y hx hy => ?_
    cases p with
    | key k => exact h (k, x) (mem_of_lookup_eq_some hx) y hy
    | item i => cases hx

/-! ### Equality and the canonical text -/

/-- A number is equal to what has its value. -/
lemma sameUpToOrder_number {v w : Json F} (hv : v.num? ≠ none)
    (hsame : SameUpToOrder v w ↔ v = w)
    (heq : pyEq v w = (v.num?.isSome && decide (v.num? = w.num?))) :
    SameUpToOrder v w ↔ pyEq v w = true ∧ SpelledAlike v w := by
  rw [hsame, heq, Option.isSome_iff_ne_none.2 hv, Bool.true_and, decide_eq_true_iff]
  constructor
  · rintro rfl
    exact ⟨rfl, spelledAlike_self v⟩
  · rintro ⟨hnum, h⟩
    exact h [] v w rfl rfl hv hnum

mutual

/-- Values are the same up to the order of keys exactly when they are equal in Python and
hold no two equal numbers in one place that are printed in two ways. -/
theorem sameUpToOrder_iff (v w : Json F) (hv : wellFormed v = true) (hw : wellFormed w = true) :
    SameUpToOrder v w ↔ pyEq v w = true ∧ SpelledAlike v w := by
  match v, w with
  | .arr xs, .arr ys =>
    rw [SameUpToOrder, pyEq, spelledAlike_arr]
    exact sameItems_iff xs ys hv hw
  | .obj ms, .obj ms' =>
    rw [SameUpToOrder, pyEq, Bool.and_eq_true, decide_eq_true_eq, and_assoc, spelledAlike_obj hv]
    exact and_congr_right fun _ => sameMembers_iff ms ms' hv hw
  | .arr _, .null | .arr _, .bool _ | .arr _, .int _ | .arr _, .float _ | .arr _, .str _
  | .arr _, .obj _ | .obj _, .null | .obj _, .bool _ | .obj _, .int _ | .obj _, .float _
  | .obj _, .str _ | .obj _, .arr _ => simp [SameUpToOrder, pyEq, num?]
  | .null, w =>
    cases w <;> simp [SameUpToOrder, pyEq, num?, spelledAlike_self]
  | .str s, w =>
    cases w with
    | str t =>
      rw [SameUpToOrder, pyEq, decide_eq_true_eq, Json.str.injEq]
      constructor
      · rintro rfl
        exact ⟨rfl, spelledAlike_self _⟩
      · rintro ⟨rfl, -⟩
        rfl
      all_goals nofun
    | _ => simp [SameUpToOrder, pyEq, num?]
  | .bool b, w | .int n, w | .float (.finite x), w | .float .nan, w | .float (.inf b), w =>
    refine sameUpToOrder_number (by simp [num?]) ?_ ?_ <;> cases w <;> simp [SameUpToOrder, pyEq]

lemma sameItems_iff (xs ys : List (Json F)) (hxs : wellFormedItems xs = true)
    (hys : wellFormedItems ys = true) : SameItems xs ys ↔ pyEqItems xs ys = true ∧
      ∀ (i : ℕ) x y, xs[i]? = some x → ys[i]? = some y → SpelledAlike x y := by
  match xs, ys, hxs, hys with
  | [], [], _, _ => simp [SameItems, pyEqItems]
  | [], _ :: _, _, _ | _ :: _, [], _, _ => simp [SameItems, pyEqItems]
  | x :: xs, y :: ys, hxs, hys =>
    obtain ⟨hx, hxs⟩ := Bool.and_eq_true_iff.1 hxs
    obtain ⟨hy, hys⟩ := Bool.and_eq_true_iff.1 hys
    rw [SameItems, pyEqItems, Bool.and_eq_true, sameUpToOrder_iff x y hx hy,
      sameItems_iff xs ys hxs hys]
    constructor
    · rintro ⟨⟨heq, h⟩, heqs, hs⟩
      refine ⟨⟨heq, heqs⟩, fun i x' y' hx' hy' => ?_⟩
      cases i with
      | zero =>
        cases hx'
        cases hy'
        exact h
      | succ i => exact hs i x' y' hx' hy'
    · rintro ⟨⟨heq, heqs⟩, h⟩
      exact ⟨⟨heq, h 0 x y rfl rfl⟩, heqs, fun i => h (i + 1)⟩

lemma sameMembers_iff (ms ms' : List (PyStr × Json F)) (hms : wellFormedMembers ms = true)
    (hms' : wellFormedMembers ms' = true) : SameMembers ms ms' ↔ pyEqMembers ms ms' = true ∧
      ∀ m ∈ ms, ∀ y, ms'.lookup m.1 = some y → SpelledAlike m.2 y := by
  match ms, hms with
  | [], _ => simp [SameMembers, pyEqMembers]
  | (k, x) :: ms, hms =>
    obtain ⟨⟨-, hx⟩, hms⟩ := wellFormedMembers_cons.1 hms
    have hmem : (∃ y, (k, y) ∈ ms' ∧ SameUpToOrder x y) ↔
        ∃ y, ms'.lookup k = some y ∧ pyEq x y = true ∧ SpelledAlike x y := by
      constructor
      · rintro ⟨y, hy, h⟩
        have hwf := wellFormed_of_mem hms' hy
        exact ⟨y, lookup_of_mem hms' hy, (sameUpToOrder_iff x y hx hwf).1 h⟩
      · rintro ⟨y, hy, h⟩
        have hy := mem_of_lookup_eq_some hy
        exact ⟨y, hy, (sameUpToOrder_iff x y hx (wellFormed_of_mem hms' hy)).2 h⟩
    rw [SameMembers, hmem, sameMembers_iff ms ms' hms hms', pyEqMembers, List.forall_mem_cons]
    cases ms'.lookup k with
    | none => simp
    | some y => simp only [Option.some.injEq, exists_eq_left', forall_eq', Bool.and_eq_true]; tauto

end

/-- The canonical texts are equal exactly when the values are equal in Python and spelled
alike. -/
theorem canonical_eq_iff_pyEq {v w : Json F} (hv : wellFormed v = true)
    (hw : wellFormed w = true) :
    canonical v = canonical w ↔ pyEq v w = true ∧ SpelledAlike v w := by
  rw [canonical_eq_iff hv hw, sameUpToOrder_iff v w hv hw]

end Json
