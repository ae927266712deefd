/-
Dictionaries of JSON values and their equality.

A well-formed value is equal to itself, and a dictionary in which one key was set is equal
to the one before exactly when the key had an equal value.
-/
import MediawikiCharm.Lib.Json

namespace Json

variable {F : Type}

/-! ### Setting a key -/

lemma insert_of_lookup_eq_none {k : PyStr} {v : Json F} {ms : List (PyStr × Json F)}
    (h : ms.lookup k = none) : insert k v ms = ms ++ [(k, v)] := by
  induction ms with
  | nil => rfl
  | cons m ms ih =>
    obtain ⟨k', v'⟩ := m
    rw [List.lookup_cons] at h
    split at h
    · cases h
    · next hk =>
      have hne : k' ≠ k := by
        rintro rfl
        simp at hk
      rw [insert, if_neg hne, ih h, List.cons_append]

lemma lookup_append_singleton {k k' : PyStr} {v : Json F} {ms : List (PyStr × Json F)}
    (h : ms.lookup k' = none) (hne : k ≠ k') : (ms ++ [(k, v)]).lookup k' = none := by
  induction ms with
  | nil =>
    have hbeq : (k' == k) = false := by simpa using hne.symm
    rw [List.nil_append, List.lookup_cons, hbeq, List.lookup_nil]
  | cons m ms ih =>
    obtain ⟨k₁, v₁⟩ := m
    cases hk : k' == k₁ with
    | true => simp [List.lookup_cons, hk] at h
    | false =>
      simp only [List.lookup_cons, hk] at h
      simpa only [List.cons_append, List.lookup_cons, hk] using ih h

lemma ne_of_lookup_eq_none {k : PyStr} {ms : List (PyStr × Json F)} (h : ms.lookup k = none)
    {m : PyStr × Json F} (hm : m ∈ ms) : k ≠ m.1 := by
  rintro rfl
  exact absurd (List.lookup_eq_none_iff.1 h m hm) (by simp)

lemma lookup_insert {k k' : PyStr} {v : Json F} {ms : List (PyStr × Json F)} :
    (insert k v ms).lookup k' = if k' = k then some v else ms.lookup k' := by
  induction ms with
  | nil =>
    by_cases h : k' = k
    · simp [insert, h]
    · have hbeq : (k' == k) = false := by simpa using h
      simp [insert, List.lookup_cons, hbeq, h]
  | cons m ms ih =>
    obtain ⟨k₁, v₁⟩ := m
    rw [insert]
    split
    · next hk =>
      subst hk
      by_cases h : k' = k₁
      · simp [h]
      · have hbeq : (k' == k₁) = false := by simpa using h
        simp [List.lookup_cons, hbeq, h]
    · next hk =>
      rw [List.lookup_cons, List.lookup_cons, ih]
      by_cases h : k' = k₁
      · subst h
        simp [hk]
      · have hbeq : (k' == k₁) = false := by simpa using h
        simp [hbeq]

lemma wellFormedMembers_cons {k : PyStr} {x : Json F} {ms : List (PyStr × Json F)} :
    wellFormedMembers ((k, x) :: ms) = true ↔
      ((noPair k = true ∧ ms.lookup k = none) ∧ wellFormed x = true) ∧
        wellFormedMembers ms = true := by
  rw [wellFormedMembers]
  simp only [Bool.and_eq_true, Option.isNone_iff_eq_none]

lemma wellFormedMembers_insert {k : PyStr} {v : Json F} {ms : List (PyStr × Json F)}
    (hk : noPair k = true) (hv : wellFormed v = true) (hms : wellFormedMembers ms = true) :
    wellFormedMembers (insert k v ms) = true := by
  induction ms with
  | nil => exact wellFormedMembers_cons.2 ⟨⟨⟨hk, rfl⟩, hv⟩, rfl⟩
  | cons m ms ih =>
    obtain ⟨k', v'⟩ := m
    obtain ⟨⟨⟨hk', hnew⟩, hv'⟩, hms⟩ := wellFormedMembers_cons.1 hms
    rw [insert]
    split
    · exact wellFormedMembers_cons.2 ⟨⟨⟨hk', hnew⟩, hv⟩, hms⟩
    · next hne =>
      refine wellFormedMembers_cons.2 ⟨⟨⟨hk', ?_⟩, hv'⟩, ih hms⟩
      rw [lookup_insert, if_neg hne, hnew]

lemma mem_insert_self (k : PyStr) (v : Json F) (ms : List (PyStr × Json F)) :
    (k, v) ∈ insert k v ms := by
  induction ms with
  | nil => exact List.mem_singleton_self _
  | cons m ms ih =>
    obtain ⟨k', v'⟩ := m
    rw [insert]
    split
    · next hk => rw [hk]; exact List.mem_cons_self
    · exact List.mem_cons_of_mem _ ih

lemma eq_or_mem_of_mem_insert {k : PyStr} {v : Json F} {m : PyStr × Json F}
    {ms : List (PyStr × Json F)} (h : m ∈ insert k v ms) : m = (k, v) ∨ m ∈ ms := by
  induction ms with
  | nil => exact .inl (List.mem_singleton.1 h)
  | cons m' ms ih =>
    obtain ⟨k', v'⟩ := m'
    rw [insert] at h
    split at h
    · next hk =>
      rcases List.mem_cons.1 h with rfl | h
      · exact .inl (by rw [hk])
      · exact .inr (List.mem_cons_of_mem _ h)
    · rcases List.mem_cons.1 h with rfl | h
      · exact .inr List.mem_cons_self
      · exact (ih h).imp_right (List.mem_cons_of_mem _)

lemma length_insert_of_lookup_eq_some {k : PyStr} {v w : Json F} {ms : List (PyStr × Json F)}
    (h : ms.lookup k = some w) : (insert k v ms).length = ms.length := by
  induction ms with
  | nil => cases h
  | cons m ms ih =>
    obtain ⟨k', v'⟩ := m
    rw [insert]
    split
    · rfl
    · next hk =>
      have hbeq : (k == k') = false := by simpa using Ne.symm hk
      simp only [List.lookup_cons, hbeq] at h
      rw [List.length_cons, ih h, List.length_cons]

lemma lookup_of_mem {ms : List (PyStr × Json F)} (hms : wellFormedMembers ms = true)
    {m : PyStr × Json F} (hm : m ∈ ms) : ms.lookup m.1 = some m.2 := by
  induction ms with
  | nil => cases hm
  | cons m' ms ih =>
    obtain ⟨k', v'⟩ := m'
    obtain ⟨⟨⟨-, hnew⟩, -⟩, hms⟩ := wellFormedMembers_cons.1 hms
    rcases List.mem_cons.1 hm with rfl | hm
    · exact List.lookup_cons_self
    · have hbeq : (m.1 == k') = false := by simpa using (ne_of_lookup_eq_none hnew hm).symm
      simpa only [List.lookup_cons, hbeq] using ih hms hm

lemma wellFormed_of_mem {ms : List (PyStr × Json F)} (hms : wellFormedMembers ms = true)
    {m : PyStr × Json F} (hm : m ∈ ms) : wellFormed m.2 = true := by
  induction ms with
  | nil => cases hm
  | cons m' ms ih =>
    obtain ⟨k', v'⟩ := m'
    obtain ⟨⟨-, hv⟩, hms⟩ := wellFormedMembers_cons.1 hms
    rcases List.mem_cons.1 hm with rfl | hm
    · exact hv
    · exact ih hms hm

/-! ### Equality -/

variable [FiniteFloat F]

lemma pyEqMembers_iff {ms ms' : List (PyStr × Json F)} :
    pyEqMembers ms ms' = true ↔
      ∀ m ∈ ms, ∃ y, ms'.lookup m.1 = some y ∧ pyEq m.2 y = true := by
  induction ms with
  | nil => simp [pyEqMembers]
  | cons m ms ih =>
    obtain ⟨k, x⟩ := m
    rw [pyEqMembers, Bool.and_eq_true, ih, List.forall_mem_cons]
    cases ms'.lookup k <;> simp

mutual

/-- A well-formed value is equal to itself. -/
lemma pyEq_self (v : Json F) (hv : wellFormed v = true) : pyEq v v = true := by
  match v, hv with
  | .null, _ => rfl
  | .bool b, _ => simp [pyEq, num?]
  | .int n, _ => simp [pyEq, num?]
  | .float (.finite x), _ => simp [pyEq, num?]
  | .float .nan, _ => simp [pyEq, num?]
  | .float (.inf b), _ => simp [pyEq, num?]
  | .str t, _ => simp [pyEq]
  | .arr xs, hv =>
    rw [pyEq]
    exact pyEqItems_self xs hv
  | .obj ms, hv =>
    rw [pyEq, Bool.and_eq_true, decide_eq_true_eq]
    exact ⟨rfl, pyEqMembers_of_lookup ms hv ms fun m hm => lookup_of_mem hv hm⟩

lemma pyEqItems_self (xs : List (Json F)) (hxs : wellFormedItems xs = true) :
    pyEqItems xs xs = true := by
  match xs, hxs with
  | [], _ => rfl
  | x :: xs, hxs =>
    obtain ⟨hx, hxs⟩ := Bool.and_eq_true_iff.1 hxs
    exact Bool.and_eq_true_iff.2 ⟨pyEq_self x hx, pyEqItems_self xs hxs⟩

lemma pyEqMembers_of_lookup (ms : List (PyStr × Json F)) (hms : wellFormedMembers ms = true)
    (ms' : List (PyStr × Json F)) (h : ∀ m ∈ ms, ms'.lookup m.1 = some m.2) :
    pyEqMembers ms ms' = true := by
  match ms, hms, h with
  | [], _, _ => rfl
  | (k, x) :: ms, hms, h =>
    obtain ⟨⟨-, hx⟩, hms⟩ := wellFormedMembers_cons.1 hms
    rw [pyEqMembers, h (k, x) List.mem_cons_self, Bool.and_eq_true]
    exact ⟨pyEq_self x hx,
      pyEqMembers_of_lookup ms hms ms' fun m hm => h m (List.mem_cons_of_mem _ hm)⟩

end

/-- Setting a key leaves a dictionary equal exactly when the key had an equal value. -/
theorem pyEq_insert {k : PyStr} {v : Json F} {ms : List (PyStr × Json F)}
    (hms : wellFormedMembers ms = true) :
    pyEq (.obj (insert k v ms)) (.obj ms) = true ↔
      ∃ w, ms.lookup k = some w ∧ pyEq v w = true := by
  rw [pyEq, Bool.and_eq_true, decide_eq_true_eq, pyEqMembers_iff]
  constructor
  · rintro ⟨-, h⟩
    exact h (k, v) (mem_insert_self k v ms)
  · rintro ⟨w, hw, heq⟩
    refine ⟨length_insert_of_lookup_eq_some hw, fun m hm => ?_⟩
    rcases eq_or_mem_of_mem_insert hm with rfl | hm
    · exact ⟨w, hw, heq⟩
    · exact ⟨m.2, lookup_of_mem hms hm, pyEq_self m.2 (wellFormed_of_mem hms hm)⟩

end Json
