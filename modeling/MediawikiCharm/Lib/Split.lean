/-
Texts split at a separator, and joined by one.

The parts have all the symbols of the text but the separators.
-/
import Mathlib.Data.List.Basic
import Mathlib.Tactic.Common

namespace Split

variable {α β : Type} [DecidableEq α] [DecidableEq β] {a d : α} {s part : List α}

/-- A symbol that is no separator stands in a part. -/
lemma mem_splitOn (ha : a ∈ s) (had : a ≠ d) : ∃ part ∈ s.splitOn d, a ∈ part := by
  induction s with
  | nil => exact absurd ha List.not_mem_nil
  | cons e s ih =>
    rw [List.splitOn_cons_eq_if_modifyHead]
    split_ifs with hed
    · have hs : a ∈ s := (List.mem_cons.1 ha).resolve_left fun hae =>
        had (hae.trans (by simpa using hed))
      obtain ⟨part, hpart, hmem⟩ := ih hs
      exact ⟨part, List.mem_cons_of_mem _ hpart, hmem⟩
    · cases hparts : s.splitOn d with
      | nil => exact absurd hparts (List.splitOn_ne_nil d s)
      | cons p ps =>
        rw [hparts] at ih
        rw [List.modifyHead_cons]
        rcases List.mem_cons.1 ha with rfl | ha
        · exact ⟨_, List.mem_cons_self, List.mem_cons_self⟩
        · obtain ⟨part, hpart, hmem⟩ := ih ha
          rcases List.mem_cons.1 hpart with rfl | hpart
          · exact ⟨_, List.mem_cons_self, List.mem_cons_of_mem _ hmem⟩
          · exact ⟨part, List.mem_cons_of_mem _ hpart, hmem⟩

/-- The symbols of a part stand in the text, and no part has a separator. -/
lemma mem_and_ne_of_mem_splitOn (hpart : part ∈ s.splitOn d) (ha : a ∈ part) : a ∈ s ∧ a ≠ d := by
  induction s generalizing part with
  | nil =>
    obtain rfl := List.mem_singleton.1 hpart
    exact absurd ha List.not_mem_nil
  | cons e s ih =>
    rw [List.splitOn_cons_eq_if_modifyHead] at hpart
    split_ifs at hpart with hed
    · rcases List.mem_cons.1 hpart with rfl | hpart
      · exact absurd ha List.not_mem_nil
      · exact (ih hpart ha).imp_left (List.mem_cons_of_mem _)
    · cases hparts : s.splitOn d with
      | nil => exact absurd hparts (List.splitOn_ne_nil d s)
      | cons p ps =>
        rw [hparts] at hpart ih
        rcases List.mem_cons.1 hpart with rfl | hpart
        · rcases List.mem_cons.1 ha with rfl | ha
          · exact ⟨List.mem_cons_self, by simpa using hed⟩
          · exact (ih List.mem_cons_self ha).imp_left (List.mem_cons_of_mem _)
        · exact (ih (List.mem_cons_of_mem _ hpart) ha).imp_left (List.mem_cons_of_mem _)

lemma mem_of_mem_splitOn (hpart : part ∈ s.splitOn d) (ha : a ∈ part) : a ∈ s :=
  (mem_and_ne_of_mem_splitOn hpart ha).1

lemma not_mem_of_mem_splitOn (hpart : part ∈ s.splitOn d) : d ∉ part := fun hd =>
  (mem_and_ne_of_mem_splitOn hpart hd).2 rfl

lemma length_splitOn (d : α) (s : List α) : (s.splitOn d).length = s.count d + 1 := by
  induction s with
  | nil => rfl
  | cons c s ih =>
    rw [List.splitOn_cons_eq_if_modifyHead, List.count_cons]
    split_ifs with hc
    · rw [List.length_cons, ih]
    · rw [List.length_modifyHead, ih, Nat.add_zero]

/-- A map that keeps the separators keeps the parts. -/
lemma splitOn_map {f : α → β} {e : β} (hf : ∀ c, f c = e ↔ c = d) (s : List α) :
    (s.map f).splitOn e = (s.splitOn d).map (List.map f) := by
  induction s with
  | nil => rfl
  | cons c s ih =>
    rw [List.map_cons, List.splitOn_cons_eq_if_modifyHead, List.splitOn_cons_eq_if_modifyHead, ih]
    by_cases hc : c = d
    · rw [if_pos (by simpa using (hf c).2 hc), if_pos (by simpa using hc)]
      rfl
    · rw [if_neg (by simpa using fun h => hc ((hf c).1 h)), if_neg (by simpa using hc)]
      cases s.splitOn d with
      | nil => rfl
      | cons p ps => rfl

/-- A map that keeps `++` is applied to the separator and to each part. -/
lemma hom_intercalate {α β : Type} (h : List α → List β)
    (happend : ∀ a b, h (a ++ b) = h a ++ h b) (sep : List α) (xs : List (List α)) :
    h (sep.intercalate xs) = (h sep).intercalate (xs.map h) := by
  have hnil : h [] = [] := List.self_eq_append_left.1 (happend [] [])
  induction xs with
  | nil => exact hnil
  | cons x xs ih =>
    cases xs with
    | nil => simp
    | cons y xs =>
      rw [List.intercalate_cons_cons, happend, happend, ih]
      simp only [List.map_cons, List.intercalate_cons_cons]

end Split
