/-
Texts as lines.

A text has a first line, and further lines behind the symbols that end the lines before them.  A
function that changes further lines in front of what settles them commutes with appending: a text
may then be laid out piece by piece.
-/
import Mathlib.Data.List.Basic
import Mathlib.Tactic.Common

namespace Lines

variable {α : Type} (isBreak : α → Bool)

/-- The first line of a text, and the further ones with the symbols in front of them. -/
def split : List α → List α × List (α × List α)
  | [] => ([], [])
  | c :: s =>
    if isBreak c then ([], (c, (split s).1) :: (split s).2) else (c :: (split s).1, (split s).2)

/-- The lines behind the first one. -/
def tail (s : List α) : List (List α) := (split isBreak s).2.map Prod.snd

/-- Apply a function to the lines behind the first one. -/
def mapTail (f : List α → List α) (s : List α) : List α :=
  (split isBreak s).1 ++ (split isBreak s).2.flatMap fun r => r.1 :: f r.2

/-- Apply a function to all lines. -/
def mapAll (f : List α → List α) (s : List α) : List α :=
  f (split isBreak s).1 ++ (split isBreak s).2.flatMap fun r => r.1 :: f r.2

/-- The text is a part of a line. -/
def Free (s : List α) : Prop := ∀ c ∈ s, isBreak c = false

variable {isBreak} {a b s : List α} {c : α} {f g : List α → List α}

lemma Free.nil : Free isBreak ([] : List α) := nofun

lemma free_cons : Free isBreak (c :: s) ↔ isBreak c = false ∧ Free isBreak s :=
  List.forall_mem_cons

lemma free_append : Free isBreak (a ++ b) ↔ Free isBreak a ∧ Free isBreak b :=
  List.forall_mem_append

/-! ### Splitting -/

lemma split_of_free (h : Free isBreak s) : split isBreak s = (s, []) := by
  induction s with
  | nil => rfl
  | cons c s ih =>
    obtain ⟨hc, hs⟩ := free_cons.1 h
    rw [split, hc, ih hs]
    rfl

lemma split_append_free (ha : Free isBreak a) :
    split isBreak (a ++ b) = (a ++ (split isBreak b).1, (split isBreak b).2) := by
  induction a with
  | nil => rfl
  | cons c a ih =>
    obtain ⟨hc, ha⟩ := free_cons.1 ha
    rw [List.cons_append, split, hc, ih ha]
    rfl

lemma split_append_break (hc : isBreak c = true) : split isBreak (a ++ c :: b) =
    ((split isBreak a).1,
      (split isBreak a).2 ++ (c, (split isBreak b).1) :: (split isBreak b).2) := by
  induction a with
  | nil => exact if_pos hc
  | cons d a ih =>
    rw [List.cons_append, split, split, ih]
    split_ifs
    · rfl
    · rfl

lemma join_split (s : List α) :
    (split isBreak s).1 ++ (split isBreak s).2.flatMap (fun r => r.1 :: r.2) = s := by
  induction s with
  | nil => rfl
  | cons c s ih =>
    rw [split]
    split_ifs
    · rw [List.nil_append, List.flatMap_cons, List.cons_append, ih]
    · rw [List.cons_append, ih]

lemma free_split (isBreak : α → Bool) (s : List α) : Free isBreak (split isBreak s).1 ∧
    ∀ r ∈ (split isBreak s).2, isBreak r.1 = true ∧ Free isBreak r.2 := by
  induction s with
  | nil => exact ⟨Free.nil, nofun⟩
  | cons c s ih =>
    rw [split]
    split_ifs with hc
    · exact ⟨Free.nil, List.forall_mem_cons.2 ⟨⟨hc, ih.1⟩, ih.2⟩⟩
    · exact ⟨free_cons.2 ⟨by simpa using hc, ih.1⟩, ih.2⟩

lemma free_iff : Free isBreak s ↔ (split isBreak s).2 = [] := by
  refine ⟨fun h => by rw [split_of_free h], fun h => ?_⟩
  have hjoin := @join_split _ isBreak s
  rw [h, List.flatMap_nil, List.append_nil] at hjoin
  rw [← hjoin]
  exact (free_split isBreak s).1

/-- A text is a part of a line, or has a last line. -/
lemma free_or_exists_last (isBreak : α → Bool) (s : List α) :
    Free isBreak s ∨ ∃ a c l, s = a ++ c :: l ∧ isBreak c = true ∧ Free isBreak l := by
  induction s with
  | nil => exact .inl Free.nil
  | cons d s ih =>
    rcases ih with hs | ⟨a, c, l, rfl, hc, hl⟩
    · cases hd : isBreak d with
      | true => exact .inr ⟨[], d, s, rfl, hd, hs⟩
      | false => exact .inl (free_cons.2 ⟨hd, hs⟩)
    · exact .inr ⟨d :: a, c, l, rfl, hc, hl⟩

/-- The text is determined by its lines and the symbols between them. -/
lemma eq_of_split_eq (isBreak : α → Bool) (h : split isBreak a = split isBreak b) : a = b := by
  rw [← @join_split _ isBreak a, h, join_split]

/-! ### Changing lines -/

lemma mapTail_of_free (h : Free isBreak s) : mapTail isBreak f s = s := by
  rw [mapTail, split_of_free h]
  exact List.append_nil s

lemma mapAll_of_free (h : Free isBreak s) : mapAll isBreak f s = f s := by
  rw [mapAll, split_of_free h]
  exact List.append_nil _

lemma mapTail_append_free (ha : Free isBreak a) :
    mapTail isBreak f (a ++ b) = a ++ mapTail isBreak f b := by
  rw [mapTail, split_append_free ha, mapTail, List.append_assoc]

lemma mapAll_append_free (ha : Free isBreak a) (hf : ∀ y, f (a ++ y) = f a ++ y) :
    mapAll isBreak f (a ++ b) = f a ++ mapTail isBreak f b := by
  rw [mapAll, split_append_free ha, mapTail, hf, List.append_assoc]

lemma mapTail_append_break (hc : isBreak c = true) :
    mapTail isBreak f (a ++ c :: b) = mapTail isBreak f a ++ c :: mapAll isBreak f b := by
  rw [mapTail, split_append_break hc, mapTail, mapAll]
  simp only [List.flatMap_append, List.flatMap_cons, List.append_assoc, List.cons_append]

lemma mapTail_cons_break (hc : isBreak c = true) :
    mapTail isBreak f (c :: b) = c :: mapAll isBreak f b :=
  mapTail_append_break (a := []) hc

lemma mapAll_append_break (hc : isBreak c = true) (ha : Free isBreak a) :
    mapAll isBreak f (a ++ c :: b) = f a ++ c :: mapAll isBreak f b := by
  rw [mapAll, split_append_break hc, split_of_free ha, mapAll]
  rfl

/-- The last line is settled: what stands behind it does not matter to the function. -/
def Settles (isBreak : α → Bool) (f : List α → List α) (a : List α) : Prop :=
  ∀ a' c l, a = a' ++ c :: l → isBreak c = true → Free isBreak l → ∀ y, f (l ++ y) = f l ++ y

/-- Texts whose last lines are settled are changed piece by piece. -/
lemma mapTail_append (h : Settles isBreak f a) :
    mapTail isBreak f (a ++ b) = mapTail isBreak f a ++ mapTail isBreak f b := by
  rcases free_or_exists_last isBreak a with ha | ⟨a, c, l, rfl, hc, hl⟩
  · rw [mapTail_append_free ha, mapTail_of_free ha]
  · rw [List.append_assoc, List.cons_append, mapTail_append_break hc, mapTail_append_break hc,
      mapAll_append_free hl (h a c l rfl hc hl), mapAll_of_free hl, List.append_assoc,
      List.cons_append]

lemma split_join {l : List α} {rs : List (α × List α)} (hl : Free isBreak l)
    (hrs : ∀ r ∈ rs, isBreak r.1 = true ∧ Free isBreak r.2) :
    split isBreak (l ++ rs.flatMap fun r => r.1 :: r.2) = (l, rs) := by
  induction rs generalizing l with
  | nil => rw [List.flatMap_nil, List.append_nil, split_of_free hl]
  | cons r rs ih =>
    obtain ⟨⟨hr, hline⟩, hrs⟩ := List.forall_mem_cons.1 hrs
    rw [List.flatMap_cons, List.cons_append, split_append_break hr, split_of_free hl, ih hline hrs]
    rfl

lemma split_mapTail (hf : ∀ l, Free isBreak l → Free isBreak (f l)) (s : List α) :
    split isBreak (mapTail isBreak f s) =
      ((split isBreak s).1, (split isBreak s).2.map fun r => (r.1, f r.2)) := by
  obtain ⟨hfirst, hrest⟩ := free_split isBreak s
  have hlines : ∀ r ∈ (split isBreak s).2.map fun r => (r.1, f r.2),
      isBreak r.1 = true ∧ Free isBreak r.2 := by
    intro r hr
    obtain ⟨r, hmem, rfl⟩ := List.mem_map.1 hr
    exact ⟨(hrest r hmem).1, hf _ (hrest r hmem).2⟩
  rw [← split_join hfirst hlines, List.flatMap_map]
  rfl

/-- One change after the other. -/
lemma mapTail_mapTail (hf : ∀ l, Free isBreak l → Free isBreak (f l)) (s : List α) :
    mapTail isBreak g (mapTail isBreak f s) = mapTail isBreak (g ∘ f) s := by
  rw [mapTail, split_mapTail hf, List.flatMap_map]
  rfl

/-- A text stays the same exactly if its further lines do. -/
lemma mapTail_eq_self_iff (hf : ∀ l, Free isBreak l → Free isBreak (f l)) :
    mapTail isBreak f s = s ↔ ∀ l ∈ tail isBreak s, f l = l := by
  constructor
  · intro h l hl
    obtain ⟨r, hr, rfl⟩ := List.mem_map.1 hl
    have hsplit := split_mapTail hf s
    rw [h] at hsplit
    have hmap := (Prod.mk.inj hsplit).2
    have hr' := List.map_inj_left.1 (hmap.symm.trans (List.map_id _).symm) r hr
    exact congrArg Prod.snd hr'
  · intro h
    refine eq_of_split_eq isBreak ?_
    rw [split_mapTail hf]
    refine Prod.ext rfl ?_
    refine (List.map_congr_left fun r hr => ?_).trans (List.map_id _)
    rw [h r.2 (List.mem_map_of_mem hr)]
    rfl

lemma mapTail_congr (h : ∀ l ∈ tail isBreak s, f l = g l) :
    mapTail isBreak f s = mapTail isBreak g s := by
  rw [mapTail, mapTail]
  congr 1
  refine List.flatMap_congr fun r hr => ?_
  rw [h r.2 (List.mem_map_of_mem hr)]

/-- A text does not become longer if its further lines do not. -/
lemma length_mapTail_le (h : ∀ l, (f l).length ≤ l.length) (s : List α) :
    (mapTail isBreak f s).length ≤ s.length := by
  have hlines : ∀ rs : List (α × List α),
      (rs.flatMap fun r => r.1 :: f r.2).length ≤ (rs.flatMap fun r => r.1 :: r.2).length := by
    intro rs
    induction rs with
    | nil => exact Nat.le_refl _
    | cons r rs ih =>
      have hr := h r.2
      simp only [List.flatMap_cons, List.length_append, List.length_cons]
      omega
  have hjoin := congrArg List.length (@join_split _ isBreak s)
  have hrest := hlines (split isBreak s).2
  rw [List.length_append] at hjoin
  rw [mapTail, List.length_append]
  omega

/-! ### What holds of all further lines -/

lemma tail_of_free (h : Free isBreak s) : tail isBreak s = [] := by
  rw [tail, split_of_free h]
  rfl

lemma tail_append_break (hc : isBreak c = true) : tail isBreak (a ++ c :: b) =
    tail isBreak a ++ (split isBreak b).1 :: tail isBreak b := by
  rw [tail, split_append_break hc, List.map_append, List.map_cons]
  rfl

/-- The last line is determined by the text. -/
lemma last_inj {l l' : List α} {d : α} (h : a ++ c :: l = b ++ d :: l') (hc : isBreak c = true)
    (hd : isBreak d = true) (hl : Free isBreak l) (hl' : Free isBreak l') : l = l' := by
  have hlines := congrArg (fun s => (tail isBreak s).getLast?) h
  rw [tail_append_break hc, tail_append_break hd, split_of_free hl, split_of_free hl',
    tail_of_free hl, tail_of_free hl', List.getLast?_concat, List.getLast?_concat] at hlines
  exact Option.some.inj hlines

lemma tail_append_free (ha : Free isBreak a) : tail isBreak (a ++ b) = tail isBreak b := by
  rw [tail, split_append_free ha]
  rfl

/-- The same holds of all further lines of a text and of its pieces, if what stands behind a line
does not matter to it. -/
lemma forall_tail_append {Q : List α → Prop}
    (h : ∀ a' c l, a = a' ++ c :: l → isBreak c = true → Free isBreak l → ∀ y, Q (l ++ y) ↔ Q l) :
    (∀ l ∈ tail isBreak (a ++ b), Q l) ↔
      (∀ l ∈ tail isBreak a, Q l) ∧ ∀ l ∈ tail isBreak b, Q l := by
  rcases free_or_exists_last isBreak a with ha | ⟨a, c, l, rfl, hc, hl⟩
  · rw [tail_append_free ha, tail_of_free ha]
    simp
  · rw [List.append_assoc, List.cons_append, tail_append_break hc, tail_append_break hc,
      split_append_free hl, tail_append_free hl, split_of_free hl, tail_of_free hl]
    simp only [List.forall_mem_append, List.forall_mem_cons, h a c l rfl hc hl]
    tauto

end Lines
