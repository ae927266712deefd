/-
Python's `string.Template`.

A `$` begins a placeholder: another `$`, a name, or a name in braces.  The pieces are substituted
from left to right.  A name that is not known, and a `$` that begins none of these, is an error.
-/
import MediawikiCharm.Lib.PyAddress

namespace StringTemplate

open PyText PyAddress

/-- What `substitute` raises. -/
inductive Error
  | valueError
  | keyError (name : PyStr)
deriving DecidableEq

/-- What a `$` begins: a second `$`, or a name and the number of symbols it takes. -/
inductive Placeholder
  | escaped
  | name (name : PyStr) (length : ℕ)
  | invalid
deriving DecidableEq

/-- `[_a-z]`, in either case -/
def isNameStart (c : PyChar) : Bool := isAlpha c || c = ofChar '_'

/-- `[_a-z0-9]`, in either case -/
def isNameChar (c : PyChar) : Bool := isNameStart c || isDigit c

/-- What a `$` in front of the text begins. -/
def placeholder : PyStr → Placeholder
  | [] => .invalid
  | c :: s =>
    if c = ofChar '$' then .escaped
    else if isNameStart c then
      .name ((c :: s).takeWhile isNameChar) ((c :: s).takeWhile isNameChar).length
    else if c = ofChar '{' ∧ s.head?.any isNameStart ∧
        (s.dropWhile isNameChar).head? = some (ofChar '}') then
      .name (s.takeWhile isNameChar) ((s.takeWhile isNameChar).length + 2)
    else .invalid

/-- Substitute in a text, whose first `skip` symbols belong to a placeholder. -/
def substituteFrom (mapping : PyStr → Option PyStr) : ℕ → PyStr → Except Error PyStr
  | _, [] => .ok []
  | skip + 1, _ :: s => substituteFrom mapping skip s
  | 0, c :: s =>
    if c = ofChar '$' then
      match placeholder s with
      | .escaped => (ofChar '$' :: ·) <$> substituteFrom mapping 1 s
      | .name name length =>
        match mapping name with
        | none => .error (.keyError name)
        | some value => (value ++ ·) <$> substituteFrom mapping length s
      | .invalid => .error .valueError
    else (c :: ·) <$> substituteFrom mapping 0 s

/-- `Template(text).substitute(mapping)` -/
def substitute (mapping : PyStr → Option PyStr) (text : PyStr) : Except Error PyStr :=
  substituteFrom mapping 0 text

variable {mapping : PyStr → Option PyStr} {c : PyChar} {s out name value : PyStr} {k : ℕ}

lemma substituteFrom_eq (k : ℕ) (s : PyStr) :
    substituteFrom mapping k s = substitute mapping (s.drop k) := by
  induction k generalizing s with
  | zero => rfl
  | succ k ih =>
    cases s with
    | nil => rfl
    | cons c s => exact ih s

lemma substitute_cons (hc : c ≠ ofChar '$') (s : PyStr) :
    substitute mapping (c :: s) = (c :: ·) <$> substitute mapping s := by
  rw [substitute, substituteFrom, if_neg hc]
  rfl

lemma substitute_escaped (s : PyStr) : substitute mapping (ofChar '$' :: ofChar '$' :: s) =
    (ofChar '$' :: ·) <$> substitute mapping s := by
  rw [substitute, substituteFrom, if_pos rfl]
  rfl

/-- A known name is replaced by its value. -/
lemma substitute_name (hname : placeholder s = .name name k) (hvalue : mapping name = some value) :
    substitute mapping (ofChar '$' :: s) = (value ++ ·) <$> substitute mapping (s.drop k) := by
  rw [substitute, substituteFrom, if_pos rfl, hname]
  dsimp only
  rw [hvalue, substituteFrom_eq]

/-- A text in front of the first `$` is kept. -/
lemma substitute_append {t : PyStr} (ht : ofChar '$' ∉ t) (s : PyStr) :
    substitute mapping (t ++ s) = (t ++ ·) <$> substitute mapping s := by
  induction t with
  | nil =>
    cases hs : substitute mapping s with
    | ok out => exact hs
    | error e => exact hs
  | cons c t ih =>
    rw [List.mem_cons, not_or] at ht
    rw [List.cons_append, substitute_cons (Ne.symm ht.1), ih ht.2]
    cases substitute mapping s with
    | ok out => rfl
    | error e => rfl

lemma exists_of_map_ok {f : PyStr → PyStr} {x : Except Error PyStr} (h : f <$> x = .ok out) :
    ∃ out', x = .ok out' ∧ f out' = out := by
  cases x with
  | ok out' => exact ⟨out', rfl, Except.ok.inj h⟩
  | error e => exact absurd h nofun

/-- What a `$` begins where there is no error. -/
lemma placeholder_of_ok (h : substitute mapping (ofChar '$' :: s) = .ok out) :
    placeholder s = .escaped ∨
      ∃ name k value, placeholder s = .name name k ∧ mapping name = some value := by
  rw [substitute, substituteFrom, if_pos rfl] at h
  cases hs : placeholder s with
  | escaped => exact .inl rfl
  | invalid =>
    rw [hs] at h
    exact absurd h nofun
  | name name k =>
    rw [hs] at h
    dsimp only at h
    cases hvalue : mapping name with
    | none =>
      rw [hvalue] at h
      exact absurd h nofun
    | some value => exact .inr ⟨name, k, value, rfl, hvalue⟩

lemma placeholder_escaped (h : placeholder s = .escaped) : ∃ t, s = ofChar '$' :: t := by
  cases s with
  | nil => exact absurd h nofun
  | cons c t =>
    rw [placeholder] at h
    split_ifs at h with hc
    exact ⟨t, by rw [hc]⟩

lemma not_isNameChar {d : PyChar} (hd : isNameChar d = false) : d ∉ s.takeWhile isNameChar := by
  intro hmem
  have hname := List.mem_takeWhile_imp hmem
  rw [hd] at hname
  exact absurd hname nofun

/-- The symbols of a name. -/
lemma placeholder_name (h : placeholder s = .name name k) :
    ofChar '$' ∉ s.take k ∧ (s.take k).count (ofChar '{') ≤ 1 := by
  have hdollar : isNameChar (ofChar '$') = false := by decide
  have hbrace : isNameChar (ofChar '{') = false := by decide
  cases s with
  | nil => exact absurd h nofun
  | cons c t =>
    rw [placeholder] at h
    split_ifs at h with hc hstart hbraces
    · obtain ⟨-, rfl⟩ := Placeholder.name.inj h
      have htake := List.prefix_iff_eq_take.1 (List.takeWhile_prefix isNameChar (l := c :: t))
      rw [← htake, List.count_eq_zero_of_not_mem (not_isNameChar hbrace)]
      exact ⟨not_isNameChar hdollar, Nat.zero_le 1⟩
    · obtain ⟨-, rfl⟩ := Placeholder.name.inj h
      obtain ⟨rfl, -, hclose⟩ := hbraces
      obtain ⟨rest, hrest⟩ := List.head?_eq_some_iff.1 hclose
      have hsplit : t = t.takeWhile isNameChar ++ ofChar '}' :: rest := by
        rw [← hrest, List.takeWhile_append_dropWhile]
      have hd : ofChar '$' ∉ t.takeWhile isNameChar := not_isNameChar hdollar
      have hb : ofChar '{' ∉ t.takeWhile isNameChar := not_isNameChar hbrace
      generalize t.takeWhile isNameChar = word at hsplit hd hb
      have htake : (ofChar '{' :: t).take (word.length + 2) =
          ofChar '{' :: (word ++ [ofChar '}']) := by
        rw [hsplit, List.take_succ_cons, List.take_length_add_append]
        rfl
      rw [htake, List.count_cons_self, List.count_append, List.count_eq_zero_of_not_mem hb]
      refine ⟨?_, le_rfl⟩
      simp only [List.mem_cons, List.mem_append, List.not_mem_nil, or_false, not_or]
      exact ⟨by decide, hd, by decide⟩

end StringTemplate
