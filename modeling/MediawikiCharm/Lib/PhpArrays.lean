/-
Constant arrays of PHP.

An array is written between brackets, with commas between its entries.  The tokens determine the
array and where it ends, so that what is evaluated can be read off the tokens.  Where a key occurs
twice, the last entry counts.
-/
import MediawikiCharm.Lib.PhpTokens

namespace Php

open PyText

/-- A constant. -/
inductive Scalar
  | str (value : PyStr)
  | true
deriving DecidableEq

/-- An array of constants, by its entries. -/
abbrev Record := List (PyStr × Scalar)

/-- The tokens of a constant. -/
def Scalar.tokens : Scalar → List Token
  | .str value => [.str value]
  | .true => (lit "true").map .char

/-- `=>` -/
def arrow : List Token := [.char (ofChar '='), .char (ofChar '>')]

section Brackets

variable {α : Type} (p : α → List Token)

/-- The entries of an array behind the first one, and the bracket. -/
def restTokens : List α → List Token
  | [] => [.char (ofChar ']')]
  | x :: xs => .char (ofChar ',') :: (p x ++ restTokens xs)

/-- An array of entries. -/
def inBrackets : List α → List Token
  | [] => [.char (ofChar '['), .char (ofChar ']')]
  | x :: xs => .char (ofChar '[') :: (p x ++ restTokens p xs)

end Brackets

/-- The tokens of an entry. -/
def pairTokens (pair : PyStr × Scalar) : List Token := .str pair.1 :: (arrow ++ pair.2.tokens)

def recordTokens (record : Record) : List Token := inBrackets pairTokens record

def recordsTokens (records : List Record) : List Token := inBrackets recordTokens records

/-- An array of lists of records, entry by entry. -/
def entriesTokens (entries : List (PyStr × List Record)) : List Token :=
  entries.flatMap fun entry =>
    .str entry.1 :: (arrow ++ (recordsTokens entry.2 ++ [.char (ofChar ',')]))

/-- The array that such entries make. -/
def ofEntries {β : Type} (entries : List (PyStr × β)) (key : PyStr) : Option β :=
  ((entries.filter fun entry => entry.1 = key).getLast?).map Prod.snd

/-! ### Reading tokens back -/

/-- The tokens of a thing determine it, and where they end. -/
def Decodes {α : Type} (p : α → List Token) : Prop :=
  ∀ x y s t, p x ++ s = p y ++ t → x = y ∧ s = t

variable {α : Type} {p : α → List Token}

lemma restTokens_inj (hp : Decodes p) {xs ys : List α} {s t : List Token}
    (h : restTokens p xs ++ s = restTokens p ys ++ t) : xs = ys ∧ s = t := by
  induction xs generalizing ys with
  | nil =>
    cases ys with
    | nil => exact ⟨rfl, (List.cons.inj h).2⟩
    | cons y ys =>
      have hchar := Token.char.inj (List.cons.inj h).1
      exact absurd hchar (by decide)
  | cons x xs ih =>
    cases ys with
    | nil =>
      have hchar := Token.char.inj (List.cons.inj h).1
      exact absurd hchar (by decide)
    | cons y ys =>
      rw [restTokens, restTokens, List.cons_append, List.cons_append, List.append_assoc,
        List.append_assoc] at h
      obtain ⟨rfl, hrest⟩ := hp _ _ _ _ (List.cons.inj h).2
      obtain ⟨rfl, hst⟩ := ih hrest
      exact ⟨rfl, hst⟩

lemma restTokens_map {β : Type} (f : β → α) (xs : List β) :
    restTokens p (xs.map f) = restTokens (fun x => p (f x)) xs := by
  induction xs with
  | nil => rfl
  | cons x xs ih => rw [List.map_cons, restTokens, restTokens, ih]

lemma inBrackets_map {β : Type} (f : β → α) (xs : List β) :
    inBrackets p (xs.map f) = inBrackets (fun x => p (f x)) xs := by
  cases xs with
  | nil => rfl
  | cons x xs => rw [List.map_cons, inBrackets, inBrackets, restTokens_map]

/-- Brackets, where no entry begins with the bracket that closes. -/
lemma decodes_inBrackets (hp : Decodes p)
    (hhead : ∀ x, ∃ t ts, p x = t :: ts ∧ t ≠ .char (ofChar ']')) : Decodes (inBrackets p) := by
  intro xs ys s t h
  cases xs with
  | nil =>
    cases ys with
    | nil => exact ⟨rfl, (List.cons.inj (List.cons.inj h).2).2⟩
    | cons y ys =>
      obtain ⟨token, ts, hy, hne⟩ := hhead y
      have hentries := (List.cons.inj h).2
      rw [hy] at hentries
      exact absurd (List.cons.inj hentries).1.symm hne
  | cons x xs =>
    cases ys with
    | nil =>
      obtain ⟨token, ts, hx, hne⟩ := hhead x
      have hentries := (List.cons.inj h).2
      rw [hx] at hentries
      exact absurd (List.cons.inj hentries).1 hne
    | cons y ys =>
      rw [inBrackets, inBrackets, List.cons_append, List.cons_append, List.append_assoc,
        List.append_assoc] at h
      obtain ⟨rfl, hrest⟩ := hp _ _ _ _ (List.cons.inj h).2
      obtain ⟨rfl, hst⟩ := restTokens_inj hp hrest
      exact ⟨rfl, hst⟩

lemma inBrackets_head (xs : List α) :
    ∃ t ts, inBrackets p xs = t :: ts ∧ t ≠ .char (ofChar ']') := by
  have hne : Token.char (ofChar '[') ≠ .char (ofChar ']') := by decide
  cases xs with
  | nil => exact ⟨_, _, rfl, hne⟩
  | cons x xs => exact ⟨_, _, rfl, hne⟩

lemma decodes_scalar : Decodes Scalar.tokens := by
  have htrue : Scalar.tokens .true = .char (ofChar 't') :: (lit "rue").map .char := by decide
  intro x y s t h
  cases x with
  | str value =>
    cases y with
    | str value' =>
      obtain ⟨hvalue, hst⟩ := List.cons.inj h
      exact ⟨congrArg _ (Token.str.inj hvalue), hst⟩
    | true =>
      rw [htrue] at h
      exact absurd (List.cons.inj h).1 (fun heq => Token.noConfusion heq)
  | true =>
    cases y with
    | str value' =>
      rw [htrue] at h
      exact absurd (List.cons.inj h).1 (fun heq => Token.noConfusion heq)
    | true => exact ⟨rfl, List.append_cancel_left h⟩

lemma decodes_pair : Decodes pairTokens := by
  rintro ⟨k, x⟩ ⟨l, y⟩ s t h
  rw [pairTokens, pairTokens, List.cons_append, List.cons_append, List.append_assoc,
    List.append_assoc] at h
  obtain ⟨hkey, hrest⟩ := List.cons.inj h
  obtain rfl : k = l := Token.str.inj hkey
  obtain ⟨rfl, hst⟩ := decodes_scalar _ _ _ _ (List.append_cancel_left hrest)
  exact ⟨rfl, hst⟩

lemma decodes_record : Decodes recordTokens := by
  refine decodes_inBrackets decodes_pair fun pair => ⟨_, _, rfl, ?_⟩
  exact fun heq => Token.noConfusion heq

lemma decodes_records : Decodes recordsTokens :=
  decodes_inBrackets decodes_record inBrackets_head

/-- The tokens of one entry, and an array that begins with them. -/
lemma entriesTokens_cons_inj {key : PyStr} {records records' : List Record}
    {entries : List (PyStr × List Record)} {close : List Token}
    (h : entriesTokens ((key, records) :: entries) ++ close =
      .str key :: (arrow ++ (recordsTokens records' ++ .char (ofChar ',') :: close))) :
    records = records' ∧ entries = [] := by
  rw [entriesTokens, List.flatMap_cons, ← entriesTokens, List.cons_append, List.cons_append,
    List.append_assoc, List.append_assoc, List.append_assoc] at h
  obtain ⟨rfl, hst⟩ := decodes_records _ _ _ _ (List.append_cancel_left (List.cons.inj h).2)
  have hlength := congrArg List.length (List.cons.inj hst).2
  cases entries with
  | nil => exact ⟨rfl, rfl⟩
  | cons entry entries =>
    simp [entriesTokens] at hlength
    omega

/-! ### The array of entries -/

section Array

variable {β : Type} {entries : List (PyStr × β)} {key : PyStr} {x : β}

lemma ofEntries_singleton : ofEntries [(key, x)] = fun k => if k = key then some x else none := by
  funext k
  unfold ofEntries
  by_cases hk : k = key
  · simp [hk]
  · have hne : ¬ key = k := fun h => hk h.symm
    simp [hk, hne]

/-- Each key of the entries is one of the array. -/
lemma ofEntries_ne_none (h : (key, x) ∈ entries) : ofEntries entries key ≠ none := by
  have hmem : (key, x) ∈ entries.filter fun entry => entry.1 = key :=
    List.mem_filter.2 ⟨h, by simp⟩
  unfold ofEntries
  rw [ne_eq, Option.map_eq_none_iff, List.getLast?_eq_none_iff]
  exact List.ne_nil_of_mem hmem

end Array

end Php
