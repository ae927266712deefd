/-
`json.loads` within the limits of the interpreter.

An integer of more than 4300 digits makes `int` raise `ValueError`, and brackets that are nested too
deeply make the scanner raise `RecursionError`.  Both are raised as soon as the scanner gets there,
in front of any error behind that place.  Where neither happens, the text is read as if there were
no limits (`agrees_loads`).
-/
import MediawikiCharm.Lib.JsonScan

namespace Json

open PyText

variable {F : Type} [FiniteFloat F]

/-! ### The scanner -/

/-- What `json.loads` raises. -/
inductive LoadsError
  /-- `JSONDecodeError` -/
  | decode
  /-- the `ValueError` of an integer with too many digits -/
  | digits
  /-- `RecursionError` -/
  | recursion
deriving DecidableEq

/-- `sys.get_int_max_str_digits()` -/
def intMaxStrDigits : ℕ := 4300

/-- A step that fails with `JSONDecodeError` only. -/
def decoded {α : Type} : Option α → Except LoadsError α
  | some a => .ok a
  | none => .error .decode

/-- A constant or a number, and what follows it. -/
def scanAtomWithin (s : List Char) : Except LoadsError (Json F × List Char) :=
  match constants.find? fun v => (dumps v).isPrefixOf s with
  | some v => .ok (v, s.drop (dumps v).length)
  | none =>
    match scanNumber s with
    | some (n, r) =>
      if ¬ n.IsFloat ∧ intMaxStrDigits < n.int.length then .error .digits else .ok (ofNumber n, r)
    | none => .error .decode

mutual

/-- `scan_once` with `depth` levels of recursion left. -/
def scanOnceWithin : ℕ → ℕ → List Char → Except LoadsError (Json F × List Char)
  | 0, _, _ => .error .decode
  | _ + 1, _, '"' :: s => (decoded (scanString s)).map fun (t, r) => (.str t, r)
  | fuel + 1, depth, '[' :: s =>
    if depth = 0 then .error .recursion
    else
      match skipWs s with
      | ']' :: r => .ok (.arr [], r)
      | r => (scanItemsWithin fuel (depth - 1) r).map fun (xs, r) => (.arr xs, r)
  | fuel + 1, depth, '{' :: s =>
    if depth = 0 then .error .recursion
    else
      match skipWs s with
      | '}' :: r => .ok (.obj [], r)
      | r => (scanMembersWithin fuel (depth - 1) [] r).map fun (ms, r) => (.obj ms, r)
  | _ + 1, _, s => scanAtomWithin s

/-- The items of an array up to its closing bracket. -/
def scanItemsWithin : ℕ → ℕ → List Char → Except LoadsError (List (Json F) × List Char)
  | 0, _, _ => .error .decode
  | fuel + 1, depth, s =>
    match scanOnceWithin fuel depth s with
    | .error e => .error e
    | .ok (x, r) =>
      match skipWs r with
      | ']' :: r => .ok ([x], r)
      | ',' :: r => (scanItemsWithin fuel depth (skipWs r)).map fun (xs, r) => (x :: xs, r)
      | _ => .error .decode

/-- The members of an object up to its closing brace, added to those read before. -/
def scanMembersWithin : ℕ → ℕ → List (PyStr × Json F) → List Char →
    Except LoadsError (List (PyStr × Json F) × List Char)
  | fuel + 1, depth, ms, '"' :: s =>
    match scanString s with
    | none => .error .decode
    | some (k, r) =>
      match skipWs r with
      | ':' :: r =>
        match scanOnceWithin fuel depth (skipWs r) with
        | .error e => .error e
        | .ok (x, r) =>
          match skipWs r with
          | '}' :: r => .ok (insert k x ms, r)
          | ',' :: r => scanMembersWithin fuel depth (insert k x ms) (skipWs r)
          | _ => .error .decode
      | _ => .error .decode
  | _, _, _, _ => .error .decode

end

/-- `json.loads(s)` with `depth` levels of recursion left. -/
def loadsWithin (depth : ℕ) (s : List Char) : Except LoadsError (Json F) :=
  match scanOnceWithin (2 * s.length + 2) depth (skipWs s) with
  | .ok (v, r) => if skipWs r = [] then .ok v else .error .decode
  | .error e => .error e

variable (F) in
/-- Reading the text meets no limit. -/
def WithinLimits (depth : ℕ) (s : List Char) : Prop :=
  ∀ e, loadsWithin (F := F) depth s = .error e → e = .decode

/-! ### Without a limit -/

/-- A result that no limit has cut short is the one without limits. -/
inductive Agrees {α : Type} : Except LoadsError α → Option α → Prop
  | ok (a : α) : Agrees (.ok a) (some a)
  | decode : Agrees (.error .decode) none
  | limit {e : LoadsError} (o : Option α) (h : e ≠ .decode) : Agrees (.error e) o

variable {α β : Type} {x : Except LoadsError α} {o : Option α}

lemma agrees_decoded (o : Option α) : Agrees (decoded o) o := by
  cases o with
  | none => exact .decode
  | some a => exact .ok a

lemma Agrees.map (h : Agrees x o) (f : α → β) : Agrees (x.map f) (o.map f) := by
  cases h with
  | ok a => exact .ok (f a)
  | decode => exact .decode
  | limit o h => exact .limit _ h

lemma agrees_scanAtom (s : List Char) :
    Agrees (scanAtomWithin s : Except LoadsError (Json F × List Char)) (scanAtom s) := by
  rw [scanAtomWithin, scanAtom]
  cases constants.find? fun v : Json F => (dumps v).isPrefixOf s with
  | some v => exact .ok _
  | none =>
    cases scanNumber s with
    | none => exact .decode
    | some p =>
      dsimp only
      split_ifs
      · exact .limit _ (by decide)
      · exact .ok _

lemma head_or_not (d : Char) (t : List Char) : (∃ r, t = d :: r) ∨ ∀ r, t = d :: r → False := by
  by_cases h : ∃ r, t = d :: r
  · exact .inl h
  · exact .inr fun r hr => h ⟨r, hr⟩

/-- The scanners go through the text together, until a limit stops the first one. -/
lemma agrees_scan (fuel : ℕ) :
    (∀ (depth : ℕ) (s : List Char),
      Agrees (scanOnceWithin fuel depth s : Except LoadsError (Json F × List Char))
        (scanOnce fuel s)) ∧
    (∀ (depth : ℕ) (s : List Char),
      Agrees (scanItemsWithin fuel depth s : Except LoadsError (List (Json F) × List Char))
        (scanItems fuel s)) ∧
    (∀ (depth : ℕ) (ms : List (PyStr × Json F)) (s : List Char),
      Agrees (scanMembersWithin fuel depth ms s) (scanMembers fuel ms s)) := by
  induction fuel with
  | zero => exact ⟨fun _ _ => .decode, fun _ _ => .decode, fun _ _ _ => .decode⟩
  | succ fuel ih =>
    obtain ⟨ihOnce, ihItems, ihMembers⟩ := ih
    refine ⟨fun depth s => ?_, fun depth s => ?_, fun depth ms s => ?_⟩
    · match s with
      | [] => exact agrees_scanAtom []
      | c :: s =>
        by_cases hbracket : c = '['
        · subst hbracket
          rw [scanOnceWithin, scanOnce]
          split_ifs
          · exact .limit _ (by decide)
          · have hitems := ihItems (depth - 1) (skipWs s)
            generalize skipWs s = t at hitems ⊢
            rcases head_or_not ']' t with ⟨r, rfl⟩ | hclose
            · exact .ok _
            · simp only
              exact hitems.map _
        · by_cases hbrace : c = '{'
          · subst hbrace
            rw [scanOnceWithin, scanOnce]
            split_ifs
            · exact .limit _ (by decide)
            · have hmembers := ihMembers (depth - 1) [] (skipWs s)
              generalize skipWs s = t at hmembers ⊢
              rcases head_or_not '}' t with ⟨r, rfl⟩ | hclose
              · exact .ok _
              · simp only
                exact hmembers.map _
          · by_cases hquote : c = '"'
            · subst hquote
              rw [scanOnceWithin, scanOnce]
              exact (agrees_decoded _).map _
            · rw [scanOnceWithin.eq_5, scanOnce.eq_5]
              · exact agrees_scanAtom _
              all_goals
                intro t ht
                simp_all
    · rw [scanItemsWithin, scanItems]
      have honce := ihOnce depth s
      generalize (scanOnceWithin fuel depth s : Except LoadsError (Json F × List Char)) = x,
        (scanOnce fuel s : Option (Json F × List Char)) = o at honce ⊢
      cases honce with
      | decode => exact .decode
      | limit o h => exact .limit _ h
      | ok p =>
        obtain ⟨v, r⟩ := p
        dsimp only
        generalize skipWs r = t
        rcases head_or_not ']' t with ⟨r₂, rfl⟩ | hclose
        · exact .ok _
        rcases head_or_not ',' t with ⟨r₂, rfl⟩ | hcomma
        · exact (ihItems depth (skipWs r₂)).map _
        · simp only
          exact .decode
    · match s with
      | [] => exact .decode
      | c :: s =>
        by_cases hquote : c = '"'
        · subst hquote
          rw [scanMembersWithin, scanMembers]
          cases scanString s with
          | none => exact .decode
          | some p =>
            obtain ⟨k, r⟩ := p
            dsimp only
            generalize skipWs r = t
            rcases head_or_not ':' t with ⟨r₂, rfl⟩ | hcolon
            · simp only
              have honce := ihOnce depth (skipWs r₂)
              generalize (scanOnceWithin fuel depth (skipWs r₂) :
                  Except LoadsError (Json F × List Char)) = x,
                (scanOnce fuel (skipWs r₂) : Option (Json F × List Char)) = o at honce ⊢
              cases honce with
              | decode => exact .decode
              | limit o h => exact .limit _ h
              | ok q =>
                obtain ⟨v, r₃⟩ := q
                dsimp only
                generalize skipWs r₃ = t
                rcases head_or_not '}' t with ⟨r₄, rfl⟩ | hclose
                · exact .ok _
                rcases head_or_not ',' t with ⟨r₄, rfl⟩ | hcomma
                · exact ihMembers depth _ _
                · simp only
                  exact .decode
            · simp only
              exact .decode
        · rw [scanMembersWithin.eq_2 _ _ _ _ fun _ _ _ he => hquote (List.cons.inj he).1,
            scanMembers.eq_2 _ _ _ fun _ _ _ he => hquote (List.cons.inj he).1]
          exact .decode

/-- Where no limit is met, the text is read as if there were none. -/
theorem agrees_loads (depth : ℕ) (s : List Char) :
    Agrees (loadsWithin depth s : Except LoadsError (Json F)) (loads s) := by
  rw [loadsWithin, loads]
  have honce := (@agrees_scan F _ (2 * s.length + 2)).1 depth (skipWs s)
  generalize (scanOnceWithin (2 * s.length + 2) depth (skipWs s) :
      Except LoadsError (Json F × List Char)) = x,
    (scanOnce (2 * s.length + 2) (skipWs s) : Option (Json F × List Char)) = o at honce ⊢
  cases honce with
  | decode => exact .decode
  | limit o h => exact .limit _ h
  | ok p =>
    dsimp only
    split_ifs
    · exact .ok _
    · exact .decode

/-! ### Enough fuel -/

lemma Agrees.of_ok {a : α} (h : Agrees (.ok a) o) : o = some a := by
  cases h
  rfl

/-- One more unit of fuel changes nothing once there are two for each character, as without
limits. -/
lemma scanWithin_succ (fuel : ℕ) :
    (∀ (depth : ℕ) (s : List Char), 2 * s.length + 1 ≤ fuel →
      (scanOnceWithin (fuel + 1) depth s : Except LoadsError (Json F × List Char)) =
        scanOnceWithin fuel depth s) ∧
    (∀ (depth : ℕ) (s : List Char), 2 * s.length + 2 ≤ fuel →
      (scanItemsWithin (fuel + 1) depth s : Except LoadsError (List (Json F) × List Char)) =
        scanItemsWithin fuel depth s) ∧
    (∀ (depth : ℕ) (ms : List (PyStr × Json F)) (s : List Char), 2 * s.length + 1 ≤ fuel →
      scanMembersWithin (fuel + 1) depth ms s = scanMembersWithin fuel depth ms s) := by
  have hlength : ∀ {fuel depth : ℕ} {s r : List Char} {v : Json F},
      scanOnceWithin fuel depth s = .ok (v, r) → r.length ≤ s.length := by
    intro fuel depth s r v h
    have hagrees := (@agrees_scan F _ fuel).1 depth s
    rw [h] at hagrees
    exact (length_le_of_scan fuel).1 _ _ _ hagrees.of_ok
  induction fuel with
  | zero => exact ⟨fun _ s h => (by omega), fun _ s h => (by omega), fun _ _ s h => (by omega)⟩
  | succ fuel ih =>
    obtain ⟨ihOnce, ihItems, ihMembers⟩ := ih
    refine ⟨fun depth s h => ?_, fun depth s h => ?_, fun depth ms s h => ?_⟩
    · match s, h with
      | [], _ => rfl
      | c :: s, h =>
        have hle := length_skipWs_le s
        rw [List.length_cons] at h
        by_cases hbracket : c = '['
        · subst hbracket
          have hitems := ihItems (depth - 1) (skipWs s) (by omega)
          rw [scanOnceWithin, scanOnceWithin]
          generalize skipWs s = t at hitems ⊢
          rcases head_or_not ']' t with ⟨r, rfl⟩ | hclose
          · rfl
          · simp only [hitems]
        · by_cases hbrace : c = '{'
          · subst hbrace
            have hmembers := ihMembers (depth - 1) [] (skipWs s) (by omega)
            rw [scanOnceWithin, scanOnceWithin]
            generalize skipWs s = t at hmembers ⊢
            rcases head_or_not '}' t with ⟨r, rfl⟩ | hclose
            · rfl
            · simp only [hmembers]
          · by_cases hquote : c = '"'
            · subst hquote
              rw [scanOnceWithin, scanOnceWithin]
            · rw [scanOnceWithin.eq_5, scanOnceWithin.eq_5]
              all_goals
                intro t ht
                simp_all
    · rw [scanItemsWithin, scanItemsWithin, ihOnce depth s (by omega)]
      split
      · rfl
      · next x r hx =>
        have hle := hlength hx
        split
        · rfl
        · next r₂ hr₂ =>
          have hlt := length_lt_of_skipWs_eq_cons hr₂
          have hle' := length_skipWs_le r₂
          rw [ihItems depth (skipWs r₂) (by omega)]
        · rfl
    · match s, h with
      | [], _ => rfl
      | c :: s, h =>
        rw [List.length_cons] at h
        by_cases hquote : c = '"'
        · subst hquote
          rw [scanMembersWithin, scanMembersWithin]
          split
          · rfl
          · next k r₁ hk =>
            have hkle := (scanString_suffix hk).length_le
            split
            · next r₂ hr₂ =>
              have hlt := length_lt_of_skipWs_eq_cons hr₂
              have hle := length_skipWs_le r₂
              rw [ihOnce depth (skipWs r₂) (by omega)]
              split
              · rfl
              · next x r₃ hx =>
                have hxle := hlength hx
                split
                · rfl
                · next r₄ hr₄ =>
                  have hrlt := length_lt_of_skipWs_eq_cons hr₄
                  have hrle := length_skipWs_le r₄
                  rw [ihMembers depth _ (skipWs r₄) (by omega)]
                · rfl
            · rfl
        · rw [scanMembersWithin.eq_2 _ _ _ _ fun _ _ _ he => hquote (List.cons.inj he).1,
            scanMembersWithin.eq_2 _ _ _ _ fun _ _ _ he => hquote (List.cons.inj he).1]

/-- The scanner never fails for want of fuel. -/
theorem scanOnceWithin_fuel {fuel : ℕ} (depth : ℕ) {s : List Char}
    (h : 2 * s.length + 2 ≤ fuel) :
    (scanOnceWithin fuel depth s : Except LoadsError (Json F × List Char)) =
      scanOnceWithin (2 * s.length + 2) depth s := by
  induction fuel, h using Nat.le_induction with
  | base => rfl
  | succ fuel hle ih => rw [(scanWithin_succ fuel).1 depth s (by omega), ih]

end Json
