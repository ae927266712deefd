/-
What the scanner returns.

Each of its functions is inverted once.  From that: it leaves a part of its input over, its
values are well-formed, and more fuel than twice the length of the text changes nothing, so
that `loads` never fails for want of fuel.
-/
import MediawikiCharm.Lib.JsonDict

namespace Json

open PyText

variable {F : Type} [FiniteFloat F]

/-! ### Texts without surrogate pairs -/

lemma noPair_cons {c : PyChar} {t : PyStr} :
    noPair (c :: t) = true ↔ (∀ d ∈ t.head?, (isHigh c && isLow d) = false) ∧ noPair t = true := by
  cases t with
  | nil => simp [noPair]
  | cons d t =>
    rw [noPair, Bool.and_eq_true, Bool.not_eq_true']
    simp

lemma val_joinPair {h l : PyChar} (hp : (isHigh h && isLow l) = true) :
    0x10000 ≤ (joinPair h l).val := by
  simp only [isHigh, isLow, Bool.and_eq_true, decide_eq_true_eq] at hp
  have hmod : (joinPair h l).val = 0x10000 + (h.val - 0xd800) * 0x400 + (l.val - 0xdc00) :=
    Nat.mod_eq_of_lt (by omega)
  omega

lemma isLow_of_head?_joinPairs {d l : PyChar} {t : PyStr} (h : d ∈ (joinPairs (l :: t)).head?) :
    d = l ∨ isLow d = false := by
  cases t with
  | nil => exact .inl (Option.mem_some_iff.1 h).symm
  | cons c t =>
    rw [joinPairs] at h
    split at h
    · next hp =>
      obtain rfl := Option.mem_some_iff.1 h
      exact .inr (isLow_eq_false (val_joinPair hp))
    · exact .inl (Option.mem_some_iff.1 h).symm

lemma noPair_joinPairs (t : PyStr) : noPair (joinPairs t) = true := by
  fun_induction joinPairs t with
  | case1 h l t hp ih =>
    refine noPair_cons.2 ⟨fun d _ => ?_, ih⟩
    rw [isHigh_eq_false (val_joinPair hp), Bool.false_and]
  | case2 h l t hp ih =>
    refine noPair_cons.2 ⟨fun d hd => ?_, ih⟩
    rcases isLow_of_head?_joinPairs hd with rfl | hlow
    · exact Bool.eq_false_iff.2 hp
    · rw [hlow, Bool.and_false]
  | case3 t ht =>
    cases t with
    | nil => rfl
    | cons c t =>
      cases t with
      | nil => rfl
      | cons d t => exact absurd rfl (ht c d t)

lemma noPair_of_scanString {t : PyStr} {s r : List Char} (h : scanString s = some (t, r)) :
    noPair t = true := by
  obtain ⟨p, -, hp⟩ := Option.map_eq_some_iff.1 h
  rw [← (Prod.mk.inj hp).1]
  exact noPair_joinPairs p.1

lemma wellFormed_of_scanAtom {v : Json F} {s r : List Char} (h : scanAtom s = some (v, r)) :
    wellFormed v = true := by
  rw [scanAtom] at h
  split at h
  · next w hw =>
    obtain rfl := (Prod.mk.inj (Option.some.inj h)).1
    have hmem := List.mem_of_find?_eq_some hw
    have hall : ∀ w ∈ (constants : List (Json F)), wellFormed w = true := by
      simp [constants, wellFormed]
    exact hall w hmem
  · obtain ⟨p, -, hp⟩ := Option.map_eq_some_iff.1 h
    rw [← (Prod.mk.inj hp).1, ofNumber]
    split <;> rfl

/-- What `scanOnce` has read. -/
lemma scanOnce_cases {fuel : ℕ} {s r : List Char} {v : Json F}
    (h : scanOnce (fuel + 1) s = some (v, r)) :
    (∃ s' t, s = '"' :: s' ∧ scanString s' = some (t, r) ∧ v = .str t) ∨
    (∃ s', s = '[' :: s' ∧ (skipWs s' = ']' :: r ∧ v = .arr [] ∨
      ∃ xs, scanItems fuel (skipWs s') = some (xs, r) ∧ v = .arr xs)) ∨
    (∃ s', s = '{' :: s' ∧ (skipWs s' = '}' :: r ∧ v = .obj [] ∨
      ∃ ms, scanMembers fuel [] (skipWs s') = some (ms, r) ∧ v = .obj ms)) ∨
    scanAtom s = some (v, r) := by
  rw [scanOnce.eq_def] at h
  dsimp only at h
  split at h
  · cases h
  · next s' _ =>
    obtain ⟨p, hp, hv⟩ := Option.map_eq_some_iff.1 h
    obtain ⟨rfl, rfl⟩ := Prod.mk.inj hv
    exact .inl ⟨s', p.1, rfl, hp, rfl⟩
  · next fuel' s' hf =>
    obtain rfl : fuel = fuel' := Nat.succ.inj hf
    split at h
    · next r' hr' =>
      obtain ⟨rfl, rfl⟩ := Prod.mk.inj (Option.some.inj h)
      exact .inr (.inl ⟨s', rfl, .inl ⟨hr', rfl⟩⟩)
    · obtain ⟨p, hp, hv⟩ := Option.map_eq_some_iff.1 h
      obtain ⟨rfl, rfl⟩ := Prod.mk.inj hv
      exact .inr (.inl ⟨s', rfl, .inr ⟨p.1, hp, rfl⟩⟩)
  · next fuel' s' hf =>
    obtain rfl : fuel = fuel' := Nat.succ.inj hf
    split at h
    · next r' hr' =>
      obtain ⟨rfl, rfl⟩ := Prod.mk.inj (Option.some.inj h)
      exact .inr (.inr (.inl ⟨s', rfl, .inl ⟨hr', rfl⟩⟩))
    · obtain ⟨p, hp, hv⟩ := Option.map_eq_some_iff.1 h
      obtain ⟨rfl, rfl⟩ := Prod.mk.inj hv
      exact .inr (.inr (.inl ⟨s', rfl, .inr ⟨p.1, hp, rfl⟩⟩))
  · exact .inr (.inr (.inr h))

/-- What `scanItems` has read. -/
lemma scanItems_cases {fuel : ℕ} {s r : List Char} {xs : List (Json F)}
    (h : scanItems (fuel + 1) s = some (xs, r)) :
    ∃ x r₁, scanOnce fuel s = some (x, r₁) ∧ (skipWs r₁ = ']' :: r ∧ xs = [x] ∨
      ∃ r₂ xs', skipWs r₁ = ',' :: r₂ ∧ scanItems fuel (skipWs r₂) = some (xs', r) ∧
        xs = x :: xs') := by
  rw [scanItems] at h
  split at h
  · cases h
  · next x r₁ hx =>
    split at h
    · next r' hr' =>
      obtain ⟨rfl, rfl⟩ := Prod.mk.inj (Option.some.inj h)
      exact ⟨x, r₁, hx, .inl ⟨hr', rfl⟩⟩
    · next r₂ hr₂ =>
      obtain ⟨p, hp, hxs⟩ := Option.map_eq_some_iff.1 h
      obtain ⟨rfl, rfl⟩ := Prod.mk.inj hxs
      exact ⟨x, r₁, hx, .inr ⟨r₂, p.1, hr₂, hp, rfl⟩⟩
    · cases h

/-- What `scanMembers` has read. -/
lemma scanMembers_cases {fuel : ℕ} {s r : List Char} {acc ms : List (PyStr × Json F)}
    (h : scanMembers (fuel + 1) acc s = some (ms, r)) :
    ∃ s' k r₁ r₂ x r₃, s = '"' :: s' ∧ scanString s' = some (k, r₁) ∧ skipWs r₁ = ':' :: r₂ ∧
      scanOnce fuel (skipWs r₂) = some (x, r₃) ∧ (skipWs r₃ = '}' :: r ∧ ms = insert k x acc ∨
        ∃ r₄, skipWs r₃ = ',' :: r₄ ∧
          scanMembers fuel (insert k x acc) (skipWs r₄) = some (ms, r)) := by
  cases s with
  | nil =>
    rw [scanMembers.eq_2 _ _ _ fun _ _ _ he => by cases he] at h
    cases h
  | cons c s' =>
    by_cases hc : c = '"'
    · subst hc
      rw [scanMembers] at h
      split at h
      · cases h
      · next k r₁ hk =>
        split at h
        · next r₂ hr₂ =>
          split at h
          · cases h
          · next x r₃ hx =>
            split at h
            · next r' hr' =>
              obtain ⟨rfl, rfl⟩ := Prod.mk.inj (Option.some.inj h)
              exact ⟨s', k, r₁, r₂, x, r₃, rfl, hk, hr₂, hx, .inl ⟨hr', rfl⟩⟩
            · next r₄ hr₄ => exact ⟨s', k, r₁, r₂, x, r₃, rfl, hk, hr₂, hx, .inr ⟨r₄, hr₄, h⟩⟩
            · cases h
        · cases h
    · rw [scanMembers.eq_2 _ _ _ fun _ _ _ he => hc (List.cons.inj he).1] at h
      cases h

/-- The values that the scanner returns are well-formed. -/
lemma wellFormed_of_scan (fuel : ℕ) :
    (∀ (s r : List Char) (v : Json F), scanOnce fuel s = some (v, r) → wellFormed v = true) ∧
    (∀ (s r : List Char) (xs : List (Json F)), scanItems fuel s = some (xs, r) →
      wellFormedItems xs = true) ∧
    (∀ (acc : List (PyStr × Json F)) (s r : List Char) (ms : List (PyStr × Json F)),
      wellFormedMembers acc = true → scanMembers fuel acc s = some (ms, r) →
      wellFormedMembers ms = true) := by
  induction fuel with
  | zero =>
    exact ⟨fun _ _ _ h => (by cases h), fun _ _ _ h => (by cases h),
      fun _ _ _ _ _ h => (by cases h)⟩
  | succ fuel ih =>
    obtain ⟨ihOnce, ihItems, ihMembers⟩ := ih
    refine ⟨fun s r v h => ?_, fun s r xs h => ?_, fun acc s r ms hacc h => ?_⟩
    · rcases scanOnce_cases h with ⟨s', t, -, ht, rfl⟩ | ⟨s', -, ⟨-, rfl⟩ | ⟨xs, hxs, rfl⟩⟩ |
        ⟨s', -, ⟨-, rfl⟩ | ⟨ms, hms, rfl⟩⟩ | hatom
      · exact noPair_of_scanString ht
      · rfl
      · exact ihItems _ _ _ hxs
      · rfl
      · exact ihMembers _ _ _ _ rfl hms
      · exact wellFormed_of_scanAtom hatom
    · obtain ⟨x, r₁, hx, ⟨-, rfl⟩ | ⟨r₂, xs', -, hxs', rfl⟩⟩ := scanItems_cases h
      · exact Bool.and_eq_true_iff.2 ⟨ihOnce _ _ _ hx, rfl⟩
      · exact Bool.and_eq_true_iff.2 ⟨ihOnce _ _ _ hx, ihItems _ _ _ hxs'⟩
    · obtain ⟨s', k, r₁, r₂, x, r₃, -, hk, -, hx, hms⟩ := scanMembers_cases h
      have hins := wellFormedMembers_insert (noPair_of_scanString hk) (ihOnce _ _ _ hx) hacc
      rcases hms with ⟨-, rfl⟩ | ⟨r₄, -, hms⟩
      · exact hins
      · exact ihMembers _ _ _ _ hins hms

/-- A value that `loads` returns is well-formed. -/
theorem wellFormed_of_loads {s : List Char} {v : Json F} (h : loads s = some v) :
    wellFormed v = true := by
  rw [loads] at h
  split at h
  · next w r hw =>
    split at h
    · obtain rfl := Option.some.inj h
      exact (wellFormed_of_scan _).1 _ _ _ hw
    · cases h
  · cases h

/-! ### What is left over is a part of the input -/

lemma skipWs_suffix (s : List Char) : skipWs s <:+ s := List.dropWhile_suffix _

lemma length_skipWs_le (s : List Char) : (skipWs s).length ≤ s.length := (skipWs_suffix s).length_le

lemma scanChars_suffix {s r : List Char} {t : PyStr} (h : scanChars s = some (t, r)) : r <:+ s := by
  fun_induction scanChars s generalizing t with
  | case1 => cases h
  | case2 s =>
    rw [← (Prod.mk.inj (Option.some.inj h)).2]
    exact List.suffix_cons _ _
  | case3 a b c d s n t' r' hs hn ih =>
    obtain ⟨-, rfl⟩ := Prod.mk.inj (Option.some.inj h)
    have hsuf : s <:+ '\\' :: 'u' :: a :: b :: c :: d :: s :=
      ⟨['\\', 'u', a, b, c, d], rfl⟩
    exact (ih hs).trans hsuf
  | case4 => cases h
  | case5 e s hne n t' r' hs hn ih =>
    obtain ⟨-, rfl⟩ := Prod.mk.inj (Option.some.inj h)
    have hsuf : s <:+ '\\' :: e :: s := ⟨['\\', e], rfl⟩
    exact (ih hs).trans hsuf
  | case6 => cases h
  | case7 => cases h
  | case8 c s h₁ h₂ h₃ h₄ ih =>
    obtain ⟨p, hp, hpr⟩ := Option.map_eq_some_iff.1 h
    obtain ⟨-, rfl⟩ := Prod.mk.inj hpr
    exact (ih hp).trans (List.suffix_cons _ _)

lemma scanString_suffix {s r : List Char} {t : PyStr} (h : scanString s = some (t, r)) :
    r <:+ s := by
  obtain ⟨p, hp, hpr⟩ := Option.map_eq_some_iff.1 h
  obtain ⟨-, rfl⟩ := Prod.mk.inj hpr
  exact scanChars_suffix hp

lemma spanDigits_suffix (s : List Char) : (spanDigits s).2 <:+ s := by
  rw [spanDigits, List.span_eq_takeWhile_dropWhile]
  exact List.dropWhile_suffix _

lemma scanInt_suffix {s t r : List Char} (h : scanInt s = some (t, r)) : r <:+ s := by
  unfold scanInt at h
  split at h
  · rw [← (Prod.mk.inj (Option.some.inj h)).2]
    exact List.suffix_cons _ _
  · split at h
    · cases h
    · have hsuf := spanDigits_suffix s
      rw [Option.some.inj h] at hsuf
      exact hsuf

lemma scanFrac_suffix (s : List Char) : (scanFrac s).2 <:+ s := by
  unfold scanFrac
  split
  · split
    · exact List.suffix_refl _
    · exact (spanDigits_suffix _).trans (List.suffix_cons _ _)
  · exact List.suffix_refl _

lemma scanSign_suffix (s : List Char) : (scanSign s).2 <:+ s := by
  unfold scanSign
  split
  · exact List.suffix_cons _ _
  · exact List.suffix_cons _ _
  · exact List.suffix_refl _

lemma scanExp_suffix (s : List Char) : (scanExp s).2 <:+ s := by
  cases s with
  | nil => exact List.suffix_refl _
  | cons e s =>
    rw [scanExp]
    dsimp only
    split
    · exact ((spanDigits_suffix _).trans (scanSign_suffix s)).trans (List.suffix_cons _ _)
    · exact List.suffix_refl _

lemma scanMinus_suffix (s : List Char) : (scanMinus s).2 <:+ s := by
  unfold scanMinus
  split
  · exact List.suffix_cons _ _
  · exact List.suffix_refl _

lemma scanNumber_suffix {s r : List Char} {n : Number} (h : scanNumber s = some (n, r)) :
    r <:+ s := by
  unfold scanNumber at h
  dsimp only at h
  split at h
  · cases h
  · next t r' hint =>
    rw [← (Prod.mk.inj (Option.some.inj h)).2]
    exact (((scanExp_suffix _).trans (scanFrac_suffix _)).trans (scanInt_suffix hint)).trans
      (scanMinus_suffix s)

lemma scanAtom_suffix {s r : List Char} {v : Json F} (h : scanAtom s = some (v, r)) : r <:+ s := by
  rw [scanAtom] at h
  split at h
  · rw [← (Prod.mk.inj (Option.some.inj h)).2]
    exact List.drop_suffix _ _
  · obtain ⟨p, hp, hpr⟩ := Option.map_eq_some_iff.1 h
    obtain ⟨-, rfl⟩ := Prod.mk.inj hpr
    exact scanNumber_suffix hp

lemma length_lt_of_skipWs_eq_cons {s t : List Char} {c : Char} (h : skipWs s = c :: t) :
    t.length < s.length := by
  have hle := length_skipWs_le s
  rw [h, List.length_cons] at hle
  omega

/-- The scanner leaves no more than its input over. -/
lemma length_le_of_scan (fuel : ℕ) :
    (∀ (s r : List Char) (v : Json F), scanOnce fuel s = some (v, r) → r.length ≤ s.length) ∧
    (∀ (s r : List Char) (xs : List (Json F)), scanItems fuel s = some (xs, r) →
      r.length ≤ s.length) ∧
    (∀ (acc : List (PyStr × Json F)) (s r : List Char) (ms : List (PyStr × Json F)),
      scanMembers fuel acc s = some (ms, r) → r.length ≤ s.length) := by
  induction fuel with
  | zero =>
    exact ⟨fun _ _ _ h => (by cases h), fun _ _ _ h => (by cases h), fun _ _ _ _ h => (by cases h)⟩
  | succ fuel ih =>
    obtain ⟨ihOnce, ihItems, ihMembers⟩ := ih
    refine ⟨fun s r v h => ?_, fun s r xs h => ?_, fun acc s r ms h => ?_⟩
    · rcases scanOnce_cases h with ⟨s', t, rfl, ht, -⟩ | ⟨s', rfl, ⟨hr, -⟩ | ⟨xs, hxs, -⟩⟩ |
        ⟨s', rfl, ⟨hr, -⟩ | ⟨ms, hms, -⟩⟩ | hatom
      · have hle := (scanString_suffix ht).length_le
        rw [List.length_cons]
        omega
      · have hlt := length_lt_of_skipWs_eq_cons hr
        rw [List.length_cons]
        omega
      · have hle := (ihItems _ _ _ hxs).trans (length_skipWs_le s')
        rw [List.length_cons]
        omega
      · have hlt := length_lt_of_skipWs_eq_cons hr
        rw [List.length_cons]
        omega
      · have hle := (ihMembers _ _ _ _ hms).trans (length_skipWs_le s')
        rw [List.length_cons]
        omega
      · exact (scanAtom_suffix hatom).length_le
    · obtain ⟨x, r₁, hx, ⟨hr, -⟩ | ⟨r₂, xs', hr₂, hxs', -⟩⟩ := scanItems_cases h
      · have hle := ihOnce _ _ _ hx
        have hlt := length_lt_of_skipWs_eq_cons hr
        omega
      · have hle := ihOnce _ _ _ hx
        have hlt := length_lt_of_skipWs_eq_cons hr₂
        have hle' := (ihItems _ _ _ hxs').trans (length_skipWs_le r₂)
        omega
    · obtain ⟨s', k, r₁, r₂, x, r₃, rfl, hk, hr₂, hx, hms⟩ := scanMembers_cases h
      have hkle := (scanString_suffix hk).length_le
      have hlt := length_lt_of_skipWs_eq_cons hr₂
      have hxle := (ihOnce _ _ _ hx).trans (length_skipWs_le r₂)
      rw [List.length_cons]
      rcases hms with ⟨hr, -⟩ | ⟨r₄, hr₄, hms⟩
      · have hrlt := length_lt_of_skipWs_eq_cons hr
        omega
      · have hrlt := length_lt_of_skipWs_eq_cons hr₄
        have hle := (ihMembers _ _ _ _ hms).trans (length_skipWs_le r₄)
        omega

/-! ### Enough fuel -/

/-- One more unit of fuel changes nothing once there are two for each character.  The fuel
falls by two from an array to its first item while the text loses its bracket. -/
lemma scan_succ (fuel : ℕ) :
    (∀ s : List Char, 2 * s.length + 1 ≤ fuel →
      (scanOnce (fuel + 1) s : Option (Json F × List Char)) = scanOnce fuel s) ∧
    (∀ s : List Char, 2 * s.length + 2 ≤ fuel →
      (scanItems (fuel + 1) s : Option (List (Json F) × List Char)) = scanItems fuel s) ∧
    (∀ (acc : List (PyStr × Json F)) (s : List Char), 2 * s.length + 1 ≤ fuel →
      scanMembers (fuel + 1) acc s = scanMembers fuel acc s) := by
  induction fuel with
  | zero => exact ⟨fun s h => (by omega), fun s h => (by omega), fun _ s h => (by omega)⟩
  | succ fuel ih =>
    obtain ⟨ihOnce, ihItems, ihMembers⟩ := ih
    refine ⟨fun s h => ?_, fun s h => ?_, fun acc s h => ?_⟩
    · match s, h with
      | [], _ => rfl
      | c :: s, h =>
        have hle := length_skipWs_le s
        rw [List.length_cons] at h
        by_cases hb : c = '['
        · subst hb
          have hitems := ihItems (skipWs s) (by omega)
          rw [scanOnce, scanOnce]
          generalize skipWs s = t at hitems ⊢
          split
          · rfl
          · rw [hitems]
        · by_cases hb' : c = '{'
          · subst hb'
            have hmembers := ihMembers [] (skipWs s) (by omega)
            rw [scanOnce, scanOnce]
            generalize skipWs s = t at hmembers ⊢
            split
            · rfl
            · rw [hmembers]
          · by_cases hq : c = '"'
            · subst hq
              rw [scanOnce, scanOnce]
            · rw [scanOnce.eq_5, scanOnce.eq_5] <;> rintro t ht <;>
                simp_all
    · rw [scanItems, scanItems, ihOnce s (by omega)]
      split
      · rfl
      · next x r hx =>
        have hle := (length_le_of_scan fuel).1 _ _ _ hx
        split
        · rfl
        · next r₂ hr₂ =>
          have hlt := length_lt_of_skipWs_eq_cons hr₂
          have hle' := length_skipWs_le r₂
          rw [ihItems (skipWs r₂) (by omega)]
        · rfl
    · match s, h with
      | [], _ => rfl
      | c :: s, h =>
        rw [List.length_cons] at h
        by_cases hq : c = '"'
        · subst hq
          rw [scanMembers, scanMembers]
          split
          · rfl
          · next k r₁ hk =>
            have hkle := (scanString_suffix hk).length_le
            split
            · next r₂ hr₂ =>
              have hlt := length_lt_of_skipWs_eq_cons hr₂
              have hle := length_skipWs_le r₂
              rw [ihOnce (skipWs r₂) (by omega)]
              split
              · rfl
              · next x r₃ hx =>
                have hxle := (length_le_of_scan fuel).1 _ _ _ hx
                split
                · rfl
                · next r₄ hr₄ =>
                  have hrlt := length_lt_of_skipWs_eq_cons hr₄
                  have hrle := length_skipWs_le r₄
                  rw [ihMembers _ (skipWs r₄) (by omega)]
                · rfl
            · rfl
        · rw [scanMembers.eq_2 _ _ _ fun _ _ _ he => hq (List.cons.inj he).1,
            scanMembers.eq_2 _ _ _ fun _ _ _ he => hq (List.cons.inj he).1]

/-- The scanner never fails for want of fuel: more fuel than `loads` gives it does not
change what it returns. -/
theorem scanOnce_fuel {fuel : ℕ} {s : List Char} (h : 2 * s.length + 2 ≤ fuel) :
    (scanOnce fuel s : Option (Json F × List Char)) = scanOnce (2 * s.length + 2) s := by
  induction fuel, h using Nat.le_induction with
  | base => rfl
  | succ fuel hle ih => rw [(scan_succ fuel).1 s (by omega), ih]

end Json
