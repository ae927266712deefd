/-
Reading what was printed: `loads (dumps v) = some v` for every well-formed value `v`, and
the printed text is printable ASCII.
-/
import MediawikiCharm.Lib.JsonDict

namespace Json

open PyText

variable {F : Type}

/-! ### String literals -/

lemma hexValue_hexDigit {n : ℕ} (h : n < 16) : hexValue (hexDigit n) = some n := by
  have hall : ∀ i : Fin 16, hexValue (hexDigit i) = some i.val := by decide
  exact hall ⟨n, h⟩

lemma hexCode_hexDigit {n : ℕ} (h : n < 0x10000) :
    hexCode (hexDigit (n / 16 ^ 3 % 16)) (hexDigit (n / 16 ^ 2 % 16)) (hexDigit (n / 16 ^ 1 % 16))
      (hexDigit (n / 16 ^ 0 % 16)) = some n := by
  have hlt (i : ℕ) : n / 16 ^ i % 16 < 16 := Nat.mod_lt _ (by omega)
  simp only [hexCode, hexValue_hexDigit (hlt _), Option.bind_eq_bind, Option.bind_some]
  congr 1
  omega

/-- An escape of four hexadecimal digits is read as its code. -/
lemma scanChars_jsonUnicode {n : ℕ} (h : n < 0x10000) (s : List Char) :
    scanChars (jsonUnicode n ++ s) = (scanChars s).map fun p => (Fin.ofNat _ n :: p.1, p.2) := by
  have htext : jsonUnicode n ++ s = '\\' :: 'u' :: hexDigit (n / 16 ^ 3 % 16) ::
      hexDigit (n / 16 ^ 2 % 16) :: hexDigit (n / 16 ^ 1 % 16) :: hexDigit (n / 16 ^ 0 % 16) ::
      s := rfl
  rw [htext, scanChars, hexCode_hexDigit h]
  cases scanChars s <;> rfl

lemma unescape_jsonEscape {n : ℕ} {e : Char} (h : jsonEscape n = some e) :
    unescape e = some n ∧ e ≠ 'u' := by
  unfold jsonEscape at h
  split_ifs at h <;> obtain rfl := Option.some.inj h <;> subst_vars <;> decide

lemma scanChars_escape {n : ℕ} {e : Char} (h : jsonEscape n = some e) (s : List Char) :
    scanChars ('\\' :: e :: s) = (scanChars s).map fun p => (Fin.ofNat _ n :: p.1, p.2) := by
  obtain ⟨hu, hne⟩ := unescape_jsonEscape h
  rw [scanChars.eq_4 _ _ fun _ _ _ _ _ he => absurd he hne, hu]
  cases scanChars s <;> rfl

/-- The codes that the escapes of a code point stand for. -/
def units (c : PyChar) : PyStr :=
  if c.val < 0x10000 then [c]
  else [Fin.ofNat _ (0xd800 + (c.val - 0x10000) / 0x400),
    Fin.ofNat _ (0xdc00 + (c.val - 0x10000) % 0x400)]

lemma units_jsonEscape {c : PyChar} {e : Char} (h : jsonEscape c.val = some e) :
    units c = [Fin.ofNat _ c.val] := by
  have hlt : c.val < 0x10000 := by
    unfold jsonEscape at h
    split_ifs at h <;> omega
  simp [units, hlt]

lemma ofChar_ofNat {c : PyChar} (h : c.val ≤ 0x7e) : ofChar (Char.ofNat c.val) = c := by
  have hv : c.val.isValidChar := by
    simp only [Nat.isValidChar]
    omega
  apply Fin.ext
  have hof : Char.ofNat c.val = Char.ofNatAux c.val hv := dif_pos hv
  rw [hof]
  rfl

lemma scanChars_jsonChar (c : PyChar) (s : List Char) :
    scanChars (jsonChar c ++ s) = (scanChars s).map fun p => (units c ++ p.1, p.2) := by
  unfold jsonChar
  dsimp only
  split
  · next e he =>
    rw [List.cons_append, List.cons_append, List.nil_append, scanChars_escape he,
      units_jsonEscape he]
    rfl
  · next hnone =>
    split_ifs with hp hb
    · have hq : Char.ofNat c.val ≠ '"' := by
        intro h
        have hc := congrArg ofChar h
        rw [ofChar_ofNat hp.2] at hc
        subst hc
        cases hnone
      have hbs : Char.ofNat c.val ≠ '\\' := by
        intro h
        have hc := congrArg ofChar h
        rw [ofChar_ofNat hp.2] at hc
        subst hc
        cases hnone
      have hn : (Char.ofNat c.val).toNat = c.val := by
        have h := congrArg Fin.val (ofChar_ofNat hp.2)
        simpa [ofChar] using h
      have hlt : c.val < 0x10000 := by omega
      rw [List.cons_append, List.nil_append, scanChars.eq_5 _ _ (fun h => hq h)
        (fun _ _ _ _ _ h => absurd h hbs) (fun _ _ h => absurd h hbs), hn, if_neg (by omega),
        ofChar_ofNat hp.2]
      simp [units, hlt]
    · rw [scanChars_jsonUnicode hb]
      simp [units, hb]
    · have hc := c.isLt
      rw [List.append_assoc, scanChars_jsonUnicode (by omega), scanChars_jsonUnicode (by omega)]
      simp only [units, if_neg hb]
      cases scanChars s <;> rfl

lemma scanChars_jsonText (t : PyStr) (s : List Char) :
    scanChars (t.flatMap jsonChar ++ '"' :: s) = some (t.flatMap units, s) := by
  induction t with
  | nil => rfl
  | cons c t ih =>
    rw [List.flatMap_cons, List.append_assoc, scanChars_jsonChar, ih]
    rfl

/-- A text whose first code cannot complete a pair with `c` keeps its codes behind `c`. -/
lemma joinPairs_cons {c : PyChar} {t : PyStr} (h : ∀ d ∈ t.head?, (isHigh c && isLow d) = false) :
    joinPairs (c :: t) = c :: joinPairs t := by
  cases t with
  | nil => rfl
  | cons d t => rw [joinPairs, h d rfl, if_neg Bool.false_ne_true]

lemma joinPairs_units_pair {c : PyChar} (h : 0x10000 ≤ c.val) (t : PyStr) :
    joinPairs (units c ++ t) = c :: joinPairs t := by
  have hc := c.isLt
  have hn : ¬ c.val < 0x10000 := by omega
  have hh : (Fin.ofNat 0x110000 (0xd800 + (c.val - 0x10000) / 0x400)).val =
      0xd800 + (c.val - 0x10000) / 0x400 := Nat.mod_eq_of_lt (by omega)
  have hl : (Fin.ofNat 0x110000 (0xdc00 + (c.val - 0x10000) % 0x400)).val =
      0xdc00 + (c.val - 0x10000) % 0x400 := Nat.mod_eq_of_lt (by omega)
  have hhigh : isHigh (Fin.ofNat 0x110000 (0xd800 + (c.val - 0x10000) / 0x400)) = true := by
    simp only [isHigh, hh, Bool.and_eq_true, decide_eq_true_eq]
    omega
  have hlow : isLow (Fin.ofNat 0x110000 (0xdc00 + (c.val - 0x10000) % 0x400)) = true := by
    simp only [isLow, hl, Bool.and_eq_true, decide_eq_true_eq]
    omega
  have hjoin : joinPair (Fin.ofNat 0x110000 (0xd800 + (c.val - 0x10000) / 0x400))
      (Fin.ofNat 0x110000 (0xdc00 + (c.val - 0x10000) % 0x400)) = c := by
    apply Fin.ext
    unfold joinPair
    rw [hh, hl]
    exact (Nat.mod_eq_of_lt (by omega)).trans (by omega)
  rw [units, if_neg hn, List.cons_append, List.cons_append, List.nil_append, joinPairs, hhigh,
    hlow, hjoin]
  rfl

lemma head?_flatMap_units {t : PyStr} {d : PyChar} (h : d ∈ (t.flatMap units).head?) :
    (∃ t', t = d :: t') ∨ isLow d = false := by
  cases t with
  | nil => cases h
  | cons c t =>
    by_cases hc : c.val < 0x10000
    · simp only [List.flatMap_cons, units, if_pos hc, List.cons_append, List.head?_cons,
        Option.mem_some_iff] at h
      exact .inl ⟨t, by rw [h]⟩
    · have hlt := c.isLt
      simp only [List.flatMap_cons, units, if_neg hc, List.cons_append, List.head?_cons,
        Option.mem_some_iff] at h
      subst h
      refine .inr ?_
      simp only [isLow, Fin.ofNat, Bool.and_eq_false_iff, decide_eq_false_iff_not]
      omega

/-- Joining the codes of a text without surrogate pairs gives the text back. -/
lemma joinPairs_flatMap_units {t : PyStr} (h : noPair t = true) :
    joinPairs (t.flatMap units) = t := by
  induction t with
  | nil => rfl
  | cons c t ih =>
    have ht : noPair t = true := by
      cases t with
      | nil => rfl
      | cons d t => exact (Bool.and_eq_true_iff.1 h).2
    rw [List.flatMap_cons]
    by_cases hc : c.val < 0x10000
    · have hunits : units c = [c] := by simp [units, hc]
      rw [hunits, List.singleton_append, joinPairs_cons, ih ht]
      intro d hd
      rcases head?_flatMap_units hd with ⟨t', rfl⟩ | hlow
      · exact Bool.not_eq_true' _ ▸ (Bool.and_eq_true_iff.1 h).1
      · rw [hlow, Bool.and_false]
    · rw [joinPairs_units_pair (by omega), ih ht]

/-- A printed text is read back. -/
lemma scanString_jsonText {t : PyStr} (h : noPair t = true) (s : List Char) :
    scanString (t.flatMap jsonChar ++ '"' :: s) = some (t, s) := by
  rw [scanString, scanChars_jsonText, Option.map_some]
  exact congrArg (fun u => some (u, s)) (joinPairs_flatMap_units h)

/-! ### Numbers -/

/-- What follows does not continue a number. -/
def NumberEnd (s : List Char) : Prop :=
  ∀ c ∈ s.head?, c.isDigit = false ∧ c ≠ '.' ∧ c ≠ 'e' ∧ c ≠ 'E'

lemma spanDigits_append {t s : List Char} (ht : ∀ c ∈ t, c.isDigit = true)
    (hs : ∀ c ∈ s.head?, c.isDigit = false) : spanDigits (t ++ s) = (t, s) := by
  have hnil : s.takeWhile Char.isDigit = [] ∧ s.dropWhile Char.isDigit = s := by
    cases s with
    | nil => exact ⟨rfl, rfl⟩
    | cons c s => simp [hs c rfl]
  rw [spanDigits, List.span_eq_takeWhile_dropWhile, List.takeWhile_append_of_pos ht,
    List.dropWhile_append_of_pos ht, hnil.1, hnil.2, List.append_nil]

lemma scanInt_append {t s : List Char} (ht : Number.Digits t) (hz : t.head? = some '0' → t = ['0'])
    (hs : ∀ c ∈ s.head?, c.isDigit = false) : scanInt (t ++ s) = some (t, s) := by
  obtain ⟨hne, hd⟩ := ht
  cases t with
  | nil => exact absurd rfl hne
  | cons c t =>
    by_cases hc : c = '0'
    · subst hc
      have htail : t = [] := by simpa using hz rfl
      rw [htail]
      rfl
    · have h := spanDigits_append hd hs
      rw [List.cons_append] at h ⊢
      rw [scanInt.eq_2 _ fun _ he => hc (List.cons.inj he).1, h, if_neg (by simp)]

lemma scanFrac_append {t s : List Char} (ht : t = [] ∨ ∃ u, Number.Digits u ∧ t = '.' :: u)
    (hs : ∀ c ∈ s.head?, c.isDigit = false ∧ c ≠ '.') : scanFrac (t ++ s) = (t, s) := by
  rcases ht with rfl | ⟨u, hu, rfl⟩
  · rw [List.nil_append, scanFrac.eq_2]
    rintro s' rfl
    exact (hs '.' rfl).2 rfl
  · rw [List.cons_append, scanFrac, spanDigits_append hu.2 fun c hc => (hs c hc).1, if_neg hu.1]

lemma scanSign_append {sign t s : List Char} (hsign : sign = [] ∨ sign = ['+'] ∨ sign = ['-'])
    (ht : Number.Digits t) : scanSign (sign ++ t ++ s) = (sign, t ++ s) := by
  rcases hsign with rfl | rfl | rfl
  · obtain ⟨hne, hd⟩ := ht
    cases t with
    | nil => exact absurd rfl hne
    | cons c t =>
      have hc := hd c List.mem_cons_self
      rw [List.nil_append, List.cons_append, scanSign.eq_3]
      · rintro s' he
        rw [(List.cons.inj he).1] at hc
        exact absurd hc (by decide)
      · rintro s' he
        rw [(List.cons.inj he).1] at hc
        exact absurd hc (by decide)
  · rfl
  · rfl

lemma scanExp_append {t s : List Char}
    (ht : t = [] ∨ ∃ e sign u, (e = 'e' ∨ e = 'E') ∧ (sign = [] ∨ sign = ['+'] ∨ sign = ['-']) ∧
      Number.Digits u ∧ t = e :: (sign ++ u))
    (hs : NumberEnd s) : scanExp (t ++ s) = (t, s) := by
  rcases ht with rfl | ⟨e, sign, u, he, hsign, hu, rfl⟩
  · cases s with
    | nil => rfl
    | cons c s =>
      have hc := hs c rfl
      rw [List.nil_append, scanExp]
      exact if_neg fun h => h.1.elim hc.2.2.1 hc.2.2.2
  · rw [List.cons_append, scanExp, scanSign_append hsign hu]
    dsimp only
    rw [spanDigits_append hu.2 fun c hc => (hs c hc).1, if_pos ⟨he, hu.1⟩]

/-- The text of a number is read back to its parts. -/
lemma scanNumber_text {n : Number} (hn : n.Valid) {s : List Char} (hs : NumberEnd s) :
    scanNumber (n.text ++ s) = some (n, s) := by
  obtain ⟨negative, digits, frac, exp⟩ := n
  have hexp := scanExp_append hn.exp hs
  have hfrac : scanFrac (frac ++ (exp ++ s)) = (frac, exp ++ s) := by
    refine scanFrac_append hn.frac fun c hc => ?_
    rcases hn.exp with rfl | ⟨e, sign, u, he, -, -, rfl⟩
    · exact ⟨(hs c hc).1, (hs c hc).2.1⟩
    · obtain rfl := Option.mem_some_iff.1 hc
      rcases he with rfl | rfl <;> decide
  have hint : scanInt (digits ++ (frac ++ (exp ++ s))) = some (digits, frac ++ (exp ++ s)) := by
    refine scanInt_append hn.int.1 hn.int.2 fun c hc => ?_
    rcases hn.frac with rfl | ⟨u, -, rfl⟩
    · rcases hn.exp with rfl | ⟨e, sign, u, he, -, -, rfl⟩
      · exact (hs c hc).1
      · obtain rfl := Option.mem_some_iff.1 hc
        rcases he with rfl | rfl <;> decide
    · obtain rfl := Option.mem_some_iff.1 hc
      decide
  have hminus : scanMinus ((if negative then ['-'] else []) ++ (digits ++ (frac ++ (exp ++ s)))) =
      (negative, digits ++ (frac ++ (exp ++ s))) := by
    cases negative with
    | true => rfl
    | false =>
      obtain ⟨hne, hd⟩ := hn.int.1
      cases digits with
      | nil => exact absurd rfl hne
      | cons c t =>
        have hc := hd c List.mem_cons_self
        refine scanMinus.eq_2 _ fun s' he => ?_
        rw [(List.cons.inj he).1] at hc
        exact absurd hc (by decide)
  simp only [Number.text, List.append_assoc, scanNumber, hminus, hint, hfrac, hexp]

/-- The parts of the text of an integer. -/
def intNumber (n : ℤ) : Number := { negative := decide (n < 0), int := Nat.toDigits 10 n.natAbs }

lemma text_intNumber (n : ℤ) : (intNumber n).text = intText n := by
  by_cases h : n < 0 <;> simp [intNumber, Number.text, intText, h]

lemma head?_toDigits {n : ℕ} (h : (Nat.toDigits 10 n).head? = some '0') :
    Nat.toDigits 10 n = ['0'] := by
  induction n using Nat.strong_induction_on with
  | _ n ih =>
    rcases Nat.lt_or_ge n 10 with hn | hn
    · rw [Nat.toDigits_of_lt_base hn] at h ⊢
      rw [Option.some.inj h]
    · have hlt : n / 10 < n := by omega
      rw [Nat.toDigits_of_base_le (by omega) hn, List.head?_append_of_ne_nil _ Nat.toDigits_ne_nil]
        at h
      have hq := ih _ hlt h
      have hzero : n / 10 = 0 := by
        have hval := @Nat.ofDigitChars_ten_toDigits (n / 10)
        rw [hq] at hval
        exact hval.symm
      omega

lemma valid_intNumber (n : ℤ) : (intNumber n).Valid where
  int := ⟨⟨Nat.toDigits_ne_nil, fun _ hc => Nat.isDigit_of_mem_toDigits (by omega) (by omega) hc⟩,
    head?_toDigits⟩
  frac := .inl rfl
  exp := .inl rfl

lemma ofNumber_intNumber [FiniteFloat F] (n : ℤ) : (ofNumber (intNumber n) : Json F) = .int n := by
  have hint : ¬ (intNumber n).IsFloat := by simp [Number.IsFloat, intNumber]
  rw [ofNumber, if_neg hint]
  congr 1
  by_cases h : n < 0
  · simp only [intNumber, h, decide_true, if_true, Nat.ofDigitChars_ten_toDigits]
    omega
  · simp only [intNumber, h, decide_false, Bool.false_eq_true, if_false,
      Nat.ofDigitChars_ten_toDigits]
    omega

lemma ofNumber_float [FiniteFloat F] {n : Number} (hn : n.IsFloat) :
    (ofNumber n : Json F) = .float (FiniteFloat.ofText n.text) := if_pos hn

/-! ### Constants and numbers -/

variable [FiniteFloat F]

/-- The text starts with a character other than those in `stops`. -/
def StartsOutside (stops s : List Char) : Prop := ∃ c t, s = c :: t ∧ c ∉ stops

/-- The characters that no constant or number starts with. -/
def atomStops : List Char := ['"', '[', '{', ' ', '\t', '\n', '\r', ']']

/-- The characters that no value starts with. -/
def valueStops : List Char := [' ', '\t', '\n', '\r', ']']

lemma StartsOutside.append {stops s : List Char} (h : StartsOutside stops s) (r : List Char) :
    StartsOutside stops (s ++ r) := by
  obtain ⟨c, t, rfl, hc⟩ := h
  exact ⟨c, t ++ r, rfl, hc⟩

lemma StartsOutside.ne {stops s : List Char} {c : Char} (h : StartsOutside stops s)
    (hc : c ∈ stops) (t : List Char) : s ≠ c :: t := by
  rintro rfl
  obtain ⟨d, u, hdu, hd⟩ := h
  rw [(List.cons.inj hdu).1] at hc
  exact hd hc

lemma StartsOutside.mono {stops stops' s : List Char} (h : StartsOutside stops s)
    (hsub : ∀ c ∈ stops', c ∈ stops) : StartsOutside stops' s := by
  obtain ⟨c, t, rfl, hc⟩ := h
  exact ⟨c, t, rfl, fun h => hc (hsub c h)⟩

/-- A number starts with a digit, perhaps after a sign. -/
lemma exists_text_eq {n : Number} (hn : n.Valid) : ∃ c t, c.isDigit = true ∧
    (n.text = c :: t ∨ n.text = '-' :: c :: t) := by
  obtain ⟨negative, digits, frac, exp⟩ := n
  obtain ⟨hne, hd⟩ := hn.int.1
  cases digits with
  | nil => exact absurd rfl hne
  | cons c t =>
    refine ⟨c, t ++ frac ++ exp, hd c List.mem_cons_self, ?_⟩
    cases negative
    · exact .inl rfl
    · exact .inr rfl

lemma ne_of_isDigit {c d : Char} (hc : c.isDigit = true) (hd : d.isDigit = false) : c ≠ d := by
  rintro rfl
  rw [hc] at hd
  cases hd

lemma startsOutside_text {n : Number} (hn : n.Valid) : StartsOutside atomStops n.text := by
  obtain ⟨c, t, hc, h | h⟩ := exists_text_eq hn
  · refine ⟨c, t, h, fun hmem => ?_⟩
    have hall : atomStops.all (fun d => !d.isDigit) = true := by decide
    exact ne_of_isDigit hc (by simpa using List.all_eq_true.1 hall c hmem) rfl
  · exact ⟨'-', c :: t, h, by decide⟩

lemma scanAtom_text {n : Number} (hn : n.Valid) {s : List Char} (hs : NumberEnd s) :
    scanAtom (n.text ++ s) = some ((ofNumber n : Json F), s) := by
  have hnone : (constants : List (Json F)).find?
      (fun v => (dumps v).isPrefixOf (n.text ++ s)) = none := by
    rw [List.find?_eq_none]
    obtain ⟨c, t, hc, h⟩ := exists_text_eq hn
    have hne (d : Char) (hd : d.isDigit = false) : c ≠ d := ne_of_isDigit hc hd
    have h₁ := hne 'n' (by decide)
    have h₂ := hne 't' (by decide)
    have h₃ := hne 'f' (by decide)
    have h₄ := hne 'N' (by decide)
    have h₅ := hne 'I' (by decide)
    have h₆ := hne '-' (by decide)
    rcases h with h | h <;>
      simp [h, constants, dumps, dumpsWith, floatText, h₁.symm, h₂.symm, h₃.symm, h₄.symm, h₅.symm,
        h₆.symm]
  rw [scanAtom, hnone, scanNumber_text hn hs]
  rfl

lemma scanAtom_int (n : ℤ) {s : List Char} (hs : NumberEnd s) :
    scanAtom (intText n ++ s) = some ((.int n : Json F), s) := by
  rw [← text_intNumber, scanAtom_text (valid_intNumber n) hs, ofNumber_intNumber]

lemma scanAtom_float (x : PyFloat F) {s : List Char} (hs : NumberEnd s) :
    scanAtom (floatText x ++ s) = some ((.float x : Json F), s) := by
  cases x with
  | finite x =>
    obtain ⟨n, hn, hfloat, htext⟩ := FiniteFloat.repr_number x
    have hread := FiniteFloat.ofText_repr x
    rw [htext] at hread
    rw [floatText, htext, scanAtom_text hn hs, ofNumber_float hfloat, hread]
  | nan => rfl
  | inf negative => cases negative <;> rfl

lemma startsOutside_floatText (x : PyFloat F) : StartsOutside atomStops (floatText x) := by
  cases x with
  | finite x =>
    obtain ⟨n, hn, -, htext⟩ := FiniteFloat.repr_number x
    rw [floatText, htext]
    exact startsOutside_text hn
  | nan => exact ⟨'N', _, rfl, by decide⟩
  | inf negative =>
    cases negative
    · exact ⟨'I', _, rfl, by decide⟩
    · exact ⟨'-', _, rfl, by decide⟩

lemma startsOutside_intText (n : ℤ) : StartsOutside atomStops (intText n) := by
  rw [← text_intNumber]
  exact startsOutside_text (valid_intNumber n)

lemma scanOnce_atom {s : List Char} (h : StartsOutside atomStops s) (fuel : ℕ) :
    (scanOnce (fuel + 1) s : Option (Json F × List Char)) = scanAtom s :=
  scanOnce.eq_5 s fuel (fun t => h.ne (by decide) t) (fun t => h.ne (by decide) t)
    fun t => h.ne (by decide) t

lemma skipWs_of_startsOutside {s : List Char} (h : StartsOutside valueStops s) : skipWs s = s := by
  obtain ⟨c, t, rfl, hc⟩ := h
  rw [skipWs, List.dropWhile_cons, if_neg]
  simp only [valueStops, List.mem_cons, not_or] at hc
  simp [hc]

/-! ### Values -/

/-- A separator: the character and what the scanner skips after it. -/
def Separator (c : Char) (sep : List Char) : Prop :=
  (∀ s, skipWs (c :: s) = c :: s) ∧
    ∃ ws, sep = c :: ws ∧ ∀ d ∈ ws, (d == ' ' || d == '\t' || d == '\n' || d == '\r') = true

lemma skipWs_append {ws : List Char}
    (h : ∀ d ∈ ws, (d == ' ' || d == '\t' || d == '\n' || d == '\r') = true) (s : List Char) :
    skipWs (ws ++ s) = skipWs s := by
  induction ws with
  | nil => rfl
  | cons c ws ih =>
    rw [skipWs, List.cons_append, List.dropWhile_cons, if_pos (h c List.mem_cons_self)]
    exact ih fun d hd => h d (List.mem_cons_of_mem _ hd)

lemma Separator.skipWs {c : Char} {sep : List Char} (h : Separator c sep) (s : List Char) :
    ∃ r, Json.skipWs (sep ++ s) = c :: r ∧ Json.skipWs r = Json.skipWs s := by
  obtain ⟨hc, ws, rfl, hws⟩ := h
  exact ⟨ws ++ s, hc _, skipWs_append hws s⟩

lemma Separator.cons {c : Char} {sep : List Char} (h : Separator c sep) (s : List Char) :
    ∃ r, sep ++ s = c :: r := by
  obtain ⟨-, ws, rfl, -⟩ := h
  exact ⟨ws ++ s, rfl⟩

lemma separator_singleton {c : Char} (h : c ∉ valueStops) : Separator c [c] :=
  ⟨fun s => skipWs_of_startsOutside ⟨c, s, rfl, h⟩, [], rfl, nofun⟩

lemma separator_space {c : Char} (h : c ∉ valueStops) : Separator c [c, ' '] :=
  ⟨fun s => skipWs_of_startsOutside ⟨c, s, rfl, h⟩, [' '], rfl, by simp⟩

variable {item key : List Char}

lemma startsOutside_dumpsWith (v : Json F) : StartsOutside valueStops (dumpsWith item key v) := by
  have hsub : valueStops ⊆ atomStops := by decide
  cases v with
  | null => exact ⟨'n', _, rfl, by decide⟩
  | bool b =>
    cases b
    · exact ⟨'f', _, rfl, by decide⟩
    · exact ⟨'t', _, rfl, by decide⟩
  | int n => exact (startsOutside_intText n).mono hsub
  | float x => exact (startsOutside_floatText x).mono hsub
  | str t => exact ⟨'"', _, rfl, by decide⟩
  | arr xs => exact ⟨'[', _, rfl, by decide⟩
  | obj ms => exact ⟨'{', _, rfl, by decide⟩

/-- A printed constant or number is read back. -/
lemma scanOnce_dumps_atom {v : Json F} (hv : ∀ t xs ms, v ≠ .str t ∧ v ≠ .arr xs ∧ v ≠ .obj ms)
    {s : List Char} (hs : NumberEnd s) (fuel : ℕ) :
    scanOnce (fuel + 1) (dumpsWith item key v ++ s) = some (v, s) := by
  have hatom {t : List Char} (ht : StartsOutside atomStops t)
      (h : scanAtom (t ++ s) = some (v, s)) : scanOnce (fuel + 1) (t ++ s) = some (v, s) := by
    rw [scanOnce_atom (ht.append s), h]
  cases v with
  | null => exact hatom ⟨'n', _, rfl, by decide⟩ rfl
  | bool b =>
    cases b
    · exact hatom ⟨'f', _, rfl, by decide⟩ rfl
    · exact hatom ⟨'t', _, rfl, by decide⟩ rfl
  | int n => exact hatom (startsOutside_intText n) (scanAtom_int n hs)
  | float x => exact hatom (startsOutside_floatText x) (scanAtom_float x hs)
  | str t => exact absurd rfl (hv t [] []).1
  | arr xs => exact absurd rfl (hv [] xs []).2.1
  | obj ms => exact absurd rfl (hv [] [] ms).2.2

lemma numberEnd_cons {c : Char} {s : List Char} (h : c ∈ [',', ']', '}']) :
    NumberEnd (c :: s) := by
  intro d hd
  obtain rfl := Option.mem_some_iff.1 hd
  have hall : [',', ']', '}'].all
      (fun c => !c.isDigit && c != '.' && c != 'e' && c != 'E') = true := by
    decide
  simpa [and_assoc] using List.all_eq_true.1 hall _ h

lemma Separator.numberEnd (h : Separator ',' item) (s : List Char) : NumberEnd (item ++ s) := by
  obtain ⟨r, hr⟩ := h.cons s
  rw [hr]
  exact numberEnd_cons (by decide)

lemma Separator.length_pos {c : Char} {sep : List Char} (h : Separator c sep) :
    0 < sep.length := by
  obtain ⟨-, ws, rfl, -⟩ := h
  exact Nat.succ_pos _

lemma startsOutside_dumpsItems {xs : List (Json F)} (hxs : xs ≠ []) :
    StartsOutside valueStops (dumpsItems item key xs) := by
  match xs, hxs with
  | [x], _ => exact (startsOutside_dumpsWith x).append _
  | x :: y :: xs, _ => exact ((startsOutside_dumpsWith x).append _).append _

lemma startsOutside_dumpsMembers {ms : List (PyStr × Json F)} (hms : ms ≠ []) :
    ∃ t, dumpsMembers item key ms = '"' :: t := by
  match ms, hms with
  | [(k, x)], _ => exact ⟨_, rfl⟩
  | (k, x) :: m :: ms, _ => exact ⟨_, rfl⟩

mutual

/-- A printed value is read back, whatever follows it. -/
lemma scanOnce_dumpsWith (hi : Separator ',' item) (hk : Separator ':' key) (v : Json F)
    (hv : wellFormed v = true) (s : List Char) (hs : NumberEnd s) (fuel : ℕ)
    (hf : (dumpsWith item key v).length ≤ fuel) :
    scanOnce fuel (dumpsWith item key v ++ s) = some (v, s) := by
  obtain ⟨fuel, rfl⟩ : ∃ n, fuel = n + 1 := by
    have hopen : StartsOutside valueStops (dumpsWith item key v) := startsOutside_dumpsWith v
    obtain ⟨c, t, hct, -⟩ := hopen
    rw [hct, List.length_cons] at hf
    exact ⟨fuel - 1, by omega⟩
  match v, hv with
  | .null, _ | .bool _, _ | .int _, _ | .float _, _ =>
    exact scanOnce_dumps_atom (by simp) hs fuel
  | .str t, hv =>
    have htext : dumpsWith item key (.str t : Json F) ++ s =
        '"' :: (t.flatMap jsonChar ++ '"' :: s) := by
      simp [dumpsWith, jsonText]
    rw [htext, scanOnce, scanString_jsonText hv]
    rfl
  | .arr [], _ => rfl
  | .arr (x :: xs), hv =>
    have hopen : StartsOutside valueStops (dumpsItems item key (x :: xs) ++ s) :=
      (startsOutside_dumpsItems (List.cons_ne_nil x xs)).append s
    have hlen : (dumpsItems item key (x :: xs)).length ≤ fuel := by
      simp only [dumpsWith, List.length_cons] at hf
      omega
    have htext : dumpsWith item key (.arr (x :: xs)) ++ s =
        '[' :: (dumpsItems item key (x :: xs) ++ s) := rfl
    rw [htext, scanOnce, skipWs_of_startsOutside hopen]
    split
    · next r hr => exact absurd hr (hopen.ne (by decide) r)
    · rw [scanItems_dumpsItems hi hk (x :: xs) (List.cons_ne_nil x xs) hv s fuel hlen]
      rfl
  | .obj [], _ => rfl
  | .obj (m :: ms), hv =>
    obtain ⟨t, ht⟩ : ∃ t, dumpsMembers item key (m :: ms) = '"' :: t :=
      startsOutside_dumpsMembers (List.cons_ne_nil m ms)
    have hlen : (dumpsMembers item key (m :: ms)).length ≤ fuel := by
      simp only [dumpsWith, List.length_cons] at hf
      omega
    have htext : dumpsWith item key (.obj (m :: ms)) ++ s =
        '{' :: (dumpsMembers item key (m :: ms) ++ s) := rfl
    have hskip : skipWs (dumpsMembers item key (m :: ms) ++ s) =
        dumpsMembers item key (m :: ms) ++ s := by
      rw [ht]
      rfl
    rw [htext, scanOnce, hskip]
    split
    · next r hr =>
      rw [ht] at hr
      cases hr
    · rw [scanMembers_dumpsMembers hi hk (m :: ms) (List.cons_ne_nil m ms) hv [] (fun _ _ => rfl) s
        fuel hlen]
      rfl

lemma scanItems_dumpsItems (hi : Separator ',' item) (hk : Separator ':' key) (xs : List (Json F))
    (hne : xs ≠ []) (hxs : wellFormedItems xs = true) (s : List Char) (fuel : ℕ)
    (hf : (dumpsItems item key xs).length ≤ fuel) :
    scanItems fuel (dumpsItems item key xs ++ s) = some (xs, s) := by
  match xs, hne, hxs with
  | [x], _, hxs =>
    have hx : wellFormed x = true := (Bool.and_eq_true_iff.1 hxs).1
    have htext : dumpsItems item key [x] ++ s = dumpsWith item key x ++ ']' :: s := by
      simp [dumpsItems]
    obtain ⟨fuel, rfl, hlen⟩ : ∃ n, fuel = n + 1 ∧ (dumpsWith item key x).length ≤ n := by
      simp only [dumpsItems, List.length_append, List.length_singleton] at hf
      exact ⟨fuel - 1, by omega, by omega⟩
    rw [htext, scanItems, scanOnce_dumpsWith hi hk x hx _ (numberEnd_cons (by decide)) fuel hlen]
    rfl
  | x :: y :: xs, _, hxs =>
    obtain ⟨hx, hxs⟩ := Bool.and_eq_true_iff.1 hxs
    have hpos := hi.length_pos
    have htext : dumpsItems item key (x :: y :: xs) ++ s =
        dumpsWith item key x ++ (item ++ (dumpsItems item key (y :: xs) ++ s)) := by
      simp [dumpsItems]
    obtain ⟨fuel, rfl, hlen, hlen'⟩ : ∃ n, fuel = n + 1 ∧ (dumpsWith item key x).length ≤ n ∧
        (dumpsItems item key (y :: xs)).length ≤ n := by
      rw [dumpsItems] at hf
      simp only [List.length_append] at hf
      exact ⟨fuel - 1, by omega, by omega, by omega⟩
    have hopen : StartsOutside valueStops (dumpsItems item key (y :: xs) ++ s) :=
      (startsOutside_dumpsItems (List.cons_ne_nil y xs)).append s
    obtain ⟨r, hcomma, hr⟩ := hi.skipWs (dumpsItems item key (y :: xs) ++ s)
    rw [htext, scanItems, scanOnce_dumpsWith hi hk x hx _ (hi.numberEnd _) fuel hlen]
    simp only [hcomma, hr, skipWs_of_startsOutside hopen]
    rw [scanItems_dumpsItems hi hk (y :: xs) (List.cons_ne_nil y xs) hxs s fuel hlen']
    rfl

lemma scanMembers_dumpsMembers (hi : Separator ',' item) (hk : Separator ':' key)
    (ms : List (PyStr × Json F)) (hne : ms ≠ [])
    (hms : wellFormedMembers ms = true) (acc : List (PyStr × Json F))
    (hacc : ∀ m ∈ ms, acc.lookup m.1 = none) (s : List Char) (fuel : ℕ)
    (hf : (dumpsMembers item key ms).length ≤ fuel) :
    scanMembers fuel acc (dumpsMembers item key ms ++ s) = some (acc ++ ms, s) := by
  match ms, hne, hms with
  | [(k, x)], _, hms =>
    obtain ⟨⟨⟨hkey, -⟩, hx⟩, -⟩ := wellFormedMembers_cons.1 hms
    have htext : dumpsMembers item key [(k, x)] ++ s =
        '"' :: (k.flatMap jsonChar ++ '"' :: (key ++ (dumpsWith item key x ++ '}' :: s))) := by
      simp [dumpsMembers, jsonText]
    obtain ⟨fuel, rfl, hlen⟩ : ∃ n, fuel = n + 1 ∧ (dumpsWith item key x).length ≤ n := by
      simp only [dumpsMembers, List.length_append, List.length_singleton] at hf
      exact ⟨fuel - 1, by omega, by omega⟩
    obtain ⟨r, hcolon, hr⟩ := hk.skipWs (dumpsWith item key x ++ '}' :: s)
    rw [htext, scanMembers, scanString_jsonText hkey]
    simp only [hcolon, hr, skipWs_of_startsOutside ((startsOutside_dumpsWith x).append _)]
    rw [scanOnce_dumpsWith hi hk x hx _ (numberEnd_cons (by decide)) fuel hlen]
    have hbrace : skipWs ('}' :: s) = '}' :: s := rfl
    simp only [hbrace]
    rw [insert_of_lookup_eq_none (hacc _ List.mem_cons_self)]
  | (k, x) :: m :: ms, _, hms =>
    obtain ⟨⟨⟨hkey, hnew⟩, hx⟩, hms⟩ := wellFormedMembers_cons.1 hms
    have hpos := hi.length_pos
    have htext : dumpsMembers item key ((k, x) :: m :: ms) ++ s =
        '"' :: (k.flatMap jsonChar ++ '"' :: (key ++ (dumpsWith item key x ++ (item ++
          (dumpsMembers item key (m :: ms) ++ s))))) := by
      simp [dumpsMembers, jsonText]
    obtain ⟨fuel, rfl, hlen, hlen'⟩ : ∃ n, fuel = n + 1 ∧ (dumpsWith item key x).length ≤ n ∧
        (dumpsMembers item key (m :: ms)).length ≤ n := by
      rw [dumpsMembers] at hf
      simp only [List.length_append] at hf
      exact ⟨fuel - 1, by omega, by omega, by omega⟩
    generalize hrest : dumpsMembers item key (m :: ms) ++ s = rest at htext
    have hskip : skipWs rest = rest := by
      obtain ⟨t, ht⟩ : ∃ t, dumpsMembers item key (m :: ms) = '"' :: t :=
        startsOutside_dumpsMembers (List.cons_ne_nil m ms)
      rw [← hrest, ht]
      rfl
    obtain ⟨r, hcolon, hr⟩ := hk.skipWs (dumpsWith item key x ++ (item ++ rest))
    obtain ⟨r', hcomma, hr'⟩ := hi.skipWs rest
    rw [htext, scanMembers, scanString_jsonText hkey]
    simp only [hcolon, hr, skipWs_of_startsOutside ((startsOutside_dumpsWith x).append _)]
    rw [scanOnce_dumpsWith hi hk x hx _ (hi.numberEnd _) fuel hlen]
    simp only [hcomma, hr', hskip]
    rw [insert_of_lookup_eq_none (hacc _ List.mem_cons_self), ← hrest,
      scanMembers_dumpsMembers hi hk (m :: ms) (List.cons_ne_nil m ms) hms (acc ++ [(k, x)])
        (fun m' hm' => lookup_append_singleton (hacc _ (List.mem_cons_of_mem _ hm'))
          (ne_of_lookup_eq_none hnew hm')) s fuel hlen', List.append_assoc]
    rfl

end

/-- A value printed with separators of a comma and a colon is read back. -/
theorem loads_dumpsWith (hi : Separator ',' item) (hk : Separator ':' key) {v : Json F}
    (hv : wellFormed v = true) : loads (dumpsWith item key v) = some v := by
  have hend : NumberEnd [] := fun _ h => by cases h
  have hread := scanOnce_dumpsWith hi hk v hv [] hend (2 * (dumpsWith item key v).length + 2)
    (by omega)
  rw [List.append_nil] at hread
  rw [loads, skipWs_of_startsOutside (startsOutside_dumpsWith v), hread]
  rfl

/-- A printed value is read back. -/
theorem loads_dumps {v : Json F} (hv : wellFormed v = true) : loads (dumps v) = some v :=
  loads_dumpsWith (separator_space (by decide)) (separator_space (by decide)) hv

/-! ### The printed text is ASCII -/

/-- Every character is printable ASCII. -/
def Printable (t : List Char) : Prop := ∀ c ∈ t, 0x20 ≤ c.toNat ∧ c.toNat ≤ 0x7e

/-- The literals are checked one character at a time. -/
lemma printable_of_all {t : List Char}
    (h : (t.all fun c => decide (0x20 ≤ c.toNat) && decide (c.toNat ≤ 0x7e)) = true) :
    Printable t := by
  intro c hc
  simpa using List.all_eq_true.1 h c hc

lemma Printable.append {t u : List Char} (ht : Printable t) (hu : Printable u) :
    Printable (t ++ u) := by
  intro c hc
  rcases List.mem_append.1 hc with hc | hc
  · exact ht c hc
  · exact hu c hc

lemma Printable.cons {c : Char} {t : List Char} (hc : 0x20 ≤ c.toNat ∧ c.toNat ≤ 0x7e)
    (ht : Printable t) : Printable (c :: t) := by
  intro d hd
  rcases List.mem_cons.1 hd with rfl | hd
  · exact hc
  · exact ht d hd

lemma printable_hexDigit {n : ℕ} (h : n < 16) :
    0x20 ≤ (hexDigit n).toNat ∧ (hexDigit n).toNat ≤ 0x7e := by
  have hall : ∀ i : Fin 16, 0x20 ≤ (hexDigit i).toNat ∧ (hexDigit i).toNat ≤ 0x7e := by decide
  exact hall ⟨n, h⟩

lemma printable_jsonUnicode (n : ℕ) : Printable (jsonUnicode n) := by
  refine .cons (by decide) (.cons (by decide) fun c hc => ?_)
  obtain ⟨i, -, rfl⟩ := List.mem_map.1 hc
  exact printable_hexDigit (Nat.mod_lt _ (by omega))

lemma printable_jsonChar (c : PyChar) : Printable (jsonChar c) := by
  unfold jsonChar
  dsimp only
  split
  · next e he =>
    refine .cons (by decide) (.cons ?_ nofun)
    unfold jsonEscape at he
    split_ifs at he <;> obtain rfl := Option.some.inj he <;> decide
  · split_ifs with hp hb
    · have hn : (Char.ofNat c.val).toNat = c.val := by
        have h := congrArg Fin.val (ofChar_ofNat hp.2)
        simpa [ofChar] using h
      exact .cons (by omega) nofun
    · exact printable_jsonUnicode _
    · exact (printable_jsonUnicode _).append (printable_jsonUnicode _)

lemma printable_jsonText (t : PyStr) : Printable (jsonText t) := by
  refine Printable.append (.cons (by decide) fun c hc => ?_) (.cons (by decide) nofun)
  obtain ⟨d, -, hd⟩ := List.mem_flatMap.1 hc
  exact printable_jsonChar d c hd

lemma printable_digits {t : List Char} (ht : ∀ c ∈ t, c.isDigit = true) : Printable t := by
  intro c hc
  have h := ht c hc
  simp only [Char.isDigit, Bool.and_eq_true, decide_eq_true_eq, ge_iff_le, UInt32.le_iff_toNat_le]
    at h
  have h₁ : (48 : ℕ) ≤ c.toNat := h.1
  have h₂ : c.toNat ≤ 57 := h.2
  omega

lemma printable_text {n : Number} (hn : n.Valid) : Printable n.text := by
  have hminus : Printable (if n.negative then ['-'] else []) := by
    cases n.negative
    · exact nofun
    · exact .cons (by decide) nofun
  have hfrac : Printable n.frac := by
    rcases hn.frac with h | ⟨t, ht, h⟩ <;> rw [h]
    · exact nofun
    · exact .cons (by decide) (printable_digits ht.2)
  have hexp : Printable n.exp := by
    rcases hn.exp with h | ⟨e, sign, t, he, hsign, ht, h⟩ <;> rw [h]
    · exact nofun
    · refine .cons ?_ (Printable.append ?_ (printable_digits ht.2))
      · rcases he with rfl | rfl <;> decide
      · rcases hsign with rfl | rfl | rfl
        · exact nofun
        · exact .cons (by decide) nofun
        · exact .cons (by decide) nofun
  exact ((hminus.append (printable_digits hn.int.1.2)).append hfrac).append hexp

lemma printable_floatText (x : PyFloat F) : Printable (floatText x) := by
  cases x with
  | finite x =>
    obtain ⟨n, hn, -, htext⟩ := FiniteFloat.repr_number x
    have h := printable_text hn
    rw [← htext] at h
    exact h
  | nan => exact printable_of_all rfl
  | inf negative => cases negative <;> exact printable_of_all rfl

mutual

lemma printable_dumpsWith (hi : Printable item) (hk : Printable key) (v : Json F) :
    Printable (dumpsWith item key v) := by
  match v with
  | .null => exact printable_of_all rfl
  | .bool true => exact printable_of_all rfl
  | .bool false => exact printable_of_all rfl
  | .int n =>
    rw [dumpsWith, ← text_intNumber]
    exact printable_text (valid_intNumber n)
  | .float x =>
    rw [dumpsWith]
    exact printable_floatText x
  | .str t =>
    rw [dumpsWith]
    exact printable_jsonText t
  | .arr xs =>
    rw [dumpsWith]
    exact .cons (by decide) (printable_dumpsItems hi hk xs)
  | .obj ms =>
    rw [dumpsWith]
    exact .cons (by decide) (printable_dumpsMembers hi hk ms)

lemma printable_dumpsItems (hi : Printable item) (hk : Printable key) (xs : List (Json F)) :
    Printable (dumpsItems item key xs) := by
  match xs with
  | [] => exact printable_of_all rfl
  | [x] =>
    rw [dumpsItems]
    exact (printable_dumpsWith hi hk x).append (printable_of_all rfl)
  | x :: y :: xs =>
    rw [dumpsItems]
    exact ((printable_dumpsWith hi hk x).append hi).append
      (printable_dumpsItems hi hk (y :: xs))

lemma printable_dumpsMembers (hi : Printable item) (hk : Printable key)
    (ms : List (PyStr × Json F)) :
    Printable (dumpsMembers item key ms) := by
  match ms with
  | [] => exact printable_of_all rfl
  | [(k, x)] =>
    rw [dumpsMembers]
    exact (((printable_jsonText k).append hk).append
      (printable_dumpsWith hi hk x)).append (printable_of_all rfl)
  | (k, x) :: m :: ms =>
    rw [dumpsMembers]
    exact ((((printable_jsonText k).append hk).append
      (printable_dumpsWith hi hk x)).append hi).append
      (printable_dumpsMembers hi hk (m :: ms))

end

/-- A printed value is printable ASCII. -/
theorem printable_dumps (v : Json F) : Printable (dumps v) :=
  printable_dumpsWith (printable_of_all rfl) (printable_of_all rfl) v

end Json
