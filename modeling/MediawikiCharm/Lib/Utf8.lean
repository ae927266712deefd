/-
UTF-8 with `surrogateescape`, as Python decodes and encodes it.

A byte that belongs to no character is decoded to a lone surrogate from U+DC80 to U+DCFF, and
the encoder turns that back into the byte.  A character begins at a byte that occurs nowhere
else in a character, so that no malformed sequence can hide one that follows it.  Hence decoded
bytes are synchronised with all words that have no lone surrogate.
-/
import MediawikiCharm.Lib.Encoding
import MediawikiCharm.Lib.PyText

namespace PyText

/-! ### Decoding -/

/-- A byte that continues a character. -/
def isContinuation (b : UInt8) : Bool := 0x80 ≤ b.toNat && b.toNat ≤ 0xbf

/-- The character that two bytes stand for. -/
def twoBytes (a b : UInt8) : Option ℕ :=
  if 0xc2 ≤ a.toNat ∧ a.toNat ≤ 0xdf ∧ isContinuation b then
    some ((a.toNat - 0xc0) * 0x40 + (b.toNat - 0x80))
  else none

/-- The character that three bytes stand for: no shorter one and no surrogate. -/
def threeBytes (a b c : UInt8) : Option ℕ :=
  if (0xe0 ≤ a.toNat ∧ a.toNat ≤ 0xef) ∧ (isContinuation b ∧ isContinuation c) ∧
      (a.toNat = 0xe0 → 0xa0 ≤ b.toNat) ∧ (a.toNat = 0xed → b.toNat < 0xa0) then
    some (((a.toNat - 0xe0) * 0x40 + (b.toNat - 0x80)) * 0x40 + (c.toNat - 0x80))
  else none

/-- The character that four bytes stand for: no shorter one and none beyond U+10FFFF. -/
def fourBytes (a b c d : UInt8) : Option ℕ :=
  if (0xf0 ≤ a.toNat ∧ a.toNat ≤ 0xf4) ∧
      (isContinuation b ∧ isContinuation c ∧ isContinuation d) ∧
      (a.toNat = 0xf0 → 0x90 ≤ b.toNat) ∧ (a.toNat = 0xf4 → b.toNat < 0x90) then
    some ((((a.toNat - 0xf0) * 0x40 + (b.toNat - 0x80)) * 0x40 + (c.toNat - 0x80)) * 0x40 +
      (d.toNat - 0x80))
  else none

/-- The code of the character that the bytes begin with. -/
def firstCode : List UInt8 → Option ℕ
  | [] => none
  | [a] => if a.toNat < 0x80 then some a.toNat else none
  | [a, b] => if a.toNat < 0x80 then some a.toNat else twoBytes a b
  | [a, b, c] => if a.toNat < 0x80 then some a.toNat else (twoBytes a b).or (threeBytes a b c)
  | a :: b :: c :: d :: _ =>
    if a.toNat < 0x80 then some a.toNat
    else ((twoBytes a b).or (threeBytes a b c)).or (fourBytes a b c d)

/-- The character that the bytes begin with. -/
def decodeFirst (s : List UInt8) : Option PyChar := (firstCode s).map (Fin.ofNat _)

/-- The lone surrogate that stands for a byte. -/
def escapeByte (b : UInt8) : PyChar := Fin.ofNat _ (0xdc00 + b.toNat)

/-- Decode the bytes, the first `skip` of which belong to a character that was decoded. -/
def decodeFrom : ℕ → List UInt8 → PyStr
  | _, [] => []
  | skip + 1, _ :: s => decodeFrom skip s
  | 0, a :: s =>
    match decodeFirst (a :: s) with
    | some c => c :: decodeFrom ((encodeChar c).length - 1) s
    | none => escapeByte a :: decodeFrom 0 s

/-- `b.decode("utf-8", errors="surrogateescape")`.  The bytes of a malformed sequence are all
escaped: those behind its first cannot begin a character. -/
def decodeEscaped (b : List UInt8) : PyStr := decodeFrom 0 b

/-! ### Encoding -/

/-- A surrogate that stands for a byte. -/
def isEscapedByte (c : PyChar) : Bool := 0xdc80 ≤ c.val && c.val ≤ 0xdcff

/-- The bytes of a code point, where a surrogate may stand for a byte. -/
def encodeCharEscaped (c : PyChar) : List UInt8 :=
  if isEscapedByte c then [.ofNat (c.val - 0xdc00)] else encodeChar c

/-- `s.encode("utf-8", errors="surrogateescape")`, or `none` where that raises
`UnicodeEncodeError`. -/
def encodeEscaped (s : PyStr) : Option (List UInt8) :=
  if s.any fun c => isSurrogate c && !isEscapedByte c then none
  else some (s.flatMap encodeCharEscaped)

/-! ### Characters and their bytes -/

lemma toNat_ofNat {n : ℕ} (h : n < 0x100) : (UInt8.ofNat n).toNat = n := by
  rw [UInt8.toNat_ofNat']
  exact Nat.mod_eq_of_lt h

lemma toNat_lt (b : UInt8) : b.toNat < 0x100 := UInt8.toNat_lt b

lemma twoBytes_eq_some_iff {a b : UInt8} {n : ℕ} : twoBytes a b = some n ↔
    (0x80 ≤ n ∧ n < 0x800) ∧ a.toNat = 0xc0 + n / 0x40 ∧ b.toNat = 0x80 + n % 0x40 := by
  unfold twoBytes isContinuation
  split_ifs with h
  · simp only [Bool.and_eq_true, decide_eq_true_eq] at h
    rw [Option.some.injEq]
    omega
  · simp only [Bool.and_eq_true, decide_eq_true_eq] at h
    refine iff_of_false nofun fun hn => h ?_
    omega

lemma threeBytes_eq_some_iff {a b c : UInt8} {n : ℕ} : threeBytes a b c = some n ↔
    (0x800 ≤ n ∧ n < 0x10000 ∧ ¬ (0xd800 ≤ n ∧ n ≤ 0xdfff)) ∧ a.toNat = 0xe0 + n / 0x1000 ∧
      b.toNat = 0x80 + n / 0x40 % 0x40 ∧ c.toNat = 0x80 + n % 0x40 := by
  unfold threeBytes isContinuation
  split_ifs with h
  · simp only [Bool.and_eq_true, decide_eq_true_eq] at h
    rw [Option.some.injEq]
    omega
  · simp only [Bool.and_eq_true, decide_eq_true_eq] at h
    refine iff_of_false nofun fun hn => h ?_
    omega

lemma fourBytes_eq_some_iff {a b c d : UInt8} {n : ℕ} : fourBytes a b c d = some n ↔
    (0x10000 ≤ n ∧ n < 0x110000) ∧ a.toNat = 0xf0 + n / 0x40000 ∧
      b.toNat = 0x80 + n / 0x1000 % 0x40 ∧ c.toNat = 0x80 + n / 0x40 % 0x40 ∧
      d.toNat = 0x80 + n % 0x40 := by
  unfold fourBytes isContinuation
  split_ifs with h
  · simp only [Bool.and_eq_true, decide_eq_true_eq] at h
    rw [Option.some.injEq]
    omega
  · simp only [Bool.and_eq_true, decide_eq_true_eq] at h
    refine iff_of_false nofun fun hn => h ?_
    omega

lemma twoBytes_eq_none {a b : UInt8} (h : a.toNat < 0xc0 ∨ 0xe0 ≤ a.toNat) :
    twoBytes a b = none := by
  refine if_neg fun hc => ?_
  omega

lemma threeBytes_eq_none {a b c : UInt8} (h : a.toNat < 0xe0 ∨ 0xf0 ≤ a.toNat) :
    threeBytes a b c = none := by
  refine if_neg fun hc => ?_
  omega

/-- The bytes begin with the character of code `n`. -/
def BeginsWith (n : ℕ) (s : List UInt8) : Prop :=
  (∃ a r, s = a :: r ∧ n < 0x80 ∧ a.toNat = n) ∨
  (∃ a b r, s = a :: b :: r ∧ twoBytes a b = some n) ∨
  (∃ a b c r, s = a :: b :: c :: r ∧ threeBytes a b c = some n) ∨
  (∃ a b c d r, s = a :: b :: c :: d :: r ∧ fourBytes a b c d = some n)

lemma firstCode_eq_some_iff {n : ℕ} (s : List UInt8) : firstCode s = some n ↔ BeginsWith n s := by
  have hthree : ∀ {a b c : UInt8}, threeBytes a b c = some n → twoBytes a b = none := by
    intro a b c h
    have := threeBytes_eq_some_iff.1 h
    exact twoBytes_eq_none (by omega)
  have hfour : ∀ {a b c d : UInt8}, fourBytes a b c d = some n →
      twoBytes a b = none ∧ threeBytes a b c = none := by
    intro a b c d h
    have := fourBytes_eq_some_iff.1 h
    exact ⟨twoBytes_eq_none (by omega), threeBytes_eq_none (by omega)⟩
  constructor
  · intro h
    unfold firstCode at h
    split at h
    · exact absurd h nofun
    · split_ifs at h with ha
      exact .inl ⟨_, _, rfl, by grind⟩
    · split_ifs at h with ha
      · exact .inl ⟨_, _, rfl, by grind⟩
      · exact .inr (.inl ⟨_, _, _, rfl, h⟩)
    · split_ifs at h with ha
      · exact .inl ⟨_, _, rfl, by grind⟩
      · rcases Option.or_eq_some_iff.1 h with h | ⟨-, h⟩
        · exact .inr (.inl ⟨_, _, _, rfl, h⟩)
        · exact .inr (.inr (.inl ⟨_, _, _, _, rfl, h⟩))
    · split_ifs at h with ha
      · exact .inl ⟨_, _, rfl, by grind⟩
      · rcases Option.or_eq_some_iff.1 h with h | ⟨-, h⟩
        · rcases Option.or_eq_some_iff.1 h with h | ⟨-, h⟩
          · exact .inr (.inl ⟨_, _, _, rfl, h⟩)
          · exact .inr (.inr (.inl ⟨_, _, _, _, rfl, h⟩))
        · exact .inr (.inr (.inr ⟨_, _, _, _, _, rfl, h⟩))
  · rintro (⟨a, r, rfl, hn, rfl⟩ | ⟨a, b, r, rfl, h⟩ | ⟨a, b, c, r, rfl, h⟩ | ⟨a, b, c, d, r, rfl, h⟩)
    · rcases r with _ | ⟨b, _ | ⟨c, _ | ⟨d, r⟩⟩⟩ <;> exact if_pos hn
    · have hcode := twoBytes_eq_some_iff.1 h
      have ha : ¬ a.toNat < 0x80 := by omega
      rcases r with _ | ⟨c, _ | ⟨d, r⟩⟩ <;> simp [firstCode, ha, h]
    · have hcode := threeBytes_eq_some_iff.1 h
      have ha : ¬ a.toNat < 0x80 := by omega
      rcases r with _ | ⟨d, r⟩ <;> simp [firstCode, ha, h, hthree h]
    · have hcode := fourBytes_eq_some_iff.1 h
      have ha : ¬ a.toNat < 0x80 := by omega
      simp [firstCode, ha, h, (hfour h).1, (hfour h).2]

lemma isSurrogate_eq_false_iff {c : PyChar} :
    isSurrogate c = false ↔ ¬ (0xd800 ≤ c.val ∧ c.val ≤ 0xdfff) := by
  simp [isSurrogate]

/-- The bytes begin with a character exactly when they begin with its encoding. -/
lemma beginsWith_iff {c : PyChar} {s : List UInt8} :
    BeginsWith c.val s ↔ isSurrogate c = false ∧ encodeChar c <+: s := by
  have hc := c.isLt
  rw [isSurrogate_eq_false_iff]
  unfold encodeChar BeginsWith
  simp only [twoBytes_eq_some_iff, threeBytes_eq_some_iff, fourBytes_eq_some_iff]
  constructor
  · rintro (⟨a, r, rfl, hn, ha⟩ | ⟨a, b, r, rfl, hn, ha, hb⟩ | ⟨a, b, c', r, rfl, hn, ha, hb, hc'⟩ |
      ⟨a, b, c', d, r, rfl, hn, ha, hb, hc', hd⟩)
    · rw [if_pos hn, ← ha, UInt8.ofNat_toNat]
      exact ⟨by omega, r, rfl⟩
    · rw [if_neg (by omega), if_pos hn.2, ← ha, ← hb, UInt8.ofNat_toNat, UInt8.ofNat_toNat]
      exact ⟨by omega, r, rfl⟩
    · rw [if_neg (by omega), if_neg (by omega), if_pos hn.2.1, ← ha, ← hb, ← hc',
        UInt8.ofNat_toNat, UInt8.ofNat_toNat, UInt8.ofNat_toNat]
      exact ⟨hn.2.2, r, rfl⟩
    · rw [if_neg (by omega), if_neg (by omega), if_neg (by omega), ← ha, ← hb, ← hc', ← hd,
        UInt8.ofNat_toNat, UInt8.ofNat_toNat, UInt8.ofNat_toNat, UInt8.ofNat_toNat]
      exact ⟨by omega, r, rfl⟩
  · split_ifs with h₁ h₂ h₃
    · rintro ⟨-, r, rfl⟩
      exact .inl ⟨_, r, rfl, h₁, toNat_ofNat (by omega)⟩
    · rintro ⟨-, r, rfl⟩
      refine .inr (.inl ⟨_, _, r, rfl, by omega, ?_, ?_⟩)
      · exact toNat_ofNat (by omega)
      · exact toNat_ofNat (by omega)
    · rintro ⟨hs, r, rfl⟩
      refine .inr (.inr (.inl ⟨_, _, _, r, rfl, ⟨by omega, h₃, hs⟩, ?_, ?_, ?_⟩))
      · exact toNat_ofNat (by omega)
      · exact toNat_ofNat (by omega)
      · exact toNat_ofNat (by omega)
    · rintro ⟨-, r, rfl⟩
      refine .inr (.inr (.inr ⟨_, _, _, _, r, rfl, by omega, ?_, ?_, ?_, ?_⟩))
      · exact toNat_ofNat (by omega)
      · exact toNat_ofNat (by omega)
      · exact toNat_ofNat (by omega)
      · exact toNat_ofNat (by omega)

lemma BeginsWith.lt {n : ℕ} {s : List UInt8} (h : BeginsWith n s) : n < 0x110000 := by
  rcases h with ⟨a, r, -, hn, -⟩ | ⟨a, b, r, -, hn⟩ | ⟨a, b, c, r, -, hn⟩ | ⟨a, b, c, d, r, -, hn⟩
  · omega
  · have hcode := twoBytes_eq_some_iff.1 hn
    omega
  · have hcode := threeBytes_eq_some_iff.1 hn
    omega
  · have hcode := fourBytes_eq_some_iff.1 hn
    omega

lemma decodeFirst_eq_some_iff {s : List UInt8} {c : PyChar} :
    decodeFirst s = some c ↔ isSurrogate c = false ∧ encodeChar c <+: s := by
  rw [← beginsWith_iff, ← firstCode_eq_some_iff, decodeFirst, Option.map_eq_some_iff]
  constructor
  · rintro ⟨n, hn, rfl⟩
    have hlt := ((firstCode_eq_some_iff s).1 hn).lt
    have hval : (Fin.ofNat 0x110000 n).val = n := Nat.mod_eq_of_lt hlt
    rwa [hval]
  · intro h
    exact ⟨c.val, h, Fin.ext (Nat.mod_eq_of_lt c.isLt)⟩

/-! ### Derivations of a decoding -/

lemma decodeFrom_eq (k : ℕ) (s : List UInt8) : decodeFrom k s = decodeEscaped (s.drop k) := by
  induction k generalizing s with
  | zero => rfl
  | succ k ih =>
    cases s with
    | nil => rfl
    | cons a s => exact ih s

/-- A character that the bytes begin with is decoded. -/
lemma decodeEscaped_append {c : PyChar} (hc : isSurrogate c = false) (s : List UInt8) :
    decodeEscaped (encodeChar c ++ s) = c :: decodeEscaped s := by
  have hfirst : decodeFirst (encodeChar c ++ s) = some c :=
    decodeFirst_eq_some_iff.2 ⟨hc, List.prefix_append _ _⟩
  cases hbytes : encodeChar c with
  | nil => exact absurd hbytes (encodeChar_ne_nil c)
  | cons a l =>
    rw [hbytes, List.cons_append] at hfirst
    have hlength : (encodeChar c).length - 1 = l.length := by
      rw [hbytes]
      rfl
    show decodeFrom 0 (a :: (l ++ s)) = _
    simp only [decodeFrom, hfirst, hlength, decodeFrom_eq, List.drop_left]

/-- A byte with which no character begins is escaped. -/
lemma decodeEscaped_cons {a : UInt8} {s : List UInt8} (h : decodeFirst (a :: s) = none) :
    decodeEscaped (a :: s) = escapeByte a :: decodeEscaped s := by
  show decodeFrom 0 (a :: s) = _
  simp only [decodeFrom, h, decodeEscaped]

/-- The bytes are those of the characters, but for bytes with which no character begins. -/
inductive Decodes : List UInt8 → PyStr → Prop
  | nil : Decodes [] []
  | char {c : PyChar} {s : List UInt8} {t : PyStr} (hc : isSurrogate c = false)
      (h : Decodes s t) : Decodes (encodeChar c ++ s) (c :: t)
  | byte {a : UInt8} {s : List UInt8} {t : PyStr} (ha : decodeFirst (a :: s) = none)
      (h : Decodes s t) : Decodes (a :: s) (escapeByte a :: t)

theorem decodes (b : List UInt8) : Decodes b (decodeEscaped b) := by
  induction hn : b.length using Nat.strong_induction_on generalizing b with
  | _ n ih =>
    cases b with
    | nil => exact .nil
    | cons a s =>
      cases hfirst : decodeFirst (a :: s) with
      | none =>
        rw [decodeEscaped_cons hfirst]
        exact .byte hfirst (ih s.length (by simp [← hn]) s rfl)
      | some c =>
        obtain ⟨hc, rest, hrest⟩ := decodeFirst_eq_some_iff.1 hfirst
        have hpos := List.length_pos_of_ne_nil (encodeChar_ne_nil c)
        have hlength := congrArg List.length hrest
        rw [List.length_append, hn] at hlength
        rw [← hrest, decodeEscaped_append hc]
        exact .char hc (ih rest.length (by omega) rest rfl)

/-! ### Escaped bytes -/

lemma le_of_decodeFirst_eq_none {a : UInt8} {s : List UInt8} (h : decodeFirst (a :: s) = none) :
    0x80 ≤ a.toNat := by
  by_contra hlt
  have hbegins : BeginsWith a.toNat (a :: s) := .inl ⟨a, s, rfl, by omega, rfl⟩
  rw [← firstCode_eq_some_iff] at hbegins
  rw [decodeFirst, hbegins] at h
  cases h

lemma escapeByte_val (a : UInt8) : (escapeByte a).val = 0xdc00 + a.toNat := by
  have := toNat_lt a
  exact Nat.mod_eq_of_lt (by omega)

lemma isEscapedByte_escapeByte {a : UInt8} (h : 0x80 ≤ a.toNat) :
    isEscapedByte (escapeByte a) = true := by
  have := toNat_lt a
  simp only [isEscapedByte, escapeByte_val, Bool.and_eq_true, decide_eq_true_eq]
  omega

lemma encodeCharEscaped_escapeByte {a : UInt8} (h : 0x80 ≤ a.toNat) :
    encodeCharEscaped (escapeByte a) = [a] := by
  rw [encodeCharEscaped, if_pos (isEscapedByte_escapeByte h), escapeByte_val,
    Nat.add_sub_cancel_left, UInt8.ofNat_toNat]

/-- The encoder does not escape characters that are no surrogates. -/
lemma encodeCharEscaped_of_not_surrogate {c : PyChar} (hc : isSurrogate c = false) :
    encodeCharEscaped c = encodeChar c := by
  refine if_neg ?_
  rw [isSurrogate_eq_false_iff] at hc
  simp only [isEscapedByte, Bool.and_eq_true, decide_eq_true_eq]
  omega

lemma flatMap_encodeCharEscaped {t : PyStr} (ht : ∀ c ∈ t, isSurrogate c = false) :
    t.flatMap encodeCharEscaped = t.flatMap encodeChar :=
  List.flatMap_congr fun c hc => encodeCharEscaped_of_not_surrogate (ht c hc)

lemma encodeCharEscaped_ne_nil (c : PyChar) : encodeCharEscaped c ≠ [] := by
  unfold encodeCharEscaped
  split_ifs
  · exact List.cons_ne_nil _ _
  · exact encodeChar_ne_nil c

/-! ### Decoding and encoding -/

/-- A text that can be encoded where surrogates may stand for bytes. -/
def Escapable (t : PyStr) : Prop := ∀ c ∈ t, isSurrogate c = true → isEscapedByte c = true

lemma encodeEscaped_eq {t : PyStr} (ht : Escapable t) :
    encodeEscaped t = some (t.flatMap encodeCharEscaped) := by
  refine if_neg fun h => ?_
  obtain ⟨c, hc, hs⟩ := List.any_eq_true.1 h
  rw [Bool.and_eq_true, Bool.not_eq_true'] at hs
  exact absurd (ht c hc hs.1) (by simp [hs.2])

lemma Decodes.escapable {b : List UInt8} {t : PyStr} (h : Decodes b t) : Escapable t := by
  induction h with
  | nil => exact nofun
  | char hc _ ih =>
    refine List.forall_mem_cons.2 ⟨fun hs => ?_, ih⟩
    exact absurd hs (by simp [hc])
  | byte ha _ ih =>
    exact List.forall_mem_cons.2
      ⟨fun _ => isEscapedByte_escapeByte (le_of_decodeFirst_eq_none ha), ih⟩

/-- What is decoded is encoded to the same bytes. -/
lemma Decodes.flatMap_eq {b : List UInt8} {t : PyStr} (h : Decodes b t) :
    t.flatMap encodeCharEscaped = b := by
  induction h with
  | nil => rfl
  | char hc _ ih => rw [List.flatMap_cons, ih, encodeCharEscaped_of_not_surrogate hc]
  | byte ha _ ih =>
    rw [List.flatMap_cons, ih, encodeCharEscaped_escapeByte (le_of_decodeFirst_eq_none ha)]
    rfl

/-- A text without surrogates is what its encoding is decoded to. -/
lemma decodeEscaped_flatMap {t : PyStr} (ht : ∀ c ∈ t, isSurrogate c = false) :
    decodeEscaped (t.flatMap encodeChar) = t := by
  induction t with
  | nil => rfl
  | cons c t ih =>
    obtain ⟨hc, ht⟩ := List.forall_mem_cons.1 ht
    rw [List.flatMap_cons, decodeEscaped_append hc, ih ht]

/-! ### Words in decoded bytes -/

/-- A character begins with a byte that continues none, and all others continue it. -/
lemma encodeChar_shape (c : PyChar) : ∃ a l, encodeChar c = a :: l ∧ isContinuation a = false ∧
    ∀ b ∈ l, isContinuation b = true := by
  have hc := c.isLt
  have hfirst : ∀ {n : ℕ}, n < 0x80 ∨ 0xc0 ≤ n → n < 0x100 →
      isContinuation (UInt8.ofNat n) = false := by
    intro n h hn
    rw [← Bool.not_eq_true, isContinuation, toNat_ofNat hn, Bool.and_eq_true, decide_eq_true_eq,
      decide_eq_true_eq]
    omega
  have hnext : ∀ n : ℕ, isContinuation (UInt8.ofNat (0x80 + n % 0x40)) = true := by
    intro n
    rw [isContinuation, toNat_ofNat (by omega), Bool.and_eq_true, decide_eq_true_eq,
      decide_eq_true_eq]
    omega
  unfold encodeChar
  dsimp only
  split_ifs with h₁ h₂ h₃
  · exact ⟨_, _, rfl, hfirst (by omega) (by omega), nofun⟩
  · refine ⟨_, _, rfl, hfirst (by omega) (by omega), ?_⟩
    simp only [List.forall_mem_cons, hnext, List.not_mem_nil, false_implies, implies_true, and_true]
  · refine ⟨_, _, rfl, hfirst (by omega) (by omega), ?_⟩
    simp only [List.forall_mem_cons, hnext, List.not_mem_nil, false_implies, implies_true, and_true]
  · refine ⟨_, _, rfl, hfirst (by omega) (by omega), ?_⟩
    simp only [List.forall_mem_cons, hnext, List.not_mem_nil, false_implies, implies_true, and_true]

/-- A word that the bytes begin with is decoded. -/
lemma Decodes.isPrefix {b : List UInt8} {t v : PyStr} (h : Decodes b t)
    (hv : ∀ c ∈ v, isSurrogate c = false) (hb : v.flatMap encodeChar <+: b) : v <+: t := by
  induction v generalizing b t with
  | nil => exact List.nil_prefix
  | cons c v ih =>
    obtain ⟨hc, hword⟩ := List.forall_mem_cons.1 hv
    rw [List.flatMap_cons] at hb
    have hfirst : decodeFirst b = some c :=
      decodeFirst_eq_some_iff.2 ⟨hc, (List.prefix_append _ _).trans hb⟩
    cases h with
    | nil =>
      exact absurd (List.append_eq_nil_iff.1 (List.prefix_nil.1 hb)).1 (encodeChar_ne_nil c)
    | @char d s t hd h =>
      have hdecoded := decodeFirst_eq_some_iff.2 ⟨hd, List.prefix_append (encodeChar d) s⟩
      obtain rfl : d = c := Option.some.inj (hdecoded.symm.trans hfirst)
      exact List.cons_prefix_cons.2 ⟨rfl, ih h hword ((List.prefix_append_right_inj _).1 hb)⟩
    | byte ha h => exact absurd (ha.symm.trans hfirst) nofun

/-- The encoding of a word does not begin with a byte that continues a character. -/
lemma not_isPrefix_continuation {v : PyStr} {a : UInt8} {y : List UInt8} (hv : v ≠ [])
    (ha : isContinuation a = true) : ¬ v.flatMap encodeChar <+: a :: y := by
  intro h
  cases v with
  | nil => exact hv rfl
  | cons c v =>
    obtain ⟨d, l, hshape, hd, -⟩ := encodeChar_shape c
    rw [List.flatMap_cons, hshape, List.cons_append, List.cons_prefix_cons] at h
    rw [h.1, ha] at hd
    exact absurd hd nofun

/-- An encoded word is found in bytes only where the word stands in what they are decoded to. -/
theorem Decodes.synchronized {b : List UInt8} {t : PyStr} (h : Decodes b t) {V : Set PyStr}
    (hV : ∀ v ∈ V, v ≠ [] ∧ ∀ c ∈ v, isSurrogate c = false) :
    Substitution.Synchronized encodeCharEscaped V t := by
  intro x y hxy v hv hpre
  obtain ⟨hne, hsurrogate⟩ := hV v hv
  rw [h.flatMap_eq] at hxy
  rw [flatMap_encodeCharEscaped hsurrogate] at hpre
  induction h generalizing x with
  | nil =>
    obtain ⟨rfl, rfl⟩ := List.append_eq_nil_iff.1 hxy.symm
    have hnil := Substitution.flatMap_eq_nil encodeChar_ne_nil (List.prefix_nil.1 hpre)
    exact absurd hnil hne
  | @char c s t hc h ih =>
    rcases List.append_eq_append_iff.1 hxy with ⟨x', rfl, hs⟩ | ⟨l, hchar, rfl⟩
    · obtain ⟨t₁, t₂, rfl, rfl, hvt⟩ := ih x' hs
      refine ⟨c :: t₁, t₂, rfl, ?_, hvt⟩
      rw [List.flatMap_cons, encodeCharEscaped_of_not_surrogate hc]
    · cases x with
      | nil =>
        refine ⟨[], c :: t, rfl, rfl, (Decodes.char hc h).isPrefix hsurrogate ?_⟩
        rwa [hchar, List.nil_append]
      | cons a x =>
        obtain ⟨d, l', hshape, -, hl⟩ := encodeChar_shape c
        rw [hshape, List.cons_append] at hchar
        obtain ⟨rfl, rfl⟩ := List.cons.inj hchar
        cases l with
        | nil =>
          -- the word begins behind the character
          obtain ⟨t₁, t₂, rfl, hx, hvt⟩ := ih [] rfl
          refine ⟨c :: t₁, t₂, rfl, ?_, hvt⟩
          rw [List.flatMap_cons, encodeCharEscaped_of_not_surrogate hc, hshape, ← hx]
          simp
        | cons e l => exact absurd hpre (not_isPrefix_continuation hne (hl e (by simp)))
  | @byte a s t ha h ih =>
    cases x with
    | nil =>
      refine ⟨[], escapeByte a :: t, rfl, rfl, (Decodes.byte ha h).isPrefix hsurrogate ?_⟩
      rwa [hxy, List.nil_append]
    | cons d x =>
      obtain ⟨rfl, hs⟩ := List.cons.inj hxy
      obtain ⟨t₁, t₂, rfl, rfl, hvt⟩ := ih x hs
      refine ⟨escapeByte a :: t₁, t₂, rfl, ?_, hvt⟩
      rw [List.flatMap_cons, encodeCharEscaped_escapeByte (le_of_decodeFirst_eq_none ha)]
      rfl

end PyText
