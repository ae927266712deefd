/-
Python's text.

A `str` is a sequence of code points, among them lone surrogates, which UTF-8 cannot
encode.  This file has the parts of `str` and `bytes` that programs use to render values:
`strip`, `splitlines`, `encode`, the `repr` of a text and of bytes, and the text that
`json.dumps` makes of a text.  Which code points beyond ASCII are printable is a table of
the Unicode database and stays a parameter.
-/
import Mathlib.Algebra.GroupWithZero.Nat
import Mathlib.Data.List.DropRight
import Mathlib.Data.List.Infix
import Mathlib.Tactic.Common

/-- A code point. -/
abbrev PyChar := Fin 0x110000

/-- A `str`. -/
abbrev PyStr := List PyChar

instance neZeroCodePoints : NeZero 0x110000 := ⟨Nat.succ_ne_zero 0x10ffff⟩

instance : LawfulBEq PyChar := inferInstance

instance : LawfulBEq PyStr := inferInstance

namespace PyText

/-- The code point of a character. -/
def ofChar (c : Char) : PyChar :=
  ⟨c.toNat, by
    have h := c.valid
    simp only [UInt32.isValidChar, Nat.isValidChar] at h
    simp only [Char.toNat]
    omega⟩

/-- The `str` of characters. -/
def chars (l : List Char) : PyStr := l.map ofChar

/-- A literal. -/
def lit (s : String) : PyStr := s.toList.map ofChar

/-- A literal by its characters. -/
lemma lit_ofList (l : List Char) : lit (String.ofList l) = chars l := by
  rw [lit, String.toList_ofList, chars]

lemma ofChar_inj {c d : Char} : ofChar c = ofChar d ↔ c = d := by
  refine ⟨fun h => ?_, congrArg ofChar⟩
  have hnat : (ofChar c).val = (ofChar d).val := by rw [h]
  exact Char.ext (UInt32.toNat_inj.1 hnat)

lemma chars_append (s t : List Char) : chars (s ++ t) = chars s ++ chars t := List.map_append

lemma lit_append (s t : String) : lit (s ++ t) = lit s ++ lit t := by
  rw [lit, String.toList_append]
  exact chars_append _ _

/-- `str.isspace` of one code point. -/
def isSpace (c : PyChar) : Bool :=
  let n := c.val
  (0x9 ≤ n && n ≤ 0xd) || (0x1c ≤ n && n ≤ 0x20) || n == 0x85 || n == 0xa0 || n == 0x1680 ||
    (0x2000 ≤ n && n ≤ 0x200a) || n == 0x2028 || n == 0x2029 || n == 0x202f || n == 0x205f ||
    n == 0x3000

/-- `str.strip()` -/
def strip (s : PyStr) : PyStr := (s.dropWhile isSpace).rdropWhile isSpace

/-- The code points at which `str.splitlines` ends a line. -/
def isLineBreak (c : PyChar) : Bool :=
  let n := c.val
  (0xa ≤ n && n ≤ 0xd) || (0x1c ≤ n && n ≤ 0x1e) || n == 0x85 || n == 0x2028 || n == 0x2029

/-- `str.splitlines`, with the symbols of the line so far in reverse order. -/
def splitlinesFrom (line : PyStr) : PyStr → List PyStr
  | [] => if line = [] then [] else [line.reverse]
  | [c] => if isLineBreak c then [line.reverse] else [(c :: line).reverse]
  | c :: d :: s =>
    if c.val = 0xd ∧ d.val = 0xa then line.reverse :: splitlinesFrom [] s
    else if isLineBreak c then line.reverse :: splitlinesFrom [] (d :: s)
    else splitlinesFrom (c :: line) (d :: s)

/-- `str.splitlines()` -/
def splitlines (s : PyStr) : List PyStr := splitlinesFrom [] s

/-- `str.split()`, with the symbols of the word so far in reverse order. -/
def splitWordsFrom (word : PyStr) : PyStr → List PyStr
  | [] => if word = [] then [] else [word.reverse]
  | c :: s =>
    if isSpace c then
      if word = [] then splitWordsFrom [] s else word.reverse :: splitWordsFrom [] s
    else splitWordsFrom (c :: word) s

/-- `s.split()` -/
def splitWords (s : PyStr) : List PyStr := splitWordsFrom [] s

/-- `part in s` -/
def contains (part s : PyStr) : Bool := decide (part <:+: s)

/-- `s.startswith(start)` -/
def startsWith (start s : PyStr) : Bool := start.isPrefixOf s

/-- A lone surrogate. -/
def isSurrogate (c : PyChar) : Bool := 0xd800 ≤ c.val && c.val ≤ 0xdfff

/-- The UTF-8 bytes of a code point. -/
def encodeChar (c : PyChar) : List UInt8 :=
  let n := c.val
  if n < 0x80 then [.ofNat n]
  else if n < 0x800 then [.ofNat (0xc0 + n / 0x40), .ofNat (0x80 + n % 0x40)]
  else if n < 0x10000 then
    [.ofNat (0xe0 + n / 0x1000), .ofNat (0x80 + n / 0x40 % 0x40), .ofNat (0x80 + n % 0x40)]
  else
    [.ofNat (0xf0 + n / 0x40000), .ofNat (0x80 + n / 0x1000 % 0x40),
      .ofNat (0x80 + n / 0x40 % 0x40), .ofNat (0x80 + n % 0x40)]

/-- `s.encode()`, or `none` where that raises `UnicodeEncodeError`. -/
def encode (s : PyStr) : Option (List UInt8) :=
  if s.any isSurrogate then none else some (s.flatMap encodeChar)

/-- A hexadecimal digit. -/
def hexDigit (n : ℕ) : Char := "0123456789abcdef".toList.getD n '0'

/-- The last `width` hexadecimal digits of a number. -/
def hex (width n : ℕ) : List Char :=
  (List.range width).reverse.map fun i => hexDigit (n / 16 ^ i % 16)

/-- The escapes that `repr` uses for every text and for bytes; `none` for a code that may
stand for itself. -/
def reprEscape (quote : PyChar) (n : ℕ) : Option PyStr :=
  if n = 0x5c then some (lit "\\\\")
  else if n = quote.val then some [ofChar '\\', quote]
  else if n = 0x9 then some (lit "\\t")
  else if n = 0xa then some (lit "\\n")
  else if n = 0xd then some (lit "\\r")
  else if n < 0x20 ∨ n = 0x7f then some (lit "\\x" ++ chars (hex 2 n))
  else none

/-- The quote that `repr` puts around the codes `s`. -/
def reprQuote (s : List ℕ) : PyChar :=
  if 0x27 ∈ s ∧ 0x22 ∉ s then ofChar '"' else ofChar '\''

/-- A code point inside the `repr` of a text. -/
def reprChar (isPrintable : PyChar → Bool) (quote c : PyChar) : PyStr :=
  match reprEscape quote c.val with
  | some e => e
  | none =>
    if c.val < 0x7f ∨ isPrintable c then [c]
    else if c.val ≤ 0xff then lit "\\x" ++ chars (hex 2 c.val)
    else if c.val ≤ 0xffff then lit "\\u" ++ chars (hex 4 c.val)
    else lit "\\U" ++ chars (hex 8 c.val)

/-- `repr(s)` -/
def repr (isPrintable : PyChar → Bool) (s : PyStr) : PyStr :=
  let quote := reprQuote (s.map Fin.val)
  quote :: s.flatMap (reprChar isPrintable quote) ++ [quote]

/-- A byte inside the `repr` of bytes. -/
def bytesReprByte (quote : PyChar) (b : UInt8) : PyStr :=
  match reprEscape quote b.toNat with
  | some e => e
  | none =>
    if b.toNat < 0x7f then [Fin.ofNat _ b.toNat] else lit "\\x" ++ chars (hex 2 b.toNat)

/-- `repr(b)` of bytes. -/
def bytesRepr (b : List UInt8) : PyStr :=
  let quote := reprQuote (b.map UInt8.toNat)
  ofChar 'b' :: quote :: b.flatMap (bytesReprByte quote) ++ [quote]

/-- `\uXXXX` -/
def jsonUnicode (n : ℕ) : List Char := '\\' :: 'u' :: hex 4 n

/-- The two-character escapes of JSON texts: a code and the character after the backslash. -/
def jsonEscape (n : ℕ) : Option Char :=
  if n = 0x5c then some '\\'
  else if n = 0x22 then some '"'
  else if n = 0x8 then some 'b'
  else if n = 0xc then some 'f'
  else if n = 0xa then some 'n'
  else if n = 0xd then some 'r'
  else if n = 0x9 then some 't'
  else none

/-- A code point inside the text that `json.dumps` makes. -/
def jsonChar (c : PyChar) : List Char :=
  let n := c.val
  match jsonEscape n with
  | some e => ['\\', e]
  | none =>
    if 0x20 ≤ n ∧ n ≤ 0x7e then [Char.ofNat n]
    else if n < 0x10000 then jsonUnicode n
    else jsonUnicode (0xd800 + (n - 0x10000) / 0x400) ++
      jsonUnicode (0xdc00 + (n - 0x10000) % 0x400)

/-- The text that `json.dumps` makes of a `str`. -/
def jsonText (s : PyStr) : List Char := '"' :: s.flatMap jsonChar ++ ['"']

/-- `json.dumps(s)` of a text. -/
def jsonString (s : PyStr) : PyStr := chars (jsonText s)

/-- `s[i:-1]` -/
def inner (i : ℕ) (s : PyStr) : PyStr := (s.drop i).dropLast

/-- The translation of line endings when a text file is read. -/
def universalNewlines : List Char → List Char
  | '\r' :: '\n' :: s => '\n' :: universalNewlines s
  | '\r' :: s => '\n' :: universalNewlines s
  | c :: s => c :: universalNewlines s
  | [] => []

/-! ### Line endings -/

lemma universalNewlines_cons {c : Char} {s : List Char} (hc : c ≠ '\r') :
    universalNewlines (c :: s) = c :: universalNewlines s :=
  universalNewlines.eq_3 _ _ (fun _ h => absurd h hc) fun h => absurd h hc

/-- A text without carriage returns is read as it is written. -/
lemma universalNewlines_eq_self {s : List Char} (h : '\r' ∉ s) : universalNewlines s = s := by
  induction s with
  | nil => rfl
  | cons c s ih =>
    have hc : c ≠ '\r' := fun he => h (he ▸ List.mem_cons_self)
    rw [universalNewlines_cons hc, ih fun hs => h (List.mem_cons_of_mem _ hs)]

lemma not_mem_universalNewlines (s : List Char) : '\r' ∉ universalNewlines s := by
  fun_induction universalNewlines s with
  | case1 s ih => simpa using ih
  | case2 s hne ih => simpa using ih
  | case3 c s h₁ h₂ ih =>
    have hc : '\r' ≠ c := by
      rintro rfl
      exact h₂ rfl
    simp [hc, ih]
  | case4 => simp

lemma universalNewlines_eq_self_iff {s : List Char} : universalNewlines s = s ↔ '\r' ∉ s := by
  constructor
  · intro h
    rw [← h]
    exact not_mem_universalNewlines s
  · exact universalNewlines_eq_self

/-! ### Parts of a text -/

lemma rtakeWhile_append_cons {α : Type} {p : α → Bool} {l t : List α} {x : α} (hx : p x = false)
    (ht : ∀ y ∈ t, p y = true) : (l ++ x :: t).rtakeWhile p = t := by
  have hrev : ∀ y ∈ t.reverse, p y = true := fun y hy => ht y (List.mem_reverse.1 hy)
  rw [List.rtakeWhile, List.reverse_append, List.reverse_cons, List.append_assoc,
    List.takeWhile_append_of_pos hrev, List.singleton_append, List.takeWhile_cons, hx]
  simp

lemma rdropWhile_append_cons {α : Type} {p : α → Bool} {l t : List α} {x : α} (hx : p x = false)
    (ht : ∀ y ∈ t, p y = true) : (l ++ x :: t).rdropWhile p = l ++ [x] := by
  have hrev : ∀ y ∈ t.reverse, p y = true := fun y hy => ht y (List.mem_reverse.1 hy)
  rw [List.rdropWhile, List.reverse_append, List.reverse_cons, List.append_assoc,
    List.dropWhile_append_of_pos hrev, List.singleton_append, List.dropWhile_cons, hx]
  simp

lemma mem_of_mem_strip {c : PyChar} {s : PyStr} (h : c ∈ strip s) : c ∈ s :=
  (List.dropWhile_suffix _).subset ((List.rdropWhile_prefix _ _).subset h)

lemma mem_of_mem_splitlinesFrom {c : PyChar} {line s l : PyStr} (hl : l ∈ splitlinesFrom line s)
    (hc : c ∈ l) : c ∈ line ∨ c ∈ s := by
  fun_induction splitlinesFrom line s with
  | case1 => simp at hl
  | case2 line hne =>
    obtain rfl := List.mem_singleton.1 hl
    exact .inl (List.mem_reverse.1 hc)
  | case3 line d hb =>
    obtain rfl := List.mem_singleton.1 hl
    exact .inl (List.mem_reverse.1 hc)
  | case4 line d hb =>
    obtain rfl := List.mem_singleton.1 hl
    simpa [or_comm] using hc
  | case5 line d e s hcr ih =>
    rcases List.mem_cons.1 hl with rfl | hl
    · exact .inl (List.mem_reverse.1 hc)
    · have hs := (ih hl).resolve_left (by simp)
      exact .inr (List.mem_cons_of_mem _ (List.mem_cons_of_mem _ hs))
  | case6 line d e s hcr hb ih =>
    rcases List.mem_cons.1 hl with rfl | hl
    · exact .inl (List.mem_reverse.1 hc)
    · exact .inr (List.mem_cons_of_mem _ ((ih hl).resolve_left (by simp)))
  | case7 line d e s hcr hb ih =>
    rcases ih hl with h | h
    · rcases List.mem_cons.1 h with rfl | h
      · exact .inr List.mem_cons_self
      · exact .inl h
    · exact .inr (List.mem_cons_of_mem _ h)

lemma mem_of_mem_splitlines {c : PyChar} {s l : PyStr} (hl : l ∈ splitlines s) (hc : c ∈ l) :
    c ∈ s :=
  (mem_of_mem_splitlinesFrom hl hc).resolve_left (by simp)

/-- A text without line breaks is one line. -/
lemma splitlinesFrom_of_no_break {line s : PyStr} (h : ∀ c ∈ s, isLineBreak c = false)
    (hne : line ≠ [] ∨ s ≠ []) : splitlinesFrom line s = [line.reverse ++ s] := by
  induction s generalizing line with
  | nil =>
    have hline : line ≠ [] := hne.resolve_right fun h => h rfl
    simp [splitlinesFrom, hline]
  | cons c s ih =>
    obtain ⟨hc, hs⟩ := List.forall_mem_cons.1 h
    cases s with
    | nil => simp [splitlinesFrom, hc]
    | cons d s =>
      have hcr : ¬ (c.val = 0xd ∧ d.val = 0xa) := by
        rintro ⟨hcr, -⟩
        simp [isLineBreak, hcr] at hc
      rw [splitlinesFrom, if_neg hcr, hc, if_neg Bool.false_ne_true, ih hs (.inl (by simp))]
      simp

lemma splitlines_of_no_break {s : PyStr} (h : ∀ c ∈ s, isLineBreak c = false) (hne : s ≠ []) :
    splitlines s = [s] :=
  splitlinesFrom_of_no_break h (.inr hne)

/-! ### Words -/

/-- Whitespace at the end of a text adds no word. -/
lemma splitWordsFrom_append_space {s t : PyStr} (word : PyStr) (ht : ∀ c ∈ t, isSpace c = true) :
    splitWordsFrom word (s ++ t) = splitWordsFrom word s := by
  induction s generalizing word with
  | nil =>
    induction t generalizing word with
    | nil => rfl
    | cons c t ih =>
      obtain ⟨hc, ht⟩ := List.forall_mem_cons.1 ht
      have hempty : splitWordsFrom [] t = [] := ih ht []
      rw [List.nil_append]
      simp [splitWordsFrom, hc, hempty]
  | cons c s ih =>
    rw [List.cons_append, splitWordsFrom, splitWordsFrom, ih, ih]

/-- Whitespace in front of a text adds no word. -/
lemma splitWords_dropWhile (s : PyStr) : splitWords (s.dropWhile isSpace) = splitWords s := by
  induction s with
  | nil => rfl
  | cons c s ih =>
    cases hc : isSpace c with
    | true =>
      have hdrop : (c :: s).dropWhile isSpace = s.dropWhile isSpace := by simp [hc]
      rw [hdrop, ih, splitWords, splitWords, splitWordsFrom, hc, if_pos rfl, if_pos rfl]
    | false =>
      have hdrop : (c :: s).dropWhile isSpace = c :: s := by simp [hc]
      rw [hdrop]

/-- The words of a text are those of the stripped text. -/
lemma splitWords_strip (s : PyStr) : splitWords (strip s) = splitWords s := by
  have hend : ∀ c ∈ (s.dropWhile isSpace).rtakeWhile isSpace, isSpace c = true :=
    fun c hc => List.mem_rtakeWhile_imp hc
  rw [← splitWords_dropWhile s, strip, splitWords, splitWords]
  conv_rhs => rw [← List.rdropWhile_append_rtakeWhile (p := isSpace) (l := s.dropWhile isSpace)]
  rw [splitWordsFrom_append_space [] hend]

lemma splitWordsFrom_of_no_space {word s : PyStr} (h : ∀ c ∈ s, isSpace c = false)
    (hne : word ≠ [] ∨ s ≠ []) : splitWordsFrom word s = [word.reverse ++ s] := by
  induction s generalizing word with
  | nil =>
    have hword : word ≠ [] := hne.resolve_right fun h => h rfl
    simp [splitWordsFrom, hword]
  | cons c s ih =>
    obtain ⟨hc, hs⟩ := List.forall_mem_cons.1 h
    rw [splitWordsFrom, hc, if_neg Bool.false_ne_true, ih hs (.inl (by simp))]
    simp

/-- A text without whitespace is one word. -/
lemma splitWords_of_no_space {s : PyStr} (h : ∀ c ∈ s, isSpace c = false) (hne : s ≠ []) :
    splitWords s = [s] :=
  splitWordsFrom_of_no_space h (.inr hne)

lemma isSpace_of_mem_splitWordsFrom {word s w : PyStr} (hword : ∀ c ∈ word, isSpace c = false)
    (hw : w ∈ splitWordsFrom word s) : ∀ c ∈ w, isSpace c = false := by
  induction s generalizing word with
  | nil =>
    rw [splitWordsFrom] at hw
    split_ifs at hw
    · exact absurd hw List.not_mem_nil
    · rw [List.mem_singleton.1 hw]
      exact fun c hc => hword c (List.mem_reverse.1 hc)
  | cons c s ih =>
    rw [splitWordsFrom] at hw
    split_ifs at hw with hc hempty
    · exact ih (fun _ hc => absurd hc List.not_mem_nil) hw
    · rcases List.mem_cons.1 hw with rfl | hw
      · exact fun c hc => hword c (List.mem_reverse.1 hc)
      · exact ih (fun _ hc => absurd hc List.not_mem_nil) hw
    · exact ih (List.forall_mem_cons.2 ⟨by simpa using hc, hword⟩) hw

/-- The words of a text have no whitespace. -/
lemma isSpace_of_mem_splitWords {s w : PyStr} (hw : w ∈ splitWords s) :
    ∀ c ∈ w, isSpace c = false :=
  isSpace_of_mem_splitWordsFrom (fun _ hc => absurd hc List.not_mem_nil) hw

/-- A word that was begun is the first word. -/
lemma splitWordsFrom_begun (word s : PyStr) (hword : word ≠ []) :
    ∃ w ws, splitWordsFrom word s = (word.reverse ++ w) :: ws := by
  induction s generalizing word with
  | nil => exact ⟨[], [], by simp [splitWordsFrom, hword]⟩
  | cons c s ih =>
    cases hc : isSpace c with
    | true => exact ⟨[], splitWordsFrom [] s, by simp [splitWordsFrom, hc, hword]⟩
    | false =>
      obtain ⟨w, ws, h⟩ := ih (c :: word) (by simp)
      exact ⟨c :: w, ws, by simpa [splitWordsFrom, hc] using h⟩

/-- The first word of a stripped text begins where the text begins. -/
lemma splitWords_cons {c : PyChar} (s : PyStr) (hc : isSpace c = false) :
    ∃ w ws, splitWords (c :: s) = (c :: w) :: ws := by
  obtain ⟨w, ws, h⟩ := splitWordsFrom_begun [c] s (by simp)
  exact ⟨w, ws, by simpa [splitWords, splitWordsFrom, hc] using h⟩

/-- A stripped text does not begin with whitespace. -/
lemma isSpace_of_strip_eq_cons {s t : PyStr} {c : PyChar} (h : strip s = c :: t) :
    isSpace c = false := by
  have hfront : c :: t <+: s.dropWhile isSpace := h ▸ List.rdropWhile_prefix _ _
  obtain ⟨u, hu⟩ := hfront
  have hhead := List.head?_dropWhile_not isSpace s
  rw [← hu] at hhead
  simpa using hhead

/-- A text is blank if it is whitespace only. -/
lemma strip_eq_nil_iff {s : PyStr} : strip s = [] ↔ ∀ c ∈ s, isSpace c = true := by
  rw [strip, List.rdropWhile_eq_nil_iff, ← List.dropWhile_eq_nil_iff, List.dropWhile_idempotent,
    List.dropWhile_eq_nil_iff]

/-- Stripping once strips all. -/
lemma strip_strip (s : PyStr) : strip (strip s) = strip s := by
  have hdrop : (strip s).dropWhile isSpace = strip s := by
    cases h : strip s with
    | nil => rfl
    | cons c t => simp [isSpace_of_strip_eq_cons h]
  rw [strip, hdrop, strip, List.rdropWhile_idempotent]

/-! ### Renderings of a nonempty text are nonempty -/

lemma flatMap_ne_nil {α β : Type*} {f : α → List β} {l : List α} (hf : ∀ a, f a ≠ [])
    (hl : l ≠ []) : l.flatMap f ≠ [] := by
  cases l with
  | nil => exact absurd rfl hl
  | cons a l => simp [hf a]

@[simp] lemma inner_one_quoted (q : PyChar) (s : PyStr) : inner 1 (q :: s ++ [q]) = s := by
  simp [inner]

@[simp] lemma inner_two_quoted (b q : PyChar) (s : PyStr) :
    inner 2 (b :: q :: s ++ [q]) = s := by
  simp [inner]

lemma reprEscape_ne_nil {quote : PyChar} {n : ℕ} {e : PyStr} (h : reprEscape quote n = some e) :
    e ≠ [] := by
  unfold reprEscape at h
  split_ifs at h <;> cases h <;> simp [lit, chars]

lemma reprChar_ne_nil (isPrintable : PyChar → Bool) (quote c : PyChar) :
    reprChar isPrintable quote c ≠ [] := by
  unfold reprChar
  split
  · exact reprEscape_ne_nil ‹_›
  · split_ifs <;> simp [lit, chars]

lemma bytesReprByte_ne_nil (quote : PyChar) (b : UInt8) : bytesReprByte quote b ≠ [] := by
  unfold bytesReprByte
  split
  · exact reprEscape_ne_nil ‹_›
  · split_ifs <;> simp [lit, chars]

lemma jsonChar_ne_nil (c : PyChar) : jsonChar c ≠ [] := by
  unfold jsonChar
  dsimp only
  split
  · simp
  · split_ifs <;> simp [jsonUnicode]

lemma encodeChar_ne_nil (c : PyChar) : encodeChar c ≠ [] := by
  unfold encodeChar
  dsimp only
  split_ifs <;> simp

/-- `repr(s)[1:-1]` -/
lemma inner_repr_ne_nil (isPrintable : PyChar → Bool) {s : PyStr} (hs : s ≠ []) :
    inner 1 (repr isPrintable s) ≠ [] := by
  simp only [repr, inner_one_quoted]
  exact flatMap_ne_nil (reprChar_ne_nil isPrintable _) hs

/-- `repr(s.encode())[2:-1]` -/
lemma inner_bytesRepr_ne_nil {s : PyStr} {b : List UInt8} (hs : s ≠ []) (h : encode s = some b) :
    inner 2 (bytesRepr b) ≠ [] := by
  unfold encode at h
  split_ifs at h
  obtain rfl := Option.some.inj h
  simp only [bytesRepr, inner_two_quoted]
  exact flatMap_ne_nil (bytesReprByte_ne_nil _) (flatMap_ne_nil encodeChar_ne_nil hs)

/-- `json.dumps(s)[1:-1]` -/
lemma inner_jsonString_ne_nil {s : PyStr} (hs : s ≠ []) : inner 1 (jsonString s) ≠ [] := by
  have h := flatMap_ne_nil jsonChar_ne_nil hs
  simpa [jsonString, jsonText, chars, inner] using h

example : inner 1 (repr (fun _ => true) (lit "it's \"x\"\n")) = lit "it\\'s \"x\"\\n" := by decide

/-! ### Letters of ASCII -/

lemma isUpper_iff {c : Char} : c.isUpper = true ↔ 0x41 ≤ c.toNat ∧ c.toNat ≤ 0x5a :=
  decide_eq_true_iff

lemma isLower_iff {c : Char} : c.isLower = true ↔ 0x61 ≤ c.toNat ∧ c.toNat ≤ 0x7a :=
  Bool.and_eq_true_iff.trans (and_congr decide_eq_true_iff decide_eq_true_iff)

lemma isDigit_iff {c : Char} : c.isDigit = true ↔ 0x30 ≤ c.toNat ∧ c.toNat ≤ 0x39 :=
  Bool.and_eq_true_iff.trans (and_congr decide_eq_true_iff decide_eq_true_iff)

lemma isAlphanum_iff {c : Char} : c.isAlphanum = true ↔ (0x41 ≤ c.toNat ∧ c.toNat ≤ 0x5a) ∨
    (0x61 ≤ c.toNat ∧ c.toNat ≤ 0x7a) ∨ (0x30 ≤ c.toNat ∧ c.toNat ≤ 0x39) := by
  have halpha : c.isAlpha = (c.isUpper || c.isLower) := rfl
  rw [Char.isAlphanum, halpha, Bool.or_eq_true, Bool.or_eq_true, isUpper_iff, isLower_iff,
    isDigit_iff, or_assoc]

lemma toLower_of_isUpper {c : Char} (h : c.isUpper = true) :
    c.toLower.toNat = c.toNat + 0x20 := by
  have hval : c.toLower.val = c.val + ('a'.val - 'A'.val) :=
    congrArg Char.val (dif_pos (of_decide_eq_true h))
  have hbound := (isUpper_iff.1 h).2
  change c.toLower.val.toNat = c.val.toNat + 0x20
  have hd : ('a'.val - 'A'.val).toNat = 0x20 := rfl
  change c.val.toNat ≤ _ at hbound
  rw [hval, UInt32.toNat_add, hd]
  omega

lemma toLower_eq {c : Char} (h : c.isUpper = false) : c.toLower = c :=
  dif_neg (of_decide_eq_false h)

end PyText
