/-
JSON, as Python's `json` reads and prints it.

`loads` reads a text the way the scanner of `json.decoder` does: it takes what JSON allows
and the constants `NaN`, `Infinity` and `-Infinity`, it keeps lone surrogates that escapes
produce, and the last of several members with one key wins.  `dumps` prints ASCII.  The
values of Python's `float` and their texts are a parameter; everything else is defined here.
-/
import MediawikiCharm.Lib.PyText
import Mathlib.Algebra.Order.Ring.Rat
import Mathlib.Data.Nat.Digits.Lemmas

/-- A `float`: a finite one, or a value that is no JSON number. -/
inductive PyFloat (F : Type)
  | finite (x : F)
  | nan
  | inf (negative : Bool)
deriving DecidableEq

/-- A value that `json.loads` can return.  The members of an object stand in the order of
the `dict`. -/
inductive Json (F : Type)
  | null
  | bool (b : Bool)
  | int (n : ℤ)
  | float (x : PyFloat F)
  | str (s : PyStr)
  | arr (items : List (Json F))
  | obj (members : List (PyStr × Json F))

namespace Json

open PyText

/-! ### Numbers -/

/-- The parts of a number: the digits before the point, the point with its digits, and the
exponent with its letter and sign. -/
structure Number where
  negative : Bool := false
  int : List Char
  frac : List Char := []
  exp : List Char := []

namespace Number

/-- The text of a number. -/
def text (n : Number) : List Char :=
  (if n.negative then ['-'] else []) ++ n.int ++ n.frac ++ n.exp

/-- The number is no integer literal. -/
def IsFloat (n : Number) : Prop := n.frac ≠ [] ∨ n.exp ≠ []

instance (n : Number) : Decidable n.IsFloat := inferInstanceAs (Decidable (_ ∨ _))

/-- A nonempty text of decimal digits. -/
def Digits (t : List Char) : Prop := t ≠ [] ∧ ∀ c ∈ t, c.isDigit = true

/-- The parts are those of a JSON number. -/
structure Valid (n : Number) : Prop where
  int : Digits n.int ∧ (n.int.head? = some '0' → n.int = ['0'])
  frac : n.frac = [] ∨ ∃ t, Digits t ∧ n.frac = '.' :: t
  exp : n.exp = [] ∨ ∃ e sign t, (e = 'e' ∨ e = 'E') ∧ (sign = [] ∨ sign = ['+'] ∨ sign = ['-']) ∧
    Digits t ∧ n.exp = e :: (sign ++ t)

end Number

/-- The finite floats: their exact values, their `repr` and the value of the text of a
number. -/
class FiniteFloat (F : Type) where
  val : F → ℚ
  repr : F → List Char
  ofText : List Char → PyFloat F
  /-- `repr` prints a number with a point or an exponent -/
  repr_number : ∀ x, ∃ n : Number, n.Valid ∧ n.IsFloat ∧ repr x = n.text
  /-- and reading that number gives the float back. -/
  ofText_repr : ∀ x, ofText (repr x) = .finite x

instance : FiniteFloat Empty where
  val := Empty.elim
  repr := Empty.elim
  ofText _ := .nan
  repr_number := fun x => x.elim
  ofText_repr := fun x => x.elim

variable {F : Type} [FiniteFloat F]

/-- The text that `int.__repr__` makes. -/
def intText (n : ℤ) : List Char :=
  if n < 0 then '-' :: Nat.toDigits 10 n.natAbs else Nat.toDigits 10 n.natAbs

/-- The text that `float.__repr__` makes, with the constants of `json.encoder`. -/
def floatText : PyFloat F → List Char
  | .finite x => FiniteFloat.repr x
  | .nan => ['N', 'a', 'N']
  | .inf false => ['I', 'n', 'f', 'i', 'n', 'i', 't', 'y']
  | .inf true => ['-', 'I', 'n', 'f', 'i', 'n', 'i', 't', 'y']

/-! ### Printing -/

section
variable (item key : List Char)

mutual

/-- `json.dumps` with the separators `item` and `key`. -/
def dumpsWith : Json F → List Char
  | .null => ['n', 'u', 'l', 'l']
  | .bool b => if b then ['t', 'r', 'u', 'e'] else ['f', 'a', 'l', 's', 'e']
  | .int n => intText n
  | .float x => floatText x
  | .str s => jsonText s
  | .arr xs => '[' :: dumpsItems xs
  | .obj ms => '{' :: dumpsMembers ms

/-- The items of an array and its closing bracket. -/
def dumpsItems : List (Json F) → List Char
  | [] => [']']
  | [x] => dumpsWith x ++ [']']
  | x :: y :: xs => dumpsWith x ++ item ++ dumpsItems (y :: xs)

/-- The members of an object and its closing brace. -/
def dumpsMembers : List (PyStr × Json F) → List Char
  | [] => ['}']
  | [(k, x)] => jsonText k ++ key ++ dumpsWith x ++ ['}']
  | (k, x) :: m :: ms => jsonText k ++ key ++ dumpsWith x ++ item ++ dumpsMembers (m :: ms)

end

end

/-- `json.dumps(v)` -/
def dumps (v : Json F) : List Char := dumpsWith [',', ' '] [':', ' '] v

mutual

/-- The value with the members of every object in the order of their keys. -/
def sortKeys : Json F → Json F
  | .arr xs => .arr (sortKeysItems xs)
  | .obj ms => .obj ((sortKeysMembers ms).mergeSort fun m m' => decide (m.1 ≤ m'.1))
  | v => v

def sortKeysItems : List (Json F) → List (Json F)
  | [] => []
  | x :: xs => sortKeys x :: sortKeysItems xs

def sortKeysMembers : List (PyStr × Json F) → List (PyStr × Json F)
  | [] => []
  | (k, x) :: ms => (k, sortKeys x) :: sortKeysMembers ms

end

/-- `json.dumps(v, sort_keys=True, separators=(",", ":"))` -/
def canonical (v : Json F) : List Char := dumpsWith [','] [':'] (sortKeys v)

/-! ### Dictionaries and equality -/

/-- `d[k] = v` -/
def insert (k : PyStr) (v : Json F) : List (PyStr × Json F) → List (PyStr × Json F)
  | [] => [(k, v)]
  | (k', v') :: ms => if k' = k then (k', v) :: ms else (k', v') :: insert k v ms

/-- The exact value of a number, with the booleans as numbers. -/
inductive Num
  | rat (q : ℚ)
  | nan
  | inf (negative : Bool)
deriving DecidableEq

/-- The number that a value is compared as. -/
def num? : Json F → Option Num
  | .bool b => some (.rat (if b then 1 else 0))
  | .int n => some (.rat n)
  | .float (.finite x) => some (.rat (FiniteFloat.val x))
  | .float .nan => some .nan
  | .float (.inf b) => some (.inf b)
  | _ => none

mutual

/-- `==` of two values that `loads` returned.  `loads` returns one object for every `NaN`,
which inside a container is equal to itself. -/
def pyEq : Json F → Json F → Bool
  | .null, .null => true
  | .str s, .str t => decide (s = t)
  | .arr xs, .arr ys => pyEqItems xs ys
  | .obj ms, .obj ms' => decide (ms.length = ms'.length) && pyEqMembers ms ms'
  | v, w => v.num?.isSome && decide (v.num? = w.num?)

def pyEqItems : List (Json F) → List (Json F) → Bool
  | [], [] => true
  | x :: xs, y :: ys => pyEq x y && pyEqItems xs ys
  | _, _ => false

def pyEqMembers : List (PyStr × Json F) → List (PyStr × Json F) → Bool
  | [], _ => true
  | (k, x) :: ms, ms' =>
    (match ms'.lookup k with
      | some y => pyEq x y
      | none => false) && pyEqMembers ms ms'

end

/-! ### Reading -/

/-- The scanner skips whitespace. -/
def skipWs (s : List Char) : List Char :=
  s.dropWhile fun c => c == ' ' || c == '\t' || c == '\n' || c == '\r'

/-- The value of a hexadecimal digit. -/
def hexValue (c : Char) : Option ℕ :=
  if '0' ≤ c ∧ c ≤ '9' then some (c.toNat - 48)
  else if 'a' ≤ c ∧ c ≤ 'f' then some (c.toNat - 87)
  else if 'A' ≤ c ∧ c ≤ 'F' then some (c.toNat - 55)
  else none

/-- The code of four hexadecimal digits. -/
def hexCode (a b c d : Char) : Option ℕ := do
  let a ← hexValue a
  let b ← hexValue b
  let c ← hexValue c
  let d ← hexValue d
  some (((a * 16 + b) * 16 + c) * 16 + d)

/-- The code that an escape of one character stands for. -/
def unescape (c : Char) : Option ℕ :=
  if c = '"' then some 0x22
  else if c = '\\' then some 0x5c
  else if c = '/' then some 0x2f
  else if c = 'b' then some 0x8
  else if c = 'f' then some 0xc
  else if c = 'n' then some 0xa
  else if c = 'r' then some 0xd
  else if c = 't' then some 0x9
  else none

/-- The codes of a string literal after its opening quote, and what follows it. -/
def scanChars : List Char → Option (PyStr × List Char)
  | [] => none
  | '"' :: s => some ([], s)
  | '\\' :: 'u' :: a :: b :: c :: d :: s =>
    match hexCode a b c d, scanChars s with
    | some n, some (t, r) => some (Fin.ofNat _ n :: t, r)
    | _, _ => none
  | '\\' :: e :: s =>
    match unescape e, scanChars s with
    | some n, some (t, r) => some (Fin.ofNat _ n :: t, r)
    | _, _ => none
  | c :: s =>
    if c.toNat < 0x20 then none
    else (scanChars s).map fun (t, r) => (ofChar c :: t, r)

/-- A high surrogate. -/
def isHigh (c : PyChar) : Bool := 0xd800 ≤ c.val && c.val ≤ 0xdbff

/-- A low surrogate. -/
def isLow (c : PyChar) : Bool := 0xdc00 ≤ c.val && c.val ≤ 0xdfff

/-- The code point of a surrogate pair. -/
def joinPair (h l : PyChar) : PyChar :=
  Fin.ofNat _ (0x10000 + (h.val - 0xd800) * 0x400 + (l.val - 0xdc00))

/-- Join the surrogate pairs.  A text file has no surrogates, so both come from escapes. -/
def joinPairs : PyStr → PyStr
  | h :: l :: s => if isHigh h && isLow l then joinPair h l :: joinPairs s
    else h :: joinPairs (l :: s)
  | s => s

/-- A string literal after its opening quote, and what follows it. -/
def scanString (s : List Char) : Option (PyStr × List Char) :=
  (scanChars s).map fun (t, r) => (joinPairs t, r)

/-- The digits in front and what follows them. -/
def spanDigits (s : List Char) : List Char × List Char := s.span Char.isDigit

/-- The digits before the point: one zero, or digits without a leading zero. -/
def scanInt : List Char → Option (List Char × List Char)
  | '0' :: s => some (['0'], s)
  | s => if (spanDigits s).1 = [] then none else some (spanDigits s)

/-- The point and its digits, or nothing. -/
def scanFrac : List Char → List Char × List Char
  | '.' :: s =>
    if (spanDigits s).1 = [] then ([], '.' :: s) else ('.' :: (spanDigits s).1, (spanDigits s).2)
  | s => ([], s)

/-- The sign of an exponent. -/
def scanSign : List Char → List Char × List Char
  | '+' :: s => (['+'], s)
  | '-' :: s => (['-'], s)
  | s => ([], s)

/-- The exponent, or nothing. -/
def scanExp : List Char → List Char × List Char
  | [] => ([], [])
  | e :: s =>
    let (sign, r) := scanSign s
    if (e = 'e' ∨ e = 'E') ∧ (spanDigits r).1 ≠ [] then
      (e :: (sign ++ (spanDigits r).1), (spanDigits r).2)
    else ([], e :: s)

/-- The sign of a number. -/
def scanMinus : List Char → Bool × List Char
  | '-' :: s => (true, s)
  | s => (false, s)

/-- A number and what follows it. -/
def scanNumber (s : List Char) : Option (Number × List Char) :=
  let (negative, r) := scanMinus s
  match scanInt r with
  | none => none
  | some (digits, r) =>
    let (frac, r) := scanFrac r
    let (exp, r) := scanExp r
    some (⟨negative, digits, frac, exp⟩, r)

/-- The value of a number. -/
def ofNumber (n : Number) : Json F :=
  if n.IsFloat then .float (FiniteFloat.ofText n.text)
  else .int (if n.negative then -(Nat.ofDigitChars 10 n.int 0 : ℤ) else Nat.ofDigitChars 10 n.int 0)

/-- The values that a word stands for, which is the word that `dumps` prints for them. -/
def constants : List (Json F) :=
  [.null, .bool true, .bool false, .float .nan, .float (.inf false), .float (.inf true)]

/-- A constant or a number, and what follows it. -/
def scanAtom (s : List Char) : Option (Json F × List Char) :=
  match constants.find? fun v => (dumps v).isPrefixOf s with
  | some v => some (v, s.drop (dumps v).length)
  | none => (scanNumber s).map fun (n, r) => (ofNumber n, r)

mutual

/-- `scan_once`: a value and what follows it. -/
def scanOnce : ℕ → List Char → Option (Json F × List Char)
  | 0, _ => none
  | _ + 1, '"' :: s => (scanString s).map fun (t, r) => (.str t, r)
  | fuel + 1, '[' :: s =>
    match skipWs s with
    | ']' :: r => some (.arr [], r)
    | r => (scanItems fuel r).map fun (xs, r) => (.arr xs, r)
  | fuel + 1, '{' :: s =>
    match skipWs s with
    | '}' :: r => some (.obj [], r)
    | r => (scanMembers fuel [] r).map fun (ms, r) => (.obj ms, r)
  | _ + 1, s => scanAtom s

/-- The items of an array up to its closing bracket. -/
def scanItems : ℕ → List Char → Option (List (Json F) × List Char)
  | 0, _ => none
  | fuel + 1, s =>
    match scanOnce fuel s with
    | none => none
    | some (x, r) =>
      match skipWs r with
      | ']' :: r => some ([x], r)
      | ',' :: r => (scanItems fuel (skipWs r)).map fun (xs, r) => (x :: xs, r)
      | _ => none

/-- The members of an object up to its closing brace, added to those read before. -/
def scanMembers : ℕ → List (PyStr × Json F) → List Char →
    Option (List (PyStr × Json F) × List Char)
  | fuel + 1, ms, '"' :: s =>
    match scanString s with
    | none => none
    | some (k, r) =>
      match skipWs r with
      | ':' :: r =>
        match scanOnce fuel (skipWs r) with
        | none => none
        | some (x, r) =>
          match skipWs r with
          | '}' :: r => some (insert k x ms, r)
          | ',' :: r => scanMembers fuel (insert k x ms) (skipWs r)
          | _ => none
      | _ => none
  | _, _, _ => none

end

/-- `json.loads(s)`, or `none` where that raises `JSONDecodeError`. -/
def loads (s : List Char) : Option (Json F) :=
  match scanOnce (2 * s.length + 2) (skipWs s) with
  | some (v, r) => if skipWs r = [] then some v else none
  | none => none

/-! ### Well-formed values -/

/-- No high surrogate is followed by a low one. -/
def noPair : PyStr → Bool
  | c :: d :: s => !(isHigh c && isLow d) && noPair (d :: s)
  | _ => true

mutual

/-- The keys of every object are distinct and no text has a surrogate pair. -/
def wellFormed : Json F → Bool
  | .str s => noPair s
  | .arr xs => wellFormedItems xs
  | .obj ms => wellFormedMembers ms
  | _ => true

def wellFormedItems : List (Json F) → Bool
  | [] => true
  | x :: xs => wellFormed x && wellFormedItems xs

def wellFormedMembers : List (PyStr × Json F) → Bool
  | [] => true
  | (k, x) :: ms => noPair k && (ms.lookup k).isNone && wellFormed x && wellFormedMembers ms

end

lemma isHigh_eq_false {c : PyChar} (h : 0x10000 ≤ c.val) : isHigh c = false := by
  simp only [isHigh, Bool.and_eq_false_iff, decide_eq_false_iff_not]
  omega

lemma isLow_eq_false {c : PyChar} (h : 0x10000 ≤ c.val) : isLow c = false := by
  simp only [isLow, Bool.and_eq_false_iff, decide_eq_false_iff_not]
  omega

end Json
