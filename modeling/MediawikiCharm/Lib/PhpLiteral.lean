/-
Literals of PHP between double quotes.

A literal is a constant only if no variable begins in it.  Some of its escapes stand for single
bytes, so that its value is a sequence of bytes.  Bytes from 0x80 on count as letters of variable
names, hence so does every code point from there on.
-/
import MediawikiCharm.Lib.PyText

namespace Php

open PyText

/-- A code point with which the name of a variable can begin. -/
def isLabelStart (c : PyChar) : Bool :=
  (0x41 ≤ c.val && c.val ≤ 0x5a) || (0x61 ≤ c.val && c.val ≤ 0x7a) || c = ofChar '_' ||
    0x80 ≤ c.val

/-- A `$` in front of the text begins a variable. -/
def startsVariable (s : PyStr) : Bool :=
  s.head?.any fun c => isLabelStart c || c = ofChar '{'

/-- The value of a hexadecimal digit. -/
def hexValue (c : PyChar) : Option ℕ :=
  if 0x30 ≤ c.val ∧ c.val ≤ 0x39 then some (c.val - 0x30)
  else if 0x41 ≤ c.val ∧ c.val ≤ 0x46 then some (c.val - 0x37)
  else if 0x61 ≤ c.val ∧ c.val ≤ 0x66 then some (c.val - 0x57)
  else none

/-- The value of an octal digit. -/
def octalValue (c : PyChar) : Option ℕ :=
  if 0x30 ≤ c.val ∧ c.val ≤ 0x37 then some (c.val - 0x30) else none

/-- The number that digits in front of a text stand for, and how many they are. -/
def readDigits (base : ℕ) (value : PyChar → Option ℕ) (s : PyStr) : ℕ × ℕ :=
  let digits := s.takeWhile fun c => (value c).isSome
  (digits.foldl (fun n c => base * n + (value c).getD 0) 0, digits.length)

/-- The escapes of one character. -/
def simpleEscape (c : PyChar) : Option ℕ :=
  if c = ofChar 'n' then some 0xa
  else if c = ofChar 't' then some 0x9
  else if c = ofChar 'r' then some 0xd
  else if c = ofChar 'v' then some 0xb
  else if c = ofChar 'f' then some 0xc
  else if c = ofChar 'e' then some 0x1b
  else if c = ofChar '"' ∨ c = ofChar '\\' ∨ c = ofChar '$' then some c.val
  else none

/-- The bytes for which a backslash in front of the text stands, with the characters that it
takes; `none` where PHP refuses the escape. -/
def readEscape : PyStr → Option (List UInt8 × ℕ)
  | [] => none
  | c :: s =>
    match simpleEscape c with
    | some n => some ([.ofNat n], 1)
    | none =>
      if (c = ofChar 'x' ∨ c = ofChar 'X') ∧ s.head?.any (fun d => (hexValue d).isSome) then
        let (n, length) := readDigits 16 hexValue (s.take 2)
        some ([.ofNat n], length + 1)
      else if (octalValue c).isSome then
        let (n, length) := readDigits 8 octalValue ((c :: s).take 3)
        some ([.ofNat (n % 0x100)], length)
      else if c = ofChar 'u' ∧ s.head? = some (ofChar '{') then
        let (n, length) := readDigits 16 hexValue (s.drop 1)
        if length ≠ 0 ∧ (s.drop (length + 1)).head? = some (ofChar '}') ∧ n < 0x110000 then
          some (encodeChar (Fin.ofNat _ n), length + 3)
        else none
      else some (encodeChar (ofChar '\\') ++ encodeChar c, 1)

/-- Read a literal whose opening quote was read: its value, and what follows the closing quote.
The first `skip` characters belong to an escape that was read; `none` if the literal does not
end, has an escape that is refused, or is no constant. -/
def readDouble : ℕ → PyStr → Option (List UInt8 × PyStr)
  | _, [] => none
  | skip + 1, _ :: s => readDouble skip s
  | 0, c :: s =>
    if c = ofChar '"' then some ([], s)
    else if c = ofChar '$' ∧ startsVariable s then none
    else if c = ofChar '{' ∧ s.head? = some (ofChar '$') then none
    else if c = ofChar '\\' then
      match readEscape s with
      | none => none
      | some (bytes, length) => (readDouble length s).map fun r => (bytes ++ r.1, r.2)
    else (readDouble 0 s).map fun r => (encodeChar c ++ r.1, r.2)

/-- A text that stands for itself between double quotes, but for its backslashes: it has no quotes
and no variable begins in it. -/
def isPlain : PyStr → Bool
  | [] => true
  | c :: s => c ≠ ofChar '"' && c ≠ ofChar '\'' && !(c = ofChar '$' && startsVariable s) &&
    !(c = ofChar '{' && s.head? = some (ofChar '$')) && isPlain s

/-! ### Reading one character -/

lemma readDouble_backslash {d : PyChar} (s : PyStr) (hd : d = ofChar '\\' ∨ d = ofChar '\'') :
    readDouble 0 (ofChar '\\' :: d :: s) = (readDouble 0 s).map fun r =>
      ((if d = ofChar '\\' then encodeChar d else encodeChar (ofChar '\\') ++ encodeChar d) ++ r.1,
        r.2) := by
  rcases hd with rfl | rfl
  · rfl
  · rfl

lemma readDouble_plain {c : PyChar} {s : PyStr} (hquote : c ≠ ofChar '"') (hslash : c ≠ ofChar '\\')
    (hdollar : c = ofChar '$' → startsVariable s = false)
    (hbrace : c = ofChar '{' → s.head? ≠ some (ofChar '$')) :
    readDouble 0 (c :: s) = (readDouble 0 s).map fun r => (encodeChar c ++ r.1, r.2) := by
  rw [readDouble, if_neg hquote, if_neg, if_neg, if_neg hslash]
  · exact fun h => hbrace h.1 h.2
  · rintro ⟨hc, hs⟩
    rw [hdollar hc] at hs
    exact absurd hs nofun

end Php
