/-
Values in generated PHP (`utils.py`).

`escape_php_string` escapes backslashes and single quotes.  Between single quotes the literal has
exactly the value, whatever stands behind it.  Between double quotes that holds of the texts only
in which no quote occurs and no variable begins.
-/
import MediawikiCharm.Lib.PhpLiteral
import MediawikiCharm.Lib.PhpTokens
import MediawikiCharm.LogRedaction

namespace MediawikiCharm
namespace PhpStrings

open PyText Php

/-- What `escape_php_string` makes of a character. -/
def escapeChar (c : PyChar) : PyStr :=
  if c = ofChar '\\' then lit "\\\\" else if c = ofChar '\'' then lit "\\'" else [c]

lemma escapePhpString_eq (s : PyStr) : escapePhpString s = s.flatMap escapeChar := by
  rw [escapePhpString, List.flatMap_assoc]
  refine List.flatMap_congr fun c _ => ?_
  unfold escapeChar
  split_ifs with hslash hquote
  · decide
  · rw [hquote]
    rfl
  · simp [hquote]

@[simp] lemma escapePhpString_nil : escapePhpString [] = [] := rfl

lemma escapePhpString_cons (c : PyChar) (s : PyStr) :
    escapePhpString (c :: s) = escapeChar c ++ escapePhpString s := by
  rw [escapePhpString_eq, escapePhpString_eq, List.flatMap_cons]

/-! ### Single quotes -/

/-- An escaped text is read as the text. -/
theorem scan_escapePhpString (value s : PyStr) :
    scan (.quoted value) (escapePhpString s) = (.quoted (value ++ s), []) := by
  induction s generalizing value with
  | nil =>
    rw [List.append_nil]
    rfl
  | cons c s ih =>
    have hchar : scan (.quoted value) (escapeChar c) = (.quoted (value ++ [c]), []) := by
      unfold escapeChar
      split_ifs with hslash hquote
      · rw [hslash]
        rfl
      · rw [hquote]
        rfl
      · rw [scan_cons, step]
        dsimp only
        rw [if_neg hquote, if_neg hslash]
        rfl
    rw [escapePhpString_cons, scan_append, hchar, ih, List.append_assoc]
    rfl

/-- An escaped text is read up to the quote behind it. -/
lemma readSingle_escapePhpString (s rest : PyStr) :
    readSingle (escapePhpString s ++ ofChar '\'' :: rest) = some (s, rest) := by
  induction s with
  | nil => exact readSingle_quote rest
  | cons c s ih =>
    have hchar : readSingle (escapeChar c ++ (escapePhpString s ++ ofChar '\'' :: rest)) =
        (readSingle (escapePhpString s ++ ofChar '\'' :: rest)).map (Prod.map (c :: ·) id) := by
      unfold escapeChar
      split_ifs with hslash hquote
      · rw [hslash]
        exact readSingle_escape (.inr rfl) _
      · rw [hquote]
        exact readSingle_escape (.inl rfl) _
      · exact readSingle_cons hquote hslash _
    rw [escapePhpString_cons, List.append_assoc, hchar, ih]
    rfl

/-- No beginning of an escaped text has the quote that would close the literal. -/
lemma readSingle_take_escapePhpString (s : PyStr) (n : ℕ) :
    readSingle ((escapePhpString s).take n) = none := by
  cases hread : readSingle ((escapePhpString s).take n) with
  | none => rfl
  | some read =>
    obtain ⟨value, rest⟩ := read
    have hlonger := readSingle_append hread ((escapePhpString s).drop n ++ [ofChar '\''])
    rw [← List.append_assoc, List.take_append_drop, readSingle_escapePhpString] at hlonger
    have hrest := (Prod.mk.inj (Option.some.inj hlonger)).2
    exact absurd hrest (by simp)

lemma escapePhpString_injective : Function.Injective escapePhpString := by
  intro s t h
  have hs := readSingle_escapePhpString s []
  rw [h, readSingle_escapePhpString] at hs
  exact (Prod.mk.inj (Option.some.inj hs)).1.symm

/-- An escaped text between single quotes is read as the text, whatever stands behind it.  So
different texts are escaped differently, and no text closes its literal early. -/
theorem escapePhpString_roundtrip :
    (∀ s rest : PyStr, readLiteral (ofChar '\'' :: (escapePhpString s ++ ofChar '\'' :: rest)) =
      some (s, rest)) ∧
    Function.Injective escapePhpString ∧
    ∀ (s : PyStr) (n : ℕ),
      readLiteral (ofChar '\'' :: (escapePhpString s).take n) = none := by
  refine ⟨fun s rest => ?_, escapePhpString_injective, fun s n => ?_⟩
  · rw [readLiteral, if_pos rfl, readSingle_escapePhpString]
  · rw [readLiteral, if_pos rfl, readSingle_take_escapePhpString]

/-! ### Double quotes -/

/-- The text between double quotes. -/
def doubleQuoted (s : PyStr) : PyStr := ofChar '"' :: escapePhpString s ++ [ofChar '"']

/-- The text is one complete literal between double quotes, and the value of that is `value`. -/
def IsLiteralOf (value text : PyStr) : Prop :=
  ∃ s, text = ofChar '"' :: s ∧ readDouble 0 s = some (value.flatMap encodeChar, [])

/-- The first character of an escaped text, or the quote behind it. -/
lemma head_escaped (s : PyStr) : (escapePhpString s ++ [ofChar '"']).head? = some (ofChar '"') ∧
    s = [] ∨ ∃ c t, s = c :: t ∧ (escapePhpString s ++ [ofChar '"']).head? =
      some (if c = ofChar '\'' then ofChar '\\' else c) := by
  cases s with
  | nil => exact .inl ⟨rfl, rfl⟩
  | cons c t =>
    refine .inr ⟨c, t, rfl, ?_⟩
    rw [escapePhpString_cons]
    unfold escapeChar
    split_ifs with hslash hquote hquote
    · rw [hslash] at hquote
      exact absurd hquote (by decide)
    · rw [hslash]
      rfl
    · rfl
    · rfl

lemma startsVariable_escaped (s : PyStr) :
    startsVariable (escapePhpString s ++ [ofChar '"']) = startsVariable s := by
  unfold startsVariable
  rcases head_escaped s with ⟨hhead, rfl⟩ | ⟨c, t, rfl, hhead⟩
  · rw [hhead]
    decide
  · rw [hhead, List.head?_cons]
    split_ifs with hquote
    · rw [hquote]
      decide
    · rfl

lemma head_escaped_dollar (s : PyStr) :
    (escapePhpString s ++ [ofChar '"']).head? = some (ofChar '$') ↔ s.head? = some (ofChar '$') := by
  rcases head_escaped s with ⟨hhead, rfl⟩ | ⟨c, t, rfl, hhead⟩
  · rw [hhead]
    decide
  · rw [hhead, List.head?_cons]
    split_ifs with hquote
    · rw [hquote]
      decide
    · rfl

/-- A character that is not a quote stands for itself, but for a backslash in front of `'`. -/
lemma readDouble_escaped_cons {c : PyChar} {s : PyStr} {value : List UInt8} {rest : PyStr}
    (hc : c ≠ ofChar '"')
    (h : readDouble 0 (escapePhpString (c :: s) ++ [ofChar '"']) = some (value, rest)) :
    ∃ tail, readDouble 0 (escapePhpString s ++ [ofChar '"']) = some (tail, rest) ∧
      value = (if c = ofChar '\'' then encodeChar (ofChar '\\') else []) ++ encodeChar c ++ tail ∧
      (c = ofChar '$' → startsVariable s = false) ∧
      (c = ofChar '{' → s.head? ≠ some (ofChar '$')) := by
  rw [escapePhpString_cons, List.append_assoc] at h
  unfold escapeChar at h
  split_ifs at h with hslash hquote
  · have hread := readDouble_backslash (escapePhpString s ++ [ofChar '"'])
      (.inl (rfl : ofChar '\\' = ofChar '\\'))
    obtain ⟨⟨tail, rest'⟩, htail, hvalue⟩ := Option.map_eq_some_iff.mp (hread.symm.trans h)
    obtain ⟨rfl, rfl⟩ := Prod.mk.inj hvalue
    subst hslash
    exact ⟨tail, htail, rfl, fun hne => absurd hne (by decide), fun hne => absurd hne (by decide)⟩
  · have hread := readDouble_backslash (escapePhpString s ++ [ofChar '"'])
      (.inr (rfl : ofChar '\'' = ofChar '\''))
    obtain ⟨⟨tail, rest'⟩, htail, hvalue⟩ := Option.map_eq_some_iff.mp (hread.symm.trans h)
    obtain ⟨rfl, rfl⟩ := Prod.mk.inj hvalue
    subst hquote
    exact ⟨tail, htail, rfl, fun hne => absurd hne (by decide), fun hne => absurd hne (by decide)⟩
  · rw [List.singleton_append, readDouble, if_neg hc] at h
    split_ifs at h with hdollar hbrace
    obtain ⟨⟨tail, rest'⟩, htail, hvalue⟩ := Option.map_eq_some_iff.mp h
    obtain ⟨rfl, rfl⟩ := Prod.mk.inj hvalue
    refine ⟨tail, htail, by rw [if_neg hquote]; rfl, fun heq => ?_, fun heq hs => ?_⟩
    · rw [startsVariable_escaped] at hdollar
      exact Bool.eq_false_iff.mpr fun hs => hdollar ⟨heq, hs⟩
    · exact hbrace ⟨heq, (head_escaped_dollar s).mpr hs⟩

/-- A quote ends the literal, before its last character. -/
lemma readDouble_escaped_quote {s : PyStr} {value : List UInt8}
    (h : readDouble 0 (escapePhpString (ofChar '"' :: s) ++ [ofChar '"']) = some (value, [])) :
    False := by
  have hread : readDouble 0 (escapePhpString (ofChar '"' :: s) ++ [ofChar '"']) =
      some ([], escapePhpString s ++ [ofChar '"']) := rfl
  rw [hread, Option.some.injEq, Prod.mk.injEq] at h
  exact List.append_ne_nil_of_right_ne_nil _ (List.cons_ne_nil _ _) h.2

/-- What is read is no shorter than the text that was escaped. -/
lemma length_le_of_readDouble {s : PyStr} {value : List UInt8}
    (h : readDouble 0 (escapePhpString s ++ [ofChar '"']) = some (value, [])) :
    (s.flatMap encodeChar).length ≤ value.length := by
  induction s generalizing value with
  | nil => exact Nat.zero_le _
  | cons c s ih =>
    by_cases hc : c = ofChar '"'
    · rw [hc] at h
      exact (readDouble_escaped_quote h).elim
    · obtain ⟨tail, htail, rfl, -, -⟩ := readDouble_escaped_cons hc h
      have hle := ih htail
      simp only [List.flatMap_cons, List.length_append]
      omega

/-- Between double quotes an escaped text is read as the text exactly if it is plain. -/
lemma readDouble_eq_iff (s : PyStr) :
    readDouble 0 (escapePhpString s ++ [ofChar '"']) = some (s.flatMap encodeChar, []) ↔
      isPlain s = true := by
  induction s with
  | nil => exact ⟨fun _ => rfl, fun _ => rfl⟩
  | cons c s ih =>
    simp only [isPlain, Bool.and_eq_true, decide_eq_true_eq, Bool.not_eq_true',
      Bool.and_eq_false_iff, decide_eq_false_iff_not, ne_eq]
    constructor
    · intro h
      have hc : c ≠ ofChar '"' := by
        rintro rfl
        exact readDouble_escaped_quote h
      obtain ⟨tail, htail, hvalue, hdollar, hbrace⟩ := readDouble_escaped_cons hc h
      -- a backslash that is read would make the value too long
      have hapostrophe : c ≠ ofChar '\'' := by
        rintro rfl
        have hle := length_le_of_readDouble htail
        have hlength := congrArg List.length hvalue
        simp only [List.flatMap_cons, List.length_append, if_true] at hlength
        have hpos : (encodeChar (ofChar '\\')).length = 1 := by decide
        omega
      rw [if_neg hapostrophe, List.nil_append, List.flatMap_cons] at hvalue
      refine ⟨⟨⟨⟨hc, hapostrophe⟩, ?_⟩, ?_⟩, ih.mp ?_⟩
      · exact or_iff_not_imp_left.mpr fun h => hdollar (not_not.mp h)
      · exact or_iff_not_imp_left.mpr fun h => hbrace (not_not.mp h)
      · rw [htail, List.append_cancel_left hvalue]
    · rintro ⟨⟨⟨⟨hc, hapostrophe⟩, hdollar⟩, hbrace⟩, hs⟩
      rw [escapePhpString_cons, List.append_assoc]
      unfold escapeChar
      split_ifs with hslash
      · have hread := readDouble_backslash (escapePhpString s ++ [ofChar '"'])
          (.inl (rfl : ofChar '\\' = ofChar '\\'))
        rw [if_pos rfl, ih.mpr hs] at hread
        subst hslash
        exact hread
      · rw [List.singleton_append, readDouble_plain hc hslash, ih.mpr hs]
        · rfl
        · rw [startsVariable_escaped]
          exact fun heq => hdollar.resolve_left fun h => h heq
        · rw [ne_eq, head_escaped_dollar]
          exact fun heq => hbrace.resolve_left fun h => h heq

theorem isLiteralOf_doubleQuoted (s : PyStr) :
    IsLiteralOf s (doubleQuoted s) ↔ isPlain s = true := by
  rw [← readDouble_eq_iff s]
  constructor
  · rintro ⟨t, htext, hread⟩
    rw [doubleQuoted, List.cons_append, List.cons.injEq] at htext
    rwa [htext.2]
  · exact fun hread => ⟨_, rfl, hread⟩

end PhpStrings
end MediawikiCharm
