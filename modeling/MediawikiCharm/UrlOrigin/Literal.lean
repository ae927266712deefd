/-
The origin of the wiki in `LocalSettings.php`.

`$wgServer` is set to the accepted value between double quotes, with the escapes of single quotes.
Outside of a scope identifier an accepted value has no character that matters there.  A scope
identifier may be any text, so that it can end the literal, put a backslash into its value or name
a variable.
-/
import MediawikiCharm.PhpStrings
import MediawikiCharm.UrlOrigin.Grammar

namespace MediawikiCharm
namespace UrlOrigin

open PyText PyAddress PyUrl Php PhpStrings

variable {u : UnicodeData} {v w : PyStr} {p : Parts}

/-- A visible character is not dropped. -/
lemma mem_cleaned_of {c : PyChar} (hc : c ∈ w) (hvisible : 0x20 < c.val) : c ∈ cleaned w := by
  refine List.mem_filter.2 ⟨?_, ?_⟩
  · rw [← List.takeWhile_append_dropWhile (p := fun c : PyChar => decide (c.val ≤ 0x20)) (l := w),
      List.mem_append] at hc
    refine hc.resolve_left fun hmem => ?_
    have hlow : decide (c.val ≤ 0x20) = true :=
      List.mem_takeWhile_imp (p := fun c : PyChar => decide (c.val ≤ 0x20)) hmem
    simp only [decide_eq_true_eq] at hlow
    omega
  · simp only [isUnsafe, Bool.not_eq_true', Bool.or_eq_false_iff, decide_eq_false_iff_not]
    refine ⟨⟨?_, ?_⟩, ?_⟩
    · rintro rfl
      exact absurd hvisible (by decide)
    · rintro rfl
      exact absurd hvisible (by decide)
    · rintro rfl
      exact absurd hvisible (by decide)

/-- The characters that matter between double quotes stand in no part but a scope identifier. -/
lemma not_mem_text (h : p.Accepted u) (hpercent : ofChar '%' ∉ p.host) {d : PyChar}
    (hd : d ∈ [ofChar '"', ofChar '\'', ofChar '$']) : d ∉ p.text := by
  have hfacts : ([ofChar '"', ofChar '\'', ofChar '$'].all fun d => d.val < 0x41 ∧
      isNameChar d = false ∧ isAddressChar d = false ∧ isSchemeChar d = false ∧ isDigit d = false ∧
      d ≠ ofChar ':' ∧ d ∉ [ofChar '[', ofChar ']', ofChar '%'] ∧
      ∀ part ∈ [lit "//", [], lit "@", lit ":@", lit "?", lit "#", lit "?#"], d ∉ part) = true := by
    decide
  obtain ⟨hrange, hname, haddress, hscheme, hdigit, hcolon, hbracket, hparts⟩ :=
    of_decide_eq_true (List.all_eq_true.1 hfacts d hd)
  simp only [Parts.text, Parts.netloc, List.mem_append]
  rintro (hmem | hmem | (hmem | hmem | hmem) | hmem)
  · rcases mem_of_isScheme h.scheme d hmem with hchar | hchar
    · exact Bool.noConfusion (hchar.symm.trans hscheme)
    · exact hcolon hchar
  · exact hparts _ (by decide) hmem
  · refine hparts _ ?_ hmem
    have hui := h.userinfo
    simp only [IsEmptyUserinfo, List.mem_cons, List.not_mem_nil, or_false] at hui ⊢
    tauto
  · exact not_mem_looseHost_of h.host (.inl hrange) hname haddress hbracket
      (fun hzone => absurd hzone hpercent) hmem
  · rcases mem_loosePort h.port d hmem with hchar | hchar
    · exact Bool.noConfusion (hchar.symm.trans hdigit)
    · exact hcolon hchar
  · refine hparts _ ?_ hmem
    have htail := h.tail
    simp only [IsEmptyTail, List.mem_cons, List.not_mem_nil, or_false] at htail ⊢
    tauto

/-- A text without quotes and dollar signs is plain. -/
lemma isPlain_of_not_mem
    (h : ∀ d ∈ [ofChar '"', ofChar '\'', ofChar '$'], d ∉ w) : isPlain w = true := by
  induction w with
  | nil => rfl
  | cons c w ih =>
    have hhead : ∀ d ∈ [ofChar '"', ofChar '\'', ofChar '$'], c ≠ d := fun d hd hcd =>
      h d hd (hcd ▸ List.mem_cons_self)
    have htail : w.head? ≠ some (ofChar '$') := fun hw =>
      h _ (by decide) (List.mem_cons_of_mem c (List.mem_of_head? hw))
    have hw := ih fun d hd hmem => h d hd (List.mem_cons_of_mem c hmem)
    simp [isPlain, hw, htail, hhead (ofChar '"') (by decide), hhead (ofChar '\'') (by decide),
      hhead (ofChar '$') (by decide)]

/-- An accepted value without a scope identifier is plain. -/
lemma isPlain_of_accepted (h : validateUrlOrigin u v = .ok w) (hpercent : ofChar '%' ∉ w) :
    isPlain w = true := by
  obtain ⟨rfl, hnil | ⟨p, haccepted, htext, -⟩⟩ := validateUrlOrigin_eq_ok_iff.1 h
  · rw [hnil]
    rfl
  · refine isPlain_of_not_mem fun d hd hmem => ?_
    have hvisible : ([ofChar '"', ofChar '\'', ofChar '$'].all fun d => 0x20 < d.val) = true := by
      decide
    have hcleaned := mem_cleaned_of hmem (of_decide_eq_true (List.all_eq_true.1 hvisible d hd))
    rw [htext] at hcleaned
    refine not_mem_text haccepted (fun hzone => hpercent ?_) hd hcleaned
    refine (mem_cleaned (w := strip v) ?_).1
    rw [htext]
    simp only [Parts.text, Parts.netloc, List.mem_append]
    tauto

/-- An accepted value is one literal that stands for it exactly if it has no scope identifier, or
no quote stands in that and no variable begins there. -/
theorem isLiteralOf_iff (h : validateUrlOrigin u v = .ok w) :
    IsLiteralOf w (doubleQuoted w) ↔ ofChar '%' ∉ w ∨ isPlain w = true := by
  rw [isLiteralOf_doubleQuoted]
  exact ⟨.inr, fun hw => hw.elim (isPlain_of_accepted h) id⟩

/-- The value of the example is one literal. -/
theorem isLiteralOf_wiki :
    IsLiteralOf (lit "https://wiki.example.com") (doubleQuoted (lit "https://wiki.example.com")) :=
  (isLiteralOf_iff (u := asciiUnicode) (v := lit "https://wiki.example.com") rfl).2
    (.inl (by decide))

/-- A quote in a scope identifier ends the literal. -/
theorem not_isLiteralOf_scope :
    validateUrlOrigin asciiUnicode (lit "//[fe80::1%\"]") = .ok (lit "//[fe80::1%\"]") ∧
      ¬ IsLiteralOf (lit "//[fe80::1%\"]") (doubleQuoted (lit "//[fe80::1%\"]")) := by
  refine ⟨rfl, fun h => ?_⟩
  rw [isLiteralOf_doubleQuoted] at h
  exact absurd h (by decide)

end UrlOrigin
end MediawikiCharm
