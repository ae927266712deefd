/-
The entry of the OAuth provider (`_get_oauth_pluggable_auth_entry` of `mediawiki/_settings.py`).

The data of the provider lose the spaces that their lines have in common.  The entry then loses
the eight spaces that were put in front of these lines, since one of them has no more.
-/
import MediawikiCharm.LateSettings.Auth

namespace MediawikiCharm
namespace LateSettings

set_option maxRecDepth 2000

open PyText Lines Textwrap Php PhpLayout

namespace OAuthEntry

variable (entry : OAuthEntry)

/-! ### The data -/

/-- The pieces of the data with an empty line in front. -/
def dataTextParts : List (PyStr × PyStr) :=
  entry.dataParts.modifyHead fun part => (ofChar '\n' :: part.1, part.2)

/-- The data with an empty line in front. -/
def dataText : PyStr := render entry.dataTextParts []

/-- The values of the data. -/
def values : List PyStr := [entry.issuerUrl, entry.clientId, entry.clientSecret]

lemma hasHead_dataText : HasHead 12 entry.dataText := ⟨ofChar '\'', _, by decide, rfl⟩

lemma isText_dataText : IsText entry.dataText (scanned entry.dataTextParts) [] := by
  refine ⟨_, _, rfl, ⟨?_, by decide⟩, rfl, rfl⟩
  simp only [dataTextParts, dataParts, List.modifyHead_cons, List.forall_mem_cons,
    List.not_mem_nil, false_implies, implies_true, and_true]
  repeat rw [lit_ofList]
  decide

lemma le_depth_dataText {n : ℕ} : n ≤ depth entry.dataText ↔
    n ≤ 12 ∧ ∀ s ∈ entry.values, Indents newlines n s := by
  refine le_depth_render entry.hasHead_dataText ?_ (by decide)
  simp only [dataTextParts, dataParts, List.modifyHead_cons, List.forall_mem_cons,
    List.not_mem_nil, false_implies, implies_true, and_true]
  repeat rw [lit_ofList]
  decide

/-- The tokens and values that are shown: the values of the provider after one change, the others
after another. -/
def shownParts (code : List Token) (g h : PyStr → PyStr) : List (List Token × PyStr) :=
  (code, g entry.issuerUrl) ::
    ((scan .code (lit ", 'clientID' => ")).2, g entry.clientId) ::
    ((scan .code (lit ", 'clientSecret' => ")).2, g entry.clientSecret) ::
    (scanned entry.moreParts).map (Prod.map id h)

lemma map_shownParts (code : List Token) (g h k : PyStr → PyStr) :
    (entry.shownParts code g h).map (Prod.map id k) = entry.shownParts code (k ∘ g) (k ∘ h) := by
  simp only [shownParts, List.map_cons, List.map_map, Prod.map_comp_map]
  rfl

lemma isText_append_shownParts {text y : PyStr} {code ts us : List Token} {g h : PyStr → PyStr}
    (htext : IsText text [] ts) (hy : IsText y (entry.shownParts code g h) us) :
    IsText (text ++ y) (entry.shownParts (ts ++ code) g h) us :=
  htext.append hy

lemma isTemplate_moreParts : IsTemplate newlines entry.moreParts [] := by
  have hcode : IsCode newlines (lit ",\n'scope' => ") ∧ IsCode newlines (lit ",\n'proxy' => ") := by
    repeat rw [lit_ofList]
    decide
  refine ⟨List.forall_mem_append.2 ⟨?_, ?_⟩, by decide⟩
  · rw [List.forall_mem_map]
    exact fun _ _ => hcode.1
  · rw [List.forall_mem_map]
    exact fun _ _ => hcode.2

/-- The data and what is put behind them. -/
def data : PyStr := Textwrap.dedent (render entry.dataParts []) ++ render entry.moreParts []

lemma isText_data : IsText entry.data
    (entry.shownParts (scan .code (lit "'providerURL' => ")).2
      (relay newlines (.dedent (depth entry.dataText))) id) [] := by
  have hdedent := entry.isText_dataText.dedent entry.hasHead_dataText
  have hcons : Textwrap.dedent entry.dataText =
      ofChar '\n' :: Textwrap.dedent (render entry.dataParts []) := dedent_cons _
  rw [hcons] at hdedent
  have hcode : (scan .code (lit "'providerURL' => ")).2 =
        (scan .code (ofChar '\n' :: lit "            'providerURL' => ")).2 ∧
      (scan .code (lit ", 'clientID' => ")).2 =
        (scan .code (lit ",\n            'clientID' => ")).2 ∧
      (scan .code (lit ", 'clientSecret' => ")).2 =
        (scan .code (lit ",\n            'clientSecret' => ")).2 := by
    repeat rw [lit_ofList]
    decide
  rw [shownParts, hcode.1, hcode.2.1, hcode.2.2, Prod.map_id, List.map_id]
  exact hdedent.of_cons_newline.append_parts entry.isTemplate_moreParts

/-- The data without the spaces that they have in common. -/
lemma data_eq : ∃ code, entry.data = render ((code, relay newlines
      (.dedent (depth entry.dataText)) entry.issuerUrl) ::
    (entry.dataTextParts.tail.map (relayPart newlines (.dedent (depth entry.dataText))) ++
      entry.moreParts)) [] := by
  have hlines : Textwrap.dedent entry.dataText = render (entry.dataTextParts.map
      (relayPart newlines (.dedent (depth entry.dataText)))) [] := by
    rw [dedent_eq_mapTail entry.hasHead_dataText]
    exact mapTail_render (fitsAll_depth entry.hasHead_dataText)
  have hcons : ofChar '\n' :: entry.data = render ((relay newlines
        (.dedent (depth entry.dataText)) (ofChar '\n' :: lit "            'providerURL' => "),
        relay newlines (.dedent (depth entry.dataText)) entry.issuerUrl) ::
      (entry.dataTextParts.tail.map (relayPart newlines (.dedent (depth entry.dataText))) ++
        entry.moreParts)) [] := by
    have hfirst : ofChar '\n' :: entry.data =
        Textwrap.dedent entry.dataText ++ render entry.moreParts [] := by
      rw [show Textwrap.dedent entry.dataText = _ from dedent_cons _]
      rfl
    rw [hfirst, hlines, ← render_rest, List.nil_append, ← render_append]
    rfl
  cases hcode : relay newlines (.dedent (depth entry.dataText))
      (ofChar '\n' :: lit "            'providerURL' => ") with
  | nil =>
    rw [hcode] at hcons
    exact absurd (List.cons.inj hcons).1 (by decide)
  | cons c code =>
    rw [hcode] at hcons
    exact ⟨code, (List.cons.inj hcons).2⟩

/-- A line of the data begins without a space. -/
lemma not_fitsAll_data : ¬ FitsAll newlines (.dedent 1) entry.data := by
  intro h
  obtain ⟨code, hdata⟩ := entry.data_eq
  have hmargin := (le_depth_iff entry.hasHead_dataText).1 le_rfl
  obtain ⟨hparts, -⟩ := fitsAll_render.1 hmargin
  rw [hdata, fitsAll_render] at h
  simp only [dataTextParts, dataParts, List.modifyHead_cons, List.tail_cons, List.map_cons,
    List.map_nil, List.cons_append, List.nil_append, List.forall_mem_cons] at h hparts
  obtain ⟨⟨⟨-, hissuer⟩, ⟨hcode, hclient⟩, ⟨-, hsecret⟩, -⟩, -⟩ := h
  obtain ⟨⟨-, h₁⟩, ⟨h₂, h₃⟩, ⟨-, h₄⟩, -⟩ := hparts
  have hmore : ∀ {s : PyStr}, Fits newlines (.dedent (depth entry.dataText)) s →
      Indents newlines 1 (relay newlines (.dedent (depth entry.dataText)) s) →
      Indents newlines (depth entry.dataText + 1) s := fun hfits h =>
    (indents_relay (k := 1) hfits).1 h
  have hle : depth entry.dataText + 1 ≤ 12 := by
    by_contra hlarge
    have hcode' := (hmore h₂ hcode).mono (show 13 ≤ _ by omega)
    rw [lit_ofList] at hcode'
    exact absurd hcode' (by decide)
  have hdeeper : depth entry.dataText + 1 ≤ depth entry.dataText := by
    refine entry.le_depth_dataText.2 ⟨hle, ?_⟩
    simp only [values, List.forall_mem_cons, List.not_mem_nil, false_implies, implies_true,
      and_true]
    exact ⟨hmore h₁ hissuer, hmore h₃ hclient, hmore h₄ hsecret⟩
  omega

/-! ### The entry -/

/-- The entry with an empty line in front, before it is laid out. -/
def entryText : PyStr := ofChar '\n' :: (entryHead ++ entry.dataStr ++ entryRest)

/-- The code in front of the line of the data. -/
def entryLines : PyStr := lit "
            'OpenIDConnect' => [
                'plugin' => 'OpenIDConnect',
                'data' => ["

lemma entryText_eq : entry.entryText =
    entryLines ++ ofChar '\n' :: (spaces 20 ++ (entry.dataStr ++ entryRest)) := by
  have hhead : ofChar '\n' :: entryHead = entryLines ++ ofChar '\n' :: spaces 20 := by
    rw [entryHead, entryLines, lit_ofList, lit_ofList]
    decide
  have hcons : entry.entryText = ofChar '\n' :: entryHead ++ (entry.dataStr ++ entryRest) := by
    rw [List.cons_append, entryText, List.append_assoc]
  rw [hcons, hhead, List.append_assoc, List.cons_append]

lemma dedent_entryText : Textwrap.dedent entry.entryText = ofChar '\n' :: entry.text :=
  dedent_cons _

lemma hasHead_entryText : HasHead 12 entry.entryText := by
  have hhead : entryHead = spaces 12 ++ ofChar '\'' :: entryHead.drop 13 := by
    rw [entryHead, lit_ofList]
    decide
  refine ⟨ofChar '\'', entryHead.drop 13 ++ (entry.dataStr ++ entryRest), by decide, ?_⟩
  rw [entryText, List.append_assoc]
  conv_lhs => rw [hhead]
  rw [List.append_assoc, List.cons_append]

/-- The entry loses the eight spaces that were put in front of the lines of the data. -/
lemma depth_entryText : depth entry.entryText = 8 := by
  have hrest : entryRest = ofChar '\n' :: entryRest.tail := by
    rw [entryRest, lit_ofList]
    decide
  have hcode : FitsAll newlines (.dedent 8) entryLines ∧ FitsAll newlines (.dedent 8) entryRest := by
    rw [entryLines, entryRest, lit_ofList, lit_ofList]
    decide
  have hfits : ∀ n, n ≤ 20 → (n ≤ depth entry.entryText ↔ FitsAll newlines (.dedent n) entryLines ∧
      FitsAll newlines (.dedent n) entry.dataStr ∧ FitsAll newlines (.dedent n) entryRest) := by
    intro n hn
    rw [le_depth_iff entry.hasHead_entryText, entryText_eq, fitsAll_append_break rfl,
      fitsAll_cons_spaces hn]
    conv_lhs => rw [hrest]
    rw [fitsAll_append_break rfl, ← hrest]
  have hge : 8 ≤ depth entry.entryText :=
    (hfits 8 (by omega)).2 ⟨hcode.1, fitsAll_of_le le_rfl, hcode.2⟩
  have hle : ¬ 9 ≤ depth entry.entryText := fun h =>
    entry.not_fitsAll_data (fitsAll_indentNewlines_add.1 ((hfits 9 (by omega)).1 h).2.1)
  omega

/-- What becomes of a value of the data in the entry, and in the settings. -/
def relayEntry (v : PyStr) : PyStr :=
  relay newlines (.dedent 8) (relay newlines (.indentNewlines 8) v)

lemma isText_dedent_entryText : IsText (Textwrap.dedent entry.entryText)
    (entry.shownParts (scan .code AuthInputs.oauthCode).2
      (relayEntry ∘ relay newlines (.dedent (depth entry.dataText))) relayEntry)
    (scan .code (lit "]]")).2 := by
  have hcode : (IsCode newlines (ofChar '\n' :: entryHead) ∧ IsCode newlines entryRest) ∧
      (scan .code AuthInputs.oauthCode).2 = (scan .code (ofChar '\n' :: entryHead)).2 ++
        (scan .code (lit "'providerURL' => ")).2 ∧
      (scan .code (lit "]]")).2 = (scan .code entryRest).2 := by
    rw [AuthInputs.oauthCode, entryHead, entryRest]
    repeat rw [lit_ofList]
    decide
  obtain ⟨⟨hhead, hrest⟩, hfirst, hlast⟩ := hcode
  have hdata := entry.isText_data.indentNewlines (n := 8)
  rw [map_shownParts] at hdata
  have htext : IsText entry.entryText _ _ :=
    (entry.isText_append_shownParts (IsText.of_isCode hhead) hdata).append_code hrest
  have hentry := htext.dedent entry.hasHead_entryText
  rwa [map_shownParts, depth_entryText, ← hfirst, List.nil_append, ← hlast] at hentry

end OAuthEntry

end LateSettings
end MediawikiCharm
