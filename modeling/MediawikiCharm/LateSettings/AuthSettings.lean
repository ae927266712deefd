/-
The authentication settings around the OAuth entry (`_get_auth_settings` of
`mediawiki/_settings.py`).

Twenty spaces are put in front of the lines of the entry, and the settings lose twelve.  Eight
remain, so the values are those of the provider exactly if the data lose eight spaces, too.
-/
import MediawikiCharm.LateSettings.OAuth

namespace MediawikiCharm
namespace LateSettings

set_option maxRecDepth 8000

open PyText Lines Textwrap Php PhpLayout

namespace OAuthEntry

variable (entry : OAuthEntry)

/-! ### The code of the settings -/

/-- The code in front of the line of the entry. -/
def linesBefore (saml : Bool) : PyStr :=
  AuthInputs.settingsHead ++
    loadLines (lit "OpenIDConnect" :: if saml then [lit "SimpleSAMLphp"] else []) ++
    lit "
            \x7d
            unset( $_skipAuth );

            $wgPluggableAuth_Config = array_replace_recursive(
                $wgPluggableAuth_Config ?? [],
                ["

/-- What stands between the entries. -/
def comma (saml : Bool) : PyStr := if saml then lit "," else []

/-- The lines behind the entry. -/
def linesBehind (saml : Bool) : PyStr :=
  (if saml then lit "\n                    " ++ indentNewlines 20 samlEntry else []) ++
    AuthInputs.settingsRest

/-- The entry begins on a line of its own. -/
lemma settingsText_eq {i : AuthInputs} (h : i.oauthEntry = some entry) : i.settingsText =
    linesBefore i.saml ++ indentNewlines 20 (Textwrap.dedent entry.entryText ++ comma i.saml) ++
      linesBehind i.saml := by
  have hconfig : AuthInputs.settingsConfig = lit "
            \x7d
            unset( $_skipAuth );

            $wgPluggableAuth_Config = array_replace_recursive(
                $wgPluggableAuth_Config ?? [],
                [" ++ ofChar '\n' :: spaces 20 := by
    rw [AuthInputs.settingsConfig, lit_ofList, lit_ofList]
    decide
  have hjoin : lit ",\n                    " = lit "," ++ lit "\n                    " := rfl
  have hcomma : indentNewlines 20 (lit ",") = lit "," := by decide
  rw [AuthInputs.settingsText, AuthInputs.extensions, AuthInputs.pluggableAuthEntries, h, hconfig,
    indentNewlines_append, dedent_entryText, indentNewlines_cons]
  cases i.saml with
  | true =>
    simp [entriesStr, linesBefore, linesBehind, comma, hjoin, hcomma]
  | false =>
    have hnil : indentNewlines 20 [] = [] := rfl
    simp [entriesStr, linesBefore, linesBehind, comma, hnil]

lemma isCode_linesBefore (saml : Bool) : IsCode newlines (linesBefore saml) := by
  rw [linesBefore, AuthInputs.settingsHead, loadLines]
  repeat rw [lit_ofList]
  cases saml with
  | true => decide
  | false => decide

lemma isCode_comma (saml : Bool) : IsCode newlines (comma saml) := by
  cases saml with
  | true => decide
  | false => decide

lemma isCode_linesBehind (saml : Bool) : IsCode newlines (linesBehind saml) := by
  rw [linesBehind, AuthInputs.settingsRest, samlEntry]
  repeat rw [lit_ofList]
  cases saml with
  | true => decide
  | false => decide

lemma fitsAll_linesBefore (saml : Bool) : FitsAll newlines (.dedent 12) (linesBefore saml) := by
  rw [linesBefore, AuthInputs.settingsHead, loadLines]
  repeat rw [lit_ofList]
  cases saml with
  | true => decide
  | false => decide

lemma exists_linesBehind (saml : Bool) : ∃ s, linesBehind saml = ofChar '\n' :: s := by
  rw [linesBehind, AuthInputs.settingsRest, lit_ofList, lit_ofList]
  cases saml with
  | true => exact ⟨_, rfl⟩
  | false => exact ⟨_, rfl⟩

lemma fitsAll_linesBehind (saml : Bool) : FitsAll newlines (.dedent 12) (linesBehind saml) := by
  rw [linesBehind, AuthInputs.settingsRest, samlEntry]
  repeat rw [lit_ofList]
  cases saml with
  | true => decide
  | false => decide

/-- The layout of the code does not show in its tokens. -/
lemma scan_linesBefore (saml : Bool) :
    (scan .code (AuthInputs.headCode true saml ++ AuthInputs.oauthCode)).2 =
      (scan .code (linesBefore saml)).2 ++ (scan .code AuthInputs.oauthCode).2 := by
  rw [AuthInputs.headCode, AuthInputs.oauthCode, linesBefore, AuthInputs.settingsHead, loadLines]
  repeat rw [lit_ofList]
  cases saml with
  | true => decide
  | false => decide

lemma scan_linesBehind (saml : Bool) : (scan .code (AuthInputs.restCode saml)).2 =
    (scan .code (lit "]]")).2 ++ (scan .code (comma saml)).2 ++
      (scan .code (linesBehind saml)).2 ++ (scan .code (lit "\n")).2 := by
  rw [AuthInputs.restCode, AuthInputs.samlCode, comma, linesBehind, AuthInputs.settingsRest,
    samlEntry]
  repeat rw [lit_ofList]
  cases saml with
  | true => decide
  | false => decide

variable {i : AuthInputs}

lemma hasHead_settingsHead : HasHead 12 AuthInputs.settingsHead := by
  have hhead : AuthInputs.settingsHead =
      ofChar '\n' :: (spaces 12 ++ ofChar '$' :: AuthInputs.settingsHead.drop 14) := by
    rw [AuthInputs.settingsHead, lit_ofList]
    decide
  exact ⟨ofChar '$', _, by decide, hhead⟩

lemma hasHead_settingsText (i : AuthInputs) : HasHead 12 i.settingsText := by
  rw [AuthInputs.settingsText]
  exact hasHead_settingsHead.append.append.append.append

/-- The settings lose the spaces that are put in front of their code. -/
lemma depth_settingsText (h : i.oauthEntry = some entry) : depth i.settingsText = 12 := by
  have hhead := hasHead_settingsText i
  refine le_antisymm (depth_le hhead) ?_
  obtain ⟨s, hs⟩ := exists_linesBehind i.saml
  have hentry : indentNewlines 20 (Textwrap.dedent entry.entryText ++ comma i.saml) =
      ofChar '\n' :: (spaces 20 ++ indentNewlines 20 (entry.text ++ comma i.saml)) := by
    rw [dedent_entryText, List.cons_append, indentNewlines_cons]
  rw [le_depth_iff hhead, entry.settingsText_eq h, hs, fitsAll_append_break rfl, ← hs, hentry,
    fitsAll_append_break rfl, ← hentry]
  exact ⟨⟨fitsAll_linesBefore i.saml, fitsAll_of_le (by omega)⟩, fitsAll_linesBehind i.saml⟩

/-- What becomes of a value of the entry in the settings. -/
def relaySettings (v : PyStr) : PyStr :=
  relay newlines (.dedent 12) (relay newlines (.indentNewlines 20) v)

/-- The code of the settings in front of the first value, and behind the last one. -/
def codeBefore (saml : Bool) : List Token :=
  (scan .code (linesBefore saml)).2 ++ (scan .code AuthInputs.oauthCode).2

def codeBehind (saml : Bool) : List Token :=
  (scan .code (lit "]]")).2 ++ (scan .code (comma saml)).2 ++
    (scan .code (linesBehind saml)).2 ++ (scan .code (lit "\n")).2

lemma isText_getAuthSettings (h : i.oauthEntry = some entry) : IsText i.getAuthSettings
    (entry.shownParts (codeBefore i.saml)
      ((relaySettings ∘ relayEntry) ∘ relay newlines (.dedent (depth entry.dataText)))
      (relaySettings ∘ relayEntry)) (codeBehind i.saml) := by
  have hentries : i.pluggableAuthEntries ≠ [] := by
    rw [AuthInputs.pluggableAuthEntries, h]
    exact List.cons_ne_nil _ _
  have hentry := (entry.isText_dedent_entryText.append_code
    (isCode_comma i.saml)).indentNewlines (n := 20)
  rw [map_shownParts] at hentry
  have htext := (entry.isText_append_shownParts (IsText.of_isCode (isCode_linesBefore i.saml))
    hentry).append_code (isCode_linesBehind i.saml)
  rw [← entry.settingsText_eq h] at htext
  have hsettings := (htext.dedent (hasHead_settingsText i)).append_code
    (show IsCode newlines (lit "\n") by decide)
  have hrelay : relay newlines (.dedent 12) ∘ relay newlines (.indentNewlines 20) =
      relaySettings := rfl
  rw [map_shownParts, entry.depth_settingsText h] at hsettings
  simp only [← Function.comp_assoc, hrelay] at hsettings
  rw [AuthInputs.getAuthSettings, if_neg hentries]
  exact hsettings

lemma settingTokens_eq (h : i.oauthEntry = some entry) : i.settingTokens =
    fill (entry.shownParts (codeBefore i.saml) id id) (codeBehind i.saml) := by
  rw [AuthInputs.settingTokens, h, codeBefore, ← scan_linesBefore, codeBehind, ← scan_linesBehind,
    shownParts, Prod.map_id, List.map_id]
  simp only [scanned, List.map_cons, id_eq]

/-- The scopes and the proxy stay the same. -/
lemma relayMore_of_free {v : PyStr} (hv : Free isNewline v) : relaySettings (relayEntry v) = v := by
  have hsame : ∀ f : Layout, relay newlines f v = v := fun f => relay_of_free hv
  rw [relayEntry, hsame, hsame, relaySettings, hsame, hsame]

lemma free_moreParts : ∀ part ∈ entry.moreParts, Free isNewline part.2 := by
  refine List.forall_mem_append.2 ⟨?_, ?_⟩
  · rw [List.forall_mem_map]
    exact fun s hs => entry.scope_free s (Option.mem_toList.1 hs)
  · rw [List.forall_mem_map]
    exact fun s hs => entry.proxy_free s (Option.mem_toList.1 hs)

/-- Twelve spaces stay of twenty, and none of eight. -/
lemma relaySettings_eq {v : PyStr} (hv : v ∈ entry.values) :
    relaySettings (relayEntry (relay newlines (.dedent (depth entry.dataText)) v)) =
      relay newlines ⟨8, depth entry.dataText, none⟩ v := by
  have hfits : ∀ n, Fits newlines ⟨n, depth entry.dataText, none⟩ v := fun _ =>
    (entry.le_depth_dataText.1 le_rfl).2 v hv
  have hentry : relayEntry (relay newlines (.dedent (depth entry.dataText)) v) =
      relay newlines ⟨0, depth entry.dataText, none⟩ v :=
    relay_dedent_indentNewlines_relay (hfits 0) le_rfl
  rw [hentry]
  exact relay_dedent_indentNewlines_relay (hfits 0) (by omega)

lemma shownParts_eq_iff {code : List Token} {g h : PyStr → PyStr}
    (hmore : ∀ part ∈ entry.moreParts, h part.2 = part.2) :
    entry.shownParts code g h = entry.shownParts code id id ↔ ∀ s ∈ entry.values, g s = s := by
  have hkept : (scanned entry.moreParts).map (Prod.map id h) =
      (scanned entry.moreParts).map (Prod.map id id) := by
    rw [scanned, List.map_map, List.map_map]
    refine List.map_congr_left fun part hpart => ?_
    exact Prod.ext rfl (hmore part hpart)
  simp only [shownParts, hkept, values, List.forall_mem_cons, List.not_mem_nil, false_implies,
    implies_true, and_true, List.cons.injEq, Prod.mk.injEq, true_and, id_eq]

/-- The settings have the values of the provider exactly if these have no line break, or lines
that have eight spaces in common. -/
lemma tokens_getAuthSettings_iff (h : i.oauthEntry = some entry) :
    tokens i.getAuthSettings = some i.settingTokens ↔ Aligned 8 entry.values := by
  rw [(entry.isText_getAuthSettings h).tokens_eq, Option.some_inj, entry.settingTokens_eq h]
  refine Iff.trans (fill_inj ?_) ?_
  · simp only [shownParts, List.map_cons, List.map_map, Prod.map_fst']
  have hmore : ∀ part ∈ entry.moreParts, (relaySettings ∘ relayEntry) part.2 = part.2 := by
    intro part hpart
    rw [Function.comp_apply, relayMore_of_free (entry.free_moreParts part hpart)]
  rw [entry.shownParts_eq_iff hmore, ← aligned_iff (by omega) fun _ => entry.le_depth_dataText]
  refine forall₂_congr fun s hs => ?_
  rw [Function.comp_apply, Function.comp_apply, entry.relaySettings_eq hs]

end OAuthEntry

namespace AuthInputs

variable (i : AuthInputs)

/-- The code of the settings with the SAML entry only. -/
def samlText : PyStr :=
  settingsHead ++ loadLines [lit "SimpleSAMLphp"] ++ settingsConfig ++ entriesStr [samlEntry] ++
    settingsRest

lemma tokens_samlText : tokens (Textwrap.dedent samlText ++ lit "\n") =
    some (scan .code (headCode false true ++ samlCode ++ lit "] );")).2 := by
  have hcode : IsCode newlines samlText ∧
      (scan .code (headCode false true ++ samlCode ++ lit "] );")).2 =
        (scan .code samlText).2 ++ (scan .code (lit "\n")).2 := by
    rw [samlText, settingsHead, loadLines, settingsConfig, samlEntry, settingsRest, headCode,
      samlCode]
    repeat rw [lit_ofList]
    decide
  have hhead : HasHead 12 samlText := OAuthEntry.hasHead_settingsHead.append.append.append.append
  have htext := ((IsText.of_isCode hcode.1).dedent hhead).append_code
    (show IsCode newlines (lit "\n") by decide)
  rw [hcode.2]
  exact htext.tokens_eq

lemma pluggableAuthEntries_of_none (h : i.oauthEntry = none) :
    i.pluggableAuthEntries = if i.saml then [samlEntry] else [] := by
  rw [pluggableAuthEntries, h]
  rfl

lemma settingsText_of_none (h : i.oauthEntry = none) (hsaml : i.saml = true) :
    i.settingsText = samlText := by
  have hextensions : i.extensions = [lit "SimpleSAMLphp"] := by
    rw [extensions, h, hsaml]
    rfl
  rw [settingsText, hextensions, i.pluggableAuthEntries_of_none h, if_pos hsaml, samlText]

lemma settingTokens_of_none (h : i.oauthEntry = none) : i.settingTokens =
    if i.saml then (scan .code (headCode false true ++ samlCode ++ lit "] );")).2 else [] := by
  rw [settingTokens, h]

/-- Without an OAuth entry there are no values. -/
lemma tokens_getAuthSettings_of_none (h : i.oauthEntry = none) :
    tokens i.getAuthSettings = some i.settingTokens := by
  rw [getAuthSettings, i.pluggableAuthEntries_of_none h, i.settingTokens_of_none h]
  cases hsaml : i.saml with
  | false =>
    rw [if_neg Bool.false_ne_true, if_pos rfl, if_neg Bool.false_ne_true]
    rfl
  | true =>
    rw [if_pos rfl, if_neg (List.cons_ne_nil _ _), i.settingsText_of_none h hsaml, if_pos rfl]
    exact tokens_samlText

/-- The settings have the values of the OAuth relation exactly if these have no line break, or
lines that have eight spaces in common. -/
theorem tokens_getAuthSettings_iff : tokens i.getAuthSettings = some i.settingTokens ↔
    ∀ entry, i.oauthEntry = some entry → Aligned 8 entry.values := by
  cases h : i.oauthEntry with
  | none => exact iff_of_true (i.tokens_getAuthSettings_of_none h) nofun
  | some entry =>
    rw [entry.tokens_getAuthSettings_iff h]
    simp only [Option.some.injEq, forall_eq']

end AuthInputs

end LateSettings
end MediawikiCharm
