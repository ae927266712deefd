/-
The tokens of the metadata.

The values are escaped, so they are the tokens of the text as they were laid out.  The name is read
up to the first quote that is not escaped.  If what is read is the name itself, then the name has
no quote and no escape, and the literal ends where the code takes it to end.
-/
import MediawikiCharm.Saml.Layout

namespace MediawikiCharm
namespace Saml

set_option maxRecDepth 2000

open PyText Lines Textwrap Php PhpStrings PhpLayout

variable {name value rest entityId entityId' : PyStr} {records : List (List (PyStr × PyStr))}
  {entries : List (PyStr × List Record)}

/-! ### The code around the name -/

/-- What stands behind the quote that is meant to end the name. -/
def behindName (records : List (List (PyStr × PyStr))) : PyStr :=
  entryText (.code (lit " => ") :: recordsPieces records) ++ lit ",\n];\n"

/-- The tokens behind the last entry. -/
def closing : List Token := (scan .code (lit "];")).2

lemma scan_cons_quote (s : PyStr) : scan .code (ofChar '\'' :: s) = scan (.quoted []) s := by
  have hstep : step (.code, []) (ofChar '\'') = (.quoted [], []) := rfl
  rw [scan_cons, hstep]
  exact Prod.ext rfl rfl

lemma scan_behindName (hkeys : ∀ pairs ∈ records, ∀ pair ∈ pairs, IsKey pair.1) :
    scan .code (behindName records) =
      (.code, arrow ++ (recordsTokens (records.map stringRecord) ++
        .char (ofChar ',') :: closing)) := by
  have harrow : (scan .code (lit " => ")).2 = arrow := by decide
  have hclosing : scan .code (lit ",\n];\n") = (.code, .char (ofChar ',') :: closing) := by decide
  rw [behindName, scan_append, scan_entryText (isLine_records hkeys), hclosing, entryTokens,
    List.flatMap_cons, ← entryTokens, entryTokens_recordsPieces hkeys, ← List.append_assoc, ← harrow]
  rfl

/-- The array is defined under the entity ID exactly if this is kept, and the name and what stands
behind it have the tokens of the entries. -/
lemma tokens_metadataText_iff :
    tokens (metadataText (lit "\n$metadata[") (lit "] = [\n    ") (lit ",\n];\n")
      entityId' name records) = some (definition entityId entries) ↔
      entityId' = entityId ∧ scan (.quoted []) (name ++ ofChar '\'' :: behindName records) =
        (.code, entriesTokens entries ++ closing) := by
  have hfront : scan .code (lit "\n$metadata[") = (.code, (scan .code (lit "$metadata[")).2) := by
    decide
  have hbetween : scan .code (lit "] = [\n    ") = (.code, (scan .code (lit "] = [")).2) := by
    decide
  rw [tokens_eq_some_iff, metadataText, definition, scan_append, hfront, scan_quoted, scan_append,
    hbetween, scan_cons_quote]
  change (_, _ ++ Token.str entityId' :: (_ ++ _)) = _ ↔ _
  rw [Prod.mk.injEq, List.append_right_inj, List.cons.injEq, Token.str.injEq, List.append_right_inj]
  constructor
  · rintro ⟨hmode, hentity, htokens⟩
    exact ⟨hentity, Prod.ext hmode htokens⟩
  · rintro ⟨hentity, hscan⟩
    exact ⟨congrArg Prod.fst hscan, hentity, congrArg Prod.snd hscan⟩

/-- The entries begin with an array of arrays. -/
lemma exists_behindName_eq (hne : records ≠ []) (hpairs : ∀ pairs ∈ records, pairs ≠ []) :
    ∃ more, behindName records = lit " => [[" ++ ofChar '\'' :: more := by
  have hopen : lit " => [[" = lit " => " ++ (lit "[" ++ lit "[") := by decide
  have hquote : lit "'" = [ofChar '\''] := by decide
  cases records with
  | nil => exact absurd rfl hne
  | cons pairs records =>
    have hpair := hpairs pairs List.mem_cons_self
    cases pairs with
    | nil => exact absurd rfl hpair
    | cons pair pairs =>
      obtain ⟨y, hy⟩ := exists_intercalate_eq (lit ", ")
        (entryText (recordPieces (pair :: pairs))) ((records.map recordPieces).map entryText)
      obtain ⟨z, hz⟩ := exists_intercalate_eq (lit ", ") (keyCode pair.1 ++ quoted pair.2)
        (pairs.map fun pair => keyCode pair.1 ++ quoted pair.2)
      have htext : entryText (.code (lit " => ") :: recordsPieces ((pair :: pairs) :: records)) =
          lit " => " ++ entryText (recordsPieces ((pair :: pairs) :: records)) := rfl
      rw [behindName, htext, recordsPieces, entryText_bracketPieces, List.map_cons, List.map_cons,
        hy, entryText_recordPieces, List.map_cons, hz, keyCode, hopen, hquote]
      simp only [List.append_assoc, List.cons_append, List.nil_append]
      exact ⟨_, rfl⟩

/-! ### The name -/

/-- If the name is read from the text that was laid out, then the text is the name, and it ends
where the code takes it to end. -/
lemma isRaw_of_readSingle {more : PyStr} (hindents : Indents newlines 12 name)
    (h : readSingle (relaid name ++ ofChar '\'' :: (lit " => [[" ++ ofChar '\'' :: more)) =
      some (name, rest)) :
    IsRaw name ∧ Free isNewline name ∧ rest = lit " => [[" ++ ofChar '\'' :: more := by
  have hshorter : Free isNewline name ∨ (relaid name).length < name.length :=
    free_or_length_relay_lt (b := newlines) (by decide) hindents
  have hlength : Free isNewline name → relaid name = name := relay_of_free (b := newlines)
  rcases readSingle_in_front_of_quote h with
    ⟨rest', hin⟩ | ⟨hat, rfl⟩ | ⟨hlast, u, behind, hread, heq⟩
  · -- what is read from a text is shorter than the text
    have hlt := length_of_readSingle hin
    rcases hshorter with hfree | hshorter
    · rw [hlength hfree] at hlt
      omega
    · omega
  · have hlt := length_of_readSingle hat
    rw [List.length_append, List.length_singleton, List.length_nil] at hlt
    have hfree : Free isNewline name := hshorter.resolve_right (by omega)
    rw [hlength hfree] at hat
    exact ⟨readSingle_eq_self_iff.1 hat, hfree, rfl⟩
  · -- the name would end in a bracket, and the text in a backslash
    have hraw : IsRaw (lit " => [[") := by
      refine ⟨by decide, by decide, by decide⟩
    have hbracket := readSingle_append (readSingle_eq_self_iff.2 hraw) more
    rw [List.append_assoc, List.singleton_append, hread] at hbracket
    obtain rfl := (Prod.mk.inj (Option.some.inj hbracket)).1
    have hend : name.getLast? = some (ofChar '[') := by
      rw [heq, List.getLast?_append_cons]
      decide
    have hkept := getLast?_relay hindents (by decide) hend
    rw [show relay newlines (.dedent 12) name = relaid name from rfl, hlast] at hkept
    exact absurd (Option.some.inj hkept) (by decide)

end Saml
end MediawikiCharm
