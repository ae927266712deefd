/-
What the files of SimpleSAMLphp are for.

A file that is included begins with the opening tag, so that nothing is sent in front of it.  The
metadata are one array, with the endpoints of each name and with the certificates.  The opening tag
stands at the beginning exactly if no line of the text is indented by less than the template.
-/
import MediawikiCharm.Lib.PhpArrays
import MediawikiCharm.PhpLayout.Entries
import MediawikiCharm.PhpLayout.Margins
import MediawikiCharm.Saml

namespace MediawikiCharm
namespace Saml

set_option maxRecDepth 2000

open PyText Lines Textwrap Php PhpLayout

/-! ### The values of the relation -/

/-- The entries of an endpoint. -/
def endpointPairs (ep : SamlEndpoint) : List (PyStr × PyStr) :=
  (ep.url.elim [] fun url => [(lit "Location", url)]) ++ [(lit "Binding", ep.binding)] ++
    ep.responseUrl.elim [] fun url => [(lit "ResponseLocation", url)]

/-- The array of an endpoint. -/
def endpointRecord (ep : SamlEndpoint) : Record :=
  (endpointPairs ep).map fun pair => (pair.1, .str pair.2)

/-- The array of a certificate. -/
def certificateRecord (certificate : PyStr) : Record :=
  [(lit "type", .str (lit "X509Certificate")), (lit "signing", .true), (lit "encryption", .true),
    (lit "X509Certificate", .str certificate)]

/-- The metadata of the relation: the endpoints of a name, and the keys. -/
def metadata (samlData : SamlRelationData) (key : PyStr) : Option (List Record) :=
  if key = lit "keys" then
    if samlData.certificates = [] then none
    else some (samlData.certificates.map certificateRecord)
  else if samlData.endpoints.filter (fun ep => ep.name = key) = [] then none
  else some ((samlData.endpoints.filter fun ep => ep.name = key).map endpointRecord)

/-- The file begins with the opening tag. -/
def OpensPhp (content : PyStr) : Prop := lit "<?php" <+: content

/-- The tokens of the definition of an array, with a comma behind each entry. -/
def definition (entityId : PyStr) (entries : List (PyStr × List Record)) : List Token :=
  (scan .code (lit "$metadata[")).2 ++ .str entityId :: ((scan .code (lit "] = [")).2 ++
    (entriesTokens entries ++ (scan .code (lit "];")).2))

/-- Behind the opening tag, the file defines an array under the name and nothing else. -/
def Defines (content entityId : PyStr) (array : PyStr → Option (List Record)) : Prop :=
  ∃ entries, tokens (content.drop 5) = some (definition entityId entries) ∧
    ofEntries entries = array

/-- The files begin with the opening tag, and the metadata are those of the relation. -/
def WellFormed (samlData : SamlRelationData) (files : SamlFiles) : Prop :=
  ∃ authsources charmConfig idpRemote,
    files = ⟨some authsources, some charmConfig, some idpRemote⟩ ∧
    OpensPhp authsources ∧ OpensPhp charmConfig ∧ OpensPhp idpRemote ∧
    Defines idpRemote samlData.entityId (metadata samlData)

/-! ### The opening tag -/

lemma hasHead_tag (s : PyStr) :
    HasHead 12 (ofChar '\n' :: (spaces 12 ++ (lit "<?php" ++ s))) :=
  ⟨ofChar '<', lit "?php" ++ s, by decide, rfl⟩

/-- A text that is dedented begins with the tag exactly if its lines are indented by as much as
the tag. -/
lemma opensPhp_dedent_iff (s : PyStr) :
    OpensPhp (Textwrap.dedent (spaces 12 ++ (lit "<?php" ++ s))) ↔
      FitsAll newlines (.dedent 12) (ofChar '\n' :: (spaces 12 ++ (lit "<?php" ++ s))) := by
  have hhead := hasHead_tag s
  have hle := depth_le hhead
  have hdedent := dedent_eq_mapTail hhead
  rw [← le_depth_iff hhead]
  generalize depth (ofChar '\n' :: (spaces 12 ++ (lit "<?php" ++ s))) = d at hle hdedent ⊢
  rw [dedent_cons, mapTail_cons_break rfl] at hdedent
  obtain ⟨k, hk⟩ := Nat.exists_eq_add_of_le hle
  have hfirst : Free isNewline (spaces 12 ++ lit "<?php") :=
    free_append.2 ⟨free_spaces (b := newlines) 12, free_iff.2 (by decide)⟩
  have hblank : isBlank (spaces 12 ++ lit "<?php") = false := by decide
  have hbegins : (Layout.dedent d).Fits (spaces 12 ++ lit "<?php") := fun _ =>
    (spaces_prefix_spaces.2 hle).trans (List.prefix_append _ _)
  have hline : (Layout.dedent d).line (spaces 12 ++ lit "<?php") = spaces k ++ lit "<?php" := by
    have hdrop : (spaces 12 ++ lit "<?php").drop d = spaces k ++ lit "<?php" := by
      rw [hk, spaces_add, List.append_assoc, List.drop_left' (length_spaces d)]
    exact (line_of_not_blank hblank).trans hdrop
  have htext : Textwrap.dedent (spaces 12 ++ (lit "<?php" ++ s)) =
      spaces k ++ (lit "<?php" ++ mapTail isNewline (Layout.dedent d).line s) := by
    rw [(List.cons.inj hdedent).2, ← List.append_assoc,
      mapAll_append_free hfirst fun y => line_append hblank hbegins, hline, List.append_assoc]
  rw [htext]
  cases k with
  | zero => exact iff_of_true (List.prefix_append _ _) (by omega)
  | succ k =>
    -- a space stands in front of the tag
    refine iff_of_false (fun h => ?_) (by omega)
    exact absurd (List.cons_prefix_cons.1 h).1 (by decide)

/-- What is taken from the lines of a text that is indented by as much as the tag. -/
lemma dedent_of_fitsAll {s : PyStr}
    (h : FitsAll newlines (.dedent 12) (ofChar '\n' :: (spaces 12 ++ (lit "<?php" ++ s)))) :
    ofChar '\n' :: Textwrap.dedent (spaces 12 ++ (lit "<?php" ++ s)) =
      mapTail isNewline (Layout.dedent 12).line
        (ofChar '\n' :: (spaces 12 ++ (lit "<?php" ++ s))) := by
  have hhead := hasHead_tag s
  have hdepth : depth (ofChar '\n' :: (spaces 12 ++ (lit "<?php" ++ s))) = 12 :=
    le_antisymm (depth_le hhead) ((le_depth_iff hhead).2 h)
  rw [← dedent_cons, dedent_eq_mapTail hhead, hdepth]

end Saml
end MediawikiCharm
