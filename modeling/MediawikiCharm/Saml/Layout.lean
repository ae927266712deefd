/-
The layout of the metadata.

There is one entry for each name and one for the certificates.  With several entries, the margin
is that of the further ones, and spaces stay in front of the opening tag.  With one entry, the
text is laid out value by value; the name stands between quotes as it is.
-/
import MediawikiCharm.PhpLayout.Arrays
import MediawikiCharm.Saml.Metadata

namespace MediawikiCharm
namespace Saml

set_option maxRecDepth 2000

open PyText Lines Textwrap Php PhpStrings PhpLayout

/-! ### Names -/

section Groups

variable {endpoints : List SamlEndpoint} {groups : List (PyStr × List SamlEndpoint)}
  {name : PyStr}

lemma mem_addEndpoint (endpoint : SamlEndpoint) :
    name ∈ (addEndpoint endpoint groups).map Prod.fst ↔
      name ∈ groups.map Prod.fst ∨ endpoint.name = name := by
  induction groups with
  | nil => simp [addEndpoint, eq_comm]
  | cons group groups ih =>
    obtain ⟨key, eps⟩ := group
    rw [addEndpoint]
    split_ifs with hkey
    · simp only [List.map_cons, List.mem_cons, hkey]
      tauto
    · simp only [List.map_cons, List.mem_cons, ih]
      tauto

lemma mem_foldl_addEndpoint : name ∈ (endpoints.foldl (fun groups endpoint =>
    addEndpoint endpoint groups) groups).map Prod.fst ↔
      name ∈ groups.map Prod.fst ∨ ∃ endpoint ∈ endpoints, endpoint.name = name := by
  induction endpoints generalizing groups with
  | nil => simp
  | cons endpoint endpoints ih =>
    rw [List.foldl_cons, ih, mem_addEndpoint]
    simp only [List.mem_cons, exists_eq_or_imp]
    tauto

/-- The names of the groups are those of the endpoints. -/
lemma mem_endpointsByName : name ∈ (endpointsByName endpoints).map Prod.fst ↔
    ∃ endpoint ∈ endpoints, endpoint.name = name := by
  rw [endpointsByName, mem_foldl_addEndpoint]
  simp

lemma foldl_addEndpoint_single {first : List SamlEndpoint}
    (h : ∀ endpoint ∈ endpoints, endpoint.name = name) :
    endpoints.foldl (fun groups endpoint => addEndpoint endpoint groups) [(name, first)] =
      [(name, first ++ endpoints)] := by
  induction endpoints generalizing first with
  | nil => rw [List.foldl_nil, List.append_nil]
  | cons endpoint endpoints ih =>
    obtain ⟨hname, hnames⟩ := List.forall_mem_cons.1 h
    rw [List.foldl_cons, addEndpoint, if_pos hname.symm, ih hnames, List.append_assoc,
      List.singleton_append]

/-- Endpoints of one name are one group. -/
lemma endpointsByName_single (hne : endpoints ≠ [])
    (h : ∀ endpoint ∈ endpoints, endpoint.name = name) :
    endpointsByName endpoints = [(name, endpoints)] := by
  cases endpoints with
  | nil => exact absurd rfl hne
  | cons endpoint endpoints =>
    obtain ⟨hname, hnames⟩ := List.forall_mem_cons.1 h
    rw [endpointsByName, List.foldl_cons, addEndpoint, hname, foldl_addEndpoint_single hnames,
      List.singleton_append]

lemma endpointsByName_ne_nil (hne : endpoints ≠ []) : endpointsByName endpoints ≠ [] := by
  intro h
  obtain ⟨endpoint, hmem⟩ := List.exists_mem_of_ne_nil endpoints hne
  have hname := mem_endpointsByName.2 ⟨endpoint, hmem, rfl⟩
  rw [h] at hname
  exact absurd hname List.not_mem_nil

end Groups

/-! ### Several entries -/

/-- Each entry begins with four spaces and a quote. -/
lemma exists_entry_eq {samlData : SamlRelationData} {entry : PyStr}
    (h : entry ∈ idpEntries samlData) : ∃ rest, entry = spaces 4 ++ ofChar '\'' :: rest := by
  have hbegins : ∀ {s rest : PyStr}, lit "    '" ++ s ++ rest =
      spaces 4 ++ ofChar '\'' :: (s ++ rest) := by
    intro s rest
    have hbegin : lit "    '" = spaces 4 ++ [ofChar '\''] := by decide
    rw [hbegin]
    simp only [List.append_assoc, List.cons_append, List.nil_append]
  rcases List.mem_append.1 h with h | h
  · obtain ⟨group, -, rfl⟩ := List.mem_map.1 h
    refine ⟨group.1 ++ (lit "' => [" ++ ((lit ", ").intercalate (group.2.map phpEndpoint) ++
      lit "]")), ?_⟩
    rw [endpointsEntry, List.append_assoc, List.append_assoc, hbegins]
  · split_ifs at h
    · exact absurd h List.not_mem_nil
    · have hkeys : lit "    'keys' => [" = lit "    '" ++ lit "keys' => [" := by decide
      refine ⟨lit "keys' => [" ++ ((lit ", ").intercalate (samlData.certificates.map phpKey) ++
        lit "]"), ?_⟩
      rw [List.mem_singleton.1 h, hkeys, List.append_assoc, hbegins]

lemma exists_intercalate_eq (sep line : PyStr) (lines : List PyStr) :
    ∃ y, sep.intercalate (line :: lines) = line ++ y := by
  cases lines with
  | nil => exact ⟨[], by simp⟩
  | cons line' lines => exact ⟨_, (List.intercalate_cons_cons ..).trans (List.append_assoc ..)⟩

lemma not_fitsAll_line (rest : PyStr) :
    ¬ FitsAll newlines (.dedent 12) (ofChar '\n' :: (spaces 4 ++ ofChar '\'' :: rest)) := by
  have hquote : isSpace (ofChar '\'') = false := rfl
  intro h
  have hline := h (spaces 4 ++ ofChar '\'' :: (split isNewline rest).1)
    ((tail_head (k := 4) hquote rest).symm ▸ List.mem_cons_self)
  have hbegins := spaces_prefix_leading.2 (hline (isBlank_head hquote _))
  rw [leading_head hquote, spaces_prefix_spaces] at hbegins
  exact absurd hbegins (by decide)

/-- A second entry would be a line that is indented by four spaces only. -/
lemma length_idpEntries_le {samlData : SamlRelationData}
    (h : FitsAll newlines (.dedent 12) (ofChar '\n' :: idpMetadataText samlData)) :
    (idpEntries samlData).length ≤ 1 := by
  have hentries := @exists_entry_eq samlData
  unfold idpMetadataText at h
  generalize idpEntries samlData = entries at h hentries
  rcases entries with _ | ⟨first, _ | ⟨second, more⟩⟩
  · exact Nat.zero_le 1
  · exact le_rfl
  · obtain ⟨rest, rfl⟩ := hentries (List.mem_cons_of_mem _ List.mem_cons_self)
    obtain ⟨y, hy⟩ := exists_intercalate_eq (lit ",\n") (spaces 4 ++ ofChar '\'' :: rest) more
    have hsep : lit ",\n" = [ofChar ',', ofChar '\n'] := by decide
    have hassoc : ∀ a z : PyStr, a ++ (first ++ ofChar ',' :: ofChar '\n' :: z) =
        (a ++ (first ++ [ofChar ','])) ++ ofChar '\n' :: z := fun a z => by
      simp only [List.append_assoc, List.cons_append, List.nil_append]
    rw [List.intercalate_cons_cons, hy, hsep, ← List.cons_append, ← List.cons_append] at h
    simp only [List.append_assoc, List.cons_append, List.nil_append] at h
    rw [← List.cons_append, hassoc] at h
    exact absurd ((fitsAll_append_break (b := newlines) rfl).1 h).2 (not_fitsAll_line _)

/-! ### One entry -/

/-- The keys of an endpoint. -/
lemma isKey_endpointPairs (ep : SamlEndpoint) : ∀ pair ∈ endpointPairs ep, IsKey pair.1 := by
  have hlocation : IsKey (lit "Location") := ⟨by decide, free_iff.2 (by decide)⟩
  have hbinding : IsKey (lit "Binding") := ⟨by decide, free_iff.2 (by decide)⟩
  have hresponse : IsKey (lit "ResponseLocation") := ⟨by decide, free_iff.2 (by decide)⟩
  unfold endpointPairs
  refine List.forall_mem_append.2 ⟨List.forall_mem_append.2 ⟨?_, ?_⟩, ?_⟩
  · cases ep.url with
    | none => exact fun pair hpair => absurd hpair List.not_mem_nil
    | some url => exact List.forall_mem_singleton.2 hlocation
  · exact List.forall_mem_singleton.2 hbinding
  · cases ep.responseUrl with
    | none => exact fun pair hpair => absurd hpair List.not_mem_nil
    | some url => exact List.forall_mem_singleton.2 hresponse

lemma phpEndpoint_eq (ep : SamlEndpoint) :
    phpEndpoint ep = entryText (recordPieces (endpointPairs ep)) := by
  have hlocation : lit "'Location' => " = keyCode (lit "Location") := by decide
  have hbinding : lit "'Binding' => " = keyCode (lit "Binding") := by decide
  have hresponse : lit "'ResponseLocation' => " = keyCode (lit "ResponseLocation") := by decide
  rw [entryText_recordPieces, phpEndpoint, endpointPairs, hlocation, hbinding, hresponse]
  cases ep.url with
  | none =>
    cases ep.responseUrl with
    | none => rfl
    | some responseUrl => rfl
  | some url =>
    cases ep.responseUrl with
    | none => rfl
    | some responseUrl => rfl

/-- A definition of metadata with one entry, with the code in front of the entity ID, in front of
the name and behind the entry.  The name is not escaped. -/
def metadataText (front between behind entityId name : PyStr)
    (records : List (List (PyStr × PyStr))) : PyStr :=
  front ++ (quoted entityId ++ (between ++ ofChar '\'' :: (name ++ ofChar '\'' ::
    (entryText (.code (lit " => ") :: recordsPieces records) ++ behind))))

lemma endpointsEntry_eq (name : PyStr) (endpoints : List SamlEndpoint) :
    endpointsEntry (name, endpoints) = lit "    " ++ ofChar '\'' :: (name ++ ofChar '\'' ::
      entryText (.code (lit " => ") :: recordsPieces (endpoints.map endpointPairs))) := by
  have hopen : lit "    '" = lit "    " ++ [ofChar '\''] := by decide
  have hclose : lit "' => [" = ofChar '\'' :: (lit " => " ++ lit "[") := by decide
  have htexts : (endpoints.map (recordPieces ∘ endpointPairs)).map entryText =
      endpoints.map phpEndpoint := by
    rw [List.map_map]
    exact List.map_congr_left fun ep _ => (phpEndpoint_eq ep).symm
  have hpieces : entryText (.code (lit " => ") :: recordsPieces (endpoints.map endpointPairs)) =
      lit " => " ++ entryText (recordsPieces (endpoints.map endpointPairs)) := rfl
  rw [hpieces, recordsPieces, List.map_map, entryText_bracketPieces, htexts, endpointsEntry,
    hopen, hclose]
  simp only [List.append_assoc, List.cons_append, List.nil_append]

/-- The text in front of the layout. -/
lemma idpMetadataText_eq {samlData : SamlRelationData} {name : PyStr}
    {endpoints : List SamlEndpoint} (hentries : idpEntries samlData =
      [endpointsEntry (name, endpoints)]) :
    ofChar '\n' :: idpMetadataText samlData =
      metadataText (lit "\n            <?php\n            $metadata[")
        (lit "] = [\n                ") (lit ",\n            ];\n            ")
        samlData.entityId name (endpoints.map endpointPairs) := by
  have hfront : ofChar '\n' :: lit "            <?php\n            $metadata[" =
      lit "\n            <?php\n            $metadata[" := by decide
  have hbetween : lit "] = [\n            " ++ lit "    " = lit "] = [\n                " := by
    decide
  rw [idpMetadataText, hentries, List.intercalate_singleton, endpointsEntry_eq, render, render,
    metadataText, ← hfront, ← hbetween]
  simp only [List.append_assoc, List.cons_append]

section Text

variable {f : Layout} {front between behind entityId name : PyStr}
  {records : List (List (PyStr × PyStr))}

lemma isLine_records (hkeys : ∀ pairs ∈ records, ∀ pair ∈ pairs, IsKey pair.1) :
    ∀ piece ∈ .code (lit " => ") :: recordsPieces records, piece.IsLine newlines :=
  List.forall_mem_cons.2 ⟨by decide, isLine_recordsPieces hkeys⟩

lemma mem_records {v : PyStr} : .value v ∈ Piece.code (lit " => ") :: recordsPieces records ↔
    ∃ pairs ∈ records, ∃ pair ∈ pairs, pair.2 = v := by
  rw [← mem_recordsPieces]
  simp

lemma metadataText_eq : metadataText front between behind entityId name records =
    (front ++ [ofChar '\'']) ++ ((escapePhpString entityId ++ [ofChar '\'']) ++
      ((between ++ [ofChar '\'']) ++ ((name ++ [ofChar '\'']) ++
        (entryText (.code (lit " => ") :: recordsPieces records) ++ behind)))) := by
  simp only [metadataText, quoted, List.append_assoc, List.cons_append, List.nil_append]

/-- The lines of the text are those of its values and of the code. -/
lemma fitsAll_metadataText (hkeys : ∀ pairs ∈ records, ∀ pair ∈ pairs, IsKey pair.1) :
    FitsAll newlines f (metadataText front between behind entityId name records) ↔
      Fits newlines f front ∧ Fits newlines f entityId ∧ Fits newlines f between ∧
        Fits newlines f name ∧
          (∀ pairs ∈ records, ∀ pair ∈ pairs, Fits newlines f pair.2) ∧
            FitsAll newlines f behind := by
  have hvalues : (∀ v, .value v ∈ Piece.code (lit " => ") :: recordsPieces records →
      Fits newlines f v) ↔ ∀ pairs ∈ records, ∀ pair ∈ pairs, Fits newlines f pair.2 := by
    simp only [mem_records]
    constructor
    · exact fun h pairs hpairs pair hpair => h _ ⟨pairs, hpairs, pair, hpair, rfl⟩
    · rintro h v ⟨pairs, hpairs, pair, hpair, rfl⟩
      exact h pairs hpairs pair hpair
  rw [metadataText_eq, fitsAll_append_quote, fitsAll_append_quote, fitsAll_append_quote,
    fitsAll_append_quote, fitsAll_entryText_append (isLine_records hkeys), hvalues,
    ← fits_escapePhpString_iff (s := entityId)]
  rfl

/-- The layout changes the text value by value. -/
lemma mapTail_metadataText (hkeys : ∀ pairs ∈ records, ∀ pair ∈ pairs, IsKey pair.1)
    (hfits : FitsAll newlines f (metadataText front between behind entityId name records)) :
    mapTail isNewline f.line (metadataText front between behind entityId name records) =
      metadataText (relay newlines f front) (relay newlines f between)
        (mapTail isNewline f.line behind) (relay newlines f entityId) (relay newlines f name)
        (records.map (List.map (Prod.map id (relay newlines f)))) := by
  obtain ⟨hfront, hentity, hbetween, hname, hvalues, -⟩ := (fitsAll_metadataText hkeys).1 hfits
  have hentity' := fits_escapePhpString_iff.2 hentity
  have hpieces : ∀ v, .value v ∈ Piece.code (lit " => ") :: recordsPieces records →
      Fits newlines f v := by
    intro v hv
    obtain ⟨pairs, hpairs, pair, hpair, rfl⟩ := mem_records.1 hv
    exact hvalues pairs hpairs pair hpair
  have hmap : (Piece.code (lit " => ") :: recordsPieces records).map
      (Piece.map (relay newlines f)) = .code (lit " => ") ::
        recordsPieces (records.map (List.map (Prod.map id (relay newlines f)))) := by
    rw [List.map_cons, map_recordsPieces]
    rfl
  have hentry := mapTail_entryText_append (f := f) (isLine_records hkeys) hpieces behind
  rw [hmap] at hentry
  rw [metadataText_eq, metadataText_eq]
  change mapTail newlines.isBreak f.line _ = _
  rw [mapTail_append (settles_quote hfront), mapTail_append (settles_quote hentity'),
    mapTail_append (settles_quote hbetween), mapTail_append (settles_quote hname), hentry,
    mapTail_append_quote hfront, mapTail_append_quote hentity', mapTail_append_quote hbetween,
    mapTail_append_quote hname, relay_escapePhpString hentity]
  rfl

end Text

/-! ### The content of the file -/

/-- What becomes of a value in a text that is indented by as much as the tag. -/
def relaid (value : PyStr) : PyStr := relay newlines (.dedent 12) value

lemma exists_idpMetadataText_eq (samlData : SamlRelationData) :
    ∃ s, idpMetadataText samlData = spaces 12 ++ (lit "<?php" ++ s) := by
  have hfront : lit "            <?php\n            $metadata[" =
      spaces 12 ++ (lit "<?php" ++ lit "\n            $metadata[") := by decide
  rw [idpMetadataText, render, hfront]
  simp only [List.append_assoc]
  exact ⟨_, rfl⟩

lemma opensPhp_idpMetadataContent_iff {samlData : SamlRelationData} :
    OpensPhp (idpMetadataContent samlData) ↔
      FitsAll newlines (.dedent 12) (ofChar '\n' :: idpMetadataText samlData) := by
  obtain ⟨s, hs⟩ := exists_idpMetadataText_eq samlData
  rw [idpMetadataContent, hs]
  exact opensPhp_dedent_iff s

section Content

variable {samlData : SamlRelationData} {name : PyStr} {endpoints : List SamlEndpoint}

lemma isKey_records : ∀ pairs ∈ endpoints.map endpointPairs, ∀ pair ∈ pairs, IsKey pair.1 :=
  List.forall_mem_map.2 fun ep _ => isKey_endpointPairs ep

/-- The file begins with the opening tag exactly if all values are indented by as much as the
template. -/
lemma opensPhp_iff (hentries : idpEntries samlData = [endpointsEntry (name, endpoints)]) :
    OpensPhp (idpMetadataContent samlData) ↔
      Indents newlines 12 samlData.entityId ∧ Indents newlines 12 name ∧
        ∀ pairs ∈ endpoints.map endpointPairs, ∀ pair ∈ pairs, Indents newlines 12 pair.2 := by
  have hfront : Indents newlines 12 (lit "\n            <?php\n            $metadata[") := by decide
  have hbetween : Indents newlines 12 (lit "] = [\n                ") := by decide
  have hbehind : FitsAll newlines (.dedent 12) (lit ",\n            ];\n            ") := by decide
  rw [opensPhp_idpMetadataContent_iff, idpMetadataText_eq hentries,
    fitsAll_metadataText isKey_records]
  unfold Indents at hfront hbetween ⊢
  tauto

/-- The file behind the opening tag. -/
lemma drop_idpMetadataContent (hentries : idpEntries samlData = [endpointsEntry (name, endpoints)])
    (hopens : OpensPhp (idpMetadataContent samlData)) : (idpMetadataContent samlData).drop 5 =
      metadataText (lit "\n$metadata[") (lit "] = [\n    ") (lit ",\n];\n")
        (relaid samlData.entityId) (relaid name)
        ((endpoints.map endpointPairs).map (List.map (Prod.map id relaid))) := by
  have hfits := opensPhp_idpMetadataContent_iff.1 hopens
  have hdedent : ofChar '\n' :: idpMetadataContent samlData =
      mapTail isNewline (Layout.dedent 12).line (ofChar '\n' :: idpMetadataText samlData) := by
    obtain ⟨s, hs⟩ := exists_idpMetadataText_eq samlData
    rw [idpMetadataContent, hs]
    exact dedent_of_fitsAll (hs ▸ hfits)
  have hfront : relay newlines (.dedent 12) (lit "\n            <?php\n            $metadata[") =
      ofChar '\n' :: (lit "<?php" ++ lit "\n$metadata[") := by decide
  have hbetween : relay newlines (.dedent 12) (lit "] = [\n                ") =
      lit "] = [\n    " := by decide
  have hbehind : mapTail isNewline (Layout.dedent 12).line (lit ",\n            ];\n            ") =
      lit ",\n];\n" := by decide
  rw [idpMetadataText_eq hentries] at hfits hdedent
  rw [mapTail_metadataText isKey_records hfits, hfront, hbetween, hbehind, metadataText,
    List.cons_append] at hdedent
  rw [(List.cons.inj hdedent).2, List.append_assoc]
  rfl

end Content

end Saml
end MediawikiCharm
