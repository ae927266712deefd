/-
When the files of SimpleSAMLphp are well formed.

They are if there is one entry, for the endpoints of one name, and if the values stand on one line
and the name between quotes as it is.  A databag with a certificate always has a second entry: the
opening tag is then behind spaces.
-/
import MediawikiCharm.Saml.Tokens
import MediawikiCharm.UrlOrigin.Grammar

namespace MediawikiCharm
namespace Saml

set_option maxRecDepth 2000

open PyText PyUrl Lines Textwrap Php PhpStrings PhpLayout

/-- The values with which the files are well formed. -/
structure Sound (samlData : SamlRelationData) : Prop where
  certificates : samlData.certificates = []
  entityId : Free isNewline samlData.entityId
  name : ∃ name, IsRaw name ∧ Free isNewline name ∧ name ≠ lit "keys" ∧
    ∀ ep ∈ samlData.endpoints, ep.name = name
  values : ∀ ep ∈ samlData.endpoints, ∀ pair ∈ endpointPairs ep, Free isNewline pair.2

variable {samlData : SamlRelationData} {name key : PyStr}

/-! ### One entry -/

/-- The file begins with the opening tag only if there is one entry. -/
lemma single_of_opensPhp (hne : samlData.endpoints ≠ [])
    (h : OpensPhp (idpMetadataContent samlData)) : samlData.certificates = [] ∧
      ∃ name, ∀ ep ∈ samlData.endpoints, ep.name = name := by
  have hlength := length_idpEntries_le (opensPhp_idpMetadataContent_iff.1 h)
  have hgroups := endpointsByName_ne_nil hne
  have hmem := @mem_endpointsByName samlData.endpoints
  unfold idpEntries at hlength
  rw [List.length_append, List.length_map] at hlength
  rcases heq : endpointsByName samlData.endpoints with _ | ⟨⟨name, endpoints⟩, _ | ⟨group, groups⟩⟩
  · exact absurd heq hgroups
  · rw [heq, List.length_singleton] at hlength
    constructor
    · by_contra hcertificates
      rw [if_neg hcertificates, List.length_singleton] at hlength
      omega
    · refine ⟨name, fun ep hep => ?_⟩
      have hname := hmem.2 ⟨ep, hep, rfl⟩
      rw [heq] at hname
      exact List.mem_singleton.1 hname
  · rw [heq, List.length_cons, List.length_cons] at hlength
    omega

section Single

variable (hne : samlData.endpoints ≠ []) (hcertificates : samlData.certificates = [])
  (hname : ∀ ep ∈ samlData.endpoints, ep.name = name)

include hne hcertificates hname

lemma idpEntries_single : idpEntries samlData = [endpointsEntry (name, samlData.endpoints)] := by
  rw [idpEntries, endpointsByName_single hne hname, if_pos hcertificates, List.append_nil]
  rfl

omit hne in
lemma eq_of_metadata_ne_none (h : metadata samlData key ≠ none) : key = name ∧ key ≠ lit "keys" := by
  unfold metadata at h
  rw [if_pos hcertificates] at h
  split_ifs at h with hkeys hfilter
  · exact absurd rfl h
  · exact absurd rfl h
  · obtain ⟨ep, hep⟩ := List.exists_mem_of_ne_nil _ hfilter
    obtain ⟨hmem, hkey⟩ := List.mem_filter.1 hep
    have hkey : ep.name = key := of_decide_eq_true hkey
    exact ⟨hkey.symm.trans (hname ep hmem), hkeys⟩

lemma metadata_single (hkeys : name ≠ lit "keys") : metadata samlData =
    ofEntries [(name, samlData.endpoints.map endpointRecord)] := by
  rw [ofEntries_singleton]
  funext key
  unfold metadata
  rw [if_pos hcertificates]
  by_cases hkey : key = name
  · have hall : samlData.endpoints.filter (fun ep => ep.name = key) = samlData.endpoints :=
      List.filter_eq_self.2 fun ep hep => decide_eq_true ((hname ep hep).trans hkey.symm)
    rw [if_neg (hkey ▸ hkeys), hall, if_neg hne, if_pos hkey]
  · have hnone : samlData.endpoints.filter (fun ep => ep.name = key) = [] :=
      List.filter_eq_nil_iff.2 fun ep hep heq =>
        hkey ((of_decide_eq_true heq).symm.trans (hname ep hep))
    rw [if_pos hnone, if_neg hkey, ite_self]

end Single

/-! ### The metadata -/

lemma relaid_eq_self_iff {value : PyStr} (h : Indents newlines 12 value) :
    relaid value = value ↔ Free isNewline value := by
  refine (relay_eq_self_iff (n := 0) h).trans ⟨fun hfree => hfree.resolve_right ?_, .inl⟩
  exact fun hmargin => absurd hmargin.1 (by decide)

/-- The records after the layout are those of the relation exactly if the values are kept. -/
lemma stringRecord_relaid_iff {endpoints : List SamlEndpoint} :
    ((endpoints.map endpointPairs).map (List.map (Prod.map id relaid))).map stringRecord =
        endpoints.map endpointRecord ↔
      ∀ ep ∈ endpoints, ∀ pair ∈ endpointPairs ep, relaid pair.2 = pair.2 := by
  rw [List.map_map, List.map_map, List.map_inj_left]
  refine forall₂_congr fun ep _ => ?_
  change ((endpointPairs ep).map (Prod.map id relaid)).map (fun pair => (pair.1, Scalar.str pair.2)) =
    (endpointPairs ep).map (fun pair => (pair.1, Scalar.str pair.2)) ↔ _
  rw [List.map_map, List.map_inj_left]
  refine forall₂_congr fun pair _ => ?_
  rw [Function.comp_apply, Prod.mk.injEq, Scalar.str.injEq]
  exact and_iff_right rfl

lemma isKey_relaid {endpoints : List SamlEndpoint} :
    ∀ pairs ∈ (endpoints.map endpointPairs).map (List.map (Prod.map id relaid)),
      ∀ pair ∈ pairs, IsKey pair.1 :=
  List.forall_mem_map.2 fun pairs hpairs => List.forall_mem_map.2 fun pair hpair =>
    isKey_records pairs hpairs pair hpair

lemma isNonempty_relaid {endpoints : List SamlEndpoint} :
    ∀ pairs ∈ (endpoints.map endpointPairs).map (List.map (Prod.map id relaid)), pairs ≠ [] := by
  refine List.forall_mem_map.2 (List.forall_mem_map.2 fun ep _ hnil => ?_)
  have hpairs := List.map_eq_nil_iff.1 hnil
  unfold endpointPairs at hpairs
  simp at hpairs

lemma records_ne_nil {endpoints : List SamlEndpoint} (hne : endpoints ≠ []) :
    (endpoints.map endpointPairs).map (List.map (Prod.map id relaid)) ≠ [] := by
  simpa using hne

/-- If the tokens are those of the array of the relation, then the name stands for itself and the
values are kept. -/
lemma kept_of_defines (hne : samlData.endpoints ≠ []) (hcertificates : samlData.certificates = [])
    (hname : ∀ ep ∈ samlData.endpoints, ep.name = name)
    (hopens : OpensPhp (idpMetadataContent samlData))
    (h : Defines (idpMetadataContent samlData) samlData.entityId (metadata samlData)) :
    relaid samlData.entityId = samlData.entityId ∧ IsRaw name ∧ Free isNewline name ∧
      name ≠ lit "keys" ∧
      ∀ ep ∈ samlData.endpoints, ∀ pair ∈ endpointPairs ep, relaid pair.2 = pair.2 := by
  have hentries := idpEntries_single hne hcertificates hname
  have hindents := ((opensPhp_iff hentries).1 hopens).2.1
  obtain ⟨entries, htokens, harray⟩ := h
  rw [drop_idpMetadataContent hentries hopens, tokens_metadataText_iff] at htokens
  obtain ⟨hentity, hscan⟩ := htokens
  -- the literal that is read is the key of the first entry
  obtain ⟨value, rest, hread⟩ := readSingle_of_scan (congrArg Prod.fst hscan)
  rw [scan_of_readSingle hread, List.nil_append] at hscan
  obtain ⟨hmode, htokens⟩ := Prod.mk.inj hscan
  rcases entries with _ | ⟨⟨key, records⟩, entries⟩
  · have hclosing : entriesTokens [] ++ closing = .char (ofChar ']') :: [.char (ofChar ';')] := by
      decide
    rw [hclosing] at htokens
    exact absurd (List.cons.inj htokens).1 (fun heq => Token.noConfusion heq)
  · have hkey : value = key := Token.str.inj (List.cons.inj htokens).1
    have hmem : metadata samlData value ≠ none := by
      rw [← harray, hkey]
      exact ofEntries_ne_none List.mem_cons_self
    obtain ⟨rfl, hkeys⟩ := eq_of_metadata_ne_none hcertificates hname hmem
    subst hkey
    obtain ⟨more, hmore⟩ := exists_behindName_eq (records_ne_nil hne) isNonempty_relaid
    rw [hmore] at hread
    obtain ⟨hraw, hfree, hrest⟩ := isRaw_of_readSingle hindents hread
    refine ⟨hentity, hraw, hfree, hkeys, stringRecord_relaid_iff.1 ?_⟩
    -- the literal ends in front of the records, which the tokens determine
    rw [hrest, ← hmore, scan_behindName isKey_relaid] at htokens
    obtain ⟨rfl, rfl⟩ := entriesTokens_cons_inj htokens.symm
    rw [metadata_single hne hcertificates hname hkeys, ofEntries_singleton, ofEntries_singleton]
      at harray
    have hrecords := congrFun harray value
    rw [if_pos rfl, if_pos rfl] at hrecords
    exact Option.some.inj hrecords

/-- If the values are kept, then the tokens are those of the array of the relation. -/
lemma defines_of_kept (hne : samlData.endpoints ≠ []) (hcertificates : samlData.certificates = [])
    (hname : ∀ ep ∈ samlData.endpoints, ep.name = name)
    (hopens : OpensPhp (idpMetadataContent samlData))
    (hentity : relaid samlData.entityId = samlData.entityId) (hraw : IsRaw name)
    (hfree : Free isNewline name) (hkeys : name ≠ lit "keys")
    (hvalues : ∀ ep ∈ samlData.endpoints, ∀ pair ∈ endpointPairs ep, relaid pair.2 = pair.2) :
    Defines (idpMetadataContent samlData) samlData.entityId (metadata samlData) := by
  have hentries := idpEntries_single hne hcertificates hname
  have hrelaid : relaid name = name := relay_of_free (b := newlines) hfree
  refine ⟨[(name, samlData.endpoints.map endpointRecord)], ?_,
    (metadata_single hne hcertificates hname hkeys).symm⟩
  rw [drop_idpMetadataContent hentries hopens, tokens_metadataText_iff]
  refine ⟨hentity, ?_⟩
  have hread := readSingle_append (readSingle_eq_self_iff.2 hraw)
    (behindName ((samlData.endpoints.map endpointPairs).map (List.map (Prod.map id relaid))))
  rw [List.append_assoc, List.singleton_append, List.nil_append] at hread
  rw [hrelaid, scan_of_readSingle hread, scan_behindName isKey_relaid,
    stringRecord_relaid_iff.2 hvalues, entriesTokens, List.flatMap_singleton]
  simp only [List.nil_append, List.append_assoc, List.cons_append]

/-! ### The other files -/

lemma opensPhp_dedent_render {first value rest : PyStr} {parts : List (PyStr × PyStr)}
    (hfirst : spaces 12 ++ lit "<?php" <+: first)
    (hfits : FitsAll newlines (.dedent 12) (render ((ofChar '\n' :: first, value) :: parts) rest)) :
    OpensPhp (Textwrap.dedent (render ((first, value) :: parts) rest)) := by
  obtain ⟨code, rfl⟩ := hfirst
  have htext : render ((spaces 12 ++ lit "<?php" ++ code, value) :: parts) rest =
      spaces 12 ++ (lit "<?php" ++ render ((code, value) :: parts) rest) := by
    rw [append_render, append_render, List.append_assoc]
  rw [htext, opensPhp_dedent_iff, ← htext]
  exact hfits

/-- `authsources.php`, where its values stand on one line. -/
lemma opensPhp_authsourcesContent {urlOrigin entityId : PyStr} (hurl : Free isNewline urlOrigin)
    (hentity : Free isNewline entityId) : OpensPhp (authsourcesContent urlOrigin entityId) := by
  have hcode : ∀ {s : PyStr}, Indents newlines 12 s → Fits newlines (.dedent 12) s := id
  refine opensPhp_dedent_render (by decide) (fitsAll_render.2 ⟨?_, by decide⟩)
  refine List.forall_mem_cons.2 ⟨⟨?_, fits_of_free hurl⟩,
    List.forall_mem_singleton.2 ⟨?_, fits_of_free hentity⟩⟩
  · dsimp only
    exact hcode (by decide)
  · dsimp only
    exact hcode (by decide)

lemma opensPhp_configContent (entries : List (PyStr × PyStr)) : OpensPhp (configContent entries) := by
  have htag : lit "<?php" <+: lit "<?php\n" := by decide
  exact htag.trans ((List.prefix_append _ _).trans (List.prefix_append _ _))

lemma free_of_newline_not_mem {s : PyStr} (h : ofChar '\n' ∉ s) : Free isNewline s := fun c hc => by
  by_contra hnewline
  have heq : c = ofChar '\n' := eq_of_beq (eq_true_of_ne_false hnewline)
  exact h (heq ▸ hc)

/-- What is left behind where the function returns. -/
lemma pushSimplesamlphpConfig_spec (i : SamlInputs) (files : SamlFiles) :
    (pushSimplesamlphpConfig i).wp
      (fun _ files' => ∃ urlOrigin entries, Free isNewline urlOrigin ∧
        files' = ⟨some (authsourcesContent urlOrigin i.samlData.entityId),
          some (configContent entries), some (idpMetadataContent i.samlData)⟩)
      (fun _ _ => True) files := by
  unfold pushSimplesamlphpConfig
  rw [Prog.wp_bind, Prog.wp_ofExcept]
  refine ⟨fun origin horigin => ?_, fun _ _ => trivial⟩
  have hfree : Free isNewline origin.geturl := by
    refine free_of_newline_not_mem ?_
    cases hparsed : urlparseWith i.unicode (lit "https") i.configuredOrigin with
    | none =>
      rw [hparsed] at horigin
      cases horigin
    | some r =>
      rw [hparsed] at horigin
      obtain rfl := Except.ok.inj horigin
      exact newline_not_mem_geturl hparsed (by decide)
  dsimp only
  rw [Prog.wp_bind, Prog.wp_ofExcept]
  refine ⟨fun result _ => ?_, fun _ _ => trivial⟩
  rw [Prog.wp_ite]
  constructor
  · exact fun _ => trivial
  · intro _
    cases i.connection with
    | none => exact trivial
    | some connection => exact ⟨origin.geturl, _, hfree, rfl⟩

/-- A run that returns. -/
lemma pushSimplesamlphpConfig_run {i : SamlInputs} {files : SamlFiles}
    {origin result : ParseResult} {connection : ValkeyConnectionInfo}
    (horigin : urlparseWith i.unicode (lit "https") i.configuredOrigin = some origin)
    (hresult : urlparse i.unicode origin.geturl = some result)
    (hscheme : result.scheme = lit "https") (hconnection : i.connection = some connection) :
    pushSimplesamlphpConfig i files = (.ok (),
      ⟨some (authsourcesContent origin.geturl i.samlData.entityId),
        some (configContent
          (configEntries origin.geturl i.samlSecretSalt connection i.httpsProxyString)),
        some (idpMetadataContent i.samlData)⟩) := by
  unfold pushSimplesamlphpConfig
  rw [horigin, hconnection]
  dsimp only [parsed]
  rw [Prog.bind_run_ok (Prog.ofExcept_run _ _), hresult]
  dsimp only [parsed]
  rw [Prog.bind_run_ok (Prog.ofExcept_run _ _), if_neg (not_not.2 hscheme)]
  rfl

/-! ### The files together -/

/-- Where the function returns, the files are well formed exactly if there is no certificate and
one name, if the name stands between quotes as it is, and if no value has a line break. -/
theorem wellFormed_iff {i : SamlInputs} {files files' : SamlFiles}
    (hne : i.samlData.endpoints ≠ []) (hrun : pushSimplesamlphpConfig i files = (.ok (), files')) :
    WellFormed i.samlData files' ↔ Sound i.samlData := by
  obtain ⟨urlOrigin, entries, hurl, rfl⟩ := Prog.wp_of_ok (pushSimplesamlphpConfig_spec i files) hrun
  constructor
  · rintro ⟨authsources, charmConfig, idpRemote, hcontents, -, -, hopens, hdefines⟩
    obtain ⟨-, -, hidp⟩ := SamlFiles.mk.inj hcontents
    obtain rfl := Option.some.inj hidp
    obtain ⟨hcertificates, name, hname⟩ := single_of_opensPhp hne hopens
    obtain ⟨hentity, hindents, hvalues⟩ :=
      (opensPhp_iff (idpEntries_single hne hcertificates hname)).1 hopens
    obtain ⟨hkept, hraw, hfree, hkeys, hpairs⟩ :=
      kept_of_defines hne hcertificates hname hopens hdefines
    refine ⟨hcertificates, (relaid_eq_self_iff hentity).1 hkept, ⟨name, hraw, hfree, hkeys, hname⟩,
      fun ep hep pair hpair => ?_⟩
    have hvalue := hvalues (endpointPairs ep) (List.mem_map_of_mem hep) pair hpair
    exact (relaid_eq_self_iff hvalue).1 (hpairs ep hep pair hpair)
  · rintro ⟨hcertificates, hentity, ⟨name, hraw, hfree, hkeys, hname⟩, hvalues⟩
    have hopens : OpensPhp (idpMetadataContent i.samlData) := by
      refine (opensPhp_iff (idpEntries_single hne hcertificates hname)).2
        ⟨indents_of_free hentity, indents_of_free hfree, ?_⟩
      exact List.forall_mem_map.2 fun ep hep pair hpair => indents_of_free (hvalues ep hep pair hpair)
    exact ⟨_, _, _, rfl, opensPhp_authsourcesContent hurl hentity, opensPhp_configContent entries,
      hopens, defines_of_kept hne hcertificates hname hopens
        (relay_of_free (b := newlines) hentity) hraw hfree hkeys
        fun ep hep pair hpair => relay_of_free (b := newlines) (hvalues ep hep pair hpair)⟩

/-- A relation with one endpoint, and an origin with HTTPS. -/
def sampleInputs (certificates : List PyStr) : SamlInputs where
  unicode := UrlOrigin.asciiUnicode
  samlData := {
    entityId := lit "https://login.example.com"
    certificates := certificates
    endpoints := [{
      name := lit "SingleSignOnService"
      url := some (lit "https://login.example.com/saml/")
      binding := lit "urn:oasis:names:tc:SAML:2.0:bindings:HTTP-Redirect"
      name_ne := by decide
      binding_ne := by decide }]
    entityId_ne := by decide }
  samlSecretSalt := lit "salt"
  urlOrigin := some (lit "https://wiki.example.com")
  appName := lit "mediawiki-k8s"
  connection := some ⟨lit "valkey", 6379, lit "user", lit "password", false⟩

/-- The files of that relation. -/
def sampleFiles (certificates : List PyStr) : SamlFiles where
  authsources := some (authsourcesContent (lit "https://wiki.example.com")
    (lit "https://login.example.com"))
  charmConfig := some (configContent (configEntries (lit "https://wiki.example.com") (lit "salt")
    ⟨lit "valkey", 6379, lit "user", lit "password", false⟩ none))
  idpRemote := some (idpMetadataContent (sampleInputs certificates).samlData)

lemma push_sampleInputs (certificates : List PyStr) :
    pushSimplesamlphpConfig (sampleInputs certificates) {} = (.ok (), sampleFiles certificates) := by
  have horigin : urlparseWith UrlOrigin.asciiUnicode (lit "https") (lit "https://wiki.example.com") =
      some ⟨lit "https", lit "wiki.example.com", [], [], [], []⟩ := rfl
  have hresult : urlparse UrlOrigin.asciiUnicode (lit "https://wiki.example.com") =
      some ⟨lit "https", lit "wiki.example.com", [], [], [], []⟩ := rfl
  have hgeturl : ParseResult.geturl ⟨lit "https", lit "wiki.example.com", [], [], [], []⟩ =
      lit "https://wiki.example.com" := by decide
  refine (pushSimplesamlphpConfig_run (i := sampleInputs certificates) horigin (hgeturl ▸ hresult)
    rfl rfl).trans ?_
  rw [hgeturl]
  rfl

/-- Without a certificate the files are well formed. -/
theorem wellFormed_sampleFiles : WellFormed (sampleInputs []).samlData (sampleFiles []) := by
  refine (wellFormed_iff (List.cons_ne_nil _ _) (push_sampleInputs [])).2
    ⟨rfl, free_iff.2 (by decide), ?_, ?_⟩
  · exact ⟨lit "SingleSignOnService", ⟨by decide, by decide, by decide⟩, free_iff.2 (by decide),
      by decide, List.forall_mem_singleton.2 rfl⟩
  · exact List.forall_mem_singleton.2 (List.forall_mem_cons.2 ⟨free_iff.2 (by decide),
      List.forall_mem_singleton.2 (free_iff.2 (by decide))⟩)

/-- With a certificate there are spaces in front of the opening tag. -/
theorem not_wellFormed_certificate : ¬ ∀ (i : SamlInputs) (files files' : SamlFiles),
    i.samlData.endpoints ≠ [] → pushSimplesamlphpConfig i files = (.ok (), files') →
      WellFormed i.samlData files' := by
  intro h
  obtain ⟨authsources, charmConfig, idpRemote, hcontents, -, -, hopens, -⟩ :=
    h _ _ _ (List.cons_ne_nil _ _) (push_sampleInputs [lit "FAKECERT"])
  obtain ⟨-, -, hidp⟩ := SamlFiles.mk.inj hcontents
  obtain rfl := Option.some.inj hidp
  exact absurd (single_of_opensPhp (List.cons_ne_nil _ _) hopens).1 (List.cons_ne_nil _ _)

end Saml
end MediawikiCharm
