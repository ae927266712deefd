/-
The database settings (`_get_database_settings` of `mediawiki/_settings.py`).

The entry of the server is laid out first, then put into the settings, and these are laid out
again.  What becomes of a value depends on the other values of the same entry.
-/
import MediawikiCharm.PhpLayout.Margins

namespace MediawikiCharm
namespace LateSettings

set_option maxRecDepth 2000

open PyText Lines Textwrap Php PhpLayout

/-- `DatabaseEndpoint` -/
structure DatabaseEndpoint where
  host : PyStr
  port : ℤ

/-- `DatabaseEndpoint.to_string` -/
def DatabaseEndpoint.toString (endpoint : DatabaseEndpoint) : PyStr :=
  if endpoint.port = 0 then endpoint.host
  else endpoint.host ++ lit ":" ++ lit (ToString.toString endpoint.port)

/-- `DatabaseConfig`; that of a relation is `ready`. -/
structure DatabaseConfig where
  endpoints : List DatabaseEndpoint
  database : PyStr
  username : PyStr
  password : PyStr
  ready : database ≠ [] ∧ username ≠ [] ∧ password ≠ [] ∧ endpoints ≠ []

namespace DatabaseConfig

variable (dbData : DatabaseConfig)

/-- The `'host'` of the server. -/
def host : PyStr := (dbData.endpoints.head dbData.ready.2.2.2).toString

/-- The entry of the server, before it is laid out. -/
def serverParts : List (PyStr × PyStr) := [
  (lit "            [\n                'host' => ", dbData.host),
  (lit ",\n                'dbname' => ", dbData.database),
  (lit ",\n                'user' => ", dbData.username),
  (lit ",\n                'password' => ", dbData.password)]

def serverRest : PyStr := lit ",
                'type' => 'mysql',
                'flags' => DBO_DEFAULT | DBO_SSL,
                'load' => 0,
            ]"

/-- `servers_str` -/
def serversStr : PyStr :=
  indentNewlines 16 (Textwrap.dedent (render dbData.serverParts serverRest))

/-- `_get_database_settings` -/
def getDatabaseSettings : PyStr :=
  Textwrap.dedent (render [(lit "\n            $wgDBname = ", dbData.database)]
    (lit ";\n            $wgDBservers = [\n                ") ++
      dbData.serversStr ++ lit "\n            ];\n            ") ++ lit "\n"

/-- The tokens of the settings with the values of the relation. -/
def settingTokens : List Token :=
  fill (scanned [
    (lit "$wgDBname = ", dbData.database),
    (lit "; $wgDBservers = [[ 'host' => ", dbData.host),
    (lit ", 'dbname' => ", dbData.database),
    (lit ", 'user' => ", dbData.username),
    (lit ", 'password' => ", dbData.password)])
  (scan .code
    (lit ", 'type' => 'mysql', 'flags' => DBO_DEFAULT | DBO_SSL, 'load' => 0, ]];")).2

/-! ### The entry of the server -/

/-- The entry with an empty line in front. -/
def serverText : PyStr := ofChar '\n' :: render dbData.serverParts serverRest

/-- The pieces of the entry with an empty line in front. -/
def serverTextParts : List (PyStr × PyStr) :=
  dbData.serverParts.modifyHead fun part => (ofChar '\n' :: part.1, part.2)

lemma serverText_eq : dbData.serverText = render dbData.serverTextParts serverRest := rfl

lemma hasHead_serverText : HasHead 12 dbData.serverText :=
  ⟨ofChar '[', _, by decide, rfl⟩

lemma isText_serverText : IsText dbData.serverText (scanned dbData.serverTextParts)
    (scan .code serverRest).2 := by
  refine ⟨_, _, rfl, ⟨?_, ?_⟩, rfl, rfl⟩
  · simp only [serverTextParts, serverParts, List.modifyHead_cons, List.forall_mem_cons,
      List.not_mem_nil, false_implies, implies_true, and_true]
    repeat rw [lit_ofList]
    decide
  · rw [serverRest, lit_ofList]
    decide

/-- The values of the entry. -/
def serverValues : List PyStr := [dbData.host, dbData.database, dbData.username, dbData.password]

/-- The margin of the entry is that of its values, or that of its code. -/
lemma le_depth_serverText {n : ℕ} : n ≤ depth dbData.serverText ↔
    n ≤ 12 ∧ ∀ s ∈ dbData.serverValues, Indents newlines n s := by
  have hhead := dbData.hasHead_serverText
  rw [serverText_eq] at hhead ⊢
  refine le_depth_render hhead ?_ ?_
  · simp only [serverTextParts, serverParts, List.modifyHead_cons, List.forall_mem_cons,
      List.not_mem_nil, false_implies, implies_true, and_true]
    repeat rw [lit_ofList]
    decide
  · rw [serverRest, lit_ofList]
    decide

/-! ### The settings -/

/-- The settings before they are laid out. -/
def settingsText : PyStr :=
  render [(lit "\n            $wgDBname = ", dbData.database)]
      (lit ";\n            $wgDBservers = [\n                ") ++
    dbData.serversStr ++ lit "\n            ];\n            "

/-- The entry begins on a line of its own. -/
lemma settingsText_eq : dbData.settingsText =
    render [(lit "\n            $wgDBname = ", dbData.database)]
      (lit ";\n            $wgDBservers = [") ++
    indentNewlines 16 (Textwrap.dedent dbData.serverText) ++
      lit "\n            ];\n            " := by
  have hcode : lit ";\n            $wgDBservers = [\n                " =
      lit ";\n            $wgDBservers = [" ++ ofChar '\n' :: spaces 16 := by
    repeat rw [lit_ofList]
    decide
  rw [settingsText, hcode, serversStr, serverText, dedent_cons, indentNewlines_cons, render_rest,
    List.append_assoc _ _ (indentNewlines 16 _), List.cons_append]

lemma hasHead_settingsText : HasHead 12 dbData.settingsText :=
  ⟨ofChar '$', _, by decide, rfl⟩

/-- The entry is indented by more than the margin. -/
lemma le_depth_settingsText {n : ℕ} : n ≤ depth dbData.settingsText ↔
    n ≤ 12 ∧ Indents newlines n dbData.database := by
  have hcode : Indents newlines 12 (lit "\n            $wgDBname = ") ∧
      FitsAll newlines (.dedent 12) (lit ";\n            $wgDBservers = [") ∧
      FitsAll newlines (.dedent 12) (lit "\n            ];\n            ") := by
    repeat rw [lit_ofList]
    decide
  obtain ⟨hdbname, hservers, hclose⟩ := hcode
  have hentry : indentNewlines 16 (Textwrap.dedent dbData.serverText) = ofChar '\n' :: (spaces 16 ++
      indentNewlines 16 (Textwrap.dedent (render dbData.serverParts serverRest))) := by
    rw [serverText, dedent_cons, indentNewlines_cons]
  have hpost : lit "\n            ];\n            " =
      ofChar '\n' :: lit "            ];\n            " := rfl
  have hfits : n ≤ depth dbData.settingsText ↔
      ((Indents newlines n (lit "\n            $wgDBname = ") ∧ Indents newlines n dbData.database) ∧
        FitsAll newlines (.dedent n) (lit ";\n            $wgDBservers = [")) ∧
      FitsAll newlines (.dedent n) (indentNewlines 16 (Textwrap.dedent dbData.serverText)) ∧
      FitsAll newlines (.dedent n) (lit "\n            ];\n            ") := by
    rw [le_depth_iff dbData.hasHead_settingsText, settingsText_eq, hpost, fitsAll_append_break rfl,
      ← hpost, hentry, fitsAll_append_break rfl, ← hentry, fitsAll_render, and_assoc]
    simp only [List.forall_mem_cons, List.not_mem_nil, false_implies, implies_true, and_true]
    rfl
  constructor
  · intro h
    exact ⟨h.trans (depth_le dbData.hasHead_settingsText), (hfits.1 h).1.1.2⟩
  · rintro ⟨hn, hdatabase⟩
    exact hfits.2 ⟨⟨⟨hdbname.mono hn, hdatabase⟩, hservers.mono hn⟩, fitsAll_of_le (by omega),
      hclose.mono hn⟩

/-- What becomes of a value of the entry. -/
def relayServer (v : PyStr) : PyStr :=
  relay newlines (.dedent (depth dbData.settingsText)) (relay newlines (.indentNewlines 16)
    (relay newlines (.dedent (depth dbData.serverText)) v))

lemma isText_getDatabaseSettings : IsText dbData.getDatabaseSettings [
    ((scan .code (lit "$wgDBname = ")).2,
      relay newlines (.dedent (depth dbData.settingsText)) dbData.database),
    ((scan .code (lit "; $wgDBservers = [[ 'host' => ")).2, dbData.relayServer dbData.host),
    ((scan .code (lit ", 'dbname' => ")).2, dbData.relayServer dbData.database),
    ((scan .code (lit ", 'user' => ")).2, dbData.relayServer dbData.username),
    ((scan .code (lit ", 'password' => ")).2, dbData.relayServer dbData.password)]
    (scan .code
      (lit ", 'type' => 'mysql', 'flags' => DBO_DEFAULT | DBO_SSL, 'load' => 0, ]];")).2 := by
  have hname : IsText (render [(lit "\n            $wgDBname = ", dbData.database)]
      (lit ";\n            $wgDBservers = ["))
      (scanned [(lit "\n            $wgDBname = ", dbData.database)])
      (scan .code (lit ";\n            $wgDBservers = [")).2 := by
    refine ⟨_, _, rfl, ⟨?_, ?_⟩, rfl, rfl⟩
    · simp only [List.forall_mem_cons, List.not_mem_nil, false_implies, implies_true, and_true]
      rw [lit_ofList]
      decide
    · rw [lit_ofList]
      decide
  have hentry := (dbData.isText_serverText.dedent dbData.hasHead_serverText).indentNewlines (n := 16)
  have hclose : IsCode newlines (lit "\n            ];\n            ") := by
    rw [lit_ofList]
    decide
  have htext := (hname.append hentry).append_code hclose
  rw [← settingsText_eq] at htext
  have hsettings := (htext.dedent dbData.hasHead_settingsText).append_code
    (show IsCode newlines (lit "\n") by decide)
  -- the layout of the code does not show in its tokens
  have hcode : (scan .code (lit "$wgDBname = ")).2 =
        (scan .code (lit "\n            $wgDBname = ")).2 ∧
      (scan .code (lit "; $wgDBservers = [[ 'host' => ")).2 =
        (scan .code (lit ";\n            $wgDBservers = [")).2 ++
          (scan .code (ofChar '\n' :: lit "            [\n                'host' => ")).2 ∧
      (scan .code (lit ", 'dbname' => ")).2 =
        (scan .code (lit ",\n                'dbname' => ")).2 ∧
      (scan .code (lit ", 'user' => ")).2 = (scan .code (lit ",\n                'user' => ")).2 ∧
      (scan .code (lit ", 'password' => ")).2 =
        (scan .code (lit ",\n                'password' => ")).2 ∧
      (scan .code
          (lit ", 'type' => 'mysql', 'flags' => DBO_DEFAULT | DBO_SSL, 'load' => 0, ]];")).2 =
        (scan .code serverRest).2 ++ (scan .code (lit "\n            ];\n            ")).2 ++
          (scan .code (lit "\n")).2 := by
    rw [serverRest]
    repeat rw [lit_ofList]
    decide
  obtain ⟨hdbname, hhost, hservers, huser, hpassword, hrest⟩ := hcode
  rw [hdbname, hhost, hservers, huser, hpassword, hrest]
  exact hsettings

lemma relayServer_eq {v : PyStr} (hv : v ∈ dbData.serverValues) : dbData.relayServer v =
    relay newlines ⟨16 - depth dbData.settingsText, depth dbData.serverText, none⟩ v := by
  have hfits : Fits newlines ⟨0, depth dbData.serverText, none⟩ v :=
    (dbData.le_depth_serverText.1 le_rfl).2 v hv
  have hle : depth dbData.settingsText ≤ 16 :=
    (depth_le dbData.hasHead_settingsText).trans (by omega)
  exact relay_dedent_indentNewlines_relay hfits hle

/-- The name of the database stands in the settings and in the entry. -/
lemma free_database (hname : relay newlines (.dedent (depth dbData.settingsText)) dbData.database =
    dbData.database) (hserver : dbData.relayServer dbData.database = dbData.database) :
    Free isNewline dbData.database := by
  have hmem : dbData.database ∈ dbData.serverValues :=
    List.mem_cons_of_mem _ List.mem_cons_self
  have hfits₁ : Fits newlines ⟨0, depth dbData.settingsText, none⟩ dbData.database :=
    (dbData.le_depth_settingsText.1 le_rfl).2
  have hfits₂ : Fits newlines ⟨16 - depth dbData.settingsText, depth dbData.serverText, none⟩
      dbData.database := (dbData.le_depth_serverText.1 le_rfl).2 _ hmem
  rw [dbData.relayServer_eq hmem] at hserver
  rcases (relay_eq_self_iff hfits₁).1 hname with hfree | ⟨houter, -⟩
  · exact hfree
  · rcases (relay_eq_self_iff hfits₂).1 hserver with hfree | ⟨hinner, -⟩
    · exact hfree
    · -- nothing is taken from the settings, so the entry would have to lose sixteen spaces
      have hle := depth_le dbData.hasHead_serverText
      omega

/-- The settings have the values of the relation exactly if the name of the database has no line
break, and the other values none, or lines that have four spaces in common. -/
theorem tokens_getDatabaseSettings_iff :
    tokens dbData.getDatabaseSettings = some dbData.settingTokens ↔
      Free isNewline dbData.database ∧
        Aligned 4 [dbData.host, dbData.username, dbData.password] := by
  rw [dbData.isText_getDatabaseSettings.tokens_eq, Option.some_inj, settingTokens]
  refine Iff.trans (fill_inj ?_) ?_
  · simp only [scanned, List.map_cons, List.map_nil]
  simp only [scanned, List.map_cons, List.map_nil, List.cons.injEq, Prod.mk.injEq, true_and,
    and_true]
  have hmargin : Free isNewline dbData.database → depth dbData.settingsText = 12 := fun hfree =>
    le_antisymm (depth_le dbData.hasHead_settingsText)
      (dbData.le_depth_settingsText.2 ⟨le_rfl, indents_of_free hfree⟩)
  have hdepth : Free isNewline dbData.database → ∀ j, j ≤ depth dbData.serverText ↔
      j ≤ 12 ∧ ∀ s ∈ [dbData.host, dbData.username, dbData.password], Indents newlines j s := by
    intro hfree j
    have hdatabase : Indents newlines j dbData.database := indents_of_free hfree
    simp only [le_depth_serverText, serverValues, List.forall_mem_cons, hdatabase, true_and]
  have hvalues : Free isNewline dbData.database →
      ((∀ s ∈ [dbData.host, dbData.username, dbData.password], dbData.relayServer s = s) ↔
        Aligned 4 [dbData.host, dbData.username, dbData.password]) := by
    intro hfree
    rw [← aligned_iff (by omega) (hdepth hfree)]
    refine forall₂_congr fun s hs => ?_
    have hmem : s ∈ dbData.serverValues := by
      simp only [List.mem_cons, serverValues] at hs ⊢
      tauto
    rw [dbData.relayServer_eq hmem, hmargin hfree]
  simp only [List.forall_mem_cons, List.not_mem_nil, false_implies, implies_true, and_true]
    at hvalues
  constructor
  · rintro ⟨hname, hhost, hdbname, huser, hpassword⟩
    have hfree := dbData.free_database hname hdbname
    exact ⟨hfree, (hvalues hfree).1 ⟨hhost, huser, hpassword⟩⟩
  · rintro ⟨hfree, haligned⟩
    obtain ⟨hhost, huser, hpassword⟩ := (hvalues hfree).2 haligned
    have hmem : dbData.database ∈ dbData.serverValues :=
      List.mem_cons_of_mem _ List.mem_cons_self
    exact ⟨relay_of_free hfree, hhost,
      (dbData.relayServer_eq hmem).trans (relay_of_free hfree), huser, hpassword⟩

end DatabaseConfig

end LateSettings
end MediawikiCharm
