/-
The values of the SMTP settings (`_get_smtp_settings` of `mediawiki/_settings.py`).

The entries of `$wgSMTP` are dedented and then indented by four spaces, with the values in place.
The first line has no spaces, so nothing is taken from the lines.  The lines are those of
`str.splitlines` the second time, and the last line of a value is indented for certain.
-/
import MediawikiCharm.PhpLayout.Entries
import MediawikiCharm.SmtpSettings

namespace MediawikiCharm
namespace Smtp

set_option maxRecDepth 2000

open PyText Lines Php PhpLayout

/-! ### The layout as changes of lines -/

lemma isBlank_chars (line : List Char) :
    Textwrap.isBlank (chars line) = line.all fun c => isSpace (ofChar c) := List.all_map

/-- What `dedent` makes of the lines. -/
def dedentLines : Layout := ⟨0, 0, none⟩

/-- What `indent` makes of the lines. -/
def indentLines : Layout := ⟨4, 0, some 0⟩

lemma splitOn_chars (text : List Char) :
    (chars text).splitOn (ofChar '\n') = (text.splitOn '\n').map chars :=
  Split.splitOn_map (fun _ => ofChar_inj) text

lemma chars_dedent (text : List Char) :
    chars (dedent text) = mapAll Textwrap.isNewline dedentLines.line (chars text) := by
  have hline : ∀ line : List Char, chars (if isBlank line then [] else line) =
      dedentLines.line (chars line) := by
    intro line
    rw [Layout.line, isBlank_chars]
    cases line with
    | nil => rfl
    | cons c line =>
      rw [isBlank, List.isEmpty_cons, Bool.not_false, Bool.true_and]
      split_ifs
      · rfl
      · rfl
  rw [dedent, Split.hom_intercalate chars chars_append, List.map_map,
    ← Textwrap.intercalate_splitOn_map, splitOn_chars, List.map_map]
  congr 1
  exact List.map_congr_left fun line _ => hline line

/-- A line of `indent`, with the white space that ends it. -/
lemma chars_indentLine (line ending : List Char) (hne : line ++ ending ≠ [])
    (hending : ∀ c ∈ ending, isSpace (ofChar c) = true) :
    chars (if isBlank (line ++ ending) then line ++ ending else "    ".toList ++ (line ++ ending)) =
      indentLines.line (chars line) ++ chars ending := by
  have hspaces : chars "    ".toList = Textwrap.spaces 4 := by decide
  have hall : isBlank (line ++ ending) = line.all fun c => isSpace (ofChar c) := by
    rw [isBlank, List.isEmpty_eq_false_iff.2 hne, Bool.not_false, Bool.true_and, List.all_append,
      List.all_eq_true.2 hending, Bool.and_true]
  rw [hall, Layout.line, isBlank_chars]
  split_ifs
  · exact chars_append line ending
  · rw [chars_append, chars_append, hspaces, ← List.append_assoc]
    rfl

lemma chars_keptLines (line text : List Char) (hfree : Free isLineBreak (chars line)) :
    chars ((keptLines line text).flatMap fun line =>
        if isBlank line then line else "    ".toList ++ line) =
      mapAll isLineBreak indentLines.line (chars (line.reverse ++ text)) := by
  have hrev : ∀ {l : List Char}, Free isLineBreak (chars l) → Free isLineBreak (chars l.reverse) := by
    intro l hl c hc
    rw [chars, List.map_reverse] at hc
    exact hl c (List.mem_reverse.1 hc)
  induction line, text using keptLines.induct with
  | case1 => rfl
  | case2 line hline =>
    have hkept := chars_indentLine line.reverse [] (by simpa using hline)
      fun c hc => absurd hc List.not_mem_nil
    rw [List.append_nil] at hkept ⊢
    rw [keptLines, if_neg hline, List.flatMap_singleton, mapAll_of_free (hrev hfree), hkept]
    exact List.append_nil _
  | case3 line s ih =>
    -- the two characters end one line
    have hkept := chars_indentLine line.reverse ['\r', '\n']
      (List.append_ne_nil_of_right_ne_nil _ (List.cons_ne_nil _ _))
      (List.forall_mem_cons.2 ⟨rfl, List.forall_mem_singleton.2 rfl⟩)
    have hrest := ih Free.nil
    have hnewline : mapAll isLineBreak indentLines.line (chars ('\n' :: s)) =
        ofChar '\n' :: mapAll isLineBreak indentLines.line (chars s) :=
      mapAll_append_break (a := []) rfl Free.nil
    have hlines : mapAll isLineBreak indentLines.line (chars (line.reverse ++ '\r' :: '\n' :: s)) =
        indentLines.line (chars line.reverse) ++
          ofChar '\r' :: mapAll isLineBreak indentLines.line (chars ('\n' :: s)) := by
      rw [chars_append]
      exact mapAll_append_break rfl (hrev hfree)
    rw [List.reverse_nil, List.nil_append] at hrest
    rw [keptLines, List.flatMap_cons, chars_append, hrest, List.reverse_cons, List.reverse_cons,
      List.append_assoc, List.singleton_append, hkept, hlines, hnewline, List.append_assoc]
    rfl
  | case4 line c s hnot hc ih =>
    have hkept := chars_indentLine line.reverse [c]
      (List.append_ne_nil_of_right_ne_nil _ (List.cons_ne_nil _ _))
      (List.forall_mem_singleton.2 (lineBreaks.isSpace _ hc))
    have hrest := ih Free.nil
    have hlines : mapAll isLineBreak indentLines.line (chars (line.reverse ++ c :: s)) =
        indentLines.line (chars line.reverse) ++
          ofChar c :: mapAll isLineBreak indentLines.line (chars s) := by
      rw [chars_append]
      exact mapAll_append_break hc (hrev hfree)
    rw [List.reverse_nil, List.nil_append] at hrest
    rw [keptLines, if_pos hc, List.flatMap_cons, chars_append, hrest, List.reverse_cons, hkept,
      hlines, List.append_assoc]
    · rfl
    · exact hnot
  | case5 line c s hnot hc ih =>
    have hrest := ih (free_cons.2 ⟨eq_false_of_ne_true hc, hfree⟩)
    rw [keptLines, if_neg hc, hrest, List.reverse_cons, List.append_assoc, List.singleton_append]
    exact hnot

lemma chars_indent (text : List Char) :
    chars (indent text) = mapAll isLineBreak indentLines.line (chars text) :=
  chars_keptLines [] text Free.nil

/-! ### The entries -/

section Entries

variable (smtpUsesTunnel : Bool) (smtpData : SmtpRelationData)

/-- The host of the relay is among the TLS options. -/
def showsPeerName : Bool := smtpUsesTunnel && decide (smtpData.transportSecurity ≠ .none)

/-- The pieces of the TLS options. -/
def optionPieces : List (List Piece) :=
  (if smtpData.skipSslVerify then
    [[.code (lit "'verify_peer' => false")], [.code (lit "'verify_peer_name' => false")]]
    else []) ++
  (if showsPeerName smtpUsesTunnel smtpData then
    [[.code (lit "'peer_name' => "), .value (lit smtpData.host)]] else [])

/-- The entry of the TLS options. -/
def optionsEntry (options : List (List Piece)) : List (List Piece) :=
  if options = [] then []
  else [.code (lit "'socket_options' => array('ssl' => array(") ::
    ([.code (lit ", ")].intercalate options ++ [.code (lit "))")])]

/-- The pieces of the entries of `$wgSMTP`. -/
def entryPieces : List (List Piece) :=
  [[.code (lit "'host' => "), .value (lit (wgSmtpHost smtpUsesTunnel smtpData))],
    [.code (lit "'port' => "), .code (lit (toString (wgSmtpPort smtpUsesTunnel smtpData)))],
    [.code (lit "'auth' => "),
      .code (lit (if smtpData.authType = .plain then "true" else "false"))]] ++
  (smtpData.user.elim [] fun user => [[.code (lit "'username' => "), .value (lit user)]]) ++
  (smtpData.password.elim [] fun password =>
    [[.code (lit "'password' => "), .value (lit password)]]) ++
  optionsEntry (optionPieces smtpUsesTunnel smtpData)

/-- The entries of `$wgSMTP`, each with the comma behind it. -/
def smtpLines : List (List Piece) :=
  (entryPieces smtpUsesTunnel smtpData).map fun entry => entry ++ [.code (lit ",")]

variable {smtpUsesTunnel smtpData}

lemma lit_escapePhpString (s : String) :
    lit (Settings.escapePhpString s) = escapePhpString (lit s) := by
  rw [Settings.escapePhpString, lit_ofList, PhpStrings.escapePhpString_eq, lit, List.flatMap_map,
    chars, List.map_flatMap]
  refine List.flatMap_congr fun c _ => ?_
  rw [PhpStrings.escapeChar]
  simp only [ofChar_inj]
  split_ifs
  · decide
  · decide
  · rfl

/-- A value between quotes. -/
lemma lit_quoted {opening value : String} {code : PyStr}
    (h : lit opening = code ++ [ofChar '\'']) :
    lit (opening ++ Settings.escapePhpString value ++ "'") = code ++ quoted (lit value) := by
  rw [lit_append, lit_append, lit_escapePhpString, h, quoted, List.append_assoc, List.append_assoc]
  rfl

lemma entryText_value (code value : PyStr) :
    entryText [.code code, .value value] = code ++ quoted value := by
  simp [entryText, Piece.text]

lemma entryText_code (s t : PyStr) : entryText [.code s, .code t] = s ++ t := by
  simp [entryText, Piece.text]

lemma entryText_append (entry more : List Piece) :
    entryText (entry ++ more) = entryText entry ++ entryText more := List.flatMap_append

lemma lit_intercalate (sep : String) (texts : List String) :
    lit (String.intercalate sep texts) = (lit sep).intercalate (texts.map lit) := by
  have hchars := Split.hom_intercalate chars chars_append sep.toList (texts.map String.toList)
  rw [List.map_map] at hchars
  rw [lit, String.toList_intercalate]
  exact hchars

lemma lit_sslOptions : (sslOptions smtpUsesTunnel smtpData).map lit =
    (optionPieces smtpUsesTunnel smtpData).map entryText := by
  have hpeer : lit ("'peer_name' => '" ++ Settings.escapePhpString smtpData.host ++ "'") =
      lit "'peer_name' => " ++ quoted (lit smtpData.host) := lit_quoted (by decide)
  have hcode : ∀ s : PyStr, entryText [.code s] = s := fun s => List.append_nil s
  rw [sslOptions, optionPieces, ← showsPeerName, List.map_append, List.map_append]
  congr 1
  · cases smtpData.skipSslVerify with
    | true =>
      rw [if_pos rfl, if_pos rfl, List.map_cons, List.map_singleton, List.map_cons,
        List.map_singleton, hcode, hcode]
    | false => rfl
  · cases showsPeerName smtpUsesTunnel smtpData with
    | true =>
      rw [if_pos rfl, if_pos rfl, List.map_singleton, List.map_singleton, hpeer, entryText_value]
    | false => rfl

lemma lit_optionsEntry {texts : List String} {options : List (List Piece)}
    (h : texts.map lit = options.map entryText) (hne : texts ≠ []) :
    [lit ("'socket_options' => array('ssl' => array(" ++ String.intercalate ", " texts ++ "))")] =
      (optionsEntry options).map entryText := by
  have hoptions : options ≠ [] := by
    rintro rfl
    exact hne (List.map_eq_nil_iff.1 h)
  have hcode : ∀ s : PyStr, entryText [.code s] = s := fun s => List.append_nil s
  have hcons : ∀ (s : PyStr) (entry : List Piece), entryText (.code s :: entry) =
      s ++ entryText entry := fun _ _ => rfl
  rw [optionsEntry, if_neg hoptions, List.map_singleton, lit_append, lit_append, lit_intercalate, h,
    hcons, entryText_append, Split.hom_intercalate entryText entryText_append, hcode, hcode,
    List.append_assoc]

lemma lit_wgSmtpEntries : (wgSmtpEntries smtpUsesTunnel smtpData).map lit =
    (entryPieces smtpUsesTunnel smtpData).map entryText := by
  have hhost : lit ("'host' => '" ++
        Settings.escapePhpString (wgSmtpHost smtpUsesTunnel smtpData) ++ "'") =
      lit "'host' => " ++ quoted (lit (wgSmtpHost smtpUsesTunnel smtpData)) := lit_quoted (by decide)
  rw [wgSmtpEntries, entryPieces, List.map_append, List.map_append, List.map_append,
    List.map_append, List.map_append, List.map_append]
  refine congrArg₂ _ (congrArg₂ _ (congrArg₂ _ ?_ ?_) ?_) ?_
  · rw [List.map_cons, List.map_cons, List.map_singleton, List.map_cons, List.map_cons,
      List.map_singleton, hhost, lit_append, lit_append, entryText_value, entryText_code,
      entryText_code]
  · cases smtpData.user with
    | none => rfl
    | some user =>
      have huser := entryText_value (lit "'username' => ") (lit user)
      exact congrArg (fun s => [s]) ((lit_quoted (by decide)).trans huser.symm)
  · cases smtpData.password with
    | none => rfl
    | some password =>
      have hpassword := entryText_value (lit "'password' => ") (lit password)
      exact congrArg (fun s => [s]) ((lit_quoted (by decide)).trans hpassword.symm)
  · have hoptions := @lit_sslOptions smtpUsesTunnel smtpData
    generalize sslOptions smtpUsesTunnel smtpData = options at hoptions ⊢
    cases options with
    | nil =>
      rw [optionsEntry, if_pos (List.map_eq_nil_iff.1 hoptions.symm)]
      rfl
    | cons option options => exact lit_optionsEntry hoptions (List.cons_ne_nil _ _)

/-! ### Lines -/

/-- A number is code. -/
lemma isLine_number (n : ℕ) : Piece.IsLine lineBreaks (.code (lit (toString n))) := by
  have hdigit : ∀ c ∈ lit (toString n), 0x30 ≤ c.val ∧ c.val ≤ 0x39 := by
    intro c hc
    rw [lit, Nat.toString_eq_repr, Nat.toList_repr] at hc
    obtain ⟨d, hd, rfl⟩ := List.mem_map.1 hc
    have hdigit : d.isDigit = true := Nat.isDigit_of_mem_toDigits (by decide) (by decide) hd
    exact isDigit_iff.1 hdigit
  constructor
  · intro c hc
    have hval := hdigit c hc
    by_contra hbreak
    have hbreak := eq_true_of_ne_false hbreak
    simp only [lineBreaks, isLineBreak, Bool.or_eq_true, Bool.and_eq_true, decide_eq_true_eq,
      beq_iff_eq] at hbreak
    omega
  · have hquote : ofChar '\'' ∉ lit (toString n) := fun hc => absurd (hdigit _ hc).1 (by decide)
    exact congrArg Prod.fst (scan_unquoted hquote)

/-- An entry, with the comma behind it. -/
lemma isEntry_cons {code : PyStr} {more : List Piece}
    (hcode : Piece.IsLine lineBreaks (.code code) ∧ code.head?.any (fun c => !isSpace c) = true)
    (hmore : ∀ piece ∈ more, piece.IsLine lineBreaks) :
    IsEntry lineBreaks (.code code :: more ++ [.code (lit ",")]) := by
  have hcomma : Piece.IsLine lineBreaks (.code (lit ",")) := by decide
  obtain ⟨hcode, hhead⟩ := hcode
  cases code with
  | nil => exact absurd hhead Bool.false_ne_true
  | cons c s =>
    refine ⟨List.forall_mem_append.2 ⟨List.forall_mem_cons.2 ⟨hcode, hmore⟩,
      List.forall_mem_singleton.2 hcomma⟩, c, s, more ++ [.code (lit ",")], rfl, ?_⟩
    simpa using hhead

lemma isLine_options : ∀ option ∈ optionPieces smtpUsesTunnel smtpData, ∀ piece ∈ option,
    piece.IsLine lineBreaks := by
  have hverify : Piece.IsLine lineBreaks (.code (lit "'verify_peer' => false")) ∧
      Piece.IsLine lineBreaks (.code (lit "'verify_peer_name' => false")) ∧
      Piece.IsLine lineBreaks (.code (lit "'peer_name' => ")) := by
    repeat rw [lit_ofList]
    decide
  rw [optionPieces, List.forall_mem_append]
  constructor
  · cases smtpData.skipSslVerify with
    | true =>
      rw [if_pos rfl]
      simp only [List.forall_mem_cons, List.not_mem_nil, false_implies, implies_true, and_true]
      exact ⟨hverify.1, hverify.2.1⟩
    | false => exact fun option ho => absurd ho List.not_mem_nil
  · cases showsPeerName smtpUsesTunnel smtpData with
    | true =>
      rw [if_pos rfl]
      simp only [List.forall_mem_cons, List.not_mem_nil, false_implies, implies_true, and_true]
      exact ⟨hverify.2.2, trivial⟩
    | false => exact fun option ho => absurd ho List.not_mem_nil

lemma isEntry_smtpLines : ∀ entry ∈ smtpLines smtpUsesTunnel smtpData, IsEntry lineBreaks entry := by
  have hvalue : ∀ v, ∀ piece ∈ [Piece.value v], piece.IsLine lineBreaks :=
    fun v => List.forall_mem_singleton.2 trivial
  rw [smtpLines, List.forall_mem_map, entryPieces]
  simp only [List.forall_mem_append, List.forall_mem_cons, List.not_mem_nil, false_implies,
    implies_true, and_true]
  refine ⟨⟨⟨⟨isEntry_cons ?_ (hvalue _), isEntry_cons ?_ (List.forall_mem_singleton.2
    (isLine_number _)), isEntry_cons ?_ (List.forall_mem_singleton.2 ?_)⟩, ?_⟩, ?_⟩, ?_⟩
  · rw [lit_ofList]
    decide
  · rw [lit_ofList]
    decide
  · rw [lit_ofList]
    decide
  · split_ifs
    · decide
    · decide
  · cases smtpData.user with
    | none => exact fun entry he => absurd he List.not_mem_nil
    | some user =>
      refine List.forall_mem_singleton.2 (isEntry_cons ?_ (hvalue _))
      rw [lit_ofList]
      decide
  · cases smtpData.password with
    | none => exact fun entry he => absurd he List.not_mem_nil
    | some password =>
      refine List.forall_mem_singleton.2 (isEntry_cons ?_ (hvalue _))
      rw [lit_ofList]
      decide
  · rw [optionsEntry]
    split_ifs with hoptions
    · exact fun entry he => absurd he List.not_mem_nil
    · refine List.forall_mem_singleton.2 (isEntry_cons ?_ (List.forall_mem_append.2 ⟨?_, ?_⟩))
      · rw [lit_ofList]
        decide
      · intro piece hpiece
        by_cases hsep : piece ∈ [Piece.code (lit ", ")]
        · obtain rfl := List.mem_singleton.1 hsep
          decide
        · obtain ⟨option, ho, hpiece⟩ := (mem_intercalate hsep).1 hpiece
          exact isLine_options option ho piece hpiece
      · exact List.forall_mem_singleton.2 (by decide)

/-! ### The tokens of the settings -/

/-- The tokens of the sender. -/
def senderTokens (smtpSender : Option String) : List Token :=
  smtpSender.elim [] fun sender =>
    (scan .code (lit "$wgPasswordSender = ")).2 ++ .str (lit sender) :: (scan .code (lit ";")).2

variable (smtpUsesTunnel smtpData) in
/-- The tokens of the settings with the values of the relation. -/
def settingTokens : List Token :=
  (scan .code (lit "$wgSMTP = [")).2 ++
    (entryTokens (smtpLines smtpUsesTunnel smtpData).flatten ++
      ((scan .code (lit "];")).2 ++ senderTokens smtpData.smtpSender))

/-- What becomes of a value of an entry. -/
def relayEntry (v : PyStr) : PyStr := relay lineBreaks indentLines (relay newlines dedentLines v)

lemma lit_entries : lit (String.intercalate "\n"
      ((wgSmtpEntries smtpUsesTunnel smtpData).map fun entry => entry ++ ",")) =
    [ofChar '\n'].intercalate ((smtpLines smtpUsesTunnel smtpData).map entryText) := by
  have hcomma : ∀ entry : String, lit (entry ++ ",") = lit entry ++ lit "," := fun entry =>
    lit_append entry ","
  have hcode : entryText [.code (lit ",")] = lit "," := List.append_nil _
  have htexts : ((wgSmtpEntries smtpUsesTunnel smtpData).map lit).map (· ++ lit ",") =
      ((entryPieces smtpUsesTunnel smtpData).map entryText).map (· ++ lit ",") := by
    rw [lit_wgSmtpEntries]
  rw [List.map_map, List.map_map] at htexts
  rw [lit_intercalate, smtpLines, List.map_map, List.map_map]
  refine congrArg (List.intercalate _) (Eq.trans ?_ (htexts.trans ?_))
  · exact List.map_congr_left fun entry _ => hcomma entry
  · refine List.map_congr_left fun entry _ => ?_
    rw [Function.comp_apply, Function.comp_apply, entryText_append, hcode]

lemma chars_entries : chars (indent (dedent (String.intercalate "\n"
      ((wgSmtpEntries smtpUsesTunnel smtpData).map fun entry => entry ++ ",")).toList)) =
    [ofChar '\n'].intercalate ((smtpLines smtpUsesTunnel smtpData).map fun entry =>
      Textwrap.spaces 4 ++ entryText (entry.map (Piece.map relayEntry))) := by
  have hlines := @isEntry_smtpLines smtpUsesTunnel smtpData
  have hne : smtpLines smtpUsesTunnel smtpData ≠ [] := by
    simp [smtpLines, entryPieces]
  have htext := @lit_entries smtpUsesTunnel smtpData
  generalize smtpLines smtpUsesTunnel smtpData = lines at hlines hne htext ⊢
  -- nothing is taken from the lines, as the first one has no spaces
  have hdedent : mapAll Textwrap.isNewline dedentLines.line
        ([ofChar '\n'].intercalate (lines.map entryText)) =
      [ofChar '\n'].intercalate
        ((lines.map (List.map (Piece.map (relay newlines dedentLines)))).map entryText) := by
    rw [List.map_map]
    exact mapAll_entries (b := newlines) rfl rfl hne fun entry he => (hlines entry he).newlines
  have hmapped : ∀ entry ∈ lines.map (List.map (Piece.map (relay newlines dedentLines))),
      IsEntry lineBreaks entry := List.forall_mem_map.2 fun entry he => (hlines entry he).map
  have hindent := mapAll_entries (b := lineBreaks) (f := indentLines) rfl rfl
    (fun h => hne (List.map_eq_nil_iff.1 h)) hmapped
  rw [chars_indent, chars_dedent]
  refine (congrArg _ ((congrArg _ htext).trans hdedent)).trans (hindent.trans ?_)
  rw [List.map_map]
  refine congrArg _ (List.map_congr_left fun entry _ => ?_)
  have hpieces : (entry.map (Piece.map (relay newlines dedentLines))).map
      (Piece.map (relay lineBreaks indentLines)) = entry.map (Piece.map relayEntry) := by
    rw [List.map_map]
    refine List.map_congr_left fun piece _ => ?_
    cases piece with
    | code s => rfl
    | value v => rfl
  rw [Function.comp_apply, hpieces]
  rfl

lemma scan_sender (sender : String) :
    scan .code (lit ("$wgPasswordSender = '" ++ Settings.escapePhpString sender ++ "';\n")) =
      (.code, senderTokens (some sender)) := by
  have hopening : lit "$wgPasswordSender = '" = lit "$wgPasswordSender = " ++ [ofChar '\''] := by
    decide
  have hclosing : lit "';\n" = [ofChar '\''] ++ lit ";\n" := by decide
  have hquoted : lit ("$wgPasswordSender = '" ++ Settings.escapePhpString sender ++ "';\n") =
      lit "$wgPasswordSender = " ++ (quoted (lit sender) ++ lit ";\n") := by
    rw [lit_append, lit_append, hopening, hclosing, lit_escapePhpString, quoted]
    simp only [List.append_assoc, List.cons_append, List.nil_append]
  have hcode : scan .code (lit "$wgPasswordSender = ") =
      (.code, (scan .code (lit "$wgPasswordSender = ")).2) := by decide
  have hend : scan .code (lit ";\n") = (.code, (scan .code (lit ";")).2) := by decide
  rw [hquoted, scan_append, hcode, scan_quoted, hend]
  rfl

lemma scan_smtpText : scan .code (lit (smtpText smtpUsesTunnel smtpData)) =
    (.code, (scan .code (lit "$wgSMTP = [")).2 ++
      (entryTokens ((smtpLines smtpUsesTunnel smtpData).flatten.map (Piece.map relayEntry)) ++
        ((scan .code (lit "];")).2 ++ senderTokens smtpData.smtpSender))) := by
  have hhead : scan .code (lit "$wgSMTP = [\n") = (.code, (scan .code (lit "$wgSMTP = [")).2) := by
    decide
  have hclose : scan .code (lit "\n];\n") = (.code, (scan .code (lit "];")).2) := by decide
  have hnewline : scan .code (lit "\n") = (.code, []) := by decide
  have hline : ∀ entry ∈ smtpLines smtpUsesTunnel smtpData,
      scan .code (Textwrap.spaces 4 ++ entryText (entry.map (Piece.map relayEntry))) =
        (.code, entryTokens (entry.map (Piece.map relayEntry))) := by
    intro entry he
    rw [scan_spaces_append, scan_entryText (b := lineBreaks)]
    exact ((isEntry_smtpLines entry he).map (g := relayEntry)).pieces
  have hentries : scan .code (chars (indent (dedent (String.intercalate "\n"
        ((wgSmtpEntries smtpUsesTunnel smtpData).map fun entry => entry ++ ",")).toList))) =
      (.code, entryTokens ((smtpLines smtpUsesTunnel smtpData).flatten.map
        (Piece.map relayEntry))) := by
    have hends : ∀ line ∈ (smtpLines smtpUsesTunnel smtpData).map fun entry =>
        Textwrap.spaces 4 ++ entryText (entry.map (Piece.map relayEntry)),
        (scan .code line).1 = .code :=
      List.forall_mem_map.2 fun entry he => congrArg Prod.fst (hline entry he)
    rw [chars_entries, scan_lines hends, List.flatMap_map, List.map_flatten, entryTokens_flatten,
      List.flatMap_map]
    refine congrArg _ (List.flatMap_congr fun entry he => ?_)
    exact congrArg Prod.snd (hline entry he)
  have hsender : ∀ text : String, scan .code (lit text) = (.code, senderTokens smtpData.smtpSender) →
      scan .code (lit ("$wgSMTP = [\n" ++ String.ofList (indent (dedent (String.intercalate "\n"
        ((wgSmtpEntries smtpUsesTunnel smtpData).map fun entry => entry ++ ",")).toList)) ++
        "\n];\n" ++ text ++ "\n")) = (.code, (scan .code (lit "$wgSMTP = [")).2 ++
      (entryTokens ((smtpLines smtpUsesTunnel smtpData).flatten.map (Piece.map relayEntry)) ++
        ((scan .code (lit "];")).2 ++ senderTokens smtpData.smtpSender))) := by
    intro text htext
    rw [lit_append, lit_append, lit_append, lit_append, lit_ofList (indent _), List.append_assoc,
      List.append_assoc, List.append_assoc, scan_append, hhead, scan_append, hentries, scan_append,
      hclose, scan_append, htext, hnewline, List.append_nil]
  cases hsome : smtpData.smtpSender with
  | none =>
    rw [hsome] at hsender
    have htext := hsender "" rfl
    simpa only [smtpText, hsome] using htext
  | some sender =>
    rw [hsome] at hsender
    have htext := hsender _ (scan_sender sender)
    simpa only [smtpText, hsome] using htext

/-! ### Values -/

/-- The only value of the options is the name of the relay. -/
lemma value_mem_options {v : PyStr} :
    (∃ option ∈ optionPieces smtpUsesTunnel smtpData, .value v ∈ option) ↔
      showsPeerName smtpUsesTunnel smtpData = true ∧ v = lit smtpData.host := by
  have hverify : ¬ ∃ option ∈ (if smtpData.skipSslVerify then
      [[Piece.code (lit "'verify_peer' => false")], [.code (lit "'verify_peer_name' => false")]]
      else []), Piece.value v ∈ option := by
    cases smtpData.skipSslVerify with
    | true => simp
    | false => simp
  have hor : ∀ before behind : List (List Piece), (∃ option ∈ before ++ behind, .value v ∈ option) ↔
      (∃ option ∈ before, .value v ∈ option) ∨ ∃ option ∈ behind, .value v ∈ option := by
    intro before behind
    simp only [List.mem_append, or_and_right, exists_or]
  rw [optionPieces, hor, or_iff_right hverify]
  cases showsPeerName smtpUsesTunnel smtpData with
  | true => simp
  | false => simp

lemma value_mem_optionsEntry {v : PyStr} :
    (∃ entry ∈ optionsEntry (optionPieces smtpUsesTunnel smtpData), .value v ∈ entry) ↔
      showsPeerName smtpUsesTunnel smtpData = true ∧ v = lit smtpData.host := by
  rw [← value_mem_options, optionsEntry]
  split_ifs with hnone
  · rw [hnone]
  · have hsep : Piece.value v ∉ [Piece.code (lit ", ")] := by simp
    exact Iff.trans (by simp) (mem_intercalate hsep)

/-- The values of the entries. -/
lemma value_mem_iff {v : PyStr} : .value v ∈ (smtpLines smtpUsesTunnel smtpData).flatten ↔
    v = lit (wgSmtpHost smtpUsesTunnel smtpData) ∨ (∃ user ∈ smtpData.user, v = lit user) ∨
      (∃ password ∈ smtpData.password, v = lit password) ∨
      showsPeerName smtpUsesTunnel smtpData = true ∧ v = lit smtpData.host := by
  have hcomma : ∀ entry : List Piece, .value v ∈ entry ++ [.code (lit ",")] ↔ .value v ∈ entry := by
    intro entry
    simp
  have hor : ∀ before behind : List (List Piece), (∃ entry ∈ before ++ behind, .value v ∈ entry) ↔
      (∃ entry ∈ before, .value v ∈ entry) ∨ ∃ entry ∈ behind, .value v ∈ entry := by
    intro before behind
    simp only [List.mem_append, or_and_right, exists_or]
  have hoption : ∀ (code : PyStr) (text : Option String),
      (∃ entry ∈ text.elim [] fun value => [[Piece.code code, .value (lit value)]],
        .value v ∈ entry) ↔ ∃ value ∈ text, v = lit value := by
    intro code text
    cases text with
    | none => simp
    | some value => simp
  rw [smtpLines, List.mem_flatten]
  simp only [List.mem_map, exists_exists_and_eq_and, hcomma]
  rw [entryPieces, hor, hor, hor, hoption, hoption, value_mem_optionsEntry, or_assoc, or_assoc]
  simp

/-- The host that is shown has a line break only if it is that of the relay. -/
lemma free_wgSmtpHost : Free isLineBreak (lit (wgSmtpHost smtpUsesTunnel smtpData)) ↔
    (smtpUsesTunnel = false → Free isLineBreak (lit smtpData.host)) := by
  have hfree : ∀ s : String, ((lit s).all fun c => !isLineBreak c) = true →
      Free isLineBreak (lit s) := by
    intro s hs c hc
    simpa only [Bool.not_eq_true'] using List.all_eq_true.1 hs c hc
  have hscheme : ∀ host : String, Free isLineBreak (lit (if smtpData.transportSecurity = .tls then
      "ssl://" ++ host else host)) ↔ Free isLineBreak (lit host) := by
    intro host
    split_ifs
    · rw [lit_append, free_append, and_iff_right (hfree "ssl://" (by decide))]
    · exact Iff.rfl
  rw [wgSmtpHost, hscheme]
  cases smtpUsesTunnel with
  | true =>
    exact iff_of_true (hfree "127.0.0.1" (by decide)) fun h => absurd h.symm Bool.false_ne_true
  | false => exact ⟨fun h _ => h, fun h => h rfl⟩

/-- The settings have the values of the relation exactly if no value in the entries has a line
break; the sender, which is put behind them, always is that of the relation. -/
theorem tokens_smtpText_iff :
    tokens (lit (smtpText smtpUsesTunnel smtpData)) = some (settingTokens smtpUsesTunnel smtpData) ↔
      ((smtpUsesTunnel = true → smtpData.transportSecurity ≠ .none) →
        Free isLineBreak (lit smtpData.host)) ∧
      (∀ user ∈ smtpData.user, Free isLineBreak (lit user)) ∧
      ∀ password ∈ smtpData.password, Free isLineBreak (lit password) := by
  have hvalue : ∀ v, relayEntry v = v ↔ Free isLineBreak v := relay_relay_eq_self_iff (by omega)
  -- the host stands in the settings where it is shown, or as the name of the peer
  have hhost : (Free isLineBreak (lit (wgSmtpHost smtpUsesTunnel smtpData)) ∧
      (showsPeerName smtpUsesTunnel smtpData = true → Free isLineBreak (lit smtpData.host))) ↔
      ((smtpUsesTunnel = true → smtpData.transportSecurity ≠ .none) →
        Free isLineBreak (lit smtpData.host)) := by
    rw [free_wgSmtpHost, showsPeerName, Bool.and_eq_true, decide_eq_true_eq, and_imp]
    cases smtpUsesTunnel with
    | true => simp
    | false => simp
  rw [tokens_eq_some_iff, scan_smtpText, settingTokens, Prod.mk.injEq, and_iff_right rfl,
    List.append_right_inj, List.append_left_inj, entryTokens_map_eq_iff, ← hhost]
  simp only [value_mem_iff, hvalue]
  constructor
  · intro h
    exact ⟨⟨h _ (.inl rfl), fun hshows => h _ (.inr (.inr (.inr ⟨hshows, rfl⟩)))⟩,
      fun user huser => h _ (.inr (.inl ⟨user, huser, rfl⟩)),
      fun password hpassword => h _ (.inr (.inr (.inl ⟨password, hpassword, rfl⟩)))⟩
  · rintro ⟨⟨hhost, hpeer⟩, huser, hpassword⟩ v
      (rfl | ⟨user, hmem, rfl⟩ | ⟨password, hmem, rfl⟩ | ⟨hshows, rfl⟩)
    · exact hhost
    · exact huser user hmem
    · exact hpassword password hmem
    · exact hpeer hshows

end Entries

end Smtp
end MediawikiCharm
