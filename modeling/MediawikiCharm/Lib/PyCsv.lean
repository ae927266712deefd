/-
`csv.reader` of Python.

The reader has a comma as delimiter and the double quote as quote character, which is written twice
in a quoted field.  Spaces at the start of a field are skipped, and the reader is strict.  The text
is read line by line, with an end of line behind each; a newline in quotes belongs to the field.
-/
import MediawikiCharm.Lib.PyText

namespace PyCsv

open PyText

/-! ### The reader -/

/-- `state` -/
inductive State
  | startRecord
  | startField
  | inField
  | inQuotedField
  | quoteInQuotedField
  | eatCrnl
deriving DecidableEq

/-- A reader in a record: the field so far and the fields before it. -/
structure Reader where
  state : State := .startRecord
  field : PyStr := []
  fields : List PyStr := []
deriving DecidableEq

/-- `csv.field_size_limit()` -/
def fieldLimit : ℕ := 131072

/-- `csv.Error` -/
inductive CsvError
  | fieldTooLarge
  | delimiterExpected
  | newlineInField
  | unexpectedEnd
deriving DecidableEq

namespace Reader

variable (r : Reader)

/-- `parse_add_char`, and the next state. -/
def addChar (c : PyChar) (state : State) : Except CsvError Reader :=
  if fieldLimit ≤ r.field.length then .error .fieldTooLarge
  else .ok { r with field := r.field ++ [c], state := state }

/-- `parse_save_field`, and the next state. -/
def saveField (state : State) : Reader :=
  { state := state, field := [], fields := r.fields ++ [r.field] }

def isNewline (c : PyChar) : Bool := c = ofChar '\n' || c = ofChar '\r'

/-- `parse_process_char` in the state `START_FIELD`. -/
def startField (c : PyChar) : Except CsvError Reader :=
  if isNewline c then .ok (r.saveField .eatCrnl)
  else if c = ofChar '"' then .ok { r with state := .inQuotedField }
  else if c = ofChar ' ' then .ok { r with state := .startField }
  else if c = ofChar ',' then .ok (r.saveField .startField)
  else r.addChar c .inField

/-- `parse_process_char` of a character. -/
def processChar (c : PyChar) : Except CsvError Reader :=
  match r.state with
  | .startRecord => if isNewline c then .ok { r with state := .eatCrnl } else r.startField c
  | .startField => r.startField c
  | .inField =>
    if isNewline c then .ok (r.saveField .eatCrnl)
    else if c = ofChar ',' then .ok (r.saveField .startField)
    else r.addChar c .inField
  | .inQuotedField =>
    if c = ofChar '"' then .ok { r with state := .quoteInQuotedField }
    else r.addChar c .inQuotedField
  | .quoteInQuotedField =>
    if c = ofChar '"' then r.addChar c .inQuotedField
    else if c = ofChar ',' then .ok (r.saveField .startField)
    else if isNewline c then .ok (r.saveField .eatCrnl)
    else .error .delimiterExpected
  | .eatCrnl => if isNewline c then .ok r else .error .newlineInField

/-- `parse_process_char` of the end of a line. -/
def processEol : Reader :=
  match r.state with
  | .startRecord | .inQuotedField => r
  | .startField | .inField | .quoteInQuotedField => r.saveField .startRecord
  | .eatCrnl => { r with state := .startRecord }

/-- The records of the rest of a text.  `midLine` says whether a line has begun. -/
def readRest : Reader → Bool → PyStr → Except CsvError (List (List PyStr))
  | r, midLine, [] =>
    let r := if midLine then r.processEol else r
    -- a record that has begun ends with its last line, unless a quote is open
    if midLine && r.state = .startRecord then .ok [r.fields]
    else if r.field ≠ [] ∨ r.state = .inQuotedField then .error .unexpectedEnd
    else .ok []
  | r, _, c :: s => do
    let r ← r.processChar c
    if c = ofChar '\n' then
      let r := r.processEol
      if r.state = .startRecord then
        let records ← readRest {} false s
        pure (r.fields :: records)
      else readRest r false s
    else readRest r true s

end Reader

/-- `list(csv.reader(io.StringIO(text), skipinitialspace=True, strict=True))` -/
def reader (text : PyStr) : Except CsvError (List (List PyStr)) := Reader.readRest {} false text

/-! ### Quoted fields -/

/-- A field in quotes. -/
def quoteField (field : PyStr) : PyStr :=
  ofChar '"' :: field.flatMap (fun c => if c = ofChar '"' then [c, c] else [c]) ++ [ofChar '"']

namespace Reader

variable {r : Reader} {mid : Bool} {t : PyStr}

lemma quote_ne_newline : ofChar '"' ≠ ofChar '\n' := by decide

lemma comma_ne_newline : ofChar ',' ≠ ofChar '\n' := by decide

/-- A character that is not the end of a line. -/
lemma readRest_cons {c : PyChar} {r' : Reader} (hc : c ≠ ofChar '\n')
    (h : r.processChar c = .ok r') : readRest r mid (c :: t) = readRest r' true t := by
  rw [readRest, h]
  exact if_neg hc

/-- In quotes a newline is a character as any other. -/
lemma readRest_newline {r' : Reader} (h : r.processChar (ofChar '\n') = .ok r')
    (hstate : r'.state = .inQuotedField) :
    readRest r mid (ofChar '\n' :: t) = readRest r' false t := by
  have heol : r'.processEol = r' := by rw [processEol, hstate]
  rw [readRest, h]
  simp only [bind, Except.bind, if_true, heol, hstate, reduceCtorEq, if_false]

lemma addChar_eq {c : PyChar} {state : State} (h : r.field.length < fieldLimit) :
    r.addChar c state = .ok { r with field := r.field ++ [c], state := state } :=
  if_neg (Nat.not_le.2 h)

/-- What stands in quotes joins the field. -/
lemma readRest_quoted {g field : PyStr} {fields : List PyStr}
    (hlength : field.length + g.length ≤ fieldLimit) :
    readRest ⟨.inQuotedField, field, fields⟩ mid
        (g.flatMap (fun c => if c = ofChar '"' then [c, c] else [c]) ++ ofChar '"' :: t) =
      readRest ⟨.quoteInQuotedField, field ++ g, fields⟩ true t := by
  induction g generalizing field mid with
  | nil =>
    have hprocess : processChar ⟨.inQuotedField, field, fields⟩ (ofChar '"') =
        .ok ⟨.quoteInQuotedField, field, fields⟩ := rfl
    rw [List.append_nil]
    exact readRest_cons quote_ne_newline hprocess
  | cons c g ih =>
    rw [List.length_cons] at hlength
    have hadd : ∀ state : State, addChar ⟨state, field, fields⟩ c .inQuotedField =
        .ok ⟨.inQuotedField, field ++ [c], fields⟩ := fun state =>
      addChar_eq (r := ⟨state, field, fields⟩) (by show field.length < _; omega)
    have hrest : ∀ mid, readRest ⟨.inQuotedField, field ++ [c], fields⟩ mid
        (g.flatMap (fun c => if c = ofChar '"' then [c, c] else [c]) ++ ofChar '"' :: t) =
          readRest ⟨.quoteInQuotedField, field ++ c :: g, fields⟩ true t := by
      intro mid
      rw [ih (by rw [List.length_append, List.length_singleton]; omega), List.append_assoc]
      rfl
    rw [List.flatMap_cons, List.append_assoc]
    split_ifs with hc
    · -- the first quote may be the last one, and the second one shows that it is not
      have hne : c ≠ ofChar '\n' := hc ▸ quote_ne_newline
      have hfirst : processChar ⟨.inQuotedField, field, fields⟩ c =
          .ok ⟨.quoteInQuotedField, field, fields⟩ := if_pos hc
      have hsecond : processChar ⟨.quoteInQuotedField, field, fields⟩ c =
          .ok ⟨.inQuotedField, field ++ [c], fields⟩ := (if_pos hc).trans (hadd _)
      rw [List.cons_append, List.singleton_append]
      exact (readRest_cons hne hfirst).trans ((readRest_cons hne hsecond).trans (hrest true))
    · rw [List.singleton_append]
      have hprocess : processChar ⟨.inQuotedField, field, fields⟩ c =
          .ok ⟨.inQuotedField, field ++ [c], fields⟩ := (if_neg hc).trans (hadd _)
      by_cases hnewline : c = ofChar '\n'
      · subst hnewline
        exact (readRest_newline hprocess rfl).trans (hrest false)
      · exact (readRest_cons hnewline hprocess).trans (hrest true)

/-- Where a field may begin. -/
def Begins (state : State) : Prop := state = .startRecord ∨ state = .startField

lemma readRest_quoteField {state : State} (hstate : Begins state) {field : PyStr}
    {fields : List PyStr} (hlength : field.length ≤ fieldLimit) :
    readRest ⟨state, [], fields⟩ mid (quoteField field ++ t) =
      readRest ⟨.quoteInQuotedField, field, fields⟩ true t := by
  have hopen : processChar ⟨state, [], fields⟩ (ofChar '"') =
      .ok ⟨.inQuotedField, [], fields⟩ := by
    rcases hstate with rfl | rfl
    · rfl
    · rfl
  have hquoted : ([] : PyStr).length + field.length ≤ fieldLimit := by
    rw [List.length_nil, Nat.zero_add]
    exact hlength
  rw [quoteField, List.append_assoc, List.cons_append, List.singleton_append]
  exact (readRest_cons quote_ne_newline hopen).trans (readRest_quoted hquoted)

/-- Quoted fields with commas between them are one record. -/
lemma readRest_quoteFields {state : State} (hstate : Begins state) {field : PyStr}
    {more fields : List PyStr} (hlength : ∀ f ∈ field :: more, f.length ≤ fieldLimit) :
    readRest ⟨state, [], fields⟩ mid ([ofChar ','].intercalate ((field :: more).map quoteField)) =
      .ok [fields ++ field :: more] := by
  induction more generalizing state field fields mid with
  | nil =>
    rw [List.map_singleton, List.intercalate_singleton, ← List.append_nil (quoteField field),
      readRest_quoteField hstate (hlength field List.mem_cons_self)]
    rfl
  | cons next more ih =>
    obtain ⟨hfield, hmore⟩ := List.forall_mem_cons.1 hlength
    have hjoin : [ofChar ','].intercalate ((field :: next :: more).map quoteField) =
        quoteField field ++ ofChar ',' :: [ofChar ','].intercalate
          ((next :: more).map quoteField) := rfl
    have hcomma : processChar ⟨.quoteInQuotedField, field, fields⟩ (ofChar ',') =
        .ok ⟨.startField, [], fields ++ [field]⟩ := rfl
    rw [hjoin, readRest_quoteField hstate hfield, readRest_cons comma_ne_newline hcomma,
      ih (.inr rfl) hmore, List.append_assoc]
    rfl

/-! ### Plain fields -/

/-- A text without quotes and newlines. -/
def IsPlain (s : PyStr) : Prop := ∀ c ∈ s, c ≠ ofChar '"' ∧ isNewline c = false

def skipSpaces (s : PyStr) : PyStr := s.dropWhile fun c => c = ofChar ' '

/-- The only record of a text, unless one of its fields is too large. -/
def recordOf (fields : List PyStr) : Except CsvError (List (List PyStr)) :=
  if ∀ field ∈ fields, field.length ≤ fieldLimit then .ok [fields] else .error .fieldTooLarge

lemma recordOf_of_lt {fields : List PyStr} {field : PyStr} (hmem : field ∈ fields)
    (h : fieldLimit < field.length) : recordOf fields = .error .fieldTooLarge :=
  if_neg fun hall => absurd (hall field hmem) (Nat.not_le.2 h)

lemma readRest_error {c : PyChar} {e : CsvError} (h : r.processChar c = .error e) :
    readRest r mid (c :: t) = .error e := by
  rw [readRest, h]
  rfl

/-- The fields of a plain text are what stands between its commas. -/
lemma readRest_plain {s : PyStr} (hs : IsPlain s) {first : PyStr} {more : List PyStr}
    (hsplit : s.splitOn (ofChar ',') = first :: more) {fields : List PyStr}
    (hfields : ∀ field ∈ fields, field.length ≤ fieldLimit) :
    (∀ field : PyStr, field.length ≤ fieldLimit → readRest ⟨.inField, field, fields⟩ true s =
      recordOf (fields ++ (field ++ first) :: more.map skipSpaces)) ∧
    readRest ⟨.startField, [], fields⟩ true s =
      recordOf (fields ++ (first :: more).map skipSpaces) := by
  have hclosed : ∀ field : PyStr, field.length ≤ fieldLimit →
      ∀ f ∈ fields ++ [field], f.length ≤ fieldLimit := fun field hfield =>
    List.forall_mem_append.2 ⟨hfields, List.forall_mem_singleton.2 hfield⟩
  induction s generalizing first more fields with
  | nil =>
    obtain ⟨hfirst, rfl⟩ := List.cons.inj hsplit
    obtain rfl : [] = first := hfirst
    refine ⟨fun field hfield => ?_, ?_⟩
    · rw [List.append_nil]
      exact (if_pos (hclosed field hfield)).symm
    · exact (if_pos (hclosed [] (Nat.zero_le _))).symm
  | cons c s ih =>
    obtain ⟨⟨hquote, hnewline⟩, hrestPlain⟩ := List.forall_mem_cons.1 hs
    have hne : c ≠ ofChar '\n' := by
      rintro rfl
      cases hnewline
    obtain ⟨first', more', hrest⟩ := List.exists_cons_of_ne_nil (List.splitOn_ne_nil (ofChar ',') s)
    rw [List.splitOn_cons_eq_if_modifyHead, hrest] at hsplit
    split_ifs at hsplit with hcomma
    · -- the comma ends the field
      obtain ⟨rfl, rfl⟩ := List.cons.inj hsplit
      obtain rfl : c = ofChar ',' := by simpa using hcomma
      have hnext : ∀ {state field}, field.length ≤ fieldLimit →
          processChar ⟨state, field, fields⟩ (ofChar ',') =
            .ok ⟨.startField, [], fields ++ [field]⟩ →
          readRest ⟨state, field, fields⟩ true (ofChar ',' :: s) =
            recordOf (fields ++ field :: (first' :: more').map skipSpaces) := by
        intro state field hfield hprocess
        have hall := hclosed field hfield
        rw [readRest_cons hne hprocess, (ih hrestPlain hrest hall fun g hg =>
          List.forall_mem_append.2 ⟨hall, List.forall_mem_singleton.2 hg⟩).2, List.append_assoc]
        rfl
      refine ⟨fun field hfield => ?_, hnext (Nat.zero_le _) rfl⟩
      rw [List.append_nil]
      exact hnext hfield rfl
    · obtain ⟨rfl, rfl⟩ := List.cons.inj hsplit
      have hcomma : c ≠ ofChar ',' := by simpa using hcomma
      obtain ⟨ihField, ihStart⟩ := ih hrestPlain hrest hfields hclosed
      have hinField : ∀ field : PyStr, field.length ≤ fieldLimit →
          readRest ⟨.inField, field, fields⟩ true (c :: s) =
            recordOf (fields ++ (field ++ c :: first') :: more'.map skipSpaces) := by
        intro field hfield
        have hprocess : processChar ⟨.inField, field, fields⟩ c =
            addChar ⟨.inField, field, fields⟩ c .inField := by
          rw [processChar]
          simp only [hnewline, hcomma, Bool.false_eq_true, if_false]
        rcases Nat.lt_or_ge field.length fieldLimit with hlt | hfull
        · have hadd := @addChar_eq ⟨.inField, field, fields⟩ c .inField hlt
          rw [readRest_cons hne (hprocess.trans hadd), ihField (field ++ [c]) (by
            rw [List.length_append, List.length_singleton]; omega), List.append_assoc]
          rfl
        · have hadd : addChar ⟨.inField, field, fields⟩ c .inField = .error .fieldTooLarge :=
            if_pos hfull
          have hmem : field ++ c :: first' ∈
              fields ++ (field ++ c :: first') :: more'.map skipSpaces :=
            List.mem_append_right _ List.mem_cons_self
          rw [readRest_error (hprocess.trans hadd), recordOf_of_lt hmem]
          rw [List.length_append, List.length_cons]
          omega
      refine ⟨hinField, ?_⟩
      by_cases hspace : c = ofChar ' '
      · subst hspace
        have hprocess : processChar ⟨.startField, [], fields⟩ (ofChar ' ') =
            .ok ⟨.startField, [], fields⟩ := rfl
        rw [readRest_cons hne hprocess, ihStart]
        rfl
      · -- a field begins as if it had begun before
        have hprocess : processChar ⟨.startField, [], fields⟩ c =
            processChar ⟨.inField, [], fields⟩ c := by
          rw [processChar, startField, processChar]
          simp only [hnewline, hquote, hspace, hcomma, Bool.false_eq_true, if_false]
          rfl
        have hskip : skipSpaces (c :: first') = c :: first' :=
          List.dropWhile_cons_of_neg (by simpa using hspace)
        have hstart : readRest ⟨.startField, [], fields⟩ true (c :: s) =
            readRest ⟨.inField, [], fields⟩ true (c :: s) := by
          rw [readRest, readRest, hprocess]
        rw [hstart, hinField [] (Nat.zero_le _), List.map_cons, hskip]
        rfl

/-! ### The limit of a field -/

/-- No field is longer than the limit. -/
structure Bounded (r : Reader) : Prop where
  field : r.field.length ≤ fieldLimit
  fields : ∀ f ∈ r.fields, f.length ≤ fieldLimit

lemma bounded_saveField (h : Bounded r) (state : State) : Bounded (r.saveField state) :=
  ⟨Nat.zero_le _, List.forall_mem_append.2 ⟨h.fields, List.forall_mem_singleton.2 h.field⟩⟩

lemma bounded_addChar (h : Bounded r) {c : PyChar} {state : State} {r' : Reader}
    (hr : r.addChar c state = .ok r') : Bounded r' := by
  rw [addChar] at hr
  split_ifs at hr with hfull
  obtain rfl := Except.ok.inj hr
  refine ⟨?_, h.fields⟩
  rw [List.length_append, List.length_singleton]
  omega

lemma bounded_startField (h : Bounded r) {c : PyChar} {r' : Reader}
    (hr : r.startField c = .ok r') : Bounded r' := by
  rw [startField] at hr
  split_ifs at hr
  · exact Except.ok.inj hr ▸ bounded_saveField h _
  · exact Except.ok.inj hr ▸ ⟨h.field, h.fields⟩
  · exact Except.ok.inj hr ▸ ⟨h.field, h.fields⟩
  · exact Except.ok.inj hr ▸ bounded_saveField h _
  · exact bounded_addChar h hr

lemma bounded_processChar (h : Bounded r) {c : PyChar} {r' : Reader}
    (hr : r.processChar c = .ok r') : Bounded r' := by
  rw [processChar] at hr
  cases hstate : r.state with
  | startRecord =>
    rw [hstate] at hr
    dsimp only at hr
    split_ifs at hr
    · exact Except.ok.inj hr ▸ ⟨h.field, h.fields⟩
    · exact bounded_startField h hr
  | startField =>
    rw [hstate] at hr
    exact bounded_startField h hr
  | inField =>
    rw [hstate] at hr
    dsimp only at hr
    split_ifs at hr
    · exact Except.ok.inj hr ▸ bounded_saveField h _
    · exact Except.ok.inj hr ▸ bounded_saveField h _
    · exact bounded_addChar h hr
  | inQuotedField =>
    rw [hstate] at hr
    dsimp only at hr
    split_ifs at hr
    · exact Except.ok.inj hr ▸ ⟨h.field, h.fields⟩
    · exact bounded_addChar h hr
  | quoteInQuotedField =>
    rw [hstate] at hr
    dsimp only at hr
    split_ifs at hr
    · exact bounded_addChar h hr
    · exact Except.ok.inj hr ▸ bounded_saveField h _
    · exact Except.ok.inj hr ▸ bounded_saveField h _
  | eatCrnl =>
    rw [hstate] at hr
    dsimp only at hr
    split_ifs at hr
    exact Except.ok.inj hr ▸ h

lemma bounded_processEol (h : Bounded r) : Bounded r.processEol := by
  rw [processEol]
  cases r.state with
  | startRecord | inQuotedField => exact h
  | startField | inField | quoteInQuotedField => exact bounded_saveField h _
  | eatCrnl => exact ⟨h.field, h.fields⟩

lemma length_le_of_readRest {s : PyStr} {records : List (List PyStr)} (h : Bounded r)
    (hs : readRest r mid s = .ok records) :
    ∀ record ∈ records, ∀ f ∈ record, f.length ≤ fieldLimit := by
  induction s generalizing r mid records with
  | nil =>
    have hline : Bounded (if mid then r.processEol else r) := by
      split_ifs
      · exact bounded_processEol h
      · exact h
    generalize hr₀ : (if mid then r.processEol else r) = r₀ at hline
    have hlast : (if mid && r₀.state = .startRecord then .ok [r₀.fields]
        else if r₀.field ≠ [] ∨ r₀.state = .inQuotedField then .error .unexpectedEnd
        else .ok []) = (Except.ok records : Except CsvError _) := by
      rw [← hs, ← hr₀]
      rfl
    split_ifs at hlast
    · exact Except.ok.inj hlast ▸ List.forall_mem_singleton.2 hline.fields
    · exact Except.ok.inj hlast ▸ fun _ h => absurd h List.not_mem_nil
  | cons c s ih =>
    cases hc : r.processChar c with
    | error e =>
      rw [readRest, hc] at hs
      cases hs
    | ok r' =>
      have hr' := bounded_processChar h hc
      rw [readRest, hc] at hs
      simp only [bind, Except.bind] at hs
      split_ifs at hs with hnewline hrecord
      · cases hrest : readRest {} false s with
        | error e =>
          rw [hrest] at hs
          cases hs
        | ok rest =>
          rw [hrest] at hs
          obtain rfl := Except.ok.inj hs
          exact List.forall_mem_cons.2 ⟨(bounded_processEol hr').fields,
            ih ⟨Nat.zero_le _, fun _ hf => absurd hf List.not_mem_nil⟩ hrest⟩
      · exact ih (bounded_processEol hr') hs
      · exact ih hr' hs

end Reader

/-- Quoted fields are read back. -/
theorem reader_quoteFields {fields : List PyStr} (hne : fields ≠ [])
    (hlength : ∀ field ∈ fields, field.length ≤ fieldLimit) :
    reader ([ofChar ','].intercalate (fields.map quoteField)) = .ok [fields] := by
  obtain ⟨field, more, rfl⟩ := List.exists_cons_of_ne_nil hne
  exact Reader.readRest_quoteFields (.inl rfl) hlength

/-- A plain text is split at its commas. -/
theorem reader_plain {s : PyStr} (hs : Reader.IsPlain s) (hne : s ≠ []) :
    reader s = Reader.recordOf ((s.splitOn (ofChar ',')).map Reader.skipSpaces) := by
  obtain ⟨c, t, rfl⟩ := List.exists_cons_of_ne_nil hne
  obtain ⟨first, more, hsplit⟩ :=
    List.exists_cons_of_ne_nil (List.splitOn_ne_nil (ofChar ',') (c :: t))
  have hstart : reader (c :: t) = Reader.readRest ⟨.startField, [], []⟩ true (c :: t) := by
    have hnewline : Reader.isNewline c = false := (hs c List.mem_cons_self).2
    have hprocess : Reader.processChar {} c = Reader.processChar ⟨.startField, [], []⟩ c :=
      if_neg (by rw [hnewline]; exact Bool.false_ne_true)
    rw [reader, Reader.readRest, Reader.readRest, hprocess]
  rw [hstart, (Reader.readRest_plain hs hsplit fun _ hf => absurd hf List.not_mem_nil).2, hsplit]
  rfl

/-- No field is longer than the limit. -/
theorem length_le_of_reader {s : PyStr} {records : List (List PyStr)} (h : reader s = .ok records) :
    ∀ record ∈ records, ∀ f ∈ record, f.length ≤ fieldLimit :=
  Reader.length_le_of_readRest ⟨Nat.zero_le _, fun _ hf => absurd hf List.not_mem_nil⟩ h

end PyCsv
