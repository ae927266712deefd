/-
What is masked once the credentials were collected.

Each function that collects credentials registers the values of one predicate.  It raises exactly
when one of them cannot be registered, when something that is no secret cannot be read, or when a
look-up of a secret raises something else than a `ModelError`.  Only a credential in a JSON list
can contain a lone surrogate, which makes `register` raise.  What was registered stays masked,
whatever calls follow and whether or not they raise.
-/
import MediawikiCharm.LogRedaction.Sources

namespace MediawikiCharm
namespace Redactor

open Json PyText Substitution

variable {F : Type} [FiniteFloat F] (isPrintable : PyChar → Bool) (order : SetOrder) (depth : ℕ)

/-! ### What a program registers -/

/-- A session in which no value with a lone surrogate was registered. -/
def Clean (st : Session) : Prop := ((machine isPrintable).restrict EncodableCall).Reachable st

/-- The values of `P` were registered and no others; blank ones are ignored. -/
structure Added (P : PyStr → Prop) (st st' : Session) : Prop where
  clean : Clean isPrintable st'
  mem_iff : ∀ v, v ∈ st'.registered ↔ v ∈ st.registered ∨ P v ∧ strip v ≠ []
  encodable : ∀ v, P v → Encodable v

/-- A program that registers the values of `P`.  It raises unless `W` holds, and then only because
one of the values cannot be registered. -/
def Registers (W : Prop) (P : PyStr → Prop) (x : Prog Session Raised Unit) : Prop :=
  ∀ st, Clean isPrintable st → x.wp (fun _ st' => W ∧ Added isPrintable P st st')
    (fun e _ => W → (∃ e', e = .other e') ∧ ∃ v, P v ∧ ¬ Encodable v) st

variable {isPrintable order depth} {W W' : Prop} {P Q : PyStr → Prop}
  {x : Prog Session Raised Unit}

lemma Added.refl {st : Session} (h : Clean isPrintable st) :
    Added isPrintable (fun _ => False) st st :=
  ⟨h, fun v => by simp, fun v hv => hv.elim⟩

lemma Added.trans {st st' st'' : Session} (h : Added isPrintable P st st')
    (h' : Added isPrintable Q st' st'') : Added isPrintable (fun v => P v ∨ Q v) st st'' where
  clean := h'.clean
  mem_iff v := by rw [h'.mem_iff, h.mem_iff, or_assoc, or_and_right]
  encodable v hv := hv.elim (h.encodable v) (h'.encodable v)

namespace Registers

lemma congr (h : Registers isPrintable W P x) (hW : W ↔ W') (hPQ : ∀ v, P v ↔ Q v) :
    Registers isPrintable W' Q x := by
  obtain rfl : W = W' := propext hW
  obtain rfl : P = Q := funext fun v => propext (hPQ v)
  exact h

/-- Values that depend on what `W` says. -/
lemma congr_of_imp (h : Registers isPrintable W P x) (hPQ : W → ∀ v, P v ↔ Q v) :
    Registers isPrintable W Q x := by
  by_cases hW : W
  · exact h.congr Iff.rfl (hPQ hW)
  · intro st hst
    exact Prog.wp_mono (h st hst) (fun _ _ hadded => absurd hadded.1 hW) fun _ _ _ h => absurd h hW

/-- Where nothing but the values can stand in the way. -/
lemma true_iff : Registers isPrintable True P x ↔ ∀ st, Clean isPrintable st →
    x.wp (fun _ st' => Added isPrintable P st st')
      (fun e _ => (∃ e', e = .other e') ∧ ∃ v, P v ∧ ¬ Encodable v) st := by
  simp only [Registers, true_and, forall_true_left]

lemma pure : Registers isPrintable True (fun _ => False) (pure ()) :=
  fun _ hst => ⟨trivial, .refl hst⟩

lemma raise (e : Raised) (P : PyStr → Prop) : Registers isPrintable False P (throw e) :=
  fun _ _ => False.elim

lemma seq {y : Prog Session Raised Unit} (hx : Registers isPrintable W P x)
    (hy : Registers isPrintable W' Q y) :
    Registers isPrintable (W ∧ W') (fun v => P v ∨ Q v) (x >>= fun _ => y) := by
  intro st hst
  refine Prog.wp_bind.2 (Prog.wp_mono (hx st hst) (fun _ st' hadded => ?_) ?_)
  · refine Prog.wp_mono (hy st' hadded.2.clean) (fun _ _ hadded' => ?_) ?_
    · exact ⟨⟨hadded.1, hadded'.1⟩, hadded.2.trans hadded'.2⟩
    · intro e _ herror hboth
      obtain ⟨he, v, hv, hno⟩ := herror hboth.2
      exact ⟨he, v, .inr hv, hno⟩
  · intro e _ herror hboth
    obtain ⟨he, v, hv, hno⟩ := herror hboth.1
    exact ⟨he, v, .inl hv, hno⟩

/-- A call to Juju whose exception is not caught. -/
lemma call {α : Type} {r : Except JujuError α} {y : α → Prog Session Raised Unit} {V : α → Prop}
    {R : α → PyStr → Prop} (hy : ∀ a, Registers isPrintable (V a) (R a) (y a)) :
    Registers isPrintable (∃ a, r = .ok a ∧ V a) (fun v => ∃ a, r = .ok a ∧ R a v)
      (Redactor.call r >>= y) := by
  cases r with
  | error e =>
    refine (raise (.juju e) _).congr (iff_of_false id ?_) fun _ => Iff.rfl
    rintro ⟨a, ha, -⟩
    cases ha
  | ok a => exact (hy a).congr (by simp) fun v => by simp

lemma forM {α : Type} {y : α → Prog Session Raised PUnit} {V : α → Prop} {R : α → PyStr → Prop}
    (l : List α) (hy : ∀ a, Registers isPrintable (V a) (R a) (y a)) :
    Registers isPrintable (∀ a ∈ l, V a) (fun v => ∃ a ∈ l, R a v) (l.forM y) := by
  induction l with
  | nil => exact pure.congr (by simp) fun v => by simp
  | cons a l ih => exact ((hy a).seq ih).congr (by simp) fun v => by simp

lemma registerSecrets (values : List (Option PyStr)) :
    Registers isPrintable True (fun v => some v ∈ values)
      (Redactor.registerSecrets isPrintable order values) := by
  intro st hst
  cases hrun : (register isPrintable order values st.redactor).1 with
  | ok u =>
    have hx : Redactor.registerSecrets isPrintable order values st =
        (.ok (), st.step isPrintable (.register order values)) := by
      rw [Redactor.registerSecrets, hrun]
      rfl
    have hencodable : ∀ value, some value ∈ values → Encodable value :=
      encodableCall_of_returned isPrintable (c := .register order values) hrun
    unfold Prog.wp
    rw [hx]
    refine ⟨trivial, .step (l := .register order values) hst ⟨hencodable, rfl⟩, fun v => ?_,
      hencodable⟩
    rw [Session.step, Finset.mem_union, mem_nonBlank]
  | error e =>
    have hx : Redactor.registerSecrets isPrintable order values st =
        (.error (.other e), st.step isPrintable (.register order values)) := by
      rw [Redactor.registerSecrets, hrun]
      rfl
    unfold Prog.wp
    rw [hx]
    refine fun _ => ⟨⟨e, rfl⟩, ?_⟩
    by_contra hall
    have hencodable : ∀ value, some value ∈ values → Encodable value := fun v hv => by
      by_contra hno
      exact hall ⟨v, hv, hno⟩
    rw [register_run isPrintable order hencodable] at hrun
    cases hrun

lemma warning (text : PyStr) : Registers isPrintable True (fun _ => False)
    (Redactor.warning isPrintable text) := by
  intro st hst
  refine ⟨trivial, .step (l := .redact text) hst ⟨trivial, rfl⟩, fun v => ?_, fun v hv => hv.elim⟩
  simp [Session.step]

/-- A secret that cannot be read registers nothing. -/
lemma unreadable (ref : SecretRef) (e : JujuError) :
    Registers isPrintable e.IsModelError (fun _ => False)
      (Redactor.unreadable isPrintable ref (.juju e)) := by
  cases e with
  | modelError name => exact warning _
  | other name => exact raise _ _
  | secretNotFound =>
    cases ref with
    | label label => exact pure
    | id secretId =>
      intro st hst
      exact Prog.wp_ite.2 ⟨fun _ => warning _ st hst, fun _ => pure st hst⟩

/-- Reading the secret has ended in an exception of Juju, with its values registered. -/
lemma report {model : Model} {ref : SecretRef} {e : JujuError} {st st' : Session}
    (hread : readingError model ref = some e) (hadded : Added isPrintable P st st') :
    (Redactor.unreadable isPrintable ref (.juju e)).wp
      (fun _ st'' => Reported model ref ∧ Added isPrintable P st st'')
      (fun e _ => Reported model ref → (∃ e', e = .other e') ∧ ∃ v, P v ∧ ¬ Encodable v) st' := by
  have hreported : Reported model ref ↔ e.IsModelError := by
    rw [Reported, hread]
    exact ⟨fun h => h e rfl, fun h e' he' => Option.some.inj he' ▸ h⟩
  rw [hreported]
  refine Prog.wp_mono (unreadable ref e st' hadded.clean) (fun _ st'' hadded' => ?_) ?_
  · have hboth := hadded.trans hadded'.2
    exact ⟨hadded'.1, by simpa using hboth⟩
  · rintro e' _ h he
    obtain ⟨-, v, hv, -⟩ := h he
    exact hv.elim

lemma registerContent (content : Bag) (fields : List PyStr) :
    Registers isPrintable True (InContent content fields)
      (Redactor.registerSecrets isPrintable order
        (fields.map fun field => (content field).map chars)) := by
  refine (registerSecrets _).congr Iff.rfl fun v => ?_
  simp only [List.mem_map, Option.map_eq_some_iff, InContent]
  constructor
  · rintro ⟨field, hfield, l, hl, rfl⟩
    exact ⟨field, hfield, l, hl, rfl⟩
  · rintro ⟨field, hfield, l, hl, rfl⟩
    exact ⟨field, hfield, l, hl, rfl⟩

/-- The two revisions are read one after the other. -/
lemma registerSecret (model : Model) (ref : SecretRef) (fields : List PyStr) :
    Registers isPrintable (Reported model ref) (InSecret model ref fields)
      (Redactor.registerSecret isPrintable order model ref fields) := by
  -- an exception of `register`
  have hraise : ∀ {R : PyStr → Prop} {e : Raised} {st st' : Session}, (∃ e', e = .other e') →
      (∃ v, R v ∧ ¬ Encodable v) → (∀ v, R v → InSecret model ref fields v) →
      (Redactor.unreadable isPrintable ref e).wp
        (fun _ st'' => Reported model ref ∧ Added isPrintable (InSecret model ref fields) st st'')
        (fun e _ => Reported model ref →
          (∃ e', e = .other e') ∧ ∃ v, InSecret model ref fields v ∧ ¬ Encodable v) st' := by
    rintro R e st st' ⟨e', rfl⟩ ⟨v, hv, hno⟩ hR
    exact fun _ => ⟨⟨e', rfl⟩, v, hR v hv, hno⟩
  refine fun st hst => Prog.wp_tryCatch.2 (Prog.wp_bind.2 ?_)
  cases hget : model.getSecret ref with
  | error e =>
    have hread : readingError model ref = some e := by rw [readingError, hget]
    rw [inSecret_of_getSecret_error hget]
    exact report hread (.refl hst)
  | ok secret =>
    show Prog.wp ([secret.getContent, secret.peekContent].forM _) _ _ st
    refine Prog.wp_bind.2 (Prog.wp_bind.2 ?_)
    cases hfirst : secret.getContent with
    | error e =>
      have hread : readingError model ref = some e := by
        simp only [readingError, hget, hfirst]
      rw [inSecret_of_getContent_error hget hfirst]
      exact report hread (.refl hst)
    | ok tracked =>
      show Prog.wp (Redactor.registerSecrets isPrintable order _) _ _ st
      refine Prog.wp_mono (true_iff.1 (registerContent tracked fields) st hst)
        (fun _ st₁ hadded => ?_) ?_
      swap
      · rintro e st₁ ⟨he, hv⟩
        exact hraise he hv fun v h => .tracked hget hfirst h
      refine Prog.wp_bind.2 (Prog.wp_bind.2 ?_)
      cases hsecond : secret.peekContent with
      | error e =>
        have hread : readingError model ref = some e := by
          simp only [readingError, hget, hfirst, hsecond]
        rw [inSecret_of_peekContent_error hget hfirst hsecond]
        exact report hread hadded
      | ok latest =>
        have hread : readingError model ref = none := by
          simp only [readingError, hget, hfirst, hsecond]
        show Prog.wp (Redactor.registerSecrets isPrintable order _) _ _ st₁
        refine Prog.wp_mono (true_iff.1 (registerContent latest fields) st₁ hadded.clean)
          (fun _ st₂ hadded' => ⟨fun e he => ?_, ?_⟩) ?_
        · rw [hread] at he
          cases he
        · rw [inSecret_of_read hget hfirst hsecond]
          exact hadded.trans hadded'
        · rintro e st₂ ⟨he, hv⟩
          exact hraise he hv fun v h => .latest hget hfirst hsecond h

lemma registerReferenced (model : Model) (fields : List PyStr) (o : Option PyStr) :
    Registers isPrintable (ReportedAt model o)
      (fun v => ∃ secretId, o = some secretId ∧ secretId ≠ [] ∧
        InSecret model (.id secretId) fields v)
      (Redactor.registerReferenced isPrintable order model fields o) := by
  cases o with
  | none => exact pure.congr (by simp [ReportedAt]) fun v => by simp
  | some secretId =>
    intro st hst
    refine Prog.wp_ite.2 ⟨fun hne => ?_, fun hempty => ?_⟩
    · refine (registerSecret model _ fields).congr ?_ (fun v => ?_) st hst
      · simp [ReportedAt, hne]
      · simp [hne]
    · refine pure.congr ?_ (fun v => ?_) st hst
      · simp [ReportedAt, hempty]
      · simp [hempty]

lemma registerText (o : Option PyStr) : Registers isPrintable True (fun v => o = some v)
    (Redactor.registerText isPrintable order o) := by
  cases o with
  | none => exact pure.congr Iff.rfl fun v => by simp
  | some value => exact (registerSecrets _).congr Iff.rfl fun v => by simp [eq_comm]

omit [FiniteFloat F] in
lemma bind_asText {o : Option (Json F)} {value : PyStr} :
    o.bind asText = some value ↔ o = some (.str value) := by
  cases o with
  | none => simp
  | some x => cases x <;> simp [asText]

omit [FiniteFloat F] in
lemma registerFields (model : Model) (data : PyStr → Option (Json F))
    (fields references : List PyStr) :
    Registers isPrintable (ReferencesReported model data references)
      (InFields model data fields references)
      (Redactor.registerFields isPrintable order model data fields references) := by
  have hfields := forM fields fun field =>
    @registerText isPrintable order ((data field).bind asText)
  have hreferences := forM references fun reference =>
    @registerReferenced isPrintable order model fields ((data reference).bind asText)
  refine (hfields.seq hreferences).congr (by simp [ReferencesReported]) fun v => ⟨?_, ?_⟩
  · rintro (⟨field, hmem, hvalue⟩ | ⟨reference, hmem, secretId, hid, hne, hin⟩)
    · exact .field hmem (bind_asText.1 hvalue)
    · exact .referenced hmem (bind_asText.1 hid) hne hin
  · rintro (⟨hmem, hvalue⟩ | ⟨hmem, hid, hne, hin⟩)
    · exact .inl ⟨_, hmem, bind_asText.2 hvalue⟩
    · exact .inr ⟨_, hmem, _, bind_asText.2 hid, hne, hin⟩

/-- The objects of the list have the fields of the databag.  Within the limits the list is the one
that JSON says. -/
lemma registerNested (model : Model) (redaction : RelationRedaction) (text : List Char) :
    Registers isPrintable (ListReadable F depth model redaction text) (fun v => ∃ items members,
        loads (F := F) text = some (.arr items) ∧ .obj members ∈ items ∧
        InFields model (fun field => members.lookup field) redaction.fields
          redaction.references v)
      (Redactor.registerNested isPrintable order model redaction
        (loadsWithin (F := F) depth text)) := by
  have hitem : ∀ item : Json F, Registers isPrintable
      (∀ members, item = .obj members →
        ReferencesReported model (fun field => members.lookup field) redaction.references)
      (fun v => ∃ members, item = .obj members ∧ InFields model
        (fun field => members.lookup field) redaction.fields redaction.references v)
      (Redactor.registerItem isPrintable order model redaction item) := by
    intro item
    cases item with
    | obj members => exact (registerFields model _ _ _).congr (by simp) fun v => by simp
    | _ => exact pure.congr (by simp) fun v => by simp
  have hreadable : ListReadable F depth model redaction text ↔ WithinLimits F depth text ∧
      ∀ items, loads (F := F) text = some (.arr items) → ∀ members, .obj members ∈ items →
        ReferencesReported model (fun field => members.lookup field) redaction.references :=
    ⟨fun h => ⟨h.limits, h.references⟩, fun h => ⟨h.1, h.2⟩⟩
  have hagrees := @agrees_loads F _ depth text
  rw [hreadable]
  unfold WithinLimits
  generalize loadsWithin (F := F) depth text = x, loads (F := F) text = o at hagrees ⊢
  cases hagrees with
  | decode => exact (warning _).congr (by simp) fun v => by simp
  | @limit e o he =>
    cases e with
    | decode => exact absurd rfl he
    | digits => exact (raise _ _).congr (iff_of_false id fun h => he (h.1 _ rfl)) fun _ => Iff.rfl
    | recursion =>
      exact (raise _ _).congr (iff_of_false id fun h => he (h.1 _ rfl)) fun _ => Iff.rfl
  | ok value =>
    cases value with
    | arr items =>
      refine (forM items hitem).congr ?_ fun v => ⟨?_, ?_⟩
      · simp only [reduceCtorEq, false_implies, implies_true, true_and, Option.some.injEq,
          Json.arr.injEq, forall_eq']
        constructor
        · exact fun h members hmem => h _ hmem members rfl
        · rintro h _ hmem members rfl
          exact h members hmem
      · rintro ⟨_, hmem, members, rfl, hin⟩
        exact ⟨items, members, rfl, hmem, hin⟩
      · rintro ⟨items', members, hitems, hmem, hin⟩
        obtain rfl : items = items' := by simpa using hitems
        exact ⟨_, hmem, members, rfl, hin⟩
    | _ => exact pure.congr (by simp) fun v => by simp

lemma registerRelationSecrets (model : Model) (relation : Relation)
    (redaction : RelationRedaction) :
    Registers isPrintable (Readable F depth model relation redaction)
      (InRelation F model relation redaction)
      (Redactor.registerRelationSecrets F isPrintable order depth model relation redaction) := by
  unfold Redactor.registerRelationSecrets Readable
  cases hdata : relation.data with
  | none =>
    refine pure.congr (by simp) fun v => ⟨False.elim, ?_⟩
    rintro (⟨hsome, -⟩ | ⟨hsome, -⟩) <;> simp [hdata] at hsome
  | some answer =>
    have hbag := fun data : Bag => @registerFields F isPrintable order model (ofBag data)
      redaction.fields redaction.references
    cases hkey : redaction.nestedListKey with
    | none =>
      refine (call fun data => (hbag data).seq pure).congr (by simp) fun v => ⟨?_, ?_⟩
      · rintro ⟨data, rfl, hin | ⟨⟨⟩⟩⟩
        exact .databag hdata hin
      · rintro (⟨hsome, hin⟩ | ⟨-, hsome, -⟩)
        · exact ⟨_, Option.some.inj (hdata.symm.trans hsome), .inl hin⟩
        · rw [hkey] at hsome
          cases hsome
    | some key =>
      -- without the list there are no items
      have hempty : loads (F := F) ['[', ']'] = some (.arr []) := rfl
      refine (call fun data => (hbag data).seq (registerNested model redaction _)).congr (by simp)
        fun v => ⟨?_, ?_⟩
      · rintro ⟨data, rfl, hin | ⟨items, members, hloads, hmem, hin⟩⟩
        · exact .databag hdata hin
        · cases htext : data key with
          | none =>
            obtain rfl : [] = items := by simpa [htext, hempty] using hloads
            cases hmem
          | some text =>
            rw [htext] at hloads
            exact .nested hdata hkey htext hloads hmem hin
      · rintro (⟨hsome, hin⟩ | ⟨hsome, hsomeKey, htext, hloads, hmem, hin⟩)
        · exact ⟨_, Option.some.inj (hdata.symm.trans hsome), .inl hin⟩
        · obtain rfl := Option.some.inj (hsomeKey.symm.trans hkey)
          refine ⟨_, Option.some.inj (hdata.symm.trans hsome), .inr ⟨_, _, ?_, hmem, hin⟩⟩
          rw [htext]
          exact hloads

lemma seedLogSecrets (model : Model) :
    Registers isPrintable (Accessible F depth model) (Credential F model)
      (Redactor.seedLogSecrets F isPrintable order depth model) := by
  have hrelations := forM sources fun source => @call isPrintable _ (model.relations source.1) _ _ _
    fun relations => forM relations fun relation =>
      @registerRelationSecrets F _ isPrintable order depth model relation source.2
  have hsshKey := @call isPrintable _ model.sshKey _ _ _ fun secretId =>
    (@registerReferenced isPrintable order model sshKeyFields secretId).seq hrelations
  have hseed : Registers isPrintable (Accessible F depth model) _ _ :=
    ((@registerSecret isPrintable order model (.label replicaSecretLabel) replicaFields).seq
      hsshKey).congr ⟨?_, ?_⟩ fun _ => Iff.rfl
  · refine hseed.congr_of_imp fun ⟨_, ⟨secretId, hid, _⟩, _⟩ v => ⟨?_, ?_⟩
    · rintro (hin | ⟨_, hid, ⟨secretId, rfl, hne, hin⟩ |
        ⟨source, hsource, relations, hrelations, relation, hrelation, hin⟩⟩)
      · exact .replica hin
      · exact .sshKey hid hne hin
      · exact .relation hsource hrelations hrelation hin
    · rintro (hin | ⟨hid, hne, hin⟩ | ⟨hsource, hrelations, hrelation, hin⟩)
      · exact .inl hin
      · exact .inr ⟨_, hid, .inl ⟨_, rfl, hne, hin⟩⟩
      · exact .inr ⟨_, hid, .inr ⟨_, hsource, _, hrelations, _, hrelation, hin⟩⟩
  · rintro ⟨hreplica, secretId, hid, hreported, hrelations⟩
    exact ⟨hreplica, ⟨secretId, hid, hreported⟩, hrelations⟩
  · rintro ⟨hreplica, ⟨secretId, hid, hreported⟩, hrelations⟩
    exact ⟨hreplica, secretId, hid, hreported, hrelations⟩

end Registers

/-! ### What is masked afterwards -/

/-- The expression in force matches the values of `P`, and so does any that is compiled later. -/
structure Matches (P : PyStr → Prop) (st : Session) : Prop where
  compiled : Compiled st.redactor
  stored : ∀ v, P v → v ∈ st.redactor.values
  inForce : ∀ v, P v → v ∈ words st.redactor

lemma matches_of_registered {st : Session} (h : Clean isPrintable st)
    (hP : ∀ v, P v → v ∈ st.registered) : Matches P st := by
  have hinv := (inv_invariant isPrintable).reachable h
  have hstored : ∀ v, P v → v ∈ st.redactor.values := by
    intro v hv
    rw [hinv.values]
    exact Finset.mem_biUnion.2 ⟨v, hP v hv, self_mem_storedOf (hinv.encodable v (hP v hv)).1⟩
  have hwords : words st.redactor = alternatives st.redactor.values := by
    rw [words]
    cases hp : st.redactor.pattern with
    | none => rfl
    | some p => exact hinv.pattern p hp
  refine ⟨⟨?_, fun p hp => ⟨_, Finset.Subset.refl _, hinv.pattern p hp⟩⟩, hstored, fun v hv => ?_⟩
  · rw [hinv.values]
    exact nil_notMem_stored isPrintable hinv.encodable
  · rw [hwords]
    exact (Finset.mem_sort _).2 (hstored v hv)

/-- `redact` caches the expression that it would compile. -/
lemma words_redact (text : PyStr) (st : Redactor) : words (redact text st).2 = words st := by
  obtain ⟨values, pattern⟩ := st
  by_cases hv : values = ∅
  · simp [redact, Prog.bind_run, hv]
  · cases pattern with
    | none => simp [redact, Prog.bind_run, hv, words]
    | some p => simp [redact, Prog.bind_run, hv]

/-- A call keeps what is matched, also when it raises. -/
lemma matches_step {st : Session} (h : Matches P st) (c : Call) :
    Matches P (st.step isPrintable c) := by
  have hcompiled := (compiled_invariant isPrintable).step st c _ h.compiled rfl
  cases c with
  | redact text =>
    have hvalues : (redact text st.redactor).2.values = st.redactor.values :=
      frame_redact text st.redactor
    refine ⟨hcompiled, fun v hv => ?_, fun v hv => ?_⟩
    · show v ∈ (redact text st.redactor).2.values
      rw [hvalues]
      exact h.stored v hv
    · show v ∈ words (redact text st.redactor).2
      rw [words_redact]
      exact h.inForce v hv
  | register order values =>
    obtain ⟨⟨hsub, -⟩, hpattern⟩ := register_within_of isPrintable
      (adds_registerValue isPrintable order) values st.redactor
    have hstored : ∀ v, P v → v ∈ (register isPrintable order values st.redactor).2.values :=
      fun v hv => hsub (h.stored v hv)
    refine ⟨hcompiled, hstored, fun v hv => ?_⟩
    have hforce := h.inForce v hv
    show v ∈ words (register isPrintable order values st.redactor).2
    -- a call that raises keeps the expression, which matched the values before
    rw [words] at hforce ⊢
    cases hp : (register isPrintable order values st.redactor).2.pattern with
    | none => exact (Finset.mem_sort _).2 (hstored v hv)
    | some p =>
      rcases hpattern with hkept | hdropped
      · rw [← hkept, hp] at hforce
        exact hforce
      · rw [hdropped] at hp
        cases hp

lemma matches_run {st st' : Session} {calls : List Call} (h : Matches P st)
    (hrun : (machine isPrintable).Run st calls st') : Matches P st' := by
  induction hrun with
  | nil => exact h
  | cons hst _ ih =>
    obtain rfl := hst
    exact ih (matches_step h _)

/-- No value that the expression matches is left in what is not masked. -/
lemma masked_of_matches {st : Session} (h : Matches P st) (text : PyStr) :
    ∃ segs last, text = source segs last ∧
      (redact text st.redactor).1 = .ok (masked mask segs last) ∧
      ∀ v, P v → (∀ seg ∈ segs, ¬ v <:+: seg.1) ∧ ¬ v <:+: last := by
  obtain ⟨s, hs, hwords⟩ := h.compiled.words_eq
  have hnil : [] ∉ s := fun hmem => h.compiled.nil_notMem (hs hmem)
  obtain ⟨segs, last, hsource, hmasked, hll⟩ := substitute_alternatives hnil mask text
  refine ⟨segs, last, hsource.symm, ?_, fun v hv => ?_⟩
  · rw [(h.compiled.redact_run text).1, hwords, hmasked]
  · have hmem : v ∈ s := by
      have hforce := h.inForce v hv
      rw [hwords] at hforce
      exact (Finset.mem_sort _).1 hforce
    exact hll.not_infix hmem fun hempty => hnil (hempty ▸ hmem)

/-- Seeding returns exactly if the configuration and the relations can be read, no JSON list meets
a limit of the interpreter, and no credential has a lone surrogate; no secret has to be readable, as
long as a `ModelError` says so.  Then it has registered exactly the credentials that the charm has
access to, apart from blank ones.  Whatever is called afterwards, and whether or not it raises, no
text that is logged shows one of them outside what is masked. -/
theorem seeded_masked (model : Model) {st : Session} (hst : Clean isPrintable st) :
    ((seedLogSecrets F isPrintable order depth model st).1 = .ok () ↔
      Accessible F depth model ∧ ∀ v, Credential F model v → Encodable v) ∧
    ∀ st', seedLogSecrets F isPrintable order depth model st = (.ok (), st') →
      (∀ v, v ∈ st'.registered ↔ v ∈ st.registered ∨ Credential F model v ∧ strip v ≠ []) ∧
      ∀ calls st'', (machine isPrintable).Run st' calls st'' →
        ∀ text, ∃ segs last, text = source segs last ∧
          (redact text st''.redactor).1 = .ok (masked mask segs last) ∧
          ∀ v, Credential F model v → strip v ≠ [] →
            (∀ seg ∈ segs, ¬ v <:+: seg.1) ∧ ¬ v <:+: last := by
  have hseed := @Registers.seedLogSecrets F _ isPrintable order depth model st hst
  obtain ⟨hok, herror⟩ := Prog.wp_iff.1 hseed
  refine ⟨?_, fun st' hrun => ?_⟩
  · rcases hrun : seedLogSecrets F isPrintable order depth model st with ⟨e | ⟨⟩, st'⟩
    · refine iff_of_false (by simp) ?_
      rintro ⟨haccessible, hall⟩
      obtain ⟨-, v, hv, hno⟩ := herror e st' hrun haccessible
      exact hno (hall v hv)
    · obtain ⟨haccessible, hadded⟩ := hok () st' hrun
      exact iff_of_true rfl ⟨haccessible, hadded.encodable⟩
  · obtain ⟨-, hadded⟩ := hok () st' hrun
    refine ⟨hadded.mem_iff, fun calls st'' hcalls text => ?_⟩
    have hmatches : Matches (fun v => Credential F model v ∧ strip v ≠ []) st' :=
      matches_of_registered hadded.clean fun v hv => (hadded.mem_iff v).2 (.inr hv)
    obtain ⟨segs, last, hsource, hmasked, hnot⟩ :=
      masked_of_matches (matches_run hmatches hcalls) text
    exact ⟨segs, last, hsource, hmasked, fun v hv hne => hnot v ⟨hv, hne⟩⟩

/-- Only the JSON lists hold credentials that Juju did not hand out as texts. -/
lemma encodable_of_inSecret {model : Model} {ref : SecretRef} {fields : List PyStr} {v : PyStr}
    (h : InSecret model ref fields v) : Encodable v := by
  obtain ⟨_, _, -, -, ⟨_, -, l, -, rfl⟩ | ⟨_, -, _, -, l, -, rfl⟩⟩ := inSecret_iff.1 h
  · exact encodable_chars l
  · exact encodable_chars l

/-- A JSON list with one password. -/
def requestsText : List Char :=
  ['[', '{', '"', 'p', 'a', 's', 's', 'w', 'o', 'r', 'd', '"', ':', '"', 'h', 'u', 'n', 't', 'e',
    'r', '2', '"', '}', ']']

/-- A databag with a JSON list only. -/
def requestsBag : Bag := fun field => if field = lit "requests" then some requestsText else none

/-- A unit with one Valkey relation; the tracked revision of its secrets can be read and the latest
one cannot. -/
def requestsModel : Model where
  getSecret _ := .ok
    { getContent := .ok fun field => if field = lit "session" then some ['c', 'a'] else none
      peekContent := .error (.modelError (lit "ModelError")) }
  relations endpoint := .ok (if endpoint = lit "valkey" then [⟨some (.ok requestsBag)⟩] else [])
  sshKey := .ok none

/-- A call that raises. -/
def surrogateCall : Call := .register sortedOrder [some [0xd800]]

lemma not_returned_surrogateCall (st : Session) :
    ¬ Returned isAsciiPrintable st surrogateCall := by
  intro h
  have hencodable : Encodable [0xd800] :=
    encodableCall_of_returned isAsciiPrintable h _ List.mem_cons_self
  have hsurrogate := hencodable _ List.mem_cons_self
  exact absurd hsurrogate (by decide)

lemma loads_requestsText : loads (F := Empty) requestsText =
    some (.arr [.obj [(lit "password", .str (lit "hunter2"))]]) := rfl

lemma mem_requestsModel {endpoint : PyStr} {relations : List Relation} {relation : Relation}
    (h : requestsModel.relations endpoint = .ok relations) (hmem : relation ∈ relations) :
    relation.data = some (.ok requestsBag) := by
  obtain rfl := Except.ok.inj h
  split_ifs at hmem
  · rw [List.mem_singleton.1 hmem]
  · cases hmem

lemma reported_requestsModel (ref : SecretRef) : Reported requestsModel ref := by
  intro e he
  obtain rfl := Option.some.inj he
  trivial

lemma accessible_requestsModel : Accessible Empty 1000 requestsModel := by
  have hreferences : ∀ (data : PyStr → Option (Json Empty)) (references : List PyStr),
      ReferencesReported requestsModel data references :=
    fun _ _ _ _ _ _ _ => reported_requestsModel _
  refine ⟨reported_requestsModel _, ⟨none, rfl, fun _ h => by cases h⟩,
    fun source _ => ⟨_, rfl, fun relation hmem answer hanswer => ?_⟩⟩
  have hdata := mem_requestsModel rfl hmem
  refine ⟨requestsBag, Option.some.inj (hanswer.symm.trans hdata), hreferences _ _,
    fun key _ => ⟨fun e he => ?_, fun _ _ _ _ => hreferences _ _⟩⟩
  rw [requestsBag] at he
  split_ifs at he
  · cases he
  · cases he

lemma encodable_requestsModel {v : PyStr} (h : Credential Empty requestsModel v) :
    Encodable v := by
  have hbag : ∀ {data : Bag} {field v : PyStr}, ofBag (F := Empty) data field = some (.str v) →
      Encodable v := by
    intro data field v hv
    obtain ⟨text, -, htext⟩ := Option.map_eq_some_iff.1 hv
    obtain rfl := Json.str.inj htext
    exact encodable_chars text
  cases h with
  | replica h => exact encodable_of_inSecret h
  | sshKey hid => cases hid
  | relation _ hrelations hrelation hin =>
    cases hin with
    | databag _ hin =>
      cases hin with
      | field _ hv => exact hbag hv
      | referenced _ _ _ hin => exact encodable_of_inSecret hin
    | nested hsome _ htext hloads hmem hin =>
      have hdata := mem_requestsModel hrelations hrelation
      obtain rfl := Except.ok.inj (Option.some.inj (hsome.symm.trans hdata))
      rw [requestsBag] at htext
      split_ifs at htext
      obtain rfl := Option.some.inj htext
      obtain rfl := Json.arr.inj (Option.some.inj (loads_requestsText.symm.trans hloads))
      obtain rfl := Json.obj.inj (List.mem_singleton.1 hmem)
      cases hin with
      | referenced _ _ _ hin => exact encodable_of_inSecret hin
      | @field field _ _ hv =>
        have hlookup : [(lit "password", Json.str (lit "hunter2"))].lookup field =
            some (.str v : Json Empty) := hv
        rw [List.lookup_cons] at hlookup
        split at hlookup
        · obtain rfl := Json.str.inj (Option.some.inj hlookup)
          exact encodable_chars _
        · cases hlookup

theorem seeded_masked_requests :
    ∃ st', seedLogSecrets Empty isAsciiPrintable sortedOrder 1000 requestsModel {} = (.ok (), st') ∧
      lit "ca" ∈ st'.registered ∧ lit "hunter2" ∈ st'.registered ∧
      ¬ Returned isAsciiPrintable st' surrogateCall ∧
      ∀ text, ∃ segs last, text = source segs last ∧
        (redact text (st'.step isAsciiPrintable surrogateCall).redactor).1 =
          .ok (masked mask segs last) ∧
        (∀ seg ∈ segs, ¬ lit "hunter2" <:+: seg.1) ∧ ¬ lit "hunter2" <:+: last := by
  obtain ⟨hreturns, hseeded⟩ :=
    @seeded_masked Empty _ isAsciiPrintable sortedOrder 1000 requestsModel {} (.init rfl)
  have hok := hreturns.2 ⟨accessible_requestsModel, fun v hv => encodable_requestsModel hv⟩
  obtain ⟨hmem, hmasked⟩ := hseeded _ (Prod.ext hok rfl)
  have hsession : Credential Empty requestsModel (lit "ca") :=
    .replica (.tracked rfl rfl
      ⟨lit "session", by simp [replicaFields], ['c', 'a'], if_pos rfl, rfl⟩)
  have hpassword : Credential Empty requestsModel (lit "hunter2") := by
    have hsource : (lit "valkey", valkeyRedaction) ∈ sources := by simp [sources]
    have hfield : lit "password" ∈ valkeyRedaction.fields := List.mem_cons_self
    exact .relation hsource rfl List.mem_cons_self
      (.nested rfl rfl (if_pos rfl) loads_requestsText List.mem_cons_self (.field hfield rfl))
  refine ⟨_, Prod.ext hok rfl, (hmem _).2 (.inr ⟨hsession, by decide⟩),
    (hmem _).2 (.inr ⟨hpassword, by decide⟩), not_returned_surrogateCall _, fun text => ?_⟩
  obtain ⟨segs, last, hsource, hredacted, hnot⟩ :=
    hmasked [surrogateCall] _ (.cons rfl (.nil _)) text
  exact ⟨segs, last, hsource, hredacted, hnot _ hpassword (by decide)⟩

end Redactor
end MediawikiCharm
