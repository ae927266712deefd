/-
Masking of registered credentials (`log_redaction.py`).

A redactor holds the renderings of the registered values and caches the expression that
matches them.  `register` drops the cached expression when the number of renderings has
changed, and does so only when it returns: a value that UTF-8 cannot encode makes it raise
after the values before it were stored, and the cached expression then misses them.
-/
import MediawikiCharm.Exceptions
import MediawikiCharm.Lib.Machine
import MediawikiCharm.Lib.Program
import MediawikiCharm.Lib.PyText
import MediawikiCharm.Lib.Substitution
import Mathlib.Data.Finset.Union

namespace MediawikiCharm

open PyText Substitution

/-- `escape_php_string` -/
def escapePhpString (s : PyStr) : PyStr :=
  (s.flatMap fun c => if c = ofChar '\\' then lit "\\\\" else [c]).flatMap fun c =>
    if c = ofChar '\'' then lit "\\'" else [c]

/-- The order in which a set of texts is iterated over. -/
structure SetOrder where
  list : Finset PyStr → List PyStr
  mem_list : ∀ s a, a ∈ list s ↔ a ∈ s

/-- `SecretRedactor` -/
structure Redactor where
  values : Finset PyStr := ∅
  /-- The alternatives of the cached expression. -/
  pattern : Option (List PyStr) := none

namespace Redactor

variable (isPrintable : PyChar → Bool)

/-- The lines of a private key without their delimiters. -/
def payloadLines (value : PyStr) : List PyStr :=
  ((splitlines value).filter fun line => strip line ≠ [] ∧ ¬ startsWith (lit "-----") line).map
    strip

/-- The variants of a registered value. -/
def variants (value : PyStr) : Finset PyStr :=
  if contains (lit "PRIVATE KEY-----") value then insert value (payloadLines value).toFinset
  else {value}

/-- What is stored for a variant whose encoding is `b`. -/
def renderings (variant : PyStr) (b : List UInt8) : Finset PyStr :=
  {variant, inner 1 (PyText.repr isPrintable variant), inner 2 (bytesRepr b),
    inner 1 (jsonString variant), escapePhpString variant}

/-- Store the renderings of a variant. -/
def registerVariant (variant : PyStr) : Prog (Finset PyStr) Exc Unit :=
  match encode variant with
  | some b => Prog.modify fun values => values ∪ renderings isPrintable variant b
  | none => throw (.other "surrogates not allowed")

/-- Register one value; blank values are ignored. -/
def registerValue (order : SetOrder) : Option PyStr → Prog (Finset PyStr) Exc Unit
  | none => pure ()
  | some value =>
    if strip value = [] then pure ()
    else (order.list (variants value)).forM (registerVariant isPrintable)

/-- `register` -/
def register (order : SetOrder) (values : List (Option PyStr)) : Prog Redactor Exc Unit := do
  let previous ← Prog.get
  Prog.zoom Redactor.values (fun v s => { s with values := v })
    (values.forM (registerValue isPrintable order))
  let st ← Prog.get
  if st.values.card ≠ previous.values.card then
    Prog.modify fun s => { s with pattern := none }

/-- `[REDACTED]` -/
def mask : PyStr := lit "[REDACTED]"

/-- `redact` -/
def redact (text : PyStr) : Prog Redactor Exc PyStr := do
  let st ← Prog.get
  if st.values = ∅ then pure text
  else
    match st.pattern with
    | some p => pure (substitute p mask text)
    | none =>
      let p := alternatives st.values
      Prog.modify fun s => { s with pattern := some p }
      pure (substitute p mask text)

/-! ### What `register` stores -/

/-- The value can be encoded. -/
def Encodable (value : PyStr) : Prop := ∀ c ∈ value, isSurrogate c = false

/-- The renderings of a variant that can be encoded. -/
def renderingsOf (w : PyStr) : Finset PyStr :=
  ((encode w).map (renderings isPrintable w)).getD ∅

/-- The renderings of the variants of a value. -/
def storedOf (value : PyStr) : Finset PyStr := (variants value).biUnion (renderingsOf isPrintable)

/-- The renderings of the variants of a set of values. -/
def stored (registered : Finset PyStr) : Finset PyStr :=
  registered.biUnion (storedOf isPrintable)

/-- The values among the arguments of `register` that are not blank. -/
def nonBlank (values : List (Option PyStr)) : Finset PyStr :=
  ((values.filterMap id).filter fun value => strip value ≠ []).toFinset

@[simp] lemma mem_nonBlank {value : PyStr} {values : List (Option PyStr)} :
    value ∈ nonBlank values ↔ some value ∈ values ∧ strip value ≠ [] := by
  simp [nonBlank]

lemma mem_payloadLines {value w : PyStr} (h : w ∈ payloadLines value) :
    w ≠ [] ∧ ∀ c ∈ w, c ∈ value := by
  obtain ⟨line, hline, rfl⟩ := List.mem_map.1 h
  obtain ⟨hmem, hkeep⟩ := List.mem_filter.1 hline
  refine ⟨by simpa using (of_decide_eq_true hkeep).1, fun c hc => ?_⟩
  exact mem_of_mem_splitlines hmem (mem_of_mem_strip hc)

lemma mem_variants {value w : PyStr} (h : w ∈ variants value) (hne : value ≠ []) :
    w ≠ [] ∧ ∀ c ∈ w, c ∈ value := by
  have hself : value ≠ [] ∧ ∀ c ∈ value, c ∈ value := ⟨hne, fun _ hc => hc⟩
  unfold variants at h
  split_ifs at h
  · rcases Finset.mem_insert.1 h with rfl | h
    · exact hself
    · exact mem_payloadLines (List.mem_toFinset.1 h)
  · obtain rfl := Finset.mem_singleton.1 h
    exact hself

lemma encode_isSome {value w : PyStr} (hv : Encodable value) (hw : ∀ c ∈ w, c ∈ value) :
    ∃ b, encode w = some b := by
  refine ⟨w.flatMap encodeChar, if_neg ?_⟩
  intro h
  obtain ⟨c, hc, hs⟩ := List.any_eq_true.1 h
  exact absurd ((hv c (hw c hc)).symm.trans hs) (by simp)

lemma escapePhpString_ne_nil {s : PyStr} (hs : s ≠ []) : escapePhpString s ≠ [] := by
  refine flatMap_ne_nil (fun c => ?_) (flatMap_ne_nil (fun c => ?_) hs)
  · split_ifs <;> simp [lit]
  · split_ifs <;> simp [lit]

/-- No rendering of a variant is empty, so the expression never matches the empty text. -/
lemma nil_notMem_renderings {w : PyStr} {b : List UInt8} (hw : w ≠ []) (hb : encode w = some b) :
    [] ∉ renderings isPrintable w b := by
  simp only [renderings, Finset.mem_insert, Finset.mem_singleton, not_or]
  exact ⟨hw.symm, (inner_repr_ne_nil isPrintable hw).symm, (inner_bytesRepr_ne_nil hw hb).symm,
    (inner_jsonString_ne_nil hw).symm, (escapePhpString_ne_nil hw).symm⟩

lemma nil_notMem_storedOf {value : PyStr} (hv : Encodable value) (hne : value ≠ []) :
    [] ∉ storedOf isPrintable value := by
  intro h
  obtain ⟨w, hw, hmem⟩ := Finset.mem_biUnion.1 h
  obtain ⟨hwne, hsub⟩ := mem_variants hw hne
  obtain ⟨b, hb⟩ := encode_isSome hv hsub
  rw [renderingsOf, hb] at hmem
  exact nil_notMem_renderings isPrintable hwne hb hmem

/-- Storing variants that can all be encoded. -/
lemma forM_registerVariant_run {ws : List PyStr} (hws : ∀ w ∈ ws, ∃ b, encode w = some b)
    (vs : Finset PyStr) :
    ws.forM (registerVariant isPrintable) vs = (.ok (), vs ∪
      ws.toFinset.biUnion (renderingsOf isPrintable)) := by
  induction ws generalizing vs with
  | nil => simp [List.forM]
  | cons w ws ih =>
    obtain ⟨hw, hws⟩ := List.forall_mem_cons.1 hws
    obtain ⟨b, hb⟩ := hw
    have hrun : registerVariant isPrintable w vs =
        (.ok (), vs ∪ renderings isPrintable w b) := by
      simp [registerVariant, hb]
    refine (Prog.bind_run_ok hrun).trans ((ih hws _).trans ?_)
    simp [renderingsOf, hb, Finset.union_assoc]

lemma registerValue_run (order : SetOrder) {v : Option PyStr} (hv : ∀ value, v = some value →
    Encodable value) (vs : Finset PyStr) :
    registerValue isPrintable order v vs =
      (.ok (), vs ∪ stored isPrintable (nonBlank [v])) := by
  cases v with
  | none =>
    have hnone : nonBlank [none] = ∅ := by
      ext w
      simp
    simp [registerValue, stored, hnone]
  | some value =>
    by_cases hb : strip value = []
    · have hblank : nonBlank [some value] = ∅ := by
        ext w
        simp only [mem_nonBlank, List.mem_singleton, Option.some.injEq, Finset.notMem_empty,
          iff_false, not_and, not_not]
        rintro rfl
        exact hb
      simp [registerValue, stored, hb, hblank]
    · have hne : value ≠ [] := by
        rintro rfl
        exact hb rfl
      have hall : ∀ w ∈ order.list (variants value), ∃ b, encode w = some b := fun w hw =>
        encode_isSome (hv value rfl) (mem_variants ((order.mem_list _ _).1 hw) hne).2
      have hset : (order.list (variants value)).toFinset = variants value := by
        ext w
        simp [order.mem_list]
      have hone : nonBlank [some value] = {value} := by
        ext w
        simp only [mem_nonBlank, List.mem_singleton, Option.some.injEq, Finset.mem_singleton]
        exact ⟨fun h => h.1, fun h => ⟨h, h ▸ hb⟩⟩
      simp only [registerValue, if_neg hb, forM_registerVariant_run isPrintable hall, hset, hone]
      simp [stored, storedOf]

lemma nonBlank_cons (v : Option PyStr) (vs : List (Option PyStr)) :
    nonBlank (v :: vs) = nonBlank [v] ∪ nonBlank vs := by
  ext w
  simp only [mem_nonBlank, List.mem_cons, Finset.mem_union, List.not_mem_nil, or_false, or_and_right]

lemma stored_union (s t : Finset PyStr) :
    stored isPrintable (s ∪ t) = stored isPrintable s ∪ stored isPrintable t := by
  unfold stored
  exact Finset.union_biUnion

lemma forM_registerValue_run (order : SetOrder) {values : List (Option PyStr)}
    (hv : ∀ value, some value ∈ values → Encodable value) (vs : Finset PyStr) :
    values.forM (registerValue isPrintable order) vs =
      (.ok (), vs ∪ stored isPrintable (nonBlank values)) := by
  induction values generalizing vs with
  | nil => simp [List.forM, nonBlank, stored]
  | cons v values ih =>
    have hrun := registerValue_run isPrintable order (v := v)
      (fun value h => hv value (by simp [h])) vs
    refine (Prog.bind_run_ok hrun).trans ((ih (fun value h => hv value (by simp [h])) _).trans ?_)
    rw [nonBlank_cons v values, stored_union, Finset.union_assoc]

/-! ### Runs of `register` and `redact` -/

/-- A redactor and the values that were registered. -/
structure Session where
  redactor : Redactor := {}
  /-- The values that are not blank among those passed to `register` so far. -/
  registered : Finset PyStr := ∅

/-- The calls of a redactor. -/
inductive Call
  | register (order : SetOrder) (values : List (Option PyStr))
  | redact (text : PyStr)

/-- The session after a call, which may have raised. -/
def Session.step (st : Session) : Call → Session
  | .register order values =>
    { redactor := (register isPrintable order values st.redactor).2
      registered := st.registered ∪ nonBlank values }
  | .redact text => { st with redactor := (redact text st.redactor).2 }

/-- The runs of a new redactor. -/
def machine : Machine Session Call where
  init st := st = {}
  step st c st' := st' = st.step isPrintable c

/-- The values passed to `register` contain no lone surrogates. -/
def EncodableCall (_ : Session) : Call → Prop
  | .register _ values => ∀ value, some value ∈ values → Encodable value
  | .redact _ => True

/-- The result of `redact` replaces the leftmost longest occurrences of stored variants, no
stored variant occurs between them, and it is the one that every other session with the
same registered values gives. -/
structure Exact (st : Session) (text : PyStr) : Prop where
  stored : st.redactor.values = stored isPrintable st.registered
  decomposed : ∃ segs last, text = source segs last ∧
    (redact text st.redactor).1 = .ok (masked mask segs last) ∧
    LeftmostLongest {v | v ∈ st.redactor.values} segs last ∧
    ∀ v ∈ st.redactor.values, (∀ seg ∈ segs, ¬ v <:+: seg.1) ∧ ¬ v <:+: last
  determined : ∀ st', ((machine isPrintable).restrict EncodableCall).Reachable st' →
    st'.registered = st.registered →
    (redact text st'.redactor).1 = (redact text st.redactor).1

/-- The redactor stores the renderings of the registered values, and its cached expression
is the one of what it stores. -/
structure Inv (st : Session) : Prop where
  encodable : ∀ value ∈ st.registered, Encodable value ∧ value ≠ []
  values : st.redactor.values = stored isPrintable st.registered
  pattern : ∀ p, st.redactor.pattern = some p → p = alternatives st.redactor.values

lemma encodable_nonBlank {values : List (Option PyStr)}
    (hv : ∀ value, some value ∈ values → Encodable value) :
    ∀ value ∈ nonBlank values, Encodable value ∧ value ≠ [] := by
  intro value h
  obtain ⟨hmem, hb⟩ := mem_nonBlank.1 h
  refine ⟨hv value hmem, ?_⟩
  rintro rfl
  exact hb rfl

lemma register_run (order : SetOrder) {values : List (Option PyStr)}
    (hv : ∀ value, some value ∈ values → Encodable value) (st : Redactor) :
    register isPrintable order values st = (.ok (),
      { values := st.values ∪ stored isPrintable (nonBlank values)
        pattern := if (st.values ∪ stored isPrintable (nonBlank values)).card ≠ st.values.card
          then none else st.pattern }) := by
  simp only [register, Prog.bind_run, Prog.get_run, Prog.zoom,
    forM_registerValue_run isPrintable order hv]
  split_ifs <;> simp_all

lemma inv_register {st : Session} (h : Inv isPrintable st) (order : SetOrder)
    {values : List (Option PyStr)} (hv : ∀ value, some value ∈ values → Encodable value) :
    Inv isPrintable (st.step isPrintable (.register order values)) := by
  refine ⟨fun value hmem => ?_, ?_, fun p hp => ?_⟩
  · rcases Finset.mem_union.1 hmem with hmem | hmem
    · exact h.encodable value hmem
    · exact encodable_nonBlank hv value hmem
  · simp only [Session.step, register_run isPrintable order hv, h.values, stored_union]
  · simp only [Session.step, register_run isPrintable order hv] at hp ⊢
    split_ifs at hp with hcard
    -- as many renderings as before are the same renderings
    have hsame : st.redactor.values =
        st.redactor.values ∪ stored isPrintable (nonBlank values) :=
      Finset.eq_of_subset_of_card_le Finset.subset_union_left (not_not.1 hcard).le
    rw [← hsame]
    exact h.pattern p hp

/-- What `redact` returns and leaves, given that the cached expression is current. -/
lemma redact_run {st : Redactor} (hp : ∀ p, st.pattern = some p → p = alternatives st.values)
    (text : PyStr) :
    (redact text st).1 = .ok (substitute (alternatives st.values) mask text) ∧
      (redact text st).2.values = st.values ∧
      ∀ p, (redact text st).2.pattern = some p → p = alternatives st.values := by
  obtain ⟨values, pattern⟩ := st
  by_cases hv : values = ∅
  · subst hv
    simpa [redact, Prog.bind_run] using hp
  · cases pattern with
    | none => simp [redact, Prog.bind_run, hv]
    | some p =>
      obtain rfl : p = alternatives values := hp p rfl
      simp [redact, Prog.bind_run, hv]

lemma inv_step {st : Session} {c : Call} (h : Inv isPrintable st) (hc : EncodableCall st c) :
    Inv isPrintable (st.step isPrintable c) := by
  cases c with
  | register order values => exact inv_register isPrintable h order hc
  | redact text =>
    obtain ⟨-, hvalues, hpattern⟩ := redact_run h.pattern text
    exact ⟨h.encodable, hvalues.trans h.values, fun p hp => hvalues.symm ▸ hpattern p hp⟩

lemma inv_invariant : ((machine isPrintable).restrict EncodableCall).Invariant
    (Inv isPrintable) where
  init := by
    rintro st rfl
    exact ⟨by simp, by simp [stored], by simp⟩
  step st c st' h hst := by
    obtain ⟨hc, rfl⟩ := hst
    exact inv_step isPrintable h hc

lemma nil_notMem_stored {registered : Finset PyStr}
    (h : ∀ value ∈ registered, Encodable value ∧ value ≠ []) :
    [] ∉ stored isPrintable registered := by
  intro hmem
  obtain ⟨value, hv, hmem⟩ := Finset.mem_biUnion.1 hmem
  exact nil_notMem_storedOf isPrintable (h value hv).1 (h value hv).2 hmem

/-- The result of `redact` is a function of the registered values. -/
lemma redact_eq {st : Session} (h : Inv isPrintable st) (text : PyStr) :
    (redact text st.redactor).1 =
      .ok (substitute (alternatives (stored isPrintable st.registered)) mask text) := by
  rw [← h.values]
  exact (redact_run h.pattern text).1

/-- In every run in which no value passed to `register` contains a lone surrogate, `redact`
is exact. -/
theorem redact_exact {st : Session}
    (h : ((machine isPrintable).restrict EncodableCall).Reachable st) (text : PyStr) :
    Exact isPrintable st text := by
  have hinv := (inv_invariant isPrintable).reachable h
  have hnil : [] ∉ st.redactor.values := by
    rw [hinv.values]
    exact nil_notMem_stored isPrintable hinv.encodable
  obtain ⟨segs, last, hsrc, hsub, hll⟩ := substitute_alternatives hnil mask text
  refine ⟨hinv.values, ⟨segs, last, hsrc.symm, ?_, hll, fun v hv => ?_⟩, fun st' h' hreg => ?_⟩
  · rw [(redact_run hinv.pattern text).1, hsub]
  · exact hll.not_infix hv fun hne => hnil (hne ▸ hv)
  · rw [redact_eq isPrintable hinv, redact_eq isPrintable ((inv_invariant isPrintable).reachable h'),
      hreg]

/-- Iteration in sorted order. -/
def sortedOrder : SetOrder := ⟨fun s => s.sort, fun _ _ => Finset.mem_sort _⟩

/-- The printable code points of ASCII. -/
def isAsciiPrintable (c : PyChar) : Bool := 0x20 ≤ c.val && c.val < 0x7f

theorem redact_exact_password :
    Exact isAsciiPrintable (Session.step isAsciiPrintable {}
      (.register sortedOrder [some (lit "hunter2"), none])) (lit "password is hunter2") := by
  refine redact_exact isAsciiPrintable (.step (.init rfl)
    (l := .register sortedOrder [some (lit "hunter2"), none]) ⟨?_, rfl⟩) _
  intro value hmem
  obtain rfl : value = lit "hunter2" := by simpa using hmem
  have hall : (lit "hunter2").all (fun c => !isSurrogate c) = true := by decide
  exact fun c hc => by simpa using List.all_eq_true.1 hall c hc

/-- Two values are registered after the expression was cached; the second one cannot be
encoded. -/
def staleSession : Session :=
  (Session.step isAsciiPrintable (Session.step isAsciiPrintable (Session.step isAsciiPrintable {}
    (.register sortedOrder [some (lit "a")])) (.redact (lit "x")))
    (.register sortedOrder [some (lit "bc"), some [0xd800]]))

lemma staleSession_reachable : (machine isAsciiPrintable).Reachable staleSession :=
  .step (l := .register sortedOrder [some (lit "bc"), some [0xd800]])
    (.step (l := .redact (lit "x"))
      (.step (l := .register sortedOrder [some (lit "a")]) (.init rfl) rfl) rfl) rfl

/-- The value stored before the exception is not masked. -/
theorem not_exact_staleSession :
    (machine isAsciiPrintable).Reachable staleSession ∧
      ¬ Exact isAsciiPrintable staleSession (lit "bc") := by
  refine ⟨staleSession_reachable, fun h => ?_⟩
  obtain ⟨segs, last, hsrc, hres, -, hgap⟩ := h.decomposed
  have hrun : (redact (lit "bc") staleSession.redactor).1 = .ok (lit "bc") :=
    by decide +kernel
  have hmask : lit "bc" = masked mask segs last := Except.ok.inj (hrun.symm.trans hres)
  have hmem : lit "bc" ∈ staleSession.redactor.values := by decide +kernel
  cases segs with
  | nil =>
    obtain rfl : lit "bc" = last := hsrc
    exact (hgap _ hmem).2 (List.infix_refl _)
  | cons seg segs =>
    have hlen := congrArg List.length hmask
    simp [masked, mask, lit] at hlen
    omega

end Redactor

end MediawikiCharm
