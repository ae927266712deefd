/-
Masking of credentials in bytes.

`redact` decodes bytes with `surrogateescape`, masks the text and encodes the result in the same
way.  A stored rendering is never empty and has no lone surrogate, not even when a call of
`register` was cut short.  Hence its encoding occurs in the bytes exactly where the rendering
occurs in the decoded text, whatever malformed sequences surround it.
-/
import MediawikiCharm.Lib.Utf8
import MediawikiCharm.LogRedaction.Overlap
import MediawikiCharm.LogRedaction.Renderings

namespace MediawikiCharm
namespace Redactor

open PyText Substitution

variable (isPrintable : PyChar → Bool)

/-- `redact` of bytes -/
def redactBytes (b : List UInt8) : Prog Redactor Exc (List UInt8) := do
  let text ← redact (decodeEscaped b)
  match encodeEscaped text with
  | some b => pure b
  | none => throw (.other "surrogates not allowed")

/-- The bytes of `[REDACTED]`. -/
def maskBytes : List UInt8 := mask.flatMap encodeChar

/-- The call returns. -/
def Returned (st : Session) : Call → Prop
  | .register order values => (register isPrintable order values st.redactor).1 = .ok ()
  | .redact _ => True

/-- `redact` replaces the leftmost longest occurrences of the encodings of the renderings in force
in bytes and keeps every other byte, it does to the encoding of a text what it does to the text,
and the renderings in force are all stored ones unless some call of `register` raised. -/
structure BytesAgree (st : Session) : Prop where
  decomposed : ∀ b, ∃ segs last, b = source segs last ∧
    (redactBytes b st.redactor).1 = .ok (masked maskBytes segs last) ∧
    LeftmostLongest (encoded encodeChar {v | v ∈ words st.redactor}) segs last
  encoded : ∀ t b, encode t = some b → ∃ t' b', (redact t st.redactor).1 = .ok t' ∧
    encode t' = some b' ∧ (redactBytes b st.redactor).1 = .ok b'
  current : ((machine isPrintable).restrict (Returned isPrintable)).Reachable st →
    st.redactor.values = stored isPrintable st.registered ∧
      {v | v ∈ words st.redactor} = {v | v ∈ st.redactor.values}

/-! ### Renderings have no lone surrogates -/

lemma isSurrogate_ofChar (c : Char) : isSurrogate (ofChar c) = false := by
  have hvalid := c.valid
  simp only [UInt32.isValidChar, Nat.isValidChar] at hvalid
  have hval : (ofChar c).val = c.toNat := rfl
  rw [isSurrogate_eq_false_iff, hval]
  simp only [Char.toNat]
  omega

lemma encodable_chars (l : List Char) : Encodable (chars l) := by
  intro c hc
  obtain ⟨d, -, rfl⟩ := List.mem_map.1 hc
  exact isSurrogate_ofChar d

lemma Encodable.append {s t : PyStr} (hs : Encodable s) (ht : Encodable t) :
    Encodable (s ++ t) :=
  List.forall_mem_append.2 ⟨hs, ht⟩

lemma Encodable.flatMap {α : Type*} {l : List α} {f : α → PyStr}
    (h : ∀ a ∈ l, Encodable (f a)) : Encodable (l.flatMap f) := by
  intro c hc
  obtain ⟨a, ha, hmem⟩ := List.mem_flatMap.1 hc
  exact h a ha c hmem

lemma encodable_singleton {c : PyChar} (hc : isSurrogate c = false) : Encodable [c] :=
  List.forall_mem_singleton.2 hc

variable {q : PyChar}

lemma encodable_reprEscape (hq : isSurrogate q = false) {n : ℕ} {e : PyStr}
    (h : reprEscape q n = some e) : Encodable e := by
  unfold reprEscape at h
  split_ifs at h <;> obtain rfl := Option.some.inj h
  · exact encodable_chars _
  · exact List.forall_mem_cons.2 ⟨isSurrogate_ofChar _, encodable_singleton hq⟩
  · exact encodable_chars _
  · exact encodable_chars _
  · exact encodable_chars _
  · exact (encodable_chars _).append (encodable_chars _)

lemma encodable_reprChar (hq : isSurrogate q = false) {c : PyChar} (hc : isSurrogate c = false) :
    Encodable (reprChar isPrintable q c) := by
  unfold reprChar
  split
  · exact encodable_reprEscape hq ‹_›
  · split_ifs
    · exact encodable_singleton hc
    · exact (encodable_chars _).append (encodable_chars _)
    · exact (encodable_chars _).append (encodable_chars _)
    · exact (encodable_chars _).append (encodable_chars _)

lemma encodable_bytesReprByte (hq : isSurrogate q = false) (b : UInt8) :
    Encodable (bytesReprByte q b) := by
  unfold bytesReprByte
  split
  · exact encodable_reprEscape hq ‹_›
  · split_ifs with hlt
    · refine encodable_singleton (isSurrogate_eq_false_iff.2 ?_)
      have hval : (Fin.ofNat 0x110000 b.toNat).val = b.toNat := Nat.mod_eq_of_lt (by omega)
      rw [hval]
      omega
    · exact (encodable_chars _).append (encodable_chars _)

lemma encodable_escapePhpString {s : PyStr} (hs : Encodable s) :
    Encodable (escapePhpString s) := by
  refine Encodable.flatMap fun c hc => ?_
  have hmem : Encodable (s.flatMap fun c => if c = ofChar '\\' then lit "\\\\" else [c]) := by
    refine Encodable.flatMap fun d hd => ?_
    split_ifs
    · exact encodable_chars _
    · exact encodable_singleton (hs d hd)
  split_ifs
  · exact encodable_chars _
  · exact encodable_singleton (hmem c hc)

lemma isSurrogate_quote (r : Rendering) (t : PyStr) : isSurrogate (quote r t) = false := by
  have hquote : ∀ s : List ℕ, isSurrogate (reprQuote s) = false := by
    intro s
    unfold reprQuote
    split_ifs
    · exact isSurrogate_ofChar _
    · exact isSurrogate_ofChar _
  cases r with
  | repr => exact hquote _
  | bytesRepr => exact hquote _
  | json => exact isSurrogate_ofChar _
  | php => exact isSurrogate_ofChar _

lemma encodable_body {v : PyStr} (hv : Encodable v) (hq : isSurrogate q = false) (r : Rendering) :
    Encodable (body isPrintable q r v) := by
  cases r with
  | repr => exact Encodable.flatMap fun c hc => encodable_reprChar isPrintable hq (hv c hc)
  | bytesRepr => exact Encodable.flatMap fun b _ => encodable_bytesReprByte hq b
  | json => exact encodable_chars _
  | php => exact encodable_escapePhpString hv

lemma encode_eq_some_iff {v : PyStr} {b : List UInt8} :
    encode v = some b ↔ Encodable v ∧ b = v.flatMap encodeChar := by
  constructor
  · intro h
    have hv : Encodable v := by
      intro c hc
      by_contra hs
      rw [encode, if_pos (List.any_eq_true.2 ⟨c, hc, by simpa using hs⟩)] at h
      exact absurd h nofun
    rw [encode_eq hv] at h
    exact ⟨hv, (Option.some.inj h).symm⟩
  · rintro ⟨hv, rfl⟩
    exact encode_eq hv

lemma encodable_of_mem_renderings {v w : PyStr} {b : List UInt8} (hb : encode v = some b)
    (hw : w ∈ renderings isPrintable v b) : Encodable w := by
  obtain ⟨hv, rfl⟩ := encode_eq_some_iff.1 hb
  rcases mem_renderings.1 hw with rfl | ⟨r, rfl⟩
  · exact hv
  · exact encodable_body isPrintable hv (isSurrogate_quote r v) r

/-! ### Sessions -/

/-- Only renderings without lone surrogates are added. -/
def AddsEncodable (vs vs' : Finset PyStr) : Prop := ∀ w ∈ vs', w ∈ vs ∨ Encodable w

instance : Std.Refl AddsEncodable := ⟨fun _ _ hw => .inl hw⟩

instance : IsTrans (Finset PyStr) AddsEncodable :=
  ⟨fun _ _ _ h h' w hw => (h' w hw).elim (h w) .inr⟩

lemma addsEncodable_registerVariant (variant : PyStr) :
    Prog.Within AddsEncodable (registerVariant isPrintable variant) := by
  unfold registerVariant
  cases hb : encode variant with
  | none => exact .throw _
  | some b =>
    refine .modify fun vs w hw => ?_
    exact (Finset.mem_union.1 hw).imp_right (encodable_of_mem_renderings isPrintable hb)

lemma addsEncodable_registerValue (order : SetOrder) (value : Option PyStr) :
    Prog.Within AddsEncodable (registerValue isPrintable order value) := by
  cases value with
  | none => exact .pure _
  | some value => exact .ite (.pure _) (.forM (addsEncodable_registerVariant isPrintable) _)

/-- `redact` does not change what is stored. -/
lemma frame_redact (text : PyStr) : Prog.Frame Redactor.values (redact text) := by
  unfold redact
  refine .bind .get fun st => .ite (.pure _) ?_
  cases st.pattern with
  | none => exact .bind (.modify fun _ => rfl) fun _ => .pure _
  | some p => exact .pure _

lemma encodable_invariant : (machine isPrintable).Invariant fun st =>
    Compiled st.redactor ∧ ∀ w ∈ st.redactor.values, Encodable w where
  init := by
    rintro st rfl
    exact ⟨⟨Finset.notMem_empty _, nofun⟩, nofun⟩
  step st c st' h hst := by
    refine ⟨(compiled_invariant isPrintable).step st c st' h.1 hst, ?_⟩
    obtain rfl := hst
    cases c with
    | register order values =>
      obtain ⟨hadds, -⟩ := register_within_of isPrintable
        (addsEncodable_registerValue isPrintable order) values st.redactor
      exact fun w hw => (hadds w hw).elim (h.2 w) id
    | redact text =>
      have hvalues : (redact text st.redactor).2.values = st.redactor.values :=
        frame_redact text st.redactor
      intro w hw
      exact h.2 w (hvalues ▸ hw)

/-- Whitespace is no surrogate. -/
lemma encodable_of_blank {value : PyStr} (h : strip value = []) : Encodable value := by
  intro c hc
  have hspace : isSpace c = true := by
    by_contra hno
    rw [strip, List.rdropWhile_eq_nil_iff] at h
    cases hrest : value.dropWhile isSpace with
    | nil => exact hno (List.dropWhile_eq_nil_iff.1 hrest c hc)
    | cons d t =>
      have hd := List.head_dropWhile_not isSpace (l := value) (by simp [hrest])
      simp only [hrest, List.head_cons] at hd
      exact absurd (h d (by simp [hrest])) (by simp [hd])
  rw [isSurrogate_eq_false_iff]
  simp only [isSpace, Bool.or_eq_true, Bool.and_eq_true, decide_eq_true_eq, beq_iff_eq] at hspace
  omega

/-- A value on which `register` returns has no lone surrogate. -/
lemma encodableCall_of_returned {st : Session} {c : Call} (h : Returned isPrintable st c) :
    EncodableCall st c := by
  cases c with
  | redact text => trivial
  | register order values =>
    have hvariant : ∀ variant vs, (registerVariant isPrintable variant).wp
        (fun _ _ => Encodable variant) (fun _ _ => True) vs := by
      intro variant vs
      unfold registerVariant
      cases hb : encode variant with
      | none => trivial
      | some b => exact (encode_eq_some_iff.1 hb).1
    have hvalue : ∀ v vs, (registerValue isPrintable order v).wp
        (fun _ _ => ∀ value, v = some value → Encodable value) (fun _ _ => True) vs := by
      intro v vs
      cases v with
      | none => exact nofun
      | some value =>
        refine Prog.wp_ite.2 ⟨fun hblank => ?_, fun _ => ?_⟩
        · rintro _ hv
          obtain rfl := Option.some.inj hv
          exact encodable_of_blank hblank
        · refine Prog.wp_mono (Prog.wp_forM hvariant _ vs) (fun _ _ hall => ?_) fun _ _ _ => trivial
          rintro _ hv
          obtain rfl := Option.some.inj hv
          exact hall _ ((order.mem_list _ _).2 (self_mem_variants _))
    have hregister : (register isPrintable order values).wp
        (fun _ _ => ∀ value, some value ∈ values → Encodable value) (fun _ _ => True)
        st.redactor := by
      unfold register
      refine Prog.wp_bind.2 (Prog.wp_get.2 (Prog.wp_bind.2 (Prog.wp_zoom.2 ?_)))
      refine Prog.wp_mono (Prog.wp_forM hvalue values _) (fun _ vs hall => ?_) fun _ _ _ => trivial
      have hencodable : ∀ value, some value ∈ values → Encodable value :=
        fun value hmem => hall _ hmem value rfl
      exact Prog.wp_bind.2 (Prog.wp_get.2 (Prog.wp_ite.2 ⟨fun _ => hencodable, fun _ => hencodable⟩))
    have hok : register isPrintable order values st.redactor =
        (.ok (), (register isPrintable order values st.redactor).2) := Prod.ext h rfl
    have hencodable := Prog.wp_of_ok hregister hok
    exact hencodable

lemma encodable_reachable {st : Session}
    (h : ((machine isPrintable).restrict (Returned isPrintable)).Reachable st) :
    ((machine isPrintable).restrict EncodableCall).Reachable st := by
  induction h with
  | init h => exact .init h
  | step _ h ih => exact .step ih ⟨encodableCall_of_returned isPrintable h.1, h.2⟩

/-! ### Bytes -/

lemma mem_masked {c : PyChar} {r last : PyStr} {segs : List (PyStr × PyStr)}
    (h : c ∈ masked r segs last) : c ∈ r ∨ c ∈ source segs last := by
  induction segs with
  | nil => exact .inr h
  | cons seg segs ih =>
    rw [masked_cons, List.mem_append, List.mem_append] at h
    rw [source_cons, List.mem_append, List.mem_append]
    rcases h with h | h | h
    · exact .inr (.inl h)
    · exact .inl h
    · exact (ih h).imp_right fun h => .inr (.inr h)

lemma encodable_mask : Encodable mask := encodable_chars _

/-- What `redact` makes of bytes is encoded from what it makes of the decoded text. -/
lemma redactBytes_run {st : Redactor} {b b' : List UInt8} {t' : PyStr}
    (h : (redact (decodeEscaped b) st).1 = .ok t') (hb : encodeEscaped t' = some b') :
    (redactBytes b st).1 = .ok b' := by
  have hrun : redact (decodeEscaped b) st = (.ok t', (redact (decodeEscaped b) st).2) :=
    Prod.ext h rfl
  rw [redactBytes, Prog.bind_run_ok hrun, hb]
  rfl

/-- In every session, and for all bytes, masking bytes agrees with masking text. -/
theorem redactBytes_agrees {st : Session} (h : (machine isPrintable).Reachable st) :
    BytesAgree isPrintable st := by
  obtain ⟨hcompiled, hencodable⟩ := (encodable_invariant isPrintable).reachable h
  obtain ⟨s, hs, hwords⟩ := hcompiled.words_eq
  have hnil : [] ∉ s := fun hmem => hcompiled.nil_notMem (hs hmem)
  have hset : {v | v ∈ words st.redactor} = {v | v ∈ s} := by
    ext v
    rw [hwords]
    exact Finset.mem_sort _
  have hwordsEncodable : ∀ v ∈ s, Encodable v := fun v hv => hencodable v (hs hv)
  have hencoded : encoded encodeCharEscaped {v | v ∈ s} = encoded encodeChar {v | v ∈ s} := by
    ext w
    refine exists_congr fun v => and_congr_right fun hv => ?_
    rw [flatMap_encodeCharEscaped (hwordsEncodable v hv)]
  have hrun : ∀ t, ∃ segs last, source segs last = t ∧
      (redact t st.redactor).1 = .ok (masked mask segs last) ∧
      LeftmostLongest {v | v ∈ s} segs last := by
    intro t
    obtain ⟨segs, last, hsrc, hsub, hll⟩ := substitute_alternatives hnil mask t
    refine ⟨segs, last, hsrc, ?_, hll⟩
    rw [(hcompiled.redact_run t).1, hwords, hsub]
  refine ⟨fun b => ?_, fun t b hb => ?_, fun hreturned => ?_⟩
  · obtain ⟨segs, last, hsrc, hmasked, hll⟩ := hrun (decodeEscaped b)
    have hdecodes := decodes b
    have hescapable : Escapable (masked mask segs last) := by
      intro c hc hs
      rcases mem_masked hc with hc | hc
      · exact absurd hs (by simp [encodable_mask c hc])
      · exact hdecodes.escapable c (hsrc ▸ hc) hs
    have hsync : Synchronized encodeCharEscaped {v | v ∈ s} (source segs last) := by
      rw [hsrc]
      refine hdecodes.synchronized fun v hv => ⟨?_, hwordsEncodable v hv⟩
      rintro rfl
      exact hnil hv
    have henc := hll.encode encodeCharEscaped_ne_nil hsync
    rw [hencoded] at henc
    refine ⟨encodeSegs encodeCharEscaped segs, last.flatMap encodeCharEscaped, ?_, ?_, hset ▸ henc⟩
    · rw [source_encodeSegs, hsrc, hdecodes.flatMap_eq]
    · refine redactBytes_run hmasked ?_
      rw [encodeEscaped_eq hescapable, ← masked_encodeSegs, flatMap_encodeCharEscaped encodable_mask,
        maskBytes]
  · obtain ⟨ht, rfl⟩ := encode_eq_some_iff.1 hb
    obtain ⟨segs, last, hsrc, hmasked, -⟩ := hrun t
    have hmask : Encodable (masked mask segs last) := by
      intro c hc
      rcases mem_masked hc with hc | hc
      · exact encodable_mask c hc
      · exact ht c (hsrc ▸ hc)
    have hdecoded : (redact (decodeEscaped (t.flatMap encodeChar)) st.redactor).1 =
        .ok (masked mask segs last) := by
      rw [decodeEscaped_flatMap ht, hmasked]
    refine ⟨_, _, hmasked, encode_eq hmask, redactBytes_run hdecoded ?_⟩
    have hescapable : Escapable (masked mask segs last) := fun c hc hs =>
      absurd hs (by simp [hmask c hc])
    rw [encodeEscaped_eq hescapable, flatMap_encodeCharEscaped hmask]
  · have hinv := (inv_invariant isPrintable).reachable (encodable_reachable isPrintable hreturned)
    refine ⟨hinv.values, ?_⟩
    ext v
    have hcurrent : words st.redactor = alternatives st.redactor.values := by
      unfold words
      cases hp : st.redactor.pattern with
      | none => rfl
      | some p => exact hinv.pattern p hp
    rw [hcurrent]
    exact Finset.mem_sort _

/-- A password registered, then masked in bytes. -/
theorem redactBytes_agrees_password :
    BytesAgree isAsciiPrintable (Session.step isAsciiPrintable {}
      (.register sortedOrder [some (lit "hunter2"), none])) :=
  redactBytes_agrees isAsciiPrintable (.step (.init rfl)
    (l := .register sortedOrder [some (lit "hunter2"), none]) rfl)

end Redactor
end MediawikiCharm
