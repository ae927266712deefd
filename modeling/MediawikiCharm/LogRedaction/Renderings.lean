/-
Credentials inside larger values that are rendered.

`repr`, `json.dumps`, `escape_php_string` and `repr` of the bytes render a text symbol by symbol.
Only the quote that `repr` chooses depends on the whole text: a quote in the text before or
behind a credential may change how the quotes of the credential itself are rendered, and
then no stored rendering need occur in it.
-/
import MediawikiCharm.Lib.Coverage
import MediawikiCharm.Lib.JsonRoundtrip
import MediawikiCharm.LogRedaction

namespace MediawikiCharm
namespace Redactor

open PyText Substitution

/-- How a value is rendered. -/
inductive Rendering
  | repr
  | bytesRepr
  | json
  | php
deriving DecidableEq

variable (isPrintable : PyChar → Bool)

/-- The rendering of a text; `none` where `encode` raises. -/
def render : Rendering → PyStr → Option PyStr
  | .repr, t => some (PyText.repr isPrintable t)
  | .bytesRepr, t => (encode t).map PyText.bytesRepr
  | .json, t => some (jsonString t)
  | .php, t => some (escapePhpString t)

/-- The quote around the rendering of a text. -/
def quote : Rendering → PyStr → PyChar
  | .repr, t => reprQuote (t.map Fin.val)
  | .bytesRepr, t => reprQuote ((t.flatMap encodeChar).map UInt8.toNat)
  | .json, _ => ofChar '"'
  | .php, _ => ofChar '\''

/-- The rendering of a part of a text between the quotes. -/
def body (q : PyChar) : Rendering → PyStr → PyStr
  | .repr, t => t.flatMap (reprChar isPrintable q)
  | .bytesRepr, t => (t.flatMap encodeChar).flatMap (bytesReprByte q)
  | .json, t => chars (t.flatMap jsonChar)
  | .php, t => escapePhpString t

/-- What stands before the body. -/
def opening (q : PyChar) : Rendering → PyStr
  | .repr => [q]
  | .bytesRepr => [ofChar 'b', q]
  | .json => [q]
  | .php => []

/-- What stands behind the body. -/
def closing (q : PyChar) : Rendering → PyStr
  | .repr => [q]
  | .bytesRepr => [q]
  | .json => [q]
  | .php => []

/-- No part of the result of `redact` that is not masked contains the form. -/
def Hidden (st : Session) (text form : PyStr) : Prop :=
  ∃ segs last, source segs last = text ∧
    (redact text st.redactor).1 = .ok (masked mask segs last) ∧
    LeftmostLongest {w | w ∈ st.redactor.values} segs last ∧
    (∀ seg ∈ segs, ¬ form <:+: seg.1) ∧ ¬ form <:+: last

/-- If the credential has a single quote and no double quote, some stored rendering occurs in its
renderings between single quotes too. -/
def QuoteSafe (v : PyStr) : Prop :=
  ofChar '\'' ∈ v → ofChar '"' ∉ v →
    ∀ r ∈ [Rendering.repr, .bytesRepr],
      ∃ w ∈ storedOf isPrintable v, w <:+: body isPrintable (ofChar '\'') r v

instance (v : PyStr) : Decidable (QuoteSafe isPrintable v) :=
  inferInstanceAs (Decidable (_ → _ → ∀ _ ∈ _, ∃ _ ∈ _, _))

/-! ### Bodies -/

variable {isPrintable} {r : Rendering} {p s t v w : PyStr} {q : PyChar} {c : PyChar}

lemma body_append :
    body isPrintable q r (s ++ t) = body isPrintable q r s ++ body isPrintable q r t := by
  cases r <;> simp [body, escapePhpString, chars]

/-- A rendering is a body between quotes. -/
lemma render_eq {text : PyStr} (h : render isPrintable r t = some text) :
    text = opening (quote r t) r ++ body isPrintable (quote r t) r t ++ closing (quote r t) r := by
  cases r with
  | repr =>
    obtain rfl := Option.some.inj h
    rfl
  | bytesRepr =>
    obtain ⟨b, hb, rfl⟩ := Option.map_eq_some_iff.1 h
    unfold encode at hb
    split_ifs at hb
    obtain rfl := Option.some.inj hb
    rfl
  | json =>
    obtain rfl := Option.some.inj h
    simp [jsonString, jsonText, chars, opening, closing, quote, body]
  | php =>
    obtain rfl := Option.some.inj h
    simp [opening, closing, body]

/-- What is stored for a variant: itself and its bodies between its own quotes. -/
lemma mem_renderings : w ∈ renderings isPrintable v (v.flatMap encodeChar) ↔
    w = v ∨ ∃ r, w = body isPrintable (quote r v) r v := by
  have hrepr : inner 1 (PyText.repr isPrintable v) = body isPrintable (quote .repr v) .repr v :=
    inner_one_quoted _ _
  have hbytes : inner 2 (PyText.bytesRepr (v.flatMap encodeChar)) =
      body isPrintable (quote .bytesRepr v) .bytesRepr v := inner_two_quoted _ _ _
  have hjson : inner 1 (jsonString v) = body isPrintable (quote .json v) .json v := by
    rw [jsonString, jsonText, chars, List.map_append]
    exact inner_one_quoted (ofChar '"') _
  -- what is stored is the four bodies, in this order
  rw [renderings, hrepr, hbytes, hjson]
  simp only [Finset.mem_insert, Finset.mem_singleton]
  constructor
  · rintro (h | h | h | h | h)
    · exact .inl h
    · exact .inr ⟨.repr, h⟩
    · exact .inr ⟨.bytesRepr, h⟩
    · exact .inr ⟨.json, h⟩
    · exact .inr ⟨.php, h⟩
  · rintro (h | ⟨r, h⟩)
    · exact .inl h
    · cases r with
      | repr => exact .inr (.inl h)
      | bytesRepr => exact .inr (.inr (.inl h))
      | json => exact .inr (.inr (.inr (.inl h)))
      | php => exact .inr (.inr (.inr (.inr h)))

lemma encode_eq (hv : Encodable v) : encode v = some (v.flatMap encodeChar) := by
  refine if_neg fun h => ?_
  obtain ⟨c, hc, hs⟩ := List.any_eq_true.1 h
  exact Bool.false_ne_true ((hv c hc).symm.trans hs)

lemma self_mem_variants (v : PyStr) : v ∈ variants v := by
  unfold variants
  split_ifs
  · exact Finset.mem_insert_self _ _
  · exact Finset.mem_singleton_self _

/-- The stored renderings of a value are its bodies between its own quotes. -/
lemma body_mem_storedOf (hv : Encodable v) (r : Rendering) :
    body isPrintable (quote r v) r v ∈ storedOf isPrintable v := by
  refine Finset.mem_biUnion.2 ⟨v, self_mem_variants v, ?_⟩
  rw [renderingsOf, encode_eq hv]
  exact mem_renderings.2 (.inr ⟨r, rfl⟩)

/-- A value is stored as it is. -/
lemma self_mem_storedOf (hv : Encodable v) : v ∈ storedOf isPrintable v := by
  refine Finset.mem_biUnion.2 ⟨v, self_mem_variants v, ?_⟩
  rw [renderingsOf, encode_eq hv]
  exact mem_renderings.2 (.inl rfl)

/-! ### Quotes -/

lemma val_single : (ofChar '\'').val = 0x27 := rfl

lemma val_double : (ofChar '"').val = 0x22 := rfl

lemma mem_codes {n : ℕ} (d : PyChar) (hd : d.val = n) : n ∈ t.map Fin.val ↔ d ∈ t := by
  rw [List.mem_map]
  constructor
  · rintro ⟨c, hc, hcn⟩
    exact Fin.ext (hcn.trans hd.symm) ▸ hc
  · intro h
    exact ⟨d, h, hd⟩

/-- The bytes of ASCII encode themselves only. -/
lemma mem_encodeChar {n : ℕ} (hn : n < 0x80) :
    n ∈ (encodeChar c).map UInt8.toNat ↔ c.val = n := by
  have hc := c.isLt
  unfold encodeChar
  dsimp only
  split_ifs with h₁ h₂ h₃
  · simp only [List.map_cons, List.map_nil, List.mem_singleton, UInt8.toNat_ofNat']
    omega
  · simp only [List.map_cons, List.map_nil, List.mem_cons, List.not_mem_nil, or_false,
      UInt8.toNat_ofNat']
    omega
  · simp only [List.map_cons, List.map_nil, List.mem_cons, List.not_mem_nil, or_false,
      UInt8.toNat_ofNat']
    omega
  · simp only [List.map_cons, List.map_nil, List.mem_cons, List.not_mem_nil, or_false,
      UInt8.toNat_ofNat']
    omega

lemma mem_encoded {n : ℕ} (hn : n < 0x80) (d : PyChar) (hd : d.val = n) :
    n ∈ (t.flatMap encodeChar).map UInt8.toNat ↔ d ∈ t := by
  rw [List.map_flatMap, List.mem_flatMap]
  constructor
  · rintro ⟨c, hc, hmem⟩
    exact Fin.ext (((mem_encodeChar hn).1 hmem).trans hd.symm) ▸ hc
  · intro h
    exact ⟨d, h, (mem_encodeChar hn).2 hd⟩

/-- `repr` takes double quotes for a text with single and without double quotes. -/
lemma quote_eq (h : r = .repr ∨ r = .bytesRepr) :
    quote r t = if ofChar '\'' ∈ t ∧ ofChar '"' ∉ t then ofChar '"' else ofChar '\'' := by
  rcases h with rfl | rfl
  · exact if_congr (and_congr (mem_codes _ val_single) (not_congr (mem_codes _ val_double))) rfl rfl
  · exact if_congr (and_congr (mem_encoded (by omega) _ val_single)
      (not_congr (mem_encoded (by omega) _ val_double))) rfl rfl

/-- The quote matters for quotes only. -/
lemma reprEscape_congr {q q' : PyChar} {n : ℕ} (h : n ≠ q.val) (h' : n ≠ q'.val) :
    reprEscape q n = reprEscape q' n := by
  unfold reprEscape
  rw [if_neg h, if_neg h']

lemma body_congr (hs : ofChar '\'' ∉ t) (hd : ofChar '"' ∉ t)
    (h : r = .repr ∨ r = .bytesRepr) :
    body isPrintable (ofChar '"') r t = body isPrintable (ofChar '\'') r t := by
  rcases h with rfl | rfl
  · refine List.flatMap_congr fun c hc => ?_
    have hescape : reprEscape (ofChar '"') c.val = reprEscape (ofChar '\'') c.val :=
      reprEscape_congr (fun he => hd (Fin.ext he ▸ hc)) fun he => hs (Fin.ext he ▸ hc)
    unfold reprChar
    rw [hescape]
  · refine List.flatMap_congr fun b hb => ?_
    have hmem : b.toNat ∈ (t.flatMap encodeChar).map UInt8.toNat := List.mem_map_of_mem hb
    have hescape : reprEscape (ofChar '"') b.toNat = reprEscape (ofChar '\'') b.toNat :=
      reprEscape_congr
        (fun he => hd ((mem_encoded (by omega) _ val_double).1 (val_double ▸ he ▸ hmem)))
        fun he => hs ((mem_encoded (by omega) _ val_single).1 (val_single ▸ he ▸ hmem))
    unfold bytesReprByte
    rw [hescape]

/-- Wherever a quote-safe credential stands, a stored rendering occurs in its form. -/
lemma exists_stored_inside (hv : Encodable v) (hsafe : QuoteSafe isPrintable v) (r : Rendering)
    (p s : PyStr) : ∃ w ∈ storedOf isPrintable v,
      w <:+: body isPrintable (quote r (p ++ v ++ s)) r v := by
  by_cases hsame : quote r (p ++ v ++ s) = quote r v
  · exact ⟨_, body_mem_storedOf hv r, hsame ▸ List.infix_refl _⟩
  · -- only these two choose their quotes from the text
    have hr : r = .repr ∨ r = .bytesRepr := by
      cases r with
      | repr => exact .inl rfl
      | bytesRepr => exact .inr rfl
      | json => exact absurd rfl hsame
      | php => exact absurd rfl hsame
    have hown := quote_eq (t := v) hr
    have hwhole := quote_eq (t := p ++ v ++ s) hr
    by_cases hquotes : ofChar '\'' ∈ v ∧ ofChar '"' ∉ v
    · -- the credential alone is put between double quotes
      have hsingle : quote r (p ++ v ++ s) = ofChar '\'' := by
        rw [if_pos hquotes] at hown
        rw [hwhole]
        refine if_neg fun hboth => hsame ?_
        rw [hwhole, if_pos hboth, hown]
      rw [hsingle]
      exact hsafe hquotes.1 hquotes.2 r (by rcases hr with rfl | rfl <;> simp)
    · -- the credential has no quotes, and those around it are double quotes
      rw [if_neg hquotes] at hown
      have hboth : ofChar '\'' ∈ p ++ v ++ s ∧ ofChar '"' ∉ p ++ v ++ s := by
        by_contra hnot
        rw [if_neg hnot] at hwhole
        exact hsame (hwhole.trans hown.symm)
      have hd : ofChar '"' ∉ v := fun hmem => hboth.2 (by simp [hmem])
      have hs : ofChar '\'' ∉ v := fun hmem => hquotes ⟨hmem, hd⟩
      rw [hwhole, if_pos hboth, body_congr hs hd hr, ← hown]
      exact ⟨_, body_mem_storedOf hv r, List.infix_refl _⟩

/-! ### Sessions -/

lemma exists_decomposition {st : Session}
    (h : ((machine isPrintable).restrict EncodableCall).Reachable st) (text : PyStr) :
    st.redactor.values = stored isPrintable st.registered ∧ [] ∉ st.redactor.values ∧
      ∃ segs last, source segs last = text ∧
        (redact text st.redactor).1 = .ok (masked mask segs last) ∧
        LeftmostLongest {w | w ∈ st.redactor.values} segs last := by
  have hinv := (inv_invariant isPrintable).reachable h
  have hnil : [] ∉ st.redactor.values := by
    rw [hinv.values]
    exact nil_notMem_stored isPrintable hinv.encodable
  obtain ⟨segs, last, hsrc, hsub, hll⟩ := substitute_alternatives hnil mask text
  refine ⟨hinv.values, hnil, segs, last, hsrc, ?_, hll⟩
  rw [(redact_run hinv.pattern text).1, hsub]

lemma hidden_of_quoteSafe {st : Session}
    (h : ((machine isPrintable).restrict EncodableCall).Reachable st) (hmem : v ∈ st.registered)
    (hv : Encodable v) (hsafe : QuoteSafe isPrintable v) (r : Rendering) (p s text : PyStr) :
    Hidden st text (body isPrintable (quote r (p ++ v ++ s)) r v) := by
  obtain ⟨hvalues, hnil, segs, last, hsrc, hrun, hll⟩ := exists_decomposition h text
  obtain ⟨w, hw, hinside⟩ := exists_stored_inside hv hsafe r p s
  have hstored : w ∈ st.redactor.values := by
    rw [hvalues]
    exact Finset.mem_biUnion.2 ⟨v, hmem, hw⟩
  have hne : w ≠ [] := fun he => hnil (he ▸ hstored)
  obtain ⟨hsegs, hlast⟩ := hll.not_infix hstored hne
  exact ⟨segs, last, hsrc, hrun, hll, fun seg hseg hform => hsegs seg hseg (hinside.trans hform),
    fun hform => hlast (hinside.trans hform)⟩

/-! ### Double quotes -/

lemma mem_chars {d : Char} {l : List Char} : ofChar d ∈ chars l ↔ d ∈ l := by
  refine List.mem_map_of_injective fun c c' h => ?_
  have hval : (ofChar c).val = (ofChar c').val := congrArg Fin.val h
  exact Char.toNat_inj.1 hval

lemma double_notMem_hex (width n : ℕ) : '"' ∉ hex width n := by
  intro h
  obtain ⟨i, -, hi⟩ := List.mem_map.1 h
  have hlt : n / 16 ^ i % 16 < 16 := Nat.mod_lt _ (by omega)
  have hall : ∀ k : Fin 16, hexDigit k ≠ '"' := by decide
  exact hall ⟨_, hlt⟩ hi

lemma double_notMem_escape {width n : ℕ} {l : String} (hl : ofChar '"' ∉ lit l) :
    ofChar '"' ∉ lit l ++ chars (hex width n) := by
  rw [List.mem_append, not_or]
  exact ⟨hl, fun h => double_notMem_hex width n (mem_chars.1 h)⟩

lemma double_notMem_reprEscape {n : ℕ} {e : PyStr} (hn : n ≠ 0x22) (h : reprEscape q n = some e) :
    ofChar '"' ∉ e := by
  unfold reprEscape at h
  split_ifs at h with h₁ h₂ h₃ h₄ h₅ h₆
  · obtain rfl := Option.some.inj h
    decide
  · obtain rfl := Option.some.inj h
    intro hmem
    rcases List.mem_cons.1 hmem with hslash | hmem
    · exact absurd hslash (by decide)
    · rw [h₂, ← List.mem_singleton.1 hmem] at hn
      exact hn rfl
  · obtain rfl := Option.some.inj h
    decide
  · obtain rfl := Option.some.inj h
    decide
  · obtain rfl := Option.some.inj h
    decide
  · obtain rfl := Option.some.inj h
    exact double_notMem_escape (by decide)

lemma double_notMem_reprChar (hc : c ≠ ofChar '"') : ofChar '"' ∉ reprChar isPrintable q c := by
  have hn : c.val ≠ 0x22 := fun h => hc (Fin.ext h)
  unfold reprChar
  split
  · exact double_notMem_reprEscape hn ‹_›
  · split_ifs
    · exact fun h => hc (List.mem_singleton.1 h).symm
    · exact double_notMem_escape (by decide)
    · exact double_notMem_escape (by decide)
    · exact double_notMem_escape (by decide)

lemma double_notMem_bytesReprByte {b : UInt8} (hb : b.toNat ≠ 0x22) :
    ofChar '"' ∉ bytesReprByte q b := by
  unfold bytesReprByte
  split
  · exact double_notMem_reprEscape hb ‹_›
  · split_ifs with hlt
    · intro h
      have hval := congrArg Fin.val (List.mem_singleton.1 h)
      rw [val_double] at hval
      have hmod : (Fin.ofNat 0x110000 b.toNat).val = b.toNat := Nat.mod_eq_of_lt (by omega)
      exact hb (hmod.symm.trans hval.symm)
    · exact double_notMem_escape (by decide)

lemma double_notMem_jsonChar (hc : c ≠ ofChar '"') : '"' ∉ jsonChar c := by
  have hn : c.val ≠ 0x22 := fun h => hc (Fin.ext h)
  have hunicode : ∀ n, '"' ∉ jsonUnicode n := by
    intro n h
    have hhex := double_notMem_hex 4 n
    simp only [jsonUnicode, List.mem_cons] at h
    rcases h with h | h | h
    · exact absurd h (by decide)
    · exact absurd h (by decide)
    · exact hhex h
  unfold jsonChar
  dsimp only
  split
  · next e he =>
    unfold jsonEscape at he
    split_ifs at he <;> obtain rfl := Option.some.inj he <;> decide
  · split_ifs with hprintable
    · intro h
      have heq := congrArg ofChar (List.mem_singleton.1 h)
      rw [Json.ofChar_ofNat hprintable.2] at heq
      exact hc heq.symm
    · exact hunicode _
    · intro h
      rcases List.mem_append.1 h with h | h
      · exact hunicode _ h
      · exact hunicode _ h

/-- Without double quotes in a text there are none in its bodies. -/
lemma double_notMem_body (ht : ofChar '"' ∉ t) : ofChar '"' ∉ body isPrintable q r t := by
  have hne : ∀ c ∈ t, c ≠ ofChar '"' := fun c hc he => ht (he ▸ hc)
  cases r with
  | repr =>
    intro h
    obtain ⟨c, hc, h⟩ := List.mem_flatMap.1 h
    exact double_notMem_reprChar (hne c hc) h
  | bytesRepr =>
    intro h
    obtain ⟨b, hb, h⟩ := List.mem_flatMap.1 h
    refine double_notMem_bytesReprByte (fun he => ht ?_) h
    exact (mem_encoded (by omega) _ val_double).1 (he ▸ List.mem_map_of_mem hb)
  | json =>
    intro h
    obtain ⟨c, hc, h⟩ := List.mem_flatMap.1 (mem_chars.1 h)
    exact double_notMem_jsonChar (hne c hc) h
  | php =>
    intro h
    obtain ⟨c, hc, h⟩ := List.mem_flatMap.1 h
    -- an escape of PHP adds backslashes only
    have hcd : c = ofChar '"' := by
      split_ifs at h
      · exact absurd h (by decide)
      · exact (List.mem_singleton.1 h).symm
    obtain ⟨d, hd, hc⟩ := List.mem_flatMap.1 hc
    rw [hcd] at hc
    split_ifs at hc
    · exact absurd hc (by decide)
    · exact hne d hd (List.mem_singleton.1 hc).symm

/-- Without double quotes in a credential there are none in what is stored for it. -/
lemma double_notMem_storedOf (hv : ofChar '"' ∉ v) (hne : v ≠ []) (hw : w ∈ storedOf isPrintable v) :
    ofChar '"' ∉ w := by
  obtain ⟨u, hu, hw⟩ := Finset.mem_biUnion.1 hw
  have hu' : ofChar '"' ∉ u := fun h => hv ((mem_variants hu hne).2 _ h)
  obtain ⟨b, hb⟩ : ∃ b, encode u = some b := by
    cases hb : encode u with
    | none =>
      rw [renderingsOf, hb] at hw
      exact absurd hw (Finset.notMem_empty _)
    | some b => exact ⟨b, rfl⟩
  rw [renderingsOf, hb] at hw
  unfold encode at hb
  split_ifs at hb
  obtain rfl := Option.some.inj hb
  rcases mem_renderings.1 hw with rfl | ⟨r, rfl⟩
  · exact hu'
  · exact double_notMem_body hu'

/-! ### Credentials that are not quote-safe -/

/-- Between double quotes the form of a credential with single quotes stands intact if no stored
rendering occurs in it. -/
lemma not_hidden_between {st : Session} (hvalues : st.redactor.values = storedOf isPrintable v)
    (hd : ofChar '"' ∉ v) (hne : v ≠ []) {form a b : PyStr}
    (hform : ∀ w ∈ storedOf isPrintable v, ¬ w <:+: form) :
    ¬ Hidden st (a ++ ofChar '"' :: (form ++ ofChar '"' :: b)) form := by
  rintro ⟨segs, last, hsrc, -, hll, hsegs, hlast⟩
  rw [hvalues] at hll
  have hdouble : ∀ w ∈ {w | w ∈ storedOf isPrintable v}, ofChar '"' ∉ w := fun w hw =>
    double_notMem_storedOf hd hne hw
  rcases inside_gap hdouble hform hll hsrc with ⟨seg, hseg, hinside⟩ | hinside
  · exact hsegs seg hseg hinside
  · exact hlast hinside

/-- The session with one credential. -/
def single (isPrintable : PyChar → Bool) (v : PyStr) : Session :=
  Session.step isPrintable {} (.register sortedOrder [some v])

lemma single_reachable (hv : Encodable v) :
    ((machine isPrintable).restrict EncodableCall).Reachable (single isPrintable v) := by
  refine .step (l := .register sortedOrder [some v]) (.init rfl) ⟨fun value hmem => ?_, rfl⟩
  obtain rfl : value = v := by simpa using hmem
  exact hv

lemma single_registered (hblank : strip v ≠ []) : (single isPrintable v).registered = {v} := by
  ext value
  simp only [single, Session.step, Finset.empty_union, mem_nonBlank, List.mem_singleton,
    Option.some.injEq, Finset.mem_singleton]
  constructor
  · exact fun h => h.1
  · rintro rfl
    exact ⟨rfl, hblank⟩

lemma encodable_lit {l : String} (h : (lit l).all (fun c => !isSurrogate c) = true) :
    Encodable (lit l) := fun c hc => by simpa using List.all_eq_true.1 h c hc

/-- Between double quotes a credential is rendered between them. -/
lemma render_between (hv : Encodable v) (hr : r = .repr ∨ r = .bytesRepr) : ∃ a b,
    render isPrintable r (lit "\"" ++ v ++ lit "\"") =
      some (a ++ ofChar '"' :: (body isPrintable (quote r (lit "\"" ++ v ++ lit "\"")) r v ++
        ofChar '"' :: b)) ∧
    quote r (lit "\"" ++ v ++ lit "\"") = ofChar '\'' := by
  -- the text has double quotes, so it is put between single ones
  have hquote : quote r (lit "\"" ++ v ++ lit "\"") = ofChar '\'' := by
    rw [quote_eq hr, if_neg]
    exact fun h => h.2 (by simp [lit])
  have hdouble : body isPrintable (ofChar '\'') r (lit "\"") = [ofChar '"'] := by
    rcases hr with rfl | rfl <;> rfl
  have hencodable : Encodable (lit "\"" ++ v ++ lit "\"") := by
    have hlit : Encodable (lit "\"") := encodable_lit (by decide)
    intro c hc
    rcases List.mem_append.1 hc with hc | hc
    · rcases List.mem_append.1 hc with hc | hc
      · exact hlit c hc
      · exact hv c hc
    · exact hlit c hc
  obtain ⟨text, htext⟩ : ∃ text, render isPrintable r (lit "\"" ++ v ++ lit "\"") = some text := by
    rcases hr with rfl | rfl
    · exact ⟨_, rfl⟩
    · rw [render, encode_eq hencodable]
      exact ⟨_, rfl⟩
  have hbody := render_eq htext
  rw [body_append, body_append, hquote, hdouble] at hbody
  refine ⟨opening (ofChar '\'') r, closing (ofChar '\'') r, ?_, hquote⟩
  rw [htext, hbody, hquote]
  simp

lemma quoteSafe_of_hidden (hv : Encodable v) (hblank : strip v ≠ [])
    (h : ∀ r p s text, render isPrintable r (p ++ v ++ s) = some text →
      Hidden (single isPrintable v) text (body isPrintable (quote r (p ++ v ++ s)) r v)) :
    QuoteSafe isPrintable v := by
  intro _ hd r hmem
  have hr : r = .repr ∨ r = .bytesRepr := by simpa using hmem
  have hne : v ≠ [] := by
    rintro rfl
    exact hblank rfl
  have hvalues : (single isPrintable v).redactor.values = storedOf isPrintable v := by
    rw [(exists_decomposition (single_reachable hv) []).1, single_registered hblank, stored,
      Finset.singleton_biUnion]
  obtain ⟨a, b, hrender, hquote⟩ : ∃ a b, render isPrintable r (lit "\"" ++ v ++ lit "\"") =
      some (a ++ ofChar '"' :: (body isPrintable (quote r (lit "\"" ++ v ++ lit "\"")) r v ++
        ofChar '"' :: b)) ∧ quote r (lit "\"" ++ v ++ lit "\"") = ofChar '\'' :=
    render_between hv hr
  by_contra hno
  have hhidden := h r (lit "\"") (lit "\"") _ hrender
  rw [hquote] at hhidden
  refine not_hidden_between hvalues hd hne (fun w hw hinside => hno ⟨w, hw, ?_⟩) hhidden
  exact hinside

/-- In every session in which a credential is registered, and whatever surrounds it in a larger
value that is rendered, its form never stands intact, exactly if it is quote-safe. -/
theorem embedded_hidden_iff (isPrintable : PyChar → Bool) {v : PyStr} (hv : Encodable v)
    (hblank : strip v ≠ []) :
    (∀ st, ((machine isPrintable).restrict EncodableCall).Reachable st → v ∈ st.registered →
      ∀ r p s text, render isPrintable r (p ++ v ++ s) = some text →
        Hidden st text (body isPrintable (quote r (p ++ v ++ s)) r v)) ↔
      QuoteSafe isPrintable v := by
  constructor
  · intro h
    refine quoteSafe_of_hidden hv hblank (h _ (single_reachable hv) ?_)
    rw [single_registered hblank]
    exact Finset.mem_singleton_self v
  · intro hsafe st hreach hmem r p s text _
    exact hidden_of_quoteSafe hreach hmem hv hsafe r p s text

/-- A password in an error message that is logged through `repr`. -/
theorem embedded_hidden_password :
    Hidden (single isAsciiPrintable (lit "hunter2")) (lit "\"can't use hunter2\"")
      (lit "hunter2") := by
  have hv : Encodable (lit "hunter2") := encodable_lit (by decide)
  refine (embedded_hidden_iff isAsciiPrintable hv (by decide)).2 ?_ _ (single_reachable hv) ?_ .repr
    (lit "can't use ") [] _ (by decide)
  · exact fun h => absurd h (by decide)
  · rw [single_registered (by decide)]
    exact Finset.mem_singleton_self _

/-- A credential with a single quote and a line break, between double quotes. -/
theorem not_embedded_hidden : ¬ ∀ v, Encodable v → strip v ≠ [] → ∀ st,
    ((machine isAsciiPrintable).restrict EncodableCall).Reachable st → v ∈ st.registered →
    ∀ r p s text, render isAsciiPrintable r (p ++ v ++ s) = some text →
      Hidden st text (body isAsciiPrintable (quote r (p ++ v ++ s)) r v) := by
  intro h
  have hv : Encodable (lit "it's\nx") := encodable_lit (by decide)
  have hblank : strip (lit "it's\nx") ≠ [] := by decide
  have hsafe : QuoteSafe isAsciiPrintable (lit "it's\nx") := by
    refine quoteSafe_of_hidden hv hblank (h _ hv hblank _ (single_reachable hv) ?_)
    rw [single_registered hblank]
    exact Finset.mem_singleton_self _
  have hnot : ¬ QuoteSafe isAsciiPrintable (lit "it's\nx") := by decide +kernel
  exact hnot hsafe

end Redactor
end MediawikiCharm
