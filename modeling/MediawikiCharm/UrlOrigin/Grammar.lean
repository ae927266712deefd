/-
The grammar of the origin of the wiki.

An origin of the form `[http:|https:]//host[:port]` is accepted and returned as it is.  The
validator accepts more: the values whose parts are accepted though one of them deviates from the
grammar.
-/
import MediawikiCharm.UrlOrigin.Values

namespace MediawikiCharm
namespace UrlOrigin

open PyText PyAddress PyUrl Split

/-- A control character. -/
def isControl (c : PyChar) : Bool := c.val < 0x20 || (0x7f ≤ c.val && c.val ≤ 0x9f)

/-- No user name, query, fragment or path, no whitespace and no control character. -/
structure IsClean (w : PyStr) : Prop where
  chars : ∀ c ∈ w, c ∉ [ofChar '@', ofChar '?', ofChar '#'] ∧ isSpace c = false ∧
    isControl c = false
  slashes : ∃ a b, w = a ++ lit "//" ++ b ∧ ofChar '/' ∉ a ∧ ofChar '/' ∉ b

/-- The validator accepts the value exactly if it is blank or an origin, and returns it stripped
and clean. -/
structure FollowsGrammar (u : UnicodeData) (v : PyStr) : Prop where
  accepts : (∃ w, validateUrlOrigin u v = .ok w) ↔ strip v = [] ∨ IsOrigin (strip v)
  returns : ∀ w, validateUrlOrigin u v = .ok w → w = strip v ∧ (w ≠ [] → IsClean w)

/-- A part deviates from the grammar, or some characters are dropped to find the parts. -/
def Parts.Deviates (p : Parts) (w : PyStr) : Prop :=
  cleaned w ≠ w ∨ p.userinfo ≠ [] ∨ p.tail ≠ [] ∨ p.port = lit ":" ∨ kelvin ∈ p.host ∨
    ofChar '%' ∈ p.host ∨ lit "[v" <+: p.host

/-- An origin whose port has more digits than `int` reads. -/
def HasLongPort (w : PyStr) : Prop :=
  ∃ scheme host digits, IsScheme scheme ∧ IsHost host ∧ (∀ c ∈ digits, isDigit c = true) ∧
    decimal digits ≤ 65535 ∧ maxStrDigits < digits.length ∧
    w = scheme ++ lit "//" ++ host ++ ofChar ':' :: digits

/-! ### Names in lower case -/

lemma isAlnum_lowerChar {c : PyChar} (hc : c ≠ kelvin) : isAlnum (lowerChar c) = isAlnum c := by
  rw [Bool.eq_iff_iff]
  simp only [isAlnum, isAlpha, isDigit, lowerChar_val, if_neg hc, Bool.or_eq_true,
    Bool.and_eq_true, decide_eq_true_eq]
  split_ifs <;> omega

lemma lowerChar_dash {c : PyChar} : lowerChar c = ofChar '-' ↔ c = ofChar '-' :=
  lowerChar_eq_iff (by decide)

lemma all_congr_mem {α : Type} {l : List α} {p q : α → Bool} (h : ∀ a ∈ l, p a = q a) :
    l.all p = l.all q := by
  rw [Bool.eq_iff_iff, List.all_eq_true, List.all_eq_true]
  exact forall₂_congr fun a ha => by rw [h a ha]

lemma isLabel_map {label : PyStr} (h : kelvin ∉ label) :
    isLabel (label.map lowerChar) = isLabel label := by
  have hne : ∀ c ∈ label, c ≠ kelvin := fun c hc hck => h (hck ▸ hc)
  have hoption : ∀ o : Option PyChar, (∀ c ∈ o, c ∈ label) →
      (o.map lowerChar).any isAlnum = o.any isAlnum := by
    intro o ho
    cases o with
    | none => rfl
    | some c => exact isAlnum_lowerChar (hne c (ho c rfl))
  have hall : (label.map lowerChar).all (fun c => isAlnum c || c = ofChar '-') =
      label.all fun c => isAlnum c || c = ofChar '-' := by
    rw [List.all_map]
    refine all_congr_mem fun c hc => ?_
    simp only [Function.comp, isAlnum_lowerChar (hne c hc), lowerChar_dash]
  rw [isLabel, isLabel, hall, List.head?_map, List.getLast?_map,
    hoption _ fun c hc => List.mem_of_mem_head? hc, hoption _ fun c hc => List.mem_of_getLast? hc]

/-- Without the Kelvin sign a name is one in any case. -/
lemma isName_map {host : PyStr} (h : kelvin ∉ host) :
    IsName (host.map lowerChar) ↔ IsName host := by
  have hdns : isDnsName (host.map lowerChar) = isDnsName host := by
    rw [isDnsName, isDnsName, splitOn_map fun c => lowerChar_dot, List.all_map]
    refine all_congr_mem fun label hlabel => ?_
    exact isLabel_map fun hc => h (mem_of_mem_splitOn hlabel hc)
  unfold IsName
  rw [hdns]
  refine or_congr_right ⟨isIPv4Address_of_lower, fun hv4 => ?_⟩
  rwa [map_lowerChar_of_isIPv4Address hv4]

lemma looseHost_of_isHost {host : PyStr} (h : IsHost host) : LooseHost host := by
  rcases h with h | ⟨address, ha, rfl⟩
  · refine .name ((isName_map fun hmem => ?_).2 h)
    have hascii := lt_of_isNameChar (mem_of_isName h _ hmem)
    rw [kelvin_val] at hascii
    omega
  · exact .address ha

/-! ### Characters of an origin -/

/-- A character of an origin. -/
def isOriginChar (c : PyChar) : Bool :=
  isSchemeChar c || isAddressChar c || c = ofChar '/' || c = ofChar '[' || c = ofChar ']'

/-- What the characters of an origin are not. -/
lemma isOriginChar_facts {c : PyChar} (h : isOriginChar c = true) :
    c.val < 0x80 ∧ 0x20 < c.val ∧ c.val ≠ 0x7f ∧
      c ∉ [ofChar '@', ofChar '?', ofChar '#', ofChar '%'] := by
  have hval : ∀ d, c = ofChar d → c.val = d.toNat := fun d hd => hd ▸ rfl
  have hrange : 0x2b ≤ c.val ∧ c.val ≤ 0x3a ∨ 0x41 ≤ c.val ∧ c.val ≤ 0x5d ∨
      0x61 ≤ c.val ∧ c.val ≤ 0x7a := by
    simp only [isOriginChar, isSchemeChar, isAddressChar, isAlpha, isHexDigit, isDigit,
      Bool.or_eq_true, Bool.and_eq_true, decide_eq_true_eq] at h
    rcases h with (((((((h | h) | h) | h) | h) | (h | h) | h) | h) | h) | h
    · omega
    · omega
    · exact .inl (by rw [hval _ h]; decide)
    · exact .inl (by rw [hval _ h]; decide)
    · exact .inl (by rw [hval _ h]; decide)
    · omega
    · exact .inl (by rw [hval _ h]; decide)
    · exact .inl (by rw [hval _ h]; decide)
    · exact .inl (by rw [hval _ h]; decide)
    · exact .inr (.inl (by rw [hval _ h]; decide))
    · exact .inr (.inl (by rw [hval _ h]; decide))
  refine ⟨by omega, by omega, by omega, ?_⟩
  simp only [List.mem_cons, List.not_mem_nil, or_false]
  rintro (h | h | h | h)
  · rw [hval _ h] at hrange
    exact absurd hrange (by decide)
  · rw [hval _ h] at hrange
    exact absurd hrange (by decide)
  · rw [hval _ h] at hrange
    exact absurd hrange (by decide)
  · rw [hval _ h] at hrange
    exact absurd hrange (by decide)

lemma isOriginChar_of_isNameChar {c : PyChar} (h : isNameChar c = true) : isOriginChar c = true := by
  simp only [isNameChar, isAlnum, isOriginChar, isSchemeChar, Bool.or_eq_true] at h ⊢
  tauto

lemma isOriginChar_of_isAddressChar {c : PyChar} (h : isAddressChar c = true) :
    isOriginChar c = true := by
  simp [isOriginChar, h]

lemma mem_of_isHost {host : PyStr} (h : IsHost host) : ∀ c ∈ host, isOriginChar c = true := by
  intro c hc
  rcases h with h | ⟨address, ha, rfl⟩
  · exact isOriginChar_of_isNameChar (mem_of_isName h c hc)
  · rcases List.mem_append.1 hc with hc | hc
    · rcases List.mem_cons.1 hc with rfl | hc
      · decide
      · exact isOriginChar_of_isAddressChar (mem_of_isIPv6 ha c hc)
    · obtain rfl := List.mem_singleton.1 hc
      decide

lemma mem_of_isPort {port : PyStr} (h : IsPort port) : ∀ c ∈ port, isOriginChar c = true := by
  rcases h with rfl | ⟨digits, -, hall, -, rfl⟩
  · exact nofun
  · refine List.forall_mem_cons.2 ⟨by decide, fun c hc => ?_⟩
    exact isOriginChar_of_isAddressChar (isAddressChar_of_isDigit (hall c hc))

lemma mem_of_isScheme {scheme : PyStr} (h : IsScheme scheme) :
    ∀ c ∈ scheme, isSchemeChar c = true ∨ c = ofChar ':' := by
  by_cases hne : scheme = []
  · rw [hne]
    exact nofun
  · obtain ⟨name, rfl, -, hall, -⟩ := exists_of_isScheme h hne
    intro c hc
    rcases List.mem_append.1 hc with hc | hc
    · exact .inl (List.all_eq_true.1 hall c hc)
    · exact .inr (List.mem_singleton.1 hc)

lemma mem_of_isOrigin {w : PyStr} (h : IsOrigin w) : ∀ c ∈ w, isOriginChar c = true := by
  obtain ⟨scheme, host, port, hscheme, hhost, hport, rfl⟩ := h
  intro c hc
  simp only [List.mem_append] at hc
  rcases hc with ((hc | hc) | hc) | hc
  · rcases mem_of_isScheme hscheme c hc with hchar | rfl
    · simp [isOriginChar, hchar]
    · decide
  · have hslash : c = ofChar '/' := by simpa [lit] using hc
    rw [hslash]
    decide
  · exact mem_of_isHost hhost c hc
  · exact mem_of_isPort hport c hc

/-- Nothing of an origin is dropped. -/
lemma cleaned_of_isOrigin {w : PyStr} (h : IsOrigin w) : cleaned w = w := by
  have hchars := mem_of_isOrigin h
  have hdrop : (w.dropWhile fun c => decide (c.val ≤ 0x20)) = w := by
    cases w with
    | nil => rfl
    | cons c t =>
      have hc := (isOriginChar_facts (hchars c List.mem_cons_self)).2.1
      rw [List.dropWhile_cons, if_neg]
      simpa using hc
  rw [cleaned, hdrop, List.filter_eq_self]
  intro c hc
  have hlow := (isOriginChar_facts (hchars c hc)).2.1
  have htab : (ofChar '\t').val = 0x9 := rfl
  have hcr : (ofChar '\r').val = 0xd := rfl
  have hlf : (ofChar '\n').val = 0xa := rfl
  simp only [isUnsafe, Bool.not_eq_true', Bool.or_eq_false_iff, decide_eq_false_iff_not]
  refine ⟨⟨?_, ?_⟩, ?_⟩
  · rintro rfl
    omega
  · rintro rfl
    omega
  · rintro rfl
    omega

lemma isClean_of_isOrigin {w : PyStr} (h : IsOrigin w) : IsClean w := by
  constructor
  · intro c hc
    obtain ⟨hascii, hlow, hdel, hmem⟩ := isOriginChar_facts (mem_of_isOrigin h c hc)
    simp only [List.mem_cons, List.not_mem_nil, or_false, not_or] at hmem
    refine ⟨by simp [hmem], ?_, ?_⟩
    · rw [← Bool.not_eq_true]
      simp only [isSpace, Bool.or_eq_true, Bool.and_eq_true, decide_eq_true_eq, beq_iff_eq]
      omega
    · rw [← Bool.not_eq_true]
      simp only [isControl, Bool.or_eq_true, Bool.and_eq_true, decide_eq_true_eq]
      omega
  · obtain ⟨scheme, host, port, hscheme, hhost, hport, rfl⟩ := h
    refine ⟨scheme, host ++ port, by rw [List.append_assoc], fun hmem => ?_, fun hmem => ?_⟩
    · rcases mem_of_isScheme hscheme _ hmem with hchar | hcolon
      · exact absurd hchar (by decide)
      · exact absurd hcolon (by decide)
    · rcases List.mem_append.1 hmem with hmem | hmem
      · exact not_mem_looseHost (looseHost_of_isHost hhost) (by decide) hmem
      · rcases hport with rfl | ⟨digits, -, hall, -, rfl⟩
        · exact absurd hmem List.not_mem_nil
        · rcases List.mem_cons.1 hmem with hmem | hmem
          · exact absurd hmem (by decide)
          · exact absurd (hall _ hmem) (by decide)

/-! ### Origins are accepted -/

variable {u : UnicodeData} {v w : PyStr} {p : Parts}

lemma ascii_of_isOrigin (h : IsOrigin w) : ∀ c ∈ w, c.val < 0x80 := fun c hc =>
  (isOriginChar_facts (mem_of_isOrigin h c hc)).1

/-- An origin is read as it is, unless its port has too many digits. -/
lemma reads_of_isOrigin (h : IsOrigin w) (hport : ¬ HasLongPort w) : ∃ p, Reads u w p := by
  have hclean := cleaned_of_isOrigin h
  have hascii := ascii_of_isOrigin h
  obtain ⟨scheme, host, port, hscheme, hhost, hp, rfl⟩ := h
  have hloosePort : LoosePort port := by
    rcases hp with rfl | ⟨digits, hne, hall, hvalue, rfl⟩
    · exact .inl rfl
    · refine .inr ⟨digits, hall, ?_, hvalue, rfl⟩
      by_contra hlong
      exact hport ⟨scheme, host, digits, hscheme, hhost, hall, hvalue, by omega, rfl⟩
  refine ⟨⟨scheme, [], host, port, []⟩, ⟨hscheme, List.mem_cons_self, looseHost_of_isHost hhost,
    hloosePort, List.mem_cons_self, ?_⟩, ?_, ?_⟩
  · rw [checkNetloc, List.all_eq_true.2, Bool.true_or]
    intro c hc
    refine decide_eq_true (hascii c ?_)
    simp only [Parts.netloc, List.nil_append, List.mem_append] at hc ⊢
    tauto
  · rw [hclean]
    simp [Parts.text, Parts.netloc]
  · rintro rfl
    exact ⟨host ++ port, by simp⟩

/-- Parts that do not deviate are those of an origin. -/
lemma isOrigin_of_reads (h : Reads u w p) (hp : ¬ p.Deviates w) : IsOrigin w := by
  obtain ⟨scheme, userinfo, host, port, tail⟩ := p
  obtain ⟨haccepted, htext, -⟩ := h
  simp only [Parts.Deviates, not_or, not_not] at hp
  obtain ⟨hclean, huser, htail, hport, hkelvin, hpercent, hfuture⟩ := hp
  refine ⟨scheme, host, port, haccepted.scheme, ?_, ?_, ?_⟩
  · have hhost : LooseHost host := haccepted.host
    cases hhost with
    | name hname => exact .inl ((isName_map hkelvin).1 hname)
    | address ha => exact .inr ⟨_, ha, rfl⟩
    | zoned ha hne hscope => simp at hpercent
    | future hf hd =>
      obtain ⟨rest, rfl⟩ := future_head hf
      exact absurd ⟨rest ++ [ofChar ']'], rfl⟩ hfuture
  · rcases haccepted.port with hnone | ⟨digits, hall, -, hvalue, hsome⟩
    · exact .inl hnone
    · refine .inr ⟨digits, ?_, hall, hvalue, hsome⟩
      rintro rfl
      exact hport hsome
  · rw [← hclean, htext, Parts.text, Parts.netloc, huser, htail]
    simp

/-! ### Deviating values are no origins -/

/-- The last character of an origin belongs to the host or is a digit of the port. -/
lemma getLast_of_isOrigin (h : IsOrigin w) : w.getLast? ≠ some (ofChar ':') := by
  obtain ⟨scheme, host, port, hscheme, hhost, hport, rfl⟩ := h
  intro hlast
  rcases hport with rfl | ⟨digits, hne, hall, -, rfl⟩
  · rw [List.append_nil] at hlast
    rcases hhost with hname | ⟨address, ha, rfl⟩
    · rw [List.getLast?_append_of_ne_nil _ (isName_ne_nil hname)] at hlast
      exact absurd (mem_of_isName hname _ (List.mem_of_getLast? hlast)) (by decide)
    · rw [← List.append_assoc, List.getLast?_concat] at hlast
      exact absurd hlast (by decide)
  · have hdigits : (ofChar ':' :: digits).getLast? = digits.getLast? := by
      cases digits with
      | nil => exact absurd rfl hne
      | cons c digits => rfl
    rw [List.getLast?_append_of_ne_nil _ (List.cons_ne_nil _ _), hdigits] at hlast
    exact absurd (hall _ (List.mem_of_getLast? hlast)) (by decide)

/-- An origin with brackets has no `v`. -/
lemma not_mem_v_of_isOrigin (h : IsOrigin w) (hopen : ofChar '[' ∈ w) : ofChar 'v' ∉ w := by
  obtain ⟨scheme, host, port, hscheme, hhost, hport, rfl⟩ := h
  have hschemeChar : ∀ {d : PyChar}, isSchemeChar d = false → d ≠ ofChar ':' → d ∉ scheme := by
    intro d hd hne hmem
    rcases mem_of_isScheme hscheme d hmem with hchar | hcolon
    · exact absurd (hchar.symm.trans hd) nofun
    · exact hne hcolon
  have hportChar : ∀ {d : PyChar}, isDigit d = false → d ≠ ofChar ':' → d ∉ port := by
    intro d hd hne hmem
    rcases hport with rfl | ⟨digits, -, hall, -, rfl⟩
    · exact List.not_mem_nil hmem
    · rcases List.mem_cons.1 hmem with hcolon | hmem
      · exact hne hcolon
      · exact absurd ((hall d hmem).symm.trans hd) nofun
  have hnoV : ofChar 'v' ∉ scheme := by
    intro hmem
    have hlower : lowerChar (ofChar 'v') ∈ scheme.map lowerChar := List.mem_map_of_mem hmem
    rcases hscheme with rfl | hhttp | hhttps
    · exact List.not_mem_nil hmem
    · rw [hhttp] at hlower
      exact absurd hlower (by decide)
    · rw [hhttps] at hlower
      exact absurd hlower (by decide)
  simp only [List.mem_append] at hopen ⊢
  have hhostOpen : ofChar '[' ∈ host := by
    rcases hopen with ((hopen | hopen) | hopen) | hopen
    · exact absurd hopen (hschemeChar (by decide) (by decide))
    · exact absurd hopen (by decide)
    · exact hopen
    · exact absurd hopen (hportChar (by decide) (by decide))
  rcases hhost with hname | ⟨address, ha, rfl⟩
  · exact absurd (mem_of_isName hname _ hhostOpen) (by decide)
  · rintro (((hmem | hmem) | hmem) | hmem)
    · exact hnoV hmem
    · exact absurd hmem (by decide)
    · rcases List.mem_append.1 hmem with hmem | hmem
      · rcases List.mem_cons.1 hmem with hmem | hmem
        · exact absurd hmem (by decide)
        · exact absurd (mem_of_isIPv6 ha _ hmem) (by decide)
      · exact absurd hmem (by decide)
    · exact hportChar (by decide) (by decide) hmem

lemma not_isOrigin_of_deviates (h : Reads u w p) (hp : p.Deviates w) : ¬ IsOrigin w := by
  intro horigin
  obtain ⟨haccepted, htext, -⟩ := h
  have hclean := cleaned_of_isOrigin horigin
  rw [hclean] at htext
  have hnot : ∀ d ∈ [ofChar '@', ofChar '?', ofChar '#', ofChar '%'], d ∉ w := fun d hd hmem =>
    (isOriginChar_facts (mem_of_isOrigin horigin d hmem)).2.2.2 hd
  have hmem : ∀ c, c ∈ p.userinfo ∨ c ∈ p.host ∨ c ∈ p.tail → c ∈ w := by
    intro c hc
    rw [htext]
    simp only [Parts.text, Parts.netloc, List.mem_append]
    tauto
  have huserinfo : p.userinfo = [] := by
    have hui := haccepted.userinfo
    simp only [IsEmptyUserinfo, List.mem_cons, List.not_mem_nil, or_false] at hui
    rcases hui with hui | hui | hui
    · exact hui
    · exact absurd (hmem (ofChar '@') (.inl (by rw [hui]; decide))) (hnot _ (by decide))
    · exact absurd (hmem (ofChar '@') (.inl (by rw [hui]; decide))) (hnot _ (by decide))
  have htail : p.tail = [] := by
    have ht := haccepted.tail
    simp only [IsEmptyTail, List.mem_cons, List.not_mem_nil, or_false] at ht
    rcases ht with ht | ht | ht | ht
    · exact ht
    · exact absurd (hmem (ofChar '?') (.inr (.inr (by rw [ht]; decide)))) (hnot _ (by decide))
    · exact absurd (hmem (ofChar '#') (.inr (.inr (by rw [ht]; decide)))) (hnot _ (by decide))
    · exact absurd (hmem (ofChar '?') (.inr (.inr (by rw [ht]; decide)))) (hnot _ (by decide))
  rcases hp with hp | hp | hp | hp | hp | hp | hp
  · exact hp hclean
  · exact hp huserinfo
  · exact hp htail
  · refine getLast_of_isOrigin horigin ?_
    rw [htext, Parts.text, Parts.netloc, htail, hp, List.append_nil, ← List.append_assoc,
      ← List.append_assoc, ← List.append_assoc]
    exact List.getLast?_concat
  · have hascii := ascii_of_isOrigin horigin _ (hmem _ (.inr (.inl hp)))
    rw [kelvin_val] at hascii
    omega
  · exact hnot _ (by decide) (hmem _ (.inr (.inl hp)))
  · have hsub := hp.subset
    exact not_mem_v_of_isOrigin horigin (hmem _ (.inr (.inl (hsub (by decide)))))
      (hmem _ (.inr (.inl (hsub (by decide)))))

lemma Reads.ne_nil (h : Reads u w p) : w ≠ [] := by
  rintro rfl
  have htext : [] = p.text := h.2.1
  rw [Parts.text] at htext
  exact absurd (List.append_eq_nil_iff.1 htext.symm).2 (List.cons_ne_nil _ _)

lemma HasLongPort.ne_nil (h : HasLongPort w) : w ≠ [] := by
  obtain ⟨scheme, host, digits, -, -, -, -, -, rfl⟩ := h
  exact List.append_ne_nil_of_right_ne_nil _ (List.cons_ne_nil _ _)

lemma isOrigin_of_hasLongPort (h : HasLongPort w) : IsOrigin w := by
  obtain ⟨scheme, host, digits, hscheme, hhost, hall, hvalue, hlong, rfl⟩ := h
  refine ⟨scheme, host, ofChar ':' :: digits, hscheme, hhost, .inr ⟨digits, ?_, hall, hvalue, rfl⟩,
    rfl⟩
  rintro rfl
  exact absurd hlong (by decide)

/-- What stands behind the last colon. -/
lemma rtakeWhile_colon {a b : PyStr} (hb : ofChar ':' ∉ b) :
    (a ++ ofChar ':' :: b).rtakeWhile (· ≠ ofChar ':') = b := by
  refine rtakeWhile_append_cons (by simp) fun c hc => decide_eq_true ?_
  rintro rfl
  exact hb hc

lemma rtakeWhile_append {a b : PyStr} (hb : ofChar ':' ∉ b) :
    (a ++ b).rtakeWhile (· ≠ ofChar ':') = a.rtakeWhile (· ≠ ofChar ':') ++ b := by
  have hall : ∀ c ∈ b.reverse, decide (c ≠ ofChar ':') = true := fun c hc =>
    decide_eq_true fun he => hb (he ▸ List.mem_reverse.1 hc)
  rw [List.rtakeWhile, List.rtakeWhile, List.reverse_append, List.takeWhile_append_of_pos hall,
    List.reverse_append, List.reverse_reverse]

/-- The parts of a value with too long a port end in that port. -/
lemma not_reads_of_hasLongPort (h : HasLongPort w) : ¬ Reads u w p := by
  intro hp
  have horigin := isOrigin_of_hasLongPort h
  have hdeviates : ¬ p.Deviates w := fun hd => not_isOrigin_of_deviates hp hd horigin
  obtain ⟨start, host', digits, -, -, hall, -, hlong, hw⟩ := h
  have hcolon : ofChar ':' ∉ digits := fun hmem => absurd (hall _ hmem) (by decide)
  have hlast := rtakeWhile_colon (a := start ++ lit "//" ++ host') hcolon
  rw [← hw] at hlast
  simp only [Parts.Deviates, not_or, not_not] at hdeviates
  obtain ⟨hclean, huser, htail, -⟩ := hdeviates
  obtain ⟨haccepted, htext, -⟩ := hp
  rw [hclean, Parts.text, Parts.netloc, huser, htail, List.nil_append, List.append_nil] at htext
  rcases haccepted.port with hnone | ⟨ds, hds, hshort, -, hsome⟩
  · -- without a port, the last colon is the one of the scheme or inside brackets
    rw [hnone, List.append_nil] at htext
    have hslash : (p.scheme ++ (lit "//" ++ p.host)) =
        (p.scheme ++ [ofChar '/']) ++ ofChar '/' :: p.host := by simp [lit]
    have hbracket : ∀ inner, p.host ≠ ofChar '[' :: inner ++ [ofChar ']'] := by
      intro inner hhost
      have hend : w.getLast? = some (ofChar ']') := by
        rw [htext, hhost, ← List.append_assoc, ← List.append_assoc]
        exact List.getLast?_concat
      have hne : digits ≠ [] := by
        rintro rfl
        exact absurd hlong (by decide)
      have hdigit : ofChar ']' ∈ digits := by
        rw [hw, List.getLast?_append_of_ne_nil _ (List.cons_ne_nil _ _),
          ← List.singleton_append, List.getLast?_append_of_ne_nil _ hne] at hend
        exact List.mem_of_getLast? hend
      exact absurd (hall _ hdigit) (by decide)
    have hname : ofChar ':' ∉ ofChar '/' :: p.host := by
      obtain ⟨scheme, userinfo, host, port, tail⟩ := p
      have hhost : LooseHost host := haccepted.host
      cases hhost with
      | name hname =>
        refine List.not_mem_cons_of_ne_of_not_mem (by decide) ?_
        exact not_mem_of_isName_lower hname (by decide) (by decide)
      | address => exact absurd rfl (hbracket _)
      | zoned => exact absurd rfl (hbracket _)
      | future => exact absurd rfl (hbracket _)
    rw [htext, hslash, rtakeWhile_append hname] at hlast
    have hmem : ofChar '/' ∈ digits := by
      rw [← hlast]
      simp
    exact absurd (hall _ hmem) (by decide)
  · have hcolon' : ofChar ':' ∉ ds := fun hmem => absurd (hds _ hmem) (by decide)
    rw [htext, hsome, ← List.append_assoc, ← List.append_assoc, rtakeWhile_colon hcolon'] at hlast
    rw [hlast] at hshort
    omega

/-- The validator follows the grammar for a value exactly if the stripped value has no parts of
which one deviates, and no port that is too long. -/
theorem followsGrammar_iff (u : UnicodeData) (v : PyStr) : FollowsGrammar u v ↔
    (∀ p, Reads u (strip v) p → ¬ p.Deviates (strip v)) ∧ ¬ HasLongPort (strip v) := by
  constructor
  · rintro ⟨haccepts, -⟩
    have haccepted : ∀ p, Reads u (strip v) p → strip v = [] ∨ IsOrigin (strip v) := fun p hp =>
      haccepts.1 ⟨_, validateUrlOrigin_eq_ok_iff.2 ⟨rfl, .inr ⟨p, hp⟩⟩⟩
    refine ⟨fun p hp hdeviates => ?_, fun hlong => ?_⟩
    · rcases haccepted p hp with hnil | horigin
      · exact hp.ne_nil hnil
      · exact not_isOrigin_of_deviates hp hdeviates horigin
    · obtain ⟨w, hw⟩ := haccepts.2 (.inr (isOrigin_of_hasLongPort hlong))
      obtain ⟨-, hnil | ⟨p, hp⟩⟩ := validateUrlOrigin_eq_ok_iff.1 hw
      · exact hlong.ne_nil hnil
      · exact not_reads_of_hasLongPort hlong hp
  · rintro ⟨hparts, hlong⟩
    have horigin : ∀ p, Reads u (strip v) p → IsOrigin (strip v) := fun p hp =>
      isOrigin_of_reads hp (hparts p hp)
    refine ⟨⟨?_, ?_⟩, ?_⟩
    · rintro ⟨w, hw⟩
      obtain ⟨-, hnil | ⟨p, hp⟩⟩ := validateUrlOrigin_eq_ok_iff.1 hw
      · exact .inl hnil
      · exact .inr (horigin p hp)
    · rintro (hnil | ho)
      · exact ⟨_, validateUrlOrigin_eq_ok_iff.2 ⟨rfl, .inl hnil⟩⟩
      · exact ⟨_, validateUrlOrigin_eq_ok_iff.2 ⟨rfl, .inr (reads_of_isOrigin ho hlong)⟩⟩
    · intro w hw
      obtain ⟨rfl, hcases⟩ := validateUrlOrigin_eq_ok_iff.1 hw
      refine ⟨rfl, fun hne => ?_⟩
      obtain ⟨p, hp⟩ := hcases.resolve_left hne
      exact isClean_of_isOrigin (horigin p hp)

/-- The tables of the Unicode database, restricted to ASCII and the Kelvin sign. -/
def asciiUnicode : UnicodeData where
  lower s := s.map lowerChar
  isSafeUnderNfkc _ := true
  lower_ascii _ _ := rfl
  ascii_of_lower _ h c hc := lt_of_lowerChar (h _ (List.mem_map_of_mem hc))
  mem_of_mem_lower _ d hd _ := .inl (by simpa using hd)

/-- An origin with an empty query is accepted. -/
theorem not_followsGrammar_query : ¬ FollowsGrammar asciiUnicode (lit "//wiki.example.com?") := by
  intro h
  have hrun : validateUrlOrigin asciiUnicode (lit "//wiki.example.com?") =
      .ok (lit "//wiki.example.com?") := rfl
  have hclean := (h.returns _ hrun).2 (by decide)
  exact (hclean.chars (ofChar '?') (by decide)).1 (by decide)

end UrlOrigin
end MediawikiCharm
