/-
The origin of the wiki (`state.py`).

The validator looks at what `urlparse` makes of the value and returns the value itself.  What
`urlparse` drops, and every component that is present but empty, is therefore accepted: a tab
inside the value, a `?` at its end, an `@` in front of the host.  A network location in brackets
may have a scope identifier, which is any text.
-/
import MediawikiCharm.Exceptions
import MediawikiCharm.Lib.PyUrl

namespace MediawikiCharm
namespace UrlOrigin

open PyText PyAddress PyUrl Split

/-! ### The validator -/

/-- A letter or digit of ASCII. -/
def isAlnum (c : PyChar) : Bool := isAlpha c || isDigit c

/-- `[a-zA-Z0-9]|[a-zA-Z0-9][a-zA-Z0-9\-]*[a-zA-Z0-9]` -/
def isLabel (label : PyStr) : Bool :=
  label.head?.any isAlnum && label.getLast?.any isAlnum &&
    label.all fun c => isAlnum c || c = ofChar '-'

/-- Labels with dots between them. -/
def isDnsName (s : PyStr) : Bool := (s.splitOn (ofChar '.')).all isLabel

/-- `hostname_regex.match`: the `$` also matches in front of a line break at the end. -/
def matchesHostname (s : PyStr) : Bool :=
  isDnsName s || (s.getLast? = some (ofChar '\n') && isDnsName s.dropLast)

/-- `validate_url_origin` -/
def validateUrlOrigin (u : UnicodeData) (v : PyStr) : Except Exc PyStr :=
  let v := strip v
  if v = [] then .ok []
  else
    match urlparse u v with
    | none => .error (.other "ValueError")
    | some parsed =>
      if ¬ lit "//" <+: v ∧ parsed.scheme ∉ [lit "http", lit "https"] then
        .error (.other "url-origin must be protocol relative or specify either http:// or https://")
      else if parsed.path ≠ [] ∨ parsed.params ≠ [] ∨ parsed.query ≠ [] ∨ parsed.fragment ≠ [] ∨
          parsed.username.getD [] ≠ [] ∨ parsed.password.getD [] ≠ [] then
        .error (.other "url-origin has unexpected components")
      else if !parsed.isPortValid then .error (.other "Could not parse url-origin")
      else
        match parsed.hostname u with
        | none => .error (.other "Could not parse url-origin")
        | some hostname =>
          if isAddress hostname then .ok (strip v)
          else if matchesHostname hostname then .ok (strip v)
          else .error (.other "url-origin hostname is not valid")

/-! ### The grammar -/

/-- A host name or an address of version 4. -/
def IsName (host : PyStr) : Prop := isDnsName host = true ∨ isIPv4Address host = true

/-- No scheme, or `http:` or `https:` in any case. -/
def IsScheme (scheme : PyStr) : Prop :=
  scheme = [] ∨ scheme.map lowerChar = lit "http:" ∨ scheme.map lowerChar = lit "https:"

/-- A name, or an address of version 6 in brackets. -/
def IsHost (host : PyStr) : Prop :=
  IsName host ∨ ∃ address, isIPv6 address = true ∧ host = ofChar '[' :: address ++ [ofChar ']']

/-- No port, or one of at most 65535. -/
def IsPort (port : PyStr) : Prop :=
  port = [] ∨ ∃ digits, digits ≠ [] ∧ (∀ c ∈ digits, isDigit c = true) ∧ decimal digits ≤ 65535 ∧
    port = ofChar ':' :: digits

/-- `[http:|https:]//host[:port]` -/
def IsOrigin (w : PyStr) : Prop :=
  ∃ scheme host port, IsScheme scheme ∧ IsHost host ∧ IsPort port ∧
    w = scheme ++ lit "//" ++ host ++ port

/-! ### What is accepted -/

/-- The hosts that are accepted: the Kelvin sign may stand for a `k`, an address of version 6 may
have a scope identifier, and a future address that reads as a name may stand in brackets. -/
inductive LooseHost : PyStr → Prop
  | name {host : PyStr} (h : IsName (host.map lowerChar)) : LooseHost host
  | address {address : PyStr} (ha : isIPv6 address = true) :
    LooseHost (ofChar '[' :: address ++ [ofChar ']'])
  | zoned {address scope : PyStr} (ha : isIPv6 address = true) (hne : scope ≠ [])
      (hscope : ∀ c ∈ scope, c ∉ [ofChar '%', ofChar ']'] ∧ c ∉ [ofChar '@', ofChar '/', ofChar '?',
        ofChar '#']) : LooseHost (ofChar '[' :: (address ++ ofChar '%' :: scope) ++ [ofChar ']'])
  | future {name : PyStr} (hf : isFutureAddress name = true)
      (hd : isDnsName (name.map lowerChar) = true) :
    LooseHost (ofChar '[' :: name ++ [ofChar ']'])

/-- The ports that are accepted: the digits may be missing, and `int` has to read them. -/
def LoosePort (port : PyStr) : Prop :=
  port = [] ∨ ∃ digits, (∀ c ∈ digits, isDigit c = true) ∧ digits.length ≤ maxStrDigits ∧
    decimal digits ≤ 65535 ∧ port = ofChar ':' :: digits

/-- The parts of a value. -/
structure Parts where
  scheme : PyStr
  userinfo : PyStr
  host : PyStr
  port : PyStr
  tail : PyStr

namespace Parts

variable (p : Parts)

/-- The network location. -/
def netloc : PyStr := p.userinfo ++ (p.host ++ p.port)

/-- The parts, one behind the other. -/
def text : PyStr := p.scheme ++ (lit "//" ++ (p.netloc ++ p.tail))

/-- The parts are accepted: the user name, the password, the port, the query and the fragment may
be there and empty. -/
structure Accepted (u : UnicodeData) : Prop where
  scheme : IsScheme p.scheme
  userinfo : IsEmptyUserinfo p.userinfo
  host : LooseHost p.host
  port : LoosePort p.port
  tail : IsEmptyTail p.tail
  netloc : checkNetloc u p.netloc = true

end Parts

/-- What is left of the value after some characters are dropped has parts that are accepted. -/
def Reads (u : UnicodeData) (w : PyStr) (p : Parts) : Prop :=
  p.Accepted u ∧ cleaned w = p.text ∧ (p.scheme = [] → lit "//" <+: w)

/-! ### Characters of names -/

/-- A character of a name. -/
def isNameChar (c : PyChar) : Bool := isAlnum c || c = ofChar '-' || c = ofChar '.'

lemma mem_of_isDnsName {s : PyStr} (h : isDnsName s = true) : ∀ c ∈ s, isNameChar c = true := by
  intro c hc
  by_cases hdot : c = ofChar '.'
  · simp [isNameChar, hdot]
  · obtain ⟨label, hlabel, hmem⟩ := mem_splitOn hc hdot
    have hall := List.all_eq_true.1 h label hlabel
    rw [isLabel, Bool.and_eq_true, Bool.and_eq_true] at hall
    have hchar := List.all_eq_true.1 hall.2 c hmem
    rw [isNameChar, hchar, Bool.true_or]

lemma mem_of_isName {s : PyStr} (h : IsName s) : ∀ c ∈ s, isNameChar c = true := by
  rcases h with h | h
  · exact mem_of_isDnsName h
  · intro c hc
    rcases mem_of_isIPv4Address h c hc with hdigit | hdot
    · simp [isNameChar, isAlnum, hdigit]
    · simp [isNameChar, hdot]

lemma isName_ne_nil {s : PyStr} (h : IsName s) : s ≠ [] := by
  rintro rfl
  rcases h with h | h
  · exact absurd h (by decide)
  · exact absurd h (by decide)

lemma lt_of_isNameChar {c : PyChar} (h : isNameChar c = true) : c.val < 0x80 := by
  have hdash : (ofChar '-').val = 0x2d := rfl
  have hdot : (ofChar '.').val = 0x2e := rfl
  simp only [isNameChar, isAlnum, isAlpha, isDigit, Bool.or_eq_true, Bool.and_eq_true,
    decide_eq_true_eq] at h
  rcases h with ((h | h) | rfl) | rfl
  · omega
  · omega
  · omega
  · omega

lemma lt_of_isAddressChar {c : PyChar} (h : isAddressChar c = true) : c.val < 0x80 := by
  have hcolon : (ofChar ':').val = 0x3a := rfl
  have hdot : (ofChar '.').val = 0x2e := rfl
  simp only [isAddressChar, isHexDigit, isDigit, Bool.or_eq_true, Bool.and_eq_true,
    decide_eq_true_eq] at h
  rcases h with (h | rfl) | rfl
  · omega
  · omega
  · omega

lemma lt_of_lowerChar {c : PyChar} (h : (lowerChar c).val < 0x80) : c.val < 0x80 ∨ c = kelvin := by
  rw [lowerChar_val] at h
  split_ifs at h with hk hc
  · exact .inr hk
  · exact .inl (by omega)
  · exact .inl h

/-! ### The host name in lower case -/

section Lower

variable {u : UnicodeData} {host : PyStr}

/-- `hostname` of a host -/
def hostnameOf (u : UnicodeData) (host : PyStr) : PyStr :=
  u.lower (before (ofChar '%') host) ++ host.dropWhile (· ≠ ofChar '%')

/-- No character that is not a letter comes up in lower case. -/
lemma not_mem_lower {s : PyStr} {d : PyChar} (hd : d.val < 0x41 ∨ 0x5a < d.val ∧ d.val < 0x61)
    (hs : d ∉ s) : d ∉ u.lower s := by
  intro h
  rcases u.mem_of_mem_lower s d h (by omega) with ⟨c, hc, hcd⟩ | hi
  · rw [lowerChar_eq_iff (by omega)] at hcd
    exact hs (hcd ▸ hc)
  · have hval : (ofChar 'i').val = 0x69 := rfl
    rw [hi] at hd
    omega

lemma before_hostnameOf : before (ofChar '%') (hostnameOf u host) =
    u.lower (before (ofChar '%') host) := by
  have hlower : ofChar '%' ∉ u.lower (before (ofChar '%') host) :=
    not_mem_lower (by decide) not_mem_before
  unfold hostnameOf
  cases hrest : host.dropWhile (· ≠ ofChar '%') with
  | nil => rw [List.append_nil, before_of_not_mem hlower]
  | cons c t =>
    have hhead := List.head?_dropWhile_not (· ≠ ofChar '%') host
    rw [hrest] at hhead
    obtain rfl : c = ofChar '%' := by simpa using hhead
    rw [before_append hlower]

/-- A host without a scope that has only ASCII characters in lower case. -/
lemma hostnameOf_eq (hpercent : ofChar '%' ∉ host)
    (hascii : ∀ c ∈ host, c.val < 0x80 ∨ c = kelvin) : hostnameOf u host = host.map lowerChar := by
  have hdrop : host.dropWhile (· ≠ ofChar '%') = [] := by
    refine List.dropWhile_eq_nil_iff.2 fun c hc => decide_eq_true ?_
    rintro rfl
    exact hpercent hc
  rw [hostnameOf, hdrop, List.append_nil, before_of_not_mem hpercent, u.lower_ascii _ hascii]

lemma hostnameOf_of_nameChars (h : ∀ c ∈ hostnameOf u host, isNameChar c = true) :
    hostnameOf u host = host.map lowerChar := by
  have hpercent : ofChar '%' ∉ host := by
    intro hmem
    have hdrop : ofChar '%' ∈ host.dropWhile (· ≠ ofChar '%') := by
      obtain ⟨a, b, rfl, ha⟩ := List.eq_append_cons_of_mem hmem
      have hall : ∀ c ∈ a, decide (c ≠ ofChar '%') = true := fun c hc =>
        decide_eq_true fun he => ha (he ▸ hc)
      rw [List.dropWhile_append_of_pos hall]
      simp
    exact absurd (h _ (List.mem_append_right _ hdrop)) (by decide)
  refine hostnameOf_eq hpercent fun c hc => ?_
  refine u.ascii_of_lower host (fun d hd => lt_of_isNameChar (h d ?_)) c hc
  refine List.mem_append_left _ ?_
  rwa [before_of_not_mem hpercent]

lemma matchesHostname_iff (hline : ofChar '\n' ∉ host) :
    matchesHostname (hostnameOf u host) = true ↔ isDnsName (hostnameOf u host) = true := by
  rw [matchesHostname, Bool.or_eq_true, Bool.and_eq_true, decide_eq_true_eq]
  refine or_iff_left fun h => ?_
  rcases List.mem_append.1 (List.mem_of_getLast? h.1) with hmem | hmem
  · refine not_mem_lower (by decide) (fun hb => hline ?_) hmem
    exact (List.takeWhile_prefix _).subset hb
  · exact hline ((List.dropWhile_suffix _).subset hmem)

/-- What the validator says of a host without brackets, as far as it is no address of version 6. -/
lemma isName_of_accepted (hline : ofChar '\n' ∉ host)
    (h : isAddress (hostnameOf u host) = true ∨ matchesHostname (hostnameOf u host) = true) :
    IsName (host.map lowerChar) ∨ isIPv6Address (hostnameOf u host) = true := by
  rw [isAddress, Bool.or_eq_true, matchesHostname_iff hline] at h
  rcases h with (h | h) | h
  · have hname : IsName (hostnameOf u host) := .inr h
    exact .inl (hostnameOf_of_nameChars (mem_of_isName hname) ▸ hname)
  · exact .inr h
  · have hname : IsName (hostnameOf u host) := .inl h
    exact .inl (hostnameOf_of_nameChars (mem_of_isName hname) ▸ hname)

lemma accepted_of_isName (h : IsName (host.map lowerChar)) : hostnameOf u host = host.map lowerChar ∧
    (isAddress (hostnameOf u host) = true ∨ matchesHostname (hostnameOf u host) = true) := by
  have hchars := mem_of_isName h
  have hpercent : ofChar '%' ∉ host := by
    intro hmem
    exact absurd (hchars _ (List.mem_map_of_mem hmem)) (by decide)
  have hsame : hostnameOf u host = host.map lowerChar := hostnameOf_eq hpercent fun c hc =>
    lt_of_lowerChar (lt_of_isNameChar (hchars _ (List.mem_map_of_mem hc)))
  refine ⟨hsame, ?_⟩
  rw [hsame]
  rcases h with h | h
  · right
    rw [matchesHostname, h, Bool.true_or]
  · left
    rw [isAddress, h, Bool.true_or]

/-- The characters of an address of version 6 in lower case. -/
lemma ascii_of_isIPv6Address (h : isIPv6Address (hostnameOf u host) = true) :
    ∀ c ∈ before (ofChar '%') host, (c.val < 0x80 ∨ c = kelvin) ∧
      isAddressChar (lowerChar c) = true := by
  rw [isIPv6Address, Bool.and_eq_true, Bool.and_eq_true, before_hostnameOf] at h
  have hchars := mem_of_isIPv6 h.1.2
  have hascii := u.ascii_of_lower _ fun c hc => lt_of_isAddressChar (hchars c hc)
  rw [u.lower_ascii _ hascii] at hchars
  exact fun c hc => ⟨hascii c hc, hchars _ (List.mem_map_of_mem hc)⟩

/-- An address of version 6 is one in lower case. -/
lemma isAddress_hostnameOf (h : isIPv6Address host = true) :
    isAddress (hostnameOf u host) = true := by
  rw [isIPv6Address, Bool.and_eq_true, Bool.and_eq_true, decide_eq_true_eq] at h
  obtain ⟨⟨hslash, hv6⟩, hscope⟩ := h
  have hlower : u.lower (before (ofChar '%') host) = (before (ofChar '%') host).map lowerChar :=
    u.lower_ascii _ fun c hc => .inl (lt_of_isAddressChar (mem_of_isIPv6 hv6 c hc))
  have hslash' : ofChar '/' ∉ hostnameOf u host := by
    intro hmem
    rcases List.mem_append.1 hmem with hmem | hmem
    · refine not_mem_lower (by decide) (fun hb => hslash ?_) hmem
      exact (List.takeWhile_prefix _).subset hb
    · exact hslash ((List.dropWhile_suffix _).subset hmem)
  have hafter : ofChar '%' ∉ hostnameOf u host ∧ ofChar '%' ∉ host ∨
      after (ofChar '%') (hostnameOf u host) = after (ofChar '%') host ∧ ofChar '%' ∈ host := by
    have hnot : ofChar '%' ∉ u.lower (before (ofChar '%') host) :=
      not_mem_lower (by decide) not_mem_before
    by_cases hpercent : ofChar '%' ∈ host
    · right
      refine ⟨?_, hpercent⟩
      obtain ⟨a, b, rfl, ha⟩ := List.eq_append_cons_of_mem hpercent
      have hall : ∀ c ∈ a, decide (c ≠ ofChar '%') = true := fun c hc =>
        decide_eq_true fun he => ha (he ▸ hc)
      have hdrop : (a ++ ofChar '%' :: b).dropWhile (· ≠ ofChar '%') = ofChar '%' :: b := by
        rw [List.dropWhile_append_of_pos hall]
        simp
      rw [hostnameOf, hdrop, after_append hnot, after_append ha]
    · left
      refine ⟨fun hmem => ?_, hpercent⟩
      rcases List.mem_append.1 hmem with hmem | hmem
      · exact hnot hmem
      · exact hpercent ((List.dropWhile_suffix _).subset hmem)
  rw [isAddress, isIPv6Address, before_hostnameOf, hlower, isIPv6_lower hv6, Bool.or_eq_true,
    Bool.and_eq_true, Bool.and_eq_true, decide_eq_true_eq]
  refine .inr ⟨⟨hslash', rfl⟩, ?_⟩
  rcases hafter with ⟨hnot, -⟩ | ⟨hafter, hpercent⟩
  · simp [hnot]
  · rw [hafter]
    simp only [hpercent, not_true_eq_false, decide_false, Bool.false_or] at hscope
    rw [hscope, Bool.or_true]

end Lower

end UrlOrigin
end MediawikiCharm
