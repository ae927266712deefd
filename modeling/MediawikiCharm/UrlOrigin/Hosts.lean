/-
Hosts and ports of the origin of the wiki.

The tests on the parsed value say what the host and the port look like in its text.  The host name
that `urlparse` returns is in lower case and without brackets.
-/
import MediawikiCharm.UrlOrigin

namespace MediawikiCharm
namespace UrlOrigin

open PyText PyAddress PyUrl Split

/-! ### Hosts and ports that are accepted -/

lemma loosePort_iff {port : PyStr} : LoosePort port ↔
    (port = [] ∨ port.head? = some (ofChar ':')) ∧ (after (ofChar ':') port = [] ∨
      (after (ofChar ':') port).all isDigit = true ∧
        (after (ofChar ':') port).length ≤ maxStrDigits ∧
        decimal (after (ofChar ':') port) ≤ 65535) := by
  cases port with
  | nil => exact ⟨fun _ => ⟨.inl rfl, .inl rfl⟩, fun _ => .inl rfl⟩
  | cons c digits =>
    constructor
    · rintro (h | ⟨digits', hall, hlength, hvalue, h⟩)
      · exact absurd h (List.cons_ne_nil _ _)
      · rw [h, after_self]
        exact ⟨.inr rfl, .inr ⟨List.all_eq_true.2 hall, hlength, hvalue⟩⟩
    · rintro ⟨hhead, hdigits⟩
      obtain rfl : c = ofChar ':' := by simpa using hhead
      rw [after_self] at hdigits
      rcases hdigits with rfl | ⟨hall, hlength, hvalue⟩
      · exact .inr ⟨[], nofun, by decide, by decide, rfl⟩
      · exact .inr ⟨digits, List.all_eq_true.1 hall, hlength, hvalue, rfl⟩

variable {u : UnicodeData} {r : ParseResult} {userinfo info : PyStr}

lemma isPortValid_iff {host port : PyStr} (h : r.hostinfo = (host, port)) :
    r.isPortValid = true ↔ port = [] ∨
      port.all isDigit = true ∧ port.length ≤ maxStrDigits ∧ decimal port ≤ 65535 := by
  rw [ParseResult.isPortValid, h]
  simp only [Bool.or_eq_true, Bool.and_eq_true, decide_eq_true_eq, and_assoc]

/-- The host is accepted. -/
def AcceptsHost (u : UnicodeData) (r : ParseResult) : Prop :=
  ∃ hostname, r.hostname u = some hostname ∧
    (isAddress hostname = true ∨ matchesHostname hostname = true)

lemma acceptsHost_iff {host port : PyStr} (h : r.hostinfo = (host, port)) : AcceptsHost u r ↔
    host ≠ [] ∧ (isAddress (hostnameOf u host) = true ∨
      matchesHostname (hostnameOf u host) = true) := by
  rw [AcceptsHost, ParseResult.hostname, h]
  dsimp only
  split_ifs with hhost
  · exact iff_of_false nofun fun hne => hne.1 hhost
  · constructor
    · rintro ⟨hostname, heq, haccepted⟩
      obtain rfl := Option.some.inj heq
      exact ⟨hhost, haccepted⟩
    · exact fun haccepted => ⟨_, rfl, haccepted.2⟩

/-- A host without brackets is accepted if it is a name. -/
lemma acceptsHost_name_iff {host port : PyStr} (h : r.hostinfo = (host, port))
    (hcolon : ofChar ':' ∉ host) (hline : ofChar '\n' ∉ host) :
    AcceptsHost u r ↔ IsName (host.map lowerChar) := by
  rw [acceptsHost_iff h]
  constructor
  · rintro ⟨-, haccepted⟩
    refine (isName_of_accepted hline haccepted).resolve_right fun hv6 => ?_
    rw [isIPv6Address, Bool.and_eq_true, Bool.and_eq_true, before_hostnameOf] at hv6
    have hmem := colon_mem_of_isIPv6 hv6.1.2
    exact not_mem_lower (by decide) (fun hb => hcolon ((List.takeWhile_prefix _).subset hb)) hmem
  · intro hname
    refine ⟨?_, (accepted_of_isName hname).2⟩
    rintro rfl
    exact isName_ne_nil hname rfl

lemma future_head {host : PyStr} (h : isFutureAddress host = true) :
    ∃ rest, host = ofChar 'v' :: rest := by
  cases host with
  | nil => exact absurd h nofun
  | cons v rest =>
    simp only [isFutureAddress, Bool.and_eq_true, decide_eq_true_eq] at h
    exact ⟨rest, by rw [h.1.1.1.1]⟩

lemma ipv6_before {host : PyStr} (h : isIPv6Address host = true) :
    isIPv6 (before (ofChar '%') host) = true := by
  rw [isIPv6Address, Bool.and_eq_true, Bool.and_eq_true] at h
  exact h.1.2

lemma not_ipv4_of_ipv6 {host : PyStr} (h : isIPv6Address host = true) :
    isIPv4Address host = false := by
  by_contra hv4
  rw [Bool.not_eq_false] at hv4
  have hcolon : ofChar ':' ∈ host :=
    (List.takeWhile_prefix _).subset (colon_mem_of_isIPv6 (ipv6_before h))
  rcases mem_of_isIPv4Address hv4 _ hcolon with hdigit | hdot
  · exact absurd hdigit (by decide)
  · exact absurd hdot (by decide)

lemma head_ne_v {host : PyStr} (h : isIPv6Address host = true) :
    host.head? ≠ some (ofChar 'v') := by
  intro hhead
  cases host with
  | nil => exact absurd hhead nofun
  | cons c rest =>
    obtain rfl : c = ofChar 'v' := by simpa using hhead
    have hmem : ofChar 'v' ∈ before (ofChar '%') (ofChar 'v' :: rest) := by
      rw [before_cons (by decide)]
      exact List.mem_cons_self
    exact absurd (mem_of_isIPv6 (ipv6_before h) _ hmem) (by decide)

/-- A host in brackets is accepted if it is an address of version 6, or a future one that reads
as a name. -/
lemma acceptsHost_bracketed_iff {host port : PyStr} (h : r.hostinfo = (host, port))
    (hline : ofChar '\n' ∉ host) : isBracketedHost host = true ∧ AcceptsHost u r ↔
      isIPv6Address host = true ∨
        isFutureAddress host = true ∧ isDnsName (host.map lowerChar) = true := by
  rw [acceptsHost_iff h]
  constructor
  · rintro ⟨hbracket, -, haccepted⟩
    unfold isBracketedHost at hbracket
    split_ifs at hbracket with hv
    · obtain ⟨rest, rfl⟩ := future_head hbracket
      refine .inr ⟨hbracket, ?_⟩
      have hmem : ofChar 'v' ∈ before (ofChar '%') (ofChar 'v' :: rest) := by
        rw [before_cons (by decide)]
        exact List.mem_cons_self
      rcases isName_of_accepted hline haccepted with (hdns | hv4) | hv6
      · exact hdns
      · rcases mem_of_isIPv4Address hv4 _ (List.mem_cons_self) with hdigit | hdot
        · exact absurd hdigit (by decide)
        · exact absurd hdot (by decide)
      · exact absurd (ascii_of_isIPv6Address hv6 _ hmem).2 (by decide)
    · rw [Bool.and_eq_true] at hbracket
      exact .inl hbracket.2
  · rintro (hv6 | ⟨hfuture, hdns⟩)
    · refine ⟨?_, ?_, .inl (isAddress_hostnameOf hv6)⟩
      · rw [isBracketedHost, if_neg (head_ne_v hv6), not_ipv4_of_ipv6 hv6, hv6]
        rfl
      · rintro rfl
        exact absurd hv6 (by decide)
    · obtain ⟨rest, rfl⟩ := future_head hfuture
      refine ⟨?_, List.cons_ne_nil _ _, (accepted_of_isName (.inl hdns)).2⟩
      rw [isBracketedHost, List.head?_cons, if_pos rfl, hfuture]

/-- An address of version 6 has a scope identifier, or none. -/
lemma isIPv6Address_iff {host : PyStr} (hends : ∀ c ∈ host, endsNetloc c = false)
    (hat : ofChar '@' ∉ host) (hclose : ofChar ']' ∉ host) : isIPv6Address host = true ↔
      isIPv6 host = true ∨ ∃ address scope, isIPv6 address = true ∧ scope ≠ [] ∧
        (∀ c ∈ scope, c ∉ [ofChar '%', ofChar ']'] ∧ c ∉ [ofChar '@', ofChar '/', ofChar '?',
          ofChar '#']) ∧ host = address ++ ofChar '%' :: scope := by
  have hslash : ofChar '/' ∉ host := fun h => absurd (hends _ h) (by decide)
  rw [isIPv6Address, Bool.and_eq_true, Bool.and_eq_true, decide_eq_true_eq, Bool.or_eq_true,
    decide_eq_true_eq, Bool.and_eq_true, decide_eq_true_eq, decide_eq_true_eq]
  constructor
  · rintro ⟨⟨-, hv6⟩, hscope⟩
    by_cases hpercent : ofChar '%' ∈ host
    · right
      obtain ⟨hne, hone⟩ := hscope.resolve_left fun h => h hpercent
      have hsplit := before_append_after hpercent
      refine ⟨_, _, hv6, hne, fun c hc => ?_, hsplit.symm⟩
      have hmem : c ∈ host := hsplit ▸ List.mem_append_right _ (List.mem_cons_of_mem _ hc)
      have hcends := hends c hmem
      simp only [endsNetloc, Bool.or_eq_false_iff, decide_eq_false_iff_not] at hcends
      simp only [List.mem_cons, List.not_mem_nil, or_false, not_or]
      refine ⟨⟨fun h => hone (h ▸ hc), fun h => hclose (h ▸ hmem)⟩, fun h => hat (h ▸ hmem), ?_⟩
      exact ⟨hcends.1.1, hcends.1.2, hcends.2⟩
    · left
      rwa [before_of_not_mem hpercent] at hv6
  · rintro (hv6 | ⟨address, scope, hv6, hne, hscope, rfl⟩)
    · have hpercent : ofChar '%' ∉ host := fun h => absurd (mem_of_isIPv6 hv6 _ h) (by decide)
      rw [before_of_not_mem hpercent]
      exact ⟨⟨hslash, hv6⟩, .inl hpercent⟩
    · have hpercent : ofChar '%' ∉ address := fun h => absurd (mem_of_isIPv6 hv6 _ h) (by decide)
      rw [before_append hpercent, after_append hpercent]
      refine ⟨⟨hslash, hv6⟩, .inr ⟨hne, fun h => (hscope _ h).1 ?_⟩⟩
      exact List.mem_cons_self

/-- What a name in lower case does not contain, the name does not contain. -/
lemma not_mem_of_isName_lower {host : PyStr} (h : IsName (host.map lowerChar)) {d : PyChar}
    (hd : d.val < 0x41 ∨ 0x5a < d.val ∧ d.val < 0x61) (hname : isNameChar d = false) :
    d ∉ host := by
  intro hmem
  have hlower : lowerChar d = d := (lowerChar_eq_iff (by omega)).2 rfl
  have hchar := mem_of_isName h _ (List.mem_map_of_mem hmem)
  rw [hlower, hname] at hchar
  exact absurd hchar nofun

lemma mem_loosePort {port : PyStr} (h : LoosePort port) : ∀ c ∈ port, isDigit c = true ∨
    c = ofChar ':' := by
  rcases h with rfl | ⟨digits, hall, -, -, rfl⟩
  · exact nofun
  · exact List.forall_mem_cons.2 ⟨.inr rfl, fun c hc => .inl (hall c hc)⟩

lemma split_at_port {host port : PyStr} (hcolon : ofChar ':' ∉ host) (hport : LoosePort port) :
    before (ofChar ':') (host ++ port) = host ∧
      after (ofChar ':') (host ++ port) = after (ofChar ':') port := by
  rcases hport with rfl | ⟨digits, -, -, -, rfl⟩
  · rw [List.append_nil, before_of_not_mem hcolon, after_of_not_mem hcolon]
    exact ⟨rfl, rfl⟩
  · rw [before_append hcolon, after_append hcolon, after_self]
    exact ⟨rfl, rfl⟩

/-- A network location with a host in brackets. -/
lemma accepts_bracketed_iff (hr : r.netloc = userinfo ++ info) (hui : IsEmptyUserinfo userinfo)
    (hinfo : ofChar '@' ∉ info) (hline : ofChar '\n' ∉ info) {host port : PyStr}
    (h : IsBracketed info host port) :
    acceptsNetloc u r.netloc = true ∧ r.isPortValid = true ∧ AcceptsHost u r ↔
      (isIPv6Address host = true ∨
        isFutureAddress host = true ∧ isDnsName (host.map lowerChar) = true) ∧ LoosePort port ∧
        checkNetloc u r.netloc = true := by
  have hhost := ParseResult.hostinfo_of_bracketed hr hui hinfo h
  have hline' : ofChar '\n' ∉ host := by
    rw [h.1] at hline
    exact fun hmem => hline (List.mem_cons_of_mem _ (List.mem_append_left _ hmem))
  have hport : LoosePort port ↔ r.isPortValid = true := by
    rw [isPortValid_iff hhost, loosePort_iff]
    exact and_iff_right h.2.2
  rw [hr, acceptsNetloc_iff hui hinfo, ← acceptsHost_bracketed_iff hhost hline', hport]
  constructor
  · rintro ⟨⟨hcases, hcheck⟩, hvalid, haccepts⟩
    refine ⟨⟨?_, haccepts⟩, hvalid, hcheck⟩
    rcases hcases with ⟨hopen, -⟩ | ⟨host', port', h', hbracket⟩
    · exact absurd h.parts.1 hopen
    · rwa [← h'.parts.2.2.1, h.parts.2.2.1] at hbracket
  · rintro ⟨⟨hbracket, haccepts⟩, hvalid, hcheck⟩
    exact ⟨⟨.inr ⟨host, port, h, hbracket⟩, hcheck⟩, hvalid, haccepts⟩

/-- A network location without brackets. -/
lemma accepts_name_iff (hr : r.netloc = userinfo ++ info) (hui : IsEmptyUserinfo userinfo)
    (hinfo : ofChar '@' ∉ info) (hline : ofChar '\n' ∉ info)
    (hopen : ofChar '[' ∉ info) (hclose : ofChar ']' ∉ info) :
    acceptsNetloc u r.netloc = true ∧ r.isPortValid = true ∧ AcceptsHost u r ↔
      IsName ((before (ofChar ':') info).map lowerChar) ∧ (after (ofChar ':') info = [] ∨
        (after (ofChar ':') info).all isDigit = true ∧
          (after (ofChar ':') info).length ≤ maxStrDigits ∧
          decimal (after (ofChar ':') info) ≤ 65535) ∧ checkNetloc u r.netloc = true := by
  have hhost := ParseResult.hostinfo_of_not_mem hr hui hinfo hopen
  have hline' : ofChar '\n' ∉ before (ofChar ':') info :=
    fun hmem => hline ((List.takeWhile_prefix _).subset hmem)
  rw [acceptsHost_name_iff hhost not_mem_before hline', isPortValid_iff hhost, hr,
    acceptsNetloc_iff hui hinfo]
  constructor
  · rintro ⟨⟨-, hcheck⟩, hvalid, hname⟩
    exact ⟨hname, hvalid, hcheck⟩
  · rintro ⟨hname, hvalid, hcheck⟩
    exact ⟨⟨.inl ⟨hopen, hclose⟩, hcheck⟩, hvalid, hname⟩

/-- The hosts in brackets that are accepted. -/
lemma looseHost_bracketed_iff {host : PyStr} (hends : ∀ c ∈ host, endsNetloc c = false)
    (hat : ofChar '@' ∉ host) (hclose : ofChar ']' ∉ host) :
    LooseHost (ofChar '[' :: host ++ [ofChar ']']) ↔ isIPv6Address host = true ∨
      isFutureAddress host = true ∧ isDnsName (host.map lowerChar) = true := by
  rw [isIPv6Address_iff hends hat hclose]
  constructor
  · intro h
    generalize htext : ofChar '[' :: host ++ [ofChar ']'] = text at h
    have hcancel : ∀ {host' : PyStr},
        ofChar '[' :: host ++ [ofChar ']'] = ofChar '[' :: host' ++ [ofChar ']'] →
          host = host' := fun he => List.append_cancel_right (List.cons.inj he).2
    cases h with
    | name hname =>
      rw [← htext] at hname
      exact absurd List.mem_cons_self
        (not_mem_of_isName_lower hname (d := ofChar '[') (by decide) (by decide))
    | address ha => exact .inl (.inl (hcancel htext ▸ ha))
    | zoned ha hne hscope => exact .inl (.inr ⟨_, _, ha, hne, hscope, hcancel htext⟩)
    | future hf hd =>
      obtain rfl := hcancel htext
      exact .inr ⟨hf, hd⟩
  · rintro ((ha | ⟨address, scope, ha, hne, hscope, rfl⟩) | ⟨hf, hd⟩)
    · exact .address ha
    · exact .zoned ha hne hscope
    · exact .future hf hd

/-- A network location is accepted, with its host and its port, exactly if it has such parts. -/
lemma acceptsNetloc_parts_iff (hr : r.netloc = userinfo ++ info) (hui : IsEmptyUserinfo userinfo)
    (hinfo : ofChar '@' ∉ info) (hends : ∀ c ∈ info, endsNetloc c = false)
    (hline : ofChar '\n' ∉ info) :
    acceptsNetloc u r.netloc = true ∧ r.isPortValid = true ∧ AcceptsHost u r ↔
      ∃ host port, info = host ++ port ∧ LooseHost host ∧ LoosePort port ∧
        checkNetloc u r.netloc = true := by
  have hbracketed : ∀ {host port : PyStr}, IsBracketed info host port →
      (LooseHost (ofChar '[' :: host ++ [ofChar ']']) ↔ isIPv6Address host = true ∨
        isFutureAddress host = true ∧ isDnsName (host.map lowerChar) = true) := by
    intro host port h
    have hsub : ∀ c ∈ host, c ∈ info := fun c hc => by
      rw [h.1]
      exact List.mem_cons_of_mem _ (List.mem_append_left _ hc)
    exact looseHost_bracketed_iff (fun c hc => hends c (hsub c hc)) (fun hc => hinfo (hsub _ hc))
      h.2.1
  constructor
  · intro haccepts
    have hnetloc := haccepts.1
    rw [hr, acceptsNetloc_iff hui hinfo] at hnetloc
    rcases hnetloc.1 with ⟨hopen, hclose⟩ | ⟨host, port, h, -⟩
    · obtain ⟨hname, hport, hcheck⟩ := (accepts_name_iff hr hui hinfo hline hopen hclose).1 haccepts
      by_cases hcolon : ofChar ':' ∈ info
      · refine ⟨_, _, (before_append_after hcolon).symm, .name hname, loosePort_iff.2 ?_, hcheck⟩
        rw [after_self]
        exact ⟨.inr rfl, hport⟩
      · rw [before_of_not_mem hcolon] at hname
        exact ⟨info, [], (List.append_nil _).symm, .name hname, .inl rfl, hcheck⟩
    · obtain ⟨hhost, hport, hcheck⟩ := (accepts_bracketed_iff hr hui hinfo hline h).1 haccepts
      refine ⟨_, port, ?_, (hbracketed h).2 hhost, hport, hcheck⟩
      rw [h.1]
      simp
  · rintro ⟨host, port, rfl, hhost, hport, hcheck⟩
    have hinside : ∀ {inner : PyStr}, host = ofChar '[' :: inner ++ [ofChar ']'] →
        ofChar ']' ∉ inner → acceptsNetloc u r.netloc = true ∧ r.isPortValid = true ∧
          AcceptsHost u r := by
      rintro inner rfl hclose
      have h : IsBracketed (ofChar '[' :: inner ++ [ofChar ']'] ++ port) inner port := by
        refine ⟨by simp, hclose, ?_⟩
        rcases hport with rfl | ⟨digits, -, -, -, rfl⟩
        · exact .inl rfl
        · exact .inr rfl
      exact (accepts_bracketed_iff hr hui hinfo hline h).2 ⟨(hbracketed h).1 hhost, hport, hcheck⟩
    cases hhost with
    | name hname =>
      have hcolon := not_mem_of_isName_lower hname (d := ofChar ':') (by decide) (by decide)
      have hportChar : ∀ {d : PyChar}, isDigit d = false → d ≠ ofChar ':' → d ∉ port := by
        intro d hd hne hmem
        rcases mem_loosePort hport d hmem with hdigit | rfl
        · exact absurd (hdigit.symm.trans hd) nofun
        · exact hne rfl
      have hopen : ofChar '[' ∉ host ++ port := fun hmem => (List.mem_append.1 hmem).elim
        (not_mem_of_isName_lower hname (by decide) (by decide)) (hportChar (by decide) (by decide))
      have hclose : ofChar ']' ∉ host ++ port := fun hmem => (List.mem_append.1 hmem).elim
        (not_mem_of_isName_lower hname (by decide) (by decide)) (hportChar (by decide) (by decide))
      obtain ⟨hbefore, hafter⟩ := split_at_port hcolon hport
      refine (accepts_name_iff hr hui hinfo hline hopen hclose).2 ?_
      rw [hbefore, hafter]
      exact ⟨hname, (loosePort_iff.1 hport).2, hcheck⟩
    | address ha =>
      exact hinside rfl fun hmem => absurd (mem_of_isIPv6 ha _ hmem) (by decide)
    | zoned ha hne hscope =>
      refine hinside rfl fun hmem => ?_
      rcases List.mem_append.1 hmem with hmem | hmem
      · exact absurd (mem_of_isIPv6 ha _ hmem) (by decide)
      · rcases List.mem_cons.1 hmem with hmem | hmem
        · exact absurd hmem (by decide)
        · exact (hscope _ hmem).1 (List.mem_cons_of_mem _ List.mem_cons_self)
    | future hf hd =>
      exact hinside rfl (not_mem_of_isName_lower (.inl hd) (by decide) (by decide))

end UrlOrigin
end MediawikiCharm
