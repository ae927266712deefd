/-
URLs, as Python's `urllib.parse` splits them.

`urlsplit` drops some characters first: those of C0 and spaces in front, and tabs and line breaks
everywhere.  What stands behind `//` up to the first of `/`, `?` and `#` is the network
location.  A component that is empty and one that is missing look the same in the result.
-/
import MediawikiCharm.Lib.PyAddress

namespace PyUrl

open PyText PyAddress

/-- The tables of the Unicode database that are used. -/
structure UnicodeData where
  /-- `str.lower` -/
  lower : PyStr → PyStr
  /-- No character that is not in ASCII becomes one of `/?#@:` under NFKC. -/
  isSafeUnderNfkc : PyStr → Bool
  lower_ascii : ∀ s, (∀ c ∈ s, c.val < 0x80 ∨ c = kelvin) → lower s = s.map lowerChar
  ascii_of_lower : ∀ s, (∀ c ∈ lower s, c.val < 0x80) → ∀ c ∈ s, c.val < 0x80 ∨ c = kelvin
  /-- A capital `I` with a dot above becomes an `i` and a dot. -/
  mem_of_mem_lower : ∀ s, ∀ d ∈ lower s, d.val < 0x80 → (∃ c ∈ s, lowerChar c = d) ∨ d = ofChar 'i'

/-- The result of `urlparse`. -/
structure ParseResult where
  scheme : PyStr
  netloc : PyStr
  path : PyStr
  params : PyStr
  query : PyStr
  fragment : PyStr

/-- The tab and the line breaks, which are removed. -/
def isUnsafe (c : PyChar) : Bool := c = ofChar '\t' || c = ofChar '\r' || c = ofChar '\n'

/-- What `urlsplit` looks at. -/
def cleaned (url : PyStr) : PyStr :=
  (url.dropWhile fun c => c.val ≤ 0x20).filter fun c => !isUnsafe c

/-- A character of a scheme. -/
def isSchemeChar (c : PyChar) : Bool :=
  isAlpha c || isDigit c || c = ofChar '+' || c = ofChar '-' || c = ofChar '.'

/-- The scheme in lower case, and what stands behind its colon. -/
def splitScheme (url : PyStr) : PyStr × PyStr :=
  let name := before (ofChar ':') url
  if ofChar ':' ∈ url ∧ name.head?.any isAlpha ∧ name.all isSchemeChar then
    (name.map lowerChar, after (ofChar ':') url)
  else ([], url)

/-- A character in front of which the network location ends. -/
def endsNetloc (c : PyChar) : Bool := c = ofChar '/' || c = ofChar '?' || c = ofChar '#'

/-- `_splitnetloc` behind `//`, and nothing without it -/
def splitNetloc (url : PyStr) : PyStr × PyStr :=
  if lit "//" <+: url then
    ((url.drop 2).takeWhile fun c => !endsNetloc c, (url.drop 2).dropWhile fun c => !endsNetloc c)
  else ([], url)

/-- `\Av[a-fA-F0-9]+\..+\Z` -/
def isFutureAddress (host : PyStr) : Bool :=
  match host with
  | [] => false
  | v :: rest =>
    let number := rest.takeWhile isHexDigit
    let tail := rest.dropWhile isHexDigit
    v = ofChar 'v' && number ≠ [] && tail.head? = some (ofChar '.') && 2 ≤ tail.length &&
      ofChar '\n' ∉ tail

/-- `_check_bracketed_host` does not raise. -/
def isBracketedHost (host : PyStr) : Bool :=
  if host.head? = some (ofChar 'v') then isFutureAddress host
  else !isIPv4Address host && isIPv6Address host

/-- `_check_bracketed_netloc` does not raise. -/
def isBracketedNetloc (netloc : PyStr) : Bool :=
  let hostnameAndPort := netloc.rtakeWhile (· ≠ ofChar '@')
  if ofChar '[' ∈ hostnameAndPort then
    let bracketed := after (ofChar '[') hostnameAndPort
    let port := after (ofChar ']') bracketed
    before (ofChar '[') hostnameAndPort = [] && (port = [] || port.head? = some (ofChar ':')) &&
      isBracketedHost (before (ofChar ']') bracketed)
  else isBracketedHost (before (ofChar ':') hostnameAndPort)

/-- `_checknetloc` does not raise. -/
def checkNetloc (u : UnicodeData) (netloc : PyStr) : Bool :=
  netloc.all (fun c => c.val < 0x80) || u.isSafeUnderNfkc netloc

/-- The network location is accepted. -/
def acceptsNetloc (u : UnicodeData) (netloc : PyStr) : Bool :=
  (ofChar '[' ∈ netloc ↔ ofChar ']' ∈ netloc) &&
    (ofChar '[' ∉ netloc || isBracketedNetloc netloc) && checkNetloc u netloc

/-- The schemes whose paths have parameters. -/
def usesParams : List PyStr :=
  ["", "ftp", "hdl", "prospero", "http", "imap", "https", "shttp", "rtsp", "rtsps", "rtspu", "sip",
    "sips", "mms", "sftp", "tel"].map lit

/-- `_splitparams` -/
def splitParams (path : PyStr) : PyStr × PyStr :=
  let last := path.rtakeWhile (· ≠ ofChar '/')
  if ofChar ';' ∈ last then
    (path.rdropWhile (· ≠ ofChar '/') ++ before (ofChar ';') last, after (ofChar ';') last)
  else (path, [])

/-- The path, its parameters, the query and the fragment. -/
def splitRest (scheme rest : PyStr) : PyStr × PyStr × PyStr × PyStr :=
  let fragment := after (ofChar '#') rest
  let rest := before (ofChar '#') rest
  let query := after (ofChar '?') rest
  let path := before (ofChar '?') rest
  let (path, params) := if scheme ∈ usesParams then splitParams path else (path, [])
  (path, params, query, fragment)

/-- `urlparse(url)`, or `none` where it raises `ValueError`. -/
def urlparse (u : UnicodeData) (url : PyStr) : Option ParseResult :=
  let (scheme, rest) := splitScheme (cleaned url)
  let (netloc, rest) := splitNetloc rest
  let (path, params, query, fragment) := splitRest scheme rest
  if acceptsNetloc u netloc then some ⟨scheme, netloc, path, params, query, fragment⟩ else none

/-- `int` reads at most this many digits. -/
def maxStrDigits : ℕ := 4300

namespace ParseResult

variable (r : ParseResult)

/-- `_userinfo` -/
def userinfo : Option PyStr × Option PyStr :=
  if ofChar '@' ∈ r.netloc then
    let userinfo := (r.netloc.rdropWhile (· ≠ ofChar '@')).dropLast
    (some (before (ofChar ':') userinfo),
      if ofChar ':' ∈ userinfo then some (after (ofChar ':') userinfo) else none)
  else (none, none)

/-- `username` -/
def username : Option PyStr := r.userinfo.1

/-- `password` -/
def password : Option PyStr := r.userinfo.2

/-- `_hostinfo`; the port is empty where there is none. -/
def hostinfo : PyStr × PyStr :=
  let hostinfo := r.netloc.rtakeWhile (· ≠ ofChar '@')
  if ofChar '[' ∈ hostinfo then
    let bracketed := after (ofChar '[') hostinfo
    (before (ofChar ']') bracketed, after (ofChar ':') (after (ofChar ']') bracketed))
  else (before (ofChar ':') hostinfo, after (ofChar ':') hostinfo)

/-- `hostname` -/
def hostname (u : UnicodeData) : Option PyStr :=
  let host := r.hostinfo.1
  if host = [] then none
  else some (u.lower (before (ofChar '%') host) ++ host.dropWhile (· ≠ ofChar '%'))

/-- `port` does not raise. -/
def isPortValid : Bool :=
  let port := r.hostinfo.2
  port = [] || (port.all isDigit && port.length ≤ maxStrDigits && decimal port ≤ 65535)

end ParseResult

/-! ### Schemes and network locations -/

lemma colon_not_mem {name : PyStr} (h : name.all isSchemeChar = true) : ofChar ':' ∉ name := by
  intro hmem
  exact absurd (List.all_eq_true.1 h _ hmem) (by decide)

lemma splitScheme_append {name rest : PyStr} (hhead : name.head?.any isAlpha = true)
    (hall : name.all isSchemeChar = true) :
    splitScheme (name ++ ofChar ':' :: rest) = (name.map lowerChar, rest) := by
  have hcolon := colon_not_mem hall
  rw [splitScheme, before_append hcolon, after_append hcolon]
  exact if_pos ⟨by simp, hhead, hall⟩

lemma splitScheme_slash (rest : PyStr) :
    splitScheme (ofChar '/' :: rest) = ([], ofChar '/' :: rest) := by
  refine if_neg ?_
  rintro ⟨-, hhead, -⟩
  have hbefore : before (ofChar ':') (ofChar '/' :: rest) =
      ofChar '/' :: before (ofChar ':') rest := by
    have hne : ofChar '/' ≠ ofChar ':' := by decide
    simp [before, hne]
  rw [hbefore] at hhead
  exact absurd (show isAlpha (ofChar '/') = true from hhead) (by decide)

/-- A URL has no scheme, or begins with one. -/
lemma splitScheme_cases (url : PyStr) : splitScheme url = ([], url) ∨
    ∃ name rest, url = name ++ ofChar ':' :: rest ∧ name.head?.any isAlpha = true ∧
      name.all isSchemeChar = true ∧ splitScheme url = (name.map lowerChar, rest) := by
  by_cases h : ofChar ':' ∈ url ∧ (before (ofChar ':') url).head?.any isAlpha ∧
      (before (ofChar ':') url).all isSchemeChar
  · right
    refine ⟨_, _, (before_append_after h.1).symm, h.2.1, h.2.2, ?_⟩
    exact if_pos h
  · left
    exact if_neg h

/-- The rest of a URL is empty or begins where the network location ends. -/
def EndsNetloc (rest : PyStr) : Prop := ∀ c, rest.head? = some c → endsNetloc c = true

lemma splitNetloc_append {netloc rest : PyStr} (hnetloc : ∀ c ∈ netloc, endsNetloc c = false)
    (hrest : EndsNetloc rest) : splitNetloc (lit "//" ++ (netloc ++ rest)) = (netloc, rest) := by
  have hall : ∀ c ∈ netloc, (!endsNetloc c) = true := fun c hc => by simp [hnetloc c hc]
  have hdrop : (lit "//" ++ (netloc ++ rest)).drop 2 = netloc ++ rest := rfl
  rw [splitNetloc, if_pos (List.prefix_append _ _), hdrop,
    List.takeWhile_append_of_pos hall, List.dropWhile_append_of_pos hall]
  cases rest with
  | nil => simp
  | cons c rest =>
    have hc : endsNetloc c = true := hrest c rfl
    simp [hc]

/-- A URL has no network location, or begins with one. -/
lemma splitNetloc_cases (url : PyStr) : splitNetloc url = ([], url) ∨
    ∃ netloc rest, url = lit "//" ++ (netloc ++ rest) ∧ (∀ c ∈ netloc, endsNetloc c = false) ∧
      EndsNetloc rest ∧ splitNetloc url = (netloc, rest) := by
  by_cases h : lit "//" <+: url
  · right
    obtain ⟨t, rfl⟩ := h
    have hdrop : (lit "//" ++ t).drop 2 = t := rfl
    refine ⟨t.takeWhile fun c => !endsNetloc c, t.dropWhile fun c => !endsNetloc c, ?_, ?_, ?_, ?_⟩
    · rw [List.takeWhile_append_dropWhile]
    · intro c hc
      simpa using List.mem_takeWhile_imp hc
    · intro c hc
      have hhead := List.head?_dropWhile_not (fun c => !endsNetloc c) t
      rw [hc] at hhead
      simpa using hhead
    · rw [splitNetloc, if_pos (List.prefix_append _ _), hdrop]
  · left
    exact if_neg h

/-! ### What follows the network location -/

/-- No component behind the network location has any characters. -/
def IsEmptyTail (rest : PyStr) : Prop := rest ∈ [[], lit "?", lit "#", lit "?#"]

instance : DecidablePred IsEmptyTail := fun _ => inferInstanceAs (Decidable (_ ∈ _))

lemma before_cons {c d : PyChar} (h : d ≠ c) (s : PyStr) : before c (d :: s) = d :: before c s := by
  simp [before, h]

lemma after_cons {c d : PyChar} (h : d ≠ c) (s : PyStr) : after c (d :: s) = after c s := by
  simp [after, h]

lemma before_self (c : PyChar) (s : PyStr) : before c (c :: s) = [] := by
  simp [before]

lemma after_self (c : PyChar) (s : PyStr) : after c (c :: s) = s := by
  simp [after]

lemma splitParams_slash (s : PyStr) : (splitParams (ofChar '/' :: s)).1 ≠ [] := by
  unfold splitParams
  dsimp only
  split_ifs
  · intro h
    have hnil := (List.append_eq_nil_iff.1 h).1
    rw [List.rdropWhile_eq_nil_iff] at hnil
    have hslash := hnil _ List.mem_cons_self
    simp at hslash
  · exact List.cons_ne_nil _ _

lemma splitRest_eq_nil_iff (scheme : PyStr) {rest : PyStr} (h : EndsNetloc rest) :
    splitRest scheme rest = ([], [], [], []) ↔ IsEmptyTail rest := by
  have hhash : ofChar '?' ≠ ofChar '#' := by decide
  constructor
  · intro hrest
    rw [splitRest] at hrest
    cases rest with
    | nil => exact List.mem_cons_self
    | cons c t =>
      have hc := h c rfl
      simp only [endsNetloc, Bool.or_eq_true, decide_eq_true_eq] at hc
      rcases hc with (rfl | rfl) | rfl
      · -- a path is not empty
        rw [before_cons (by decide), before_cons (by decide)] at hrest
        by_cases hscheme : scheme ∈ usesParams
        · rw [if_pos hscheme] at hrest
          exact absurd (congrArg Prod.fst hrest) (splitParams_slash _)
        · rw [if_neg hscheme] at hrest
          exact absurd (congrArg Prod.fst hrest) (List.cons_ne_nil _ _)
      · rw [before_cons hhash, after_self, after_cons hhash] at hrest
        have hquery : before (ofChar '#') t = [] := congrArg (·.2.2.1) hrest
        have hfragment : after (ofChar '#') t = [] := congrArg (·.2.2.2) hrest
        by_cases hmem : ofChar '#' ∈ t
        · have ht := before_append_after hmem
          rw [hquery, hfragment] at ht
          rw [← ht]
          decide
        · rw [before_of_not_mem hmem] at hquery
          rw [hquery]
          decide
      · rw [after_self] at hrest
        have hfragment : t = [] := congrArg (·.2.2.2) hrest
        rw [hfragment]
        decide
  · intro hrest
    have hparams : ∀ scheme : PyStr,
        (if scheme ∈ usesParams then splitParams [] else ([], [])) = ([], []) := by
      intro scheme
      split_ifs <;> rfl
    simp only [IsEmptyTail, List.mem_cons, List.not_mem_nil, or_false] at hrest
    rcases hrest with rfl | rfl | rfl | rfl
    · exact congrArg (fun p : PyStr × PyStr => (p.1, p.2, [], [])) (hparams scheme)
    · exact congrArg (fun p : PyStr × PyStr => (p.1, p.2, [], [])) (hparams scheme)
    · exact congrArg (fun p : PyStr × PyStr => (p.1, p.2, [], [])) (hparams scheme)
    · exact congrArg (fun p : PyStr × PyStr => (p.1, p.2, [], [])) (hparams scheme)

/-! ### The parts of a network location -/

/-- A text with an `@` is split at the last one. -/
lemma exists_last_at {s : PyStr} (h : ofChar '@' ∈ s) :
    ∃ a b, s = a ++ ofChar '@' :: b ∧ ofChar '@' ∉ b := by
  obtain ⟨a, b, hs, ha⟩ := List.eq_append_cons_of_mem (List.mem_reverse.2 h)
  refine ⟨b.reverse, a.reverse, ?_, fun hmem => ha (List.mem_reverse.1 hmem)⟩
  rw [← List.reverse_reverse s, hs]
  simp

/-- User name and password are missing or empty. -/
def IsEmptyUserinfo (userinfo : PyStr) : Prop := userinfo ∈ [[], lit "@", lit ":@"]

instance : DecidablePred IsEmptyUserinfo := fun _ => inferInstanceAs (Decidable (_ ∈ _))

lemma rtakeWhile_at {a b : PyStr} (h : ofChar '@' ∉ b) :
    (a ++ ofChar '@' :: b).rtakeWhile (· ≠ ofChar '@') = b := by
  refine rtakeWhile_append_cons (by simp) fun c hc => decide_eq_true ?_
  rintro rfl
  exact h hc

lemma rdropWhile_at {a b : PyStr} (h : ofChar '@' ∉ b) :
    (a ++ ofChar '@' :: b).rdropWhile (· ≠ ofChar '@') = a ++ [ofChar '@'] := by
  refine rdropWhile_append_cons (by simp) fun c hc => decide_eq_true ?_
  rintro rfl
  exact h hc

lemma rtakeWhile_of_not_mem {s : PyStr} (h : ofChar '@' ∉ s) :
    s.rtakeWhile (· ≠ ofChar '@') = s := by
  refine List.rtakeWhile_eq_self_iff.2 fun c hc => decide_eq_true ?_
  rintro rfl
  exact h hc

namespace ParseResult

variable {r : ParseResult}

lemma userinfo_of_not_mem (h : ofChar '@' ∉ r.netloc) : r.userinfo = (none, none) := if_neg h

lemma userinfo_append {a b : PyStr} (hr : r.netloc = a ++ ofChar '@' :: b)
    (hb : ofChar '@' ∉ b) : r.userinfo = (some (before (ofChar ':') a),
      if ofChar ':' ∈ a then some (after (ofChar ':') a) else none) := by
  rw [userinfo, hr, if_pos (by simp), rdropWhile_at hb, List.dropLast_concat]

/-- The user name and the password are empty exactly if the network location begins so. -/
lemma userinfo_eq_nil_iff : (r.username.getD [] = [] ∧ r.password.getD [] = []) ↔
    ∃ userinfo info, IsEmptyUserinfo userinfo ∧ r.netloc = userinfo ++ info ∧
      ofChar '@' ∉ info := by
  unfold username password
  constructor
  · rintro ⟨hname, hpassword⟩
    by_cases hat : ofChar '@' ∈ r.netloc
    · obtain ⟨a, b, hr, hb⟩ := exists_last_at hat
      rw [userinfo_append hr hb] at hname hpassword
      have hbefore : before (ofChar ':') a = [] := hname
      by_cases hcolon : ofChar ':' ∈ a
      · rw [if_pos hcolon] at hpassword
        have hafter : after (ofChar ':') a = [] := hpassword
        have ha := before_append_after hcolon
        rw [hbefore, hafter] at ha
        refine ⟨lit ":@", b, by decide, ?_, hb⟩
        rw [hr, ← ha]
        rfl
      · rw [before_of_not_mem hcolon] at hbefore
        refine ⟨lit "@", b, by decide, ?_, hb⟩
        rw [hr, hbefore]
        rfl
    · exact ⟨[], r.netloc, by decide, rfl, hat⟩
  · rintro ⟨ui, info, hui, hr, hinfo⟩
    simp only [IsEmptyUserinfo, List.mem_cons, List.not_mem_nil, or_false] at hui
    rcases hui with rfl | rfl | rfl
    · rw [userinfo_of_not_mem (by rwa [hr])]
      exact ⟨rfl, rfl⟩
    · have hr : r.netloc = [] ++ ofChar '@' :: info := hr
      rw [userinfo_append hr hinfo]
      exact ⟨rfl, rfl⟩
    · have hr : r.netloc = lit ":" ++ ofChar '@' :: info := hr
      rw [userinfo_append hr hinfo]
      exact ⟨rfl, rfl⟩

end ParseResult

lemma rtakeWhile_userinfo {userinfo info : PyStr} (hui : IsEmptyUserinfo userinfo)
    (hinfo : ofChar '@' ∉ info) :
    (userinfo ++ info).rtakeWhile (· ≠ ofChar '@') = info := by
  simp only [IsEmptyUserinfo, List.mem_cons, List.not_mem_nil, or_false] at hui
  rcases hui with rfl | rfl | rfl
  · exact rtakeWhile_of_not_mem hinfo
  · exact rtakeWhile_at (a := []) hinfo
  · exact rtakeWhile_at (a := lit ":") hinfo

lemma mem_userinfo_append {userinfo : PyStr} (hui : IsEmptyUserinfo userinfo) (info : PyStr)
    {c : PyChar} (hc : c ≠ ofChar ':' ∧ c ≠ ofChar '@') : c ∈ userinfo ++ info ↔ c ∈ info := by
  rw [List.mem_append]
  refine or_iff_right fun h => ?_
  simp only [IsEmptyUserinfo, List.mem_cons, List.not_mem_nil, or_false] at hui
  rcases hui with rfl | rfl | rfl
  · exact List.not_mem_nil h
  · exact hc.2 (List.mem_singleton.1 h)
  · rcases List.mem_cons.1 h with h | h
    · exact hc.1 h
    · exact hc.2 (List.mem_singleton.1 h)

/-- A host in brackets, and what follows them. -/
def IsBracketed (info host port : PyStr) : Prop :=
  info = ofChar '[' :: (host ++ ofChar ']' :: port) ∧ ofChar ']' ∉ host ∧
    (port = [] ∨ port.head? = some (ofChar ':'))

lemma IsBracketed.parts {info host port : PyStr} (h : IsBracketed info host port) :
    ofChar '[' ∈ info ∧ before (ofChar '[') info = [] ∧
      before (ofChar ']') (after (ofChar '[') info) = host ∧
      after (ofChar ']') (after (ofChar '[') info) = port := by
  obtain ⟨rfl, hhost, -⟩ := h
  rw [before_self, after_self, before_append hhost, after_append hhost]
  exact ⟨List.mem_cons_self, rfl, rfl, rfl⟩

/-- A network location is accepted if it has no brackets, or a host in brackets in front. -/
lemma acceptsNetloc_iff {u : UnicodeData} {userinfo info : PyStr}
    (hui : IsEmptyUserinfo userinfo) (hinfo : ofChar '@' ∉ info) :
    acceptsNetloc u (userinfo ++ info) = true ↔
      (ofChar '[' ∉ info ∧ ofChar ']' ∉ info ∨
        ∃ host port, IsBracketed info host port ∧ isBracketedHost host = true) ∧
      checkNetloc u (userinfo ++ info) = true := by
  have hopen := mem_userinfo_append hui info (c := ofChar '[') (by decide)
  have hclose := mem_userinfo_append hui info (c := ofChar ']') (by decide)
  rw [acceptsNetloc, Bool.and_eq_true, Bool.and_eq_true, decide_eq_true_eq, Bool.or_eq_true,
    decide_eq_true_eq, hopen, hclose, isBracketedNetloc, rtakeWhile_userinfo hui hinfo]
  refine and_congr_left fun _ => ?_
  by_cases hbracket : ofChar '[' ∈ info
  · simp only [hbracket, true_iff, not_true_eq_false, false_or, false_and, if_true,
      Bool.and_eq_true, decide_eq_true_eq, Bool.or_eq_true]
    constructor
    · rintro ⟨hclose, ⟨hfront, hport⟩, hhost⟩
      have hsplit := before_append_after hbracket
      rw [hfront, List.nil_append] at hsplit
      have hmem : ofChar ']' ∈ after (ofChar '[') info := by
        rw [← hsplit] at hclose
        exact (List.mem_cons.1 hclose).resolve_left (by decide)
      refine ⟨_, _, ⟨?_, not_mem_before, hport⟩, hhost⟩
      rw [before_append_after hmem, hsplit]
    · rintro ⟨host, port, h, hhost⟩
      obtain ⟨-, hfront, hbefore, hafter⟩ := h.parts
      rw [hbefore, hafter]
      refine ⟨?_, ⟨hfront, h.2.2⟩, hhost⟩
      rw [h.1]
      simp
  · simp only [hbracket, false_iff, not_false_eq_true, true_or, and_true, true_and]
    refine (or_iff_left ?_).symm
    rintro ⟨host, port, h, -⟩
    exact hbracket h.parts.1

namespace ParseResult

variable {r : ParseResult} {userinfo info : PyStr}

lemma hostinfo_of_bracketed (hr : r.netloc = userinfo ++ info) (hui : IsEmptyUserinfo userinfo)
    (hinfo : ofChar '@' ∉ info) {host port : PyStr} (h : IsBracketed info host port) :
    r.hostinfo = (host, after (ofChar ':') port) := by
  obtain ⟨hmem, -, hbefore, hafter⟩ := h.parts
  rw [hostinfo, hr, rtakeWhile_userinfo hui hinfo]
  dsimp only
  rw [if_pos hmem, hbefore, hafter]

lemma hostinfo_of_not_mem (hr : r.netloc = userinfo ++ info) (hui : IsEmptyUserinfo userinfo)
    (hinfo : ofChar '@' ∉ info) (h : ofChar '[' ∉ info) :
    r.hostinfo = (before (ofChar ':') info, after (ofChar ':') info) := by
  rw [hostinfo, hr, rtakeWhile_userinfo hui hinfo]
  exact if_neg h

end ParseResult

end PyUrl
