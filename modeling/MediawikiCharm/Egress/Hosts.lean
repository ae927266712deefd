/-
Hosts of destinations and proxies (`egress.py`).

A destination names a host with or without a scheme in front of it.  What is read from it is that
host, and the endpoint that is read from the URL of a proxy is its host, without brackets, and its
port.  A port of zero is not shown in the URL, so that the port of the scheme is read.
-/
import MediawikiCharm.Egress
import MediawikiCharm.Lib.PyAddress

namespace MediawikiCharm
namespace Egress

open PyText

/-! ### Hosts -/

/-- A character of a name. -/
def isNameChar (c : Char) : Bool := c.isAlphanum || c = '-' || c = '.' || c = '_'

/-- A DNS name, or an address of version 4. -/
def IsName (host : List Char) : Prop := host ≠ [] ∧ ∀ c ∈ host, isNameChar c = true

/-- A character of an address of version 6. -/
def isAddressChar (c : Char) : Bool :=
  c.isDigit || ('a' ≤ c && c ≤ 'f') || ('A' ≤ c && c ≤ 'F') || c = ':' || c = '.'

/-- An address of version 6. -/
def IsAddress (host : List Char) : Prop := ':' ∈ host ∧ ∀ c ∈ host, isAddressChar c = true

/-- The zone behind an address, or nothing. -/
def IsZone (zone : List Char) : Prop :=
  zone = [] ∨ ∃ name, zone = '%' :: name ∧ ∀ c ∈ name, isNameChar c = true

/-- The scheme of a URL. -/
def IsScheme (scheme : List Char) : Prop :=
  scheme.head?.any Char.isAlpha = true ∧
    scheme.all (fun c => c.isAlphanum || c ∈ ['+', '-', '.']) = true

/-- The host that a destination names, with or without a scheme in front of it.  The host of a URL
is written in lower case. -/
inductive Names : String → List Char → Prop
  | name {host : List Char} (h : IsName host) : Names (String.ofList host) host
  | address {address zone : List Char} (h : IsAddress address) (hz : IsZone zone) :
    Names (String.ofList (address ++ zone)) (address ++ zone)
  | nameUrl {scheme host : List Char} (hs : IsScheme scheme) (h : IsName host) :
    Names (String.ofList (scheme ++ ("://".toList ++ host))) (host.map Char.toLower)
  | addressUrl {scheme address zone : List Char} (hs : IsScheme scheme) (h : IsAddress address)
      (hz : IsZone zone) :
    Names (String.ofList (scheme ++ ("://".toList ++ ('[' :: (address ++ zone) ++ [']']))))
      (address.map Char.toLower ++ zone)

/-- The characters that stand in no host of a URL, or have another meaning there. -/
def isForbidden (c : Char) : Bool :=
  c.toNat ≤ 0x20 || 0x7f ≤ c.toNat || c.isUpper ||
    c ∈ ['#', '%', '/', ':', '<', '>', '?', '@', '[', '\\', ']', '^', '|']

namespace HttpUrl

variable (url : HttpUrl)

/-- What `pydantic` accepts: the scheme is one of HTTP; the host is not empty, and a name in ASCII
or an address in brackets, in lower case. -/
structure IsValid : Prop where
  scheme : url.scheme ∈ ["http", "https"]
  host : url.host.toList ≠ [] ∧ (∀ c ∈ url.host.toList, isForbidden c = false) ∨
    ∃ address, IsAddress address ∧ (∀ c ∈ address, c.isUpper = false) ∧
      url.host.toList = '[' :: address ++ [']']

/-- The host, without the brackets of an address. -/
def bareHost : List Char := url.host.toList.filter fun c => c ∉ ['[', ']']

/-- The port of the scheme. -/
def defaultPort : ℕ := if url.scheme = "https" then 443 else 80

/-- The port, or the one of the scheme. -/
def effectivePort : ℕ := url.port.getD url.defaultPort

end HttpUrl

/-- The library writes ASCII in lower case. -/
def Library.LowersAscii (library : Library) : Prop :=
  ∀ s : List Char, (∀ c ∈ s, c.toNat < 0x80) → library.lower s = s.map Char.toLower

/-! ### The hosts that are read -/

variable {library : Library} {r : ProxyRouteResolver}

/-- Visible characters are kept. -/
lemma visible_eq {s : List Char} (h : ∀ c ∈ s, 0x20 < c.toNat) :
    ((s.dropWhile fun c => c.toNat ≤ 0x20).filter fun c => c ≠ '\t' ∧ c ≠ '\r' ∧ c ≠ '\n') = s := by
  have hdrop : (s.dropWhile fun c => decide (c.toNat ≤ 0x20)) = s := by
    cases s with
    | nil => rfl
    | cons c s =>
      have hc := h c List.mem_cons_self
      rw [List.dropWhile_cons, if_neg]
      simpa using hc
  rw [hdrop, List.filter_eq_self]
  intro c hc
  have hvisible := h c hc
  refine decide_eq_true ⟨?_, ?_, ?_⟩
  · rintro rfl
    exact absurd hvisible (by decide)
  · rintro rfl
    exact absurd hvisible (by decide)
  · rintro rfl
    exact absurd hvisible (by decide)

/-- The characters of a network location. -/
def isNetlocChar (c : Char) : Bool := 0x20 < c.toNat && c ∉ ['/', '?', '#', '@']

lemma toNat_of_isAlphanum {c : Char} (h : c.isAlphanum = true) : 0x30 ≤ c.toNat ∧ c.toNat ≤ 0x7a := by
  have hranges := isAlphanum_iff.1 h
  omega

lemma visible_of_isScheme {scheme : List Char} (h : IsScheme scheme) :
    ∀ c ∈ scheme, 0x20 < c.toNat ∧ c ≠ ':' := by
  intro c hc
  have hchar := List.all_eq_true.1 h.2 c hc
  simp only [Bool.or_eq_true, decide_eq_true_eq, List.mem_cons, List.not_mem_nil, or_false] at hchar
  rcases hchar with hchar | rfl | rfl | rfl
  · have hval := toNat_of_isAlphanum hchar
    refine ⟨by omega, ?_⟩
    rintro rfl
    exact absurd hchar (by decide)
  · decide
  · decide
  · decide

/-- A URL is split into the scheme and the network location. -/
lemma urlparse_url {scheme netloc : List Char} (hs : IsScheme scheme)
    (hn : ∀ c ∈ netloc, isNetlocChar c = true) :
    urlparse library (String.ofList (scheme ++ ("://".toList ++ netloc))) =
      if library.acceptsNetloc netloc then .ok ⟨scheme.map Char.toLower, netloc⟩
      else .error valueError := by
  have hscheme := visible_of_isScheme hs
  simp only [isNetlocChar, Bool.and_eq_true, decide_eq_true_eq, List.mem_cons, List.not_mem_nil,
    or_false, not_or] at hn
  have hcolon : ':' ∉ scheme := fun h => (hscheme _ h).2 rfl
  have hurl : scheme ++ ("://".toList ++ netloc) = scheme ++ ':' :: '/' :: '/' :: netloc := rfl
  have hvisible : ∀ c ∈ scheme ++ ':' :: '/' :: '/' :: netloc, 0x20 < c.toNat := by
    simp only [List.forall_mem_append, List.forall_mem_cons]
    exact ⟨fun c hc => (hscheme c hc).1, by decide, by decide, by decide, fun c hc => (hn c hc).1⟩
  have hbefore : before ':' (scheme ++ ':' :: '/' :: '/' :: netloc) = scheme :=
    PyAddress.before_append hcolon
  have hafter : after ':' (scheme ++ ':' :: '/' :: '/' :: netloc) = '/' :: '/' :: netloc :=
    PyAddress.after_append hcolon
  have htake : (netloc.takeWhile fun c => decide (c ≠ '/' ∧ c ≠ '?' ∧ c ≠ '#')) = netloc := by
    refine List.takeWhile_eq_self_iff.2 fun c hc => decide_eq_true ?_
    exact ⟨(hn c hc).2.1, (hn c hc).2.2.1, (hn c hc).2.2.2.1⟩
  have hcontains : (scheme ++ ':' :: '/' :: '/' :: netloc).contains ':' = true := by simp
  unfold urlparse
  dsimp only
  rw [String.toList_ofList, hurl, visible_eq hvisible, hbefore, hafter, hs.1, hs.2, hcontains]
  simp only [Bool.and_self, if_true, htake]

/-- A text without slashes has no network location. -/
lemma urlparse_bare {host : String} (h : '/' ∉ host.toList) :
    ∃ scheme, urlparse library host = .ok { scheme := scheme } := by
  have hvisible : '/' ∉ (host.toList.dropWhile fun c => c.toNat ≤ 0x20).filter fun c =>
      c ≠ '\t' ∧ c ≠ '\r' ∧ c ≠ '\n' := fun hmem =>
    h ((List.dropWhile_sublist _).subset (List.mem_filter.1 hmem).1)
  have hnot : ∀ {isScheme : Bool} {s rest : List Char}, '/' ∉ s →
      (if isScheme then after ':' s else s) ≠ '/' :: '/' :: rest := by
    intro isScheme s rest hs heq
    refine hs ?_
    split_ifs at heq
    · have hmem : '/' ∈ after ':' s := heq ▸ List.mem_cons_self
      exact (List.dropWhile_sublist _).subset (List.mem_of_mem_tail hmem)
    · rw [heq]
      exact List.mem_cons_self
  unfold urlparse
  dsimp only
  split
  · next rest heq => exact absurd heq (hnot hvisible)
  · exact ⟨_, rfl⟩

variable {text : String} {destination : List Char}

lemma facts_of_isNameChar {c : Char} (h : isNameChar c = true) :
    (0x20 < c.toNat ∧ c.toNat < 0x80) ∧ c ∉ ['/', '?', '#', '@', '[', ']', ':', ',', '%'] := by
  have hne : ∀ d : Char, isNameChar d = false → c ≠ d := by
    rintro d hd rfl
    exact absurd (h.symm.trans hd) nofun
  refine ⟨?_, fun hmem => ?_⟩
  · simp only [isNameChar, Bool.or_eq_true, decide_eq_true_eq] at h
    rcases h with ((h | rfl) | rfl) | rfl
    · have hval := toNat_of_isAlphanum h
      omega
    · decide
    · decide
    · decide
  · have hall : ['/', '?', '#', '@', '[', ']', ':', ',', '%'].all (fun d => !isNameChar d) =
        true := by
      decide
    exact hne c (by simpa only [Bool.not_eq_true'] using List.all_eq_true.1 hall c hmem) rfl

lemma facts_of_isAddressChar {c : Char} (h : isAddressChar c = true) :
    (0x20 < c.toNat ∧ c.toNat < 0x80) ∧ c ∉ ['/', '?', '#', '@', '[', ']', ',', '%'] := by
  have hne : ∀ d : Char, isAddressChar d = false → c ≠ d := by
    rintro d hd rfl
    exact absurd (h.symm.trans hd) nofun
  refine ⟨?_, fun hmem => ?_⟩
  · simp only [isAddressChar, Char.isDigit, Bool.or_eq_true, Bool.and_eq_true, decide_eq_true_eq,
      UInt32.le_iff_toNat_le, Char.le_def, ge_iff_le] at h
    have hval : c.toNat = c.val.toNat := rfl
    have hA : 'A'.val.toNat = 65 := rfl
    have hF : 'F'.val.toNat = 70 := rfl
    have ha : 'a'.val.toNat = 97 := rfl
    have hf : 'f'.val.toNat = 102 := rfl
    have h0 : '0'.val.toNat = 48 := rfl
    have h9 : '9'.val.toNat = 57 := rfl
    rcases h with (((h | h) | h) | rfl) | rfl
    · omega
    · omega
    · omega
    · decide
    · decide
  · have hall : ['/', '?', '#', '@', '[', ']', ',', '%'].all (fun d => !isAddressChar d) = true := by
      decide
    exact hne c (by simpa only [Bool.not_eq_true'] using List.all_eq_true.1 hall c hmem) rfl

/-- No port, or a colon and digits. -/
def IsPortText (port : List Char) : Prop :=
  port = [] ∨ ∃ digits, port = ':' :: digits ∧ ∀ c ∈ digits, c.isDigit = true

lemma not_mem_portText {port : List Char} (h : IsPortText port) {c : Char} (hc : c.isDigit = false)
    (hcolon : c ≠ ':') : c ∉ port := by
  rcases h with rfl | ⟨digits, rfl, hall⟩
  · exact List.not_mem_nil
  · intro hmem
    rcases List.mem_cons.1 hmem with h | hmem
    · exact hcolon h
    · exact absurd ((hall c hmem).symm.trans hc) nofun

lemma after_portText {port : List Char} (h : IsPortText port) : after ':' port = port.tail := by
  rcases h with rfl | ⟨digits, rfl, -⟩
  · rfl
  · exact PyAddress.after_append (s := []) List.not_mem_nil

lemma rtakeWhile_at {s : List Char} (h : '@' ∉ s) : s.rtakeWhile (· ≠ '@') = s := by
  refine List.rtakeWhile_eq_self_iff.2 fun c hc => decide_eq_true ?_
  rintro rfl
  exact h hc

/-- The host and the port of a network location. -/
lemma hostinfo_name {scheme host port : List Char} (hhost : ∀ c ∈ ['@', '[', ':'], c ∉ host)
    (hport : IsPortText port) :
    SplitResult.hostinfo ⟨scheme, host ++ port⟩ = (host, port.tail) := by
  have hat : '@' ∉ host ++ port :=
    List.not_mem_append (hhost _ (by simp)) (not_mem_portText hport rfl (by decide))
  have hopen : '[' ∉ host ++ port :=
    List.not_mem_append (hhost _ (by simp)) (not_mem_portText hport rfl (by decide))
  have hcolon : ':' ∉ host := hhost _ (by simp)
  have hparts : before ':' (host ++ port) = host ∧ after ':' (host ++ port) = port.tail := by
    rcases hport with rfl | ⟨digits, rfl, -⟩
    · rw [List.append_nil]
      exact ⟨PyAddress.before_of_not_mem hcolon, PyAddress.after_of_not_mem hcolon⟩
    · exact ⟨PyAddress.before_append hcolon, PyAddress.after_append hcolon⟩
  unfold SplitResult.hostinfo
  dsimp only
  rw [rtakeWhile_at hat, if_neg hopen, hparts.1, hparts.2]

lemma hostinfo_bracketed {scheme host port : List Char} (hhost : ∀ c ∈ ['@', ']'], c ∉ host)
    (hport : IsPortText port) :
    SplitResult.hostinfo ⟨scheme, '[' :: host ++ ']' :: port⟩ = (host, port.tail) := by
  have hat : '@' ∉ '[' :: host ++ ']' :: port := by
    simp only [List.cons_append, List.mem_cons, List.mem_append, not_or]
    exact ⟨by decide, hhost _ (by simp), by decide, not_mem_portText hport rfl (by decide)⟩
  have hclose : ']' ∉ host := hhost _ (by simp)
  have hafter : after '[' ('[' :: host ++ ']' :: port) = host ++ ']' :: port :=
    PyAddress.after_append (s := []) List.not_mem_nil
  have hbefore : before ']' (host ++ ']' :: port) = host := PyAddress.before_append hclose
  have hrest : after ']' (host ++ ']' :: port) = port := PyAddress.after_append hclose
  unfold SplitResult.hostinfo
  dsimp only
  rw [rtakeWhile_at hat, if_pos (by simp), hafter, hbefore, hrest, after_portText hport]

/-- The host name of a location is its host with the address in lower case. -/
lemma hostname_eq (hlower : library.LowersAscii) {result : SplitResult} {address zone : List Char}
    (hinfo : result.hostinfo.1 = address ++ zone) (hne : address ≠ [])
    (haddress : ∀ c ∈ address, c.toNat < 0x80 ∧ c ≠ '%') (hzone : IsZone zone) :
    result.hostname library = some (String.ofList (address.map Char.toLower ++ zone)) := by
  have hpercent : '%' ∉ address := fun h => (haddress _ h).2 rfl
  have hparts : before '%' (address ++ zone) = address ∧
      (address ++ zone).dropWhile (fun c => decide (c ≠ '%')) = zone := by
    have hdrop : ∀ c ∈ address, decide (c ≠ '%') = true := fun c hc =>
      decide_eq_true (haddress c hc).2
    rw [List.dropWhile_append_of_pos hdrop]
    rcases hzone with rfl | ⟨name, rfl, -⟩
    · rw [List.append_nil]
      exact ⟨PyAddress.before_of_not_mem hpercent, rfl⟩
    · exact ⟨PyAddress.before_append hpercent, rfl⟩
  unfold SplitResult.hostname
  dsimp only
  rw [hinfo, if_neg (by simp [hne]), hparts.1, hparts.2, hlower _ fun c hc => (haddress c hc).1]

lemma destinationHost_bare {host : List Char} (h : '/' ∉ host) :
    destinationHost library (String.ofList host) = .ok (String.ofList host) := by
  have hhost : '/' ∉ (String.ofList host).toList := by rwa [String.toList_ofList]
  obtain ⟨scheme, hparse⟩ := @urlparse_bare library _ hhost
  unfold destinationHost
  rw [hparse]
  rfl

lemma destinationHost_url {scheme netloc : List Char} {name : String} {host : String}
    (hs : IsScheme scheme) (hn : ∀ c ∈ netloc, isNetlocChar c = true)
    (hname : SplitResult.hostname ⟨scheme.map Char.toLower, netloc⟩ library = some name)
    (h : destinationHost library (String.ofList (scheme ++ ("://".toList ++ netloc))) = .ok host) :
    host = name := by
  unfold destinationHost at h
  rw [urlparse_url hs hn] at h
  split_ifs at h
  · have hok := Except.ok.inj h
    rw [hname] at hok
    exact hok.symm
  · exact absurd h nofun

lemma isNetlocChar_of_not_mem {c : Char} (hvisible : 0x20 < c.toNat)
    (h : c ∉ ['/', '?', '#', '@']) : isNetlocChar c = true := by
  rw [isNetlocChar, Bool.and_eq_true]
  exact ⟨decide_eq_true hvisible, decide_eq_true h⟩

lemma isNetlocChar_of_isNameChar {c : Char} (h : isNameChar c = true) : isNetlocChar c = true :=
  isNetlocChar_of_not_mem (facts_of_isNameChar h).1.1 fun hmem =>
    (facts_of_isNameChar h).2 ((by decide : ['/', '?', '#', '@'] ⊆ _) hmem)

lemma isNetlocChar_of_isAddressChar {c : Char} (h : isAddressChar c = true) :
    isNetlocChar c = true :=
  isNetlocChar_of_not_mem (facts_of_isAddressChar h).1.1 fun hmem =>
    (facts_of_isAddressChar h).2 ((by decide : ['/', '?', '#', '@'] ⊆ _) hmem)

lemma isNetlocChar_of_mem_zone {zone : List Char} (h : IsZone zone) :
    ∀ c ∈ zone, isNetlocChar c = true ∧ c ∉ ['/', '@', '[', ']', ':', ','] := by
  rcases h with rfl | ⟨name, rfl, hname⟩
  · exact nofun
  · refine List.forall_mem_cons.2 ⟨by decide, fun c hc => ?_⟩
    refine ⟨isNetlocChar_of_isNameChar (hname c hc), fun hmem => ?_⟩
    exact (facts_of_isNameChar (hname c hc)).2
      ((by decide : ['/', '@', '[', ']', ':', ','] ⊆ _) hmem)

/-- The destination is the host that was named. -/
lemma destinationHost_of_names (hlower : library.LowersAscii) (h : Names text destination)
    {host : String} (hhost : destinationHost library text = .ok host) :
    host.toList = destination := by
  cases h with
  | name hname =>
    have hslash : '/' ∉ destination := fun hmem =>
      (facts_of_isNameChar (hname.2 _ hmem)).2 (by decide)
    rw [destinationHost_bare hslash] at hhost
    rw [← Except.ok.inj hhost, String.toList_ofList]
  | @address address zone haddress hz =>
    have hslash : '/' ∉ address ++ zone := by
      refine List.not_mem_append (fun hmem => ?_) fun hmem => ?_
      · exact (facts_of_isAddressChar (haddress.2 _ hmem)).2 (by decide)
      · exact (isNetlocChar_of_mem_zone hz _ hmem).2 (by decide)
    rw [destinationHost_bare hslash] at hhost
    rw [← Except.ok.inj hhost, String.toList_ofList]
  | @nameUrl scheme name hs hname =>
    have hinfo : (SplitResult.hostinfo ⟨scheme.map Char.toLower, name⟩).1 = name ++ [] := by
      have hparts : SplitResult.hostinfo ⟨scheme.map Char.toLower, name ++ []⟩ = (name, _) :=
        hostinfo_name (fun c hc hmem => (facts_of_isNameChar (hname.2 c hmem)).2
          ((by decide : ['@', '[', ':'] ⊆ _) hc)) (.inl rfl)
      rw [List.append_nil] at hparts ⊢
      rw [hparts]
    have hascii : ∀ c ∈ name, c.toNat < 0x80 ∧ c ≠ '%' := by
      refine fun c hc => ⟨(facts_of_isNameChar (hname.2 c hc)).1.2, ?_⟩
      rintro rfl
      exact (facts_of_isNameChar (hname.2 _ hc)).2 (by decide)
    have hhostname := hostname_eq hlower hinfo hname.1 hascii (.inl rfl)
    rw [destinationHost_url hs (fun c hc => isNetlocChar_of_isNameChar (hname.2 c hc)) hhostname
      hhost, String.toList_ofList, List.append_nil]
  | @addressUrl scheme address zone hs haddress hz =>
    have hinfo : (SplitResult.hostinfo ⟨scheme.map Char.toLower,
        '[' :: (address ++ zone) ++ [']']⟩).1 = address ++ zone := by
      refine congrArg Prod.fst (hostinfo_bracketed (fun c hc => ?_) (.inl rfl))
      refine List.not_mem_append (fun hmem => ?_) fun hmem => ?_
      · exact (facts_of_isAddressChar (haddress.2 _ hmem)).2 ((by decide : ['@', ']'] ⊆ _) hc)
      · exact (isNetlocChar_of_mem_zone hz _ hmem).2 ((by decide : ['@', ']'] ⊆ _) hc)
    have hascii : ∀ c ∈ address, c.toNat < 0x80 ∧ c ≠ '%' := by
      refine fun c hc => ⟨(facts_of_isAddressChar (haddress.2 c hc)).1.2, ?_⟩
      rintro rfl
      exact (facts_of_isAddressChar (haddress.2 _ hc)).2 (by decide)
    have hnetloc : ∀ c ∈ '[' :: (address ++ zone) ++ [']'], isNetlocChar c = true := by
      simp only [List.cons_append, List.forall_mem_cons, List.forall_mem_append]
      exact ⟨by decide, ⟨fun c hc => isNetlocChar_of_isAddressChar (haddress.2 c hc),
        fun c hc => (isNetlocChar_of_mem_zone hz c hc).1⟩, ⟨by decide, nofun⟩⟩
    have hhostname := hostname_eq hlower hinfo (List.ne_nil_of_mem haddress.1) hascii hz
    rw [destinationHost_url hs hnetloc hhostname hhost, String.toList_ofList]

lemma isLower_toLower {c : Char} (h : c.isUpper = true) : c.toLower.isLower = true := by
  have hlower := toLower_of_isUpper h
  have hupper := isUpper_iff.1 h
  exact isLower_iff.2 (by omega)

/-- No symbol but a letter comes up in lower case. -/
lemma not_mem_map_toLower {c : Char} {s : List Char} (hc : c.isLower = false) (h : c ∉ s) :
    c ∉ s.map Char.toLower := by
  intro hmem
  obtain ⟨d, hd, rfl⟩ := List.mem_map.1 hmem
  cases hupper : d.isUpper with
  | true => exact absurd ((isLower_toLower hupper).symm.trans hc) nofun
  | false =>
    rw [toLower_eq hupper] at h
    exact h hd

lemma not_mem_of_names (h : Names text destination) :
    ∀ c ∈ ['[', ','], c ∉ destination := by
  intro c hc
  have hlower : c.isLower = false := by
    have hall : ['[', ','].all (fun d => !d.isLower) = true := by decide
    simpa only [Bool.not_eq_true'] using List.all_eq_true.1 hall c hc
  have hname : ∀ {name : List Char}, IsName name → c ∉ name := fun hn hmem =>
    (facts_of_isNameChar (hn.2 c hmem)).2 ((by decide : ['[', ','] ⊆ _) hc)
  have haddress : ∀ {address : List Char}, IsAddress address → c ∉ address := fun ha hmem =>
    (facts_of_isAddressChar (ha.2 c hmem)).2 ((by decide : ['[', ','] ⊆ _) hc)
  have hzone : ∀ {zone : List Char}, IsZone zone → c ∉ zone := fun hz hmem =>
    (isNetlocChar_of_mem_zone hz c hmem).2 ((by decide : ['[', ','] ⊆ _) hc)
  cases h with
  | name h => exact hname h
  | address h hz => exact List.not_mem_append (haddress h) (hzone hz)
  | nameUrl hs h => exact not_mem_map_toLower hlower (hname h)
  | addressUrl hs h hz =>
    exact List.not_mem_append (not_mem_map_toLower hlower (haddress h)) (hzone hz)

/-! ### The proxy that is read -/

namespace HttpUrl

variable {url : HttpUrl}

/-- How the port is shown. -/
def portText (url : HttpUrl) : List Char :=
  match url.port with
  | none | some 0 => []
  | some port => ':' :: Nat.toDigits 10 port

/-- The port that is read back. -/
def shownPort (url : HttpUrl) : ℕ :=
  match url.port with
  | none | some 0 => url.defaultPort
  | some port => port

lemma toString_eq (url : HttpUrl) : url.toString =
    String.ofList (url.scheme.toList ++ ("://".toList ++ (url.host.toList ++ url.portText))) := by
  rw [← String.toList_inj, String.toList_ofList]
  obtain ⟨scheme, host, port⟩ := url
  rcases port with _ | _ | n
  · simp [HttpUrl.toString, portText]
  · simp [HttpUrl.toString, portText]
  · simp [HttpUrl.toString, portText, Nat.toString_eq_repr, Nat.toList_repr]

lemma isPortText (url : HttpUrl) : IsPortText url.portText := by
  obtain ⟨scheme, host, port⟩ := url
  rcases port with _ | _ | n
  · exact .inl rfl
  · exact .inl rfl
  · exact .inr ⟨_, rfl, fun c hc => Nat.isDigit_of_mem_toDigits (by decide) (by decide) hc⟩

lemma shownPort_eq_iff (url : HttpUrl) : url.shownPort = url.effectivePort ↔ url.port ≠ some 0 := by
  have hdefault : url.defaultPort ≠ 0 := by
    unfold defaultPort
    split_ifs
    · decide
    · decide
  obtain ⟨scheme, host, port⟩ := url
  rcases port with _ | _ | n
  · exact ⟨fun _ => nofun, fun _ => rfl⟩
  · exact ⟨fun h => absurd h hdefault, fun h => absurd rfl h⟩
  · exact ⟨fun _ => by simp, fun _ => rfl⟩

lemma isScheme (h : url.IsValid) : IsScheme url.scheme.toList := by
  have hscheme := h.scheme
  simp only [List.mem_cons, List.not_mem_nil, or_false] at hscheme
  rcases hscheme with hscheme | hscheme
  · rw [hscheme]
    exact ⟨by decide, by decide⟩
  · rw [hscheme]
    exact ⟨by decide, by decide⟩

/-- A character of a host, without the brackets. -/
def isHostChar (c : Char) : Prop :=
  isNetlocChar c = true ∧ c.toNat < 0x80 ∧ c.isUpper = false ∧ c ∉ ['[', ']', '@', '%']

lemma isHostChar_of_isForbidden {c : Char} (h : isForbidden c = false) : isHostChar c := by
  simp only [isForbidden, Bool.or_eq_false_iff, decide_eq_false_iff_not] at h
  obtain ⟨⟨⟨hvisible, hascii⟩, hupper⟩, hmem⟩ := h
  refine ⟨isNetlocChar_of_not_mem (by omega) fun hc => hmem ?_, by omega, hupper,
    fun hc => hmem ?_⟩
  · exact (by decide : ['/', '?', '#', '@'] ⊆ _) hc
  · exact (by decide : ['[', ']', '@', '%'] ⊆ _) hc

lemma isHostChar_of_isAddressChar {c : Char} (h : isAddressChar c = true)
    (hupper : c.isUpper = false) : isHostChar c :=
  ⟨isNetlocChar_of_isAddressChar h, (facts_of_isAddressChar h).1.2, hupper, fun hmem =>
    (facts_of_isAddressChar h).2 ((by decide : ['[', ']', '@', '%'] ⊆ _) hmem)⟩

lemma filter_brackets {s : List Char} (h : ∀ c ∈ s, isHostChar c) :
    s.filter (fun c => c ∉ ['[', ']']) = s := by
  refine List.filter_eq_self.2 fun c hc => decide_eq_true fun hmem => ?_
  exact (h c hc).2.2.2 ((by decide : ['[', ']'] ⊆ _) hmem)

/-- The host of a URL is a name, or an address in brackets. -/
lemma host_eq (h : url.IsValid) : (∀ c ∈ url.bareHost, isHostChar c) ∧ url.bareHost ≠ [] ∧
    (url.host.toList = url.bareHost ∧ ':' ∉ url.bareHost ∨
      url.host.toList = '[' :: url.bareHost ++ [']'] ∧ ',' ∉ url.bareHost) := by
  rcases h.host with ⟨hne, hall⟩ | ⟨address, ha, hupper, hhost⟩
  · have hchars : ∀ c ∈ url.host.toList, isHostChar c := fun c hc =>
      isHostChar_of_isForbidden (hall c hc)
    have hbare : url.bareHost = url.host.toList := filter_brackets hchars
    rw [hbare]
    exact ⟨hchars, hne, .inl ⟨rfl, fun hmem => absurd (hall _ hmem) (by decide)⟩⟩
  · have hchars : ∀ c ∈ address, isHostChar c := fun c hc =>
      isHostChar_of_isAddressChar (ha.2 c hc) (hupper c hc)
    have hbare : url.bareHost = address := by
      rw [bareHost, hhost, List.filter_append, List.filter_cons_of_neg (by decide),
        filter_brackets hchars]
      exact List.append_nil _
    rw [hbare]
    refine ⟨hchars, List.ne_nil_of_mem ha.1, .inr ⟨hhost, fun hmem => ?_⟩⟩
    exact (facts_of_isAddressChar (ha.2 _ hmem)).2 (by decide)

lemma not_mem_bareHost (h : url.IsValid) : ∀ c ∈ ['[', ']', '@', '%'], c ∉ url.bareHost :=
  fun c hc hmem => ((host_eq h).1 c hmem).2.2.2 hc

/-- The network location is read as the host and the port. -/
lemma hostinfo_eq (h : url.IsValid) (scheme : List Char) :
    SplitResult.hostinfo ⟨scheme, url.host.toList ++ url.portText⟩ =
      (url.bareHost, url.portText.tail) := by
  have hnot := not_mem_bareHost h
  obtain ⟨-, -, ⟨hhost, hcolon⟩ | ⟨hhost, -⟩⟩ := host_eq h
  · rw [hhost, hostinfo_name ?_ url.isPortText]
    simp only [List.mem_cons, List.not_mem_nil, or_false, forall_eq_or_imp, forall_eq]
    exact ⟨hnot _ (by simp), hnot _ (by simp), hcolon⟩
  · rw [hhost, List.append_assoc, List.singleton_append, hostinfo_bracketed ?_ url.isPortText]
    simp only [List.mem_cons, List.not_mem_nil, or_false, forall_eq_or_imp, forall_eq]
    exact ⟨hnot _ (by simp), hnot _ (by simp)⟩

lemma isNetlocChar_of_mem (h : url.IsValid) :
    ∀ c ∈ url.host.toList ++ url.portText, isNetlocChar c = true := by
  have hchars : ∀ c ∈ url.bareHost, isNetlocChar c = true := fun c hc => ((host_eq h).1 c hc).1
  refine List.forall_mem_append.2 ⟨?_, ?_⟩
  · obtain ⟨-, -, ⟨hhost, -⟩ | ⟨hhost, -⟩⟩ := host_eq h
    · rwa [hhost]
    · rw [hhost]
      simp only [List.cons_append, List.forall_mem_cons, List.forall_mem_append]
      exact ⟨by decide, hchars, ⟨by decide, nofun⟩⟩
  · rcases url.isPortText with hport | ⟨digits, hport, hall⟩
    · rw [hport]
      exact nofun
    · rw [hport]
      refine List.forall_mem_cons.2 ⟨by decide, fun c hc => isNetlocChar_of_isNameChar ?_⟩
      simp [isNameChar, Char.isAlphanum, hall c hc]

/-- A URL has no white space and no control characters. -/
lemma visible_toString (h : url.IsValid) : ∀ c ∈ url.toString.toList, 0x20 < c.toNat := by
  rw [toString_eq, String.toList_ofList]
  have hsep : ∀ c ∈ "://".toList, 0x20 < c.toNat := by
    have hall : "://".toList.all (fun c => 0x20 < c.toNat) = true := by decide
    exact fun c hc => of_decide_eq_true (List.all_eq_true.1 hall c hc)
  refine List.forall_mem_append.2 ⟨fun c hc => (visible_of_isScheme (isScheme h) c hc).1,
    List.forall_mem_append.2 ⟨hsep, fun c hc => ?_⟩⟩
  have hnetloc := isNetlocChar_of_mem h c hc
  simp only [isNetlocChar, Bool.and_eq_true, decide_eq_true_eq] at hnetloc
  exact hnetloc.1

/-- The port of the network location, or the one of the scheme. -/
lemma port_eq {result : SplitResult} (hinfo : result.hostinfo.2 = url.portText.tail)
    {port : Option ℕ} (h : result.port = .ok port) : port.getD url.defaultPort = url.shownPort := by
  unfold SplitResult.port at h
  dsimp only at h
  rw [hinfo] at h
  obtain ⟨scheme, host, _ | _ | n⟩ := url
  · obtain rfl := Except.ok.inj h
    rfl
  · obtain rfl := Except.ok.inj h
    rfl
  · have htail : (HttpUrl.mk scheme host (some (n + 1))).portText.tail = Nat.toDigits 10 (n + 1) :=
      rfl
    have hdigits : ∀ c ∈ Nat.toDigits 10 (n + 1), c.isDigit = true := fun c hc =>
      Nat.isDigit_of_mem_toDigits (by decide) (by decide) hc
    rw [htail, if_neg Nat.toDigits_ne_nil, if_pos (List.all_eq_true.2 hdigits),
      ← Nat.ofDigitChars_eq_foldl, Nat.ofDigitChars_ten_toDigits] at h
    split_ifs at h
    rw [← Except.ok.inj h]
    rfl

lemma defaultPort_eq (h : url.IsValid) :
    (if url.scheme.toList.map Char.toLower = "https".toList then 443 else 80) =
      url.defaultPort := by
  have hscheme := h.scheme
  simp only [List.mem_cons, List.not_mem_nil, or_false] at hscheme
  unfold defaultPort
  rcases hscheme with hscheme | hscheme
  · rw [hscheme]
    decide
  · rw [hscheme]
    decide

/-- The endpoint of the proxy is the one that the URL names, with the port that is shown. -/
lemma proxyEndpoint_eq {preferHttpProxy : Bool} {endpoint : String × ℕ}
    (hlower : r.library.LowersAscii) (hvalid : url.IsValid)
    (hproxy : r.proxy preferHttpProxy = some url.toString)
    (h : r.proxyEndpoint preferHttpProxy = .ok endpoint) :
    endpoint.1.toList = url.bareHost ∧ endpoint.2 = url.shownPort := by
  obtain ⟨hchars, hne, -⟩ := host_eq hvalid
  have hinfo := hostinfo_eq hvalid (url.scheme.toList.map Char.toLower)
  have hhostname : SplitResult.hostname ⟨url.scheme.toList.map Char.toLower,
      url.host.toList ++ url.portText⟩ r.library = some (String.ofList url.bareHost) := by
    have hascii : ∀ c ∈ url.bareHost, c.toNat < 0x80 ∧ c ≠ '%' := fun c hc =>
      ⟨(hchars c hc).2.1, fun heq => not_mem_bareHost hvalid '%' (by simp) (heq ▸ hc)⟩
    have hmap : url.bareHost.map Char.toLower = url.bareHost :=
      (List.map_congr_left fun c hc => toLower_eq (hchars c hc).2.2.1).trans (List.map_id _)
    have hhost := (congrArg Prod.fst hinfo).trans (List.append_nil _).symm
    rw [hostname_eq hlower hhost hne hascii (.inl rfl), hmap, List.append_nil]
  unfold ProxyRouteResolver.proxyEndpoint at h
  rw [hproxy] at h
  dsimp only at h
  rw [toString_eq, urlparse_url (isScheme hvalid) (isNetlocChar_of_mem hvalid)] at h
  split_ifs at h
  · cases hport : SplitResult.port ⟨url.scheme.toList.map Char.toLower,
        url.host.toList ++ url.portText⟩ with
    | error e =>
      have h : (SplitResult.port _ >>= _ : Except Exc _) = _ := h
      rw [hport] at h
      cases h
    | ok port =>
      have h : (SplitResult.port _ >>= _ : Except Exc _) = _ := h
      rw [hport] at h
      obtain rfl := Except.ok.inj h
      dsimp only
      rw [hhostname, defaultPort_eq hvalid]
      exact ⟨String.toList_ofList, port_eq (by rw [hinfo]) hport⟩
  · exact absurd h nofun

end HttpUrl

end Egress
end MediawikiCharm
