/-
Addresses of `socat`.

An address has a keyword and parameters, with colons between them, and options behind commas.  An
address of version 6 among the parameters stands in square brackets, in which no colon and no
comma separates.
-/
import MediawikiCharm.Lib.Split

namespace Socat

open Split

/-- The parts of a text between the separators that do not stand in square brackets. -/
def splitOutside (sep : Char) : Bool → List Char → List (List Char)
  | _, [] => [[]]
  | inside, c :: s =>
    if c = sep ∧ inside = false then [] :: splitOutside sep false s
    else (splitOutside sep (c = '[' || (c ≠ ']' && inside)) s).modifyHead (c :: ·)

/-- A parameter, without the brackets of an address. -/
def unbracket (s : List Char) : List Char :=
  if s.head? = some '[' ∧ s.getLast? = some ']' then s.tail.dropLast else s

/-- A number in decimal digits. -/
def readNumber (s : List Char) : Option ℕ :=
  if s ≠ [] ∧ s.all Char.isDigit then some (Nat.ofDigitChars 10 s 0) else none

/-- What an address of type `PROXY` asks for: a connection through the port of a proxy to the
port of a host. -/
structure ProxyAddress where
  proxy : List Char
  host : List Char
  port : ℕ
  proxyPort : ℕ
  deriving DecidableEq

/-- The option for the port of the proxy, which is 8080 without it. -/
def readProxyPort (options : List (List Char)) : Option ℕ :=
  match options.find? fun option => "proxyport=".toList.isPrefixOf option with
  | none => some 8080
  | some option => readNumber (option.drop "proxyport=".length)

/-- Read an address of type `PROXY`. -/
def readProxy (s : List Char) : Option ProxyAddress :=
  match splitOutside ',' false s with
  | [] => none
  | address :: options =>
    match splitOutside ':' false address with
    | [keyword, proxy, host, port] =>
      if keyword = "PROXY".toList then do
        let port ← readNumber port
        let proxyPort ← readProxyPort options
        return ⟨unbracket proxy, unbracket host, port, proxyPort⟩
      else none
    | _ => none

/-- Brackets keep an address together. -/
example : readProxy "PROXY:[fd00::1]:[2001:db8::1]:25,proxyport=3128".toList =
    some ⟨"fd00::1".toList, "2001:db8::1".toList, 25, 3128⟩ := by
  decide

/-! ### Texts without brackets -/

lemma splitOutside_eq_splitOn {sep : Char} {s : List Char} (h : '[' ∉ s) :
    splitOutside sep false s = s.splitOn sep := by
  induction s with
  | nil => rfl
  | cons c s ih =>
    obtain ⟨hc, hs⟩ := not_or.1 (List.mem_cons.not.1 h)
    have hopen : (c = '[' || (c ≠ ']' && false)) = false := by
      rw [Bool.and_false, Bool.or_false]
      exact decide_eq_false (Ne.symm hc)
    rw [splitOutside, List.splitOn_cons_eq_if_modifyHead, hopen, ih hs]
    simp only [and_true, beq_iff_eq]

lemma unbracket_of_not_mem {s : List Char} (h : '[' ∉ s) : unbracket s = s :=
  if_neg fun hs => h (List.mem_of_head? hs.1)

@[simp] lemma readNumber_toDigits (n : ℕ) : readNumber (Nat.toDigits 10 n) = some n := by
  rw [readNumber, if_pos, Nat.ofDigitChars_ten_toDigits]
  exact ⟨Nat.toDigits_ne_nil, List.all_eq_true.2 fun c hc =>
    Nat.isDigit_of_mem_toDigits (by decide) (by decide) hc⟩

lemma not_mem_toDigits {c : Char} (h : c.isDigit = false) (n : ℕ) : c ∉ Nat.toDigits 10 n :=
  fun hc => absurd ((Nat.isDigit_of_mem_toDigits (by decide) (by decide) hc).symm.trans h) nofun

/-! ### Reading back an address -/

/-- The text of an address with a port of the proxy and one more option. -/
def proxyText (a : ProxyAddress) (option : List Char) : List Char :=
  "PROXY:".toList ++ (a.proxy ++ ':' :: (a.host ++ ':' :: (Nat.toDigits 10 a.port ++
    ',' :: ("proxyport=".toList ++ (Nat.toDigits 10 a.proxyPort ++ ',' :: option)))))

variable {a b : ProxyAddress} {option : List Char}

/-- An address is read from a part of the text before the first comma. -/
lemma exists_of_readProxy {s : List Char} (hs : '[' ∉ s) (h : readProxy s = some a) :
    ∃ address ∈ s.splitOn ',', a.proxy ∈ address.splitOn ':' ∧ a.host ∈ address.splitOn ':' := by
  unfold readProxy at h
  rw [splitOutside_eq_splitOn hs] at h
  cases hparts : s.splitOn ',' with
  | nil => exact absurd hparts (List.splitOn_ne_nil _ _)
  | cons address options =>
    rw [hparts] at h
    have haddress : address ∈ s.splitOn ',' := hparts ▸ List.mem_cons_self
    have hnot : '[' ∉ address := fun hc => hs (mem_of_mem_splitOn haddress hc)
    refine ⟨address, List.mem_cons_self, ?_⟩
    dsimp only at h
    rw [splitOutside_eq_splitOn hnot] at h
    split at h
    · next keyword proxy host port hparams =>
      have hbracket : ∀ param ∈ address.splitOn ':', unbracket param = param := fun param hparam =>
        unbracket_of_not_mem fun hc => hnot (mem_of_mem_splitOn hparam hc)
      rw [hparams] at hbracket ⊢
      split_ifs at h
      obtain ⟨n, -, h⟩ := Option.bind_eq_some_iff.1 h
      obtain ⟨m, -, h⟩ := Option.bind_eq_some_iff.1 h
      obtain rfl := Option.some.inj h
      rw [hbracket proxy (by simp), hbracket host (by simp)]
      exact ⟨by simp, by simp⟩
    · exact absurd h nofun

lemma not_mem_proxyText {c : Char} (hproxy : c ∉ a.proxy) (hhost : c ∉ a.host)
    (hoption : c ∉ option) (hdigit : c.isDigit = false)
    (hc : c ∉ "PROXY:".toList ++ "proxyport=".toList ++ [':', ',']) : c ∉ proxyText a option := by
  simp only [List.mem_append, List.mem_cons, List.not_mem_nil, or_false, not_or] at hc
  simp only [proxyText, List.mem_append, List.mem_cons, not_or]
  exact ⟨hc.1.1, hproxy, hc.2.1, hhost, hc.2.1, not_mem_toDigits hdigit _, hc.2.2, hc.1.2,
    not_mem_toDigits hdigit _, hc.2.2, hoption⟩

lemma readProxyPort_cons (n : ℕ) (options : List (List Char)) :
    readProxyPort (("proxyport=".toList ++ Nat.toDigits 10 n) :: options) = some n := by
  have hprefix : "proxyport=".toList.isPrefixOf ("proxyport=".toList ++ Nat.toDigits 10 n) = true :=
    List.isPrefixOf_iff_prefix.2 (List.prefix_append _ _)
  have hdrop : ("proxyport=".toList ++ Nat.toDigits 10 n).drop "proxyport=".length =
      Nat.toDigits 10 n := List.drop_left
  rw [readProxyPort, List.find?_cons_of_pos hprefix]
  dsimp only
  rw [hdrop, readNumber_toDigits]

lemma readProxy_proxyText (hproxy : '[' ∉ a.proxy) (hhost : '[' ∉ a.host) (hoption : '[' ∉ option)
    (h : ∀ c ∈ [':', ','], c ∉ a.proxy ∧ c ∉ a.host) : readProxy (proxyText a option) = some a := by
  have htext : proxyText a option = ("PROXY".toList ++ ':' :: (a.proxy ++ ':' :: (a.host ++
      ':' :: Nat.toDigits 10 a.port))) ++ ',' :: (("proxyport=".toList ++
        Nat.toDigits 10 a.proxyPort) ++ ',' :: option) := by
    simp [proxyText]
  have hcomma : ',' ∉ "PROXY".toList ++ ':' :: (a.proxy ++ ':' :: (a.host ++
      ':' :: Nat.toDigits 10 a.port)) := by
    have hmem := h ',' (by simp)
    have hdigits := not_mem_toDigits (c := ',') rfl a.port
    simp [hmem, hdigits]
  have hcomma' : ',' ∉ "proxyport=".toList ++ Nat.toDigits 10 a.proxyPort := by
    have hdigits := not_mem_toDigits (c := ',') rfl a.proxyPort
    simp [hdigits]
  have hcolon := h ':' (by simp)
  have hparams : ("PROXY".toList ++ ':' :: (a.proxy ++ ':' :: (a.host ++
      ':' :: Nat.toDigits 10 a.port))).splitOn ':' =
        ["PROXY".toList, a.proxy, a.host, Nat.toDigits 10 a.port] := by
    rw [List.splitOn_append_cons_self_of_not_mem (by decide),
      List.splitOn_append_cons_self_of_not_mem hcolon.1,
      List.splitOn_append_cons_self_of_not_mem hcolon.2,
      List.splitOn_eq_singleton (not_mem_toDigits rfl _)]
  have hopen : '[' ∉ "PROXY".toList ++ ':' :: (a.proxy ++ ':' :: (a.host ++
      ':' :: Nat.toDigits 10 a.port)) := by
    have hdigits := not_mem_toDigits (c := '[') rfl a.port
    simp [hproxy, hhost, hdigits]
  unfold readProxy
  rw [splitOutside_eq_splitOn (not_mem_proxyText hproxy hhost hoption rfl (by decide)), htext,
    List.splitOn_append_cons_self_of_not_mem hcomma,
    List.splitOn_append_cons_self_of_not_mem hcomma']
  dsimp only
  rw [splitOutside_eq_splitOn hopen, hparams]
  dsimp only
  rw [if_pos rfl, readNumber_toDigits, readProxyPort_cons, unbracket_of_not_mem hproxy,
    unbracket_of_not_mem hhost]
  rfl

/-- An address without brackets is read back exactly if no colon and no comma stands in the names
of its hosts. -/
theorem readProxy_proxyText_iff (hproxy : '[' ∉ a.proxy) (hhost : '[' ∉ a.host)
    (hoption : '[' ∉ option) (hbproxy : b.proxy = a.proxy) (hbhost : b.host = a.host) :
    readProxy (proxyText a option) = some b ↔
      b = a ∧ ∀ c ∈ [':', ','], c ∉ a.proxy ∧ c ∉ a.host := by
  constructor
  · intro h
    have hopen := not_mem_proxyText hproxy hhost hoption rfl (by decide)
    obtain ⟨address, haddress, hp, hh⟩ := exists_of_readProxy hopen h
    rw [hbproxy] at hp
    rw [hbhost] at hh
    have hplain : ∀ c ∈ [':', ','], c ∉ a.proxy ∧ c ∉ a.host := by
      simp only [List.mem_cons, List.not_mem_nil, or_false, forall_eq_or_imp, forall_eq]
      refine ⟨⟨not_mem_of_mem_splitOn hp, not_mem_of_mem_splitOn hh⟩, fun hc => ?_, fun hc => ?_⟩
      · exact not_mem_of_mem_splitOn haddress (mem_of_mem_splitOn hp hc)
      · exact not_mem_of_mem_splitOn haddress (mem_of_mem_splitOn hh hc)
    have hread := readProxy_proxyText hproxy hhost hoption hplain
    exact ⟨Option.some.inj (h.symm.trans hread), hplain⟩
  · rintro ⟨rfl, hplain⟩
    exact readProxy_proxyText hproxy hhost hoption hplain

lemma toDigits_inj {m n : ℕ} (h : Nat.toDigits 10 m = Nat.toDigits 10 n) : m = n := by
  rw [← @Nat.ofDigitChars_ten_toDigits m, h, Nat.ofDigitChars_ten_toDigits]

/-- What stands behind the host in the text of an address. -/
def portText (a : ProxyAddress) (option : List Char) : List Char :=
  Nat.toDigits 10 a.port ++
    ',' :: ("proxyport=".toList ++ (Nat.toDigits 10 a.proxyPort ++ ',' :: option))

lemma not_mem_portText (hoption : ':' ∉ option) : ':' ∉ portText a option := by
  have hport := not_mem_toDigits (c := ':') rfl a.port
  have hproxyPort := not_mem_toDigits (c := ':') rfl a.proxyPort
  simp [portText, hport, hproxyPort, hoption]

lemma splitOn_proxyText (hoption : ':' ∉ option) : (proxyText a option).splitOn ':' =
    "PROXY".toList :: (a.proxy.splitOn ':' ++ (a.host.splitOn ':' ++ [portText a option])) := by
  have htext : proxyText a option = "PROXY".toList ++ ':' :: (a.proxy ++ ':' :: (a.host ++
      ':' :: portText a option)) := by
    simp [proxyText, portText]
  rw [htext, List.splitOn_append_cons_self_of_not_mem (by decide), List.splitOn_append_cons_self,
    List.splitOn_append_cons_self, List.splitOn_eq_singleton (not_mem_portText hoption)]

/-- Two addresses with the same text, one of which has no colon in its names, agree on the host
and its port. -/
theorem eq_of_proxyText_eq (hproxy : ':' ∉ a.proxy) (hhost : ':' ∉ a.host) (hoption : ':' ∉ option)
    (heq : proxyText b option = proxyText a option) : b.host = a.host ∧ b.port = a.port := by
  have hsplit := splitOn_proxyText (a := b) hoption
  rw [heq, splitOn_proxyText hoption, List.splitOn_eq_singleton hproxy,
    List.splitOn_eq_singleton hhost] at hsplit
  -- the other address has no colon to spare
  have hlength := congrArg List.length hsplit
  simp only [List.length_cons, List.length_append, List.length_nil, length_splitOn] at hlength
  have hproxy' : ':' ∉ b.proxy := List.count_eq_zero.1 (by omega)
  have hhost' : ':' ∉ b.host := List.count_eq_zero.1 (by omega)
  rw [List.splitOn_eq_singleton hproxy', List.splitOn_eq_singleton hhost'] at hsplit
  simp only [List.cons_append, List.nil_append, List.cons.injEq, true_and, and_true] at hsplit
  have hport := congrArg (List.splitOn ',') hsplit.2.2
  rw [portText, portText, List.splitOn_append_cons_self_of_not_mem (not_mem_toDigits rfl _),
    List.splitOn_append_cons_self_of_not_mem (not_mem_toDigits rfl _), List.cons.injEq] at hport
  exact ⟨hsplit.2.1.symm, toDigits_inj hport.1.symm⟩

end Socat
