/-
IP addresses, as Python's `ipaddress` reads them.

An address of version 6 is split at its colons.  At most one part between two colons may be
empty; it stands for the groups that are left out.  Behind a `%` an address may have a scope
identifier, which is any text without another `%`.
-/
import MediawikiCharm.Lib.PyText
import MediawikiCharm.Lib.Split

namespace PyAddress

open PyText Split

/-! ### Parts of a text -/

section Parts

variable {α : Type} [DecidableEq α] {c : α} {s t : List α}

/-- `s.partition(sep)[0]` -/
def before (sep : α) (s : List α) : List α := s.takeWhile (· ≠ sep)

/-- `s.partition(sep)[2]` -/
def after (sep : α) (s : List α) : List α := (s.dropWhile (· ≠ sep)).tail

lemma not_mem_before : c ∉ before c s := by
  intro h
  have hne := List.mem_takeWhile_imp h
  simp at hne

lemma before_of_not_mem (h : c ∉ s) : before c s = s := by
  refine List.takeWhile_eq_self_iff.2 fun d hd => decide_eq_true ?_
  rintro rfl
  exact h hd

lemma after_of_not_mem (h : c ∉ s) : after c s = [] := by
  have hdrop : s.dropWhile (· ≠ c) = [] := by
    refine List.dropWhile_eq_nil_iff.2 fun d hd => decide_eq_true ?_
    rintro rfl
    exact h hd
  rw [after, hdrop]
  rfl

lemma before_append (h : c ∉ s) : before c (s ++ c :: t) = s := by
  have hs : ∀ d ∈ s, decide (d ≠ c) = true := fun d hd =>
    decide_eq_true fun hdc => h (hdc ▸ hd)
  rw [before, List.takeWhile_append_of_pos hs]
  simp

lemma after_append (h : c ∉ s) : after c (s ++ c :: t) = t := by
  have hs : ∀ d ∈ s, decide (d ≠ c) = true := fun d hd =>
    decide_eq_true fun hdc => h (hdc ▸ hd)
  rw [after, List.dropWhile_append_of_pos hs]
  simp

lemma before_append_after (h : c ∈ s) : before c s ++ c :: after c s = s := by
  obtain ⟨s, t, rfl, hc⟩ := List.eq_append_cons_of_mem h
  rw [before_append hc, after_append hc]

end Parts

/-! ### Reading an address -/

/-- A digit of ASCII. -/
def isDigit (c : PyChar) : Bool := 0x30 ≤ c.val && c.val ≤ 0x39

/-- A letter of ASCII. -/
def isAlpha (c : PyChar) : Bool :=
  (0x41 ≤ c.val && c.val ≤ 0x5a) || (0x61 ≤ c.val && c.val ≤ 0x7a)

/-- A hexadecimal digit of ASCII. -/
def isHexDigit (c : PyChar) : Bool :=
  isDigit c || (0x41 ≤ c.val && c.val ≤ 0x46) || (0x61 ≤ c.val && c.val ≤ 0x66)

/-- `int(s)` of ASCII digits -/
def decimal (s : PyStr) : ℕ := s.foldl (fun n c => 10 * n + (c.val - 0x30)) 0

/-- `_parse_octet` -/
def parseOctet (octet : PyStr) : Option ℕ :=
  if octet = [] ∨ ¬ octet.all isDigit ∨ 3 < octet.length then none
  else if octet ≠ lit "0" ∧ octet.head? = some (ofChar '0') then none
  else if 255 < decimal octet then none
  else some (decimal octet)

/-- `IPv4Address(s)._ip` -/
def parseIPv4 (s : PyStr) : Option ℕ :=
  match s.splitOn (ofChar '.') with
  | [a, b, c, d] => do
    let a ← parseOctet a
    let b ← parseOctet b
    let c ← parseOctet c
    let d ← parseOctet d
    some (((a * 0x100 + b) * 0x100 + c) * 0x100 + d)
  | _ => none

/-- `_parse_hextet` accepts the group. -/
def isHextet (s : PyStr) : Bool := s ≠ [] && s.all isHexDigit && s.length ≤ 4

/-- The parts between the colons, with an address of version 4 at the end as two groups (written
with zeros in front, which no reader of a group minds). -/
def hextetParts (s : PyStr) : Option (List PyStr) :=
  let parts := s.splitOn (ofChar ':')
  if parts.length < 3 then none
  else if ofChar '.' ∈ parts.getLastD [] then
    (parseIPv4 (parts.getLastD [])).map fun ip =>
      parts.dropLast ++ [chars (hex 4 (ip / 0x10000 % 0x10000)), chars (hex 4 (ip % 0x10000))]
  else some parts

/-- The inner parts that are empty. -/
def skips (parts : List PyStr) : List ℕ :=
  (List.range parts.length).filter fun i => 0 < i ∧ i + 1 < parts.length ∧ parts[i]? = some []

/-- The parts that are parsed: those in front of and behind a `::`. -/
def hextets (parts : List PyStr) : Option (List PyStr) :=
  match skips parts with
  | [] =>
    if parts.length = 8 ∧ parts.head? ≠ some [] ∧ parts.getLast? ≠ some [] then some parts else none
  | [i] =>
    let hi := if parts.head? = some [] then i - 1 else i
    let lo := if parts.getLast? = some [] then parts.length - i - 2 else parts.length - i - 1
    if (parts.head? = some [] → hi = 0) ∧ (parts.getLast? = some [] → lo = 0) ∧ hi + lo < 8 then
      some (parts.take hi ++ parts.drop (parts.length - lo))
    else none
  | _ => none

/-- The text is an address of version 6 without a scope identifier. -/
def isIPv6 (s : PyStr) : Bool :=
  match hextetParts s with
  | none => false
  | some parts => parts.length ≤ 9 && (hextets parts).any fun groups => groups.all isHextet

/-- `IPv4Address(s)` does not raise. -/
def isIPv4Address (s : PyStr) : Bool := (parseIPv4 s).isSome

/-- `IPv6Address(s)` does not raise: the address may have a scope identifier. -/
def isIPv6Address (s : PyStr) : Bool :=
  ofChar '/' ∉ s && isIPv6 (before (ofChar '%') s) &&
    (ofChar '%' ∉ s || (after (ofChar '%') s ≠ [] && ofChar '%' ∉ after (ofChar '%') s))

/-- `ip_address(s)` does not raise. -/
def isAddress (s : PyStr) : Bool := isIPv4Address s || isIPv6Address s

/-! ### Characters of an address -/

/-- The characters of an address without a scope identifier. -/
def isAddressChar (c : PyChar) : Bool := isHexDigit c || c = ofChar ':' || c = ofChar '.'

lemma all_isDigit_of_parseOctet {octet : PyStr} (h : (parseOctet octet).isSome) :
    ∀ c ∈ octet, isDigit c = true := by
  unfold parseOctet at h
  split_ifs at h with h₁ h₂ h₃
  · exact absurd h nofun
  · exact absurd h nofun
  · exact absurd h nofun
  · have hall : octet.all isDigit = true := by
      by_contra hno
      exact h₁ (.inr (.inl (by simpa using hno)))
    exact List.all_eq_true.1 hall

lemma mem_of_isIPv4Address {s : PyStr} (h : isIPv4Address s = true) :
    ∀ c ∈ s, isDigit c = true ∨ c = ofChar '.' := by
  intro c hc
  by_cases hdot : c = ofChar '.'
  · exact .inr hdot
  · refine .inl ?_
    obtain ⟨part, hpart, hmem⟩ := mem_splitOn hc hdot
    obtain ⟨n, hn⟩ := Option.isSome_iff_exists.1 h
    unfold parseIPv4 at hn
    split at hn
    · next a b c' d hsplit =>
      simp only [Option.bind_eq_bind, Option.bind_eq_some_iff] at hn
      obtain ⟨_, ha, _, hb, _, hc', _, hd, -⟩ := hn
      have hoctet : (parseOctet part).isSome := by
        rw [hsplit] at hpart
        simp only [List.mem_cons, List.not_mem_nil, or_false] at hpart
        rcases hpart with rfl | rfl | rfl | rfl
        · exact Option.isSome_iff_exists.2 ⟨_, ha⟩
        · exact Option.isSome_iff_exists.2 ⟨_, hb⟩
        · exact Option.isSome_iff_exists.2 ⟨_, hc'⟩
        · exact Option.isSome_iff_exists.2 ⟨_, hd⟩
      exact all_isDigit_of_parseOctet hoctet c hmem
    · exact absurd hn nofun

lemma mem_skips {parts : List PyStr} {i : ℕ} :
    i ∈ skips parts ↔ 0 < i ∧ i + 1 < parts.length ∧ parts[i]? = some [] := by
  rw [skips, List.mem_filter, List.mem_range, decide_eq_true_eq]
  constructor
  · exact fun h => h.2
  · exact fun h => ⟨by omega, h⟩

lemma mem_take_or_drop {parts : List PyStr} {i hi lo : ℕ} (hlen : i + 1 < parts.length)
    (hi_empty : parts[i]? = some [])
    (hhi : hi = i ∨ parts.head? = some [] ∧ i = 1 ∧ hi = 0)
    (hlo : lo = parts.length - i - 1 ∨ parts.getLast? = some [] ∧ i + 2 = parts.length ∧ lo = 0)
    {part : PyStr} (hpart : part ∈ parts) :
    part = [] ∨ part ∈ parts.take hi ++ parts.drop (parts.length - lo) := by
  obtain ⟨j, hj⟩ := List.mem_iff_getElem?.1 hpart
  have hjlen : j < parts.length := (List.getElem?_eq_some_iff.1 hj).1
  rw [List.mem_append]
  by_cases hbefore : j < hi
  · refine .inr (.inl (List.mem_iff_getElem?.2 ⟨j, ?_⟩))
    rw [List.getElem?_take_of_lt hbefore, hj]
  · by_cases hbehind : parts.length - lo ≤ j
    · refine .inr (.inr (List.mem_iff_getElem?.2 ⟨j - (parts.length - lo), ?_⟩))
      rw [List.getElem?_drop, ← hj]
      congr 1
      omega
    · left
      -- the part is the skipped one, or the first or last one next to it
      have hjcases : j = i ∨ (parts.head? = some [] ∧ j = 0) ∨
          (parts.getLast? = some [] ∧ j + 1 = parts.length) := by
        rcases hhi with hhi | ⟨hhead, hone, hhi⟩ <;> rcases hlo with hlo | ⟨hlast, htwo, hlo⟩
        · exact .inl (by omega)
        · by_cases hji : j = i
          · exact .inl hji
          · exact .inr (.inr ⟨hlast, by omega⟩)
        · by_cases hji : j = i
          · exact .inl hji
          · exact .inr (.inl ⟨hhead, by omega⟩)
        · by_cases hji : j = i
          · exact .inl hji
          · by_cases hj0 : j = 0
            · exact .inr (.inl ⟨hhead, hj0⟩)
            · exact .inr (.inr ⟨hlast, by omega⟩)
      rcases hjcases with rfl | ⟨hhead, rfl⟩ | ⟨hlast, hjlast⟩
      · exact Option.some.inj (hj.symm.trans hi_empty)
      · rw [List.head?_eq_getElem?] at hhead
        exact Option.some.inj (hj.symm.trans hhead)
      · rw [List.getLast?_eq_getElem?] at hlast
        have hjeq : j = parts.length - 1 := by omega
        rw [← hjeq] at hlast
        exact Option.some.inj (hj.symm.trans hlast)

/-- What is not parsed is empty. -/
lemma mem_hextets {parts groups : List PyStr} (h : hextets parts = some groups) {part : PyStr}
    (hpart : part ∈ parts) : part = [] ∨ part ∈ groups := by
  unfold hextets at h
  split at h
  · split_ifs at h with hc
    obtain rfl := Option.some.inj h
    exact .inr hpart
  · next i hskips =>
    obtain ⟨hpos, hlen, hi⟩ := mem_skips.1 (hskips ▸ List.mem_singleton_self i)
    dsimp only at h
    by_cases hhead : parts.head? = some [] <;> by_cases hlast : parts.getLast? = some []
    all_goals
      simp only [hhead, hlast, if_true, if_false, true_implies, false_implies, true_and] at h
      split_ifs at h with hc
      obtain rfl := Option.some.inj h
      refine mem_take_or_drop hlen hi ?_ ?_ hpart
    · exact .inr ⟨hhead, by omega, hc.1⟩
    · exact .inr ⟨hlast, by omega, hc.2.1⟩
    · exact .inr ⟨hhead, by omega, hc.1⟩
    · exact .inl rfl
    · exact .inl rfl
    · exact .inr ⟨hlast, by omega, hc.1⟩
    · exact .inl rfl
    · exact .inl rfl
  · exact absurd h nofun

lemma isAddressChar_of_isDigit {c : PyChar} (h : isDigit c = true) : isAddressChar c = true := by
  simp [isAddressChar, isHexDigit, h]

lemma isAddressChar_of_isHexDigit {c : PyChar} (h : isHexDigit c = true) :
    isAddressChar c = true := by
  simp [isAddressChar, h]

/-- An address of version 6 is read from its parts. -/
lemma exists_of_isIPv6 {s : PyStr} (h : isIPv6 s = true) : ∃ parts groups,
    hextetParts s = some parts ∧ hextets parts = some groups ∧ parts.length ≤ 9 ∧
      ∀ group ∈ groups, isHextet group = true := by
  unfold isIPv6 at h
  split at h
  · exact absurd h nofun
  · next parts hparts =>
    rw [Bool.and_eq_true, decide_eq_true_eq, Option.any_eq_true] at h
    obtain ⟨hlen, groups, hgroups, hall⟩ := h
    exact ⟨parts, groups, hparts, hgroups, hlen, List.all_eq_true.1 hall⟩

lemma mem_of_isHextet {s : PyStr} (h : isHextet s = true) : ∀ c ∈ s, isHexDigit c = true := by
  rw [isHextet, Bool.and_eq_true, Bool.and_eq_true] at h
  exact List.all_eq_true.1 h.1.2

lemma mem_of_isIPv6 {s : PyStr} (h : isIPv6 s = true) : ∀ c ∈ s, isAddressChar c = true := by
  intro c hc
  obtain ⟨parts, groups, hparts, hgroups, -, hall⟩ := exists_of_isIPv6 h
  by_cases hcolon : c = ofChar ':'
  · simp [isAddressChar, hcolon]
  · obtain ⟨part, hpart, hmem⟩ := mem_splitOn hc hcolon
    have hgroup : ∀ part ∈ parts, c ∈ part → isAddressChar c = true := by
      intro part hpart hmem
      rcases mem_hextets hgroups hpart with rfl | hgroup
      · exact absurd hmem List.not_mem_nil
      · exact isAddressChar_of_isHexDigit (mem_of_isHextet (hall _ hgroup) c hmem)
    unfold hextetParts at hparts
    dsimp only at hparts
    split_ifs at hparts with hshort hdot
    · obtain ⟨ip, hip, rfl⟩ := Option.map_eq_some_iff.1 hparts
      -- the last part is an address of version 4
      rcases eq_or_ne part ((s.splitOn (ofChar ':')).getLastD []) with rfl | hne
      · have hv4 := mem_of_isIPv4Address (Option.isSome_iff_exists.2 ⟨ip, hip⟩) c hmem
        rcases hv4 with hdigit | hdot
        · exact isAddressChar_of_isDigit hdigit
        · simp [isAddressChar, hdot]
      · refine hgroup part (List.mem_append_left _ ?_) hmem
        have hsplit := List.dropLast_append_getLast (List.splitOn_ne_nil (ofChar ':') s)
        rw [← hsplit, List.mem_append, List.mem_singleton] at hpart
        refine hpart.resolve_right fun he => hne (he.trans ?_)
        rw [List.getLastD_eq_getLast?, List.getLast?_eq_some_getLast (List.splitOn_ne_nil _ _)]
        rfl
    · obtain rfl := Option.some.inj hparts
      exact hgroup part hpart hmem

lemma colon_mem_of_isIPv6 {s : PyStr} (h : isIPv6 s = true) : ofChar ':' ∈ s := by
  by_contra hno
  obtain ⟨parts, -, hparts, -⟩ := exists_of_isIPv6 h
  rw [hextetParts, List.splitOn_eq_singleton hno] at hparts
  exact absurd hparts nofun

/-! ### Lower case -/

/-- `K`, the only character beyond ASCII which is in ASCII in lower case. -/
def kelvin : PyChar := 0x212a

/-- A character in lower case that is in ASCII there. -/
def lowerChar (c : PyChar) : PyChar :=
  if c = kelvin then ofChar 'k'
  else if 0x41 ≤ c.val ∧ c.val ≤ 0x5a then Fin.ofNat _ (c.val + 0x20)
  else c

lemma lowerChar_val (c : PyChar) : (lowerChar c).val =
    if c = kelvin then 0x6b else if 0x41 ≤ c.val ∧ c.val ≤ 0x5a then c.val + 0x20 else c.val := by
  unfold lowerChar
  split_ifs with h₁ h₂
  · rfl
  · exact Nat.mod_eq_of_lt (by omega)
  · rfl

lemma kelvin_val : kelvin.val = 0x212a := rfl

/-- A character that is not a letter is one only of itself in lower case. -/
lemma lowerChar_eq_iff {c d : PyChar} (hd : d.val < 0x41 ∨ 0x5a < d.val ∧ d.val < 0x61 ∨
    0x7a < d.val ∧ d.val < 0x80) : lowerChar c = d ↔ c = d := by
  have hk : d ≠ kelvin := by
    rintro rfl
    rw [kelvin_val] at hd
    omega
  constructor
  · intro h
    have hval := lowerChar_val c
    rw [h] at hval
    split_ifs at hval
    · omega
    · omega
    · exact Fin.ext hval.symm
  · rintro rfl
    refine Fin.ext ?_
    rw [lowerChar_val, if_neg hk, if_neg (by omega)]

lemma lowerChar_eq_of_isDigit {c : PyChar} (h : isDigit (lowerChar c) = true) :
    lowerChar c = c := by
  rw [isDigit, Bool.and_eq_true, decide_eq_true_eq, decide_eq_true_eq] at h
  exact ((lowerChar_eq_iff (by omega)).1 rfl).symm

lemma lowerChar_of_isDigit {c : PyChar} (h : isDigit c = true) : lowerChar c = c := by
  rw [isDigit, Bool.and_eq_true, decide_eq_true_eq, decide_eq_true_eq] at h
  exact (lowerChar_eq_iff (by omega)).2 rfl

@[simp] lemma isHexDigit_lowerChar (c : PyChar) : isHexDigit (lowerChar c) = isHexDigit c := by
  rw [Bool.eq_iff_iff]
  simp only [isHexDigit, isDigit, Bool.or_eq_true, Bool.and_eq_true, decide_eq_true_eq,
    lowerChar_val]
  split_ifs with h
  · rw [h, kelvin_val]
    omega
  · omega
  · omega

lemma map_eq_self {f : PyChar → PyChar} {s : PyStr} (h : ∀ c ∈ s, f c = c) : s.map f = s :=
  (List.map_congr_left h).trans (List.map_id s)

lemma lowerChar_dot {c : PyChar} : lowerChar c = ofChar '.' ↔ c = ofChar '.' :=
  lowerChar_eq_iff (by decide)

lemma lowerChar_colon {c : PyChar} : lowerChar c = ofChar ':' ↔ c = ofChar ':' :=
  lowerChar_eq_iff (by decide)

lemma map_lowerChar_of_isIPv4Address {s : PyStr} (h : isIPv4Address s = true) :
    s.map lowerChar = s := by
  refine map_eq_self fun c hc => ?_
  rcases mem_of_isIPv4Address h c hc with hdigit | rfl
  · exact lowerChar_of_isDigit hdigit
  · exact lowerChar_dot.2 rfl

lemma isIPv4Address_of_lower {s : PyStr} (h : isIPv4Address (s.map lowerChar) = true) :
    isIPv4Address s = true := by
  have hsame : s.map lowerChar = s := by
    refine map_eq_self fun c hc => ?_
    rcases mem_of_isIPv4Address h _ (List.mem_map_of_mem hc) with hdigit | hdot
    · exact lowerChar_eq_of_isDigit hdigit
    · exact hdot.trans (lowerChar_dot.1 hdot).symm
  rwa [hsame] at h

lemma map_eq_some_nil {o : Option PyStr} : o.map (List.map lowerChar) = some [] ↔ o = some [] := by
  cases o <;> simp

lemma skips_map {parts : List PyStr} : skips (parts.map (List.map lowerChar)) = skips parts := by
  simp only [skips, List.length_map, List.getElem?_map, map_eq_some_nil]

lemma hextets_map {parts : List PyStr} : hextets (parts.map (List.map lowerChar)) =
    (hextets parts).map (List.map (List.map lowerChar)) := by
  unfold hextets
  simp only [skips_map, List.length_map, List.head?_map, List.getLast?_map, map_eq_some_nil, ne_eq]
  split
  · split_ifs <;> rfl
  · split_ifs <;> simp [List.map_take, List.map_drop]
  · rfl

lemma map_lowerChar_hex (width n : ℕ) :
    (chars (hex width n)).map lowerChar = chars (hex width n) := by
  refine map_eq_self fun c hc => ?_
  obtain ⟨d, hd, rfl⟩ := List.mem_map.1 hc
  obtain ⟨i, -, rfl⟩ := List.mem_map.1 hd
  have hall : ∀ k : Fin 16, lowerChar (ofChar (hexDigit k)) = ofChar (hexDigit k) := by decide
  exact hall ⟨n / 16 ^ i % 16, Nat.mod_lt _ (by omega)⟩

lemma hextetParts_map {s : PyStr} {parts : List PyStr} (h : hextetParts s = some parts) :
    hextetParts (s.map lowerChar) = some (parts.map (List.map lowerChar)) := by
  have hlast : ((s.splitOn (ofChar ':')).map (List.map lowerChar)).getLastD [] =
      ((s.splitOn (ofChar ':')).getLastD []).map lowerChar := by
    rw [List.getLastD_eq_getLast?, List.getLastD_eq_getLast?, List.getLast?_map]
    cases (s.splitOn (ofChar ':')).getLast? <;> rfl
  have hdot : ∀ t : PyStr, ofChar '.' ∈ t.map lowerChar ↔ ofChar '.' ∈ t := by
    intro t
    rw [List.mem_map]
    constructor
    · rintro ⟨c, hc, hcd⟩
      exact lowerChar_dot.1 hcd ▸ hc
    · exact fun hc => ⟨_, hc, lowerChar_dot.2 rfl⟩
  unfold hextetParts at h ⊢
  dsimp only at h ⊢
  rw [splitOn_map fun c => lowerChar_colon, List.length_map, hlast]
  simp only [hdot]
  split_ifs at h ⊢ with hshort hv4
  · obtain ⟨ip, hip, rfl⟩ := Option.map_eq_some_iff.1 h
    have hsame := map_lowerChar_of_isIPv4Address (Option.isSome_iff_exists.2 ⟨ip, hip⟩)
    rw [hsame, hip]
    simp [List.map_dropLast, map_lowerChar_hex]
  · rw [Option.some.inj h]

lemma isHextet_map {s : PyStr} (h : isHextet s = true) : isHextet (s.map lowerChar) = true := by
  simpa [isHextet] using h

lemma isIPv6_lower {s : PyStr} (h : isIPv6 s = true) : isIPv6 (s.map lowerChar) = true := by
  obtain ⟨parts, groups, hparts, hgroups, hlen, hall⟩ := exists_of_isIPv6 h
  rw [isIPv6, hextetParts_map hparts]
  dsimp only
  rw [hextets_map, hgroups, List.length_map, Bool.and_eq_true, decide_eq_true_eq]
  refine ⟨hlen, List.all_eq_true.2 fun group hgroup => ?_⟩
  obtain ⟨group, hmem, rfl⟩ := List.mem_map.1 hgroup
  exact isHextet_map (hall group hmem)

end PyAddress
