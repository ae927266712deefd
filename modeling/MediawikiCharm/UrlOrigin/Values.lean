/-
The values that are accepted for the origin of the wiki.

What `urlparse` drops is dropped first.  The value is accepted exactly if the rest has parts that
are accepted.
-/
import MediawikiCharm.UrlOrigin.Hosts

namespace MediawikiCharm
namespace UrlOrigin

open PyText PyAddress PyUrl Split

variable {u : UnicodeData} {r : ParseResult} {userinfo info : PyStr}

/-! ### The values that are accepted -/

lemma mem_cleaned {w : PyStr} {c : PyChar} (h : c ∈ cleaned w) : c ∈ w ∧ isUnsafe c = false := by
  obtain ⟨hmem, hsafe⟩ := List.mem_filter.1 h
  exact ⟨(List.dropWhile_suffix _).subset hmem, by simpa using hsafe⟩

lemma slashes_cleaned {w : PyStr} (h : lit "//" <+: w) : lit "//" <+: cleaned w := by
  obtain ⟨t, rfl⟩ := h
  exact ⟨t.filter fun c => !isUnsafe c, rfl⟩

/-- The tests of the validator. -/
lemma validateUrlOrigin_eq_ok {v w : PyStr} (hne : strip v ≠ []) : validateUrlOrigin u v = .ok w ↔
    w = strip v ∧ ∃ parsed, urlparse u (strip v) = some parsed ∧
      (lit "//" <+: strip v ∨ parsed.scheme ∈ [lit "http", lit "https"]) ∧
      (parsed.path = [] ∧ parsed.params = [] ∧ parsed.query = [] ∧ parsed.fragment = []) ∧
      (parsed.username.getD [] = [] ∧ parsed.password.getD [] = []) ∧
      parsed.isPortValid = true ∧ AcceptsHost u parsed := by
  unfold validateUrlOrigin
  dsimp only
  rw [if_neg hne, strip_strip]
  cases hparsed : urlparse u (strip v) with
  | none => simp
  | some parsed =>
    simp only [Option.some.injEq, exists_eq_left']
    split_ifs with hscheme hparts hport
    · refine iff_of_false not_false ?_
      rintro ⟨-, hstart, -⟩
      exact hscheme.2 (hstart.resolve_left hscheme.1)
    · refine iff_of_false not_false ?_
      rintro ⟨-, -, ⟨h₁, h₂, h₃, h₄⟩, ⟨h₅, h₆⟩, -⟩
      simp [h₁, h₂, h₃, h₄, h₅, h₆] at hparts
    · refine iff_of_false not_false ?_
      rintro ⟨-, -, -, -, hvalid, -⟩
      simp [hvalid] at hport
    · simp only [not_or, not_not] at hparts
      have hstart : lit "//" <+: strip v ∨ parsed.scheme ∈ [lit "http", lit "https"] := by
        by_contra hno
        exact hscheme (not_or.1 hno)
      have hvalid : parsed.isPortValid = true := by simpa using hport
      simp only [hstart, hparts, hvalid, and_self, true_and, AcceptsHost]
      cases parsed.hostname u with
      | none => simp
      | some hostname =>
        simp only [Option.some.injEq, exists_eq_left']
        split_ifs with haddress hmatch
        · exact ⟨fun h => ⟨(Except.ok.inj h).symm, .inl haddress⟩, fun h => congrArg _ h.1.symm⟩
        · exact ⟨fun h => ⟨(Except.ok.inj h).symm, .inr hmatch⟩, fun h => congrArg _ h.1.symm⟩
        · simp [haddress, hmatch]

lemma not_acceptsHost_nil {parsed : ParseResult} (h : parsed.netloc = []) :
    ¬ AcceptsHost u parsed := by
  have hsplit : parsed.netloc = ([] : PyStr) ++ [] := h
  have hhost : parsed.hostinfo = ([], []) :=
    ParseResult.hostinfo_of_not_mem hsplit (by decide) nofun nofun
  rw [acceptsHost_iff hhost]
  exact fun hno => hno.1 rfl

/-- A value that is accepted has parts. -/
lemma exists_parts {parsed : ParseResult} {w : PyStr} (hparsed : urlparse u w = some parsed)
    (hstart : lit "//" <+: w ∨ parsed.scheme ∈ [lit "http", lit "https"])
    (hrest : parsed.path = [] ∧ parsed.params = [] ∧ parsed.query = [] ∧ parsed.fragment = [])
    (huser : parsed.username.getD [] = [] ∧ parsed.password.getD [] = [])
    (hport : parsed.isPortValid = true) (hhost : AcceptsHost u parsed) :
    ∃ p : Parts, Reads u w p := by
  unfold urlparse at hparsed
  dsimp only at hparsed
  split_ifs at hparsed with hnetloc
  obtain rfl := Option.some.inj hparsed
  -- there is a network location
  obtain hnone | ⟨netloc, tail, hsplit, hends, htail, hparts⟩ :=
    splitNetloc_cases (splitScheme (cleaned w)).2
  · exact absurd hhost (not_acceptsHost_nil (congrArg Prod.fst hnone))
  simp only [hparts] at hnetloc hrest huser hport hhost hstart
  obtain ⟨ui, info, hui, hinfo, hat⟩ := ParseResult.userinfo_eq_nil_iff.1 huser
  have hinfo : netloc = ui ++ info := hinfo
  have hline : ofChar '\n' ∉ cleaned w := fun hmem => absurd (mem_cleaned hmem).2 (by decide)
  have htailEmpty : IsEmptyTail tail := by
    refine (splitRest_eq_nil_iff (splitScheme (cleaned w)).1 htail).1 ?_
    obtain ⟨h₁, h₂, h₃, h₄⟩ := hrest
    exact Prod.ext h₁ (Prod.ext h₂ (Prod.ext h₃ h₄))
  -- and a scheme, unless the value begins with the slashes
  have hscheme : ∃ scheme, IsScheme scheme ∧ cleaned w = scheme ++ (lit "//" ++ (netloc ++ tail)) ∧
      (scheme = [] → lit "//" <+: w) := by
    obtain hnone | ⟨name, rest, hname, hhead, hall, hcut⟩ := splitScheme_cases (cleaned w)
    · rw [hnone] at hsplit hstart
      have hno : ([] : PyStr) ∉ [lit "http", lit "https"] := by decide
      exact ⟨[], .inl rfl, hsplit, fun _ => hstart.resolve_right hno⟩
    · rw [hcut] at hsplit hstart
      have hsplit : rest = lit "//" ++ (netloc ++ tail) := hsplit
      refine ⟨name ++ [ofChar ':'], ?_, by simp [hname, hsplit], by simp⟩
      have hin : name.map lowerChar ∈ [lit "http", lit "https"] := by
        refine hstart.resolve_left fun hslashes => ?_
        obtain ⟨t, ht⟩ := slashes_cleaned hslashes
        rw [hname] at ht
        cases name with
        | nil => exact absurd hhead nofun
        | cons c name =>
          have hc : ofChar '/' = c := (List.cons.inj ht).1
          rw [← hc] at hhead
          exact absurd (show isAlpha (ofChar '/') = true from hhead) (by decide)
      right
      have hcolon : lowerChar (ofChar ':') = ofChar ':' := lowerChar_colon.2 rfl
      rw [List.map_append, List.map_singleton, hcolon]
      simp only [List.mem_cons, List.not_mem_nil, or_false] at hin
      rcases hin with hin | hin
      · exact .inl (by rw [hin]; rfl)
      · exact .inr (by rw [hin]; rfl)
  obtain ⟨scheme, hscheme, htext, hslashes⟩ := hscheme
  have hmem : ∀ c ∈ info, c ∈ netloc := fun c hc => hinfo ▸ List.mem_append_right _ hc
  have hmem' : ∀ c ∈ netloc, c ∈ cleaned w := fun c hc => by
    rw [htext]
    simp [hc]
  obtain ⟨host, port, hsum, hloose, hloosePort, hcheck⟩ :=
    (acceptsNetloc_parts_iff hinfo hui hat (fun c hc => hends c (hmem c hc))
      fun hc => hline (hmem' _ (hmem _ hc))).1 ⟨hnetloc, hport, hhost⟩
  refine ⟨⟨scheme, ui, host, port, tail⟩, ⟨hscheme, hui, hloose, hloosePort, htailEmpty, ?_⟩, ?_,
    hslashes⟩
  · show checkNetloc u (ui ++ (host ++ port)) = true
    rwa [← hsum, ← hinfo]
  · show cleaned w = scheme ++ (lit "//" ++ ((ui ++ (host ++ port)) ++ tail))
    rw [htext, hinfo, hsum]

/-- A character that becomes a letter other than `k` is a letter. -/
lemma isAlpha_of_lowerChar {c : PyChar} (h : isAlpha (lowerChar c) = true)
    (hk : lowerChar c ≠ ofChar 'k') : isAlpha c = true := by
  have hne : c ≠ kelvin := by
    rintro rfl
    exact hk (by decide)
  simp only [isAlpha, lowerChar_val, if_neg hne, Bool.or_eq_true, Bool.and_eq_true,
    decide_eq_true_eq] at h ⊢
  split_ifs at h <;> omega

/-- A scheme is a name of letters and a colon. -/
lemma exists_of_isScheme {scheme : PyStr} (h : IsScheme scheme) (hne : scheme ≠ []) :
    ∃ name, scheme = name ++ [ofChar ':'] ∧ name.head?.any isAlpha = true ∧
      name.all isSchemeChar = true ∧ name.map lowerChar ∈ [lit "http", lit "https"] := by
  obtain ⟨lower, hlower, hmap⟩ : ∃ lower ∈ [lit "http", lit "https"],
      scheme.map lowerChar = lower ++ [ofChar ':'] := by
    rcases h with h | h | h
    · exact absurd h hne
    · exact ⟨lit "http", by decide, h⟩
    · exact ⟨lit "https", by decide, h⟩
  obtain ⟨name, colon, rfl, hname, hcolon⟩ := List.map_eq_append_iff.1 hmap
  obtain ⟨c, rfl, hc⟩ := List.map_eq_singleton_iff.1 hcolon
  obtain rfl := lowerChar_colon.1 hc
  have hfacts : ([lit "http", lit "https"].all fun lower => !lower.isEmpty &&
      lower.all fun d => isAlpha d && d ≠ ofChar 'k') = true := by decide
  obtain ⟨hlne, hletters⟩ : lower ≠ [] ∧ ∀ d ∈ lower, isAlpha d = true ∧ d ≠ ofChar 'k' := by
    simpa using List.all_eq_true.1 hfacts lower hlower
  have hall : ∀ c ∈ name, isAlpha c = true := by
    intro c hc
    have hd := hletters (lowerChar c) (hname ▸ List.mem_map_of_mem hc)
    exact isAlpha_of_lowerChar hd.1 hd.2
  refine ⟨name, rfl, ?_, List.all_eq_true.2 fun c hc => ?_, hname ▸ hlower⟩
  · cases name with
    | nil => exact absurd hname.symm hlne
    | cons c name => exact hall c List.mem_cons_self
  · rw [isSchemeChar, hall c hc]
    rfl

/-- What is no character of a name or an address, and no bracket, stands in no host, or in a scope
identifier. -/
lemma not_mem_looseHost_of {host : PyStr} (h : LooseHost host) {d : PyChar}
    (hrange : d.val < 0x41 ∨ 0x5a < d.val ∧ d.val < 0x61) (hname : isNameChar d = false)
    (haddress : isAddressChar d = false) (hbracket : d ∉ [ofChar '[', ofChar ']', ofChar '%'])
    (hzone : ofChar '%' ∈ host → d ∈ [ofChar '@', ofChar '/', ofChar '?', ofChar '#']) :
    d ∉ host := by
  simp only [List.mem_cons, List.not_mem_nil, or_false, not_or] at hbracket
  have hinside : ∀ {inner : PyStr}, d ∉ inner → d ∉ ofChar '[' :: inner ++ [ofChar ']'] := by
    intro inner hinner hmem
    rcases List.mem_append.1 hmem with hmem | hmem
    · exact (List.mem_cons.1 hmem).elim hbracket.1 hinner
    · exact hbracket.2.1 (List.mem_singleton.1 hmem)
  have hv6 : ∀ {address : PyStr}, isIPv6 address = true → d ∉ address := fun ha hmem =>
    absurd ((mem_of_isIPv6 ha _ hmem).symm.trans haddress) nofun
  cases h with
  | name h => exact not_mem_of_isName_lower h hrange hname
  | address ha => exact hinside (hv6 ha)
  | zoned ha hne hscope =>
    refine hinside fun hmem => ?_
    rcases List.mem_append.1 hmem with hmem | hmem
    · exact hv6 ha hmem
    · exact (List.mem_cons.1 hmem).elim hbracket.2.2 fun hmem =>
        (hscope d hmem).2 (hzone (by simp))
  | future hf hd => exact hinside (not_mem_of_isName_lower (.inl hd) hrange hname)

/-- What ends a network location, or a user name, does not stand in a host. -/
lemma not_mem_looseHost {host : PyStr} (h : LooseHost host) {d : PyChar}
    (hd : d ∈ [ofChar '@', ofChar '/', ofChar '?', ofChar '#']) : d ∉ host := by
  have hfacts : ([ofChar '@', ofChar '/', ofChar '?', ofChar '#'].all fun d =>
      (d.val < 0x41 ∨ 0x5a < d.val ∧ d.val < 0x61) ∧ isNameChar d = false ∧
        isAddressChar d = false ∧ d ∉ [ofChar '[', ofChar ']', ofChar '%']) = true := by decide
  obtain ⟨hrange, hname, haddress, hbracket⟩ := of_decide_eq_true (List.all_eq_true.1 hfacts d hd)
  exact not_mem_looseHost_of h hrange hname haddress hbracket fun _ => hd

/-- The validator returns the stripped value exactly if that is empty or can be read so. -/
theorem validateUrlOrigin_eq_ok_iff {v w : PyStr} : validateUrlOrigin u v = .ok w ↔
    w = strip v ∧ (strip v = [] ∨ ∃ p : Parts, Reads u (strip v) p) := by
  by_cases hne : strip v = []
  · unfold validateUrlOrigin
    dsimp only
    rw [if_pos hne, hne]
    exact ⟨fun h => ⟨(Except.ok.inj h).symm, .inl rfl⟩, fun h => congrArg _ h.1.symm⟩
  rw [validateUrlOrigin_eq_ok hne]
  refine and_congr_right fun _ => ?_
  rw [or_iff_right hne]
  constructor
  · rintro ⟨parsed, hparsed, hstart, hrest, huser, hport, hhost⟩
    exact exists_parts hparsed hstart hrest huser hport hhost
  · rintro ⟨p, haccepted, htext, hslashes⟩
    have hinfo : ∀ d ∈ [ofChar '@', ofChar '/', ofChar '?', ofChar '#'], d ∉ p.host ++ p.port := by
      intro d hd hmem
      rcases List.mem_append.1 hmem with hmem | hmem
      · exact not_mem_looseHost haccepted.host hd hmem
      · have hfacts : ([ofChar '@', ofChar '/', ofChar '?', ofChar '#'].all fun d =>
            isDigit d = false ∧ d ≠ ofChar ':') = true := by decide
        obtain ⟨hdigit, hcolon⟩ := of_decide_eq_true (List.all_eq_true.1 hfacts d hd)
        rcases mem_loosePort haccepted.port d hmem with hd | hd
        · exact absurd (hd.symm.trans hdigit) nofun
        · exact hcolon hd
    have hends : ∀ c ∈ p.host ++ p.port, endsNetloc c = false := by
      intro c hc
      by_contra h
      rw [Bool.not_eq_false] at h
      simp only [endsNetloc, Bool.or_eq_true, decide_eq_true_eq] at h
      rcases h with (rfl | rfl) | rfl
      · exact hinfo _ (by decide) hc
      · exact hinfo _ (by decide) hc
      · exact hinfo _ (by decide) hc
    have hnetlocEnds : ∀ c ∈ p.netloc, endsNetloc c = false := by
      intro c hc
      rcases List.mem_append.1 hc with hc | hc
      · have hui := haccepted.userinfo
        have hfacts : ([[], lit "@", lit ":@"].all fun ui => ui.all fun c => !endsNetloc c) = true :=
          by decide
        simpa using List.all_eq_true.1 (List.all_eq_true.1 hfacts _ hui) c hc
      · exact hends c hc
    have htail : EndsNetloc p.tail := by
      have hfacts : ([[], lit "?", lit "#", lit "?#"].all fun tail => tail.head?.all endsNetloc) =
          true := by decide
      intro c hc
      have hall := List.all_eq_true.1 hfacts _ haccepted.tail
      rwa [hc] at hall
    have hsplit : ∃ scheme, splitScheme (cleaned (strip v)) =
        (scheme, lit "//" ++ (p.netloc ++ p.tail)) ∧
          (lit "//" <+: strip v ∨ scheme ∈ [lit "http", lit "https"]) := by
      rw [htext, Parts.text]
      by_cases hscheme : p.scheme = []
      · rw [hscheme]
        exact ⟨[], splitScheme_slash _, .inl (hslashes hscheme)⟩
      · obtain ⟨name, hname, hhead, hall, hin⟩ := exists_of_isScheme haccepted.scheme hscheme
        refine ⟨_, ?_, .inr hin⟩
        rw [hname, List.append_assoc]
        exact splitScheme_append hhead hall
    obtain ⟨scheme, hscheme, hstart⟩ := hsplit
    have hrest := (splitRest_eq_nil_iff scheme htail).2 haccepted.tail
    have hline : ofChar '\n' ∉ p.host ++ p.port := by
      intro hmem
      have htextMem : ofChar '\n' ∈ cleaned (strip v) := by
        rw [htext]
        simp only [Parts.text, Parts.netloc, List.mem_append] at hmem ⊢
        tauto
      exact absurd (mem_cleaned htextMem).2 (by decide)
    have hall := (acceptsNetloc_parts_iff (u := u) (r := ⟨scheme, p.netloc, [], [], [], []⟩) rfl
      haccepted.userinfo (hinfo _ (by decide)) hends hline).2
      ⟨p.host, p.port, rfl, haccepted.host, haccepted.port, haccepted.netloc⟩
    refine ⟨⟨scheme, p.netloc, [], [], [], []⟩, ?_, hstart, ⟨rfl, rfl, rfl, rfl⟩, ?_, hall.2⟩
    · unfold urlparse
      rw [hscheme]
      dsimp only
      rw [splitNetloc_append hnetlocEnds htail]
      dsimp only
      rw [hrest]
      exact if_pos hall.1
    · exact ParseResult.userinfo_eq_nil_iff.2
        ⟨p.userinfo, p.host ++ p.port, haccepted.userinfo, rfl, hinfo _ (by decide)⟩

end UrlOrigin
end MediawikiCharm
