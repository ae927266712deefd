/-
SSH remotes of git repositories (`utils.py`, `git_sync.py`).

The host of a repository is found by a regular expression in the spelling `user@host:path`
and by `urlparse`, which turns it into lower case, in the spellings with a scheme.  It is
then searched in the known hosts exactly as it was found.  So the three spellings of one
repository have one verdict exactly when the host has no capital letter, nothing in the user
name is taken for the host, and `urlparse` accepts the two.
-/
import MediawikiCharm.Egress
import MediawikiCharm.Lib.PyText

namespace MediawikiCharm
namespace Remotes

open PyText Egress

/-! ### Python's library -/

/-- What is used of Python's library beside URLs. -/
structure TextLibrary extends Library where
  lower_ascii : ∀ s, (∀ c ∈ s, c.toNat < 0x80) → lower s = s.map Char.toLower
  /-- `\d` of a regular expression matches the code point. -/
  isDecimal : PyChar → Bool
  isDecimal_ascii : ∀ c : PyChar, c.val < 0x80 →
    (isDecimal c = true ↔ 0x30 ≤ c.val ∧ c.val ≤ 0x39)

/-! ### The host of a repository -/

/-- What `.*?` matches if a match of `.*?:` begins here. -/
def lazyStar : List Char → Option (List Char)
  | [] => none
  | c :: s =>
    if c = ':' then some []
    else if c = '\n' then none
    else (lazyStar s).map (c :: ·)

/-- What `.+?` matches if a match of `.+?:` begins here. -/
def lazyPlus : List Char → Option (List Char)
  | [] => none
  | c :: s => if c = '\n' then none else (lazyStar s).map (c :: ·)

/-- The group of the first match of `@(.+?):` -/
def scpRemote : List Char → Option (List Char)
  | [] => none
  | c :: s => if c = '@' then (lazyPlus s).or (scpRemote s) else scpRemote s

/-- `s.startswith(start)` -/
def startsWith (start : String) (s : String) : Bool := start.toList.isPrefixOf s.toList

/-- `extract_remote` -/
def extractRemote (library : TextLibrary) (repoUrl : String) : Except Exc (Option String) :=
  if startsWith "ssh://" repoUrl || startsWith "git+ssh://" repoUrl then do
    let parsed ← urlparse library.toLibrary repoUrl
    pure (parsed.hostname library.toLibrary)
  else if !(startsWith "http://" repoUrl || startsWith "https://" repoUrl) then
    .ok ((scpRemote repoUrl.toList).map String.ofList)
  else .ok none

/-! ### The known hosts -/

section KnownHosts

variable (library : TextLibrary)

/-- The first group of `re.fullmatch(r"\[(.+)\]:(\d+)", entry)` -/
def bracketedMatch (entry : PyStr) : Option PyStr :=
  let port := entry.rtakeWhile library.isDecimal
  let rest := entry.rdropWhile library.isDecimal
  let host := (rest.drop 1).rdrop 2
  if port ≠ [] ∧ rest = ofChar '[' :: host ++ [ofChar ']', ofChar ':'] ∧ host ≠ [] ∧
      ofChar '\n' ∉ host then some host else none

/-- An entry of the host field is `remote`, or `remote` with a port. -/
def entryMatches (remote entry : PyStr) : Bool :=
  decide (entry = remote) || decide (bracketedMatch library entry = some remote)

/-- One round of the loop of `remote_in_known_hosts`: whether it returns `True`. -/
def lineMatches (remote line : PyStr) : Bool :=
  let stripped := strip line
  if stripped = [] ∨ PyText.startsWith (lit "#") stripped = true then false
  else
    match splitWords stripped with
    | [] => false
    | first :: rest =>
      if first = lit "@revoked" then false
      else
        let hostFieldIndex := if PyText.startsWith (lit "@") first then 1 else 0
        match (first :: rest)[hostFieldIndex]? with
        | none => false
        | some field => (field.splitOn (ofChar ',')).any (entryMatches library remote)

/-- `remote_in_known_hosts` -/
def remoteInKnownHosts (remote knownHostsContent : PyStr) : Bool :=
  (splitlines knownHostsContent).any (lineMatches library remote)

/-- The end of `_ssh_config_reconciliation`, once the files are written. -/
def checkRemote (staticAssetsGitRepo : String) (sshKnownHosts : PyStr) : Except Exc Unit := do
  let remote ← extractRemote library staticAssetsGitRepo
  match remote with
  | none => pure ()
  | some remote =>
    if remote = "" then pure ()
    else if remoteInKnownHosts library (lit remote) sshKnownHosts then pure ()
    else throw (.blocked ("Git remote '" ++ remote ++ "' is not in the known hosts configuration."))

/-! ### What it is for a line to list a host -/

/-- The host field of a line, if it has one that counts: the line is no comment and not
revoked, and a marker may stand in front of the field. -/
def hostField (line : PyStr) : Option PyStr :=
  match splitWords line with
  | [] => none
  | first :: rest =>
    if PyText.startsWith (lit "#") first = true ∨ first = lit "@revoked" then none
    else if PyText.startsWith (lit "@") first then rest.head?
    else some first

/-- The entry names the host, bare or as `[host]:port`. -/
def Names (host entry : PyStr) : Prop :=
  entry = host ∨ ∃ port, port ≠ [] ∧ (∀ c ∈ port, library.isDecimal c = true) ∧
    entry = ofChar '[' :: host ++ [ofChar ']', ofChar ':'] ++ port

/-- Some line lists the host in its host field. -/
def Lists (host content : PyStr) : Prop :=
  ∃ line ∈ splitlines content, ∃ field, hostField line = some field ∧
    ∃ entry ∈ field.splitOn (ofChar ','), Names library host entry

end KnownHosts

/-! ### The three spellings -/

/-- A host name. -/
structure HostName where
  text : List Char
  ne_nil : text ≠ []
  chars : ∀ c ∈ text, c.isAlphanum = true ∨ c = '-' ∨ c = '.'

/-- A user name: it has no character that ends the authority of a URL, and no tab or line
break. -/
structure UserName where
  text : List Char
  chars : ∀ c ∈ text, c ∉ ['/', '?', '#', '\t', '\r', '\n']

/-- `user@host:path` -/
def scpUrl (user : UserName) (host : HostName) (path : List Char) : String :=
  String.ofList (user.text ++ '@' :: (host.text ++ ':' :: path))

/-- `scheme://user@host/path` -/
def schemeUrl (scheme : String) (user : UserName) (host : HostName) (path : List Char) : String :=
  String.ofList (scheme.toList ++ ':' :: '/' :: '/' ::
    (user.text ++ '@' :: (host.text ++ '/' :: path)))

/-- The gate lets the repository pass. -/
def Accepts (library : TextLibrary) (repo : String) (knownHosts : PyStr) : Prop :=
  checkRemote library repo knownHosts = .ok ()

/-- Each of the three spellings is accepted exactly when the known hosts list the host. -/
def SameVerdict (library : TextLibrary) (user : UserName) (host : HostName) (path : List Char) :
    Prop :=
  ∀ knownHosts : PyStr,
    (Accepts library (scpUrl user host path) knownHosts ↔
      Lists library (chars host.text) knownHosts) ∧
    (Accepts library (schemeUrl "ssh" user host path) knownHosts ↔
      Lists library (chars host.text) knownHosts) ∧
    (Accepts library (schemeUrl "git+ssh" user host path) knownHosts ↔
      Lists library (chars host.text) knownHosts)

/-! ### What the search in the known hosts finds -/

section Search

variable {library : TextLibrary} {host : PyStr}

lemma isDecimal_colon : library.isDecimal (ofChar ':') = false := by
  have h := library.isDecimal_ascii (ofChar ':') (by decide)
  rw [← Bool.not_eq_true, h]
  decide

/-- The group of a match is what stands between the brackets. -/
lemma bracketedMatch_eq_some_iff {entry : PyStr} (hne : host ≠ []) (hnl : ofChar '\n' ∉ host) :
    bracketedMatch library entry = some host ↔
      ∃ port, port ≠ [] ∧ (∀ c ∈ port, library.isDecimal c = true) ∧
        entry = ofChar '[' :: host ++ [ofChar ']', ofChar ':'] ++ port := by
  constructor
  · intro h
    unfold bracketedMatch at h
    dsimp only at h
    split_ifs at h with hmatch
    obtain ⟨hport, hrest, -, -⟩ := hmatch
    cases Option.some.inj h
    refine ⟨_, hport, fun c hc => List.mem_rtakeWhile_imp hc, ?_⟩
    rw [← hrest, List.rdropWhile_append_rtakeWhile]
  · rintro ⟨port, hport, hdigits, rfl⟩
    have hshape : ofChar '[' :: host ++ [ofChar ']', ofChar ':'] ++ port =
        (ofChar '[' :: host ++ [ofChar ']']) ++ ofChar ':' :: port := by simp
    have htake := rtakeWhile_append_cons (l := ofChar '[' :: host ++ [ofChar ']'])
      isDecimal_colon hdigits
    have hdrop := rdropWhile_append_cons (l := ofChar '[' :: host ++ [ofChar ']'])
      isDecimal_colon hdigits
    have hhost : ((ofChar '[' :: host ++ [ofChar ']'] ++ [ofChar ':']).drop 1).rdrop 2 = host := by
      simp [List.rdrop]
    rw [hshape, bracketedMatch, htake, hdrop, hhost, if_pos ⟨hport, by simp, hne, hnl⟩]

lemma entryMatches_iff {entry : PyStr} (hne : host ≠ []) (hnl : ofChar '\n' ∉ host) :
    entryMatches library host entry = true ↔ Names library host entry := by
  rw [entryMatches, Bool.or_eq_true, decide_eq_true_eq, decide_eq_true_eq,
    bracketedMatch_eq_some_iff hne hnl, Names]

/-- Whether a text starts with a symbol is seen from its first symbol. -/
lemma startsWith_singleton (c d : PyChar) (s : PyStr) :
    PyText.startsWith [c] (d :: s) = true ↔ d = c := by
  rw [PyText.startsWith, List.isPrefixOf_iff_prefix, List.cons_prefix_cons]
  exact (and_iff_left (List.nil_prefix)).trans eq_comm

/-- The loop looks at the host field of the line. -/
lemma lineMatches_iff {line : PyStr} (hne : host ≠ []) (hnl : ofChar '\n' ∉ host) :
    lineMatches library host line = true ↔ ∃ field, hostField line = some field ∧
      ∃ entry ∈ field.splitOn (ofChar ','), Names library host entry := by
  have hwords : splitWords line = splitWords (strip line) := (splitWords_strip line).symm
  rw [lineMatches, hostField, hwords]
  cases hstrip : strip line with
  | nil => simp [splitWords, splitWordsFrom]
  | cons c s =>
    obtain ⟨w, ws, hsplit⟩ := splitWords_cons s (isSpace_of_strip_eq_cons hstrip)
    have hhash : PyText.startsWith (lit "#") (c :: s) = PyText.startsWith (lit "#") (c :: w) := by
      rw [Bool.eq_iff_iff]
      exact (startsWith_singleton _ c s).trans (startsWith_singleton _ c w).symm
    have hmatch {field : PyStr} :
        (field.splitOn (ofChar ',')).any (entryMatches library host) = true ↔
        ∃ entry ∈ field.splitOn (ofChar ','), Names library host entry := by
      simp only [List.any_eq_true, entryMatches_iff hne hnl]
    rw [hsplit, hhash]
    dsimp only
    by_cases hcomment : PyText.startsWith (lit "#") (c :: w) = true
    · simp [hcomment]
    · by_cases hrevoked : c :: w = lit "@revoked"
      · simp [hrevoked]
      · -- a marker moves the host field to the second word
        cases hmarker : PyText.startsWith (lit "@") (c :: w) with
        | true => cases ws <;> simp [hcomment, hrevoked, hmatch]
        | false => simp [hcomment, hrevoked, hmatch]

/-- The search finds a host exactly when a line lists it. -/
theorem remoteInKnownHosts_iff {content : PyStr} (hne : host ≠ []) (hnl : ofChar '\n' ∉ host) :
    remoteInKnownHosts library host content = true ↔ Lists library host content := by
  simp only [remoteInKnownHosts, List.any_eq_true, Lists, lineMatches_iff hne hnl]

end Search

/-! ### What is read out of the spelling with a colon -/

lemma before_append {sep : Char} {s : List Char} (hs : sep ∉ s) (t : List Char) :
    before sep (s ++ sep :: t) = s := by
  have hall : ∀ c ∈ s, decide (c ≠ sep) = true := by
    intro c hc
    simpa using ne_of_mem_of_not_mem hc hs
  rw [before, List.takeWhile_append_of_pos hall]
  simp

lemma after_append {sep : Char} {s : List Char} (hs : sep ∉ s) (t : List Char) :
    after sep (s ++ sep :: t) = t := by
  have hall : ∀ c ∈ s, decide (c ≠ sep) = true := by
    intro c hc
    simpa using ne_of_mem_of_not_mem hc hs
  rw [after, List.dropWhile_append_of_pos hall]
  simp

/-- A text without `sep` in front of a text with `sep` is in front of that symbol. -/
lemma prefix_of_prefix_append {sep : Char} {r s t : List Char} (hr : sep ∉ r)
    (h : r <+: s ++ sep :: t) : r <+: s := by
  rcases List.prefix_or_prefix_of_prefix h (List.prefix_append s (sep :: t)) with h' | ⟨u, rfl⟩
  · exact h'
  · rw [List.prefix_append_right_inj] at h
    cases u with
    | nil => simp
    | cons c u =>
      obtain ⟨rfl, -⟩ := List.cons_prefix_cons.1 h
      simp at hr

lemma lazyStar_eq_some_iff {s r : List Char} (hcolon : ':' ∉ r) (hnl : '\n' ∉ r) :
    lazyStar s = some r ↔ r ++ [':'] <+: s := by
  induction s generalizing r with
  | nil => simp [lazyStar]
  | cons c s ih =>
    rw [lazyStar]
    cases r with
    | nil =>
      by_cases hc : c = ':'
      · simp [hc]
      · by_cases hn : c = '\n'
        · simp [hn]
        · simp [hc, hn, Ne.symm hc]
    | cons d r =>
      obtain ⟨hd, hcolon⟩ := List.ne_and_not_mem_of_not_mem_cons hcolon
      obtain ⟨hd', hnl⟩ := List.ne_and_not_mem_of_not_mem_cons hnl
      by_cases hc : c = ':'
      · subst hc
        simp [Ne.symm hd]
      · by_cases hn : c = '\n'
        · subst hn
          simp [Ne.symm hd']
        · rw [if_neg hc, if_neg hn, List.cons_append, List.cons_prefix_cons, ← ih hcolon hnl]
          rw [Option.map_eq_some_iff]
          constructor
          · rintro ⟨r', hr', h⟩
            obtain ⟨rfl, rfl⟩ := List.cons.inj h
            exact ⟨rfl, hr'⟩
          · rintro ⟨rfl, h⟩
            exact ⟨r, h, rfl⟩

/-- A text before a colon on one line is a match. -/
lemma lazyStar_append_colon {s : List Char} (hs : '\n' ∉ s) (t : List Char) :
    lazyStar (s ++ ':' :: t) ≠ none := by
  induction s with
  | nil => simp [lazyStar]
  | cons c s ih =>
    obtain ⟨hc, hs⟩ := List.ne_and_not_mem_of_not_mem_cons hs
    have hrest := ih hs
    rw [List.cons_append, lazyStar]
    split_ifs with h₁ h₂
    · simp
    · exact absurd h₂.symm hc
    · simpa using hrest

lemma lazyPlus_eq_some_iff {s r : List Char} (hne : r ≠ []) (hcolon : ':' ∉ r) (hnl : '\n' ∉ r) :
    lazyPlus s = some r ↔ r ++ [':'] <+: s := by
  cases s with
  | nil => simp [lazyPlus]
  | cons c s =>
    cases r with
    | nil => exact absurd rfl hne
    | cons d r =>
      obtain ⟨-, hcolon⟩ := List.ne_and_not_mem_of_not_mem_cons hcolon
      obtain ⟨hd, hnl⟩ := List.ne_and_not_mem_of_not_mem_cons hnl
      rw [lazyPlus, List.cons_append, List.cons_prefix_cons, ← lazyStar_eq_some_iff hcolon hnl]
      by_cases hn : c = '\n'
      · subst hn
        simp [Ne.symm hd]
      · rw [if_neg hn, Option.map_eq_some_iff]
        constructor
        · rintro ⟨r', hr', h⟩
          obtain ⟨rfl, rfl⟩ := List.cons.inj h
          exact ⟨rfl, hr'⟩
        · rintro ⟨rfl, h⟩
          exact ⟨r, h, rfl⟩

lemma lazyPlus_append_colon {s : List Char} (hne : s ≠ []) (hs : '\n' ∉ s) (t : List Char) :
    lazyPlus (s ++ ':' :: t) ≠ none := by
  cases s with
  | nil => exact absurd rfl hne
  | cons c s =>
    obtain ⟨hc, hs⟩ := List.ne_and_not_mem_of_not_mem_cons hs
    have hrest := lazyStar_append_colon hs t
    rw [List.cons_append, lazyPlus, if_neg (Ne.symm hc)]
    simpa using hrest

/-- What stands in front of the first `@` is skipped. -/
lemma scpRemote_append {s : List Char} (hs : '@' ∉ s) (t : List Char) :
    scpRemote (s ++ '@' :: t) = (lazyPlus t).or (scpRemote t) := by
  induction s with
  | nil => simp [scpRemote]
  | cons c s ih =>
    obtain ⟨hc, hs⟩ := List.ne_and_not_mem_of_not_mem_cons hs
    rw [List.cons_append, scpRemote, if_neg (Ne.symm hc), ih hs]

/-- A text that is split at its first `@`. -/
lemma eq_append_of_mem {c : Char} {s : List Char} (h : c ∈ s) :
    ∃ a b, c ∉ a ∧ s = a ++ c :: b := by
  obtain ⟨a, b, rfl, ha⟩ := List.eq_append_cons_of_mem h
  exact ⟨a, b, ha, rfl⟩

section Spellings

variable {user : UserName} {host : HostName} {path : List Char}

lemma HostName.not_mem {c : Char} (hc : c.isAlphanum = false) (h₁ : c ≠ '-') (h₂ : c ≠ '.') :
    c ∉ host.text := by
  intro h
  rcases host.chars c h with halnum | rfl | rfl
  · rw [hc] at halnum
    cases halnum
  · exact h₁ rfl
  · exact h₂ rfl

lemma HostName.toNat_mem (host : HostName) {c : Char} (hc : c ∈ host.text) :
    c.toNat = 0x2d ∨ c.toNat = 0x2e ∨ (0x30 ≤ c.toNat ∧ c.toNat ≤ 0x39) ∨
      (0x41 ≤ c.toNat ∧ c.toNat ≤ 0x5a) ∨ (0x61 ≤ c.toNat ∧ c.toNat ≤ 0x7a) := by
  rcases host.chars c hc with h | rfl | rfl
  · have hranges := isAlphanum_iff.1 h
    omega
  · exact .inl rfl
  · exact .inr (.inl rfl)

/-- No user name is taken for the host: it has no `@`, or the host and a colon follow the first
one. -/
def UserName.NotTaken (user : UserName) (host : HostName) : Prop :=
  '@' ∉ user.text ∨ ∃ a b, '@' ∉ a ∧ user.text = a ++ '@' :: (host.text ++ ':' :: b)

/-- The regular expression finds the host exactly when nothing in the user name is taken for
it. -/
lemma scpRemote_eq_some_iff :
    scpRemote (user.text ++ '@' :: (host.text ++ ':' :: path)) = some host.text ↔
      user.NotTaken host := by
  have hcolon : ':' ∉ host.text := host.not_mem (by decide) (by decide) (by decide)
  have hnl : '\n' ∉ host.text := host.not_mem (by decide) (by decide) (by decide)
  have hat : '@' ∉ host.text := host.not_mem (by decide) (by decide) (by decide)
  have hnl' : '\n' ∉ user.text := fun h => user.chars _ h (by simp)
  by_cases huser : '@' ∈ user.text
  · obtain ⟨a, b, ha, hsplit⟩ := eq_append_of_mem huser
    have hb : '\n' ∉ b ++ '@' :: host.text := by
      rw [hsplit] at hnl'
      simp only [List.mem_append, List.mem_cons, not_or] at hnl' ⊢
      exact ⟨hnl'.2.2, by decide, hnl⟩
    have hsome : lazyPlus (b ++ '@' :: (host.text ++ ':' :: path)) ≠ none := by
      have h := lazyPlus_append_colon (by simp : b ++ '@' :: host.text ≠ []) hb path
      simpa using h
    obtain ⟨r, hr⟩ := Option.ne_none_iff_exists'.1 hsome
    rw [hsplit, List.append_assoc, List.cons_append, scpRemote_append ha, hr, Option.some_or, ← hr,
      lazyPlus_eq_some_iff host.ne_nil hcolon hnl]
    -- the host has no `@`, so it is found within the user name
    have hfront : host.text ++ [':'] <+: b ++ '@' :: (host.text ++ ':' :: path) ↔
        host.text ++ [':'] <+: b := by
      constructor
      · intro h
        exact prefix_of_prefix_append (by simp [hat]) h
      · intro h
        exact h.trans (List.prefix_append _ _)
    rw [hfront]
    constructor
    · rintro ⟨t, rfl⟩
      exact .inr ⟨a, t, ha, by simp [hsplit]⟩
    · rintro (h | ⟨a', b', ha', h⟩)
      · exact absurd huser h
      · rw [hsplit] at h
        have hafter := congrArg (after '@') h
        rw [after_append ha, after_append ha'] at hafter
        exact ⟨b', by simp [hafter]⟩
  · have hfound := (lazyPlus_eq_some_iff (s := host.text ++ ':' :: path) host.ne_nil hcolon hnl).2
      ⟨path, by simp⟩
    rw [scpRemote_append huser, hfound, Option.some_or]
    exact iff_of_true rfl (.inl huser)

/-! ### What is read out of the spellings with a scheme -/

/-- A scheme that `extract_remote` knows. -/
def SshScheme (scheme : String) : Prop := scheme = "ssh" ∨ scheme = "git+ssh"

/-- `urlparse` drops no symbol of this text and ends no network location in it. -/
def Plain (s : List Char) : Prop := ∀ c ∈ s, c ∉ ['/', '?', '#', '\t', '\r', '\n']

lemma HostName.plain (host : HostName) : Plain host.text := by
  intro c hc hmem
  have hnot : ∀ d ∈ ['/', '?', '#', '\t', '\r', '\n'], d ∉ host.text := by
    intro d hd
    simp only [List.mem_cons, List.not_mem_nil, or_false] at hd
    rcases hd with rfl | rfl | rfl | rfl | rfl | rfl
    all_goals exact host.not_mem rfl (by decide) (by decide)
  exact hnot c hmem hc

lemma Plain.filter {s : List Char} (h : Plain s) :
    (s.filter fun c => c ≠ '\t' ∧ c ≠ '\r' ∧ c ≠ '\n') = s := by
  refine List.filter_eq_self.2 fun c hc => ?_
  have hmem := h c hc
  simp only [List.mem_cons, not_or] at hmem
  simp [hmem]

lemma Plain.takeWhile {s : List Char} (h : Plain s) (t : List Char) :
    ((s ++ '/' :: t).takeWhile fun c => c ≠ '/' ∧ c ≠ '?' ∧ c ≠ '#') = s := by
  have hall : ∀ c ∈ s, decide (c ≠ '/' ∧ c ≠ '?' ∧ c ≠ '#') = true := by
    intro c hc
    have hmem := h c hc
    simp only [List.mem_cons, not_or] at hmem
    simp [hmem]
  rw [List.takeWhile_append_of_pos hall]
  simp

/-- A text with a scheme, a network location and a path is parsed into these. -/
lemma urlparse_of_scheme (library : Library) {url : String} {scheme netloc path : List Char}
    (hscheme : scheme = "ssh".toList ∨ scheme = "git+ssh".toList) (hnetloc : Plain netloc)
    (hurl : url.toList = scheme ++ ':' :: '/' :: '/' :: (netloc ++ '/' :: path)) :
    urlparse library url = if library.acceptsNetloc netloc then .ok ⟨scheme, netloc⟩
      else .error valueError := by
  have hdrop : (url.toList.dropWhile fun c => c.toNat ≤ 0x20) = url.toList := by
    rw [hurl]
    rcases hscheme with rfl | rfl <;> simp
  have hfilter : (url.toList.filter fun c => c ≠ '\t' ∧ c ≠ '\r' ∧ c ≠ '\n') =
      scheme ++ ':' :: '/' :: '/' :: (netloc ++ '/' ::
        path.filter fun c => c ≠ '\t' ∧ c ≠ '\r' ∧ c ≠ '\n') := by
    have hkeep : (scheme.filter fun c => c ≠ '\t' ∧ c ≠ '\r' ∧ c ≠ '\n') = scheme := by
      rcases hscheme with rfl | rfl <;> decide
    rw [hurl, List.filter_append, hkeep, List.append_cancel_left_eq]
    simp only [List.filter_cons, List.filter_append, hnetloc.filter]
    simp
  have hcolon : ':' ∉ scheme := by
    rcases hscheme with rfl | rfl <;> decide
  have hvalid : (scheme.head?.any Char.isAlpha &&
      scheme.all fun c => c.isAlphanum || c ∈ ['+', '-', '.']) = true := by
    rcases hscheme with rfl | rfl <;> decide
  have hlower : scheme.map Char.toLower = scheme := by
    rcases hscheme with rfl | rfl <;> decide
  unfold urlparse
  rw [hdrop, hfilter]
  dsimp only
  have hcontains (t : List Char) : (scheme ++ ':' :: t).contains ':' = true := by simp
  rw [before_append hcolon, after_append hcolon, hcontains, Bool.true_and, hvalid]
  simp only [if_true, hlower, hnetloc.takeWhile]

/-- The host part of a network location that ends with a host name. -/
lemma hostname_netloc (library : TextLibrary) (scheme : List Char) (user : UserName)
    (host : HostName) :
    (⟨scheme, user.text ++ '@' :: host.text⟩ : SplitResult).hostname library.toLibrary =
      some (String.ofList (host.text.map Char.toLower)) := by
  have hat : '@' ∉ host.text := host.not_mem (by decide) (by decide) (by decide)
  have hopen : '[' ∉ host.text := host.not_mem (by decide) (by decide) (by decide)
  have hcolon : ':' ∉ host.text := host.not_mem (by decide) (by decide) (by decide)
  have hpercent : '%' ∉ host.text := host.not_mem (by decide) (by decide) (by decide)
  have hinfo : (user.text ++ '@' :: host.text).rtakeWhile (fun c => decide (c ≠ '@')) =
      host.text := by
    refine rtakeWhile_append_cons (by decide) fun c hc => ?_
    simpa using ne_of_mem_of_not_mem hc hat
  have hbefore {sep : Char} (hsep : sep ∉ host.text) : before sep host.text = host.text :=
    List.takeWhile_eq_self_iff.2 fun c hc => by simpa using ne_of_mem_of_not_mem hc hsep
  have hzone : (host.text.dropWhile fun c => decide (c ≠ '%')) = [] :=
    List.dropWhile_eq_nil_iff.2 fun c hc => by simpa using ne_of_mem_of_not_mem hc hpercent
  have hascii : ∀ c ∈ host.text, c.toNat < 0x80 := by
    intro c hc
    have h := host.toNat_mem hc
    omega
  unfold SplitResult.hostname SplitResult.hostinfo
  dsimp only
  rw [hinfo, if_neg hopen]
  dsimp only
  rw [hbefore hcolon, if_neg host.ne_nil, hbefore hpercent, hzone, library.lower_ascii _ hascii,
    List.append_nil]

lemma toLower_eq_self_iff (c : Char) : c.toLower = c ↔ c.isUpper = false := by
  constructor
  · intro heq
    by_contra hupper
    have hlower := toLower_of_isUpper (eq_true_of_ne_false hupper)
    rw [heq] at hlower
    omega
  · exact toLower_eq

/-- `extract_remote` reads the host out of a spelling with a scheme exactly when it is in lower
case and the network location is accepted. -/
lemma extractRemote_schemeUrl (library : TextLibrary) {scheme : String} (hscheme : SshScheme scheme) :
    extractRemote library (schemeUrl scheme user host path) = .ok (some (String.ofList host.text)) ↔
      library.acceptsNetloc (user.text ++ '@' :: host.text) = true ∧
        ∀ c ∈ host.text, c.isUpper = false := by
  have hplain : Plain (user.text ++ '@' :: host.text) := by
    intro c hc
    rcases List.mem_append.1 hc with hc | hc
    · exact user.chars c hc
    · rcases List.mem_cons.1 hc with rfl | hc
      · decide
      · exact host.plain c hc
  have hurl : (schemeUrl scheme user host path).toList = scheme.toList ++ ':' :: '/' :: '/' ::
      ((user.text ++ '@' :: host.text) ++ '/' :: path) := by
    simp [schemeUrl]
  have hstarts : (startsWith "ssh://" (schemeUrl scheme user host path) ||
      startsWith "git+ssh://" (schemeUrl scheme user host path)) = true := by
    rw [startsWith, startsWith, hurl]
    rcases hscheme with rfl | rfl <;> simp
  have hlower : host.text.map Char.toLower = host.text ↔ ∀ c ∈ host.text, c.isUpper = false := by
    have hid := List.map_eq_map_iff (f := Char.toLower) (g := id) (l := host.text)
    rw [List.map_id] at hid
    rw [hid]
    exact forall₂_congr fun c _ => toLower_eq_self_iff c
  have hcases : scheme.toList = "ssh".toList ∨ scheme.toList = "git+ssh".toList := by
    rcases hscheme with rfl | rfl
    · exact .inl rfl
    · exact .inr rfl
  rw [extractRemote, hstarts, if_pos rfl, urlparse_of_scheme library.toLibrary hcases hplain hurl,
    ← hlower]
  by_cases haccepts : library.acceptsNetloc (user.text ++ '@' :: host.text) = true
  · rw [if_pos haccepts]
    show Except.ok (SplitResult.hostname _ _) = _ ↔ _
    rw [hostname_netloc, Except.ok.injEq, Option.some.injEq, String.ofList_inj]
    exact (and_iff_right haccepts).symm
  · rw [if_neg haccepts]
    exact iff_of_false nofun fun h => haccepts h.1

/-- `extract_remote` reads the host out of the spelling with a colon exactly when nothing in the
user name is taken for it. -/
lemma extractRemote_scpUrl (library : TextLibrary) :
    extractRemote library (scpUrl user host path) = .ok (some (String.ofList host.text)) ↔
      user.NotTaken host := by
  have hno : ∀ start : String, '@' ∉ start.toList → '/' ∈ start.toList →
      startsWith start (scpUrl user host path) = false := by
    intro start hat hslash
    rw [← Bool.not_eq_true, startsWith, List.isPrefixOf_iff_prefix, scpUrl, String.toList_ofList]
    intro h
    obtain ⟨t, ht⟩ := prefix_of_prefix_append hat h
    have hmem : '/' ∈ user.text := ht ▸ List.mem_append_left t hslash
    exact user.chars _ hmem (by simp)
  rw [extractRemote, hno "ssh://" (by decide) (by decide), hno "git+ssh://" (by decide) (by decide),
    hno "http://" (by decide) (by decide), hno "https://" (by decide) (by decide)]
  show Except.ok ((scpRemote (scpUrl user host path).toList).map String.ofList) = _ ↔ _
  rw [Except.ok.injEq, scpUrl, String.toList_ofList, ← scpRemote_eq_some_iff,
    Option.map_eq_some_iff]
  constructor
  · rintro ⟨r, hr, h⟩
    rw [hr, String.ofList_inj.1 h]
  · intro h
    exact ⟨_, h, rfl⟩

end Spellings

/-! ### The verdicts -/

section Verdicts

variable {library : TextLibrary} {host : HostName} {repo : String}

lemma chars_injective {s t : List Char} (h : chars s = chars t) : s = t :=
  List.map_injective_iff.2 (fun _ _ => ofChar_inj.1) h

lemma chars_ne_nil (host : HostName) : chars host.text ≠ [] := by
  simpa [chars] using host.ne_nil

/-- What a symbol of a host name can be. -/
lemma val_mem_chars {c : PyChar} (hc : c ∈ chars host.text) :
    c.val = 0x2d ∨ c.val = 0x2e ∨ (0x30 ≤ c.val ∧ c.val ≤ 0x39) ∨
      (0x41 ≤ c.val ∧ c.val ≤ 0x5a) ∨ (0x61 ≤ c.val ∧ c.val ≤ 0x7a) := by
  obtain ⟨d, hd, rfl⟩ := List.mem_map.1 hc
  exact host.toNat_mem hd

lemma not_mem_chars {d : Char} (h : d.toNat < 0x2d ∨ 0x3a ≤ d.toNat ∧ d.toNat ≤ 0x40 ∨
    0x5b ≤ d.toNat ∧ d.toNat ≤ 0x60) : ofChar d ∉ chars host.text := by
  intro hc
  have hval := val_mem_chars hc
  have hd : (ofChar d).val = d.toNat := rfl
  omega

lemma isSpace_eq_false {c : PyChar} (hc : c ∈ chars host.text) : isSpace c = false := by
  have hval := val_mem_chars hc
  simp only [isSpace, Bool.or_eq_false_iff, Bool.and_eq_false_iff, decide_eq_false_iff_not,
    beq_eq_false_iff_ne, ne_eq]
  omega

lemma isLineBreak_eq_false {c : PyChar} (hc : c ∈ chars host.text) : isLineBreak c = false := by
  have hval := val_mem_chars hc
  simp only [isLineBreak, Bool.or_eq_false_iff, Bool.and_eq_false_iff, decide_eq_false_iff_not,
    beq_eq_false_iff_ne, ne_eq]
  omega

lemma startsWith_chars {d : Char} (h : ofChar d ∉ chars host.text) :
    PyText.startsWith [ofChar d] (chars host.text) = false := by
  rw [← Bool.not_eq_true, PyText.startsWith, List.isPrefixOf_iff_prefix]
  exact fun hfront => h (hfront.subset List.mem_cons_self)

lemma chars_ne_revoked (host : HostName) : chars host.text ≠ lit "@revoked" := by
  intro h
  have hmem : ofChar '@' ∈ chars host.text := h ▸ List.mem_cons_self
  exact not_mem_chars (by decide) hmem

/-- A host name alone on a line is its own host field and the only entry there. -/
lemma hostField_chars (host : HostName) : hostField (chars host.text) = some (chars host.text) ∧
    (chars host.text).splitOn (ofChar ',') = [chars host.text] := by
  have hwords := splitWords_of_no_space (fun _ => isSpace_eq_false) (chars_ne_nil host)
  have hhash : PyText.startsWith (lit "#") (chars host.text) = false :=
    startsWith_chars (not_mem_chars (by decide))
  have hat : PyText.startsWith (lit "@") (chars host.text) = false :=
    startsWith_chars (not_mem_chars (by decide))
  constructor
  · simp [hostField, hwords, hhash, hat, chars_ne_revoked]
  · refine List.splitOnP_eq_singleton fun c hc => ?_
    have hcomma : ofChar ',' ∉ chars host.text := not_mem_chars (by decide)
    simpa using ne_of_mem_of_not_mem hc hcomma

lemma lists_chars (library : TextLibrary) (host : HostName) :
    Lists library (chars host.text) (chars host.text) := by
  obtain ⟨hfield, hentries⟩ := hostField_chars host
  have hlines := splitlines_of_no_break (fun _ => isLineBreak_eq_false) (chars_ne_nil host)
  refine ⟨chars host.text, by simp [hlines], chars host.text, hfield, chars host.text, ?_, .inl rfl⟩
  rw [hentries]
  exact List.mem_singleton_self _

/-- Where the host is all there is, only the host is found. -/
lemma eq_of_remoteInKnownHosts {remote : PyStr}
    (h : remoteInKnownHosts library remote (chars host.text) = true) : remote = chars host.text := by
  have hlines := splitlines_of_no_break (fun _ => isLineBreak_eq_false) (chars_ne_nil host)
  have hstrip : strip (chars host.text) = chars host.text := by
    have hdrop : (chars host.text).dropWhile isSpace = chars host.text := by
      cases hchars : chars host.text with
      | nil => rfl
      | cons c s =>
        have hc : isSpace c = false := isSpace_eq_false (hchars ▸ List.mem_cons_self)
        simp [hc]
    rw [strip, hdrop, List.rdropWhile_eq_self_iff]
    intro hne
    simpa using isSpace_eq_false (List.getLast_mem hne)
  have hwords := splitWords_of_no_space (fun _ => isSpace_eq_false) (chars_ne_nil host)
  have hhash : PyText.startsWith (lit "#") (chars host.text) = false :=
    startsWith_chars (not_mem_chars (by decide))
  have hat : PyText.startsWith (lit "@") (chars host.text) = false :=
    startsWith_chars (not_mem_chars (by decide))
  have hline : lineMatches library remote (chars host.text) =
      entryMatches library remote (chars host.text) := by
    simp [lineMatches, hstrip, hwords, hhash, hat, chars_ne_revoked, chars_ne_nil,
      (hostField_chars host).2]
  rw [remoteInKnownHosts, hlines, List.any_cons, List.any_nil, Bool.or_false, hline, entryMatches,
    Bool.or_eq_true, decide_eq_true_eq, decide_eq_true_eq] at h
  rcases h with h | h
  · exact h.symm
  · -- a match begins with a bracket
    exfalso
    unfold bracketedMatch at h
    dsimp only at h
    split_ifs at h with hmatch
    have hmem : ofChar '[' ∈ (chars host.text).rdropWhile library.isDecimal := by
      rw [hmatch.2.1]
      exact List.mem_cons_self
    have hopen : ofChar '[' ∉ chars host.text := not_mem_chars (by decide)
    exact hopen ((List.rdropWhile_prefix _ _).subset hmem)

/-- A spelling is accepted exactly when the host is listed, whatever the known hosts, exactly
when the host is read out of it. -/
lemma accepts_iff_lists : (∀ knownHosts, Accepts library repo knownHosts ↔
    Lists library (chars host.text) knownHosts) ↔
      extractRemote library repo = .ok (some (String.ofList host.text)) := by
  have hnl : ofChar '\n' ∉ chars host.text := not_mem_chars (by decide)
  have hlit : lit (String.ofList host.text) = chars host.text := by
    rw [lit, String.toList_ofList]
    rfl
  constructor
  · intro h
    have hempty : ¬ Accepts library repo [] := fun hacc => by
      obtain ⟨line, hline, -⟩ := (h []).1 hacc
      simp [splitlines, splitlinesFrom] at hline
    have hself := (h (chars host.text)).2 (lists_chars library host)
    cases hremote : extractRemote library repo with
    | error e =>
      rw [Accepts, checkRemote, hremote] at hself
      cases hself
    | ok remote =>
      cases remote with
      | none =>
        refine absurd ?_ hempty
        rw [Accepts, checkRemote, hremote]
        rfl
      | some remote =>
        by_cases hne : remote = ""
        · refine absurd ?_ hempty
          rw [Accepts, checkRemote, hremote]
          show (if remote = "" then _ else _) = _
          rw [if_pos hne]
          rfl
        · rw [Accepts, checkRemote, hremote] at hself
          have hself : (if remote = "" then pure () else if remoteInKnownHosts library (lit remote)
              (chars host.text) then pure () else throw _ : Except Exc Unit) = .ok () := hself
          rw [if_neg hne] at hself
          split_ifs at hself with hfound
          · have heq := chars_injective (eq_of_remoteInKnownHosts hfound)
            rw [← heq, String.ofList_toList]
  · intro h knownHosts
    have hne : String.ofList host.text ≠ "" := by
      intro heq
      exact host.ne_nil (by simpa using congrArg String.toList heq)
    rw [← remoteInKnownHosts_iff (chars_ne_nil host) hnl, ← hlit, Accepts, checkRemote, h]
    show (if String.ofList host.text = "" then _ else _) = _ ↔ _
    rw [if_neg hne]
    split_ifs with hfound
    · exact iff_of_true rfl hfound
    · exact iff_of_false not_false hfound

/-- The three spellings of a repository have one verdict, and it is that of the known hosts,
exactly when the host has no capital letter, nothing in the user name is taken for the host, and
`urlsplit` accepts the two as a network location. -/
theorem sameVerdict_iff (library : TextLibrary) (user : UserName) (host : HostName)
    (path : List Char) : SameVerdict library user host path ↔
      (∀ c ∈ host.text, c.isUpper = false) ∧ user.NotTaken host ∧
        library.acceptsNetloc (user.text ++ '@' :: host.text) = true := by
  rw [SameVerdict, forall_and, forall_and, accepts_iff_lists, accepts_iff_lists, accepts_iff_lists,
    extractRemote_scpUrl, extractRemote_schemeUrl library (.inl rfl),
    extractRemote_schemeUrl library (.inr rfl)]
  tauto

end Verdicts

/-- A library that knows ASCII only. -/
def asciiLibrary : TextLibrary where
  acceptsNetloc _ := true
  lower := List.map Char.toLower
  shouldBypassProxies _ _ := .ok false
  lower_ascii _ _ := rfl
  isDecimal c := 0x30 ≤ c.val && c.val ≤ 0x39
  isDecimal_ascii c _ := by simp

/-- `git` -/
def gitUser : UserName where
  text := "git".toList
  chars c hc := by
    have hall : "git".toList.all (· ∉ ['/', '?', '#', '\t', '\r', '\n']) = true := by decide
    exact of_decide_eq_true (List.all_eq_true.1 hall c hc)

/-- `GitHub.com` -/
def gitHubHost : HostName where
  text := "GitHub.com".toList
  ne_nil := by decide
  chars c hc := by
    have hall : "GitHub.com".toList.all
        (fun c => c.isAlphanum = true ∨ c = '-' ∨ c = '.') = true := by decide
    exact of_decide_eq_true (List.all_eq_true.1 hall c hc)

/-- With `GitHub.com` in the known hosts, `git@GitHub.com:o/r` is accepted and
`ssh://git@GitHub.com/o/r` is not. -/
theorem not_sameVerdict_capital :
    ¬ SameVerdict asciiLibrary gitUser gitHubHost "o/r".toList := by
  intro h
  obtain ⟨hscp, hssh, -⟩ := h (lit "GitHub.com ssh-rsa AAAA")
  have hyes : Accepts asciiLibrary (scpUrl gitUser gitHubHost "o/r".toList)
      (lit "GitHub.com ssh-rsa AAAA") := by
    rfl
  have hno : checkRemote asciiLibrary (schemeUrl "ssh" gitUser gitHubHost "o/r".toList)
      (lit "GitHub.com ssh-rsa AAAA") =
        .error (.blocked "Git remote 'github.com' is not in the known hosts configuration.") := by
    rfl
  have hyes' := hssh.2 (hscp.1 hyes)
  rw [Accepts, hno] at hyes'
  cases hyes'

end Remotes
end MediawikiCharm
