/-
URLs that are split and put together again.

`urlparse` takes a scheme for URLs without one, and `geturl` puts the components together.  No
symbol comes into a component that was dropped before, so that the result has no line breaks.
-/
import MediawikiCharm.Lib.PyUrl

namespace PyUrl

open PyText PyAddress

/-- `urlparse(url, scheme)`, or `none` where it raises `ValueError` -/
def urlparseWith (u : UnicodeData) (scheme url : PyStr) : Option ParseResult :=
  let (name, rest) := splitScheme (cleaned url)
  let scheme := if name = [] then scheme else name
  let (netloc, rest) := splitNetloc rest
  let (path, params, query, fragment) := splitRest scheme rest
  if acceptsNetloc u netloc then some ⟨scheme, netloc, path, params, query, fragment⟩ else none

/-- `uses_netloc` -/
def usesNetloc : List PyStr :=
  ["", "ftp", "http", "gopher", "nntp", "telnet", "imap", "wais", "file", "mms", "https", "shttp",
    "snews", "prospero", "rtsp", "rtsps", "rtspu", "rsync", "svn", "svn+ssh", "sftp", "nfs", "git",
    "git+ssh", "ws", "wss", "itms-services"].map lit

namespace ParseResult

variable (r : ParseResult)

/-- The path with its parameters. -/
def pathText : PyStr := if r.params = [] then r.path else r.path ++ ofChar ';' :: r.params

/-- The network location with the path. -/
def hierText : PyStr :=
  if r.netloc ≠ [] then
    lit "//" ++ (r.netloc ++
      if r.pathText ≠ [] ∧ r.pathText.head? ≠ some (ofChar '/') then ofChar '/' :: r.pathText
      else r.pathText)
  else if lit "//" <+: r.pathText then lit "//" ++ r.pathText
  else if r.scheme ≠ [] ∧ r.scheme ∈ usesNetloc ∧
      (r.pathText = [] ∨ r.pathText.head? = some (ofChar '/')) then lit "//" ++ r.pathText
  else r.pathText

/-- `geturl` -/
def geturl : PyStr :=
  (if r.scheme = [] then [] else r.scheme ++ [ofChar ':']) ++ r.hierText ++
    (if r.query = [] then [] else ofChar '?' :: r.query) ++
    if r.fragment = [] then [] else ofChar '#' :: r.fragment

end ParseResult

/-! ### No symbol that is dropped comes back -/

section Symbols

variable {P : PyChar → Prop}

lemma forall_before {sep : PyChar} {s : PyStr} (h : ∀ c ∈ s, P c) : ∀ c ∈ before sep s, P c :=
  fun c hc => h c ((List.takeWhile_prefix _).subset hc)

lemma forall_after {sep : PyChar} {s : PyStr} (h : ∀ c ∈ s, P c) : ∀ c ∈ after sep s, P c :=
  fun c hc => h c ((List.dropWhile_suffix _).subset (List.mem_of_mem_tail hc))

/-- The components of a URL have symbols of the URL and of its scheme only. -/
lemma forall_splitRest {scheme rest : PyStr} (h : ∀ c ∈ rest, P c) :
    (∀ c ∈ (splitRest scheme rest).1, P c) ∧ (∀ c ∈ (splitRest scheme rest).2.1, P c) ∧
      (∀ c ∈ (splitRest scheme rest).2.2.1, P c) ∧
      ∀ c ∈ (splitRest scheme rest).2.2.2, P c := by
  have hpath : ∀ c ∈ before (ofChar '?') (before (ofChar '#') rest), P c :=
    forall_before (forall_before h)
  have hparams : ∀ path : PyStr, (∀ c ∈ path, P c) →
      (∀ c ∈ (splitParams path).1, P c) ∧ ∀ c ∈ (splitParams path).2, P c := by
    intro path hpath
    have hlast : ∀ c ∈ path.rtakeWhile (· ≠ ofChar '/'), P c := fun c hc =>
      hpath c ((List.rtakeWhile_suffix _ _).subset hc)
    rw [splitParams]
    split_ifs
    · refine ⟨List.forall_mem_append.2 ⟨fun c hc => ?_, forall_before hlast⟩, forall_after hlast⟩
      exact hpath c ((List.rdropWhile_prefix _ _).subset hc)
    · exact ⟨hpath, fun c hc => absurd hc List.not_mem_nil⟩
  refine ⟨?_, ?_, forall_after (forall_before h), forall_after h⟩
  · rw [splitRest]
    dsimp only
    split_ifs
    · exact (hparams _ hpath).1
    · exact hpath
  · rw [splitRest]
    dsimp only
    split_ifs
    · exact (hparams _ hpath).2
    · exact fun c hc => absurd hc List.not_mem_nil

end Symbols

lemma forall_splitNetloc {P : PyChar → Prop} {url : PyStr} (h : ∀ c ∈ url, P c) :
    (∀ c ∈ (splitNetloc url).1, P c) ∧ ∀ c ∈ (splitNetloc url).2, P c := by
  have hdrop : ∀ c ∈ url.drop 2, P c := fun c hc => h c (List.mem_of_mem_drop hc)
  unfold splitNetloc
  split_ifs
  · exact ⟨fun c hc => hdrop c ((List.takeWhile_prefix _).subset hc),
      fun c hc => hdrop c ((List.dropWhile_suffix _).subset hc)⟩
  · exact ⟨fun c hc => absurd hc List.not_mem_nil, h⟩

/-- A text that is put together has the symbols of the components, and those that separate
them. -/
lemma forall_geturl {P : PyChar → Prop} {r : ParseResult} (hsymbols : ∀ c ∈ lit "/;:?#", P c)
    (hscheme : ∀ c ∈ r.scheme, P c) (hnetloc : ∀ c ∈ r.netloc, P c) (hpath : ∀ c ∈ r.path, P c)
    (hparams : ∀ c ∈ r.params, P c) (hquery : ∀ c ∈ r.query, P c)
    (hfragment : ∀ c ∈ r.fragment, P c) : ∀ c ∈ r.geturl, P c := by
  have hslash := hsymbols (ofChar '/') (by decide)
  have hsemicolon := hsymbols (ofChar ';') (by decide)
  have hcolon := hsymbols (ofChar ':') (by decide)
  have hquestion := hsymbols (ofChar '?') (by decide)
  have hhash := hsymbols (ofChar '#') (by decide)
  have hslashes : ∀ c ∈ lit "//", P c := fun c hc => by
    have heq : c = ofChar '/' := by
      have hall : lit "//" = [ofChar '/', ofChar '/'] := by decide
      rw [hall] at hc
      simpa using hc
    rw [heq]
    exact hslash
  have hnil : ∀ c ∈ ([] : PyStr), P c := fun c hc => absurd hc List.not_mem_nil
  have hpathText : ∀ c ∈ r.pathText, P c := by
    unfold ParseResult.pathText
    split_ifs
    · exact hpath
    · exact List.forall_mem_append.2 ⟨hpath, List.forall_mem_cons.2 ⟨hsemicolon, hparams⟩⟩
  have hhier : ∀ c ∈ r.hierText, P c := by
    unfold ParseResult.hierText
    split_ifs
    · exact List.forall_mem_append.2 ⟨hslashes, List.forall_mem_append.2 ⟨hnetloc,
        List.forall_mem_cons.2 ⟨hslash, hpathText⟩⟩⟩
    · exact List.forall_mem_append.2 ⟨hslashes, List.forall_mem_append.2 ⟨hnetloc, hpathText⟩⟩
    · exact List.forall_mem_append.2 ⟨hslashes, hpathText⟩
    · exact List.forall_mem_append.2 ⟨hslashes, hpathText⟩
    · exact hpathText
  unfold ParseResult.geturl
  refine List.forall_mem_append.2 ⟨List.forall_mem_append.2 ⟨List.forall_mem_append.2
    ⟨?_, hhier⟩, ?_⟩, ?_⟩
  · split_ifs
    · exact hnil
    · exact List.forall_mem_append.2 ⟨hscheme, List.forall_mem_singleton.2 hcolon⟩
  · split_ifs
    · exact hnil
    · exact List.forall_mem_cons.2 ⟨hquestion, hquery⟩
  · split_ifs
    · exact hnil
    · exact List.forall_mem_cons.2 ⟨hhash, hfragment⟩

/-- A URL that was split and put together has no line breaks. -/
theorem newline_not_mem_geturl {u : UnicodeData} {scheme url : PyStr} {r : ParseResult}
    (h : urlparseWith u scheme url = some r) (hscheme : ofChar '\n' ∉ scheme) :
    ofChar '\n' ∉ r.geturl := by
  have hcleaned : ∀ c ∈ cleaned url, c ≠ ofChar '\n' := by
    intro c hc heq
    have hsafe := (List.mem_filter.1 hc).2
    rw [heq] at hsafe
    exact absurd hsafe (by decide)
  have hlower : ∀ c : PyChar, c ≠ ofChar '\n' → lowerChar c ≠ ofChar '\n' := by
    intro c hc heq
    exact hc ((lowerChar_eq_iff (by decide)).1 heq)
  have hsplit : (∀ c ∈ (splitScheme (cleaned url)).1, c ≠ ofChar '\n') ∧
      ∀ c ∈ (splitScheme (cleaned url)).2, c ≠ ofChar '\n' := by
    rw [splitScheme]
    split_ifs
    · exact ⟨List.forall_mem_map.2 fun c hc => hlower c (forall_before hcleaned c hc),
        forall_after hcleaned⟩
    · exact ⟨fun c hc => absurd hc List.not_mem_nil, hcleaned⟩
  have hsymbols : ∀ c ∈ lit "/;:?#", c ≠ ofChar '\n' := by
    intro c hc heq
    rw [heq] at hc
    exact absurd hc (by decide)
  unfold urlparseWith at h
  dsimp only at h
  split_ifs at h
  · obtain rfl := Option.some.inj h
    obtain ⟨hhost, hrest⟩ := forall_splitNetloc hsplit.2
    obtain ⟨hpath, hparams, hquery, hfragment⟩ := @forall_splitRest (· ≠ ofChar '\n') scheme _ hrest
    intro hmem
    refine forall_geturl hsymbols ?_ hhost hpath hparams hquery hfragment _ hmem rfl
    exact fun c hc heq => hscheme (heq ▸ hc)
  · obtain rfl := Option.some.inj h
    obtain ⟨hhost, hrest⟩ := forall_splitNetloc hsplit.2
    obtain ⟨hpath, hparams, hquery, hfragment⟩ :=
      @forall_splitRest (· ≠ ofChar '\n') (splitScheme (cleaned url)).1 _ hrest
    intro hmem
    exact forall_geturl hsymbols hsplit.1 hhost hpath hparams hquery hfragment _ hmem rfl

end PyUrl
