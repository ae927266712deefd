/-
The URL of an article (`mediawiki_api.py`, `relations/auth.py`).

MediaWiki writes `$1` where the title belongs.  The charm writes a placeholder of
`string.Template` there, and leaves every other `$` as it is.  The template takes these for the
beginnings of placeholders, too: substituting fails or changes the URL, unless every `$` of the
URL is one of `$1`.
-/
import MediawikiCharm.Lib.StringTemplate
import MediawikiCharm.Lib.Substitution
import MediawikiCharm.UrlOrigin.Grammar
import Mathlib.Tactic.Ring

namespace MediawikiCharm
namespace SiteInfo

open PyText PyUrl StringTemplate

/-- The `general` part of the answer, as far as it is read. -/
structure General where
  articlepath : Option PyStr := none
  server : Option PyStr := none

/-- `text.replace("$1", new)` -/
def replaceTitle (new text : PyStr) : PyStr := Substitution.substitute [lit "$1"] new text

namespace General

variable (u : UnicodeData) (general : General)

/-- The URL with MediaWiki's placeholder; an error is that of `urlparse`. -/
def fullUrl : Except Error (Option PyStr) :=
  match general.articlepath with
  | none => .ok none
  | some path =>
    match urlparse u path with
    | none => .error .valueError
    | some parsed =>
      if parsed.scheme ≠ [] ∨ parsed.netloc ≠ [] then .ok (some path)
      else .ok (general.server.map fun server => server ++ path)

/-- `article_url`: the text of the template -/
def articleUrl : Except Error (Option PyStr) :=
  (Option.map (replaceTitle (lit "${article}"))) <$> general.fullUrl u

end General

/-- The keyword argument of `substitute(article=title)`. -/
def article (title : PyStr) (name : PyStr) : Option PyStr :=
  if name = lit "article" then some title else none

/-- Substituting the title in the template yields the URL with the title. -/
def IsExact (full template title : PyStr) : Prop :=
  substitute (article title) template = .ok (replaceTitle title full)

/-- Every `$` is one of MediaWiki's placeholder. -/
def DollarsNumbered (full : PyStr) : Prop :=
  ∀ a b, full = a ++ ofChar '$' :: b → b.head? = some (ofChar '1')

variable {new s t title out : PyStr} {c : PyChar}

/-! ### The title is put in place -/

lemma replaceTitle_nil (new : PyStr) : replaceTitle new [] = [] := rfl

lemma replaceTitle_number (new s : PyStr) :
    replaceTitle new (ofChar '$' :: ofChar '1' :: s) = new ++ replaceTitle new s :=
  Substitution.substitute_of_match (p := lit "$1") (by decide) (by rfl) rfl

lemma replaceTitle_cons (h : c = ofChar '$' → s.head? ≠ some (ofChar '1')) :
    replaceTitle new (c :: s) = c :: replaceTitle new s := by
  refine Substitution.substitute_of_no_match (List.find?_eq_none.2 fun p hp hstart => ?_)
  rw [List.mem_singleton.1 hp, List.isPrefixOf_iff_prefix] at hstart
  obtain ⟨rfl, hrest⟩ := List.cons_prefix_cons.1 hstart
  obtain ⟨t, rfl⟩ := hrest
  exact h rfl rfl

/-- Nothing is replaced in front of the first `$`. -/
lemma replaceTitle_append (ht : ofChar '$' ∉ t) :
    replaceTitle new (t ++ s) = t ++ replaceTitle new s := by
  induction t with
  | nil => rfl
  | cons c t ih =>
    rw [List.mem_cons, not_or] at ht
    rw [List.cons_append, replaceTitle_cons fun hc => absurd hc.symm ht.1, ih ht.2,
      List.cons_append]

/-- A piece of the result in front of its first `$` is a piece of the text. -/
lemma replaceTitle_eq_append {k : ℕ} (hnew : ofChar '$' ∈ new.head?)
    (h : ofChar '$' ∉ (replaceTitle new s).take k) :
    replaceTitle new s = s.take k ++ replaceTitle new (s.drop k) := by
  induction k generalizing s with
  | zero => rfl
  | succ k ih =>
    cases s with
    | nil => rfl
    | cons c s =>
      have hc : c = ofChar '$' → s.head? ≠ some (ofChar '1') := by
        rintro rfl hhead
        obtain ⟨t, rfl⟩ := List.head?_eq_some_iff.1 hhead
        obtain ⟨rest, rfl⟩ := List.head?_eq_some_iff.1 hnew
        rw [replaceTitle_number] at h
        exact h List.mem_cons_self
      rw [replaceTitle_cons hc, List.take_succ_cons, List.mem_cons, not_or] at h
      rw [replaceTitle_cons hc, ih h.2]
      rfl

/-! ### Every `$` is numbered -/

lemma dollarsNumbered_nil : DollarsNumbered [] := by
  intro a b h
  cases a with
  | nil => exact absurd h nofun
  | cons => exact absurd h nofun

lemma dollarsNumbered_cons : DollarsNumbered (c :: s) ↔
    (c = ofChar '$' → s.head? = some (ofChar '1')) ∧ DollarsNumbered s := by
  constructor
  · intro h
    refine ⟨fun hc => h [] s (by rw [hc]; rfl), fun a b hab => h (c :: a) b ?_⟩
    rw [hab]
    rfl
  · rintro ⟨hc, hs⟩ a b hab
    cases a with
    | nil =>
      obtain ⟨rfl, rfl⟩ := List.cons.inj hab
      exact hc rfl
    | cons d a => exact hs a b (List.cons.inj hab).2

/-- The placeholder of the template is replaced by the title. -/
lemma substitute_article (title s : PyStr) :
    substitute (article title) (lit "${article}" ++ s) =
      (title ++ ·) <$> substitute (article title) s := by
  have hname : placeholder (lit "{article}" ++ s) = .name (lit "article") 9 := rfl
  have hvalue : article title (lit "article") = some title := if_pos rfl
  exact substitute_name hname hvalue

/-- The title is put in the place of each placeholder where there is no other `$`. -/
lemma isExact_of_dollarsNumbered (h : DollarsNumbered s) (title : PyStr) :
    IsExact s (replaceTitle (lit "${article}") s) title := by
  unfold IsExact
  induction hn : s.length using Nat.strong_induction_on generalizing s with
  | _ n ih =>
    cases s with
    | nil => rfl
    | cons c s =>
      obtain ⟨hc, hs⟩ := dollarsNumbered_cons.1 h
      by_cases hdollar : c = ofChar '$'
      · obtain ⟨t, rfl⟩ := List.head?_eq_some_iff.1 (hc hdollar)
        have ht : DollarsNumbered t := (dollarsNumbered_cons.1 hs).2
        rw [hdollar, replaceTitle_number, replaceTitle_number, substitute_article,
          ih t.length (by simp only [← hn, List.length_cons]; omega) ht rfl]
        rfl
      · have hkept : c = ofChar '$' → s.head? ≠ some (ofChar '1') := fun h => absurd h hdollar
        rw [replaceTitle_cons hkept, replaceTitle_cons hkept, substitute_cons hdollar,
          ih s.length (by rw [← hn]; simp) hs rfl]
        rfl

/-! ### Another `$` -/

/-- Each `$` counts for two, and each brace that opens takes one of them. -/
def weight (s : PyStr) : ℤ := 2 * s.count (ofChar '$') - s.count (ofChar '{')

lemma weight_append (s t : PyStr) : weight (s ++ t) = weight s + weight t := by
  unfold weight
  rw [List.count_append, List.count_append]
  push_cast
  ring

lemma weight_eq_zero (hdollar : ofChar '$' ∉ s) (hbrace : ofChar '{' ∉ s) : weight s = 0 := by
  rw [weight, List.count_eq_zero_of_not_mem hdollar, List.count_eq_zero_of_not_mem hbrace]
  rfl

lemma weight_cons (c : PyChar) (s : PyStr) : weight (c :: s) = weight [c] + weight s :=
  weight_append [c] s

lemma weight_dollar : weight [ofChar '$'] = 2 := by decide

/-- What is left of the template behind a name. -/
lemma replaceTitle_drop {k : ℕ} (hnew : ofChar '$' ∈ new.head?)
    (h : ofChar '$' ∉ (replaceTitle new s).take k) :
    ofChar '$' ∉ s.take k ∧ (replaceTitle new s).take k = s.take k ∧
      (replaceTitle new s).drop k = replaceTitle new (s.drop k) := by
  have hsplit := replaceTitle_eq_append hnew h
  rcases le_or_gt k s.length with hk | hk
  · have hlength : (s.take k).length = k := List.length_take_of_le hk
    have htake : (replaceTitle new s).take k = s.take k := by
      rw [hsplit, List.take_left' hlength]
    refine ⟨htake ▸ h, htake, ?_⟩
    conv_lhs => rw [hsplit]
    rw [List.drop_left' hlength]
  · have htake : s.take k = s := List.take_of_length_le hk.le
    have hdrop : s.drop k = [] := List.drop_of_length_le hk.le
    rw [htake, hdrop, replaceTitle_nil, List.append_nil] at hsplit
    rw [hsplit, htake] at h
    rw [hsplit, hdrop, htake]
    exact ⟨h, rfl, rfl⟩

/-- At a `$` that is not numbered, substituting loses weight: the text up to the next piece is
replaced by a lighter one. -/
lemma exists_lighter (hdollar : ofChar '$' ∉ title) (hbrace : ofChar '{' ∉ title)
    (hs : s.head? ≠ some (ofChar '1'))
    (h : substitute (article title) (replaceTitle (lit "${article}") (ofChar '$' :: s)) = .ok out) :
    ∃ t out', t.length ≤ s.length ∧
      substitute (article title) (replaceTitle (lit "${article}") t) = .ok out' ∧
      weight out - weight out' <
        weight (replaceTitle title (ofChar '$' :: s)) - weight (replaceTitle title t) := by
  have hzero : weight title = 0 := weight_eq_zero hdollar hbrace
  rw [replaceTitle_cons fun _ => hs] at h
  rw [replaceTitle_cons fun _ => hs, weight_cons, weight_dollar]
  rcases placeholder_of_ok h with hescaped | ⟨name, k, value, hname, hvalue⟩
  · -- two of them stand for one
    obtain ⟨rest, hrest⟩ := placeholder_escaped hescaped
    rw [hrest, substitute_escaped] at h
    obtain ⟨out₁, hout₁, rfl⟩ := exists_of_map_ok h
    have hout := weight_cons (ofChar '$') out₁
    rw [weight_dollar] at hout
    cases s with
    | nil => exact absurd hrest nofun
    | cons d t =>
      by_cases hd : d = ofChar '$' ∧ t.head? = some (ofChar '1')
      · obtain ⟨rfl, hone⟩ := hd
        obtain ⟨t, rfl⟩ := List.head?_eq_some_iff.1 hone
        have hbraces : rest = lit "{article}" ++ replaceTitle (lit "${article}") t := by
          rw [replaceTitle_number] at hrest
          exact (List.cons.inj hrest).2.symm
        rw [hbraces, substitute_append (by decide)] at hout₁
        obtain ⟨out', hout', rfl⟩ := exists_of_map_ok hout₁
        refine ⟨t, out', by simp; omega, hout', ?_⟩
        have hname : weight (lit "{article}") = -1 := by decide
        rw [weight_append, hname] at hout
        rw [replaceTitle_number, weight_append, hzero]
        omega
      · have hkept : d = ofChar '$' → t.head? ≠ some (ofChar '1') := fun hd' hone =>
          hd ⟨hd', hone⟩
        rw [replaceTitle_cons hkept] at hrest
        obtain ⟨rfl, rfl⟩ := List.cons.inj hrest
        refine ⟨t, out₁, by simp, hout₁, ?_⟩
        have hexact := weight_cons (ofChar '$') (replaceTitle title t)
        rw [weight_dollar] at hexact
        rw [replaceTitle_cons hkept]
        omega
  · -- a name stands for the title
    have hvalue' : title = value := by
      unfold article at hvalue
      split_ifs at hvalue
      exact Option.some.inj hvalue
    rw [substitute_name hname hvalue, ← hvalue'] at h
    obtain ⟨out', hout', rfl⟩ := exists_of_map_ok h
    obtain ⟨hnone, hbraces⟩ := placeholder_name hname
    obtain ⟨hnone', htake, hdrop⟩ := replaceTitle_drop rfl hnone
    rw [htake] at hbraces
    rw [hdrop] at hout'
    refine ⟨s.drop k, out', by rw [List.length_drop]; omega, hout', ?_⟩
    have hexact : replaceTitle title s = s.take k ++ replaceTitle title (s.drop k) := by
      rw [← replaceTitle_append hnone', List.take_append_drop]
    have hname' : -1 ≤ weight (s.take k) := by
      rw [weight, List.count_eq_zero_of_not_mem hnone']
      omega
    rw [hexact, weight_append, weight_append, hzero]
    omega

/-- Where the title has neither, substituting loses weight at every `$` that is not numbered. -/
lemma weight_substitute (hdollar : ofChar '$' ∉ title) (hbrace : ofChar '{' ∉ title)
    (h : substitute (article title) (replaceTitle (lit "${article}") s) = .ok out) :
    weight out ≤ weight (replaceTitle title s) ∧
      (weight out = weight (replaceTitle title s) → DollarsNumbered s) := by
  have hzero : weight title = 0 := weight_eq_zero hdollar hbrace
  induction hn : s.length using Nat.strong_induction_on generalizing s out with
  | _ n ih =>
    cases s with
    | nil =>
      obtain rfl := Except.ok.inj h
      exact ⟨le_rfl, fun _ => dollarsNumbered_nil⟩
    | cons c s =>
      by_cases hc : c = ofChar '$' → s.head? = some (ofChar '1')
      · by_cases hdollar' : c = ofChar '$'
        · obtain ⟨t, rfl⟩ := List.head?_eq_some_iff.1 (hc hdollar')
          rw [hdollar', replaceTitle_number, substitute_article] at h
          obtain ⟨out', hout', rfl⟩ := exists_of_map_ok h
          obtain ⟨hle, heq⟩ := ih t.length (by simp only [← hn, List.length_cons]; omega) hout' rfl
          rw [hdollar', replaceTitle_number, weight_append, weight_append, hzero]
          refine ⟨by omega, fun hweight => ?_⟩
          refine dollarsNumbered_cons.2 ⟨fun _ => rfl, dollarsNumbered_cons.2
            ⟨fun hone => absurd hone (by decide), heq (by omega)⟩⟩
        · have hkept : c = ofChar '$' → s.head? ≠ some (ofChar '1') := fun h => absurd h hdollar'
          rw [replaceTitle_cons hkept, substitute_cons hdollar'] at h
          obtain ⟨out', hout', rfl⟩ := exists_of_map_ok h
          obtain ⟨hle, heq⟩ := ih s.length (by rw [← hn]; simp) hout' rfl
          have hout := weight_cons c out'
          have hexact := weight_cons c (replaceTitle title s)
          rw [replaceTitle_cons hkept]
          exact ⟨by omega, fun hweight => dollarsNumbered_cons.2 ⟨hc, heq (by omega)⟩⟩
      · obtain ⟨rfl, hs⟩ := Classical.not_imp.1 hc
        obtain ⟨t, out', ht, hout', hlighter⟩ := exists_lighter hdollar hbrace hs h
        obtain ⟨hle, -⟩ := ih t.length (by rw [← hn, List.length_cons]; omega) hout' rfl
        exact ⟨by omega, fun hweight => by omega⟩

/-- The URL of an article: substituting is exact for every title if every `$` of the URL is
numbered.  Otherwise it fails, or gives another URL, for every title without `$` and braces. -/
theorem isExact_articleUrl_iff {u : UnicodeData} {general : General} {full : PyStr}
    (h : general.fullUrl u = .ok (some full)) :
    ∃ template, general.articleUrl u = .ok (some template) ∧
      ((∀ title, IsExact full template title) ↔ DollarsNumbered full) ∧
      ∀ title, ofChar '$' ∉ title → ofChar '{' ∉ title →
        (IsExact full template title ↔ DollarsNumbered full) := by
  have hiff : ∀ title, ofChar '$' ∉ title → ofChar '{' ∉ title →
      (IsExact full (replaceTitle (lit "${article}") full) title ↔ DollarsNumbered full) := by
    intro title hdollar hbrace
    refine ⟨fun hexact => ?_, fun hnumbered => isExact_of_dollarsNumbered hnumbered title⟩
    exact (weight_substitute hdollar hbrace hexact).2 rfl
  refine ⟨replaceTitle (lit "${article}") full, ?_, ?_, hiff⟩
  · rw [General.articleUrl, h]
    rfl
  · refine ⟨fun hexact => ?_, fun hnumbered => isExact_of_dollarsNumbered hnumbered⟩
    exact (hiff [] List.not_mem_nil List.not_mem_nil).1 (hexact [])

/-- A wiki as MediaWiki sets it up. -/
def wiki : General where
  articlepath := some (lit "/w/$1")
  server := some (lit "https://wiki")

theorem isExact_articleUrl_wiki :
    wiki.fullUrl UrlOrigin.asciiUnicode = .ok (some (lit "https://wiki/w/$1")) ∧
    ∃ template, wiki.articleUrl UrlOrigin.asciiUnicode = .ok (some template) ∧
      ((∀ title, IsExact (lit "https://wiki/w/$1") template title) ↔
        DollarsNumbered (lit "https://wiki/w/$1")) ∧
      ∀ title, ofChar '$' ∉ title → ofChar '{' ∉ title →
        (IsExact (lit "https://wiki/w/$1") template title ↔
          DollarsNumbered (lit "https://wiki/w/$1")) :=
  ⟨by decide, isExact_articleUrl_iff (by decide)⟩

/-- An article path with another `$`: substituting the title raises an error. -/
theorem not_isExact_articleUrl : ∃ general : General, ∃ full template title : PyStr,
    general.fullUrl UrlOrigin.asciiUnicode = .ok (some full) ∧
      general.articleUrl UrlOrigin.asciiUnicode = .ok (some template) ∧
      substitute (article title) template = .error (.keyError (lit "wiki")) ∧
      ¬ IsExact full template title := by
  have hfails : substitute (article (lit "Special:PluggableAuthLogin"))
      (lit "https://wiki/$wiki/${article}") = .error (.keyError (lit "wiki")) := rfl
  refine ⟨⟨some (lit "/$wiki/$1"), some (lit "https://wiki")⟩, lit "https://wiki/$wiki/$1",
    lit "https://wiki/$wiki/${article}", lit "Special:PluggableAuthLogin", rfl, rfl, hfails, ?_⟩
  intro hexact
  rw [IsExact, hfails] at hexact
  exact absurd hexact nofun

end SiteInfo
end MediawikiCharm
