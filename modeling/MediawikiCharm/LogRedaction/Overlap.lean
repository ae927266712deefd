/-
Overlapping credentials in `redact`.

The expression in force is compiled from some of the stored renderings, from all of them unless
a call of `register` was cut short.  `redact` masks what it matches, so a credential that begins
inside a match is masked behind its end only as far as other renderings match there.  Every
occurrence of every credential is masked in every text if and only if the renderings leave no
overhang.
-/
import MediawikiCharm.Lib.Coverage
import MediawikiCharm.LogRedaction

namespace MediawikiCharm
namespace Redactor

open PyText Substitution

variable (isPrintable : PyChar → Bool)

/-- The alternatives of the expression that `redact` uses. -/
def words (st : Redactor) : List PyStr := st.pattern.getD (alternatives st.values)

/-- In the result of `redact` every occurrence of every registered value is masked. -/
def Covered (st : Session) (text : PyStr) : Prop :=
  ∃ segs last, source segs last = text ∧
    (redact text st.redactor).1 = .ok (masked mask segs last) ∧
    LeftmostLongest {v | v ∈ words st.redactor} segs last ∧
    ∀ value ∈ st.registered, CoversWord segs last value

/-! ### The expression in force -/

/-- The cached expression is one of stored renderings, none of which is empty. -/
structure Compiled (st : Redactor) : Prop where
  nil_notMem : [] ∉ st.values
  pattern : ∀ p, st.pattern = some p → ∃ s ⊆ st.values, p = alternatives s

lemma Compiled.words_eq {st : Redactor} (h : Compiled st) :
    ∃ s ⊆ st.values, words st = alternatives s := by
  cases hp : st.pattern with
  | none => exact ⟨st.values, Finset.Subset.refl _, by rw [words, hp]; rfl⟩
  | some p =>
    obtain ⟨s, hs, rfl⟩ := h.pattern p hp
    exact ⟨s, hs, by rw [words, hp]; rfl⟩

lemma Compiled.redact_run {st : Redactor} (h : Compiled st) (text : PyStr) :
    (redact text st).1 = .ok (substitute (words st) mask text) ∧ Compiled (redact text st).2 := by
  obtain ⟨values, pattern⟩ := st
  by_cases hv : values = ∅
  · obtain ⟨s, hs, hwords⟩ := h.words_eq
    obtain rfl : s = ∅ := Finset.subset_empty.1 (hv ▸ hs)
    have hrun : redact text ⟨values, pattern⟩ = (.ok text, ⟨values, pattern⟩) := by
      simp [redact, Prog.bind_run, hv]
    rw [hrun, hwords, alternatives_empty, substitute_nil_alternatives]
    exact ⟨rfl, h⟩
  · cases pattern with
    | none =>
      have hrun : redact text ⟨values, none⟩ =
          (.ok (substitute (alternatives values) mask text), ⟨values, alternatives values⟩) := by
        simp [redact, Prog.bind_run, hv]
      rw [hrun]
      refine ⟨rfl, h.nil_notMem, fun p hp => ⟨values, Finset.Subset.refl _, ?_⟩⟩
      exact (Option.some.inj hp).symm
    | some p =>
      have hrun : redact text ⟨values, some p⟩ =
          (.ok (substitute p mask text), ⟨values, some p⟩) := by
        simp [redact, Prog.bind_run, hv]
      rw [hrun]
      exact ⟨rfl, h⟩

/-- Renderings are only added, and none of them is empty. -/
def Adds (vs vs' : Finset PyStr) : Prop := vs ⊆ vs' ∧ ([] ∉ vs → [] ∉ vs')

instance : Std.Refl Adds := ⟨fun _ => ⟨Finset.Subset.refl _, id⟩⟩

instance : IsTrans (Finset PyStr) Adds :=
  ⟨fun _ _ _ h h' => ⟨h.1.trans h'.1, fun hnil => h'.2 (h.2 hnil)⟩⟩

lemma adds_registerVariant {variant : PyStr} (hne : variant ≠ []) :
    Prog.Within Adds (registerVariant isPrintable variant) := by
  unfold registerVariant
  cases hb : encode variant with
  | none => exact .throw _
  | some b =>
    refine .modify fun vs => ⟨Finset.subset_union_left, fun hnil hmem => ?_⟩
    rcases Finset.mem_union.1 hmem with hmem | hmem
    · exact hnil hmem
    · exact nil_notMem_renderings isPrintable hne hb hmem

lemma adds_forM {l : List PyStr} (h : ∀ variant ∈ l, variant ≠ []) :
    Prog.Within Adds (l.forM (registerVariant isPrintable)) := by
  induction l with
  | nil => exact .pure _
  | cons variant l ih =>
    obtain ⟨hvariant, hl⟩ := List.forall_mem_cons.1 h
    exact .bind (adds_registerVariant isPrintable hvariant) fun _ => ih hl

lemma adds_registerValue (order : SetOrder) (value : Option PyStr) :
    Prog.Within Adds (registerValue isPrintable order value) := by
  cases value with
  | none => exact .pure _
  | some value =>
    show Prog.Within Adds (if strip value = [] then pure () else
      (order.list (variants value)).forM (registerVariant isPrintable))
    split
    · exact .pure _
    · next hblank =>
      have hne : value ≠ [] := by
        rintro rfl
        exact hblank rfl
      exact adds_forM isPrintable fun variant hmem =>
        (mem_variants ((order.mem_list _ _).1 hmem) hne).1

/-- On every exit `register` does to what is stored what the values do, and it keeps or drops the
expression. -/
lemma register_within_of {R : Finset PyStr → Finset PyStr → Prop} [Std.Refl R]
    [IsTrans (Finset PyStr) R] {order : SetOrder}
    (h : ∀ value, Prog.Within R (registerValue isPrintable order value))
    (values : List (Option PyStr)) (st : Redactor) :
    R st.values (register isPrintable order values st).2.values ∧
      ((register isPrintable order values st).2.pattern = st.pattern ∨
        (register isPrintable order values st).2.pattern = none) := by
  have hvalues : Prog.Within R (values.forM (registerValue isPrintable order)) := .forM h values
  have hall : (register isPrintable order values).wp
      (fun _ st' => R st.values st'.values ∧ (st'.pattern = st.pattern ∨ st'.pattern = none))
      (fun _ st' => R st.values st'.values ∧ (st'.pattern = st.pattern ∨ st'.pattern = none))
      st := by
    unfold register
    refine Prog.wp_bind.2 (Prog.wp_get.2 (Prog.wp_bind.2 (Prog.wp_zoom.2 ?_)))
    refine Prog.wp_mono (hvalues.wp st.values) (fun _ vs hvs => ?_) fun _ vs hvs => ⟨hvs, .inl rfl⟩
    refine Prog.wp_bind.2 (Prog.wp_get.2 (Prog.wp_ite.2 ⟨fun _ => ?_, fun _ => ?_⟩))
    · exact ⟨hvs, .inr rfl⟩
    · exact ⟨hvs, .inl rfl⟩
  exact Prog.wp_state hall (fun _ _ h => h) fun _ _ h => h

lemma compiled_invariant : (machine isPrintable).Invariant fun st => Compiled st.redactor where
  init := by
    rintro st rfl
    exact ⟨Finset.notMem_empty _, nofun⟩
  step st c st' h hst := by
    obtain rfl := hst
    cases c with
    | register order values =>
      obtain ⟨⟨hsub, hnil⟩, hpattern⟩ := register_within_of isPrintable
        (adds_registerValue isPrintable order) values st.redactor
      refine ⟨hnil h.nil_notMem, fun p hp => ?_⟩
      rcases hpattern with hkept | hdropped
      · obtain ⟨s, hs, rfl⟩ := h.pattern p (hkept.symm.trans hp)
        exact ⟨s, hs.trans hsub, rfl⟩
      · exact absurd (hdropped.symm.trans hp) nofun
    | redact text => exact (h.redact_run text).2

/-! ### Overhangs -/

/-- In every session `redact` masks every occurrence of every registered value in every text
exactly if the renderings in force leave no overhang. -/
theorem covered_iff_noOverhang {st : Session} (h : (machine isPrintable).Reachable st) :
    (∀ text, Covered st text) ↔
      NoOverhang {v | v ∈ words st.redactor} {value | value ∈ st.registered} := by
  have hcompiled := (compiled_invariant isPrintable).reachable h
  obtain ⟨s, hs, hwords⟩ := hcompiled.words_eq
  have hnil : [] ∉ s := fun hmem => hcompiled.nil_notMem (hs hmem)
  have hset : {v | v ∈ words st.redactor} = {v | v ∈ s} := by
    ext v
    rw [hwords]
    exact Finset.mem_sort _
  constructor
  · intro hcovered
    have hnil' : [] ∉ {v | v ∈ words st.redactor} := by
      rw [hset]
      exact hnil
    refine noOverhang_of_coversWord hnil' fun text => ?_
    obtain ⟨segs, last, hsrc, -, hll, hcovers⟩ := hcovered text
    exact ⟨segs, last, hsrc, hll, hcovers⟩
  · intro hover text
    obtain ⟨segs, last, hsrc, hsub, hll⟩ := substitute_alternatives hnil mask text
    rw [← hset] at hll
    refine ⟨segs, last, hsrc, ?_, hll, fun value hvalue => hover.coversWord hvalue hll⟩
    rw [(hcompiled.redact_run text).1, hwords, hsub]

/-- A session with two credentials; what the longer one leaves of an overlap is the shorter one. -/
def tilingSession : Session :=
  Session.step isAsciiPrintable {} (.register sortedOrder [some (lit "aa"), some (lit "a")])

/-- Three characters are two overlapping occurrences of the longer credential. -/
theorem covered_tilingSession : Covered tilingSession (lit "aaa") := by
  have hreach : (machine isAsciiPrintable).Reachable tilingSession :=
    .step (l := .register sortedOrder [some (lit "aa"), some (lit "a")]) (.init rfl) rfl
  refine (covered_iff_noOverhang isAsciiPrintable hreach).2 ?_ _
  have hvalues : tilingSession.redactor.values = {lit "aa", lit "a"} := by decide +kernel
  have hpattern : tilingSession.redactor.pattern.isNone = true := by decide +kernel
  have hregistered : tilingSession.registered = {lit "aa", lit "a"} := by decide +kernel
  have hmem : ∀ v, v ∈ words tilingSession.redactor ↔ v = lit "aa" ∨ v = lit "a" := by
    intro v
    rw [words, Option.isNone_iff_eq_none.1 hpattern, Option.getD_none, hvalues, alternatives,
      Finset.mem_sort, Finset.mem_insert, Finset.mem_singleton]
  intro w hw
  have hw : w = lit "aa" ∨ w = lit "a" := by
    rw [hregistered] at hw
    simpa using hw
  have hne : w ≠ [] := by
    rcases hw with rfl | rfl <;> decide
  refine ⟨tiled_of_mem ((hmem w).2 hw) hne, ?_⟩
  intro x y z hx hy hsplit hlongest
  have hxpos := List.length_pos_of_ne_nil hx
  have hypos := List.length_pos_of_ne_nil hy
  have hxy : x.length + y.length ≤ 2 := by
    rw [← List.length_append]
    rcases (hmem _).1 hlongest.1 with h | h <;> rw [h] <;> decide
  obtain ⟨c, rfl⟩ := List.length_eq_one_iff.1 (show y.length = 1 by omega)
  rcases hw with rfl | rfl
  · obtain ⟨-, rfl⟩ := List.cons.inj hsplit
    exact tiled_of_mem ((hmem _).2 (.inr rfl)) (List.cons_ne_nil _ _)
  · obtain ⟨-, rfl⟩ := List.cons.inj hsplit
    exact .nil

/-- A session with two credentials that overlap. -/
def overlapSession : Session :=
  Session.step isAsciiPrintable {} (.register sortedOrder [some (lit "abc"), some (lit "bcd")])

/-- The end of a credential that begins inside another one is left in clear. -/
theorem not_covered_overlapSession : ¬ ∀ st, (machine isAsciiPrintable).Reachable st →
    ∀ text, Covered st text := by
  intro h
  have hreach : (machine isAsciiPrintable).Reachable overlapSession :=
    .step (l := .register sortedOrder [some (lit "abc"), some (lit "bcd")]) (.init rfl) rfl
  have hvalues : overlapSession.redactor.values = {lit "abc", lit "bcd"} := by decide +kernel
  have hpattern : overlapSession.redactor.pattern.isNone = true := by decide +kernel
  have hwords : ∀ v, v ∈ words overlapSession.redactor ↔ v = lit "abc" ∨ v = lit "bcd" := by
    intro v
    rw [words, Option.isNone_iff_eq_none.1 hpattern, Option.getD_none, hvalues, alternatives,
      Finset.mem_sort, Finset.mem_insert, Finset.mem_singleton]
  have hmem : lit "bcd" ∈ overlapSession.registered := by decide +kernel
  have hlength : ∀ v ∈ words overlapSession.redactor, v.length = 3 := by
    intro v hv
    rcases (hwords v).1 hv with rfl | rfl <;> rfl
  have hnil : [] ∉ {v | v ∈ words overlapSession.redactor} := fun hv => nomatch hlength [] hv
  have hover : NoOverhang {v | v ∈ words overlapSession.redactor} {lit "bcd"} := by
    refine noOverhang_of_coversWord hnil fun text => ?_
    obtain ⟨segs, last, hsrc, -, hll, hcovers⟩ := h overlapSession hreach text
    refine ⟨segs, last, hsrc, hll, fun w hw => hcovers w ?_⟩
    rw [Set.mem_singleton_iff.1 hw]
    exact hmem
  -- "abc" is matched, and the "d" that is left of "bcd" is no word
  have hlongest : IsLongest {v | v ∈ words overlapSession.redactor} (lit "a" ++ lit "bc")
      (lit "d") := by
    exact ⟨(hwords _).2 (.inl rfl), fun v hv _ => (hlength v hv).le⟩
  have htiled := (hover (lit "bcd") rfl).2 (lit "a") (lit "bc") (lit "d") (by decide) (by decide)
    (by decide) hlongest
  obtain ⟨m, tail, hd, hm, -, -⟩ := htiled.exists_cons (by decide)
  have hlen := congrArg List.length hd
  rw [List.length_append, hlength m hm.1] at hlen
  have hone : (lit "d").length = 1 := rfl
  omega

end Redactor
end MediawikiCharm
