/-
Sequential programs with a state and exceptions.

A program takes a state and either returns a value or raises an exception; in both
cases it leaves a state behind, so that what was written before an exception stays
written.  This file defines the programs, their weakest precondition `wp` with one
condition for the normal exit and one for the exceptional exit, and the parts of the
state that a program leaves as they are on every exit.
-/
import Mathlib.Logic.Function.Basic
import Mathlib.Order.Defs.Unbundled
import Mathlib.Tactic.Common

/-- A program over states `σ` that raises exceptions of type `ε` and returns values of
type `α`.  The state it leaves is kept also when it raises. -/
def Prog (σ ε α : Type) : Type := σ → Except ε α × σ

namespace Prog

variable {σ τ ε α β : Type}

instance : Monad (Prog σ ε) where
  pure a := fun s => (.ok a, s)
  bind x f := fun s =>
    match x s with
    | (.ok a, s') => f a s'
    | (.error e, s') => (.error e, s')

instance : MonadExceptOf ε (Prog σ ε) where
  throw e := fun s => (.error e, s)
  tryCatch x h := fun s =>
    match x s with
    | (.ok a, s') => (.ok a, s')
    | (.error e, s') => h e s'

/-- The current state. -/
def get : Prog σ ε σ := fun s => (.ok s, s)

/-- Replace the state by its image under `f`. -/
def modify (f : σ → σ) : Prog σ ε Unit := fun s => (.ok (), f s)

/-- Raise the exception of a computation that does not touch the state, or return its
value. -/
def ofExcept (r : Except ε α) : Prog σ ε α := fun s => (r, s)

/-- Run a program over a part of the state. -/
def zoom (view : σ → τ) (set : τ → σ → σ) (x : Prog τ ε α) : Prog σ ε α := fun s =>
  ((x (view s)).1, set (x (view s)).2 s)

/-- Run `x` and then `f`, also when `x` raises; an exception of `f` takes the place of
the one of `x`. -/
def andFinally (x : Prog σ ε α) (f : Prog σ ε Unit) : Prog σ ε α := fun s =>
  match x s with
  | (r, s') =>
    match f s' with
    | (.ok _, s'') => (r, s'')
    | (.error e, s'') => (.error e, s'')

/-! ### Running the building blocks -/

@[simp] lemma pure_run (a : α) (s : σ) : (pure a : Prog σ ε α) s = (.ok a, s) := rfl

@[simp] lemma throw_run (e : ε) (s : σ) : (throw e : Prog σ ε α) s = (.error e, s) := rfl

@[simp] lemma get_run (s : σ) : (get : Prog σ ε σ) s = (.ok s, s) := rfl

@[simp] lemma modify_run (f : σ → σ) (s : σ) : (modify f : Prog σ ε Unit) s = (.ok (), f s) := rfl

@[simp] lemma ofExcept_run (r : Except ε α) (s : σ) : (ofExcept r : Prog σ ε α) s = (r, s) := rfl

lemma bind_run (x : Prog σ ε α) (f : α → Prog σ ε β) (s : σ) :
    (x >>= f) s = match x s with
      | (.ok a, s') => f a s'
      | (.error e, s') => (.error e, s') := rfl

lemma tryCatch_run (x : Prog σ ε α) (h : ε → Prog σ ε α) (s : σ) :
    (tryCatch x h) s = match x s with
      | (.ok a, s') => (.ok a, s')
      | (.error e, s') => h e s' := rfl

lemma bind_run_ok {x : Prog σ ε α} {f : α → Prog σ ε β} {s s' : σ} {a : α}
    (h : x s = (.ok a, s')) : (x >>= f) s = f a s' := by
  rw [bind_run, h]

lemma bind_run_error {x : Prog σ ε α} {f : α → Prog σ ε β} {s s' : σ} {e : ε}
    (h : x s = (.error e, s')) : (x >>= f) s = (.error e, s') := by
  rw [bind_run, h]

lemma bind_assoc {γ : Type} (x : Prog σ ε α) (f : α → Prog σ ε β) (g : β → Prog σ ε γ) :
    ((x >>= f) >>= g) = (x >>= fun a => f a >>= g) := by
  funext s
  rw [bind_run, bind_run, bind_run]
  rcases x s with ⟨e | a, s'⟩
  · rfl
  · rfl

/-! ### Weakest preconditions -/

/-- `wp x Q E s`: started in `s`, the program `x` either returns a value and leaves a
state that satisfy `Q`, or raises an exception and leaves a state that satisfy `E`. -/
def wp (x : Prog σ ε α) (Q : α → σ → Prop) (E : ε → σ → Prop) (s : σ) : Prop :=
  match x s with
  | (.ok a, s') => Q a s'
  | (.error e, s') => E e s'

variable {Q : α → σ → Prop} {E : ε → σ → Prop} {s : σ}

@[simp] lemma wp_pure {a : α} : wp (pure a) Q E s ↔ Q a s := Iff.rfl

@[simp] lemma wp_throw {e : ε} : wp (throw e) Q E s ↔ E e s := Iff.rfl

@[simp] lemma wp_get {Q : σ → σ → Prop} : wp get Q E s ↔ Q s s := Iff.rfl

@[simp] lemma wp_modify {Q : Unit → σ → Prop} {f : σ → σ} :
    wp (modify f) Q E s ↔ Q () (f s) := Iff.rfl

@[simp] lemma wp_bind {x : Prog σ ε α} {f : α → Prog σ ε β} {Q : β → σ → Prop} :
    wp (x >>= f) Q E s ↔ wp x (fun a s' => wp (f a) Q E s') E s := by
  unfold wp
  rw [bind_run]
  rcases x s with ⟨_ | _, _⟩ <;> rfl

@[simp] lemma wp_tryCatch {x : Prog σ ε α} {h : ε → Prog σ ε α} :
    wp (tryCatch x h) Q E s ↔ wp x Q (fun e s' => wp (h e) Q E s') s := by
  unfold wp
  rw [tryCatch_run]
  rcases x s with ⟨_ | _, _⟩ <;> rfl

@[simp] lemma wp_andFinally {x : Prog σ ε α} {f : Prog σ ε Unit} :
    wp (andFinally x f) Q E s ↔ wp x (fun a s' => wp f (fun _ s'' => Q a s'') E s')
      (fun e s' => wp f (fun _ s'' => E e s'') E s') s := by
  unfold wp andFinally
  rcases x s with ⟨_ | _, s'⟩ <;> dsimp only <;> rcases f s' with ⟨_ | _, _⟩ <;> rfl

lemma wp_ofExcept {r : Except ε α} :
    wp (ofExcept r) Q E s ↔ (∀ a, r = .ok a → Q a s) ∧ (∀ e, r = .error e → E e s) := by
  cases r <;> simp [wp]

@[simp] lemma wp_ite {c : Prop} [Decidable c] {x y : Prog σ ε α} :
    wp (if c then x else y) Q E s ↔ (c → wp x Q E s) ∧ (¬ c → wp y Q E s) := by
  by_cases h : c <;> simp [h]

/-- The rule of consequence. -/
lemma wp_mono {x : Prog σ ε α} {Q' : α → σ → Prop} {E' : ε → σ → Prop} (h : wp x Q E s)
    (hQ : ∀ a s', Q a s' → Q' a s') (hE : ∀ e s', E e s' → E' e s') : wp x Q' E' s := by
  unfold wp at h ⊢
  rcases hx : x s with ⟨e | a, s'⟩ <;> rw [hx] at h
  · exact hE e s' h
  · exact hQ a s' h

lemma wp_of_ok {x : Prog σ ε α} {s' : σ} {a : α} (h : wp x Q E s) (hx : x s = (.ok a, s')) :
    Q a s' := by
  unfold wp at h
  rwa [hx] at h

lemma wp_of_error {x : Prog σ ε α} {s' : σ} {e : ε} (h : wp x Q E s)
    (hx : x s = (.error e, s')) : E e s' := by
  unfold wp at h
  rwa [hx] at h

lemma wp_iff {x : Prog σ ε α} :
    wp x Q E s ↔ (∀ a s', x s = (.ok a, s') → Q a s') ∧
      (∀ e s', x s = (.error e, s') → E e s') := by
  constructor
  · intro h
    exact ⟨fun a s' hx => wp_of_ok h hx, fun e s' hx => wp_of_error h hx⟩
  · rintro ⟨hQ, hE⟩
    unfold wp
    rcases hx : x s with ⟨e | a, s'⟩
    · exact hE e s' hx
    · exact hQ a s' hx

/-- What every exit leaves behind holds of the final state. -/
lemma wp_state {x : Prog σ ε α} {P : σ → Prop} (h : wp x Q E s) (hQ : ∀ a s', Q a s' → P s')
    (hE : ∀ e s', E e s' → P s') : P (x s).2 := by
  unfold wp at h
  rcases hx : x s with ⟨e | a, s'⟩ <;> rw [hx] at h
  · exact hE e s' h
  · exact hQ a s' h

lemma wp_zoom {τ : Type} {view : σ → τ} {set : τ → σ → σ} {x : Prog τ ε α} :
    wp (zoom view set x) Q E s ↔
      wp x (fun a t => Q a (set t s)) (fun e t => E e (set t s)) (view s) := by
  unfold wp zoom
  rcases x (view s) with ⟨_ | _, _⟩ <;> rfl

/-- What each step of a loop shows on its return, the loop shows of all of them. -/
lemma wp_forM {y : β → Prog σ ε PUnit} {P : β → Prop}
    (hy : ∀ b s, wp (y b) (fun _ _ => P b) (fun _ _ => True) s) (l : List β) (s : σ) :
    wp (l.forM y) (fun _ _ => ∀ b ∈ l, P b) (fun _ _ => True) s := by
  induction l generalizing s with
  | nil => exact nofun
  | cons b l ih =>
    refine wp_bind.2 (wp_mono (hy b s) (fun _ s' hb => ?_) fun _ _ h => h)
    exact wp_mono (ih s') (fun _ _ hl => List.forall_mem_cons.2 ⟨hb, hl⟩) fun _ _ h => h

/-! ### Frames -/

/-- The part `f` of the state is the same after `x` as before it, on every exit. -/
def Frame (f : σ → τ) (x : Prog σ ε α) : Prop := ∀ s, f (x s).2 = f s

namespace Frame

variable {f : σ → τ}

lemma pure (a : α) : Frame f (pure a : Prog σ ε α) := fun _ => rfl

lemma throw (e : ε) : Frame f (throw e : Prog σ ε α) := fun _ => rfl

lemma get : Frame f (get : Prog σ ε σ) := fun _ => rfl

lemma ofExcept (r : Except ε α) : Frame f (ofExcept r : Prog σ ε α) := fun _ => rfl

lemma modify {g : σ → σ} (h : ∀ s, f (g s) = f s) : Frame f (modify g : Prog σ ε Unit) := h

lemma bind {x : Prog σ ε α} {y : α → Prog σ ε β} (hx : Frame f x)
    (hy : ∀ a, Frame f (y a)) : Frame f (x >>= y) := by
  intro s
  have h := hx s
  rw [bind_run]
  rcases hs : x s with ⟨_ | a, s'⟩ <;> rw [hs] at h
  · exact h
  · exact (hy a s').trans h

lemma tryCatch {x : Prog σ ε α} {h : ε → Prog σ ε α} (hx : Frame f x)
    (hh : ∀ e, Frame f (h e)) : Frame f (tryCatch x h) := by
  intro s
  have h₀ := hx s
  rw [tryCatch_run]
  rcases hs : x s with ⟨e | _, s'⟩ <;> rw [hs] at h₀
  · exact (hh e s').trans h₀
  · exact h₀

lemma ite {c : Prop} [Decidable c] {x y : Prog σ ε α} (hx : Frame f x) (hy : Frame f y) :
    Frame f (if c then x else y) := by
  split
  · exact hx
  · exact hy

lemma forM {y : β → Prog σ ε PUnit} (hy : ∀ b, Frame f (y b)) :
    ∀ l : List β, Frame f (l.forM y)
  | [] => Frame.pure _
  | b :: l => Frame.bind (hy b) fun _ => forM hy l

/-- A frame as a condition that every exit satisfies. -/
lemma wp {x : Prog σ ε α} (h : Frame f x) (s : σ) :
    x.wp (fun _ s' => f s' = f s) (fun _ s' => f s' = f s) s :=
  wp_iff.2 ⟨fun a s' hx => by simpa [hx] using h s, fun e s' hx => by simpa [hx] using h s⟩

end Frame

/-! ### What a program may change -/

/-- Every exit of `x` leaves a state that `R` allows after the first one. -/
def Within (R : σ → σ → Prop) (x : Prog σ ε α) : Prop := ∀ s, R s (x s).2

namespace Within

variable {R : σ → σ → Prop} [Std.Refl R]

lemma pure (a : α) : Within R (pure a : Prog σ ε α) := fun s => refl_of R s

lemma throw (e : ε) : Within R (throw e : Prog σ ε α) := fun s => refl_of R s

lemma get : Within R (get : Prog σ ε σ) := fun s => refl_of R s

lemma ofExcept (r : Except ε α) : Within R (ofExcept r : Prog σ ε α) := fun s => refl_of R s

omit [Std.Refl R] in
lemma modify {g : σ → σ} (h : ∀ s, R s (g s)) : Within R (modify g : Prog σ ε Unit) := h

omit [Std.Refl R] in
lemma ite {c : Prop} [Decidable c] {x y : Prog σ ε α} (hx : Within R x) (hy : Within R y) :
    Within R (if c then x else y) := by
  split
  · exact hx
  · exact hy

omit [Std.Refl R] in
lemma mono {R' : σ → σ → Prop} {x : Prog σ ε α} (h : Within R x) (hR : ∀ s s', R s s' → R' s s') :
    Within R' x := fun s => hR _ _ (h s)

omit [Std.Refl R] in
/-- What every exit satisfies as a weakest precondition. -/
lemma wp {x : Prog σ ε α} (h : Within R x) (s : σ) :
    x.wp (fun _ s' => R s s') (fun _ s' => R s s') s :=
  wp_iff.2 ⟨fun a s' hx => by simpa [hx] using h s, fun e s' hx => by simpa [hx] using h s⟩

omit [Std.Refl R] in
lemma zoom {view : σ → τ} {set : τ → σ → σ} {R' : τ → τ → Prop} {x : Prog τ ε α}
    (h : Within R' x) (hR : ∀ s t, R' (view s) t → R s (set t s)) :
    Within R (zoom view set x) := fun s => hR _ _ (h (view s))

variable [IsTrans σ R]

omit [Std.Refl R] in
lemma bind {x : Prog σ ε α} {y : α → Prog σ ε β} (hx : Within R x)
    (hy : ∀ a, Within R (y a)) : Within R (x >>= y) := by
  intro s
  have h := hx s
  rw [bind_run]
  rcases hs : x s with ⟨_ | a, s'⟩ <;> rw [hs] at h
  · exact h
  · exact trans_of R h (hy a s')

lemma forM {y : β → Prog σ ε PUnit} (hy : ∀ b, Within R (y b)) :
    ∀ l : List β, Within R (l.forM y)
  | [] => Within.pure _
  | b :: l => Within.bind (hy b) fun _ => forM hy l

omit [Std.Refl R] in
lemma tryCatch {x : Prog σ ε α} {h : ε → Prog σ ε α} (hx : Within R x)
    (hh : ∀ e, Within R (h e)) : Within R (tryCatch x h) := by
  intro s
  have h₀ := hx s
  rw [tryCatch_run]
  rcases hs : x s with ⟨e | _, s'⟩ <;> rw [hs] at h₀
  · exact trans_of R h₀ (hh e s')
  · exact h₀

end Within

/-! ### What a return achieves -/

/-- Every exit of `x` leaves a state that `R` allows after the first one, and a return one
that `Q` allows. -/
def Achieves (Q R : σ → σ → Prop) (x : Prog σ ε α) : Prop :=
  ∀ s, x.wp (fun _ s' => Q s s') (fun _ s' => R s s') s

/-- What `Q` allows is not undone by what `R` allows before it or `K` after it. -/
structure Absorbs (Q R K : σ → σ → Prop) : Prop where
  weaken : ∀ s t, Q s t → R s t
  within : ∀ s t, K s t → R s t
  before : ∀ s t u, R s t → Q t u → Q s u
  after : ∀ s t u, Q s t → K t u → Q s u

/-- The same for a view of a larger state. -/
lemma Absorbs.comap {Q R K : τ → τ → Prop} (h : Absorbs Q R K) (view : σ → τ) :
    Absorbs (fun s t => Q (view s) (view t)) (fun s t => R (view s) (view t))
      (fun s t => K (view s) (view t)) where
  weaken _ _ := h.weaken _ _
  within _ _ := h.within _ _
  before _ _ _ := h.before _ _ _
  after _ _ _ := h.after _ _ _

namespace Achieves

variable {Q R K : σ → σ → Prop}

/-- What every return is shown to satisfy on its own. -/
lemma of_wp {x : Prog σ ε α} (h : ∀ s, x.wp (fun _ t => Q s t) (fun _ _ => True) s)
    (hR : Within R x) : Achieves Q R x := by
  intro s
  have hs := hR.wp s
  exact wp_iff.2 ⟨(wp_iff.1 (h s)).1, (wp_iff.1 hs).2⟩

lemma within {x : Prog σ ε α} (h : Achieves Q R x) (hQ : Absorbs Q R K) : Within R x := fun s =>
  wp_state (h s) (fun _ s' => hQ.weaken s s') fun _ _ hR => hR

lemma zoom {Q' R' : τ → τ → Prop} {view : σ → τ} {set : τ → σ → σ} {x : Prog τ ε α}
    (h : Achieves Q' R' x) (hQ : ∀ s t, Q' (view s) t → Q s (set t s))
    (hR : ∀ s t, R' (view s) t → R s (set t s)) : Achieves Q R (zoom view set x) := fun s =>
  wp_zoom.2 (wp_mono (h (view s)) (fun _ t => hQ s t) fun _ t => hR s t)

/-- What follows a program within `R`. -/
lemma bind [IsTrans σ R] {x : Prog σ ε α} {y : α → Prog σ ε β} (hQ : Absorbs Q R K)
    (hx : Within R x) (hy : ∀ a, Achieves Q R (y a)) : Achieves Q R (x >>= y) := by
  intro s
  refine wp_bind.2 (wp_mono (hx.wp s) (fun a t ht => ?_) fun _ _ h => h)
  exact wp_mono (hy a t) (fun _ u hu => hQ.before s t u ht hu) fun _ _ hu => trans_of R ht hu

/-- What a program within `K` follows. -/
lemma andThen [IsTrans σ R] {x : Prog σ ε α} {y : α → Prog σ ε β} (hQ : Absorbs Q R K)
    (hx : Achieves Q R x) (hy : ∀ a, Within K (y a)) : Achieves Q R (x >>= y) := by
  intro s
  refine wp_bind.2 (wp_mono (hx s) (fun a t ht => ?_) fun _ _ h => h)
  exact wp_mono ((hy a).wp t) (fun _ u hu => hQ.after s t u ht hu) fun _ u hu =>
    trans_of R (hQ.weaken s t ht) (hQ.within t u hu)

end Achieves

/-! ### Programs over the components of a state -/

section Components

variable {ι : Type} [DecidableEq ι]

/-- Run a program over one component of a family. -/
def component (i : ι) (x : Prog τ ε α) : Prog (ι → τ) ε α :=
  zoom (fun s => s i) (fun t s => Function.update s i t) x

lemma component_run (i : ι) (x : Prog τ ε α) (s : ι → τ) :
    component i x s = ((x (s i)).1, Function.update s i (x (s i)).2) := rfl

variable {x : ι → Prog τ ε PUnit} {l : List ι} {i : ι}

lemma forM_component_cons (s : ι → τ) :
    ((i :: l).forM fun i => component i (x i)) s = match (x i (s i)).1 with
      | .ok _ => (l.forM fun i => component i (x i)) (Function.update s i (x i (s i)).2)
      | .error e => (.error e, Function.update s i (x i (s i)).2) := by
  show (component i (x i) >>= fun _ => l.forM fun i => component i (x i)) s = _
  rw [bind_run, component_run]
  cases (x i (s i)).1 <;> rfl

/-- A component outside the list stays as it is. -/
lemma forM_component_of_notMem (hi : i ∉ l) (s : ι → τ) :
    ((l.forM fun i => component i (x i)) s).2 i = s i := by
  induction l generalizing s with
  | nil => rfl
  | cons j l ih =>
    obtain ⟨hij, hi⟩ := not_or.1 fun h => hi (List.mem_cons.2 h)
    have hkept : Function.update s j (x j (s j)).2 i = s i := Function.update_of_ne hij _ _
    rw [forM_component_cons]
    cases (x j (s j)).1 with
    | ok _ => exact (ih hi _).trans hkept
    | error e => exact hkept

/-- The list is run through when each of its components returns. -/
lemma forM_component_ok_iff (hl : l.Nodup) (s : ι → τ) :
    ((l.forM fun i => component i (x i)) s).1 = .ok () ↔ ∀ j ∈ l, (x j (s j)).1 = .ok () := by
  induction l generalizing s with
  | nil => exact iff_of_true rfl nofun
  | cons i l ih =>
    obtain ⟨hi, hl⟩ := List.nodup_cons.1 hl
    have hkept : ∀ j ∈ l, Function.update s i (x i (s i)).2 j = s j := fun j hj =>
      Function.update_of_ne (fun h : j = i => hi (h ▸ hj)) _ _
    rw [forM_component_cons, List.forall_mem_cons]
    cases hx : (x i (s i)).1 with
    | ok _ =>
      refine (ih hl _).trans ⟨fun h => ⟨rfl, fun j hj => ?_⟩, fun h j hj => ?_⟩
      · rw [← hkept j hj]
        exact h j hj
      · rw [hkept j hj]
        exact h.2 j hj
    | error e => exact iff_of_false nofun fun h => nomatch h.1

/-- A component is run once those before it have returned. -/
lemma forM_component_of_reached {pre post : List ι} (hl : (pre ++ i :: post).Nodup) (s : ι → τ)
    (h : ∀ j ∈ pre, (x j (s j)).1 = .ok ()) :
    (((pre ++ i :: post).forM fun i => component i (x i)) s).2 i = (x i (s i)).2 := by
  induction pre generalizing s with
  | nil =>
    have hi : i ∉ post := (List.nodup_cons.1 hl).1
    rw [List.nil_append, forM_component_cons]
    cases (x i (s i)).1 with
    | ok _ => exact (forM_component_of_notMem hi _).trans (Function.update_self ..)
    | error e => exact Function.update_self ..
  | cons j pre ih =>
    obtain ⟨hj, hl⟩ := List.nodup_cons.1 hl
    have hkept : ∀ k ∈ pre ++ i :: post, Function.update s j (x j (s j)).2 k = s k := fun k hk =>
      Function.update_of_ne (fun h : k = j => hj (h ▸ hk)) _ _
    have hi : i ∈ pre ++ i :: post := List.mem_append_right _ List.mem_cons_self
    rw [List.cons_append, forM_component_cons, h j List.mem_cons_self]
    refine (ih hl _ fun k hk => ?_).trans (by rw [hkept i hi])
    rw [hkept k (List.mem_append_left _ hk)]
    exact h k (List.mem_cons_of_mem _ hk)

/-- A component is left as it is when one before it has raised. -/
lemma forM_component_of_not_reached {pre post : List ι} (hl : (pre ++ i :: post).Nodup)
    (s : ι → τ) (h : ¬ ∀ j ∈ pre, (x j (s j)).1 = .ok ()) :
    (((pre ++ i :: post).forM fun i => component i (x i)) s).2 i = s i := by
  induction pre generalizing s with
  | nil => exact absurd nofun h
  | cons j pre ih =>
    obtain ⟨hj, hl⟩ := List.nodup_cons.1 hl
    have hkept : ∀ k ∈ pre ++ i :: post, Function.update s j (x j (s j)).2 k = s k := fun k hk =>
      Function.update_of_ne (fun h : k = j => hj (h ▸ hk)) _ _
    have hi : i ∈ pre ++ i :: post := List.mem_append_right _ List.mem_cons_self
    rw [List.cons_append, forM_component_cons]
    cases hx : (x j (s j)).1 with
    | ok _ =>
      refine (ih hl _ fun hpre => h ?_).trans (hkept i hi)
      refine List.forall_mem_cons.2 ⟨hx, fun k hk => ?_⟩
      rw [← hkept k (List.mem_append_left _ hk)]
      exact hpre k hk
    | error e => exact hkept i hi

end Components

end Prog
