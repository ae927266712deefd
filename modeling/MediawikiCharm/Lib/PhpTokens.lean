/-
Tokens of PHP code with literals between single quotes.

A literal is one token, which has its value.  Outside of literals every character is a token of
its own, but for the white space, which PHP skips.  Code that ends in a literal has no tokens.
-/
import MediawikiCharm.Lib.PyText

namespace Php

open PyText

/-- A literal, or a character of the code. -/
inductive Token
  | char (c : PyChar)
  | str (value : PyStr)
deriving DecidableEq

/-- Where the scanner stands: in the code, in a literal, or behind a backslash in a literal. -/
inductive Mode
  | code
  | quoted (value : PyStr)
  | escaped (value : PyStr)
deriving DecidableEq

/-- The white space of PHP. -/
def isSkipped (c : PyChar) : Bool :=
  c = ofChar ' ' || c = ofChar '\n' || c = ofChar '\t' || c = ofChar '\r'

/-- Scan a character.  A backslash is an escape in front of a backslash and a quote only. -/
def step (r : Mode × List Token) (c : PyChar) : Mode × List Token :=
  match r.1 with
  | .code =>
    if c = ofChar '\'' then (.quoted [], r.2)
    else if isSkipped c then (.code, r.2)
    else (.code, r.2 ++ [.char c])
  | .quoted value =>
    if c = ofChar '\'' then (.code, r.2 ++ [.str value])
    else if c = ofChar '\\' then (.escaped value, r.2)
    else (.quoted (value ++ [c]), r.2)
  | .escaped value =>
    if c = ofChar '\'' ∨ c = ofChar '\\' then (.quoted (value ++ [c]), r.2)
    else (.quoted (value ++ [ofChar '\\', c]), r.2)

/-- Scan a text, from a mode on. -/
def scan (mode : Mode) (s : PyStr) : Mode × List Token := s.foldl step (mode, [])

/-- The tokens of a text. -/
def tokens (s : PyStr) : Option (List Token) :=
  match scan .code s with
  | (.code, ts) => some ts
  | _ => none

/-- The tokens of code without literals. -/
def codeTokens (s : PyStr) : List Token := (s.filter fun c => !isSkipped c).map .char

/-! ### Scanning piece by piece -/

lemma step_append (mode : Mode) (ts us : List Token) (c : PyChar) :
    step (mode, ts ++ us) c = ((step (mode, us) c).1, ts ++ (step (mode, us) c).2) := by
  cases mode with
  | code =>
    simp only [step]
    split_ifs
    · rfl
    · rfl
    · rw [List.append_assoc]
  | quoted value =>
    simp only [step]
    split_ifs
    · rw [List.append_assoc]
    · rfl
    · rfl
  | escaped value =>
    simp only [step]
    split_ifs
    · rfl
    · rfl

lemma foldl_step (mode : Mode) (ts us : List Token) (s : PyStr) :
    s.foldl step (mode, ts ++ us) =
      ((s.foldl step (mode, us)).1, ts ++ (s.foldl step (mode, us)).2) := by
  induction s generalizing mode us with
  | nil => rfl
  | cons c s ih =>
    rw [List.foldl_cons, List.foldl_cons, step_append, ih]

lemma scan_append (mode : Mode) (a b : PyStr) : scan mode (a ++ b) =
    ((scan (scan mode a).1 b).1, (scan mode a).2 ++ (scan (scan mode a).1 b).2) := by
  unfold scan
  rw [List.foldl_append]
  have hfold := foldl_step (a.foldl step (mode, [])).1 (a.foldl step (mode, [])).2 [] b
  rwa [List.append_nil] at hfold

lemma scan_cons (mode : Mode) (c : PyChar) (s : PyStr) : scan mode (c :: s) =
    ((scan (step (mode, []) c).1 s).1,
      (step (mode, []) c).2 ++ (scan (step (mode, []) c).1 s).2) :=
  scan_append mode [c] s

/-- White space is skipped in the code. -/
lemma scan_skipped {s : PyStr} (h : ∀ c ∈ s, isSkipped c = true) : scan .code s = (.code, []) := by
  induction s with
  | nil => rfl
  | cons c s ih =>
    obtain ⟨hc, hs⟩ := List.forall_mem_cons.1 h
    have hquote : c ≠ ofChar '\'' := by
      rintro rfl
      exact absurd hc (by decide)
    have hstep : step (.code, []) c = (.code, []) := by
      rw [step]
      dsimp only
      rw [if_neg hquote, if_pos hc]
    rw [scan_cons, hstep, ih hs]
    rfl

lemma scan_skipped_append {a b : PyStr} (h : ∀ c ∈ a, isSkipped c = true) :
    scan .code (a ++ b) = scan .code b := by
  rw [scan_append, scan_skipped h]
  rfl

/-- Code without quotes has no literals. -/
lemma scan_unquoted {s : PyStr} (h : ofChar '\'' ∉ s) : scan .code s = (.code, codeTokens s) := by
  induction s with
  | nil => rfl
  | cons c s ih =>
    have hquote : c ≠ ofChar '\'' := fun heq => h (List.mem_cons.2 (.inl heq.symm))
    rw [scan_cons, step, if_neg hquote, codeTokens, List.filter_cons]
    cases hskip : isSkipped c with
    | true =>
      rw [if_pos rfl, ih (fun hs => h (List.mem_cons_of_mem _ hs))]
      rfl
    | false =>
      rw [if_neg Bool.false_ne_true, ih (fun hs => h (List.mem_cons_of_mem _ hs))]
      rfl

/-- A text whose scan returns to the code has the tokens of the scan. -/
lemma tokens_eq_some_iff {s : PyStr} {ts : List Token} :
    tokens s = some ts ↔ scan .code s = (.code, ts) := by
  unfold tokens
  rcases scan .code s with ⟨_ | _ | _, us⟩
  · simp
  · simp
  · simp

/-! ### One literal -/

/-- The text up to the quote that closes a literal, without its escapes, and what stands behind
the quote. -/
def readSingle : PyStr → Option (PyStr × PyStr)
  | [] => none
  | c :: s =>
    if c = ofChar '\'' then some ([], s)
    else if c = ofChar '\\' then
      match s with
      | [] => none
      | d :: t =>
        if d = ofChar '\'' ∨ d = ofChar '\\' then (readSingle t).map (Prod.map (d :: ·) id)
        else (readSingle (d :: t)).map (Prod.map (c :: ·) id)
    else (readSingle s).map (Prod.map (c :: ·) id)

/-- The literal between single quotes with which a text begins, and what stands behind it. -/
def readLiteral : PyStr → Option (PyStr × PyStr)
  | [] => none
  | c :: s => if c = ofChar '\'' then readSingle s else none

variable {s t value rest : PyStr} {c d : PyChar}

lemma readSingle_quote (s : PyStr) : readSingle (ofChar '\'' :: s) = some ([], s) := by
  rw [readSingle.eq_def]
  exact if_pos rfl

/-- The two escapes stand for the escaped symbol. -/
lemma readSingle_escape (hd : d = ofChar '\'' ∨ d = ofChar '\\') (s : PyStr) :
    readSingle (ofChar '\\' :: d :: s) = (readSingle s).map (Prod.map (d :: ·) id) := by
  rw [readSingle.eq_def]
  exact (if_neg (by decide)).trans ((if_pos rfl).trans (if_pos hd))

/-- A backslash in front of another symbol stands for itself. -/
lemma readSingle_backslash (hd : ¬ (d = ofChar '\'' ∨ d = ofChar '\\')) (s : PyStr) :
    readSingle (ofChar '\\' :: d :: s) =
      (readSingle (d :: s)).map (Prod.map (ofChar '\\' :: ·) id) := by
  rw [readSingle.eq_def]
  exact (if_neg (by decide)).trans ((if_pos rfl).trans (if_neg hd))

lemma readSingle_cons (hquote : c ≠ ofChar '\'') (hslash : c ≠ ofChar '\\') (s : PyStr) :
    readSingle (c :: s) = (readSingle s).map (Prod.map (c :: ·) id) := by
  rw [readSingle.eq_def]
  exact (if_neg hquote).trans (if_neg hslash)

/-- What stands behind a literal does not change it. -/
lemma readSingle_append (h : readSingle s = some (value, rest)) (t : PyStr) :
    readSingle (s ++ t) = some (value, rest ++ t) := by
  induction s using readSingle.induct generalizing value with
  | case1 => exact absurd h nofun
  | case2 s =>
    rw [readSingle_quote] at h
    obtain ⟨rfl, rfl⟩ := Prod.mk.inj (Option.some.inj h)
    exact readSingle_quote _
  | case3 => exact absurd h nofun
  | case4 d s hd _ ih =>
    rw [readSingle_escape hd] at h
    obtain ⟨⟨value', rest'⟩, hread, heq⟩ := Option.map_eq_some_iff.1 h
    obtain ⟨rfl, rfl⟩ := Prod.mk.inj heq
    rw [List.cons_append, List.cons_append, readSingle_escape hd, ih hread]
    rfl
  | case5 d s hd _ ih =>
    rw [readSingle_backslash hd] at h
    obtain ⟨⟨value', rest'⟩, hread, heq⟩ := Option.map_eq_some_iff.1 h
    obtain ⟨rfl, rfl⟩ := Prod.mk.inj heq
    rw [List.cons_append, List.cons_append, readSingle_backslash hd, ← List.cons_append, ih hread]
    rfl
  | case6 c s hquote hslash ih =>
    rw [readSingle_cons hquote hslash] at h
    obtain ⟨⟨value', rest'⟩, hread, heq⟩ := Option.map_eq_some_iff.1 h
    obtain ⟨rfl, rfl⟩ := Prod.mk.inj heq
    rw [List.cons_append, readSingle_cons hquote hslash, ih hread]
    rfl

/-- A literal that is read is the token that is scanned. -/
lemma scan_of_readSingle (h : readSingle s = some (value, rest)) (t : PyStr) :
    scan (.quoted t) s = ((scan .code rest).1, .str (t ++ value) :: (scan .code rest).2) := by
  induction s using readSingle.induct generalizing value t with
  | case1 => exact absurd h nofun
  | case2 s =>
    rw [readSingle_quote] at h
    obtain ⟨rfl, rfl⟩ := Prod.mk.inj (Option.some.inj h)
    rw [scan_cons, List.append_nil]
    rfl
  | case3 => exact absurd h nofun
  | case4 d s hd _ ih =>
    rw [readSingle_escape hd] at h
    obtain ⟨⟨value', rest'⟩, hread, heq⟩ := Option.map_eq_some_iff.1 h
    obtain ⟨rfl, rfl⟩ := Prod.mk.inj heq
    have hslash : step (.quoted t, []) (ofChar '\\') = (.escaped t, []) := rfl
    have hsymbol : step (.escaped t, []) d = (.quoted (t ++ [d]), []) := if_pos hd
    rw [scan_cons, hslash, scan_cons, hsymbol, ih hread, List.append_assoc]
    rfl
  | case5 d s hd _ ih =>
    rw [readSingle_backslash hd] at h
    obtain ⟨⟨value', rest'⟩, hread, heq⟩ := Option.map_eq_some_iff.1 h
    obtain ⟨rfl, rfl⟩ := Prod.mk.inj heq
    -- the scanner takes the symbol with the backslash, the reader by itself
    have hslash : step (.quoted t, []) (ofChar '\\') = (.escaped t, []) := rfl
    have hsymbol : step (.escaped t, []) d = (.quoted (t ++ [ofChar '\\', d]), []) := if_neg hd
    have hplain : step (.quoted (t ++ [ofChar '\\']), []) d =
        (.quoted (t ++ [ofChar '\\'] ++ [d]), []) :=
      (if_neg fun h => hd (.inl h)).trans (if_neg fun h => hd (.inr h))
    have hscan := ih hread (t ++ [ofChar '\\'])
    rw [scan_cons, hplain, List.append_assoc] at hscan
    rw [scan_cons, hslash, scan_cons, hsymbol]
    rw [List.append_assoc] at hscan
    exact hscan
  | case6 c s hquote hslash ih =>
    rw [readSingle_cons hquote hslash] at h
    obtain ⟨⟨value', rest'⟩, hread, heq⟩ := Option.map_eq_some_iff.1 h
    obtain ⟨rfl, rfl⟩ := Prod.mk.inj heq
    have hplain : step (.quoted t, []) c = (.quoted (t ++ [c]), []) :=
      (if_neg hquote).trans (if_neg hslash)
    rw [scan_cons, hplain, ih hread, List.append_assoc]
    rfl

/-- A scan that comes back to the code has read a literal. -/
lemma readSingle_of_scan {t : PyStr} (h : (scan (.quoted t) s).1 = .code) :
    ∃ value rest, readSingle s = some (value, rest) := by
  induction s using readSingle.induct generalizing t with
  | case1 =>
    have hmode : Mode.quoted t = .code := h
    exact absurd hmode (fun heq => Mode.noConfusion heq)
  | case2 s => exact ⟨[], s, readSingle_quote s⟩
  | case3 =>
    have hmode : Mode.escaped t = .code := h
    exact absurd hmode (fun heq => Mode.noConfusion heq)
  | case4 d s hd _ ih =>
    have hslash : step (.quoted t, []) (ofChar '\\') = (.escaped t, []) := rfl
    have hsymbol : step (.escaped t, []) d = (.quoted (t ++ [d]), []) := if_pos hd
    rw [scan_cons, hslash, scan_cons, hsymbol] at h
    obtain ⟨value, rest, hread⟩ := ih h
    exact ⟨d :: value, rest, by rw [readSingle_escape hd, hread]; rfl⟩
  | case5 d s hd _ ih =>
    have hslash : step (.quoted t, []) (ofChar '\\') = (.escaped t, []) := rfl
    have hsymbol : step (.escaped t, []) d = (.quoted (t ++ [ofChar '\\', d]), []) := if_neg hd
    have hplain : step (.quoted (t ++ [ofChar '\\']), []) d =
        (.quoted (t ++ [ofChar '\\'] ++ [d]), []) :=
      (if_neg fun h => hd (.inl h)).trans (if_neg fun h => hd (.inr h))
    rw [scan_cons, hslash, scan_cons, hsymbol] at h
    have hscan : (scan (.quoted (t ++ [ofChar '\\'])) (d :: s)).1 = .code := by
      rw [scan_cons, hplain, List.append_assoc]
      exact h
    obtain ⟨value, rest, hread⟩ := ih hscan
    exact ⟨ofChar '\\' :: value, rest, by rw [readSingle_backslash hd, hread]; rfl⟩
  | case6 c s hquote hslash ih =>
    have hplain : step (.quoted t, []) c = (.quoted (t ++ [c]), []) :=
      (if_neg hquote).trans (if_neg hslash)
    rw [scan_cons, hplain] at h
    obtain ⟨value, rest, hread⟩ := ih h
    exact ⟨c :: value, rest, by rw [readSingle_cons hquote hslash, hread]; rfl⟩

/-! ### Text that is not escaped -/

lemma length_of_readSingle (h : readSingle s = some (value, rest)) :
    value.length + rest.length < s.length := by
  induction s using readSingle.induct generalizing value with
  | case1 => cases h
  | case2 s =>
    rw [readSingle_quote] at h
    obtain ⟨rfl, rfl⟩ := Prod.mk.inj (Option.some.inj h)
    simp
  | case3 => cases h
  | case4 d s hd _ ih =>
    rw [readSingle_escape hd] at h
    obtain ⟨⟨value', rest'⟩, hread, heq⟩ := Option.map_eq_some_iff.1 h
    obtain ⟨rfl, rfl⟩ := Prod.mk.inj heq
    have hlength := ih hread
    simp only [id_eq, List.length_cons] at hlength ⊢
    omega
  | case5 d s hd _ ih =>
    rw [readSingle_backslash hd] at h
    obtain ⟨⟨value', rest'⟩, hread, heq⟩ := Option.map_eq_some_iff.1 h
    obtain ⟨rfl, rfl⟩ := Prod.mk.inj heq
    have hlength := ih hread
    simp only [id_eq, List.length_cons] at hlength ⊢
    omega
  | case6 c s hquote hslash ih =>
    rw [readSingle_cons hquote hslash] at h
    obtain ⟨⟨value', rest'⟩, hread, heq⟩ := Option.map_eq_some_iff.1 h
    obtain ⟨rfl, rfl⟩ := Prod.mk.inj heq
    have hlength := ih hread
    simp only [id_eq, List.length_cons] at hlength ⊢
    omega

/-- Where the literal ends that begins with a text in front of a quote: in the text, at the quote,
or behind it, if the text ends in a backslash that escapes the quote. -/
lemma readSingle_in_front_of_quote (h : readSingle (s ++ ofChar '\'' :: t) = some (value, rest)) :
    (∃ rest', readSingle s = some (value, rest')) ∨
      (readSingle (s ++ [ofChar '\'']) = some (value, []) ∧ rest = t) ∨
      (s.getLast? = some (ofChar '\\') ∧
        ∃ u behind, readSingle t = some (behind, rest) ∧ value = u ++ ofChar '\'' :: behind) := by
  have hlast : ∀ {d : PyChar} {s : PyStr}, s.getLast? = some (ofChar '\\') →
      (d :: s).getLast? = some (ofChar '\\') := by
    intro d s hs
    rw [List.getLast?_cons, hs]
    rfl
  induction s using readSingle.induct generalizing value with
  | case1 =>
    rw [List.nil_append, readSingle_quote] at h
    obtain ⟨rfl, rfl⟩ := Prod.mk.inj (Option.some.inj h)
    exact .inr (.inl ⟨readSingle_quote [], rfl⟩)
  | case2 s =>
    rw [List.cons_append, readSingle_quote] at h
    obtain ⟨rfl, -⟩ := Prod.mk.inj (Option.some.inj h)
    exact .inl ⟨s, readSingle_quote s⟩
  | case3 =>
    rw [List.singleton_append, readSingle_escape (.inl rfl)] at h
    obtain ⟨⟨behind, rest'⟩, hread, heq⟩ := Option.map_eq_some_iff.1 h
    obtain ⟨rfl, rfl⟩ := Prod.mk.inj heq
    exact .inr (.inr ⟨rfl, [], behind, hread, rfl⟩)
  | case4 d s hd _ ih =>
    rw [List.cons_append, List.cons_append, readSingle_escape hd] at h
    obtain ⟨⟨value', rest'⟩, hread, heq⟩ := Option.map_eq_some_iff.1 h
    obtain ⟨rfl, rfl⟩ := Prod.mk.inj heq
    rcases ih hread with ⟨rest₁, hin⟩ | ⟨hat, rfl⟩ | ⟨hs, u, behind, hbehind, rfl⟩
    · exact .inl ⟨rest₁, by rw [readSingle_escape hd, hin]; rfl⟩
    · refine .inr (.inl ⟨?_, rfl⟩)
      rw [List.cons_append, List.cons_append, readSingle_escape hd, hat]
      rfl
    · exact .inr (.inr ⟨hlast (hlast hs), d :: u, behind, hbehind, rfl⟩)
  | case5 d s hd _ ih =>
    rw [List.cons_append, List.cons_append, readSingle_backslash hd] at h
    obtain ⟨⟨value', rest'⟩, hread, heq⟩ := Option.map_eq_some_iff.1 h
    obtain ⟨rfl, rfl⟩ := Prod.mk.inj heq
    rcases ih hread with ⟨rest₁, hin⟩ | ⟨hat, rfl⟩ | ⟨hs, u, behind, hbehind, rfl⟩
    · exact .inl ⟨rest₁, by rw [readSingle_backslash hd, hin]; rfl⟩
    · refine .inr (.inl ⟨?_, rfl⟩)
      rw [List.cons_append, List.cons_append, readSingle_backslash hd, ← List.cons_append, hat]
      rfl
    · exact .inr (.inr ⟨hlast hs, ofChar '\\' :: u, behind, hbehind, rfl⟩)
  | case6 c s hquote hslash ih =>
    rw [List.cons_append, readSingle_cons hquote hslash] at h
    obtain ⟨⟨value', rest'⟩, hread, heq⟩ := Option.map_eq_some_iff.1 h
    obtain ⟨rfl, rfl⟩ := Prod.mk.inj heq
    rcases ih hread with ⟨rest₁, hin⟩ | ⟨hat, rfl⟩ | ⟨hs, u, behind, hbehind, rfl⟩
    · exact .inl ⟨rest₁, by rw [readSingle_cons hquote hslash, hin]; rfl⟩
    · refine .inr (.inl ⟨?_, rfl⟩)
      rw [List.cons_append, readSingle_cons hquote hslash, hat]
      rfl
    · exact .inr (.inr ⟨hlast hs, c :: u, behind, hbehind, rfl⟩)

/-- Between quotes the text is read as it is: it has no quote, and no backslash in front of
another one or at its end. -/
def IsRaw (s : PyStr) : Prop :=
  ofChar '\'' ∉ s ∧ ¬ [ofChar '\\', ofChar '\\'] <:+: s ∧ s.getLast? ≠ some (ofChar '\\')

lemma isRaw_nil : IsRaw [] := by
  refine ⟨List.not_mem_nil, fun h => ?_, Option.some_ne_none _ |>.symm⟩
  exact absurd h.length_le (by decide)

lemma isRaw_cons_iff : IsRaw (c :: s) ↔
    c ≠ ofChar '\'' ∧ (c = ofChar '\\' → s ≠ [] ∧ s.head? ≠ some (ofChar '\\')) ∧ IsRaw s := by
  unfold IsRaw
  rw [List.mem_cons, List.infix_cons_iff, List.cons_prefix_cons]
  cases s with
  | nil =>
    have hempty : IsRaw [] := isRaw_nil
    constructor
    · rintro ⟨hquote, -, hslash⟩
      exact ⟨fun h => hquote (.inl h.symm), fun h => absurd (congrArg some h) hslash, hempty⟩
    · rintro ⟨hquote, hslash, -⟩
      refine ⟨fun h => ?_, fun h => ?_, fun h => (hslash (Option.some.inj h)).1 rfl⟩
      · exact h.elim (fun heq => hquote heq.symm) List.not_mem_nil
      · rcases h with ⟨rfl, -⟩ | h
        · exact (hslash rfl).1 rfl
        · exact hempty.2.1 h
  | cons d s =>
    have hlast : (c :: d :: s).getLast? = (d :: s).getLast? := by rw [List.getLast?_cons_cons]
    have hprefix : [ofChar '\\'] <+: d :: s ↔ d = ofChar '\\' := by
      rw [List.cons_prefix_cons, eq_comm]
      exact and_iff_left List.nil_prefix
    rw [hlast, hprefix, List.head?_cons, ne_eq (some d), Option.some_inj]
    constructor
    · rintro ⟨hquote, hslashes, hend⟩
      push Not at hquote hslashes
      exact ⟨hquote.1.symm, fun hc => ⟨List.cons_ne_nil _ _, hslashes.1 hc.symm⟩, hquote.2,
        hslashes.2, hend⟩
    · rintro ⟨hquote, hslash, hquotes, hslashes, hend⟩
      refine ⟨not_or.2 ⟨hquote.symm, hquotes⟩, not_or.2 ⟨?_, hslashes⟩, hend⟩
      rintro ⟨rfl, hd⟩
      exact (hslash rfl).2 hd

/-- The texts that are read as they are between quotes. -/
lemma readSingle_eq_self_iff : readSingle (s ++ [ofChar '\'']) = some (s, []) ↔ IsRaw s := by
  have hmap : ∀ {c : PyChar} {s t : PyStr},
      (readSingle t).map (Prod.map (c :: ·) id) = some (c :: s, []) ↔
        readSingle t = some (s, []) := by
    intro c s t
    constructor
    · intro h
      obtain ⟨⟨value', rest'⟩, hread, heq⟩ := Option.map_eq_some_iff.1 h
      obtain ⟨hvalue, rfl⟩ := Prod.mk.inj heq
      rw [hread, (List.cons.inj hvalue).2]
    · intro h
      rw [h]
      rfl
  induction s using readSingle.induct with
  | case1 => exact iff_of_true (readSingle_quote []) isRaw_nil
  | case2 s =>
    refine iff_of_false (fun h => ?_) fun h => h.1 List.mem_cons_self
    rw [List.cons_append, readSingle_quote] at h
    exact absurd (Prod.mk.inj (Option.some.inj h)).1 (List.cons_ne_nil _ _).symm
  | case3 =>
    refine iff_of_false (fun h => ?_) fun h => h.2.2 rfl
    rw [List.singleton_append, readSingle_escape (.inl rfl)] at h
    cases h
  | case4 d s hd _ ih =>
    refine iff_of_false (fun h => ?_) fun h => ?_
    · -- an escape makes the text shorter
      rw [List.cons_append, List.cons_append, readSingle_escape hd] at h
      obtain ⟨⟨value', rest'⟩, hread, heq⟩ := Option.map_eq_some_iff.1 h
      have hvalue : value' = d :: s := (List.cons.inj (Prod.mk.inj heq).1).2
      have hlength := length_of_readSingle hread
      rw [hvalue, List.length_append, List.length_cons, List.length_singleton] at hlength
      omega
    · obtain ⟨-, hslash, hrest⟩ := isRaw_cons_iff.1 h
      rcases hd with rfl | rfl
      · exact (isRaw_cons_iff.1 hrest).1 rfl
      · exact (hslash rfl).2 rfl
  | case5 d s hd _ ih =>
    have hne : d ≠ ofChar '\\' := fun h => hd (.inr h)
    rw [List.cons_append, List.cons_append, readSingle_backslash hd, hmap, ← List.cons_append]
    refine Iff.trans ih ⟨fun h =>
        isRaw_cons_iff.2 ⟨by decide, fun _ => ⟨List.cons_ne_nil _ _, ?_⟩, h⟩,
      fun h => (isRaw_cons_iff.1 h).2.2⟩
    exact fun h => hne (Option.some.inj h)
  | case6 c s hquote hslash ih =>
    rw [List.cons_append, readSingle_cons hquote hslash, hmap]
    exact Iff.trans ih ⟨fun h => isRaw_cons_iff.2 ⟨hquote, fun hc => absurd hc hslash, h⟩,
      fun h => (isRaw_cons_iff.1 h).2.2⟩

/-! ### Code without its values -/

/-- The code of tokens: a hole stands for the value of a literal. -/
def skeleton (ts : List Token) : List (Option PyChar) :=
  ts.map fun
    | .char c => some c
    | .str _ => none

@[simp] lemma skeleton_nil : skeleton [] = [] := rfl

@[simp] lemma skeleton_append (ts us : List Token) :
    skeleton (ts ++ us) = skeleton ts ++ skeleton us := List.map_append

@[simp] lemma skeleton_str (v : PyStr) (ts : List Token) :
    skeleton (.str v :: ts) = none :: skeleton ts := rfl

lemma length_skeleton (ts : List Token) : (skeleton ts).length = ts.length := List.length_map ..

/-- A text has these tokens, up to the values of its literals. -/
def KeepsCode (text : PyStr) (ts : List Token) : Prop :=
  ∃ us, scan .code text = (.code, us) ∧ skeleton us = skeleton ts

lemma keepsCode_of_scan {text : PyStr} {ts : List Token} (h : scan .code text = (.code, ts)) :
    KeepsCode text ts := ⟨ts, h, rfl⟩

lemma keepsCode_nil : KeepsCode [] [] := keepsCode_of_scan rfl

lemma KeepsCode.append {a b : PyStr} {ts us : List Token} (ha : KeepsCode a ts)
    (hb : KeepsCode b us) : KeepsCode (a ++ b) (ts ++ us) := by
  obtain ⟨ts', ha, hts⟩ := ha
  obtain ⟨us', hb, hus⟩ := hb
  exact ⟨ts' ++ us', by rw [scan_append, ha, hb], by rw [skeleton_append, hts, hus, skeleton_append]⟩

/-- Of two texts one behind the other, each is read with its own values or not. -/
lemma KeepsCode.tokens_append_iff {a b : PyStr} {ts us : List Token} (ha : KeepsCode a ts)
    (hb : KeepsCode b us) :
    tokens (a ++ b) = some (ts ++ us) ↔ tokens a = some ts ∧ tokens b = some us := by
  obtain ⟨ts', ha, hts⟩ := ha
  obtain ⟨us', hb, hus⟩ := hb
  have hab : scan .code (a ++ b) = (.code, ts' ++ us') := by rw [scan_append, ha, hb]
  have hlength : ts'.length = ts.length := by
    rw [← length_skeleton ts', hts, length_skeleton]
  rw [tokens_eq_some_iff, tokens_eq_some_iff, tokens_eq_some_iff, hab, ha, hb]
  simp only [Prod.mk.injEq, true_and]
  constructor
  · intro h
    exact List.append_inj h hlength
  · rintro ⟨rfl, rfl⟩
    rfl

lemma keepsCode_flatMap {parts : List (PyStr × List Token)}
    (h : ∀ part ∈ parts, KeepsCode part.1 part.2) :
    KeepsCode (parts.flatMap Prod.fst) (parts.flatMap Prod.snd) := by
  induction parts with
  | nil => exact keepsCode_nil
  | cons part parts ih =>
    obtain ⟨hpart, hparts⟩ := List.forall_mem_cons.1 h
    exact hpart.append (ih hparts)

lemma keepsCode_iff_of_scan {text : PyStr} {us ts : List Token} (h : scan .code text = (.code, us)) :
    KeepsCode text ts ↔ skeleton us = skeleton ts := by
  constructor
  · rintro ⟨us', h', hskeleton⟩
    obtain rfl : us = us' := (Prod.mk.inj (h.symm.trans h')).2
    exact hskeleton
  · exact fun hskeleton => ⟨us, h, hskeleton⟩

lemma scan_flatMap {α : Type} {text : α → PyStr} {ts : α → List Token} {l : List α}
    (h : ∀ a ∈ l, scan .code (text a) = (.code, ts a)) :
    scan .code (l.flatMap text) = (.code, l.flatMap ts) := by
  induction l with
  | nil => rfl
  | cons a l ih =>
    obtain ⟨ha, hl⟩ := List.forall_mem_cons.1 h
    rw [List.flatMap_cons, List.flatMap_cons, scan_append, ha, ih hl]

/-- Texts with code between them. -/
lemma scan_intercalate {α : Type} {text : α → PyStr} {ts : α → List Token} {sep : PyStr}
    (hsep : (scan .code sep).1 = .code) {l : List α}
    (h : ∀ a ∈ l, scan .code (text a) = (.code, ts a)) :
    scan .code (sep.intercalate (l.map text)) =
      (.code, (scan .code sep).2.intercalate (l.map ts)) := by
  induction l with
  | nil => rfl
  | cons a l ih =>
    obtain ⟨ha, hl⟩ := List.forall_mem_cons.1 h
    cases l with
    | nil => simpa using ha
    | cons a' l =>
      have hrest := ih hl
      simp only [List.map_cons] at hrest ⊢
      rw [List.intercalate_cons_cons, List.intercalate_cons_cons, scan_append, scan_append, ha,
        hsep, hrest, List.append_assoc]

/-- A text made of parts is read with its values exactly if each part is. -/
lemma tokens_flatMap_iff {parts : List (PyStr × List Token)}
    (h : ∀ part ∈ parts, KeepsCode part.1 part.2) :
    tokens (parts.flatMap Prod.fst) = some (parts.flatMap Prod.snd) ↔
      ∀ part ∈ parts, tokens part.1 = some part.2 := by
  induction parts with
  | nil => exact iff_of_true rfl fun part hpart => absurd hpart List.not_mem_nil
  | cons part parts ih =>
    obtain ⟨hpart, hparts⟩ := List.forall_mem_cons.1 h
    rw [List.flatMap_cons, List.flatMap_cons, hpart.tokens_append_iff (keepsCode_flatMap hparts),
      ih hparts, List.forall_mem_cons]

end Php
