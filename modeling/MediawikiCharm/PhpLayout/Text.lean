/-
Generated texts: code with values between single quotes.

An f-string puts escaped values between the pieces of its code.  A change of its lines changes the
pieces and the values one by one.  The tokens of the code stay, so the text has the tokens of its
code with the values that the change leaves in between.
-/
import MediawikiCharm.PhpLayout.Code

namespace MediawikiCharm
namespace PhpLayout

open PyText Lines Textwrap Php PhpStrings

/-- `'{utils.escape_php_string(value)}'` -/
def quoted (value : PyStr) : PyStr := ofChar '\'' :: (escapePhpString value ++ [ofChar '\''])

/-- An f-string: each value with the code in front of it, and the code behind the last one. -/
def render : List (PyStr × PyStr) → PyStr → PyStr
  | [], rest => rest
  | (code, value) :: parts, rest => code ++ (quoted value ++ render parts rest)

/-- Tokens of code, with values in between. -/
def fill : List (List Token × PyStr) → List Token → List Token
  | [], rest => rest
  | (code, value) :: parts, rest => code ++ .str value :: fill parts rest

/-- The tokens of the pieces of code. -/
def scanned (parts : List (PyStr × PyStr)) : List (List Token × PyStr) :=
  parts.map fun part => ((scan .code part.1).2, part.2)

/-- All pieces are code. -/
structure IsTemplate (b : LineBreaks) (parts : List (PyStr × PyStr)) (rest : PyStr) : Prop where
  parts : ∀ part ∈ parts, IsCode b part.1
  rest : IsCode b rest

variable {f : Layout} {b : LineBreaks} {a c s t rest value : PyStr}
  {parts more : List (PyStr × PyStr)}

/-! ### Putting texts together -/

lemma render_append : render (parts ++ more) rest = render parts (render more rest) := by
  induction parts with
  | nil => rfl
  | cons part parts ih => rw [List.cons_append, render, ih, render]

lemma render_rest : render parts (rest ++ t) = render parts rest ++ t := by
  induction parts with
  | nil => rfl
  | cons part parts ih =>
    rw [render, ih, render]
    simp only [List.append_assoc]

lemma append_render : a ++ render ((c, value) :: parts) rest =
    render ((a ++ c, value) :: parts) rest :=
  (List.append_assoc a c _).symm

namespace IsTemplate

lemma tail {part : PyStr × PyStr} (h : IsTemplate b (part :: parts) rest) :
    IsTemplate b parts rest :=
  ⟨fun p hp => h.parts p (List.mem_cons_of_mem _ hp), h.rest⟩

lemma append_code (ha : IsCode b a) (h : IsTemplate b ((c, value) :: parts) rest) :
    IsTemplate b ((a ++ c, value) :: parts) rest :=
  ⟨List.forall_mem_cons.2 ⟨ha.append (h.parts _ List.mem_cons_self), h.tail.parts⟩, h.rest⟩

lemma append_rest (h : IsTemplate b parts rest) (ht : IsCode b t) :
    IsTemplate b parts (rest ++ t) :=
  ⟨h.parts, h.rest.append ht⟩

end IsTemplate

/-! ### Tokens -/

lemma scan_quoted (s : PyStr) : scan .code (quoted value ++ s) =
    ((scan .code s).1, .str value :: (scan .code s).2) := by
  have hopen : step (.code, []) (ofChar '\'') = (.quoted [], []) := rfl
  have hclose : scan (.quoted value) (ofChar '\'' :: s) =
      ((scan .code s).1, .str value :: (scan .code s).2) := by
    rw [scan_cons]
    rfl
  rw [quoted, List.cons_append, scan_cons, hopen, List.append_assoc, List.singleton_append,
    scan_append, scan_escapePhpString, List.nil_append, hclose]
  rfl

lemma scan_render (h : IsTemplate b parts rest) :
    scan .code (render parts rest) = (.code, fill (scanned parts) (scan .code rest).2) := by
  induction parts with
  | nil => exact Prod.ext h.rest.ends rfl
  | cons part parts ih =>
    rw [render, scan_append, (h.parts part List.mem_cons_self).ends, scan_quoted, ih h.tail]
    rfl

/-- A text has the tokens of its code with the values in between. -/
theorem tokens_render (h : IsTemplate b parts rest) :
    tokens (render parts rest) = some (fill (scanned parts) (scan .code rest).2) :=
  tokens_eq_some_iff.2 (scan_render h)

/-- The values are determined by the tokens. -/
lemma fill_inj {ps qs : List (List Token × PyStr)} {ts : List Token}
    (hcode : ps.map Prod.fst = qs.map Prod.fst) : fill ps ts = fill qs ts ↔ ps = qs := by
  refine ⟨fun h => ?_, fun h => by rw [h]⟩
  induction ps generalizing qs with
  | nil => exact (List.map_eq_nil_iff.1 hcode.symm).symm
  | cons p ps ih =>
    cases qs with
    | nil => exact absurd hcode (List.cons_ne_nil _ _)
    | cons q qs =>
      obtain ⟨code, value⟩ := p
      obtain ⟨code', value'⟩ := q
      obtain ⟨rfl, hcodes⟩ := List.cons.inj hcode
      obtain ⟨hvalue, hrest⟩ := List.cons.inj (List.append_cancel_left h)
      rw [Token.str.inj hvalue, ih hcodes hrest]

lemma skeleton_fill (ps : List (List Token × PyStr)) (ts : List Token) : skeleton (fill ps ts) =
    ((ps.map Prod.fst).flatMap fun code => skeleton code ++ [none]) ++ skeleton ts := by
  induction ps with
  | nil => rfl
  | cons part ps ih =>
    obtain ⟨code, value⟩ := part
    rw [fill, skeleton_append, skeleton_str, ih, List.map_cons, List.flatMap_cons,
      List.append_assoc, List.append_assoc, List.singleton_append]

/-! ### Layout -/

/-- What becomes of a value and the code in front of it. -/
def relayPart (b : LineBreaks) (f : Layout) (part : PyStr × PyStr) : PyStr × PyStr :=
  (relay b f part.1, relay b f part.2)

/-- There are as many spaces in front of all lines but the first one as are taken. -/
def FitsAll (b : LineBreaks) (f : Layout) (text : PyStr) : Prop :=
  ∀ l ∈ tail b.isBreak text, f.Fits l

lemma fits_append_of_quote {a' l : PyStr} {d : PyChar} (h : s ++ [ofChar '\''] = a' ++ d :: l)
    (hd : b.isBreak d = true) (y : PyStr) : f.Fits (l ++ y) ↔ f.Fits l := by
  obtain ⟨l', rfl, -⟩ := exists_last_quote h hd
  exact fits_append_iff isBlank_append_quote

/-- The lines of a text are those of its pieces. -/
lemma fitsAll_render : FitsAll b f (render parts rest) ↔
    (∀ part ∈ parts, Fits b f part.1 ∧ Fits b f part.2) ∧ FitsAll b f rest := by
  induction parts with
  | nil => simp [render]
  | cons part parts ih =>
    have hsplit : render (part :: parts) rest = (part.1 ++ [ofChar '\'']) ++
        ((escapePhpString part.2 ++ [ofChar '\'']) ++ render parts rest) := by
      simp only [render, quoted, List.append_assoc, List.cons_append, List.nil_append]
    rw [hsplit, FitsAll,
      forall_tail_append fun a' d l h hd _ y => fits_append_of_quote h hd y,
      forall_tail_append fun a' d l h hd _ y => fits_append_of_quote h hd y,
      List.forall_mem_cons, and_assoc, and_assoc, ← ih, ← fits_escapePhpString_iff (s := part.2)]
    rfl

/-- The lines of a text are changed in its pieces. -/
lemma mapTail_render (h : FitsAll b f (render parts rest)) :
    mapTail b.isBreak f.line (render parts rest) =
      render (parts.map (relayPart b f)) (mapTail b.isBreak f.line rest) := by
  induction parts with
  | nil => rfl
  | cons part parts ih =>
    obtain ⟨hparts, hrest⟩ := fitsAll_render.1 h
    obtain ⟨⟨hcode, hvalue⟩, hparts⟩ := List.forall_mem_cons.1 hparts
    have hsplit : ∀ c v y : PyStr, c ++ (quoted v ++ y) =
        (c ++ [ofChar '\'']) ++ ((escapePhpString v ++ [ofChar '\'']) ++ y) := fun c v y => by
      simp only [quoted, List.append_assoc, List.cons_append, List.nil_append]
    rw [List.map_cons, render, render, hsplit, hsplit, mapTail_append (settles_quote hcode),
      mapTail_append (settles_quote (fits_escapePhpString_iff.2 hvalue)),
      mapTail_append_quote hcode, mapTail_append_quote (fits_escapePhpString_iff.2 hvalue),
      relay_escapePhpString hvalue, ih (fitsAll_render.2 ⟨hparts, hrest⟩)]
    rfl

namespace IsTemplate

/-- What becomes of the pieces of a text is the pieces of a text. -/
lemma layout (h : IsTemplate b parts rest) (hfits : FitsAll b f (render parts rest)) :
    IsTemplate b (parts.map (relayPart b f)) (mapTail b.isBreak f.line rest) := by
  obtain ⟨hparts, hrest⟩ := fitsAll_render.1 hfits
  exact ⟨List.forall_mem_map.2 fun part hpart =>
    ((h.parts part hpart).relay (hparts part hpart).1).2, (h.rest.mapTail hrest).2⟩

lemma scan_rest (h : IsTemplate b parts rest) (hfits : FitsAll b f (render parts rest)) :
    scan .code (mapTail b.isBreak f.line rest) = scan .code rest :=
  (h.rest.mapTail (fitsAll_render.1 hfits).2).1

/-- The tokens of the code stay. -/
lemma scanned_layout (h : IsTemplate b parts rest) (hfits : FitsAll b f (render parts rest)) :
    scanned (parts.map (relayPart b f)) = (scanned parts).map (Prod.map id (relay b f)) := by
  rw [scanned, scanned, List.map_map, List.map_map]
  refine List.map_congr_left fun part hpart => ?_
  have hscan := ((h.parts part hpart).relay ((fitsAll_render.1 hfits).1 part hpart).1).1
  exact Prod.ext (congrArg Prod.snd hscan) rfl

end IsTemplate

/-! ### Texts by their tokens -/

/-- The text is code with those tokens, and values in between. -/
def IsText (text : PyStr) (ps : List (List Token × PyStr)) (ts : List Token) : Prop :=
  ∃ parts rest, text = render parts rest ∧ IsTemplate newlines parts rest ∧ scanned parts = ps ∧
    (scan .code rest).2 = ts

namespace IsText

variable {text y : PyStr} {ps qs : List (List Token × PyStr)} {ts us : List Token}

lemma tokens_eq (h : IsText text ps ts) : tokens text = some (fill ps ts) := by
  obtain ⟨parts, rest, rfl, htemplate, rfl, rfl⟩ := h
  exact tokens_render htemplate

lemma of_isCode (h : IsCode newlines text) : IsText text [] (scan .code text).2 :=
  ⟨[], text, rfl, ⟨nofun, h⟩, rfl, rfl⟩

/-- Texts one behind the other. -/
lemma append {t : List Token} {v : PyStr} (h : IsText text ps ts)
    (hy : IsText y ((t, v) :: qs) us) : IsText (text ++ y) (ps ++ (ts ++ t, v) :: qs) us := by
  obtain ⟨parts, rest, rfl, htemplate, rfl, rfl⟩ := h
  obtain ⟨_ | ⟨⟨c, v'⟩, more⟩, rest', rfl, htemplate', hscanned, rfl⟩ := hy
  · exact absurd hscanned.symm (List.cons_ne_nil _ _)
  · obtain ⟨hhead, rfl⟩ := List.cons.inj hscanned
    obtain ⟨rfl, rfl⟩ := Prod.mk.inj hhead
    refine ⟨parts ++ (rest ++ c, v') :: more, rest', ?_, ?_, ?_, rfl⟩
    · rw [← render_rest, append_render, render_append]
    · obtain ⟨hhead, hmore⟩ := List.forall_mem_cons.1 htemplate'.parts
      exact ⟨List.forall_mem_append.2 ⟨htemplate.parts,
        List.forall_mem_cons.2 ⟨htemplate.rest.append hhead, hmore⟩⟩, htemplate'.rest⟩
    · have hscan : (scan .code (rest ++ c)).2 = (scan .code rest).2 ++ (scan .code c).2 := by
        rw [scan_append, htemplate.rest.ends]
      rw [scanned, List.map_append, List.map_cons, hscan]
      rfl

lemma append_code (h : IsText text ps ts) (hy : IsCode newlines y) :
    IsText (text ++ y) ps (ts ++ (scan .code y).2) := by
  obtain ⟨parts, rest, rfl, htemplate, rfl, rfl⟩ := h
  refine ⟨parts, rest ++ y, render_rest.symm, htemplate.append_rest hy, rfl, ?_⟩
  rw [scan_append, htemplate.rest.ends]

lemma append_parts {parts : List (PyStr × PyStr)} (h : IsText text ps [])
    (hparts : IsTemplate newlines parts []) :
    IsText (text ++ render parts []) (ps ++ scanned parts) [] := by
  cases parts with
  | nil =>
    have hnil : IsText (text ++ []) (ps ++ []) [] := by
      rwa [List.append_nil, List.append_nil]
    exact hnil
  | cons part parts => exact h.append ⟨_, _, rfl, hparts, rfl, rfl⟩

lemma isCode_of_cons_newline (h : IsCode newlines (ofChar '\n' :: s)) : IsCode newlines s := by
  have hscan : scan .code (ofChar '\n' :: s) = scan .code s := scan_cons_skipped rfl
  refine ⟨hscan ▸ h.ends, ?_, fun c hc => h.skipped c (List.mem_cons_of_mem _ hc)⟩
  have hbreaks := h.breaks
  rw [breaksInCode, Bool.and_eq_true] at hbreaks
  exact hbreaks.2

/-- A line break in front does not matter. -/
lemma of_cons_newline (h : IsText (ofChar '\n' :: text) ps ts) : IsText text ps ts := by
  obtain ⟨_ | ⟨⟨_ | ⟨c, code⟩, value⟩, parts⟩, rest, heq, htemplate, rfl, rfl⟩ := h
  · obtain rfl : ofChar '\n' :: text = rest := heq
    exact ⟨[], text, rfl, ⟨nofun, isCode_of_cons_newline htemplate.rest⟩, rfl,
      congrArg Prod.snd (scan_cons_skipped rfl).symm⟩
  · have hquote := (List.cons.inj heq).1
    exact absurd hquote (by decide)
  · obtain ⟨rfl, rfl⟩ := List.cons.inj heq
    obtain ⟨hcode, hparts⟩ := List.forall_mem_cons.1 htemplate.parts
    refine ⟨(code, value) :: parts, rest, rfl, ⟨List.forall_mem_cons.2
      ⟨isCode_of_cons_newline hcode, hparts⟩, htemplate.rest⟩, ?_, rfl⟩
    rw [scanned, scanned, List.map_cons, List.map_cons, scan_cons_skipped rfl]

/-- A text with other values has the same code. -/
lemma keepsCode (h : IsText text ps ts) (hcode : ps.map Prod.fst = qs.map Prod.fst) :
    KeepsCode text (fill qs ts) :=
  ⟨fill ps ts, tokens_eq_some_iff.1 h.tokens_eq, by rw [skeleton_fill, hcode, ← skeleton_fill]⟩

/-- A change of the lines changes the values only. -/
lemma layout (h : IsText text ps ts) (hfits : FitsAll newlines f text) :
    IsText (mapTail isNewline f.line text) (ps.map (Prod.map id (relay newlines f))) ts := by
  obtain ⟨parts, rest, rfl, htemplate, rfl, rfl⟩ := h
  exact ⟨_, _, mapTail_render hfits, htemplate.layout hfits, htemplate.scanned_layout hfits,
    congrArg Prod.snd (htemplate.scan_rest hfits)⟩

end IsText

end PhpLayout
end MediawikiCharm
