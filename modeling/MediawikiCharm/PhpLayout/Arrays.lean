/-
Arrays on one line.

An array is written between brackets, with its entries separated by commas.  Only its values are
between quotes and escaped, so the pieces of the text give the tokens of the array.
-/
import MediawikiCharm.Lib.PhpArrays
import MediawikiCharm.PhpLayout.Entries

namespace MediawikiCharm
namespace PhpLayout

open PyText Lines Textwrap Php PhpStrings

/-- The pieces of an array. -/
def bracketPieces (xs : List (List Piece)) : List Piece :=
  .code (lit "[") :: ([.code (lit ", ")].intercalate xs ++ [.code (lit "]")])

/-- The key of an entry, and `=>` -/
def keyCode (key : PyStr) : PyStr := lit "'" ++ key ++ lit "' => "

/-- The pieces of an entry whose value is a string. -/
def pairPieces (pair : PyStr × PyStr) : List Piece := [.code (keyCode pair.1), .value pair.2]

/-- The pieces of an array of strings. -/
def recordPieces (pairs : List (PyStr × PyStr)) : List Piece :=
  bracketPieces (pairs.map pairPieces)

/-- The pieces of a list of such arrays. -/
def recordsPieces (records : List (List (PyStr × PyStr))) : List Piece :=
  bracketPieces (records.map recordPieces)

/-- The array of strings. -/
def stringRecord (pairs : List (PyStr × PyStr)) : Record :=
  pairs.map fun pair => (pair.1, .str pair.2)

/-- The key stands for itself between quotes, on one line. -/
structure IsKey (key : PyStr) : Prop where
  scan : scan .code (keyCode key) = (.code, .str key :: arrow)
  line : Free isNewline (keyCode key)

variable {b : LineBreaks} {g : PyStr → PyStr} {v : PyStr} {xs : List (List Piece)}
  {pairs : List (PyStr × PyStr)} {records : List (List (PyStr × PyStr))}

/-! ### Pieces -/

lemma entryText_bracketPieces (xs : List (List Piece)) : entryText (bracketPieces xs) =
    lit "[" ++ (lit ", ").intercalate (xs.map entryText) ++ lit "]" := by
  have hsep : entryText [.code (lit ", ")] = lit ", " := List.append_nil _
  have hxs := Split.hom_intercalate entryText (fun _ _ => List.flatMap_append) [.code (lit ", ")] xs
  rw [bracketPieces, entryText, List.flatMap_cons, List.flatMap_append, ← entryText, hxs, hsep,
    List.append_assoc]
  rfl

lemma map_bracketPieces (xs : List (List Piece)) : (bracketPieces xs).map (Piece.map g) =
    bracketPieces (xs.map (List.map (Piece.map g))) := by
  rw [bracketPieces, List.map_cons, List.map_append,
    Split.hom_intercalate (List.map (Piece.map g)) fun _ _ => List.map_append]
  rfl

lemma map_recordPieces (pairs : List (PyStr × PyStr)) : (recordPieces pairs).map (Piece.map g) =
    recordPieces (pairs.map (Prod.map id g)) := by
  rw [recordPieces, map_bracketPieces, List.map_map, recordPieces, List.map_map]
  rfl

lemma map_recordsPieces (records : List (List (PyStr × PyStr))) :
    (recordsPieces records).map (Piece.map g) =
      recordsPieces (records.map (List.map (Prod.map id g))) := by
  rw [recordsPieces, map_bracketPieces, List.map_map, recordsPieces, List.map_map]
  congr 1
  exact List.map_congr_left fun pairs _ => map_recordPieces pairs

lemma mem_bracketPieces : .value v ∈ bracketPieces xs ↔ ∃ x ∈ xs, .value v ∈ x := by
  have hsep : Piece.value v ∉ [Piece.code (lit ", ")] := by simp
  rw [bracketPieces, List.mem_cons, List.mem_append, mem_intercalate hsep]
  simp

lemma mem_recordPieces : .value v ∈ recordPieces pairs ↔ ∃ pair ∈ pairs, pair.2 = v := by
  rw [recordPieces, mem_bracketPieces]
  simp only [List.mem_map, exists_exists_and_eq_and]
  refine exists_congr fun pair => and_congr_right fun _ => ?_
  simp [pairPieces, eq_comm]

/-- The values of the arrays. -/
lemma mem_recordsPieces :
    .value v ∈ recordsPieces records ↔ ∃ pairs ∈ records, ∃ pair ∈ pairs, pair.2 = v := by
  rw [recordsPieces, mem_bracketPieces]
  simp only [List.mem_map, exists_exists_and_eq_and, mem_recordPieces]

/-! ### One line -/

lemma isLine_bracketPieces (h : ∀ x ∈ xs, ∀ piece ∈ x, Piece.IsLine newlines piece) :
    ∀ piece ∈ bracketPieces xs, piece.IsLine newlines := by
  have hopen : (Piece.code (lit "[")).IsLine newlines := by decide
  have hsep : (Piece.code (lit ", ")).IsLine newlines := by decide
  have hclose : (Piece.code (lit "]")).IsLine newlines := by decide
  refine List.forall_mem_cons.2 ⟨hopen, List.forall_mem_append.2
    ⟨fun piece hpiece => ?_, List.forall_mem_singleton.2 hclose⟩⟩
  by_cases hmem : piece ∈ [Piece.code (lit ", ")]
  · rw [List.mem_singleton.1 hmem]
    exact hsep
  · obtain ⟨x, hx, hpiece⟩ := (mem_intercalate hmem).1 hpiece
    exact h x hx piece hpiece

lemma isLine_recordPieces (h : ∀ pair ∈ pairs, IsKey pair.1) :
    ∀ piece ∈ recordPieces pairs, piece.IsLine newlines := by
  refine isLine_bracketPieces (List.forall_mem_map.2 fun pair hpair => ?_)
  have hkey := h pair hpair
  exact List.forall_mem_cons.2 ⟨⟨hkey.line, congrArg Prod.fst hkey.scan⟩,
    List.forall_mem_singleton.2 trivial⟩

/-- The arrays stand on one line. -/
lemma isLine_recordsPieces (h : ∀ pairs ∈ records, ∀ pair ∈ pairs, IsKey pair.1) :
    ∀ piece ∈ recordsPieces records, piece.IsLine newlines :=
  isLine_bracketPieces
    (List.forall_mem_map.2 fun pairs hpairs => isLine_recordPieces (h pairs hpairs))

/-! ### Tokens -/

/-- The tokens of an array are those of its entries, between the tokens of the brackets. -/
lemma entryTokens_bracketPieces {α : Type} {p : α → List Token} {pieces : α → List Piece}
    {xs : List α} (h : ∀ x ∈ xs, entryTokens (pieces x) = p x) :
    entryTokens (bracketPieces (xs.map pieces)) = inBrackets p xs := by
  have hopen : (scan .code (lit "[")).2 = [.char (ofChar '[')] := by decide
  have hsep : (scan .code (lit ", ")).2 = [.char (ofChar ',')] := by decide
  have hclose : (scan .code (lit "]")).2 = [.char (ofChar ']')] := by decide
  have hrest : ∀ (x : α) (xs : List α), (∀ y ∈ x :: xs, entryTokens (pieces y) = p y) →
      entryTokens ([.code (lit ", ")].intercalate ((x :: xs).map pieces) ++ [.code (lit "]")]) =
        p x ++ restTokens p xs := by
    intro x xs hxs
    induction xs generalizing x with
    | nil =>
      rw [List.map_singleton, List.intercalate_singleton, entryTokens, List.flatMap_append,
        ← entryTokens, hxs x List.mem_cons_self, restTokens]
      exact congrArg (p x ++ ·) ((List.append_nil _).trans hclose)
    | cons y xs ih =>
      obtain ⟨hx, hxs⟩ := List.forall_mem_cons.1 hxs
      rw [List.map_cons, List.map_cons, List.intercalate_cons_cons, List.append_assoc,
        List.append_assoc, entryTokens, List.flatMap_append, List.flatMap_append, ← entryTokens, hx,
        ← entryTokens, ← entryTokens, ← List.map_cons, ih y hxs, restTokens]
      exact congrArg (fun ts => p x ++ (ts ++ (p y ++ restTokens p xs)))
        ((List.append_nil _).trans hsep)
  rw [bracketPieces, entryTokens, List.flatMap_cons, ← entryTokens]
  cases xs with
  | nil =>
    rw [List.map_nil, List.intercalate_nil, List.nil_append]
    exact congrArg₂ (· ++ ·) hopen ((List.append_nil _).trans hclose)
  | cons x xs =>
    rw [hrest x xs h]
    exact congrArg (· ++ (p x ++ restTokens p xs)) hopen

lemma entryTokens_recordPieces (h : ∀ pair ∈ pairs, IsKey pair.1) :
    entryTokens (recordPieces pairs) = recordTokens (stringRecord pairs) := by
  have hpair : ∀ pair ∈ pairs, entryTokens (pairPieces pair) =
      pairTokens (pair.1, .str pair.2) := fun pair hpair => by
    have hkey := congrArg Prod.snd (h pair hpair).scan
    exact congrArg (· ++ [Token.str pair.2]) hkey
  rw [recordPieces, entryTokens_bracketPieces hpair, recordTokens, stringRecord, inBrackets_map]

/-- The pieces of the arrays have the tokens of the arrays. -/
lemma entryTokens_recordsPieces (h : ∀ pairs ∈ records, ∀ pair ∈ pairs, IsKey pair.1) :
    entryTokens (recordsPieces records) = recordsTokens (records.map stringRecord) := by
  rw [recordsPieces, entryTokens_bracketPieces fun pairs hpairs =>
    entryTokens_recordPieces (h pairs hpairs), recordsTokens, inBrackets_map]

/-! ### Texts -/

lemma entryText_pairPieces (pair : PyStr × PyStr) :
    entryText (pairPieces pair) = keyCode pair.1 ++ quoted pair.2 :=
  congrArg (keyCode pair.1 ++ ·) (List.append_nil _)

lemma entryText_recordPieces (pairs : List (PyStr × PyStr)) : entryText (recordPieces pairs) =
    lit "[" ++ (lit ", ").intercalate (pairs.map fun pair => keyCode pair.1 ++ quoted pair.2) ++
      lit "]" := by
  rw [recordPieces, entryText_bracketPieces, List.map_map]
  exact congrArg (fun texts => lit "[" ++ (lit ", ").intercalate texts ++ lit "]")
    (List.map_congr_left fun pair _ => entryText_pairPieces pair)

end PhpLayout
end MediawikiCharm
