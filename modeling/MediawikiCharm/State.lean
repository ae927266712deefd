/-
The charm configuration (`state.py`).
-/
import MediawikiCharm.Lib.JsonCanonical
import MediawikiCharm.Lib.JsonScan

namespace MediawikiCharm

open Json PyText

/-- The text that `json.dumps` makes. -/
def dumpsText {F : Type} [FiniteFloat F] (v : Json F) : String := String.ofList (dumps v)

/-- `json.loads` of a text, `none` where it raises `JSONDecodeError`. -/
def loadsText {F : Type} [FiniteFloat F] (s : String) : Option (Json F) := loads s.toList

/-- A dictionary that `json.loads` can return. -/
structure ComposerJson (F : Type) where
  members : List (PyStr × Json F)
  wellFormed : wellFormedMembers members = true

namespace ComposerJson

variable {F : Type}

/-- `{}` -/
def empty : ComposerJson F := ⟨[], rfl⟩

/-- The dictionary as a value. -/
def json (c : ComposerJson F) : Json F := .obj c.members

/-- `{**composer_json, key: value}` for two texts. -/
def set (c : ComposerJson F) (key value : PyStr) (hkey : noPair key = true)
    (hvalue : noPair value = true) : ComposerJson F where
  members := Json.insert key (.str value) c.members
  wellFormed := wellFormedMembers_insert hkey hvalue c.wellFormed

variable [FiniteFloat F]

lemma loadsText_dumpsText (c : ComposerJson F) : loadsText (dumpsText c.json) = some c.json := by
  rw [loadsText, dumpsText, String.toList_ofList]
  exact loads_dumps c.wellFormed

end ComposerJson

/-- The part of `CharmConfig` that the modelled functions read. -/
structure CharmConfig (F : Type) where
  composer : ComposerJson F := .empty
  localSettings : String := ""
  robotsTxt : String := ""
  urlOrigin : String := ""
  mediawikiDebugLog : Bool := false
  mediawikiDebugLogGroups : List String := []

namespace CharmConfig

variable {F : Type} [FiniteFloat F]

/-- `validate_composer`; the message is that of the `ValueError`, without the one of a
`JSONDecodeError` that follows it. -/
def validateComposer (v : String) : Except String (ComposerJson F) :=
  if v = "" then .ok .empty
  else
    match h : (loadsText v : Option (Json F)) with
    | none => .error "Composer configuration must be a JSON object: "
    | some (.obj ms) => .ok ⟨ms, wellFormed_of_loads h⟩
    | some _ => .error "Composer configuration must be a JSON object"

/-- `state_hash`, with the hash function as a parameter. -/
def stateHash (hash : String → String) (c : CharmConfig F) : String :=
  hash (String.ofList (canonical c.composer.json) ++ "\x00" ++ c.localSettings)

/-- The inputs that the fingerprint is made of are the same, up to the order of keys. -/
def SameInputs (c c' : CharmConfig F) : Prop :=
  SameUpToOrder c.composer.json c'.composer.json ∧ c.localSettings = c'.localSettings

/-- A text without NUL is found again in front of the first NUL. -/
lemma append_nul_inj {s t s' t' : List Char} (hs : '\x00' ∉ s) (hs' : '\x00' ∉ s')
    (h : s ++ '\x00' :: t = s' ++ '\x00' :: t') : s = s' ∧ t = t' := by
  induction s generalizing s' with
  | nil =>
    cases s' with
    | nil => exact ⟨rfl, (List.cons.inj h).2⟩
    | cons c s' => exact absurd (List.cons.inj h).1 fun hc => hs' (hc ▸ List.mem_cons_self)
  | cons c s ih =>
    cases s' with
    | nil => exact absurd (List.cons.inj h).1 fun hc => hs (hc ▸ List.mem_cons_self)
    | cons c' s' =>
      obtain ⟨rfl, hrest⟩ := List.cons.inj h
      obtain ⟨hs₁, ht⟩ := ih (fun hc => hs (List.mem_cons_of_mem _ hc))
        (fun hc => hs' (List.mem_cons_of_mem _ hc)) hrest
      exact ⟨congrArg (c :: ·) hs₁, ht⟩

lemma nul_not_mem_canonical (v : Json F) : '\x00' ∉ canonical v := by
  intro h
  have hprintable := (printable_canonical v _ h).1
  exact absurd hprintable (by decide)

/-- The fingerprint is made of a text that determines the inputs. -/
lemma fingerprintInput_eq_iff {c c' : CharmConfig F} :
    String.ofList (canonical c.composer.json) ++ "\x00" ++ c.localSettings =
      String.ofList (canonical c'.composer.json) ++ "\x00" ++ c'.localSettings ↔
        SameInputs c c' := by
  have hc : wellFormed c.composer.json = true := c.composer.wellFormed
  have hc' : wellFormed c'.composer.json = true := c'.composer.wellFormed
  rw [SameInputs, ← canonical_eq_iff hc hc']
  constructor
  · intro h
    have hlist := congrArg String.toList h
    simp only [String.toList_append, String.toList_ofList, List.append_assoc] at hlist
    obtain ⟨hcomposer, hsettings⟩ := append_nul_inj (nul_not_mem_canonical _)
      (nul_not_mem_canonical _) hlist
    exact ⟨hcomposer, String.toList_inj.1 hsettings⟩
  · rintro ⟨hcomposer, hsettings⟩
    rw [hcomposer, hsettings]

lemma stateHash_eq_iff {hash : String → String} (hinj : Function.Injective hash)
    {c c' : CharmConfig F} : c.stateHash hash = c'.stateHash hash ↔ SameInputs c c' := by
  rw [stateHash, stateHash, hinj.eq_iff, fingerprintInput_eq_iff]

end CharmConfig

end MediawikiCharm
