/-
  The deterministic checks a draft passes beside the models' reviews.

  1. `brand_rules.py` — `hasUsSpelling`, `hasUnsupportedClaim` and `reconcileViolations`, which drops
     the two codes that a model asserted and the text contradicts.
  2. `permission_check.py` — the register of clients, and the names of it that a text may not use.

  A draft is a string.  The searches run on its characters (`Lib.Text`), with Python's character
  tables as a parameter.
-/
import Mathlib.Data.List.Sort
import CanvasOS.Lib.Text
import CanvasOS.Orchestrator.Handlers

namespace CanvasOS.Review

open Python

/-! ## `brand_rules.py` -/

/-- `SA_SPELLING_VIOLATION`. -/
def saSpellingViolation : String := "sa-english-spelling"

/-- `UNSUPPORTED_CLAIM_VIOLATION`. -/
def unsupportedClaimViolation : String := "unsupported-claim"

/-- `US_SPELLINGS`. -/
def usSpellings : List String :=
  ["productize", "productized", "productizing", "productization", "behavior", "behaviors",
    "behavioral", "organization", "organizations", "optimize", "optimized", "optimizing",
    "optimization", "analyze", "analyzed", "analyzing", "center", "centers", "color", "colors"]

/-- `UNSUPPORTED_CLAIM_TERMS`. -/
def unsupportedClaimTerms : List String :=
  ["leading", "world-class", "best-in-class", "the only", "unmatched", "unrivalled",
    "industry-leading", "market-leading"]

/-- `ARTEFACT_TERMS`. -/
def artefactTerms : List String :=
  ["case study", "reference", "report pack", "audit", "architecture", "deck"]

/-- `has_us_spelling`. -/
def hasUsSpelling (U : Unicode) (draftText : String) : List String :=
  usSpellings.filter fun term => containsWord U id term.toList (U.lower draftText.toList)

/-- The superlatives of one sentence that no number and no named artefact anchors. -/
def unanchoredTerms (U : Unicode) (sentence : List Char) : List String :=
  let lowered := U.lower sentence
  let anchored := sentence.any U.digit || artefactTerms.any fun a => contains a.toList lowered
  unsupportedClaimTerms.filter fun term => contains term.toList lowered && !anchored

/-- `has_unsupported_claim`. -/
def hasUnsupportedClaim (U : Unicode) (draftText : String) : List String :=
  (sentences draftText.toList).flatMap (unanchoredTerms U)

/-- `code` leaves the violations, once, unless the text bears it out. -/
def dropContradicted (code : String) (found : List String) (x : List Json × List Json) :
    List Json × List Json :=
  if .str code ∈ x.1 ∧ found = [] then (x.1.erase (.str code), x.2 ++ [.str code]) else x

/-- `reconcile_violations`: what is left, and what was dropped. -/
def reconcileViolations (U : Unicode) (violations : List Json) (draftText : String) :
    List Json × List Json :=
  dropContradicted unsupportedClaimViolation (hasUnsupportedClaim U draftText)
    (dropContradicted saSpellingViolation (hasUsSpelling U draftText) (violations, []))

/-! ## `permission_check.py` -/

/-- An entry of `clients` in `docs/permission-register.yaml`. -/
structure ClientEntry where
  name : String
  aliases : List String
  status : String
deriving DecidableEq

/-- `_load_register()`: the entries by lower-cased name or alias. -/
abbrev Register := List (String × ClientEntry)

/-- `name.strip()`. -/
def stripped (name : String) : String := String.ofList (strip name.toList)

/-- `name.lower()`. -/
def lowered (U : Unicode) (name : String) : String := String.ofList (U.lower name.toList)

/-- `index[key] = entry`. -/
def Register.set (index : Register) (key : String) (entry : ClientEntry) : Register :=
  if index.any fun kv => kv.1 == key then
    index.map fun kv => if kv.1 == key then (key, entry) else kv
  else index ++ [(key, entry)]

/-- `index.setdefault(key, entry)`. -/
def Register.setDefault (index : Register) (key : String) (entry : ClientEntry) : Register :=
  if index.any fun kv => kv.1 == key then index else index ++ [(key, entry)]

/-- `index.get(key)`. -/
def Register.find (index : Register) (key : String) : Option ClientEntry :=
  (List.find? (fun kv => kv.1 == key) index).map Prod.snd

/-- One entry joins the index under its name and under its aliases. -/
def Register.add (U : Unicode) (index : Register) (entry : ClientEntry) : Register :=
  let name := stripped entry.name
  if name = "" then index
  else entry.aliases.foldl (fun index a =>
      if stripped a = "" then index else index.setDefault (lowered U (stripped a)) entry)
    (index.set (lowered U name) entry)

/-- `_load_register`. -/
def loadRegister (U : Unicode) (clients : List ClientEntry) : Register :=
  clients.foldl (Register.add U) []

/-- `check_clearance(name).allowed`: only an entry that is CLEARED permits naming. -/
def clearanceAllowed (U : Unicode) (index : Register) (name : String) : Bool :=
  match index.find (lowered U (stripped name)) with
  | some entry => stripped name != "" && stripped entry.status == "CLEARED"
  | none => false

/-- `find_uncleared_references`: the declared names that may not be used. -/
def findUnclearedReferences (U : Unicode) (index : Register) (names : List String) : List String :=
  (names.map stripped).filter fun name => !clearanceAllowed U index name

/-- `registered_names`: longest first. -/
def registeredNames (index : Register) : List String :=
  (index.map Prod.fst).insertionSort fun a b => b.length ≤ a.length

/-- The names among `names` that the text carries and that may not be used.  An entry is reported
    once, by its canonical name; `seen` are the entries reported so far. -/
def unclearedAmong (U : Unicode) (index : Register) (text : String) :
    (names seen : List String) → List String
  | [], _ => []
  | name :: rest, seen =>
    let canonical := ((index.find name).map (·.name)).getD name
    if containsWord U U.fold name.toList text.toList && lowered U canonical ∉ seen &&
        !clearanceAllowed U index canonical then
      stripped canonical :: unclearedAmong U index text rest (lowered U canonical :: seen)
    else unclearedAmong U index text rest seen

/-- `find_uncleared_in_text`. -/
def findUnclearedInText (U : Unicode) (index : Register) (text : String) : List String :=
  unclearedAmong U index text (registeredNames index) []

end CanvasOS.Review
