/-
  The autonomy policy (`policy_loader.py`).

  `loadPolicy` reads the decoded YAML document; a policy it accepts has levels 0 to 4 only (the type
  of a level says so) and at most one entry per function and action class (`Policy.unique`, a field,
  so that no other policy can be built).
-/
import CanvasOS.Lib.Python
import Mathlib.Data.List.Nodup

namespace CanvasOS.Gatekeeper

open Python

/-- An autonomy level, 0 to 4. -/
abbrev Level := Fin 5

instance Level.neZero : @NeZero Nat Zero.ofOfNat0 5 := ⟨Nat.succ_ne_zero 4⟩

/-- A row of the policy. -/
structure PolicyEntry where
  functionId : String
  actionClass : String
  level : Level
  description : Option String
deriving DecidableEq

/-- What an entry is looked up by. -/
def PolicyEntry.key (e : PolicyEntry) : String × String := (e.functionId, e.actionClass)

/-- A policy (`AutonomyPolicy`). -/
structure AutonomyPolicy where
  version : Int
  defaultLevel : Level
  entries : List PolicyEntry
  /-- no entry can shadow another -/
  unique : (entries.map PolicyEntry.key).Nodup

/-- `AutonomyPolicy.level_for`. -/
def AutonomyPolicy.levelFor (policy : AutonomyPolicy) (functionId actionClass : String) : Level :=
  match policy.entries.find? fun e => e.functionId == functionId && e.actionClass == actionClass with
  | some e => e.level
  | none => policy.defaultLevel

/-- A load error: the message `PolicyError` carries. -/
abbrev PolicyError := String

def fallbackDefaultLevel : Int := 0
def requiredEntryKeys : List String := ["function_id", "action_class", "level"]

/-- `_validate_level`; `repr` is Python's `repr` of the rejected value. -/
def validateLevel (repr : Json → String) (rawLevel : Json) (place : String) :
    Except PolicyError Level :=
  match rawLevel with
  | .int n =>
    if h : 0 ≤ n ∧ n ≤ 4 then .ok ⟨n.toNat, by omega⟩
    else .error (place ++ ": level must be between 0 and 4, got " ++ repr rawLevel)
  | _ => .error (place ++ ": level must be an integer 0-4, got " ++ repr rawLevel)

/-- `type(value).__name__`. -/
def typeName : Json → String
  | .null => "NoneType"
  | .bool _ => "bool"
  | .int _ => "int"
  | .float _ => "float"
  | .str _ => "str"
  | .arr _ => "list"
  | .obj _ => "dict"

/-- A non-empty string, or the complaint about it. -/
def nonEmptyString (place name : String) : Json → Except PolicyError String
  | .str s => if s = "" then .error (place ++ ": " ++ name ++ " must be a non-empty string") else .ok s
  | _ => .error (place ++ ": " ++ name ++ " must be a non-empty string")

/-- One entry of `entries`, before it is compared with the ones already seen. -/
def parseEntry (repr : Json → String) (place : String) (raw : Json) :
    Except PolicyError (List (String × Json) × PolicyEntry) :=
  match raw with
  | .obj kvs => do
    let missing := requiredEntryKeys.filter fun key => (Json.lookup kvs key).isNone
    if missing ≠ [] then
      .error (place ++ ": missing required key(s) " ++
        ", ".intercalate (missing.mergeSort (· ≤ ·)))
    else do
      let functionId ← nonEmptyString place "function_id" (Json.get kvs "function_id")
      let actionClass ← nonEmptyString place "action_class" (Json.get kvs "action_class")
      let level ← validateLevel repr (Json.get kvs "level") place
      pure (kvs, ⟨functionId, actionClass, level, none⟩)
  | _ => .error (place ++ ": must be a mapping, got " ++ typeName raw)

/-- The two checks that come after the duplicate check, and the description they leave. -/
def entryDescription (place : String) (kvs : List (String × Json)) :
    Except PolicyError (Option String) := do
  let description ← match Json.get kvs "description" with
    | .null => .ok none
    | .str s => .ok (some s)
    | _ => .error (place ++ ": description must be a string when present")
  let unknown := (kvs.map Prod.fst).filter fun key =>
    key ∉ requiredEntryKeys && key != "description"
  if unknown ≠ [] then
    .error (place ++ ": unknown key(s) " ++ ", ".intercalate (unknown.mergeSort (· ≤ ·)))
  else .ok description

/-- The entries accepted so far, newest last, no two with the same key. -/
abbrev Entries := { entries : List PolicyEntry // (entries.map PolicyEntry.key).Nodup }

/-- One more entry, whose key has not been seen. -/
def Entries.push (seen : Entries) (e : PolicyEntry) (h : e.key ∉ seen.1.map PolicyEntry.key) :
    Entries :=
  ⟨seen.1 ++ [e], by
    rw [List.map_append, List.nodup_append]
    refine ⟨seen.2, List.nodup_singleton _, fun a ha b hb => ?_⟩
    rintro rfl
    exact h (List.mem_singleton.1 hb ▸ ha)⟩

/-- The loop over `entries`, from entry `index` on. -/
def loadEntries (repr : Json → String) (path : String) :
    (index : Nat) → (raws : List Json) → (seen : Entries) → Except PolicyError Entries
  | _, [], seen => .ok seen
  | index, raw :: raws, seen => do
    let place := path ++ ": entries[" ++ toString index ++ "]"
    let (kvs, e) ← parseEntry repr place raw
    if h : e.key ∈ seen.1.map PolicyEntry.key then
      .error (place ++ ": duplicate entry for " ++ e.functionId ++ "/" ++ e.actionClass)
    else do
      let description ← entryDescription place kvs
      loadEntries repr path (index + 1) raws (seen.push { e with description := description } h)

/-- `load_policy`, from the decoded document on. -/
def loadPolicy (repr : Json → String) (path : String) (document : Json) :
    Except PolicyError AutonomyPolicy :=
  match document with
  | .obj doc =>
    match Json.lookup doc "version" with
    | none => .error (path ++ ": missing required top-level key 'version'")
    | some (.int version) => do
      let defaultLevel ← validateLevel repr
        ((Json.lookup doc "default_level").getD (.int fallbackDefaultLevel))
        (path ++ ": default_level")
      match Json.get doc "entries" with
      | .arr (raw :: raws) => do
        let entries ← loadEntries repr path 0 (raw :: raws) ⟨[], List.nodup_nil⟩
        pure ⟨version, defaultLevel, entries.1, entries.2⟩
      | _ => .error (path ++ ": 'entries' must be a non-empty list")
    | some v => .error (path ++ ": 'version' must be an integer, got " ++ repr v)
  | _ => .error (path ++ ": top level must be a mapping")

end CanvasOS.Gatekeeper
