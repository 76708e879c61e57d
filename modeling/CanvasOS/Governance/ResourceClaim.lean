/-
  The function and content hash a gate token is bound to (`governance_lib/resource_claim.py`).

  A version-2 token carries both as top-level claims; a version-1 token packs both into one
  `resource` claim, a canonical JSON text.  Every violation is a ValueError, whose text nobody
  looks at; only a `resource` that is not a string makes `json.loads` raise a TypeError, which the
  callers do not catch.  The library functions called on what a request carries are the fields of
  the `Stdlib` the model is given.
-/
import CanvasOS.Lib.Python

namespace CanvasOS.Governance

open Python

/-- The standard-library functions the governance services call on callers' input. -/
structure Stdlib where
  /-- `json.loads`; `none` where it raises -/
  jsonLoads : String → Option Json
  /-- `json.dumps(…, sort_keys=True, separators=(",", ":"))` -/
  jsonDumps : Json → String
  /-- `str(uuid.UUID(str(value)))`; `none` where it raises -/
  uuid : Json → Option String
  /-- `base64.b64decode(…, validate=True)`; `none` where it raises -/
  b64decode : String → Option (List UInt8)
  /-- `hashlib.sha256(…).hexdigest()` -/
  sha256Hex : List UInt8 → String
  /-- `bytes.decode("utf-8")`; `none` where it raises -/
  decodeUtf8 : List UInt8 → Option String
  /-- `str(value)` of a value that is not a string -/
  repr : Json → String

/-- `str(value)`. -/
def Stdlib.str (py : Stdlib) : Json → String
  | .str s => s
  | j => py.repr j

/-- The exceptions of this file, told apart by who catches them. -/
inductive ClaimError where
  | valueError
  | typeError
deriving DecidableEq

/-- The pair a token is bound to. -/
structure Binding where
  contentHash : Json
  functionId : Json
deriving DecidableEq

/-- A decoded claim set. -/
abbrev Claims := List (String × Json)

/-- `canonicalize_resource_claim`. -/
def canonicalizeResourceClaim (py : Stdlib) (b : Binding) : String :=
  py.jsonDumps (.obj [("content_hash", b.contentHash), ("function_id", b.functionId)])

/-- `parse_resource_claim`: an object with exactly the two keys, serialised canonically. -/
def parseResourceClaim (py : Stdlib) (resource : String) : Except ClaimError Binding :=
  match py.jsonLoads resource with
  | some (.obj kvs) =>
    if kvs.all (fun kv => kv.1 == "content_hash" || kv.1 == "function_id") then
      match Json.lookup kvs "content_hash", Json.lookup kvs "function_id" with
      | some c, some f =>
        if py.jsonDumps (.obj kvs) == resource then .ok ⟨c, f⟩ else .error .valueError
      | _, _ => .error .valueError
    else .error .valueError
  | _ => .error .valueError

/-- `extract_function_id_and_content_hash`: version 2 first, a half-filled version 2 is refused,
    then version 1. -/
def extractFunctionIdAndContentHash (py : Stdlib) (claims : Claims) : Except ClaimError Binding :=
  match Json.lookup claims "function_id", Json.lookup claims "content_hash" with
  | some f, some c => .ok ⟨c, f⟩
  | some _, none => .error .valueError
  | none, some _ => .error .valueError
  | none, none =>
    match Json.lookup claims "resource" with
    | some (.str resource) => parseResourceClaim py resource
    | some _ => .error .typeError
    | none => .error .valueError

end CanvasOS.Governance
