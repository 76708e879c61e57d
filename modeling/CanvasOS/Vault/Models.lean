/-
  The nine object types of Vault (`vault/models.py`), as data.

  1. `FieldSpec`, `ObjectTypeConfig`, `objectTypes` — the registry that drives the generic routes.
  2. `SqlValue`, `castForAsyncpg` — a decoded JSON value as the value of a column.
  3. `references` — the foreign keys of the schema files.
-/
import CanvasOS.Lib.Format

namespace CanvasOS.Vault

open Python

/-- A decoded JSON object: a payload. -/
abbrev Payload := List (String × Json)

/-- A `uuid`, as a number of 128 bits. -/
abbrev Uuid := Nat

/-! ## Failures -/

inductive SqlError where
  | foreignKeyViolation
  | other
deriving DecidableEq

inductive Failure where
  /-- `HTTPException` -/
  | http (status : Nat) (message code : String) (field : Option String)
  /-- an error of the database -/
  | sql (e : SqlError)
  /-- `asyncio.CancelledError`, which is no `Exception` -/
  | cancelled
  /-- any other exception -/
  | raised
deriving DecidableEq

/-- `_error` -/
def httpError (status : Nat) (message code : String) (field : Option String) : Failure :=
  .http status message code field

/-! ## Columns -/

inductive SqlType where
  | text
  | jsonb
  | uuid
  | numeric
  | integer
  | timestamptz
  | enum
deriving DecidableEq

/-- The value of a column; times are in microseconds. -/
inductive SqlValue where
  | null
  | uuid (u : Uuid)
  | timestamptz (t : Int)
  | json (v : Json)
deriving DecidableEq

/-- What Python's standard library makes of texts, and the address of a blob. -/
structure Runtime where
  /-- `uuid.UUID(text)` -/
  uuid : String → Option Uuid
  /-- `str(u)` -/
  strUuid : Uuid → String
  /-- `datetime.fromisoformat(text)` -/
  fromisoformat : String → Option Int
  /-- `base64.b64decode(value, validate=True)` -/
  b64decode : Json → Option (List UInt8)
  /-- `hashlib.sha256(data).hexdigest()` -/
  sha256Hex : List UInt8 → String
  /-- `storage_uri_for(digest)` -/
  storageUriFor : String → String

/-- `cast_for_asyncpg` -/
def castForAsyncpg (P : Runtime) (sqlType : SqlType) (value : Json) : Except Failure SqlValue :=
  if value = .null then .ok .null
  else
    match sqlType with
    | .uuid =>
      match P.uuid (pyStr value) with
      | some u => .ok (.uuid u)
      | none => .error .raised
    | .timestamptz =>
      match P.fromisoformat (pyStr value) with
      | some t => .ok (.timestamptz t)
      | none => .error .raised
    | .text | .jsonb | .numeric | .integer | .enum => .ok (.json value)

/-! ## Object types -/

structure FieldSpec where
  name : String
  sqlType : SqlType
  required : Bool
  default : Json
  patchable : Bool

/-- `FieldSpec(name, sql_type, required=…, patchable=…)` -/
def field (name : String) (sqlType : SqlType) (required patchable : Bool) : FieldSpec :=
  ⟨name, sqlType, required, .null, patchable⟩

/-- A field with a default. -/
def fieldOr (name : String) (sqlType : SqlType) (default : Json) (patchable : Bool) : FieldSpec :=
  ⟨name, sqlType, false, default, patchable⟩

structure ObjectTypeConfig where
  name : String
  hasCampaignColumn : Bool
  allowPatch : Bool
  allowDelete : Bool
  fields : List FieldSpec

def signals : ObjectTypeConfig where
  name := "signals"
  hasCampaignColumn := false
  allowPatch := true
  allowDelete := true
  fields := [
    field "source" .text true true,
    field "signal_type" .text true true,
    fieldOr "payload" .jsonb (.obj []) true]

def campaigns : ObjectTypeConfig where
  name := "campaigns"
  hasCampaignColumn := false
  allowPatch := true
  allowDelete := true
  fields := [
    field "name" .text true true,
    fieldOr "status" .text (.str "draft") true,
    field "starts_at" .timestamptz false true,
    field "ends_at" .timestamptz false true]

def opportunityCards : ObjectTypeConfig where
  name := "opportunity_cards"
  hasCampaignColumn := true
  allowPatch := true
  allowDelete := true
  fields := [
    field "signal_id" .uuid false false,
    field "title" .text true true,
    field "score" .numeric false true,
    fieldOr "status" .text (.str "new") true,
    field "pillar" .text false true,
    field "so_what" .text false true,
    field "source_url" .text false true,
    field "confidence" .text false true]

def briefs : ObjectTypeConfig where
  name := "briefs"
  hasCampaignColumn := true
  allowPatch := true
  allowDelete := true
  fields := [
    field "opportunity_card_id" .uuid false false,
    field "title" .text true true,
    field "body" .text false true]

def agentRuns : ObjectTypeConfig where
  name := "agent_runs"
  hasCampaignColumn := true
  allowPatch := true
  allowDelete := true
  fields := [
    field "agent_name" .text true false,
    fieldOr "status" .enum (.str "pending") true,
    fieldOr "input" .jsonb (.obj []) false,
    fieldOr "output" .jsonb (.obj []) true,
    field "completed_at" .timestamptz false true]

def assets : ObjectTypeConfig where
  name := "assets"
  hasCampaignColumn := true
  allowPatch := true
  allowDelete := true
  fields := [
    field "brief_id" .uuid false false,
    field "asset_type" .text true false,
    field "agent_run_id" .uuid true false,
    field "predecessor_asset_id" .uuid false false,
    fieldOr "version" .integer (.int 1) false,
    fieldOr "approval_state" .enum (.str "draft") true]

def gateDecisions : ObjectTypeConfig where
  name := "gate_decisions"
  hasCampaignColumn := false
  allowPatch := false
  allowDelete := false
  fields := [
    field "agent_run_id" .uuid true false,
    field "decided_by" .text true false,
    field "outcome" .enum true false,
    field "reason" .text false false]

def costs : ObjectTypeConfig where
  name := "costs"
  hasCampaignColumn := false
  allowPatch := false
  allowDelete := false
  fields := [
    field "agent_run_id" .uuid true false,
    field "provider" .text true false,
    fieldOr "unit" .text (.str "usd") false,
    field "amount" .numeric true false]

def consentRegister : ObjectTypeConfig where
  name := "consent_register"
  hasCampaignColumn := false
  allowPatch := true
  allowDelete := false
  fields := [
    field "data_subject_ref" .text true false,
    field "lawful_basis" .text true false,
    field "channel" .text true false,
    field "purpose" .text true false,
    field "revoked_at" .timestamptz false true]

/-- `OBJECT_TYPES` -/
def objectTypes : List ObjectTypeConfig :=
  [signals, campaigns, opportunityCards, briefs, agentRuns, assets, gateDecisions, costs,
    consentRegister]

/-- `object_table in OBJECT_TYPES` -/
def knownTable (name : String) : Bool := objectTypes.any fun config => config.name == name

/-! ## Foreign keys -/

/-- The columns of a table that refer to another table. -/
def references : String → List (String × String)
  | "opportunity_cards" => [("signal_id", "signals"), ("campaign_id", "campaigns")]
  | "briefs" => [("opportunity_card_id", "opportunity_cards"), ("campaign_id", "campaigns")]
  | "agent_runs" => [("campaign_id", "campaigns")]
  | "assets" => [("brief_id", "briefs"), ("campaign_id", "campaigns"),
      ("agent_run_id", "agent_runs"), ("predecessor_asset_id", "assets")]
  | "gate_decisions" => [("agent_run_id", "agent_runs")]
  | "costs" => [("agent_run_id", "agent_runs")]
  | _ => []

/-! ## Taxonomy -/

/-- `TAXONOMY_FIELDS` -/
def taxonomyFields : List String :=
  ["vertical", "function_id", "campaign", "evidence_grade", "consent_status", "retention_class"]

def retentionClasses : List String := ["ephemeral_30d", "standard_1y", "extended_3y", "legal_hold"]

def evidenceGrades : List String := ["A", "B", "C", "D", "unverified"]

def consentStatuses : List String := ["granted", "revoked", "not_required", "pending"]

/-- `value in names`, of a set of texts; an unhashable value raises. -/
def inSet (value : Json) (names : List String) : Except Failure Bool :=
  match value with
  | .str s => .ok (names.contains s)
  | .arr _ | .obj _ => .error .raised
  | _ => .ok false

/-- Days of microseconds. -/
def days (n : Int) : Int := n * 86400000000

/-- `LEGAL_HOLD_SENTINEL` -/
def legalHoldSentinel : Int := 253402214400000000

/-- `compute_expires_at` -/
def computeExpiresAt (retentionClass : Json) (now : Int) : Int :=
  if retentionClass = .str "ephemeral_30d" then now + days 30
  else if retentionClass = .str "standard_1y" then now + days 365
  else if retentionClass = .str "extended_3y" then now + days 1095
  else legalHoldSentinel

/-- `ACCESS_LOG_RETENTION` -/
def accessLogRetention : Int := days 90

end CanvasOS.Vault
