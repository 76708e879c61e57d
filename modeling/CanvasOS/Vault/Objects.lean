/-
  The routes of the nine object types (`routers/objects.py`), with the audit rows, the consent gate
  and the blobs they use (`audit.py`, `consent.py`, `storage.py`).

  1. `withConnection`, `transaction` — `async with pool.acquire()` and `async with
     conn.transaction()`.
  2. `validateTaxonomy`, `handleConsentGate`, `insertObject` — the steps of a create.
  3. `create`, `createAsset`, `patchOne`, `deleteOne` — the routes.
-/
import CanvasOS.Vault.Store

namespace CanvasOS.Vault

open Python Interleave

/-- A routine of the service. -/
abbrev VaultM (α : Type) := Prog VaultOp VaultOp.Res Failure α

/-! ## Statements -/

/-- What a driver raises is no `HTTPException`. -/
def Failure.driver : Failure → Failure
  | .http .. => .raised
  | e => e

/-- One statement. -/
def ask (o : VaultOp) : VaultM o.Res := (Prog.perform o).tryCatch fun e => .throw e.driver

/-- A statement whose exception is propagated. -/
theorem ask_only {P : VaultOp → Prop} {o : VaultOp} (h : P o) : (ask o).Only P :=
  (Prog.Only.perform h).tryCatch fun _ => True.intro

/-- An error of the database is raised. -/
def orRaise {α : Type} : Except SqlError α → VaultM α
  | .ok a => .pure a
  | .error e => .throw (.sql e)

/-- A computation without statements. -/
def compute {α : Type} : Except Failure α → VaultM α
  | .ok a => .pure a
  | .error e => .throw e

theorem orRaise_only {α : Type} {P : VaultOp → Prop} (r : Except SqlError α) :
    (orRaise r).Only P := by
  cases r <;> exact True.intro

theorem compute_only {α : Type} {P : VaultOp → Prop} (r : Except Failure α) :
    (compute r).Only P := by
  cases r <;> exact True.intro

/-- `async with pool.acquire() as conn` -/
def withConnection {α : Type} (conn : Conn) (body : VaultM α) : VaultM α := do
  ask (.acquire conn)
  body.thenFinally (ask (.release conn))

/-- `async with conn.transaction()` -/
def transaction {α : Type} (body : VaultM α) : VaultM α := do
  ask .begin
  let a ← body.tryCatch fun e => do
    ask .rollback
    throw e
  ask .commit
  pure a

/-- `write_audit_isolated` -/
def writeAuditIsolated (row : AuditRow) : VaultM Unit :=
  withConnection .isolated (ask (.writeAudit .isolated row))

/-! ## Validation -/

/-- A 422, with its audit row. -/
def rejectTaxonomy (config : ObjectTypeConfig) (reason message code fieldName : String) :
    VaultM Unit := do
  writeAuditIsolated
    ⟨"taxonomy_rejected", config.name, none, none, reason, [("field", .str fieldName)]⟩
  throw (httpError 422 message code (some fieldName))

/-- `value is None or value == ""` -/
def missing (value : Json) : Bool := value == .null || value == .str ""

/-- The taxonomy fields are there. -/
def checkPresent (config : ObjectTypeConfig) (payload : Payload) : List String → VaultM Unit
  | [] => pure ()
  | fieldName :: rest => do
    if missing (Json.get payload fieldName) then
      rejectTaxonomy config ("missing required taxonomy field: " ++ fieldName)
        ("missing required taxonomy field: " ++ fieldName) "taxonomy_field_missing" fieldName
    else checkPresent config payload rest

/-- The value of a taxonomy field is one of those allowed. -/
def checkAllowed (config : ObjectTypeConfig) (payload : Payload) (fieldName : String)
    (allowed : List String) : VaultM Unit := do
  let ok ← compute (inSet (Json.get payload fieldName) allowed)
  if ok then pure ()
  else
    rejectTaxonomy config ("invalid " ++ fieldName) ("invalid " ++ fieldName)
      "taxonomy_field_invalid" fieldName

/-- `uuid.UUID(str(payload["campaign"]))` -/
def campaignOf (P : Runtime) (payload : Payload) : Option Uuid :=
  P.uuid (pyStr (Json.get payload "campaign"))

def checkCampaign (P : Runtime) (config : ObjectTypeConfig) (payload : Payload) : VaultM Unit :=
  match campaignOf P payload with
  | some _ => pure ()
  | none => rejectTaxonomy config "campaign is not a valid uuid" "campaign must be a valid uuid"
      "taxonomy_field_invalid" "campaign"

/-- `validate_taxonomy` -/
def validateTaxonomy (P : Runtime) (config : ObjectTypeConfig) (payload : Payload) :
    VaultM Unit := do
  checkPresent config payload taxonomyFields
  checkAllowed config payload "evidence_grade" evidenceGrades
  checkAllowed config payload "consent_status" consentStatuses
  checkAllowed config payload "retention_class" retentionClasses
  checkCampaign P config payload

/-- `validate_required_business_fields` -/
def validateRequired (payload : Payload) : List FieldSpec → Except Failure Unit
  | [] => .ok ()
  | f :: rest =>
    if f.required ∧ missing (Json.get payload f.name) = true then
      .error (httpError 422 ("missing required field: " ++ f.name) "field_missing" (some f.name))
    else validateRequired payload rest

/-! ## Consent -/

/-- A parameter of type `text` has to be a string. -/
def asText : Json → Except Failure String
  | .str s => .ok s
  | _ => .error .raised

/-- The channel and the purpose that a client-derived payload has to name. -/
def requireConsentFields (channel purpose : Json) : Except Failure Unit :=
  if channel.truthy && purpose.truthy then .ok ()
  else .error (httpError 422
    "consent_channel and consent_purpose are required when data_subject_ref is present"
    "consent_fields_missing" none)

/-- Nobody has consented: a 403, with its audit row. -/
def rejectConsent (config : ObjectTypeConfig) (dataSubjectRef channel purpose : String) :
    VaultM (Option Uuid) := do
  writeAuditIsolated ⟨"consent_rejected", config.name, none, some dataSubjectRef,
    "no active (non-revoked) consent_register match for subject/channel/purpose",
    [("channel", .str channel), ("purpose", .str purpose)]⟩
  throw (httpError 403 "no active consent for data_subject_ref/channel/purpose" "consent_required"
    none)

/-- The consent of a client-derived payload. -/
def consentOf (config : ObjectTypeConfig) (payload : Payload) : VaultM (Option Uuid) := do
  let channel := Json.get payload "consent_channel"
  let purpose := Json.get payload "consent_purpose"
  compute (requireConsentFields channel purpose)
  let dataSubjectRef ← compute (asText (Json.get payload "data_subject_ref"))
  let channel ← compute (asText channel)
  let purpose ← compute (asText purpose)
  let consentId ← ask (.findActiveConsent dataSubjectRef channel purpose)
  match consentId with
  | some id => pure (some id)
  | none => rejectConsent config dataSubjectRef channel purpose

/-- `handle_consent_gate` -/
def handleConsentGate (config : ObjectTypeConfig) (payload : Payload) : VaultM (Option Uuid) :=
  if config.name = "consent_register" then pure none
  else if (Json.get payload "data_subject_ref").truthy then consentOf config payload
  else pure none

/-! ## Inserting -/

/-- The columns of the registry. -/
def fieldCells (P : Runtime) (payload : Payload) : List FieldSpec →
    Except Failure (List (String × SqlValue))
  | [] => .ok []
  | f :: rest => do
    let value ← castForAsyncpg P f.sqlType ((Json.lookup payload f.name).getD f.default)
    let cells ← fieldCells P payload rest
    pure ((f.name, value) :: cells)

/-- The campaign that the payload names. -/
def castCampaign (P : Runtime) (payload : Payload) : Except Failure Uuid :=
  match campaignOf P payload with
  | some campaign => .ok campaign
  | none => .error .raised

/-- The parameters of the INSERT, but for the time. -/
def newObject (P : Runtime) (config : ObjectTypeConfig) (payload : Payload)
    (extraColumns : List (String × SqlValue)) : Except Failure (Int → NewObject) := do
  let campaign ← castCampaign P payload
  let cells ← fieldCells P payload config.fields
  pure fun now => {
    table := config.name
    cells := (if config.hasCampaignColumn then [("campaign_id", .uuid campaign)] else []) ++
      cells ++ extraColumns
    vertical := Json.get payload "vertical"
    functionId := Json.get payload "function_id"
    campaign := campaign
    evidenceGrade := Json.get payload "evidence_grade"
    consentStatus := Json.get payload "consent_status"
    retentionClass := Json.get payload "retention_class"
    expiresAt := computeExpiresAt (Json.get payload "retention_class") now }

/-- `except asyncpg.ForeignKeyViolationError` -/
def insertedId : Except SqlError Uuid → VaultM Uuid
  | .ok id => .pure id
  | .error .foreignKeyViolation =>
    .throw (httpError 422 "referenced id does not exist" "fk_violation" none)
  | .error .other => .throw (.sql .other)

/-- `insert_object` -/
def insertObject (P : Runtime) (config : ObjectTypeConfig) (payload : Payload)
    (extraColumns : List (String × SqlValue)) : VaultM Uuid := do
  let new ← compute (newObject P config payload extraColumns)
  let now ← ask .utcNow
  let answer ← ask (.insertObject (new now))
  insertedId answer

/-- `link_consent`, where there is a consent -/
def linkConsent (table : String) (id : Uuid) : Option Uuid → VaultM Unit
  | none => pure ()
  | some consent => do
    let answer ← ask (.linkConsent ⟨table, id, consent⟩)
    -- `DO NOTHING` is no error
    let _ ← orRaise answer
    pure ()

/-! ## Blobs -/

/-- `store_content_addressed`: the digest. -/
def storeContentAddressed (P : Runtime) (data : List UInt8) : VaultM String := do
  let digest := P.sha256Hex data
  let there ← ask (.blobExists digest)
  if there then pure digest
  else do
    -- `ResourceExistsError` is an answer too
    let _ ← ask (.uploadBlob digest data)
    pure digest

/-- The columns of an asset that its content gives. -/
def contentColumns (P : Runtime) (data : List UInt8) : VaultM (List (String × SqlValue)) := do
  let digest ← storeContentAddressed P data
  pure [("content_hash", .json (.str digest)),
    ("storage_uri", .json (.str (P.storageUriFor digest)))]

/-! ## Routes -/

inductive Response where
  | object (found : Option Fetched)
  | noContent
  | run (row : Option RetentionRun)

/-- What a create does in its transaction: the id of the object. -/
def createObject (P : Runtime) (config : ObjectTypeConfig) (payload : Payload)
    (extraColumns : VaultM (List (String × SqlValue))) : VaultM Uuid := do
  validateTaxonomy P config payload
  compute (validateRequired payload config.fields)
  let consentId ← handleConsentGate config payload
  let columns ← extraColumns
  let id ← insertObject P config payload columns
  linkConsent config.name id consentId
  pure id

/-- A create, on its connection: the object is read back after the transaction. -/
def createAndFetch (P : Runtime) (config : ObjectTypeConfig) (payload : Payload)
    (extraColumns : VaultM (List (String × SqlValue))) : VaultM (Option Fetched) :=
  withConnection .own do
    let id ← transaction (createObject P config payload extraColumns)
    ask (.fetchObject (config.name, id))

/-- `create` of `build_object_router` -/
def create (P : Runtime) (config : ObjectTypeConfig) (payload : Payload) : VaultM Response := do
  let found ← createAndFetch P config payload (pure [])
  pure (.object found)

/-- `obj["content_base64"] = content_b64` -/
def withContent : Option Fetched → VaultM Response
  | some found => .pure (.object (some found))
  | none => .throw .raised

/-- The bytes of `content_base64` -/
def decodeContent (P : Runtime) (payload : Payload) : Except Failure (List UInt8) :=
  let content := Json.get payload "content_base64"
  if content.truthy then
    match P.b64decode content with
    | some raw => .ok raw
    | none => .error (httpError 422 "content_base64 is not valid base64" "field_invalid"
        (some "content_base64"))
  else .error (httpError 422 "missing required field: content_base64" "field_missing"
    (some "content_base64"))

/-- `create` of `build_assets_router` -/
def createAsset (P : Runtime) (config : ObjectTypeConfig) (payload : Payload) :
    VaultM Response := do
  let raw ← compute (decodeContent P payload)
  let found ← createAndFetch P config payload (contentColumns P raw)
  withContent found

/-- The present values of the taxonomy, as texts. -/
def currentText (P : Runtime) (row : TaxonomyRow) (fieldName : String) : String :=
  if fieldName = "vertical" then pyStr row.vertical
  else if fieldName = "function_id" then pyStr row.functionId
  else if fieldName = "campaign" then P.strUuid row.campaign
  else if fieldName = "evidence_grade" then pyStr row.evidenceGrade
  else if fieldName = "consent_status" then pyStr row.consentStatus
  else pyStr row.retentionClass

/-- No taxonomy field that the payload touches has another value. -/
def unchangedTaxonomy (P : Runtime) (row : TaxonomyRow) (payload : Payload) : List String →
    Except Failure Unit
  | [] => .ok ()
  | f :: rest =>
    if pyStr (Json.get payload f) ≠ currentText P row f then
      .error (httpError 422 ("taxonomy field '" ++ f ++ "' is immutable post-create")
        "taxonomy_field_immutable" (some f))
    else unchangedTaxonomy P row payload rest

/-- `assert_taxonomy_immutable` -/
def assertTaxonomyImmutable (P : Runtime) (key : Key) (payload : Payload) : VaultM Unit :=
  let touched := taxonomyFields.filter fun f => (Json.lookup payload f).isSome
  if touched = [] then pure ()
  else do
    let current ← ask (.selectTaxonomy key)
    match current with
    | some row => compute (unchangedTaxonomy P row payload touched)
    | none => pure ()

/-- The values of an UPDATE: the fields of the payload that may be patched. -/
def patchSets (P : Runtime) (config : ObjectTypeConfig) : Payload →
    Except Failure (List (String × SqlValue))
  | [] => .ok []
  | (name, value) :: rest =>
    match config.fields.find? fun f => f.name == name && f.patchable with
    | some f => do
      let value ← castForAsyncpg P f.sqlType value
      let sets ← patchSets P config rest
      pure ((name, value) :: sets)
    | none => patchSets P config rest

/-- `UPDATE … RETURNING id`; without updates there is no statement. -/
def applyUpdates (key : Key) (sets : List (String × SqlValue)) : VaultM Bool :=
  if sets = [] then pure true else ask (.updateObject key sets)

/-- `update_object` -/
def updateObject (P : Runtime) (config : ObjectTypeConfig) (id : Uuid) (payload : Payload) :
    VaultM (Option Fetched) := do
  assertTaxonomyImmutable P (config.name, id) payload
  let sets ← compute (patchSets P config payload)
  let found ← applyUpdates (config.name, id) sets
  if found then ask (.fetchObject (config.name, id)) else pure none

/-- `if obj is None: raise _error(404, …)` -/
def orNotFound : Option Fetched → VaultM Response
  | some found => .pure (.object (some found))
  | none => .throw (httpError 404 "not found" "not_found" none)

/-- `patch_one` -/
def patchOne (P : Runtime) (config : ObjectTypeConfig) (id : Uuid) (payload : Payload) :
    VaultM Response := do
  let found ← withConnection .own (transaction (updateObject P config id payload))
  orNotFound found

/-- `delete_one` -/
def deleteOne (config : ObjectTypeConfig) (id : Uuid) : VaultM Response := do
  withConnection .own do
    let answer ← ask (.deleteObject (config.name, id))
    orRaise answer
  pure .noContent

end CanvasOS.Vault
