/-
  `POST /publish` (`routers/publish.py`) with its two Vault clients and its Buffer client.

  The order of the checks is the source's: token, kill switch, bytes against the bound hash, the
  optional Vault cross-check, and last the single use of the token.  Only what comes after that
  last check writes anywhere outside the governance tables.
-/
import CanvasOS.Publisher.Verifier

namespace CanvasOS.Publisher

open Interleave Python Governance

/-- A request (`PublishRequest`). -/
structure PublishRequest where
  agentRunId : String
  functionId : String
  assetBytesB64 : String
  gateToken : Option String
  assetId : Option String
deriving DecidableEq

/-- The deployment's configuration (`config.py`). -/
structure Settings where
  allowedAlgorithms : List String
  bufferLinkedinChannelId : String

def agentNameLoopProof : String := "loop-proof-circuit"
def bufferFreeTierQueueCap : Nat := 10

def reasonVaultLookupFailed : String := "vault_lookup_failed"
def reasonBufferQueueCapExceeded : String := "buffer_queue_cap_exceeded"
def reasonPublishedDryRun : String := "published_dry_run"
def reasonPublished : String := "published"
def outcomePublished : String := "published"
def outcomeRejected : String := "rejected"

/-! ## Decoding answers -/

/-- `response.json()`: raises on a body that is not JSON. -/
def Response.decode (r : Response) : Pub Json :=
  match r.json with
  | some j => pure j
  | none => throw (.other "JSONDecodeError")

/-- `value.get(…)` presupposes a dict. -/
def asDict : Json → Pub (List (String × Json))
  | .obj kvs => pure kvs
  | _ => throw (.other "AttributeError")

/-- `value or {}`, used as a dict. -/
def dictOrEmpty (j : Json) : Pub (List (String × Json)) :=
  if j.truthy then asDict j else pure []

/-! ## `vault_lookup.py` -/

/-- What the cross-check reads off the asset and its agent run. -/
structure AssetLookupResult where
  contentHash : String
  agentName : String
  agentRunId : String
  assetType : Option String
  campaign : Option String
deriving DecidableEq

/-- `fetch_asset_and_agent_name`.  An unset `VAULT_API_URL` raises what an unreachable Vault does. -/
def fetchAssetAndAgentName (py : Stdlib) (assetId : String) : Pub AssetLookupResult :=
  translating (fun e => if e = .httpx then .vaultLookup else e) do
    let assetResponse ← call (.getAsset assetId)
    if assetResponse.statusCode ≠ 200 then throw .vaultLookup
    else do
      let asset ← assetResponse.decode >>= asDict
      let contentHash := Json.get asset "content_hash"
      let agentRunId := Json.get asset "agent_run_id"
      if !contentHash.truthy || !agentRunId.truthy then throw .vaultLookup
      else do
        let agentRunResponse ← call (.getAgentRun agentRunId)
        if agentRunResponse.statusCode ≠ 200 then throw .vaultLookup
        else do
          let agentRun ← agentRunResponse.decode >>= asDict
          let agentName := Json.get agentRun "agent_name"
          if !agentName.truthy then throw .vaultLookup
          else
            let label (j : Json) : Option String := if j.truthy then some (py.str j) else none
            pure ⟨py.str contentHash, py.str agentName, py.str agentRunId,
              label (Json.get asset "asset_type"), label (Json.get asset "campaign")⟩

/-! ## `buffer_client.py` -/

/-- `_call_tool`, from the answer to its POST to the tool's structured content. -/
def callTool (response : Response) : Pub Json :=
  if response.statusCode ≠ 200 then throw .bufferClient
  else do
    let envelope ← response.decode >>= asDict
    if Json.get envelope "error" ≠ .null then throw .bufferClient
    else do
      let result ← dictOrEmpty (Json.get envelope "result")
      let structured := Json.get result "structuredContent"
      if structured = .null then throw .bufferClient else pure structured

/-- `list_queue_count`: both shapes of the answer, 0 for any other. -/
def listQueueCount (channelId : String) : Pub Nat := do
  let response ← call (.listQueue channelId)
  let result ← callTool response >>= asDict
  let count (posts : Json) : Nat := match posts with
    | .arr xs => xs.length
    | _ => 0
  match Json.get result "posts", Json.get result "result" with
  | .null, .obj wrapped => do
    let data ← asDict ((Json.lookup wrapped "data").getD (.obj []))
    pure (count (Json.get data "posts"))
  | posts, _ => pure (count posts)

/-- `create_draft`: a falsy label is not sent. -/
def createDraft (channelId text : String) (utmCampaign postArchetype : Option String) :
    Pub Json := do
  let response ← call (.createDraft channelId text
    (utmCampaign.filter (· ≠ "")) (postArchetype.filter (· ≠ "")))
  callTool response

/-! ## `vault_adapter.py` -/

def taxonomyFields : List String :=
  ["vertical", "campaign", "evidence_grade", "consent_status", "retention_class"]

/-- `write_gate_decision` / `record_publish`: the taxonomy of the decision the token was bound to,
    and a new decision carrying it. -/
def recordPublish (py : Stdlib) (agentRunId : String) (functionId : Json) (contentHash : String)
    (gateDecisionId : String) (jti : Json) : Pub String :=
  translating (fun e => if e = .httpx then .vaultWrite else e) do
    let sourceResponse ← call (.getGateDecision gateDecisionId)
    if sourceResponse.statusCode ≠ 200 then throw .vaultWrite
    else do
      let source ← sourceResponse.decode >>= asDict
      let taxonomy := taxonomyFields.map fun name => (name, Json.get source name)
      if taxonomy.any (fun kv => !kv.2.truthy) then throw .vaultWrite
      else do
        let reason := "published (content_hash=" ++ contentHash ++ ", jti=" ++ py.str jti ++ ")"
        let createResponse ← call (.postGateDecision agentRunId reason functionId taxonomy)
        if createResponse.statusCode ≠ 200 ∧ createResponse.statusCode ≠ 201 then throw .vaultWrite
        else do
          let created ← createResponse.decode >>= asDict
          let recordId := Json.get created "id"
          if !recordId.truthy then throw .vaultWrite else pure (py.str recordId)

/-! ## `routers/publish.py` -/

/-- `_safe_uuid`. -/
def safeUuid (py : Stdlib) (value : Json) : Option String :=
  if value.truthy then py.uuid value else none

/-- `_response`. -/
def response (attemptId : String) (row : Attempt) (vaultRecordId : Option String) :
    PublishResponse :=
  ⟨attemptId, row.outcome, row.reason, row.functionId, row.contentHash, row.gateDecisionId,
    row.jti, vaultRecordId⟩

/-- `record_attempt`. -/
def recordAttempt (row : Attempt) : Pub String := call (.insertAttempt row)

/-- `raise _refuse(record_attempt(…, outcome=OUTCOME_REJECTED, reason=…))`. -/
def refuse {α : Type} (agentRunId : String) (gateDecisionId : Option String)
    (functionId jti contentHash : Json) (reason : String) : Pub α := do
  let row : Attempt :=
    ⟨agentRunId, gateDecisionId, functionId, jti, contentHash, outcomeRejected, reason⟩
  let attemptId ← recordAttempt row
  throw (.httpRefused 403 (response attemptId row none))

/-- An expression that may raise, evaluated between two statements. -/
def raising {α : Type} : Except Exc α → Pub α
  | .ok a => pure a
  | .error e => throw e

/-- `JtiLedger.consume`. -/
def consume (jti : Json) (gateDecisionId : Option String) : Pub Bool :=
  if !jti.truthy then throw (.other "ValueError")
  else call (.consumeJti jti gateDecisionId)

/-- What the handler knows of a request once all its checks but the last have passed. -/
structure Cleared where
  agentRunId : String
  gateDecisionId : Option String
  functionId : Json
  jti : Json
  assetBytes : List UInt8
  actualContentHash : String
  lookup : Option AssetLookupResult

namespace Cleared

/-- A refusal that names the recomputed hash. -/
def refuse {α : Type} (c : Cleared) (reason : String) : Pub α :=
  Publisher.refuse c.agentRunId c.gateDecisionId c.functionId c.jti (.str c.actualContentHash) reason

end Cleared

/-- Step (4.5): the queue cap and the draft, in live mode only.  The queue-depth warning between
    the two logs and changes nothing. -/
def queueDraft (py : Stdlib) (S : Settings) (c : Cleared) : Pub Unit := do
  let baseUrl ← call .resolveMcpBufferBaseUrl
  if baseUrl.getD "" = "" then throw .bufferClient
  else do
    let queueCount ← MonadExcept.tryCatch (listQueueCount S.bufferLinkedinChannelId) fun e =>
      match e with
      | .bufferClient => c.refuse reasonBufferQueueCapExceeded
      | e => throw e
    if bufferFreeTierQueueCap ≤ queueCount then c.refuse reasonBufferQueueCapExceeded
    else
      match py.decodeUtf8 c.assetBytes with
      | none => throw (.other "UnicodeDecodeError")
      | some text => do
        let _ ← createDraft S.bufferLinkedinChannelId text (c.lookup.bind (·.campaign))
          (c.lookup.bind (·.assetType))
        pure ()

/-- Step (5): the Vault record and the `published` row. -/
def recordPublished (py : Stdlib) (c : Cleared) (effectiveDryRun : Bool) :
    Pub PublishResponse := do
  let recordId ← recordPublish py c.agentRunId c.functionId c.actualContentHash
    (c.gateDecisionId.getD "None") c.jti
  let row : Attempt := ⟨c.agentRunId, c.gateDecisionId, c.functionId, c.jti,
    .str c.actualContentHash, outcomePublished,
    if effectiveDryRun then reasonPublishedDryRun else reasonPublished⟩
  let attemptId ← recordAttempt row
  pure (response attemptId row (some recordId))

/-- Step (4) and what follows it: the token is used up, then the post goes out. -/
def publishOnce (py : Stdlib) (S : Settings) (c : Cleared) (effectiveDryRun : Bool) :
    Pub PublishResponse := do
  if ← consume c.jti c.gateDecisionId then
    if effectiveDryRun then recordPublished py c effectiveDryRun
    else do
      queueDraft py S c
      recordPublished py c effectiveDryRun
  else c.refuse reasonTokenReplayed

/-- Step (3.5): the Vault's own hash and the agent's name, where an asset id was supplied. -/
def crossCheck (py : Stdlib) (assetId : Option String) (c : Cleared) :
    Pub (Option AssetLookupResult) :=
  match assetId.filter (· ≠ "") with
  | none => pure none
  | some assetId => do
    let lookup ← MonadExcept.tryCatch (fetchAssetAndAgentName py assetId) fun e =>
      match e with
      | .vaultLookup => c.refuse reasonVaultLookupFailed
      | e => throw e
    if ← raising (hashesMatch (.str lookup.contentHash) c.actualContentHash) then pure (some lookup)
    else c.refuse reasonContentHashMismatch

/-- Steps (2) and (3) and what follows them, for verified claims with a usable binding. -/
def publishBound (py : Stdlib) (S : Settings) (request : PublishRequest) (agentRunId : String)
    (assetBytes : List UInt8) (jti : Json) (gateDecisionId : Option String) (b : Binding) :
    Pub PublishResponse := do
  let row ← call (.selectActiveSwitches b.functionId)
  let status := isBlocked row
  if status.blocked then
    refuse agentRunId gateDecisionId b.functionId jti b.contentHash (status.auditReason.getD "")
  else do
    let actualContentHash := recomputeContentHash py assetBytes
    let c : Cleared :=
      ⟨agentRunId, gateDecisionId, b.functionId, jti, assetBytes, actualContentHash, none⟩
    if ← raising (hashesMatch b.contentHash actualContentHash) then do
      let lookup ← crossCheck py request.assetId c
      let dryRunForced := lookup.any fun l => l.agentName == agentNameLoopProof
      let effectiveDryRun ← (if dryRunForced then pure true else call .publisherDryRun)
      publishOnce py S { c with lookup := lookup } effectiveDryRun
    else c.refuse reasonContentHashMismatch

/-- `_publish_impl`. -/
def publishImpl (py : Stdlib) (S : Settings) (request : PublishRequest) : Pub PublishResponse :=
  match safeUuid py (.str request.agentRunId) with
  | none => throw (.httpText 400 "agent_run_id must be a uuid")
  | some agentRunId =>
    match py.b64decode request.assetBytesB64 with
    | none => throw (.httpText 400 "asset_bytes_b64 is not base64")
    | some assetBytes => do
      call .buildVerifier
      let claims ← MonadExcept.tryCatch (verify py S.allowedAlgorithms request.gateToken) fun e =>
        match e with
        | .verification reason =>
          refuse agentRunId none (.str request.functionId) .null .null reason
        | e => throw e
      match Json.lookup claims "jti" with
      | none => throw (.other "KeyError")
      | some jti => do
        let gateDecisionId := safeUuid py (Json.get claims "gate_decision_id")
        let b ← MonadExcept.tryCatch (boundTaxonomyClaims py claims) fun e =>
          match e with
          | .verification _ =>
            refuse agentRunId gateDecisionId (.str request.functionId) jti .null reasonTokenInvalid
          | e => throw e
        publishBound py S request agentRunId assetBytes jti gateDecisionId b

end CanvasOS.Publisher
