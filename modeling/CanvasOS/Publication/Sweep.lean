/-
  The publish sweep (`handlers/publish.py`).

  1. `publishOne` — `_publish_one`: ask whether the approval was granted, mint a gate token, publish,
     register the campaign, write the outcome back onto the approving task's own row.
  2. `publishApprovedAssets` — every approved and unpublished asset, one after the other; what goes
     wrong with one does not stop the others.
-/
import CanvasOS.Dispatch.Store
import CanvasOS.Lib.Format

namespace CanvasOS.Publication

open Interleave Python Orchestrator Review Dispatch

/-- `REAL_PUBLISH_FUNCTION_ID`. -/
def realPublishFunctionId : String := "publish.social_post"

/-- `REAL_PUBLISH_ACTION_CLASS`. -/
def realPublishActionClass : String := "publish"

/-- `PUBLISH_CANDIDATE_TASK_TYPES`. -/
def publishCandidateTaskTypes : List String := ["schedule-social-buffer", "publish-newsletter"]

/-- `PUBLISHABLE_FUNCTION_IDS`. -/
def publishableFunctionIds : List String := [realPublishFunctionId]

/-- `PUBLISH_STATUS_APPROVED`. -/
def publishStatusApproved : String := "approved"

/-- `PUBLISH_CHANNEL`. -/
def publishChannel : String := "buffer"

/-- An optional value as the services' models dump it. -/
def jsonOr {α : Type} (f : α → Json) : Option α → Json
  | some a => f a
  | none => .null

/-- `PublishResponse.model_dump()`, the body of an answer with status 200. -/
def responseJson (r : Publisher.PublishResponse) : Object :=
  [("attempt_id", .str r.attemptId), ("outcome", .str r.outcome), ("reason", .str r.reason),
    ("function_id", r.functionId), ("content_hash", r.contentHash),
    ("gate_decision_id", jsonOr .str r.gateDecisionId), ("jti", r.jti),
    ("vault_record_id", jsonOr .str r.vaultRecordId)]

/-- The summary row of one candidate, `fields` beside the task. -/
def outcomeOf (task : TaskRow) (fields : Object) : Object :=
  Json.update [("task_id", task.taskId.text), ("task_type", .str task.taskType)] fields

/-- What a publish leaves on the row of the task that asked for the approval. -/
def publishedRef (ref : ResultRef) (result : Object) : ResultRef :=
  Json.update ref [("publish_attempt_id", Json.get result "attempt_id"),
    ("publish_status", Json.get result "status"), ("publish_reason", Json.get result "reason"),
    ("utm_campaign_registered", .bool (Json.get ref "campaign").truthy)]

/-- The two analytics lookups.  Neither is allowed to fail a publish that has happened. -/
def registerAnalytics (ref : ResultRef) (vaultAssetId : String) : Routine Unit :=
  MonadExcept.tryCatch
    (do
      ask (.registerUtmCampaign (Json.get ref "campaign") (Json.get ref "campaign_id") vaultAssetId)
      ask (.recordScheduledPost publishChannel))
    fun _ => pure ()

/-- The text an id or a hash of a `result_ref` has; a value that is not text has none. -/
def textOf : Json → String
  | .str s => s
  | _ => ""

/-- The part of `_publish_one` behind the checks: read, mint, publish, write back. -/
def mintAndPublish (task : TaskRow) (ref : ResultRef) (functionId agentRunId contentHash
    vaultAssetId : String) : Routine Object := do
  let asset ← ask (.getAsset vaultAssetId)
  let minted ← ask (.gateCheck ⟨agentRunId, functionId, realPublishActionClass, contentHash,
    [("subject", Json.get ref "subject")]⟩)
  let gateToken := Json.get minted "gate_token"
  if gateToken.truthy = false then
    -- the policy was evaluated again at publish time
    pure (outcomeOf task [("status", .str "no_gate_token"),
      ("outcome_reported", Json.get minted "outcome")])
  else do
    let response ← ask (.publish task.taskId ⟨agentRunId, functionId, asset.text, textOf gateToken,
      vaultAssetId⟩)
    let result := responseJson response
    registerAnalytics ref vaultAssetId
    ask (.db (.setResultRef task.taskId (publishedRef ref result)))
    pure (outcomeOf task [("status", .str "published"),
      ("publish_status", Json.get result "status"), ("publish_reason", Json.get result "reason")])

/-- `_publish_one`. -/
def publishOne (task : TaskRow) : Routine Object := do
  let ref := task.resultRef.getD []
  let functionId := Json.get ref "function_id"
  let agentRunId := Json.get ref "agent_run_id"
  let contentHash := Json.get ref "content_hash"
  if (functionId.truthy && agentRunId.truthy && contentHash.truthy) = false then
    pure (outcomeOf task [("status", .str "incomplete_result_ref")])
  else do
    let decision ← ask (.getApprovalStatus (textOf agentRunId) (textOf functionId)
      (textOf contentHash))
    if decision ≠ .str publishStatusApproved then
      pure (outcomeOf task [("status", .str ("not_approved:" ++ pyStr decision))])
    else if textOf functionId ∉ publishableFunctionIds then
      pure (outcomeOf task [("status", .str "no_publish_route"), ("function_id", functionId)])
    else if (Json.get ref "vault_asset_id").truthy = false then
      pure (outcomeOf task [("status", .str "no_vault_asset_id")])
    else
      mintAndPublish task ref (textOf functionId) (textOf agentRunId) (textOf contentHash)
        (textOf (Json.get ref "vault_asset_id"))

/-- The candidates, one after the other. -/
def publishAll : List TaskRow → Routine (List Object)
  | [] => pure []
  | candidate :: rest => do
    let outcome ← MonadExcept.tryCatch (publishOne candidate) fun _ =>
      pure (outcomeOf candidate [("status", .str "error")])
    let outcomes ← publishAll rest
    pure (outcome :: outcomes)

/-- The summary of a sweep. -/
def sweepRef (candidates : List TaskRow) (results : List Object) : ResultRef :=
  [("candidates", .int candidates.length),
    ("published", .int (results.filter fun row => Json.get row "status" == .str "published").length),
    ("results", .arr (results.map .obj))]

/-- `publish_approved_assets_handler`. -/
def publishApprovedAssets (taskId : TaskId) : Routine Unit := do
  let candidates ← ask (.findAwaitingPublication publishCandidateTaskTypes)
  let results ← publishAll candidates
  onTables (completeWith taskId (sweepRef candidates results))

end CanvasOS.Publication
