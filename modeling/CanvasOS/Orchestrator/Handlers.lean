/-
  The handlers of the dispatch table, as far as they touch the task tables.

  1. `advanceDependents` — `db.advance_dependents`.
  2. `resolveLineageResult` — the breadth-first walk to the nearest ancestor with a `result_ref`.
  3. `ordinaryHandler` — every handler but two does its own work, stores its outcome and completes
     or blocks its own task.
  4. `singleDraftQaReview` — the two Thursday review handlers, with the QA retry loop, which alone
     finalises a task it was not called for: the other review task of the same draft.
  5. `dispatchTable` — which task types have a handler.
-/
import CanvasOS.Orchestrator.TaskStore

namespace CanvasOS.Orchestrator

open Interleave Python

/-! ## `db.advance_dependents` -/

/-- The candidates all of whose dependencies are counted as completed. -/
def readyAmong : List TaskRow → Worker (List TaskId)
  | [] => pure []
  | row :: rest =>
    if row.dependsOn = [] then readyAmong rest
    else do
      let completedCount ← call .handler (.countCompleted row.dependsOn)
      let advanced ← readyAmong rest
      pure (if completedCount = row.dependsOn.length then row.taskId :: advanced else advanced)

/-- Each advanced task goes from pending to dispatchable, in a transaction of its own. -/
def releaseAll : List TaskId → Worker Unit
  | [] => pure ()
  | taskId :: rest => do
    call .handler (.transition taskId .dispatchable .dependencySatisfied)
    releaseAll rest

/-- `advance_dependents`. -/
def advanceDependents (completedTaskId : TaskId) : Worker Unit := do
  let candidates ← call .handler (.pendingDependents completedTaskId)
  let advanced ← readyAmong candidates
  releaseAll advanced

/-- The completion every handler ends with. -/
def completeTask (taskId : TaskId) : Worker Unit := do
  call .handler (.transition taskId .completed .completed)
  advanceDependents taskId

/-- `legacy_task_pass_through`.  It stands in for the handler of a task type that has none. -/
def legacyTaskPassThrough (site : Site) (taskId : TaskId) : Worker Unit := do
  call site (.transition taskId .running .dispatched)
  call site (.invoke taskId)
  completeTask taskId

/-! ## Lineage -/

/-- `MAX_LINEAGE_HOPS`. -/
def maxLineageHops : Nat := 6

/-- The dependencies of one row that were not seen before join the next frontier. -/
def extendFrontier (deps : List TaskId) (seen next : List TaskId) : List TaskId × List TaskId :=
  deps.foldl (fun (seen, next) dep =>
    if dep ∈ seen then (seen, next) else (dep :: seen, next ++ [dep])) (seen, next)

/-- One level of the walk: the first row of the frontier that carries a `result_ref`, or what was
    seen and the next frontier. -/
def scanFrontier (start : TaskId) (rows : List TaskRow) :
    (frontier seen next : List TaskId) →
      Sum (TaskRow × ResultRef) (List TaskId × List TaskId)
  | [], seen, next => .inr (seen, next)
  | tid :: rest, seen, next =>
    match rows.find? fun r => r.taskId == tid with
    | none => scanFrontier start rows rest seen next
    | some row =>
      match if tid = start then none else row.resultRef with
      | some ref => .inl (row, ref)
      | none =>
        let e := extendFrontier row.dependsOn seen next
        scanFrontier start rows rest e.1 e.2

/-- The levels of the walk. -/
def walkLineage (start : TaskId) :
    (hops : Nat) → (frontier seen : List TaskId) → Worker (Option (TaskRow × ResultRef))
  | 0, _, _ => pure none
  | hops + 1, frontier, seen =>
    if frontier = [] then pure none
    else do
      let rows ← call .handler (.getTasks frontier)
      match scanFrontier start rows frontier seen [] with
      | .inl found => pure (some found)
      | .inr (seen, next) => walkLineage start hops next seen

/-- `resolve_lineage_result`. -/
def resolveLineageResult (taskId : TaskId) : Worker (Option (TaskRow × ResultRef)) :=
  walkLineage taskId maxLineageHops [taskId] [taskId]

/-! ## Ordinary handlers -/

/-- The `result_ref`s a handler rewrites besides its own. -/
def writeBack : List (TaskId × ResultRef) → Worker Unit
  | [] => pure ()
  | (taskId, ref) :: rest => do
    call .handler (.setResultRef taskId ref)
    writeBack rest

/-- The outcome is stored, then the task is completed and its dependents advanced. -/
def completeWith (taskId : TaskId) (ref : ResultRef) : Worker Unit := do
  call .handler (.setResultRef taskId ref)
  completeTask taskId

/-- The outcome is stored, then the task is FAILED with QA_BLOCKED and a card is posted. -/
def blockWith (taskId : TaskId) (ref : ResultRef) : Worker Unit := do
  call .handler (.setResultRef taskId ref)
  call .handler (.transition taskId .failed .qaBlocked)
  call .handler (.notify taskId)

/-- A handler that works on its own task only. -/
def ordinaryHandler (envelope : TaskEnvelope) : Worker Unit := do
  let out ← call .handler (.work envelope.taskId envelope.taskType)
  writeBack out.writeBacks
  if out.completes then completeWith envelope.taskId out.ref
  else blockWith envelope.taskId out.ref

/-! ## The Thursday reviews -/

/-- The `task_type` of `_QA_REVIEW_PARAMS`. -/
def ReviewKind.taskType : ReviewKind → String
  | .brandSteward => "qa-review-brand-steward"
  | .factCheck => "qa-review-fact-check"

/-- The `review_kind` of `_QA_REVIEW_PARAMS`. -/
def ReviewKind.text : ReviewKind → String
  | .brandSteward => "brand_steward"
  | .factCheck => "fact_check"

/-- `other_review_kind`. -/
def ReviewKind.other : ReviewKind → ReviewKind
  | .brandSteward => .factCheck
  | .factCheck => .brandSteward

/-- `permission_check.VIOLATION_CODE`. -/
def violationCode : String := "uncleared-client-reference"

/-- `FACT_CHECK_GATE_NOT_APPROVED`. -/
def factCheckGateNotApproved : String := "fact-check-policy-not-approved"

/-- The keys of `_DRAFT_REGEN_PARAMS`: the draft types that can be regenerated. -/
def draftRegenTypes : List String :=
  ["draft-insight-to-story", "draft-executive-ghostwrite", "draft-carousel-post",
    "draft-newsletter", "draft-case-study"]

/-- `BRIEF_CARRIED_KEYS`: what a pass-through task carries forward. -/
def briefCarriedKeys : List String :=
  ["pillar", "vertical", "audience_note", "proof_points", "proof_point_count", "signal_count",
    "pillar_source", "campaign"]

/-- `_carried_brief_fields`. -/
def carriedBriefFields (ancestorRef : ResultRef) : ResultRef :=
  briefCarriedKeys.filterMap fun key => (Json.lookup ancestorRef key).map (key, ·)

/-- `MAX_QA_RETRY_ATTEMPTS`. -/
def maxQaRetryAttempts : Nat := 10

/-- A task id as JSON text. -/
def TaskId.text (t : TaskId) : Json := .str (toString t.event ++ "/" ++ t.name)

/-- A list of violation codes as JSON. -/
def codes (violations : List String) : Json := .arr (violations.map .str)

/-- `_finalize_qa_failure`. -/
def finalizeQaFailure (taskId : TaskId) (violations : List String) (draft : TaskRow)
    (agentRunId campaignId : Json) : Worker Unit :=
  blockWith taskId [("pass", .bool false), ("violations", codes violations),
    ("draft_task_id", draft.taskId.text), ("draft_task_type", .str draft.taskType),
    ("agent_run_id", agentRunId), ("campaign_id", campaignId)]

/-- Violations and agent run of the latest check of each kind. -/
structure Checks where
  violations : ReviewKind → List String
  agentRunId : ReviewKind → Json

/-- `revision_targets`.  (They are sorted, which only the prompt sees.) -/
def Checks.revisionTargets (c : Checks) : List String :=
  (c.violations .brandSteward ++ c.violations .factCheck).dedup

/-- `task_ids_by_kind`: this review task, then the other one if there is one. -/
abbrev ReviewTasks := List (ReviewKind × TaskId)

/-- Every retry attempt passed both checks: both review tasks are completed, in order. -/
def finalizePassed (draft : TaskRow) (asset : Regenerated) (campaignId : Json) (attempt : Nat)
    (checks : Checks) : ReviewTasks → Worker Unit
  | [] => pure ()
  | (kind, taskId) :: rest => do
    call .handler (.setResultRef taskId [("pass", .bool true),
      ("vault_asset_id", .str asset.vaultAssetId), ("content_hash", .str asset.contentHash),
      ("draft_task_id", draft.taskId.text), ("draft_task_type", .str draft.taskType),
      ("agent_run_id", checks.agentRunId kind), ("campaign_id", campaignId),
      ("retry_attempts", .int attempt)])
    completeTask taskId
    finalizePassed draft asset campaignId attempt checks rest

/-- The attempts are exhausted, or a violation appeared that must not be retried: both review tasks
    are FAILED, in order. -/
def finalizeBlocked (draft : TaskRow) (campaignId : Json) (attempt : Nat) (checks : Checks) :
    ReviewTasks → Worker Unit
  | [] => pure ()
  | (kind, taskId) :: rest => do
    call .handler (.setResultRef taskId [("pass", .bool false),
      ("violations", codes (checks.violations kind)), ("draft_task_id", draft.taskId.text),
      ("draft_task_type", .str draft.taskType), ("campaign_id", campaignId),
      ("retry_attempts", .int attempt)])
    call .handler (.transition taskId .failed .qaBlocked)
    finalizeBlocked draft campaignId attempt checks rest

/-- The fact check of a regenerated draft: no model call while the gate is disabled. -/
def factCheckAgain (taskId : TaskId) : Worker (List String × Json) := do
  if ← call .handler .factCheckGateApproved then
    let fc ← call .handler (.review taskId .factCheck)
    pure (fc.violations, .str fc.agentRunId)
  else pure ([factCheckGateNotApproved], .null)

/-- The attempts of the retry loop, `left` of them from the `attempt`-th on. -/
def retryAttempts (taskId : TaskId) (draft : TaskRow) (campaignId pillar : Json)
    (reviews : ReviewTasks) : (left attempt : Nat) → Checks → Worker Unit
  | 0, attempt, checks => do
    finalizeBlocked draft campaignId (attempt - 1) checks reviews
    call .handler (.notify taskId)
  | left + 1, attempt, checks =>
    if [violationCode, factCheckGateNotApproved].any (· ∈ checks.revisionTargets) then do
      finalizeBlocked draft campaignId attempt checks reviews
      call .handler (.notify taskId)
    else do
      let asset ← call .handler (.regenerate draft.taskId attempt checks.revisionTargets)
      call .handler (.setResultRef draft.taskId [("vault_asset_id", .str asset.vaultAssetId),
        ("content_hash", .str asset.contentHash), ("agent_run_id", .str asset.agentRunId),
        ("campaign_id", campaignId), ("pillar", pillar), ("retry_attempt", .int attempt)])
      let bs ← call .handler (.review taskId .brandSteward)
      let fc ← factCheckAgain taskId
      let checks : Checks :=
        ⟨fun | .brandSteward => bs.violations | .factCheck => fc.1,
          fun | .brandSteward => .str bs.agentRunId | .factCheck => fc.2⟩
      if bs.violations = [] ∧ fc.1 = [] then
        finalizePassed draft asset campaignId attempt checks reviews
      else retryAttempts taskId draft campaignId pillar reviews left (attempt + 1) checks

/-- `_run_qa_retry_loop`. -/
def runQaRetryLoop (taskId : TaskId) (kind : ReviewKind) (draft : TaskRow)
    (violations : List String) : Worker Unit := do
  let siblings ← call .handler (.findDependentTasks draft.taskId)
  let sibling := siblings.find? fun r => r.taskType == kind.other.taskType
  let reviews : ReviewTasks :=
    (kind, taskId) :: (sibling.map fun r => (kind.other, r.taskId)).toList
  match ← resolveLineageResult draft.taskId with
  | none => finalizeQaFailure taskId violations draft .null .null
  | some (_, ancestorRef) =>
    let campaignId ← call .handler (.campaign taskId)
    retryAttempts taskId draft (.str campaignId) (Json.get ancestorRef "pillar") reviews
      maxQaRetryAttempts 1
      ⟨fun k => if k = kind then violations else [], fun _ => .null⟩

/-- The violations of a review that did not pass are retried where that is possible, and block the
    task otherwise.  The retry loop belongs to whoever holds the draft's advisory lock. -/
def retryOrBlock (taskId : TaskId) (kind : ReviewKind) (draft : TaskRow) (campaignId : Json)
    (reviewed : Reviewed) : Worker Unit :=
  if violationCode ∈ reviewed.violations ∨ draft.taskType ∉ draftRegenTypes then
    finalizeQaFailure taskId reviewed.violations draft (.str reviewed.agentRunId) campaignId
  else do
    if ← call .handler (.tryAdvisoryLock draft.taskId) then
      (runQaRetryLoop taskId kind draft reviewed.violations).thenFinally
        (call .handler (.releaseAdvisoryLock draft.taskId))
    else finalizeQaFailure taskId reviewed.violations draft (.str reviewed.agentRunId) campaignId

/-- `passed_ref`: what a review that passes at once leaves behind. -/
def passedRef (kind : ReviewKind) (draft : TaskRow) (draftRef : ResultRef) (campaignId : Json)
    (reviewed : Reviewed) : ResultRef :=
  Json.update [("pass", .bool true), ("vault_asset_id", Json.get draftRef "vault_asset_id"),
    ("content_hash", reviewed.contentHash), ("draft_task_id", draft.taskId.text),
    ("draft_task_type", .str draft.taskType), ("review_kind", .str kind.text),
    ("agent_run_id", .str reviewed.agentRunId), ("campaign_id", campaignId)]
    (carriedBriefFields draftRef)

/-- The review of a draft that left an asset. -/
def reviewAsset (taskId : TaskId) (kind : ReviewKind) (draft : TaskRow) (draftRef : ResultRef)
    (campaignId : Json) : Worker Unit := do
  let reviewed ← call .handler (.review taskId kind)
  if reviewed.violations = [] then
    completeWith taskId (passedRef kind draft draftRef campaignId reviewed)
  else retryOrBlock taskId kind draft campaignId reviewed

/-- `_block_fact_check_gate_not_approved`. -/
def blockFactCheckGateNotApproved (taskId : TaskId) (draft : TaskRow) (campaignId : Json) :
    Worker Unit :=
  blockWith taskId [("pass", .bool false), ("violations", codes [factCheckGateNotApproved]),
    ("draft_task_id", draft.taskId.text), ("draft_task_type", .str draft.taskType),
    ("campaign_id", campaignId)]

/-- `_single_draft_qa_review`. -/
def singleDraftQaReview (kind : ReviewKind) (envelope : TaskEnvelope) : Worker Unit := do
  let taskId := envelope.taskId
  match ← resolveLineageResult taskId with
  | none => throw .other
  | some (draft, draftRef) =>
    let campaign ← call .handler (.campaign taskId)
    let campaignId := Json.str campaign
    if (Json.get draftRef "vault_asset_id").truthy then
      match kind with
      | .brandSteward => reviewAsset taskId kind draft draftRef campaignId
      | .factCheck =>
        if ← call .handler .factCheckGateApproved then
          reviewAsset taskId kind draft draftRef campaignId
        else blockFactCheckGateNotApproved taskId draft campaignId
    else if (Json.get draftRef "status").truthy then
      -- the draft was deliberately not attempted: there is nothing to review
      completeWith taskId [("status", Json.get draftRef "status"), ("reviewed", .bool false),
        ("reason", Json.get draftRef "reason"), ("draft_task_id", draft.taskId.text),
        ("draft_task_type", .str draft.taskType), ("campaign_id", campaignId)]
    else do
      call .handler (.setResultRef taskId [("pass", .bool false),
        ("violations", codes ["no_reviewable_asset"]), ("draft_task_id", draft.taskId.text),
        ("draft_task_type", .str draft.taskType), ("campaign_id", campaignId)])
      call .handler (.transition taskId .failed .qaBlocked)

/-! ## The dispatch table -/

/-- The task types of `DISPATCH_TABLE` whose handler works on its own task only. -/
def ordinaryTaskTypes : List String :=
  ["competitor-discovery-scan", "competitor-change-monitor", "competitive-positioning-analysis",
    "competitor-content-performance-scout", "fabric-ecosystem-scout",
    "vertical-scan-logistics-fleet", "vertical-scan-mining-industrial",
    "vertical-scan-manufacturing", "vertical-scan-construction", "vertical-scan-fmcg-beverage",
    "vertical-scan-financial-services", "source-discovery-competitors",
    "source-discovery-fabric-ecosystem", "source-discovery-adjacent-industry-regulation",
    "source-discovery-tenders-events-partners", "source-discovery-reputation-community",
    "source-yield-nightly", "source-retire-monthly", "web-reach-allowlist-review-competitors",
    "web-reach-allowlist-review-fabric-ecosystem",
    "web-reach-allowlist-review-adjacent-industry-regulation",
    "web-reach-allowlist-review-tenders-events-partners",
    "web-reach-allowlist-review-reputation-community", "web-reach-allowlist-monthly-review",
    "decision-quality-evaluate", "decision-quality-level-review-monthly", "eval-generator",
    "expertise-corpus-mine", "executive-voice-model", "propose-founder-position",
    "standing-permission-learn", "sales-outcome-infer", "legal-triage-sweep", "incident-diagnose",
    "client-permission-request", "visual-asset-compose", "foundation-drafter-bootstrap",
    "ingest-signals", "propose-sources", "probe-sources", "publish-approved-assets",
    "report-month-end", "dedupe-signal-cards", "competitive-response-strategize",
    "morning-brief-rollup", "executive-brief-rollup", "publish-brief", "score-signals",
    "draft-brief", "qa-review", "draft-content", "request-approval", "plan-content-monday",
    "draft-research-brief", "draft-client-advocacy-harvest", "draft-insight-to-story",
    "draft-executive-ghostwrite", "draft-carousel-post", "draft-newsletter", "draft-case-study",
    "draft-content-repurpose", "schedule-social-buffer", "publish-newsletter", "compose-options",
    "route-digest"]

/-- A handler of the dispatch table. -/
inductive Handler where
  | ordinary
  | qaReview (kind : ReviewKind)
deriving DecidableEq

/-- `DISPATCH_TABLE.get(task_type)`. -/
def dispatchTable (taskType : String) : Option Handler :=
  if taskType = ReviewKind.brandSteward.taskType then some (.qaReview .brandSteward)
  else if taskType = ReviewKind.factCheck.taskType then some (.qaReview .factCheck)
  else if taskType ∈ ordinaryTaskTypes then some .ordinary
  else none

/-- What a handler does once it is called. -/
def Handler.run : Handler → TaskEnvelope → Worker Unit
  | .ordinary => ordinaryHandler
  | .qaReview kind => singleDraftQaReview kind

end CanvasOS.Orchestrator
