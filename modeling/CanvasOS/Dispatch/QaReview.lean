/-
  The Thursday reviews of `handlers/qa_retry.py`, call by call.

  1. `reviewDraft` — the review of a draft that left an asset: one Vault client, one agent run, one
     completion, the deterministic checks.
  2. `retryLoop` — the regenerate-and-recheck attempts, under a Vault client of their own.
  3. `singleDraftQaReview` — the handler.

  What these routines do to the task tables is what `Orchestrator.Handlers` has them do; the parts
  written there are used as they are (`onTables`).
-/
import CanvasOS.Dispatch.Store
import CanvasOS.Dispatch.Rendering

namespace CanvasOS.Dispatch

open Interleave Python Orchestrator Review

/-! ## Requests -/

/-- `prompt_dir` of `_QA_REVIEW_PARAMS`. -/
def reviewPromptDir (kind : ReviewKind) : String := functionId kind

/-- `agent_name` of `_QA_REVIEW_PARAMS`. -/
def reviewAgentName : ReviewKind → String
  | .brandSteward => "brand-steward-qa"
  | .factCheck => "fact-check-verdict"

/-- `_review_channel`. -/
def reviewChannel (draftTaskType : String) : String :=
  if draftTaskType = "draft-newsletter" then "email"
  else if draftTaskType = "draft-case-study" then "web"
  else "linkedin"

/-- `x or []`. -/
def orEmpty (value : Json) : Json := if value.truthy then value else .arr []

/-- The id a decoded value names; a value that is not a string names nothing. -/
def idOf : Json → String
  | .str s => s
  | _ => ""

/-- The payload of an ordinary review. -/
def reviewPayload (kind : ReviewKind) (draftText channel : String) (proofPoints : Json) : Json :=
  .obj ([("draft_text", .str draftText), ("client_references", .arr []),
      ("channel", .str channel)] ++
    match kind with
    | .brandSteward => []
    | .factCheck => [("proof_points", proofPoints)])

/-- The payload of a check of the retry loop. -/
def recheckPayload (draftText : String) : Json :=
  .obj [("draft_text", .str draftText), ("client_references", .arr []),
    ("channel", .str "linkedin")]

/-- A violation code; a code that is not a string is none of those anybody looks for. -/
def codeText : Json → String
  | .str s => s
  | _ => "?"

/-- `content_class` of every completion here. -/
def publicSourceContent : Option String := some "public_source_content"

/-! ## Regeneration -/

/-- An entry of `_DRAFT_REGEN_PARAMS`. -/
structure RegenParams where
  functionId : String
  promptDir : String
  agentName : String
  assetType : String
  renderDraftText : Object → Option String
  maxTokens : Nat

/-- `_DRAFT_REGEN_PARAMS.get(draft_task_type)`. -/
def draftRegenParams (draftTaskType : String) : Option RegenParams :=
  if draftTaskType = "draft-insight-to-story" then
    some ⟨"39-insight-to-story-editor", "39-insight-to-story-editor", "insight-to-story-editor",
      "linkedin_post", renderSimplePost, 2048⟩
  else if draftTaskType = "draft-executive-ghostwrite" then
    some ⟨"43-executive-ghostwriter", "43-executive-ghostwriter", "executive-ghostwriter",
      "linkedin_post", renderSimplePost, 2560⟩
  else if draftTaskType = "draft-carousel-post" then
    some ⟨"45-carousel-post-writer", "45-carousel-post-writer", "carousel-post-writer",
      "carousel_post", renderCarousel, 2560⟩
  else if draftTaskType = "draft-newsletter" then
    some ⟨"46-newsletter-writer", "46-newsletter-writer", "newsletter-writer", "newsletter",
      renderNewsletter, 3584⟩
  else if draftTaskType = "draft-case-study" then
    some ⟨"47-case-study-writer", "47-case-study-writer", "case-study-writer", "case_study",
      renderCaseStudy, 4096⟩
  else none

/-- The draft types with a recipe are those the task tables know as retryable. -/
theorem draftRegenParams_isSome {t : String} :
    (draftRegenParams t).isSome ↔ t ∈ draftRegenTypes := by
  unfold draftRegenParams draftRegenTypes
  split_ifs <;> simp_all

/-- The anti-hollowing instruction of `_regenerate_draft_content`. -/
def revisionInstruction : String :=
  "This is a revision, not a new draft. The previous draft above failed QA review on exactly the " ++
  "violations listed. Fix only those specific issues. Do not remove the call to action, do not " ++
  "remove or alter the canvasintelligence.com URL, do not drop any proof point, statistic, or " ++
  "named product/partner reference that was not itself flagged. Keep the output approximately " ++
  "the same length and shape as the previous draft unless a flagged violation requires otherwise."

/-- What the attempts of one retry loop have in common. -/
structure Retry where
  envelope : Envelope
  draft : TaskRow
  params : RegenParams
  campaignId : String
  briefBody : Json
  pillar : Json
  vertical : Json
  audienceNote : Json
  reviews : ReviewTasks

/-- The payload of a regeneration. -/
def regenPayload (c : Retry) (previousDraftText : String) (violations : List String) : Json :=
  .obj [("brief", c.briefBody), ("pillar", c.pillar), ("vertical", c.vertical),
    ("audience_note", c.audienceNote),
    ("revision_feedback", .obj [("previous_draft", .str previousDraftText),
      ("violations_to_fix", codes violations), ("instruction", .str revisionInstruction)])]

/-- `_regenerate_draft_content`: the revised text and its agent run. -/
def regenerateDraftContent (c : Retry) (calls : Nat) (previousDraftText : String)
    (violations : List String) (attempt : Nat) : Routine (String × String) := do
  let agentRun ← createAgentRunIdempotent c.envelope.taskId calls
    ⟨agentName c.params.agentName c.envelope, c.campaignId, c.params.functionId, "running",
      .obj [("pillar", c.pillar), ("retry_attempt", .int attempt),
        ("revision_violations", codes violations)], .obj []⟩
  let systemPrompt ← ask (.readPrompt c.params.promptDir)
  let content ← completeAndMeter "claude-sonnet" systemPrompt
    (regenPayload c previousDraftText violations) agentRun publicSourceContent c.params.maxTokens
    none
  let output ← parseJsonContent content
  match c.params.renderDraftText output with
  | none => throw .raised
  | some draftText =>
    ask (.updateAgentRun agentRun "succeeded" (.obj output))
    pure (draftText, agentRun)

/-- `_run_single_qa_check`: the violations and the agent run. -/
def runSingleQaCheck (envelope : Envelope) (campaignId : String) (calls : Nat) (draftText : String)
    (kind : ReviewKind) : Routine (List String × String) := do
  let systemPrompt ← ask (.readPrompt (reviewPromptDir kind))
  let agentRun ← createAgentRunIdempotent envelope.taskId calls
    ⟨agentName (reviewAgentName kind) envelope, campaignId, functionId kind, "running",
      .obj [("channel", .str "linkedin"), ("review_kind", .str kind.text)], .obj []⟩
  let content ← completeAndMeter "claude-sonnet" systemPrompt (recheckPayload draftText) agentRun
    publicSourceContent 1536 none
  let verdict ← parseJsonContent content
  match declaredViolations verdict with
  | none => throw .raised
  | some declared =>
    let uncleared ← ask (.clearance (.declared []))
    let reconciled ← ask (.brandRules (addUncleared uncleared declared) draftText)
    ask (.updateAgentRun agentRun (if reconciled.1 = [] then "succeeded" else "failed")
      (.obj [("pass", .bool (reconciled.1 = [])), ("violations", .arr reconciled.1)]))
    pure (reconciled.1.map codeText, agentRun)

/-- The fact check of a regenerated draft: no model call while the gate is disabled.  With it, how
    many agent runs the client has asked for by then. -/
def recheckFacts (c : Retry) (calls : Nat) (draftText : String) :
    Routine (List String × Json × Nat) := do
  if ← ask (.db .factCheckGateApproved) then
    let checked ← runSingleQaCheck c.envelope c.campaignId calls draftText .factCheck
    pure (checked.1, .str checked.2, calls + 1)
  else pure ([factCheckGateNotApproved], .null, calls)

/-- `result_ref` of the draft after an attempt. -/
def regeneratedRef (c : Retry) (asset : Regenerated) (attempt : Nat) : ResultRef :=
  [("vault_asset_id", .str asset.vaultAssetId), ("content_hash", .str asset.contentHash),
    ("agent_run_id", .str asset.agentRunId), ("campaign_id", .str c.campaignId),
    ("pillar", c.pillar), ("retry_attempt", .int attempt)]

/-- The attempts are over: both review tasks are blocked, and a card is posted. -/
def giveUp (c : Retry) (attempt : Nat) (checks : Checks) : Routine Unit :=
  onTables do
    finalizeBlocked c.draft (.str c.campaignId) attempt checks c.reviews
    call .handler (.notify c.envelope.taskId)

/-- The attempts of the retry loop, `left` of them from the `attempt`-th on, with a Vault client that
    has asked for `calls` agent runs. -/
def retryAttempts (c : Retry) :
    (left attempt calls : Nat) → (currentDraftText : String) → Checks → Routine Unit
  | 0, attempt, _, _, checks => giveUp c (attempt - 1) checks
  | left + 1, attempt, calls, currentDraftText, checks =>
    if [violationCode, factCheckGateNotApproved].any (· ∈ checks.revisionTargets) then
      giveUp c attempt checks
    else do
      let revised ← regenerateDraftContent c calls currentDraftText checks.revisionTargets attempt
      let stored ← ask (.createAsset c.params.assetType revised.2 c.campaignId c.params.functionId
        revised.1)
      let asset : Regenerated := ⟨stored.1, stored.2, revised.2⟩
      ask (.db (.setResultRef c.draft.taskId (regeneratedRef c asset attempt)))
      let bs ← runSingleQaCheck c.envelope c.campaignId (calls + 1) revised.1 .brandSteward
      let fc ← recheckFacts c (calls + 2) revised.1
      let checks : Checks :=
        ⟨fun | .brandSteward => bs.1 | .factCheck => fc.1,
          fun | .brandSteward => .str bs.2 | .factCheck => fc.2.1⟩
      if bs.1 = [] ∧ fc.1 = [] then
        onTables (finalizePassed c.draft asset (.str c.campaignId) attempt checks c.reviews)
      else retryAttempts c left (attempt + 1) fc.2.2 revised.1 checks

/-- `vault.get_brief(brief_id).get("body") if brief_id else None`. -/
def briefBodyOf (ancestorRef : ResultRef) : Routine Json :=
  if (Json.get ancestorRef "brief_id").truthy then
    ask (.getBrief (idOf (Json.get ancestorRef "brief_id")))
  else pure .null

/-- `_run_qa_retry_loop`.  Its Vault client is opened here: it has asked for no agent run yet. -/
def runQaRetryLoop (envelope : Envelope) (kind : ReviewKind) (draft : TaskRow)
    (params : RegenParams) (violations : List String) (draftText : String) : Routine Unit := do
  let siblings ← ask (.db (.findDependentTasks draft.taskId))
  let sibling := siblings.find? fun r => r.taskType == kind.other.taskType
  let reviews : ReviewTasks :=
    (kind, envelope.taskId) :: (sibling.map fun r => (kind.other, r.taskId)).toList
  match ← onTables (resolveLineageResult draft.taskId) with
  | none => onTables (finalizeQaFailure envelope.taskId violations draft .null .null)
  | some (_, ancestorRef) =>
    let briefBody ← briefBodyOf ancestorRef
    let campaignId ← ask (.getOrCreateCampaign envelope.campaignName params.functionId)
    retryAttempts ⟨envelope, draft, params, campaignId, briefBody, Json.get ancestorRef "pillar",
        Json.get ancestorRef "vertical", Json.get ancestorRef "audience_note", reviews⟩
      maxQaRetryAttempts 1 0 draftText
      ⟨fun k => if k = kind then violations else [], fun _ => .null⟩

/-! ## The review -/

/-- Violations are retried where that is possible, and block the task otherwise. -/
def retryOrBlock (envelope : Envelope) (kind : ReviewKind) (draft : TaskRow) (campaignId : String)
    (draftText agentRun : String) (violations : List String) : Routine Unit :=
  let finalize :=
    onTables (finalizeQaFailure envelope.taskId violations draft (.str agentRun) (.str campaignId))
  match draftRegenParams draft.taskType with
  | none => finalize
  | some params =>
    if violationCode ∈ violations then finalize
    else do
      if ← ask (.db (.tryAdvisoryLock draft.taskId)) then
        (runQaRetryLoop envelope kind draft params violations draftText).thenFinally
          (ask (.db (.releaseAdvisoryLock draft.taskId)))
      else finalize

/-- The review of a draft that left an asset. -/
def reviewDraft (envelope : Envelope) (kind : ReviewKind) (draft : TaskRow) (draftRef : ResultRef)
    (campaignId systemPrompt : String) : Routine Unit := do
  let asset ← ask (.getAsset (idOf (Json.get draftRef "vault_asset_id")))
  let draftText := reviewableDraftText asset.text
  let channel := reviewChannel draft.taskType
  let proofPoints := orEmpty (Json.get draftRef "proof_points")
  if inputConforms kind draftText proofPoints = false then
    throw (.dispatchError (functionId kind ++ ": handler input failed schema.json validation"))
  else
    let agentRun ← createAgentRunIdempotent envelope.taskId 0
      ⟨agentName (reviewAgentName kind) envelope, campaignId, functionId kind, "running",
        .obj [("channel", .str channel), ("review_kind", .str kind.text)], .obj []⟩
    let content ← completeAndMeter "claude-sonnet" systemPrompt
      (reviewPayload kind draftText channel proofPoints) agentRun publicSourceContent 1536 none
    let verdict ← parseJsonContent content
    match resolveVerdict kind verdict with
    | none =>
      throw (.dispatchError (functionId kind ++ ": model output failed schema.json validation"))
    | some (declaredPass, declared) =>
      let uncleared ← ask (.clearance (.text draftText))
      let reconciled ← ask (.brandRules (addUncleared uncleared declared) draftText)
      let violations := conclude declaredPass reconciled
      ask (.updateAgentRun agentRun (if violations = [] then "succeeded" else "failed")
        (.obj [("pass", .bool (violations = [])), ("violations", .arr violations),
          ("notes", Json.get verdict "notes")]))
      if violations = [] then
        onTables (completeWith envelope.taskId (passedRef kind draft draftRef (.str campaignId)
          ⟨.str asset.contentHash, agentRun, []⟩))
      else retryOrBlock envelope kind draft campaignId draftText agentRun (violations.map codeText)

/-- The draft was deliberately not attempted: there is nothing to review. -/
def reviewUndrafted (envelope : Envelope) (draft : TaskRow) (draftRef : ResultRef)
    (campaignId : String) : Routine Unit :=
  onTables (completeWith envelope.taskId [("status", Json.get draftRef "status"),
    ("reviewed", .bool false), ("reason", Json.get draftRef "reason"),
    ("draft_task_id", draft.taskId.text), ("draft_task_type", .str draft.taskType),
    ("campaign_id", .str campaignId)])

/-- The draft left neither an asset nor an account of itself. -/
def blockNoAsset (envelope : Envelope) (draft : TaskRow) (campaignId : String) : Routine Unit := do
  ask (.db (.setResultRef envelope.taskId [("pass", .bool false),
    ("violations", codes ["no_reviewable_asset"]), ("draft_task_id", draft.taskId.text),
    ("draft_task_type", .str draft.taskType), ("campaign_id", .str campaignId)]))
  ask (.db (.transition envelope.taskId .failed .qaBlocked))

/-- `_single_draft_qa_review`. -/
def singleDraftQaReview (kind : ReviewKind) (envelope : Envelope) : Routine Unit := do
  match ← onTables (resolveLineageResult envelope.taskId) with
  | none =>
    throw (.dispatchError (kind.taskType ++ ": no ancestor draft task carries a result_ref to review"))
  | some (draft, draftRef) =>
    let systemPrompt ← ask (.readPrompt (reviewPromptDir kind))
    let campaignId ← ask (.getOrCreateCampaign envelope.campaignName (functionId kind))
    if (Json.get draftRef "vault_asset_id").truthy then
      match kind with
      | .brandSteward => reviewDraft envelope kind draft draftRef campaignId systemPrompt
      | .factCheck =>
        if ← ask (.db .factCheckGateApproved) then
          reviewDraft envelope kind draft draftRef campaignId systemPrompt
        else onTables (blockFactCheckGateNotApproved envelope.taskId draft (.str campaignId))
    else if (Json.get draftRef "status").truthy then
      reviewUndrafted envelope draft draftRef campaignId
    else blockNoAsset envelope draft campaignId

end CanvasOS.Dispatch
