/-
  The two review handlers beside those of Thursday: the daily review (`qa_review_handler`) and the
  options composer (`compose_options_handler`), call by call.

  1. `qaReviewHandler` — one completion of function 02 for a brief, or a draft made from it.
  2. `runOptionQa` — functions 02 and 48 for one candidate, one after the other.
  3. `composeOptionsHandler` — the model writes two alternates, each candidate is reviewed by
     itself, and the survivors become an option card.
-/
import CanvasOS.Dispatch.QaReview
import CanvasOS.OptionsInbox.Cards

namespace CanvasOS.Dispatch

open Interleave Python Orchestrator Review

/-! ## The daily review -/

/-- `QUIET_SCAN_STATUS` -/
def quietScanStatus : String := "quiet_scan"

/-- What a daily review is given: the channel, and the text. -/
def dailyText (ancestor : TaskRow) (ancestorRef : ResultRef) : Routine (String × Json) :=
  if ancestor.taskType = "draft-content" then
    match Json.lookup ancestorRef "vault_asset_id" with
    | none => throw .raised
    | some assetId => do
      let asset ← ask (.getAsset (idOf assetId))
      pure ("linkedin", .str asset.text)
  else
    match Json.lookup ancestorRef "brief_id" with
    | none => throw .raised
    | some briefId => do
      let body ← ask (.getBrief (idOf briefId))
      pure ("internal-brief", if body.truthy then body else .str "")

/-- `passed_ref` of the daily review. -/
def dailyPassedRef (ancestor : TaskRow) (ancestorRef : ResultRef) (campaignId agentRun : String) :
    ResultRef :=
  Json.update [("pass", .bool true), ("vault_asset_id", Json.get ancestorRef "vault_asset_id"),
    ("brief_id", Json.get ancestorRef "brief_id"),
    ("content_hash", Json.get ancestorRef "content_hash"),
    ("draft_task_type", .str ancestor.taskType), ("review_kind", .str "brand_steward"),
    ("agent_run_id", .str agentRun), ("campaign_id", .str campaignId)]
    (carriedBriefFields ancestorRef)

/-- The outcome of a daily review. -/
def finishDaily (envelope : Envelope) (ancestor : TaskRow) (ancestorRef : ResultRef)
    (campaignId agentRun : String) (violations : List Json) : Routine Unit :=
  if violations = [] then
    onTables (completeWith envelope.taskId
      (dailyPassedRef ancestor ancestorRef campaignId agentRun))
  else
    onTables (blockWith envelope.taskId [("pass", .bool false), ("violations", .arr violations),
      ("agent_run_id", .str agentRun), ("campaign_id", .str campaignId)])

/-- The review of a text that is one. -/
def reviewDaily (envelope : Envelope) (ancestor : TaskRow) (ancestorRef : ResultRef)
    (campaignId channel draftText : String) : Routine Unit := do
  let agentRun ← createAgentRunIdempotent envelope.taskId 0
    ⟨agentName "brand-steward-qa" envelope, campaignId, functionId .brandSteward, "running",
      .obj [("channel", .str channel), ("proof_circuit_tag",
        if envelope.proofCircuit then .str "loop-proof-circuit" else .null)], .obj []⟩
  let systemPrompt ← ask (.readPrompt (reviewPromptDir .brandSteward))
  if inputConforms .brandSteward draftText .null = false then
    throw (.dispatchError
      (functionId .brandSteward ++ ": handler input failed schema.json validation"))
  else
    let content ← completeAndMeter "claude-sonnet" systemPrompt
      (reviewPayload .brandSteward draftText channel .null) agentRun publicSourceContent 1536 none
    let verdict ← parseJsonContent content
    match resolveVerdict .brandSteward verdict with
    | none =>
      throw (.dispatchError
        (functionId .brandSteward ++ ": model output failed schema.json validation"))
    | some (declaredPass, declared) =>
      let references ← ask (.clearance (.declared []))
      let named ← ask (.clearance (.text draftText))
      let reconciled ← ask (.brandRules (addUncleared (references ++ named) declared) draftText)
      let violations := conclude declaredPass reconciled
      ask (.updateAgentRun agentRun (if violations = [] then "succeeded" else "failed")
        (.obj [("pass", .bool (violations = [])), ("violations", .arr violations),
          ("notes", Json.get verdict "notes")]))
      finishDaily envelope ancestor ancestorRef campaignId agentRun violations

/-- `qa_review_handler` -/
def qaReviewHandler (envelope : Envelope) : Routine Unit := do
  match ← onTables (resolveLineageResult envelope.taskId) with
  | none =>
    throw (.dispatchError "qa-review: no ancestor task carries a result_ref to validate")
  | some (ancestor, ancestorRef) =>
    if Json.get ancestorRef "status" = .str quietScanStatus then
      onTables (completeWith envelope.taskId [("status", .str quietScanStatus),
        ("stage", .str "qa-review"), ("reason", .str "upstream reported a quiet scan")])
    else
      let campaignId ← ask (.getOrCreateCampaign envelope.campaignName (functionId .brandSteward))
      let given ← dailyText ancestor ancestorRef
      match given.2 with
      | .str draftText => reviewDaily envelope ancestor ancestorRef campaignId given.1 draftText
      | _ => throw (.dispatchError
          (functionId .brandSteward ++ ": handler input failed schema.json validation"))

/-! ## The review of an option -/

/-- `FUNCTION_ID_116` -/
def composerFunctionId : String := "116-options-composer"

/-- What the reviews of one call have in common. -/
structure Composing where
  envelope : Envelope
  draft : TaskRow
  vaultAssetId : String
  campaignId : String
  agentRun : String
  proofPoints : Json

/-- One of the two checks of `_run_option_qa`: whether it passes, and its violations. -/
def optionCheck (kind : ReviewKind) (c : Composing) (calls : Nat) (text optionLabel : String) :
    Routine (Bool × List Json) := do
  let channel := reviewChannel c.draft.taskType
  let agentRun ← createAgentRunIdempotent c.envelope.taskId calls
    ⟨agentName (reviewAgentName kind) c.envelope, c.campaignId, functionId kind, "running",
      .obj [("channel", .str channel), ("review_kind", .str kind.text),
        ("option", .str optionLabel)], .obj []⟩
  if inputConforms kind text c.proofPoints = false then
    throw (.dispatchError (functionId kind ++ ": handler input failed schema.json validation"))
  else
    let systemPrompt ← ask (.readPrompt (reviewPromptDir kind))
    let content ← completeAndMeter "claude-sonnet" systemPrompt
      (reviewPayload kind text channel c.proofPoints) agentRun publicSourceContent 1536 none
    let verdict ← parseJsonContent content
    match resolveVerdict kind verdict with
    | none =>
      throw (.dispatchError (functionId kind ++ ": model output failed schema.json validation"))
    | some resolved =>
      ask (.updateAgentRun agentRun (if resolved.1 then "succeeded" else "failed") (.obj verdict))
      pure resolved

/-- `_run_option_qa`, with a client that has asked for `calls` agent runs. -/
def runOptionQa (c : Composing) (calls : Nat) (text optionLabel : String) :
    Routine (Bool × List Json) := do
  let brand ← optionCheck .brandSteward c calls text optionLabel
  let fact ← optionCheck .factCheck c (calls + 1) text optionLabel
  let uncleared ← ask (.clearance (.text text))
  let reconciled ← ask (.brandRules (addUncleared uncleared (brand.2 ++ fact.2)) text)
  pure (decide (reconciled.1 = []), reconciled.1)

/-! ## The composer's input and output -/

/-- One proof point: claim and source are strings where they are given. -/
def pointConforms : Json → Bool
  | .obj kvs => ["claim", "source"].all fun key =>
    match Json.lookup kvs key with
    | some value => (asStr value).isSome
    | none => true
  | _ => false

/-- `_validate_function_input` of function 116. -/
def composerInputConforms (originalText : String) (pillar campaign proofPoints : Json) : Bool :=
  originalText != "" && (asStr pillar).isSome && (asStr campaign).isSome &&
    match proofPoints with
    | .arr points => points.all pointConforms
    | _ => false

/-- One of the model's alternates. -/
structure Alternate where
  text : String
  distinctnessAxis : String
  predictedOutcome : String

def alternateOf : Json → Option Alternate
  | .obj kvs => do
    guard (kvs.all fun kv => kv.1 ∈ ["text", "distinctness_axis", "predicted_outcome"])
    let text ← asStr (Json.get kvs "text")
    let distinctnessAxis ← asStr (Json.get kvs "distinctness_axis")
    let predictedOutcome ← asStr (Json.get kvs "predicted_outcome")
    guard (text ≠ "" ∧ distinctnessAxis.length ≤ 80 ∧ predictedOutcome.length ≤ 300)
    some ⟨text, distinctnessAxis, predictedOutcome⟩
  | _ => none

/-- The model's output. -/
structure Composed where
  first : Alternate
  second : Alternate
  recommended : String
  rationale : String

/-- `_validate_function_output` of function 116; `none` is its exception. -/
def composedOf (output : Object) : Option Composed := do
  guard (output.all fun kv => kv.1 ∈ ["alternates", "recommended", "rationale"])
  let recommended ← asStr (Json.get output "recommended")
  let rationale ← asStr (Json.get output "rationale")
  guard (recommended ∈ ["original", "alt_1", "alt_2"] ∧ rationale.length ≤ 600)
  match Json.get output "alternates" with
  | .arr [a, b] => do
    let first ← alternateOf a
    let second ← alternateOf b
    some ⟨first, second, recommended, rationale⟩
  | _ => none

/-- A text to choose from. -/
structure Candidate where
  source : String
  text : String
  distinctnessAxis : Option String
  predictedOutcome : Option String

/-- `candidates`, with their letters. -/
def candidatesOf (originalText : String) (out : Composed) : List (String × Candidate) :=
  [("A", ⟨"original", originalText, none, none⟩),
    ("B", ⟨"alt_1", out.first.text, some out.first.distinctnessAxis,
      some out.first.predictedOutcome⟩),
    ("C", ⟨"alt_2", out.second.text, some out.second.distinctnessAxis,
      some out.second.predictedOutcome⟩)]

/-- The loop over the candidates: `surviving`. -/
def reviewCandidates (c : Composing) :
    (calls : Nat) → List (String × Candidate) → Routine (List (String × Candidate))
  | _, [] => pure []
  | calls, (letter, candidate) :: rest => do
    let qa ← runOptionQa c calls candidate.text (c.draft.taskType ++ ":" ++ candidate.source)
    let surviving ← reviewCandidates c (calls + 2) rest
    pure (if qa.1 then (letter, candidate) :: surviving else surviving)

/-! ## The card -/

/-- `s[:n]` -/
def firstChars (n : Nat) (s : String) : String := String.ofList (s.toList.take n)

/-- `x or default`, of a text that may be missing. -/
def orText (text : Option String) (default : String) : String :=
  match text with
  | none | some "" => default
  | some s => s

/-- `_option_evidence_refs` -/
def optionEvidenceRefs (proofPoints : Json) (vaultAssetId : String) : List Object :=
  match proofPoints with
  | .arr (point :: points) => (point :: points).map fun p =>
    let field (key : String) : Option String :=
      match p with
      | .obj kvs => asStr (Json.get kvs key)
      | _ => none
    [("source_type", .str "web_source"), ("ref", .str (orText (field "source") "unknown")),
      ("quote", .str (firstChars 300 (orText (field "claim") ""))), ("authority", .str "primary")]
  | _ => [[("source_type", .str "vault_asset"), ("ref", .str vaultAssetId),
      ("authority", .str "primary")]]

/-- One of the `options`. -/
def optionOf (c : Composing) (x : String × Candidate) : Object :=
  [("option_id", .str x.1), ("label", .str ("Option " ++ x.1)),
    ("summary", .str (firstChars 400 x.2.text)),
    ("payload_ref", .str (if x.2.source = "original" then "vault://asset/" ++ c.vaultAssetId
      else "vault://agent-run/" ++ c.agentRun ++ "/" ++ x.2.source)),
    ("evidence_refs", .arr ((optionEvidenceRefs c.proofPoints c.vaultAssetId).map .obj)),
    ("predicted_outcome", .str (orText x.2.predictedOutcome
      "Engagement in line with this pillar's recent posts.")),
    ("risks", .arr []),
    ("distinctness_axis", .str (orText x.2.distinctnessAxis "original draft, unmodified"))]

/-- The letter of the recommended candidate, or of the first one where that did not survive. -/
def recommendedLetter (recommended : String) (surviving : List (String × Candidate)) : String :=
  ((surviving.find? fun x => x.2.source == recommended).map Prod.fst).getD
    ((surviving.head?.map Prod.fst).getD "")

/-- What a card is built with: the matrix, the contract, and how a time is written. -/
structure CardPolicy where
  matrix : OptionsInbox.AutonomyMatrix
  validation : OptionsInbox.Validation
  isoformat : OptionsInbox.Moment → String

/-- The arguments of `build_card`, with its `uuid4` and the time. -/
def cardRequest (c : Composing) (cardId : String) (now : OptionsInbox.Moment) (out : Composed)
    (surviving : List (String × Candidate)) : OptionsInbox.CardRequest where
  cardId := cardId
  kind := "content.reply"
  level := 2
  title := firstChars 120 (c.draft.taskType ++ ": choose the version to publish")
  decisionQuestion := "Which version should go out?"
  options := surviving.map (optionOf c)
  recommended := recommendedLetter out.recommended surviving
  evidenceRefs := optionEvidenceRefs c.proofPoints c.vaultAssetId
  producedBy := [("function_id", .int 116), ("prompt_version", .str "0.1.0")]
  registerRows := ["H9"]
  rationale := out.rationale
  contextSummary := ""
  novelStance := false
  lineage := some [("agent_run_id", .str c.agentRun), ("source_task_id", c.envelope.taskId.text)]
  now := now
  expiresHours := none
  defaultsEarned := false

/-- The card as a document. -/
def cardDocument (isoformat : OptionsInbox.Moment → String) (card : OptionsInbox.OptionCard) :
    Object :=
  [("card_id", .str card.cardId), ("kind", .str card.kind),
    ("autonomy_level", .int card.autonomyLevel), ("risk_tier", .str card.riskTier),
    ("title", .str card.title), ("decision_question", .str card.decisionQuestion),
    ("context_summary", .str card.contextSummary), ("options", .arr (card.options.map .obj)),
    ("recommended_option_id", .str card.recommendedOptionId),
    ("recommendation_rationale", .str card.recommendationRationale),
    ("evidence_refs", .arr (card.evidenceRefs.map .obj)), ("novel_stance", .bool card.novelStance),
    ("produced_by", .obj card.producedBy), ("created_at", .str (isoformat card.createdAt)),
    ("expires_at", .str (isoformat card.expiresAt)),
    ("default_on_timeout", (card.defaultOnTimeout.map Json.str).getD .null),
    ("budget_class", .str card.budgetClass), ("register_rows", codes card.registerRows)] ++
    (card.lineage.map fun lineage => ("lineage", .obj lineage)).toList

/-! ## The handler -/

/-- There is no draft to compose options from. -/
def notComposed (envelope : Envelope) (draft : TaskRow) (draftRef : ResultRef) : Routine Unit := do
  let campaignId ← ask (.getOrCreateCampaign envelope.campaignName composerFunctionId)
  let status := Json.get draftRef "status"
  let ref : ResultRef := [("composed", .bool false),
    ("status", if status.truthy then status else .str "no_reviewable_asset"),
    ("draft_task_id", draft.taskId.text), ("draft_task_type", .str draft.taskType),
    ("campaign_id", .str campaignId)]
  if status.truthy then onTables (completeWith envelope.taskId ref)
  else do
    ask (.db (.setResultRef envelope.taskId ref))
    ask (.db (.transition envelope.taskId .failed .qaBlocked))

/-- Fewer than two candidates have survived. -/
def composeBlocked (c : Composing) (survivingCount : Nat) : Routine Unit := do
  ask (.updateAgentRun c.agentRun "failed" (.obj [("surviving_count", .int survivingCount)]))
  ask (.db (.setResultRef c.envelope.taskId [("pass", .bool false),
    ("reason", .str "fewer_than_2_options_survived_qa"), ("surviving_count", .int survivingCount),
    ("campaign_id", .str c.campaignId)]))
  ask (.db (.transition c.envelope.taskId .failed .qaBlocked))

/-- The card is built from those that have. -/
def composeCard (K : CardPolicy) (c : Composing) (cardId : String) (now : OptionsInbox.Moment)
    (output : Object) (out : Composed) (surviving : List (String × Candidate)) : Routine Unit :=
  match OptionsInbox.buildCard K.matrix K.validation (cardRequest c cardId now out surviving) with
  | .error _ => throw .raised
  | .ok card => do
    let created ← ask (.createOptionCard ⟨c.agentRun, 116, cardDocument K.isoformat card⟩)
    ask (.updateAgentRun c.agentRun "succeeded" (.obj output))
    onTables (completeWith c.envelope.taskId [("pass", .bool true), ("card_id", .str created),
      ("agent_run_id", .str c.agentRun), ("campaign_id", .str c.campaignId),
      ("surviving_count", .int surviving.length)])

/-- The reviews, and what comes of them. -/
def reviewAndCompose (K : CardPolicy) (c : Composing) (cardId : String)
    (now : OptionsInbox.Moment) (originalText : String) (output : Object) : Routine Unit :=
  match composedOf output with
  | none => throw (.dispatchError
      (composerFunctionId ++ ": model output failed schema.json validation"))
  | some out => do
    let surviving ← reviewCandidates c 1 (candidatesOf originalText out)
    if surviving.length < 2 then composeBlocked c surviving.length
    else composeCard K c cardId now output out surviving

/-- The draft is there: its alternates are written, and reviewed with it. -/
def composeFrom (K : CardPolicy) (envelope : Envelope) (cardId : String)
    (now : OptionsInbox.Moment) (draft : TaskRow) (draftRef : ResultRef) : Routine Unit := do
  let campaignId ← ask (.getOrCreateCampaign envelope.campaignName composerFunctionId)
  let vaultAssetId := idOf (Json.get draftRef "vault_asset_id")
  let asset ← ask (.getAsset vaultAssetId)
  let originalText := reviewableDraftText asset.text
  let agentRun ← createAgentRunIdempotent envelope.taskId 0
    ⟨agentName "options-composer" envelope, campaignId, composerFunctionId, "running",
      .obj [("draft_task_type", .str draft.taskType), ("draft_task_id", draft.taskId.text)],
      .obj []⟩
  let pillar := Json.get draftRef "pillar"
  let campaign := Json.get draftRef "campaign"
  let proofPoints := orEmpty (Json.get draftRef "proof_points")
  if composerInputConforms originalText pillar campaign proofPoints = false then
    throw (.dispatchError (composerFunctionId ++ ": handler input failed schema.json validation"))
  else
    let systemPrompt ← ask (.readPrompt composerFunctionId)
    let content ← completeAndMeter "claude-sonnet" systemPrompt
      (.obj [("original_draft_text", .str originalText), ("pillar", pillar),
        ("campaign", campaign), ("proof_points", proofPoints)])
      agentRun publicSourceContent 3072 none
    let output ← parseJsonContent content
    reviewAndCompose K ⟨envelope, draft, vaultAssetId, campaignId, agentRun, proofPoints⟩ cardId now
      originalText output

/-- `compose_options_handler` -/
def composeOptionsHandler (K : CardPolicy) (envelope : Envelope) (cardId : String)
    (now : OptionsInbox.Moment) : Routine Unit := do
  match ← onTables (resolveLineageResult envelope.taskId) with
  | none =>
    throw (.dispatchError "compose-options: no wednesday-draft ancestor carries a result_ref")
  | some (draft, draftRef) =>
    if (Json.get draftRef "vault_asset_id").truthy then
      composeFrom K envelope cardId now draft draftRef
    else notComposed envelope draft draftRef

end CanvasOS.Dispatch
