/-
  What a dispatch handler talks to, in detail: the task tables, Vault, the model gateway, the checks.

  1. **Calls** (`Call`) — one call of a handler's collaborators each.  The task tables are those of
     `Orchestrator.TaskStore`.
  2. **The world** (`World`) — what the calls read and write, and the log of the calls that were
     executed, newest first.
  3. `step`, `exec` — what a call does and which answers it can give.  What a model says, which
     fresh id Vault picks, what a prompt file holds and what Gatekeeper and Publisher answer is the
     environment's choice; the ledger of agent runs, the gateway's `task_ref` cache, Vault's rows and
     the deterministic checks are not.
-/
import CanvasOS.Lib.Solo
import CanvasOS.Publisher.Publish
import CanvasOS.Review.Verdict

namespace CanvasOS.Dispatch

open Interleave Python Orchestrator Review

/-! ## Calls -/

/-- A row of Vault's `agent_runs`. -/
structure AgentRun where
  agentName : String
  campaignId : String
  functionId : String
  status : String
  input : Json
  output : Json
deriving DecidableEq

/-- A row of Vault's `assets`.  `campaign` is the taxonomy campaign, an id of `campaigns`. -/
structure Asset where
  assetType : String
  agentRunId : String
  campaign : String
  functionId : String
  text : String
  contentHash : String
deriving DecidableEq

/-- A row of Vault's `signals`. -/
structure Signal where
  source : String
  signalType : String
  payload : Object
  campaignId : String
  functionId : String
deriving DecidableEq

/-- A row of Vault's `option_cards`.  `card` is the document `build_card` returns. -/
structure OptionCard where
  agentRunId : String
  producedByFunction : Nat
  card : Object
deriving DecidableEq

/-- A row of Vault's `opportunity_cards`.  A score is rounded to four decimals: it is kept in
    ten-thousandths. -/
structure OpportunityCard where
  signalId : String
  title : String
  score : Nat
  campaignId : String
  functionId : String
  pillar : String
  soWhat : String
  sourceUrl : String
  confidence : String
deriving DecidableEq

/-- A completion request as the gateway sees it.  `user` is what `json.dumps` writes. -/
structure Completion where
  model : String
  systemPrompt : String
  user : Json
  agentRunId : String
  contentClass : Option String
  maxTokens : Nat
  taskRef : String
deriving DecidableEq

/-- The body of `POST /gate-check`; `details` are the preview fields and the subject. -/
structure GateCheck where
  agentRunId : String
  functionId : String
  actionClass : String
  contentHash : String
  details : Object
deriving DecidableEq

/-- The body of `POST /publish`.  `text` is what `asset_bytes_b64` encodes. -/
structure PublishBody where
  agentRunId : String
  functionId : String
  text : String
  gateToken : String
  assetId : String
deriving DecidableEq

/-- What the clearance check is given: a text to read, or the names a caller declares. -/
inductive Mentions where
  | text (draftText : String)
  | declared (names : List String)
deriving DecidableEq

/-- The calls. -/
inductive Call where
  | db (q : Query)
  /-- `get_ledgered_agent_run` under the key `uuid5(task_id, "agent_run:<ordinal>")` -/
  | getLedgeredAgentRun (taskId : TaskId) (ordinal : Nat)
  | recordLedgeredAgentRun (taskId : TaskId) (ordinal : Nat) (agentRunId : String)
  | createAgentRun (run : AgentRun)
  | getAgentRun (agentRunId : String)
  | updateAgentRun (agentRunId status : String) (output : Json)
  | getOrCreateCampaign (runName functionId : String)
  | getBrief (briefId : String)
  | getAsset (assetId : String)
  | createAsset (assetType agentRunId campaign functionId text : String)
  | readPrompt (dir : String)
  | complete (request : Completion)
  /-- `find_uncleared_in_text` or `find_uncleared_references` -/
  | clearance (mentions : Mentions)
  /-- `brand_rules.reconcile_violations` -/
  | brandRules (violations : List Json) (draftText : String)
  /-- the newest `limit` signals, newest first -/
  | listSignals (limit : Nat)
  | getSignal (signalId : String)
  | createSignal (signal : Signal)
  /-- the oldest `limit` cards that are neither decided nor expired, oldest first -/
  | listPendingOptionCards (limit : Nat)
  /-- `build_card` and `create_option_card`: the id is `build_card`'s, and fresh -/
  | createOptionCard (card : OptionCard)
  | createOpportunityCard (card : OpportunityCard)
  | findAwaitingPublication (taskTypes : List String)
  | getApprovalStatus (agentRunId functionId contentHash : String)
  | gateCheck (body : GateCheck)
  /-- the task it is issued for is not part of the request -/
  | publish (taskId : TaskId) (body : PublishBody)
  | registerUtmCampaign (utmCampaignSlug vaultCampaignId : Json) (assetId : String)
  | recordScheduledPost (channel : String)
deriving DecidableEq

/-- What each call answers with. -/
abbrev Call.Res : Call → Type
  | .db q => q.Res
  | .getLedgeredAgentRun _ _ => Option String
  | .recordLedgeredAgentRun _ _ _ => Unit
  | .createAgentRun _ => String
  | .getAgentRun _ => String
  | .updateAgentRun _ _ _ => Unit
  | .getOrCreateCampaign _ _ => String
  | .getBrief _ => Json
  | .getAsset _ => Asset
  | .createAsset _ _ _ _ _ => String × String
  | .readPrompt _ => String
  | .complete _ => Content
  | .clearance _ => List String
  | .brandRules _ _ => List Json × List Json
  | .listSignals _ => List (String × Signal)
  | .getSignal _ => Signal
  | .createSignal _ => String
  | .listPendingOptionCards _ => List (String × OptionCard)
  | .createOptionCard _ => String
  | .createOpportunityCard _ => String
  | .findAwaitingPublication _ => List TaskRow
  | .getApprovalStatus _ _ _ => Json
  | .gateCheck _ => Object
  | .publish _ _ => Publisher.PublishResponse
  | .registerUtmCampaign _ _ _ => Unit
  | .recordScheduledPost _ => Unit

/-- A call that was executed, and its answer. -/
abbrev Entry := (c : Call) × c.Res

/-- What a handler raises: a `DispatchError` of its own, or whatever a call raised. -/
inductive Failure where
  | dispatchError (message : String)
  | raised
deriving DecidableEq

/-- A handler, or a part of one. -/
abbrev Routine := Prog Call Call.Res Failure

/-- One call, its exception propagated. -/
def ask (c : Call) : Routine c.Res := Prog.perform c

/-! ## The world -/

/-- A post that Publisher queued in Buffer. -/
structure BufferDraft where
  assetId : String
  text : String
  utmCampaign : Option String
deriving DecidableEq

/-- The state behind the calls. -/
structure World where
  tables : State
  /-- `agent_run_ledger`: task and ordinal to agent run -/
  ledger : List ((TaskId × Nat) × String)
  runs : List (String × AgentRun)
  campaigns : List (String × String)
  assets : List (String × Asset)
  /-- the gateway's `completions`, by `task_ref`: the request that was computed, and its response -/
  completions : List (String × (Completion × Content))
  /-- newest first -/
  signals : List (String × Signal)
  optionCards : List (String × OptionCard)
  /-- the cards that are neither decided nor expired, oldest first -/
  pendingCards : List String
  opportunityCards : List (String × OpportunityCard)
  /-- `analytics.utm_campaign_map` -/
  utmCampaignMap : List (String × (Json × String))
  drafts : List BufferDraft
  log : List Entry

/-- The value stored under `key`. -/
def find {κ ν : Type} [BEq κ] (rows : List (κ × ν)) (key : κ) : Option ν :=
  (rows.find? fun kv => kv.1 == key).map Prod.snd

/-- The rows `find_awaiting_publication` selects. -/
def awaitingPublication (taskTypes : List String) (row : TaskRow) : Bool :=
  row.taskType ∈ taskTypes && row.state == .completed &&
    row.resultRef.any fun ref =>
      (Json.lookup ref "approval_id").isSome && (Json.lookup ref "publish_attempt_id").isNone

/-- One call against the world, its log apart. -/
def step (P : Policies) : (c : Call) → c.Res → World → Option (c.Res × World)
  | .db q, answer, w =>
    (Orchestrator.exec q answer w.tables).map fun x => (x.1, { w with tables := x.2 })
  | .getLedgeredAgentRun taskId ordinal, _, w => some (find w.ledger (taskId, ordinal), w)
  | .recordLedgeredAgentRun taskId ordinal agentRunId, _, w =>
    -- ON CONFLICT DO NOTHING
    if (find w.ledger (taskId, ordinal)).isSome then some ((), w)
    else some ((), { w with ledger := ((taskId, ordinal), agentRunId) :: w.ledger })
  | .createAgentRun run, id, w =>
    if (find w.runs id).isSome then none else some (id, { w with runs := (id, run) :: w.runs })
  | .getAgentRun id, _, w => (find w.runs id).map fun _ => (id, w)
  | .updateAgentRun id status output, _, w =>
    some ((), { w with runs := w.runs.map fun kv =>
      if kv.1 = id then (id, { kv.2 with status := status, output := output }) else kv })
  | .getOrCreateCampaign runName _, id, w =>
    match find w.campaigns runName with
    | some known => some (known, w)
    | none => some (id, { w with campaigns := (runName, id) :: w.campaigns })
  | .getBrief _, body, w => some (body, w)
  | .getAsset id, _, w => (find w.assets id).map fun asset => (asset, w)
  | .createAsset assetType agentRunId campaign functionId text, (id, contentHash), w =>
    if (find w.assets id).isSome then none
    else some ((id, contentHash), { w with
      assets := (id, ⟨assetType, agentRunId, campaign, functionId, text, contentHash⟩) :: w.assets })
  | .readPrompt _, prompt, w => some (prompt, w)
  | .complete request, content, w =>
    -- `get_or_compute`: a `task_ref` that has been answered is answered the same again
    match find w.completions request.taskRef with
    | some stored => some (stored.2, w)
    | none => some (content, { w with
        completions := (request.taskRef, (request, content)) :: w.completions })
  | .clearance (.text draftText), _, w => some (P.uncleared draftText, w)
  | .clearance (.declared names), _, w =>
    some (findUnclearedReferences P.unicode P.register names, w)
  | .brandRules violations draftText, _, w =>
    some (reconcileViolations P.unicode violations draftText, w)
  | .listSignals limit, _, w => some (w.signals.take limit, w)
  | .getSignal id, _, w => (find w.signals id).map fun signal => (signal, w)
  | .createSignal signal, id, w =>
    if (find w.signals id).isSome then none
    else some (id, { w with signals := (id, signal) :: w.signals })
  | .listPendingOptionCards limit, _, w =>
    some ((w.pendingCards.take limit).filterMap fun id =>
      (find w.optionCards id).map fun card => (id, card), w)
  | .createOptionCard card, id, w =>
    if (find w.optionCards id).isSome then none
    else some (id, { w with
      optionCards := (id, card) :: w.optionCards, pendingCards := w.pendingCards ++ [id] })
  | .createOpportunityCard card, id, w =>
    if (find w.opportunityCards id).isSome then none
    else some (id, { w with opportunityCards := (id, card) :: w.opportunityCards })
  | .findAwaitingPublication taskTypes, answer, w =>
    if answer.isPerm (w.tables.tasks.filter (awaitingPublication taskTypes)) then some (answer, w)
    else none
  | .getApprovalStatus _ _ _, answer, w => some (answer, w)
  | .gateCheck _, answer, w => some (answer, w)
  | .publish _ body, answer, w =>
    -- the publisher's own lookup of the asset, whose campaign labels the post; a dry run queues none
    (find w.assets body.assetId).map fun asset =>
      (answer, if answer.reason = Publisher.reasonPublished then { w with
        drafts := ⟨body.assetId, body.text, some asset.campaign⟩ :: w.drafts } else w)
  | .registerUtmCampaign slug campaignId assetId, _, w =>
    if slug.truthy = false then some ((), w)
    else match slug with
      | .str slug =>
        -- ON CONFLICT DO NOTHING
        if (find w.utmCampaignMap slug).isSome then some ((), w)
        else some ((), { w with
          utmCampaignMap := (slug, (campaignId, assetId)) :: w.utmCampaignMap })
      | _ => none
  | .recordScheduledPost _, _, w => some ((), w)

/-- One call against the world. -/
def exec (P : Policies) (c : Call) (answer : c.Res) (w : World) : Option (c.Res × World) :=
  (step P c answer w).map fun x => (x.1, { x.2 with log := ⟨c, x.1⟩ :: x.2.log })

/-! ## Routines the handlers share -/

/-- A routine over the task tables alone. -/
def onTables {α : Type} : Worker α → Routine α
  | .pure a => .pure a
  | .throw _ => .throw .raised
  | .op o k => .op (.db o.query) fun
    | .ok a => onTables (k (.ok a))
    | .error _ => onTables (k (.error .other))

theorem onTables_bind {α β : Type} {x : Worker α} {f : α → Worker β} :
    onTables (x.bind f) = (onTables x).bind fun a => onTables (f a) := by
  induction x with
  | pure a => rfl
  | throw e => rfl
  | op o k ih =>
    rw [Prog.op_bind, onTables, onTables, Prog.op_bind]
    congr 1
    funext r
    cases r with
    | ok a => exact ih _
    | error e => exact ih _

/-- One level of the walk to an ancestor. -/
theorem walkLineage_step {start : TaskId} {hops : Nat} {frontier seen : List TaskId}
    (hne : frontier ≠ []) :
    walkLineage start (hops + 1) frontier seen =
      (call .handler (.getTasks frontier)).bind fun rows =>
        match scanFrontier start rows frontier seen [] with
        | .inl found => .pure (some found)
        | .inr (seen, next) => walkLineage start hops next seen := by
  rw [walkLineage, if_neg hne]
  rfl

theorem find_taskId {rows : List TaskRow} {taskId : TaskId} {row : TaskRow}
    (h : (rows.find? fun r => r.taskId == taskId) = some row) :
    row ∈ rows ∧ row.taskId = taskId :=
  ⟨List.mem_of_find?_eq_some h, by simpa using List.find?_some h⟩

/-- `create_agent_run_idempotent`, of a Vault client that has made `calls` such calls since it was
    opened. -/
def createAgentRunIdempotent (taskId : TaskId) (calls : Nat) (run : AgentRun) :
    Routine String := do
  match ← ask (.getLedgeredAgentRun taskId (calls + 1)) with
  | some existing => ask (.getAgentRun existing)
  | none =>
    let created ← ask (.createAgentRun run)
    ask (.recordLedgeredAgentRun taskId (calls + 1) created)
    pure created

/-- `_complete_and_meter`.  The read-back of the cost never fails the handler. -/
def completeAndMeter (model systemPrompt : String) (user : Json) (agentRunId : String)
    (contentClass : Option String) (maxTokens : Nat) (taskRef : Option String) :
    Routine Content :=
  ask (.complete ⟨model, systemPrompt, user, agentRunId, contentClass, maxTokens,
    taskRef.getD agentRunId⟩)

/-- `_parse_json_content`. -/
def parseJsonContent : Content → Routine Object
  | some verdict => pure verdict
  | none => throw (.dispatchError "model response was not valid JSON")

/-- The envelope of a task, the fields a handler reads. -/
structure Envelope where
  taskId : TaskId
  /-- `_campaign_name`: `run-` and the envelope's campaign id -/
  campaignName : String
  proofCircuit : Bool
deriving DecidableEq

/-- `_agent_name`. -/
def agentName (baseName : String) (envelope : Envelope) : String :=
  if envelope.proofCircuit then "loop-proof-circuit" else baseName

end CanvasOS.Dispatch
