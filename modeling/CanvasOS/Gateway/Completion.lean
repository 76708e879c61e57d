/-
  `POST /v1/completions` of the model gateway (`handle_completion` in `completion.py`) with its
  redaction firewall (`redaction.py`).

  1. `GatewayOp` — what the handler asks of others: a regular expression, the routing table, the
     audit table, the cache, the budget, the provider, the meter.
  2. `scanRequest` — the firewall: every text is searched for every pattern in turn, and the first
     hit ends the scan.
  3. `handleCompletion` — the handler, in the order of its own steps.

  A `task_ref` that the cache knows ends the call before `_compute`; how calls that share one are
  serialized is the subject of `Gateway.Cache`.  The log line of each request is left out.
-/
import CanvasOS.Lib.Prog
import CanvasOS.Lib.Serialize

namespace CanvasOS.Gateway

open Interleave Python

/-- `routing.RouteDecision` -/
structure RouteDecision where
  model : String
  tier : String
  provider : String
  providerModel : String

/-- `budget.BudgetState` -/
inductive BudgetState where
  | ok
  | softBreach
  | hardBreach
deriving DecidableEq

def BudgetState.text : BudgetState → String
  | .ok => "ok"
  | .softBreach => "soft_breach"
  | .hardBreach => "hard_breach"

/-- `providers.base.ProviderResult` -/
structure ProviderResult where
  content : String
  inputTokens : Int
  outputTokens : Int
  stopReason : Option String

/-- The exceptions of the handler: a model that routing does not know, a key that cannot be hashed,
    an exhausted budget, and whatever a collaborator raises. -/
inductive GatewayExc where
  | unknownModel
  | unhashable
  | budgetHardBreach (body : Json)
  | collaborator (what : String)

inductive GatewayOp where
  /-- `regex.search(text)` of the pattern with this id -/
  | search (patternId text : String)
  /-- `routing.resolve(model)` -/
  | resolve (model : String)
  /-- `routing.resolve_by_tier(tier)` -/
  | resolveByTier (tier : String)
  /-- `gate_decisions.insert_gate_decision(…)` -/
  | insertGateDecision (agentRunId decidedBy outcome reason : String)
  /-- `cache.get_or_compute(task_ref, …)` up to `compute()`: the response it has, if any -/
  | cached (taskRef : Json)
  /-- the rest of it: the response is stored -/
  | remember (taskRef : Json) (response : List (String × Json))
  /-- `budget.check_and_apply_budget(repo, agent_run_id, tier)` -/
  | checkBudget (agentRunId tier : String)
  /-- `registry.get_provider(name)` -/
  | getProvider (name : String)
  /-- `provider.complete(…)` -/
  | complete (providerModel : String) (messages : List Json) (maxTokens temperature tools : Json)
  /-- `metering.estimate_usd(tier, …)` -/
  | estimateUsd (tier : String) (inputTokens outputTokens : Int)
  /-- `metering.record_completion_costs(…)` -/
  | recordCosts (agentRunId provider usd : String) (inputTokens outputTokens : Int)
  /-- `uuid.uuid4().hex` -/
  | uuid4

/-- What each of them answers. -/
abbrev GatewayOp.Res : GatewayOp → Type
  | .search _ _ => Bool
  | .resolve _ | .resolveByTier _ => RouteDecision
  | .insertGateDecision _ _ _ _ => String
  | .cached _ => Option (List (String × Json))
  | .remember _ _ => Unit
  | .checkBudget _ _ => String × BudgetState
  | .getProvider _ => Unit
  | .complete _ _ _ _ _ => ProviderResult
  | .estimateUsd _ _ _ => String
  | .recordCosts _ _ _ _ _ => String
  | .uuid4 => String

abbrev GatewayM (α : Type) := Prog GatewayOp GatewayOp.Res GatewayExc α

abbrev callGateway (o : GatewayOp) : GatewayM o.Res := Prog.perform o

/-- The deployment: the feature flag, the ids of the loaded redaction rules, the text that routing
    makes of its known models, and what the JSON Schema validator says of a body. -/
structure GatewaySettings where
  deliberateFlagEnabled : Bool
  patternIds : List String
  unknownModelMessage : String
  /-- `validate_request`: the first violation of the `CompletionRequest` schema -/
  violation : List (String × Json) → Option String

/-! ## The redaction firewall -/

/-- `_as_text` -/
def asText : Json → String
  | .str s => s
  | value => dumpsSorted value

/-- `_first_match` -/
def firstMatch (text : String) : List String → GatewayM (Option String)
  | [] => pure none
  | patternId :: rest => do
    let found ← callGateway (.search patternId text)
    if found then pure (some patternId) else firstMatch text rest

/-- What the scan takes of one message: nothing of a system message, else its content. -/
def scannedContent : Json → Option Json
  | .obj m =>
    if Json.get m "role" = .str "system" then none
    else if Json.get m "content" = .null then none
    else some (Json.get m "content")
  | .null => none
  | m => some m

/-- (a) every `messages[*].content` -/
def scanMessages (patternIds : List String) : List Json → GatewayM (Option String)
  | [] => pure none
  | m :: rest =>
    match scannedContent m with
    | none => scanMessages patternIds rest
    | some content => do
      let matched ← firstMatch (asText content) patternIds
      match matched with
      | some patternId => pure (some patternId)
      | none => scanMessages patternIds rest

/-- `payload.get("messages") or []`, where it is a list. -/
def messagesOf (payload : List (String × Json)) : List Json :=
  match Json.get payload "messages" with
  | .arr messages => messages
  | _ => []

/-- `scan_request`: the pattern that blocks the request, if any. -/
def scanRequest (payload : List (String × Json)) (patternIds exempt : List String) :
    GatewayM (Option String) := do
  let patterns := patternIds.filter (· ∉ exempt)
  let matched ← scanMessages patterns (messagesOf payload)
  match matched with
  | some patternId => pure (some patternId)
  | none =>
    -- (b) the serialized tools
    let tools := Json.get payload "tools"
    if Json.truthy tools then firstMatch (asText tools) patterns else pure none

/-! ## The handler -/

/-- `_error` -/
def errorBody (code message : String) : List (String × Json) :=
  [("error", .obj [("code", .str code), ("message", .str message)])]

/-- `CONTENT_CLASS_PATTERN_EXEMPTIONS.get(content_class, frozenset())`, if `content_class` can be
    hashed. -/
def exemptPatternIds : Json → Option (List String)
  | .arr _ | .obj _ => none
  | .str "public_source_content" => some ["full-name-like"]
  | _ => some []

/-- `payload.get(key) or default` and `… if … is not None else default`. -/
def orDefault (value default : Json) : Json := if Json.truthy value then value else default

def unlessNone (value default : Json) : Json := if value = .null then default else value

/-- The budget is exhausted: the completion is queued for review. -/
def queueForReview (agentRunId resolvedTier : String) : GatewayM (List (String × Json)) := do
  let gateId ← callGateway (.insertGateDecision agentRunId "system:model-gateway:budget-gate"
    "escalated" "per-function daily budget exhausted; completion queued for review")
  throw (.budgetHardBreach (.obj (errorBody "BUDGET_EXHAUSTED"
    ("per-function daily budget exhausted; this completion has been " ++
      "queued for review rather than dropped") ++
    [("queued_task_ref", .str gateId), ("routing_tier", .str resolvedTier),
      ("budget_state", .str BudgetState.hardBreach.text)])))

/-- The response of a completion. -/
def responseBody (id : String) (model agentRunId : Json) (tier : String) (budgetState : BudgetState)
    (result : ProviderResult) (costId : Option String) : List (String × Json) :=
  [("id", .str ("cmpl_" ++ id)), ("model", model), ("content", .str result.content),
    ("usage", .obj [("input_tokens", .int result.inputTokens),
      ("output_tokens", .int result.outputTokens)]),
    ("agent_run_id", agentRunId), ("routing_tier", .str tier),
    ("budget_state", .str budgetState.text), ("stop_reason", Json.ofOption result.stopReason)] ++
  (costId.map fun c => ("cost_id", Json.str c)).toList

/-- `_compute` behind the budget: the provider, then the meter, whose failure is only logged. -/
def computeOn (payload : List (String × Json)) (effective : RouteDecision)
    (budgetState : BudgetState) : GatewayM (List (String × Json)) := do
  let agentRunId := pyStr (Json.get payload "agent_run_id")
  callGateway (.getProvider effective.provider)
  let result ← callGateway (.complete effective.providerModel (messagesOf payload)
    (orDefault (Json.get payload "max_tokens") (.int 1024))
    (unlessNone (Json.get payload "temperature") (.float "0.7")) (Json.get payload "tools"))
  let usd ← callGateway (.estimateUsd effective.tier result.inputTokens result.outputTokens)
  let costId ← MonadExcept.tryCatch
    (do
      let c ← callGateway (.recordCosts agentRunId effective.provider usd result.inputTokens
        result.outputTokens)
      pure (some c))
    fun _ => pure none
  let id ← callGateway .uuid4
  pure (responseBody id (.str (pyStr (Json.get payload "model"))) (.str agentRunId) effective.tier
    budgetState result costId)

/-- `_compute` -/
def compute (payload : List (String × Json)) (route : RouteDecision) :
    GatewayM (List (String × Json)) := do
  let agentRunId := pyStr (Json.get payload "agent_run_id")
  let (resolvedTier, budgetState) ← callGateway (.checkBudget agentRunId route.tier)
  if budgetState = .hardBreach then queueForReview agentRunId resolvedTier
  else do
    let effective ← if resolvedTier ≠ route.tier then callGateway (.resolveByTier resolvedTier)
      else pure route
    computeOn payload effective budgetState

/-- `cache.get_or_compute(task_ref, _compute)` -/
def getOrComputeCompletion (payload : List (String × Json)) (route : RouteDecision) :
    GatewayM (List (String × Json) × Bool) := do
  let taskRef := Json.get payload "task_ref"
  let cached ← callGateway (.cached taskRef)
  match cached with
  | some response => pure (response, true)
  | none => do
    let response ← compute payload route
    callGateway (.remember taskRef response)
    pure (response, false)

/-- Step 4: one `compute()` per task_ref. -/
def completeOnce (payload : List (String × Json)) (route : RouteDecision) :
    GatewayM (Nat × Json) :=
  MonadExcept.tryCatch
    (do
      let (response, cacheHit) ← getOrComputeCompletion payload route
      pure (200, .obj (Json.insert response "cache_hit" (.bool cacheHit))))
    fun e =>
      match e with
      | .budgetHardBreach body => pure (429, body)
      | e => throw e

/-- Step 3: the firewall, before any provider call. -/
def screened (G : GatewaySettings) (payload : List (String × Json)) (route : RouteDecision) :
    GatewayM (Nat × Json) :=
  match exemptPatternIds (Json.get payload "content_class") with
  | none => throw .unhashable
  | some exempt => do
    let matched ← scanRequest payload G.patternIds exempt
    match matched with
    | none => completeOnce payload route
    | some patternId => do
      let _ ← callGateway (.insertGateDecision (pyStr (Json.get payload "agent_run_id"))
        "system:model-gateway:redaction-firewall" "rejected"
        ("redaction pattern matched: " ++ patternId))
      pure (400, .obj (errorBody "REDACTION_BLOCKED"
        ("request blocked by the redaction firewall before any upstream call (pattern: " ++
          patternId ++ ")") ++
        [("routing_tier", .str route.tier), ("redaction_outcome", .str "blocked")]))

/-- Steps 1 and 2: the feature flag and the route. -/
def routed (G : GatewaySettings) (payload : List (String × Json)) : GatewayM (Nat × Json) :=
  if Json.get payload "deliberate" = .bool true ∧ G.deliberateFlagEnabled = false then
    pure (400, .obj (errorBody "NOT_IMPLEMENTED"
      ("the 'deliberate' reasoning hint is accepted by this contract but not yet implemented; " ++
        "it is gated behind the DELIBERATE_FLAG_ENABLED feature flag, currently disabled")))
  else do
    let route ← MonadExcept.tryCatch
      (do
        let route ← callGateway (.resolve (pyStr (Json.get payload "model")))
        pure (some route))
      fun e =>
        match e with
        | .unknownModel => pure none
        | e => throw e
    match route with
    | none => pure (400, .obj (errorBody "UNKNOWN_MODEL" G.unknownModelMessage))
    | some route => screened G payload route

/-- `handle_completion`: status code and body. -/
def handleCompletion (G : GatewaySettings) (payload : List (String × Json)) :
    GatewayM (Nat × Json) :=
  match G.violation payload with
  | some violation => pure (400, .obj (errorBody "INVALID_REQUEST" violation))
  | none =>
    if Json.truthy (Json.get payload "model") = false ∨
        Json.truthy (Json.get payload "agent_run_id") = false ∨ messagesOf payload = [] then
      pure (400, .obj (errorBody "INVALID_REQUEST"
        "model, messages and agent_run_id are required"))
    else routed G payload

end CanvasOS.Gateway
