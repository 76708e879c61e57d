/-
  What a rejected completion says (`completion.py`, `routing.py`, `redaction.py`).

  1. `Validator`, `validateRequest` — the schema validator is a library's; what the gateway relies
     on is that an error carries the contract's own value of the keyword at its place.
  2. `compile` — the ids of the redaction rules: a rule's own, or `fixture:<group>:<index>`.
  3. `reasonOf` — why a request was rejected, read off the request and what the collaborators
     answered; `Reason.body` and `Reason.audit` are made of the deployment's files alone.
  4. `rejects_for` — a request that ends in 400 has a reason, and its body and audit are those of
     the reason; so any two requests with one reason get one body (`rejections_agree`).

  `sorted` compares a name with an index by a TypeError; the places of one document never do, since
  the elements below one place are all names or all indices.
-/
import CanvasOS.Gateway.Coverage

namespace CanvasOS.Gateway

open Interleave Python

/-! ## The contract -/

/-- An element of an `absolute_path`. -/
inductive PathElem where
  | index (n : Nat)
  | name (s : String)
deriving DecidableEq

/-- `str(p)` -/
def PathElem.text : PathElem → String
  | .index n => toString n
  | .name s => s

/-- `jsonschema.ValidationError`, as far as the gateway reads it. -/
structure ValidationError where
  absolutePath : List PathElem
  validator : String
  validatorValue : Json

/-- A string of one of the contract's properties. -/
def stringSchema (more : List (String × Json)) : Json := .obj (("type", .str "string") :: more)

/-- `messages` of the contract. -/
def messagesSchema : Json :=
  .obj [("type", .str "array"), ("minItems", .int 1),
    ("items", .obj [("type", .str "object"), ("required", .arr [.str "role", .str "content"]),
      ("properties", .obj [
        ("role", stringSchema
          [("enum", .arr [.str "system", .str "user", .str "assistant", .str "tool"])]),
        ("content", stringSchema [])])])]

/-- `properties` of the contract. -/
def requestProperties : List (String × Json) :=
  [("model", stringSchema []),
    ("messages", messagesSchema),
    ("agent_run_id", stringSchema [("format", .str "uuid")]),
    ("max_tokens", .obj [("type", .str "integer"), ("minimum", .int 1), ("default", .int 1024)]),
    ("temperature", .obj [("type", .str "number"), ("minimum", .int 0), ("maximum", .int 2),
      ("default", .float "0.7")]),
    ("tools", .obj [("type", .str "array"),
      ("items", .obj [("type", .str "object"), ("additionalProperties", .bool true)])])]

/-- `CompletionRequest` (contracts/model-gateway/openapi.yaml), without its descriptions. -/
def completionRequest : Json :=
  .obj [("type", .str "object"),
    ("required", .arr [.str "model", .str "messages", .str "agent_run_id"]),
    ("properties", .obj requestProperties)]

/-- The keywords that apply at a place of a document: those of its property, or of its item. -/
def keywordsAt : Json → List PathElem → Option (List (String × Json))
  | .obj kvs, [] => some kvs
  | .obj kvs, .name n :: path =>
    match Json.lookup kvs "properties" with
    | some (.obj properties) => (Json.lookup properties n).bind (keywordsAt · path)
    | _ => none
  | .obj kvs, .index _ :: path => (Json.lookup kvs "items").bind (keywordsAt · path)
  | _, _ => none

/-- `Draft202012Validator(schema).iter_errors`: an error stands at a place that the schema says
    something of, and carries the keyword it breaks with the schema's value of it. -/
structure Validator (schema : Json) where
  iterErrors : List (String × Json) → List ValidationError
  contractSide : ∀ payload, ∀ e ∈ iterErrors payload,
    (keywordsAt schema e.absolutePath).bind (Json.lookup · e.validator) = some e.validatorValue

/-- Python's order of lists. -/
def pathLe : List PathElem → List PathElem → Bool
  | [], _ => true
  | _ :: _, [] => false
  | .index m :: p, .index n :: q => if m = n then pathLe p q else m < n
  | .name s :: p, .name t :: q => if s = t then pathLe p q else s < t
  | .index _ :: _, .name _ :: _ => true
  | .name _ :: _, .index _ :: _ => false

/-- The first of the sorted errors. -/
def firstError (errors : List ValidationError) : Option ValidationError :=
  (errors.insertionSort fun e e' => pathLe e.absolutePath e'.absolutePath = true).head?

/-- `"/".join(str(p) for p in …) or "(root)"` -/
def locationText (path : List PathElem) : String :=
  let text := join "/" (path.map PathElem.text)
  if text = "" then "(root)" else text

/-- The message of `validate_request`. -/
def violationMessage (path : List PathElem) (keyword : String) (value : Json) : String :=
  "request does not match the CompletionRequest contract at " ++ locationText path ++
    ": expected " ++ keyword ++ " constraint " ++ reprJson value ++ " (submitted value omitted)"

/-- `validate_request` -/
def validateRequest (iterErrors : List (String × Json) → List ValidationError)
    (payload : List (String × Json)) : Option String :=
  (firstError (iterErrors payload)).map fun first =>
    violationMessage first.absolutePath first.validator first.validatorValue

/-- The places that the contract says something of: the names are its own. -/
inductive ContractPlace : List PathElem → Prop
  | root : ContractPlace []
  | property (name : String) (h : name ∈ requestProperties.map Prod.fst) :
      ContractPlace [.name name]
  | message (n : Nat) : ContractPlace [.name "messages", .index n]
  | field (n : Nat) (name : String) (h : name ∈ ["role", "content"]) :
      ContractPlace [.name "messages", .index n, .name name]
  | tool (n : Nat) : ContractPlace [.name "tools", .index n]

/-- Below a property without properties or items there is no place. -/
theorem eq_nil_of_keywords {schema kvs : List (String × Json)} {path : List PathElem}
    (h : keywordsAt (.obj schema) path = some kvs)
    (hproperties : Json.lookup schema "properties" = none)
    (hitems : Json.lookup schema "items" = none) : path = [] := by
  match path with
  | [] => rfl
  | .name m :: rest => simp [keywordsAt, hproperties] at h
  | .index m :: rest => simp [keywordsAt, hitems] at h

/-- Nothing is said of any other place. -/
theorem contractPlace_of_keywords {path : List PathElem} {kvs : List (String × Json)}
    (h : keywordsAt completionRequest path = some kvs) : ContractPlace path := by
  match path with
  | [] => exact .root
  | .index _ :: _ => cases h
  | .name n :: rest =>
    obtain ⟨s, hs, h⟩ : ∃ s, Json.lookup requestProperties n = some s ∧
      keywordsAt s rest = some kvs := Option.bind_eq_some_iff.1 h
    have hleaf : ∀ schema, Json.obj schema = s → Json.lookup schema "properties" = none →
        Json.lookup schema "items" = none → n ∈ requestProperties.map Prod.fst →
        ContractPlace (.name n :: rest) := by
      rintro schema rfl hproperties hitems hn
      obtain rfl := eq_nil_of_keywords h hproperties hitems
      exact .property n hn
    simp only [requestProperties, Json.lookup_cons] at hs
    split at hs
    · next heq =>
      exact hleaf _ (Option.some.inj hs) rfl rfl (by simp [← heq, requestProperties])
    split at hs
    · next heq =>
      subst heq
      obtain rfl := Option.some.inj hs
      match rest with
      | [] => exact .property _ (by decide)
      | .name _ :: _ => cases h
      | [.index n] => exact .message n
      | .index _ :: .index _ :: _ => cases h
      | .index i :: .name m :: rest =>
        -- a field of a message
        obtain ⟨s, hs, h⟩ : ∃ s, Json.lookup [("role", stringSchema
            [("enum", .arr [.str "system", .str "user", .str "assistant", .str "tool"])]),
              ("content", stringSchema [])] m = some s ∧ keywordsAt s rest = some kvs :=
          Option.bind_eq_some_iff.1 h
        simp only [Json.lookup_cons] at hs
        split at hs
        · next heq =>
          obtain rfl := Option.some.inj hs
          obtain rfl := eq_nil_of_keywords h rfl rfl
          exact .field i m (by simp [← heq])
        split at hs
        · next heq =>
          obtain rfl := Option.some.inj hs
          obtain rfl := eq_nil_of_keywords h rfl rfl
          exact .field i m (by simp [← heq])
        · cases hs
    split at hs
    · next heq =>
      exact hleaf _ (Option.some.inj hs) rfl rfl (by simp [← heq, requestProperties])
    split at hs
    · next heq =>
      exact hleaf _ (Option.some.inj hs) rfl rfl (by simp [← heq, requestProperties])
    split at hs
    · next heq =>
      exact hleaf _ (Option.some.inj hs) rfl rfl (by simp [← heq, requestProperties])
    split at hs
    · next heq =>
      subst heq
      obtain rfl := Option.some.inj hs
      match rest with
      | [] => exact .property _ (by decide)
      | .name _ :: _ => cases h
      | .index n :: rest =>
        have h : keywordsAt (.obj [("type", .str "object"), ("additionalProperties", .bool true)])
          rest = some kvs := h
        obtain rfl := eq_nil_of_keywords h rfl rfl
        exact .tool n
    · cases hs

/-! ## The rules -/

/-- A compiled rule: a regular expression, or a literal that is matched in either case. -/
inductive Pattern where
  | regex (source : Json)
  | literal (value : String)

/-- `values if isinstance(values, list) else [values]`, numbered. -/
def numbered : Json → List (Json × Nat)
  | .arr values => values.zipIdx
  | value => [(value, 0)]

/-- `_fixture_entries` -/
def fixtureEntries : Json → List (String × Nat × String)
  | .obj groups => groups.flatMap fun g => (numbered g.2).map fun v => (g.1, v.2, pyStr v.1)
  | .arr values => values.zipIdx.map fun v => ("ungrouped", v.2, pyStr v.1)
  | _ => []

/-- `rules.get("patterns") or rules.get("rules") or []` -/
def ruleEntries (rules : List (String × Json)) : List Json :=
  match orDefault (Json.get rules "patterns") (Json.get rules "rules") with
  | .arr entries => entries
  | _ => []

/-- `str(entry.get("id", "unnamed"))` -/
def ruleId : Json → String
  | .obj entry => pyStr ((Json.lookup entry "id").getD (.str "unnamed"))
  | _ => "unnamed"

/-- `entry["regex"]` -/
def ruleRegex : Json → Json
  | .obj entry => Json.get entry "regex"
  | _ => .null

/-- `f"fixture:{group}:{index}"` -/
def fixtureId (group : String) (index : Nat) : String :=
  "fixture:" ++ group ++ ":" ++ toString index

/-- `_compile` -/
def compile (rules : List (String × Json)) : List (String × Pattern) :=
  ((ruleEntries rules).map fun entry => (ruleId entry, .regex (ruleRegex entry))) ++
    ((fixtureEntries (Json.get rules "fixtures")).filter fun x => strip x.2.2.toList ≠ []).map
      fun x => (fixtureId x.1 x.2.1, .literal x.2.2)

/-! ## The deployment -/

/-- What the gateway is deployed with. -/
structure Deployment where
  validator : Validator completionRequest
  rules : List (String × Json)
  /-- `routing.known_models()` -/
  knownModels : List String
  deliberateFlagEnabled : Bool

/-- `unknown_model_message` -/
def unknownModelMessage (known : List String) : String :=
  let names := join ", " known
  "unknown model identifier; configured models: " ++ if names = "" then "<none>" else names

def Deployment.settings (D : Deployment) : GatewaySettings where
  deliberateFlagEnabled := D.deliberateFlagEnabled
  patternIds := (compile D.rules).map Prod.fst
  unknownModelMessage := unknownModelMessage D.knownModels
  violation := validateRequest D.validator.iterErrors

/-! ## Reasons -/

/-- Why a request is rejected: a place and keyword of the contract, what is missing, a hint that is
    not implemented, a model that is not configured, or a pattern that matched. -/
inductive Reason where
  | contract (path : List PathElem) (keyword : String)
  | incomplete
  | notImplemented
  | unknownModel
  | blocked (patternId tier : String)
deriving DecidableEq

/-- The route that was resolved. -/
def resolvedRoute (log : List GatewayTurn) : Option RouteDecision :=
  log.findSome? fun turn =>
    match turn with
    | ⟨.resolve _, .ok route⟩ => some route
    | _ => none

/-- The pattern that matched. -/
def matchedPattern (log : List GatewayTurn) : Option String :=
  log.findSome? fun turn =>
    match turn with
    | ⟨.search patternId _, .ok true⟩ => some patternId
    | _ => none

/-- The texts that were written to `gate_decisions.reason`. -/
def auditReasons (log : List GatewayTurn) : List String :=
  log.filterMap fun turn =>
    match turn with
    | ⟨.insertGateDecision _ _ _ reason, _⟩ => some reason
    | _ => none

/-- The fields that the handler cannot do without. -/
def Incomplete (payload : List (String × Json)) : Prop :=
  Json.truthy (Json.get payload "model") = false ∨
    Json.truthy (Json.get payload "agent_run_id") = false ∨ messagesOf payload = []

instance (payload : List (String × Json)) : Decidable (Incomplete payload) := by
  unfold Incomplete
  infer_instance

/-- Why the request was rejected, after a conversation that ended in a rejection. -/
def reasonOf (D : Deployment) (payload : List (String × Json)) (log : List GatewayTurn) :
    Option Reason :=
  match firstError (D.validator.iterErrors payload) with
  | some e => some (.contract e.absolutePath e.validator)
  | none =>
    if Incomplete payload then some .incomplete
    else if Json.get payload "deliberate" = .bool true ∧ D.deliberateFlagEnabled = false then
      some .notImplemented
    else
      match resolvedRoute log with
      | none => some .unknownModel
      | some route => (matchedPattern log).map fun patternId => .blocked patternId route.tier

/-- The contract's value of a keyword at a place. -/
def contractValue (path : List PathElem) (keyword : String) : Json :=
  ((keywordsAt completionRequest path).bind (Json.lookup · keyword)).getD .null

/-- The body that goes with a reason. -/
def Reason.body (D : Deployment) : Reason → List (String × Json)
  | .contract path keyword =>
    errorBody "INVALID_REQUEST" (violationMessage path keyword (contractValue path keyword))
  | .incomplete => errorBody "INVALID_REQUEST" "model, messages and agent_run_id are required"
  | .notImplemented => errorBody "NOT_IMPLEMENTED"
      ("the 'deliberate' reasoning hint is accepted by this contract but not yet implemented; " ++
        "it is gated behind the DELIBERATE_FLAG_ENABLED feature flag, currently disabled")
  | .unknownModel => errorBody "UNKNOWN_MODEL" (unknownModelMessage D.knownModels)
  | .blocked patternId tier =>
    errorBody "REDACTION_BLOCKED"
      ("request blocked by the redaction firewall before any upstream call (pattern: " ++
        patternId ++ ")") ++
      [("routing_tier", .str tier), ("redaction_outcome", .str "blocked")]

/-- The reason names a place of the contract, or a rule of the rules file. -/
def Reason.FromFiles (D : Deployment) : Reason → Prop
  | .contract path _ => ContractPlace path
  | .blocked patternId _ => patternId ∈ D.settings.patternIds
  | _ => True

/-- What is written to the audit table for a reason. -/
def Reason.audit : Reason → List String
  | .blocked patternId _ => ["redaction pattern matched: " ++ patternId]
  | _ => []

/-! ## The conversation -/

/-- A rejection has a reason from the files, and its body and its audit are those of the reason. -/
def Rejects (D : Deployment) (payload : List (String × Json)) (out : Except GatewayExc (Nat × Json))
    (log : List GatewayTurn) : Prop :=
  ∀ body, out = .ok (400, body) →
    ∃ r, reasonOf D payload log = some r ∧ r.FromFiles D ∧ body = .obj (r.body D) ∧
      auditReasons log = r.audit

/-- What a scan adds to the conversation: a match, where it reports one. -/
def Scanned (patterns : List String) (before : List GatewayTurn)
    (out : Except GatewayExc (Option String)) (log : List GatewayTurn) : Prop :=
  resolvedRoute log = resolvedRoute before ∧ auditReasons log = auditReasons before ∧
    ∀ matched, out = .ok matched →
      matchedPattern log = matched ∧ ∀ patternId ∈ matched, patternId ∈ patterns

theorem mem_of_firstError {errors : List ValidationError} {e : ValidationError}
    (h : firstError errors = some e) : e ∈ errors :=
  (List.mem_insertionSort _).1 (List.mem_of_mem_head? h)

section Conversation

variable {D : Deployment} {payload : List (String × Json)} {log : List GatewayTurn}

/-- A scan that is over before it begins. -/
theorem scanned_none {patterns : List String} (hlog : matchedPattern log = none) :
    Scanned patterns log (.ok none) log := by
  refine ⟨rfl, rfl, fun matched h => ?_⟩
  rw [← Except.ok.inj h]
  exact ⟨hlog, fun _ h => nomatch h⟩

/-- A scan that goes on where another ended. -/
theorem Scanned.trans {patterns : List String} {log' log'' : List GatewayTurn}
    {out out' : Except GatewayExc (Option String)} (h : Scanned patterns log out log')
    (h' : Scanned patterns log' out' log'') : Scanned patterns log out' log'' :=
  ⟨h'.1.trans h.1, h'.2.1.trans h.2.1, h'.2.2⟩

theorem Scanned.raised {patterns : List String} {log' : List GatewayTurn} {e e' : GatewayExc}
    (h : Scanned patterns log (.error e) log') : Scanned patterns log (.error e') log' :=
  ⟨h.1, h.2.1, fun _ h => nomatch h⟩

theorem firstMatch_scanned (t : String) {ids patterns : List String}
    (hids : ∀ patternId ∈ ids, patternId ∈ patterns) (hlog : matchedPattern log = none) :
    After (firstMatch t ids) (Scanned patterns log) log := by
  induction ids generalizing log with
  | nil => exact scanned_none hlog
  | cons patternId rest ih =>
    obtain ⟨hid, hrest⟩ := List.forall_mem_cons.1 hids
    unfold firstMatch
    refine After.ask (fun found => ?_) fun r e _ => ⟨rfl, rfl, by rintro matched ⟨⟩⟩
    cases found with
    | true =>
      refine ⟨rfl, rfl, fun matched h => ?_⟩
      rw [← Except.ok.inj h]
      exact ⟨rfl, fun id hid' => by rwa [← Option.some.inj hid']⟩
    | false =>
      have hafter : After (firstMatch t rest)
        (Scanned patterns (⟨.search patternId t, .ok false⟩ :: log))
        (⟨.search patternId t, .ok false⟩ :: log) := ih hrest hlog
      exact hafter

/-- A scan of one text, and of others where it finds nothing. -/
theorem firstMatch_then {patterns : List String} (t : String) (hlog : matchedPattern log = none)
    {q : Option String → GatewayM (Option String)}
    (hsome : ∀ patternId, q (some patternId) = pure (some patternId))
    (hnone : ∀ log', matchedPattern log' = none →
      After (q none) (Scanned patterns log') log') :
    After ((firstMatch t patterns).bind q) (Scanned patterns log) log := by
  refine After.bind (firstMatch_scanned t (fun _ h => h) hlog) ?_ fun e log' h => h.raised
  intro matched log' h
  cases matched with
  | some patternId =>
    rw [hsome]
    exact h
  | none => exact (hnone log' (h.2.2 _ rfl).1).mono fun out log'' h' => h.trans h'

theorem scanMessages_scanned (patterns : List String) (messages : List Json)
    (hlog : matchedPattern log = none) :
    After (scanMessages patterns messages) (Scanned patterns log) log := by
  induction messages generalizing log with
  | nil => exact scanned_none hlog
  | cons m rest ih =>
    unfold scanMessages
    cases scannedContent m with
    | none => exact ih hlog
    | some content => exact firstMatch_then _ hlog (fun _ => rfl) fun log' h => ih h

theorem scanRequest_scanned (payload : List (String × Json)) (patternIds exempt : List String)
    (hlog : matchedPattern log = none) :
    After (scanRequest payload patternIds exempt) (Scanned (patternIds.filter (· ∉ exempt)) log)
      log := by
  unfold scanRequest
  refine After.bind (scanMessages_scanned _ (messagesOf payload) hlog) ?_
    fun e log' h => h.raised
  intro matched log' h
  cases matched with
  | some patternId => exact h
  | none =>
    show After (if Json.truthy (Json.get payload "tools") = true then _ else _) _ _
    have hnone := (h.2.2 _ rfl).1
    split
    · exact (firstMatch_scanned _ (fun _ h => h) hnone).mono fun out log'' h' => h.trans h'
    · exact h

/-- Behind the firewall nothing is rejected with a 400. -/
theorem completeOnce_accepts (payload : List (String × Json)) (route : RouteDecision) :
    After (completeOnce payload route) (fun out _ => ∀ body, out ≠ .ok (400, body)) log := by
  unfold completeOnce
  refine After.tryCatch (R := fun out _ => ∀ body, out ≠ .ok (400, body))
    (After.bind (R := fun _ _ => True) (After.of_forall fun _ _ => trivial) ?_ ?_)
    (fun a log h => h) ?_
  · exact fun x log _ body h => absurd (Prod.mk.inj (Except.ok.inj h)).1 (by decide)
  · exact fun e log _ body h => nomatch h
  · intro e log _
    cases e with
    | budgetHardBreach body' =>
      exact fun body h => absurd (Prod.mk.inj (Except.ok.inj h)).1 (by decide)
    | _ => exact fun body h => nomatch h

/-- The firewall: what it rejects, it rejects for the pattern that matched. -/
theorem screened_rejects {route : RouteDecision}
    (hvalid : firstError (D.validator.iterErrors payload) = none) (hcomplete : ¬ Incomplete payload)
    (hflag : ¬ (Json.get payload "deliberate" = .bool true ∧ D.deliberateFlagEnabled = false))
    (hroute : resolvedRoute log = some route) (haudit : auditReasons log = [])
    (hmatched : matchedPattern log = none) :
    After (screened D.settings payload route) (Rejects D payload) log := by
  unfold screened
  cases exemptPatternIds (Json.get payload "content_class") with
  | none => exact fun body h => nomatch h
  | some exempt =>
    refine After.bind (scanRequest_scanned payload D.settings.patternIds exempt hmatched) ?_
      fun e log' _ body h => nomatch h
    rintro matched log' ⟨hroute', haudit', hmatched'⟩
    obtain ⟨hpattern, hmem⟩ := hmatched' _ rfl
    cases matched with
    | none =>
      exact (completeOnce_accepts payload route).mono fun out _ h body hout =>
        absurd hout (h body)
    | some patternId =>
      refine After.ask (fun gateId body hout => ?_) fun r e _ body hout => nomatch hout
      refine ⟨.blocked patternId route.tier, ?_, (List.mem_filter.1 (hmem _ rfl)).1,
        (Prod.mk.inj (Except.ok.inj hout)).2.symm, ?_⟩
      · -- the audit row changes neither the route nor the match
        unfold reasonOf
        rw [hvalid]
        dsimp only
        rw [if_neg hcomplete, if_neg hflag]
        show (match resolvedRoute log' with
          | none => some Reason.unknownModel
          | some route => (matchedPattern log').map fun id => .blocked id route.tier) = _
        rw [hroute'.trans hroute, hpattern]
        rfl
      · show ("redaction pattern matched: " ++ patternId) :: auditReasons log' = _
        rw [haudit'.trans haudit]
        rfl

/-- A request that ends in 400 has a reason, and its body and audit are those of the reason. -/
theorem handleCompletion_rejects (D : Deployment) (payload : List (String × Json)) :
    After (handleCompletion D.settings payload) (Rejects D payload) [] := by
  unfold handleCompletion
  have hviolation : D.settings.violation payload =
      (firstError (D.validator.iterErrors payload)).map fun first =>
        violationMessage first.absolutePath first.validator first.validatorValue := rfl
  rw [hviolation]
  cases hvalid : firstError (D.validator.iterErrors payload) with
  | some e =>
    intro body hout
    have hside := D.validator.contractSide payload e (mem_of_firstError hvalid)
    obtain ⟨kvs, hplace, -⟩ := Option.bind_eq_some_iff.1 hside
    refine ⟨.contract e.absolutePath e.validator, by rw [reasonOf, hvalid],
      contractPlace_of_keywords hplace, ?_, rfl⟩
    -- the value that the error carries is the contract's
    have hvalue : contractValue e.absolutePath e.validator = e.validatorValue := by
      rw [contractValue, hside]
      rfl
    rw [← (Prod.mk.inj (Except.ok.inj hout)).2, Reason.body, hvalue]
  | none =>
    show After (if Incomplete payload then _ else _) _ _
    split
    · next hincomplete =>
      intro body hout
      refine ⟨.incomplete, ?_, trivial, (Prod.mk.inj (Except.ok.inj hout)).2.symm, rfl⟩
      rw [reasonOf, hvalid]
      exact if_pos hincomplete
    next hcomplete =>
    unfold routed
    split
    · next hflag =>
      replace hflag : Json.get payload "deliberate" = .bool true ∧
        D.deliberateFlagEnabled = false := hflag
      intro body hout
      refine ⟨.notImplemented, ?_, trivial, (Prod.mk.inj (Except.ok.inj hout)).2.symm, rfl⟩
      rw [reasonOf, hvalid]
      dsimp only
      rw [if_neg hcomplete, if_pos hflag]
    next hflag =>
    replace hflag : ¬ (Json.get payload "deliberate" = .bool true ∧
      D.deliberateFlagEnabled = false) := hflag
    -- what the routing table answers is the first turn
    refine After.bind (R := fun out log => ∀ route, out = .ok route →
      resolvedRoute log = route ∧ auditReasons log = [] ∧ matchedPattern log = none) ?_ ?_
      fun e log _ body h => nomatch h
    · refine After.tryCatch (R := fun out log => auditReasons log = [] ∧ matchedPattern log = none ∧
        match out with
        | .ok route => resolvedRoute log = route
        | .error _ => resolvedRoute log = none) ?_ ?_ ?_
      · refine After.ask (fun route => ⟨rfl, rfl, rfl⟩) fun r e hr => ⟨rfl, rfl, ?_⟩
        cases r with
        | ok route => cases hr
        | failed e' => rfl
        | lost a e' => rfl
      · rintro route log ⟨haudit, hmatched, hroute⟩ route' hout
        rw [← Except.ok.inj hout]
        exact ⟨hroute, haudit, hmatched⟩
      · rintro e log ⟨haudit, hmatched, hroute⟩
        cases e with
        | unknownModel =>
          intro route hout
          rw [← Except.ok.inj hout]
          exact ⟨hroute, haudit, hmatched⟩
        | _ => exact fun route hout => nomatch hout
    · intro route log hlog
      obtain ⟨hroute, haudit, hmatched⟩ := hlog route rfl
      cases route with
      | some route => exact screened_rejects hvalid hcomplete hflag hroute haudit hmatched
      | none =>
        intro body hout
        refine ⟨.unknownModel, ?_, trivial, (Prod.mk.inj (Except.ok.inj hout)).2.symm, haudit⟩
        rw [reasonOf, hvalid]
        dsimp only
        rw [if_neg hcomplete, if_neg hflag, hroute]

end Conversation

/-! ## Two rejections -/

/-- Two rejections for one reason have one body and one audit; there is a reason for each, and what
    it names stands in the contract or in the rules file. -/
theorem rejections_agree (D : Deployment) {payload payload' : List (String × Json)}
    {log log' : List GatewayTurn} {body body' : Json}
    (h : Ends (handleCompletion D.settings payload) [] (.ok (400, body)) log)
    (h' : Ends (handleCompletion D.settings payload') [] (.ok (400, body')) log') :
    (∃ r, reasonOf D payload log = some r ∧ r.FromFiles D) ∧
      (reasonOf D payload log = reasonOf D payload' log' →
        body = body' ∧ auditReasons log = auditReasons log') := by
  obtain ⟨r, hr, hfiles, hbody, haudit⟩ := (handleCompletion_rejects D payload).sound h body rfl
  obtain ⟨r', hr', -, hbody', haudit'⟩ := (handleCompletion_rejects D payload').sound h' body' rfl
  refine ⟨⟨r, hr, hfiles⟩, fun hsame => ?_⟩
  rw [hr, hr'] at hsame
  obtain rfl := Option.some.inj hsame
  exact ⟨hbody.trans hbody'.symm, haudit.trans haudit'.symm⟩

/-! ## The deployment of the repository -/

/-- The properties of the contract that a request lacks. -/
def missing (payload : List (String × Json)) : List String :=
  ["model", "messages", "agent_run_id"].filter fun name => (Json.lookup payload name).isNone

/-- A validator of the root's `required`: one error for each property that is missing. -/
def requiredValidator : Validator completionRequest where
  iterErrors payload := (missing payload).map fun _ =>
    ⟨[], "required", .arr [.str "model", .str "messages", .str "agent_run_id"]⟩
  contractSide payload e he := by
    obtain ⟨name, -, rfl⟩ := List.mem_map.1 he
    rfl

/-- contracts/model-gateway/redaction-rules.yaml, without its descriptions. -/
def repositoryRules : List (String × Json) :=
  [("patterns", .arr [
      .obj [("id", .str "full-name-like"),
        ("regex", .str "\\b[A-Z][a-z]\x7b1,\x7d\\s+[A-Z][a-z]\x7b1,\x7d\\b")],
      .obj [("id", .str "email-address"),
        ("regex", .str "\\b[A-Za-z0-9._%+-]+@[A-Za-z0-9.-]+\\.[A-Za-z]\x7b2,\x7d\\b")],
      .obj [("id", .str "sa-phone-number"),
        ("regex", .str "(\\+27|\\b0)\\s?\\d\x7b2\x7d\\s?\\d\x7b3\x7d\\s?\\d\x7b4\x7d\\b")],
      .obj [("id", .str "sa-id-number"), ("regex", .str "\\b\\d\x7b13\x7d\\b")]]),
    ("fixtures", .obj [("client_names", .arr [.str "Acme Client Ltd", .str "Thabo Nkosi"]),
      ("emails", .arr [.str "thabo.nkosi@example.co.za"])])]

/-- The id of a fixture tells its place only. -/
example : (compile repositoryRules).map Prod.fst = ["full-name-like", "email-address",
    "sa-phone-number", "sa-id-number", "fixture:client_names:0", "fixture:client_names:1",
    "fixture:emails:0"] := by decide +kernel

def repositoryDeployment : Deployment where
  validator := requiredValidator
  rules := repositoryRules
  knownModels := ["claude-haiku", "claude-opus", "claude-sonnet"]
  deliberateFlagEnabled := false

/-- Collaborators that resolve every model, and find a name in every text. -/
def namingReply : ∀ o : GatewayOp, Reply GatewayExc o.Res
  | .resolve model => .ok ⟨model, "sonnet", "anthropic", "claude-sonnet-4-6"⟩
  | .search patternId _ => .ok (patternId = "full-name-like")
  | .insertGateDecision _ _ _ _ => .ok "1"
  | _ => .failed (.collaborator "not called")

/-- What becomes of a request, and the conversation. -/
def rejection (payload : List (String × Json)) :
    Except GatewayExc (Nat × Json) × List GatewayTurn :=
  (handleCompletion repositoryDeployment.settings payload).converse namingReply []

/-- A request about a person. -/
def aboutPerson (name : String) : List (String × Json) :=
  requestOf [("role", .str "user"), ("content", .str ("Write to " ++ name))]

/-- Two requests about two people are rejected alike. -/
theorem people_agree :
    (rejection (aboutPerson "Thabo Nkosi")).1 = .ok (400, .obj (Reason.body repositoryDeployment
      (.blocked "full-name-like" "sonnet"))) ∧
    auditReasons (rejection (aboutPerson "Thabo Nkosi")).2 =
      auditReasons (rejection (aboutPerson "Lindiwe Dube")).2 := by
  have hfirst : (rejection (aboutPerson "Thabo Nkosi")).1 = .ok (400, .obj (Reason.body
      repositoryDeployment (.blocked "full-name-like" "sonnet"))) := rfl
  have hsecond : (rejection (aboutPerson "Lindiwe Dube")).1 = .ok (400, .obj (Reason.body
      repositoryDeployment (.blocked "full-name-like" "sonnet"))) := rfl
  have hreason : reasonOf repositoryDeployment (aboutPerson "Thabo Nkosi")
      (rejection (aboutPerson "Thabo Nkosi")).2 = some (.blocked "full-name-like" "sonnet") := rfl
  have hreason' : reasonOf repositoryDeployment (aboutPerson "Lindiwe Dube")
      (rejection (aboutPerson "Lindiwe Dube")).2 = some (.blocked "full-name-like" "sonnet") := rfl
  have h : Ends _ [] (rejection (aboutPerson "Thabo Nkosi")).1 _ := Prog.converse_ends _ _ _
  have h' : Ends _ [] (rejection (aboutPerson "Lindiwe Dube")).1 _ := Prog.converse_ends _ _ _
  rw [hfirst] at h
  rw [hsecond] at h'
  have hagree := rejections_agree repositoryDeployment h h'
  exact ⟨hfirst, (hagree.2 (hreason.trans hreason'.symm)).2⟩

end CanvasOS.Gateway
