/-
  What of a completion request is scanned before the provider sees it.

  1. `scanTexts` — the texts that `scan_request` searches: the content of every message that is
     not a system message, and the tools as one JSON text.
  2. `Guarded` — the invariant of the conversation of one request: a search is about one of these
     texts, and the provider is called with the request's own messages and tools, after every text
     was searched for every pattern in vain.
  3. `Forwarded` against `scanTexts` — the provider gets the whole message objects, so a string
     under any other key of a message reaches it unscanned (`unscanned_name`).  The schema admits
     such keys.  In the tools, a string that JSON escapes is searched for in its escaped form only.
-/
import CanvasOS.Lib.Converse
import CanvasOS.Gateway.Completion

namespace CanvasOS.Gateway

open Interleave Python

/-! ## What the schema says -/

/-- An item of `messages`: an object with a known role and a string as content. -/
def conformsMessage : Json → Bool
  | .obj m =>
    ([.str "system", .str "user", .str "assistant", .str "tool"] : List Json).contains
      (Json.get m "role") &&
    match Json.get m "content" with
    | .str _ => true
    | _ => false
  | _ => false

def isObject : Json → Bool
  | .obj _ => true
  | _ => false

/-- `messages` and `tools` in the `CompletionRequest` schema. -/
def conforms (payload : List (String × Json)) : Bool :=
  (match Json.get payload "messages" with
    | .arr messages => messages.all conformsMessage
    | _ => false) &&
  match Json.lookup payload "tools" with
  | none => true
  | some (.arr tools) => tools.all isObject
  | some _ => false

/-- What the gateway relies on: the validator enforces the schema, and not every redaction rule is
    the one that public sources are exempt from. -/
structure GatewaySettings.Lawful (G : GatewaySettings) : Prop where
  validates : ∀ payload, G.violation payload = none → conforms payload = true
  strict : ∃ patternId ∈ G.patternIds, patternId ≠ "full-name-like"

/-! ## The texts and the strings -/

/-- The texts of the scan, in its order. -/
def scanTexts (payload : List (String × Json)) : List String :=
  ((messagesOf payload).filterMap scannedContent).map asText ++
    if Json.truthy (Json.get payload "tools") then [asText (Json.get payload "tools")] else []

/-- A message other than a system message. -/
def isSystem : Json → Bool
  | .obj m => Json.get m "role" = .str "system"
  | _ => false

/-- The strings that the provider gets: those of the messages, system messages apart, and those of
    the tools, at any depth, keys among them. -/
def Forwarded (messages : List Json) (tools : Json) (s : String) : Prop :=
  (∃ m ∈ messages, isSystem m = false ∧ s ∈ strings m) ∨ s ∈ strings tools

/-- `s` is the content of the message. -/
def isContent (s : String) : Json → Bool
  | .obj m => Json.get m "content" = .str s
  | _ => false

/-- The strings of a request that are not scanned as they stand: what a message has besides its
    content, and what JSON escapes in the tools. -/
def Beyond (payload : List (String × Json)) (s : String) : Prop :=
  (∃ m ∈ messagesOf payload, isSystem m = false ∧ s ∈ strings m ∧ isContent s m = false) ∨
    s ∈ strings (Json.get payload "tools") ∧ plain s = false

/-- The patterns that the request is scanned for. -/
def patternsOf (G : GatewaySettings) (exempt : List String) : List String :=
  G.patternIds.filter (· ∉ exempt)

theorem mem_patternsOf {G : GatewaySettings} {exempt : List String} {patternId : String} :
    patternId ∈ patternsOf G exempt ↔ patternId ∈ G.patternIds ∧ patternId ∉ exempt := by
  unfold patternsOf
  rw [List.mem_filter, decide_eq_true_eq]

theorem exempt_eq {contentClass : Json} {exempt : List String}
    (h : exemptPatternIds contentClass = some exempt) :
    ∀ patternId ∈ exempt, patternId = "full-name-like" := by
  unfold exemptPatternIds at h
  split at h
  · cases h
  · cases h
  · obtain rfl := Option.some.inj h
    exact fun patternId hid => List.mem_singleton.1 hid
  · obtain rfl := Option.some.inj h
    exact fun patternId hid => nomatch hid

/-- Whatever the content class, some pattern is left to scan for. -/
theorem exists_pattern {G : GatewaySettings} (hG : G.Lawful) {contentClass : Json}
    {exempt : List String} (h : exemptPatternIds contentClass = some exempt) :
    ∃ patternId, patternId ∈ patternsOf G exempt := by
  obtain ⟨patternId, hmem, hne⟩ := hG.strict
  have hnot : patternId ∉ exempt := fun hid => hne (exempt_eq h _ hid)
  exact ⟨patternId, mem_patternsOf.2 ⟨hmem, hnot⟩⟩

/-! ## The invariant of the conversation -/

abbrev GatewayTurn := Turn GatewayOp GatewayOp.Res GatewayExc

section Guarded

variable (payload : List (String × Json)) (patterns : List String)

/-- Every text was searched for every pattern, in vain. -/
def Cleared (log : List GatewayTurn) : Prop :=
  ∀ t ∈ scanTexts payload, ∀ patternId ∈ patterns, ⟨.search patternId t, .ok false⟩ ∈ log

/-- What holds of a statement after the conversation `earlier`. -/
def Licensed (earlier : List GatewayTurn) : GatewayOp → Prop
  | .search _ t => t ∈ scanTexts payload
  | .complete _ messages _ _ tools =>
    messages = messagesOf payload ∧ tools = Json.get payload "tools" ∧
      Cleared payload patterns earlier
  | _ => True

def Guarded : List GatewayTurn → Prop
  | [] => True
  | turn :: earlier => Licensed payload patterns earlier turn.1 ∧ Guarded earlier

end Guarded

variable {payload : List (String × Json)} {patterns : List String} {log : List GatewayTurn}

theorem Guarded.at {turn : GatewayTurn} {later earlier : List GatewayTurn}
    (h : Guarded payload patterns (later ++ turn :: earlier)) :
    Licensed payload patterns earlier turn.1 ∧ Guarded payload patterns earlier := by
  induction later with
  | nil => exact h
  | cons t later ih => exact ih h.2

/-- A search that was made is about a text of the scan. -/
theorem Guarded.searched (h : Guarded payload patterns log) {patternId t : String}
    {r : Reply GatewayExc Bool} (hmem : ⟨.search patternId t, r⟩ ∈ log) :
    t ∈ scanTexts payload := by
  obtain ⟨later, earlier, rfl⟩ := List.append_of_mem hmem
  exact h.at.1

theorem Cleared.cons (turn : GatewayTurn) (h : Cleared payload patterns log) :
    Cleared payload patterns (turn :: log) :=
  fun t ht patternId hid => List.mem_cons_of_mem _ (h t ht patternId hid)

/-- The statements that may follow the scan. -/
def Sanctioned (payload : List (String × Json)) : GatewayOp → Prop
  | .search _ _ => False
  | .complete _ messages _ _ tools =>
    messages = messagesOf payload ∧ tools = Json.get payload "tools"
  | _ => True

/-- Once the scan is through, the rest of the handler keeps the invariant. -/
theorem after_cleared {α : Type} {p : GatewayM α} (hp : p.Only (Sanctioned payload))
    (hc : Cleared payload patterns log) (hg : Guarded payload patterns log) :
    After p (fun _ log => Guarded payload patterns log) log := by
  induction p generalizing log with
  | pure a => exact hg
  | throw e => exact hg
  | op o k ih =>
    intro r
    refine ih _ (hp.2 _) (hc.cons _) ⟨?_, hg⟩
    have ho := hp.1
    cases o with
    | search patternId t => exact ho.elim
    | complete providerModel messages maxTokens temperature tools => exact ⟨ho.1, ho.2, hc⟩
    | _ => exact True.intro

/-! ## The scan -/

/-- What a scan of `texts` leaves: the invariant, the turns before it, and, where it finds
    nothing, a vain search of each text for each pattern. -/
def ScannedFrom (payload : List (String × Json)) (patterns texts : List String)
    (before : List GatewayTurn) : Except GatewayExc (Option String) → List GatewayTurn → Prop :=
  fun out log =>
    Guarded payload patterns log ∧ (∀ turn ∈ before, turn ∈ log) ∧
      (out = .ok none →
        ∀ t ∈ texts, ∀ patternId ∈ patterns, ⟨.search patternId t, .ok false⟩ ∈ log)

theorem firstMatch_spec {t : String} (ht : t ∈ scanTexts payload) (ids : List String)
    (hg : Guarded payload patterns log) :
    After (firstMatch t ids)
      (fun out log' => Guarded payload patterns log' ∧ (∀ turn ∈ log, turn ∈ log') ∧
        (out = .ok none → ∀ patternId ∈ ids, ⟨.search patternId t, .ok false⟩ ∈ log')) log := by
  induction ids generalizing log with
  | nil => exact ⟨hg, fun _ h => h, fun _ _ h => nomatch h⟩
  | cons patternId rest ih =>
    unfold firstMatch
    refine After.ask (fun found => ?_) fun r e _ =>
      ⟨⟨ht, hg⟩, fun _ h => List.mem_cons_of_mem _ h, fun h => nomatch h⟩
    cases found with
    | true => exact ⟨⟨ht, hg⟩, fun _ h => List.mem_cons_of_mem _ h, fun h => nomatch h⟩
    | false =>
      have hg₁ : Guarded payload patterns (⟨.search patternId t, .ok false⟩ :: log) := ⟨ht, hg⟩
      have hrest := ih hg₁
      refine hrest.mono fun out log' ⟨hg', hkeep, hnone⟩ =>
        ⟨hg', fun _ h => hkeep _ (List.mem_cons_of_mem _ h), fun hout id hid => ?_⟩
      rcases List.mem_cons.1 hid with rfl | hid
      · exact hkeep _ List.mem_cons_self
      · exact hnone hout id hid

/-- Scanning one text after others have been scanned. -/
theorem scan_text {t : String} (ht : t ∈ scanTexts payload)
    (hg : Guarded payload patterns log) :
    After (firstMatch t patterns) (ScannedFrom payload patterns [t] log) log := by
  refine (firstMatch_spec ht patterns hg).mono fun out log' ⟨hg', hkeep, hnone⟩ =>
    ⟨hg', hkeep, fun hout t' ht' => ?_⟩
  obtain rfl := List.mem_singleton.1 ht'
  exact hnone hout

theorem scanMessages_spec (messages : List Json)
    (hsub : ∀ t ∈ (messages.filterMap scannedContent).map asText, t ∈ scanTexts payload)
    (hg : Guarded payload patterns log) :
    After (scanMessages patterns messages)
      (ScannedFrom payload patterns ((messages.filterMap scannedContent).map asText) log) log := by
  induction messages generalizing log with
  | nil => exact ⟨hg, fun _ h => h, fun _ _ h => nomatch h⟩
  | cons m rest ih =>
    unfold scanMessages
    cases hm : scannedContent m with
    | none =>
      rw [List.filterMap_cons_none hm] at hsub ⊢
      exact ih hsub hg
    | some content =>
      rw [List.filterMap_cons_some hm, List.map_cons] at hsub ⊢
      simp only [Prog.bind_eq]
      refine After.bind (scan_text (hsub _ List.mem_cons_self) hg) ?_ ?_
      · rintro matched log₁ ⟨hg₁, hkeep₁, hnone₁⟩
        cases matched with
        | some patternId => exact ⟨hg₁, hkeep₁, fun h => nomatch h⟩
        | none =>
          have hrest := ih (fun t ht => hsub t (List.mem_cons_of_mem _ ht)) hg₁
          refine hrest.mono fun out log₂ ⟨hg₂, hkeep₂, hnone₂⟩ =>
            ⟨hg₂, fun _ h => hkeep₂ _ (hkeep₁ _ h), fun hout t ht patternId hid => ?_⟩
          rcases List.mem_cons.1 ht with rfl | ht
          · exact hkeep₂ _ (hnone₁ rfl _ List.mem_cons_self _ hid)
          · exact hnone₂ hout t ht _ hid
      · exact fun e log₁ ⟨hg₁, hkeep₁, _⟩ => ⟨hg₁, hkeep₁, fun h => nomatch h⟩

/-- The whole scan: where it finds nothing, the request is cleared. -/
theorem scanRequest_spec {patternIds exempt : List String}
    (hp : patterns = patternIds.filter (· ∉ exempt)) (hg : Guarded payload patterns log) :
    After (scanRequest payload patternIds exempt)
      (fun out log' => Guarded payload patterns log' ∧
        (out = .ok none → Cleared payload patterns log')) log := by
  subst hp
  unfold scanRequest
  simp only [Prog.bind_eq]
  refine After.bind (scanMessages_spec (messagesOf payload)
    (fun t ht => List.mem_append_left _ ht) hg) ?_ ?_
  · rintro matched log₁ ⟨hg₁, hkeep₁, hnone₁⟩
    cases matched with
    | some patternId => exact ⟨hg₁, fun h => nomatch h⟩
    | none =>
      show After (if Json.truthy (Json.get payload "tools") = true then _ else _) _ _
      split
      · next htools =>
        have ht : asText (Json.get payload "tools") ∈ scanTexts payload := by
          unfold scanTexts
          rw [if_pos htools]
          exact List.mem_append_right _ List.mem_cons_self
        refine (scan_text ht hg₁).mono fun out log₂ ⟨hg₂, hkeep₂, hnone₂⟩ =>
          ⟨hg₂, fun hout t ht' patternId hid => ?_⟩
        unfold scanTexts at ht'
        rw [if_pos htools] at ht'
        rcases List.mem_append.1 ht' with ht' | ht'
        · exact hkeep₂ _ (hnone₁ rfl t ht' _ hid)
        · exact hnone₂ hout t ht' _ hid
      · next htools =>
        refine ⟨hg₁, fun _ t ht' patternId hid => ?_⟩
        unfold scanTexts at ht'
        rw [if_neg htools, List.append_nil] at ht'
        exact hnone₁ rfl t ht' _ hid
  · exact fun e log₁ ⟨hg₁, _, _⟩ => ⟨hg₁, fun h => nomatch h⟩

/-! ## The handler -/

theorem computeOn_sanctioned (payload : List (String × Json)) (effective : RouteDecision)
    (budgetState : BudgetState) :
    (computeOn payload effective budgetState).Only (Sanctioned payload) := by
  unfold computeOn
  refine Prog.Only.bind (Prog.Only.perform True.intro) fun _ => ?_
  refine Prog.Only.bind (Prog.Only.perform ⟨rfl, rfl⟩) fun result => ?_
  refine Prog.Only.bind (Prog.Only.perform True.intro) fun usd => ?_
  refine Prog.Only.bind ?_ fun costId => ?_
  · exact Prog.Only.tryCatch
      (Prog.Only.bind (Prog.Only.perform True.intro) fun _ => True.intro) fun _ => True.intro
  · exact Prog.Only.bind (Prog.Only.perform True.intro) fun _ => True.intro

theorem compute_sanctioned (payload : List (String × Json)) (route : RouteDecision) :
    (compute payload route).Only (Sanctioned payload) := by
  unfold compute
  simp only [Prog.bind_eq]
  refine Prog.Only.bind (Prog.Only.perform True.intro) fun ⟨resolvedTier, budgetState⟩ => ?_
  dsimp only
  split
  · exact Prog.Only.bind (Prog.Only.perform True.intro) fun _ => True.intro
  split
  · exact Prog.Only.bind (Prog.Only.perform True.intro) fun _ => computeOn_sanctioned _ _ _
  · exact computeOn_sanctioned _ _ _

theorem completeOnce_sanctioned (payload : List (String × Json)) (route : RouteDecision) :
    (completeOnce payload route).Only (Sanctioned payload) := by
  unfold completeOnce getOrComputeCompletion
  refine Prog.Only.tryCatch ?_ fun e => ?_
  · refine Prog.Only.bind ?_ fun _ => True.intro
    refine Prog.Only.bind (Prog.Only.perform True.intro) fun cached => ?_
    cases cached with
    | some response => exact True.intro
    | none =>
      refine Prog.Only.bind (compute_sanctioned payload route) fun response => ?_
      exact Prog.Only.bind (Prog.Only.perform True.intro) fun _ => True.intro
  · cases e with
    | budgetHardBreach body => exact True.intro
    | _ => exact True.intro

/-- The patterns that a request is scanned for; none where its content class cannot be hashed. -/
def requestPatterns (G : GatewaySettings) (payload : List (String × Json)) : List String :=
  match exemptPatternIds (Json.get payload "content_class") with
  | some exempt => patternsOf G exempt
  | none => []

theorem screened_spec (G : GatewaySettings) (payload : List (String × Json))
    (route : RouteDecision) (hg : Guarded payload (requestPatterns G payload) log) :
    After (screened G payload route)
      (fun _ log => Guarded payload (requestPatterns G payload) log) log := by
  unfold screened
  cases hexempt : exemptPatternIds (Json.get payload "content_class") with
  | none => exact hg
  | some exempt =>
    have hp : requestPatterns G payload = G.patternIds.filter (· ∉ exempt) := by
      unfold requestPatterns
      rw [hexempt]
      rfl
    simp only [Prog.bind_eq]
    refine After.bind (scanRequest_spec hp hg) ?_ fun e log' h => h.1
    rintro matched log' ⟨hg', hcleared⟩
    cases matched with
    | none => exact after_cleared (completeOnce_sanctioned payload route) (hcleared rfl) hg'
    | some patternId =>
      exact After.ask (fun _ => ⟨True.intro, hg'⟩) fun _ _ _ => ⟨True.intro, hg'⟩

/-- Every conversation of the handler keeps the invariant. -/
theorem handleCompletion_spec (G : GatewaySettings) (payload : List (String × Json)) :
    After (handleCompletion G payload)
      (fun _ log => Guarded payload (requestPatterns G payload) log) [] := by
  have hstart : Guarded payload (requestPatterns G payload) [] := True.intro
  unfold handleCompletion
  split
  · exact hstart
  split
  · exact hstart
  unfold routed
  split
  · exact hstart
  simp only [Prog.bind_eq]
  refine After.bind (R := fun _ log => Guarded payload (requestPatterns G payload) log)
    ?_ (fun route log h => ?_) fun _ _ h => h
  · refine After.tryCatch (R := fun _ log => Guarded payload (requestPatterns G payload) log)
      ?_ (fun _ _ h => h) fun e log h => ?_
    · exact After.ask (fun _ => ⟨True.intro, hstart⟩) fun _ _ _ => ⟨True.intro, hstart⟩
    · cases e with
      | unknownModel => exact h
      | _ => exact h
  cases route with
  | none => exact h
  | some route => exact screened_spec G payload route h

/-! ## The clean conversation: nothing is found, and everybody answers -/

/-- What a request needs to get past the guards in front of the scan. -/
structure Admitted (G : GatewaySettings) (payload : List (String × Json)) : Prop where
  valid : G.violation payload = none
  model : Json.truthy (Json.get payload "model") = true
  agentRun : Json.truthy (Json.get payload "agent_run_id") = true
  messages : messagesOf payload ≠ []
  enabled : Json.get payload "deliberate" = .bool true → G.deliberateFlagEnabled = true
  hashable : exemptPatternIds (Json.get payload "content_class") ≠ none

def cleanRoute : RouteDecision := ⟨"claude-sonnet", "low", "anthropic", "claude-sonnet"⟩

def cleanResult : ProviderResult := ⟨"{}", 10, 5, none⟩

def cleanReply : (o : GatewayOp) → Reply GatewayExc o.Res
  | .search _ _ => .ok false
  | .resolve _ | .resolveByTier _ => .ok cleanRoute
  | .insertGateDecision _ _ _ _ => .ok "gate-1"
  | .cached _ => .ok none
  | .remember _ _ => .ok ()
  | .checkBudget _ tier => .ok (tier, .ok)
  | .getProvider _ => .ok ()
  | .complete _ _ _ _ _ => .ok cleanResult
  | .estimateUsd _ _ _ => .ok "0.0"
  | .recordCosts _ _ _ _ _ => .ok "cost-1"
  | .uuid4 => .ok "0"

theorem firstMatch_clean (t : String) (ids : List String) (log : List GatewayTurn) :
    ((firstMatch t ids).converse cleanReply log).1 = .ok none := by
  induction ids generalizing log with
  | nil => rfl
  | cons patternId rest ih => exact ih _

theorem scanMessages_clean (messages : List Json) (log : List GatewayTurn) :
    ((scanMessages patterns messages).converse cleanReply log).1 = .ok none := by
  induction messages generalizing log with
  | nil => rfl
  | cons m rest ih =>
    unfold scanMessages
    cases scannedContent m with
    | none => exact ih log
    | some content =>
      simp only [Prog.bind_eq]
      rw [Prog.converse_bind _ _ _ _ (firstMatch_clean _ _ _)]
      exact ih _

theorem scanRequest_clean (payload : List (String × Json)) (patternIds exempt : List String)
    (log : List GatewayTurn) :
    ((scanRequest payload patternIds exempt).converse cleanReply log).1 = .ok none := by
  unfold scanRequest
  simp only [Prog.bind_eq]
  rw [Prog.converse_bind _ _ _ _ (scanMessages_clean _ _)]
  dsimp only
  split
  · exact firstMatch_clean _ _ _
  · rfl

/-- The provider's turn in the clean conversation. -/
def cleanTurn (payload : List (String × Json)) : GatewayTurn :=
  ⟨.complete cleanRoute.providerModel (messagesOf payload)
    (orDefault (Json.get payload "max_tokens") (.int 1024))
    (unlessNone (Json.get payload "temperature") (.float "0.7")) (Json.get payload "tools"),
    .ok cleanResult⟩

theorem completeOnce_clean (payload : List (String × Json)) (log : List GatewayTurn) :
    cleanTurn payload ∈ ((completeOnce payload cleanRoute).converse cleanReply log).2 := by
  simp [completeOnce, getOrComputeCompletion, compute, computeOn, Prog.converse, cleanReply,
    Reply.seen, Prog.perform, cleanTurn]

/-- A request that the guards let through can reach the provider. -/
theorem handleCompletion_clean {G : GatewaySettings} (h : Admitted G payload) :
    cleanTurn payload ∈ ((handleCompletion G payload).converse cleanReply []).2 := by
  unfold handleCompletion
  rw [h.valid]
  dsimp only
  rw [if_neg (by simp [h.model, h.agentRun, h.messages])]
  unfold routed
  have hflag : ¬ (Json.get payload "deliberate" = .bool true ∧ G.deliberateFlagEnabled = false) :=
    fun ⟨hd, hf⟩ => by
      rw [h.enabled hd] at hf
      cases hf
  rw [if_neg hflag]
  show cleanTurn payload ∈ ((screened G payload cleanRoute).converse cleanReply _).2
  unfold screened
  cases hexempt : exemptPatternIds (Json.get payload "content_class") with
  | none => exact absurd hexempt h.hashable
  | some exempt =>
    dsimp only
    simp only [Prog.bind_eq]
    rw [Prog.converse_bind _ _ _ _ (scanRequest_clean _ _ _ _)]
    exact completeOnce_clean payload _

/-! ## Which requests get through -/

def IsComplete : GatewayOp → Prop
  | .complete _ _ _ _ _ => True
  | _ => False

/-- Only an admitted request reaches the provider. -/
theorem handleCompletion_admits (G : GatewaySettings) (payload : List (String × Json)) :
    After (handleCompletion G payload)
      (fun _ log => (∃ turn ∈ log, IsComplete turn.1) → Admitted G payload) [] := by
  have hnone : (∃ turn ∈ ([] : List GatewayTurn), IsComplete turn.1) → Admitted G payload :=
    fun ⟨_, hmem, _⟩ => nomatch hmem
  unfold handleCompletion
  cases hvalid : G.violation payload with
  | some violation => exact hnone
  | none =>
    dsimp only
    split
    · exact hnone
    next hguard =>
    unfold routed
    split
    · exact hnone
    next hflag =>
    simp only [Prog.bind_eq]
    refine After.bind (R := fun _ log => ∀ turn ∈ log, ¬ IsComplete turn.1) ?_ ?_
      fun e log h ⟨turn, hmem, hc⟩ => absurd hc (h turn hmem)
    · have hresolve : ∀ r, ∀ turn ∈ ([⟨.resolve (pyStr (Json.get payload "model")), r⟩] :
          List GatewayTurn), ¬ IsComplete turn.1 := by
        intro r turn hmem
        obtain rfl := List.mem_singleton.1 hmem
        exact id
      refine After.tryCatch (R := fun _ log => ∀ turn ∈ log, ¬ IsComplete turn.1)
        ?_ (fun _ _ h => h) fun e log h => ?_
      · exact After.ask (fun _ => hresolve _) fun _ _ _ => hresolve _
      · cases e with
        | unknownModel => exact h
        | _ => exact h
    · intro route log h
      have hno : (∃ turn ∈ log, IsComplete turn.1) → Admitted G payload :=
        fun ⟨turn, hmem, hc⟩ => absurd hc (h turn hmem)
      cases route with
      | none => exact hno
      | some route =>
        show After (screened G payload route) _ log
        unfold screened
        cases hexempt : exemptPatternIds (Json.get payload "content_class") with
        | none => exact hno
        | some exempt =>
          refine After.of_forall fun _ _ _ => ?_
          simp only [not_or, Bool.not_eq_false] at hguard
          obtain ⟨hmodel, hrun, hmessages⟩ := hguard
          refine ⟨hvalid, hmodel, hrun, hmessages, fun hd => ?_, by rw [hexempt]; nofun⟩
          cases hf : G.deliberateFlagEnabled with
          | true => rfl
          | false => exact absurd ⟨hd, hf⟩ hflag

/-! ## What is scanned and what is not -/

/-- The content of a message is scanned as it stands. -/
theorem content_scanned {m : Json} {s : String} (hm : m ∈ messagesOf payload)
    (hsystem : isSystem m = false) (hs : isContent s m = true) : s ∈ scanTexts payload := by
  cases m with
  | obj kvs =>
    simp only [isSystem, isContent, decide_eq_true_eq, decide_eq_false_iff_not] at hsystem hs
    have hscanned : scannedContent (.obj kvs) = some (.str s) := by
      unfold scannedContent
      dsimp only
      rw [if_neg hsystem, hs]
      rfl
    have hmem : Json.str s ∈ (messagesOf payload).filterMap scannedContent :=
      List.mem_filterMap.2 ⟨_, hm, hscanned⟩
    exact List.mem_append_left _ (List.mem_map_of_mem (f := asText) hmem)
  | _ => cases hs

/-- The tools are scanned as one JSON text, and a plain string stands in it as it is. -/
theorem tools_scanned {s : String} (hconforms : conforms payload = true)
    (hs : s ∈ strings (Json.get payload "tools")) (hplain : plain s = true) :
    ∃ t ∈ scanTexts payload, Within s t := by
  unfold conforms at hconforms
  rw [Bool.and_eq_true] at hconforms
  have htools := hconforms.2
  have htext : ∀ tools, Json.get payload "tools" = .arr tools → tools ≠ [] →
      dumpsSorted (Json.get payload "tools") ∈ scanTexts payload := by
    intro tools htools hne
    have htruthy : Json.truthy (Json.get payload "tools") = true := by
      rw [htools]
      cases tools with
      | nil => exact absurd rfl hne
      | cons x tools => rfl
    unfold scanTexts
    rw [if_pos htruthy, htools]
    exact List.mem_append_right _ List.mem_cons_self
  cases hlookup : Json.lookup payload "tools" with
  | none =>
    unfold Json.get at hs
    rw [hlookup] at hs
    cases hs
  | some value =>
    have hget : Json.get payload "tools" = value := by
      unfold Json.get
      rw [hlookup]
      rfl
    rw [hlookup] at htools
    cases value with
    | arr tools =>
      have hne : tools ≠ [] := by
        rintro rfl
        rw [hget] at hs
        cases hs
      exact ⟨_, htext tools hget hne, (Within.dumpsStr hplain).trans (infix_dumpsSorted _ hs)⟩
    | _ => cases htools

theorem Beyond.forwarded {s : String} (h : Beyond payload s) :
    Forwarded (messagesOf payload) (Json.get payload "tools") s := by
  rcases h with ⟨m, hm, hsystem, hs, -⟩ | ⟨hs, -⟩
  · exact .inl ⟨m, hm, hsystem, hs⟩
  · exact .inr hs

/-- What is forwarded is part of a scanned text, or beyond them. -/
theorem forwarded_cases {s : String} (hconforms : conforms payload = true)
    (h : Forwarded (messagesOf payload) (Json.get payload "tools") s) :
    (∃ t ∈ scanTexts payload, Within s t) ∨ Beyond payload s := by
  rcases h with ⟨m, hm, hsystem, hs⟩ | hs
  · cases hc : isContent s m with
    | true => exact .inl ⟨s, content_scanned hm hsystem hc, .refl s⟩
    | false => exact .inr (.inl ⟨m, hm, hsystem, hs, hc⟩)
  · cases hp : plain s with
    | true => exact .inl (tools_scanned hconforms hs hp)
    | false => exact .inr (.inr ⟨hs, hp⟩)

/-! ## Nothing unscanned reaches the provider -/

/-- `s` was part of a text that was searched for every pattern, in vain. -/
def ScannedBefore (patterns : List String) (earlier : List GatewayTurn) (s : String) : Prop :=
  ∃ t, Within s t ∧ ∀ patternId ∈ patterns, ⟨.search patternId t, .ok false⟩ ∈ earlier

/-- Whenever the provider is called, every string `asked` for that it gets was scanned before. -/
def NothingUnscanned (G : GatewaySettings) (asked : String → Prop)
    (payload : List (String × Json)) : Prop :=
  ∀ out log, Ends (handleCompletion G payload) [] out log →
    ∀ later earlier providerModel messages maxTokens temperature tools r,
      log = later ++ ⟨.complete providerModel messages maxTokens temperature tools, r⟩ :: earlier →
        ∀ s, asked s → Forwarded messages tools s →
          ScannedBefore (requestPatterns G payload) earlier s

/-- The gateway keeps it exactly for the requests in which whatever a message has besides its
    content, and whatever JSON escapes in the tools, happens to stand in a scanned text too.
    `asked` chooses the strings: all of them, or all but the schema's own words. -/
theorem nothing_unscanned_iff {G : GatewaySettings} (hG : G.Lawful) (asked : String → Prop)
    (payload : List (String × Json)) :
    NothingUnscanned G asked payload ↔
      (Admitted G payload → ∀ s, asked s → Beyond payload s →
        ∃ t ∈ scanTexts payload, Within s t) := by
  constructor
  · intro h hadmitted s hasked hbeyond
    -- the clean conversation reaches the provider
    have hends := Prog.converse_ends cleanReply (handleCompletion G payload) []
    obtain ⟨later, earlier, heq⟩ := List.append_of_mem (handleCompletion_clean hadmitted)
    obtain ⟨t, hst, hall⟩ := h _ _ hends _ _ _ _ _ _ _ _ heq s hasked hbeyond.forwarded
    have hguarded := (handleCompletion_spec G payload).sound hends
    rw [heq] at hguarded
    obtain ⟨patternId, hid⟩ : ∃ patternId, patternId ∈ requestPatterns G payload := by
      unfold requestPatterns
      cases hexempt : exemptPatternIds (Json.get payload "content_class") with
      | none => exact absurd hexempt hadmitted.hashable
      | some exempt => exact exists_pattern hG hexempt
    exact ⟨t, hguarded.at.2.searched (hall patternId hid), hst⟩
  · rintro h out log hends later earlier providerModel messages maxTokens temperature tools r rfl
      s hasked hforwarded
    have hadmitted : Admitted G payload :=
      (handleCompletion_admits G payload).sound hends
        ⟨_, List.mem_append_right _ List.mem_cons_self, True.intro⟩
    obtain ⟨rfl, rfl, hcleared⟩ := ((handleCompletion_spec G payload).sound hends).at.1
    have hcovered : ∃ t ∈ scanTexts payload, Within s t := by
      rcases forwarded_cases (hG.validates _ hadmitted.valid) hforwarded with hc | hbeyond
      · exact hc
      · exact h hadmitted s hasked hbeyond
    obtain ⟨t, ht, hst⟩ := hcovered
    exact ⟨t, hst, hcleared t ht⟩

/-- The gateway with its own rules and a validator of `messages` and `tools`. -/
def repositoryGateway : GatewaySettings where
  deliberateFlagEnabled := false
  patternIds := ["full-name-like", "email-address", "sa-phone-number", "sa-id-number"]
  unknownModelMessage := "unknown model"
  violation payload :=
    if conforms payload then none
    else some "request does not match the CompletionRequest contract"

theorem repositoryGateway_lawful : repositoryGateway.Lawful where
  validates payload h := by
    cases hc : conforms payload with
    | true => rfl
    | false =>
      have hv : repositoryGateway.violation payload ≠ none := by
        show (if conforms payload = true then none else some _) ≠ none
        rw [if_neg (by simp [hc])]
        nofun
      exact absurd h hv
  strict := ⟨"email-address", by decide, by decide⟩

/-- The words that the schema itself puts into a message. -/
def schemaWords : List String := ["role", "content", "system", "user", "assistant", "tool"]

/-- A request with one message. -/
def requestOf (message : List (String × Json)) : List (String × Json) :=
  [("model", .str "claude-sonnet"), ("messages", .arr [.obj message]),
    ("agent_run_id", .str "8d0c3f4e-0000-4000-8000-000000000001")]

/-- With a role and a content only, everything but the schema's words is scanned. -/
theorem nothing_unscanned_bare :
    NothingUnscanned repositoryGateway (· ∉ schemaWords)
      (requestOf [("role", .str "user"), ("content", .str "hi")]) := by
  refine (nothing_unscanned_iff repositoryGateway_lawful _ _).2 fun _ s hasked hbeyond => ?_
  rcases hbeyond with ⟨m, hm, -, hs, hc⟩ | ⟨hs, -⟩
  · obtain rfl := List.mem_singleton.1 hm
    have hs' : s = "role" ∨ s = "user" ∨ s = "content" ∨ s = "hi" := by
      simpa [strings, stringsItems] using hs
    rcases hs' with rfl | rfl | rfl | rfl
    · exact absurd (by decide) hasked
    · exact absurd (by decide) hasked
    · exact absurd (by decide) hasked
    · exact absurd hc (by decide)
  · cases hs

/-- The same message with a name beside its content. -/
def namedRequest : List (String × Json) :=
  requestOf [("role", .str "user"), ("content", .str "hi"), ("name", .str "Thabo Nkosi")]

/-- The schema admits the name, the provider gets it, and nobody has looked at it. -/
theorem unscanned_name : ¬ NothingUnscanned repositoryGateway (· ∉ schemaWords) namedRequest := by
  intro h
  have hadmitted : Admitted repositoryGateway namedRequest :=
    ⟨by decide, by decide, by decide, by decide, by decide, by decide⟩
  have hends := Prog.converse_ends cleanReply (handleCompletion repositoryGateway namedRequest) []
  obtain ⟨later, earlier, heq⟩ := List.append_of_mem (handleCompletion_clean hadmitted)
  have hforwarded : Forwarded (messagesOf namedRequest) (Json.get namedRequest "tools")
      "Thabo Nkosi" := .inl ⟨_, List.mem_cons_self, by decide, by decide⟩
  obtain ⟨t, hst, hall⟩ := h _ _ hends _ _ _ _ _ _ _ _ heq _ (by decide) hforwarded
  have hguarded := (handleCompletion_spec repositoryGateway namedRequest).sound hends
  rw [heq] at hguarded
  have ht : t ∈ scanTexts namedRequest :=
    hguarded.at.2.searched (hall "email-address" (by decide))
  obtain rfl : t = "hi" := by
    have htexts : scanTexts namedRequest = ["hi"] := by decide
    rw [htexts] at ht
    exact List.mem_singleton.1 ht
  have hlength := List.IsInfix.length_le hst
  exact absurd hlength (by decide)

end CanvasOS.Gateway
