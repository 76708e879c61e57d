/-
  Gatekeeper's three request handlers: `POST /gate-check`, `GET /approval-action/{token}` and
  `GET /approval-status`.
-/
import CanvasOS.Gatekeeper.Store

namespace CanvasOS.Gatekeeper

open Interleave Python Governance

/-! ## `routers/gate_check.py` -/

/-- A request (`GateCheckRequest`). -/
structure GateCheckRequest where
  agentRunId : String
  functionId : String
  actionClass : String
  contentHash : Option String
  previewTitle : Option String
  previewReference : Option String
  evidenceSummary : Option String
  subject : Option String
deriving DecidableEq

/-- The answer (`GateCheckResponse`); a URL is the link token and the choice it carries. -/
structure GateCheckResponse where
  decisionId : Nat
  agentRunId : String
  outcome : DecisionOutcome
  reason : String
  level : Level
  functionId : String
  actionClass : String
  gateToken : Option GateToken
  approvalRoute : Option String
  approvalId : Option Nat
  approveUrl : Option (Nat × Choice)
  rejectUrl : Option (Nat × Choice)
  approvalExpiresAt : Option Nat
deriving DecidableEq

def level0Blocked : String := "level_0_blocked"
def level3AutoApproved : String := "level_3_auto_approved"
def level4Passthrough : String := "level_4_autonomous_passthrough"
def decidedByPolicy : String := "gatekeeper:policy"
def decidedByKillSwitch : String := "gatekeeper:kill-switch"
def approvalRouteTeams : String := "teams"
def approvalRouteInbox : String := "inbox"

/-- `value or default` for optional text. -/
def orElse (value : Option String) (default : String) : String :=
  match value with
  | some v => if v = "" then default else v
  | none => default

/-- `_preview_title`. -/
def previewTitle (r : GateCheckRequest) : String :=
  orElse r.previewTitle (r.functionId ++ " (" ++ r.actionClass ++ ")")

/-- `_evidence_summary`. -/
def evidenceSummary (r : GateCheckRequest) : String :=
  orElse r.evidenceSummary
    ("Autonomy policy requires human approval for " ++ r.functionId ++ " / " ++ r.actionClass ++
      ". Bound content hash: " ++ orElse r.contentHash "(none supplied)" ++ ".")

/-- `_decision_response`. -/
def decisionResponse (d : Decision) (level : Level) (r : GateCheckRequest)
    (gateToken : Option GateToken) (approval : Option InboxRow) (route : Option String) :
    GateCheckResponse :=
  ⟨d.id, d.agentRunId, d.outcome, d.reason, level, r.functionId, r.actionClass, gateToken, route,
    approval.map (·.id), approval.map fun a => (a.linkToken, .approve),
    approval.map fun a => (a.linkToken, .reject), approval.map (·.expiresAt)⟩

/-- The deployment: the policy, the lifetime of an approval link, and `uuid.UUID`. -/
structure Settings where
  policy : AutonomyPolicy
  approvalLinkTtlSeconds : Nat
  uuid : String → Option String

/-- `dispatch_approval_request`. -/
def dispatchApprovalRequest (row : InboxRow) : Gk String := do
  let url ← call .teamsWebhookUrl
  match url.filter (· ≠ "") with
  | none => pure approvalRouteInbox
  | some url => do
    call (.postAdaptiveCard url row)
    pure approvalRouteTeams

/-- `create_approval_request`. -/
def createApprovalRequest (S : Settings) (decisionId : Nat) (t : Triple) (level : Level)
    (r : GateCheckRequest) : Gk InboxRow := do
  let now ← call .utcNow
  let linkToken ← call .generateLinkToken
  call (.insertInbox ⟨decisionId, t, r.actionClass, level, previewTitle r, r.previewReference,
    evidenceSummary r, linkToken, now + S.approvalLinkTtlSeconds⟩)

/-- The end of an approved request: the decision, and the token that carries it. -/
def approveAndIssue (t : Triple) (level : Level) (r : GateCheckRequest)
    (decidedBy reason : String) : Gk GateCheckResponse := do
  let decision ← call (.insertGateDecision t.agentRunId decidedBy .approved reason)
  let token ← call (.issueGateToken decision.id (orElse r.subject r.agentRunId)
    (orElse r.contentHash "") r.functionId)
  pure (decisionResponse decision level r (some token) none none)

/-- Levels 1 and 2: a recorded approval, or a new row in the inbox. -/
def approvalRequired (S : Settings) (t : Triple) (level : Level) (levelText : String)
    (r : GateCheckRequest) : Gk GateCheckResponse := do
  let prior ← call (.selectLatestApproved t)
  match prior with
  | none => do
    let decision ← call (.insertGateDecision t.agentRunId decidedByPolicy .escalated
      (levelText ++ "_requires_approval"))
    let approval ← createApprovalRequest S decision.id t level r
    let route ← dispatchApprovalRequest approval
    pure (decisionResponse decision level r none (some approval) (some route))
  | some prior =>
    approveAndIssue t level r (orElse prior.decidedBy "unknown") (levelText ++ "_approved_by_human")

/-- `_gate_check_impl`. -/
def gateCheckImpl (S : Settings) (r : GateCheckRequest) : Gk GateCheckResponse :=
  match S.uuid r.agentRunId with
  | none => throw (.http 400 "agent_run_id must be a uuid")
  | some agentRunId => do
    let level := S.policy.levelFor r.functionId r.actionClass
    let t : Triple := ⟨agentRunId, r.functionId, r.contentHash⟩
    let row ← call (.selectActiveSwitches r.functionId)
    let status := isBlocked row
    if status.blocked then do
      let decision ← call (.insertGateDecision agentRunId decidedByKillSwitch .rejected
        (status.auditReason.getD ""))
      pure (decisionResponse decision level r none none none)
    else match level with
      | 0 => do
        let decision ← call (.insertGateDecision agentRunId decidedByPolicy .rejected level0Blocked)
        pure (decisionResponse decision level r none none none)
      | 1 => approvalRequired S t level "level_1" r
      | 2 => approvalRequired S t level "level_2" r
      | 3 => approveAndIssue t level r decidedByPolicy level3AutoApproved
      | 4 => approveAndIssue t level r decidedByPolicy level4Passthrough

/-! ## `routers/approval_action.py` -/

/-- The signed-in user (`AuthenticatedPrincipal`). -/
structure Principal where
  id : String
  name : Option String
deriving DecidableEq

/-- `AuthenticatedPrincipal.decided_by`. -/
def Principal.decidedBy (p : Principal) : String :=
  match p.name with
  | some n => if n = "" then p.id else n ++ " (" ++ p.id ++ ")"
  | none => p.id

/-- A click: the link, the choice, and the principal `principal_from_headers` finds. -/
structure Click where
  linkToken : Nat
  choice : Choice
  principal : Option Principal
deriving DecidableEq

/-- The body of the answer, also of the 409 and the 410. -/
structure ActionResponse where
  outcome : ActionOutcome
  reason : String
  approvalId : Nat
  decisionId : Option Nat
  decidedBy : Option String
deriving DecidableEq

def reasonApproved : String := "approval_link_approved"
def reasonRejected : String := "approval_link_rejected"
def reasonLinkExpired : String := "link_expired"
def reasonLinkAlreadyUsed : String := "link_already_used"

/-- The two outcomes and the reason a choice stands for. -/
def Choice.decision : Choice → DecisionOutcome
  | .approve => .approved
  | .reject => .rejected

def Choice.outcome : Choice → ActionOutcome
  | .approve => .approved
  | .reject => .rejected

def Choice.reason : Choice → String
  | .approve => reasonApproved
  | .reject => reasonRejected

/-- `record_approval_action`. -/
def recordApprovalAction (approvalId : Nat) (decisionId : Option Nat) (outcome : ActionOutcome)
    (reason : String) (p : Principal) : Gk Unit :=
  call (.insertAction ⟨approvalId, decisionId, outcome, reason, p.id, p.name⟩)

/-- (4) The human decision, linked back onto the consumed row, and its audit row. -/
def appendDecision (click : Click) (p : Principal) (approval : InboxRow) : Gk ActionResponse := do
  let decision ← call (.insertGateDecision approval.triple.agentRunId p.decidedBy
    click.choice.decision click.choice.reason)
  call (.backLink approval.id decision.id)
  recordApprovalAction approval.id (some decision.id) click.choice.outcome click.choice.reason p
  pure ⟨click.choice.outcome, click.choice.reason, approval.id, some decision.id, some p.decidedBy⟩

/-- `approval_action`.  The 409 and 410 bodies are answers like the 200: what the click was told. -/
def approvalAction (click : Click) : Gk ActionResponse :=
  match click.principal with
  | none => throw (.http 401 ("no authenticated principal on this request — the approver is " ++
      "taken from the Entra ID sign-in, never from possession of the link"))
  | some p => do
    let approval ← call (.selectByToken click.linkToken)
    match approval with
    | none => throw (.http 404 "approval link not found")
    | some approval =>
      if approval.linkConsumedAt ≠ none then do
        -- (1) already consumed
        recordApprovalAction approval.id approval.gateDecisionId .linkAlreadyUsed
          reasonLinkAlreadyUsed p
        pure ⟨.linkAlreadyUsed, reasonLinkAlreadyUsed, approval.id, approval.gateDecisionId,
          approval.decidedBy⟩
      else do
        let now ← call .utcNow
        if approval.expiresAt ≤ now then do
          -- (2) expired
          let _ ← call (.markExpired approval.id)
          recordApprovalAction approval.id approval.gateDecisionId .linkExpired reasonLinkExpired p
          pure ⟨.linkExpired, reasonLinkExpired, approval.id, none, none⟩
        else do
          -- (3) the single-use link
          let consumed ← call (.consumeLink approval.id click.choice p.decidedBy)
          match consumed with
          | none => do
            recordApprovalAction approval.id approval.gateDecisionId .linkAlreadyUsed
              reasonLinkAlreadyUsed p
            pure ⟨.linkAlreadyUsed, reasonLinkAlreadyUsed, approval.id, none, none⟩
          | some _ => appendDecision click p approval

/-! ## `routers/approval_status.py` -/

/-- The query of `GET /approval-status`. -/
structure StatusQuery where
  agentRunId : String
  functionId : String
  contentHash : Option String
deriving DecidableEq

/-- The answer: `status` is `none` for `not_found`. -/
structure StatusResponse where
  status : Option InboxStatus
  decidedBy : Option String
  decidedAt : Option Nat
  approvalInboxId : Option Nat
  gateDecisionId : Option Nat
deriving DecidableEq

/-- `_serialise`, and the answer for no row. -/
def StatusResponse.ofRow : Option InboxRow → StatusResponse
  | none => ⟨none, none, none, none, none⟩
  | some r => ⟨some r.status, r.decidedBy, r.decidedAt, some r.id, r.gateDecisionId⟩

/-- `get_approval_status`. -/
def getApprovalStatus (S : Settings) (q : StatusQuery) : Gk StatusResponse :=
  match S.uuid q.agentRunId with
  | none => throw (.http 400 "agent_run_id must be a uuid")
  | some agentRunId => do
    let row ← call (.selectLatestAnyStatus ⟨agentRunId, q.functionId, q.contentHash⟩)
    pure (.ofRow row)

/-! ## The service -/

/-- Any request. -/
inductive GkRequest where
  | gateCheck (r : GateCheckRequest)
  | approvalAction (click : Click)
  | approvalStatus (q : StatusQuery)
deriving DecidableEq

/-- Any answer. -/
inductive GkResponse where
  | gateCheck (r : GateCheckResponse)
  | approvalAction (r : ActionResponse)
  | approvalStatus (r : StatusResponse)
deriving DecidableEq

/-- The handler of a request. -/
def handle (S : Settings) : GkRequest → Gk GkResponse
  | .gateCheck r => (gateCheckImpl S r).bind fun x => .pure (.gateCheck x)
  | .approvalAction click => (approvalAction click).bind fun x => .pure (.approvalAction x)
  | .approvalStatus q => (getApprovalStatus S q).bind fun x => .pure (.approvalStatus x)

/-- What happens to Gatekeeper from outside: time passes, an operator rewrites the switches. -/
inductive GkMove where
  | tick (n : Nat)
  | switches (rows : List KillSwitch)

def GkMove.apply : GkMove → Db → Option Db
  | .tick n, db => some { db with now := db.now + n }
  | .switches rows, db => some { db with killSwitches := rows }

abbrev GkEvent := Event GkOp GkOp.Res Db Nat
abbrev GkHistory := History GkOp GkOp.Res Db Nat GkRequest
abbrev GkConfig := Config GkOp GkOp.Res Exc GkHistory Nat GkRequest GkResponse
abbrev GkAct := Act GkOp GkOp.Res Exc Nat GkRequest GkMove

/-- Gatekeeper serving any number of requests at once. -/
def gatekeeper (S : Settings) : Sys GkOp GkOp.Res Exc GkHistory Nat GkRequest GkResponse GkMove :=
  recorded (handle S) (fun _ o => exec o) GkMove.apply

/-- Before the first request. -/
def GkConfig.start : GkConfig := .idle ⟨Db.empty, [], []⟩

end CanvasOS.Gatekeeper
