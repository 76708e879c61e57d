/-
  What Gatekeeper's request handlers talk to, and what each statement does.

  Every connection is in autocommit mode (`app/db.py`), so each statement is a transaction of its
  own; `GkOp` lists them under the names of the helpers that issue them (`approval_inbox.py`,
  `routers/decisions.py`, `kill_switch.py`, `tokens.py`, `teams_client.py`).  `Db` holds the tables
  they touch and the clock.  Ids (row ids, token ids) are drawn from one counter, so they are
  distinct, as uuid4 values are.
-/
import CanvasOS.Lib.System
import CanvasOS.Governance.KillSwitch
import CanvasOS.Gatekeeper.Policy

namespace CanvasOS.Gatekeeper

open Interleave Python Governance

/-- What an approval is for: the three columns the selects match on. -/
structure Triple where
  agentRunId : String
  functionId : String
  contentHash : Option String
deriving DecidableEq

inductive InboxStatus where
  | pending
  | approved
  | rejected
  | expired
deriving DecidableEq

/-- The `choice` of an approval link, and the status it asks `consume_link` for. -/
inductive Choice where
  | approve
  | reject
deriving DecidableEq

def Choice.status : Choice → InboxStatus
  | .approve => .approved
  | .reject => .rejected

/-- A row of `governance.approval_inbox`. -/
structure InboxRow where
  id : Nat
  gateDecisionId : Option Nat
  triple : Triple
  actionClass : String
  level : Level
  previewTitle : String
  previewReference : Option String
  evidenceSummary : String
  status : InboxStatus
  decidedBy : Option String
  decidedAt : Option Nat
  linkToken : Nat
  linkConsumedAt : Option Nat
  expiresAt : Nat
  createdAt : Nat
deriving DecidableEq

inductive DecisionOutcome where
  | approved
  | rejected
  | escalated
deriving DecidableEq

/-- A row of `gate_decisions`. -/
structure Decision where
  id : Nat
  agentRunId : String
  decidedBy : String
  outcome : DecisionOutcome
  reason : String
deriving DecidableEq

inductive ActionOutcome where
  | approved
  | rejected
  | linkExpired
  | linkAlreadyUsed
deriving DecidableEq

/-- A row of `governance.approval_actions`. -/
structure ActionRow where
  approvalInboxId : Nat
  gateDecisionId : Option Nat
  outcome : ActionOutcome
  reason : String
  principalId : String
  principalName : Option String
deriving DecidableEq

/-- The claims of an issued gate token. -/
structure GateToken where
  jti : Nat
  gateDecisionId : Nat
  subject : String
  contentHash : String
  functionId : String
deriving DecidableEq

inductive Exc where
  | http (status : Nat) (detail : String)
  | other (what : String)
deriving DecidableEq

/-- The columns `_INSERT_INBOX` is given. -/
structure NewInboxRow where
  gateDecisionId : Nat
  triple : Triple
  actionClass : String
  level : Level
  previewTitle : String
  previewReference : Option String
  evidenceSummary : String
  linkToken : Nat
  expiresAt : Nat
deriving DecidableEq

/-- The statements of the handlers. -/
inductive GkOp where
  | selectActiveSwitches (functionId : String)
  | insertGateDecision (agentRunId decidedBy : String) (outcome : DecisionOutcome) (reason : String)
  | selectLatestApproved (triple : Triple)
  | selectLatestAnyStatus (triple : Triple)
  /-- `datetime.now(timezone.utc)` -/
  | utcNow
  /-- `secrets.token_urlsafe` -/
  | generateLinkToken
  | insertInbox (row : NewInboxRow)
  /-- `teams_webhook_url()` -/
  | teamsWebhookUrl
  /-- `post_adaptive_card` -/
  | postAdaptiveCard (url : String) (row : InboxRow)
  /-- `issue_gate_token`: a fresh jti, signed -/
  | issueGateToken (gateDecisionId : Nat) (subject contentHash functionId : String)
  | selectByToken (linkToken : Nat)
  | consumeLink (inboxId : Nat) (choice : Choice) (decidedBy : String)
  | markExpired (inboxId : Nat)
  /-- `UPDATE governance.approval_inbox SET gate_decision_id = … WHERE id = …` -/
  | backLink (inboxId decisionId : Nat)
  | insertAction (row : ActionRow)

/-- What each statement answers with. -/
abbrev GkOp.Res : GkOp → Type
  | .selectActiveSwitches _ => Option KillSwitch
  | .insertGateDecision _ _ _ _ => Decision
  | .selectLatestApproved _ => Option InboxRow
  | .selectLatestAnyStatus _ => Option InboxRow
  | .utcNow => Nat
  | .generateLinkToken => Nat
  | .insertInbox _ => InboxRow
  | .teamsWebhookUrl => Option String
  | .postAdaptiveCard _ _ => Unit
  | .issueGateToken _ _ _ _ => GateToken
  | .selectByToken _ => Option InboxRow
  | .consumeLink _ _ _ => Option InboxRow
  | .markExpired _ => Option InboxRow
  | .backLink _ _ => Unit
  | .insertAction _ => Unit

/-- Gatekeeper's routines. -/
abbrev Gk := Prog GkOp GkOp.Res Exc

/-- One statement of Gatekeeper's. -/
abbrev call (o : GkOp) : Gk o.Res := Prog.perform o

/-- The tables and the clock. -/
structure Db where
  killSwitches : List KillSwitch
  inbox : List InboxRow
  decisions : List Decision
  actions : List ActionRow
  now : Nat
  nextId : Nat
deriving DecidableEq

/-- No request has been served yet. -/
def Db.empty : Db := ⟨[], [], [], [], 0, 0⟩

/-! ## The selects and updates of `approval_inbox.py` -/

/-- `decided_at DESC NULLS LAST, created_at DESC`. -/
def InboxRow.decidedBefore (r s : InboxRow) : Bool :=
  match r.decidedAt, s.decidedAt with
  | some a, some b => a > b || (a == b && r.createdAt > s.createdAt)
  | some _, none => true
  | none, some _ => false
  | none, none => r.createdAt > s.createdAt

/-- `created_at DESC`. -/
def InboxRow.newer (r s : InboxRow) : Bool := r.createdAt > s.createdAt

/-- `_SELECT_LATEST_APPROVED` can answer with this row. -/
def latestApproved (inbox : List InboxRow) (t : Triple) : Option InboxRow → Bool :=
  Table.selects inbox (fun r => r.triple == t && r.status == .approved) InboxRow.decidedBefore

/-- `_SELECT_LATEST_ANY_STATUS` can answer with this row. -/
def latestAnyStatus (inbox : List InboxRow) (t : Triple) : Option InboxRow → Bool :=
  Table.selects inbox (fun r => r.triple == t) InboxRow.newer

/-- The row `_INSERT_INBOX` writes. -/
def NewInboxRow.toRow (n : NewInboxRow) (id createdAt : Nat) : InboxRow :=
  ⟨id, some n.gateDecisionId, n.triple, n.actionClass, n.level, n.previewTitle,
    n.previewReference, n.evidenceSummary, .pending, none, none, n.linkToken, none, n.expiresAt,
    createdAt⟩

/-- `_CONSUME_LINK`: the guard is the link, not the status and not the expiry. -/
def consumeLink (inbox : List InboxRow) (inboxId : Nat) (status : InboxStatus) (decidedBy : String)
    (now : Nat) : Option InboxRow × List InboxRow :=
  Table.update inbox (fun r => r.id == inboxId && r.linkConsumedAt == none) fun r =>
    { r with status := status, decidedBy := some decidedBy, decidedAt := some now,
             linkConsumedAt := some now }

/-- `_MARK_EXPIRED`: guarded by the status. -/
def markExpired (inbox : List InboxRow) (inboxId : Nat) : Option InboxRow × List InboxRow :=
  Table.update inbox (fun r => r.id == inboxId && r.status == .pending) fun r =>
    { r with status := .expired }

/-- One statement against the tables. -/
def exec : (o : GkOp) → o.Res → Db → Option (o.Res × Db)
  | .selectActiveSwitches f, row, db =>
    if isFirst db.killSwitches (.str f) row then some (row, db) else none
  | .insertGateDecision agentRunId decidedBy outcome reason, _, db =>
    let row : Decision := ⟨db.nextId, agentRunId, decidedBy, outcome, reason⟩
    some (row, { db with decisions := row :: db.decisions, nextId := db.nextId + 1 })
  | .selectLatestApproved t, row, db =>
    if latestApproved db.inbox t row then some (row, db) else none
  | .selectLatestAnyStatus t, row, db =>
    if latestAnyStatus db.inbox t row then some (row, db) else none
  | .utcNow, _, db => some (db.now, db)
  | .insertInbox n, _, db =>
    -- `link_token` is uniquely constrained: a repeated one can only fail
    if db.inbox.any fun r => r.linkToken == n.linkToken then none
    else
      let row := n.toRow db.nextId db.now
      some (row, { db with inbox := row :: db.inbox, nextId := db.nextId + 1 })
  | .issueGateToken decision subject contentHash functionId, _, db =>
    some (⟨db.nextId, decision, subject, contentHash, functionId⟩,
      { db with nextId := db.nextId + 1 })
  | .selectByToken linkToken, _, db =>
    some (db.inbox.find? fun r => r.linkToken == linkToken, db)
  | .consumeLink inboxId choice decidedBy, _, db =>
    let u := consumeLink db.inbox inboxId choice.status decidedBy db.now
    some (u.1, { db with inbox := u.2 })
  | .markExpired inboxId, _, db =>
    let u := markExpired db.inbox inboxId
    some (u.1, { db with inbox := u.2 })
  | .backLink inboxId decisionId, _, db =>
    some ((), { db with inbox := (Table.update db.inbox (fun r => r.id == inboxId) fun r =>
      { r with gateDecisionId := some decisionId }).2 })
  | .insertAction row, _, db => some ((), { db with actions := row :: db.actions })
  | .generateLinkToken, answer, db => some (answer, db)
  | .teamsWebhookUrl, answer, db => some (answer, db)
  | .postAdaptiveCard _ _, answer, db => some (answer, db)

end CanvasOS.Gatekeeper
