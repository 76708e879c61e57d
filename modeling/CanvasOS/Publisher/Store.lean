/-
  What Publisher's request handler talks to, and what each of those calls does.

  1. **Statements** (`PubOp`) — the database statements of `jti_ledger.py`, `kill_switch.py` and
     `routers/publish.py`, and the HTTP calls of `vault_lookup.py`, `vault_adapter.py` and
     `buffer_client.py`.  Every connection is in autocommit mode, so each statement is a
     transaction of its own.
  2. **Shared state** (`Db`) — the three governance tables.  Vault, Buffer and the token library
     answer as they like, so they have no state here: what they answered stands in the history.
  3. `exec` — what a statement does to the tables and which answers it can give.
-/
import CanvasOS.Lib.System
import CanvasOS.Governance.KillSwitch
import CanvasOS.Governance.ResourceClaim

namespace CanvasOS.Publisher

open Interleave Python Governance

/-- An HTTP answer: the status, and the decoded body if it is JSON. -/
structure Response where
  statusCode : Nat
  json : Option Json
deriving DecidableEq

/-- A row for `governance.publish_attempts`. -/
structure Attempt where
  agentRunId : String
  gateDecisionId : Option String
  functionId : Json
  jti : Json
  contentHash : Json
  outcome : String
  reason : String
deriving DecidableEq

/-- The body of `POST /publish`'s answer (`PublishResponse`). -/
structure PublishResponse where
  attemptId : String
  outcome : String
  reason : String
  functionId : Json
  contentHash : Json
  gateDecisionId : Option String
  jti : Json
  vaultRecordId : Option String
deriving DecidableEq

/-- The exceptions of the handler, told apart by the `except` clauses that look at them. -/
inductive Exc where
  | verification (reason : String)
  | expiredSignature
  | invalidAlgorithm
  | pyJwt
  | vaultLookup
  | vaultWrite
  | bufferClient
  | httpx
  | httpText (status : Nat) (detail : String)
  | httpRefused (status : Nat) (detail : PublishResponse)
  | other (what : String)
deriving DecidableEq

/-- The statements of the handler. -/
inductive PubOp where
  /-- `build_verifier()`: reads the verification key -/
  | buildVerifier
  /-- `jwt.get_unverified_header(token)` -/
  | getUnverifiedHeader (token : String)
  /-- `jwt.decode(token, …)`: signature, pinned algorithms, required claims, issuer, audience, expiry -/
  | jwtDecode (token : String)
  /-- `_SELECT_ACTIVE_SWITCHES` -/
  | selectActiveSwitches (functionId : Json)
  /-- `GET /assets/{asset_id}` at the Vault -/
  | getAsset (assetId : String)
  /-- `GET /agent-runs/{id}` at the Vault -/
  | getAgentRun (agentRunId : Json)
  /-- `PUBLISHER_DRY_RUN`, as `publisher_dry_run()` reads it -/
  | publisherDryRun
  /-- `_CONSUME_JTI`: INSERT … ON CONFLICT (jti) DO NOTHING RETURNING jti -/
  | consumeJti (jti : Json) (gateDecisionId : Option String)
  /-- `resolve_mcp_buffer_base_url()` -/
  | resolveMcpBufferBaseUrl
  /-- `POST /mcp` with tool `list_queue` -/
  | listQueue (channelId : String)
  /-- `POST /mcp` with tool `create_draft` -/
  | createDraft (channelId text : String) (utmCampaign postArchetype : Option String)
  /-- `GET /gate-decisions/{id}` at the Vault -/
  | getGateDecision (id : String)
  /-- `POST /gate-decisions` at the Vault -/
  | postGateDecision (agentRunId : String) (reason : String) (functionId : Json)
      (taxonomy : List (String × Json))
  /-- `_INSERT_ATTEMPT` … RETURNING id -/
  | insertAttempt (row : Attempt)

/-- What each statement answers with. -/
abbrev PubOp.Res : PubOp → Type
  | .buildVerifier => Unit
  | .getUnverifiedHeader _ => List (String × Json)
  | .jwtDecode _ => Claims
  | .selectActiveSwitches _ => Option KillSwitch
  | .getAsset _ => Response
  | .getAgentRun _ => Response
  | .publisherDryRun => Bool
  | .consumeJti _ _ => Bool
  | .resolveMcpBufferBaseUrl => Option String
  | .listQueue _ => Response
  | .createDraft _ _ _ _ => Response
  | .getGateDecision _ => Response
  | .postGateDecision _ _ _ _ => Response
  | .insertAttempt _ => String

/-- Publisher's routines. -/
abbrev Pub := Prog PubOp PubOp.Res Exc

/-- One statement of Publisher's. -/
abbrev call (o : PubOp) : Pub o.Res := Prog.perform o

/-- `try: p except …: raise …`, where every clause only raises another exception. -/
def translating {α : Type} (f : Exc → Exc) (p : Pub α) : Pub α := p.tryCatch fun e => .throw (f e)

/-- The governance tables Publisher reads and writes. -/
structure Db where
  killSwitches : List KillSwitch
  jtiLedger : List Json
  publishAttempts : List Attempt

/-- One statement against the tables.  The two writes and the kill-switch read are the database's;
    every other call is answered by another service, with whatever it likes. -/
def exec : (o : PubOp) → o.Res → Db → Option (o.Res × Db)
  | .selectActiveSwitches f, row, db =>
    if isFirst db.killSwitches f row then some (row, db) else none
  | .consumeJti jti _, _, db =>
    if jti ∈ db.jtiLedger then some (false, db)
    else some (true, { db with jtiLedger := jti :: db.jtiLedger })
  | .insertAttempt row, id, db =>
    some (id, { db with publishAttempts := row :: db.publishAttempts })
  | _, answer, db => some (answer, db)

end CanvasOS.Publisher
