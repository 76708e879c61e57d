/-
  What the orchestrator's worker talks to: `db.py`, the two queues, and the world behind a handler.

  1. **Rows and messages** — `task_state`, `task_transitions`, the `task` and `event` queues.  A
     message stays on its queue, locked, until it is completed, and counts its deliveries.
  2. **Statements** (`Query`) — each function of `db.py` is one transaction, hence one statement,
     except `advance_dependents`, whose two SELECTs and whose transitions are statements of their
     own.  A call of a handler to the outside (the models, Vault, Gatekeeper, the publisher) answers
     as it likes and has no state here.
  3. `exec` — what a statement does and which answers it can give.
-/
import CanvasOS.Lib.Sequential
import CanvasOS.Lib.Select
import CanvasOS.Lib.Python
import CanvasOS.Orchestrator.Loop

namespace CanvasOS.Orchestrator

open Interleave Python

/-! ## Rows and messages -/

/-- `TaskStateEnum`. -/
inductive TaskState where
  | pending
  | dispatchable
  | dispatched
  | running
  | completed
  | retryPending
  | deadLettered
  | failed
deriving DecidableEq

/-- `_PERMANENTLY_BLOCKED_STATES`: what a dependency can be stuck in forever. -/
def TaskState.blocked : TaskState → Bool
  | .deadLettered => true
  | .failed => true
  | _ => false

/-- `_TERMINAL_STATES`. -/
def TaskState.terminal (s : TaskState) : Bool := s.blocked || s == .completed

/-- `TransitionReason`. -/
inductive TransitionReason where
  | created
  | dependencySatisfied
  | dispatched
  | completed
  | failedAttempt1
  | failedAttempt2
  | deadLettered
  | dependencyDeadLettered
  | vaultWriteFailed
  | qaBlocked
deriving DecidableEq

/-- A `result_ref`: a small JSON object. -/
abbrev ResultRef := List (String × Json)

/-- A row of `task_state`. -/
structure TaskRow where
  taskId : TaskId
  loopId : String
  taskType : String
  state : TaskState
  retryCount : Nat
  dependsOn : List TaskId
  resultRef : Option ResultRef
deriving DecidableEq

/-- A row of `task_transitions`. -/
structure Transition where
  taskId : TaskId
  fromState : Option TaskState
  toState : TaskState
  reason : TransitionReason
deriving DecidableEq

/-- `TaskEnvelope`, the fields the worker reads. -/
structure TaskEnvelope where
  taskId : TaskId
  taskType : String
  retryCount : Nat
deriving DecidableEq

/-- A message on the `task` queue and the number of times it has been delivered. -/
structure TaskMessage where
  envelope : TaskEnvelope
  deliveryCount : Nat
deriving DecidableEq

/-- `DeadLetterAlert`. -/
structure DeadLetterAlert where
  taskId : TaskId
  taskType : String
  loopId : String
  failureCount : Nat
deriving DecidableEq

/-- A message on the `event` queue.  A heartbeat is told by its `event_id`. -/
inductive EventMessage where
  | heartbeat (event : Nat)
  | deadLetterAlert (alert : DeadLetterAlert)
deriving DecidableEq

/-- The two tables and the two queues. -/
structure State where
  tasks : List TaskRow
  transitions : List Transition
  taskQueue : List TaskMessage
  eventQueue : List EventMessage
deriving DecidableEq

/-- Nothing has happened yet. -/
def State.empty : State := ⟨[], [], [], []⟩

/-- The row `insert_task_batch` writes: a task without dependencies can be dispatched at once. -/
def NewTask.toRow (n : NewTask) : TaskRow :=
  ⟨n.taskId, n.loopId, n.taskType, if n.dependsOn = [] then .dispatchable else .pending, 0,
    n.dependsOn, none⟩

/-! ## Statements -/

/-- The part of the source a statement is issued by; what it does to the state does not depend on
    it. -/
inductive Site where
  /-- `dispatch_task`, up to and including the call of the handler -/
  | gate
  /-- a handler -/
  | handler
  /-- `state_machine.py`, up to the alert -/
  | stateMachine
  /-- `emit_alert` and its consumer -/
  | alert
  /-- `worker.py` -/
  | worker
  /-- the queue consumer's `complete` -/
  | transport
deriving DecidableEq

/-- What a handler's own work came to: the `result_ref` it stores, whether it completes its task or
    blocks it, and the `result_ref`s of other tasks it rewrites (the publish sweep does). -/
structure Outcome where
  ref : ResultRef
  completes : Bool
  writeBacks : List (TaskId × ResultRef)
deriving DecidableEq, Inhabited

/-- What one QA check came to: the hash of the asset it read, its agent run, and the violations left
    after reconciliation (a refusal without a code counts as one). -/
structure Reviewed where
  contentHash : Json
  agentRunId : String
  violations : List String
deriving DecidableEq

instance : Inhabited Reviewed := ⟨.null, "", []⟩

/-- A regenerated draft, stored in Vault. -/
structure Regenerated where
  vaultAssetId : String
  contentHash : String
  agentRunId : String
deriving DecidableEq, Inhabited

/-- The two Thursday review kinds (`_QA_REVIEW_PARAMS`). -/
inductive ReviewKind where
  | brandSteward
  | factCheck
deriving DecidableEq

/-- The statements. -/
inductive Query where
  | insertTaskBatch (tasks : List NewTask)
  | transition (taskId : TaskId) (toState : TaskState) (reason : TransitionReason)
  /-- `advance_dependents`: PENDING rows whose `depends_on` contains `taskId` -/
  | pendingDependents (taskId : TaskId)
  /-- `advance_dependents`: `count(*)` of the COMPLETED rows among these -/
  | countCompleted (taskIds : List TaskId)
  | incrementRetry (taskId : TaskId)
  | setResultRef (taskId : TaskId) (ref : ResultRef)
  | getTask (taskId : TaskId)
  | getTasks (taskIds : List TaskId)
  | findDependentTasks (taskId : TaskId)
  | publishTask (envelope : TaskEnvelope)
  | publishAlert (alert : DeadLetterAlert)
  | completeTask (msg : TaskMessage)
  | completeEvent (msg : EventMessage)
  /-- the handler of this task is called: nothing happens but the call, which the site `gate`
      makes from `dispatch_task` and the site `handler` after a failure -/
  | invoke (taskId : TaskId)
  /-- everything an ordinary handler does before it stores its outcome -/
  | work (taskId : TaskId) (taskType : String)
  /-- `get_or_create_campaign` -/
  | campaign (taskId : TaskId)
  /-- `_fact_check_gate_approved` -/
  | factCheckGateApproved
  /-- one QA check of a draft: the asset, the model's verdict and the deterministic checks -/
  | review (taskId : TaskId) (kind : ReviewKind)
  /-- `_regenerate_draft_content` and `create_asset` -/
  | regenerate (draftTaskId : TaskId) (attempt : Nat) (violations : List String)
  | tryAdvisoryLock (draftTaskId : TaskId)
  | releaseAdvisoryLock (draftTaskId : TaskId)
  /-- a Teams card -/
  | notify (taskId : TaskId)
deriving DecidableEq

/-- What each statement answers with. -/
abbrev Query.Res : Query → Type
  | .insertTaskBatch _ => Unit
  | .transition _ _ _ => Unit
  | .pendingDependents _ => List TaskRow
  | .countCompleted _ => Nat
  | .incrementRetry _ => Nat
  | .setResultRef _ _ => Unit
  | .getTask _ => Option TaskRow
  | .getTasks _ => List TaskRow
  | .findDependentTasks _ => List TaskRow
  | .publishTask _ => Unit
  | .publishAlert _ => Unit
  | .completeTask _ => Unit
  | .completeEvent _ => Unit
  | .invoke _ => Unit
  | .work _ _ => Outcome
  | .campaign _ => String
  | .factCheckGateApproved => Bool
  | .review _ _ => Reviewed
  | .regenerate _ _ _ => Regenerated
  | .tryAdvisoryLock _ => Bool
  | .releaseAdvisoryLock _ => Unit
  | .notify _ => Unit

/-- A statement and the part of the source that issues it. -/
structure Stmt where
  site : Site
  query : Query
deriving DecidableEq

abbrev Stmt.Res (o : Stmt) : Type := o.query.Res

/-- The exceptions the worker tells apart. -/
inductive Exc where
  | dependencyDeadLettered (blockingTaskId : TaskId)
  | taskAlreadyTerminal (currentState : TaskState)
  | taskNotReady
  | other
deriving DecidableEq

/-- The worker's routines. -/
abbrev Worker := Prog Stmt Stmt.Res Exc

/-- One statement.  Whatever it raises is none of the dispatcher's own exceptions. -/
def call (site : Site) (q : Query) : Worker q.Res :=
  .op ⟨site, q⟩ fun
    | .ok a => .pure a
    | .error _ => .throw .other

/-! ## Execution -/

/-- The rows an unordered SELECT answers with: the matching ones, in any order. -/
def selectsAll (rows : List TaskRow) (p : TaskRow → Bool) (answer : List TaskRow) : Bool :=
  answer.isPerm (rows.filter p)

/-- `INSERT … ON CONFLICT (task_id) DO NOTHING`, and the `created` transition of a new row. -/
def State.insertTask (s : State) (n : NewTask) : State :=
  if s.tasks.any fun r => r.taskId == n.taskId then s
  else { s with
    tasks := s.tasks ++ [n.toRow]
    transitions := ⟨n.taskId, none, n.toRow.state, .created⟩ :: s.transitions }

/-- `UPDATE task_state … WHERE task_id = …`. -/
def State.updateTask (s : State) (taskId : TaskId) (f : TaskRow → TaskRow) : List TaskRow :=
  (Table.update s.tasks (fun r => r.taskId == taskId) f).2

/-- The row with this id. -/
def State.find (s : State) (taskId : TaskId) : Option TaskRow :=
  s.tasks.find? fun r => r.taskId == taskId

/-- One statement against the tables and the queues. -/
def exec : (q : Query) → q.Res → State → Option (q.Res × State)
  | .insertTaskBatch tasks, _, s => some ((), tasks.foldl State.insertTask s)
  | .transition taskId toState reason, _, s =>
    -- without a row, the foreign key of `task_transitions` makes the transaction fail
    (s.find taskId).map fun row => ((), { s with
      tasks := s.updateTask taskId fun r => { r with state := toState }
      transitions := ⟨taskId, some row.state, toState, reason⟩ :: s.transitions })
  | .pendingDependents taskId, answer, s =>
    if selectsAll s.tasks (fun r => taskId ∈ r.dependsOn && r.state == .pending) answer
    then some (answer, s) else none
  | .countCompleted taskIds, _, s =>
    some ((s.tasks.filter fun r => r.taskId ∈ taskIds && r.state == .completed).length, s)
  | .incrementRetry taskId, _, s =>
    (s.find taskId).map fun row => (row.retryCount + 1, { s with
      tasks := s.updateTask taskId fun r => { r with retryCount := r.retryCount + 1 } })
  | .setResultRef taskId ref, _, s =>
    some ((), { s with tasks := s.updateTask taskId fun r => { r with resultRef := some ref } })
  | .getTask taskId, _, s => some (s.find taskId, s)
  | .getTasks taskIds, answer, s =>
    if selectsAll s.tasks (fun r => r.taskId ∈ taskIds) answer then some (answer, s) else none
  | .findDependentTasks taskId, answer, s =>
    if selectsAll s.tasks (fun r => taskId ∈ r.dependsOn) answer then some (answer, s) else none
  | .publishTask envelope, _, s => some ((), { s with taskQueue := ⟨envelope, 0⟩ :: s.taskQueue })
  | .publishAlert alert, _, s =>
    some ((), { s with eventQueue := .deadLetterAlert alert :: s.eventQueue })
  | .completeTask msg, _, s => some ((), { s with taskQueue := s.taskQueue.erase msg })
  | .completeEvent msg, _, s => some ((), { s with eventQueue := s.eventQueue.erase msg })
  | .invoke _, answer, s => some (answer, s)
  | .work _ _, answer, s => some (answer, s)
  | .campaign _, answer, s => some (answer, s)
  | .factCheckGateApproved, answer, s => some (answer, s)
  | .review _ _, answer, s => some (answer, s)
  | .regenerate _ _ _, answer, s => some (answer, s)
  | .tryAdvisoryLock _, answer, s => some (answer, s)
  | .releaseAdvisoryLock _, answer, s => some (answer, s)
  | .notify _, answer, s => some (answer, s)

end CanvasOS.Orchestrator
