/-
  The worker: `state_machine.py`, `dispatch/gating.py` and `worker.py`.

  1. `recordFailure`, `cascadeDeadLetter` — the retry and dead-letter state machine.
  2. `dispatchTask` — the dispatch gate, and the call of the handler behind it.
  3. `handleTaskMessage`, `reconcileRedeliveredTask`, `handleHeartbeatMessage` — one message.
  4. `worker` — the system: messages are delivered in any order and any number of times, routines
     are interleaved, a statement may fail, execute unheard or be the last one before a crash.
     `OneAtATime` restricts it to the runs in which no two messages are handled at once.
-/
import CanvasOS.Orchestrator.Handlers

namespace CanvasOS.Orchestrator

open Interleave Python

/-! ## The retry and dead-letter state machine -/

/-- `emit_alert`. -/
def emitAlert (taskId : TaskId) : Worker Unit := do
  match ← call .alert (.getTask taskId) with
  | none => throw .other
  | some task => call .alert (.publishAlert ⟨task.taskId, task.taskType, task.loopId, 3⟩)

/-- The number of failures that dead-letters a task. -/
def maxFailures : Nat := 3

/-- `record_failure`, of a task that is not terminal. -/
def countFailure (taskId : TaskId) : Worker TaskState := do
  let newRetryCount ← call .stateMachine (.incrementRetry taskId)
  if newRetryCount < maxFailures then do
    call .stateMachine (.transition taskId .retryPending
      (if newRetryCount = 1 then .failedAttempt1 else .failedAttempt2))
    pure .retryPending
  else do
    call .stateMachine (.transition taskId .deadLettered .deadLettered)
    emitAlert taskId
    pure .deadLettered

/-- `record_failure`. -/
def recordFailure (taskId : TaskId) : Worker TaskState := do
  match ← call .stateMachine (.getTask taskId) with
  | none => countFailure taskId
  | some current => if current.state.terminal then pure current.state else countFailure taskId

/-- `cascade_dead_letter`: a no-op on a dead-lettered task only. -/
def cascadeDeadLetter (taskId : TaskId) : Worker TaskState := do
  let current ← call .stateMachine (.getTask taskId)
  if current.map (·.state) = some .deadLettered then pure .deadLettered
  else do
    call .stateMachine (.transition taskId .deadLettered .dependencyDeadLettered)
    emitAlert taskId
    pure .deadLettered

/-! ## The dispatch gate -/

/-- `_find_dead_lettered_dependency`: one hop, no matter which of several is found. -/
def findDeadLetteredDependency (current : TaskRow) : Worker (Option TaskRow) :=
  if current.dependsOn = [] then pure none
  else do
    let rows ← call .gate (.getTasks current.dependsOn)
    pure (rows.find? fun r => r.state.blocked)

/-- What `dispatch_task` does with a dispatchable task. -/
def runTask (envelope : TaskEnvelope) : Worker Unit :=
  match dispatchTable envelope.taskType with
  | none => legacyTaskPassThrough .gate envelope.taskId
  | some handler => do
    call .gate (.transition envelope.taskId .running .dispatched)
    call .gate (.invoke envelope.taskId)
    handler.run envelope

/-- `dispatch_task`. -/
def dispatchTask (envelope : TaskEnvelope) : Worker Unit := do
  match ← call .gate (.getTask envelope.taskId) with
  | none => throw .taskNotReady
  | some current =>
    if current.state = .dispatchable then runTask envelope
    else if current.state.terminal then throw (.taskAlreadyTerminal current.state)
    else do
      match ← findDeadLetteredDependency current with
      | some dep => throw (.dependencyDeadLettered dep.taskId)
      | none => throw .taskNotReady

/-! ## One message -/

/-- `NOT_READY_MAX_REQUEUES` (`policy/worker.yaml`). -/
def notReadyMaxRequeues : Nat := 20

/-- The handler once more, outside the dispatch gate. -/
def runAgain (envelope : TaskEnvelope) : Worker Unit :=
  match dispatchTable envelope.taskType with
  | none => legacyTaskPassThrough .handler envelope.taskId
  | some handler => do
    call .handler (.invoke envelope.taskId)
    handler.run envelope

/-- `while outcome == retry_pending`.  Each turn records a failure, so the task is dead-lettered
    before `fuel` runs out. -/
def retryWhile (envelope : TaskEnvelope) : (fuel : Nat) → TaskState → Worker Unit
  | 0, _ => pure ()
  | fuel + 1, outcome =>
    if outcome = .retryPending then
      tryCatch (runAgain envelope) fun _ => do
        let outcome ← recordFailure envelope.taskId
        retryWhile envelope fuel outcome
    else pure ()

/-- `_retry_or_dead_letter`. -/
def retryOrDeadLetter (envelope : TaskEnvelope) : Worker Unit := do
  let outcome ← recordFailure envelope.taskId
  retryWhile envelope maxFailures outcome

/-- What becomes of an envelope that was not ready: it is bounced back onto the queue, or given up
    at the requeue bound. -/
def requeueOrGiveUp (envelope : TaskEnvelope) : Worker Unit :=
  if notReadyMaxRequeues ≤ envelope.retryCount then do
    let _ ← recordFailure envelope.taskId
    pure ()
  else call .worker (.publishTask { envelope with retryCount := envelope.retryCount + 1 })

/-- `handle_task_message`. -/
def handleTaskMessage (envelope : TaskEnvelope) : Worker Unit :=
  tryCatch (dispatchTask envelope) fun
    | .dependencyDeadLettered _ => do
      let _ ← cascadeDeadLetter envelope.taskId
      pure ()
    | .taskAlreadyTerminal _ => pure ()
    | .taskNotReady => requeueOrGiveUp envelope
    | .other => retryOrDeadLetter envelope

/-- `reconcile_redelivered_task`. -/
def reconcileRedeliveredTask (envelope : TaskEnvelope) : Worker Unit := do
  let _ ← recordFailure envelope.taskId
  pure ()

/-- One turn of the loop over `task_messages`: whatever happens, the message is completed. -/
def processTask (msg : TaskMessage) : Worker Unit := do
  tryCatch (if 1 < msg.deliveryCount then reconcileRedeliveredTask msg.envelope
    else handleTaskMessage msg.envelope) fun _ => pure ()
  tryCatch (call .transport (.completeTask msg)) fun _ => pure ()

/-- What the worker is configured with: the accepted loops, and the loop each heartbeat names (an
    `event_id` is fresh, so it fixes its heartbeat). -/
structure Settings where
  loops : String → Option AcceptedLoop
  firedFor : Nat → String

/-- The batch of a heartbeat; a heartbeat for an unknown loop has none. -/
def Settings.batch (S : Settings) (event : Nat) : List NewTask :=
  match S.loops (S.firedFor event) with
  | none => []
  | some L => decompose L.loop event

/-- The envelope a task of a batch is published with. -/
def NewTask.envelope (n : NewTask) : TaskEnvelope := ⟨n.taskId, n.taskType, 0⟩

/-- One envelope per task of the batch. -/
def publishAll : List NewTask → Worker Unit
  | [] => pure ()
  | n :: rest => do
    call .worker (.publishTask n.envelope)
    publishAll rest

/-- `handle_heartbeat_message`. -/
def handleHeartbeatMessage (S : Settings) (event : Nat) : Worker Unit :=
  match S.loops (S.firedFor event) with
  | none => pure ()
  | some L => do
    call .worker (.insertTaskBatch (decompose L.loop event))
    publishAll (decompose L.loop event)

/-- One turn of the loop over `event_messages`. -/
def processEvent (S : Settings) (msg : EventMessage) : Worker Unit := do
  tryCatch
    (match msg with
      | .heartbeat event => handleHeartbeatMessage S event
      | .deadLetterAlert alert => call .alert (.notify alert.taskId)) fun _ => pure ()
  tryCatch (call .transport (.completeEvent msg)) fun _ => pure ()

/-! ## The system -/

/-- A delivered message. -/
inductive Delivery where
  | task (msg : TaskMessage)
  | event (msg : EventMessage)
deriving DecidableEq

/-- The routine of a delivered message. -/
def process (S : Settings) : Delivery → Worker Unit
  | .task msg => processTask msg
  | .event msg => processEvent S msg

/-- A message is received: it stays on its queue, and a task message counts the delivery. -/
def State.receive (s : State) : Delivery → Option State
  | .task msg =>
    if 0 < msg.deliveryCount ∧ ⟨msg.envelope, msg.deliveryCount - 1⟩ ∈ s.taskQueue then
      some { s with
        taskQueue := msg :: s.taskQueue.erase ⟨msg.envelope, msg.deliveryCount - 1⟩ }
    else none
  | .event msg => if msg ∈ s.eventQueue then some s else none

/-- What the world does: a heartbeat fires, or a queue delivers a second copy of a message. -/
inductive Move where
  | fire (event : Nat)
  | duplicateTask (msg : TaskMessage)
  | duplicateEvent (msg : EventMessage)
deriving DecidableEq

def Move.apply : Move → State → Option State
  | .fire event, s => some { s with eventQueue := .heartbeat event :: s.eventQueue }
  | .duplicateTask msg, s =>
    if msg ∈ s.taskQueue then some { s with taskQueue := msg :: s.taskQueue } else none
  | .duplicateEvent msg, s =>
    if msg ∈ s.eventQueue then some { s with eventQueue := msg :: s.eventQueue } else none

/-- Any number of handled messages over the tables and the queues. -/
def worker (S : Settings) : Sys Stmt Stmt.Res Exc State Nat Delivery Unit Move where
  body := process S
  enter _ d s := s.receive d
  run _ o := exec o.query
  env := Move.apply

/-- A configuration of the worker. -/
abbrev Snapshot := Config Stmt Stmt.Res Exc State Nat Delivery Unit

/-- An act of a run of the worker. -/
abbrev Action := Act Stmt Stmt.Res Exc Nat Delivery Move

/-- No message is being handled. -/
def Quiet (c : Snapshot) : Prop := ∀ i, ¬ c.Running i

/-- A message is received only when no other is being handled. -/
def OneAtATime (c : Snapshot) : Action → Prop
  | .enter _ _ => Quiet c
  | _ => True

end CanvasOS.Orchestrator
