/-
  What the worker does to the task rows when it handles one message at a time.

  1. `Lineage`, `Siblings` — the draft a Thursday review stands for, and the other review of it.
  2. `Regime` — the replies a proof has to reckon with, and what it may assume of them.
  3. `LawfulMove`, `Lawful` — every way in which a task changes its state, with what holds at that
     moment.  `Orchestrator.Handling` proves that the routines do nothing else.
  4. `Upkeep` — an invariant that lawful statements keep.  A claim about the sequential worker is
     an `Upkeep`: it is proved by cases on `LawfulMove`, and never looks at a routine again.
-/
import CanvasOS.Orchestrator.Rows

namespace CanvasOS.Orchestrator

open Interleave Python

/-! ## Ancestors and siblings -/

/-- `a` is an ancestor of task `t`, and between them there are only tasks of the types `via`. -/
inductive Settings.Lineage (S : Settings) (via : String → Prop) (t : TaskId) : TaskId → Prop where
  | parent {n : NewTask} {a : TaskId} : S.Has n → n.taskId = t → a ∈ n.dependsOn → Lineage S via t a
  | step {n : NewTask} {a : TaskId} : Lineage S via t n.taskId → S.Has n → via n.taskType →
      a ∈ n.dependsOn → Lineage S via t a

/-- `t` and `u` are the two reviews of one draft: the draft is an ancestor of `t`, and `u` depends
    on it. -/
structure Settings.SiblingsBy (S : Settings) (via : String → Prop) (t u : TaskId)
    (kind : ReviewKind) (review other draft : NewTask) : Prop where
  review_has : S.Has review
  review_id : review.taskId = t
  review_type : review.taskType = kind.taskType
  other_has : S.Has other
  other_id : other.taskId = u
  other_type : other.taskType = kind.other.taskType
  draft_has : S.Has draft
  draft_type : draft.taskType ∈ draftRegenTypes
  lineage : S.Lineage via t draft.taskId
  reviewed : draft.taskId ∈ other.dependsOn

/-- `u` is the other review of a draft that `t` reviews. -/
def Settings.Siblings (S : Settings) (via : String → Prop) (t u : TaskId) : Prop :=
  ∃ kind review other draft, S.SiblingsBy via t u kind review other draft

theorem ReviewKind.taskType_other_ne (kind : ReviewKind) : kind.other.taskType ≠ kind.taskType := by
  cases kind <;> decide

theorem Settings.Siblings.ne {S : Settings} {via : String → Prop} {t u : TaskId}
    (h : S.Siblings via t u) : u ≠ t := by
  obtain ⟨kind, review, other, draft, h⟩ := h
  rintro rfl
  obtain rfl := h.review_has.eq h.other_has (h.review_id.trans h.other_id.symm)
  exact kind.taskType_other_ne (h.other_type.symm.trans h.review_type)

/-! ## What a state says of dependencies -/

/-- All of these are completed. -/
def Fed (deps : List TaskId) (s : State) : Prop :=
  ∀ d ∈ deps, ∃ r ∈ s.tasks, r.taskId = d ∧ r.state = .completed

/-- At least one of these is not completed. -/
def Unfed (deps : List TaskId) (s : State) : Prop :=
  ∃ d ∈ deps, ∀ r ∈ s.tasks, r.taskId = d → r.state ≠ .completed

/-- No dependent of `t` is left pending for nothing. -/
def Advanced (t : TaskId) (s : State) : Prop :=
  ∀ r ∈ s.tasks, r.state = .pending → t ∈ r.dependsOn → Unfed r.dependsOn s

/-- The handler of this task is at work, or will be tried again. -/
def TaskRow.live (r : TaskRow) : Prop := r.state = .running ∨ r.state = .retryPending

theorem TaskRow.live.not_terminal {r : TaskRow} (h : r.live) : r.state.terminal = false := by
  rcases h with h | h <;> rw [h] <;> rfl

theorem not_completed_of_not_terminal {x : TaskState} (h : x.terminal = false) :
    x ≠ .completed := by
  rintro rfl
  cases h

section Stable

variable {deps : List TaskId} {s t : State}

theorem Fed.calm (h : Fed deps s) (hc : Calm s t) : Fed deps t := fun d hd => by
  obtain ⟨r, hr, hid, hst⟩ := h d hd
  obtain ⟨r', hr', hf⟩ := hc.forth r hr
  exact ⟨r', hr', hf.taskId.trans hid, hf.state.trans hst⟩

theorem Unfed.calm (h : Unfed deps s) (hc : Calm s t) : Unfed deps t := by
  obtain ⟨d, hd, hall⟩ := h
  refine ⟨d, hd, fun r' hr' hid => ?_⟩
  obtain ⟨r, hr, hf⟩ := hc.back r' hr'
  rw [hf.state]
  exact hall r hr (hf.taskId.symm.trans hid)

theorem Advanced.calm {u : TaskId} (h : Advanced u s) (hc : Calm s t) : Advanced u t := by
  intro r' hr' hst hmem
  obtain ⟨r, hr, hf⟩ := hc.back r' hr'
  rw [hf.dependsOn]
  exact (h r hr (hf.state.symm.trans hst) (hf.dependsOn ▸ hmem)).calm hc

/-- A task that was not completed moves: what was completed stays completed. -/
theorem Fed.released {S : Settings} {u : TaskId} {dest : TaskState}
    (hw : WellFormed S s) (h : Fed deps s) (hm : Moved u dest s t)
    (hu : ∃ r ∈ s.tasks, r.taskId = u ∧ r.state ≠ .completed) : Fed deps t := by
  intro d hd
  obtain ⟨r, hr, hid, hst⟩ := h d hd
  obtain ⟨r₀, hr₀, hid₀, hst₀⟩ := hu
  have hne : r.taskId ≠ u := fun heq => hst₀ (hw.unique hr₀ hr (hid₀.trans heq.symm) ▸ hst)
  have hmem := hm.forth hr
  rw [TaskRow.moved_of_ne hne] at hmem
  exact ⟨r, hmem, hid, hst⟩

/-- A move elsewhere than to COMPLETED completes nothing. -/
theorem Unfed.moved {u : TaskId} {dest : TaskState}
    (h : Unfed deps s) (hm : Moved u dest s t) (hdest : dest ≠ .completed) : Unfed deps t := by
  obtain ⟨d, hd, hall⟩ := h
  refine ⟨d, hd, fun r' hr' hid => ?_⟩
  obtain ⟨r, hr, rfl⟩ := hm.back hr'
  by_cases hru : r.taskId = u
  · rw [TaskRow.moved_self hru]
    exact hdest
  · rw [TaskRow.moved_of_ne hru] at hid ⊢
    exact hall r hr hid

/-- A task that is not completed itself holds its dependents back. -/
theorem advanced_of_not_completed {S : Settings} (hw : WellFormed S s) {r : TaskRow}
    (hr : r ∈ s.tasks) (hst : r.state ≠ .completed) : Advanced r.taskId s :=
  fun _ _ _ hmem => ⟨r.taskId, hmem, fun _ hr' hid => hw.unique hr' hr hid ▸ hst⟩

end Stable

/-! ## Regimes -/

/-- What a proof about the sequential worker has to reckon with. -/
structure Regime (S : Settings) where
  /-- the replies to the statements of a delivery -/
  adm : Delivery → (o : Stmt) → Reply Exc o.Res → Prop
  /-- a review finds its draft through tasks of these types only -/
  via : String → Prop
  /-- the retry state machine and the republishing are to be followed to their end -/
  prompt : Prop
  /-- so is the release of the dependents -/
  eager : Prop
  answered_of_prompt : prompt → ∀ d o r, adm d o r → o.site = .stateMachine ∨ o.site = .worker →
    r.answers = true
  answered_of_eager : eager → ∀ d o r, adm d o r → r.answers = true
  /-- no failure is counted then -/
  uncounted_of_eager : eager → ∀ d o r, adm d o r → o.site ≠ .stateMachine
  /-- a handler then moves its own task only -/
  own_of_eager : eager → ∀ m site u dest reason r,
    adm (.task m) ⟨site, .transition u dest reason⟩ r → u = m.envelope.taskId ∨ dest = .dispatchable
  distinct_of_eager : eager → ∀ n, S.Has n → n.dependsOn.Nodup

/-- A regime that is not eager asks nothing of the batches. -/
theorem Settings.distinct_of_false (S : Settings) : False → ∀ n, S.Has n → n.dependsOn.Nodup :=
  False.elim

namespace Regime

variable {S : Settings} (R : Regime S)

/-- The statement may raise. -/
def Fails (d : Delivery) (o : Stmt) : Prop := ∃ r, R.adm d o r ∧ r.answers = false

/-- The statement may be executed. -/
def Executes (d : Delivery) (o : Stmt) : Prop := ∃ r, R.adm d o r ∧ r.executes = true

variable {R}

theorem not_eager_of_fails {d : Delivery} {o : Stmt} (h : R.Fails d o) : ¬ R.eager := fun he => by
  obtain ⟨r, hadm, hr⟩ := h
  rw [R.answered_of_eager he d o r hadm] at hr
  cases hr

theorem not_prompt_of_fails {d : Delivery} {o : Stmt} (h : R.Fails d o)
    (hsite : o.site = .stateMachine ∨ o.site = .worker) : ¬ R.prompt := fun hp => by
  obtain ⟨r, hadm, hr⟩ := h
  rw [R.answered_of_prompt hp d o r hadm hsite] at hr
  cases hr

theorem not_eager_of_executes {d : Delivery} {o : Stmt} (h : R.Executes d o)
    (hsite : o.site = .stateMachine) : ¬ R.eager := fun he => by
  obtain ⟨r, hadm, -⟩ := h
  exact R.uncounted_of_eager he d o r hadm hsite

end Regime

/-! ## Lawful statements -/

section Lawful

variable {S : Settings} (R : Regime S) (keep : TaskId → State → Prop)

/-- The ways in which a task changes its state while the message of task `t` is handled.  `keep t`
    is what has been true since `t` passed the dispatch gate. -/
inductive LawfulMove (t : TaskId) (s : State) : TaskId → TaskState → Prop where
  | run {r : TaskRow} : r ∈ s.tasks → r.taskId = t → r.state = .dispatchable ∨ r.live →
      keep t s → LawfulMove t s t .running
  | complete {r : TaskRow} : r ∈ s.tasks → r.taskId = t → r.live → keep t s →
      (dispatchTable r.taskType ≠ none → r.resultRef.isSome) → LawfulMove t s t .completed
  | block {r : TaskRow} : r ∈ s.tasks → r.taskId = t → r.live → LawfulMove t s t .failed
  | retry {r : TaskRow} : r ∈ s.tasks → r.taskId = t → r.state.terminal = false →
      LawfulMove t s t .retryPending
  | dead {r : TaskRow} : r ∈ s.tasks → r.taskId = t → r.state.terminal = false →
      LawfulMove t s t .deadLettered
  | release {r : TaskRow} : r ∈ s.tasks → r.state = .pending → Fed r.dependsOn s →
      LawfulMove t s r.taskId .dispatchable
  | completeOther {r other : TaskRow} : r ∈ s.tasks → r.taskId = t → r.state = .completed →
      keep t s → other ∈ s.tasks → S.Siblings R.via t other.taskId → other.resultRef.isSome →
      LawfulMove t s other.taskId .completed
  | blockOther {r : TaskRow} {u : TaskId} : r ∈ s.tasks → r.taskId = t → r.state = .failed →
      S.Siblings R.via t u → LawfulMove t s u .failed

/-- Nothing is lost when the message of task `t` is taken off the queue: the task is terminal, or
    another message of it is there. -/
def Covered (m : TaskMessage) (s : State) : Prop :=
  (∃ r ∈ s.tasks, r.taskId = m.envelope.taskId ∧ r.state.terminal = true) ∨
    ∃ m' ∈ s.taskQueue, m'.envelope.taskId = m.envelope.taskId ∧ m' ≠ m

/-- What holds when a statement is executed, or tried, while `d` is handled. -/
def Lawful (d : Delivery) (o : Stmt) (s : State) : Prop :=
  match o.query with
  | .transition u dest _ => ∃ m, d = .task m ∧ LawfulMove R keep m.envelope.taskId s u dest
  | .invoke u => ∃ m, d = .task m ∧ m.envelope.taskId = u ∧ keep u s
  | .completeTask m => d = .task m ∧ (R.prompt → Covered m s)
  | .insertTaskBatch batch => ∃ event, d = .event (.heartbeat event) ∧ batch = S.batch event
  | .publishTask e => ∃ r ∈ s.tasks, r.taskId = e.taskId ∧ r.taskType = e.taskType
  | _ => True

variable {R keep}

/-- Lawful statements keep a state well formed. -/
theorem WellFormed.lawful {d : Delivery} {o : Stmt} {a b : o.Res} {s t : State}
    (hw : WellFormed S s) (hl : Lawful R keep d o s) (hrun : exec o.query a s = some (b, t)) :
    WellFormed S t := by
  obtain ⟨site, q⟩ := o
  by_cases hq : q.calm = true
  · exact hw.calm (exec_calm hq hrun)
  cases q with
  | insertTaskBatch batch =>
    obtain ⟨event, -, rfl⟩ := hl
    exact hw.grown (exec_insertTaskBatch hrun)
  | transition => exact hw.moved (exec_transition hrun)
  | publishTask e =>
    obtain ⟨-, rfl⟩ := Prod.mk.inj (Option.some.inj hrun)
    exact hw.publish hl
  | completeTask m =>
    obtain ⟨-, rfl⟩ := Prod.mk.inj (Option.some.inj hrun)
    exact hw.erase
  | _ => exact absurd rfl hq

variable (R keep)

/-- What the handling of a delivery leaves behind. -/
def Settled : Delivery → State → Prop
  | .task m, s => R.eager → Advanced m.envelope.taskId s
  | .event (.heartbeat event), s => R.prompt →
    ∀ n ∈ S.batch event, ∃ m ∈ s.taskQueue, m.envelope.taskId = n.taskId
  | .event (.deadLetterAlert _), _ => True

end Lawful

/-- What is known of the row of a task message when it is received. -/
structure Regime.Received {S : Settings} (R : Regime S) (m : TaskMessage) (s : State) : Prop where
  delivered : 0 < m.deliveryCount
  queued : m ∈ s.taskQueue
  /-- a redelivered message ends its task, or comes too late -/
  redelivered : R.prompt → 1 < m.deliveryCount → ∃ r ∈ s.tasks, r.taskId = m.envelope.taskId ∧
    (r.state.terminal = true ∨ maxFailures ≤ r.retryCount + 1)
  /-- so does one that has been bounced too often, unless it is ready now -/
  givenUp : R.prompt → notReadyMaxRequeues ≤ m.envelope.retryCount →
    ∃ r ∈ s.tasks, r.taskId = m.envelope.taskId ∧
      (r.state.terminal = true ∨ maxFailures ≤ r.retryCount + 1 ∨ r.state = .dispatchable)
  advanced : R.eager → Advanced m.envelope.taskId s

theorem Regime.Received.calm {S : Settings} {R : Regime S} {m : TaskMessage} {s t : State}
    (h : R.Received m s) (hc : Calm s t) : R.Received m t := by
  refine ⟨h.delivered, hc.queue.subset h.queued, fun hp hd => ?_, fun hp hn => ?_,
    fun he => (h.advanced he).calm hc⟩
  · obtain ⟨r, hr, hid, hend⟩ := h.redelivered hp hd
    obtain ⟨r', hr', hf⟩ := hc.forth r hr
    exact ⟨r', hr', hf.taskId.trans hid, hend.imp (fun h => hf.state ▸ h)
      fun h => Nat.le_trans h (Nat.succ_le_succ hf.retryCount)⟩
  · obtain ⟨r, hr, hid, hend⟩ := h.givenUp hp hn
    obtain ⟨r', hr', hf⟩ := hc.forth r hr
    exact ⟨r', hr', hf.taskId.trans hid, hend.imp (fun h => hf.state ▸ h) (Or.imp
      (fun h => Nat.le_trans h (Nat.succ_le_succ hf.retryCount)) fun h => hf.state.trans h)⟩

theorem Covered.calm {m : TaskMessage} {s t : State} (h : Covered m s) (hc : Calm s t) :
    Covered m t := by
  refine h.imp (fun ⟨r, hr, hid, hst⟩ => ?_) fun ⟨m', hm', h⟩ => ⟨m', hc.queue.subset hm', h⟩
  obtain ⟨r', hr', hf⟩ := hc.forth r hr
  exact ⟨r', hr', hf.taskId.trans hid, hf.state ▸ hst⟩

/-! ## Invariants -/

/-- The reads of the dispatch gate. -/
def Query.readsTasks : Query → Bool
  | .getTask _ => true
  | .getTasks _ => true
  | _ => false

/-- An invariant of the sequential worker: what holds between two messages (`idle`), what holds
    while one is handled (`inv`), and what holds of a task from the gate on (`keep`). -/
structure Upkeep {S : Settings} (R : Regime S) where
  idle : Assertion Calm
  inv : Delivery → State → Prop
  keep : TaskId → State → Prop
  wellFormed : ∀ d s, inv d s → WellFormed S s
  inv_calm : ∀ d s s', Calm s s' → inv d s → inv d s'
  keep_calm : ∀ t s s', Calm s s' → keep t s → keep t s'
  /-- the gate lets a dispatchable task pass -/
  gate : ∀ d s, inv d s → ∀ r ∈ s.tasks, r.state = .dispatchable → keep r.taskId s
  /-- a failing read of the gate lets any task pass -/
  unread : ∀ m q s, R.Fails (.task m) ⟨.gate, q⟩ → q.readsTasks = true →
    keep m.envelope.taskId s
  /-- only tasks of the types `via` are completed without a `result_ref` -/
  via : ∀ m s, inv (.task m) s → keep m.envelope.taskId s →
    ∀ r ∈ s.tasks, S.Lineage R.via m.envelope.taskId r.taskId → r.resultRef = none → R.via r.taskType
  step : ∀ d o a s b s', inv d s → Lawful R keep d o s → R.Executes d o →
    exec o.query a s = some (b, s') → o.query.calm = false → inv d s'
  keep_step : ∀ m u dest s s', inv (.task m) s → keep m.envelope.taskId s →
    LawfulMove R keep m.envelope.taskId s u dest → Moved u dest s s' → keep m.envelope.taskId s'
  settled : ∀ d s, inv d s → Settled R d s → idle s

end CanvasOS.Orchestrator
