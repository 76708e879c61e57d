/-
  Three strikes.

  `record_failure` reads the task's state, counts the failure, sets the task RETRY_PENDING or
  DEAD_LETTERED and emits the alert in four statements; `cascade_dead_letter` has three of them.

  1. `failureCalls` — any number of such calls on one task, their statements interleaved.
  2. `Tally` — the failures that are counted, the transition into DEAD_LETTERED and the alert, with
     the threads that are responsible for them.
  3. `Timely` — no statement is executed on the strength of a state that has passed.
  4. `three_strikes` — in these runs the third failure ends the task, once, and with one alert.
  5. `four_strikes` — and in others it does not.
-/
import CanvasOS.Orchestrator.Once

namespace CanvasOS.Orchestrator

open Interleave Python

/-! ## Calls on one task -/

/-- A call on the task. -/
inductive FailureCall where
  | recordFailure
  | cascadeDeadLetter
deriving DecidableEq

/-- Its routine. -/
def FailureCall.run (t : TaskId) : FailureCall → Worker TaskState
  | .recordFailure => Orchestrator.recordFailure t
  | .cascadeDeadLetter => Orchestrator.cascadeDeadLetter t

/-- The tables and the queues, with the calls and the statements executed so far. -/
abbrev CallRecord := History Stmt Stmt.Res State Nat FailureCall

/-- Any number of calls on task `t`, and nothing else. -/
def failureCalls (t : TaskId) : Sys Stmt Stmt.Res Exc CallRecord Nat FailureCall TaskState Empty :=
  recorded (FailureCall.run t) (fun _ o => exec o.query) fun e _ => e.elim

/-- A configuration of the calls. -/
abbrev Calls := Config Stmt Stmt.Res Exc CallRecord Nat FailureCall TaskState

/-- The transitions of task `t` into DEAD_LETTERED. -/
def deadTransitions (t : TaskId) (s : State) : List Transition :=
  s.transitions.filter fun x => x.taskId = t ∧ x.toState = .deadLettered

/-- The alert is about task `t`. -/
def EventMessage.alerts (t : TaskId) : EventMessage → Bool
  | .deadLetterAlert alert => alert.taskId = t
  | .heartbeat _ => false

/-- The dead-letter alerts for task `t`. -/
def deadAlerts (t : TaskId) (s : State) : List EventMessage :=
  s.eventQueue.filter (EventMessage.alerts t)

/-- Every statement is answered, and no call dies. -/
def Served (c : Calls) : Act Stmt Stmt.Res Exc Nat FailureCall Empty → Prop
  | .step i f => ∀ o, c.next i = some o → (f o).answers = true
  | .crash _ => False
  | _ => True

/-- A failure is counted of a task that is not terminal and has not failed three times; only a task
    that is not terminal is set RETRY_PENDING, and only one that is not DEAD_LETTERED becomes so. -/
def TaskRow.Timely (r : TaskRow) : Query → Prop
  | .incrementRetry u => u = r.taskId → r.state.terminal = false ∧ r.retryCount < maxFailures
  | .transition u dest _ => u = r.taskId → (dest = .retryPending → r.state.terminal = false) ∧
      (dest = .deadLettered → r.state ≠ .deadLettered)
  | _ => True

instance (r : TaskRow) (q : Query) : Decidable (r.Timely q) := by
  cases q <;> unfold TaskRow.Timely <;> infer_instance

/-- The statement is so for the row of task `t`. -/
def Timely (t : TaskId) (s : State) (q : Query) : Prop := ∀ r, s.find t = some r → r.Timely q

/-- The runs in which every statement is answered and timely. -/
def Timed (t : TaskId) (c : Calls) (a : Act Stmt Stmt.Res Exc Nat FailureCall Empty) : Prop :=
  Served c a ∧ ∀ i f o, a = .step i f → c.next i = some o → Timely t c.shared.cur o.query

/-! ## The tally -/

/-- The third failure of task `t` is counted. -/
def third (t : TaskId) (e : Event Stmt Stmt.Res State Nat) : Bool :=
  e.op.query = .incrementRetry t ∧ (e.pre.find t).map (·.retryCount + 1) = some maxFailures

/-- Task `t` is set DEAD_LETTERED. -/
def struck (t : TaskId) (e : Event Stmt Stmt.Res State Nat) : Bool :=
  match e.op.query with
  | .transition u dest _ => u = t ∧ dest = .deadLettered
  | _ => false

/-- The alert for task `t` is published. -/
def alerted (t : TaskId) (e : Event Stmt Stmt.Res State Nat) : Bool :=
  match e.op.query with
  | .publishAlert alert => alert.taskId = t
  | _ => false

/-- `r` is the row of task `t`, and agrees with the threads that have counted a third failure, set
    the task DEAD_LETTERED and published the alert. -/
structure Tally (t : TaskId) (counted ended alarmed : List Nat) (s : State) (r : TaskRow) :
    Prop where
  find : s.find t = some r
  bound : r.retryCount ≤ maxFailures
  third : counted ≠ [] ↔ r.retryCount = maxFailures
  alive : ended = [] → r.state.terminal = false
  dead : ended ≠ [] → r.state = .deadLettered
  reason : ∀ x ∈ s.transitions, x.taskId = t → x.reason = .deadLettered →
    r.retryCount = maxFailures
  once : ended.length ≤ 1
  transitions : (deadTransitions t s).length = ended.length
  alerts : (deadAlerts t s).length = alarmed.length
  alarmedOnce : alarmed.Nodup
  alarmedEnded : ∀ i ∈ alarmed, i ∈ ended

/-- The tally of a record. -/
def Tallied (t : TaskId) (h : CallRecord) : Prop :=
  ∃ r, Tally t (h.executors (third t)) (h.executors (struck t)) (h.executors (alerted t)) h.cur r

section Tally

variable {t : TaskId} {counted ended alarmed : List Nat} {r : TaskRow} {i : Nat} {s s' : State}

theorem find_updateTask (f : TaskRow → TaskRow) (htasks : s'.tasks = s.updateTask t f)
    (hf : ∀ r, (f r).taskId = r.taskId) (hr : s.find t = some r) : s'.find t = some (f r) := by
  have hmap : s'.find t = (s.find t).map f := by
    unfold State.find
    rw [htasks]
    unfold State.updateTask Table.update
    induction s.tasks with
    | nil => rfl
    | cons r rows ih =>
      by_cases hid : r.taskId = t
      · simp [hid, hf]
      · simpa [hid] using ih
  rw [hmap, hr]
  rfl

namespace Tally

/-- A task that is not DEAD_LETTERED has not been ended. -/
theorem not_ended (hT : Tally t counted ended alarmed s r) (hst : r.state ≠ .deadLettered) :
    ended = [] := by
  by_contra hne
  exact hst (hT.dead hne)

/-- A failure is counted. -/
theorem count (hT : Tally t counted ended alarmed s r) {a b : Nat}
    (hrun : exec (.incrementRetry t) a s = some (b, s')) (hst : r.state.terminal = false)
    (hlt : r.retryCount < maxFailures) : b = r.retryCount + 1 ∧
      Tally t (if r.retryCount + 1 = maxFailures then i :: counted else counted) ended alarmed s'
        { r with retryCount := r.retryCount + 1 } := by
  obtain ⟨row, hfind, heq⟩ := Option.map_eq_some_iff.1 hrun
  obtain rfl := Option.some.inj (hfind.symm.trans hT.find)
  obtain ⟨rfl, rfl⟩ := Prod.mk.inj heq
  have hne : row.retryCount ≠ maxFailures := Nat.ne_of_lt hlt
  have hnone : counted = [] := by
    by_contra hsome
    exact hne (hT.third.1 hsome)
  refine ⟨rfl, find_updateTask (fun r => { r with retryCount := r.retryCount + 1 }) rfl
    (fun _ => rfl) hT.find, hlt, ?_, hT.alive,
    hT.dead, fun x hx hid hreason => absurd (hT.reason x hx hid hreason) hne, hT.once,
    hT.transitions, hT.alerts, hT.alarmedOnce, hT.alarmedEnded⟩
  split
  · simp [‹_ = _›]
  · simp [hnone, ‹¬ _›]

/-- The next try is due. -/
theorem retry (hT : Tally t counted ended alarmed s r) {reason : TransitionReason} {a b : Unit}
    (hrun : exec (.transition t .retryPending reason) a s = some (b, s'))
    (hst : r.state.terminal = false) (hreason : reason ≠ .deadLettered) :
    Tally t counted ended alarmed s' { r with state := .retryPending } := by
  obtain ⟨row, hfind, heq⟩ := Option.map_eq_some_iff.1 hrun
  obtain rfl := Option.some.inj (hfind.symm.trans hT.find)
  obtain ⟨-, rfl⟩ := Prod.mk.inj heq
  have hopen : ended = [] := hT.not_ended (by rintro h; rw [h] at hst; cases hst)
  refine ⟨find_updateTask (fun r => { r with state := .retryPending }) rfl (fun _ => rfl) hT.find, hT.bound, hT.third,
    fun _ => rfl, fun hne => absurd hopen hne, fun x hx hid hx_reason => ?_, hT.once, ?_,
    hT.alerts, hT.alarmedOnce, hT.alarmedEnded⟩
  · rcases List.mem_cons.1 hx with rfl | hx
    · exact absurd hx_reason hreason
    · exact hT.reason x hx hid hx_reason
  · rw [deadTransitions, List.filter_cons_of_neg (by simp)]
    exact hT.transitions

/-- The task is ended. -/
theorem strike (hT : Tally t counted ended alarmed s r) {reason : TransitionReason} {a b : Unit}
    (hrun : exec (.transition t .deadLettered reason) a s = some (b, s'))
    (hst : r.state ≠ .deadLettered) (hreason : reason = .deadLettered → r.retryCount = maxFailures) :
    Tally t counted (i :: ended) alarmed s' { r with state := .deadLettered } := by
  obtain ⟨row, hfind, heq⟩ := Option.map_eq_some_iff.1 hrun
  obtain rfl := Option.some.inj (hfind.symm.trans hT.find)
  obtain ⟨-, rfl⟩ := Prod.mk.inj heq
  obtain rfl := hT.not_ended hst
  refine ⟨find_updateTask (fun r => { r with state := .deadLettered }) rfl (fun _ => rfl) hT.find, hT.bound, hT.third,
    nofun, fun _ => rfl, fun x hx hid hx_reason => ?_, Nat.le_refl 1, ?_, hT.alerts,
    hT.alarmedOnce, fun j hj => absurd (hT.alarmedEnded j hj) List.not_mem_nil⟩
  · rcases List.mem_cons.1 hx with rfl | hx
    · exact hreason hx_reason
    · exact hT.reason x hx hid hx_reason
  · rw [deadTransitions, List.filter_cons_of_pos (by simp), List.length_cons, List.length_cons]
    exact congrArg (· + 1) hT.transitions

/-- The alert is published. -/
theorem alarm (hT : Tally t counted ended alarmed s r) {alert : DeadLetterAlert} {a b : Unit}
    (hrun : exec (.publishAlert alert) a s = some (b, s')) (halert : alert.taskId = t)
    (hended : i ∈ ended) (hfresh : i ∉ alarmed) :
    Tally t counted ended (i :: alarmed) s' r := by
  obtain ⟨-, rfl⟩ := Prod.mk.inj (Option.some.inj hrun)
  refine ⟨hT.find, hT.bound, hT.third, hT.alive, hT.dead, hT.reason, hT.once, hT.transitions, ?_,
    List.nodup_cons.2 ⟨hfresh, hT.alarmedOnce⟩, fun j hj => ?_⟩
  · rw [deadAlerts, List.filter_cons_of_pos (by simp [EventMessage.alerts, halert]),
      List.length_cons, List.length_cons]
    exact congrArg (· + 1) hT.alerts
  · rcases List.mem_cons.1 hj with rfl | hj
    · exact hended
    · exact hT.alarmedEnded j hj

end Tally

end Tally

/-! ## The routines -/

/-- A thread that has counted the third failure has ended the task, and one that has ended it has
    published the alert. -/
def Done (t : TaskId) (i : Nat) (h : CallRecord) : Prop :=
  (i ∈ h.executors (third t) → i ∈ h.executors (struck t)) ∧
    (i ∈ h.executors (struck t) → i ∈ h.executors (alerted t))

/-- The replies in question: answers, to timely statements. -/
def timelyReplies (t : TaskId) (_ : Nat) (h : CallRecord) (o : Stmt) (r : Reply Exc o.Res) : Prop :=
  r.answers = true ∧ Timely t h.cur o.query

/-- From `h`, the rest `p` of a call keeps the tally and ends in `Q`. -/
abbrev Finishes (t : TaskId) (i : Nat) {α : Type} (Q : CallRecord → Prop) (p : Worker α)
    (h : CallRecord) : Prop :=
  (historyRules (Tallied t) (timelyReplies t)).wp (failureCalls t).run i p (fun _ h => Q h) h

section Routines

variable {α : Type} {t : TaskId} {i : Nat} {h h' : CallRecord} {site : Site}
  {Q : CallRecord → Prop}

theorem mem_executors_others {p : Event Stmt Stmt.Res State Nat → Bool} (ho : History.Others i h h') :
    i ∈ h'.executors p ↔ i ∈ h.executors p := by
  rw [History.mem_executors, History.mem_executors, ho.same]

/-- One statement, answered, in front of the rest. -/
theorem finishes_call {q : Query} {f : q.Res → Worker α}
    (hok : ∀ h₁ a b s, History.Others i h h₁ → Tallied t h₁ → Timely t h₁.cur q →
      exec q a h₁.cur = some (b, s) → Tallied t (h₁.after i ⟨site, q⟩ b s) ∧
        Finishes t i Q (f b) (h₁.after i ⟨site, q⟩ b s)) :
    Finishes t i Q (call site q >>= f) h := by
  refine Rules.wp_op ?_ ?_ ?_
  · intro h₁ h₂ a b ho hI ⟨_, htimely⟩ hx
    obtain ⟨s, hrun, rfl⟩ := recorded_run hx
    obtain ⟨hT, hk⟩ := hok h₁ a b s ho hI htimely hrun
    exact ⟨hT, History.own_cons, hk⟩
  · rintro h₁ e - - ⟨hanswers, -⟩
    cases hanswers
  · rintro h₁ h₂ a b e - - ⟨hanswers, -⟩ -
    cases hanswers

/-- What thread `i` has done: it has counted the third failure, ended the task, published the
    alert. -/
structure Marked (t : TaskId) (i : Nat) (h : CallRecord) (counted ended alarmed : Bool) : Prop where
  counted : i ∈ h.executors (third t) ↔ counted = true
  ended : i ∈ h.executors (struck t) ↔ ended = true
  alarmed : i ∈ h.executors (alerted t) ↔ alarmed = true

theorem Marked.others {c e a : Bool} (hm : Marked t i h c e a) (ho : History.Others i h h') :
    Marked t i h' c e a :=
  ⟨(mem_executors_others ho).trans hm.counted, (mem_executors_others ho).trans hm.ended,
    (mem_executors_others ho).trans hm.alarmed⟩

theorem Marked.done {c e a : Bool} (hm : Marked t i h c e a) (hce : c = true → e = true)
    (hea : e = true → a = true) : Done t i h :=
  ⟨fun hc => hm.ended.2 (hce (hm.counted.1 hc)), fun he => hm.alarmed.2 (hea (hm.ended.1 he))⟩

theorem mem_executors_after {p : Event Stmt Stmt.Res State Nat → Bool} {o : Stmt} {b : o.Res}
    {s : State} {x y : Bool} (hp : p ⟨i, o, b, h.cur⟩ = y) (hx : i ∈ h.executors p ↔ x = true) :
    i ∈ (h.after i o b s).executors p ↔ (y || x) = true := by
  cases y with
  | true =>
    rw [History.executors_after hp]
    simp
  | false =>
    rw [History.executors_after_of_not hp]
    simpa using hx

/-- The task is read, and has a row. -/
theorem finishes_getTask {f : Option TaskRow → Worker α} {c e a : Bool} (hm : Marked t i h c e a)
    (hok : ∀ h₁ r, r.taskId = t → Marked t i h₁ c e a → Finishes t i Q (f (some r)) h₁) :
    Finishes t i Q (call site (.getTask t) >>= f) h := by
  refine finishes_call fun h₁ a b s ho ⟨r, hT⟩ _ hrun => ?_
  obtain ⟨rfl, rfl⟩ := Prod.mk.inj (Option.some.inj hrun)
  have hm := hm.others ho
  refine ⟨⟨r, ?_⟩, ?_⟩
  · rw [History.executors_after_of_not (by simp [third]),
      History.executors_after_of_not (by simp [struck]),
      History.executors_after_of_not (by simp [alerted])]
    exact hT
  · rw [hT.find]
    exact hok _ r (find_some hT.find).2
      ⟨mem_executors_after (y := false) (by simp [third]) hm.counted,
        mem_executors_after (y := false) (by simp [struck]) hm.ended,
        mem_executors_after (y := false) (by simp [alerted]) hm.alarmed⟩

/-- A failure is counted. -/
theorem finishes_count {f : Nat → Worker α} {e a : Bool} (hm : Marked t i h false e a)
    (hok : ∀ h₁ n, n ≤ maxFailures → Marked t i h₁ (n == maxFailures) e a →
      Finishes t i Q (f n) h₁) :
    Finishes t i Q (call site (.incrementRetry t) >>= f) h := by
  refine finishes_call fun h₁ x b s ho ⟨r, hT⟩ htimely hrun => ?_
  obtain ⟨hst, hlt⟩ := htimely r hT.find (find_some hT.find).2.symm
  have hm := hm.others ho
  have hthird : third t ⟨i, ⟨site, .incrementRetry t⟩, b, h₁.cur⟩ =
      (r.retryCount + 1 == maxFailures) := by
    simp [third, hT.find, Bool.beq_eq_decide_eq]
  obtain ⟨rfl, hT'⟩ := hT.count (i := i) hrun hst hlt
  refine ⟨⟨{ r with retryCount := r.retryCount + 1 }, ?_⟩, hok _ _ hlt
    ⟨?_, mem_executors_after (y := false) (by simp [struck]) hm.ended,
      mem_executors_after (y := false) (by simp [alerted]) hm.alarmed⟩⟩
  · rw [History.executors_after_of_not (p := struck t) (by simp [struck]),
      History.executors_after_of_not (p := alerted t) (by simp [alerted])]
    by_cases hlast : r.retryCount + 1 = maxFailures
    · rw [if_pos hlast] at hT'
      rw [History.executors_after (by simpa [hlast] using hthird)]
      exact hT'
    · rw [if_neg hlast] at hT'
      rw [History.executors_after_of_not (hthird.trans (beq_eq_false_iff_ne.2 hlast))]
      exact hT'
  · simpa using mem_executors_after hthird hm.counted

/-- The next try is due. -/
theorem finishes_retry {f : Unit → Worker α} {reason : TransitionReason} {c e a : Bool}
    (hreason : reason ≠ .deadLettered) (hm : Marked t i h c e a)
    (hok : ∀ h₁, Marked t i h₁ c e a → Finishes t i Q (f ()) h₁) :
    Finishes t i Q (call site (.transition t .retryPending reason) >>= f) h := by
  refine finishes_call fun h₁ x b s ho ⟨r, hT⟩ htimely hrun => ?_
  have hm := hm.others ho
  refine ⟨⟨{ r with state := .retryPending }, ?_⟩, hok _
    ⟨mem_executors_after (y := false) (by simp [third]) hm.counted,
      mem_executors_after (y := false) (by simp [struck]) hm.ended,
      mem_executors_after (y := false) (by simp [alerted]) hm.alarmed⟩⟩
  rw [History.executors_after_of_not (by simp [third]),
    History.executors_after_of_not (by simp [struck]),
    History.executors_after_of_not (by simp [alerted])]
  exact hT.retry hrun ((htimely r hT.find (find_some hT.find).2.symm).1 rfl) hreason

/-- The task is ended. -/
theorem finishes_strike {f : Unit → Worker α} {reason : TransitionReason} {c e a : Bool}
    (hreason : reason = .deadLettered → c = true) (hm : Marked t i h c e a)
    (hok : ∀ h₁, Marked t i h₁ c true a → Finishes t i Q (f ()) h₁) :
    Finishes t i Q (call site (.transition t .deadLettered reason) >>= f) h := by
  refine finishes_call fun h₁ x b s ho ⟨r, hT⟩ htimely hrun => ?_
  have hm := hm.others ho
  refine ⟨⟨{ r with state := .deadLettered }, ?_⟩, hok _
    ⟨mem_executors_after (y := false) (by simp [third]) hm.counted,
      mem_executors_after (y := true) (by simp [struck]) hm.ended,
      mem_executors_after (y := false) (by simp [alerted]) hm.alarmed⟩⟩
  rw [History.executors_after_of_not (by simp [third]),
    History.executors_after (by simp [struck]),
    History.executors_after_of_not (by simp [alerted])]
  refine hT.strike hrun ((htimely r hT.find (find_some hT.find).2.symm).2 rfl) fun hr => ?_
  exact hT.third.1 (List.ne_nil_of_mem (hm.counted.2 (hreason hr)))

/-- The alert is published, by the thread that has ended the task. -/
theorem finishes_alarm {alert : DeadLetterAlert} {c : Bool} (halert : alert.taskId = t)
    (hm : Marked t i h c true false) :
    Finishes t i (fun h => Marked t i h c true true) (call site (.publishAlert alert)) h := by
  have hlast : (call site (.publishAlert alert) : Worker Unit) =
      call site (.publishAlert alert) >>= pure := by
    show Prog.op _ _ = Prog.op _ _
    congr 1
    funext out
    cases out <;> rfl
  rw [hlast]
  refine finishes_call fun h₁ x b s ho ⟨r, hT⟩ _ hrun => ?_
  have hm := hm.others ho
  refine ⟨⟨r, ?_⟩, fun _ ho₂ => Marked.others
    ⟨mem_executors_after (y := false) (by simp [third]) hm.counted,
      mem_executors_after (y := false) (by simp [struck]) hm.ended,
      mem_executors_after (y := true) (by simp [alerted, halert]) hm.alarmed⟩ ho₂⟩
  rw [History.executors_after_of_not (by simp [third]),
    History.executors_after_of_not (by simp [struck]),
    History.executors_after (by simp [alerted, halert])]
  exact hT.alarm hrun halert (hm.ended.2 rfl) fun hmem => by cases hm.alarmed.1 hmem

/-- A call that ends the task emits the alert. -/
theorem strikes {reason : TransitionReason} {x : TaskState} {c : Bool}
    (hreason : reason = .deadLettered → c = true) (hm : Marked t i h c false false) :
    Finishes t i (Done t i) (do
      call .stateMachine (.transition t .deadLettered reason)
      emitAlert t
      pure x) h := by
  refine finishes_strike hreason hm fun h₁ hm => Rules.wp.bind ?_
  have halert : Finishes t i (fun h => Marked t i h c true true) (emitAlert t) h₁ :=
    finishes_getTask hm fun _ _ hid hm => finishes_alarm hid hm
  refine halert.mono fun out h₂ hm => ?_
  cases out with
  | ok a => exact fun _ ho => (hm.others ho).done (fun _ => rfl) fun _ => rfl
  | error e => exact hm.done (fun _ => rfl) fun _ => rfl

theorem countFailure_finishes (hm : Marked t i h false false false) :
    Finishes t i (Done t i) (countFailure t) h := by
  refine finishes_count hm fun h₁ n hn hm => ?_
  split
  · rename_i hlt
    rw [show (n == maxFailures) = false from beq_eq_false_iff_ne.2 (Nat.ne_of_lt hlt)] at hm
    refine finishes_retry (by split <;> exact nofun) hm fun h₂ hm => ?_
    exact fun _ ho => (hm.others ho).done nofun nofun
  · rename_i hge
    rw [show (n == maxFailures) = true from beq_iff_eq.2
      (Nat.le_antisymm hn (Nat.le_of_not_lt hge))] at hm
    exact strikes (fun _ => rfl) hm

/-- A call on the task, from its first statement to its last. -/
theorem call_finishes (k : FailureCall) (hm : Marked t i h false false false) :
    Finishes t i (Done t i) (k.run t) h := by
  cases k with
  | recordFailure =>
    refine finishes_getTask hm fun h₁ r _ hm => ?_
    simp only
    split
    · exact fun _ ho => (hm.others ho).done nofun nofun
    · exact countFailure_finishes hm
  | cascadeDeadLetter =>
    refine finishes_getTask hm fun h₁ r _ hm => ?_
    split
    · exact fun _ ho => (hm.others ho).done nofun nofun
    · exact strikes nofun hm

end Routines

/-! ## Runs -/

/-- No call is being executed. -/
def NoCall (c : Calls) : Prop := ∀ i, ¬ c.Running i

section Runs

variable {t : TaskId} {s₀ : State} {r₀ : TaskRow} {c c' : Calls}

/-- In a timely run the tally is kept, and a call that has returned has left nothing undone. -/
theorem tallied (hrow : s₀.find t = some r₀) (hcount : r₀.retryCount = 0)
    (hst : r₀.state.terminal = false)
    (htransitions : ∀ x ∈ s₀.transitions, x.taskId = t →
      x.toState ≠ .deadLettered ∧ x.reason ≠ .deadLettered)
    (halerts : ∀ m ∈ s₀.eventQueue, m.alerts t = false)
    (hr : (failureCalls t).Reach (Timed t) (.idle ⟨s₀, [], []⟩) c) :
    Tallied t c.shared ∧ ∀ i k p, c.thread i = some (k, some p) →
      Finishes t i (Done t i) p c.shared := by
  refine hr.sound_recorded ⟨r₀, hrow, ?_, ?_, fun _ => hst, fun h => absurd rfl h, ?_,
    Nat.zero_le 1, ?_, ?_, List.nodup_nil, fun _ h => absurd h List.not_mem_nil⟩
    (fun h i k hI => hI) (fun _ e => e.elim) (fun c i f k o p hok hi => ?_)
    fun i k h _ hfresh hI => ?_
  · rw [hcount]
    exact Nat.zero_le _
  · rw [hcount]
    simp [History.executors, maxFailures]
  · exact fun x hx hid hreason => absurd hreason (htransitions x hx hid).2
  · rw [deadTransitions, List.filter_eq_nil_iff.2 fun x hx => ?_]
    · rfl
    · simp only [decide_eq_true_eq, not_and]
      exact fun hid => (htransitions x hx hid).1
  · rw [deadAlerts, List.filter_eq_nil_iff.2 fun m hm => by simp [halerts m hm]]
    rfl
  · have hnext : c.next i = some o := by rw [Config.next, hi]
    exact ⟨hok.1 o hnext, hok.2 i f o rfl hnext⟩
  · have hnone : ∀ p, i ∈ h.executors p ↔ false = true := fun p => by
      rw [History.mem_executors]
      refine ⟨?_, by rintro ⟨⟩⟩
      rintro ⟨e, he, -⟩
      obtain ⟨hmem, hwho⟩ := History.mem_own.1 he
      exact absurd hwho (hfresh e hmem)
    exact call_finishes k ⟨hnone _, hnone _, hnone _⟩

/-- No call dies in a timely run. -/
theorem alive_of_timed (hr : (failureCalls t).Reach (Timed t) (.idle ⟨s₀, [], []⟩) c) :
    ∀ i k, c.thread i ≠ some (k, none) := by
  let J (c : Calls) : Prop := ∀ i k, c.thread i ≠ some (k, none)
  have hput : ∀ (c : Calls) h j k p, J c → J (c.put h j k (some p)) := by
    intro c h j k p hJ i k' hi
    rcases Config.put_thread.1 hi with ⟨-, -, hp⟩ | ⟨-, hi⟩
    · cases hp
    · exact hJ i k' hi
  have h₀ : J (.idle ⟨s₀, [], []⟩) := fun i k h => nomatch h
  refine hr.invariant h₀ fun c a _ hJ ha => Sys.exec_cases (P := J) a hJ
    (fun i k h _ _ _ => hput c h i k _ hJ) (fun i f k o p out h _ _ _ => hput c h i k _ hJ) ?_
    fun e => e.elim
  rintro i k p rfl -
  exact ha.1.elim

/-- A thread that appears in the record of a run without calls left has done what it had to. -/
theorem done_of_executor {p : Event Stmt Stmt.Res State Nat → Bool}
    (hr : (failureCalls t).Reach (Timed t) (.idle ⟨s₀, [], []⟩) c)
    (hdone : ∀ i k p, c.thread i = some (k, some p) → Finishes t i (Done t i) p c.shared)
    (hq : NoCall c) {i : Nat} (hi : i ∈ c.shared.executors p) : Done t i c.shared := by
  obtain ⟨e, he, -⟩ := History.mem_executors.1 hi
  obtain ⟨hmem, rfl⟩ := History.mem_own.1 he
  have hany : ∀ k : FailureCall, (k.run t).Only fun _ => True := fun k => Prog.Only.trivial _
  obtain ⟨k, rest, hthread, -⟩ := hr.ops_only (P := fun _ _ => True) hany e hmem
  cases rest with
  | none => exact absurd hthread (alive_of_timed hr _ _)
  | some rest =>
    have hfin := hdone _ _ _ hthread
    cases rest with
    | pure a => exact hfin _ .refl
    | throw e => exact hfin _ .refl
    | op o k' => exact absurd ⟨_, _, _, hthread⟩ (hq _)

/-- A routine that has ended. -/
def Ends {α : Type} : Worker α → Prop
  | .op _ _ => False
  | _ => True

/-- A call on a DEAD_LETTERED task ends with its first statement. -/
theorem ends_of_dead {k : FailureCall} {o : Stmt} {rest : Except Exc o.Res → Worker TaskState}
    {r : TaskRow} {h h' : CallRecord} {i : Nat} {reply : Reply Exc o.Res} {out : Except Exc o.Res}
    (hk : k.run t = .op o rest) (hfind : h.cur.find t = some r) (hst : r.state = .deadLettered)
    (hx : reply.apply ((failureCalls t).run i o) h = some (out, h')) :
    h'.cur = h.cur ∧ Ends (rest out) := by
  have hread : o = ⟨.stateMachine, .getTask t⟩ := by
    cases k <;> exact (Prog.op.inj hk).1.symm
  subst hread
  have hfailed : ∀ e, Ends (rest (.error e)) := fun e => by
    cases k <;> (obtain rfl := eq_of_heq (Prog.op.inj hk).2; trivial)
  have hanswered : Ends (rest (.ok (some r))) := by
    cases k with
    | recordFailure =>
      obtain rfl := eq_of_heq (Prog.op.inj hk).2
      show Ends (if r.state.terminal then pure r.state else countFailure t)
      rw [if_pos (by rw [hst]; rfl)]
      trivial
    | cascadeDeadLetter =>
      obtain rfl := eq_of_heq (Prog.op.inj hk).2
      show Ends (if (some r).map (·.state) = some .deadLettered then _ else _)
      rw [if_pos (by rw [Option.map_some, hst])]
      trivial
  -- the row is read, and nothing is written
  have hrun : ∀ a x, (failureCalls t).run i ⟨.stateMachine, .getTask t⟩ a h = some x →
      x.1 = some r ∧ x.2.cur = h.cur := by
    rintro a ⟨b, h₁⟩ hx
    obtain ⟨t', hexec, rfl⟩ := recorded_run hx
    obtain ⟨rfl, rfl⟩ := Prod.mk.inj (Option.some.inj hexec)
    exact ⟨hfind, rfl⟩
  cases reply with
  | failed e =>
    obtain ⟨rfl, rfl⟩ := Prod.mk.inj (Option.some.inj hx)
    exact ⟨rfl, hfailed e⟩
  | ok a =>
    have hx : ((failureCalls t).run i ⟨.stateMachine, .getTask t⟩ a h).map
        (fun x => (.ok x.1, x.2)) = some (out, h') := hx
    obtain ⟨⟨b, h₁⟩, hexec, heq⟩ := Option.map_eq_some_iff.1 hx
    obtain ⟨rfl, rfl⟩ := Prod.mk.inj heq
    obtain ⟨rfl, hcur⟩ := hrun a _ hexec
    exact ⟨hcur, hanswered⟩
  | lost a e =>
    have hx : ((failureCalls t).run i ⟨.stateMachine, .getTask t⟩ a h).map
        (fun x => (.error e, x.2)) = some (out, h') := hx
    obtain ⟨x, hexec, heq⟩ := Option.map_eq_some_iff.1 hx
    obtain ⟨rfl, rfl⟩ := Prod.mk.inj heq
    exact ⟨(hrun a x hexec).2, hfailed e⟩

/-- Once the task is DEAD_LETTERED and no call is left, further calls change nothing, whatever
    becomes of their statements. -/
theorem nothing_after {r : TaskRow} (hfind : c.shared.cur.find t = some r)
    (hst : r.state = .deadLettered) (hq : NoCall c) (hr : (failureCalls t).Reach Sys.free c c') :
    c'.shared.cur = c.shared.cur := by
  let J (c' : Calls) : Prop := c'.shared.cur = c.shared.cur ∧
    ∀ i k p, c'.thread i = some (k, some p) → p = k.run t ∨ Ends p
  have hput : ∀ (c' : Calls) h i k p, J c' → h.cur = c.shared.cur →
      (∀ p', p = some p' → p' = k.run t ∨ Ends p') → J (c'.put h i k p) := by
    intro c' h i k p hJ hcur hp
    refine ⟨hcur, fun j k' p' hj => ?_⟩
    rcases Config.put_thread.1 hj with ⟨-, rfl, hp'⟩ | ⟨-, hj⟩
    · exact hp p' hp'
    · exact hJ.2 j k' p' hj
  have h₀ : J c := by
    refine ⟨rfl, fun i k p hi => .inr ?_⟩
    cases p with
    | op o rest => exact absurd ⟨k, o, rest, hi⟩ (hq i)
    | pure a => trivial
    | throw e => trivial
  refine (hr.invariant (P := J) h₀ fun c' a _ hJ _ => Sys.exec_cases (P := J) a hJ ?_ ?_ ?_ ?_).1
  · rintro i k h - - hs
    obtain ⟨-, rfl⟩ := recorded_enter hs
    exact hput c' _ i k _ hJ hJ.1 fun p' hp => .inl (Option.some.inj hp).symm
  · rintro i f k o rest out h - hi hx
    have hk : k.run t = .op o rest := ((hJ.2 i k _ hi).resolve_right id).symm
    rw [← hJ.1] at hfind
    obtain ⟨hcur, hends⟩ := ends_of_dead hk hfind hst hx
    exact hput c' h i k _ hJ (hcur.trans hJ.1) fun p' hp => .inr (Option.some.inj hp ▸ hends)
  · rintro i k p - -
    exact hput c' _ i k none hJ hJ.1 nofun
  · exact fun e => e.elim

/-- In every run of calls on one task in which every statement is answered and timely: at most three
    failures are counted, and the task is DEAD_LETTERED by `record_failure` at the third only, with
    one transition; once no call is left, the third failure has ended the task, the transition has
    its alert, and further calls change nothing. -/
theorem three_strikes (hrow : s₀.find t = some r₀) (hcount : r₀.retryCount = 0)
    (hst : r₀.state.terminal = false)
    (htransitions : ∀ x ∈ s₀.transitions, x.taskId = t →
      x.toState ≠ .deadLettered ∧ x.reason ≠ .deadLettered)
    (halerts : ∀ m ∈ s₀.eventQueue, m.alerts t = false)
    (hr : (failureCalls t).Reach (Timed t) (.idle ⟨s₀, [], []⟩) c) :
    ∃ r, c.shared.cur.find t = some r ∧ r.retryCount ≤ 3 ∧
      (deadTransitions t c.shared.cur).length ≤ 1 ∧
      ((deadTransitions t c.shared.cur).length = 1 ↔ r.state = .deadLettered) ∧
      (∀ x ∈ c.shared.cur.transitions, x.taskId = t → x.reason = .deadLettered →
        r.retryCount = 3) ∧
      (deadAlerts t c.shared.cur).length ≤ (deadTransitions t c.shared.cur).length ∧
      (NoCall c → (r.retryCount = 3 → r.state = .deadLettered) ∧
        (deadAlerts t c.shared.cur).length = (deadTransitions t c.shared.cur).length ∧
        (r.state = .deadLettered → ∀ c', (failureCalls t).Reach Sys.free c c' →
          c'.shared.cur = c.shared.cur)) := by
  obtain ⟨⟨r, hT⟩, hdone⟩ := tallied hrow hcount hst htransitions halerts hr
  have halarms : (c.shared.executors (alerted t)).length ≤
      (c.shared.executors (struck t)).length :=
    (hT.alarmedOnce.subperm hT.alarmedEnded).length_le
  refine ⟨r, hT.find, hT.bound, ?_, ?_, hT.reason, ?_, fun hq => ⟨fun hthree => ?_, ?_,
    fun hdead c' hr' => nothing_after hT.find hdead hq hr'⟩⟩
  · rw [hT.transitions]
    exact hT.once
  · rw [hT.transitions]
    constructor
    · intro hone
      exact hT.dead (by rintro h; rw [h] at hone; cases hone)
    · intro hdead
      refine Nat.le_antisymm hT.once (List.length_pos_of_ne_nil fun hnil => ?_)
      have hopen := hT.alive hnil
      rw [hdead] at hopen
      cases hopen
  · rw [hT.alerts, hT.transitions]
    exact halarms
  · obtain ⟨i, hi⟩ := List.exists_mem_of_ne_nil _ (hT.third.2 hthree)
    exact hT.dead (List.ne_nil_of_mem ((done_of_executor hr hdone hq hi).1 hi))
  · rw [hT.alerts, hT.transitions]
    have hended : (c.shared.executors (struck t)).Nodup :=
      List.nodup_iff_count_le_one.2 fun i => List.count_le_length.trans hT.once
    have hsub : c.shared.executors (struck t) ⊆ c.shared.executors (alerted t) := fun i hi =>
      (done_of_executor hr hdone hq hi).2 hi
    exact Nat.le_antisymm halarms (hended.subperm hsub).length_le

end Runs

/-! ## Concrete runs

    A schedule says who makes a call, and who executes the next statement of his. -/

/-- Thread `i` makes a call, or executes its next statement and is answered. -/
def turnOf : Nat × Option FailureCall → Act Stmt Stmt.Res Exc Nat FailureCall Empty
  | (i, some k) => .enter i k
  | (i, none) => .step i fun _ => .ok default

theorem served_turnOf (c : Calls) (x : Nat × Option FailureCall) : Served c (turnOf x) := by
  obtain ⟨i, k | k⟩ := x
  · exact fun _ _ => rfl
  · trivial

/-- A task that is RUNNING, and has not failed so far. -/
def runningTask : TaskRow := ⟨⟨0, "brief"⟩, "weekly", "draft-research-brief", .running, 0, [], none⟩

/-- It is alone in the tables. -/
def oneTask : State := ⟨[runningTask], [], [], []⟩

/-- The calls of a schedule. -/
def scheduled (schedule : List (Nat × Option FailureCall)) : Calls :=
  (schedule.map turnOf).foldl (failureCalls runningTask.taskId).exec (.idle ⟨oneTask, [], []⟩)

/-- A call of `record_failure` from its first statement to its last. -/
def wholeCall (i : Nat) : List (Nat × Option FailureCall) :=
  (i, some .recordFailure) :: List.replicate 5 (i, none)

/-- Two failures are counted; two more calls take turns. -/
def overlapping : List (Nat × Option FailureCall) :=
  wholeCall 0 ++ wholeCall 1 ++ [(2, some .recordFailure), (3, some .recordFailure)] ++
    (List.replicate 5 [(2, none), (3, none)]).flatten

/-- Four failures are counted, and the task is DEAD_LETTERED twice, with two alerts. -/
theorem four_strikes :
    ¬ ∀ c, (failureCalls runningTask.taskId).Reach Served (.idle ⟨oneTask, [], []⟩) c →
      (∀ r ∈ c.shared.cur.tasks, r.retryCount ≤ 3) ∧
        (deadTransitions runningTask.taskId c.shared.cur).length ≤ 1 ∧
        (deadAlerts runningTask.taskId c.shared.cur).length ≤ 1 := by
  intro h
  have hreach : (failureCalls runningTask.taskId).Reach Served (.idle ⟨oneTask, [], []⟩)
      (scheduled overlapping) := by
    refine Sys.Reach.init.foldl _ fun n => ?_
    simp only [Fin.getElem_fin, List.getElem_map]
    exact served_turnOf _ _
  exact absurd (h _ hreach) (by decide +kernel)

/-- What thread `i` executes next is timely. -/
def timelyAt (t : TaskId) (c : Calls) (i : Nat) : Bool :=
  match c.next i, c.shared.cur.find t with
  | some o, some r => decide (r.Timely o.query)
  | _, _ => true

/-- So is every statement of a schedule. -/
def allTimely (t : TaskId) : List (Nat × Option FailureCall) → Calls → Bool
  | [], _ => true
  | x :: rest, c => timelyAt t c x.1 && allTimely t rest ((failureCalls t).exec c (turnOf x))

theorem reach_of_allTimely {t : TaskId} {c₀ : Calls} (schedule : List (Nat × Option FailureCall)) :
    ∀ c, (failureCalls t).Reach (Timed t) c₀ c → allTimely t schedule c = true →
      (failureCalls t).Reach (Timed t) c₀ ((schedule.map turnOf).foldl (failureCalls t).exec c) := by
  induction schedule with
  | nil => exact fun _ hr _ => hr
  | cons x rest ih =>
    intro c hr hall
    obtain ⟨htimely, hrest⟩ := Bool.and_eq_true_iff.1 hall
    refine ih _ (.act _ hr ⟨served_turnOf c x, fun i f o ha hnext r hfind => ?_⟩) hrest
    have hi : x.1 = i := by
      obtain ⟨j, k | k⟩ := x <;> cases ha
      rfl
    rw [timelyAt, hi, hnext, hfind] at htimely
    exact of_decide_eq_true htimely

/-- Three failures, one call after the other. -/
def threeCalls : List (Nat × Option FailureCall) := wholeCall 0 ++ wholeCall 1 ++ wholeCall 2

/-- The third call ends the task, and raises the one alert. -/
theorem three_strikes_of_three_calls : ∃ c : Calls,
    (deadAlerts runningTask.taskId c.shared.cur).length = 1 ∧
    ∃ r, c.shared.cur.find runningTask.taskId = some r ∧ r.retryCount ≤ 3 ∧
      (deadTransitions runningTask.taskId c.shared.cur).length ≤ 1 := by
  have hreach : (failureCalls runningTask.taskId).Reach (Timed runningTask.taskId)
      (.idle ⟨oneTask, [], []⟩) (scheduled threeCalls) :=
    reach_of_allTimely threeCalls _ .init (by decide +kernel)
  have hrow : oneTask.find runningTask.taskId = some runningTask := by decide
  obtain ⟨r, hfind, hcount, hdead, -⟩ := three_strikes hrow rfl rfl
    (fun _ h => absurd h List.not_mem_nil) (fun _ h => absurd h List.not_mem_nil) hreach
  exact ⟨scheduled threeCalls, by decide +kernel, r, hfind, hcount, hdead⟩

end CanvasOS.Orchestrator
