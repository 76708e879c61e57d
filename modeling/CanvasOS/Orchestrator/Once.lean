/-
  At most one execution per task.

  `dispatch_task` reads the row, finds it DISPATCHABLE, and sets it RUNNING in a transaction of its
  own, whatever the row has become in between.

  1. `runs`, `calls` — the statements by which the gate sets a task RUNNING and calls its handler.
  2. `OnceRun` — a task that was set RUNNING does not become DISPATCHABLE again, and each call is
     made by the thread that set it RUNNING.
  3. `Unraced` — the runs in which a task that is set RUNNING by the gate is DISPATCHABLE at that
     moment, and one that is released is PENDING.
  4. `dispatched_once` — in these runs the gate calls a handler at most once for a task.
  5. `dispatched_twice` — and in others it does not.
-/
import CanvasOS.Orchestrator.Cascade

namespace CanvasOS.Orchestrator

open Interleave Python

/-! ## Runs and calls of a task -/

/-- The gate sets task `t` RUNNING. -/
def runStmt (t : TaskId) : Stmt := ⟨.gate, .transition t .running .dispatched⟩

/-- The gate calls the handler of task `t`. -/
def callStmt (t : TaskId) : Stmt := ⟨.gate, .invoke t⟩

/-- This statement is executed. -/
def executes (o : Stmt) (e : Event Stmt Stmt.Res State Nat) : Bool := e.op = o

/-- The state of a task that has passed the gate, and is not handed to it again. -/
def TaskState.taken (x : TaskState) : Prop := x ≠ .pending ∧ x ≠ .dispatchable

/-- Task `t` passes the gate once. -/
structure OnceRun (t : TaskId) (h : Record) : Prop where
  runs : (h.executors (executes (runStmt t))).length ≤ 1
  calls : (h.executors (executes (callStmt t))).Nodup
  called : ∀ i ∈ h.executors (executes (callStmt t)), i ∈ h.executors (executes (runStmt t))
  found : h.executors (executes (runStmt t)) ≠ [] → ∃ r ∈ h.cur.tasks, r.taskId = t
  taken : h.executors (executes (runStmt t)) ≠ [] → ∀ r ∈ h.cur.tasks, r.taskId = t → r.state.taken

/-- No handler is called for a task that was not set RUNNING, and none twice. -/
theorem OnceRun.calls_le {t : TaskId} {h : Record} (ho : OnceRun t h) :
    (h.executors (executes (callStmt t))).length ≤ 1 := by
  have hsub : h.executors (executes (callStmt t)) ⊆ h.executors (executes (runStmt t)) := ho.called
  exact (ho.calls.subperm hsub).length_le.trans ho.runs

/-- What is asked of a statement: the gate sets a DISPATCHABLE task RUNNING, and a PENDING task is
    released. -/
def Unhurried (h : Record) (o : Stmt) : Prop :=
  ∀ t, ∀ r ∈ h.cur.tasks, r.taskId = t →
    (o = runStmt t → r.state = .dispatchable) ∧
      ∀ reason, o.query = .transition t .dispatchable reason → r.state = .pending

/-- The runs in which every executed statement is so. -/
def Unraced (c : Recorded) (a : Act Stmt Stmt.Res Exc Nat Delivery Move) : Prop :=
  ∀ i f o, a = .step i f → c.next i = some o → (f o).executes = true → Unhurried c.shared o

/-- The rows of a task that has passed the gate stay taken. -/
theorem taken_exec {t : TaskId} {o : Stmt} {a b : o.Res} {s s' : State}
    (hrun : exec o.query a s = some (b, s')) (hfound : ∃ r ∈ s.tasks, r.taskId = t)
    (htaken : ∀ r ∈ s.tasks, r.taskId = t → r.state.taken)
    (hdest : ∀ dest reason, o.query = .transition t dest reason → dest.taken) :
    (∃ r ∈ s'.tasks, r.taskId = t) ∧ ∀ r ∈ s'.tasks, r.taskId = t → r.state.taken := by
  obtain ⟨r₀, hr₀, hid₀⟩ := hfound
  obtain ⟨r₁, hr₁, hid₁, -⟩ := lasting_exec hrun r₀ hr₀
  refine ⟨⟨r₁, hr₁, hid₁.trans hid₀⟩, fun r hr hid => ?_⟩
  obtain ⟨site, q⟩ := o
  by_cases hq : q.calm = true
  · obtain ⟨r', hr', hf⟩ := (exec_calm hq hrun).back r hr
    rw [hf.state]
    exact htaken r' hr' (hf.taskId.symm.trans hid)
  cases q with
  | insertTaskBatch tasks =>
    rcases (exec_insertTaskBatch hrun).new r hr with hr | ⟨-, hnew⟩
    · exact htaken r hr hid
    · exact absurd (hid₀.trans hid.symm) (hnew r₀ hr₀)
  | transition u dest reason =>
    obtain ⟨r', hr', rfl⟩ := (exec_transition hrun).back hr
    rw [TaskRow.moved_taskId] at hid
    by_cases hru : r'.taskId = u
    · rw [TaskRow.moved_self hru]
      exact hdest dest reason (by rw [← hid, hru])
    · rw [TaskRow.moved_of_ne hru]
      exact htaken r' hr' hid
  | publishTask | completeTask =>
    obtain ⟨-, rfl⟩ := Prod.mk.inj (Option.some.inj hrun)
    exact htaken r hr hid
  | _ => exact absurd rfl hq

/-- An unhurried statement keeps it so, if a handler is called by the thread that set its task
    RUNNING, and has not called it before. -/
theorem OnceRun.after {t : TaskId} {h : Record} {i : Nat} {o : Stmt} {a b : o.Res} {s : State}
    (ho : OnceRun t h) (hrun : exec o.query a h.cur = some (b, s)) (hunhurried : Unhurried h o)
    (hpending : ∀ u reason, o.query ≠ .transition u .pending reason)
    (hcall : o = callStmt t → i ∈ h.executors (executes (runStmt t)) ∧
      i ∉ h.executors (executes (callStmt t))) : OnceRun t (h.after i o b s) := by
  by_cases hnew : o = runStmt t
  · subst hnew
    have hmoved := exec_transition hrun
    obtain ⟨r, hr, hid⟩ := hmoved.found
    -- it is the first: a task that was set RUNNING is not DISPATCHABLE
    have hnone : h.executors (executes (runStmt t)) = [] := by
      by_contra hsome
      exact (ho.taken hsome r hr hid).2 ((hunhurried t r hr hid).1 rfl)
    have hruns : (h.after i (runStmt t) b s).executors (executes (runStmt t)) = [i] := by
      rw [History.executors_after (by simp [executes]), hnone]
    have hcalls : (h.after i (runStmt t) b s).executors (executes (callStmt t)) =
        h.executors (executes (callStmt t)) := History.executors_after_of_not (decide_eq_false nofun)
    refine ⟨by rw [hruns]; exact Nat.le_refl 1, by rw [hcalls]; exact ho.calls, fun j hj => ?_,
      fun _ => ⟨_, hmoved.forth hr, TaskRow.moved_taskId.trans hid⟩, fun _ r' hr' hid' => ?_⟩
    · rw [hcalls] at hj
      have hran := ho.called j hj
      rw [hnone] at hran
      exact absurd hran List.not_mem_nil
    · obtain ⟨r₀, hr₀, rfl⟩ := hmoved.back hr'
      rw [TaskRow.moved_self (TaskRow.moved_taskId.symm.trans hid')]
      exact ⟨nofun, nofun⟩
  · have hruns : (h.after i o b s).executors (executes (runStmt t)) = h.executors (executes (runStmt t)) :=
      History.executors_after_of_not (decide_eq_false hnew)
    have hrows : h.executors (executes (runStmt t)) ≠ [] → (∃ r ∈ s.tasks, r.taskId = t) ∧
        ∀ r ∈ s.tasks, r.taskId = t → r.state.taken := by
      intro hsome
      refine taken_exec hrun (ho.found hsome) (ho.taken hsome) fun dest reason hq => ⟨?_, ?_⟩
      · rintro rfl
        exact hpending t reason hq
      · rintro rfl
        obtain ⟨r, hr, hid⟩ := ho.found hsome
        exact (ho.taken hsome r hr hid).1 ((hunhurried t r hr hid).2 reason hq)
    have hcalls : ((h.after i o b s).executors (executes (callStmt t))).Nodup ∧
        ∀ j ∈ (h.after i o b s).executors (executes (callStmt t)), j ∈ h.executors (executes (runStmt t)) := by
      by_cases hcalled : o = callStmt t
      · obtain ⟨hran, hnot⟩ := hcall hcalled
        rw [History.executors_after (decide_eq_true hcalled)]
        refine ⟨List.nodup_cons.2 ⟨hnot, ho.calls⟩, fun j hj => ?_⟩
        rcases List.mem_cons.1 hj with rfl | hj
        · exact hran
        · exact ho.called j hj
      · rw [History.executors_after_of_not (decide_eq_false hcalled)]
        exact ⟨ho.calls, ho.called⟩
    exact ⟨by rw [hruns]; exact ho.runs, hcalls.1, by rw [hruns]; exact hcalls.2,
      by rw [hruns]; exact fun h => (hrows h).1, by rw [hruns]; exact fun h => (hrows h).2⟩

/-! ## The routines of the worker -/

/-- Task `t` passes the gate once; a thread relies on its own statements only. -/
def onceWatch (t : TaskId) : Watch where
  inv := OnceRun t
  rely _ i h h' := h'.own i = h.own i
  permits := Unhurried
  rely_refl _ _ _ := rfl
  rely_trans _ _ _ _ _ h₁ h₂ := h₂.trans h₁
  inv_idles h h' hi ho := by
    have hexec : ∀ p, h'.executors p = h.executors p := fun p => by
      rw [History.executors, History.executors, hi.log]
    refine ⟨?_, ?_, ?_, ?_, ?_⟩
    · rw [hexec]
      exact ho.runs
    · rw [hexec]
      exact ho.calls
    · rw [hexec, hexec]
      exact ho.called
    · rw [hexec, hi.tasks]
      exact ho.found
    · rw [hexec, hi.tasks]
      exact ho.taken
  rely_idles _ i h h' hi := by rw [History.own, History.own, hi.log]

/-- A statement by which nothing passes the gate. -/
def Outside (o : Stmt) : Prop :=
  (∀ u reason, o.query ≠ .transition u .pending reason) ∧ ∀ u, o ≠ callStmt u

theorem Inert.outside {o : Stmt} (ho : Inert o) : Outside o :=
  ⟨fun u reason => ho.1 u .pending reason, fun u hcall => ho.2 u (congrArg Stmt.query hcall)⟩

theorem HandlerStmt.outside {o : Stmt} (ho : HandlerStmt o) : Outside o := by
  obtain ⟨hsite, hstmt⟩ := ho
  refine ⟨fun u reason hq => ?_, fun u hcall => ?_⟩
  · rw [hq] at hstmt
    rcases hstmt with ⟨h, -⟩ | ⟨h, -⟩ | ⟨h, -⟩ <;> cases h
  · rw [hcall] at hsite
    cases hsite

section Routines

variable {S : Settings} {t : TaskId} {d : Delivery} {i : Nat} {h : Record}

theorem outside_keeps {α : Type} {F : Exc → Prop} {p : Worker α} (hp : p.Within Outside F) :
    (onceWatch t).Keeps S d i p (fun _ _ => True) h :=
  Rules.wp.mono (Watch.within hp fun _ _ _ _ _ ho hI hunhurried hrun =>
    hI.after hrun hunhurried ho.1 fun hcall => absurd hcall (ho.2 t)) fun _ _ _ => trivial

theorem handler_outside (handler : Handler) (e : TaskEnvelope) :
    (handler.run e).Within Outside (· = .other) :=
  (handler_modest handler e).mono (fun _ ho => ho.outside) fun _ he => he

theorem completeTask_outside (u : TaskId) : (completeTask u).Within Outside (· = .other) :=
  (completeTask_modest u).mono (fun _ ho => ho.outside) fun _ he => he

/-- The gate sets its task RUNNING, calls the handler, and passes on to `p`. -/
theorem passGate_keeps {u : TaskId} {p : Worker Unit} (hp : p.Within Outside (· = .other))
    (hfresh : ∀ e ∈ h.own i, e.op ≠ callStmt u) :
    (onceWatch t).Keeps S d i (do
      call .gate (.transition u .running .dispatched)
      call .gate (.invoke u)
      p) (fun _ _ => True) h := by
  refine Watch.bind_call (fun _ _ _ _ _ => trivial)
    (fun h₁ a b s hrely hI hunhurried hrun => ?_) fun _ _ => trivial
  refine ⟨hI.after hrun hunhurried nofun nofun, ?_, trivial⟩
  refine Watch.bind_call (fun _ _ _ _ _ => trivial)
    (fun h₂ a₂ b₂ s₂ hrely₂ hI₂ hunhurried₂ hrun₂ => ?_) fun _ _ => trivial
  refine ⟨hI₂.after hrun₂ hunhurried₂ nofun fun hcall => ?_, outside_keeps hp, trivial⟩
  obtain rfl : u = t := Query.invoke.inj (congrArg Stmt.query hcall)
  -- the thread's own record: it has set `u` RUNNING, and has called nothing
  have hown : h₂.own i = ⟨i, runStmt u, b, h₁.cur⟩ :: h.own i := by
    rw [show h₂.own i = (h₁.after i (runStmt u) b s).own i from hrely₂, ← hrely]
    exact History.own_self
  refine ⟨History.mem_executors.2 ⟨_, hown ▸ List.mem_cons_self,
    decide_eq_true rfl⟩, fun hcalled => ?_⟩
  obtain ⟨e, he, hop⟩ := History.mem_executors.1 hcalled
  rw [hown] at he
  rcases List.mem_cons.1 he with rfl | he
  · exact absurd (of_decide_eq_true hop) nofun
  · exact hfresh e he (of_decide_eq_true hop)

theorem runTask_keeps {e : TaskEnvelope} (hfresh : ∀ x ∈ h.own i, x.op ≠ callStmt e.taskId) :
    (onceWatch t).Keeps S d i (runTask e) (fun _ _ => True) h := by
  unfold runTask
  split
  · exact passGate_keeps (completeTask_outside _) hfresh
  · exact passGate_keeps (handler_outside _ e) hfresh

theorem dispatchTask_passes {e : TaskEnvelope} (hfresh : h.own i = []) :
    (onceWatch t).Keeps S d i (dispatchTask e) (fun _ _ => True) h := by
  refine Watch.bind_call (fun _ _ _ _ _ => trivial)
    (fun h₁ a b s hrely hI hunhurried hrun => ?_) fun _ _ => trivial
  refine ⟨hI.after hrun hunhurried nofun nofun, ?_, trivial⟩
  cases b with
  | none => exact fun _ _ => trivial
  | some current =>
    simp only
    split
    · refine runTask_keeps fun x hx => ?_
      rw [show (h₁.after i ⟨.gate, .getTask e.taskId⟩ (some current) s).own i =
        ⟨i, ⟨.gate, .getTask e.taskId⟩, some current, h₁.cur⟩ :: h₁.own i from History.own_self,
        show h₁.own i = [] from hrely.trans hfresh, List.mem_singleton] at hx
      subst hx
      exact nofun
    · refine outside_keeps (F := fun _ => True) ?_
      split
      · exact True.intro
      · unfold findDeadLetteredDependency
        split
        · exact True.intro
        · refine Prog.Within.bind (Prog.Within.bind ((call_within ⟨nofun, nofun⟩).mono
            (fun _ ho => ho) fun _ _ => True.intro) fun _ => True.intro) fun out => ?_
          cases out <;> exact True.intro

theorem countFailure_outside (u : TaskId) : (countFailure u).Within Outside (· = .other) := by
  have hmove : ∀ dest reason, dest ≠ .pending →
      Outside ⟨.stateMachine, .transition u dest reason⟩ := fun dest reason hdest =>
    ⟨fun v reason' hq => hdest (Query.transition.inj hq).2.1, nofun⟩
  refine (call_within ⟨nofun, nofun⟩).bind fun n => ?_
  split
  · exact (call_within (hmove .retryPending _ nofun)).bind fun _ => True.intro
  · exact (call_within (hmove .deadLettered _ nofun)).bind fun _ =>
      ((emitAlert_inert u).mono (fun _ ho => ho.outside) fun _ he => he).bind fun _ => True.intro

theorem recordFailure_outside (u : TaskId) : (recordFailure u).Within Outside (· = .other) := by
  refine (call_within ⟨nofun, nofun⟩).bind fun current => ?_
  cases current with
  | none => exact countFailure_outside u
  | some current =>
    simp only
    split
    · exact True.intro
    · exact countFailure_outside u

theorem cascadeDeadLetter_outside (u : TaskId) :
    (cascadeDeadLetter u).Within Outside (· = .other) := by
  refine (call_within ⟨nofun, nofun⟩).bind fun current => ?_
  split
  · exact True.intro
  · refine (call_within ⟨fun v reason hq => ?_, nofun⟩).bind fun _ =>
      ((emitAlert_inert u).mono (fun _ ho => ho.outside) fun _ he => he).bind fun _ => True.intro
    cases (Query.transition.inj hq).2.1

theorem legacyAgain_outside (u : TaskId) :
    (legacyTaskPassThrough .handler u).Within Outside (· = .other) := by
  refine (call_within ⟨fun v reason hq => ?_, nofun⟩).bind fun _ =>
    (call_within ⟨nofun, nofun⟩).bind fun _ => completeTask_outside u
  cases (Query.transition.inj hq).2.1

theorem retryWhile_outside (e : TaskEnvelope) (fuel : Nat) : ∀ outcome,
    (retryWhile e fuel outcome).Within Outside (· = .other) := by
  induction fuel with
  | zero => exact fun _ => True.intro
  | succ fuel ih =>
    intro outcome
    unfold retryWhile
    split
    · refine Prog.Within.tryCatch (F := (· = .other)) ?_ fun _ _ =>
        (recordFailure_outside _).bind fun outcome => ih outcome
      unfold runAgain
      split
      · exact legacyAgain_outside _
      · exact (call_within ⟨by rintro _ _ ⟨⟩, by rintro _ ⟨⟩⟩).bind fun _ => handler_outside _ e
    · exact True.intro

/-- What follows the gate, whatever the gate raised. -/
theorem afterGate_outside (e : TaskEnvelope) (exc : Exc) :
    Prog.Within Outside (· = .other) (match exc with
      | .dependencyDeadLettered _ => do
        let _ ← cascadeDeadLetter e.taskId
        pure ()
      | .taskAlreadyTerminal _ => pure ()
      | .taskNotReady => requeueOrGiveUp e
      | .other => retryOrDeadLetter e : Worker Unit) := by
  cases exc with
  | dependencyDeadLettered dep =>
    exact (cascadeDeadLetter_outside _).bind fun _ => True.intro
  | taskAlreadyTerminal x => exact True.intro
  | taskNotReady =>
    simp only [requeueOrGiveUp]
    split
    · exact (recordFailure_outside _).bind fun _ => True.intro
    · exact call_within ⟨nofun, nofun⟩
  | other =>
    exact (recordFailure_outside _).bind fun outcome => retryWhile_outside e _ outcome

theorem process_passes (hfresh : h.own i = []) :
    (onceWatch t).Keeps S d i (process S d) (fun _ _ => True) h := by
  cases d with
  | event msg =>
    exact outside_keeps ((processEvent_inert S msg).mono (fun _ ho => ho.outside) fun _ he => he)
  | task m =>
    have hcomplete : ∀ h, (onceWatch t).Keeps S (.task m) i
        (tryCatch (call .transport (.completeTask m)) fun _ => pure ()) (fun _ _ => True) h :=
      fun h => outside_keeps (F := fun _ => True)
        ((call_within ⟨nofun, nofun⟩).tryCatch fun _ _ => True.intro)
    have hbody : (onceWatch t).Keeps S (.task m) i (if 1 < m.deliveryCount then
        reconcileRedeliveredTask m.envelope else handleTaskMessage m.envelope)
        (fun _ _ => True) h := by
      split
      · exact outside_keeps ((recordFailure_outside _).bind fun _ => True.intro)
      · refine Rules.wp.tryCatch ((dispatchTask_passes hfresh).mono fun out h₁ _ => ?_)
        cases out with
        | ok a => trivial
        | error e => exact outside_keeps (afterGate_outside m.envelope e)
    refine Rules.wp.bind (Rules.wp.tryCatch (hbody.mono fun out h₁ _ => ?_))
    cases out with
    | ok a => exact hcomplete h₁
    | error e => exact fun h₂ _ => hcomplete h₂

end Routines

/-! ## Runs -/

/-- In every run in which the gate sets only DISPATCHABLE tasks RUNNING and only PENDING tasks are
    released: for any task, the gate calls a handler at most once. -/
theorem dispatched_once {S : Settings} {c : Recorded}
    (hr : (replicas S).Reach Unraced (.idle noRecord) c) (t : TaskId) :
    (c.shared.log.filter fun e => e.op = ⟨.gate, .invoke t⟩).length ≤ 1 := by
  have honce : OnceRun t c.shared := by
    refine Watch.sound (W := onceWatch t) (fun c i f o hok hi hexec => hok i f o rfl hi hexec) ?_
      (fun d i h _ hfresh => process_passes ?_)
      (fun c i f o a b s _ _ _ _ _ j d hji _ => ?_) hr
    · exact ⟨Nat.zero_le 1, List.nodup_nil, fun _ h => absurd h List.not_mem_nil,
        fun h => absurd rfl h, fun h => absurd rfl h⟩
    · exact List.filter_eq_nil_iff.2 fun e he => by simpa using hfresh e he
    · exact (History.own_cons.others_of_ne (Ne.symm hji)).same
  have hle := honce.calls_le
  rw [History.executors, List.length_map] at hle
  exact hle

/-! ## A task that is executed twice -/

/-- A heartbeat is handled; the brief's message is delivered twice, to two replicas, which take turns
    up to the call of the handler. -/
def duelling : List (Act Stmt Stmt.Res Exc Nat Delivery Move) :=
  [.env (.fire 0), .enter 0 (.event (.heartbeat 0))] ++
  List.replicate 7 (.step 0 fun _ => .ok default) ++
  [.env (.duplicateTask ⟨⟨⟨0, "brief"⟩, "draft-research-brief", 0⟩, 0⟩),
    .enter 1 (firstDelivery thursday 0 "brief"), .enter 2 (firstDelivery thursday 0 "brief")] ++
  (List.replicate 3 [.step 1 fun _ => .ok default, .step 2 fun _ => .ok default]).flatten

/-- Both replicas call the handler. -/
theorem dispatched_twice :
    ¬ ∀ c, (replicas thursday).Reach Sys.free (.idle noRecord) c → ∀ t,
      (c.shared.log.filter fun e => e.op = ⟨.gate, .invoke t⟩).length ≤ 1 := by
  intro h
  have hreach : (replicas thursday).Reach Sys.free (.idle noRecord)
      (duelling.foldl (replicas thursday).exec (.idle noRecord)) := Sys.Reach.init.foldl_free _
  exact absurd (h _ hreach ⟨0, "brief"⟩) (by decide +kernel)

/-! ## Messages handled one after the other -/

/-- Thread `i` sets a task RUNNING or releases one only where it should. -/
def unhurried (c : Snapshot) (i : Nat) : Bool :=
  match c.next i with
  | some ⟨site, .transition u dest reason⟩ => c.shared.tasks.all fun r => r.taskId != u ||
    ((⟨site, .transition u dest reason⟩ != runStmt u || r.state == .dispatchable) &&
      (dest != .dispatchable || r.state == .pending))
  | _ => true

theorem unraced_of_unhurried {c : Snapshot} {c' : Recorded} {a : Action}
    (hcur : c'.shared.cur = c.shared) (hthread : c'.thread = c.thread)
    (ha : ∀ i f, a = .step i f → unhurried c i = true) : Unraced c' a := by
  rintro i f ⟨site, q⟩ rfl hi -
  have hnext : c.next i = some ⟨site, q⟩ := by
    rw [← hi, Config.next, Config.next, hthread]
  have hfine := ha i f rfl
  intro t r hr hid
  rw [hcur] at hr
  subst hid
  have hmove : ∀ dest reason, q = .transition r.taskId dest reason →
      ((⟨site, .transition r.taskId dest reason⟩ != runStmt r.taskId ||
        r.state == .dispatchable) && (dest != .dispatchable || r.state == .pending)) = true := by
    rintro dest reason rfl
    rw [unhurried, hnext] at hfine
    simpa using List.all_eq_true.1 hfine r hr
  refine ⟨fun hrun => ?_, fun reason hq => ?_⟩
  · have h := hmove .running .dispatched (congrArg Stmt.query hrun)
    rw [show site = .gate from congrArg Stmt.site hrun] at h
    simpa [runStmt] using h
  · have h := hmove .dispatchable reason hq
    rw [Bool.and_eq_true] at h
    simpa using h.2

/-- The brief has been written, and its handler was called no more than once. -/
theorem dispatched_once_of_thursday : ∃ c : Recorded,
    (∃ r ∈ c.shared.cur.tasks, r.taskId = ⟨0, "brief"⟩ ∧ r.state = .completed) ∧
    (c.shared.log.filter fun e => e.op = ⟨.gate, .invoke ⟨0, "brief"⟩⟩).length ≤ 1 := by
  obtain ⟨c, hreach, hcur⟩ := weekly_recorded thursday thursdayWorld ["brief", "draft"] unhurried
    (fun _ _ _ hcur hthread ha => unraced_of_unhurried hcur hthread ha) (by decide +kernel)
  refine ⟨c, ?_, dispatched_once hreach _⟩
  rw [hcur]
  decide +kernel

end CanvasOS.Orchestrator
