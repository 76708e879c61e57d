/-
  Whether a loop comes to its end when every handler succeeds.

  1. `Distinct`, `Succeeding` — no task lists a dependency twice; every statement is answered, a
     handler takes its own task to RUNNING and to COMPLETED, and no message is given up.
  2. `Flowing` — then a task is pending exactly as long as one of its dependencies is not
     completed, but for the moment in which `advance_dependents` has not got to it yet.
  3. `loop_progress` — and when no message is left, the whole batch is completed.
  4. `never_stuck` — until then, some task of the batch is ready to be worked on: an accepted loop
     has no cycle.
  5. `stuck_on_repeated` — a task that lists a dependency twice is never released.
-/
import CanvasOS.Orchestrator.Custody

namespace CanvasOS.Orchestrator

open Interleave Python

/-- No task of a loop lists a dependency twice. -/
def Settings.Distinct (S : Settings) : Prop := ∀ n, S.Has n → n.dependsOn.Nodup

/-- A transition of an invocation that succeeds: its own task to RUNNING or to COMPLETED, or the
    release of a dependent. -/
def Succeeds (d : Delivery) (u : TaskId) (dest : TaskState) : Prop :=
  dest = .dispatchable ∨
    ((∃ m, d = .task m ∧ u = m.envelope.taskId) ∧ (dest = .running ∨ dest = .completed))

/-- The statement is answered, counts no failure, and is one of an invocation that succeeds. -/
structure Smooth (d : Delivery) (o : Stmt) (r : Reply Exc o.Res) : Prop where
  answered : r.answers = true
  uncounted : o.site ≠ .stateMachine
  succeeds : ∀ u dest reason, o.query = .transition u dest reason → Succeeds d u dest

/-- One message at a time, none of them redelivered, or received at the requeue bound before its
    task is ready; every statement is smooth, and nothing crashes. -/
def Succeeding (c : Snapshot) : Action → Prop
  | .enter _ (.task m) => Quiet c ∧ m.deliveryCount = 1 ∧
    (notReadyMaxRequeues ≤ m.envelope.retryCount → ∃ r ∈ c.shared.tasks,
      r.taskId = m.envelope.taskId ∧ (r.state.terminal = true ∨ r.state = .dispatchable))
  | .enter _ (.event _) => Quiet c
  | .step i f => ∀ d o k, c.thread i = some (d, some (.op o k)) → Smooth d o (f o)
  | .crash _ => False
  | .env _ => True

/-- The replies of such runs. -/
def smoothReplies {S : Settings} (hdistinct : S.Distinct) : Regime S where
  adm := Smooth
  via _ := True
  prompt := True
  eager := True
  answered_of_prompt _ _ _ _ h _ := h.answered
  answered_of_eager _ _ _ _ h := h.answered
  uncounted_of_eager _ _ _ _ h := h.uncounted
  own_of_eager _ m _ u dest reason _ h := by
    rcases h.succeeds u dest reason rfl with hd | ⟨⟨m', hm, hu⟩, -⟩
    · exact .inr hd
    · cases hm
      exact .inl hu
  distinct_of_eager _ := hdistinct

/-- The task whose message it is. -/
def Delivery.drives (d : Delivery) (t : TaskId) : Prop :=
  ∃ m, d = .task m ∧ t = m.envelope.taskId

/-- Tasks wait for their dependencies and for nothing else, except for the tasks `movers` that are
    being handled. -/
structure Flowing (S : Settings) (spared : Nat → Prop) (movers : TaskId → Prop) (s : State) :
    Prop where
  gated : Gated S s
  custody : Custody S spared s
  states : ∀ r ∈ s.tasks, r.state = .pending ∨ r.state.passed = true
  released : ∀ r ∈ s.tasks, r.state = .pending →
    Unfed r.dependsOn s ∨ ∃ t, movers t ∧ t ∈ r.dependsOn
  whole : ∀ r ∈ s.tasks, ∀ n ∈ S.batch r.taskId.event, ∃ r' ∈ s.tasks, r'.taskId = n.taskId

theorem Unfed.of_tasks {deps : List TaskId} {s t : State} (h : Unfed deps s)
    (ht : t.tasks = s.tasks) : Unfed deps t := by
  unfold Unfed
  rw [ht]
  exact h

namespace Flowing

variable {S : Settings} {s t : State} {spared : Nat → Prop} {movers : TaskId → Prop}

theorem empty : Flowing S spared movers .empty :=
  ⟨.empty, .empty, fun _ h => absurd h List.not_mem_nil, fun _ h => absurd h List.not_mem_nil,
    fun _ h => absurd h List.not_mem_nil⟩

theorem mono {spared' : Nat → Prop} {movers' : TaskId → Prop} (h : Flowing S spared movers s)
    (hs : ∀ e, spared e → spared' e) (hm : ∀ t, movers t → movers' t) :
    Flowing S spared' movers' s :=
  ⟨h.gated, h.custody.mono hs, h.states,
    fun r hr hst => (h.released r hr hst).imp_right fun ⟨t, ht, hmem⟩ => ⟨t, hm t ht, hmem⟩, h.whole⟩

theorem calm (h : Flowing S spared movers s) (hc : Calm s t) : Flowing S spared movers t := by
  refine ⟨h.gated.calm hc, h.custody.calm hc, fun r' hr' => ?_, fun r' hr' hst => ?_,
    fun r' hr' n hn => ?_⟩
  · obtain ⟨r, hr, hf⟩ := hc.back r' hr'
    rw [hf.state]
    exact h.states r hr
  · obtain ⟨r, hr, hf⟩ := hc.back r' hr'
    rw [hf.dependsOn]
    exact (h.released r hr (hf.state.symm.trans hst)).imp_left fun hu => hu.calm hc
  · obtain ⟨r, hr, hf⟩ := hc.back r' hr'
    obtain ⟨k, hk, hid⟩ := h.whole r hr n (hf.taskId ▸ hn)
    obtain ⟨k', hk', hfk⟩ := hc.forth k hk
    exact ⟨k', hk', hfk.taskId.trans hid⟩

/-- The rows stand still. -/
theorem of_tasks (h : Flowing S spared movers s) (hc : Custody S spared t)
    (ht : t.tasks = s.tasks) : Flowing S spared movers t := by
  refine ⟨h.gated.of_tasks hc.wellFormed ht, hc, fun r hr => h.states r (ht ▸ hr),
    fun r hr hst => (h.released r (ht ▸ hr) hst).imp_left fun hu => hu.of_tasks ht,
    fun r hr n hn => ?_⟩
  rw [ht] at hr ⊢
  exact h.whole r hr n hn

/-- A batch is inserted as a whole or not at all, so a fresh task waits for fresh tasks. -/
theorem grown {event : Nat} (h : Flowing S spared movers s) (hg : Grown (S.batch event) s t)
    (hs : spared event) : Flowing S spared movers t := by
  -- a row of a task that was there is an old one, and a fresh one is not completed
  have hfresh : ∀ n, (∃ k ∈ S.batch event, n = k.toRow) →
      n.state = .pending ∨ n.state = .dispatchable := by
    rintro n ⟨k, -, rfl⟩
    simp only [NewTask.toRow]
    split
    · exact .inr rfl
    · exact .inl rfl
  have hlater : ∀ r ∈ t.tasks, r.state = .completed → r ∈ s.tasks := by
    intro r hr hst
    refine (hg.new r hr).resolve_right fun hnew => ?_
    rcases hfresh r hnew.1 with h | h <;>
    · rw [hst] at h
      cases h
  refine ⟨h.gated.grown hg, h.custody.grown hg hs, fun r hr => ?_, fun r hr hst => ?_,
    fun r hr n hn => ?_⟩
  · rcases hg.new r hr with hr | ⟨hnew, -⟩
    · exact h.states r hr
    · exact (hfresh r hnew).imp_right fun hst => by rw [hst]; rfl
  · rcases hg.new r hr with hr | ⟨⟨n, hn, rfl⟩, hnew⟩
    · refine (h.released r hr hst).imp_left ?_
      rintro ⟨d, hd, hall⟩
      refine ⟨d, hd, fun r' hr' hid hcomp => ?_⟩
      exact hall r' (hlater r' hr' hcomp) hid hcomp
    · left
      have hne : n.dependsOn ≠ [] := fun hnil => by
        simp only [NewTask.toRow, hnil] at hst
        cases hst
      obtain ⟨d, hd⟩ := List.exists_mem_of_ne_nil _ hne
      obtain ⟨hhas, hevent⟩ := Settings.has_of_mem hn
      refine ⟨d, hd, fun r' hr' hid hcomp => ?_⟩
      -- the batch was not there, or the task would have had a row
      have hmem : n ∈ S.batch r'.taskId.event := by
        rw [hid, hhas.event hd]
        exact hhas
      obtain ⟨r₀, hr₀, hid₀⟩ := h.whole r' (hlater r' hr' hcomp) n hmem
      exact hnew r₀ hr₀ hid₀
  · rcases hg.new r hr with hr | ⟨⟨k, hk, rfl⟩, -⟩
    · obtain ⟨r', hr', hid⟩ := h.whole r hr n hn
      exact ⟨r', hg.old r' hr', hid⟩
    · rw [show k.toRow.taskId = k.taskId from rfl, (Settings.has_of_mem hk).2] at hn
      exact hg.inserted n hn

/-- A task that is not pending has its dependencies completed. -/
theorem fedTask (h : Flowing S spared movers s) {r : TaskRow} (hr : r ∈ s.tasks)
    (hst : r.state ≠ .pending) : FedTask S r.taskId s :=
  .of_row h.gated.wellFormed hr (h.gated.fed r hr ((h.states r hr).resolve_left hst))

/-- So what moves has passed the gate. -/
theorem gatedMove {R : Regime S} {t u : TaskId} {dest : TaskState}
    (h : Flowing S spared movers s) (hl : LawfulMove R (fun _ _ => True) t s u dest) :
    LawfulMove R (FedTask S) t s u dest := by
  cases hl with
  | run hr hid hst _ =>
    refine .run hr hid hst (hid ▸ h.fedTask hr fun hp => ?_)
    rcases hst with hst | hst | hst <;>
    · rw [hp] at hst
      cases hst
  | complete hr hid hst _ href =>
    refine .complete hr hid hst (hid ▸ h.fedTask hr fun hp => ?_) href
    rcases hst with hst | hst <;>
    · rw [hp] at hst
      cases hst
  | block hr hid hst => exact .block hr hid hst
  | retry hr hid hst => exact .retry hr hid hst
  | dead hr hid hst => exact .dead hr hid hst
  | release hr hst hfed => exact .release hr hst hfed
  | completeOther hr hid hst _ hother hsib href =>
    exact .completeOther hr hid hst (hid ▸ h.fedTask hr (by rw [hst]; decide)) hother hsib href
  | blockOther hr hid hst hsib => exact .blockOther hr hid hst hsib

/-- A transition of an invocation that succeeds. -/
theorem moved {R : Regime S} {m : TaskMessage} {u : TaskId} {dest : TaskState}
    (h : Flowing S spared (Delivery.task m).drives s)
    (hl : LawfulMove R (fun _ _ => True) m.envelope.taskId s u dest) (hm : Moved u dest s t)
    (hsucc : Succeeds (.task m) u dest) :
    Flowing S spared (Delivery.task m).drives t := by
  have hpassed : dest.passed = true := by
    rcases hsucc with rfl | ⟨-, rfl | rfl⟩ <;> rfl
  have hown : dest ≠ .dispatchable → u = m.envelope.taskId := fun hne => by
    obtain ⟨⟨m', hm', hu⟩, -⟩ := hsucc.resolve_left hne
    cases hm'
    exact hu
  refine ⟨h.gated.move (fun hk => hk) (h.gatedMove hl) hm fun hsib hne => absurd (hown hne) hsib.ne,
    h.custody.moved hm fun r hr hid hdest => hl.not_terminal h.gated.wellFormed hr hid hdest,
    fun r' hr' => ?_, fun r' hr' hst => ?_, fun r' hr' n hn => ?_⟩
  · obtain ⟨r, hr, rfl⟩ := hm.back hr'
    by_cases hid : r.taskId = u
    · rw [TaskRow.moved_self hid]
      exact .inr hpassed
    · rw [TaskRow.moved_of_ne hid]
      exact h.states r hr
  · obtain ⟨r, hr, rfl⟩ := hm.back hr'
    rw [TaskRow.moved_dependsOn]
    have hid : r.taskId ≠ u := fun hid => by
      rw [TaskRow.moved_self hid] at hst
      rw [hst] at hpassed
      cases hpassed
    rw [TaskRow.moved_of_ne hid] at hst
    by_cases hmem : m.envelope.taskId ∈ r.dependsOn
    · exact .inr ⟨_, ⟨m, rfl, rfl⟩, hmem⟩
    rcases h.released r hr hst with ⟨d, hd, hall⟩ | hmover
    · refine .inl ⟨d, hd, fun k' hk' hkid => ?_⟩
      obtain ⟨k, hk, rfl⟩ := hm.back hk'
      rw [TaskRow.moved_taskId] at hkid
      by_cases hku : k.taskId = u
      · -- a dependency that moves is not the task that is handled, so it is released
        rw [TaskRow.moved_self hku]
        rintro rfl
        exact hmem ((hown nofun) ▸ hku ▸ hkid ▸ hd)
      · rw [TaskRow.moved_of_ne hku]
        exact hall k hk hkid
    · exact .inr hmover
  · obtain ⟨r, hr, rfl⟩ := hm.back hr'
    rw [TaskRow.moved_taskId] at hn
    obtain ⟨k, hk, hid⟩ := h.whole r hr n hn
    exact ⟨_, hm.forth hk, TaskRow.moved_taskId.trans hid⟩

end Flowing

/-- The flow is an invariant. -/
def flow {S : Settings} (hdistinct : S.Distinct) : Upkeep (smoothReplies hdistinct) where
  idle := ⟨Flowing S (fun _ => False) fun _ => False, fun _ _ hc h => h.calm hc⟩
  inv d := Flowing S d.brings d.drives
  keep _ _ := True
  wellFormed _ _ h := h.gated.wellFormed
  inv_calm _ _ _ hc h := h.calm hc
  keep_calm _ _ _ _ h := h
  gate _ _ _ _ _ _ := trivial
  unread _ _ _ _ _ := trivial
  via _ _ _ _ _ _ _ _ := trivial
  step d o a s b s' h hl hx hrun hq := by
    obtain ⟨site, q⟩ := o
    obtain ⟨r, hadm, -⟩ := hx
    cases q with
    | insertTaskBatch batch =>
      obtain ⟨event, rfl, rfl⟩ := hl
      exact h.grown (exec_insertTaskBatch hrun) rfl
    | transition u dest reason =>
      obtain ⟨m, rfl, hmove⟩ := hl
      exact h.moved hmove (exec_transition hrun) (hadm.succeeds u dest reason rfl)
    | publishTask e =>
      obtain ⟨-, rfl⟩ := Prod.mk.inj (Option.some.inj hrun)
      exact h.of_tasks (h.custody.publish hl) rfl
    | completeTask m =>
      obtain ⟨-, rfl⟩ := Prod.mk.inj (Option.some.inj hrun)
      exact h.of_tasks (h.custody.erase (hl.2 trivial)) rfl
    | _ => cases hq
  keep_step _ _ _ _ _ _ _ _ _ := trivial
  settled d s h hs := by
    refine ⟨h.gated, h.custody.settled (R := smoothReplies hdistinct) trivial hs, h.states,
      fun r hr hst => .inl ?_, h.whole⟩
    rcases h.released r hr hst with hu | ⟨t, ⟨m, rfl, rfl⟩, hmem⟩
    · exact hu
    · exact hs trivial r hr hst hmem

/-! ## Runs -/

section Runs

variable {S : Settings} {c : Snapshot}

/-- Rows are never deleted. -/
theorem exec_row {q : Query} {a b : q.Res} {s t : State} (h : exec q a s = some (b, t)) {u : TaskId}
    (hu : ∃ r ∈ s.tasks, r.taskId = u) : ∃ r ∈ t.tasks, r.taskId = u := by
  obtain ⟨r, hr, hid⟩ := hu
  by_cases hq : q.calm = true
  · obtain ⟨r', hr', hf⟩ := (exec_calm hq h).forth r hr
    exact ⟨r', hr', hf.taskId.trans hid⟩
  cases q with
  | insertTaskBatch batch => exact ⟨r, (exec_insertTaskBatch h).old r hr, hid⟩
  | transition => exact ⟨_, (exec_transition h).forth hr, TaskRow.moved_taskId.trans hid⟩
  | publishTask | completeTask =>
    obtain ⟨-, rfl⟩ := Prod.mk.inj (Option.some.inj h)
    exact ⟨r, hr, hid⟩
  | _ => exact absurd rfl hq

/-- The rows of a batch are there. -/
def Inserted (S : Settings) (event : Nat) (s : State) : Prop :=
  ∀ n ∈ S.batch event, ∃ r ∈ s.tasks, r.taskId = n.taskId

/-- The first statement of a heartbeat, once it is executed, has inserted its batch. -/
theorem inserted_of_first {event : Nat} {o : Stmt} {k : Except Exc o.Res → Worker Unit}
    (h : process S (.event (.heartbeat event)) = .op o k) {a b : o.Res} {s t : State}
    (hrun : exec o.query a s = some (b, t)) : Inserted S event t := by
  intro n hn
  unfold Settings.batch at hn
  split at hn
  · exact absurd hn List.not_mem_nil
  · rename_i L hL
    simp only [process, processEvent, handleHeartbeatMessage, hL] at h
    obtain ⟨rfl, -⟩ := Prog.op.inj h
    exact (exec_insertTaskBatch hrun).inserted n hn

/-- A heartbeat that has not begun is being handled. -/
theorem heartbeat_runs (event : Nat) : ∃ o k, process S (.event (.heartbeat event)) = .op o k := by
  simp only [process, processEvent, handleHeartbeatMessage]
  cases S.loops (S.firedFor event) with
  | none => exact ⟨_, _, rfl⟩
  | some L => exact ⟨_, _, rfl⟩

/-- Each received heartbeat has inserted its batch, or has not begun to. -/
theorem inserted_of_received (hr : (worker S).Reach Succeeding (.idle .empty) c) :
    ∀ i event p, c.thread i = some (.event (.heartbeat event), p) →
      p = some (process S (.event (.heartbeat event))) ∨ Inserted S event c.shared := by
  let J (c : Snapshot) : Prop := ∀ i event p, c.thread i = some (.event (.heartbeat event), p) →
    p = some (process S (.event (.heartbeat event))) ∨ Inserted S event c.shared
  have h₀ : J (.idle .empty) := fun _ _ _ h => nomatch h
  refine hr.invariant h₀ fun c a _ hJ hok => Sys.exec_cases (P := J) a hJ ?_ ?_ ?_ ?_
  · rintro i d s rfl - hs j event p hj
    rcases Config.put_thread.1 hj with ⟨-, rfl, hp⟩ | ⟨-, hj⟩
    · exact .inl hp.symm
    · refine (hJ j event p hj).imp_right fun h n hn => ?_
      rw [Config.put_shared, receive_tasks hs]
      exact h n hn
  · rintro i f d o k out s rfl hi hs j event p hj
    have hanswered := (hok d o k hi).answered
    cases hfo : f o with
    | failed e | lost a e =>
      rw [hfo] at hanswered
      cases hanswered
    | ok a =>
      rw [hfo] at hs
      obtain ⟨⟨b, t⟩, hrun, heq⟩ := Option.map_eq_some_iff.1 hs
      obtain ⟨-, rfl⟩ := Prod.mk.inj heq
      have hkept : ∀ event, Inserted S event c.shared → Inserted S event t := fun event h n hn =>
        exec_row hrun (h n hn)
      rcases Config.put_thread.1 hj with ⟨-, rfl, -⟩ | ⟨-, hj⟩
      · rcases hJ i event _ hi with hp | h
        · exact .inr (inserted_of_first (Option.some.inj hp).symm hrun)
        · exact .inr (hkept event h)
      · exact (hJ j event p hj).imp_right (hkept event)
  · rintro i d p rfl -
    exact hok.elim
  · rintro e s rfl hs j event p hj
    refine (hJ j event p hj).imp_right fun h n hn => ?_
    obtain ⟨r, hr, hid⟩ := h n hn
    obtain ⟨r', hr', hf⟩ := (move_calm hs).forth r hr
    exact ⟨r', hr', hf.taskId.trans hid⟩

/-- In such a run, the flow holds. -/
theorem flowing_of_reach (hdistinct : S.Distinct)
    (hr : (worker S).Reach Succeeding (.idle .empty) c) :
    (Quiet c ∧ Flowing S (fun _ => False) (fun _ => False) c.shared) ∨
      ∃ i d o k, c.thread i = some (d, some (.op o k)) ∧
        Flowing S d.brings d.drives c.shared := by
  have hserves := (flow hdistinct).sound (fun c i d hok => ?_) (fun c i f d o k hok hi => ?_)
    Flowing.empty (fun c i d s hok hidle hs => ⟨?_, ?_⟩) (fun c i d o k hok _ _ => hok.elim) hr
  · exact hserves.imp_right fun ⟨i, d, o, k, h⟩ => ⟨i, d, o, k, h.thread, h.inv⟩
  · cases d with
    | task m => exact hok.1
    | event msg => exact hok
  · exact hok d o k hi
  · exact (Flowing.of_tasks hidle (hidle.custody.receive hs) (receive_tasks hs)).mono
      (fun _ h => h.elim) fun _ h => h.elim
  · cases d with
    | task m =>
      obtain ⟨-, hfirst, hready⟩ := hok
      obtain ⟨hdelivered, -, rfl⟩ := receive_task hs
      refine ⟨hdelivered, List.mem_cons_self, fun _ hlt => absurd hfirst (by omega), fun _ hle => ?_,
        fun _ r hr hst _ => ?_⟩
      · obtain ⟨r, hr, hid, hst⟩ := hready hle
        exact ⟨r, hr, hid, hst.imp_right .inr⟩
      · exact (hidle.released r hr hst).resolve_right fun ⟨_, h, _⟩ => h
    | event msg => trivial

/-- If no task lists a dependency twice and every invocation succeeds: a task leaves PENDING only
    when all its dependencies are COMPLETED; it is still PENDING then only while the message of one
    of them is handled; and when no message is left, every batch is COMPLETED. -/
theorem loop_progress (hdistinct : S.Distinct)
    (hr : (worker S).Reach Succeeding (.idle .empty) c) :
    (∀ r ∈ c.shared.tasks, r.state ≠ .pending → Fed r.dependsOn c.shared) ∧
    (∀ r ∈ c.shared.tasks, r.state = .pending → Unfed r.dependsOn c.shared ∨
      ∃ i m o k, c.thread i = some (.task m, some (.op o k)) ∧
        m.envelope.taskId ∈ r.dependsOn) ∧
    (Quiet c → c.shared.taskQueue = [] → ∀ i event p,
      c.thread i = some (.event (.heartbeat event), p) → ∀ n ∈ S.batch event,
        ∃ r ∈ c.shared.tasks, r.taskId = n.taskId ∧ r.state = .completed) := by
  have hcases := flowing_of_reach hdistinct hr
  have hflow : ∃ spared movers, Flowing S spared movers c.shared := by
    rcases hcases with ⟨-, h⟩ | ⟨i, d, o, k, -, h⟩ <;> exact ⟨_, _, h⟩
  refine ⟨fun r hr hst => ?_, fun r hr hst => ?_, fun hquiet hnone i event p hi n hn => ?_⟩
  · obtain ⟨spared, movers, h⟩ := hflow
    exact h.gated.fed r hr ((h.states r hr).resolve_left hst)
  · rcases hcases with ⟨-, h⟩ | ⟨i, d, o, k, hi, h⟩
    · exact .inl ((h.released r hr hst).resolve_right fun ⟨_, h, _⟩ => h)
    · refine (h.released r hr hst).imp_right fun ⟨t, ⟨m, hd, ht⟩, hmem⟩ => ?_
      exact ⟨i, m, o, k, hd ▸ hi, ht ▸ hmem⟩
  · have hinserted : Inserted S event c.shared :=
      (inserted_of_received hr i event p hi).resolve_left fun hp => ?_
    · obtain ⟨r, hr, hid⟩ := hinserted n hn
      refine ⟨r, hr, hid, ?_⟩
      rcases hcases with ⟨-, h⟩ | ⟨j, d, o, k, hj, -⟩
      · -- without messages, every task is terminal
        cases hterm : r.state.terminal with
        | false =>
          rcases h.custody.queued r hr hterm with ⟨m, hm, -⟩ | hf
          · rw [hnone] at hm
            exact absurd hm List.not_mem_nil
          · exact hf.elim
        | true =>
          rcases h.states r hr with hst | hst <;> revert hterm hst <;> cases r.state <;> decide
      · exact absurd ⟨d, o, k, hj⟩ (hquiet j)
    · obtain ⟨o, k, heq⟩ := heartbeat_runs (S := S) event
      exact hquiet i ⟨_, o, k, by rw [hi, hp, heq]⟩

/-- Until a batch is completed, one of its tasks is DISPATCHABLE or RUNNING, and has a message: the
    loop has no cycle, so some task that is not completed waits for none of the others. -/
theorem never_stuck (hdistinct : S.Distinct) (hr : (worker S).Reach Succeeding (.idle .empty) c)
    (hquiet : Quiet c) {r : TaskRow} (hrow : r ∈ c.shared.tasks) (hst : r.state ≠ .completed) :
    ∃ u ∈ c.shared.tasks, u.taskId.event = r.taskId.event ∧
      (u.state = .dispatchable ∨ u.state = .running) ∧ Queued u.taskId c.shared := by
  rcases flowing_of_reach hdistinct hr with ⟨-, h⟩ | ⟨i, d, o, k, hi, -⟩
  swap
  · exact absurd ⟨d, o, k, hi⟩ (hquiet i)
  by_contra hnone
  obtain ⟨n, hn, hmat⟩ := h.gated.wellFormed.rows r hrow
  obtain ⟨L, hL, t, ht, heq⟩ := hn.loop
  have hbatch : S.batch r.taskId.event = decompose L.loop r.taskId.event := by
    rw [Settings.batch, hmat.taskId, hL]
  -- what depends on completed tasks only is completed
  have hall : ∀ t ∈ L.loop.tasks, ∃ u ∈ c.shared.tasks,
      u.taskId = ⟨r.taskId.event, t.taskId⟩ ∧ u.state = .completed := by
    refine L.induction (P := fun name => ∃ u ∈ c.shared.tasks,
      u.taskId = ⟨r.taskId.event, name⟩ ∧ u.state = .completed) fun t ht hdeps => ?_
    have hmem : (⟨⟨r.taskId.event, t.taskId⟩, t.taskType, t.dependsOn.map (⟨r.taskId.event, ·⟩),
        L.loop.loopId⟩ : NewTask) ∈ S.batch r.taskId.event :=
      hbatch ▸ List.mem_map.2 ⟨t, ht, rfl⟩
    obtain ⟨u, hu, hid⟩ := h.whole r hrow _ hmem
    obtain ⟨k, hk, hku⟩ := h.gated.wellFormed.rows u hu
    obtain rfl := hk.eq (Settings.has_of_mem hmem).1 (hku.taskId.symm.trans hid)
    refine ⟨u, hu, hid, ?_⟩
    have hlive : u.state = .dispatchable ∨ u.state = .running → False := fun hst => by
      have hterm : u.state.terminal = false := by
        rcases hst with hst | hst <;> rw [hst] <;> rfl
      exact hnone ⟨u, hu, by rw [hid], hst, (h.custody.queued u hu hterm).resolve_right id⟩
    rcases h.states u hu with hst | hst
    · obtain ⟨d, hd, hopen⟩ := (h.released u hu hst).resolve_right (by rintro ⟨_, h, _⟩; exact h)
      rw [hku.dependsOn] at hd
      obtain ⟨name, hname, rfl⟩ := List.mem_map.1 hd
      obtain ⟨v, hv, hvid, hvst⟩ := hdeps name hname
      exact absurd hvst (hopen v hv hvid)
    · revert hst hlive
      cases u.state <;> simp [TaskState.passed]
  obtain ⟨u, hu, hid, hcomp⟩ := hall t ht
  have hsame : u.taskId = r.taskId := by
    rw [hid, hmat.taskId, heq]
  exact hst (h.gated.wellFormed.unique hu hrow hsame ▸ hcomp)

end Runs

/-! ## A task that is never released -/

/-- The statement is one of an invocation that succeeds. -/
def Delivery.allows (d : Delivery) : Query → Bool
  | .transition u dest _ => dest == .dispatchable || match d with
    | .task m => u == m.envelope.taskId && (dest == .running || dest == .completed)
    | .event _ => false
  | _ => true

/-- So is the next statement of thread `i`, and it counts no failure. -/
def smoothNext (c : Snapshot) (i : Nat) : Bool :=
  match c.thread i with
  | some (d, some (.op o _)) => o.site != .stateMachine && d.allows o.query
  | _ => true

theorem succeeds_of_allows {d : Delivery} {u : TaskId} {dest : TaskState}
    (reason : TransitionReason) (h : d.allows (.transition u dest reason) = true) :
    Succeeds d u dest := by
  simp only [Delivery.allows, Bool.or_eq_true, beq_iff_eq] at h
  refine h.imp_right fun h => ?_
  cases d with
  | task m =>
    simp only [Bool.and_eq_true, Bool.or_eq_true, beq_iff_eq] at h
    exact ⟨⟨m, rfl, h.1⟩, h.2⟩
  | event msg => cases h

/-- Fresh messages handled one after the other, every invocation a success. -/
theorem weekly_succeeding {S : Settings} {world : World} {names : List String}
    (h : allMeet S world (fun _ d => d.fresh) smoothNext 60
      (.event (.heartbeat 0) :: names.map (firstDelivery S 0)) 0
      ((worker S).exec (.idle .empty) (.env (.fire 0))) = true) :
    (worker S).Reach Succeeding (.idle .empty) (weekly S world names) ∧
      Quiet (weekly S world names) := by
  refine weekly_meets _ _ (fun _ _ => trivial) (fun c i d hq hd => ?_)
    (fun c i f hfine hf d o k hi => ?_) h
  · cases d with
    | task m =>
      simp only [Delivery.fresh, Bool.and_eq_true, beq_iff_eq, decide_eq_true_eq] at hd
      exact ⟨hq, hd.1, fun hle => absurd hd.2 (by omega)⟩
    | event msg => exact hq
  · simp only [smoothNext, hi, Bool.and_eq_true, bne_iff_ne] at hfine
    refine ⟨hf o, hfine.1, fun u dest reason hq => succeeds_of_allows reason ?_⟩
    rw [← hq]
    exact hfine.2

/-- Scoring depends on the signals twice. -/
def repeatedLoop : LoopDefinition :=
  ⟨"1", "daily", [⟨"signals", "ingest-signals", []⟩,
    ⟨"scores", "score-signals", ["signals", "signals"]⟩]⟩

theorem repeatedLoop_accepted : validateLoopFile repeatedLoop = .ok repeatedLoop := rfl

def repeated : Settings := ⟨fun _ => some ⟨repeatedLoop, repeatedLoop_accepted⟩, fun _ => "daily"⟩

/-- Everything succeeds at once. -/
def smoothWorld : World
  | .work _ _, _ => (⟨[("vault_asset_id", .str "asset-1")], true, []⟩ : Outcome)
  | _, _ => default

/-- The signals are COMPLETED, and scoring is still PENDING: one completed row is counted, two
    entries are expected. -/
theorem stuck_on_repeated :
    ¬ ∀ c, (worker repeated).Reach Succeeding (.idle .empty) c → Quiet c →
      ∀ r ∈ c.shared.tasks, r.state = .pending → Unfed r.dependsOn c.shared := by
  intro h
  let last := weekly repeated smoothWorld ["signals"]
  obtain ⟨hr, hquiet⟩ : (worker repeated).Reach Succeeding (.idle .empty) last ∧ Quiet last :=
    weekly_succeeding (by decide +kernel)
  have hstuck : ∃ r ∈ last.shared.tasks, r.state = .pending ∧ ∀ d ∈ r.dependsOn,
      ∃ r' ∈ last.shared.tasks, r'.taskId = d ∧ r'.state = .completed := by
    decide +kernel
  obtain ⟨r, hrow, hst, hfed⟩ := hstuck
  obtain ⟨d, hd, hopen⟩ := h _ hr hquiet r hrow hst
  obtain ⟨r', hr', hid, hcomp⟩ := hfed d hd
  exact hopen r' hr' hid hcomp

/-- It is enough to look at the loop files. -/
theorem distinct_of_loops {S : Settings} (h : ∀ event L, S.loops (S.firedFor event) = some L →
    ∀ t ∈ L.loop.tasks, t.dependsOn.Nodup) : S.Distinct := by
  intro n hn
  obtain ⟨L, hL, t, ht, heq⟩ := hn.loop
  rw [heq]
  exact (h _ L hL t ht).map fun a b hab => congrArg TaskId.name hab

/-- The weekly loop, from beginning to end. -/
def thursdayEnd : Snapshot :=
  weekly thursday smoothWorld ["brief", "draft", "brand", "fact", "friday"]

theorem thursdayEnd_reach :
    (worker thursday).Reach Succeeding (.idle .empty) thursdayEnd ∧ Quiet thursdayEnd :=
  weekly_succeeding (by decide +kernel)

/-- Its heartbeat has been handled. -/
theorem thursdayEnd_received : ∃ p, thursdayEnd.thread 0 = some (.event (.heartbeat 0), p) := by
  have h : (thursdayEnd.thread 0).map Prod.fst = some (.event (.heartbeat 0)) := by
    decide +kernel
  obtain ⟨⟨request, p⟩, hp, rfl⟩ := Option.map_eq_some_iff.1 h
  exact ⟨p, hp⟩

/-- No message is left, and every task of the loop is COMPLETED. -/
theorem loop_progress_of_thursday : thursdayEnd.shared.taskQueue = [] ∧
    ∀ n ∈ thursday.batch 0, ∃ r ∈ thursdayEnd.shared.tasks,
      r.taskId = n.taskId ∧ r.state = .completed := by
  have hdistinct : thursday.Distinct := distinct_of_loops fun event L hL => by
    obtain rfl := Option.some.inj hL
    decide
  have hnone : thursdayEnd.shared.taskQueue = [] := by
    decide +kernel
  obtain ⟨p, hp⟩ := thursdayEnd_received
  exact ⟨hnone, (loop_progress hdistinct thursdayEnd_reach.1).2.2 thursdayEnd_reach.2 hnone 0 0 p hp⟩

end CanvasOS.Orchestrator
