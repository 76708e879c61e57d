/-
  Whether a task can be lost: every message is completed, whatever became of its task.

  1. `Custody` — every task that is not terminal has an envelope on the task queue, or belongs to
     the heartbeat that is being handled.
  2. `Attended` — the runs in which no message is completed too early: the retry state machine and
     the republishing are answered, and a message that would only count a failure is received when
     that failure is the third, or its task is terminal.
  3. `never_lost` — in these runs no task is lost.
  4. `lost_after_redelivery` — in others one is: a crash, a redelivery, and a task that waits for a
     retry nobody will make.
-/
import CanvasOS.Orchestrator.Gate

namespace CanvasOS.Orchestrator

open Interleave Python

/-- Task `t` has an envelope on the task queue, locked or not. -/
def Queued (t : TaskId) (s : State) : Prop := ∃ m ∈ s.taskQueue, m.envelope.taskId = t

/-- It is the heartbeat with this `event_id`. -/
def Delivery.brings (d : Delivery) (event : Nat) : Prop := d = .event (.heartbeat event)

/-- Every task that is not terminal has an envelope, except those of spared heartbeats. -/
structure Custody (S : Settings) (spared : Nat → Prop) (s : State) : Prop where
  wellFormed : WellFormed S s
  queued : ∀ r ∈ s.tasks, r.state.terminal = false → Queued r.taskId s ∨ spared r.taskId.event

/-- A message that is not completed too early: if it is redelivered, or has been bounced too often,
    then its task is terminal, or counts its last failure, or (in the second case) is ready. -/
structure Conclusive (m : TaskMessage) (s : State) : Prop where
  redelivered : 1 < m.deliveryCount → ∃ r ∈ s.tasks, r.taskId = m.envelope.taskId ∧
    (r.state.terminal = true ∨ maxFailures ≤ r.retryCount + 1)
  givenUp : notReadyMaxRequeues ≤ m.envelope.retryCount →
    ∃ r ∈ s.tasks, r.taskId = m.envelope.taskId ∧
      (r.state.terminal = true ∨ maxFailures ≤ r.retryCount + 1 ∨ r.state = .dispatchable)

/-- One message at a time, received when it is conclusive; the statements of the state machine and
    of the republishing are answered; no crash takes a heartbeat before its batch is published. -/
def Attended (c : Snapshot) : Action → Prop
  | .enter _ (.task m) => Quiet c ∧ Conclusive m c.shared
  | .enter _ (.event _) => Quiet c
  | .step i f => ∀ o, c.next i = some o → o.site = .stateMachine ∨ o.site = .worker →
    (f o).answers = true
  | .crash i => ∀ event p, c.thread i = some (.event (.heartbeat event), p) →
    ∀ r ∈ c.shared.tasks, r.taskId.event = event → r.state.terminal = false →
      Queued r.taskId c.shared
  | .env _ => True

/-- The replies of such runs. -/
def promptReplies (S : Settings) : Regime S where
  adm _ o r := o.site = .stateMachine ∨ o.site = .worker → r.answers = true
  via _ := True
  prompt := True
  eager := False
  answered_of_prompt := fun _ _ _ _ h => h
  answered_of_eager := False.elim
  uncounted_of_eager := False.elim
  own_of_eager := False.elim
  distinct_of_eager := S.distinct_of_false

section

variable {S : Settings} {s t : State} {spared : Nat → Prop}

/-- A terminal task is not taken up again. -/
theorem LawfulMove.not_terminal {R : Regime S} {keep : TaskId → State → Prop} {t u : TaskId}
    {dest : TaskState} (hw : WellFormed S s) (hl : LawfulMove R keep t s u dest) {r : TaskRow}
    (hr : r ∈ s.tasks) (hid : r.taskId = u) (hdest : dest.terminal = false) :
    r.state.terminal = false := by
  have hrow : ∀ r' ∈ s.tasks, r'.taskId = u → r'.state.terminal = false →
      r.state.terminal = false := fun r' hr' hid' hst =>
    hw.unique hr' hr (hid'.trans hid.symm) ▸ hst
  cases hl with
  | run hr' hid' hst _ =>
    refine hrow _ hr' hid' ?_
    rcases hst with hst | hst
    · rw [hst]
      rfl
    · exact hst.not_terminal
  | retry hr' hid' hst => exact hrow _ hr' hid' hst
  | release hr' hst _ => exact hrow _ hr' rfl (by rw [hst]; rfl)
  | complete | block | dead | completeOther | blockOther => cases hdest

namespace Custody

theorem empty : Custody S spared .empty :=
  ⟨.empty, fun _ h => absurd h List.not_mem_nil⟩

theorem mono {spared' : Nat → Prop} (h : Custody S spared s) (hs : ∀ e, spared e → spared' e) :
    Custody S spared' s :=
  ⟨h.wellFormed, fun r hr hst => (h.queued r hr hst).imp_right (hs _)⟩

theorem calm (h : Custody S spared s) (hc : Calm s t) : Custody S spared t := by
  refine ⟨h.wellFormed.calm hc, fun r' hr' hst => ?_⟩
  obtain ⟨r, hr, hf⟩ := hc.back r' hr'
  rw [hf.taskId]
  exact (h.queued r hr (hf.state ▸ hst)).imp_left fun ⟨m, hm, hid⟩ => ⟨m, hc.queue.subset hm, hid⟩

theorem moved {u : TaskId} {dest : TaskState} (h : Custody S spared s) (hm : Moved u dest s t)
    (hlive : ∀ r ∈ s.tasks, r.taskId = u → dest.terminal = false → r.state.terminal = false) :
    Custody S spared t := by
  refine ⟨h.wellFormed.moved hm, fun r' hr' hst => ?_⟩
  obtain ⟨r, hr, rfl⟩ := hm.back hr'
  rw [TaskRow.moved_taskId, Queued, hm.taskQueue]
  refine h.queued r hr ?_
  by_cases hid : r.taskId = u
  · rw [TaskRow.moved_self hid] at hst
    exact hlive r hr hid hst
  · rwa [TaskRow.moved_of_ne hid] at hst

/-- The rows of a batch wait for their envelopes while its heartbeat is handled. -/
theorem grown {event : Nat} (h : Custody S spared s) (hg : Grown (S.batch event) s t)
    (hs : spared event) : Custody S spared t := by
  refine ⟨h.wellFormed.grown hg, fun r hr hst => ?_⟩
  rw [Queued, hg.taskQueue]
  rcases hg.new r hr with hr | ⟨⟨n, hn, rfl⟩, -⟩
  · exact h.queued r hr hst
  · exact .inr ((Settings.has_of_mem hn).2 ▸ hs)

theorem publish {e : TaskEnvelope} (h : Custody S spared s)
    (he : ∃ r ∈ s.tasks, r.taskId = e.taskId ∧ r.taskType = e.taskType) :
    Custody S spared { s with taskQueue := ⟨e, 0⟩ :: s.taskQueue } :=
  ⟨h.wellFormed.publish he, fun r hr hst =>
    (h.queued r hr hst).imp_left fun ⟨m, hm, hid⟩ => ⟨m, List.mem_cons_of_mem _ hm, hid⟩⟩

/-- A message whose task is terminal, or has another message, may be completed. -/
theorem erase {m : TaskMessage} (h : Custody S spared s) (hcov : Covered m s) :
    Custody S spared { s with taskQueue := s.taskQueue.erase m } := by
  refine ⟨h.wellFormed.erase, fun r hr hst => (h.queued r hr hst).imp_left fun ⟨m₀, hm₀, hid⟩ => ?_⟩
  by_cases hown : r.taskId = m.envelope.taskId
  · rcases hcov with ⟨r', hr', hid', hterm⟩ | ⟨m', hm', hid', hne⟩
    · obtain rfl := h.wellFormed.unique hr hr' (hown.trans hid'.symm)
      rw [hst] at hterm
      cases hterm
    · exact ⟨m', (List.mem_erase_of_ne hne).2 hm', hid'.trans hown.symm⟩
  · refine ⟨m₀, (List.mem_erase_of_ne fun heq => hown ?_).2 hm₀, hid⟩
    rw [← hid, heq]

/-- A message that is received stays on its queue. -/
theorem receive {d : Delivery} (h : Custody S spared s) (hs : s.receive d = some t) :
    Custody S spared t := by
  refine ⟨h.wellFormed.receive hs, fun r hr hst => ?_⟩
  rw [receive_tasks hs] at hr
  refine (h.queued r hr hst).imp_left fun ⟨m₀, hm₀, hid⟩ => ?_
  cases d with
  | task m =>
    obtain ⟨-, -, rfl⟩ := receive_task hs
    by_cases heq : m₀ = ⟨m.envelope, m.deliveryCount - 1⟩
    · exact ⟨m, List.mem_cons_self, by rw [← hid, heq]⟩
    · exact ⟨m₀, List.mem_cons_of_mem _ ((List.mem_erase_of_ne heq).2 hm₀), hid⟩
  | event msg =>
    obtain ⟨-, rfl⟩ := receive_event hs
    exact ⟨m₀, hm₀, hid⟩

/-- When a delivery has been handled, no heartbeat is spared any longer. -/
theorem settled {R : Regime S} (hp : R.prompt) {d : Delivery} (h : Custody S d.brings s)
    (hs : Settled R d s) : Custody S (fun _ => False) s := by
  refine ⟨h.wellFormed, fun r hr hst => ?_⟩
  rcases h.queued r hr hst with hq | hb
  · exact .inl hq
  · obtain ⟨n, hn, hmat⟩ := h.wellFormed.rows r hr
    have hd : d = .event (.heartbeat n.taskId.event) := hmat.taskId ▸ hb
    subst hd
    obtain ⟨m, hm, hid⟩ := hs hp n hn
    exact .inl ⟨m, hm, hid.trans hmat.taskId.symm⟩

end Custody

/-- The custody of tasks is an invariant. -/
def attending (S : Settings) : Upkeep (promptReplies S) where
  idle := ⟨Custody S fun _ => False, fun _ _ hc h => h.calm hc⟩
  inv d := Custody S d.brings
  keep _ _ := True
  wellFormed _ _ h := h.wellFormed
  inv_calm _ _ _ hc h := h.calm hc
  keep_calm _ _ _ _ h := h
  gate _ _ _ _ _ _ := trivial
  unread _ _ _ _ _ := trivial
  via _ _ _ _ _ _ _ _ := trivial
  step d o a s b s' h hl _ hrun hq := by
    obtain ⟨site, q⟩ := o
    cases q with
    | insertTaskBatch batch =>
      obtain ⟨event, rfl, rfl⟩ := hl
      exact h.grown (exec_insertTaskBatch hrun) rfl
    | transition u dest reason =>
      obtain ⟨m, rfl, hmove⟩ := hl
      exact h.moved (exec_transition hrun) fun r hr hid hdest =>
        hmove.not_terminal h.wellFormed hr hid hdest
    | publishTask e =>
      obtain ⟨-, rfl⟩ := Prod.mk.inj (Option.some.inj hrun)
      exact h.publish hl
    | completeTask m =>
      obtain ⟨-, rfl⟩ := Prod.mk.inj (Option.some.inj hrun)
      exact h.erase (hl.2 trivial)
    | _ => cases hq
  keep_step _ _ _ _ _ _ _ _ _ := trivial
  settled _ _ h hs := h.settled (R := promptReplies S) trivial hs

end

/-! ## A task that is lost -/

/-- The message is delivered for the first time, and has not been bounced too often. -/
def Delivery.fresh : Delivery → Bool
  | .task m => m.deliveryCount == 1 && m.envelope.retryCount < notReadyMaxRequeues
  | .event _ => true

theorem Delivery.fresh.conclusive {m : TaskMessage} {s : State}
    (h : (Delivery.task m).fresh = true) : Conclusive m s := by
  simp only [Delivery.fresh, Bool.and_eq_true, beq_iff_eq, decide_eq_true_eq] at h
  exact ⟨fun hd => absurd h.1 (by omega), fun hn => absurd h.2 (by omega)⟩

/-- Fresh messages handled one after the other, each statement answered. -/
theorem weekly_attended {S : Settings} {world : World} {names : List String}
    (h : allMeet S world (fun _ d => d.fresh) (fun _ _ => true) 60
      (.event (.heartbeat 0) :: names.map (firstDelivery S 0)) 0
      ((worker S).exec (.idle .empty) (.env (.fire 0))) = true) :
    (worker S).Reach Attended (.idle .empty) (weekly S world names) :=
  (weekly_meets _ _ (fun _ _ => trivial)
    (fun _ _ d hq hd => by cases d with
      | task m => exact ⟨hq, Delivery.fresh.conclusive hd⟩
      | event msg => exact hq)
    (fun _ _ _ _ hf o _ _ => hf o) h).1

/-- The brief has just been set RUNNING. -/
def briefStarted : Snapshot :=
  handle thursday thursdayWorld 1 (firstDelivery thursday 0 "brief") 2
    (weekly thursday thursdayWorld [])

/-- The worker dies there, and the message is delivered again. -/
def afterRedelivery : Snapshot :=
  handle thursday thursdayWorld 2 (.task ⟨⟨⟨0, "brief"⟩, "draft-research-brief", 0⟩, 2⟩) 10
    ((worker thursday).exec briefStarted (.crash 1))

theorem afterRedelivery_reach :
    (worker thursday).Reach OneAtATime (.idle .empty) afterRedelivery ∧ Quiet afterRedelivery := by
  obtain ⟨hr, hq⟩ := weekly_reach thursday thursdayWorld [] (by decide +kernel)
  have hstarted : (worker thursday).Reach OneAtATime (.idle .empty) briefStarted :=
    reach_turns_of_free (fun _ _ => trivial) 2 (.act _ hr hq)
  have hquiet : Quiet ((worker thursday).exec briefStarted (.crash 1)) := quiet_crash hq
  exact ⟨reach_turns_of_free (fun _ _ => trivial) 10 (.act _ (.act _ hstarted trivial) hquiet),
    quiet_handle hquiet (by decide +kernel)⟩

end CanvasOS.Orchestrator
