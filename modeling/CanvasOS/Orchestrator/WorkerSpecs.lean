/-
  What the worker does with one message is lawful.

  1. **Failures** (`Upkeep.recordFailure_spec`, `Upkeep.cascadeDeadLetter_spec`) — a counted failure
     sends a task to another try or ends it.
  2. **Dispatch** (`Upkeep.dispatchTask_spec`) — the gate passes a task on to its handler, or says
     why it does not.
  3. **Messages** (`Upkeep.process_spec`) — the handling of one delivery, to its end.
  4. **Runs** (`Upkeep.sound`) — in every run that handles one message at a time, every statement
     is lawful and the invariant holds.
-/
import CanvasOS.Orchestrator.HandlerSpecs

namespace CanvasOS.Orchestrator

open Interleave Python

namespace Upkeep

variable {S : Settings} {R : Regime S} {U : Upkeep R} {i : Nat} {m : TaskMessage} {n : Nat}
  {F : Assertion Calm}

/-! ## Failures -/

/-- At least `n` failures of task `t` are counted. -/
def tally (t : TaskId) (n : Nat) : Assertion Calm :=
  rowAt t (fun r => n ≤ r.retryCount) fun _ _ hf h => Nat.le_trans h hf.retryCount

/-- So they are, and the task is not terminal. -/
def pendingTally (t : TaskId) (n : Nat) : Assertion Calm :=
  rowAt t (fun r => r.state.terminal = false ∧ n ≤ r.retryCount) fun _ _ hf h =>
    ⟨hf.state ▸ h.1, Nat.le_trans h.2 hf.retryCount⟩

/-- The next try of task `t` is due. -/
def due (t : TaskId) (n : Nat) : Assertion Calm :=
  rowAt t (fun r => r.state = .retryPending ∧ n ≤ r.retryCount) fun _ _ hf h =>
    ⟨hf.state.trans h.1, Nat.le_trans h.2 hf.retryCount⟩

/-- What the counting of a failure comes to: a next try below the limit, or the end. -/
def outcome (R : Regime S) (F : Assertion Calm) (t : TaskId) (n : Nat) (x : TaskState) :
    Assertion Calm :=
  .or (.and (.fact (x = .retryPending ∧ n < maxFailures ∧ ¬ R.eager)) (.and (due t n) F))
    (.and (.fact (x ≠ .retryPending)) (concluded R t))

/-- A statement of the state machine has raised: the task is over, or that is left open. -/
def lapsed (R : Regime S) (t : TaskId) (e : Exc) : Assertion Calm :=
  .and (.fact (e = .other)) (.or (concluded R t) (.fact (¬ R.prompt ∧ ¬ R.eager)))

theorem lapsed_of_raised {d : Delivery} {o : Stmt} {P : Assertion Calm} {t : TaskId} {e : Exc}
    {s : State} (hr : raised R d o P e s) (hsite : o.site = .stateMachine) : lapsed R t e s :=
  ⟨hr.1.1, .inr ⟨Regime.not_prompt_of_fails hr.1.2 (.inl hsite),
    Regime.not_eager_of_fails hr.1.2⟩⟩

/-- `F` survives the lawful moves of its own task. -/
def Kept (U : Upkeep R) (m : TaskMessage) (F : Assertion Calm) : Prop :=
  ∀ s s' dest, F s → U.inv (.task m) s →
    LawfulMove R U.keep m.envelope.taskId s m.envelope.taskId dest →
    Moved m.envelope.taskId dest s s' → F s'

theorem kept_keeping : Kept U m (U.keeping m.envelope.taskId) := fun s s' _ hk hI hl hm =>
  U.keep_step m _ _ s s' hI hk hl hm

theorem kept_true : Kept U m (.fact True) := fun _ _ _ _ _ _ _ => trivial

/-- `emit_alert`, once the task is over. -/
theorem emitAlert_spec :
    U.Spec i (.task m) (concluded R m.envelope.taskId) (emitAlert m.envelope.taskId)
      (fun _ => concluded R m.envelope.taskId) (lapsed R m.envelope.taskId) := by
  refine bind_calls rfl (by simp) (fun out => ?_) fun e s h => ⟨h.1.1, .inl h.2⟩
  cases out with
  | none => exact Triple.throw fun s h => ⟨rfl, .inl h⟩
  | some row =>
    exact Triple.post (calls rfl (by simp)) (fun _ _ h => h) fun e s h => ⟨h.1.1, .inl h.2⟩

theorem concluded_of_deadLettered {s : State} (hI : U.inv (.task m) s)
    (h : inState m.envelope.taskId .deadLettered s) : concluded R m.envelope.taskId s := by
  refine ⟨ended_of_inState rfl h, fun _ => ?_⟩
  obtain ⟨r, hr, hid, hst⟩ := h
  rw [← hid]
  exact advanced_of_not_completed (U.wellFormed _ s hI) hr (by rw [hst]; decide)

/-- `record_failure`, once the task is known not to be terminal. -/
theorem countFailure_spec (hF : Kept U m F) :
    U.Spec i (.task m) (.and (pendingTally m.envelope.taskId n) F)
      (countFailure m.envelope.taskId) (outcome R F m.envelope.taskId (n + 1))
      (lapsed R m.envelope.taskId) := by
  let M (b : Nat) : Assertion Calm :=
    .and (.fact (n + 1 ≤ b)) (pendingTally m.envelope.taskId (n + 1))
  refine bind_reads (M := M) rfl (by simp) (fun s a b s' hP hI hrun => ?_) (fun b => ?_)
    fun e s h => lapsed_of_raised h rfl
  · obtain ⟨row, hfind, heq⟩ := Option.map_eq_some_iff.1 hrun
    obtain ⟨rfl, hs'⟩ := Prod.mk.inj heq
    obtain ⟨r, hr, hid, hst, hn⟩ := hP.1
    obtain ⟨hrow, hrid⟩ := find_some hfind
    obtain rfl := (U.wellFormed _ s hI).unique hr hrow (hid.trans hrid.symm)
    have htasks : s'.tasks = (Table.update s.tasks (fun r => r.taskId == m.envelope.taskId)
        fun r => { r with retryCount := r.retryCount + 1 }).2 := by
      rw [← hs']
      rfl
    refine ⟨Nat.succ_le_succ hn, ?_⟩
    rcases Table.exists_mem_update htasks hr with ⟨-, hmem⟩ | ⟨hno, -⟩
    · exact ⟨_, hmem, hid, hst, Nat.succ_le_succ hn⟩
    · simp [hid] at hno
  · have hlaw : ∀ s dest, (dest = .retryPending ∨ dest = .deadLettered) →
        pendingTally m.envelope.taskId (n + 1) s →
        LawfulMove R U.keep m.envelope.taskId s m.envelope.taskId dest := by
      rintro s dest hdest ⟨r, hr, hid, hst, -⟩
      rcases hdest with rfl | rfl
      · exact .retry hr hid hst
      · exact .dead hr hid hst
    split
    · -- another try
      rename_i hb
      refine bind_moves (.and (.fact (n + 1 < maxFailures ∧ ¬ R.eager))
        (.and (due m.envelope.taskId (n + 1)) F)) (fun s h _ => hlaw s _ (.inl rfl) h.2.2)
        (fun s s' h hI _ hx hm => ?_) (Triple.pure fun s h => .inl ⟨⟨rfl, h.1⟩, h.2⟩)
        fun e s h => lapsed_of_raised h rfl
      refine ⟨⟨Nat.lt_of_le_of_lt h.2.1 hb, Regime.not_eager_of_executes hx rfl⟩, ?_,
        hF s s' _ h.1.2 hI (hlaw s _ (.inl rfl) h.2.2) hm⟩
      obtain ⟨r, hr, hid, -, hn⟩ := h.2.2
      exact ⟨_, hm.forth hr, TaskRow.moved_taskId.trans hid, TaskRow.moved_self hid,
        by rw [TaskRow.moved_retryCount]; exact hn⟩
    · -- the last one
      refine bind_moves (concluded R m.envelope.taskId) (fun s h _ => hlaw s _ (.inr rfl) h.2.2)
        (fun s s' _ _ hI' _ hm => concluded_of_deadLettered hI' (inState_moved hm))
        (Triple.bind emitAlert_spec fun _ => Triple.pure fun s h => .inr ⟨nofun, h⟩)
        fun e s h => lapsed_of_raised h rfl

/-- `record_failure`: of a task that is over it changes nothing. -/
theorem recordFailure_spec (hF : Kept U m F) :
    U.Spec i (.task m)
      (.or (.and (tally m.envelope.taskId n) F) (concluded R m.envelope.taskId))
      (recordFailure m.envelope.taskId) (outcome R F m.envelope.taskId (n + 1))
      (lapsed R m.envelope.taskId) := by
  let M (b : Option TaskRow) : Assertion Calm := .any fun r => .and (.fact (b = some r)) <|
    .or (.and (.fact (r.state.terminal = true)) (concluded R m.envelope.taskId))
      (.and (.fact (r.state.terminal = false)) (.and (pendingTally m.envelope.taskId n) F))
  refine Triple.bind (Triple.post (reads_lawful (M := M) rfl
    (fun s _ => lawful_of_calm rfl (by simp) s) fun s a b s' hP hI hx hrun => ?_) (fun _ _ h => h.2)
    fun e s h => lapsed_of_raised h rfl) fun out => ?_
  · obtain ⟨rfl, rfl⟩ := Prod.mk.inj (Option.some.inj hrun)
    have hpresent : ∃ r ∈ s.tasks, r.taskId = m.envelope.taskId := by
      rcases hP with ⟨⟨r, hr, hid, -⟩, -⟩ | ⟨⟨r, hr, hid, -⟩, -⟩ <;> exact ⟨r, hr, hid⟩
    obtain ⟨r, hr, hid⟩ := hpresent
    cases hfind : s.find m.envelope.taskId with
    | none => exact absurd hid (find_none hfind r hr)
    | some row =>
      obtain ⟨hrow, hrid⟩ := find_some hfind
      obtain rfl := (U.wellFormed _ s hI).unique hr hrow (hid.trans hrid.symm)
      refine ⟨r, rfl, ?_⟩
      cases hst : r.state.terminal with
      | true =>
        exact .inl ⟨rfl, ⟨r, hr, hid, hst⟩, fun he =>
          absurd he (Regime.not_eager_of_executes hx rfl)⟩
      | false =>
        refine .inr ⟨rfl, ?_⟩
        rcases hP with ⟨⟨r', hr', hid', hn⟩, hf⟩ | ⟨⟨r', hr', hid', hst'⟩, -⟩
        · obtain rfl := (U.wellFormed _ s hI).unique hr hr' (hid.trans hid'.symm)
          exact ⟨⟨r, hr, hid, hst, hn⟩, hf⟩
        · obtain rfl := (U.wellFormed _ s hI).unique hr hr' (hid.trans hid'.symm)
          rw [hst] at hst'
          cases hst'
  · refine Triple.exists_pre fun r => Triple.assume fun hout => ?_
    subst hout
    simp only
    split
    · rename_i hst
      refine Triple.pure fun s h => .inr ⟨fun heq => ?_, ?_⟩
      · rw [heq] at hst
        cases hst
      · rcases h with h | h
        · exact h.2
        · cases hst.symm.trans h.1
    · rename_i hst
      refine Triple.pre (countFailure_spec hF) fun s h => ?_
      rcases h with h | h
      · exact absurd h.1 hst
      · exact h.2

/-- `cascade_dead_letter`, of a task that is not terminal. -/
theorem cascadeDeadLetter_spec :
    U.Spec i (.task m) (pendingTally m.envelope.taskId n) (cascadeDeadLetter m.envelope.taskId)
      (fun _ => concluded R m.envelope.taskId) (lapsed R m.envelope.taskId) := by
  refine bind_reads (M := fun b => .fact (b.map (·.state) ≠ some .deadLettered)) rfl (by simp)
    (fun s a b s' hP hI hrun => ?_) (fun out => ?_) fun e s h => lapsed_of_raised h rfl
  · obtain ⟨rfl, rfl⟩ := Prod.mk.inj (Option.some.inj hrun)
    obtain ⟨r, hr, hid, hst, -⟩ := hP
    intro hdead
    obtain ⟨row, hfind, hrow⟩ := Option.map_eq_some_iff.1 hdead
    obtain ⟨hmem, hrid⟩ := find_some hfind
    obtain rfl := (U.wellFormed _ s hI).unique hr hmem (hid.trans hrid.symm)
    rw [hrow] at hst
    cases hst
  · split
    · rename_i hdead
      exact Triple.pure fun s h => absurd hdead h.2
    · refine bind_moves (concluded R m.envelope.taskId) (fun s h _ => ?_)
        (fun s s' _ _ hI' _ hm => concluded_of_deadLettered hI' (inState_moved hm))
        (Triple.bind emitAlert_spec fun _ => Triple.pure fun s h => h)
        fun e s h => lapsed_of_raised h rfl
      obtain ⟨r, hr, hid, hst, -⟩ := h.1
      exact .dead hr hid hst

/-! ## Dispatch -/

/-- Task `t` may start: the gate has let it pass, or it is tried again. -/
def startable (U : Upkeep R) (t : TaskId) (n : Nat) : Assertion Calm :=
  .and (rowAt t (fun r => (r.state = .dispatchable ∨ r.live) ∧ n ≤ r.retryCount) fun r r' hf h =>
    ⟨by rw [TaskRow.live, hf.state]; exact h.1, Nat.le_trans h.2 hf.retryCount⟩) (U.keeping t)

/-- What a task that raises leaves for the state machine. -/
def halted (U : Upkeep R) (t : TaskId) (n : Nat) (e : Exc) : Assertion Calm :=
  failing (.or (.and (tally t n) (U.keeping t)) (concluded R t)) e

theorem halted_of_left {t : TaskId} {e : Exc} {s : State} (h : U.left t n e s) :
    U.halted t n e s := by
  refine failing_mono h fun s h => h.imp_left fun ⟨⟨r, hr, hid, _, hn⟩, hk⟩ => ?_
  exact ⟨⟨r, hr, hid, hn⟩, hk⟩

theorem halted_of_startable {d : Delivery} {o : Stmt} {P : Assertion Calm} {t : TaskId} {e : Exc}
    {s : State} (hr : raised R d o P e s)
    (hP : ∀ s, P s → U.startable t n s ∨ U.working t n s) : U.halted t n e s := by
  refine ⟨hr.1.1, .inl ?_⟩
  rcases hP s hr.2 with ⟨⟨r, hr, hid, _, hn⟩, hk⟩ | ⟨⟨r, hr, hid, _, hn⟩, hk⟩ <;>
    exact ⟨⟨r, hr, hid, hn⟩, hk⟩

/-- The transition to RUNNING. -/
theorem bind_run {α : Type} {site : Site} {reason : TransitionReason} {f : Unit → Worker α}
    {Q : α → Assertion Calm}
    (hf : U.Spec i (.task m) (U.working m.envelope.taskId n) (f ()) Q
      (U.halted m.envelope.taskId n)) :
    U.Spec i (.task m) (U.startable m.envelope.taskId n)
      (call site (.transition m.envelope.taskId .running reason) >>= f) Q
      (U.halted m.envelope.taskId n) := by
  have hlaw : ∀ s, U.startable m.envelope.taskId n s →
      LawfulMove R U.keep m.envelope.taskId s m.envelope.taskId .running := by
    rintro s ⟨⟨r, hr, hid, hst, -⟩, hk⟩
    exact .run hr hid hst hk
  refine bind_moves _ (fun s h _ => hlaw s h) (fun s s' h hI _ _ hm => ?_) hf
    fun e s h => halted_of_startable h fun s h => h
  refine ⟨?_, U.keep_step m _ _ s s' hI h.2 (hlaw s h) hm⟩
  obtain ⟨r, hr, hid, -, hn⟩ := h.1
  exact ⟨_, hm.forth hr, TaskRow.moved_taskId.trans hid, .inl (TaskRow.moved_self hid),
    by rw [TaskRow.moved_retryCount]; exact hn⟩

/-- The call of the handler. -/
theorem bind_invoke {α : Type} {site : Site} {f : Unit → Worker α} {Q : α → Assertion Calm}
    {M : Assertion Calm}
    (hM : ∀ s, U.inv (.task m) s → U.working m.envelope.taskId n s → M s)
    (hf : U.Spec i (.task m) (.and (U.working m.envelope.taskId n) M) (f ()) Q
      (U.halted m.envelope.taskId n)) :
    U.Spec i (.task m) (U.working m.envelope.taskId n)
      (call site (.invoke m.envelope.taskId) >>= f) Q (U.halted m.envelope.taskId n) := by
  refine Triple.bind (Triple.post (reads_lawful (M := fun _ => M) rfl
    (fun s h => ⟨m, rfl, rfl, h.2⟩) fun s a b s' hP hI _ hrun => ?_) (fun _ _ h => h)
    fun e s h => halted_of_startable h fun s h => .inr h) fun _ => hf
  obtain ⟨-, rfl⟩ := Prod.mk.inj (Option.some.inj hrun)
  exact hM s hI hP

/-- `legacy_task_pass_through`. -/
theorem legacyTaskPassThrough_spec {site : Site} (htype : dispatchTable m.envelope.taskType = none)
    (henv : Envelops S m.envelope) :
    U.Spec i (.task m) (U.startable m.envelope.taskId n)
      (legacyTaskPassThrough site m.envelope.taskId) (fun _ => concluded R m.envelope.taskId)
      (U.halted m.envelope.taskId n) := by
  -- a task without a handler stores nothing
  have hstored : ∀ s, U.inv (.task m) s → (∃ r ∈ s.tasks, r.taskId = m.envelope.taskId) →
      storedIfHandled m.envelope.taskId s := by
    rintro s hI ⟨r, hr, hid⟩
    obtain ⟨k, hk, hmat⟩ := (U.wellFormed _ s hI).rows r hr
    obtain ⟨k', hk', hid', hty⟩ := henv
    obtain rfl := hk.eq hk' (hmat.taskId.symm.trans (hid.trans hid'.symm))
    refine ⟨r, hr, hid, fun hne => absurd ?_ hne⟩
    rw [hmat.taskType, hty]
    exact htype
  refine bind_run (bind_invoke (M := storedIfHandled m.envelope.taskId)
    (fun s hI h => hstored s hI ?_) (Triple.post (Triple.pre (complete_spec (n := n) persistent_true)
    fun s h => ⟨h, trivial⟩) (fun _ s h => concluded_of_done h.1) fun _ _ h => halted_of_left h))
  obtain ⟨r, hr, hid, -⟩ := present_of_working h
  exact ⟨r, hr, hid⟩

/-- `dispatch_task` with a dispatchable task. -/
theorem runTask_spec (henv : Envelops S m.envelope) :
    U.Spec i (.task m) (U.startable m.envelope.taskId n) (runTask m.envelope)
      (fun _ => concluded R m.envelope.taskId) (U.halted m.envelope.taskId n) := by
  unfold runTask
  cases htype : dispatchTable m.envelope.taskType with
  | none => exact legacyTaskPassThrough_spec htype henv
  | some handler =>
    refine bind_run (bind_invoke (M := .fact True) (fun _ _ _ => trivial) ?_)
    exact Triple.post (Triple.pre (handler_spec (n := n) htype henv) fun s h => h.1)
      (fun _ _ h => h) fun _ _ h => halted_of_left h

/-- The handler once more. -/
theorem runAgain_spec (henv : Envelops S m.envelope) :
    U.Spec i (.task m) (U.working m.envelope.taskId n) (runAgain m.envelope)
      (fun _ => concluded R m.envelope.taskId) (U.halted m.envelope.taskId n) := by
  unfold runAgain
  cases htype : dispatchTable m.envelope.taskType with
  | none =>
    refine Triple.pre (legacyTaskPassThrough_spec htype henv) fun s h => ⟨?_, h.2⟩
    obtain ⟨r, hr, hid, hlive, hn⟩ := h.1
    exact ⟨r, hr, hid, .inr hlive, hn⟩
  | some handler =>
    refine bind_invoke (M := .fact True) (fun _ _ _ => trivial) ?_
    exact Triple.post (Triple.pre (handler_spec (n := n) htype henv) fun s h => h.1)
      (fun _ _ h => h) fun _ _ h => halted_of_left h

/-- `while outcome == retry_pending`: the failures counted so far and the turns left add up. -/
theorem retryWhile_spec (henv : Envelops S m.envelope) (fuel : Nat) :
    ∀ (n : Nat) (x : TaskState), maxFailures ≤ fuel + n →
      U.Spec i (.task m) (outcome R (U.keeping m.envelope.taskId) m.envelope.taskId n x)
        (retryWhile m.envelope fuel x) (fun _ => concluded R m.envelope.taskId)
        (lapsed R m.envelope.taskId) := by
  induction fuel with
  | zero =>
    intro n x hle
    refine Triple.pure fun s h => ?_
    rcases h with ⟨⟨-, hlt, -⟩, -⟩ | ⟨-, h⟩
    · omega
    · exact h
  | succ fuel ih =>
    intro n x hle
    unfold retryWhile
    split
    · rename_i hx
      refine Triple.tryCatch (E := U.halted m.envelope.taskId n) (Triple.pre
        (runAgain_spec (n := n) henv) fun s h => ?_) fun e => ?_
      · rcases h with ⟨-, ⟨r, hr, hid, hst, hn⟩, hk⟩ | ⟨hne, -⟩
        · exact ⟨⟨r, hr, hid, .inr hst, hn⟩, hk⟩
        · exact absurd hx hne
      · refine Triple.bind (Triple.pre (recordFailure_spec (n := n) kept_keeping) fun s h => h.2)
          fun x => ih (n + 1) x (by omega)
    · rename_i hx
      refine Triple.pure fun s h => ?_
      rcases h with ⟨⟨heq, -⟩, -⟩ | ⟨-, h⟩
      · exact absurd heq hx
      · exact h

/-- `_retry_or_dead_letter`. -/
theorem retryOrDeadLetter_spec (henv : Envelops S m.envelope) :
    U.Spec i (.task m)
      (.or (.and (tally m.envelope.taskId 0) (U.keeping m.envelope.taskId)) (concluded R m.envelope.taskId))
      (retryOrDeadLetter m.envelope) (fun _ => concluded R m.envelope.taskId)
      (lapsed R m.envelope.taskId) :=
  Triple.bind (recordFailure_spec kept_keeping) fun x => retryWhile_spec henv _ _ x (by decide)

/-- What `dispatch_task` raises, and what holds then. -/
def refused (U : Upkeep R) (m : TaskMessage) (P : Assertion Calm) : Exc → Assertion Calm
  | .dependencyDeadLettered _ => pendingTally m.envelope.taskId 0
  | .taskAlreadyTerminal _ => concluded R m.envelope.taskId
  | .taskNotReady => .and P <|
    rowAt m.envelope.taskId (fun r => r.state.terminal = false ∧ r.state ≠ .dispatchable)
      fun _ _ hf h => hf.state.symm ▸ h
  | .other => .or (.and (tally m.envelope.taskId 0) (U.keeping m.envelope.taskId))
    (concluded R m.envelope.taskId)

/-- `dispatch_task`. -/
theorem dispatchTask_spec (henv : Envelops S m.envelope) {P : Assertion Calm}
    (hP : ∀ s, P s → present m.envelope.taskId s ∧ (R.eager → Advanced m.envelope.taskId s)) :
    U.Spec i (.task m) P (dispatchTask m.envelope) (fun _ => concluded R m.envelope.taskId)
      (U.refused m P) := by
  -- a read of the gate that fails leaves a task that may be tried at once
  have hraise : ∀ (P' : Assertion Calm) (q : Query), q.readsTasks = true → (∀ s, P' s → P s) →
      ∀ e s, raised R (.task m) ⟨.gate, q⟩ P' e s → U.refused m P e s := by
    rintro P' q hq hPP e s ⟨⟨rfl, hfails⟩, h⟩
    obtain ⟨r, hr, hid, -⟩ := (hP s (hPP s h)).1
    exact .inl ⟨⟨r, hr, hid, Nat.zero_le _⟩, U.unread m q s hfails hq⟩
  let blocked : Assertion Calm :=
    rowAt m.envelope.taskId (fun r => r.state.terminal = false ∧ r.state ≠ .dispatchable)
      fun _ _ hf h => hf.state.symm ▸ h
  let M (b : Option TaskRow) : Assertion Calm := .any fun r => .and (.fact (b = some r)) <|
    .and (.when (r.state = .dispatchable) (U.startable m.envelope.taskId 0)) <|
    .and (.when (r.state.terminal = true) (concluded R m.envelope.taskId)) <|
    .when (r.state.terminal = false ∧ r.state ≠ .dispatchable) blocked
  refine bind_reads (M := M) rfl (by simp) (fun s a b s' h hI hrun => ?_) (fun out => ?_)
    (hraise _ _ rfl fun _ h => h)
  · obtain ⟨rfl, rfl⟩ := Prod.mk.inj (Option.some.inj hrun)
    obtain ⟨r, hr, hid, -⟩ := (hP s h).1
    cases hfind : s.find m.envelope.taskId with
    | none => exact absurd hid (find_none hfind r hr)
    | some row =>
      obtain ⟨hrow, hrid⟩ := find_some hfind
      obtain rfl := (U.wellFormed _ s hI).unique hr hrow (hid.trans hrid.symm)
      refine ⟨r, rfl, fun hst => ?_, fun hst => ?_, fun hst => ⟨r, hr, hid, hst⟩⟩
      · exact ⟨⟨r, hr, hid, .inl hst, Nat.zero_le _⟩, hid ▸ U.gate _ s hI r hr hst⟩
      · exact ⟨⟨r, hr, hid, hst⟩, (hP s h).2⟩
  · refine Triple.pre (Triple.exists_pre (P := fun r => .and (.fact (out = some r)) (.and P (M out)))
      fun r => Triple.assume fun hout => ?_) fun s h => ?_
    rotate_left
    · obtain ⟨r, hr, -⟩ := h.2
      exact ⟨r, hr, h⟩
    subst hout
    have hM : ∀ s, M (some r) s → (r.state = .dispatchable → U.startable m.envelope.taskId 0 s) ∧
        (r.state.terminal = true → concluded R m.envelope.taskId s) ∧
        (r.state.terminal = false ∧ r.state ≠ .dispatchable → blocked s) := by
      rintro s ⟨r', heq, h⟩
      obtain rfl := Option.some.inj heq
      exact h
    simp only
    split
    · rename_i hst
      refine Triple.post (Triple.pre (runTask_spec (n := 0) henv) fun s h => (hM s h.2).1 hst)
        (fun _ _ h => h) fun e s h => ?_
      obtain ⟨rfl, h⟩ := h
      exact h
    · rename_i hnd
      split
      · rename_i hst
        exact Triple.throw fun s h => (hM s h.2).2.1 hst
      · rename_i hst
        have hblocked : ∀ s, (P s ∧ M (some r) s) → P s ∧ blocked s := fun s h =>
          ⟨h.1, (hM s h.2).2.2 ⟨by simpa using hst, hnd⟩⟩
        refine Triple.bind (Q := fun _ => .and P blocked) ?_ fun dep => ?_
        · unfold findDeadLetteredDependency
          split
          · exact Triple.pure hblocked
          · exact bind_calls rfl (by simp) (fun _ => Triple.pure hblocked)
              (hraise _ _ rfl fun _ h => h.1)
        · cases dep with
          | none => exact Triple.throw fun s h => h
          | some dep =>
            refine Triple.throw fun s h => ?_
            obtain ⟨r, hr, hid, hst, -⟩ := h.2
            exact ⟨r, hr, hid, hst, Nat.zero_le _⟩

/-! ## Messages -/

/-- What the handling of a task message comes to before the message is completed. -/
def settledTask (R : Regime S) (m : TaskMessage) : Assertion Calm :=
  .and (.when R.prompt ⟨Covered m, fun _ _ hc h => h.calm hc⟩)
    (.when R.eager (advanced m.envelope.taskId))

/-- `R.Received m`. -/
def received (R : Regime S) (m : TaskMessage) : Assertion Calm :=
  ⟨R.Received m, fun _ _ hc h => h.calm hc⟩

theorem settledTask_of_concluded {s : State} (h : concluded R m.envelope.taskId s) : settledTask R m s :=
  ⟨fun _ => .inl h.1, h.2⟩

theorem settledTask_of_lapsed {e : Exc} {s : State} (h : lapsed R m.envelope.taskId e s) :
    settledTask R m s := by
  rcases h.2 with h | ⟨hp, he⟩
  · exact settledTask_of_concluded h
  · exact ⟨fun h => absurd h hp, fun h => absurd h he⟩

/-- A failure that is counted outside a handler: the last one, if that is to be known. -/
theorem countOnce_spec {P : Assertion Calm}
    (hP : ∀ s, P s → U.inv (.task m) s →
      (tally m.envelope.taskId 0 s ∧ (R.prompt → tally m.envelope.taskId (maxFailures - 1) s)) ∨
        concluded R m.envelope.taskId s) :
    U.Spec i (.task m) P (recordFailure m.envelope.taskId >>= fun _ => pure ())
      (fun _ => settledTask R m) (fun _ => settledTask R m) := by
  by_cases hp : R.prompt
  · refine Triple.inv_pre (Triple.bind (Triple.post (recordFailure_spec (n := maxFailures - 1)
      (F := .fact True) kept_true) (fun _ _ h => h) fun e s h => settledTask_of_lapsed h) fun x =>
      Triple.pure fun s h => ?_) fun s h hI => (hP s h hI).imp_left fun h => ⟨h.2 hp, trivial⟩
    rcases h with ⟨⟨-, hlt, -⟩, -⟩ | ⟨-, h⟩
    · exact absurd hlt (by decide)
    · exact settledTask_of_concluded h
  · refine Triple.inv_pre (Triple.bind (Triple.post (recordFailure_spec (n := 0)
      (F := .fact True) kept_true) (fun _ _ h => h) fun e s h => settledTask_of_lapsed h) fun x =>
      Triple.pure fun s h => ?_) fun s h hI => (hP s h hI).imp_left fun h => ⟨h.1, trivial⟩
    rcases h with ⟨⟨-, -, he⟩, -⟩ | ⟨-, h⟩
    · exact ⟨fun h => absurd h hp, fun h => absurd h he⟩
    · exact settledTask_of_concluded h

/-- `reconcile_redelivered_task`. -/
theorem reconcileRedeliveredTask_spec (hd : 1 < m.deliveryCount) :
    U.Spec i (.task m) (received R m) (reconcileRedeliveredTask m.envelope)
      (fun _ => settledTask R m) (fun _ => settledTask R m) := by
  refine countOnce_spec fun s h hI => ?_
  obtain ⟨r, hr, hid, -⟩ := (U.wellFormed _ s hI).queued m h.queued
  cases hst : r.state.terminal with
  | true => exact .inr ⟨⟨r, hr, hid, hst⟩, h.advanced⟩
  | false =>
    refine .inl ⟨⟨r, hr, hid, Nat.zero_le _⟩, fun hp => ⟨r, hr, hid, ?_⟩⟩
    obtain ⟨r', hr', hid', hend⟩ := h.redelivered hp hd
    obtain rfl := (U.wellFormed _ s hI).unique hr hr' (hid.trans hid'.symm)
    rw [hst] at hend
    exact Nat.sub_le_of_le_add (hend.resolve_left nofun)

/-- What becomes of an envelope that was not ready. -/
theorem requeueOrGiveUp_spec :
    U.Spec i (.task m) (U.refused m (.and (received R m) (present m.envelope.taskId)) .taskNotReady)
      (requeueOrGiveUp m.envelope)
      (fun _ => settledTask R m) (fun _ => settledTask R m) := by
  unfold requeueOrGiveUp
  split
  · rename_i hle
    refine countOnce_spec fun s h hI => .inl ?_
    obtain ⟨⟨hrec, -⟩, r, hr, hid, hst, hnd⟩ := h
    refine ⟨⟨r, hr, hid, Nat.zero_le _⟩, fun hp => ⟨r, hr, hid, ?_⟩⟩
    obtain ⟨r', hr', hid', hend⟩ := hrec.givenUp hp hle
    obtain rfl := (U.wellFormed _ s hI).unique hr hr' (hid.trans hid'.symm)
    rw [hst] at hend
    exact Nat.sub_le_of_le_add ((hend.resolve_left nofun).resolve_right hnd)
  · refine Triple.post (acts (M := fun _ => settledTask R m) rfl (fun s h hI => ?_)
      fun s a b s' h hI hI' _ hrun => ?_) (fun _ _ h => h) fun e s h => ?_
    · obtain ⟨r, hr, hid, htype⟩ := (U.wellFormed _ s hI).queued m h.1.1.queued
      exact ⟨r, hr, hid, htype⟩
    · obtain ⟨-, rfl⟩ := Prod.mk.inj (Option.some.inj hrun)
      refine ⟨fun _ => .inr ⟨_, List.mem_cons_self, rfl, fun heq => ?_⟩, fun _ => ?_⟩
      · -- a fresh message has not been delivered yet
        have hdelivered := h.1.1.delivered
        rw [← heq] at hdelivered
        exact absurd hdelivered (Nat.lt_irrefl 0)
      · obtain ⟨-, r, hr, hid, hst, -⟩ := h
        rw [← hid]
        exact advanced_of_not_completed (U.wellFormed _ _ hI') hr (not_completed_of_not_terminal hst)
    · exact ⟨fun hp => absurd hp (Regime.not_prompt_of_fails h.1.2 (.inr rfl)),
        fun he => absurd he (Regime.not_eager_of_fails h.1.2)⟩

/-- `handle_task_message`. -/
theorem handleTaskMessage_spec (henv : Envelops S m.envelope) :
    U.Spec i (.task m) (.and (received R m) (present m.envelope.taskId))
      (handleTaskMessage m.envelope) (fun _ => settledTask R m) (fun _ => settledTask R m) := by
  refine Triple.tryCatch (Triple.post (dispatchTask_spec henv fun s h => ⟨h.2, h.1.advanced⟩)
    (fun _ s h => settledTask_of_concluded h) fun _ _ h => h) fun e => ?_
  cases e with
  | dependencyDeadLettered dep =>
    exact Triple.bind (Triple.post (cascadeDeadLetter_spec (n := 0)) (fun _ _ h => h)
      fun e s h => settledTask_of_lapsed h) fun _ => Triple.pure fun s h => settledTask_of_concluded h
  | taskAlreadyTerminal x => exact Triple.pure fun s h => settledTask_of_concluded h
  | taskNotReady => exact requeueOrGiveUp_spec
  | other =>
    exact Triple.post (retryOrDeadLetter_spec henv) (fun _ s h => settledTask_of_concluded h)
      fun e s h => settledTask_of_lapsed h

/-- `Settled R d`. -/
def settles (R : Regime S) (d : Delivery) : Assertion Calm where
  holds := Settled R d
  stable s s' hc h := by
    cases d with
    | task m => exact fun he => (h he).calm hc
    | event msg =>
      cases msg with
      | heartbeat event =>
        intro hp n hn
        obtain ⟨m, hm, hid⟩ := h hp n hn
        exact ⟨m, hc.queue.subset hm, hid⟩
      | deadLetterAlert alert => trivial

/-- One turn of the loop over `task_messages`. -/
theorem processTask_spec (henv : Envelops S m.envelope) :
    U.Spec i (.task m) (.and (received R m) (present m.envelope.taskId)) (processTask m)
      (fun _ => settles R (.task m)) (fun _ => settles R (.task m)) := by
  refine Triple.bind (Q := fun _ => settledTask R m)
    (Triple.tryCatch (E := fun _ => settledTask R m) ?_ fun _ => Triple.pure fun _ h => h) fun _ => ?_
  · split
    · exact Triple.pre (reconcileRedeliveredTask_spec ‹_›) fun _ h => h.1
    · exact handleTaskMessage_spec henv
  · refine Triple.tryCatch (E := fun _ => settles R (.task m)) (Triple.post
      (acts (M := fun _ => settles R (.task m)) rfl (fun s h _ => ⟨rfl, h.1⟩)
        fun s a b s' h _ _ _ hrun => ?_) (fun _ _ h => h) fun e s h => ?_) fun _ =>
      Triple.pure fun _ h => h
    · obtain ⟨-, rfl⟩ := Prod.mk.inj (Option.some.inj hrun)
      exact h.2
    · rcases h.2 with h | ⟨_, h⟩
      · exact h.2
      · exact h

/-- The rows of these tasks are there. -/
def inserted (ns : List NewTask) : Assertion Calm where
  holds s := ∀ n ∈ ns, ∃ r ∈ s.tasks, r.taskId = n.taskId ∧ r.taskType = n.taskType
  stable s s' hc h n hn := by
    obtain ⟨r, hr, hid, htype⟩ := h n hn
    obtain ⟨r', hr', hf⟩ := hc.forth r hr
    exact ⟨r', hr', hf.taskId.trans hid, hf.taskType.trans htype⟩

/-- Each of these tasks has an envelope on the queue. -/
def published (ns : List NewTask) : Assertion Calm where
  holds s := ∀ n ∈ ns, ∃ m ∈ s.taskQueue, m.envelope.taskId = n.taskId
  stable s s' hc h n hn := by
    obtain ⟨m, hm, hid⟩ := h n hn
    exact ⟨m, hc.queue.subset hm, hid⟩

theorem publishAll_spec {d : Delivery} (rest : List NewTask) :
    ∀ sent : List NewTask, U.Spec i d (.and (inserted rest) (published sent)) (publishAll rest)
      (fun _ => published (sent ++ rest)) (fun _ => .fact (¬ R.prompt)) := by
  induction rest with
  | nil =>
    exact fun sent => Triple.pure fun s h => by
      rw [List.append_nil]
      exact h.2
  | cons n rest ih =>
    intro sent
    unfold publishAll
    rw [List.append_cons]
    refine Triple.bind (Triple.post (acts (M := fun _ =>
      .and (inserted rest) (published (sent ++ [n]))) rfl (fun s h _ => ?_)
      fun s a b s' h _ _ _ hrun => ?_) (fun _ _ h => h) fun e s h => ?_) fun _ => ih (sent ++ [n])
    · exact h.1 n List.mem_cons_self
    · obtain ⟨-, rfl⟩ := Prod.mk.inj (Option.some.inj hrun)
      refine ⟨fun k hk => h.1 k (List.mem_cons_of_mem _ hk), fun k hk => ?_⟩
      rcases List.mem_append.1 hk with hk | hk
      · obtain ⟨m, hm, hid⟩ := h.2 k hk
        exact ⟨m, List.mem_cons_of_mem _ hm, hid⟩
      · rw [List.mem_singleton.1 hk]
        exact ⟨_, List.mem_cons_self, rfl⟩
    · exact Regime.not_prompt_of_fails h.1.2 (.inr rfl)

/-- `handle_heartbeat_message`. -/
theorem handleHeartbeatMessage_spec {event : Nat} :
    U.Spec i (.event (.heartbeat event)) (.fact True) (handleHeartbeatMessage S event)
      (fun _ => settles R (.event (.heartbeat event)))
      (fun _ => settles R (.event (.heartbeat event))) := by
  unfold handleHeartbeatMessage
  cases hL : S.loops (S.firedFor event) with
  | none =>
    refine Triple.pure fun s _ _ n hn => ?_
    rw [Settings.batch, hL] at hn
    exact absurd hn List.not_mem_nil
  | some L =>
    have hbatch : S.batch event = decompose L.loop event := by
      rw [Settings.batch, hL]
    refine Triple.bind (Triple.post (acts (M := fun _ => inserted (decompose L.loop event)) rfl
      (fun s _ _ => ⟨event, rfl, hbatch.symm⟩) fun s a b s' _ _ hI' _ hrun n hn => ?_)
      (fun _ _ h => h) fun e s h hp => ?_) fun _ => ?_
    · obtain ⟨r, hr, hid⟩ := (exec_insertTaskBatch hrun).inserted n hn
      obtain ⟨k, hk, hmat⟩ := (U.wellFormed _ _ hI').rows r hr
      rw [← hbatch] at hn
      obtain rfl := hk.eq (Settings.has_of_mem hn).1 (hmat.taskId.symm.trans hid)
      exact ⟨r, hr, hid, hmat.taskType⟩
    · exact absurd hp (Regime.not_prompt_of_fails h.1.2 (.inr rfl))
    · refine Triple.post (Triple.pre (publishAll_spec _ []) fun s h => ⟨h, ?_⟩)
        (fun _ s h _ => hbatch ▸ h) fun _ s h hp => absurd hp h
      exact fun n hn => absurd hn List.not_mem_nil

/-- One turn of the loop over `event_messages`. -/
theorem processEvent_spec {msg : EventMessage} :
    U.Spec i (.event msg) (.fact True) (processEvent S msg) (fun _ => settles R (.event msg))
      (fun _ => settles R (.event msg)) := by
  refine Triple.bind (Q := fun _ => settles R (.event msg))
    (Triple.tryCatch (E := fun _ => settles R (.event msg)) ?_ fun _ => Triple.pure fun _ h => h)
    fun _ => ?_
  · cases msg with
    | heartbeat event => exact handleHeartbeatMessage_spec
    | deadLetterAlert alert =>
      exact Triple.post (calls rfl (by simp)) (fun _ _ _ => trivial) fun _ _ _ => trivial
  · exact Triple.tryCatch (calls rfl (by simp)) fun _ => Triple.pure fun s h => h.2

/-! ## Runs -/

/-- A delivery as it is received. -/
def Arrives (R : Regime S) : Delivery → State → Prop
  | .task m, s => R.Received m s
  | .event _, _ => True

/-- The handling of one delivery, to its end. -/
theorem process_spec (U : Upkeep R) {d : Delivery} {s : State} (hI : U.inv d s)
    (hd : Arrives R d s) :
    (U.alone d).wp (fun (_ : Nat) (o : Stmt) => exec o.query) i (process S d) (fun _ => U.idle)
      (fun _ => U.idle) s := by
  have hstable : ∀ s s', Calm s s' → U.inv d s → U.inv d s' := fun s s' hc h =>
    U.inv_calm d s s' hc h
  cases d with
  | task m =>
    obtain ⟨r, hr, hid, htype⟩ := (U.wellFormed _ s hI).queued m hd.queued
    obtain ⟨k, hk, hmat⟩ := (U.wellFormed _ s hI).rows r hr
    have henv : Envelops S m.envelope :=
      ⟨k, hk, hmat.taskId.symm.trans hid, hmat.taskType.symm.trans htype⟩
    refine Triple.post (Triple.inv_post hstable (processTask_spec henv)) (fun _ s h => ?_)
      (fun _ s h => ?_) s ⟨⟨hd, r, hr, hid, trivial⟩, hI⟩
    · exact U.settled _ s h.2 h.1
    · exact U.settled _ s h.2 h.1
  | event msg =>
    refine Triple.post (Triple.inv_post hstable processEvent_spec) (fun _ s h => ?_)
      (fun _ s h => ?_) s ⟨trivial, hI⟩
    · exact U.settled _ s h.2 h.1
    · exact U.settled _ s h.2 h.1

/-- In every run that handles one message at a time, either nothing is being handled and the state
    is idle, or one message is, and the rest of its routine is lawful. -/
theorem sound (U : Upkeep R) {ok : Snapshot → Action → Prop} {c : Snapshot}
    (hone : ∀ c i d, ok c (.enter i d) → Quiet c)
    (hadm : ∀ c i f d o k, ok c (.step i f) → c.thread i = some (d, some (.op o k)) →
      R.adm d o (f o))
    (h₀ : U.idle .empty)
    (henter : ∀ c i d s, ok c (.enter i d) → U.idle c.shared → c.shared.receive d = some s →
      U.inv d s ∧ Arrives R d s)
    (hcrash : ∀ c i d o k, ok c (.crash i) → c.thread i = some (d, some (.op o k)) →
      U.inv d c.shared → U.idle c.shared)
    (hr : (worker S).Reach ok (.idle .empty) c) :
    (Quiet c ∧ U.idle c.shared) ∨
      ∃ i d o k, Sys.Serves (worker S) (fun _ d => U.alone d) U.idle c i d o k := by
  refine Sys.Reach.sound_sequential (M := worker S) (A := fun _ d => U.alone d) hone h₀ ?_ hadm
    hcrash ?_ hr
  · intro c i d s hok hidle hs
    obtain ⟨hI, hd⟩ := henter c i d s hok hidle hs
    exact ⟨hI, U.process_spec hI hd⟩
  · intro c e s _ hs
    have hc := move_calm hs
    exact ⟨hc, fun _ d hI => U.inv_calm d _ _ hc hI⟩

/-- What one act of such a run does to the tables: nothing but calm changes, a message is received,
    or a lawful statement is executed. -/
theorem act_cases (U : Upkeep R) {c : Snapshot} {a : Action} {P : State → Prop}
    (hc : (Quiet c ∧ U.idle c.shared) ∨
      ∃ i d o k, Sys.Serves (worker S) (fun _ d => U.alone d) U.idle c i d o k)
    (hadm : ∀ i f d o k, a = .step i f → c.thread i = some (d, some (.op o k)) → R.adm d o (f o))
    (hcalm : ∀ s, Calm c.shared s → P s)
    (hreceive : ∀ i d s, a = .enter i d → c.shared.receive d = some s → P s)
    (hlawful : ∀ i d p o x b s, c.thread i = some (d, p) → (∃ f, a = .step i f) →
      U.inv d c.shared → Lawful R U.keep d o c.shared → R.Executes d o →
      exec o.query x c.shared = some (b, s) → P s) :
    P ((worker S).exec c a).shared := by
  refine Sys.exec_cases (P := fun c => P c.shared) a (hcalm _ (.refl _)) ?_ ?_ ?_ ?_
  · rintro i d s rfl - hs
    exact hreceive i d s rfl hs
  · rintro i f d o k out s rfl hi hs
    have hR := hadm i f d o k rfl hi
    rcases hc with ⟨hquiet, -⟩ | ⟨j, d', o', k', hj⟩
    · exact absurd ⟨d, o, k, hi⟩ (hquiet i)
    · obtain rfl := hj.only i ⟨d, o, k, hi⟩
      have heq := hj.thread
      rw [hi] at heq
      cases heq
      obtain ⟨-, hlaw, -⟩ := hj.wp c.shared (.refl _) hj.inv (f o) hR out s hs
      cases hfo : f o with
      | failed e =>
        rw [hfo] at hs
        obtain ⟨-, rfl⟩ := Prod.mk.inj (Option.some.inj hs)
        exact hcalm _ (.refl _)
      | ok x | lost x e =>
        rw [hfo] at hs
        obtain ⟨⟨b, t⟩, hrun, heq⟩ := Option.map_eq_some_iff.1 hs
        obtain ⟨-, rfl⟩ := Prod.mk.inj heq
        exact hlawful i d _ o x b t hi ⟨f, rfl⟩ hj.inv hlaw ⟨f o, hR, by rw [hfo]; rfl⟩ hrun
  · rintro i d p - -
    exact hcalm _ (.refl _)
  · rintro e s rfl hs
    exact hcalm _ (move_calm hs)

end Upkeep

end CanvasOS.Orchestrator
