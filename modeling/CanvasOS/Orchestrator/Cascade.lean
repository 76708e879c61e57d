/-
  Premature cascades.

  `dispatch_task` refuses a task with a FAILED or DEAD_LETTERED dependency, and `cascade_dead_letter`
  then ends the task for good, because such a dependency "provably cannot ever complete".  A review
  can: the retry loop of its sibling completes it.

  1. `DepBlocked`, `Grounded` — the tasks that were ended without their handler have a blocked
     dependency.
  2. `Condemned` — a task that has been ended so, or whose message is being handled by a thread that
     is about to.
  3. `Unpremature` — the runs in which the blocked dependencies of a condemned task stay blocked, and
     a third failure is counted only of a task whose handler was called or whose dependency is
     blocked.
  4. `cascade_grounded` — in these runs no cascade is premature.
  5. `cascade_premature` — and in others it is.
-/
import CanvasOS.Orchestrator.Replicas

namespace CanvasOS.Orchestrator

open Interleave Python

/-! ## Blocked dependencies -/

/-- A task with this id is FAILED or DEAD_LETTERED. -/
def BlockedTask (d : TaskId) (s : State) : Prop :=
  ∃ r ∈ s.tasks, r.taskId = d ∧ r.state.blocked = true

/-- Task `t` has a dependency that is FAILED or DEAD_LETTERED. -/
def DepBlocked (t : TaskId) (s : State) : Prop :=
  ∃ r ∈ s.tasks, r.taskId = t ∧ ∃ d ∈ r.dependsOn, BlockedTask d s

/-- The rows of `s` are in `s'`, with their dependencies. -/
def Lasting (s s' : State) : Prop :=
  ∀ r ∈ s.tasks, ∃ r' ∈ s'.tasks, r'.taskId = r.taskId ∧ r'.dependsOn = r.dependsOn

theorem Lasting.refl (s : State) : Lasting s s := fun r hr => ⟨r, hr, rfl, rfl⟩

theorem Lasting.trans {s s' s'' : State} (h₁ : Lasting s s') (h₂ : Lasting s' s'') :
    Lasting s s'' := by
  intro r hr
  obtain ⟨r₁, hr₁, hid₁, hdeps₁⟩ := h₁ r hr
  obtain ⟨r₂, hr₂, hid₂, hdeps₂⟩ := h₂ r₁ hr₁
  exact ⟨r₂, hr₂, hid₂.trans hid₁, hdeps₂.trans hdeps₁⟩

/-- Every statement leaves the rows there. -/
theorem lasting_exec {q : Query} {a b : q.Res} {s s' : State} (h : exec q a s = some (b, s')) :
    Lasting s s' := by
  by_cases hq : q.calm = true
  · intro r hr
    obtain ⟨r', hr', hf⟩ := (exec_calm hq h).forth r hr
    exact ⟨r', hr', hf.taskId, hf.dependsOn⟩
  cases q with
  | insertTaskBatch tasks => exact fun r hr => ⟨r, (exec_insertTaskBatch h).old r hr, rfl, rfl⟩
  | transition u dest reason =>
    exact fun r hr => ⟨_, (exec_transition h).forth hr, TaskRow.moved_taskId,
      TaskRow.moved_dependsOn⟩
  | publishTask | completeTask =>
    obtain ⟨-, rfl⟩ := Prod.mk.inj (Option.some.inj h)
    exact .refl s
  | _ => exact absurd rfl hq

/-- A blocked task stays blocked, unless it is taken to another state. -/
theorem BlockedTask.exec {d : TaskId} {q : Query} {a b : q.Res} {s s' : State}
    (hd : BlockedTask d s) (h : exec q a s = some (b, s'))
    (hq : ∀ dest reason, q = .transition d dest reason → dest.blocked = true) :
    BlockedTask d s' := by
  obtain ⟨r, hr, hid, hst⟩ := hd
  by_cases hcalm : q.calm = true
  · obtain ⟨r', hr', hf⟩ := (exec_calm hcalm h).forth r hr
    exact ⟨r', hr', hf.taskId.trans hid, by rw [hf.state, hst]⟩
  cases q with
  | insertTaskBatch tasks => exact ⟨r, (exec_insertTaskBatch h).old r hr, hid, hst⟩
  | transition u dest reason =>
    refine ⟨_, (exec_transition h).forth hr, TaskRow.moved_taskId.trans hid, ?_⟩
    by_cases hru : r.taskId = u
    · rw [TaskRow.moved_self hru]
      exact hq dest reason (by rw [← hid, hru])
    · rw [TaskRow.moved_of_ne hru]
      exact hst
  | publishTask | completeTask =>
    obtain ⟨-, rfl⟩ := Prod.mk.inj (Option.some.inj h)
    exact ⟨r, hr, hid, hst⟩
  | _ => exact absurd rfl hcalm

/-! ## Condemned tasks -/

/-- A statement after which its thread ends the task it was called for: the gate has read a blocked
    dependency, or a third failure has been counted. -/
def Condemning (e : Event Stmt Stmt.Res State Nat) : Prop :=
  (∃ deps, e.op = ⟨.gate, .getTasks deps⟩ ∧ ∃ d ∈ deps, BlockedTask d e.pre) ∨
    ∃ r ∈ e.pre.tasks, e.op.query = .incrementRetry r.taskId ∧ maxFailures ≤ r.retryCount + 1

/-- Thread `i` has executed such a statement. -/
def Resolved (i : Nat) (h : Record) : Prop := ∃ e ∈ h.log, e.who = i ∧ Condemning e

/-- Task `t` has been ended by a cascade, or without its handler. -/
def Ended (t : TaskId) (h : Record) : Prop :=
  (∃ x, h.cur.last t = some x ∧ x.reason = .dependencyDeadLettered) ∨
    ((∃ r ∈ h.cur.tasks, r.taskId = t ∧ r.state = .deadLettered) ∧ ¬ Invoked t h)

/-- Task `t` has been ended so, or a thread is about to end it. -/
def Condemned (t : TaskId) (c : Recorded) : Prop :=
  Ended t c.shared ∨ ∃ i m, Sys.Handles c i (.task m) ∧ m.envelope.taskId = t ∧
    Resolved i c.shared

/-- Taking `u` to the state `dest` leaves task `t` a blocked dependency, if it has one. -/
def Spares (u : TaskId) (dest : TaskState) (t : TaskId) (s : State) : Prop :=
  dest.blocked = true ∨ (DepBlocked t s →
    ∃ r ∈ s.tasks, r.taskId = t ∧ ∃ d ∈ r.dependsOn, d ≠ u ∧ BlockedTask d s)

/-- The runs in which no condemned task loses its last blocked dependency, and in which a third
    failure is counted only of a task whose handler was called or whose dependency is blocked. -/
def Unpremature (c : Recorded) (a : Act Stmt Stmt.Res Exc Nat Delivery Move) : Prop :=
  ∀ i f o, a = .step i f → c.next i = some o → (f o).executes = true →
    (∀ u dest reason, o.query = .transition u dest reason →
      ∀ t, Condemned t c → Spares u dest t c.shared.cur) ∧
    ∀ r ∈ c.shared.cur.tasks, o.query = .incrementRetry r.taskId →
      maxFailures ≤ r.retryCount + 1 → Invoked r.taskId c.shared ∨ DepBlocked r.taskId c.shared.cur

theorem DepBlocked.exec {t : TaskId} {q : Query} {a b : q.Res} {s s' : State}
    (ht : DepBlocked t s) (h : Orchestrator.exec q a s = some (b, s'))
    (hq : ∀ u dest reason, q = .transition u dest reason → Spares u dest t s) :
    DepBlocked t s' := by
  have hkeep : ∀ r ∈ s.tasks, r.taskId = t → ∀ d ∈ r.dependsOn, BlockedTask d s' →
      DepBlocked t s' := by
    intro r hr hid d hd hblocked
    obtain ⟨r', hr', hid', hdeps'⟩ := lasting_exec h r hr
    exact ⟨r', hr', hid'.trans hid, d, hdeps' ▸ hd, hblocked⟩
  by_cases hmove : ∃ u dest reason, q = .transition u dest reason ∧ dest.blocked = false
  · obtain ⟨u, dest, reason, rfl, hdest⟩ := hmove
    rcases hq u dest reason rfl with hb | hother
    · rw [hdest] at hb
      cases hb
    · obtain ⟨r, hr, hid, d, hd, hdu, hblocked⟩ := hother ht
      refine hkeep r hr hid d hd (hblocked.exec h fun _ _ heq => ?_)
      exact absurd (Query.transition.inj heq).1.symm hdu
  · obtain ⟨r, hr, hid, d, hd, hblocked⟩ := ht
    refine hkeep r hr hid d hd (hblocked.exec h fun dest reason heq => ?_)
    by_contra hdest
    exact hmove ⟨d, dest, reason, heq, by simpa using hdest⟩

/-! ## Grounded cascades -/

/-- A task that was ended by a cascade, or without its handler, has a blocked dependency. -/
def Grounded (h : Record) : Prop := ∀ t, Ended t h → DepBlocked t h.cur

/-- What the thread that handles `d` relies on: its own statements stay its own, the rows stay, and
    the task it is about to end keeps a blocked dependency. -/
structure Follow (d : Delivery) (i : Nat) (h h' : Record) : Prop where
  log : ∀ e ∈ h.log, e ∈ h'.log
  rows : Lasting h.cur h'.cur
  blocked : ∀ m, d = .task m → Resolved i h → DepBlocked m.envelope.taskId h.cur →
    DepBlocked m.envelope.taskId h'.cur

theorem Resolved.mono {i : Nat} {h h' : Record} (hr : Resolved i h) (hlog : ∀ e ∈ h.log, e ∈ h'.log) :
    Resolved i h' := by
  obtain ⟨e, he, hwho, hcon⟩ := hr
  exact ⟨e, hlog e he, hwho, hcon⟩

theorem Invoked.mono {t : TaskId} {h h' : Record} (hi : Invoked t h)
    (hlog : ∀ e ∈ h.log, e ∈ h'.log) : Invoked t h' := by
  obtain ⟨e, he, hq⟩ := hi
  exact ⟨e, hlog e he, hq⟩

theorem DepBlocked.of_tasks {t : TaskId} {s s' : State} (h : DepBlocked t s)
    (htasks : s'.tasks = s.tasks) : DepBlocked t s' := by
  obtain ⟨r, hr, hid, d, hd, r', hr', hid', hst'⟩ := h
  exact ⟨r, htasks ▸ hr, hid, d, hd, r', htasks ▸ hr', hid', hst'⟩

theorem Ended.of_idles {t : TaskId} {h h' : Record} (hi : Idles h h') (he : Ended t h') :
    Ended t h := by
  rcases he with ⟨x, hx, hreason⟩ | ⟨⟨r, hr, hid, hst⟩, hnot⟩
  · refine .inl ⟨x, ?_, hreason⟩
    rw [← hx, State.last, State.last, hi.transitions]
  · exact .inr ⟨⟨r, hi.tasks ▸ hr, hid, hst⟩, fun h => hnot (h.mono fun e he => hi.log ▸ he)⟩

/-- A task is dead-lettered by a transition only. -/
theorem deadLettered_exec {q : Query} {a b : q.Res} {s s' : State} (h : exec q a s = some (b, s'))
    {r : TaskRow} (hr : r ∈ s'.tasks) (hst : r.state = .deadLettered) :
    (∃ r₀ ∈ s.tasks, r₀.taskId = r.taskId ∧ r₀.state = .deadLettered) ∨
      ∃ reason, q = .transition r.taskId .deadLettered reason := by
  by_cases hcalm : q.calm = true
  · obtain ⟨r₀, hr₀, hf⟩ := (exec_calm hcalm h).back r hr
    exact .inl ⟨r₀, hr₀, hf.taskId.symm, hf.state ▸ hst⟩
  cases q with
  | insertTaskBatch tasks =>
    rcases (exec_insertTaskBatch h).new r hr with hr | ⟨⟨n, -, rfl⟩, -⟩
    · exact .inl ⟨r, hr, rfl, hst⟩
    · simp only [NewTask.toRow] at hst
      split at hst <;> cases hst
  | transition u dest reason =>
    obtain ⟨r₀, hr₀, rfl⟩ := (exec_transition h).back hr
    by_cases hru : r₀.taskId = u
    · rw [TaskRow.moved_self hru] at hst
      exact .inr ⟨reason, by rw [TaskRow.moved_taskId, hru, hst]⟩
    · rw [TaskRow.moved_of_ne hru] at hst ⊢
      exact .inl ⟨r₀, hr₀, rfl, hst⟩
  | publishTask | completeTask =>
    obtain ⟨-, rfl⟩ := Prod.mk.inj (Option.some.inj h)
    exact .inl ⟨r, hr, rfl, hst⟩
  | _ => exact absurd rfl hcalm

/-- A statement that ends a task ends one with a blocked dependency, or one whose handler was
    called. -/
def EndsGrounded (h : Record) (q : Query) : Prop :=
  ∀ u dest reason, q = .transition u dest reason →
    (reason = .dependencyDeadLettered → dest = .deadLettered ∧ DepBlocked u h.cur) ∧
      (dest = .deadLettered → DepBlocked u h.cur ∨ Invoked u h)

/-- Such a statement keeps cascades grounded, if it spares the tasks that were ended before. -/
theorem Grounded.after {h : Record} {i : Nat} {o : Stmt} {a b : o.Res} {s : State}
    (hg : Grounded h) (hrun : exec o.query a h.cur = some (b, s))
    (hspares : ∀ u dest reason, o.query = .transition u dest reason →
      ∀ t, Ended t h → Spares u dest t h.cur)
    (hends : EndsGrounded h o.query) : Grounded (h.after i o b s) := by
  intro t hended
  by_cases hold : Ended t h
  · exact (hg t hold).exec hrun fun u dest reason hq => hspares u dest reason hq t hold
  -- the statement has just ended `t`: it takes it to DEAD_LETTERED
  have hnow : ∀ reason, o.query = .transition t .deadLettered reason → DepBlocked t h.cur →
      DepBlocked t s := by
    intro reason hq ht
    refine ht.exec hrun fun u dest reason' hq' => .inl ?_
    obtain ⟨-, rfl, -⟩ := Query.transition.inj (hq.symm.trans hq')
    rfl
  have hinvoked : ¬ Invoked t (h.after i o b s) → ¬ Invoked t h := fun hnot hi =>
    hnot (hi.mono fun e he => List.mem_cons_of_mem _ he)
  rcases hended with ⟨x, hx, hreason⟩ | ⟨⟨r, hr, hid, hst⟩, hnot⟩
  · rcases last_exec hrun t with hsame | ⟨y, hy, hcreated⟩ | ⟨dest, reason, source, hq, hlast⟩
    · exact absurd (.inl ⟨x, hsame.symm.trans hx, hreason⟩) hold
    · obtain rfl := Option.some.inj (hy.symm.trans hx)
      rw [hcreated] at hreason
      cases hreason
    · obtain rfl := Option.some.inj (hlast.symm.trans hx)
      obtain ⟨rfl, ht⟩ := (hends t dest reason hq).1 hreason
      exact hnow reason hq ht
  · rcases deadLettered_exec hrun hr hst with ⟨r₀, hr₀, hid₀, hst₀⟩ | ⟨reason, hq⟩
    · exact absurd (.inr ⟨⟨r₀, hr₀, hid₀.trans hid, hst₀⟩, hinvoked hnot⟩) hold
    · rw [hid] at hq
      exact hnow reason hq
        (((hends t .deadLettered reason hq).2 rfl).resolve_right (hinvoked hnot))

/-! ## The routines of the worker -/

/-- Cascades stay grounded. -/
def groundedWatch : Watch where
  inv := Grounded
  rely := Follow
  permits h o := (∀ u dest reason, o.query = .transition u dest reason →
      ∀ t, Ended t h → Spares u dest t h.cur) ∧
    ∀ r ∈ h.cur.tasks, o.query = .incrementRetry r.taskId → maxFailures ≤ r.retryCount + 1 →
      Invoked r.taskId h ∨ DepBlocked r.taskId h.cur
  rely_refl _ _ _ := ⟨fun _ he => he, .refl _, fun _ _ _ ht => ht⟩
  rely_trans _ _ _ _ _ h₁ h₂ := ⟨fun e he => h₂.log e (h₁.log e he), h₁.rows.trans h₂.rows,
    fun m hm hr ht => h₂.blocked m hm (hr.mono h₁.log) (h₁.blocked m hm hr ht)⟩
  inv_idles _ _ hi hg t ht := (hg t (ht.of_idles hi)).of_tasks hi.tasks
  rely_idles _ _ _ _ hi := ⟨fun _ he => hi.log ▸ he, fun r hr => ⟨r, hi.tasks ▸ hr, rfl, rfl⟩,
    fun _ _ _ ht => ht.of_tasks hi.tasks⟩

/-- A statement that ends no task. -/
def Tame (o : Stmt) : Prop := ∀ u dest reason, o.query = .transition u dest reason →
  dest ≠ .deadLettered ∧ reason ≠ .dependencyDeadLettered

theorem Tame.endsGrounded {o : Stmt} (ho : Tame o) (h : Record) : EndsGrounded h o.query :=
  fun u dest reason hq => ⟨fun h => absurd h (ho u dest reason hq).2,
    fun h => absurd h (ho u dest reason hq).1⟩

theorem Inert.tame {o : Stmt} (ho : Inert o) : Tame o :=
  fun u dest reason hq => absurd hq (ho.1 u dest reason)

theorem HandlerStmt.tame {o : Stmt} (ho : HandlerStmt o) : Tame o := by
  rintro u dest reason hq
  obtain ⟨-, hstmt⟩ := ho
  rw [hq] at hstmt
  rcases hstmt with ⟨rfl, rfl⟩ | ⟨rfl, rfl⟩ | ⟨rfl, rfl⟩ <;> exact ⟨nofun, nofun⟩

section Routines

variable {S : Settings} {m : TaskMessage} {d : Delivery} {i : Nat} {h : Record}

theorem tame_keeps {α : Type} {F : Exc → Prop} {p : Worker α} (hp : p.Within Tame F) :
    groundedWatch.Keeps S d i p (fun out _ => ∀ e, out = .error e → F e) h :=
  Watch.within hp fun h _ _ _ _ ho hI hpermits hrun => hI.after hrun hpermits.1 (ho.endsGrounded h)

/-- Whatever it ends with. -/
theorem tame_done {α : Type} {F : Exc → Prop} {p : Worker α} (hp : p.Within Tame F) :
    groundedWatch.Keeps S d i p (fun _ _ => True) h :=
  (tame_keeps hp).mono fun _ _ _ => trivial

theorem emitAlert_then_tame {α : Type} (t : TaskId) (a : α) :
    (emitAlert t >>= fun _ => pure a : Worker α).Within Tame (· = .other) :=
  ((emitAlert_inert t).mono (fun _ ho => ho.tame) fun _ he => he).bind fun _ => True.intro

theorem legacyTaskPassThrough_tame (site : Site) (t : TaskId) :
    (legacyTaskPassThrough site t).Within Tame (· = .other) := by
  refine (call_within fun u dest reason hq => ?_).bind fun _ => (call_within nofun).bind fun _ =>
    (completeTask_modest t).mono (fun _ ho => ho.tame) fun _ he => he
  obtain ⟨-, rfl, rfl⟩ := Query.transition.inj hq
  exact ⟨nofun, nofun⟩

theorem runTask_tame (e : TaskEnvelope) : (runTask e).Within Tame (· = .other) := by
  unfold runTask
  split
  · exact legacyTaskPassThrough_tame _ _
  · refine (call_within fun u dest reason hq => ?_).bind fun _ => (call_within nofun).bind fun _ =>
      (handler_modest _ e).mono (fun _ ho => ho.tame) fun _ he => he
    obtain ⟨-, rfl, rfl⟩ := Query.transition.inj hq
    exact ⟨nofun, nofun⟩

theorem runAgain_tame (e : TaskEnvelope) : (runAgain e).Within Tame (· = .other) := by
  unfold runAgain
  split
  · exact legacyTaskPassThrough_tame _ _
  · exact (call_within nofun).bind fun _ =>
      (handler_modest _ e).mono (fun _ ho => ho.tame) fun _ he => he

/-- The task of the message is ended: its thread has found a blocked dependency, or has counted a
    third failure of a task whose handler was called. -/
theorem deadLetter_keeps {α : Type} {F : Exc → Prop} {reason : TransitionReason} {p : Worker α}
    (hp : p.Within Tame F) (hresolved : Resolved i h)
    (hgrounds : DepBlocked m.envelope.taskId h.cur ∨
      Invoked m.envelope.taskId h ∧ reason ≠ .dependencyDeadLettered) :
    groundedWatch.Keeps S (.task m) i
      (call .stateMachine (.transition m.envelope.taskId .deadLettered reason) >>= fun _ => p)
      (fun _ _ => True) h := by
  refine Watch.bind_call (fun _ _ _ _ _ => trivial) (fun h₁ a b s hrely hI hpermits hrun => ?_)
    fun _ _ => trivial
  refine ⟨hI.after hrun hpermits.1 fun u dest reason' hq => ?_, tame_done hp, trivial⟩
  obtain ⟨rfl, rfl, rfl⟩ := Query.transition.inj hq
  rcases hgrounds with hdep | ⟨hinvoked, hreason⟩
  · have hnow := hrely.blocked m rfl hresolved hdep
    exact ⟨fun _ => ⟨rfl, hnow⟩, fun _ => .inl hnow⟩
  · exact ⟨fun h => absurd h hreason, fun _ => .inr (hinvoked.mono hrely.log)⟩

theorem cascadeDeadLetter_keeps (hresolved : Resolved i h)
    (hdep : DepBlocked m.envelope.taskId h.cur) :
    groundedWatch.Keeps S (.task m) i (cascadeDeadLetter m.envelope.taskId) (fun _ _ => True) h := by
  refine Watch.bind_call (fun _ _ _ _ _ => trivial) (fun h₁ a b s hrely hI hpermits hrun => ?_)
    fun _ _ => trivial
  refine ⟨hI.after hrun hpermits.1 nofun, ?_, trivial⟩
  have hresolved' : Resolved i (h₁.after i ⟨.stateMachine, .getTask m.envelope.taskId⟩ b s) :=
    hresolved.mono fun e he => List.mem_cons_of_mem _ (hrely.log e he)
  have hdep' := (hrely.blocked m rfl hresolved hdep).exec hrun nofun
  split
  · exact fun _ _ => trivial
  · exact deadLetter_keeps (emitAlert_then_tame _ _)
      hresolved' (.inl hdep')

theorem countFailure_keeps :
    groundedWatch.Keeps S (.task m) i (countFailure m.envelope.taskId) (fun _ _ => True) h := by
  refine Watch.bind_call (fun _ _ _ _ _ => trivial) (fun h₁ a b s hrely hI hpermits hrun => ?_)
    fun _ _ => trivial
  refine ⟨hI.after hrun hpermits.1 nofun, ?_, trivial⟩
  split
  · refine tame_done (F := (· = .other)) ((call_within fun u dest reason hq => ?_).bind fun _ =>
      True.intro)
    obtain ⟨-, rfl, rfl⟩ := Query.transition.inj hq
    refine ⟨nofun, ?_⟩
    split <;> exact nofun
  · -- the third failure
    rename_i hthird
    obtain ⟨row, hfind, heq⟩ := Option.map_eq_some_iff.1 hrun
    obtain ⟨hrow, hid⟩ := find_some hfind
    have hcount : maxFailures ≤ row.retryCount + 1 := by
      rw [(Prod.mk.inj heq).1]
      exact Nat.le_of_not_lt hthird
    have hgrounds := hpermits.2 row hrow (by rw [hid]) hcount
    rw [hid] at hgrounds
    refine deadLetter_keeps (emitAlert_then_tame _ _)
      ⟨_, List.mem_cons_self, rfl, .inr ⟨row, hrow, by rw [hid], hcount⟩⟩ ?_
    rcases hgrounds with hinvoked | hdep
    · exact .inr ⟨hinvoked.mono fun e he => List.mem_cons_of_mem _ he, nofun⟩
    · exact .inl (hdep.exec hrun nofun)

theorem recordFailure_keeps :
    groundedWatch.Keeps S (.task m) i (recordFailure m.envelope.taskId) (fun _ _ => True) h := by
  refine Watch.bind_call (fun _ _ _ _ _ => trivial) (fun h₁ a b s hrely hI hpermits hrun => ?_)
    fun _ _ => trivial
  refine ⟨hI.after hrun hpermits.1 nofun, ?_, trivial⟩
  cases b with
  | none => exact countFailure_keeps
  | some current =>
    simp only
    split
    · exact fun _ _ => trivial
    · exact countFailure_keeps

theorem retryWhile_keeps (fuel : Nat) : ∀ outcome h,
    groundedWatch.Keeps S (.task m) i (retryWhile m.envelope fuel outcome) (fun _ _ => True) h := by
  induction fuel with
  | zero => exact fun _ _ _ _ => trivial
  | succ fuel ih =>
    intro outcome h
    unfold retryWhile
    split
    · refine Rules.wp.tryCatch ((tame_done (runAgain_tame _)).mono fun out h₁ _ => ?_)
      cases out with
      | ok a => trivial
      | error e =>
        refine Rules.wp.bind (recordFailure_keeps.mono fun out h₂ _ => ?_)
        cases out with
        | ok outcome => exact ih outcome h₂
        | error e => trivial
    · exact fun _ _ => trivial

theorem retryOrDeadLetter_keeps :
    groundedWatch.Keeps S (.task m) i (retryOrDeadLetter m.envelope) (fun _ _ => True) h := by
  refine Rules.wp.bind (recordFailure_keeps.mono fun out h₁ _ => ?_)
  cases out with
  | ok outcome => exact retryWhile_keeps _ outcome h₁
  | error e => trivial

/-- What the gate makes of the dependencies of a task. -/
def Found (m : TaskMessage) (i : Nat) : Except Exc (Option TaskRow) → Record → Prop
  | .ok (some _), h => Resolved i h ∧ DepBlocked m.envelope.taskId h.cur
  | .ok none, _ => True
  | .error e, _ => e = .other

theorem Found.follow {out : Except Exc (Option TaskRow)} {h h' : Record} (hf : Found m i out h)
    (hrely : Follow (.task m) i h h') : Found m i out h' := by
  match out, hf with
  | .ok (some _), ⟨hresolved, hdep⟩ =>
    exact ⟨hresolved.mono hrely.log, hrely.blocked m rfl hresolved hdep⟩
  | .ok none, _ => trivial
  | .error e, he => exact he

theorem findDeadLetteredDependency_keeps {current : TaskRow}
    (hrow : ∃ r ∈ h.cur.tasks, r.taskId = m.envelope.taskId ∧ r.dependsOn = current.dependsOn) :
    groundedWatch.Keeps S (.task m) i (findDeadLetteredDependency current) (Found m i) h := by
  unfold findDeadLetteredDependency
  split
  · exact fun _ _ => trivial
  · refine Watch.bind_call (fun _ _ _ hf hrely => hf.follow hrely)
      (fun h₁ a b s hrely hI hpermits hrun => ?_) fun _ _ => rfl
    refine ⟨hI.after hrun hpermits.1 nofun, fun h₂ hrely₂ => Found.follow ?_ hrely₂, rfl⟩
    cases hfind : List.find? (fun r => r.state.blocked) (show List TaskRow from b) with
    | none => trivial
    | some dep =>
      -- a row the gate has read, blocked: a dependency of the task
      simp only [exec] at hrun
      split at hrun
      · rename_i hselects
        obtain ⟨rfl, rfl⟩ := Prod.mk.inj (Option.some.inj hrun)
        obtain ⟨hdep, hmem⟩ := (mem_selectsAll hselects).1 (List.mem_of_find?_eq_some hfind)
        have hblocked : BlockedTask dep.taskId h₁.cur := ⟨dep, hdep, rfl,
          List.find?_some (p := fun r : TaskRow => r.state.blocked) hfind⟩
        obtain ⟨r, hr, hid, hdeps⟩ := hrow
        obtain ⟨r', hr', hid', hdeps'⟩ := hrely.rows r hr
        refine ⟨⟨_, List.mem_cons_self, rfl, .inl ⟨_, rfl, dep.taskId, by simpa using hmem,
          hblocked⟩⟩, r', hr', hid'.trans hid, dep.taskId, ?_, hblocked⟩
        rw [hdeps', hdeps]
        simpa using hmem
      · cases hrun

/-- The gate gives a task up only after it has read a blocked dependency of it. -/
theorem dispatchTask_keeps :
    groundedWatch.Keeps S (.task m) i (dispatchTask m.envelope) (fun out h => ∀ dep,
      out = .error (.dependencyDeadLettered dep) →
        Resolved i h ∧ DepBlocked m.envelope.taskId h.cur) h := by
  have hclosed : ∀ (out : Except Exc Unit) (h h' : Record),
      (∀ dep, out = .error (.dependencyDeadLettered dep) →
        Resolved i h ∧ DepBlocked m.envelope.taskId h.cur) → Follow (.task m) i h h' →
      ∀ dep, out = .error (.dependencyDeadLettered dep) →
        Resolved i h' ∧ DepBlocked m.envelope.taskId h'.cur := by
    intro out h h' hout hrely dep heq
    obtain ⟨hresolved, hdep⟩ := hout dep heq
    exact ⟨hresolved.mono hrely.log, hrely.blocked m rfl hresolved hdep⟩
  refine Watch.bind_call hclosed (fun h₁ a b s hrely hI hpermits hrun => ?_) fun _ _ => nofun
  refine ⟨hI.after hrun hpermits.1 nofun, ?_, nofun⟩
  cases b with
  | none => exact fun _ _ => nofun
  | some current =>
    obtain ⟨hfind, rfl⟩ := Prod.mk.inj (Option.some.inj hrun)
    obtain ⟨hrow, hid⟩ := find_some hfind
    simp only
    split
    · refine (tame_keeps (runTask_tame _)).mono fun out h₂ hother dep heq => ?_
      cases hother _ heq
    · split
      · exact fun _ _ => nofun
      · have hgate := findDeadLetteredDependency_keeps (S := S) (i := i)
          (h := h₁.after i ⟨.gate, .getTask m.envelope.taskId⟩ (some current) h₁.cur)
          ⟨current, hrow, hid, rfl⟩
        refine Rules.wp.bind (hgate.mono fun out h₂ hfound => ?_)
        match out, hfound with
        | .ok (some dep), hfound =>
          exact fun h₃ hrely₃ _ _ => hfound.follow hrely₃
        | .ok none, _ => exact fun _ _ => nofun
        | .error e, he =>
          rintro dep heq
          rw [Except.error.inj heq] at he
          cases he

theorem requeueOrGiveUp_keeps :
    groundedWatch.Keeps S (.task m) i (requeueOrGiveUp m.envelope) (fun _ _ => True) h := by
  unfold requeueOrGiveUp
  split
  · refine Rules.wp.bind (recordFailure_keeps.mono fun out h₁ _ => ?_)
    cases out with
    | ok outcome => exact fun _ _ => trivial
    | error e => trivial
  · exact tame_done (call_within nofun)

theorem handleTaskMessage_keeps :
    groundedWatch.Keeps S (.task m) i (handleTaskMessage m.envelope) (fun _ _ => True) h := by
  refine Rules.wp.tryCatch (dispatchTask_keeps.mono fun out h₁ hout => ?_)
  cases out with
  | ok a => trivial
  | error e =>
    cases e with
    | dependencyDeadLettered dep =>
      obtain ⟨hresolved, hdep⟩ := hout dep rfl
      refine Rules.wp.bind ((cascadeDeadLetter_keeps hresolved hdep).mono fun out h₂ _ => ?_)
      cases out with
      | ok outcome => exact fun _ _ => trivial
      | error e => trivial
    | taskAlreadyTerminal x => exact fun _ _ => trivial
    | taskNotReady => exact requeueOrGiveUp_keeps
    | other => exact retryOrDeadLetter_keeps

theorem processTask_keeps :
    groundedWatch.Keeps S (.task m) i (processTask m) (fun _ _ => True) h := by
  have hcomplete : ∀ h, groundedWatch.Keeps S (.task m) i
      (tryCatch (call .transport (.completeTask m)) fun _ => pure ()) (fun _ _ => True) h :=
    fun h => tame_done (F := fun _ => True)
      ((call_within nofun).tryCatch fun _ _ => True.intro)
  have hbody : groundedWatch.Keeps S (.task m) i (if 1 < m.deliveryCount then
      reconcileRedeliveredTask m.envelope else handleTaskMessage m.envelope)
      (fun _ _ => True) h := by
    split
    · refine Rules.wp.bind (recordFailure_keeps.mono fun out h₁ _ => ?_)
      cases out with
      | ok outcome => exact fun _ _ => trivial
      | error e => trivial
    · exact handleTaskMessage_keeps
  refine Rules.wp.bind (Rules.wp.tryCatch (hbody.mono fun out h₁ _ => ?_))
  cases out with
  | ok a => exact hcomplete h₁
  | error e => exact fun h₂ _ => hcomplete h₂

theorem process_keeps : groundedWatch.Keeps S d i (process S d) (fun _ _ => True) h := by
  cases d with
  | task m => exact processTask_keeps
  | event msg => exact tame_done ((processEvent_inert S msg).mono (fun _ ho => ho.tame) fun _ he => he)

end Routines

/-! ## Runs -/

/-- In every run in which the condemned tasks keep a blocked dependency: a task whose last
    transition is a cascade has a dependency that is FAILED or DEAD_LETTERED, and a task that was
    dead-lettered without a call of its handler has a dependency that is not COMPLETED. -/
theorem cascade_grounded {S : Settings} {c : Recorded}
    (hr : (replicas S).Reach Unpremature (.idle noRecord) c) :
    (∀ t x, c.shared.cur.last t = some x → x.reason = .dependencyDeadLettered →
      ∃ r ∈ c.shared.cur.tasks, r.taskId = t ∧ ∃ d ∈ r.dependsOn, BlockedTask d c.shared.cur) ∧
    ∀ r ∈ c.shared.cur.tasks, r.state = .deadLettered → ¬ Invoked r.taskId c.shared →
      ∃ d ∈ r.dependsOn, ∀ r' ∈ c.shared.cur.tasks, r'.taskId = d → r'.state ≠ .completed := by
  have hgrounded : Grounded c.shared := by
    refine Watch.sound (W := groundedWatch) (fun c i f o hok hi hexec => ?_) ?_
      (fun _ _ _ _ _ => process_keeps)
      (fun c i f o a b s hok hi hexec hI hrun j d hji hj => ?_) hr
    · obtain ⟨hspares, hthird⟩ := hok i f o rfl hi hexec
      exact ⟨fun u dest reason hq t ht => hspares u dest reason hq t (.inl ht), hthird⟩
    · rintro t (⟨x, hx, -⟩ | ⟨⟨r, hr, -⟩, -⟩)
      · cases hx
      · exact absurd hr List.not_mem_nil
    · refine ⟨fun e he => List.mem_cons_of_mem _ he, lasting_exec hrun, ?_⟩
      rintro m rfl hresolved ht
      exact ht.exec hrun fun u dest reason hq =>
        (hok i f o rfl hi hexec).1 u dest reason hq _ (.inr ⟨j, m, hj, rfl, hresolved⟩)
  refine ⟨fun t x hx hreason => hgrounded t (.inl ⟨x, hx, hreason⟩), fun r hrow hst hnot => ?_⟩
  obtain ⟨r₁, hr₁, hid, d, hd, r₂, hr₂, hid₂, hst₂⟩ := hgrounded r.taskId
    (.inr ⟨⟨r, hrow, rfl, hst⟩, hnot⟩)
  have hunique : ∀ {x y : TaskRow}, x ∈ c.shared.cur.tasks → y ∈ c.shared.cur.tasks →
      x.taskId = y.taskId → x = y := fun hx hy hxy =>
    List.inj_on_of_nodup_map (replicas_ids hr) hx hy hxy
  obtain rfl := hunique hr₁ hrow hid
  refine ⟨d, hd, fun r' hr' hid' hcompleted => ?_⟩
  obtain rfl := hunique hr' hr₂ (hid'.trans hid₂.symm)
  rw [hcompleted] at hst₂
  cases hst₂

/-! ## A premature cascade

    The brand review names an uncleared client and is FAILED; Friday's message is delivered; the fact
    check's retry loop completes both reviews. -/

/-- The fact check has completed the brand review after Friday was given up for it. -/
def fridayGivenUp : Snapshot :=
  weekly thursday thursdayWorld ["brief", "draft", "brand", "friday", "fact"]

/-- Friday was given up for a review that is COMPLETED now. -/
theorem cascade_premature :
    ¬ ∀ c, (replicas thursday).Reach Sys.free (.idle noRecord) c →
      ∀ t x, c.shared.cur.last t = some x → x.reason = .dependencyDeadLettered →
        ∃ r ∈ c.shared.cur.tasks, r.taskId = t ∧
          ∃ d ∈ r.dependsOn, BlockedTask d c.shared.cur := by
  intro h
  obtain ⟨c, hreach, hcur⟩ : ∃ c : Recorded,
      (replicas thursday).Reach Sys.free (.idle noRecord) c ∧ c.shared.cur = fridayGivenUp.shared :=
    weekly_recorded _ _ _ (fun _ _ => true) (fun _ _ _ _ _ _ => trivial) (by decide +kernel)
  have hlast : (fridayGivenUp.shared.last ⟨0, "friday"⟩).map (·.reason) =
      some .dependencyDeadLettered := by decide +kernel
  have hdone : ∀ r ∈ fridayGivenUp.shared.tasks, r.taskId = ⟨0, "friday"⟩ → ∀ d ∈ r.dependsOn,
      ∀ r' ∈ fridayGivenUp.shared.tasks, r'.taskId = d → r'.state = .completed := by
    decide +kernel
  rw [← hcur] at hlast hdone
  obtain ⟨x, hx, hreason⟩ := Option.map_eq_some_iff.1 hlast
  obtain ⟨r, hrow, hid, d, hd, r', hr', hid', hst'⟩ := h c hreach _ x hx hreason
  rw [hdone r hrow hid d hd r' hr' hid'] at hst'
  cases hst'

/-! ## A cascade that is not premature

    Nothing is taken out of a blocked state, and no failure is counted. -/

/-- Thread `i` takes no task out of a blocked state and counts no failure. -/
def sober (c : Snapshot) (i : Nat) : Bool :=
  match c.next i with
  | some ⟨_, .incrementRetry _⟩ => false
  | some ⟨_, .transition u dest _⟩ =>
    dest.blocked || !c.shared.tasks.any fun r => r.taskId == u && r.state.blocked
  | _ => true

theorem spares_of_not_blocked {u : TaskId} {dest : TaskState} {s : State}
    (h : ¬ BlockedTask u s) (t : TaskId) : Spares u dest t s := by
  refine .inr fun ⟨r, hr, hid, d, hd, hblocked⟩ => ⟨r, hr, hid, d, hd, ?_, hblocked⟩
  rintro rfl
  exact h hblocked

theorem unpremature_of_sober {c : Snapshot} {c' : Recorded} {a : Action}
    (hcur : c'.shared.cur = c.shared) (hthread : c'.thread = c.thread)
    (ha : ∀ i f, a = .step i f → sober c i = true) : Unpremature c' a := by
  rintro i f o rfl hi -
  have hnext : c.next i = some o := by
    rw [← hi, Config.next, Config.next, hthread]
  have hsober := ha i f rfl
  rw [sober, hnext] at hsober
  refine ⟨fun u dest reason hq t _ => ?_, fun r _ hq => ?_⟩
  · obtain ⟨site, q⟩ := o
    obtain rfl : q = .transition u dest reason := hq
    rw [hcur]
    simp only [Bool.or_eq_true, Bool.not_eq_true', List.any_eq_false, Bool.and_eq_true, beq_iff_eq,
      not_and, Bool.not_eq_true] at hsober
    rcases hsober with hdest | hnone
    · exact .inl hdest
    · refine spares_of_not_blocked ?_ t
      rintro ⟨r, hr, hid, hst⟩
      rw [hnone r hr hid] at hst
      cases hst
  · obtain ⟨site, q⟩ := o
    obtain rfl : q = .incrementRetry r.taskId := hq
    cases hsober

/-- Friday is given up for the brand review, which is FAILED. -/
theorem cascade_grounded_of_thursday : ∃ c : Recorded,
    (∃ x, c.shared.cur.last ⟨0, "friday"⟩ = some x ∧ x.reason = .dependencyDeadLettered) ∧
    ∀ t x, c.shared.cur.last t = some x → x.reason = .dependencyDeadLettered →
      ∃ r ∈ c.shared.cur.tasks, r.taskId = t ∧ ∃ d ∈ r.dependsOn, BlockedTask d c.shared.cur := by
  obtain ⟨c, hreach, hcur⟩ := weekly_recorded thursday thursdayWorld
    ["brief", "draft", "brand", "friday"] sober
    (fun _ _ _ hcur hthread ha => unpremature_of_sober hcur hthread ha) (by decide +kernel)
  refine ⟨c, ?_, (cascade_grounded hreach).1⟩
  have hlast : ((weekly thursday thursdayWorld ["brief", "draft", "brand", "friday"]).shared.last
      ⟨0, "friday"⟩).map (·.reason) = some .dependencyDeadLettered := by decide +kernel
  rw [← hcur] at hlast
  exact Option.map_eq_some_iff.1 hlast

end CanvasOS.Orchestrator
