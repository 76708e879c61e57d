/-
  What a single statement does to the task rows.

  1. `Calm` — what all statements but three kinds, and all moves of the world, have in common: no
     task changes its state, no message leaves the task queue.
  2. `Moved` — a transition: one row changes its state, and nothing else happens to it.
  3. `Grown` — a batch insert: the rows of the batch that were not there are there, fresh.
  4. `WellFormed` — what holds in every run: a task id has one row, and every row and every envelope
     is one of a decomposed batch.
-/
import CanvasOS.Orchestrator.Worker

namespace CanvasOS.Orchestrator

open Interleave Python

/-! ## Calm statements -/

/-- `r'` is the row of the same task later on, in the same state. -/
structure TaskRow.Follows (r r' : TaskRow) : Prop where
  taskId : r'.taskId = r.taskId
  taskType : r'.taskType = r.taskType
  state : r'.state = r.state
  dependsOn : r'.dependsOn = r.dependsOn
  retryCount : r.retryCount ≤ r'.retryCount
  resultRef : r.resultRef.isSome → r'.resultRef.isSome

theorem TaskRow.Follows.refl (r : TaskRow) : r.Follows r :=
  ⟨rfl, rfl, rfl, rfl, Nat.le_refl _, fun h => h⟩

theorem TaskRow.Follows.trans {a b c : TaskRow} (h₁ : a.Follows b) (h₂ : b.Follows c) :
    a.Follows c :=
  ⟨h₂.taskId.trans h₁.taskId, h₂.taskType.trans h₁.taskType, h₂.state.trans h₁.state,
    h₂.dependsOn.trans h₁.dependsOn, Nat.le_trans h₁.retryCount h₂.retryCount,
    fun h => h₂.resultRef (h₁.resultRef h)⟩

/-- No task changes its state and no message leaves the task queue. -/
structure Calm (s t : State) : Prop where
  ids : t.tasks.map (·.taskId) = s.tasks.map (·.taskId)
  forth : ∀ r ∈ s.tasks, ∃ r' ∈ t.tasks, r.Follows r'
  back : ∀ r' ∈ t.tasks, ∃ r ∈ s.tasks, r.Follows r'
  queue : s.taskQueue.Sublist t.taskQueue
  envelopes : ∀ m ∈ t.taskQueue, ∃ n ∈ s.taskQueue, n.envelope.taskId = m.envelope.taskId ∧
    n.envelope.taskType = m.envelope.taskType

namespace Calm

theorem of_tasks {s t : State} (htasks : t.tasks = s.tasks)
    (hqueue : s.taskQueue.Sublist t.taskQueue)
    (henv : ∀ m ∈ t.taskQueue, ∃ n ∈ s.taskQueue, n.envelope.taskId = m.envelope.taskId ∧
      n.envelope.taskType = m.envelope.taskType) : Calm s t :=
  ⟨by rw [htasks], fun r hr => ⟨r, htasks ▸ hr, .refl r⟩, fun r hr => ⟨r, htasks ▸ hr, .refl r⟩,
    hqueue, henv⟩

/-- The rows and the task queue stand still. -/
theorem of_same {s t : State} (htasks : t.tasks = s.tasks) (hqueue : t.taskQueue = s.taskQueue) :
    Calm s t :=
  of_tasks htasks (hqueue ▸ List.Sublist.refl _) fun m hm => ⟨m, hqueue ▸ hm, rfl, rfl⟩

theorem refl (s : State) : Calm s s := of_same rfl rfl

theorem trans {s t u : State} (h₁ : Calm s t) (h₂ : Calm t u) : Calm s u := by
  refine ⟨h₂.ids.trans h₁.ids, fun r hr => ?_, fun r hr => ?_, h₁.queue.trans h₂.queue,
    fun m hm => ?_⟩
  · obtain ⟨r₁, hr₁, hf₁⟩ := h₁.forth r hr
    obtain ⟨r₂, hr₂, hf₂⟩ := h₂.forth r₁ hr₁
    exact ⟨r₂, hr₂, hf₁.trans hf₂⟩
  · obtain ⟨r₁, hr₁, hf₁⟩ := h₂.back r hr
    obtain ⟨r₂, hr₂, hf₂⟩ := h₁.back r₁ hr₁
    exact ⟨r₂, hr₂, hf₂.trans hf₁⟩
  · obtain ⟨m₁, hm₁, hid₁, hty₁⟩ := h₂.envelopes m hm
    obtain ⟨m₂, hm₂, hid₂, hty₂⟩ := h₁.envelopes m₁ hm₁
    exact ⟨m₂, hm₂, hid₂.trans hid₁, hty₂.trans hty₁⟩

instance : IsPreorder State Calm where
  refl := refl
  trans _ _ _ := trans

/-- An update of columns that `Follows` does not fix. -/
theorem update {s t : State} {taskId : TaskId} {f : TaskRow → TaskRow}
    (htasks : t.tasks = s.updateTask taskId f) (hqueue : t.taskQueue = s.taskQueue)
    (hf : ∀ r : TaskRow, r.Follows (f r)) : Calm s t := by
  refine ⟨?_, fun r hr => ?_, fun r hr => ?_, hqueue ▸ List.Sublist.refl _,
    fun m hm => ⟨m, hqueue ▸ hm, rfl, rfl⟩⟩
  · rw [htasks]
    exact Table.map_update s.tasks _ f TaskRow.taskId fun r => (hf r).taskId
  · rcases Table.exists_mem_update htasks hr with ⟨-, hmem⟩ | ⟨-, hmem⟩
    · exact ⟨f r, hmem, hf r⟩
    · exact ⟨r, hmem, .refl r⟩
  · rcases Table.mem_update htasks hr with ⟨r₀, hr₀, -, rfl⟩ | ⟨hmem, -⟩
    · exact ⟨r₀, hr₀, hf r₀⟩
    · exact ⟨r, hmem, .refl r⟩

end Calm

/-- The statements that are calm in every state. -/
def Query.calm : Query → Bool
  | .insertTaskBatch _ => false
  | .transition _ _ _ => false
  | .publishTask _ => false
  | .completeTask _ => false
  | _ => true

theorem exec_calm {q : Query} {a b : q.Res} {s t : State} (hq : q.calm = true)
    (h : exec q a s = some (b, t)) : Calm s t := by
  cases q with
  | insertTaskBatch | transition | publishTask | completeTask => cases hq
  | incrementRetry taskId =>
    obtain ⟨row, -, heq⟩ := Option.map_eq_some_iff.1 h
    obtain ⟨-, rfl⟩ := Prod.mk.inj heq
    exact Calm.update rfl rfl fun r => ⟨rfl, rfl, rfl, rfl, Nat.le_succ _, fun h => h⟩
  | setResultRef taskId ref =>
    obtain ⟨-, rfl⟩ := Prod.mk.inj (Option.some.inj h)
    exact Calm.update rfl rfl fun r => ⟨rfl, rfl, rfl, rfl, Nat.le_refl _, fun _ => rfl⟩
  | publishAlert | completeEvent =>
    obtain ⟨-, rfl⟩ := Prod.mk.inj (Option.some.inj h)
    exact Calm.of_same rfl rfl
  | pendingDependents | getTasks | findDependentTasks =>
    simp only [exec] at h
    split at h
    · obtain ⟨-, rfl⟩ := Prod.mk.inj (Option.some.inj h)
      exact .refl s
    · cases h
  | countCompleted | getTask | invoke | work | campaign | factCheckGateApproved | review
  | regenerate | tryAdvisoryLock | releaseAdvisoryLock | notify =>
    obtain ⟨-, rfl⟩ := Prod.mk.inj (Option.some.inj h)
    exact .refl s

/-- The world is calm. -/
theorem move_calm {e : Move} {s t : State} (h : e.apply s = some t) : Calm s t := by
  cases e with
  | fire event =>
    obtain rfl := Option.some.inj h
    exact Calm.of_same rfl rfl
  | duplicateTask msg =>
    simp only [Move.apply] at h
    split at h
    · obtain rfl := Option.some.inj h
      refine Calm.of_tasks rfl (List.sublist_cons_self _ _) fun m hm => ?_
      rcases List.mem_cons.1 hm with rfl | hm
      · exact ⟨m, ‹_›, rfl, rfl⟩
      · exact ⟨m, hm, rfl, rfl⟩
    · cases h
  | duplicateEvent msg =>
    simp only [Move.apply] at h
    split at h
    · obtain rfl := Option.some.inj h
      exact Calm.of_same rfl rfl
    · cases h

/-- The rows an unordered SELECT answers with are the matching ones. -/
theorem mem_selectsAll {rows answer : List TaskRow} {p : TaskRow → Bool}
    (h : selectsAll rows p answer = true) {r : TaskRow} : r ∈ answer ↔ r ∈ rows ∧ p r = true := by
  rw [(List.isPerm_iff.1 h).mem_iff, List.mem_filter]

theorem find_some {s : State} {taskId : TaskId} {r : TaskRow} (h : s.find taskId = some r) :
    r ∈ s.tasks ∧ r.taskId = taskId :=
  ⟨List.mem_of_find?_eq_some h, by simpa using List.find?_some h⟩

theorem find_none {s : State} {taskId : TaskId} (h : s.find taskId = none) :
    ∀ r ∈ s.tasks, r.taskId ≠ taskId := fun r hr => by
  simpa using List.find?_eq_none.1 h r hr

/-! ## Transitions -/

/-- The row of `taskId` in its new state, any other row as it is. -/
def TaskRow.moved (taskId : TaskId) (dest : TaskState) (r : TaskRow) : TaskRow :=
  if r.taskId = taskId then { r with state := dest } else r

section

variable {taskId : TaskId} {dest : TaskState} {r : TaskRow}

@[simp] theorem TaskRow.moved_taskId : (r.moved taskId dest).taskId = r.taskId := by
  unfold moved; split <;> rfl
@[simp] theorem TaskRow.moved_taskType : (r.moved taskId dest).taskType = r.taskType := by
  unfold moved; split <;> rfl
@[simp] theorem TaskRow.moved_dependsOn : (r.moved taskId dest).dependsOn = r.dependsOn := by
  unfold moved; split <;> rfl
@[simp] theorem TaskRow.moved_retryCount : (r.moved taskId dest).retryCount = r.retryCount := by
  unfold moved; split <;> rfl
@[simp] theorem TaskRow.moved_resultRef : (r.moved taskId dest).resultRef = r.resultRef := by
  unfold moved; split <;> rfl

theorem TaskRow.moved_self (h : r.taskId = taskId) : (r.moved taskId dest).state = dest := by
  rw [moved, if_pos h]

theorem TaskRow.moved_of_ne (h : r.taskId ≠ taskId) : r.moved taskId dest = r := if_neg h

end

/-- Task `taskId`, which has a row, goes to state `dest`; nothing else changes but the record of
    transitions. -/
structure Moved (taskId : TaskId) (dest : TaskState) (s t : State) : Prop where
  tasks : t.tasks = s.tasks.map (TaskRow.moved taskId dest)
  taskQueue : t.taskQueue = s.taskQueue
  eventQueue : t.eventQueue = s.eventQueue
  found : ∃ r ∈ s.tasks, r.taskId = taskId

theorem exec_transition {taskId : TaskId} {dest : TaskState} {reason : TransitionReason}
    {a b : Unit} {s t : State} (h : exec (.transition taskId dest reason) a s = some (b, t)) :
    Moved taskId dest s t := by
  obtain ⟨row, hfind, heq⟩ := Option.map_eq_some_iff.1 h
  obtain ⟨-, rfl⟩ := Prod.mk.inj heq
  refine ⟨List.map_congr_left fun r _ => ?_, rfl, rfl, row, find_some hfind⟩
  simp only [TaskRow.moved, beq_iff_eq]

namespace Moved

variable {taskId : TaskId} {dest : TaskState} {s t : State}

theorem ids (h : Moved taskId dest s t) :
    t.tasks.map (·.taskId) = s.tasks.map (·.taskId) := by
  rw [h.tasks, List.map_map]
  exact List.map_congr_left fun r _ => TaskRow.moved_taskId

theorem forth (h : Moved taskId dest s t) {r : TaskRow} (hr : r ∈ s.tasks) :
    r.moved taskId dest ∈ t.tasks := h.tasks ▸ List.mem_map_of_mem hr

theorem back (h : Moved taskId dest s t) {r : TaskRow} (hr : r ∈ t.tasks) :
    ∃ r₀ ∈ s.tasks, r = r₀.moved taskId dest := by
  obtain ⟨r₀, hr₀, rfl⟩ := List.mem_map.1 (h.tasks ▸ hr)
  exact ⟨r₀, hr₀, rfl⟩

/-- The row of the task is in its new state. -/
theorem self (h : Moved taskId dest s t) : ∃ r ∈ t.tasks, r.taskId = taskId ∧ r.state = dest := by
  obtain ⟨r, hr, hid⟩ := h.found
  exact ⟨_, h.forth hr, TaskRow.moved_taskId.trans hid, TaskRow.moved_self hid⟩

end Moved

/-! ## Batches -/

/-- The rows of the batch are there, the new ones as `toRow` writes them. -/
structure Grown (tasks : List NewTask) (s t : State) : Prop where
  old : ∀ r ∈ s.tasks, r ∈ t.tasks
  inserted : ∀ n ∈ tasks, ∃ r ∈ t.tasks, r.taskId = n.taskId
  new : ∀ r ∈ t.tasks, r ∈ s.tasks ∨
    (∃ n ∈ tasks, r = n.toRow) ∧ ∀ r₀ ∈ s.tasks, r₀.taskId ≠ r.taskId
  ids : (s.tasks.map (·.taskId)).Nodup → (t.tasks.map (·.taskId)).Nodup
  taskQueue : t.taskQueue = s.taskQueue
  eventQueue : t.eventQueue = s.eventQueue

theorem Grown.nil (s : State) : Grown [] s s :=
  ⟨fun _ h => h, fun _ h => absurd h List.not_mem_nil, fun _ h => .inl h, fun h => h, rfl, rfl⟩

theorem grown_insertTask (s : State) (n : NewTask) : Grown [n] s (s.insertTask n) := by
  unfold State.insertTask
  split
  · rename_i hany
    obtain ⟨r, hr, hid⟩ := List.any_eq_true.1 hany
    refine ⟨fun _ h => h, fun n' hn' => ?_, fun _ h => .inl h, fun h => h, rfl, rfl⟩
    rw [List.mem_singleton.1 hn']
    exact ⟨r, hr, by simpa using hid⟩
  · rename_i hany
    have hfresh : ∀ r ∈ s.tasks, r.taskId ≠ n.taskId := fun r hr hid =>
      hany (List.any_eq_true.2 ⟨r, hr, by simpa using hid⟩)
    refine ⟨fun _ h => List.mem_append_left _ h, fun n' hn' => ?_, fun r hr => ?_, fun h => ?_,
      rfl, rfl⟩
    · rw [List.mem_singleton.1 hn']
      exact ⟨n.toRow, List.mem_append_right _ List.mem_cons_self, rfl⟩
    · rcases List.mem_append.1 hr with hr | hr
      · exact .inl hr
      · obtain rfl := List.mem_singleton.1 hr
        exact .inr ⟨⟨n, List.mem_cons_self, rfl⟩, hfresh⟩
    · rw [List.map_append, List.nodup_append]
      refine ⟨h, List.nodup_singleton _, fun x hx y hy heq => ?_⟩
      obtain ⟨r, hr, rfl⟩ := List.mem_map.1 hx
      obtain rfl := List.mem_singleton.1 hy
      exact hfresh r hr heq

theorem Grown.trans {ns ms : List NewTask} {s t u : State} (h₁ : Grown ns s t)
    (h₂ : Grown ms t u) : Grown (ns ++ ms) s u := by
  refine ⟨fun r hr => h₂.old r (h₁.old r hr), fun n hn => ?_, fun r hr => ?_,
    fun h => h₂.ids (h₁.ids h), h₂.taskQueue.trans h₁.taskQueue,
    h₂.eventQueue.trans h₁.eventQueue⟩
  · rcases List.mem_append.1 hn with hn | hn
    · obtain ⟨r, hr, hid⟩ := h₁.inserted n hn
      exact ⟨r, h₂.old r hr, hid⟩
    · exact h₂.inserted n hn
  · rcases h₂.new r hr with hr | ⟨⟨n, hn, rfl⟩, hfresh⟩
    · rcases h₁.new r hr with hr | ⟨⟨n, hn, rfl⟩, hfresh⟩
      · exact .inl hr
      · exact .inr ⟨⟨n, List.mem_append_left _ hn, rfl⟩, hfresh⟩
    · exact .inr ⟨⟨n, List.mem_append_right _ hn, rfl⟩, fun r₀ hr₀ => hfresh r₀ (h₁.old r₀ hr₀)⟩

theorem exec_insertTaskBatch {tasks : List NewTask} {a b : Unit} {s t : State}
    (h : exec (.insertTaskBatch tasks) a s = some (b, t)) : Grown tasks s t := by
  obtain ⟨-, rfl⟩ := Prod.mk.inj (Option.some.inj h)
  clear h
  induction tasks generalizing s with
  | nil => exact .nil s
  | cons n tasks ih => exact (grown_insertTask s n).trans ih

/-! ## Reception -/

/-- A task message that is received was on the queue, delivered once less, and stays there. -/
theorem receive_task {m : TaskMessage} {s t : State} (h : s.receive (.task m) = some t) :
    0 < m.deliveryCount ∧ (⟨m.envelope, m.deliveryCount - 1⟩ : TaskMessage) ∈ s.taskQueue ∧
      t = { s with taskQueue := m :: s.taskQueue.erase ⟨m.envelope, m.deliveryCount - 1⟩ } := by
  simp only [State.receive] at h
  split at h
  · exact ⟨(‹_ ∧ _› : _ ∧ _).1, (‹_ ∧ _› : _ ∧ _).2, (Option.some.inj h).symm⟩
  · cases h

theorem receive_event {msg : EventMessage} {s t : State} (h : s.receive (.event msg) = some t) :
    msg ∈ s.eventQueue ∧ t = s := by
  simp only [State.receive] at h
  split at h
  · exact ⟨‹_›, (Option.some.inj h).symm⟩
  · cases h

/-- The rows stand still while a message is received. -/
theorem receive_tasks {d : Delivery} {s t : State} (h : s.receive d = some t) :
    t.tasks = s.tasks := by
  cases d with
  | task m =>
    obtain ⟨-, -, rfl⟩ := receive_task h
    rfl
  | event msg =>
    obtain ⟨-, rfl⟩ := receive_event h
    rfl

/-! ## Well-formed states -/

/-- `n` is a task of the batch its id points to. -/
def Settings.Has (S : Settings) (n : NewTask) : Prop := n ∈ S.batch n.taskId.event

theorem Settings.has_of_mem {S : Settings} {event : Nat} {n : NewTask} (h : n ∈ S.batch event) :
    S.Has n ∧ n.taskId.event = event := by
  have hevent : n.taskId.event = event := by
    unfold Settings.batch at h
    split at h
    · exact absurd h List.not_mem_nil
    · obtain ⟨t, -, rfl⟩ := List.mem_map.1 h
      rfl
  exact ⟨by rw [Settings.Has, hevent]; exact h, hevent⟩

/-- An id belongs to one task. -/
theorem Settings.Has.eq {S : Settings} {n n' : NewTask} (h : S.Has n) (h' : S.Has n')
    (hid : n.taskId = n'.taskId) : n = n' := by
  unfold Settings.Has at h h'
  rw [← hid] at h'
  unfold Settings.batch at h h'
  split at h
  · exact absurd h List.not_mem_nil
  · rename_i L hL
    simp only [hL] at h'
    obtain ⟨t, ht, hn⟩ := List.mem_map.1 h
    obtain ⟨t', ht', hn'⟩ := List.mem_map.1 h'
    have hname : t.taskId = n.taskId.name := congrArg (fun n : NewTask => n.taskId.name) hn
    have hname' : t'.taskId = n'.taskId.name := congrArg (fun n : NewTask => n.taskId.name) hn'
    obtain rfl := L.eq_of_taskId ht ht' (hname.trans ((congrArg TaskId.name hid).trans hname'.symm))
    exact hn.symm.trans hn'

/-- The row of a task of a batch. -/
structure TaskRow.Matches (r : TaskRow) (n : NewTask) : Prop where
  taskId : r.taskId = n.taskId
  taskType : r.taskType = n.taskType
  dependsOn : r.dependsOn = n.dependsOn

/-- A task id has one row, every row is of a batch, and every queued envelope is of a row. -/
structure WellFormed (S : Settings) (s : State) : Prop where
  ids : (s.tasks.map (·.taskId)).Nodup
  rows : ∀ r ∈ s.tasks, ∃ n, S.Has n ∧ r.Matches n
  queued : ∀ m ∈ s.taskQueue, ∃ r ∈ s.tasks, r.taskId = m.envelope.taskId ∧
    r.taskType = m.envelope.taskType

namespace WellFormed

variable {S : Settings} {s t : State}

theorem empty : WellFormed S .empty :=
  ⟨List.nodup_nil, fun _ h => absurd h List.not_mem_nil, fun _ h => absurd h List.not_mem_nil⟩

theorem unique (h : WellFormed S s) {r r' : TaskRow} (hr : r ∈ s.tasks) (hr' : r' ∈ s.tasks)
    (hid : r.taskId = r'.taskId) : r = r' :=
  List.inj_on_of_nodup_map h.ids hr hr' hid

theorem calm (h : WellFormed S s) (hc : Calm s t) : WellFormed S t := by
  refine ⟨hc.ids ▸ h.ids, fun r hr => ?_, fun m hm => ?_⟩
  · obtain ⟨r₀, hr₀, hf⟩ := hc.back r hr
    obtain ⟨n, hn, hm⟩ := h.rows r₀ hr₀
    exact ⟨n, hn, hf.taskId.trans hm.taskId, hf.taskType.trans hm.taskType,
      hf.dependsOn.trans hm.dependsOn⟩
  · obtain ⟨m₀, hm₀, hid, htype⟩ := hc.envelopes m hm
    obtain ⟨r, hr, hrid, hrtype⟩ := h.queued m₀ hm₀
    obtain ⟨r', hr', hf⟩ := hc.forth r hr
    exact ⟨r', hr', hf.taskId.trans (hrid.trans hid), hf.taskType.trans (hrtype.trans htype)⟩

theorem moved {taskId : TaskId} {dest : TaskState} (h : WellFormed S s)
    (hm : Moved taskId dest s t) : WellFormed S t := by
  refine ⟨hm.ids ▸ h.ids, fun r hr => ?_, fun m hmq => ?_⟩
  · obtain ⟨r₀, hr₀, rfl⟩ := hm.back hr
    obtain ⟨n, hn, hmat⟩ := h.rows r₀ hr₀
    exact ⟨n, hn, by simpa using hmat.taskId, by simpa using hmat.taskType,
      by simpa using hmat.dependsOn⟩
  · rw [hm.taskQueue] at hmq
    obtain ⟨r, hr, hid, htype⟩ := h.queued m hmq
    exact ⟨_, hm.forth hr, by simpa using hid, by simpa using htype⟩

theorem grown {event : Nat} (h : WellFormed S s) (hg : Grown (S.batch event) s t) :
    WellFormed S t := by
  refine ⟨hg.ids h.ids, fun r hr => ?_, fun m hm => ?_⟩
  · rcases hg.new r hr with hr | ⟨⟨n, hn, rfl⟩, -⟩
    · exact h.rows r hr
    · exact ⟨n, (Settings.has_of_mem hn).1, rfl, rfl, rfl⟩
  · rw [hg.taskQueue] at hm
    obtain ⟨r, hr, hid, htype⟩ := h.queued m hm
    exact ⟨r, hg.old r hr, hid, htype⟩

theorem publish {e : TaskEnvelope} (h : WellFormed S s)
    (he : ∃ r ∈ s.tasks, r.taskId = e.taskId ∧ r.taskType = e.taskType) :
    WellFormed S { s with taskQueue := ⟨e, 0⟩ :: s.taskQueue } := by
  refine ⟨h.ids, h.rows, fun m hm => ?_⟩
  rcases List.mem_cons.1 hm with rfl | hm
  · exact he
  · exact h.queued m hm

theorem erase {m : TaskMessage} (h : WellFormed S s) :
    WellFormed S { s with taskQueue := s.taskQueue.erase m } :=
  ⟨h.ids, h.rows, fun _ hm => h.queued _ (List.mem_of_mem_erase hm)⟩

theorem receive {d : Delivery} (h : WellFormed S s) (hs : s.receive d = some t) :
    WellFormed S t := by
  cases d with
  | task msg =>
    obtain ⟨-, hq, rfl⟩ := receive_task hs
    refine ⟨h.ids, h.rows, fun m hm => ?_⟩
    rcases List.mem_cons.1 hm with rfl | hm
    · exact h.queued ⟨m.envelope, m.deliveryCount - 1⟩ hq
    · exact h.queued m (List.mem_of_mem_erase hm)
  | event msg =>
    obtain ⟨-, rfl⟩ := receive_event hs
    exact h

end WellFormed

end CanvasOS.Orchestrator
