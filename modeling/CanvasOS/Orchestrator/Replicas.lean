/-
  Any number of worker replicas, and a record of the statements they execute.

  1. `replicas` — the worker, recording.  Its replicas share the tables and the queues; each handled
     message is a thread.
  2. `HandlerStmt` — the statements a handler can reach, whatever the answers (`handler_modest`): it
     completes, blocks and releases tasks, and does nothing else to their states.
  3. `Inert` — the statements of the routines that move no task.
  4. `State.last` — the last transition of a task, which only `transition` and the batch insert
     write.
-/
import CanvasOS.Lib.Part
import CanvasOS.Orchestrator.Custody

namespace CanvasOS.Orchestrator

open Interleave Python

/-! ## The system -/

/-- The tables and the queues, with the deliveries and the statements executed so far. -/
abbrev Record := History Stmt Stmt.Res State Nat Delivery

/-- Any number of handled messages, recorded. -/
def replicas (S : Settings) : Sys Stmt Stmt.Res Exc Record Nat Delivery Unit Move :=
  (worker S).recording

/-- A configuration of the replicas. -/
abbrev Recorded := Config Stmt Stmt.Res Exc Record Nat Delivery Unit

/-- Nothing has happened yet. -/
def noRecord : Record := ⟨.empty, [], []⟩

/-- The handler of task `t` has been called. -/
def Invoked (t : TaskId) (h : Record) : Prop := ∃ e ∈ h.log, e.op.query = .invoke t

/-! ## The statements of a handler -/

/-- A statement that a handler can reach. -/
def HandlerStmt (o : Stmt) : Prop :=
  o.site = .handler ∧ match o.query with
    | .transition _ dest reason => (dest = .completed ∧ reason = .completed) ∨
        (dest = .failed ∧ reason = .qaBlocked) ∨
        (dest = .dispatchable ∧ reason = .dependencySatisfied)
    | .insertTaskBatch _ => False
    | .incrementRetry _ => False
    | .invoke _ => False
    | .publishTask _ => False
    | .publishAlert _ => False
    | .completeTask _ => False
    | .completeEvent _ => False
    | _ => True

theorem call_within {P : Stmt → Prop} {site : Site} {q : Query} (h : P ⟨site, q⟩) :
    (call site q).Within P (· = .other) :=
  ⟨h, fun r => by cases r <;> first | rfl | exact True.intro⟩

/-- One statement, and what follows its answer. -/
theorem upholds_call {α : Type} {log : Heard Stmt Stmt.Res} {J : Heard Stmt Stmt.Res → Prop}
    {site : Site} {q : Query} {f : q.Res → Worker α}
    {Q : Except Exc α → Heard Stmt Stmt.Res → Prop} (hJ : J log)
    (hnew : ∀ a, J (⟨⟨site, q⟩, a⟩ :: log)) (herror : ∀ e log', J log' → Q (.error e) log')
    (h : ∀ a, Upholds hear J (f a) Q (⟨⟨site, q⟩, a⟩ :: log)) :
    Upholds hear J (call site q >>= f) Q log := by
  refine Upholds.hear_op hJ (fun e => ⟨hJ, herror _ _ hJ⟩) fun a r hr => ?_
  cases r with
  | ok b =>
    obtain rfl := hr b rfl
    exact h b
  | error e => exact ⟨hnew a, herror _ _ (hnew a)⟩

/-- A routine that reaches statements of a handler only, and raises none of the dispatcher's own
    exceptions. -/
abbrev Modest {α : Type} (p : Worker α) : Prop := p.Within HandlerStmt (· = .other)

/-- One statement of a handler in front of the rest. -/
theorem Modest.call {α : Type} {q : Query} {f : q.Res → Worker α}
    (h : HandlerStmt ⟨.handler, q⟩) (hf : ∀ b, Modest (f b)) :
    Modest (Orchestrator.call .handler q >>= f) :=
  (call_within h).bind hf

theorem readyAmong_modest (rows : List TaskRow) : Modest (readyAmong rows) := by
  induction rows with
  | nil => exact True.intro
  | cons row rest ih =>
    unfold readyAmong
    split
    · exact ih
    · exact Modest.call ⟨rfl, True.intro⟩ fun n => ih.bind fun ids => True.intro

theorem releaseAll_modest (ids : List TaskId) : Modest (releaseAll ids) := by
  induction ids with
  | nil => exact True.intro
  | cons id rest ih => exact Modest.call ⟨rfl, .inr (.inr ⟨rfl, rfl⟩)⟩ fun _ => ih

theorem completeTask_modest (t : TaskId) : Modest (completeTask t) := by
  refine Modest.call ⟨rfl, .inl ⟨rfl, rfl⟩⟩ fun _ => Modest.call ⟨rfl, True.intro⟩ fun rows => ?_
  exact (readyAmong_modest rows).bind fun ids => releaseAll_modest ids

theorem completeWith_modest (t : TaskId) (ref : ResultRef) : Modest (completeWith t ref) :=
  Modest.call ⟨rfl, True.intro⟩ fun _ => completeTask_modest t

theorem blockWith_modest (t : TaskId) (ref : ResultRef) : Modest (blockWith t ref) := by
  refine Modest.call ⟨rfl, True.intro⟩ fun _ => ?_
  exact Modest.call ⟨rfl, .inr (.inl ⟨rfl, rfl⟩)⟩ fun _ => call_within ⟨rfl, True.intro⟩

theorem walkLineage_modest (start : TaskId) (hops : Nat) :
    ∀ frontier seen, Modest (walkLineage start hops frontier seen) := by
  induction hops with
  | zero => exact fun _ _ => True.intro
  | succ hops ih =>
    intro frontier seen
    unfold walkLineage
    split
    · exact True.intro
    · refine Modest.call ⟨rfl, True.intro⟩ fun rows => ?_
      split
      · exact True.intro
      · exact ih _ _

theorem writeBack_modest (refs : List (TaskId × ResultRef)) :
    Modest (writeBack refs) := by
  induction refs with
  | nil => exact True.intro
  | cons ref rest ih => exact Modest.call ⟨rfl, True.intro⟩ fun _ => ih

theorem finalizePassed_modest (draft : TaskRow) (asset : Regenerated) (campaignId : Json)
    (attempt : Nat) (checks : Checks) (reviews : ReviewTasks) :
    Modest (finalizePassed draft asset campaignId attempt checks reviews) := by
  induction reviews with
  | nil => exact True.intro
  | cons review rest ih =>
    exact Modest.call ⟨rfl, True.intro⟩ fun _ => (completeTask_modest review.2).bind fun _ => ih

theorem finalizeBlocked_modest (draft : TaskRow) (campaignId : Json) (attempt : Nat)
    (checks : Checks) (reviews : ReviewTasks) :
    Modest (finalizeBlocked draft campaignId attempt checks reviews) := by
  induction reviews with
  | nil => exact True.intro
  | cons review rest ih =>
    refine Modest.call ⟨rfl, True.intro⟩ fun _ => ?_
    exact Modest.call ⟨rfl, .inr (.inl ⟨rfl, rfl⟩)⟩ fun _ => ih

theorem factCheckAgain_modest (t : TaskId) : Modest (factCheckAgain t) := by
  refine Modest.call ⟨rfl, True.intro⟩ fun approved => ?_
  cases approved with
  | true => exact Modest.call ⟨rfl, True.intro⟩ fun _ => True.intro
  | false => exact True.intro

theorem retryAttempts_modest (t : TaskId) (draft : TaskRow) (campaignId pillar : Json)
    (reviews : ReviewTasks) (left : Nat) : ∀ attempt checks,
      Modest (retryAttempts t draft campaignId pillar reviews left attempt checks) := by
  have hblocked : ∀ attempt checks, Modest (finalizeBlocked draft campaignId attempt checks reviews >>=
      fun _ => Orchestrator.call .handler (.notify t)) := fun attempt checks =>
    (finalizeBlocked_modest draft campaignId attempt checks reviews).bind
      fun _ => call_within ⟨rfl, True.intro⟩
  induction left with
  | zero => exact fun attempt checks => hblocked (attempt - 1) checks
  | succ left ih =>
    intro attempt checks
    unfold retryAttempts
    split
    · exact hblocked attempt checks
    · refine Modest.call ⟨rfl, True.intro⟩ fun asset => Modest.call ⟨rfl, True.intro⟩ fun _ => ?_
      refine Modest.call ⟨rfl, True.intro⟩ fun bs => (factCheckAgain_modest t).bind fun fc => ?_
      simp only
      split
      · exact finalizePassed_modest draft asset campaignId attempt _ reviews
      · exact ih _ _

theorem runQaRetryLoop_modest (t : TaskId) (kind : ReviewKind) (draft : TaskRow)
    (violations : List String) : Modest (runQaRetryLoop t kind draft violations) := by
  refine Modest.call ⟨rfl, True.intro⟩ fun rows => ?_
  refine (walkLineage_modest _ _ _ _).bind fun found => ?_
  cases found with
  | none => exact blockWith_modest _ _
  | some found => exact Modest.call ⟨rfl, True.intro⟩ fun _ => retryAttempts_modest _ _ _ _ _ _ _ _

theorem reviewAsset_modest (t : TaskId) (kind : ReviewKind) (draft : TaskRow) (draftRef : ResultRef)
    (campaignId : Json) : Modest (reviewAsset t kind draft draftRef campaignId) := by
  refine Modest.call ⟨rfl, True.intro⟩ fun reviewed => ?_
  split
  · exact completeWith_modest _ _
  · unfold retryOrBlock
    split
    · exact blockWith_modest _ _
    · refine Modest.call ⟨rfl, True.intro⟩ fun locked => ?_
      cases locked with
      | true => exact (runQaRetryLoop_modest _ _ _ _).thenFinally (call_within ⟨rfl, True.intro⟩)
      | false => exact blockWith_modest _ _

theorem singleDraftQaReview_modest (kind : ReviewKind) (e : TaskEnvelope) :
    Modest (singleDraftQaReview kind e) := by
  refine (walkLineage_modest _ _ _ _).bind fun found => ?_
  cases found with
  | none => exact (rfl : Exc.other = .other)
  | some found =>
    refine Modest.call ⟨rfl, True.intro⟩ fun campaign => ?_
    simp only
    split
    · cases kind with
      | brandSteward => exact reviewAsset_modest _ _ _ _ _
      | factCheck =>
        refine Modest.call ⟨rfl, True.intro⟩ fun approved => ?_
        cases approved with
        | true => exact reviewAsset_modest _ _ _ _ _
        | false => exact blockWith_modest _ _
    · split
      · exact completeWith_modest _ _
      · exact Modest.call ⟨rfl, True.intro⟩ fun _ => call_within ⟨rfl, .inr (.inl ⟨rfl, rfl⟩)⟩

/-- Whatever is answered, a handler completes, blocks and releases tasks, and no more. -/
theorem handler_modest (h : Handler) (e : TaskEnvelope) : Modest (h.run e) := by
  cases h with
  | ordinary =>
    refine Modest.call ⟨rfl, True.intro⟩ fun out => (writeBack_modest _).bind fun _ => ?_
    split
    · exact completeWith_modest _ _
    · exact blockWith_modest _ _
  | qaReview kind => exact singleDraftQaReview_modest kind e

/-! ## Statements that move no task -/

/-- Neither a transition nor a call of a handler. -/
def Inert (o : Stmt) : Prop :=
  (∀ u dest reason, o.query ≠ .transition u dest reason) ∧ ∀ u, o.query ≠ .invoke u

theorem emitAlert_inert (t : TaskId) : (emitAlert t).Within Inert (· = .other) := by
  refine (call_within ⟨nofun, nofun⟩).bind fun out => ?_
  cases out with
  | none => exact (rfl : Exc.other = .other)
  | some task => exact call_within ⟨nofun, nofun⟩

theorem publishAll_inert (ns : List NewTask) : (publishAll ns).Within Inert (· = .other) := by
  induction ns with
  | nil => exact True.intro
  | cons n rest ih => exact (call_within ⟨nofun, nofun⟩).bind fun _ => ih

theorem processEvent_inert (S : Settings) (msg : EventMessage) :
    (processEvent S msg).Within Inert fun _ => True := by
  refine Prog.Within.bind (Prog.Within.tryCatch (F := (· = .other)) ?_ fun _ _ => True.intro)
    fun _ => (call_within ⟨nofun, nofun⟩).tryCatch fun _ _ => True.intro
  cases msg with
  | heartbeat event =>
    simp only [handleHeartbeatMessage]
    split
    · exact True.intro
    · exact (call_within ⟨nofun, nofun⟩).bind fun _ => publishAll_inert _
  | deadLetterAlert alert => exact call_within ⟨nofun, nofun⟩

/-! ## The last transition of a task -/

/-- The last row of `task_transitions` for this task. -/
def State.last (s : State) (t : TaskId) : Option Transition :=
  s.transitions.find? fun x => x.taskId == t

theorem last_insertTask {s : State} {n : NewTask} {t : TaskId} :
    (s.insertTask n).last t = s.last t ∨
      (s.insertTask n).last t = some ⟨t, none, n.toRow.state, .created⟩ := by
  unfold State.insertTask
  split
  · exact .inl rfl
  · by_cases hid : n.taskId = t
    · subst hid
      exact .inr (List.find?_cons_of_pos (beq_self_eq_true _))
    · exact .inl (List.find?_cons_of_neg (by simpa using hid))

theorem last_foldl_insertTask {tasks : List NewTask} {s : State} {t : TaskId} :
    (tasks.foldl State.insertTask s).last t = s.last t ∨
      ∃ x, (tasks.foldl State.insertTask s).last t = some x ∧ x.reason = .created := by
  induction tasks generalizing s with
  | nil => exact .inl rfl
  | cons n tasks ih =>
    rcases ih (s := s.insertTask n) with h | h
    · rcases last_insertTask (s := s) (n := n) (t := t) with hn | hn
      · exact .inl (h.trans hn)
      · exact .inr ⟨_, h.trans hn, rfl⟩
    · exact .inr h

/-- The last transition of a task stays, or a batch has just created the task, or the statement is
    a transition of it. -/
theorem last_exec {q : Query} {a b : q.Res} {s s' : State} (h : exec q a s = some (b, s'))
    (t : TaskId) : s'.last t = s.last t ∨ (∃ x, s'.last t = some x ∧ x.reason = .created) ∨
      ∃ dest reason source, q = .transition t dest reason ∧
        s'.last t = some ⟨t, source, dest, reason⟩ := by
  cases q with
  | insertTaskBatch tasks =>
    obtain ⟨-, rfl⟩ := Prod.mk.inj (Option.some.inj h)
    exact last_foldl_insertTask.imp_right .inl
  | transition u dest reason =>
    obtain ⟨row, -, heq⟩ := Option.map_eq_some_iff.1 h
    obtain ⟨-, rfl⟩ := Prod.mk.inj heq
    by_cases hid : u = t
    · subst hid
      exact .inr (.inr ⟨dest, reason, _, rfl, List.find?_cons_of_pos (beq_self_eq_true _)⟩)
    · exact .inl (List.find?_cons_of_neg (by simpa using hid))
  | incrementRetry u =>
    obtain ⟨row, -, heq⟩ := Option.map_eq_some_iff.1 h
    obtain ⟨-, rfl⟩ := Prod.mk.inj heq
    exact .inl rfl
  | pendingDependents | getTasks | findDependentTasks =>
    simp only [exec] at h
    split at h
    · obtain ⟨-, rfl⟩ := Prod.mk.inj (Option.some.inj h)
      exact .inl rfl
    · cases h
  | _ =>
    obtain ⟨-, rfl⟩ := Prod.mk.inj (Option.some.inj h)
    exact .inl rfl

/-! ## Watching the replicas -/

/-- Nothing is executed, and the tables stand still: a message is received, or the world moves. -/
structure Idles (h h' : Record) : Prop where
  log : h'.log = h.log
  tasks : h'.cur.tasks = h.cur.tasks
  transitions : h'.cur.transitions = h.cur.transitions

theorem idles_receive {S : Settings} {i : Nat} {d : Delivery} {h h' : Record}
    (hs : (replicas S).enter i d h = some h') : Idles h h' := by
  obtain ⟨s, hreceive, rfl⟩ := Sys.recording_enter hs
  refine ⟨rfl, receive_tasks hreceive, ?_⟩
  cases d with
  | task m =>
    obtain ⟨-, -, rfl⟩ := receive_task hreceive
    rfl
  | event msg =>
    obtain ⟨-, rfl⟩ := receive_event hreceive
    rfl

theorem idles_move {S : Settings} {e : Move} {h h' : Record}
    (hs : (replicas S).env e h = some h') : Idles h h' := by
  obtain ⟨s, hmove, rfl⟩ := Sys.recording_env hs
  cases e with
  | fire event =>
    obtain rfl := Option.some.inj hmove
    exact ⟨rfl, rfl, rfl⟩
  | duplicateTask msg =>
    simp only [worker, Move.apply] at hmove
    split at hmove
    · obtain rfl := Option.some.inj hmove
      exact ⟨rfl, rfl, rfl⟩
    · cases hmove
  | duplicateEvent msg =>
    simp only [worker, Move.apply] at hmove
    split at hmove
    · obtain rfl := Option.some.inj hmove
      exact ⟨rfl, rfl, rfl⟩
    · cases hmove

/-- No statement makes a second row for a task. -/
theorem ids_exec {q : Query} {a b : q.Res} {s s' : State} (h : exec q a s = some (b, s'))
    (hids : (s.tasks.map (·.taskId)).Nodup) : (s'.tasks.map (·.taskId)).Nodup := by
  by_cases hq : q.calm = true
  · exact (exec_calm hq h).ids ▸ hids
  cases q with
  | insertTaskBatch tasks => exact (exec_insertTaskBatch h).ids hids
  | transition u dest reason => exact (exec_transition h).ids ▸ hids
  | publishTask | completeTask =>
    obtain ⟨-, rfl⟩ := Prod.mk.inj (Option.some.inj h)
    exact hids
  | _ => exact absurd rfl hq

/-- A task has one row. -/
theorem replicas_ids {S : Settings}
    {ok : Recorded → Act Stmt Stmt.Res Exc Nat Delivery Move → Prop} {c : Recorded}
    (hr : (replicas S).Reach ok (.idle noRecord) c) :
    (c.shared.cur.tasks.map (·.taskId)).Nodup := by
  let I (h : Record) : Prop := (h.cur.tasks.map (·.taskId)).Nodup
  have h₀ : I noRecord := List.nodup_nil
  refine hr.shared_invariant (I := I) h₀ ?_ ?_ ?_
  · intro c i d h _ hI hs
    show (h.cur.tasks.map (·.taskId)).Nodup
    rw [(idles_receive hs).tasks]
    exact hI
  · intro c i f d o k out h _ _ hI hx
    rcases Sys.recording_apply hx with ⟨-, rfl⟩ | ⟨a, b, s, -, hrun, rfl⟩
    · exact hI
    · exact ids_exec hrun hI
  · intro c e h _ hI hs
    show (h.cur.tasks.map (·.taskId)).Nodup
    rw [(idles_move hs).tasks]
    exact hI

/-- What a proof about the replicas fixes. -/
structure Watch where
  /-- what holds of the record -/
  inv : Record → Prop
  /-- what the thread that handles a delivery relies on -/
  rely : Delivery → Nat → Record → Record → Prop
  /-- what is asked of a statement that is executed -/
  permits : Record → Stmt → Prop
  rely_refl : ∀ d i h, rely d i h h
  rely_trans : ∀ d i h₁ h₂ h₃, rely d i h₁ h₂ → rely d i h₂ h₃ → rely d i h₁ h₃
  inv_idles : ∀ h h', Idles h h' → inv h → inv h'
  rely_idles : ∀ d i h h', Idles h h' → rely d i h h'

namespace Watch

variable (W : Watch) {S : Settings} {d : Delivery} {i : Nat} {h : Record}

/-- The rules for the thread that handles `d`. -/
def rules (d : Delivery) : Rules Stmt Stmt.Res Exc Record Nat where
  inv := W.inv
  rely := W.rely d
  guar _ _ _ _ := True
  adm _ h o r := r.executes = true → W.permits h o
  rely_refl := W.rely_refl d
  rely_trans := W.rely_trans d

/-- From `h`, the rest `p` of the handling of `d` keeps the invariant and ends in `Q`. -/
abbrev Keeps (S : Settings) (d : Delivery) (i : Nat) {α : Type} (p : Worker α)
    (Q : Except Exc α → Record → Prop) (h : Record) : Prop :=
  (W.rules d).wp (replicas S).run i p Q h

variable {W}

/-- One statement: executed, it is recorded, and its caller has an answer or an exception. -/
theorem call {site : Site} {q : Query} {Q : Except Exc q.Res → Record → Prop}
    (hQ : ∀ out h h', Q out h → W.rely d i h h' → Q out h')
    (hrun : ∀ h₁ a b s, W.rely d i h h₁ → W.inv h₁ → W.permits h₁ ⟨site, q⟩ →
      exec q a h₁.cur = some (b, s) → W.inv (h₁.after i ⟨site, q⟩ b s) ∧
        Q (.ok b) (h₁.after i ⟨site, q⟩ b s) ∧ Q (.error .other) (h₁.after i ⟨site, q⟩ b s))
    (hfail : ∀ h₁, W.rely d i h h₁ → Q (.error .other) h₁) :
    W.Keeps S d i (Orchestrator.call site q) Q h := by
  refine Rules.wp_op ?_ ?_ ?_
  · intro h₁ h₂ a b hrely hI hadm hx
    obtain ⟨⟨b', s⟩, hs, heq⟩ := Option.map_eq_some_iff.1 hx
    obtain ⟨rfl, rfl⟩ := Prod.mk.inj heq
    obtain ⟨hI', hok, -⟩ := hrun h₁ a b' s hrely hI (hadm rfl) hs
    exact ⟨hI', trivial, fun h₃ h₂₃ => hQ _ _ _ hok h₂₃⟩
  · intro h₁ e hrely _ _
    exact ⟨trivial, fun h₂ h₁₂ => hQ _ _ _ (hfail h₁ hrely) h₁₂⟩
  · intro h₁ h₂ a b e hrely hI hadm hx
    obtain ⟨⟨b', s⟩, hs, heq⟩ := Option.map_eq_some_iff.1 hx
    obtain ⟨rfl, rfl⟩ := Prod.mk.inj heq
    obtain ⟨hI', -, herr⟩ := hrun h₁ a b' s hrely hI (hadm rfl) hs
    exact ⟨hI', trivial, fun h₃ h₂₃ => hQ _ _ _ herr h₂₃⟩

/-- One statement in front of the rest. -/
theorem bind_call {α : Type} {site : Site} {q : Query} {f : q.Res → Worker α}
    {Q : Except Exc α → Record → Prop}
    (hQ : ∀ out h h', Q out h → W.rely d i h h' → Q out h')
    (hrun : ∀ h₁ a b s, W.rely d i h h₁ → W.inv h₁ → W.permits h₁ ⟨site, q⟩ →
      exec q a h₁.cur = some (b, s) → W.inv (h₁.after i ⟨site, q⟩ b s) ∧
        W.Keeps S d i (f b) Q (h₁.after i ⟨site, q⟩ b s) ∧
        Q (.error .other) (h₁.after i ⟨site, q⟩ b s))
    (hfail : ∀ h₁, W.rely d i h h₁ → Q (.error .other) h₁) :
    W.Keeps S d i (Orchestrator.call site q >>= f) Q h := by
  refine Rules.wp.bind (call ?_ hrun hfail)
  intro out h h' hout hrely
  cases out with
  | ok b => exact Rules.wp.rely hout hrely
  | error e => exact hQ _ _ _ hout hrely

/-- A routine about whose statements nothing has to be known but `P`. -/
theorem within {α : Type} {P : Stmt → Prop} {F : Exc → Prop} {p : Worker α} (hp : p.Within P F)
    (hP : ∀ h o a b s, P o → W.inv h → W.permits h o → exec o.query a h.cur = some (b, s) →
      W.inv (h.after i o b s)) :
    W.Keeps S d i p (fun out _ => ∀ e, out = .error e → F e) h := by
  refine (Rules.wp_within (J := fun _ => True) hp (fun _ _ _ _ => trivial) ?_ trivial).mono
    fun out _ h => h.2
  intro o ho h₁ _ hI r hadm out h₂ hx
  refine ⟨?_, trivial, trivial⟩
  rcases Sys.recording_apply hx with ⟨-, rfl⟩ | ⟨a, b, s, hexec, hs, rfl⟩
  · exact hI
  · exact hP h₁ o a b s ho hI (hadm hexec) hs

/-- The invariant holds in every run whose executed statements are permitted, if every delivery is
    justified when it is received and the statements of one thread are what the others rely on. -/
theorem sound {ok : Recorded → Act Stmt Stmt.Res Exc Nat Delivery Move → Prop} {c : Recorded}
    (hpermits : ∀ c i f o, ok c (.step i f) → c.next i = some o → (f o).executes = true →
      W.permits c.shared o)
    (h₀ : W.inv noRecord)
    (hbody : ∀ d i h, W.inv h → (∀ e ∈ h.log, e.who ≠ i) →
      W.Keeps S d i (process S d) (fun _ _ => True) h)
    (hothers : ∀ c i f o a b s, ok c (.step i f) → c.next i = some o → (f o).executes = true →
      W.inv c.shared → exec o.query a c.shared.cur = some (b, s) →
      ∀ j d, j ≠ i → Sys.Handles c j d → W.rely d j c.shared (c.shared.after i o b s))
    (hr : (replicas S).Reach ok (.idle noRecord) c) : W.inv c.shared := by
  refine (Sys.Reach.sound_running (R := W.rules) (I := W.inv) (fun _ => rfl) h₀ ?_ ?_ ?_ ?_ hr).1
  · intro c i d h hr _ hI hfree hs
    have hidles := idles_receive hs
    refine ⟨W.inv_idles _ _ hidles hI, fun j d' _ => W.rely_idles d' j _ _ hidles, ?_⟩
    refine hbody d i h (W.inv_idles _ _ hidles hI) fun e he hwho => ?_
    rw [hidles.log] at he
    exact hr.entered_of_log e he (hwho ▸ hfree)
  · intro c i f d o k out h hok hi hI hx _ j d' hji hj
    rcases Sys.recording_apply hx with ⟨-, rfl⟩ | ⟨a, b, s, hexec, hs, rfl⟩
    · exact W.rely_refl d' j _
    · exact hothers c i f o a b s hok (by rw [Config.next, hi]) hexec hI hs j d' hji hj
  · intro c i f d o k hok hi hexec
    exact hpermits c i f o hok (by rw [Config.next, hi]) hexec
  · intro c e h _ hI hs
    have hidles := idles_move hs
    exact ⟨W.inv_idles _ _ hidles hI, fun j d _ => W.rely_idles d j _ _ hidles⟩

end Watch

/-! ## Recorded weeks -/

/-- Messages handled one after the other, recorded. -/
theorem weekly_recorded (S : Settings) (world : World) (names : List String)
    {ok : Recorded → Act Stmt Stmt.Res Exc Nat Delivery Move → Prop}
    (fine : Snapshot → Nat → Bool)
    (hok : ∀ (c : Snapshot) (c' : Recorded) a, c'.shared.cur = c.shared → c'.thread = c.thread →
      (∀ i f, a = .step i f → fine c i = true) → ok c' a)
    (h : allMeet S world (fun _ _ => true) fine 60
      (.event (.heartbeat 0) :: names.map (firstDelivery S 0)) 0
      ((worker S).exec (.idle .empty) (.env (.fire 0))) = true) :
    ∃ c : Recorded, (replicas S).Reach ok (.idle noRecord) c ∧
      c.shared.cur = (weekly S world names).shared := by
  let finely (c : Snapshot) (a : Action) : Prop := ∀ i f, a = .step i f → fine c i = true
  have hrun : (worker S).Reach finely (.idle .empty) (weekly S world names) :=
    (weekly_meets _ fine (fun _ _ _ _ h => nomatch h) (fun _ _ _ _ _ _ _ h => nomatch h)
      (fun _ _ _ h _ _ _ ha => by cases ha; exact h) h).1
  obtain ⟨c, hreach, hcur, -⟩ := Sys.Reach.recording hok hrun
  exact ⟨c, hreach, hcur⟩

end CanvasOS.Orchestrator
