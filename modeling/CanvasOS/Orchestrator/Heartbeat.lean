/-
  A heartbeat that is handled more than once.

  1. `sent` — the envelopes that one handling has published; they are those of the batch, in order
     (`heartbeat_upholds`).
  2. `Present` — a batch that was inserted stays in `task_state`, whatever becomes of its tasks.
  3. `heartbeat_idempotent` — so handling the heartbeat again leaves both tables as they are, and
     publishes the same ids.
-/
import CanvasOS.Orchestrator.Replicas
import CanvasOS.Orchestrator.Absorbing

namespace CanvasOS.Orchestrator

open Interleave Python

/-- `uuid.uuid5(heartbeat.event_id, f"agent_run:{task['source_task_id']}")`, the event and the name
    being those of the `task_id`. -/
def TaskEnvelope.agentRunId (e : TaskEnvelope) : TaskId :=
  ⟨e.taskId.event, "agent_run:" ++ e.taskId.name⟩

/-! ## What a handling publishes -/

/-- The envelope that a statement publishes. -/
def Stmt.envelope (o : Stmt) : Option TaskEnvelope :=
  match o.query with
  | .publishTask e => some e
  | _ => none

/-- The envelopes published so far, oldest first. -/
def sent (log : Heard Stmt Stmt.Res) : List TaskEnvelope :=
  (log.filterMap fun x => x.1.envelope).reverse

/-- What handling `i` has published, oldest first. -/
def sentBy (h : Record) (i : Nat) : List TaskEnvelope := sent (h.heard i)

/-- The statements of a handling. -/
def HeartbeatStmt (S : Settings) (event : Nat) (o : Stmt) : Prop :=
  o.query = .insertTaskBatch (S.batch event) ∨ (∃ e, o.query = .publishTask e) ∨
    ∃ msg, o.query = .completeEvent msg

/-- One handling: its statements, and the envelopes of the batch in order, as far as it got. -/
structure Sends (S : Settings) (event : Nat) (log : Heard Stmt Stmt.Res) : Prop where
  stmts : ∀ x ∈ log, HeartbeatStmt S event x.1
  batch : sent log <+: (S.batch event).map NewTask.envelope

section Routine

variable {S : Settings} {event : Nat} {log : Heard Stmt Stmt.Res}

theorem sent_cons_of_none {o : Stmt} {a : o.Res} (ho : o.envelope = none) :
    sent (⟨o, a⟩ :: log) = sent log := by
  simp only [sent, List.filterMap_cons, ho]

theorem sent_cons {o : Stmt} {a : o.Res} {e : TaskEnvelope} (ho : o.envelope = some e) :
    sent (⟨o, a⟩ :: log) = sent log ++ [e] := by
  simp only [sent, List.filterMap_cons, ho, List.reverse_cons]

/-- A statement that publishes nothing. -/
theorem Sends.quiet (h : Sends S event log) {o : Stmt} {a : o.Res} (hstmt : HeartbeatStmt S event o)
    (ho : o.envelope = none) : Sends S event (⟨o, a⟩ :: log) where
  stmts x hx := by
    rcases List.mem_cons.1 hx with rfl | hx
    · exact hstmt
    · exact h.stmts x hx
  batch := by
    rw [sent_cons_of_none ho]
    exact h.batch

/-- The rest of the batch is published in order. -/
theorem publishAll_upholds {done rest : List NewTask} (hbatch : S.batch event = done ++ rest)
    (hstmts : ∀ x ∈ log, HeartbeatStmt S event x.1) (hsent : sent log = done.map NewTask.envelope) :
    Upholds hear (Sends S event) (publishAll rest) (fun _ _ => True) log := by
  induction rest generalizing done log with
  | nil =>
    rw [List.append_nil] at hbatch
    refine ⟨⟨hstmts, ?_⟩, True.intro⟩
    rw [hsent, hbatch]
  | cons n rest ih =>
    have hlog : Sends S event log := by
      refine ⟨hstmts, ?_⟩
      rw [hsent, hbatch, List.map_append]
      exact List.prefix_append _ _
    have hbatch' : S.batch event = (done ++ [n]) ++ rest := by
      rw [hbatch, List.append_assoc]
      rfl
    have hstmts' (a : Unit) : ∀ x ∈ (⟨⟨.worker, .publishTask n.envelope⟩, a⟩ :: log :
        Heard Stmt Stmt.Res), HeartbeatStmt S event x.1 := by
      intro x hx
      rcases List.mem_cons.1 hx with rfl | hx
      · exact .inr (.inl ⟨_, rfl⟩)
      · exact hstmts x hx
    have hsent' (a : Unit) : sent (⟨⟨.worker, .publishTask n.envelope⟩, a⟩ :: log :
        Heard Stmt Stmt.Res) = (done ++ [n]).map NewTask.envelope := by
      rw [sent_cons rfl, hsent, List.map_append]
      rfl
    refine upholds_call hlog (fun a => ⟨hstmts' a, ?_⟩) (fun _ _ _ => True.intro) fun a => ?_
    · have hall : (S.batch event).map NewTask.envelope =
          (done ++ [n]).map NewTask.envelope ++ rest.map NewTask.envelope := by
        rw [hbatch', List.map_append]
      rw [hsent' a, hall]
      exact List.prefix_append _ _
    · exact ih hbatch' (hstmts' a) (hsent' a)

/-- A handling of the heartbeat, from its first statement to its last. -/
theorem heartbeat_upholds : Upholds hear (Sends S event) (processEvent S (.heartbeat event))
    (fun _ _ => True) [] := by
  have hnone : Sends S event [] :=
    ⟨fun x hx => absurd hx List.not_mem_nil, List.nil_prefix⟩
  have hhandle : Upholds hear (Sends S event) (handleHeartbeatMessage S event) (fun _ _ => True)
      [] := by
    unfold handleHeartbeatMessage
    cases hloop : S.loops (S.firedFor event) with
    | none => exact ⟨hnone, True.intro⟩
    | some L =>
      have hbatch : S.batch event = decompose L.loop event := by
        unfold Settings.batch
        rw [hloop]
      have hinsert : HeartbeatStmt S event ⟨.worker, .insertTaskBatch (decompose L.loop event)⟩ :=
        .inl (by rw [hbatch])
      refine upholds_call hnone (fun a => hnone.quiet hinsert rfl) (fun _ _ _ => True.intro)
        fun a => ?_
      have hnothing : S.batch event = [] ++ decompose L.loop event := hbatch
      exact publishAll_upholds hnothing (hnone.quiet hinsert rfl).stmts rfl
  have hcaught : Upholds hear (Sends S event)
      ((handleHeartbeatMessage S event).tryCatch fun _ => .pure ()) (fun _ _ => True) [] :=
    hhandle.tryCatch (fun _ _ _ _ => True.intro) fun e log hlog _ => ⟨hlog, True.intro⟩
  refine hcaught.bind (fun _ log hlog _ => ?_) fun _ _ _ _ => True.intro
  have hcomplete : HeartbeatStmt S event ⟨.transport, .completeEvent (.heartbeat event)⟩ :=
    .inr (.inr ⟨_, rfl⟩)
  have hlast : Upholds hear (Sends S event) (call .transport (.completeEvent (.heartbeat event)))
      (fun _ _ => True) log :=
    Upholds.hear_op hlog (fun e => ⟨hlog, True.intro⟩) fun a r _ => by
      cases r <;> exact ⟨hlog.quiet hcomplete rfl, True.intro⟩
  exact hlast.tryCatch (fun _ _ _ _ => True.intro) fun e log hlog _ => ⟨hlog, True.intro⟩

end Routine

/-! ## What stays in the tables -/

/-- Every task of the batch has its row. -/
def Present (s : State) (tasks : List NewTask) : Prop :=
  ∀ n ∈ tasks, n.taskId ∈ s.tasks.map (·.taskId)

/-- No statement takes a row away. -/
theorem exec_ids {q : Query} {a b : q.Res} {s t : State} (h : exec q a s = some (b, t))
    {u : TaskId} (hu : u ∈ s.tasks.map (·.taskId)) : u ∈ t.tasks.map (·.taskId) := by
  by_cases hq : q.calm = true
  · rw [(exec_calm hq h).ids]
    exact hu
  cases q with
  | insertTaskBatch tasks =>
    obtain ⟨r, hr, rfl⟩ := List.mem_map.1 hu
    exact List.mem_map.2 ⟨r, (exec_insertTaskBatch h).old r hr, rfl⟩
  | transition v dest reason =>
    rw [(exec_transition h).ids]
    exact hu
  | publishTask | completeTask =>
    obtain ⟨-, rfl⟩ := Prod.mk.inj (Option.some.inj h)
    exact hu
  | _ => exact absurd rfl hq

/-- `ON CONFLICT (task_id) DO NOTHING` -/
theorem foldl_insertTask_present {tasks : List NewTask} {s : State} (h : Present s tasks) :
    tasks.foldl State.insertTask s = s := by
  induction tasks with
  | nil => rfl
  | cons n tasks ih =>
    obtain ⟨r, hr, hid⟩ := List.mem_map.1 (h n List.mem_cons_self)
    have hsame : s.insertTask n = s := by
      unfold State.insertTask
      exact if_pos (List.any_eq_true.2 ⟨r, hr, by simpa using hid⟩)
    rw [List.foldl_cons, hsame]
    exact ih fun n' hn' => h n' (List.mem_cons_of_mem _ hn')

section Runs

variable {S : Settings} {c : Recorded} {s₀ : State} {event : Nat}
  {ok : Recorded → Act Stmt Stmt.Res Exc Nat Delivery Move → Prop}

/-- A batch that was inserted is there for good. -/
theorem present_run (hr : (replicas S).Reach ok (.idle ⟨s₀, [], []⟩) c) :
    ∀ e ∈ c.shared.log, ∀ tasks, e.op.query = .insertTaskBatch tasks →
      Present c.shared.cur tasks := by
  refine hr.shared_invariant (I := fun h => ∀ e ∈ h.log, ∀ tasks,
    e.op.query = .insertTaskBatch tasks → Present h.cur tasks)
    (fun e he => absurd he List.not_mem_nil) ?_ ?_ ?_
  · intro c i d h' _ hI hs e he tasks hq
    have hidle := idles_receive hs
    unfold Present
    rw [hidle.tasks]
    rw [hidle.log] at he
    exact hI e he tasks hq
  · intro c i f r o k out h' _ _ hI hs
    rcases Sys.recording_apply hs with ⟨-, rfl⟩ | ⟨a, b, t, -, hx, rfl⟩
    · exact hI
    · intro e he tasks hq
      rcases List.mem_cons.1 he with rfl | he
      · obtain ⟨site, q⟩ := o
        obtain rfl : q = .insertTaskBatch tasks := hq
        replace hx : exec (.insertTaskBatch tasks) a c.shared.cur = some (b, t) := hx
        intro n hn
        obtain ⟨row, hrow, hid⟩ := (exec_insertTaskBatch hx).inserted n hn
        exact List.mem_map.2 ⟨row, hrow, hid⟩
      · exact fun n hn => exec_ids hx (hI e he tasks hq n hn)
  · intro c e h' _ hI hs e' he' tasks hq
    have hidle := idles_move hs
    unfold Present
    rw [hidle.tasks]
    rw [hidle.log] at he'
    exact hI e' he' tasks hq

/-- What a handling has done, in any run. -/
theorem sends_run (hr : (replicas S).Reach ok (.idle ⟨s₀, [], []⟩) c) {i : Nat}
    {p : Option (Worker Unit)} (hi : c.thread i = some (.event (.heartbeat event), p)) :
    Sends S event (c.shared.heard i) := by
  let J (d : Delivery) (log : Heard Stmt Stmt.Res) : Prop :=
    ∀ event, d = .event (.heartbeat event) → Sends S event log
  have hbody (d : Delivery) : Upholds hear (J d) (process S d) (fun _ _ => True) [] := by
    by_cases hd : ∃ event, d = .event (.heartbeat event)
    · obtain ⟨event, rfl⟩ := hd
      refine (heartbeat_upholds.weaken fun log hlog event' heq => ?_).mono fun _ _ _ _ => True.intro
      obtain rfl := EventMessage.heartbeat.inj (Delivery.event.inj heq)
      exact hlog
    · exact Upholds.of_only (Prog.Only.trivial _) (fun event h => absurd ⟨event, h⟩ hd)
        fun _ _ _ _ _ _ _ _ event h => absurd ⟨event, h⟩ hd
  have hall : J (.event (.heartbeat event)) (c.shared.heard i) :=
    hr.upheld (Z := J) recording_parted (fun _ => rfl) hbody (fun _ _ h => h)
      (fun c e h' i d _ hs _ hz => by
        obtain ⟨t, -, rfl⟩ := Sys.recording_env hs
        exact hz) i _ p hi
  exact hall event rfl

/-- The batch of the heartbeat was inserted, or its loop is not known. -/
def Handled (S : Settings) (event : Nat) (h : Record) : Prop :=
  S.batch event = [] ∨ ∃ e ∈ h.log, e.op.query = .insertTaskBatch (S.batch event)

/-- Once a heartbeat was handled, handling it again leaves every row of `task_state` and of
    `task_transitions` as it is and inserts none, whatever has become of the tasks; and any two
    handlings publish, for one and the same task of the loop, the same ids. -/
theorem heartbeat_idempotent (hr : (replicas S).Reach Sys.free (.idle ⟨s₀, [], []⟩) c) :
    (Handled S event c.shared → ∀ j p f, c.thread j = some (.event (.heartbeat event), p) →
      ((replicas S).exec c (.step j f)).shared.cur.tasks = c.shared.cur.tasks ∧
      ((replicas S).exec c (.step j f)).shared.cur.transitions = c.shared.cur.transitions) ∧
    ∀ i j p q, c.thread i = some (.event (.heartbeat event), p) →
      c.thread j = some (.event (.heartbeat event), q) →
        ∀ (k : Nat) (e e' : TaskEnvelope), (sentBy c.shared i)[k]? = some e →
          (sentBy c.shared j)[k]? = some e' →
          e.taskId = e'.taskId ∧ e.agentRunId = e'.agentRunId ∧
            ((S.batch event)[k]?).map (·.taskId) = some e.taskId := by
  constructor
  · intro hhandled j p f hj
    have hpresent : Present c.shared.cur (S.batch event) := by
      rcases hhandled with hnone | ⟨e, he, hq⟩
      · rw [hnone]
        exact fun n hn => absurd hn List.not_mem_nil
      · exact present_run hr e he _ hq
    have hreach : (replicas S).Reach Sys.free (.idle ⟨s₀, [], []⟩)
        ((replicas S).exec c (.step j f)) := .act _ hr True.intro
    cases p with
    | none =>
      simp only [Sys.exec]
      rw [hj]
      exact ⟨rfl, rfl⟩
    | some p =>
      cases p with
      | pure a | throw e =>
        simp only [Sys.exec]
        rw [hj]
        exact ⟨rfl, rfl⟩
      | op o k =>
        cases happly : (f o).apply ((replicas S).run j o) c.shared with
        | none =>
          have hsame : (replicas S).exec c (.step j f) = c := by
            simp only [Sys.exec]
            rw [hj]
            simp only [happly]
          rw [hsame]
          exact ⟨rfl, rfl⟩
        | some x =>
          obtain ⟨out, h'⟩ := x
          have hexec := Sys.exec_step hj happly
          rw [hexec] at hreach ⊢
          rcases Sys.recording_apply happly with ⟨-, rfl⟩ | ⟨a, b, t, -, hx, rfl⟩
          · exact ⟨rfl, rfl⟩
          -- the statement is one of the handling
          have hstmt : HeartbeatStmt S event o := by
            have hsends := sends_run hreach (Config.put_thread.2 (.inl ⟨rfl, rfl, rfl⟩))
            refine hsends.stmts ⟨o, b⟩ ?_
            exact History.mem_heard.2 ⟨c.shared.cur, List.mem_cons_self⟩
          obtain ⟨site, q⟩ := o
          rcases hstmt with rfl | ⟨e, rfl⟩ | ⟨msg, rfl⟩
          · obtain ⟨-, rfl⟩ := Prod.mk.inj (Option.some.inj hx)
            rw [Config.put_shared, foldl_insertTask_present hpresent]
            exact ⟨rfl, rfl⟩
          · obtain ⟨-, rfl⟩ := Prod.mk.inj (Option.some.inj hx)
            exact ⟨rfl, rfl⟩
          · obtain ⟨-, rfl⟩ := Prod.mk.inj (Option.some.inj hx)
            exact ⟨rfl, rfl⟩
  · intro i j p q hi hj k e e' he he'
    have hnth {i : Nat} {p : Option (Worker Unit)} {e : TaskEnvelope}
        (hi : c.thread i = some (.event (.heartbeat event), p))
        (he : (sentBy c.shared i)[k]? = some e) :
        ((S.batch event).map NewTask.envelope)[k]? = some e := by
      obtain ⟨rest, hrest⟩ := (sends_run hr hi).batch
      have hk : k < (sent (c.shared.heard i)).length := (List.getElem?_eq_some_iff.1 he).1
      rw [← hrest, List.getElem?_append_left hk]
      exact he
    have hsame : e = e' := Option.some.inj ((hnth hi he).symm.trans (hnth hj he'))
    subst hsame
    refine ⟨rfl, rfl, ?_⟩
    have hbatch := hnth hi he
    rw [List.getElem?_map] at hbatch
    obtain ⟨n, hn, rfl⟩ := Option.map_eq_some_iff.1 hbatch
    rw [hn]
    rfl

end Runs

/-! ## A heartbeat that is handled twice -/

/-- A heartbeat is handled; another delivery of it is handled up to its second envelope, by another
    replica. -/
def beating : List (Act Stmt Stmt.Res Exc Nat Delivery Move) :=
  [.env (.fire 0), .env (.duplicateEvent (.heartbeat 0)), .enter 0 (.event (.heartbeat 0))] ++
  List.replicate 7 (.step 0 fun _ => .ok default) ++
  [.enter 1 (.event (.heartbeat 0))] ++ List.replicate 3 (.step 1 fun _ => .ok default)

/-- Both have published the draft's envelope, under the same ids, and the third envelope of the
    second leaves the tables as they are. -/
theorem heartbeat_idempotent_of_thursday :
    let c := beating.foldl (replicas thursday).exec (.idle noRecord)
    ((replicas thursday).exec c (.step 1 fun _ => .ok default)).shared.cur.tasks =
      c.shared.cur.tasks ∧
    ∃ e e', (sentBy c.shared 0)[1]? = some e ∧ (sentBy c.shared 1)[1]? = some e' ∧
      e.agentRunId = e'.agentRunId := by
  have hreach : (replicas thursday).Reach Sys.free (.idle noRecord)
      (beating.foldl (replicas thursday).exec (.idle noRecord)) := Sys.Reach.init.foldl_free _
  have hhandled : Handled thursday 0
      (beating.foldl (replicas thursday).exec (.idle noRecord)).shared := by
    right
    decide +kernel
  have hthread (i : Nat) (hi : i = 0 ∨ i = 1) : ∃ p,
      (beating.foldl (replicas thursday).exec (.idle noRecord)).thread i =
        some (.event (.heartbeat 0), p) := by
    rcases hi with rfl | rfl
    · exact ⟨_, rfl⟩
    · exact ⟨_, rfl⟩
  obtain ⟨p, hp⟩ := hthread 0 (.inl rfl)
  obtain ⟨q, hq⟩ := hthread 1 (.inr rfl)
  obtain ⟨e, he⟩ : ∃ e, (sentBy (beating.foldl (replicas thursday).exec
      (.idle noRecord)).shared 0)[1]? = some e :=
    Option.isSome_iff_exists.1 (by decide +kernel)
  obtain ⟨e', he'⟩ : ∃ e, (sentBy (beating.foldl (replicas thursday).exec
      (.idle noRecord)).shared 1)[1]? = some e :=
    Option.isSome_iff_exists.1 (by decide +kernel)
  obtain ⟨hsame, hids⟩ := @heartbeat_idempotent thursday _ _ 0 hreach
  exact ⟨(hsame hhandled 1 q _ hq).1, e, e', he, he', (hids 0 1 p q hp hq 1 e e' he he').2.1⟩

end CanvasOS.Orchestrator
