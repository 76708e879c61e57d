/-
  The dispatch gate, one message at a time.

  1. `Gated` — every task that is DISPATCHABLE, RUNNING or COMPLETED has all its dependencies
     COMPLETED, and a completed task with a handler has stored a `result_ref`.
  2. `Gated.move` — every lawful move keeps it; where a review finalises its sibling, the two must
     have the same dependencies and the same dependents (`PairedReviews`).
  3. `gated_dispatch` — so it holds in every run, and no handler is called before its task's
     dependencies are COMPLETED.
  4. `pairedReviews_of_loops` — whether the reviews are paired can be read off the loop files.
  5. `completed_unfed` — where the two reviews of a draft have different dependencies, the retry
     loop of one completes the other too early.
-/
import CanvasOS.Orchestrator.Absorbing

namespace CanvasOS.Orchestrator

open Interleave Python

/-- The states a task reaches through the gate only. -/
def TaskState.passed : TaskState → Bool
  | .dispatchable => true
  | .running => true
  | .completed => true
  | _ => false

/-- What the gate guarantees of the tables. -/
structure Gated (S : Settings) (s : State) : Prop where
  wellFormed : WellFormed S s
  fed : ∀ r ∈ s.tasks, r.state.passed = true → Fed r.dependsOn s
  stored : ∀ r ∈ s.tasks, r.state = .completed → dispatchTable r.taskType ≠ none →
    r.resultRef.isSome

/-- Task types without a handler: their tasks store no `result_ref`. -/
def withoutHandler (taskType : String) : Prop := dispatchTable taskType = none

/-- `u` has only dependencies that `t` has, and whatever depends on `u` depends on `t`. -/
structure Settings.Covers (S : Settings) (t u : TaskId) : Prop where
  dependencies : ∀ n k, S.Has n → S.Has k → n.taskId = t → k.taskId = u →
    ∀ d ∈ k.dependsOn, d ∈ n.dependsOn
  dependents : ∀ n, S.Has n → u ∈ n.dependsOn → t ∈ n.dependsOn

/-- The two reviews of a draft have the same dependencies and the same dependents. -/
def Settings.PairedReviews (S : Settings) : Prop :=
  ∀ t u, S.Siblings withoutHandler t u → S.Covers t u

/-- The dependencies of task `t` are completed. -/
def FedTask (S : Settings) (t : TaskId) (s : State) : Prop :=
  ∀ n, S.Has n → n.taskId = t → Fed n.dependsOn s

section Moves

variable {S : Settings} {s s' : State} {deps : List TaskId} {t u : TaskId} {dest : TaskState}

/-- What is completed stays so when a task moves to COMPLETED. -/
theorem Fed.moved_completed (h : Fed deps s) (hm : Moved u .completed s s') : Fed deps s' := by
  intro d hd
  obtain ⟨r, hr, hid, hst⟩ := h d hd
  refine ⟨_, hm.forth hr, TaskRow.moved_taskId.trans hid, ?_⟩
  by_cases hru : r.taskId = u
  · exact TaskRow.moved_self hru
  · rw [TaskRow.moved_of_ne hru]
    exact hst

/-- Or when a task moves that is not among them. -/
theorem Fed.moved_of_not_mem (h : Fed deps s) (hm : Moved u dest s s') (hu : u ∉ deps) :
    Fed deps s' := by
  intro d hd
  obtain ⟨r, hr, hid, hst⟩ := h d hd
  have hru : r.taskId ≠ u := fun heq => hu (heq ▸ hid ▸ hd)
  have hmem := hm.forth hr
  rw [TaskRow.moved_of_ne hru] at hmem
  exact ⟨r, hmem, hid, hst⟩

theorem FedTask.row (h : FedTask S t s) (hw : WellFormed S s) {r : TaskRow} (hr : r ∈ s.tasks)
    (hid : r.taskId = t) : Fed r.dependsOn s := by
  obtain ⟨n, hn, hmat⟩ := hw.rows r hr
  rw [hmat.dependsOn]
  exact h n hn (hmat.taskId.symm.trans hid)

theorem FedTask.of_row (hw : WellFormed S s) {r : TaskRow} (hr : r ∈ s.tasks)
    (h : Fed r.dependsOn s) : FedTask S r.taskId s := by
  obtain ⟨n, hn, hmat⟩ := hw.rows r hr
  intro k hk hid
  obtain rfl := hk.eq hn (hid.trans hmat.taskId)
  exact hmat.dependsOn ▸ h

variable {R : Regime S} {keep : TaskId → State → Prop}

/-- A lawful move undoes no completion on which another task rests: either the completed
    dependencies stay completed, or the task depends on the failed review whose message is
    handled. -/
theorem LawfulMove.fed (hw : WellFormed S s) (hl : LawfulMove R keep t s u dest)
    (hm : Moved u dest s s')
    (hcovers : S.Siblings R.via t u → dest ≠ .dispatchable → S.Covers t u)
    {n : NewTask} (hn : S.Has n) (hfed : Fed n.dependsOn s) : Fed n.dependsOn s' := by
  have hlive : ∀ r ∈ s.tasks, r.taskId = u → r.state ≠ .completed → Fed n.dependsOn s' :=
    fun r hr hid hst => hfed.released hw hm ⟨r, hr, hid, hst⟩
  cases hl with
  | run hr hid hst _ =>
    refine hlive _ hr hid ?_
    rcases hst with hst | hst
    · rw [hst]
      decide
    · exact not_completed_of_not_terminal hst.not_terminal
  | complete _ _ _ _ _ => exact hfed.moved_completed hm
  | block hr hid hst => exact hlive _ hr hid (not_completed_of_not_terminal hst.not_terminal)
  | retry hr hid hst => exact hlive _ hr hid (not_completed_of_not_terminal hst)
  | dead hr hid hst => exact hlive _ hr hid (not_completed_of_not_terminal hst)
  | release hr hst _ => exact hlive _ hr rfl (by rw [hst]; decide)
  | completeOther _ _ _ _ _ _ _ => exact hfed.moved_completed hm
  | blockOther hr hid hst hsib =>
    -- whatever depends on the sibling depends on the failed task as well
    refine hfed.moved_of_not_mem hm fun hmem => ?_
    obtain ⟨r', hr', hid', hst'⟩ := hfed t ((hcovers hsib (by decide)).dependents n hn hmem)
    obtain rfl := hw.unique hr hr' (hid.trans hid'.symm)
    rw [hst] at hst'
    cases hst'

/-- The moved task has its dependencies completed if it needs to. -/
theorem LawfulMove.self_fed (hw : WellFormed S s) (hkeep : keep t s → FedTask S t s)
    (hl : LawfulMove R keep t s u dest)
    (hcovers : S.Siblings R.via t u → dest ≠ .dispatchable → S.Covers t u)
    (hdest : dest.passed = true) {r : TaskRow} (hr : r ∈ s.tasks) (hid : r.taskId = u) :
    Fed r.dependsOn s := by
  cases hl with
  | run _ _ _ hk => exact (hkeep hk).row hw hr hid
  | complete _ _ _ hk _ => exact (hkeep hk).row hw hr hid
  | block | retry | dead | blockOther => cases hdest
  | release hr' _ hfed => rwa [hw.unique hr hr' hid]
  | completeOther hown hoid _ hk hr' hsib _ =>
    obtain ⟨n, hn, hmat⟩ := hw.rows r hr
    obtain ⟨k, hkhas, hkmat⟩ := hw.rows _ hown
    intro d hd
    refine (hkeep hk).row hw hown hoid d ?_
    rw [hkmat.dependsOn]
    exact (hcovers hsib (by decide)).dependencies k n hkhas hn (hkmat.taskId.symm.trans hoid)
      (hmat.taskId.symm.trans hid) d (hmat.dependsOn ▸ hd)

/-- The moved task has stored a `result_ref` if it needs to. -/
theorem LawfulMove.self_stored (hw : WellFormed S s) (hl : LawfulMove R keep t s u dest)
    (hdest : dest = .completed) {r : TaskRow} (hr : r ∈ s.tasks) (hid : r.taskId = u)
    (htype : dispatchTable r.taskType ≠ none) : r.resultRef.isSome := by
  cases hl with
  | run | block | retry | dead | release | blockOther => cases hdest
  | complete hr' hid' _ _ href =>
    obtain rfl := hw.unique hr hr' (hid.trans hid'.symm)
    exact href htype
  | completeOther _ _ _ _ hr' _ href =>
    obtain rfl := hw.unique hr hr' hid
    exact href

/-- Every lawful move keeps the gate's guarantee. -/
theorem Gated.move (hg : Gated S s) (hkeep : keep t s → FedTask S t s)
    (hl : LawfulMove R keep t s u dest) (hm : Moved u dest s s')
    (hcovers : S.Siblings R.via t u → dest ≠ .dispatchable → S.Covers t u) : Gated S s' := by
  refine ⟨hg.wellFormed.moved hm, fun r' hr' hst => ?_, fun r' hr' hst htype => ?_⟩
  · obtain ⟨r, hr, rfl⟩ := hm.back hr'
    rw [TaskRow.moved_dependsOn]
    have hfed : Fed r.dependsOn s := by
      by_cases hru : r.taskId = u
      · rw [TaskRow.moved_self hru] at hst
        exact hl.self_fed hg.wellFormed hkeep hcovers hst hr hru
      · rw [TaskRow.moved_of_ne hru] at hst
        exact hg.fed r hr hst
    obtain ⟨n, hn, hmat⟩ := hg.wellFormed.rows r hr
    rw [hmat.dependsOn] at hfed ⊢
    exact hl.fed hg.wellFormed hm hcovers hn hfed
  · obtain ⟨r, hr, rfl⟩ := hm.back hr'
    rw [TaskRow.moved_taskType] at htype
    rw [TaskRow.moved_resultRef]
    by_cases hru : r.taskId = u
    · rw [TaskRow.moved_self hru] at hst
      exact hl.self_stored hg.wellFormed hst hr hru htype
    · rw [TaskRow.moved_of_ne hru] at hst
      exact hg.stored r hr hst htype

end Moves

namespace Gated

variable {S : Settings} {s t : State}

theorem empty : Gated S .empty :=
  ⟨.empty, fun _ h => absurd h List.not_mem_nil, fun _ h => absurd h List.not_mem_nil⟩

theorem calm (h : Gated S s) (hc : Calm s t) : Gated S t := by
  refine ⟨h.wellFormed.calm hc, fun r' hr' hst => ?_, fun r' hr' hst htype => ?_⟩
  · obtain ⟨r, hr, hf⟩ := hc.back r' hr'
    rw [hf.dependsOn]
    exact (h.fed r hr (hf.state ▸ hst)).calm hc
  · obtain ⟨r, hr, hf⟩ := hc.back r' hr'
    exact hf.resultRef (h.stored r hr (hf.state ▸ hst) (hf.taskType ▸ htype))

/-- The rows stand still. -/
theorem of_tasks (h : Gated S s) (hw : WellFormed S t) (ht : t.tasks = s.tasks) : Gated S t := by
  refine ⟨hw, fun r hr hst d hd => ?_, fun r hr => h.stored r (ht ▸ hr)⟩
  rw [ht] at hr ⊢
  exact h.fed r hr hst d hd

/-- A fresh task without dependencies is dispatchable, any other is pending. -/
theorem grown {event : Nat} (h : Gated S s) (hg : Grown (S.batch event) s t) : Gated S t := by
  have hfed : ∀ deps, Fed deps s → Fed deps t := fun deps hf d hd => by
    obtain ⟨r, hr, hid, hst⟩ := hf d hd
    exact ⟨r, hg.old r hr, hid, hst⟩
  refine ⟨h.wellFormed.grown hg, fun r hr hst => ?_, fun r hr hst htype => ?_⟩
  · rcases hg.new r hr with hr | ⟨⟨n, hn, rfl⟩, -⟩
    · exact hfed _ (h.fed r hr hst)
    · simp only [NewTask.toRow] at hst ⊢
      split at hst
      · rename_i hnil
        rw [hnil]
        exact fun d hd => absurd hd List.not_mem_nil
      · cases hst
  · rcases hg.new r hr with hr | ⟨⟨n, hn, rfl⟩, -⟩
    · exact h.stored r hr hst htype
    · simp only [NewTask.toRow] at hst
      split at hst <;> cases hst

/-- Lawful statements keep the gate's guarantee. -/
theorem lawful {R : Regime S} {keep : TaskId → State → Prop} {d : Delivery} {o : Stmt}
    {a b : o.Res} (h : Gated S s) (hkeep : ∀ u, keep u s → FedTask S u s)
    (hl : Lawful R keep d o s) (hrun : exec o.query a s = some (b, t))
    (hcovers : ∀ m u dest reason, d = .task m → o.query = .transition u dest reason →
      S.Siblings R.via m.envelope.taskId u → dest ≠ .dispatchable → S.Covers m.envelope.taskId u) :
    Gated S t := by
  have hw := h.wellFormed.lawful hl hrun
  obtain ⟨site, q⟩ := o
  by_cases hq : q.calm = true
  · exact h.calm (exec_calm hq hrun)
  cases q with
  | insertTaskBatch batch =>
    obtain ⟨event, -, rfl⟩ := hl
    exact h.grown (exec_insertTaskBatch hrun)
  | transition u dest reason =>
    obtain ⟨m, rfl, hmove⟩ := hl
    exact h.move (hkeep _) hmove (exec_transition hrun) (hcovers m u dest reason rfl rfl)
  | publishTask e =>
    obtain ⟨-, rfl⟩ := Prod.mk.inj (Option.some.inj hrun)
    exact h.of_tasks hw rfl
  | completeTask m =>
    obtain ⟨-, rfl⟩ := Prod.mk.inj (Option.some.inj hrun)
    exact h.of_tasks hw rfl
  | _ => exact absurd rfl hq

end Gated

/-! ## The gate in a run -/

/-- Any statement may raise but the reads of the gate: a task whose gate could not be read is taken
    for one that has failed, and tried again without it. -/
def gateAnswered (S : Settings) : Regime S where
  adm _ o r := o.site = .gate → o.query.readsTasks = true → r.answers = true
  via := withoutHandler
  prompt := False
  eager := False
  answered_of_prompt := False.elim
  answered_of_eager := False.elim
  uncounted_of_eager := False.elim
  own_of_eager := False.elim
  distinct_of_eager := S.distinct_of_false

/-- One message at a time, and every read of the gate is answered. -/
def GateAnswered (c : Snapshot) (a : Action) : Prop :=
  OneAtATime c a ∧ ∀ i f o, a = .step i f → c.next i = some o → o.site = .gate →
    o.query.readsTasks = true → (f o).answers = true

/-- An ancestor that a review looks through tasks without a handler for is completed. -/
theorem Gated.ancestor {S : Settings} {s : State} {t a : TaskId} (h : Gated S s)
    (hk : FedTask S t s) (hl : S.Lineage withoutHandler t a) :
    ∃ r ∈ s.tasks, r.taskId = a ∧ r.state = .completed := by
  induction hl with
  | parent hn hid ha => exact hk _ hn hid _ ha
  | step _ hn _ ha ih =>
    obtain ⟨r, hr, hid, hst⟩ := ih
    obtain ⟨k, hkhas, hmat⟩ := h.wellFormed.rows r hr
    obtain rfl := hkhas.eq hn (hmat.taskId.symm.trans hid)
    exact h.fed r hr (by rw [hst]; rfl) _ (hmat.dependsOn ▸ ha)

/-- The gate's guarantee is an invariant. -/
def gating {S : Settings} (hpaired : S.PairedReviews) : Upkeep (gateAnswered S) where
  idle := ⟨Gated S, fun _ _ hc h => h.calm hc⟩
  inv _ := Gated S
  keep := FedTask S
  wellFormed _ _ h := h.wellFormed
  inv_calm _ _ _ hc h := h.calm hc
  keep_calm _ _ _ hc h n hn hid := (h n hn hid).calm hc
  gate _ _ h r hr hst := .of_row h.wellFormed hr (h.fed r hr (by rw [hst]; rfl))
  unread := by
    rintro m q s ⟨r, hadm, hr⟩ hq
    rw [hadm rfl hq] at hr
    cases hr
  via m s h hk r hr hlin href := by
    obtain ⟨r', hr', hid, hst⟩ := h.ancestor hk hlin
    obtain rfl := h.wellFormed.unique hr' hr hid
    by_contra hne
    have hsome := h.stored r' hr' hst hne
    rw [href] at hsome
    cases hsome
  step _ _ _ _ _ _ h hl _ hrun _ :=
    h.lawful (fun _ hk => hk) hl hrun fun _ _ _ _ _ _ hsib _ => hpaired _ _ hsib
  keep_step m u dest s s' h hk hl hm n hn hid :=
    hl.fed h.wellFormed hm (fun hsib _ => hpaired _ _ hsib) hn (hk n hn hid)
  settled _ _ h _ := h

/-- One message at a time and with the gate's reads answered, if the two reviews of a draft have the
    same dependencies and dependents: every task that is DISPATCHABLE, RUNNING or COMPLETED has all
    its dependencies COMPLETED, and so has every task whose handler is about to be called. -/
theorem gated_dispatch {S : Settings} (hpaired : S.PairedReviews) {c : Snapshot}
    (hr : (worker S).Reach GateAnswered (.idle .empty) c) :
    (∀ r ∈ c.shared.tasks, r.state.passed = true → ∀ d ∈ r.dependsOn,
      ∃ r' ∈ c.shared.tasks, r'.taskId = d ∧ r'.state = .completed) ∧
    ∀ i site t, c.next i = some ⟨site, .invoke t⟩ → ∀ r ∈ c.shared.tasks, r.taskId = t →
      ∀ d ∈ r.dependsOn, ∃ r' ∈ c.shared.tasks, r'.taskId = d ∧ r'.state = .completed := by
  have hserves := (gating hpaired).sound (fun _ _ _ h => h.1) (fun c i f d o k hok hi hsite hq => ?_)
    Gated.empty (fun c i d s _ hidle hs => ⟨?_, ?_⟩) (fun _ _ _ _ _ _ _ h => h) hr
  rotate_left
  · refine hok.2 i f o rfl ?_ hsite hq
    rw [Config.next, hi]
  · exact Gated.of_tasks hidle (WellFormed.receive hidle.wellFormed hs) (receive_tasks hs)
  · cases d with
    | task m =>
      obtain ⟨hdelivered, -, rfl⟩ := receive_task hs
      exact ⟨hdelivered, List.mem_cons_self, False.elim, False.elim, False.elim⟩
    | event msg => trivial
  have hgated : Gated S c.shared := by
    rcases hserves with ⟨-, h⟩ | ⟨i, d, o, k, h⟩
    · exact h
    · exact h.inv
  refine ⟨hgated.fed, fun i site t hnext r hrow hid => ?_⟩
  rcases hserves with ⟨hquiet, -⟩ | ⟨j, d, o, k, hj⟩
  · unfold Config.next at hnext
    split at hnext
    · exact absurd ⟨_, _, _, ‹_›⟩ (hquiet i)
    · cases hnext
  · have hij : i = j := by
      unfold Config.next at hnext
      split at hnext
      · exact hj.only i ⟨_, _, _, ‹_›⟩
      · cases hnext
    subst hij
    rw [Config.next, hj.thread] at hnext
    obtain rfl := Option.some.inj hnext
    -- the call of a handler may be answered
    obtain ⟨-, ⟨m, -, htask, hk⟩, -⟩ := hj.wp c.shared (.refl _) hj.inv (.ok ())
      (fun _ hq => by cases hq) (.ok ()) c.shared rfl
    exact (htask ▸ hk : FedTask S t c.shared).row hgated.wellFormed hrow hid

/-! ## Loops whose reviews come in pairs -/

/-- Whatever depends on one of two reviews of different kinds depends on the other. -/
def LoopDefinition.Joined (loop : LoopDefinition) : Prop :=
  ∀ t ∈ loop.tasks, ∀ u ∈ loop.tasks, ∀ kind ∈ [ReviewKind.brandSteward, .factCheck],
    t.taskType = kind.taskType → u.taskType = kind.other.taskType →
    ∀ v ∈ loop.tasks, u.taskId ∈ v.dependsOn → t.taskId ∈ v.dependsOn

instance (loop : LoopDefinition) : Decidable loop.Joined := by
  unfold LoopDefinition.Joined
  infer_instance

/-- Two reviews of different kinds have the same dependencies. -/
def LoopDefinition.Level (loop : LoopDefinition) : Prop :=
  ∀ t ∈ loop.tasks, ∀ u ∈ loop.tasks, ∀ kind ∈ [ReviewKind.brandSteward, .factCheck],
    t.taskType = kind.taskType → u.taskType = kind.other.taskType →
    ∀ d ∈ u.dependsOn, d ∈ t.dependsOn

instance (loop : LoopDefinition) : Decidable loop.Level := by
  unfold LoopDefinition.Level
  infer_instance

/-- A task of a batch is one of its loop. -/
theorem Settings.Has.loop {S : Settings} {n : NewTask} (h : S.Has n) :
    ∃ L : AcceptedLoop, S.loops (S.firedFor n.taskId.event) = some L ∧ ∃ t ∈ L.loop.tasks,
      n = ⟨⟨n.taskId.event, t.taskId⟩, t.taskType, t.dependsOn.map (⟨n.taskId.event, ·⟩),
        L.loop.loopId⟩ := by
  unfold Settings.Has Settings.batch at h
  split at h
  · exact absurd h List.not_mem_nil
  · obtain ⟨t, ht, heq⟩ := List.mem_map.1 h
    exact ⟨_, ‹_›, t, ht, heq.symm⟩

/-- A dependency belongs to the batch of its dependent. -/
theorem Settings.Has.event {S : Settings} {n : NewTask} (h : S.Has n) {d : TaskId}
    (hd : d ∈ n.dependsOn) : d.event = n.taskId.event := by
  obtain ⟨L, -, t, -, heq⟩ := h.loop
  rw [heq] at hd
  obtain ⟨name, -, rfl⟩ := List.mem_map.1 hd
  rfl

theorem Settings.Lineage.event {S : Settings} {via : String → Prop} {t a : TaskId}
    (h : S.Lineage via t a) : a.event = t.event := by
  induction h with
  | parent hn hid ha => exact (hn.event ha).trans (congrArg _ hid)
  | step _ hn _ ha ih => exact (hn.event ha).trans ih

/-- Names that are equal in a batch are equal in its loop. -/
theorem mem_of_mem_map {event : Nat} {name : String} {names : List String}
    (h : (⟨event, name⟩ : TaskId) ∈ names.map (⟨event, ·⟩)) : name ∈ names := by
  obtain ⟨_, hmem, heq⟩ := List.mem_map.1 h
  cases heq
  exact hmem

/-- Two siblings are tasks of one loop, and reviews of different kinds. -/
theorem Settings.Siblings.loop {S : Settings} {via : String → Prop} {t u : TaskId}
    (h : S.Siblings via t u) : ∃ L : AcceptedLoop, S.loops (S.firedFor t.event) = some L ∧
      u.event = t.event ∧ ∃ kind ∈ [ReviewKind.brandSteward, .factCheck],
      ∃ x ∈ L.loop.tasks, ∃ y ∈ L.loop.tasks, x.taskId = t.name ∧ y.taskId = u.name ∧
        x.taskType = kind.taskType ∧ y.taskType = kind.other.taskType := by
  obtain ⟨kind, review, other, draft, h⟩ := h
  obtain ⟨L, hL, x, hx, hreview⟩ := h.review_has.loop
  obtain ⟨L', hL', y, hy, hother⟩ := h.other_has.loop
  have hevent : other.taskId.event = review.taskId.event := by
    rw [← h.other_has.event h.reviewed, h.lineage.event, h.review_id]
  rw [hevent] at hL'
  obtain rfl := Option.some.inj (hL.symm.trans hL')
  have hx_id : x.taskId = t.name := by rw [← h.review_id, hreview]
  have hy_id : y.taskId = u.name := by rw [← h.other_id, hother]
  refine ⟨L, h.review_id ▸ hL, by rw [← h.other_id, hevent, h.review_id], kind, ?_, x, hx, y, hy,
    hx_id, hy_id, ?_, ?_⟩
  · cases kind <;> decide
  · rw [← h.review_type, hreview]
  · rw [← h.other_type, hother]

/-- A task of a batch, looked up by its id. -/
theorem Settings.Has.lookup {S : Settings} {n : NewTask} (h : S.Has n) {t : TaskId}
    (hid : n.taskId.event = t.event) {L : AcceptedLoop} (hL : S.loops (S.firedFor t.event) = some L) :
    ∃ v ∈ L.loop.tasks, v.taskId = n.taskId.name ∧ n.dependsOn = v.dependsOn.map (⟨t.event, ·⟩) := by
  obtain ⟨L', hL', v, hv, heq⟩ := h.loop
  rw [hid] at hL' heq
  obtain rfl := Option.some.inj (hL.symm.trans hL')
  exact ⟨v, hv, by rw [heq], by rw [heq]⟩

/-- It is enough to look at the loop files. -/
theorem pairedReviews_of_loops {S : Settings}
    (h : ∀ event L, S.loops (S.firedFor event) = some L → L.loop.Joined ∧ L.loop.Level) :
    S.PairedReviews := by
  intro t u hsib
  obtain ⟨L, hL, hevent, kind, hkind, x, hx, y, hy, hx_id, hy_id, hx_type, hy_type⟩ := hsib.loop
  obtain ⟨hjoined, hlevel⟩ := h _ L hL
  refine ⟨fun n k hn hk hnt hku d hd => ?_, fun n hn hu => ?_⟩
  · obtain ⟨x', hx', hx'_id, hx'_deps⟩ := hn.lookup (congrArg TaskId.event hnt) hL
    obtain ⟨y', hy', hy'_id, hy'_deps⟩ := hk.lookup ((congrArg TaskId.event hku).trans hevent) hL
    obtain rfl := L.eq_of_taskId hx hx' (hx_id.trans (hnt ▸ hx'_id.symm))
    obtain rfl := L.eq_of_taskId hy hy' (hy_id.trans (hku ▸ hy'_id.symm))
    rw [hy'_deps] at hd
    obtain ⟨name, hname, rfl⟩ := List.mem_map.1 hd
    rw [hx'_deps]
    exact List.mem_map.2 ⟨name, hlevel x hx y hy kind hkind hx_type hy_type name hname, rfl⟩
  · obtain ⟨v, hv, -, hv_deps⟩ := hn.lookup ((hn.event hu).symm.trans hevent) hL
    rw [hv_deps] at hu ⊢
    have hu' : (⟨t.event, y.taskId⟩ : TaskId) ∈ v.dependsOn.map (⟨t.event, ·⟩) := by
      rw [hy_id, ← hevent]
      rw [← hevent] at hu
      exact hu
    have hmem := hjoined x hx y hy kind hkind hx_type hy_type v hv (mem_of_mem_map hu')
    rw [hx_id] at hmem
    exact List.mem_map.2 ⟨_, hmem, rfl⟩

/-! ## A review that is completed too early

    The fact check waits for another task as well; the brand review's retry loop does not. -/

/-- Messages handled one after the other, each statement answered. -/
theorem weekly_answered {S : Settings} {world : World} {names : List String}
    (h : allMeet S world (fun _ _ => true) (fun _ _ => true) 60
      (.event (.heartbeat 0) :: names.map (firstDelivery S 0)) 0
      ((worker S).exec (.idle .empty) (.env (.fire 0))) = true) :
    (worker S).Reach GateAnswered (.idle .empty) (weekly S world names) :=
  (weekly_meets _ _ (fun _ _ => ⟨trivial, fun _ _ _ h => nomatch h⟩)
    (fun _ _ _ hq _ => ⟨hq, fun _ _ _ h => nomatch h⟩)
    (fun _ _ _ _ hf => ⟨trivial, fun i f o ha _ _ _ => by cases ha; exact hf o⟩) h).1

/-- A loop whose fact check depends on a source list, unlike its brand review. -/
def unevenLoop : LoopDefinition :=
  ⟨"1", "uneven", [⟨"brief", "draft-research-brief", []⟩,
    ⟨"draft", "draft-carousel-post", ["brief"]⟩, ⟨"sources", "propose-sources", []⟩,
    ⟨"brand", "qa-review-brand-steward", ["draft"]⟩,
    ⟨"fact", "qa-review-fact-check", ["draft", "sources"]⟩,
    ⟨"friday", "request-approval", ["brand", "fact"]⟩]⟩

theorem unevenLoop_accepted : validateLoopFile unevenLoop = .ok unevenLoop := rfl

def uneven : Settings := ⟨fun _ => some ⟨unevenLoop, unevenLoop_accepted⟩, fun _ => "uneven"⟩

/-- The first draft is too colourful; its successor passes both reviews. -/
def unevenWorld : World
  | .work _ _, _ => (⟨[("vault_asset_id", .str "asset-1")], true, []⟩ : Outcome)
  | .review _ _, s => (⟨.null, "run", if regenerated s then [] else ["tone"]⟩ : Reviewed)
  | _, _ => default

/-- The fact check is completed, and the source list is not. -/
theorem completed_unfed : unevenLoop.Joined ∧
    ¬ ∀ c, (worker uneven).Reach GateAnswered (.idle .empty) c →
      ∀ r ∈ c.shared.tasks, r.state.passed = true → ∀ d ∈ r.dependsOn,
        ∃ r' ∈ c.shared.tasks, r'.taskId = d ∧ r'.state = .completed :=
  ⟨by decide, fun h =>
    absurd (h (weekly uneven unevenWorld ["brief", "draft", "brand"])
      (weekly_answered (by decide +kernel))) (by decide +kernel)⟩

/-- With equal dependencies, the review that is completed for the other had its turn. -/
theorem gated_dispatch_of_thursday : ∃ c : Snapshot,
    (∃ r ∈ c.shared.tasks, r.taskId = ⟨0, "friday"⟩ ∧ r.state = .dispatchable) ∧
    (∀ r ∈ c.shared.tasks, r.state.passed = true → ∀ d ∈ r.dependsOn,
      ∃ r' ∈ c.shared.tasks, r'.taskId = d ∧ r'.state = .completed) := by
  have hpaired : thursday.PairedReviews := pairedReviews_of_loops fun event L hL => by
    obtain rfl := Option.some.inj hL
    exact ⟨by decide, by decide⟩
  exact ⟨weekly thursday unevenWorld ["brief", "draft", "brand"], by decide +kernel,
    (gated_dispatch hpaired (weekly_answered (by decide +kernel))).1⟩

end CanvasOS.Orchestrator
