/-
  Triples for the parts the handlers are made of.

  1. **Calls** (`Upkeep.reads`, `Upkeep.moves`) — one statement that leaves the rows alone, and one
     transition.
  2. **Release** (`Upkeep.advance`) — `advance_dependents` after a completion, in front of any fact
     `F` that a release does not disturb.
  3. **Lineage** (`Upkeep.walk_spec`) — a walk that starts among the tasks `G` stays among them.
-/
import CanvasOS.Orchestrator.Lawful

namespace CanvasOS.Orchestrator

open Interleave Python

variable {S : Settings} {R : Regime S} (U : Upkeep R) {i : Nat} {d : Delivery} {m : TaskMessage}

namespace Upkeep

/-- The obligations of a routine that handles `d`. -/
def alone (d : Delivery) : Alone Stmt Stmt.Res Exc State where
  inv := U.inv d
  guar := fun o s _ => Lawful R U.keep d o s
  adm := R.adm d

/-- `{P} p {Q | E}` while `d` is handled. -/
abbrev Spec {α : Type} (i : Nat) (d : Delivery) (P : Assertion Calm) (p : Worker α)
    (Q : α → Assertion Calm) (E : Exc → Assertion Calm) : Prop :=
  Triple (U.alone d) (fun (_ : Nat) (o : Stmt) => exec o.query) i P p Q E

/-- The statement `o` has raised, and `P` holds. -/
def raised (R : Regime S) (d : Delivery) (o : Stmt) (P : Assertion Calm) (e : Exc) :
    Assertion Calm :=
  .and (.fact (e = .other ∧ R.Fails d o)) P

variable {U}

theorem lawful_of_calm {site : Site} {q : Query} (hq : q.calm = true) (hi : ∀ t, q ≠ .invoke t)
    {keep : TaskId → State → Prop} (s : State) : Lawful R keep d ⟨site, q⟩ s := by
  cases q with
  | insertTaskBatch | transition | publishTask | completeTask => cases hq
  | invoke t => exact absurd rfl (hi t)
  | _ => trivial

theorem executes_of {o : Stmt} {a : o.Res} (h : (U.alone d).Executes o a) : R.Executes d o := by
  rcases h with h | ⟨e, h⟩
  · exact ⟨_, h, rfl⟩
  · exact ⟨_, h, rfl⟩

/-- One statement that leaves the rows alone. -/
theorem reads_lawful {site : Site} {q : Query} {P : Assertion Calm} {M : q.Res → Assertion Calm}
    (hq : q.calm = true) (hl : ∀ s, P s → Lawful R U.keep d ⟨site, q⟩ s)
    (hM : ∀ s a b s', P s → U.inv d s → R.Executes d ⟨site, q⟩ → exec q a s = some (b, s') →
      M b s') :
    U.Spec i d P (call site q) (fun b => .and P (M b)) (raised R d ⟨site, q⟩ P) := by
  refine Triple.op (M := fun b => .and P (M b)) (fun s a b t hP hI hx hrun => ?_)
    (fun s _ hP _ _ => hl s hP) (fun b => Triple.pure fun s h => h) (fun e he => ?_)
    (fun a b e he => ?_)
  · have hc := exec_calm hq hrun
    exact ⟨U.inv_calm d s t hc hI, hl s hP, P.stable s t hc hP,
      hM s a b t hP hI (executes_of hx) hrun⟩
  · exact Triple.throw fun s h => ⟨⟨rfl, _, he, rfl⟩, h⟩
  · exact Triple.throw fun s h => ⟨⟨rfl, _, he, rfl⟩, h.1⟩

theorem reads {site : Site} {q : Query} {P : Assertion Calm} {M : q.Res → Assertion Calm}
    (hq : q.calm = true) (hi : ∀ t, q ≠ .invoke t)
    (hM : ∀ s a b s', P s → U.inv d s → exec q a s = some (b, s') → M b s') :
    U.Spec i d P (call site q) (fun b => .and P (M b)) (raised R d ⟨site, q⟩ P) :=
  reads_lawful hq (fun s _ => lawful_of_calm hq hi s) fun s a b s' hP hI _ => hM s a b s' hP hI

/-- One statement whose answer says nothing about the rows. -/
theorem calls {site : Site} {q : Query} {P : Assertion Calm} (hq : q.calm = true)
    (hi : ∀ t, q ≠ .invoke t) :
    U.Spec i d P (call site q) (fun _ => P) (raised R d ⟨site, q⟩ P) :=
  (reads (M := fun _ => .fact True) hq hi fun _ _ _ _ _ _ _ => trivial).post (fun _ _ h => h.1)
    fun _ _ h => h

/-- One statement of another kind. -/
theorem acts {site : Site} {q : Query} {P : Assertion Calm} {M : q.Res → Assertion Calm}
    (hq : q.calm = false) (hl : ∀ s, P s → U.inv d s → Lawful R U.keep d ⟨site, q⟩ s)
    (hM : ∀ s a b s', P s → U.inv d s → U.inv d s' → R.Executes d ⟨site, q⟩ →
      exec q a s = some (b, s') → M b s') :
    U.Spec i d P (call site q) M (raised R d ⟨site, q⟩ (.or P (.any M))) := by
  refine Triple.op (M := M) (fun s a b t hP hI hx hrun => ?_) (fun s _ hP hI _ => hl s hP hI)
    (fun b => Triple.pure fun s h => h) (fun e he => ?_) (fun a b e he => ?_)
  · have hI' := U.step d ⟨site, q⟩ a s b t hI (hl s hP hI) (executes_of hx) hrun hq
    exact ⟨hI', hl s hP hI, hM s a b t hP hI hI' (executes_of hx) hrun⟩
  · exact Triple.throw fun s h => ⟨⟨rfl, _, he, rfl⟩, .inl h⟩
  · exact Triple.throw fun s h => ⟨⟨rfl, _, he, rfl⟩, .inr ⟨b, h⟩⟩

/-- One transition. -/
theorem moves {site : Site} {u : TaskId} {dest : TaskState} {reason : TransitionReason}
    {P Q : Assertion Calm}
    (hl : ∀ s, P s → U.inv (.task m) s → LawfulMove R U.keep m.envelope.taskId s u dest)
    (hQ : ∀ s s', P s → U.inv (.task m) s → U.inv (.task m) s' →
      R.Executes (.task m) ⟨site, .transition u dest reason⟩ → Moved u dest s s' → Q s') :
    U.Spec i (.task m) P (call site (.transition u dest reason)) (fun _ => Q)
      (raised R (.task m) ⟨site, .transition u dest reason⟩ (.or P Q)) :=
  Triple.post (acts rfl (fun s hP hI => ⟨m, rfl, hl s hP hI⟩)
    fun s _ _ s' hP hI hI' hx hrun => hQ s s' hP hI hI' hx (exec_transition hrun))
    (fun _ _ h => h) fun _ _ h => ⟨h.1, h.2.imp_right fun ⟨_, h⟩ => h⟩

/-! The same three rules in front of a continuation: what the statement raises ends the routine. -/

section

variable {α : Type} {site : Site} {q : Query} {P : Assertion Calm} {Q : α → Assertion Calm}
  {E : Exc → Assertion Calm}

theorem bind_reads {f : q.Res → Worker α} {M : q.Res → Assertion Calm} (hq : q.calm = true)
    (hi : ∀ t, q ≠ .invoke t)
    (hM : ∀ s a b s', P s → U.inv d s → exec q a s = some (b, s') → M b s')
    (hf : ∀ b, U.Spec i d (.and P (M b)) (f b) Q E)
    (hE : ∀ e s, raised R d ⟨site, q⟩ P e s → E e s) : U.Spec i d P (call site q >>= f) Q E :=
  Triple.bind ((reads hq hi hM).post (fun _ _ h => h) hE) hf

theorem bind_calls {f : q.Res → Worker α} (hq : q.calm = true) (hi : ∀ t, q ≠ .invoke t)
    (hf : ∀ b, U.Spec i d P (f b) Q E) (hE : ∀ e s, raised R d ⟨site, q⟩ P e s → E e s) :
    U.Spec i d P (call site q >>= f) Q E :=
  Triple.bind ((calls hq hi).post (fun _ _ h => h) hE) hf

theorem bind_moves {u : TaskId} {dest : TaskState} {reason : TransitionReason}
    {f : Unit → Worker α} (P' : Assertion Calm)
    (hl : ∀ s, P s → U.inv (.task m) s → LawfulMove R U.keep m.envelope.taskId s u dest)
    (hP' : ∀ s s', P s → U.inv (.task m) s → U.inv (.task m) s' →
      R.Executes (.task m) ⟨site, .transition u dest reason⟩ → Moved u dest s s' → P' s')
    (hf : U.Spec i (.task m) P' (f ()) Q E)
    (hE : ∀ e s, raised R (.task m) ⟨site, .transition u dest reason⟩ (.or P P') e s → E e s) :
    U.Spec i (.task m) P (call site (.transition u dest reason) >>= f) Q E :=
  Triple.bind ((moves hl hP').post (fun _ _ h => h) hE) fun _ => hf

end

/-! ## Release of the dependents -/

/-- A `count(*)` of completed rows that reaches the number of dependencies proves them completed;
    one that does not, disproves it when they are distinct. -/
theorem countCompleted_spec {deps : List TaskId} {a b : Nat} {s s' : State}
    (hw : WellFormed S s) (h : exec (.countCompleted deps) a s = some (b, s')) :
    s' = s ∧ (b = deps.length → Fed deps s) ∧ (deps.Nodup → b ≠ deps.length → Unfed deps s) := by
  obtain ⟨hb, rfl⟩ := Prod.mk.inj (Option.some.inj h)
  let counted := s.tasks.filter fun r => r.taskId ∈ deps && r.state == .completed
  let ids := counted.map (·.taskId)
  have hmem : ∀ v, v ∈ ids ↔ v ∈ deps ∧ ∃ r ∈ s.tasks, r.taskId = v ∧ r.state = .completed := by
    intro v
    constructor
    · intro hv
      obtain ⟨r, hr, rfl⟩ := List.mem_map.1 hv
      obtain ⟨hrs, hp⟩ := List.mem_filter.1 hr
      simp only [Bool.and_eq_true, decide_eq_true_eq, beq_iff_eq] at hp
      exact ⟨hp.1, r, hrs, rfl, hp.2⟩
    · rintro ⟨hv, r, hr, rfl, hst⟩
      exact List.mem_map.2 ⟨r, List.mem_filter.2 ⟨hr, by simp [hv, hst]⟩, rfl⟩
  have hnodup : ids.Nodup := hw.ids.sublist (List.filter_sublist.map _)
  have hlen : ids.length = b := (List.length_map _).trans hb
  have hsub : ids.Subperm deps := hnodup.subperm fun v hv => ((hmem v).1 hv).1
  refine ⟨rfl, fun heq d hd => ?_, fun hdist hne => ?_⟩
  · have hperm := hsub.perm_of_length_le (by rw [hlen, heq])
    exact ((hmem d).1 (hperm.mem_iff.2 hd)).2
  · by_contra hnot
    refine hne (hlen.symm.trans (le_antisymm hsub.length_le ?_))
    refine (hdist.subperm fun d hd => (hmem d).2 ⟨hd, ?_⟩).length_le
    by_contra hno
    exact hnot ⟨d, hd, fun r hr hid hst => hno ⟨r, hr, hid, hst⟩⟩

/-- Each of these rows is still the row of a pending task. -/
def pendingRows (rows : List TaskRow) : Assertion Calm where
  holds s := ∀ c ∈ rows, ∃ r ∈ s.tasks, r.taskId = c.taskId ∧ r.state = .pending ∧
    r.dependsOn = c.dependsOn
  stable s s' hc h c hmem := by
    obtain ⟨r, hr, hid, hst, hdeps⟩ := h c hmem
    obtain ⟨r', hr', hf⟩ := hc.forth r hr
    exact ⟨r', hr', hf.taskId.trans hid, hf.state.trans hst, hf.dependsOn.trans hdeps⟩

/-- Each of these tasks is pending for nothing. -/
def ready (ids : List TaskId) : Assertion Calm where
  holds s := ∀ u ∈ ids, ∃ r ∈ s.tasks, r.taskId = u ∧ r.state = .pending ∧ Fed r.dependsOn s
  stable s s' hc h u hu := by
    obtain ⟨r, hr, hid, hst, hfed⟩ := h u hu
    obtain ⟨r', hr', hf⟩ := hc.forth r hr
    refine ⟨r', hr', hf.taskId.trans hid, hf.state.trans hst, ?_⟩
    rw [hf.dependsOn]
    exact hfed.calm hc

/-- `Fed deps`. -/
def fed (deps : List TaskId) : Assertion Calm := ⟨Fed deps, fun _ _ hc h => h.calm hc⟩

/-- `Unfed deps`. -/
def unfed (deps : List TaskId) : Assertion Calm := ⟨Unfed deps, fun _ _ hc h => h.calm hc⟩

/-- `Advanced t`. -/
def advanced (t : TaskId) : Assertion Calm := ⟨Advanced t, fun _ _ hc h => h.calm hc⟩

/-- The candidates that were picked are ready; the others, if that is to be known, are not. -/
def picked (R : Regime S) (rows : List TaskRow) (ids : List TaskId) : Assertion Calm :=
  .and (.fact (ids.Sublist (rows.map (·.taskId)))) <| .and (ready ids) <|
    .when R.eager <| .all fun c => .when (c ∈ rows ∧ c.dependsOn ≠ [] ∧ c.taskId ∉ ids) <|
      unfed c.dependsOn

/-- A statement has raised, which an eager regime excludes. -/
def dropped (R : Regime S) (P : Assertion Calm) (e : Exc) : Assertion Calm :=
  .and (.fact (e = .other ∧ ¬ R.eager)) P

theorem dropped_of_raised {o : Stmt} {P Q : Assertion Calm} {e : Exc} {s : State}
    (hr : raised R d o P e s) (h : ∀ s, P s → Q s) : dropped R Q e s :=
  ⟨⟨hr.1.1, Regime.not_eager_of_fails hr.1.2⟩, h s hr.2⟩

theorem dropped_mono {P Q : Assertion Calm} {e : Exc} {s : State} (hd : dropped R P e s)
    (h : ∀ s, P s → Q s) : dropped R Q e s := ⟨hd.1, h s hd.2⟩

theorem readyAmong_spec (rows : List TaskRow) (hnodup : (rows.map (·.taskId)).Nodup)
    (F : Assertion Calm) :
    U.Spec i d (.and F (pendingRows rows)) (readyAmong rows) (fun ids => .and F (picked R rows ids))
      (dropped R F) := by
  induction rows generalizing F with
  | nil =>
    refine Triple.pure fun s h => ⟨h.1, List.Sublist.refl _, ?_, ?_⟩
    · exact fun u hu => absurd hu List.not_mem_nil
    · exact fun _ c hc => absurd hc.1 List.not_mem_nil
  | cons row rest ih =>
    rw [List.map_cons, List.nodup_cons] at hnodup
    unfold readyAmong
    split
    · -- a candidate without dependencies is passed over
      rename_i hnil
      refine Triple.post (Triple.pre (ih hnodup.2 F) fun s h => ?_) (fun ids s h => ?_)
        fun _ _ h => h
      · exact ⟨h.1, fun c hc => h.2 c (List.mem_cons_of_mem _ hc)⟩
      · refine ⟨h.1, h.2.1.trans (List.sublist_cons_self _ _), h.2.2.1, ?_⟩
        rintro he c ⟨hc, hne, hno⟩
        rcases List.mem_cons.1 hc with rfl | hc
        · exact absurd hnil hne
        · exact h.2.2.2 he c ⟨hc, hne, hno⟩
    · -- the count decides
      let G (n : Nat) : Assertion Calm :=
        .and (.when (n = row.dependsOn.length) (fed row.dependsOn))
          (.when R.eager (.when (n ≠ row.dependsOn.length) (unfed row.dependsOn)))
      refine bind_reads (M := G) rfl (by simp) (fun s a b s' hP hI hrun => ?_) (fun n => ?_)
        fun e s h => dropped_of_raised h fun s h => h.1
      · obtain ⟨rfl, hfed, hunfed⟩ := countCompleted_spec (U.wellFormed d s hI) hrun
        refine ⟨hfed, fun he hne => hunfed ?_ hne⟩
        obtain ⟨r, hr, -, -, hdeps⟩ := hP.2 row List.mem_cons_self
        obtain ⟨k, hk, hm⟩ := (U.wellFormed d _ hI).rows r hr
        rw [← hdeps, hm.dependsOn]
        exact R.distinct_of_eager he k hk
      refine Triple.bind (Triple.post (Triple.pre
        (ih hnodup.2 (.and (.and F (pendingRows [row])) (G n))) fun s h => ?_) (fun _ _ h => h)
        fun e s h => ?_) fun ids => ?_
      · refine ⟨⟨⟨h.1.1, fun c hc => h.1.2 c ?_⟩, h.2⟩, fun c hc => h.1.2 c ?_⟩
        · rw [List.mem_singleton.1 hc]
          exact List.mem_cons_self
        · exact List.mem_cons_of_mem _ hc
      · exact dropped_mono h fun s h => h.1.1
      refine Triple.pure fun s h => ⟨h.1.1.1, ?_⟩
      obtain ⟨⟨⟨-, hrow⟩, hfed, hunfed⟩, hsub, hready, hrest⟩ := h
      split
      · rename_i hn
        refine ⟨hsub.cons_cons row.taskId, fun u hu => ?_, fun he c hc => ?_⟩
        · rcases List.mem_cons.1 hu with rfl | hu
          · obtain ⟨r, hr, hid, hst, hdeps⟩ := hrow row List.mem_cons_self
            refine ⟨r, hr, hid, hst, ?_⟩
            rw [hdeps]
            exact hfed hn
          · exact hready u hu
        · obtain ⟨hmem, hne, hno⟩ := hc
          rcases List.mem_cons.1 hmem with rfl | hmem
          · exact absurd List.mem_cons_self hno
          · exact hrest he c ⟨hmem, hne, fun hin => hno (List.mem_cons_of_mem _ hin)⟩
      · rename_i hn
        refine ⟨hsub.trans (List.sublist_cons_self _ _), hready, fun he c hc => ?_⟩
        obtain ⟨hmem, hne, hno⟩ := hc
        rcases List.mem_cons.1 hmem with rfl | hmem
        · exact hunfed he hn
        · exact hrest he c ⟨hmem, hne, hno⟩

/-- `F` survives the release of a pending task. -/
def Undisturbed (U : Upkeep R) (m : TaskMessage) (F : Assertion Calm) : Prop :=
  ∀ s s' r, F s → U.inv (.task m) s → U.inv (.task m) s' → r ∈ s.tasks → r.state = .pending →
    Fed r.dependsOn s → Moved r.taskId .dispatchable s s' → F s'

/-- The tasks still to be released, and what will be true when they are. -/
def toRelease (R : Regime S) (u : TaskId) (ids : List TaskId) : Assertion Calm where
  holds s := ids.Nodup ∧ ready ids s ∧ (R.eager → ∀ r ∈ s.tasks, r.state = .pending →
    u ∈ r.dependsOn → r.taskId ∈ ids ∨ Unfed r.dependsOn s)
  stable s s' hc h := by
    refine ⟨h.1, (ready ids).stable s s' hc h.2.1, fun he r' hr' hst hmem => ?_⟩
    obtain ⟨r, hr, hf⟩ := hc.back r' hr'
    rw [hf.dependsOn, hf.taskId]
    exact (h.2.2 he r hr (hf.state.symm.trans hst) (hf.dependsOn ▸ hmem)).imp_right fun hu =>
      hu.calm hc

theorem releaseAll_spec {u : TaskId} {F : Assertion Calm} (hF : Undisturbed U m F)
    (ids : List TaskId) :
    U.Spec i (.task m) (.and F (toRelease R u ids)) (releaseAll ids)
      (fun _ => .and F (.when R.eager (advanced u))) (dropped R F) := by
  induction ids with
  | nil =>
    refine Triple.pure fun s h => ⟨h.1, fun he r hr hst hmem => ?_⟩
    exact (h.2.2.2 he r hr hst hmem).resolve_left List.not_mem_nil
  | cons v rest ih =>
    unfold releaseAll
    refine bind_moves (.and F (toRelease R u rest)) (fun s h _ => ?_)
      (fun s s' h hI hI' _ hm => ?_) ih fun e s h => ?_
    · obtain ⟨r, hr, rfl, hst, hfed⟩ := h.2.2.1 v List.mem_cons_self
      exact .release hr hst hfed
    · obtain ⟨hf, hnodup, hready, hrest⟩ := h
      have hw := U.wellFormed _ s hI
      obtain ⟨rv, hrv, rfl, hstv, hfedv⟩ := hready v List.mem_cons_self
      rw [List.nodup_cons] at hnodup
      have hpend : ∃ r ∈ s.tasks, r.taskId = rv.taskId ∧ r.state ≠ .completed :=
        ⟨rv, hrv, rfl, by rw [hstv]; decide⟩
      refine ⟨hF s s' rv hf hI hI' hrv hstv hfedv hm, hnodup.2, fun w hw' => ?_, ?_⟩
      · obtain ⟨r, hr, rfl, hst, hfed⟩ := hready w (List.mem_cons_of_mem _ hw')
        have hne : r.taskId ≠ rv.taskId := fun heq => hnodup.1 (heq ▸ hw')
        have hmem := hm.forth hr
        rw [TaskRow.moved_of_ne hne] at hmem
        exact ⟨r, hmem, rfl, hst, hfed.released hw hm hpend⟩
      · intro he r' hr' hst hmem
        obtain ⟨r, hr, rfl⟩ := hm.back hr'
        by_cases heq : r.taskId = rv.taskId
        · rw [TaskRow.moved_self heq] at hst
          cases hst
        · rw [TaskRow.moved_of_ne heq] at hst hmem ⊢
          rcases hrest he r hr hst hmem with hin | hun
          · exact .inl ((List.mem_cons.1 hin).resolve_left heq)
          · exact .inr (hun.moved hm (by decide))
    · exact dropped_of_raised h fun s h => h.elim (fun h => h.1) fun h => h.1

/-- `advance_dependents`. -/
theorem advance {u : TaskId} {F : Assertion Calm} (hF : Undisturbed U m F) :
    U.Spec i (.task m) F (advanceDependents u) (fun _ => .and F (.when R.eager (advanced u)))
      (dropped R F) := by
  -- the candidates are the pending dependents, once each
  let G (rows : List TaskRow) : Assertion Calm :=
    .and (pendingRows rows) <| .and
      (.fact ((rows.map (·.taskId)).Nodup ∧ ∀ c ∈ rows, c.dependsOn ≠ [])) <|
      ⟨fun s => ∀ r ∈ s.tasks, r.state = .pending → u ∈ r.dependsOn →
        ∃ c ∈ rows, c.taskId = r.taskId ∧ c.dependsOn = r.dependsOn, fun s s' hc h r' hr' hst hm => by
          obtain ⟨r, hr, hf⟩ := hc.back r' hr'
          rw [hf.taskId, hf.dependsOn]
          exact h r hr (hf.state.symm.trans hst) (hf.dependsOn ▸ hm)⟩
  refine bind_reads (M := G) rfl (by simp) (fun s a b s' _ hI hrun => ?_) (fun rows => ?_)
    fun e s h => dropped_of_raised h fun _ h => h
  · simp only [exec] at hrun
    split at hrun
    · rename_i hsel
      obtain ⟨rfl, rfl⟩ := Prod.mk.inj (Option.some.inj hrun)
      have hmem := fun r => mem_selectsAll (r := r) hsel
      simp only [Bool.and_eq_true, decide_eq_true_eq, beq_iff_eq] at hmem
      refine ⟨fun c hc => ⟨c, ((hmem c).1 hc).1, rfl, ((hmem c).1 hc).2.2, rfl⟩, ⟨?_, ?_⟩, ?_⟩
      · refine ((List.isPerm_iff.1 hsel).map _).nodup_iff.2 ?_
        exact (U.wellFormed _ _ hI).ids.sublist (List.filter_sublist.map _)
      · exact fun c hc hnil => by
          have := ((hmem c).1 hc).2.1
          rw [hnil] at this
          exact absurd this List.not_mem_nil
      · exact fun r hr hst hu => ⟨r, (hmem r).2 ⟨hr, hu, hst⟩, rfl, rfl⟩
    · cases hrun
  refine Triple.pre (Triple.assume (P := .and F (G rows))
    (φ := (rows.map (·.taskId)).Nodup ∧ ∀ c ∈ rows, c.dependsOn ≠ []) fun hrows => ?_)
    fun s h => ⟨h.2.2.1, h⟩
  refine Triple.bind (Triple.post (Triple.pre (readyAmong_spec rows hrows.1 (.and F (G rows)))
    fun s h => ?_) (fun _ _ h => h) fun e s h => ?_) fun ids => ?_
  · exact ⟨h, h.2.1⟩
  · exact dropped_mono h fun s h => h.1
  refine (releaseAll_spec (u := u) hF ids).pre fun s h => ?_
  obtain ⟨⟨hf, -, -, hall⟩, hsub, hready, hrest⟩ := h
  refine ⟨hf, hrows.1.sublist hsub, hready, fun he r hr hst hmem => ?_⟩
  obtain ⟨c, hc, hid, hdeps⟩ := hall r hr hst hmem
  by_cases hin : c.taskId ∈ ids
  · exact .inl (hid ▸ hin)
  · exact .inr (hdeps ▸ hrest he c ⟨hc, hrows.2 c hc, hin⟩)

/-! ## Lineage -/

theorem mem_extendFrontier {deps seen next : List TaskId} {a : TaskId}
    (h : a ∈ (extendFrontier deps seen next).2) : a ∈ next ∨ a ∈ deps := by
  unfold extendFrontier at h
  induction deps generalizing seen next with
  | nil => exact .inl h
  | cons d rest ih =>
    rw [List.foldl_cons] at h
    by_cases hd : d ∈ seen
    · simp only [hd, if_true] at h
      exact (ih h).imp_right (List.mem_cons_of_mem _)
    · simp only [hd, if_false] at h
      rcases ih h with h | h
      · rcases List.mem_append.1 h with h | h
        · exact .inl h
        · exact .inr (List.mem_singleton.1 h ▸ List.mem_cons_self)
      · exact .inr (List.mem_cons_of_mem _ h)

/-- One level: when the walk may go on from the rows without a `result_ref` it passes, it stays
    among the tasks `G`, and so does what it finds. -/
theorem scanFrontier_spec {G : TaskId → Prop} {start : TaskId} {rows : List TaskRow}
    (hrows : ∀ r ∈ rows, G r.taskId → r.taskId = start ∨ r.resultRef = none →
      ∀ a ∈ r.dependsOn, G a) :
    ∀ (frontier seen next : List TaskId), (∀ a ∈ frontier, G a) → (∀ a ∈ next, G a) →
      match scanFrontier start rows frontier seen next with
      | .inl (row, _) => row ∈ rows ∧ G row.taskId ∧ row.taskId ≠ start
      | .inr (_, next') => ∀ a ∈ next', G a := by
  intro frontier
  induction frontier with
  | nil => exact fun _ _ _ hnext => hnext
  | cons tid rest ih =>
    intro seen next hfrontier hnext
    rw [List.forall_mem_cons] at hfrontier
    unfold scanFrontier
    cases hfind : rows.find? fun r => r.taskId == tid with
    | none => exact ih seen next hfrontier.2 hnext
    | some row =>
      have hrow := List.mem_of_find?_eq_some hfind
      have hid : row.taskId = tid := by simpa using List.find?_some hfind
      have hG : G row.taskId := hid ▸ hfrontier.1
      cases href : if tid = start then none else row.resultRef with
      | some ref =>
        simp only [href]
        refine ⟨hrow, hG, fun heq => ?_⟩
        rw [if_pos (hid.symm.trans heq)] at href
        cases href
      | none =>
        simp only [href]
        refine ih _ _ hfrontier.2 fun a ha => (mem_extendFrontier ha).elim (hnext a) ?_
        refine hrows row hrow hG ?_ a
        by_cases htid : tid = start
        · exact .inl (hid.trans htid)
        · rw [if_neg htid] at href
          exact .inr href

/-- The row of a task of a batch. -/
def Known (S : Settings) (r : TaskRow) : Prop := ∃ n, S.Has n ∧ r.Matches n

/-- Something has raised, and `P` holds. -/
def failing (P : Assertion Calm) (e : Exc) : Assertion Calm := .and (.fact (e = .other)) P

theorem failing_of_raised {o : Stmt} {P Q : Assertion Calm} {e : Exc} {s : State}
    (hr : raised R d o P e s) (h : ∀ s, P s → Q s) : failing Q e s := ⟨hr.1.1, h s hr.2⟩

theorem failing_of_dropped {P Q : Assertion Calm} {e : Exc} {s : State} (hr : dropped R P e s)
    (h : ∀ s, P s → ¬ R.eager → Q s) : failing Q e s := ⟨hr.1.1, h s hr.2 hr.1.2⟩

theorem failing_mono {P Q : Assertion Calm} {e : Exc} {s : State} (hr : failing P e s)
    (h : ∀ s, P s → Q s) : failing Q e s := ⟨hr.1, h s hr.2⟩

/-- The walk stays among the tasks `G`. -/
theorem walk_spec {G : TaskId → Prop} {start : TaskId} {P : Assertion Calm}
    (hG : ∀ s, P s → U.inv d s → ∀ r ∈ s.tasks, G r.taskId → r.taskId = start ∨ r.resultRef = none →
      ∀ a ∈ r.dependsOn, G a) :
    ∀ (hops : Nat) (frontier seen : List TaskId), (∀ a ∈ frontier, G a) →
      U.Spec i d P (walkLineage start hops frontier seen)
        (fun out => .and P <| .fact <| ∀ row ref, out = some (row, ref) →
          Known S row ∧ G row.taskId ∧ row.taskId ≠ start)
        (failing P) := by
  intro hops
  induction hops with
  | zero => exact fun _ _ _ => Triple.pure fun s h => ⟨h, fun _ _ h => nomatch h⟩
  | succ hops ih =>
    intro frontier seen hfrontier
    unfold walkLineage
    split
    · exact Triple.pure fun s h => ⟨h, fun _ _ h => nomatch h⟩
    · let M (rows : List TaskRow) : Assertion Calm := .fact <| ∀ r ∈ rows, Known S r ∧
        (G r.taskId → r.taskId = start ∨ r.resultRef = none → ∀ a ∈ r.dependsOn, G a)
      refine bind_reads (M := M) rfl (by simp) (fun s a b s' hP hI hrun r hr => ?_) (fun rows => ?_)
        fun e s h => failing_of_raised h fun _ h => h
      · simp only [exec] at hrun
        split at hrun
        · rename_i hsel
          obtain ⟨rfl, -⟩ := Prod.mk.inj (Option.some.inj hrun)
          have hmem := ((mem_selectsAll hsel).1 hr).1
          exact ⟨(U.wellFormed d s hI).rows r hmem, hG s hP hI r hmem⟩
        · cases hrun
      · refine Triple.pre (Triple.assume (P := P)
          (φ := ∀ r ∈ rows, Known S r ∧ (G r.taskId → r.taskId = start ∨ r.resultRef = none →
            ∀ a ∈ r.dependsOn, G a)) fun hrows => ?_) fun s h => ⟨h.2, h.1⟩
        have hscan := scanFrontier_spec (fun r hr => (hrows r hr).2) frontier seen [] hfrontier
          fun a ha => absurd ha List.not_mem_nil
        cases hout : scanFrontier start rows frontier seen [] with
        | inl found =>
          obtain ⟨row, ref⟩ := found
          simp only [hout] at hscan ⊢
          refine Triple.pure fun s h => ⟨h, fun row' ref' heq => ?_⟩
          obtain ⟨rfl, -⟩ := Prod.mk.inj (Option.some.inj heq)
          exact ⟨(hrows row hscan.1).1, hscan.2⟩
        | inr found =>
          obtain ⟨seen', next⟩ := found
          simp only [hout] at hscan ⊢
          exact ih next seen' hscan

/-- `resolve_lineage_result`, when nothing has to be known of what it finds. -/
theorem resolve_any {start : TaskId} {P : Assertion Calm} :
    U.Spec i d P (resolveLineageResult start) (fun _ => P) (failing P) :=
  (walk_spec (G := fun _ => True) (fun _ _ _ _ _ _ _ _ _ => trivial) _ _ _ fun _ _ => trivial).post
    (fun _ _ h => h.1) fun _ _ h => h

end Upkeep

end CanvasOS.Orchestrator
