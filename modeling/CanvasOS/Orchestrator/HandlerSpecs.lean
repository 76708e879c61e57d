/-
  What a handler does with the tasks, statement by statement, is lawful.

  1. **The row of a task** (`rowAt`) — a fact about it that calm statements keep.
  2. **Ends** — a handler completes its task (`Upkeep.complete_spec`) or blocks it
     (`Upkeep.block_spec`), and the retry loop does so for the sibling as well.
  3. **Handlers** (`Upkeep.handler_spec`) — a handler that starts on a live task ends it, or raises
     and leaves it live or ended.
-/
import CanvasOS.Orchestrator.Handling

namespace CanvasOS.Orchestrator

open Interleave Python

/-! ## The row of a task -/

/-- The row of task `t` satisfies `φ`, which its successors inherit. -/
def rowAt (t : TaskId) (φ : TaskRow → Prop) (hφ : ∀ r r', r.Follows r' → φ r → φ r') :
    Assertion Calm where
  holds s := ∃ r ∈ s.tasks, r.taskId = t ∧ φ r
  stable s s' hc h := by
    obtain ⟨r, hr, hid, hrφ⟩ := h
    obtain ⟨r', hr', hf⟩ := hc.forth r hr
    exact ⟨r', hr', hf.taskId.trans hid, hφ r r' hf hrφ⟩

/-- There is a row of task `t`. -/
def present (t : TaskId) : Assertion Calm := rowAt t (fun _ => True) fun _ _ _ h => h

/-- Task `t` is in state `x`. -/
def inState (t : TaskId) (x : TaskState) : Assertion Calm :=
  rowAt t (fun r => r.state = x) fun _ _ hf h => hf.state.trans h

/-- Task `t` is terminal. -/
def ended (t : TaskId) : Assertion Calm :=
  rowAt t (fun r => r.state.terminal = true) fun _ _ hf h => hf.state.symm ▸ h

/-- Task `t` is live, with at least `n` failures counted. -/
def live (t : TaskId) (n : Nat) : Assertion Calm :=
  rowAt t (fun r => r.live ∧ n ≤ r.retryCount) fun r r' hf h =>
    ⟨by rw [TaskRow.live, hf.state]; exact h.1, Nat.le_trans h.2 hf.retryCount⟩

/-- Task `t` has stored a `result_ref`. -/
def stored (t : TaskId) : Assertion Calm :=
  rowAt t (fun r => r.resultRef.isSome) fun _ _ hf h => hf.resultRef h

/-- If task `t` has a handler, it has stored a `result_ref`. -/
def storedIfHandled (t : TaskId) : Assertion Calm :=
  rowAt t (fun r => dispatchTable r.taskType ≠ none → r.resultRef.isSome) fun _ _ hf h hne =>
    hf.resultRef (h (hf.taskType ▸ hne))

section Rows

variable {S : Settings} {R : Regime S} {U : Upkeep R} {m : TaskMessage} {s s' : State}
  {t u : TaskId} {dest : TaskState} {φ : TaskRow → Prop}
  {hφ : ∀ r r', r.Follows r' → φ r → φ r'}

/-- Another task moves. -/
theorem rowAt_moved_of_ne (h : rowAt t φ hφ s) (hm : Moved u dest s s') (hne : t ≠ u) :
    rowAt t φ hφ s' := by
  obtain ⟨r, hr, rfl, hrφ⟩ := h
  have hmem := hm.forth hr
  rw [TaskRow.moved_of_ne hne] at hmem
  exact ⟨r, hmem, rfl, hrφ⟩

theorem present_moved (h : present t s) (hm : Moved u dest s s') : present t s' := by
  obtain ⟨r, hr, hid, -⟩ := h
  exact ⟨_, hm.forth hr, TaskRow.moved_taskId.trans hid, trivial⟩

theorem inState_moved (hm : Moved t dest s s') : inState t dest s' := hm.self

theorem ended_of_inState {x : TaskState} (hx : x.terminal = true) (h : inState t x s) :
    ended t s := by
  obtain ⟨r, hr, hid, rfl⟩ := h
  exact ⟨r, hr, hid, hx⟩

/-- `keep t`. -/
def Upkeep.keeping (U : Upkeep R) (t : TaskId) : Assertion Calm :=
  ⟨U.keep t, U.keep_calm t⟩

/-- A release of another task leaves a task that is not pending as it is. -/
theorem Upkeep.undisturbed_rowAt (hp : ∀ r, φ r → r.state ≠ .pending) :
    Upkeep.Undisturbed U m
      (.and (rowAt m.envelope.taskId φ hφ) (U.keeping m.envelope.taskId)) := by
  intro s s' r h hI _ hr hst hfed hm
  obtain ⟨⟨r₀, hr₀, hid, hφ₀⟩, hk⟩ := h
  have hne : m.envelope.taskId ≠ r.taskId := fun heq =>
    hp r₀ hφ₀ ((U.wellFormed _ s hI).unique hr₀ hr (hid.trans heq) ▸ hst)
  exact ⟨rowAt_moved_of_ne ⟨r₀, hr₀, hid, hφ₀⟩ hm hne,
    U.keep_step m _ _ s s' hI hk (.release hr hst hfed) hm⟩

/-- The row `UPDATE … SET result_ref` writes. -/
theorem stored_of_setResultRef {ref : ResultRef} {a b : Unit}
    (hrun : exec (.setResultRef t ref) a s = some (b, s')) (h : present t s) : stored t s' := by
  have htasks : s'.tasks = (Table.update s.tasks (fun r => r.taskId == t)
      fun r => { r with resultRef := some ref }).2 := by
    obtain ⟨-, rfl⟩ := Prod.mk.inj (Option.some.inj hrun)
    rfl
  obtain ⟨r, hr, hid, -⟩ := h
  rcases Table.exists_mem_update htasks hr with ⟨-, hmem⟩ | ⟨hno, -⟩
  · exact ⟨_, hmem, hid, rfl⟩
  · simp [hid] at hno

end Rows

/-! ## Ends -/

namespace Upkeep

variable {S : Settings} {R : Regime S} {U : Upkeep R} {i : Nat} {m : TaskMessage} {n : Nat}
  {G : Assertion Calm}

/-- The handler of task `t` is at work, with at least `n` failures counted. -/
def working (U : Upkeep R) (t : TaskId) (n : Nat) : Assertion Calm :=
  .and (Orchestrator.live t n) (U.keeping t)

/-- Task `t` is over. -/
def concluded (R : Regime S) (t : TaskId) : Assertion Calm :=
  .and (ended t) (.when R.eager (advanced t))

/-- Task `t` is completed and its dependents are advanced. -/
def done (U : Upkeep R) (t : TaskId) : Assertion Calm :=
  .and (.and (inState t .completed) (U.keeping t)) (.when R.eager (advanced t))

/-- What a handler that raises leaves: a live task, or one that is over. -/
def left (U : Upkeep R) (t : TaskId) (n : Nat) (e : Exc) : Assertion Calm :=
  failing (.or (U.working t n) (concluded R t)) e

theorem concluded_of_done {t : TaskId} {s : State} (h : U.done t s) : concluded R t s :=
  ⟨ended_of_inState rfl h.1.1, h.2⟩

/-- A failed task is over: it holds its dependents back. -/
theorem concluded_of_failed {d : Delivery} {t : TaskId} {s : State} (hI : U.inv d s)
    (h : inState t .failed s) : concluded R t s := by
  refine ⟨ended_of_inState rfl h, fun _ => ?_⟩
  obtain ⟨r, hr, rfl, hst⟩ := h
  exact advanced_of_not_completed (U.wellFormed d s hI) hr (by rw [hst]; decide)

/-- A fact that no transition disturbs. -/
def Persistent (G : Assertion Calm) : Prop :=
  ∀ s s' u dest, G s → Moved u dest s s' → G s'

theorem left_of_raised {o : Stmt} {P : Assertion Calm} {e : Exc} {s : State}
    (hr : raised R (.task m) o P e s)
    (h : ∀ s, P s → ¬ R.eager → Assertion.or (U.working m.envelope.taskId n)
      (concluded R m.envelope.taskId) s) : U.left m.envelope.taskId n e s :=
  failing_of_dropped (dropped_of_raised hr fun _ h => h) h

/-- The row of the task stores its `result_ref`. -/
theorem bind_store {α : Type} {ref : ResultRef} {t : TaskId} {P : Assertion Calm}
    {f : Unit → Worker α} {Q : α → Assertion Calm} {E : Exc → Assertion Calm}
    (ht : ∀ s, P s → present t s)
    (hf : U.Spec i (.task m) (.and P (Orchestrator.stored t)) (f ()) Q E)
    (hE : ∀ e s, raised R (.task m) ⟨.handler, .setResultRef t ref⟩ P e s → E e s) :
    U.Spec i (.task m) P (call .handler (.setResultRef t ref) >>= f) Q E :=
  bind_reads (M := fun _ => Orchestrator.stored t) rfl (by simp)
    (fun s _ _ _ hP _ hrun => stored_of_setResultRef hrun (ht s hP)) (fun _ => hf) hE

theorem present_of_working {s : State} (h : U.working m.envelope.taskId n s) :
    present m.envelope.taskId s := by
  obtain ⟨⟨r, hr, hid, -⟩, -⟩ := h
  exact ⟨r, hr, hid, trivial⟩

/-- The task is completed. -/
theorem complete_spec (hG : Persistent G) :
    U.Spec i (.task m)
      (.and (.and (U.working m.envelope.taskId n) (storedIfHandled m.envelope.taskId)) G)
      (completeTask m.envelope.taskId) (fun _ => .and (U.done m.envelope.taskId) G)
      (U.left m.envelope.taskId n) := by
  have hlaw : ∀ s, (U.working m.envelope.taskId n s ∧ storedIfHandled m.envelope.taskId s) →
      U.inv (.task m) s →
      LawfulMove R U.keep m.envelope.taskId s m.envelope.taskId .completed := by
    rintro s ⟨⟨⟨r, hr, hid, hlive, -⟩, hk⟩, r', hr', hid', hst⟩ hI
    obtain rfl := (U.wellFormed _ s hI).unique hr hr' (hid.trans hid'.symm)
    exact .complete hr hid hlive hk hst
  let F : Assertion Calm :=
    .and (.and (inState m.envelope.taskId .completed) (U.keeping m.envelope.taskId)) G
  have hF : Undisturbed U m F := by
    intro s s' r h hI hI' hr hst hfed hm
    refine ⟨undisturbed_rowAt (fun r h => ?_) s s' r h.1 hI hI' hr hst hfed hm, hG _ _ _ _ h.2 hm⟩
    rw [h]
    decide
  refine bind_moves F (fun s h hI => hlaw s h.1 hI) (fun s s' h hI _ _ hm => ?_)
    (Triple.post (advance hF) (fun _ s h => ⟨⟨h.1.1, h.2⟩, h.1.2⟩) fun e s h => ?_) fun e s h => ?_
  · exact ⟨⟨inState_moved hm, U.keep_step m _ _ s s' hI h.1.1.2 (hlaw s h.1 hI) hm⟩,
      hG _ _ _ _ h.2 hm⟩
  · exact failing_of_dropped h fun s h hne =>
      .inr ⟨ended_of_inState rfl h.1.1, fun he => absurd he hne⟩
  · refine left_of_raised h fun s h hne => h.elim (fun h => .inl h.1.1) fun h => ?_
    exact .inr ⟨ended_of_inState rfl h.1.1, fun he => absurd he hne⟩

/-- The task is blocked. -/
theorem bind_block {α : Type} {P : Assertion Calm} {f : Unit → Worker α}
    {Q : α → Assertion Calm} (hP : ∀ s, P s → U.working m.envelope.taskId n s ∧ G s)
    (hG : Persistent G)
    (hf : U.Spec i (.task m)
      (.and (.and (inState m.envelope.taskId .failed) (concluded R m.envelope.taskId)) G)
      (f ()) Q (U.left m.envelope.taskId n)) :
    U.Spec i (.task m) P (call .handler (.transition m.envelope.taskId .failed .qaBlocked) >>= f)
      Q (U.left m.envelope.taskId n) := by
  refine bind_moves _ (fun s h _ => ?_) (fun s s' h _ hI' _ hm => ?_) hf fun e s h => ?_
  · obtain ⟨⟨⟨r, hr, hid, hlive, -⟩, -⟩, -⟩ := hP s h
    exact .block hr hid hlive
  · exact ⟨⟨inState_moved hm, concluded_of_failed hI' (inState_moved hm)⟩, hG _ _ _ _ (hP s h).2 hm⟩
  · exact left_of_raised h fun s h _ => h.elim (fun h => .inl (hP s h).1) fun h => .inr h.1.2

theorem persistent_true : Persistent (.fact True) := fun _ _ _ _ _ _ => trivial

theorem storedIfHandled_of_stored {t : TaskId} {s : State} (h : Orchestrator.stored t s) :
    storedIfHandled t s := by
  obtain ⟨r, hr, hid, href⟩ := h
  exact ⟨r, hr, hid, fun _ => href⟩

theorem completeWith_spec {ref : ResultRef} :
    U.Spec i (.task m) (U.working m.envelope.taskId n) (completeWith m.envelope.taskId ref)
      (fun _ => concluded R m.envelope.taskId) (U.left m.envelope.taskId n) := by
  refine bind_store (fun s h => present_of_working h) (Triple.post (Triple.pre
    (complete_spec (n := n) persistent_true) fun s h => ?_) (fun _ s h => concluded_of_done h.1)
    fun _ _ h => h) fun e s h => left_of_raised h fun s h _ => .inl h
  exact ⟨⟨h.1, storedIfHandled_of_stored h.2⟩, trivial⟩

theorem blockWith_spec {ref : ResultRef} :
    U.Spec i (.task m) (U.working m.envelope.taskId n) (blockWith m.envelope.taskId ref)
      (fun _ => concluded R m.envelope.taskId) (U.left m.envelope.taskId n) := by
  refine bind_store (fun s h => present_of_working h) (bind_block (G := .fact True)
    (fun s h => ⟨h.1, trivial⟩) persistent_true ?_) fun e s h => left_of_raised h fun s h _ => .inl h
  exact Triple.post (Triple.pre (calls rfl (by simp)) fun s h => h.1.2) (fun _ _ h => h)
    fun e s h => left_of_raised h fun s h _ => .inr h

/-! ## The retry loop -/

/-- What the retry loop knows of the other review task, if it found one. -/
def sibling (R : Regime S) (t : TaskId) (found : Option TaskRow) : Assertion Calm :=
  .all fun r => .when (found = some r) <|
    .and (.fact (S.Siblings R.via t r.taskId)) (present r.taskId)

theorem persistent_sibling {t : TaskId} {found : Option TaskRow} :
    Persistent (sibling R t found) := fun _ _ _ _ h hm r hr =>
  ⟨(h r hr).1, present_moved (h r hr).2 hm⟩

/-- The review tasks the loop finalises: its own, and the other one if there is one. -/
def reviews (kind : ReviewKind) (t : TaskId) (found : Option TaskRow) : ReviewTasks :=
  (kind, t) :: (found.map fun r => (kind.other, r.taskId)).toList

/-- The other review task is completed after its own. -/
theorem completeOther_spec {r : TaskRow} (hsib : S.Siblings R.via m.envelope.taskId r.taskId) :
    U.Spec i (.task m) (.and (U.done m.envelope.taskId) (Orchestrator.stored r.taskId))
      (completeTask r.taskId) (fun _ => concluded R m.envelope.taskId) (U.left m.envelope.taskId n) := by
  have hlaw : ∀ s, (U.done m.envelope.taskId s ∧ Orchestrator.stored r.taskId s) →
      U.inv (.task m) s → LawfulMove R U.keep m.envelope.taskId s r.taskId .completed := by
    rintro s ⟨⟨⟨⟨r₀, hr₀, hid, hst⟩, hk⟩, -⟩, other, hother, hoid, href⟩ -
    rw [← hoid] at hsib ⊢
    exact .completeOther hr₀ hid hst hk hother hsib href
  let F : Assertion Calm :=
    .and (.fact (¬ R.eager))
      (.and (inState m.envelope.taskId .completed) (U.keeping m.envelope.taskId))
  have hF : Undisturbed U m F := fun s s' r h hI hI' hr hst hfed hm =>
    ⟨h.1, undisturbed_rowAt (fun r h => by rw [h]; decide) s s' r h.2 hI hI' hr hst hfed hm⟩
  have hend : ∀ s, F s → concluded R m.envelope.taskId s := fun s h =>
    ⟨ended_of_inState rfl h.2.1, fun he => absurd he h.1⟩
  refine bind_moves F hlaw (fun s s' h hI _ hx hm => ?_)
    (Triple.post (advance hF) (fun _ s h => hend s h.1) fun e s h => ?_) fun e s h => ?_
  · -- an eager regime does not let a review complete another task
    refine ⟨fun he => ?_, rowAt_moved_of_ne h.1.1.1 hm hsib.ne.symm,
      U.keep_step m _ _ s s' hI h.1.1.2 (hlaw s h hI) hm⟩
    obtain ⟨reply, hadm, -⟩ := hx
    rcases R.own_of_eager he _ _ _ _ _ _ hadm with heq | heq
    · exact hsib.ne heq
    · cases heq
  · exact failing_of_dropped h fun s h _ => .inr (hend s h)
  · exact left_of_raised h fun s h _ => .inr (h.elim (fun h => concluded_of_done h.1) (hend s))

theorem finalizePassed_spec {draft : TaskRow} {asset : Regenerated} {campaignId : Json}
    {attempt : Nat} {checks : Checks} {kind : ReviewKind} {found : Option TaskRow} :
    U.Spec i (.task m)
      (.and (U.working m.envelope.taskId n) (sibling R m.envelope.taskId found))
      (finalizePassed draft asset campaignId attempt checks
        (reviews kind m.envelope.taskId found))
      (fun _ => concluded R m.envelope.taskId) (U.left m.envelope.taskId n) := by
  refine bind_store (fun s h => present_of_working h.1) (Triple.bind (Triple.pre
    (complete_spec (n := n) (G := sibling R m.envelope.taskId found) persistent_sibling)
    fun s h => ?_) fun _ => ?_) fun e s h => left_of_raised h fun s h _ => .inl h.1
  · exact ⟨⟨h.1.1, storedIfHandled_of_stored h.2⟩, h.1.2⟩
  cases found with
  | none => exact Triple.pure fun s h => concluded_of_done h.1
  | some r =>
    refine bind_store (fun s h => (h.2 r rfl).2) (Triple.bind (R := fun _ => concluded R _)
      (Triple.pre (Triple.assume (P := .and (U.done m.envelope.taskId) (Orchestrator.stored r.taskId))
        fun hsib => completeOther_spec (n := n) hsib) fun s h => ?_) fun _ => ?_) fun e s h => ?_
    · exact ⟨(h.1.2 r rfl).1, h.1.1, h.2⟩
    · exact Triple.pure fun s h => h
    · exact left_of_raised h fun s h _ => .inr (concluded_of_done h.1)

theorem finalizeBlocked_spec {draft : TaskRow} {campaignId : Json} {attempt : Nat}
    {checks : Checks} {kind : ReviewKind} {found : Option TaskRow} :
    U.Spec i (.task m)
      (.and (U.working m.envelope.taskId n) (sibling R m.envelope.taskId found))
      (finalizeBlocked draft campaignId attempt checks (reviews kind m.envelope.taskId found))
      (fun _ => concluded R m.envelope.taskId) (U.left m.envelope.taskId n) := by
  refine bind_store (fun s h => present_of_working h.1) (bind_block
    (G := sibling R m.envelope.taskId found) (fun s h => h.1) persistent_sibling ?_)
    fun e s h => left_of_raised h fun s h _ => .inl h.1
  cases found with
  | none => exact Triple.pure fun s h => h.1.2
  | some r =>
    refine bind_store (fun s h => (h.2 r rfl).2) (bind_moves (concluded R m.envelope.taskId)
      (fun s h _ => ?_) (fun s s' h _ hI' _ hm => ?_) (Triple.pure fun s h => h) fun e s h => ?_)
      fun e s h => ?_
    · obtain ⟨r₀, hr₀, hid, hst⟩ := h.1.1.1
      exact .blockOther hr₀ hid hst (h.1.2 r rfl).1
    · exact concluded_of_failed hI' (rowAt_moved_of_ne h.1.1.1 hm (h.1.2 r rfl).1.ne.symm)
    · exact left_of_raised h fun s h _ => .inr (h.elim (fun h => h.1.1.2) fun h => h)
    · exact left_of_raised h fun s h _ => .inr h.1.2

theorem notify_spec {t : TaskId} :
    U.Spec i (.task m) (concluded R m.envelope.taskId) (call .handler (.notify t))
      (fun _ => concluded R m.envelope.taskId) (U.left m.envelope.taskId n) :=
  Triple.post (calls rfl (by simp)) (fun _ _ h => h)
    fun e s h => left_of_raised h fun s h _ => .inr h

theorem factCheckAgain_spec {t : TaskId} {P : Assertion Calm} :
    U.Spec i (.task m) P (factCheckAgain t) (fun _ => P) (failing P) := by
  refine bind_calls rfl (by simp) (fun approved => ?_) fun e s h => failing_of_raised h fun _ h => h
  cases approved with
  | true =>
    exact bind_calls rfl (by simp) (fun _ => Triple.pure fun _ h => h)
      fun e s h => failing_of_raised h fun _ h => h
  | false => exact Triple.pure fun _ h => h

theorem retryAttempts_spec {t : TaskId} {draft : TaskRow} {campaignId pillar : Json}
    {kind : ReviewKind} {found : Option TaskRow} (left : Nat) :
    ∀ (attempt : Nat) (checks : Checks), U.Spec i (.task m)
      (.and (U.working m.envelope.taskId n) (sibling R m.envelope.taskId found))
      (retryAttempts t draft campaignId pillar (reviews kind m.envelope.taskId found) left attempt
        checks)
      (fun _ => concluded R m.envelope.taskId) (U.left m.envelope.taskId n) := by
  have hraise : ∀ o e s, raised R (.task m) o (.and (U.working m.envelope.taskId n)
      (sibling R m.envelope.taskId found)) e s → U.left m.envelope.taskId n e s :=
    fun o e s h => left_of_raised h fun s h _ => .inl h.1
  induction left with
  | zero =>
    intro attempt checks
    exact Triple.bind finalizeBlocked_spec fun _ => notify_spec
  | succ left ih =>
    intro attempt checks
    unfold retryAttempts
    split
    · exact Triple.bind finalizeBlocked_spec fun _ => notify_spec
    · refine bind_calls rfl (by simp) (fun asset => ?_) (hraise _)
      refine bind_calls rfl (by simp) (fun _ => ?_) (hraise _)
      refine bind_calls rfl (by simp) (fun bs => ?_) (hraise _)
      refine Triple.bind (Triple.post factCheckAgain_spec (fun _ _ h => h) fun e s h => ?_)
        fun fc => ?_
      · exact failing_mono h fun s h => .inl h.1
      · simp only
        split
        · exact finalizePassed_spec
        · exact ih _ _

/-- The review task `t`, of this kind. -/
def Reviews (S : Settings) (kind : ReviewKind) (t : TaskId) : Prop :=
  ∃ k, S.Has k ∧ k.taskId = t ∧ k.taskType = kind.taskType

/-- What the walk finds for a task: a row with a `result_ref`, of an ancestor. -/
def Ancestor (R : Regime S) (t : TaskId) (row : TaskRow) : Prop :=
  Known S row ∧ S.Lineage R.via t row.taskId

theorem raised_working {P : Assertion Calm} (hP : ∀ s, P s → U.working m.envelope.taskId n s)
    (o : Stmt) (e : Exc) (s : State) (h : raised R (.task m) o P e s) :
    U.left m.envelope.taskId n e s :=
  left_of_raised h fun s h _ => .inl (hP s h)

theorem runQaRetryLoop_spec {kind : ReviewKind} {draft : TaskRow} {violations : List String}
    (hkind : Reviews S kind m.envelope.taskId) (hdraft : Ancestor R m.envelope.taskId draft)
    (htype : draft.taskType ∈ draftRegenTypes) :
    U.Spec i (.task m) (U.working m.envelope.taskId n)
      (runQaRetryLoop m.envelope.taskId kind draft violations)
      (fun _ => concluded R m.envelope.taskId) (U.left m.envelope.taskId n) := by
  refine bind_reads (M := fun rows => sibling R m.envelope.taskId
      (rows.find? fun r => r.taskType == kind.other.taskType)) rfl (by simp)
    (fun s a b s' _ hI hrun r hfind => ?_) (fun rows => ?_) (raised_working (fun _ h => h) _)
  · simp only [exec] at hrun
    split at hrun
    · rename_i hsel
      obtain ⟨rfl, rfl⟩ := Prod.mk.inj (Option.some.inj hrun)
      obtain ⟨hr, hdep⟩ := (mem_selectsAll hsel).1 (List.mem_of_find?_eq_some hfind)
      have hother : r.taskType = kind.other.taskType := by
        simpa using List.find?_some hfind
      obtain ⟨other, hhas, hmat⟩ := (U.wellFormed _ _ hI).rows r hr
      obtain ⟨review, hreview, hid, hty⟩ := hkind
      obtain ⟨⟨k, hk, hkm⟩, hlin⟩ := hdraft
      refine ⟨⟨kind, review, other, k, hreview, hid, hty, hhas, hmat.taskId.symm,
        hmat.taskType.symm.trans hother, hk, hkm.taskType ▸ htype, hkm.taskId ▸ hlin, ?_⟩,
        r, hr, rfl, trivial⟩
      rw [← hkm.taskId, ← hmat.dependsOn]
      simpa using hdep
    · cases hrun
  · refine Triple.bind (Triple.post resolve_any (fun _ _ h => h) fun e s h => ?_) fun out => ?_
    · exact failing_mono h fun s h => .inl h.1
    · cases out with
      | none => exact Triple.pre blockWith_spec fun s h => h.1
      | some found =>
        refine bind_calls rfl (by simp) (fun _ => retryAttempts_spec _ _ _) (raised_working ?_ _)
        exact fun _ h => h.1

theorem retryOrBlock_spec {kind : ReviewKind} {draft : TaskRow} {campaignId : Json}
    {reviewed : Reviewed} (hkind : Reviews S kind m.envelope.taskId)
    (hdraft : Ancestor R m.envelope.taskId draft) :
    U.Spec i (.task m) (U.working m.envelope.taskId n)
      (retryOrBlock m.envelope.taskId kind draft campaignId reviewed)
      (fun _ => concluded R m.envelope.taskId) (U.left m.envelope.taskId n) := by
  unfold retryOrBlock
  split
  · exact blockWith_spec
  · rename_i hretry
    have htype : draft.taskType ∈ draftRegenTypes := by
      by_contra hno
      exact hretry (.inr hno)
    refine bind_calls rfl (by simp) (fun locked => ?_) (raised_working (fun _ h => h) _)
    cases locked with
    | true =>
      refine Triple.thenFinally (runQaRetryLoop_spec (n := n) hkind hdraft htype) (fun _ => ?_)
        fun e => ?_
      · exact Triple.post (calls rfl (by simp)) (fun _ _ h => h)
          fun e s h => left_of_raised h fun s h _ => .inr h
      · exact Triple.post (calls rfl (by simp)) (fun _ _ h => h)
          fun e s h => left_of_raised h fun s h _ => h.2
    | false => exact blockWith_spec

theorem reviewAsset_spec {kind : ReviewKind} {draft : TaskRow} {draftRef : ResultRef}
    {campaignId : Json} (hkind : Reviews S kind m.envelope.taskId)
    (hdraft : Ancestor R m.envelope.taskId draft) :
    U.Spec i (.task m) (U.working m.envelope.taskId n)
      (reviewAsset m.envelope.taskId kind draft draftRef campaignId)
      (fun _ => concluded R m.envelope.taskId) (U.left m.envelope.taskId n) := by
  refine bind_calls rfl (by simp) (fun reviewed => ?_) (raised_working (fun _ h => h) _)
  split
  · exact completeWith_spec
  · exact retryOrBlock_spec hkind hdraft

/-- `resolve_lineage_result` of the task itself. -/
theorem resolve_spec :
    U.Spec i (.task m) (U.working m.envelope.taskId n) (resolveLineageResult m.envelope.taskId)
      (fun out => .and (U.working m.envelope.taskId n) <| .fact <|
        ∀ row ref, out = some (row, ref) → Ancestor R m.envelope.taskId row)
      (failing (U.working m.envelope.taskId n)) := by
  let G (a : TaskId) : Prop :=
    a = m.envelope.taskId ∨ S.Lineage R.via m.envelope.taskId a
  refine Triple.post (walk_spec (G := G) (fun s hP hI r hr hG hgo a ha => ?_) _ _ _
    fun a ha => .inl (List.mem_singleton.1 ha)) (fun out s h => ⟨h.1, fun row ref heq => ?_⟩)
    fun _ _ h => h
  · obtain ⟨k, hk, hmat⟩ := (U.wellFormed _ s hI).rows r hr
    rw [hmat.dependsOn] at ha
    rcases hG with hid | hlin
    · exact .inr (.parent hk (hmat.taskId.symm.trans hid) ha)
    · rcases hgo with hid | href
      · exact .inr (.parent hk (hmat.taskId.symm.trans hid) ha)
      · have hvia := U.via m s hI hP.2 r hr hlin href
        rw [hmat.taskId] at hlin
        rw [hmat.taskType] at hvia
        exact .inr (.step hlin hk hvia ha)
  · obtain ⟨hknown, hG, hne⟩ := h.2 row ref heq
    exact ⟨hknown, hG.resolve_left hne⟩

/-- `_single_draft_qa_review`. -/
theorem singleDraftQaReview_spec {kind : ReviewKind} (hkind : Reviews S kind m.envelope.taskId) :
    U.Spec i (.task m) (U.working m.envelope.taskId n) (singleDraftQaReview kind m.envelope)
      (fun _ => concluded R m.envelope.taskId) (U.left m.envelope.taskId n) := by
  refine Triple.bind (Triple.post resolve_spec (fun _ _ h => h) fun e s h => ?_) fun out => ?_
  · exact failing_mono h fun s h => .inl h
  cases out with
  | none => exact Triple.throw fun s h => ⟨rfl, .inl h.1⟩
  | some found =>
    obtain ⟨draft, draftRef⟩ := found
    refine Triple.pre (Triple.assume (P := U.working m.envelope.taskId n)
      (φ := Ancestor R m.envelope.taskId draft) fun hdraft => ?_)
      fun s h => ⟨h.2 draft draftRef rfl, h.1⟩
    refine bind_calls rfl (by simp) (fun campaign => ?_) (raised_working (fun _ h => h) _)
    simp only
    split
    · cases kind with
      | brandSteward => exact reviewAsset_spec hkind hdraft
      | factCheck =>
        refine bind_calls rfl (by simp) (fun approved => ?_) (raised_working (fun _ h => h) _)
        cases approved with
        | true => exact reviewAsset_spec hkind hdraft
        | false => exact blockWith_spec
    · split
      · exact completeWith_spec
      · refine bind_store (fun s h => present_of_working h) ?_ (raised_working (fun _ h => h) _)
        refine Triple.post (moves (Q := concluded R m.envelope.taskId) (fun s h _ => ?_)
          fun s s' _ _ hI' _ hm => concluded_of_failed hI' (inState_moved hm)) (fun _ _ h => h)
          fun e s h => left_of_raised h fun s h _ => h.imp_left fun h => h.1
        obtain ⟨⟨r, hr, hid, hlive, -⟩, -⟩ := h.1
        exact .block hr hid hlive

/-! ## Handlers -/

theorem writeBack_spec {P : Assertion Calm} (refs : List (TaskId × ResultRef)) :
    U.Spec i (.task m) P (writeBack refs) (fun _ => P) (failing P) := by
  induction refs with
  | nil => exact Triple.pure fun _ h => h
  | cons ref rest ih =>
    exact bind_calls rfl (by simp) (fun _ => ih) fun e s h => failing_of_raised h fun _ h => h

theorem ordinaryHandler_spec :
    U.Spec i (.task m) (U.working m.envelope.taskId n) (ordinaryHandler m.envelope)
      (fun _ => concluded R m.envelope.taskId) (U.left m.envelope.taskId n) := by
  refine bind_calls rfl (by simp) (fun out => ?_) (raised_working (fun _ h => h) _)
  refine Triple.bind (Triple.post (writeBack_spec _) (fun _ _ h => h) fun e s h => ?_) fun _ => ?_
  · exact failing_mono h fun s h => .inl h
  split
  · exact completeWith_spec
  · exact blockWith_spec

theorem reviews_of_dispatchTable {taskType : String} {kind : ReviewKind}
    (h : dispatchTable taskType = some (.qaReview kind)) : taskType = kind.taskType := by
  unfold dispatchTable at h
  split at h
  · rename_i heq
    cases h
    exact heq
  · split at h
    · rename_i heq
      cases h
      exact heq
    · split at h <;> cases h

/-- The task of the envelope is one of a batch. -/
def Envelops (S : Settings) (e : TaskEnvelope) : Prop :=
  ∃ k, S.Has k ∧ k.taskId = e.taskId ∧ k.taskType = e.taskType

/-- A handler that starts on a live task. -/
theorem handler_spec {h : Handler} (htype : dispatchTable m.envelope.taskType = some h)
    (henv : Envelops S m.envelope) :
    U.Spec i (.task m) (U.working m.envelope.taskId n) (h.run m.envelope)
      (fun _ => concluded R m.envelope.taskId) (U.left m.envelope.taskId n) := by
  cases h with
  | ordinary => exact ordinaryHandler_spec
  | qaReview kind =>
    obtain ⟨k, hk, hid, hty⟩ := henv
    exact singleDraftQaReview_spec ⟨k, hk, hid, hty.trans (reviews_of_dispatchTable htype)⟩

end Upkeep

end CanvasOS.Orchestrator
