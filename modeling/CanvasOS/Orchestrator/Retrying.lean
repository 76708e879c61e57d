/-
  The retry loop and the requeues come to an end.

  1. `Turns` — the loop of `_retry_or_dead_letter` as the source has it, without a bound: one turn
     after the other for as long as a failure is answered RETRY_PENDING.
  2. `LeftAs` — what a recorded failure leaves in the row, so that `retry_count` grows by one in
     each turn.  It bounds the turns, and the fuel of `retryWhile` is never what ends them.
  3. `Counted` — among other replicas: the failures that one handling has counted are no more than
     the row's `retry_count`, so that it calls the handler three times at most.
  4. `Requeued` — an envelope that is bounced back counts its requeues.
-/
import CanvasOS.Orchestrator.Absorbing
import CanvasOS.Orchestrator.Replicas

namespace CanvasOS.Orchestrator

open Interleave Python

/-- One statement, whoever executes it. -/
abbrev execStmt (o : Stmt) : o.Res → State → Option (o.Res × State) := exec o.query

/-! ## The loop -/

/-- `while outcome.value == "retry_pending"`: from `outcome` and a state, the ends of the handler's
    calls, and how and where the loop ends. -/
inductive Turns (e : TaskEnvelope) :
    TaskState → State → List (Except Exc Unit) → Except Exc Unit → State → Prop where
  | ended {outcome : TaskState} {s : State} (h : outcome ≠ .retryPending) :
      Turns e outcome s [] (.ok ()) s
  | succeeded {s t : State} (h : Completes execStmt (runAgain e) s (.ok ()) t) :
      Turns e .retryPending s [.ok ()] (.ok ()) t
  | failed {x : Exc} {outcome : TaskState} {s t u v : State} {results : List (Except Exc Unit)}
      {out : Except Exc Unit} (h : Completes execStmt (runAgain e) s (.error x) t)
      (hrecord : Completes execStmt (recordFailure e.taskId) t (.ok outcome) u)
      (rest : Turns e outcome u results out v) :
      Turns e .retryPending s (.error x :: results) out v
  | unrecorded {x y : Exc} {s t u : State} (h : Completes execStmt (runAgain e) s (.error x) t)
      (hrecord : Completes execStmt (recordFailure e.taskId) t (.error y) u) :
      Turns e .retryPending s [.error x] (.error y) u

/-- `_retry_or_dead_letter`: the failed dispatch is recorded, and the loop begins. -/
inductive Retries (e : TaskEnvelope) :
    State → List (Except Exc Unit) → Except Exc Unit → State → Prop where
  | recorded {outcome : TaskState} {s t u : State} {results : List (Except Exc Unit)}
      {out : Except Exc Unit}
      (hrecord : Completes execStmt (recordFailure e.taskId) s (.ok outcome) t)
      (rest : Turns e outcome t results out u) : Retries e s results out u
  | unrecorded {y : Exc} {s t : State}
      (hrecord : Completes execStmt (recordFailure e.taskId) s (.error y) t) :
      Retries e s [] (.error y) t

/-! ## The failures of a row -/

section Rows

variable {s t : State} {u v : TaskId} {r : TaskRow}

/-- An update of any task leaves the row of task `u` there. -/
theorem find_of_updateTask {f : TaskRow → TaskRow} (htasks : t.tasks = s.updateTask v f)
    (hf : ∀ r, (f r).taskId = r.taskId) (hr : s.find u = some r) :
    t.find u = some (if r.taskId == v then f r else r) := by
  have hid : ((fun r : TaskRow => r.taskId == u) ∘ fun r => if r.taskId == v then f r else r) =
      fun r => r.taskId == u := by
    funext r
    simp only [Function.comp]
    split
    · rw [hf]
    · rfl
  unfold State.find at hr ⊢
  rw [htasks]
  show List.find? _ (List.map (fun r => if r.taskId == v then f r else r) s.tasks) = _
  rw [List.find?_map, hid, hr]
  rfl

theorem find_insertTask {n : NewTask} (hr : s.find u = some r) :
    (s.insertTask n).find u = some r := by
  unfold State.insertTask
  split
  · exact hr
  · unfold State.find at hr ⊢
    rw [List.find?_append, hr]
    rfl

theorem find_foldl_insertTask {tasks : List NewTask} (hr : s.find u = some r) :
    (tasks.foldl State.insertTask s).find u = some r := by
  induction tasks generalizing s with
  | nil => exact hr
  | cons n tasks ih => exact ih (find_insertTask hr)

/-- The row of task `u` is there, and has counted `n` failures or more. -/
def Struck (u : TaskId) (n : Nat) (s : State) : Prop := ∃ r, s.find u = some r ∧ n ≤ r.retryCount

/-- No statement takes a failure back. -/
theorem exec_struck {q : Query} {a b : q.Res} {n : Nat} (h : exec q a s = some (b, t))
    (hs : Struck u n s) : Struck u n t := by
  obtain ⟨r, hr, hn⟩ := hs
  have hsame (htasks : t.tasks = s.tasks) : Struck u n t := by
    refine ⟨r, ?_, hn⟩
    unfold State.find at hr ⊢
    rw [htasks]
    exact hr
  have hupdate {v : TaskId} {f : TaskRow → TaskRow} (htasks : t.tasks = s.updateTask v f)
      (hf : ∀ r : TaskRow, (f r).taskId = r.taskId ∧ r.retryCount ≤ (f r).retryCount) :
      Struck u n t := by
    refine ⟨_, find_of_updateTask htasks (fun r => (hf r).1) hr, ?_⟩
    split
    · exact Nat.le_trans hn (hf r).2
    · exact hn
  cases q with
  | insertTaskBatch tasks =>
    obtain ⟨-, rfl⟩ := Prod.mk.inj (Option.some.inj h)
    exact ⟨r, find_foldl_insertTask hr, hn⟩
  | transition v dest reason =>
    obtain ⟨row, -, heq⟩ := Option.map_eq_some_iff.1 h
    obtain ⟨-, rfl⟩ := Prod.mk.inj heq
    exact hupdate rfl fun r => ⟨rfl, Nat.le_refl _⟩
  | incrementRetry v =>
    obtain ⟨row, -, heq⟩ := Option.map_eq_some_iff.1 h
    obtain ⟨-, rfl⟩ := Prod.mk.inj heq
    exact hupdate rfl fun r => ⟨rfl, Nat.le_succ _⟩
  | setResultRef v ref =>
    obtain ⟨-, rfl⟩ := Prod.mk.inj (Option.some.inj h)
    exact hupdate rfl fun r => ⟨rfl, Nat.le_refl _⟩
  | pendingDependents | getTasks | findDependentTasks =>
    simp only [exec] at h
    split at h
    · obtain ⟨-, rfl⟩ := Prod.mk.inj (Option.some.inj h)
      exact hsame rfl
    · cases h
  | _ =>
    obtain ⟨-, rfl⟩ := Prod.mk.inj (Option.some.inj h)
    exact hsame rfl

/-- A failure is counted of a row that is there. -/
theorem exec_incrementRetry {a b : Nat} (h : exec (.incrementRetry u) a s = some (b, t)) :
    ∃ r, s.find u = some r ∧ b = r.retryCount + 1 ∧
      t.find u = some { r with retryCount := r.retryCount + 1 } := by
  obtain ⟨r, hr, heq⟩ := Option.map_eq_some_iff.1 h
  obtain ⟨rfl, rfl⟩ := Prod.mk.inj heq
  have hid : r.taskId = u := (find_some hr).2
  have hfind := find_of_updateTask (u := u)
    (t := { s with tasks := s.updateTask u fun r => { r with retryCount := r.retryCount + 1 } })
    rfl (fun _ => rfl) hr
  rw [if_pos (by simpa using hid)] at hfind
  exact ⟨r, hr, rfl, hfind⟩

theorem find_transition {dest : TaskState} {reason : TransitionReason} {a b : Unit}
    (h : exec (.transition u dest reason) a s = some (b, t)) (hr : s.find u = some r) :
    t.find u = some { r with state := dest } := by
  obtain ⟨row, -, heq⟩ := Option.map_eq_some_iff.1 h
  obtain ⟨-, rfl⟩ := Prod.mk.inj heq
  have hid : r.taskId = u := (find_some hr).2
  have hfind := find_of_updateTask (t := { s with
    tasks := s.updateTask u fun r => { r with state := dest } }) rfl (fun _ => rfl) hr
  rw [if_pos (by simpa using hid)] at hfind
  exact hfind

/-- What a recorded failure leaves behind: a task that is to be retried and has failed fewer than
    three times, or a terminal one. -/
def LeftAs (u : TaskId) (n : Nat) (outcome : TaskState) (s : State) : Prop :=
  ∃ r, s.find u = some r ∧ if outcome = .retryPending then n < r.retryCount ∧
    r.retryCount < maxFailures else r.state.terminal = true

/-- One statement and what follows its answer. -/
theorem keeps_call {α : Type} {J : State → Prop} {site : Site} {q : Query} {f : q.Res → Worker α}
    {Q : α → State → Prop} (hJ : J s)
    (h : ∀ a b t, exec q a s = some (b, t) → Keeps execStmt J (f b) Q t) :
    Keeps execStmt J (call site q >>= f) Q s :=
  ⟨hJ, fun _ => hJ, fun a b t hx => ⟨h a b t hx, fun _ => (h a b t hx).inv⟩⟩

/-- The alert moves no row. -/
theorem emitAlert_leaves {P : Option TaskRow → Prop} (hs : P (s.find u)) :
    Keeps execStmt (fun _ => True) (emitAlert u) (fun _ t => P (t.find u)) s := by
  refine keeps_call True.intro fun a b t hx => ?_
  obtain ⟨rfl, rfl⟩ := Prod.mk.inj (Option.some.inj hx)
  split
  · exact True.intro
  · refine ⟨True.intro, fun _ => True.intro, fun a b t hx => ?_⟩
    obtain ⟨-, rfl⟩ := Prod.mk.inj (Option.some.inj hx)
    exact ⟨⟨True.intro, hs⟩, fun _ => True.intro⟩

/-- `record_failure`, of a task that is not terminal and has failed `n` times or more. -/
theorem countFailure_leaves {n : Nat} (hn : ∀ r, s.find u = some r → n ≤ r.retryCount) :
    Keeps execStmt (fun _ => True) (countFailure u) (LeftAs u n) s := by
  refine keeps_call True.intro fun a b t hx => ?_
  obtain ⟨r, hr, rfl, hfind⟩ := exec_incrementRetry hx
  have hcount : n < r.retryCount + 1 := Nat.lt_succ_of_le (hn r hr)
  split
  · rename_i hlt
    refine keeps_call True.intro fun a b t' hx => ⟨True.intro, _, find_transition hx hfind, ?_⟩
    rw [if_pos rfl]
    exact ⟨hcount, hlt⟩
  · refine keeps_call True.intro fun a b t' hx => ?_
    refine (emitAlert_leaves (P := fun found => ∃ r, found = some r ∧ r.state.terminal = true)
      ⟨_, find_transition hx hfind, rfl⟩).bind fun _ t'' _ hdead => ⟨True.intro, ?_⟩
    obtain ⟨r', hr', hterminal⟩ := hdead
    exact ⟨r', hr', hterminal⟩

/-- `record_failure`, of a task that has failed `n` times or more. -/
theorem recordFailure_leaves {n : Nat} (hn : ∀ r, s.find u = some r → n ≤ r.retryCount) :
    Keeps execStmt (fun _ => True) (recordFailure u) (LeftAs u n) s := by
  refine keeps_call True.intro fun a b t hx => ?_
  obtain ⟨rfl, rfl⟩ := Prod.mk.inj (Option.some.inj hx)
  cases hfind : s.find u with
  | none => exact countFailure_leaves hn
  | some r =>
    simp only
    split
    · rename_i hterminal
      have hne : r.state ≠ .retryPending := by
        intro h
        rw [h] at hterminal
        exact absurd hterminal (by decide)
      refine ⟨True.intro, r, hfind, ?_⟩
      rw [if_neg hne]
      exact hterminal
    · exact countFailure_leaves hn

theorem recordFailure_left {n : Nat} {outcome : TaskState}
    (h : Completes execStmt (recordFailure u) s (.ok outcome) t)
    (hn : ∀ r, s.find u = some r → n ≤ r.retryCount) : LeftAs u n outcome t :=
  (Keeps.sound h (recordFailure_leaves hn)).2

/-- Whatever a routine does, it takes no failure back. -/
theorem struck_of_completes {α : Type} {p : Worker α} {out : Except Exc α} {n : Nat}
    (h : Completes execStmt p s out t) (hs : Struck u n s) : Struck u n t :=
  (Upholds.sound h (Upholds.of_only (Prog.Only.trivial p) hs
    fun _ _ _ _ _ _ hx hs => exec_struck hx hs)).inv

end Rows

/-! ## The loop and its fuel -/

section Loop

variable {e : TaskEnvelope} {s t : State} {outcome : TaskState} {results : List (Except Exc Unit)}
  {out : Except Exc Unit} {n : Nat}

/-- A turn that failed: the row counts one failure more. -/
theorem LeftAs.turn {x : Exc} {u : State} (h : LeftAs e.taskId n .retryPending s)
    (hturn : Completes execStmt (runAgain e) s (.error x) t)
    (hrecord : Completes execStmt (recordFailure e.taskId) t (.ok outcome) u) :
    LeftAs e.taskId (n + 1) outcome u := by
  obtain ⟨r, hr, hcount⟩ := h
  rw [if_pos rfl] at hcount
  obtain ⟨r', hr', hle⟩ := struck_of_completes hturn ⟨r, hr, hcount.1⟩
  refine recordFailure_left hrecord fun r'' hr'' => ?_
  rw [hr'] at hr''
  obtain rfl := Option.some.inj hr''
  exact hle

/-- The loop ends after a call that succeeded, or with a terminal task; and after as many calls as
    there are failures left. -/
theorem Turns.bounded (h : Turns e outcome s results out t) (hleft : LeftAs e.taskId n outcome s) :
    (outcome = .retryPending → results.length + n < maxFailures) ∧
      (outcome ≠ .retryPending → results = []) ∧
      (out = .ok () → results.getLast? = some (.ok ()) ∨
        ∃ r, t.find e.taskId = some r ∧ r.state.terminal = true) := by
  induction h generalizing n with
  | ended hne =>
    obtain ⟨r, hr, hterminal⟩ := hleft
    rw [if_neg hne] at hterminal
    exact ⟨fun h => absurd h hne, fun _ => rfl, fun _ => .inr ⟨r, hr, hterminal⟩⟩
  | succeeded =>
    obtain ⟨r, -, hcount⟩ := hleft
    rw [if_pos rfl] at hcount
    refine ⟨fun _ => ?_, fun hne => absurd rfl hne, fun _ => .inl rfl⟩
    have hlen : [(.ok () : Except Exc Unit)].length = 1 := rfl
    omega
  | @failed x outcome s t u v results out hturn hrecord rest ih =>
    obtain ⟨hpending, hnone, hend⟩ := ih (hleft.turn hturn hrecord)
    refine ⟨fun _ => ?_, fun hne => absurd rfl hne, fun hok => ?_⟩
    · obtain ⟨r, -, hcount⟩ := hleft
      rw [if_pos rfl] at hcount
      rw [List.length_cons]
      by_cases hp : outcome = .retryPending
      · have hlen := hpending hp
        omega
      · rw [hnone hp, List.length_nil]
        omega
    · rcases hend hok with hlast | hterminal
      · left
        rw [List.getLast?_cons, hlast]
        rfl
      · exact .inr hterminal
  | unrecorded =>
    obtain ⟨r, -, hcount⟩ := hleft
    rw [if_pos rfl] at hcount
    refine ⟨fun _ => ?_, fun hne => absurd rfl hne, nofun⟩
    rw [List.length_singleton]
    omega

/-- The loop with enough fuel is the loop without a bound. -/
theorem retryWhile_iff {fuel : Nat} (hleft : LeftAs e.taskId n outcome s)
    (hfuel : maxFailures ≤ n + fuel + 1) :
    Completes execStmt (retryWhile e fuel outcome) s out t ↔
      ∃ results, Turns e outcome s results out t := by
  induction fuel generalizing outcome s n with
  | zero =>
    have hne : outcome ≠ .retryPending := by
      rintro rfl
      obtain ⟨r, -, hcount⟩ := hleft
      rw [if_pos rfl] at hcount
      omega
    constructor
    · intro h
      obtain ⟨rfl, rfl⟩ := Completes.of_pure h
      exact ⟨[], .ended hne⟩
    · rintro ⟨results, h⟩
      cases h with
      | ended => exact .pure
      | succeeded | failed | unrecorded => exact absurd rfl hne
  | succ fuel ih =>
    by_cases hp : outcome = .retryPending
    · subst hp
      have hwhile : retryWhile e (fuel + 1) .retryPending = (runAgain e).tryCatch fun _ =>
          (recordFailure e.taskId).bind fun outcome => retryWhile e fuel outcome := by
        rw [retryWhile]
        exact if_pos rfl
      rw [hwhile]
      constructor
      · intro h
        rcases Completes.of_tryCatch h with ⟨⟨⟩, rfl, hdone⟩ | ⟨x, u, hturn, h⟩
        · exact ⟨_, .succeeded hdone⟩
        · rcases Completes.of_bind h with ⟨outcome, v, hrecord, h⟩ | ⟨y, rfl, hrecord⟩
          · obtain ⟨results, hrest⟩ :=
              (ih (hleft.turn hturn hrecord) (by omega)).1 h
            exact ⟨_, .failed hturn hrecord hrest⟩
          · exact ⟨_, .unrecorded hturn hrecord⟩
      · rintro ⟨results, h⟩
        cases h with
        | ended hne => exact absurd rfl hne
        | succeeded h => exact .tryCatch_ok h
        | failed hturn hrecord rest =>
          exact .tryCatch_error hturn (.bind hrecord
            ((ih (hleft.turn hturn hrecord) (by omega)).2 ⟨_, rest⟩))
        | unrecorded hturn hrecord => exact .tryCatch_error hturn (.bind_error hrecord)
    · have hwhile : retryWhile e (fuel + 1) outcome = .pure () := by
        unfold retryWhile
        exact if_neg hp
      rw [hwhile]
      constructor
      · intro h
        obtain ⟨rfl, rfl⟩ := Completes.of_pure h
        exact ⟨[], .ended hp⟩
      · rintro ⟨results, h⟩
        cases h with
        | ended => exact .pure
        | succeeded | failed | unrecorded => exact absurd rfl hp

/-- The failed dispatch is recorded, and the loop has enough fuel. -/
theorem retries_iff {fuel : Nat} (hfuel : maxFailures ≤ fuel) :
    Completes execStmt (recordFailure e.taskId >>= retryWhile e fuel) s out t ↔
      ∃ results, Retries e s results out t := by
  constructor
  · intro h
    rcases Completes.of_bind h with ⟨outcome, u, hrecord, h⟩ | ⟨y, rfl, hrecord⟩
    · have hleft : LeftAs e.taskId 0 outcome u :=
        recordFailure_left hrecord fun r _ => Nat.zero_le _
      obtain ⟨results, hrest⟩ := (retryWhile_iff hleft (by omega)).1 h
      exact ⟨results, .recorded hrecord hrest⟩
    · exact ⟨[], .unrecorded hrecord⟩
  · rintro ⟨results, h⟩
    cases h with
    | recorded hrecord rest =>
      have hleft : LeftAs e.taskId 0 _ _ := recordFailure_left hrecord fun r _ => Nat.zero_le _
      exact .bind hrecord ((retryWhile_iff hleft (by omega)).2 ⟨_, rest⟩)
    | unrecorded hrecord => exact .bind_error hrecord

/-- What a failed dispatch leads to, whatever the handler does: two further calls at most. -/
theorem Retries.bounded (h : Retries e s results out t) : results.length + 1 ≤ maxFailures ∧
    (out = .ok () → results.getLast? = some (.ok ()) ∨
      ∃ r, t.find e.taskId = some r ∧ r.state.terminal = true) := by
  cases h with
  | recorded hrecord rest =>
    obtain ⟨hpending, hnone, hend⟩ :=
      rest.bounded (recordFailure_left hrecord fun r _ => Nat.zero_le _)
    refine ⟨?_, hend⟩
    rename_i outcome u
    by_cases hp : outcome = .retryPending
    · exact hpending hp
    · rw [hnone hp]
      exact (by decide)
  | unrecorded => exact ⟨by decide, nofun⟩

end Loop

/-! ## One handling among the replicas -/

/-- How often the handler of task `u` was called. -/
def calls (u : TaskId) (log : Heard Stmt Stmt.Res) : Nat :=
  log.countP fun x => x.1.query = .invoke u

/-- The failures counted of task `u`: what each `increment_retry` answered. -/
def failures (u : TaskId) : Heard Stmt Stmt.Res → List Nat
  | [] => []
  | ⟨⟨_, .incrementRetry v⟩, b⟩ :: log => if v = u then b :: failures u log else failures u log
  | _ :: log => failures u log

/-- The `k`-th failure that was counted is answered `k` or more. -/
def Counted (u : TaskId) : Heard Stmt Stmt.Res → Prop
  | [] => True
  | ⟨⟨_, .incrementRetry v⟩, b⟩ :: log =>
    (v = u → (failures u log).length < b) ∧ Counted u log
  | _ :: log => Counted u log

/-- A statement that neither calls the handler of task `u` nor counts a failure of it. -/
def Still (u : TaskId) (o : Stmt) : Prop := o.query ≠ .invoke u ∧ o.query ≠ .incrementRetry u

section Log

variable {u : TaskId} {log : Heard Stmt Stmt.Res}

theorem Still.calls {o : Stmt} (h : Still u o) (a : o.Res) :
    calls u (⟨o, a⟩ :: log) = calls u log := by
  unfold Orchestrator.calls
  rw [List.countP_cons, if_neg (by simpa using h.1)]
  rfl

theorem failures_cons {o : Stmt} (h : o.query ≠ .incrementRetry u) (a : o.Res) :
    failures u (⟨o, a⟩ :: log) = failures u log := by
  obtain ⟨site, q⟩ := o
  cases q with
  | incrementRetry v =>
    have hne : v ≠ u := fun heq => h (congrArg Query.incrementRetry heq)
    show (if v = u then _ else _) = _
    exact if_neg hne
  | _ => rfl

theorem Counted.tail {x : (o : Stmt) × o.Res} (h : Counted u (x :: log)) : Counted u log := by
  obtain ⟨⟨site, q⟩, a⟩ := x
  cases q with
  | incrementRetry v => exact h.2
  | _ => exact h

/-- As many calls as counted failures, and `n` more; fewer than three failures. -/
def Spent (u : TaskId) (n : Nat) (log : Heard Stmt Stmt.Res) : Prop :=
  Counted u log → calls u log ≤ (failures u log).length + n ∧ (failures u log).length < maxFailures

/-- No more calls than there are failures. -/
def WithinLimit (u : TaskId) (log : Heard Stmt Stmt.Res) : Prop :=
  Counted u log → calls u log ≤ maxFailures

theorem Spent.within {n : Nat} (h : Spent u n log) (hn : n ≤ 1) : WithinLimit u log := fun hc => by
  have hspent := h hc
  omega

theorem Spent.mono {n m : Nat} (h : Spent u n log) (hnm : n ≤ m) : Spent u m log := fun hc =>
  ⟨Nat.le_trans (h hc).1 (Nat.add_le_add_left hnm _), (h hc).2⟩

theorem Spent.still {n : Nat} {o : Stmt} (ho : Still u o) (h : Spent u n log) (a : o.Res) :
    Spent u n (⟨o, a⟩ :: log) := fun hc => by
  rw [ho.calls, failures_cons ho.2]
  exact h hc.tail

theorem WithinLimit.still {o : Stmt} (ho : Still u o) (h : WithinLimit u log) (a : o.Res) :
    WithinLimit u (⟨o, a⟩ :: log) := fun hc => by
  rw [ho.calls]
  exact h hc.tail

/-- A routine of still statements. -/
theorem upholds_still {α : Type} {p : Worker α} {J : Heard Stmt Stmt.Res → Prop}
    (hp : p.Only (Still u)) (hJ : J log)
    (hstill : ∀ o a log, Still u o → J log → J (⟨o, a⟩ :: log)) :
    Upholds hear J p (fun _ log' => J log') log := by
  have hkeep : Upholds hear J p (fun _ _ => True) log :=
    Upholds.of_only hp hJ fun o a b s t ho hx hs => by
      obtain rfl := hear_eq_some hx
      exact hstill o b s ho hs
  exact hkeep.mono fun _ _ hJ _ => hJ

theorem still_of_handlerStmt {o : Stmt} (h : HandlerStmt o) : Still u o := by
  obtain ⟨site, q⟩ := o
  obtain ⟨-, h⟩ := h
  exact ⟨fun heq => by rw [heq] at h; exact h, fun heq => by rw [heq] at h; exact h⟩

theorem Modest.still {α : Type} {p : Worker α} (h : Modest p) : p.Only (Still u) :=
  (Prog.Within.only h).mono fun _ ho => still_of_handlerStmt ho

theorem still_call {site : Site} {q : Query} (h : Still u ⟨site, q⟩) :
    (call site q).Only (Still u) :=
  ⟨h, fun r => by cases r <;> exact True.intro⟩

/-- A statement of the dead-letter routines: it reads a row, moves the task or raises the alert. -/
def Marks (o : Stmt) : Prop :=
  match o.query with
  | .getTask _ | .transition _ _ _ | .publishAlert _ => True
  | _ => False

theorem emitAlert_marks (v : TaskId) : (emitAlert v).Only Marks := by
  refine ⟨True.intro, fun r => ?_⟩
  cases r with
  | error e => exact True.intro
  | ok found =>
    cases found with
    | none => exact True.intro
    | some task => exact ⟨True.intro, fun r => by cases r <;> exact True.intro⟩

theorem cascadeDeadLetter_marks (v : TaskId) : (cascadeDeadLetter v).Only Marks := by
  refine ⟨True.intro, fun r => ?_⟩
  cases r with
  | error e => exact True.intro
  | ok current =>
    show Prog.Only _ (if _ then _ else _)
    split
    · exact True.intro
    · refine ⟨True.intro, fun r => ?_⟩
      cases r with
      | error e => exact True.intro
      | ok _ => exact (emitAlert_marks v).bind fun _ => True.intro

theorem still_of_marks {o : Stmt} (h : Marks o) : Still u o := by
  constructor
  · intro heq
    rw [Marks, heq] at h
    exact h
  · intro heq
    rw [Marks, heq] at h
    exact h

/-- The handler is called, once. -/
theorem invoke_upholds {site : Site} {rest : Worker Unit} (hrest : rest.Only (Still u))
    (hlog : Spent u 0 log) :
    Upholds hear (Spent u 1) (call site (.invoke u) >>= fun _ => rest)
      (fun _ => Spent u 1) log := by
  have hnew (a : Unit) : Spent u 1 (⟨⟨site, .invoke u⟩, a⟩ :: log) := fun hc => by
    obtain ⟨hle, hlt⟩ := hlog hc.tail
    have hcalls : calls u (⟨⟨site, .invoke u⟩, a⟩ :: log) = calls u log + 1 := by
      unfold calls
      rw [List.countP_cons, if_pos (by simp)]
    rw [hcalls, failures_cons (by simp)]
    exact ⟨Nat.succ_le_succ hle, hlt⟩
  refine upholds_call (hlog.mono (Nat.zero_le 1)) hnew (fun _ _ h => h) fun a => ?_
  exact upholds_still hrest (hnew a) fun o a log ho h => h.still ho a

/-- The handler once more. -/
theorem runAgain_upholds {e : TaskEnvelope} (hlog : Spent e.taskId 0 log) :
    Upholds hear (Spent e.taskId 1) (runAgain e) (fun _ => Spent e.taskId 1) log := by
  unfold runAgain
  cases dispatchTable e.taskType with
  | none =>
    have htransition : Still e.taskId ⟨.handler, .transition e.taskId .running .dispatched⟩ :=
      ⟨nofun, nofun⟩
    have hnew (a : Unit) := hlog.still htransition a
    refine upholds_call (hlog.mono (Nat.zero_le 1)) (fun a => (hnew a).mono (Nat.zero_le 1))
      (fun _ _ h => h) fun a => ?_
    exact invoke_upholds (completeTask_modest _).still (hnew a)
  | some handler => exact invoke_upholds (handler_modest handler e).still hlog

/-- The dispatch gate, and the first call behind it. -/
theorem dispatchTask_upholds {e : TaskEnvelope} (hlog : Spent e.taskId 0 log) :
    Upholds hear (Spent e.taskId 1) (dispatchTask e) (fun _ => Spent e.taskId 1) log := by
  have hread (a : Option TaskRow) : Spent e.taskId 0 (⟨⟨.gate, .getTask e.taskId⟩, a⟩ :: log) :=
    hlog.still (o := ⟨.gate, .getTask e.taskId⟩) ⟨nofun, nofun⟩ a
  refine upholds_call (hlog.mono (Nat.zero_le 1)) (fun a => (hread a).mono (Nat.zero_le 1))
    (fun _ _ h => h) fun found => ?_
  cases found with
  | none => exact ⟨(hread _).mono (Nat.zero_le 1), (hread _).mono (Nat.zero_le 1)⟩
  | some current =>
    simp only
    split
    · unfold runTask
      cases dispatchTable e.taskType with
      | none =>
        have hnew (a : Unit) := (hread (some current)).still
          (o := ⟨.gate, .transition e.taskId .running .dispatched⟩) ⟨nofun, nofun⟩ a
        refine upholds_call ((hread _).mono (Nat.zero_le 1))
          (fun a => (hnew a).mono (Nat.zero_le 1)) (fun _ _ h => h) fun a => ?_
        exact invoke_upholds (completeTask_modest _).still (hnew a)
      | some handler =>
        have hnew (a : Unit) := (hread (some current)).still
          (o := ⟨.gate, .transition e.taskId .running .dispatched⟩) ⟨nofun, nofun⟩ a
        refine upholds_call ((hread _).mono (Nat.zero_le 1))
          (fun a => (hnew a).mono (Nat.zero_le 1)) (fun _ _ h => h) fun a => ?_
        exact invoke_upholds (handler_modest handler e).still (hnew a)
    · split
      · exact ⟨(hread _).mono (Nat.zero_le 1), (hread _).mono (Nat.zero_le 1)⟩
      · have hfind : (findDeadLetteredDependency current).Only (Still e.taskId) := by
          unfold findDeadLetteredDependency
          split
          · exact True.intro
          · exact Prog.Only.bind (still_call ⟨nofun, nofun⟩) fun _ => True.intro
        refine (upholds_still hfind ((hread (some current)).mono (Nat.zero_le 1))
          fun o a log ho h => h.still ho a).bind (fun found log' h _ => ?_) fun _ _ _ h => h
        cases found <;> exact ⟨h, h⟩

/-- A failure is recorded: after it, the calls are no more than the failures. -/
theorem recordFailure_upholds {u : TaskId} (hlog : Spent u 1 log) :
    Upholds hear (WithinLimit u) (recordFailure u)
      (fun out log' => out = .ok .retryPending → Spent u 0 log') log := by
  have hstill {α : Type} {p : Worker α} {log' : Heard Stmt Stmt.Res}
      {Q : Except Exc α → Heard Stmt Stmt.Res → Prop} (hp : p.Only (Still u))
      (h : WithinLimit u log') (hQ : ∀ out log', WithinLimit u log' → Q out log') :
      Upholds hear (WithinLimit u) p Q log' :=
    (upholds_still hp h fun o a log ho h => h.still ho a).mono fun out log' hJ _ => hQ out log' hJ
  have hcount {log' : Heard Stmt Stmt.Res} (hlog' : Spent u 1 log') :
      Upholds hear (WithinLimit u) (countFailure u)
        (fun out log' => out = .ok .retryPending → Spent u 0 log') log' := by
    have hnew (b : Nat) :
        WithinLimit u (⟨⟨.stateMachine, .incrementRetry u⟩, b⟩ :: log') := fun hc =>
      hlog'.within (Nat.le_refl 1) hc.tail
    refine upholds_call (hlog'.within (Nat.le_refl 1)) hnew (fun _ _ _ => nofun) fun b => ?_
    split
    · rename_i hlt
      -- the answer bounds the failures counted so far, and it is less than three
      have hspent : Spent u 0 (⟨⟨.stateMachine, .incrementRetry u⟩, b⟩ :: log') := fun hc => by
        obtain ⟨hle, -⟩ := hlog' hc.tail
        have hlen := hc.1 rfl
        have hfailures : failures u (⟨⟨.stateMachine, .incrementRetry u⟩, b⟩ :: log') =
            b :: failures u log' := by
          show (if u = u then _ else _) = _
          exact if_pos rfl
        rw [hfailures, List.length_cons]
        exact ⟨hle, Nat.lt_of_le_of_lt (Nat.succ_le_of_lt hlen) hlt⟩
      have hdone (a : Unit) := hspent.still (o := ⟨.stateMachine, .transition u .retryPending
        (if b = 1 then .failedAttempt1 else .failedAttempt2)⟩) ⟨nofun, nofun⟩ a
      exact upholds_call (hspent.within (Nat.zero_le 1)) (fun a => (hdone a).within (Nat.zero_le 1))
        (fun _ _ _ => nofun) fun a => ⟨(hdone a).within (Nat.zero_le 1), fun _ => hdone a⟩
    · have hdead (a : Unit) := (hnew b).still
        (o := ⟨.stateMachine, .transition u .deadLettered .deadLettered⟩) ⟨nofun, nofun⟩ a
      refine upholds_call (hnew b) hdead (fun _ _ _ => nofun) fun a => ?_
      have halert : (emitAlert u).Only (Still u) :=
        (emitAlert_marks u).mono fun _ => still_of_marks
      exact (hstill (Q := fun _ => WithinLimit u) halert (hdead a) fun _ _ h => h).bind
        (fun _ log' h _ => ⟨h, nofun⟩) fun _ _ _ _ => nofun
  have hread (a : Option TaskRow) := hlog.still (o := ⟨.stateMachine, .getTask u⟩) ⟨nofun, nofun⟩ a
  refine upholds_call (hlog.within (Nat.le_refl 1)) (fun a => (hread a).within (Nat.le_refl 1))
    (fun _ _ _ => nofun) fun found => ?_
  cases found with
  | none => exact hcount (hread none)
  | some current =>
    simp only
    split
    · rename_i hterminal
      refine ⟨(hread _).within (Nat.le_refl 1), fun heq => ?_⟩
      rw [Except.ok.inj heq] at hterminal
      exact absurd hterminal (by decide)
    · exact hcount (hread _)

/-- The loop. -/
theorem retryWhile_upholds {e : TaskEnvelope} {fuel : Nat} {outcome : TaskState}
    (hlog : WithinLimit e.taskId log) (hspent : outcome = .retryPending → Spent e.taskId 0 log) :
    Upholds hear (WithinLimit e.taskId) (retryWhile e fuel outcome) (fun _ _ => True) log := by
  induction fuel generalizing outcome log with
  | zero => exact ⟨hlog, True.intro⟩
  | succ fuel ih =>
    rw [retryWhile]
    split
    · rename_i hp
      refine ((runAgain_upholds (hspent hp)).weaken fun log h => h.within (Nat.le_refl 1)).tryCatch
        (fun _ _ _ _ => True.intro) fun x log' _ h => ?_
      exact (recordFailure_upholds h.1).bind
        (fun outcome log' hJ h => ih hJ fun hp => h (by rw [hp])) fun _ _ _ _ => True.intro
    · exact ⟨hlog, True.intro⟩

/-- One message, from its first statement to its last. -/
theorem processTask_upholds (msg : TaskMessage) :
    Upholds hear (WithinLimit msg.envelope.taskId) (processTask msg) (fun _ _ => True) [] := by
  have hnil (n : Nat) : Spent msg.envelope.taskId n [] := fun _ => ⟨Nat.zero_le _, Nat.succ_pos _⟩
  have hrecord {log : Heard Stmt Stmt.Res} (h : Spent msg.envelope.taskId 1 log) :
      Upholds hear (WithinLimit msg.envelope.taskId)
        (recordFailure msg.envelope.taskId >>= fun _ => pure ()) (fun _ _ => True) log :=
    (recordFailure_upholds h).bind (fun _ _ hJ _ => ⟨hJ, True.intro⟩) fun _ _ _ _ => True.intro
  have hstill {α : Type} {p : Worker α} {log : Heard Stmt Stmt.Res}
      (hp : p.Only (Still msg.envelope.taskId)) (h : WithinLimit msg.envelope.taskId log) :
      Upholds hear (WithinLimit msg.envelope.taskId) p (fun _ _ => True) log :=
    (upholds_still hp h fun o a log ho h => h.still ho a).mono fun _ _ _ _ => True.intro
  have hhandle : Upholds hear (WithinLimit msg.envelope.taskId) (handleTaskMessage msg.envelope)
      (fun _ _ => True) [] := by
    refine ((dispatchTask_upholds (hnil 0)).weaken fun log h => h.within (Nat.le_refl 1)).tryCatch
      (fun _ _ _ _ => True.intro) fun x log hJ h => ?_
    cases x with
    | dependencyDeadLettered dep =>
      have hcascade : (cascadeDeadLetter msg.envelope.taskId).Only (Still msg.envelope.taskId) :=
        (cascadeDeadLetter_marks _).mono fun _ => still_of_marks
      exact hstill (hcascade.bind fun _ => True.intro) hJ
    | taskAlreadyTerminal st => exact ⟨hJ, True.intro⟩
    | taskNotReady =>
      simp only
      unfold requeueOrGiveUp
      split
      · exact hrecord h.1
      · exact hstill (still_call ⟨nofun, nofun⟩) hJ
    | other =>
      exact (recordFailure_upholds h.1).bind
        (fun outcome log' hJ h => retryWhile_upholds hJ fun hp => h (by rw [hp]))
        fun _ _ _ _ => True.intro
  have hfirst : Upholds hear (WithinLimit msg.envelope.taskId)
      (if 1 < msg.deliveryCount then reconcileRedeliveredTask msg.envelope
        else handleTaskMessage msg.envelope) (fun _ _ => True) [] := by
    split
    · exact hrecord (hnil 1)
    · exact hhandle
  have hcaught := hfirst.tryCatch (g := fun _ => .pure ()) (R := fun _ _ => True)
    (fun _ _ _ _ => True.intro) fun _ _ hJ _ => ⟨hJ, True.intro⟩
  refine hcaught.bind (fun _ log hJ _ => ?_) fun _ _ _ _ => True.intro
  have hcomplete : (call .transport (.completeTask msg)).Only (Still msg.envelope.taskId) :=
    still_call ⟨nofun, nofun⟩
  have hlast : ((call .transport (.completeTask msg)).tryCatch fun _ => .pure ()).Only
      (Still msg.envelope.taskId) := hcomplete.tryCatch fun _ => True.intro
  exact hstill hlast hJ

end Log

/-! ## Runs -/

section Runs

variable {S : Settings} {c : Recorded} {s₀ : State}
  {ok : Recorded → Act Stmt Stmt.Res Exc Nat Delivery Move → Prop}

/-- The failures a handling has counted are no more than the row has. -/
def Backed (u : TaskId) (i : Nat) (h : Record) : Prop :=
  Counted u (h.heard i) ∧
    (failures u (h.heard i) = [] ∨ Struck u (failures u (h.heard i)).length h.cur)

/-- Nothing is executed. -/
theorem Backed.idle {u : TaskId} {i : Nat} {h h' : Record} (hT : Backed u i h)
    (hidle : Idles h h') : Backed u i h' := by
  have hheard : h'.heard i = h.heard i := by
    unfold History.heard History.own
    rw [hidle.log]
  unfold Backed
  rw [hheard]
  refine ⟨hT.1, hT.2.imp_right fun hstruck => ?_⟩
  obtain ⟨r, hr, hn⟩ := hstruck
  refine ⟨r, ?_, hn⟩
  unfold State.find at hr ⊢
  rw [hidle.tasks]
  exact hr

/-- One statement of any handling. -/
theorem Backed.after {u : TaskId} {i j : Nat} {h : Record} {o : Stmt} {a b : o.Res} {t : State}
    (hT : Backed u i h) (hx : exec o.query a h.cur = some (b, t)) :
    Backed u i (h.after j o b t) := by
  obtain ⟨hcounted, hfailures⟩ := hT
  -- the failures counted so far are still there
  have hlater : failures u (h.heard i) = [] ∨ Struck u (failures u (h.heard i)).length t :=
    hfailures.imp_right fun hstruck => exec_struck hx hstruck
  unfold Backed
  rw [History.heard_after]
  by_cases hij : i = j
  · subst hij
    rw [if_pos rfl]
    obtain ⟨site, q⟩ := o
    by_cases hq : q = .incrementRetry u
    · subst hq
      obtain ⟨r, hr, rfl, hr'⟩ := exec_incrementRetry hx
      have hlen : (failures u (h.heard i)).length ≤ r.retryCount := by
        rcases hfailures with hnil | ⟨r', hfound, hle⟩
        · rw [hnil]
          exact Nat.zero_le _
        · rw [hr] at hfound
          obtain rfl := Option.some.inj hfound
          exact hle
      refine ⟨⟨fun _ => Nat.lt_succ_of_le hlen, hcounted⟩, .inr ⟨_, hr', ?_⟩⟩
      have hcons : failures u (⟨⟨site, .incrementRetry u⟩, r.retryCount + 1⟩ :: h.heard i) =
          (r.retryCount + 1) :: failures u (h.heard i) := by
        show (if u = u then _ else _) = _
        exact if_pos rfl
      rw [hcons]
      exact Nat.succ_le_succ hlen
    · rw [failures_cons hq]
      refine ⟨?_, hlater⟩
      cases q with
      | incrementRetry v =>
        exact ⟨fun heq => absurd (congrArg Query.incrementRetry heq) hq, hcounted⟩
      | _ => exact hcounted
  · rw [if_neg hij]
    exact ⟨hcounted, hlater⟩

/-- In every run a handling has counted no more failures than there are. -/
theorem backed_run (hr : (replicas S).Reach ok (.idle ⟨s₀, [], []⟩) c) (u : TaskId) (i : Nat) :
    Backed u i c.shared := by
  have hinit : Backed u i ⟨s₀, [], []⟩ := ⟨True.intro, .inl rfl⟩
  refine hr.shared_invariant hinit ?_ ?_ ?_
  · intro c j d h' _ hT hs
    exact hT.idle (idles_receive hs)
  · intro c j f r o k out h' _ _ hT hs
    rcases Sys.recording_apply hs with ⟨-, rfl⟩ | ⟨a, b, t, -, hx, rfl⟩
    · exact hT
    · exact hT.after hx
  · intro c e h' _ hT hs
    exact hT.idle (idles_move hs)

/-- Whatever runs next to it, the handling of a task message has said and heard what its routine
    upholds. -/
theorem task_run {J : TaskMessage → Heard Stmt Stmt.Res → Prop}
    (hbody : ∀ msg, Upholds hear (J msg) (processTask msg) (fun _ _ => True) [])
    (hr : (replicas S).Reach ok (.idle ⟨s₀, [], []⟩) c) {i : Nat} {msg : TaskMessage}
    {p : Option (Worker Unit)} (hi : c.thread i = some (.task msg, p)) :
    J msg (c.shared.heard i) := by
  let Z (d : Delivery) (log : Heard Stmt Stmt.Res) : Prop := ∀ msg, d = .task msg → J msg log
  have hprocess (d : Delivery) : Upholds hear (Z d) (process S d) (fun _ _ => True) [] := by
    cases d with
    | task msg =>
      refine ((hbody msg).weaken fun log hlog msg' heq => ?_).mono fun _ _ _ _ => True.intro
      obtain rfl := Delivery.task.inj heq
      exact hlog
    | event msg =>
      exact Upholds.of_only (Prog.Only.trivial _) nofun fun _ _ _ _ _ _ _ _ => nofun
  have hall : Z (.task msg) (c.shared.heard i) :=
    hr.upheld (Z := Z) recording_parted (fun _ => rfl) hprocess (fun _ _ h => h)
      (fun c e h' i d _ hs _ hz => by
        obtain ⟨t, -, rfl⟩ := Sys.recording_env hs
        exact hz) i _ p hi
  exact hall msg rfl

/-- However the messages are interleaved, the handling of one calls the handler of its task three
    times at most. -/
theorem calls_le (hr : (replicas S).Reach ok (.idle ⟨s₀, [], []⟩) c) {i : Nat} {msg : TaskMessage}
    {p : Option (Worker Unit)} (hi : c.thread i = some (.task msg, p)) :
    calls msg.envelope.taskId (c.shared.heard i) ≤ maxFailures :=
  task_run (J := fun msg => WithinLimit msg.envelope.taskId) processTask_upholds hr hi
    (backed_run hr _ i).1

/-! ## Requeues -/

/-- A handling of envelope `e` has bounced it back onto the queue as `e'`. -/
def Requeued (c : Recorded) (e e' : TaskEnvelope) : Prop :=
  ∃ i msg p, c.thread i = some (.task msg, p) ∧ msg.envelope = e ∧
    ∃ x ∈ c.shared.heard i, x.1.query = .publishTask e'

/-- What the handling of an envelope publishes is this envelope, with one requeue more. -/
def Bounces (e : TaskEnvelope) (o : Stmt) : Prop :=
  ∀ e', o.query = .publishTask e' →
    e.retryCount < notReadyMaxRequeues ∧ e' = { e with retryCount := e.retryCount + 1 }

/-- A statement that publishes no task. -/
def Silent (o : Stmt) : Prop := ∀ e', o.query ≠ .publishTask e'

theorem silent_call {site : Site} {q : Query} (h : ∀ e', q ≠ .publishTask e') :
    (call site q).Only Silent :=
  ⟨h, fun r => by cases r <;> exact True.intro⟩

theorem Modest.silent {α : Type} {p : Worker α} (h : Modest p) : p.Only Silent :=
  (Prog.Within.only h).mono fun o ⟨_, ho⟩ e' heq => by
    rw [heq] at ho
    exact ho

theorem silent_of_marks {o : Stmt} (h : Marks o) : Silent o := fun e' heq => by
  rw [Marks, heq] at h
  exact h

theorem recordFailure_silent (u : TaskId) : (recordFailure u).Only Silent := by
  have hcount : (countFailure u).Only Silent := by
    refine Prog.Only.bind (silent_call nofun) fun n => ?_
    split
    · exact Prog.Only.bind (silent_call nofun) fun _ => True.intro
    · refine Prog.Only.bind (silent_call nofun) fun _ => ?_
      exact ((emitAlert_marks u).mono fun _ => silent_of_marks).bind fun _ => True.intro
  refine Prog.Only.bind (silent_call nofun) fun found => ?_
  cases found with
  | none => exact hcount
  | some current =>
    simp only
    split
    · exact True.intro
    · exact hcount

theorem legacyTaskPassThrough_silent (site : Site) (u : TaskId) :
    (legacyTaskPassThrough site u).Only Silent := by
  refine Prog.Only.bind (silent_call nofun) fun _ => ?_
  exact Prog.Only.bind (silent_call nofun) fun _ => (completeTask_modest u).silent

theorem runAgain_silent (e : TaskEnvelope) : (runAgain e).Only Silent := by
  unfold runAgain
  cases dispatchTable e.taskType with
  | none => exact legacyTaskPassThrough_silent _ _
  | some handler =>
    exact Prog.Only.bind (silent_call nofun) fun _ => (handler_modest handler e).silent

theorem dispatchTask_silent (e : TaskEnvelope) : (dispatchTask e).Only Silent := by
  refine Prog.Only.bind (silent_call nofun) fun found => ?_
  cases found with
  | none => exact True.intro
  | some current =>
    simp only
    split
    · unfold runTask
      cases dispatchTable e.taskType with
      | none => exact legacyTaskPassThrough_silent _ _
      | some handler =>
        refine Prog.Only.bind (silent_call nofun) fun _ => ?_
        exact Prog.Only.bind (silent_call nofun) fun _ => (handler_modest handler e).silent
    · split
      · exact True.intro
      · have hfind : (findDeadLetteredDependency current).Only Silent := by
          unfold findDeadLetteredDependency
          split
          · exact True.intro
          · exact Prog.Only.bind (silent_call nofun) fun _ => True.intro
        exact hfind.bind fun found => by cases found <;> exact True.intro

theorem retryOrDeadLetter_silent (e : TaskEnvelope) : (retryOrDeadLetter e).Only Silent := by
  have hwhile (fuel : Nat) : ∀ outcome, (retryWhile e fuel outcome).Only Silent := by
    induction fuel with
    | zero => exact fun _ => True.intro
    | succ fuel ih =>
      intro outcome
      rw [retryWhile]
      split
      · exact (runAgain_silent e).tryCatch fun _ => (recordFailure_silent _).bind fun _ => ih _
      · exact True.intro
  exact (recordFailure_silent _).bind fun _ => hwhile _ _

theorem processTask_bounces (msg : TaskMessage) :
    (processTask msg).Only (Bounces msg.envelope) := by
  have hsilent {α : Type} {p : Worker α} (hp : p.Only Silent) : p.Only (Bounces msg.envelope) :=
    hp.mono fun _ ho e' heq => absurd heq (ho e')
  have hrequeue : (requeueOrGiveUp msg.envelope).Only (Bounces msg.envelope) := by
    unfold requeueOrGiveUp
    split
    · exact (hsilent (recordFailure_silent _)).bind fun _ => True.intro
    · rename_i hlt
      have hbounce : Bounces msg.envelope ⟨.worker, .publishTask
          { msg.envelope with retryCount := msg.envelope.retryCount + 1 }⟩ := fun e' heq =>
        ⟨Nat.lt_of_not_le hlt, (Query.publishTask.inj heq).symm⟩
      exact ⟨hbounce, fun r => by cases r <;> exact True.intro⟩
  have hhandle : (handleTaskMessage msg.envelope).Only (Bounces msg.envelope) := by
    refine (hsilent (dispatchTask_silent _)).tryCatch fun x => ?_
    cases x with
    | dependencyDeadLettered dep =>
      exact (hsilent ((cascadeDeadLetter_marks _).mono fun _ => silent_of_marks)).bind
        fun _ => True.intro
    | taskAlreadyTerminal st => exact True.intro
    | taskNotReady => exact hrequeue
    | other => exact hsilent (retryOrDeadLetter_silent _)
  have hfirst : (if 1 < msg.deliveryCount then reconcileRedeliveredTask msg.envelope
      else handleTaskMessage msg.envelope).Only (Bounces msg.envelope) := by
    split
    · exact (hsilent (recordFailure_silent _)).bind fun _ => True.intro
    · exact hhandle
  have hcomplete : (call .transport (.completeTask msg)).Only (Bounces msg.envelope) :=
    hsilent (silent_call nofun)
  have hcaught : ((if 1 < msg.deliveryCount then reconcileRedeliveredTask msg.envelope
      else handleTaskMessage msg.envelope).tryCatch fun _ => .pure ()).Only
        (Bounces msg.envelope) := hfirst.tryCatch fun _ => True.intro
  have hlast : ((call .transport (.completeTask msg)).tryCatch fun _ => .pure ()).Only
      (Bounces msg.envelope) := hcomplete.tryCatch fun _ => True.intro
  exact hcaught.bind fun _ => hlast

/-- A bounced envelope counts its requeues. -/
theorem Requeued.bounded (hr : (replicas S).Reach ok (.idle ⟨s₀, [], []⟩) c) {e e' : TaskEnvelope}
    (h : Requeued c e e') :
    e.retryCount < notReadyMaxRequeues ∧ e' = { e with retryCount := e.retryCount + 1 } := by
  obtain ⟨i, msg, p, hi, rfl, x, hx, hq⟩ := h
  have hbody (msg : TaskMessage) : Upholds hear
      (fun log : Heard Stmt Stmt.Res => ∀ x ∈ log, Bounces msg.envelope x.1) (processTask msg)
      (fun _ _ => True) [] := by
    refine Upholds.of_only (processTask_bounces msg) (fun x hx => absurd hx List.not_mem_nil)
      fun o a b log log' ho hlog hall x hx => ?_
    obtain rfl := hear_eq_some hlog
    rcases List.mem_cons.1 hx with rfl | hx
    · exact ho
    · exact hall x hx
  exact task_run (J := fun msg log => ∀ x ∈ log, Bounces msg.envelope x.1) hbody hr hi x hx e' hq

/-- A chain of requeues has at most as many links as there are requeues left. -/
theorem requeues_le (hr : (replicas S).Reach ok (.idle ⟨s₀, [], []⟩) c) {e : TaskEnvelope}
    {es : List TaskEnvelope} (h : (e :: es).IsChain (Requeued c)) :
    es.length ≤ notReadyMaxRequeues - e.retryCount := by
  induction es generalizing e with
  | nil => exact Nat.zero_le _
  | cons e' es ih =>
    obtain ⟨hstep, hrest⟩ := List.isChain_cons_cons.1 h
    obtain ⟨hlt, rfl⟩ := hstep.bounded hr
    have hlen := ih hrest
    rw [List.length_cons]
    simp only at hlen
    omega

/-- `_retry_or_dead_letter` is its loop without a bound, whatever the fuel, and ends after two calls
    of the handler at most, so that there are three with the failed dispatch; when it returns, the
    last call succeeded or the task is terminal.  No handling of a message calls the handler more
    than three times, and no envelope is requeued more often than `NOT_READY_MAX_REQUEUES`. -/
theorem retries_end (hr : (replicas S).Reach Sys.free (.idle ⟨s₀, [], []⟩) c) :
    (∀ (e : TaskEnvelope) (s t : State) (out : Except Exc Unit),
      (Completes execStmt (retryOrDeadLetter e) s out t ↔ ∃ results, Retries e s results out t) ∧
      (∀ fuel, maxFailures ≤ fuel →
        (Completes execStmt (recordFailure e.taskId >>= retryWhile e fuel) s out t ↔
          ∃ results, Retries e s results out t)) ∧
      ∀ results, Retries e s results out t → 1 + results.length ≤ 3 ∧
        (out = .ok () → results.getLast? = some (.ok ()) ∨
          ∃ r, t.find e.taskId = some r ∧ r.state.terminal = true)) ∧
    (∀ i msg p, c.thread i = some (.task msg, p) →
      calls msg.envelope.taskId (c.shared.heard i) ≤ 3) ∧
    ∀ e es, (e :: es).IsChain (Requeued c) → es.length ≤ notReadyMaxRequeues := by
  refine ⟨fun e s t out => ⟨retries_iff (Nat.le_refl _), fun fuel hfuel => retries_iff hfuel,
    fun results h => ?_⟩, fun i msg p hi => ?_,
    fun e es h => ?_⟩
  · rw [Nat.add_comm]
    exact h.bounded
  · exact calls_le hr hi
  · exact Nat.le_trans (requeues_le hr h) (Nat.sub_le _ _)

end Runs

/-! ## A handler that always fails -/

/-- Every statement is executed, but the models do not answer. -/
def unanswered (o : Stmt) : Reply Exc o.Res :=
  match o with
  | ⟨_, .work _ _⟩ => .failed .other
  | _ => .ok default

/-- A heartbeat is handled, and then the message of the brief. -/
def striking : List (Act Stmt Stmt.Res Exc Nat Delivery Move) :=
  [.env (.fire 0), .enter 0 (.event (.heartbeat 0))] ++ List.replicate 7 (.step 0 unanswered) ++
  [.enter 1 (firstDelivery thursday 0 "brief")] ++ List.replicate 20 (.step 1 unanswered)

/-- The handler was called three times, which is the bound, and the brief is DEAD_LETTERED. -/
theorem retries_end_of_thursday :
    let c := striking.foldl (replicas thursday).exec (.idle noRecord)
    calls ⟨0, "brief"⟩ (c.shared.heard 1) = 3 ∧ calls ⟨0, "brief"⟩ (c.shared.heard 1) ≤ 3 ∧
    (c.shared.cur.find ⟨0, "brief"⟩).map (·.state) = some .deadLettered := by
  have hreach : (replicas thursday).Reach Sys.free (.idle noRecord)
      (striking.foldl (replicas thursday).exec (.idle noRecord)) := Sys.Reach.init.foldl_free _
  have hthread : ∃ p, (striking.foldl (replicas thursday).exec (.idle noRecord)).thread 1 =
      some (.task ⟨⟨⟨0, "brief"⟩, "draft-research-brief", 0⟩, 1⟩, p) := ⟨_, rfl⟩
  obtain ⟨p, hp⟩ := hthread
  refine ⟨by decide +kernel, ?_, by decide +kernel⟩
  exact (retries_end hreach).2.1 1 _ p hp

end CanvasOS.Orchestrator
