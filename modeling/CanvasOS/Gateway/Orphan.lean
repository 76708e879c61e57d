/-
  The advisory lock of a call after the call.

  1. `Session`, `Session.turn` — what each turn of a call makes of the session of its connection:
     advisory locks are counted, outlive a rollback, and end with the session.
  2. `Orphaned` — the connection is back in the pool and its session still holds the lock.
  3. `getOrCompute_orphaned_iff` — that is so exactly where a statement between the lock and its
     release fails on a session that lives on.
-/
import CanvasOS.Gateway.Cache

namespace CanvasOS.Gateway

open Interleave

variable {R : Type}

abbrev CacheTurn (R : Type) := Turn (CacheOp R) CacheOp.Res CacheExc

/-! ## The session -/

/-- The session behind the connection of a call. -/
structure Session where
  locks : Nat
  lives : Bool
  pooled : Bool
deriving DecidableEq, Repr

/-- The reply tells that the session is gone. -/
def Disconnects {α : Type} (r : Reply CacheExc α) : Bool :=
  match r with
  | .failed .connection | .lost _ .connection => true
  | _ => false

/-- The session after a turn. -/
def Session.turn (s : Session) : CacheTurn R → Session
  | ⟨o, r⟩ =>
    if Disconnects r then ⟨0, false, s.pooled⟩
    else if r.executes then
      match o with
      | .advisoryLock => ⟨s.locks + 1, s.lives, s.pooled⟩
      | .advisoryUnlock => ⟨s.locks - 1, s.lives, s.pooled⟩
      | .putconn => ⟨s.locks, s.lives, true⟩
      | _ => s
    else s

/-- The session after a conversation, newest turn first; before it, nobody holds anything. -/
def sessionAfter : List (CacheTurn R) → Session
  | [] => ⟨0, true, false⟩
  | turn :: log => (sessionAfter log).turn turn

/-- The connection is back in the pool, and its session holds the lock. -/
def Orphaned (log : List (CacheTurn R)) : Prop :=
  (sessionAfter log).pooled = true ∧ (sessionAfter log).lives = true ∧
    0 < (sessionAfter log).locks

/-! ## Which failures matter -/

/-- After the conversation `log`, the reply does not make the call leave a lock behind. -/
def HarmlessReply (log : List (CacheTurn R)) : (o : CacheOp R) → Reply CacheExc o.Res → Prop
  | .advisoryLock, r => r.executes = r.answers
  | .selectResponse, r => r.answers = true
  | .insertResponse _, r => r.answers = true
  | .advisoryUnlock, r => r.executes = true
  | .commit, r => r.answers = true ∨ (sessionAfter log).locks = 0
  | _, _ => True

def Harmless : List (CacheTurn R) → Prop
  | [] => True
  | ⟨o, r⟩ :: log => HarmlessReply log o r ∧ Harmless log

/-! ## One turn -/

section Turns

variable {log : List (CacheTurn R)} {o : CacheOp R} {r : Reply CacheExc o.Res} {n : Nat}

/-- A session that is gone stays gone. -/
theorem lives_of_turn (h : (sessionAfter (⟨o, r⟩ :: log)).lives = true) :
    (sessionAfter log).lives = true ∧ Disconnects r = false := by
  have hturn : (sessionAfter (⟨o, r⟩ :: log)) = (sessionAfter log).turn ⟨o, r⟩ := rfl
  rw [hturn] at h
  unfold Session.turn at h
  cases hd : Disconnects r with
  | true =>
    simp only [hd, if_true] at h
    cases h
  | false =>
    refine ⟨?_, rfl⟩
    simp only [hd, Bool.false_eq_true, if_false] at h
    split at h
    · split at h <;> exact h
    · exact h

/-- While the session lives, no failure has mattered and the lock is held `n` times. -/
def Clean (log : List (CacheTurn R)) (n : Nat) : Prop :=
  (sessionAfter log).lives = true → Harmless log ∧ (sessionAfter log).locks = n

/-- While the session lives, a failure has mattered and the lock is held. -/
def Stuck (log : List (CacheTurn R)) : Prop :=
  (sessionAfter log).lives = true → ¬ Harmless log ∧ 0 < (sessionAfter log).locks

/-- The locks after a turn on a session that lives on. -/
def locksAfter (n : Nat) : CacheTurn R → Nat
  | ⟨.advisoryLock, r⟩ => if r.executes then n + 1 else n
  | ⟨.advisoryUnlock, r⟩ => if r.executes then n - 1 else n
  | _ => n

theorem locks_turn (h : (sessionAfter (⟨o, r⟩ :: log)).lives = true) :
    (sessionAfter (⟨o, r⟩ :: log)).locks = locksAfter (sessionAfter log).locks ⟨o, r⟩ := by
  have hd := (lives_of_turn h).2
  show ((sessionAfter log).turn ⟨o, r⟩).locks = _
  unfold Session.turn
  simp only [hd, Bool.false_eq_true, if_false]
  cases hr : r.executes <;> cases o <;> simp [locksAfter, hr]

/-- A harmless turn. -/
theorem Clean.turn (h : Clean log n)
    (hr : (sessionAfter log).locks = n → HarmlessReply log o r) :
    Clean (⟨o, r⟩ :: log) (locksAfter n ⟨o, r⟩) := by
  intro hlives
  obtain ⟨hharmless, hn⟩ := h (lives_of_turn hlives).1
  refine ⟨⟨hr hn, hharmless⟩, ?_⟩
  rw [locks_turn hlives, hn]

/-- A failure that matters. -/
theorem Clean.harm (h : Clean log n)
    (hr : Disconnects r = false → (sessionAfter log).locks = n → ¬ HarmlessReply log o r)
    (hn : 0 < locksAfter n ⟨o, r⟩) : Stuck (⟨o, r⟩ :: log) := by
  intro hlives
  obtain ⟨hlives', hd⟩ := lives_of_turn hlives
  obtain ⟨-, hlocks⟩ := h hlives'
  refine ⟨fun hharmless => hr hd hlocks hharmless.1, ?_⟩
  rw [locks_turn hlives, hlocks]
  exact hn

/-- The lock stays until it is released. -/
theorem Stuck.turn (h : Stuck log) (hkeep : ∀ n, locksAfter n ⟨o, r⟩ = n) :
    Stuck (⟨o, r⟩ :: log) := by
  intro hlives
  obtain ⟨hharm, hlocks⟩ := h (lives_of_turn hlives).1
  refine ⟨fun hharmless => hharm hharmless.2, ?_⟩
  rw [locks_turn hlives, hkeep]
  exact hlocks

/-- The lock is released, or a failure has left it. -/
def Parted (log : List (CacheTurn R)) : Prop := Clean log 0 ∨ Stuck log

theorem Parted.turn (h : Parted log) (hkeep : ∀ n, locksAfter n ⟨o, r⟩ = n)
    (hr : (sessionAfter log).locks = 0 → HarmlessReply log o r) : Parted (⟨o, r⟩ :: log) := by
  rcases h with h | h
  · have hclean := h.turn hr
    rw [hkeep] at hclean
    exact .inl hclean
  · exact .inr (h.turn hkeep)

end Turns

/-! ## The call -/

section Call

variable {log : List (CacheTurn R)} {α : Type}

/-- The lock is held `n a` times at a normal end with `a`, and parted from in an exception. -/
def EndsHolding (n : α → Nat) : Except CacheExc α → List (CacheTurn R) → Prop
  | .ok a, log => Clean log (n a)
  | .error _, log => Parted log

theorem not_answers_of_error {r : Reply CacheExc α} {e : CacheExc} (h : r.seen = .error e) :
    ¬ r.answers = true := by
  cases r with
  | ok a => cases h
  | failed e' => exact Bool.false_ne_true
  | lost a e' => exact Bool.false_ne_true

/-- A commit that fails matters only while the lock is held. -/
theorem Clean.commit_failed {n : Nat} (h : Clean log n)
    {r : Reply CacheExc (CacheOp.Res (.commit : CacheOp R))} {e : CacheExc}
    (hseen : r.seen = .error e) : Parted (⟨.commit, r⟩ :: log) := by
  cases n with
  | zero => exact .inl (h.turn fun hlocks => .inr hlocks)
  | succ n =>
    refine .inr (h.harm (fun _ hlocks hharmless => ?_) (Nat.succ_pos n))
    rcases hharmless with hanswers | hfree
    · exact not_answers_of_error hseen hanswers
    · omega

/-- `with conn:` changes nothing about the lock. -/
theorem transaction_after {p : Cache R α} {n : α → Nat} (hp : After p (EndsHolding n) log) :
    After (transaction p) (EndsHolding n) log := by
  refine After.bind (R := EndsHolding n) ?_ (fun a log h => ?_) fun _ _ h => h
  · refine After.tryCatch hp (fun _ _ h => h) fun e log h => ?_
    have hrollback : ∀ r, Parted (⟨.rollback, r⟩ :: log) :=
      fun r => h.turn (fun _ => rfl) fun _ => trivial
    exact After.ask (fun _ => hrollback _) fun r _ _ => hrollback r
  · refine After.ask (fun _ => ?_) fun r e hseen => ?_
    · exact (show Clean log (n a) from h).turn fun _ => .inl rfl
    · exact (show Clean log (n a) from h).commit_failed hseen

/-- The statement that releases the lock. -/
theorem unlock_after (h : Clean log 1) :
    After (callCache .advisoryUnlock) (EndsHolding fun _ => 0) log := by
  refine After.perform fun r => ?_
  cases r with
  | ok a => exact h.turn fun _ => rfl
  | lost a e => exact .inl (h.turn fun _ => rfl)
  | failed e =>
    refine .inr (h.harm (fun _ _ => ?_) Nat.one_pos)
    exact Bool.false_ne_true

theorem releaseWithoutStoring_after (h : Clean log 1) :
    After releaseWithoutStoring (EndsHolding fun _ => 0) log :=
  transaction_after (unlock_after h)

/-- A miss keeps the lock. -/
theorem acquireAndCheck_after (h : Clean log 0) :
    After (acquireAndCheck : Cache R (Option R))
      (EndsHolding fun cached => if cached.isSome then 0 else 1) log := by
  refine transaction_after ?_
  simp only [Prog.bind_eq]
  refine After.ask (fun _ => ?_) fun r e hseen => ?_
  · have h : Clean (⟨.advisoryLock, .ok ()⟩ :: log) 1 := h.turn fun _ => rfl
    refine After.ask (fun row => ?_) fun r e hseen => ?_
    · have h : Clean (⟨.selectResponse, .ok row⟩ :: ⟨.advisoryLock, .ok ()⟩ :: log) 1 :=
        h.turn fun _ => rfl
      cases row with
      | none => exact h
      | some response => exact (unlock_after h).bind (fun _ _ h => h) fun _ _ h => h
    · refine .inr (h.harm (fun _ _ hanswers => ?_) Nat.one_pos)
      exact not_answers_of_error hseen hanswers
  · cases r with
    | ok a => cases hseen
    | failed e' => exact .inl (h.turn fun _ => rfl)
    | lost a e' =>
      refine .inr (h.harm (fun _ _ hsame => ?_) Nat.one_pos)
      cases hsame

theorem storeAndRelease_after (h : Clean log 1) (response : R) :
    After (storeAndRelease response) (EndsHolding fun _ => 0) log := by
  refine After.bind (R := EndsHolding fun _ => 1) ?_ (fun _ log h => ?_) fun _ _ h => h
  · refine transaction_after (After.perform fun r => ?_)
    cases r with
    | ok a => exact h.turn fun _ => rfl
    | failed e | lost a e =>
      refine .inr (h.harm (fun _ _ => ?_) Nat.one_pos)
      exact Bool.false_ne_true
  · exact releaseWithoutStoring_after h

theorem computeAndStore_after (h : Clean log 1) :
    After (computeAndStore : Cache R (R × Bool)) (EndsHolding fun _ => 0) log := by
  refine After.bind (R := EndsHolding fun _ => 1) ?_ (fun result log h => ?_) fun _ _ h => h
  · refine After.tryCatch (R := fun _ log => Clean log 1) (After.perform fun r => ?_)
      (fun _ _ h => h) fun e log h => ?_
    · exact h.turn fun _ => trivial
    · exact (releaseWithoutStoring_after h).bind (fun _ _ h => .inl h) fun _ _ h => h
  · exact (storeAndRelease_after h result).bind (fun _ _ h => h) fun _ _ h => h

theorem lookUpOrCompute_after (h : Clean log 0) :
    After (lookUpOrCompute : Cache R (R × Bool)) (EndsHolding fun _ => 0) log := by
  refine After.bind (acquireAndCheck_after h) (fun cached log h => ?_) fun _ _ h => h
  cases cached with
  | some response => exact h
  | none => exact computeAndStore_after h

theorem EndsHolding.parted {out : Except CacheExc α} (h : EndsHolding (fun _ => 0) out log) :
    Parted log := by
  cases out with
  | ok a => exact .inl h
  | error e => exact h

theorem getOrCompute_after (taskRef : Option String) :
    After (getOrCompute taskRef : Cache R (R × Bool)) (fun _ log => Parted log) [] := by
  have h : Clean ([] : List (CacheTurn R)) 0 := fun _ => ⟨trivial, rfl⟩
  unfold getOrCompute
  split
  · have hturn : ∀ r, Clean [(⟨.compute, r⟩ : CacheTurn R)] 0 := fun r => h.turn fun _ => trivial
    exact After.ask (fun _ => .inl (hturn _)) fun r _ _ => .inl (hturn r)
  · have hturn : ∀ r, Clean [(⟨.getconn, r⟩ : CacheTurn R)] 0 := fun r => h.turn fun _ => trivial
    refine After.ask (fun conn => ?_) fun r _ _ => .inl (hturn r)
    have hput : ∀ log : List (CacheTurn R), Parted log →
        ∀ r, Parted (⟨.putconn, r⟩ :: log) := fun log h r => h.turn (fun _ => rfl) fun _ => trivial
    refine (lookUpOrCompute_after (hturn _)).thenFinally (fun a log h => ?_) fun e log h => ?_
    all_goals
      refine After.perform fun r => ?_
      cases r <;> exact hput log h.parted _

/-- A call leaves its lock behind exactly where a failure between the lock and its release matters
    on a session that lives on and is returned to the pool. -/
theorem getOrCompute_orphaned_iff (taskRef : Option String) {out : Except CacheExc (R × Bool)}
    {log : List (CacheTurn R)} (h : Ends (getOrCompute taskRef) [] out log) :
    ¬ Orphaned log ↔ (sessionAfter log).pooled = false ∨ (sessionAfter log).lives = false ∨
      Harmless log := by
  have hparted := (getOrCompute_after taskRef).sound h
  unfold Orphaned
  cases hpooled : (sessionAfter log).pooled with
  | false => simp
  | true =>
    cases hlives : (sessionAfter log).lives with
    | false => simp
    | true =>
      rcases hparted with hclean | hstuck
      · obtain ⟨hharmless, hlocks⟩ := hclean hlives
        simp [hharmless, hlocks]
      · obtain ⟨hharm, hlocks⟩ := hstuck hlives
        simp [hharm, hlocks]

/-! ## A response that the table does not take -/

/-- All is well, but for the INSERT. -/
def storeReply (insert : Reply CacheExc Unit) : (o : CacheOp String) → Reply CacheExc o.Res
  | .getconn => .ok 0
  | .selectResponse => .ok none
  | .insertResponse _ => insert
  | .compute => .ok "response"
  | .advisoryLock => .ok ()
  | .advisoryUnlock => .ok ()
  | .commit => .ok ()
  | .rollback => .ok ()
  | .putconn => .ok ()

/-- The conversation of a call for a new task_ref. -/
def storeLog (insert : Reply CacheExc Unit) : List (CacheTurn String) :=
  ((getOrCompute (some "task-1")).converse (storeReply insert) []).2

/-- The response is stored and the lock released. -/
theorem stored_not_orphaned : ¬ Orphaned (storeLog (.ok ())) ∧
    (sessionAfter (storeLog (.ok ()))).pooled = true :=
  ⟨(getOrCompute_orphaned_iff (some "task-1") (Prog.converse_ends (storeReply (.ok ())) _ _)).2
    (.inr (.inr ⟨trivial, .inr rfl, rfl, .inl rfl, rfl, trivial, .inl rfl, rfl, rfl, trivial,
      trivial⟩)), by decide⟩

/-- The INSERT is rejected: the connection goes back to the pool with the lock held. -/
theorem rejected_insert_orphans : ¬ ∀ (taskRef : Option String)
    (out : Except CacheExc (String × Bool)) (log : List (CacheTurn String)),
    Ends (getOrCompute taskRef) [] out log → ¬ Orphaned log := by
  intro h
  exact h (some "task-1") _ (storeLog (.failed .statement)) (Prog.converse_ends _ _ _)
    ⟨by decide, by decide, by decide⟩

end Call

end CanvasOS.Gateway
