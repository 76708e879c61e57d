/-
  The `task_ref` cache of one process (`LocalCache` in the model gateway's `caching.py`), on one
  event loop.

  1. `Inflight`, `Call`, `LocalCache` — the future that the callers of a task_ref share, where each
     of them is suspended, and the two maps at that task_ref.  What a call does between two
     suspensions is atomic: the lock is never held across one.
  2. `LocalEvent`, `LocalCache.step` — a call arrives, a computation ends, a waiter is woken, a
     waiter's task is cancelled.
  3. `LocalCache.run` — a schedule, newest event first.
-/
import CanvasOS.Gateway.Cache
import Mathlib.Logic.Function.Basic

namespace CanvasOS.Gateway

/-- An `asyncio.Future`. -/
inductive Inflight (R : Type) where
  | pending
  | result (response : R)
  | exception (e : CacheExc)
  | cancelled

/-- A call of `get_or_compute`: the owner awaits `compute()`, the others await the future of the
    owner, and a task that was told to cancel raises when it runs next. -/
inductive Call (R : Type) where
  | computing (inflight : Nat)
  | waiting (inflight : Nat) (cancelled : Bool)
  | returned (out : Except CacheExc (R × Bool))

/-- The cache at one task_ref, its futures, and its calls. -/
structure LocalCache (R : Type) where
  /-- `self._completed.get(task_ref)` -/
  completed : Option R
  /-- `self._pending.get(task_ref)` -/
  pending : Option Nat
  /-- the futures, and how many there are -/
  future : Nat → Inflight R
  created : Nat
  call : Nat → Option (Call R)

inductive LocalEvent (R : Type) where
  /-- a call arrives and runs until it is suspended or has returned -/
  | arrive (i : Nat)
  /-- the owner's `compute()` returns or raises; a cancelled owner's raises `CancelledError` -/
  | computed (i : Nat) (out : Except CacheExc R)
  /-- a waiter whose future is done runs on -/
  | resume (i : Nat)
  /-- `task.cancel()` on a waiter -/
  | cancel (i : Nat)

variable {R : Type}

/-- `Future.set_result`, `Future.set_exception` and `Future.cancel` of a future that may be done. -/
def Inflight.settle (inflight value : Inflight R) : Inflight R :=
  match inflight with
  | .pending => value
  | _ => inflight

/-- `inflight.exception()` in front of the owner's `raise`: on a cancelled future it raises
    `CancelledError` itself. -/
def Inflight.raised (inflight : Inflight R) (e : CacheExc) : CacheExc :=
  match inflight with
  | .cancelled => .cancelled
  | _ => e

/-- What `await inflight` does: nothing while the future is pending. -/
def Inflight.await : Inflight R → Option (Except CacheExc R)
  | .pending => none
  | .result response => some (.ok response)
  | .exception e => some (.error e)
  | .cancelled => some (.error .cancelled)

namespace LocalCache

def empty : LocalCache R := ⟨none, none, fun _ => .pending, 0, fun _ => none⟩

def setCall (s : LocalCache R) (i : Nat) (k : Call R) : LocalCache R :=
  { s with call := Function.update s.call i (some k) }

/-- `async with lock:`: a hit, the future of an owner, or a future of one's own. -/
def lookUp (s : LocalCache R) (i : Nat) : LocalCache R :=
  match s.completed with
  | some cached => s.setCall i (.returned (.ok (cached, true)))
  | none =>
    match s.pending with
    | some inflight => s.setCall i (.waiting inflight false)
    | none =>
      { s with
        pending := some s.created
        future := Function.update s.future s.created .pending
        created := s.created + 1
        call := Function.update s.call i (some (.computing s.created)) }

/-- `compute()` returned: the response is remembered, and the waiters get it. -/
def succeed (s : LocalCache R) (i inflight : Nat) (result : R) : LocalCache R :=
  { s with
    completed := some result
    pending := none
    future := Function.update s.future inflight ((s.future inflight).settle (.result result))
    call := Function.update s.call i (some (.returned (.ok (result, false)))) }

/-- `compute()` raised: the waiters get the exception too. -/
def fail (s : LocalCache R) (i inflight : Nat) (e : CacheExc) : LocalCache R :=
  let settled := (s.future inflight).settle (.exception e)
  { s with
    pending := none
    future := Function.update s.future inflight settled
    call := Function.update s.call i (some (.returned (.error (settled.raised e)))) }

/-- `return await inflight, True` -/
def ride (s : LocalCache R) (i inflight : Nat) (cancelled : Bool) : LocalCache R :=
  match (s.future inflight).await with
  | none => s
  | some out =>
    if cancelled then s.setCall i (.returned (.error .cancelled))
    else s.setCall i (.returned (out.map (·, true)))

/-- `task.cancel()`: it cancels the future the task awaits; a task whose future is done raises when
    it runs on. -/
def cancelWaiter (s : LocalCache R) (i inflight : Nat) : LocalCache R :=
  { s with
    future := Function.update s.future inflight ((s.future inflight).settle .cancelled)
    call := Function.update s.call i (some (.waiting inflight true)) }

/-- One event; one that is not possible changes nothing. -/
def step (s : LocalCache R) : LocalEvent R → LocalCache R
  | .arrive i =>
    match s.call i with
    | none => s.lookUp i
    | some _ => s
  | .computed i out =>
    match s.call i, out with
    | some (.computing inflight), .ok result => s.succeed i inflight result
    | some (.computing inflight), .error e => s.fail i inflight e
    | _, _ => s
  | .resume i =>
    match s.call i with
    | some (.waiting inflight cancelled) => s.ride i inflight cancelled
    | _ => s
  | .cancel i =>
    match s.call i with
    | some (.waiting inflight _) => s.cancelWaiter i inflight
    | _ => s

/-- The state after a schedule, newest event first. -/
def run : List (LocalEvent R) → LocalCache R
  | [] => empty
  | e :: es => (run es).step e

/-! ### The call that an event is about -/

section Calls

variable (s : LocalCache R) (i inflight : Nat)

/-- A call that arrives has returned a hit, waits for the owner, or is the owner. -/
theorem lookUp_call :
    (∃ r, s.completed = some r ∧ s.lookUp i = s.setCall i (.returned (.ok (r, true)))) ∨
    (∃ f, s.completed = none ∧ s.pending = some f ∧
      s.lookUp i = s.setCall i (.waiting f false)) ∨
    (s.completed = none ∧ s.pending = none ∧ (s.lookUp i).completed = none ∧
      (s.lookUp i).call = Function.update s.call i (some (.computing s.created))) := by
  unfold lookUp
  split
  · exact .inl ⟨_, ‹_›, rfl⟩
  · split
    · exact .inr (.inl ⟨_, ‹_›, ‹_›, rfl⟩)
    · exact .inr (.inr ⟨‹_›, ‹_›, ‹_›, rfl⟩)

@[simp] theorem setCall_call (k : Call R) : (s.setCall i k).call i = some k :=
  Function.update_self ..

@[simp] theorem succeed_call (r : R) :
    (s.succeed i inflight r).call i = some (.returned (.ok (r, false))) :=
  Function.update_self ..

@[simp] theorem fail_call (e : CacheExc) : (s.fail i inflight e).call i =
    some (.returned (.error (((s.future inflight).settle (.exception e)).raised e))) :=
  Function.update_self ..

@[simp] theorem cancelWaiter_call :
    (s.cancelWaiter i inflight).call i = some (.waiting inflight true) :=
  Function.update_self ..

/-- A waiter stays where it is, or returns. -/
theorem ride_call (b : Bool) :
    s.ride i inflight b = s ∧ (s.future inflight).await = none ∨
      ∃ out, (s.future inflight).await = some out ∧ s.ride i inflight b =
        s.setCall i (.returned (if b then .error .cancelled else out.map (·, true))) := by
  unfold ride
  split
  · exact .inl ⟨rfl, ‹_›⟩
  · cases b with
    | true => exact .inr ⟨_, ‹_›, rfl⟩
    | false => exact .inr ⟨_, ‹_›, rfl⟩

end Calls

/-- What the call has returned or raised. -/
def result (s : LocalCache R) (i : Nat) : Option (Unit × Except CacheExc (R × Bool)) :=
  match s.call i with
  | some (.returned out) => some ((), out)
  | _ => none

end LocalCache

/-! ## What happened to a call -/

/-- The computation of call `i` ended with `out`. -/
def ComputedIn (i : Nat) (out : Except CacheExc R) : List (LocalEvent R) → Prop
  | [] => False
  | e :: es =>
    (e = .computed i out ∧ ∃ f, (LocalCache.run es).call i = some (.computing f)) ∨
      ComputedIn i out es

/-- Call `i` was cancelled while it waited. -/
def CancelledIn (i : Nat) : List (LocalEvent R) → Prop
  | [] => False
  | e :: es =>
    (e = .cancel i ∧ ∃ f b, (LocalCache.run es).call i = some (.waiting f b)) ∨ CancelledIn i es

end CanvasOS.Gateway
