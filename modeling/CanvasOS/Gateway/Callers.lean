/-
  Any number of calls for one task_ref, against one Postgres.

  1. `Postgres` — the row of the task_ref, the advisory lock, and the sessions: which call has
     borrowed which, and which have ended.  A session that ends takes its lock and its open
     transaction with it.
  2. `callers` — the system: one statement of one call at a time, and sessions that end.
  3. `Point` — the program points of a call as a flat list of statements, each with where it goes
     on; `getOrCompute_eq` says that these are the points of the call in `Gateway.Cache`.
-/
import CanvasOS.Gateway.Cache

namespace CanvasOS.Gateway

open Interleave

variable {R : Type}

/-! ## Postgres -/

/-- What the calls share. -/
structure Postgres (R : Type) where
  /-- the committed response -/
  row : Option R
  /-- the response of an INSERT that is not committed, and the session it belongs to -/
  pending : Option (Nat × R)
  /-- the session that holds the advisory lock, and how many further times it has taken it -/
  holder : Option (Nat × Nat)
  /-- the session a call has borrowed -/
  conn : Nat → Option Nat
  /-- the call a session is lent to -/
  lentTo : Nat → Option Nat
  /-- the sessions that have ended -/
  closed : List Nat
  /-- the computations that have succeeded: by which call, with which response -/
  computed : List (Nat × R)

namespace Postgres

/-- Nothing is stored and nobody is there. -/
def empty : Postgres R := ⟨none, none, none, fun _ => none, fun _ => none, [], []⟩

/-- `pg_advisory_lock`: no answer while another session holds it; the same session takes it once
    more. -/
def lock (db : Postgres R) (s : Nat) : Option (Postgres R) :=
  match db.holder with
  | none => some { db with holder := some (s, 0) }
  | some (t, n) => if t = s then some { db with holder := some (s, n + 1) } else none

/-- `pg_advisory_unlock` -/
def unlock (db : Postgres R) (s : Nat) : Postgres R :=
  match db.holder with
  | some (t, 0) => if t = s then { db with holder := none } else db
  | some (t, n + 1) => if t = s then { db with holder := some (s, n) } else db
  | none => db

/-- What a session sees of the row: the committed one, or its own. -/
def visible (db : Postgres R) (s : Nat) : Option R :=
  match db.pending with
  | some (t, r) => if t = s then some r else db.row
  | none => db.row

/-- `INSERT … ON CONFLICT DO NOTHING`: it waits for another session's INSERT. -/
def insert (db : Postgres R) (s : Nat) (r : R) : Option (Postgres R) :=
  match db.row, db.pending with
  | some _, _ => some db
  | none, none => some { db with pending := some (s, r) }
  | none, some (t, _) => if t = s then some db else none

def commit (db : Postgres R) (s : Nat) : Postgres R :=
  match db.pending with
  | some (t, r) => if t = s then { db with row := some r, pending := none } else db
  | none => db

def rollback (db : Postgres R) (s : Nat) : Postgres R :=
  match db.pending with
  | some (t, _) => if t = s then { db with pending := none } else db
  | none => db

/-- The session ends: Postgres rolls it back and releases its locks. -/
def close (db : Postgres R) (s : Nat) : Postgres R :=
  { db with
    pending := db.pending.filter (·.1 ≠ s)
    holder := db.holder.filter (·.1 ≠ s)
    closed := s :: db.closed }

/-- A statement on the connection of call `i`; a session that has ended does not answer. -/
def onSession {α : Type} (db : Postgres R) (i : Nat) (f : Nat → Option (α × Postgres R)) :
    Option (α × Postgres R) :=
  match db.conn i with
  | some s => if s ∈ db.closed then none else f s
  | none => none

end Postgres

/-- One statement of call `i`.  `getconn` hands out any session that lives and is not lent. -/
def execCache (i : Nat) : (o : CacheOp R) → o.Res → Postgres R → Option (o.Res × Postgres R)
  | .getconn, s, db =>
    if db.conn i = none ∧ db.lentTo s = none ∧ s ∉ db.closed then
      some (s, { db with
        conn := Function.update db.conn i (some s)
        lentTo := Function.update db.lentTo s (some i) })
    else none
  | .advisoryLock, _, db => db.onSession i fun s => (db.lock s).map ((), ·)
  | .selectResponse, _, db => db.onSession i fun s => some (db.visible s, db)
  | .advisoryUnlock, _, db => db.onSession i fun s => some ((), db.unlock s)
  | .insertResponse r, _, db => db.onSession i fun s => (db.insert s r).map ((), ·)
  | .commit, _, db => db.onSession i fun s => some ((), db.commit s)
  | .rollback, _, db => db.onSession i fun s => some ((), db.rollback s)
  | .compute, r, db => some (r, { db with computed := (i, r) :: db.computed })
  | .putconn, _, db =>
    match db.conn i with
    | some s => some ((), { db.rollback s with
        conn := Function.update db.conn i none
        lentTo := Function.update db.lentTo s none })
    | none => none

/-- Calls for `taskRef`, while sessions end. -/
def callers (R : Type) (taskRef : String) :
    Sys (CacheOp R) CacheOp.Res CacheExc (Postgres R) Nat Unit (R × Bool) Nat where
  body := fun _ => getOrCompute (some taskRef)
  enter := fun _ _ db => some db
  run := execCache
  env := fun s db => some (db.close s)

abbrev CallersConfig (R : Type) :=
  Config (CacheOp R) CacheOp.Res CacheExc (Postgres R) Nat Unit (R × Bool)

abbrev CallersAct (R : Type) := Act (CacheOp R) CacheOp.Res CacheExc Nat Unit Nat

/-! ## Program points -/

/-- Where a call stands: in front of the statement that the constructor names. -/
inductive Point (R : Type) where
  | borrow
  | lock
  | select
  | releaseHit (response : R)
  | commitHit (response : R)
  | commitMiss
  | compute
  | releaseFailed (e : CacheExc)
  | commitFailed (e : CacheExc)
  | insert (response : R)
  | commitInsert (response : R)
  | release (response : R)
  | commitRelease (response : R)
  | rollback (e : CacheExc)
  | putBack (out : Except CacheExc (R × Bool))
  | done (out : Except CacheExc (R × Bool))

namespace Point

/-- How far the end is. -/
def rank : Point R → Nat
  | .done _ => 0
  | .putBack _ => 1
  | .rollback _ => 2
  | .commitRelease _ | .commitFailed _ | .commitHit _ => 3
  | .release _ | .releaseFailed _ | .releaseHit _ => 4
  | .commitInsert _ => 5
  | .insert _ => 6
  | .compute => 7
  | .commitMiss => 8
  | .select => 9
  | .lock => 10
  | .borrow => 11

/-- The rest of a call that stands there. -/
def code (pt : Point R) : Cache R (R × Bool) :=
  match pt with
  | .borrow => .op .getconn fun
    | .ok _ => code .lock
    | .error e => code (.done (.error e))
  | .lock => .op .advisoryLock fun
    | .ok _ => code .select
    | .error e => code (.rollback e)
  | .select => .op .selectResponse fun
    | .ok (some response) => code (.releaseHit response)
    | .ok none => code .commitMiss
    | .error e => code (.rollback e)
  | .releaseHit response => .op .advisoryUnlock fun
    | .ok _ => code (.commitHit response)
    | .error e => code (.rollback e)
  | .commitHit response => .op .commit fun
    | .ok _ => code (.putBack (.ok (response, true)))
    | .error e => code (.putBack (.error e))
  | .commitMiss => .op .commit fun
    | .ok _ => code .compute
    | .error e => code (.putBack (.error e))
  | .compute => .op .compute fun
    | .ok response => code (.insert response)
    | .error e => code (.releaseFailed e)
  | .releaseFailed e => .op .advisoryUnlock fun
    | .ok _ => code (.commitFailed e)
    | .error e' => code (.rollback e')
  | .commitFailed e => .op .commit fun
    | .ok _ => code (.putBack (.error e))
    | .error e' => code (.putBack (.error e'))
  | .insert response => .op (.insertResponse response) fun
    | .ok _ => code (.commitInsert response)
    | .error e => code (.rollback e)
  | .commitInsert response => .op .commit fun
    | .ok _ => code (.release response)
    | .error e => code (.putBack (.error e))
  | .release response => .op .advisoryUnlock fun
    | .ok _ => code (.commitRelease response)
    | .error e => code (.rollback e)
  | .commitRelease response => .op .commit fun
    | .ok _ => code (.putBack (.ok (response, false)))
    | .error e => code (.putBack (.error e))
  | .rollback e => .op .rollback fun
    | .ok _ => code (.putBack (.error e))
    | .error e' => code (.putBack (.error e'))
  | .putBack out => .op .putconn fun
    | .ok _ => code (.done out)
    | .error e => code (.done (.error e))
  | .done (.ok a) => .pure a
  | .done (.error e) => .throw e
termination_by pt.rank
decreasing_by all_goals simp only [rank]; omega

/-- The statement in front of which the call stands. -/
def op : Point R → Option (CacheOp R)
  | .borrow => some .getconn
  | .lock => some .advisoryLock
  | .select => some .selectResponse
  | .releaseHit _ | .releaseFailed _ | .release _ => some .advisoryUnlock
  | .commitHit _ | .commitMiss | .commitFailed _ | .commitInsert _ | .commitRelease _ =>
    some .commit
  | .compute => some .compute
  | .insert response => some (.insertResponse response)
  | .rollback _ => some .rollback
  | .putBack _ => some .putconn
  | .done _ => none

end Point

@[simp] theorem done_ok (a : R × Bool) : Point.code (.done (.ok a)) = .pure a := by
  rw [Point.code]

@[simp] theorem done_error (e : CacheExc) :
    (Point.code (.done (.error e)) : Cache R (R × Bool)) = .throw e := by
  rw [Point.code]

/-- Two routines that execute the same statement and go on alike. -/
theorem op_congr {o : CacheOp R} {k k' : Except CacheExc o.Res → Cache R (R × Bool)}
    (hok : ∀ a, k (.ok a) = k' (.ok a)) (herror : ∀ e, k (.error e) = k' (.error e)) :
    Prog.op o k = .op o k' := by
  refine congrArg (Prog.op o) (funext fun out => ?_)
  cases out with
  | ok a => exact hok a
  | error e => exact herror e

/-- The tail of every call: the connection goes back, and the end stays unless that fails. -/
theorem putBack_ok (a : R × Bool) :
    (Prog.pure a : Cache R (R × Bool)).thenFinally (callCache .putconn) =
      Point.code (.putBack (.ok a)) := by
  rw [Point.code]
  exact op_congr (fun _ => (done_ok a).symm) fun e => (done_error e).symm

theorem putBack_error (e : CacheExc) :
    (Prog.throw e : Cache R (R × Bool)).thenFinally (callCache .putconn) =
      Point.code (.putBack (.error e)) := by
  rw [Point.code]
  exact op_congr (fun _ => (done_error e).symm) fun e' => (done_error e').symm

/-- A transaction that fails is rolled back, and the connection goes back. -/
theorem rollback_congr {e : CacheExc} {k : Except CacheExc Unit → Cache R (R × Bool)}
    (hok : ∀ a, k (.ok a) = Point.code (.putBack (.error e)))
    (herror : ∀ e', k (.error e') = Point.code (.putBack (.error e'))) :
    Prog.op .rollback k = Point.code (.rollback e) := by
  rw [Point.code]
  exact op_congr hok herror

/-- These are the points of a call with a task_ref. -/
theorem getOrCompute_eq {taskRef : String} (h : taskRef ≠ "") :
    (getOrCompute (some taskRef) : Cache R (R × Bool)) = Point.borrow.code := by
  have hfilter : (some taskRef).filter (· ≠ "") = some taskRef := by simp [h]
  unfold getOrCompute
  rw [hfilter, Point.code]
  refine op_congr (fun _ => ?_) fun e => (done_error e).symm
  rw [Point.code]
  refine op_congr (fun _ => ?_) fun e =>
    rollback_congr (fun _ => putBack_error e) putBack_error
  rw [Point.code]
  refine op_congr (fun row => ?_) fun e =>
    rollback_congr (fun _ => putBack_error e) putBack_error
  cases row with
  | some response =>
    show _ = Point.code (.releaseHit response)
    rw [Point.code]
    refine op_congr (fun _ => ?_) fun e =>
      rollback_congr (fun _ => putBack_error e) putBack_error
    rw [Point.code]
    exact op_congr (fun _ => putBack_ok _) putBack_error
  | none =>
    show _ = Point.code .commitMiss
    rw [Point.code]
    refine op_congr (fun _ => ?_) putBack_error
    rw [Point.code]
    refine op_congr (fun response => ?_) fun e => ?_
    · show _ = Point.code (.insert response)
      rw [Point.code]
      refine op_congr (fun _ => ?_) fun e =>
        rollback_congr (fun _ => putBack_error e) putBack_error
      rw [Point.code]
      refine op_congr (fun _ => ?_) putBack_error
      rw [Point.code]
      refine op_congr (fun _ => ?_) fun e =>
        rollback_congr (fun _ => putBack_error e) putBack_error
      rw [Point.code]
      exact op_congr (fun _ => putBack_ok _) putBack_error
    · show _ = Point.code (.releaseFailed e)
      rw [Point.code]
      refine op_congr (fun _ => ?_) fun e =>
        rollback_congr (fun _ => putBack_error e) putBack_error
      rw [Point.code]
      exact op_congr (fun _ => putBack_error e) putBack_error

/-- What a call that stands at `pt` executes next. -/
theorem next_of_code {c : CallersConfig R} {i : Nat} {pt : Point R}
    (hi : c.thread i = some ((), some pt.code)) : c.next i = pt.op := by
  unfold Config.next
  rw [hi]
  cases pt with
  | done out =>
    cases out with
    | ok a => rw [done_ok]; rfl
    | error e => rw [done_error]; rfl
  | _ => rw [Point.code]; rfl

end CanvasOS.Gateway
