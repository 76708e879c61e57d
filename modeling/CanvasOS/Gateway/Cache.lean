/-
  The `task_ref` idempotency cache over Postgres (`PostgresCache` in the model gateway's
  `caching.py`).

  1. `CacheOp` — the statements of one call: it borrows a connection, takes the advisory lock of
     the task_ref, looks the response up, computes and stores it, releases the lock, and gives the
     connection back.  All of them are about one task_ref.
  2. `transaction` — `with conn:` commits at a normal end and rolls back on an exception.
  3. `getOrCompute` — the call.
-/
import CanvasOS.Lib.Converse

namespace CanvasOS.Gateway

open Interleave

/-- The exceptions of a call: a statement that fails while its session lives on, one that fails
    because the session is gone, a pool without a connection, and whatever `compute` raises, a
    cancellation among it. -/
inductive CacheExc where
  | statement
  | connection
  | pool
  | cancelled
  | compute (what : String)
deriving DecidableEq

/-- The statements of a call, for responses in `R`. -/
inductive CacheOp (R : Type) where
  /-- `pool.getconn()` -/
  | getconn
  /-- `SELECT pg_advisory_lock(…)` -/
  | advisoryLock
  /-- `SELECT response FROM completions WHERE task_ref = …` -/
  | selectResponse
  /-- `SELECT pg_advisory_unlock(…)` -/
  | advisoryUnlock
  /-- `INSERT INTO completions … ON CONFLICT (task_ref) DO NOTHING` -/
  | insertResponse (response : R)
  | commit
  | rollback
  /-- `await compute()` -/
  | compute
  /-- `pool.putconn(conn)` -/
  | putconn

/-- What each statement answers with; a connection is named by its session. -/
abbrev CacheOp.Res {R : Type} : CacheOp R → Type
  | .getconn => Nat
  | .selectResponse => Option R
  | .compute => R
  | _ => Unit

variable {R : Type}

abbrev Cache (R α : Type) := Prog (CacheOp R) CacheOp.Res CacheExc α

abbrev callCache (o : CacheOp R) : Cache R o.Res := Prog.perform o

/-- `with conn: p` -/
def transaction {α : Type} (p : Cache R α) : Cache R α := do
  let a ← MonadExcept.tryCatch p fun e => do
    callCache .rollback
    throw e
  callCache .commit
  pure a

/-- `_acquire_and_check`: a hit releases the lock, a miss keeps it. -/
def acquireAndCheck : Cache R (Option R) :=
  transaction do
    callCache .advisoryLock
    let row ← callCache .selectResponse
    match row with
    | some response => do
      callCache .advisoryUnlock
      pure (some response)
    | none => pure none

/-- `_release_without_storing` -/
def releaseWithoutStoring : Cache R Unit := transaction (callCache .advisoryUnlock)

/-- `_store_and_release`: the INSERT is committed before the lock is released. -/
def storeAndRelease (response : R) : Cache R Unit := do
  transaction (callCache (.insertResponse response))
  transaction (callCache .advisoryUnlock)

/-- What an owner does: an exception of `compute` releases the lock, one of the store does not. -/
def computeAndStore : Cache R (R × Bool) := do
  let result ← MonadExcept.tryCatch (callCache .compute) fun e => do
    releaseWithoutStoring
    throw e
  storeAndRelease result
  pure (result, false)

/-- What a call does with its connection. -/
def lookUpOrCompute : Cache R (R × Bool) := do
  let cached ← acquireAndCheck
  match cached with
  | some response => pure (response, true)
  | none => computeAndStore

/-- `PostgresCache.get_or_compute`: the response, and whether it was there. -/
def getOrCompute (taskRef : Option String) : Cache R (R × Bool) :=
  match taskRef.filter (· ≠ "") with
  | none => do
    let response ← callCache .compute
    pure (response, false)
  | some _ => do
    let _ ← callCache .getconn
    lookUpOrCompute.thenFinally (callCache .putconn)

end CanvasOS.Gateway
