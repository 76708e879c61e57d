/-
  Vault's `signals` as the handlers of the daily loop read them back.

  1. `SignalRow`, `listSignals` — a row, and the page of the newest rows that `list_signals` answers
     with.  Every writer shares the one table, and the page has no filter.
  2. `itemsOf` — a list of dictionaries in a payload, as a `for` loop over it meets them.
-/
import CanvasOS.Review.Verdict
import CanvasOS.Lib.Format

namespace CanvasOS.Signals

open Python Review

/-- A moment, in microseconds. -/
abbrev Time := Int

/-- `timedelta(days=1)`. -/
def day : Time := 86400000000

/-- A row of `signals`.  `received_at` is the database's `now()` at the insert. -/
structure SignalRow where
  signalType : String
  payload : Object
  receivedAt : Time
deriving DecidableEq

/-- `LIFECYCLE_SIGNAL_LOOKBACK`. -/
def lifecycleSignalLookback : Nat := 500

/-- `list_signals(limit=…)` of a table kept newest first (`ORDER BY o.created_at DESC`). -/
def listSignals (limit : Nat) (table : List SignalRow) : List SignalRow := table.take limit

/-- A dictionary; `none` is the AttributeError of `entry.get`. -/
def asDict : Json → Option Object
  | .obj kvs => some kvs
  | _ => none

/-- `payload.get(key, [])`, looped over as dictionaries; `none` is an exception. -/
def itemsOf (payload : Object) (key : String) : Option (List Object) :=
  match Json.lookup payload key with
  | none => some []
  | some (.arr xs) => xs.mapM asDict
  | some (.str "") => some []
  | some (.obj []) => some []
  | some _ => none

variable {limit : Nat} {table : List SignalRow} {row : SignalRow}

theorem mem_of_mem_page (h : row ∈ listSignals limit table) : row ∈ table := List.mem_of_mem_take h

end CanvasOS.Signals
