/-
  The `costs` table of Vault and the metering that writes it (`PostgresRepository.insert_costs_rows`
  of the model gateway).

  1. `Cost` — one row; the table refers to `agent_runs` by a foreign key.
  2. `Writer` — one call of `insert_costs_rows`: three INSERTs, each a transaction of its own, for
     the dollars, the tokens and the milliseconds.
  3. `Step`, `Reach` — any number of calls, INSERT by INSERT in any order; a call whose INSERT fails
     is one that takes no further step.
  4. `Reach.sound` — the table holds what the calls have written, and every row has its run.
-/
import Mathlib.Algebra.Ring.Int.Defs
import Mathlib.Algebra.Ring.Nat
import Mathlib.Data.List.Perm.Basic

namespace CanvasOS.Metering

/-! ## The tables -/

/-- A row of `costs`.  The amount is kept as `numeric(18, 6)` keeps it, a whole number of
    millionths; times are in microseconds. -/
structure Cost where
  agentRunId : String
  provider : String
  unit : String
  amount : Int
  functionId : Option String
  incurredAt : Int
deriving DecidableEq, Repr

/-- What `record_completion_costs` is given of a completion. -/
structure Completion where
  agentRunId : String
  provider : String
  usd : Int
  tokens : Int
  ms : Int
deriving DecidableEq, Repr

/-- `INSERT_COST_SQL`: `incurred_at` is the time of the transaction, `function_id` stays null. -/
def insertCost (c : Completion) (unit : String × Int) (now : Int) : Cost :=
  ⟨c.agentRunId, c.provider, unit.1, unit.2, none, now⟩

/-- The three rows of `insert_costs_rows`, in the order they are inserted. -/
def Completion.amounts (c : Completion) : List (String × Int) :=
  [("usd", c.usd), ("tokens", c.tokens * 1000000), ("ms", c.ms)]

/-! ## The writers -/

/-- A call of `insert_costs_rows`, with the times of the INSERTs it has made so far. -/
structure Writer where
  completion : Completion
  times : List Int
deriving DecidableEq, Repr

/-- The rows a call has inserted. -/
def Writer.rows (w : Writer) : List Cost :=
  List.zipWith (insertCost w.completion) w.completion.amounts w.times

/-- What the next INSERT of the call writes. -/
def Writer.next (w : Writer) : Option (String × Int) := w.completion.amounts[w.times.length]?

/-- The call after an INSERT. -/
def Writer.wrote (w : Writer) (now : Int) : Writer := ⟨w.completion, w.times ++ [now]⟩

/-- The database, and the calls that have been made. -/
structure State where
  agentRuns : List (String × String)
  costs : List Cost
  writers : List Writer
deriving DecidableEq, Repr

/-- The row names an agent run. -/
def State.Known (s : State) (agentRunId : String) : Prop := agentRunId ∈ s.agentRuns.map Prod.fst

inductive Step : State → State → Prop
  /-- a new agent run, under an id of its own -/
  | agentRun (s : State) (id agentName : String) (hid : ¬ s.Known id) :
      Step s ⟨(id, agentName) :: s.agentRuns, s.costs, s.writers⟩
  /-- a completion is to be metered -/
  | call (s : State) (c : Completion) : Step s ⟨s.agentRuns, s.costs, ⟨c, []⟩ :: s.writers⟩
  /-- one INSERT of one call; the foreign key is checked -/
  | insert (s : State) (before after : List Writer) (w : Writer) (unit : String × Int) (now : Int)
      (hw : s.writers = before ++ w :: after) (hnext : w.next = some unit)
      (hrun : s.Known w.completion.agentRunId) :
      Step s ⟨s.agentRuns, insertCost w.completion unit now :: s.costs,
        before ++ w.wrote now :: after⟩

/-- The states that a database without costs can come to. -/
inductive Reach : State → Prop
  | empty : Reach ⟨[], [], []⟩
  | step {s t : State} : Reach s → Step s t → Reach t

/-! ## What the table holds -/

/-- What holds of the tables in every reachable state. -/
structure Sound (s : State) : Prop where
  runs : (s.agentRuns.map Prod.fst).Nodup
  known : ∀ cost ∈ s.costs, s.Known cost.agentRunId
  unassigned : ∀ cost ∈ s.costs, cost.functionId = none
  written : s.costs.Perm (s.writers.flatMap Writer.rows)

/-- An INSERT adds its row to those of its call. -/
theorem Writer.rows_wrote {w : Writer} {unit : String × Int} (h : w.next = some unit) (now : Int) :
    (w.wrote now).rows = w.rows ++ [insertCost w.completion unit now] := by
  obtain ⟨c, times⟩ := w
  match times with
  | [] | [_] | [_, _] =>
    obtain rfl := Option.some.inj h
    rfl
  | _ :: _ :: _ :: _ => cases h

/-- One step keeps the tables sound. -/
theorem Sound.step {s t : State} (hs : Sound s) (h : Step s t) : Sound t := by
  cases h with
  | agentRun id agentName hid =>
    refine ⟨List.nodup_cons.2 ⟨hid, hs.runs⟩, fun cost hc => ?_, hs.unassigned, hs.written⟩
    exact List.mem_cons_of_mem _ (hs.known cost hc)
  | call c => exact ⟨hs.runs, hs.known, hs.unassigned, hs.written⟩
  | insert before after w unit now hw hnext hrun =>
    refine ⟨hs.runs, fun cost hc => ?_, fun cost hc => ?_, ?_⟩
    · rcases List.mem_cons.1 hc with rfl | hc
      · exact hrun
      · exact hs.known cost hc
    · rcases List.mem_cons.1 hc with rfl | hc
      · rfl
      · exact hs.unassigned cost hc
    · have hold := hs.written
      rw [hw] at hold
      simp only [List.flatMap_append, List.flatMap_cons] at hold ⊢
      rw [Writer.rows_wrote hnext, List.append_assoc, List.singleton_append]
      -- the new row may be moved to the front
      have hfront : (insertCost w.completion unit now ::
          (before.flatMap Writer.rows ++ w.rows ++ after.flatMap Writer.rows)).Perm
          (before.flatMap Writer.rows ++ w.rows ++
            insertCost w.completion unit now :: after.flatMap Writer.rows) :=
        List.perm_middle.symm
      rw [List.append_assoc, List.append_assoc] at hfront
      exact (hold.cons _).trans hfront

theorem Reach.sound {s : State} (h : Reach s) : Sound s := by
  induction h with
  | empty => exact ⟨List.nodup_nil, nofun, nofun, .nil⟩
  | step _ hstep ih => exact ih.step hstep

/-! ## The dollars and the rest -/

/-- The row that counts a completion's dollars. -/
def Cost.isUsd (cost : Cost) : Bool := cost.unit == "usd"

/-- The completions whose dollars were written at a time that `p` accepts. -/
def State.completions (s : State) (p : Int → Bool) : List Completion :=
  (s.writers.filter fun w => w.times.head?.any p).map Writer.completion

/-- The dollars of these completions, in millionths. -/
def State.usd (s : State) (p : Int → Bool) : Int := ((s.completions p).map Completion.usd).sum

/-- Of the rows of one call, the first is the one in dollars. -/
theorem Writer.usd_rows (w : Writer) (p : Int → Bool) :
    (w.rows.filter fun cost => cost.isUsd && p cost.incurredAt).map Cost.amount =
      if w.times.head?.any p then [w.completion.usd] else [] := by
  obtain ⟨c, times⟩ := w
  match times with
  | [] => rfl
  | [t] | [t, _] | t :: _ :: _ :: _ =>
    cases hp : p t <;>
      simp [Writer.rows, Completion.amounts, insertCost, Cost.isUsd, hp]

/-- The rows in dollars are those of the completions. -/
theorem Sound.usd_rows {s : State} (hs : Sound s) (p : Int → Bool) :
    ((s.costs.filter fun cost => cost.isUsd && p cost.incurredAt).map Cost.amount).Perm
      ((s.completions p).map Completion.usd) := by
  refine ((hs.written.filter _).map _).trans (.of_eq ?_)
  unfold State.completions
  generalize s.writers = writers
  induction writers with
  | nil => rfl
  | cons w writers ih =>
    rw [List.flatMap_cons, List.filter_append, List.map_append, w.usd_rows p, ih,
      List.filter_cons]
    split <;> rfl

end CanvasOS.Metering
