/-
  What the readers of `costs` say was spent: the month-end report of the orchestrator
  (`db.month_costs`) and the cost ledger of the console (`services.get_cost_ledger`).

  1. `monthCosts`, `getCostLedger` — both add up `amount` whatever the unit is; the report counts a
     row as a call.
  2. `fetchAll_table` — the console reads the newest `vaultMaxRows` rows, page by page.
  3. `spend_reported_iff` — a completion writes its tokens and its milliseconds next to its dollars,
     so the report is right exactly on a window that has no such row, and the ledger exactly where
     what it adds of the other units is what the cap left out in dollars.
-/
import Mathlib.Algebra.BigOperators.Group.List.Basic
import Mathlib.Data.Int.Basic
import Mathlib.Data.List.Sort
import CanvasOS.Lib.Group
import CanvasOS.Metering.Costs

namespace CanvasOS.Metering

/-! ## The month-end report -/

/-- A group of the report. -/
structure Split where
  key : String
  amount : Int
  calls : Nat
deriving DecidableEq, Repr

structure MonthCosts where
  total : Int
  calls : Nat
  byProvider : List Split
  byAgent : List Split
deriving DecidableEq, Repr

/-- `c.incurred_at >= start AND c.incurred_at < stop` -/
def inWindow (start stop incurredAt : Int) : Bool :=
  decide (start ≤ incurredAt) && decide (incurredAt < stop)

/-- `SELECT key, SUM(amount), COUNT(*) … GROUP BY key` -/
def splitBy {ρ : Type} (key : ρ → String) (amount : ρ → Int) (rows : List ρ) : List Split :=
  (Group.groupSum key (fun row => (amount row, 1)) rows).map fun g => ⟨g.1, g.2.1, g.2.2⟩

/-- `costs c JOIN agent_runs r ON r.id = c.agent_run_id`, each row with its `agent_name`. -/
def joinRuns (agentRuns : List (String × String)) (costs : List Cost) : List (String × Cost) :=
  costs.flatMap fun cost =>
    (agentRuns.filter fun run => run.1 = cost.agentRunId).map fun run => (run.2, cost)

/-- `month_costs` -/
def monthCosts (s : State) (start stop : Int) : MonthCosts :=
  let rows := s.costs.filter fun cost => inWindow start stop cost.incurredAt
  { total := (rows.map Cost.amount).sum
    calls := rows.length
    byProvider := splitBy Cost.provider Cost.amount rows
    byAgent := splitBy Prod.fst (fun row => row.2.amount) (joinRuns s.agentRuns rows) }

/-! ## The console -/

def vaultPageSize : Nat := 500

def vaultMaxRows : Nat := 20000

/-- `_fetch_all`: the pages of a list endpoint, up to the first short one or to the cap. -/
def fetchAll {α : Type} (listPage : Nat → Nat → List α) (rows : List α) (offset : Nat) : List α :=
  let page := listPage vaultPageSize offset
  if page.length < vaultPageSize ∨ vaultMaxRows ≤ (rows ++ page).length then rows ++ page
  else fetchAll listPage (rows ++ page) (offset + vaultPageSize)
termination_by vaultMaxRows - rows.length
decreasing_by
  rename_i hmore
  rw [not_or] at hmore
  obtain ⟨hfull, hroom⟩ := hmore
  rw [List.length_append] at hroom ⊢
  unfold vaultPageSize at hfull
  unfold vaultMaxRows at hroom ⊢
  show 20000 - (rows.length + page.length) < 20000 - rows.length
  omega

/-- `ORDER BY created_at DESC`; a row is created when it is incurred. -/
def newestFirst (costs : List Cost) : List Cost :=
  costs.insertionSort fun a b => b.incurredAt ≤ a.incurredAt

/-- The list endpoint of Vault. -/
def listCosts (costs : List Cost) (limit offset : Nat) : List Cost :=
  ((newestFirst costs).drop offset).take limit

/-- `_incurred_date`: the day in UTC. -/
def incurredDate (incurredAt : Int) : Int := incurredAt / 86400000000

inductive GroupKey
  | function (functionId : Option String)
  | day (date : Int)
deriving DecidableEq, Repr

/-- Python orders days, and texts, and no text against `None`. -/
def GroupKey.le : GroupKey → GroupKey → Bool
  | .day d, .day e => decide (d ≤ e)
  | .function (some f), .function (some g) => decide (f ≤ g)
  | _, _ => true

/-- `sorted(totals.items())`; the keys are different from each other. -/
def sortedItems (totals : List (GroupKey × Int)) : Except String (List (GroupKey × Int)) :=
  if GroupKey.function none ∈ totals.map Prod.fst ∧
      ∃ key ∈ totals.map Prod.fst, key ≠ GroupKey.function none then
    .error "TypeError"
  else .ok (totals.insertionSort fun a b => a.1.le b.1)

/-- The key a row is grouped by. -/
def groupKey (groupBy : String) (cost : Cost) : GroupKey :=
  if groupBy = "day" then .day (incurredDate cost.incurredAt) else .function cost.functionId

/-- `get_cost_ledger` -/
def getCostLedger (listPage : Nat → Nat → List Cost) (groupBy : String) (date : Option Int) :
    Except String (List (GroupKey × Int)) :=
  let costs := (fetchAll listPage [] 0).filter fun cost =>
    date.all fun date => incurredDate cost.incurredAt = date
  sortedItems (Group.groupSum (groupKey groupBy) Cost.amount costs)

/-! ## What is promised -/

/-- The report says what the completions of the window cost, and how many they were. -/
structure MonthReported (s : State) (start stop : Int) : Prop where
  total : (monthCosts s start stop).total = s.usd (inWindow start stop)
  calls : (monthCosts s start stop).calls = (s.completions (inWindow start stop)).length
  providerTotal : ((monthCosts s start stop).byProvider.map Split.amount).sum =
    s.usd (inWindow start stop)
  providerCalls : ((monthCosts s start stop).byProvider.map Split.calls).sum =
    (s.completions (inWindow start stop)).length
  agentTotal : ((monthCosts s start stop).byAgent.map Split.amount).sum =
    s.usd (inWindow start stop)
  agentCalls : ((monthCosts s start stop).byAgent.map Split.calls).sum =
    (s.completions (inWindow start stop)).length

/-- The time is on the day. -/
def onDay (day incurredAt : Int) : Bool := incurredDate incurredAt = day

/-- The ledger of a day, however it is grouped, adds up to what its completions cost. -/
def LedgerReported (s : State) (day : Int) : Prop :=
  ∀ groupBy, ∃ groups, getCostLedger (listCosts s.costs) groupBy (some day) = .ok groups ∧
    (groups.map Prod.snd).sum = s.usd (onDay day)

/-- Of the rows that the console reads, the tokens and milliseconds of the day. -/
def othersCounted (s : State) (day : Int) : Int :=
  ((((newestFirst s.costs).take vaultMaxRows).filter fun cost =>
    !cost.isUsd && onDay day cost.incurredAt).map Cost.amount).sum

/-- Of the rows that the console does not come to, the dollars of the day. -/
def usdLeftOut (s : State) (day : Int) : Int :=
  ((((newestFirst s.costs).drop vaultMaxRows).filter fun cost =>
    cost.isUsd && onDay day cost.incurredAt).map Cost.amount).sum

/-! ## The report -/

/-- The groups add up to the amounts of the rows, and to their number. -/
theorem splitBy_total {ρ : Type} (key : ρ → String) (amount : ρ → Int) (rows : List ρ) :
    ((splitBy key amount rows).map Split.amount).sum = (rows.map amount).sum ∧
      ((splitBy key amount rows).map Split.calls).sum = rows.length := by
  have htotal : ((Group.groupSum key (fun row => (amount row, 1)) rows).map Prod.snd).sum =
      (rows.map fun row => (amount row, 1)).sum := Group.groupSum_total
  have hamount := congrArg (AddMonoidHom.fst Int Nat) htotal
  have hcalls := congrArg (AddMonoidHom.snd Int Nat) htotal
  rw [map_list_sum, map_list_sum, List.map_map, List.map_map] at hamount hcalls
  unfold splitBy
  rw [List.map_map, List.map_map]
  refine ⟨hamount, hcalls.trans ?_⟩
  show (rows.map fun _ => 1).sum = rows.length
  rw [List.map_const', List.sum_replicate, Nat.nsmul_eq_mul, Nat.mul_one]

/-- Where an id names one run, the join neither loses a row nor doubles one. -/
theorem joinRuns_costs {agentRuns : List (String × String)} {costs : List Cost}
    (hruns : (agentRuns.map Prod.fst).Nodup)
    (hknown : ∀ cost ∈ costs, cost.agentRunId ∈ agentRuns.map Prod.fst) :
    (joinRuns agentRuns costs).map Prod.snd = costs := by
  have hone : ∀ id ∈ agentRuns.map Prod.fst,
      (agentRuns.filter fun run => run.1 = id).length = 1 := by
    intro id hid
    have hcount := List.count_eq_one_of_mem hruns hid
    rw [List.count, List.countP_map, List.countP_eq_length_filter] at hcount
    exact hcount
  induction costs with
  | nil => rfl
  | cons cost costs ih =>
    obtain ⟨run, hrun⟩ := List.length_eq_one_iff.1 (hone _ (hknown cost List.mem_cons_self))
    have hrest := ih fun cost' h => hknown cost' (List.mem_cons_of_mem cost h)
    unfold joinRuns at hrest ⊢
    rw [List.flatMap_cons, List.map_append, hrest, hrun]
    rfl

/-- Every group of the report adds up to the rows of the window. -/
theorem Sound.byAgent_total {s : State} (hs : Sound s) (start stop : Int) :
    ((monthCosts s start stop).byAgent.map Split.amount).sum = (monthCosts s start stop).total ∧
      ((monthCosts s start stop).byAgent.map Split.calls).sum = (monthCosts s start stop).calls := by
  have hjoin := joinRuns_costs hs.runs fun cost hc =>
    hs.known cost (List.mem_of_mem_filter (p := fun cost : Cost =>
      inWindow start stop cost.incurredAt) hc)
  obtain ⟨hamount, hcalls⟩ := splitBy_total Prod.fst (fun row : String × Cost => row.2.amount)
    (joinRuns s.agentRuns (s.costs.filter fun cost => inWindow start stop cost.incurredAt))
  refine ⟨hamount.trans ?_, hcalls.trans ?_⟩
  · have := congrArg (List.map Cost.amount) hjoin
    rw [List.map_map] at this
    exact congrArg List.sum this
  · have := congrArg List.length hjoin
    rw [List.length_map] at this
    exact this

/-- The report is right on the windows that have no row in another unit. -/
theorem Sound.monthReported_iff {s : State} (hs : Sound s) (start stop : Int) :
    MonthReported s start stop ↔
      ∀ cost ∈ s.costs, inWindow start stop cost.incurredAt = true → cost.isUsd = true := by
  let rows := s.costs.filter fun cost => inWindow start stop cost.incurredAt
  have husd : ((rows.filter Cost.isUsd).map Cost.amount).Perm
      ((s.completions (inWindow start stop)).map Completion.usd) := by
    have := hs.usd_rows (inWindow start stop)
    rw [← List.filter_filter] at this
    exact this
  have hcount : (rows.filter Cost.isUsd).length = (s.completions (inWindow start stop)).length := by
    simpa using husd.length_eq
  have hprovider := splitBy_total Cost.provider Cost.amount rows
  have hagent := hs.byAgent_total start stop
  constructor
  · intro h cost hc hwin
    have hall : (rows.filter Cost.isUsd).length = rows.length := hcount.trans h.calls.symm
    exact List.length_filter_eq_length_iff.1 hall cost (List.mem_filter.2 ⟨hc, hwin⟩)
  · intro h
    have hall : rows.filter Cost.isUsd = rows := List.filter_eq_self.2 fun cost hc =>
      h cost (List.mem_filter.1 hc).1 (List.mem_filter.1 hc).2
    rw [hall] at husd hcount
    have htotal : (monthCosts s start stop).total = s.usd (inWindow start stop) := husd.sum_eq
    have hcalls : (monthCosts s start stop).calls =
      (s.completions (inWindow start stop)).length := hcount
    exact ⟨htotal, hcalls, hprovider.1.trans htotal, hprovider.2.trans hcalls,
      hagent.1.trans htotal, hagent.2.trans hcalls⟩

/-! ## The ledger -/

/-- Page by page the console reads the first `vaultMaxRows` rows of a table. -/
theorem fetchAll_pages {α : Type} (table : List α) (k : Nat) (hk : k * 500 < 20000) :
    fetchAll (fun limit offset => (table.drop offset).take limit) (table.take (k * 500)) (k * 500) =
      table.take vaultMaxRows := by
  have hnext : table.take (k * 500) ++ (table.drop (k * 500)).take vaultPageSize =
      table.take ((k + 1) * 500) := by
    rw [Nat.succ_mul, List.take_add]
    rfl
  have hpage : ((table.drop (k * 500)).take vaultPageSize).length =
      min 500 (table.length - k * 500) := by
    rw [List.length_take, List.length_drop]
    rfl
  unfold fetchAll
  dsimp only
  rw [hpage, hnext, List.length_take]
  unfold vaultPageSize vaultMaxRows
  split
  · next hstop =>
    rcases hstop with hshort | hcap
    · -- a short page is the last one
      have hend : table.length ≤ (k + 1) * 500 := by omega
      have hcap : table.length ≤ 20000 := by omega
      exact (List.take_of_length_le hend).trans (List.take_of_length_le hcap).symm
    · have hlast : (k + 1) * 500 = 20000 := by omega
      rw [hlast]
  · next hmore =>
    obtain ⟨hfull, hunder⟩ := not_or.1 hmore
    have hlength : (k + 1) * 500 ≤ table.length := by
      clear hunder hmore
      omega
    rw [Nat.min_eq_left hlength, not_le] at hunder
    have hoffset : k * 500 + 500 = (k + 1) * 500 := (Nat.succ_mul k 500).symm
    rw [hoffset]
    exact fetchAll_pages table (k + 1) hunder
termination_by 40 - k

theorem fetchAll_listCosts (costs : List Cost) :
    fetchAll (listCosts costs) [] 0 = (newestFirst costs).take vaultMaxRows :=
  fetchAll_pages (newestFirst costs) 0 (by omega)

theorem sum_sortedItems {totals groups : List (GroupKey × Int)}
    (h : sortedItems totals = .ok groups) :
    (groups.map Prod.snd).sum = (totals.map Prod.snd).sum := by
  unfold sortedItems at h
  split at h
  · cases h
  · obtain rfl := Except.ok.inj h
    exact ((List.perm_insertionSort _ totals).map Prod.snd).sum_eq

/-- No metered row names a function, so the keys can be sorted. -/
theorem sortedItems_ok (groupBy : String) {rows : List Cost}
    (hrows : ∀ cost ∈ rows, cost.functionId = none) :
    ∃ groups, sortedItems (Group.groupSum (groupKey groupBy) Cost.amount rows) = .ok groups := by
  refine ⟨_, if_neg ?_⟩
  rintro ⟨hnone, key, hkey, hne⟩
  unfold Group.groupSum at hnone hkey
  rw [List.map_map] at hnone hkey
  simp only [List.mem_map, List.mem_dedup, Function.comp] at hnone hkey
  obtain ⟨_, ⟨cost, -, rfl⟩, hnone⟩ := hnone
  obtain ⟨_, ⟨cost', hcost', rfl⟩, rfl⟩ := hkey
  unfold groupKey at hnone hne
  split at hnone
  · cases hnone
  · next hday =>
    rw [if_neg hday, hrows cost' hcost'] at hne
    exact hne rfl

/-- What the ledger of a day adds up to. -/
theorem Sound.ledger_total {s : State} (hs : Sound s) (groupBy : String) (day : Int) :
    ∃ groups, getCostLedger (listCosts s.costs) groupBy (some day) = .ok groups ∧
      (groups.map Prod.snd).sum = ((((newestFirst s.costs).take vaultMaxRows).filter fun cost =>
        onDay day cost.incurredAt).map Cost.amount).sum := by
  unfold getCostLedger
  rw [fetchAll_listCosts]
  have hrows : ∀ cost ∈ ((newestFirst s.costs).take vaultMaxRows).filter
      (fun cost => onDay day cost.incurredAt), cost.functionId = none := by
    intro cost hc
    have hmem := List.mem_of_mem_take (List.mem_filter.1 hc).1
    exact hs.unassigned cost ((List.perm_insertionSort _ s.costs).mem_iff.1 hmem)
  obtain ⟨groups, hgroups⟩ := sortedItems_ok groupBy hrows
  exact ⟨groups, hgroups, (sum_sortedItems hgroups).trans Group.groupSum_total⟩

/-- Rows add up to their dollars and their other units. -/
theorem sum_units (rows : List Cost) (p : Int → Bool) :
    ((rows.filter fun cost => p cost.incurredAt).map Cost.amount).sum =
      ((rows.filter fun cost => cost.isUsd && p cost.incurredAt).map Cost.amount).sum +
        ((rows.filter fun cost => !cost.isUsd && p cost.incurredAt).map Cost.amount).sum := by
  induction rows with
  | nil => rfl
  | cons cost rows ih =>
    cases husd : cost.isUsd <;> cases hp : p cost.incurredAt <;>
      simp only [List.filter_cons, husd, hp, Bool.true_and, Bool.false_and, Bool.not_true,
        Bool.not_false, Bool.false_eq_true, if_true, if_false, List.map_cons, List.sum_cons, ih] <;>
      omega

/-- The ledger of a day is right where what it adds is what it leaves out. -/
theorem Sound.ledgerReported_iff {s : State} (hs : Sound s) (day : Int) :
    LedgerReported s day ↔ othersCounted s day = usdLeftOut s day := by
  have husd : s.usd (onDay day) =
      ((((newestFirst s.costs).take vaultMaxRows).filter fun cost =>
        cost.isUsd && onDay day cost.incurredAt).map Cost.amount).sum + usdLeftOut s day := by
    have hsorted : ((newestFirst s.costs).filter fun cost =>
        cost.isUsd && onDay day cost.incurredAt).Perm
        (s.costs.filter fun cost => cost.isUsd && onDay day cost.incurredAt) :=
      (List.perm_insertionSort _ s.costs).filter _
    have hsum := ((hsorted.map Cost.amount).trans (hs.usd_rows (onDay day))).sum_eq
    unfold usdLeftOut
    rw [← List.sum_append, ← List.map_append, ← List.filter_append, List.take_append_drop]
    exact hsum.symm
  have hledger := sum_units ((newestFirst s.costs).take vaultMaxRows) (onDay day)
  have hothers : othersCounted s day =
      ((((newestFirst s.costs).take vaultMaxRows).filter fun cost =>
        !cost.isUsd && onDay day cost.incurredAt).map Cost.amount).sum := rfl
  constructor
  · intro h
    obtain ⟨groups, hgroups, hsum⟩ := h "day"
    obtain ⟨groups', hgroups', hsum'⟩ := hs.ledger_total "day" day
    obtain rfl := Except.ok.inj (hgroups.symm.trans hgroups')
    omega
  · intro h groupBy
    obtain ⟨groups, hgroups, hsum⟩ := hs.ledger_total groupBy day
    exact ⟨groups, hgroups, by omega⟩

/-- What was spent is reported exactly where the window has no row in another unit, and the ledger
    adds no more of the other units to a day than it leaves out in dollars. -/
theorem spend_reported_iff {s : State} (hs : Reach s) (start stop : Int) :
    (MonthReported s start stop ∧ ∀ day, LedgerReported s day) ↔
      (∀ cost ∈ s.costs, inWindow start stop cost.incurredAt = true → cost.isUsd = true) ∧
        ∀ day, othersCounted s day = usdLeftOut s day := by
  have hmonth := hs.sound.monthReported_iff start stop
  have hledger := hs.sound.ledgerReported_iff
  rw [hmonth]
  exact and_congr_right fun _ => forall_congr' hledger

/-! ## One completion -/

/-- A completion for a cent, with twenty tokens in five milliseconds. -/
def cheapCompletion : Completion := ⟨"run-1", "anthropic", 10000, 20, 5000000⟩

/-- The database once `k` of its rows are inserted. -/
def meteredState (times : List Int) : State :=
  ⟨[("run-1", "draft_agent")], (Writer.rows ⟨cheapCompletion, times⟩).reverse,
    [⟨cheapCompletion, times⟩]⟩

theorem reach_called : Reach (meteredState []) :=
  (Reach.empty.step (.agentRun _ "run-1" "draft_agent" (by simp [State.Known]))).step
    (.call _ cheapCompletion)

theorem reach_insert {times : List Int} (h : Reach (meteredState times)) (now : Int)
    {unit : String × Int} (hnext : Writer.next ⟨cheapCompletion, times⟩ = some unit) :
    Reach (meteredState (times ++ [now])) := by
  have hrows := Writer.rows_wrote hnext now
  have hstep := h.step (.insert _ [] [] ⟨cheapCompletion, times⟩ unit now rfl hnext
    (by simp [State.Known, meteredState, cheapCompletion]))
  have hcosts : (Writer.rows ⟨cheapCompletion, times ++ [now]⟩).reverse =
      insertCost cheapCompletion unit now :: (Writer.rows ⟨cheapCompletion, times⟩).reverse := by
    have := congrArg List.reverse hrows
    rwa [List.reverse_append] at this
  unfold meteredState
  rw [hcosts]
  exact hstep

/-- Where only the dollars came to be written, they are reported. -/
theorem spend_reported_usd_only :
    MonthReported (meteredState [3]) 0 10 ∧ ∀ day, LedgerReported (meteredState [3]) day :=
  (spend_reported_iff (reach_insert reach_called 3 rfl) 0 10).2
    ⟨fun cost hc _ => by
      obtain rfl := List.mem_singleton.1 hc
      rfl, fun _ => rfl⟩

/-- A completion for a cent is reported as three calls for more than twenty-five dollars. -/
theorem cent_reported_as_more : ¬ ∀ s, Reach s → ∀ start stop,
    MonthReported s start stop ∧ ∀ day, LedgerReported s day := by
  intro h
  have hr := reach_insert (reach_insert (reach_insert reach_called 3 rfl) 4 rfl) 5 rfl
  have htotal := (h _ hr 0 10).1.total
  revert htotal
  decide

end CanvasOS.Metering
