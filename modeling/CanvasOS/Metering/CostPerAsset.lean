/-
  The cost of an accepted asset: the nightly rollup (`rollup.rollup_cost_per_accepted_asset`) and the
  month-end report that adds it up (`db.month_kpis`).

  1. `rollupCostPerAcceptedAsset` — the whole of `costs` and of `assets` as they stand that night,
     by agent; an agent without an accepted asset has no row.
  2. `monthKpis` — the sums over the rows of the window.
  3. `meansIt_iff` — the rows and the sums are what an agent spent and had accepted exactly where the
     rows of other units and other days come to nothing, no asset of another day is accepted yet,
     and nothing was spent on the days without a row.

  Amounts are added exactly, where Python adds floats, and the job gets the tables as they stand at
  one time: what becomes of them page by page is the subject of `Analytics.Paging`.
-/
import Mathlib.Algebra.BigOperators.Ring.List
import Mathlib.Algebra.Ring.Int.Defs
import CanvasOS.Metering.Spend

namespace CanvasOS.Metering

open Group

/-! ## The tables -/

/-- An asset: the run that made it, and when it was approved. -/
structure Asset where
  agentRunId : String
  approvedAt : Option Int
deriving DecidableEq

structure VaultTables where
  agentRuns : List (String × String)
  costs : List Cost
  assets : List Asset

/-- `assets.approval_state` at a time -/
def Asset.approvalState (asset : Asset) (now : Int) : String :=
  if asset.approvedAt.any fun t => decide (t < now) then "approved" else "draft"

/-- `{ar["id"]: ar["agent_name"] for ar in agent_runs}.get(run_id)` -/
def agentOf (agentRuns : List (String × String)) (runId : String) : Option String :=
  (agentRuns.reverse.find? fun run => run.1 == runId).map Prod.snd

/-! ## The rollup -/

/-- `num / den`, rounded to a whole number, halves away from zero. -/
def rounded (num den : Int) : Int :=
  if 0 ≤ num then (2 * num + den) / (2 * den) else -((2 * -num + den) / (2 * den))

/-- A row of `kpi_rollup_cost_per_accepted_asset`.  The two costs are `numeric(12, 4)`, whole numbers
    of ten-thousandths. -/
structure KpiRow where
  day : Int
  agentName : String
  totalCostUsd : Int
  acceptedAssetCount : Int
  costPerAcceptedAsset : Int
deriving DecidableEq

/-- `INSERT … ON CONFLICT (day, kpi_name, agent_name) DO UPDATE` -/
def upsert (table : List KpiRow) (row : KpiRow) : List KpiRow :=
  (table.filter fun r => ¬ (r.day = row.day ∧ r.agentName = row.agentName)) ++ [row]

/-- `total_cost_by_agent_name` -/
def totalCosts (agentRuns : List (String × String)) (costs : List Cost) : List (String × Int) :=
  groupSum Prod.fst Prod.snd (costs.filterMap fun cost =>
    (agentOf agentRuns cost.agentRunId).map fun agentName => (agentName, cost.amount))

/-- `accepted_count_by_agent_name`, of the run and the approval state of each asset -/
def acceptedCounts (agentRuns : List (String × String)) (assets : List (String × String)) :
    List (String × Int) :=
  groupSum Prod.fst Prod.snd ((assets.filter fun asset => asset.2 = "approved").filterMap
    fun asset => (agentOf agentRuns asset.1).map fun agentName => (agentName, 1))

/-- The row that is written for an agent. -/
def kpiRow (day : Int) (totals : List (String × Int)) (accepted : String × Int) : KpiRow :=
  let total := sumOf totals accepted.1
  ⟨day, accepted.1, rounded total 100, accepted.2, rounded total (100 * accepted.2)⟩

/-- `rollup_cost_per_accepted_asset` -/
def rollupCostPerAcceptedAsset (agentRuns : List (String × String)) (costs : List Cost)
    (assets : List (String × String)) (day : Int) (table : List KpiRow) : List KpiRow :=
  ((acceptedCounts agentRuns assets).map (kpiRow day (totalCosts agentRuns costs))).foldl upsert table

/-- When the job of a day reads the tables: the night after. -/
structure Schedule where
  readAt : Int → Int
  after : ∀ day, (day + 1) * 86400000000 ≤ readAt day

/-- The costs that are there at a time. -/
def VaultTables.costsAt (V : VaultTables) (now : Int) : List Cost :=
  V.costs.filter fun cost => cost.incurredAt < now

/-- The job of a day. -/
def nightly (V : VaultTables) (S : Schedule) (table : List KpiRow) (day : Int) : List KpiRow :=
  rollupCostPerAcceptedAsset V.agentRuns (V.costsAt (S.readAt day))
    (V.assets.map fun asset => (asset.agentRunId, asset.approvalState (S.readAt day))) day table

/-- `SELECT agent_name, SUM(total_cost_usd), SUM(accepted_asset_count) … GROUP BY agent_name` of
    `month_kpis` -/
def monthKpis (table : List KpiRow) (start stop : Int) : List (String × Int × Int) :=
  groupSum KpiRow.agentName (fun row => (row.totalCostUsd, row.acceptedAssetCount))
    (table.filter fun row => inWindow start stop row.day)

/-! ## What is promised -/

/-- The cost rows of an agent. -/
def VaultTables.costsOf (V : VaultTables) (agentName : String) : List Cost :=
  V.costs.filter fun cost => agentOf V.agentRuns cost.agentRunId = some agentName

/-- What an agent spent, in millionths of a dollar, on the days that `p` accepts. -/
def VaultTables.usdSpent (V : VaultTables) (agentName : String) (p : Int → Bool) : Int :=
  (((V.costsOf agentName).filter fun cost => cost.isUsd && p (incurredDate cost.incurredAt)).map
    Cost.amount).sum

/-- How many of an agent's assets were approved at a time that `p` accepts. -/
def VaultTables.accepted (V : VaultTables) (agentName : String) (p : Int → Bool) : Nat :=
  V.assets.countP fun asset =>
    decide (agentOf V.agentRuns asset.agentRunId = some agentName) && asset.approvedAt.any p

/-- The rows of an agent, and their sums over the window, are what it spent and had accepted. -/
structure MeansIt (V : VaultTables) (S : Schedule) (days : List Int) (agentName : String)
    (start stop : Int) : Prop where
  daily : ∀ row ∈ days.foldl (nightly V S) [], row.agentName = agentName →
    inWindow start stop row.day = true →
      row.totalCostUsd * 100 = V.usdSpent agentName (fun d => d = row.day) ∧
        row.acceptedAssetCount = V.accepted agentName (onDay row.day)
  spend : (sumOf (monthKpis (days.foldl (nightly V S) []) start stop) agentName).1 * 100 =
    V.usdSpent agentName (inWindow start stop)
  assets : (sumOf (monthKpis (days.foldl (nightly V S) []) start stop) agentName).2 =
    V.accepted agentName fun t => inWindow start stop (incurredDate t)

/-! ## The condition -/

/-- What the rollup of a day adds for an agent beside its dollars of the day: tokens and
    milliseconds, and the rows of other days. -/
def strays (V : VaultTables) (S : Schedule) (agentName : String) (day : Int) : Int :=
  (((V.costsOf agentName).filter fun cost => decide (cost.incurredAt < S.readAt day) &&
    !(cost.isUsd && decide (incurredDate cost.incurredAt = day))).map Cost.amount).sum

/-- The agent has an accepted asset when the job of the day runs. -/
def hasRow (V : VaultTables) (S : Schedule) (agentName : String) (day : Int) : Bool :=
  V.accepted agentName (fun t => t < S.readAt day) != 0

/-- Nothing but the dollars and the assets of its own day comes into a row, and no dollars are spent
    on a day that has none. -/
structure Undiluted (V : VaultTables) (S : Schedule) (days : List Int) (agentName : String)
    (start stop : Int) : Prop where
  costs : ∀ day ∈ days, inWindow start stop day = true → hasRow V S agentName day = true →
    rounded (V.usdSpent agentName (fun d => d = day) + strays V S agentName day) 100 * 100 =
      V.usdSpent agentName fun d => d = day
  assets : ∀ day ∈ days, inWindow start stop day = true → ∀ asset ∈ V.assets,
    agentOf V.agentRuns asset.agentRunId = some agentName →
    (asset.approvedAt.any fun t => decide (t < S.readAt day)) = true →
      asset.approvedAt.any (onDay day) = true
  rowless : ((days.filter fun day => inWindow start stop day && !hasRow V S agentName day).map
    fun day => V.usdSpent agentName fun d => d = day).sum = 0

/-! ## The rows of a night -/

section Rows

variable {V : VaultTables} {S : Schedule} {agentName : String} {start stop : Int}

/-- What is joined with the agents and filtered for one of them. -/
theorem filter_joined {α : Type} (agent : α → Option String) (value : α → Int) (rows : List α) :
    ((rows.filterMap fun row => (agent row).map fun name => (name, value row)).filter
      fun x => x.1 = agentName).map Prod.snd =
      (rows.filter fun row => agent row = some agentName).map value := by
  induction rows with
  | nil => rfl
  | cons row rows ih =>
    rw [List.filterMap_cons]
    cases hagent : agent row with
    | none => simpa [hagent] using ih
    | some name =>
      by_cases hname : name = agentName
      · simpa [hagent, hname] using ih
      · simpa [hagent, hname] using ih

/-- What the rollup adds up for the agent. -/
def totalSeen (V : VaultTables) (S : Schedule) (agentName : String) (day : Int) : Int :=
  (((V.costsOf agentName).filter fun cost => decide (cost.incurredAt < S.readAt day)).map
    Cost.amount).sum

theorem sumOf_totalCosts (day : Int) :
    sumOf (totalCosts V.agentRuns (V.costsAt (S.readAt day))) agentName =
      totalSeen V S agentName day := by
  unfold totalCosts totalSeen VaultTables.costsAt VaultTables.costsOf
  rw [sumOf_groupSum, filter_joined, List.filter_filter, List.filter_filter]
  simp only [Bool.and_comm]

/-- The row of an agent that has one. -/
def agentRow (V : VaultTables) (S : Schedule) (agentName : String) (day : Int) : KpiRow :=
  kpiRow day (totalCosts V.agentRuns (V.costsAt (S.readAt day)))
    (agentName, V.accepted agentName fun t => decide (t < S.readAt day))

/-- The rows of a night. -/
def nightRows (V : VaultTables) (S : Schedule) (day : Int) : List KpiRow :=
  (acceptedCounts V.agentRuns (V.assets.map fun asset =>
    (asset.agentRunId, asset.approvalState (S.readAt day)))).map
      (kpiRow day (totalCosts V.agentRuns (V.costsAt (S.readAt day))))

theorem filter_groupSum {ρ : Type} (agentName : String) (key : ρ → String) (value : ρ → Int)
    (rows : List ρ) :
    (groupSum key value rows).filter (fun g => g.1 = agentName) =
      if agentName ∈ rows.map key then
        [(agentName, ((rows.filter fun r => key r = agentName).map value).sum)] else [] := by
  unfold groupSum
  rw [List.filter_map]
  have hfilter : (rows.map key).dedup.filter ((fun g => decide (g.1 = agentName)) ∘ fun k =>
      (k, ((rows.filter fun r => key r = k).map value).sum)) =
      List.replicate ((rows.map key).dedup.count agentName) agentName := by
    rw [← List.filter_eq]
    rfl
  rw [hfilter]
  split
  · next hmem =>
    rw [List.count_eq_one_of_mem (List.nodup_dedup _) (List.mem_dedup.2 hmem)]
    rfl
  · next hnot =>
    rw [List.count_eq_zero_of_not_mem (fun h => hnot (List.mem_dedup.1 h))]
    rfl

/-- The accepted assets of a night, with the agents that made them. -/
def approvedSeen (V : VaultTables) (S : Schedule) (day : Int) : List (String × Int) :=
  ((V.assets.map fun asset => (asset.agentRunId, asset.approvalState (S.readAt day))).filter
    fun asset => asset.2 = "approved").filterMap fun asset =>
      (agentOf V.agentRuns asset.1).map fun agentName => (agentName, 1)

theorem approvedSeen_filter (agentName : String) (day : Int) :
    (((approvedSeen V S day).filter fun x => x.1 = agentName).map Prod.snd).sum =
      V.accepted agentName fun t => decide (t < S.readAt day) := by
  unfold approvedSeen VaultTables.accepted
  rw [filter_joined (fun asset : String × String => agentOf V.agentRuns asset.1) (fun _ => 1),
    List.filter_filter, List.filter_map, List.map_map]
  induction V.assets with
  | nil => rfl
  | cons asset assets ih =>
    have hstate : (asset.approvalState (S.readAt day) = "approved") ↔
        (asset.approvedAt.any fun t => decide (t < S.readAt day)) = true := by
      unfold Asset.approvalState
      split
      · next h => exact ⟨fun _ => h, fun _ => rfl⟩
      · next h => exact ⟨fun h' => absurd h' (by decide), fun h' => absurd h' h⟩
    rw [List.countP_cons, List.filter_cons]
    by_cases hagent : agentOf V.agentRuns asset.agentRunId = some agentName
    · by_cases hseen : (asset.approvedAt.any fun t => decide (t < S.readAt day)) = true
      · simp [hagent, hstate.2 hseen, hseen] at ih ⊢
        omega
      · have hdraft : ¬ asset.approvalState (S.readAt day) = "approved" := fun h => hseen (hstate.1 h)
        simpa [hagent, hdraft, hseen] using ih
    · simpa [hagent] using ih

theorem mem_approvedSeen (day : Int) :
    agentName ∈ (approvedSeen V S day).map Prod.fst ↔ hasRow V S agentName day = true := by
  have hcount := approvedSeen_filter (V := V) (S := S) agentName day
  have hone : ∀ x ∈ approvedSeen V S day, x.2 = 1 := by
    intro x hx
    obtain ⟨asset, -, hx⟩ := List.mem_filterMap.1 hx
    obtain ⟨name, -, rfl⟩ := Option.map_eq_some_iff.1 hx
    rfl
  have hlength : ((((approvedSeen V S day).filter fun x => x.1 = agentName).map Prod.snd).sum : Int) =
      ((approvedSeen V S day).filter fun x => x.1 = agentName).length := by
    generalize approvedSeen V S day = seen at hone
    induction seen with
    | nil => rfl
    | cons x seen ih =>
      have hx := hone x List.mem_cons_self
      have := ih fun y hy => hone y (List.mem_cons_of_mem _ hy)
      rw [List.filter_cons]
      split
      · simp only [List.map_cons, List.sum_cons, List.length_cons, hx]
        omega
      · exact this
  unfold hasRow
  rw [bne_iff_ne, ← Int.natCast_ne_zero, ← hcount, hlength, Int.natCast_ne_zero,
    ← Nat.pos_iff_ne_zero, List.length_pos_iff_exists_mem]
  simp only [List.mem_filter, List.mem_map, decide_eq_true_eq]

/-- The rows of a night that are an agent's. -/
theorem nightRows_agent (day : Int) :
    (nightRows V S day).filter (fun row => row.agentName = agentName) =
      if hasRow V S agentName day then [agentRow V S agentName day] else [] := by
  unfold nightRows
  rw [List.filter_map]
  have hgroups := filter_groupSum agentName Prod.fst Prod.snd (approvedSeen V S day)
  rw [approvedSeen_filter] at hgroups
  show ((acceptedCounts _ _).filter fun g => g.1 = agentName).map _ = _
  show ((groupSum Prod.fst Prod.snd (approvedSeen V S day)).filter _).map _ = _
  rw [hgroups]
  by_cases h : hasRow V S agentName day = true
  · rw [if_pos ((mem_approvedSeen day).2 h), if_pos h]
    rfl
  · rw [if_neg (fun hmem => h ((mem_approvedSeen day).1 hmem)), if_neg h]
    rfl

end Rows

/-! ## The table of the nights -/

section Table

variable {V : VaultTables} {S : Schedule} {agentName : String} {start stop : Int}

/-- A row whose day and agent are not there yet is added. -/
theorem upsert_fresh {table : List KpiRow} {row : KpiRow}
    (h : ∀ r ∈ table, ¬ (r.day = row.day ∧ r.agentName = row.agentName)) :
    upsert table row = table ++ [row] := by
  unfold upsert
  rw [List.filter_eq_self.2 fun r hr => decide_eq_true (h r hr)]

/-- Rows of one day, one for each agent, are added to rows of other days. -/
theorem foldl_upsert {table rows : List KpiRow} {day : Int} (hday : ∀ row ∈ rows, row.day = day)
    (hagents : (rows.map KpiRow.agentName).Nodup)
    (hfresh : ∀ r ∈ table, ∀ row ∈ rows, ¬ (r.day = row.day ∧ r.agentName = row.agentName)) :
    rows.foldl upsert table = table ++ rows := by
  induction rows generalizing table with
  | nil => rw [List.append_nil]; rfl
  | cons row rows ih =>
    rw [List.map_cons, List.nodup_cons] at hagents
    rw [List.foldl_cons, upsert_fresh fun r hr => hfresh r hr row List.mem_cons_self,
      ih (fun r hr => hday r (List.mem_cons_of_mem _ hr)) hagents.2, List.append_assoc]
    · rfl
    · intro r hr r' hr'
      rcases List.mem_append.1 hr with hr | hr
      · exact hfresh r hr r' (List.mem_cons_of_mem _ hr')
      · obtain rfl := List.mem_singleton.1 hr
        rintro ⟨-, hname⟩
        exact hagents.1 (hname ▸ List.mem_map_of_mem hr')

theorem nightRows_day {day : Int} : ∀ row ∈ nightRows V S day, row.day = day := by
  intro row hrow
  obtain ⟨g, -, rfl⟩ := List.mem_map.1 hrow
  rfl

theorem nightRows_agents (day : Int) : ((nightRows V S day).map KpiRow.agentName).Nodup := by
  unfold nightRows acceptedCounts groupSum
  rw [List.map_map, List.map_map]
  show (List.map (fun k => k) _).Nodup
  rw [List.map_id']
  exact List.nodup_dedup _

/-- One job a day: the table holds the rows of every night. -/
theorem nights_table {days : List Int} (hdays : days.Nodup) :
    days.foldl (nightly V S) [] = days.flatMap (nightRows V S) := by
  have hgeneral : ∀ (days : List Int) (table : List KpiRow), days.Nodup →
      (∀ r ∈ table, r.day ∉ days) →
      days.foldl (nightly V S) table = table ++ days.flatMap (nightRows V S) := by
    intro days
    induction days with
    | nil => exact fun table _ _ => (List.append_nil table).symm
    | cons day days ih =>
      intro table hdays htable
      obtain ⟨hday, hdays⟩ := List.nodup_cons.1 hdays
      have hnight : nightly V S table day = table ++ nightRows V S day :=
        foldl_upsert nightRows_day (nightRows_agents day) fun r hr row hrow h =>
          htable r hr (by rw [h.1, nightRows_day row hrow]; exact List.mem_cons_self)
      rw [List.foldl_cons, hnight, ih _ hdays, List.flatMap_cons, List.append_assoc]
      intro r hr
      rcases List.mem_append.1 hr with hr | hr
      · exact fun h => htable r hr (List.mem_cons_of_mem _ h)
      · rw [nightRows_day r hr]
        exact hday
  exact hgeneral days [] hdays nofun

/-- The rows of an agent are those of the nights on which it has one. -/
theorem table_agent (V : VaultTables) (S : Schedule) (agentName : String) {days : List Int}
    (hdays : days.Nodup) :
    (days.foldl (nightly V S) []).filter (fun row => row.agentName = agentName) =
      (days.filter (hasRow V S agentName)).map (agentRow V S agentName) := by
  rw [nights_table hdays]
  clear hdays
  induction days with
  | nil => rfl
  | cons day days ih =>
    rw [List.flatMap_cons, List.filter_append, ih, nightRows_agent, List.filter_cons]
    split
    · rfl
    · rfl

/-- The nights of the window on which the agent has a row. -/
def rowDays (V : VaultTables) (S : Schedule) (days : List Int) (agentName : String)
    (start stop : Int) : List Int :=
  days.filter fun day => inWindow start stop day && hasRow V S agentName day

theorem monthKpis_agent {days : List Int} (hdays : days.Nodup) :
    sumOf (monthKpis (days.foldl (nightly V S) []) start stop) agentName =
      (((rowDays V S days agentName start stop).map fun day =>
          (agentRow V S agentName day).totalCostUsd).sum,
        ((rowDays V S days agentName start stop).map fun day =>
          (agentRow V S agentName day).acceptedAssetCount).sum) := by
  have hrows : ((days.foldl (nightly V S) []).filter fun row => inWindow start stop row.day).filter
      (fun row => row.agentName = agentName) =
      (rowDays V S days agentName start stop).map (agentRow V S agentName) := by
    rw [List.filter_filter]
    have hswap : ∀ rows : List KpiRow, rows.filter (fun row =>
        decide (row.agentName = agentName) && inWindow start stop row.day) =
        (rows.filter fun row => row.agentName = agentName).filter
          fun row => inWindow start stop row.day := by
      intro rows
      rw [List.filter_filter]
      exact List.filter_congr fun row _ => Bool.and_comm _ _
    rw [hswap, table_agent V S agentName hdays, List.filter_map, List.filter_filter]
    rfl
  have hpairs : ∀ rows : List KpiRow,
      (rows.map fun row => (row.totalCostUsd, row.acceptedAssetCount)).sum =
        ((rows.map KpiRow.totalCostUsd).sum, (rows.map KpiRow.acceptedAssetCount).sum) := by
    intro rows
    induction rows with
    | nil => rfl
    | cons row rows ih => simp only [List.map_cons, List.sum_cons, ih, Prod.mk_add_mk]
  unfold monthKpis
  rw [sumOf_groupSum, hrows, hpairs, List.map_map, List.map_map]
  rfl

/-- The days of the window, with and without a row. -/
theorem sum_window (V : VaultTables) (S : Schedule) (agentName : String) (start stop : Int)
    (days : List Int) (f : Int → Int) :
    ((days.filter (inWindow start stop)).map f).sum =
      ((rowDays V S days agentName start stop).map f).sum +
        ((days.filter fun day => inWindow start stop day && !hasRow V S agentName day).map f).sum := by
  unfold rowDays
  induction days with
  | nil => rfl
  | cons day days ih =>
    simp only [List.filter_cons]
    cases inWindow start stop day with
    | false => simpa using ih
    | true =>
      cases hasRow V S agentName day with
      | false =>
        simp only [Bool.not_false, Bool.and_self, Bool.and_false, if_true, Bool.false_eq_true,
          if_false, List.map_cons, List.sum_cons, ih]
        omega
      | true =>
        simp only [Bool.not_true, Bool.and_self, Bool.and_false, if_true, Bool.false_eq_true,
          if_false, List.map_cons, List.sum_cons, ih]
        omega

end Table

/-! ## Days and windows -/

section Days

variable {V : VaultTables} {S : Schedule} {agentName : String} {start stop : Int} {days : List Int}

/-- What is of a day was there when its job ran. -/
theorem seen_of_day {t day : Int} (h : incurredDate t = day) : t < S.readAt day := by
  have hafter := S.after day
  have hlt : t < (day + 1) * 86400000000 := by
    unfold incurredDate at h
    omega
  omega

/-- The rollup adds the dollars of the day, and strays. -/
theorem totalSeen_eq (day : Int) :
    totalSeen V S agentName day =
      V.usdSpent agentName (fun d => d = day) + strays V S agentName day := by
  unfold totalSeen strays VaultTables.usdSpent
  induction V.costsOf agentName with
  | nil => rfl
  | cons cost costs ih =>
    simp only [List.filter_cons]
    by_cases hday : incurredDate cost.incurredAt = day
    · have hseen : cost.incurredAt < S.readAt day := seen_of_day hday
      cases husd : cost.isUsd with
      | true => simp [hday, hseen, ih]; omega
      | false => simp [hday, hseen, ih]; omega
    · by_cases hseen : cost.incurredAt < S.readAt day
      · simp [hday, hseen, ih]; omega
      · simp [hday, hseen, ih]

/-- Where every day of the window is among the days, the dollars of the days are those of the
    window. -/
theorem usd_window (hdays : days.Nodup) (hall : ∀ day, inWindow start stop day = true → day ∈ days) :
    ((days.filter (inWindow start stop)).map fun day => V.usdSpent agentName fun d => d = day).sum =
      V.usdSpent agentName (inWindow start stop) := by
  have htotal := @groups_total _ _ _ _ _ (fun cost : Cost => incurredDate cost.incurredAt)
    Cost.amount ((V.costsOf agentName).filter fun cost =>
      cost.isUsd && inWindow start stop (incurredDate cost.incurredAt)) _
    (hdays.filter (inWindow start stop)) (fun cost hcost => by
      obtain ⟨-, hcost⟩ := List.mem_filter.1 hcost
      rw [Bool.and_eq_true] at hcost
      exact List.mem_filter.2 ⟨hall _ hcost.2, hcost.2⟩)
  unfold VaultTables.usdSpent
  rw [← htotal]
  refine congrArg List.sum (List.map_congr_left fun day hday => ?_)
  have hin := (List.mem_filter.1 hday).2
  rw [List.filter_filter]
  refine congrArg (fun l => (l.map Cost.amount).sum) (List.filter_congr fun cost _ => ?_)
  by_cases h : incurredDate cost.incurredAt = day
  · simp [h, hin]
  · simp [h]

theorem accepted_window (hdays : days.Nodup)
    (hall : ∀ day, inWindow start stop day = true → day ∈ days) :
    ((days.filter (inWindow start stop)).map fun day =>
      (V.accepted agentName (onDay day) : Int)).sum =
      V.accepted agentName fun t => inWindow start stop (incurredDate t) := by
  have hcount : ∀ p : Int → Bool, (V.accepted agentName p : Int) =
      ((((V.assets.filter fun asset =>
        decide (agentOf V.agentRuns asset.agentRunId = some agentName)).filterMap
          Asset.approvedAt).filter p).map fun _ => (1 : Int)).sum := by
    intro p
    unfold VaultTables.accepted
    induction V.assets with
    | nil => rfl
    | cons asset assets ih =>
      rw [List.countP_cons, List.filter_cons]
      by_cases hagent : agentOf V.agentRuns asset.agentRunId = some agentName
      · cases happroved : asset.approvedAt with
        | none => simpa [hagent, happroved] using ih
        | some t =>
          cases hp : p t with
          | false => simpa [hagent, happroved, hp] using ih
          | true =>
            simp [hagent, happroved, hp] at ih ⊢
            omega
      · simpa [hagent] using ih
  simp only [hcount]
  generalize (V.assets.filter fun asset =>
    decide (agentOf V.agentRuns asset.agentRunId = some agentName)).filterMap Asset.approvedAt = times
  have htotal := @groups_total _ _ _ _ _ incurredDate (fun _ => (1 : Int))
    (times.filter fun t => inWindow start stop (incurredDate t)) _
    (hdays.filter (inWindow start stop)) (fun t ht => by
      have hin := (List.mem_filter.1 ht).2
      exact List.mem_filter.2 ⟨hall _ hin, hin⟩)
  rw [← htotal]
  refine congrArg List.sum (List.map_congr_left fun day hday => ?_)
  have hin := (List.mem_filter.1 hday).2
  rw [List.filter_filter]
  refine congrArg (fun l : List Int => (l.map fun _ => (1 : Int)).sum)
    (List.filter_congr fun t _ => ?_)
  by_cases h : incurredDate t = day
  · simp [onDay, h, hin]
  · simp [onDay, h]

end Days

/-! ## When a row means what it says -/

section Means

variable {V : VaultTables} {S : Schedule} {agentName : String} {start stop : Int} {days : List Int}

theorem agentRow_total (day : Int) : (agentRow V S agentName day).totalCostUsd =
    rounded (V.usdSpent agentName (fun d => d = day) + strays V S agentName day) 100 := by
  rw [← totalSeen_eq, ← sumOf_totalCosts]
  rfl

/-- As many assets are counted as were approved on the day, where no other is. -/
theorem countP_eq_iff {α : Type} {l : List α} {p q : α → Bool} (h : ∀ x, q x = true → p x = true) :
    l.countP p = l.countP q ↔ ∀ x ∈ l, p x = true → q x = true := by
  induction l with
  | nil => simp
  | cons x l ih =>
    have hle : l.countP q ≤ l.countP p := List.countP_mono_left fun y _ => h y
    rw [List.countP_cons, List.countP_cons, List.forall_mem_cons, ← ih]
    cases hq : q x with
    | true =>
      rw [h x hq]
      simp
    | false =>
      cases hp : p x with
      | true =>
        simp only [Bool.false_eq_true, if_false, if_true]
        constructor
        · intro heq
          omega
        · intro himp
          cases himp.1 True.intro
      | false => simp

theorem accepted_eq_iff (day : Int) :
    (V.accepted agentName (fun t => decide (t < S.readAt day)) = V.accepted agentName (onDay day)) ↔
      ∀ asset ∈ V.assets, agentOf V.agentRuns asset.agentRunId = some agentName →
        (asset.approvedAt.any fun t => decide (t < S.readAt day)) = true →
          asset.approvedAt.any (onDay day) = true := by
  unfold VaultTables.accepted
  rw [countP_eq_iff]
  · refine forall₂_congr fun asset _ => ?_
    simp only [Bool.and_eq_true, decide_eq_true_eq]
    exact ⟨fun h hagent hseen => (h ⟨hagent, hseen⟩).2, fun h ⟨hagent, hseen⟩ =>
      ⟨hagent, h hagent hseen⟩⟩
  · intro asset h
    rw [Bool.and_eq_true] at h ⊢
    refine ⟨h.1, ?_⟩
    obtain ⟨t, ht, hday⟩ := Option.any_eq_true _ _ |>.1 h.2
    rw [ht]
    exact decide_eq_true (seen_of_day (of_decide_eq_true hday))

/-- A day without a row has no accepted asset. -/
theorem accepted_rowless {day : Int} (h : hasRow V S agentName day = false) :
    V.accepted agentName (fun t => decide (t < S.readAt day)) = 0 := by
  unfold hasRow at h
  rw [bne_eq_false_iff_eq] at h
  exact h

theorem accepted_le (V : VaultTables) (S : Schedule) (agentName : String) (day : Int) :
    V.accepted agentName (onDay day) ≤ V.accepted agentName fun t => decide (t < S.readAt day) := by
  unfold VaultTables.accepted
  refine List.countP_mono_left fun asset _ h => ?_
  rw [Bool.and_eq_true] at h ⊢
  refine ⟨h.1, ?_⟩
  obtain ⟨t, ht, hday⟩ := Option.any_eq_true _ _ |>.1 h.2
  rw [ht]
  exact decide_eq_true (seen_of_day (of_decide_eq_true hday))

/-- The rows of the window are right, one by one. -/
theorem daily_iff (hdays : days.Nodup) :
    (∀ row ∈ days.foldl (nightly V S) [], row.agentName = agentName →
      inWindow start stop row.day = true →
        row.totalCostUsd * 100 = V.usdSpent agentName (fun d => d = row.day) ∧
          row.acceptedAssetCount = V.accepted agentName (onDay row.day)) ↔
      ∀ day ∈ rowDays V S days agentName start stop,
        rounded (V.usdSpent agentName (fun d => d = day) + strays V S agentName day) 100 * 100 =
            V.usdSpent agentName (fun d => d = day) ∧
          V.accepted agentName (fun t => decide (t < S.readAt day)) =
            V.accepted agentName (onDay day) := by
  have hmem : ∀ row, row ∈ days.foldl (nightly V S) [] ∧ row.agentName = agentName ↔
      ∃ day ∈ days, hasRow V S agentName day = true ∧ agentRow V S agentName day = row := by
    intro row
    have hrows := congrArg (row ∈ ·) (table_agent V S agentName hdays)
    simpa [List.mem_filter, and_assoc] using hrows
  constructor
  · intro h day hday
    obtain ⟨hday, hboth⟩ := List.mem_filter.1 hday
    rw [Bool.and_eq_true] at hboth
    obtain ⟨hrow, hname⟩ := (hmem (agentRow V S agentName day)).2 ⟨day, hday, hboth.2, rfl⟩
    obtain ⟨htotal, hcount⟩ := h _ hrow hname hboth.1
    rw [agentRow_total] at htotal
    exact ⟨htotal, Int.ofNat_inj.1 hcount⟩
  · intro h row hrow hname hin
    obtain ⟨day, hday, hhas, rfl⟩ := (hmem row).1 ⟨hrow, hname⟩
    obtain ⟨htotal, hcount⟩ := h day (List.mem_filter.2 ⟨hday, by rw [hhas, Bool.and_true]; exact hin⟩)
    rw [agentRow_total]
    exact ⟨htotal, congrArg Int.ofNat hcount⟩

/-- With one job for every day of the window: the rows of an agent and their sums are what it spent
    and had accepted exactly where only the dollars and the assets of its own day come into a row,
    and no dollars are left on days without one. -/
theorem meansIt_iff (hdays : days.Nodup)
    (hall : ∀ day, inWindow start stop day = true → day ∈ days) :
    MeansIt V S days agentName start stop ↔ Undiluted V S days agentName start stop := by
  have hsplit := sum_window V S agentName start stop days
  have hspend := (hsplit fun day => V.usdSpent agentName fun d => d = day).symm.trans
    (usd_window hdays hall)
  constructor
  · intro h
    have hdaily := (daily_iff hdays).1 h.daily
    refine ⟨fun day hday hin hhas => ?_, fun day hday hin => ?_, ?_⟩
    · exact (hdaily day (List.mem_filter.2 ⟨hday, by rw [hin, hhas]; rfl⟩)).1
    · rw [← accepted_eq_iff]
      cases hhas : hasRow V S agentName day with
      | true => exact (hdaily day (List.mem_filter.2 ⟨hday, by rw [hin, hhas]; rfl⟩)).2
      | false =>
        have hzero := accepted_rowless hhas
        have hle := accepted_le V S agentName day
        omega
    · have hwindow := h.spend
      rw [monthKpis_agent hdays, ← hspend] at hwindow
      -- the days with a row carry their own dollars
      have hrows : ((rowDays V S days agentName start stop).map fun day =>
          (agentRow V S agentName day).totalCostUsd).sum * 100 =
          ((rowDays V S days agentName start stop).map fun day =>
            V.usdSpent agentName fun d => d = day).sum := by
        rw [← List.sum_map_mul_right]
        refine congrArg List.sum (List.map_congr_left fun day hday => ?_)
        rw [agentRow_total]
        exact (hdaily day hday).1
      omega
  · intro h
    have hdaily : ∀ day ∈ rowDays V S days agentName start stop,
        rounded (V.usdSpent agentName (fun d => d = day) + strays V S agentName day) 100 * 100 =
            V.usdSpent agentName (fun d => d = day) ∧
          V.accepted agentName (fun t => decide (t < S.readAt day)) =
            V.accepted agentName (onDay day) := by
      intro day hday
      obtain ⟨hday, hboth⟩ := List.mem_filter.1 hday
      rw [Bool.and_eq_true] at hboth
      exact ⟨h.costs day hday hboth.1 hboth.2,
        (accepted_eq_iff day).2 (h.assets day hday hboth.1)⟩
    refine ⟨(daily_iff hdays).2 hdaily, ?_, ?_⟩
    · have hrowless := h.rowless
      rw [monthKpis_agent hdays, ← hspend, hrowless, add_zero, ← List.sum_map_mul_right]
      refine congrArg List.sum (List.map_congr_left fun day hday => ?_)
      rw [agentRow_total]
      exact (hdaily day hday).1
    · have hcount := (hsplit fun day => (V.accepted agentName (onDay day) : Int)).symm.trans
        (accepted_window hdays hall)
      have hnone : ((days.filter fun day =>
          inWindow start stop day && !hasRow V S agentName day).map fun day =>
            (V.accepted agentName (onDay day) : Int)).sum = 0 := by
        refine List.sum_eq_zero fun n hn => ?_
        obtain ⟨day, hday, rfl⟩ := List.mem_map.1 hn
        have hboth := (List.mem_filter.1 hday).2
        rw [Bool.and_eq_true, Bool.not_eq_true'] at hboth
        have hzero := accepted_rowless hboth.2
        have hle := accepted_le V S agentName day
        omega
      rw [monthKpis_agent hdays, ← hcount, hnone, add_zero]
      refine congrArg List.sum (List.map_congr_left fun day hday => ?_)
      exact congrArg Int.ofNat (hdaily day hday).2

end Means

/-! ### One completion and one asset -/

/-- `0 1 * * *`, for yesterday -/
def nightJob : Schedule where
  readAt := fun day => (day + 1) * 86400000000 + 3600000000
  after := fun day => by omega

/-- The tables once `times` of the rows of the completion are written and its asset is approved. -/
def oneAsset (times : List Int) : VaultTables :=
  ⟨(meteredState times).agentRuns, (meteredState times).costs, [⟨"run-1", some 9⟩]⟩

/-- Where only the dollars came to be written, the row means what it says. -/
theorem oneAsset_means :
    MeansIt (oneAsset [3]) nightJob [0] "draft_agent" 0 1 :=
  (meansIt_iff (by decide) fun day h => by
    have hzero : day = 0 := by
      unfold inWindow at h
      rw [Bool.and_eq_true, decide_eq_true_eq, decide_eq_true_eq] at h
      omega
    rw [hzero]
    exact List.mem_singleton.2 rfl).2
    ⟨by decide +kernel, by decide +kernel, by decide +kernel⟩

/-- A completion for a cent makes an asset that costs more than twenty-five dollars. -/
theorem cent_costs_dollars :
    Reach (meteredState [3, 4, 5]) ∧ ¬ MeansIt (oneAsset [3, 4, 5]) nightJob [0] "draft_agent" 0 1 := by
  refine ⟨reach_insert (reach_insert (reach_insert reach_called 3 rfl) 4 rfl) 5 rfl, fun h => ?_⟩
  have hspend := h.spend
  revert hspend
  decide +kernel

end CanvasOS.Metering
