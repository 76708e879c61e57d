/-
  The daily budget of an agent (`budget.py`, `completion.py`).

  1. `checkAndApplyBudget` — the tier and the state of a request, from the spend recorded so far.
  2. `metered` — the system: any number of completions run next to each other, over the cost rows of
     one day.  The spend is a sum over the rows of unit `usd`, so of the three rows of a completion
     only this one is kept; it is the first that is inserted.
  3. `owing` — what a completion has been admitted for and has not recorded.
  4. `spend_le` — with at most `n` completions in flight, the spend exceeds the limit by at most `n`
     times the largest cost.
  5. `spend_runs_over` — a completion is admitted on what is recorded, whoever is in flight: with
     three of them the limit is passed by more than the cost of one.
-/
import CanvasOS.Lib.Own
import CanvasOS.Lib.Tally
import CanvasOS.Gateway.Completion
import Mathlib.Algebra.Ring.Int.Defs

namespace CanvasOS.Gateway

open Interleave Python

/-! ## The budget -/

/-- `budgets.yaml`, in millionths of a dollar: `limits_for(agent_name)` as the daily limit and the
    spend at which the soft breach begins, and `downgrade_path`. -/
structure BudgetPolicy where
  dailyUsdLimit : String → Int
  softLimit : String → Int
  downgradeTier : String → String

/-- `check_and_apply_budget`, with the recorded spend of the agent. -/
def checkAndApplyBudget (B : BudgetPolicy) (agentName : String) (spend : Int) (tier : String) :
    String × BudgetState :=
  if B.dailyUsdLimit agentName ≤ spend then (tier, .hardBreach)
  else if B.softLimit agentName ≤ spend then (B.downgradeTier tier, .softBreach)
  else (tier, .ok)

/-- Only a spend under the limit is admitted. -/
theorem spend_lt_of_admitted {B : BudgetPolicy} {agentName tier : String} {spend : Int}
    (h : (checkAndApplyBudget B agentName spend tier).2 ≠ .hardBreach) :
    spend < B.dailyUsdLimit agentName := by
  unfold checkAndApplyBudget at h
  split at h
  · exact absurd rfl h
  · omega

/-! ## The system -/

/-- A row of `costs` with unit `usd`. -/
structure UsdRow where
  agentRunId : String
  amount : Int
  incurredAt : Int
deriving DecidableEq

/-- The rows, newest first, and the time. -/
structure Meter where
  rows : List UsdRow
  now : Int
deriving DecidableEq

/-- The gateway on one day: its settings and policy, the agent of each run, what `numeric` makes of
    an amount, and `date_trunc('day', now())`. -/
structure BudgetDay where
  settings : GatewaySettings
  policy : BudgetPolicy
  agentName : String → String
  amountOf : String → Int
  dayStart : Int

/-- `SELECT_DAILY_SPEND_SQL`. -/
def BudgetDay.dailySpend (M : BudgetDay) (rows : List UsdRow) (agentName : String) : Int :=
  ((rows.filter fun row => M.agentName row.agentRunId == agentName &&
    decide (M.dayStart ≤ row.incurredAt)).map UsdRow.amount).sum

/-- One statement of the handler against the meter. -/
def BudgetDay.exec (M : BudgetDay) : (o : GatewayOp) → o.Res → Meter → Option (o.Res × Meter)
  | .checkBudget agentRunId tier, _, s =>
    let agentName := M.agentName agentRunId
    some (checkAndApplyBudget M.policy agentName (M.dailySpend s.rows agentName) tier, s)
  | .recordCosts agentRunId _ usd _ _, costId, s =>
    some (costId, ⟨⟨agentRunId, M.amountOf usd, s.now⟩ :: s.rows, s.now⟩)
  | _, answer, s => some (answer, s)

/-- Requests of the gateway; the world is the clock. -/
def metered (M : BudgetDay) : Sys GatewayOp GatewayOp.Res GatewayExc
    (History GatewayOp GatewayOp.Res Meter Nat (List (String × Json))) Nat (List (String × Json))
    (Nat × Json) Nat :=
  recorded (handleCompletion M.settings) (fun _ => M.exec) fun δ s => some ⟨s.rows, s.now + δ⟩

abbrev MeterConfig := Config GatewayOp GatewayOp.Res GatewayExc
  (History GatewayOp GatewayOp.Res Meter Nat (List (String × Json))) Nat (List (String × Json))
  (Nat × Json)

abbrev MeterAct := Act GatewayOp GatewayOp.Res GatewayExc Nat (List (String × Json)) Nat

/-! ## What a completion owes -/

/-- What one call has said and heard. -/
abbrev GatewayLog := Heard GatewayOp GatewayOp.Res

/-- The agent run that a completion was admitted for, its cost not recorded yet. -/
def owing : GatewayLog → Option String
  | [] => none
  | ⟨.checkBudget agentRunId _, answer⟩ :: log =>
    if answer.2 = .hardBreach then owing log else some agentRunId
  | ⟨.recordCosts _ _ _ _ _, _⟩ :: _ => none
  | _ :: log => owing log

/-- Nobody is admitted twice, only who was admitted calls the provider, and whoever records a cost
    owes it. -/
def PaysWhatItOwes : GatewayLog → Prop
  | [] => True
  | ⟨.checkBudget _ _, _⟩ :: log => owing log = none ∧ PaysWhatItOwes log
  | ⟨.complete _ _ _ _ _, _⟩ :: log => owing log ≠ none ∧ PaysWhatItOwes log
  | ⟨.recordCosts agentRunId _ _ _ _, _⟩ :: log =>
    owing log = some agentRunId ∧ PaysWhatItOwes log
  | _ :: log => PaysWhatItOwes log

/-- Neither the budget, nor the provider, nor the meter. -/
def GatewayOp.Free : GatewayOp → Prop
  | .checkBudget _ _ | .complete _ _ _ _ _ | .recordCosts _ _ _ _ _ => False
  | _ => True

section Walk

variable {α : Type} {log : GatewayLog} {o : GatewayOp} {a : o.Res}

theorem GatewayOp.Free.owing (ho : o.Free) : owing (⟨o, a⟩ :: log) = owing log := by
  cases o with
  | checkBudget | complete | recordCosts => exact ho.elim
  | _ => rfl

theorem GatewayOp.Free.pays (ho : o.Free) (h : PaysWhatItOwes log) :
    PaysWhatItOwes (⟨o, a⟩ :: log) := by
  cases o with
  | checkBudget | complete | recordCosts => exact ho.elim
  | _ => exact h

/-- From the log on, the routine pays what it owes. -/
abbrev Pays (p : GatewayM α) (Q : α → GatewayLog → Prop) (log : GatewayLog) : Prop :=
  Keeps (listen fun _ _ => True) PaysWhatItOwes p Q log

/-- A part that asks neither leaves what is owed. -/
theorem pays_free {x : Option String} {p : GatewayM α} (hp : p.Only GatewayOp.Free)
    (h : PaysWhatItOwes log) (hx : owing log = x) : Pays p (fun _ log => owing log = x) log :=
  Keeps.listen_only hp h hx fun _ _ _ ho _ hJ hx => ⟨ho.pays hJ, ho.owing.trans hx⟩

/-- One such call, and what follows it. -/
theorem pays_ask {x : Option String} {f : o.Res → GatewayM α} {Q : α → GatewayLog → Prop}
    (ho : o.Free) (h : PaysWhatItOwes log) (hx : owing log = x)
    (hf : ∀ a log, PaysWhatItOwes log → owing log = x → Pays (f a) Q log) :
    Pays ((callGateway o).bind f) Q log :=
  Keeps.listen_bind h fun a _ => hf a _ (ho.pays h) (ho.owing.trans hx)

theorem firstMatch_free (text : String) (patternIds : List String) :
    (firstMatch text patternIds).Only GatewayOp.Free := by
  induction patternIds with
  | nil => exact True.intro
  | cons patternId rest ih =>
    refine Prog.Only.bind (Prog.Only.perform True.intro) fun found => ?_
    split
    · exact True.intro
    · exact ih

theorem scanMessages_free (patternIds : List String) (messages : List Json) :
    (scanMessages patternIds messages).Only GatewayOp.Free := by
  induction messages with
  | nil => exact True.intro
  | cons m rest ih =>
    unfold scanMessages
    split
    · exact ih
    · refine (firstMatch_free _ _).bind fun matched => ?_
      cases matched with
      | some patternId => exact True.intro
      | none => exact ih

theorem scanRequest_free (payload : List (String × Json)) (patternIds exempt : List String) :
    (scanRequest payload patternIds exempt).Only GatewayOp.Free := by
  refine (scanMessages_free _ _).bind fun matched => ?_
  cases matched with
  | some patternId => exact True.intro
  | none =>
    dsimp only
    split
    · exact firstMatch_free _ _
    · exact True.intro

/-- Behind the budget: one cost is recorded, or none. -/
theorem computeOn_pays {payload : List (String × Json)} {effective : RouteDecision}
    {budgetState : BudgetState} (h : PaysWhatItOwes log)
    (howing : owing log = some (pyStr (Json.get payload "agent_run_id"))) :
    Pays (computeOn payload effective budgetState) (fun _ _ => True) log := by
  unfold computeOn
  refine pays_ask True.intro h howing fun _ log h howing => ?_
  refine Keeps.listen_bind h fun result _ => ?_
  -- the provider's answer leaves the debt
  have hcalled : PaysWhatItOwes (⟨.complete effective.providerModel (messagesOf payload)
      (orDefault (Json.get payload "max_tokens") (.int 1024))
      (unlessNone (Json.get payload "temperature") (.float "0.7")) (Json.get payload "tools"),
      result⟩ :: log) := ⟨by rw [howing]; exact Option.some_ne_none _, h⟩
  refine pays_ask True.intro hcalled howing fun usd log h howing => ?_
  have hrecord : Pays (MonadExcept.tryCatch
      (do
        let c ← callGateway (.recordCosts (pyStr (Json.get payload "agent_run_id"))
          effective.provider usd result.inputTokens result.outputTokens)
        pure (some c))
      fun _ => pure none : GatewayM (Option String)) (fun _ _ => True) log := by
    refine Keeps.tryCatch ?_ fun e log h => ⟨h, True.intro⟩
    exact Keeps.listen_bind h fun costId _ => ⟨⟨howing, h⟩, True.intro⟩
  refine hrecord.bind fun costId log h _ => ?_
  exact pays_ask True.intro h rfl fun id log h _ => ⟨h, True.intro⟩

theorem compute_pays {payload : List (String × Json)} {route : RouteDecision}
    (h : PaysWhatItOwes log) (howing : owing log = none) :
    Pays (compute payload route) (fun _ _ => True) log := by
  unfold compute
  refine Keeps.listen_bind h fun answer _ => ?_
  obtain ⟨resolvedTier, budgetState⟩ := answer
  have hlog : PaysWhatItOwes (⟨.checkBudget (pyStr (Json.get payload "agent_run_id")) route.tier,
      (resolvedTier, budgetState)⟩ :: log) := ⟨howing, h⟩
  dsimp only
  split
  · refine (pays_free (x := none) ?_ hlog ?_).mono fun _ _ _ _ => True.intro
    · exact Prog.Only.bind (Prog.Only.perform True.intro) fun _ => True.intro
    · exact (if_pos ‹budgetState = .hardBreach›).trans howing
  · have hadmitted : owing (⟨.checkBudget (pyStr (Json.get payload "agent_run_id")) route.tier,
        (resolvedTier, budgetState)⟩ :: log) = some (pyStr (Json.get payload "agent_run_id")) :=
      if_neg ‹¬ budgetState = .hardBreach›
    split
    · exact pays_ask True.intro hlog hadmitted fun effective log h howing =>
        computeOn_pays h howing
    · exact computeOn_pays hlog hadmitted

theorem completeOnce_pays {payload : List (String × Json)} {route : RouteDecision}
    (h : PaysWhatItOwes log) (howing : owing log = none) :
    Pays (completeOnce payload route) (fun _ _ => True) log := by
  unfold completeOnce getOrComputeCompletion
  refine Keeps.tryCatch ?_ fun e log h => ?_
  · refine Keeps.bind (Q := fun _ _ => True) ?_ fun _ _ h _ => ⟨h, True.intro⟩
    refine pays_ask True.intro h howing fun cached log h howing => ?_
    cases cached with
    | some response => exact ⟨h, True.intro⟩
    | none =>
      refine (compute_pays h howing).bind fun response log h _ => ?_
      exact pays_ask True.intro h rfl fun _ _ h _ => ⟨h, True.intro⟩
  · cases e with
    | budgetHardBreach body => exact ⟨h, True.intro⟩
    | _ => exact h

/-- A request pays what it owes. -/
theorem handleCompletion_pays (G : GatewaySettings) (payload : List (String × Json)) :
    Pays (handleCompletion G payload) (fun _ _ => True) [] := by
  have hnil : PaysWhatItOwes [] := True.intro
  have hscreened : ∀ (route : RouteDecision) log, PaysWhatItOwes log → owing log = none →
      Pays (screened G payload route) (fun _ _ => True) log := by
    intro route log h howing
    unfold screened
    split
    · exact h
    · refine (pays_free (scanRequest_free _ _ _) h howing).bind fun matched log h howing => ?_
      cases matched with
      | none => exact completeOnce_pays h howing
      | some patternId =>
        exact pays_ask True.intro h howing fun _ _ h _ => ⟨h, True.intro⟩
  unfold handleCompletion
  split
  · exact ⟨hnil, True.intro⟩
  split
  · exact ⟨hnil, True.intro⟩
  unfold routed
  split
  · exact ⟨hnil, True.intro⟩
  · refine Keeps.bind (Q := fun _ log => owing log = none) ?_ fun route log h howing => ?_
    · refine pays_free (Prog.Only.tryCatch (Prog.Only.bind (Prog.Only.perform True.intro)
        fun _ => True.intro) fun e => ?_) hnil rfl
      cases e <;> exact True.intro
    cases route with
    | none => exact ⟨h, True.intro⟩
    | some route => exact hscreened route log h howing

/-- What is owed was admitted. -/
theorem admitted_of_owing {agentRunId : String} (h : owing log = some agentRunId) :
    ∃ tier answer, answer.2 ≠ .hardBreach ∧
      (⟨.checkBudget agentRunId tier, answer⟩ : (o : GatewayOp) × o.Res) ∈ log := by
  induction log with
  | nil => cases h
  | cons entry log ih =>
    have hrest : owing log = some agentRunId → ∃ tier answer, answer.2 ≠ .hardBreach ∧
        (⟨.checkBudget agentRunId tier, answer⟩ : (o : GatewayOp) × o.Res) ∈ entry :: log := by
      intro h
      obtain ⟨tier, answer, hadmitted, hmem⟩ := ih h
      exact ⟨tier, answer, hadmitted, List.mem_cons_of_mem _ hmem⟩
    obtain ⟨o, answer⟩ := entry
    cases o with
    | checkBudget run tier =>
      unfold owing at h
      split at h
      · exact hrest h
      · obtain rfl := Option.some.inj h
        exact ⟨tier, answer, ‹_›, List.mem_cons_self⟩
    | recordCosts => cases h
    | _ => exact hrest h

end Walk

/-! ## In flight -/

/-- The call is in the middle of its routine. -/
def live (c : MeterConfig) (i : Nat) : Bool :=
  match c.thread i with
  | some (_, some (.op _ _)) => true
  | _ => false

/-- It owes the cost of a completion of this agent. -/
def owes (M : BudgetDay) (agentName : String) (log : GatewayLog) : Bool :=
  (owing log).any fun agentRunId => M.agentName agentRunId == agentName

/-- The completions of the agent that were admitted, and whose cost may still be recorded. -/
def inFlight (M : BudgetDay) (agentName : String) (c : MeterConfig) : Nat :=
  c.shared.tally fun i => live c i && owes M agentName (c.shared.heard i)

/-- The spend of the agent that is recorded. -/
def recordedSpend (M : BudgetDay) (agentName : String) (c : MeterConfig) : Int :=
  M.dailySpend c.shared.cur.rows agentName

/-- No cost is larger than `cap`. -/
def CostsAtMost (M : BudgetDay) (cap : Nat) (c : MeterConfig) : MeterAct → Prop
  | .step i _ => ∀ r run provider usd inputTokens outputTokens k, c.thread i =
      some (r, some (.op (.recordCosts run provider usd inputTokens outputTokens) k)) →
    M.amountOf usd ≤ cap
  | _ => True

/-- A completion of the agent is admitted while fewer than `n` are in flight. -/
def InFlightBelow (M : BudgetDay) (agentName : String) (n : Nat) (c : MeterConfig) :
    MeterAct → Prop
  | .step i _ => ∀ r run tier k, c.thread i = some (r, some (.op (.checkBudget run tier) k)) →
    M.agentName run = agentName → recordedSpend M agentName c < M.policy.dailyUsdLimit agentName →
      inFlight M agentName c < n
  | _ => True

/-- Every call of the provider is one whose own check found the recorded spend under the limit. -/
def StartedUnderLimit (M : BudgetDay) (c : MeterConfig) : Prop :=
  ∀ later e earlier, c.shared.log = later ++ e :: earlier →
    (∃ providerModel messages maxTokens temperature tools,
      e.op = .complete providerModel messages maxTokens temperature tools) →
    ∃ e' ∈ earlier, e'.who = e.who ∧ ∃ run tier, e'.op = .checkBudget run tier ∧
      M.dailySpend e'.pre.rows (M.agentName run) < M.policy.dailyUsdLimit (M.agentName run)

/-- A statement of the handler, by whom, and over which rows. -/
abbrev GatewayEvent := Event GatewayOp GatewayOp.Res Meter Nat

/-- An admission was made under the limit. -/
def UnderLimit (M : BudgetDay) : GatewayEvent → Prop
  | ⟨_, .checkBudget run _, answer, pre⟩ => answer.2 ≠ .hardBreach →
    M.dailySpend pre.rows (M.agentName run) < M.policy.dailyUsdLimit (M.agentName run)
  | _ => True

structure Bounded (M : BudgetDay) (agentName : String) (cap n : Nat) (c : MeterConfig) : Prop where
  nodup : (c.shared.arrived.map Prod.fst).Nodup
  arrived : ∀ i r p, c.thread i = some (r, p) → i ∈ c.shared.arrived.map Prod.fst
  spend : recordedSpend M agentName c + cap * inFlight M agentName c ≤
    M.policy.dailyUsdLimit agentName + cap * n
  admitted : ∀ e ∈ c.shared.log, UnderLimit M e
  started : StartedUnderLimit M c

section Bounded

variable {M : BudgetDay} {agentName : String} {cap n : Nat} {c : MeterConfig} {i : Nat}
  {r : List (String × Json)} {p q : Option (GatewayM (Nat × Json))}

/-- The rows of one more cost. -/
theorem dailySpend_cons {row : UsdRow} {rows : List UsdRow} :
    M.dailySpend (row :: rows) agentName = M.dailySpend rows agentName ∨
      (M.agentName row.agentRunId = agentName ∧
        M.dailySpend (row :: rows) agentName = row.amount + M.dailySpend rows agentName) := by
  unfold BudgetDay.dailySpend
  rw [List.filter_cons]
  split
  · next h =>
    rw [Bool.and_eq_true, beq_iff_eq] at h
    exact .inr ⟨h.1, by rw [List.map_cons, List.sum_cons]⟩
  · exact .inl rfl

/-- With fewer in flight and no more recorded, the bound stands. -/
theorem bound_of_le {spend spend' limit : Int} {flight flight' : Nat}
    (h : spend + cap * flight ≤ limit + cap * n) (hspend : spend' ≤ spend)
    (hflight : flight' ≤ flight) : spend' + cap * flight' ≤ limit + cap * n := by
  have hmul : (cap : Int) * flight' ≤ cap * flight :=
    Int.mul_le_mul_of_nonneg_left (by exact_mod_cast hflight) (Int.natCast_nonneg cap)
  omega

/-- One completion less is in flight, and at most its cost more is recorded. -/
theorem bound_of_recorded {spend spend' limit : Int} {flight flight' : Nat}
    (h : spend + cap * flight ≤ limit + cap * n) (hspend : spend' ≤ spend + cap)
    (hflight : flight' + 1 ≤ flight) : spend' + cap * flight' ≤ limit + cap * n := by
  have hmul : (cap : Int) * (flight' + 1) ≤ cap * flight :=
    Int.mul_le_mul_of_nonneg_left (by exact_mod_cast hflight) (Int.natCast_nonneg cap)
  rw [Int.mul_add, Int.mul_one] at hmul
  omega

/-- Under the limit, one completion more is admitted. -/
theorem bound_of_admitted {spend limit : Int} {flight' : Nat} (hspend : spend < limit)
    (hflight : flight' ≤ n) : spend + cap * flight' ≤ limit + cap * n := by
  have hmul : (cap : Int) * flight' ≤ cap * n :=
    Int.mul_le_mul_of_nonneg_left (by exact_mod_cast hflight) (Int.natCast_nonneg cap)
  omega

theorem live_put_of_ne {s : History GatewayOp GatewayOp.Res Meter Nat (List (String × Json))}
    {j : Nat} (h : j ≠ i) : live (c.put s i r q) j = live c j := by
  unfold live Config.put
  dsimp only
  rw [Function.update_of_ne h]

/-- A thread goes on from where it is running, or dies. -/
theorem Bounded.put (hB : Bounded M agentName cap n c) (hi : c.thread i = some (r, p))
    (hq : ∀ q', q = some q' → live c i = true) : Bounded M agentName cap n (c.put c.shared i r q) := by
  have hflight : inFlight M agentName (c.put c.shared i r q) ≤ inFlight M agentName c := by
    unfold inFlight
    refine History.tally_le rfl fun j hj => ?_
    rw [Bool.and_eq_true] at hj ⊢
    refine ⟨?_, hj.2⟩
    by_cases hji : j = i
    · subst hji
      cases q with
      | none => simp [live, Config.put] at hj
      | some q' => exact hq q' rfl
    · rw [← live_put_of_ne hji]
      exact hj.1
  refine ⟨hB.nodup, fun j r' p' hj => ?_, bound_of_le hB.spend (Int.le_refl _) hflight,
    hB.admitted, hB.started⟩
  rcases Config.put_thread.1 hj with ⟨rfl, -, -⟩ | ⟨-, hj⟩
  · exact hB.arrived j _ _ hi
  · exact hB.arrived j r' p' hj

variable {o : GatewayOp} {k : Except GatewayExc o.Res → GatewayM (Nat × Json)} {a b : o.Res}
  {s : Meter} {p' : GatewayM (Nat × Json)}

/-- Among the completions in flight, a statement of thread `i` concerns `i` only. -/
theorem flight_of_ne {j : Nat} (hji : j ≠ i)
    (hj : (live (c.put (c.shared.after i o b s) i r (some p')) j &&
      owes M agentName ((c.put (c.shared.after i o b s) i r (some p')).shared.heard j)) = true) :
    (live c j && owes M agentName (c.shared.heard j)) = true := by
  rw [live_put_of_ne hji, Config.put_shared, History.heard_after, if_neg hji] at hj
  exact hj

theorem live_of_thread (hi : c.thread i = some (r, some (.op o k))) : live c i = true := by
  unfold live
  rw [hi]

/-- The count after a statement of a thread that owes no more than before. -/
theorem flight_le (hi : c.thread i = some (r, some (.op o k)))
    (howes : owes M agentName (⟨o, b⟩ :: c.shared.heard i) = true →
      owes M agentName (c.shared.heard i) = true) :
    inFlight M agentName (c.put (c.shared.after i o b s) i r (some p')) ≤
      inFlight M agentName c := by
  unfold inFlight
  refine History.tally_le rfl fun j hj => ?_
  by_cases hji : j = i
  · subst hji
    rw [Bool.and_eq_true, Config.put_shared, History.heard_after, if_pos rfl] at hj
    rw [Bool.and_eq_true]
    exact ⟨live_of_thread hi, howes hj.2⟩
  · exact flight_of_ne hji hj

/-- After a statement that records the debt of its thread, one less is in flight. -/
theorem flight_drop (hB : Bounded M agentName cap n c)
    (hi : c.thread i = some (r, some (.op o k)))
    (howed : owes M agentName (c.shared.heard i) = true)
    (hpaid : owes M agentName (⟨o, b⟩ :: c.shared.heard i) = false) :
    inFlight M agentName (c.put (c.shared.after i o b s) i r (some p')) + 1 ≤
      inFlight M agentName c := by
  unfold inFlight
  have hi' : (live (c.put (c.shared.after i o b s) i r (some p')) i &&
      owes M agentName ((c.put (c.shared.after i o b s) i r (some p')).shared.heard i)) = false := by
    rw [Config.put_shared, History.heard_after, if_pos rfl, hpaid, Bool.and_false]
  refine History.succ_tally_le (i := i) rfl hB.nodup (hB.arrived i r _ hi) hi' ?_ fun j hj => ?_
  · rw [live_of_thread hi, howed]
    rfl
  · by_cases hji : j = i
    · subst hji
      rw [hi'] at hj
      cases hj
    · exact flight_of_ne hji hj

/-- After any statement, at most one more is in flight. -/
theorem flight_succ (hB : Bounded M agentName cap n c) :
    inFlight M agentName (c.put (c.shared.after i o b s) i r (some p')) ≤
      inFlight M agentName c + 1 := by
  unfold inFlight
  exact History.tally_le_succ (i := i) rfl hB.nodup fun j hji hj => flight_of_ne hji hj

/-- The answers of the budget are those of the recorded spend. -/
theorem underLimit_of_exec (hx : M.exec o a c.shared.cur = some (b, s)) :
    UnderLimit M ⟨i, o, b, c.shared.cur⟩ := by
  cases o with
  | checkBudget run tier =>
    obtain ⟨rfl, -⟩ := Prod.mk.inj (Option.some.inj hx)
    exact spend_lt_of_admitted
  | _ => exact True.intro

/-- The bound after a statement that meets the conditions. -/
theorem Bounded.spend_after {f : ∀ o : GatewayOp, Reply GatewayExc o.Res}
    (hcost : CostsAtMost M cap c (.step i f)) (hbelow : InFlightBelow M agentName n c (.step i f))
    (hB : Bounded M agentName cap n c) (hi : c.thread i = some (r, some (.op o k)))
    (hx : M.exec o a c.shared.cur = some (b, s))
    (hpays : PaysWhatItOwes (⟨o, b⟩ :: c.shared.heard i)) :
    recordedSpend M agentName (c.put (c.shared.after i o b s) i r (some p')) +
        cap * inFlight M agentName (c.put (c.shared.after i o b s) i r (some p')) ≤
      M.policy.dailyUsdLimit agentName + cap * n := by
  cases o with
  | checkBudget run tier =>
    obtain ⟨rfl, rfl⟩ := Prod.mk.inj (Option.some.inj hx)
    have hclean : owes M agentName (c.shared.heard i) = false := by
      unfold owes
      rw [hpays.1]
      rfl
    by_cases howes : owes M agentName (⟨.checkBudget run tier, checkAndApplyBudget M.policy
        (M.agentName run) (M.dailySpend c.shared.cur.rows (M.agentName run)) tier⟩ ::
          c.shared.heard i) = true
    · -- an admission of this agent: the spend is under the limit, and there is room
      have hlt : M.dailySpend c.shared.cur.rows (M.agentName run) <
          M.policy.dailyUsdLimit (M.agentName run) ∧ M.agentName run = agentName := by
        unfold owes owing at howes
        split at howes
        · unfold owes at hclean
          rw [hclean] at howes
          cases howes
        · exact ⟨spend_lt_of_admitted ‹_›, by simpa using howes⟩
      obtain ⟨hlt, rfl⟩ := hlt
      have hroom := hbelow r run tier k hi rfl hlt
      exact bound_of_admitted hlt ((flight_succ hB).trans hroom)
    · exact bound_of_le hB.spend (Int.le_refl _) (flight_le hi fun h => absurd h howes)
  | recordCosts run provider usd inputTokens outputTokens =>
    obtain ⟨rfl, rfl⟩ := Prod.mk.inj (Option.some.inj hx)
    have hle := hcost r run provider usd inputTokens outputTokens k hi
    have hpaid : owes M agentName (⟨.recordCosts run provider usd inputTokens outputTokens, a⟩ ::
        c.shared.heard i) = false := rfl
    have hcons : M.dailySpend (⟨run, M.amountOf usd, c.shared.cur.now⟩ :: c.shared.cur.rows)
        agentName = recordedSpend M agentName c ∨ (M.agentName run = agentName ∧
          M.dailySpend (⟨run, M.amountOf usd, c.shared.cur.now⟩ :: c.shared.cur.rows) agentName =
            M.amountOf usd + recordedSpend M agentName c) := dailySpend_cons
    rcases hcons with hsame | ⟨hname, hmore⟩
    · exact bound_of_le hB.spend hsame.le (flight_le hi fun h => by rw [hpaid] at h; cases h)
    · have howed : owes M agentName (c.shared.heard i) = true := by
        unfold owes
        rw [hpays.1, Option.any_some, beq_iff_eq]
        exact hname
      have hspend : M.dailySpend (⟨run, M.amountOf usd, c.shared.cur.now⟩ :: c.shared.cur.rows)
          agentName ≤ recordedSpend M agentName c + cap := by
        rw [hmore]
        omega
      exact bound_of_recorded hB.spend hspend (flight_drop hB hi howed hpaid)
  | _ =>
    obtain ⟨rfl, rfl⟩ := Prod.mk.inj (Option.some.inj hx)
    exact bound_of_le hB.spend (Int.le_refl _) (flight_le hi fun h => h)

/-- A call of the provider comes after an admission of its own. -/
theorem started_after (hB : Bounded M agentName cap n c)
    (hpays : PaysWhatItOwes (⟨o, b⟩ :: c.shared.heard i)) :
    StartedUnderLimit M (c.put (c.shared.after i o b s) i r q) := by
  intro later e earlier heq hcall
  cases later with
  | nil =>
    obtain ⟨rfl, rfl⟩ := List.cons.inj heq
    obtain ⟨providerModel, messages, maxTokens, temperature, tools, rfl⟩ := hcall
    obtain ⟨run, howing⟩ := Option.ne_none_iff_exists'.1 hpays.1
    obtain ⟨tier, answer, hadmitted, hmem⟩ := admitted_of_owing howing
    obtain ⟨pre, hmem⟩ := History.mem_heard.1 hmem
    exact ⟨_, hmem, rfl, run, tier, rfl, hB.admitted _ hmem hadmitted⟩
  | cons x later =>
    obtain ⟨-, htail⟩ := List.cons.inj heq
    exact hB.started later e earlier htail hcall

end Bounded

/-- In every run in which a completion of the agent is admitted with fewer than `n` in flight, the
    recorded spend exceeds the limit by at most `n` costs, and every call of the provider was
    admitted under the limit. -/
theorem daily_spend_bounded {M : BudgetDay} {agentName : String} {cap n : Nat} {w₀ : Meter}
    {c : MeterConfig} (hw : M.dailySpend w₀.rows agentName ≤ M.policy.dailyUsdLimit agentName)
    (hr : (metered M).Reach (fun c a => CostsAtMost M cap c a ∧ InFlightBelow M agentName n c a)
      (.idle ⟨w₀, [], []⟩) c) :
    recordedSpend M agentName c ≤ M.policy.dailyUsdLimit agentName + cap * n ∧
      StartedUnderLimit M c := by
  have h₀ : Bounded M agentName cap n (.idle ⟨w₀, [], []⟩) := by
    refine ⟨List.nodup_nil, by rintro i r p ⟨⟩, ?_, by rintro e ⟨⟩,
      fun later e earlier heq => ?_⟩
    · have hzero : recordedSpend M agentName (.idle ⟨w₀, [], []⟩) = M.dailySpend w₀.rows agentName :=
        rfl
      have hnone : inFlight M agentName (.idle ⟨w₀, [], []⟩) = 0 := rfl
      rw [hzero, hnone]
      have hpos : (0 : Int) ≤ cap * n :=
        Int.mul_nonneg (Int.natCast_nonneg cap) (Int.natCast_nonneg n)
      omega
    · simp [Config.idle] at heq
  have hB : Bounded M agentName cap n c := by
    refine Sys.Reach.sound_own (A := fun _ _ => True)
      (fun payload => handleCompletion_pays M.settings payload) h₀ ?_ ?_ ?_ ?_ ?_ ?_ hr
    · intro c i r _ hB hi hnil hfresh
      have hflight : inFlight M agentName (c.put { c.shared with arrived := (i, r) ::
          c.shared.arrived } i r (some (handleCompletion M.settings r))) ≤
            inFlight M agentName c := by
        have hclean : owes M agentName (c.shared.heard i) = false := by
          rw [hnil]
          rfl
        unfold inFlight
        refine History.tally_enter rfl (Bool.and_eq_false_imp.2 fun _ => hclean) fun j hj => ?_
        by_cases hji : j = i
        · rw [Bool.and_eq_true] at hj
          have howes : owes M agentName (c.shared.heard j) = true := hj.2
          rw [hji, hclean] at howes
          cases howes
        · rw [live_put_of_ne hji] at hj
          exact hj
      refine ⟨List.nodup_cons.2 ⟨hfresh, hB.nodup⟩, fun j r' p hj => ?_,
        bound_of_le hB.spend (Int.le_refl _) hflight, hB.admitted, hB.started⟩
      rcases Config.put_thread.1 hj with ⟨rfl, -, -⟩ | ⟨-, hj⟩
      · exact List.mem_cons_self
      · exact List.mem_cons_of_mem _ (hB.arrived j r' p hj)
    · exact fun c i r o k e hB hi => hB.put hi fun _ _ => live_of_thread hi
    · exact fun c i r p hB hi => hB.put hi (by rintro _ ⟨⟩)
    · exact fun _ _ _ _ _ _ _ _ _ _ _ => True.intro
    · intro c i f r o k out a b s hok _ hB hi hx hpays
      refine ⟨hB.nodup, fun j r' p hj => ?_, hB.spend_after hok.1 hok.2 hi hx hpays,
        fun e he => ?_, started_after hB hpays⟩
      · rcases Config.put_thread.1 hj with ⟨rfl, -, -⟩ | ⟨-, hj⟩
        · exact hB.arrived j _ _ hi
        · exact hB.arrived j r' p hj
      · rcases List.mem_cons.1 he with rfl | he
        · exact underLimit_of_exec hx
        · exact hB.admitted e he
    · intro c e s _ hB hs
      obtain rfl := Option.some.inj hs
      exact ⟨hB.nodup, hB.arrived, hB.spend, hB.admitted, hB.started⟩
  refine ⟨?_, hB.started⟩
  have hflight : (0 : Int) ≤ cap * inFlight M agentName c :=
    Int.mul_nonneg (Int.natCast_nonneg cap) (Int.natCast_nonneg _)
  have hspend := hB.spend
  omega

/-! ## Three at once -/

/-- What the collaborators answer: a provider whose answers cost fifteen dollars. -/
def dearAnswer : (o : GatewayOp) → o.Res
  | .search _ _ => false
  | .resolve model => ⟨model, model, "anthropic", "claude-opus"⟩
  | .resolveByTier tier => ⟨tier, tier, "anthropic", "claude-" ++ tier⟩
  | .insertGateDecision _ _ _ _ => "gate-1"
  | .cached _ => none
  | .remember _ _ | .getProvider _ => ()
  | .checkBudget _ tier => (tier, .ok)
  | .complete _ _ _ _ _ => ⟨"text", 1000000, 1000000, none⟩
  | .estimateUsd _ _ _ => "15.0"
  | .recordCosts _ _ _ _ _ => "cost-1"
  | .uuid4 => "0"

/-- A day under the default limit of twenty dollars. -/
def ordinaryDay : BudgetDay where
  settings := ⟨false, [], "", fun _ => none⟩
  policy := ⟨fun _ => 20000000, fun _ => 16000000, id⟩
  agentName _ := "copywriter"
  amountOf usd := if usd = "15.0" then 15000000 else 0
  dayStart := 0

def dearRequest : List (String × Json) :=
  [("model", .str "opus"), ("agent_run_id", .str "run-1"),
    ("messages", .arr [.obj [("role", .str "user"), ("content", .str "write")]])]

/-- So many requests arrive, and their threads take their next statements in this order. -/
def dearRun (requests : Nat) (order : List Nat) : List MeterAct :=
  (List.range requests).map (fun i => .enter i dearRequest) ++
    order.map fun i => .step i fun o => .ok (dearAnswer o)

/-- The configuration it comes to. -/
def dearConfig (acts : List MeterAct) : MeterConfig :=
  acts.foldl (metered ordinaryDay).exec (.idle ⟨⟨[], 0⟩, [], []⟩)

theorem ordinaryDay_costs (c : MeterConfig) (a : MeterAct) :
    CostsAtMost ordinaryDay 15000000 c a := by
  cases a with
  | step i f =>
    intro r run provider usd inputTokens outputTokens k _
    show (if usd = "15.0" then (15000000 : Int) else 0) ≤ (15000000 : Nat)
    split <;> decide
  | _ => exact True.intro

theorem inFlightBelow_of_lt {M : BudgetDay} {agentName : String} {n : Nat} {c : MeterConfig}
    (h : inFlight M agentName c < n) (a : MeterAct) : InFlightBelow M agentName n c a := by
  cases a with
  | step i f => exact fun _ _ _ _ _ _ _ => h
  | _ => exact True.intro

/-- Two are admitted together, and both are recorded. -/
def twoAtOnce : List MeterAct := dearRun 2 [0, 1, 0, 1, 0, 1, 0, 1, 0, 1, 0, 1, 0, 1]

theorem twoAtOnce_bounded :
    recordedSpend ordinaryDay "copywriter" (dearConfig twoAtOnce) ≤ 20000000 + 15000000 * 3 ∧
      StartedUnderLimit ordinaryDay (dearConfig twoAtOnce) := by
  have hroom : ∀ m : Fin twoAtOnce.length,
      inFlight ordinaryDay "copywriter" (dearConfig (twoAtOnce.take m)) < 3 := by decide +kernel
  exact daily_spend_bounded (M := ordinaryDay) (n := 3) (by decide)
    (Sys.Reach.init.foldl twoAtOnce fun m => ⟨ordinaryDay_costs _ _, inFlightBelow_of_lt (hroom m) _⟩)

/-- Three are admitted before one of them is recorded. -/
def threeAtOnce : List MeterAct :=
  dearRun 3 [0, 0, 0, 1, 1, 1, 2, 2, 2, 0, 0, 0, 0, 1, 1, 1, 1, 2, 2, 2, 2]

theorem spend_runs_over : ¬ ∀ (M : BudgetDay) (agentName : String) (cap : Nat) (w₀ : Meter)
    (c : MeterConfig), M.dailySpend w₀.rows agentName ≤ M.policy.dailyUsdLimit agentName →
      (metered M).Reach (CostsAtMost M cap) (.idle ⟨w₀, [], []⟩) c →
        recordedSpend M agentName c ≤ M.policy.dailyUsdLimit agentName + cap := by
  intro h
  have hspend := h ordinaryDay "copywriter" 15000000 ⟨[], 0⟩ (dearConfig threeAtOnce) (by decide)
    (Sys.Reach.init.foldl threeAtOnce fun m => ordinaryDay_costs _ _)
  revert hspend
  decide +kernel

end CanvasOS.Gateway
