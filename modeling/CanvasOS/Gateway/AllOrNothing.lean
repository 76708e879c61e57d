/-
  The metering of a completion (`metering.py`, `insert_costs_rows` in `db.py`, `_compute` in
  `completion.py`).

  1. `insertCostsRows` — three INSERTs, each committed by itself.
  2. `meterCall` — `_compute` with the meter inside: the call of the meter in `Gateway.Completion`
     is what `record_completion_costs` does.
  3. `Metered` — the cut points: how far the INSERTs of a completion can have got, and the id that
     its response then carries.
  4. `allOrNothing_iff` — a completion is metered all or nothing exactly when no INSERT of it fails,
     or the first one does and is not committed.
-/
import CanvasOS.Lib.Replies
import CanvasOS.Gateway.Completion

namespace CanvasOS.Gateway

open Interleave Python

/-! ## The meter -/

/-- The values of `INSERT_COST_SQL`, the amount as it is written. -/
structure NewCost where
  agentRunId : String
  provider : String
  unit : String
  amount : String
deriving DecidableEq

/-- A statement of the meter, or a step of the handler. -/
inductive MeterOp where
  | gateway (o : GatewayOp)
  /-- the INSERT and its COMMIT; it returns the id -/
  | insertCost (row : NewCost)

abbrev MeterOp.Res : MeterOp → Type
  | .gateway o => o.Res
  | .insertCost _ => String

abbrev MeterM (α : Type) := Prog MeterOp MeterOp.Res GatewayExc α

def insertCost (row : NewCost) : MeterM String := Prog.perform (MeterOp.insertCost row)

/-- `insert_costs_rows` -/
def insertCostsRows (agentRunId provider usd tokens ms : String) : MeterM String := do
  let usdRow ← insertCost ⟨agentRunId, provider, "usd", usd⟩
  let _ ← insertCost ⟨agentRunId, provider, "tokens", tokens⟩
  let _ ← insertCost ⟨agentRunId, provider, "ms", ms⟩
  pure usdRow

/-- `record_completion_costs` -/
def recordCompletionCosts (agentRunId provider usd : String) (inputTokens outputTokens : Int)
    (latencyMs : String) : MeterM String :=
  insertCostsRows agentRunId provider usd (toString (inputTokens + outputTokens)) latencyMs

/-- What the steps of the handler do: the meter inserts, the others are what they were. -/
def meterCall (latencyMs : String) : (o : GatewayOp) → MeterM o.Res
  | .recordCosts agentRunId provider usd inputTokens outputTokens =>
    recordCompletionCosts agentRunId provider usd inputTokens outputTokens latencyMs
  | o => Prog.perform (MeterOp.gateway o)

/-- A completion that is computed: the request, its route, and how long the provider takes. -/
structure Computed where
  payload : List (String × Json)
  route : RouteDecision
  latencyMs : String

/-- `_compute`, down to the INSERTs. -/
def computeMetered (r : Computed) : MeterM (List (String × Json)) :=
  (compute r.payload r.route).expand (meterCall r.latencyMs)

/-! ## The table -/

/-- A row of `costs`, with the completion that wrote it, if it was one. -/
structure CostRow where
  writer : Option Nat
  id : String
  cost : NewCost
deriving DecidableEq

/-- An INSERT under an id that is new. -/
def insertRow (writer : Option Nat) (id : String) (cost : NewCost) (rows : List CostRow) :
    Option (List CostRow) :=
  if id ∈ rows.map CostRow.id then none else some (⟨writer, id, cost⟩ :: rows)

/-- One statement of completion `i`. -/
def execMeter (i : Nat) : (o : MeterOp) → o.Res → List CostRow → Option (o.Res × List CostRow)
  | .gateway _, answer, rows => some (answer, rows)
  | .insertCost cost, id, rows => (insertRow (some i) id cost rows).map fun rows => (id, rows)

/-- Any number of completions at once; others insert rows as well. -/
def costTable : Sys MeterOp MeterOp.Res GatewayExc (List CostRow) Nat Computed
    (List (String × Json)) (String × NewCost) where
  body := computeMetered
  enter _ _ rows := some rows
  run := execMeter
  env e rows := insertRow none e.1 e.2 rows

abbrev CostState := Config MeterOp MeterOp.Res GatewayExc (List CostRow) Nat Computed
  (List (String × Json))

abbrev CostAct := Act MeterOp MeterOp.Res GatewayExc Nat Computed (String × NewCost)

def CostState.start : CostState := .idle []

def CostState.after (acts : List CostAct) : CostState := acts.foldl costTable.exec CostState.start

/-- The rows of completion `i`, newest first. -/
def rowsOf (rows : List CostRow) (i : Nat) : List CostRow :=
  rows.filter fun row => row.writer = some i

/-- The INSERT among the statements. -/
def insertOf : ((o : MeterOp) × Reply GatewayExc (MeterOp.Res o)) →
    Option (NewCost × Reply GatewayExc String)
  | ⟨.insertCost cost, reply⟩ => some (cost, reply)
  | ⟨.gateway _, _⟩ => none

/-- The INSERTs of completion `i` in a run, with the replies to them, the oldest first. -/
def insertsOf (i : Nat) (acts : List CostAct) : List (NewCost × Reply GatewayExc String) :=
  (costTable.replies i CostState.start acts).filterMap insertOf

/-! ## What is promised -/

/-- Three rows of the run and the id of the one in dollars, or no row and no id. -/
def AllOrNothing (agentRunId : String) (rows : List CostRow) (costId : Option Json) : Prop :=
  (∃ usd tokens ms, rows = [ms, tokens, usd] ∧
      [usd, tokens, ms].map (fun row => row.cost.unit) = ["usd", "tokens", "ms"] ∧
      (∀ row ∈ rows, row.cost.agentRunId = agentRunId) ∧ costId = some (.str usd.id)) ∨
    (rows = [] ∧ costId = none)

/-- No INSERT fails, or the first does, without being committed. -/
def Undivided (inserts : List (NewCost × Reply GatewayExc String)) : Prop :=
  (∀ x ∈ inserts, x.2.answers = true) ∨ ∃ cost e rest, inserts = (cost, .failed e) :: rest

/-! ## The cut points -/

/-- How far the INSERTs of the given rows can have got, and the id that the meter then returns. -/
inductive Metered (usd tokens ms : NewCost) :
    List (NewCost × Reply GatewayExc String) → Option String → Prop where
  | whole (u t m : String) :
      Metered usd tokens ms [(usd, .ok u), (tokens, .ok t), (ms, .ok m)] (some u)
  | first {r : Reply GatewayExc String} (hr : r.answers = false) :
      Metered usd tokens ms [(usd, r)] none
  | second (u : String) {r : Reply GatewayExc String} (hr : r.answers = false) :
      Metered usd tokens ms [(usd, .ok u), (tokens, r)] none
  | third (u t : String) {r : Reply GatewayExc String} (hr : r.answers = false) :
      Metered usd tokens ms [(usd, .ok u), (tokens, .ok t), (ms, r)] none

section Ran

variable {l : Replies MeterOp MeterOp.Res GatewayExc}

theorem eq_ok_of_out {r : Reply GatewayExc String} {id : String} (h : r.out = .ok id) :
    r = .ok id := by
  cases r with
  | ok a => rw [Except.ok.inj h]
  | failed e => cases h
  | lost a e => cases h

theorem not_answers_of_out {r : Reply GatewayExc String} {e : GatewayExc} (h : r.out = .error e) :
    r.answers = false := by
  cases r with
  | ok a => cases h
  | failed e => rfl
  | lost a e => rfl

/-- One INSERT and what follows. -/
theorem ran_insertCost_bind {cost : NewCost} {f : String → MeterM String}
    {out : Except GatewayExc String} (h : Ran ((insertCost cost).bind f) l out) :
    (∃ id l', l = ⟨.insertCost cost, .ok id⟩ :: l' ∧ Ran (f id) l' out) ∨
      ∃ r e, l = [⟨.insertCost cost, r⟩] ∧ r.answers = false ∧ out = .error e := by
  rcases h.of_bind with ⟨id, l₁, l₂, rfl, h₁, h₂⟩ | ⟨e, rfl, h₁⟩
  · obtain ⟨r, rfl, hr⟩ := h₁.of_perform
    rw [eq_ok_of_out hr.symm]
    exact .inl ⟨id, l₂, rfl, h₂⟩
  · obtain ⟨r, rfl, hr⟩ := h₁.of_perform
    exact .inr ⟨r, e, rfl, not_answers_of_out hr.symm, rfl⟩

/-- The meter returns the id of the row in dollars, or it was cut. -/
theorem ran_insertCostsRows {agentRunId provider usd tokens ms : String}
    {out : Except GatewayExc String}
    (h : Ran (insertCostsRows agentRunId provider usd tokens ms) l out) :
    Metered ⟨agentRunId, provider, "usd", usd⟩ ⟨agentRunId, provider, "tokens", tokens⟩
      ⟨agentRunId, provider, "ms", ms⟩ (l.filterMap insertOf) out.toOption := by
  rcases ran_insertCost_bind h with ⟨u, l₁, rfl, h₁⟩ | ⟨r, e, rfl, hr, rfl⟩
  · rcases ran_insertCost_bind h₁ with ⟨t, l₂, rfl, h₂⟩ | ⟨r, e, rfl, hr, rfl⟩
    · rcases ran_insertCost_bind h₂ with ⟨m, l₃, rfl, h₃⟩ | ⟨r, e, rfl, hr, rfl⟩
      · obtain ⟨rfl, rfl⟩ := h₃.of_pure
        exact .whole u t m
      · exact .third u t hr
    · exact .second u hr
  · exact .first hr

/-- A step of the handler that is not the meter inserts nothing. -/
theorem inserts_of_gateway {o : GatewayOp} {out : Except GatewayExc o.Res}
    (h : Ran (Prog.perform (MeterOp.gateway o) : MeterM o.Res) l out) :
    l.filterMap insertOf = [] := by
  obtain ⟨r, rfl, -⟩ := h.of_perform
  rfl

end Ran

/-- What can be said of the response of a completion and its INSERTs. -/
def Accounted (r : Computed) (l : Replies MeterOp MeterOp.Res GatewayExc)
    (response : List (String × Json)) : Prop :=
  ∃ provider usd tokens costId,
    Metered ⟨pyStr (Json.get r.payload "agent_run_id"), provider, "usd", usd⟩
      ⟨pyStr (Json.get r.payload "agent_run_id"), provider, "tokens", tokens⟩
      ⟨pyStr (Json.get r.payload "agent_run_id"), provider, "ms", r.latencyMs⟩
      (l.filterMap insertOf) costId ∧
    Json.lookup response "cost_id" = costId.map Json.str

theorem lookup_costId (id : String) (model agentRunId : Json) (tier : String)
    (budgetState : BudgetState) (result : ProviderResult) (costId : Option String) :
    Json.lookup (responseBody id model agentRunId tier budgetState result costId) "cost_id" =
      costId.map Json.str := by
  cases costId <;> simp [responseBody, Json.lookup]

/-- Behind the budget: the provider, the meter and the response. -/
theorem ran_computeOn {r : Computed} {effective : RouteDecision} {budgetState : BudgetState}
    {l : Replies MeterOp MeterOp.Res GatewayExc} {response : List (String × Json)}
    (h : Ran ((computeOn r.payload effective budgetState).expand (meterCall r.latencyMs)) l
      (.ok response)) : Accounted r l response := by
  simp only [computeOn, Prog.bind_eq, Prog.tryCatch_eq, Prog.pure_eq, Prog.expand_bind,
    Prog.expand_tryCatch, Prog.expand_pure, Prog.expand_perform, meterCall] at h
  obtain ⟨_, l₁, l₂, rfl, h₁, h⟩ := h.of_bind_ok
  obtain ⟨result, l₃, l₄, rfl, h₃, h⟩ := h.of_bind_ok
  obtain ⟨usd, l₅, l₆, rfl, h₅, h⟩ := h.of_bind_ok
  obtain ⟨costId, l₇, l₈, rfl, h₇, h⟩ := h.of_bind_ok
  obtain ⟨id, l₉, l₁₀, rfl, h₉, h⟩ := h.of_bind_ok
  obtain ⟨rfl, hresponse⟩ := h.of_pure
  obtain rfl := Except.ok.inj hresponse
  refine ⟨effective.provider, usd, toString (result.inputTokens + result.outputTokens), costId, ?_,
    lookup_costId _ _ _ _ _ _ _⟩
  simp only [List.filterMap_append, inserts_of_gateway h₁, inserts_of_gateway h₃,
    inserts_of_gateway h₅, inserts_of_gateway h₉, List.nil_append, List.append_nil]
  -- the meter either answered, or its failure was swallowed
  rcases h₇.of_tryCatch with ⟨_, heq, h₇⟩ | ⟨e, l₁₁, l₁₂, rfl, h₁₁, h₁₂⟩
  · obtain rfl := Except.ok.inj heq
    obtain ⟨c, l₁₁, l₁₂, rfl, h₁₁, h₁₂⟩ := h₇.of_bind_ok
    obtain ⟨rfl, hsome⟩ := h₁₂.of_pure
    rw [Except.ok.inj hsome, List.append_nil]
    exact ran_insertCostsRows h₁₁
  · obtain ⟨rfl, hnone⟩ := h₁₂.of_pure
    rw [Except.ok.inj hnone, List.append_nil]
    rcases h₁₁.of_bind with ⟨c, l₁₃, l₁₄, -, -, h₁₄⟩ | ⟨e', -, h₁₃⟩
    · exact nomatch h₁₄.of_pure.2
    · exact ran_insertCostsRows h₁₃

theorem Accounted.append {r : Computed} {l l' : Replies MeterOp MeterOp.Res GatewayExc}
    {response : List (String × Json)} (h : Accounted r l' response)
    (hl : l.filterMap insertOf = []) : Accounted r (l ++ l') response := by
  obtain ⟨provider, usd, tokens, costId, hmetered, hid⟩ := h
  refine ⟨provider, usd, tokens, costId, ?_, hid⟩
  rw [List.filterMap_append, hl]
  exact hmetered

/-- The whole of `_compute`, where it ends with a response. -/
theorem ran_computeMetered {r : Computed} {l : Replies MeterOp MeterOp.Res GatewayExc}
    {response : List (String × Json)} (h : Ran (computeMetered r) l (.ok response)) :
    Accounted r l response := by
  simp only [computeMetered, compute, Prog.bind_eq, Prog.expand_bind, Prog.expand_perform,
    meterCall] at h
  obtain ⟨⟨resolvedTier, budgetState⟩, l₁, l₂, rfl, h₁, h₂⟩ := h.of_bind_ok
  refine Accounted.append ?_ (inserts_of_gateway h₁)
  split at h₂
  · -- an exhausted budget ends in an exception
    simp only [queueForReview, Prog.bind_eq, Prog.throw_eq, Prog.expand_bind,
      Prog.expand_throw] at h₂
    obtain ⟨_, l₃, l₄, -, -, h₄⟩ := h₂.of_bind_ok
    exact nomatch h₄.of_throw.2
  · split at h₂
    · simp only [Prog.expand_bind, Prog.expand_perform, meterCall] at h₂
      obtain ⟨effective, l₃, l₄, rfl, h₃, h₄⟩ := h₂.of_bind_ok
      exact (ran_computeOn h₄).append (inserts_of_gateway h₃)
    · exact ran_computeOn h₂

/-! ## The rows of a completion -/

/-- The row that an INSERT of completion `i` leaves behind, answered or not. -/
def rowOf (i : Nat) : NewCost × Reply GatewayExc String → Option CostRow
  | (cost, .ok id) => some ⟨some i, id, cost⟩
  | (_, .failed _) => none
  | (cost, .lost id _) => some ⟨some i, id, cost⟩

/-- The rows that a list of INSERTs leaves behind, the newest first. -/
def written (i : Nat) (inserts : List (NewCost × Reply GatewayExc String)) : List CostRow :=
  (inserts.filterMap (rowOf i)).reverse

theorem insertRow_eq_some {writer : Option Nat} {id : String} {cost : NewCost}
    {rows rows' : List CostRow} (h : insertRow writer id cost rows = some rows') :
    rows' = ⟨writer, id, cost⟩ :: rows := by
  unfold insertRow at h
  split at h
  · cases h
  · exact (Option.some.inj h).symm

/-- The rows of a completion are changed by its own INSERTs alone. -/
theorem costTable_settles (i : Nat) :
    Sys.Settles costTable i (fun rows => rowsOf rows i)
      fun rows x => ((insertOf x).bind (rowOf i)).toList ++ rows where
  enter j r rows rows' h := by
    rw [Option.some.inj h]
  env e rows rows' h := by
    rw [insertRow_eq_some h]
    rfl
  other j hj o a b rows rows' h := by
    cases o with
    | gateway o =>
      obtain ⟨-, rfl⟩ := Prod.mk.inj (Option.some.inj h)
      rfl
    | insertCost cost =>
      obtain ⟨_, hrows, heq⟩ := Option.map_eq_some_iff.1 h
      obtain ⟨-, rfl⟩ := Prod.mk.inj heq
      rw [insertRow_eq_some hrows]
      exact List.filter_cons_of_neg (by simpa using hj)
  answered o a b rows rows' h := by
    cases o with
    | gateway o =>
      obtain ⟨-, rfl⟩ := Prod.mk.inj (Option.some.inj h)
      rfl
    | insertCost cost =>
      obtain ⟨_, hrows, heq⟩ := Option.map_eq_some_iff.1 h
      obtain ⟨rfl, rfl⟩ := Prod.mk.inj heq
      rw [insertRow_eq_some hrows]
      exact List.filter_cons_of_pos (by simp)
  lost o a b e rows rows' h := by
    cases o with
    | gateway o =>
      obtain ⟨-, rfl⟩ := Prod.mk.inj (Option.some.inj h)
      rfl
    | insertCost cost =>
      obtain ⟨_, hrows, heq⟩ := Option.map_eq_some_iff.1 h
      obtain ⟨rfl, rfl⟩ := Prod.mk.inj heq
      rw [insertRow_eq_some hrows]
      exact List.filter_cons_of_pos (by simp)
  failed o e rows := by
    cases o <;> rfl

theorem foldl_written (i : Nat) (l : Replies MeterOp MeterOp.Res GatewayExc) (rows : List CostRow) :
    l.foldl (fun rows x => ((insertOf x).bind (rowOf i)).toList ++ rows) rows =
      written i (l.filterMap insertOf) ++ rows := by
  induction l generalizing rows with
  | nil => rfl
  | cons x l ih =>
    rw [List.foldl_cons, ih]
    cases h : insertOf x with
    | none => simp [h]
    | some y => cases h' : rowOf i y <;> simp [h, h', written]

/-- The rows of completion `i` are those of its INSERTs that were committed. -/
theorem rowsOf_after (i : Nat) (acts : List CostAct) :
    rowsOf (CostState.after acts).shared i = written i (insertsOf i acts) := by
  have hview := Sys.view_of_replies (costTable_settles i) acts (c := CostState.start)
  have hempty : rowsOf CostState.start.shared i = [] := rfl
  rw [foldl_written, hempty, List.append_nil] at hview
  exact hview

/-! ## All or nothing -/

/-- Without an id, any row is one too many. -/
theorem not_allOrNothing {agentRunId : String} {rows : List CostRow} (h : rows ≠ []) :
    ¬ AllOrNothing agentRunId rows none := by
  rintro (⟨usd, tokens, ms, -, -, -, hid⟩ | ⟨hrows, -⟩)
  · cases hid
  · exact h hrows

/-- A failure after a committed row divides. -/
theorem not_undivided {cost : NewCost} {id : String}
    {rest : List (NewCost × Reply GatewayExc String)} {x : NewCost × Reply GatewayExc String}
    (hx : x ∈ rest) (h : x.2.answers = false) : ¬ Undivided ((cost, .ok id) :: rest) := by
  rintro (hall | ⟨_, _, _, heq⟩)
  · rw [hall x (List.mem_cons_of_mem _ hx)] at h
    cases h
  · cases heq

theorem written_ne_nil {i : Nat} {cost : NewCost} {id : String}
    {rest : List (NewCost × Reply GatewayExc String)} :
    written i ((cost, .ok id) :: rest) ≠ [] := by
  simp [written, rowOf]

/-- The cut points, one by one. -/
theorem Metered.whole_iff {usd tokens ms : NewCost} {agentRunId : String} {i : Nat}
    {inserts : List (NewCost × Reply GatewayExc String)} {costId : Option String}
    (h : Metered usd tokens ms inserts costId)
    (hunits : [usd, tokens, ms].map NewCost.unit = ["usd", "tokens", "ms"])
    (hruns : ∀ cost ∈ [usd, tokens, ms], cost.agentRunId = agentRunId) :
    AllOrNothing agentRunId (written i inserts) (costId.map Json.str) ↔ Undivided inserts := by
  cases h with
  | whole u t m =>
    refine ⟨fun _ => .inl fun x hx => ?_, fun _ => .inl ⟨⟨some i, u, usd⟩, ⟨some i, t, tokens⟩,
      ⟨some i, m, ms⟩, rfl, hunits, fun row hrow => ?_, rfl⟩⟩
    · simp only [List.mem_cons, List.mem_nil_iff, or_false] at hx
      rcases hx with rfl | rfl | rfl <;> rfl
    · simp only [written, rowOf, List.filterMap_cons, List.filterMap_nil, List.reverse_cons,
        List.reverse_nil, List.nil_append, List.cons_append, List.mem_cons, List.mem_nil_iff,
        or_false] at hrow
      rcases hrow with rfl | rfl | rfl
      · exact hruns ms (by simp)
      · exact hruns tokens (by simp)
      · exact hruns usd (by simp)
  | first hr =>
    rename_i r
    cases r with
    | ok a => cases hr
    | failed e => exact ⟨fun _ => .inr ⟨usd, e, [], rfl⟩, fun _ => .inr ⟨rfl, rfl⟩⟩
    | lost a e =>
      -- the row is there, and nobody knows its id
      refine ⟨fun hall => absurd hall (not_allOrNothing (by simp [written, rowOf])), ?_⟩
      rintro (hall | ⟨_, _, _, heq⟩)
      · cases hall _ List.mem_cons_self
      · cases heq
  | second u hr =>
    exact iff_of_false (not_allOrNothing written_ne_nil)
      (not_undivided (List.mem_singleton_self _) hr)
  | third u t hr =>
    exact iff_of_false (not_allOrNothing written_ne_nil)
      (not_undivided (List.mem_cons_of_mem _ (List.mem_singleton_self _)) hr)

/-- A completion that has a response is metered all or nothing exactly when no INSERT of it fails,
    or the first one does, without being committed: whatever else is going on. -/
theorem allOrNothing_iff {acts : List CostAct} {i : Nat} {r : Computed}
    {response : List (String × Json)}
    (h : (CostState.after acts).result i = some (r, .ok response)) :
    AllOrNothing (pyStr (Json.get r.payload "agent_run_id"))
        (rowsOf (CostState.after acts).shared i) (Json.lookup response "cost_id") ↔
      Undivided (insertsOf i acts) := by
  obtain ⟨provider, usd, tokens, costId, hmetered, hid⟩ := ran_computeMetered (Sys.ran_of_result h)
  rw [rowsOf_after, hid]
  exact hmetered.whole_iff rfl (by simp)

/-! ## Two runs -/

/-- A completion of the run `run-1`. -/
def oneCompletion : Computed :=
  ⟨[("agent_run_id", .str "run-1"), ("model", .str "sonnet")],
    ⟨"sonnet", "standard", "anthropic", "sonnet"⟩, "120.0"⟩

/-- The reply `id` to an INSERT, and an answer to everything else. -/
def replying (insert : Reply GatewayExc String) : CostAct :=
  .step 0 fun
    | .gateway (.checkBudget _ tier) => .ok ((tier, .ok) : String × BudgetState)
    | .gateway (.resolve _) | .gateway (.resolveByTier _) =>
      .ok (⟨"sonnet", "standard", "anthropic", "sonnet"⟩ : RouteDecision)
    | .gateway (.search _ _) => .ok false
    | .gateway (.insertGateDecision _ _ _ _) | .gateway .uuid4 => .ok "id"
    | .gateway (.cached _) => .ok none
    | .gateway (.remember _ _) | .gateway (.getProvider _) => .ok ()
    | .gateway (.complete _ _ _ _ _) => .ok (⟨"hello", 3, 5, none⟩ : ProviderResult)
    | .gateway (.estimateUsd _ _ _) => .ok "0.000084"
    | .gateway (.recordCosts _ _ _ _ _) => .ok "id"
    | .insertCost _ => insert

/-- The completion, with the given replies to its INSERTs. -/
def completing (inserts : List (Reply GatewayExc String)) : List CostAct :=
  .enter 0 oneCompletion :: (List.replicate 4 (replying (.ok "")) ++ inserts.map replying ++
    [replying (.ok "")])

/-- Every INSERT is answered. -/
def metering : List CostAct := completing [.ok "u", .ok "t", .ok "m"]

theorem metering_allOrNothing : ∃ r response,
    (CostState.after metering).result 0 = some (r, .ok response) ∧
    AllOrNothing (pyStr (Json.get r.payload "agent_run_id"))
      (rowsOf (CostState.after metering).shared 0) (Json.lookup response "cost_id") :=
  have hresult : (CostState.after metering).result 0 = some (oneCompletion, .ok _) := rfl
  ⟨_, _, hresult, (allOrNothing_iff hresult).2 (.inl (by decide))⟩

/-- The last INSERT fails, and the failure is swallowed. -/
def cutShort : List CostAct := completing [.ok "u", .ok "t", .failed (.collaborator "timeout")]

/-- Two rows are left, and a response without an id. -/
theorem cutShort_divided : ¬ ∀ acts i r response,
    (CostState.after acts).result i = some (r, .ok response) →
    AllOrNothing (pyStr (Json.get r.payload "agent_run_id"))
      (rowsOf (CostState.after acts).shared i) (Json.lookup response "cost_id") := by
  intro h
  obtain ⟨response, hresult, hnone⟩ : ∃ response,
      (CostState.after cutShort).result 0 = some (oneCompletion, .ok response) ∧
      Json.lookup response "cost_id" = none := ⟨_, rfl, rfl⟩
  have hall := h cutShort 0 oneCompletion response hresult
  rw [hnone] at hall
  exact not_allOrNothing (by decide +kernel) hall

end CanvasOS.Gateway
