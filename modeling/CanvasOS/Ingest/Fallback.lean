/-
  The completion of a scan, with its fallback (`_complete_ingest_with_redaction_fallback`).

  The redaction firewall may block the texts of fetched sources.  The oldest source is then dropped
  and the completion asked for again.  An attempt whose handler failed later on is repeated from the
  top, with what can be fetched then.

  1. `IngestCall` — what an attempt asks of others: the ledger of agent runs, Vault, the gateway with
     its `task_ref` cache behind the firewall.
  2. `completeIngest` — the loop; `attempt` — the agent run and the loop.
  3. `Attempts` — any number of attempts at one task, each as far as it got.
  4. `Stored` — what the cache holds after them: the answer to the content of one of their source
     lists, under the number of its sources.
  5. `fallback_faithful_iff` — an attempt gets the answer to its own sources if and only if the
     attempts before it had the same content wherever they had as many sources.
-/
import CanvasOS.Dispatch.Store
import CanvasOS.Lib.Format

namespace CanvasOS.Ingest

open Interleave Python
open Dispatch (AgentRun Completion find)
open Review (Object)

/-! ## The calls -/

/-- What an attempt asks of others. -/
inductive IngestCall where
  /-- `get_ledgered_agent_run` under the task's first ordinal -/
  | getLedgeredAgentRun
  | recordLedgeredAgentRun (agentRunId : String)
  | createAgentRun (run : AgentRun)
  | getAgentRun (agentRunId : String)
  /-- the response has what the contract requires, or `complete` raises -/
  | complete (request : Completion)
  /-- `float(vault.get_cost(cost_id).get("amount") or 0.0)` -/
  | getCost (costId : Json)
deriving DecidableEq

/-- What each call answers with. -/
abbrev IngestCall.Res : IngestCall → Type
  | .getLedgeredAgentRun => Option String
  | .recordLedgeredAgentRun _ => Unit
  | .createAgentRun _ => String
  | .getAgentRun _ => String
  | .complete _ => Object
  | .getCost _ => String

/-- What a call or the loop raises. -/
inductive IngestExc where
  /-- `GatewayClientError` -/
  | gateway (errorCode : Option String)
  /-- `DispatchError` -/
  | dispatchError (message : String)
  | raised
deriving DecidableEq

abbrev IngestM := Prog IngestCall IngestCall.Res IngestExc

/-- One call, its exception propagated. -/
def request (c : IngestCall) : IngestM c.Res := Prog.perform c

/-- The state behind the calls, as far as one task sees it. -/
structure IngestWorld where
  /-- `agent_run_ledger` under the task's key -/
  ledger : Option String
  runs : List (String × AgentRun)
  /-- the gateway's `completions`, by `task_ref`: the request that was computed, and its response -/
  completions : List (String × (Completion × Object))

/-- Before the first attempt. -/
def IngestWorld.empty : IngestWorld := ⟨none, [], []⟩

/-- One call against the state.  A request that the firewall blocks is not executed: it fails. -/
def ingestExec : (c : IngestCall) → c.Res → IngestWorld → Option (c.Res × IngestWorld)
  | .getLedgeredAgentRun, _, w => some (w.ledger, w)
  -- ON CONFLICT DO NOTHING
  | .recordLedgeredAgentRun id, _, w => some ((), { w with ledger := w.ledger.or (some id) })
  | .createAgentRun run, id, w =>
    if (find w.runs id).isSome then none else some (id, { w with runs := (id, run) :: w.runs })
  | .getAgentRun id, _, w => (find w.runs id).map fun _ => (id, w)
  | .complete request, response, w =>
    -- `get_or_compute`: a `task_ref` that has been answered is answered the same again
    match find w.completions request.taskRef with
    | some stored => some (stored.2, w)
    | none => some (response, { w with
        completions := (request.taskRef, (request, response)) :: w.completions })
  | .getCost _, amount, w => some (amount, w)

/-! ## An attempt -/

/-- The scan profile, as far as the prompt quotes it. -/
structure ScanSources where
  topic : String
  horizonDays : Int

/-- A fetched source. -/
structure FetchedSource where
  url : String
  body : String
deriving DecidableEq

/-- A signal that was captured in this horizon. -/
structure CapturedSignal where
  headline : String
  sourceUrl : String

/-- What an attempt starts with. -/
structure IngestAttempt where
  sources : ScanSources
  fetched : List FetchedSource
  captured : List CapturedSignal
  systemPrompt : String
  run : AgentRun

/-- `_build_ingest_user_content` -/
def buildIngestUserContent (sources : ScanSources) (fetched : List FetchedSource)
    (captured : List CapturedSignal) : String :=
  join "\n" (
    ["Topic: " ++ sources.topic, "Horizon (days): " ++ toString sources.horizonDays] ++
    (if captured = [] then [] else
      ["", "Already captured in this horizon (do not re-report these as new; " ++
        "prefer genuinely new items, and do not pad to reach the minimum):"] ++
      captured.map fun item => "- " ++ item.headline ++ " (" ++ item.sourceUrl ++ ")") ++
    ["", "Retrieved evidence (fetch_url results, truncated):"] ++
    fetched.flatMap fun item => ["--- SOURCE: " ++ item.url ++ " ---",
      if item.body = "" then "(empty response body)" else item.body])

/-- `INGEST_MAX_TOKENS` -/
def ingestMaxTokens : Nat := 2048

/-- `f"{agent_run_id}:remaining={len(remaining)}"` -/
def remainingRef (agentRunId : String) (n : Nat) : String :=
  agentRunId ++ ":remaining=" ++ toString n

/-- `_complete_and_meter` -/
def completeAndMeter (completion : Completion) : IngestM (Object × String) := do
  let response ← request (.complete completion)
  let costId := Json.get response "cost_id"
  if costId.truthy then
    tryCatch (do
      let cost ← request (.getCost costId)
      pure (response, cost)) fun _ => pure (response, "0.0")
  else pure (response, "0.0")

namespace IngestAttempt

variable (a : IngestAttempt)

/-- The user content of these sources. -/
def content (remaining : List FetchedSource) : String :=
  buildIngestUserContent a.sources remaining a.captured

/-- The request that is sent while these sources remain. -/
def completion (agentRunId : String) (remaining : List FetchedSource) : Completion :=
  ⟨"claude-haiku", a.systemPrompt, .str (a.content remaining), agentRunId,
    some "public_source_content", ingestMaxTokens, remainingRef agentRunId remaining.length⟩

end IngestAttempt

/-- What the fallback returns. -/
structure IngestResult where
  response : Object
  cost : String
  remaining : List FetchedSource
  skipped : List FetchedSource
deriving DecidableEq

/-- `while remaining` -/
def completeIngest (a : IngestAttempt) (agentRunId : String) :
    (remaining skipped : List FetchedSource) → IngestM IngestResult
  | [], _ =>
    throw (.dispatchError
      "ingest-signals: every fetched source was blocked by the redaction firewall")
  | dropped :: rest, skipped =>
    tryCatch (do
      let (response, cost) ← completeAndMeter (a.completion agentRunId (dropped :: rest))
      pure ⟨response, cost, dropped :: rest, skipped⟩) fun
      | .gateway (some "REDACTION_BLOCKED") =>
        completeIngest a agentRunId rest (skipped ++ [dropped])
      | e => throw e

/-- `create_agent_run_idempotent` -/
def createAgentRunIdempotent (run : AgentRun) : IngestM String := do
  match ← request .getLedgeredAgentRun with
  | some existingId => request (.getAgentRun existingId)
  | none => do
    let created ← request (.createAgentRun run)
    request (.recordLedgeredAgentRun created)
    pure created

/-- The agent run, and `_complete_ingest_with_redaction_fallback`. -/
def attempt (a : IngestAttempt) : IngestM IngestResult := do
  let agentRunId ← createAgentRunIdempotent a.run
  completeIngest a agentRunId a.fetched []

/-! ## What the fallback is for -/

/-- Attempts one after the other, each as far as it got. -/
inductive Attempts : List IngestAttempt → IngestWorld → IngestWorld → Prop where
  | none (w : IngestWorld) : Attempts [] w w
  | more {a : IngestAttempt} {as : List IngestAttempt} {q : IngestM IngestResult}
      {w w' w'' : IngestWorld} (h : Solo ingestExec (attempt a) w q w')
      (rest : Attempts as w' w'') : Attempts (a :: as) w w''

/-- The response is what the provider answered to the content of the remaining sources. -/
def Answers (a : IngestAttempt) (result : IngestResult) (w : IngestWorld) : Prop :=
  ∃ ref completion, (ref, (completion, result.response)) ∈ w.completions ∧
    completion.user = .str (a.content result.remaining)

/-- The call is a completion. -/
def IngestCall.isComplete : IngestCall → Prop
  | .complete _ => True
  | _ => False

/-- Whatever the attempts before it did, an attempt that returns has the answer to the sources it
    returns, which are those it fetched less the skipped ones; and it takes no more calls of the
    gateway than there are sources. -/
def Faithful (earlier : List IngestAttempt) (a : IngestAttempt) : Prop :=
  (∀ w w' result, Attempts earlier .empty w → Completes ingestExec (attempt a) w (.ok result) w' →
    Answers a result w' ∧ result.skipped ++ result.remaining = a.fetched) ∧
  ∀ agentRunId, (completeIngest a agentRunId a.fetched []).AtMost IngestCall.isComplete
    a.fetched.length

/-- The last `n` sources. -/
def IngestAttempt.last (a : IngestAttempt) (n : Nat) : List FetchedSource :=
  a.fetched.drop (a.fetched.length - n)

/-- Wherever both have as many sources left, both send the same content. -/
def SameContent (b a : IngestAttempt) : Prop :=
  ∀ n, 0 < n → n ≤ a.fetched.length → n ≤ b.fetched.length →
    b.content (b.last n) = a.content (a.last n)

/-! ## The keys of the cache -/

/-- The digits behind the last `=` of a key. -/
theorem takeWhile_remainingRef (i : String) (n : Nat) :
    (remainingRef i n).toList.reverse.takeWhile (· != '=') = (Nat.toDigits 10 n).reverse := by
  have hdigit : ∀ c ∈ (Nat.toDigits 10 n).reverse, (c != '=') = true := by
    intro c hc
    have hc : c.isDigit = true :=
      Nat.isDigit_of_mem_toDigits (by decide) (by decide) (List.mem_reverse.1 hc)
    rw [bne_iff_ne]
    rintro rfl
    exact absurd hc (by decide)
  have hlist : (remainingRef i n).toList.reverse =
      (Nat.toDigits 10 n).reverse ++ '=' :: (i.toList ++ ":remaining".toList).reverse := by
    have hname : ":remaining=".toList = ":remaining".toList ++ ['='] := rfl
    have hnum : (toString n).toList = Nat.toDigits 10 n := Nat.toList_repr
    unfold remainingRef
    rw [String.toList_append, String.toList_append, hname, hnum]
    simp
  rw [hlist, List.takeWhile_append_of_pos hdigit]
  simp

/-- They are those of the number of sources. -/
theorem remainingRef_inj {i j : String} {n m : Nat} (h : remainingRef i n = remainingRef j m) :
    n = m := by
  have hrev := takeWhile_remainingRef i n
  rw [h, takeWhile_remainingRef j m] at hrev
  have hdigits : Nat.toDigits 10 m = Nat.toDigits 10 n := List.reverse_injective hrev
  calc n = Nat.ofDigitChars 10 (Nat.toDigits 10 n) 0 := Nat.ofDigitChars_ten_toDigits.symm
    _ = Nat.ofDigitChars 10 (Nat.toDigits 10 m) 0 := by rw [hdigits]
    _ = m := Nat.ofDigitChars_ten_toDigits

/-! ## What the cache holds -/

/-- Every cached response answers the content of as many sources of one of these attempts as its key
    says. -/
def Stored (as : List IngestAttempt) (w : IngestWorld) : Prop :=
  ∀ ref completion response, (ref, (completion, response)) ∈ w.completions →
    ∃ b ∈ as, ∃ agentRunId n, 0 < n ∧ n ≤ b.fetched.length ∧ ref = remainingRef agentRunId n ∧
      completion.user = .str (b.content (b.last n))

section Stored

variable {as : List IngestAttempt} {a : IngestAttempt} {w w' : IngestWorld}
  {remaining skipped : List FetchedSource}

theorem IngestAttempt.last_length (h : skipped ++ remaining = a.fetched) :
    a.last remaining.length = remaining := by
  unfold last
  rw [← h, List.length_append, Nat.add_sub_cancel]
  exact List.drop_left

/-- The response answers the content of as many sources of one of these attempts. -/
def Cached (as : List IngestAttempt) (n : Nat) (response : Object) (w : IngestWorld) : Prop :=
  ∃ ref completion, (ref, (completion, response)) ∈ w.completions ∧
    ∃ b ∈ as, n ≤ b.fetched.length ∧ completion.user = .str (b.content (b.last n))

/-- What `find` finds is there. -/
theorem mem_of_find {key : String} {x : Completion × Object}
    (h : find w.completions key = some x) : (key, x) ∈ w.completions := by
  obtain ⟨⟨key', x'⟩, hx, rfl⟩ := Option.map_eq_some_iff.1 h
  have hkey : key' = key := by simpa using List.find?_some hx
  subst hkey
  exact List.mem_of_find?_eq_some hx

theorem find_cons_self (x : String × (Completion × Object)) (rows : List _) :
    find (x :: rows) x.1 = some x.2 := by
  unfold find
  rw [List.find?_cons_of_pos (by simp)]
  rfl

/-- A completion is answered from the cache or by the provider. -/
theorem exec_complete {agentRunId : String} {response answer : Object} (ha : a ∈ as)
    (hne : remaining ≠ []) (hparts : skipped ++ remaining = a.fetched) (hw : Stored as w)
    (h : ingestExec (.complete (a.completion agentRunId remaining)) response w =
      some (answer, w')) : Stored as w' ∧ Cached as remaining.length answer w' := by
  have hlast := IngestAttempt.last_length hparts
  have hpos : 0 < remaining.length := List.length_pos_iff.2 hne
  have hle : remaining.length ≤ a.fetched.length := by
    rw [← hparts, List.length_append]
    exact Nat.le_add_left _ _
  simp only [ingestExec] at h
  split at h
  · rename_i stored hfind
    obtain ⟨rfl, rfl⟩ := Prod.mk.inj (Option.some.inj h)
    have hmem := mem_of_find hfind
    obtain ⟨b, hb, i, n, -, hnb, href, huser⟩ := hw _ _ _ hmem
    obtain rfl := remainingRef_inj href
    exact ⟨hw, _, _, hmem, b, hb, hnb, huser⟩
  · obtain ⟨rfl, rfl⟩ := Prod.mk.inj (Option.some.inj h)
    have huser : (a.completion agentRunId remaining).user =
        .str (a.content (a.last remaining.length)) := by
      rw [hlast]
      rfl
    refine ⟨fun ref completion response hmem => ?_,
      _, _, List.mem_cons_self, a, ha, hle, huser⟩
    rcases List.mem_cons.1 hmem with heq | hmem
    · simp only [Prod.mk.injEq] at heq
      obtain ⟨href, rfl, rfl⟩ := heq
      exact ⟨a, ha, agentRunId, remaining.length, hpos, hle, href, huser⟩
    · exact hw _ _ _ hmem

theorem completeAndMeter_keeps {agentRunId : String} (ha : a ∈ as) (hne : remaining ≠ [])
    (hparts : skipped ++ remaining = a.fetched) (hw : Stored as w) :
    Keeps ingestExec (Stored as) (completeAndMeter (a.completion agentRunId remaining))
      (fun x w => Cached as remaining.length x.1 w) w := by
  refine Keeps.perform_bind hw fun response answer w' hx => ?_
  obtain ⟨hw', hcached⟩ := exec_complete ha hne hparts hw hx
  simp only
  split
  · -- the cost is read back without a change of the state
    let J (w : IngestWorld) : Prop := Stored as w ∧ Cached as remaining.length answer w
    have hcost : Keeps ingestExec J (tryCatch (do
        let cost ← request (.getCost (Json.get answer "cost_id"))
        pure (answer, cost)) fun _ => pure (answer, "0.0"))
        (fun x w => Cached as remaining.length x.1 w) w' := by
      have hread : Keeps ingestExec J (request (.getCost (Json.get answer "cost_id")) >>=
          fun cost => pure (answer, cost)) (fun x w => Cached as remaining.length x.1 w) w' := by
        refine Keeps.perform_bind ⟨hw', hcached⟩ fun x cost w'' hx => ?_
        obtain ⟨-, rfl⟩ := Prod.mk.inj (Option.some.inj hx)
        exact ⟨⟨hw', hcached⟩, hcached⟩
      exact hread.tryCatch fun e w'' h => ⟨h, h.2⟩
    exact (hcost.weaken fun _ h => h.1).mono fun _ _ _ h => h.1
  · exact ⟨hw', hcached⟩

/-- What the loop returns. -/
def Returned (as : List IngestAttempt) (a : IngestAttempt) (result : IngestResult)
    (w : IngestWorld) : Prop :=
  result.skipped ++ result.remaining = a.fetched ∧ result.remaining ≠ [] ∧
    Cached as result.remaining.length result.response w

/-- The loop. -/
theorem completeIngest_keeps {agentRunId : String} (ha : a ∈ as)
    (hparts : skipped ++ remaining = a.fetched) (hw : Stored as w) :
    Keeps ingestExec (Stored as) (completeIngest a agentRunId remaining skipped)
      (Returned as a) w := by
  induction remaining generalizing skipped w with
  | nil => exact hw
  | cons dropped rest ih =>
    have hdone : Keeps ingestExec (Stored as)
        (completeAndMeter (a.completion agentRunId (dropped :: rest)) >>= fun x =>
          pure (⟨x.1, x.2, dropped :: rest, skipped⟩ : IngestResult)) (Returned as a) w :=
      (completeAndMeter_keeps ha (List.cons_ne_nil _ _) hparts hw).bind fun x w' hw' hcached =>
        ⟨hw', hparts, List.cons_ne_nil _ _, hcached⟩
    refine hdone.tryCatch fun e w' hw' => ?_
    split
    · refine ih ?_ hw'
      rw [List.append_assoc]
      exact hparts
    · exact hw'

theorem createAgentRunIdempotent_only (run : AgentRun) :
    (createAgentRunIdempotent run).Only fun c => ¬ c.isComplete := by
  refine Prog.Only.bind (Prog.Only.perform fun h => h) fun found => ?_
  cases found with
  | some existingId => exact Prog.Only.perform fun h => h
  | none =>
    refine Prog.Only.bind (Prog.Only.perform fun h => h) fun created => ?_
    exact Prog.Only.bind (Prog.Only.perform fun h => h) fun _ => True.intro

/-- Only completions change the cache. -/
theorem exec_completions {c : IngestCall} {x y : c.Res} (hc : ¬ c.isComplete)
    (h : ingestExec c x w = some (y, w')) : w'.completions = w.completions := by
  cases c with
  | complete completion => exact absurd True.intro hc
  | createAgentRun run =>
    simp only [ingestExec] at h
    split at h
    · cases h
    · obtain ⟨-, rfl⟩ := Prod.mk.inj (Option.some.inj h)
      rfl
  | getAgentRun agentRunId =>
    obtain ⟨_, -, heq⟩ := Option.map_eq_some_iff.1 h
    obtain ⟨-, rfl⟩ := Prod.mk.inj heq
    rfl
  | _ =>
    obtain ⟨-, rfl⟩ := Prod.mk.inj (Option.some.inj h)
    rfl

theorem attempt_keeps (ha : a ∈ as) (hw : Stored as w) :
    Keeps ingestExec (Stored as) (attempt a) (Returned as a) w := by
  have hrun : Keeps ingestExec (Stored as) (createAgentRunIdempotent a.run) (fun _ _ => True) w := by
    refine Keeps.of_kept (createAgentRunIdempotent_only a.run) hw fun c x y w w' hc hx hw => ?_
    unfold Stored
    rw [exec_completions hc hx]
    exact hw
  exact hrun.bind fun agentRunId w' hw' _ => completeIngest_keeps ha rfl hw'

/-- After any number of these attempts. -/
theorem Attempts.stored {bs : List IngestAttempt} (h : Attempts bs w w') (hsub : bs ⊆ as)
    (hw : Stored as w) : Stored as w' := by
  induction h with
  | none w => exact hw
  | more hrun rest ih =>
    exact ih (List.subset_of_cons_subset hsub)
      (Keeps.sound hrun (attempt_keeps (hsub List.mem_cons_self) hw)).inv

end Stored

/-! ## The number of calls -/

theorem completeAndMeter_atMost (completion : Completion) :
    (completeAndMeter completion).AtMost IngestCall.isComplete 1 := by
  refine Prog.AtMost.bind (m := 0) Prog.AtMost.perform fun response => ?_
  simp only
  split
  · refine Prog.AtMost.of_only (Prog.Only.tryCatch (Prog.Only.bind ?_ fun _ => True.intro)
      fun _ => True.intro)
    exact Prog.Only.perform fun h => h
  · exact True.intro

/-- The loop asks once for each source. -/
theorem completeIngest_atMost (a : IngestAttempt) (agentRunId : String)
    (remaining skipped : List FetchedSource) :
    (completeIngest a agentRunId remaining skipped).AtMost IngestCall.isComplete
      remaining.length := by
  induction remaining generalizing skipped with
  | nil => exact True.intro
  | cons dropped rest ih =>
    have hask := (completeAndMeter_atMost (a.completion agentRunId (dropped :: rest))).bind
      (m := 0) (f := fun x => .pure (⟨x.1, x.2, dropped :: rest, skipped⟩ : IngestResult))
      fun _ => True.intro
    rw [List.length_cons, Nat.add_comm]
    refine hask.tryCatch fun e => ?_
    split
    · exact ih _
    · exact True.intro

/-! ## A run that reaches a given number of sources -/

section Runs

variable {a : IngestAttempt} {agentRunId : String} {w w' : IngestWorld}
  {blocked remaining skipped : List FetchedSource} {out : Except IngestExc IngestResult}

/-- These sources are blocked, one after the other. -/
theorem completes_blocked
    (h : Completes ingestExec (completeIngest a agentRunId remaining (skipped ++ blocked)) w out w') :
    Completes ingestExec (completeIngest a agentRunId (blocked ++ remaining) skipped) w out w' := by
  induction blocked generalizing skipped with
  | nil =>
    rw [List.append_nil] at h
    exact h
  | cons dropped rest ih =>
    have hrest : Completes ingestExec
        (completeIngest a agentRunId (rest ++ remaining) (skipped ++ [dropped])) w out w' := by
      refine ih ?_
      rw [List.append_assoc]
      exact h
    have hasked : Completes ingestExec (completeAndMeter
        (a.completion agentRunId (dropped :: (rest ++ remaining)))) w
        (.error (.gateway (some "REDACTION_BLOCKED"))) w :=
      Completes.bind_error (Completes.perform_failed _)
    exact Completes.tryCatch_error (Completes.bind_error hasked) hrest

/-- A response with what the contract requires, and no cost to be looked up. -/
def uncosted : Object :=
  [("id", .str "completion"), ("model", .str "claude-haiku"), ("content", .str "[]"),
    ("usage", .obj []), ("agent_run_id", .str "run")]

/-- The rest is answered. -/
theorem completes_answered (hne : remaining ≠ [])
    (hx : ingestExec (.complete (a.completion agentRunId remaining)) uncosted w =
      some (uncosted, w')) :
    Completes ingestExec (completeIngest a agentRunId remaining skipped) w
      (.ok ⟨uncosted, "0.0", remaining, skipped⟩) w' := by
  cases remaining with
  | nil => exact absurd rfl hne
  | cons dropped rest =>
    have hasked : Completes ingestExec (completeAndMeter
        (a.completion agentRunId (dropped :: rest))) w (.ok (uncosted, "0.0")) w' :=
      Completes.bind (Completes.perform hx) Completes.pure
    exact Completes.tryCatch_ok (Completes.bind hasked Completes.pure)

theorem IngestAttempt.length_last {n : Nat} (hle : n ≤ a.fetched.length) :
    (a.last n).length = n := by
  unfold last
  rw [List.length_drop]
  omega

/-- All but the last `n` sources are blocked. -/
theorem completes_last {n : Nat} (hpos : 0 < n) (hle : n ≤ a.fetched.length)
    (hx : ingestExec (.complete (a.completion agentRunId (a.last n))) uncosted w =
      some (uncosted, w')) :
    ∃ skipped, Completes ingestExec (completeIngest a agentRunId a.fetched []) w
      (.ok ⟨uncosted, "0.0", a.last n, skipped⟩) w' := by
  have hne : a.last n ≠ [] := by
    refine List.length_pos_iff.1 ?_
    rw [IngestAttempt.length_last hle]
    exact hpos
  have hsplit : a.fetched = a.fetched.take (a.fetched.length - n) ++ a.last n :=
    (List.take_append_drop _ _).symm
  refine ⟨a.fetched.take (a.fetched.length - n), ?_⟩
  rw [hsplit]
  refine completes_blocked ?_
  rw [← hsplit]
  exact completes_answered hne hx

/-- The first attempt creates the agent run. -/
theorem completes_create (run : AgentRun) : Completes ingestExec (createAgentRunIdempotent run)
    .empty (.ok "run") ⟨some "run", [("run", run)], []⟩ := by
  have hread : ingestExec .getLedgeredAgentRun none .empty = some (none, .empty) := rfl
  have hcreate : ingestExec (.createAgentRun run) "run" .empty =
      some ("run", ⟨none, [("run", run)], []⟩) := rfl
  have hrecord : ingestExec (.recordLedgeredAgentRun "run") () ⟨none, [("run", run)], []⟩ =
      some ((), ⟨some "run", [("run", run)], []⟩) := rfl
  exact Completes.bind (Completes.perform hread) (Completes.bind (Completes.perform hcreate)
    (Completes.bind (Completes.perform hrecord) Completes.pure))

/-- A later one finds it. -/
theorem completes_find (run run' : AgentRun) (completions : List (String × (Completion × Object))) :
    Completes ingestExec (createAgentRunIdempotent run) ⟨some "run", [("run", run')], completions⟩
      (.ok "run") ⟨some "run", [("run", run')], completions⟩ := by
  have hread : ingestExec .getLedgeredAgentRun none ⟨some "run", [("run", run')], completions⟩ =
      some (some "run", ⟨some "run", [("run", run')], completions⟩) := rfl
  have hget : ingestExec (.getAgentRun "run") "run" ⟨some "run", [("run", run')], completions⟩ =
      some ("run", ⟨some "run", [("run", run')], completions⟩) := rfl
  exact Completes.bind (Completes.perform hread) (Completes.perform hget)

/-- Attempts that do nothing. -/
theorem Attempts.idle (bs : List IngestAttempt) : Attempts bs w w := by
  induction bs with
  | nil => exact .none w
  | cons b bs ih => exact .more (.refl _ _) ih

theorem Attempts.append {bs cs : List IngestAttempt} {w'' : IngestWorld} (h : Attempts bs w w')
    (h' : Attempts cs w' w'') : Attempts (bs ++ cs) w w'' := by
  induction h with
  | none w => exact h'
  | more hrun _ ih => exact .more hrun (ih h')

end Runs

/-! ## When an attempt gets the answer to its own sources -/

/-- An attempt that is faithful after another one has the same content where it has as many
    sources. -/
theorem same_of_faithful {earlier : List IngestAttempt} {a b : IngestAttempt}
    (hfaithful : Faithful earlier a) (hb : b ∈ earlier) : SameContent b a := by
  intro n hpos hla hlb
  obtain ⟨before, after, rfl⟩ := List.append_of_mem hb
  -- `b` reaches `n` sources and is answered; the other attempts get nowhere
  let cached : String × (Completion × Object) :=
    (remainingRef "run" (b.last n).length, (b.completion "run" (b.last n), uncosted))
  let w : IngestWorld := ⟨some "run", [("run", b.run)], [cached]⟩
  have hmiss : ingestExec (.complete (b.completion "run" (b.last n))) uncosted
      ⟨some "run", [("run", b.run)], []⟩ = some (uncosted, w) := rfl
  obtain ⟨_, hloop⟩ := completes_last hpos hlb hmiss
  have hearlier : Attempts (before ++ b :: after) .empty w :=
    (Attempts.idle before).append (.more ((completes_create b.run).bind hloop) (.idle after))
  -- `a` reaches `n` sources, and finds the answer that `b` was given
  have hkey : remainingRef "run" (a.last n).length = cached.1 := by
    show _ = remainingRef "run" (b.last n).length
    rw [IngestAttempt.length_last hla, IngestAttempt.length_last hlb]
  have hhit : ingestExec (.complete (a.completion "run" (a.last n))) uncosted w =
      some (uncosted, w) := by
    have hfind : find [cached] (remainingRef "run" (a.last n).length) = some cached.2 := by
      rw [hkey]
      exact find_cons_self _ _
    show (match find [cached] (remainingRef "run" (a.last n).length) with
      | some stored => some (stored.2, w)
      | none => _) = _
    rw [hfind]
  obtain ⟨_, hloop⟩ := completes_last hpos hla hhit
  obtain ⟨⟨ref, completion, hmem, huser⟩, -⟩ :=
    hfaithful.1 w w _ hearlier ((completes_find a.run b.run [cached]).bind hloop)
  simp only [w, cached, List.mem_singleton, Prod.mk.injEq] at hmem
  obtain ⟨-, rfl, -⟩ := hmem
  exact Json.str.inj huser

/-- For all attempts before it, whatever the firewall blocks, an attempt is faithful if and only if
    the earlier attempts had the same content wherever they had as many sources. -/
theorem fallback_faithful_iff (earlier : List IngestAttempt) (a : IngestAttempt) :
    Faithful earlier a ↔ ∀ b ∈ earlier, SameContent b a := by
  constructor
  · exact fun hfaithful b hb => same_of_faithful hfaithful hb
  · intro hsame
    refine ⟨fun w w' result hearlier hrun => ?_, fun agentRunId => completeIngest_atMost _ _ _ _⟩
    have hempty : Stored (a :: earlier) .empty := fun _ _ _ h => absurd h List.not_mem_nil
    have hw := hearlier.stored (List.subset_cons_self a earlier) hempty
    obtain ⟨-, hparts, hne, ref, completion, hmem, b, hb, hlb, huser⟩ :=
      Keeps.sound hrun (attempt_keeps List.mem_cons_self hw)
    refine ⟨⟨ref, completion, hmem, ?_⟩, hparts⟩
    have hpos : 0 < result.remaining.length := List.length_pos_iff.2 hne
    have hla : result.remaining.length ≤ a.fetched.length := by
      rw [← hparts, List.length_append]
      exact Nat.le_add_left _ _
    rw [huser]
    rcases List.mem_cons.1 hb with rfl | hb
    · rw [IngestAttempt.last_length hparts]
    · rw [hsame b hb _ hpos hla hlb, IngestAttempt.last_length hparts]

/-! ## Two fetches -/

/-- An attempt that fetched one source. -/
def fetchedOnly (url body : String) : IngestAttempt :=
  ⟨⟨"banking", 7⟩, [⟨url, body⟩], [], "", ⟨"market-intelligence-director", "", "09", "running",
    .null, .null⟩⟩

/-- The first source could not be fetched by the first attempt, and the second one not by the second:
    the second attempt returns what was answered to the first. -/
theorem fallback_unfaithful :
    ¬ ∀ earlier a, Faithful earlier a := by
  intro h
  have hsame : SameContent (fetchedOnly "https://b.example" "rates are cut")
      (fetchedOnly "https://a.example" "a bank fails") :=
    same_of_faithful (h [fetchedOnly "https://b.example" "rates are cut"] _) List.mem_cons_self
  exact absurd (hsame 1 (by decide) (by decide) (by decide)) (by decide +kernel)

end CanvasOS.Ingest
