/-
  What the month-end report says of the publish sweeps (`db.month_publishes`).

  1. `monthPublishes` — the rows that carry a `publish_attempt_id`, counted by their
     `publish_status`.
  2. `sweeps` — any number of publish sweeps, statement by statement, next to an orchestrator that
     writes no `publish_attempt_id` of its own.
  3. `report_tells_iff` — the answer of Publisher has no field `status`, so the sweep stores null
     and every publish is counted as `unknown`: the report tells live posts from dry runs exactly
     where there was neither.
-/
import CanvasOS.Dispatch.Account
import CanvasOS.Lib.Group
import CanvasOS.Lib.Own
import CanvasOS.Publication.Sweep

namespace CanvasOS.Publication

open Interleave Python Orchestrator Review Dispatch

/-! ## The report -/

/-- The `result_ref` carries a `publish_attempt_id`. -/
def Attempted (ref : ResultRef) : Prop := (Json.lookup ref "publish_attempt_id").isSome = true

instance (ref : ResultRef) : Decidable (Attempted ref) := inferInstanceAs (Decidable (_ = true))

/-- `result_ref ->> key`: text as it is, null as nothing, and `render` for any other value. -/
def jsonText (render : Json → String) : Json → Option String
  | .null => none
  | .str s => some s
  | value => some (render value)

/-- The rows the report reads: created in the window and published. -/
def publishedRows (window : TaskId → Bool) (rows : List TaskRow) : List TaskRow :=
  rows.filter fun row => row.taskType ∈ publishCandidateTaskTypes && window row.taskId &&
    row.resultRef.any fun ref => decide (Attempted ref)

/-- The status a row is counted under. -/
def publishStatus (render : Json → String) (row : TaskRow) : String :=
  (jsonText render (Json.get (row.resultRef.getD []) "publish_status")).getD "unknown"

/-- `month_publishes`: the counts by status. -/
def monthPublishes (render : Json → String) (window : TaskId → Bool) (rows : List TaskRow) :
    List (String × Nat) :=
  Group.groupSum (publishStatus render) (fun _ => 1) (publishedRows window rows)

/-- The report counts `live` live posts, `dry` dry runs and nothing else. -/
structure Tells (report : List (String × Nat)) (live dry : Nat) : Prop where
  published : Group.sumOf report Publisher.reasonPublished = live
  dryRun : Group.sumOf report Publisher.reasonPublishedDryRun = dry
  other : ∀ status, status ≠ Publisher.reasonPublished → status ≠ Publisher.reasonPublishedDryRun →
    Group.sumOf report status = 0

/-! ## The sweeps -/

/-- Nobody but a sweep writes a `publish_attempt_id`. -/
def leavesAttempts (old new : List TaskRow) : Bool :=
  new.all fun row => row.resultRef.all fun ref => decide (¬ Attempted ref) ||
    old.any fun row' => row'.taskId == row.taskId && row'.resultRef == some ref

/-- The record of the sweeps. -/
abbrev SweepHistory := History Call Call.Res Dispatch.World Nat TaskId

/-- Publish sweeps, each for the task it is given; between two statements the rest of the system
    changes what it likes. -/
def sweeps (P : Policies) : Sys Call Call.Res Failure SweepHistory Nat TaskId Unit Dispatch.World :=
  recorded publishApprovedAssets (fun _ c => step P c) fun new old =>
    if leavesAttempts old.tables.tasks new.tables.tasks then some new else none

/-- The publishes that Publisher accepted with this reason, for rows of the window. -/
def accepted (window : TaskId → Bool) (reason : String) (h : SweepHistory) : Nat :=
  (h.log.filter fun e => match e with
    | ⟨_, .publish taskId _, response, _⟩ => window taskId && response.reason == reason
    | _ => false).length

/-- Publisher answers a request that it accepts with one of its two reasons. -/
def PublisherAnswers {α : Type} (_ : Config Call Call.Res Failure SweepHistory Nat TaskId α) :
    Act Call Call.Res Failure Nat TaskId Dispatch.World → Prop
  | .step _ f => ∀ taskId body response,
      (f (.publish taskId body) = .ok response ∨ ∃ e, f (.publish taskId body) = .lost response e) →
      response.reason = Publisher.reasonPublished ∨
        response.reason = Publisher.reasonPublishedDryRun
  | _ => True

/-! ## What a sweep writes -/

/-- The answer of Publisher has no field `status`. -/
theorem responseJson_status (r : Publisher.PublishResponse) :
    Json.get (responseJson r) "status" = .null := by
  simp [responseJson, Json.get, Json.lookup]

theorem publishedRef_status (ref : ResultRef) (r : Publisher.PublishResponse) :
    Json.get (publishedRef ref (responseJson r)) "publish_status" = .null := by
  have hstatus := responseJson_status r
  unfold Json.get at hstatus ⊢
  simp [publishedRef, Json.lookup_update, Json.lookup_cons, Json.get, hstatus]

/-- The summary of a sweep is no publish. -/
theorem not_attempted_sweepRef (candidates : List TaskRow) (results : List Object) :
    ¬ Attempted (sweepRef candidates results) := by
  simp [Attempted, sweepRef, Json.lookup]

/-- Every `publish_attempt_id` was written after a publish of that task, with a null status. -/
def Recorded : Heard Call Call.Res → Prop
  | [] => True
  | entry :: log =>
    (∀ taskId ref, entry = ⟨.db (.setResultRef taskId ref), ()⟩ → Attempted ref →
      Json.get ref "publish_status" = .null ∧
        ∃ body response, (⟨.publish taskId body, response⟩ : (c : Call) × c.Res) ∈ log) ∧
    Recorded log

/-- The call writes no `result_ref` that counts as a publish. -/
def Unattempting : Call → Prop
  | .db (.setResultRef _ ref) => ¬ Attempted ref
  | _ => True

theorem unattempting_of_writesNothing {c : Call} (h : c.WritesNothing) : Unattempting c := by
  cases c with
  | db q => cases q <;> trivial
  | _ => trivial

theorem Recorded.cons {c : Call} {a : c.Res} {log : Heard Call Call.Res} (hc : Unattempting c)
    (h : Recorded log) : Recorded (⟨c, a⟩ :: log) := by
  refine ⟨fun taskId ref heq hatt => ?_, h⟩
  obtain ⟨rfl, -⟩ := Sigma.mk.inj heq
  exact absurd hatt hc

section Walk

variable {α : Type} {log : Heard Call Call.Res} {task : TaskRow}

/-- A call that is no publish and writes none. -/
theorem recorded_ask {c : Call} {f : c.Res → Routine α} {Q : α → Heard Call Call.Res → Prop}
    (hc : Unattempting c) (h : Recorded log)
    (hf : ∀ a, Recorded (⟨c, a⟩ :: log) → Keeps hear Recorded (f a) Q (⟨c, a⟩ :: log)) :
    Keeps hear Recorded ((ask c).bind f) Q log :=
  Keeps.hear_bind h fun a => hf a (h.cons hc)

/-- The analytics lookups neither publish nor forget. -/
theorem registerAnalytics_keeps {ref : ResultRef} {vaultAssetId : String}
    {entry : (c : Call) × c.Res} (h : Recorded log) (hmem : entry ∈ log) :
    Keeps hear Recorded (registerAnalytics ref vaultAssetId)
      (fun _ log => Recorded log ∧ entry ∈ log) log := by
  let J (log : Heard Call Call.Res) : Prop := Recorded log ∧ entry ∈ log
  let Quiet (c : Call) : Prop := Unattempting c
  have honly : (registerAnalytics ref vaultAssetId).Only Quiet := by
    refine Prog.Only.tryCatch ?_ fun _ => trivial
    refine Prog.Only.bind (Prog.Only.perform trivial) fun _ => ?_
    exact Prog.Only.perform trivial
  have hJ : J log := ⟨h, hmem⟩
  refine ((Keeps.of_only honly hJ fun c a log hc hJ => ?_).weaken fun _ hJ => hJ.1).mono
    fun _ _ _ hQ => hQ.1
  exact ⟨hJ.1.cons hc, List.mem_cons_of_mem _ hJ.2⟩

theorem mintAndPublish_keeps {ref : ResultRef} {functionId agentRunId contentHash assetId : String}
    (h : Recorded log) :
    Keeps hear Recorded (mintAndPublish task ref functionId agentRunId contentHash assetId)
      (fun _ _ => True) log := by
  unfold mintAndPublish
  refine recorded_ask trivial h fun asset h => ?_
  refine recorded_ask trivial h fun minted h => ?_
  dsimp only
  split
  · exact ⟨h, trivial⟩
  · refine recorded_ask trivial h fun response h => ?_
    refine (registerAnalytics_keeps h List.mem_cons_self).bind fun _ log' _ ⟨h, hmem⟩ => ?_
    refine Keeps.hear_bind h fun _ => ?_
    refine ⟨⟨fun taskId ref' heq _ => ?_, h⟩, trivial⟩
    obtain ⟨rfl, rfl⟩ := Query.setResultRef.inj (Call.db.inj (Sigma.mk.inj heq).1)
    exact ⟨publishedRef_status ref response, _, response, hmem⟩

theorem publishOne_keeps (h : Recorded log) :
    Keeps hear Recorded (publishOne task) (fun _ _ => True) log := by
  unfold publishOne
  dsimp only
  split
  · exact ⟨h, trivial⟩
  · refine recorded_ask trivial h fun decision h => ?_
    split
    · exact ⟨h, trivial⟩
    split
    · exact ⟨h, trivial⟩
    split
    · exact ⟨h, trivial⟩
    · exact mintAndPublish_keeps h

theorem publishAll_keeps (candidates : List TaskRow) (h : Recorded log) :
    Keeps hear Recorded (publishAll candidates) (fun _ _ => True) log := by
  induction candidates generalizing log with
  | nil => exact ⟨h, trivial⟩
  | cons candidate rest ih =>
    unfold publishAll
    refine Keeps.bind (Q := fun _ _ => True) ?_ fun _ log h _ => ?_
    · exact (publishOne_keeps h).tryCatch fun _ _ h => ⟨h, trivial⟩
    · exact (ih h).bind fun _ log h _ => ⟨h, trivial⟩

theorem publishApprovedAssets_keeps (taskId : TaskId) :
    Keeps hear Recorded (publishApprovedAssets taskId) (fun _ _ => True) [] := by
  unfold publishApprovedAssets
  have h : Recorded [] := trivial
  refine recorded_ask trivial h fun candidates h => ?_
  refine (publishAll_keeps candidates h).bind fun results log h _ => ?_
  have honly : (onTables (completeWith taskId (sweepRef candidates results))).Only
      Unattempting := by
    refine onTables_only (Prog.Only.bind ?_ fun _ => (completeTask_only taskId).mono ?_)
    · exact ⟨not_attempted_sweepRef candidates results, fun r => by cases r <;> trivial⟩
    · exact fun o ho => unattempting_of_writesNothing ho
  exact (Keeps.of_only honly h fun c a log hc h => h.cons hc).mono fun _ _ _ _ => trivial

end Walk

/-! ## What the rows show -/

/-- A row that counts as published has a null status, and was published. -/
structure Grounded (h : SweepHistory) : Prop where
  rows : ∀ row ∈ h.cur.tables.tasks, ∀ ref, row.resultRef = some ref → Attempted ref →
    Json.get ref "publish_status" = .null ∧
      ∃ i body response pre, ⟨i, .publish row.taskId body, response, pre⟩ ∈ h.log
  reasons : ∀ i taskId body response pre,
    (⟨i, .publish taskId body, response, pre⟩ : Event Call Call.Res Dispatch.World Nat) ∈ h.log →
      response.reason = Publisher.reasonPublished ∨
        response.reason = Publisher.reasonPublishedDryRun

section Run

variable {P : Policies} {w : Dispatch.World}
  {c : Config Call Call.Res Failure SweepHistory Nat TaskId Unit}

/-- A statement of a thread keeps the rows grounded. -/
theorem Grounded.step {h : SweepHistory} {i : Nat} {o : Call} {a b : o.Res} {t : Dispatch.World}
    (hg : Grounded h) (hx : step P o a h.cur = some (b, t))
    (hown : Recorded (⟨o, b⟩ :: h.heard i))
    (hreason : ∀ taskId body, o = .publish taskId body → ∀ response, HEq b response →
      (response : Publisher.PublishResponse).reason = Publisher.reasonPublished ∨
        response.reason = Publisher.reasonPublishedDryRun) :
    Grounded ⟨t, h.arrived, ⟨i, o, b, h.cur⟩ :: h.log⟩ := by
  refine ⟨fun row hrow ref href hatt => ?_, fun j taskId body response pre hmem => ?_⟩
  · rcases step_ref hx row hrow ref href with ⟨row', hrow', hid, href'⟩ | rfl
    · obtain ⟨hnull, j, body, response, pre, hmem⟩ := hg.rows row' hrow' ref href' hatt
      exact ⟨hnull, j, body, response, pre, List.mem_cons_of_mem _ (hid ▸ hmem)⟩
    · obtain ⟨hnull, body, response, hmem⟩ := hown.1 _ ref rfl hatt
      obtain ⟨pre, hmem⟩ := History.mem_heard.1 hmem
      exact ⟨hnull, i, body, response, pre, List.mem_cons_of_mem _ hmem⟩
  · rcases List.mem_cons.1 hmem with heq | hmem
    · obtain ⟨-, rfl, hb, -⟩ := Event.mk.inj heq
      exact hreason taskId body rfl response hb.symm
    · exact hg.reasons j taskId body response pre hmem

theorem grounded_of_reach
    (hw : ∀ row ∈ w.tables.tasks, ∀ ref, row.resultRef = some ref → ¬ Attempted ref)
    (hr : (sweeps P).Reach PublisherAnswers (.idle ⟨w, [], []⟩) c) : Grounded c.shared := by
  let J (c : Config Call Call.Res Failure SweepHistory Nat TaskId Unit) : Prop :=
    (sweeps P).Reach PublisherAnswers (.idle ⟨w, [], []⟩) c → Grounded c.shared
  have h₀ : Grounded ⟨w, [], []⟩ :=
    ⟨fun row hrow ref href hatt => absurd hatt (hw row hrow ref href), nofun⟩
  refine hr.invariant (P := J) (fun _ => h₀) (fun c a hr hg ha => ?_) hr
  have hg := hg hr
  have hr' : (sweeps P).Reach PublisherAnswers (.idle ⟨w, [], []⟩) ((sweeps P).exec c a) :=
    .act a hr ha
  refine Sys.exec_cases (P := J) a (fun _ => hg) ?_ ?_ ?_ ?_
  · intro i r s _ hi hs _
    obtain ⟨-, rfl⟩ := recorded_enter hs
    exact ⟨hg.rows, hg.reasons⟩
  · intro i f r o k out s ha' hi hs hr'
    have hown : Recorded (s.heard i) :=
      hr'.own_keeps (J := fun _ => Recorded) publishApprovedAssets_keeps i r _
        (Config.put_thread.2 (.inl ⟨rfl, rfl, rfl⟩))
    subst ha'
    rcases recorded_reply hs with ⟨-, rfl⟩ | ⟨a', b, t, hf, hx, rfl⟩
    · exact hg
    · rw [History.heard_self] at hown
      refine hg.step hx hown ?_
      rintro taskId body rfl response hb
      obtain rfl := eq_of_heq hb
      -- the step gives the answer that was suggested
      obtain ⟨_, -, heq⟩ := Option.map_eq_some_iff.1 hx
      obtain rfl := (Prod.mk.inj heq).1
      exact ha taskId body _ hf
  · intro i r p _ _ _
    exact hg
  · intro e s _ hs _
    obtain ⟨t, ht, rfl⟩ := recorded_env hs
    refine ⟨fun row hrow ref href hatt => ?_, hg.reasons⟩
    -- a row that counts as published is one that did before
    split at ht
    · next hleaves =>
      obtain rfl := Option.some.inj ht
      have hrow' := List.all_eq_true.1 hleaves row hrow
      rw [href, Option.all_some, Bool.or_eq_true, decide_eq_true_eq] at hrow'
      rcases hrow' with hnot | hany
      · exact absurd hatt hnot
      · obtain ⟨row', hmem, heq⟩ := List.any_eq_true.1 hany
        simp only [Bool.and_eq_true, beq_iff_eq] at heq
        rw [← heq.1]
        exact hg.rows row' hmem ref heq.2 hatt
    · cases ht

/-- Where every counted row has a null status, everything is counted as unknown. -/
theorem sumOf_monthPublishes {render : Json → String} {window : TaskId → Bool}
    {rows : List TaskRow} (hnull : ∀ row ∈ publishedRows window rows,
      publishStatus render row = "unknown") (status : String) :
    Group.sumOf (monthPublishes render window rows) status =
      if status = "unknown" then (publishedRows window rows).length else 0 := by
  unfold monthPublishes
  rw [Group.sumOf_groupSum]
  split
  · next heq =>
    subst heq
    have hall : (publishedRows window rows).filter
        (fun row => publishStatus render row = "unknown") = publishedRows window rows :=
      List.filter_eq_self.2 fun row hrow => by simpa using hnull row hrow
    rw [hall, List.map_const', List.sum_replicate, Nat.nsmul_eq_mul, Nat.mul_one]
  · next hne =>
    have hnone : (publishedRows window rows).filter
        (fun row => publishStatus render row = status) = [] := by
      rw [List.filter_eq_nil_iff]
      intro row hrow heq
      rw [hnull row hrow] at heq
      exact hne (of_decide_eq_true heq).symm
    rw [hnone]
    rfl

theorem accepted_eq_zero_iff {window : TaskId → Bool} {reason : String} {h : SweepHistory} :
    accepted window reason h = 0 ↔ ∀ i taskId body response pre,
      (⟨i, .publish taskId body, response, pre⟩ : Event Call Call.Res Dispatch.World Nat) ∈ h.log →
        window taskId = true → (response : Publisher.PublishResponse).reason ≠ reason := by
  unfold accepted
  rw [List.length_eq_zero_iff, List.filter_eq_nil_iff]
  constructor
  · intro hall i taskId body response pre hmem hwin heq
    exact hall _ hmem (by simp [hwin, heq])
  · rintro hall ⟨i, o, b, pre⟩ hmem
    cases o with
    | publish taskId body =>
      intro htrue
      simp only [Bool.and_eq_true, beq_iff_eq] at htrue
      exact hall i taskId body b pre hmem htrue.1 htrue.2
    | _ => exact Bool.false_ne_true

end Run

/-! ## One approved post -/

/-- No client is registered, and the fact-check gate is open. -/
def openPolicies : Policies := ⟨.ascii, [], true⟩

/-- An approval task that has completed, and asked for an approval. -/
def approvedRow : TaskRow :=
  ⟨⟨0, "schedule"⟩, "weekly-content-loop", "schedule-social-buffer", .completed, 0, [],
    some [("approval_id", .str "approval-1"), ("content_hash", .str "hash-1"),
      ("agent_run_id", .str "run-1"), ("function_id", .str realPublishFunctionId),
      ("subject", .str "Insight-to-story LinkedIn post"), ("vault_asset_id", .str "asset-1"),
      ("campaign", .str "fabric-native"), ("campaign_id", .str "campaign-1")]⟩

/-- The world before its publication. -/
def approvedWorld : Dispatch.World where
  tables := ⟨[approvedRow], [], [], []⟩
  ledger := []
  runs := []
  campaigns := []
  assets := [("asset-1", ⟨"linkedin_post", "run-0", "campaign-1", "39-insight-to-story-editor",
    "A governed source.", "hash-1"⟩)]
  completions := []
  signals := []
  optionCards := []
  pendingCards := []
  opportunityCards := []
  utmCampaignMap := []
  drafts := []
  log := []

/-- Everything succeeds, and the publisher is live. -/
def liveReply : (o : Call) → Reply Failure o.Res
  | .findAwaitingPublication _ => .ok [approvedRow]
  | .getApprovalStatus _ _ _ => .ok (.str publishStatusApproved)
  | .gateCheck _ => .ok [("outcome", .str "approved"), ("gate_token", .str "token-1")]
  | .getAsset _ => .ok ⟨"", "", "", "", "", ""⟩
  | .publish _ body => .ok ⟨"attempt-1", Publisher.outcomePublished, Publisher.reasonPublished,
      .str body.functionId, .str "hash-1", none, .null, some "record-1"⟩
  | .registerUtmCampaign _ _ _ => .ok ()
  | .recordScheduledPost _ => .ok ()
  | .db (.setResultRef _ _) => .ok ()
  | _ => .failed .raised

/-- One sweep, up to the write-back. -/
def sweepActs : List (Act Call Call.Res Failure Nat TaskId Dispatch.World) :=
  .enter 0 ⟨1, "sweep"⟩ :: List.replicate 8 (.step 0 liveReply)

/-- The world after it. -/
def publishedOnce : Config Call Call.Res Failure SweepHistory Nat TaskId Unit :=
  sweepActs.foldl (sweeps openPolicies).exec (.idle ⟨approvedWorld, [], []⟩)

theorem publishedOnce_reach :
    (sweeps openPolicies).Reach PublisherAnswers (.idle ⟨approvedWorld, [], []⟩) publishedOnce := by
  refine Sys.Reach.init.foldl _ fun n => ?_
  have hlive : ∀ c : Config Call Call.Res Failure SweepHistory Nat TaskId Unit,
      PublisherAnswers c (.step 0 liveReply) := by
    rintro c taskId body response (h | ⟨e, h⟩)
    · obtain rfl := Reply.ok.inj h
      exact .inl rfl
    · cases h
  have hmem : sweepActs[n] ∈ sweepActs := List.getElem_mem _
  rcases List.mem_cons.1 hmem with heq | hmem
  · rw [heq]
    trivial
  · rw [List.eq_of_mem_replicate hmem]
    exact hlive _

example : publishedOnce.shared.cur.drafts =
    [⟨"asset-1", "A governed source.", some "campaign-1"⟩] := by decide +kernel

end CanvasOS.Publication
