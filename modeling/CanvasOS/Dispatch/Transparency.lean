/-
  What a review hands on of the draft that it has passed.

  1. `HandsOn` — each `result_ref` that lets a task pass: it is that of an ordinary review, with the
     fields of the draft as the call has read it, or the call has rewritten the draft's own before.
  2. `Transparent` — the draft and the reviews that passed it have the fields that the drafting task
     recorded, and a review names its kind.
  3. `Unrevised` — when this is so: no draft is regenerated that a review has passed, and no review
     passes a draft that was regenerated.
  4. `dailyReviewing` — the same of the daily review, which regenerates nothing, but forgets which
     executive brief its brief belongs to.
-/
import CanvasOS.Dispatch.ComposeOptions
import CanvasOS.Dispatch.Reviewing

namespace CanvasOS.Dispatch

open Interleave Python Orchestrator Review

/-! ## The fields -/

/-- The fields of a draft that those after its reviews read. -/
def handedOn : List String := ["pillar", "campaign", "proof_points"]

/-- `ref` has these fields of `recorded`. -/
def Carries (recorded ref : ResultRef) : Prop :=
  ∀ key ∈ handedOn, Json.get ref key = Json.get recorded key

/-- The `result_ref` lets a review task pass. -/
def Passing (ref : ResultRef) : Prop := Json.get ref "pass" = .bool true

/-- What a review of this kind leaves of a draft that it knows by `seen`. -/
structure HandedOn (kind : ReviewKind) (seen ref : ResultRef) : Prop where
  fields : Carries seen ref
  kind : Json.get ref "review_kind" = .str kind.text
  executive : Json.get ref "executive_brief_id" = .null

/-- A field of a `result_ref` that takes over what the brief has. -/
theorem get_update_carried {base ref : ResultRef} {key : String} :
    Json.get (Json.update base (carriedBriefFields ref)) key =
      ((if key ∈ briefCarriedKeys then Json.lookup ref key else none).or
        (Json.lookup base key)).getD .null := by
  unfold Json.get carriedBriefFields
  rw [Json.lookup_update, lookup_carried]

/-- A `result_ref` that takes over the fields of the brief, and has none of them itself. -/
theorem carries_update {base ref : ResultRef}
    (h : ∀ key ∈ handedOn, Json.lookup base key = none) :
    Carries ref (Json.update base (carriedBriefFields ref)) := by
  intro key hkey
  have hcarried : key ∈ briefCarriedKeys := by
    revert key
    decide
  rw [get_update_carried, if_pos hcarried, h key hkey, Option.or_none]
  rfl

theorem passedRef_handedOn {kind : ReviewKind} {draft : TaskRow} {draftRef : ResultRef}
    {campaignId : Json} {reviewed : Reviewed} :
    HandedOn kind draftRef (passedRef kind draft draftRef campaignId reviewed) where
  fields := carries_update (by simp [handedOn, Json.lookup])
  kind := get_passedRef (by decide)
  executive := get_passedRef (by decide)

/-! ## What a call does -/

section Walk

variable {D : DraftReviews} {log : List Entry} {ref : ResultRef} {α β : Type}

/-- The call has rewritten the draft's `result_ref`. -/
def Rewritten (D : DraftReviews) (log : List Entry) : Prop :=
  ∃ ref, (⟨.db (.setResultRef D.draft ref), ()⟩ : Entry) ∈ log

/-- What holds of a statement after the log. -/
def Hands (D : DraftReviews) (log : List Entry) : Entry → Prop
  | ⟨.db (.insertTaskBatch _), _⟩ => False
  | ⟨.db (.setResultRef taskId ref), _⟩ => Passing ref → Rewritten D log ∨
    ∃ kind seen, taskId = D.task kind ∧ sight D log = some seen ∧ HandedOn kind seen ref
  | _ => True

/-- It holds of all of them. -/
def HandsOn (D : DraftReviews) : List Entry → Prop
  | [] => True
  | entry :: log => Hands D log entry ∧ HandsOn D log

/-- The answers where a review depends on its draft alone, and the draft has left something. -/
def Answers (D : DraftReviews) (_ : List Entry) : Entry → Prop
  | ⟨.db (.getTasks _), rows⟩ => ∀ row ∈ rows,
    (∀ kind, row.taskId = D.task kind → row.dependsOn = [D.draft]) ∧
      (row.taskId = D.draft → ∃ ref, row.resultRef = some ref)
  | _ => True

/-- From the log on, the routine hands on what it passes, and ends in `Q`. -/
abbrev Handing (D : DraftReviews) (p : Routine α) (Q : α → List Entry → Prop)
    (log : List Entry) : Prop :=
  Keeps (listen (Answers D)) (HandsOn D) p Q log

/-- A call that lets nothing pass. -/
def Call.Clear : Call → Prop
  | .db (.insertTaskBatch _) => False
  | .db (.setResultRef _ ref) => ¬ Passing ref
  | _ => True

theorem Call.Clear.hands {c : Call} {a : c.Res} (hc : c.Clear) : Hands D log ⟨c, a⟩ := by
  cases c with
  | db q =>
    cases q with
    | insertTaskBatch tasks => exact hc.elim
    | setResultRef taskId ref => exact fun hpass => absurd hpass hc
    | _ => exact True.intro
  | _ => exact True.intro

theorem Call.Plain.clear {c : Call} (hc : c.Plain) : c.Clear := by
  cases c with
  | db q =>
    cases q with
    | insertTaskBatch tasks | setResultRef taskId ref => exact hc.elim
    | _ => exact True.intro
  | _ => exact True.intro

theorem Handing.ask {c : Call} {f : c.Res → Routine β} {Q : β → List Entry → Prop} (hc : c.Clear)
    (hlog : HandsOn D log)
    (h : ∀ a, HandsOn D (⟨c, a⟩ :: log) → Handing D (f a) Q (⟨c, a⟩ :: log)) :
    Handing D ((CanvasOS.Dispatch.ask c).bind f) Q log :=
  Keeps.listen_bind hlog fun a _ => h a ⟨hc.hands, hlog⟩

/-- A part that lets nothing pass. -/
theorem Handing.clear {Z : List Entry → Prop} {p : Routine α} (hp : p.Only Call.Clear)
    (hlog : HandsOn D log) (hZ : Z log) (hkeep : ∀ entry log, Z log → Z (entry :: log)) :
    Handing D p (fun _ log => Z log) log :=
  Keeps.listen_only hp hlog hZ fun _ _ _ hc _ hlog hZ => ⟨⟨hc.hands, hlog⟩, hkeep _ _ hZ⟩

theorem Handing.of_clear {p : Routine α} (hp : p.Only Call.Clear) (hlog : HandsOn D log) :
    Handing D p (fun _ _ => True) log :=
  Handing.clear (Z := fun _ => True) hp hlog True.intro fun _ _ h => h

/-- A plain part reads no draft. -/
theorem Handing.plain {found : Option ResultRef} {p : Routine α} (hp : p.Only Call.Plain)
    (hlog : HandsOn D log) (h : sight D log = found) :
    Handing D p (fun _ log => sight D log = found) log :=
  Keeps.listen_only hp hlog h fun _ _ _ hc _ hlog h => ⟨⟨hc.clear.hands, hlog⟩, hc.sight.trans h⟩

theorem Handing.ask_plain {c : Call} {f : c.Res → Routine β} {Q : β → List Entry → Prop}
    {found : Option ResultRef} (hc : c.Plain) (hlog : HandsOn D log) (h : sight D log = found)
    (hf : ∀ a, HandsOn D (⟨c, a⟩ :: log) → sight D (⟨c, a⟩ :: log) = found →
      Handing D (f a) Q (⟨c, a⟩ :: log)) :
    Handing D ((CanvasOS.Dispatch.ask c).bind f) Q log :=
  Handing.ask hc.clear hlog fun a hlog' => hf a hlog' (hc.sight.trans h)

theorem Rewritten.cons (entry : Entry) (log : List Entry) (h : Rewritten D log) :
    Rewritten D (entry :: log) :=
  h.imp fun _ hmem => List.mem_cons_of_mem _ hmem

/-! ### The ends of a review -/

theorem clear_perform {c : Call} (hc : c.Clear) : (ask c).Only Call.Clear := Prog.Only.perform hc

theorem clear_of_plain {p : Routine α} (hp : p.Only Call.Plain) : p.Only Call.Clear :=
  hp.mono fun _ hc => hc.clear

theorem clear_statement {site : Site} {q : Query} (hq : (Call.db q).Clear) :
    (call site q).Only fun o => (Call.db o.query).Clear :=
  ⟨hq, fun r => by cases r <;> exact True.intro⟩

/-- A task is completed with a `result_ref` that lets nothing pass. -/
theorem completeWith_clear {taskId : TaskId} (hpass : ¬ Passing ref) :
    (onTables (completeWith taskId ref)).Only Call.Clear := by
  refine onTables_only (Prog.Only.bind (clear_statement hpass) fun _ => ?_)
  refine Prog.Only.bind (clear_statement True.intro) fun _ => ?_
  exact (advanceDependents_plain taskId).mono fun _ ho => Call.Plain.clear ho

theorem blockWith_clear {taskId : TaskId} (hpass : ¬ Passing ref) :
    (onTables (blockWith taskId ref)).Only Call.Clear := by
  refine onTables_only (Prog.Only.bind (clear_statement hpass) fun _ => ?_)
  refine Prog.Only.bind (clear_statement True.intro) fun _ => ?_
  exact clear_statement True.intro

/-- A task is completed with whatever may be written now. -/
theorem completeWith_handing {taskId : TaskId} {Z : List Entry → Prop}
    (hwrite : Hands D log ⟨.db (.setResultRef taskId ref), ()⟩) (hlog : HandsOn D log) (hZ : Z log)
    (hkeep : ∀ entry log, Z log → Z (entry :: log)) :
    Handing D (onTables (completeWith taskId ref)) (fun _ log => Z log) log := by
  unfold completeWith call
  rw [Prog.bind_eq, Prog.op_bind, onTables]
  have hdone : (onTables (completeTask taskId)).Only Call.Clear := by
    refine onTables_only (Prog.Only.bind (clear_statement True.intro) fun _ => ?_)
    exact (advanceDependents_plain taskId).mono fun _ ho => Call.Plain.clear ho
  refine ⟨hlog, fun e => hlog, fun a b t ht => ?_⟩
  obtain ⟨-, rfl⟩ := listen_eq_some ht
  have hlog' : HandsOn D (⟨.db (.setResultRef taskId ref), b⟩ :: log) := ⟨hwrite, hlog⟩
  exact ⟨Handing.clear hdone hlog' (hkeep _ _ hZ) hkeep, fun e => hlog'⟩

/-! ### The retry loop -/

theorem regenerateDraftContent_clear (c : Retry) (calls : Nat) (previousDraftText : String)
    (violations : List String) (attempt : Nat) :
    (regenerateDraftContent c calls previousDraftText violations attempt).Only Call.Clear := by
  unfold regenerateDraftContent
  refine Prog.Only.bind (clear_of_plain (createAgentRun_plain _ _ _)) fun agentRun => ?_
  refine Prog.Only.bind (clear_perform True.intro) fun systemPrompt => ?_
  refine Prog.Only.bind (clear_perform True.intro) fun content => ?_
  refine Prog.Only.bind (clear_of_plain (parseJsonContent_plain content)) fun output => ?_
  cases c.params.renderDraftText output with
  | none => exact True.intro
  | some draftText => exact Prog.Only.bind (clear_perform True.intro) fun _ => True.intro

theorem giveUp_clear (c : Retry) (attempt : Nat) (checks : Checks) :
    (giveUp c attempt checks).Only Call.Clear := by
  have hblocked : ∀ reviews : ReviewTasks,
      (finalizeBlocked c.draft (.str c.campaignId) attempt checks reviews).Only
        fun o => (Call.db o.query).Clear := by
    intro reviews
    induction reviews with
    | nil => exact True.intro
    | cons x rest ih =>
      refine Prog.Only.bind (clear_statement (by rintro ⟨⟩)) fun _ => ?_
      exact Prog.Only.bind (clear_statement True.intro) fun _ => ih
  exact onTables_only ((hblocked c.reviews).bind fun _ => clear_statement True.intro)

/-- Once the draft is rewritten, anything may pass. -/
theorem finalizePassed_handing {c : Retry} {asset : Regenerated} {attempt : Nat} {campaignId : Json}
    {checks : Checks} {reviews : ReviewTasks} (hlog : HandsOn D log) (h : Rewritten D log) :
    Handing D (onTables (finalizePassed c.draft asset campaignId attempt checks reviews))
      (fun _ _ => True) log := by
  induction reviews generalizing log with
  | nil => exact ⟨hlog, True.intro⟩
  | cons x rest ih =>
    obtain ⟨kind, taskId⟩ := x
    rw [finalizePassed_cons, onTables_bind]
    exact (completeWith_handing (fun _ => .inl h) hlog h Rewritten.cons).bind
      fun _ _ hlog h => ih hlog h

theorem retryAttempts_handing {c : Retry} (hdraft : c.draft.taskId = D.draft)
    (left attempt calls : Nat) (currentDraftText : String) (checks : Checks)
    (hlog : HandsOn D log) :
    Handing D (retryAttempts c left attempt calls currentDraftText checks) (fun _ _ => True)
      log := by
  induction left generalizing attempt calls currentDraftText checks log with
  | zero => exact Handing.of_clear (giveUp_clear _ _ _) hlog
  | succ left ih =>
    unfold retryAttempts
    split
    · exact Handing.of_clear (giveUp_clear _ _ _) hlog
    · refine (Handing.of_clear (regenerateDraftContent_clear _ _ _ _ _) hlog).bind
        fun revised log₁ hlog₁ _ => ?_
      refine Handing.ask True.intro hlog₁ fun stored hlog₂ => ?_
      have hclear : (Call.db (.setResultRef c.draft.taskId
          (regeneratedRef c ⟨stored.1, stored.2, revised.2⟩ attempt))).Clear := (by rintro ⟨⟩)
      refine Handing.ask hclear hlog₂ fun _ hlog₃ => ?_
      have h₃ : Rewritten D (⟨.db (.setResultRef c.draft.taskId
          (regeneratedRef c ⟨stored.1, stored.2, revised.2⟩ attempt)), ()⟩ ::
          ⟨.createAsset c.params.assetType revised.2 c.campaignId c.params.functionId revised.1,
            stored⟩ :: log₁) := ⟨_, by rw [hdraft]; exact List.mem_cons_self⟩
      refine (Handing.clear (clear_of_plain (runSingleQaCheck_plain _ _ _ _ _)) hlog₃ h₃
        Rewritten.cons).bind fun bs log₄ hlog₄ h₄ => ?_
      refine (Handing.clear (clear_of_plain (recheckFacts_plain _ _ _)) hlog₄ h₄
        Rewritten.cons).bind fun fc log₅ hlog₅ h₅ => ?_
      dsimp only
      split
      · exact finalizePassed_handing hlog₅ h₅
      · exact ih _ _ _ _ hlog₅

theorem resolveLineageResult_clear (taskId : TaskId) :
    (onTables (resolveLineageResult taskId)).Only Call.Clear := by
  refine onTables_only ((walkLineage_reads _ _ _ _).mono fun o ho => ?_)
  obtain ⟨ids, hids⟩ := ho
  rw [hids]
  exact True.intro

theorem runQaRetryLoop_handing {envelope : Envelope} {kind : ReviewKind} {draft : TaskRow}
    {params : RegenParams} {violations : List String} {draftText : String}
    (hdraft : draft.taskId = D.draft) (hlog : HandsOn D log) :
    Handing D (runQaRetryLoop envelope kind draft params violations draftText) (fun _ _ => True)
      log := by
  unfold runQaRetryLoop
  refine Handing.ask True.intro hlog fun siblings hlog₁ => ?_
  refine (Handing.of_clear (resolveLineageResult_clear _) hlog₁).bind fun found log₂ hlog₂ _ => ?_
  cases found with
  | none => exact Handing.of_clear (blockWith_clear (by rintro ⟨⟩)) hlog₂
  | some found =>
    obtain ⟨ancestor, ancestorRef⟩ := found
    have hbrief : (briefBodyOf ancestorRef).Only Call.Clear := by
      unfold briefBodyOf
      split
      · exact clear_perform True.intro
      · exact True.intro
    refine (Handing.of_clear hbrief hlog₂).bind fun briefBody log₃ hlog₃ _ => ?_
    exact Handing.ask True.intro hlog₃ fun campaignId hlog₄ =>
      retryAttempts_handing hdraft _ _ _ _ _ hlog₄

/-! ### The handlers -/

theorem retryOrBlock_handing {envelope : Envelope} {kind : ReviewKind} {draft : TaskRow}
    {campaignId draftText agentRun : String} {violations : List String}
    (hdraft : draft.taskId = D.draft) (hlog : HandsOn D log) :
    Handing D (retryOrBlock envelope kind draft campaignId draftText agentRun violations)
      (fun _ _ => True) log := by
  have hblock : ∀ log, HandsOn D log → Handing D (onTables (finalizeQaFailure envelope.taskId
      violations draft (.str agentRun) (.str campaignId))) (fun _ _ => True) log :=
    fun log hlog => Handing.of_clear (blockWith_clear (by rintro ⟨⟩)) hlog
  unfold retryOrBlock
  cases draftRegenParams draft.taskType with
  | none => exact hblock _ hlog
  | some params =>
    dsimp only
    split
    · exact hblock _ hlog
    · refine Handing.ask True.intro hlog fun locked hlog₁ => ?_
      have hrelease : (ask (.db (.releaseAdvisoryLock draft.taskId))).Only Call.Clear :=
        clear_perform True.intro
      split
      · exact Keeps.thenFinally (runQaRetryLoop_handing hdraft hlog₁)
          (fun _ _ hlog _ => Handing.of_clear hrelease hlog)
          (fun _ hlog => Handing.of_clear hrelease hlog)
      · exact hblock _ hlog₁

/-- An ordinary review hands on what it has read. -/
theorem reviewDraft_handing {envelope : Envelope} {kind : ReviewKind} {draft : TaskRow}
    {draftRef : ResultRef} {campaignId systemPrompt : String}
    (hid : envelope.taskId = D.task kind) (hdraft : draft.taskId = D.draft) (hlog : HandsOn D log)
    (h : sight D log = some draftRef) :
    Handing D (reviewDraft envelope kind draft draftRef campaignId systemPrompt) (fun _ _ => True)
      log := by
  unfold reviewDraft
  refine Handing.ask_plain True.intro hlog h fun asset hlog₁ h₁ => ?_
  dsimp only
  split
  · exact hlog₁
  refine (Handing.plain (createAgentRun_plain _ _ _) hlog₁ h₁).bind fun agentRun log₂ hlog₂ h₂ => ?_
  have hcomplete : (Call.complete ⟨"claude-sonnet", systemPrompt,
      reviewPayload kind (reviewableDraftText asset.text) (reviewChannel draft.taskType)
        (orEmpty (Json.get draftRef "proof_points")), agentRun, publicSourceContent, 1536,
      agentRun⟩).Plain := by
    cases kind <;> rfl
  refine Handing.ask_plain hcomplete hlog₂ h₂ fun content hlog₃ h₃ => ?_
  refine (Handing.plain (parseJsonContent_plain content) hlog₃ h₃).bind
    fun verdict log₄ hlog₄ h₄ => ?_
  cases resolveVerdict kind verdict with
  | none => exact hlog₄
  | some resolved =>
    refine Handing.ask_plain True.intro hlog₄ h₄ fun uncleared hlog₅ h₅ => ?_
    refine Handing.ask_plain True.intro hlog₅ h₅ fun reconciled hlog₆ h₆ => ?_
    refine Handing.ask_plain True.intro hlog₆ h₆ fun _ hlog₇ h₇ => ?_
    split
    · refine (completeWith_handing (Z := fun _ => True) (fun _ => .inr ?_) hlog₇ True.intro
        fun _ _ h => h)
      exact ⟨kind, draftRef, hid, h₇, passedRef_handedOn⟩
    · exact retryOrBlock_handing hdraft hlog₇

/-- A gate reads the draft that it depends on. -/
theorem lineage_of_gate (kind : ReviewKind) :
    Handing D (onTables (resolveLineageResult (D.task kind))) (fun found log =>
      ∀ row ref, found = some (row, ref) → row.taskId = D.draft ∧ sight D log = some ref) [] := by
  refine (lineage_of_single (D.apart kind) (A := Answers D) (fun log ids rows h row hrow =>
    ⟨(h row hrow).1 kind, (h row hrow).2⟩) True.intro fun log ids rows hlog =>
      ⟨True.intro, hlog⟩).mono fun found log _ h row ref heq => ?_
  obtain ⟨hid, href, rows, rows', rfl, hfind, -⟩ := h row ref heq
  refine ⟨hid, ?_⟩
  unfold sight
  rw [hfind]
  exact href

/-- Every call of a Thursday review hands on what it passes. -/
theorem body_handing (D : DraftReviews) (r : ReviewCall) :
    Handing D (D.body r) (fun _ _ => True) [] := by
  unfold DraftReviews.body singleDraftQaReview
  refine (lineage_of_gate r.kind).bind fun found log hlog hfound => ?_
  cases found with
  | none => exact hlog
  | some found =>
    obtain ⟨draft, draftRef⟩ := found
    obtain ⟨hdraft, h⟩ := hfound draft draftRef rfl
    refine Handing.ask_plain True.intro hlog h fun systemPrompt hlog₁ h₁ => ?_
    refine Handing.ask_plain True.intro hlog₁ h₁ fun campaignId hlog₂ h₂ => ?_
    dsimp only
    split
    · cases hkind : r.kind with
      | brandSteward =>
        exact reviewDraft_handing rfl hdraft hlog₂ h₂
      | factCheck =>
        refine Handing.ask_plain True.intro hlog₂ h₂ fun approved hlog₃ h₃ => ?_
        split
        · exact reviewDraft_handing rfl hdraft hlog₃ h₃
        · exact Handing.of_clear (blockWith_clear (by rintro ⟨⟩)) hlog₃
    split
    · exact Handing.of_clear (completeWith_clear (by rintro ⟨⟩)) hlog₂
    · refine Handing.of_clear (Prog.Only.bind (clear_perform (by rintro ⟨⟩)) fun _ => ?_) hlog₂
      exact clear_perform True.intro

theorem dailyPassedRef_handedOn {ancestor : TaskRow} {ancestorRef : ResultRef}
    {campaignId agentRun : String} :
    HandedOn .brandSteward ancestorRef
      (dailyPassedRef ancestor ancestorRef campaignId agentRun) where
  fields := carries_update (by simp [handedOn, Json.lookup])
  kind := get_update_own (by decide)
  executive := get_update_own (by decide)

theorem dailyText_plain (ancestor : TaskRow) (ancestorRef : ResultRef) :
    (dailyText ancestor ancestorRef).Only Call.Plain := by
  unfold dailyText
  split
  · split
    · exact True.intro
    · exact Prog.Only.bind (plain_perform True.intro) fun _ => True.intro
  · split
    · exact True.intro
    · exact Prog.Only.bind (plain_perform True.intro) fun _ => True.intro

theorem reviewDaily_handing {envelope : Envelope} {ancestor : TaskRow} {ancestorRef : ResultRef}
    {campaignId channel draftText : String} (hid : envelope.taskId = D.task .brandSteward)
    (hlog : HandsOn D log) (h : sight D log = some ancestorRef) :
    Handing D (reviewDaily envelope ancestor ancestorRef campaignId channel draftText)
      (fun _ _ => True) log := by
  unfold reviewDaily
  refine (Handing.plain (createAgentRun_plain _ _ _) hlog h).bind fun agentRun log₁ hlog₁ h₁ => ?_
  refine Handing.ask_plain True.intro hlog₁ h₁ fun systemPrompt hlog₂ h₂ => ?_
  show Handing D (if _ then _ else _) _ _
  split
  · exact hlog₂
  refine Handing.ask_plain rfl hlog₂ h₂ fun content hlog₃ h₃ => ?_
  refine (Handing.plain (parseJsonContent_plain content) hlog₃ h₃).bind
    fun verdict log₄ hlog₄ h₄ => ?_
  dsimp only
  split
  · exact hlog₄
  · refine Handing.ask_plain True.intro hlog₄ h₄ fun named hlog₅ h₅ => ?_
    refine Handing.ask_plain True.intro hlog₅ h₅ fun uncleared hlog₆ h₆ => ?_
    refine Handing.ask_plain True.intro hlog₆ h₆ fun reconciled hlog₇ h₇ => ?_
    refine Handing.ask_plain True.intro hlog₇ h₇ fun _ hlog₈ h₈ => ?_
    unfold finishDaily
    split
    · refine (completeWith_handing (Z := fun _ => True) (fun _ => .inr ?_) hlog₈ True.intro
        fun _ _ h => h)
      exact ⟨.brandSteward, ancestorRef, hid, h₈, dailyPassedRef_handedOn⟩
    · exact Handing.of_clear (blockWith_clear (by rintro ⟨⟩)) hlog₈

end Walk

/-! ## The systems -/

/-- A call of the daily review, its envelope but for the task. -/
structure DailyCall where
  campaignName : String
  proofCircuit : Bool

/-- `qa_review_handler`, called for a brief or a draft made from it. -/
def DraftReviews.dailyBody (D : DraftReviews) (r : DailyCall) : Routine Unit :=
  qaReviewHandler ⟨D.task .brandSteward, r.campaignName, r.proofCircuit⟩

/-- Daily reviews, statement by statement; the rest of the orchestrator moves in between. -/
def dailyReviewing (D : DraftReviews) (P : Policies) :
    Sys Call Call.Res Failure (History Call Call.Res World Nat DailyCall) Nat DailyCall Unit
      { f : World → World // ∀ w, Elsewhere D w (f w) } :=
  recorded D.dailyBody (fun _ => exec P) fun f w => some (f.1 w)

theorem dailyBody_handing (D : DraftReviews) (r : DailyCall) :
    Handing D (D.dailyBody r) (fun _ _ => True) [] := by
  unfold DraftReviews.dailyBody qaReviewHandler
  refine (lineage_of_gate .brandSteward).bind fun found log hlog hfound => ?_
  cases found with
  | none => exact hlog
  | some found =>
    obtain ⟨ancestor, ancestorRef⟩ := found
    obtain ⟨-, h⟩ := hfound ancestor ancestorRef rfl
    show Handing D (if _ then _ else _) _ _
    split
    · exact Handing.of_clear (completeWith_clear (by rintro ⟨⟩)) hlog
    · refine Handing.ask_plain True.intro hlog h fun campaignId hlog₁ h₁ => ?_
      refine (Handing.plain (dailyText_plain _ _) hlog₁ h₁).bind fun given log₂ hlog₂ h₂ => ?_
      cases given.2 with
      | str draftText => exact reviewDaily_handing rfl hlog₂ h₂
      | _ => exact hlog₂

/-- A call that leaves the draft's own `result_ref` alone. -/
def Call.Apart (D : DraftReviews) (c : Call) : Prop := ∀ ref, c ≠ .db (.setResultRef D.draft ref)

theorem Call.Plain.apart {D : DraftReviews} {c : Call} (hc : c.Plain) : c.Apart D := by
  rintro ref rfl
  exact hc

theorem Call.Apart.of_ne {D : DraftReviews} {taskId : TaskId} {ref : ResultRef}
    (hid : taskId ≠ D.draft) : (Call.db (.setResultRef taskId ref)).Apart D :=
  fun _ heq => hid (Query.setResultRef.inj (Call.db.inj heq)).1

theorem apart_of_plain {D : DraftReviews} {α : Type} {p : Routine α} (hp : p.Only Call.Plain) :
    p.Only (Call.Apart D) := hp.mono fun _ hc => hc.apart

theorem apart_statement {D : DraftReviews} {site : Site} {q : Query} (hq : (Call.db q).Apart D) :
    (call site q).Only fun o => (Call.db o.query).Apart D :=
  ⟨hq, fun r => by cases r <;> exact True.intro⟩

/-- A review that ends leaves the draft alone. -/
theorem completeWith_apart {D : DraftReviews} {taskId : TaskId} {ref : ResultRef}
    (hid : taskId ≠ D.draft) : (onTables (completeWith taskId ref)).Only (Call.Apart D) := by
  refine onTables_only (Prog.Only.bind (apart_statement (.of_ne hid)) fun _ => ?_)
  refine Prog.Only.bind (apart_statement (by rintro _ ⟨⟩)) fun _ => ?_
  exact (advanceDependents_plain taskId).mono fun _ ho => Call.Plain.apart ho

theorem blockWith_apart {D : DraftReviews} {taskId : TaskId} {ref : ResultRef}
    (hid : taskId ≠ D.draft) : (onTables (blockWith taskId ref)).Only (Call.Apart D) := by
  refine onTables_only (Prog.Only.bind (apart_statement (.of_ne hid)) fun _ => ?_)
  refine Prog.Only.bind (apart_statement (by rintro _ ⟨⟩)) fun _ => ?_
  exact apart_statement (by rintro _ ⟨⟩)

theorem reviewDaily_apart {D : DraftReviews} {envelope : Envelope} {ancestor : TaskRow}
    {ancestorRef : ResultRef} {campaignId channel draftText : String}
    (hid : envelope.taskId ≠ D.draft) :
    (reviewDaily envelope ancestor ancestorRef campaignId channel draftText).Only
      (Call.Apart D) := by
  unfold reviewDaily
  refine Prog.Only.bind (apart_of_plain (createAgentRun_plain _ _ _)) fun agentRun => ?_
  refine Prog.Only.bind (apart_of_plain (plain_perform True.intro)) fun systemPrompt => ?_
  show Prog.Only (Call.Apart D) (if _ then _ else _)
  split
  · exact True.intro
  refine Prog.Only.bind (apart_of_plain (plain_perform rfl)) fun content => ?_
  refine Prog.Only.bind (apart_of_plain (parseJsonContent_plain content)) fun verdict => ?_
  dsimp only
  split
  · exact True.intro
  · refine Prog.Only.bind (apart_of_plain (plain_perform True.intro)) fun named => ?_
    refine Prog.Only.bind (apart_of_plain (plain_perform True.intro)) fun uncleared => ?_
    refine Prog.Only.bind (apart_of_plain (plain_perform True.intro)) fun reconciled => ?_
    refine Prog.Only.bind (apart_of_plain (plain_perform True.intro)) fun _ => ?_
    unfold finishDaily
    split
    · exact completeWith_apart hid
    · exact blockWith_apart hid

/-- A daily review rewrites its own `result_ref` alone. -/
theorem dailyBody_apart (D : DraftReviews) (r : DailyCall) :
    (D.dailyBody r).Only (Call.Apart D) := by
  have hid : D.task .brandSteward ≠ D.draft := D.apart _
  have hlineage : (onTables (resolveLineageResult (D.task .brandSteward))).Only
      (Call.Apart D) := by
    refine onTables_only ((walkLineage_reads _ _ _ _).mono fun o ho => ?_)
    obtain ⟨ids, hids⟩ := ho
    rw [hids]
    rintro _ ⟨⟩
  unfold DraftReviews.dailyBody qaReviewHandler
  refine Prog.Only.bind hlineage fun found => ?_
  cases found with
  | none => exact True.intro
  | some found =>
    show Prog.Only (Call.Apart D) (if _ then _ else _)
    split
    · exact completeWith_apart hid
    · refine Prog.Only.bind (apart_of_plain (plain_perform True.intro)) fun campaignId => ?_
      refine Prog.Only.bind (apart_of_plain (dailyText_plain _ _)) fun given => ?_
      cases given.2 with
      | str draftText => exact reviewDaily_apart hid
      | _ => exact True.intro

/-! ## What is promised -/

/-- The rows before the reviews: the draft has left `recorded`, and nothing has passed it. -/
structure Drafted (D : DraftReviews) (recorded : ResultRef) (w : World) : Prop where
  distinct : Function.Injective D.task
  depends : ∀ row ∈ w.tables.tasks, ∀ kind, row.taskId = D.task kind → row.dependsOn = [D.draft]
  draft : ∀ row ∈ w.tables.tasks, row.taskId = D.draft → row.resultRef = some recorded
  unreviewed : ∀ row ∈ w.tables.tasks, ∀ kind, row.taskId = D.task kind → ∀ ref,
    row.resultRef = some ref → ¬ Passing ref

/-- The draft, once it is passed, and the reviews that passed it have the fields that were recorded;
    and each review names its kind. -/
structure Transparent (D : DraftReviews) (recorded : ResultRef) (w : World) : Prop where
  draft : (∃ kind, Passed w (D.task kind)) → ∀ row ∈ w.tables.tasks, row.taskId = D.draft →
    ∀ ref, row.resultRef = some ref → Carries recorded ref
  reviews : ∀ kind, ∀ row ∈ w.tables.tasks, row.taskId = D.task kind → passedRow row = true →
    ∀ ref, row.resultRef = some ref →
      Carries recorded ref ∧ Json.get ref "review_kind" = .str kind.text

/-- A passed review names the executive brief that was recorded. -/
def NamesExecutive (D : DraftReviews) (recorded : ResultRef) (w : World) : Prop :=
  ∀ row ∈ w.tables.tasks, row.taskId = D.task .brandSteward → passedRow row = true →
    ∀ ref, row.resultRef = some ref →
      Json.get ref "executive_brief_id" = Json.get recorded "executive_brief_id"

section System

variable {ρ : Type}

abbrev GateHistory (ρ : Type) := History Call Call.Res World Nat ρ

/-- A configuration of either system. -/
abbrev GateConfig (ρ : Type) := Config Call Call.Res Failure (GateHistory ρ) Nat ρ Unit

/-- Nobody has rewritten the draft's `result_ref`. -/
def Original (D : DraftReviews) (h : GateHistory ρ) : Prop := ∀ e ∈ h.log, e.op.Apart D

/-- A `result_ref` is written that disturbs no review: the draft's while nothing has passed it, and
    one that passes while the draft is the original one. -/
structure UnrevisedStmt (D : DraftReviews) (c : GateConfig ρ) (taskId : TaskId) (ref : ResultRef) :
    Prop where
  draft : taskId = D.draft → ∀ row ∈ c.shared.cur.tables.tasks, ∀ kind,
    row.taskId = D.task kind → ∀ ref', row.resultRef = some ref' → ¬ Passing ref'
  passing : Passing ref → Original D c.shared

/-- It is met by every step that writes one. -/
def Unrevised {E : Type} (D : DraftReviews) (c : GateConfig ρ) :
    Act Call Call.Res Failure Nat ρ E → Prop
  | .step i _ => ∀ r taskId ref k,
    c.thread i = some (r, some (.op (.db (.setResultRef taskId ref)) k)) →
      UnrevisedStmt D c taskId ref
  | _ => True

/-! ## The invariant -/

/-- The original draft is what was recorded, and what is handed on comes from it. -/
structure Handed (D : DraftReviews) (recorded : ResultRef) (h : GateHistory ρ) : Prop where
  depends : ∀ row ∈ h.cur.tables.tasks, ∀ kind, row.taskId = D.task kind →
    row.dependsOn = [D.draft]
  draft : ∀ row ∈ h.cur.tables.tasks, row.taskId = D.draft →
    ∃ ref, row.resultRef = some ref ∧ (Original D h → ref = recorded)
  sights : Original D h → ∀ i ref, sight D (h.heard i) = some ref → ref = recorded
  passed : ∀ row ∈ h.cur.tables.tasks, ∀ kind, row.taskId = D.task kind → ∀ ref,
    row.resultRef = some ref → Passing ref → Original D h ∧ HandedOn kind recorded ref

variable {D : DraftReviews} {P : Policies} {recorded : ResultRef} {h : GateHistory ρ} {i : Nat}
  {o : Call} {a b : o.Res} {t w w' : World}

theorem Drafted.handed (hw : Drafted D recorded w) :
    Handed D recorded (⟨w, [], []⟩ : GateHistory ρ) :=
  ⟨hw.depends, fun row hrow hid => ⟨recorded, hw.draft row hrow hid, fun _ => rfl⟩,
    by rintro - i ref ⟨⟩,
    fun row hrow kind hid ref href hpass => absurd hpass (hw.unreviewed row hrow kind hid ref href)⟩

theorem Handed.elsewhere (hG : Handed D recorded h) (he : Elsewhere D h.cur w') :
    Handed D recorded { h with cur := w' } := by
  refine ⟨fun row' hrow' kind hid => ?_, fun row' hrow' hid => ?_, hG.sights,
    fun row' hrow' kind hid ref href hpass => ?_⟩
  · obtain ⟨row, hrow, hid', -, hdeps, -⟩ := he.rows row' hrow' (.inr ⟨kind, hid⟩)
    rw [← hdeps]
    exact hG.depends row hrow kind (hid'.trans hid)
  · obtain ⟨row, hrow, hid', -, -, href, -⟩ := he.rows row' hrow' (.inl hid)
    rw [← href]
    exact hG.draft row hrow (hid'.trans hid)
  · obtain ⟨row, hrow, hid', -, -, href', -⟩ := he.rows row' hrow' (.inr ⟨kind, hid⟩)
    exact hG.passed row hrow kind (hid'.trans hid) ref (href'.trans href) hpass

/-- Every answer is to be expected. -/
theorem Handed.answers (hG : Handed D recorded h) (hx : exec P o a h.cur = some (b, t)) :
    Answers D (h.heard i) ⟨o, b⟩ := by
  cases o with
  | db q =>
    cases q with
    | getTasks ids =>
      intro row hrow
      have hmem := mem_of_getTasks hx row hrow
      refine ⟨hG.depends row hmem, fun hid => ?_⟩
      obtain ⟨ref, href, -⟩ := hG.draft row hmem hid
      exact ⟨ref, href⟩
    | _ => exact True.intro
  | _ => exact True.intro

/-- Where the draft is the original one, a call has seen what was recorded. -/
theorem Handed.sights_after (hG : Handed D recorded h) (hx : exec P o a h.cur = some (b, t))
    (horiginal : Original D (h.after i o b t)) {j : Nat} {ref : ResultRef}
    (hsight : sight D ((h.after i o b t).heard j) = some ref) : ref = recorded := by
  have hold : Original D h := fun e he => horiginal e (List.mem_cons_of_mem _ he)
  have hapart : o.Apart D := horiginal _ List.mem_cons_self
  rw [History.heard_after] at hsight
  split at hsight
  · cases o with
    | db q =>
      cases q with
      | setResultRef taskId ref₁ =>
        unfold sight at hsight
        split at hsight
        · next hid => exact absurd (by rw [hid]) (hapart ref₁)
        · exact hG.sights hold i ref hsight
      | getTasks ids =>
        unfold sight at hsight
        cases hfind : b.find? fun row => row.taskId == D.draft with
        | none =>
          rw [hfind] at hsight
          exact hG.sights hold i ref hsight
        | some row =>
          rw [hfind] at hsight
          obtain ⟨hmem, hid⟩ := find_taskId hfind
          obtain ⟨ref', href, heq⟩ := hG.draft row (mem_of_getTasks hx row hmem) hid
          dsimp only at hsight
          rw [href] at hsight
          rw [← Option.some.inj hsight]
          exact heq hold
      | _ => exact hG.sights hold i ref hsight
    | _ => exact hG.sights hold i ref hsight
  · exact hG.sights hold j ref hsight

theorem Hands.no_batch {log : List Entry} (hh : Hands D log ⟨o, b⟩) :
    ∀ tasks, o ≠ .db (.insertTaskBatch tasks) := by
  rintro tasks rfl
  exact hh

/-- What a call has said is in the log. -/
theorem Original.not_rewritten (horiginal : Original D h) : ¬ Rewritten D (h.heard i) := by
  rintro ⟨ref, hmem⟩
  obtain ⟨pre, hmem⟩ := History.mem_heard.1 hmem
  exact horiginal _ hmem ref rfl

/-- An executed statement that meets the condition keeps the invariant. -/
theorem Handed.step (hdistinct : Function.Injective D.task) (hG : Handed D recorded h)
    (hx : exec P o a h.cur = some (b, t)) (hh : Hands D (h.heard i) ⟨o, b⟩)
    (hdraft : ∀ ref, o = .db (.setResultRef D.draft ref) → ∀ row ∈ h.cur.tables.tasks, ∀ kind,
      row.taskId = D.task kind → ∀ ref', row.resultRef = some ref' → ¬ Passing ref')
    (hpassing : ∀ taskId ref, o = .db (.setResultRef taskId ref) → Passing ref → Original D h) :
    Handed D recorded (h.after i o b t) := by
  have hrows := exec_rows hx hh.no_batch
  have hold : Original D (h.after i o b t) → Original D h :=
    fun horiginal e he => horiginal e (List.mem_cons_of_mem _ he)
  -- the `result_ref` of a row is what it was, or was just written
  have hwas : ∀ row, o.refAfter row = row.resultRef ∨
      ∃ ref, o = .db (.setResultRef row.taskId ref) ∧ o.refAfter row = some ref := by
    intro row
    cases o with
    | db q =>
      cases q with
      | setResultRef taskId ref =>
        by_cases hid : row.taskId = taskId
        · exact .inr ⟨ref, by rw [hid], if_pos hid⟩
        · exact .inl (if_neg hid)
      | _ => exact .inl rfl
    | _ => exact .inl rfl
  refine ⟨fun row' hrow' kind hid => ?_, fun row' hrow' hid => ?_,
    fun horiginal j ref => hG.sights_after hx horiginal,
    fun row' hrow' kind hid ref href hpass => ?_⟩
  · obtain ⟨row, hrow, hafter⟩ := hrows row' hrow'
    rw [hafter.dependsOn]
    exact hG.depends row hrow kind (hafter.taskId.symm.trans hid)
  · obtain ⟨row, hrow, hafter⟩ := hrows row' hrow'
    have hid' : row.taskId = D.draft := hafter.taskId.symm.trans hid
    obtain ⟨ref, href, heq⟩ := hG.draft row hrow hid'
    rw [hafter.resultRef]
    rcases hwas row with hsame | ⟨ref', ho, hset⟩
    · exact ⟨ref, hsame.trans href, fun horiginal => heq (hold horiginal)⟩
    · refine ⟨ref', hset, fun horiginal => ?_⟩
      rw [hid'] at ho
      exact absurd ho (horiginal _ List.mem_cons_self ref')
  · obtain ⟨row, hrow, hafter⟩ := hrows row' hrow'
    have hid' : row.taskId = D.task kind := hafter.taskId.symm.trans hid
    rw [hafter.resultRef] at href
    rcases hwas row with hsame | ⟨ref', ho, hset⟩
    · rw [hsame] at href
      obtain ⟨horiginal, hhanded⟩ := hG.passed row hrow kind hid' ref href hpass
      refine ⟨fun e he => ?_, hhanded⟩
      rcases List.mem_cons.1 he with rfl | he
      · exact fun ref' ho => hdraft ref' ho row hrow kind hid' ref href hpass
      · exact horiginal e he
    · rw [hset] at href
      obtain rfl := Option.some.inj href
      have horiginal := hpassing _ _ ho hpass
      refine ⟨fun e he => ?_, ?_⟩
      · rcases List.mem_cons.1 he with rfl | he
        · show o.Apart D
          rw [ho, hid']
          exact .of_ne (D.apart kind)
        · exact horiginal e he
      · -- the review has handed on what it has seen
        subst ho
        rcases hh hpass with hrewritten | ⟨kind', seen, htask, hsight, hhanded⟩
        · exact absurd hrewritten horiginal.not_rewritten
        · obtain rfl := hdistinct (htask.symm.trans hid')
          rw [hG.sights horiginal i seen hsight] at hhanded
          exact hhanded

/-- Every run of a gate that hands on what it passes, and meets the condition. -/
theorem handed {body : ρ → Routine Unit} {c : GateConfig ρ}
    (hbody : ∀ r, Handing D (body r) (fun _ _ => True) []) (hw : Drafted D recorded w)
    (hr : (Interleave.recorded body (fun _ => exec P) fun (f : { f : World → World //
      ∀ w, Elsewhere D w (f w) }) w => some (f.1 w)).Reach (Unrevised D) (.idle ⟨w, [], []⟩) c) :
    Handed D recorded c.shared := by
  refine Sys.Reach.sound_own (K := fun c => Handed D recorded c.shared) hbody hw.handed ?_ ?_ ?_ ?_
    ?_ ?_ hr
  · exact fun c i r _ hG _ _ _ => ⟨hG.depends, hG.draft, hG.sights, hG.passed⟩
  · exact fun c i r o k e hG _ => hG
  · exact fun c i r p hG _ => hG
  · exact fun c i r o k a b t hG _ hx => hG.answers hx
  · intro c i f r o k out a b t hok _ hG hi hx hJ
    refine hG.step hw.distinct hx hJ.1 ?_ ?_
    · rintro ref rfl
      exact (hok r _ ref k hi).draft rfl
    · rintro taskId ref rfl
      exact (hok r taskId ref k hi).passing
  · intro c e w' _ hG hw'
    obtain rfl := Option.some.inj hw'
    exact hG.elsewhere (e.2 c.shared.cur)

theorem passing_of_passedRow {row : TaskRow} {ref : ResultRef} (hp : passedRow row = true)
    (href : row.resultRef = some ref) : Passing ref := by
  unfold passedRow at hp
  rw [href, Bool.and_eq_true, Option.any_some] at hp
  exact beq_iff_eq.1 hp.2

theorem resultRef_of_passedRow {row : TaskRow} (hp : passedRow row = true) :
    ∃ ref, row.resultRef = some ref := by
  unfold passedRow at hp
  cases hres : row.resultRef with
  | none =>
    rw [hres] at hp
    simp at hp
  | some ref => exact ⟨ref, rfl⟩

theorem Handed.transparent (hG : Handed D recorded h) : Transparent D recorded h.cur := by
  refine ⟨?_, fun kind row hrow hid hp ref href => ?_⟩
  · rintro ⟨kind, row, hrow, hid, hp⟩ row' hrow' hid' ref' href'
    obtain ⟨ref, href⟩ := resultRef_of_passedRow hp
    have horiginal := (hG.passed row hrow kind hid ref href (passing_of_passedRow hp href)).1
    obtain ⟨ref₁, href₁, heq⟩ := hG.draft row' hrow' hid'
    rw [href'] at href₁
    rw [Option.some.inj href₁, heq horiginal]
    exact fun _ _ => rfl
  · have hhanded := (hG.passed row hrow kind hid ref href (passing_of_passedRow hp href)).2
    exact ⟨hhanded.fields, hhanded.kind⟩

end System

/-! ## What the gates do -/

/-- A daily review rewrites no draft. -/
theorem daily_unrevised {D : DraftReviews} {P : Policies} {w₀ : World} {c : GateConfig DailyCall}
    (hr : (dailyReviewing D P).Reach Sys.free (.idle ⟨w₀, [], []⟩) c) :
    (dailyReviewing D P).Reach (Unrevised D) (.idle ⟨w₀, [], []⟩) c := by
  refine hr.strengthen fun c a hr _ => ?_
  have horiginal : Original D c.shared := by
    intro e he
    obtain ⟨-, -, -, hapart⟩ := hr.ops_only (P := fun _ => Call.Apart D) (dailyBody_apart D) e he
    exact hapart
  cases a with
  | step i f =>
    intro r taskId ref k hi
    have hapart := (hr.threads_only (P := fun _ => Call.Apart D) (dailyBody_apart D) i r _ hi).1
    exact ⟨fun hid => absurd (by rw [hid]) (hapart ref), fun _ => horiginal⟩
  | _ => exact trivial

/-- In every run that meets the condition, the Thursday reviews are transparent.  The daily review
    always is, but for the executive brief, which it names only where there is none. -/
theorem gates_transparent {D : DraftReviews} {P : Policies} {recorded : ResultRef} {w₀ : World}
    (hw : Drafted D recorded w₀) :
    (∀ c, (reviewing D P).Reach (Unrevised D) (.idle ⟨w₀, [], []⟩) c →
      Transparent D recorded c.shared.cur) ∧
    ∀ c, (dailyReviewing D P).Reach Sys.free (.idle ⟨w₀, [], []⟩) c →
      Transparent D recorded c.shared.cur ∧
        (Passed c.shared.cur (D.task .brandSteward) →
          (NamesExecutive D recorded c.shared.cur ↔
            Json.get recorded "executive_brief_id" = .null)) := by
  refine ⟨fun c hr => (handed (body_handing D) hw hr).transparent, fun c hr => ?_⟩
  have hG := handed (dailyBody_handing D) hw (daily_unrevised hr)
  -- a passed review names none
  have hnone : ∀ row ∈ c.shared.cur.tables.tasks, row.taskId = D.task .brandSteward →
      passedRow row = true → ∀ ref, row.resultRef = some ref →
        Json.get ref "executive_brief_id" = .null := fun row hrow hid hp ref href =>
    (hG.passed row hrow _ hid ref href (passing_of_passedRow hp href)).2.executive
  refine ⟨hG.transparent, fun hpassed =>
    ⟨fun hnames => ?_, fun hnull row hrow hid hp ref href => ?_⟩⟩
  · obtain ⟨row, hrow, hid, hp⟩ := hpassed
    obtain ⟨ref, href⟩ := resultRef_of_passedRow hp
    rw [← hnames row hrow hid hp ref href, hnone row hrow hid hp ref href]
  · rw [hnull, hnone row hrow hid hp ref href]

/-! ## Three runs -/

section Drive

variable {ρ E : Type} (D : DraftReviews) (model : String → Option String → Object)
  (M : Sys Call Call.Res Failure (GateHistory ρ) Nat ρ Unit E)

/-- What the calls of a review are answered, where every brief has a text. -/
def gateAnswer (w : World) : (o : Call) → o.Res
  | .getBrief _ => .str "An insight."
  | o => reviewAnswer model w o

/-- The next statement of thread `i`, answered. -/
def gateAct (c : GateConfig ρ) (i : Nat) : Act Call Call.Res Failure Nat ρ E :=
  .step i fun o => .ok (gateAnswer model c.shared.cur o)

/-- The threads take their next statements in this order. -/
def driveGate (c : GateConfig ρ) (order : List Nat) : GateConfig ρ :=
  order.foldl (fun c i => M.exec c (gateAct model c i)) c

theorem driveGate_reach {c₀ c : GateConfig ρ} (hc : M.Reach Sys.free c₀ c) (order : List Nat) :
    M.Reach Sys.free c₀ (driveGate model M c order) := by
  induction order generalizing c with
  | nil => exact hc
  | cons i order ih => exact ih (.act _ hc trivial)

/-- The call rewrites the draft's `result_ref`. -/
def Call.rewrites : Call → Bool
  | .db (.setResultRef taskId _) => taskId == D.draft
  | _ => false

/-- No statement of the run does. -/
def apartAlong (c : GateConfig ρ) : List Nat → Bool
  | [] => true
  | i :: order =>
    ((c.next i).all fun o => !o.rewrites D) && (c.shared.log.all fun e => !e.op.rewrites D) &&
      apartAlong (M.exec c (gateAct model c i)) order

variable {D model M}

theorem Call.apart_of_rewrites {o : Call} (h : (!o.rewrites D) = true) : o.Apart D := by
  rintro ref rfl
  simp [Call.rewrites] at h

theorem unrevised_driveGate {c₀ c : GateConfig ρ} {order : List Nat}
    (hc : M.Reach (Unrevised D) c₀ c) (h : apartAlong D model M c order = true) :
    M.Reach (Unrevised D) c₀ (driveGate model M c order) := by
  induction order generalizing c with
  | nil => exact hc
  | cons i order ih =>
    simp only [apartAlong, Bool.and_eq_true, List.all_eq_true] at h
    obtain ⟨⟨hnext, hlog⟩, hrest⟩ := h
    refine ih (.act _ hc fun r taskId ref k hi => ?_) hrest
    have hn : c.next i = some (.db (.setResultRef taskId ref)) := by
      unfold Config.next
      rw [hi]
    rw [hn] at hnext
    have hapart := Call.apart_of_rewrites hnext
    exact ⟨fun hid => absurd (by rw [hid]) (hapart ref),
      fun _ e he => Call.apart_of_rewrites (hlog e he)⟩

end Drive

theorem postWorld_drafted : Drafted postReviews postRef postWorld where
  distinct := by
    intro kind kind'
    cases kind <;> cases kind' <;> decide
  depends := postWorld_laid.reviews
  draft := by decide
  unreviewed := by
    have hnone : ∀ kind, ∀ row ∈ postWorld.tables.tasks, row.taskId = postReviews.task kind →
        row.resultRef = none := by
      intro kind
      cases kind <;> decide
    intro row hrow kind hid ref href
    rw [hnone kind row hrow hid] at href
    cases href

/-- A brief of the daily loop, with its executive edition. -/
def briefReviews : DraftReviews where
  draft := ⟨1, "daily-brief"⟩
  draftType := "draft-brief"
  task
    | .brandSteward => ⟨1, "daily-review"⟩
    | .factCheck => ⟨1, "daily-facts"⟩
  apart kind := by cases kind <;> decide

def briefRef : ResultRef :=
  [("brief_id", .str "brief-1"), ("executive_brief_id", .str "brief-2")]

/-- The rows of its day. -/
def briefWorld : World :=
  { postWorld with tables := { State.empty with tasks := [
    ⟨briefReviews.draft, "daily", "draft-brief", .completed, 0, [], some briefRef⟩,
    ⟨briefReviews.task .brandSteward, "daily", "qa-review", .running, 0, [briefReviews.draft],
      none⟩] } }

theorem briefWorld_drafted : Drafted briefReviews briefRef briefWorld where
  distinct := by
    intro kind kind'
    cases kind <;> cases kind' <;> decide
  depends := by
    intro row hrow kind
    revert row
    cases kind <;> decide
  draft := by decide
  unreviewed := by
    have hnone : ∀ kind, ∀ row ∈ briefWorld.tables.tasks, row.taskId = briefReviews.task kind →
        row.resultRef = none := by
      intro kind
      cases kind <;> decide
    intro row hrow kind hid ref href
    rw [hnone kind row hrow hid] at href
    cases href

/-- The brand steward passes the post. -/
def firstTime : ReviewConfig :=
  driveGate (postModel [] []) (reviewing postReviews plainPolicies) (bothCalled plainPolicies)
    (List.replicate 30 0)

theorem firstTime_reach : (reviewing postReviews plainPolicies).Reach (Unrevised postReviews)
    (.idle ⟨postWorld, [], []⟩) firstTime := by
  have hcalled : (reviewing postReviews plainPolicies).Reach (Unrevised postReviews)
      (.idle ⟨postWorld, [], []⟩) (bothCalled plainPolicies) := by
    rw [bothCalled, List.foldl_cons, List.foldl_cons, List.foldl_nil]
    exact .act _ (.act _ .init trivial) trivial
  exact unrevised_driveGate hcalled (by decide +kernel)

/-- The daily review passes the brief. -/
def briefPassed : GateConfig DailyCall :=
  driveGate (postModel [] []) (dailyReviewing briefReviews plainPolicies)
    ((dailyReviewing briefReviews plainPolicies).exec (.idle ⟨briefWorld, [], []⟩)
      (.enter 0 ⟨"run-1", false⟩)) (List.replicate 30 0)

theorem briefPassed_reach : (dailyReviewing briefReviews plainPolicies).Reach Sys.free
    (.idle ⟨briefWorld, [], []⟩) briefPassed :=
  driveGate_reach _ _ (.act _ .init trivial) _

theorem briefPassed_passed : Passed briefPassed.shared.cur (briefReviews.task .brandSteward) := by
  unfold Passed
  decide +kernel

theorem transparent_first_time : Passed firstTime.shared.cur (postReviews.task .brandSteward) ∧
    Transparent postReviews postRef firstTime.shared.cur ∧
    (NamesExecutive briefReviews briefRef briefPassed.shared.cur ↔
      Json.get briefRef "executive_brief_id" = .null) := by
  refine ⟨?_, (gates_transparent postWorld_drafted).1 _ firstTime_reach,
    ((gates_transparent briefWorld_drafted).2 _ briefPassed_reach).2 briefPassed_passed⟩
  unfold Passed
  decide +kernel

/-- The fact check finds something, and the revised post passes. -/
def afterRevision : ReviewConfig :=
  driveGate (postModel [] ["fabricated-proof-point"]) (reviewing postReviews plainPolicies)
    (bothCalled plainPolicies) (List.replicate 120 1)

/-- After the retry loop no review names its kind; after the daily review there is no executive
    brief. -/
theorem gates_drop_fields :
    (¬ ∀ (D : DraftReviews) (P : Policies) (recorded : ResultRef) (w₀ : World) (c : ReviewConfig),
      Drafted D recorded w₀ → (reviewing D P).Reach Sys.free (.idle ⟨w₀, [], []⟩) c →
        Transparent D recorded c.shared.cur) ∧
    ¬ ∀ (D : DraftReviews) (P : Policies) (recorded : ResultRef) (w₀ : World)
      (c : GateConfig DailyCall), Drafted D recorded w₀ →
        (dailyReviewing D P).Reach Sys.free (.idle ⟨w₀, [], []⟩) c →
          NamesExecutive D recorded c.shared.cur := by
  refine ⟨fun h => ?_, fun h => ?_⟩
  · have htransparent := h _ plainPolicies _ _ afterRevision postWorld_drafted
      (driveGate_reach _ _ (bothCalled_reach _) _)
    have hunnamed : ∃ row ∈ afterRevision.shared.cur.tables.tasks,
        row.taskId = postReviews.task .factCheck ∧ passedRow row = true ∧
          (row.resultRef.all fun ref => Json.get ref "review_kind" == .null) = true := by
      decide +kernel
    obtain ⟨row, hrow, hid, hp, hkind⟩ := hunnamed
    obtain ⟨ref, href⟩ := resultRef_of_passedRow hp
    rw [href, Option.all_some, beq_iff_eq] at hkind
    have hnamed := (htransparent.reviews .factCheck row hrow hid hp ref href).2
    rw [hkind] at hnamed
    cases hnamed
  · have hnames := h _ plainPolicies _ _ briefPassed briefWorld_drafted briefPassed_reach
    have hunnamed : ∃ row ∈ briefPassed.shared.cur.tables.tasks,
        row.taskId = briefReviews.task .brandSteward ∧ passedRow row = true ∧
          (row.resultRef.all fun ref => Json.get ref "executive_brief_id" == .null) = true := by
      decide +kernel
    obtain ⟨row, hrow, hid, hp, hnull⟩ := hunnamed
    obtain ⟨ref, href⟩ := resultRef_of_passedRow hp
    rw [href, Option.all_some, beq_iff_eq] at hnull
    have hnamed := hnames row hrow hid hp ref href
    rw [hnull] at hnamed
    cases hnamed

end CanvasOS.Dispatch
