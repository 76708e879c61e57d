/-
  The gate of the fact check, `policies/fact-check-gate.yaml`, and all handlers that review a draft
  or an option.

  1. `gated` — any number of calls of these handlers, statement by statement, next to each other.
     The flag is read by the statement that asks for it, and somebody may flip it at any time.
  2. `Approved` — a call has read the flag as approved and has not begun another attempt since;
     `Checking` — the options composer, which does not read it, has got to the fact check.
  3. `GateHeeds` — the flag is approved when the composer gets there, and it is not withdrawn from a
     call that goes by it.
  4. `gate_held` — in every run that heeds this, no completion is issued for the fact check, and no
     pass of it is recorded, while the flag is false.
-/
import CanvasOS.Dispatch.ComposeOptions
import CanvasOS.Dispatch.Reviewing

namespace CanvasOS.Dispatch

open Interleave Python Orchestrator Review

/-! ## The handlers and the flag -/

/-- The `prompt.md` files.  No other function has the prompt of the fact check. -/
structure PromptFiles where
  text : String → String
  own : ∀ dir, text dir = text (reviewPromptDir .factCheck) → dir = reviewPromptDir .factCheck

/-- What the handlers find deployed, and the types of the tasks, which never change. -/
structure Deployment where
  prompts : PromptFiles
  policies : Policies
  cards : CardPolicy
  taskType : TaskId → String

/-- `approved`, and the world behind the calls. -/
structure Gated where
  approved : Bool
  world : World

/-- A call of a handler: its envelope, and what `uuid4` and the clock will give the composer. -/
structure HandlerCall where
  envelope : Envelope
  cardId : String
  now : OptionsInbox.Moment

/-- The `task_type` of the options composer. -/
def composeTaskType : String := "compose-options"

/-- `DISPATCH_TABLE`, as far as it reviews. -/
def Deployment.handle (D : Deployment) (r : HandlerCall) : Routine Unit :=
  let taskType := D.taskType r.envelope.taskId
  if taskType = ReviewKind.brandSteward.taskType then singleDraftQaReview .brandSteward r.envelope
  else if taskType = ReviewKind.factCheck.taskType then singleDraftQaReview .factCheck r.envelope
  else if taskType = "qa-review" then qaReviewHandler r.envelope
  else if taskType = composeTaskType then composeOptionsHandler D.cards r.envelope r.cardId r.now
  else pure ()

/-- The flag and the prompts are read fresh. -/
def Gated.answer (s : Gated) (D : Deployment) : (c : Call) → c.Res → c.Res
  | .db .factCheckGateApproved, _ => s.approved
  | .readPrompt dir, _ => D.prompts.text dir
  | _, a => a

def Gated.exec (D : Deployment) (c : Call) (a : c.Res) (s : Gated) : Option (c.Res × Gated) :=
  (Dispatch.exec D.policies c (s.answer D c a) s.world).map fun x => (x.1, { s with world := x.2 })

/-- What else happens: somebody sets the flag, and the rest of the system moves. -/
inductive GateMove where
  | flip (approved : Bool)
  | elsewhere (f : World → World)

def Gated.move : GateMove → Gated → Option Gated
  | .flip approved, s => some { s with approved := approved }
  | .elsewhere f, s => some { s with world := f s.world }

/-- Any number of calls, with a record. -/
def gated (D : Deployment) (ι : Type) [DecidableEq ι] :
    Sys Call Call.Res Failure (History Call Call.Res Gated ι HandlerCall) ι HandlerCall Unit
      GateMove :=
  recorded D.handle (fun _ => Gated.exec D) Gated.move

/-! ## What is promised -/

/-- A completion for function 48. -/
def Deployment.checksFacts (D : Deployment) : Call → Bool
  | .complete request => request.systemPrompt == D.prompts.text (reviewPromptDir .factCheck)
  | _ => false

/-- The task records what the fact check says: that of a draft, or of the options. -/
def Deployment.ofFactCheck (D : Deployment) (taskId : TaskId) : Bool :=
  D.taskType taskId == ReviewKind.factCheck.taskType || D.taskType taskId == composeTaskType

/-- A pass of the fact check is recorded: of a review task, of the composer's task, or by the card
    with the options that have passed. -/
def Deployment.passesFacts (D : Deployment) : Call → Bool
  | .db (.setResultRef taskId ref) =>
    D.ofFactCheck taskId && Json.get ref "pass" == .bool true
  | .createOptionCard card => card.producedByFunction == 116
  | _ => false

def Deployment.factual (D : Deployment) (c : Call) : Bool := D.checksFacts c || D.passesFacts c

section Promise

variable {ι : Type}

abbrev GatedState (ι : Type) :=
  Config Call Call.Res Failure (History Call Call.Res Gated ι HandlerCall) ι HandlerCall Unit

/-- No statement that was executed while the flag was false is a completion or a pass of the fact
    check. -/
def GateHeld (D : Deployment) (c : GatedState ι) : Prop :=
  ∀ e ∈ c.shared.log, e.pre.approved = false → D.checksFacts e.op = false ∧
    D.passesFacts e.op = false

/-- A call has read the flag as approved, and has asked for no revision since. -/
def Approved : List Entry → Prop
  | [] => False
  | ⟨.db .factCheckGateApproved, approved⟩ :: _ => approved = true
  | ⟨.complete request, _⟩ :: log => (Call.complete request).regenerates = false ∧ Approved log
  | _ :: log => Approved log

/-- The composer has read the prompt of the fact check. -/
def Checking (log : List Entry) : Prop :=
  ∃ prompt, (⟨.readPrompt (reviewPromptDir .factCheck), prompt⟩ : Entry) ∈ log

/-- A call goes by the flag. -/
def Deployment.GoesBy (D : Deployment) (r : HandlerCall) (log : List Entry) : Prop :=
  if D.taskType r.envelope.taskId = composeTaskType then Checking log else Approved log

/-- The flag is approved when a call of the composer turns to its fact check, and is not withdrawn
    while a call that goes by it is running. -/
def GateHeeds [DecidableEq ι] (D : Deployment) (c : GatedState ι) :
    Act Call Call.Res Failure ι HandlerCall GateMove → Prop
  | .step i f => ∀ r p, c.thread i = some (r, some p) →
      D.taskType r.envelope.taskId = composeTaskType →
      c.next i = some (.readPrompt (reviewPromptDir .factCheck)) →
      (f (.readPrompt (reviewPromptDir .factCheck))).executes = true →
      c.shared.cur.approved = true
  | .env (.flip false) => ∀ i r o k, c.thread i = some (r, some (.op o k)) →
      ¬ D.GoesBy r (c.shared.heard i)
  | _ => True

end Promise

/-! ## Walking through a handler -/

/-- The answers that can be told beforehand: a prompt is what its file says. -/
def Deployment.Says (D : Deployment) (_ : List Entry) : Entry → Prop
  | ⟨.readPrompt dir, prompt⟩ => prompt = D.prompts.text dir
  | _ => True

/-- Whatever completes or passes the fact check was said when `H` held. -/
def Observes (D : Deployment) (H : List Entry → Prop) : List Entry → Prop
  | [] => True
  | entry :: log => (D.factual entry.1 = true → H log) ∧ Observes D H log

/-- From the log on, the routine observes `H`, and ends in `Q`. -/
abbrev Observing {α : Type} (D : Deployment) (H : List Entry → Prop) (p : Routine α)
    (Q : α → List Entry → Prop) (log : List Entry) : Prop :=
  Keeps (listen D.Says) (Observes D H) p Q log

/-- A call that has nothing to do with the fact check or its gate. -/
def Call.Calm (D : Deployment) : Call → Prop
  | .db (.setResultRef taskId ref) =>
    D.ofFactCheck taskId = false ∨ Json.get ref "pass" ≠ .bool true
  | .db .factCheckGateApproved | .complete _ | .createOptionCard _ => False
  | _ => True

section Walk

variable {D : Deployment} {H : List Entry → Prop} {log : List Entry} {c : Call} {a : c.Res}
  {α β : Type}

theorem Call.Calm.factual (hc : c.Calm D) : D.factual c = false := by
  cases c with
  | db q =>
    cases q with
    | setResultRef taskId ref =>
      rcases hc with hother | hpass
      · simp [Deployment.factual, Deployment.checksFacts, Deployment.passesFacts, hother]
      · simp [Deployment.factual, Deployment.checksFacts, Deployment.passesFacts, hpass]
    | _ => rfl
  | complete request => exact hc.elim
  | createOptionCard card => exact hc.elim
  | _ => rfl

theorem Call.Calm.approved (hc : c.Calm D) (h : Approved log) : Approved (⟨c, a⟩ :: log) := by
  cases c with
  | db q =>
    cases q with
    | factCheckGateApproved => exact hc.elim
    | _ => exact h
  | complete request => exact hc.elim
  | createOptionCard card => exact hc.elim
  | _ => exact h

theorem Checking.cons (h : Checking log) (c : Call) (a : c.Res) : Checking (⟨c, a⟩ :: log) := by
  obtain ⟨prompt, hmem⟩ := h
  exact ⟨prompt, List.mem_cons_of_mem _ hmem⟩

theorem Call.Calm.observes (hc : c.Calm D) (h : Observes D H log) :
    Observes D H (⟨c, a⟩ :: log) :=
  ⟨fun hfact => absurd hfact (by rw [hc.factual]; exact Bool.false_ne_true), h⟩

/-- One call, which is justified where it is about the fact check. -/
theorem Observing.ask {f : c.Res → Routine β} {Q : β → List Entry → Prop}
    (hlog : Observes D H log) (h : ∀ a, D.Says log ⟨c, a⟩ → Observing D H (f a) Q (⟨c, a⟩ :: log)) :
    Observing D H ((CanvasOS.Dispatch.ask c).bind f) Q log :=
  Keeps.listen_bind hlog h

/-- What calm calls keep, a routine of calm calls keeps. -/
theorem Observing.calm {Z : List Entry → Prop} {p : Routine α} (hp : p.Only (Call.Calm D))
    (hlog : Observes D H log) (hZ : Z log)
    (hkeep : ∀ (c : Call) (a : c.Res) log, c.Calm D → Z log → Z (⟨c, a⟩ :: log)) :
    Observing D H p (fun _ log => Z log) log :=
  Keeps.listen_only hp hlog hZ fun c a _ hc _ hJ hZ => ⟨hc.observes hJ, hkeep c a _ hc hZ⟩

/-- A part of calm calls, and what follows it. -/
theorem Observing.calm_bind {Z : List Entry → Prop} {p : Routine α} {f : α → Routine β}
    {Q : β → List Entry → Prop} (hp : p.Only (Call.Calm D)) (hlog : Observes D H log) (hZ : Z log)
    (hkeep : ∀ (c : Call) (a : c.Res) log, c.Calm D → Z log → Z (⟨c, a⟩ :: log))
    (hf : ∀ a log, Observes D H log → Z log → Observing D H (f a) Q log) :
    Observing D H (p.bind f) Q log :=
  (Observing.calm hp hlog hZ hkeep).bind hf

/-- A routine of calm calls that nothing has to be known of. -/
theorem Observing.of_calm {p : Routine α} (hp : p.Only (Call.Calm D)) (hlog : Observes D H log) :
    Observing D H p (fun _ _ => True) log :=
  Observing.calm (Z := fun _ => True) hp hlog True.intro fun _ _ _ _ _ => True.intro

/-! ### Calm parts -/

theorem calm_perform (hc : c.Calm D) : (ask c).Only (Call.Calm D) := Prog.Only.perform hc

/-- A statement on the task tables is calm if it is as a call. -/
def CalmStmt (D : Deployment) (o : Stmt) : Prop := (Call.db o.query).Calm D

theorem calm_call {site : Site} {q : Query} (hq : (Call.db q).Calm D) :
    (call site q).Only (CalmStmt D) :=
  ⟨hq, fun r => by cases r <;> exact True.intro⟩

theorem createAgentRun_calm (taskId : TaskId) (calls : Nat) (run : AgentRun) :
    (createAgentRunIdempotent taskId calls run).Only (Call.Calm D) := by
  unfold createAgentRunIdempotent
  refine Prog.Only.bind (calm_perform True.intro) fun existing => ?_
  cases existing with
  | some id => exact calm_perform True.intro
  | none =>
    refine Prog.Only.bind (calm_perform True.intro) fun created => ?_
    exact Prog.Only.bind (calm_perform True.intro) fun _ => True.intro

theorem parseJsonContent_calm (content : Content) :
    (parseJsonContent content).Only (Call.Calm D) := by
  cases content with
  | some verdict => exact True.intro
  | none => exact True.intro

theorem advanceDependents_calm (taskId : TaskId) :
    (advanceDependents taskId).Only (CalmStmt D) := by
  have hready : ∀ rows, (readyAmong rows).Only (CalmStmt D) := by
    intro rows
    induction rows with
    | nil => exact True.intro
    | cons row rest ih =>
      unfold readyAmong
      split
      · exact ih
      · exact Prog.Only.bind (calm_call True.intro) fun _ => ih.bind fun _ => True.intro
  have hrelease : ∀ taskIds, (releaseAll taskIds).Only (CalmStmt D) := by
    intro taskIds
    induction taskIds with
    | nil => exact True.intro
    | cons taskId rest ih => exact Prog.Only.bind (calm_call True.intro) fun _ => ih
  unfold advanceDependents
  exact Prog.Only.bind (calm_call True.intro) fun candidates => (hready candidates).bind hrelease

theorem completeTask_calm (taskId : TaskId) : (completeTask taskId).Only (CalmStmt D) :=
  Prog.Only.bind (calm_call True.intro) fun _ => advanceDependents_calm taskId

theorem resolveLineageResult_calm (taskId : TaskId) :
    (onTables (resolveLineageResult taskId)).Only (Call.Calm D) := by
  refine onTables_only ((walkLineage_reads _ _ _ _).mono fun o ho => ?_)
  obtain ⟨ids, hids⟩ := ho
  show (Call.db o.query).Calm D
  rw [hids]
  exact True.intro

/-- A task is completed with a `result_ref` that is no pass of the fact check. -/
theorem completeWith_calm {taskId : TaskId} {ref : ResultRef}
    (href : (Call.db (.setResultRef taskId ref)).Calm D) :
    (onTables (completeWith taskId ref)).Only (Call.Calm D) :=
  onTables_only (Prog.Only.bind (calm_call href) fun _ => completeTask_calm taskId)

theorem blockWith_calm {taskId : TaskId} {ref : ResultRef}
    (hpass : Json.get ref "pass" ≠ .bool true) :
    (onTables (blockWith taskId ref)).Only (Call.Calm D) :=
  onTables_only (Prog.Only.bind (calm_call (.inr hpass)) fun _ =>
    Prog.Only.bind (calm_call True.intro) fun _ => calm_call True.intro)

/-- A `result_ref` that begins with a pass of false. -/
theorem pass_false (ref : ResultRef) :
    Json.get (("pass", .bool false) :: ref) "pass" ≠ .bool true := fun h => nomatch h

/-! ### The Thursday reviews -/

/-- A completion with the prompt of another function. -/
theorem factual_complete {request : Completion} {dir : String}
    (hprompt : request.systemPrompt = D.prompts.text dir)
    (hdir : dir ≠ reviewPromptDir .factCheck) :
    D.factual (.complete request) = false := by
  have hne : request.systemPrompt ≠ D.prompts.text (reviewPromptDir .factCheck) := by
    rw [hprompt]
    exact fun h => hdir (D.prompts.own dir h)
  simp [Deployment.factual, Deployment.checksFacts, Deployment.passesFacts, hne]

/-- The completion of another function. -/
theorem Observes.other {request : Completion} {content : Content} {dir : String}
    (hdir : dir ≠ reviewPromptDir .factCheck) (hprompt : request.systemPrompt = D.prompts.text dir)
    (hlog : Observes D H log) : Observes D H (⟨.complete request, content⟩ :: log) :=
  ⟨fun hfact => absurd hfact (by rw [factual_complete hprompt hdir]; exact Bool.false_ne_true),
    hlog⟩

/-- Where the fact check is concerned, the flag has been read. -/
def Trusted (kind : ReviewKind) (log : List Entry) : Prop := kind = .factCheck → Approved log

theorem Trusted.calm {kind : ReviewKind} (c : Call) (a : c.Res) (log : List Entry)
    (hc : c.Calm D) (h : Trusted kind log) : Trusted kind (⟨c, a⟩ :: log) :=
  fun hkind => hc.approved (h hkind)

/-- The completion of a review. -/
theorem Observes.review {kind : ReviewKind} {request : Completion} {content : Content}
    (hprompt : request.systemPrompt = D.prompts.text (reviewPromptDir kind))
    (hlog : Observes D H log) (h : kind = .factCheck → H log) :
    Observes D H (⟨.complete request, content⟩ :: log) := by
  refine ⟨fun hfact => h ?_, hlog⟩
  cases kind with
  | brandSteward =>
    rw [factual_complete hprompt (by decide)] at hfact
    cases hfact
  | factCheck => rfl

theorem Trusted.complete {kind : ReviewKind} {request : Completion} {content : Content}
    (hregen : (Call.complete request).regenerates = false) (h : Trusted kind log) :
    Trusted kind (⟨.complete request, content⟩ :: log) :=
  fun hkind => ⟨hregen, h hkind⟩

theorem runSingleQaCheck_observes {envelope : Envelope} {campaignId : String} {calls : Nat}
    {draftText : String} {kind : ReviewKind} (hlog : Observes D Approved log)
    (h : Trusted kind log) :
    Observing D Approved (runSingleQaCheck envelope campaignId calls draftText kind)
      (fun _ log => Trusted kind log) log := by
  unfold runSingleQaCheck
  have hread : (Call.readPrompt (reviewPromptDir kind)).Calm D := True.intro
  refine Observing.ask hlog fun systemPrompt hprompt => ?_
  refine Observing.calm_bind (createAgentRun_calm _ _ _) (hread.observes hlog)
    (h.calm _ systemPrompt _ hread) Trusted.calm fun agentRun log₁ hlog₁ h₁ => ?_
  refine Observing.ask hlog₁ fun content _ => ?_
  refine Observing.calm_bind (parseJsonContent_calm content) (hlog₁.review hprompt h₁)
    (h₁.complete rfl) Trusted.calm fun verdict log₂ hlog₂ h₂ => ?_
  cases declaredViolations verdict with
  | none => exact hlog₂
  | some declared =>
    refine Observing.calm ?_ hlog₂ h₂ Trusted.calm
    refine Prog.Only.bind (calm_perform True.intro) fun uncleared => ?_
    refine Prog.Only.bind (calm_perform True.intro) fun reconciled => ?_
    exact Prog.Only.bind (calm_perform True.intro) fun _ => True.intro

/-- A regenerated draft passes the fact check only where the flag was read as approved. -/
theorem recheckFacts_observes {c : Retry} {calls : Nat} {draftText : String}
    (hlog : Observes D Approved log) :
    Observing D Approved (recheckFacts c calls draftText)
      (fun fc log => fc.1 = [] → Approved log) log := by
  unfold recheckFacts
  refine Observing.ask hlog fun approved _ => ?_
  have hlog₁ : Observes D Approved (⟨.db .factCheckGateApproved, approved⟩ :: log) :=
    ⟨(fun h => nomatch h), hlog⟩
  cases approved with
  | true =>
    have h₁ : Trusted .factCheck (⟨.db .factCheckGateApproved, true⟩ :: log) := fun _ => rfl
    refine (runSingleQaCheck_observes hlog₁ h₁).bind fun checked log₂ hlog₂ h₂ => ?_
    exact ⟨hlog₂, fun _ => h₂ rfl⟩
  | false => exact ⟨hlog₁, fun h => nomatch h⟩

theorem giveUp_calm (c : Retry) (attempt : Nat) (checks : Checks) :
    (giveUp c attempt checks).Only (Call.Calm D) := by
  have hblocked : ∀ reviews : ReviewTasks, (finalizeBlocked c.draft (.str c.campaignId) attempt
      checks reviews).Only (CalmStmt D) := by
    intro reviews
    induction reviews with
    | nil => exact True.intro
    | cons x rest ih =>
      refine Prog.Only.bind (calm_call (.inr (pass_false _))) fun _ => ?_
      exact Prog.Only.bind (calm_call True.intro) fun _ => ih
  exact onTables_only ((hblocked c.reviews).bind fun _ => calm_call True.intro)

/-- A task is completed with a pass, where `H` holds. -/
theorem completeWith_observes {taskId : TaskId} {ref : ResultRef}
    (hset : ∀ log, H log → H (⟨.db (.setResultRef taskId ref), ()⟩ :: log))
    (hkeep : ∀ (c : Call) (a : c.Res) log, c.Calm D → H log → H (⟨c, a⟩ :: log))
    (hlog : Observes D H log) (h : H log) :
    Observing D H (onTables (completeWith taskId ref)) (fun _ log => H log) log := by
  unfold completeWith call
  rw [Prog.bind_eq, Prog.op_bind, onTables]
  have hlog' : Observes D H (⟨.db (.setResultRef taskId ref), ()⟩ :: log) := ⟨fun _ => h, hlog⟩
  refine ⟨hlog, fun e => hlog, fun a b t ht => ?_⟩
  obtain ⟨-, rfl⟩ := listen_eq_some ht
  exact ⟨Observing.calm (onTables_only (completeTask_calm taskId)) hlog' (hset _ h) hkeep,
    fun e => hlog'⟩

/-- The same where the flag was read. -/
theorem completeWith_approved {taskId : TaskId} {ref : ResultRef}
    (hlog : Observes D Approved log) (h : Approved log) :
    Observing D Approved (onTables (completeWith taskId ref)) (fun _ log => Approved log) log :=
  completeWith_observes (fun _ h => h) (fun _ _ _ hc h => hc.approved h) hlog h

theorem finalizePassed_observes {draft : TaskRow} {asset : Regenerated} {attempt : Nat}
    {campaignId : Json} {checks : Checks} {reviews : ReviewTasks} (hlog : Observes D Approved log)
    (h : Approved log) :
    Observing D Approved (onTables (finalizePassed draft asset campaignId attempt checks reviews))
      (fun _ _ => True) log := by
  induction reviews generalizing log with
  | nil => exact ⟨hlog, True.intro⟩
  | cons x rest ih =>
    obtain ⟨kind, taskId⟩ := x
    rw [finalizePassed_cons, onTables_bind]
    exact (completeWith_approved hlog h).bind fun _ _ hlog' h' => ih hlog' h'

theorem regenerateDraftContent_observes {c : Retry} {calls attempt : Nat}
    {previousDraftText : String} {violations : List String}
    (hdir : c.params.promptDir ≠ reviewPromptDir .factCheck) (hlog : Observes D H log) :
    Observing D H (regenerateDraftContent c calls previousDraftText violations attempt)
      (fun _ _ => True) log := by
  unfold regenerateDraftContent
  refine (Observing.of_calm (createAgentRun_calm _ _ _) hlog).bind fun agentRun log₁ hlog₁ _ => ?_
  have hread : (Call.readPrompt c.params.promptDir).Calm D := True.intro
  refine Observing.ask hlog₁ fun systemPrompt hprompt => ?_
  have hlog₂ := Call.Calm.observes (a := systemPrompt) hread hlog₁
  refine Observing.ask hlog₂ fun content _ => ?_
  refine Keeps.bind (Observing.of_calm (parseJsonContent_calm content)
    (hlog₂.other hdir hprompt)) fun output log₄ hlog₄ _ => ?_
  cases c.params.renderDraftText output with
  | none => exact hlog₄
  | some draftText =>
    exact Observing.of_calm (Prog.Only.bind (calm_perform True.intro) fun _ => True.intro) hlog₄

theorem retryAttempts_observes {c : Retry} (hdir : c.params.promptDir ≠ reviewPromptDir .factCheck)
    (left attempt calls : Nat) (currentDraftText : String) (checks : Checks)
    (hlog : Observes D Approved log) :
    Observing D Approved (retryAttempts c left attempt calls currentDraftText checks)
      (fun _ _ => True) log := by
  induction left generalizing attempt calls currentDraftText checks log with
  | zero => exact Observing.of_calm (giveUp_calm _ _ _) hlog
  | succ left ih =>
    unfold retryAttempts
    split
    · exact Observing.of_calm (giveUp_calm _ _ _) hlog
    · refine (regenerateDraftContent_observes hdir hlog).bind fun revised log₁ hlog₁ _ => ?_
      refine Observing.ask hlog₁ fun stored _ => ?_
      have hstore : (Call.createAsset c.params.assetType revised.2 c.campaignId
        c.params.functionId revised.1).Calm D := True.intro
      have hlog₂ := Call.Calm.observes (a := stored) hstore hlog₁
      refine Observing.ask hlog₂ fun _ _ => ?_
      have hrewrite : (Call.db (.setResultRef c.draft.taskId
          (regeneratedRef c ⟨stored.1, stored.2, revised.2⟩ attempt))).Calm D :=
        .inr (by rintro ⟨⟩)
      have hbrand : ∀ log, Trusted .brandSteward log := by
        rintro log ⟨⟩
      refine (runSingleQaCheck_observes (hrewrite.observes hlog₂) (hbrand _)).bind
        fun bs log₃ hlog₃ _ => ?_
      refine (recheckFacts_observes hlog₃).bind fun fc log₄ hlog₄ h₄ => ?_
      dsimp only
      split
      · next hpassed => exact finalizePassed_observes hlog₄ (h₄ hpassed.2)
      · exact ih _ _ _ _ hlog₄

/-- No drafting function is the fact check. -/
theorem promptDir_of_draftRegenParams {draftTaskType : String} {params : RegenParams}
    (h : draftRegenParams draftTaskType = some params) :
    params.promptDir ≠ reviewPromptDir .factCheck := by
  unfold draftRegenParams at h
  split_ifs at h <;> (obtain rfl := Option.some.inj h; decide)

theorem runQaRetryLoop_observes {envelope : Envelope} {kind : ReviewKind} {draft : TaskRow}
    {params : RegenParams} {violations : List String} {draftText : String}
    (hdir : params.promptDir ≠ reviewPromptDir .factCheck) (hlog : Observes D Approved log) :
    Observing D Approved (runQaRetryLoop envelope kind draft params violations draftText)
      (fun _ _ => True) log := by
  unfold runQaRetryLoop
  have hfind : (Call.db (.findDependentTasks draft.taskId)).Calm D := True.intro
  refine Observing.ask hlog fun siblings _ => ?_
  refine (Observing.of_calm (resolveLineageResult_calm _) (hfind.observes hlog)).bind
    fun found log₁ hlog₁ _ => ?_
  cases found with
  | none => exact Observing.of_calm (blockWith_calm (pass_false _)) hlog₁
  | some found =>
    obtain ⟨ancestor, ancestorRef⟩ := found
    have hbrief : (briefBodyOf ancestorRef).Only (Call.Calm D) := by
      unfold briefBodyOf
      split
      · exact calm_perform True.intro
      · exact True.intro
    refine (Observing.of_calm hbrief hlog₁).bind fun briefBody log₂ hlog₂ _ => ?_
    have hcampaign : (Call.getOrCreateCampaign envelope.campaignName params.functionId).Calm D :=
      True.intro
    refine Observing.ask hlog₂ fun campaignId _ => ?_
    exact retryAttempts_observes hdir _ _ _ _ _ (hcampaign.observes hlog₂)

theorem retryOrBlock_observes {envelope : Envelope} {kind : ReviewKind} {draft : TaskRow}
    {campaignId draftText agentRun : String} {violations : List String}
    (hlog : Observes D Approved log) :
    Observing D Approved (retryOrBlock envelope kind draft campaignId draftText agentRun violations)
      (fun _ _ => True) log := by
  have hfinal : (onTables (finalizeQaFailure envelope.taskId violations draft (.str agentRun)
      (.str campaignId))).Only (Call.Calm D) := blockWith_calm (pass_false _)
  unfold retryOrBlock
  cases hparams : draftRegenParams draft.taskType with
  | none => exact Observing.of_calm hfinal hlog
  | some params =>
    dsimp only
    split
    · exact Observing.of_calm hfinal hlog
    · have hlock : (Call.db (.tryAdvisoryLock draft.taskId)).Calm D := True.intro
      have hrelease : (ask (.db (.releaseAdvisoryLock draft.taskId))).Only (Call.Calm D) :=
        calm_perform True.intro
      refine Observing.ask hlog fun locked _ => ?_
      have hlog₁ := Call.Calm.observes (a := locked) hlock hlog
      split
      · refine Keeps.thenFinally
          (runQaRetryLoop_observes (promptDir_of_draftRegenParams hparams) hlog₁) ?_ ?_
        · exact fun _ log₂ hlog₂ _ => Observing.of_calm hrelease hlog₂
        · exact fun log₂ hlog₂ => Observing.of_calm hrelease hlog₂
      · exact Observing.of_calm hfinal hlog₁

theorem reviewDraft_observes {envelope : Envelope} {kind : ReviewKind} {draft : TaskRow}
    {draftRef : ResultRef} {campaignId systemPrompt : String}
    (htype : D.taskType envelope.taskId = kind.taskType)
    (hprompt : systemPrompt = D.prompts.text (reviewPromptDir kind))
    (hlog : Observes D Approved log) (h : Trusted kind log) :
    Observing D Approved (reviewDraft envelope kind draft draftRef campaignId systemPrompt)
      (fun _ _ => True) log := by
  unfold reviewDraft
  refine Observing.ask hlog fun asset _ => ?_
  have hget : (Call.getAsset (idOf (Json.get draftRef "vault_asset_id"))).Calm D := True.intro
  have hlog₁ := Call.Calm.observes (a := asset) hget hlog
  have h₁ := h.calm _ asset _ hget
  dsimp only
  split
  · exact hlog₁
  refine Observing.calm_bind (createAgentRun_calm _ _ _) hlog₁ h₁ Trusted.calm
    fun agentRun log₂ hlog₂ h₂ => ?_
  refine Observing.ask hlog₂ fun content _ => ?_
  refine Observing.calm_bind (parseJsonContent_calm content) (hlog₂.review hprompt h₂)
    (h₂.complete (by cases kind <;> rfl)) Trusted.calm fun verdict log₃ hlog₃ h₃ => ?_
  cases resolveVerdict kind verdict with
  | none => exact hlog₃
  | some resolved =>
    obtain ⟨declaredPass, declared⟩ := resolved
    refine Observing.calm_bind (calm_perform True.intro) hlog₃ h₃ Trusted.calm
      fun uncleared log₄ hlog₄ h₄ => ?_
    refine Observing.calm_bind (calm_perform True.intro) hlog₄ h₄ Trusted.calm
      fun reconciled log₅ hlog₅ h₅ => ?_
    refine Observing.calm_bind (calm_perform True.intro) hlog₅ h₅ Trusted.calm
      fun _ log₆ hlog₆ h₆ => ?_
    split
    · cases kind with
      | factCheck => exact (completeWith_approved hlog₆ (h₆ rfl)).mono fun _ _ _ _ => True.intro
      | brandSteward =>
        -- what the other review records is no pass of the fact check
        have hother : D.ofFactCheck envelope.taskId = false := by
          unfold Deployment.ofFactCheck
          rw [htype]
          decide
        exact Observing.of_calm (completeWith_calm (.inl hother)) hlog₆
    · exact retryOrBlock_observes hlog₆

theorem singleDraftQaReview_observes {kind : ReviewKind} {envelope : Envelope}
    (htype : D.taskType envelope.taskId = kind.taskType) :
    Observing D Approved (singleDraftQaReview kind envelope) (fun _ _ => True) [] := by
  unfold singleDraftQaReview
  have hnil : Observes D Approved [] := True.intro
  refine (Observing.of_calm (resolveLineageResult_calm _) hnil).bind fun found log hlog _ => ?_
  cases found with
  | none => exact hlog
  | some found =>
    obtain ⟨draft, draftRef⟩ := found
    have hread : (Call.readPrompt (reviewPromptDir kind)).Calm D := True.intro
    refine Observing.ask hlog fun systemPrompt hprompt => ?_
    have hlog₁ := Call.Calm.observes (a := systemPrompt) hread hlog
    have hcampaign : (Call.getOrCreateCampaign envelope.campaignName (functionId kind)).Calm D :=
      True.intro
    refine Observing.ask hlog₁ fun campaignId _ => ?_
    have hlog₂ := Call.Calm.observes (a := campaignId) hcampaign hlog₁
    split
    · cases kind with
      | brandSteward => exact reviewDraft_observes htype hprompt hlog₂ fun h => nomatch h
      | factCheck =>
        refine Observing.ask hlog₂ fun approved _ => ?_
        have hlog₃ : Observes D Approved (⟨.db .factCheckGateApproved, approved⟩ :: _) :=
          ⟨(fun h => nomatch h), hlog₂⟩
        cases approved with
        | true => exact reviewDraft_observes htype hprompt hlog₃ fun _ => rfl
        | false => exact Observing.of_calm (blockWith_calm (pass_false _)) hlog₃
    · split
      · refine Observing.of_calm (completeWith_calm (.inr ?_)) hlog₂
        exact fun h => nomatch h
      · refine Observing.of_calm ?_ hlog₂
        exact Prog.Only.bind (calm_perform (.inr (pass_false _))) fun _ => calm_perform True.intro

/-! ### The daily review -/

theorem dailyText_calm (ancestor : TaskRow) (ancestorRef : ResultRef) :
    (dailyText ancestor ancestorRef).Only (Call.Calm D) := by
  unfold dailyText
  split
  · split
    · exact True.intro
    · exact Prog.Only.bind (calm_perform True.intro) fun _ => True.intro
  · split
    · exact True.intro
    · exact Prog.Only.bind (calm_perform True.intro) fun _ => True.intro

theorem reviewDaily_observes {envelope : Envelope} {ancestor : TaskRow} {ancestorRef : ResultRef}
    {campaignId channel draftText : String} (htype : D.ofFactCheck envelope.taskId = false)
    (hlog : Observes D H log) :
    Observing D H (reviewDaily envelope ancestor ancestorRef campaignId channel draftText)
      (fun _ _ => True) log := by
  have hfinish : ∀ agentRun violations, (finishDaily envelope ancestor ancestorRef campaignId
      agentRun violations).Only (Call.Calm D) := by
    intro agentRun violations
    unfold finishDaily
    split
    · exact completeWith_calm (.inl htype)
    · exact blockWith_calm (pass_false _)
  have hbrand : reviewPromptDir .brandSteward ≠ reviewPromptDir .factCheck := by decide
  unfold reviewDaily
  refine (Observing.of_calm (createAgentRun_calm _ _ _) hlog).bind fun agentRun log₁ hlog₁ _ => ?_
  have hread : (Call.readPrompt (reviewPromptDir .brandSteward)).Calm D := True.intro
  refine Observing.ask hlog₁ fun systemPrompt hprompt => ?_
  have hlog₂ := Call.Calm.observes (a := systemPrompt) hread hlog₁
  show Observing D H (if _ then _ else _) _ _
  split
  · exact hlog₂
  refine Observing.ask hlog₂ fun content _ => ?_
  refine Keeps.bind (Observing.of_calm (parseJsonContent_calm content)
    (hlog₂.other hbrand hprompt)) fun verdict log₃ hlog₃ _ => ?_
  dsimp only
  split
  · exact hlog₃
  · refine Observing.of_calm ?_ hlog₃
    refine Prog.Only.bind (calm_perform True.intro) fun references => ?_
    refine Prog.Only.bind (calm_perform True.intro) fun named => ?_
    refine Prog.Only.bind (calm_perform True.intro) fun reconciled => ?_
    exact Prog.Only.bind (calm_perform True.intro) fun _ => hfinish _ _

/-- The daily review has nothing to do with the fact check. -/
theorem qaReviewHandler_observes {envelope : Envelope}
    (htype : D.ofFactCheck envelope.taskId = false) :
    Observing D H (qaReviewHandler envelope) (fun _ _ => True) [] := by
  have hnil : Observes D H [] := True.intro
  unfold qaReviewHandler
  refine (Observing.of_calm (resolveLineageResult_calm _) hnil).bind fun found log hlog _ => ?_
  cases found with
  | none => exact hlog
  | some found =>
    obtain ⟨ancestor, ancestorRef⟩ := found
    show Observing D H (if _ then _ else _) _ _
    split
    · exact Observing.of_calm (completeWith_calm (.inl htype)) hlog
    · have hcampaign : (Call.getOrCreateCampaign envelope.campaignName
        (functionId .brandSteward)).Calm D := True.intro
      refine Observing.ask hlog fun campaignId _ => ?_
      refine (Observing.of_calm (dailyText_calm ancestor ancestorRef)
        (hcampaign.observes hlog)).bind fun given log₁ hlog₁ _ => ?_
      cases given.2 with
      | str draftText => exact reviewDaily_observes htype hlog₁
      | _ => exact hlog₁

/-! ### The options composer -/

theorem optionCheck_observes {kind : ReviewKind} {c : Composing} {calls : Nat}
    {text optionLabel : String} (hlog : Observes D Checking log) :
    Observing D Checking (optionCheck kind c calls text optionLabel)
      (fun _ log => kind = .factCheck → Checking log) log := by
  have hkeep : ∀ (c : Call) (a : c.Res) log, c.Calm D → (kind = .factCheck → Checking log) →
      (kind = .factCheck → Checking (⟨c, a⟩ :: log)) := fun c a _ _ h hkind => (h hkind).cons c a
  unfold optionCheck
  refine (Observing.of_calm (createAgentRun_calm _ _ _) hlog).bind fun agentRun log₁ hlog₁ _ => ?_
  show Observing D Checking (if _ then _ else _) _ _
  split
  · exact hlog₁
  have hread : (Call.readPrompt (reviewPromptDir kind)).Calm D := True.intro
  refine Observing.ask hlog₁ fun systemPrompt hprompt => ?_
  have hlog₂ := Call.Calm.observes (a := systemPrompt) hread hlog₁
  have h₂ : kind = .factCheck →
      Checking (⟨.readPrompt (reviewPromptDir kind), systemPrompt⟩ :: log₁) := by
    rintro rfl
    exact ⟨systemPrompt, List.mem_cons_self⟩
  refine Observing.ask hlog₂ fun content _ => ?_
  refine Observing.calm_bind (parseJsonContent_calm content) (hlog₂.review hprompt h₂)
    (fun hkind => (h₂ hkind).cons _ _) hkeep fun verdict log₃ hlog₃ h₃ => ?_
  cases resolveVerdict kind verdict with
  | none => exact hlog₃
  | some resolved =>
    exact Observing.calm (Prog.Only.bind (calm_perform True.intro) fun _ => True.intro) hlog₃ h₃
      hkeep

/-- Whoever has reviewed an option has got to the fact check. -/
theorem runOptionQa_observes {c : Composing} {calls : Nat} {text optionLabel : String}
    (hlog : Observes D Checking log) :
    Observing D Checking (runOptionQa c calls text optionLabel) (fun _ log => Checking log)
      log := by
  unfold runOptionQa
  refine (optionCheck_observes hlog).bind fun brand log₁ hlog₁ _ => ?_
  refine (optionCheck_observes hlog₁).bind fun fact log₂ hlog₂ h₂ => ?_
  refine Observing.calm ?_ hlog₂ (h₂ rfl) fun c a _ _ h => h.cons c a
  refine Prog.Only.bind (calm_perform True.intro) fun uncleared => ?_
  exact Prog.Only.bind (calm_perform True.intro) fun reconciled => True.intro

theorem reviewCandidates_observes {c : Composing} {calls : Nat}
    {candidates : List (String × Candidate)} (hlog : Observes D Checking log)
    (h : candidates = [] → Checking log) :
    Observing D Checking (reviewCandidates c calls candidates) (fun _ log => Checking log) log := by
  induction candidates generalizing calls log with
  | nil => exact ⟨hlog, h rfl⟩
  | cons x rest ih =>
    unfold reviewCandidates
    refine (runOptionQa_observes hlog).bind fun qa log₁ hlog₁ h₁ => ?_
    exact (ih hlog₁ fun _ => h₁).bind fun surviving log₂ hlog₂ h₂ => ⟨hlog₂, h₂⟩

theorem notComposed_calm (envelope : Envelope) (draft : TaskRow) (draftRef : ResultRef) :
    (notComposed envelope draft draftRef).Only (Call.Calm D) := by
  unfold notComposed
  refine Prog.Only.bind (calm_perform True.intro) fun campaignId => ?_
  dsimp only
  split
  · exact completeWith_calm (.inr fun h => nomatch h)
  · refine Prog.Only.bind (calm_perform (.inr fun h => nomatch h)) fun _ => ?_
    exact calm_perform True.intro

theorem composeBlocked_calm (c : Composing) (survivingCount : Nat) :
    (composeBlocked c survivingCount).Only (Call.Calm D) := by
  refine Prog.Only.bind (calm_perform True.intro) fun _ => ?_
  exact Prog.Only.bind (calm_perform (.inr (pass_false _))) fun _ => calm_perform True.intro

theorem composeCard_observes {K : CardPolicy} {c : Composing} {cardId : String}
    {now : OptionsInbox.Moment} {output : Object} {out : Composed}
    {surviving : List (String × Candidate)} (hlog : Observes D Checking log) (h : Checking log) :
    Observing D Checking (composeCard K c cardId now output out surviving) (fun _ _ => True)
      log := by
  unfold composeCard
  split
  · exact hlog
  next card _ =>
    refine Observing.ask hlog fun created _ => ?_
    have hlog₁ : Observes D Checking
        (⟨.createOptionCard ⟨c.agentRun, 116, cardDocument K.isoformat card⟩, created⟩ :: log) :=
      ⟨fun _ => h, hlog⟩
    have hupdate : (Call.updateAgentRun c.agentRun "succeeded" (.obj output)).Calm D := True.intro
    refine Observing.ask hlog₁ fun _ _ => ?_
    exact (completeWith_observes (fun _ h => h.cons _ _) (fun c a _ _ h => h.cons c a)
      (hupdate.observes hlog₁) ((h.cons _ _).cons _ _)).mono fun _ _ _ _ => True.intro

theorem composeFrom_observes {K : CardPolicy} {envelope : Envelope} {cardId : String}
    {now : OptionsInbox.Moment} {draft : TaskRow} {draftRef : ResultRef}
    (hlog : Observes D Checking log) :
    Observing D Checking (composeFrom K envelope cardId now draft draftRef) (fun _ _ => True)
      log := by
  have hcomposer : composerFunctionId ≠ reviewPromptDir .factCheck := by decide
  unfold composeFrom
  have hcampaign : (Call.getOrCreateCampaign envelope.campaignName composerFunctionId).Calm D :=
    True.intro
  refine Observing.ask hlog fun campaignId _ => ?_
  have hlog₁ := Call.Calm.observes (a := campaignId) hcampaign hlog
  have hget : (Call.getAsset (idOf (Json.get draftRef "vault_asset_id"))).Calm D := True.intro
  refine Observing.ask hlog₁ fun asset _ => ?_
  have hlog₂ := Call.Calm.observes (a := asset) hget hlog₁
  refine (Observing.of_calm (createAgentRun_calm _ _ _) hlog₂).bind fun agentRun log₃ hlog₃ _ => ?_
  show Observing D Checking (if _ then _ else _) _ _
  split
  · exact hlog₃
  have hread : (Call.readPrompt composerFunctionId).Calm D := True.intro
  refine Observing.ask hlog₃ fun systemPrompt hprompt => ?_
  have hlog₄ := Call.Calm.observes (a := systemPrompt) hread hlog₃
  refine Observing.ask hlog₄ fun content _ => ?_
  refine Keeps.bind (Observing.of_calm (parseJsonContent_calm content)
    (hlog₄.other hcomposer hprompt)) fun output log₅ hlog₅ _ => ?_
  unfold reviewAndCompose
  split
  · exact hlog₅
  next out _ =>
    have hsome : candidatesOf (reviewableDraftText asset.text) out ≠ [] := List.cons_ne_nil _ _
    refine (reviewCandidates_observes hlog₅ fun hnone => absurd hnone hsome).bind
      fun surviving log₆ hlog₆ h₆ => ?_
    show Observing D Checking (if _ then _ else _) _ _
    split
    · exact Observing.of_calm (composeBlocked_calm _ _) hlog₆
    · exact composeCard_observes hlog₆ h₆

theorem composeOptionsHandler_observes {K : CardPolicy} {envelope : Envelope} {cardId : String}
    {now : OptionsInbox.Moment} :
    Observing D Checking (composeOptionsHandler K envelope cardId now) (fun _ _ => True) [] := by
  have hnil : Observes D Checking [] := True.intro
  unfold composeOptionsHandler
  refine (Observing.of_calm (resolveLineageResult_calm _) hnil).bind fun found log hlog _ => ?_
  cases found with
  | none => exact hlog
  | some found =>
    obtain ⟨draft, draftRef⟩ := found
    show Observing D Checking (if _ then _ else _) _ _
    split
    · exact composeFrom_observes hlog
    · exact Observing.of_calm (notComposed_calm _ _ _) hlog

/-! ### Every handler -/

/-- Whatever a handler does about the fact check, it does where the call goes by the flag. -/
theorem handle_observes (D : Deployment) (r : HandlerCall) :
    Observing D (D.GoesBy r) (D.handle r) (fun _ _ => True) [] := by
  have hreview : D.taskType r.envelope.taskId ≠ composeTaskType → D.GoesBy r = Approved := by
    intro hne
    funext log
    exact if_neg hne
  unfold Deployment.handle
  dsimp only
  split
  · next htype =>
    rw [hreview (by rw [htype]; decide)]
    exact singleDraftQaReview_observes htype
  split
  · next htype =>
    rw [hreview (by rw [htype]; decide)]
    exact singleDraftQaReview_observes htype
  split
  · next htype =>
    refine qaReviewHandler_observes ?_
    unfold Deployment.ofFactCheck
    rw [htype]
    decide
  split
  · next htype =>
    have hcompose : D.GoesBy r = Checking := by
      funext log
      exact if_pos htype
    rw [hcompose]
    exact composeOptionsHandler_observes
  · exact ⟨True.intro, True.intro⟩

end Walk

/-! ## Any number of calls -/

section System

variable {D : Deployment} {ι : Type} [DecidableEq ι] {s t : Gated} {o : Call} {a b : o.Res}

/-- No statement sets the flag. -/
theorem Gated.exec_approved (h : Gated.exec D o a s = some (b, t)) : t.approved = s.approved := by
  obtain ⟨x, -, heq⟩ := Option.map_eq_some_iff.1 h
  rw [← (Prod.mk.inj heq).2]

/-- The prompts are read as they are. -/
theorem Gated.exec_says {log : List Entry} (h : Gated.exec D o a s = some (b, t)) :
    D.Says log ⟨o, b⟩ := by
  obtain ⟨⟨b', w⟩, hx, heq⟩ := Option.map_eq_some_iff.1 h
  obtain ⟨rfl, -⟩ := Prod.mk.inj heq
  cases o with
  | readPrompt dir =>
    obtain ⟨w', hstep, -⟩ := exec_eq_some hx
    exact (Prod.mk.inj (Option.some.inj hstep)).1.symm
  | _ => exact True.intro

/-- So is the flag. -/
theorem Gated.exec_gate {a b : Bool}
    (h : Gated.exec D (.db .factCheckGateApproved) a s = some (b, t)) : b = s.approved := by
  obtain ⟨⟨b', w⟩, hx, heq⟩ := Option.map_eq_some_iff.1 h
  obtain ⟨rfl, -⟩ := Prod.mk.inj heq
  obtain ⟨w', hstep, -⟩ := exec_eq_some hx
  exact (Prod.mk.inj (Option.some.inj hstep)).1.symm

/-- How a call comes to go by the flag. -/
theorem Deployment.GoesBy.cases {r : HandlerCall} {log : List Entry}
    (h : D.GoesBy r (⟨o, b⟩ :: log)) :
    D.GoesBy r log ∨ (∃ approved : Bool, approved = true ∧
        (⟨o, b⟩ : Entry) = ⟨.db .factCheckGateApproved, approved⟩) ∨
      (D.taskType r.envelope.taskId = composeTaskType ∧
        o = .readPrompt (reviewPromptDir .factCheck)) := by
  unfold Deployment.GoesBy at h ⊢
  split at h
  · next htype =>
    rw [if_pos htype]
    obtain ⟨prompt, hmem⟩ := h
    rcases List.mem_cons.1 hmem with heq | hmem
    · exact .inr (.inr ⟨htype, (Sigma.mk.inj heq).1.symm⟩)
    · exact .inl ⟨prompt, hmem⟩
  · next htype =>
    rw [if_neg htype]
    cases o with
    | db q =>
      cases q with
      | factCheckGateApproved => exact .inr (.inl ⟨b, h, rfl⟩)
      | _ => exact .inl h
    | complete request => exact .inl h.2
    | _ => exact .inl h

/-- Calls that go by the flag run while it is approved. -/
structure Gatekept (D : Deployment) (c : GatedState ι) : Prop where
  held : GateHeld D c
  approved : ∀ i r o k, c.thread i = some (r, some (.op o k)) → D.GoesBy r (c.shared.heard i) →
    c.shared.cur.approved = true

/-- A thread that says nothing leaves it so. -/
theorem Gatekept.put {c : GatedState ι} {i : ι} {r : HandlerCall} {q : Option (Routine Unit)}
    (hK : Gatekept D c)
    (hq : ∀ o k, q = some (.op o k) → ∃ o' k', c.thread i = some (r, some (.op o' k'))) :
    Gatekept D (c.put c.shared i r q) := by
  refine ⟨hK.held, fun j r' o k hj hby => ?_⟩
  rcases Config.put_thread.1 hj with ⟨rfl, rfl, hp⟩ | ⟨-, hj⟩
  · obtain ⟨o', k', hi⟩ := hq o k hp
    exact hK.approved j _ o' k' hi hby
  · exact hK.approved j r' o k hj hby

/-- In every run in which the composer finds the flag approved, and in which it is not withdrawn
    from those that go by it, nothing is completed for the fact check and nothing passes it while
    the flag is false. -/
theorem gate_held {s₀ : Gated} {c : GatedState ι}
    (hr : (gated D ι).Reach (GateHeeds D) (.idle ⟨s₀, [], []⟩) c) : GateHeld D c := by
  have h₀ : Gatekept D (.idle ⟨s₀, [], []⟩ : GatedState ι) :=
    ⟨fun e he => (nomatch he), fun i r o k h => nomatch h⟩
  suffices hK : Gatekept D c from hK.held
  refine Sys.Reach.sound_own (handle_observes D) h₀ ?_ ?_ ?_ ?_ ?_ ?_ hr
  · intro c i r _ hK hi hnil _
    refine ⟨hK.held, fun j r' o k hj hby => ?_⟩
    have hwas : D.GoesBy r' (c.shared.heard j) := hby
    rcases Config.put_thread.1 hj with ⟨rfl, rfl, -⟩ | ⟨-, hj⟩
    · -- a call that has said nothing goes by nothing
      rw [hnil] at hwas
      unfold Deployment.GoesBy at hwas
      split at hwas
      · obtain ⟨prompt, hmem⟩ := hwas
        cases hmem
      · exact hwas.elim
    · exact hK.approved j r' o k hj hwas
  · exact fun c i r o k e hK hi => hK.put fun _ _ _ => ⟨o, k, hi⟩
  · exact fun c i r p hK _ => hK.put fun _ _ h => nomatch h
  · exact fun c i r o k a b t _ _ hx => Gated.exec_says hx
  · intro c i f r o k out a b t hok hexecutes hK hi hx hJ
    have happroved : t.approved = c.shared.cur.approved := Gated.exec_approved hx
    refine ⟨fun e he hfalse => ?_, fun j r' o' k' hj hby => ?_⟩
    · rcases List.mem_cons.1 he with rfl | he
      · -- it would go by the flag, which is approved
        have hnot : D.factual o ≠ true := fun hfact => by
          have htrue := hK.approved i r o k hi (hJ.1 hfact)
          rw [htrue] at hfalse
          cases hfalse
        simpa [Deployment.factual] using hnot
      · exact hK.held e he hfalse
    · show t.approved = true
      rw [happroved]
      have hby : D.GoesBy r' ((c.shared.after i o b t).heard j) := hby
      rw [History.heard_after] at hby
      rcases Config.put_thread.1 hj with ⟨rfl, rfl, -⟩ | ⟨hji, hj⟩
      · rw [if_pos rfl] at hby
        rcases hby.cases with hby | ⟨approved, rfl, heq⟩ | ⟨htype, rfl⟩
        · exact hK.approved j _ o k hi hby
        · obtain ⟨rfl, hb⟩ := Sigma.mk.inj heq
          obtain rfl := eq_of_heq hb
          exact (Gated.exec_gate hx).symm
        · have hnext : c.next j = some (.readPrompt (reviewPromptDir .factCheck)) := by
            unfold Config.next
            rw [hi]
          exact hok _ _ hi htype hnext hexecutes
      · rw [if_neg hji] at hby
        exact hK.approved j r' o' k' hj hby
  · intro c e t hok hK ht
    refine ⟨hK.held, fun j r o k hj hby => ?_⟩
    cases e with
    | elsewhere f =>
      obtain rfl := Option.some.inj ht
      exact hK.approved j r o k hj hby
    | flip approved =>
      obtain rfl := Option.some.inj ht
      cases approved with
      | true => rfl
      | false => exact absurd hby (hok j r o k hj)

/-- A call that takes a step leaves the flag alone. -/
theorem exec_step_approved {c : GatedState ι} {i : ι} {f : (o : Call) → Reply Failure o.Res} :
    ((gated D ι).exec c (.step i f)).shared.cur.approved = c.shared.cur.approved := by
  refine Sys.exec_cases (P := fun c' : GatedState ι =>
    c'.shared.cur.approved = c.shared.cur.approved) (.step i f) rfl ?_ ?_ ?_ ?_
  · intro j r s h
    cases h
  · rintro j f' r o k out s - hj hs
    rcases recorded_apply hs with ⟨-, rfl⟩ | ⟨a, b, t, -, hx, rfl⟩
    · rfl
    · exact Gated.exec_approved hx
  · intro j r p h
    cases h
  · intro e s h
    cases h

end System

/-! ## A call of the composer -/

/-- One week's draft is to be composed; every prompt says whose it is. -/
def composition : Deployment where
  prompts := ⟨id, fun _ h => h⟩
  policies := plainPolicies
  cards := ⟨⟨fun _ => none, [], false, 0⟩, ⟨none, none, id⟩, fun _ => ""⟩
  taskType taskId := if taskId = ⟨1, "thursday-options"⟩ then composeTaskType else ""

def compositionWorld : World :=
  { postWorld with tables := { State.empty with tasks := [
    ⟨postReviews.draft, "weekly", "draft-insight-to-story", .completed, 0, [⟨1, "tuesday-brief"⟩],
      some (Json.update postRef [("campaign", .str "spring"), ("proof_points", .arr [])])⟩,
    ⟨⟨1, "thursday-options"⟩, "weekly", composeTaskType, .running, 0, [postReviews.draft],
      none⟩] } }

/-- A model with two alternates, and reviewers that pass everything. -/
def compositionModel (prompt : String) (_ : Option String) : Object :=
  if prompt = composerFunctionId then
    [("alternates", .arr [
      .obj [("text", .str "B"), ("distinctness_axis", .str "tone"),
        ("predicted_outcome", .str "-")],
      .obj [("text", .str "C"), ("distinctness_axis", .str "length"),
        ("predicted_outcome", .str "-")]]),
      ("recommended", .str "original"), ("rationale", .str "-")]
  else verdictOf []

/-- The composer is called, and takes its statements one after the other. -/
def composeRun (approved : Bool) : Nat → GatedState Nat
  | 0 => (gated composition Nat).exec (.idle ⟨⟨approved, compositionWorld⟩, [], []⟩)
    (.enter 0 ⟨⟨⟨1, "thursday-options"⟩, "run-1", false⟩, "card-1", ⟨0, true⟩⟩)
  | n + 1 => (gated composition Nat).exec (composeRun approved n) (.step 0 fun o =>
    .ok (reviewAnswer compositionModel (composeRun approved n).shared.cur.world o))

theorem composeRun_reach (approved : Bool) (n : Nat) :
    (gated composition Nat).Reach Sys.free (.idle ⟨⟨approved, compositionWorld⟩, [], []⟩)
      (composeRun approved n) := by
  induction n with
  | zero => exact .act _ .init trivial
  | succ n ih => exact .act _ ih trivial

/-- The flag is false, and the composer asks function 48 nevertheless. -/
theorem composer_unchecked : ∃ c : GatedState Nat, (gated composition Nat).Reach Sys.free
    (.idle ⟨⟨false, compositionWorld⟩, [], []⟩) c ∧ ¬ GateHeld composition c := by
  refine ⟨composeRun false 20, composeRun_reach false 20, fun hheld => ?_⟩
  have hasked : ((composeRun false 20).shared.log.all fun e =>
      e.pre.approved || !composition.checksFacts e.op) = true := by
    refine List.all_eq_true.2 fun e he => ?_
    cases hpre : e.pre.approved with
    | true => rfl
    | false => rw [(hheld e he hpre).1]; rfl
  exact absurd hasked (by decide +kernel)

/-- Where it is true, that call heeds it. -/
theorem composeRun_heeds (n : Nat) :
    (gated composition Nat).Reach (GateHeeds composition)
      (.idle ⟨⟨true, compositionWorld⟩, [], []⟩) (composeRun true n) ∧
      (composeRun true n).shared.cur.approved = true := by
  induction n with
  | zero => exact ⟨.act _ .init trivial, rfl⟩
  | succ n ih =>
    obtain ⟨hreach, happroved⟩ := ih
    refine ⟨.act _ hreach fun _ _ _ _ _ _ => happroved, ?_⟩
    rw [composeRun, exec_step_approved, happroved]

theorem composeRun_held : GateHeld composition (composeRun true 20) :=
  gate_held (composeRun_heeds 20).1

end CanvasOS.Dispatch
