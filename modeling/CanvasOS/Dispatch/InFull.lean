/-
  How much of a draft its Thursday reviews have read.

  1. `known`, `since` — the text that a call has under review, and what it has done with it.
  2. `InFull` — every character of the text was given to the model of the review, to the clearance
     check and to the brand rules.
  3. `Judged` — a review that lets a draft pass has read it in full exactly where the draft was not
     regenerated by the same call and carries no manifest.  The ordinary review cuts the text at the
     manifest's marker; the retry loop cuts nothing, but clears no text.
-/
import CanvasOS.Dispatch.Transparency

namespace CanvasOS.Dispatch

open Interleave Python Orchestrator Review

/-! ## What is given to a check -/

/-- The asset that a call has under review, the last one it got or stored: its id and its text. -/
def known : List Entry → Option (String × String)
  | [] => none
  | ⟨.getAsset id, asset⟩ :: _ => some (id, asset.text)
  | ⟨.createAsset _ _ _ _ text, stored⟩ :: _ => some (stored.1, text)
  | _ :: log => known log

/-- What it has done since. -/
def since : List Entry → List Entry
  | [] => []
  | ⟨.getAsset _, _⟩ :: _ => []
  | ⟨.createAsset _ _ _ _ _, _⟩ :: _ => []
  | entry :: log => entry :: since log

/-- The text that the clearance check is given. -/
def Call.clears : Call → Option String
  | .clearance (.text draftText) => some draftText
  | _ => none

/-- The text that the brand rules are given. -/
def Call.judges : Call → Option String
  | .brandRules _ draftText => some draftText
  | _ => none

/-- The text that a model with this prompt is given. -/
def Call.shows (prompt : String) : Call → Option String
  | .complete request => if request.systemPrompt = prompt then draftTextOf request.user else none
  | _ => none

/-- The text was given to a check since the call has the asset. -/
def GivenTo (check : Call → Option String) (log : List Entry) (draftText : String) : Prop :=
  ∃ entry ∈ since log, check entry.1 = some draftText

/-- The text was given to the model of this review. -/
def ShownTo (kind : ReviewKind) (log : List Entry) (draftText : String) : Prop :=
  ∃ prompt, (⟨.readPrompt (reviewPromptDir kind), prompt⟩ : Entry) ∈ log ∧
    GivenTo (Call.shows prompt) log draftText

/-- Every character of `text` is part of a text that was given. -/
def Whole (given : String → Prop) (text : String) : Prop :=
  text = "" ∨ ∃ draftText, given draftText ∧ Covers draftText text

/-- The whole text was reviewed. -/
structure InFull (kind : ReviewKind) (log : List Entry) (text : String) : Prop where
  model : Whole (ShownTo kind log) text
  clearance : Whole (GivenTo Call.clears log) text
  rules : Whole (GivenTo Call.judges log) text

/-- The text has a manifest for the designer, or what a reader takes for one. -/
def Marked (text : String) : Prop := carouselBulkCsvMarker.toList <:+: text.toList

/-- The draft is read in full unless it is marked or was regenerated. -/
structure Judged (D : DraftReviews) (log : List Entry) (kind : ReviewKind) (ref : ResultRef)
    (text : String) : Prop where
  known : known log = some (idOf (Json.get ref "vault_asset_id"), text)
  inFull : InFull kind log text ↔ text = "" ∨ (¬ Rewritten D log ∧ ¬ Marked text)

/-- What holds of a statement after the log. -/
def Judges (D : DraftReviews) (log : List Entry) : Entry → Prop
  | ⟨.db (.setResultRef taskId ref), _⟩ =>
    Passing ref → ∀ kind, taskId = D.task kind → ∃ text, Judged D log kind ref text
  | _ => True

/-- It holds of all of them. -/
def JudgesAll (D : DraftReviews) : List Entry → Prop
  | [] => True
  | entry :: log => Judges D log entry ∧ JudgesAll D log

/-! ## What a call does -/

section Walk

variable {D : DraftReviews} {P : Policies} {log : List Entry} {ref : ResultRef} {α β : Type}
  {id text : String} {kind : ReviewKind}

/-- From the log on, the routine judges what it passes, and ends in `Q`. -/
abbrev Judging (D : DraftReviews) (P : Policies) (p : Routine α) (Q : α → List Entry → Prop)
    (log : List Entry) : Prop :=
  Keeps (listen (Expected D P)) (JudgesAll D) p Q log

/-- A call that neither gets nor stores a text, clears none, and lets nothing pass. -/
def Call.Mute : Call → Prop
  | .getAsset _ => False
  | .createAsset _ _ _ _ _ => False
  | .clearance (.text _) => False
  | .db (.setResultRef _ _) => False
  | _ => True

/-- A call that neither gets nor stores a text. -/
def Call.Still : Call → Prop
  | .getAsset _ => False
  | .createAsset _ _ _ _ _ => False
  | _ => True

theorem Call.Mute.still {c : Call} (hc : c.Mute) : c.Still := by
  cases c with
  | getAsset id => exact hc
  | createAsset assetType agentRunId campaign functionId text => exact hc
  | _ => exact True.intro

theorem Call.Mute.judges {c : Call} {a : c.Res} (hc : c.Mute) : Judges D log ⟨c, a⟩ := by
  cases c with
  | db q =>
    cases q with
    | setResultRef taskId ref => exact hc.elim
    | _ => exact True.intro
  | _ => exact True.intro

theorem Call.Still.known {c : Call} {a : c.Res} (hc : c.Still) :
    CanvasOS.Dispatch.known (⟨c, a⟩ :: log) = CanvasOS.Dispatch.known log := by
  cases c with
  | getAsset id => exact hc.elim
  | createAsset assetType agentRunId campaign functionId text => exact hc.elim
  | _ => rfl

theorem Call.Still.since {c : Call} {a : c.Res} (hc : c.Still) :
    CanvasOS.Dispatch.since (⟨c, a⟩ :: log) = ⟨c, a⟩ :: CanvasOS.Dispatch.since log := by
  cases c with
  | getAsset id => exact hc.elim
  | createAsset assetType agentRunId campaign functionId text => exact hc.elim
  | _ => rfl

theorem GivenTo.cons {check : Call → Option String} {draftText : String} {c : Call} {a : c.Res}
    (hc : c.Still) (h : GivenTo check log draftText) : GivenTo check (⟨c, a⟩ :: log) draftText := by
  obtain ⟨entry, hentry, hcheck⟩ := h
  refine ⟨entry, ?_, hcheck⟩
  rw [hc.since]
  exact List.mem_cons_of_mem _ hentry

theorem givenTo_self {check : Call → Option String} {draftText : String} {c : Call} {a : c.Res}
    (hc : c.Still) (h : check c = some draftText) : GivenTo check (⟨c, a⟩ :: log) draftText := by
  refine ⟨⟨c, a⟩, ?_, h⟩
  rw [hc.since]
  exact List.mem_cons_self

theorem ShownTo.cons {draftText : String} {c : Call} {a : c.Res} (hc : c.Still)
    (h : ShownTo kind log draftText) : ShownTo kind (⟨c, a⟩ :: log) draftText := by
  obtain ⟨prompt, hprompt, hgiven⟩ := h
  exact ⟨prompt, List.mem_cons_of_mem _ hprompt, hgiven.cons hc⟩

/-- What a call has under review, whether it has rewritten the draft, and what it has cleared. -/
structure Has (D : DraftReviews) (id text : String) (rewritten : Prop) (cleared : String → Prop)
    (log : List Entry) : Prop where
  known : known log = some (id, text)
  rewritten : Rewritten D log ↔ rewritten
  cleared : ∀ draftText, GivenTo Call.clears log draftText ↔ cleared draftText

variable {rewritten : Prop} {cleared : String → Prop}

theorem rewritten_cons {c : Call} {a : c.Res} (hc : ∀ ref, c ≠ .db (.setResultRef D.draft ref)) :
    Rewritten D (⟨c, a⟩ :: log) ↔ Rewritten D log := by
  constructor
  · rintro ⟨ref, hmem⟩
    rcases List.mem_cons.1 hmem with heq | hmem
    · exact absurd (congrArg Sigma.fst heq).symm (hc ref)
    · exact ⟨ref, hmem⟩
  · exact Rewritten.cons _ _

theorem clears_cons {draftText : String} {c : Call} {a : c.Res} (hc : c.Still)
    (hclears : c.clears = none) :
    GivenTo Call.clears (⟨c, a⟩ :: log) draftText ↔ GivenTo Call.clears log draftText := by
  constructor
  · rintro ⟨entry, hentry, hcheck⟩
    rw [hc.since] at hentry
    rcases List.mem_cons.1 hentry with rfl | hentry
    · rw [hclears] at hcheck
      cases hcheck
    · exact ⟨entry, hentry, hcheck⟩
  · exact GivenTo.cons hc

theorem Call.Mute.clears {c : Call} (hc : c.Mute) : c.clears = none := by
  cases c with
  | clearance mentions =>
    cases mentions with
    | text draftText => exact hc.elim
    | declared names => rfl
  | _ => rfl

theorem Call.Mute.apart {c : Call} (hc : c.Mute) :
    ∀ ref, c ≠ .db (.setResultRef D.draft ref) := by
  rintro ref rfl
  exact hc

theorem Has.cons {c : Call} {a : c.Res} (hc : c.Mute) (h : Has D id text rewritten cleared log) :
    Has D id text rewritten cleared (⟨c, a⟩ :: log) :=
  ⟨hc.still.known.trans h.known, (rewritten_cons hc.apart).trans h.rewritten,
    fun draftText => (clears_cons hc.still hc.clears).trans (h.cleared draftText)⟩

/-- A text that was just got or stored was given to nobody. -/
theorem Has.fresh {c : Call} {a : c.Res} (hknown : CanvasOS.Dispatch.known (⟨c, a⟩ :: log) =
      some (id, text)) (hsince : CanvasOS.Dispatch.since (⟨c, a⟩ :: log) = [])
    (hrewritten : Rewritten D (⟨c, a⟩ :: log) ↔ rewritten) :
    Has D id text rewritten (fun _ => False) (⟨c, a⟩ :: log) := by
  refine ⟨hknown, hrewritten, fun draftText => ⟨?_, False.elim⟩⟩
  rintro ⟨entry, hentry, -⟩
  rw [hsince] at hentry
  cases hentry

/-! ### Rules -/

theorem Judging.ask {c : Call} {f : c.Res → Routine β} {Q : β → List Entry → Prop}
    (hlog : JudgesAll D log) (hc : ∀ a, Judges D log ⟨c, a⟩)
    (h : ∀ a, JudgesAll D (⟨c, a⟩ :: log) → Judging D P (f a) Q (⟨c, a⟩ :: log)) :
    Judging D P ((CanvasOS.Dispatch.ask c).bind f) Q log :=
  Keeps.listen_bind hlog fun a _ => h a ⟨hc a, hlog⟩

/-- A mute part keeps what every mute call keeps. -/
theorem Judging.mute {Z : List Entry → Prop} {p : Routine α} (hp : p.Only Call.Mute)
    (hlog : JudgesAll D log) (hZ : Z log)
    (hkeep : ∀ (c : Call) (a : c.Res) log, c.Mute → Z log → Z (⟨c, a⟩ :: log)) :
    Judging D P p (fun _ log => Z log) log :=
  Keeps.listen_only hp hlog hZ fun c a _ hc _ hlog hZ => ⟨⟨hc.judges, hlog⟩, hkeep c a _ hc hZ⟩

/-- A part that lets nothing pass. -/
theorem Judging.clear {p : Routine α} (hp : p.Only Call.Clear) (hlog : JudgesAll D log) :
    Judging D P p (fun _ _ => True) log := by
  refine Keeps.listen_only (Z := fun _ => True) hp hlog True.intro
    fun c a log hc _ hlog _ => ⟨⟨?_, hlog⟩, True.intro⟩
  cases c with
  | db q =>
    cases q with
    | setResultRef taskId ref => exact fun hpass => absurd hpass hc
    | _ => exact True.intro
  | _ => exact True.intro

/-! ### Mute parts -/

theorem mute_perform {c : Call} (hc : c.Mute) : (CanvasOS.Dispatch.ask c).Only Call.Mute :=
  Prog.Only.perform hc

theorem mute_tables {x : Worker α} (hx : x.Only WritesNoRef) : (onTables x).Only Call.Mute := by
  refine onTables_only (hx.mono fun o ho => ?_)
  cases hq : o.query with
  | setResultRef taskId ref =>
    unfold WritesNoRef at ho
    rw [hq] at ho
    exact ho.elim
  | _ => exact True.intro

theorem createAgentRun_mute (taskId : TaskId) (calls : Nat) (run : AgentRun) :
    (createAgentRunIdempotent taskId calls run).Only Call.Mute := by
  unfold createAgentRunIdempotent
  refine Prog.Only.bind (mute_perform True.intro) fun existing => ?_
  cases existing with
  | some id => exact mute_perform True.intro
  | none =>
    refine Prog.Only.bind (mute_perform True.intro) fun created => ?_
    exact Prog.Only.bind (mute_perform True.intro) fun _ => True.intro

theorem parseJsonContent_mute (content : Content) : (parseJsonContent content).Only Call.Mute := by
  cases content with
  | some verdict => exact True.intro
  | none => exact True.intro

/-- A check of the retry loop clears no text. -/
theorem runSingleQaCheck_mute (envelope : Envelope) (campaignId : String) (calls : Nat)
    (draftText : String) (kind : ReviewKind) :
    (runSingleQaCheck envelope campaignId calls draftText kind).Only Call.Mute := by
  unfold runSingleQaCheck
  refine Prog.Only.bind (mute_perform True.intro) fun systemPrompt => ?_
  refine Prog.Only.bind (createAgentRun_mute _ _ _) fun agentRun => ?_
  refine Prog.Only.bind (mute_perform True.intro) fun content => ?_
  refine Prog.Only.bind (parseJsonContent_mute content) fun verdict => ?_
  cases declaredViolations verdict with
  | none => exact True.intro
  | some declared =>
    refine Prog.Only.bind (mute_perform True.intro) fun uncleared => ?_
    refine Prog.Only.bind (mute_perform True.intro) fun reconciled => ?_
    exact Prog.Only.bind (mute_perform True.intro) fun _ => True.intro

theorem recheckFacts_mute (c : Retry) (calls : Nat) (draftText : String) :
    (recheckFacts c calls draftText).Only Call.Mute := by
  unfold recheckFacts
  refine Prog.Only.bind (mute_perform True.intro) fun approved => ?_
  split
  · exact Prog.Only.bind (runSingleQaCheck_mute _ _ _ _ _) fun _ => True.intro
  · exact True.intro

/-! ### The retry loop -/

/-- Once the draft is rewritten, it stays so. -/
theorem Has.cons_rewritten {c : Call} {a : c.Res} (hc : c.Still) (hclears : c.clears = none)
    (h : Has D id text True cleared log) : Has D id text True cleared (⟨c, a⟩ :: log) :=
  ⟨hc.known.trans h.known, iff_true_intro (Rewritten.cons _ _ (h.rewritten.2 trivial)),
    fun draftText => (clears_cons hc hclears).trans (h.cleared draftText)⟩

/-- A regenerated text was cleared by nobody. -/
theorem Has.inFull_iff (h : Has D id text True (fun _ => False) log) :
    InFull kind log text ↔ text = "" ∨ (¬ Rewritten D log ∧ ¬ Marked text) := by
  constructor
  · intro hfull
    rcases hfull.clearance with hempty | ⟨draftText, hgiven, -⟩
    · exact .inl hempty
    · exact ((h.cleared draftText).1 hgiven).elim
  · rintro (hempty | ⟨hnot, -⟩)
    · exact ⟨.inl hempty, .inl hempty, .inl hempty⟩
    · exact absurd (h.rewritten.2 trivial) hnot

/-- A task is completed with what may be written now. -/
theorem completeWith_judging {taskId : TaskId} {Z : List Entry → Prop}
    (hwrite : Judges D log ⟨.db (.setResultRef taskId ref), ()⟩) (hlog : JudgesAll D log)
    (hZ : Z (⟨.db (.setResultRef taskId ref), ()⟩ :: log))
    (hkeep : ∀ (c : Call) (a : c.Res) log, c.Mute → Z log → Z (⟨c, a⟩ :: log)) :
    Judging D P (onTables (completeWith taskId ref)) (fun _ log => Z log) log := by
  unfold completeWith call
  rw [Prog.bind_eq, Prog.op_bind, onTables]
  refine ⟨hlog, fun e => hlog, fun a b t ht => ?_⟩
  obtain ⟨-, rfl⟩ := listen_eq_some ht
  have hlog' : JudgesAll D (⟨.db (.setResultRef taskId ref), b⟩ :: log) := ⟨hwrite, hlog⟩
  exact ⟨Judging.mute (mute_tables (completeTask_only taskId)) hlog' hZ hkeep, fun e => hlog'⟩

theorem finalizePassed_judging {c : Retry} {asset : Regenerated} {attempt : Nat} {campaignId : Json}
    {checks : Checks} {reviews : ReviewTasks} (hlog : JudgesAll D log)
    (h : Has D asset.vaultAssetId text True (fun _ => False) log) :
    Judging D P (onTables (finalizePassed c.draft asset campaignId attempt checks reviews))
      (fun _ _ => True) log := by
  induction reviews generalizing log with
  | nil => exact ⟨hlog, True.intro⟩
  | cons x rest ih =>
    obtain ⟨kind, taskId⟩ := x
    rw [finalizePassed_cons, onTables_bind]
    refine (completeWith_judging (Z := Has D asset.vaultAssetId text True fun _ => False)
      (fun _ kind' _ => ⟨text, h.known, h.inFull_iff⟩) hlog
      (h.cons_rewritten True.intro rfl) fun c a log hc h => h.cons hc).bind fun _ _ hlog h => ?_
    exact ih hlog h

theorem retryAttempts_judging {c : Retry} (hdraft : c.draft.taskId = D.draft)
    (left attempt calls : Nat) (currentDraftText : String) (checks : Checks)
    (hlog : JudgesAll D log) :
    Judging D P (retryAttempts c left attempt calls currentDraftText checks) (fun _ _ => True)
      log := by
  induction left generalizing attempt calls currentDraftText checks log with
  | zero => exact Judging.clear (giveUp_clear _ _ _) hlog
  | succ left ih =>
    unfold retryAttempts
    split
    · exact Judging.clear (giveUp_clear _ _ _) hlog
    · refine (Judging.clear (regenerateDraftContent_clear _ _ _ _ _) hlog).bind
        fun revised log₁ hlog₁ _ => ?_
      refine Judging.ask hlog₁ (fun _ => True.intro) fun stored hlog₂ => ?_
      refine Judging.ask hlog₂ (fun _ hpass => ?_) fun _ hlog₃ => ?_
      · cases hpass
      -- the new text is under review, and nobody has cleared it
      have h₂ : Has D stored.1 revised.1 (Rewritten D (⟨.createAsset c.params.assetType revised.2
          c.campaignId c.params.functionId revised.1, stored⟩ :: log₁)) (fun _ => False)
          (⟨.createAsset c.params.assetType revised.2 c.campaignId c.params.functionId revised.1,
            stored⟩ :: log₁) := Has.fresh rfl rfl Iff.rfl
      have hstill : (Call.db (.setResultRef c.draft.taskId
          (regeneratedRef c ⟨stored.1, stored.2, revised.2⟩ attempt))).Still := True.intro
      have h₃ : Has D stored.1 revised.1 True (fun _ => False) (⟨.db (.setResultRef c.draft.taskId
          (regeneratedRef c ⟨stored.1, stored.2, revised.2⟩ attempt)), ()⟩ ::
          ⟨.createAsset c.params.assetType revised.2 c.campaignId c.params.functionId revised.1,
            stored⟩ :: log₁) :=
        ⟨h₂.known, iff_true_intro ⟨_, by rw [hdraft]; exact List.mem_cons_self⟩,
          fun draftText => (clears_cons hstill rfl).trans (h₂.cleared draftText)⟩
      refine (Judging.mute (runSingleQaCheck_mute _ _ _ _ _) hlog₃ h₃
        fun c a log hc h => h.cons hc).bind fun bs log₄ hlog₄ h₄ => ?_
      refine (Judging.mute (recheckFacts_mute _ _ _) hlog₄ h₄
        fun c a log hc h => h.cons hc).bind fun fc log₅ hlog₅ h₅ => ?_
      dsimp only
      split
      · exact finalizePassed_judging hlog₅ h₅
      · exact ih _ _ _ _ hlog₅

theorem runQaRetryLoop_judging {envelope : Envelope} {kind : ReviewKind} {draft : TaskRow}
    {params : RegenParams} {violations : List String} {draftText : String}
    (hdraft : draft.taskId = D.draft) (hlog : JudgesAll D log) :
    Judging D P (runQaRetryLoop envelope kind draft params violations draftText)
      (fun _ _ => True) log := by
  unfold runQaRetryLoop
  refine Judging.ask hlog (fun _ => True.intro) fun siblings hlog₁ => ?_
  refine (Judging.clear (resolveLineageResult_clear _) hlog₁).bind fun found log₂ hlog₂ _ => ?_
  cases found with
  | none => exact Judging.clear (blockWith_clear (by rintro ⟨⟩)) hlog₂
  | some found =>
    obtain ⟨ancestor, ancestorRef⟩ := found
    have hbrief : (briefBodyOf ancestorRef).Only Call.Clear := by
      unfold briefBodyOf
      split
      · exact clear_perform True.intro
      · exact True.intro
    refine (Judging.clear hbrief hlog₂).bind fun briefBody log₃ hlog₃ _ => ?_
    exact Judging.ask hlog₃ (fun _ => True.intro) fun campaignId hlog₄ =>
      retryAttempts_judging hdraft _ _ _ _ _ hlog₄

/-! ### The handler -/

theorem retryOrBlock_judging {envelope : Envelope} {kind : ReviewKind} {draft : TaskRow}
    {campaignId draftText agentRun : String} {violations : List String}
    (hdraft : draft.taskId = D.draft) (hlog : JudgesAll D log) :
    Judging D P (retryOrBlock envelope kind draft campaignId draftText agentRun violations)
      (fun _ _ => True) log := by
  have hblock : ∀ log, JudgesAll D log → Judging D P (onTables (finalizeQaFailure envelope.taskId
      violations draft (.str agentRun) (.str campaignId))) (fun _ _ => True) log :=
    fun log hlog => Judging.clear (blockWith_clear (by rintro ⟨⟩)) hlog
  unfold retryOrBlock
  cases draftRegenParams draft.taskType with
  | none => exact hblock _ hlog
  | some params =>
    dsimp only
    split
    · exact hblock _ hlog
    · refine Judging.ask hlog (fun _ => True.intro) fun locked hlog₁ => ?_
      have hrelease : (ask (.db (.releaseAdvisoryLock draft.taskId))).Only Call.Clear :=
        clear_perform True.intro
      split
      · exact Keeps.thenFinally (runQaRetryLoop_judging hdraft hlog₁)
          (fun _ _ hlog _ => Judging.clear hrelease hlog)
          (fun _ hlog => Judging.clear hrelease hlog)
      · exact hblock _ hlog₁

/-- An ordinary review has cleared what it shows to its model, the text up to the marker. -/
theorem Has.inFull_iff_of_reviewable
    (h : Has D id text False (fun draftText => draftText = reviewableDraftText text) log)
    (hshown : ShownTo kind log (reviewableDraftText text))
    (hjudged : GivenTo Call.judges log (reviewableDraftText text)) :
    InFull kind log text ↔ text = "" ∨ (¬ Rewritten D log ∧ ¬ Marked text) := by
  constructor
  · intro hfull
    rcases hfull.clearance with hempty | ⟨draftText, hgiven, hcovers⟩
    · exact .inl hempty
    · rw [(h.cleared draftText).1 hgiven] at hcovers
      exact .inr ⟨h.rewritten.1, covers_reviewable_iff.1 hcovers⟩
  · rintro (hempty | ⟨-, hmarked⟩)
    · exact ⟨.inl hempty, .inl hempty, .inl hempty⟩
    · have hcovers := covers_reviewable_iff.2 hmarked
      exact ⟨.inr ⟨_, hshown, hcovers⟩, .inr ⟨_, (h.cleared _).2 rfl, hcovers⟩,
        .inr ⟨_, hjudged, hcovers⟩⟩

/-- So it is when the ordinary review has gone through its checks. -/
theorem Has.reviewed {uncleared : Call.Res (.clearance (.text (reviewableDraftText text)))}
    {violations : List Json}
    {reconciled : Call.Res (.brandRules violations (reviewableDraftText text))}
    {agentRun status : String} {out : Json}
    (h : Has D id text False (fun _ => False) log)
    (hshown : ShownTo kind log (reviewableDraftText text)) :
    InFull kind (⟨.updateAgentRun agentRun status out, ()⟩ ::
        ⟨.brandRules violations (reviewableDraftText text), reconciled⟩ ::
        ⟨.clearance (.text (reviewableDraftText text)), uncleared⟩ :: log) text ↔
      text = "" ∨ (¬ Rewritten D (⟨.updateAgentRun agentRun status out, ()⟩ ::
        ⟨.brandRules violations (reviewableDraftText text), reconciled⟩ ::
        ⟨.clearance (.text (reviewableDraftText text)), uncleared⟩ :: log) ∧ ¬ Marked text) := by
  have hclearance : (Call.clearance (.text (reviewableDraftText text))).Still := True.intro
  have hrules : (Call.brandRules violations (reviewableDraftText text)).Mute := True.intro
  have hupdate : (Call.updateAgentRun agentRun status out).Mute := True.intro
  have hcleared : Has D id text False (fun draftText => draftText = reviewableDraftText text)
      (⟨.clearance (.text (reviewableDraftText text)), uncleared⟩ :: log) := by
    refine ⟨h.known, (rewritten_cons (by rintro _ ⟨⟩)).trans h.rewritten,
      fun draftText => ⟨?_, ?_⟩⟩
    · rintro ⟨entry, hentry, hcheck⟩
      rcases List.mem_cons.1 hentry with rfl | hentry
      · exact (Option.some.inj hcheck).symm
      · exact ((h.cleared draftText).1 ⟨entry, hentry, hcheck⟩).elim
    · rintro rfl
      exact givenTo_self hclearance rfl
  refine ((hcleared.cons hrules).cons hupdate).inFull_iff_of_reviewable ?_ ?_
  · exact ((hshown.cons hclearance).cons hrules.still).cons hupdate.still
  · exact (givenTo_self hrules.still rfl).cons hupdate.still

theorem draftTextOf_reviewPayload {draftText channel : String} {proofPoints : Json} :
    draftTextOf (reviewPayload kind draftText channel proofPoints) = some draftText := by
  cases kind <;> rfl

theorem reviewDraft_judging {envelope : Envelope} {draft : TaskRow} {draftRef : ResultRef}
    {campaignId systemPrompt : String} (hdistinct : Function.Injective D.task)
    (hid : envelope.taskId = D.task kind) (hdraft : draft.taskId = D.draft)
    (hlog : JudgesAll D log) (hnot : ¬ Rewritten D log)
    (hprompt : (⟨.readPrompt (reviewPromptDir kind), systemPrompt⟩ : Entry) ∈ log) :
    Judging D P (reviewDraft envelope kind draft draftRef campaignId systemPrompt)
      (fun _ _ => True) log := by
  unfold reviewDraft
  refine Judging.ask hlog (fun _ => True.intro) fun asset hlog₁ => ?_
  -- the prompt was read, and the text was given to nobody yet
  let Z (log : List Entry) : Prop :=
    Has D (idOf (Json.get draftRef "vault_asset_id")) asset.text False (fun _ => False) log ∧
      (⟨.readPrompt (reviewPromptDir kind), systemPrompt⟩ : Entry) ∈ log
  have hZ : ∀ (c : Call) (a : c.Res) log, c.Mute → Z log → Z (⟨c, a⟩ :: log) :=
    fun c a log hc h => ⟨h.1.cons hc, List.mem_cons_of_mem _ h.2⟩
  have h₁ : Z (⟨.getAsset (idOf (Json.get draftRef "vault_asset_id")), asset⟩ :: log) :=
    ⟨Has.fresh rfl rfl (iff_false_intro ((rewritten_cons (by rintro _ ⟨⟩)).not.2 hnot)),
      List.mem_cons_of_mem _ hprompt⟩
  dsimp only
  split
  · exact hlog₁
  refine (Judging.mute (createAgentRun_mute _ _ _) hlog₁ h₁ hZ).bind
    fun agentRun log₂ hlog₂ h₂ => ?_
  refine Judging.ask hlog₂ (fun _ => True.intro) fun content hlog₃ => ?_
  -- it is shown to the model
  let Z' (log : List Entry) : Prop :=
    Z log ∧ ShownTo kind log (reviewableDraftText asset.text)
  have hZ' : ∀ (c : Call) (a : c.Res) log, c.Mute → Z' log → Z' (⟨c, a⟩ :: log) :=
    fun c a log hc h => ⟨hZ c a log hc h.1, h.2.cons hc.still⟩
  have h₃ : Z' (⟨.complete ⟨"claude-sonnet", systemPrompt,
      reviewPayload kind (reviewableDraftText asset.text) (reviewChannel draft.taskType)
        (orEmpty (Json.get draftRef "proof_points")), agentRun, publicSourceContent, 1536,
      agentRun⟩, content⟩ :: log₂) :=
    ⟨hZ _ _ _ True.intro h₂, systemPrompt, List.mem_cons_of_mem _ h₂.2,
      givenTo_self True.intro ((if_pos rfl).trans draftTextOf_reviewPayload)⟩
  refine (Judging.mute (parseJsonContent_mute content) hlog₃ h₃ hZ').bind
    fun verdict log₄ hlog₄ h₄ => ?_
  cases resolveVerdict kind verdict with
  | none => exact hlog₄
  | some resolved =>
    refine Judging.ask hlog₄ (fun _ => True.intro) fun uncleared hlog₅ => ?_
    refine Judging.ask hlog₅ (fun _ => True.intro) fun reconciled hlog₆ => ?_
    refine Judging.ask hlog₆ (fun _ => True.intro) fun _ hlog₇ => ?_
    split
    · refine completeWith_judging (Z := fun _ => True) ?_ hlog₇ True.intro fun _ _ _ _ h => h
      intro _ kind' hkind
      obtain rfl := hdistinct (hid.symm.trans hkind)
      exact ⟨asset.text, by rw [get_passedRef (by decide)]; exact h₄.1.1.known,
        h₄.1.1.reviewed h₄.2⟩
    · exact retryOrBlock_judging hdraft hlog₇

/-- Every call of a review judges what it passes. -/
theorem body_judging (hdistinct : Function.Injective D.task) (r : ReviewCall) :
    Judging D P (D.body r) (fun _ _ => True) [] := by
  have hlineage : Judging D P (onTables (resolveLineageResult (D.task r.kind))) (fun found log =>
      ∀ row ref, found = some (row, ref) → row.taskId = D.draft ∧ ¬ Rewritten D log) [] := by
    refine (lineage_of_single (A := Expected D P) (D.apart r.kind) (fun log ids rows h row hrow =>
      ⟨(h row hrow).1 r.kind, fun hid => ?_⟩) True.intro fun log ids rows hlog =>
        ⟨True.intro, hlog⟩).mono fun found log _ h row ref heq => ?_
    · obtain ⟨-, ref, href, -⟩ := (h row hrow).2 hid
      exact ⟨ref, href⟩
    · obtain ⟨hid, -, rows, rows', rfl, -, -⟩ := h row ref heq
      refine ⟨hid, ?_⟩
      rintro ⟨ref, hmem⟩
      simp at hmem
  unfold DraftReviews.body singleDraftQaReview
  refine hlineage.bind fun found log hlog hfound => ?_
  cases found with
  | none => exact hlog
  | some found =>
    obtain ⟨draft, draftRef⟩ := found
    obtain ⟨hdraft, hnot⟩ := hfound draft draftRef rfl
    refine Judging.ask hlog (fun _ => True.intro) fun systemPrompt hlog₁ => ?_
    have hprompt : (⟨.readPrompt (reviewPromptDir r.kind), systemPrompt⟩ : Entry) ∈
        ⟨.readPrompt (reviewPromptDir r.kind), systemPrompt⟩ :: log := List.mem_cons_self
    have hnot₁ : ¬ Rewritten D (⟨.readPrompt (reviewPromptDir r.kind), systemPrompt⟩ :: log) :=
      (rewritten_cons (by rintro _ ⟨⟩)).not.2 hnot
    refine Judging.ask hlog₁ (fun _ => True.intro) fun campaignId hlog₂ => ?_
    have hprompt₂ := List.mem_cons_of_mem
      (⟨.getOrCreateCampaign r.campaignName (functionId r.kind), campaignId⟩ : Entry) hprompt
    have hnot₂ := (rewritten_cons (a := campaignId) (by rintro _ ⟨⟩)).not.2 hnot₁
    dsimp only
    split
    · cases hkind : r.kind with
      | brandSteward =>
        rw [hkind] at hlog₂ hnot₂ hprompt₂
        exact reviewDraft_judging hdistinct rfl hdraft hlog₂ hnot₂ hprompt₂
      | factCheck =>
        rw [hkind] at hlog₂ hnot₂ hprompt₂
        refine Judging.ask hlog₂ (fun _ => True.intro) fun approved hlog₃ => ?_
        have hnot₃ := (rewritten_cons (a := approved) (by rintro _ ⟨⟩)).not.2 hnot₂
        split
        · exact reviewDraft_judging hdistinct rfl hdraft hlog₃ hnot₃
            (List.mem_cons_of_mem _ hprompt₂)
        · exact Judging.clear (blockWith_clear (by rintro ⟨⟩)) hlog₃
    split
    · exact Judging.clear (completeWith_clear (by rintro ⟨⟩)) hlog₂
    · refine Judging.clear (Prog.Only.bind (clear_perform (by rintro ⟨⟩)) fun _ => ?_) hlog₂
      exact clear_perform True.intro

end Walk

/-! ## The rows and the assets behind them -/

/-- The call `i` has let the draft pass as `ref`, after the log. -/
def Passes (D : DraftReviews) (h : ReviewHistory) (kind : ReviewKind) (ref : ResultRef) (i : Nat)
    (log : List Entry) : Prop :=
  ⟨.db (.setResultRef (D.task kind) ref), ()⟩ :: log <:+ h.heard i

/-- Nothing has let the draft pass. -/
def Unpassed (D : DraftReviews) (w : World) : Prop :=
  ∀ row ∈ w.tables.tasks, ∀ kind, row.taskId = D.task kind → ∀ ref, row.resultRef = some ref →
    ¬ Passing ref

/-- Every call judges what it passes, the text that it has under review is in Vault, and what is
    passed was passed by a call. -/
structure Audited (D : DraftReviews) (h : ReviewHistory) : Prop where
  standing : Standing D h
  judged : ∀ i, JudgesAll D (h.heard i)
  known : ∀ i log id text, log <:+ h.heard i → known log = some (id, text) →
    ∃ asset, find h.cur.assets id = some asset ∧ asset.text = text
  passed : ∀ row ∈ h.cur.tables.tasks, ∀ kind, row.taskId = D.task kind → ∀ ref,
    row.resultRef = some ref → Passing ref → ∃ i log, Passes D h kind ref i log

section Audit

variable {D : DraftReviews} {P : Policies} {h : ReviewHistory} {i : Nat} {o : Call} {a b : o.Res}
  {t w' : World} {log : List Entry}

theorem JudgesAll.suffix {earlier : List Entry} (hsuffix : earlier <:+ log) (h : JudgesAll D log) :
    JudgesAll D earlier := by
  induction log with
  | nil =>
    rw [List.suffix_nil.1 hsuffix]
    exact h
  | cons entry log ih =>
    rcases List.suffix_cons_iff.1 hsuffix with rfl | hsuffix
    · exact h
    · exact ih hsuffix h.2

theorem Audited.elsewhere (hA : Audited D h) (he : Elsewhere D h.cur w') :
    Audited D { h with cur := w' } := by
  refine ⟨hA.standing.elsewhere he, hA.judged, fun i log id text hlog hknown => ?_,
    fun row' hrow' kind hid ref href hpass => ?_⟩
  · obtain ⟨asset, hfind, htext⟩ := hA.known i log id text hlog hknown
    exact ⟨asset, he.assets _ _ hfind, htext⟩
  · obtain ⟨row, hrow, hid', -, -, href', -⟩ := he.rows row' hrow' (.inr ⟨kind, hid⟩)
    exact hA.passed row hrow kind (hid'.trans hid) ref (href'.trans href) hpass

/-- What is got or stored now is in Vault. -/
theorem known_after {id text : String} (hx : exec P o a h.cur = some (b, t))
    (hold : known (h.heard i) = some (id, text) →
      ∃ asset, find h.cur.assets id = some asset ∧ asset.text = text)
    (hknown : known (⟨o, b⟩ :: h.heard i) = some (id, text)) :
    ∃ asset, find t.assets id = some asset ∧ asset.text = text := by
  have hgrow : Growing h.cur t := (exec_frame hx).2.2.2
  -- a call that gets and stores nothing
  have hwas : known (h.heard i) = some (id, text) →
      ∃ asset, find t.assets id = some asset ∧ asset.text = text := by
    intro hknown
    obtain ⟨asset, hfind, htext⟩ := hold hknown
    exact ⟨asset, hgrow _ _ hfind, htext⟩
  cases o with
  | getAsset id' =>
    obtain ⟨rfl, rfl⟩ := Prod.mk.inj (Option.some.inj hknown)
    obtain ⟨t', hstep, rfl⟩ := exec_eq_some hx
    obtain ⟨asset, hfind, heq⟩ := Option.map_eq_some_iff.1 hstep
    obtain ⟨rfl, rfl⟩ := Prod.mk.inj heq
    exact ⟨_, hfind, rfl⟩
  | createAsset assetType agentRunId campaign functionId text' =>
    obtain ⟨rfl, rfl⟩ := Prod.mk.inj (Option.some.inj hknown)
    obtain ⟨t', hstep, rfl⟩ := exec_eq_some hx
    obtain ⟨id', contentHash⟩ := a
    simp only [step] at hstep
    split at hstep
    · cases hstep
    · obtain ⟨rfl, rfl⟩ := Prod.mk.inj (Option.some.inj hstep)
      exact ⟨_, find_cons_self, rfl⟩
  | _ => exact hwas hknown

/-- An executed statement of a review keeps the invariant. -/
theorem Audited.step (hA : Audited D h) (hx : exec P o a h.cur = some (b, t))
    (hp : Proper D (h.heard i) ⟨o, b⟩) (hj : Judges D (h.heard i) ⟨o, b⟩) :
    Audited D (h.after i o b t) := by
  have hgrow : Growing h.cur t := (exec_frame hx).2.2.2
  have hrows := exec_rows hx hp.no_batch
  have hsaid : (h.after i o b t).heard i = ⟨o, b⟩ :: h.heard i := by
    rw [History.heard_after, if_pos rfl]
  have hother : ∀ j, j ≠ i → (h.after i o b t).heard j = h.heard j := by
    intro j hj
    rw [History.heard_after, if_neg hj]
  have hpasses : ∀ kind ref j log, Passes D h kind ref j log →
      Passes D (h.after i o b t) kind ref j log := by
    intro kind ref j log hpass
    unfold Passes at hpass ⊢
    by_cases hj : j = i
    · subst hj
      rw [hsaid]
      exact hpass.trans (List.suffix_cons _ _)
    · rwa [hother j hj]
  refine ⟨hA.standing.after hx hp, fun j => ?_, fun j log id text hlog hknown => ?_,
    fun row' hrow' kind hid ref href hpass => ?_⟩
  · by_cases hij : j = i
    · subst hij
      rw [hsaid]
      exact ⟨hj, hA.judged j⟩
    · rw [hother j hij]
      exact hA.judged j
  · have hold : ∀ log, log <:+ h.heard j → CanvasOS.Dispatch.known log = some (id, text) →
        ∃ asset, find t.assets id = some asset ∧ asset.text = text := by
      intro log hlog hknown
      obtain ⟨asset, hfind, htext⟩ := hA.known j log id text hlog hknown
      exact ⟨asset, hgrow _ _ hfind, htext⟩
    by_cases hij : j = i
    · subst hij
      rw [hsaid] at hlog
      rcases List.suffix_cons_iff.1 hlog with rfl | hlog
      · exact known_after hx (hA.known j _ id text (List.suffix_refl _)) hknown
      · exact hold log hlog hknown
    · rw [hother j hij] at hlog
      exact hold log hlog hknown
  · obtain ⟨row, hrow, hafter⟩ := hrows row' hrow'
    have hid' : row.taskId = D.task kind := hafter.taskId.symm.trans hid
    rw [hafter.resultRef] at href
    have hwas : row.resultRef = some ref → ∃ j log, Passes D (h.after i o b t) kind ref j log := by
      intro href
      obtain ⟨j, log, hmem⟩ := hA.passed row hrow kind hid' ref href hpass
      exact ⟨j, log, hpasses kind ref j log hmem⟩
    cases o with
    | db q =>
      cases q with
      | setResultRef taskId ref' =>
        by_cases heq : row.taskId = taskId
        · have hset : (Call.db (.setResultRef taskId ref')).refAfter row = some ref' := if_pos heq
          obtain rfl := Option.some.inj (hset.symm.trans href)
          refine ⟨i, h.heard i, ?_⟩
          unfold Passes
          rw [hsaid, ← hid', heq]
        · exact hwas ((if_neg heq : (Call.db (.setResultRef taskId ref')).refAfter row =
            row.resultRef).symm.trans href)
      | _ => exact hwas href
    | _ => exact hwas href

/-- Every run of the reviews. -/
theorem audited {w₀ : World} {c : ReviewConfig} (hw : Laid D w₀)
    (hdistinct : Function.Injective D.task) (hnone : Unpassed D w₀)
    (hr : (reviewing D P).Reach Sys.free (.idle ⟨w₀, [], []⟩) c) : Audited D c.shared := by
  have h₀ : Audited D ⟨w₀, [], []⟩ := by
    refine ⟨⟨hw, by rintro i ref ⟨⟩, by rintro i _ _ _ _ _ _ _ ⟨⟩⟩, fun _ => True.intro, ?_,
      fun row hrow kind hid ref href hpass => (hnone row hrow kind hid ref href hpass).elim⟩
    intro i log id text hlog hknown
    rw [List.suffix_nil.1 hlog] at hknown
    cases hknown
  refine Sys.Reach.sound_own (K := fun c => Audited D c.shared)
    (fun r => ((body_conducts D P r).and (body_judging hdistinct r)).mono fun _ _ _ _ =>
      True.intro) h₀ ?_ ?_ ?_ ?_ ?_ ?_ hr
  · exact fun c i r _ hA _ _ _ => ⟨⟨hA.standing.laid, hA.standing.sights, hA.standing.created⟩,
      hA.judged, hA.known, hA.passed⟩
  · exact fun c i r o k e hA _ => hA
  · exact fun c i r p hA _ => hA
  · exact fun c i r o k a b t hA _ hx => hA.standing.expected hx
  · exact fun c i f r o k out a b t _ _ hA _ hx hJ => hA.step hx hJ.1.1 hJ.2.1
  · intro c e w' _ hA hw'
    obtain rfl := Option.some.inj hw'
    exact hA.elsewhere (e.2 c.shared.cur)

end Audit

/-! ## What the reviews read -/

/-- Whatever passed a review was read by it in full exactly where it is empty, or it carries no
    manifest and was not regenerated by the call that passed it. -/
theorem reviewed_in_full_iff {D : DraftReviews} {P : Policies} {w₀ : World} {c : ReviewConfig}
    (hw : Laid D w₀) (hdistinct : Function.Injective D.task) (hnone : Unpassed D w₀)
    (hr : (reviewing D P).Reach Sys.free (.idle ⟨w₀, [], []⟩) c) {kind : ReviewKind} {row : TaskRow}
    {ref : ResultRef} (hrow : row ∈ c.shared.cur.tables.tasks) (hid : row.taskId = D.task kind)
    (hpassed : passedRow row = true) (href : row.resultRef = some ref) :
    (∃ i log, Passes D c.shared kind ref i log) ∧
      ∃ asset, find c.shared.cur.assets (idOf (Json.get ref "vault_asset_id")) = some asset ∧
        ∀ i log, Passes D c.shared kind ref i log →
          (InFull kind log asset.text ↔
            asset.text = "" ∨ (¬ Rewritten D log ∧ ¬ Marked asset.text)) := by
  have hA := audited hw hdistinct hnone hr
  have hpass := passing_of_passedRow hpassed href
  -- every call that let it pass had this asset under review
  have hevery : ∀ i log, Passes D c.shared kind ref i log → ∃ asset,
      find c.shared.cur.assets (idOf (Json.get ref "vault_asset_id")) = some asset ∧
        (InFull kind log asset.text ↔
          asset.text = "" ∨ (¬ Rewritten D log ∧ ¬ Marked asset.text)) := by
    intro i log hpasses
    obtain ⟨hjudges, -⟩ := JudgesAll.suffix hpasses (hA.judged i)
    obtain ⟨text, hknown, hfull⟩ := hjudges hpass kind rfl
    obtain ⟨asset, hfind, rfl⟩ :=
      hA.known i log _ text ((List.suffix_cons _ _).trans hpasses) hknown
    exact ⟨asset, hfind, hfull⟩
  obtain ⟨i, log, hpasses⟩ := hA.passed row hrow kind hid ref href hpass
  obtain ⟨asset, hfind, -⟩ := hevery i log hpasses
  refine ⟨⟨i, log, hpasses⟩, asset, hfind, fun j log' hpasses' => ?_⟩
  obtain ⟨asset', hfind', hfull⟩ := hevery j log' hpasses'
  obtain rfl := Option.some.inj (hfind.symm.trans hfind')
  exact hfull

/-- The post that passes at once was read in full. -/
theorem first_read_in_full : ∃ row ∈ firstTime.shared.cur.tables.tasks,
    row.taskId = postReviews.task .brandSteward ∧ ∃ ref, row.resultRef = some ref ∧
      (∃ i log, Passes postReviews firstTime.shared .brandSteward ref i log) ∧
        ∃ asset, find firstTime.shared.cur.assets (idOf (Json.get ref "vault_asset_id")) =
            some asset ∧
          ∀ i log, Passes postReviews firstTime.shared .brandSteward ref i log →
            (InFull .brandSteward log asset.text ↔
              asset.text = "" ∨ (¬ Rewritten postReviews log ∧ ¬ Marked asset.text)) := by
  have hpassed : Passed firstTime.shared.cur (postReviews.task .brandSteward) := by
    unfold Passed
    decide +kernel
  obtain ⟨row, hrow, hid, hp⟩ := hpassed
  obtain ⟨ref, href⟩ := resultRef_of_passedRow hp
  exact ⟨row, hrow, hid, ref, href, reviewed_in_full_iff postWorld_laid postWorld_drafted.distinct
    postWorld_drafted.unreviewed (driveGate_reach _ _ (bothCalled_reach _) _) hrow hid hp href⟩

/-! ## A carousel -/

/-- What the model has made of it. -/
def carouselOutput : Object :=
  [("slides", .arr [.obj [("slide_number", .int 1), ("headline", .str "Data"),
    ("subhead", .str "at work")]]), ("canva_bulk_create_csv", .str "slide_number,headline")]

def carouselText : String := (renderCarousel carouselOutput).getD ""

def carouselReviews : DraftReviews := { postReviews with draftType := "draft-carousel-post" }

/-- The carousel is the draft of the week. -/
def carouselWorld : World :=
  { postWorld with
    tables := { postWorld.tables with
      tasks := postWorld.tables.tasks.map fun row =>
        if row.taskId = carouselReviews.draft then
          { row with taskType := carouselReviews.draftType }
        else row }
    assets := [("asset-0", ⟨"carousel_post", "run", "campaign-1", "45", carouselText, "hash-0"⟩)] }

theorem carouselWorld_laid : Laid carouselReviews carouselWorld where
  draft := ⟨postRef, rfl, ⟨"asset-0", ⟨"carousel_post", "run", "campaign-1", "45", carouselText,
    "hash-0"⟩, rfl, rfl, rfl⟩, by decide⟩
  reviews := by
    intro row hrow kind
    revert row
    cases kind <;> decide

theorem carouselWorld_unpassed : Unpassed carouselReviews carouselWorld := by
  have hnone : ∀ kind, ∀ row ∈ carouselWorld.tables.tasks,
      row.taskId = carouselReviews.task kind → row.resultRef = none := by
    intro kind
    cases kind <;> decide
  intro row hrow kind hid ref href
  rw [hnone kind row hrow hid] at href
  cases href

/-- The brand steward passes it. -/
def carouselPassed : ReviewConfig :=
  driveGate (postModel [] []) (reviewing carouselReviews plainPolicies)
    ((reviewing carouselReviews plainPolicies).exec (.idle ⟨carouselWorld, [], []⟩)
      (.enter 0 ⟨.brandSteward, "run-1", false⟩)) (List.replicate 30 0)

/-- A carousel passes unread from its marker on. -/
theorem manifest_unread :
    ¬ ∀ (D : DraftReviews) (P : Policies) (w₀ : World) (c : ReviewConfig), Laid D w₀ →
      Function.Injective D.task → Unpassed D w₀ →
      (reviewing D P).Reach Sys.free (.idle ⟨w₀, [], []⟩) c →
      ∀ kind, ∀ row ∈ c.shared.cur.tables.tasks, row.taskId = D.task kind → passedRow row = true →
        ∀ ref, row.resultRef = some ref → ∃ i log asset, Passes D c.shared kind ref i log ∧
          find c.shared.cur.assets (idOf (Json.get ref "vault_asset_id")) = some asset ∧
            InFull kind log asset.text := by
  intro h
  have hr : (reviewing carouselReviews plainPolicies).Reach Sys.free (.idle ⟨carouselWorld, [], []⟩)
      carouselPassed := driveGate_reach _ _ (.act _ .init trivial) _
  have hA := audited carouselWorld_laid postWorld_drafted.distinct carouselWorld_unpassed hr
  have hpassed : ∃ row ∈ carouselPassed.shared.cur.tables.tasks,
      row.taskId = carouselReviews.task .brandSteward ∧ passedRow row = true ∧
        (row.resultRef.all fun ref =>
          (find carouselPassed.shared.cur.assets (idOf (Json.get ref "vault_asset_id"))).all
            fun asset => asset.text == carouselText) = true := by
    decide +kernel
  obtain ⟨row, hrow, hid, hp, htext⟩ := hpassed
  obtain ⟨ref, href⟩ := resultRef_of_passedRow hp
  obtain ⟨i, log, asset, hpasses, hfind, hread⟩ := h carouselReviews plainPolicies carouselWorld
    carouselPassed carouselWorld_laid postWorld_drafted.distinct carouselWorld_unpassed hr
    .brandSteward row hrow hid hp ref href
  rw [href, Option.all_some, hfind, Option.all_some, beq_iff_eq] at htext
  -- its text was judged by the review that passed it
  obtain ⟨hjudges, -⟩ := JudgesAll.suffix hpasses (hA.judged i)
  obtain ⟨text, hknown, hfull⟩ := hjudges (passing_of_passedRow hp href) .brandSteward rfl
  obtain ⟨asset', hfind', rfl⟩ :=
    hA.known i log _ text ((List.suffix_cons _ _).trans hpasses) hknown
  obtain rfl := Option.some.inj (hfind.symm.trans hfind')
  rcases hfull.1 hread with hempty | ⟨-, hmarked⟩
  · rw [htext] at hempty
    exact absurd hempty (by decide)
  · have hrender : renderCarousel carouselOutput = some carouselText := rfl
    rw [htext] at hmarked
    exact hmarked (marker_of_renderCarousel hrender)

end CanvasOS.Dispatch
