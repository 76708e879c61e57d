/-
  What a gate token rests on.

  Gate checks, clicks and status reads run against one inbox in any interleaving, under any policy
  and with any statement failing.  A token at level 1 or 2 is only ever returned for a triple
  (agent run, function, content hash) of which a signed-in user approved an inbox row; never at level
  0; never when the kill-switch read of the request found a switch.

  The key of an approval is the triple, while the policy is looked up by function and ACTION CLASS:
  an approval given for one action class of a function releases the same content under another one
  (`approval_ignores_action_class`).
-/
import CanvasOS.Lib.RelyGuarantee
import CanvasOS.Gatekeeper.Inbox

namespace CanvasOS.Gatekeeper

open Interleave Python Governance

/-! ## Approvals on record -/

/-- Some request's `consume_link` approved a row of this triple. -/
def ApprovedOnRecord (h : GkHistory) (t : Triple) : Prop :=
  ∃ j id decidedBy row pre,
    ⟨j, .consumeLink id .approve decidedBy, some row, pre⟩ ∈ h.log ∧ row.triple = t

/-- The kill-switch read of request `i` found no active switch that blocks the function. -/
def FoundUnblocked (h : GkHistory) (i : Nat) (functionId : String) : Prop :=
  ∃ row pre, ⟨i, .selectActiveSwitches functionId, row, pre⟩ ∈ h.log ∧
    Unblocked pre.killSwitches (.str functionId)

/-- A well-formed inbox whose approved rows all have their approval on record. -/
structure Inv (h : GkHistory) : Prop where
  wellFormed : WellFormed h.cur
  onRecord : ∀ r ∈ h.cur.inbox, r.status = .approved → ApprovedOnRecord h r.triple

theorem ApprovedOnRecord.mono {h h' : GkHistory} {t : Triple} (hl : ∀ e ∈ h.log, e ∈ h'.log)
    (ha : ApprovedOnRecord h t) : ApprovedOnRecord h' t := by
  obtain ⟨j, id, by_, row, pre, he, ht⟩ := ha
  exact ⟨j, id, by_, row, pre, hl _ he, ht⟩

theorem FoundUnblocked.mono {h h' : GkHistory} {i : Nat} {f : String}
    (hl : ∀ e ∈ h.log, e ∈ h'.log) (hf : FoundUnblocked h i f) : FoundUnblocked h' i f := by
  obtain ⟨row, pre, he, hu⟩ := hf
  exact ⟨row, pre, hl _ he, hu⟩

/-- Every statement keeps the invariant; the consuming one puts the approval on record. -/
theorem inv_exec {adm : Nat → GkHistory → (o : GkOp) → Reply Exc o.Res → Prop} :
    KeptByStatements (fun _ o => exec o) Inv adm := by
  intro i h o a b t hI _ hx
  have hl : ∀ e ∈ h.log, e ∈ (⟨i, o, b, h.cur⟩ :: h.log : List GkEvent) :=
    fun _ he => List.mem_cons_of_mem _ he
  refine ⟨hI.wellFormed.exec hx, fun r hr hs => ?_⟩
  cases (exec_inbox hx).1 with
  | same _ _ hin => exact (hI.onRecord r (hin ▸ hr) hs).mono hl
  | inserted n hin =>
    rcases List.mem_cons.1 (hin ▸ hr) with rfl | hr
    · cases hs
    · exact (hI.onRecord r hr hs).mono hl
  | consumed id choice by_ hin =>
    rcases Table.mem_update hin hr with ⟨r₀, hr₀, hp, rfl⟩ | ⟨hr, -⟩
    · obtain rfl : choice = .approve := by
        cases choice with
        | approve => rfl
        | reject => cases hs
      -- the row the statement returns is the one it updated: ids are distinct
      obtain ⟨hb, -⟩ := Prod.mk.inj (Option.some.inj hx)
      cases hfind : h.cur.inbox.find? fun r => r.id == id && r.linkConsumedAt == none with
      | none => exact absurd hp (by simpa using List.find?_eq_none.1 hfind r₀ hr₀)
      | some r₁ =>
        have hp₁ := List.find?_some hfind
        simp only [Bool.and_eq_true, beq_iff_eq] at hp hp₁
        obtain rfl := hI.wellFormed.eq_of_id (List.mem_of_find?_eq_some hfind) hr₀
          (hp₁.1.trans hp.1.symm)
        refine ⟨i, id, by_, r₁.consumed .approved by_ h.cur.now, h.cur, ?_, rfl⟩
        have hb' : b = some (r₁.consumed .approved by_ h.cur.now) := by
          rw [← hb]
          simp only [consumeLink, Table.update, hfind, Option.map_some, InboxRow.consumed, Choice.status]
        rw [← hb']
        exact List.mem_cons_self
    · exact (hI.onRecord r hr hs).mono hl
  | expired id hin =>
    rcases Table.mem_update hin hr with ⟨r₀, hr₀, hp, rfl⟩ | ⟨hr, -⟩
    · cases hs
    · exact (hI.onRecord r hr hs).mono hl
  | linked id decision hin =>
    rcases Table.mem_update hin hr with ⟨r₀, hr₀, hp, rfl⟩ | ⟨hr, -⟩
    · exact (hI.onRecord r₀ hr₀ hs).mono hl
    · exact (hI.onRecord r hr hs).mono hl

/-! ## Which routine issues what -/

/-- What a request's `consume_link` can do: it carries the click's choice and its principal. -/
def ClickOp : GkRequest → GkOp → Prop
  | .approvalAction click, .consumeLink _ choice decidedBy =>
    ∃ p, click.principal = some p ∧ choice = click.choice ∧ decidedBy = p.decidedBy
  | _, .consumeLink _ _ _ => False
  | _, _ => True

theorem recordApprovalAction_only {r : GkRequest} {id : Nat} {d : Option Nat} {o : ActionOutcome}
    {reason : String} {p : Principal} : (recordApprovalAction id d o reason p).Only (ClickOp r) :=
  .perform (by cases r <;> trivial)

theorem approvalAction_only (click : Click) :
    (approvalAction click).Only (ClickOp (.approvalAction click)) := by
  unfold approvalAction
  split
  · trivial
  rename_i p hp
  refine (Prog.Only.perform trivial).bind fun approval => ?_
  cases approval with
  | none => trivial
  | some approval =>
    simp only
    split
    · exact recordApprovalAction_only.bind fun _ => trivial
    refine (Prog.Only.perform trivial).bind fun now => ?_
    split
    · refine (Prog.Only.perform trivial).bind fun _ => ?_
      exact recordApprovalAction_only.bind fun _ => trivial
    refine (Prog.Only.perform ⟨p, hp, rfl, rfl⟩).bind fun consumed => ?_
    cases consumed with
    | none => exact recordApprovalAction_only.bind fun _ => trivial
    | some _ =>
      refine (Prog.Only.perform trivial).bind fun decision => ?_
      refine (Prog.Only.perform trivial).bind fun _ => ?_
      exact recordApprovalAction_only.bind fun _ => trivial

theorem approveAndIssue_only {r : GateCheckRequest} {t : Triple} {level : Level} {by_ reason : String} :
    (approveAndIssue t level r by_ reason).Only (ClickOp (.gateCheck r)) :=
  (Prog.Only.perform trivial).bind fun _ => (Prog.Only.perform trivial).bind fun _ => trivial

theorem approvalRequired_only {S : Settings} {r : GateCheckRequest} {t : Triple} {level : Level}
    {text : String} : (approvalRequired S t level text r).Only (ClickOp (.gateCheck r)) := by
  refine (Prog.Only.perform trivial).bind fun prior => ?_
  cases prior with
  | some prior => exact approveAndIssue_only
  | none =>
    refine (Prog.Only.perform trivial).bind fun decision => ?_
    refine Prog.Only.bind ?_ fun approval => Prog.Only.bind ?_ fun _ => trivial
    · refine (Prog.Only.perform trivial).bind fun _ => ?_
      refine (Prog.Only.perform trivial).bind fun _ => ?_
      exact .perform trivial
    · refine (Prog.Only.perform trivial).bind fun url => ?_
      split
      · trivial
      · exact (Prog.Only.perform trivial).bind fun _ => trivial

theorem handle_only (S : Settings) (r : GkRequest) : (handle S r).Only (ClickOp r) := by
  cases r with
  | approvalAction click => exact (approvalAction_only click).bind fun _ => trivial
  | approvalStatus q =>
    refine Prog.Only.bind ?_ fun _ => trivial
    unfold getApprovalStatus
    split
    · trivial
    · exact (Prog.Only.perform trivial).bind fun _ => trivial
  | gateCheck r =>
    refine Prog.Only.bind ?_ fun _ => trivial
    unfold gateCheckImpl
    split
    · trivial
    refine (Prog.Only.perform trivial).bind fun row => ?_
    simp only
    split
    · exact (Prog.Only.perform trivial).bind fun _ => trivial
    split
    · exact (Prog.Only.perform trivial).bind fun _ => trivial
    · exact approvalRequired_only
    · exact approvalRequired_only
    · exact approveAndIssue_only
    · exact approveAndIssue_only

/-! ## What a returned token rests on -/

/-- The grounds on which request `i` may be handed a token. -/
structure Released (S : Settings) (h : GkHistory) (i : Nat) (r : GateCheckRequest) : Prop where
  level : S.policy.levelFor r.functionId r.actionClass ≠ 0
  unblocked : FoundUnblocked h i r.functionId
  approved : S.policy.levelFor r.functionId r.actionClass = 1 ∨
      S.policy.levelFor r.functionId r.actionClass = 2 →
    ∃ agentRunId, S.uuid r.agentRunId = some agentRunId ∧
      ApprovedOnRecord h ⟨agentRunId, r.functionId, r.contentHash⟩

theorem Released.mono {S : Settings} {h h' : GkHistory} {i : Nat} {r : GateCheckRequest}
    (hl : ∀ e ∈ h.log, e ∈ h'.log) (hr : Released S h i r) : Released S h' i r :=
  ⟨hr.level, hr.unblocked.mono hl, fun hlevel =>
    (hr.approved hlevel).imp fun _ ⟨hu, ha⟩ => ⟨hu, ha.mono hl⟩⟩

/-- A gate check that returns a token has its grounds; nothing is claimed of its other ends. -/
def TokenGrounded (S : Settings) (i : Nat) (r : GateCheckRequest) :
    Except Exc GateCheckResponse → GkHistory → Prop
  | .ok resp, h => resp.gateToken ≠ none → Released S h i r
  | .error _, _ => True

section Routine

variable {S : Settings} {i : Nat} {r : GateCheckRequest} {h : GkHistory}
  {adm : Nat → GkHistory → (o : GkOp) → Reply Exc o.Res → Prop}

/-- The routine `p` of request `i` is justified from `h` on, and ends in `Q`. -/
abbrev Justifies (S : Settings) (adm : Nat → GkHistory → (o : GkOp) → Reply Exc o.Res → Prop)
    (i : Nat) {α : Type} (p : Gk α) (Q : Except Exc α → GkHistory → Prop) (h : GkHistory) : Prop :=
  (historyRules Inv adm).wp (gatekeeper S).run i p Q h

/-- A routine without a token in its answer. -/
theorem noToken_spec {o : GkOp} {f : o.Res → GateCheckResponse}
    (hf : ∀ b, (f b).gateToken = none) :
    Justifies S adm i ((call o).bind fun b => .pure (f b)) (TokenGrounded S i r) h :=
  wp_step inv_exec (fun _ _ => trivial) fun _ _ _ _ _ _ _ _ _ _ hne => absurd (hf _) hne

theorem approveAndIssue_spec {t : Triple} {level : Level} {by_ reason : String}
    (hr : Released S h i r) :
    Justifies S adm i (approveAndIssue t level r by_ reason) (TokenGrounded S i r) h := by
  refine wp_step inv_exec (fun _ _ => trivial) fun h₁ _ _ _ ho₁ _ _ _ => ?_
  refine wp_step inv_exec (fun _ _ => trivial) fun h₂ _ _ _ ho₂ _ _ _ => ?_
  exact fun h₃ ho₃ _ => hr.mono fun e he => ho₃.log e (List.mem_cons_of_mem _
    (ho₂.log e (List.mem_cons_of_mem _ (ho₁.log e he))))

/-- Levels 1 and 2: the token rests on the row the select returned. -/
theorem approvalRequired_spec {t : Triple} {level : Level} {text : String} {agentRunId : String}
    (hu : S.uuid r.agentRunId = some agentRunId) (ht : t = ⟨agentRunId, r.functionId, r.contentHash⟩)
    (hlevel : S.policy.levelFor r.functionId r.actionClass ≠ 0)
    (hk : FoundUnblocked h i r.functionId) :
    Justifies S adm i (approvalRequired S t level text r) (TokenGrounded S i r) h := by
  refine wp_step inv_exec (fun _ _ => trivial) fun h₁ _ prior _ ho₁ hI₁ _ hx => ?_
  cases prior with
  | none =>
    refine wp_step inv_exec (fun _ _ => trivial) fun h₂ _ decision _ _ _ _ _ => ?_
    refine Rules.wp.bind ((wp_trivial inv_exec).mono fun out h₃ _ => ?_)
    cases out with
    | error e => trivial
    | ok approval =>
      refine Rules.wp.bind ((wp_trivial inv_exec).mono fun out h₄ _ => ?_)
      cases out with
      | error e => trivial
      | ok route => exact fun _ _ hne => absurd rfl hne
  | some prior =>
    refine approveAndIssue_spec ⟨hlevel, hk.mono fun e he => List.mem_cons_of_mem _ (ho₁.log e he),
      fun _ => ⟨agentRunId, hu, ?_⟩⟩
    simp only [exec] at hx
    split at hx
    · rename_i hsel
      obtain ⟨rfl, rfl⟩ := Prod.mk.inj (Option.some.inj hx)
      obtain ⟨hmem, hp, -⟩ := Table.selects_some.1 hsel
      simp only [Bool.and_eq_true, beq_iff_eq] at hp
      have hrec := hI₁.onRecord prior hmem hp.2
      rw [hp.1, ht] at hrec
      exact hrec.mono fun _ he => List.mem_cons_of_mem _ he
    · cases hx

theorem gateCheckImpl_spec : Justifies S adm i (gateCheckImpl S r) (TokenGrounded S i r) h := by
  unfold gateCheckImpl
  split
  · exact fun _ _ => trivial
  rename_i agentRunId hu
  refine wp_step inv_exec (fun _ _ => trivial) fun h₁ _ row t ho₁ _ _ hx => ?_
  simp only
  split
  · exact noToken_spec fun _ => rfl
  rename_i hb
  have hk : FoundUnblocked
      ⟨t, h₁.arrived, ⟨i, .selectActiveSwitches r.functionId, row, h₁.cur⟩ :: h₁.log⟩ i
      r.functionId := by
    simp only [exec] at hx
    split at hx
    · rename_i hsel
      obtain ⟨rfl, -⟩ := Prod.mk.inj (Option.some.inj hx)
      exact ⟨_, h₁.cur, List.mem_cons_self, unblocked_of_isFirst hsel (by simpa using hb)⟩
    · cases hx
  split
  · exact noToken_spec fun _ => rfl
  all_goals rename_i hlevel
  · exact approvalRequired_spec hu rfl (by simp [hlevel]) hk
  · exact approvalRequired_spec hu rfl (by simp [hlevel]) hk
  · exact approveAndIssue_spec ⟨by simp [hlevel], hk, by simp [hlevel]⟩
  · exact approveAndIssue_spec ⟨by simp [hlevel], hk, by simp [hlevel]⟩

end Routine

/-- A request that was answered with a token has its grounds. -/
def Grounded (S : Settings) (i : Nat) : GkRequest → Except Exc GkResponse → GkHistory → Prop
  | .gateCheck r, .ok (.gateCheck resp), h => resp.gateToken ≠ none → Released S h i r
  | _, _, _ => True

/-- Everything holds at every moment of every run, however the requests interleave and whichever
    statements fail. -/
theorem sound_of_reach {S : Settings} {c : GkConfig}
    (hr : (gatekeeper S).Reach Sys.free GkConfig.start c) :
    Inv c.shared ∧ ∀ i r p, c.thread i = some (r, some p) →
      Justifies S (fun _ _ _ _ => True) i p (Grounded S i r) c.shared := by
  refine Sys.Reach.sound_recorded ?_ ?_ ?_ (fun _ _ _ _ _ _ _ _ => trivial) ?_ hr
  · exact ⟨.empty, fun _ h => absurd h List.not_mem_nil⟩
  · exact fun h i r hI => ⟨hI.wellFormed, hI.onRecord⟩
  · intro c m t _ hI hm
    refine ⟨hI.wellFormed.move hm, fun r hr hs => hI.onRecord r ?_ hs⟩
    cases m <;> (obtain rfl := Option.some.inj hm; exact hr)
  · intro i r h _ _ _
    cases r with
    | gateCheck r =>
      refine Rules.wp.bind (gateCheckImpl_spec.mono fun out h' hout => ?_)
      cases out with
      | error e => trivial
      | ok resp => exact fun h'' ho hne => (hout hne).mono ho.log
    | approvalAction click => exact (wp_trivial inv_exec).mono fun _ _ _ => trivial
    | approvalStatus q => exact (wp_trivial inv_exec).mono fun _ _ _ => trivial

/-- A gate token rests on a human approval of its triple.  In every run, a gate check that returned
    a token was above level 0 and had found no kill switch; at level 1 or 2, a signed-in user's
    click had approved an inbox row of the same agent run, function and content hash. -/
theorem token_needs_approval {S : Settings} {c : GkConfig}
    (hr : (gatekeeper S).Reach Sys.free GkConfig.start c) {i : Nat} {r : GateCheckRequest}
    {resp : GateCheckResponse} (hend : c.result i = some (.gateCheck r, .ok (.gateCheck resp)))
    (htoken : resp.gateToken ≠ none) :
    S.policy.levelFor r.functionId r.actionClass ≠ 0 ∧
    (∃ row pre, ⟨i, .selectActiveSwitches r.functionId, row, pre⟩ ∈ c.shared.log ∧
      Unblocked pre.killSwitches (.str r.functionId)) ∧
    (S.policy.levelFor r.functionId r.actionClass = 1 ∨
        S.policy.levelFor r.functionId r.actionClass = 2 →
      ∃ agentRunId, S.uuid r.agentRunId = some agentRunId ∧
      ∃ j click p code id row pre, c.thread j = some (.approvalAction click, code) ∧
        click.choice = .approve ∧ click.principal = some p ∧
        ⟨j, .consumeLink id .approve p.decidedBy, some row, pre⟩ ∈ c.shared.log ∧
        row.triple = ⟨agentRunId, r.functionId, r.contentHash⟩) := by
  have hrel : Released S c.shared i r :=
    (sound_of_reach hr).2 i _ _ (Config.thread_of_result_ok hend) c.shared .refl htoken
  refine ⟨hrel.level, hrel.unblocked, fun hlevel => ?_⟩
  obtain ⟨agentRunId, hu, j, id, by_, row, pre, he, ht⟩ := hrel.approved hlevel
  refine ⟨agentRunId, hu, ?_⟩
  -- only a click issues that statement, with its own choice and principal
  obtain ⟨req, code, hj, hop⟩ := hr.ops_only (handle_only S) _ he
  cases req with
  | gateCheck | approvalStatus => exact hop.elim
  | approvalAction click =>
    obtain ⟨p, hp, hs, hby⟩ := hop
    exact ⟨j, click, p, code, id, row, pre, hj, hs.symm, hp, hby ▸ he, ht⟩

/-! ## A run

    The function `schedule-social` is at level 1 for drafting and at level 2 for publishing.  A user
    approves the draft; the same content is then released for publishing. -/

def examplePolicyDocument : Json :=
  .obj [("version", .int 1), ("entries", .arr
    [.obj [("function_id", .str "schedule-social"), ("action_class", .str "draft"),
      ("level", .int 1)],
     .obj [("function_id", .str "schedule-social"), ("action_class", .str "publish"),
      ("level", .int 2)]])]

def exampleSettings : Settings :=
  ⟨⟨1, 0, [⟨"schedule-social", "draft", 1, none⟩, ⟨"schedule-social", "publish", 2, none⟩],
    by decide⟩, 86400, some⟩

/-- The check of a run's content under an action class. -/
def exampleCheck (actionClass : String) : GateCheckRequest :=
  ⟨"run-1", "schedule-social", actionClass, some "hash", none, none, none, none⟩

def exampleClick : Click := ⟨7, .approve, some ⟨"user-1", none⟩⟩

/-- The inbox row of the draft, approved by the click. -/
def exampleRow : InboxRow :=
  ⟨1, some 2, ⟨"run-1", "schedule-social", some "hash"⟩, "draft", 1, "schedule-social (draft)", none,
    evidenceSummary (exampleCheck "draft"), .approved, some "user-1", some 0, 7, some 0, 86400, 0⟩

def exampleRun : List GkAct :=
  .enter 0 (.gateCheck (exampleCheck "draft")) :: steps 0 7 ++
  .enter 1 (.approvalAction exampleClick) :: steps 1 6 ++
  .enter 2 (.gateCheck (exampleCheck "publish")) :: List.replicate 4 (.step 2 fun o => .ok
    (match o with
      | .selectLatestApproved _ => some exampleRow
      | o => o.anyAnswer))

def exampleEnd : GkConfig := exampleRun.foldl (gatekeeper exampleSettings).exec GkConfig.start

theorem exampleEnd_reach : (gatekeeper exampleSettings).Reach Sys.free GkConfig.start exampleEnd :=
  Sys.Reach.foldl_free exampleRun .init

/-- The answer the second check is given. -/
def exampleResponse : GateCheckResponse :=
  ⟨3, "run-1", .approved, "level_2_approved_by_human", 2, "schedule-social", "publish",
    some ⟨4, 3, "run-1", "hash", "schedule-social"⟩, none, none, none, none, none⟩

theorem exampleEnd_result : exampleEnd.result 2 =
    some (.gateCheck (exampleCheck "publish"), .ok (.gateCheck exampleResponse)) := by
  decide +kernel

/-- The policy is one `load_policy` accepts; the publishing check, at level 2, returns a token; and
    no inbox row of its action class was ever raised, let alone approved. -/
theorem approval_ignores_action_class :
    (∃ policy, loadPolicy (fun _ => "") "autonomy.yaml" examplePolicyDocument = .ok policy ∧
      policy = exampleSettings.policy) ∧
    (gatekeeper exampleSettings).Reach Sys.free GkConfig.start exampleEnd ∧
    exampleEnd.result 2 =
      some (.gateCheck (exampleCheck "publish"), .ok (.gateCheck exampleResponse)) ∧
    exampleResponse.level = 2 ∧ exampleResponse.gateToken ≠ none ∧
    ∀ row ∈ exampleEnd.shared.cur.inbox, row.actionClass ≠ "publish" :=
  ⟨⟨_, rfl, rfl⟩, exampleEnd_reach, exampleEnd_result, by decide, by decide, by decide +kernel⟩

/-- The token of that run rests on the click that approved the draft. -/
theorem token_needs_approval_of_draft :
    ∃ j click p code id row pre, exampleEnd.thread j = some (.approvalAction click, code) ∧
      click.choice = .approve ∧ click.principal = some p ∧
      ⟨j, .consumeLink id .approve p.decidedBy, some row, pre⟩ ∈ exampleEnd.shared.log ∧
      row.triple = ⟨"run-1", "schedule-social", some "hash"⟩ := by
  have h := (token_needs_approval exampleEnd_reach exampleEnd_result (by decide)).2.2 (.inr (by decide))
  obtain ⟨agentRunId, hu, h⟩ := h
  obtain rfl := Option.some.inj hu
  exact h

end CanvasOS.Gatekeeper
