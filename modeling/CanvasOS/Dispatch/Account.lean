/-
  What the log of a run shows.

  1. **The account** (`Account`, `account`) — the log of a run read once: the agent runs it was given,
     the completions it sent, the checks a text went through since it was last regenerated, the
     assets it read or stored, and the `result_ref`s it wrote.
  2. **What a call changes** (`exec_frame`) — a call leaves one entry, and the ledger and the assets
     keep what they have.
-/
import CanvasOS.Dispatch.Store

namespace CanvasOS.Dispatch

open Interleave Python Orchestrator Review

/-! ## The account of a run -/

/-- A check that was made, and the text it was given. -/
inductive Check where
  | model (draftText : String)
  | clearance (mentions : Mentions)
  | brand (draftText : String)
deriving DecidableEq

/-- What a log shows; every list is newest first. -/
structure Account where
  /-- the agent runs that calls of `create_agent_run_idempotent` came to -/
  runs : List String
  /-- the completions sent -/
  sent : List Completion
  /-- the checks since the latest regeneration was asked for -/
  checks : List Check
  /-- the assets read or stored -/
  known : List (String × Asset)
  /-- how many regenerated drafts were stored -/
  regenerated : Nat
  /-- the `result_ref`s written -/
  written : List (TaskId × ResultRef)

/-- Nothing was done yet. -/
def Account.empty : Account := ⟨[], [], [], [], 0, []⟩

/-- The text a payload puts before a reviewer.  The payload of a regeneration has none. -/
def draftTextOf : Json → Option String
  | .obj kvs =>
    match Json.get kvs "draft_text" with
    | .str text => some text
    | _ => none
  | _ => none

/-- The account after one more call. -/
def Account.note (D : Account) : Entry → Account
  | ⟨.getAgentRun _, id⟩ => { D with runs := id :: D.runs }
  | ⟨.createAgentRun _, id⟩ => { D with runs := id :: D.runs }
  | ⟨.complete request, _⟩ => { D with
      sent := request :: D.sent
      checks := match draftTextOf request.user with
        | some text => .model text :: D.checks
        | none => [] }
  | ⟨.clearance mentions, _⟩ => { D with checks := .clearance mentions :: D.checks }
  | ⟨.brandRules _ text, _⟩ => { D with checks := .brand text :: D.checks }
  | ⟨.getAsset id, asset⟩ => { D with known := (id, asset) :: D.known }
  | ⟨.createAsset assetType agentRunId campaign functionId text, (id, contentHash)⟩ => { D with
      known := (id, ⟨assetType, agentRunId, campaign, functionId, text, contentHash⟩) :: D.known
      regenerated := D.regenerated + 1 }
  | ⟨.db (.setResultRef taskId ref), _⟩ => { D with written := (taskId, ref) :: D.written }
  | _ => D

/-- The account a log gives. -/
def account : List Entry → Account
  | [] => .empty
  | entry :: log => (account log).note entry

/-- The call writes no `result_ref`. -/
def Call.WritesNothing : Call → Prop
  | .db (.setResultRef _ _) => False
  | _ => True

/-! ## Routines that write no `result_ref` -/

/-- A statement of the orchestrator's that writes no `result_ref`. -/
def WritesNoRef (o : Stmt) : Prop := (Call.db o.query).WritesNothing

theorem readyAmong_only (rows : List TaskRow) : (readyAmong rows).Only WritesNoRef := by
  induction rows with
  | nil => trivial
  | cons row rest ih =>
    unfold readyAmong
    split
    · exact ih
    · refine Prog.Only.bind ⟨trivial, fun r => by cases r <;> trivial⟩ fun _ => ?_
      exact ih.bind fun _ => trivial

theorem releaseAll_only (taskIds : List TaskId) : (releaseAll taskIds).Only WritesNoRef := by
  induction taskIds with
  | nil => trivial
  | cons taskId rest ih =>
    unfold releaseAll
    exact Prog.Only.bind ⟨trivial, fun r => by cases r <;> trivial⟩ fun _ => ih

theorem completeTask_only (taskId : TaskId) : (completeTask taskId).Only WritesNoRef := by
  unfold completeTask advanceDependents
  refine Prog.Only.bind ⟨trivial, fun r => by cases r <;> trivial⟩ fun _ => ?_
  refine Prog.Only.bind ⟨trivial, fun r => by cases r <;> trivial⟩ fun candidates => ?_
  exact (readyAmong_only candidates).bind fun advanced => releaseAll_only advanced

theorem onTables_only {α : Type} {x : Worker α} {P : Call → Prop}
    (hx : x.Only fun o => P (.db o.query)) : (onTables x).Only P := by
  induction x with
  | pure a => trivial
  | throw e => trivial
  | op o k ih =>
    unfold onTables
    exact ⟨hx.1, fun r => by cases r <;> exact ih _ (hx.2 _)⟩

/-! ## What a call changes -/

section Find

variable {κ ν : Type} [BEq κ] [LawfulBEq κ] {rows : List (κ × ν)} {k k' : κ} {v : ν}

/-- A row joins that no one looked for. -/
theorem find_cons_of_ne (h : k' ≠ k) : find ((k', v) :: rows) k = find rows k := by
  unfold find
  rw [List.find?_cons_of_neg]
  simpa using h

theorem find_cons_self : find ((k, v) :: rows) k = some v := by
  unfold find
  rw [List.find?_cons_of_pos (by simp), Option.map_some]

/-- Where a key was free, the row of another key stays. -/
theorem find_cons_of_some {v' : ν} (hfree : find rows k' = none) (h : find rows k = some v') :
    find ((k', v) :: rows) k = some v' := by
  rw [find_cons_of_ne, h]
  rintro rfl
  rw [hfree] at h
  cases h

end Find

section Exec

variable {P : Policies} {c : Call} {a b : c.Res} {s t : World}

theorem exec_eq_some (h : exec P c a s = some (b, t)) :
    ∃ t', step P c a s = some (b, t') ∧ t = { t' with log := ⟨c, b⟩ :: t'.log } := by
  obtain ⟨⟨b', t'⟩, hstep, heq⟩ := Option.map_eq_some_iff.1 h
  obtain ⟨rfl, rfl⟩ := Prod.mk.inj heq
  exact ⟨t', hstep, rfl⟩

/-- What no call changes: the log before it, and what is in the ledger or in Vault's assets. -/
structure Frame (s t : World) : Prop where
  log : t.log = s.log
  ledger : ∀ k id, find s.ledger k = some id → find t.ledger k = some id
  assets : ∀ id asset, find s.assets id = some asset → find t.assets id = some asset

theorem Frame.refl (s : World) : Frame s s := ⟨rfl, fun _ _ h => h, fun _ _ h => h⟩

/-- A change outside the log, the ledger and the assets. -/
theorem Frame.of_eq (hlog : t.log = s.log) (hledger : t.ledger = s.ledger)
    (hassets : t.assets = s.assets) : Frame s t :=
  ⟨hlog, fun _ _ h => hledger ▸ h, fun _ _ h => hassets ▸ h⟩

theorem step_frame (h : step P c a s = some (b, t)) : Frame s t := by
  cases c with
  | recordLedgeredAgentRun taskId ordinal id =>
    simp only [step] at h
    split at h
    · obtain ⟨-, rfl⟩ := Prod.mk.inj (Option.some.inj h)
      exact .refl s
    · next hfree =>
      obtain ⟨-, rfl⟩ := Prod.mk.inj (Option.some.inj h)
      have hfree : find s.ledger (taskId, ordinal) = none := by simpa using hfree
      exact ⟨rfl, fun k id' hk => find_cons_of_some hfree hk, fun _ _ hk => hk⟩
  | createAsset assetType agentRunId campaign functionId text =>
    obtain ⟨id, contentHash⟩ := a
    simp only [step] at h
    split at h
    · cases h
    · next hfree =>
      obtain ⟨-, rfl⟩ := Prod.mk.inj (Option.some.inj h)
      have hfree : find s.assets id = none := by simpa using hfree
      exact ⟨rfl, fun _ _ hk => hk, fun k asset hk => find_cons_of_some hfree hk⟩
  | clearance mentions =>
    cases mentions <;>
    · obtain ⟨-, rfl⟩ := Prod.mk.inj (Option.some.inj h)
      exact .refl s
  | getLedgeredAgentRun taskId ordinal | updateAgentRun id status output | getBrief id
  | readPrompt dir | brandRules violations text | listSignals limit | listPendingOptionCards limit
  | getApprovalStatus r f c | gateCheck body | recordScheduledPost channel =>
    obtain ⟨-, rfl⟩ := Prod.mk.inj (Option.some.inj h)
    exact .of_eq rfl rfl rfl
  | db q | getAgentRun id | getAsset id | getSignal id =>
    obtain ⟨x, -, hx⟩ := Option.map_eq_some_iff.1 h
    obtain ⟨-, rfl⟩ := Prod.mk.inj hx
    exact .of_eq rfl rfl rfl
  | publish taskId body =>
    obtain ⟨x, -, hx⟩ := Option.map_eq_some_iff.1 h
    obtain ⟨-, rfl⟩ := Prod.mk.inj hx
    split <;> exact .of_eq rfl rfl rfl
  | createAgentRun run | createSignal signal | createOptionCard card | createOpportunityCard card
  | findAwaitingPublication types =>
    simp only [step] at h
    split at h <;> cases h
    exact .of_eq rfl rfl rfl
  | complete request | getOrCreateCampaign runName functionId =>
    simp only [step] at h
    split at h <;> cases h <;> exact .of_eq rfl rfl rfl
  | registerUtmCampaign slug campaign asset =>
    simp only [step] at h
    split at h
    · cases h
      exact .refl s
    · split at h
      · split at h <;> cases h <;> exact .of_eq rfl rfl rfl
      · cases h

/-- A new row has no `result_ref`. -/
theorem insertTasks_ref {tasks : List NewTask} {s : State} {row : TaskRow} {ref : ResultRef}
    (hrow : row ∈ (tasks.foldl State.insertTask s).tasks) (href : row.resultRef = some ref) :
    ∃ row' ∈ s.tasks, row'.taskId = row.taskId ∧ row'.resultRef = some ref := by
  induction tasks generalizing s with
  | nil => exact ⟨row, hrow, rfl, href⟩
  | cons n tasks ih =>
    obtain ⟨row', hrow', hid, href'⟩ := ih hrow
    unfold State.insertTask at hrow'
    split at hrow'
    · exact ⟨row', hrow', hid, href'⟩
    · rcases List.mem_append.1 hrow' with hmem | hmem
      · exact ⟨row', hmem, hid, href'⟩
      · rw [List.mem_singleton.1 hmem] at href'
        cases href'

/-- Where a `result_ref` comes from: it was there, or it is what the statement writes. -/
theorem exec_ref {q : Query} {a b : q.Res} {s t : State}
    (h : Orchestrator.exec q a s = some (b, t)) :
    ∀ row ∈ t.tasks, ∀ ref, row.resultRef = some ref →
      (∃ row' ∈ s.tasks, row'.taskId = row.taskId ∧ row'.resultRef = some ref) ∨
        q = .setResultRef row.taskId ref := by
  intro row hrow ref href
  -- an update of other columns, and rows that are as they were
  have hupdate : ∀ taskId (f : TaskRow → TaskRow), row ∈ s.updateTask taskId f →
      (∀ r, (f r).taskId = r.taskId) → (∀ r, (f r).resultRef = r.resultRef) →
      ∃ row' ∈ s.tasks, row'.taskId = row.taskId ∧ row'.resultRef = some ref := by
    intro taskId f hmem hid hf
    rcases Table.mem_update rfl hmem with ⟨r, hr, -, rfl⟩ | ⟨hr, -⟩
    · exact ⟨r, hr, (hid r).symm, by rw [← href, hf]⟩
    · exact ⟨row, hr, rfl, href⟩
  have hsame : t.tasks = s.tasks →
      ∃ row' ∈ s.tasks, row'.taskId = row.taskId ∧ row'.resultRef = some ref :=
    fun heq => ⟨row, heq ▸ hrow, rfl, href⟩
  cases q with
  | insertTaskBatch tasks =>
    obtain ⟨-, rfl⟩ := Prod.mk.inj (Option.some.inj h)
    exact .inl (insertTasks_ref hrow href)
  | transition taskId dest reason =>
    obtain ⟨_, -, heq⟩ := Option.map_eq_some_iff.1 h
    obtain ⟨-, rfl⟩ := Prod.mk.inj heq
    exact .inl (hupdate taskId _ hrow (fun _ => rfl) fun _ => rfl)
  | incrementRetry taskId =>
    obtain ⟨_, -, heq⟩ := Option.map_eq_some_iff.1 h
    obtain ⟨-, rfl⟩ := Prod.mk.inj heq
    exact .inl (hupdate taskId _ hrow (fun _ => rfl) fun _ => rfl)
  | setResultRef taskId ref' =>
    obtain ⟨-, rfl⟩ := Prod.mk.inj (Option.some.inj h)
    rcases Table.mem_update rfl hrow with ⟨r, -, hp, rfl⟩ | ⟨hr, -⟩
    · obtain rfl := Option.some.inj href
      obtain rfl : r.taskId = taskId := by simpa using hp
      exact .inr rfl
    · exact .inl ⟨row, hr, rfl, href⟩
  | pendingDependents | getTasks | findDependentTasks =>
    simp only [Orchestrator.exec] at h
    split at h <;> cases h
    exact .inl (hsame rfl)
  | _ =>
    obtain ⟨-, rfl⟩ := Prod.mk.inj (Option.some.inj h)
    exact .inl (hsame rfl)

/-- Only a statement on the task tables changes them. -/
theorem step_tables (h : step P c a s = some (b, t)) (hc : ∀ q, c ≠ .db q) :
    t.tables = s.tables := by
  cases c with
  | db q => exact absurd rfl (hc q)
  | clearance mentions =>
    cases mentions <;>
    · obtain ⟨-, rfl⟩ := Prod.mk.inj (Option.some.inj h)
      rfl
  | getLedgeredAgentRun taskId ordinal | updateAgentRun id status output | getBrief id
  | readPrompt dir | brandRules violations text | listSignals limit | listPendingOptionCards limit
  | getApprovalStatus r f c | gateCheck body | recordScheduledPost channel =>
    obtain ⟨-, rfl⟩ := Prod.mk.inj (Option.some.inj h)
    rfl
  | getAgentRun id | getAsset id | getSignal id =>
    obtain ⟨x, -, hx⟩ := Option.map_eq_some_iff.1 h
    obtain ⟨-, rfl⟩ := Prod.mk.inj hx
    rfl
  | publish taskId body =>
    obtain ⟨x, -, hx⟩ := Option.map_eq_some_iff.1 h
    obtain ⟨-, rfl⟩ := Prod.mk.inj hx
    split <;> rfl
  | createAsset | createAgentRun run | createSignal signal | createOptionCard card
  | createOpportunityCard card | findAwaitingPublication types | recordLedgeredAgentRun
  | complete request | getOrCreateCampaign runName functionId =>
    simp only [step] at h
    split at h <;> cases h <;> rfl
  | registerUtmCampaign slug campaign asset =>
    simp only [step] at h
    split at h
    · cases h
      rfl
    · split at h
      · split at h <;> cases h <;> rfl
      · cases h

/-- Where a `result_ref` comes from: it was there, or it is what the call writes. -/
theorem step_ref (h : step P c a s = some (b, t)) :
    ∀ row ∈ t.tables.tasks, ∀ ref, row.resultRef = some ref →
      (∃ row' ∈ s.tables.tasks, row'.taskId = row.taskId ∧ row'.resultRef = some ref) ∨
        c = .db (.setResultRef row.taskId ref) := by
  by_cases hdb : ∃ q, c = .db q
  · obtain ⟨q, rfl⟩ := hdb
    obtain ⟨⟨b', t'⟩, hx, heq⟩ := Option.map_eq_some_iff.1 h
    obtain ⟨rfl, rfl⟩ := Prod.mk.inj heq
    intro row hrow ref href
    exact (exec_ref hx row hrow ref href).imp_right fun hq => by rw [hq]
  · intro row hrow ref href
    rw [step_tables h fun q hq => hdb ⟨q, hq⟩] at hrow
    exact .inl ⟨row, hrow, rfl, href⟩

/-- What a call keeps, and the entry it leaves. -/
theorem exec_frame (h : exec P c a s = some (b, t)) :
    t.log = ⟨c, b⟩ :: s.log ∧ account t.log = (account s.log).note ⟨c, b⟩ ∧
      (∀ k id, find s.ledger k = some id → find t.ledger k = some id) ∧
      ∀ id asset, find s.assets id = some asset → find t.assets id = some asset := by
  obtain ⟨t', hstep, rfl⟩ := exec_eq_some h
  have hf : Frame s t' := step_frame hstep
  have hlog : ({ t' with log := ⟨c, b⟩ :: t'.log } : World).log = ⟨c, b⟩ :: s.log := by
    rw [hf.log]
  exact ⟨hlog, by rw [hlog]; rfl, hf.ledger, hf.assets⟩

end Exec

end CanvasOS.Dispatch
