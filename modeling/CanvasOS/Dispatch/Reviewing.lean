/-
  A draft between its two Thursday reviews.

  1. `reviewing` — the system: the two review handlers of one draft are called any number of times,
     on any number of replicas, and run statement by statement next to each other; the rest of the
     orchestrator moves in between (`Elsewhere`).
  2. `sight` — what one call of a handler last knew of the draft's `result_ref`.
  3. `Expected` — what a call can be answered, given what it has said and heard.
  4. `Conduct` — how a call behaves under such answers: when it regenerates, when it lets a review
     task pass, which asset it then names.
  5. `Laid` — the rows and assets that the answers come from.
  6. `drive` — runs on one post, with given models.
-/
import CanvasOS.Lib.Own
import CanvasOS.Orchestrator.Rows
import CanvasOS.Dispatch.Account
import CanvasOS.Dispatch.QaReview

namespace CanvasOS.Dispatch

open Interleave Python Orchestrator Review

/-! ## The system -/

/-- A draft and its two review tasks. -/
structure DraftReviews where
  draft : TaskId
  draftType : String
  task : ReviewKind → TaskId
  apart : ∀ kind, task kind ≠ draft

/-- A call of a review handler: which of the two, and its envelope but for the task. -/
structure ReviewCall where
  kind : ReviewKind
  campaignName : String
  proofCircuit : Bool
deriving DecidableEq

/-- `qa_review_brand_steward_handler` and `qa_review_fact_check_handler`, called for the draft. -/
def DraftReviews.body (D : DraftReviews) (r : ReviewCall) : Routine Unit :=
  singleDraftQaReview r.kind ⟨D.task r.kind, r.campaignName, r.proofCircuit⟩

/-- What the rest of the orchestrator leaves alone: the `result_ref`s of the draft and of its review
    tasks, the completion of the latter, and the assets in Vault. -/
structure Elsewhere (D : DraftReviews) (w w' : World) : Prop where
  rows : ∀ row' ∈ w'.tables.tasks, (row'.taskId = D.draft ∨ ∃ kind, row'.taskId = D.task kind) →
    ∃ row ∈ w.tables.tasks, row.taskId = row'.taskId ∧ row.taskType = row'.taskType ∧
      row.dependsOn = row'.dependsOn ∧ row.resultRef = row'.resultRef ∧
      (row'.state = .completed → row.state = .completed)
  assets : ∀ id asset, find w.assets id = some asset → find w'.assets id = some asset

/-- The calls, statement by statement, with a record. -/
def reviewing (D : DraftReviews) (P : Policies) :
    Sys Call Call.Res Failure (History Call Call.Res World Nat ReviewCall) Nat ReviewCall Unit
      { f : World → World // ∀ w, Elsewhere D w (f w) } :=
  recorded D.body (fun _ => exec P) fun f w => some (f.1 w)

/-- A configuration of the system. -/
abbrev ReviewConfig :=
  Config Call Call.Res Failure (History Call Call.Res World Nat ReviewCall) Nat ReviewCall Unit

/-- The review task is COMPLETED, and its `result_ref` says `"pass": true`. -/
def passedRow (row : TaskRow) : Bool :=
  row.state == .completed && row.resultRef.any fun ref => Json.get ref "pass" == .bool true

def Passed (w : World) (taskId : TaskId) : Prop :=
  ∃ row ∈ w.tables.tasks, row.taskId = taskId ∧ passedRow row = true

/-! ## What a statement does to a row -/

/-- The `result_ref` of a row after a statement. -/
def Call.refAfter (c : Call) (row : TaskRow) : Option ResultRef :=
  match c with
  | .db (.setResultRef taskId ref) => if row.taskId = taskId then some ref else row.resultRef
  | _ => row.resultRef

/-- The state of a row after a statement. -/
def Call.stateAfter (c : Call) (row : TaskRow) : TaskState :=
  match c with
  | .db (.transition taskId toState _) => if row.taskId = taskId then toState else row.state
  | _ => row.state

/-- `row'` is `row` after the call `c`. -/
structure RowAfter (c : Call) (row row' : TaskRow) : Prop where
  taskId : row'.taskId = row.taskId
  taskType : row'.taskType = row.taskType
  dependsOn : row'.dependsOn = row.dependsOn
  resultRef : row'.resultRef = c.refAfter row
  state : row'.state = c.stateAfter row

/-- A statement that inserts no batch changes one column of one row at most. -/
theorem exec_rows {P : Policies} {c : Call} {a b : c.Res} {w t : World}
    (h : exec P c a w = some (b, t)) (hc : ∀ tasks, c ≠ .db (.insertTaskBatch tasks)) :
    ∀ row' ∈ t.tables.tasks, ∃ row ∈ w.tables.tasks, RowAfter c row row' := by
  obtain ⟨t, hstep, rfl⟩ := exec_eq_some h
  intro row' hrow'
  by_cases hdb : ∃ q, c = .db q
  · obtain ⟨q, rfl⟩ := hdb
    obtain ⟨⟨b', s'⟩, hx, heq⟩ := Option.map_eq_some_iff.1 hstep
    obtain ⟨-, rfl⟩ := Prod.mk.inj heq
    have hsame : s'.tasks = w.tables.tasks → (Call.db q).refAfter row' = row'.resultRef →
        (Call.db q).stateAfter row' = row'.state → ∃ row ∈ w.tables.tasks,
          RowAfter (.db q) row row' :=
      fun heq href hstate => ⟨row', heq ▸ hrow', rfl, rfl, rfl, href.symm, hstate.symm⟩
    -- an update of the row with this id
    have hupdate : ∀ taskId (f : TaskRow → TaskRow), row' ∈ w.tables.updateTask taskId f →
        (∀ row, row.taskId = taskId → RowAfter (.db q) row (f row)) →
        (∀ row, row.taskId ≠ taskId → RowAfter (.db q) row row) →
        ∃ row ∈ w.tables.tasks, RowAfter (.db q) row row' := by
      intro taskId f hmem hf hother
      rcases Table.mem_update rfl hmem with ⟨row, hrow, hp, rfl⟩ | ⟨hrow, hp⟩
      · exact ⟨row, hrow, hf row (by simpa using hp)⟩
      · exact ⟨row', hrow, hother row' (by simpa using hp)⟩
    cases q with
    | insertTaskBatch tasks => exact absurd rfl (hc tasks)
    | transition taskId toState reason =>
      obtain ⟨_, -, heq⟩ := Option.map_eq_some_iff.1 hx
      obtain ⟨-, rfl⟩ := Prod.mk.inj heq
      refine hupdate taskId _ hrow' (fun row hid => ?_) fun row hid => ?_
      · exact ⟨rfl, rfl, rfl, rfl, (if_pos hid).symm⟩
      · exact ⟨rfl, rfl, rfl, rfl, (if_neg hid).symm⟩
    | incrementRetry taskId =>
      obtain ⟨_, -, heq⟩ := Option.map_eq_some_iff.1 hx
      obtain ⟨-, rfl⟩ := Prod.mk.inj heq
      exact hupdate taskId _ hrow' (fun row _ => ⟨rfl, rfl, rfl, rfl, rfl⟩)
        fun row _ => ⟨rfl, rfl, rfl, rfl, rfl⟩
    | setResultRef taskId ref =>
      obtain ⟨-, rfl⟩ := Prod.mk.inj (Option.some.inj hx)
      refine hupdate taskId _ hrow' (fun row hid => ?_) fun row hid => ?_
      · exact ⟨rfl, rfl, rfl, (if_pos hid).symm, rfl⟩
      · exact ⟨rfl, rfl, rfl, (if_neg hid).symm, rfl⟩
    | pendingDependents taskId | getTasks taskIds | findDependentTasks taskId =>
      simp only [Orchestrator.exec] at hx
      split at hx
      · obtain ⟨-, rfl⟩ := Prod.mk.inj (Option.some.inj hx)
        exact hsame rfl rfl rfl
      · cases hx
    | countCompleted | getTask | publishTask | publishAlert | completeTask | completeEvent | invoke
    | work | campaign | factCheckGateApproved | review | regenerate | tryAdvisoryLock
    | releaseAdvisoryLock | notify =>
      obtain ⟨-, rfl⟩ := Prod.mk.inj (Option.some.inj hx)
      exact hsame rfl rfl rfl
  · have htables : t.tables = w.tables := step_tables hstep fun q hq => hdb ⟨q, hq⟩
    refine ⟨row', htables ▸ hrow', rfl, rfl, rfl, ?_, ?_⟩
    · cases c with
      | db q => exact absurd ⟨q, rfl⟩ hdb
      | _ => rfl
    · cases c with
      | db q => exact absurd ⟨q, rfl⟩ hdb
      | _ => rfl

/-! ## What a call of a handler knows -/

/-- The `result_ref` of the draft, as it was last read or written. -/
def sight (D : DraftReviews) : List Entry → Option ResultRef
  | [] => none
  | ⟨.db (.setResultRef taskId ref), _⟩ :: log => if taskId = D.draft then some ref else sight D log
  | ⟨.db (.getTasks _), rows⟩ :: log =>
    match rows.find? fun row => row.taskId == D.draft with
    | some row => row.resultRef
    | none => sight D log
  | _ :: log => sight D log

/-- The `result_ref` of the task was written, and that of the draft not since. -/
def Settled (D : DraftReviews) (taskId : TaskId) : List Entry → Prop
  | [] => False
  | ⟨.db (.setResultRef taskId' _), _⟩ :: log =>
    taskId' = taskId ∨ (taskId' ≠ D.draft ∧ Settled D taskId log)
  | _ :: log => Settled D taskId log

/-- The draft was not given up before it was written: it names an asset. -/
def Attempted (ref : ResultRef) : Prop :=
  (Json.get ref "status").truthy = false ∧ ∃ id, Json.get ref "vault_asset_id" = .str id

/-- The answers that a laid-out world can give after `log`. -/
def Expected (D : DraftReviews) (P : Policies) (log : List Entry) : Entry → Prop
  | ⟨.db (.getTasks _), rows⟩ => ∀ row ∈ rows,
    (∀ kind, row.taskId = D.task kind → row.dependsOn = [D.draft]) ∧
      (row.taskId = D.draft → row.taskType = D.draftType ∧
        ∃ ref, row.resultRef = some ref ∧ Attempted ref)
  | ⟨.db (.findDependentTasks taskId), rows⟩ =>
    taskId = D.draft → ∀ row ∈ rows, row.taskId ≠ D.draft
  | ⟨.getAsset id, asset⟩ => ∀ ref, sight D log = some ref →
    Json.get ref "vault_asset_id" = .str id →
      Json.get ref "content_hash" = .str asset.contentHash
  | ⟨.brandRules violations draftText, answer⟩ =>
    answer = reconcileViolations P.unicode violations draftText
  | _ => True

/-! ## How it behaves -/

/-- A failed review leaves the code that must not be retried. -/
def recordsCode (ref : ResultRef) : Bool :=
  Json.get ref "pass" == .bool false &&
    match Json.get ref "violations" with
    | .arr violations => violations.contains (.str violationCode)
    | _ => false

def Call.records : Call → Bool
  | .db (.setResultRef _ ref) => recordsCode ref
  | _ => false

/-- A completion that asks for a revision of the draft. -/
def Call.regenerates : Call → Bool
  | .complete request =>
    match request.user with
    | .obj payload => (Json.lookup payload "revision_feedback").isSome
    | _ => false
  | _ => false

/-- What the checks leave of a verdict lets the draft go on: nothing is left, or the draft can be
    regenerated and the uncleared name is not among it. -/
def overlooked (D : DraftReviews) (violations : List Json) : Bool :=
  !violations.contains (.str violationCode) &&
    (violations == [] || draftRegenTypes.contains D.draftType)

def Overlooks (D : DraftReviews) : Entry → Prop
  | ⟨.brandRules _ _, answer⟩ => overlooked D answer.1 = true
  | _ => False

/-- A verdict has overlooked the code, and none was recorded. -/
def Undetected (D : DraftReviews) (log : List Entry) : Prop :=
  (∃ entry ∈ log, Overlooks D entry) ∧ ∀ entry ∈ log, entry.1.records = false

/-- `ref` names the asset that the draft was last known by. -/
def AsSeen (D : DraftReviews) (log : List Entry) (ref : ResultRef) : Prop :=
  ∃ seen, sight D log = some seen ∧
    Json.get ref "vault_asset_id" = Json.get seen "vault_asset_id" ∧
    Json.get ref "content_hash" = Json.get seen "content_hash"

/-- `ref` names an asset that was stored by this call. -/
def FromVault (log : List Entry) (ref : ResultRef) : Prop :=
  ∃ assetType agentRunId campaign functionId text id contentHash,
    (⟨.createAsset assetType agentRunId campaign functionId text, (id, contentHash)⟩ : Entry) ∈ log ∧
    Json.get ref "vault_asset_id" = .str id ∧ Json.get ref "content_hash" = .str contentHash

/-- What holds of a statement after the log. -/
def Proper (D : DraftReviews) (log : List Entry) : Entry → Prop
  | ⟨.db (.insertTaskBatch _), _⟩ => False
  | ⟨.db (.setResultRef taskId ref), _⟩ =>
    (taskId = D.draft → Attempted ref ∧ FromVault log ref) ∧
    (taskId ≠ D.draft → (sight D log).isSome = true ∧
      (Json.get ref "pass" = .bool true → Undetected D log ∧ AsSeen D log ref))
  | ⟨.db (.transition taskId toState _), _⟩ =>
    toState = .completed → Undetected D log ∧ Settled D taskId log
  | ⟨.complete request, _⟩ => (Call.complete request).regenerates = true → Undetected D log
  | _ => True

/-- It holds of all of them. -/
def Conduct (D : DraftReviews) : List Entry → Prop
  | [] => True
  | entry :: log => Proper D log entry ∧ Conduct D log

/-- A call that is neither a write nor a completion of a task, reads no draft and asks for no
    revision. -/
def Call.Plain : Call → Prop
  | .db (.setResultRef _ _) => False
  | .db (.insertTaskBatch _) => False
  | .db (.getTasks _) => False
  | .db (.transition _ toState _) => toState ≠ .completed
  | .complete request => (Call.complete request).regenerates = false
  | _ => True

section Plain

variable {D : DraftReviews} {c : Call} {a : c.Res} {log : List Entry}

theorem Call.Plain.proper (hc : c.Plain) : Proper D log ⟨c, a⟩ := by
  cases c with
  | db q =>
    cases q with
    | setResultRef taskId ref => exact hc.elim
    | insertTaskBatch tasks => exact hc.elim
    | transition taskId toState reason => exact fun h => absurd h hc
    | _ => exact True.intro
  | complete request => exact fun h => absurd h (by rw [hc]; exact Bool.false_ne_true)
  | _ => exact True.intro

theorem Call.Plain.sight (hc : c.Plain) :
    CanvasOS.Dispatch.sight D (⟨c, a⟩ :: log) = CanvasOS.Dispatch.sight D log := by
  cases c with
  | db q =>
    cases q with
    | setResultRef taskId ref | getTasks taskIds => exact hc.elim
    | _ => rfl
  | _ => rfl

theorem Call.Plain.records (hc : c.Plain) : c.records = false := by
  cases c with
  | db q =>
    cases q with
    | setResultRef taskId ref => exact hc.elim
    | _ => rfl
  | _ => rfl

theorem Call.Plain.conduct (hc : c.Plain) (h : Conduct D log) : Conduct D (⟨c, a⟩ :: log) :=
  ⟨hc.proper, h⟩

end Plain

/-! ## The walk through the handler -/

section Walk

variable {D : DraftReviews} {P : Policies} {log : List Entry} {ref : ResultRef} {α : Type}

/-- From the log on, the routine conducts itself, and ends in `Q`. -/
abbrev Conducts (D : DraftReviews) (P : Policies) (p : Routine α) (Q : α → List Entry → Prop)
    (log : List Entry) : Prop :=
  Keeps (listen (Expected D P)) (Conduct D) p Q log

theorem Conducts.ask {β : Type} {c : Call} {f : c.Res → Routine β} {Q : β → List Entry → Prop}
    (hlog : Conduct D log)
    (h : ∀ a, Expected D P log ⟨c, a⟩ → Conducts D P (f a) Q (⟨c, a⟩ :: log)) :
    Conducts D P ((CanvasOS.Dispatch.ask c).bind f) Q log :=
  Keeps.listen_bind hlog h

/-- The same of a statement in a part that is about the task tables alone. -/
theorem Conducts.tables {β : Type} {site : Site} {q : Query} {f : q.Res → Worker β}
    {Q : β → List Entry → Prop} (hlog : Conduct D log)
    (h : ∀ a, Expected D P log ⟨.db q, a⟩ →
      Conducts D P (onTables (f a)) Q (⟨.db q, a⟩ :: log)) :
    Conducts D P (onTables ((call site q).bind f)) Q log := by
  unfold call
  rw [Prog.op_bind, onTables]
  refine ⟨hlog, fun e => hlog, fun a b t ht => ?_⟩
  obtain ⟨hb, rfl⟩ := listen_eq_some ht
  exact ⟨h b hb, fun e => (h b hb).inv⟩

/-- What plain calls keep, a routine of plain calls keeps. -/
theorem Conducts.plain {Z : List Entry → Prop} {p : Routine α} (hp : p.Only Call.Plain)
    (hlog : Conduct D log) (hZ : Z log)
    (hkeep : ∀ (c : Call) (a : c.Res) log, c.Plain → Z log → Z (⟨c, a⟩ :: log)) :
    Conducts D P p (fun _ log => Z log) log :=
  Keeps.listen_only hp hlog hZ fun c a _ hc _ hJ hZ => ⟨hc.conduct hJ, hkeep c a _ hc hZ⟩

/-- A part of plain calls, and what follows it. -/
theorem Conducts.bind' {β : Type} {Z : List Entry → Prop} {p : Routine α} {f : α → Routine β}
    {Q : β → List Entry → Prop} (hp : p.Only Call.Plain) (hlog : Conduct D log) (hZ : Z log)
    (hkeep : ∀ (c : Call) (a : c.Res) log, c.Plain → Z log → Z (⟨c, a⟩ :: log))
    (hf : ∀ a log, Conduct D log → Z log → Conducts D P (f a) Q log) :
    Conducts D P (p.bind f) Q log :=
  (Conducts.plain hp hlog hZ hkeep).bind hf

/-- No code was recorded. -/
def Unsaid (log : List Entry) : Prop := ∀ entry ∈ log, entry.1.records = false

theorem Unsaid.cons {c : Call} {a : c.Res} (hc : c.records = false) (h : Unsaid log) :
    Unsaid (⟨c, a⟩ :: log) := by
  intro entry hentry
  rcases List.mem_cons.1 hentry with rfl | hentry
  · exact hc
  · exact h entry hentry

theorem Undetected.cons {c : Call} {a : c.Res} (hc : c.records = false) (h : Undetected D log) :
    Undetected D (⟨c, a⟩ :: log) := by
  obtain ⟨⟨entry, hentry, hover⟩, hunsaid⟩ := h
  exact ⟨⟨entry, List.mem_cons_of_mem _ hentry, hover⟩, Unsaid.cons hc hunsaid⟩

/-- The draft is known by `ref`, and no code was recorded. -/
structure Knows (D : DraftReviews) (ref : ResultRef) (log : List Entry) : Prop where
  sight : sight D log = some ref
  unsaid : Unsaid log

theorem Knows.cons (c : Call) (a : c.Res) (log : List Entry) (hc : c.Plain)
    (h : Knows D ref log) : Knows D ref (⟨c, a⟩ :: log) :=
  ⟨hc.sight.trans h.sight, h.unsaid.cons hc.records⟩

/-- The draft is known by `ref`, and its uncleared name was overlooked. -/
structure Trusts (D : DraftReviews) (ref : ResultRef) (log : List Entry) : Prop where
  sight : sight D log = some ref
  undetected : Undetected D log

theorem Trusts.cons (c : Call) (a : c.Res) (log : List Entry) (hc : c.Plain)
    (h : Trusts D ref log) : Trusts D ref (⟨c, a⟩ :: log) :=
  ⟨hc.sight.trans h.sight, h.undetected.cons hc.records⟩

/-- It is known by some `result_ref`. -/
def Sighted (D : DraftReviews) (log : List Entry) : Prop := (sight D log).isSome = true

theorem Sighted.cons (c : Call) (a : c.Res) (log : List Entry) (hc : c.Plain)
    (h : Sighted D log) : Sighted D (⟨c, a⟩ :: log) := by
  unfold Sighted at h ⊢
  rw [hc.sight]
  exact h

theorem Knows.sighted (h : Knows D ref log) : Sighted D log := by
  unfold Sighted
  rw [h.sight]
  rfl

theorem Trusts.sighted (h : Trusts D ref log) : Sighted D log := by
  unfold Sighted
  rw [h.sight]
  rfl

/-! ### Lineage -/

/-- One level of the walk. -/
theorem keeps_level {A : List Entry → Entry → Prop} {J : List Entry → Prop} {t : TaskId}
    {log : List Entry} {hops : Nat} {frontier seen : List TaskId}
    {Q : Option (TaskRow × ResultRef) → List Entry → Prop} (hfrontier : frontier ≠ []) (hlog : J log)
    (hf : ∀ rows, A log ⟨.db (.getTasks frontier), rows⟩ → Keeps (listen A) J
      (onTables (match scanFrontier t rows frontier seen [] with
        | .inl found => .pure (some found)
        | .inr (seen, next) => walkLineage t hops next seen)) Q
      (⟨.db (.getTasks frontier), rows⟩ :: log)) :
    Keeps (listen A) J (onTables (walkLineage t (hops + 1) frontier seen)) Q log := by
  rw [walkLineage_step hfrontier]
  unfold call
  rw [Prog.op_bind, onTables]
  refine ⟨hlog, fun e => hlog, fun a b s hs => ?_⟩
  obtain ⟨hb, rfl⟩ := listen_eq_some hs
  exact ⟨hf b hb, fun e => (hf b hb).inv⟩

/-- A task that depends on one other, which has left a `result_ref`, finds that one or nothing. -/
theorem lineage_of_single {A : List Entry → Entry → Prop} {J : List Entry → Prop} {t d : TaskId}
    (hne : t ≠ d)
    (hA : ∀ log ids rows, A log ⟨.db (.getTasks ids), rows⟩ → ∀ row ∈ rows,
      (row.taskId = t → row.dependsOn = [d]) ∧ (row.taskId = d → ∃ ref, row.resultRef = some ref))
    (hJ : J []) (hcons : ∀ log ids rows, J log → J (⟨.db (.getTasks ids), rows⟩ :: log)) :
    Keeps (listen A) J (onTables (resolveLineageResult t)) (fun found log => ∀ row ref,
      found = some (row, ref) → row.taskId = d ∧ row.resultRef = some ref ∧
        ∃ rows rows', log = [⟨.db (.getTasks [d]), rows'⟩, ⟨.db (.getTasks [t]), rows⟩] ∧
          (rows'.find? fun r => r.taskId == d) = some row ∧
            A [⟨.db (.getTasks [t]), rows⟩] ⟨.db (.getTasks [d]), rows'⟩) [] := by
  unfold resolveLineageResult maxLineageHops
  refine keeps_level (List.cons_ne_nil _ _) hJ fun rows hrows => ?_
  have hlog₁ : J [⟨.db (.getTasks [t]), rows⟩] := hcons _ _ _ hJ
  unfold scanFrontier
  cases hfind : rows.find? fun r => r.taskId == t with
  | none => exact ⟨hlog₁, by rintro _ _ ⟨⟩⟩
  | some row =>
    obtain ⟨hmem, hid⟩ := find_taskId hfind
    have hdeps := (hA _ _ _ hrows row hmem).1 hid
    simp only [if_true, hdeps, extendFrontier, List.foldl_cons, List.foldl_nil, scanFrontier]
    rw [if_neg (by simpa using hne.symm)]
    dsimp only [List.nil_append]
    refine keeps_level (List.cons_ne_nil _ _) hlog₁ fun rows' hrows' => ?_
    have hlog₂ := hcons _ [d] rows' hlog₁
    unfold scanFrontier
    cases hfind' : rows'.find? fun r => r.taskId == d with
    | none => exact ⟨hlog₂, by rintro _ _ ⟨⟩⟩
    | some draft =>
      obtain ⟨hmem', hid'⟩ := find_taskId hfind'
      obtain ⟨ref, href⟩ := (hA _ _ _ hrows' draft hmem').2 hid'
      dsimp only
      rw [if_neg (Ne.symm hne), href]
      refine ⟨hlog₂, fun row' ref' h => ?_⟩
      obtain ⟨rfl, rfl⟩ := Prod.mk.inj (Option.some.inj h)
      exact ⟨hid', href, rows, rows', rfl, hfind', hrows'⟩

/-- What is found is what was seen. -/
theorem sight_of_find {rows : List TaskRow} {row : TaskRow} {ids : List TaskId}
    (hfind : (rows.find? fun r => r.taskId == D.draft) = some row) :
    sight D (⟨.db (.getTasks ids), rows⟩ :: log) = row.resultRef := by
  unfold sight
  rw [hfind]

/-- A review task finds its draft, or nothing. -/
theorem lineage_of_review (kind : ReviewKind) :
    Conducts D P (onTables (resolveLineageResult (D.task kind)))
      (fun found log => ∀ row ref, found = some (row, ref) →
        row.taskId = D.draft ∧ row.taskType = D.draftType ∧ Attempted ref ∧ Knows D ref log) [] := by
  refine (lineage_of_single (A := Expected D P) (D.apart kind) (fun log ids rows h row hrow => ?_)
    True.intro fun _ _ _ hlog => ⟨True.intro, hlog⟩).mono fun found log _ h row ref heq => ?_
  · obtain ⟨hdeps, hdraft⟩ := h row hrow
    exact ⟨hdeps kind, fun hid => (hdraft hid).2.imp fun _ hattempted => hattempted.1⟩
  · obtain ⟨hid, href, rows, rows', rfl, hfind, hexpected⟩ := h row ref heq
    obtain ⟨htype, ref', href', hattempted⟩ := (hexpected row (List.mem_of_find?_eq_some hfind)).2 hid
    obtain rfl : ref' = ref := Option.some.inj (href'.symm.trans href)
    refine ⟨hid, htype, hattempted, (sight_of_find hfind).trans href, ?_⟩
    exact Unsaid.cons rfl (Unsaid.cons rfl fun _ h => nomatch h)

/-! ### Plain parts -/

theorem plain_perform {c : Call} (hc : c.Plain) : (ask c).Only Call.Plain := Prog.Only.perform hc

/-- A statement on the task tables is plain if it is as a call. -/
def PlainStmt (o : Stmt) : Prop := (Call.db o.query).Plain

theorem plain_call {site : Site} {q : Query} (hq : (Call.db q).Plain) :
    (call site q).Only PlainStmt :=
  ⟨hq, fun r => by cases r <;> exact True.intro⟩

theorem createAgentRun_plain (taskId : TaskId) (calls : Nat) (run : AgentRun) :
    (createAgentRunIdempotent taskId calls run).Only Call.Plain := by
  unfold createAgentRunIdempotent
  refine Prog.Only.bind (plain_perform True.intro) fun existing => ?_
  cases existing with
  | some id => exact plain_perform True.intro
  | none =>
    refine Prog.Only.bind (plain_perform True.intro) fun created => ?_
    exact Prog.Only.bind (plain_perform True.intro) fun _ => True.intro

theorem parseJsonContent_plain (content : Content) :
    (parseJsonContent content).Only Call.Plain := by
  cases content with
  | some verdict => exact True.intro
  | none => exact True.intro

theorem runSingleQaCheck_plain (envelope : Envelope) (campaignId : String) (calls : Nat)
    (draftText : String) (kind : ReviewKind) :
    (runSingleQaCheck envelope campaignId calls draftText kind).Only Call.Plain := by
  unfold runSingleQaCheck
  refine Prog.Only.bind (plain_perform True.intro) fun systemPrompt => ?_
  refine Prog.Only.bind (createAgentRun_plain _ _ _) fun agentRun => ?_
  have hregen : (Call.complete ⟨"claude-sonnet", systemPrompt, recheckPayload draftText, agentRun,
      publicSourceContent, 1536, agentRun⟩).Plain := rfl
  refine Prog.Only.bind (plain_perform hregen) fun content => ?_
  refine Prog.Only.bind (parseJsonContent_plain content) fun verdict => ?_
  cases declaredViolations verdict with
  | none => exact True.intro
  | some declared =>
    refine Prog.Only.bind (plain_perform True.intro) fun uncleared => ?_
    refine Prog.Only.bind (plain_perform True.intro) fun reconciled => ?_
    exact Prog.Only.bind (plain_perform True.intro) fun _ => True.intro

theorem recheckFacts_plain (c : Retry) (calls : Nat) (draftText : String) :
    (recheckFacts c calls draftText).Only Call.Plain := by
  unfold recheckFacts
  refine Prog.Only.bind (plain_perform True.intro) fun approved => ?_
  split
  · exact Prog.Only.bind (runSingleQaCheck_plain _ _ _ _ _) fun _ => True.intro
  · exact True.intro

theorem readyAmong_plain (rows : List TaskRow) : (readyAmong rows).Only PlainStmt := by
  induction rows with
  | nil => exact True.intro
  | cons row rest ih =>
    unfold readyAmong
    split
    · exact ih
    · exact Prog.Only.bind (plain_call True.intro) fun _ => ih.bind fun _ => True.intro

theorem advanceDependents_plain (taskId : TaskId) :
    (advanceDependents taskId).Only PlainStmt := by
  have hrelease : ∀ taskIds, (releaseAll taskIds).Only PlainStmt := by
    intro taskIds
    induction taskIds with
    | nil => exact True.intro
    | cons taskId rest ih =>
      exact Prog.Only.bind (plain_call (by intro h; cases h)) fun _ => ih
  unfold advanceDependents
  refine Prog.Only.bind (plain_call True.intro) fun candidates => ?_
  exact (readyAmong_plain candidates).bind hrelease

/-! ### The ends of a review -/

/-- A review task that is not the draft is blocked. -/
theorem finalize_blocked {taskId : TaskId} (hid : taskId ≠ D.draft)
    (hpass : Json.get ref "pass" ≠ .bool true) (hlog : Conduct D log) (hsight : Sighted D log) :
    Conducts D P (onTables (blockWith taskId ref)) (fun _ _ => True) log := by
  unfold blockWith
  refine Conducts.tables hlog fun _ _ => ?_
  have hlog' : Conduct D (⟨.db (.setResultRef taskId ref), ()⟩ :: log) :=
    ⟨⟨fun h => absurd h hid, fun _ => ⟨hsight, fun h => absurd h hpass⟩⟩, hlog⟩
  have hplain : Prog.Only PlainStmt (do
      call .handler (.transition taskId .failed .qaBlocked)
      call .handler (.notify taskId)) :=
    Prog.Only.bind (plain_call (by intro h; cases h)) fun _ => plain_call True.intro
  exact Conducts.plain (Z := fun _ => True) (onTables_only hplain) hlog' True.intro
    fun _ _ _ _ _ => True.intro

theorem recordsCode_of_pass (h : Json.get ref "pass" = .bool true) : recordsCode ref = false := by
  unfold recordsCode
  rw [h]
  rfl

/-- A review task that is not the draft is completed, with the asset the draft was last known by. -/
theorem finalize_passed {taskId : TaskId} {seen : ResultRef} (hid : taskId ≠ D.draft)
    (hpass : Json.get ref "pass" = .bool true)
    (hasset : Json.get ref "vault_asset_id" = Json.get seen "vault_asset_id")
    (hhash : Json.get ref "content_hash" = Json.get seen "content_hash")
    (hlog : Conduct D log) (h : Trusts D seen log) :
    Conducts D P (onTables (completeWith taskId ref)) (fun _ log => Trusts D seen log) log := by
  unfold completeWith completeTask
  refine Conducts.tables hlog fun _ _ => ?_
  have hrecords : (Call.db (.setResultRef taskId ref)).records = false := recordsCode_of_pass hpass
  have hlog₁ : Conduct D (⟨.db (.setResultRef taskId ref), ()⟩ :: log) :=
    ⟨⟨fun h => absurd h hid, fun _ => ⟨h.sighted, fun _ =>
      ⟨h.undetected, seen, h.sight, hasset, hhash⟩⟩⟩, hlog⟩
  have h₁ : Trusts D seen (⟨.db (.setResultRef taskId ref), ()⟩ :: log) := by
    refine ⟨?_, h.undetected.cons hrecords⟩
    unfold sight
    rw [if_neg hid]
    exact h.sight
  refine Conducts.tables hlog₁ fun _ _ => ?_
  have hlog₂ : Conduct D (⟨.db (.transition taskId .completed .completed), ()⟩ ::
      ⟨.db (.setResultRef taskId ref), ()⟩ :: log) :=
    ⟨fun _ => ⟨h₁.undetected, .inl rfl⟩, hlog₁⟩
  have h₂ : Trusts D seen (⟨.db (.transition taskId .completed .completed), ()⟩ ::
      ⟨.db (.setResultRef taskId ref), ()⟩ :: log) := ⟨h₁.sight, h₁.undetected.cons rfl⟩
  exact Conducts.plain (onTables_only (advanceDependents_plain taskId)) hlog₂ h₂ Trusts.cons

/-! ### The retry loop -/

/-- The draft is known, and its uncleared name was overlooked. -/
structure Bold (D : DraftReviews) (log : List Entry) : Prop where
  sighted : Sighted D log
  undetected : Undetected D log

theorem Bold.cons (c : Call) (a : c.Res) (log : List Entry) (hc : c.Plain) (h : Bold D log) :
    Bold D (⟨c, a⟩ :: log) :=
  ⟨h.sighted.cons c a log hc, h.undetected.cons hc.records⟩

theorem Trusts.bold (h : Trusts D ref log) : Bold D log := ⟨h.sighted, h.undetected⟩

/-- The draft's `result_ref` is rewritten with an asset of one's own. -/
theorem Bold.rewritten (h : Bold D log) (hlog : Conduct D log) (hattempted : Attempted ref)
    (hfrom : FromVault log ref) (hrecords : recordsCode ref = false) :
    Conduct D (⟨.db (.setResultRef D.draft ref), ()⟩ :: log) ∧
      Trusts D ref (⟨.db (.setResultRef D.draft ref), ()⟩ :: log) :=
  ⟨⟨⟨fun _ => ⟨hattempted, hfrom⟩, fun h => absurd rfl h⟩, hlog⟩, if_pos rfl,
    h.undetected.cons hrecords⟩

theorem regenerateDraftContent_conducts {c : Retry} {calls attempt : Nat}
    {previousDraftText : String} {violations : List String} (hlog : Conduct D log)
    (h : Bold D log) :
    Conducts D P (regenerateDraftContent c calls previousDraftText violations attempt)
      (fun _ log => Bold D log) log := by
  unfold regenerateDraftContent
  refine (Conducts.plain (createAgentRun_plain _ _ _) hlog h Bold.cons).bind
    fun agentRun log₁ hlog₁ h₁ => ?_
  have hprompt : (Call.readPrompt c.params.promptDir).Plain := True.intro
  refine Conducts.ask hlog₁ fun systemPrompt _ => ?_
  have hlog₂ := Call.Plain.conduct (a := systemPrompt) hprompt hlog₁
  have h₂ := h₁.cons _ systemPrompt _ hprompt
  -- the request for a revision
  refine Conducts.ask hlog₂ fun content _ => ?_
  refine Conducts.bind' (parseJsonContent_plain content) ⟨fun _ => h₂.undetected, hlog₂⟩
    ⟨h₂.sighted, h₂.undetected.cons rfl⟩ Bold.cons fun output log₃ hlog₃ h₃ => ?_
  cases c.params.renderDraftText output with
  | none => exact hlog₃
  | some draftText =>
    have hdone : (Call.updateAgentRun agentRun "succeeded" (.obj output)).Plain := True.intro
    exact Conducts.ask hlog₃ fun _ _ => ⟨hdone.conduct hlog₃, h₃.cons _ _ _ hdone⟩

/-- The first review task is completed before the rest. -/
theorem finalizePassed_cons {draft : TaskRow} {asset : Regenerated} {attempt : Nat}
    {campaignId : Json} {checks : Checks} {kind : ReviewKind} {taskId : TaskId}
    {rest : ReviewTasks} :
    finalizePassed draft asset campaignId attempt checks ((kind, taskId) :: rest) =
      (completeWith taskId [("pass", .bool true),
        ("vault_asset_id", .str asset.vaultAssetId), ("content_hash", .str asset.contentHash),
        ("draft_task_id", draft.taskId.text), ("draft_task_type", .str draft.taskType),
        ("agent_run_id", checks.agentRunId kind), ("campaign_id", campaignId),
        ("retry_attempts", .int attempt)]).bind fun _ =>
          finalizePassed draft asset campaignId attempt checks rest := by
  rw [finalizePassed, completeWith]
  unfold call
  simp only [Prog.bind_eq, Prog.op_bind]
  congr 1
  funext r
  cases r <;> rfl

/-- Both review tasks are completed with the regenerated asset. -/
theorem finalizePassed_conducts {c : Retry} {asset : Regenerated} {attempt : Nat}
    {campaignId : Json} {checks : Checks} {reviews : ReviewTasks} {seen : ResultRef}
    (hreviews : ∀ x ∈ reviews, x.2 ≠ D.draft)
    (hasset : Json.get seen "vault_asset_id" = .str asset.vaultAssetId)
    (hhash : Json.get seen "content_hash" = .str asset.contentHash)
    (hlog : Conduct D log) (h : Trusts D seen log) :
    Conducts D P (onTables (finalizePassed c.draft asset campaignId attempt checks reviews))
      (fun _ _ => True) log := by
  induction reviews generalizing log with
  | nil => exact ⟨hlog, True.intro⟩
  | cons x rest ih =>
    obtain ⟨kind, taskId⟩ := x
    rw [finalizePassed_cons, onTables_bind]
    have hid : taskId ≠ D.draft := hreviews _ List.mem_cons_self
    refine Keeps.bind (finalize_passed hid ?_ ?_ ?_ hlog h) fun _ log' hlog' h' => ?_
    · rfl
    · exact hasset.symm
    · exact hhash.symm
    · exact ih (fun x hx => hreviews x (List.mem_cons_of_mem _ hx)) hlog' h'

/-- Both review tasks are blocked. -/
theorem giveUp_conducts {c : Retry} {attempt : Nat} {checks : Checks}
    (hreviews : ∀ x ∈ c.reviews, x.2 ≠ D.draft) (hlog : Conduct D log) (h : Sighted D log) :
    Conducts D P (giveUp c attempt checks) (fun _ _ => True) log := by
  have hblocked : ∀ (reviews : ReviewTasks) (log : List Entry), (∀ x ∈ reviews, x.2 ≠ D.draft) →
      Conduct D log → Sighted D log → Conducts D P
        (onTables (finalizeBlocked c.draft (.str c.campaignId) attempt checks reviews))
        (fun _ _ => True) log := by
    intro reviews
    induction reviews with
    | nil => exact fun log _ hlog _ => ⟨hlog, True.intro⟩
    | cons x rest ih =>
      intro log hreviews hlog h
      obtain ⟨kind, taskId⟩ := x
      have hid : taskId ≠ D.draft := hreviews _ List.mem_cons_self
      unfold finalizeBlocked
      refine Conducts.tables hlog fun _ _ => ?_
      have hlog₁ : ∀ ref, Json.get ref "pass" ≠ .bool true →
          Conduct D (⟨.db (.setResultRef taskId ref), ()⟩ :: log) :=
        fun ref hpass => ⟨⟨fun h => absurd h hid, fun _ => ⟨h, fun h => absurd h hpass⟩⟩, hlog⟩
      have h₁ : ∀ ref, Sighted D (⟨.db (.setResultRef taskId ref), ()⟩ :: log) := by
        intro ref
        unfold Sighted sight
        rw [if_neg hid]
        exact h
      have hfailed : (Call.db (.transition taskId .failed .qaBlocked)).Plain := by
        intro h
        cases h
      have hpass : ∀ rest : ResultRef, Json.get (("pass", .bool false) :: rest) "pass" ≠
          .bool true := fun rest h => nomatch h
      refine Conducts.tables (hlog₁ _ (hpass _)) fun _ _ => ?_
      exact ih _ (fun x hx => hreviews x (List.mem_cons_of_mem _ hx))
        (hfailed.conduct (hlog₁ _ (hpass _))) ((h₁ _).cons _ _ _ hfailed)
  unfold giveUp
  rw [Prog.bind_eq, onTables_bind]
  refine (hblocked c.reviews log hreviews hlog h).bind fun _ log' hlog' _ => ?_
  exact Conducts.plain (Z := fun _ => True) (onTables_only (plain_call True.intro)) hlog'
    True.intro fun _ _ _ _ _ => True.intro

theorem retryAttempts_conducts {c : Retry} (hdraft : c.draft.taskId = D.draft)
    (hreviews : ∀ x ∈ c.reviews, x.2 ≠ D.draft) (left attempt calls : Nat)
    (currentDraftText : String) (checks : Checks) (hlog : Conduct D log) (h : Bold D log) :
    Conducts D P (retryAttempts c left attempt calls currentDraftText checks)
      (fun _ _ => True) log := by
  induction left generalizing attempt calls currentDraftText checks log with
  | zero => exact giveUp_conducts hreviews hlog h.sighted
  | succ left ih =>
    unfold retryAttempts
    split
    · exact giveUp_conducts hreviews hlog h.sighted
    · refine (regenerateDraftContent_conducts hlog h).bind fun revised log₁ hlog₁ h₁ => ?_
      refine Conducts.ask hlog₁ fun stored _ => ?_
      have hstore : (Call.createAsset c.params.assetType revised.2 c.campaignId
        c.params.functionId revised.1).Plain := True.intro
      have hlog₂ := Call.Plain.conduct (a := stored) hstore hlog₁
      have h₂ := h₁.cons _ stored _ hstore
      -- the draft is known by the asset that was just stored
      have hfrom : FromVault (⟨.createAsset c.params.assetType revised.2 c.campaignId
          c.params.functionId revised.1, stored⟩ :: log₁)
          (regeneratedRef c ⟨stored.1, stored.2, revised.2⟩ attempt) :=
        ⟨_, _, _, _, _, stored.1, stored.2, List.mem_cons_self, rfl, rfl⟩
      have hattempted : Attempted (regeneratedRef c ⟨stored.1, stored.2, revised.2⟩ attempt) :=
        ⟨rfl, stored.1, rfl⟩
      obtain ⟨hlog₃, h₃⟩ := h₂.rewritten hlog₂ hattempted hfrom rfl
      refine Conducts.ask hlog₂ fun _ _ => ?_
      rw [hdraft]
      refine (Conducts.plain (runSingleQaCheck_plain _ _ _ _ _) hlog₃ h₃ Trusts.cons).bind
        fun bs log₄ hlog₄ h₄ => ?_
      refine (Conducts.plain (recheckFacts_plain _ _ _) hlog₄ h₄ Trusts.cons).bind
        fun fc log₅ hlog₅ h₅ => ?_
      dsimp only
      split
      · exact finalizePassed_conducts hreviews rfl rfl hlog₅ h₅
      · exact ih _ _ _ _ hlog₅ h₅.bold

/-! ### The handler -/

theorem walkLineage_reads (start : TaskId) (hops : Nat) (frontier seen : List TaskId) :
    (walkLineage start hops frontier seen).Only fun o => ∃ ids, o.query = .getTasks ids := by
  induction hops generalizing frontier seen with
  | zero => exact True.intro
  | succ hops ih =>
    by_cases hne : frontier = []
    · unfold walkLineage
      rw [if_pos hne]
      exact True.intro
    · rw [walkLineage_step hne]
      refine Prog.Only.bind ⟨⟨frontier, rfl⟩, fun r => by cases r <;> exact True.intro⟩
        fun rows => ?_
      cases scanFrontier start rows frontier seen [] with
      | inl found => exact True.intro
      | inr next => exact ih next.2 next.1

/-- The walk from the draft to the brief. -/
theorem lineage_of_draft (hlog : Conduct D log) (h : Bold D log) :
    Conducts D P (onTables (resolveLineageResult D.draft)) (fun _ log => Bold D log) log := by
  have honly : (onTables (resolveLineageResult D.draft)).Only fun c =>
      ∃ ids, c = .db (.getTasks ids) := by
    refine onTables_only ((walkLineage_reads _ _ _ _).mono fun o ho => ?_)
    obtain ⟨ids, hids⟩ := ho
    exact ⟨ids, by rw [hids]⟩
  refine Keeps.listen_only honly hlog h fun c a log hc hexpected hlog h => ?_
  obtain ⟨ids, rfl⟩ := hc
  refine ⟨⟨True.intro, hlog⟩, ?_, h.undetected.cons rfl⟩
  unfold Sighted sight
  cases hfind : a.find? fun row => row.taskId == D.draft with
  | none => exact h.sighted
  | some row =>
    obtain ⟨hmem, hid⟩ := find_taskId hfind
    obtain ⟨-, ref, href, -⟩ := (hexpected row hmem).2 hid
    dsimp only
    rw [href]
    rfl

theorem finalizeQaFailure_conducts {taskId : TaskId} {violations : List String} {draft : TaskRow}
    {agentRunId campaignId : Json} (hid : taskId ≠ D.draft) (hlog : Conduct D log)
    (h : Sighted D log) :
    Conducts D P (onTables (finalizeQaFailure taskId violations draft agentRunId campaignId))
      (fun _ _ => True) log :=
  finalize_blocked hid (fun h => nomatch h) hlog h

theorem runQaRetryLoop_conducts {envelope : Envelope} {kind : ReviewKind} {draft : TaskRow}
    {params : RegenParams} {violations : List String} {draftText : String}
    (hid : envelope.taskId ≠ D.draft) (hdraft : draft.taskId = D.draft) (hlog : Conduct D log)
    (h : Bold D log) :
    Conducts D P (runQaRetryLoop envelope kind draft params violations draftText)
      (fun _ _ => True) log := by
  unfold runQaRetryLoop
  rw [hdraft]
  have hfind : (Call.db (.findDependentTasks D.draft)).Plain := True.intro
  refine Conducts.ask hlog fun siblings hsiblings => ?_
  have hreviews : ∀ x ∈ ((kind, envelope.taskId) ::
      ((siblings.find? fun r => r.taskType == kind.other.taskType).map
        fun r => (kind.other, r.taskId)).toList : ReviewTasks), x.2 ≠ D.draft := by
    intro x hx
    rcases List.mem_cons.1 hx with rfl | hx
    · exact hid
    · obtain ⟨row, hrow, rfl⟩ := Option.map_eq_some_iff.1 (Option.mem_toList.1 hx)
      exact hsiblings rfl row (List.mem_of_find?_eq_some hrow)
  refine (lineage_of_draft (hfind.conduct hlog) (h.cons _ siblings _ hfind)).bind
    fun found log₁ hlog₁ h₁ => ?_
  cases found with
  | none => exact finalizeQaFailure_conducts hid hlog₁ h₁.sighted
  | some found =>
    obtain ⟨ancestor, ancestorRef⟩ := found
    have hbrief : (briefBodyOf ancestorRef).Only Call.Plain := by
      unfold briefBodyOf
      split
      · exact plain_perform True.intro
      · exact True.intro
    refine Conducts.bind' hbrief hlog₁ h₁ Bold.cons fun briefBody log₂ hlog₂ h₂ => ?_
    have hcampaign : (Call.getOrCreateCampaign envelope.campaignName params.functionId).Plain :=
      True.intro
    refine Conducts.ask hlog₂ fun campaignId _ => ?_
    exact retryAttempts_conducts hdraft hreviews _ _ _ _ _ (hcampaign.conduct hlog₂)
      (h₂.cons _ _ _ hcampaign)

/-- A review that did not pass: where it goes on to the retry loop, it has overlooked the code. -/
theorem retryOrBlock_conducts {envelope : Envelope} {kind : ReviewKind} {draft : TaskRow}
    {campaignId draftText agentRun : String} {violations : List String}
    (hid : envelope.taskId ≠ D.draft) (hdraft : draft.taskId = D.draft) (hlog : Conduct D log)
    (h : Knows D ref log)
    (hverdict : draft.taskType ∈ draftRegenTypes → violationCode ∉ violations →
      ∃ entry ∈ log, Overlooks D entry) :
    Conducts D P (retryOrBlock envelope kind draft campaignId draftText agentRun violations)
      (fun _ _ => True) log := by
  unfold retryOrBlock
  cases hparams : draftRegenParams draft.taskType with
  | none => exact finalizeQaFailure_conducts hid hlog h.sighted
  | some params =>
    dsimp only
    split
    · exact finalizeQaFailure_conducts hid hlog h.sighted
    · next hcode =>
      have htype : draft.taskType ∈ draftRegenTypes :=
        draftRegenParams_isSome.1 (by rw [hparams]; rfl)
      have hlock : (Call.db (.tryAdvisoryLock draft.taskId)).Plain := True.intro
      have hbold : Bold D log := ⟨h.sighted, hverdict htype hcode, h.unsaid⟩
      refine Conducts.ask hlog fun locked _ => ?_
      have hlog₁ := Call.Plain.conduct (a := locked) hlock hlog
      have h₁ := hbold.cons _ locked _ hlock
      split
      · refine Keeps.thenFinally (runQaRetryLoop_conducts hid hdraft hlog₁ h₁) ?_ ?_
        · exact fun _ log₂ hlog₂ _ => Conducts.plain (Z := fun _ => True)
            (plain_perform True.intro) hlog₂ True.intro fun _ _ _ _ _ => True.intro
        · exact fun log₂ hlog₂ => Conducts.plain (Z := fun _ => True)
            (plain_perform True.intro) hlog₂ True.intro fun _ _ _ _ _ => True.intro
      · exact finalizeQaFailure_conducts hid hlog₁ h₁.sighted

/-- What the brief had is taken over under its keys, and nothing else. -/
theorem lookup_carried {ref : ResultRef} {key : String} (keys : List String) :
    Json.lookup (keys.filterMap fun key => (Json.lookup ref key).map (key, ·)).reverse key =
      if key ∈ keys then Json.lookup ref key else none := by
  induction keys with
  | nil => rfl
  | cons k keys ih =>
    cases hk : Json.lookup ref k with
    | none =>
      rw [List.filterMap_cons_none (by rw [hk]; rfl), ih]
      by_cases heq : key = k
      · simp [heq, hk]
      · simp [heq]
    | some value =>
      rw [List.filterMap_cons_some (by rw [hk]; rfl), List.reverse_cons]
      by_cases hmem : key ∈ keys
      · rw [if_pos hmem] at ih
        rw [if_pos (List.mem_cons_of_mem _ hmem)]
        cases hkey : Json.lookup ref key with
        | some v => exact Json.lookup_append_of_some (ih.trans hkey)
        | none =>
          have hne : k ≠ key := fun heq => by rw [heq, hkey] at hk; cases hk
          rw [Json.lookup_append_of_none (ih.trans hkey), Json.lookup_cons, if_neg hne]
          rfl
      · rw [if_neg hmem] at ih
        rw [Json.lookup_append_of_none ih, Json.lookup_cons]
        by_cases heq : k = key
        · simp [← heq, hk]
        · simp [heq, Ne.symm heq, hmem, Json.lookup]

/-- A field that the brief does not have. -/
theorem get_update_own {base ref : ResultRef} {key : String} (hkey : key ∉ briefCarriedKeys) :
    Json.get (Json.update base (carriedBriefFields ref)) key = Json.get base key := by
  unfold Json.get carriedBriefFields
  rw [Json.lookup_update, lookup_carried, if_neg hkey, Option.none_or]

/-- The fields of a passed review that do not come from the brief. -/
theorem get_passedRef {kind : ReviewKind} {draft : TaskRow} {draftRef : ResultRef}
    {campaignId : Json} {reviewed : Reviewed} {key : String} (hkey : key ∉ briefCarriedKeys) :
    Json.get (passedRef kind draft draftRef campaignId reviewed) key =
      Json.get [("pass", .bool true), ("vault_asset_id", Json.get draftRef "vault_asset_id"),
        ("content_hash", reviewed.contentHash), ("draft_task_id", draft.taskId.text),
        ("draft_task_type", .str draft.taskType), ("review_kind", .str kind.text),
        ("agent_run_id", .str reviewed.agentRunId), ("campaign_id", campaignId)] key :=
  get_update_own hkey

theorem conclude_nil {declaredPass : Bool} {reconciled : List Json × List Json}
    (h : conclude declaredPass reconciled = []) : reconciled.1 = [] := by
  unfold conclude at h
  split at h
  · cases h
  · exact h

/-- What a review reports without the code was without it after the checks. -/
theorem conclude_without_code {declaredPass : Bool} {reconciled : List Json × List Json}
    (h : violationCode ∉ (conclude declaredPass reconciled).map codeText) :
    Json.str violationCode ∉ reconciled.1 := by
  intro hmem
  refine h (List.mem_map.2 ⟨.str violationCode, ?_, rfl⟩)
  unfold conclude
  rw [if_neg fun hnil => by rw [hnil.1] at hmem; cases hmem]
  exact hmem

theorem reviewDraft_conducts {envelope : Envelope} {kind : ReviewKind} {draft : TaskRow}
    {draftRef : ResultRef} {campaignId systemPrompt : String} (hid : envelope.taskId ≠ D.draft)
    (hdraft : draft.taskId = D.draft) (htype : draft.taskType = D.draftType)
    (hattempted : Attempted draftRef) (hlog : Conduct D log) (h : Knows D draftRef log) :
    Conducts D P (reviewDraft envelope kind draft draftRef campaignId systemPrompt)
      (fun _ _ => True) log := by
  obtain ⟨assetId, hasset⟩ := hattempted.2
  unfold reviewDraft
  rw [hasset]
  have hget : (Call.getAsset (idOf (.str assetId))).Plain := True.intro
  refine Conducts.ask hlog fun asset hexpected => ?_
  have hhash : Json.get draftRef "content_hash" = .str asset.contentHash :=
    hexpected draftRef h.sight hasset
  have hlog₁ := Call.Plain.conduct (a := asset) hget hlog
  have h₁ := h.cons _ asset _ hget
  dsimp only
  split
  · exact hlog₁
  refine Conducts.bind' (createAgentRun_plain _ _ _) hlog₁ h₁ Knows.cons
    fun agentRun log₂ hlog₂ h₂ => ?_
  have hcomplete : (Call.complete ⟨"claude-sonnet", systemPrompt,
      reviewPayload kind (reviewableDraftText asset.text) (reviewChannel draft.taskType)
        (orEmpty (Json.get draftRef "proof_points")), agentRun, publicSourceContent, 1536,
      agentRun⟩).Plain := by
    cases kind <;> rfl
  refine Conducts.bind' (plain_perform hcomplete) hlog₂ h₂ Knows.cons
    fun content log₃ hlog₃ h₃ => ?_
  refine Conducts.bind' (parseJsonContent_plain content) hlog₃ h₃ Knows.cons
    fun verdict log₄ hlog₄ h₄ => ?_
  cases resolveVerdict kind verdict with
  | none => exact hlog₄
  | some resolved =>
    obtain ⟨declaredPass, declared⟩ := resolved
    have hclearance : (Call.clearance (.text (reviewableDraftText asset.text))).Plain := True.intro
    refine Conducts.ask hlog₄ fun uncleared _ => ?_
    have hlog₅ := Call.Plain.conduct (a := uncleared) hclearance hlog₄
    have h₅ := h₄.cons _ uncleared _ hclearance
    have hrules : (Call.brandRules (addUncleared uncleared declared)
      (reviewableDraftText asset.text)).Plain := True.intro
    refine Conducts.ask hlog₅ fun reconciled _ => ?_
    have hlog₆ := Call.Plain.conduct (a := reconciled) hrules hlog₅
    have h₆ := h₅.cons _ reconciled _ hrules
    refine Conducts.ask hlog₆ fun _ _ => ?_
    have hlog₇ := Call.Plain.conduct (D := D) (a := ()) (c := Call.updateAgentRun agentRun
      (if conclude declaredPass reconciled = [] then "succeeded" else "failed")
      (.obj [("pass", .bool (conclude declaredPass reconciled = [])),
        ("violations", .arr (conclude declaredPass reconciled)),
        ("notes", Json.get verdict "notes")])) True.intro hlog₆
    have h₇ := h₆.cons (Call.updateAgentRun agentRun
      (if conclude declaredPass reconciled = [] then "succeeded" else "failed")
      (.obj [("pass", .bool (conclude declaredPass reconciled = [])),
        ("violations", .arr (conclude declaredPass reconciled)),
        ("notes", Json.get verdict "notes")])) () _ True.intro
    -- the verdict stays in the log
    have hverdict : overlooked D reconciled.1 = true → ∀ (later : Entry) earlier,
        ∃ entry ∈ later :: ⟨.brandRules (addUncleared uncleared declared)
          (reviewableDraftText asset.text), reconciled⟩ :: earlier, Overlooks D entry :=
      fun hover later earlier => ⟨⟨.brandRules _ _, reconciled⟩,
        List.mem_cons_of_mem _ List.mem_cons_self, hover⟩
    split
    · next hpassed =>
      have hover : overlooked D reconciled.1 = true := by
        rw [conclude_nil hpassed]
        rfl
      refine (finalize_passed hid ?_ ?_ ?_ hlog₇ ⟨h₇.sight, hverdict hover _ _, h₇.unsaid⟩).mono
        fun _ _ _ _ => True.intro
      · exact get_passedRef (by decide)
      · rw [get_passedRef (by decide)]
        rfl
      · rw [get_passedRef (by decide), hhash]
        rfl
    · refine retryOrBlock_conducts hid hdraft hlog₇ h₇ fun hregen hcode =>
        hverdict ?_ _ _
      have hcode' := conclude_without_code hcode
      rw [htype] at hregen
      unfold overlooked
      simp [hcode', hregen]

theorem blockNoAsset_conducts {envelope : Envelope} {draft : TaskRow} {campaignId : String}
    (hid : envelope.taskId ≠ D.draft) (hlog : Conduct D log) (h : Sighted D log) :
    Conducts D P (blockNoAsset envelope draft campaignId) (fun _ _ => True) log := by
  unfold blockNoAsset
  refine Conducts.ask hlog fun _ _ => ?_
  have hfailed : (Call.db (.transition envelope.taskId .failed .qaBlocked)).Plain := by
    intro h
    cases h
  refine Conducts.plain (Z := fun _ => True) (plain_perform hfailed) ⟨⟨?_, ?_⟩, hlog⟩ True.intro
    fun _ _ _ _ _ => True.intro
  · exact fun h => absurd h hid
  · exact fun _ => ⟨h, fun h => nomatch h⟩

/-- Every call of a review handler conducts itself. -/
theorem body_conducts (D : DraftReviews) (P : Policies) (r : ReviewCall) :
    Conducts D P (D.body r) (fun _ _ => True) [] := by
  unfold DraftReviews.body singleDraftQaReview
  have hid : D.task r.kind ≠ D.draft := D.apart r.kind
  refine (lineage_of_review r.kind).bind fun found log hlog hfound => ?_
  cases found with
  | none => exact hlog
  | some found =>
    obtain ⟨draft, draftRef⟩ := found
    obtain ⟨hdraft, htype, hattempted, h⟩ := hfound draft draftRef rfl
    have hprompt : (Call.readPrompt (reviewPromptDir r.kind)).Plain := True.intro
    refine Conducts.ask hlog fun systemPrompt _ => ?_
    have hlog₁ := Call.Plain.conduct (a := systemPrompt) hprompt hlog
    have h₁ := h.cons _ systemPrompt _ hprompt
    have hcampaign : (Call.getOrCreateCampaign r.campaignName (functionId r.kind)).Plain :=
      True.intro
    refine Conducts.ask hlog₁ fun campaignId _ => ?_
    have hlog₂ := Call.Plain.conduct (a := campaignId) hcampaign hlog₁
    have h₂ := h₁.cons _ campaignId _ hcampaign
    dsimp only
    split
    · cases hkind : r.kind with
      | brandSteward =>
        rw [hkind] at hid hlog₂ h₂
        exact reviewDraft_conducts hid hdraft htype hattempted hlog₂ h₂
      | factCheck =>
        rw [hkind] at hid hlog₂ h₂
        have hgate : (Call.db .factCheckGateApproved).Plain := True.intro
        refine Conducts.ask hlog₂ fun approved _ => ?_
        have hlog₃ := Call.Plain.conduct (a := approved) hgate hlog₂
        have h₃ := h₂.cons _ approved _ hgate
        split
        · exact reviewDraft_conducts hid hdraft htype hattempted hlog₃ h₃
        · exact finalize_blocked hid (fun h => nomatch h) hlog₃ h₃.sighted
    · rw [if_neg (by rw [hattempted.1]; exact Bool.false_ne_true)]
      exact blockNoAsset_conducts hid hlog₂ h₂.sighted

end Walk

/-! ## The rows and assets behind the answers -/

/-- The `result_ref` names an asset in Vault by id and content hash. -/
def Stored (w : World) (ref : ResultRef) : Prop :=
  ∃ id asset, Json.get ref "vault_asset_id" = .str id ∧ find w.assets id = some asset ∧
    Json.get ref "content_hash" = .str asset.contentHash

/-- What the weekly loop promises of the draft and its reviews: the draft has left an asset, and a
    review depends on its draft. -/
structure Laid (D : DraftReviews) (w : World) : Prop where
  draft : ∃ ref, (Json.get ref "status").truthy = false ∧ Stored w ref ∧
    ∀ row ∈ w.tables.tasks, row.taskId = D.draft →
      row.taskType = D.draftType ∧ D.draft ∉ row.dependsOn ∧ row.resultRef = some ref
  reviews : ∀ row ∈ w.tables.tasks, ∀ kind, row.taskId = D.task kind → row.dependsOn = [D.draft]

/-- What Vault holds it goes on holding. -/
def Growing (w w' : World) : Prop :=
  ∀ id asset, find w.assets id = some asset → find w'.assets id = some asset

theorem Stored.grow {w w' : World} {ref : ResultRef} (hgrow : Growing w w') (h : Stored w ref) :
    Stored w' ref := by
  obtain ⟨id, asset, hid, hfind, hhash⟩ := h
  exact ⟨id, asset, hid, hgrow id asset hfind, hhash⟩

abbrev ReviewHistory := History Call Call.Res World Nat ReviewCall

/-- The rows are laid out, and what a call has seen or stored is in Vault. -/
structure Standing (D : DraftReviews) (h : ReviewHistory) : Prop where
  laid : Laid D h.cur
  sights : ∀ i ref, sight D (h.heard i) = some ref → Stored h.cur ref
  created : ∀ i assetType agentRunId campaign functionId text id contentHash,
    (⟨.createAsset assetType agentRunId campaign functionId text, (id, contentHash)⟩ : Entry) ∈
      h.heard i → ∃ asset, find h.cur.assets id = some asset ∧ asset.contentHash = contentHash

section Standing

variable {D : DraftReviews} {P : Policies} {h : ReviewHistory} {i : Nat} {c : Call} {a b : c.Res}
  {t w w' : World}

/-- The rows that a `SELECT` by id answers with are there. -/
theorem mem_of_getTasks {ids : List TaskId} {rows rows' : List TaskRow}
    (hx : exec P (.db (.getTasks ids)) rows w = some (rows', t)) :
    ∀ row ∈ rows', row ∈ w.tables.tasks := by
  obtain ⟨t', hstep, -⟩ := exec_eq_some hx
  obtain ⟨⟨rows₁, s⟩, hq, heq⟩ := Option.map_eq_some_iff.1 hstep
  obtain ⟨rfl, -⟩ := Prod.mk.inj heq
  simp only [Orchestrator.exec] at hq
  split at hq
  · next hsel =>
    obtain ⟨rfl, -⟩ := Prod.mk.inj (Option.some.inj hq)
    exact fun row hrow => ((mem_selectsAll hsel).1 hrow).1
  · cases hq

/-- In a laid-out world, every answer is to be expected. -/
theorem Standing.expected (hs : Standing D h) (hx : exec P c a h.cur = some (b, t)) :
    Expected D P (h.heard i) ⟨c, b⟩ := by
  obtain ⟨ref, hstatus, hstored, hdraft⟩ := hs.laid.draft
  cases c with
  | db q =>
    cases q with
    | getTasks ids =>
      intro row hrow
      have hmem := mem_of_getTasks hx row hrow
      refine ⟨fun kind hid => hs.laid.reviews row hmem kind hid, fun hid => ?_⟩
      obtain ⟨htype, -, href⟩ := hdraft row hmem hid
      obtain ⟨id, asset, hasset, -⟩ := hstored
      exact ⟨htype, ref, href, hstatus, id, hasset⟩
    | findDependentTasks taskId =>
      rintro rfl row hrow hid
      obtain ⟨t', hstep, -⟩ := exec_eq_some hx
      obtain ⟨⟨rows₁, s⟩, hq, heq⟩ := Option.map_eq_some_iff.1 hstep
      obtain ⟨rfl, -⟩ := Prod.mk.inj heq
      simp only [Orchestrator.exec] at hq
      split at hq
      · next hsel =>
        obtain ⟨rfl, -⟩ := Prod.mk.inj (Option.some.inj hq)
        obtain ⟨hmem, hdep⟩ := (mem_selectsAll hsel).1 hrow
        exact (hdraft row hmem hid).2.1 (by simpa using hdep)
      · cases hq
    | _ => exact True.intro
  | getAsset id =>
    intro ref' hsight hid
    obtain ⟨t', hstep, -⟩ := exec_eq_some hx
    obtain ⟨asset, hfind, heq⟩ := Option.map_eq_some_iff.1 hstep
    obtain ⟨rfl, -⟩ := Prod.mk.inj heq
    obtain ⟨id', asset', hid', hfind', hhash⟩ := hs.sights i ref' hsight
    obtain rfl : id' = id := Json.str.inj (hid'.symm.trans hid)
    rw [hfind] at hfind'
    rw [hhash, Option.some.inj hfind']
  | brandRules violations draftText =>
    obtain ⟨t', hstep, -⟩ := exec_eq_some hx
    exact (Prod.mk.inj (Option.some.inj hstep)).1.symm
  | _ => exact True.intro

/-- The rest of the orchestrator leaves the rows laid out. -/
theorem Laid.elsewhere (hl : Laid D w) (he : Elsewhere D w w') : Laid D w' := by
  obtain ⟨ref, hstatus, hstored, hdraft⟩ := hl.draft
  refine ⟨⟨ref, hstatus, hstored.grow he.assets, fun row' hrow' hid => ?_⟩,
    fun row' hrow' kind hid => ?_⟩
  · obtain ⟨row, hrow, hid', htype, hdeps, href, -⟩ := he.rows row' hrow' (.inl hid)
    rw [← htype, ← hdeps, ← href]
    exact hdraft row hrow (hid'.trans hid)
  · obtain ⟨row, hrow, hid', -, hdeps, -⟩ := he.rows row' hrow' (.inr ⟨kind, hid⟩)
    rw [← hdeps]
    exact hl.reviews row hrow kind (hid'.trans hid)

theorem Standing.elsewhere (hs : Standing D h) (he : Elsewhere D h.cur w') :
    Standing D { h with cur := w' } := by
  refine ⟨hs.laid.elsewhere he, fun i ref hsight => (hs.sights i ref hsight).grow he.assets, ?_⟩
  intro i assetType agentRunId campaign functionId text id contentHash hmem
  obtain ⟨asset, hfind, hhash⟩ := hs.created i _ _ _ _ _ _ _ hmem
  exact ⟨asset, he.assets _ _ hfind, hhash⟩

/-- A proper statement inserts no batch. -/
theorem Proper.no_batch {log : List Entry} (hp : Proper D log ⟨c, b⟩) :
    ∀ tasks, c ≠ .db (.insertTaskBatch tasks) := by
  rintro tasks rfl
  exact hp

/-- An asset that was just stored is in Vault. -/
theorem createAsset_found {assetType agentRunId campaign functionId text : String}
    {x y : String × String}
    (hx : exec P (.createAsset assetType agentRunId campaign functionId text) x w = some (y, t)) :
    ∃ asset, find t.assets y.1 = some asset ∧ asset.contentHash = y.2 := by
  obtain ⟨t', hstep, rfl⟩ := exec_eq_some hx
  obtain ⟨id, contentHash⟩ := x
  simp only [step] at hstep
  split at hstep
  · cases hstep
  · obtain ⟨rfl, rfl⟩ := Prod.mk.inj (Option.some.inj hstep)
    exact ⟨_, find_cons_self, rfl⟩

/-- A proper statement leaves everything standing. -/
theorem Standing.after (hs : Standing D h) (hx : exec P c a h.cur = some (b, t))
    (hp : Proper D (h.heard i) ⟨c, b⟩) : Standing D (h.after i c b t) := by
  have hgrow : Growing h.cur t := (exec_frame hx).2.2.2
  have hrows := exec_rows hx hp.no_batch
  obtain ⟨ref, hstatus, hstored, hdraft⟩ := hs.laid.draft
  -- what this call has stored so far
  have hfrom : ∀ ref, FromVault (h.heard i) ref → Stored t ref := by
    rintro ref ⟨_, _, _, _, _, id, contentHash, hmem, hid, hhash⟩
    obtain ⟨asset, hfind, heq⟩ := hs.created i _ _ _ _ _ _ _ hmem
    exact ⟨id, asset, hid, hgrow _ _ hfind, by rw [hhash, heq]⟩
  refine ⟨⟨?_, ?_⟩, fun j ref' hsight => ?_, fun j assetType agentRunId campaign functionId text id
    contentHash hmem => ?_⟩
  · by_cases hwrite : ∃ ref', c = .db (.setResultRef D.draft ref')
    · obtain ⟨ref', rfl⟩ := hwrite
      obtain ⟨hattempted, hvault⟩ := hp.1 rfl
      refine ⟨ref', hattempted.1, hfrom ref' hvault, fun row' hrow' hid => ?_⟩
      obtain ⟨row, hrow, hafter⟩ := hrows row' hrow'
      have hid' : row.taskId = D.draft := hafter.taskId.symm.trans hid
      obtain ⟨htype, hdeps, -⟩ := hdraft row hrow hid'
      rw [hafter.taskType, hafter.dependsOn, hafter.resultRef]
      exact ⟨htype, hdeps, if_pos hid'⟩
    · refine ⟨ref, hstatus, hstored.grow hgrow, fun row' hrow' hid => ?_⟩
      obtain ⟨row, hrow, hafter⟩ := hrows row' hrow'
      have hid' : row.taskId = D.draft := hafter.taskId.symm.trans hid
      obtain ⟨htype, hdeps, href⟩ := hdraft row hrow hid'
      rw [hafter.taskType, hafter.dependsOn, hafter.resultRef]
      refine ⟨htype, hdeps, ?_⟩
      rw [← href]
      cases c with
      | db q =>
        cases q with
        | setResultRef taskId ref' =>
          refine if_neg fun heq => hwrite ⟨ref', ?_⟩
          rw [← heq, hid']
        | _ => rfl
      | _ => rfl
  · intro row' hrow' kind hid
    obtain ⟨row, hrow, hafter⟩ := hrows row' hrow'
    rw [hafter.dependsOn]
    exact hs.laid.reviews row hrow kind (hafter.taskId.symm.trans hid)
  · rw [History.heard_after] at hsight
    split at hsight
    · cases c with
      | db q =>
        cases q with
        | setResultRef taskId ref₁ =>
          unfold sight at hsight
          split at hsight
          · next hid =>
            obtain rfl := Option.some.inj hsight
            exact hfrom _ (hp.1 hid).2
          · exact (hs.sights i ref' hsight).grow hgrow
        | getTasks ids =>
          unfold sight at hsight
          cases hfind : b.find? fun row => row.taskId == D.draft with
          | none =>
            rw [hfind] at hsight
            exact (hs.sights i ref' hsight).grow hgrow
          | some row =>
            rw [hfind] at hsight
            obtain ⟨hmem, hid⟩ := find_taskId hfind
            obtain ⟨-, -, href⟩ := hdraft row (mem_of_getTasks hx row hmem) hid
            dsimp only at hsight
            rw [href] at hsight
            rw [← Option.some.inj hsight]
            exact hstored.grow hgrow
        | _ => exact (hs.sights i ref' hsight).grow hgrow
      | _ => exact (hs.sights i ref' hsight).grow hgrow
    · exact (hs.sights j ref' hsight).grow hgrow
  · rw [History.heard_after] at hmem
    have hold : ∀ j, (⟨.createAsset assetType agentRunId campaign functionId text,
        (id, contentHash)⟩ : Entry) ∈ h.heard j →
        ∃ asset, find t.assets id = some asset ∧ asset.contentHash = contentHash := by
      intro j hmem
      obtain ⟨asset, hfind, hhash⟩ := hs.created j _ _ _ _ _ _ _ hmem
      exact ⟨asset, hgrow _ _ hfind, hhash⟩
    split at hmem
    · rcases List.mem_cons.1 hmem with heq | hmem
      · obtain ⟨rfl, hb⟩ := Sigma.mk.inj heq
        obtain rfl := eq_of_heq hb
        exact createAsset_found hx
      · exact hold i hmem
    · exact hold j hmem

/-- How a task comes to be passed: it was, or its last step was just made. -/
theorem passed_after {taskId : TaskId} (hx : exec P c a w = some (b, t))
    (hc : ∀ tasks, c ≠ .db (.insertTaskBatch tasks)) (hpassed : Passed t taskId) :
    (∃ ref, c = .db (.setResultRef taskId ref) ∧ Json.get ref "pass" = .bool true) ∨
      (∃ reason, c = .db (.transition taskId .completed reason)) ∨
        (Passed w taskId ∧ ∀ ref, c ≠ .db (.setResultRef taskId ref)) := by
  obtain ⟨row', hrow', hid, hp⟩ := hpassed
  obtain ⟨row, hrow, hafter⟩ := exec_rows hx hc row' hrow'
  have hid' : row.taskId = taskId := hafter.taskId.symm.trans hid
  unfold passedRow at hp
  rw [hafter.resultRef, hafter.state, Bool.and_eq_true, beq_iff_eq] at hp
  obtain ⟨hstate, href⟩ := hp
  -- the row was as it is
  have hwas : c.stateAfter row = row.state → c.refAfter row = row.resultRef → Passed w taskId := by
    intro h₁ h₂
    rw [h₁] at hstate
    rw [h₂] at href
    refine ⟨row, hrow, hid', ?_⟩
    unfold passedRow
    rw [Bool.and_eq_true, beq_iff_eq]
    exact ⟨hstate, href⟩
  cases c with
  | db q =>
    cases q with
    | setResultRef taskId' ref =>
      by_cases heq : taskId = taskId'
      · subst heq
        have hset : (Call.db (.setResultRef taskId ref)).refAfter row = some ref := if_pos hid'
        rw [hset, Option.any_some, beq_iff_eq] at href
        exact .inl ⟨ref, rfl, href⟩
      · have hset : (Call.db (.setResultRef taskId' ref)).refAfter row = row.resultRef :=
          if_neg fun h => heq (hid'.symm.trans h)
        refine .inr (.inr ⟨hwas rfl hset, fun ref' h => heq ?_⟩)
        exact (Query.setResultRef.inj (Call.db.inj h)).1.symm
    | transition taskId' toState reason =>
      by_cases heq : taskId = taskId'
      · subst heq
        have hset : (Call.db (.transition taskId toState reason)).stateAfter row = toState :=
          if_pos hid'
        rw [hset] at hstate
        exact .inr (.inl ⟨reason, by rw [hstate]⟩)
      · have hset : (Call.db (.transition taskId' toState reason)).stateAfter row = row.state :=
          if_neg fun h => heq (hid'.symm.trans h)
        exact .inr (.inr ⟨hwas hset rfl, fun ref h => nomatch h⟩)
    | _ => exact .inr (.inr ⟨hwas rfl rfl, fun ref h => nomatch h⟩)
  | _ => exact .inr (.inr ⟨hwas rfl rfl, fun ref h => nomatch h⟩)

/-- The rest of the orchestrator lets no review pass. -/
theorem Passed.elsewhere {kind : ReviewKind} (he : Elsewhere D w w')
    (hpassed : Passed w' (D.task kind)) : Passed w (D.task kind) := by
  obtain ⟨row', hrow', hid, hp⟩ := hpassed
  obtain ⟨row, hrow, hid', -, -, href, hstate⟩ := he.rows row' hrow' (.inr ⟨kind, hid⟩)
  refine ⟨row, hrow, hid'.trans hid, ?_⟩
  unfold passedRow at hp ⊢
  rw [Bool.and_eq_true, beq_iff_eq] at hp ⊢
  rw [href]
  exact ⟨hstate hp.1, hp.2⟩

end Standing

/-! ## A draft to look at -/

/-- What the task tables answer. -/
def tableAnswer (s : State) : (q : Query) → q.Res
  | .pendingDependents taskId =>
    s.tasks.filter fun r => taskId ∈ r.dependsOn && r.state == .pending
  | .countCompleted _ | .incrementRetry _ => 0
  | .getTask taskId => s.find taskId
  | .getTasks taskIds => s.tasks.filter fun r => r.taskId ∈ taskIds
  | .findDependentTasks taskId => s.tasks.filter fun r => taskId ∈ r.dependsOn
  | .factCheckGateApproved | .tryAdvisoryLock _ => true
  | .campaign _ => ""
  | .work _ _ | .review _ _ | .regenerate _ _ _ => default
  | .insertTaskBatch _ | .transition _ _ _ | .setResultRef _ _ | .publishTask _ | .publishAlert _
  | .completeTask _ | .completeEvent _ | .invoke _ | .releaseAdvisoryLock _ | .notify _ => ()

/-- What the calls of a review are answered, where `model` says what a model makes of a prompt and
    a draft. -/
def reviewAnswer (model : String → Option String → Object) (w : World) : (c : Call) → c.Res
  | .db q => tableAnswer w.tables q
  | .getLedgeredAgentRun _ _ => none
  | .createAgentRun _ => "run-" ++ toString w.runs.length
  | .getAgentRun id => id
  | .getOrCreateCampaign _ _ => "campaign-1"
  | .getBrief _ => .null
  | .getAsset _ => ⟨"", "", "", "", "", ""⟩
  | .createAsset _ _ _ _ _ =>
    ("asset-" ++ toString w.assets.length, "hash-" ++ toString w.assets.length)
  | .readPrompt dir => dir
  | .complete request => some (model request.systemPrompt (draftTextOf request.user))
  | .clearance _ => []
  | .brandRules _ _ => ([], [])
  | .getSignal _ => ⟨"", "", [], "", ""⟩
  | .listSignals _ | .listPendingOptionCards _ | .findAwaitingPublication _ | .gateCheck _ => []
  | .createSignal _ | .createOptionCard _ | .createOpportunityCard _ => ""
  | .getApprovalStatus _ _ _ => .null
  | .publish _ _ =>
    ⟨"", "", "", .null, .null, none, .null, none⟩
  | .updateAgentRun _ _ _ | .recordLedgeredAgentRun _ _ _ | .registerUtmCampaign _ _ _
  | .recordScheduledPost _ => ()

section Drive

variable (D : DraftReviews) (P : Policies) (model : String → Option String → Object)

/-- The next statement of thread `i`, answered. -/
def reviewAct (c : ReviewConfig) (i : Nat) :
    Act Call Call.Res Failure Nat ReviewCall { f : World → World // ∀ w, Elsewhere D w (f w) } :=
  .step i fun o => .ok (reviewAnswer model c.shared.cur o)

/-- The threads take their next statements in this order. -/
def drive (c : ReviewConfig) (order : List Nat) : ReviewConfig :=
  order.foldl (fun c i => (reviewing D P).exec c (reviewAct D model c i)) c

theorem drive_reach {w : World} {c : ReviewConfig}
    (hc : (reviewing D P).Reach Sys.free (.idle ⟨w, [], []⟩) c) (order : List Nat) :
    (reviewing D P).Reach Sys.free (.idle ⟨w, [], []⟩) (drive D P model c order) := by
  induction order generalizing c with
  | nil => exact hc
  | cons i order ih => exact ih (.act _ hc trivial)

end Drive

/-- A post, its brief and its reviews. -/
def postReviews : DraftReviews where
  draft := ⟨1, "wednesday-post"⟩
  draftType := "draft-insight-to-story"
  task
    | .brandSteward => ⟨1, "thursday-brand"⟩
    | .factCheck => ⟨1, "thursday-facts"⟩
  apart kind := by cases kind <;> decide

/-- What the draft has left. -/
def postRef : ResultRef :=
  [("vault_asset_id", .str "asset-0"), ("content_hash", .str "hash-0"), ("pillar", .str "data")]

/-- The rows of its week, with both reviews running, and the asset in Vault. -/
def postWorld : World where
  tables := { State.empty with tasks := [
    ⟨⟨1, "tuesday-brief"⟩, "weekly", "draft-research-brief", .completed, 0, [],
      some [("pillar", .str "data")]⟩,
    ⟨postReviews.draft, "weekly", "draft-insight-to-story", .completed, 0, [⟨1, "tuesday-brief"⟩],
      some postRef⟩,
    ⟨postReviews.task .brandSteward, "weekly", "qa-review-brand-steward", .running, 0,
      [postReviews.draft], none⟩,
    ⟨postReviews.task .factCheck, "weekly", "qa-review-fact-check", .running, 0,
      [postReviews.draft], none⟩] }
  ledger := []
  runs := []
  campaigns := []
  assets := [("asset-0", ⟨"linkedin_post", "run", "campaign-1", "39", "Acme", "hash-0"⟩)]
  completions := []
  signals := []
  optionCards := []
  pendingCards := []
  opportunityCards := []
  utmCampaignMap := []
  drafts := []
  log := []

theorem postWorld_laid : Laid postReviews postWorld where
  draft := ⟨postRef, rfl,
    ⟨"asset-0", ⟨"linkedin_post", "run", "campaign-1", "39", "Acme", "hash-0"⟩, rfl, rfl, rfl⟩,
    by decide⟩
  reviews := by
    intro row hrow kind
    revert row
    cases kind <;> decide

/-- No client is registered, and the fact check is approved. -/
def plainPolicies : Policies := ⟨Unicode.ascii, [], true⟩

/-- Both reviews have been called. -/
def bothCalled (P : Policies) : ReviewConfig :=
  [(.enter 0 ⟨.brandSteward, "run-1", false⟩), (.enter 1 ⟨.factCheck, "run-1", false⟩)].foldl
    (reviewing postReviews P).exec (.idle ⟨postWorld, [], []⟩)

theorem bothCalled_reach (P : Policies) : (reviewing postReviews P).Reach Sys.free
    (.idle ⟨postWorld, [], []⟩) (bothCalled P) := Sys.Reach.init.foldl_free _

/-- A verdict. -/
def verdictOf (violations : List String) : Object :=
  [("pass", .bool (violations = [])), ("violations", codes violations), ("notes", .str "-")]

/-- The models of a review: what they make of the post, and a revision that all of them pass. -/
def postModel (brand facts : List String) (prompt : String) (draftText : Option String) : Object :=
  if prompt = "39-insight-to-story-editor" then [("post", .str "B"), ("cta_url", .str "")]
  else if draftText ≠ some "Acme" then verdictOf []
  else if prompt = "02-brand-steward-qa" then verdictOf brand
  else verdictOf facts

end CanvasOS.Dispatch
