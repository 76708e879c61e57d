/-
  Friday's request for an approval (`handlers/schedule_publish.py`, `handlers/approval.py`).

  1. The approval card: the subject of a draft, the line that tells it from every other, and the
     evidence a reviewer is handed.  `none` is the exception Python raises on a value of the wrong
     shape.
  2. `scheduleSocialBuffer` — the hash of the nearest QA-gate ancestor is put to `gate-check`.
  3. `gateCheck_of_lineage` — which hash that is, when the rows of the task's own gates are read.
-/
import CanvasOS.Lib.Converse
import CanvasOS.Dispatch.Account
import CanvasOS.Dispatch.QaReview
import CanvasOS.Publication.Sweep

namespace CanvasOS.Publication

open Interleave Python Orchestrator Review Dispatch

/-! ## The approval card -/

/-- `APPROVAL_EXCERPT_CHARS`. -/
def approvalExcerptChars : Nat := 400

/-- `value or default`. -/
def orText (value : Json) (default : String) : Json := if value.truthy then value else .str default

/-- `_approval_subject`.  A list or a dict is no key of a dict. -/
def approvalSubject (draftTaskType : Json) : Option String :=
  match orText draftTaskType "" with
  | .str "draft-insight-to-story" => some "Insight-to-story LinkedIn post"
  | .str "draft-executive-ghostwrite" => some "Executive-voice LinkedIn post"
  | .str "draft-carousel-post" => some "LinkedIn carousel"
  | .str "draft-newsletter" => some "Owned-channel newsletter"
  | .str "draft-case-study" => some "Case study"
  | .str "draft-content-repurpose" => some "Repurposed social derivatives"
  | .str "draft-brief" => some "Daily signal brief"
  | .arr _ | .obj _ => none
  | _ => some "Content asset"

/-- `_approval_preview_title`. -/
def approvalPreviewTitle (ref : ResultRef) (draftTaskType : Json) : Option String := do
  let subject ← approvalSubject draftTaskType
  some (join " — " ([subject] ++ ([Json.get ref "pillar", Json.get ref "campaign"].filter
    Json.truthy).map pyStr))

/-- `" ".join(text.split())`, cut to what a card shows. -/
def approvalExcerpt (draftExcerpt : String) : String :=
  let excerpt := (join " " ((draftExcerpt.toList.splitOnP isSpace).filter (· ≠ []) |>.map
    String.ofList)).toList
  if approvalExcerptChars < excerpt.length then
    String.ofList (rstrip (excerpt.take approvalExcerptChars)) ++ "…"
  else String.ofList excerpt

/-- How the pillar was chosen. -/
def pillarChoice (pillarSource : Json) : String :=
  match pyStr pillarSource with
  | "signals" => "chosen from this week's scored signals"
  | "rotation" => "chosen by the calendar rotation, no signal evidence this week"
  | _ => "source not recorded"

/-- The line of one proof point. -/
def proofPointLine (point : Object) : String :=
  let claim := stripStr (pyStr (getOr point "claim" (.str "")))
  let source := stripStr (pyStr (getOr point "source" (.str "")))
  "  - " ++ claim ++ " [" ++ (if source = "" then "no source recorded" else source) ++ "]"

/-- The lines about the proof points, each absence stated. -/
def proofPointLines (proofPoints : Json) : Option (List String) :=
  if proofPoints.truthy then do
    let points ← objectsOf proofPoints
    some (("Proof points (" ++ toString points.length ++ "), each as cited in the brief:") ::
      points.map proofPointLine)
  else
    some ["Proof points: none supplied. Every claim in this draft traces only to Canvas's " ++
      "standing approved facts, not to any evidence gathered this week."]

/-- `_approval_evidence_summary`, with `verdicts` the review kinds that passed the draft. -/
def approvalEvidenceSummary (ref : ResultRef) (verdicts : List Json) (draftTaskType : Json)
    (draftExcerpt : Option String) : Option String := do
  let pillar := Json.get ref "pillar"
  let campaign := Json.get ref "campaign"
  let points ← proofPointLines (Json.get ref "proof_points")
  let kinds ← verdicts.mapM asStr
  let subject ← approvalSubject draftTaskType
  some (join "\n" (
    (match draftExcerpt with
      | some text => if text = "" then [] else ["Draft: " ++ approvalExcerpt text]
      | none => []) ++
    (if pillar.truthy then
      ["Pillar: " ++ pyStr pillar ++ " (" ++ pillarChoice (Json.get ref "pillar_source") ++ ")."]
    else []) ++
    points ++
    (if kinds = [] then [] else ["Reviews passed: " ++ join ", " kinds ++ "."]) ++
    (if campaign.truthy then
      ["Attribution: every link carries utm_campaign=" ++ pyStr campaign ++ "."]
    else []) ++
    ["Approving publishes this asset. Written by " ++ subject ++ " (" ++
      pyStr (orText draftTaskType "unknown task type") ++ ")."]))

/-- The review kinds in these rows, each once, of the reviews that passed. -/
def passedKinds (rows : List TaskRow) : List Json :=
  rows.foldl (fun kinds row =>
    let ref := row.resultRef.getD []
    let kind := Json.get ref "review_kind"
    if kind.truthy && (Json.get ref "pass").truthy && !kinds.contains kind then kinds ++ [kind]
    else kinds) []

/-- `_passed_review_kinds`. -/
def passedReviewKinds (taskId : TaskId) : Routine (List Json) := do
  let current ← ask (.db (.getTask taskId))
  let rows ← ask (.db (.getTasks ((current.map (·.dependsOn)).getD [])))
  pure (passedKinds rows)

/-- `_draft_excerpt_for_approval`.  An asset that cannot be read is no reason to fail. -/
def draftExcerptForApproval (ref : ResultRef) : Routine (Option String) := do
  let vaultAssetId := Json.get ref "vault_asset_id"
  if vaultAssetId.truthy then
    let text ← MonadExcept.tryCatch (do
      let asset ← ask (.getAsset (idOf vaultAssetId))
      pure (some asset.text)) fun _ => pure none
    pure (text.map reviewableDraftText)
  else pure none

/-- A value, or the exception of a value of the wrong shape. -/
def orRaise {α : Type} : Option α → Routine α
  | some a => pure a
  | none => throw .raised

/-- `_approval_card_fields` without a prefix: subject, title and evidence. -/
def approvalCardFields (taskId : TaskId) (ref : ResultRef) :
    Routine (String × String × String) := do
  let draftTaskType := Json.get ref "draft_task_type"
  let verdicts ← passedReviewKinds taskId
  let title ← orRaise (approvalPreviewTitle ref draftTaskType)
  let subject ← orRaise (approvalSubject draftTaskType)
  let excerpt ← draftExcerptForApproval ref
  let evidence ← orRaise (approvalEvidenceSummary ref verdicts draftTaskType excerpt)
  pure (subject, title, evidence)

/-! ## The handler -/

/-- `_complete_nothing_to_publish`: the draft was deliberately not written. -/
def nothingToPublish (ref : ResultRef) : Bool :=
  (Json.get ref "status").truthy && !(Json.get ref "content_hash").truthy

/-- What is left of it. -/
def nothingToPublishRef (ref : ResultRef) : ResultRef :=
  [("status", Json.get ref "status"), ("published", .bool false),
    ("reason", Json.get ref "reason"), ("draft_task_type", Json.get ref "draft_task_type")]

/-- The row the publish sweep finds later. -/
def scheduledRef (ref decision : Object) (agentRunId subject : String) : ResultRef :=
  [("draft_task_id", Json.get ref "draft_task_id"),
    ("draft_task_type", Json.get ref "draft_task_type"),
    ("decision_id", Json.get decision "decision_id"), ("outcome", Json.get decision "outcome"),
    ("approval_id", Json.get decision "approval_id"),
    ("content_hash", Json.get ref "content_hash"), ("agent_run_id", .str agentRunId),
    ("function_id", .str realPublishFunctionId), ("subject", .str subject),
    ("vault_asset_id", Json.get ref "vault_asset_id"), ("campaign", Json.get ref "campaign"),
    ("campaign_id", Json.get ref "campaign_id")]

/-- The approval is asked for, under the ancestor's hash and agent run. -/
def requestApproval (taskId : TaskId) (ref : ResultRef) : Routine Unit := do
  let agentRunId := pyStr (Json.get ref "agent_run_id")
  let (subject, previewTitle, evidenceSummary) ← approvalCardFields taskId ref
  let decision ← ask (.gateCheck ⟨agentRunId, realPublishFunctionId, realPublishActionClass,
    textOf (Json.get ref "content_hash"),
    [("preview_title", .str previewTitle),
      ("preview_reference", .str ("weekly-content-loop://" ++ pyStr taskId.text)),
      ("evidence_summary", .str evidenceSummary), ("subject", .str subject)]⟩)
  onTables (completeWith taskId (scheduledRef ref decision agentRunId subject))

/-- `schedule_social_buffer_handler`. -/
def scheduleSocialBuffer (taskId : TaskId) : Routine Unit := do
  match ← onTables (resolveLineageResult taskId) with
  | none =>
    throw (.dispatchError "schedule-social-buffer: no QA-gate ancestor carries a result_ref")
  | some (_, ref) =>
    if nothingToPublish ref then onTables (completeWith taskId (nothingToPublishRef ref))
    else if (Json.get ref "content_hash").truthy = false then
      throw (.dispatchError
        "schedule-social-buffer: QA-gate ancestor result_ref carries no content_hash")
    else if (Json.get ref "agent_run_id").truthy = false then
      throw (.dispatchError
        "schedule-social-buffer: QA-gate ancestor result_ref carries no agent_run_id")
    else requestApproval taskId ref

/-! ## Which hash is put to gate-check -/

theorem extendFrontier_mem {deps seen next : List TaskId} :
    ∀ t ∈ (extendFrontier deps seen next).2, t ∈ next ∨ t ∈ deps := by
  induction deps generalizing seen next with
  | nil => exact fun t ht => .inl ht
  | cons dep deps ih =>
    intro t ht
    unfold extendFrontier at ht
    rw [List.foldl_cons] at ht
    dsimp only at ht
    split at ht
    · rcases ih t ht with h | h
      · exact .inl h
      · exact .inr (List.mem_cons_of_mem _ h)
    · rcases ih t ht with h | h
      · rcases List.mem_append.1 h with h | h
        · exact .inl h
        · exact .inr (List.mem_singleton.1 h ▸ List.mem_cons_self)
      · exact .inr (List.mem_cons_of_mem _ h)

/-- What one level of the walk comes to. -/
def Scanned (start : TaskId) (rows : List TaskRow) (frontier next : List TaskId) :
    Sum (TaskRow × ResultRef) (List TaskId × List TaskId) → Prop
  | .inl (row, ref) => row ∈ rows ∧ row.taskId ∈ frontier ∧ row.taskId ≠ start ∧
      row.resultRef = some ref
  | .inr (_, next') => ∀ t ∈ next', t ∈ next ∨ ∃ row ∈ rows, row.taskId ∈ frontier ∧
      (row.taskId = start ∨ row.resultRef = none) ∧ t ∈ row.dependsOn

theorem scanFrontier_spec {start : TaskId} {rows : List TaskRow} {frontier seen next : List TaskId} :
    Scanned start rows frontier next (scanFrontier start rows frontier seen next) := by
  induction frontier generalizing seen next with
  | nil => exact fun t ht => .inl ht
  | cons tid rest ih =>
    -- what the rest of the level comes to, seen from here
    have hrest : ∀ seen' next', (∀ t ∈ next', t ∈ next ∨ ∃ row ∈ rows, row.taskId ∈ tid :: rest ∧
        (row.taskId = start ∨ row.resultRef = none) ∧ t ∈ row.dependsOn) →
        Scanned start rows (tid :: rest) next (scanFrontier start rows rest seen' next') := by
      intro seen' next' hnext'
      have hih : Scanned start rows rest next' (scanFrontier start rows rest seen' next') := ih
      revert hih
      cases scanFrontier start rows rest seen' next' with
      | inl found =>
        rintro ⟨hrow, hid, hne, href⟩
        exact ⟨hrow, List.mem_cons_of_mem _ hid, hne, href⟩
      | inr level =>
        intro hih t ht
        rcases hih t ht with h | ⟨row, hrow, hid, hwhy, hdep⟩
        · exact hnext' t h
        · exact .inr ⟨row, hrow, List.mem_cons_of_mem _ hid, hwhy, hdep⟩
    rw [scanFrontier]
    cases hfind : rows.find? fun r => r.taskId == tid with
    | none => exact hrest _ _ fun t ht => .inl ht
    | some row =>
      obtain ⟨hrow, hid⟩ := find_taskId hfind
      dsimp only
      cases href : if tid = start then none else row.resultRef with
      | none =>
        refine hrest _ _ fun t ht => ?_
        rcases extendFrontier_mem t ht with h | h
        · exact .inl h
        · refine .inr ⟨row, hrow, hid ▸ List.mem_cons_self, ?_, h⟩
          rw [hid]
          split at href
          · next heq => exact .inl heq
          · exact .inr href
      | some ref =>
        split at href
        · cases href
        · next hne => exact ⟨hrow, hid ▸ List.mem_cons_self, hid ▸ hne, href⟩

/-- A conversation with the services. -/
abbrev Talk := List (Turn Call Call.Res Failure)

/-- The rows that were read are rows of `w`. -/
def ReadFrom (w : Dispatch.World) (log : Talk) : Prop :=
  ∀ ids rows, (⟨.db (.getTasks ids), .ok rows⟩ : Turn Call Call.Res Failure) ∈ log →
    ∀ row ∈ rows, row ∈ w.tables.tasks

/-- Every hash that was put to gate-check is this one. -/
def PutsUp (contentHash : String) (log : Talk) : Prop :=
  ∀ body r, (⟨.gateCheck body, r⟩ : Turn Call Call.Res Failure) ∈ log →
    body.contentHash = contentHash

/-- The rows of the task's own gates: those that it depends on, and each has a `result_ref`. -/
structure Gates (w : Dispatch.World) (taskId : TaskId) (G : TaskId → Prop) : Prop where
  depends : ∀ row ∈ w.tables.tasks, row.taskId = taskId → ∀ dep ∈ row.dependsOn, G dep
  reviewed : ∀ row ∈ w.tables.tasks, G row.taskId → row.resultRef ≠ none

/-- The call asks for no approval. -/
def Call.Silent : Call → Prop
  | .gateCheck _ => False
  | _ => True

section Walk

variable {w : Dispatch.World} {taskId : TaskId} {G : TaskId → Prop} {contentHash : String}
  {log : Talk}

theorem ReadFrom.tail {turn : Turn Call Call.Res Failure} (h : ReadFrom w (turn :: log)) :
    ReadFrom w log := fun ids rows hmem => h ids rows (List.mem_cons_of_mem _ hmem)

theorem PutsUp.cons {c : Call} {r : Reply Failure c.Res} (hc : Call.Silent c)
    (h : PutsUp contentHash log) : PutsUp contentHash (⟨c, r⟩ :: log) := by
  intro body r' hmem
  rcases List.mem_cons.1 hmem with heq | hmem
  · obtain ⟨rfl, -⟩ := Sigma.mk.inj heq
    exact hc.elim
  · exact h body r' hmem

theorem PutsUp.gate {body : GateCheck} {r : Reply Failure Object}
    (hbody : body.contentHash = contentHash) (h : PutsUp contentHash log) :
    PutsUp contentHash (⟨.gateCheck body, r⟩ :: log) := by
  intro body' r' hmem
  rcases List.mem_cons.1 hmem with heq | hmem
  · obtain ⟨hcall, -⟩ := Sigma.mk.inj heq
    rw [Call.gateCheck.inj hcall]
    exact hbody
  · exact h body' r' hmem

/-- A part that asks for no approval. -/
theorem silent_part {α : Type} {p : Routine α} (hp : p.Only Call.Silent)
    (h : PutsUp contentHash log) : After p (fun _ log => PutsUp contentHash log) log :=
  After.only hp h fun _ _ _ hc h => h.cons hc

theorem onTables_silent {α : Type} (x : Worker α) : (onTables x).Only Call.Silent :=
  onTables_only ((Prog.Only.trivial x).mono fun _ _ => True.intro)

/-- A statement in a part that is about the task tables alone, and what follows its answer. -/
theorem tables_after {β : Type} {site : Site} {q : Query} {f : q.Res → Worker β}
    {Q : Except Failure β → Talk → Prop}
    (hok : ∀ a, After (onTables (f a)) Q (⟨.db q, .ok a⟩ :: log))
    (hraise : ∀ r e, Q (.error e) (⟨.db q, r⟩ :: log)) :
    After (onTables ((call site q).bind f)) Q log := by
  unfold call
  rw [Prog.op_bind, onTables]
  intro r
  cases r with
  | ok a => exact hok a
  | failed e => exact hraise (.failed e) _
  | lost a e => exact hraise (.lost a e) _

/-- The walk from a task to its gates comes to one of them, when their rows are read. -/
theorem lineage_of_gates (hgates : Gates w taskId G) (h : PutsUp contentHash log) :
    ∀ hops frontier seen, (ReadFrom w log → ∀ t ∈ frontier, t = taskId ∨ G t) →
      After (onTables (walkLineage taskId hops frontier seen)) (fun out log =>
        PutsUp contentHash log ∧ (ReadFrom w log → ∀ row ref, out = .ok (some (row, ref)) →
          row ∈ w.tables.tasks ∧ G row.taskId ∧ row.resultRef = some ref)) log := by
  intro hops
  induction hops generalizing log with
  | zero => exact fun frontier seen _ => ⟨h, by rintro _ row ref ⟨⟩⟩
  | succ hops ih =>
    intro frontier seen hfrontier
    by_cases hne : frontier = []
    · rw [walkLineage, if_pos hne]
      exact ⟨h, by rintro _ row ref ⟨⟩⟩
    · rw [walkLineage_step hne]
      refine tables_after (fun rows => ?_) fun r e => ⟨h.cons True.intro, by rintro _ _ _ ⟨⟩⟩
      have hcons : PutsUp contentHash (⟨.db (.getTasks frontier), .ok rows⟩ :: log) :=
        h.cons True.intro
      have hspec : Scanned taskId rows frontier [] (scanFrontier taskId rows frontier seen []) :=
        scanFrontier_spec
      -- the rows of this level are rows of `w`
      have hmem : ReadFrom w (⟨.db (.getTasks frontier), .ok rows⟩ :: log) →
          ∀ row ∈ rows, row ∈ w.tables.tasks := fun hread => hread frontier rows List.mem_cons_self
      revert hspec
      cases scanFrontier taskId rows frontier seen [] with
      | inl found =>
        rintro ⟨hrow, hid, hstart, href⟩
        refine ⟨hcons, fun hread row ref heq => ?_⟩
        obtain rfl := Option.some.inj (Except.ok.inj heq)
        refine ⟨hmem hread row hrow, ?_, href⟩
        exact (hfrontier hread.tail row.taskId hid).resolve_left hstart
      | inr level =>
        intro hnext
        refine ih hcons _ _ fun hread t ht => ?_
        rcases hnext t ht with hnil | ⟨row, hrow, hid, hwhy, hdep⟩
        · cases hnil
        · have hrow := hmem hread row hrow
          rcases hwhy with hstart | hnone
          · exact .inr (hgates.depends row hrow hstart t hdep)
          · rcases hfrontier hread.tail row.taskId hid with hstart | hgate
            · exact .inr (hgates.depends row hrow hstart t hdep)
            · exact absurd hnone (hgates.reviewed row hrow hgate)

theorem approvalCardFields_silent (ref : ResultRef) :
    (approvalCardFields taskId ref).Only Call.Silent := by
  have hraise : ∀ {α : Type} (x : Option α), (orRaise x : Routine α).Only Call.Silent := by
    intro α x
    cases x <;> exact True.intro
  have hask : ∀ c : Call, Call.Silent c → (ask c).Only Call.Silent := fun c hc =>
    Prog.Only.perform hc
  have hkinds : (passedReviewKinds taskId).Only Call.Silent :=
    Prog.Only.bind (hask _ True.intro) fun current =>
      Prog.Only.bind (hask _ True.intro) fun rows => True.intro
  have hexcerpt : (draftExcerptForApproval ref).Only Call.Silent := by
    unfold draftExcerptForApproval
    dsimp only
    split
    · exact Prog.Only.bind (Prog.Only.tryCatch
        (Prog.Only.bind (hask _ True.intro) fun _ => True.intro) fun _ => True.intro)
        fun _ => True.intro
    · exact True.intro
  exact hkinds.bind fun _ => (hraise _).bind fun _ => (hraise _).bind fun _ =>
    hexcerpt.bind fun _ => (hraise _).bind fun _ => True.intro

/-- The hash of the ancestor's `result_ref` goes into the request. -/
theorem requestApproval_puts {ref : ResultRef}
    (hhash : textOf (Json.get ref "content_hash") = contentHash) (h : PutsUp contentHash log) :
    After (requestApproval taskId ref) (fun _ log => PutsUp contentHash log) log := by
  refine After.bind (silent_part (approvalCardFields_silent ref) h) (fun card log h => ?_)
    fun e log h => h
  obtain ⟨subject, previewTitle, evidenceSummary⟩ := card
  exact After.ask (fun decision => silent_part (onTables_silent _) (h.gate hhash))
    fun r e _ => h.gate hhash

/-- The hash put to gate-check is that of the task's own gates, when they all carry the same one and
    their rows are read. -/
theorem gateCheck_of_lineage {out : Except Failure Unit} (hgates : Gates w taskId G)
    (hhash : ∀ row ∈ w.tables.tasks, G row.taskId → ∀ ref, row.resultRef = some ref →
      textOf (Json.get ref "content_hash") = contentHash)
    (he : Ends (scheduleSocialBuffer taskId) [] out log) (hread : ReadFrom w log) :
    PutsUp contentHash log := by
  suffices hafter : After (scheduleSocialBuffer taskId)
      (fun _ log => ReadFrom w log → PutsUp contentHash log) [] from hafter.sound he hread
  have hnil : PutsUp contentHash [] := fun body r hmem => nomatch hmem
  refine After.bind (lineage_of_gates hgates hnil _ _ _ fun _ t ht =>
    .inl (List.mem_singleton.1 ht)) (fun found log hfound => ?_) fun e log hfound _ => hfound.1
  obtain ⟨hputs, hrow⟩ := hfound
  have hsilent : ∀ {p : Routine Unit}, p.Only Call.Silent →
      After p (fun _ log => ReadFrom w log → PutsUp contentHash log) log :=
    fun hp => (silent_part hp hputs).mono fun _ _ h _ => h
  match found with
  | none => exact fun _ => hputs
  | some (row, ref) =>
    dsimp only
    split
    · exact hsilent (onTables_silent _)
    split
    · exact fun _ => hputs
    split
    · exact fun _ => hputs
    by_cases hread : ReadFrom w log
    · obtain ⟨hmem, hgate, href⟩ := hrow hread row ref rfl
      exact (requestApproval_puts (hhash row hmem hgate ref href) hputs).mono fun _ _ h _ => h
    · -- what was not read from these rows stays so
      have hnot : After (requestApproval taskId ref) (fun _ log => ¬ ReadFrom w log) log :=
        After.only (Prog.Only.trivial _) hread fun _ _ _ _ hread h => hread h.tail
      exact hnot.mono fun _ _ hnot h => absurd h hnot

end Walk

end CanvasOS.Publication
