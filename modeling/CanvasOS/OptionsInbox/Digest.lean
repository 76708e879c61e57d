/-
  The digest of the options inbox (`route_digest_handler`), and what becomes of the cards that
  nobody decides.

  1. `Inbox` — the cards in the Vault and the decisions about them; `pending` is what the query of
     `list_option_cards` selects: undecided and unexpired.
  2. `routeDigestHandler` — the pending cards are fetched, then the time is taken, then `route`
     places them: only a card that expires in between is seen as expired.
  3. `routed_ok`, `routeDigestHandler_upholds` — no run closes a card, and what a run records is
     what the cards that it fetched were routed to.
  4. `lawful_iff` — in every history a run loses no card exactly if none of them had expired before
     it fetched them, and one fetch holds them all.
-/
import CanvasOS.Lib.Part
import CanvasOS.Lib.Select
import CanvasOS.Lib.Trace
import CanvasOS.OptionsInbox.Policy

namespace CanvasOS.OptionsInbox

open Interleave Python Review Table

/-! ## The inbox -/

/-- A row of `option_cards`.  Every caller stores a card under its own id and times, and they are
    times of a zone. -/
structure CardRow where
  card : OptionCard
  created : card.createdAt.aware = true
  expires : card.expiresAt.aware = true
deriving DecidableEq

def CardRow.cardId (row : CardRow) : String := row.card.cardId

/-- `created_at` and `expires_at` -/
def CardRow.createdAt (row : CardRow) : Int := row.card.createdAt.micros

def CardRow.expiresAt (row : CardRow) : Int := row.card.expiresAt.micros

/-- The clock, the cards, and the ids in `approval_decisions`. -/
structure Inbox where
  clock : Int
  cards : List CardRow
  /-- `card_id uuid PRIMARY KEY` -/
  ids : (cards.map CardRow.cardId).Nodup
  decided : List String

/-- `expires_at > now() AND NOT EXISTS (SELECT 1 FROM approval_decisions …)`; it is asked for
    `ORDER BY created_at ASC`. -/
def Inbox.pending (s : Inbox) : List CardRow :=
  s.cards.filter fun row => s.clock < row.expiresAt ∧ row.cardId ∉ s.decided

/-! ## The handler -/

/-- What function 117 puts out. -/
structure DigestOutput where
  digestDate : String
  sent : List String
  autoResolvedByPermission : List (String × String)
  timeoutDefaultsApplied : List String
  expiredUnresolved : List String
  queuedOverflowCount : Nat
  budgetUsed : Nat
  escalations : List String
deriving DecidableEq

/-- The `result_ref` of the task. -/
structure DigestRef where
  output : DigestOutput
  posted : Bool
  agentRunId : String
  campaignId : String
deriving DecidableEq

/-- What the handler asks of the Vault, the Gatekeeper, Teams and the task store. -/
inductive DigestOp where
  | getOrCreateCampaign (functionId : String)
  | createAgentRun (campaignId : String)
  | listPendingOptionCards (limit : Nat)
  /-- `datetime.now(timezone.utc)` -/
  | utcNow
  | validateFunctionOutput (output : DigestOutput)
  /-- `_render_options_digest` and `notify_options_digest` -/
  | postDigest (sent : List String) (overflowCount : Nat) (digestDate : String)
  | updateAgentRun (agentRunId : String) (output : DigestOutput)
  | setResultRef (taskId : String) (ref : DigestRef)
  | transition (taskId : String)
  | advanceDependents (taskId : String)
deriving DecidableEq

@[reducible] def DigestOp.Res : DigestOp → Type
  | .getOrCreateCampaign _ | .createAgentRun _ => String
  | .listPendingOptionCards _ => List CardRow
  | .utcNow => Int
  | .postDigest .. => Bool
  | .validateFunctionOutput _ | .updateAgentRun .. | .setResultRef .. | .transition _
  | .advanceDependents _ => Unit

inductive DigestError where
  | inbox (failure : InboxFailure)
  | remote
deriving DecidableEq

abbrev Digesting := Prog DigestOp DigestOp.Res DigestError

def ask (o : DigestOp) : Digesting o.Res := Prog.perform o

/-- The matrix, `CMOS_APPROVAL_BASE_URL`, and `date().isoformat()`. -/
structure DigestSettings where
  matrix : AutonomyMatrix
  approvalBaseUrl : Option String
  isoDate : Int → String

/-- `route(cards, [], now=now)`: no permissions, and nothing is known to have been shown before. -/
def routed (S : DigestSettings) (rows : List CardRow) (now : Int) :
    Except InboxFailure RoutingResult :=
  route S.matrix (rows.map CardRow.card) ([] : List (StandingPermission Unit)) ⟨now, true⟩ 0
    ([] : List (String × Int)) [] ()

/-- `output` -/
def outputOf (S : DigestSettings) (routing : RoutingResult) (now : Int) : DigestOutput where
  digestDate := S.isoDate now
  sent := routing.sent.map OptionCard.cardId
  autoResolvedByPermission := routing.autoResolved.map fun x => (x.1.cardId, x.2)
  timeoutDefaultsApplied := routing.timeoutDefaults.map OptionCard.cardId
  expiredUnresolved := routing.expiredUnresolved.map OptionCard.cardId
  queuedOverflowCount := routing.queuedOverflow.length
  budgetUsed := routing.sent.length
  escalations := routing.escalations.map OptionCard.cardId

/-- `approval_base_url and routing.sent` -/
def posts (S : DigestSettings) (routing : RoutingResult) : Bool :=
  S.approvalBaseUrl.any (fun url => url ≠ "") && !routing.sent.isEmpty

/-- What is left once the cards are routed. -/
def finishDigest (S : DigestSettings) (taskId campaignId agentRunId : String) (now : Int)
    (routing : RoutingResult) : Digesting Unit := do
  let output := outputOf S routing now
  ask (.validateFunctionOutput output)
  let posted : Bool ← if posts S routing then
      ask (.postDigest output.sent output.queuedOverflowCount output.digestDate)
    else pure false
  ask (.updateAgentRun agentRunId output)
  ask (.setResultRef taskId ⟨output, posted, agentRunId, campaignId⟩)
  ask (.transition taskId)
  ask (.advanceDependents taskId)

/-- `route_digest_handler` -/
def routeDigestHandler (S : DigestSettings) (taskId : String) : Digesting Unit := do
  let campaignId : String ← ask (.getOrCreateCampaign "117")
  let agentRunId : String ← ask (.createAgentRun campaignId)
  let pendingRows : List CardRow ← ask (.listPendingOptionCards 500)
  let now : Int ← ask .utcNow
  match routed S pendingRows now with
  | .error e => throw (.inbox e)
  | .ok routing => finishDigest S taskId campaignId agentRunId now routing

/-- One statement.  Only the query and the clock have to do with the inbox. -/
def execDigest : (o : DigestOp) → o.Res → Inbox → Option (o.Res × Inbox)
  | .listPendingOptionCards limit, rows, s =>
    if FirstBy CardRow.createdAt limit s.pending rows then some (rows, s) else none
  | .utcNow, _, s => some (s.clock, s)
  | .getOrCreateCampaign _, a, s | .createAgentRun _, a, s => some (a, s)
  | .postDigest .., a, s => some (a, s)
  | .validateFunctionOutput _, a, s | .updateAgentRun .., a, s | .setResultRef .., a, s
  | .transition _, a, s | .advanceDependents _, a, s => some (a, s)

/-- What happens in between: time passes, a card is created, a card is decided. -/
inductive InboxMove where
  | elapse (clock : Int)
  | createOptionCard (row : CardRow)
  | decide (cardId : String)

def moveInbox : InboxMove → Inbox → Option Inbox
  | .elapse clock, s => if s.clock ≤ clock then some { s with clock := clock } else none
  | .createOptionCard row, s =>
    if h : row.cardId ∈ s.cards.map CardRow.cardId then none
    else some { s with
      cards := row :: s.cards
      ids := by rw [List.map_cons]; exact List.nodup_cons.2 ⟨h, s.ids⟩ }
  | .decide cardId, s =>
    if cardId ∈ s.cards.map CardRow.cardId then some { s with decided := cardId :: s.decided }
    else none

/-- Any number of runs of the digest, each of them a task. -/
def digests (S : DigestSettings) (ι : Type) [DecidableEq ι] :
    Sys DigestOp DigestOp.Res DigestError Inbox ι String Unit InboxMove where
  body := routeDigestHandler S
  enter _ _ s := some s
  run _ o a s := execDigest o a s
  env := moveInbox

/-! ## What is promised -/

section Promise

variable {ι : Type}

abbrev DigestStatement (ι : Type) := Event DigestOp DigestOp.Res Inbox ι

/-- A run: who it was, what came before its query, what it fetched from which inbox, when it routed
    it, and its result. -/
structure DigestRun (ι : Type) where
  who : ι
  earlier : List (DigestStatement ι)
  inbox : Inbox
  fetched : List CardRow
  now : Int
  taskId : String
  ref : DigestRef

/-- The run is on record, up to its result. -/
structure DigestRun.Recorded (run : DigestRun ι) (log : List (DigestStatement ι)) : Prop where
  query : ∃ later, log =
    later ++ ⟨run.who, .listPendingOptionCards 500, run.fetched, run.inbox⟩ :: run.earlier
  time : ∃ pre, ⟨run.who, .utcNow, run.now, pre⟩ ∈ log
  result : ∃ pre, ⟨run.who, .setResultRef run.taskId run.ref, (), pre⟩ ∈ log

/-- An earlier run has concluded the card. -/
def Concluded (log : List (DigestStatement ι)) (cardId : String) : Prop :=
  ∃ run : DigestRun ι, run.Recorded log ∧ (cardId ∈ run.ref.output.timeoutDefaultsApplied ∨
    cardId ∈ run.ref.output.expiredUnresolved)

/-- An earlier run has escalated the card when it had expired. -/
def Resurfaced (log : List (DigestStatement ι)) (row : CardRow) : Prop :=
  ∃ run : DigestRun ι, run.Recorded log ∧ row.cardId ∈ run.ref.output.escalations ∧
    row.expiresAt ≤ run.now

/-- Where an undecided card that has expired is to be found. -/
structure DigestRun.Places (run : DigestRun ι) (row : CardRow) : Prop where
  default : row.card.defaultOnTimeout.isSome = true →
    row.cardId ∈ run.ref.output.timeoutDefaultsApplied
  first : row.card.defaultOnTimeout = none → ¬ Resurfaced run.earlier row →
    row.cardId ∈ run.ref.output.escalations
  second : row.card.defaultOnTimeout = none → Resurfaced run.earlier row →
    row.cardId ∈ run.ref.output.expiredUnresolved

/-- A run considers every card that is undecided and not concluded, and places it if it has
    expired. -/
def DigestRun.Lawful (run : DigestRun ι) : Prop :=
  ∀ row ∈ run.inbox.cards, row.cardId ∉ run.inbox.decided → ¬ Concluded run.earlier row.cardId →
    row ∈ run.fetched ∧ (row.expiresAt ≤ run.now → run.Places row)

/-- None of these cards has expired when the run fetches them, and one fetch holds them all. -/
structure DigestRun.InTime (run : DigestRun ι) : Prop where
  unexpired : ∀ row ∈ run.inbox.cards, row.cardId ∉ run.inbox.decided →
    ¬ Concluded run.earlier row.cardId → run.inbox.clock < row.expiresAt
  fits : run.inbox.pending.length ≤ 500

end Promise

/-! ## Routing without permissions -/

section Routing

variable {S : DigestSettings} {rows : List CardRow} {now : Int} {row : CardRow}

/-- Where the first loop puts a card that is not known to have been shown before. -/
def placeOf (now : Int) (row : CardRow) : Placement :=
  if row.expiresAt ≤ now then
    if row.card.defaultOnTimeout.isSome then .timeoutDefault else .secondShowing
  else .remaining

theorem place_row (M : AutonomyMatrix) :
    place M ([] : List (StandingPermission Unit)) () [] ⟨now, true⟩ row.card =
      .ok (placeOf now row) := by
  have hcompare : row.card.expiresAt.notAfter ⟨now, true⟩ =
      .ok (decide (row.expiresAt ≤ now)) := by
    unfold Moment.notAfter
    rw [if_pos row.expires]
    rfl
  show placeByExpiry [] ⟨now, true⟩ row.card = _
  unfold placeByExpiry placeOf
  rw [hcompare]
  show Except.ok _ = _
  by_cases hexpired : row.expiresAt ≤ now
  · simp [hexpired]
  · simp [hexpired]

theorem place_rows (M : AutonomyMatrix) : ((rows.map CardRow.card).mapM fun card => do
      let p ← place M ([] : List (StandingPermission Unit)) () [] ⟨now, true⟩ card
      pure (card, p)) = .ok (rows.map fun row => (row.card, placeOf now row)) := by
  induction rows with
  | nil => rfl
  | cons row rows ih =>
    rw [List.map_cons, List.mapM_cons, ih, place_row]
    rfl

theorem placedAs_rows (p : Placement) :
    placedAs p (rows.map fun row => (row.card, placeOf now row)) =
      (rows.filter fun row => placeOf now row = p).map CardRow.card := by
  unfold placedAs
  rw [List.filter_map, List.map_map]
  rfl

/-- The cards of zones are always routed, and none of them is closed. -/
theorem routed_ok (S : DigestSettings) (rows : List CardRow) (now : Int) :
    ∃ routing, routed S rows now = .ok routing ∧
      routing.timeoutDefaults =
        (rows.filter fun row => placeOf now row = .timeoutDefault).map CardRow.card ∧
      routing.expiredUnresolved = [] ∧
      ∃ realtime, routing.escalations =
        (rows.filter fun row => placeOf now row = .secondShowing).map CardRow.card ++ realtime := by
  refine ⟨_, by
    unfold routed route
    rw [place_rows]
    rfl, placedAs_rows _, ?_, _, congrArg (· ++ _) (placedAs_rows _)⟩
  show placedAs _ _ = []
  rw [placedAs_rows, List.map_eq_nil_iff, List.filter_eq_nil_iff]
  intro row _ h
  have hplace := of_decide_eq_true h
  unfold placeOf at hplace
  split at hplace
  · split at hplace <;> cases hplace
  · cases hplace

end Routing

/-! ## What a run records -/

section Record

variable {S : DigestSettings} {log : Heard DigestOp DigestOp.Res} {o : DigestOp} {a : o.Res}
  {rows : List CardRow} {now : Int} {taskId campaignId agentRunId : String}
  {routing : RoutingResult}

/-- A result is what the cards that were fetched were routed to at the time that was taken. -/
def Routed (S : DigestSettings) (log : Heard DigestOp DigestOp.Res) : Prop :=
  ∀ taskId ref, ⟨.setResultRef taskId ref, ()⟩ ∈ log →
    ∀ rows, ⟨.listPendingOptionCards 500, rows⟩ ∈ log → ∀ now, ⟨.utcNow, now⟩ ∈ log →
      ∃ routing, routed S rows now = .ok routing ∧ ref.output = outputOf S routing now

/-- There is no result yet, these are the cards and this is the time. -/
structure Ready (rows : List CardRow) (now : Int) (log : Heard DigestOp DigestOp.Res) : Prop where
  unrecorded : ∀ taskId ref, ⟨.setResultRef taskId ref, ()⟩ ∉ log
  fetched : ∀ rows', ⟨.listPendingOptionCards 500, rows'⟩ ∈ log → rows' = rows
  timed : ∀ now', ⟨.utcNow, now'⟩ ∈ log → now' = now

/-- The statement is neither the query, nor the clock, nor the result. -/
def DigestOp.Plain : DigestOp → Prop
  | .listPendingOptionCards _ | .utcNow | .setResultRef .. => False
  | _ => True

theorem mem_of_plain {o' : DigestOp} {b : o'.Res} (ho : o.Plain) (ho' : ¬ o'.Plain)
    (h : (⟨o', b⟩ : (o : DigestOp) × o.Res) ∈ (⟨o, a⟩ : (o : DigestOp) × o.Res) :: log) :
    (⟨o', b⟩ : (o : DigestOp) × o.Res) ∈ log := by
  refine (List.mem_cons.1 h).resolve_left fun heq => ho' ?_
  rw [(Sigma.mk.inj heq).1]
  exact ho

theorem Ready.cons (ho : o.Plain) (h : Ready rows now log) : Ready rows now (⟨o, a⟩ :: log) :=
  ⟨fun taskId ref hmem => h.unrecorded taskId ref (mem_of_plain ho id hmem),
    fun rows' hmem => h.fetched rows' (mem_of_plain ho id hmem),
    fun now' hmem => h.timed now' (mem_of_plain ho id hmem)⟩

theorem Routed.cons (ho : o.Plain) (h : Routed S log) : Routed S (⟨o, a⟩ :: log) :=
  fun taskId ref hset rows hrows now hnow => h taskId ref (mem_of_plain ho id hset) rows
    (mem_of_plain ho id hrows) now (mem_of_plain ho id hnow)

theorem Ready.routed (h : Ready rows now log) : Routed S log :=
  fun taskId ref hset => absurd hset (h.unrecorded taskId ref)

/-- The result is recorded. -/
theorem Ready.record (h : Ready rows now log)
    (hrouting : OptionsInbox.routed S rows now = .ok routing) (ref : DigestRef)
    (href : ref.output = outputOf S routing now) :
    Routed S (⟨.setResultRef taskId ref, ()⟩ :: log) := by
  intro taskId' ref' hset rows' hrows now' hnow
  have hset := (List.mem_cons.1 hset).resolve_right (h.unrecorded taskId' ref')
  obtain ⟨-, rfl⟩ := DigestOp.setResultRef.inj (Sigma.mk.inj hset).1
  obtain rfl := h.fetched rows'
    ((List.mem_cons.1 hrows).resolve_left fun heq => nomatch (Sigma.mk.inj heq).1)
  obtain rfl := h.timed now'
    ((List.mem_cons.1 hnow).resolve_left fun heq => nomatch (Sigma.mk.inj heq).1)
  exact ⟨routing, hrouting, href⟩

theorem finishDigest_upholds (h : Ready rows now log)
    (hrouting : OptionsInbox.routed S rows now = .ok routing) :
    Upholds hear (Routed S) (finishDigest S taskId campaignId agentRunId now routing)
      (fun _ _ => True) log := by
  have hend : ∀ {log}, Routed S log → Upholds hear (Routed S)
      ((ask (.transition taskId)).bind fun _ => ask (.advanceDependents taskId))
      (fun _ _ => True) log := by
    intro log hlog
    refine Upholds.of_only (P := DigestOp.Plain) ?_ hlog fun o a b log log' ho hx hlog => ?_
    · exact Prog.Only.bind (Prog.Only.perform True.intro) fun _ => Prog.Only.perform True.intro
    · rw [hear_eq_some hx]
      exact hlog.cons ho
  have hrecord : ∀ {log}, Ready rows now log → ∀ posted : Bool, Upholds hear (Routed S)
      ((ask (.updateAgentRun agentRunId (outputOf S routing now))).bind fun _ =>
        (ask (.setResultRef taskId
          ⟨outputOf S routing now, posted, agentRunId, campaignId⟩)).bind fun _ =>
          (ask (.transition taskId)).bind fun _ => ask (.advanceDependents taskId))
      (fun _ _ => True) log := by
    intro log hlog posted
    refine Upholds.hear_bind hlog.routed (fun _ _ _ => True.intro) fun _ => ?_
    have hupdated : Ready rows now
        (⟨.updateAgentRun agentRunId (outputOf S routing now), ()⟩ :: log) := hlog.cons True.intro
    exact Upholds.hear_bind hupdated.routed (fun _ _ _ => True.intro) fun _ =>
      hend (hupdated.record hrouting _ rfl)
  refine Upholds.hear_bind h.routed (fun _ _ _ => True.intro) fun _ => ?_
  have hvalid : Ready rows now (⟨.validateFunctionOutput (outputOf S routing now), ()⟩ :: log) :=
    h.cons True.intro
  cases hposts : posts S routing with
  | true =>
    refine Upholds.hear_bind hvalid.routed (fun _ _ _ => True.intro) fun posted => ?_
    exact hrecord (Ready.cons (o := .postDigest _ _ _) True.intro hvalid) posted
  | false => exact hrecord hvalid false

theorem routeDigestHandler_upholds (S : DigestSettings) (taskId : String) :
    Upholds hear (Routed S) (routeDigestHandler S taskId) (fun _ _ => True) [] := by
  have hnil : Routed S [] := fun taskId ref hset => absurd hset List.not_mem_nil
  refine Upholds.hear_bind hnil (fun _ _ _ => True.intro) fun campaignId => ?_
  have hcampaign : Routed S [⟨.getOrCreateCampaign "117", campaignId⟩] := hnil.cons True.intro
  refine Upholds.hear_bind hcampaign (fun _ _ _ => True.intro) fun agentRunId => ?_
  have hrun : Routed S [⟨.createAgentRun campaignId, agentRunId⟩,
    ⟨.getOrCreateCampaign "117", campaignId⟩] := hcampaign.cons True.intro
  refine Upholds.hear_bind hrun (fun _ _ _ => True.intro) fun rows => ?_
  have hfetched : Routed S [⟨.listPendingOptionCards 500, rows⟩,
      ⟨.createAgentRun campaignId, agentRunId⟩, ⟨.getOrCreateCampaign "117", campaignId⟩] :=
    fun taskId ref hset => nomatch hset
  refine Upholds.hear_bind hfetched (fun _ _ _ => True.intro) fun now => ?_
  have hready : Ready rows now [⟨.utcNow, now⟩, ⟨.listPendingOptionCards 500, rows⟩,
      ⟨.createAgentRun campaignId, agentRunId⟩, ⟨.getOrCreateCampaign "117", campaignId⟩] := by
    refine ⟨fun taskId ref h => ?_, fun rows' h => ?_, fun now' h => ?_⟩
    · simp at h
    · simpa using h
    · simpa using h
  cases hrouting : routed S rows now with
  | error e => exact ⟨hready.routed, True.intro⟩
  | ok routing => exact finishDigest_upholds hready hrouting

end Record

/-! ## What holds throughout a history of runs -/

section Run

variable {ι : Type} [DecidableEq ι] {S : DigestSettings} {s s' : Inbox} {o : DigestOp} {a b : o.Res}
  {clock : Int} {log : List (DigestStatement ι)} {run : DigestRun ι} {row : CardRow}

abbrev DigestState (ι : Type) :=
  Config DigestOp DigestOp.Res DigestError (History DigestOp DigestOp.Res Inbox ι String) ι String
    Unit

variable {c : DigestState ι}
  {ok : DigestState ι → Act DigestOp DigestOp.Res DigestError ι String InboxMove → Prop}

def Inbox.new (clock : Int) : Inbox := ⟨clock, [], List.nodup_nil, []⟩

abbrev DigestRuns (S : DigestSettings)
    (ok : DigestState ι → Act DigestOp DigestOp.Res DigestError ι String InboxMove → Prop)
    (clock : Int) (c : DigestState ι) : Prop :=
  (digests S ι).recording.Reach ok (.idle ⟨.new clock, [], []⟩) c

theorem exec_listPending {limit : Nat} {rows rows' : List CardRow}
    (h : execDigest (.listPendingOptionCards limit) rows s = some (rows', s')) :
    FirstBy CardRow.createdAt limit s.pending rows' ∧ s' = s := by
  change (if FirstBy CardRow.createdAt limit s.pending rows then some (rows, s) else none) =
    some (rows', s') at h
  split at h
  · next hrows =>
    obtain ⟨rfl, rfl⟩ := Prod.mk.inj (Option.some.inj h)
    exact ⟨hrows, rfl⟩
  · cases h

/-- No statement of a run changes the inbox. -/
theorem exec_inbox (h : execDigest o a s = some (b, s')) : s' = s := by
  cases o with
  | listPendingOptionCards limit => exact (exec_listPending h).2
  | _ => exact (Prod.mk.inj (Option.some.inj h)).2.symm

/-- Time does not go back, and no card is deleted. -/
theorem moveInbox_keeps {e : InboxMove} (h : moveInbox e s = some s') :
    s.clock ≤ s'.clock ∧ ∀ row ∈ s.cards, row ∈ s'.cards := by
  cases e with
  | elapse clock =>
    simp only [moveInbox] at h
    split at h
    · next hle =>
      obtain rfl := Option.some.inj h
      exact ⟨hle, fun _ h => h⟩
    · cases h
  | createOptionCard row =>
    simp only [moveInbox] at h
    split at h
    · cases h
    · obtain rfl := Option.some.inj h
      exact ⟨Int.le_refl _, fun _ h => List.mem_cons_of_mem _ h⟩
  | decide cardId =>
    simp only [moveInbox] at h
    split at h
    · obtain rfl := Option.some.inj h
      exact ⟨Int.le_refl _, fun _ h => h⟩
    · cases h

/-- What any statement found in the inbox is in it, and the clock has not gone back. -/
structure Kept (s : Inbox) (log : List (DigestStatement ι)) : Prop where
  clock : ∀ e ∈ log, e.pre.clock ≤ s.clock
  cards : ∀ e ∈ log, ∀ row ∈ e.pre.cards, row ∈ s.cards

theorem kept (hr : DigestRuns S ok clock c) : c.shared.Throughout Kept := by
  refine hr.throughout ?_ ?_ ?_ ?_
  · exact ⟨fun e he => absurd he List.not_mem_nil, fun e he => absurd he List.not_mem_nil⟩
  · intro i r s t log hs h
    obtain rfl := Option.some.inj hs
    exact h
  · intro i o a b s t log hx h
    obtain rfl := exec_inbox hx
    refine ⟨fun e he => ?_, fun e he => ?_⟩
    · rcases List.mem_cons.1 he with rfl | he
      · exact Int.le_refl _
      · exact h.clock e he
    · rcases List.mem_cons.1 he with rfl | he
      · exact fun _ h => h
      · exact h.cards e he
  · intro e s t log hs h
    obtain ⟨hclock, hcards⟩ := moveInbox_keeps hs
    exact ⟨fun x hx => Int.le_trans (h.clock x hx) hclock,
      fun x hx row hrow => hcards row (h.cards x hx row hrow)⟩

omit [DecidableEq ι] in
theorem mem_pending : row ∈ s.pending ↔
    row ∈ s.cards ∧ s.clock < row.expiresAt ∧ row.cardId ∉ s.decided := by
  unfold Inbox.pending
  rw [List.mem_filter, decide_eq_true_iff]

/-- A card is known by its id. -/
theorem Inbox.eq_of_cardId {row' : CardRow} (hrow : row ∈ s.cards) (hrow' : row' ∈ s.cards)
    (h : row.cardId = row'.cardId) : row = row' :=
  List.inj_on_of_nodup_map s.ids hrow hrow' h

theorem Inbox.pending_nodup (s : Inbox) : s.pending.Nodup :=
  (List.Nodup.of_map _ s.ids).filter _

omit [DecidableEq ι] in
/-- What a run that is on record was: the query found what was pending, the time came from the
    clock, and the result is what the cards were routed to. -/
structure DigestRun.Sound (run : DigestRun ι) (S : DigestSettings)
    (log : List (DigestStatement ι)) : Prop where
  fetched : FirstBy CardRow.createdAt 500 run.inbox.pending run.fetched
  timed : ∃ e ∈ log, run.now = e.pre.clock
  routed : ∃ routing, routed S run.fetched run.now = .ok routing ∧
    run.ref.output = outputOf S routing run.now

theorem DigestRun.Recorded.sound (hr : DigestRuns S ok clock c) (hlog : run.Recorded log)
    (hmem : ∃ new, c.shared.log = new ++ log) : run.Sound S log := by
  obtain ⟨new, hnew⟩ := hmem
  have hin {e : DigestStatement ι} (he : e ∈ log) : e ∈ c.shared.log := by
    rw [hnew]
    exact List.mem_append_right _ he
  obtain ⟨later, heq⟩ := hlog.query
  obtain ⟨pre, htime⟩ := hlog.time
  obtain ⟨pre', hresult⟩ := hlog.result
  have hquery : ⟨run.who, .listPendingOptionCards 500, run.fetched, run.inbox⟩ ∈ log := by
    rw [heq]
    exact List.mem_append_right _ List.mem_cons_self
  refine ⟨?_, ⟨_, htime, ?_⟩, ?_⟩
  · obtain ⟨a, t, hx⟩ := hr.recording_ran _ (hin hquery)
    exact (exec_listPending hx).1
  · obtain ⟨a, t, hx⟩ := hr.recording_ran _ (hin htime)
    exact (Prod.mk.inj (Option.some.inj hx)).1.symm
  · have hrouted : Routed S (c.shared.heard run.who) :=
      hr.upholds_heard (fun _ _ h => absurd h List.not_mem_nil)
        (fun taskId => routeDigestHandler_upholds S taskId) run.who
    exact hrouted run.taskId run.ref (History.mem_heard.2 ⟨pre', hin hresult⟩) run.fetched
      (History.mem_heard.2 ⟨_, hin hquery⟩) run.now (History.mem_heard.2 ⟨pre, hin htime⟩)

omit [DecidableEq ι] in
/-- What a run puts out of the cards that it fetched. -/
theorem DigestRun.Sound.output (h : run.Sound S log) :
    run.ref.output.timeoutDefaultsApplied =
        (run.fetched.filter fun row => placeOf run.now row = .timeoutDefault).map CardRow.cardId ∧
      run.ref.output.expiredUnresolved = [] ∧
      ∀ row ∈ run.fetched, placeOf run.now row = .secondShowing →
        row.cardId ∈ run.ref.output.escalations := by
  obtain ⟨routing, hrouting, hout⟩ := h.routed
  obtain ⟨routing', hrouting', hdefaults, hunresolved, realtime, hescalations⟩ :=
    routed_ok S run.fetched run.now
  obtain rfl := Except.ok.inj (hrouting.symm.trans hrouting')
  rw [hout]
  refine ⟨?_, ?_, fun row hrow hplace => ?_⟩
  · show routing.timeoutDefaults.map OptionCard.cardId = _
    rw [hdefaults, List.map_map]
    rfl
  · show routing.expiredUnresolved.map OptionCard.cardId = []
    rw [hunresolved, List.map_nil]
  · show row.cardId ∈ routing.escalations.map OptionCard.cardId
    rw [hescalations, List.map_append, List.map_map]
    exact List.mem_append_left _ (List.mem_map.2
      ⟨row, List.mem_filter.2 ⟨hrow, decide_eq_true hplace⟩, rfl⟩)

/-- Whatever an earlier run has concluded had expired. -/
theorem expired_of_concluded (hr : DigestRuns S ok clock c) (hrun : run.Recorded c.shared.log)
    (hrow : row ∈ run.inbox.cards) (h : Concluded run.earlier row.cardId) :
    row.expiresAt ≤ run.inbox.clock := by
  obtain ⟨later, heq⟩ := hrun.query
  have hkept : Kept run.inbox run.earlier := (kept hr).before later _ run.earlier heq
  obtain ⟨run', hrun', hplaced⟩ := h
  have hsound : run'.Sound S run.earlier :=
    hrun'.sound hr ⟨later ++ [_], by rw [heq, List.append_assoc]; rfl⟩
  obtain ⟨hdefaults, hunresolved, -⟩ := hsound.output
  rw [hdefaults, hunresolved] at hplaced
  obtain ⟨row', hrow', hid⟩ := List.mem_map.1 (hplaced.resolve_right List.not_mem_nil)
  obtain ⟨hfetched, hplace⟩ := List.mem_filter.1 hrow'
  -- it is the same card
  obtain ⟨later', heq'⟩ := hrun'.query
  have hquery : ⟨run'.who, .listPendingOptionCards 500, run'.fetched, run'.inbox⟩ ∈
      run.earlier := by
    rw [heq']
    exact List.mem_append_right _ List.mem_cons_self
  have hcard : row' ∈ run.inbox.cards :=
    hkept.cards _ hquery row' (mem_pending.1 (hsound.fetched.mem row' hfetched)).1
  obtain rfl : row' = row := Inbox.eq_of_cardId hcard hrow hid
  -- it had expired when it was placed, and time has not gone back since
  obtain ⟨e, he, hnow⟩ := hsound.timed
  have hexpired : row'.expiresAt ≤ run'.now := by
    have hplace := of_decide_eq_true hplace
    unfold placeOf at hplace
    split at hplace
    · assumption
    · cases hplace
  calc row'.expiresAt ≤ run'.now := hexpired
    _ = e.pre.clock := hnow
    _ ≤ run.inbox.clock := hkept.clock e he

/-- Whatever an earlier run has escalated as expired had expired. -/
theorem expired_of_resurfaced (hr : DigestRuns S ok clock c) (hrun : run.Recorded c.shared.log)
    (h : Resurfaced run.earlier row) : row.expiresAt ≤ run.inbox.clock := by
  obtain ⟨later, heq⟩ := hrun.query
  have hkept : Kept run.inbox run.earlier := (kept hr).before later _ run.earlier heq
  obtain ⟨run', hrun', -, hexpired⟩ := h
  obtain ⟨e, he, hnow⟩ :=
    (hrun'.sound hr ⟨later ++ [_], by rw [heq, List.append_assoc]; rfl⟩).timed
  calc row.expiresAt ≤ run'.now := hexpired
    _ = e.pre.clock := hnow
    _ ≤ run.inbox.clock := hkept.clock e he

omit [DecidableEq ι] in
/-- A card that was fetched and has expired since is placed. -/
theorem DigestRun.Sound.places (h : run.Sound S log) (hrow : row ∈ run.fetched)
    (hfirst : ¬ Resurfaced run.earlier row) (hexpired : row.expiresAt ≤ run.now) :
    run.Places row := by
  obtain ⟨hdefaults, -, hescalations⟩ := h.output
  refine ⟨fun hdefault => ?_, fun hnone _ => hescalations row hrow ?_,
    fun _ hresurfaced => absurd hresurfaced hfirst⟩
  · have hplace : placeOf run.now row = .timeoutDefault := by
      unfold placeOf
      rw [if_pos hexpired, if_pos hdefault]
    rw [hdefaults]
    exact List.mem_map_of_mem (List.mem_filter.2 ⟨hrow, decide_eq_true hplace⟩)
  · unfold placeOf
    rw [if_pos hexpired, hnone]
    rfl

/-- In every history, a run of the digest loses no card exactly if it is in time: none of the
    undecided cards has expired, and they fit into one fetch. -/
theorem lawful_iff (hr : DigestRuns S ok clock c) (hrun : run.Recorded c.shared.log) :
    run.Lawful ↔ run.InTime := by
  have hsound : run.Sound S c.shared.log := hrun.sound hr ⟨[], rfl⟩
  have hfetched := hsound.fetched
  constructor
  · intro hlawful
    refine ⟨fun row hrow hundecided hopen => ?_, ?_⟩
    · exact (mem_pending.1 (hfetched.mem row (hlawful row hrow hundecided hopen).1)).2.1
    · have hall : run.inbox.pending ⊆ run.fetched := by
        intro row hrow
        obtain ⟨hcard, hunexpired, hundecided⟩ := mem_pending.1 hrow
        refine (hlawful row hcard hundecided fun hconcluded => ?_).1
        exact absurd (expired_of_concluded hr hrun hcard hconcluded) (Int.not_le.2 hunexpired)
      have hle := (run.inbox.pending_nodup.subperm hall).length_le
      have hlength := hfetched.length
      omega
  · intro hintime row hrow hundecided hopen
    have hunexpired : run.inbox.clock < row.expiresAt :=
      hintime.unexpired row hrow hundecided hopen
    have hseen : row ∈ run.fetched :=
      hfetched.mem_of_short hintime.fits (mem_pending.2 ⟨hrow, hunexpired, hundecided⟩)
    refine ⟨hseen, hsound.places hseen fun hresurfaced => ?_⟩
    exact absurd (expired_of_resurfaced hr hrun hresurfaced) (Int.not_le.2 hunexpired)

end Run

/-! ### A card that nobody decides -/

/-- A card without a default, to be decided within two days. -/
def undecided : CardRow where
  card := {
    cardId := "card"
    kind := "topic"
    autonomyLevel := 1
    riskTier := "low"
    title := ""
    decisionQuestion := ""
    contextSummary := ""
    options := []
    recommendedOptionId := "a"
    recommendationRationale := ""
    evidenceRefs := []
    novelStance := false
    producedBy := []
    createdAt := ⟨0, true⟩
    expiresAt := (⟨0, true⟩ : Moment).plusHours 48
    defaultOnTimeout := none
    budgetClass := "digest"
    registerRows := []
    lineage := none }
  created := rfl
  expires := rfl

/-- Teams is not configured. -/
def unposted : DigestSettings := ⟨twoMatrix, none, fun _ => ""⟩

/-- Every statement succeeds, and the query finds these rows. -/
def answering (rows : List CardRow) : ∀ o : DigestOp, Reply DigestError o.Res
  | .listPendingOptionCards _ => .ok rows
  | .utcNow => .ok (0 : Int)
  | .getOrCreateCampaign _ => .ok "campaign"
  | .createAgentRun _ => .ok "run"
  | .postDigest .. => .ok true
  | .validateFunctionOutput _ | .updateAgentRun .. | .setResultRef .. | .transition _
  | .advanceDependents _ => .ok ()

/-- The card is created, and the digest of the week is made. -/
def firstWeek : List (Act DigestOp DigestOp.Res DigestError Nat String InboxMove) :=
  [.env (.createOptionCard undecided), .enter 0 "first"] ++
    List.replicate 9 (.step 0 (answering [undecided]))

/-- A week later, that of the next. -/
def secondWeek : List (Act DigestOp DigestOp.Res DigestError Nat String InboxMove) :=
  firstWeek ++ [.env (.elapse (7 * 86400000000)), .enter 1 "second"] ++
    List.replicate 9 (.step 1 (answering []))

def ended (acts : List (Act DigestOp DigestOp.Res DigestError Nat String InboxMove)) :
    DigestState Nat :=
  acts.foldl (digests unposted Nat).recording.exec (.idle ⟨.new 0, [], []⟩)

/-- The cards that a statement concludes. -/
def DigestOp.concluded : DigestOp → List String
  | .setResultRef _ ref => ref.output.timeoutDefaultsApplied ++ ref.output.expiredUnresolved
  | _ => []

theorem mem_concluded {ι : Type} {log : List (DigestStatement ι)} {cardId : String}
    (h : Concluded log cardId) : cardId ∈ log.flatMap fun e => e.op.concluded := by
  obtain ⟨run, hrun, hplaced⟩ := h
  obtain ⟨pre, hresult⟩ := hrun.result
  exact List.mem_flatMap.2 ⟨_, hresult, List.mem_append.2 hplaced⟩

/-- The card expires between the two runs.  The second does not see it, and nobody decides it. -/
theorem expired_between : ∃ (c : DigestState Nat) (run : DigestRun Nat),
    DigestRuns unposted Sys.free 0 c ∧ run.Recorded c.shared.log ∧
      run.inbox.cards = [undecided] ∧ run.inbox.decided = [] ∧ run.fetched = [] ∧
      ¬ Concluded run.earlier undecided.cardId ∧ ¬ run.Lawful := by
  have hrun : ∃ run : DigestRun Nat, run.Recorded (ended secondWeek).shared.log ∧
      run.inbox.cards = [undecided] ∧ run.inbox.decided = [] ∧ run.fetched = [] ∧
      run.earlier.flatMap (fun e => e.op.concluded) = [] := by
    refine ⟨⟨1, _, _, _, _, _, _⟩, ⟨⟨[_, _, _, _, _, _], rfl⟩,
      ⟨_, List.mem_append_right [_, _, _, _, _] List.mem_cons_self⟩,
      ⟨_, List.mem_append_right [_, _] List.mem_cons_self⟩⟩, rfl, rfl, rfl, rfl⟩
  obtain ⟨run, hrecorded, hcards, hdecided, hfetched, hconcluded⟩ := hrun
  have hopen : ¬ Concluded run.earlier undecided.cardId := by
    intro h
    have hmem := mem_concluded h
    rw [hconcluded] at hmem
    exact List.not_mem_nil hmem
  refine ⟨ended secondWeek, run, Sys.Reach.init.foldl_free _, hrecorded, hcards, hdecided, hfetched,
    hopen, fun hlawful => ?_⟩
  have hseen := (hlawful undecided (by rw [hcards]; exact List.mem_cons_self)
    (by rw [hdecided]; exact List.not_mem_nil) hopen).1
  rw [hfetched] at hseen
  exact List.not_mem_nil hseen

/-- The first run still finds it. -/
theorem firstWeek_lawful : ∃ run : DigestRun Nat, run.Recorded (ended firstWeek).shared.log ∧
    run.inbox.pending = [undecided] ∧ run.fetched = [undecided] ∧ run.Lawful := by
  have hrun : ∃ run : DigestRun Nat, run.Recorded (ended firstWeek).shared.log ∧
      run.inbox.cards = [undecided] ∧ run.inbox.pending = [undecided] ∧
      run.fetched = [undecided] := by
    refine ⟨⟨0, _, _, _, _, _, _⟩, ⟨⟨[_, _, _, _, _, _], rfl⟩,
      ⟨_, List.mem_append_right [_, _, _, _, _] List.mem_cons_self⟩,
      ⟨_, List.mem_append_right [_, _] List.mem_cons_self⟩⟩, rfl, rfl, rfl⟩
  obtain ⟨run, hrecorded, hcards, hpending, hfetched⟩ := hrun
  refine ⟨run, hrecorded, hpending, hfetched,
    (lawful_iff (Sys.Reach.init.foldl_free firstWeek) hrecorded).2 ⟨fun row hrow _ _ => ?_, ?_⟩⟩
  · rw [hcards, ← hpending] at hrow
    exact (mem_pending.1 hrow).2.1
  · rw [hpending]
    decide

end CanvasOS.OptionsInbox
