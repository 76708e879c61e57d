/-
  The approval inbox under single statements.

  1. `InboxChange` — the five things an executed statement can do to the inbox, with their guards:
     nothing, a new pending row, a consumed link, an expired row, a back-linked decision.
  2. `WellFormed` — what every statement keeps, whatever routine it belongs to: ids and link tokens
     are distinct, no row is newer than the clock, and a row whose link is open is undecided.
-/
import CanvasOS.Gatekeeper.Handlers

namespace CanvasOS.Gatekeeper

open Interleave Python Governance

/-- A consumed row. -/
def InboxRow.consumed (r : InboxRow) (status : InboxStatus) (decidedBy : String) (now : Nat) :
    InboxRow :=
  { r with status := status, decidedBy := some decidedBy, decidedAt := some now,
           linkConsumedAt := some now }

/-- The statements that write to the inbox. -/
def GkOp.writesInbox : GkOp → Bool
  | .insertInbox _ => true
  | .consumeLink _ _ _ => true
  | .markExpired _ => true
  | .backLink _ _ => true
  | _ => false

/-- What a statement does to the inbox. -/
inductive InboxChange (db t : Db) : GkOp → Prop where
  | same (o : GkOp) (ho : o.writesInbox = false) (h : t.inbox = db.inbox) : InboxChange db t o
  | inserted (n : NewInboxRow) (h : t.inbox = n.toRow db.nextId db.now :: db.inbox)
      (hid : t.nextId = db.nextId + 1) (hfresh : ∀ r ∈ db.inbox, r.linkToken ≠ n.linkToken) :
      InboxChange db t (.insertInbox n)
  | consumed (id : Nat) (choice : Choice) (by_ : String)
      (h : t.inbox = (Table.update db.inbox (fun r => r.id == id && r.linkConsumedAt == none)
        (·.consumed choice.status by_ db.now)).2) : InboxChange db t (.consumeLink id choice by_)
  | expired (id : Nat)
      (h : t.inbox = (Table.update db.inbox (fun r => r.id == id && r.status == .pending)
        fun r => { r with status := .expired }).2) : InboxChange db t (.markExpired id)
  | linked (id decision : Nat)
      (h : t.inbox = (Table.update db.inbox (fun r => r.id == id)
        fun r => { r with gateDecisionId := some decision }).2) :
      InboxChange db t (.backLink id decision)

/-- The counter only grows, the clock and the switches stand still. -/
structure Ticks (db t : Db) : Prop where
  now : t.now = db.now
  nextId : db.nextId ≤ t.nextId
  switches : t.killSwitches = db.killSwitches

theorem exec_inbox {o : GkOp} {a b : o.Res} {db t : Db} (h : exec o a db = some (b, t)) :
    InboxChange db t o ∧ Ticks db t := by
  cases o with
  | insertInbox n =>
    simp only [exec] at h
    split at h
    · cases h
    · rename_i hfresh
      obtain ⟨-, rfl⟩ := Prod.mk.inj (Option.some.inj h)
      exact ⟨.inserted n rfl rfl fun r hr heq => hfresh (List.any_eq_true.2 ⟨r, hr, by simp [heq]⟩),
        rfl, Nat.le_succ _, rfl⟩
  | consumeLink id choice by_ =>
    obtain ⟨-, rfl⟩ := Prod.mk.inj (Option.some.inj h)
    exact ⟨.consumed id choice by_ rfl, rfl, Nat.le_refl _, rfl⟩
  | markExpired id =>
    obtain ⟨-, rfl⟩ := Prod.mk.inj (Option.some.inj h)
    exact ⟨.expired id rfl, rfl, Nat.le_refl _, rfl⟩
  | backLink id decision =>
    obtain ⟨-, rfl⟩ := Prod.mk.inj (Option.some.inj h)
    exact ⟨.linked id decision rfl, rfl, Nat.le_refl _, rfl⟩
  | insertGateDecision | issueGateToken =>
    obtain ⟨-, rfl⟩ := Prod.mk.inj (Option.some.inj h)
    exact ⟨.same _ rfl rfl, rfl, Nat.le_succ _, rfl⟩
  | selectActiveSwitches | selectLatestApproved | selectLatestAnyStatus =>
    simp only [exec] at h
    split at h
    · obtain ⟨-, rfl⟩ := Prod.mk.inj (Option.some.inj h)
      exact ⟨.same _ rfl rfl, rfl, Nat.le_refl _, rfl⟩
    · cases h
  | utcNow | generateLinkToken | teamsWebhookUrl | postAdaptiveCard | selectByToken
  | insertAction =>
    obtain ⟨-, rfl⟩ := Prod.mk.inj (Option.some.inj h)
    exact ⟨.same _ rfl rfl, rfl, Nat.le_refl _, rfl⟩

/-- The row with this id, if any, is the same on both sides up to what the statement may change. -/
structure WellFormed (db : Db) : Prop where
  ids : (db.inbox.map (·.id)).Nodup
  fresh : ∀ r ∈ db.inbox, r.id < db.nextId
  tokens : (db.inbox.map (·.linkToken)).Nodup
  created : ∀ r ∈ db.inbox, r.createdAt ≤ db.now
  undecided : ∀ r ∈ db.inbox, r.linkConsumedAt = none → r.status = .pending ∨ r.status = .expired

theorem WellFormed.empty : WellFormed Db.empty :=
  ⟨List.nodup_nil, fun _ h => absurd h List.not_mem_nil, List.nodup_nil,
    fun _ h => absurd h List.not_mem_nil, fun _ h => absurd h List.not_mem_nil⟩

/-- An id belongs to one row. -/
theorem WellFormed.eq_of_id {db : Db} (hw : WellFormed db) {r s : InboxRow} (hr : r ∈ db.inbox)
    (hs : s ∈ db.inbox) (h : r.id = s.id) : r = s :=
  List.inj_on_of_nodup_map hw.ids hr hs h

/-- A link token belongs to one row. -/
theorem WellFormed.eq_of_token {db : Db} (hw : WellFormed db) {r s : InboxRow} (hr : r ∈ db.inbox)
    (hs : s ∈ db.inbox) (h : r.linkToken = s.linkToken) : r = s :=
  List.inj_on_of_nodup_map hw.tokens hr hs h

/-- An update that keeps ids, tokens and creation times, and leaves no open row decided. -/
theorem WellFormed.update {db t : Db} (hw : WellFormed db) (ht : Ticks db t) {p : InboxRow → Bool}
    {f : InboxRow → InboxRow} (hin : t.inbox = (Table.update db.inbox p f).2)
    (hid : ∀ r, (f r).id = r.id) (htok : ∀ r, (f r).linkToken = r.linkToken)
    (hcr : ∀ r, (f r).createdAt = r.createdAt)
    (hopen : ∀ r ∈ db.inbox, p r = true → (f r).linkConsumedAt = none →
      (f r).status = .pending ∨ (f r).status = .expired) : WellFormed t := by
  refine ⟨?_, ?_, ?_, ?_, ?_⟩
  · rw [hin, Table.map_update db.inbox p f _ hid]
    exact hw.ids
  · intro r hr
    rcases Table.mem_update hin hr with ⟨r₀, hr₀, -, rfl⟩ | ⟨hr₀, -⟩
    · rw [hid]
      exact Nat.lt_of_lt_of_le (hw.fresh r₀ hr₀) ht.nextId
    · exact Nat.lt_of_lt_of_le (hw.fresh r hr₀) ht.nextId
  · rw [hin, Table.map_update db.inbox p f _ htok]
    exact hw.tokens
  · intro r hr
    rw [ht.now]
    rcases Table.mem_update hin hr with ⟨r₀, hr₀, -, rfl⟩ | ⟨hr₀, -⟩
    · rw [hcr]
      exact hw.created r₀ hr₀
    · exact hw.created r hr₀
  · intro r hr hnone
    rcases Table.mem_update hin hr with ⟨r₀, hr₀, hp, rfl⟩ | ⟨hr₀, -⟩
    · exact hopen r₀ hr₀ hp hnone
    · exact hw.undecided r hr₀ hnone

/-- Every statement keeps the inbox well formed. -/
theorem WellFormed.exec {o : GkOp} {a b : o.Res} {db t : Db} (hw : WellFormed db)
    (h : exec o a db = some (b, t)) : WellFormed t := by
  obtain ⟨hc, ht⟩ := exec_inbox h
  cases hc with
  | same _ _ hin =>
    exact ⟨hin ▸ hw.ids, fun r hr => Nat.lt_of_lt_of_le (hw.fresh r (hin ▸ hr)) ht.nextId,
      hin ▸ hw.tokens, fun r hr => ht.now ▸ hw.created r (hin ▸ hr),
      fun r hr => hw.undecided r (hin ▸ hr)⟩
  | inserted n hin hid hfresh =>
    refine ⟨?_, ?_, ?_, ?_, ?_⟩
    · rw [hin, List.map_cons, List.nodup_cons]
      refine ⟨fun hmem => ?_, hw.ids⟩
      obtain ⟨r, hr, heq⟩ := List.mem_map.1 hmem
      exact Nat.lt_irrefl _ ((show r.id = db.nextId from heq) ▸ hw.fresh r hr)
    · intro r hr
      rw [hid]
      rcases List.mem_cons.1 (hin ▸ hr) with rfl | hr
      · exact Nat.lt_succ_self _
      · exact Nat.lt_succ_of_lt (hw.fresh r hr)
    · rw [hin, List.map_cons, List.nodup_cons]
      refine ⟨fun hmem => ?_, hw.tokens⟩
      obtain ⟨r, hr, heq⟩ := List.mem_map.1 hmem
      exact hfresh r hr heq
    · intro r hr
      rw [ht.now]
      rcases List.mem_cons.1 (hin ▸ hr) with rfl | hr
      · exact Nat.le_refl _
      · exact hw.created r hr
    · intro r hr hnone
      rcases List.mem_cons.1 (hin ▸ hr) with rfl | hr
      · exact .inl rfl
      · exact hw.undecided r hr hnone
  | consumed id choice by_ hin =>
    exact hw.update ht hin (fun _ => rfl) (fun _ => rfl) (fun _ => rfl) fun r _ _ hnone => by
      cases hnone
  | expired id hin =>
    exact hw.update ht hin (fun _ => rfl) (fun _ => rfl) (fun _ => rfl) fun r _ _ _ => .inr rfl
  | linked id decision hin =>
    exact hw.update ht hin (fun _ => rfl) (fun _ => rfl) (fun _ => rfl)
      fun r hr _ hnone => hw.undecided r hr hnone

/-- So does what happens outside. -/
theorem WellFormed.move {m : GkMove} {db t : Db} (hw : WellFormed db)
    (h : m.apply db = some t) : WellFormed t := by
  cases m with
  | tick n =>
    obtain rfl := Option.some.inj h
    exact ⟨hw.ids, hw.fresh, hw.tokens, fun r hr => Nat.le_add_right_of_le (hw.created r hr),
      hw.undecided⟩
  | switches rows =>
    obtain rfl := Option.some.inj h
    exact ⟨hw.ids, hw.fresh, hw.tokens, hw.created, hw.undecided⟩

/-! ## Concrete runs -/

/-- Some answer for every statement: the tables determine most of them anyway. -/
def GkOp.anyAnswer : (o : GkOp) → o.Res
  | .selectActiveSwitches _ => none
  | .insertGateDecision _ _ _ _ => ⟨0, "", "", .escalated, ""⟩
  | .selectLatestApproved _ => none
  | .selectLatestAnyStatus _ => none
  | .utcNow => 0
  | .generateLinkToken => 7
  | .insertInbox n => n.toRow 0 0
  | .teamsWebhookUrl => none
  | .postAdaptiveCard _ _ => ()
  | .issueGateToken _ _ _ _ => ⟨0, 0, "", "", ""⟩
  | .selectByToken _ => none
  | .consumeLink _ _ _ => none
  | .markExpired _ => none
  | .backLink _ _ => ()
  | .insertAction _ => ()

/-- The next `n` statements of thread `i`, each answered as the tables have it. -/
def steps (i n : Nat) : List GkAct := List.replicate n (.step i fun o => .ok o.anyAnswer)

/-- One request of level 1, and the checks and clicks for it. -/
def oneRequestSettings : Settings :=
  ⟨⟨1, 0, [⟨"schedule-social", "publish", 1, none⟩], by decide⟩, 86400, some⟩

def oneRequest : GateCheckRequest :=
  ⟨"run-1", "schedule-social", "publish", some "hash", none, none, none, none⟩

def oneTriple : Triple := ⟨"run-1", "schedule-social", some "hash"⟩

/-- A check that raises a row with this link token. -/
def raising (i linkToken : Nat) : List GkAct :=
  .enter i (.gateCheck oneRequest) :: List.replicate 7 (.step i fun o => .ok (match o with
    | .generateLinkToken => linkToken
    | o => o.anyAnswer))

/-- A click of this user, up to its `n`-th statement. -/
def clicking (i linkToken : Nat) (choice : Choice) (user : String) (n : Nat) : List GkAct :=
  .enter i (.approvalAction ⟨linkToken, choice, some ⟨user, none⟩⟩) :: steps i n

/-- Where a run of these acts ends. -/
def endOf (run : List GkAct) : GkConfig :=
  run.foldl (gatekeeper oneRequestSettings).exec GkConfig.start

theorem endOf_reach (run : List GkAct) :
    (gatekeeper oneRequestSettings).Reach Sys.free GkConfig.start (endOf run) :=
  Sys.Reach.foldl_free run .init

end CanvasOS.Gatekeeper
