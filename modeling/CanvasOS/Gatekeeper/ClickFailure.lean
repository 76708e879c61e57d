/-
  A click under failures.

  The four writes of a deciding click (consume the link, insert the decision, link it back, append the
  audit row) commit one by one.  A statement that fails, or whose answer is lost, ends the handler, and
  what has committed stays.

  1. `Fate` — what becomes of each statement of a click; `afterClick` runs the click under a list of
     them, and only the committed prefix matters (`afterClick_tables`).
  2. `Complete`, `Atomic` — a decided row with its decision and audit row; the click all or nothing.
  3. `click_atomic` — from a consistent state, a click is atomic exactly when it is not cut short
     between its first and its last write.  `Served.consistent` — gate checks and such clicks only lead
     to consistent states.
-/
import CanvasOS.Gatekeeper.LinkLifecycle
import Mathlib.Algebra.Ring.Nat

namespace CanvasOS.Gatekeeper

open Interleave Python Governance

/-! ## A click alone -/

/-- What becomes of one statement of a click. -/
inductive Fate where
  /-- it commits, so many seconds after the statement before -/
  | commits (delay : Nat)
  /-- it commits, but the connection is lost before the answer arrives -/
  | lost (delay : Nat) (e : Exc)
  | fails (e : Exc)

def Fate.acts : Fate → List GkAct
  | .commits delay => [.env (.tick delay), .step 0 fun o => .ok o.anyAnswer]
  | .lost delay e => [.env (.tick delay), .step 0 fun o => .lost o.anyAnswer e]
  | .fails e => [.step 0 fun _ => .failed e]

/-- The tables after the click, its statements meeting these fates one after the other. -/
def afterClick (S : Settings) (db : Db) (click : Click) (fates : List Fate) : Db :=
  ((.enter 0 (.approvalAction click) :: fates.flatMap Fate.acts).foldl (gatekeeper S).exec
    (.idle ⟨db, [], []⟩)).shared.cur

/-- The delays of the statements that commit: a failure ends the handler. -/
def committed : List Fate → List Nat
  | [] => []
  | .commits delay :: fates => delay :: committed fates
  | .lost delay _ :: _ => [delay]
  | .fails _ :: _ => []

def Db.wait (db : Db) (delay : Nat) : Db := { db with now := db.now + delay }

/-- The tables after the first statements of a routine. -/
def commit {α : Type} : List Nat → Gk α → Db → Db
  | delay :: delays, .op o k, db =>
    match exec o o.anyAnswer (db.wait delay) with
    | some (b, t) => commit delays (k (.ok b)) t
    | none => db.wait delay
  | _, _, db => db

/-- The same tables, at possibly different times. -/
structure SameTables (db t : Db) : Prop where
  inbox : t.inbox = db.inbox
  decisions : t.decisions = db.decisions
  actions : t.actions = db.actions
  nextId : t.nextId = db.nextId

/-- Every statement of the routine executes in every state, and its exception ends the routine. -/
def Straight {α : Type} : Gk α → Prop
  | .pure _ => True
  | .throw _ => True
  | .op o k => (∀ db, (exec o o.anyAnswer db).isSome = true) ∧ (∀ e, k (.error e) = .throw e) ∧
    ∀ b, Straight (k (.ok b))

theorem straight_call {α : Type} {o : GkOp} {f : o.Res → Gk α}
    (ho : ∀ db, (exec o o.anyAnswer db).isSome = true) (hf : ∀ b, Straight (f b)) :
    Straight ((call o).bind f) :=
  ⟨ho, fun _ => rfl, hf⟩

theorem approvalAction_straight (click : Click) : Straight (approvalAction click) := by
  unfold approvalAction
  split
  · trivial
  refine straight_call (fun _ => rfl) fun approval => ?_
  cases approval with
  | none => trivial
  | some r =>
    simp only
    split
    · exact straight_call (fun _ => rfl) fun _ => trivial
    refine straight_call (fun _ => rfl) fun now => ?_
    split
    · refine straight_call (fun _ => rfl) fun _ => ?_
      exact straight_call (fun _ => rfl) fun _ => trivial
    refine straight_call (fun _ => rfl) fun consumed => ?_
    cases consumed with
    | none => exact straight_call (fun _ => rfl) fun _ => trivial
    | some _ =>
      refine straight_call (fun _ => rfl) fun decision => ?_
      refine straight_call (fun _ => rfl) fun _ => ?_
      exact straight_call (fun _ => rfl) fun _ => trivial

theorem SameTables.refl (db : Db) : SameTables db db := ⟨rfl, rfl, rfl, rfl⟩

theorem SameTables.trans {s t u : Db} (h : SameTables s t) (h' : SameTables t u) : SameTables s u :=
  ⟨h'.inbox.trans h.inbox, h'.decisions.trans h.decisions, h'.actions.trans h.actions,
    h'.nextId.trans h.nextId⟩

/-- Renaming the result changes nothing of what commits. -/
theorem commit_bind {α β : Type} (f : α → β) (delays : List Nat) (p : Gk α) (db : Db) :
    commit delays (p.bind fun x => .pure (f x)) db = commit delays p db := by
  induction delays generalizing p db with
  | nil => cases p <;> rfl
  | cons delay delays ih =>
    cases p with
    | pure a => rfl
    | throw e => rfl
    | op o k =>
      simp only [Prog.op_bind, commit]
      cases exec o o.anyAnswer (db.wait delay) with
      | none => rfl
      | some x => exact ih _ _

theorem straight_bind {α β : Type} {p : Gk α} {f : α → Gk β} (hp : Straight p)
    (hf : ∀ a, Straight (f a)) : Straight (p.bind f) := by
  induction p with
  | pure a => exact hf a
  | throw e => trivial
  | op o k ih =>
    obtain ⟨ho, he, hk⟩ := hp
    refine ⟨ho, fun e => ?_, fun b => ih _ (hk b)⟩
    show (k (.error e)).bind f = _
    rw [he]
    rfl

section Alone

variable {S : Settings} {r : GkRequest}

/-- A handler that has ended does nothing more, whatever the fates. -/
theorem foldl_ended {c : GkConfig} {p : Gk GkResponse} (hc : c.thread 0 = some (r, some p))
    (hp : ∀ o k, p ≠ .op o k) (fates : List Fate) :
    SameTables c.shared.cur
      ((fates.flatMap Fate.acts).foldl (gatekeeper S).exec c).shared.cur := by
  have hstep : ∀ (c : GkConfig) f, c.thread 0 = some (r, some p) →
      (gatekeeper S).exec c (.step 0 f) = c := by
    intro c f hc
    simp only [Sys.exec]
    rw [hc]
    cases p with
    | op o k => exact absurd rfl (hp o k)
    | pure a => rfl
    | throw e => rfl
  induction fates generalizing c with
  | nil => exact .refl _
  | cons fate fates ih =>
    rw [List.flatMap_cons, List.foldl_append]
    cases fate with
    | fails e =>
      simp only [Fate.acts, List.foldl_cons, List.foldl_nil]
      rw [hstep c _ hc]
      exact ih hc
    | commits delay | lost delay e =>
      simp only [Fate.acts, List.foldl_cons, List.foldl_nil]
      have htick : ((gatekeeper S).exec c (.env (.tick delay))).thread 0 = some (r, some p) := hc
      rw [hstep _ _ htick]
      have hsame : SameTables c.shared.cur
          ((gatekeeper S).exec c (.env (.tick delay))).shared.cur := ⟨rfl, rfl, rfl, rfl⟩
      exact hsame.trans (ih htick)

/-- Time passes, and the next statement commits; what the handler sees of it is `out`. -/
theorem exec_commits {c : GkConfig} {o : GkOp} {k : Except Exc o.Res → Gk GkResponse} {b : o.Res}
    {t : Db} {delay : Nat} {f : ∀ o : GkOp, Reply Exc o.Res} (out : o.Res → Except Exc o.Res)
    (hc : c.thread 0 = some (r, some (.op o k)))
    (hx : exec o o.anyAnswer (c.shared.cur.wait delay) = some (b, t))
    (hf : ∀ h, (f o).apply ((gatekeeper S).run 0 o) h =
      ((gatekeeper S).run 0 o o.anyAnswer h).map fun x => (out x.1, x.2)) :
    ∃ c' : GkConfig, (gatekeeper S).exec ((gatekeeper S).exec c (.env (.tick delay))) (.step 0 f) = c' ∧
      c'.shared.cur = t ∧ c'.thread 0 = some (r, some (k (out b))) := by
  let c₁ : GkConfig := (gatekeeper S).exec c (.env (.tick delay))
  let h : GkHistory := ⟨t, c.shared.arrived, ⟨0, o, b, c.shared.cur.wait delay⟩ :: c.shared.log⟩
  have hrun : (gatekeeper S).run 0 o o.anyAnswer c₁.shared = some (b, h) := by
    show (exec o o.anyAnswer (c.shared.cur.wait delay)).map _ = _
    rw [hx]
    rfl
  have hs : (f o).apply ((gatekeeper S).run 0 o) c₁.shared = some (out b, h) := by
    rw [hf, hrun]
    rfl
  have hc₁ : c₁.thread 0 = some (r, some (.op o k)) := hc
  exact ⟨_, Sys.exec_step hc₁ hs, rfl, Config.put_thread.2 (.inl ⟨rfl, rfl, rfl⟩)⟩

/-- Only the committed prefix of a straight handler matters. -/
theorem foldl_acts {c : GkConfig} {p : Gk GkResponse} (hc : c.thread 0 = some (r, some p))
    (hp : Straight p) (fates : List Fate) :
    SameTables (commit (committed fates) p c.shared.cur)
      ((fates.flatMap Fate.acts).foldl (gatekeeper S).exec c).shared.cur := by
  induction fates generalizing c p with
  | nil => cases p <;> exact .refl _
  | cons fate fates ih =>
    cases p with
    | pure a =>
      have hended : ∀ o k, (Prog.pure a : Gk GkResponse) ≠ .op o k := fun _ _ h => nomatch h
      cases fate <;> exact foldl_ended hc hended _
    | throw e =>
      have hended : ∀ o k, (Prog.throw e : Gk GkResponse) ≠ .op o k := fun _ _ h => nomatch h
      cases fate <;> exact foldl_ended hc hended _
    | op o k =>
      obtain ⟨ho, he, hk⟩ := hp
      -- an exception ends the handler
      have hended : ∀ e o' k', k (.error e) ≠ .op o' k' := fun e _ _ h => by rw [he] at h; cases h
      rw [List.flatMap_cons, List.foldl_append]
      cases fate with
      | fails e =>
        have hexec : (gatekeeper S).exec c (.step 0 fun _ => .failed e) =
            c.put c.shared 0 r (some (k (.error e))) := Sys.exec_step hc rfl
        simp only [Fate.acts, List.foldl_cons, List.foldl_nil]
        rw [hexec]
        exact foldl_ended (Config.put_thread.2 (.inl ⟨rfl, rfl, rfl⟩)) (hended e) _
      | commits delay =>
        obtain ⟨⟨b, t⟩, hx⟩ := Option.isSome_iff_exists.1 (ho (c.shared.cur.wait delay))
        obtain ⟨c', hexec, rfl, hc'⟩ := exec_commits (S := S)
          (f := fun o => .ok o.anyAnswer) .ok hc hx fun _ => rfl
        simp only [Fate.acts, List.foldl_cons, List.foldl_nil, committed, commit, hx]
        rw [hexec]
        exact ih hc' (hk b)
      | lost delay e =>
        obtain ⟨⟨b, t⟩, hx⟩ := Option.isSome_iff_exists.1 (ho (c.shared.cur.wait delay))
        obtain ⟨c', hexec, rfl, hc'⟩ := exec_commits (S := S)
          (f := fun o => .lost o.anyAnswer e) (fun _ => .error e) hc hx fun _ => rfl
        simp only [Fate.acts, List.foldl_cons, List.foldl_nil, committed, commit, hx]
        rw [hexec]
        have hsame := foldl_ended (S := S) hc' (hended e) fates
        cases hk' : k (.ok b) <;> exact hsame

end Alone

/-- What the click leaves behind is what commits of it. -/
theorem afterClick_tables (S : Settings) (db : Db) (click : Click) (fates : List Fate) :
    SameTables (commit (committed fates) (approvalAction click) db)
      (afterClick S db click fates) := by
  have hstraight : Straight (handle S (.approvalAction click)) :=
    straight_bind (approvalAction_straight click) fun _ => trivial
  have henter : ((gatekeeper S).exec (.idle ⟨db, [], []⟩)
      (.enter 0 (.approvalAction click))).thread 0 =
      some (.approvalAction click, some (handle S (.approvalAction click))) := rfl
  have h := foldl_acts (S := S) henter hstraight fates
  rw [handle, commit_bind] at h
  exact h

/-! ## What commits of each statement -/

section Commit

variable {α : Type} {db : Db} {delay : Nat} {delays : List Nat}

theorem commit_nil (p : Gk α) : commit [] p db = db := by cases p <;> rfl

theorem commit_pure (a : α) : commit delays (pure a : Gk α) db = db := by
  cases delays <;> rfl

theorem commit_throw (e : Exc) : commit delays (throw e : Gk α) db = db := by
  cases delays <;> rfl

theorem commit_selectByToken (linkToken : Nat) (f : Option InboxRow → Gk α) :
    commit (delay :: delays) ((call (.selectByToken linkToken)).bind f) db =
      commit delays (f (db.inbox.find? fun r => r.linkToken == linkToken)) (db.wait delay) := rfl

theorem commit_utcNow (f : Nat → Gk α) :
    commit (delay :: delays) ((call .utcNow).bind f) db =
      commit delays (f (db.now + delay)) (db.wait delay) := rfl

theorem commit_markExpired (id : Nat) (f : Option InboxRow → Gk α) :
    commit (delay :: delays) ((call (.markExpired id)).bind f) db =
      commit delays (f (markExpired db.inbox id).1)
        { db.wait delay with inbox := (markExpired db.inbox id).2 } := rfl

theorem commit_consumeLink (id : Nat) (choice : Choice) (by_ : String)
    (f : Option InboxRow → Gk α) :
    commit (delay :: delays) ((call (.consumeLink id choice by_)).bind f) db =
      commit delays (f (consumeLink db.inbox id choice.status by_ (db.now + delay)).1)
        { db.wait delay with
          inbox := (consumeLink db.inbox id choice.status by_ (db.now + delay)).2 } := rfl

theorem commit_insertGateDecision (agentRunId decidedBy reason : String)
    (o : DecisionOutcome) (f : Decision → Gk α) :
    commit (delay :: delays) ((call (.insertGateDecision agentRunId decidedBy o reason)).bind f) db =
      commit delays (f ⟨db.nextId, agentRunId, decidedBy, o, reason⟩)
        { db.wait delay with
          decisions := ⟨db.nextId, agentRunId, decidedBy, o, reason⟩ :: db.decisions,
          nextId := db.nextId + 1 } := rfl

theorem commit_backLink (id decision : Nat) (f : Unit → Gk α) :
    commit (delay :: delays) ((call (.backLink id decision)).bind f) db =
      commit delays (f ()) { db.wait delay with
        inbox := (Table.update db.inbox (fun r => r.id == id) fun r =>
          { r with gateDecisionId := some decision }).2 } := rfl

theorem commit_recordApprovalAction (id : Nat) (decision : Option Nat) (o : ActionOutcome)
    (reason : String) (p : Principal) (f : Unit → Gk α) :
    commit (delay :: delays) ((recordApprovalAction id decision o reason p).bind f) db =
      commit delays (f ()) { db.wait delay with
        actions := ⟨id, decision, o, reason, p.id, p.name⟩ :: db.actions } := rfl

end Commit

/-! ## All or nothing -/

instance (r : InboxRow) : Decidable r.Decided := inferInstanceAs (Decidable (_ ∨ _))

/-- A decided row with the human decision it points at, and the audit row of the same principal. -/
def Complete (db : Db) (r : InboxRow) : Prop :=
  ∃ choice : Choice, ∃ d ∈ db.decisions, ∃ a ∈ db.actions, r.status = choice.status ∧
    r.gateDecisionId = some d.id ∧ d.outcome = choice.decision ∧ r.decidedBy = some d.decidedBy ∧
    a.approvalInboxId = r.id ∧ a.gateDecisionId = some d.id ∧ a.outcome = choice.outcome ∧
    r.decidedBy = some (Principal.decidedBy ⟨a.principalId, a.principalName⟩)

/-- Every decided row is complete; and the row of the link is decided, or as it was with its link
    open. -/
def Atomic (db t : Db) (click : Click) : Prop :=
  (∀ r ∈ t.inbox, r.Decided → Complete t r) ∧
  ∀ r ∈ db.inbox, r.linkToken = click.linkToken →
    ∃ r' ∈ t.inbox, r'.id = r.id ∧ (r'.Decided ∨ (r' = r ∧ r'.linkConsumedAt = none))

/-- Decided rows are the ones whose link is consumed, they are complete, and the audit has a decision
    for no other row. -/
structure Consistent (db : Db) : Prop where
  wellFormed : WellFormed db
  decided : ∀ r ∈ db.inbox, r.linkConsumedAt ≠ none → r.Decided
  complete : ∀ r ∈ db.inbox, r.Decided → Complete db r
  actions : ∀ a ∈ db.actions, a.outcome.decides → ∀ r ∈ db.inbox, r.id = a.approvalInboxId → r.Decided
  fresh : ∀ a ∈ db.actions, a.approvalInboxId < db.nextId

/-- The row a signed-in click finds, when its link is open. -/
def target (db : Db) (click : Click) : Option (Principal × InboxRow) :=
  match click.principal, db.inbox.find? fun r => r.linkToken == click.linkToken with
  | some p, some r => if r.linkConsumedAt = none then some (p, r) else none
  | _, _ => none

/-- When the click reads the clock. -/
def readTime (db : Db) (delays : List Nat) : Nat := db.now + (delays.take 2).sum

/-- The click consumes its link and does not get as far as its audit row: of its statements (read,
    clock, consume, decision, back-link, audit) three to five commit. -/
def CutShort (db : Db) (click : Click) (delays : List Nat) : Prop :=
  ∃ p r, target db click = some (p, r) ∧ readTime db delays < r.expiresAt ∧
    3 ≤ delays.length ∧ delays.length < 6

/-- The click comes too late for a pending row, and marks it expired. -/
def MarksExpired (db : Db) (click : Click) (delays : List Nat) : Prop :=
  ∃ p r, target db click = some (p, r) ∧ r.expiresAt ≤ readTime db delays ∧
    r.status = .pending ∧ 3 ≤ delays.length

/-! ## The branches of the click -/

section Branches

variable {db : Db} {click : Click} {p : Principal} {r : InboxRow} {delays : List Nat}

theorem target_some (h : target db click = some (p, r)) : click.principal = some p ∧
    (db.inbox.find? fun r => r.linkToken == click.linkToken) = some r ∧ r.linkConsumedAt = none := by
  unfold target at h
  split at h
  · rename_i p' r' hp hfind
    split at h
    · obtain ⟨rfl, rfl⟩ := Prod.mk.inj (Option.some.inj h)
      exact ⟨hp, hfind, ‹_›⟩
    · cases h
  · cases h

/-- What a click writes that decides nothing: at most an audit row that says so. -/
structure Undecided (db t : Db) : Prop where
  decisions : t.decisions = db.decisions
  nextId : t.nextId = db.nextId
  kept : ∀ a ∈ db.actions, a ∈ t.actions
  added : ∀ a ∈ t.actions, a ∈ db.actions ∨
    (¬ a.outcome.decides ∧ ∃ r ∈ db.inbox, a.approvalInboxId = r.id)

theorem Undecided.same {t : Db} (hd : t.decisions = db.decisions) (hn : t.nextId = db.nextId)
    (ha : t.actions = db.actions) : Undecided db t :=
  ⟨hd, hn, fun _ h => ha ▸ h, fun _ h => .inl (ha ▸ h)⟩

theorem Undecided.cons {t : Db} {a : ActionRow} (hd : t.decisions = db.decisions)
    (hn : t.nextId = db.nextId) (ha : t.actions = a :: db.actions) (ho : ¬ a.outcome.decides)
    (hr : ∃ r ∈ db.inbox, a.approvalInboxId = r.id) : Undecided db t := by
  refine ⟨hd, hn, fun b hb => ha ▸ List.mem_cons_of_mem _ hb, fun b hb => ?_⟩
  rcases List.mem_cons.1 (ha ▸ hb) with rfl | hb
  · exact .inr ⟨ho, hr⟩
  · exact .inl hb

theorem not_decides_used : ¬ ActionOutcome.decides .linkAlreadyUsed := fun h => by
  rcases h with h | h <;> cases h

theorem not_decides_expired : ¬ ActionOutcome.decides .linkExpired := fun h => by
  rcases h with h | h <;> cases h

/-- Without an open row, the click writes at most the audit row of a replayed link. -/
theorem commit_closed (h : target db click = none) :
    (commit delays (approvalAction click) db).inbox = db.inbox ∧
    Undecided db (commit delays (approvalAction click) db) := by
  cases delays with
  | nil =>
    rw [commit_nil]
    exact ⟨rfl, .same rfl rfl rfl⟩
  | cons d₁ delays =>
    unfold approvalAction
    split
    · rw [commit_throw]
      exact ⟨rfl, .same rfl rfl rfl⟩
    rename_i p hp
    simp only [Prog.bind_eq]
    rw [commit_selectByToken]
    unfold target at h
    rw [hp] at h
    cases hfind : db.inbox.find? fun r => r.linkToken == click.linkToken with
    | none =>
      simp only
      rw [commit_throw]
      exact ⟨rfl, .same rfl rfl rfl⟩
    | some r =>
      rw [hfind] at h
      simp only at h
      split at h
      · cases h
      rename_i hused
      simp only
      rw [if_pos hused]
      cases delays with
      | nil =>
        rw [commit_nil]
        exact ⟨rfl, .same rfl rfl rfl⟩
      | cons d₂ delays =>
        rw [commit_recordApprovalAction, commit_pure]
        exact ⟨rfl, .cons rfl rfl rfl not_decides_used ⟨r, List.mem_of_find?_eq_some hfind, rfl⟩⟩

/-- Up to the clock read, a click with an open row writes nothing. -/
theorem commit_reading (h : target db click = some (p, r)) (hlen : delays.length < 3) :
    (commit delays (approvalAction click) db).inbox = db.inbox ∧
    Undecided db (commit delays (approvalAction click) db) := by
  obtain ⟨hp, hfind, hopen⟩ := target_some h
  match delays, hlen with
  | [], _ =>
    rw [commit_nil]
    exact ⟨rfl, .same rfl rfl rfl⟩
  | [d₁], _ =>
    unfold approvalAction
    rw [hp]
    simp only [Prog.bind_eq]
    rw [commit_selectByToken, commit_nil]
    exact ⟨rfl, .same rfl rfl rfl⟩
  | [d₁, d₂], _ =>
    unfold approvalAction
    rw [hp]
    simp only [Prog.bind_eq]
    rw [commit_selectByToken, hfind]
    simp only
    rw [if_neg (not_not.2 hopen), commit_utcNow, commit_nil]
    exact ⟨rfl, .same rfl rfl rfl⟩

/-- After the clock read, the click goes one of two ways. -/
theorem commit_clock (h : target db click = some (p, r)) (hlen : 3 ≤ delays.length) :
    ∃ d₁ d₂ rest, delays = d₁ :: d₂ :: rest ∧ rest ≠ [] ∧
      commit delays (approvalAction click) db =
        if r.expiresAt ≤ readTime db delays then
          commit rest ((call (.markExpired r.id)).bind fun _ =>
            (recordApprovalAction r.id r.gateDecisionId .linkExpired reasonLinkExpired p).bind fun _ =>
              (pure ⟨.linkExpired, reasonLinkExpired, r.id, none, none⟩ : Gk ActionResponse))
            ((db.wait d₁).wait d₂)
        else
          commit rest ((call (.consumeLink r.id click.choice p.decidedBy)).bind fun consumed =>
            match consumed with
            | none => (recordApprovalAction r.id r.gateDecisionId .linkAlreadyUsed
                reasonLinkAlreadyUsed p).bind fun _ =>
              (pure ⟨.linkAlreadyUsed, reasonLinkAlreadyUsed, r.id, none, none⟩ : Gk ActionResponse)
            | some _ => appendDecision click p r) ((db.wait d₁).wait d₂) := by
  obtain ⟨hp, hfind, hopen⟩ := target_some h
  match delays, hlen with
  | d₁ :: d₂ :: d₃ :: rest, _ =>
    refine ⟨d₁, d₂, d₃ :: rest, rfl, List.cons_ne_nil _ _, ?_⟩
    have htime : readTime db (d₁ :: d₂ :: d₃ :: rest) = (db.wait d₁).now + d₂ := by
      simp only [readTime, List.take, List.sum_cons, List.sum_nil, Db.wait]
      omega
    unfold approvalAction
    rw [hp]
    simp only [Prog.bind_eq]
    rw [commit_selectByToken, hfind]
    simp only
    rw [if_neg (not_not.2 hopen), commit_utcNow, htime]
    split <;> rfl

/-- Too late: the row is marked expired, if it was pending. -/
theorem commit_late (h : target db click = some (p, r)) (hlen : 3 ≤ delays.length)
    (hlate : r.expiresAt ≤ readTime db delays) :
    (commit delays (approvalAction click) db).inbox = (markExpired db.inbox r.id).2 ∧
    Undecided db (commit delays (approvalAction click) db) := by
  have hr : r ∈ db.inbox := List.mem_of_find?_eq_some (target_some h).2.1
  obtain ⟨d₁, d₂, rest, -, hrest, heq⟩ := commit_clock h hlen
  rw [heq, if_pos hlate]
  match rest, hrest with
  | [d₃], _ =>
    rw [commit_markExpired, commit_nil]
    exact ⟨rfl, .same rfl rfl rfl⟩
  | d₃ :: d₄ :: rest, _ =>
    rw [commit_markExpired, commit_recordApprovalAction, commit_pure]
    exact ⟨rfl, .cons rfl rfl rfl not_decides_expired ⟨r, hr, rfl⟩⟩

/-- In time: the link is consumed, and the decision appended. -/
theorem commit_deciding (h : target db click = some (p, r)) (hlen : 3 ≤ delays.length)
    (hlate : readTime db delays < r.expiresAt) :
    ∃ d₁ d₂ d₃ rest, delays = d₁ :: d₂ :: d₃ :: rest ∧
      commit delays (approvalAction click) db = commit rest (appendDecision click p r)
        { ((db.wait d₁).wait d₂).wait d₃ with
          inbox := (consumeLink db.inbox r.id click.choice.status p.decidedBy
            (db.now + d₁ + d₂ + d₃)).2 } := by
  obtain ⟨-, hfind, hopen⟩ := target_some h
  have hr : r ∈ db.inbox := List.mem_of_find?_eq_some hfind
  obtain ⟨d₁, d₂, rest, hdelays, hrest, heq⟩ := commit_clock h hlen
  rw [heq, if_neg (Nat.not_le.2 hlate)]
  match rest, hrest with
  | d₃ :: rest, _ =>
    refine ⟨d₁, d₂, d₃, rest, hdelays, ?_⟩
    rw [commit_consumeLink]
    -- the open row is there to be consumed
    cases hans : (consumeLink ((db.wait d₁).wait d₂).inbox r.id click.choice.status p.decidedBy
      (((db.wait d₁).wait d₂).now + d₃)).1 with
    | none =>
      have hnone := (Table.update_none hans).1 r hr
      simp [hopen] at hnone
    | some row => rfl

/-- The row as the whole decision leaves it. -/
def InboxRow.concluded (r : InboxRow) (click : Click) (p : Principal) (now decision : Nat) : InboxRow :=
  { r.consumed click.choice.status p.decidedBy now with gateDecisionId := some decision }

/-- Cut short: the row is decided, and no audit row says so. -/
theorem commit_cutShort (h : target db click = some (p, r)) (hlen : 3 ≤ delays.length)
    (hlate : readTime db delays < r.expiresAt) (hcut : delays.length < 6) :
    (commit delays (approvalAction click) db).actions = db.actions ∧
    ∃ r' ∈ (commit delays (approvalAction click) db).inbox, r'.id = r.id ∧ r'.Decided := by
  have hfind := (target_some h).2
  obtain ⟨d₁, d₂, d₃, rest, hdelays, heq⟩ := commit_deciding h hlen hlate
  have hdecided : ∀ now, (r.consumed click.choice.status p.decidedBy now).Decided := fun now => by
    cases click.choice
    · exact .inl rfl
    · exact .inr rfl
  have hconsumed : r.consumed click.choice.status p.decidedBy (db.now + d₁ + d₂ + d₃) ∈
      (consumeLink db.inbox r.id click.choice.status p.decidedBy (db.now + d₁ + d₂ + d₃)).2 := by
    obtain ⟨-, hr'⟩ | ⟨hp, -⟩ := Table.exists_mem_update
      (p := fun r' : InboxRow => r'.id == r.id && r'.linkConsumedAt == none)
      (f := (·.consumed click.choice.status p.decidedBy (db.now + d₁ + d₂ + d₃))) rfl
      (List.mem_of_find?_eq_some hfind.1)
    · exact hr'
    · simp [hfind.2] at hp
  have hrest : rest.length < 3 := by
    rw [hdelays] at hcut
    simp only [List.length_cons] at hcut
    omega
  rw [heq]
  match rest, hrest with
  | [], _ =>
    rw [commit_nil]
    exact ⟨rfl, _, hconsumed, rfl, hdecided _⟩
  | [d₄], _ =>
    unfold appendDecision
    simp only [Prog.bind_eq]
    rw [commit_insertGateDecision, commit_nil]
    exact ⟨rfl, _, hconsumed, rfl, hdecided _⟩
  | [d₄, d₅], _ =>
    unfold appendDecision
    simp only [Prog.bind_eq]
    rw [commit_insertGateDecision, commit_backLink, commit_nil]
    obtain ⟨-, hr'⟩ | ⟨hp, -⟩ := Table.exists_mem_update (p := fun r' : InboxRow => r'.id == r.id)
      (f := fun r => { r with gateDecisionId := some db.nextId }) rfl hconsumed
    · exact ⟨rfl, _, hr', rfl, hdecided (db.now + d₁ + d₂ + d₃)⟩
    · simp [InboxRow.consumed] at hp

/-- The whole decision. -/
theorem commit_whole (h : target db click = some (p, r)) (hw : WellFormed db)
    (hlate : readTime db delays < r.expiresAt) (hlen : 6 ≤ delays.length) :
    ∃ now, (∀ r' ∈ (commit delays (approvalAction click) db).inbox,
        (r' ∈ db.inbox ∧ r'.id ≠ r.id) ∨ r' = r.concluded click p now db.nextId) ∧
      r.concluded click p now db.nextId ∈ (commit delays (approvalAction click) db).inbox ∧
      (commit delays (approvalAction click) db).decisions =
        ⟨db.nextId, r.triple.agentRunId, p.decidedBy, click.choice.decision, click.choice.reason⟩ ::
          db.decisions ∧
      (commit delays (approvalAction click) db).actions =
        ⟨r.id, some db.nextId, click.choice.outcome, click.choice.reason, p.id, p.name⟩ ::
          db.actions ∧
      (commit delays (approvalAction click) db).nextId = db.nextId + 1 := by
  have hfind := (target_some h).2
  have hr : r ∈ db.inbox := List.mem_of_find?_eq_some hfind.1
  obtain ⟨d₁, d₂, d₃, rest, hdelays, heq⟩ := commit_deciding h (by omega) hlate
  have hrest : 3 ≤ rest.length := by
    rw [hdelays] at hlen
    simp only [List.length_cons] at hlen
    omega
  match rest, hrest with
  | d₄ :: d₅ :: d₆ :: rest, _ =>
    rw [heq]
    unfold appendDecision
    simp only [Prog.bind_eq]
    rw [commit_insertGateDecision, commit_backLink, commit_recordApprovalAction, commit_pure]
    let q : InboxRow → Bool := fun r' => r'.id == r.id && r'.linkConsumedAt == none
    let f : InboxRow → InboxRow :=
      (·.consumed click.choice.status p.decidedBy (db.now + d₁ + d₂ + d₃))
    let g : InboxRow → InboxRow := fun r' => { r' with gateDecisionId := some db.nextId }
    refine ⟨db.now + d₁ + d₂ + d₃, fun r' hr' => ?_, ?_, rfl, rfl, rfl⟩
    · rcases Table.mem_update (p := fun r' => r'.id == r.id) (f := g) rfl hr' with
        ⟨r₁, hr₁, hid, rfl⟩ | ⟨hr₁, hid⟩
      · right
        -- the row with this id is the consumed one
        rcases Table.mem_update (p := q) (f := f) rfl hr₁ with ⟨r₀, hr₀, hq, rfl⟩ | ⟨hr₁, hq⟩
        · simp only [q, Bool.and_eq_true, beq_iff_eq] at hq
          rw [hw.eq_of_id hr₀ hr hq.1]
          rfl
        · obtain rfl := hw.eq_of_id hr₁ hr (by simpa using hid)
          simp [q, hfind.2] at hq
      · left
        have hne : r'.id ≠ r.id := by simpa using hid
        rcases Table.mem_update (p := q) (f := f) rfl hr₁ with ⟨r₀, hr₀, hq, rfl⟩ | ⟨hr₁, -⟩
        · simp only [q, Bool.and_eq_true, beq_iff_eq] at hq
          exact absurd hq.1 hne
        · exact ⟨hr₁, hne⟩
    · obtain ⟨-, hr₁⟩ | ⟨hq, -⟩ := Table.exists_mem_update (p := q) (f := f) rfl hr
      · obtain ⟨-, hr₂⟩ | ⟨hid, -⟩ := Table.exists_mem_update (p := fun r' => r'.id == r.id) (f := g)
          rfl hr₁
        · exact hr₂
        · simp [f, InboxRow.consumed] at hid
      · simp [q, hfind.2] at hq

end Branches

/-! ## Atomic, exactly when not cut short -/

theorem Complete.mono {db t : Db} {r : InboxRow} (hd : ∀ d ∈ db.decisions, d ∈ t.decisions)
    (ha : ∀ a ∈ db.actions, a ∈ t.actions) (h : Complete db r) : Complete t r := by
  obtain ⟨choice, d, hd', a, ha', h⟩ := h
  exact ⟨choice, d, hd d hd', a, ha a ha', h⟩

theorem Consistent.undecided_of_open {db : Db} (hdb : Consistent db) {r : InboxRow}
    (hr : r ∈ db.inbox) (hopen : r.linkConsumedAt = none) : ¬ r.Decided := by
  intro h
  rcases hdb.wellFormed.undecided r hr hopen with hs | hs <;>
    rcases h with h | h <;> rw [hs] at h <;> cases h

/-- What every statement keeps, whatever its fate. -/
theorem afterClick_wellFormed {S : Settings} {db : Db} (hdb : Consistent db) (click : Click)
    (fates : List Fate) : WellFormed (afterClick S db click fates) ∧
      ∀ r ∈ (afterClick S db click fates).inbox, r.linkConsumedAt ≠ none → r.Decided := by
  let I (h : GkHistory) : Prop :=
    WellFormed h.cur ∧ ∀ r ∈ h.cur.inbox, r.linkConsumedAt ≠ none → r.Decided
  have h₀ : I ⟨db, [], []⟩ := ⟨hdb.wellFormed, hdb.decided⟩
  have hr : (gatekeeper S).Reach Sys.free (.idle ⟨db, [], []⟩)
      ((.enter 0 (.approvalAction click) :: fates.flatMap Fate.acts).foldl (gatekeeper S).exec
        (.idle ⟨db, [], []⟩)) := Sys.Reach.foldl_free _ .init
  refine hr.shared_invariant (I := I) h₀ ?_ ?_ ?_
  · intro c i r h _ hI hs
    obtain ⟨-, rfl⟩ := recorded_enter hs
    exact hI
  · intro c i f r o k out h _ _ hI hs
    rcases recorded_apply hs with ⟨-, rfl⟩ | ⟨a, b, t, -, hx, rfl⟩
    · exact hI
    · exact ⟨hI.1.exec hx, decided_exec hI.2 hx⟩
  · intro c m h _ hI hm
    obtain ⟨t, ht, rfl⟩ := recorded_env hm
    refine ⟨hI.1.move ht, ?_⟩
    cases m <;> (obtain rfl := Option.some.inj ht; exact hI.2)

section Click

variable {S : Settings} {db t : Db} {click : Click} {fates : List Fate}

/-- A click that decides nothing leaves a consistent state consistent. -/
theorem Consistent.of_undecided (hdb : Consistent db) (hw : WellFormed t)
    (hdec : ∀ r ∈ t.inbox, r.linkConsumedAt ≠ none → r.Decided)
    (hin : ∀ r ∈ t.inbox, r ∈ db.inbox ∨
      (¬ r.Decided ∧ ∃ r₀ ∈ db.inbox, r₀.id = r.id ∧ ¬ r₀.Decided))
    (hu : Undecided db t) : Consistent t := by
  refine ⟨hw, hdec, ?_, ?_, ?_⟩
  · intro r hr hd
    rcases hin r hr with hr | ⟨hnot, -⟩
    · exact (hdb.complete r hr hd).mono (fun d hd => hu.decisions ▸ hd) hu.kept
    · exact absurd hd hnot
  · intro a ha ho r hr hid
    rcases hu.added a ha with ha | ⟨hnot, -⟩
    · rcases hin r hr with hr | ⟨-, r₀, hr₀, hid₀, hnot⟩
      · exact hdb.actions a ha ho r hr hid
      · exact absurd (hdb.actions a ha ho r₀ hr₀ (hid₀.trans hid)) hnot
    · exact absurd ho hnot
  · intro a ha
    rw [hu.nextId]
    rcases hu.added a ha with ha | ⟨-, r, hr, hid⟩
    · exact hdb.fresh a ha
    · exact hid ▸ hdb.wellFormed.fresh r hr

theorem SameTables.undecided {s : Db} (h : SameTables s t) (hu : Undecided db s) : Undecided db t :=
  ⟨h.decisions.trans hu.decisions, h.nextId.trans hu.nextId, fun a ha => h.actions ▸ hu.kept a ha,
    fun a ha => hu.added a (h.actions ▸ ha)⟩

/-- A click that leaves the inbox as it was. -/
theorem atomic_of_same (hdb : Consistent db) (ht : Consistent t) (hin : t.inbox = db.inbox) :
    Atomic db t click := by
  refine ⟨ht.complete, fun r hr _ => ⟨r, hin ▸ hr, rfl, ?_⟩⟩
  by_cases hopen : r.linkConsumedAt = none
  · exact .inr ⟨rfl, hopen⟩
  · exact .inl (hdb.decided r hr hopen)

theorem InboxRow.concluded_decided (r : InboxRow) (click : Click) (p : Principal)
    (now decision : Nat) : (r.concluded click p now decision).Decided := by
  unfold InboxRow.concluded InboxRow.Decided
  cases click.choice
  · exact .inl rfl
  · exact .inr rfl

/-- The whole decision leaves a consistent state. -/
theorem consistent_of_whole (hdb : Consistent db) (hw : WellFormed t)
    (hdec : ∀ r ∈ t.inbox, r.linkConsumedAt ≠ none → r.Decided) {p : Principal} {r : InboxRow}
    (hr : r ∈ db.inbox) {now : Nat}
    (hin : ∀ r' ∈ t.inbox,
      (r' ∈ db.inbox ∧ r'.id ≠ r.id) ∨ r' = r.concluded click p now db.nextId)
    (hd : t.decisions = ⟨db.nextId, r.triple.agentRunId, p.decidedBy, click.choice.decision,
      click.choice.reason⟩ :: db.decisions)
    (ha : t.actions = ⟨r.id, some db.nextId, click.choice.outcome, click.choice.reason, p.id,
      p.name⟩ :: db.actions) (hn : t.nextId = db.nextId + 1) : Consistent t := by
  refine ⟨hw, hdec, fun r' hr' hdec' => ?_, fun a ha' ho r' hr' hid => ?_, fun a ha' => ?_⟩
  · rcases hin r' hr' with ⟨hr', -⟩ | rfl
    · exact (hdb.complete r' hr' hdec').mono (fun d h => hd ▸ List.mem_cons_of_mem _ h)
        fun a h => ha ▸ List.mem_cons_of_mem _ h
    · exact ⟨click.choice, _, hd ▸ List.mem_cons_self, _, ha ▸ List.mem_cons_self, rfl, rfl, rfl,
        rfl, rfl, rfl, rfl, rfl⟩
  · rcases hin r' hr' with ⟨hr', hne⟩ | rfl
    · rcases List.mem_cons.1 (ha ▸ ha') with rfl | ha'
      · exact absurd hid hne
      · exact hdb.actions a ha' ho r' hr' hid
    · exact r.concluded_decided click p now db.nextId
  · rw [hn]
    rcases List.mem_cons.1 (ha ▸ ha') with rfl | ha'
    · exact Nat.lt_succ_of_lt (hdb.wellFormed.fresh r hr)
    · exact Nat.lt_succ_of_lt (hdb.fresh a ha')

/-- A click that is not cut short leaves a consistent state. -/
theorem consistent_afterClick (S : Settings) (hdb : Consistent db)
    (hcut : ¬ CutShort db click (committed fates)) : Consistent (afterClick S db click fates) := by
  obtain ⟨hw, hdec⟩ := afterClick_wellFormed (S := S) hdb click fates
  have hsame := afterClick_tables S db click fates
  have hquiet : (commit (committed fates) (approvalAction click) db).inbox = db.inbox →
      Undecided db (commit (committed fates) (approvalAction click) db) →
      Consistent (afterClick S db click fates) := fun hin hu =>
    hdb.of_undecided hw hdec (fun r hr => .inl (by rwa [hsame.inbox, hin] at hr))
      (hsame.undecided hu)
  cases htarget : target db click with
  | none =>
    exact hquiet (commit_closed htarget).1 (commit_closed htarget).2
  | some x =>
    obtain ⟨p, r⟩ := x
    have hr : r ∈ db.inbox := List.mem_of_find?_eq_some (target_some htarget).2.1
    by_cases hlen : (committed fates).length < 3
    · obtain ⟨hin, hu⟩ := commit_reading htarget hlen
      exact hquiet hin hu
    rw [Nat.not_lt] at hlen
    by_cases hlate : r.expiresAt ≤ readTime db (committed fates)
    · obtain ⟨hin, hu⟩ := commit_late htarget hlen hlate
      refine hdb.of_undecided hw hdec (fun r' hr' => ?_) (hsame.undecided hu)
      rw [hsame.inbox, hin] at hr'
      rcases Table.mem_update rfl hr' with ⟨r₀, hr₀, hp, rfl⟩ | ⟨hr', -⟩
      · -- the expired row was pending
        simp only [Bool.and_eq_true, beq_iff_eq] at hp
        refine .inr ⟨fun h => ?_, r₀, hr₀, rfl, fun h => ?_⟩
        · rcases h with h | h <;> cases h
        · rcases h with h | h <;> rw [hp.2] at h <;> cases h
      · exact .inl hr'
    · rw [Nat.not_le] at hlate
      have hwhole : 6 ≤ (committed fates).length := by
        by_contra hlt
        exact hcut ⟨p, r, htarget, hlate, hlen, by omega⟩
      obtain ⟨now, hin, -, hd, ha, hn⟩ := commit_whole htarget hdb.wellFormed hlate hwhole
      refine consistent_of_whole hdb hw hdec hr (fun r' hr' => hin r' (hsame.inbox ▸ hr'))
        (hsame.decisions.trans hd) (hsame.actions.trans ha) (hsame.nextId.trans hn)

end Click

/-! ## Which states are consistent -/

/-- The statements of gate checks and status reads. -/
def CheckOp : GkOp → Prop
  | .consumeLink _ _ _ => False
  | .markExpired _ => False
  | .backLink _ _ => False
  | .insertAction _ => False
  | _ => True

/-- The states reached by the statements of any checks and by clicks that are not cut short. -/
inductive Served (S : Settings) : Db → Prop
  | empty : Served S Db.empty
  | move {db t : Db} (m : GkMove) : Served S db → m.apply db = some t → Served S t
  | check {db t : Db} (o : GkOp) (a b : o.Res) : Served S db → CheckOp o →
    exec o a db = some (b, t) → Served S t
  | click {db : Db} (click : Click) (fates : List Fate) : Served S db →
    ¬ CutShort db click (committed fates) → Served S (afterClick S db click fates)

/-- Decisions are only ever added. -/
theorem exec_decisions {o : GkOp} {a b : o.Res} {db t : Db} (hx : exec o a db = some (b, t)) :
    ∀ d ∈ db.decisions, d ∈ t.decisions := by
  intro d hd
  cases o with
  | selectActiveSwitches | selectLatestApproved | selectLatestAnyStatus =>
    simp only [exec] at hx
    split at hx
    · obtain ⟨-, rfl⟩ := Prod.mk.inj (Option.some.inj hx)
      exact hd
    · cases hx
  | insertInbox n =>
    simp only [exec] at hx
    split at hx
    · cases hx
    · obtain ⟨-, rfl⟩ := Prod.mk.inj (Option.some.inj hx)
      exact hd
  | insertGateDecision =>
    obtain ⟨-, rfl⟩ := Prod.mk.inj (Option.some.inj hx)
    exact List.mem_cons_of_mem _ hd
  | _ =>
    obtain ⟨-, rfl⟩ := Prod.mk.inj (Option.some.inj hx)
    exact hd

theorem Consistent.check {db t : Db} (hdb : Consistent db) {o : GkOp} {a b : o.Res} (ho : CheckOp o)
    (hx : exec o a db = some (b, t)) : Consistent t := by
  have hactions : t.actions = db.actions := by
    have h := exec_actions (i := 0) hx
    cases o <;> first | exact ho.elim | exact h
  obtain ⟨hc, hticks⟩ := exec_inbox hx
  have hcomplete : ∀ r ∈ db.inbox, r.Decided → Complete t r := fun r hr hd =>
    (hdb.complete r hr hd).mono (exec_decisions hx) fun a ha => hactions ▸ ha
  have hfresh : ∀ a ∈ t.actions, a.approvalInboxId < t.nextId := fun a ha =>
    Nat.lt_of_lt_of_le (hdb.fresh a (hactions ▸ ha)) hticks.nextId
  refine ⟨hdb.wellFormed.exec hx, decided_exec hdb.decided hx, ?_, ?_, hfresh⟩
  · intro r hr hd
    cases hc with
    | same _ _ hin => exact hcomplete r (hin ▸ hr) hd
    | inserted n hin =>
      rcases List.mem_cons.1 (hin ▸ hr) with rfl | hr
      · rcases hd with h | h <;> cases h
      · exact hcomplete r hr hd
    | consumed | expired | linked => exact ho.elim
  · intro row hrow hdec r hr hid
    rw [hactions] at hrow
    cases hc with
    | same _ _ hin => exact hdb.actions row hrow hdec r (hin ▸ hr) hid
    | inserted n hin =>
      rcases List.mem_cons.1 (hin ▸ hr) with rfl | hr
      · -- the audit cannot have named the new row's id
        have hlt := hdb.fresh row hrow
        rw [← hid] at hlt
        exact absurd hlt (Nat.lt_irrefl _)
      · exact hdb.actions row hrow hdec r hr hid
    | consumed | expired | linked => exact ho.elim

theorem Served.consistent {S : Settings} {db : Db} (h : Served S db) : Consistent db := by
  induction h with
  | empty =>
    exact ⟨.empty, fun _ h => absurd h List.not_mem_nil, fun _ h => absurd h List.not_mem_nil,
      fun _ h => absurd h List.not_mem_nil, fun _ h => absurd h List.not_mem_nil⟩
  | move m _ hm ih =>
    have hw := ih.wellFormed.move hm
    cases m <;> (obtain rfl := Option.some.inj hm; exact ⟨hw, ih.decided, ih.complete, ih.actions, ih.fresh⟩)
  | check o a b _ ho hx ih => exact ih.check ho hx
  | click click fates _ hcut ih => exact consistent_afterClick S ih hcut

/-! ## All or nothing -/

section Click

variable {S : Settings} {db t : Db} {click : Click} {fates : List Fate}

/-- A click is all or nothing, whatever becomes of its statements, exactly when it is not cut short
    between its first and its last write, and does not mark its row expired instead of deciding. -/
theorem click_atomic (S : Settings) (hdb : Consistent db) :
    Atomic db (afterClick S db click fates) click ↔
      ¬ CutShort db click (committed fates) ∧ ¬ MarksExpired db click (committed fates) := by
  have hsame := afterClick_tables S db click fates
  constructor
  · intro ⟨hcomplete, hrow⟩
    constructor
    · rintro ⟨p, r, htarget, hlate, hlen, hcut⟩
      -- a complete row would have an audit row that was there before the click
      have hr : r ∈ db.inbox := List.mem_of_find?_eq_some (target_some htarget).2.1
      obtain ⟨hactions, r', hr', hid, hdec⟩ := commit_cutShort htarget hlen hlate hcut
      obtain ⟨choice, d, -, a, ha, -, -, -, -, haid, -, hout, -⟩ :=
        hcomplete r' (hsame.inbox ▸ hr') hdec
      have ha' : a ∈ db.actions := by rwa [hsame.actions, hactions] at ha
      have hdecides : a.outcome.decides := by
        rw [hout]
        cases choice
        · exact .inl rfl
        · exact .inr rfl
      exact hdb.undecided_of_open hr (target_some htarget).2.2
        (hdb.actions a ha' hdecides r hr (hid.symm.trans haid.symm))
    · rintro ⟨p, r, htarget, hlate, hpending, hlen⟩
      obtain ⟨-, hfind, -⟩ := target_some htarget
      have hr : r ∈ db.inbox := List.mem_of_find?_eq_some hfind
      have htoken := List.find?_some hfind
      obtain ⟨r', hr', hid, h⟩ := hrow r hr (by simpa using htoken)
      rw [hsame.inbox, (commit_late htarget hlen hlate).1] at hr'
      rcases Table.mem_update rfl hr' with ⟨r₀, -, -, rfl⟩ | ⟨hr', hp⟩
      · rcases h with (h | h) | ⟨h, -⟩
        · cases h
        · cases h
        · rw [← h] at hpending
          cases hpending
      · obtain rfl := hdb.wellFormed.eq_of_id hr' hr hid
        simp [hpending] at hp
  · intro ⟨hcut, hexpires⟩
    have ht := consistent_afterClick S hdb hcut
    cases htarget : target db click with
    | none =>
      exact atomic_of_same hdb ht (hsame.inbox.trans (commit_closed htarget).1)
    | some x =>
      obtain ⟨p, r⟩ := x
      obtain ⟨-, hfind, hopen⟩ := target_some htarget
      have hr : r ∈ db.inbox := List.mem_of_find?_eq_some hfind
      have htoken := List.find?_some hfind
      by_cases hlen : (committed fates).length < 3
      · exact atomic_of_same hdb ht (hsame.inbox.trans (commit_reading htarget hlen).1)
      rw [Nat.not_lt] at hlen
      -- the link of the click belongs to the one row
      have hone : ∀ r₀ ∈ db.inbox, r₀.linkToken = click.linkToken → r₀ = r := fun r₀ hr₀ h =>
        hdb.wellFormed.eq_of_token hr₀ hr (h.trans (Eq.symm (by simpa using htoken)))
      by_cases hlate : r.expiresAt ≤ readTime db (committed fates)
      · refine ⟨ht.complete, fun r₀ hr₀ h => ?_⟩
        obtain rfl := hone r₀ hr₀ h
        have hin := hsame.inbox.trans (commit_late htarget hlen hlate).1
        rcases Table.exists_mem_update hin hr with ⟨hp, -⟩ | ⟨-, hr'⟩
        · simp only [Bool.and_eq_true, beq_iff_eq] at hp
          exact absurd ⟨p, r₀, htarget, hlate, hp.2, hlen⟩ hexpires
        · exact ⟨r₀, hr', rfl, .inr ⟨rfl, hopen⟩⟩
      · rw [Nat.not_le] at hlate
        have hwhole : 6 ≤ (committed fates).length := by
          by_contra hlt
          exact hcut ⟨p, r, htarget, hlate, hlen, by omega⟩
        obtain ⟨now, -, hmem, -⟩ := commit_whole htarget hdb.wellFormed hlate hwhole
        refine ⟨ht.complete, fun r₀ hr₀ h => ?_⟩
        obtain rfl := hone r₀ hr₀ h
        refine ⟨r₀.concluded click p now db.nextId, ?_, rfl,
          .inl (r₀.concluded_decided click p now db.nextId)⟩
        rw [hsame.inbox]
        exact hmem

end Click

/-! ## A connection lost after the first write -/

/-- One pending row, and a user who approves it. -/
def pendingDb : Db := (endOf (raising 0 7)).shared.cur

def approvingClick : Click := ⟨7, .approve, some ⟨"user-1", none⟩⟩

theorem pendingDb_consistent : Consistent pendingDb := by
  have hundecided : ∀ r ∈ pendingDb.inbox, ¬ r.Decided := by decide +kernel
  have hnone : pendingDb.actions = [] := by decide +kernel
  refine ⟨⟨by decide +kernel, by decide +kernel, by decide +kernel, by decide +kernel,
    by decide +kernel⟩, by decide +kernel, fun r hr h => absurd h (hundecided r hr), ?_, ?_⟩
  · rw [hnone]
    exact fun a ha => absurd ha List.not_mem_nil
  · rw [hnone]
    exact fun a ha => absurd ha List.not_mem_nil

/-- All six statements commit. -/
theorem click_atomic_of_whole :
    Atomic pendingDb (afterClick oneRequestSettings pendingDb approvingClick
      (List.replicate 6 (.commits 1))) approvingClick := by
  refine (click_atomic oneRequestSettings pendingDb_consistent).2 ⟨?_, ?_⟩
  · rintro ⟨p, r, -, -, -, hlen⟩
    exact absurd hlen (by decide)
  · rintro ⟨p, r, htarget, hlate, -, -⟩
    have h : target pendingDb approvingClick = some (⟨"user-1", none⟩,
        ⟨1, some 0, oneTriple, "publish", 1, "schedule-social (publish)", none,
          evidenceSummary oneRequest, .pending, none, none, 7, none, 86400, 0⟩) := by decide +kernel
    rw [h] at htarget
    obtain ⟨-, rfl⟩ := Prod.mk.inj (Option.some.inj htarget)
    exact absurd hlate (by decide +kernel)

/-- Where the connection is lost after the link was consumed. -/
def lostDb : Db := afterClick oneRequestSettings pendingDb approvingClick
  [.commits 1, .commits 1, .commits 1, .fails (.other "connection lost")]

/-- The row is approved and its link used up; it still points at the escalation, no decision of the
    user's and no audit row exist. -/
theorem approved_without_audit :
    Consistent pendingDb ∧
    lostDb.inbox.map (fun r => (r.status, r.linkConsumedAt, r.gateDecisionId)) =
      [(.approved, some 3, some 0)] ∧
    lostDb.decisions.map (fun d => (d.id, d.outcome)) = [(0, .escalated)] ∧ lostDb.actions = [] ∧
    ¬ Atomic pendingDb lostDb approvingClick := by
  have hnone : lostDb.actions = [] := by decide +kernel
  have hdecided : ∃ r ∈ lostDb.inbox, r.Decided := by decide +kernel
  refine ⟨pendingDb_consistent, by decide +kernel, by decide +kernel, hnone, fun h => ?_⟩
  obtain ⟨r, hr, hd⟩ := hdecided
  obtain ⟨choice, d, -, a, ha, -⟩ := h.1 r hr hd
  rw [hnone] at ha
  cases ha

end CanvasOS.Gatekeeper
