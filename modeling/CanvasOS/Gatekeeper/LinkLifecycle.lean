/-
  The life of an approval link.

  A click reads the row, tests the expiry and then either consumes the link or marks the row expired,
  each a statement of its own.  `consume_link` looks at the link only and `mark_expired` at the status
  only, so two clicks around the expiry can each act on what the other has not seen.

  1. `InTime` — what the two writes do not test: an open link is consumed while its row is pending and
     unexpired, and no row is marked expired whose link is consumed.
  2. `InboxRow.Later` — what then survives every statement: a settled status, a used link.
  3. `ClickRecord` — the six ways a click ends, with what it has executed.
  4. `link_lifecycle` — the lifecycle, in every run whose writes are in time; `approved_after_expiry` —
     a run in which a row is expired, and approved afterwards.
-/
import CanvasOS.Lib.Chain
import CanvasOS.Gatekeeper.Inbox

namespace CanvasOS.Gatekeeper

open Interleave Python Governance

/-- A human decided the row. -/
def InboxRow.Decided (r : InboxRow) : Prop := r.status = .approved ∨ r.status = .rejected

/-- What neither write tests. -/
def InTime (db : Db) : GkOp → Prop
  | .consumeLink id _ _ => ∀ r ∈ db.inbox, r.id = id → r.linkConsumedAt = none →
    r.status = .pending ∧ db.now < r.expiresAt
  | .markExpired id => ∀ r ∈ db.inbox, r.id = id → r.linkConsumedAt = none
  | _ => True

instance (db : Db) : (o : GkOp) → Decidable (InTime db o)
  | .consumeLink id _ _ => inferInstanceAs (Decidable (∀ r ∈ db.inbox, r.id = id →
    r.linkConsumedAt = none → r.status = .pending ∧ db.now < r.expiresAt))
  | .markExpired id =>
    inferInstanceAs (Decidable (∀ r ∈ db.inbox, r.id = id → r.linkConsumedAt = none))
  | .selectActiveSwitches _ | .insertGateDecision _ _ _ _ | .selectLatestApproved _
  | .selectLatestAnyStatus _ | .utcNow | .generateLinkToken | .insertInbox _ | .teamsWebhookUrl
  | .postAdaptiveCard _ _ | .issueGateToken _ _ _ _ | .selectByToken _ | .backLink _ _
  | .insertAction _ => .isTrue trivial

/-! ## One statement -/

/-- The row `r'` is a later stage of the row `r`. -/
structure InboxRow.Later (r r' : InboxRow) : Prop where
  id : r'.id = r.id
  linkToken : r'.linkToken = r.linkToken
  expiresAt : r'.expiresAt = r.expiresAt
  settled : r.status ≠ .pending → r'.status = r.status
  used : r.linkConsumedAt ≠ none → r'.linkConsumedAt ≠ none ∧ r'.decidedBy = r.decidedBy

theorem InboxRow.Later.refl (r : InboxRow) : r.Later r :=
  ⟨rfl, rfl, rfl, fun _ => rfl, fun h => ⟨h, rfl⟩⟩

theorem InboxRow.Later.trans {r s t : InboxRow} (h : r.Later s) (h' : s.Later t) : r.Later t := by
  refine ⟨h'.id.trans h.id, h'.linkToken.trans h.linkToken, h'.expiresAt.trans h.expiresAt, ?_, ?_⟩
  · intro hr
    have hs := h.settled hr
    exact (h'.settled (hs ▸ hr)).trans hs
  · intro hr
    obtain ⟨hs, hby⟩ := h.used hr
    obtain ⟨ht, hby'⟩ := h'.used hs
    exact ⟨ht, hby'.trans hby⟩

/-- Every row of `db` is found again in `t`. -/
def Later (db t : Db) : Prop := ∀ r ∈ db.inbox, ∃ r' ∈ t.inbox, r.Later r'

theorem Later.of_eq {db t : Db} (h : t.inbox = db.inbox) : Later db t :=
  fun r hr => ⟨r, h ▸ hr, .refl r⟩

instance : IsTrans Db Later where
  trans db t u h h' := fun r hr => by
    obtain ⟨s, hs, hrs⟩ := h r hr
    obtain ⟨q, hq, hsq⟩ := h' s hs
    exact ⟨q, hq, hrs.trans hsq⟩

/-- A change of status: out of `pending`, and into a decision only before the expiry. -/
def InTimeChange (now : Nat) (r r' : InboxRow) : Prop :=
  r'.status ≠ r.status → r.status = .pending ∧ (r'.status = .expired ∨ now < r.expiresAt)

/-- What an executed statement does to each row, if it is in time. -/
theorem row_step {o : GkOp} {a b : o.Res} {db t : Db} (hin : InTime db o)
    (hx : exec o a db = some (b, t)) :
    ∀ r ∈ db.inbox, ∃ r' ∈ t.inbox, r.Later r' ∧ InTimeChange db.now r r' := by
  intro r hr
  -- a row the statement leaves alone
  have hsame : r ∈ t.inbox → ∃ r' ∈ t.inbox, r.Later r' ∧ InTimeChange db.now r r' :=
    fun hr' => ⟨r, hr', .refl r, fun hne => absurd rfl hne⟩
  cases (exec_inbox hx).1 with
  | same _ _ h => exact hsame (h ▸ hr)
  | inserted n h => exact hsame (h ▸ List.mem_cons_of_mem _ hr)
  | consumed id choice by_ h =>
    rcases Table.exists_mem_update h hr with ⟨hp, hr'⟩ | ⟨-, hr'⟩
    · simp only [Bool.and_eq_true, beq_iff_eq] at hp
      obtain ⟨hpending, hlt⟩ := hin r hr hp.1 hp.2
      refine ⟨_, hr', ⟨rfl, rfl, rfl, fun hne => absurd hpending hne, fun hne => ?_⟩,
        fun _ => ⟨hpending, .inr hlt⟩⟩
      exact absurd hp.2 hne
    · exact hsame hr'
  | expired id h =>
    rcases Table.exists_mem_update h hr with ⟨hp, hr'⟩ | ⟨-, hr'⟩
    · simp only [Bool.and_eq_true, beq_iff_eq] at hp
      exact ⟨_, hr', ⟨rfl, rfl, rfl, fun hne => absurd hp.2 hne, fun hne => ⟨hne, rfl⟩⟩,
        fun _ => ⟨hp.2, .inl rfl⟩⟩
    · exact hsame hr'
  | linked id decision h =>
    rcases Table.exists_mem_update h hr with ⟨-, hr'⟩ | ⟨-, hr'⟩
    · exact ⟨_, hr', ⟨rfl, rfl, rfl, fun _ => rfl, fun hne => ⟨hne, rfl⟩⟩,
        fun hne => absurd rfl hne⟩
    · exact hsame hr'

/-- A link that was consumed was open, and its row is decided. -/
theorem consumed_after {id : Nat} {choice : Choice} {by_ : String} {a : Option InboxRow}
    {row : InboxRow} {db t : Db} (hx : exec (.consumeLink id choice by_) a db = some (some row, t)) :
    ∃ r ∈ db.inbox, r.id = id ∧ r.linkConsumedAt = none ∧
      r.consumed choice.status by_ db.now ∈ t.inbox := by
  obtain ⟨hrow, rfl⟩ := Prod.mk.inj (Option.some.inj hx)
  obtain ⟨r, hr, hp, rfl, hmem⟩ := Table.update_some hrow
  simp only [Bool.and_eq_true, beq_iff_eq] at hp
  exact ⟨r, hr, hp.1, hp.2, hmem⟩

/-- A link that could not be consumed had been consumed. -/
theorem used_of_not_consumed {id : Nat} {choice : Choice} {by_ : String} {a : Option InboxRow}
    {db t : Db} (hx : exec (.consumeLink id choice by_) a db = some (none, t)) :
    t.inbox = db.inbox ∧ ∀ r ∈ db.inbox, r.id = id → r.linkConsumedAt ≠ none := by
  obtain ⟨hnone, rfl⟩ := Prod.mk.inj (Option.some.inj hx)
  obtain ⟨hp, hin⟩ := Table.update_none hnone
  refine ⟨hin, fun r hr hid hopen => ?_⟩
  have hpr := hp r hr
  simp [hid, hopen] at hpr

/-- An open row that is marked expired is expired, whether it had been before or not. -/
theorem expired_after {id : Nat} {a b : Option InboxRow} {db t : Db} (hw : WellFormed db)
    (hin : InTime db (.markExpired id)) (hx : exec (.markExpired id) a db = some (b, t))
    {r : InboxRow} (hr : r ∈ db.inbox) (hid : r.id = id) :
    ∃ r' ∈ t.inbox, r'.id = id ∧ r'.status = .expired := by
  obtain ⟨-, rfl⟩ := Prod.mk.inj (Option.some.inj hx)
  rcases Table.exists_mem_update (p := fun r => r.id == id && r.status == .pending)
    (f := fun r => { r with status := .expired }) rfl hr with ⟨-, hr'⟩ | ⟨hp, hr'⟩
  · exact ⟨_, hr', hid, rfl⟩
  · refine ⟨r, hr', hid, ?_⟩
    rcases hw.undecided r hr (hin r hr hid) with hs | hs
    · simp [hid, hs] at hp
    · exact hs

/-! ## The invariant -/

/-- The audit row a statement appends. -/
def actionRow (e : GkEvent) : Option ActionRow :=
  match e.op with
  | .insertAction row => some row
  | _ => none

/-- Only `insertAction` writes to `approval_actions`. -/
theorem exec_actions {o : GkOp} {a b : o.Res} {db t : Db} {i : Nat}
    (hx : exec o a db = some (b, t)) : t.actions = (actionRow ⟨i, o, b, db⟩).toList ++ db.actions := by
  cases o with
  | selectActiveSwitches | selectLatestApproved | selectLatestAnyStatus =>
    simp only [exec] at hx
    split at hx
    · obtain ⟨-, rfl⟩ := Prod.mk.inj (Option.some.inj hx)
      rfl
    · cases hx
  | insertInbox n =>
    simp only [exec] at hx
    split at hx
    · cases hx
    · obtain ⟨-, rfl⟩ := Prod.mk.inj (Option.some.inj hx)
      rfl
  | _ =>
    obtain ⟨-, rfl⟩ := Prod.mk.inj (Option.some.inj hx)
    rfl

/-- What every statement that is in time keeps. -/
structure Lifecycle (h : GkHistory) : Prop where
  wellFormed : WellFormed h.cur
  decided : ∀ r ∈ h.cur.inbox, r.linkConsumedAt ≠ none → r.Decided
  actions : h.cur.actions = h.log.filterMap actionRow
  inTime : ∀ e ∈ h.log, WellFormed e.pre ∧ InTime e.pre e.op
  chain : Chain (fun _ o => exec o) Later h

/-- The environment answers, and the statement is in time. -/
def Answered (_ : Nat) (h : GkHistory) (o : GkOp) (r : Reply Exc o.Res) : Prop :=
  r.answers = true ∧ InTime h.cur o

theorem decided_exec {o : GkOp} {a b : o.Res} {db t : Db}
    (hdec : ∀ r ∈ db.inbox, r.linkConsumedAt ≠ none → r.Decided)
    (hx : exec o a db = some (b, t)) : ∀ r ∈ t.inbox, r.linkConsumedAt ≠ none → r.Decided := by
  intro r hr hused
  cases (exec_inbox hx).1 with
  | same _ _ h => exact hdec r (h ▸ hr) hused
  | inserted n h =>
    rcases List.mem_cons.1 (h ▸ hr) with rfl | hr
    · exact absurd rfl hused
    · exact hdec r hr hused
  | consumed id choice by_ h =>
    rcases Table.mem_update h hr with ⟨r₀, -, -, rfl⟩ | ⟨hr, -⟩
    · cases choice with
      | approve => exact .inl rfl
      | reject => exact .inr rfl
    · exact hdec r hr hused
  | expired id h =>
    rcases Table.mem_update h hr with ⟨r₀, hr₀, hp, rfl⟩ | ⟨hr, -⟩
    · -- a pending row's link is open
      simp only [Bool.and_eq_true, beq_iff_eq] at hp
      rcases hdec r₀ hr₀ hused with hs | hs <;> rw [hs] at hp <;> cases hp.2
    · exact hdec r hr hused
  | linked id decision h =>
    rcases Table.mem_update h hr with ⟨r₀, hr₀, -, rfl⟩ | ⟨hr, -⟩
    · exact hdec r₀ hr₀ hused
    · exact hdec r hr hused

theorem lifecycle_exec : KeptByStatements (fun _ o => exec o) Lifecycle Answered := by
  intro i h o a b t hI ha hx
  have hin : InTime h.cur o := by
    rcases ha with ha | ⟨e, ha⟩
    · exact ha.2
    · exact ha.2
  have hlater : Later h.cur t := fun r hr =>
    let ⟨r', hr', hl, _⟩ := row_step hin hx r hr
    ⟨r', hr', hl⟩
  refine ⟨hI.wellFormed.exec hx, decided_exec hI.decided hx, ?_, ?_, ?_⟩
  · show t.actions = _
    rw [exec_actions (i := i) hx, hI.actions]
    cases hrow : actionRow ⟨i, o, b, h.cur⟩ with
    | none => rw [List.filterMap_cons_none hrow, Option.toList_none, List.nil_append]
    | some row => rw [List.filterMap_cons_some hrow, Option.toList_some, List.singleton_append]
  · intro e he
    rcases List.mem_cons.1 he with rfl | he
    · exact ⟨hI.wellFormed, hin⟩
    · exact hI.inTime e he
  · exact hI.chain.cons hx hlater (.of_eq rfl)

/-- A row that was read is still there, at a later stage. -/
theorem Lifecycle.row_of_select {h : GkHistory} (hI : Lifecycle h) {i linkToken : Nat}
    {r : InboxRow} {pre : Db} (he : ⟨i, .selectByToken linkToken, some r, pre⟩ ∈ h.log) :
    r.linkToken = linkToken ∧ ∃ r' ∈ h.cur.inbox, r.Later r' := by
  obtain ⟨a, t, hx, hlater⟩ := hI.chain.cur _ he
  obtain ⟨hfind, rfl⟩ := Prod.mk.inj (Option.some.inj hx)
  have htoken := List.find?_some hfind
  exact ⟨by simpa using htoken, hlater r (List.mem_of_find?_eq_some hfind)⟩

/-! ## How a click ends -/

/-- What an audit row says happened to the row the click had read, by the click's own statements. -/
def Grounds (i : Nat) (click : Click) (p : Principal) (r : InboxRow) (own : List GkEvent) :
    ActionOutcome → Prop
  | .linkAlreadyUsed => r.linkConsumedAt ≠ none ∨
    ∃ choice by_ pre, ⟨i, .consumeLink r.id choice by_, none, pre⟩ ∈ own ∧
      ∃ r' ∈ pre.inbox, r.Later r'
  | .linkExpired => ∃ ans pre, ⟨i, .markExpired r.id, ans, pre⟩ ∈ own ∧ ∃ r' ∈ pre.inbox, r.Later r'
  | .approved => click.choice = .approve ∧
    ∃ row pre, ⟨i, .consumeLink r.id .approve p.decidedBy, some row, pre⟩ ∈ own
  | .rejected => click.choice = .reject ∧
    ∃ row pre, ⟨i, .consumeLink r.id .reject p.decidedBy, some row, pre⟩ ∈ own

/-- How a click ends, by what it has executed: without a principal or without a row, or with one
    audit row, for the row it had read, whose outcome has its grounds. -/
def Audit (i : Nat) (click : Click) : Except Exc ActionResponse → List GkEvent → Prop
  | .error _, own => click.principal = none ∨
    ∃ pre, ⟨i, .selectByToken click.linkToken, none, pre⟩ ∈ own
  | .ok resp, own => ∃ p r pre decisionId, click.principal = some p ∧
    ⟨i, .selectByToken click.linkToken, some r, pre⟩ ∈ own ∧
    own.filterMap actionRow = [⟨r.id, decisionId, resp.outcome, resp.reason, p.id, p.name⟩] ∧
    Grounds i click p r own resp.outcome

theorem Grounds.mono {i : Nat} {click : Click} {p : Principal} {r : InboxRow}
    {own own' : List GkEvent} (hl : ∀ e ∈ own, e ∈ own') {o : ActionOutcome}
    (hg : Grounds i click p r own o) : Grounds i click p r own' o := by
  cases o with
  | linkAlreadyUsed =>
    refine hg.imp_right fun ⟨choice, by_, pre, he, hr⟩ => ⟨choice, by_, pre, hl _ he, hr⟩
  | linkExpired =>
    obtain ⟨ans, pre, he, hr⟩ := hg
    exact ⟨ans, pre, hl _ he, hr⟩
  | approved | rejected =>
    obtain ⟨hc, row, pre, he⟩ := hg
    exact ⟨hc, row, pre, hl _ he⟩

section Click

variable {S : Settings} {i : Nat} {click : Click} {h : GkHistory}

/-- The routine `p` of request `i` is justified from `h` on, and ends in `Q`. -/
abbrev Clicks (S : Settings) (i : Nat) {α : Type} (p : Gk α)
    (Q : Except Exc α → GkHistory → Prop) (h : GkHistory) : Prop :=
  (historyRules Lifecycle Answered).wp (gatekeeper S).run i p Q h

/-- One statement of a click: it goes on the click's record. -/
theorem clicks_call {α : Type} {o : GkOp} {f : o.Res → Gk α} {Q : Except Exc α → GkHistory → Prop}
    (hok : ∀ h₁ h₂ (b : o.Res), Lifecycle h₁ → h₁.own i = h.own i →
      h₂.own i = ⟨i, o, b, h₁.cur⟩ :: h.own i → Clicks S i (f b) Q h₂) :
    Clicks S i ((call o).bind f) Q h := by
  refine wp_answered lifecycle_exec (fun _ _ _ _ ha => ha.1) fun h₁ a b t ho hI _ _ => ?_
  refine hok h₁ _ b hI ho.same ?_
  rw [History.own_self, ho.same]

/-- The audit row, and the answer. -/
theorem audit_spec {p : Principal} {r : InboxRow} {decisionId : Option Nat}
    {outcome : ActionOutcome} {reason : String} {resp : ActionResponse}
    (hp : click.principal = some p)
    (hsel : ∃ pre, ⟨i, .selectByToken click.linkToken, some r, pre⟩ ∈ h.own i)
    (hnone : (h.own i).filterMap actionRow = []) (hg : Grounds i click p r (h.own i) outcome)
    (hout : resp.outcome = outcome) (hreason : resp.reason = reason) :
    Clicks S i ((recordApprovalAction r.id decisionId outcome reason p).bind fun _ => .pure resp)
      (fun out h => Audit i click out (h.own i)) h := by
  subst hout hreason
  obtain ⟨pre, hsel⟩ := hsel
  refine clicks_call fun h₁ h₂ _ _ _ hown h₃ ho => ?_
  show Audit i click (.ok resp) (h₃.own i)
  rw [ho.same, hown]
  refine ⟨p, r, pre, decisionId, hp, List.mem_cons_of_mem _ hsel, ?_,
    hg.mono fun _ he => List.mem_cons_of_mem _ he⟩
  show ActionRow.mk r.id decisionId resp.outcome resp.reason p.id p.name ::
    (h.own i).filterMap actionRow = _
  rw [hnone]

/-- Every click that has ended has its audit. -/
theorem approvalAction_audit (hfresh : h.own i = []) :
    Clicks S i (approvalAction click) (fun out h => Audit i click out (h.own i)) h := by
  unfold approvalAction
  split
  · rename_i hp
    exact fun h' _ => .inl hp
  rename_i p hp
  refine clicks_call fun h₀ h₁ approval _ _ hown₁ => ?_
  rw [hfresh] at hown₁
  cases approval with
  | none => exact fun h' ho => .inr ⟨h₀.cur, by rw [ho.same, hown₁]; exact List.mem_cons_self⟩
  | some r =>
    -- what the later statements find of the row
    have hrow : ∀ {h : GkHistory}, Lifecycle h →
        ⟨i, .selectByToken click.linkToken, some r, h₀.cur⟩ ∈ h.own i →
        ∃ r' ∈ h.cur.inbox, r.Later r' :=
      fun hI he => (hI.row_of_select (History.mem_own.1 he).1).2
    simp only
    split
    · rename_i hused
      have hg : Grounds i click p r (h₁.own i) .linkAlreadyUsed := .inl hused
      refine audit_spec hp ⟨h₀.cur, ?_⟩ ?_ hg rfl rfl <;> rw [hown₁]
      · exact List.mem_cons_self
      · rfl
    refine clicks_call fun _ h₂ now _ _ hown₂ => ?_
    rw [hown₁] at hown₂
    split
    · -- expired
      refine clicks_call fun h₃ h₄ ans hI₃ hsame hown₄ => ?_
      rw [hown₂] at hsame hown₄
      have hg : Grounds i click p r (h₄.own i) .linkExpired := by
        rw [hown₄]
        exact ⟨ans, h₃.cur, List.mem_cons_self, hrow hI₃ (hsame ▸ by simp)⟩
      refine audit_spec hp ⟨h₀.cur, ?_⟩ ?_ hg rfl rfl <;> rw [hown₄]
      · simp
      · rfl
    refine clicks_call fun h₃ h₄ consumed hI₃ hsame hown₄ => ?_
    rw [hown₂] at hsame hown₄
    cases consumed with
    | none =>
      have hg : Grounds i click p r (h₄.own i) .linkAlreadyUsed := by
        rw [hown₄]
        exact .inr ⟨click.choice, p.decidedBy, h₃.cur, List.mem_cons_self, hrow hI₃ (hsame ▸ by simp)⟩
      refine audit_spec hp ⟨h₀.cur, ?_⟩ ?_ hg rfl rfl <;> rw [hown₄]
      · simp
      · rfl
    | some row =>
      refine clicks_call fun _ h₅ decision _ _ hown₅ => ?_
      refine clicks_call fun _ h₆ _ _ _ hown₆ => ?_
      rw [hown₅, hown₄] at hown₆
      have hg : Grounds i click p r (h₆.own i) click.choice.outcome := by
        rw [hown₆]
        cases hc : click.choice with
        | approve => exact ⟨hc, row, h₃.cur, by simp⟩
        | reject => exact ⟨hc, row, h₃.cur, by simp⟩
      refine audit_spec hp ⟨h₀.cur, ?_⟩ ?_ hg rfl rfl <;> rw [hown₆]
      · simp
      · rfl

end Click

/-- What the answer of a click says of its row. -/
def Told (click : Click) (p : Principal) (r : InboxRow) : ActionOutcome → Prop
  | .linkAlreadyUsed => r.linkConsumedAt ≠ none ∧ r.Decided
  | .linkExpired => r.status = .expired
  | .approved => click.choice = .approve ∧ r.status = .approved ∧ r.decidedBy = some p.decidedBy
  | .rejected => click.choice = .reject ∧ r.status = .rejected ∧ r.decidedBy = some p.decidedBy

/-- The row is what its consumption made of it. -/
theorem Lifecycle.row_of_consumed {h : GkHistory} (hI : Lifecycle h) {i id : Nat} {choice : Choice}
    {by_ : String} {row : InboxRow} {pre : Db}
    (he : ⟨i, .consumeLink id choice by_, some row, pre⟩ ∈ h.log) {r : InboxRow}
    (hr : r ∈ h.cur.inbox) (hid : r.id = id) :
    r.status = choice.status ∧ r.decidedBy = some by_ := by
  obtain ⟨a, t, hx, hlater⟩ := hI.chain.cur _ he
  obtain ⟨r₀, -, hid₀, -, hmem⟩ := consumed_after hx
  obtain ⟨r', hr', hl⟩ := hlater _ hmem
  obtain rfl := hI.wellFormed.eq_of_id hr hr' (by rw [hid, hl.id, ← hid₀]; rfl)
  have hsettled : r.status = choice.status := hl.settled (by cases choice <;> exact fun h => nomatch h)
  exact ⟨hsettled, (hl.used (fun h => nomatch h)).2⟩

/-- The grounds of an answer are what became of the row. -/
theorem Grounds.told {h : GkHistory} (hI : Lifecycle h) {i : Nat} {click : Click} {p : Principal}
    {r r' : InboxRow} {o : ActionOutcome} (hg : Grounds i click p r (h.own i) o)
    (hr' : r' ∈ h.cur.inbox) (hl : r.Later r') : Told click p r' o := by
  cases o with
  | approved =>
    obtain ⟨hc, row, pre, he⟩ := hg
    obtain ⟨hs, hby⟩ := hI.row_of_consumed (History.mem_own.1 he).1 hr' hl.id
    exact ⟨hc, hs, hby⟩
  | rejected =>
    obtain ⟨hc, row, pre, he⟩ := hg
    obtain ⟨hs, hby⟩ := hI.row_of_consumed (History.mem_own.1 he).1 hr' hl.id
    exact ⟨hc, hs, hby⟩
  | linkExpired =>
    obtain ⟨ans, pre, he, r₀, hr₀, hl₀⟩ := hg
    obtain ⟨hlog, -⟩ := History.mem_own.1 he
    obtain ⟨hw, hin⟩ := hI.inTime _ hlog
    obtain ⟨a, t, hx, hlater⟩ := hI.chain.cur _ hlog
    obtain ⟨r₁, hr₁, hid₁, hs₁⟩ := expired_after hw hin hx hr₀ hl₀.id
    obtain ⟨r₂, hr₂, hl₂⟩ := hlater r₁ hr₁
    obtain rfl := hI.wellFormed.eq_of_id hr' hr₂ (by rw [hl.id, hl₂.id, hid₁])
    exact (hl₂.settled (by rw [hs₁]; exact fun h => nomatch h)).trans hs₁
  | linkAlreadyUsed =>
    suffices hused : r'.linkConsumedAt ≠ none from ⟨hused, hI.decided r' hr' hused⟩
    rcases hg with hused | ⟨choice, by_, pre, he, r₀, hr₀, hl₀⟩
    · exact (hl.used hused).1
    · obtain ⟨a, t, hx, hlater⟩ := hI.chain.cur _ (History.mem_own.1 he).1
      obtain ⟨hin, hused⟩ := used_of_not_consumed hx
      obtain ⟨r₂, hr₂, hl₂⟩ := hlater r₀ (hin ▸ hr₀)
      obtain rfl := hI.wellFormed.eq_of_id hr' hr₂ (by rw [hl.id, hl₂.id, hl₀.id])
      exact (hl₂.used (hused r₀ hr₀ hl₀.id)).1

/-- Two consumptions of one row are one. -/
theorem Lifecycle.consumed_once {h : GkHistory} (hI : Lifecycle h) {i j id : Nat}
    {choice choice' : Choice} {by_ by' : String} {row row' : InboxRow} {pre pre' : Db}
    (he : ⟨i, .consumeLink id choice by_, some row, pre⟩ ∈ h.log)
    (he' : ⟨j, .consumeLink id choice' by', some row', pre'⟩ ∈ h.log) : i = j := by
  -- what one consumption leaves, the other cannot have found
  have habsurd : ∀ {i j choice choice' by_ by' row row' pre pre'},
      ⟨j, .consumeLink id choice' by', some row', pre'⟩ ∈ h.log →
      Followed (fun _ o => exec o) Later
        (⟨i, .consumeLink id choice by_, some row, pre⟩ : GkEvent) pre' → 
      Followed (fun _ o => exec o) Later
        (⟨j, .consumeLink id choice' by', some row', pre'⟩ : GkEvent) h.cur → False := by
    intro i j choice choice' by_ by' row row' pre pre' hj hf hf'
    obtain ⟨a, t, hx, hlater⟩ := hf
    obtain ⟨a', t', hx', -⟩ := hf'
    obtain ⟨r, -, hid, -, hmem⟩ := consumed_after hx
    obtain ⟨r', hr', hid', hopen, -⟩ := consumed_after hx'
    obtain ⟨r₂, hr₂, hl⟩ := hlater _ hmem
    obtain rfl := (hI.inTime _ hj).1.eq_of_id hr' hr₂ (by rw [hid', hl.id, ← hid]; rfl)
    exact (hl.used (fun h => nomatch h)).1 hopen
  rcases hI.chain.total he he' with heq | hf | hf
  · exact congrArg Event.who heq
  · exact (habsurd he' hf (hI.chain.cur _ he')).elim
  · exact (habsurd he hf (hI.chain.cur _ he)).elim

/-! ## Runs -/

/-- Every statement is answered, and the two writes of a click are in time. -/
def Orderly (c : GkConfig) : GkAct → Prop
  | .step i f => ∀ o ∈ c.next i, (f o).answers = true ∧ InTime c.shared.cur o
  | _ => True

instance (c : GkConfig) : (a : GkAct) → Decidable (Orderly c a)
  | .step i f => inferInstanceAs
    (Decidable (∀ o ∈ c.next i, (f o).answers = true ∧ InTime c.shared.cur o))
  | .enter _ _ | .crash _ | .env _ => .isTrue trivial

/-- How a request ends: clicks with their audit. -/
def EndsAudited (i : Nat) : GkRequest → Except Exc GkResponse → GkHistory → Prop
  | .approvalAction click, .ok (.approvalAction resp), h => Audit i click (.ok resp) (h.own i)
  | .approvalAction click, .error e, h => Audit i click (.error e) (h.own i)
  | .approvalAction _, .ok _, _ => False
  | _, _, _ => True

theorem lifecycle_of_reach {S : Settings} {c : GkConfig}
    (hr : (gatekeeper S).Reach Orderly GkConfig.start c) :
    Lifecycle c.shared ∧ ∀ i r p, c.thread i = some (r, some p) →
      Clicks S i p (EndsAudited i r) c.shared := by
  refine Sys.Reach.sound_recorded ?_ ?_ ?_ ?_ ?_ hr
  · exact ⟨.empty, fun _ h => absurd h List.not_mem_nil, rfl, fun _ h => absurd h List.not_mem_nil,
      .nil⟩
  · exact fun h i r hI => ⟨hI.wellFormed, hI.decided, hI.actions, hI.inTime, hI.chain.cur,
      hI.chain.log⟩
  · intro c m t _ hI hm
    have hsame : t.inbox = c.shared.cur.inbox ∧ t.actions = c.shared.cur.actions := by
      cases m <;> (obtain rfl := Option.some.inj hm; exact ⟨rfl, rfl⟩)
    exact ⟨hI.wellFormed.move hm, fun r hr => hI.decided r (hsame.1 ▸ hr),
      hsame.2.trans hI.actions, hI.inTime, hI.chain.move (.of_eq hsame.1)⟩
  · intro c i f r o k hok hi
    refine hok o ?_
    rw [Config.next, hi]
    rfl
  · intro i r h _ hfresh _
    have hown : h.own i = [] := List.filter_eq_nil_iff.2 fun e he => by simpa using hfresh e he
    cases r with
    | approvalAction click =>
      refine Rules.wp.bind ((approvalAction_audit hown).mono fun out h' hout => ?_)
      cases out with
      | ok resp =>
        intro h'' ho
        show Audit i click (.ok resp) (h''.own i)
        rw [ho.same]
        exact hout
      | error e => exact hout
    | gateCheck r => exact (wp_trivial lifecycle_exec).mono fun _ _ _ => trivial
    | approvalStatus q => exact (wp_trivial lifecycle_exec).mono fun _ _ _ => trivial

/-- What one act does to each row. -/
theorem act_step {S : Settings} {c : GkConfig} {a : GkAct} (ha : Orderly c a) :
    ∀ r ∈ c.shared.cur.inbox, ∃ r' ∈ ((gatekeeper S).exec c a).shared.cur.inbox,
      r.Later r' ∧ InTimeChange c.shared.cur.now r r' := by
  let P (c' : GkConfig) : Prop := ∀ r ∈ c.shared.cur.inbox, ∃ r' ∈ c'.shared.cur.inbox,
    r.Later r' ∧ InTimeChange c.shared.cur.now r r'
  have hsame : ∀ c' : GkConfig, c'.shared.cur.inbox = c.shared.cur.inbox → P c' :=
    fun c' heq r hr => ⟨r, heq ▸ hr, .refl r, fun hne => absurd rfl hne⟩
  refine Sys.exec_cases (P := P) a (hsame c rfl) ?_ ?_ ?_ ?_
  · intro i r s _ _ hs
    obtain ⟨-, rfl⟩ := recorded_enter hs
    exact hsame _ rfl
  · rintro i f r o k out s rfl hi hs
    obtain ⟨-, hin⟩ := ha o (by rw [Config.next, hi]; rfl)
    rcases recorded_apply hs with ⟨-, rfl⟩ | ⟨a, b, t, -, hx, rfl⟩
    · exact hsame _ rfl
    · exact row_step hin hx
  · exact fun i r p _ _ => hsame _ rfl
  · intro m s _ hs
    obtain ⟨t, ht, rfl⟩ := recorded_env hs
    refine hsame _ ?_
    cases m <;> (obtain rfl := Option.some.inj ht; rfl)

/-- A row stays, and once it has left `pending` it keeps its status, however the run goes on. -/
theorem later_of_reach {S : Settings} {c c' : GkConfig}
    (hr : (gatekeeper S).Reach Orderly c c') : Later c.shared.cur c'.shared.cur := by
  induction hr with
  | init => exact .of_eq rfl
  | act a _ ha ih =>
    refine IsTrans.trans _ _ _ ih fun r hr => ?_
    obtain ⟨r', hr', hl, -⟩ := act_step ha r hr
    exact ⟨r', hr', hl⟩

/-- The click was told that it decided. -/
def ActionOutcome.decides (o : ActionOutcome) : Prop := o = .approved ∨ o = .rejected

/-- The life of an approval link, in every run whose statements are answered and whose link writes
    are in time.  A row that has left `pending` keeps its status; a row is decided only while pending
    and before its expiry; at most one click on a link is told that it decided; and every click that
    has ended, unless it was not signed in or found no such link, has appended exactly one row to
    `approval_actions`, under its own principal and with an outcome that is true of the row. -/
theorem link_lifecycle {S : Settings} {c : GkConfig}
    (hr : (gatekeeper S).Reach Orderly GkConfig.start c) :
    (∀ c', (gatekeeper S).Reach Orderly c c' → ∀ r ∈ c.shared.cur.inbox,
      ∃ r' ∈ c'.shared.cur.inbox, r'.id = r.id ∧ (r.status ≠ .pending → r'.status = r.status)) ∧
    (∀ a, Orderly c a → ∀ r ∈ c.shared.cur.inbox,
      ∃ r' ∈ ((gatekeeper S).exec c a).shared.cur.inbox, r'.id = r.id ∧
        (r'.status ≠ r.status → r.status = .pending ∧
          (r'.status = .expired ∨ c.shared.cur.now < r.expiresAt))) ∧
    (∀ i j click click' resp resp', c.result i = some (.approvalAction click, .ok (.approvalAction resp)) →
      c.result j = some (.approvalAction click', .ok (.approvalAction resp')) →
      resp.outcome.decides → resp'.outcome.decides → click.linkToken = click'.linkToken → i = j) ∧
    c.shared.cur.actions = c.shared.log.filterMap actionRow ∧
    ∀ i click out, c.result i = some (.approvalAction click, out) →
      (click.principal = none ∨
        ∃ pre, ⟨i, .selectByToken click.linkToken, none, pre⟩ ∈ c.shared.log) ∨
      ∃ resp p r decisionId, out = .ok (.approvalAction resp) ∧ click.principal = some p ∧
        r ∈ c.shared.cur.inbox ∧ r.linkToken = click.linkToken ∧
        (c.shared.own i).filterMap actionRow =
          [⟨r.id, decisionId, resp.outcome, resp.reason, p.id, p.name⟩] ∧
        Told click p r resp.outcome := by
  obtain ⟨hI, hT⟩ := lifecycle_of_reach hr
  have haudit : ∀ i click resp, c.result i = some (.approvalAction click, .ok (.approvalAction resp)) →
      Audit i click (.ok resp) (c.shared.own i) :=
    fun i click resp hi => hT i _ _ (Config.thread_of_result_ok hi) c.shared .refl
  refine ⟨?_, ?_, ?_, hI.actions, ?_⟩
  · intro c' hr' r hrow
    obtain ⟨r', hr', hl⟩ := later_of_reach hr' r hrow
    exact ⟨r', hr', hl.id, hl.settled⟩
  · intro a ha r hrow
    obtain ⟨r', hr', hl, hin⟩ := act_step ha r hrow
    exact ⟨r', hr', hl.id, hin⟩
  · intro i j click click' resp resp' hi hj hdec hdec' htoken
    have hwon : ∀ i click resp,
        c.result i = some (.approvalAction click, .ok (.approvalAction resp)) → resp.outcome.decides →
        ∃ r ∈ c.shared.cur.inbox, r.linkToken = click.linkToken ∧ ∃ choice by_ row pre,
          ⟨i, .consumeLink r.id choice by_, some row, pre⟩ ∈ c.shared.log := by
      intro i click resp hi hdec
      obtain ⟨p, r, pre, d, hp, hsel, -, hg⟩ := haudit i click resp hi
      obtain ⟨htok, r', hr', hl⟩ := hI.row_of_select (History.mem_own.1 hsel).1
      refine ⟨r', hr', hl.linkToken.trans htok, ?_⟩
      rw [hl.id]
      rcases hdec with ho | ho
      · rw [ho] at hg
        obtain ⟨-, row, pre, he⟩ := hg
        exact ⟨_, _, row, pre, (History.mem_own.1 he).1⟩
      · rw [ho] at hg
        obtain ⟨-, row, pre, he⟩ := hg
        exact ⟨_, _, row, pre, (History.mem_own.1 he).1⟩
    obtain ⟨r, hr, ht, _, _, _, _, he⟩ := hwon i click resp hi hdec
    obtain ⟨r', hr', ht', _, _, _, _, he'⟩ := hwon j click' resp' hj hdec'
    obtain rfl := hI.wellFormed.eq_of_token hr hr' (by rw [ht, ht', htoken])
    exact hI.consumed_once he he'
  · intro i click out hi
    cases out with
    | error e =>
      refine .inl ?_
      rcases hT i _ _ (Config.thread_of_result_error hi) c.shared .refl with hp | ⟨pre, he⟩
      · exact .inl hp
      · exact .inr ⟨pre, (History.mem_own.1 he).1⟩
    | ok resp =>
      cases resp with
      | approvalAction resp =>
        obtain ⟨p, r, pre, d, hp, hsel, hrow, hg⟩ := haudit i click resp hi
        obtain ⟨htok, r', hr', hl⟩ := hI.row_of_select (History.mem_own.1 hsel).1
        exact .inr ⟨resp, p, r', d, rfl, hp, hr', hl.linkToken.trans htok, hl.id ▸ hrow,
          hg.told hI hr' hl⟩
      | gateCheck resp | approvalStatus resp =>
        exact (hT i _ _ (Config.thread_of_result_ok hi) c.shared .refl).elim

/-- A row that is approved, and a second click that is told so. -/
def approvedOnce : List GkAct :=
  raising 0 7 ++ clicking 1 7 .approve "user-1" 6 ++ clicking 2 7 .reject "user-2" 2

/-- It stays approved. -/
theorem link_lifecycle_of_approved :
    (∀ r ∈ (endOf approvedOnce).shared.cur.inbox, r.status = .approved) ∧
    ∀ c', (gatekeeper oneRequestSettings).Reach Orderly (endOf approvedOnce) c' →
      ∀ r ∈ (endOf approvedOnce).shared.cur.inbox, ∃ r' ∈ c'.shared.cur.inbox, r'.id = r.id ∧
        (r.status ≠ .pending → r'.status = r.status) :=
  ⟨by decide +kernel,
    (link_lifecycle (Sys.Reach.foldl approvedOnce .init (by decide +kernel))).1⟩

/-! ## Two clicks around the expiry

    The first click reads the row and the clock before the expiry; a second one, after it, marks the
    row expired; then the first one consumes the link. -/

def acrossExpiry : List GkAct :=
  raising 0 7 ++ clicking 1 7 .approve "user-1" 2 ++ .env (.tick 86401) ::
    clicking 2 7 .approve "user-2" 4

/-- The second click has ended; the row is expired. -/
def beforeApproval : GkConfig := endOf acrossExpiry

/-- The first click has ended as well; the row is approved. -/
def afterApproval : GkConfig := (steps 1 4).foldl (gatekeeper oneRequestSettings).exec beforeApproval

theorem afterApproval_reach :
    (gatekeeper oneRequestSettings).Reach Sys.free beforeApproval afterApproval :=
  Sys.Reach.foldl_free (c := beforeApproval) (steps 1 4) .init

/-- The row was expired, and is approved afterwards, after its expiry; the second click was told, and
    has it on the audit, that the link expired. -/
theorem approved_after_expiry :
    (gatekeeper oneRequestSettings).Reach Sys.free GkConfig.start beforeApproval ∧
    (gatekeeper oneRequestSettings).Reach Sys.free beforeApproval afterApproval ∧
    beforeApproval.shared.cur.inbox.map (fun r => (r.id, r.status)) = [(1, .expired)] ∧
    afterApproval.shared.cur.inbox.map (fun r => (r.id, r.status)) = [(1, .approved)] ∧
    (∀ r ∈ beforeApproval.shared.cur.inbox, r.expiresAt ≤ beforeApproval.shared.cur.now) ∧
    (∃ click, afterApproval.result 1 = some (.approvalAction click, .ok (.approvalAction
      ⟨.approved, reasonApproved, 1, some 2, some "user-1"⟩))) ∧
    (∃ click, afterApproval.result 2 = some (.approvalAction click, .ok (.approvalAction
      ⟨.linkExpired, reasonLinkExpired, 1, none, none⟩))) ∧
    afterApproval.shared.cur.actions.map (·.outcome) = [.approved, .linkExpired] :=
  ⟨endOf_reach acrossExpiry, afterApproval_reach, by decide +kernel, by decide +kernel, by decide +kernel, ⟨⟨7, .approve, some ⟨"user-1", none⟩⟩, by decide +kernel⟩,
    ⟨⟨7, .approve, some ⟨"user-2", none⟩⟩, by decide +kernel⟩, by decide +kernel⟩

end CanvasOS.Gatekeeper
