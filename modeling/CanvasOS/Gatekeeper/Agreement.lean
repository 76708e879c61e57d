/-
  The two reads of an approval.

  `GET /approval-status` reads the newest row of a triple, `latest_approved` the approved ones, and
  the publish sweep asks the first before it mints through the second.  Several rows of one triple
  may exist: two gate checks can both find no approval and both insert a pending row.

  1. `ReadsAgree` — the status read says `approved` exactly when `latest_approved` has a row.
  2. `Agreed` — the same as a property of the table: where a triple has an approved row, its newest
     rows are approved.
  3. `Keeps` — what a statement has to find for the agreement to survive it, and nothing less
     (`agreed_iff`): an insertion finds no approval of its triple; an approving click is on the newest
     row, or the newest is approved already.
  4. `reads_agree` — the agreement in every run whose statements find that; `approved_yet_pending` —
     a run in which a click approves the older of two rows, and the approval is reported `pending`.
-/
import CanvasOS.Lib.RelyGuarantee
import CanvasOS.Gatekeeper.Inbox

namespace CanvasOS.Gatekeeper

open Interleave Python Governance

/-- The status read has an answer on this inbox, and every answer it may give says `approved`
    exactly when `latest_approved` may answer with a row. -/
def ReadsAgree (inbox : List InboxRow) (t : Triple) : Prop :=
  (∃ row, latestAnyStatus inbox t row = true) ∧
  ∀ row, latestAnyStatus inbox t row = true →
    ((StatusResponse.ofRow row).status = some .approved ↔
      ∃ r, latestApproved inbox t (some r) = true)

/-- No row of the triple of `s` was created after `s`. -/
def Newest (inbox : List InboxRow) (s : InboxRow) : Prop :=
  ∀ l ∈ inbox, l.triple = s.triple → l.createdAt ≤ s.createdAt

/-- Where a triple has an approved row, its newest rows are approved. -/
def Agreed (inbox : List InboxRow) : Prop :=
  ∀ r ∈ inbox, r.status = .approved → ∀ s ∈ inbox, s.triple = r.triple → Newest inbox s →
    s.status = .approved

/-! ## The reads -/

theorem latestAnyStatus_some {inbox : List InboxRow} {t : Triple} {s : InboxRow} :
    latestAnyStatus inbox t (some s) = true ↔ s ∈ inbox ∧ s.triple = t ∧ Newest inbox s := by
  unfold latestAnyStatus
  rw [Table.selects_some]
  simp only [beq_iff_eq, InboxRow.newer, decide_eq_false_iff_not, Nat.not_lt, Newest]
  constructor
  · rintro ⟨hs, rfl, hnew⟩
    exact ⟨hs, rfl, hnew⟩
  · rintro ⟨hs, rfl, hnew⟩
    exact ⟨hs, rfl, hnew⟩

theorem exists_latestAnyStatus (inbox : List InboxRow) (t : Triple) :
    ∃ row, latestAnyStatus inbox t row = true := by
  refine Table.exists_selects (fun r => ?_) fun a b c hab hbc => ?_
  · simp [InboxRow.newer]
  · simp only [InboxRow.newer, decide_eq_true_eq] at hab hbc ⊢
    exact Nat.lt_trans hbc hab

theorem decidedBefore_irrefl (r : InboxRow) : r.decidedBefore r = false := by
  unfold InboxRow.decidedBefore
  cases r.decidedAt <;> simp

theorem decidedBefore_trans {a b c : InboxRow} (hab : a.decidedBefore b = true)
    (hbc : b.decidedBefore c = true) : a.decidedBefore c = true := by
  unfold InboxRow.decidedBefore at *
  cases ha : a.decidedAt <;> cases hb : b.decidedAt <;> cases hc : c.decidedAt <;>
    simp_all <;> omega

/-- `latest_approved` has a row exactly when some row of the triple is approved. -/
theorem exists_latestApproved {inbox : List InboxRow} {t : Triple} :
    (∃ r, latestApproved inbox t (some r) = true) ↔
      ∃ r ∈ inbox, r.triple = t ∧ r.status = .approved := by
  constructor
  · rintro ⟨r, hr⟩
    obtain ⟨hmem, hp, -⟩ := Table.selects_some.1 hr
    simp only [Bool.and_eq_true, beq_iff_eq] at hp
    exact ⟨r, hmem, hp⟩
  · rintro ⟨r, hr, ht, hs⟩
    have hex : ∃ answer, latestApproved inbox t answer = true :=
      Table.exists_selects decidedBefore_irrefl fun _ _ _ => decidedBefore_trans
    obtain ⟨answer, hanswer⟩ := hex
    cases answer with
    | none =>
      have hnone := Table.selects_none.1 hanswer r hr
      simp [ht, hs] at hnone
    | some r => exact ⟨r, hanswer⟩

/-- The table property is the agreement of the reads. -/
theorem agreed_iff_reads {inbox : List InboxRow} : Agreed inbox ↔ ∀ t, ReadsAgree inbox t := by
  constructor
  · intro h t
    refine ⟨exists_latestAnyStatus inbox t, fun row hrow => ?_⟩
    rw [exists_latestApproved]
    cases row with
    | none =>
      have hnone := Table.selects_none.1 hrow
      constructor
      · intro hs
        cases hs
      · rintro ⟨r, hr, ht, -⟩
        exact absurd (hnone r hr) (by simp [ht])
    | some s =>
      obtain ⟨hs, ht, hnew⟩ := latestAnyStatus_some.1 hrow
      constructor
      · intro hst
        exact ⟨s, hs, ht, Option.some.inj hst⟩
      · rintro ⟨r, hr, hrt, hrs⟩
        exact congrArg some (h r hr hrs s hs (ht.trans hrt.symm) hnew)
  · intro h r hr hrs s hs hst hnew
    have hread := (h s.triple).2 (some s) (latestAnyStatus_some.2 ⟨hs, rfl, hnew⟩)
    exact Option.some.inj (hread.2 (exists_latestApproved.2 ⟨r, hr, hst.symm, hrs⟩))

/-! ## The writes -/

/-- What a statement has to find in the inbox for the agreement to survive it. -/
def Keeps (db : Db) : GkOp → Prop
  | .insertInbox n => ∀ r ∈ db.inbox, r.triple = n.triple → r.status ≠ .approved
  | .consumeLink id .approve _ => ∀ r ∈ db.inbox, r.id = id → r.linkConsumedAt = none →
    ∀ s ∈ db.inbox, s.triple = r.triple → Newest db.inbox s → s = r ∨ s.status = .approved
  | _ => True

instance (inbox : List InboxRow) (s : InboxRow) : Decidable (Newest inbox s) :=
  inferInstanceAs (Decidable (∀ l ∈ inbox, l.triple = s.triple → l.createdAt ≤ s.createdAt))

instance (db : Db) : (o : GkOp) → Decidable (Keeps db o)
  | .insertInbox n =>
    inferInstanceAs (Decidable (∀ r ∈ db.inbox, r.triple = n.triple → r.status ≠ .approved))
  | .consumeLink id .approve _ =>
    inferInstanceAs (Decidable (∀ r ∈ db.inbox, r.id = id → r.linkConsumedAt = none →
      ∀ s ∈ db.inbox, s.triple = r.triple → Newest db.inbox s → s = r ∨ s.status = .approved))
  | .consumeLink _ .reject _ | .selectActiveSwitches _ | .insertGateDecision _ _ _ _ | .selectLatestApproved _
  | .selectLatestAnyStatus _ | .utcNow | .generateLinkToken | .teamsWebhookUrl
  | .postAdaptiveCard _ _ | .issueGateToken _ _ _ _ | .selectByToken _ | .markExpired _
  | .backLink _ _ | .insertAction _ => .isTrue trivial

/-- An update that keeps triples, creation times and approvals leaves the agreement as it was. -/
theorem agreed_update {inbox : List InboxRow} {p : InboxRow → Bool} {f : InboxRow → InboxRow}
    (ht : ∀ r, (f r).triple = r.triple) (hc : ∀ r, (f r).createdAt = r.createdAt)
    (hs : ∀ r ∈ inbox, p r = true → ((f r).status = .approved ↔ r.status = .approved)) :
    Agreed (Table.update inbox p f).2 ↔ Agreed inbox := by
  -- the row an old row became, which is approved exactly if the old one was
  have hnew : ∀ r ∈ inbox, ∃ r' ∈ (Table.update inbox p f).2, r'.triple = r.triple ∧
      r'.createdAt = r.createdAt ∧ (r'.status = .approved ↔ r.status = .approved) := by
    intro r hr
    rcases Table.exists_mem_update rfl hr with ⟨hp, hr'⟩ | ⟨-, hr'⟩
    · exact ⟨f r, hr', ht r, hc r, hs r hr hp⟩
    · exact ⟨r, hr', rfl, rfl, Iff.rfl⟩
  have hold : ∀ r' ∈ (Table.update inbox p f).2, ∃ r ∈ inbox, r'.triple = r.triple ∧
      r'.createdAt = r.createdAt ∧ (r'.status = .approved ↔ r.status = .approved) := by
    intro r' hr'
    rcases Table.mem_update rfl hr' with ⟨r, hr, hp, rfl⟩ | ⟨hr, -⟩
    · exact ⟨r, hr, ht r, hc r, hs r hr hp⟩
    · exact ⟨r', hr, rfl, rfl, Iff.rfl⟩
  constructor
  · intro h r hr hrs s hs hst hnewest
    obtain ⟨r', hr', hrt, -, hra⟩ := hnew r hr
    obtain ⟨s', hs', hst', hsc, hsa⟩ := hnew s hs
    refine hsa.1 (h r' hr' (hra.2 hrs) s' hs' (by rw [hst', hst, hrt]) fun l' hl' hlt => ?_)
    obtain ⟨l, hl, hlt', hlc, -⟩ := hold l' hl'
    rw [hlc, hsc]
    exact hnewest l hl (by rw [← hlt', hlt, hst'])
  · intro h r' hr' hrs s' hs' hst hnewest
    obtain ⟨r, hr, hrt, -, hra⟩ := hold r' hr'
    obtain ⟨s, hs, hst', hsc, hsa⟩ := hold s' hs'
    refine hsa.2 (h r hr (hra.1 hrs) s hs (by rw [← hst', hst, hrt]) fun l hl hlt => ?_)
    obtain ⟨l', hl', hlt', hlc, -⟩ := hnew l hl
    rw [← hlc, ← hsc]
    exact hnewest l' hl' (by rw [hlt', hlt, hst'])

/-- A new row is the newest of its triple, and pending. -/
theorem agreed_insert {db : Db} (hw : WellFormed db) (hin : Agreed db.inbox) (n : NewInboxRow) :
    Agreed (n.toRow db.nextId db.now :: db.inbox) ↔ Keeps db (.insertInbox n) := by
  have hnewest : Newest (n.toRow db.nextId db.now :: db.inbox) (n.toRow db.nextId db.now) := by
    intro l hl _
    rcases List.mem_cons.1 hl with rfl | hl
    · exact Nat.le_refl _
    · exact hw.created l hl
  constructor
  · intro h r hr ht hs
    have hpending := h r (List.mem_cons_of_mem _ hr) hs _ List.mem_cons_self ht.symm hnewest
    cases hpending
  · intro h r hr hrs s hs hst hsnew
    rcases List.mem_cons.1 hr with rfl | hr
    · cases hrs
    rcases List.mem_cons.1 hs with rfl | hs
    · exact absurd hrs (h r hr hst.symm)
    · exact hin r hr hrs s hs hst fun l hl => hsnew l (List.mem_cons_of_mem _ hl)

/-- The approval of an open row is the newest word on its triple, or the newest row had it. -/
theorem agreed_approve {db : Db} (hw : WellFormed db) (hin : Agreed db.inbox) (id : Nat)
    (by_ : String) :
    Agreed (Table.update db.inbox (fun r => r.id == id && r.linkConsumedAt == none)
        (·.consumed .approved by_ db.now)).2 ↔ Keeps db (.consumeLink id .approve by_) := by
  let p : InboxRow → Bool := fun r => r.id == id && r.linkConsumedAt == none
  let f : InboxRow → InboxRow := (·.consumed .approved by_ db.now)
  have hmatch : ∀ r : InboxRow, p r = true ↔ r.id = id ∧ r.linkConsumedAt = none :=
    fun r => by simp [p]
  show Agreed (Table.update db.inbox p f).2 ↔ _
  constructor
  · intro h r hr hid hnone s hs hst hnewest
    by_cases hsid : s.id = id
    · exact .inl (hw.eq_of_id hs hr (hsid.trans hid.symm))
    · right
      obtain ⟨-, hr'⟩ | ⟨hp, -⟩ := Table.exists_mem_update (p := p) (f := f) rfl hr
      swap
      · rw [(hmatch r).2 ⟨hid, hnone⟩] at hp
        cases hp
      obtain ⟨hp, -⟩ | ⟨-, hs'⟩ := Table.exists_mem_update (p := p) (f := f) rfl hs
      · exact absurd ((hmatch s).1 hp).1 hsid
      refine h _ hr' rfl s hs' hst fun l hl hlt => ?_
      rcases Table.mem_update rfl hl with ⟨l₀, hl₀, -, rfl⟩ | ⟨hl, -⟩
      · exact hnewest l₀ hl₀ hlt
      · exact hnewest l hl hlt
  · intro h r hr hrs s hs hst hnewest
    rcases Table.mem_update rfl hs with ⟨s₀, hs₀, -, rfl⟩ | ⟨hs₀, hps⟩
    · rfl
    -- the newest row, which the click left alone, was the newest before
    have hnewest₀ : Newest db.inbox s := by
      intro l hl hlt
      rcases Table.exists_mem_update (p := p) (f := f) rfl hl with ⟨-, hl'⟩ | ⟨-, hl'⟩
      · exact hnewest (f l) hl' hlt
      · exact hnewest l hl' hlt
    rcases Table.mem_update rfl hr with ⟨r₀, hr₀, hpr, rfl⟩ | ⟨hr₀, -⟩
    · obtain ⟨hid, hnone⟩ := (hmatch r₀).1 hpr
      rcases h r₀ hr₀ hid hnone s hs₀ hst hnewest₀ with rfl | happ
      · rw [hpr] at hps
        cases hps
      · exact happ
    · exact hin r hr₀ hrs s hs₀ hst hnewest₀

/-- A consumed link decides its row; nothing else of it, and no other row, changes. -/
theorem agreed_consume {db : Db} (hw : WellFormed db) (hin : Agreed db.inbox) (id : Nat)
    (choice : Choice) (by_ : String) :
    Agreed (Table.update db.inbox (fun r => r.id == id && r.linkConsumedAt == none)
        (·.consumed choice.status by_ db.now)).2 ↔ Keeps db (.consumeLink id choice by_) := by
  cases choice with
  | reject =>
    -- a row whose link is open is not approved
    have hsame : ∀ r ∈ db.inbox, (r.id == id && r.linkConsumedAt == none) = true →
        ((r.consumed .rejected by_ db.now).status = .approved ↔ r.status = .approved) := by
      intro r hr hp
      simp only [Bool.and_eq_true, beq_iff_eq] at hp
      refine iff_of_false (fun h => nomatch h) fun hs => ?_
      rcases hw.undecided r hr hp.2 with h | h <;> rw [hs] at h <;> cases h
    exact iff_of_true ((agreed_update (f := (·.consumed .rejected by_ db.now)) (fun _ => rfl)
      (fun _ => rfl) hsame).2 hin) trivial
  | approve => exact agreed_approve hw hin id by_

/-- A statement keeps the agreement exactly when it finds what it has to. -/
theorem agreed_iff {o : GkOp} {a b : o.Res} {db t : Db} (hw : WellFormed db) (hin : Agreed db.inbox)
    (hx : exec o a db = some (b, t)) : Agreed t.inbox ↔ Keeps db o := by
  cases (exec_inbox hx).1 with
  | same _ ho h =>
    rw [h]
    refine iff_of_true hin ?_
    cases o <;> trivial
  | inserted n h =>
    rw [h]
    exact agreed_insert hw hin n
  | consumed id choice by_ h =>
    rw [h]
    exact agreed_consume hw hin id choice by_
  | expired id h =>
    have hsame : ∀ r ∈ db.inbox, (r.id == id && r.status == .pending) = true →
        (InboxStatus.expired = .approved ↔ r.status = .approved) := by
      intro r _ hp
      simp only [Bool.and_eq_true, beq_iff_eq] at hp
      exact iff_of_false (fun h => nomatch h) (by simp [hp.2])
    rw [h]
    exact iff_of_true ((agreed_update (f := fun r => { r with status := .expired })
      (fun _ => rfl) (fun _ => rfl) hsame).2 hin) trivial
  | linked id decision h =>
    rw [h]
    exact iff_of_true ((agreed_update (f := fun r => { r with gateDecisionId := some decision })
      (fun _ => rfl) (fun _ => rfl) fun _ _ _ => Iff.rfl).2 hin) trivial

/-! ## Runs -/

/-- The act is no statement, or one that does not execute, or one that finds what it has to. -/
def Undisturbed (c : GkConfig) : GkAct → Prop
  | .step i f => ∀ o ∈ c.next i, (f o).executes = true → Keeps c.shared.cur o
  | _ => True

instance (c : GkConfig) : (a : GkAct) → Decidable (Undisturbed c a)
  | .step i f => inferInstanceAs
    (Decidable (∀ o ∈ c.next i, (f o).executes = true → Keeps c.shared.cur o))
  | .enter _ _ | .crash _ | .env _ => .isTrue trivial

/-- In every run whose insertions find no approval of their triple, and whose approving clicks are
    on the newest row (or the newest is approved already), the two reads agree at every moment. -/
theorem reads_agree {S : Settings} {c : GkConfig}
    (hr : (gatekeeper S).Reach Undisturbed GkConfig.start c) (t : Triple) :
    ReadsAgree c.shared.cur.inbox t := by
  suffices h : WellFormed c.shared.cur ∧ Agreed c.shared.cur.inbox from agreed_iff_reads.1 h.2 t
  let I (h : GkHistory) : Prop := WellFormed h.cur ∧ Agreed h.cur.inbox
  have h₀ : I ⟨Db.empty, [], []⟩ := ⟨.empty, fun _ h => absurd h List.not_mem_nil⟩
  refine hr.shared_invariant (I := I) h₀ ?_ ?_ ?_
  · intro c i r h _ hI hs
    obtain ⟨-, rfl⟩ := recorded_enter hs
    exact hI
  · intro c i f r o k out h hok hi hI hs
    have hnext : c.next i = some o := by
      unfold Config.next
      rw [hi]
    rcases recorded_apply hs with ⟨-, rfl⟩ | ⟨a, b, t, hf, hx, rfl⟩
    · exact hI
    · exact ⟨hI.1.exec hx, (agreed_iff hI.1 hI.2 hx).2 (hok o hnext hf)⟩
  · intro c m h _ hI hm
    obtain ⟨t, ht, rfl⟩ := recorded_env hm
    refine ⟨hI.1.move ht, ?_⟩
    cases m <;> (obtain rfl := Option.some.inj ht; exact hI.2)

theorem reads_agree_of_one_row :
    ReadsAgree (endOf (raising 0 7 ++ clicking 1 7 .approve "user-1" 6)).shared.cur.inbox oneTriple :=
  reads_agree (Sys.Reach.foldl (raising 0 7 ++ clicking 1 7 .approve "user-1" 6) .init (by decide +kernel)) _

/-! ## The older of two rows is approved

    Two checks of one request, a minute apart, raise two rows; a user approves the first. -/

namespace OlderApproved

def last : GkConfig := endOf (raising 0 7 ++ .env (.tick 60) :: raising 1 8 ++ clicking 2 7 .approve "user-1" 6)

/-- The row of the second check, which nobody decided, and the approved one. -/
def second : InboxRow :=
  ⟨3, some 2, oneTriple, "publish", 1, "schedule-social (publish)", none,
    evidenceSummary oneRequest, .pending, none, none, 8, none, 86460, 60⟩

def first : InboxRow :=
  ⟨1, some 4, oneTriple, "publish", 1, "schedule-social (publish)", none,
    evidenceSummary oneRequest, .approved, some "user-1", some 60, 7, some 60, 86400, 0⟩

end OlderApproved

/-- A user approved the request, `latest_approved` has the approval, and the status read can only
    say `pending`. -/
theorem approved_yet_pending :
    (gatekeeper oneRequestSettings).Reach Sys.free GkConfig.start OlderApproved.last ∧
    latestApproved OlderApproved.last.shared.cur.inbox oneTriple
      (some OlderApproved.first) = true ∧
    latestAnyStatus OlderApproved.last.shared.cur.inbox oneTriple
      (some OlderApproved.second) = true ∧
    (StatusResponse.ofRow (some OlderApproved.second)).status = some .pending ∧
    ¬ ReadsAgree OlderApproved.last.shared.cur.inbox oneTriple := by
  have happroved : latestApproved OlderApproved.last.shared.cur.inbox oneTriple
      (some OlderApproved.first) = true := by decide +kernel
  have hnewest : latestAnyStatus OlderApproved.last.shared.cur.inbox oneTriple
      (some OlderApproved.second) = true := by decide +kernel
  refine ⟨endOf_reach _, happroved, hnewest, rfl, fun h => ?_⟩
  have hread := (h.2 _ hnewest).2 ⟨_, happroved⟩
  cases hread

end CanvasOS.Gatekeeper
