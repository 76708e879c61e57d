/-
  An uncleared client reference and the retry loop.

  1. `NeverRetried` — once a review has recorded the code that must not be retried, the draft is not
     regenerated any more, and neither review task is COMPLETED with `"pass": true`.
  2. `Heeded` — when this is so: no review comes to a verdict that overlooks the code once it is
     recorded, and none that has done so is still running, or has passed, when it is recorded.
  3. `uncleared_retried_away` — each review looks at its own violations only.  So the other review,
     whose verdict does not name the code, starts the retry loop, and the loop completes both.
-/
import CanvasOS.Dispatch.Reviewing

namespace CanvasOS.Dispatch

open Interleave Python Orchestrator Review

/-- The verdict this check comes to overlooks the code. -/
def Call.overlooks (D : DraftReviews) (P : Policies) : Call → Bool
  | .brandRules violations draftText =>
    overlooked D (reconcileViolations P.unicode violations draftText).1
  | _ => false

/-- Once the code is recorded, nothing is regenerated and nothing passes. -/
def NeverRetried (D : DraftReviews) (h : ReviewHistory) : Prop :=
  ∀ later e earlier, h.log = later ++ e :: earlier → e.op.records = true →
    (∀ e' ∈ later, e'.op.regenerates = false) ∧ ∀ kind, ¬ Passed h.cur (D.task kind)

/-- The condition on the next statement `o` of thread `i`. -/
structure HeededStmt (D : DraftReviews) (P : Policies) (c : ReviewConfig) (i : Nat) (o : Call) :
    Prop where
  /-- a verdict does not overlook a code that is recorded -/
  verdict : o.overlooks D P = true → ∀ e ∈ c.shared.log, e.op.records = false
  /-- the code is recorded when the other review has not passed -/
  passed : ∀ taskId ref, o = .db (.setResultRef taskId ref) → recordsCode ref = true →
    ∀ kind, D.task kind ≠ taskId → ¬ Passed c.shared.cur (D.task kind)
  /-- and no other running review has overlooked it -/
  running : o.records = true → ∀ x ∈ c.shared.arrived, x.1 ≠ i → c.Running x.1 →
    ∀ e ∈ c.shared.log, e.who = x.1 → e.op.overlooks D P = false

/-- It is met by a step. -/
def Heeded (D : DraftReviews) (P : Policies) (c : ReviewConfig) :
    Act Call Call.Res Failure Nat ReviewCall { f : World → World // ∀ w, Elsewhere D w (f w) } →
      Prop
  | .step i _ => ∀ r o k, c.thread i = some (r, some (.op o k)) → HeededStmt D P c i o
  | _ => True

/-- The code is recorded. -/
def Recorded (h : ReviewHistory) : Prop := ∃ e ∈ h.log, e.op.records = true

/-! ## The invariant -/

structure Heeding (D : DraftReviews) (P : Policies) (c : ReviewConfig) : Prop where
  standing : Standing D c.shared
  arrived : ∀ i r p, c.thread i = some (r, p) → i ∈ c.shared.arrived.map Prod.fst
  told : ∀ i, ∀ entry ∈ c.shared.heard i, Overlooks D entry → entry.1.overlooks D P = true
  /-- whoever is still running and has overlooked the code has recorded it himself -/
  running : Recorded c.shared → ∀ i, c.Running i →
    (∃ entry ∈ c.shared.heard i, entry.1.overlooks D P = true) →
      ∃ entry ∈ c.shared.heard i, entry.1.records = true
  after : ∀ later e earlier, c.shared.log = later ++ e :: earlier → e.op.records = true →
    ∀ e' ∈ later, e'.op.regenerates = false
  blocked : Recorded c.shared → ∀ kind, ¬ Passed c.shared.cur (D.task kind)

section Heeding

variable {D : DraftReviews} {P : Policies} {c : ReviewConfig} {i : Nat} {r : ReviewCall}

/-- Where the code is recorded, no running review may do what only an overlooking one may. -/
theorem Heeding.not_undetected (hK : Heeding D P c) (hrec : Recorded c.shared)
    (hrun : c.Running i) : ¬ Undetected D (c.shared.heard i) := by
  rintro ⟨⟨entry, hmem, hover⟩, hunsaid⟩
  obtain ⟨entry', hmem', hrecords⟩ :=
    hK.running hrec i hrun ⟨entry, hmem, hK.told i entry hmem hover⟩
  rw [hunsaid entry' hmem'] at hrecords
  cases hrecords

/-- A thread goes on from where it is running, or dies. -/
theorem Heeding.put {p q : Option (Prog Call Call.Res Failure Unit)} (hK : Heeding D P c)
    (hi : c.thread i = some (r, p)) (hq : ∀ q', q = some q' → c.Running i) :
    Heeding D P (c.put c.shared i r q) := by
  refine ⟨hK.standing, fun j r' p hj => ?_, hK.told, fun hrec j hrun => hK.running hrec j ?_,
    hK.after, hK.blocked⟩
  · rcases Config.put_thread.1 hj with ⟨rfl, -, -⟩ | ⟨-, hj⟩
    · exact hK.arrived j _ _ hi
    · exact hK.arrived j r' p hj
  · obtain ⟨r', o', k', hj⟩ := hrun
    rcases Config.put_thread.1 hj with ⟨rfl, -, hq'⟩ | ⟨-, hj⟩
    · exact hq _ hq'
    · exact ⟨r', o', k', hj⟩

theorem mem_log_of_heard {h : ReviewHistory} {entry : Entry} (hmem : entry ∈ h.heard i) :
    ∃ e ∈ h.log, e.who = i ∧ e.op = entry.1 := by
  obtain ⟨o, b⟩ := entry
  obtain ⟨pre, hmem⟩ := History.mem_heard.1 hmem
  exact ⟨_, hmem, rfl, rfl⟩

variable {o : Call} {k : Except Failure o.Res → Routine Unit} {a b : o.Res} {t : World}
  {q : Prog Call Call.Res Failure Unit}

/-- An executed statement that meets the condition keeps the invariant. -/
theorem Heeding.step (hok : HeededStmt D P c i o) (hK : Heeding D P c)
    (hi : c.thread i = some (r, some (.op o k))) (hx : exec P o a c.shared.cur = some (b, t))
    (hp : Proper D (c.shared.heard i) ⟨o, b⟩) :
    Heeding D P (c.put (c.shared.after i o b t) i r (some q)) := by
  have hrun : c.Running i := ⟨r, o, k, hi⟩
  have hexpected := hK.standing.expected (i := i) hx
  -- a recorded code is old, unless it is this statement that records it
  have hold : o.records = false → Recorded (c.shared.after i o b t) → Recorded c.shared := by
    rintro ho ⟨e, he, hrec⟩
    rcases List.mem_cons.1 he with rfl | he
    · rw [ho] at hrec
      cases hrec
    · exact ⟨e, he, hrec⟩
  refine ⟨hK.standing.after hx hp, ?_, ?_, ?_, ?_, ?_⟩
  · intro j r' p hj
    rcases Config.put_thread.1 hj with ⟨rfl, -, -⟩ | ⟨-, hj⟩
    · exact hK.arrived j _ _ hi
    · exact hK.arrived j r' p hj
  · intro j entry hmem hover
    rw [Config.put_shared, History.heard_after] at hmem
    split at hmem
    · rcases List.mem_cons.1 hmem with rfl | hmem
      · -- the answer of the check is the one that the condition speaks about
        cases o with
        | brandRules violations draftText =>
          have hb : b = reconcileViolations P.unicode violations draftText := hexpected
          have hover : overlooked D b.1 = true := hover
          rw [hb] at hover
          exact hover
        | _ => exact hover.elim
      · exact hK.told i entry hmem hover
    · exact hK.told j entry hmem hover
  · intro hrec j hrunning hover
    have hj : c.Running j := by
      obtain ⟨r', o', k', hj⟩ := hrunning
      rcases Config.put_thread.1 hj with ⟨rfl, -, -⟩ | ⟨-, hj⟩
      · exact hrun
      · exact ⟨r', o', k', hj⟩
    rw [Config.put_shared, History.heard_after] at hover ⊢
    split at hover
    · next hji =>
      rw [if_pos hji]
      cases ho : o.records with
      | true => exact ⟨_, List.mem_cons_self, ho⟩
      | false =>
        obtain ⟨entry, hmem, hover⟩ := hover
        rcases List.mem_cons.1 hmem with rfl | hmem
        · -- it was recorded before this verdict
          obtain ⟨e, he, hrec⟩ := hold ho hrec
          rw [hok.verdict hover e he] at hrec
          cases hrec
        · obtain ⟨entry', hmem', hrec'⟩ := hK.running (hold ho hrec) i hrun ⟨entry, hmem, hover⟩
          exact ⟨entry', List.mem_cons_of_mem _ hmem', hrec'⟩
    · next hji =>
      rw [if_neg hji]
      cases ho : o.records with
      | true =>
        obtain ⟨entry, hmem, hover⟩ := hover
        obtain ⟨e, he, hwho, hop⟩ := mem_log_of_heard hmem
        obtain ⟨r', o', k', hjt⟩ := hj
        obtain ⟨x, hx, rfl⟩ := List.mem_map.1 (hK.arrived j _ _ hjt)
        have hnot := hok.running ho x hx hji ⟨r', o', k', hjt⟩ e he hwho
        rw [hop, hover] at hnot
        cases hnot
      | false => exact hK.running (hold ho hrec) j hj hover
  · intro later e earlier heq hrec e' he'
    cases later with
    | nil => cases he'
    | cons x later =>
      have heq : ⟨i, o, b, c.shared.cur⟩ :: c.shared.log = x :: (later ++ e :: earlier) := heq
      obtain ⟨rfl, htail⟩ := List.cons.inj heq
      rcases List.mem_cons.1 he' with rfl | he'
      · have hrec : Recorded c.shared := ⟨e, by rw [htail]; simp, hrec⟩
        cases hregen : o.regenerates with
        | false => rfl
        | true =>
          cases o with
          | complete request => exact absurd (hp hregen) (hK.not_undetected hrec hrun)
          | _ => cases hregen
      · exact hK.after later e earlier htail hrec e' he'
  · intro hrec kind hpassed
    rcases passed_after hx hp.no_batch hpassed with ⟨ref, rfl, hpass⟩ | ⟨reason, rfl⟩ |
        ⟨hwas, hother⟩
    · have hrecords : (Call.db (.setResultRef (D.task kind) ref)).records = false :=
        recordsCode_of_pass hpass
      exact hK.not_undetected (hold hrecords hrec) hrun ((hp.2 (D.apart kind)).2 hpass).1
    · exact hK.not_undetected (hold rfl hrec) hrun (hp rfl).1
    · cases ho : o.records with
      | false => exact hK.blocked (hold ho hrec) kind hwas
      | true =>
        cases o with
        | db query =>
          cases query with
          | setResultRef taskId ref =>
            refine hok.passed taskId ref rfl ho kind (fun hid => ?_) hwas
            exact hother ref (by rw [hid])
          | _ => cases ho
        | _ => cases ho

end Heeding

/-- In every run that meets the condition, an uncleared client reference is never retried away. -/
theorem uncleared_never_retried {D : DraftReviews} {P : Policies} {w₀ : World} {c : ReviewConfig}
    (hw : Laid D w₀) (hr : (reviewing D P).Reach (Heeded D P) (.idle ⟨w₀, [], []⟩) c) :
    NeverRetried D c.shared := by
  have h₀ : Heeding D P (.idle ⟨w₀, [], []⟩) := by
    refine ⟨⟨hw, by rintro i ref ⟨⟩, by rintro i _ _ _ _ _ _ _ ⟨⟩⟩, by rintro i r p ⟨⟩,
      by rintro i _ ⟨⟩, ?_, ?_, ?_⟩
    · rintro ⟨e, he, -⟩
      cases he
    · intro later e earlier heq
      simp [Config.idle] at heq
    · rintro ⟨e, he, -⟩
      cases he
  have hK : Heeding D P c := by
    refine Sys.Reach.sound_own (fun r => body_conducts D P r) h₀ ?_ ?_ ?_ ?_ ?_ ?_ hr
    · intro c i r _ hK hi hnil _
      refine ⟨⟨hK.standing.laid, hK.standing.sights, hK.standing.created⟩, fun j r' p hj => ?_,
        hK.told, fun hrec j hrun hover => ?_, hK.after, hK.blocked⟩
      · rcases Config.put_thread.1 hj with ⟨rfl, -, -⟩ | ⟨-, hj⟩
        · exact List.mem_cons_self
        · exact List.mem_cons_of_mem _ (hK.arrived j r' p hj)
      · obtain ⟨r', o', k', hj⟩ := hrun
        rcases Config.put_thread.1 hj with ⟨rfl, -, -⟩ | ⟨-, hj⟩
        · obtain ⟨entry, hmem, -⟩ := hover
          have hmem : entry ∈ c.shared.heard j := hmem
          rw [hnil] at hmem
          cases hmem
        · exact hK.running hrec j ⟨r', o', k', hj⟩ hover
    · exact fun c i r o k e hK hi => hK.put hi fun _ _ => ⟨r, o, k, hi⟩
    · exact fun c i r p hK hi => hK.put hi (by rintro _ ⟨⟩)
    · exact fun c i r o k a b t hK hi hx => hK.standing.expected hx
    · exact fun c i f r o k out a b t hok _ hK hi hx hJ => hK.step (hok r o k hi) hi hx hJ.1
    · intro c e w' _ hK hw'
      obtain rfl := Option.some.inj hw'
      have he : Elsewhere D c.shared.cur (e.1 c.shared.cur) := e.2 c.shared.cur
      exact ⟨hK.standing.elsewhere he, hK.arrived, hK.told, hK.running, hK.after,
        fun hrec kind hpassed => hK.blocked hrec kind (hpassed.elsewhere he)⟩
  exact fun later e earlier heq hrec => ⟨hK.after later e earlier heq hrec,
    hK.blocked ⟨e, by rw [heq]; simp, hrec⟩⟩

/-! ## Two runs -/

section Drive

variable (D : DraftReviews) (P : Policies) (model : String → Option String → Object)

/-- The condition, checked where nothing has passed yet. -/
def heeds (c : ReviewConfig) (i : Nat) (o : Call) : Bool :=
  (!o.overlooks D P || c.shared.log.all fun e => !e.op.records) &&
  (!o.records || ((c.shared.cur.tables.tasks.all fun row => !passedRow row) &&
    c.shared.arrived.all fun x => x.1 == i ||
      c.shared.log.all fun e => e.who != x.1 || !e.op.overlooks D P))

/-- Every statement of the run passes the check. -/
def heedsAlong (c : ReviewConfig) : List Nat → Bool
  | [] => true
  | i :: order =>
    (match c.thread i with
      | some (_, some (.op o _)) => heeds D P c i o
      | _ => true) &&
      heedsAlong ((reviewing D P).exec c (reviewAct D model c i)) order

variable {D P model}

theorem heededStmt_of_heeds {c : ReviewConfig} {i : Nat} {o : Call} (h : heeds D P c i o = true) :
    HeededStmt D P c i o := by
  simp only [heeds, Bool.and_eq_true, Bool.or_eq_true, Bool.not_eq_true', List.all_eq_true,
    beq_iff_eq, bne_iff_ne] at h
  obtain ⟨hverdict, hrecords⟩ := h
  refine ⟨fun hover => ?_, fun taskId ref ho hcode kind _ hpassed => ?_,
    fun ho x hx hxi _ e he hwho => ?_⟩
  · exact hverdict.resolve_left (by rw [hover]; decide)
  · subst ho
    obtain ⟨row, hrow, -, hp⟩ := hpassed
    have hcode : (Call.db (.setResultRef taskId ref)).records = true := hcode
    have hnone := (hrecords.resolve_left (by rw [hcode]; decide)).1 row hrow
    rw [hp] at hnone
    cases hnone
  · have hnone := (hrecords.resolve_left (by rw [ho]; decide)).2 x hx
    exact ((hnone.resolve_left hxi) e he).resolve_left (not_not_intro hwho)

theorem heeded_drive {w : World} {c : ReviewConfig} {order : List Nat}
    (hc : (reviewing D P).Reach (Heeded D P) (.idle ⟨w, [], []⟩) c)
    (h : heedsAlong D P model c order = true) :
    (reviewing D P).Reach (Heeded D P) (.idle ⟨w, [], []⟩) (drive D P model c order) := by
  induction order generalizing c with
  | nil => exact hc
  | cons i order ih =>
    rw [heedsAlong, Bool.and_eq_true] at h
    refine ih (.act _ hc fun r o k hi => ?_) h.2
    have hstmt := h.1
    rw [hi] at hstmt
    exact heededStmt_of_heeds hstmt

end Drive

/-- The client that the post names has not cleared it. -/
def clientPolicies : Policies := ⟨Unicode.ascii, [⟨"Acme", [], "pending"⟩], true⟩

/-- Both reviews find the name, and both record it. -/
def bothRecorded : ReviewConfig :=
  drive postReviews clientPolicies (postModel [] []) (bothCalled clientPolicies)
    (List.replicate 30 0 ++ List.replicate 30 1)

theorem bothRecorded_reach : (reviewing postReviews clientPolicies).Reach
    (Heeded postReviews clientPolicies) (.idle ⟨postWorld, [], []⟩) bothRecorded := by
  have hcalled : (reviewing postReviews clientPolicies).Reach (Heeded postReviews clientPolicies)
      (.idle ⟨postWorld, [], []⟩) (bothCalled clientPolicies) := by
    rw [bothCalled, List.foldl_cons, List.foldl_cons, List.foldl_nil]
    exact .act _ (.act _ .init trivial) trivial
  exact heeded_drive hcalled (by decide +kernel)

theorem never_retried_when_both_find_it : NeverRetried postReviews bothRecorded.shared :=
  uncleared_never_retried postWorld_laid bothRecorded_reach

/-- The brand steward finds the reference and records it.  Then the fact check finds something
    else. -/
def retriedAway : ReviewConfig :=
  drive postReviews plainPolicies (postModel [violationCode] ["fabricated-proof-point"])
    (bothCalled plainPolicies) (List.replicate 25 0 ++ List.replicate 120 1)

theorem uncleared_retried_away : ¬ ∀ (D : DraftReviews) (P : Policies) (w₀ : World)
    (c : ReviewConfig), Laid D w₀ → (reviewing D P).Reach Sys.free (.idle ⟨w₀, [], []⟩) c →
      NeverRetried D c.shared := by
  intro h
  have hnever := h postReviews plainPolicies postWorld retriedAway postWorld_laid
    (drive_reach _ _ _ (bothCalled_reach _) _)
  have hrecorded : ∃ e ∈ retriedAway.shared.log, e.op.records = true := by decide +kernel
  obtain ⟨e, hmem, hrec⟩ := hrecorded
  obtain ⟨later, earlier, heq⟩ := List.append_of_mem hmem
  have hpassed : Passed retriedAway.shared.cur (postReviews.task .factCheck) := by
    unfold Passed
    decide +kernel
  exact (hnever later e earlier heq hrec).2 .factCheck hpassed

end CanvasOS.Dispatch
