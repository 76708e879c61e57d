/-
  What both reviews passed, and what Friday puts up for approval.

  1. `SameBytes` — the review tasks name the asset and the hash that the draft names now, and this
     hash is the one that is put to `gate-check`.
  2. `Undisturbed` — when this is so: a regenerated draft is stored while no review has passed and no
     other running review has read the draft.
  3. `stale_pass` — the advisory lock keeps failing reviews apart only.  A review that passes writes
     what it has read, whatever has become of the draft since.
-/
import CanvasOS.Dispatch.Reviewing
import CanvasOS.Publication.Schedule

namespace CanvasOS.Publication

open Interleave Python Orchestrator Review Dispatch

/-- The two name the same asset with the same hash. -/
def Agree (ref ref' : ResultRef) : Prop :=
  Json.get ref "vault_asset_id" = Json.get ref' "vault_asset_id" ∧
    Json.get ref "content_hash" = Json.get ref' "content_hash"

/-- The gates of a draft: its review tasks. -/
def GateOf (D : DraftReviews) (taskId : TaskId) : Prop := ∃ kind, taskId = D.task kind

/-- Both review tasks are COMPLETED with `"pass": true`. -/
def BothPassed (D : DraftReviews) (w : Dispatch.World) : Prop :=
  ∀ kind, Passed w (D.task kind) ∧
    ∀ row ∈ w.tables.tasks, row.taskId = D.task kind → passedRow row = true

/-- Both gates passed the bytes that the draft names now, and these are put up for approval. -/
structure SameBytes (D : DraftReviews) (w : Dispatch.World) : Prop where
  reviews : ∀ draft ∈ w.tables.tasks, draft.taskId = D.draft →
    ∃ ref, draft.resultRef = some ref ∧ ∀ row ∈ w.tables.tasks, GateOf D row.taskId →
      ∃ ref', row.resultRef = some ref' ∧ Agree ref' ref
  gated : ∀ draft ∈ w.tables.tasks, draft.taskId = D.draft → ∀ ref, draft.resultRef = some ref →
    ∀ friday out log, (∀ row ∈ w.tables.tasks, row.taskId = friday → ∀ dep ∈ row.dependsOn,
        GateOf D dep) →
      Ends (scheduleSocialBuffer friday) [] out log → ReadFrom w log →
        PutsUp (textOf (Json.get ref "content_hash")) log

/-- No review has passed, and no running review but `i` has read the draft. -/
structure UndisturbedStmt (D : DraftReviews) (c : ReviewConfig) (i : Nat) : Prop where
  passed : ∀ kind, ¬ Passed c.shared.cur (D.task kind)
  running : ∀ x ∈ c.shared.arrived, x.1 ≠ i → c.Running x.1 → sight D (c.shared.heard x.1) = none

/-- It is met by a step that stores a regenerated draft. -/
def Undisturbed (D : DraftReviews) (c : ReviewConfig) :
    Act Call Call.Res Failure Nat ReviewCall
      { f : Dispatch.World → Dispatch.World // ∀ w, Elsewhere D w (f w) } →
      Prop
  | .step i _ => ∀ r ref k, c.thread i = some (r, some (.op (.db (.setResultRef D.draft ref)) k)) →
    UndisturbedStmt D c i
  | _ => True

/-! ## The invariant -/

/-- Where the row says `"pass": true`, it names what the draft names. -/
def Fresh (D : DraftReviews) (w : Dispatch.World) (taskId : TaskId) : Prop :=
  ∀ row ∈ w.tables.tasks, row.taskId = taskId → ∀ ref, row.resultRef = some ref →
    Json.get ref "pass" = .bool true → ∀ draft ∈ w.tables.tasks, draft.taskId = D.draft →
      ∀ ref', draft.resultRef = some ref' → Agree ref ref'

/-- The draft's `result_ref` is this one. -/
def Current (D : DraftReviews) (w : Dispatch.World) (ref : ResultRef) : Prop :=
  ∀ draft ∈ w.tables.tasks, draft.taskId = D.draft → draft.resultRef = some ref

structure Binding (D : DraftReviews) (c : ReviewConfig) : Prop where
  standing : Standing D c.shared
  arrived : ∀ i r p, c.thread i = some (r, p) → i ∈ c.shared.arrived.map Prod.fst
  /-- whoever has settled a review has seen the draft -/
  sighted : ∀ i kind, Settled D (D.task kind) (c.shared.heard i) →
    sight D (c.shared.heard i) ≠ none
  /-- what a running review has seen of the draft is still so -/
  current : ∀ i, c.Running i → ∀ ref, sight D (c.shared.heard i) = some ref →
    Current D c.shared.cur ref
  settled : ∀ i, c.Running i → ∀ kind, Settled D (D.task kind) (c.shared.heard i) →
    Fresh D c.shared.cur (D.task kind)
  passed : ∀ kind, Passed c.shared.cur (D.task kind) → Fresh D c.shared.cur (D.task kind)

section Binding

variable {D : DraftReviews} {P : Policies} {c : ReviewConfig} {i : Nat} {r : ReviewCall}

/-- A thread goes on from where it is running, or dies. -/
theorem Binding.put {p q : Option (Prog Call Call.Res Failure Unit)} (hB : Binding D c)
    (hi : c.thread i = some (r, p)) (hq : ∀ q', q = some q' → c.Running i) :
    Binding D (c.put c.shared i r q) := by
  have hrunning : ∀ j, (c.put c.shared i r q).Running j → c.Running j := by
    rintro j ⟨r', o', k', hj⟩
    rcases Config.put_thread.1 hj with ⟨rfl, -, hq'⟩ | ⟨-, hj⟩
    · exact hq _ hq'
    · exact ⟨r', o', k', hj⟩
  refine ⟨hB.standing, fun j r' p hj => ?_, hB.sighted,
    fun j hrun => hB.current j (hrunning j hrun), fun j hrun => hB.settled j (hrunning j hrun),
    hB.passed⟩
  rcases Config.put_thread.1 hj with ⟨rfl, -, -⟩ | ⟨-, hj⟩
  · exact hB.arrived j _ _ hi
  · exact hB.arrived j r' p hj

variable {o : Call} {k : Except Failure o.Res → Routine Unit} {a b : o.Res} {w t : Dispatch.World}
  {q : Prog Call Call.Res Failure Unit} {ref : ResultRef} {kind : ReviewKind} {log : List Entry}

/-- A statement that does not store the draft leaves its `result_ref`. -/
theorem Current.after (hx : exec P o a w = some (b, t))
    (hbatch : ∀ tasks, o ≠ .db (.insertTaskBatch tasks))
    (hdraft : ∀ ref, o ≠ .db (.setResultRef D.draft ref)) :
    ∀ draft' ∈ t.tables.tasks, draft'.taskId = D.draft → ∃ draft ∈ w.tables.tasks,
      draft.taskId = D.draft ∧ draft.resultRef = draft'.resultRef := by
  intro draft' hmem hid
  obtain ⟨draft, hdraft', hafter⟩ := exec_rows hx hbatch draft' hmem
  have hid' : draft.taskId = D.draft := hafter.taskId.symm.trans hid
  refine ⟨draft, hdraft', hid', ?_⟩
  rw [hafter.resultRef]
  cases o with
  | db q =>
    cases q with
    | setResultRef taskId ref =>
      have hne : draft.taskId ≠ taskId := fun heq => hdraft ref (by rw [← heq, hid'])
      exact (if_neg hne).symm
    | _ => rfl
  | _ => rfl

/-- A review's row is as fresh as it was, or as what is written to it. -/
theorem Fresh.after (hx : exec P o a w = some (b, t))
    (hbatch : ∀ tasks, o ≠ .db (.insertTaskBatch tasks))
    (hdraft : ∀ ref, o ≠ .db (.setResultRef D.draft ref))
    (hwrite : ∀ ref, o = .db (.setResultRef (D.task kind) ref) → Json.get ref "pass" = .bool true →
      ∃ seen, Current D w seen ∧ Agree ref seen)
    (h : (∃ ref, o = .db (.setResultRef (D.task kind) ref)) ∨ Fresh D w (D.task kind)) :
    Fresh D t (D.task kind) := by
  intro row' hrow' hid ref href hpass draft' hdraft' hid' ref' href'
  obtain ⟨row, hrow, hafter⟩ := exec_rows hx hbatch row' hrow'
  obtain ⟨draft, hmem, hidd, hrefd⟩ := Current.after hx hbatch hdraft draft' hdraft' hid'
  have hidr : row.taskId = D.task kind := hafter.taskId.symm.trans hid
  rw [hafter.resultRef] at href
  by_cases hset : ∃ ref, o = .db (.setResultRef (D.task kind) ref)
  · obtain ⟨ref₁, rfl⟩ := hset
    have hnew : (Call.db (.setResultRef (D.task kind) ref₁)).refAfter row = some ref₁ := if_pos hidr
    rw [hnew] at href
    obtain rfl := Option.some.inj href
    obtain ⟨seen, hcurrent, hagree⟩ := hwrite _ rfl hpass
    have hseen := hcurrent draft hmem hidd
    rw [hrefd, href'] at hseen
    rw [Option.some.inj hseen]
    exact hagree
  · have hsame : o.refAfter row = row.resultRef := by
      cases o with
      | db q =>
        cases q with
        | setResultRef taskId ref₁ =>
          exact if_neg fun heq => hset ⟨ref₁, by rw [← hidr, heq]⟩
        | _ => rfl
      | _ => rfl
    rw [hsame] at href
    exact (h.resolve_left hset) row hrow hidr ref href hpass draft hmem hidd ref' (hrefd.trans href')

/-- Whoever has written a review's row, and has not stored a draft since, has read the draft. -/
theorem sighted_after (hs : Standing D c.shared) (hx : exec P o a c.shared.cur = some (b, t))
    (hp : Proper D (c.shared.heard i) ⟨o, b⟩)
    (h : Settled D (D.task kind) (c.shared.heard i) → sight D (c.shared.heard i) ≠ none)
    (hset : Settled D (D.task kind) (⟨o, b⟩ :: c.shared.heard i)) :
    sight D (⟨o, b⟩ :: c.shared.heard i) ≠ none := by
  cases o with
  | db query =>
    cases query with
    | setResultRef taskId ref =>
      have hne : taskId ≠ D.draft := by
        rintro rfl
        rcases hset with heq | ⟨hne, -⟩
        · exact D.apart kind heq.symm
        · exact hne rfl
      have hsight : sight D (⟨.db (.setResultRef taskId ref), b⟩ :: c.shared.heard i) =
          sight D (c.shared.heard i) := if_neg hne
      rw [hsight]
      exact Option.isSome_iff_ne_none.1 (hp.2 hne).1
    | getTasks ids =>
      unfold sight
      cases hfind : b.find? fun row => row.taskId == D.draft with
      | none => exact h hset
      | some row =>
        obtain ⟨hmem, hid⟩ := find_taskId hfind
        obtain ⟨ref, -, -, hdraft⟩ := hs.laid.draft
        dsimp only
        rw [(hdraft row (mem_of_getTasks hx row hmem) hid).2.2]
        exact Option.some_ne_none ref
    | _ => exact h hset
  | _ => exact h hset

/-- What a review has just learnt of the draft is so. -/
theorem current_after (hs : Standing D c.shared) (hx : exec P o a c.shared.cur = some (b, t))
    (hbatch : ∀ tasks, o ≠ .db (.insertTaskBatch tasks))
    (hdraft : ∀ ref, o ≠ .db (.setResultRef D.draft ref))
    (h : ∀ ref, sight D (c.shared.heard i) = some ref → Current D c.shared.cur ref)
    (hsight : sight D (⟨o, b⟩ :: c.shared.heard i) = some ref) : Current D c.shared.cur ref := by
  cases o with
  | db query =>
    cases query with
    | setResultRef taskId ref₁ =>
      have hne : taskId ≠ D.draft := fun heq => hdraft ref₁ (by rw [heq])
      have hsame : sight D (⟨.db (.setResultRef taskId ref₁), b⟩ :: c.shared.heard i) =
          sight D (c.shared.heard i) := if_neg hne
      exact h ref (hsame ▸ hsight)
    | getTasks ids =>
      unfold sight at hsight
      cases hfind : b.find? fun row => row.taskId == D.draft with
      | none =>
        rw [hfind] at hsight
        exact h ref hsight
      | some row =>
        rw [hfind] at hsight
        obtain ⟨hmem, hid⟩ := find_taskId hfind
        obtain ⟨ref₁, -, -, hlaid⟩ := hs.laid.draft
        have hrow := (hlaid row (mem_of_getTasks hx row hmem) hid).2.2
        dsimp only at hsight
        rw [hrow] at hsight
        obtain rfl := Option.some.inj hsight
        exact fun draft hdraft hid => (hlaid draft hdraft hid).2.2
    | _ => exact h ref hsight
  | _ => exact h ref hsight

/-- Where no one else has read the draft and nothing has passed, it may be replaced. -/
theorem Binding.regenerate (hok : UndisturbedStmt D c i) (hB : Binding D c)
    {k : Except Failure Unit → Routine Unit} {a b : Unit}
    (hi : c.thread i = some (r, some (.op (.db (.setResultRef D.draft ref)) k)))
    (hx : exec P (.db (.setResultRef D.draft ref)) a c.shared.cur = some (b, t))
    (hp : Proper D (c.shared.heard i) ⟨.db (.setResultRef D.draft ref), b⟩) :
    Binding D (c.put (c.shared.after i (.db (.setResultRef D.draft ref)) b t) i r (some q)) := by
  have hrow := exec_rows hx hp.no_batch
  have hunsettled : ∀ kind, ¬ Settled D (D.task kind)
      (⟨.db (.setResultRef D.draft ref), b⟩ :: c.shared.heard i) := by
    rintro kind (heq | ⟨hne, -⟩)
    · exact D.apart kind heq.symm
    · exact hne rfl
  -- another running review has seen nothing
  have hother : ∀ j, j ≠ i →
      (c.put (c.shared.after i (.db (.setResultRef D.draft ref)) b t) i r (some q)).Running j →
      sight D (c.shared.heard j) = none := by
    rintro j hji ⟨r', o', k', hj⟩
    rcases Config.put_thread.1 hj with ⟨rfl, -, -⟩ | ⟨-, hj⟩
    · exact absurd rfl hji
    · obtain ⟨x, hmem, rfl⟩ := List.mem_map.1 (hB.arrived j _ _ hj)
      exact hok.running x hmem hji ⟨r', o', k', hj⟩
  refine ⟨hB.standing.after hx hp, ?_, ?_, ?_, ?_, ?_⟩
  · intro j r' p hj
    rcases Config.put_thread.1 hj with ⟨rfl, -, -⟩ | ⟨-, hj⟩
    · exact hB.arrived j _ _ hi
    · exact hB.arrived j r' p hj
  · intro j kind hset
    rw [Config.put_shared, History.heard_after] at hset ⊢
    split at hset
    · exact absurd hset (hunsettled kind)
    · next hji =>
      rw [if_neg hji]
      exact hB.sighted j kind hset
  · intro j hrun ref' hsight
    rw [Config.put_shared, History.heard_after] at hsight
    split at hsight
    · have hnew : sight D (⟨.db (.setResultRef D.draft ref), b⟩ :: c.shared.heard i) = some ref :=
        if_pos rfl
      rw [hnew] at hsight
      obtain rfl := Option.some.inj hsight
      intro draft' hmem hid
      obtain ⟨draft, -, hafter⟩ := hrow draft' hmem
      rw [hafter.resultRef]
      exact if_pos (hafter.taskId.symm.trans hid)
    · next hji =>
      rw [hother j hji hrun] at hsight
      cases hsight
  · intro j hrun kind hset
    rw [Config.put_shared, History.heard_after] at hset
    split at hset
    · exact absurd hset (hunsettled kind)
    · next hji => exact absurd (hother j hji hrun) (hB.sighted j kind hset)
  · intro kind hpassed
    rcases passed_after hx hp.no_batch hpassed with ⟨ref', heq, -⟩ | ⟨reason, heq⟩ | ⟨hwas, -⟩
    · exact absurd (Query.setResultRef.inj (Call.db.inj heq)).1.symm (D.apart kind)
    · cases heq
    · exact absurd hwas (hok.passed kind)

/-- Every other statement keeps the reviews bound to the draft. -/
theorem Binding.step (hB : Binding D c) (hi : c.thread i = some (r, some (.op o k)))
    (hx : exec P o a c.shared.cur = some (b, t)) (hp : Proper D (c.shared.heard i) ⟨o, b⟩)
    (hdraft : ∀ ref, o ≠ .db (.setResultRef D.draft ref)) :
    Binding D (c.put (c.shared.after i o b t) i r (some q)) := by
  have hrun : c.Running i := ⟨r, o, k, hi⟩
  have hwas : ∀ j, (c.put (c.shared.after i o b t) i r (some q)).Running j → c.Running j := by
    rintro j ⟨r', o', k', hj⟩
    rcases Config.put_thread.1 hj with ⟨rfl, -, -⟩ | ⟨-, hj⟩
    · exact hrun
    · exact ⟨r', o', k', hj⟩
  have hkeep : ∀ ref, Current D c.shared.cur ref → Current D t ref := by
    intro ref h draft' hmem hid
    obtain ⟨draft, hdraft', hid', href⟩ := Current.after hx hp.no_batch hdraft draft' hmem hid
    rw [← href]
    exact h draft hdraft' hid'
  -- a review that is let pass names what this call has seen, which is so
  have hwrite : ∀ kind ref, o = .db (.setResultRef (D.task kind) ref) →
      Json.get ref "pass" = .bool true → ∃ seen, Current D c.shared.cur seen ∧ Agree ref seen := by
    rintro kind ref rfl hpass
    obtain ⟨seen, hsight, hid, hhash⟩ := ((hp.2 (D.apart kind)).2 hpass).2
    exact ⟨seen, hB.current i hrun seen hsight, hid, hhash⟩
  have hfresh : ∀ kind, (∃ ref, o = .db (.setResultRef (D.task kind) ref)) ∨
      Fresh D c.shared.cur (D.task kind) → Fresh D t (D.task kind) :=
    fun kind => Fresh.after hx hp.no_batch hdraft (hwrite kind)
  refine ⟨hB.standing.after hx hp, ?_, ?_, ?_, ?_, ?_⟩
  · intro j r' p hj
    rcases Config.put_thread.1 hj with ⟨rfl, -, -⟩ | ⟨-, hj⟩
    · exact hB.arrived j _ _ hi
    · exact hB.arrived j r' p hj
  · intro j kind hset
    rw [Config.put_shared, History.heard_after] at hset ⊢
    split at hset
    · next hji =>
      rw [if_pos hji]
      exact sighted_after hB.standing hx hp (hB.sighted i kind) hset
    · next hji =>
      rw [if_neg hji]
      exact hB.sighted j kind hset
  · intro j hrunning ref hsight
    rw [Config.put_shared, History.heard_after] at hsight
    split at hsight
    · exact hkeep ref (current_after hB.standing hx hp.no_batch hdraft (hB.current i hrun) hsight)
    · exact hkeep ref (hB.current j (hwas j hrunning) ref hsight)
  · intro j hrunning kind hset
    rw [Config.put_shared, History.heard_after] at hset
    split at hset
    · refine hfresh kind ?_
      cases o with
      | db query =>
        cases query with
        | setResultRef taskId ref =>
          rcases hset with rfl | ⟨-, hset⟩
          · exact .inl ⟨ref, rfl⟩
          · exact .inr (hB.settled i hrun kind hset)
        | _ => exact .inr (hB.settled i hrun kind hset)
      | _ => exact .inr (hB.settled i hrun kind hset)
    · exact hfresh kind (.inr (hB.settled j (hwas j hrunning) kind hset))
  · intro kind hpassed
    rcases passed_after hx hp.no_batch hpassed with ⟨ref, rfl, -⟩ | ⟨reason, rfl⟩ | ⟨hpassed, -⟩
    · exact hfresh kind (.inl ⟨ref, rfl⟩)
    · exact hfresh kind (.inr (hB.settled i hrun kind (hp rfl).2))
    · exact hfresh kind (.inr (hB.passed kind hpassed))

/-- The rest of the orchestrator leaves the reviews bound to the draft. -/
theorem Fresh.elsewhere {w' : Dispatch.World} (he : Elsewhere D w w') (h : Fresh D w (D.task kind)) :
    Fresh D w' (D.task kind) := by
  intro row' hrow' hid ref href hpass draft' hdraft' hid' ref' href'
  obtain ⟨row, hrow, hidr, -, -, hrefr, -⟩ := he.rows row' hrow' (.inr ⟨kind, hid⟩)
  obtain ⟨draft, hdraft, hidd, -, -, hrefd, -⟩ := he.rows draft' hdraft' (.inl hid')
  exact h row hrow (hidr.trans hid) ref (hrefr.trans href) hpass draft hdraft (hidd.trans hid') ref'
    (hrefd.trans href')

end Binding

/-- In every run that meets the condition, the reviews stay bound to the draft. -/
theorem binding_of_reach {D : DraftReviews} {P : Policies} {w₀ : Dispatch.World} {c : ReviewConfig}
    (hw : Laid D w₀) (hnone : ∀ kind, ¬ Passed w₀ (D.task kind))
    (hr : (reviewing D P).Reach (Undisturbed D) (.idle ⟨w₀, [], []⟩) c) : Binding D c := by
  have h₀ : Binding D (.idle ⟨w₀, [], []⟩) := by
    refine ⟨⟨hw, fun i ref h => (nomatch h), fun i _ _ _ _ _ _ _ h => (nomatch h)⟩,
      fun i r p h => (nomatch h), fun i kind h => (nomatch h), fun i _ ref h => (nomatch h),
      fun i _ kind h => (nomatch h), fun kind h => absurd h (hnone kind)⟩
  refine Sys.Reach.sound_own (fun r => body_conducts D P r) h₀ ?_ ?_ ?_ ?_ ?_ ?_ hr
  · intro c i r _ hB hi hnil _
    refine ⟨⟨hB.standing.laid, hB.standing.sights, hB.standing.created⟩, fun j r' p hj => ?_,
      hB.sighted, fun j hrun ref hsight => ?_, fun j hrun kind hset => ?_, hB.passed⟩
    · rcases Config.put_thread.1 hj with ⟨rfl, -, -⟩ | ⟨-, hj⟩
      · exact List.mem_cons_self
      · exact List.mem_cons_of_mem _ (hB.arrived j r' p hj)
    · have hseen : sight D (c.shared.heard j) = some ref := hsight
      obtain ⟨r', o', k', hj⟩ := hrun
      rcases Config.put_thread.1 hj with ⟨rfl, -, -⟩ | ⟨-, hj⟩
      · rw [hnil] at hseen
        cases hseen
      · exact hB.current j ⟨r', o', k', hj⟩ ref hseen
    · have hwrote : Settled D (D.task kind) (c.shared.heard j) := hset
      obtain ⟨r', o', k', hj⟩ := hrun
      rcases Config.put_thread.1 hj with ⟨rfl, -, -⟩ | ⟨-, hj⟩
      · rw [hnil] at hwrote
        exact hwrote.elim
      · exact hB.settled j ⟨r', o', k', hj⟩ kind hwrote
  · exact fun c i r o k e hB hi => hB.put hi fun _ _ => ⟨r, o, k, hi⟩
  · exact fun c i r p hB hi => hB.put hi fun _ h => nomatch h
  · exact fun c i r o k a b t hB hi hx => hB.standing.expected hx
  · intro c i f r o k out a b t hok _ hB hi hx hJ
    by_cases hdraft : ∃ ref, o = .db (.setResultRef D.draft ref)
    · obtain ⟨ref, rfl⟩ := hdraft
      exact hB.regenerate (hok r ref k hi) hi hx hJ.1
    · exact hB.step hi hx hJ.1 fun ref heq => hdraft ⟨ref, heq⟩
  · intro c e w' _ hB hw'
    obtain rfl := Option.some.inj hw'
    have he : Elsewhere D c.shared.cur (e.1 c.shared.cur) := e.2 c.shared.cur
    refine ⟨hB.standing.elsewhere he, hB.arrived, hB.sighted, fun j hrun ref hsight => ?_,
      fun j hrun kind hset => (hB.settled j hrun kind hset).elsewhere he,
      fun kind hpassed => (hB.passed kind (hpassed.elsewhere he)).elsewhere he⟩
    intro draft' hmem hid
    obtain ⟨draft, hdraft, hid', -, -, href, -⟩ := he.rows draft' hmem (.inl hid)
    rw [← href]
    exact hB.current j hrun ref hsight draft hdraft (hid'.trans hid)

/-- A row that passed says so. -/
theorem ref_of_passedRow {row : TaskRow} (h : passedRow row = true) :
    ∃ ref, row.resultRef = some ref ∧ Json.get ref "pass" = .bool true := by
  unfold passedRow at h
  rw [Bool.and_eq_true] at h
  cases href : row.resultRef with
  | none =>
    rw [href] at h
    cases h.2
  | some ref =>
    rw [href, Option.any_some] at h
    exact ⟨ref, rfl, beq_iff_eq.1 h.2⟩

/-- In every run that meets the condition, both gates have passed the bytes that the draft names and
    that Friday puts up, whenever both have passed. -/
theorem same_bytes {D : DraftReviews} {P : Policies} {w₀ : Dispatch.World} {c : ReviewConfig}
    (hw : Laid D w₀) (hnone : ∀ kind, ¬ Passed w₀ (D.task kind))
    (hr : (reviewing D P).Reach (Undisturbed D) (.idle ⟨w₀, [], []⟩) c)
    (hboth : BothPassed D c.shared.cur) : SameBytes D c.shared.cur := by
  have hB := binding_of_reach hw hnone hr
  have hagree : ∀ draft ∈ c.shared.cur.tables.tasks, draft.taskId = D.draft →
      ∀ ref, draft.resultRef = some ref → ∀ row ∈ c.shared.cur.tables.tasks, GateOf D row.taskId →
        ∃ ref', row.resultRef = some ref' ∧ Agree ref' ref := by
    rintro draft hdraft hid ref href row hrow ⟨kind, hkind⟩
    obtain ⟨hpassed, hall⟩ := hboth kind
    obtain ⟨ref', href', hpass⟩ := ref_of_passedRow (hall row hrow hkind)
    exact ⟨ref', href', hB.passed kind hpassed row hrow hkind ref' href' hpass draft hdraft hid ref
      href⟩
  refine ⟨fun draft hdraft hid => ?_, fun draft hdraft hid ref href friday out log hdeps he hread =>
    ?_⟩
  · obtain ⟨ref, -, -, hlaid⟩ := hB.standing.laid.draft
    have href := (hlaid draft hdraft hid).2.2
    exact ⟨ref, href, hagree draft hdraft hid ref href⟩
  · have hgates : Gates c.shared.cur friday (GateOf D) := by
      refine ⟨hdeps, fun row hrow hgate hnone => ?_⟩
      obtain ⟨ref', href', -⟩ := hagree draft hdraft hid ref href row hrow hgate
      rw [hnone] at href'
      cases href'
    refine gateCheck_of_lineage hgates (fun row hrow hgate ref₁ href₁ => ?_) he hread
    obtain ⟨ref', href', -, hhash⟩ := hagree draft hdraft hid ref href row hrow hgate
    rw [href₁] at href'
    rw [Option.some.inj href', hhash]

/-! ## Two runs -/

section Drive

variable (D : DraftReviews) (P : Policies) (model : String → Option String → Object)

/-- The condition, checked where nothing has passed yet. -/
def undisturbed (c : ReviewConfig) (i : Nat) : Bool :=
  (c.shared.cur.tables.tasks.all fun row => !passedRow row) &&
    c.shared.arrived.all fun x => x.1 == i || (sight D (c.shared.heard x.1)).isNone

/-- Every draft that is stored passes the check. -/
def undisturbedAlong (c : ReviewConfig) : List Nat → Bool
  | [] => true
  | i :: order =>
    (match c.thread i with
      | some (_, some (.op (.db (.setResultRef taskId _)) _)) =>
        taskId != D.draft || undisturbed D c i
      | _ => true) &&
      undisturbedAlong ((reviewing D P).exec c (reviewAct D model c i)) order

variable {D P model}

theorem undisturbedStmt_of_check {c : ReviewConfig} {i : Nat} (h : undisturbed D c i = true) :
    UndisturbedStmt D c i := by
  simp only [undisturbed, Bool.and_eq_true, List.all_eq_true, Bool.not_eq_true', Bool.or_eq_true,
    beq_iff_eq, Option.isNone_iff_eq_none] at h
  refine ⟨fun kind => ?_, fun x hx hxi _ => (h.2 x hx).resolve_left hxi⟩
  rintro ⟨row, hrow, -, hp⟩
  rw [h.1 row hrow] at hp
  cases hp

theorem undisturbed_drive {w : Dispatch.World} {c : ReviewConfig} {order : List Nat}
    (hc : (reviewing D P).Reach (Undisturbed D) (.idle ⟨w, [], []⟩) c)
    (h : undisturbedAlong D P model c order = true) :
    (reviewing D P).Reach (Undisturbed D) (.idle ⟨w, [], []⟩) (drive D P model c order) := by
  induction order generalizing c with
  | nil => exact hc
  | cons i order ih =>
    rw [undisturbedAlong, Bool.and_eq_true] at h
    refine ih (.act _ hc fun r ref k hi => ?_) h.2
    have hstmt := h.1
    rw [hi] at hstmt
    dsimp only at hstmt
    rw [bne_self_eq_false, Bool.false_or] at hstmt
    exact undisturbedStmt_of_check hstmt

end Drive

/-- The brand steward's review fails, and a revision passes both checks, before the fact check is
    made. -/
def revisedFirst : ReviewConfig :=
  drive postReviews plainPolicies (postModel ["missing-cta"] []) (bothCalled plainPolicies)
    (List.replicate 120 0 ++ List.replicate 40 1)

theorem revisedFirst_reach : (reviewing postReviews plainPolicies).Reach (Undisturbed postReviews)
    (.idle ⟨postWorld, [], []⟩) revisedFirst := by
  have hcalled : (reviewing postReviews plainPolicies).Reach (Undisturbed postReviews)
      (.idle ⟨postWorld, [], []⟩) (bothCalled plainPolicies) := by
    rw [bothCalled, List.foldl_cons, List.foldl_cons, List.foldl_nil]
    exact .act _ (.act _ .init trivial) trivial
  exact undisturbed_drive hcalled (by decide +kernel)

theorem postWorld_unreviewed (kind : ReviewKind) : ¬ Passed postWorld (postReviews.task kind) := by
  unfold Passed
  cases kind <;> decide

theorem revisedFirst_passed : BothPassed postReviews revisedFirst.shared.cur := by
  unfold BothPassed Passed
  intro kind
  cases kind <;> decide +kernel

theorem same_bytes_revised : SameBytes postReviews revisedFirst.shared.cur :=
  same_bytes postWorld_laid postWorld_unreviewed revisedFirst_reach revisedFirst_passed

/-- The fact check has its verdict, but has not written it, when the brand steward's review fails and
    a revision passes both checks.  Then the fact check writes what it has passed. -/
def overtaken : ReviewConfig :=
  drive postReviews plainPolicies (postModel ["missing-cta"] []) (bothCalled plainPolicies)
    (List.replicate 13 1 ++ List.replicate 120 0 ++ List.replicate 40 1)

theorem stale_pass : ¬ ∀ (D : DraftReviews) (P : Policies) (w₀ : Dispatch.World) (c : ReviewConfig),
    Laid D w₀ → (∀ kind, ¬ Passed w₀ (D.task kind)) →
      (reviewing D P).Reach Sys.free (.idle ⟨w₀, [], []⟩) c → BothPassed D c.shared.cur →
        SameBytes D c.shared.cur := by
  intro h
  have hboth : BothPassed postReviews overtaken.shared.cur := by
    unfold BothPassed Passed
    intro kind
    cases kind <;> decide +kernel
  have hsame := h postReviews plainPolicies postWorld overtaken postWorld_laid postWorld_unreviewed
    (drive_reach _ _ _ (bothCalled_reach _) _) hboth
  have hstale : ∃ draft ∈ overtaken.shared.cur.tables.tasks, draft.taskId = postReviews.draft ∧
      ∃ row ∈ overtaken.shared.cur.tables.tasks, row.taskId = postReviews.task .factCheck ∧
        Json.get (row.resultRef.getD []) "vault_asset_id" ≠
          Json.get (draft.resultRef.getD []) "vault_asset_id" := by decide +kernel
  obtain ⟨draft, hdraft, hid, row, hrow, hkind, hne⟩ := hstale
  obtain ⟨ref, href, hrows⟩ := hsame.reviews draft hdraft hid
  obtain ⟨ref', href', hasset, -⟩ := hrows row hrow ⟨.factCheck, hkind⟩
  rw [href, href'] at hne
  exact hne hasset

end CanvasOS.Publication
