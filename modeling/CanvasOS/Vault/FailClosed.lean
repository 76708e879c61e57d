/-
  The retention sweep fails closed, row by row: exactly when.

  1. `FailsClosed` — what one call leaves: the blobs, the refused objects, the audit rows.
  2. `harmless_fails_closed` — whatever its statements are answered, a harmless sweep leaves this.
  3. `blob_then_failure`, `violated_of_referred`, `violated_of_gone` — every other sweep has a run that
     does not.
-/
import Mathlib.Data.Fintype.EquivFin
import CanvasOS.Vault.Sweeping

namespace CanvasOS.Vault

open Python Interleave Transaction

/-! ## What a sweep leaves -/

/-- The object was left where it is for its own sake: its DELETE was refused, or its blob could not be
    deleted. -/
def LeftInPlace (h : SweepHistory) (key : Key) : Prop :=
  RefusedOf h key ∨ ∃ e ∈ h.log, ∃ row, e.op = .writeAudit .isolated row ∧
    row.table = key.1 ∧ row.id = some key.2

/-- Row by row, the sweep has failed closed. -/
structure FailsClosed (s₀ : VaultState Unit) (h : SweepHistory) : Prop where
  /-- a blob is gone only with all of its assets, each of them audited -/
  blobs : ∀ digest, s₀.hasBlob digest = true → h.cur.hasBlob digest = false →
    ∀ asset ∈ s₀.db.base.withHash digest, asset.key ∉ h.cur.db.base.objectKeys ∧
      asset.key ∈ (swept h).filterMap Change.audited
  /-- who was refused stays, unmarked, and stops no other -/
  refused : ∀ key, RefusedOf h key → key ∈ h.cur.db.base.objectKeys ∧
    (∀ row ∈ h.cur.db.base.retention, row.key = key → row.deleted = false) ∧
    ∀ row ∈ expiredObjects s₀, row.key ≠ key → ¬ LeftInPlace h row.key →
      row.key ∉ h.cur.db.base.objectKeys
  /-- the audit rows of deletions are those of the removed objects -/
  audited : ((swept h).filterMap Change.audited).Perm
    (s₀.db.base.objectKeys.filter fun key => key ∉ h.cur.db.base.objectKeys)

section Harmless

variable {tables : Tables} {blobs : List (String × List UInt8)} {clock : Int} {h : SweepHistory}

/-- The keys of the objects that are left. -/
theorem Sound.objectKeys {s₀ : VaultState Unit} (hsound : Sound s₀ h) :
    h.cur.db.base.objectKeys =
      s₀.db.base.objectKeys.filter fun key => key ∉ (swept h).flatMap Change.deleted := by
  unfold Tables.objectKeys
  rw [hsound.base, (foldr_sweeps hsound.fair.kinds).1, List.filter_map]
  rfl

theorem harmless_fails_closed (hs : Harmless (alone tables blobs clock)) (hu : Unique tables)
    (hswept : OneSweep (alone tables blobs clock) h) : FailsClosed (alone tables blobs clock) h := by
  obtain ⟨out, hrun⟩ := hswept
  have hsound : Sound (alone tables blobs clock) h := (Keeps.sound hrun (sweep_sound hs hu)).inv
  have hkeys := hsound.objectKeys
  constructor
  case blobs =>
    intro digest hblob hgone
    unfold VaultState.hasBlob at hblob hgone
    rw [hsound.blobs, hblob] at hgone
    cases hgone
  case refused =>
    intro key hkey
    obtain ⟨row, hrow, rfl, hrefers⟩ := hsound.refused key hkey
    obtain ⟨hexpired, -, hhas⟩ := mem_expiredObjects.1 hrow
    have haside : ∀ c ∈ swept h, c.aside = true :=
      hsound.batch.resolve_right fun hbatch => hbatch.1 _ hkey
    obtain ⟨hretention, -, hunmarked⟩ := expired_alone.1 hexpired
    refine ⟨?_, fun row' hrow' hsame => ?_, fun row' hrow' hne _ => ?_⟩
    · obtain ⟨r, hr, hrkey⟩ := has_iff.1 hhas
      rw [hkeys, deleted_aside haside]
      exact List.mem_filter.2 ⟨List.mem_map.2 ⟨r, hr, hrkey⟩, by simp⟩
    · rw [hsound.base, foldr_aside_retention haside] at hrow'
      obtain rfl := List.inj_on_of_nodup_map hu.retention hrow' hretention hsame
      exact hunmarked
    · exact absurd (congrArg RetentionRow.key (hs.apart row hrow hrefers row' hrow')) hne
  case audited =>
    rw [hsound.fair.audited]
    refine (List.perm_ext_iff_of_nodup hsound.fair.once (hu.objects.filter _)).2 fun key => ?_
    rw [List.mem_filter, hkeys]
    constructor
    · intro hkey
      -- what was deleted was there
      have hthere : key ∈ tables.objectKeys := by
        rcases hsound.batch with haside | ⟨-, hunstuck⟩
        · rw [deleted_aside haside] at hkey
          exact absurd hkey List.not_mem_nil
        · obtain ⟨row, hexpired, hknown, rfl⟩ := hsound.fair.expired key hkey
          by_contra hnot
          have hnone : tables.has row.table row.id = false := by
            rw [← Bool.not_eq_true]
            intro hhas
            obtain ⟨r, hr, hrkey⟩ := has_iff.1 hhas
            exact hnot (List.mem_map.2 ⟨r, hr, hrkey⟩)
          have hgone : row ∈ expiredGone (alone tables blobs clock) := by
            refine List.mem_filter.2 ⟨hexpired, ?_⟩
            show (knownTable row.table && !tables.has row.table row.id) = true
            rw [hknown, hnone]
            rfl
          rcases hs.gone with hnil | ⟨row', hstuck⟩
          · rw [hnil] at hgone
            exact absurd hgone List.not_mem_nil
          · exact hunstuck row' (mem_expiredObjects.1 hstuck.expired).1 hstuck
      refine ⟨hthere, decide_eq_true fun hmem => ?_⟩
      exact of_decide_eq_true (List.mem_filter.1 hmem).2 hkey
    · rintro ⟨hthere, hgone⟩
      rw [decide_eq_true_eq, List.mem_filter, decide_eq_true_eq] at hgone
      by_contra hkey
      exact hgone ⟨hthere, hkey⟩

end Harmless

/-! ## Runs of a sweep -/

section Runs

variable {s₀ : VaultState Unit} {ls : List (List Change)} {L : List Change} {h h' : SweepHistory}
  {row : RetentionRow} {rest : List RetentionRow} {o : VaultOp} {a b : o.Res} {t : VaultState Unit}

theorem completes_ask (hx : exec () o a h.cur = some (b, t)) :
    Completes sweepExec (ask o) h (.ok b) (h.after () o b t) := by
  refine .tryCatch_ok (.perform (a := a) ?_)
  unfold sweepExec
  rw [hx]
  rfl

/-- A statement that is not executed. -/
theorem completes_failed (o : VaultOp) :
    Completes sweepExec (ask o) h (.error .raised) h :=
  .tryCatch_error (.perform_failed .raised) .throw

/-- The log has grown by these statements only. -/
def Grown (P : VaultOp → Prop) (h h' : SweepHistory) : Prop :=
  ∃ new, h'.log = new ++ h.log ∧ ∀ e ∈ new, P e.op

theorem Grown.refl {P : VaultOp → Prop} : Grown P h h :=
  ⟨[], rfl, fun _ he => absurd he List.not_mem_nil⟩

theorem Grown.after {P : VaultOp → Prop} (hg : Grown P h h') (ho : P o) :
    Grown P h (h'.after () o b t) := by
  obtain ⟨new, hlog, hP⟩ := hg
  refine ⟨⟨(), o, b, h'.cur⟩ :: new, ?_, fun e he => ?_⟩
  · show _ :: h'.log = _
    rw [hlog]
    rfl
  · rcases List.mem_cons.1 he with rfl | he
    · exact ho
    · exact hP e he

/-- What an aborted batch leaves: the end of the call undoes the rest of it. -/
structure Aborted (h h' : SweepHistory) : Prop where
  base : h'.cur.db.base = h.cur.db.base
  blobs : h'.cur.blobs = h.cur.blobs
  swept : swept h' = swept h
  grown : Grown (fun o => o = .rollback ∨ o = .release .own) h h'

/-- The sweep stands before these rows: whatever becomes of them, the call comes to an end. -/
structure AtRows (s₀ : VaultState Unit) (rows : List RetentionRow) (h : SweepHistory) : Prop where
  fails : ∀ e h', Completes sweepExec (sweepRows rows) h (.error e) h' →
    ∃ h'', OneSweep s₀ h'' ∧ Aborted h' h''
  ends : ∀ counts h' L, Completes sweepExec (sweepRows rows) h (.ok counts) h' →
    h'.cur.db.levels () = [L] → ∃ h'', OneSweep s₀ h'' ∧
      h''.cur.db.base = L.foldr Change.apply h'.cur.db.base ∧ swept h'' = L ++ swept h'

/-- One row less. -/
theorem AtRows.step (hat : AtRows s₀ (row :: rest) h) {result : Swept}
    (hrow : Completes sweepExec (processRow row) h (.ok result) h') : AtRows s₀ rest h' where
  fails e h'' hrest := hat.fails e h'' (hrow.bind hrest.bind_error)
  ends _ h'' L hrest := hat.ends _ h'' L (hrow.bind (hrest.bind .pure))

/-- A row that raises. -/
theorem AtRows.failed (hat : AtRows s₀ (row :: rest) h) {e : Failure}
    (hrow : Completes sweepExec (processRow row) h (.error e) h') :
    ∃ h'', OneSweep s₀ h'' ∧ Aborted h' h'' :=
  hat.fails e h' hrow.bind_error

/-- The end of a connection. -/
theorem completes_release : ∃ t, exec () (.release .own) () h.cur = some ((), t) ∧
    t.db.base = h.cur.db.base ∧ t.blobs = h.cur.blobs := ⟨_, rfl, rfl, rfl⟩

/-- The sweep gets to its rows, in any order. -/
theorem start {tables : Tables} {blobs : List (String × List UInt8)} {clock : Int}
    {rows : List RetentionRow} (hrows : rows.Perm ((alone tables blobs clock).expired ())) :
    ∃ h, Stands (alone tables blobs clock) [rows.map fun row => .lockRetention row.key] h ∧
      AtRows (alone tables blobs clock) rows h ∧ h.cur.held = [()] ∧
      ∀ e ∈ h.log, ∀ row, e.op ≠ .writeAudit .isolated row := by
  obtain ⟨id, hid⟩ := Infinite.exists_notMem_finset (tables.runs.map RetentionRun.id).toFinset
  have hfresh : tables.runs.any (fun run => run.id == id) = false := by
    rw [List.any_eq_false]
    intro run hrun hsame
    exact hid (List.mem_toFinset.2 (List.mem_map.2 ⟨run, hrun, beq_iff_eq.1 hsame⟩))
  -- the four statements before the rows
  let h₀ : SweepHistory := ⟨alone tables blobs clock, [], []⟩
  let s₁ : VaultState Unit := { alone tables blobs clock with held := [()] }
  let h₁ := h₀.after () (.acquire .own) () s₁
  have hx₁ : exec () (.acquire .own) () h₀.cur = some ((), s₁) := rfl
  let s₂ := s₁.write () (.insertRun id)
  let h₂ := h₁.after () .insertRun id s₂
  have hx₂ : exec () .insertRun id h₁.cur = some (id, s₂) := by
    have hview : (s₁.view ()).runs = tables.runs := rfl
    show (if (s₁.view ()).runs.any (fun run => run.id == id) then none else some (id, s₂)) = _
    rw [hview, hfresh]
    rfl
  let s₃ : VaultState Unit := { s₂ with
    db := s₂.db.begin ()
    active := () :: s₂.active.filter fun j => j ≠ () }
  let h₃ := h₂.after () .begin () s₃
  have hx₃ : exec () .begin () h₂.cur = some ((), s₃) := rfl
  have hs₀ : Stands (alone tables blobs clock) [] h₀ :=
    ⟨rfl, rfl, fun c hc => absurd hc List.not_mem_nil, rfl, rfl, by
      rintro key ⟨e, he, -⟩
      exact List.not_mem_nil he⟩
  have hs₁ : Stands (alone tables blobs clock) [] h₁ := hs₀.quiet hx₁ rfl rfl
  have hs₂ : Stands (alone tables blobs clock) [] h₂ :=
    hs₁.after hx₂ rfl (by exact fun c hc => List.mem_singleton.1 hc ▸ rfl) rfl
  have hs₃ : Stands (alone tables blobs clock) [[]] h₃ :=
    hs₂.after hx₃ rfl (by exact fun c hc => absurd hc List.not_mem_nil) rfl
  let s₄ := s₃.lockRows () rows
  let h₄ := h₃.after () .selectExpired rows s₄
  have hx₄ : exec () .selectExpired rows h₃.cur = some (rows, s₄) := by
    have hperm : rows.isPerm (s₃.expired ()) = true := by
      have hexpired : s₃.expired () = (alone tables blobs clock).expired () := hs₃.expired rfl
      rw [hexpired]
      exact List.isPerm_iff.2 hrows
    show (if rows.isPerm (s₃.expired ()) then some (rows, s₄) else none) = _
    rw [hperm]
    rfl
  have hs₄ : Stands (alone tables blobs clock) [rows.map fun row => .lockRetention row.key] h₄ := by
    have hafter := hs₃.after hx₄ rfl (by exact fun c hc => absurd hc List.not_mem_nil) rfl
    have hlevels : (stepOf .selectExpired rows).levels [[]] =
        [rows.map fun row => .lockRetention row.key] := by
      show [_ ++ []] = _
      rw [List.append_nil]
    rwa [hlevels] at hafter
  refine ⟨h₄, hs₄, ⟨fun e h' hrest => ?_, fun counts h' L hrest hlevels => ?_⟩, rfl, ?_⟩
  · -- ROLLBACK and the end of the connection
    let h₅ := h'.after () .rollback () { h'.cur with db := h'.cur.db.rollback () }
    have hx₅ : exec () .rollback () h'.cur =
        some ((), { h'.cur with db := h'.cur.db.rollback () }) := rfl
    obtain ⟨t, hx₆, hbase, hblobs⟩ := completes_release (h := h₅)
    refine ⟨h₅.after () (.release .own) () t, ⟨.error e, ?_⟩, hbase, hblobs, ?_, ?_⟩
    · refine (completes_ask hx₁).bind (.thenFinally ?_ (completes_ask hx₆))
      refine (completes_ask hx₂).bind (Completes.bind_error ?_)
      refine (completes_ask hx₃).bind (Completes.bind_error ?_)
      exact .tryCatch_error ((completes_ask hx₄).bind hrest) ((completes_ask hx₅).bind .throw)
    · rw [swept_after, swept_after]
      rfl
    · exact (Grown.refl.after (.inl rfl)).after (.inr rfl)
  · -- COMMIT; the next statement fails
    let h₅ := h'.after () .commit () { h'.cur with db := h'.cur.db.commit Change.apply () }
    have hx₅ : exec () .commit () h'.cur =
        some ((), { h'.cur with db := h'.cur.db.commit Change.apply () }) := rfl
    obtain ⟨t, hx₆, hbase, -⟩ := completes_release (h := h₅)
    refine ⟨h₅.after () (.release .own) () t, ⟨.error .raised, ?_⟩, hbase.trans ?_, ?_⟩
    · have htransaction : Completes sweepExec (transaction sweepExpired) h₂ (.ok counts) h₅ := by
        refine (completes_ask hx₃).bind (Completes.bind ?_ ((completes_ask hx₅).bind .pure))
        exact .tryCatch_ok ((completes_ask hx₄).bind hrest)
      refine (completes_ask hx₁).bind (.thenFinally ?_ (completes_ask hx₆))
      exact (completes_ask hx₂).bind (htransaction.bind (completes_failed .utcNow).bind_error)
    · show (h'.cur.db.commit Change.apply ()).base = _
      rw [Sessions.commit_outermost hlevels]
    · rw [swept_after, swept_after, hlevels]
      rfl
  · intro e he row hop
    simp only [h₄, h₃, h₂, h₁, h₀, History.after, List.mem_cons, List.not_mem_nil, or_false] at he
    rcases he with rfl | rfl | rfl | rfl <;> cases hop

/-- The blob of the row is due: no other asset in sight has it. -/
def Due (s₀ : VaultState Unit) (view : Tables) (row : RetentionRow) : Prop :=
  row.table = "assets" ∧ ∃ digest, view.hashOf row.id = some digest ∧
    (∀ asset ∈ view.withHash digest, asset.id = row.id) ∧ s₀.hasBlob digest = true

/-- The blob step, all of whose statements are answered: it deletes the blob if it is due. -/
theorem blobStep_runs (h₁ : Stands s₀ [L] h) (row : RetentionRow) :
    (¬ Due s₀ (h.cur.view ()) row ∧ ∃ digest h',
      Completes sweepExec (blobStep row) h (.ok (digest, false)) h' ∧ Stands s₀ [L] h' ∧
        h'.cur = h.cur ∧ Grown (fun o => o.quiet = true) h h') ∨
    ∃ digest h', row.table = "assets" ∧ (h.cur.view ()).hashOf row.id = some digest ∧
      s₀.hasBlob digest = true ∧
      Completes sweepExec (blobStep row) h (.ok (some digest, false)) h' ∧
        h'.cur.db.base = h.cur.db.base ∧ swept h' = swept h ∧ h'.cur.hasBlob digest = false := by
  by_cases htable : row.table = "assets"
  case neg =>
    refine .inl ⟨fun hdue => htable hdue.1, none, h, ?_, h₁, rfl, .refl⟩
    unfold blobStep
    rw [if_neg htable]
    exact .pure
  have hstep : blobStep row = deleteBlobOf row.id := by
    unfold blobStep
    rw [if_pos htable]
  rw [hstep]
  let asset := ((h.cur.view ()).objects.find? fun r => r.key == ("assets", row.id)).map fun r =>
    r.cell "content_hash"
  let hA : SweepHistory := h.after () (.selectHash row.id) asset h.cur
  have hxA : exec () (.selectHash row.id) asset h.cur = some (asset, h.cur) := rfl
  have hsA : Stands s₀ [L] hA := h₁.quiet hxA rfl rfl
  have hgA : Grown (fun o => o.quiet = true) h hA := Grown.refl.after rfl
  have hhash : (h.cur.view ()).hashOf row.id = contentHash asset := rfl
  cases hdigest : contentHash asset with
  | none =>
    refine .inl ⟨?_, none, hA, (completes_ask hxA).bind ?_, hsA, rfl, hgA⟩
    · rintro ⟨-, digest, hsome, -⟩
      rw [hhash, hdigest] at hsome
      cases hsome
    · rw [hdigest]
      exact .pure
  | some digest =>
    have hdue (hnot : ¬ ((∀ r ∈ (h.cur.view ()).withHash digest, r.id = row.id) ∧
        s₀.hasBlob digest = true)) : ¬ Due s₀ (h.cur.view ()) row := by
      rintro ⟨-, digest', hsome, hdue⟩
      rw [hhash, hdigest] at hsome
      obtain rfl := Option.some.inj hsome
      exact hnot hdue
    let others := (((h.cur.view ()).withHash digest).filter fun r => r.id != row.id).length
    let hB : SweepHistory := hA.after () (.countOthers digest row.id) others h.cur
    have hxB : exec () (.countOthers digest row.id) others hA.cur = some (others, h.cur) := rfl
    have hsB : Stands s₀ [L] hB := hsA.quiet hxB rfl rfl
    have hgB : Grown (fun o => o.quiet = true) h hB := hgA.after rfl
    -- up to the blob itself
    have hrun {failed : Bool} {h' : SweepHistory}
        (hblob : Completes sweepExec (tryDeleteBlob digest (decide (0 < others))) hB (.ok failed) h') :
        Completes sweepExec (deleteBlobOf row.id) h (.ok (some digest, failed)) h' := by
      refine (completes_ask hxA).bind ?_
      rw [hdigest]
      exact (completes_ask hxB).bind (hblob.bind .pure)
    by_cases hothers : 0 < others
    · -- another asset names the blob
      rw [decide_eq_true hothers] at hrun
      refine .inl ⟨hdue fun hsole => ?_, some digest, hB, hrun ?_, hsB, rfl, hgB⟩
      · obtain ⟨r, hr⟩ := List.exists_mem_of_length_pos hothers
        obtain ⟨hr, hne⟩ := List.mem_filter.1 hr
        exact bne_iff_ne.1 hne (hsole.1 r hr)
      · exact .tryCatch_ok (Completes.bind (a := ()) .pure .pure)
    · rw [decide_eq_false hothers] at hrun
      let hC : SweepHistory := hB.after () (.blobExists digest) (h.cur.hasBlob digest) h.cur
      have hxC : exec () (.blobExists digest) true hB.cur =
          some (h.cur.hasBlob digest, h.cur) := rfl
      have hsC : Stands s₀ [L] hC := hsB.quiet hxC rfl rfl
      have hgC : Grown (fun o => o.quiet = true) h hC := hgB.after rfl
      have hsame : h.cur.hasBlob digest = s₀.hasBlob digest := by
        unfold VaultState.hasBlob
        rw [h₁.blobs]
      cases hblob : s₀.hasBlob digest with
      | false =>
        refine .inl ⟨hdue fun hsole => ?_, some digest, hC, hrun ?_, hsC, rfl, hgC⟩
        · rw [hblob] at hsole
          exact Bool.false_ne_true hsole.2
        · have hdelete : Completes sweepExec (deleteContentIfUnreferenced digest false) hB (.ok ())
              hC := by
            refine (completes_ask hxC).bind ?_
            rw [if_neg (by rw [hsame, hblob]; exact Bool.false_ne_true)]
            exact .pure
          exact .tryCatch_ok (hdelete.bind .pure)
      | true =>
        let s' : VaultState Unit := { h.cur with
          blobs := h.cur.blobs.filter fun b => b.1 ≠ digest }
        let hD : SweepHistory := hC.after () (.deleteBlob digest) () s'
        have hxD : exec () (.deleteBlob digest) () hC.cur = some ((), s') := by
          show (if h.cur.hasBlob digest = true then _ else none) = _
          rw [hsame, hblob]
          rfl
        have hdelete : Completes sweepExec (deleteContentIfUnreferenced digest false) hB (.ok ())
            hD := by
          refine (completes_ask hxC).bind ?_
          rw [if_pos (hsame.trans hblob)]
          exact completes_ask hxD
        refine .inr ⟨digest, hD, htable, hhash.trans hdigest, hblob,
          hrun (.tryCatch_ok (hdelete.bind .pure)), rfl, ?_, ?_⟩
        · have hlanded {o : VaultOp} (ho : o.quiet = true) (b : o.Res) :
              (stepOf o b).landed [L] = [] := by
            rw [stepOf_quiet ho]
            rfl
          rw [swept_after, swept_after, swept_after, swept_after]
          have hlevels := h₁.levels
          show (stepOf (.deleteBlob digest) _).landed (h.cur.db.levels ()) ++
            ((stepOf (.blobExists digest) _).landed (h.cur.db.levels ()) ++
              ((stepOf (.countOthers digest row.id) _).landed (h.cur.db.levels ()) ++
                ((stepOf (.selectHash row.id) _).landed (h.cur.db.levels ()) ++ swept h))) = _
          rw [hlevels, hlanded rfl, hlanded rfl, hlanded rfl, hlanded rfl]
          rfl
        · show List.any (List.filter _ _) _ = false
          rw [List.any_eq_false]
          intro blob hmem hsame
          exact of_decide_eq_true (List.mem_filter.1 hmem).2 (beq_iff_eq.1 hsame)

/-- Some run of the sweep does not fail closed. -/
def Violated (s₀ : VaultState Unit) : Prop := ∃ h, OneSweep s₀ h ∧ ¬ FailsClosed s₀ h

/-- As long as nothing but changes aside is committed, the objects are those of the beginning. -/
theorem Stands.objectKeys (h₁ : Stands s₀ ls h) :
    h.cur.db.base.objects = s₀.db.base.objects ∧ h.cur.db.base.retention = s₀.db.base.retention := by
  have hkinds : ∀ c ∈ swept h, c.sweeps = true := fun c hc => Change.sweeps_of_aside (h₁.aside c hc)
  refine ⟨?_, ?_⟩
  · rw [h₁.base, (foldr_sweeps hkinds).1, deleted_aside h₁.aside]
    exact List.filter_eq_self.2 fun _ _ => by simp
  · rw [h₁.base, foldr_aside_retention h₁.aside]

/-- What the sweep sees of an asset is an asset. -/
theorem asset_of_hash {view : Tables} {id : Uuid} {digest : String}
    (h : view.hashOf id = some digest) : ∃ r ∈ view.withHash digest, r.id = id := by
  unfold Tables.hashOf at h
  cases hfind : view.objects.find? (fun r => r.key == ("assets", id)) with
  | none =>
    rw [hfind] at h
    cases h
  | some r =>
    rw [hfind] at h
    have hkey := List.find?_some hfind
    obtain ⟨htable, hid⟩ := Prod.mk.inj (beq_iff_eq.1 hkey)
    have hcell : r.cell "content_hash" = .json (.str digest) := by
      unfold contentHash at h
      split at h
      · rename_i digest' hsome
        split at h
        · cases h
        · obtain rfl := Option.some.inj h
          exact Option.some.inj hsome
      · cases h
    refine ⟨r, List.mem_filter.2 ⟨List.mem_of_find?_eq_some hfind, ?_⟩, hid⟩
    exact Bool.and_eq_true_iff.2 ⟨beq_iff_eq.2 htable, beq_iff_eq.2 hcell⟩

/-- The blob is deleted, and then the savepoint cannot be opened: the blob is gone, its assets are
    not. -/
theorem blob_then_failure (h₁ : Stands s₀ [L] h) (hL : Fair s₀ L)
    (hat : AtRows s₀ (row :: rest) h)
    (hblob : ∃ digest h', row.table = "assets" ∧ (h.cur.view ()).hashOf row.id = some digest ∧
      s₀.hasBlob digest = true ∧ Completes sweepExec (blobStep row) h (.ok (some digest, false)) h' ∧
        h'.cur.db.base = h.cur.db.base ∧ swept h' = swept h ∧ h'.cur.hasBlob digest = false) :
    Violated s₀ := by
  obtain ⟨digest, h', htable, hhash, hthere, hrun, hbase, hswept, hgone⟩ := hblob
  have hrow : Completes sweepExec (processRow row) h (.error .raised) h' := by
    unfold processRow
    rw [if_pos (.inl htable)]
    refine hrun.bind ?_
    exact Completes.bind_error (Completes.bind_error (completes_failed .begin))
  obtain ⟨h'', hone, haborted⟩ := hat.failed hrow
  refine ⟨h'', hone, fun hclosed => ?_⟩
  obtain ⟨r, hr, hid⟩ := asset_of_hash hhash
  obtain ⟨hmem, hcell⟩ := List.mem_filter.1 hr
  have hview := (h₁.view (by simpa using hL.kinds)).1
  rw [hview] at hmem
  have hasset : r ∈ s₀.db.base.withHash digest :=
    List.mem_filter.2 ⟨(List.mem_filter.1 hmem).1, hcell⟩
  have hgone' : h''.cur.hasBlob digest = false := by
    unfold VaultState.hasBlob at hgone ⊢
    rw [haborted.blobs]
    exact hgone
  have haudited := (hclosed.blobs digest hthere hgone' r hasset).2
  rw [haborted.swept, hswept, audited_aside h₁.aside] at haudited
  exact absurd haudited List.not_mem_nil

/-- A deletion that goes well. -/
theorem deleteExpired_runs (h₁ : Stands s₀ [L] h) (hL : Fair s₀ L) (digest : Option String)
    (hfree : ¬ (s₀.db.base.has row.table row.id = true ∧ s₀.db.base.refersTo row.key = true)) :
    ∃ h', Completes sweepExec (deleteExpired row digest) h (.ok ()) h' ∧
      Stands s₀ [deletion row digest ++ L] h' := by
  let hA : SweepHistory := h.after () .begin () { h.cur with
    db := h.cur.db.begin ()
    active := () :: h.cur.active.filter fun j => j ≠ () }
  have hxA : exec () .begin () h.cur = some ((), hA.cur) := rfl
  have hsA : Stands s₀ [[], L] hA :=
    h₁.after hxA rfl (by exact fun c hc => absurd hc List.not_mem_nil) rfl
  have hview := hsA.view (by simpa using hL.kinds)
  rw [List.flatten_cons, List.nil_append, List.flatten_singleton] at hview
  let hB : SweepHistory := hA.after () (.deleteObject row.key) (.ok ())
    (hA.cur.write () (.deleteObject row.key))
  have hxB : exec () (.deleteObject row.key) (.ok ()) hA.cur = some (.ok (), hB.cur) := by
    simp only [exec]
    rw [if_neg]
    · rfl
    · intro hrefused
      obtain ⟨hhas, hrefers⟩ := Bool.and_eq_true_iff.1 hrefused
      exact hfree (refused_of_view hview.1 hview.2.1 hview.2.2 hhas hrefers)
  have hsB : Stands s₀ [[.deleteObject row.key], L] hB :=
    hsA.after hxB rfl (by exact fun c hc => absurd hc List.not_mem_nil) rfl
  let hC : SweepHistory := hB.after () (.markDeleted row.key) ()
    (hB.cur.write () (.markDeleted row.key))
  have hxC : exec () (.markDeleted row.key) () hB.cur = some ((), hC.cur) := rfl
  have hsC : Stands s₀ [[.markDeleted row.key, .deleteObject row.key], L] hC :=
    hsB.after hxC rfl (by exact fun c hc => absurd hc List.not_mem_nil) rfl
  let hD : SweepHistory := hC.after () (.writeAudit .own (deletionAudit row digest)) ()
    (hC.cur.write () (.insertAudit (deletionAudit row digest)))
  have hxD : exec () (.writeAudit .own (deletionAudit row digest)) () hC.cur =
      some ((), hD.cur) := rfl
  have hsD : Stands s₀ [deletion row digest, L] hD :=
    hsC.after hxD rfl (by exact fun c hc => absurd hc List.not_mem_nil) rfl
  let hE : SweepHistory := hD.after () .commit () { hD.cur with
    db := hD.cur.db.commit Change.apply () }
  have hxE : exec () .commit () hD.cur = some ((), hE.cur) := rfl
  have hsE : Stands s₀ [deletion row digest ++ L] hE :=
    hsD.after hxE rfl (by exact fun c hc => absurd hc List.not_mem_nil) rfl
  refine ⟨hE, (completes_ask hxA).bind (Completes.bind (.tryCatch_ok ?_)
    ((completes_ask hxE).bind .pure)), hsE⟩
  exact (completes_ask hxB).bind (Completes.bind (a := ()) .pure
    ((completes_ask hxC).bind (completes_ask hxD)))

/-- A deletion that is refused: nothing of it stays but its refusal. -/
theorem deleteExpired_refused (digest : Option String)
    (hrefused : ((h.cur.view ()).has row.table row.id && (h.cur.view ()).refersTo row.key) = true) :
    ∃ h', Completes sweepExec (deleteExpired row digest) h
        (.error (.sql .foreignKeyViolation)) h' ∧
      h'.cur.db.base = h.cur.db.base ∧ RefusedOf h' row.key ∧
      Grown (fun o => o = .rollback ∨ o = .deleteObject row.key ∨ o = .begin) h h' := by
  let hA : SweepHistory := h.after () .begin () { h.cur with
    db := h.cur.db.begin ()
    active := () :: h.cur.active.filter fun j => j ≠ () }
  have hxA : exec () .begin () h.cur = some ((), hA.cur) := rfl
  have hview : hA.cur.view () = h.cur.view () := Sessions.view_begin
  let hB : SweepHistory := hA.after () (.deleteObject row.key) (.error .foreignKeyViolation) hA.cur
  have hxB : exec () (.deleteObject row.key) (.ok ()) hA.cur =
      some (.error .foreignKeyViolation, hA.cur) := by
    simp only [exec]
    rw [hview]
    exact if_pos hrefused
  let hC : SweepHistory := hB.after () .rollback () { hB.cur with db := hB.cur.db.rollback () }
  have hxC : exec () .rollback () hB.cur = some ((), hC.cur) := rfl
  refine ⟨hC, ?_, rfl, ?_, ?_⟩
  · refine (completes_ask hxA).bind (Completes.bind_error (.tryCatch_error ?_
      ((completes_ask hxC).bind .throw)))
    exact (completes_ask hxB).bind (Completes.bind_error .throw)
  · exact ⟨_, List.mem_cons_of_mem _ List.mem_cons_self, rfl, rfl⟩
  · exact ((Grown.refl.after (.inr (.inr rfl))).after (.inr (.inl rfl))).after (.inl rfl)

/-- The rows are processed one after the other, each of them deleted; or some run violates. -/
theorem through {rows : List RetentionRow} (hat : AtRows s₀ (rows ++ rest) h)
    (h₁ : Stands s₀ [L] h) (hL : Fair s₀ L) (honce : (rows.map RetentionRow.key).Nodup)
    (hnew : ∀ row ∈ rows, row.key ∉ L.flatMap Change.deleted)
    (hexpired : ∀ row ∈ rows, row ∈ s₀.expired ())
    (hfree : ∀ row ∈ rows, knownTable row.table = true →
      ¬ (s₀.db.base.has row.table row.id = true ∧ s₀.db.base.refersTo row.key = true)) :
    Violated s₀ ∨ ∃ L' h', AtRows s₀ rest h' ∧ Stands s₀ [L'] h' ∧ Fair s₀ L' ∧
      (∀ key, key ∈ L'.flatMap Change.deleted ↔ key ∈ L.flatMap Change.deleted ∨
        ∃ row ∈ rows, knownTable row.table = true ∧ row.key = key) := by
  induction rows generalizing L h with
  | nil => exact .inr ⟨L, h, hat, h₁, hL, fun key => ⟨.inl, by
      rintro (hkey | ⟨row, hrow, -⟩)
      · exact hkey
      · exact absurd hrow List.not_mem_nil⟩⟩
  | cons row rows ih =>
    obtain ⟨hrow, hrest⟩ := List.nodup_cons.1 honce
    have hnotin : ∀ row' ∈ rows, row'.key ≠ row.key := fun row' hrow' hsame =>
      hrow (hsame ▸ List.mem_map_of_mem hrow')
    have hexpired' : ∀ row' ∈ rows, row' ∈ s₀.expired () := fun row' hrow' =>
      hexpired row' (List.mem_cons_of_mem _ hrow')
    have hfree' := fun row' (hrow' : row' ∈ rows) => hfree row' (List.mem_cons_of_mem _ hrow')
    have hnew' := fun row' (hrow' : row' ∈ rows) => hnew row' (List.mem_cons_of_mem _ hrow')
    by_cases hknown : knownTable row.table = true
    case neg =>
      -- an unknown table is left alone
      have hrun : Completes sweepExec (processRow row) h (.ok .unknown) h := by
        unfold processRow
        rw [if_neg]
        · exact .pure
        · rintro (htable | hknown')
          · rw [htable] at hknown
            exact hknown (by decide)
          · exact hknown hknown'
      refine (ih (hat.step hrun) h₁ hL hrest hnew' hexpired' hfree').imp_right ?_
      rintro ⟨L', h', hat', h₂, hL', hkeys⟩
      refine ⟨L', h', hat', h₂, hL', fun key => (hkeys key).trans (or_congr_right ?_)⟩
      constructor
      · rintro ⟨row', hrow', hboth⟩
        exact ⟨row', List.mem_cons_of_mem _ hrow', hboth⟩
      · rintro ⟨row', hrow', hknown', hsame⟩
        rcases List.mem_cons.1 hrow' with rfl | hrow'
        · exact absurd hknown' hknown
        · exact ⟨row', hrow', hknown', hsame⟩
    rcases blobStep_runs h₁ row with ⟨-, digest, h', hrun, h₂, -, -⟩ | hblob
    case inr => exact .inl (blob_then_failure h₁ hL hat hblob)
    obtain ⟨h'', hdelete, h₃⟩ := deleteExpired_runs h₂ hL digest (hfree row List.mem_cons_self hknown)
    have hprocess : Completes sweepExec (processRow row) h (.ok .deleted) h'' := by
      unfold processRow
      rw [if_pos (.inr hknown)]
      exact hrun.bind (hdelete.bind .pure)
    have hL' : Fair s₀ (deletion row digest ++ L) :=
      hL.deletion (hexpired row List.mem_cons_self) hknown (hnew row List.mem_cons_self) digest
    refine (ih (hat.step hprocess) h₃ hL' hrest (fun row' hrow' hkey => ?_) hexpired'
      hfree').imp_right ?_
    · rcases List.mem_cons.1 hkey with hsame | hkey
      · exact hnotin row' hrow' hsame
      · exact hnew' row' hrow' hkey
    · rintro ⟨L', h₅, hat', h₄, hL'', hkeys⟩
      refine ⟨L', h₅, hat', h₄, hL'', fun key => (hkeys key).trans ?_⟩
      constructor
      · rintro (hkey | ⟨row', hrow', hboth⟩)
        · rcases List.mem_cons.1 hkey with rfl | hkey
          · exact .inr ⟨row, List.mem_cons_self, hknown, rfl⟩
          · exact .inl hkey
        · exact .inr ⟨row', List.mem_cons_of_mem _ hrow', hboth⟩
      · rintro (hkey | ⟨row', hrow', hboth⟩)
        · exact .inl (List.mem_cons_of_mem _ hkey)
        · rcases List.mem_cons.1 hrow' with rfl | hrow'
          · exact .inl (List.mem_cons.2 (.inl hboth.2.symm))
          · exact .inr ⟨row', hrow', hboth⟩

end Runs

/-! ## Violations -/

section Violations

variable {tables : Tables} {blobs : List (String × List UInt8)} {clock : Int}
  {rows : List RetentionRow} {h : SweepHistory} {row row' : RetentionRow}

theorem locks_aside : ∀ c ∈ rows.map (fun row => Change.lockRetention row.key),
    c.aside = true := by
  intro c hc
  obtain ⟨row, -, rfl⟩ := List.mem_map.1 hc
  rfl

/-- One row a key, among the expired ones. -/
theorem expired_nodup (hu : Unique tables) :
    (((alone tables blobs clock).expired ()).map RetentionRow.key).Nodup :=
  (List.filter_sublist.map _).nodup hu.retention

theorem expired_inj (hu : Unique tables) (hrow : row ∈ (alone tables blobs clock).expired ())
    (hrow' : row' ∈ (alone tables blobs clock).expired ()) (hkey : row.key = row'.key) : row = row' :=
  List.inj_on_of_nodup_map (expired_nodup hu) hrow hrow' hkey

/-- The sweep sees the objects of the beginning, as long as it has deleted none. -/
theorem view_untouched {s₀ : VaultState Unit}
    (h₁ : Stands s₀ [rows.map fun row => .lockRetention row.key] h) :
    (h.cur.view ()).objects = s₀.db.base.objects ∧
      (h.cur.view ()).taxonomy = s₀.db.base.taxonomy ∧
      (h.cur.view ()).linkage = s₀.db.base.linkage := by
  have hview := h₁.view (by
    rw [List.flatten_singleton]
    exact fun c hc => Change.sweeps_of_aside (locks_aside c hc))
  rw [List.flatten_singleton, deleted_aside locks_aside] at hview
  refine ⟨hview.1.trans ?_, hview.2⟩
  exact List.filter_eq_self.2 fun _ _ => by simp

/-- An object that another row refers to stops another one. -/
theorem violated_of_referred (hu : Unique tables)
    (hrow : row ∈ expiredObjects (alone tables blobs clock))
    (hrefers : tables.refersTo row.key = true)
    (hrow' : row' ∈ expiredObjects (alone tables blobs clock)) (hne : row' ≠ row) :
    Violated (alone tables blobs clock) := by
  obtain ⟨hexpired, hknown, hhas⟩ := mem_expiredObjects.1 hrow
  obtain ⟨hexpired', -, hhas'⟩ := mem_expiredObjects.1 hrow'
  obtain ⟨h, h₁, hat, -, hplain⟩ := start (List.perm_cons_erase hexpired).symm
  rcases blobStep_runs h₁ row with ⟨-, digest, h', hrun, h₂, hcur, hquiet⟩ | hblob
  case inr => exact blob_then_failure h₁ (.of_aside locks_aside) hat hblob
  have hrefused : ((h'.cur.view ()).has row.table row.id && (h'.cur.view ()).refersTo row.key) =
      true := by
    obtain ⟨hobjects, htaxonomy, hlinkage⟩ := view_untouched h₂
    unfold Tables.has at hhas ⊢
    unfold Tables.refersTo at hrefers ⊢
    rw [hobjects, htaxonomy, hlinkage]
    exact Bool.and_eq_true_iff.2 ⟨hhas, hrefers⟩
  obtain ⟨h'', hdelete, hbase, hrefusal, new, hnew, hops⟩ := deleteExpired_refused digest hrefused
  have hprocess : Completes sweepExec (processRow row) h (.error (.sql .foreignKeyViolation)) h'' := by
    unfold processRow
    rw [if_pos (.inr hknown)]
    exact hrun.bind hdelete.bind_error
  obtain ⟨h₃, hone, haborted⟩ := hat.failed hprocess
  refine ⟨h₃, hone, fun hclosed => ?_⟩
  obtain ⟨last, hlast, hends⟩ := haborted.grown
  have hkey : row'.key ≠ row.key := fun hsame => hne (expired_inj hu hexpired' hexpired hsame)
  have hrefused₃ : RefusedOf h₃ row.key := by
    obtain ⟨e, he, hboth⟩ := hrefusal
    exact ⟨e, hlast ▸ List.mem_append_right _ he, hboth⟩
  refine (hclosed.refused row.key hrefused₃).2.2 row' hrow' hkey ?_ ?_
  · -- the other one was neither refused nor left for its blob
    have hcases : ∀ e ∈ h₃.log, e ∈ h'.log ∨ e.op = .rollback ∨ e.op = .release .own ∨
        e.op = .deleteObject row.key ∨ e.op = .begin := by
      intro e he
      rw [hlast, hnew] at he
      rcases List.mem_append.1 he with he | he
      · exact .inr ((hends e he).imp_right .inl)
      · rcases List.mem_append.1 he with he | he
        · rcases hops e he with hop | hop | hop
          · exact .inr (.inl hop)
          · exact .inr (.inr (.inr (.inl hop)))
          · exact .inr (.inr (.inr (.inr hop)))
        · exact .inl he
    rintro (⟨e, he, hop, hrefusal⟩ | ⟨e, he, audit, hop, -⟩)
    · rcases hcases e he with he | hop' | hop' | hop' | hop'
      · exact h₂.calm _ ⟨e, he, hop, hrefusal⟩
      · rw [hop] at hop'
        cases hop'
      · rw [hop] at hop'
        cases hop'
      · rw [hop] at hop'
        exact hkey (VaultOp.deleteObject.inj hop')
      · rw [hop] at hop'
        cases hop'
    · rcases hcases e he with he | hop' | hop' | hop' | hop'
      · obtain ⟨quiet, hlog, hq⟩ := hquiet
        rw [hlog] at he
        rcases List.mem_append.1 he with he | he
        · have hquiet := hq e he
          rw [hop] at hquiet
          cases hquiet
        · exact hplain e he audit hop
      all_goals
        rw [hop] at hop'
        cases hop'
  · obtain ⟨r, hr, hrkey⟩ := has_iff.1 hhas'
    unfold Tables.objectKeys
    rw [haborted.base, hbase, h₂.objectKeys.1]
    exact List.mem_map.2 ⟨r, hr, hrkey⟩

/-- As long as the asset is there, the sweep sees its content. -/
theorem hash_in_view {s₀ : VaultState Unit} {view : Tables} {D : List Key} {id : Uuid}
    {digest : String} (hunique : s₀.db.base.objectKeys.Nodup)
    (hview : view.objects = s₀.db.base.objects.filter fun r => r.key ∉ D)
    (hkey : ("assets", id) ∉ D) (hhash : s₀.db.base.hashOf id = some digest) :
    view.hashOf id = some digest := by
  unfold Tables.hashOf at hhash ⊢
  cases hfind : s₀.db.base.objects.find? (fun r => r.key == ("assets", id)) with
  | none =>
    rw [hfind] at hhash
    cases hhash
  | some r =>
    have hrkey := List.find?_some hfind
    have hr : r ∈ view.objects := by
      rw [hview, List.mem_filter, decide_eq_true_eq]
      refine ⟨List.mem_of_find?_eq_some hfind, ?_⟩
      rw [beq_iff_eq.1 hrkey]
      exact hkey
    have hnodup : (view.objects.map ObjectRow.key).Nodup := by
      rw [hview]
      exact (List.filter_sublist.map _).nodup hunique
    rw [find_key hnodup hr (beq_iff_eq.1 hrkey), ← hfind]
    exact hhash

/-- Next to an expired object, the others can be deleted. -/
theorem free_of_apart (hu : Unique tables) (hapart : Apart (alone tables blobs clock))
    (hrow : row ∈ expiredObjects (alone tables blobs clock))
    (hrow' : row' ∈ ((alone tables blobs clock).expired ()).erase row)
    (hknown : knownTable row'.table = true) :
    ¬ (tables.has row'.table row'.id = true ∧ tables.refersTo row'.key = true) := by
  rintro ⟨hhas, hrefers⟩
  have hexpired : row' ∈ expiredObjects (alone tables blobs clock) :=
    mem_expiredObjects.2 ⟨List.mem_of_mem_erase hrow', hknown, hhas⟩
  obtain rfl := hapart row' hexpired hrefers row hrow
  exact (List.Nodup.mem_erase_iff (.of_map _ (expired_nodup hu))).1 hrow' |>.1 rfl

/-- The last assets of a blob expire together. -/
theorem violated_of_blob (hu : Unique tables) (hapart : Apart (alone tables blobs clock))
    (hrow : row ∈ expiredObjects (alone tables blobs clock)) (htable : row.table = "assets")
    {digest : String} (hhash : tables.hashOf row.id = some digest)
    (hblob : (alone tables blobs clock).hasBlob digest = true)
    (hall : ∀ asset ∈ tables.withHash digest, ∃ row' ∈ expiredObjects (alone tables blobs clock),
      row'.key = asset.key) : Violated (alone tables blobs clock) := by
  obtain ⟨hexpired, hknown, hhas⟩ := mem_expiredObjects.1 hrow
  have hnodup : ((alone tables blobs clock).expired ()).Nodup := .of_map _ (expired_nodup hu)
  -- first the other assets of the blob, then this one
  let p (row : RetentionRow) : Bool :=
    decide (row.key ∈ (tables.withHash digest).map ObjectRow.key)
  let W := (((alone tables blobs clock).expired ()).erase row).filter p
  let O := (((alone tables blobs clock).expired ()).erase row).filter fun row => !p row
  have horder : (W ++ row :: O).Perm ((alone tables blobs clock).expired ()) :=
    List.perm_middle.trans (((List.filter_append_perm p _).cons row).trans
      (List.perm_cons_erase hexpired).symm)
  obtain ⟨h, h₁, hat, -, -⟩ := start horder
  have hmemW {row' : RetentionRow} (h : row' ∈ W) :
      row' ∈ ((alone tables blobs clock).expired ()).erase row := (List.mem_filter.1 h).1
  have honce : (W.map RetentionRow.key).Nodup :=
    ((List.filter_sublist.trans List.erase_sublist).map _).nodup (expired_nodup hu)
  rcases through hat h₁ (.of_aside locks_aside) honce
      (fun row' _ => by
        rw [deleted_aside locks_aside]
        exact List.not_mem_nil)
      (fun row' hrow' => List.mem_of_mem_erase (hmemW hrow'))
      (fun row' hrow' => free_of_apart hu hapart hrow (hmemW hrow')) with
    hviolated | ⟨L, h', hat', h₂, hL, hkeys⟩
  · exact hviolated
  rcases blobStep_runs h₂ row with ⟨hnot, -⟩ | hdue
  case inr => exact blob_then_failure h₂ hL hat' hdue
  -- the blob is due
  refine absurd ⟨htable, digest, ?_, fun asset hasset => ?_, hblob⟩ hnot
  · have hview := (h₂.view (by simpa using hL.kinds)).1
    refine hash_in_view hu.objects hview ?_ hhash
    rw [List.flatten_singleton, hkeys, deleted_aside locks_aside]
    rintro (hkey | ⟨row', hrow', -, hsame⟩)
    · exact absurd hkey List.not_mem_nil
    · obtain rfl : row' = row := expired_inj hu (List.mem_of_mem_erase (hmemW hrow')) hexpired
        (hsame.trans (Prod.ext htable.symm rfl))
      exact ((List.Nodup.mem_erase_iff hnodup).1 (hmemW hrow')).1 rfl
  · obtain ⟨hmem, hcell⟩ := List.mem_filter.1 hasset
    rw [(h₂.view (by simpa using hL.kinds)).1] at hmem
    obtain ⟨hmem, hseen⟩ := List.mem_filter.1 hmem
    rw [decide_eq_true_eq, List.flatten_singleton, hkeys] at hseen
    have hasset₀ : asset ∈ tables.withHash digest := List.mem_filter.2 ⟨hmem, hcell⟩
    obtain ⟨row', hrow', hsame⟩ := hall asset hasset₀
    by_cases hne : row' = row
    · exact (congrArg Prod.snd (hne ▸ hsame)).symm
    · obtain ⟨hexpired', hknown', -⟩ := mem_expiredObjects.1 hrow'
      refine absurd (.inr ⟨row', List.mem_filter.2 ⟨?_, decide_eq_true ?_⟩, hknown', hsame⟩) hseen
      · exact (List.Nodup.mem_erase_iff hnodup).2 ⟨hne, hexpired'⟩
      · exact List.mem_map.2 ⟨asset, hasset₀, hsame.symm⟩

/-- An object that was gone already is audited once more. -/
theorem violated_of_audit {L : List Change} {m : RetentionRow}
    (hat : AtRows (alone tables blobs clock) [] h) (h₁ : Stands (alone tables blobs clock) [L] h)
    (hL : Fair (alone tables blobs clock) L)
    (hm : m ∈ expiredGone (alone tables blobs clock)) (hkey : m.key ∈ L.flatMap Change.deleted) :
    Violated (alone tables blobs clock) := by
  obtain ⟨h', hone, -, hswept⟩ := hat.ends (0, 0) h L .pure h₁.levels
  refine ⟨h', hone, fun hclosed => ?_⟩
  have haudited : m.key ∈ (swept h').filterMap Change.audited := by
    rw [hswept, List.filterMap_append, hL.audited]
    exact List.mem_append_left _ hkey
  have hremoved := (List.mem_filter.1 (hclosed.audited.mem_iff.1 haudited)).1
  obtain ⟨r, hr, hrkey⟩ := List.mem_map.1 hremoved
  have hhas : tables.has m.table m.id = true := has_iff.2 ⟨r, hr, hrkey⟩
  have hgone := (List.mem_filter.1 hm).2
  rw [Bool.and_eq_true] at hgone
  have hnot : (!tables.has m.table m.id) = true := hgone.2
  rw [hhas] at hnot
  cases hnot

/-- An asset whose blob cannot be asked for is left where it is. -/
theorem skip_runs
    (h₁ : Stands (alone tables blobs clock) [rows.map fun row => .lockRetention row.key] h)
    (hheld : h.cur.held = [()]) (hsole : SoleHash tables row) :
    ∃ h', Completes sweepExec (processRow row) h (.ok .failed) h' ∧
      Stands (alone tables blobs clock) [rows.map fun row => .lockRetention row.key] h' := by
  obtain ⟨htable, digest, hhash, hnone⟩ := hsole
  obtain ⟨hobjects, -, -⟩ := view_untouched h₁
  let asset := ((h.cur.view ()).objects.find? fun r => r.key == ("assets", row.id)).map fun r =>
    r.cell "content_hash"
  let hA : SweepHistory := h.after () (.selectHash row.id) asset h.cur
  have hxA : exec () (.selectHash row.id) asset h.cur = some (asset, h.cur) := rfl
  have hsA := h₁.quiet hxA rfl rfl
  have hdigest : contentHash asset = some digest := by
    have hview : (h.cur.view ()).hashOf row.id = some digest := by
      unfold Tables.hashOf at hhash ⊢
      rw [hobjects]
      exact hhash
    exact hview
  let others := (((h.cur.view ()).withHash digest).filter fun r => r.id != row.id).length
  let hB : SweepHistory := hA.after () (.countOthers digest row.id) others h.cur
  have hxB : exec () (.countOthers digest row.id) others hA.cur = some (others, h.cur) := rfl
  have hsB := hsA.quiet hxB rfl rfl
  have hothers : ¬ 0 < others := by
    intro hpos
    obtain ⟨r, hr⟩ := List.exists_mem_of_length_pos hpos
    obtain ⟨hr, hne⟩ := List.mem_filter.1 hr
    refine bne_iff_ne.1 hne (hnone r ?_)
    unfold Tables.withHash at hr ⊢
    rw [hobjects] at hr
    exact hr
  -- the failure is audited on a connection of its own
  let hC : SweepHistory := hB.after () (.acquire .isolated) () { hB.cur with
    held := () :: hB.cur.held }
  have hxC : exec () (.acquire .isolated) () hB.cur = some ((), hC.cur) := by
    show (if h.cur.held.length < poolSize then _ else none) = _
    rw [hheld]
    rfl
  have hsC := hsB.quiet hxC rfl rfl
  let hD : SweepHistory := hC.after () (.writeAudit .isolated (failedAudit row (some digest))) ()
    (hC.cur.writeIsolated (.insertAudit (failedAudit row (some digest))))
  have hxD : exec () (.writeAudit .isolated (failedAudit row (some digest))) () hC.cur =
      some ((), hD.cur) := rfl
  have hsD := hsC.after hxD rfl (by exact fun c hc => List.mem_singleton.1 hc ▸ rfl) rfl
  let hE : SweepHistory := hD.after () (.release .isolated) () { hD.cur with
    held := hD.cur.held.erase () }
  have hxE : exec () (.release .isolated) () hD.cur = some ((), hE.cur) := rfl
  refine ⟨hE, ?_, hsD.quiet hxE rfl rfl⟩
  have hblob : Completes sweepExec (blobStep row) h (.ok (some digest, true)) hB := by
    unfold blobStep
    rw [if_pos htable]
    refine (completes_ask hxA).bind ?_
    rw [hdigest]
    refine (completes_ask hxB).bind (Completes.bind (a := true) ?_ .pure)
    rw [decide_eq_false hothers]
    exact .tryCatch_error (Completes.bind_error (completes_failed _).bind_error) .pure
  unfold processRow
  rw [if_pos (.inl htable)]
  have haudit : Completes sweepExec (writeAuditIsolated (failedAudit row (some digest))) hB
      (.ok ()) hE :=
    (completes_ask hxC).bind (.thenFinally (completes_ask hxD) (completes_ask hxE))
  exact hblob.bind (haudit.bind .pure)

/-- An expired row has no object any more, and the batch can be committed. -/
theorem violated_of_gone (hu : Unique tables) (hapart : Apart (alone tables blobs clock))
    {m : RetentionRow} (hm : m ∈ expiredGone (alone tables blobs clock))
    (hnone : ∀ row, ¬ Stuck (alone tables blobs clock) row) :
    Violated (alone tables blobs clock) := by
  obtain ⟨hmexpired, hmboth⟩ := List.mem_filter.1 hm
  obtain ⟨hmknown, hmnot⟩ := Bool.and_eq_true_iff.1 hmboth
  by_cases hreferred : ∃ row ∈ expiredObjects (alone tables blobs clock),
      tables.refersTo row.key = true
  · obtain ⟨row, hrow, hrefers⟩ := hreferred
    obtain ⟨hexpired, -, hhas⟩ := mem_expiredObjects.1 hrow
    have hsole : SoleHash tables row := by
      by_contra hshared
      exact hnone row ⟨hrow, hrefers, hshared⟩
    -- the object is left for its blob, and all others can be deleted
    obtain ⟨h, h₁, hat, hheld, -⟩ := start (List.perm_cons_erase hexpired).symm
    obtain ⟨h', hskip, h₂⟩ := skip_runs h₁ hheld hsole
    have hat' : AtRows (alone tables blobs clock)
        (((alone tables blobs clock).expired ()).erase row ++ []) h' := by
      rw [List.append_nil]
      exact hat.step hskip
    rcases through hat' h₂ (.of_aside locks_aside)
        ((List.erase_sublist.map _).nodup (expired_nodup hu))
        (fun row' _ => by
          rw [deleted_aside locks_aside]
          exact List.not_mem_nil)
        (fun row' hrow' => List.mem_of_mem_erase hrow')
        (fun row' hrow' => free_of_apart hu hapart hrow hrow') with
      hviolated | ⟨L, h'', hat'', h₃, hL, hkeys⟩
    · exact hviolated
    refine violated_of_audit hat'' h₃ hL hm ((hkeys m.key).2 (.inr ⟨m, ?_, hmknown, rfl⟩))
    have hne : m ≠ row := by
      rintro rfl
      have hnot : (!tables.has m.table m.id) = true := hmnot
      have hthere : tables.has m.table m.id = true := hhas
      rw [hthere] at hnot
      cases hnot
    exact (List.Nodup.mem_erase_iff (.of_map _ (expired_nodup hu))).2 ⟨hne, hmexpired⟩
  · obtain ⟨h, h₁, hat, -, -⟩ := start (List.Perm.refl ((alone tables blobs clock).expired ()))
    have hat' : AtRows (alone tables blobs clock)
        ((alone tables blobs clock).expired () ++ []) h := by
      rw [List.append_nil]
      exact hat
    rcases through hat' h₁ (.of_aside locks_aside) (expired_nodup hu)
        (fun row' _ => by
          rw [deleted_aside locks_aside]
          exact List.not_mem_nil)
        (fun row' hrow' => hrow')
        (fun row' hrow' hknown hboth => hreferred
          ⟨row', mem_expiredObjects.2 ⟨hrow', hknown, hboth.1⟩, hboth.2⟩) with
      hviolated | ⟨L, h'', hat'', h₃, hL, hkeys⟩
    · exact hviolated
    · exact violated_of_audit hat'' h₃ hL hm ((hkeys m.key).2 (.inr ⟨m, hmexpired, hmknown, rfl⟩))

/-- A sweep fails closed, whatever its statements and blob deletions are answered, exactly if it can
    do no harm. -/
theorem sweep_fails_closed (tables : Tables) (blobs : List (String × List UInt8)) (clock : Int)
    (hu : Unique tables) :
    (∀ h, OneSweep (alone tables blobs clock) h → FailsClosed (alone tables blobs clock) h) ↔
      Harmless (alone tables blobs clock) := by
  refine ⟨fun hclosed => ?_, fun hs h hswept => harmless_fails_closed hs hu hswept⟩
  have hnone : ¬ Violated (alone tables blobs clock) := by
    rintro ⟨h, hone, hnot⟩
    exact hnot (hclosed h hone)
  have hapart : Apart (alone tables blobs clock) := by
    intro row hrow hrefers row' hrow'
    by_contra hne
    exact hnone (violated_of_referred hu hrow hrefers hrow' hne)
  refine ⟨hapart, fun row hrow htable digest hhash hblob => ?_, ?_⟩
  · by_contra hstays
    push Not at hstays
    exact hnone (violated_of_blob hu hapart hrow htable hhash hblob hstays)
  · by_contra hgone
    push Not at hgone
    obtain ⟨hne, hstuck⟩ := hgone
    obtain ⟨m, hm⟩ := List.exists_mem_of_ne_nil _ hne
    exact hnone (violated_of_gone hu hapart hm hstuck)

end Violations

/-! ## A signal, and an asset before its campaign -/

/-- A signal has expired. -/
def signalExpired : Tables :=
  ⟨[⟨"signals", 3, []⟩], [], [⟨"signals", 3, .str "ephemeral_30d", 1, false⟩], [], [], [], []⟩

theorem signal_fails_closed : Harmless (alone signalExpired [] 2) ∧
    ∀ h, OneSweep (alone signalExpired [] 2) h → FailsClosed (alone signalExpired [] 2) h := by
  have hexpired : expiredObjects (alone signalExpired [] 2) =
      [⟨"signals", 3, .str "ephemeral_30d", 1, false⟩] := by
    decide +kernel
  have hharmless : Harmless (alone signalExpired [] 2) := by
    refine ⟨?_, ?_, ?_⟩
    · intro row hrow hrefers
      rw [hexpired, List.mem_singleton] at hrow
      subst hrow
      exact absurd hrefers (by decide)
    · intro row hrow htable
      rw [hexpired, List.mem_singleton] at hrow
      subst hrow
      exact absurd htable (by decide)
    · exact .inl (by decide +kernel)
  exact ⟨hharmless, (sweep_fails_closed signalExpired [] 2 ⟨by decide, by decide⟩).2 hharmless⟩

/-- An asset and its campaign have expired. -/
def assetExpired : Tables :=
  ⟨[⟨"campaigns", 1, []⟩, ⟨"assets", 2, [("content_hash", .json (.str "d"))]⟩],
    [⟨"assets", 2, .str "v", .str "f", 1, .str "A", .str "granted", .str "ephemeral_30d"⟩],
    [⟨"assets", 2, .str "ephemeral_30d", 1, false⟩,
      ⟨"campaigns", 1, .str "ephemeral_30d", 1, false⟩], [], [], [], []⟩

/-- All statements are answered; the rows are selected in this order. -/
def assetAnswer : (o : VaultOp) → o.Res
  | .selectExpired => assetExpired.retention
  | o => plainAnswer o

/-- The campaign is refused after the blob of the asset has been deleted. -/
theorem refused_campaign_strands_asset : ¬ ∀ (tables : Tables) (blobs : List (String × List UInt8))
    (clock : Int) (h : SweepHistory), Unique tables → OneSweep (alone tables blobs clock) h →
      FailsClosed (alone tables blobs clock) h := by
  intro hall
  have hrun : (replay sweepExec (fun o _ => .ok (assetAnswer o)) runRetentionExpiry
      ⟨alone assetExpired [("d", [])] 2, [], []⟩).map (fun x =>
        (x.2.cur.hasBlob "d", decide (("assets", 2) ∈ x.2.cur.db.base.objectKeys))) =
      some (false, true) := by
    decide +kernel
  obtain ⟨⟨out, h⟩, hreplay, heq⟩ := Option.map_eq_some_iff.1 hrun
  obtain ⟨hgone, hkept⟩ := Prod.mk.inj heq
  have hclosed := hall assetExpired [("d", [])] 2 h ⟨by decide, by decide⟩
    ⟨out, replay_solo hreplay⟩
  have hasset : (⟨"assets", 2, [("content_hash", .json (.str "d"))]⟩ : ObjectRow) ∈
      assetExpired.withHash "d" := by decide
  exact (hclosed.blobs "d" (by decide) hgone _ hasset).1 (of_decide_eq_true hkept)

end CanvasOS.Vault
