/-
  What a retention sweep does, when nothing else runs.

  1. `OneSweep` — one call from its first statement to its end, returned or raised; every statement may
     fail, or be executed without its answer arriving.
  2. `Fair`, `Stands` — the changes of a sweep: what it deletes it audits, once.
  3. `Sound`, `sweep_sound` — as long as no blob is due and only an object by itself can be refused,
     at every point nothing has been committed, or the whole batch has.
-/
import Mathlib.Data.List.Nodup
import CanvasOS.Vault.Ledger
import CanvasOS.Vault.Statements

namespace CanvasOS.Vault

open Python Interleave Transaction

/-! ## A sweep by itself -/

/-- Nobody is connected. -/
def alone (tables : Tables) (blobs : List (String × List UInt8)) (clock : Int) : VaultState Unit :=
  ⟨.idle tables, [], blobs, [], clock⟩

/-- What a sweep has done. -/
abbrev SweepHistory := History VaultOp VaultOp.Res (VaultState Unit) Unit Unit

/-- A statement of the sweep; it is recorded. -/
def sweepExec (o : VaultOp) (a : o.Res) (h : SweepHistory) : Option (o.Res × SweepHistory) :=
  (exec () o a h.cur).map fun x => (x.1, h.after () o x.1 x.2)

/-- `h` is what one call has done, once it has returned or raised. -/
def OneSweep (s₀ : VaultState Unit) (h : SweepHistory) : Prop :=
  ∃ out, Completes sweepExec runRetentionExpiry ⟨s₀, [], []⟩ out h

theorem sweepExec_some {o : VaultOp} {a b : o.Res} {h h' : SweepHistory}
    (hx : sweepExec o a h = some (b, h')) :
    ∃ t, exec () o a h.cur = some (b, t) ∧ h' = h.after () o b t := by
  obtain ⟨⟨b', t⟩, ht, heq⟩ := Option.map_eq_some_iff.1 hx
  obtain ⟨rfl, rfl⟩ := Prod.mk.inj heq
  exact ⟨t, ht, rfl⟩

/-- What the sweep has committed, newest first. -/
def swept (h : SweepHistory) : List Change := h.landedBy VaultState.db stepOf ()

theorem swept_after {h : SweepHistory} {o : VaultOp} {b : o.Res} {t : VaultState Unit} :
    swept (h.after () o b t) = (stepOf o b).landed (h.cur.db.levels ()) ++ swept h := by
  have hown : (h.after () o b t).own () = ⟨(), o, b, h.cur⟩ :: h.own () := History.own_self
  unfold swept History.landedBy
  rw [hown]
  rfl

/-! ## The expired rows -/

/-- The id of a blob that an asset names. -/
def Tables.hashOf (t : Tables) (id : Uuid) : Option String :=
  contentHash ((t.objects.find? fun row => row.key == ("assets", id)).map fun row =>
    row.cell "content_hash")

/-- The expired rows whose object is there. -/
def expiredObjects (s : VaultState Unit) : List RetentionRow :=
  (s.expired ()).filter fun row => knownTable row.table && s.db.base.has row.table row.id

/-- The expired rows whose object is gone already. -/
def expiredGone (s : VaultState Unit) : List RetentionRow :=
  (s.expired ()).filter fun row => knownTable row.table && !s.db.base.has row.table row.id

/-- No other asset has the content of this one. -/
def SoleHash (t : Tables) (row : RetentionRow) : Prop :=
  row.table = "assets" ∧ ∃ digest, t.hashOf row.id = some digest ∧
    ∀ asset ∈ t.withHash digest, asset.id = row.id

/-- The object cannot be deleted, and its blob is not asked for. -/
structure Stuck (s : VaultState Unit) (row : RetentionRow) : Prop where
  expired : row ∈ expiredObjects s
  referred : s.db.base.refersTo row.key = true
  shared : ¬ SoleHash s.db.base row

/-- An object that another row refers to is the only one that has expired. -/
def Apart (s : VaultState Unit) : Prop :=
  ∀ row ∈ expiredObjects s, s.db.base.refersTo row.key = true → ∀ row' ∈ expiredObjects s, row' = row

/-- When a sweep can do no harm: an object that another row refers to is the only one expired, every
    blob of an expired asset is also named by an asset that stays, and either no object is gone
    already, or the batch is refused anyway. -/
structure Harmless (s : VaultState Unit) : Prop where
  apart : Apart s
  blobs : ∀ row ∈ expiredObjects s, row.table = "assets" →
    ∀ digest, s.db.base.hashOf row.id = some digest → s.hasBlob digest = true →
      ∃ asset ∈ s.db.base.withHash digest, ∀ row' ∈ expiredObjects s, row'.key ≠ asset.key
  gone : expiredGone s = [] ∨ ∃ row, Stuck s row

/-- The constraints of the tables: one row a key. -/
structure Unique (t : Tables) : Prop where
  objects : t.objectKeys.Nodup
  retention : (t.retention.map RetentionRow.key).Nodup

/-! ## The changes of a sweep -/

namespace Change

/-- A change that touches no object, and is not the audit row of a deletion. -/
def aside : Change → Bool
  | .insertAudit row => row.eventType != "retention_deletion"
  | .insertRun _ | .finishRun .. | .purgeAccessLog _ | .lockRetention _ => true
  | _ => false

/-- A change that inserts no object and updates none. -/
def sweeps : Change → Bool
  | .insertObject .. | .insertLinkage _ | .updateObject .. => false
  | _ => true

/-- What the change deletes. -/
def deleted : Change → List Key
  | .deleteObject key => [key]
  | _ => []

/-- The deletion that the change audits. -/
def audited : Change → Option Key
  | .insertAudit row =>
    if row.eventType = "retention_deletion" then row.id.map fun id => (row.table, id) else none
  | _ => none

theorem sweeps_of_aside {c : Change} (h : c.aside = true) : c.sweeps = true := by
  cases c <;> first | rfl | cases h

theorem deleted_of_aside {c : Change} (h : c.aside = true) : c.deleted = [] := by
  cases c <;> first | rfl | cases h

theorem audited_of_aside {c : Change} (h : c.aside = true) : c.audited = none := by
  cases c with
  | insertAudit row => exact if_neg (bne_iff_ne.1 h)
  | _ => rfl

end Change

section Lists

variable {cs : List Change} {t : Tables}

theorem deleted_aside (h : ∀ c ∈ cs, c.aside = true) : cs.flatMap Change.deleted = [] :=
  List.flatMap_eq_nil_iff.2 fun c hc => Change.deleted_of_aside (h c hc)

theorem audited_aside (h : ∀ c ∈ cs, c.aside = true) : cs.filterMap Change.audited = [] :=
  List.filterMap_eq_nil_iff.2 fun c hc => Change.audited_of_aside (h c hc)

/-- What a sweep makes of the objects, and of what refers to them. -/
theorem foldr_sweeps (h : ∀ c ∈ cs, c.sweeps = true) :
    (cs.foldr Change.apply t).objects =
      (t.objects.filter fun row => row.key ∉ cs.flatMap Change.deleted) ∧
    (cs.foldr Change.apply t).taxonomy = t.taxonomy ∧
    (cs.foldr Change.apply t).linkage = t.linkage := by
  induction cs with
  | nil => exact ⟨(List.filter_eq_self.2 fun _ _ => by simp).symm, rfl, rfl⟩
  | cons c cs ih =>
    obtain ⟨hobjects, htaxonomy, hlinkage⟩ := ih fun c hc => h c (List.mem_cons_of_mem _ hc)
    rw [List.foldr_cons]
    cases c with
    | insertObject | insertLinkage | updateObject => cases h _ List.mem_cons_self
    | deleteObject key =>
      refine ⟨?_, htaxonomy, hlinkage⟩
      show List.filter _ (cs.foldr Change.apply t).objects = _
      rw [hobjects, List.filter_filter]
      refine List.filter_congr fun row _ => ?_
      simp [Change.deleted, not_or]
    | _ => exact ⟨hobjects, htaxonomy, hlinkage⟩

theorem foldr_aside_retention (h : ∀ c ∈ cs, c.aside = true) :
    (cs.foldr Change.apply t).retention = t.retention := by
  induction cs with
  | nil => rfl
  | cons c cs ih =>
    have hrest := ih fun c hc => h c (List.mem_cons_of_mem _ hc)
    have hc := h c List.mem_cons_self
    rw [List.foldr_cons]
    cases c with
    | insertObject | insertLinkage | updateObject | deleteObject | markDeleted => cases hc
    | _ => exact hrest

end Lists

/-! ## Where a sweep stands -/

/-- The statement was refused. -/
def refusal : (o : VaultOp) → o.Res → Bool
  | .deleteObject _, .error _ => true
  | _, _ => false

/-- A DELETE of the object was refused. -/
def RefusedOf (h : SweepHistory) (key : Key) : Prop :=
  ∃ e ∈ h.log, e.op = .deleteObject key ∧ refusal e.op e.ans = true

/-- What the changes delete they audit, once, and it has expired. -/
structure Fair (s₀ : VaultState Unit) (cs : List Change) : Prop where
  kinds : ∀ c ∈ cs, c.sweeps = true
  audited : cs.filterMap Change.audited = cs.flatMap Change.deleted
  once : (cs.flatMap Change.deleted).Nodup
  expired : ∀ key ∈ cs.flatMap Change.deleted, ∃ row ∈ s₀.expired (),
    knownTable row.table = true ∧ row.key = key

/-- In the middle of a sweep: nothing is committed but what touches no object. -/
structure Stands (s₀ : VaultState Unit) (ls : List (List Change)) (h : SweepHistory) : Prop where
  levels : h.cur.db.levels () = ls
  base : h.cur.db.base = (swept h).foldr Change.apply s₀.db.base
  aside : ∀ c ∈ swept h, c.aside = true
  blobs : h.cur.blobs = s₀.blobs
  clock : h.cur.clock = s₀.clock
  calm : ∀ key, ¬ RefusedOf h key

/-- At every point: no blob is gone, who was refused is referred to, and the batch is committed
    wholly or not at all. -/
structure Sound (s₀ : VaultState Unit) (h : SweepHistory) : Prop where
  base : h.cur.db.base = (swept h).foldr Change.apply s₀.db.base
  blobs : h.cur.blobs = s₀.blobs
  refused : ∀ key, RefusedOf h key →
    ∃ row ∈ expiredObjects s₀, row.key = key ∧ s₀.db.base.refersTo key = true
  fair : Fair s₀ (swept h)
  batch : (∀ c ∈ swept h, c.aside = true) ∨
    ((∀ key, ¬ RefusedOf h key) ∧ ∀ row ∈ s₀.expired (), ¬ Stuck s₀ row)

section Standing

variable {s₀ : VaultState Unit} {ls : List (List Change)} {h : SweepHistory} {o : VaultOp}
  {a b : o.Res} {t : VaultState Unit}

theorem Fair.of_aside {cs : List Change} (h : ∀ c ∈ cs, c.aside = true) : Fair s₀ cs where
  kinds c hc := Change.sweeps_of_aside (h c hc)
  audited := by rw [deleted_aside h, audited_aside h]
  once := by
    rw [deleted_aside h]
    exact List.nodup_nil
  expired key hkey := by
    rw [deleted_aside h] at hkey
    exact absurd hkey List.not_mem_nil

/-- More changes that touch no object, newer ones or older ones. -/
theorem Fair.append_aside {cs ds : List Change} (hcs : Fair s₀ cs)
    (hds : ∀ c ∈ ds, c.aside = true) : Fair s₀ (cs ++ ds) where
  kinds c hc := (List.mem_append.1 hc).elim (hcs.kinds c) fun hc =>
    Change.sweeps_of_aside (hds c hc)
  audited := by
    rw [List.filterMap_append, List.flatMap_append, audited_aside hds, deleted_aside hds,
      List.append_nil, List.append_nil, hcs.audited]
  once := by
    rw [List.flatMap_append, deleted_aside hds, List.append_nil]
    exact hcs.once
  expired key hkey := by
    rw [List.flatMap_append, deleted_aside hds, List.append_nil] at hkey
    exact hcs.expired key hkey

theorem Fair.aside_append {cs ds : List Change} (hcs : ∀ c ∈ cs, c.aside = true)
    (hds : Fair s₀ ds) : Fair s₀ (cs ++ ds) where
  kinds c hc := (List.mem_append.1 hc).elim (fun hc => Change.sweeps_of_aside (hcs c hc))
    (hds.kinds c)
  audited := by
    rw [List.filterMap_append, List.flatMap_append, audited_aside hcs, deleted_aside hcs,
      List.nil_append, List.nil_append, hds.audited]
  once := by
    rw [List.flatMap_append, deleted_aside hcs, List.nil_append]
    exact hds.once
  expired key hkey := by
    rw [List.flatMap_append, deleted_aside hcs, List.nil_append] at hkey
    exact hds.expired key hkey

theorem Stands.sound (h₁ : Stands s₀ ls h) : Sound s₀ h where
  base := h₁.base
  blobs := h₁.blobs
  refused key hkey := absurd hkey (h₁.calm key)
  fair := .of_aside h₁.aside
  batch := .inl h₁.aside

theorem exec_clock {i : Unit} {s : VaultState Unit} (hx : exec i o a s = some (b, t)) :
    t.clock = s.clock := by
  unfold exec at hx
  split at hx <;> (repeat' split at hx) <;> first | contradiction | (cases hx; rfl)

theorem refusedOf_after {key : Key} (hcalm : refusal o b = false)
    (hr : RefusedOf (h.after () o b t) key) : RefusedOf h key := by
  obtain ⟨e, he, hop, hrefused⟩ := hr
  rcases List.mem_cons.1 he with rfl | he
  · rw [hcalm] at hrefused
    cases hrefused
  · exact ⟨e, he, hop, hrefused⟩

theorem base_after (hx : exec () o a h.cur = some (b, t))
    (hbase : h.cur.db.base = (swept h).foldr Change.apply s₀.db.base) :
    t.db.base = (swept (h.after () o b t)).foldr Change.apply s₀.db.base := by
  rw [exec_db hx, Step.run_base, swept_after, List.foldr_append, hbase]

/-- One more statement, that commits nothing which touches an object. -/
theorem Stands.after (h₁ : Stands s₀ ls h) (hx : exec () o a h.cur = some (b, t))
    (hblobs : t.blobs = h.cur.blobs) (hlanded : ∀ c ∈ (stepOf o b).landed ls, c.aside = true)
    (hcalm : refusal o b = false) : Stands s₀ ((stepOf o b).levels ls) (h.after () o b t) where
  levels := by
    show t.db.levels () = _
    rw [exec_db hx, Step.run_self, h₁.levels]
  base := base_after hx h₁.base
  aside c hc := by
    rw [swept_after, h₁.levels] at hc
    exact (List.mem_append.1 hc).elim (hlanded c) (h₁.aside c)
  blobs := hblobs.trans h₁.blobs
  clock := (exec_clock hx).trans h₁.clock
  calm key hkey := h₁.calm key (refusedOf_after hcalm hkey)

/-- The same where nothing is known of the transaction. -/
theorem Sound.after (h₁ : Sound s₀ h) (hx : exec () o a h.cur = some (b, t))
    (hblobs : t.blobs = h.cur.blobs)
    (hlanded : ∀ c ∈ (stepOf o b).landed (h.cur.db.levels ()), c.aside = true)
    (hcalm : refusal o b = false) : Sound s₀ (h.after () o b t) where
  base := base_after hx h₁.base
  blobs := hblobs.trans h₁.blobs
  refused key hkey := h₁.refused key (refusedOf_after hcalm hkey)
  fair := by
    rw [swept_after]
    exact .aside_append hlanded h₁.fair
  batch := by
    rw [swept_after]
    refine h₁.batch.imp (fun haside c hc => ?_) fun hbatch => ⟨fun key hkey => ?_, hbatch.2⟩
    · exact (List.mem_append.1 hc).elim (hlanded c) (haside c)
    · exact hbatch.1 key (refusedOf_after hcalm hkey)

/-- The tables as the sweep sees them. -/
theorem Stands.view (h₁ : Stands s₀ ls h) (hkinds : ∀ c ∈ ls.flatten, c.sweeps = true) :
    (h.cur.view ()).objects =
      (s₀.db.base.objects.filter fun row => row.key ∉ ls.flatten.flatMap Change.deleted) ∧
    (h.cur.view ()).taxonomy = s₀.db.base.taxonomy ∧
    (h.cur.view ()).linkage = s₀.db.base.linkage := by
  have hview : h.cur.view () = (ls.flatten ++ swept h).foldr Change.apply s₀.db.base := by
    unfold VaultState.view Sessions.view Sessions.pending
    rw [h₁.levels, h₁.base, List.foldr_append]
  have hall : ∀ c ∈ ls.flatten ++ swept h, c.sweeps = true := fun c hc =>
    (List.mem_append.1 hc).elim (hkinds c) fun hc => Change.sweeps_of_aside (h₁.aside c hc)
  obtain ⟨hobjects, hothers⟩ := foldr_sweeps (t := s₀.db.base) hall
  rw [hview]
  refine ⟨?_, hothers⟩
  rw [hobjects, List.flatMap_append, deleted_aside h₁.aside, List.append_nil]

/-- A statement that changes nothing. -/
theorem Stands.quiet (h₁ : Stands s₀ ls h) (hx : exec () o a h.cur = some (b, t))
    (ho : o.quiet = true) (hblobs : t.blobs = h.cur.blobs) :
    Stands s₀ ls (h.after () o b t) := by
  have hstep := stepOf_quiet ho b
  have hcalm : refusal o b = false := by
    cases o <;> first | rfl | cases ho
  have hafter := h₁.after hx hblobs (by
    rw [hstep]
    cases ls <;> exact fun c hc => absurd hc List.not_mem_nil) hcalm
  rw [hstep] at hafter
  cases ls <;> exact hafter

end Standing

/-! ## Rules -/

section Rules

variable {s₀ : VaultState Unit} {ls : List (List Change)} {h : SweepHistory} {o : VaultOp}
  {J : SweepHistory → Prop}

/-- One statement. -/
theorem keeps_ask {R : o.Res → SweepHistory → Prop} (hJ : J h)
    (hok : ∀ a b t, exec () o a h.cur = some (b, t) →
      J (h.after () o b t) ∧ R b (h.after () o b t)) :
    Keeps sweepExec J (ask o) R h := by
  refine ⟨hJ, fun _ => hJ, fun a b h' hx => ?_⟩
  obtain ⟨t, ht, rfl⟩ := sweepExec_some hx
  exact ⟨hok a b t ht, fun _ => (hok a b t ht).1⟩

/-- The statements about the blobs. -/
def VaultOp.ofBlobs : VaultOp → Bool
  | .uploadBlob .. | .deleteBlob _ => true
  | _ => false

theorem blobs_of_not {a b : o.Res} {s t : VaultState Unit} (hx : exec () o a s = some (b, t))
    (ho : o.ofBlobs = false) : t.blobs = s.blobs := by
  refine exec_blobs hx (fun digest data => ?_) fun digest => ?_
  · rintro rfl
    cases ho
  · rintro rfl
    cases ho

/-- A statement that changes nothing; its answer is what the state gives. -/
theorem keeps_quiet {R : o.Res → Prop} (h₁ : Stands s₀ ls h) (ho : o.quiet = true)
    (hblobs : o.ofBlobs = false)
    (hR : ∀ a b t, exec () o a h.cur = some (b, t) → R b) :
    Keeps sweepExec (Stands s₀ ls) (ask o) (fun b _ => R b) h :=
  keeps_ask h₁ fun a b t hx => ⟨h₁.quiet hx ho (blobs_of_not hx hblobs), hR a b t hx⟩

/-- What ends a transaction or a connection commits nothing that touches an object. -/
theorem keeps_end {R : o.Res → SweepHistory → Prop} (h₁ : Sound s₀ h) (hblobs : o.ofBlobs = false)
    (hlanded : ∀ (b : o.Res) ls, (stepOf o b).landed ls = [])
    (hcalm : ∀ b : o.Res, refusal o b = false) (hR : ∀ b h, R b h) :
    Keeps sweepExec (Sound s₀) (ask o) R h := by
  refine keeps_ask h₁ fun a b t hx => ⟨h₁.after hx (blobs_of_not hx hblobs) ?_ (hcalm b), hR b _⟩
  rw [hlanded]
  exact fun c hc => absurd hc List.not_mem_nil

theorem landed_release {conn : Conn} (b : Unit) (ls : List (List Change)) :
    (stepOf (.release conn) b).landed ls = [] := by
  cases conn with
  | own => rfl
  | isolated => cases ls <;> rfl

/-- `async with pool.acquire() as conn`, for a body that ends as it likes. -/
theorem keeps_connection {α : Type} {conn : Conn} {body : VaultM α}
    {R : α → SweepHistory → Prop} (h₁ : Stands s₀ ls h)
    (hbody : ∀ h, Stands s₀ ls h → Keeps sweepExec (Sound s₀) body R h)
    (hrelease : ∀ a h, Sound s₀ h → R a h → Keeps sweepExec (Sound s₀) (ask (.release conn))
      (fun _ h => R a h) h) :
    Keeps sweepExec (Sound s₀) (withConnection conn body) R h := by
  have hacquire : Keeps sweepExec (Sound s₀) (ask (.acquire conn)) (fun _ => Stands s₀ ls) h :=
    keeps_ask h₁.sound fun a b t hx => by
      have h₂ := h₁.quiet hx rfl (blobs_of_not hx rfl)
      exact ⟨h₂.sound, h₂⟩
  refine hacquire.bind fun _ h _ h₂ => (hbody h h₂).thenFinally hrelease fun h hs => ?_
  exact keeps_end hs rfl landed_release (fun _ => rfl) fun _ _ => True.intro

/-- `async with conn.transaction()`, for a body after which COMMIT is all right. -/
theorem keeps_transaction {α : Type} {body : VaultM α} {R S : α → SweepHistory → Prop}
    (h₁ : Stands s₀ ls h)
    (hbody : ∀ h, Stands s₀ ([] :: ls) h → Keeps sweepExec (Sound s₀) body S h)
    (hcommit : ∀ a h t, Sound s₀ h → S a h → exec () .commit () h.cur = some ((), t) →
      Sound s₀ (h.after () .commit () t) ∧ R a (h.after () .commit () t)) :
    Keeps sweepExec (Sound s₀) (transaction body) R h := by
  have hbegin : Keeps sweepExec (Sound s₀) (ask .begin) (fun _ => Stands s₀ ([] :: ls)) h :=
    keeps_ask h₁.sound fun a b t hx => by
      have h₂ := h₁.after hx (blobs_of_not hx rfl)
        (by exact fun c hc => absurd hc List.not_mem_nil) rfl
      exact ⟨h₂.sound, h₂⟩
  refine hbegin.bind fun _ h _ h₂ => ((hbody h h₂).tryCatch fun e h hs => ?_).bind fun a h hs hS => ?_
  · -- ROLLBACK, and the exception goes on
    have hrollback : Keeps sweepExec (Sound s₀) (ask .rollback) (fun _ _ => True) h :=
      keeps_end hs rfl (fun _ _ => rfl) (fun _ => rfl) fun _ _ => True.intro
    exact hrollback.bind fun _ h hs _ => hs
  · have hask : Keeps sweepExec (Sound s₀) (ask .commit) (fun _ => R a) h :=
      keeps_ask hs fun _ _ t hx => hcommit a h t hs hS hx
    exact hask.bind fun _ h hs hR => ⟨hs, hR⟩

end Rules

/-! ## One row -/

section Row

variable {s₀ : VaultState Unit} {L : List Change} {h : SweepHistory} {row : RetentionRow}

theorem mem_expiredObjects : row ∈ expiredObjects s₀ ↔ row ∈ s₀.expired () ∧
    knownTable row.table = true ∧ s₀.db.base.has row.table row.id = true := by
  unfold expiredObjects
  rw [List.mem_filter, Bool.and_eq_true]

/-- An object is there under its key. -/
theorem has_iff {t : Tables} {table : String} {id : Uuid} :
    t.has table id = true ↔ ∃ row ∈ t.objects, row.key = (table, id) := by
  unfold Tables.has
  rw [List.any_eq_true]
  refine exists_congr fun row => and_congr_right fun _ => ?_
  simp [ObjectRow.key]

/-- The object that an expired row speaks of has expired. -/
theorem expired_of_key {key : Key} (hL : Fair s₀ L) (hkey : key ∈ L.flatMap Change.deleted)
    (hrow : ∃ row ∈ s₀.db.base.objects, row.key = key) :
    ∃ row ∈ expiredObjects s₀, row.key = key := by
  obtain ⟨row, hexpired, hknown, rfl⟩ := hL.expired key hkey
  exact ⟨row, mem_expiredObjects.2 ⟨hexpired, hknown, has_iff.2 hrow⟩, rfl⟩

/-- The sweep has not touched any object, where only a stuck one has expired. -/
theorem stuck_objects (hs : Harmless s₀) (hL : Fair s₀ L) (hstuck : Stuck s₀ row)
    (hnew : row.key ∉ L.flatMap Change.deleted) :
    (s₀.db.base.objects.filter fun r => r.key ∉ L.flatMap Change.deleted) = s₀.db.base.objects := by
  refine List.filter_eq_self.2 fun r hr => ?_
  simp only [decide_eq_true_eq]
  intro hkey
  obtain ⟨row', hrow', hsame⟩ := expired_of_key hL hkey ⟨r, hr, rfl⟩
  obtain rfl := hs.apart row hstuck.expired hstuck.referred row' hrow'
  exact hnew (hsame ▸ hkey)

/-- What is found under a key is the only row with it. -/
theorem find_key {rows : List ObjectRow} {key : Key} {r : ObjectRow}
    (hunique : (rows.map ObjectRow.key).Nodup) (hr : r ∈ rows) (hkey : r.key = key) :
    rows.find? (fun row => row.key == key) = some r := by
  cases hfind : rows.find? (fun row => row.key == key) with
  | none =>
    have hnone := List.find?_eq_none.1 hfind r hr
    exact absurd (beq_iff_eq.2 hkey) hnone
  | some r' =>
    have hkey' := List.find?_some hfind
    have hsame : r' = r := List.inj_on_of_nodup_map hunique (List.mem_of_find?_eq_some hfind) hr
      ((beq_iff_eq.1 hkey').trans hkey.symm)
    rw [hsame]

/-- The content that the sweep sees is that of the asset. -/
theorem hash_of_view {id : Uuid} {digest : String} {view : Tables} (hu : Unique s₀.db.base)
    (hview : view.objects = s₀.db.base.objects.filter fun r => r.key ∉ L.flatMap Change.deleted)
    (h : view.hashOf id = some digest) :
    s₀.db.base.hashOf id = some digest ∧ ∃ r ∈ s₀.db.base.objects, r.key = ("assets", id) := by
  unfold Tables.hashOf at h ⊢
  cases hfind : view.objects.find? (fun row => row.key == ("assets", id)) with
  | none =>
    rw [hfind] at h
    cases h
  | some r =>
    rw [hfind] at h
    have hr := List.mem_of_find?_eq_some hfind
    rw [hview] at hr
    have hr := (List.mem_filter.1 hr).1
    have hkey := List.find?_some hfind
    rw [find_key hu.objects hr (beq_iff_eq.1 hkey)]
    exact ⟨h, r, hr, beq_iff_eq.1 hkey⟩

/-- Where no other asset with the content is seen, none with it stays, and the object is not stuck. -/
theorem unshared {digest : String} {view : Tables} (hs : Harmless s₀) (hu : Unique s₀.db.base)
    (hL : Fair s₀ L) (hnew : row.key ∉ L.flatMap Change.deleted)
    (hexpired : row ∈ s₀.expired ()) (htable : row.table = "assets")
    (hview : view.objects = s₀.db.base.objects.filter fun r => r.key ∉ L.flatMap Change.deleted)
    (hhash : view.hashOf row.id = some digest)
    (hnone : ∀ asset ∈ view.withHash digest, asset.id = row.id) :
    s₀.hasBlob digest = false ∧ ¬ Stuck s₀ row := by
  obtain ⟨hhash₀, r, hr, hrkey⟩ := hash_of_view hu hview hhash
  have hrow : row ∈ expiredObjects s₀ := by
    refine mem_expiredObjects.2 ⟨hexpired, ?_, has_iff.2 ⟨r, hr, ?_⟩⟩
    · rw [htable]
      decide
    · rw [htable]
      exact hrkey
  constructor
  · by_contra hblob
    obtain ⟨asset, hasset, hstays⟩ :=
      hs.blobs row hrow htable digest hhash₀ (Bool.not_eq_false _ ▸ hblob)
    obtain ⟨hmem, hcell⟩ := List.mem_filter.1 hasset
    -- the asset that stays is seen
    have hseen : asset ∈ view.withHash digest := by
      refine List.mem_filter.2 ⟨?_, hcell⟩
      rw [hview, List.mem_filter, decide_eq_true_eq]
      refine ⟨hmem, fun hkey => ?_⟩
      obtain ⟨row', hrow', hsame⟩ := expired_of_key hL hkey ⟨asset, hmem, rfl⟩
      exact hstays row' hrow' hsame
    refine hstays row hrow ?_
    have hassets : asset.table = "assets" := beq_iff_eq.1 (Bool.and_eq_true_iff.1 hcell).1
    exact Prod.ext (htable.trans hassets.symm) (hnone asset hseen).symm
  · intro hstuck
    rw [stuck_objects hs hL hstuck hnew] at hview
    refine hstuck.shared ⟨htable, digest, hhash₀, fun asset hasset => hnone asset ?_⟩
    unfold Tables.withHash at hasset ⊢
    rw [hview]
    exact hasset

/-- No blob is deleted, and one that cannot be asked for belongs to an object that is not stuck. -/
theorem tryDeleteBlob_keeps {ls : List (List Change)} {digest : String} {others : Nat}
    (h₁ : Stands s₀ ls h)
    (hnone : others = 0 → s₀.hasBlob digest = false ∧ ¬ Stuck s₀ row) :
    Keeps sweepExec (Stands s₀ ls) (tryDeleteBlob digest (decide (0 < others)))
      (fun failed _ => failed = true → ¬ Stuck s₀ row) h := by
  by_cases hothers : 0 < others
  · rw [decide_eq_true hothers]
    exact ⟨h₁, nofun⟩
  · rw [decide_eq_false hothers]
    obtain ⟨hblob, hstuck⟩ := hnone (Nat.eq_zero_of_not_pos hothers)
    refine Keeps.tryCatch (Keeps.bind (Q := fun _ _ => True) ?_ fun _ h h₂ _ => ⟨h₂, nofun⟩)
      fun e h h₂ => ?_
    · -- the blob is not there
      have hexists : Keeps sweepExec (Stands s₀ ls) (ask (.blobExists digest))
          (fun there _ => there = false) h := by
        refine keeps_quiet h₁ rfl rfl fun a b t hx => ?_
        obtain ⟨rfl, -⟩ := Prod.mk.inj (Option.some.inj hx)
        unfold VaultState.hasBlob at hblob ⊢
        rw [h₁.blobs]
        exact hblob
      refine hexists.bind fun there h h₂ hthere => ?_
      subst hthere
      exact ⟨h₂, True.intro⟩
    · split
      · exact h₂
      · exact ⟨h₂, fun _ => hstuck⟩

/-- The blob of an expired object. -/
theorem blobStep_keeps (hs : Harmless s₀) (hu : Unique s₀.db.base) (h₁ : Stands s₀ [L] h)
    (hL : Fair s₀ L) (hnew : row.key ∉ L.flatMap Change.deleted) (hexpired : row ∈ s₀.expired ()) :
    Keeps sweepExec (Stands s₀ [L]) (blobStep row)
      (fun blob _ => blob.2 = true → ¬ Stuck s₀ row) h := by
  have hkinds : ∀ c ∈ [L].flatten, c.sweeps = true := by simpa using hL.kinds
  unfold blobStep
  split
  case isFalse => exact ⟨h₁, nofun⟩
  rename_i htable
  have hselect : Keeps sweepExec (Stands s₀ [L]) (ask (.selectHash row.id))
      (fun asset _ => contentHash asset = (h.cur.view ()).hashOf row.id) h := by
    refine keeps_quiet h₁ rfl rfl fun a b t hx => ?_
    obtain ⟨rfl, -⟩ := Prod.mk.inj (Option.some.inj hx)
    rfl
  have hobjects := (h₁.view hkinds).1
  rw [List.flatten_singleton] at hobjects
  refine hselect.bind fun asset h₀ h₂ hasset => ?_
  split
  · exact ⟨h₂, nofun⟩
  · rename_i digest hdigest
    have hobjects₂ := (h₂.view hkinds).1
    rw [List.flatten_singleton] at hobjects₂
    have hcount : Keeps sweepExec (Stands s₀ [L]) (ask (.countOthers digest row.id))
        (fun others _ => others = 0 → ∀ asset ∈ (h₀.cur.view ()).withHash digest,
          asset.id = row.id) h₀ := by
      refine keeps_quiet h₂ rfl rfl fun a b t hx hb asset hasset => ?_
      obtain ⟨rfl, -⟩ := Prod.mk.inj (Option.some.inj hx)
      have hnil := List.eq_nil_of_length_eq_zero hb
      have hnone := List.filter_eq_nil_iff.1 hnil asset hasset
      simpa using hnone
    have hhash : (h₀.cur.view ()).hashOf row.id = some digest := by
      unfold Tables.hashOf at hasset ⊢
      rw [hobjects₂, ← hobjects, ← hasset, hdigest]
    refine hcount.bind fun others h₃ h₃' hothers => ?_
    refine (tryDeleteBlob_keeps h₃' fun hzero => ?_).bind fun failed h₄ h₄' hfailed =>
      ⟨h₄', hfailed⟩
    exact unshared hs hu hL hnew hexpired htable hobjects₂ hhash (hothers hzero)

/-- The changes of one deletion, newest first. -/
def deletion (row : RetentionRow) (digest : Option String) : List Change :=
  [.insertAudit (deletionAudit row digest), .markDeleted row.key, .deleteObject row.key]

/-- One more deletion. -/
theorem Fair.deletion (hL : Fair s₀ L) (hexpired : row ∈ s₀.expired ())
    (hknown : knownTable row.table = true) (hnew : row.key ∉ L.flatMap Change.deleted)
    (digest : Option String) : Fair s₀ (deletion row digest ++ L) where
  kinds c hc := by
    rcases List.mem_append.1 hc with hc | hc
    · simp only [Vault.deletion, List.mem_cons, List.not_mem_nil, or_false] at hc
      rcases hc with rfl | rfl | rfl <;> rfl
    · exact hL.kinds c hc
  audited := by
    rw [List.filterMap_append, List.flatMap_append, hL.audited]
    rfl
  once := List.nodup_cons.2 ⟨hnew, hL.once⟩
  expired key hkey := by
    rcases List.mem_cons.1 hkey with rfl | hkey
    · exact ⟨row, hexpired, hknown, rfl⟩
    · exact hL.expired key hkey

/-- A DELETE that another row stands in the way of. -/
theorem refused_of_view {view : Tables} {key : Key}
    (hview : view.objects = s₀.db.base.objects.filter fun r => r.key ∉ L.flatMap Change.deleted)
    (htaxonomy : view.taxonomy = s₀.db.base.taxonomy) (hlinkage : view.linkage = s₀.db.base.linkage)
    (hhas : view.has key.1 key.2 = true) (hrefers : view.refersTo key = true) :
    s₀.db.base.has key.1 key.2 = true ∧ s₀.db.base.refersTo key = true := by
  have hsub : ∀ r ∈ view.objects, r ∈ s₀.db.base.objects := by
    intro r hr
    rw [hview] at hr
    exact (List.mem_filter.1 hr).1
  constructor
  · obtain ⟨r, hr, hkey⟩ := has_iff.1 hhas
    exact has_iff.2 ⟨r, hsub r hr, hkey⟩
  · unfold Tables.refersTo at hrefers ⊢
    rw [htaxonomy, hlinkage] at hrefers
    simp only [Bool.or_eq_true, List.any_eq_true] at hrefers ⊢
    refine hrefers.imp_left (Or.imp_left ?_)
    rintro ⟨r, hr, hrefers⟩
    exact ⟨r, hsub r hr, hrefers⟩

/-- The object goes, its row is marked, and both are audited; or it was refused. -/
theorem deleteExpired_keeps (hs : Harmless s₀) (h₁ : Stands s₀ [L] h) (hL : Fair s₀ L)
    (hnew : row.key ∉ L.flatMap Change.deleted) (hexpired : row ∈ s₀.expired ())
    (hknown : knownTable row.table = true) (digest : Option String) :
    Keeps sweepExec (Sound s₀) (deleteExpired row digest)
      (fun _ h => Stands s₀ [deletion row digest ++ L] h ∧ ¬ Stuck s₀ row) h := by
  have hmarked {h : SweepHistory} (h₂ : Stands s₀ [[.deleteObject row.key], L] h) :
      Keeps sweepExec (Sound s₀) (ask (.markDeleted row.key))
        (fun _ => Stands s₀ [[.markDeleted row.key, .deleteObject row.key], L]) h :=
    keeps_ask h₂.sound fun a b t hx => by
      have h₃ := h₂.after hx (blobs_of_not hx rfl)
        (by exact fun c hc => absurd hc List.not_mem_nil) rfl
      exact ⟨h₃.sound, h₃⟩
  have haudited {h : SweepHistory}
      (h₂ : Stands s₀ [[.markDeleted row.key, .deleteObject row.key], L] h) :
      Keeps sweepExec (Sound s₀) (ask (.writeAudit .own (deletionAudit row digest)))
        (fun _ => Stands s₀ [deletion row digest, L]) h :=
    keeps_ask h₂.sound fun a b t hx => by
      have h₃ := h₂.after hx (blobs_of_not hx rfl)
        (by exact fun c hc => absurd hc List.not_mem_nil) rfl
      exact ⟨h₃.sound, h₃⟩
  refine keeps_transaction (S := fun _ h => Stands s₀ [deletion row digest, L] h ∧ ¬ Stuck s₀ row)
    h₁ (fun h h₂ => ?_) fun a h t _ hR hx => ?_
  · have hview := h₂.view (by simpa using hL.kinds)
    rw [List.flatten_cons, List.nil_append, List.flatten_singleton] at hview
    obtain ⟨hobjects, htaxonomy, hlinkage⟩ := hview
    have hdelete : Keeps sweepExec (Sound s₀) (ask (.deleteObject row.key))
        (fun answer h => ∀ u, answer = .ok u →
          Stands s₀ [[.deleteObject row.key], L] h ∧ ¬ Stuck s₀ row) h := by
      refine keeps_ask h₂.sound fun a b t hx => ?_
      simp only [exec] at hx
      split at hx
      · -- refused
        rename_i hrefused
        obtain ⟨rfl, rfl⟩ := Prod.mk.inj (Option.some.inj hx)
        obtain ⟨hhas, hrefers⟩ := Bool.and_eq_true_iff.1 hrefused
        obtain ⟨hhas, hrefers⟩ := refused_of_view hobjects htaxonomy hlinkage hhas hrefers
        have hswept : swept (h.after () (.deleteObject row.key) (.error .foreignKeyViolation) h.cur)
            = swept h := by
          rw [swept_after, h₂.levels]
          rfl
        refine ⟨⟨?_, h₂.blobs, fun key hkey => ?_, ?_, .inl ?_⟩, nofun⟩
        · rw [hswept]
          exact h₂.base
        · obtain ⟨e, he, hop, hrefusal⟩ := hkey
          rcases List.mem_cons.1 he with rfl | he
          · obtain rfl : row.key = key := VaultOp.deleteObject.inj hop
            exact ⟨row, mem_expiredObjects.2 ⟨hexpired, hknown, hhas⟩, rfl, hrefers⟩
          · exact absurd ⟨e, he, hop, hrefusal⟩ (h₂.calm key)
        · rw [hswept]
          exact .of_aside h₂.aside
        · rw [hswept]
          exact h₂.aside
      · rename_i hallowed
        obtain ⟨rfl, rfl⟩ := Prod.mk.inj (Option.some.inj hx)
        have hx' : exec () (.deleteObject row.key) a h.cur =
            some (.ok (), h.cur.write () (.deleteObject row.key)) := by
          simp only [exec]
          rw [if_neg hallowed]
        have h₃ := h₂.after hx' rfl (by exact fun c hc => absurd hc List.not_mem_nil) rfl
        refine ⟨h₃.sound, fun u _ => ⟨h₃, fun hstuck => hallowed ?_⟩⟩
        -- a stuck object is there, and referred to
        rw [stuck_objects hs hL hstuck hnew] at hobjects
        obtain ⟨-, -, hhas⟩ := mem_expiredObjects.1 hstuck.expired
        have hrefers := hstuck.referred
        unfold Tables.has at hhas ⊢
        unfold Tables.refersTo at hrefers ⊢
        rw [hobjects, htaxonomy, hlinkage]
        exact Bool.and_eq_true_iff.2 ⟨hhas, hrefers⟩
    refine hdelete.bind fun answer h hsound hR => ?_
    cases answer with
    | error e => exact hsound
    | ok u =>
      obtain ⟨h₃, hstuck⟩ := hR u rfl
      exact (hmarked h₃).bind fun _ h _ h₄ => (haudited h₄).mono fun _ h _ h₅ => ⟨h₅, hstuck⟩
  · obtain ⟨h₂, hstuck⟩ := hR
    have h₃ := h₂.after hx (blobs_of_not hx rfl)
      (by exact fun c hc => absurd hc List.not_mem_nil) rfl
    exact ⟨h₃.sound, h₃, hstuck⟩

/-- A deletion that did not take place is audited on a connection of its own. -/
theorem failedAudit_keeps (h₁ : Stands s₀ [L] h) (digest : Option String) :
    Keeps sweepExec (Sound s₀) (writeAuditIsolated (failedAudit row digest))
      (fun _ => Stands s₀ [L]) h := by
  refine keeps_connection h₁ (fun h h₂ => ?_) fun _ h _ h₂ => ?_
  · refine keeps_ask h₂.sound fun a b t hx => ?_
    have h₃ := h₂.after hx (blobs_of_not hx rfl)
      (by exact fun c hc => List.mem_singleton.1 hc ▸ rfl) rfl
    exact ⟨h₃.sound, h₃⟩
  · refine keeps_ask h₂.sound fun a b t hx => ?_
    have h₃ := h₂.quiet hx rfl (blobs_of_not hx rfl)
    exact ⟨h₃.sound, h₃⟩

/-- After some rows: these and what was deleted before, and none of them was stuck. -/
structure Through (s₀ : VaultState Unit) (L : List Change) (rows : List RetentionRow)
    (h : SweepHistory) : Prop where
  unstuck : ∀ row ∈ rows, ¬ Stuck s₀ row
  stands : ∃ L', Stands s₀ [L'] h ∧ Fair s₀ L' ∧
    ∀ key ∈ L'.flatMap Change.deleted, key ∈ rows.map RetentionRow.key ∨
      key ∈ L.flatMap Change.deleted

theorem Through.one {L' : List Change} (h₁ : Stands s₀ [L'] h) (hL' : Fair s₀ L')
    (hstuck : ¬ Stuck s₀ row) (hdeleted : ∀ key ∈ L'.flatMap Change.deleted, key = row.key ∨
      key ∈ L.flatMap Change.deleted) : Through s₀ L [row] h where
  unstuck _ hrow' := List.mem_singleton.1 hrow' ▸ hstuck
  stands := ⟨L', h₁, hL', fun key hkey => (hdeleted key hkey).imp_left fun h =>
    List.mem_singleton.2 h⟩

/-- One round of the loop. -/
theorem processRow_keeps (hs : Harmless s₀) (hu : Unique s₀.db.base) (h₁ : Stands s₀ [L] h)
    (hL : Fair s₀ L) (hnew : row.key ∉ L.flatMap Change.deleted) (hexpired : row ∈ s₀.expired ()) :
    Keeps sweepExec (Sound s₀) (processRow row) (fun _ => Through s₀ L [row]) h := by
  unfold processRow
  split
  · rename_i htable
    have hknown : knownTable row.table = true := by
      rcases htable with htable | hknown
      · rw [htable]
        decide
      · exact hknown
    have hblob := (blobStep_keeps hs hu h₁ hL hnew hexpired).weaken fun _ h₂ => h₂.sound
    refine hblob.bind fun blob h _ h₂ => ?_
    obtain ⟨hfailed, h₂⟩ := h₂
    obtain ⟨digest, failed⟩ := blob
    cases failed with
    | true =>
      refine (failedAudit_keeps h₂ digest).bind fun _ h hsound h₃ => ⟨hsound, ?_⟩
      exact .one h₃ hL (hfailed rfl) fun key hkey => .inr hkey
    | false =>
      refine (deleteExpired_keeps hs h₂ hL hnew hexpired hknown digest).bind
        fun _ h hsound h₃ => ⟨hsound, ?_⟩
      exact .one h₃.1 (hL.deletion hexpired hknown hnew digest) h₃.2 fun key hkey =>
        List.mem_cons.1 hkey
  · -- an unknown table is left alone
    rename_i htable
    refine ⟨h₁.sound, .one h₁ hL (fun hstuck => htable (.inr ?_)) fun key hkey => .inr hkey⟩
    exact (mem_expiredObjects.1 hstuck.expired).2.1

/-- The loop. -/
theorem sweepRows_keeps (hs : Harmless s₀) (hu : Unique s₀.db.base) {rows : List RetentionRow}
    (h₁ : Stands s₀ [L] h) (hL : Fair s₀ L) (honce : (rows.map RetentionRow.key).Nodup)
    (hnew : ∀ row ∈ rows, row.key ∉ L.flatMap Change.deleted)
    (hexpired : ∀ row ∈ rows, row ∈ s₀.expired ()) :
    Keeps sweepExec (Sound s₀) (sweepRows rows) (fun _ => Through s₀ L rows) h := by
  induction rows generalizing L h with
  | nil => exact ⟨h₁.sound, fun _ hrow => absurd hrow List.not_mem_nil, L, h₁, hL, fun _ hkey => .inr hkey⟩
  | cons row rest ih =>
    obtain ⟨hrow, hrest⟩ := List.nodup_cons.1 honce
    refine (processRow_keeps hs hu h₁ hL (hnew row List.mem_cons_self)
      (hexpired row List.mem_cons_self)).bind fun swept h _ h₂ => ?_
    obtain ⟨hunstuck, L', h₂, hL', hdeleted⟩ := h₂
    have hnew' : ∀ row' ∈ rest, row'.key ∉ L'.flatMap Change.deleted := by
      intro row' hrow' hkey
      rcases hdeleted _ hkey with hsame | hkey
      · exact hrow (List.mem_map.2 ⟨row', hrow', List.mem_singleton.1 hsame⟩)
      · exact hnew row' (List.mem_cons_of_mem _ hrow') hkey
    refine (ih h₂ hL' hrest hnew' fun row' hrow' =>
      hexpired row' (List.mem_cons_of_mem _ hrow')).bind fun counts h hsound h₃ => ⟨hsound, ?_⟩
    obtain ⟨hunstuck', L'', h₃, hL'', hdeleted'⟩ := h₃
    refine ⟨fun row' hrow' => ?_, L'', h₃, hL'', fun key hkey => ?_⟩
    · rcases List.mem_cons.1 hrow' with rfl | hrow'
      · exact hunstuck _ (List.mem_singleton.2 rfl)
      · exact hunstuck' row' hrow'
    · rcases hdeleted' key hkey with hkey | hkey
      · exact .inl (List.mem_cons_of_mem _ hkey)
      · rcases hdeleted key hkey with hsame | hkey
        · exact .inl (List.mem_cons.2 (.inl (List.mem_singleton.1 hsame)))
        · exact .inr hkey

end Row

/-! ## The sweep -/

section Sweep

variable {s₀ : VaultState Unit} {h : SweepHistory}

/-- Nobody else has locked a row. -/
theorem locked_alone {s : VaultState Unit} : s.locked () = [] := by
  unfold VaultState.locked
  have hnone : (s.active.filter fun j => j ≠ ()) = [] :=
    List.filter_eq_nil_iff.2 fun j _ => by simp
  rw [hnone]
  rfl

theorem expired_alone {s : VaultState Unit} {row : RetentionRow} :
    row ∈ s.expired () ↔ row ∈ (s.view ()).retention ∧ row.expiresAt ≤ s.clock ∧
      row.deleted = false := by
  unfold VaultState.expired
  rw [List.mem_filter, locked_alone]
  simp

theorem Stands.retention (h₁ : Stands s₀ [[]] h) :
    (h.cur.view ()).retention = s₀.db.base.retention := by
  unfold VaultState.view Sessions.view Sessions.pending
  rw [h₁.levels, h₁.base]
  exact foldr_aside_retention h₁.aside

/-- The rows that the sweep selects are the expired ones. -/
theorem Stands.expired (h₁ : Stands s₀ [[]] h) (hidle : s₀.db.levels () = []) :
    h.cur.expired () = s₀.expired () := by
  have hview : (s₀.view ()).retention = s₀.db.base.retention := by
    unfold VaultState.view Sessions.view Sessions.pending
    rw [hidle]
    rfl
  unfold VaultState.expired
  rw [h₁.retention, h₁.clock, hview, locked_alone, locked_alone]

theorem expired_once (hu : Unique s₀.db.base) (h₁ : Stands s₀ [[]] h) :
    ((h.cur.expired ()).map RetentionRow.key).Nodup := by
  unfold VaultState.expired
  rw [h₁.retention]
  exact (List.filter_sublist.map _).nodup hu.retention

/-- The expired rows, one after the other. -/
theorem sweepExpired_keeps (hs : Harmless s₀) (hu : Unique s₀.db.base)
    (hidle : s₀.db.levels () = []) (h₁ : Stands s₀ [[]] h) :
    Keeps sweepExec (Sound s₀) sweepExpired (fun _ h => (∃ L, Stands s₀ [L] h ∧ Fair s₀ L) ∧
      ∀ row ∈ s₀.expired (), ¬ Stuck s₀ row) h := by
  have hselect : Keeps sweepExec (Sound s₀) (ask .selectExpired) (fun rows h' =>
      Stands s₀ [rows.map fun row => .lockRetention row.key] h' ∧
        rows.Perm (h.cur.expired ())) h := by
    refine keeps_ask h₁.sound fun a b t hx => ?_
    have hperm : b.Perm (h.cur.expired ()) := by
      simp only [exec] at hx
      split at hx
      · rename_i hperm
        obtain ⟨rfl, -⟩ := Prod.mk.inj (Option.some.inj hx)
        exact List.isPerm_iff.1 hperm
      · cases hx
    have h₂ := h₁.after hx (blobs_of_not hx rfl)
      (by exact fun c hc => absurd hc List.not_mem_nil) rfl
    have hlevels : (stepOf .selectExpired b).levels [[]] =
        [b.map fun row => .lockRetention row.key] := by
      show [_ ++ []] = _
      rw [List.append_nil]
    rw [hlevels] at h₂
    exact ⟨h₂.sound, h₂, hperm⟩
  refine hselect.bind fun rows h' _ h₂ => ?_
  obtain ⟨h₂, hperm⟩ := h₂
  have hlocks : ∀ c ∈ rows.map (fun row => Change.lockRetention row.key), c.aside = true := by
    intro c hc
    obtain ⟨row, -, rfl⟩ := List.mem_map.1 hc
    rfl
  refine (sweepRows_keeps hs hu h₂ (.of_aside hlocks) ?_ ?_ fun row hrow => ?_).mono
    fun counts h _ h₃ => ?_
  · exact ((hperm.map RetentionRow.key).nodup_iff).2 (expired_once hu h₁)
  · intro row _
    rw [deleted_aside hlocks]
    exact List.not_mem_nil
  · rw [← h₁.expired hidle]
    exact hperm.mem_iff.1 hrow
  · obtain ⟨hunstuck, L, h₃, hL, -⟩ := h₃
    rw [← h₁.expired hidle]
    exact ⟨⟨L, h₃, hL⟩, fun row hrow => hunstuck row (hperm.mem_iff.2 hrow)⟩

/-- Once the batch is committed, a statement outside of a transaction. -/
theorem keeps_outside {o : VaultOp} (hs : Sound s₀ h ∧ h.cur.db.levels () = [])
    (hblobs : o.ofBlobs = false) (hcalm : ∀ b : o.Res, refusal o b = false)
    (hwritten : ∀ b : o.Res, ∀ c ∈ (stepOf o b).written, c.aside = true)
    (hlevels : ∀ b : o.Res, (stepOf o b).levels [] = []) :
    Keeps sweepExec (Sound s₀) (ask o) (fun _ h => Sound s₀ h ∧ h.cur.db.levels () = []) h := by
  refine keeps_ask hs.1 fun a b t hx => ?_
  have hlanded : ∀ c ∈ (stepOf o b).landed (h.cur.db.levels ()), c.aside = true := by
    intro c hc
    rw [hs.2] at hc
    exact hwritten b c ((Step.mem_landed hc).resolve_right List.not_mem_nil)
  have h₁ := hs.1.after hx (blobs_of_not hx hblobs) hlanded (hcalm b)
  refine ⟨h₁, h₁, ?_⟩
  show t.db.levels () = []
  rw [exec_db hx, Step.run_self, hs.2]
  exact hlevels b

/-- At every point of a sweep that can do no harm. -/
theorem sweep_sound {tables : Tables} {blobs : List (String × List UInt8)} {clock : Int}
    (hs : Harmless (alone tables blobs clock)) (hu : Unique tables) :
    Keeps sweepExec (Sound (alone tables blobs clock)) runRetentionExpiry (fun _ _ => True)
      ⟨alone tables blobs clock, [], []⟩ := by
  have h₀ : Stands (alone tables blobs clock) [] ⟨alone tables blobs clock, [], []⟩ :=
    ⟨rfl, rfl, fun c hc => absurd hc List.not_mem_nil, rfl, rfl, by
      rintro key ⟨e, he, -⟩
      exact List.not_mem_nil he⟩
  refine keeps_connection h₀ (fun h h₁ => ?_) fun _ h hsound _ =>
    keeps_end hsound rfl landed_release (fun _ => rfl) fun _ _ => True.intro
  have hrun : Keeps sweepExec (Sound (alone tables blobs clock)) (ask .insertRun)
      (fun _ => Stands (alone tables blobs clock) []) h :=
    keeps_ask h₁.sound fun a b t hx => by
      have h₂ := h₁.after hx (blobs_of_not hx rfl)
        (by exact fun c hc => List.mem_singleton.1 hc ▸ rfl) rfl
      exact ⟨h₂.sound, h₂⟩
  refine hrun.bind fun runId h _ h₂ => ?_
  refine (keeps_transaction (R := fun _ h => Sound (alone tables blobs clock) h ∧
      h.cur.db.levels () = []) h₂ (fun h h₃ => sweepExpired_keeps hs hu rfl h₃)
    fun a h t hsound hR hx => ?_).bind fun counts h _ h₃ => ?_
  · -- COMMIT of the batch
    obtain ⟨⟨L, h₃, hL⟩, hunstuck⟩ := hR
    have hswept : swept (h.after () .commit () t) = L ++ swept h := by
      rw [swept_after, h₃.levels]
      rfl
    have hlevels : t.db.levels () = [] := by
      rw [exec_db hx, Step.run_self, h₃.levels]
      rfl
    have hcalm : ∀ key, ¬ RefusedOf (h.after () .commit () t) key :=
      fun key hkey => h₃.calm key (refusedOf_after rfl hkey)
    have hafter : Sound (alone tables blobs clock) (h.after () .commit () t) := by
      refine ⟨base_after hx h₃.base, (blobs_of_not hx rfl).trans h₃.blobs, fun key hkey => ?_, ?_,
        .inr ⟨hcalm, hunstuck⟩⟩
      · exact absurd hkey (hcalm key)
      · rw [hswept]
        exact hL.append_aside h₃.aside
    exact ⟨hafter, hafter, hlevels⟩
  · -- the housekeeping
    have hnow : Keeps sweepExec (Sound (alone tables blobs clock)) (ask .utcNow)
        (fun _ h => Sound (alone tables blobs clock) h ∧ h.cur.db.levels () = []) h :=
      keeps_outside h₃ rfl (fun _ => rfl) (fun _ _ hc => absurd hc List.not_mem_nil) fun _ => rfl
    refine hnow.bind fun now h _ h₄ => ?_
    have hpurge : Keeps sweepExec (Sound (alone tables blobs clock))
        (ask (.purgeAccessLog (now - accessLogRetention)))
        (fun _ h => Sound (alone tables blobs clock) h ∧ h.cur.db.levels () = []) h :=
      keeps_outside h₄ rfl (fun _ => rfl) (fun _ _ hc => List.mem_singleton.1 hc ▸ rfl) fun _ => rfl
    refine hpurge.bind fun purged h _ h₅ => ?_
    have hfinish : Keeps sweepExec (Sound (alone tables blobs clock))
        (ask (.finishRun runId counts.1))
        (fun _ h => Sound (alone tables blobs clock) h ∧ h.cur.db.levels () = []) h :=
      keeps_outside h₅ rfl (fun _ => rfl) (fun _ _ hc => List.mem_singleton.1 hc ▸ rfl) fun _ => rfl
    exact hfinish.bind fun _ h hsound _ => ⟨hsound, True.intro⟩

end Sweep

end CanvasOS.Vault
