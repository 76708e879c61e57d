/-
  What the requests of Vault write.

  1. `stepOf`, `vault_ledgered` — every statement on the sessions of the database (`Lib.Ledger`).
  2. `Change.rowKeys`, `Change.linkKeys` — the keys that a change inserts.  Keys of objects are never
     taken out of `object_taxonomy`, so that an id is not given twice.
  3. `WellKept`, `Keyed` — what holds of the keys in every state: the rows of an object are committed
     together, and two transactions never insert the same key.
-/
import CanvasOS.Lib.Ledger
import CanvasOS.Vault.Retention

namespace CanvasOS.Vault

open Python Interleave Transaction

variable {ι : Type} [DecidableEq ι]

/-! ## Statements on the sessions -/

/-- What a statement, once it is answered, does to the sessions. -/
def stepOf : (o : VaultOp) → o.Res → Step Change
  | .release .own, _ => .reset
  | .begin, _ => .begin
  | .commit, _ => .commit
  | .rollback, _ => .rollback
  | .insertObject new, .ok id => .writes [.insertObject new id]
  | .linkConsent row, .ok true => .writes [.insertLinkage row]
  | .updateObject key sets, _ => .writes [.updateObject key sets]
  | .deleteObject key, .ok _ => .writes [.deleteObject key]
  | .writeAudit .own row, _ => .writes [.insertAudit row]
  | .writeAudit .isolated row, _ => .aside (.insertAudit row)
  | .insertRun, id => .writes [.insertRun id]
  | .finishRun id deletedCount, _ => .writes [.finishRun id deletedCount]
  | .purgeAccessLog cutoff, _ => .writes [.purgeAccessLog cutoff]
  | .selectExpired, rows => .writes (rows.map fun row => .lockRetention row.key)
  | .markDeleted key, _ => .writes [.markDeleted key]
  | _, _ => .writes []

theorem exec_db {i : ι} {o : VaultOp} {a b : o.Res} {s t : VaultState ι}
    (h : exec i o a s = some (b, t)) : t.db = (stepOf o b).run Change.apply i s.db := by
  unfold exec at h
  split at h <;> (repeat' split at h) <;>
    first
    | contradiction
    | (cases h; rfl)
    | (cases h; exact Sessions.writes_nil.symm)

/-- Only two statements are about what is in the container. -/
theorem exec_blobs {i : ι} {o : VaultOp} {a b : o.Res} {s t : VaultState ι}
    (hx : exec i o a s = some (b, t)) (hupload : ∀ digest data, o ≠ .uploadBlob digest data)
    (hdelete : ∀ digest, o ≠ .deleteBlob digest) : t.blobs = s.blobs := by
  unfold exec at hx
  split at hx <;> (repeat' split at hx) <;>
    first
    | contradiction
    | (cases hx; rfl)
    | exact absurd rfl (hupload _ _)
    | exact absurd rfl (hdelete _)

theorem vault_ledgered :
    Ledgered (exec (ι := ι)) VaultState.db Change.apply stepOf :=
  ⟨fun _ _ _ _ _ _ h => exec_db h⟩

/-- The statement writes nothing, and opens or ends no transaction. -/
def VaultOp.quiet : VaultOp → Bool
  | .acquire _ | .release .isolated | .utcNow | .fetchObject _ | .selectTaxonomy _ | .selectRun _
  | .selectHash _ | .countOthers .. | .blobExists _ | .uploadBlob .. | .deleteBlob _ => true
  | _ => false

theorem stepOf_quiet {o : VaultOp} (ho : o.quiet = true) (a : o.Res) : stepOf o a = .writes [] := by
  cases o with
  | release conn => cases conn with
    | own => cases ho
    | isolated => rfl
  | begin | commit | rollback | insertObject | findActiveConsent | linkConsent | updateObject
  | deleteObject | writeAudit | insertRun | finishRun | purgeAccessLog | selectExpired | markDeleted => cases ho
  | _ => rfl

/-! ## Keys -/

/-- The key of the object that a change inserts. -/
def Change.rowKeys : Change → List Key
  | .insertObject new id => [(new.table, id)]
  | _ => []

/-- The key of the linkage that a change inserts. -/
def Change.linkKeys : Change → List Key
  | .insertLinkage row => [row.key]
  | _ => []

namespace Tables

def objectKeys (t : Tables) : List Key := t.objects.map ObjectRow.key

def taxonomyKeys (t : Tables) : List Key := t.taxonomy.map TaxonomyRow.key

def linkageKeys (t : Tables) : List Key := t.linkage.map LinkageRow.key

variable {c : Change} {t : Tables}

/-- A row of `object_taxonomy` is never taken away. -/
theorem apply_taxonomyKeys : (c.apply t).taxonomyKeys = c.rowKeys ++ t.taxonomyKeys := by
  cases c <;> rfl

theorem apply_linkageKeys : (c.apply t).linkageKeys = c.linkKeys ++ t.linkageKeys := by
  cases c <;> rfl

theorem set_key (row : ObjectRow) (sets : List (String × SqlValue)) :
    (sets.foldl ObjectRow.set row).key = row.key := by
  induction sets generalizing row with
  | nil => rfl
  | cons set sets ih => exact ih _

theorem apply_objectKeys : (c.apply t).objectKeys.Sublist (c.rowKeys ++ t.objectKeys) := by
  cases c with
  | deleteObject key => exact List.filter_sublist.map _
  | updateObject key sets =>
    have hkeys : ((Change.updateObject key sets).apply t).objectKeys = t.objectKeys := by
      unfold objectKeys Change.apply
      rw [List.map_map]
      refine List.map_congr_left fun row _ => ?_
      show ObjectRow.key (if _ then _ else _) = _
      split
      · exact set_key row sets
      · rfl
    rw [hkeys]
    exact List.Sublist.refl _
  | _ => exact List.Sublist.refl _

theorem foldr_taxonomyKeys (cs : List Change) :
    (cs.foldr Change.apply t).taxonomyKeys = cs.flatMap Change.rowKeys ++ t.taxonomyKeys := by
  induction cs with
  | nil => rfl
  | cons c cs ih => rw [List.foldr_cons, apply_taxonomyKeys, ih, List.flatMap_cons, List.append_assoc]

theorem foldr_linkageKeys (cs : List Change) :
    (cs.foldr Change.apply t).linkageKeys = cs.flatMap Change.linkKeys ++ t.linkageKeys := by
  induction cs with
  | nil => rfl
  | cons c cs ih => rw [List.foldr_cons, apply_linkageKeys, ih, List.flatMap_cons, List.append_assoc]

theorem foldr_objectKeys (cs : List Change) :
    (cs.foldr Change.apply t).objectKeys.Sublist (cs.flatMap Change.rowKeys ++ t.objectKeys) := by
  induction cs with
  | nil => exact List.Sublist.refl _
  | cons c cs ih =>
    rw [List.foldr_cons, List.flatMap_cons, List.append_assoc]
    exact apply_objectKeys.trans (List.Sublist.append_left ih _)

end Tables

/-! ## Where a connection stands -/

/-- A connection of Vault: what it has executed, and its levels. -/
abbrev VaultStanding := Standing VaultOp VaultOp.Res Change

/-- What the connection has committed. -/
abbrev committed (x : VaultStanding) : List Change := x.landed stepOf

/-- A statement commits no linkage without its object and at most one object, links the object that
    its transaction has inserted, looks for a consent before anything is written, and updates inside of
    a transaction. -/
structure TidyDeed (d : Deed VaultOp VaultOp.Res Change) : Prop where
  linked : ∀ k ∈ (d.landed stepOf).flatMap Change.linkKeys,
    k ∈ (d.landed stepOf).flatMap Change.rowKeys
  one : ((d.landed stepOf).flatMap Change.rowKeys).length ≤ 1
  link : ∀ row, d.op = .linkConsent row →
    row.key ∈ d.levels.flatten.flatMap Change.rowKeys ∧ d.levels.flatten.flatMap Change.linkKeys = []
  check : ∀ subject channel purpose, d.op = .findActiveConsent subject channel purpose →
    d.levels = [[]]
  update : ∀ key sets, d.op = .updateObject key sets → d.levels ≠ []

/-- The statements that may stand anywhere. -/
def VaultOp.free : VaultOp → Bool
  | .linkConsent _ | .findActiveConsent .. | .updateObject .. => false
  | _ => true

theorem free_of_quiet {o : VaultOp} (ho : o.quiet = true) : o.free = true := by
  cases o <;> first | rfl | cases ho

/-- The change inserts neither an object nor a linkage. -/
def Change.keyless (c : Change) : Prop := c.rowKeys = [] ∧ c.linkKeys = []

/-- No keys are committed. -/
theorem TidyDeed.of_keyless {o : VaultOp} {a : o.Res} {ls : List (List Change)}
    (hlanded : ∀ c ∈ (stepOf o a).landed ls, c.keyless) (ho : o.free = true) :
    TidyDeed ⟨o, a, ls⟩ := by
  have hrows : ((stepOf o a).landed ls).flatMap Change.rowKeys = [] :=
    List.flatMap_eq_nil_iff.2 fun c hc => (hlanded c hc).1
  have hlinks : ((stepOf o a).landed ls).flatMap Change.linkKeys = [] :=
    List.flatMap_eq_nil_iff.2 fun c hc => (hlanded c hc).2
  constructor
  case linked =>
    intro k hk
    rw [Deed.landed, hlinks] at hk
    exact absurd hk List.not_mem_nil
  case one =>
    rw [Deed.landed, hrows]
    exact Nat.zero_le 1
  case link =>
    rintro row rfl
    cases ho
  case check =>
    rintro subject channel purpose rfl
    cases ho
  case update =>
    rintro key sets rfl
    cases ho

/-- Where a connection stands: its levels, what it has committed, and that it is tidy. -/
structure At (ls : List (List Change)) (L : List Change) (x : VaultStanding) : Prop where
  levels : x.levels = ls
  committed : committed x = L
  tidy : ∀ d ∈ x.deeds, TidyDeed d

section Rules

variable {α : Type} {J : VaultStanding → Prop} {x : VaultStanding} {ls : List (List Change)}
  {L : List Change} {o : VaultOp}

theorem At.after (h : At ls L x) {a : o.Res} (hd : TidyDeed ⟨o, a, ls⟩) :
    At ((stepOf o a).levels ls) ((stepOf o a).landed ls ++ L) (x.after stepOf o a) := by
  refine ⟨?_, ?_, fun d hd' => ?_⟩
  · rw [Standing.after_levels, h.levels]
  · show (x.after stepOf o a).landed stepOf = _
    rw [Standing.after_landed, h.levels]
    exact congrArg _ h.committed
  · rcases Standing.mem_after.1 hd' with rfl | hd'
    · rw [h.levels]
      exact hd
    · exact h.tidy d hd'

/-- A quiet statement leaves everything as it is. -/
theorem At.quiet (h : At ls L x) (ho : o.quiet = true) (a : o.Res) :
    At ls L (x.after stepOf o a) := by
  have hstep := stepOf_quiet ho a
  have hlanded : (stepOf o a).landed ls = [] := by
    rw [hstep]
    cases ls <;> rfl
  have hlevels : (stepOf o a).levels ls = ls := by
    rw [hstep]
    cases ls <;> rfl
  have hnone : ∀ c ∈ (stepOf o a).landed ls, c.keyless := by
    rw [hlanded]
    exact fun c hc => absurd hc List.not_mem_nil
  have hafter := h.after (TidyDeed.of_keyless hnone (free_of_quiet ho))
  rwa [hlevels, hlanded, List.nil_append] at hafter

/-- What a driver raises has no code. -/
def Failure.code : Failure → Option String
  | .http _ _ code _ => some code
  | _ => none

theorem driver_code (e : Failure) : e.driver.code = none := by
  cases e <;> rfl

/-- One statement: answered, not executed, or executed without its answer arriving. -/
theorem upholds_ask {Q : Except Failure o.Res → VaultStanding → Prop} (hx : J x)
    (hok : ∀ a, J (x.after stepOf o a) ∧ Q (.ok a) (x.after stepOf o a))
    (hfailed : ∀ e : Failure, e.code = none → Q (.error e) x)
    (hlost : ∀ (e : Failure) a, e.code = none → Q (.error e) (x.after stepOf o a)) :
    Upholds (deed stepOf) J (ask o) Q x := by
  refine ⟨hx, fun e => ⟨hx, hfailed _ (driver_code e)⟩, fun a b y hy => ?_⟩
  rw [deed_eq_some hy]
  exact ⟨hok b, fun e => ⟨(hok b).1, hlost _ b (driver_code e)⟩⟩

/-- A routine of quiet statements leaves everything as it is. -/
theorem upholds_quiet {p : VaultM α} {F : Failure → Prop} {Z : VaultStanding → Prop}
    (hp : p.Within (fun o => o.quiet = true) F) (hx : Z x) (hJ : ∀ x, Z x → J x)
    (hkeep : ∀ x (o : VaultOp) a, o.quiet = true → Z x → Z (x.after stepOf o a)) :
    Upholds (deed stepOf) J p (fun out x => Z x ∧ ∀ e, out = .error e → F e) x := by
  induction p generalizing x with
  | pure a => exact ⟨hJ x hx, hx, nofun⟩
  | throw e =>
    refine ⟨hJ x hx, hx, fun e' he => ?_⟩
    obtain rfl := Except.error.inj he
    exact hp
  | op o k ih =>
    refine ⟨hJ x hx, fun e => ih _ (hp.2 _) hx, fun a b y hy => ?_⟩
    rw [deed_eq_some hy]
    have hy' := hkeep x o b hp.1 hx
    exact ⟨ih _ (hp.2 _) hy', fun e => ih _ (hp.2 _) hy'⟩

theorem ask_within {P : VaultOp → Prop} (h : P o) :
    (ask o).Within P fun e => e.code = none := by
  refine ⟨h, fun r => ?_⟩
  cases r with
  | ok a => exact True.intro
  | error e => exact driver_code e

end Rules

end CanvasOS.Vault
