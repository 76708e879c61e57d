/-
  The database of Vault, its blob container and its connection pool.

  1. `Tables`, `Change` — the rows, and what a statement changes of them; the foreign keys are
     checked against what the connection sees.
  2. `VaultState` — committed rows and open transactions (`Lib.Transaction`), the blobs, which no
     transaction covers, the connections in use, and the clock.
  3. `VaultOp`, `exec` — the statements.

  A statement that Postgres lets wait for a row of another transaction goes ahead here, except that
  `SKIP LOCKED` skips: the model has more runs.  Of a row, `updated_at` and the other columns that
  the database fills in are left out, and of `deleted_at` whether it is null.
-/
import CanvasOS.Lib.System
import CanvasOS.Lib.Transaction
import CanvasOS.Vault.Models

namespace CanvasOS.Vault

open Python Transaction

/-! ## Rows -/

/-- A row of one of the nine public tables. -/
structure ObjectRow where
  table : String
  id : Uuid
  cells : List (String × SqlValue)
deriving DecidableEq

/-- A column of a row. -/
def ObjectRow.cell (row : ObjectRow) (column : String) : SqlValue :=
  ((row.cells.find? fun kv => kv.1 == column).map Prod.snd).getD .null

/-- A row of `vault_internal.object_taxonomy` -/
structure TaxonomyRow where
  table : String
  id : Uuid
  vertical : Json
  functionId : Json
  campaign : Uuid
  evidenceGrade : Json
  consentStatus : Json
  retentionClass : Json
deriving DecidableEq

/-- A row of `vault_internal.retention_policy` -/
structure RetentionRow where
  table : String
  id : Uuid
  retentionClass : Json
  expiresAt : Int
  deleted : Bool
deriving DecidableEq

/-- A row of `vault_internal.consent_linkage` -/
structure LinkageRow where
  table : String
  id : Uuid
  consent : Uuid
deriving DecidableEq

/-- A row of `vault_internal.audit_log` -/
structure AuditRow where
  eventType : String
  table : String
  id : Option Uuid
  dataSubjectRef : Option String
  reason : String
  detail : Payload
deriving DecidableEq

/-- A row of `vault_internal.retention_run` -/
structure RetentionRun where
  id : Nat
  status : String
  deletedCount : Nat
deriving DecidableEq

structure Tables where
  objects : List ObjectRow
  taxonomy : List TaxonomyRow
  retention : List RetentionRow
  linkage : List LinkageRow
  audit : List AuditRow
  runs : List RetentionRun
  /-- `vault_internal.access_log.occurred_at` -/
  accessLog : List Int
deriving DecidableEq

/-- The key of an object, in all tables that speak of it. -/
abbrev Key := String × Uuid

def ObjectRow.key (row : ObjectRow) : Key := (row.table, row.id)

def TaxonomyRow.key (row : TaxonomyRow) : Key := (row.table, row.id)

def RetentionRow.key (row : RetentionRow) : Key := (row.table, row.id)

def LinkageRow.key (row : LinkageRow) : Key := (row.table, row.id)

/-- The arguments of the INSERT of an object. -/
structure NewObject where
  table : String
  cells : List (String × SqlValue)
  vertical : Json
  functionId : Json
  campaign : Uuid
  evidenceGrade : Json
  consentStatus : Json
  retentionClass : Json
  expiresAt : Int
deriving DecidableEq

def NewObject.row (new : NewObject) (id : Uuid) : ObjectRow := ⟨new.table, id, new.cells⟩

def NewObject.taxonomy (new : NewObject) (id : Uuid) : TaxonomyRow :=
  ⟨new.table, id, new.vertical, new.functionId, new.campaign, new.evidenceGrade, new.consentStatus,
    new.retentionClass⟩

def NewObject.retention (new : NewObject) (id : Uuid) : RetentionRow :=
  ⟨new.table, id, new.retentionClass, new.expiresAt, false⟩

/-! ## Changes -/

/-- `column = value` of an UPDATE -/
def ObjectRow.set (row : ObjectRow) (set : String × SqlValue) : ObjectRow :=
  { row with cells := row.cells.map fun kv => if kv.1 = set.1 then set else kv }

inductive Change where
  /-- the writable CTE: the object, its taxonomy and its retention policy -/
  | insertObject (new : NewObject) (id : Uuid)
  | insertLinkage (row : LinkageRow)
  | insertAudit (row : AuditRow)
  | updateObject (key : Key) (sets : List (String × SqlValue))
  | deleteObject (key : Key)
  | markDeleted (key : Key)
  | insertRun (id : Nat)
  | finishRun (id : Nat) (deletedCount : Nat)
  | purgeAccessLog (cutoff : Int)
  /-- `FOR UPDATE` of a row of `retention_policy` -/
  | lockRetention (key : Key)
deriving DecidableEq

/-- What a change makes of the tables. -/
def Change.apply (c : Change) (t : Tables) : Tables :=
  match c with
  | .insertObject new id => { t with
      objects := new.row id :: t.objects
      taxonomy := new.taxonomy id :: t.taxonomy
      retention := new.retention id :: t.retention }
  | .insertLinkage row => { t with linkage := row :: t.linkage }
  | .insertAudit row => { t with audit := row :: t.audit }
  | .updateObject key sets => { t with
      objects := t.objects.map fun row =>
        if row.key = key then sets.foldl ObjectRow.set row else row }
  | .deleteObject key => { t with objects := t.objects.filter fun row => row.key ≠ key }
  | .markDeleted key => { t with
      retention := t.retention.map fun row =>
        if row.key = key then { row with deleted := true } else row }
  | .insertRun id => { t with runs := ⟨id, "running", 0⟩ :: t.runs }
  | .finishRun id deletedCount => { t with
      runs := t.runs.map fun run => if run.id = id then ⟨id, "succeeded", deletedCount⟩ else run }
  | .purgeAccessLog cutoff => { t with
      accessLog := t.accessLog.filter fun occurredAt => cutoff ≤ occurredAt }
  | .lockRetention _ => t

/-! ## Foreign keys -/

/-- The row is there. -/
def Tables.has (t : Tables) (table : String) (id : Uuid) : Bool :=
  t.objects.any fun row => row.table == table && row.id == id

/-- What the row refers to is there. -/
def Tables.admits (t : Tables) (row : ObjectRow) (taxonomy : TaxonomyRow) : Bool :=
  ((references row.table).all fun ref =>
    match row.cell ref.1 with
    | .uuid id => t.has ref.2 id
    | _ => true) && t.has "campaigns" taxonomy.campaign

/-- The row refers to the object. -/
def ObjectRow.refersTo (row : ObjectRow) (key : Key) : Bool :=
  (references row.table).any fun ref => ref.2 == key.1 && row.cell ref.1 == .uuid key.2

/-- Another row refers to the object. -/
def Tables.refersTo (t : Tables) (key : Key) : Bool :=
  (t.objects.any fun row => decide (row.key ≠ key) && row.refersTo key) ||
    (key.1 == "campaigns" && t.taxonomy.any fun row => row.campaign == key.2) ||
    (key.1 == "consent_register" && t.linkage.any fun row => row.consent == key.2)

/-- The id is taken: by an object, or by what is kept of one. -/
def Tables.taken (t : Tables) (key : Key) : Bool :=
  (t.objects.any fun row => row.key == key) || (t.taxonomy.any fun row => row.key == key) ||
    t.retention.any fun row => row.key == key

/-! ## Statements -/

/-- The connection of the request, and the one an audit row is written on that is to survive it. -/
inductive Conn where
  | own
  | isolated
deriving DecidableEq

inductive VaultOp where
  | acquire (conn : Conn)
  | release (conn : Conn)
  | begin
  | commit
  | rollback
  /-- `datetime.now(timezone.utc)` -/
  | utcNow
  | insertObject (new : NewObject)
  | findActiveConsent (dataSubjectRef channel purpose : String)
  | linkConsent (row : LinkageRow)
  | fetchObject (key : Key)
  | selectTaxonomy (key : Key)
  | updateObject (key : Key) (sets : List (String × SqlValue))
  | deleteObject (key : Key)
  | writeAudit (conn : Conn) (row : AuditRow)
  | insertRun
  | finishRun (id : Nat) (deletedCount : Nat)
  | selectRun (id : Nat)
  | purgeAccessLog (cutoff : Int)
  | selectExpired
  | selectHash (id : Uuid)
  | countOthers (contentHash : String) (id : Uuid)
  | markDeleted (key : Key)
  | blobExists (digest : String)
  | uploadBlob (digest : String) (data : List UInt8)
  | deleteBlob (digest : String)
deriving DecidableEq

/-- An object with its taxonomy, where it has one. -/
abbrev Fetched := ObjectRow × Option TaxonomyRow

/-- What a statement answers. -/
abbrev VaultOp.Res : VaultOp → Type
  | .acquire _ | .release _ | .begin | .commit | .rollback => Unit
  | .utcNow => Int
  | .insertObject _ => Except SqlError Uuid
  | .findActiveConsent .. => Option Uuid
  -- whether there was no row yet: `INSERT 0 1` or `INSERT 0 0`
  | .linkConsent _ => Except SqlError Bool
  | .fetchObject _ => Option Fetched
  | .selectTaxonomy _ => Option TaxonomyRow
  | .updateObject .. => Bool
  | .deleteObject _ => Except SqlError Unit
  | .writeAudit .. => Unit
  | .insertRun => Nat
  | .finishRun .. => Unit
  | .selectRun _ => Option RetentionRun
  | .purgeAccessLog _ => Nat
  | .selectExpired => List RetentionRow
  | .selectHash _ => Option SqlValue
  | .countOthers .. => Nat
  | .markDeleted _ => Unit
  | .blobExists _ => Bool
  -- whether the blob was not there
  | .uploadBlob .. => Bool
  | .deleteBlob _ => Unit

/-! ## The state -/

/-- `max_size=20` -/
def poolSize : Nat := 20

structure VaultState (ι : Type) where
  db : Sessions ι Change Tables
  /-- the connections that have begun a transaction -/
  active : List ι
  /-- the blobs, by their digests -/
  blobs : List (String × List UInt8)
  /-- whose the pooled connections are -/
  held : List ι
  /-- `now()` -/
  clock : Int

namespace VaultState

variable {ι : Type} [DecidableEq ι]

/-- The tables as connection `i` sees them. -/
def view (s : VaultState ι) (i : ι) : Tables := s.db.view Change.apply i

/-- A change of connection `i`. -/
def write (s : VaultState ι) (i : ι) (c : Change) : VaultState ι :=
  { s with db := s.db.write Change.apply i c }

/-- The id is taken.  What another transaction inserts takes it as well, before it commits. -/
def taken (s : VaultState ι) (i : ι) (key : Key) : Bool :=
  (s.view i).taken key || s.active.any fun j => (s.view j).taken key

/-- The rows of `retention_policy` that a SELECT has found are locked. -/
def lockRows (s : VaultState ι) (i : ι) (rows : List RetentionRow) : VaultState ι :=
  { s with db := s.db.writes Change.apply i (rows.map fun row => .lockRetention row.key) }

/-- A change on a connection of its own, which no transaction is open on. -/
def writeIsolated (s : VaultState ι) (c : Change) : VaultState ι :=
  { s with db := ⟨c.apply s.db.base, s.db.levels⟩ }

/-- The rows of `retention_policy` that other connections have locked. -/
def locked (s : VaultState ι) (i : ι) : List Key :=
  (s.active.filter fun j => j ≠ i).flatMap fun j =>
    (s.db.pending j).filterMap fun
      | .lockRetention key => some key
      | _ => none

/-- `WHERE expires_at <= now() AND deleted_at IS NULL FOR UPDATE SKIP LOCKED` -/
def expired (s : VaultState ι) (i : ι) : List RetentionRow :=
  (s.view i).retention.filter fun row =>
    decide (row.expiresAt ≤ s.clock) && !row.deleted && decide (row.key ∉ s.locked i)

/-- The blob is there. -/
def hasBlob (s : VaultState ι) (digest : String) : Bool := s.blobs.any fun b => b.1 == digest

end VaultState

/-- A row of `consent_register` gives the consent. -/
def ObjectRow.consents (row : ObjectRow) (dataSubjectRef channel purpose : String) : Bool :=
  row.table == "consent_register" &&
    row.cell "data_subject_ref" == .json (.str dataSubjectRef) &&
    row.cell "channel" == .json (.str channel) &&
    row.cell "purpose" == .json (.str purpose) &&
    row.cell "revoked_at" == .null

/-- `find_active_consent` may answer so; which of several rows comes first is left open. -/
def Tables.findsConsent (t : Tables) (dataSubjectRef channel purpose : String) :
    Option Uuid → Bool
  | some id => t.objects.any fun row => row.id == id && row.consents dataSubjectRef channel purpose
  | none => t.objects.all fun row => !row.consents dataSubjectRef channel purpose

/-- The rows of `assets` with a content hash. -/
def Tables.withHash (t : Tables) (contentHash : String) : List ObjectRow :=
  t.objects.filter fun row =>
    row.table == "assets" && row.cell "content_hash" == .json (.str contentHash)

open VaultState in
/-- A statement of thread `i`: the environment suggests an answer where the state leaves it open. -/
def exec {ι : Type} [DecidableEq ι] (i : ι) :
    (o : VaultOp) → o.Res → VaultState ι → Option (o.Res × VaultState ι)
  | .acquire _, _, s =>
    if s.held.length < poolSize then some ((), { s with held := i :: s.held }) else none
  | .release .own, _, s => some ((), { s with
      db := s.db.reset i
      active := s.active.filter fun j => j ≠ i
      held := s.held.erase i })
  | .release .isolated, _, s => some ((), { s with held := s.held.erase i })
  | .begin, _, s => some ((), { s with
      db := s.db.begin i
      active := i :: s.active.filter fun j => j ≠ i })
  | .commit, _, s => some ((), { s with db := s.db.commit Change.apply i })
  | .rollback, _, s => some ((), { s with db := s.db.rollback i })
  | .utcNow, _, s => some (s.clock, s)
  | .insertObject _, .error e, s => if e = .other then some (.error e, s) else none
  | .insertObject new, .ok id, s =>
    if s.taken i (new.table, id) then none
    else if (s.view i).admits (new.row id) (new.taxonomy id) then
      some (.ok id, s.write i (.insertObject new id))
    else some (.error .foreignKeyViolation, s)
  | .findActiveConsent subject channel purpose, a, s =>
    if (s.view i).findsConsent subject channel purpose a then some (a, s) else none
  | .linkConsent row, _, s =>
    if (s.view i).linkage.any fun r => r.key == row.key then some (.ok false, s)
    else if (s.view i).has "consent_register" row.consent then
      some (.ok true, s.write i (.insertLinkage row))
    else some (.error .foreignKeyViolation, s)
  | .fetchObject key, _, s =>
    some (((s.view i).objects.find? fun row => row.key == key).map fun row =>
      (row, (s.view i).taxonomy.find? fun tax => tax.key == key), s)
  | .selectTaxonomy key, _, s => some ((s.view i).taxonomy.find? fun tax => tax.key == key, s)
  | .updateObject key sets, _, s =>
    some ((s.view i).has key.1 key.2, s.write i (.updateObject key sets))
  | .deleteObject key, _, s =>
    if (s.view i).has key.1 key.2 && (s.view i).refersTo key then
      some (.error .foreignKeyViolation, s)
    else some (.ok (), s.write i (.deleteObject key))
  | .writeAudit .own row, _, s => some ((), s.write i (.insertAudit row))
  | .writeAudit .isolated row, _, s => some ((), s.writeIsolated (.insertAudit row))
  | .insertRun, id, s =>
    if (s.view i).runs.any fun run => run.id == id then none
    else some (id, s.write i (.insertRun id))
  | .finishRun id deletedCount, _, s => some ((), s.write i (.finishRun id deletedCount))
  | .selectRun id, _, s => some ((s.view i).runs.find? fun run => run.id == id, s)
  | .purgeAccessLog cutoff, _, s =>
    some ((s.view i).accessLog.countP fun occurredAt => occurredAt < cutoff,
      s.write i (.purgeAccessLog cutoff))
  | .selectExpired, rows, s =>
    -- in any order
    if rows.isPerm (s.expired i) then
      some (rows, s.lockRows i rows)
    else none
  | .selectHash id, _, s =>
    some (((s.view i).objects.find? fun row => row.key == ("assets", id)).map fun row =>
      row.cell "content_hash", s)
  | .countOthers contentHash id, _, s =>
    some ((((s.view i).withHash contentHash).filter fun row => row.id != id).length, s)
  | .markDeleted key, _, s => some ((), s.write i (.markDeleted key))
  | .blobExists digest, _, s => some (s.hasBlob digest, s)
  | .uploadBlob digest data, _, s =>
    if s.hasBlob digest then some (false, s)
    else some (true, { s with blobs := (digest, data) :: s.blobs })
  | .deleteBlob digest, _, s =>
    if s.hasBlob digest then
      some ((), { s with blobs := s.blobs.filter fun b => b.1 ≠ digest })
    else none

end CanvasOS.Vault
