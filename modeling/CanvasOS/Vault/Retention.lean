/-
  The retention sweep (`vault/retention.py`) and the requests that Vault serves.

  1. `tryDeleteBlob`, `processRow` — one expired row: its blob first, then the object, the mark and
     the audit row inside a savepoint.
  2. `runRetentionExpiry` — all expired rows inside one transaction, the housekeeping after it.
  3. `Request`, `handle` — what a client or the scheduler asks for.
-/
import CanvasOS.Vault.Objects

namespace CanvasOS.Vault

open Python Interleave

/-! ## One row -/

/-- `delete_content_if_unreferenced` -/
def deleteContentIfUnreferenced (digest : String) (stillReferenced : Bool) : VaultM Unit :=
  if stillReferenced then pure ()
  else do
    let there ← ask (.blobExists digest)
    if there then ask (.deleteBlob digest) else pure ()

/-- Whether it failed.  `except Exception` catches no `CancelledError`. -/
def tryDeleteBlob (digest : String) (stillReferenced : Bool) : VaultM Bool :=
  Prog.tryCatch
    (do
      deleteContentIfUnreferenced digest stillReferenced
      pure false)
    fun e => if e = .cancelled then .throw e else .pure true

/-- `asset["content_hash"] if asset else None`, where it is not empty -/
def contentHash : Option SqlValue → Option String
  | some (.json (.str digest)) => if digest = "" then none else some digest
  | _ => none

/-- The blob of an expired asset: its digest, and whether its deletion failed. -/
def deleteBlobOf (id : Uuid) : VaultM (Option String × Bool) := do
  let asset ← ask (.selectHash id)
  match contentHash asset with
  | none => pure (none, false)
  | some digest => do
    let others ← ask (.countOthers digest id)
    let failed ← tryDeleteBlob digest (decide (0 < others))
    pure (some digest, failed)

/-- The blob of an expired object, where it is an asset. -/
def blobStep (row : RetentionRow) : VaultM (Option String × Bool) :=
  if row.table = "assets" then deleteBlobOf row.id else pure (none, false)

/-- `detail` -/
def retentionDetail (row : RetentionRow) : Option String → Payload
  | none => [("retention_class", row.retentionClass)]
  | some digest => [("retention_class", row.retentionClass), ("content_hash", .str digest)]

/-- The audit row of a deletion that did not take place. -/
def failedAudit (row : RetentionRow) (digest : Option String) : AuditRow :=
  ⟨"retention_deletion_failed", row.table, some row.id, none,
    "retention_class=" ++ pyStr row.retentionClass ++
      " expired but blob delete failed; object left in place for retry on next sweep",
    retentionDetail row digest⟩

/-- The audit row of a deletion. -/
def deletionAudit (row : RetentionRow) (digest : Option String) : AuditRow :=
  ⟨"retention_deletion", row.table, some row.id, none,
    "retention_class=" ++ pyStr row.retentionClass ++ " expired", retentionDetail row digest⟩

/-- The object goes, its row is marked, and both are audited. -/
def deleteExpired (row : RetentionRow) (digest : Option String) : VaultM Unit :=
  transaction do
    let answer ← ask (.deleteObject row.key)
    orRaise answer
    ask (.markDeleted row.key)
    ask (.writeAudit .own (deletionAudit row digest))

inductive Swept where
  | deleted
  | failed
  | unknown
deriving DecidableEq

/-- What follows the blob. -/
def sweepObject (row : RetentionRow) : Option String × Bool → VaultM Swept
  | (digest, true) => do
    writeAuditIsolated (failedAudit row digest)
    pure .failed
  | (digest, false) => do
    deleteExpired row digest
    pure .deleted

/-- One round of the loop. -/
def processRow (row : RetentionRow) : VaultM Swept :=
  if row.table = "assets" ∨ knownTable row.table = true then do
    let blob ← blobStep row
    sweepObject row blob
  else pure .unknown

/-! ## The sweep -/

/-- The loop: how many were deleted, and how many failed. -/
def sweepRows : List RetentionRow → VaultM (Nat × Nat)
  | [] => pure (0, 0)
  | row :: rest => do
    let swept ← processRow row
    let (deleted, failed) ← sweepRows rest
    pure (if swept = .deleted then deleted + 1 else deleted,
      if swept = .failed then failed + 1 else failed)

/-- The expired rows, and the loop over them. -/
def sweepExpired : VaultM (Nat × Nat) := do
  let expired ← ask .selectExpired
  sweepRows expired

/-- What a sweep returns. -/
structure Summary where
  id : Nat
  deletedCount : Nat
  failedCount : Nat
  accessLogRowsPurged : Nat

/-- `run_retention_expiry` -/
def runRetentionExpiry : VaultM Summary :=
  withConnection .own do
    let runId ← ask .insertRun
    let (deletedCount, failedCount) ← transaction sweepExpired
    let now ← ask .utcNow
    let purged ← ask (.purgeAccessLog (now - accessLogRetention))
    ask (.finishRun runId deletedCount)
    pure ⟨runId, deletedCount, failedCount, purged⟩

/-- `trigger_retention_expiry` -/
def triggerRetentionExpiry : VaultM Response := do
  let summary ← runRetentionExpiry
  let row ← withConnection .own (ask (.selectRun summary.id))
  pure (.run row)

/-! ## Requests -/

inductive Request where
  | create (config : ObjectTypeConfig) (payload : Payload)
  | patch (config : ObjectTypeConfig) (id : Uuid) (payload : Payload)
  | delete (config : ObjectTypeConfig) (id : Uuid)
  | sweep

/-- A method that the route does not have. -/
def notAllowed : VaultM Response := .throw (httpError 405 "Method Not Allowed" "" none)

/-- The routine that a request runs. -/
def handle (P : Runtime) : Request → VaultM Response
  | .create config payload =>
    if config.name = "assets" then createAsset P config payload else create P config payload
  | .patch config id payload =>
    if config.allowPatch then patchOne P config id payload else notAllowed
  | .delete config id => if config.allowDelete then deleteOne config id else notAllowed
  | .sweep => triggerRetentionExpiry

/-! ## The system -/

/-- What happens by itself: time passes, and the database drops the session of a dead connection. -/
inductive Move (ι : Type) where
  | tick (n : Nat)
  | drop (i : ι)

section System

variable {ι : Type} [DecidableEq ι]

def move : Move ι → VaultState ι → Option (VaultState ι)
  | .tick n, s => some { s with clock := s.clock + n }
  | .drop i, s => some { s with
      db := s.db.reset i
      active := s.active.filter fun j => j ≠ i
      held := s.held.filter fun j => j ≠ i }

/-- Any number of requests; what they do is recorded. -/
def vaultSystem (P : Runtime) : Sys VaultOp VaultOp.Res Failure
    (History VaultOp VaultOp.Res (VaultState ι) ι Request) ι Request Response (Move ι) :=
  recorded (handle P) exec move

/-- Where a run of the system stands. -/
abbrev VaultConfig (ι : Type) :=
  Config VaultOp VaultOp.Res Failure (History VaultOp VaultOp.Res (VaultState ι) ι Request) ι
    Request Response

/-- What can happen next. -/
abbrev VaultAct (ι : Type) := Act VaultOp VaultOp.Res Failure ι Request (Move ι)

/-- Only the session of a dead request is dropped. -/
def Orderly (c : VaultConfig ι) : VaultAct ι → Prop
  | .env (.drop i) => ∃ r, c.thread i = some (r, none)
  | _ => True

end System

/-! ## A small Vault -/

/-- Texts as they are: every one is an id, and every content its own digest. -/
def plainRuntime : Runtime where
  uuid text := some text.length
  strUuid _ := ""
  fromisoformat _ := none
  b64decode _ := some []
  sha256Hex _ := "digest"
  storageUriFor digest := digest

/-- Nothing is stored, and no connection is in use. -/
def emptyVault : VaultState Nat := ⟨.idle ⟨[], [], [], [], [], [], []⟩, [], [], [], 0⟩

/-- A statement is answered, and finds nothing. -/
def plainAnswer : (o : VaultOp) → o.Res
  | .acquire _ | .release _ | .begin | .commit | .rollback | .writeAudit .. | .finishRun ..
  | .markDeleted _ | .deleteBlob _ => ()
  | .utcNow => 0
  | .insertObject _ => .ok 0
  | .linkConsent _ => .ok true
  | .deleteObject _ => .ok ()
  | .findActiveConsent .. | .fetchObject _ | .selectTaxonomy _ | .selectRun _ | .selectHash _ => none
  | .updateObject .. | .blobExists _ | .uploadBlob .. => false
  | .insertRun | .purgeAccessLog _ | .countOthers .. => 0
  | .selectExpired => []

end CanvasOS.Vault
