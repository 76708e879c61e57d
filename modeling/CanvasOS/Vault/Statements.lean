/-
  The statements that a request of Vault can make (`Makes`), whatever it is answered.
-/
import CanvasOS.Vault.Retention

namespace CanvasOS.Vault

open Python Interleave

/-- Connections and transactions. -/
def VaultOp.bracket : VaultOp → Bool
  | .acquire _ | .release _ | .begin | .commit | .rollback => true
  | _ => false

/-- The statements of a check: it looks for a consent, and writes an audit row on a connection of its
    own. -/
def VaultOp.checking : VaultOp → Bool
  | .acquire .isolated | .release .isolated | .writeAudit .isolated _ | .findActiveConsent .. => true
  | _ => false

/-- The request can make the statement. -/
def Makes (P : Runtime) : Request → VaultOp → Prop
  | .create config _, o =>
    match o with
    | .insertObject new => new.table = config.name
    | .linkConsent row => row.table = config.name
    | .writeAudit conn _ => conn = .isolated
    | .utcNow | .findActiveConsent .. | .fetchObject _ | .blobExists _ | .uploadBlob .. => True
    | o => o.bracket = true
  | .patch config id payload, o =>
    match o with
    | .selectTaxonomy _ | .fetchObject _ => True
    | .updateObject key sets => key = (config.name, id) ∧ patchSets P config payload = .ok sets
    | o => o.bracket = true
  | .delete config id, o =>
    match o with
    | .deleteObject key => key = (config.name, id)
    | o => o.bracket = true
  | .sweep, o =>
    match o with
    | .insertObject _ | .linkConsent _ | .updateObject .. | .findActiveConsent .. | .fetchObject _
    | .selectTaxonomy _ | .uploadBlob .. => False
    | _ => True

section Brackets

variable {α : Type} {S : VaultOp → Prop} {p : VaultM α}

/-- `async with pool.acquire() as conn` -/
theorem withConnection_only {conn : Conn} (hacquire : S (.acquire conn))
    (hrelease : S (.release conn)) (hp : p.Only S) : (withConnection conn p).Only S := by
  refine (ask_only hacquire).bind fun _ => ?_
  have hfinally {q : VaultM α} (hq : q.Only S) : (q.thenFinally (ask (.release conn))).Only S := by
    induction q with
    | pure a => exact (ask_only hrelease).bind fun _ => True.intro
    | throw e => exact (ask_only hrelease).bind fun _ => True.intro
    | op o k ih => exact ⟨hq.1, fun r => ih r (hq.2 r)⟩
  exact hfinally hp

/-- `async with conn.transaction()` -/
theorem transaction_only (hbracket : ∀ o : VaultOp, o.bracket = true → S o) (hp : p.Only S) :
    (transaction p).Only S := by
  refine (ask_only (hbracket _ rfl)).bind fun _ => Prog.Only.bind (hp.tryCatch fun e => ?_) fun a => ?_
  · exact (ask_only (hbracket _ rfl)).bind fun _ => True.intro
  · exact (ask_only (hbracket _ rfl)).bind fun _ => True.intro

end Brackets

section Checks

variable {P : Runtime} {config : ObjectTypeConfig} {payload : Payload}

theorem writeAuditIsolated_checking (row : AuditRow) :
    (writeAuditIsolated row).Only (VaultOp.checking · = true) :=
  withConnection_only rfl rfl (ask_only (by exact rfl))

theorem rejectTaxonomy_checking (reason message code fieldName : String) :
    (rejectTaxonomy config reason message code fieldName).Only (VaultOp.checking · = true) :=
  (writeAuditIsolated_checking _).bind fun _ => True.intro

theorem checkPresent_checking (fields : List String) :
    (checkPresent config payload fields).Only (VaultOp.checking · = true) := by
  induction fields with
  | nil => exact True.intro
  | cons fieldName rest ih =>
    unfold checkPresent
    split
    · exact rejectTaxonomy_checking _ _ _ _
    · exact ih

theorem checkAllowed_checking (fieldName : String) (allowed : List String) :
    (checkAllowed config payload fieldName allowed).Only (VaultOp.checking · = true) := by
  refine (compute_only _).bind fun ok => ?_
  cases ok with
  | true => exact True.intro
  | false => exact rejectTaxonomy_checking _ _ _ _

theorem validateTaxonomy_checking :
    (validateTaxonomy P config payload).Only (VaultOp.checking · = true) := by
  refine (checkPresent_checking _).bind fun _ => (checkAllowed_checking _ _).bind fun _ =>
    (checkAllowed_checking _ _).bind fun _ => (checkAllowed_checking _ _).bind fun _ => ?_
  unfold checkCampaign
  split
  · exact True.intro
  · exact rejectTaxonomy_checking _ _ _ _

theorem handleConsentGate_checking :
    (handleConsentGate config payload).Only (VaultOp.checking · = true) := by
  unfold handleConsentGate
  split
  · exact True.intro
  split
  · refine (compute_only _).bind fun _ => (compute_only _).bind fun _ =>
      (compute_only _).bind fun _ => (compute_only _).bind fun _ =>
        (ask_only (by exact rfl)).bind fun consentId => ?_
    cases consentId with
    | some id => exact True.intro
    | none => exact (writeAuditIsolated_checking _).bind fun _ => True.intro
  · exact True.intro

end Checks

section Requests

variable {P : Runtime}

/-- The body of a PATCH runs inside of its transaction. -/
theorem updateObject_makes (config : ObjectTypeConfig) (id : Uuid) (payload : Payload) :
    (updateObject P config id payload).Only
      fun o => Makes P (.patch config id payload) o ∧ o.bracket = false := by
  refine Prog.Only.bind ?_ fun _ => ?_
  · unfold assertTaxonomyImmutable
    dsimp only
    split
    · exact True.intro
    · refine (ask_only (by exact ⟨True.intro, rfl⟩)).bind fun current => ?_
      cases current with
      | some row => exact compute_only _
      | none => exact True.intro
  · -- the values are those of the payload
    show Prog.Only _ (Prog.bind (compute (patchSets P config payload)) _)
    cases hsets : patchSets P config payload with
    | error e => exact True.intro
    | ok sets =>
      refine Prog.Only.bind (x := applyUpdates (config.name, id) sets) ?_ fun found => ?_
      · unfold applyUpdates
        split
        · exact True.intro
        · exact ask_only ⟨⟨rfl, hsets⟩, rfl⟩
      · cases found with
        | true => exact ask_only (by exact ⟨True.intro, rfl⟩)
        | false => exact True.intro

theorem patch_makes (config : ObjectTypeConfig) (id : Uuid) (payload : Payload) :
    (patchOne P config id payload).Only (Makes P (.patch config id payload)) := by
  have hbracket : ∀ o : VaultOp, o.bracket = true → Makes P (.patch config id payload) o := by
    intro o ho
    cases o <;> first | exact ho | cases ho
  have hbody := (updateObject_makes (P := P) config id payload).mono fun o ho => ho.1
  refine Prog.Only.bind (withConnection_only (hbracket _ rfl) (hbracket _ rfl)
    (transaction_only hbracket hbody)) fun found => ?_
  cases found <;> exact True.intro

theorem delete_makes (config : ObjectTypeConfig) (id : Uuid) :
    (deleteOne config id).Only (Makes P (.delete config id)) := by
  have hbracket : ∀ o : VaultOp, o.bracket = true → Makes P (.delete config id) o := by
    intro o ho
    cases o <;> first | exact ho | cases ho
  refine Prog.Only.bind (withConnection_only (hbracket _ rfl) (hbracket _ rfl) ?_)
    fun _ => True.intro
  exact (ask_only (by exact rfl)).bind fun answer => orRaise_only answer

theorem tryDeleteBlob_makes (digest : String) (stillReferenced : Bool) :
    (tryDeleteBlob digest stillReferenced).Only (Makes P .sweep) := by
  refine Prog.Only.tryCatch (Prog.Only.bind ?_ fun _ => True.intro) fun e => ?_
  · unfold deleteContentIfUnreferenced
    split
    · exact True.intro
    · refine (ask_only (by exact True.intro)).bind fun there => ?_
      cases there with
      | true => exact ask_only (by exact True.intro)
      | false => exact True.intro
  · split <;> exact True.intro

theorem sweep_bracket : ∀ o : VaultOp, o.bracket = true → Makes P .sweep o := by
  intro o ho
  cases o <;> first | exact True.intro | cases ho

theorem processRow_makes (row : RetentionRow) : (processRow row).Only (Makes P .sweep) := by
  unfold processRow
  split
  · refine Prog.Only.bind ?_ fun blob => ?_
    · unfold blobStep deleteBlobOf
      split
      · refine (ask_only (by exact True.intro)).bind fun asset => ?_
        split
        · exact True.intro
        · exact (ask_only (by exact True.intro)).bind fun _ =>
            (tryDeleteBlob_makes _ _).bind fun _ => True.intro
      · exact True.intro
    · obtain ⟨digest, failed⟩ := blob
      cases failed with
      | true =>
        exact (withConnection_only (sweep_bracket _ rfl) (sweep_bracket _ rfl)
          (ask_only (by exact True.intro))).bind fun _ => True.intro
      | false =>
        refine (transaction_only sweep_bracket ?_).bind fun _ => True.intro
        exact (ask_only (by exact True.intro)).bind fun answer =>
          (orRaise_only answer).bind fun _ => (ask_only (by exact True.intro)).bind fun _ =>
            ask_only (by exact True.intro)
  · exact True.intro

theorem sweepRows_makes (rows : List RetentionRow) : (sweepRows rows).Only (Makes P .sweep) := by
  induction rows with
  | nil => exact True.intro
  | cons row rest ih =>
    exact (processRow_makes row).bind fun _ => ih.bind fun _ => True.intro

theorem sweep_makes : triggerRetentionExpiry.Only (Makes P .sweep) := by
  refine Prog.Only.bind ?_ fun summary =>
    (withConnection_only (sweep_bracket _ rfl) (sweep_bracket _ rfl)
      (ask_only (by exact True.intro))).bind fun _ => True.intro
  refine withConnection_only (sweep_bracket _ rfl) (sweep_bracket _ rfl)
    ((ask_only (by exact True.intro)).bind fun runId => ?_)
  have hexpired : sweepExpired.Only (Makes P .sweep) :=
    (ask_only (by exact True.intro)).bind fun rows => sweepRows_makes rows
  refine (transaction_only sweep_bracket hexpired).bind fun counts => ?_
  obtain ⟨deletedCount, failedCount⟩ := counts
  exact (ask_only (by exact True.intro)).bind fun _ =>
    (ask_only (by exact True.intro)).bind fun _ =>
      (ask_only (by exact True.intro)).bind fun _ => True.intro

section Create

variable {config : ObjectTypeConfig} {payload : Payload}

theorem create_bracket :
    ∀ o : VaultOp, o.bracket = true → Makes P (.create config payload) o := by
  intro o ho
  cases o <;> first | exact ho | cases ho

/-- A check writes nothing but an audit row. -/
theorem create_checking (o : VaultOp) (ho : o.checking = true) :
    Makes P (.create config payload) o := by
  unfold VaultOp.checking at ho
  split at ho <;> first | exact rfl | exact True.intro | cases ho

theorem contentColumns_makes (data : List UInt8) :
    (contentColumns P data).Only (Makes P (.create config payload)) := by
  refine Prog.Only.bind ((ask_only (by exact True.intro)).bind fun there => ?_) fun _ => True.intro
  cases there with
  | true => exact True.intro
  | false => exact (ask_only (by exact True.intro)).bind fun _ => True.intro

/-- The INSERT is for the table of the type. -/
theorem newObject_table {columns : List (String × SqlValue)} {new : Int → NewObject}
    (h : newObject P config payload columns = .ok new) (now : Int) :
    (new now).table = config.name := by
  unfold newObject at h
  cases hcampaign : castCampaign P payload with
  | error e =>
    rw [hcampaign] at h
    cases h
  | ok campaign =>
    rw [hcampaign] at h
    cases hcells : fieldCells P payload config.fields with
    | error e =>
      rw [hcells] at h
      cases h
    | ok cells =>
      rw [hcells] at h
      obtain rfl := Except.ok.inj h
      rfl

theorem insertObject_makes (columns : List (String × SqlValue)) :
    (insertObject P config payload columns).Only (Makes P (.create config payload)) := by
  show Prog.Only _ (Prog.bind (compute (newObject P config payload columns)) _)
  cases hnew : newObject P config payload columns with
  | error e => exact True.intro
  | ok new =>
    refine Prog.Only.bind (x := ask .utcNow) (ask_only (by exact True.intro)) fun now =>
      (ask_only (by exact newObject_table hnew now)).bind fun answer => ?_
    cases answer with
    | ok id => exact True.intro
    | error e => cases e <;> exact True.intro

theorem createAndFetch_makes {extraColumns : VaultM (List (String × SqlValue))}
    (hextra : extraColumns.Only (Makes P (.create config payload))) :
    (createAndFetch P config payload extraColumns).Only (Makes P (.create config payload)) := by
  refine withConnection_only (by exact rfl) (by exact rfl) (Prog.Only.bind
    (transaction_only create_bracket ?_) fun id => ask_only (by exact True.intro))
  refine (validateTaxonomy_checking.mono create_checking).bind fun _ => (compute_only _).bind
    fun _ => (handleConsentGate_checking.mono create_checking).bind fun consent =>
      hextra.bind fun columns => (insertObject_makes columns).bind fun id =>
        Prog.Only.bind ?_ fun _ => True.intro
  cases consent with
  | none => exact True.intro
  | some consent =>
    exact (ask_only (by exact rfl)).bind fun answer =>
      (orRaise_only answer).bind fun _ => True.intro

theorem create_makes :
    (handle P (.create config payload)).Only (Makes P (.create config payload)) := by
  show Prog.Only _ (if _ then _ else _)
  split
  · refine (compute_only _).bind fun raw =>
      (createAndFetch_makes (contentColumns_makes raw)).bind fun found => ?_
    cases found <;> exact True.intro
  · have hnothing : (Prog.pure [] : VaultM (List (String × SqlValue))).Only
        (Makes P (.create config payload)) := True.intro
    exact (createAndFetch_makes hnothing).bind fun _ => True.intro

end Create

/-- Every statement of a request is one that it can make. -/
theorem handle_makes (r : Request) : (handle P r).Only (Makes P r) := by
  cases r with
  | create config payload => exact create_makes
  | patch config id payload =>
    show Prog.Only _ (if _ then _ else _)
    split
    · exact patch_makes config id payload
    · exact True.intro
  | delete config id =>
    show Prog.Only _ (if _ then _ else _)
    split
    · exact delete_makes config id
    · exact True.intro
  | sweep => exact sweep_makes

end Requests

end CanvasOS.Vault
