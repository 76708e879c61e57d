/-
  What a create writes, from its first statement to its last.

  1. `Unregistered`, `Refused` — before COMMIT nothing has landed but the audit row of a refusal.
  2. `Found`, `Stored`, `Registered` — the consent that the gate has found, the rows that the
     transaction holds, and that COMMIT has put all of them into the tables.
  3. `create_upholds` — at every point one or the other.
-/
import CanvasOS.Vault.Ledger
import CanvasOS.Vault.Statements

namespace CanvasOS.Vault

open Python Interleave Transaction

/-! ## Refusals -/

/-- The codes of the refusals that leave an audit row. -/
def refusalCodes : List String :=
  ["consent_required", "taxonomy_field_missing", "taxonomy_field_invalid"]

/-- The failure is none of them. -/
def Failure.plain (e : Failure) : Prop := ∀ code ∈ refusalCodes, e.code ≠ some code

theorem plain_of_code_none {e : Failure} (h : e.code = none) : e.plain := by
  intro code _ hcode
  rw [h] at hcode
  cases hcode

/-- Exactly one audit row has landed. -/
def Audited (config : ObjectTypeConfig) (eventType : String) (L : List Change) : Prop :=
  ∃ row, L = [.insertAudit row] ∧ row.eventType = eventType ∧ row.table = config.name

/-- Nothing has landed but the audit row of a refusal. -/
def Unregistered (config : ObjectTypeConfig) (L : List Change) : Prop :=
  L = [] ∨ Audited config "consent_rejected" L ∨ Audited config "taxonomy_rejected" L

/-- What a failure leaves, where COMMIT has not been reached. -/
structure Refused (config : ObjectTypeConfig) (e : Failure) (L : List Change) : Prop where
  unregistered : Unregistered config L
  consent : e.code = some "consent_required" → Audited config "consent_rejected" L
  taxonomy : e.code = some "taxonomy_field_missing" ∨ e.code = some "taxonomy_field_invalid" →
    Audited config "taxonomy_rejected" L

theorem Refused.of_plain {config : ObjectTypeConfig} {e : Failure} {L : List Change}
    (hL : Unregistered config L) (he : e.plain) : Refused config e L where
  unregistered := hL
  consent h := absurd h (he _ (by decide))
  taxonomy h := by
    rcases h with h | h
    · exact absurd h (he _ (by decide))
    · exact absurd h (he _ (by decide))

/-! ## Registration -/

/-- The payload is client-derived, and its type is under the gate. -/
def Gated (config : ObjectTypeConfig) (payload : Payload) : Prop :=
  config.name ≠ "consent_register" ∧ (Json.get payload "data_subject_ref").truthy = true

/-- The gate has found the consent, before anything was written. -/
def Found (payload : Payload) (consent : Uuid) (x : VaultStanding) : Prop :=
  ∃ subject channel purpose, Json.get payload "data_subject_ref" = .str subject ∧
    Json.get payload "consent_channel" = .str channel ∧
    Json.get payload "consent_purpose" = .str purpose ∧
    (⟨.findActiveConsent subject channel purpose, some consent, [[]]⟩ :
      Deed VaultOp VaultOp.Res Change) ∈ x.deeds

/-- What the gate has let pass. -/
structure Passed (config : ObjectTypeConfig) (payload : Payload) (consent : Option Uuid)
    (x : VaultStanding) : Prop where
  gated : Gated config payload → consent ≠ none
  found : ∀ id, consent = some id → Found payload id x

/-- The changes of a create, newest first. -/
def written (new : NewObject) (id : Uuid) : Option Uuid → List Change
  | none => [.insertObject new id]
  | some consent => [.insertLinkage ⟨new.table, id, consent⟩, .insertObject new id]

/-- There was a linkage already. -/
def Unlinked (x : VaultStanding) : Prop :=
  ∃ row ls, (⟨.linkConsent row, .ok false, ls⟩ : Deed VaultOp VaultOp.Res Change) ∈ x.deeds

/-- `L` are the rows of one object. -/
def Stored (config : ObjectTypeConfig) (payload : Payload) (L : List Change) (x : VaultStanding) :
    Prop :=
  ∃ new id consent, new.table = config.name ∧ Passed config payload consent x ∧
    (L = written new id consent ∨ (Unlinked x ∧ L = [.insertObject new id]))

/-- COMMIT has put the rows of the object into the tables. -/
def Registered (config : ObjectTypeConfig) (payload : Payload) (x : VaultStanding) : Prop :=
  Stored config payload (committed x) x ∧
    ∃ d ∈ x.deeds, d.op = .commit ∧ d.landed stepOf = committed x

section Growth

variable {config : ObjectTypeConfig} {payload : Payload} {x : VaultStanding} {o : VaultOp}
  {a : o.Res}

theorem Found.after {consent : Uuid} (h : Found payload consent x) :
    Found payload consent (x.after stepOf o a) := by
  obtain ⟨subject, channel, purpose, hs, hc, hp, hd⟩ := h
  exact ⟨subject, channel, purpose, hs, hc, hp, List.mem_cons_of_mem _ hd⟩

theorem Passed.after {consent : Option Uuid} (h : Passed config payload consent x) :
    Passed config payload consent (x.after stepOf o a) :=
  ⟨h.gated, fun id hid => (h.found id hid).after⟩

theorem Stored.after {L : List Change} (h : Stored config payload L x) :
    Stored config payload L (x.after stepOf o a) := by
  obtain ⟨new, id, consent, htable, hpassed, hL⟩ := h
  refine ⟨new, id, consent, htable, hpassed.after, hL.imp_right ?_⟩
  rintro ⟨⟨row, ls, hd⟩, hL⟩
  exact ⟨⟨row, ls, List.mem_cons_of_mem _ hd⟩, hL⟩

/-- What lands nothing leaves a registration as it is. -/
theorem Registered.after (h : Registered config payload x)
    (hnone : (stepOf o a).landed x.levels = []) :
    Registered config payload (x.after stepOf o a) := by
  have hcommitted : committed (x.after stepOf o a) = committed x := by
    show (x.after stepOf o a).landed stepOf = _
    rw [Standing.after_landed, hnone, List.nil_append]
  obtain ⟨hstored, d, hd, hop, hlanded⟩ := h
  unfold Registered
  rw [hcommitted]
  exact ⟨hstored.after, d, List.mem_cons_of_mem _ hd, hop, hlanded⟩

end Growth

/-! ## Up to the gate -/

/-- At every point of a create: nothing has landed but an audit row, or everything has. -/
structure Atomic (config : ObjectTypeConfig) (payload : Payload) (x : VaultStanding) : Prop where
  tidy : ∀ d ∈ x.deeds, TidyDeed d
  all : Unregistered config (committed x) ∨ Registered config payload x

/-- How a part of a create fails before COMMIT. -/
def FailsIn (config : ObjectTypeConfig) (e : Failure) (x : VaultStanding) : Prop :=
  ∃ ls L, At ls L x ∧ Refused config e L

section Gate

variable {P : Runtime} {config : ObjectTypeConfig} {payload : Payload} {x : VaultStanding}
  {ls : List (List Change)} {L : List Change}

theorem At.atomic (h : At ls L x) (hL : Unregistered config L) : Atomic config payload x :=
  ⟨h.tidy, .inl (by rw [h.committed]; exact hL)⟩

theorem At.failsIn (h : At ls L x) (hL : Unregistered config L) {e : Failure} (he : e.plain) :
    FailsIn config e x := ⟨ls, L, h, .of_plain hL he⟩

/-- A computation ends where it begins. -/
theorem compute_upholds {α : Type} {r : Except Failure α} (h : At ls [] x)
    (hr : ∀ e, r = .error e → e.plain) :
    Upholds (deed stepOf) (Atomic config payload) (compute r) (fun out y => match out with
      | .ok a => r = .ok a ∧ y = x
      | .error e => FailsIn config e y) x := by
  cases r with
  | ok a => exact ⟨h.atomic (.inl rfl), rfl, rfl⟩
  | error e => exact ⟨h.atomic (.inl rfl), h.failsIn (.inl rfl) (hr e rfl)⟩

/-- An audit row on a connection of its own. -/
theorem writeAuditIsolated_upholds {row : AuditRow} (h : At ls [] x)
    (hrow : Unregistered config [.insertAudit row]) :
    Upholds (deed stepOf) (Atomic config payload) (writeAuditIsolated row) (fun out y =>
      match out with
      | .ok _ => At ls [.insertAudit row] y
      | .error e => FailsIn config e y) x := by
  have hnone : Unregistered config [] := .inl rfl
  refine Upholds.bind (Q := fun out y => match out with
    | .ok _ => At ls [] y
    | .error e => FailsIn config e y) ?_ (fun _ y _ hy => ?_) fun e y _ hy => hy
  · refine upholds_ask (h.atomic hnone) (fun a => ⟨(h.quiet rfl a).atomic hnone, h.quiet rfl a⟩)
      (fun e he => h.failsIn hnone (plain_of_code_none he))
      fun e a he => (h.quiet rfl a).failsIn hnone (plain_of_code_none he)
  · -- the row is written, or not; then the connection is given back
    have hwritten (y : VaultStanding) (hy : At ls [] y) :
        At ls [.insertAudit row] (y.after stepOf (.writeAudit .isolated row) ()) := by
      have hd : TidyDeed ⟨.writeAudit .isolated row, (), ls⟩ :=
        .of_keyless (fun c hc => List.mem_singleton.1 hc ▸ ⟨rfl, rfl⟩) rfl
      exact hy.after hd
    have hrelease {L : List Change} (hL : Unregistered config L) (y : VaultStanding)
        (hy : At ls L y) : Upholds (deed stepOf) (Atomic config payload)
        (ask (.release .isolated)) (fun out y => At ls L y ∧ ∀ e, out = .error e → e.plain) y := by
      refine (upholds_quiet (Z := At ls L) (ask_within rfl) hy (fun y hy => hy.atomic hL)
        fun y o a ho hy => hy.quiet ho a).mono fun out y _ hy => ⟨hy.1, fun e he => ?_⟩
      exact plain_of_code_none (hy.2 e he)
    refine Upholds.thenFinally (Q := fun out y => match out with
      | .ok _ => At ls [.insertAudit row] y
      | .error e => e.code = none ∧ ∃ L, At ls L y ∧ Unregistered config L) ?_ fun out y _ hy => ?_
    · exact upholds_ask (hy.atomic hnone)
        (fun a => ⟨(hwritten y hy).atomic hrow, hwritten y hy⟩)
        (fun e he => ⟨he, [], hy, hnone⟩)
        fun e a he => ⟨he, _, hwritten y hy, hrow⟩
    · cases out with
      | ok a =>
        refine (hrelease hrow y hy).mono fun out y _ hy => ?_
        cases out with
        | ok _ => exact hy.1
        | error e => exact hy.1.failsIn hrow (hy.2 e rfl)
      | error e =>
        obtain ⟨he, L, hat, hL⟩ := hy
        refine (hrelease hL y hat).mono fun out y _ hy => ?_
        cases out with
        | ok _ => exact hy.1.failsIn hL (plain_of_code_none he)
        | error e' => exact hy.1.failsIn hL (hy.2 e' rfl)

/-- A refusal ends in an audit row and its failure. -/
theorem refuse_upholds {α : Type} {row : AuditRow} {e : Failure}
    (h : At ls [] x) (hrow : Refused config e [.insertAudit row]) :
    Upholds (deed stepOf) (Atomic config payload)
      ((writeAuditIsolated row).bind fun _ => (.throw e : VaultM α)) (fun out y => match out with
      | .ok _ => False
      | .error e => FailsIn config e y) x := by
  refine (writeAuditIsolated_upholds h hrow.unregistered).bind (fun _ y _ hy => ?_)
    fun e y _ hy => hy
  exact ⟨hy.atomic hrow.unregistered, ls, _, hy, hrow⟩

/-- A check that lets the create go on where it is, or refuses it. -/
def Checks (config : ObjectTypeConfig) (payload : Payload) (check : VaultM Unit) : Prop :=
  ∀ x ls, At ls [] x → Upholds (deed stepOf) (Atomic config payload) check (fun out y =>
    match out with
    | .ok _ => y = x
    | .error e => FailsIn config e y) x

theorem Checks.pure : Checks config payload (.pure ()) := fun _ _ h =>
  ⟨h.atomic (.inl rfl), rfl⟩

theorem Checks.bind {p q : VaultM Unit} (hp : Checks config payload p)
    (hq : Checks config payload q) : Checks config payload (p.bind fun _ => q) := by
  intro x ls h
  refine (hp x ls h).bind (fun _ y _ hy => ?_) fun e y _ hy => hy
  obtain rfl := hy
  exact hq y ls h

theorem rejectTaxonomy_checks (reason message fieldName : String) {code : String}
    (hcode : code = "taxonomy_field_missing" ∨ code = "taxonomy_field_invalid") :
    Checks config payload (rejectTaxonomy config reason message code fieldName) := by
  intro x ls h
  have haudited : Audited config "taxonomy_rejected" [.insertAudit
      ⟨"taxonomy_rejected", config.name, none, none, reason, [("field", .str fieldName)]⟩] :=
    ⟨_, rfl, rfl, rfl⟩
  have hrefused : Refused config (httpError 422 message code (some fieldName)) [.insertAudit
      ⟨"taxonomy_rejected", config.name, none, none, reason, [("field", .str fieldName)]⟩] := by
    refine ⟨.inr (.inr haudited), fun h => ?_, fun _ => haudited⟩
    obtain rfl : code = "consent_required" := Option.some.inj h
    exact absurd hcode (by decide)
  exact (refuse_upholds h hrefused).mono fun out y _ hy => by
    cases out with
    | ok _ => exact hy.elim
    | error e => exact hy

theorem checkPresent_checks (fields : List String) :
    Checks config payload (checkPresent config payload fields) := by
  induction fields with
  | nil => exact .pure
  | cons fieldName rest ih =>
    unfold checkPresent
    split
    · exact rejectTaxonomy_checks _ _ _ (.inl rfl)
    · exact ih

theorem inSet_raised {v : Json} {names : List String} {e : Failure} (h : inSet v names = .error e) :
    e = .raised := by
  unfold inSet at h
  split at h <;> cases h <;> rfl

theorem checkAllowed_checks (fieldName : String) (allowed : List String) :
    Checks config payload (checkAllowed config payload fieldName allowed) := by
  intro x ls h
  refine (compute_upholds h fun e he => ?_).bind (fun allowed y _ hy => ?_) fun e y _ hy => hy
  · rw [inSet_raised he]
    exact plain_of_code_none rfl
  · obtain ⟨-, rfl⟩ := hy
    cases allowed with
    | true => exact Checks.pure y ls h
    | false => exact rejectTaxonomy_checks _ _ _ (.inr rfl) y ls h

theorem checkCampaign_checks : Checks config payload (checkCampaign P config payload) := by
  unfold checkCampaign
  split
  · exact .pure
  · exact rejectTaxonomy_checks _ _ _ (.inr rfl)

theorem validateTaxonomy_checks :
    Checks config payload (validateTaxonomy P config payload) :=
  (checkPresent_checks _).bind <| (checkAllowed_checks _ _).bind <|
    (checkAllowed_checks _ _).bind <| (checkAllowed_checks _ _).bind checkCampaign_checks

theorem requireConsentFields_plain {channel purpose : Json} {e : Failure}
    (h : requireConsentFields channel purpose = .error e) : e.plain := by
  unfold requireConsentFields at h
  split at h
  · cases h
  · obtain rfl := Except.error.inj h
    unfold Failure.plain
    decide

theorem asText_ok {v : Json} {s : String} (h : asText v = .ok s) : v = .str s := by
  unfold asText at h
  split at h <;> cases h
  rfl

theorem asText_plain {v : Json} {e : Failure} (h : asText v = .error e) : e.plain := by
  unfold asText at h
  split at h <;> cases h
  exact plain_of_code_none rfl

/-- A consent is found, or the create is refused. -/
theorem consentOf_upholds (h : At [[]] [] x) :
    Upholds (deed stepOf) (Atomic config payload) (consentOf config payload) (fun out y =>
      match out with
      | .ok consent => At [[]] [] y ∧ ∃ id, consent = some id ∧ Found payload id y
      | .error e => FailsIn config e y) x := by
  have hatomic (y : VaultStanding) (hy : At [[]] [] y) : Atomic config payload y :=
    hy.atomic (.inl rfl)
  refine (compute_upholds h fun e he => requireConsentFields_plain he).bind (fun _ y _ hy => ?_)
    fun e y _ hy => hy
  obtain ⟨-, rfl⟩ := hy
  refine (compute_upholds h fun e he => asText_plain he).bind (fun subject y _ hy => ?_)
    fun e y _ hy => hy
  obtain ⟨hsubject, rfl⟩ := hy
  refine (compute_upholds h fun e he => asText_plain he).bind (fun channel y _ hy => ?_)
    fun e y _ hy => hy
  obtain ⟨hchannel, rfl⟩ := hy
  refine (compute_upholds h fun e he => asText_plain he).bind (fun purpose y _ hy => ?_)
    fun e y _ hy => hy
  obtain ⟨hpurpose, rfl⟩ := hy
  refine Upholds.bind (Q := fun out z => match out with
    | .ok answer => At [[]] [] z ∧ (⟨.findActiveConsent subject channel purpose, answer, [[]]⟩ :
        Deed VaultOp VaultOp.Res Change) ∈ z.deeds
    | .error e => FailsIn config e z) ?_ (fun answer z _ hz => ?_) fun e z _ hz => hz
  · have hafter (a : Option Uuid) :
        At [[]] [] (y.after stepOf (.findActiveConsent subject channel purpose) a) := by
      have hd : TidyDeed ⟨.findActiveConsent subject channel purpose, a, [[]]⟩ :=
        ⟨fun k hk => absurd hk List.not_mem_nil, Nat.zero_le 1, nofun, fun _ _ _ _ => rfl, nofun⟩
      exact h.after hd
    refine upholds_ask (hatomic y h) (fun a => ?_) (fun e he => ?_) fun e a he => ?_
    · refine ⟨hatomic _ (hafter a), hafter a, ?_⟩
      rw [Standing.mem_after, h.levels]
      exact .inl rfl
    · exact h.failsIn (.inl rfl) (plain_of_code_none he)
    · exact (hafter a).failsIn (.inl rfl) (plain_of_code_none he)
  obtain ⟨hz, hfound⟩ := hz
  cases answer with
  | some id =>
    exact ⟨hatomic z hz, hz, id, rfl, subject, channel, purpose, asText_ok hsubject,
      asText_ok hchannel, asText_ok hpurpose, hfound⟩
  | none =>
    have haudited : Audited config "consent_rejected" [.insertAudit ⟨"consent_rejected",
        config.name, none, some subject,
        "no active (non-revoked) consent_register match for subject/channel/purpose",
        [("channel", .str channel), ("purpose", .str purpose)]⟩] := ⟨_, rfl, rfl, rfl⟩
    refine (refuse_upholds hz ⟨.inr (.inl haudited), fun _ => haudited, fun h => ?_⟩).mono
      fun out y _ hy => ?_
    · exact absurd h (by decide)
    · cases out with
      | ok _ => exact hy.elim
      | error e => exact hy

/-- The gate lets through what it has found a consent for. -/
theorem handleConsentGate_upholds (h : At [[]] [] x) :
    Upholds (deed stepOf) (Atomic config payload) (handleConsentGate config payload) (fun out y =>
      match out with
      | .ok consent => At [[]] [] y ∧ Passed config payload consent y
      | .error e => FailsIn config e y) x := by
  have hatomic : Atomic config payload x := h.atomic (.inl rfl)
  unfold handleConsentGate
  split
  · refine ⟨hatomic, h, fun hgated => absurd ‹_› hgated.1, fun id hid => nomatch hid⟩
  split
  · refine (consentOf_upholds h).mono fun out y _ hy => ?_
    cases out with
    | error e => exact hy
    | ok consent =>
      obtain ⟨hat, id, rfl, hfound⟩ := hy
      refine ⟨hat, fun _ => nofun, fun id' hid => ?_⟩
      obtain rfl := Option.some.inj hid
      exact hfound
  · exact ⟨hatomic, h, fun hgated => absurd hgated.2 ‹_›, fun id hid => nomatch hid⟩

end Gate

/-! ## From the INSERT to COMMIT -/

section Insert

variable {P : Runtime} {config : ObjectTypeConfig} {payload : Payload} {x : VaultStanding}

theorem castForAsyncpg_plain {sqlType : SqlType} {v : Json} {e : Failure}
    (h : castForAsyncpg P sqlType v = .error e) : e.plain := by
  unfold castForAsyncpg at h
  split at h
  · cases h
  · (repeat' split at h) <;> cases h <;> exact plain_of_code_none rfl

theorem bind_error {α β : Type} {r : Except Failure α} {f : α → Except Failure β} {e : Failure}
    (h : (r >>= f) = .error e) : r = .error e ∨ ∃ a, r = .ok a ∧ f a = .error e := by
  cases r with
  | error e' =>
    obtain rfl : e' = e := Except.error.inj h
    exact .inl rfl
  | ok a => exact .inr ⟨a, rfl, h⟩

theorem fieldCells_plain {fields : List FieldSpec} {e : Failure}
    (h : fieldCells P payload fields = .error e) : e.plain := by
  induction fields with
  | nil => cases h
  | cons f rest ih =>
    rcases bind_error h with h | ⟨value, -, h⟩
    · exact castForAsyncpg_plain h
    · rcases bind_error h with h | ⟨cells, -, h⟩
      · exact ih h
      · cases h

theorem newObject_plain {columns : List (String × SqlValue)} {e : Failure}
    (h : newObject P config payload columns = .error e) : e.plain := by
  rcases bind_error h with h | ⟨campaign, -, h⟩
  · unfold castCampaign at h
    split at h <;> cases h
    exact plain_of_code_none rfl
  · rcases bind_error h with h | ⟨cells, -, h⟩
    · exact fieldCells_plain h
    · cases h

theorem validateRequired_plain {fields : List FieldSpec} {e : Failure}
    (h : validateRequired payload fields = .error e) : e.plain := by
  induction fields with
  | nil => cases h
  | cons f rest ih =>
    unfold validateRequired at h
    split at h
    · obtain rfl := Except.error.inj h
      intro code hcode hsome
      obtain rfl : "field_missing" = code := Option.some.inj hsome
      revert hcode
      decide
    · exact ih h

/-- The rows of one object, which nobody has linked, are pending. -/
def Inserted (config : ObjectTypeConfig) (id : Uuid) (x : VaultStanding) : Prop :=
  ∃ new, new.table = config.name ∧ At [[.insertObject new id]] [] x

theorem insertObject_upholds {columns : List (String × SqlValue)} (h : At [[]] [] x) :
    Upholds (deed stepOf) (Atomic config payload) (insertObject P config payload columns)
      (fun out y => match out with
      | .ok id => Inserted config id y
      | .error e => FailsIn config e y) x := by
  have hnone : Unregistered config [] := .inl rfl
  refine (compute_upholds h fun e he => newObject_plain he).bind (fun new y _ hy => ?_)
    fun e y _ hy => hy
  obtain ⟨hnew, rfl⟩ := hy
  refine Upholds.bind (Q := fun out z => match out with
    | .ok _ => At [[]] [] z
    | .error e => FailsIn config e z) ?_ (fun now z _ hz => ?_) fun e z _ hz => hz
  · exact upholds_ask (h.atomic hnone) (fun a => ⟨(h.quiet rfl a).atomic hnone, h.quiet rfl a⟩)
      (fun e he => h.failsIn hnone (plain_of_code_none he))
      fun e a he => (h.quiet rfl a).failsIn hnone (plain_of_code_none he)
  -- the INSERT is answered with an id, or with an error of the database
  have hinserted (answer : Except SqlError Uuid) : ∃ ls,
      At ls [] (z.after stepOf (.insertObject (new now)) answer) ∧
        ∀ id, answer = .ok id → ls = [[.insertObject (new now) id]] := by
    have hd : TidyDeed ⟨.insertObject (new now), answer, [[]]⟩ := by
      refine .of_keyless (fun c hc => ?_) rfl
      cases answer <;> exact absurd hc List.not_mem_nil
    cases answer with
    | ok id => exact ⟨_, hz.after hd, fun id' hid => by rw [Except.ok.inj hid]; rfl⟩
    | error e => exact ⟨_, hz.after hd, fun id hid => nomatch hid⟩
  refine Upholds.bind (Q := fun out z' => match out with
    | .ok answer => ∃ ls, At ls [] z' ∧ ∀ id, answer = .ok id → ls = [[.insertObject (new now) id]]
    | .error e => FailsIn config e z') ?_ (fun answer z' _ hz' => ?_) fun e z' _ hz' => hz'
  · refine upholds_ask (hz.atomic hnone) (fun a => ?_)
      (fun e he => hz.failsIn hnone (plain_of_code_none he)) fun e a he => ?_
    · obtain ⟨ls, hat, hls⟩ := hinserted a
      exact ⟨hat.atomic hnone, ls, hat, hls⟩
    · obtain ⟨ls, hat, -⟩ := hinserted a
      exact hat.failsIn hnone (plain_of_code_none he)
  obtain ⟨ls, hat, hls⟩ := hz'
  cases answer with
  | ok id =>
    refine ⟨hat.atomic hnone, new now, newObject_table hnew now, ?_⟩
    rwa [hls id rfl] at hat
  | error e =>
    cases e with
    | foreignKeyViolation => exact ⟨hat.atomic hnone, hat.failsIn hnone (by
        unfold Failure.plain
        decide)⟩
    | other => exact ⟨hat.atomic hnone, hat.failsIn hnone (plain_of_code_none rfl)⟩

/-- What a create holds when it comes to COMMIT. -/
def Pending (config : ObjectTypeConfig) (payload : Payload) (x : VaultStanding) : Prop :=
  ∃ L, At [L] [] x ∧ Stored config payload L x

theorem linkConsent_upholds {id : Uuid} {consent : Option Uuid} (h : Inserted config id x)
    (hpassed : Passed config payload consent x) :
    Upholds (deed stepOf) (Atomic config payload) (linkConsent config.name id consent)
      (fun out y => match out with
      | .ok _ => Pending config payload y
      | .error e => FailsIn config e y) x := by
  have hnone : Unregistered config [] := .inl rfl
  obtain ⟨new, htable, hat⟩ := h
  cases consent with
  | none => exact ⟨hat.atomic hnone, _, hat, new, id, none, htable, hpassed, .inl rfl⟩
  | some consent =>
    have hd (answer : Except SqlError Bool) : TidyDeed
        ⟨.linkConsent ⟨config.name, id, consent⟩, answer, [[.insertObject new id]]⟩ := by
      refine ⟨fun k hk => ?_, ?_, fun row hrow => ?_, nofun, nofun⟩
      · rcases answer with e | b
        · exact absurd hk List.not_mem_nil
        · cases b <;> exact absurd hk List.not_mem_nil
      · rcases answer with e | b
        · exact Nat.zero_le 1
        · cases b <;> exact Nat.zero_le 1
      · obtain rfl := VaultOp.linkConsent.inj hrow
        refine ⟨List.mem_singleton.2 ?_, rfl⟩
        rw [htable]
        rfl
    have hafter (answer : Except SqlError Bool) : ∃ L,
        At [L] [] (x.after stepOf (.linkConsent ⟨config.name, id, consent⟩) answer) ∧
          ∀ b, answer = .ok b → Stored config payload L
            (x.after stepOf (.linkConsent ⟨config.name, id, consent⟩) answer) := by
      rcases answer with e | b
      · exact ⟨_, hat.after (hd (.error e)), nofun⟩
      · cases b with
        | true =>
          refine ⟨_, hat.after (hd (.ok true)), fun _ _ => ⟨new, id, some consent, htable,
            hpassed.after, .inl ?_⟩⟩
          rw [written, htable]
          rfl
        | false =>
          refine ⟨_, hat.after (hd (.ok false)), fun _ _ => ⟨new, id, some consent, htable,
            hpassed.after, .inr ⟨⟨⟨config.name, id, consent⟩, [[.insertObject new id]], ?_⟩, rfl⟩⟩⟩
          rw [Standing.mem_after, hat.levels]
          exact .inl rfl
    refine Upholds.bind (Q := fun out z => match out with
      | .ok answer => ∃ L, At [L] [] z ∧ ∀ b, answer = .ok b → Stored config payload L z
      | .error e => FailsIn config e z) ?_ (fun answer z _ hz => ?_) fun e z _ hz => hz
    · refine upholds_ask (hat.atomic hnone) (fun a => ?_)
        (fun e he => hat.failsIn hnone (plain_of_code_none he)) fun e a he => ?_
      · obtain ⟨L, hL, hstored⟩ := hafter a
        exact ⟨hL.atomic hnone, L, hL, hstored⟩
      · obtain ⟨L, hL, -⟩ := hafter a
        exact hL.failsIn hnone (plain_of_code_none he)
    obtain ⟨L, hL, hstored⟩ := hz
    cases answer with
    | ok b => exact ⟨hL.atomic hnone, L, hL, hstored b rfl⟩
    | error e => exact ⟨hL.atomic hnone, hL.failsIn hnone (plain_of_code_none rfl)⟩

/-- A plain failure of quiet statements. -/
abbrev Quietly {α : Type} (p : VaultM α) : Prop :=
  p.Within (fun o => o.quiet = true) Failure.plain

/-- What a create does in its transaction: it holds the rows of one object, or it fails. -/
theorem createObject_upholds {extraColumns : VaultM (List (String × SqlValue))}
    (hextra : Quietly extraColumns) (h : At [[]] [] x) :
    Upholds (deed stepOf) (Atomic config payload) (createObject P config payload extraColumns)
      (fun out y => match out with
      | .ok _ => Pending config payload y
      | .error e => FailsIn config e y) x := by
  have hnone : Unregistered config [] := .inl rfl
  refine (validateTaxonomy_checks x _ h).bind (fun _ y _ hy => ?_) fun e y _ hy => hy
  obtain rfl := hy
  refine (compute_upholds h fun e he => ?_).bind (fun _ y' _ hy => ?_) fun e y _ hy => hy
  · exact validateRequired_plain he
  obtain ⟨-, rfl⟩ := hy
  refine (handleConsentGate_upholds h).bind (fun consent y _ hy => ?_) fun e y _ hy => hy
  obtain ⟨hat, hpassed⟩ := hy
  -- the blob of an asset
  refine Upholds.bind (Q := fun out z => match out with
    | .ok _ => At [[]] [] z ∧ Passed config payload consent z
    | .error e => FailsIn config e z) ?_ (fun columns z _ hz => ?_) fun e z _ hz => hz
  · refine (upholds_quiet (Z := fun z => At [[]] [] z ∧ Passed config payload consent z) hextra
      ⟨hat, hpassed⟩ (fun z hz => hz.1.atomic hnone)
      fun z o a ho hz => ⟨hz.1.quiet ho a, hz.2.after⟩).mono fun out z _ hz => ?_
    cases out with
    | ok columns => exact hz.1
    | error e => exact hz.1.1.failsIn hnone (hz.2 e rfl)
  obtain ⟨hat, hpassed⟩ := hz
  -- what the gate has found stays found
  refine ((insertObject_upholds hat).frame hpassed (fun o a b s t ht hs => ?_)
    fun s hs _ => hs).bind (fun id y _ hy => ?_) fun e y _ hy => hy.1
  · rw [deed_eq_some ht]
    exact hs.after
  refine (linkConsent_upholds hy.1 hy.2).bind (fun _ z hz hp => ⟨hz, hp⟩) fun e z _ hz => hz

/-- How a create fails: before COMMIT, or with its rows in the tables. -/
def Fails (config : ObjectTypeConfig) (payload : Payload) (e : Failure) (x : VaultStanding) : Prop :=
  FailsIn config e x ∨ (Registered config payload x ∧ e.plain)

/-- COMMIT puts into the tables what the transaction holds. -/
theorem commit_upholds (h : Pending config payload x) :
    Upholds (deed stepOf) (Atomic config payload) (ask .commit) (fun out y => match out with
      | .ok _ => Registered config payload y
      | .error e => Fails config payload e y) x := by
  obtain ⟨L, hat, hstored⟩ := h
  have hnone : Unregistered config [] := .inl rfl
  have hd : TidyDeed ⟨.commit, (), [L]⟩ := by
    have hrest {L : List Change} (hlinked : ∀ k ∈ L.flatMap Change.linkKeys,
        k ∈ L.flatMap Change.rowKeys) (hone : (L.flatMap Change.rowKeys).length ≤ 1) :
        TidyDeed ⟨.commit, (), [L]⟩ := ⟨hlinked, hone, nofun, nofun, nofun⟩
    obtain ⟨new, id, consent, -, -, hL | ⟨-, hL⟩⟩ := hstored
    · subst hL
      cases consent with
      | none => exact hrest (fun k hk => absurd hk List.not_mem_nil) (Nat.le_refl 1)
      | some consent => exact hrest (fun k hk => hk) (Nat.le_refl 1)
    · subst hL
      exact hrest (fun k hk => absurd hk List.not_mem_nil) (Nat.le_refl 1)
  have hcommit : At [] (L ++ []) (x.after stepOf .commit ()) := hat.after hd
  rw [List.append_nil] at hcommit
  have hregistered : Registered config payload (x.after stepOf .commit ()) := by
    unfold Registered
    rw [hcommit.committed]
    refine ⟨hstored.after, ⟨.commit, (), [L]⟩, ?_, rfl, rfl⟩
    rw [Standing.mem_after, hat.levels]
    exact .inl rfl
  refine upholds_ask (hat.atomic hnone)
    (fun _ => ⟨⟨hcommit.tidy, .inr hregistered⟩, hregistered⟩)
    (fun e he => .inl (hat.failsIn hnone (plain_of_code_none he)))
    fun e _ he => .inr ⟨hregistered, plain_of_code_none he⟩

/-- A statement that drops what is pending leaves what has landed. -/
theorem At.drop {ls : List (List Change)} {L : List Change} (h : At ls L x) {o : VaultOp} {a : o.Res}
    (hstep : stepOf o a = .rollback ∨ stepOf o a = .reset) :
    ∃ ls', At ls' L (x.after stepOf o a) := by
  have hnone : (stepOf o a).landed ls = [] := by
    rcases hstep with hstep | hstep <;> rw [hstep] <;> rfl
  have hd : TidyDeed ⟨o, a, ls⟩ := by
    refine .of_keyless (by rw [hnone]; exact fun c hc => absurd hc List.not_mem_nil) ?_
    cases o with
    | linkConsent row =>
      rcases a with e | b
      · rcases hstep with hstep | hstep <;> cases hstep
      · cases b <;> rcases hstep with hstep | hstep <;> cases hstep
    | findActiveConsent | updateObject => rcases hstep with hstep | hstep <;> cases hstep
    | _ => rfl
  have hafter := h.after hd
  rw [hnone] at hafter
  exact ⟨_, hafter⟩

theorem createTransaction_upholds {extraColumns : VaultM (List (String × SqlValue))}
    (hextra : Quietly extraColumns) (h : At [] [] x) :
    Upholds (deed stepOf) (Atomic config payload)
      (transaction (createObject P config payload extraColumns)) (fun out y => match out with
      | .ok _ => Registered config payload y
      | .error e => Fails config payload e y) x := by
  have hnone : Unregistered config [] := .inl rfl
  have hbegin (y : VaultStanding) (hy : At [] [] y) : At [[]] [] (y.after stepOf .begin ()) := by
    have hd : TidyDeed ⟨.begin, (), []⟩ :=
      .of_keyless (fun c hc => absurd hc List.not_mem_nil) rfl
    exact hy.after hd
  refine Upholds.bind (Q := fun out y => match out with
    | .ok _ => At [[]] [] y
    | .error e => FailsIn config e y) ?_ (fun _ y _ hy => ?_) fun e y _ hy => .inl hy
  · exact upholds_ask (h.atomic hnone) (fun _ => ⟨(hbegin x h).atomic hnone, hbegin x h⟩)
      (fun e he => h.failsIn hnone (plain_of_code_none he))
      fun e _ he => (hbegin x h).failsIn hnone (plain_of_code_none he)
  refine Upholds.bind (Q := fun out y => match out with
    | .ok _ => Pending config payload y
    | .error e => FailsIn config e y) ?_ (fun id z _ hz => ?_) fun e z _ hz => .inl hz
  · refine (createObject_upholds hextra hy).tryCatch (fun _ _ _ hz => hz) fun e z _ hz => ?_
    -- ROLLBACK: nothing more lands
    obtain ⟨ls, L, hat, hrefused⟩ := hz
    have hL := hrefused.unregistered
    obtain ⟨ls', hdrop⟩ := hat.drop (o := .rollback) (a := ()) (.inl rfl)
    refine Upholds.bind (Q := fun out y => match out with
      | .ok _ => FailsIn config e y
      | .error e' => FailsIn config e' y) ?_ (fun _ y hJ hy => ⟨hJ, hy⟩) fun e y _ hy => hy
    exact upholds_ask (hat.atomic hL) (fun _ => ⟨hdrop.atomic hL, ls', L, hdrop, hrefused⟩)
      (fun e' he => hat.failsIn hL (plain_of_code_none he))
      fun e' _ he => hdrop.failsIn hL (plain_of_code_none he)
  · exact (commit_upholds hz).bind (fun _ y hJ hy => ⟨hJ, hy⟩) fun e y _ hy => hy

end Insert

/-! ## The whole create -/

section Create

variable {P : Runtime} {config : ObjectTypeConfig} {payload : Payload} {x : VaultStanding}
  {o : VaultOp} {a : o.Res} {e : Failure}

/-- A statement lands nothing, wherever it stands. -/
structure Barren (o : VaultOp) (a : o.Res) (ls : List (List Change)) : Prop where
  landed : (stepOf o a).landed ls = []
  free : o.free = true

theorem Barren.of_quiet (ho : o.quiet = true) (ls : List (List Change)) : Barren o a ls where
  landed := by
    rw [stepOf_quiet ho a]
    cases ls <;> rfl
  free := free_of_quiet ho

theorem Barren.release (ls : List (List Change)) : Barren (.release .own) () ls :=
  ⟨rfl, rfl⟩

theorem Barren.tidy {ls : List (List Change)} (h : Barren o a ls) : TidyDeed ⟨o, a, ls⟩ := by
  refine .of_keyless ?_ h.free
  rw [h.landed]
  exact fun c hc => absurd hc List.not_mem_nil

theorem Atomic.after (h : Atomic config payload x) (hb : Barren o a x.levels) :
    Atomic config payload (x.after stepOf o a) := by
  refine ⟨fun d hd => ?_, ?_⟩
  · rcases Standing.mem_after.1 hd with rfl | hd
    · exact hb.tidy
    · exact h.tidy d hd
  · have hcommitted : committed (x.after stepOf o a) = committed x := by
      show (x.after stepOf o a).landed stepOf = _
      rw [Standing.after_landed, hb.landed, List.nil_append]
    rcases h.all with hu | hr
    · exact .inl (by rw [hcommitted]; exact hu)
    · exact .inr (hr.after hb.landed)

theorem Fails.after (h : Fails config payload e x) (hb : Barren o a x.levels) :
    Fails config payload e (x.after stepOf o a) := by
  rcases h with ⟨ls, L, hat, hrefused⟩ | ⟨hr, he⟩
  · rw [hat.levels] at hb
    have hafter := hat.after hb.tidy
    rw [hb.landed, List.nil_append] at hafter
    exact .inl ⟨_, L, hafter, hrefused⟩
  · exact .inr ⟨hr.after hb.landed, he⟩

/-- Another failure in its place is one of a driver. -/
theorem Fails.replace {e' : Failure} (h : Fails config payload e x) (he' : e'.plain) :
    Fails config payload e' x := by
  rcases h with ⟨ls, L, hat, hrefused⟩ | ⟨hr, -⟩
  · exact .inl (hat.failsIn hrefused.unregistered he')
  · exact .inr ⟨hr, he'⟩

/-- How a create ends. -/
def Concluded (config : ObjectTypeConfig) (payload : Payload) {α : Type} (out : Except Failure α)
    (x : VaultStanding) : Prop :=
  match out with
  | .ok _ => Registered config payload x
  | .error e => Fails config payload e x

theorem Concluded.after {α : Type} {out : Except Failure α} (h : Concluded config payload out x)
    (hb : Barren o a x.levels) : Concluded config payload out (x.after stepOf o a) := by
  cases out with
  | ok b => exact Registered.after h hb.landed
  | error e => exact Fails.after h hb

theorem Concluded.error {α : Type} {out : Except Failure α} (h : Concluded config payload out x)
    (he : e.plain) : Fails config payload e x := by
  cases out with
  | ok b => exact .inr ⟨h, he⟩
  | error e' => exact Fails.replace h he

theorem createAndFetch_upholds {extraColumns : VaultM (List (String × SqlValue))}
    (hextra : Quietly extraColumns) (h : At [] [] x) :
    Upholds (deed stepOf) (Atomic config payload) (createAndFetch P config payload extraColumns)
      (Concluded config payload) x := by
  have hnone : Unregistered config [] := .inl rfl
  refine Upholds.bind (Q := fun out y => match out with
    | .ok _ => At [] [] y
    | .error e => FailsIn config e y) ?_ (fun _ y _ hy => ?_) fun e y _ hy => .inl hy
  · exact upholds_ask (h.atomic hnone) (fun a => ⟨(h.quiet rfl a).atomic hnone, h.quiet rfl a⟩)
      (fun e he => h.failsIn hnone (plain_of_code_none he))
      fun e a he => (h.quiet rfl a).failsIn hnone (plain_of_code_none he)
  refine Upholds.thenFinally (Q := Concluded config payload) ?_ fun out z hz hends => ?_
  · refine (createTransaction_upholds hextra hy).bind (fun id z hz hr => ?_) fun e z _ hz => hz
    have hb (found : Option Fetched) : Barren (.fetchObject (config.name, id)) found z.levels :=
      .of_quiet rfl _
    exact upholds_ask hz (fun found => ⟨hz.after (hb found), hr.after (hb found).landed⟩)
      (fun e he => .inr ⟨hr, plain_of_code_none he⟩)
      fun e found he => .inr ⟨hr.after (hb found).landed, plain_of_code_none he⟩
  · have hb : Barren (.release .own) () z.levels := .release _
    exact upholds_ask hz (fun _ => ⟨hz.after hb, hends.after hb⟩)
      (fun e he => hends.error (plain_of_code_none he))
      fun e _ he => (hends.after hb).error (plain_of_code_none he)

theorem contentColumns_quietly (data : List UInt8) : Quietly (contentColumns P data) := by
  have hask {o : VaultOp} (ho : o.quiet = true) : Quietly (ask o) :=
    (ask_within ho).mono (fun _ h => h) fun _ => plain_of_code_none
  refine Prog.Within.bind ((hask rfl).bind fun there => ?_) fun digest => True.intro
  cases there with
  | true => exact True.intro
  | false => exact (hask rfl).bind fun _ => True.intro

theorem decodeContent_plain {e : Failure} (h : decodeContent P payload = .error e) : e.plain := by
  unfold decodeContent at h
  dsimp only at h
  (repeat' split at h) <;> cases h <;> unfold Failure.plain <;> decide

/-- From its first statement to its last, a create is atomic. -/
theorem create_upholds (P : Runtime) (config : ObjectTypeConfig) (payload : Payload) :
    Upholds (deed stepOf) (Atomic config payload) (handle P (.create config payload))
      (Concluded config payload) ⟨[], []⟩ := by
  have h : At [] [] (⟨[], []⟩ : VaultStanding) :=
    ⟨rfl, rfl, fun d hd => absurd hd List.not_mem_nil⟩
  show Upholds _ _ (if _ then _ else _) _ _
  split
  · refine (compute_upholds h fun e he => decodeContent_plain he).bind (fun raw y _ hy => ?_)
      fun e y _ hy => .inl hy
    obtain ⟨-, rfl⟩ := hy
    refine (createAndFetch_upholds (contentColumns_quietly raw) h).bind
      (fun found z hz hr => ?_) fun e z _ hz => hz
    cases found with
    | some found => exact ⟨hz, hr⟩
    | none => exact ⟨hz, .inr ⟨hr, plain_of_code_none rfl⟩⟩
  · have hnothing : Quietly (Prog.pure [] : VaultM (List (String × SqlValue))) := True.intro
    exact (createAndFetch_upholds hnothing h).bind (fun found z hz hr => ⟨hz, hr⟩)
      fun e z _ hz => hz

end Create

end CanvasOS.Vault
