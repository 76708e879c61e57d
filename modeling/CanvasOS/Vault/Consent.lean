/-
  The consent gate (`handle_consent_gate`), over whole runs.

  A client-derived create has its four rows, the linkage to a consent that was in force at the check
  among them, or none; a refusal leaves one audit row.  Only a failure at COMMIT or after it, when the
  object is read back, comes with the rows in the tables.
-/
import CanvasOS.Vault.Keys

namespace CanvasOS.Vault

open Python Interleave Transaction

section Gate

variable {ι : Type} [DecidableEq ι]

/-- What has happened in Vault. -/
abbrev VaultHistory (ι : Type) := History VaultOp VaultOp.Res (VaultState ι) ι Request

/-- What request `i` has committed, newest first. -/
def committedBy (h : VaultHistory ι) (i : ι) : List Change := h.landedBy VaultState.db stepOf i

/-- At its check, the request saw this consent in force. -/
def Checked (h : VaultHistory ι) (i : ι) (payload : Payload) (consent : Uuid) : Prop :=
  ∃ subject channel purpose pre, Json.get payload "data_subject_ref" = .str subject ∧
    Json.get payload "consent_channel" = .str channel ∧
    Json.get payload "consent_purpose" = .str purpose ∧
    (⟨i, .findActiveConsent subject channel purpose, some consent, pre⟩ :
      Event VaultOp VaultOp.Res (VaultState ι) ι) ∈ h.log ∧
    ∃ row ∈ pre.db.base.objects, row.id = consent ∧ row.consents subject channel purpose = true

/-- One COMMIT of the request has put object, taxonomy, retention policy and linkage into the tables,
    and nothing else of it is there. -/
def CommittedUnder (h : VaultHistory ι) (i : ι) (config : ObjectTypeConfig) (consent : Uuid) : Prop :=
  ∃ new id pre, new.table = config.name ∧
    (⟨i, .commit, (), pre⟩ : Event VaultOp VaultOp.Res (VaultState ι) ι) ∈ h.log ∧
    pre.db.levels i = [committedBy h i] ∧
    committedBy h i = [.insertLinkage ⟨config.name, id, consent⟩, .insertObject new id]

/-- The create has its four rows, under a consent. -/
def HasRows (h : VaultHistory ι) (i : ι) (config : ObjectTypeConfig) (payload : Payload) : Prop :=
  ∃ consent, Checked h i payload consent ∧ CommittedUnder h i config consent

variable {P : Runtime} {ok : VaultConfig ι → VaultAct ι → Prop} {c : VaultConfig ι}
  {s₀ : VaultState ι} {i : ι} {config : ObjectTypeConfig} {payload : Payload}

/-- A consent that was found is in the tables. -/
theorem checked_of_found (hr : (vaultSystem P).Reach ok (.idle ⟨s₀, [], []⟩) c) {consent : Uuid}
    (h : Found payload consent (c.shared.standing VaultState.db i)) :
    Checked c.shared i payload consent := by
  obtain ⟨subject, channel, purpose, hs, hc, hp, hd⟩ := h
  obtain ⟨⟨who, op, ans, pre⟩, he, rfl, hdeed⟩ := History.mem_deeds.1 hd
  obtain ⟨rfl, hans, hlevels⟩ := Deed.mk.inj hdeed
  obtain rfl := eq_of_heq hans
  obtain ⟨a, t, hrun⟩ := hr.event_ran _ he
  refine ⟨subject, channel, purpose, pre, hs, hc, hp, he, ?_⟩
  -- nothing was written yet, so the connection saw the tables
  have hview : pre.view who = pre.db.base := by
    unfold VaultState.view Sessions.view Sessions.pending
    rw [hlevels]
    rfl
  simp only [exec] at hrun
  split at hrun
  · rename_i hfinds
    obtain ⟨ha, -⟩ := Prod.mk.inj (Option.some.inj hrun)
    rw [ha, hview] at hfinds
    obtain ⟨row, hrow, hboth⟩ := List.any_eq_true.1 hfinds
    obtain ⟨hid, hconsents⟩ := Bool.and_eq_true_iff.1 hboth
    exact ⟨row, hrow, beq_iff_eq.1 hid, hconsents⟩
  · cases hrun

/-- What COMMIT lands was all that the transaction held. -/
theorem levels_of_commit {L : List Change} {ls : List (List Change)}
    (h : (Step.commit : Step Change).landed ls = L) (hL : L ≠ []) : ls = [L] := by
  match ls with
  | [] | l :: m :: ls => exact absurd h.symm hL
  | [l] =>
    obtain rfl : l = L := h
    rfl

/-- A registration of a client-derived payload is one under a consent. -/
theorem hasRows_of_registered (hok : OrderlyMoves ok) (h₀ : WellKept s₀)
    (hr : (vaultSystem P).Reach ok (.idle ⟨s₀, [], []⟩) c) (hgated : Gated config payload)
    (h : Registered config payload (c.shared.standing VaultState.db i)) :
    HasRows c.shared i config payload := by
  have hcommitted : committed (c.shared.standing VaultState.db i) = committedBy c.shared i :=
    History.landed_standing
  obtain ⟨⟨new, id, consent, htable, hpassed, hL⟩, d, hd, hop, hlanded⟩ := h
  obtain ⟨⟨who, op, ans, pre⟩, he, rfl, rfl⟩ := History.mem_deeds.1 hd
  obtain rfl : op = .commit := hop
  rw [hcommitted] at hL hlanded
  have hconsent := hpassed.gated hgated
  cases consent with
  | none => exact absurd rfl hconsent
  | some consent =>
    refine ⟨consent, checked_of_found hr (hpassed.found consent rfl), ?_⟩
    rcases hL with hL | ⟨⟨row, ls, hd⟩, -⟩
    · rw [written, htable] at hL
      refine ⟨new, id, pre, htable, he, ?_, hL⟩
      refine levels_of_commit hlanded ?_
      rw [hL]
      exact List.cons_ne_nil _ _
    · -- no linkage stood in the way
      obtain ⟨⟨who', op', ans', pre'⟩, he', rfl, hdeed⟩ := History.mem_deeds.1 hd
      obtain ⟨rfl, hans, -⟩ := Deed.mk.inj hdeed
      obtain rfl := eq_of_heq hans
      exact absurd he' (linkConsent_fresh hok h₀ hr _ row pre')

/-- What a create keeps; nothing is said of other requests. -/
def KeepsAtomic : Request → VaultStanding → Prop
  | .create config payload, x => Atomic config payload x
  | _, _ => True

/-- How a create ends; nothing is said of other requests. -/
def ConcludesAtomic : Request → Except Failure Response → VaultStanding → Prop
  | .create config payload, out, x => Concluded config payload out x
  | _, _, _ => True

theorem handle_atomic (r : Request) :
    Upholds (deed stepOf) (KeepsAtomic r) (handle P r) (ConcludesAtomic r) ⟨[], []⟩ := by
  cases r with
  | create config payload => exact create_upholds P config payload
  | patch config id payload =>
    exact Upholds.of_only (handle_makes _) True.intro fun _ _ _ _ _ _ _ _ => True.intro
  | delete config id =>
    exact Upholds.of_only (handle_makes (P := P) _) True.intro fun _ _ _ _ _ _ _ _ => True.intro
  | sweep =>
    exact Upholds.of_only (handle_makes (P := P) _) True.intro fun _ _ _ _ _ _ _ _ => True.intro

/-- A create that has ended. -/
theorem create_concluded (hok : OrderlyMoves ok) (h₀ : WellKept s₀)
    (hr : (vaultSystem P).Reach ok (.idle ⟨s₀, [], []⟩) c) {out : Except Failure Response}
    (hi : c.result i = some (.create config payload, out)) :
    Concluded config payload out (c.shared.standing VaultState.db i) := by
  have hstart : ∀ i, (⟨s₀, [], []⟩ : VaultHistory ι).standing VaultState.db i = ⟨[], []⟩ := by
    intro i
    show (⟨s₀.db.levels i, []⟩ : VaultStanding) = _
    rw [h₀.idle i]
  have hall := hr.upholds_part (vault_parted hok) hstart handle_atomic
  cases out with
  | ok a => exact (hall i _ _ (Config.thread_of_result_ok hi)).2
  | error e => exact (hall i _ _ (Config.thread_of_result_error hi)).2

/-- A create at any point of a run, dead or alive: nothing of it has landed but the audit row of a
    refusal, or it has its four rows. -/
theorem create_atomic (hok : OrderlyMoves ok) (h₀ : WellKept s₀)
    (hr : (vaultSystem P).Reach ok (.idle ⟨s₀, [], []⟩) c) (hgated : Gated config payload)
    {p : Option (VaultM Response)} (hi : c.thread i = some (.create config payload, p)) :
    Unregistered config (committedBy c.shared i) ∨ HasRows c.shared i config payload := by
  let Z (r : Request) (x : VaultStanding) : Prop := ∀ config payload, r = .create config payload →
    Unregistered config (committed x) ∨ Registered config payload x
  have hJ : ∀ r x, KeepsAtomic r x → Z r x := by
    rintro r x hx config payload rfl
    exact hx.all
  have hZ : ∀ r ls ls' ds, Z r ⟨ls, ds⟩ → Z r ⟨ls', ds⟩ := by
    intro r ls ls' ds hz config payload hrequest
    refine (hz config payload hrequest).imp id fun h => ?_
    obtain ⟨⟨new, id, consent, htable, ⟨hpassed, hfound⟩, hL⟩, hd⟩ := h
    exact ⟨⟨new, id, consent, htable, ⟨hpassed, hfound⟩, hL⟩, hd⟩
  have hz : Z (.create config payload) (c.shared.standing VaultState.db i) :=
    upheld_deeds hok h₀.idle handle_atomic hJ hZ hr i _ p hi
  have hcommitted : committed (c.shared.standing VaultState.db i) = committedBy c.shared i :=
    History.landed_standing
  rw [← hcommitted]
  exact (hz config payload rfl).imp_right (hasRows_of_registered hok h₀ hr hgated)

/-- The refusals of a create: for want of a consent, and for its taxonomy. -/
def Failure.forConsent (e : Failure) : Prop := e.code = some "consent_required"

def Failure.forTaxonomy (e : Failure) : Prop :=
  e.code = some "taxonomy_field_missing" ∨ e.code = some "taxonomy_field_invalid"

/-- The create has reached COMMIT, and failed at it or after it. -/
def FailedLate (h : VaultHistory ι) (i : ι) (e : Failure) : Prop :=
  (∃ pre, (⟨i, .commit, (), pre⟩ : Event VaultOp VaultOp.Res (VaultState ι) ι) ∈ h.log) ∧
    ¬ e.forConsent ∧ ¬ e.forTaxonomy

theorem consent_gate (h₀ : WellKept s₀) (hgated : Gated config payload)
    (hr : (vaultSystem P).Reach Orderly (.idle ⟨s₀, [], []⟩) c) :
    (∀ response, c.result i = some (.create config payload, .ok response) →
      HasRows c.shared i config payload) ∧
    (∀ e, c.result i = some (.create config payload, .error e) →
      (Unregistered config (committedBy c.shared i) ∨
        (FailedLate c.shared i e ∧ HasRows c.shared i config payload)) ∧
      (e.forConsent → Audited config "consent_rejected" (committedBy c.shared i)) ∧
      (e.forTaxonomy → Audited config "taxonomy_rejected" (committedBy c.shared i))) ∧
    (c.thread i = some (.create config payload, none) →
      Unregistered config (committedBy c.shared i) ∨ HasRows c.shared i config payload) := by
  have hok : OrderlyMoves (ι := ι) Orderly := fun _ _ h => h
  have hcommitted : committed (c.shared.standing VaultState.db i) = committedBy c.shared i :=
    History.landed_standing
  refine ⟨fun response hi => ?_, fun e hi => ?_, fun hi => create_atomic hok h₀ hr hgated hi⟩
  · exact hasRows_of_registered hok h₀ hr hgated (create_concluded hok h₀ hr hi)
  · rcases create_concluded hok h₀ hr hi with ⟨ls, L, hat, hrefused⟩ | ⟨hregistered, hplain⟩
    · rw [← hcommitted, hat.committed]
      exact ⟨.inl hrefused.unregistered, hrefused.consent, hrefused.taxonomy⟩
    · have hconsent : ¬ e.forConsent := hplain _ (by decide)
      have htaxonomy : ¬ e.forTaxonomy := by
        rintro (h | h)
        · exact hplain _ (by decide) h
        · exact hplain _ (by decide) h
      have hrows := hasRows_of_registered hok h₀ hr hgated hregistered
      obtain ⟨consent, -, new, id, pre, -, hcommit, -⟩ := hrows
      exact ⟨.inr ⟨⟨⟨pre, hcommit⟩, hconsent, htaxonomy⟩,
        hasRows_of_registered hok h₀ hr hgated hregistered⟩, fun h => absurd h hconsent,
        fun h => absurd h htaxonomy⟩

end Gate

/-! ## A consent and its create -/

/-- Ada has consented to the news by mail; the campaign has the id of a text with one letter. -/
def adaConsents : VaultState Nat :=
  ⟨.idle ⟨[⟨"campaigns", 1, []⟩, ⟨"consent_register", 2,
    [("data_subject_ref", .json (.str "ada")), ("channel", .json (.str "mail")),
      ("purpose", .json (.str "news")), ("revoked_at", .null)]⟩],
    [⟨"campaigns", 1, .str "v", .str "f", 1, .str "A", .str "granted", .str "standard_1y"⟩,
      ⟨"consent_register", 2, .str "v", .str "f", 1, .str "A", .str "granted", .str "standard_1y"⟩],
    [], [], [], [], []⟩, [], [], [], 0⟩

theorem adaConsents_wellKept : WellKept adaConsents :=
  ⟨by decide, by decide, by decide, fun _ => rfl⟩

def aboutAda : Payload :=
  [("vertical", .str "v"), ("function_id", .str "f"), ("campaign", .str "c"),
    ("evidence_grade", .str "A"), ("consent_status", .str "granted"),
    ("retention_class", .str "standard_1y"), ("source", .str "web"), ("signal_type", .str "visit"),
    ("data_subject_ref", .str "ada"), ("consent_channel", .str "mail"),
    ("consent_purpose", .str "news")]

theorem aboutAda_gated : Gated signals aboutAda := ⟨by decide, rfl⟩

/-- The consent is found, and the signal gets an id. -/
def adaAnswer : (o : VaultOp) → o.Res
  | .findActiveConsent .. => some 2
  | .insertObject _ => .ok 3
  | o => plainAnswer o

/-- One create, up to its COMMIT, which gets this reply; then it goes on. -/
def adaRun (commit : Reply Failure Unit) (rest : Nat) : List (VaultAct Nat) :=
  .enter 0 (.create signals aboutAda) :: (List.replicate 6 (.step 0 fun o => .ok (adaAnswer o)) ++
    .step 0 (fun
      | .commit => commit
      | o => .ok (adaAnswer o)) ::
    List.replicate rest (.step 0 fun o => .ok (adaAnswer o)))

def adaEnd (commit : Reply Failure Unit) (rest : Nat) : VaultConfig Nat :=
  (adaRun commit rest).foldl (vaultSystem plainRuntime).exec (.idle ⟨adaConsents, [], []⟩)

theorem adaEnd_reach (commit : Reply Failure Unit) (rest : Nat) :
    (vaultSystem plainRuntime).Reach Orderly (.idle ⟨adaConsents, [], []⟩) (adaEnd commit rest) := by
  refine Sys.Reach.init.foldl _ fun m => ?_
  have hmem := List.getElem_mem m.2
  cases h : (adaRun commit rest)[m] with
  | env e =>
    rw [Fin.getElem_fin] at h
    rw [h] at hmem
    simp [adaRun] at hmem
  | _ => exact True.intro

/-- It ends with an answer, and has its four rows. -/
theorem ada_hasRows :
    ∃ response, (adaEnd (.ok ()) 2).result 0 = some (.create signals aboutAda, .ok response) ∧
      HasRows (adaEnd (.ok ()) 2).shared 0 signals aboutAda := by
  have hended : ∃ response,
      (adaEnd (.ok ()) 2).result 0 = some (.create signals aboutAda, .ok response) := ⟨_, rfl⟩
  obtain ⟨response, hresult⟩ := hended
  exact ⟨response, hresult, (consent_gate adaConsents_wellKept aboutAda_gated
    (adaEnd_reach _ _)).1 response hresult⟩

/-- The answer of COMMIT does not arrive: the create fails, and its rows are there. -/
theorem lost_commit_keeps_rows : ¬ ∀ (P : Runtime) (s₀ : VaultState Nat) (c : VaultConfig Nat)
    (i : Nat) (config : ObjectTypeConfig) (payload : Payload) (e : Failure), WellKept s₀ →
      Gated config payload → (vaultSystem P).Reach Orderly (.idle ⟨s₀, [], []⟩) c →
        c.result i = some (.create config payload, .error e) →
          Unregistered config (committedBy c.shared i) := by
  intro h
  have hnone := h plainRuntime adaConsents (adaEnd (.lost () .raised) 1) 0 signals aboutAda .raised
    adaConsents_wellKept aboutAda_gated (adaEnd_reach _ _) rfl
  have htwo : (committedBy (adaEnd (.lost () .raised) 1).shared 0).length = 2 := by decide +kernel
  rcases hnone with hL | ⟨row, hL, -⟩ | ⟨row, hL, -⟩ <;> rw [hL] at htwo <;> cases htwo

end CanvasOS.Vault
