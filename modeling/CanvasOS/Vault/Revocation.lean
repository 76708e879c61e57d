/-
  Consent revocation over whole runs.

  1. `Revoked`, `Unrevoked` — the row of a consent in the tables; only an UPDATE that sets
     `revoked_at` changes from one to the other.
  2. `patch_of_landed`, `linkage_lands` — an UPDATE lands by the COMMIT of a PATCH, a linkage by that of
     a create which has found the consent before.
  3. `revocation_permanent` — as long as no PATCH sets `revoked_at` of a revoked consent to null, and
     no revocation is committed between the check of a create and its COMMIT, a revocation is for good.
-/
import Mathlib.Data.List.Nodup
import CanvasOS.Lib.Own
import CanvasOS.Vault.Consent

namespace CanvasOS.Vault

open Python Interleave Transaction

/-! ## The row of a consent -/

/-- The consent has been revoked. -/
def Revoked (t : Tables) (consent : Uuid) : Prop :=
  ∃ row ∈ t.objects, row.key = ("consent_register", consent) ∧ row.cell "revoked_at" ≠ .null

/-- The consent is there, and not revoked. -/
def Unrevoked (t : Tables) (consent : Uuid) : Prop :=
  ∃ row ∈ t.objects, row.key = ("consent_register", consent) ∧ row.cell "revoked_at" = .null

instance (t : Tables) (consent : Uuid) : Decidable (Revoked t consent) :=
  inferInstanceAs (Decidable (∃ row ∈ t.objects, _ ∧ _))

instance (t : Tables) (consent : Uuid) : Decidable (Unrevoked t consent) :=
  inferInstanceAs (Decidable (∃ row ∈ t.objects, _ ∧ _))

/-- The change sets `revoked_at` of the consent to something. -/
def Change.sets (consent : Uuid) (p : SqlValue → Prop) (c : Change) : Prop :=
  ∃ sets value, c = .updateObject ("consent_register", consent) sets ∧
    ("revoked_at", value) ∈ sets ∧ p value

theorem cell_set (row : ObjectRow) (set : String × SqlValue) (column : String) :
    (row.set set).cell column = row.cell column ∨
      (set.1 = column ∧ (row.set set).cell column = set.2) := by
  unfold ObjectRow.cell ObjectRow.set
  induction row.cells with
  | nil => exact .inl rfl
  | cons kv cells ih =>
    rw [List.map_cons, List.find?_cons, List.find?_cons]
    by_cases hset : kv.1 = set.1
    · rw [if_pos hset]
      by_cases hcolumn : set.1 = column
      · right
        refine ⟨hcolumn, ?_⟩
        simp [hcolumn]
      · have hkv : kv.1 ≠ column := fun h => hcolumn (hset ▸ h)
        simp only [beq_eq_false_iff_ne.2 hcolumn, beq_eq_false_iff_ne.2 hkv]
        exact ih
    · rw [if_neg hset]
      by_cases hcolumn : kv.1 = column
      · left
        simp [hcolumn]
      · simp only [beq_eq_false_iff_ne.2 hcolumn]
        exact ih

/-- A cell is what it was, or what one of the updates says. -/
theorem cell_sets (row : ObjectRow) (sets : List (String × SqlValue)) (column : String) :
    (sets.foldl ObjectRow.set row).cell column = row.cell column ∨
      ∃ value, (column, value) ∈ sets ∧ (sets.foldl ObjectRow.set row).cell column = value := by
  induction sets generalizing row with
  | nil => exact .inl rfl
  | cons set sets ih =>
    rcases ih (row.set set) with h | ⟨value, hmem, h⟩
    · rcases cell_set row set column with h' | ⟨hcolumn, h'⟩
      · exact .inl (h.trans h')
      · refine .inr ⟨set.2, ?_, h.trans h'⟩
        rw [← hcolumn]
        exact List.mem_cons_self
    · exact .inr ⟨value, List.mem_cons_of_mem _ hmem, h⟩

/-- A row of a table after a change: it was there, with the same value of the column or another that
    the change sets, or the change has inserted it. -/
theorem mem_apply {c : Change} {t : Tables} {row : ObjectRow} (h : row ∈ (c.apply t).objects)
    (column : String) : row.key ∈ c.rowKeys ∨ ∃ old ∈ t.objects, old.key = row.key ∧
      (row.cell column = old.cell column ∨ ∃ sets value, c = .updateObject row.key sets ∧
        (column, value) ∈ sets ∧ row.cell column = value) := by
  cases c with
  | insertObject new id =>
    rcases List.mem_cons.1 h with rfl | h
    · exact .inl List.mem_cons_self
    · exact .inr ⟨row, h, rfl, .inl rfl⟩
  | deleteObject key => exact .inr ⟨row, List.mem_of_mem_filter h, rfl, .inl rfl⟩
  | updateObject key sets =>
    obtain ⟨old, hold, rfl⟩ := List.mem_map.1 h
    right
    split
    · next hkey =>
      refine ⟨old, hold, (Tables.set_key old sets).symm, ?_⟩
      rcases cell_sets old sets column with hcell | ⟨value, hmem, hcell⟩
      · exact .inl hcell
      · refine .inr ⟨sets, value, ?_, hmem, hcell⟩
        rw [Tables.set_key, hkey]
    · exact ⟨old, hold, rfl, .inl rfl⟩
  | _ => exact .inr ⟨row, h, rfl, .inl rfl⟩

/-- The same over many changes. -/
theorem mem_foldr {cs : List Change} {t : Tables} {row : ObjectRow}
    (h : row ∈ (cs.foldr Change.apply t).objects) (column : String) :
    row.key ∈ cs.flatMap Change.rowKeys ∨ ∃ old ∈ t.objects, old.key = row.key ∧
      (row.cell column = old.cell column ∨ ∃ c ∈ cs, ∃ sets value,
        c = .updateObject row.key sets ∧ (column, value) ∈ sets ∧ row.cell column = value) := by
  induction cs generalizing row with
  | nil => exact .inr ⟨row, h, rfl, .inl rfl⟩
  | cons c cs ih =>
    rw [List.foldr_cons] at h
    rw [List.flatMap_cons, List.mem_append]
    rcases mem_apply h column with hnew | ⟨mid, hmid, hkey, hcell⟩
    · exact .inl (.inl hnew)
    rcases ih hmid with hnew | ⟨old, hold, hkey', hcell'⟩
    · exact .inl (.inr (hkey ▸ hnew))
    refine .inr ⟨old, hold, hkey'.trans hkey, ?_⟩
    rcases hcell with hcell | ⟨sets, value, hc, hset, hvalue⟩
    · rcases hcell' with hcell' | ⟨c', hc', sets, value, hupdate, hset, hvalue⟩
      · exact .inl (hcell.trans hcell')
      · exact .inr ⟨c', List.mem_cons_of_mem _ hc', sets, value, hkey ▸ hupdate, hset,
          hcell.trans hvalue⟩
    · exact .inr ⟨c, List.mem_cons_self, sets, value, hc, hset, hvalue⟩

section Rows

variable {cs : List Change} {t : Tables} {consent : Uuid}

/-- Whoever is revoked was so, or one of the changes has revoked him. -/
theorem revoked_foldr (h : Revoked (cs.foldr Change.apply t) consent)
    (hnew : ("consent_register", consent) ∉ cs.flatMap Change.rowKeys) :
    Revoked t consent ∨ ∃ c ∈ cs, c.sets consent (· ≠ .null) := by
  obtain ⟨row, hrow, hkey, hcell⟩ := h
  rcases mem_foldr hrow "revoked_at" with hk | ⟨old, hold, hkey', hsame | hset⟩
  · exact absurd (hkey ▸ hk) hnew
  · exact .inl ⟨old, hold, hkey'.trans hkey, hsame ▸ hcell⟩
  · obtain ⟨c, hc, sets, value, hupdate, hmem, hvalue⟩ := hset
    exact .inr ⟨c, hc, sets, value, hkey ▸ hupdate, hmem, hvalue ▸ hcell⟩

/-- Whoever is unrevoked was so, or one of the changes has set `revoked_at` to null. -/
theorem unrevoked_foldr (h : Unrevoked (cs.foldr Change.apply t) consent)
    (hnew : ("consent_register", consent) ∉ cs.flatMap Change.rowKeys) :
    Unrevoked t consent ∨ ∃ c ∈ cs, c.sets consent (· = .null) := by
  obtain ⟨row, hrow, hkey, hcell⟩ := h
  rcases mem_foldr hrow "revoked_at" with hk | ⟨old, hold, hkey', hsame | hset⟩
  · exact absurd (hkey ▸ hk) hnew
  · exact .inl ⟨old, hold, hkey'.trans hkey, hsame ▸ hcell⟩
  · obtain ⟨c, hc, sets, value, hupdate, hmem, hvalue⟩ := hset
    exact .inr ⟨c, hc, sets, value, hkey ▸ hupdate, hmem, hvalue ▸ hcell⟩

/-- One row a consent: it is not both. -/
theorem not_unrevoked (hunique : t.objectKeys.Nodup) (h : Revoked t consent) :
    ¬ Unrevoked t consent := by
  obtain ⟨row, hrow, hkey, hcell⟩ := h
  rintro ⟨row', hrow', hkey', hcell'⟩
  have hsame : row = row' := List.inj_on_of_nodup_map hunique hrow hrow' (hkey.trans hkey'.symm)
  rw [hsame] at hcell
  exact hcell hcell'

end Rows

/-! ## A PATCH of a consent -/

section Patches

variable {P : Runtime}

theorem castForAsyncpg_null {sqlType : SqlType} {json : Json} {value : SqlValue}
    (h : castForAsyncpg P sqlType json = .ok value) : value = .null ↔ json = .null := by
  unfold castForAsyncpg at h
  split at h
  · rename_i hnull
    obtain rfl := Except.ok.inj h
    exact iff_of_true rfl hnull
  · rename_i hnull
    refine iff_of_false ?_ hnull
    split at h <;> (try split at h) <;> cases h <;> nofun

/-- An UPDATE sets a column to null where the payload does, and only there. -/
theorem patchSets_null {config : ObjectTypeConfig} {payload : Payload}
    {sets : List (String × SqlValue)} (h : patchSets P config payload = .ok sets) {name : String}
    {value : SqlValue} (hmem : (name, value) ∈ sets) :
    ∃ json, (name, json) ∈ payload ∧ (value = .null ↔ json = .null) := by
  induction payload generalizing sets with
  | nil =>
    obtain rfl := Except.ok.inj h
    exact absurd hmem List.not_mem_nil
  | cons kv rest ih =>
    obtain ⟨k, v⟩ := kv
    have hrest {sets : List (String × SqlValue)} (h : patchSets P config rest = .ok sets)
        (hmem : (name, value) ∈ sets) :
        ∃ json, (name, json) ∈ (k, v) :: rest ∧ (value = .null ↔ json = .null) := by
      obtain ⟨json, hjson, hnull⟩ := ih h hmem
      exact ⟨json, List.mem_cons_of_mem _ hjson, hnull⟩
    unfold patchSets at h
    split at h
    · rename_i f _
      cases hcast : castForAsyncpg P f.sqlType v with
      | error e =>
        rw [hcast] at h
        cases h
      | ok cast =>
        cases hsets : patchSets P config rest with
        | error e =>
          rw [hcast, hsets] at h
          cases h
        | ok others =>
          rw [hcast, hsets] at h
          obtain rfl := Except.ok.inj h
          rcases List.mem_cons.1 hmem with heq | hmem
          · obtain ⟨rfl, rfl⟩ := Prod.mk.inj heq
            exact ⟨v, List.mem_cons_self, castForAsyncpg_null hcast⟩
          · exact hrest hsets hmem
    · exact hrest h hmem

/-- The request is a PATCH of the consent, with such a `revoked_at`. -/
def Request.patches (consent : Uuid) (p : Json → Prop) (r : Request) : Prop :=
  ∃ config payload json, r = .patch config consent payload ∧ config.name = "consent_register" ∧
    ("revoked_at", json) ∈ payload ∧ p json

end Patches

/-! ## What lands -/

section Landed

variable {ι : Type} [DecidableEq ι] {P : Runtime} {ok : VaultConfig ι → VaultAct ι → Prop}
  {c : VaultConfig ι} {s₀ s t : VaultState ι} {i : ι} {r : Request}
  {p : Option (VaultM Response)} {o : VaultOp} {b : o.Res}

theorem stepOf_commit (h : stepOf o b = .commit) : o = .commit := by
  unfold stepOf at h
  split at h <;> first | rfl | cases h

theorem wrote_update {key : Key} {sets : List (String × SqlValue)}
    (h : .updateObject key sets ∈ (stepOf o b).written) : o = .updateObject key sets := by
  unfold stepOf at h
  split at h <;> simp [Step.written] at h
  obtain ⟨rfl, rfl⟩ := h
  rfl

theorem wrote_linkage {row : LinkageRow} (h : .insertLinkage row ∈ (stepOf o b).written) :
    o = .linkConsent row := by
  unfold stepOf at h
  split at h <;> simp [Step.written] at h
  subst h
  rfl

/-- A move leaves the levels of a connection, or drops them. -/
theorem move_levels {e : Move ι} (h : move e s = some t) (i : ι) :
    t.db.levels i = s.db.levels i ∨ t.db.levels i = [] := by
  cases e with
  | tick n =>
    obtain rfl := Option.some.inj h
    exact .inl rfl
  | drop j =>
    obtain rfl := Option.some.inj h
    by_cases hij : i = j
    · subst hij
      exact .inr Sessions.reset_self
    · exact .inl (Sessions.setLevels_of_ne hij)

theorem move_base {e : Move ι} (h : move e s = some t) : t.db.base = s.db.base := by
  cases e with
  | tick n =>
    obtain rfl := Option.some.inj h
    rfl
  | drop j =>
    obtain rfl := Option.some.inj h
    rfl

/-- The configuration in which request `i` has just executed a statement. -/
abbrev Executed (c : VaultConfig ι) (i : ι) (r : Request) (p : Option (VaultM Response))
    (o : VaultOp) (b : o.Res) (t : VaultState ι) : VaultConfig ι :=
  c.put ⟨t, c.shared.arrived, ⟨i, o, b, c.shared.cur⟩ :: c.shared.log⟩ i r p

/-- What a statement commits, its request can write. -/
theorem makes_of_landed (h₀ : WellKept s₀)
    (hr : (vaultSystem P).Reach ok (.idle ⟨s₀, [], []⟩) (Executed c i r p o b t)) {ch : Change}
    (h : ch ∈ (stepOf o b).landed (c.shared.cur.db.levels i)) :
    ∃ (o' : VaultOp) (b' : o'.Res), Makes P r o' ∧ ch ∈ (stepOf o' b').written := by
  obtain ⟨e, he, hwho, hwrote⟩ := (hr.origin vault_ledgered
    (fun e s t i ht => move_levels ht i) h₀.idle).2 _ List.mem_cons_self ch h
  obtain ⟨r', p', hthread, hmakes⟩ := hr.ops_only handle_makes e he
  rw [hwho] at hthread
  rcases Config.put_thread.1 hthread with ⟨-, rfl, -⟩ | ⟨hne, -⟩
  · exact ⟨e.op, e.ans, hmakes, hwrote⟩
  · exact absurd rfl hne

/-- An UPDATE lands by the COMMIT of a PATCH. -/
theorem patch_of_landed (hok : OrderlyMoves ok) (h₀ : WellKept s₀)
    (hr : (vaultSystem P).Reach ok (.idle ⟨s₀, [], []⟩) (Executed c i r p o b t)) {key : Key}
    {sets : List (String × SqlValue)}
    (h : .updateObject key sets ∈ (stepOf o b).landed (c.shared.cur.db.levels i)) :
    o = .commit ∧ ∃ config payload, r = .patch config key.2 payload ∧ config.name = key.1 ∧
      patchSets P config payload = .ok sets := by
  have htidy := step_tidy hok h₀.idle hr
  refine ⟨?_, ?_⟩
  · rcases Step.mem_landed_cases h with ⟨hcommit, -⟩ | haside | ⟨hlevels, hwritten⟩
    · exact stepOf_commit hcommit
    · obtain ⟨row, hrow⟩ := stepOf_aside haside
      cases hrow
    · exact absurd hlevels (htidy.update key sets (wrote_update hwritten))
  · obtain ⟨o', b', hmakes, hwritten⟩ := makes_of_landed h₀ hr h
    obtain rfl := wrote_update hwritten
    cases r with
    | patch config id payload =>
      obtain ⟨rfl, hsets⟩ := hmakes
      exact ⟨config, payload, rfl, rfl, hsets⟩
    | create | delete => exact absurd hmakes Bool.false_ne_true
    | sweep => exact hmakes.elim

/-- Request `i` has found the consent in force. -/
def HasFound (h : VaultHistory ι) (i : ι) (consent : Uuid) : Prop :=
  ∃ subject channel purpose pre,
    (⟨i, .findActiveConsent subject channel purpose, some consent, pre⟩ :
      Event VaultOp VaultOp.Res (VaultState ι) ι) ∈ h.log

/-- Request `i` has not committed an object. -/
def Uncommitted (h : VaultHistory ι) (i : ι) : Prop :=
  ∀ new id, .insertObject new id ∉ committedBy h i

/-- What a request has committed after one more statement. -/
theorem committed_executed :
    committed ((Executed c i r p o b t).shared.standing VaultState.db i) =
      (stepOf o b).landed (c.shared.cur.db.levels i) ++ committedBy c.shared i := by
  have hown : (Executed c i r p o b t).shared.own i =
      ⟨i, o, b, c.shared.cur⟩ :: c.shared.own i := History.own_self
  have hcommitted : committed ((Executed c i r p o b t).shared.standing VaultState.db i) =
      committedBy (Executed c i r p o b t).shared i := History.landed_standing
  rw [hcommitted, committedBy, History.landedBy, hown]
  rfl

/-- A linkage lands by the COMMIT of a create that has found the consent before. -/
theorem linkage_lands {k : VaultM Response} (hok : OrderlyMoves ok) (h₀ : WellKept s₀)
    (hr : (vaultSystem P).Reach ok (.idle ⟨s₀, [], []⟩)
      (Executed c i r (some k) o b t)) {row : LinkageRow}
    (h : .insertLinkage row ∈ (stepOf o b).landed (c.shared.cur.db.levels i)) :
    HasFound c.shared i row.consent ∧ Uncommitted c.shared i := by
  have htidy := step_tidy hok h₀.idle hr
  have hcommit : o = .commit := by
    rcases Step.mem_landed_cases h with ⟨hcommit, -⟩ | haside | ⟨hlevels, hwritten⟩
    · exact stepOf_commit hcommit
    · obtain ⟨row', hrow⟩ := stepOf_aside haside
      cases hrow
    · -- it is linked in the transaction that has inserted its object
      have hinserted := (htidy.link row (wrote_linkage hwritten)).1
      rw [hlevels] at hinserted
      exact absurd hinserted List.not_mem_nil
  subst hcommit
  obtain ⟨config, payload, rfl⟩ : ∃ config payload, r = .create config payload := by
    obtain ⟨o', b', hmakes, hwritten⟩ := makes_of_landed h₀ hr h
    obtain rfl := wrote_linkage hwritten
    cases r with
    | create config payload => exact ⟨config, payload, rfl⟩
    | patch | delete => exact absurd hmakes Bool.false_ne_true
    | sweep => exact hmakes.elim
  have hstart : ∀ i, (⟨s₀, [], []⟩ : VaultHistory ι).standing VaultState.db i = ⟨[], []⟩ := by
    intro i
    show (⟨s₀.db.levels i, []⟩ : VaultStanding) = _
    rw [h₀.idle i]
  have hatomic : Atomic config payload ((Executed c i _ (some k) .commit b t).shared.standing
      VaultState.db i) :=
    (hr.upholds_part (vault_parted hok) hstart handle_atomic i _ _
      (Config.put_thread.2 (.inl ⟨rfl, rfl, rfl⟩))).inv
  have hmem : .insertLinkage row ∈ committed ((Executed c i (.create config payload) (some k)
      .commit b t).shared.standing VaultState.db i) := by
    rw [committed_executed]
    exact List.mem_append_left _ h
  rcases hatomic.all with hnone | ⟨⟨new, id, consent, -, hpassed, hL⟩, -⟩
  · rcases hnone with hL | ⟨audit, hL, -⟩ | ⟨audit, hL, -⟩ <;> rw [hL] at hmem <;>
      simp at hmem
  · have hrows : (committed ((Executed c i (.create config payload) (some k)
        .commit b t).shared.standing VaultState.db i)).flatMap Change.rowKeys = [(new.table, id)] := by
      rcases hL with hL | ⟨-, hL⟩
      · rw [hL]
        cases consent <;> rfl
      · rw [hL]
        rfl
    have hconsent : consent = some row.consent := by
      rcases hL with hL | ⟨-, hL⟩
      · rw [hL] at hmem
        cases consent with
        | none => simp [written] at hmem
        | some consent =>
          simp only [written, List.mem_cons, Change.insertLinkage.injEq, reduceCtorEq,
            List.not_mem_nil, or_false] at hmem
          rw [hmem]
      · rw [hL] at hmem
        simp at hmem
    constructor
    · -- the check is among the statements before this COMMIT
      obtain ⟨subject, channel, purpose, -, -, -, hd⟩ := hpassed.found _ hconsent
      obtain ⟨⟨who, op, ans, pre⟩, he, rfl, hdeed⟩ := History.mem_deeds.1 hd
      obtain ⟨rfl, hans, -⟩ := Deed.mk.inj hdeed
      obtain rfl := eq_of_heq hans
      rcases List.mem_cons.1 he with heq | he
      · cases heq
      · exact ⟨subject, channel, purpose, pre, he⟩
    · -- one object is committed, and it is by this COMMIT
      intro new' id' hold
      rw [committed_executed, List.flatMap_append] at hrows
      have hkey : row.key ∈ ((stepOf .commit b).landed (c.shared.cur.db.levels i)).flatMap
          Change.rowKeys :=
        htidy.linked row.key (List.mem_flatMap.2 ⟨_, h, List.mem_singleton.2 rfl⟩)
      have holdkey : (new'.table, id') ∈ (committedBy c.shared i).flatMap Change.rowKeys :=
        List.mem_flatMap.2 ⟨_, hold, List.mem_singleton.2 rfl⟩
      have hlength := congrArg List.length hrows
      have hone := List.length_pos_of_mem hkey
      have htwo := List.length_pos_of_mem holdkey
      rw [List.length_append, List.length_singleton] at hlength
      omega

/-- A check that finds a consent finds one that is not revoked. -/
theorem unrevoked_of_found (hok : OrderlyMoves ok) (h₀ : WellKept s₀)
    {subject channel purpose : String} {consent : Uuid} {a : Option Uuid}
    (hr : (vaultSystem P).Reach ok (.idle ⟨s₀, [], []⟩)
      (Executed c i r p (.findActiveConsent subject channel purpose) (some consent) t))
    (hx : exec i (.findActiveConsent subject channel purpose) a c.shared.cur =
      some (some consent, t)) :
    t = c.shared.cur ∧ Unrevoked c.shared.cur.db.base consent := by
  have htidy := step_tidy hok h₀.idle hr
  have hlevels : c.shared.cur.db.levels i = [[]] := htidy.check _ _ _ rfl
  -- nothing was written yet, so the connection saw the tables
  have hview : c.shared.cur.view i = c.shared.cur.db.base := by
    unfold VaultState.view Sessions.view Sessions.pending
    rw [hlevels]
    rfl
  simp only [exec] at hx
  split at hx
  · rename_i hfinds
    obtain ⟨rfl, rfl⟩ := Prod.mk.inj (Option.some.inj hx)
    rw [hview] at hfinds
    obtain ⟨row, hrow, hboth⟩ := List.any_eq_true.1 hfinds
    obtain ⟨hid, hconsents⟩ := Bool.and_eq_true_iff.1 hboth
    obtain ⟨hfields, hrevoked⟩ := Bool.and_eq_true_iff.1 hconsents
    obtain ⟨hfields, -⟩ := Bool.and_eq_true_iff.1 hfields
    obtain ⟨hfields, -⟩ := Bool.and_eq_true_iff.1 hfields
    obtain ⟨htable, -⟩ := Bool.and_eq_true_iff.1 hfields
    refine ⟨rfl, row, hrow, Prod.ext (beq_iff_eq.1 htable) (beq_iff_eq.1 hid), ?_⟩
    exact beq_iff_eq.1 hrevoked
  · cases hx

end Landed

/-! ## Whole runs -/

section Runs

variable {ι : Type} [DecidableEq ι] {P : Runtime} {c : VaultConfig ι} {s₀ : VaultState ι}

/-- Once revoked, a consent is never unrevoked, and nothing is created under it any more. -/
structure RevocationPermanent (h : VaultHistory ι) : Prop where
  stays : ∀ e ∈ h.log, ∀ consent, Revoked e.pre.db.base consent →
    ¬ Unrevoked h.cur.db.base consent
  unlinked : ∀ later e earlier, h.log = later ++ e :: earlier →
    ∀ row, .insertLinkage row ∈ e.landed VaultState.db stepOf →
      ∀ e' ∈ e :: earlier, ¬ Revoked e'.pre.db.base row.consent

/-- The create has found the consent in force, and its object is not committed yet. -/
def Underway (c : VaultConfig ι) (i : ι) (consent : Uuid) : Prop :=
  c.Running i ∧ HasFound c.shared i consent ∧ Uncommitted c.shared i

/-- No PATCH with `revoked_at: null` is committed once the consent is revoked, and no revocation while
    a create that has found the consent in force is under way. -/
def Heeds (c : VaultConfig ι) : VaultAct ι → Prop
  | .step i _ => c.next i = some .commit → ∀ r p consent, c.thread i = some (r, p) →
      (r.patches consent (· = .null) → ¬ Revoked c.shared.cur.db.base consent) ∧
      (r.patches consent (· ≠ .null) → ∀ j, ¬ Underway c j consent)
  | a => Orderly c a

/-- What is known of every state. -/
structure Lasting (c : VaultConfig ι) : Prop where
  past : ∀ e ∈ c.shared.log, ∀ consent, Revoked e.pre.db.base consent →
    ¬ Unrevoked c.shared.cur.db.base consent ∧
      ("consent_register", consent) ∈ c.shared.cur.db.base.taxonomyKeys
  underway : ∀ i consent, Underway c i consent →
    ("consent_register", consent) ∈ c.shared.cur.db.base.taxonomyKeys ∧
      ¬ Revoked c.shared.cur.db.base consent ∧
      ∀ e ∈ c.shared.log, ¬ Revoked e.pre.db.base consent
  unlinked : ∀ later e earlier, c.shared.log = later ++ e :: earlier →
    ∀ row, .insertLinkage row ∈ e.landed VaultState.db stepOf →
      ∀ e' ∈ e :: earlier, ¬ Revoked e'.pre.db.base row.consent

theorem heeds_orderly : OrderlyMoves (Heeds (ι := ι)) := fun _ _ h => h

omit [DecidableEq ι] in
theorem taxonomy_of_row {s : VaultState ι} {live : ι → Prop} (h : Keyed live s) {row : ObjectRow}
    {key : Key} (hrow : row ∈ s.db.base.objects) (hkey : row.key = key) :
    key ∈ s.db.base.taxonomyKeys :=
  h.kept key (List.mem_map.2 ⟨row, hrow, hkey⟩)

theorem mem_committedBy {h : VaultHistory ι} {i : ι} {ch : Change} :
    ch ∈ committedBy h i ↔ ∃ e ∈ h.log, e.who = i ∧ ch ∈ e.landed VaultState.db stepOf := by
  unfold committedBy History.landedBy
  simp only [List.mem_flatMap, History.mem_own, and_assoc]

section Step

variable {i j : ι} {r : Request} {o : VaultOp} {a b : o.Res} {t : VaultState ι}
  {p : VaultM Response} {k : Except Failure o.Res → VaultM Response} {consent : Uuid}
  {f : (o : VaultOp) → Reply Failure o.Res}

omit [DecidableEq ι] in
theorem live_of_running (hi : c.Running i) : Live c i := by
  obtain ⟨r, o, k, hi⟩ := hi
  intro r' hr'
  rw [hi] at hr'
  cases hr'

/-- A request that is under way has been so since its check. -/
theorem underway_put {h : VaultHistory ι} {q : Option (VaultM Response)} (hi : c.Running i)
    (hlog : ∀ e ∈ c.shared.log, e ∈ h.log) (hfound : HasFound c.shared j consent)
    (hu : Underway (c.put h i r q) j consent) : Underway c j consent := by
  obtain ⟨⟨r', o', k', hj⟩, -, huncommitted⟩ := hu
  refine ⟨?_, hfound, fun new id hmem => ?_⟩
  · rcases Config.put_thread.1 hj with ⟨rfl, -⟩ | ⟨-, hj⟩
    · exact hi
    · exact ⟨r', o', k', hj⟩
  · obtain ⟨e, he, hwho, hlanded⟩ := mem_committedBy.1 hmem
    exact huncommitted new id (mem_committedBy.2 ⟨e, hlog e he, hwho, hlanded⟩)

/-- A committed UPDATE of `revoked_at` is one that the condition speaks about. -/
theorem heeds_landed (h₀ : WellKept s₀)
    (hr : (vaultSystem P).Reach Heeds (.idle ⟨s₀, [], []⟩) (Executed c i r (some p) o b t))
    (hi : c.thread i = some (r, some (.op o k))) (ha : Heeds c (.step i f)) {ch : Change}
    {q : SqlValue → Prop} (hch : ch ∈ (stepOf o b).landed (c.shared.cur.db.levels i))
    (hsets : ch.sets consent q) :
    ((∀ v, q v → v = .null) → ¬ Revoked c.shared.cur.db.base consent) ∧
      ((∀ v, q v → v ≠ .null) → ∀ j, ¬ Underway c j consent) := by
  obtain ⟨sets, value, rfl, hmem, hvalue⟩ := hsets
  obtain ⟨rfl, config, payload, rfl, hname, hpatch⟩ := patch_of_landed heeds_orderly h₀ hr hch
  obtain ⟨json, hjson, hnull⟩ := patchSets_null hpatch hmem
  have hnext : c.next i = some .commit := by
    unfold Config.next
    rw [hi]
  obtain ⟨hnulls, hrevokes⟩ := ha hnext _ _ consent hi
  refine ⟨fun hq => hnulls ?_, fun hq => hrevokes ?_⟩
  · exact ⟨config, payload, json, rfl, hname, hjson, hnull.1 (hq value hvalue)⟩
  · exact ⟨config, payload, json, rfl, hname, hjson, fun h => hq value hvalue (hnull.2 h)⟩

/-- One statement. -/
theorem Lasting.step (hc : Lasting c) (h₀ : WellKept s₀)
    (hr : (vaultSystem P).Reach Heeds (.idle ⟨s₀, [], []⟩) c)
    (hr' : (vaultSystem P).Reach Heeds (.idle ⟨s₀, [], []⟩) (Executed c i r (some p) o b t))
    (hi : c.thread i = some (r, some (.op o k))) (ha : Heeds c (.step i f))
    (hx : exec i o a c.shared.cur = some (b, t)) : Lasting (Executed c i r (some p) o b t) := by
  have hkeyed := keyed_run heeds_orderly h₀ hr
  have hrunning : c.Running i := ⟨r, o, k, hi⟩
  have hbase : t.db.base =
      ((stepOf o b).landed (c.shared.cur.db.levels i)).foldr Change.apply c.shared.cur.db.base := by
    rw [exec_db hx, Step.run_base]
  -- a consent that is there, or has been, is not inserted again
  have hnew {consent : Uuid}
      (hkey : ("consent_register", consent) ∈ c.shared.cur.db.base.taxonomyKeys) :
      ("consent_register", consent) ∉
        ((stepOf o b).landed (c.shared.cur.db.levels i)).flatMap Change.rowKeys :=
    fun hmem => (hkeyed.landed_new (live_of_running hrunning) hx hmem).1 hkey
  have hkept {consent : Uuid}
      (hkey : ("consent_register", consent) ∈ c.shared.cur.db.base.taxonomyKeys) :
      ("consent_register", consent) ∈ t.db.base.taxonomyKeys := by
    rw [hbase, Tables.foldr_taxonomyKeys]
    exact List.mem_append_right _ hkey
  constructor
  case past =>
    intro e he consent hrevoked
    have hbefore : ¬ Unrevoked c.shared.cur.db.base consent ∧
        ("consent_register", consent) ∈ c.shared.cur.db.base.taxonomyKeys := by
      rcases List.mem_cons.1 he with rfl | he
      · obtain ⟨row, hrow, hkey, -⟩ := id hrevoked
        exact ⟨not_unrevoked hkeyed.unique hrevoked, taxonomy_of_row hkeyed hrow hkey⟩
      · exact hc.past e he consent hrevoked
    obtain ⟨hnot, hkey⟩ := hbefore
    refine ⟨fun hun => ?_, hkept hkey⟩
    replace hun : Unrevoked t.db.base consent := hun
    rw [hbase] at hun
    rcases unrevoked_foldr hun (hnew hkey) with hun' | ⟨ch, hch, hsets⟩
    · exact hnot hun'
    · -- the row was there, and revoked
      have hwas : Revoked c.shared.cur.db.base consent := by
        obtain ⟨row, hrow, hrowkey, -⟩ := hun
        rcases mem_foldr hrow "revoked_at" with hmem | ⟨old, hold, hkey', -⟩
        · exact absurd (hrowkey ▸ hmem) (hnew hkey)
        · by_cases hnull : old.cell "revoked_at" = .null
          · exact absurd ⟨old, hold, hkey'.trans hrowkey, hnull⟩ hnot
          · exact ⟨old, hold, hkey'.trans hrowkey, hnull⟩
      exact (heeds_landed h₀ hr' hi ha hch hsets).1 (fun v hv => hv) hwas
  case underway =>
    intro j consent hu
    obtain ⟨subject, channel, purpose, pre, hmem⟩ := hu.2.1
    have hlog : ∀ e ∈ c.shared.log, e ∈ (Executed c i r (some p) o b t).shared.log :=
      fun e he => List.mem_cons_of_mem _ he
    rcases List.mem_cons.1 hmem with heq | hmem
    · -- the check itself
      cases heq
      obtain ⟨rfl, hun⟩ := unrevoked_of_found heeds_orderly h₀ hr' hx
      obtain ⟨row, hrow, hkey, -⟩ := id hun
      have hnot : ¬ Revoked c.shared.cur.db.base consent :=
        fun h => not_unrevoked hkeyed.unique h hun
      refine ⟨taxonomy_of_row hkeyed hrow hkey, hnot, fun e he hrevoked => ?_⟩
      rcases List.mem_cons.1 he with rfl | he
      · exact hnot hrevoked
      · exact (hc.past e he consent hrevoked).1 hun
    · have hbefore := underway_put hrunning hlog ⟨subject, channel, purpose, pre, hmem⟩ hu
      obtain ⟨hkey, hnot, hpast⟩ := hc.underway j consent hbefore
      refine ⟨hkept hkey, fun hrevoked => ?_, fun e he => ?_⟩
      · replace hrevoked : Revoked t.db.base consent := hrevoked
        rw [hbase] at hrevoked
        rcases revoked_foldr hrevoked (hnew hkey) with hwas | ⟨ch, hch, hsets⟩
        · exact hnot hwas
        · exact (heeds_landed h₀ hr' hi ha hch hsets).2 (fun v hv => hv) j hbefore
      · rcases List.mem_cons.1 he with rfl | he
        · exact hnot
        · exact hpast e he
  case unlinked =>
    intro later e earlier hlog row hland
    cases later with
    | nil =>
      obtain ⟨rfl, rfl⟩ := List.cons.inj hlog
      obtain ⟨hfound, huncommitted⟩ := linkage_lands heeds_orderly h₀ hr' hland
      obtain ⟨-, hnot, hpast⟩ := hc.underway i row.consent ⟨hrunning, hfound, huncommitted⟩
      intro e' he'
      rcases List.mem_cons.1 he' with rfl | he'
      · exact hnot
      · exact hpast e' he'
    | cons e₀ later =>
      obtain ⟨-, hlog⟩ := List.cons.inj hlog
      exact hc.unlinked later e earlier hlog row hland

end Step

/-- As long as no PATCH takes a revocation back, and none revokes what a create under way has found,
    a revocation is for good. -/
theorem revocation_permanent (h₀ : WellKept s₀)
    (hr : (vaultSystem P).Reach Heeds (.idle ⟨s₀, [], []⟩) c) : RevocationPermanent c.shared := by
  have hinit : Lasting (.idle ⟨s₀, [], []⟩ : VaultConfig ι) := by
    refine ⟨fun e he => absurd he List.not_mem_nil, ?_, ?_⟩
    · rintro i consent ⟨⟨r, o, k, hi⟩, -⟩
      cases hi
    · intro later e earlier hlog
      cases later <;> cases hlog
  suffices hL : Lasting c from ⟨fun e he consent h => (hL.past e he consent h).1, hL.unlinked⟩
  refine hr.invariant hinit fun c a hr hc ha => Sys.exec_cases a hc ?_ ?_ ?_ ?_
  · rintro i r h' - hi hs
    obtain ⟨-, rfl⟩ := recorded_enter hs
    refine ⟨hc.past, fun j consent hu => ?_, hc.unlinked⟩
    obtain ⟨⟨r', o', k', hj⟩, hfound, huncommitted⟩ := hu
    rcases Config.put_thread.1 hj with ⟨rfl, -⟩ | ⟨-, hj⟩
    · -- who has just come has executed nothing
      obtain ⟨subject, channel, purpose, pre, hmem⟩ := hfound
      obtain ⟨r, p, hthread, -⟩ := hr.ops_only handle_makes _ hmem
      rw [hi] at hthread
      cases hthread
    · exact hc.underway j consent ⟨⟨r', o', k', hj⟩, hfound, huncommitted⟩
  · rintro i f r o k out h' rfl hi hs
    have hexec := Sys.exec_step hi hs
    have hreach := Sys.Reach.act _ hr ha
    rw [hexec] at hreach
    rcases recorded_apply hs with ⟨-, rfl⟩ | ⟨a, b, t, -, hx, rfl⟩
    · exact ⟨hc.past, fun j consent hu => hc.underway j consent
        (underway_put ⟨r, o, k, hi⟩ (fun _ h => h) hu.2.1 hu), hc.unlinked⟩
    · exact hc.step h₀ hr hreach hi ha hx
  · rintro i r p - hi
    refine ⟨hc.past, fun j consent hu => ?_, hc.unlinked⟩
    obtain ⟨⟨r', o', k', hj⟩, hfound, huncommitted⟩ := hu
    rcases Config.put_thread.1 hj with ⟨-, -, hp⟩ | ⟨-, hj⟩
    · cases hp
    · exact hc.underway j consent ⟨⟨r', o', k', hj⟩, hfound, huncommitted⟩
  · rintro e h' rfl hs
    obtain ⟨t, ht, rfl⟩ := recorded_env hs
    have hbase := move_base ht
    refine ⟨fun e he consent h => ?_, fun j consent hu => ?_, hc.unlinked⟩
    · show ¬ Unrevoked t.db.base consent ∧ _ ∈ t.db.base.taxonomyKeys
      rw [hbase]
      exact hc.past e he consent h
    · show _ ∈ t.db.base.taxonomyKeys ∧ ¬ Revoked t.db.base consent ∧ _
      rw [hbase]
      exact hc.underway j consent hu

end Runs

/-! ## A revocation taken back -/

/-- Every text is a time. -/
def timelyRuntime : Runtime := { plainRuntime with fromisoformat := fun _ => some 1 }

/-- A PATCH of Ada's consent, all of whose statements are answered. -/
def patchRun (i : Nat) (revokedAt : Json) : List (VaultAct Nat) :=
  .enter i (.patch consentRegister 2 [("revoked_at", revokedAt)]) ::
    List.replicate 6 (.step i fun o => .ok (plainAnswer o))

def patchEnd (acts : List (VaultAct Nat)) : VaultConfig Nat :=
  acts.foldl (vaultSystem timelyRuntime).exec (.idle ⟨adaConsents, [], []⟩)

/-- The event checks no consent. -/
def checksNone (e : Event VaultOp VaultOp.Res (VaultState Nat) Nat) : Bool :=
  match e.op with
  | .findActiveConsent .. => false
  | _ => true

/-- The request revokes something. -/
def revokesOnly (x : Nat × Request) : Bool :=
  match x.2 with
  | .patch _ _ [(_, .str _)] => true
  | _ => false

/-- Revoked, the consent stays so. -/
theorem ada_stays_revoked : RevocationPermanent (patchEnd (patchRun 0 (.str "2026"))).shared := by
  have hlog : ∀ n : Fin 7,
      (patchEnd ((patchRun 0 (.str "2026")).take n)).shared.log.all checksNone = true := by
    decide +kernel
  have harrived : ∀ n : Fin 7,
      (patchEnd ((patchRun 0 (.str "2026")).take n)).shared.arrived.all revokesOnly = true := by
    decide +kernel
  refine revocation_permanent adaConsents_wellKept (Sys.Reach.init.foldl _ fun n => ?_)
  have hmem := List.getElem_mem n.2
  cases hact : (patchRun 0 (.str "2026"))[n] with
  | step i f =>
    rintro - r p consent hi
    have hreach : (vaultSystem timelyRuntime).Reach Sys.free (.idle ⟨adaConsents, [], []⟩)
        (patchEnd ((patchRun 0 (.str "2026")).take n)) := Sys.Reach.init.foldl_free _
    have hrevokes := List.all_eq_true.1 (harrived n) _ ((hreach.thread_iff_arrived i r).2 ⟨p, hi⟩)
    refine ⟨?_, ?_⟩
    · rintro ⟨config, payload, json, rfl, -, hjson, rfl⟩
      unfold revokesOnly at hrevokes
      split at hrevokes
      · rename_i hpatch
        cases hpatch
        simp at hjson
      · cases hrevokes
    · rintro - j ⟨-, ⟨subject, channel, purpose, pre, hfound⟩, -⟩
      exact absurd (List.all_eq_true.1 (hlog n) _ hfound) Bool.false_ne_true
  | env e =>
    rw [Fin.getElem_fin] at hact
    rw [hact] at hmem
    simp [patchRun] at hmem
  | _ => exact True.intro

/-- A second PATCH sets `revoked_at` to null again. -/
theorem revocation_taken_back : ¬ ∀ (P : Runtime) (s₀ : VaultState Nat) (c : VaultConfig Nat),
    WellKept s₀ → (vaultSystem P).Reach Orderly (.idle ⟨s₀, [], []⟩) c →
      RevocationPermanent c.shared := by
  intro h
  have hreach : (vaultSystem timelyRuntime).Reach Orderly (.idle ⟨adaConsents, [], []⟩)
      (patchEnd (patchRun 0 (.str "2026") ++ patchRun 1 .null)) := by
    refine Sys.Reach.init.foldl _ fun m => ?_
    have hmem := List.getElem_mem m.2
    cases h : (patchRun 0 (.str "2026") ++ patchRun 1 .null)[m] with
    | env e =>
      rw [Fin.getElem_fin] at h
      rw [h] at hmem
      simp [patchRun] at hmem
    | _ => exact True.intro
  have hstays := (h timelyRuntime adaConsents _ adaConsents_wellKept hreach).stays
  have hboth : (∃ e ∈ (patchEnd (patchRun 0 (.str "2026") ++ patchRun 1 .null)).shared.log,
      Revoked e.pre.db.base 2) ∧
        Unrevoked (patchEnd (patchRun 0 (.str "2026") ++ patchRun 1 .null)).shared.cur.db.base 2 := by
    decide +kernel
  obtain ⟨⟨e, he, hrevoked⟩, hun⟩ := hboth
  exact hstays e he 2 hrevoked hun

end CanvasOS.Vault
