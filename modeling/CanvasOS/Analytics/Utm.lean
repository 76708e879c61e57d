/-
  The reconciliation of campaigns in the nightly pipeline (`analytics_ingest/utm.py`, and the first
  two stages of `run_nightly_pipeline`).

  1. `reconcileUtm` — a campaign is looked up, or its row goes to the quarantine, where the first
     reason of a row stands.
  2. `nightlyPipeline` — all payloads are ingested, then every row of them that has an id is
     reconciled: whether or not it was new, and whether or not it has a campaign.
  3. `covers_iff` — the reconciliation is of the newly ingested rows with a campaign exactly where
     the payloads have no other rows, and no other reason is in their way.
-/
import CanvasOS.Lib.Upsert
import CanvasOS.Analytics.Ingest
import Mathlib.Algebra.Ring.Nat

namespace CanvasOS.Analytics

open Python Upsert

/-! ## The quarantine -/

/-- A row of `utm_quarantine`. -/
structure Quarantined where
  source : Source
  day : Int
  naturalRowId : String
  utmCampaignRaw : Option String
  reason : String
deriving DecidableEq

/-- `UNIQUE (source, day, natural_row_id)` -/
def Quarantined.key (q : Quarantined) : Source × Int × String := (q.source, q.day, q.naturalRowId)

/-- A row of `utm_campaign_map`. -/
structure MapRow where
  utmCampaignSlug : String
  vaultCampaignId : Option String
  assetId : Option String
deriving DecidableEq

/-- The campaign and the asset in the Vault. -/
abbrev Match := Option String × Option String

/-- `_quarantine`, after which `reconcile_utm` returns None.  Both go into text columns. -/
def quarantine (source : Source) (day : Int) (naturalRowId utmCampaignRaw : Json) (reason : String)
    (Q : Keyed Quarantined.key) : Keyed Quarantined.key × Except IngestFailure (Option Match) :=
  match naturalRowId, utmCampaignRaw with
  | .str id, .str raw => (Q.insertNew ⟨source, day, id, some raw, reason⟩, .ok none)
  | .str id, .null => (Q.insertNew ⟨source, day, id, none, reason⟩, .ok none)
  | _, _ => (Q, .error .dataError)

/-- `[a-z0-9-]` -/
def slugChar (c : Char) : Bool := ('a' ≤ c ∧ c ≤ 'z') ∨ ('0' ≤ c ∧ c ≤ '9') ∨ c = '-'

/-- `_SLUG_RE.match`: `$` also matches before a newline at the very end. -/
def isSlug (s : String) : Bool :=
  let cs := if s.toList.getLast? = some '\n' then s.toList.dropLast else s.toList
  !cs.isEmpty && cs.all slugChar

def invalidFormat (raw : String) : String :=
  "invalid_utm_campaign_format: '" ++ raw ++ "' contains disallowed characters"

def unmatched (raw : String) : String :=
  "unmatched_utm_campaign: no utm_campaign_map entry for slug '" ++ raw ++ "'"

/-- `reconcile_utm` -/
def reconcileUtm (M : List MapRow) (source : Source) (day : Int)
    (naturalRowId utmCampaignRaw : Json) (Q : Keyed Quarantined.key) :
    Keyed Quarantined.key × Except IngestFailure (Option Match) :=
  if !utmCampaignRaw.truthy then
    quarantine source day naturalRowId utmCampaignRaw "missing_utm_campaign" Q
  else match utmCampaignRaw with
    | .str raw =>
      if !isSlug raw then
        quarantine source day naturalRowId utmCampaignRaw (invalidFormat raw) Q
      else match M.find? fun m => m.utmCampaignSlug = raw with
        | none => quarantine source day naturalRowId utmCampaignRaw (unmatched raw) Q
        | some m => (Q, .ok (some (m.vaultCampaignId, m.assetId)))
    | _ => (Q, .error .typeError)

/-! ## The pipeline -/

/-- `_NATURAL_ROW_ID_FIELD` -/
def Source.naturalRowIdField : Source → Option String
  | .buffer | .linkedin => some "post_id"
  | .ga4 => some "landing_page"
  | .searchConsole => none

/-- `SOURCES` -/
def sources : List Source := [.buffer, .ga4, .searchConsole, .linkedin]

/-- The two counts of `_reconcile_all`. -/
structure Counts where
  reconciled : Nat
  quarantined : Nat
deriving DecidableEq

/-- The loop over the rows of one source. -/
def reconcileRows (M : List MapRow) (source : Source) (day : Int) (field : String) :
    List Row → Keyed Quarantined.key → Counts →
      Keyed Quarantined.key × Except IngestFailure Counts
  | [], Q, n => (Q, .ok n)
  | row :: rest, Q, n =>
    if Json.get row field = .null then reconcileRows M source day field rest Q n
    else match reconcileUtm M source day (Json.get row field) (Json.get row "utm_campaign") Q with
      | (Q', .ok outcome) => reconcileRows M source day field rest Q'
          ⟨n.reconciled + 1, n.quarantined + if outcome = none then 1 else 0⟩
      | (Q', .error e) => (Q', .error e)

/-- `_reconcile_all`, the loop over the sources. -/
def reconcileAll (M : List MapRow) (day : Int) (payloads : Source → List Row) :
    List Source → Keyed Quarantined.key → Counts →
      Keyed Quarantined.key × Except IngestFailure Counts
  | [], Q, n => (Q, .ok n)
  | source :: rest, Q, n =>
    match source.naturalRowIdField with
    | none => reconcileAll M day payloads rest Q n
    | some field =>
      match reconcileRows M source day field (payloads source) Q n with
      | (Q', .ok n') => reconcileAll M day payloads rest Q' n'
      | (Q', .error e) => (Q', .error e)

/-- The tables of the two stages. -/
structure Warehouse where
  facts : Source → Table
  quarantine : Keyed Quarantined.key
  campaignMap : List MapRow

/-- Stage 1: all sources are ingested. -/
def ingestAll (R : Runtime) (day : Int) (payloads : Source → List Row) :
    List Source → (Source → Table) →
      (Source → Table) × Except IngestFailure (List (Source × Ingested))
  | [], T => (T, .ok [])
  | source :: rest, T =>
    let (table, out) := ingestDay R source day (payloads source) (T source)
    let T := Function.update T source table
    match out with
    | .error e => (T, .error e)
    | .ok n =>
      let (T', out) := ingestAll R day payloads rest T
      (T', out.map fun ns => (source, n) :: ns)

/-- The first two stages of `run_nightly_pipeline`.  The others leave these tables alone. -/
def nightlyPipeline (R : Runtime) (day : Int) (payloads : Source → List Row) (W : Warehouse) :
    Warehouse × Except IngestFailure (List (Source × Ingested) × Counts) :=
  match ingestAll R day payloads sources W.facts with
  | (T, .error e) => ({ W with facts := T }, .error e)
  | (T, .ok ingested) =>
    let (Q, out) := reconcileAll W.campaignMap day payloads sources W.quarantine ⟨0, 0⟩
    ({ W with facts := T, quarantine := Q }, out.map fun counts => (ingested, counts))

/-! ## What is promised -/

/-- A row carries a campaign. -/
def carries (row : Row) : Bool := (Json.get row "utm_campaign").truthy

/-- Why a row with this campaign is to be quarantined; none where the campaign is mapped. -/
def reasonOf (M : List MapRow) : Json → Option String
  | .str raw =>
    if !isSlug raw then some (invalidFormat raw)
    else if M.any fun m => m.utmCampaignSlug = raw then none
    else some (unmatched raw)
  | _ => none

/-- The rows of a payload that are run through `reconcile_utm`. -/
def Source.reconciledRows (source : Source) (payload : List Row) : List Row :=
  match source.naturalRowIdField with
  | none => []
  | some field => payload.filter fun row => Json.get row field ≠ .null

/-- The newly ingested rows with a campaign. -/
def attributable (before after : Table) : List Stored :=
  after.rows.filter fun x => x ∉ before.rows ∧ carries x.columns

/-- The reconciliation of a run covers exactly the attributable rows. -/
structure Covers (R : Runtime) (day : Int) (payloads : Source → List Row) (W W' : Warehouse)
    (counts : Counts) : Prop where
  /-- the newly ingested rows with a campaign are reconciled, each of them once, and nothing else -/
  exactly : ∀ (source : Source) (field : String), source.naturalRowIdField = some field →
    ((source.reconciledRows (payloads source)).map (source.stored R day)).Perm
      ((attributable (W.facts source) (W'.facts source)).map .ok)
  /-- each of them is mapped, or in the quarantine for a reason of its own -/
  covered : ∀ (source : Source) (field : String), source.naturalRowIdField = some field →
    ∀ x ∈ attributable (W.facts source) (W'.facts source), ∀ reason,
      reasonOf W.campaignMap (Json.get x.columns "utm_campaign") = some reason →
        ∃ q ∈ W'.quarantine.rows, q.key = (source, day, x.naturalRowId) ∧ q.reason = reason
  /-- no row without a campaign is put into the quarantine -/
  spared : ∀ source, ∀ x ∈ (W'.facts source).rows, x.day = day → carries x.columns = false →
    ∀ q ∈ W'.quarantine.rows, q.key = (source, day, x.naturalRowId) → q ∈ W.quarantine.rows
  /-- no row that was ingested before is reconciled again -/
  notAgain : ∀ source : Source, ∀ row ∈ source.reconciledRows (payloads source),
    ∀ x ∈ (W.facts source).rows, x.day = day → source.naturalRowId row ≠ .ok (.str x.naturalRowId)
  counted : counts.reconciled =
    (sources.map fun source => if source.naturalRowIdField.isSome then
      (attributable (W.facts source) (W'.facts source)).length else 0).sum
  atMost : counts.quarantined ≤ counts.reconciled

/-- Nothing is stored under the id of the row, and no row of the payload before it has the id. -/
def IsNew (source : Source) (day : Int) (t : Table) (before : List Row) (row : Row) : Prop :=
  (∀ x ∈ t.rows, x.day = day → source.naturalRowId row ≠ .ok (.str x.naturalRowId)) ∧
    ∀ r ∈ before, source.naturalRowId r ≠ source.naturalRowId row

/-- The rows of the payloads that have an id are those that are new and carry a campaign. -/
def OnlyNew (day : Int) (payloads : Source → List Row) (W : Warehouse) : Prop :=
  ∀ (source : Source) (field : String), source.naturalRowIdField = some field →
    ∀ before row after, payloads source = before ++ row :: after →
      (Json.get row field ≠ .null ↔
        IsNew source day (W.facts source) before row ∧ carries row = true)

/-- The rows with an id are the new ones with a campaign; and for those that are not mapped the
    quarantine has nothing yet, or the same reason. -/
structure AllAttributable (day : Int) (payloads : Source → List Row) (W : Warehouse) : Prop where
  onlyNew : OnlyNew day payloads W
  undisputed : ∀ (source : Source) (field : String), source.naturalRowIdField = some field →
    ∀ row ∈ payloads source, ∀ q ∈ W.quarantine.rows, q.source = source → q.day = day →
      Json.get row field = .str q.naturalRowId →
        ∀ reason, reasonOf W.campaignMap (Json.get row "utm_campaign") = some reason →
          q.reason = reason

/-! ## What a row is stored as -/

section Stored

variable {R : Runtime} {source : Source} {day : Int} {row row' : Row} {x y : Stored} {t t' : Table}
  {payload : List Row} {field : String}

theorem columns_of_stored (h : source.stored R day row = .ok x) :
    source.columns R row = .ok x.columns := by
  unfold Source.stored at h
  cases hid : source.naturalRowId row with
  | error e => rw [hid] at h; cases h
  | ok id =>
    cases hcolumns : source.columns R row with
    | error e => rw [hid, hcolumns] at h; cases h
    | ok columns =>
      rw [hid, hcolumns] at h
      dsimp only [bind, Except.bind] at h
      split at h
      · split at h
        · obtain rfl := Except.ok.inj h
          rfl
        · cases h
      · cases h
      · cases h

theorem postColumns_get (h : postColumns R row = .ok columns) :
    Json.get columns "post_id" = Json.get row "post_id" ∧
      Json.get columns "utm_campaign" = Json.get row "utm_campaign" := by
  unfold postColumns at h
  cases hpost : postId row with
  | error e => rw [hpost] at h; cases h
  | ok post =>
    cases hrate : engagementRate R row with
    | error e => rw [hpost, hrate] at h; cases h
    | ok rate =>
      rw [hpost, hrate] at h
      obtain rfl := Except.ok.inj h
      refine ⟨?_, rfl⟩
      show post = _
      unfold postId at hpost
      unfold Json.get
      split at hpost
      · next value hvalue =>
        rw [hvalue]
        exact (Except.ok.inj hpost).symm
      · cases hpost

/-- The id field and the campaign are stored as they are. -/
theorem fields_of_stored (hfield : source.naturalRowIdField = some field)
    (h : source.stored R day row = .ok x) : Json.get x.columns field = Json.get row field ∧
      Json.get x.columns "utm_campaign" = Json.get row "utm_campaign" := by
  have hcolumns := columns_of_stored h
  cases source with
  | buffer | linkedin =>
    obtain rfl := Option.some.inj hfield
    exact postColumns_get hcolumns
  | ga4 =>
    obtain rfl := Option.some.inj hfield
    rw [← Except.ok.inj hcolumns]
    exact ⟨rfl, rfl⟩
  | searchConsole => cases hfield

/-- The id field holds the id, where there is one. -/
theorem id_of_field (hfield : source.naturalRowIdField = some field)
    (h : source.stored R day row = .ok x) (hsome : Json.get row field ≠ .null) :
    Json.get row field = .str x.naturalRowId := by
  have hid := (id_of_stored h).1
  cases source with
  | buffer | linkedin =>
    obtain rfl := Option.some.inj hfield
    simp only [Source.naturalRowId, postId] at hid
    unfold Json.get
    split at hid
    · next value hvalue =>
      rw [hvalue, Except.ok.inj hid]
      rfl
    · cases hid
  | ga4 =>
    obtain rfl := Option.some.inj hfield
    have hpage := Except.ok.inj hid
    unfold landingPage at hpage
    unfold Json.get at hsome ⊢
    cases hl : Json.lookup row "landing_page" with
    | none =>
      rw [hl] at hsome
      exact absurd rfl hsome
    | some value =>
      rw [hl] at hpage
      exact hpage
  | searchConsole => cases hfield

end Stored

/-! ## What is new -/

section New

variable {R : Runtime} {source : Source} {day : Int} {row : Row} {x y : Stored} {t : Table}
  {payload a b : List Row} {field : String}

theorem lawful_keys : LawfulBEq (Int × String) := inferInstance

instance Table.decidableHas (t : Table) (x : Stored) :
    Decidable (x.key ∈ t.rows.map Stored.key) :=
  @List.instDecidableMemOfLawfulBEq _ _ lawful_keys _ _

/-- The rows of the payload that are inserted. -/
def Source.newRows (R : Runtime) (source : Source) (day : Int) : List Row → Table → List Row
  | [], _ => []
  | row :: rest, t =>
    match source.stored R day row with
    | .error _ => []
    | .ok x =>
      if x.key ∈ t.rows.map Stored.key then source.newRows R day rest t
      else row :: source.newRows R day rest (t.insert x)

/-- Every row of the payload can be stored. -/
def Storable (R : Runtime) (source : Source) (day : Int) (payload : List Row) : Prop :=
  ∀ row ∈ payload, ∃ x, source.stored R day row = .ok x

theorem storable_of_insertRows (h : insertRows R source day payload t = (t', .ok ())) :
    Storable R source day payload := by
  induction payload generalizing t with
  | nil => exact fun row hrow => absurd hrow List.not_mem_nil
  | cons row rest ih =>
    unfold insertRows at h
    cases hx : source.stored R day row with
    | error e =>
      rw [hx] at h
      cases h
    | ok x =>
      rw [hx] at h
      intro r hr
      rcases List.mem_cons.1 hr with rfl | hr
      · exact ⟨x, hx⟩
      · exact ih h r hr

theorem Storable.tail (h : Storable R source day (row :: payload)) :
    Storable R source day payload := fun r hr => h r (List.mem_cons_of_mem _ hr)

theorem rows_insert : (t.insert x).rows =
    if x.key ∈ t.rows.map Stored.key then t.rows else x :: t.rows := by
  unfold Table.insert
  split <;> rfl

theorem insertRows_cons (h : source.stored R day row = .ok x) :
    insertRows R source day (row :: payload) t =
      insertRows R source day payload (t.insert x) := by
  rw [insertRows, h]

theorem newRows_append (h : Storable R source day a) : source.newRows R day (a ++ b) t =
    source.newRows R day a t ++ source.newRows R day b (insertRows R source day a t).1 := by
  induction a generalizing t with
  | nil => rfl
  | cons row rest ih =>
    obtain ⟨x, hx⟩ := h row List.mem_cons_self
    rw [insertRows_cons hx, List.cons_append]
    simp only [Source.newRows, hx]
    split
    · next htaken =>
      have hsame : t.insert x = t := by
        unfold Table.insert
        rw [dif_pos htaken]
      rw [ih h.tail, hsame]
    · rw [ih h.tail, List.cons_append]

/-- The keys that are taken after a payload are its own and those there were. -/
theorem key_mem_insertRows (h : Storable R source day payload) {k : Int × String} :
    k ∈ (insertRows R source day payload t).1.rows.map Stored.key ↔
      k ∈ t.rows.map Stored.key ∨ ∃ row ∈ payload, ∃ x, source.stored R day row = .ok x ∧
        x.key = k := by
  induction payload generalizing t with
  | nil => simp [insertRows]
  | cons row rest ih =>
    obtain ⟨x, hx⟩ := h row List.mem_cons_self
    have hhead : k ∈ (t.insert x).rows.map Stored.key ↔ k ∈ t.rows.map Stored.key ∨ x.key = k := by
      rw [rows_insert]
      split
      · next htaken => exact ⟨.inl, fun hk => hk.elim id fun heq => heq ▸ htaken⟩
      · rw [List.map_cons, List.mem_cons, or_comm, eq_comm]
    rw [insertRows_cons hx, ih h.tail, hhead, List.exists_mem_cons_iff, hx, or_assoc]
    refine or_congr_right (or_congr_left ⟨fun heq => ⟨x, rfl, heq⟩, ?_⟩)
    rintro ⟨y, hy, heq⟩
    rw [Except.ok.inj hy]
    exact heq

/-- Where a row stands in the payload decides whether it is new. -/
theorem key_free_iff (h : Storable R source day payload) (hx : source.stored R day row = .ok x) :
    x.key ∉ (insertRows R source day payload t).1.rows.map Stored.key ↔
      IsNew source day t payload row := by
  obtain ⟨hid, hday⟩ := id_of_stored hx
  rw [key_mem_insertRows h, not_or]
  refine and_congr ?_ ?_
  · constructor
    · intro hfree y hy hyday heq
      rw [hid] at heq
      have hsame := Json.str.inj (Except.ok.inj heq)
      exact hfree (List.mem_map.2 ⟨y, hy, Prod.ext (hyday.trans hday.symm) hsame.symm⟩)
    · intro hnone hkey
      obtain ⟨y, hy, heq⟩ := List.mem_map.1 hkey
      have hid' : y.naturalRowId = x.naturalRowId := (Prod.mk.inj heq).2
      exact hnone y hy ((Prod.mk.inj heq).1.trans hday) (by rw [hid, hid'])
  · constructor
    · intro hfree r hr heq
      obtain ⟨y, hy⟩ := h r hr
      obtain ⟨hyid, hyday⟩ := id_of_stored hy
      rw [hid, hyid] at heq
      have hsame := Json.str.inj (Except.ok.inj heq)
      exact hfree ⟨r, hr, y, hy, Prod.ext (hyday.trans hday.symm) hsame⟩
    · rintro hnone ⟨r, hr, y, hy, heq⟩
      exact hnone r hr (id_eq_of_key_eq hy hx heq)

/-- The last row of a payload is inserted if and only if it is new. -/
theorem newRows_concat (h : Storable R source day (payload ++ [row])) :
    source.newRows R day (payload ++ [row]) t = source.newRows R day payload t ++
      open Classical in if IsNew source day t payload row then [row] else [] := by
  have hpayload : Storable R source day payload := fun r hr => h r (List.mem_append_left _ hr)
  obtain ⟨x, hx⟩ := h row (List.mem_append_right _ (List.mem_singleton_self row))
  rw [newRows_append hpayload]
  congr 1
  simp only [Source.newRows, hx]
  by_cases hnew : IsNew source day t payload row
  · rw [if_pos hnew, if_neg ((key_free_iff hpayload hx).2 hnew)]
  · rw [if_neg hnew, if_pos (not_not.1 (mt (key_free_iff hpayload hx).1 hnew))]

theorem mem_of_newRows (h : row ∈ source.newRows R day payload t) : row ∈ payload := by
  induction payload generalizing t with
  | nil => exact h
  | cons r rest ih =>
    unfold Source.newRows at h
    split at h
    · exact absurd h List.not_mem_nil
    · split at h
      · exact List.mem_cons_of_mem _ (ih h)
      · rcases List.mem_cons.1 h with rfl | h
        · exact List.mem_cons_self
        · exact List.mem_cons_of_mem _ (ih h)

/-- What a payload adds to the table is what its new rows are stored as. -/
theorem rows_insertRows (h : Storable R source day payload) :
    ∃ added : List Stored,
      (source.newRows R day payload t).map (source.stored R day) = added.map .ok ∧
      (insertRows R source day payload t).1.rows = added.reverse ++ t.rows := by
  induction payload generalizing t with
  | nil => exact ⟨[], rfl, rfl⟩
  | cons row rest ih =>
    obtain ⟨x, hx⟩ := h row List.mem_cons_self
    obtain ⟨added, hadded, hrows⟩ := ih h.tail (t := t.insert x)
    rw [insertRows_cons hx, hrows, rows_insert]
    simp only [Source.newRows, hx]
    split
    · next htaken =>
      have hsame : t.insert x = t := by
        unfold Table.insert
        rw [dif_pos htaken]
      exact ⟨added, hsame ▸ hadded, rfl⟩
    · refine ⟨x :: added, ?_, ?_⟩
      · rw [List.map_cons, List.map_cons, hx, hadded]
      · rw [List.reverse_cons, List.append_assoc]
        rfl

theorem carries_of_stored (hfield : source.naturalRowIdField = some field)
    (h : source.stored R day row = .ok x) : carries x.columns = carries row :=
  congrArg Json.truthy (fields_of_stored hfield h).2

/-- The newly ingested rows with a campaign are what the new rows with a campaign are stored as. -/
theorem attributable_eq (hfield : source.naturalRowIdField = some field)
    (h : Storable R source day payload) :
    (attributable t (insertRows R source day payload t).1).map .ok =
      (((source.newRows R day payload t).filter carries).map (source.stored R day)).reverse := by
  obtain ⟨added, hadded, hrows⟩ := rows_insertRows h (t := t)
  have hunique := List.Nodup.of_map _ (insertRows R source day payload t).1.unique
  rw [hrows] at hunique
  have hfresh := (List.nodup_append.1 hunique).2.2
  unfold attributable
  rw [hrows, List.filter_append]
  have hold : t.rows.filter (fun x => decide (x ∉ t.rows ∧ carries x.columns = true)) = [] :=
    List.filter_eq_nil_iff.2 fun x hx h => (of_decide_eq_true h).1 hx
  have hnew : added.reverse.filter (fun x => decide (x ∉ t.rows ∧ carries x.columns = true)) =
      added.reverse.filter fun x => carries x.columns := by
    refine List.filter_congr fun x hx => ?_
    have hnot : x ∉ t.rows := fun hmem => hfresh x hx x hmem rfl
    simp [hnot]
  rw [hold, hnew, List.append_nil, List.filter_reverse, List.map_reverse]
  congr 1
  clear hrows hunique hfresh hold hnew
  -- row by row
  generalize source.newRows R day payload t = rows at hadded
  induction rows generalizing added with
  | nil =>
    obtain rfl := List.map_eq_nil_iff.1 hadded.symm
    rfl
  | cons row rows ih =>
    cases added with
    | nil => cases hadded
    | cons x added =>
      obtain ⟨hx, hrest⟩ := List.cons.inj hadded
      rw [List.filter_cons, List.filter_cons, carries_of_stored hfield hx]
      split
      · rw [List.map_cons, List.map_cons, hx, ih added hrest]
      · exact ih added hrest

/-- The new rows have different ids. -/
theorem newRows_apart (h : Storable R source day payload) :
    ((source.newRows R day payload t).map (source.stored R day)).Nodup ∧
      ∀ r ∈ source.newRows R day payload t, ∀ r' ∈ source.newRows R day payload t,
        source.naturalRowId r = source.naturalRowId r' → r = r' := by
  induction payload using List.reverseRecOn with
  | nil => exact ⟨List.nodup_nil, fun r hr => absurd hr List.not_mem_nil⟩
  | append_singleton rest row ih =>
    obtain ⟨hnodup, hinj⟩ := ih fun r hr => h r (List.mem_append_left _ hr)
    rw [newRows_concat h]
    by_cases hnew : IsNew source day t rest row
    · have hother : ∀ r ∈ source.newRows R day rest t,
          source.naturalRowId r ≠ source.naturalRowId row :=
        fun r hr => hnew.2 r (mem_of_newRows hr)
      obtain ⟨x, hx⟩ := h row (List.mem_append_right _ (List.mem_singleton_self row))
      rw [if_pos hnew]
      refine ⟨?_, fun r hr r' hr' heq => ?_⟩
      · rw [List.map_append, List.nodup_append]
        refine ⟨hnodup, List.nodup_singleton _, fun y hy z hz heq => ?_⟩
        obtain ⟨r, hr, rfl⟩ := List.mem_map.1 hy
        obtain rfl := List.mem_singleton.1 hz
        rw [hx] at heq
        exact hother r hr (id_eq_of_key_eq heq hx rfl)
      · rw [List.mem_append, List.mem_singleton] at hr hr'
        rcases hr with hr | rfl
        · rcases hr' with hr' | rfl
          · exact hinj r hr r' hr' heq
          · exact absurd heq (hother r hr)
        · rcases hr' with hr' | rfl
          · exact absurd heq.symm (hother r' hr')
          · rfl
    · rw [if_neg hnew, List.append_nil]
      exact ⟨hnodup, hinj⟩

/-- The keys of new rows were free. -/
theorem key_of_newRows (h : row ∈ source.newRows R day payload t)
    (hx : source.stored R day row = .ok x) : x.key ∉ t.rows.map Stored.key := by
  induction payload generalizing t with
  | nil => exact absurd h List.not_mem_nil
  | cons r rest ih =>
    unfold Source.newRows at h
    split at h
    · exact absurd h List.not_mem_nil
    · next y hy =>
      split at h
      · exact ih h
      · next hfree =>
        rcases List.mem_cons.1 h with rfl | h
        · obtain rfl := Except.ok.inj (hx.symm.trans hy)
          exact hfree
        · intro htaken
          refine ih h ?_
          rw [rows_insert, if_neg hfree]
          exact List.mem_cons_of_mem _ htaken

/-- Whether a row is reconciled shows in what it is stored as. -/
theorem field_of_same {row' : Row} (hfield : source.naturalRowIdField = some field)
    (hx : source.stored R day row = .ok x)
    (hsame : source.stored R day row' = source.stored R day row) :
    Json.get row' field = Json.get row field ∧ carries row' = carries row := by
  have hx' := hsame.trans hx
  rw [← (fields_of_stored hfield hx).1, ← (fields_of_stored hfield hx').1,
    ← carries_of_stored hfield hx, ← carries_of_stored hfield hx']
  exact ⟨rfl, rfl⟩

theorem reconciledRows_eq (hfield : source.naturalRowIdField = some field) :
    source.reconciledRows payload =
      payload.filter fun row => decide (Json.get row field ≠ .null) := by
  unfold Source.reconciledRows
  rw [hfield]

/-- Where the rows with an id are the new ones with a campaign, both lists are the same. -/
theorem reconciledRows_eq_new (hfield : source.naturalRowIdField = some field)
    (h : Storable R source day payload)
    (hexactly : ∀ before row after, payload = before ++ row :: after →
      (Json.get row field ≠ .null ↔ IsNew source day t before row ∧ carries row = true)) :
    source.reconciledRows payload = (source.newRows R day payload t).filter carries := by
  rw [reconciledRows_eq hfield]
  induction payload using List.reverseRecOn with
  | nil => rfl
  | append_singleton rest row ih =>
    have hrest : rest.filter (fun row => decide (Json.get row field ≠ .null)) =
        (source.newRows R day rest t).filter carries := by
      refine ih (fun r hr => h r (List.mem_append_left _ hr)) fun before r after heq => ?_
      refine hexactly before r (after ++ [row]) ?_
      rw [heq, List.append_assoc, List.cons_append]
    have hlast := hexactly rest row [] rfl
    rw [newRows_concat h, List.filter_append, List.filter_append, hrest]
    congr 1
    by_cases hnew : IsNew source day t rest row
    · rw [if_pos hnew, List.filter_singleton, List.filter_singleton]
      by_cases hcarries : carries row = true
      · rw [hcarries, decide_eq_true (hlast.2 ⟨hnew, hcarries⟩)]
      · rw [Bool.not_eq_true] at hcarries
        rw [hcarries, decide_eq_false fun hid => Bool.false_ne_true (hcarries ▸ (hlast.1 hid).2)]
    · rw [if_neg hnew, List.filter_singleton, decide_eq_false fun hid => hnew (hlast.1 hid).1]
      rfl

/-- The rows that are reconciled are the attributable ones, each of them once, if and only if in the
    payload the rows with an id are the new ones with a campaign. -/
theorem exactly_iff (hfield : source.naturalRowIdField = some field)
    (h : Storable R source day payload) :
    ((source.reconciledRows payload).map (source.stored R day)).Perm
      ((attributable t (insertRows R source day payload t).1).map .ok) ↔
    ∀ before row after, payload = before ++ row :: after →
      (Json.get row field ≠ .null ↔ IsNew source day t before row ∧ carries row = true) := by
  rw [attributable_eq hfield h]
  constructor
  · rintro hperm before row after rfl
    have hbefore : Storable R source day before := fun r hr => h r (List.mem_append_left _ hr)
    have hfirst : Storable R source day (before ++ [row]) := fun r hr =>
      h r ((List.mem_append.1 hr).elim (List.mem_append_left _) fun hr =>
        List.mem_append_right _ (List.mem_singleton.1 hr ▸ List.mem_cons_self))
    obtain ⟨x, hx⟩ := hfirst row (List.mem_append_right _ (List.mem_singleton_self row))
    have hsplit : source.newRows R day (before ++ row :: after) t =
        source.newRows R day (before ++ [row]) t ++
          source.newRows R day after (insertRows R source day (before ++ [row]) t).1 := by
      rw [← newRows_append hfirst, List.append_assoc, List.singleton_append]
    rw [newRows_concat hfirst] at hsplit
    rw [reconciledRows_eq hfield] at hperm
    constructor
    · intro hid
      have hmem : source.stored R day row ∈ ((before ++ row :: after).filter fun row =>
          decide (Json.get row field ≠ .null)).map (source.stored R day) :=
        List.mem_map_of_mem (List.mem_filter.2
          ⟨List.mem_append_right _ List.mem_cons_self, decide_eq_true hid⟩)
      obtain ⟨row', hrow', hsame⟩ := List.mem_map.1 (List.mem_reverse.1 (hperm.mem_iff.1 hmem))
      obtain ⟨hnew, hcarries⟩ := List.mem_filter.1 hrow'
      obtain ⟨hsameId, hsameCarries⟩ := field_of_same hfield hx hsame
      rw [hsplit, List.mem_append, List.mem_append] at hnew
      rcases hnew with (hnew | hnew) | hnew
      · -- the same row was there before, and would be reconciled twice
        have hnodup : (((before ++ row :: after).filter fun row =>
            decide (Json.get row field ≠ .null)).map (source.stored R day)).Nodup := by
          refine hperm.nodup_iff.2 (List.nodup_reverse.2 ?_)
          exact (newRows_apart h).1.sublist (List.filter_sublist.map _)
        rw [List.filter_append, List.map_append, List.nodup_append] at hnodup
        refine absurd hsame (hnodup.2.2 _ (List.mem_map_of_mem (List.mem_filter.2
          ⟨mem_of_newRows hnew, ?_⟩)) _ (List.mem_map_of_mem (List.mem_filter.2
          ⟨List.mem_cons_self, decide_eq_true hid⟩)))
        rw [hsameId]
        exact decide_eq_true hid
      · split at hnew
        · next hisNew => exact ⟨hisNew, hsameCarries ▸ hcarries⟩
        · exact absurd hnew List.not_mem_nil
      · -- its id is taken by the row itself
        refine absurd ?_ (key_of_newRows hnew (hsame.trans hx))
        exact (key_mem_insertRows hfirst).2
          (.inr ⟨row, List.mem_append_right _ (List.mem_singleton_self row), x, hx, rfl⟩)
    · rintro ⟨hnew, hcarries⟩
      have hmem : row ∈ source.newRows R day (before ++ row :: after) t := by
        rw [hsplit, if_pos hnew]
        exact List.mem_append_left _ (List.mem_append_right _ (List.mem_singleton_self row))
      have hstored := hperm.mem_iff.2 (List.mem_reverse.2
        (List.mem_map_of_mem (List.mem_filter.2 ⟨hmem, hcarries⟩)))
      obtain ⟨row', hrow', hsame⟩ := List.mem_map.1 hstored
      rw [← (field_of_same hfield hx hsame).1]
      exact of_decide_eq_true (List.mem_filter.1 hrow').2
  · intro hexactly
    rw [reconciledRows_eq_new hfield h hexactly]
    exact (List.reverse_perm _).symm

end New

/-! ## What is quarantined -/

section Quarantine

variable {M : List MapRow} {source : Source} {day : Int} {field : String} {row : Row}
  {rows : List Row} {payloads : Source → List Row} {ss : List Source}
  {Q Q' : Keyed Quarantined.key} {n n' : Counts}

/-- What a row with a campaign puts into the quarantine. -/
def Source.entry (M : List MapRow) (source : Source) (day : Int) (field : String) (row : Row) :
    Option Quarantined :=
  match Json.get row field, Json.get row "utm_campaign",
      reasonOf M (Json.get row "utm_campaign") with
  | .str id, .str raw, some reason => some ⟨source, day, id, some raw, reason⟩
  | _, _, _ => none

/-- What the rows of a payload put into the quarantine. -/
def Source.entries (M : List MapRow) (source : Source) (day : Int) (payload : List Row) :
    List Quarantined :=
  match source.naturalRowIdField with
  | none => []
  | some field => (source.reconciledRows payload).filterMap (source.entry M day field)

theorem reasonOf_str {raw : String} (hslug : isSlug raw = true) : reasonOf M (.str raw) =
    match M.find? fun m => m.utmCampaignSlug = raw with
    | none => some (unmatched raw)
    | some _ => none := by
  have hany : (M.find? fun m => m.utmCampaignSlug = raw).isSome =
      M.any fun m => m.utmCampaignSlug = raw := List.isSome_find?
  simp only [reasonOf, hslug, ← hany]
  cases M.find? fun m => m.utmCampaignSlug = raw with
  | none => rfl
  | some m => rfl

/-- A row with a campaign is matched, or goes to the quarantine for the reason of its campaign. -/
theorem reconcileUtm_carries (hcarries : carries row = true) {out : Option Match}
    (h : reconcileUtm M source day (Json.get row field) (Json.get row "utm_campaign") Q =
      (Q', .ok out)) : Q' = (source.entry M day field row).toList.foldl Keyed.insertNew Q := by
  unfold reconcileUtm at h
  unfold Source.entry
  rw [if_neg (by rw [show (Json.get row "utm_campaign").truthy = true from hcarries]; decide)] at h
  cases hraw : Json.get row "utm_campaign" with
  | str raw =>
    rw [hraw] at h
    dsimp only at h
    cases hslug : isSlug raw with
    | false =>
      have hreason : reasonOf M (.str raw) = some (invalidFormat raw) := by
        simp [reasonOf, hslug]
      rw [hreason]
      rw [hslug, if_pos (show (!false) = true from rfl)] at h
      cases hid : Json.get row field with
      | str id =>
        rw [hid] at h
        exact (Prod.mk.inj h).1.symm
      | _ =>
        rw [hid] at h
        cases (Prod.mk.inj h).2
    | true =>
      rw [reasonOf_str hslug]
      rw [hslug, if_neg (show ¬(!true) = true by decide)] at h
      cases hfind : M.find? fun m => m.utmCampaignSlug = raw with
      | none =>
        rw [hfind] at h
        cases hid : Json.get row field with
        | str id =>
          rw [hid] at h
          exact (Prod.mk.inj h).1.symm
        | _ =>
          rw [hid] at h
          cases (Prod.mk.inj h).2
      | some m =>
        rw [hfind] at h
        rw [← (Prod.mk.inj h).1]
        cases Json.get row field <;> rfl
  | _ =>
    rw [hraw] at h
    cases (Prod.mk.inj h).2

theorem reconcileRows_quarantine
    (hcarries : ∀ row ∈ rows, Json.get row field ≠ .null → carries row = true)
    (h : reconcileRows M source day field rows Q n = (Q', .ok n')) :
    Q' = ((rows.filter fun row => decide (Json.get row field ≠ .null)).filterMap
      (source.entry M day field)).foldl Keyed.insertNew Q := by
  induction rows generalizing Q n with
  | nil => exact (Prod.mk.inj h).1.symm
  | cons row rest ih =>
    have htail : ∀ row ∈ rest, Json.get row field ≠ .null → carries row = true :=
      fun r hr => hcarries r (List.mem_cons_of_mem _ hr)
    unfold reconcileRows at h
    split at h
    · next hid =>
      rw [List.filter_cons_of_neg (by simp [hid])]
      exact ih htail h
    · next hid =>
      rw [List.filter_cons_of_pos (by simp [hid])]
      split at h
      · next Q₁ outcome hutm =>
        rw [ih htail h, reconcileUtm_carries (hcarries row List.mem_cons_self hid) hutm,
          List.filterMap_cons]
        cases source.entry M day field row with
        | none => rfl
        | some q => rfl
      · cases (Prod.mk.inj h).2

/-- Every row with an id is counted, and not every one of them has to be quarantined. -/
theorem reconcileRows_counts (h : reconcileRows M source day field rows Q n = (Q', .ok n')) :
    n'.reconciled = n.reconciled +
        (rows.filter fun row => decide (Json.get row field ≠ .null)).length ∧
      n'.quarantined + n.reconciled ≤ n.quarantined + n'.reconciled := by
  induction rows generalizing Q n with
  | nil =>
    obtain rfl := Except.ok.inj (Prod.mk.inj h).2
    exact ⟨rfl, Nat.le_refl _⟩
  | cons row rest ih =>
    unfold reconcileRows at h
    split at h
    · next hid =>
      rw [List.filter_cons_of_neg (by simp [hid])]
      exact ih h
    · next hid =>
      rw [List.filter_cons_of_pos (by simp [hid]), List.length_cons]
      split at h
      · next Q₁ outcome hutm =>
        obtain ⟨hcount, hle⟩ := ih h
        have hone : (if outcome = none then 1 else 0) ≤ 1 := by
          split
          · exact Nat.le_refl 1
          · exact Nat.zero_le 1
        dsimp only at hcount hle
        exact ⟨by omega, by omega⟩
      · cases (Prod.mk.inj h).2

theorem reconcileAll_quarantine
    (hcarries : ∀ source ∈ ss, ∀ row ∈ source.reconciledRows (payloads source),
      carries row = true)
    (h : reconcileAll M day payloads ss Q n = (Q', .ok n')) :
    Q' = (ss.flatMap fun source => source.entries M day (payloads source)).foldl
      Keyed.insertNew Q := by
  induction ss generalizing Q n with
  | nil => exact (Prod.mk.inj h).1.symm
  | cons source rest ih =>
    have htail : ∀ source ∈ rest, ∀ row ∈ source.reconciledRows (payloads source),
        carries row = true := fun s hs => hcarries s (List.mem_cons_of_mem _ hs)
    have hhead := hcarries source List.mem_cons_self
    rw [List.flatMap_cons, List.foldl_append]
    unfold reconcileAll at h
    unfold Source.entries
    unfold Source.reconciledRows at hhead ⊢
    cases hfield : source.naturalRowIdField with
    | none =>
      rw [hfield] at h
      exact ih htail h
    | some field =>
      rw [hfield] at h hhead
      dsimp only at h hhead ⊢
      split at h
      · next Q₁ n₁ hrows =>
        rw [← reconcileRows_quarantine (fun row hrow hid => hhead row
          (List.mem_filter.2 ⟨hrow, decide_eq_true hid⟩)) hrows]
        exact ih htail h
      · cases (Prod.mk.inj h).2

theorem reconcileAll_counts (h : reconcileAll M day payloads ss Q n = (Q', .ok n')) :
    n'.reconciled = n.reconciled +
        (ss.map fun source => (source.reconciledRows (payloads source)).length).sum ∧
      n'.quarantined + n.reconciled ≤ n.quarantined + n'.reconciled := by
  induction ss generalizing Q n with
  | nil =>
    obtain rfl := Except.ok.inj (Prod.mk.inj h).2
    exact ⟨rfl, Nat.le_refl _⟩
  | cons source rest ih =>
    rw [List.map_cons, List.sum_cons]
    unfold reconcileAll at h
    unfold Source.reconciledRows
    cases hfield : source.naturalRowIdField with
    | none =>
      rw [hfield] at h
      dsimp only
      rw [List.length_nil, Nat.zero_add]
      exact ih h
    | some field =>
      rw [hfield] at h
      dsimp only at h ⊢
      split at h
      · next Q₁ n₁ hrows =>
        obtain ⟨hcount, hle⟩ := reconcileRows_counts hrows
        obtain ⟨hcount', hle'⟩ := ih h
        unfold Source.reconciledRows at hcount'
        exact ⟨by rw [hcount', hcount, Nat.add_assoc], by omega⟩
      · cases (Prod.mk.inj h).2

theorem entry_some {q : Quarantined} (h : source.entry M day field row = some q) :
    q.key = (source, day, q.naturalRowId) ∧ Json.get row field = .str q.naturalRowId ∧
      reasonOf M (Json.get row "utm_campaign") = some q.reason := by
  unfold Source.entry at h
  split at h
  · next hid hraw hreason =>
    obtain rfl := Option.some.inj h
    exact ⟨rfl, hid, hreason⟩
  · cases h

/-- An entry comes from a row of its source. -/
theorem mem_entries {payload : List Row} {q : Quarantined} :
    q ∈ source.entries M day payload ↔ ∃ field, source.naturalRowIdField = some field ∧
      ∃ row ∈ source.reconciledRows payload, source.entry M day field row = some q := by
  unfold Source.entries
  cases source.naturalRowIdField with
  | none => exact ⟨fun h => absurd h List.not_mem_nil, fun ⟨_, h, _⟩ => nomatch h⟩
  | some field =>
    rw [List.mem_filterMap]
    exact ⟨fun h => ⟨field, rfl, h⟩, fun ⟨_, h, hrow⟩ => Option.some.inj h ▸ hrow⟩

theorem entry_of_reason (source : Source) (day : Int) {x : Stored} {reason : String}
    (hid : Json.get row field = .str x.naturalRowId)
    (hreason : reasonOf M (Json.get row "utm_campaign") = some reason) :
    ∃ q, source.entry M day field row = some q ∧ q.key = (source, day, x.naturalRowId) ∧
      q.reason = reason := by
  cases hraw : Json.get row "utm_campaign" with
  | str raw =>
    refine ⟨⟨source, day, x.naturalRowId, some raw, reason⟩, ?_, rfl, rfl⟩
    unfold Source.entry
    rw [hid, hreason, hraw]
  | _ =>
    rw [hraw] at hreason
    cases hreason

end Quarantine

/-! ## When exactly the attributable rows are covered -/

section Covers

variable {R : Runtime} {day : Int} {payloads : Source → List Row} {W W' : Warehouse}
  {counts : Counts} {source : Source} {field : String} {row : Row} {x : Stored}

/-- All sources are ingested, each into its own table. -/
theorem ingestAll_ok {ss : List Source} (hss : ss.Nodup) {T T' : Source → Table}
    {out : List (Source × Ingested)} (h : ingestAll R day payloads ss T = (T', .ok out))
    (source : Source) :
    if source ∈ ss then
      Storable R source day (payloads source) ∧
        T' source = (insertRows R source day (payloads source) (T source)).1
    else T' source = T source := by
  induction ss generalizing T out with
  | nil =>
    rw [if_neg List.not_mem_nil, (Prod.mk.inj h).1]
  | cons s rest ih =>
    obtain ⟨hs, hrest⟩ := List.nodup_cons.1 hss
    unfold ingestAll at h
    cases hday : ingestDay R s day (payloads s) (T s) with
    | mk table res =>
      rw [hday] at h
      cases res with
      | error e => cases (Prod.mk.inj h).2
      | ok n =>
        dsimp only at h
        cases hall : ingestAll R day payloads rest (Function.update T s table) with
        | mk T₁ res =>
          rw [hall] at h
          obtain ⟨rfl, hres⟩ := Prod.mk.inj h
          cases res with
          | error e => cases hres
          | ok ns =>
            have ih := ih hrest hall
            have hrows : insertRows R s day (payloads s) (T s) = (table, .ok ()) := by
              unfold ingestDay at hday
              cases hins : insertRows R s day (payloads s) (T s) with
              | mk t res =>
                rw [hins] at hday
                obtain ⟨rfl, hmap⟩ := Prod.mk.inj hday
                cases res with
                | error e => cases hmap
                | ok u => rfl
            by_cases heq : source = s
            · subst heq
              rw [if_neg hs, Function.update_self] at ih
              rw [if_pos List.mem_cons_self, ih, hrows]
              exact ⟨storable_of_insertRows hrows, rfl⟩
            · rw [Function.update_of_ne heq] at ih
              by_cases hmem : source ∈ rest
              · rw [if_pos hmem] at ih
                rw [if_pos (List.mem_cons_of_mem _ hmem)]
                exact ih
              · rw [if_neg hmem] at ih
                rw [if_neg fun h => (List.mem_cons.1 h).elim heq hmem]
                exact ih

theorem mem_sources (source : Source) : source ∈ sources := by
  cases source <;> decide

/-- What a run of the pipeline did. -/
structure Ran (R : Runtime) (day : Int) (payloads : Source → List Row) (W W' : Warehouse)
    (counts : Counts) : Prop where
  storable : ∀ source, Storable R source day (payloads source)
  facts : ∀ source,
    W'.facts source = (insertRows R source day (payloads source) (W.facts source)).1
  reconciled : reconcileAll W.campaignMap day payloads sources W.quarantine ⟨0, 0⟩ =
    (W'.quarantine, .ok counts)

theorem nightlyPipeline_ran {ingested : List (Source × Ingested)}
    (h : nightlyPipeline R day payloads W = (W', .ok (ingested, counts))) :
    Ran R day payloads W W' counts := by
  unfold nightlyPipeline at h
  cases hall : ingestAll R day payloads sources W.facts with
  | mk T res =>
    rw [hall] at h
    cases res with
    | error e => cases (Prod.mk.inj h).2
    | ok ns =>
      dsimp only at h
      cases hrec : reconcileAll W.campaignMap day payloads sources W.quarantine ⟨0, 0⟩ with
      | mk Q res =>
        rw [hrec] at h
        obtain ⟨rfl, hres⟩ := Prod.mk.inj h
        cases res with
        | error e => cases hres
        | ok n =>
          obtain rfl : n = counts := (Prod.mk.inj (Except.ok.inj hres)).2
          have hsource (source : Source) := by
            have hsource := ingestAll_ok (by decide) hall source
            rw [if_pos (mem_sources source)] at hsource
            exact hsource
          exact ⟨fun source => (hsource source).1, fun source => (hsource source).2, hrec⟩

/-- A reconciled row stands somewhere in the payload, with an id. -/
theorem split_of_reconciled (hfield : source.naturalRowIdField = some field) {payload : List Row}
    (h : row ∈ source.reconciledRows payload) :
    (∃ before after, payload = before ++ row :: after) ∧ Json.get row field ≠ .null := by
  rw [reconciledRows_eq hfield] at h
  obtain ⟨hmem, hid⟩ := List.mem_filter.1 h
  exact ⟨List.append_of_mem hmem, of_decide_eq_true hid⟩

theorem field_of_reconciled {payload : List Row} (h : row ∈ source.reconciledRows payload) :
    ∃ field, source.naturalRowIdField = some field := by
  unfold Source.reconciledRows at h
  cases hfield : source.naturalRowIdField with
  | none =>
    rw [hfield] at h
    exact absurd h List.not_mem_nil
  | some field => exact ⟨field, rfl⟩

/-- Where only new rows with a campaign have an id, all that are reconciled carry one. -/
theorem carries_of_onlyNew (h : OnlyNew day payloads W) :
    ∀ source ∈ sources, ∀ row ∈ source.reconciledRows (payloads source), carries row = true := by
  intro source _ row hrow
  obtain ⟨field, hfield⟩ := field_of_reconciled hrow
  obtain ⟨⟨before, after, heq⟩, hid⟩ := split_of_reconciled hfield hrow
  exact ((h source field hfield before row after heq).1 hid).2

section Run

variable (hran : Ran R day payloads W W' counts)

include hran

/-- The reconciled rows are the attributable ones exactly if the rows with an id are only new ones
    with a campaign. -/
theorem Ran.perm_iff : (∀ (source : Source) (field : String),
    source.naturalRowIdField = some field →
      ((source.reconciledRows (payloads source)).map (source.stored R day)).Perm
        ((attributable (W.facts source) (W'.facts source)).map .ok)) ↔
    OnlyNew day payloads W := by
  unfold OnlyNew
  refine forall_congr' fun source => forall_congr' fun field => forall_congr' fun hfield => ?_
  rw [hran.facts source]
  exact exactly_iff hfield (hran.storable source)

theorem Ran.quarantine_eq (hnew : OnlyNew day payloads W) : W'.quarantine =
    (sources.flatMap fun source => source.entries W.campaignMap day (payloads source)).foldl
      Keyed.insertNew W.quarantine :=
  reconcileAll_quarantine (carries_of_onlyNew hnew) hran.reconciled

/-- What is reconciled is attributable, and stands under its own id. -/
theorem Ran.stored_of_reconciled (hnew : OnlyNew day payloads W)
    (hfield : source.naturalRowIdField = some field)
    (hrow : row ∈ source.reconciledRows (payloads source)) :
    ∃ x ∈ attributable (W.facts source) (W'.facts source), source.stored R day row = .ok x ∧
      Json.get row field = .str x.naturalRowId := by
  obtain ⟨x, hx, heq⟩ := List.mem_map.1 ((hran.perm_iff.2 hnew source field hfield).mem_iff.1
    (List.mem_map_of_mem hrow))
  exact ⟨x, hx, heq.symm, id_of_field hfield heq.symm (split_of_reconciled hfield hrow).2⟩

/-- No two of the reconciled rows have the same id. -/
theorem Ran.eq_of_id (hnew : OnlyNew day payloads W)
    (hfield : source.naturalRowIdField = some field) {row' : Row}
    (hrow : row ∈ source.reconciledRows (payloads source))
    (hrow' : row' ∈ source.reconciledRows (payloads source))
    (hid : source.naturalRowId row = source.naturalRowId row') : row = row' := by
  rw [reconciledRows_eq_new hfield (hran.storable source) (hnew source field hfield)] at hrow hrow'
  exact (newRows_apart (hran.storable source)).2 row (List.mem_filter.1 hrow).1 row'
    (List.mem_filter.1 hrow').1 hid

/-- Another reason for an attributable row would still be in the quarantine. -/
theorem Ran.undisputed (hcovers : Covers R day payloads W W' counts)
    (hfield : source.naturalRowIdField = some field) (hrow : row ∈ payloads source)
    {q : Quarantined} (hq : q ∈ W.quarantine.rows) (hqsource : q.source = source)
    (hqday : q.day = day) (hid : Json.get row field = .str q.naturalRowId) {reason : String}
    (hreason : reasonOf W.campaignMap (Json.get row "utm_campaign") = some reason) :
    q.reason = reason := by
  have hnew := hran.perm_iff.1 hcovers.exactly
  have hsome : Json.get row field ≠ .null := by
    rw [hid]
    exact fun h => nomatch h
  have hrec : row ∈ source.reconciledRows (payloads source) := by
    rw [reconciledRows_eq hfield]
    exact List.mem_filter.2 ⟨hrow, decide_eq_true hsome⟩
  obtain ⟨x, hx, hxrow, hxid⟩ := hran.stored_of_reconciled hnew hfield hrec
  rw [← (fields_of_stored hfield hxrow).2] at hreason
  obtain ⟨q', hq', hkey, hq'reason⟩ := hcovers.covered source field hfield x hx reason hreason
  have hkept : q ∈ W'.quarantine.rows := by
    rw [hran.quarantine_eq hnew]
    exact Keyed.mem_foldl_insertNew_of_mem hq
  have hsame : q.key = q'.key := by
    rw [hkey, ← hqsource, ← hqday, ← Json.str.inj (hid.symm.trans hxid)]
    rfl
  rw [Keyed.eq_of_key_eq hkept hq' hsame]
  exact hq'reason

/-- A row that is not mapped has its reason in the quarantine. -/
theorem Ran.covered (hall : AllAttributable day payloads W)
    (hfield : source.naturalRowIdField = some field)
    (hx : x ∈ attributable (W.facts source) (W'.facts source)) {reason : String}
    (hreason : reasonOf W.campaignMap (Json.get x.columns "utm_campaign") = some reason) :
    ∃ q ∈ W'.quarantine.rows, q.key = (source, day, x.naturalRowId) ∧ q.reason = reason := by
  obtain ⟨row, hrow, hxrow⟩ := List.mem_map.1
    ((hran.perm_iff.2 hall.onlyNew source field hfield).mem_iff.2 (List.mem_map_of_mem hx))
  have hid := id_of_field hfield hxrow (split_of_reconciled hfield hrow).2
  rw [(fields_of_stored hfield hxrow).2] at hreason
  obtain ⟨q, hentry, hkey, hqreason⟩ := entry_of_reason source day hid hreason
  rw [hran.quarantine_eq hall.onlyNew]
  by_cases htaken : q.key ∈ W.quarantine.rows.map Quarantined.key
  · -- what stands there says the same
    obtain ⟨q', hq', heq⟩ := List.mem_map.1 htaken
    have hq'key : (q'.source, q'.day, q'.naturalRowId) = (source, day, x.naturalRowId) :=
      heq.trans hkey
    simp only [Prod.mk.injEq] at hq'key
    obtain ⟨hsource, hday, hq'id⟩ := hq'key
    obtain ⟨⟨before, after, hsplit⟩, -⟩ := split_of_reconciled hfield hrow
    have hmem : row ∈ payloads source := by
      rw [hsplit]
      exact List.mem_append_right _ List.mem_cons_self
    exact ⟨q', Keyed.mem_foldl_insertNew_of_mem hq', heq.trans hkey,
      hall.undisputed source field hfield row hmem q' hq' hsource hday (hq'id ▸ hid) reason hreason⟩
  · -- nothing else goes there
    refine ⟨q, Keyed.mem_foldl_insertNew ?_ htaken fun q' hq' heq => ?_, hkey, hqreason⟩
    · exact List.mem_flatMap.2 ⟨source, mem_sources source,
        mem_entries.2 ⟨field, hfield, row, hrow, hentry⟩⟩
    · obtain ⟨source', -, hq'⟩ := List.mem_flatMap.1 hq'
      obtain ⟨field', hfield', row', hrow', hentry'⟩ := mem_entries.1 hq'
      obtain ⟨hkey', hid', -⟩ := entry_some hentry'
      rw [hkey, hkey'] at heq
      simp only [Prod.mk.injEq, true_and] at heq
      obtain ⟨rfl, heqid⟩ := heq
      obtain rfl := Option.some.inj (hfield.symm.trans hfield')
      obtain ⟨x', -, hxrow', hid''⟩ := hran.stored_of_reconciled hall.onlyNew hfield hrow'
      have hids : source'.naturalRowId row' = source'.naturalRowId row := by
        rw [(id_of_stored hxrow').1, (id_of_stored hxrow).1,
          ← Json.str.inj (hid'.symm.trans hid''), heqid]
      obtain rfl := hran.eq_of_id hall.onlyNew hfield hrow' hrow hids
      exact Option.some.inj (hentry'.symm.trans hentry)

/-- What is added to the quarantine is of rows with a campaign. -/
theorem Ran.spared (hnew : OnlyNew day payloads W) (hx : x ∈ (W'.facts source).rows)
    (hday : x.day = day) (hnot : carries x.columns = false) {q : Quarantined}
    (hq : q ∈ W'.quarantine.rows) (hkey : q.key = (source, day, x.naturalRowId)) :
    q ∈ W.quarantine.rows := by
  rw [hran.quarantine_eq hnew] at hq
  refine (Keyed.of_mem_foldl_insertNew hq).resolve_right fun ⟨hentered, _⟩ => ?_
  obtain ⟨source', -, hentered⟩ := List.mem_flatMap.1 hentered
  obtain ⟨field, hfield, row, hrow, hentry⟩ := mem_entries.1 hentered
  obtain ⟨hqkey, hqid, -⟩ := entry_some hentry
  rw [hkey] at hqkey
  simp only [Prod.mk.injEq, true_and] at hqkey
  obtain ⟨rfl, heqid⟩ := hqkey
  obtain ⟨y, hy, hyrow, hyid⟩ := hran.stored_of_reconciled hnew hfield hrow
  obtain ⟨hyT, hycarries⟩ := List.mem_filter.1 hy
  have hids : x.naturalRowId = y.naturalRowId := heqid.trans (Json.str.inj (hqid.symm.trans hyid))
  have heq : x = y := List.inj_on_of_nodup_map (W'.facts source).unique hx hyT
    (Prod.ext (hday.trans (id_of_stored hyrow).2.symm) hids)
  rw [heq, (of_decide_eq_true hycarries).2] at hnot
  cases hnot

theorem Ran.counted (hnew : OnlyNew day payloads W) : counts.reconciled =
    (sources.map fun source => if source.naturalRowIdField.isSome then
      (attributable (W.facts source) (W'.facts source)).length else 0).sum := by
  rw [(reconcileAll_counts hran.reconciled).1, Nat.zero_add]
  congr 1
  refine List.map_congr_left fun source _ => ?_
  cases hfield : source.naturalRowIdField with
  | none =>
    unfold Source.reconciledRows
    rw [hfield]
    rfl
  | some field =>
    have hlength := (hran.perm_iff.2 hnew source field hfield).length_eq
    rw [List.length_map, List.length_map] at hlength
    exact hlength

end Run

/-- After a run of the pipeline, for whatever payloads, tables and campaigns, the reconciliation
    covers exactly the attributable rows if and only if the rows with an id are just these, and the
    quarantine has no other reason for one of them. -/
theorem covers_iff {ingested : List (Source × Ingested)}
    (h : nightlyPipeline R day payloads W = (W', .ok (ingested, counts))) :
    Covers R day payloads W W' counts ↔ AllAttributable day payloads W := by
  have hran := nightlyPipeline_ran h
  constructor
  · intro hcovers
    exact ⟨hran.perm_iff.1 hcovers.exactly, fun source field hfield row hrow q hq hqsource hqday
      hid reason hreason => hran.undisputed hcovers hfield hrow hq hqsource hqday hid hreason⟩
  · intro hall
    have hnew := hall.onlyNew
    refine ⟨hran.perm_iff.2 hnew, ?_, ?_, ?_, hran.counted hnew, ?_⟩
    · exact fun source field hfield x hx reason => hran.covered hall hfield hx
    · exact fun source x hx hday hnot q hq hkey => hran.spared hnew hx hday hnot hq hkey
    · intro source row hrow
      obtain ⟨field, hfield⟩ := field_of_reconciled hrow
      obtain ⟨⟨before, after, heq⟩, hid⟩ := split_of_reconciled hfield hrow
      exact ((hnew source field hfield before row after heq).1 hid).1.1
    · have hle := (reconcileAll_counts hran.reconciled).2
      dsimp only at hle
      omega

end Covers

/-! ### The prices page, with and without a campaign -/

/-- What GA4 reports of the page, and nothing from the other sources. -/
def pricingPayloads (campaign : String) : Source → List Row
  | .ga4 => parseResponse plainRuntime
      [⟨[.str "/pricing", .str campaign], [.int 40, .int 30, .int 5]⟩]
  | _ => []

def newWarehouse : Warehouse := ⟨fun _ => emptyTable, .empty, [⟨"summer", some "campaign", none⟩]⟩

/-- Without a campaign it is reconciled nevertheless, and quarantined for having none. -/
theorem noCampaign_quarantined : ∃ W' ingested counts,
    nightlyPipeline plainRuntime 0 (pricingPayloads "(not set)") newWarehouse =
      (W', .ok (ingested, counts)) ∧
    counts = ⟨1, 1⟩ ∧ W'.quarantine.rows = [⟨.ga4, 0, "/pricing", none, "missing_utm_campaign"⟩] ∧
    ¬ Covers plainRuntime 0 (pricingPayloads "(not set)") newWarehouse W' counts := by
  refine ⟨_, _, _, rfl, rfl, rfl, fun hcovers => ?_⟩
  have hspared := hcovers.spared .ga4 _ List.mem_cons_self rfl (by decide +kernel) _
    List.mem_cons_self (by decide +kernel)
  exact absurd hspared List.not_mem_nil

/-- With one that is not mapped it is covered. -/
theorem winter_covered : ∃ W' ingested counts,
    nightlyPipeline plainRuntime 0 (pricingPayloads "winter") newWarehouse =
      (W', .ok (ingested, counts)) ∧
    Covers plainRuntime 0 (pricingPayloads "winter") newWarehouse W' counts := by
  refine ⟨_, _, _, rfl, (covers_iff rfl).2 ⟨?_, fun _ _ _ _ _ q hq => absurd hq List.not_mem_nil⟩⟩
  intro source field hfield before row after heq
  cases source with
  | ga4 =>
    obtain rfl := Option.some.inj hfield
    obtain ⟨rfl, hrow⟩ : before = [] ∧ (pricingPayloads "winter" .ga4).head? = some row := by
      cases before with
      | nil => exact ⟨rfl, by rw [heq]; rfl⟩
      | cons r before =>
        exact absurd (congrArg List.length heq) (by simp [pricingPayloads, parseResponse])
    have hisNew : IsNew .ga4 0 emptyTable [] row :=
      ⟨fun x hx => absurd hx List.not_mem_nil, fun r hr => absurd hr List.not_mem_nil⟩
    obtain rfl := Option.some.inj hrow
    exact ⟨fun _ => ⟨hisNew, by decide +kernel⟩, fun _ => by decide +kernel⟩
  | searchConsole => cases hfield
  | buffer | linkedin => exact absurd (congrArg List.length heq) (by simp [pricingPayloads])

end CanvasOS.Analytics
