/-
  The nightly rollups of engagement and reliability (`analytics_ingest/rollup.py`), and the export
  of a day (`fabric_export.py`).

  1. `FactTables`, `KpiTables` — what the rollups read, and what they upsert into; a KPI table has
     one row for each key.
  2. `rollupEngagementByArchetype`, `rollupPublishingReliability` — one upsert for each group that
     has impressions, and for each channel that has posts scheduled.
  3. `Exports` — a day's rows in the order of the export.
  4. `refreshed_iff` — running the rollups again leaves what they would have made of empty tables if
     and only if no group with a row has since gone.
-/
import CanvasOS.Lib.Upsert
import CanvasOS.Metering.CostPerAsset

namespace CanvasOS.Analytics

open Upsert

/-! ## The tables -/

/-- A row of `buffer_post_metrics` or of `linkedin_metrics`; the id it is stored under plays no part
    here. -/
structure PostMetrics where
  source : String
  day : Int
  postArchetype : Option String
  impressions : Option Int
  reactions : Option Int
  comments : Option Int
  shares : Option Int
  clicks : Option Int
deriving DecidableEq

/-- A row of `scheduled_posts`. -/
structure ScheduledPosts where
  day : Int
  channel : String
  scheduledCount : Int
deriving DecidableEq

structure FactTables where
  bufferPostMetrics : List PostMetrics
  linkedinMetrics : List PostMetrics
  scheduledPosts : List ScheduledPosts

/-- A row of `kpi_rollup_engagement_by_archetype`.  The rate is a `numeric(10, 6)`, a whole number
    of millionths. -/
structure EngagementRow where
  day : Int
  kpiName : String
  source : String
  postArchetype : String
  engagementRate : Int
  postCount : Nat
deriving DecidableEq

/-- `UNIQUE (day, kpi_name, source, post_archetype)` -/
def EngagementRow.key (row : EngagementRow) : Int × String × String × String :=
  (row.day, row.kpiName, row.source, row.postArchetype)

/-- A row of `kpi_rollup_publishing_reliability`, its rate in millionths. -/
structure ReliabilityRow where
  day : Int
  kpiName : String
  channel : String
  scheduledCount : Int
  publishedCount : Nat
  reliabilityRate : Int
deriving DecidableEq

/-- `UNIQUE (day, kpi_name, channel)` -/
def ReliabilityRow.key (row : ReliabilityRow) : Int × String × String :=
  (row.day, row.kpiName, row.channel)

/-- A row of `kpi_rollup_vault_utilisation`. -/
structure UtilisationRow where
  day : Int
  kpiName : String
  objectClass : String
  callerService : String
  readCount : Int
deriving DecidableEq

structure KpiTables where
  engagement : Keyed EngagementRow.key
  reliability : Keyed ReliabilityRow.key
  costPerAcceptedAsset : List Metering.KpiRow
  vaultUtilisation : List UtilisationRow

/-- Nothing has been rolled up of engagement and reliability. -/
def KpiTables.cleared (K : KpiTables) : KpiTables :=
  { K with engagement := .empty, reliability := .empty }

/-! ## The rollups -/

/-- The quotients as their columns keep them, the one a division of `numeric`s and the other one of
    floats. -/
structure Rates where
  engagement : Int → Int → Int
  reliability : Nat → Int → Int

/-- The column holds the rate: a `numeric(10, 6)` has four digits before the point. -/
def fits (rate : Int) : Bool := rate.natAbs < 10000000000

/-- Quotients in millionths, rounded half away from zero. -/
def exactRates : Rates where
  engagement num den := Metering.rounded (num * 1000000) den
  reliability num den := Metering.rounded (num * den.sign * 1000000) den.natAbs

/-- `combined` -/
def FactTables.combined (F : FactTables) (day : Int) : List PostMetrics :=
  (F.bufferPostMetrics ++ F.linkedinMetrics).filter fun r => r.day = day

/-- The groups by `(source, post_archetype)` with a `post_archetype`. -/
def FactTables.groups (F : FactTables) (day : Int) : List (String × String) :=
  ((F.combined day).filterMap fun r => r.postArchetype.map fun a => (r.source, a)).dedup

/-- The rows of a group. -/
def FactTables.ofGroup (F : FactTables) (day : Int) (source archetype : String) :
    List PostMetrics :=
  (F.combined day).filter fun r => r.source = source ∧ r.postArchetype = some archetype

/-- `SUM(impressions)`; a sum of NULLs, which is NULL, comes to nothing as well. -/
def sumImpressions (rows : List PostMetrics) : Int := (rows.filterMap PostMetrics.impressions).sum

/-- `SUM(COALESCE(reactions, 0) + COALESCE(comments, 0) + …)` -/
def sumInteractions (rows : List PostMetrics) : Int :=
  (rows.map fun r => r.reactions.getD 0 + r.comments.getD 0 + r.shares.getD 0 + r.clicks.getD 0).sum

/-- The rows the SELECT makes of the groups that have impressions. -/
def engagementRows (A : Rates) (F : FactTables) (day : Int) : List EngagementRow :=
  ((F.groups day).filter fun g => 0 < sumImpressions (F.ofGroup day g.1 g.2)).map fun g =>
    let rows := F.ofGroup day g.1 g.2
    ⟨day, "engagement_rate_by_post_archetype", g.1, g.2,
      A.engagement (sumInteractions rows) (sumImpressions rows), rows.length⟩

/-- `rollup_engagement_by_archetype`: it raises where a rate does not fit its column. -/
def rollupEngagementByArchetype (A : Rates) (F : FactTables) (day : Int)
    (table : Keyed EngagementRow.key) : Option (Keyed EngagementRow.key) :=
  (engagementRows A F day).foldlM (fun table row =>
    if fits row.engagementRate then some (table.upsert row) else none) table

/-- `_CHANNEL_TABLE.get(channel)` -/
def FactTables.ofChannel (F : FactTables) (channel : String) : Option (List PostMetrics) :=
  if channel = "buffer" then some F.bufferPostMetrics
  else if channel = "linkedin" then some F.linkedinMetrics
  else none

/-- The row of a channel, if it has one. -/
def reliabilityRow (A : Rates) (F : FactTables) (day : Int) (s : ScheduledPosts) :
    Option ReliabilityRow :=
  match F.ofChannel s.channel with
  | none => none
  | some table =>
    if s.scheduledCount = 0 then none
    else
      let publishedCount := table.countP fun r => r.day = day
      some ⟨day, "publishing_reliability", s.channel, s.scheduledCount, publishedCount,
        A.reliability publishedCount s.scheduledCount⟩

/-- The rows that are upserted. -/
def reliabilityRows (A : Rates) (F : FactTables) (day : Int) : List ReliabilityRow :=
  (F.scheduledPosts.filter fun s => s.day = day).filterMap (reliabilityRow A F day)

/-- `rollup_publishing_reliability` -/
def rollupPublishingReliability (A : Rates) (F : FactTables) (day : Int)
    (table : Keyed ReliabilityRow.key) : Option (Keyed ReliabilityRow.key) :=
  (reliabilityRows A F day).foldlM (fun table row =>
    if fits row.reliabilityRate then some (table.upsert row) else none) table

/-- Both rollups of a day. -/
def rollups (A : Rates) (F : FactTables) (day : Int) (K : KpiTables) : Option KpiTables := do
  let engagement ← rollupEngagementByArchetype A F day K.engagement
  let reliability ← rollupPublishingReliability A F day K.reliability
  pure { K with engagement := engagement, reliability := reliability }

/-! ## The export -/

/-- The export of a day. -/
structure FabricExport where
  day : Int
  generatedAt : String
  engagementByArchetype : List EngagementRow
  publishingReliability : List ReliabilityRow
  costPerAcceptedAsset : List Metering.KpiRow
  vaultUtilisation : List UtilisationRow

/-- How the database orders texts, and what the schema accepts. -/
structure ExportSettings where
  lt : String → String → Bool
  validates : FabricExport → Bool

/-- `a` comes before `b`, column by column. -/
def columnsLt (lt : String → String → Bool) : List String → List String → Bool
  | [], [] => false
  | [], _ :: _ => true
  | _ :: _, [] => false
  | a :: as, b :: bs => lt a b || (!lt b a && columnsLt lt as bs)

/-- `listed` is a `SELECT … ORDER BY columns` of these rows. -/
def Selects {ρ : Type} (S : ExportSettings) (columns : ρ → List String) (rows : List ρ)
    (listed : List ρ) : Prop :=
  listed.Perm rows ∧ listed.Pairwise fun a b => columnsLt S.lt (columns b) (columns a) = false

/-- `export_fabric_day` can return this export. -/
structure Exports (S : ExportSettings) (day : Int) (K : KpiTables) (out : FabricExport) : Prop where
  ofDay : out.day = day
  engagement : Selects S (fun r => [r.source, r.postArchetype])
    (K.engagement.rows.filter fun r => r.day = day) out.engagementByArchetype
  reliability : Selects S (fun r => [r.channel])
    (K.reliability.rows.filter fun r => r.day = day) out.publishingReliability
  cost : Selects S (fun r => [r.agentName])
    (K.costPerAcceptedAsset.filter fun r => r.day = day) out.costPerAcceptedAsset
  utilisation : Selects S (fun r => [r.objectClass, r.callerService])
    (K.vaultUtilisation.filter fun r => r.day = day) out.vaultUtilisation
  validates : S.validates out = true

/-! ## What is promised -/

/-- Two states of the KPI tables have the same rows for a day, and the same exports. -/
structure SameDay (day : Int) (K K' : KpiTables) : Prop where
  engagement : ∀ row : EngagementRow, row.day = day →
    (row ∈ K.engagement.rows ↔ row ∈ K'.engagement.rows)
  reliability : ∀ row : ReliabilityRow, row.day = day →
    (row ∈ K.reliability.rows ↔ row ∈ K'.reliability.rows)
  exports : ∀ S out, Exports S day K out ↔ Exports S day K' out

/-- What the rollups left is what they would have made of empty tables. -/
def Refreshed (A : Rates) (F : FactTables) (day : Int) (K' K : KpiTables) : Prop :=
  ∃ fresh, rollups A F day K.cleared = some fresh ∧ SameDay day K' fresh

/-- Every row of the day is of a group that still has impressions, or of a channel that still has
    posts scheduled. -/
structure NoneGone (F : FactTables) (day : Int) (K : KpiTables) : Prop where
  engagement : ∀ row ∈ K.engagement.rows, row.day = day →
    row.kpiName = "engagement_rate_by_post_archetype" ∧
      0 < sumImpressions (F.ofGroup day row.source row.postArchetype)
  reliability : ∀ row ∈ K.reliability.rows, row.day = day →
    row.kpiName = "publishing_reliability" ∧ (row.channel = "buffer" ∨ row.channel = "linkedin") ∧
      ∃ s ∈ F.scheduledPosts, s.day = day ∧ s.channel = row.channel ∧ s.scheduledCount ≠ 0

/-! ## The rows that are upserted -/

section Rows

variable {A : Rates} {F : FactTables} {day : Int} {K K' : KpiTables}

/-- A group with impressions has a row. -/
theorem mem_groups {source archetype : String}
    (h : 0 < sumImpressions (F.ofGroup day source archetype)) :
    (source, archetype) ∈ F.groups day := by
  cases hrows : F.ofGroup day source archetype with
  | nil =>
    rw [hrows] at h
    exact absurd h (by decide)
  | cons r rows =>
    have hr : r ∈ F.ofGroup day source archetype := by
      rw [hrows]
      exact List.mem_cons_self
    obtain ⟨hcombined, hgroup⟩ := List.mem_filter.1 hr
    obtain ⟨rfl, harchetype⟩ := of_decide_eq_true hgroup
    refine List.mem_dedup.2 (List.mem_filterMap.2 ⟨r, hcombined, ?_⟩)
    rw [harchetype]
    rfl

/-- The keys of the engagement rows. -/
theorem engagementKey_iff (row : EngagementRow) (hday : row.day = day) :
    row.key ∈ (engagementRows A F day).map EngagementRow.key ↔
      row.kpiName = "engagement_rate_by_post_archetype" ∧
        0 < sumImpressions (F.ofGroup day row.source row.postArchetype) := by
  unfold engagementRows EngagementRow.key
  simp only [List.map_map, List.mem_map, List.mem_filter, decide_eq_true_eq, Function.comp,
    Prod.mk.injEq]
  constructor
  · rintro ⟨⟨source, archetype⟩, ⟨-, hpos⟩, -, hname, rfl, rfl⟩
    exact ⟨hname.symm, hpos⟩
  · rintro ⟨hname, hpos⟩
    exact ⟨(row.source, row.postArchetype), ⟨mem_groups hpos, hpos⟩, hday.symm, hname.symm, rfl,
      rfl⟩

theorem ofChannel_isSome {channel : String} :
    (F.ofChannel channel).isSome ↔ channel = "buffer" ∨ channel = "linkedin" := by
  unfold FactTables.ofChannel
  split
  · simp [*]
  · split
    · simp [*]
    · simp [*]

/-- The keys of the reliability rows. -/
theorem reliabilityKey_iff (row : ReliabilityRow) (hday : row.day = day) :
    row.key ∈ (reliabilityRows A F day).map ReliabilityRow.key ↔
      row.kpiName = "publishing_reliability" ∧ (row.channel = "buffer" ∨ row.channel = "linkedin") ∧
        ∃ s ∈ F.scheduledPosts, s.day = day ∧ s.channel = row.channel ∧ s.scheduledCount ≠ 0 := by
  unfold reliabilityRows
  simp only [List.mem_map, List.mem_filterMap, List.mem_filter, decide_eq_true_eq]
  constructor
  · rintro ⟨row', ⟨s, ⟨hs, hsday⟩, hrow⟩, hkey⟩
    unfold reliabilityRow at hrow
    split at hrow
    · cases hrow
    · rename_i table htable
      split at hrow
      · cases hrow
      · rename_i hcount
        obtain rfl := Option.some.inj hrow
        simp only [ReliabilityRow.key, Prod.mk.injEq] at hkey
        obtain ⟨-, hname, hchannel⟩ := hkey
        have hknown : (F.ofChannel s.channel).isSome := by
          rw [htable]
          rfl
        rw [← hchannel]
        exact ⟨hname.symm, ofChannel_isSome.1 hknown, s, hs, hsday, rfl, hcount⟩
  · rintro ⟨hname, hchannel, s, hs, hsday, hsame, hcount⟩
    obtain ⟨table, htable⟩ := Option.isSome_iff_exists.1 (ofChannel_isSome (F := F).2 hchannel)
    rw [← hsame] at htable
    refine ⟨⟨day, "publishing_reliability", s.channel, s.scheduledCount,
      table.countP fun r => r.day = day,
      A.reliability (table.countP fun r => r.day = day) s.scheduledCount⟩, ⟨s, ⟨hs, hsday⟩, ?_⟩, ?_⟩
    · unfold reliabilityRow
      rw [htable]
      exact if_neg hcount
    · simp only [ReliabilityRow.key, Prod.mk.injEq]
      exact ⟨hday.symm, hname.symm, hsame⟩

/-! ## A run -/

/-- A run that ends has upserted all rows. -/
theorem foldlM_upsert {ρ κ : Type} [DecidableEq κ] {key : ρ → κ} {value : ρ → Int} {rows : List ρ}
    {t t' : Keyed key} : rows.foldlM (fun table row =>
      if fits (value row) then some (Keyed.upsert table row) else none) t = some t' ↔
    (∀ row ∈ rows, fits (value row) = true) ∧ t' = rows.foldl Keyed.upsert t := by
  induction rows generalizing t with
  | nil =>
    constructor
    · intro h
      exact ⟨fun _ hr => absurd hr List.not_mem_nil, (Option.some.inj h).symm⟩
    · rintro ⟨-, rfl⟩
      rfl
  | cons row rows ih =>
    rw [List.foldlM_cons]
    by_cases hfits : fits (value row) = true
    · rw [if_pos hfits]
      show List.foldlM _ (Keyed.upsert t row) rows = some t' ↔ _
      rw [ih, List.foldl_cons, List.forall_mem_cons]
      simp [hfits]
    · rw [if_neg hfits]
      simp [hfits]

/-- What a run leaves of the rows. -/
theorem rollups_eq_some : rollups A F day K = some K' ↔
    ((∀ row ∈ engagementRows A F day, fits row.engagementRate = true) ∧
      ∀ row ∈ reliabilityRows A F day, fits row.reliabilityRate = true) ∧
    K' = { K with
      engagement := (engagementRows A F day).foldl Keyed.upsert K.engagement
      reliability := (reliabilityRows A F day).foldl Keyed.upsert K.reliability } := by
  unfold rollups rollupEngagementByArchetype rollupPublishingReliability
  simp only [Option.bind_eq_bind, Option.bind_eq_some_iff, foldlM_upsert]
  constructor
  · rintro ⟨e, ⟨he, rfl⟩, r, ⟨hr, rfl⟩, heq⟩
    exact ⟨⟨he, hr⟩, (Option.some.inj heq).symm⟩
  · rintro ⟨⟨he, hr⟩, rfl⟩
    exact ⟨_, ⟨he, rfl⟩, _, ⟨hr, rfl⟩, rfl⟩

end Rows

/-! ## When the rollups refresh a day -/

section Refresh

variable {ρ κ : Type} [DecidableEq κ] {key : ρ → κ} {t : Keyed key} {new : List ρ}

/-- A batch leaves of some rows what it would have made of an empty table exactly if it has the keys
    of all of them. -/
theorem refreshed_table_iff (t : Keyed key) (new : List ρ) (p : ρ → Prop) :
    (∀ r, p r → (r ∈ (new.foldl Keyed.upsert t).rows ↔
      r ∈ (new.foldl Keyed.upsert (Keyed.empty : Keyed key)).rows)) ↔
    ∀ r ∈ t.rows, p r → key r ∈ new.map key := by
  constructor
  · intro h r hr hp
    by_contra hnot
    have hfresh := (h r hp).1 (Keyed.mem_foldl_upsert.2 (.inr ⟨hr, hnot⟩))
    exact hnot (Keyed.key_of_mem_foldl hfresh)
  · intro h r hp
    rw [Keyed.mem_foldl_upsert]
    constructor
    · rintro (hr | ⟨hr, hnot⟩)
      · exact hr
      · exact absurd (h r hr hp) hnot
    · exact fun hr => .inl hr

omit [DecidableEq κ] in
/-- The same rows of a day can be listed in the same ways. -/
theorem selects_of_same {S : ExportSettings} {columns : ρ → List String} {t t' : Keyed key}
    {p : ρ → Bool} (h : ∀ r, p r = true → (r ∈ t.rows ↔ r ∈ t'.rows)) {listed : List ρ}
    (hs : Selects S columns (t.rows.filter p) listed) :
    Selects S columns (t'.rows.filter p) listed := by
  refine ⟨hs.1.trans ?_, hs.2⟩
  have hnodup (t : Keyed key) : (t.rows.filter p).Nodup :=
    (List.Nodup.of_map key t.unique).filter p
  refine (List.perm_ext_iff_of_nodup (hnodup t) (hnodup t')).2 fun r => ?_
  rw [List.mem_filter, List.mem_filter]
  exact and_congr_left fun hp => h r hp

end Refresh

/-- Where the rollups have been run, for whatever facts and over whatever earlier rows: the day's
    rows and its exports are those of the same run over empty tables if and only if no group and no
    channel with a row is gone. -/
theorem refreshed_iff {A : Rates} {F : FactTables} {day : Int} {K K' : KpiTables}
    (h : rollups A F day K = some K') : Refreshed A F day K' K ↔ NoneGone F day K := by
  obtain ⟨hfits, rfl⟩ := rollups_eq_some.1 h
  have hengagement := refreshed_table_iff K.engagement (engagementRows A F day)
    fun row => row.day = day
  have hreliability := refreshed_table_iff K.reliability (reliabilityRows A F day)
    fun row => row.day = day
  constructor
  · rintro ⟨fresh, hfresh, hsame⟩
    obtain ⟨-, rfl⟩ := rollups_eq_some.1 hfresh
    refine ⟨fun row hrow hday => ?_, fun row hrow hday => ?_⟩
    · exact (engagementKey_iff row hday).1 (hengagement.1 hsame.engagement row hrow hday)
    · exact (reliabilityKey_iff row hday).1 (hreliability.1 hsame.reliability row hrow hday)
  · intro hgone
    have hrows := hengagement.2 fun row hrow hday =>
      (engagementKey_iff row hday).2 (hgone.engagement row hrow hday)
    have hrows' := hreliability.2 fun row hrow hday =>
      (reliabilityKey_iff row hday).2 (hgone.reliability row hrow hday)
    refine ⟨_, rollups_eq_some.2 ⟨hfits, rfl⟩, hrows, hrows', fun S out => ⟨fun hout => ?_,
      fun hout => ?_⟩⟩
    · exact ⟨hout.ofDay,
        selects_of_same (fun r hp => hrows r (of_decide_eq_true hp)) hout.engagement,
        selects_of_same (fun r hp => hrows' r (of_decide_eq_true hp)) hout.reliability,
        hout.cost, hout.utilisation, hout.validates⟩
    · exact ⟨hout.ofDay,
        selects_of_same (fun r hp => (hrows r (of_decide_eq_true hp)).symm) hout.engagement,
        selects_of_same (fun r hp => (hrows' r (of_decide_eq_true hp)).symm) hout.reliability,
        hout.cost, hout.utilisation, hout.validates⟩

/-! ### A group that loses its impressions -/

/-- The metrics of one post, with these impressions. -/
def onePost (impressions : Option Int) : FactTables where
  bufferPostMetrics :=
    [⟨"buffer", 0, some "how-to", impressions, some 5, some 1, none, some 1⟩]
  linkedinMetrics := []
  scheduledPosts := [⟨0, "buffer", 2⟩]

def nothingRolledUp : KpiTables := ⟨.empty, .empty, [], []⟩

/-- The post was seen a hundred times, and half of the posts came out. -/
def onePostRolledUp : KpiTables where
  engagement := Keyed.empty.upsert
    ⟨0, "engagement_rate_by_post_archetype", "buffer", "how-to", 70000, 1⟩
  reliability := Keyed.empty.upsert ⟨0, "publishing_reliability", "buffer", 2, 1, 500000⟩
  costPerAcceptedAsset := []
  vaultUtilisation := []

/-- It is rolled up, then its impressions are taken back, and the next run of the same day leaves
    the old rate where it was. -/
theorem takenBack_left :
    rollups exactRates (onePost (some 100)) 0 nothingRolledUp = some onePostRolledUp ∧
      rollups exactRates (onePost none) 0 onePostRolledUp = some onePostRolledUp ∧
      ¬ Refreshed exactRates (onePost none) 0 onePostRolledUp onePostRolledUp := by
  refine ⟨rfl, rfl, ?_⟩
  rintro ⟨fresh, hfresh, hsame⟩
  have hnone : fresh.engagement.rows = [] := by
    rw [← Option.some.inj hfresh]
    rfl
  have hrow := (hsame.engagement _ rfl).1 List.mem_cons_self
  rw [hnone] at hrow
  exact absurd hrow List.not_mem_nil

/-- The same post again, seen twice as often: its rows are refreshed. -/
theorem seenAgain_refreshed : ∃ K', rollups exactRates (onePost (some 200)) 0 onePostRolledUp =
    some K' ∧ Refreshed exactRates (onePost (some 200)) 0 K' onePostRolledUp := by
  refine ⟨_, rfl, (refreshed_iff rfl).2 ⟨fun row hrow _ => ?_, fun row hrow _ => ?_⟩⟩
  · obtain rfl := List.mem_singleton.1 hrow
    exact ⟨rfl, by decide +kernel⟩
  · obtain rfl := List.mem_singleton.1 hrow
    exact ⟨rfl, .inl rfl, _, List.mem_cons_self, rfl, rfl, by decide⟩

end CanvasOS.Analytics
