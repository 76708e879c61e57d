/-
  What the passes of the daily loop remember through Vault's `signals`: `source_lifecycle.py`, and
  the two monthly reviews that gate themselves the same way.

  1. `nextDueIn` — the due check of the three passes: the newest marker on the page.
  2. `retiredSourceUrls`, `bootstrapCandidatePool` — what is excluded from a pool of candidates.
  3. `retireSource` — the loop of the retire pass: one source after the other.
  4. `Memory`, `Event` — the table, the real passes and the pools formed, through a history of runs
     with any rows of other writers in between.
  5. `Memory.step_keeps`, `neverForgets` — where each run still finds the records it asks for among
     the newest 500 rows, the passes keep their distance and no pool has a retired source.
-/
import CanvasOS.Signals.Yield

namespace CanvasOS.Signals

open Python Review

/-! ## The due check -/

/-- The passes that gate themselves. -/
inductive LifecyclePass where
  /-- `source_retire_handler` -/
  | retire
  /-- `web_reach_allowlist_monthly_review_handler` -/
  | allowlistReview
  /-- `decision_quality_level_review_monthly_handler` -/
  | levelReview
deriving DecidableEq

/-- `RETIRE_PASS_MARKER_TYPE` and its siblings. -/
def LifecyclePass.markerType : LifecyclePass → String
  | .retire => "source_retire_pass_marker"
  | .allowlistReview => "allowlist_review_pass_marker"
  | .levelReview => "decision_quality_level_review_pass_marker"

/-- `RETIRE_PASS_MIN_DAYS` and its siblings. -/
def LifecyclePass.minDays : LifecyclePass → Int
  | .retire => 28
  | .allowlistReview => 60
  | .levelReview => 30

/-- The one figure that the marker's payload reports. -/
def LifecyclePass.countKey : LifecyclePass → String
  | .retire => "retired_count"
  | .allowlistReview => "proposed_revert_count"
  | .levelReview => "demoted_count"

/-- The loop over `recent`: `last_pass_at`. -/
def lastPassAt (kind : LifecyclePass) (recent : List SignalRow) : Option Time :=
  recent.foldl (fun last row =>
    if row.signalType = kind.markerType then
      some (last.elim row.receivedAt (max row.receivedAt))
    else last) none

/-- `next_due_in_days`, where the pass is `not_due`; `none` lets it run. -/
def nextDueIn (kind : LifecyclePass) (recent : List SignalRow) (now : Time) : Option Int :=
  (lastPassAt kind recent).bind fun last =>
    if (now - last) / day < kind.minDays then some (kind.minDays - (now - last) / day) else none

/-! ## Pools of candidates -/

/-- `RETIRED_SOURCE_SIGNAL_TYPE`. -/
def retiredSourceSignalType : String := "source_retired"

/-- `PROBE_BATCH_TYPE`. -/
def probeBatchType : String := "source_probe_batch"

/-- The URL that a row records as retired. -/
def retiredUrl (row : SignalRow) : Option String :=
  if row.signalType = retiredSourceSignalType ∧ (Json.get row.payload "url").truthy = true then
    some (pyStr (Json.get row.payload "url"))
  else none

/-- `_retired_source_urls`, of the page it lists. -/
def retiredSourceUrls (page : List SignalRow) : List String := page.filterMap retiredUrl

/-- `SIGNAL_CLASS_BOOTSTRAP_PROFILE_KEYS.get(signal_class, [])`. -/
def bootstrapProfileKeys (signalClass : String) : List String :=
  if signalClass = "competitors" then
    ["competitor-discovery", "competitor-change", "competitor-content"]
  else if signalClass = "microsoft-fabric-power-bi" then
    ["pricing-packaging", "new-product-scout", "microsoft-ecosystem"]
  else if signalClass = "adjacent-technology-industry-trends-regulation" then
    ["adjacent-technology", "industry-trends", "regulatory"]
  else if signalClass = "tenders-events-partners" then
    ["tenders-rfp", "events-conferences", "partner-channel"]
  else []

/-- `SCAN_PROFILE_SIGNAL_CLASS.get(profile_id)`. -/
def scanProfileSignalClass (profileId : String) : Option String :=
  if profileId ∈ ["market-intelligence", "fabric-ecosystem"] then
    some "microsoft-fabric-power-bi"
  else if profileId ∈ ["competitor-discovery", "competitor-change", "competitive-positioning",
      "competitor-content-performance"] then some "competitors"
  else if profileId ∈ ["vertical-logistics-fleet", "vertical-mining-industrial",
      "vertical-manufacturing", "vertical-construction", "vertical-fmcg-beverage",
      "vertical-financial-services"] then some "adjacent-technology-industry-trends-regulation"
  else none

/-- What a pool is formed from, the table of signals apart. -/
structure Sources where
  unicode : Unicode
  /-- `urlparse(url).hostname` -/
  hostname : String → Option String
  /-- `permission_check.registered_names()` -/
  registered : List String
  /-- the bootstrap file: `options` and `also_verified` of the profile of a key, in this order -/
  bootstrap : String → Option (List Object)

/-- The URL of a bootstrap entry: `url`, or `feed_url`, or its first item. -/
def candidateUrl (raw : Object) : String :=
  if (Json.get raw "url").truthy then pyStr (Json.get raw "url")
  else match Json.get raw "feed_url" with
    | .str feed => feed
    | .arr (feed :: _) => pyStr feed
    | _ => ""

/-- An entry of a pool, as far as exclusion goes. -/
structure Candidate where
  url : String
  domain : String
deriving DecidableEq

/-- `_client_domain_excluded`. -/
def clientDomainExcluded (W : Sources) (domain : String) : Bool :=
  W.registered.any fun name =>
    contains (W.unicode.lower name.toList) (W.unicode.lower domain.toList)

/-- What becomes of one bootstrap entry. -/
def candidateOf (W : Sources) (exclude : List String) (raw : Object) : Option Candidate :=
  let url := candidateUrl raw
  if ¬ "https://".toList <+: url.toList ∨ url ∈ exclude then none
  else
    let domain := lowered W.unicode ((W.hostname url).getD "")
    if domain = "" ∨ clientDomainExcluded W domain = true then none else some ⟨url, domain⟩

/-- The entries of all the profiles that a signal class maps to. -/
def Sources.entries (W : Sources) (signalClass : String) : List Object :=
  (bootstrapProfileKeys signalClass).flatMap fun key => (W.bootstrap key).getD []

/-- The first candidate of each URL. -/
def dedupeByUrl : (seen : List String) → List Candidate → List Candidate
  | _, [] => []
  | seen, item :: pool =>
    if item.url ∈ seen then dedupeByUrl seen pool
    else item :: dedupeByUrl (item.url :: seen) pool

/-- `_bootstrap_candidate_pool`. -/
def bootstrapCandidatePool (W : Sources) (signalClass : String) (exclude : List String) :
    List Candidate :=
  (dedupeByUrl [] ((W.entries signalClass).filterMap (candidateOf W exclude))).take 9

/-! ## The retire pass -/

/-- How far the pass gets with a source that is up for retirement and has a replacement. -/
inductive Progress where
  /-- an exception before the probe batch is recorded -/
  | lost
  /-- an exception behind the probe batch, recorded at this time -/
  | lostAfter (probedAt : Time)
  /-- the model names fewer than two candidates -/
  | tooFew (probedAt : Time)
  /-- the card is there, and the record of the retirement -/
  | carded (probedAt : Time) (cardId : String) (recordedAt : Time)

/-- A live source, as the retire pass comes to it. -/
structure LiveSource where
  profileId : String
  url : String
  progress : Progress

/-- What a retire pass reads besides Vault. -/
structure RetireWorld extends Sources where
  /-- the URLs of the scan profiles, profile by profile -/
  live : List LiveSource
  /-- `_expired_provisional_urls` -/
  expired : List String
  /-- the database's clock when the marker is written -/
  endedAt : Time

/-- The table, the real passes so far and the pools formed so far, the latest first; a pool with the
    table that it was formed over. -/
structure Memory where
  table : List SignalRow
  passes : LifecyclePass → List Time
  pools : List (List SignalRow × List Candidate)

def Memory.write (s : Memory) (row : SignalRow) : Memory := { s with table := row :: s.table }

def Memory.formed (s : Memory) (pool : List Candidate) : Memory :=
  { s with pools := (s.table, pool) :: s.pools }

def Memory.page (s : Memory) : List SignalRow := listSignals lifecycleSignalLookback s.table

/-- The loop state of the retire pass: `exclude_urls` and `len(retired_this_pass)` beside Vault. -/
structure Retiring where
  memory : Memory
  exclude : List String
  retired : Nat

/-- The probe batch of a pool. -/
def probeBatch (signalClass url : String) (pool : List Candidate) (stamp : Time) : SignalRow :=
  ⟨probeBatchType, [("signal_class", .str signalClass),
    ("candidates", .arr (pool.map fun c => .obj [("url", .str c.url), ("domain", .str c.domain)])),
    ("retiring_source_url", .str url)], stamp⟩

/-- The record of a retirement. -/
def retirement (source : LiveSource) (cardId : String) (floorBreached : Bool) (stamp : Time) :
    SignalRow :=
  ⟨retiredSourceSignalType, [("url", .str source.url), ("profile_id", .str source.profileId),
    ("retire_card_id", .str cardId),
    ("reason", .str (if floorBreached then "yield_floor" else "provisional_expired"))], stamp⟩

/-- The marker of a pass. -/
def marker (kind : LifecyclePass) (count : Nat) (stamp : Time) : SignalRow :=
  ⟨kind.markerType, [(kind.countKey, .int count)], stamp⟩

/-- The body of the loop; the flag says that no exception was raised. -/
def retireSource (W : RetireWorld) (recent : List SignalRow) (s : Retiring) (source : LiveSource) :
    Retiring × Bool :=
  let floorBreached := unreachableFloor ((yieldHistory recent source.url).getD [])
  if !floorBreached && !(source.url ∈ W.expired) then (s, true)
  else match scanProfileSignalClass source.profileId with
    | none => (s, true)
    | some signalClass =>
      let pool := bootstrapCandidatePool W.toSources signalClass (source.url :: s.exclude)
      let formed := s.memory.formed pool
      -- a retirement always carries a replacement
      if pool = [] then ({ s with memory := formed }, true)
      else match source.progress with
        | .lost => ({ s with memory := formed }, false)
        | .lostAfter probedAt =>
          let probed := formed.write (probeBatch signalClass source.url pool probedAt)
          ({ s with memory := probed }, false)
        | .tooFew probedAt =>
          let probed := formed.write (probeBatch signalClass source.url pool probedAt)
          ({ s with memory := probed }, true)
        | .carded probedAt cardId recordedAt =>
          let probed := formed.write (probeBatch signalClass source.url pool probedAt)
          (⟨probed.write (retirement source cardId floorBreached recordedAt),
            source.url :: s.exclude, s.retired + 1⟩, true)

/-- The loop over the sources, up to the first exception. -/
def retireSources (W : RetireWorld) (recent : List SignalRow) :
    Retiring → List LiveSource → Retiring × Bool
  | s, [] => (s, true)
  | s, source :: rest =>
    match retireSource W recent s source with
    | (s, true) => retireSources W recent s rest
    | (s, false) => (s, false)

/-- A real retire pass: the rows it writes, the marker last. -/
def retireWork (W : RetireWorld) (s : Memory) : Memory :=
  -- a malformed row on the page ends the pass before the loop
  match s.page.mapM (checksIn "") with
  | none => s
  | some _ =>
    let start : Retiring := ⟨s, W.live.map (·.url) ++ retiredSourceUrls s.page, 0⟩
    match retireSources W s.page start W.live with
    | (done, true) => done.memory.write (marker .retire done.retired W.endedAt)
    | (done, false) => done.memory

/-! ## Histories -/

/-- The check, and the real pass behind it. -/
def Memory.run (s : Memory) (kind : LifecyclePass) (now : Time) (work : Memory → Memory) : Memory :=
  match nextDueIn kind s.page now with
  | some _ => s
  | none =>
    let done := work s
    { done with passes := fun k => if k = kind then now :: s.passes k else s.passes k }

/-- The one row that a monthly review writes: its marker, unless an exception comes before it. -/
def reviewWork (kind : LifecyclePass) (outcome : Option (Nat × Time)) (s : Memory) : Memory :=
  match outcome with
  | some (count, endedAt) => s.write (marker kind count endedAt)
  | none => s

/-- What happens to the table of signals. -/
inductive Event where
  /-- somebody writes a row, of any type -/
  | wrote (row : SignalRow)
  /-- a discovery or an allow-list review forms its pool -/
  | pooled (W : Sources) (signalClass : String) (live : List String)
  /-- a run of `source_retire_handler` -/
  | sourceRetire (now : Time) (W : RetireWorld)
  /-- a run of `web_reach_allowlist_monthly_review_handler` -/
  | allowlistReview (now : Time) (outcome : Option (Nat × Time))
  /-- a run of `decision_quality_level_review_monthly_handler` -/
  | levelReview (now : Time) (outcome : Option (Nat × Time))

def Memory.step (s : Memory) : Event → Memory
  | .wrote row => s.write row
  | .pooled W signalClass live =>
    s.formed (bootstrapCandidatePool W signalClass (live ++ retiredSourceUrls s.page))
  | .sourceRetire now W => s.run .retire now (retireWork W)
  | .allowlistReview now outcome => s.run .allowlistReview now (reviewWork .allowlistReview outcome)
  | .levelReview now outcome => s.run .levelReview now (reviewWork .levelReview outcome)

/-- A history, the latest event first. -/
def memoryAfter : List Event → Memory
  | [] => ⟨[], fun _ => [], []⟩
  | e :: es => (memoryAfter es).step e

/-- No pool has a URL that its table recorded as retired. -/
def Memory.Fresh (s : Memory) : Prop :=
  ∀ formed ∈ s.pools, ∀ c ∈ formed.2, c.url ∉ retiredSourceUrls formed.1

/-- The passes of each kind are their own minimum apart, and no pool has a retired source. -/
structure NeverForgets (s : Memory) : Prop where
  apart : ∀ kind, (s.passes kind).Pairwise fun later earlier =>
    kind.minDays * day ≤ later - earlier
  fresh : s.Fresh

/-- If the last real pass is not old enough, its marker is on the page. -/
def Memory.SeesMarker (s : Memory) (kind : LifecyclePass) (now : Time) : Prop :=
  ∀ last ∈ (s.passes kind).head?, (now - last) / day < kind.minDays →
    ∃ row ∈ s.page, row.signalType = kind.markerType ∧ last ≤ row.receivedAt

/-- The bootstrap file offers the URL to pools of the class. -/
def Sources.Offers (W : Sources) (signalClass url : String) : Prop :=
  ∃ raw ∈ W.entries signalClass, candidateUrl raw = url

/-- What is recorded as retired, is not live and is offered to the class has its record on the
    page. -/
def Memory.SeesRetired (s : Memory) (W : Sources) (signalClass : String) (live : List String) :
    Prop :=
  ∀ url ∈ retiredSourceUrls s.table, url ∉ live → W.Offers signalClass url →
    url ∈ retiredSourceUrls s.page

/-- The event finds the records it asks for. -/
def Event.finds (s : Memory) : Event → Prop
  | .wrote _ => True
  | .pooled W signalClass live => s.SeesRetired W signalClass live
  | .sourceRetire now W => s.SeesMarker .retire now ∧
    ∀ signalClass, s.SeesRetired W.toSources signalClass (W.live.map (·.url))
  | .allowlistReview now _ => s.SeesMarker .allowlistReview now
  | .levelReview now _ => s.SeesMarker .levelReview now

/-- Every event of the history does. -/
def Remembered : List Event → Prop
  | [] => True
  | e :: es => e.finds (memoryAfter es) ∧ Remembered es

/-! ## The due check finds the marker -/

variable {s : Memory} {kind : LifecyclePass} {now last : Time} {recent page : List SignalRow}
  {row : SignalRow} {W : Sources} {url signalClass : String} {exclude seen live : List String}
  {pool : List Candidate} {c : Candidate} {es : List Event} {e : Event}

/-- The newest marker is no older than any marker on the page. -/
theorem le_lastPassAt (hrow : row ∈ recent) (htype : row.signalType = kind.markerType) :
    ∃ last, lastPassAt kind recent = some last ∧ row.receivedAt ≤ last := by
  -- what stands at the start of the loop is kept or raised, a marker raises it to its own time
  have hloop : ∀ (rows : List SignalRow) (start : Option Time),
      let last := rows.foldl (fun last row =>
        if row.signalType = kind.markerType then
          some (last.elim row.receivedAt (max row.receivedAt))
        else last) start
      (∀ t ∈ start, ∃ u, last = some u ∧ t ≤ u) ∧
        ∀ row ∈ rows, row.signalType = kind.markerType →
          ∃ u, last = some u ∧ row.receivedAt ≤ u := by
    intro rows
    induction rows with
    | nil =>
      refine fun start => ⟨fun t ht => ⟨t, ht, Int.le_refl t⟩, fun row hrow => (nomatch hrow)⟩
    | cons new rows ih =>
      intro start
      dsimp only
      rw [List.foldl_cons]
      obtain ⟨hstart, hrows⟩ := ih (if new.signalType = kind.markerType then
        some (start.elim new.receivedAt (max new.receivedAt)) else start)
      refine ⟨fun t ht => ?_, fun row hrow htype => ?_⟩
      · by_cases hnew : new.signalType = kind.markerType
        · obtain rfl := Option.mem_def.1 ht
          rw [if_pos hnew] at hstart ⊢
          obtain ⟨u, hu, hle⟩ := hstart _ rfl
          exact ⟨u, hu, Int.le_trans (Int.le_max_right _ _) hle⟩
        · rw [if_neg hnew] at hstart ⊢
          exact hstart t ht
      · rcases List.mem_cons.1 hrow with rfl | hrow
        · rw [if_pos htype] at hstart ⊢
          obtain ⟨u, hu, hle⟩ := hstart _ rfl
          refine ⟨u, hu, Int.le_trans ?_ hle⟩
          cases start with
          | none => exact Int.le_refl _
          | some t => exact Int.le_max_left _ _
        · exact hrows row hrow htype
  exact (hloop recent none).2 row hrow htype

/-- A pass that runs and would have seen the marker of the last one comes late enough. -/
theorem minDays_le (hsees : s.SeesMarker kind now) (hdue : nextDueIn kind s.page now = none)
    (hlast : last ∈ (s.passes kind).head?) : kind.minDays * day ≤ now - last := by
  have hdays : ¬ (now - last) / day < kind.minDays := by
    intro hyoung
    obtain ⟨row, hrow, htype, hle⟩ := hsees last hlast hyoung
    obtain ⟨newest, hnewest, hrowle⟩ := le_lastPassAt hrow htype
    have hstill : (now - newest) / day < kind.minDays := by
      refine Int.lt_of_le_of_lt (Int.ediv_le_ediv (by decide) ?_) hyoung
      exact Int.sub_le_sub_left (Int.le_trans hle hrowle) now
    rw [nextDueIn, hnewest, Option.bind_some, if_pos hstill] at hdue
    cases hdue
  exact (Int.le_ediv_iff_mul_le (by decide)).1 (Int.not_lt.1 hdays)

/-- A list that grows at the front by steps of at least `gap` is apart throughout. -/
theorem pairwise_cons_of_head {gap : Int} {times : List Time} (hgap : 0 ≤ gap)
    (htimes : times.Pairwise fun later earlier => gap ≤ later - earlier)
    (hhead : ∀ last ∈ times.head?, gap ≤ now - last) :
    (now :: times).Pairwise fun later earlier => gap ≤ later - earlier := by
  refine List.pairwise_cons.2 ⟨fun earlier hearlier => ?_, htimes⟩
  cases times with
  | nil => cases hearlier
  | cons last times =>
    have hlast : gap ≤ now - last := hhead last rfl
    rcases List.mem_cons.1 hearlier with rfl | hearlier
    · exact hlast
    · have hgap' : gap ≤ last - earlier := (List.pairwise_cons.1 htimes).1 earlier hearlier
      omega

theorem minDays_pos (kind : LifecyclePass) : 0 ≤ kind.minDays * day := by
  cases kind <;> decide

/-! ## A pool has nothing that is excluded -/

theorem mem_of_mem_dedupeByUrl (h : c ∈ dedupeByUrl seen pool) : c ∈ pool := by
  induction pool generalizing seen with
  | nil => cases h
  | cons item pool ih =>
    unfold dedupeByUrl at h
    split at h
    · exact .tail _ (ih h)
    · rcases List.mem_cons.1 h with rfl | h
      · exact .head _
      · exact .tail _ (ih h)

theorem candidateOf_some {raw : Object} (h : candidateOf W exclude raw = some c) :
    candidateUrl raw = c.url ∧ c.url ∉ exclude := by
  unfold candidateOf at h
  dsimp only at h
  split at h
  · cases h
  · next hurl =>
    split at h
    · cases h
    · obtain rfl := (Option.some.inj h).symm
      exact ⟨rfl, fun hmem => hurl (.inr hmem)⟩

/-- What a pool offers comes from the bootstrap file and is not excluded. -/
theorem of_mem_pool (h : c ∈ bootstrapCandidatePool W signalClass exclude) :
    W.Offers signalClass c.url ∧ c.url ∉ exclude := by
  obtain ⟨raw, hraw, hc⟩ := List.mem_filterMap.1 (mem_of_mem_dedupeByUrl (List.mem_of_mem_take h))
  obtain ⟨hurl, hnot⟩ := candidateOf_some hc
  exact ⟨⟨raw, hraw, hurl⟩, hnot⟩

/-! ## What is retired -/

theorem retiredSourceUrls_cons (row : SignalRow) (table : List SignalRow) :
    retiredSourceUrls (row :: table) = (retiredUrl row).toList ++ retiredSourceUrls table := by
  unfold retiredSourceUrls
  rw [List.filterMap_cons]
  cases retiredUrl row <;> rfl

theorem retiredUrl_of_ne (h : row.signalType ≠ retiredSourceSignalType) : retiredUrl row = none :=
  if_neg fun hboth => h hboth.1

theorem retiredUrl_retirement {source : LiveSource} {cardId : String} {floor : Bool} {stamp : Time}
    (h : url ∈ retiredUrl (retirement source cardId floor stamp)) : url = source.url := by
  unfold retiredUrl at h
  split at h
  · exact (Option.some.inj h).symm
  · cases h

/-! ## The loop of the retire pass -/

/-- The loop excludes what is recorded as retired and on offer. -/
structure Retiring.Excludes (W : RetireWorld) (s : Retiring) : Prop where
  fresh : s.memory.Fresh
  excluded : ∀ signalClass, ∀ url ∈ retiredSourceUrls s.memory.table,
    W.toSources.Offers signalClass url → url ∈ s.exclude

theorem Memory.Fresh.formed (h : s.Fresh) (hpool : ∀ c ∈ pool, c.url ∉ retiredSourceUrls s.table) :
    (s.formed pool).Fresh := by
  intro formed hformed c hc
  rcases List.mem_cons.1 hformed with rfl | hformed
  · exact hpool c hc
  · exact h formed hformed c hc

theorem retireSource_keeps {W : RetireWorld} {s : Retiring} (source : LiveSource)
    (h : s.Excludes W) : (retireSource W recent s source).1.Excludes W := by
  unfold retireSource
  dsimp only
  split
  · exact h
  · split
    · exact h
    · next signalClass hclass =>
      -- the pool, and the probe batch behind it
      have hfresh : (s.memory.formed
          (bootstrapCandidatePool W.toSources signalClass (source.url :: s.exclude))).Fresh := by
        refine h.fresh.formed fun c hc hretired => ?_
        obtain ⟨hoffers, hnot⟩ := of_mem_pool hc
        exact hnot (.tail _ (h.excluded signalClass c.url hretired hoffers))
      have hprobe : ∀ (pool : List Candidate) (stamp : Time),
          retiredUrl (probeBatch signalClass source.url pool stamp) = none :=
        fun pool stamp => retiredUrl_of_ne (by show probeBatchType ≠ _; decide)
      split
      · exact ⟨hfresh, h.excluded⟩
      · cases source.progress with
        | lost => exact ⟨hfresh, h.excluded⟩
        | lostAfter probedAt =>
          refine ⟨hfresh, fun signalClass' url hurl => h.excluded signalClass' url ?_⟩
          dsimp only [Memory.write] at hurl
          rwa [retiredSourceUrls_cons, hprobe] at hurl
        | tooFew probedAt =>
          refine ⟨hfresh, fun signalClass' url hurl => h.excluded signalClass' url ?_⟩
          dsimp only [Memory.write] at hurl
          rwa [retiredSourceUrls_cons, hprobe] at hurl
        | carded probedAt cardId recordedAt =>
          refine ⟨hfresh, fun signalClass' url hurl hoffers => ?_⟩
          dsimp only [Memory.write] at hurl
          rw [retiredSourceUrls_cons, retiredSourceUrls_cons, hprobe] at hurl
          rcases List.mem_append.1 hurl with hnew | hurl
          · rw [retiredUrl_retirement (Option.mem_toList.1 hnew)]
            exact .head _
          · exact .tail _ (h.excluded signalClass' url hurl hoffers)

theorem retireSources_keeps {W : RetireWorld} (sources : List LiveSource) {s : Retiring}
    (h : s.Excludes W) : (retireSources W recent s sources).1.Excludes W := by
  induction sources generalizing s with
  | nil => exact h
  | cons source sources ih =>
    have hstep := @retireSource_keeps recent W s source h
    unfold retireSources
    split
    · next done heq =>
      rw [heq] at hstep
      exact ih hstep
    · next done heq =>
      rw [heq] at hstep
      exact hstep

/-- A retire pass that finds the records forms no stale pool. -/
theorem retireWork_fresh {W : RetireWorld} (h : s.Fresh)
    (hsees : ∀ signalClass, s.SeesRetired W.toSources signalClass (W.live.map (·.url))) :
    (retireWork W s).Fresh := by
  unfold retireWork
  split
  · exact h
  · have hstart : Retiring.Excludes W
        ⟨s, W.live.map (·.url) ++ retiredSourceUrls s.page, 0⟩ := by
      refine ⟨h, fun signalClass url hurl hoffers => List.mem_append.2 ?_⟩
      by_cases hlive : url ∈ W.live.map (·.url)
      · exact .inl hlive
      · exact .inr (hsees signalClass url hurl hlive hoffers)
    have hdone := @retireSources_keeps s.page W W.live _ hstart
    dsimp only
    split
    · next done heq =>
      rw [heq] at hdone
      exact hdone.fresh
    · next done heq =>
      rw [heq] at hdone
      exact hdone.fresh

/-! ## Whole histories -/

theorem reviewWork_fresh (outcome : Option (Nat × Time)) (h : s.Fresh) :
    (reviewWork kind outcome s).Fresh := by
  cases outcome with
  | none => exact h
  | some done => exact h

/-- A run keeps the law, if it sees the marker and its work forms no stale pool. -/
theorem NeverForgets.run {work : Memory → Memory} (h : NeverForgets s)
    (hsees : s.SeesMarker kind now) (hwork : (work s).Fresh) :
    NeverForgets (s.run kind now work) := by
  unfold Memory.run
  split
  · exact h
  · next hdue =>
    refine ⟨fun k => ?_, hwork⟩
    dsimp only
    split
    · next heq =>
      obtain rfl := heq
      exact pairwise_cons_of_head (minDays_pos k) (h.apart k) fun last => minDays_le hsees hdue
    · exact h.apart k

/-- One event. -/
theorem Memory.step_keeps (h : NeverForgets s) (hfinds : e.finds s) : NeverForgets (s.step e) := by
  cases e with
  | wrote row => exact ⟨h.apart, h.fresh⟩
  | pooled W signalClass live =>
    refine ⟨h.apart, h.fresh.formed fun c hc hretired => ?_⟩
    obtain ⟨hoffers, hnot⟩ := of_mem_pool hc
    refine hnot (List.mem_append.2 ?_)
    by_cases hlive : c.url ∈ live
    · exact .inl hlive
    · exact .inr (hfinds c.url hretired hlive hoffers)
  | sourceRetire now W => exact h.run hfinds.1 (retireWork_fresh h.fresh hfinds.2)
  | allowlistReview now outcome => exact h.run hfinds (reviewWork_fresh outcome h.fresh)
  | levelReview now outcome => exact h.run hfinds (reviewWork_fresh outcome h.fresh)

/-- While each run finds the records it asks for among the newest rows, nothing is forgotten: two
    real passes are their minimum apart, and no pool has a retired source. -/
theorem neverForgets (es : List Event) (h : Remembered es) : NeverForgets (memoryAfter es) := by
  induction es with
  | nil => exact ⟨fun _ => .nil, fun formed hformed => (nomatch hformed)⟩
  | cons e es ih => exact Memory.step_keeps (ih h.2) h.1

/-! ## A quiet month and a crowded day -/

instance : Decidable (s.SeesMarker kind now) :=
  inferInstanceAs (Decidable (∀ last ∈ (s.passes kind).head?, (now - last) / day < kind.minDays →
    ∃ row ∈ s.page, row.signalType = kind.markerType ∧ last ≤ row.receivedAt))

instance : Decidable s.Fresh :=
  inferInstanceAs (Decidable (∀ formed ∈ s.pools, ∀ c ∈ formed.2,
    c.url ∉ retiredSourceUrls formed.1))

/-- A table that fits on the page shows all that was retired. -/
theorem seesRetired_of_short (h : s.table.length ≤ lifecycleSignalLookback) :
    s.SeesRetired W signalClass live := by
  intro url hurl _ _
  rwa [Memory.page, listSignals, List.take_of_length_le h]

/-- Two entries of one profile, with one client in the register. -/
def twoFeeds : Sources where
  unicode := .ascii
  hostname := fun url =>
    some (if url = "https://old.example/feed" then "old.example" else "new.example")
  registered := ["rotork"]
  bootstrap := fun key =>
    if key = "competitor-discovery" then
      some [[("url", .str "https://old.example/feed")],
        [("feed_url", .str "https://new.example/feed")]]
    else none

/-- The first of the feeds is live, its `review_by` date has passed, and the pass cards it. -/
def firstPass : RetireWorld where
  toSources := twoFeeds
  live := [⟨"competitor-discovery", "https://old.example/feed", .carded 1 "card-1" 2⟩]
  expired := ["https://old.example/feed"]
  endedAt := 3

/-- After the retirement nothing is live. -/
def laterPass : RetireWorld where
  toSources := twoFeeds
  live := []
  expired := []
  endedAt := 29 * day

/-- A row of another writer. -/
def batchRow : SignalRow := ⟨"scan_batch", [], 4⟩

/-- Two passes with one in between that is not due, and a pool. -/
def quietMonth : List Event :=
  [.pooled twoFeeds "competitors" [], .sourceRetire (28 * day + 3) laterPass,
    .sourceRetire (5 * day) laterPass, .wrote batchRow, .sourceRetire 0 firstPass]

theorem quietMonth_remembered : Remembered quietMonth :=
  ⟨seesRetired_of_short (by decide +kernel),
    ⟨by decide +kernel, fun _ => seesRetired_of_short (by decide +kernel)⟩,
    ⟨by decide +kernel, fun _ => seesRetired_of_short (by decide +kernel)⟩, trivial,
    ⟨by decide +kernel, fun _ => seesRetired_of_short (by decide +kernel)⟩, trivial⟩

/-- The second pass comes after its four weeks, and the pool has the other feed alone. -/
theorem quietMonth_kept : NeverForgets (memoryAfter quietMonth) ∧
    (memoryAfter quietMonth).passes .retire = [28 * day + 3, 0] ∧
    (memoryAfter quietMonth).pools.head?.map Prod.snd =
      some [⟨"https://new.example/feed", "new.example"⟩] :=
  ⟨neverForgets quietMonth quietMonth_remembered, by decide +kernel, by decide +kernel⟩

/-- The three passes run, the other writers fill the page, and the passes run again the next day. -/
def crowdedDay : List Event :=
  [.pooled twoFeeds "competitors" [], .levelReview day (some (0, day)),
    .allowlistReview day (some (0, day)), .sourceRetire day laterPass] ++
  List.replicate 500 (.wrote batchRow) ++
  [.levelReview 0 (some (0, 3)), .allowlistReview 0 (some (0, 3)), .sourceRetire 0 firstPass]

/-- All three passes are real again after one day, and the retired feed is in a pool. -/
theorem crowdedDay_forgets :
    (∀ kind, ¬ ((memoryAfter crowdedDay).passes kind).Pairwise fun later earlier =>
      kind.minDays * day ≤ later - earlier) ∧ ¬ (memoryAfter crowdedDay).Fresh := by
  constructor
  · intro kind
    cases kind with
    | retire => decide +kernel
    | allowlistReview => decide +kernel
    | levelReview => decide +kernel
  · decide +kernel

end CanvasOS.Signals
