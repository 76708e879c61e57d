/-
  What a scan makes of what it fetched (`dispatch_text.py`, `dispatch/scan_shared.py`).

  1. `shapeSourceEvidence` — a feed becomes a line for each of its items, any other page its text;
     both are cut to the profile's budget.
  2. `assertIngestFloor`, `assertSignalDomainFloor` — the floors: enough sources and hosts that
     carry text, and enough hosts cited by what the model emits.
  3. `resolveScanProfile` — one profile of the document, over its defaults.
  4. `alreadyCaptured`, `countRepeats` — what Vault remembers of the same topic.

  `int(…)` is modelled of whole numbers.  Log lines are left out.
-/
import CanvasOS.Dispatch.Dedupe
import CanvasOS.Ingest.Fallback
import CanvasOS.Lib.SortBy
import CanvasOS.Signals.Table
import Mathlib.Data.List.Dedup
import Mathlib.Data.String.Basic

namespace CanvasOS.Ingest

open Python
open Dispatch (splitWhite)
open Review (Object lowered)
open Signals (Time day)

/-- What the scans take from Python's library. -/
structure ScanTools where
  unicode : Unicode
  /-- what a backreference compares characters by under `re.IGNORECASE` -/
  lowerOne : Char → Char
  /-- `html.unescape` -/
  unescape : List Char → List Char
  /-- `str.casefold()` -/
  casefold : String → String
  /-- `urlparse(url).hostname`; `none` is its ValueError -/
  hostname : String → Option (Option String)
  /-- `datetime.fromisoformat`, a naive value taken as UTC; `none` is its ValueError -/
  fromIsoformat : String → Option Time
  /-- the literal of a float in a model's reply, as it is kept -/
  spell : List Char → String

variable (T : ScanTools)

/-! ## Markup -/

/-- `</name>` at the front, and what is behind it. -/
def closeTag (name : List Char) : List Char → Option (List Char)
  | '<' :: '/' :: s =>
    if (name.map T.lowerOne).isPrefixOf (s.map T.lowerOne) then
      match s.drop name.length with
      | '>' :: rest => some rest
      | _ => none
    else none
  | _ => none

/-- `(.*?)</name>`: what stands in front of the first such tag, and what is behind it. -/
def upToClose (name : List Char) : List Char → Option (List Char × List Char)
  | [] => none
  | c :: s =>
    match closeTag T name (c :: s) with
    | some rest => some ([], rest)
    | none => (upToClose name s).map fun x => (c :: x.1, x.2)

/-- `<(name|…)\b[^>]*>(.*?)</\1>` at the front: the inner text, and what is behind the element. -/
def elementAt (names : List String) : List Char → Option (List Char × List Char)
  | '<' :: s => names.findSome? fun name =>
    if wordAt T.unicode T.unicode.fold name.toList s then
      let word := s.take name.toList.length
      let attributes := s.drop name.toList.length
      (before ['>'] attributes).bind fun p =>
        upToClose T word (attributes.drop (p.length + 1))
    else none
  | _ => none

/-- `search`: the inner text of the first element of these names. -/
def searchElement (names : List String) : List Char → Option (List Char)
  | [] => none
  | c :: s =>
    match elementAt T names (c :: s) with
    | some (inner, _) => some inner
    | none => searchElement names s

/-- `finditer`: the inner texts.  The first argument counts the characters up to the end of the last
    match. -/
def findElements (names : List String) : Nat → List Char → List (List Char)
  | _, [] => []
  | skip + 1, _ :: s => findElements names skip s
  | 0, c :: s =>
    match elementAt T names (c :: s) with
    | some (inner, rest) => inner :: findElements names (s.length - rest.length) s
    | none => findElements names 0 s

/-- `sub`, where `find` is the pattern at the front: what is put in its place, and what is behind
    it. -/
def subAll (find : List Char → Option (List Char × List Char)) : Nat → List Char → List Char
  | _, [] => []
  | skip + 1, _ :: s => subAll find skip s
  | 0, c :: s =>
    match find (c :: s) with
    | some (instead, rest) => instead ++ subAll find (s.length - rest.length) s
    | none => c :: subAll find 0 s

/-- `_CDATA_RE` -/
def cdataAt (s : List Char) : Option (List Char × List Char) :=
  if "<![CDATA[".toList.isPrefixOf s then
    (before "]]>".toList (s.drop 9)).map fun inner => (inner, s.drop (inner.length + 12))
  else none

/-- `_TAG_RE` -/
def tagAt : List Char → Option (List Char × List Char)
  | '<' :: s => (before ['>'] s).map fun inner => ([' '], s.drop (inner.length + 1))
  | _ => none

/-- `_SCRIPT_STYLE_RE` -/
def scriptAt (s : List Char) : Option (List Char × List Char) :=
  (elementAt T ["script", "style"] s).map fun x => ([' '], x.2)

/-- `_clean_markup_text` -/
def cleanMarkupText (raw : List Char) : String :=
  let text := subAll tagAt 0 (subAll cdataAt 0 raw)
  join " " ((splitWhite (T.unescape text)).map String.ofList)

/-- `INGEST_MAX_FEED_ITEMS` -/
def ingestMaxFeedItems : Nat := 12

/-- The line of one item, unless there is nothing in it. -/
def feedItemLine (block : List Char) : Option String :=
  let part (names : List String) := ((searchElement T names block).map (cleanMarkupText T)).getD ""
  let parts := [part ["pubDate", "published", "updated"], part ["title"],
    part ["description", "summary"]].filter (· ≠ "")
  if parts = [] then none else some (join " | " parts)

/-- `_feed_item_lines` -/
def feedItemLines (body : List Char) : List String :=
  ((findElements T ["item", "entry"] 0 body).filterMap (feedItemLine T)).take ingestMaxFeedItems

/-- `s[:n]` -/
def upTo (s : List Char) (n : Int) : List Char :=
  if 0 ≤ n then s.take n.toNat else s.take (s.length - n.natAbs)

/-- `_shape_source_evidence` -/
def shapeSourceEvidence (body : String) (sourceChars : Int) : String :=
  let lines := feedItemLines T body.toList
  let shaped := if lines = [] then cleanMarkupText T (subAll (scriptAt T) 0 body.toList)
    else join "\n" lines
  String.ofList (upTo shaped.toList sourceChars)

/-! ## Floors -/

/-- `_distinct_domains` -/
def distinctDomains (urls : List String) : Except IngestExc (List String) := do
  let hosts ← (urls.filter (· ≠ "")).mapM fun url =>
    match T.hostname url with
    | some host => .ok (lowered T.unicode (host.getD ""))
    | none => .error .raised
  pure hosts.dedup

/-- A source whose shaped body is long enough to be evidence. -/
def substantive (minSourceChars : Int) (item : FetchedSource) : Bool :=
  minSourceChars ≤ item.body.length

/-- `_substantive_sources` -/
def substantiveSources (fetched : List FetchedSource) (minSourceChars : Int) :
    List FetchedSource × List FetchedSource :=
  fetched.partition (substantive minSourceChars)

/-- What the message says of the thin sources. -/
def thinText (thin : List FetchedSource) : String :=
  reprJson (.arr (thin.map fun item =>
    .obj [("url", .str item.url), ("body_chars", .int item.body.length)]))

/-- `_assert_ingest_floor` -/
def assertIngestFloor (stage : String) (fetched : List FetchedSource)
    (minSources minDomains minSourceChars : Int) : Except IngestExc (List FetchedSource) := do
  let (enough, thin) := substantiveSources fetched minSourceChars
  let domains ← distinctDomains T (enough.map FetchedSource.url)
  if minSources ≤ enough.length ∧ minDomains ≤ domains.length then pure enough
  else .error (.dispatchError (
    "ingest-signals: " ++ stage ++ " left " ++ toString enough.length ++ " source(s) across " ++
    toString domains.length ++ " domain(s) carrying at least " ++ toString minSourceChars ++
    " characters of evidence, below the floor of " ++ toString minSources ++ " source(s) / " ++
    toString minDomains ++ " domain(s)" ++
    (if thin = [] then "" else " (" ++ toString thin.length ++
      " source(s) returned a body but too little of one: " ++ thinText thin ++ ")") ++
    " -- a scan below this floor cannot satisfy function 09's own " ++
    "at-least-2-distinct-domains rule, so it is failed rather than written " ++
    "to the Vault as if it were a complete scan"))

/-- A dictionary; anything else has no `get`. -/
def asObject : Json → Except IngestExc Object
  | .obj kvs => .ok kvs
  | _ => .error .raised

/-- `_batch_items`, as a loop meets them. -/
def batchItems (payload : Object) : Except IngestExc (List Json) :=
  let items := match Json.get payload "signals" with
    | .null => Json.get payload "cards"
    | signals => signals
  match items with
  | .arr xs => .ok xs
  | items => if items.truthy then .error .raised else .ok []

/-- The items, each of which is asked with `get`. -/
def batchObjects (payload : Object) : Except IngestExc (List Object) := do
  let items ← batchItems payload
  items.mapM asObject

/-- `str(item.get(key, ""))` -/
def textOf (item : Object) (key : String) : String :=
  pyStr ((Json.lookup item key).getD (.str ""))

/-- `_assert_signal_domain_floor` -/
def assertSignalDomainFloor (output : Object) (minDomains available : Int) :
    Except IngestExc Unit := do
  let effective := min minDomains available
  let items ← batchObjects output
  let domains ← distinctDomains T (items.map (textOf · "source_url"))
  if effective ≤ domains.length then pure ()
  -- an empty batch has nothing to attribute
  else if items = [] then pure ()
  else .error (.dispatchError (
    "ingest-signals: emitted signals cite " ++ toString domains.length ++
    " distinct domain(s), below the effective floor of " ++ toString effective ++
    " (configured " ++ toString minDomains ++ ", " ++ toString available ++
    " retrieved) -- prompt.md hard rule 3 " ++
    "(schema.json cannot express a cross-item uniqueness constraint)"))

/-! ## Profiles -/

/-- A YAML list, as a loop meets it. -/
def asList : Json → Except IngestExc (List Json)
  | .arr xs => .ok xs
  | .str "" => .ok []
  | .obj [] => .ok []
  | _ => .error .raised

/-- An entry of `profiles` with its key; one that is no text is never looked up. -/
def profileEntry (entry : Json) : Except IngestExc (Option String × Object) := do
  let entry ← asObject entry
  match Json.lookup entry "profile_id" with
  | none | some (.arr _) | some (.obj _) => .error .raised
  | some (.str profileId) => .ok (some profileId, entry)
  | some _ => .ok (none, entry)

/-- `', '.join(sorted(profiles))` -/
def definedText (profiles : List (Option String × Object)) : Except IngestExc String :=
  match profiles.mapM Prod.fst with
  | some ids => .ok (join ", " (Listing.sortBy (fun name => name) ids.dedup))
  | none => .error .raised

/-- `functions/_shared/scan-profiles.yaml` -/
def scanProfilesText : String := "functions/_shared/scan-profiles.yaml"

/-- `_resolve_scan_profile`, of the document that `_load_scan_profiles` returns. -/
def resolveScanProfile (document : Json) (profileId : String) (requireUrls : Bool) :
    Except IngestExc Object := do
  let document ← asObject document
  let entries ← asList ((Json.lookup document "profiles").getD (.arr []))
  let profiles ← entries.mapM profileEntry
  -- of two entries with one id, the later one counts
  match profiles.reverse.find? fun entry => entry.1 = some profileId with
  | none => do
    let defined ← definedText profiles
    .error (.dispatchError ("scan profile " ++ Python.reprStr profileId ++ " is not defined in " ++
      scanProfilesText ++ " (defined: " ++ defined ++ ")"))
  | some (_, profile) => do
    let defaults ← asObject ((Json.lookup document "defaults").getD (.obj []))
    let resolved := Json.update defaults profile
    if requireUrls && !(Json.get resolved "urls").truthy then
      .error (.dispatchError ("scan profile " ++ Python.reprStr profileId ++
        " has no source urls in " ++ scanProfilesText ++ " -- this scanner cannot run " ++
        "until its sources are filled in; it is refused rather than scanned empty"))
    else pure resolved

/-- `int(value)`, of a whole number. -/
def pyInt : Json → Except IngestExc Int
  | .int n => .ok n
  | .bool b => .ok (if b then 1 else 0)
  | _ => .error .raised

/-- `int(sources.get(key, default))` -/
def intOf (sources : Object) (key : String) (default : Int) : Except IngestExc Int :=
  pyInt ((Json.lookup sources key).getD (.int default))

/-- The figures that a scan reads from its profile. -/
structure ScanFloors where
  minSources : Int
  minDomains : Int
  sourceChars : Int
  minSourceChars : Int

/-- `_ingest_floors`, `_ingest_source_chars` and `_ingest_min_source_chars` -/
def scanFloors (sources : Object) : Except IngestExc ScanFloors := do
  let minSources ← intOf sources "min_sources" 2
  let minDomains ← intOf sources "min_distinct_domains" 2
  let sourceChars ← intOf sources "source_chars" 8000
  let minSourceChars ← intOf sources "min_source_chars" 500
  pure ⟨minSources, minDomains, sourceChars, minSourceChars⟩

/-- A text; the tools refuse anything else as a URL. -/
def asText : Json → Except IngestExc String
  | .str s => .ok s
  | _ => .error .raised

/-- `list(sources["urls"])`, the characters of a lone text and the keys of a dictionary included. -/
def configuredUrls (sources : Object) : Except IngestExc (List String) :=
  match Json.get sources "urls" with
  | .arr xs => xs.mapM asText
  | .str s => .ok (s.toList.map String.singleton)
  | .obj kvs => .ok (kvs.map Prod.fst)
  | _ => .error .raised

/-! ## Memory -/

/-- `RECENT_SIGNAL_SCAN_LIMIT` -/
def recentSignalScanLimit : Nat := 100

/-- `RECENT_SIGNAL_HEADLINE_CAP` -/
def recentSignalHeadlineCap : Nat := 40

/-- `SIGNAL_BATCH_TYPE` -/
def signalBatchType : String := "market_signal_batch"

/-- `CARD_BATCH_TYPE` -/
def cardBatchType : String := "scanner_card_batch"

/-- `raw.replace("Z", "+00:00")` -/
def spelledOut (raw : String) : String :=
  String.ofList (raw.toList.flatMap fun c => if c = 'Z' then "+00:00".toList else [c])

/-- `_parse_iso_timestamp` -/
def parseIsoTimestamp : Json → Option Time
  | .str raw => if raw = "" then none else T.fromIsoformat (spelledOut raw)
  | _ => none

/-- `a or b` -/
def orElse (a b : Json) : Json := if a.truthy then a else b

/-- `row.get("signal_type") in SCAN_BATCH_TYPES` -/
def isScanBatch (row : Object) : Except IngestExc Bool :=
  match Json.get row "signal_type" with
  | .str signalType => .ok (signalType = signalBatchType ∨ signalType = cardBatchType)
  | .arr _ | .obj _ => .error .raised
  | _ => .ok false

/-- The payload of a row, where its batch counts: its topic is this one, and it was not received
    before the horizon. -/
def countingPayload (topic : String) (cutoff : Time) (row : Object) :
    Except IngestExc (Option Object) := do
  let scanBatch ← isScanBatch row
  if scanBatch then do
    let payload ← asObject (orElse (Json.get row "payload") (.obj []))
    let received := parseIsoTimestamp T (orElse (Json.get row "received_at")
      (Json.get row "created_at"))
    if Json.get payload "topic" = .str topic && received.all (cutoff ≤ ·) then pure (some payload)
    else pure none
  else pure none

/-- `str(signal.get(key, "")).strip()` -/
def strippedOf (item : Object) (key : String) : String :=
  String.ofList (strip (textOf item key).toList)

/-- What is remembered of one item. -/
def remembered (item : Object) : Option CapturedSignal :=
  if strippedOf item "headline" = "" then none
  else some ⟨strippedOf item "headline", strippedOf item "source_url"⟩

/-- The loop over the items of a batch; the flag says that the cap is reached. -/
def captureItems (captured : List CapturedSignal) :
    List Json → Except IngestExc (List CapturedSignal × Bool)
  | [] => .ok (captured, false)
  | item :: items => do
    let item ← asObject item
    let captured := captured ++ (remembered item).toList
    if recentSignalHeadlineCap ≤ captured.length then pure (captured, true)
    else captureItems captured items

/-- The items of a row whose batch counts. -/
def countingItems (topic : String) (cutoff : Time) (row : Object) :
    Except IngestExc (List Json) := do
  match ← countingPayload T topic cutoff row with
  | some payload => batchItems payload
  | none => pure []

/-- The loop over the rows, up to the cap. -/
def captureRows (topic : String) (cutoff : Time) (captured : List CapturedSignal) :
    List Object → Except IngestExc (List CapturedSignal)
  | [] => .ok captured
  | row :: rows => do
    let items ← countingItems T topic cutoff row
    let seen ← captureItems captured items
    if seen.2 then pure seen.1 else captureRows topic cutoff seen.1 rows

/-- `_already_captured`, of the page that Vault lists. -/
def alreadyCaptured (topic : String) (horizonDays : Int) (now : Time) (rows : List Object) :
    Except IngestExc (List CapturedSignal) :=
  captureRows T topic (now - horizonDays * day) [] rows

/-- `_count_repeats` -/
def countRepeats (output : Object) (captured : List CapturedSignal) : Except IngestExc Nat := do
  let items ← batchObjects output
  let seenUrls := (captured.map CapturedSignal.sourceUrl).filter (· ≠ "")
  let seenHeadlines := captured.map fun item => T.casefold item.headline
  pure (items.countP fun item =>
    let url := strippedOf item "source_url"
    let headline := T.casefold (strippedOf item "headline")
    (url ≠ "" && url ∈ seenUrls) || (headline ≠ "" && headline ∈ seenHeadlines))

/-! ### What is remembered -/

section Captured

variable {T : ScanTools} {topic : String} {cutoff : Time}

/-- The row's batch counts, and this is remembered of one of its items. -/
def Remembers (T : ScanTools) (topic : String) (cutoff : Time) (row : Object)
    (x : CapturedSignal) : Prop :=
  ∃ payload items item, countingPayload T topic cutoff row = .ok (some payload) ∧
    batchItems payload = .ok items ∧ .obj item ∈ items ∧ remembered item = some x

theorem asObject_eq_ok {value : Json} {kvs : Object} (h : asObject value = .ok kvs) :
    value = .obj kvs := by
  unfold asObject at h
  split at h
  · obtain rfl := Except.ok.inj h
    rfl
  · cases h

/-- A step of the inner loop adds at most one item. -/
theorem captureItems_spec {P : CapturedSignal → Prop} {items : List Json}
    (hitems : ∀ item x, .obj item ∈ items → remembered item = some x → P x) :
    ∀ {captured found : List CapturedSignal} {full : Bool},
      captured.length < recentSignalHeadlineCap → (∀ x ∈ captured, P x) →
      captureItems captured items = .ok (found, full) →
      found.length ≤ recentSignalHeadlineCap ∧
        (full = false → found.length < recentSignalHeadlineCap) ∧ ∀ x ∈ found, P x := by
  induction items with
  | nil =>
    intro captured found full hlen hP h
    obtain ⟨rfl, rfl⟩ := Prod.mk.inj (Except.ok.inj h)
    exact ⟨hlen.le, fun _ => hlen, hP⟩
  | cons item items ih =>
    intro captured found full hlen hP h
    rw [captureItems] at h
    cases hitem : asObject item with
    | error e =>
      rw [hitem] at h
      cases h
    | ok kvs =>
      rw [hitem] at h
      obtain rfl := asObject_eq_ok hitem
      have hone : (remembered kvs).toList.length ≤ 1 := by cases remembered kvs <;> simp
      have hP' : ∀ x ∈ captured ++ (remembered kvs).toList, P x := by
        intro x hx
        rcases List.mem_append.1 hx with hx | hx
        · exact hP x hx
        · exact hitems kvs x List.mem_cons_self (Option.mem_toList.1 hx)
      have hlength : (captured ++ (remembered kvs).toList).length ≤ recentSignalHeadlineCap := by
        rw [List.length_append]
        omega
      dsimp only [bind, Except.bind] at h
      split at h
      · obtain ⟨rfl, rfl⟩ := Prod.mk.inj (Except.ok.inj h)
        exact ⟨hlength, fun hfull => (Bool.false_ne_true hfull.symm).elim, hP'⟩
      · next hfull =>
        exact ih (fun item x hmem => hitems item x (List.mem_cons_of_mem _ hmem))
          (Nat.lt_of_not_le hfull) hP' h

theorem remembers_of_counting {row : Object} {items : List Json}
    (h : countingItems T topic cutoff row = .ok items) {item : Object} {x : CapturedSignal}
    (hmem : .obj item ∈ items) (hx : remembered item = some x) :
    Remembers T topic cutoff row x := by
  unfold countingItems at h
  cases hpayload : countingPayload T topic cutoff row with
  | error e =>
    rw [hpayload] at h
    cases h
  | ok counting =>
    rw [hpayload] at h
    cases counting with
    | none =>
      obtain rfl := Except.ok.inj h
      exact absurd hmem List.not_mem_nil
    | some payload => exact ⟨payload, items, item, hpayload, h, hmem, hx⟩

theorem captureRows_spec {rows : List Object} :
    ∀ {captured found : List CapturedSignal}, captured.length < recentSignalHeadlineCap →
      captureRows T topic cutoff captured rows = .ok found →
      found.length ≤ recentSignalHeadlineCap ∧
        ∀ x ∈ found, x ∈ captured ∨ ∃ row ∈ rows, Remembers T topic cutoff row x := by
  induction rows with
  | nil =>
    intro captured found hlen h
    obtain rfl := Except.ok.inj h
    exact ⟨hlen.le, fun x hx => .inl hx⟩
  | cons row rows ih =>
    intro captured found hlen h
    rw [captureRows] at h
    dsimp only [bind, Except.bind] at h
    split at h
    · cases h
    · next items hitems =>
      split at h
      · cases h
      · next seen hinner =>
        obtain ⟨hle, hlt, hseen⟩ := captureItems_spec
          (P := fun x => x ∈ captured ∨ Remembers T topic cutoff row x)
          (fun item x hmem hx => .inr (remembers_of_counting hitems hmem hx)) hlen
          (fun x hx => .inl hx) hinner
        split at h
        · obtain rfl := Except.ok.inj h
          refine ⟨hle, fun x hx => (hseen x hx).imp_right fun hrow => ?_⟩
          exact ⟨row, List.mem_cons_self, hrow⟩
        · next hfull =>
          obtain ⟨hfound, hall⟩ := ih (hlt (Bool.eq_false_iff.2 hfull)) h
          refine ⟨hfound, fun x hx => ?_⟩
          rcases hall x hx with hx | ⟨other, hother, hrow⟩
          · exact (hseen x hx).imp_right fun hrow => ⟨row, List.mem_cons_self, hrow⟩
          · exact .inr ⟨other, List.mem_cons_of_mem _ hother, hrow⟩

/-- No more than the cap is remembered, all of it of rows that count. -/
theorem alreadyCaptured_spec {horizonDays : Int} {now : Time} {rows : List Object}
    {captured : List CapturedSignal}
    (h : alreadyCaptured T topic horizonDays now rows = .ok captured) :
    captured.length ≤ recentSignalHeadlineCap ∧
      ∀ x ∈ captured, ∃ row ∈ rows, Remembers T topic (now - horizonDays * day) row x := by
  obtain ⟨hle, hall⟩ := captureRows_spec (by decide) h
  exact ⟨hle, fun x hx => (hall x hx).resolve_left List.not_mem_nil⟩

end Captured

/-! ### What the floors say -/

section Floors

variable {T : ScanTools} {fetched enough : List FetchedSource}
  {minSources minDomains minSourceChars : Int}

/-- These sources carry enough text, over enough hosts. -/
def MeetsFloor (T : ScanTools) (fetched : List FetchedSource)
    (minSources minDomains minSourceChars : Int) : Prop :=
  minSources ≤ (fetched.filter (substantive minSourceChars)).length ∧
    ∃ domains, distinctDomains T ((fetched.filter (substantive minSourceChars)).map
      FetchedSource.url) = .ok domains ∧ minDomains ≤ domains.length

theorem meetsFloor_of_assert {stage : String}
    (h : assertIngestFloor T stage fetched minSources minDomains minSourceChars = .ok enough) :
    MeetsFloor T fetched minSources minDomains minSourceChars := by
  unfold assertIngestFloor substantiveSources at h
  rw [List.partition_eq_filter_filter] at h
  dsimp only [bind, Except.bind] at h
  split at h
  · cases h
  · next domains hdomains =>
    split at h
    · next hfloor => exact ⟨hfloor.1, domains, hdomains, hfloor.2⟩
    · cases h

/-- The batch is empty, or cites enough hosts. -/
def MeetsDomainFloor (T : ScanTools) (output : Object) (effective : Int) : Prop :=
  batchObjects output = .ok [] ∨ ∃ items domains, batchObjects output = .ok items ∧
    distinctDomains T (items.map (textOf · "source_url")) = .ok domains ∧
    effective ≤ domains.length

theorem meetsDomainFloor_of_assert {output : Object} {available : Int} {u : Unit}
    (h : assertSignalDomainFloor T output minDomains available = .ok u) :
    MeetsDomainFloor T output (min minDomains available) := by
  unfold assertSignalDomainFloor at h
  dsimp only [bind, Except.bind] at h
  split at h
  · cases h
  · next items hitems =>
    split at h
    · cases h
    · next domains hdomains =>
      split at h
      · next hfloor => exact .inr ⟨items, domains, hitems, hdomains, hfloor⟩
      · split at h
        · next hempty => exact .inl (hempty ▸ hitems)
        · cases h

end Floors

end CanvasOS.Ingest
