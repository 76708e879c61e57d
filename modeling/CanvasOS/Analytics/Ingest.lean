/-
  The nightly ingestion of a day's rows (`analytics_ingest/ingest.py`) and the two Google clients
  that hand it their rows.

  1. `Source` — the four sources.  `naturalRowId` derives the id a row is stored under, `columns`
     its figures.
  2. `ingestDay` — one INSERT … ON CONFLICT DO NOTHING a row, each committed by itself.
  3. `losesNothing_iff` — a day is ingested without loss exactly when no two of its rows come to the
     same id.  GA4 derives the id from the landing page alone, Search Console from a text in which
     the page and the query cannot be told apart.
-/
import Mathlib.Data.List.Nodup
import CanvasOS.Lib.Format

namespace CanvasOS.Analytics

open Python

/-! ## The clients -/

/-- A row of a payload, a dict. -/
abbrev Row := List (String × Json)

inductive IngestFailure where
  | keyError (key : String)
  | typeError
  | zeroDivisionError
  | dataError
  | notNullViolation
deriving DecidableEq

inductive Source where
  | buffer
  | ga4
  | searchConsole
  | linkedin
deriving DecidableEq

/-- What Python and asyncpg do with numbers and with parameters. -/
structure Runtime where
  /-- `_as_int` -/
  asInt : Json → Int
  /-- `_as_float` -/
  asFloat : Json → Json
  /-- `a + b` -/
  add : Json → Json → Except IngestFailure Json
  /-- `a / b` -/
  truediv : Json → Json → Except IngestFailure Json
  /-- the columns can be encoded for the source's table -/
  encodes : Source → Row → Bool

/-- A row of a GA4 report: the `value` of each dimension and of each metric. -/
structure ReportRow where
  dimensionValues : List Json
  metricValues : List Json

/-- `_normalise_campaign` -/
def normaliseCampaign (raw : Json) : Json :=
  if raw = .null then .null
  else
    let text := String.ofList (strip (pyStr raw).toList)
    if text = "" ∨ text ∈ ["(not set)", "(direct)", "(none)"] then .null else .str text

/-- `_parse_response` -/
def parseResponse (R : Runtime) (rows : List ReportRow) : List Row :=
  rows.filterMap fun row =>
    match row.dimensionValues, row.metricValues with
    | landingPage :: campaign :: _, sessions :: engaged :: conversions :: _ => some [
        ("landing_page", landingPage),
        ("sessions", .int (R.asInt sessions)),
        ("engaged_sessions", .int (R.asInt engaged)),
        ("conversions", .int (R.asInt conversions)),
        ("utm_campaign", normaliseCampaign campaign)]
    | _, _ => none

/-- A row of a Search Console answer. -/
structure QueryRow where
  keys : List Json
  clicks : Json
  impressions : Json
  ctr : Json
  position : Json

/-- `_parse_rows` -/
def parseRows (R : Runtime) (rows : List QueryRow) : List Row :=
  rows.filterMap fun row =>
    match row.keys with
    | query :: page :: _ => some [
        ("query", query),
        ("page", page),
        ("clicks", .int (R.asInt row.clicks)),
        ("impressions", .int (R.asInt row.impressions)),
        ("ctr", R.asFloat row.ctr),
        ("position", R.asFloat row.position)]
    | _ => none

/-! ## The sources -/

/-- `row["post_id"]` -/
def postId (row : Row) : Except IngestFailure Json :=
  match Json.lookup row "post_id" with
  | some value => .ok value
  | none => .error (.keyError "post_id")

/-- `f"{row.get('page', '')}::{row.get('query', '')}"` -/
def pageQuery (row : Row) : String :=
  pyStr ((Json.lookup row "page").getD (.str "")) ++ "::" ++
    pyStr ((Json.lookup row "query").getD (.str ""))

/-- `row.get("landing_page", "")` -/
def landingPage (row : Row) : Json := (Json.lookup row "landing_page").getD (.str "")

/-- The id a row is stored under. -/
def Source.naturalRowId : Source → Row → Except IngestFailure Json
  | .buffer, row | .linkedin, row => postId row
  | .ga4, row => .ok (landingPage row)
  | .searchConsole, row => .ok (.str (pageQuery row))

/-- `row.get(key) or 0` -/
def orZero (row : Row) (key : String) : Json :=
  let value := Json.get row key
  if value.truthy then value else .int 0

/-- `_engagement_rate` -/
def engagementRate (R : Runtime) (row : Row) : Except IngestFailure Json :=
  let impressions := Json.get row "impressions"
  if impressions.truthy then do
    let sum ← R.add (orZero row "reactions") (orZero row "comments")
    let sum ← R.add sum (orZero row "shares")
    let numerator ← R.add sum (orZero row "clicks")
    R.truediv numerator impressions
  else .ok .null

/-- `row.get(key)`, of the columns that are stored as they are. -/
def plainColumns (row : Row) (keys : List String) : Row := keys.map fun key => (key, Json.get row key)

/-- The columns of a row of Buffer or LinkedIn. -/
def postColumns (R : Runtime) (row : Row) : Except IngestFailure Row := do
  let post ← postId row
  let rate ← engagementRate R row
  pure ([("post_id", post)] ++
    plainColumns row ["utm_campaign", "impressions", "reactions", "comments", "shares", "clicks"] ++
    [("engagement_rate", rate)] ++ plainColumns row ["post_archetype"])

/-- The columns a row is stored with. -/
def Source.columns (R : Runtime) : Source → Row → Except IngestFailure Row
  | .buffer, row | .linkedin, row => postColumns R row
  | .ga4, row => .ok (plainColumns row
      ["landing_page", "sessions", "engaged_sessions", "conversions", "utm_campaign"])
  | .searchConsole, row => .ok (plainColumns row
      ["query", "page", "clicks", "impressions", "ctr", "position"])

/-! ## The tables -/

/-- A stored row. -/
structure Stored where
  day : Int
  naturalRowId : String
  columns : Row
deriving DecidableEq

/-- What `UNIQUE (source, day, natural_row_id)` is about. -/
def Stored.key (x : Stored) : Int × String := (x.day, x.naturalRowId)

/-- The table of one source. -/
structure Table where
  rows : List Stored
  unique : (rows.map Stored.key).Nodup

/-- `SELECT COUNT(*) … WHERE day = $1` -/
def Table.countForDay (t : Table) (day : Int) : Nat := t.rows.countP fun x => x.day = day

/-- `INSERT … ON CONFLICT (source, day, natural_row_id) DO NOTHING` -/
def Table.insert (t : Table) (x : Stored) : Table :=
  if h : x.key ∈ t.rows.map Stored.key then t
  else ⟨x :: t.rows, by rw [List.map_cons]; exact List.nodup_cons.2 ⟨h, t.unique⟩⟩

/-! ## Ingestion -/

/-- What a row is stored as. -/
def Source.stored (R : Runtime) (src : Source) (day : Int) (row : Row) :
    Except IngestFailure Stored := do
  let id ← src.naturalRowId row
  let columns ← src.columns R row
  match id with
  | .str id => if R.encodes src columns then .ok ⟨day, id, columns⟩ else .error .dataError
  | .null => .error .notNullViolation
  | _ => .error .dataError

/-- The loop of INSERTs.  What was inserted before one raises stays. -/
def insertRows (R : Runtime) (src : Source) (day : Int) :
    List Row → Table → Table × Except IngestFailure Unit
  | [], t => (t, .ok ())
  | row :: rest, t =>
    match src.stored R day row with
    | .ok x => insertRows R src day rest (t.insert x)
    | .error e => (t, .error e)

/-- What an ingestion returns. -/
structure Ingested where
  rowsInserted : Int
  rowCount : Nat
deriving DecidableEq

/-- `ingest_buffer_day`, `ingest_ga4_day`, `ingest_search_console_day`, `ingest_linkedin_day` -/
def ingestDay (R : Runtime) (src : Source) (day : Int) (payload : List Row) (t : Table) :
    Table × Except IngestFailure Ingested :=
  let beforeCount := t.countForDay day
  let (after, out) := insertRows R src day payload t
  (after, out.map fun _ =>
    let afterCount := after.countForDay day
    ⟨afterCount - beforeCount, afterCount⟩)

/-! ## What is promised -/

/-- The dimensions in which the source itself tells its rows apart. -/
def Source.dimensions : Source → Row → List Json
  | .buffer, row | .linkedin, row => [Json.get row "post_id"]
  | .ga4, row => [Json.get row "landing_page", Json.get row "utm_campaign"]
  | .searchConsole, row => [Json.get row "page", Json.get row "query"]

/-- The rows of the payload are told apart by the source. -/
def Distinct (src : Source) (payload : List Row) : Prop :=
  payload.Pairwise fun row row' => src.dimensions row ≠ src.dimensions row'

instance (src : Source) (payload : List Row) : Decidable (Distinct src payload) :=
  inferInstanceAs (Decidable (payload.Pairwise _))

/-- Nothing of the payload is lost, and nothing of it is stored twice. -/
structure LosesNothing (R : Runtime) (src : Source) (day : Int) (payload : List Row) (t : Table) :
    Prop where
  /-- every row is stored, with its own figures -/
  stored : ∀ row ∈ payload, ∃ x ∈ (ingestDay R src day payload t).1.rows,
    src.stored R day row = .ok x
  /-- different rows have different ids -/
  apart : payload.Pairwise fun row row' => src.naturalRowId row ≠ src.naturalRowId row'
  /-- any of it, in any order, again: nothing is inserted and nothing changes -/
  again : ∀ rows, (∀ row ∈ rows, row ∈ payload) →
    ingestDay R src day rows (ingestDay R src day payload t).1 =
      ((ingestDay R src day payload t).1,
        .ok ⟨0, (ingestDay R src day payload t).1.countForDay day⟩)

/-- Two rows come to the same id although the source tells them apart. -/
def Source.clash : Source → Row → Row → Prop
  | .buffer, _, _ | .linkedin, _, _ => False
  -- whatever their campaigns are
  | .ga4, row, row' => landingPage row = landingPage row'
  -- the texts of the two dimensions run together
  | .searchConsole, row, row' => pageQuery row = pageQuery row'

/-- No two rows clash, every row can be stored, and nothing else is stored under its id. -/
structure Separate (R : Runtime) (src : Source) (day : Int) (payload : List Row) (t : Table) :
    Prop where
  noClash : payload.Pairwise fun row row' => ¬ src.clash row row'
  storable : ∀ row ∈ payload, ∃ x, src.stored R day row = .ok x ∧
    ∀ y ∈ t.rows, y.key = x.key → y = x

/-! ## Ids -/

variable {R : Runtime} {src : Source} {day : Int} {row row' : Row} {x y : Stored} {t : Table}
  {payload : List Row}

/-- A row is stored under its id. -/
theorem id_of_stored (h : src.stored R day row = .ok x) :
    src.naturalRowId row = .ok (.str x.naturalRowId) ∧ x.day = day := by
  unfold Source.stored at h
  cases hid : src.naturalRowId row with
  | error e => rw [hid] at h; cases h
  | ok id =>
    cases hcolumns : src.columns R row with
    | error e => rw [hid, hcolumns] at h; cases h
    | ok columns =>
      rw [hid, hcolumns] at h
      dsimp only [bind, Except.bind] at h
      split at h
      · split at h
        · obtain rfl := Except.ok.inj h
          exact ⟨rfl, rfl⟩
        · cases h
      · cases h
      · cases h

/-- Two rows with different ids are stored under different keys. -/
theorem id_eq_of_key_eq (h : src.stored R day row = .ok x) (h' : src.stored R day row' = .ok y)
    (hkey : x.key = y.key) : src.naturalRowId row = src.naturalRowId row' := by
  have hid : x.naturalRowId = y.naturalRowId := (Prod.mk.inj hkey).2
  rw [(id_of_stored h).1, (id_of_stored h').1, hid]

theorem get_of_postId (h : postId row = postId row') :
    Json.get row "post_id" = Json.get row' "post_id" := by
  unfold postId at h
  unfold Json.get
  cases hl : Json.lookup row "post_id" with
  | none =>
    cases hl' : Json.lookup row' "post_id" with
    | none => rfl
    | some v' => rw [hl, hl'] at h; cases h
  | some v =>
    cases hl' : Json.lookup row' "post_id" with
    | none => rw [hl, hl'] at h; cases h
    | some v' =>
      rw [hl, hl'] at h
      rw [Except.ok.inj h]

/-- Rows that the source tells apart come to the same id exactly when they clash. -/
theorem clash_iff (hdim : src.dimensions row ≠ src.dimensions row') :
    src.clash row row' ↔ src.naturalRowId row = src.naturalRowId row' := by
  cases src with
  | buffer | linkedin =>
    refine ⟨False.elim, fun h => hdim ?_⟩
    show [Json.get row "post_id"] = [Json.get row' "post_id"]
    rw [get_of_postId h]
  | ga4 => exact ⟨fun h => congrArg Except.ok h, fun h => Except.ok.inj h⟩
  | searchConsole =>
    exact ⟨fun h => congrArg (fun s => Except.ok (Json.str s)) h,
      fun h => Json.str.inj (Except.ok.inj h)⟩

theorem noClash_iff (hdistinct : Distinct src payload) :
    (payload.Pairwise fun row row' => ¬ src.clash row row') ↔
      payload.Pairwise fun row row' => src.naturalRowId row ≠ src.naturalRowId row' := by
  constructor
  · intro h
    exact (hdistinct.and h).imp fun ⟨hdim, hclash⟩ hid => hclash ((clash_iff hdim).2 hid)
  · intro h
    exact (hdistinct.and h).imp fun ⟨hdim, hid⟩ hclash => hid ((clash_iff hdim).1 hclash)

/-! ## The loop -/

theorem insert_of_mem (h : x ∈ t.rows) : t.insert x = t := by
  unfold Table.insert
  rw [dif_pos (List.mem_map_of_mem h)]

theorem mem_insert_of_mem (h : y ∈ t.rows) : y ∈ (t.insert x).rows := by
  unfold Table.insert
  split
  · exact h
  · exact List.mem_cons_of_mem _ h

/-- What an INSERT leaves was there, or is the new row. -/
theorem of_mem_insert (h : y ∈ (t.insert x).rows) : y ∈ t.rows ∨ y = x := by
  unfold Table.insert at h
  split at h
  · exact .inl h
  · exact (List.mem_cons.1 h).symm

/-- A row is inserted, unless its id is taken by another. -/
theorem mem_insert_self (h : ∀ y ∈ t.rows, y.key = x.key → y = x) : x ∈ (t.insert x).rows := by
  unfold Table.insert
  split
  · next hkey =>
    obtain ⟨y, hy, heq⟩ := List.mem_map.1 hkey
    rw [← h y hy heq]
    exact hy
  · exact List.mem_cons_self

theorem mem_insertRows (h : y ∈ t.rows) : y ∈ (insertRows R src day payload t).1.rows := by
  induction payload generalizing t with
  | nil => exact h
  | cons row rest ih =>
    unfold insertRows
    split
    · exact ih (mem_insert_of_mem h)
    · exact h

/-- Rows with different ids, none of them taken, are all stored. -/
theorem insertRows_stores (hids : payload.Pairwise fun row row' =>
      src.naturalRowId row ≠ src.naturalRowId row')
    (hstorable : ∀ row ∈ payload, ∃ x, src.stored R day row = .ok x ∧
      ∀ y ∈ t.rows, y.key = x.key → y = x) :
    ∀ row ∈ payload, ∃ x ∈ (insertRows R src day payload t).1.rows,
      src.stored R day row = .ok x := by
  induction payload generalizing t with
  | nil => exact fun row h => nomatch h
  | cons row rest ih =>
    obtain ⟨hhead, htail⟩ := List.pairwise_cons.1 hids
    obtain ⟨x, hx, hfree⟩ := hstorable row List.mem_cons_self
    unfold insertRows
    rw [hx]
    intro r hr
    rcases List.mem_cons.1 hr with rfl | hr
    · exact ⟨x, mem_insertRows (mem_insert_self hfree), hx⟩
    · -- the ids of the rest are still free
      refine ih htail (fun r' hr' => ?_) r hr
      obtain ⟨z, hz, hfree'⟩ := hstorable r' (List.mem_cons_of_mem _ hr')
      refine ⟨z, hz, fun y hy hkey => ?_⟩
      rcases of_mem_insert hy with hy | rfl
      · exact hfree' y hy hkey
      · exact absurd (id_eq_of_key_eq hx hz hkey) (hhead r' hr')

/-- Rows that are stored already change nothing. -/
theorem insertRows_again (h : ∀ row ∈ payload, ∃ x ∈ t.rows, src.stored R day row = .ok x) :
    insertRows R src day payload t = (t, .ok ()) := by
  induction payload with
  | nil => rfl
  | cons row rest ih =>
    obtain ⟨x, hmem, hx⟩ := h row List.mem_cons_self
    unfold insertRows
    rw [hx]
    dsimp only
    rw [insert_of_mem hmem]
    exact ih fun r hr => h r (List.mem_cons_of_mem _ hr)

theorem ingestDay_again (h : ∀ row ∈ payload, ∃ x ∈ t.rows, src.stored R day row = .ok x) :
    ingestDay R src day payload t = (t, .ok ⟨0, t.countForDay day⟩) := by
  unfold ingestDay
  rw [insertRows_again h]
  show (t, Except.ok (Ingested.mk _ _)) = _
  rw [Int.sub_self]

/-- Whole numbers only, and whatever columns. -/
def plainRuntime : Runtime where
  asInt := fun | .int n => n | _ => 0
  asFloat := id
  add := fun | .int a, .int b => .ok (.int (a + b)) | _, _ => .error .typeError
  truediv := fun | .int a, .int b => .ok (.int (a / b)) | _, _ => .error .typeError
  encodes := fun _ _ => true

/-- Visits to the prices from a campaign, and without one. -/
def pricingReport : List ReportRow :=
  [⟨[.str "/pricing", .str "summer"], [.int 40, .int 30, .int 5]⟩,
    ⟨[.str "/pricing", .str "(not set)"], [.int 12, .int 2, .int 0]⟩]

def emptyTable : Table := ⟨[], List.nodup_nil⟩

/-- Two queries that ran on two pages. -/
def twoPages : List QueryRow :=
  [⟨[.str "fabric", .str "/blog"], .int 3, .int 90, .int 0, .int 4⟩,
    ⟨[.str "fabric", .str "/pricing"], .int 1, .int 20, .int 0, .int 7⟩]

end CanvasOS.Analytics
