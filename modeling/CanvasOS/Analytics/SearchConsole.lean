/-
  The live Search Console connector (`search_console_client.get_search_console_day_live`): it asks
  for a day's rows page by page until a short page comes back.

  1. The connector, with what it sends and the errors it raises.
  2. `fetchPages_spec` — an induction over the pages: the calls that were made are those of the
     first `j` pages, and all of these but the last are full.  A page is full if it still has
     `_ROW_LIMIT` rows once it is parsed.
  3. `complete_iff` — the day is collected whole exactly when it has no more rows than fit on
     `_MAX_PAGES` pages, and the malformed ones are all on its last page.  A malformed row on a page
     before makes that page look short, and the rest of the day is left (`malformedDay_incomplete`).
-/
import CanvasOS.Analytics.Ingest
import Mathlib.Data.List.Range

namespace CanvasOS.Analytics

open Python

namespace SearchConsole

/-! ## The connector -/

/-- `SEARCH_CONSOLE_API_BASE` -/
def apiBase : String := "https://www.googleapis.com/webmasters/v3"

/-- `_DIMENSIONS` -/
def dimensions : List String := ["query", "page"]

/-- `_ROW_LIMIT` -/
def rowLimit : Nat := 25000

/-- `_MAX_PAGES` -/
def maxPages : Nat := 20

inductive LiveFailure where
  /-- `SearchConsoleClientError` -/
  | clientError (message : String)
  /-- what `access_token` or `httpx` raises -/
  | transport (message : String)
deriving DecidableEq

/-- What the connector reads of its surroundings. -/
structure Settings where
  /-- `resolve_secret(SEARCH_CONSOLE_SERVICE_ACCOUNT_KEY_ENV, …)` -/
  rawKey : Option String
  /-- `search_console_site_url` -/
  siteUrl : Option String
  /-- the environment variable `SEARCH_CONSOLE_API_BASE` -/
  apiBaseOverride : Option String
  /-- `access_token(raw_key, SEARCH_CONSOLE_SCOPE)` -/
  accessToken : String → Except LiveFailure String

/-- `search_console_api_base` -/
def searchConsoleApiBase (S : Settings) : String :=
  String.ofList (((S.apiBaseOverride.getD apiBase).toList.reverse.dropWhile (· == '/')).reverse)

def hexDigit (n : Nat) : Char := Char.ofNat (if n < 10 then 48 + n else 55 + n)

/-- `quote(text, safe="")`: the letters, the digits and `_.-~` stay as they are. -/
def quote (text : String) : String :=
  String.ofList (text.toUTF8.toList.flatMap fun b =>
    let c := Char.ofNat b.toNat
    if c.isAlphanum || c ∈ ['_', '.', '-', '~'] then [c]
    else ['%', hexDigit (b.toNat / 16), hexDigit (b.toNat % 16)])

/-- The request for a page. -/
structure QueryRequest where
  url : String
  startDate : String
  endDate : String
  dimensions : List String
  type : String
  rowLimit : Nat
  startRow : Nat
  authorization : String
deriving DecidableEq

/-- The answer to it, with the rows of its JSON. -/
structure QueryResponse where
  statusCode : Nat
  text : String
  rows : List QueryRow

/-- The loop over the pages, with the requests it makes. -/
def fetchPages (R : Runtime) (day : String) (request : Nat → QueryRequest)
    (post : QueryRequest → Except LiveFailure QueryResponse) :
    (pages : List Nat) → (collected : List Row) →
      List QueryRequest × Except LiveFailure (List Row)
  | [], collected => ([], .ok collected)
  | pageIndex :: pages, collected =>
    let sent := request pageIndex
    match post sent with
    | .error e => ([sent], .error e)
    | .ok response =>
      if response.statusCode ≠ 200 then
        ([sent], .error (.clientError (
          "Search Console query failed for " ++ day ++ ": HTTP " ++ toString response.statusCode ++
            " " ++ String.ofList (response.text.toList.take 400))))
      else
        let pageRows := parseRows R response.rows
        let collected := collected ++ pageRows
        if pageRows.length < rowLimit then ([sent], .ok collected)
        else
          let (requests, result) := fetchPages R day request post pages collected
          (sent :: requests, result)

/-- The request that `get_search_console_day_live` makes for a page. -/
def pageRequest (S : Settings) (siteUrl token day : String) (pageIndex : Nat) : QueryRequest where
  url := searchConsoleApiBase S ++ "/sites/" ++ quote siteUrl ++ "/searchAnalytics/query"
  startDate := day
  endDate := day
  dimensions := dimensions
  type := "web"
  rowLimit := rowLimit
  startRow := pageIndex * rowLimit
  authorization := "Bearer " ++ token

/-- `get_search_console_day_live` -/
def getSearchConsoleDayLive (R : Runtime) (S : Settings)
    (post : QueryRequest → Except LiveFailure QueryResponse) (day : String) :
    List QueryRequest × Except LiveFailure (List Row) :=
  match S.rawKey.getD "", S.siteUrl.getD "" with
  | "", _ => ([], .error (.clientError
      "Search Console live mode requested but no service-account key resolved"))
  | _, "" => ([], .error (.clientError
      ("Search Console service-account key is configured but " ++
        "SEARCH_CONSOLE_SITE_URL (Key Vault: search-console-site-url) is not " ++
        "— refusing to fall back to fixtures, which would silently feed fake " ++
        "rows into a real rollup")))
  | rawKey, siteUrl =>
    match S.accessToken rawKey with
    | .error e => ([], .error e)
    | .ok token =>
      fetchPages R day (pageRequest S siteUrl token day) post (List.range maxPages) []

/-! ## What is promised -/

/-- `len(keys) >= 2` -/
def WellFormed (row : QueryRow) : Prop := 2 ≤ row.keys.length

instance (row : QueryRow) : Decidable (WellFormed row) := inferInstanceAs (Decidable (_ ≤ _))

/-- What a well-formed row says. -/
def figures (R : Runtime) (row : QueryRow) : Row := [
  ("query", row.keys.getD 0 .null),
  ("page", row.keys.getD 1 .null),
  ("clicks", .int (R.asInt row.clicks)),
  ("impressions", .int (R.asInt row.impressions)),
  ("ctr", R.asFloat row.ctr),
  ("position", R.asFloat row.position)]

/-- The API holds these rows for the day; an answer with another status is possible, too. -/
def Serves (dayRows : List QueryRow) (post : QueryRequest → Except LiveFailure QueryResponse) :
    Prop :=
  ∀ sent response, post sent = .ok response → response.statusCode = 200 →
    response.rows = (dayRows.drop sent.startRow).take sent.rowLimit

/-- The rows of the whole day, from all of its pages, each asked for once. -/
structure Complete (R : Runtime) (dayRows : List QueryRow) (requests : List QueryRequest)
    (result : List Row) : Prop where
  whole : result = (dayRows.filter fun row => WellFormed row).map (figures R)
  noneSkipped : ∀ pageIndex, pageIndex * rowLimit < dayRows.length →
    pageIndex * rowLimit ∈ requests.map QueryRequest.startRow
  noneTwice : (requests.map QueryRequest.startRow).Nodup

/-- The day fits on the pages that are asked for at most, and the rows in front of its last page are
    well formed. -/
structure Pageable (dayRows : List QueryRow) : Prop where
  fits : dayRows.length ≤ maxPages * rowLimit
  wellFormed : ∀ row ∈ dayRows.take ((dayRows.length - 1) / rowLimit * rowLimit), WellFormed row

/-! ## One page -/

variable {R : Runtime} {day : String} {dayRows rows : List QueryRow}
  {request : Nat → QueryRequest} {post : QueryRequest → Except LiveFailure QueryResponse}
  {requests : List QueryRequest} {collected result : List Row}

theorem parseRows_eq (R : Runtime) (rows : List QueryRow) :
    parseRows R rows = (rows.filter fun row => WellFormed row).map (figures R) := by
  unfold parseRows
  rw [← List.filterMap_eq_map, List.filterMap_filter]
  refine List.filterMap_congr fun row _ => ?_
  match hkeys : row.keys with
  | [] | [_] =>
    have hbad : ¬WellFormed row := by simp [WellFormed, hkeys]
    simp [hbad]
  | query :: page :: rest =>
    have hgood : WellFormed row := by simp [WellFormed, hkeys]
    simp [hgood, figures, hkeys]

theorem parseRows_length (R : Runtime) (rows : List QueryRow) :
    (parseRows R rows).length = rows.countP fun row => WellFormed row := by
  rw [parseRows_eq, List.length_map, List.countP_eq_length_filter]

theorem parseRows_append (R : Runtime) (rows rows' : List QueryRow) :
    parseRows R (rows ++ rows') = parseRows R rows ++ parseRows R rows' := List.filterMap_append

/-- The rows on a page of the day. -/
def page (dayRows : List QueryRow) (pageIndex : Nat) : List QueryRow :=
  (dayRows.drop (pageIndex * rowLimit)).take rowLimit

/-- The page does not look short. -/
def Full (dayRows : List QueryRow) (pageIndex : Nat) : Prop :=
  rowLimit ≤ (page dayRows pageIndex).countP fun row => WellFormed row

/-- A page looks full when it is full, and all on it is well formed. -/
theorem full_iff {pageIndex : Nat} : Full dayRows pageIndex ↔
    (pageIndex + 1) * rowLimit ≤ dayRows.length ∧
      ∀ row ∈ page dayRows pageIndex, WellFormed row := by
  have hlength : (page dayRows pageIndex).length =
      min rowLimit (dayRows.length - pageIndex * rowLimit) := by
    rw [page, List.length_take, List.length_drop]
  have hcount := List.countP_le_length (p := fun row => WellFormed row)
    (l := page dayRows pageIndex)
  have hall : (page dayRows pageIndex).countP (fun row => WellFormed row) =
      (page dayRows pageIndex).length ↔ ∀ row ∈ page dayRows pageIndex, WellFormed row := by
    rw [List.countP_eq_length]
    simp only [decide_eq_true_iff]
  have hmul : (pageIndex + 1) * rowLimit = pageIndex * rowLimit + rowLimit := Nat.succ_mul _ _
  have hpos : 0 < rowLimit := by decide
  rw [← hall]
  unfold Full
  omega

/-! ## The loop -/

theorem fetchPages_spec {k m : Nat} (hserves : Serves dayRows post)
    (hrequest : ∀ i, (request i).startRow = i * rowLimit ∧ (request i).rowLimit = rowLimit)
    (h : fetchPages R day request post (List.range' k m) collected = (requests, .ok result)) :
    ∃ j ≤ m, requests = (List.range' k j).map request ∧
      result = collected ++ parseRows R ((dayRows.drop (k * rowLimit)).take (j * rowLimit)) ∧
      (∀ i, i + 1 < j → Full dayRows (k + i)) ∧
      (j = m ∨ ∃ i, j = i + 1 ∧ ¬Full dayRows (k + i)) := by
  induction m generalizing k collected requests with
  | zero =>
    obtain ⟨rfl, hresult⟩ := Prod.mk.inj h
    refine ⟨0, Nat.le_refl 0, rfl, ?_, fun i hi => absurd hi (Nat.not_lt_zero _), Or.inl rfl⟩
    rw [← Except.ok.inj hresult, Nat.zero_mul, List.take_zero]
    exact (List.append_nil collected).symm
  | succ m ih =>
    rw [List.range'_succ, fetchPages] at h
    dsimp only at h
    split at h
    next e hpost => cases (Prod.mk.inj h).2
    next response hpost =>
      split at h
      next hstatus => cases (Prod.mk.inj h).2
      next hstatus =>
        have hrows : response.rows = page dayRows k := by
          rw [hserves _ _ hpost (not_not.1 hstatus), (hrequest k).1, (hrequest k).2]
          rfl
        rw [hrows, parseRows_length] at h
        split at h
        next hshort =>
          obtain ⟨rfl, hresult⟩ := Prod.mk.inj h
          refine ⟨1, Nat.le_add_left 1 m, rfl, ?_, fun i hi => absurd hi (by omega),
            Or.inr ⟨0, rfl, ?_⟩⟩
          · rw [← Except.ok.inj hresult, Nat.one_mul]
            rfl
          · exact Nat.not_le.2 hshort
        next hfull =>
          obtain ⟨rfl, hresult⟩ := Prod.mk.inj h
          obtain ⟨j, hj, hrequests, hresult, hfulls, hlast⟩ := ih (Prod.ext rfl hresult)
          refine ⟨j + 1, Nat.succ_le_succ hj, ?_, ?_, fun i hi => ?_, ?_⟩
          · rw [List.range'_succ, List.map_cons, ← hrequests]
          · rw [hresult, List.append_assoc, ← parseRows_append, page, Nat.succ_mul k,
              ← List.drop_drop, ← List.take_add, Nat.succ_mul j, Nat.add_comm rowLimit]
          · cases i with
            | zero => exact Nat.not_lt.1 hfull
            | succ i =>
              rw [show k + (i + 1) = k + 1 + i by omega]
              exact hfulls i (by omega)
          · refine hlast.imp (congrArg (· + 1)) ?_
            rintro ⟨i, rfl, hnot⟩
            exact ⟨i + 1, rfl, by rwa [show k + (i + 1) = k + 1 + i by omega]⟩

/-- A row of the first pages is on one of them. -/
theorem mem_page_of_mem_take {row : QueryRow} {n : Nat} (h : row ∈ dayRows.take (n * rowLimit)) :
    ∃ i < n, row ∈ page dayRows i := by
  induction n with
  | zero => simp at h
  | succ n ih =>
    rw [Nat.succ_mul, List.take_add, List.mem_append] at h
    rcases h with h | h
    · obtain ⟨i, hi, hrow⟩ := ih h
      exact ⟨i, Nat.lt_succ_of_lt hi, hrow⟩
    · exact ⟨n, Nat.lt_succ_self n, h⟩

/-- The pages in front of the last one look full exactly when all rows on them are well formed. -/
theorem full_of_wellFormed {i : Nat}
    (h : ∀ row ∈ dayRows.take ((dayRows.length - 1) / rowLimit * rowLimit), WellFormed row)
    (hi : (i + 1) * rowLimit < dayRows.length) : Full dayRows i := by
  refine full_iff.2 ⟨Nat.le_of_lt hi, fun row hrow => h row ?_⟩
  have hlast : i + 1 ≤ (dayRows.length - 1) / rowLimit :=
    (Nat.le_div_iff_mul_le (by decide)).2 (by omega)
  have hin : row ∈ dayRows.take ((i + 1) * rowLimit) := by
    rw [Nat.succ_mul, List.take_add]
    exact List.mem_append_right _ hrow
  exact (List.take_subset_take_left _ (Nat.mul_le_mul_right rowLimit hlast)) hin

/-- What a run of the loop over all pages came to. -/
theorem complete_fetchPages_iff (hserves : Serves dayRows post)
    (hrequest : ∀ i, (request i).startRow = i * rowLimit ∧ (request i).rowLimit = rowLimit)
    (h : fetchPages R day request post (List.range maxPages) [] = (requests, .ok result)) :
    Complete R dayRows requests result ↔ Pageable dayRows := by
  rw [List.range_eq_range'] at h
  obtain ⟨j, hj, rfl, hresult, hfulls, hlast⟩ := fetchPages_spec hserves hrequest h
  simp only [Nat.zero_add] at hfulls hlast
  rw [List.nil_append, Nat.zero_mul, List.drop_zero, parseRows_eq] at hresult
  have hstarts : ((List.range' 0 j).map request).map QueryRequest.startRow =
      (List.range j).map (· * rowLimit) := by
    rw [List.map_map, List.range_eq_range']
    exact List.map_congr_left fun i _ => (hrequest i).1
  have hasked : ∀ i, i * rowLimit ∈ (List.range j).map (· * rowLimit) ↔ i < j := by
    intro i
    rw [List.mem_map]
    constructor
    · rintro ⟨i', hi', heq⟩
      obtain rfl := Nat.eq_of_mul_eq_mul_right (by decide) heq
      exact List.mem_range.1 hi'
    · exact fun hi => ⟨i, List.mem_range.2 hi, rfl⟩
  have hlimit : 0 < rowLimit := by decide
  constructor
  · rintro ⟨-, hnone, -⟩
    rw [hstarts] at hnone
    -- the last page was asked for, so that all pages in front of it looked full
    have hbefore : ∀ i, i * rowLimit < dayRows.length → i < j := fun i hi =>
      (hasked i).1 (hnone i hi)
    constructor
    · by_contra hmany
      exact Nat.not_lt.2 hj (hbefore maxPages (Nat.not_le.1 hmany))
    · intro row hrow
      obtain ⟨i, hi, hpage⟩ := mem_page_of_mem_take hrow
      have hnext : (i + 1) * rowLimit < dayRows.length := by
        have hle : (i + 1) * rowLimit ≤ dayRows.length - 1 := (Nat.le_div_iff_mul_le hlimit).1 hi
        have hpos : 0 < (i + 1) * rowLimit := Nat.mul_pos (Nat.succ_pos i) hlimit
        omega
      exact (full_iff.1 (hfulls i (hbefore (i + 1) hnext))).2 row hpage
  · rintro ⟨hfits, hgood⟩
    -- no row is left when the loop stops
    have hall : dayRows.length ≤ j * rowLimit := by
      by_contra hmore
      rcases hlast with rfl | ⟨i, rfl, hnot⟩
      · exact hmore hfits
      · exact hnot (full_of_wellFormed hgood (Nat.not_le.1 hmore))
    constructor
    case whole => rw [hresult, List.take_of_length_le hall]
    case noneSkipped =>
      intro i hi
      rw [hstarts, hasked]
      exact Nat.lt_of_mul_lt_mul_right (Nat.lt_of_lt_of_le hi hall)
    case noneTwice =>
      rw [hstarts]
      exact List.nodup_range.map fun i i' heq => Nat.eq_of_mul_eq_mul_right hlimit heq

/-- What `get_search_console_day_live` returns comes from the loop. -/
theorem fetchPages_of_live {S : Settings}
    (h : getSearchConsoleDayLive R S post day = (requests, .ok result)) :
    ∃ siteUrl token, fetchPages R day (pageRequest S siteUrl token day) post
      (List.range maxPages) [] = (requests, .ok result) := by
  unfold getSearchConsoleDayLive at h
  split at h
  · cases (Prod.mk.inj h).2
  · cases (Prod.mk.inj h).2
  · split at h
    · cases (Prod.mk.inj h).2
    · exact ⟨_, _, h⟩

/-! ## The whole day -/

/-- Whatever returns has the whole day exactly when the day can be paged: it is not too long, and no
    row in front of its last page is malformed. -/
theorem complete_iff {S : Settings} (hserves : Serves dayRows post)
    (h : getSearchConsoleDayLive R S post day = (requests, .ok result)) :
    Complete R dayRows requests result ↔ Pageable dayRows := by
  obtain ⟨siteUrl, token, hloop⟩ := fetchPages_of_live h
  exact complete_fetchPages_iff hserves (fun i => ⟨rfl, rfl⟩) hloop

/-- The API answers every request. -/
def answering (dayRows : List QueryRow) (sent : QueryRequest) :
    Except LiveFailure QueryResponse :=
  .ok ⟨200, "", (dayRows.drop sent.startRow).take sent.rowLimit⟩

theorem serves_answering (dayRows : List QueryRow) : Serves dayRows (answering dayRows) := by
  intro sent response h _
  rw [← Except.ok.inj h]

/-- Then the loop returns. -/
theorem fetchPages_answering (pages : List Nat) (collected : List Row) :
    ∃ requests result, fetchPages R day request (answering dayRows) pages collected =
      (requests, .ok result) := by
  induction pages generalizing collected with
  | nil => exact ⟨[], collected, rfl⟩
  | cons pageIndex pages ih =>
    unfold fetchPages answering
    dsimp only
    rw [if_neg (not_not.2 rfl)]
    split
    · exact ⟨_, _, rfl⟩
    · obtain ⟨requests, result, hrest⟩ := ih (collected ++ parseRows R
        ((dayRows.drop (request pageIndex).startRow).take (request pageIndex).rowLimit))
      have hrequests := congrArg Prod.fst hrest
      have hresult := congrArg Prod.snd hrest
      exact ⟨request pageIndex :: requests, result,
        Prod.ext (congrArg (request pageIndex :: ·) hrequests) hresult⟩

/-- A connector with its key. -/
def configured : Settings :=
  ⟨some "key", some "sc-domain:canvasintelligence.com", none, fun _ => .ok "token"⟩

/-- Figures that are all zero. -/
def zeroRuntime : Runtime where
  asInt _ := 0
  asFloat _ := .int 0
  add _ _ := .ok (.int 0)
  truediv _ _ := .ok (.int 0)
  encodes _ _ := true

def goodRow : QueryRow := ⟨[.str "canvas", .str "/pricing"], .int 3, .int 40, .null, .null⟩

def badRow : QueryRow := ⟨[.str "canvas"], .int 1, .int 2, .null, .null⟩

/-- So the day is read. -/
theorem live_answering (dayRows : List QueryRow) : ∃ requests result,
    getSearchConsoleDayLive zeroRuntime configured (answering dayRows) "2026-08-07" =
      (requests, .ok result) := fetchPages_answering _ _

/-- The malformed row is on the only page. -/
theorem shortDay_complete : ∃ requests result,
    Serves [badRow, goodRow] (answering [badRow, goodRow]) ∧
    getSearchConsoleDayLive zeroRuntime configured (answering [badRow, goodRow]) "2026-08-07" =
      (requests, .ok result) ∧
    (Complete zeroRuntime [badRow, goodRow] requests result ↔ Pageable [badRow, goodRow]) := by
  have hserves := serves_answering [badRow, goodRow]
  have hlive : getSearchConsoleDayLive zeroRuntime configured (answering [badRow, goodRow])
      "2026-08-07" =
        ([pageRequest configured "sc-domain:canvasintelligence.com" "token" "2026-08-07" 0],
          .ok [figures zeroRuntime goodRow]) := rfl
  exact ⟨_, _, hserves, hlive, complete_iff hserves hlive⟩

/-- A full page with a malformed row, and one row more. -/
def malformedDay : List QueryRow := badRow :: List.replicate rowLimit goodRow

/-- That row is never asked for. -/
theorem malformedDay_incomplete : ¬∀ (R : Runtime) (S : Settings) (dayRows : List QueryRow) post,
    Serves dayRows post → ∀ day requests result,
      getSearchConsoleDayLive R S post day = (requests, .ok result) →
        Complete R dayRows requests result := by
  intro hall
  obtain ⟨requests, result, hlive⟩ := live_answering malformedDay
  have hcomplete := hall _ _ _ _ (serves_answering malformedDay) _ _ _ hlive
  obtain ⟨siteUrl, token, hloop⟩ := fetchPages_of_live hlive
  have hgood := ((complete_fetchPages_iff (serves_answering malformedDay)
    (fun i => ⟨rfl, rfl⟩) hloop).1 hcomplete).wellFormed
  have hlength : (malformedDay.length - 1) / rowLimit * rowLimit = rowLimit := by
    rw [malformedDay, List.length_cons, List.length_replicate]
    rfl
  have hbad : badRow ∈ malformedDay.take ((malformedDay.length - 1) / rowLimit * rowLimit) := by
    rw [hlength]
    exact List.mem_cons_self
  exact absurd (hgood badRow hbad) (by decide)

end SearchConsole

end CanvasOS.Analytics
