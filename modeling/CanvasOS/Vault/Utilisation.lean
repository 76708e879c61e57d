/-
  The utilisation of the Vault: every GET of an object is logged, the log of a day is counted into
  `utilisation_daily` (`vault/rollup.py`), and the retention sweep purges what is older than its
  limit (the last part of `run_retention_expiry`).

  1. `recordAccess`, `runRollup`, `purgeAccessLog` — a rollup counts in one statement and writes
     each count in one of its own, so that other requests come in between.
  2. `Heeds` — what a rollup writes was counted in a log that had not lost what was counted before,
     and no other rollup has written more since.
  3. `utilisation_durable` — in every run that heeds this no count decreases, and a day that was
     rolled up after its end, before any of it was purged, is counted once and for all.
-/
import Mathlib.Data.List.Dedup
import CanvasOS.Lib.Part
import CanvasOS.Lib.Trace
import CanvasOS.Lib.Upsert

namespace CanvasOS.Utilisation

open Interleave Upsert

/-! ## The tables -/

/-- A row of `access_log`. -/
structure AccessRow where
  objectTable : String
  objectId : Option String
  callerService : String
  occurredAt : Int
deriving DecidableEq

/-- What the rows of a day are grouped by: `object_table` and `caller_service`. -/
abbrev Group := String × String

def AccessRow.group (row : AccessRow) : Group := (row.objectTable, row.callerService)

/-- A row of `utilisation_daily`. -/
structure DailyRow where
  day : Int
  objectTable : String
  callerService : String
  readCount : Nat
deriving DecidableEq

/-- `UNIQUE (day, object_table, caller_service)` -/
def DailyRow.key (row : DailyRow) : Int × Group := (row.day, row.objectTable, row.callerService)

/-- The clock in microseconds, and the two tables. -/
structure Db where
  clock : Int
  accessLog : List AccessRow
  utilisationDaily : Keyed DailyRow.key

/-- The day of a time, and the midnight it starts with. -/
def dayOf (time : Int) : Int := time / 86400000000

def dayStart (day : Int) : Int := day * 86400000000

/-- `occurred_at >= $1 AND occurred_at < $2`, in a group. -/
def AccessRow.within (row : AccessRow) (start stop : Int) (g : Group) : Bool :=
  start ≤ row.occurredAt ∧ row.occurredAt < stop ∧ row.group = g

/-- The number of rows of a group. -/
def Db.logged (db : Db) (start stop : Int) (g : Group) : Nat :=
  db.accessLog.countP fun row => row.within start stop g

/-- `SELECT object_table, caller_service, count(*) … GROUP BY object_table, caller_service` -/
def Db.counts (db : Db) (start stop : Int) : List (Group × Nat) :=
  ((db.accessLog.filter fun row => start ≤ row.occurredAt ∧ row.occurredAt < stop).map
    AccessRow.group).dedup.map fun g => (g, db.logged start stop g)

/-- The `read_count` of a row; nothing is counted where there is none. -/
def Db.readCount (db : Db) (day : Int) (g : Group) : Nat :=
  ((db.utilisationDaily.find (day, g)).map DailyRow.readCount).getD 0

/-! ## The statements -/

inductive Op where
  /-- `datetime.now(timezone.utc)` -/
  | utcNow
  | insertAccess (objectTable : String) (objectId : Option String) (callerService : String)
  | countAccess (start stop : Int)
  | upsertDaily (day : Int) (objectTable callerService : String) (readCount : Nat)
  | purgeAccess (cutoff : Int)
deriving DecidableEq

def Op.Res : Op → Type
  | .utcNow => Int
  | .insertAccess .. | .upsertDaily .. => Unit
  | .countAccess .. => List (Group × Nat)
  | .purgeAccess _ => Nat

/-- One statement, each of them a transaction of its own.  The groups come in any order. -/
def exec : (o : Op) → o.Res → Db → Option (o.Res × Db)
  | .utcNow, _, db => some (db.clock, db)
  | .insertAccess objectTable objectId callerService, _, db =>
    let row : AccessRow := ⟨objectTable, objectId, callerService, db.clock⟩
    some ((), { db with accessLog := row :: db.accessLog })
  | .countAccess start stop, rows, db =>
    if rows.isPerm (db.counts start stop) then some (rows, db) else none
  | .upsertDaily day objectTable callerService readCount, _, db =>
    let row : DailyRow := ⟨day, objectTable, callerService, readCount⟩
    some ((), { db with utilisationDaily := db.utilisationDaily.upsert row })
  | .purgeAccess cutoff, _, db =>
    some (db.accessLog.countP fun row => row.occurredAt < cutoff,
      { db with accessLog := db.accessLog.filter fun row => ¬ row.occurredAt < cutoff })

/-! ## The routines -/

/-- A statement that failed. -/
inductive DriverError where
  | driverError
deriving DecidableEq

abbrev Routine := Prog Op Op.Res DriverError

def ask (o : Op) : Routine o.Res := Prog.perform o

/-- `record_access`, on the way of `get_one`; `caller_service or "unknown"` -/
def recordAccess (objectTable : String) (objectId callerService : Option String) : Routine Unit :=
  ask (.insertAccess objectTable objectId
    ((callerService.filter fun s => s ≠ "").getD "unknown"))

/-- The loop over the groups. -/
def writeCounts (day : Int) : List (Group × Nat) → Routine Unit
  | [] => pure ()
  | ((objectTable, callerService), readCount) :: rest => do
    ask (.upsertDaily day objectTable callerService readCount)
    writeCounts day rest

/-- The rest of `run_rollup`, for its day. -/
def rollUp (day : Int) : Routine Nat := do
  let rows ← ask (.countAccess (dayStart day) (dayStart (day + 1)))
  writeCounts day rows
  pure rows.length

/-- `run_rollup`: without a day it is the day it is. -/
def runRollup : Option Int → Routine Nat
  | some day => rollUp day
  | none => do
    let now : Int ← ask .utcNow
    rollUp (dayOf now)

/-- `ACCESS_LOG_RETENTION`, ninety days -/
def accessLogRetention : Int := 90 * 86400000000

/-- The end of a retention sweep. -/
def purgeAccessLog : Routine Nat := do
  let now : Int ← ask .utcNow
  ask (.purgeAccess (now - accessLogRetention))

inductive Request where
  | getOne (objectTable : String) (objectId callerService : Option String)
  | runRollup (day : Option Int)
  | retentionSweep
deriving DecidableEq

/-- What a request is answered; for a read there is nothing that matters here. -/
def handle : Request → Routine Nat
  | .getOne objectTable objectId callerService => do
    recordAccess objectTable objectId callerService
    pure 0
  | .runRollup day => runRollup day
  | .retentionSweep => purgeAccessLog

/-- Any number of requests in any order, and the clock, which does not go back. -/
def utilisation (ι : Type) [DecidableEq ι] : Sys Op Op.Res DriverError Db ι Request Nat Int where
  body := handle
  enter _ _ db := some db
  run _ o a db := exec o a db
  env t db := if db.clock ≤ t then some { db with clock := t } else none

/-! ## What is promised -/

section Promise

variable {ι : Type}

abbrev Statement (ι : Type) := Event Op Op.Res Db ι

/-- The statement logs a read of the group on the day. -/
def Statement.reads (day : Int) (g : Group) (e : Statement ι) : Bool :=
  match e.op with
  | .insertAccess objectTable _ callerService =>
    dayOf e.pre.clock = day ∧ (objectTable, callerService) = g
  | _ => false

/-- The number of reads of a group that were made on a day. -/
def reads (log : List (Statement ι)) (day : Int) (g : Group) : Nat :=
  log.countP (Statement.reads day g)

/-- No purge has taken a row of the day. -/
def Unpurged (log : List (Statement ι)) (day : Int) : Prop :=
  ∀ e ∈ log, ∀ cutoff, e.op = .purgeAccess cutoff →
    ∀ row ∈ e.pre.accessLog, dayOf row.occurredAt = day → cutoff ≤ row.occurredAt

abbrev State (ι : Type) :=
  Config Op Op.Res DriverError (History Op Op.Res Db ι Request) ι Request Nat

/-- Request `i` has ended, and what it counted was the log of the day, after the day's end and
    before any of it was purged. -/
def RolledUp (c : State ι) (i : ι) (day : Int) : Prop :=
  (∃ r n, c.result i = some (r, .ok n)) ∧ ∃ later e earlier, c.shared.log = later ++ e :: earlier ∧
    e.who = i ∧ e.op = .countAccess (dayStart day) (dayStart (day + 1)) ∧
    dayStart (day + 1) ≤ e.pre.clock ∧ Unpurged earlier day

/-- From `c` to `c'` no count has decreased, and what was rolled up is what it was, the number of
    all reads of its day. -/
structure Durable (c c' : State ι) : Prop where
  grows : ∀ day g, c.shared.cur.readCount day g ≤ c'.shared.cur.readCount day g
  stays : ∀ i day, RolledUp c i day → ∀ g,
    c'.shared.cur.readCount day g = reads c'.shared.log day g

/-- When `e` counted the group, the log still had as many rows as the table counted. -/
def Undiminished (e : Statement ι) (day : Int) (g : Group) : Prop :=
  e.pre.readCount day g ≤ e.pre.logged (dayStart day) (dayStart (day + 1)) g

/-- None of the statements wrote a higher count. -/
def Unsurpassed (later : List (Statement ι)) (day : Int) (g : Group) (readCount : Nat) : Prop :=
  ∀ e ∈ later, ∀ n, e.op = .upsertDaily day g.1 g.2 n → n ≤ readCount

/-- A rollup that writes a count had found the log undiminished, and is unsurpassed since. -/
def Heeds (c : State ι) : Act Op Op.Res DriverError ι Request Int → Prop
  | .step i f => ∀ day g readCount, c.next i = some (.upsertDaily day (Prod.fst g) g.2 readCount) →
      (f (.upsertDaily day g.1 g.2 readCount)).executes = true →
      ∀ later e earlier, c.shared.log = later ++ e :: earlier → e.who = i →
        e.op = .countAccess (dayStart day) (dayStart (day + 1)) →
          Undiminished e day g ∧ Unsurpassed later day g readCount
  | _ => True

end Promise

/-! ## The statements, one by one -/

section Statements

variable {db db' : Db} {o : Op} {a b : o.Res} {day start stop : Int} {g : Group} {n : Nat}

theorem within_day {row : AccessRow} :
    row.within (dayStart day) (dayStart (day + 1)) g = true ↔
      dayOf row.occurredAt = day ∧ row.group = g := by
  unfold AccessRow.within dayStart dayOf
  rw [decide_eq_true_iff, ← and_assoc]
  refine and_congr_left fun _ => ?_
  constructor
  · rintro ⟨hfrom, hto⟩
    omega
  · rintro rfl
    omega

theorem logged_pos : 0 < db.logged start stop g ↔
    g ∈ (db.accessLog.filter fun row => start ≤ row.occurredAt ∧ row.occurredAt < stop).map
      AccessRow.group := by
  unfold Db.logged AccessRow.within
  rw [List.countP_pos_iff, List.mem_map]
  constructor
  · rintro ⟨row, hrow, h⟩
    obtain ⟨hfrom, hto, hg⟩ := of_decide_eq_true h
    exact ⟨row, List.mem_filter.2 ⟨hrow, decide_eq_true ⟨hfrom, hto⟩⟩, hg⟩
  · rintro ⟨row, hrow, hg⟩
    obtain ⟨hrow, h⟩ := List.mem_filter.1 hrow
    obtain ⟨hfrom, hto⟩ := of_decide_eq_true h
    exact ⟨row, hrow, decide_eq_true ⟨hfrom, hto, hg⟩⟩

/-- Every group with rows is counted. -/
theorem mem_counts : (g, n) ∈ db.counts start stop ↔
    n = db.logged start stop g ∧ 0 < db.logged start stop g := by
  unfold Db.counts
  rw [List.mem_map]
  constructor
  · rintro ⟨g', hg', heq⟩
    obtain ⟨rfl, rfl⟩ := Prod.mk.inj heq
    exact ⟨rfl, logged_pos.2 (List.mem_dedup.1 hg')⟩
  · rintro ⟨rfl, hpos⟩
    exact ⟨g, List.mem_dedup.2 (logged_pos.1 hpos), rfl⟩

theorem exec_countAccess {rows rows' : List (Group × Nat)}
    (h : exec (.countAccess start stop) rows db = some (rows', db')) :
    rows'.Perm (db.counts start stop) ∧ db' = db := by
  change (if rows.isPerm (db.counts start stop) then some (rows, db) else none) =
    some (rows', db') at h
  split at h
  · next hperm =>
    obtain ⟨rfl, rfl⟩ := Prod.mk.inj (Option.some.inj h)
    exact ⟨List.isPerm_iff.1 hperm, rfl⟩
  · cases h

theorem exec_counts {rows rows' : List (Group × Nat)}
    (h : exec (.countAccess start stop) rows db = some (rows', db')) :
    (g, n) ∈ rows' ↔ n = db.logged start stop g ∧ 0 < db.logged start stop g := by
  rw [(exec_countAccess h).1.mem_iff, mem_counts]

theorem exec_clock (h : exec o a db = some (b, db')) : db'.clock = db.clock := by
  cases o with
  | countAccess start stop => rw [(exec_countAccess h).2]
  | _ => rw [← (Prod.mk.inj (Option.some.inj h)).2]

/-- A row that is upserted counts its group. -/
theorem readCount_upsert {day' : Int} {objectTable callerService : String} :
    ({ db with utilisationDaily :=
        db.utilisationDaily.upsert ⟨day', objectTable, callerService, n⟩ } : Db).readCount day g =
      if (day', objectTable, callerService) = (day, g) then n else db.readCount day g := by
  unfold Db.readCount
  rw [Keyed.find_upsert]
  unfold DailyRow.key
  split <;> rfl

/-- Only an upsert changes a count, and it sets it. -/
theorem exec_readCount (h : exec o a db = some (b, db')) (day : Int) (g : Group) :
    db'.readCount day g = db.readCount day g ∨
      ∃ n, o = .upsertDaily day g.1 g.2 n ∧ db'.readCount day g = n := by
  cases o with
  | upsertDaily day' objectTable callerService n =>
    rw [← (Prod.mk.inj (Option.some.inj h)).2, readCount_upsert]
    split
    · next hkey =>
      obtain ⟨rfl, rfl⟩ := Prod.mk.inj hkey
      exact .inr ⟨n, rfl, rfl⟩
    · exact .inl rfl
  | countAccess start stop =>
    rw [(exec_countAccess h).2]
    exact .inl rfl
  | _ =>
    rw [← (Prod.mk.inj (Option.some.inj h)).2]
    exact .inl rfl

theorem exec_upsertDaily {a b : Unit}
    (h : exec (.upsertDaily day g.1 g.2 n) a db = some (b, db')) : db'.readCount day g = n := by
  rw [← (Prod.mk.inj (Option.some.inj h)).2, readCount_upsert, if_pos rfl]

/-- A read is logged, a purge takes rows away, and nothing else touches the log. -/
theorem exec_logged (h : exec o a db = some (b, db')) (day : Int) (g : Group) :
    (∃ objectTable objectId callerService, o = .insertAccess objectTable objectId callerService ∧
      db'.logged (dayStart day) (dayStart (day + 1)) g =
        db.logged (dayStart day) (dayStart (day + 1)) g +
          if dayOf db.clock = day ∧ (objectTable, callerService) = g then 1 else 0) ∨
    (∃ cutoff, o = .purgeAccess cutoff ∧
      db'.accessLog = db.accessLog.filter fun row => ¬ row.occurredAt < cutoff) ∨
    ((∀ objectTable objectId callerService,
      o ≠ .insertAccess objectTable objectId callerService) ∧ db'.accessLog = db.accessLog) := by
  cases o with
  | insertAccess objectTable objectId callerService =>
    refine .inl ⟨_, _, _, rfl, ?_⟩
    rw [← (Prod.mk.inj (Option.some.inj h)).2]
    unfold Db.logged
    rw [List.countP_cons]
    congr 1
    simp only [within_day, AccessRow.group]
  | purgeAccess cutoff =>
    rw [← (Prod.mk.inj (Option.some.inj h)).2]
    exact .inr (.inl ⟨cutoff, rfl, rfl⟩)
  | countAccess start stop =>
    rw [(exec_countAccess h).2]
    exact .inr (.inr ⟨nofun, rfl⟩)
  | _ =>
    rw [← (Prod.mk.inj (Option.some.inj h)).2]
    exact .inr (.inr ⟨nofun, rfl⟩)

end Statements

/-! ## What a rollup writes -/

section Rollup

variable {log : Heard Op Op.Res} {day : Int} {o : Op} {β : Type}

/-- The statement that writes a count. -/
def written (day : Int) (count : Group × Nat) : (o : Op) × o.Res :=
  ⟨.upsertDaily day count.1.1 count.1.2 count.2, ()⟩

/-- The statement that counted the groups of a day. -/
def counted (day : Int) (rows : List (Group × Nat)) : (o : Op) × o.Res :=
  ⟨.countAccess (dayStart day) (dayStart (day + 1)), rows⟩

/-- Whatever is written was counted for its day. -/
def Counted (log : Heard Op Op.Res) : Prop :=
  ∀ day count, written day count ∈ log → ∃ rows, counted day rows ∈ log ∧ count ∈ rows

/-- Whatever was counted for a day is written. -/
def Written (log : Heard Op Op.Res) : Prop :=
  ∀ day rows, counted day rows ∈ log → ∀ count ∈ rows, written day count ∈ log

theorem dayStart_inj {day' : Int} (h : dayStart day = dayStart day') : day = day' := by
  unfold dayStart at h
  omega

theorem counted_inj {day' : Int} {rows rows' : List (Group × Nat)}
    (h : counted day rows = counted day' rows') : day = day' ∧ rows = rows' := by
  obtain ⟨ho, hr⟩ := Sigma.mk.inj h
  obtain ⟨hstart, -⟩ := Op.countAccess.inj ho
  obtain rfl := dayStart_inj hstart
  exact ⟨rfl, eq_of_heq hr⟩

theorem Counted.cons {a : o.Res} (h : Counted log) (ho : ∀ day objectTable callerService n,
    o ≠ .upsertDaily day objectTable callerService n) : Counted (⟨o, a⟩ :: log) := by
  intro day count hmem
  have hne : written day count ≠ ⟨o, a⟩ := fun heq => ho _ _ _ _ (Sigma.mk.inj heq).1.symm
  obtain ⟨rows, hrows, hcount⟩ := h day count ((List.mem_cons.1 hmem).resolve_left hne)
  exact ⟨rows, List.mem_cons_of_mem _ hrows, hcount⟩

theorem Counted.write {count : Group × Nat} {rows : List (Group × Nat)} (h : Counted log)
    (hrows : counted day rows ∈ log) (hcount : count ∈ rows) :
    Counted (written day count :: log) := by
  intro day' count' hmem
  rcases List.mem_cons.1 hmem with heq | hmem
  · obtain ⟨ho, -⟩ := Sigma.mk.inj heq
    obtain ⟨rfl, htable, hservice, hn⟩ := Op.upsertDaily.inj ho
    have hsame : count' = count := Prod.ext (Prod.ext htable hservice) hn
    exact ⟨rows, List.mem_cons_of_mem _ hrows, hsame ▸ hcount⟩
  · obtain ⟨rows', hrows', hcount'⟩ := h day' count' hmem
    exact ⟨rows', List.mem_cons_of_mem _ hrows', hcount'⟩

/-- The loop writes all counts, one after the other. -/
theorem writeCounts_upholds {rows rest : List (Group × Nat)} (hlog : Counted log)
    (hrows : counted day rows ∈ log) (hrest : ∀ count ∈ rest, count ∈ rows) :
    Upholds hear Counted (writeCounts day rest)
      (fun out log' => out = .ok () → log' = (rest.map (written day)).reverse ++ log) log := by
  induction rest generalizing log with
  | nil => exact ⟨hlog, fun _ => rfl⟩
  | cons count rest ih =>
    obtain ⟨⟨objectTable, callerService⟩, n⟩ := count
    have hwrite : Counted (written day ((objectTable, callerService), n) :: log) :=
      hlog.write hrows (hrest _ List.mem_cons_self)
    refine Upholds.hear_bind hlog (fun e log' _ h => nomatch h) fun _ => ?_
    refine (ih hwrite (List.mem_cons_of_mem _ hrows) fun count hcount =>
      hrest count (List.mem_cons_of_mem _ hcount)).mono fun out log' _ h hout => ?_
    rw [h hout, List.map_cons, List.reverse_cons, List.append_assoc]
    rfl

/-- A rollup that ends has written whatever it counted. -/
theorem rollUp_upholds (hlog : Counted log) (hnone : ∀ day rows, counted day rows ∉ log) :
    Upholds hear Counted (rollUp day) (fun out log => ∀ n, out = .ok n → Written log) log := by
  have hcounted (rows : List (Group × Nat)) : Counted (counted day rows :: log) := hlog.cons nofun
  refine Upholds.hear_bind hlog (fun e log' _ n h => nomatch h) fun rows => ?_
  have hrows : counted day rows ∈ counted day rows :: log := List.mem_cons_self
  refine (writeCounts_upholds (hcounted rows) hrows fun _ h => h).bind
    (fun _ log' hlog' h => ⟨hlog', fun n _ => ?_⟩) fun e log' _ _ n h => nomatch h
  rw [h rfl]
  intro day' rows' hmem count hcount
  rcases List.mem_append.1 hmem with hmem | hmem
  · obtain ⟨count', -, heq⟩ := List.mem_map.1 (List.mem_reverse.1 hmem)
    exact absurd (Sigma.mk.inj heq).1 nofun
  · rcases List.mem_cons.1 hmem with heq | hmem
    · obtain ⟨rfl, rfl⟩ := counted_inj heq
      exact List.mem_append_left _ (List.mem_reverse.2 (List.mem_map_of_mem hcount))
    · exact absurd hmem (hnone day' rows')

theorem handle_upholds (r : Request) : Upholds hear Counted (handle r)
    (fun out log => ∀ n, out = .ok n → Written log) [] := by
  have hnil : Counted [] := fun day count h => absurd h List.not_mem_nil
  have hnone : ∀ day rows, counted day rows ∉ ([] : Heard Op Op.Res) :=
    fun _ _ => List.not_mem_nil
  cases r with
  | getOne objectTable objectId callerService =>
    refine Upholds.hear_bind hnil (fun e log' _ n h => nomatch h) fun _ => ?_
    refine ⟨hnil.cons nofun, fun n _ day rows hmem => ?_⟩
    exact absurd (List.mem_singleton.1 hmem) nofun
  | runRollup day =>
    cases day with
    | some day => exact rollUp_upholds hnil hnone
    | none =>
      refine Upholds.hear_bind hnil (fun e log' _ n h => nomatch h)
        fun now => rollUp_upholds (hnil.cons nofun) fun day rows hmem => ?_
      exact absurd (List.mem_singleton.1 hmem) nofun
  | retentionSweep =>
    refine Upholds.hear_bind hnil (fun e log' _ n h => nomatch h) fun now => ?_
    have hread : Counted [⟨.utcNow, now⟩] := hnil.cons nofun
    have hpurge (cutoff : Int) (m : Nat) :
        Counted [⟨.purgeAccess cutoff, m⟩, ⟨.utcNow, now⟩] := hread.cons nofun
    have hwritten (cutoff : Int) (m : Nat) :
        Written [⟨.purgeAccess cutoff, m⟩, ⟨.utcNow, now⟩] := by
      intro day rows hmem
      rcases List.mem_cons.1 hmem with heq | hmem
      · exact absurd heq nofun
      · exact absurd (List.mem_singleton.1 hmem) nofun
    refine ⟨hread, fun e => ⟨hread, fun n h => nomatch h⟩, fun a b t ht => ?_⟩
    obtain rfl := hear_eq_some ht
    exact ⟨⟨hpurge _ b, fun n _ => hwritten _ b⟩, fun e => ⟨hpurge _ b, fun n h => nomatch h⟩⟩

end Rollup

/-! ## What holds throughout a run -/

section Run

variable {ι : Type} [DecidableEq ι] {db db' : Db} {log : List (Statement ι)} {o : Op} {a b : o.Res}
  {i : ι} {day : Int} {g : Group} {c c' : State ι} {clock : Int}
  {ok : State ι → Act Op Op.Res DriverError ι Request Int → Prop}

/-- Nothing is logged that was not read, nothing read is missing unless it was purged, and the clock
    has not gone back. -/
structure Accounted (db : Db) (log : List (Statement ι)) : Prop where
  logged : ∀ day g, db.logged (dayStart day) (dayStart (day + 1)) g ≤ reads log day g
  unpurged : ∀ day, Unpurged log day → ∀ g,
    reads log day g ≤ db.logged (dayStart day) (dayStart (day + 1)) g
  clock : ∀ e ∈ log, e.pre.clock ≤ db.clock

omit [DecidableEq ι] in
theorem reads_cons {e : Statement ι} : reads (e :: log) day g =
    reads log day g + if Statement.reads day g e then 1 else 0 := List.countP_cons

omit [DecidableEq ι] in
theorem reads_of_other {e : Statement ι} (ho : ∀ objectTable objectId callerService,
    e.op ≠ .insertAccess objectTable objectId callerService) :
    reads (e :: log) day g = reads log day g := by
  have hfalse : Statement.reads day g e = false := by
    unfold Statement.reads
    split
    · next h => exact absurd h (ho _ _ _)
    · rfl
  rw [reads_cons, hfalse]
  rfl

omit [DecidableEq ι] in
theorem logged_purge {cutoff : Int}
    (hlog : db'.accessLog = db.accessLog.filter fun row => ¬ row.occurredAt < cutoff) :
    db'.logged (dayStart day) (dayStart (day + 1)) g ≤
        db.logged (dayStart day) (dayStart (day + 1)) g ∧
      ((∀ row ∈ db.accessLog, dayOf row.occurredAt = day → cutoff ≤ row.occurredAt) →
        db'.logged (dayStart day) (dayStart (day + 1)) g =
          db.logged (dayStart day) (dayStart (day + 1)) g) := by
  unfold Db.logged
  rw [hlog]
  refine ⟨List.filter_sublist.countP_le, fun hkept => ?_⟩
  rw [List.countP_filter]
  refine List.countP_congr fun row hrow => ?_
  rw [Bool.and_eq_true, and_iff_left_iff_imp]
  intro hwithin
  have hday := (within_day.1 hwithin).1
  exact decide_eq_true (Int.not_lt.2 (hkept row hrow hday))

omit [DecidableEq ι] in
/-- One statement. -/
theorem Accounted.exec (h : Accounted db log) (hx : exec o a db = some (b, db')) :
    Accounted db' ((⟨i, o, b, db⟩ : Statement ι) :: log) := by
  have hclock : ∀ e ∈ (⟨i, o, b, db⟩ : Statement ι) :: log, e.pre.clock ≤ db'.clock := by
    rw [exec_clock hx]
    intro e he
    rcases List.mem_cons.1 he with rfl | he
    · exact Int.le_refl _
    · exact h.clock e he
  have htail (day : Int) (hunpurged : Unpurged ((⟨i, o, b, db⟩ : Statement ι) :: log) day) :
      Unpurged log day := fun e he => hunpurged e (List.mem_cons_of_mem _ he)
  refine ⟨fun day g => ?_, fun day hunpurged g => ?_, hclock⟩
  · have hle := h.logged day g
    rcases exec_logged hx day g with ⟨objectTable, objectId, callerService, rfl, heq⟩ |
      ⟨cutoff, rfl, hlog⟩ | ⟨ho, hlog⟩
    · rw [heq, reads_cons]
      simp only [Statement.reads, decide_eq_true_eq]
      omega
    · rw [reads_of_other (e := ⟨i, .purgeAccess cutoff, b, db⟩) nofun]
      exact Nat.le_trans (logged_purge hlog).1 hle
    · rw [reads_of_other ho]
      unfold Db.logged at hle ⊢
      rw [hlog]
      exact hle
  · have hle := h.unpurged day (htail day hunpurged) g
    rcases exec_logged hx day g with ⟨objectTable, objectId, callerService, rfl, heq⟩ |
      ⟨cutoff, rfl, hlog⟩ | ⟨ho, hlog⟩
    · rw [heq, reads_cons]
      simp only [Statement.reads, decide_eq_true_eq]
      omega
    · rw [reads_of_other (e := ⟨i, .purgeAccess cutoff, b, db⟩) nofun,
        (logged_purge hlog).2 (hunpurged _ List.mem_cons_self cutoff rfl)]
      exact hle
    · rw [reads_of_other ho]
      unfold Db.logged at hle ⊢
      rw [hlog]
      exact hle

/-- A time at which the Vault is new. -/
def fresh (clock : Int) : Db := ⟨clock, [], .empty⟩

abbrev Runs (ok : State ι → Act Op Op.Res DriverError ι Request Int → Prop) (clock : Int)
    (c : State ι) : Prop :=
  (utilisation ι).recording.Reach ok (.idle ⟨fresh clock, [], []⟩) c

theorem accounted (hr : Runs ok clock c) : c.shared.Throughout Accounted := by
  refine hr.throughout ?_ ?_ ?_ ?_
  · exact ⟨fun day g => Nat.zero_le _, fun day _ g => Nat.zero_le _,
      fun e he => absurd he List.not_mem_nil⟩
  · intro i r s t log hs h
    obtain rfl := Option.some.inj hs
    exact h
  · exact fun i o a b s t log hx h => h.exec hx
  · intro e s t log hs h
    change (if s.clock ≤ e then some { s with clock := e } else none) = some t at hs
    split at hs
    · next hle =>
      obtain rfl := Option.some.inj hs
      exact ⟨h.logged, h.unpurged, fun x hx => Int.le_trans (h.clock x hx) hle⟩
    · cases hs

/-- Since an event, a count is what it was, or what one of the later statements wrote. -/
theorem readCount_since (hr : Runs ok clock c) {later earlier : List (Statement ι)}
    {e : Statement ι} (heq : c.shared.log = later ++ e :: earlier) (day : Int) (g : Group) :
    c.shared.cur.readCount day g = e.pre.readCount day g ∨
      ∃ x ∈ later ++ [e], ∃ n, x.op = .upsertDaily day g.1 g.2 n ∧
        c.shared.cur.readCount day g = n := by
  have h := hr.throughout (K := fun db log => ∀ later e earlier, log = later ++ e :: earlier →
    db.readCount day g = e.pre.readCount day g ∨ ∃ x ∈ later ++ [e], ∃ n,
      x.op = .upsertDaily day g.1 g.2 n ∧ db.readCount day g = n) ?_ ?_ ?_ ?_
  · exact h.now later e earlier heq
  · exact fun later e earlier heq => by cases later <;> cases heq
  · intro i r s t log hs h
    obtain rfl := Option.some.inj hs
    exact h
  · intro i o a b s t log hx h later e earlier heq
    have hwrote (n : Nat) (ho : o = .upsertDaily day g.1 g.2 n)
        (hmem : (⟨i, o, b, s⟩ : Statement ι) ∈ later ++ [e]) (hn : t.readCount day g = n) :
        t.readCount day g = e.pre.readCount day g ∨ ∃ x ∈ later ++ [e], ∃ n,
          x.op = .upsertDaily day g.1 g.2 n ∧ t.readCount day g = n :=
      .inr ⟨_, hmem, n, ho, hn⟩
    cases later with
    | nil =>
      obtain ⟨rfl, rfl⟩ := List.cons.inj heq
      rcases exec_readCount hx day g with hsame | ⟨n, ho, hn⟩
      · exact .inl hsame
      · exact hwrote n ho List.mem_cons_self hn
    | cons y later =>
      obtain ⟨rfl, hlog⟩ := List.cons.inj heq
      rcases exec_readCount hx day g with hsame | ⟨n, ho, hn⟩
      · rw [hsame]
        rcases h later e earlier hlog with hsince | ⟨x, hmem, n, hop, hn⟩
        · exact .inl hsince
        · exact .inr ⟨x, List.mem_cons_of_mem _ hmem, n, hop, hn⟩
      · exact hwrote n ho List.mem_cons_self hn
  · intro e s t log hs h
    change (if s.clock ≤ e then some { s with clock := e } else none) = some t at hs
    split at hs
    · obtain rfl := Option.some.inj hs
      exact h
    · cases hs

/-- A thread has counted what it writes, and written what it counted once it has ended. -/
theorem upholds_own (hr : Runs ok clock c) : ∀ i r p, c.thread i = some (r, some p) →
    Upholds hear Counted p (fun out log => ∀ n, out = .ok n → Written log) (c.shared.heard i) := by
  have hparted : Parted (utilisation ι).recording ok (fun i h => h.heard i) hear :=
    recording_parted
  exact hr.upholds_part hparted (fun _ => rfl) handle_upholds

/-- What a thread is about to write it has counted. -/
theorem counted_of_next (hr : Runs ok clock c) {r : Request} (count : Group × Nat)
    {k : Except DriverError Unit → Routine Nat}
    (hi : c.thread i = some (r, some (.op (.upsertDaily day count.1.1 count.1.2 count.2) k))) :
    ∃ e ∈ c.shared.log, e.who = i ∧ e.op = .countAccess (dayStart day) (dayStart (day + 1)) ∧
      count.2 = e.pre.logged (dayStart day) (dayStart (day + 1)) count.1 := by
  have hup := upholds_own hr i r _ hi
  have hnext : Counted (written day count :: c.shared.heard i) := (hup.2.2 () () _ rfl).1.inv
  obtain ⟨rows, hrows, hcount⟩ := hnext day count List.mem_cons_self
  have hrows := (List.mem_cons.1 hrows).resolve_left fun h => nomatch (Sigma.mk.inj h).1
  obtain ⟨pre, hmem⟩ := History.mem_heard.1 hrows
  obtain ⟨a, t, hx⟩ := hr.recording_ran _ hmem
  exact ⟨_, hmem, rfl, rfl, ((exec_counts hx).1 hcount).1⟩

/-- What one act can do to a count: nothing, or a rollup writes it. -/
theorem act_cases (day : Int) (g : Group) (a : Act Op Op.Res DriverError ι Request Int) :
    (((utilisation ι).recording.exec c a).shared.cur.readCount day g =
        c.shared.cur.readCount day g ∧
      ∃ new, ((utilisation ι).recording.exec c a).shared.log = new ++ c.shared.log ∧
        ∀ e ∈ new, ∀ n, e.op ≠ .upsertDaily day g.1 g.2 n) ∨
    ∃ i f r n k, a = .step i f ∧
      c.thread i = some (r, some (.op (.upsertDaily day g.1 g.2 n) k)) ∧
      (f (.upsertDaily day g.1 g.2 n)).executes = true ∧
      ((utilisation ι).recording.exec c a).shared.cur.readCount day g = n ∧
      ((utilisation ι).recording.exec c a).shared.log =
        ⟨i, .upsertDaily day g.1 g.2 n, (), c.shared.cur⟩ :: c.shared.log := by
  let P (d : State ι) : Prop :=
    (d.shared.cur.readCount day g = c.shared.cur.readCount day g ∧
      ∃ new, d.shared.log = new ++ c.shared.log ∧ ∀ e ∈ new, ∀ n,
        e.op ≠ .upsertDaily day g.1 g.2 n) ∨
    ∃ i f r n k, a = .step i f ∧
      c.thread i = some (r, some (.op (.upsertDaily day g.1 g.2 n) k)) ∧
      (f (.upsertDaily day g.1 g.2 n)).executes = true ∧ d.shared.cur.readCount day g = n ∧
      d.shared.log = ⟨i, .upsertDaily day g.1 g.2 n, (), c.shared.cur⟩ :: c.shared.log
  have hsame (d : State ι) (hcount : d.shared.cur.readCount day g = c.shared.cur.readCount day g)
      (hlog : d.shared.log = c.shared.log) : P d :=
    .inl ⟨hcount, [], hlog, fun e he => absurd he List.not_mem_nil⟩
  refine Sys.exec_cases (P := P) a (hsame c rfl rfl) ?_ ?_ ?_ ?_
  · rintro i r h - - hs
    obtain ⟨t, ht, rfl⟩ := Sys.recording_enter hs
    obtain rfl := Option.some.inj ht
    exact hsame _ rfl rfl
  · rintro i f r o k out h rfl hi hs
    rcases Sys.recording_apply hs with ⟨-, rfl⟩ | ⟨a, b, t, hexec, hx, rfl⟩
    · exact hsame _ rfl rfl
    · by_cases ho : ∃ n, o = .upsertDaily day g.1 g.2 n
      · obtain ⟨n, rfl⟩ := ho
        have hn : t.readCount day g = n := exec_upsertDaily (a := a) (b := b) hx
        exact .inr ⟨i, f, r, n, k, rfl, hi, hexec, hn, rfl⟩
      · refine .inl ⟨?_, [_], rfl, fun e he n hop => ?_⟩
        · exact (exec_readCount hx day g).resolve_right fun ⟨n, hn, _⟩ => ho ⟨n, hn⟩
        · rw [List.mem_singleton.1 he] at hop
          exact ho ⟨n, hop⟩
  · rintro i r p - -
    exact hsame _ rfl rfl
  · rintro e h - hs
    obtain ⟨t, ht, rfl⟩ := Sys.recording_env hs
    change (if c.shared.cur.clock ≤ e then some { c.shared.cur with clock := e } else none) =
      some t at ht
    split at ht
    · obtain rfl := Option.some.inj ht
      exact hsame _ rfl rfl
    · cases ht

omit [DecidableEq ι] in
/-- A longer log has no fewer reads. -/
theorem reads_append (new : List (Statement ι)) : reads log day g ≤ reads (new ++ log) day g :=
  (List.sublist_append_right new log).countP_le

/-- Every count is of reads that were made. -/
theorem readCount_le (hr : Runs ok clock c) (day : Int) (g : Group) :
    c.shared.cur.readCount day g ≤ reads c.shared.log day g := by
  let P (c : State ι) : Prop := c.shared.cur.readCount day g ≤ reads c.shared.log day g
  have h₀ : P (.idle ⟨fresh clock, [], []⟩) := Nat.zero_le _
  refine hr.invariant h₀ fun c a hr hP _ => ?_
  show Db.readCount _ day g ≤ reads _ day g
  rcases act_cases day g a with ⟨hsame, new, hlog, -⟩ | ⟨i, f, r, n, k, -, hi, -, hn, hlog⟩
  · rw [hsame, hlog]
    exact Nat.le_trans hP (reads_append new)
  · -- what is written was counted, and what is counted was read
    obtain ⟨e, he, -, -, hcount⟩ := counted_of_next hr (g, n) hi
    obtain ⟨later, earlier, hsplit⟩ := List.append_of_mem he
    have hlogged := ((accounted hr).before later e earlier hsplit).logged day g
    have hnew : n ≤ reads earlier day g := Nat.le_trans (Nat.le_of_eq hcount) hlogged
    have hall : reads earlier day g ≤ reads c.shared.log day g := by
      rw [hsplit, ← List.singleton_append, ← List.append_assoc]
      exact reads_append _
    rw [hn, hlog]
    exact Nat.le_trans hnew (Nat.le_trans hall (reads_append [_]))

/-! ## In runs that heed the rules -/

/-- A count that is written is no less than the one before. -/
theorem grows_act (hr : Runs Heeds clock c) (a : Act Op Op.Res DriverError ι Request Int)
    (ha : Heeds c a) (day : Int) (g : Group) : c.shared.cur.readCount day g ≤
      ((utilisation ι).recording.exec c a).shared.cur.readCount day g := by
  rcases act_cases day g a with ⟨hsame, -⟩ | ⟨i, f, r, n, k, rfl, hi, hexec, hn, -⟩
  · exact Nat.le_of_eq hsame.symm
  · obtain ⟨e, he, hwho, hop, hcount⟩ := counted_of_next hr (g, n) hi
    obtain ⟨later, earlier, hsplit⟩ := List.append_of_mem he
    have hnext : c.next i = some (.upsertDaily day g.1 g.2 n) := by
      unfold Config.next
      rw [hi]
    obtain ⟨hundiminished, hunsurpassed⟩ :=
      ha day g n hnext hexec later e earlier hsplit hwho hop
    rw [hn]
    rcases readCount_since hr hsplit day g with hsame | ⟨x, hx, m, hxop, hm⟩
    · rw [hsame]
      exact Nat.le_trans hundiminished (Nat.le_of_eq hcount.symm)
    · rw [hm]
      rcases List.mem_append.1 hx with hx | hx
      · exact hunsurpassed x hx m hxop
      · rw [List.mem_singleton.1 hx, hop] at hxop
        cases hxop

theorem grows (hr : Runs Heeds clock c) (hr' : (utilisation ι).recording.Reach Heeds c c')
    (day : Int) (g : Group) :
    c.shared.cur.readCount day g ≤ c'.shared.cur.readCount day g := by
  induction hr' with
  | init => exact Nat.le_refl _
  | act a hr' ha ih => exact Nat.le_trans ih (grows_act (hr.trans hr') a ha day g)

/-- A count that was written has not decreased since. -/
theorem written_le (hr : Runs Heeds clock c) (day : Int) (g : Group) :
    ∀ e ∈ c.shared.log, ∀ n, e.op = .upsertDaily day g.1 g.2 n →
      n ≤ c.shared.cur.readCount day g := by
  let P (c : State ι) : Prop := ∀ e ∈ c.shared.log, ∀ n, e.op = .upsertDaily day g.1 g.2 n →
    n ≤ c.shared.cur.readCount day g
  have h₀ : P (.idle ⟨fresh clock, [], []⟩) := fun e he => absurd he List.not_mem_nil
  refine hr.invariant h₀ fun c a hr hP ha e he n hop => ?_
  have hgrows := grows_act hr a ha day g
  rcases act_cases day g a with ⟨-, new, hlog, hnew⟩ | ⟨i, f, r, m, k, -, -, -, hm, hlog⟩
  · rw [hlog] at he
    rcases List.mem_append.1 he with he | he
    · exact absurd hop (hnew e he n)
    · exact Nat.le_trans (hP e he n hop) hgrows
  · rw [hlog] at he
    rcases List.mem_cons.1 he with rfl | he
    · rw [hm]
      exact Nat.le_of_eq (Op.upsertDaily.inj hop).2.2.2.symm
    · exact Nat.le_trans (hP e he n hop) hgrows

/-- A rollup that has ended has written what it counted. -/
theorem written_of_ended (hr : Runs ok clock c) {r : Request} {m : Nat}
    (hresult : c.result i = some (r, .ok m)) {e : Statement ι} (he : e ∈ c.shared.log)
    (hwho : e.who = i) (hop : e.op = .countAccess (dayStart day) (dayStart (day + 1)))
    (hpos : 0 < e.pre.logged (dayStart day) (dayStart (day + 1)) g) :
    ∃ x ∈ c.shared.log, x.op = .upsertDaily day g.1 g.2
      (e.pre.logged (dayStart day) (dayStart (day + 1)) g) := by
  have hup := upholds_own hr i r _ (Config.thread_of_result_ok hresult)
  obtain ⟨a, t, hx⟩ := hr.recording_ran e he
  obtain ⟨who, o, rows, pre⟩ := e
  obtain rfl : o = .countAccess (dayStart day) (dayStart (day + 1)) := hop
  obtain rfl : who = i := hwho
  have hcount := (exec_counts hx).2 ⟨rfl, hpos⟩
  have hmem := hup.2 m rfl day rows (History.mem_heard.2 ⟨pre, he⟩) _ hcount
  obtain ⟨pre', hmem'⟩ := History.mem_heard.1 hmem
  exact ⟨_, hmem', rfl⟩

omit [DecidableEq ι] in
/-- After the end of a day nothing is read on it. -/
theorem reads_of_past {later : List (Statement ι)}
    (hlater : ∀ e ∈ later, dayStart (day + 1) ≤ e.pre.clock) :
    reads (later ++ log) day g = reads log day g := by
  unfold reads
  rw [List.countP_append, List.countP_eq_zero.2, Nat.zero_add]
  intro e he hread
  have hclock := hlater e he
  unfold Statement.reads at hread
  split at hread
  · have hday := (of_decide_eq_true hread).1
    unfold dayOf at hday
    unfold dayStart at hclock
    omega
  · cases hread

/-- In every run that heeds the rules, from the first request on, no count decreases, and what is
    rolled up once a day is over, and before any of it is purged, stays the number of its reads. -/
theorem utilisation_durable (hr : Runs Heeds clock c)
    (hr' : (utilisation ι).recording.Reach Heeds c c') : Durable c c' := by
  refine ⟨grows hr hr', ?_⟩
  rintro i day ⟨⟨r, m, hresult⟩, later, e, earlier, hsplit, hwho, hop, hover, hunpurged⟩ g
  have he : e ∈ c.shared.log := by
    rw [hsplit]
    exact List.mem_append_right _ List.mem_cons_self
  obtain ⟨new, hnew⟩ := hr'.log_grows
  -- no read of the day came after the rollup had counted it
  have hpast : reads c'.shared.log day g = reads earlier day g := by
    have hall : c'.shared.log = (new ++ later ++ [e]) ++ earlier := by
      rw [hnew, hsplit]
      simp
    rw [hall]
    refine reads_of_past fun x hx => ?_
    rcases List.mem_append.1 hx with hx | hx
    · obtain ⟨before, after, hx⟩ := List.append_of_mem hx
      have hx' : c'.shared.log = before ++ x :: (after ++ e :: earlier) := by
        rw [hall, hx]
        simp
      have hclock := ((accounted (hr.trans hr')).before _ _ _ hx').clock e
        (List.mem_append_right _ List.mem_cons_self)
      exact Int.le_trans hover hclock
    · rw [List.mem_singleton.1 hx]
      exact hover
  have hcounted : e.pre.logged (dayStart day) (dayStart (day + 1)) g = reads earlier day g := by
    have hacc := (accounted hr).before later e earlier hsplit
    exact Nat.le_antisymm (hacc.logged day g) (hacc.unpurged day hunpurged g)
  refine Nat.le_antisymm (readCount_le (hr.trans hr') day g) ?_
  rw [hpast, ← hcounted]
  by_cases hpos : 0 < e.pre.logged (dayStart day) (dayStart (day + 1)) g
  · obtain ⟨x, hx, hxop⟩ := written_of_ended hr hresult he hwho hop hpos
    exact Nat.le_trans (written_le hr day g x hx _ hxop) (grows hr hr' day g)
  · rw [Nat.eq_zero_of_not_pos hpos]
    exact Nat.zero_le _

end Run

/-! ### A day of two reads -/

/-- Every statement succeeds, and a count finds these rows. -/
def finding (rows : List (Group × Nat)) : ∀ o : Op, Reply DriverError o.Res
  | .utcNow => .ok (0 : Int)
  | .insertAccess .. | .upsertDaily .. => .ok ()
  | .countAccess .. => .ok rows
  | .purgeAccess _ => .ok (0 : Nat)

/-- A signal is read, and the day is rolled up after its end. -/
def oneRead : List (Act Op Op.Res DriverError Nat Request Int) :=
  [.enter 0 (.getOne "signals" none (some "web")), .step 0 (finding []),
    .env (dayStart 1), .enter 1 (.runRollup (some 0)), .step 1 (finding [(("signals", "web"), 1)]),
    .step 1 (finding [])]

/-- It is read again at noon, and the day is rolled up after its end. -/
def twoReads : List (Act Op Op.Res DriverError Nat Request Int) :=
  [.enter 0 (.getOne "signals" none (some "web")), .step 0 (finding []), .env 43200000000,
    .enter 1 (.getOne "signals" none (some "web")), .step 1 (finding []), .env (dayStart 1),
    .enter 2 (.runRollup (some 0)), .step 2 (finding [(("signals", "web"), 2)]),
    .step 2 (finding [])]

/-- Ninety days later a sweep purges the morning, and the day is rolled up again. -/
def rolledUpAgain : List (Act Op Op.Res DriverError Nat Request Int) :=
  [.env (90 * 86400000000 + 43200000000), .enter 3 .retentionSweep, .step 3 (finding []),
    .step 3 (finding []), .enter 4 (.runRollup (some 0)),
    .step 4 (finding [(("signals", "web"), 1)]), .step 4 (finding [])]

abbrev begun : State Nat := .idle ⟨fresh 0, [], []⟩

/-- The count of the day goes down to the reads that are left. -/
theorem half_day_purged : ∃ c c' : State Nat, Runs Sys.free 0 c ∧
    (utilisation Nat).recording.Reach Sys.free c c' ∧ RolledUp c 2 0 ∧
    c.shared.cur.readCount 0 ("signals", "web") = 2 ∧
    c'.shared.cur.readCount 0 ("signals", "web") = 1 ∧ ¬ Durable c c' := by
  refine ⟨twoReads.foldl (utilisation Nat).recording.exec begun,
    rolledUpAgain.foldl (utilisation Nat).recording.exec
      (twoReads.foldl (utilisation Nat).recording.exec begun),
    Sys.Reach.init.foldl_free _, Sys.Reach.init.foldl_free _, ?_, by decide +kernel,
    by decide +kernel, fun h => ?_⟩
  · exact ⟨⟨.runRollup (some 0), 1, rfl⟩, [_], _, _, rfl, rfl, rfl, by decide +kernel, by
      intro e he cutoff hop
      rcases List.mem_cons.1 he with rfl | he
      · cases hop
      · rw [List.mem_singleton.1 he] at hop
        cases hop⟩
  · have hgrows := h.grows 0 ("signals", "web")
    revert hgrows
    decide +kernel

theorem oneRead_heeds :
    Runs Heeds 0 (oneRead.foldl (utilisation Nat).recording.exec begun) := by
  refine Sys.Reach.foldl oneRead .init fun n => ?_
  match n with
  | ⟨0, _⟩ | ⟨2, _⟩ | ⟨3, _⟩ => exact True.intro
  | ⟨1, _⟩ | ⟨4, _⟩ => exact fun day g m h => nomatch Option.some.inj h
  | ⟨5, _⟩ =>
    rintro day ⟨objectTable, callerService⟩ m h -
    obtain ⟨rfl, rfl, rfl, rfl⟩ := Op.upsertDaily.inj (Option.some.inj h)
    rintro later e earlier heq - hop
    cases later with
    | nil =>
      obtain ⟨rfl, -⟩ := List.cons.inj heq
      exact ⟨Nat.zero_le _, fun x hx => absurd hx List.not_mem_nil⟩
    | cons x later =>
      -- the statement before the count logged the read
      obtain ⟨-, heq⟩ := List.cons.inj heq
      cases later with
      | nil =>
        obtain ⟨rfl, -⟩ := List.cons.inj heq
        cases hop
      | cons y later =>
        obtain ⟨-, heq⟩ := List.cons.inj heq
        cases later <;> cases heq
  | ⟨n + 6, h⟩ =>
    have hlength : oneRead.length = 6 := rfl
    omega

/-- A day whose one read is rolled up once is counted for good. -/
theorem oneRead_durable :
    RolledUp (oneRead.foldl (utilisation Nat).recording.exec begun) 1 0 ∧
      Durable (oneRead.foldl (utilisation Nat).recording.exec begun)
        (oneRead.foldl (utilisation Nat).recording.exec begun) := by
  refine ⟨⟨⟨.runRollup (some 0), 1, rfl⟩, [_], _, _, rfl, rfl, rfl, by decide +kernel, ?_⟩,
    utilisation_durable oneRead_heeds .init⟩
  intro e he cutoff hop
  rw [List.mem_singleton.1 he] at hop
  cases hop

end CanvasOS.Utilisation
