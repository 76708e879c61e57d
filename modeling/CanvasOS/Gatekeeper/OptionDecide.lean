/-
  Decisions on option cards (`routers/option_decide.py`, `option_decisions.py`).

  1. `optionDecide` — `GET /decide`: the card, its expiry, the option, the insert.  The clock is
     read for the expiry, and read again for `decided_at`.
  2. `Course` — what a request has said and heard, at every point: everything that the inserted row
     says goes back to the card that was fetched.
  3. `Unexpired` — no card expires while a request stands between its two readings of the clock.
  4. `decided_once` — in every such run a card has at most one decision, it is one that
     the card offers, and it was made before the card expired; nothing changes it.
-/
import CanvasOS.Lib.Own
import CanvasOS.Lib.Python
import CanvasOS.Gatekeeper.Policy

namespace CanvasOS.Gatekeeper

open Interleave Python

/-! ## Tables -/

/-- A row of `option_cards`, the columns that are read; none of them can be null. -/
structure OptionCardRow where
  cardId : String
  /-- `card`, the document -/
  card : List (String × Json)
  createdAt : Nat
  expiresAt : Nat
deriving DecidableEq

/-- A row of `approval_decisions`. -/
structure ApprovalDecision where
  cardId : String
  outcome : String
  chosenOptionId : Option String
  wasRecommended : Option Bool
  rejectionCode : Option String
  decidedBy : String
  decidedAt : Nat
  latencySeconds : Nat
  signature : String
  channel : String
deriving DecidableEq

/-- The tables and the clock, in microseconds. -/
structure OptionDb where
  cards : List OptionCardRow
  decisions : List ApprovalDecision
  now : Nat
deriving DecidableEq

def OptionDb.empty : OptionDb := ⟨[], [], 0⟩

/-- Which `datetime.now` it is. -/
inductive Reading where
  | expiry
  | decidedAt
deriving DecidableEq

/-- The statements.  A `cardId` in a WHERE clause is the text that is cast to a uuid. -/
inductive OptionOp where
  | fetchCard (cardId : String)
  | utcNow (reading : Reading)
  /-- `get_signer().sign` of the canonical JSON of these -/
  | sign (cardId outcome : String) (chosenOptionId : Option String) (decidedAt : Nat)
  | insertDecision (row : ApprovalDecision)
  | fetchDecision (cardId : String)
deriving DecidableEq

abbrev OptionOp.Res : OptionOp → Type
  | .fetchCard _ => Option OptionCardRow
  | .utcNow _ => Nat
  | .sign _ _ _ _ => String
  | .insertDecision _ => ApprovalDecision
  | .fetchDecision _ => Option ApprovalDecision

inductive DecideExc where
  | http (status : Nat) (detail : String)
  /-- the 409, with what is there already -/
  | alreadyDecided (decidedBy : Option String) (decidedAt : Option Nat)
  | uniqueViolation
  | decisionAlreadyRecorded
  | valueError (message : String)
  | other
deriving DecidableEq

/-- What the handler asks of its surroundings. -/
structure DecideSettings where
  /-- a text cast to `uuid`, as it is written back; `none` where the cast fails -/
  uuid : String → Option String
  /-- `verify_card_link` -/
  verifyCardLink : (cardId sig : String) → Bool
  /-- `sorted(option_ids)`, printed; `none` where the ids cannot be compared -/
  sortedIds : List Json → Option String
  /-- `repr` of a string -/
  repr : String → String

/-- One statement.  `card_id` is the key of the one table and unique in the other, which refers to
    the first. -/
def execOption (S : DecideSettings) : (o : OptionOp) → o.Res → OptionDb → Option (o.Res × OptionDb)
  | .fetchCard cardId, _, db =>
    (S.uuid cardId).map fun id => (db.cards.find? fun row => row.cardId = id, db)
  | .utcNow _, _, db => some (db.now, db)
  | .sign _ _ _ _, signature, db => some (signature, db)
  | .insertDecision row, _, db =>
    if row.cardId ∈ db.decisions.map ApprovalDecision.cardId then none
    else if row.cardId ∈ db.cards.map OptionCardRow.cardId then
      some (row, { db with decisions := row :: db.decisions })
    else none
  | .fetchDecision cardId, _, db =>
    (S.uuid cardId).map fun id => (db.decisions.find? fun row => row.cardId = id, db)

/-! ## `record_decision` -/

abbrev Deciding := Prog OptionOp OptionOp.Res DecideExc

def askOption (o : OptionOp) : Deciding o.Res := Prog.perform o

def validOutcomes : List String :=
  ["chosen", "deferred", "expired_unresolved", "rejected_all", "timeout_default"]

def validChannels : List String := ["console_inbox", "digest_email", "system", "teams_card"]

/-- `card["card"].get("recommended_option_id")` -/
def OptionCardRow.recommended (row : OptionCardRow) : Json :=
  Json.get row.card "recommended_option_id"

/-- What is recorded, but for the time and the signature. -/
structure NewDecision where
  outcome : String
  chosenOptionId : Option String
  rejectionCode : Option String
  decidedBy : String
  channel : String
  latencySeconds : Nat
deriving DecidableEq

/-- The row that is inserted. -/
def NewDecision.row (n : NewDecision) (card : OptionCardRow) (decidedAt : Nat)
    (signature : String) : ApprovalDecision where
  cardId := card.cardId
  outcome := n.outcome
  chosenOptionId := n.chosenOptionId
  wasRecommended :=
    if n.outcome = "chosen" then
      some (decide ((n.chosenOptionId.map Json.str).getD .null = card.recommended))
    else none
  rejectionCode := n.rejectionCode
  decidedBy := n.decidedBy
  decidedAt := decidedAt
  latencySeconds := n.latencySeconds
  signature := signature
  channel := n.channel

/-- `record_decision` -/
def recordDecision (S : DecideSettings) (card : OptionCardRow) (n : NewDecision) :
    Deciding ApprovalDecision :=
  if n.outcome ∉ validOutcomes then
    throw (.valueError ("outcome must be one of ['chosen', 'deferred', 'expired_unresolved', " ++
      "'rejected_all', 'timeout_default'], got " ++ S.repr n.outcome))
  else if n.channel ∉ validChannels then
    throw (.valueError ("channel must be one of ['console_inbox', 'digest_email', 'system', " ++
      "'teams_card'], got " ++ S.repr n.channel))
  else do
    let decidedAt ← askOption (.utcNow .decidedAt)
    let signature ← askOption (.sign card.cardId n.outcome n.chosenOptionId decidedAt)
    tryCatch (askOption (.insertDecision (n.row card decidedAt signature))) fun
      | .uniqueViolation => throw .decisionAlreadyRecorded
      | e => throw e

/-! ## `decide` -/

/-- The request as it arrives: the principal of its headers, and its query. -/
structure DecideRequest where
  /-- `decided_by` of the authenticated principal -/
  principal : Option String
  card : String
  sig : String
  opt : Option String
  outcome : Option String
  channel : String
deriving DecidableEq

/-- `o["option_id"]` of every option; `none` where that raises. -/
def idsOf : List Json → Option (List Json)
  | [] => some []
  | .obj kvs :: rest => do
    let id ← Json.lookup kvs "option_id"
    let ids ← idsOf rest
    -- a set holds only what can be hashed
    match id with
    | .arr _ | .obj _ => none
    | id => some (id :: ids)
  | _ :: _ => none

/-- `{o["option_id"] for o in row["card"].get("options", [])}` -/
def OptionCardRow.optionIds (row : OptionCardRow) : Option (List Json) :=
  match (Json.lookup row.card "options").getD (.arr []) with
  | .arr options => idsOf options
  | .obj [] | .str "" => some []
  | _ => none

/-- The decision a request asks for. -/
def decisionFor (S : DecideSettings) (r : DecideRequest) (row : OptionCardRow) (principal : String)
    (now : Nat) : Except DecideExc NewDecision :=
  let latencySeconds := (now - row.createdAt) / 1000000
  match r.opt with
  | some opt =>
    match row.optionIds with
    | none => .error .other
    | some ids =>
      if .str opt ∈ ids then
        .ok ⟨"chosen", some opt, none, principal, r.channel, latencySeconds⟩
      else
        match S.sortedIds ids with
        | some printed =>
          .error (.http 400 (S.repr opt ++ " is not one of this card's options " ++ printed))
        | none => .error .other
  | none => .ok ⟨"rejected_all", none, some "other", principal, r.channel, latencySeconds⟩

/-- The answer to a request that recorded its decision. -/
structure DecideResponse where
  outcome : String
  cardId : String
  chosenOptionId : Option String
  wasRecommended : Option Bool
  rejectionCode : Option String
  decidedBy : String
  decidedAt : Nat
deriving DecidableEq

def DecideResponse.ofRow (d : ApprovalDecision) : DecideResponse :=
  ⟨d.outcome, d.cardId, d.chosenOptionId, d.wasRecommended, d.rejectionCode, d.decidedBy,
    d.decidedAt⟩

/-- A second decision is told of the first one. -/
def onConflict (r : DecideRequest) : DecideExc → Deciding ApprovalDecision
  | .decisionAlreadyRecorded => do
    let existing : Option ApprovalDecision ← askOption (.fetchDecision r.card)
    throw (.alreadyDecided (existing.map (·.decidedBy)) (existing.map (·.decidedAt)))
  | e => throw e

/-- The query's patterns, which are checked before the handler runs. -/
def DecideRequest.wellFormed (r : DecideRequest) : Bool :=
  r.opt.all (fun opt => opt ∈ ["A", "B", "C"]) && r.outcome.all (· = "rejected_all") &&
    r.channel ∈ validChannels

/-- The insert, once everything is checked. -/
def settle (S : DecideSettings) (r : DecideRequest) (principal : String) (row : OptionCardRow)
    (now : Nat) : Deciding DecideResponse :=
  match decisionFor S r row principal now with
  | .error e => throw e
  | .ok n => do
    let decision ← tryCatch (recordDecision S row n) (onConflict r)
    pure (.ofRow decision)

/-- `decide` -/
def optionDecide (S : DecideSettings) (r : DecideRequest) : Deciding DecideResponse :=
  if ¬ r.wellFormed then throw (.http 422 "")
  else
    match r.principal with
    | none => throw (.http 401 ("no authenticated principal on this request — the decider is " ++
        "taken from the Entra ID sign-in, never from possession of the link"))
    | some principal =>
      if ¬ S.verifyCardLink r.card r.sig then
        throw (.http 403 "signature does not match this card")
      else if r.opt.isNone = r.outcome.isNone then
        throw (.http 400 "exactly one of `opt` or `outcome=rejected_all` is required")
      else do
        let row : Option OptionCardRow ← askOption (.fetchCard r.card)
        match row with
        | none => throw (.http 404 "option card not found")
        | some row => do
          let now : Nat ← askOption (.utcNow .expiry)
          if row.expiresAt ≤ now then
            throw (.http 410
              "this card has expired — its timeout behaviour, not this click, decides it")
          else settle S r principal row now

/-! ## The service -/

/-- What happens from outside: time passes, the Vault adds a card. -/
inductive OptionMove where
  | tick (n : Nat)
  | putCard (row : OptionCardRow)

def OptionMove.apply : OptionMove → OptionDb → Option OptionDb
  | .tick n, db => some { db with now := db.now + n }
  | .putCard row, db =>
    if row.cardId ∈ db.cards.map OptionCardRow.cardId then none
    else some { db with cards := row :: db.cards }

abbrev OptionHistory := History OptionOp OptionOp.Res OptionDb Nat DecideRequest
abbrev OptionConfig := Config OptionOp OptionOp.Res DecideExc OptionHistory Nat DecideRequest
  DecideResponse
abbrev OptionAct := Act OptionOp OptionOp.Res DecideExc Nat DecideRequest OptionMove

/-- Any number of requests at once. -/
def optionCards (S : DecideSettings) : Sys OptionOp OptionOp.Res DecideExc OptionHistory Nat
    DecideRequest DecideResponse OptionMove :=
  recorded (optionDecide S) (fun _ o => execOption S o) OptionMove.apply

def OptionConfig.start : OptionConfig := .idle ⟨OptionDb.empty, [], []⟩

/-! ## What a request says and hears -/

section Course

variable {S : DecideSettings} {r : DecideRequest}

/-- The log of a request, statement by statement. -/
inductive Course (S : DecideSettings) (r : DecideRequest) : Heard OptionOp OptionOp.Res → Prop where
  | start : Course S r []
  | fetched (found : Option OptionCardRow) : Course S r [⟨.fetchCard r.card, found⟩]
  | tested (row : OptionCardRow) (now : Nat) :
      Course S r [⟨.utcNow .expiry, now⟩, ⟨.fetchCard r.card, some row⟩]
  | dated (row : OptionCardRow) (now decidedAt : Nat) (h : now < row.expiresAt) :
      Course S r [⟨.utcNow .decidedAt, decidedAt⟩, ⟨.utcNow .expiry, now⟩,
        ⟨.fetchCard r.card, some row⟩]
  | signed (row : OptionCardRow) (now decidedAt : Nat) (n : NewDecision) (signature : String) :
      Course S r [⟨.sign row.cardId n.outcome n.chosenOptionId decidedAt, signature⟩,
        ⟨.utcNow .decidedAt, decidedAt⟩, ⟨.utcNow .expiry, now⟩, ⟨.fetchCard r.card, some row⟩]
  | recorded (row : OptionCardRow) (now decidedAt : Nat) (n : NewDecision) (signature : String)
      (principal : String) (decision : ApprovalDecision)
      (hn : decisionFor S r row principal now = .ok n) :
      Course S r [⟨.insertDecision (n.row row decidedAt signature), decision⟩,
        ⟨.sign row.cardId n.outcome n.chosenOptionId decidedAt, signature⟩,
        ⟨.utcNow .decidedAt, decidedAt⟩, ⟨.utcNow .expiry, now⟩, ⟨.fetchCard r.card, some row⟩]
  /-- a second decision reads the first one, and that is the end -/
  | told (cardId : String) (existing : Option ApprovalDecision)
      (log : Heard OptionOp OptionOp.Res) (h : Course S r log) :
      Course S r (⟨.fetchDecision cardId, existing⟩ :: log)

theorem onConflict_course {log : Heard OptionOp OptionOp.Res} (h : Course S r log) (e : DecideExc) :
    Interleave.Keeps (listen fun _ _ => True) (Course S r) (onConflict r e) (fun _ _ => True)
      log := by
  unfold onConflict
  split
  · exact Keeps.listen_bind h fun existing _ => .throw (.told _ _ _ h)
  · exact .throw h

theorem recordDecision_course {row : OptionCardRow} {now : Nat} {n : NewDecision}
    {principal : String} (h : now < row.expiresAt)
    (hn : decisionFor S r row principal now = .ok n) :
    Interleave.Keeps (listen fun _ _ => True) (Course S r) (recordDecision S row n) (fun _ _ => True)
      [⟨.utcNow .expiry, now⟩, ⟨.fetchCard r.card, some row⟩] := by
  unfold recordDecision
  split
  · exact .throw (.tested _ _)
  split
  · exact .throw (.tested _ _)
  refine Keeps.listen_bind (.tested _ _) fun decidedAt _ => ?_
  refine Keeps.listen_bind (.dated _ _ _ h) fun signature _ => ?_
  refine Keeps.tryCatch (Keeps.perform (.signed _ _ _ _ _) fun a b t ht => ?_) fun e s hs => ?_
  · obtain ⟨-, rfl⟩ := listen_eq_some ht
    exact ⟨.recorded _ _ _ _ _ _ _ hn, True.intro⟩
  · split
    · exact .throw hs
    · exact .throw hs

/-- Every request takes that course. -/
theorem optionDecide_course (S : DecideSettings) (r : DecideRequest) :
    Interleave.Keeps (listen fun _ _ => True) (Course S r) (optionDecide S r) (fun _ _ => True)
      [] := by
  unfold optionDecide
  split
  · exact .throw .start
  split
  · exact .throw .start
  split
  · exact .throw .start
  split
  · exact .throw .start
  refine Keeps.listen_bind .start fun found _ => ?_
  cases found with
  | none => exact .throw (.fetched _)
  | some row =>
    refine Keeps.listen_bind (.fetched _) fun now _ => ?_
    split
    · exact .throw (.tested _ _)
    next hnow =>
      unfold settle
      split
      · exact .throw (.tested _ _)
      next n hn =>
        have hrecord := (recordDecision_course (Nat.lt_of_not_le hnow) hn).tryCatch fun e log h =>
          onConflict_course h e
        exact hrecord.bind fun _ _ h _ => .pure h True.intro

end Course

/-! ## What a run keeps -/

/-- The decision is one that the card offers. -/
structure Offered (row : OptionCardRow) (d : ApprovalDecision) : Prop where
  outcome : d.outcome = "chosen" ∧ d.chosenOptionId.isSome = true ∨
    d.outcome = "rejected_all" ∧ d.chosenOptionId = none
  own : ∀ opt, d.chosenOptionId = some opt → ∃ ids, row.optionIds = some ids ∧ .str opt ∈ ids
  recommended : d.wasRecommended = some true ↔
    ∃ opt, d.chosenOptionId = some opt ∧ row.recommended = .str opt

theorem offered_of_decisionFor {S : DecideSettings} {r : DecideRequest} {row : OptionCardRow}
    {principal : String} {now : Nat} {n : NewDecision}
    (h : decisionFor S r row principal now = .ok n) (decidedAt : Nat) (signature : String) :
    Offered row (n.row row decidedAt signature) := by
  unfold decisionFor at h
  split at h
  · next opt _ =>
    split at h
    · cases h
    next ids hids =>
      split at h
      · next hmem =>
        obtain rfl := Except.ok.inj h
        refine ⟨.inl ⟨rfl, rfl⟩, fun o ho => ?_, ?_⟩
        · obtain rfl := Option.some.inj ho
          exact ⟨ids, hids, hmem⟩
        · simp [NewDecision.row, eq_comm]
      · split at h
        · cases h
        · cases h
  · obtain rfl := Except.ok.inj h
    refine ⟨.inr ⟨rfl, rfl⟩, fun o ho => (nomatch ho), ?_⟩
    simp [NewDecision.row]

/-- Thread `i` has found the card unexpired, and has not read the clock again. -/
def Between (c : OptionConfig) (i : Nat) (row : OptionCardRow) : Prop :=
  (∃ r, Sys.Handles c i r) ∧ ∃ cardId now,
    ⟨.fetchCard cardId, some row⟩ ∈ c.shared.heard i ∧
    ⟨.utcNow .expiry, now⟩ ∈ c.shared.heard i ∧ now < row.expiresAt ∧
    ∀ decidedAt, ⟨.utcNow .decidedAt, decidedAt⟩ ∉ c.shared.heard i

/-- No card expires between the two readings of a request for it. -/
def Unexpired (c : OptionConfig) : OptionAct → Prop
  | .env (.tick n) => ∀ i row, Between c i row → c.shared.cur.now + n < row.expiresAt
  | _ => True

/-- What a run keeps: cards and decisions by their keys, what threads have read, and that every
    decision is offered and in time. -/
structure Recorded (c : OptionConfig) : Prop where
  cards : (c.shared.cur.cards.map OptionCardRow.cardId).Nodup
  decisions : (c.shared.cur.decisions.map ApprovalDecision.cardId).Nodup
  fetched : ∀ i cardId row, ⟨.fetchCard cardId, some row⟩ ∈ c.shared.heard i →
    row ∈ c.shared.cur.cards
  dated : ∀ i cardId row decidedAt, ⟨.fetchCard cardId, some row⟩ ∈ c.shared.heard i →
    ⟨.utcNow .decidedAt, decidedAt⟩ ∈ c.shared.heard i → decidedAt < row.expiresAt
  between : ∀ i row, Between c i row → c.shared.cur.now < row.expiresAt
  sound : ∀ d ∈ c.shared.cur.decisions, ∃ row ∈ c.shared.cur.cards, row.cardId = d.cardId ∧
    Offered row d ∧ d.decidedAt < row.expiresAt

namespace Recorded

variable {S : DecideSettings} {c : OptionConfig}

theorem start : Recorded OptionConfig.start :=
  ⟨List.nodup_nil, List.nodup_nil, fun _ _ _ h => (nomatch h), fun _ _ _ _ h => (nomatch h),
    fun _ _ ⟨_, _, _, h, _⟩ => (nomatch h), fun _ h => (nomatch h)⟩

/-- A thread that was running still stands where it stood, as far as it is running. -/
theorem put (hK : Recorded c) {s : OptionHistory} {i : Nat} {r : DecideRequest}
    {q : Option (Deciding DecideResponse)} (hcur : s.cur = c.shared.cur)
    (hheard : ∀ j, s.heard j = c.shared.heard j)
    (hi : q = none ∨ c.shared.heard i = [] ∨ ∃ r, Sys.Handles c i r) :
    Recorded (c.put s i r q) := by
  have hbetween : ∀ j row, Between (c.put s i r q) j row → Between c j row := by
    rintro j row ⟨⟨r', o, k, hj⟩, cardId, now, hfetched, htested, hnow, hno⟩
    simp only [Config.put_shared, hheard] at hfetched htested hno
    refine ⟨?_, cardId, now, hfetched, htested, hnow, hno⟩
    rcases Config.put_thread.1 hj with ⟨rfl, -, hq⟩ | ⟨-, hj⟩
    · rcases hi with rfl | hnil | hruns
      · cases hq
      · rw [hnil] at hfetched
        cases hfetched
      · exact hruns
    · exact ⟨r', o, k, hj⟩
  constructor
  · rw [Config.put_shared, hcur]
    exact hK.cards
  · rw [Config.put_shared, hcur]
    exact hK.decisions
  · simp only [Config.put_shared, hcur, hheard]
    exact hK.fetched
  · simp only [Config.put_shared, hheard]
    exact hK.dated
  · intro j row h
    rw [Config.put_shared, hcur]
    exact hK.between j row (hbetween j row h)
  · rw [Config.put_shared, hcur]
    exact hK.sound

/-- The world moves: time passes as it may, or there is one card more. -/
theorem move (hK : Recorded c) {e : OptionMove} {t : OptionDb} (hok : Unexpired c (.env e))
    (ht : e.apply c.shared.cur = some t) : Recorded ⟨{ c.shared with cur := t }, c.thread⟩ := by
  cases e with
  | tick n =>
    obtain rfl := Option.some.inj ht
    exact ⟨hK.cards, hK.decisions, hK.fetched, hK.dated, hok, hK.sound⟩
  | putCard row =>
    simp only [OptionMove.apply] at ht
    split at ht
    · cases ht
    next hnew =>
      obtain rfl := Option.some.inj ht
      refine ⟨List.nodup_cons.2 ⟨hnew, hK.cards⟩, hK.decisions, fun i cardId row' h => ?_,
        hK.dated, hK.between, fun d hd => ?_⟩
      · exact List.mem_cons_of_mem _ (hK.fetched i cardId row' h)
      · obtain ⟨row', hrow, h⟩ := hK.sound d hd
        exact ⟨row', List.mem_cons_of_mem _ hrow, h⟩

/-- What a thread has heard after a statement of thread `i`, and what it had heard before. -/
theorem mem_heard_after {h : OptionHistory} {i j : Nat} {o : OptionOp} {b : o.Res} {t : OptionDb}
    {x : (o : OptionOp) × o.Res} :
    x ∈ (h.after i o b t).heard j ↔ (j = i ∧ x = ⟨o, b⟩) ∨ x ∈ h.heard j := by
  rw [History.heard_after]
  split
  · next hji =>
    subst hji
    simp
  · next hji => simp [hji]

/-- A statement that fetches no card and reads no clock. -/
theorem after_silent (hK : Recorded c) {i : Nat} {r : DecideRequest} {o : OptionOp}
    {k : Except DecideExc o.Res → Deciding DecideResponse} {b : o.Res} {t : OptionDb}
    {q : Option (Deciding DecideResponse)} (hi : c.thread i = some (r, some (.op o k)))
    (hfetch : ∀ cardId, o ≠ .fetchCard cardId) (hclock : ∀ reading, o ≠ .utcNow reading)
    (hcards : t.cards = c.shared.cur.cards) (hnow : t.now = c.shared.cur.now)
    (hdecisions : (t.decisions.map ApprovalDecision.cardId).Nodup)
    (hsound : ∀ d ∈ t.decisions, ∃ row ∈ t.cards, row.cardId = d.cardId ∧ Offered row d ∧
      d.decidedAt < row.expiresAt) : Recorded (c.put (c.shared.after i o b t) i r q) := by
  have hold : ∀ j cardId found, (⟨.fetchCard cardId, found⟩ : (o : OptionOp) × o.Res) ∈
      (c.shared.after i o b t).heard j → ⟨.fetchCard cardId, found⟩ ∈ c.shared.heard j := by
    intro j cardId found h
    rcases mem_heard_after.1 h with ⟨-, heq⟩ | h
    · exact absurd (Sigma.mk.inj heq).1.symm (hfetch cardId)
    · exact h
  have hread : ∀ j reading now, (⟨.utcNow reading, now⟩ : (o : OptionOp) × o.Res) ∈
      (c.shared.after i o b t).heard j → ⟨.utcNow reading, now⟩ ∈ c.shared.heard j := by
    intro j reading now h
    rcases mem_heard_after.1 h with ⟨-, heq⟩ | h
    · exact absurd (Sigma.mk.inj heq).1.symm (hclock reading)
    · exact h
  constructor
  · show (t.cards.map _).Nodup
    rw [hcards]
    exact hK.cards
  · exact hdecisions
  · intro j cardId row h
    show row ∈ t.cards
    rw [hcards]
    exact hK.fetched j cardId row (hold j _ _ h)
  · exact fun j cardId row decidedAt h h' =>
      hK.dated j cardId row decidedAt (hold j _ _ h) (hread j _ _ h')
  · rintro j row ⟨⟨r', o', k', hj⟩, cardId, now, hfetched, htested, hlt, hno⟩
    show t.now < row.expiresAt
    rw [hnow]
    refine hK.between j row ⟨?_, cardId, now, hold j _ _ hfetched, hread j _ _ htested, hlt,
      fun decidedAt h => hno decidedAt (mem_heard_after.2 (.inr h))⟩
    rcases Config.put_thread.1 hj with ⟨rfl, -, -⟩ | ⟨-, hj⟩
    · exact ⟨r, o, k, hi⟩
    · exact ⟨r', o', k', hj⟩
  · exact hsound

/-- A thread other than `i` stands between its readings after a statement of `i` as it did
    before. -/
theorem between_of_ne {i j : Nat} {r : DecideRequest} {o : OptionOp} {b : o.Res} {t : OptionDb}
    {q : Option (Deciding DecideResponse)} {row : OptionCardRow} (hji : j ≠ i)
    (h : Between (c.put (c.shared.after i o b t) i r q) j row) : Between c j row := by
  obtain ⟨⟨r', o', k', hj⟩, hrest⟩ := h
  rw [Config.put_shared, History.heard_after, if_neg hji] at hrest
  rcases Config.put_thread.1 hj with ⟨rfl, -, -⟩ | ⟨-, hj⟩
  · exact absurd rfl hji
  · exact ⟨⟨r', o', k', hj⟩, hrest⟩

/-- A statement of thread `i` that leaves the tables as they are, the first of its kind: the others
    are not concerned. -/
theorem after_reading (hK : Recorded c) {i : Nat} {r : DecideRequest} {o : OptionOp} {b : o.Res}
    {q : Option (Deciding DecideResponse)}
    (hfetched : ∀ cardId row, ⟨.fetchCard cardId, some row⟩ ∈
      (⟨o, b⟩ :: c.shared.heard i : Heard OptionOp OptionOp.Res) → row ∈ c.shared.cur.cards)
    (hdated : ∀ cardId row decidedAt, ⟨.fetchCard cardId, some row⟩ ∈
      (⟨o, b⟩ :: c.shared.heard i : Heard OptionOp OptionOp.Res) →
      ⟨.utcNow .decidedAt, decidedAt⟩ ∈
        (⟨o, b⟩ :: c.shared.heard i : Heard OptionOp OptionOp.Res) → decidedAt < row.expiresAt)
    (hbetween : ∀ row, Between (c.put (c.shared.after i o b c.shared.cur) i r q) i row →
      c.shared.cur.now < row.expiresAt) :
    Recorded (c.put (c.shared.after i o b c.shared.cur) i r q) := by
  refine ⟨hK.cards, hK.decisions, fun j cardId row h => ?_, fun j cardId row decidedAt h h' => ?_,
    fun j row h => ?_, hK.sound⟩
  · rw [Config.put_shared, History.heard_after] at h
    split at h
    · exact hfetched cardId row h
    · exact hK.fetched j cardId row h
  · rw [Config.put_shared, History.heard_after] at h h'
    split at h
    · next hji =>
      rw [if_pos hji] at h'
      exact hdated cardId row decidedAt h h'
    · next hji =>
      rw [if_neg hji] at h'
      exact hK.dated j cardId row decidedAt h h'
  · by_cases hji : j = i
    · subst hji
      exact hbetween row h
    · exact hK.between j row (between_of_ne hji h)

/-- A statement of thread `i`, in the course of its request. -/
theorem after (hK : Recorded c) {i : Nat} {r : DecideRequest} {o : OptionOp}
    {k : Except DecideExc o.Res → Deciding DecideResponse} {a b : o.Res} {t : OptionDb}
    {q : Option (Deciding DecideResponse)} (hi : c.thread i = some (r, some (.op o k)))
    (hx : execOption S o a c.shared.cur = some (b, t))
    (hcourse : Course S r (⟨o, b⟩ :: c.shared.heard i)) :
    Recorded (c.put (c.shared.after i o b t) i r q) := by
  generalize hlog : c.shared.heard i = log at hcourse
  cases hcourse with
  | fetched found =>
    obtain ⟨id, -, heq⟩ := Option.map_eq_some_iff.1 hx
    obtain ⟨hfound, rfl⟩ := Prod.mk.inj heq
    refine hK.after_reading (fun cardId row h => ?_) (fun cardId row decidedAt h h' => ?_)
      fun row h => ?_
    · rw [hlog] at h
      simp only [List.mem_singleton, Sigma.mk.injEq, OptionOp.fetchCard.injEq] at h
      obtain ⟨rfl, h⟩ := h
      rw [← eq_of_heq h] at hfound
      exact List.mem_of_find?_eq_some hfound
    · rw [hlog] at h'
      simp at h'
    · obtain ⟨-, cardId, now, -, h, -⟩ := h
      rw [Config.put_shared, History.heard_after, if_pos rfl, hlog] at h
      simp at h
  | tested row now =>
    obtain ⟨rfl, rfl⟩ := Prod.mk.inj (Option.some.inj hx)
    refine hK.after_reading (fun cardId row' h => ?_) (fun cardId row' decidedAt h h' => ?_)
      fun row' h => ?_
    · rcases List.mem_cons.1 h with h | h
      · cases h
      · exact hK.fetched i cardId row' h
    · rw [hlog] at h'
      simp at h'
    · -- the card is unexpired at the very time of the test
      obtain ⟨-, cardId, now, -, htested, hlt, -⟩ := h
      rw [Config.put_shared, History.heard_after, if_pos rfl, hlog] at htested
      simp only [List.mem_cons, List.mem_nil_iff, or_false, Sigma.mk.injEq] at htested
      rcases htested with ⟨-, h⟩ | ⟨h, -⟩
      · rw [← eq_of_heq h]
        exact hlt
      · cases h
  | dated row now decidedAt hnow =>
    obtain ⟨rfl, rfl⟩ := Prod.mk.inj (Option.some.inj hx)
    -- until this statement the request stood between its readings
    have htime : c.shared.cur.now < row.expiresAt := by
      refine hK.between i row ⟨⟨r, _, k, hi⟩, r.card, now, ?_, ?_, hnow, fun decidedAt h => ?_⟩
      · rw [hlog]
        exact List.mem_cons_of_mem _ List.mem_cons_self
      · rw [hlog]
        exact List.mem_cons_self
      · rw [hlog] at h
        simp at h
    refine hK.after_reading (fun cardId row' h => ?_) (fun cardId row' decidedAt h h' => ?_)
      fun row' h => ?_
    · rcases List.mem_cons.1 h with h | h
      · cases h
      · exact hK.fetched i cardId row' h
    · rw [hlog] at h h'
      simp at h h'
      obtain ⟨⟨-, rfl⟩, rfl⟩ := And.intro h h'
      exact htime
    · obtain ⟨-, -, -, -, -, -, hno⟩ := h
      refine absurd ?_ (hno c.shared.cur.now)
      rw [Config.put_shared, History.heard_after, if_pos rfl]
      exact List.mem_cons_self
  | signed row now decidedAt n signature =>
    obtain ⟨rfl, rfl⟩ := Prod.mk.inj (Option.some.inj hx)
    exact hK.after_silent hi nofun nofun rfl rfl hK.decisions hK.sound
  | recorded row now decidedAt n signature principal decision hn =>
    simp only [execOption] at hx
    split at hx
    · cases hx
    next hfirst =>
      split at hx
      · obtain ⟨rfl, rfl⟩ := Prod.mk.inj (Option.some.inj hx)
        refine hK.after_silent hi nofun nofun rfl rfl (List.nodup_cons.2 ⟨hfirst, hK.decisions⟩)
          fun d hd => ?_
        rcases List.mem_cons.1 hd with rfl | hd
        · have hfetched : ⟨.fetchCard r.card, some row⟩ ∈ c.shared.heard i := by
            rw [hlog]
            simp
          refine ⟨row, hK.fetched i r.card row hfetched, rfl, offered_of_decisionFor hn _ _,
            hK.dated i r.card row decidedAt hfetched ?_⟩
          rw [hlog]
          simp
        · exact hK.sound d hd
      · cases hx
  | told cardId existing log h =>
    obtain ⟨id, -, heq⟩ := Option.map_eq_some_iff.1 hx
    obtain ⟨-, rfl⟩ := Prod.mk.inj heq
    exact hK.after_silent hi nofun nofun rfl rfl hK.decisions hK.sound

end Recorded

/-- Every state that such a run reaches. -/
theorem recorded_of_reach {S : DecideSettings} {c : OptionConfig}
    (hr : (optionCards S).Reach Unexpired OptionConfig.start c) : Recorded c := by
  refine Sys.Reach.sound_own (optionDecide_course S) Recorded.start ?_ ?_ ?_ ?_ ?_ ?_ hr
  · exact fun c i r _ hK _ hnil _ => hK.put rfl (fun _ => rfl) (.inr (.inl hnil))
  · exact fun c i r o k e hK hi => hK.put rfl (fun _ => rfl) (.inr (.inr ⟨r, o, k, hi⟩))
  · exact fun c i r p hK hi => hK.put rfl (fun _ => rfl) (.inl rfl)
  · exact fun _ _ _ _ _ _ _ _ _ _ _ => True.intro
  · exact fun c i f r o k out a b t _ _ hK hi hx hcourse => hK.after hi hx hcourse
  · exact fun c e t hok hK ht => hK.move hok ht

/-! ## Decided once -/

/-- The decisions on a card. -/
def OptionDb.decisionsOn (db : OptionDb) (cardId : String) : List ApprovalDecision :=
  db.decisions.filter fun d => d.cardId = cardId

theorem length_decisionsOn_le {db : OptionDb}
    (h : (db.decisions.map ApprovalDecision.cardId).Nodup) (cardId : String) :
    (db.decisionsOn cardId).length ≤ 1 := by
  have hcount := List.nodup_iff_count_le_one.1 h cardId
  rw [List.count_eq_countP, List.countP_map, List.countP_eq_length_filter] at hcount
  refine Nat.le_trans (Nat.le_of_eq ?_) hcount
  rfl

/-- What a statement does to the decisions: nothing, or it inserts the first one on a card. -/
theorem execOption_insert {S : DecideSettings} {o : OptionOp} {a b : o.Res} {db t : OptionDb}
    (hx : execOption S o a db = some (b, t)) : t.decisions = db.decisions ∨
      ∃ d, o = .insertDecision d ∧ db.decisionsOn d.cardId = [] ∧
        t.decisions = d :: db.decisions := by
  cases o with
  | fetchCard cardId =>
    obtain ⟨_, -, heq⟩ := Option.map_eq_some_iff.1 hx
    obtain ⟨-, rfl⟩ := Prod.mk.inj heq
    exact .inl rfl
  | fetchDecision cardId =>
    obtain ⟨_, -, heq⟩ := Option.map_eq_some_iff.1 hx
    obtain ⟨-, rfl⟩ := Prod.mk.inj heq
    exact .inl rfl
  | utcNow reading =>
    obtain ⟨-, rfl⟩ := Prod.mk.inj (Option.some.inj hx)
    exact .inl rfl
  | sign cardId outcome chosenOptionId decidedAt =>
    obtain ⟨-, rfl⟩ := Prod.mk.inj (Option.some.inj hx)
    exact .inl rfl
  | insertDecision d =>
    simp only [execOption] at hx
    split at hx
    · cases hx
    next hfirst =>
      split at hx
      · obtain ⟨-, rfl⟩ := Prod.mk.inj (Option.some.inj hx)
        refine .inr ⟨d, rfl, List.filter_eq_nil_iff.2 fun d' hd' => ?_, rfl⟩
        simp only [decide_eq_true_eq]
        exact fun heq => hfirst (List.mem_map.2 ⟨d', hd', heq⟩)
      · cases hx

/-- What an act does to the decisions: nothing, or a request inserts the first one on a card. -/
theorem optionCards_exec (S : DecideSettings) (c : OptionConfig) (act : OptionAct) :
    ((optionCards S).exec c act).shared.cur.decisions = c.shared.cur.decisions ∨
      ∃ i f d, act = .step i f ∧ c.next i = some (.insertDecision d) ∧
        c.shared.cur.decisionsOn d.cardId = [] ∧
        ((optionCards S).exec c act).shared.cur.decisions = d :: c.shared.cur.decisions := by
  let P (c' : OptionConfig) : Prop := c'.shared.cur.decisions = c.shared.cur.decisions ∨
    ∃ i f d, act = .step i f ∧ c.next i = some (.insertDecision d) ∧
      c.shared.cur.decisionsOn d.cardId = [] ∧
      c'.shared.cur.decisions = d :: c.shared.cur.decisions
  refine Sys.exec_cases (P := P) act (.inl rfl) ?_ ?_ (fun _ _ _ _ _ => .inl rfl) ?_
  · intro i r s _ _ hs
    obtain ⟨-, rfl⟩ := recorded_enter hs
    exact .inl rfl
  · intro i f r o k out s hact hi hs
    rcases recorded_apply hs with ⟨-, rfl⟩ | ⟨a, b, t, -, hx, rfl⟩
    · exact .inl rfl
    rcases execOption_insert hx with hsame | ⟨d, rfl, hfirst, hnew⟩
    · exact .inl hsame
    · exact .inr ⟨i, f, d, hact, by simp only [Config.next, hi], hfirst, hnew⟩
  · intro e s _ hs
    obtain ⟨t, ht, rfl⟩ := recorded_env hs
    refine .inl ?_
    cases e with
    | tick n =>
      obtain rfl := Option.some.inj ht
      rfl
    | putCard row =>
      simp only [OptionMove.apply] at ht
      split at ht
      · cases ht
      · obtain rfl := Option.some.inj ht
        rfl

/-- A card is decided at most once, only as it offers, and before it expires, whatever the requests
    and their order; an act that does not make the first decision on a card changes none. -/
theorem decided_once {S : DecideSettings} {c : OptionConfig} {row : OptionCardRow}
    (hr : (optionCards S).Reach Unexpired OptionConfig.start c) (hrow : row ∈ c.shared.cur.cards) :
    (c.shared.cur.decisionsOn row.cardId).length ≤ 1 ∧
    (∀ d ∈ c.shared.cur.decisionsOn row.cardId, Offered row d ∧ d.decidedAt < row.expiresAt) ∧
    ∀ act, ((optionCards S).exec c act).shared.cur.decisions = c.shared.cur.decisions ∨
      ∃ i f d, act = .step i f ∧ c.next i = some (.insertDecision d) ∧
        c.shared.cur.decisionsOn d.cardId = [] ∧
        ((optionCards S).exec c act).shared.cur.decisions = d :: c.shared.cur.decisions := by
  have hK := recorded_of_reach hr
  refine ⟨length_decisionsOn_le hK.decisions row.cardId, fun d hd => ?_, optionCards_exec S c⟩
  obtain ⟨hd, hcard⟩ := List.mem_filter.1 hd
  obtain ⟨row', hrow', hid, hoffered, htime⟩ := hK.sound d hd
  have hsame : row' = row :=
    List.inj_on_of_nodup_map hK.cards hrow' hrow (hid.trans (of_decide_eq_true hcard))
  rw [← hsame]
  exact ⟨hoffered, htime⟩

/-! ## Two runs -/

/-- Every signature is good. -/
def plainDecide : DecideSettings := ⟨some, fun _ _ => true, fun _ => some "", id⟩

/-- A card with the options `A` and `B`, `A` recommended, which expires at 10. -/
def shortCard : OptionCardRow where
  cardId := "card-1"
  card := [("options", .arr [.obj [("option_id", .str "A")], .obj [("option_id", .str "B")]]),
    ("recommended_option_id", .str "A")]
  createdAt := 0
  expiresAt := 10

def chooses (principal opt : String) : DecideRequest :=
  ⟨some principal, "card-1", "sig", some opt, none, "teams_card"⟩

/-- The next statement of request `i` is executed. -/
def answered (i : Nat) : OptionAct :=
  .step i fun
    | .fetchCard _ => .ok none
    | .utcNow _ => .ok (0 : Nat)
    | .sign _ _ _ _ => .ok "sig"
    | .insertDecision row => .ok row
    | .fetchDecision _ => .ok none

/-- Two requests at once, the second of which is told of the first. -/
def twoChoices : List OptionAct :=
  [.env (.putCard shortCard), .enter 0 (chooses "ada" "A"), .enter 1 (chooses "bob" "B"),
    answered 0, answered 1, answered 0, answered 1, answered 0, answered 1, answered 0,
    answered 1, answered 0,
    .step 1 fun _ => .failed .uniqueViolation, answered 1]

def afterRun (run : List OptionAct) : OptionConfig :=
  run.foldl (optionCards plainDecide).exec OptionConfig.start

def passesTime : OptionAct → Bool
  | .env (.tick _) => true
  | _ => false

/-- An act that takes no time is in time. -/
theorem unexpired_of_not_passesTime {c : OptionConfig} {act : OptionAct}
    (h : passesTime act = false) : Unexpired c act := by
  unfold Unexpired
  split
  · exact absurd h Bool.noConfusion
  · exact True.intro

theorem twoChoices_unexpired :
    (optionCards plainDecide).Reach Unexpired OptionConfig.start (afterRun twoChoices) := by
  refine Sys.Reach.foldl twoChoices .init fun n => unexpired_of_not_passesTime ?_
  revert n
  decide

theorem twoChoices_decided : shortCard ∈ (afterRun twoChoices).shared.cur.cards ∧
    ((afterRun twoChoices).shared.cur.decisionsOn "card-1").length ≤ 1 :=
  have hrow : shortCard ∈ (afterRun twoChoices).shared.cur.cards := by decide +kernel
  ⟨hrow, (decided_once twoChoices_unexpired hrow).1⟩

/-- The card is tested at 9, and decided at 14. -/
def overtaken : List OptionAct :=
  [.env (.putCard shortCard), .env (.tick 9), .enter 0 (chooses "ada" "A"), answered 0, answered 0,
    .env (.tick 5), answered 0, answered 0, answered 0]

/-- A decision can be dated, and made, after its card has expired. -/
theorem decided_after_expiry : ¬ ∀ c,
    (optionCards plainDecide).Reach Sys.free OptionConfig.start c → ∀ row ∈ c.shared.cur.cards,
      ∀ d ∈ c.shared.cur.decisionsOn row.cardId, d.decidedAt < row.expiresAt := by
  intro h
  have hrow : shortCard ∈ (afterRun overtaken).shared.cur.cards := by decide +kernel
  have hdecided : ((afterRun overtaken).shared.cur.decisionsOn "card-1").map
      ApprovalDecision.decidedAt = [14] := by decide +kernel
  obtain ⟨d, hd, hat⟩ := List.mem_map.1 (hdecided ▸ List.mem_singleton_self 14)
  have hlt := h (afterRun overtaken) (Sys.Reach.init.foldl_free _) shortCard hrow d hd
  rw [hat] at hlt
  exact absurd hlt (by decide)

end CanvasOS.Gatekeeper
