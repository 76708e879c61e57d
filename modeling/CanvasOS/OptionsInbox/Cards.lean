/-
  Option cards (`options_inbox/cards.py`): what an agent hands to a human.

  1. `AutonomyMatrix` — the part of `autonomy-matrix.yaml` that is read.
  2. `buildCard` — a card, its risk tier, budget class and timeout behaviour derived from the matrix.
  3. `validateCard` — the policy invariants that a card must meet to leave `build_card`.
  4. `Built` — what is known of every card that was built.
-/
import CanvasOS.Dispatch.Rendering

namespace CanvasOS.OptionsInbox

open Python Review Dispatch

/-! ## The matrix -/

/-- One entry of `levels`. -/
structure AutonomyLevel where
  defaultOnTimeoutAllowed : Bool
  defaultTimeoutHours : Option Int
deriving DecidableEq

structure AutonomyMatrix where
  /-- `levels`; a level that is not there is a KeyError -/
  levels : Int → Option AutonomyLevel
  nonNegotiableKinds : List String
  /-- `timeouts.enabled_globally` -/
  enabledGlobally : Bool
  /-- `approval_budget.cards_per_working_day` -/
  cardsPerWorkingDay : Int

/-! ## Cards -/

/-- A `datetime`: microseconds, of UTC where the datetime is aware of its zone.  Its `isoformat` is
    read back as it is. -/
structure Moment where
  micros : Int
  aware : Bool
deriving DecidableEq

/-- `now + timedelta(hours=hours)` -/
def Moment.plusHours (m : Moment) (hours : Int) : Moment := ⟨m.micros + hours * 3600000000, m.aware⟩

/-- An option card.  The options and the evidence are dicts as the caller gives them. -/
structure OptionCard where
  cardId : String
  kind : String
  autonomyLevel : Int
  riskTier : String
  title : String
  decisionQuestion : String
  contextSummary : String
  options : List Object
  recommendedOptionId : String
  recommendationRationale : String
  evidenceRefs : List Object
  novelStance : Bool
  producedBy : Object
  createdAt : Moment
  expiresAt : Moment
  defaultOnTimeout : Option String
  budgetClass : String
  registerRows : List String
  lineage : Option Object
deriving DecidableEq

inductive InboxFailure where
  | cardError (message : String)
  | validationError
  | keyError (key : String)
  | typeError
deriving DecidableEq

/-- `obj[key]` -/
def item (obj : Object) (key : String) : Except InboxFailure Json :=
  match Json.lookup obj key with
  | some value => .ok value
  | none => .error (.keyError key)

/-- What raises where Python raises a TypeError or an AttributeError. -/
def orTypeError {α : Type} : Option α → Except InboxFailure α
  | some a => .ok a
  | none => .error .typeError

/-- `raise CardError(message)` unless the condition holds. -/
def requireCard (ok : Bool) (message : String) : Except InboxFailure Unit :=
  if ok then .ok () else .error (.cardError message)

/-! ## Validation -/

/-- What a validation is made with: the JSON Schema validator, where it is installed, the resolver
    of evidence, where one is given, and `str.lower()`. -/
structure Validation where
  schema : Option (OptionCard → Bool)
  evidenceResolver : Option (Object → Bool)
  lower : List Char → List Char

/-- `card["evidence_refs"]` and those of the options. -/
def allEvidence (card : OptionCard) : Option (List Object) := do
  let refs ← card.options.mapM fun o => objectsOf (getOr o "evidence_refs" (.arr []))
  some (card.evidenceRefs ++ refs.flatten)

/-- No evidence is cited that does not exist. -/
def checkEvidence (resolver : Object → Bool) (card : OptionCard) : Except InboxFailure Unit := do
  let refs ← orTypeError (allEvidence card)
  let bad := refs.filter fun r => Json.get r "source_type" != .str "none" && !resolver r
  if bad = [] then pure ()
  else do
    let badRefs ← bad.mapM fun b => item b "ref"
    throw (.cardError ("unresolvable evidence refs (fabricated-proof-point guard): " ++
      pyStr (.arr badRefs)))

/-- Every option has evidence, or the card is flagged. -/
def checkOptionEvidence (card : OptionCard) : List Object → Except InboxFailure Unit
  | [] => pure ()
  | o :: rest =>
    if (Json.get o "evidence_refs").truthy = false ∧ card.novelStance = false then do
      let optionId ← item o "option_id"
      throw (.cardError ("option " ++ pyStr optionId ++
        " has no evidence and card is not flagged novel_stance"))
    else checkOptionEvidence card rest

/-- `o["summary"].strip().lower()` -/
def summaryOf (V : Validation) (o : Object) : Except InboxFailure String := do
  let summary ← item o "summary"
  let text ← orTypeError (asStr summary)
  pure (String.ofList (V.lower (strip text.toList)))

/-- The options can be told apart. -/
def checkDistinct (V : Validation) (card : OptionCard) : Except InboxFailure Unit := do
  let summaries ← card.options.mapM (summaryOf V)
  requireCard (decide summaries.Nodup) "options are not distinct (identical summaries)"
  requireCard (card.options.length != 3 ||
      card.options.all fun o => (Json.get o "distinctness_axis").truthy)
    "three-option cards must declare a distinctness_axis per option"

/-- `jsonschema.validate(card, load_contract())` -/
def checkSchema (V : Validation) (card : OptionCard) : Except InboxFailure Unit :=
  match V.schema with
  | some accepts => if accepts card then .ok () else .error .validationError
  | none => .ok ()

/-- Where a resolver is given, every evidence is resolved. -/
def checkResolved (V : Validation) (card : OptionCard) : Except InboxFailure Unit :=
  match V.evidenceResolver with
  | some resolver => checkEvidence resolver card
  | none => .ok ()

/-- A non-negotiable kind is decided by a human, at once. -/
def checkNonNegotiable (M : AutonomyMatrix) (card : OptionCard) : Except InboxFailure Unit :=
  if card.kind ∈ M.nonNegotiableKinds then do
    requireCard card.defaultOnTimeout.isNone
      ("non-negotiable kind " ++ card.kind ++ " may not carry default_on_timeout")
    requireCard (card.budgetClass == "realtime") "non-negotiable kinds must be realtime"
  else .ok ()

/-- `validate_card` -/
def validateCard (M : AutonomyMatrix) (V : Validation) (card : OptionCard) :
    Except InboxFailure Unit := do
  checkSchema V card
  checkResolved V card
  let ids ← card.options.mapM fun o => item o "option_id"
  requireCard (decide ids.Nodup) "duplicate option ids"
  requireCard (ids.contains (.str card.recommendedOptionId))
    "recommended_option_id is not one of the options"
  checkNonNegotiable M card
  requireCard (!(decide (card.autonomyLevel ≤ 1) && card.defaultOnTimeout.isSome))
    "Level 0/1 cards may never default on timeout"
  requireCard (card.defaultOnTimeout.all fun d => ids.contains (.str d))
    "default_on_timeout must be an option id"
  checkOptionEvidence card card.options
  checkDistinct V card

/-! ## Building -/

/-- The arguments of `build_card`, with the id that `uuid4` gives and the time of the call. -/
structure CardRequest where
  cardId : String
  kind : String
  level : Int
  title : String
  decisionQuestion : String
  options : List Object
  recommended : String
  evidenceRefs : List Object
  producedBy : Object
  registerRows : List String
  rationale : String
  contextSummary : String
  novelStance : Bool
  lineage : Option Object
  now : Moment
  expiresHours : Option Int
  defaultsEarned : Bool

/-- `a or b or …`, of hours -/
def hoursOr : List (Option Int) → Int → Int
  | [], last => last
  | some 0 :: rest, last => hoursOr rest last
  | some hours :: _, _ => hours
  | none :: rest, last => hoursOr rest last

/-- `{0: "high", …}[level]` -/
def riskTierOf (level : Int) : Option String :=
  if level = 0 then some "high"
  else if level = 1 then some "medium"
  else if level = 2 ∨ level = 3 ∨ level = 4 then some "low"
  else none

/-- Risk tier, budget class, `default_on_timeout` and hours to expiry. -/
def timeoutBehaviour (M : AutonomyMatrix) (b : CardRequest) :
    Except InboxFailure (String × String × Option String × Int) :=
  if b.kind ∈ M.nonNegotiableKinds then
    .ok ("non_negotiable", "realtime", none, hoursOr [b.expiresHours] 72)
  else
    match riskTierOf b.level, M.levels b.level with
    | some riskTier, some level =>
      if level.defaultOnTimeoutAllowed && (M.enabledGlobally || b.defaultsEarned) then
        .ok (riskTier, "digest", some b.recommended,
          hoursOr [b.expiresHours, level.defaultTimeoutHours] 48)
      else .ok (riskTier, "digest", none, hoursOr [b.expiresHours] 120)
    | _, _ => .error (.keyError "level")

/-- `build_card` -/
def buildCard (M : AutonomyMatrix) (V : Validation) (b : CardRequest) :
    Except InboxFailure OptionCard := do
  let (riskTier, budgetClass, default, hours) ← timeoutBehaviour M b
  let card : OptionCard := {
    cardId := b.cardId
    kind := b.kind
    autonomyLevel := b.level
    riskTier := riskTier
    title := b.title
    decisionQuestion := b.decisionQuestion
    contextSummary := b.contextSummary
    options := b.options
    recommendedOptionId := b.recommended
    recommendationRationale := b.rationale
    evidenceRefs := b.evidenceRefs
    novelStance := b.novelStance
    producedBy := b.producedBy
    createdAt := b.now
    expiresAt := b.now.plusHours hours
    defaultOnTimeout := default
    budgetClass := budgetClass
    registerRows := b.registerRows
    -- an empty lineage is not stored
    lineage := b.lineage.filter (· ≠ []) }
  validateCard M V card
  pure card

/-! ## What was built -/

/-- A step that went well, and what followed it. -/
theorem bind_ok {α β : Type} {x : Except InboxFailure α} {f : α → Except InboxFailure β} {b : β}
    (h : x >>= f = .ok b) : ∃ a, x = .ok a ∧ f a = .ok b := by
  cases x with
  | ok a => exact ⟨a, rfl, h⟩
  | error e => cases h

theorem of_requireCard {ok : Bool} {message : String} {u : Unit}
    (h : requireCard ok message = .ok u) : ok = true := by
  unfold requireCard at h
  split at h
  · assumption
  · cases h

theorem item_ok {obj : Object} {key : String} {value : Json} (h : item obj key = .ok value) :
    Json.lookup obj key = some value := by
  unfold item at h
  split at h
  · next found hfound => rw [hfound, Except.ok.inj h]
  · cases h

/-- The ids of the options. -/
def OptionCard.ids (card : OptionCard) : List Json :=
  card.options.filterMap fun o => Json.lookup o "option_id"

theorem ids_of_mapM {options : List Object} {ids : List Json}
    (h : (options.mapM fun o => item o "option_id") = .ok ids) :
    options.filterMap (fun o => Json.lookup o "option_id") = ids := by
  induction options generalizing ids with
  | nil => exact Except.ok.inj h
  | cons o options ih =>
    rw [List.mapM_cons] at h
    obtain ⟨id, hid, h⟩ := bind_ok h
    obtain ⟨rest, hrest, h⟩ := bind_ok h
    rw [List.filterMap_cons, item_ok hid, ih hrest]
    exact Except.ok.inj h

/-- What every card that passes the validation meets. -/
structure Valid (M : AutonomyMatrix) (card : OptionCard) : Prop where
  nonNegotiable : card.kind ∈ M.nonNegotiableKinds → card.defaultOnTimeout = none
  level : ∀ d, card.defaultOnTimeout = some d → 2 ≤ card.autonomyLevel
  default : ∀ d, card.defaultOnTimeout = some d → .str d ∈ card.ids

theorem valid_of_validateCard {M : AutonomyMatrix} {V : Validation} {card : OptionCard}
    (h : validateCard M V card = .ok ()) : Valid M card := by
  unfold validateCard at h
  obtain ⟨-, -, h⟩ := bind_ok h
  obtain ⟨-, -, h⟩ := bind_ok h
  obtain ⟨ids, hids, h⟩ := bind_ok h
  obtain ⟨-, -, h⟩ := bind_ok h
  obtain ⟨-, -, h⟩ := bind_ok h
  obtain ⟨_, hkind, h⟩ := bind_ok h
  obtain ⟨_, hlevel, h⟩ := bind_ok h
  obtain ⟨_, hdefault, -⟩ := bind_ok h
  refine ⟨fun hmem => ?_, fun d hd => ?_, fun d hd => ?_⟩
  · unfold checkNonNegotiable at hkind
    rw [if_pos hmem] at hkind
    obtain ⟨_, hnone, -⟩ := bind_ok hkind
    exact Option.isNone_iff_eq_none.1 (of_requireCard hnone)
  · have hnot := of_requireCard hlevel
    rw [hd, Option.isSome_some, Bool.and_true, Bool.not_eq_true', decide_eq_false_iff_not] at hnot
    omega
  · have hmem := of_requireCard hdefault
    rw [hd, Option.all_some, List.contains_iff_mem] at hmem
    unfold OptionCard.ids
    rw [ids_of_mapM hids]
    exact hmem

/-- What is known of a card that `b` built. -/
structure Built (M : AutonomyMatrix) (b : CardRequest) (card : OptionCard) : Prop where
  valid : Valid M card
  level : card.autonomyLevel = b.level
  /-- a default is allowed by the level and earned, or given to everybody -/
  default : ∀ d, card.defaultOnTimeout = some d →
    (∃ level, M.levels b.level = some level ∧ level.defaultOnTimeoutAllowed = true) ∧
      (M.enabledGlobally = true ∨ b.defaultsEarned = true)

theorem default_of_timeoutBehaviour {M : AutonomyMatrix} {b : CardRequest}
    {riskTier budgetClass d : String} {hours : Int}
    (h : timeoutBehaviour M b = .ok (riskTier, budgetClass, some d, hours)) :
    (∃ level, M.levels b.level = some level ∧ level.defaultOnTimeoutAllowed = true) ∧
      (M.enabledGlobally = true ∨ b.defaultsEarned = true) := by
  unfold timeoutBehaviour at h
  split at h
  · cases h
  · split at h
    · next riskTier level _ hlevel =>
      split at h
      · next hallowed =>
        rw [Bool.and_eq_true, Bool.or_eq_true] at hallowed
        exact ⟨⟨level, hlevel, hallowed.1⟩, hallowed.2⟩
      · cases h
    · cases h

theorem built_of_buildCard {M : AutonomyMatrix} {V : Validation} {b : CardRequest}
    {card : OptionCard} (h : buildCard M V b = .ok card) : Built M b card := by
  unfold buildCard at h
  obtain ⟨⟨riskTier, budgetClass, default, hours⟩, hbehaviour, h⟩ := bind_ok h
  obtain ⟨_, hvalid, h⟩ := bind_ok h
  obtain rfl := Except.ok.inj h
  refine ⟨valid_of_validateCard hvalid, rfl, ?_⟩
  rintro d (rfl : default = some d)
  exact default_of_timeoutBehaviour hbehaviour

end CanvasOS.OptionsInbox
