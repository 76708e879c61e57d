/-
  Where the cards of the options inbox go (`options_inbox/policy.py`).

  1. `permissionMatches` — a standing permission covers a card.  Its condition is code that is
     evaluated; here it is any predicate, which may also raise.
  2. `route` — standing permissions first, then expiry, then the budget of the day.
  3. `route_safe` — no card of a non-negotiable kind is decided without a human, and a card that is
     decided by default was allowed to be.
-/
import CanvasOS.OptionsInbox.Cards
import Mathlib.Algebra.Ring.Int.Defs
import Mathlib.Order.Defs.LinearOrder

namespace CanvasOS.OptionsInbox

open Python Review Dispatch

variable {γ σ : Type}

/-! ## Standing permissions -/

/-- A standing permission, the fields that are read. -/
structure StandingPermission (γ : Type) where
  permissionId : String
  status : String
  /-- `scope.card_kinds` -/
  cardKinds : List String
  /-- `scope.functions` -/
  functions : Option (List String)
  /-- `rule.effect` -/
  effect : String
  /-- `rule.hard_exclusions` -/
  hardExclusions : List String
  /-- `rule.condition`, evaluated; `none` when it raises -/
  condition : OptionCard → γ → Option Bool

/-- The permission is for every function, or for the one that made the card. -/
def functionInScope (perm : StandingPermission γ) (card : OptionCard) : Except InboxFailure Bool :=
  match perm.functions with
  | none | some [] => .ok true
  | some functions => do
    let functionId ← item card.producedBy "function_id"
    pure (functions.any fun f => functionId == .str f)

/-- `permission_matches` -/
def permissionMatches (M : AutonomyMatrix) (perm : StandingPermission γ) (card : OptionCard)
    (context : γ) : Except InboxFailure Bool :=
  if perm.status ≠ "active" then .ok false
  else if card.kind ∉ perm.cardKinds then .ok false
  else if card.kind ∈ perm.hardExclusions then .ok false
  else if card.kind ∈ M.nonNegotiableKinds then .ok false
  else do
    let inScope ← functionInScope perm card
    pure (inScope && (perm.condition card context).getD false)

/-- The first permission that matches. -/
def firstMatching (M : AutonomyMatrix) (card : OptionCard) (context : γ) :
    List (StandingPermission γ) → Except InboxFailure (Option (StandingPermission γ))
  | [] => .ok none
  | perm :: rest => do
    let found ← permissionMatches M perm card context
    if found then pure (some perm) else firstMatching M card context rest

/-! ## Routing -/

/-- `RoutingResult` -/
structure RoutingResult where
  sent : List OptionCard
  autoResolved : List (OptionCard × String)
  timeoutDefaults : List OptionCard
  expiredUnresolved : List OptionCard
  queuedOverflow : List OptionCard
  escalations : List OptionCard

/-- What the first loop decides about a card. -/
inductive Placement where
  | autoResolved (permissionId : String)
  | timeoutDefault
  | expiredUnresolved
  | secondShowing
  | remaining
deriving DecidableEq

/-- `a <= b` of two datetimes.  An aware one is not compared with a naive one. -/
def Moment.notAfter (a b : Moment) : Except InboxFailure Bool :=
  if a.aware = b.aware then .ok (decide (a.micros ≤ b.micros)) else .error .typeError

/-- An expired card defaults, or closes, or is shown again. -/
def placeByExpiry (resurfaced : List String) (now : Moment) (card : OptionCard) :
    Except InboxFailure Placement := do
  let expired ← card.expiresAt.notAfter now
  pure (if expired then
    if card.defaultOnTimeout.isSome then .timeoutDefault
    else if card.cardId ∈ resurfaced then .expiredUnresolved
    else .secondShowing
  else .remaining)

/-- One card of the first loop. -/
def place (M : AutonomyMatrix) (permissions : List (StandingPermission γ)) (context : γ)
    (resurfaced : List String) (now : Moment) (card : OptionCard) :
    Except InboxFailure Placement := do
  let matched ← firstMatching M card context permissions
  match matched with
  | some perm =>
    if perm.effect = "auto_approve_recommended" then pure (.autoResolved perm.permissionId)
    else placeByExpiry resurfaced now card
  | none => placeByExpiry resurfaced now card

/-- The cards that were placed so. -/
def placedAs (p : Placement) (placed : List (OptionCard × Placement)) : List OptionCard :=
  (placed.filter fun x => x.2 = p).map Prod.fst

/-- `value_score.get(card_id, 0.0)` -/
def scoreOf [Zero σ] (valueScore : List (String × σ)) (card : OptionCard) : σ :=
  ((valueScore.find? fun kv => kv.1 == card.cardId).map Prod.snd).getD 0

/-- `route` -/
def route [LinearOrder σ] [Zero σ] (M : AutonomyMatrix) (pending : List OptionCard)
    (permissions : List (StandingPermission γ)) (now : Moment) (realtimeSentToday : Int)
    (valueScore : List (String × σ)) (resurfaced : List String) (context : γ) :
    Except InboxFailure RoutingResult := do
  let placed ← pending.mapM fun card => do
    let p ← place M permissions context resurfaced now card
    pure (card, p)
  let remaining := placedAs .remaining placed
  let digest := (remaining.filter fun card => card.budgetClass != "realtime").mergeSort fun a b =>
    decide (scoreOf valueScore b ≤ scoreOf valueScore a)
  let slots := (M.cardsPerWorkingDay - realtimeSentToday).toNat
  pure {
    sent := digest.take slots
    autoResolved := placed.filterMap fun x =>
      match x.2 with
      | .autoResolved permissionId => some (x.1, permissionId)
      | _ => none
    timeoutDefaults := placedAs .timeoutDefault placed
    expiredUnresolved := placedAs .expiredUnresolved placed
    queuedOverflow := digest.drop slots
    escalations := placedAs .secondShowing placed ++
      remaining.filter fun card => card.budgetClass == "realtime" }

/-! ## Safety -/

/-- A matching permission covers no non-negotiable kind. -/
theorem not_nonNegotiable_of_matches {M : AutonomyMatrix} {perm : StandingPermission γ}
    {card : OptionCard} {context : γ} (h : permissionMatches M perm card context = .ok true) :
    card.kind ∉ M.nonNegotiableKinds := by
  unfold permissionMatches at h
  split at h
  · cases h
  split at h
  · cases h
  split at h
  · cases h
  split at h
  · cases h
  · assumption

theorem matches_of_firstMatching {M : AutonomyMatrix} {card : OptionCard} {context : γ}
    {permissions : List (StandingPermission γ)} {perm : StandingPermission γ}
    (h : firstMatching M card context permissions = .ok (some perm)) :
    permissionMatches M perm card context = .ok true := by
  induction permissions with
  | nil => cases h
  | cons p rest ih =>
    obtain ⟨found, hfound, h⟩ := bind_ok h
    split at h
    · next htrue =>
      obtain rfl := Option.some.inj (Except.ok.inj h)
      rw [hfound, htrue]
    · exact ih h

/-- What the placement of a card says about it. -/
def Placed (M : AutonomyMatrix) (now : Moment) (card : OptionCard) : Placement → Prop
  | .autoResolved _ => card.kind ∉ M.nonNegotiableKinds
  | .timeoutDefault => card.expiresAt.notAfter now = .ok true ∧ card.defaultOnTimeout.isSome = true
  | _ => True

theorem placed_of_placeByExpiry {M : AutonomyMatrix} {resurfaced : List String} {now : Moment}
    {card : OptionCard} {p : Placement} (h : placeByExpiry resurfaced now card = .ok p) :
    Placed M now card p := by
  obtain ⟨expired, hexpired, h⟩ := bind_ok h
  obtain rfl := Except.ok.inj h
  split
  · next htrue =>
    split
    · next hsome => exact ⟨by rw [hexpired, htrue], hsome⟩
    split
    · exact True.intro
    · exact True.intro
  · exact True.intro

theorem placed_of_place {M : AutonomyMatrix} {permissions : List (StandingPermission γ)}
    {context : γ} {resurfaced : List String} {now : Moment} {card : OptionCard} {p : Placement}
    (h : place M permissions context resurfaced now card = .ok p) : Placed M now card p := by
  obtain ⟨matched, hmatched, h⟩ := bind_ok h
  cases matched with
  | none => exact placed_of_placeByExpiry h
  | some perm =>
    dsimp only at h
    split at h
    · obtain rfl := Except.ok.inj h
      exact not_nonNegotiable_of_matches (matches_of_firstMatching hmatched)
    · exact placed_of_placeByExpiry h

/-- Every pair that the first loop leaves is a pending card and its placement. -/
theorem place_of_mem {f : OptionCard → Except InboxFailure Placement} {pending : List OptionCard}
    {placed : List (OptionCard × Placement)}
    (h : (pending.mapM fun card => do
      let p ← f card
      pure (card, p)) = .ok placed) :
    ∀ x ∈ placed, x.1 ∈ pending ∧ f x.1 = .ok x.2 := by
  induction pending generalizing placed with
  | nil =>
    obtain rfl := Except.ok.inj h
    exact fun x hx => nomatch hx
  | cons card rest ih =>
    rw [List.mapM_cons] at h
    obtain ⟨pair, hpair, h⟩ := bind_ok h
    obtain ⟨p, hp, hpair⟩ := bind_ok hpair
    obtain ⟨tail, htail, h⟩ := bind_ok h
    obtain rfl := Except.ok.inj hpair
    obtain rfl := Except.ok.inj h
    intro x hx
    rcases List.mem_cons.1 hx with rfl | hx
    · exact ⟨List.mem_cons_self, hp⟩
    · obtain ⟨hmem, hf⟩ := ih htail x hx
      exact ⟨List.mem_cons_of_mem _ hmem, hf⟩

/-- A card in `timeout_defaults` was allowed to default: by its level, by what its function has
    earned or everybody was given, by its expiry; and it defaults to an option of its own. -/
structure DefaultAllowed (M : AutonomyMatrix) (now : Moment) (b : CardRequest) (card : OptionCard) :
    Prop where
  level : 2 ≤ card.autonomyLevel ∧
    ∃ level, M.levels card.autonomyLevel = some level ∧ level.defaultOnTimeoutAllowed = true
  earned : M.enabledGlobally = true ∨ b.defaultsEarned = true
  expired : card.expiresAt.notAfter now = .ok true
  own : ∃ d, card.defaultOnTimeout = some d ∧ .str d ∈ card.ids

/-- Whatever the matrix, the permissions, the time and the context: of cards that were built, none of
    a non-negotiable kind is resolved automatically or by default, and every one that is resolved by
    default was allowed to be. -/
theorem route_safe [LinearOrder σ] [Zero σ] {M : AutonomyMatrix} {pending : List OptionCard}
    {permissions : List (StandingPermission γ)} {now : Moment} {realtimeSentToday : Int}
    {valueScore : List (String × σ)} {resurfaced : List String} {context : γ}
    {result : RoutingResult}
    (hpending : ∀ card ∈ pending, ∃ V b, buildCard M V b = .ok card)
    (h : route M pending permissions now realtimeSentToday valueScore resurfaced context =
      .ok result) :
    (∀ x ∈ result.autoResolved, x.1.kind ∉ M.nonNegotiableKinds) ∧
      ∀ card ∈ result.timeoutDefaults, card.kind ∉ M.nonNegotiableKinds ∧
        ∀ V b, buildCard M V b = .ok card → DefaultAllowed M now b card := by
  obtain ⟨placed, hplaced, h⟩ := bind_ok h
  obtain rfl := Except.ok.inj h
  have hmem := place_of_mem hplaced
  constructor
  · intro x hx
    obtain ⟨⟨card, p⟩, hin, hauto⟩ := List.mem_filterMap.1 hx
    cases p with
    | autoResolved permissionId =>
      obtain rfl := Option.some.inj hauto
      exact placed_of_place (hmem _ hin).2
    | _ => cases hauto
  · intro card hcard
    obtain ⟨⟨card', p⟩, hin, rfl⟩ := List.mem_map.1 hcard
    obtain ⟨hin, hp⟩ := List.mem_filter.1 hin
    obtain rfl : p = .timeoutDefault := of_decide_eq_true hp
    obtain ⟨hpend, hplace⟩ := hmem _ hin
    obtain ⟨hexpired, hsome⟩ := placed_of_place hplace
    obtain ⟨d, hd⟩ := Option.isSome_iff_exists.1 hsome
    refine ⟨fun hkind => ?_, fun V b hb => ?_⟩
    · obtain ⟨V, b, hb⟩ := hpending _ hpend
      rw [(built_of_buildCard hb).valid.nonNegotiable hkind] at hd
      cases hd
    · have hbuilt := built_of_buildCard hb
      obtain ⟨hlevel, hearned⟩ := hbuilt.default d hd
      rw [← hbuilt.level] at hlevel
      exact ⟨⟨hbuilt.valid.level d hd, hlevel⟩, hearned, hexpired, d, hd, hbuilt.valid.default d hd⟩

/-! ### An inbox

    Two cards of level two, each with a default, both expired.  A standing permission covers the
    kind of the first. -/

/-- Level two defaults after two days, for everybody. -/
def twoMatrix : AutonomyMatrix where
  levels := fun level => if level = 2 then some ⟨true, some 48⟩ else none
  nonNegotiableKinds := ["legal_triage"]
  enabledGlobally := true
  cardsPerWorkingDay := 5

def plainValidation : Validation := ⟨none, none, id⟩

/-- An option with its evidence. -/
def optionNamed (optionId summary : String) : Object :=
  [("option_id", .str optionId), ("summary", .str summary),
    ("evidence_refs", .arr [.obj [("source_type", .str "none")]])]

def requestOf (cardId kind : String) : CardRequest where
  cardId := cardId
  kind := kind
  level := 2
  title := "Next post"
  decisionQuestion := "Which one?"
  options := [optionNamed "a" "the first", optionNamed "b" "the second"]
  recommended := "a"
  evidenceRefs := []
  producedBy := [("function_id", .str "FN-C4")]
  registerRows := []
  rationale := ""
  contextSummary := ""
  novelStance := false
  lineage := none
  now := ⟨0, true⟩
  expiresHours := none
  defaultsEarned := false

/-- The card of a request, where it is built. -/
def cardOf (b : CardRequest) : List OptionCard :=
  match buildCard twoMatrix plainValidation b with
  | .ok card => [card]
  | .error _ => []

theorem built_of_mem_cardOf {b : CardRequest} {card : OptionCard} (h : card ∈ cardOf b) :
    buildCard twoMatrix plainValidation b = .ok card := by
  unfold cardOf at h
  split at h
  · next found hfound => rw [hfound, List.mem_singleton.1 h]
  · cases h

def topics : StandingPermission Unit where
  permissionId := "SP-1"
  status := "active"
  cardKinds := ["topic"]
  functions := none
  effect := "auto_approve_recommended"
  hardExclusions := []
  condition := fun _ _ => some true

/-- The two cards that are pending. -/
def twoPending : List OptionCard :=
  cardOf (requestOf "c1" "topic") ++ cardOf (requestOf "c2" "headline")

/-- Three days later. -/
def threeDaysOn : Moment := (⟨0, true⟩ : Moment).plusHours 72

/-- What the first loop decides about them. -/
def twoPlaced : List (OptionCard × Placement) :=
  (cardOf (requestOf "c1" "topic")).map (fun card => (card, .autoResolved "SP-1")) ++
    (cardOf (requestOf "c2" "headline")).map fun card => (card, .timeoutDefault)

/-- What happens to them. -/
def twoRouted : RoutingResult where
  sent := []
  autoResolved := (cardOf (requestOf "c1" "topic")).map fun card => (card, "SP-1")
  timeoutDefaults := cardOf (requestOf "c2" "headline")
  expiredUnresolved := []
  queuedOverflow := []
  escalations := []

theorem twoPending_built : ∀ card ∈ twoPending, ∃ V b, buildCard twoMatrix V b = .ok card := by
  intro card hcard
  rcases List.mem_append.1 hcard with h | h
  · exact ⟨_, _, built_of_mem_cardOf h⟩
  · exact ⟨_, _, built_of_mem_cardOf h⟩

theorem twoPending_routed :
    route twoMatrix twoPending [topics] threeDaysOn 0 ([] : List (String × Int)) [] () =
      .ok twoRouted := by
  have hplaced : (twoPending.mapM fun card => do
      let p ← place twoMatrix [topics] () [] threeDaysOn card
      pure (card, p)) = .ok twoPlaced := by rfl
  have hremaining : placedAs .remaining twoPlaced = [] := by rfl
  unfold route
  rw [hplaced]
  -- nothing is left for the digest
  change Except.ok _ = _
  simp only [hremaining, List.filter_nil, List.mergeSort_nil]
  rfl

/-- One card is resolved automatically and one by default. -/
theorem twoPending_safe :
    twoRouted.autoResolved.length = 1 ∧ twoRouted.timeoutDefaults.length = 1 ∧
      (∀ x ∈ twoRouted.autoResolved, x.1.kind ∉ twoMatrix.nonNegotiableKinds) ∧
      ∀ card ∈ twoRouted.timeoutDefaults, card.kind ∉ twoMatrix.nonNegotiableKinds ∧
        ∀ V b, buildCard twoMatrix V b = .ok card → DefaultAllowed twoMatrix threeDaysOn b card :=
  ⟨by decide +kernel, by decide +kernel, route_safe twoPending_built twoPending_routed⟩

end CanvasOS.OptionsInbox
