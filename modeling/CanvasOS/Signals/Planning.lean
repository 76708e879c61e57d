/-
  `weekly_plan.py`: the pillar that `plan-content-monday` picks for the week.

  1. `scoredFromCards`, `recentScoredSignals` — the evidence: the recorded cards of the last week on
     the page of the newest hundred rows, or else the items of the scan batches there.
  2. `topPillar`, `planContentMonday` — the pillar with the highest total, among all five.
  3. `FollowsEvidence` — the pillar is the one that the evidence of the week names.
  4. `follows_iff` — it is, exactly where the leader of the week also leads on the page against the
     pillars that nothing names.

  Scores are floats, and their arithmetic is a parameter; `isocalendar` is one as well.
-/
import CanvasOS.Lib.Best
import CanvasOS.Review.Checks
import CanvasOS.Signals.Ranking
import CanvasOS.Signals.Table
import Mathlib.Data.List.MinMax
import Mathlib.Data.Prod.Lex

namespace CanvasOS.Signals

open Python Review Best

/-- `CONTENT_PILLARS`. -/
def contentPillars : List String :=
  ["Finance-grade trust", "Consolidation at scale", "Fabric-native", "Productised speed",
    "Beyond the dashboard"]

/-- `RECENT_SIGNAL_SCAN_LIMIT`. -/
def recentSignalScanLimit : Nat := 100

/-- `RECENT_SIGNAL_LOOKBACK_DAYS`. -/
def recentSignalLookbackDays : Int := 7

/-- `BRIEF_SIGNAL_COUNT`. -/
def briefSignalCount : Nat := 5

/-- `SCAN_BATCH_TYPES`. -/
def scanBatchTypes : List String := ["market_signal_batch", "scanner_card_batch"]

/-! ## The two tables -/

/-- A row of `opportunity_cards`.  A time is `none` where `_parse_iso_timestamp` reads none. -/
structure OpportunityCard (F : Type) where
  title : String
  soWhat : Option String
  sourceUrl : Option String
  pillar : Option String
  confidence : Option String
  score : Option F
  createdAt : Option Time

/-- A row of `signals` with what the plan reads of its payload: the two lists that `_batch_items`
    looks for, and `str(payload.get("topic", ""))`. -/
structure ScanRow where
  signalType : String
  signals : Option (List Object)
  cards : Option (List Object)
  topic : String
  receivedAt : Option Time

/-- The table that an item was read from.  No dictionary of the source records it. -/
inductive Origin where
  | card
  | batch
deriving DecidableEq

/-- A scored item. -/
structure ScoredItem (F : Type) where
  headline : String
  soWhat : String
  sourceUrl : String
  pillar : String
  confidence : String
  score : F
  topic : String
  origin : Origin
deriving DecidableEq

/-- `not (stamp is not None and stamp < cutoff)`: a row without a readable time counts as recent. -/
def inWindow (cutoff : Time) (stamp : Option Time) : Bool := stamp.all fun t => decide (cutoff ≤ t)

/-- `_batch_items`. -/
def ScanRow.items (row : ScanRow) : List Object := (row.signals.or row.cards).getD []

/-- `str(item.get(key, ""))`. -/
def textOf (item : Object) (key : String) : String := pyStr ((Json.lookup item key).getD (.str ""))

/-- The arithmetic of scores, sums included. -/
structure PlanArithmetic (F : Type) extends Arithmetic F where
  plus : F → F → F
  zero : F

/-- The plan of a week, as the handler's result records it. -/
structure WeekPlan (F : Type) where
  pillar : String
  weekNumber : Nat
  pillarSource : String
  scoredSignalCount : Nat
  topSignals : List (ScoredItem F)

section Plan

variable {F : Type} [LinearOrder F] (A : PlanArithmetic F) (policy : ScoringPolicy F)

/-! ## The evidence -/

/-- A card that names a pillar, in the window. -/
def cardItem (cutoff : Time) (card : OpportunityCard F) : Option (ScoredItem F) :=
  let pillar := stripped (card.pillar.getD "")
  if pillar ∈ contentPillars ∧ inWindow cutoff card.createdAt = true then
    some {
      headline := card.title
      soWhat := card.soWhat.getD ""
      sourceUrl := card.sourceUrl.getD ""
      pillar := pillar
      confidence := card.confidence.getD ""
      score := card.score.getD A.zero
      topic := ""
      origin := .card }
  else none

/-- An item of a scan batch that names a pillar. -/
def batchItem (topic : String) (item : Object) : Option (ScoredItem F) :=
  let pillar := stripped (textOf item "pillar")
  if pillar ∈ contentPillars then
    some {
      headline := textOf item "headline"
      soWhat := textOf item "so_what"
      sourceUrl := textOf item "source_url"
      pillar := pillar
      confidence := textOf item "confidence"
      score := scoreSignal A.toArithmetic policy ⟨textOf item "headline", textOf item "so_what",
        textOf item "source_url", textOf item "pillar", textOf item "confidence"⟩
      topic := topic
      origin := .batch }
  else none

/-- The items of one row. -/
def batchItems (cutoff : Time) (row : ScanRow) : List (ScoredItem F) :=
  if row.signalType ∈ scanBatchTypes ∧ inWindow cutoff row.receivedAt = true then
    row.items.filterMap (batchItem A policy row.topic)
  else []

/-- `scored.sort(key=lambda item: -item["score"])`. -/
def sortScored (scored : List (ScoredItem F)) : List (ScoredItem F) :=
  scored.insertionSort fun a b => b.score ≤ a.score

/-- `_scored_from_cards`; `none` is a Vault that does not answer. -/
def scoredFromCards (cutoff : Time) (cards : Option (List (OpportunityCard F))) :
    List (ScoredItem F) :=
  match cards with
  | none => []
  | some cards => sortScored (cards.filterMap (cardItem A cutoff))

/-- `_recent_scored_signals`. -/
def recentScoredSignals (now : Time) (cards : Option (List (OpportunityCard F)))
    (rows : Option (List ScanRow)) : List (ScoredItem F) :=
  let cutoff := now - recentSignalLookbackDays * day
  let fromCards := scoredFromCards A cutoff cards
  if fromCards ≠ [] then fromCards
  else match rows with
    | none => []
    | some rows => sortScored (rows.flatMap (batchItems A policy cutoff))

/-! ## The pillar -/

/-- `totals.get(pillar, 0.0)`. -/
def total (scored : List (ScoredItem F)) (pillar : String) : F :=
  (scored.filter (·.pillar = pillar)).foldl (fun sum item => A.plus sum item.score) A.zero

/-- The key of `max`: `(totals.get(pillar, 0.0), -CONTENT_PILLARS.index(pillar))`. -/
def pillarKey (scored : List (ScoredItem F)) (pillar : String) : F ×ₗ Int :=
  toLex (total A scored pillar, -(contentPillars.idxOf pillar : Int))

/-- Keys compare as tuples do. -/
abbrev pillarOrder (F : Type) [LinearOrder F] : LinearOrder (F ×ₗ Int) :=
  @Prod.Lex.instLinearOrder F Int _ Int.instLinearOrder

/-- `_top_pillar`. -/
def topPillar (scored : List (ScoredItem F)) : Option String :=
  if scored = [] then none else
    @List.argmax _ _ (pillarOrder F).toPreorder (pillarOrder F).toDecidableLT (pillarKey A scored)
      contentPillars

/-- `_rotation_pillar`. -/
def rotationPillar (week : Nat) : String := contentPillars.getD (week % contentPillars.length) ""

/-- `plan_content_monday_handler`. -/
def planContentMonday (isoWeek : Time → Nat) (now : Time)
    (cards : Option (List (OpportunityCard F))) (rows : Option (List ScanRow)) : WeekPlan F :=
  let scored := recentScoredSignals A policy now cards rows
  let evidencePillar := topPillar A scored
  let pillar := evidencePillar.getD (rotationPillar (isoWeek now))
  { pillar := pillar
    weekNumber := isoWeek now
    pillarSource := if evidencePillar.isSome then "signals" else "rotation"
    scoredSignalCount := scored.length
    topSignals := (scored.filter (·.pillar = pillar)).take briefSignalCount }

/-- Monday's run: the plan over the newest rows of the two tables. -/
def mondayPlan (isoWeek : Time → Nat) (now : Time) (cards : List (OpportunityCard F))
    (rows : List ScanRow) : WeekPlan F :=
  planContentMonday A policy isoWeek now (some (cards.take recentSignalScanLimit))
    (some (rows.take recentSignalScanLimit))

/-! ## The purpose -/

/-- The evidence of a window: its cards that name a pillar, or else the items of its batches. -/
def evidence (cutoff : Time) (cards : List (OpportunityCard F)) (rows : List ScanRow) :
    List (ScoredItem F) :=
  if cards.filterMap (cardItem A cutoff) ≠ [] then cards.filterMap (cardItem A cutoff)
  else rows.flatMap (batchItems A policy cutoff)

/-- The pillar wins among the candidates: no other has a higher total, and of those with the same
    total it is the first in CONTENT_PILLARS order. -/
def Wins (candidates : List String) (scored : List (ScoredItem F)) (pillar : String) : Prop :=
  pillar ∈ candidates ∧ ∀ other ∈ candidates, total A scored other ≤ total A scored pillar ∧
    (total A scored other = total A scored pillar →
      contentPillars.idxOf pillar ≤ contentPillars.idxOf other)

/-- The plan follows what the evidence names. -/
structure FollowsEvidence (items : List (ScoredItem F)) (plan : WeekPlan F) : Prop where
  source : plan.pillarSource = "signals" ↔ items ≠ []
  leads : items ≠ [] → Wins A (items.map (·.pillar)) (sortScored items) plan.pillar
  shows : items ≠ [] → plan.topSignals ≠ [] ∧ BestOf briefSignalCount (·.score) plan.topSignals
    (items.filter (·.pillar = plan.pillar))

/-- The evidence that the page does not reach. -/
def offPage (cutoff : Time) (cards : List (OpportunityCard F)) (rows : List ScanRow) :
    List (ScoredItem F) :=
  if cards.filterMap (cardItem A cutoff) ≠ [] then
    (cards.drop recentSignalScanLimit).filterMap (cardItem A cutoff)
  else (rows.drop recentSignalScanLimit).flatMap (batchItems A policy cutoff)

/-- The evidence on the page. -/
def onPage (cutoff : Time) (cards : List (OpportunityCard F)) (rows : List ScanRow) :
    List (ScoredItem F) :=
  evidence A policy cutoff (cards.take recentSignalScanLimit) (rows.take recentSignalScanLimit)

/-- The leader of the week leads on the page as well. -/
structure LeaderSeen (cutoff : Time) (cards : List (OpportunityCard F)) (rows : List ScanRow) :
    Prop where
  /-- some card of the window is on the page, if there is one -/
  cardSeen : cards.filterMap (cardItem A cutoff) ≠ [] →
    (cards.take recentSignalScanLimit).filterMap (cardItem A cutoff) ≠ []
  /-- of the pillars that the week names, one wins; on the page it wins among all five, where a
      pillar without evidence counts zero; and no item that the page does not reach is among its
      best -/
  leader : ∃ pillar,
    Wins A ((evidence A policy cutoff cards rows).map (·.pillar))
      (sortScored (evidence A policy cutoff cards rows)) pillar ∧
    Wins A contentPillars (sortScored (onPage A policy cutoff cards rows)) pillar ∧
    ∀ item ∈ offPage A policy cutoff cards rows, item.pillar = pillar →
      briefSignalCount ≤ (onPage A policy cutoff cards rows).countP fun other =>
        other.pillar = pillar ∧ item.score ≤ other.score

/-! ## Sorted evidence -/

variable {A policy} {cutoff now : Time} {cards : List (OpportunityCard F)} {rows : List ScanRow}
  {scored items : List (ScoredItem F)} {item : ScoredItem F} {pillar other : String}
  {isoWeek : Time → Nat}

theorem perm_sortScored (scored : List (ScoredItem F)) : (sortScored scored).Perm scored :=
  List.perm_insertionSort _ scored

theorem sorted_sortScored (scored : List (ScoredItem F)) :
    (sortScored scored).Pairwise fun a b => b.score ≤ a.score := by
  have htotal : Std.Total fun a b : ScoredItem F => b.score ≤ a.score :=
    ⟨fun a b => le_total b.score a.score⟩
  have htrans : IsTrans (ScoredItem F) fun a b => b.score ≤ a.score :=
    ⟨fun _ _ _ hab hbc => hbc.trans hab⟩
  exact List.pairwise_insertionSort _ scored

theorem sortScored_eq_nil_iff : sortScored scored = [] ↔ scored = [] := by
  rw [← List.length_eq_zero_iff, (perm_sortScored scored).length_eq, List.length_eq_zero_iff]

/-- What the handler scores is the evidence of the rows it was answered, highest first. -/
theorem recentScoredSignals_eq (A : PlanArithmetic F) (policy : ScoringPolicy F) (now : Time)
    (cards : List (OpportunityCard F)) (rows : List ScanRow) :
    recentScoredSignals A policy now (some cards) (some rows) =
      sortScored (evidence A policy (now - recentSignalLookbackDays * day) cards rows) := by
  unfold recentScoredSignals evidence scoredFromCards
  dsimp only
  by_cases hcards : cards.filterMap (cardItem A (now - recentSignalLookbackDays * day)) = []
  · rw [hcards, if_neg (not_not_intro rfl)]
    exact if_neg (not_not_intro (sortScored_eq_nil_iff.2 rfl))
  · rw [if_pos hcards, if_pos fun hnil => hcards (sortScored_eq_nil_iff.1 hnil)]

/-! ## The pillar that wins -/

theorem pillarKey_le_iff : pillarKey A scored other ≤ pillarKey A scored pillar ↔
    total A scored other ≤ total A scored pillar ∧
      (total A scored other = total A scored pillar →
        contentPillars.idxOf pillar ≤ contentPillars.idxOf other) := by
  unfold pillarKey
  rw [Prod.Lex.toLex_le_toLex]
  dsimp only
  constructor
  · rintro (hlt | ⟨heq, hindex⟩)
    · exact ⟨hlt.le, fun heq => absurd heq hlt.ne⟩
    · exact ⟨heq.le, fun _ => by omega⟩
  · rintro ⟨hle, hindex⟩
    rcases hle.lt_or_eq with hlt | heq
    · exact .inl hlt
    · exact .inr ⟨heq, by have := hindex heq; omega⟩

/-- `max` over CONTENT_PILLARS finds the pillar that wins among all five. -/
theorem topPillar_eq_some_iff : topPillar A scored = some pillar ↔
    scored ≠ [] ∧ Wins A contentPillars scored pillar := by
  unfold topPillar
  by_cases hnil : scored = []
  · simp [hnil]
  · rw [if_neg hnil, ← Option.mem_def, List.mem_argmax_iff]
    constructor
    · rintro ⟨hmem, hle, -⟩
      exact ⟨hnil, hmem, fun other hother => pillarKey_le_iff.1 (hle other hother)⟩
    · rintro ⟨-, hmem, hbest⟩
      refine ⟨hmem, fun other hother => pillarKey_le_iff.2 (hbest other hother),
        fun other hother hle => ?_⟩
      obtain ⟨hle, hindex⟩ := pillarKey_le_iff.1 hle
      exact (hbest other hother).2 (le_antisymm (hbest other hother).1 hle)

theorem topPillar_isSome (h : scored ≠ []) : ∃ pillar, topPillar A scored = some pillar := by
  refine Option.ne_none_iff_exists'.1 fun hnone => ?_
  rw [topPillar, if_neg h, List.argmax_eq_none] at hnone
  cases hnone

/-! ## The window and the page -/

omit [LinearOrder F] in
theorem origin_cardItem (h : item ∈ cards.filterMap (cardItem A cutoff)) : item.origin = .card := by
  obtain ⟨card, -, hcard⟩ := List.mem_filterMap.1 h
  unfold cardItem at hcard
  dsimp only at hcard
  split at hcard
  · obtain rfl := Option.some.inj hcard
    rfl
  · cases hcard

theorem origin_batchItem (h : item ∈ rows.flatMap (batchItems A policy cutoff)) :
    item.origin = .batch := by
  obtain ⟨row, -, hrow⟩ := List.mem_flatMap.1 h
  unfold batchItems at hrow
  split at hrow
  · obtain ⟨raw, -, hraw⟩ := List.mem_filterMap.1 hrow
    unfold batchItem at hraw
    dsimp only at hraw
    split at hraw
    · obtain rfl := Option.some.inj hraw
      rfl
    · cases hraw
  · cases hrow

omit [LinearOrder F] in
theorem filterMap_take_append_drop (n : Nat) (cards : List (OpportunityCard F)) :
    (cards.take n).filterMap (cardItem A cutoff) ++ (cards.drop n).filterMap (cardItem A cutoff) =
      cards.filterMap (cardItem A cutoff) := by
  rw [← List.filterMap_append, List.take_append_drop]

theorem flatMap_take_append_drop (n : Nat) (rows : List ScanRow) :
    (rows.take n).flatMap (batchItems A policy cutoff) ++
      (rows.drop n).flatMap (batchItems A policy cutoff) =
      rows.flatMap (batchItems A policy cutoff) := by
  rw [← List.flatMap_append, List.take_append_drop]

/-- The evidence of the week is what the page shows and what it does not reach. -/
theorem evidence_eq (hseen : cards.filterMap (cardItem A cutoff) ≠ [] →
    (cards.take recentSignalScanLimit).filterMap (cardItem A cutoff) ≠ []) :
    evidence A policy cutoff cards rows =
      onPage A policy cutoff cards rows ++ offPage A policy cutoff cards rows := by
  have hcards := @filterMap_take_append_drop F A cutoff recentSignalScanLimit cards
  unfold onPage offPage evidence
  by_cases hnone : cards.filterMap (cardItem A cutoff) = []
  · have htake : (cards.take recentSignalScanLimit).filterMap (cardItem A cutoff) = [] := by
      rw [hnone] at hcards
      exact (List.append_eq_nil_iff.1 hcards).1
    simp only [hnone, htake, ne_eq, not_true_eq_false, if_false]
    exact (flatMap_take_append_drop _ _).symm
  · rw [if_pos hnone, if_pos hnone, if_pos (hseen hnone)]
    exact hcards.symm

/-- A week without evidence shows none on the page. -/
theorem onPage_eq_nil (h : evidence A policy cutoff cards rows = []) :
    onPage A policy cutoff cards rows = [] := by
  have hnone : cards.filterMap (cardItem A cutoff) = [] := by
    by_contra hsome
    rw [evidence, if_pos hsome] at h
    exact hsome h
  rw [evidence_eq fun hsome => absurd hnone hsome] at h
  exact (List.append_eq_nil_iff.1 h).1

/-! ## The plan -/

/-- The plan of a Monday whose page has evidence. -/
theorem mondayPlan_of_top {cutoff : Time} (hcutoff : cutoff = now - recentSignalLookbackDays * day)
    (htop : topPillar A (sortScored (onPage A policy cutoff cards rows)) = some pillar) :
    mondayPlan A policy isoWeek now cards rows =
      { pillar := pillar
        weekNumber := isoWeek now
        pillarSource := "signals"
        scoredSignalCount := (sortScored (onPage A policy cutoff cards rows)).length
        topSignals := ((sortScored (onPage A policy cutoff cards rows)).filter
          (·.pillar = pillar)).take briefSignalCount } := by
  subst hcutoff
  unfold mondayPlan planContentMonday
  dsimp only
  rw [recentScoredSignals_eq]
  unfold onPage at htop ⊢
  rw [htop]
  rfl

/-- The plan of a Monday whose page has none. -/
theorem mondayPlan_of_none {cutoff : Time} (hcutoff : cutoff = now - recentSignalLookbackDays * day)
    (hnone : onPage A policy cutoff cards rows = []) :
    (mondayPlan A policy isoWeek now cards rows).pillarSource = "rotation" := by
  subst hcutoff
  unfold onPage at hnone
  unfold mondayPlan planContentMonday
  dsimp only
  rw [recentScoredSignals_eq, hnone]
  rfl

/-- The best items of a pillar on the page are its best of the week exactly if none of its items
    that the page does not reach belongs there. -/
theorem bestOf_page_iff {page off : List (ScoredItem F)} :
    BestOf briefSignalCount (·.score)
        (((sortScored page).filter (·.pillar = pillar)).take briefSignalCount)
        ((page ++ off).filter (·.pillar = pillar)) ↔
      ∀ item ∈ off, item.pillar = pillar →
        briefSignalCount ≤ page.countP fun other =>
          other.pillar = pillar ∧ item.score ≤ other.score := by
  rw [List.filter_append, bestOf_take_iff
    ((sorted_sortScored page).filter _) ((perm_sortScored page).filter _)]
  constructor
  · intro h item hitem hpillar
    have hcount := h item (List.mem_filter.2 ⟨hitem, decide_eq_true hpillar⟩)
    rw [List.countP_filter] at hcount
    refine hcount.trans_eq (List.countP_congr fun other _ => ?_)
    simp [and_comm]
  · intro h item hitem
    obtain ⟨hitem, hpillar⟩ := List.mem_filter.1 hitem
    rw [List.countP_filter]
    refine (h item hitem (of_decide_eq_true hpillar)).trans_eq (List.countP_congr fun other _ => ?_)
    simp [and_comm]

end Plan

/-! ## A silent card and a full page -/

/-- Scores in hundredths. -/
def hundredths : PlanArithmetic Int where
  times a b := a * b / 100
  one := 100
  round4 a := a
  plus a b := a + b
  zero := 0

/-- The shipped weights. -/
def shippedPolicy : ScoringPolicy Int where
  confidenceWeights := [("high", 80), ("medium", 50), ("low", 25)]
  unknownConfidence := 10
  pillarWeights := []
  topN := none
  minimumScore := none
  topN_pos := by simp

/-- A card of today. -/
def cardOf (pillar : String) (score : Option Int) : OpportunityCard Int :=
  ⟨"A headline of the week", none, none, some pillar, none, score, some 0⟩

/-- One card, recorded without a score. -/
def unscored : List (OpportunityCard Int) := [cardOf "Fabric-native" none]

/-- A hundred weak cards, and twenty strong ones before them. -/
def crowdedWeek : List (OpportunityCard Int) :=
  List.replicate 100 (cardOf "Fabric-native" (some 10)) ++
    List.replicate 20 (cardOf "Productised speed" (some 80))

end CanvasOS.Signals
