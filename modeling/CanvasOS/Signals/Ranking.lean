/-
  `score-signals` and `draft-brief`: from a batch of signals to the text of the morning brief.

  1. `scoreSignal`, `applySelection`, `rankSignals` — `scoring.py`: one number for each signal, the
     batch highest first, and the mark of those that the policy lets through.
  2. `orderByRanking`, `splitHeldBack`, `renderBrief` — `draft_brief.py`: the ranking is joined back
     to the batch by `source_url`, in two places.
  3. `chosen_of_rank` — the marked items are the front of the ranking.

  Scores are floats: their arithmetic is a parameter, and so is `urlparse(…).hostname`.  A batch is
  what function 09's schema lets through: its signals have all five fields.
-/
import CanvasOS.Lib.Format
import CanvasOS.Lib.Stable

namespace CanvasOS.Signals

open Python

/-! ## `scoring.py` -/

/-- The arithmetic of scores. -/
structure Arithmetic (F : Type) where
  times : F → F → F
  one : F
  /-- `round(x, 4)` -/
  round4 : F → F

/-- One signal of function 09's batch. -/
structure BriefSignal where
  headline : String
  soWhat : String
  sourceUrl : String
  pillar : String
  confidence : String
deriving DecidableEq

/-- `ScoringPolicy`, as `_load_scoring_policy` lets it through. -/
structure ScoringPolicy (F : Type) where
  confidenceWeights : List (String × F)
  unknownConfidence : F
  pillarWeights : List (String × F)
  topN : Option Nat
  minimumScore : Option F
  /-- `selection.top_n must be at least 1` -/
  topN_pos : ∀ n ∈ topN, 1 ≤ n

/-- `MIN_SELECTED_SIGNALS`. -/
def minSelectedSignals : Nat := 1

/-- An item of `ranking`. -/
structure RankedItem (F : Type) where
  headline : String
  soWhat : String
  sourceUrl : String
  pillar : String
  confidence : String
  score : F
  position : Nat
  /-- absent in a ranking that no selection has marked -/
  selected : Option Bool
deriving DecidableEq

section Scoring

variable {F : Type} [LinearOrder F] (A : Arithmetic F) (policy : ScoringPolicy F)

/-- `_score_signal`. -/
def scoreSignal (signal : BriefSignal) : F :=
  let base := (policy.confidenceWeights.lookup signal.confidence).getD policy.unknownConfidence
  let weight := (policy.pillarWeights.lookup signal.pillar).getD A.one
  A.round4 (min (A.times base weight) A.one)

/-- The item of one signal, unmarked. -/
def rankedItem (signal : BriefSignal) (position : Nat) : RankedItem F where
  headline := signal.headline
  soWhat := signal.soWhat
  sourceUrl := signal.sourceUrl
  pillar := signal.pillar
  confidence := signal.confidence
  score := scoreSignal A policy signal
  position := position
  selected := none

/-- The sort key `(-score, position)`, compared. -/
def ranksBefore (a b : RankedItem F) : Prop :=
  b.score < a.score ∨ (a.score = b.score ∧ a.position ≤ b.position)

instance : DecidableRel (ranksBefore (F := F)) := fun _ _ => inferInstanceAs (Decidable (_ ∨ _))

/-- Whether the policy lets the item at `index` of `count` through. -/
def passes (count index : Nat) (item : RankedItem F) : Bool :=
  decide (index < (policy.topN.map (min · count)).getD count) &&
    policy.minimumScore.all fun floor => decide (floor ≤ item.score)

/-- `_apply_selection`. -/
def applySelection (ranked : List (RankedItem F)) : List (RankedItem F) :=
  let marked := ranked.mapIdx fun index item =>
    { item with selected := some (passes policy ranked.length index item) }
  if marked.any fun item => item.selected = some true then marked
  else marked.mapIdx fun index item =>
    if index < minSelectedSignals then { item with selected := some true } else item

/-- `_rank_signals`. -/
def rankSignals (signals : List BriefSignal) : List (RankedItem F) :=
  applySelection policy
    ((signals.mapIdx fun index signal => rankedItem A policy signal index).insertionSort
      ranksBefore)

end Scoring

/-! ## `draft_brief.py` -/

section Brief

variable {F α : Type} (url : α → String)

/-- `order.get(url)` of the items from `index` on: the last item with the URL stands. -/
def lastRank (u : String) : (index : Nat) → List (RankedItem F) → Option Nat
  | _, [] => none
  | index, item :: rest =>
    (lastRank u (index + 1) rest).or (if item.sourceUrl = u then some index else none)

/-- The sort key: `order.get(url, unranked)`, where `unranked` is `len(order)`. -/
def rankKey (ranking : List (RankedItem F)) (u : String) : Nat :=
  (lastRank u 0 ranking).getD (ranking.map (·.sourceUrl)).dedup.length

/-- `_order_by_ranking`. -/
def orderByRanking (signals : List α) (ranking : List (RankedItem F)) : List α :=
  if ranking = [] then signals
  else signals.insertionSort fun a b => rankKey ranking (url a) ≤ rankKey ranking (url b)

/-- A signal that `_split_held_back` keeps: some item of its URL is selected, or none has it. -/
def isKept (ranking : List (RankedItem F)) (signal : α) : Bool :=
  (ranking.any fun item => item.selected.getD true && item.sourceUrl == url signal) ||
    !(ranking.any fun item => item.sourceUrl == url signal)

/-- `_split_held_back`. -/
def splitHeldBack (signals : List α) (ranking : List (RankedItem F)) : List α × Nat :=
  if ranking = [] ∨ ¬ (ranking.any fun item => item.selected.isSome) = true then (signals, 0)
  else
    let kept := signals.filter (isKept url ranking)
    (kept, signals.length - kept.length)

/-- The signals that the brief lists, in their order, and how many are held back. -/
def briefSignals (signals : List α) (ranking : List (RankedItem F)) : List α × Nat :=
  splitHeldBack url (orderByRanking url signals ranking) ranking

/-- The line of one signal. -/
def signalLine (hostname : String → Option String) (item : BriefSignal) : String :=
  "- [" ++ item.pillar ++ "/" ++ item.confidence ++ "] " ++ item.headline ++ " — " ++ item.soWhat ++
    " (source: " ++ (hostname item.sourceUrl).getD "unknown-source" ++ ")"

/-- The line that tells how many signals are not shown. -/
def heldBackLine (heldBack : Nat) : String :=
  "_" ++ toString heldBack ++ " further signal(s) scored below the selection policy in " ++
    "functions/_shared/scoring-policy.yaml and are not shown. Every scored signal is recorded " ++
    "as an opportunity card in the Vault._"

/-- `_render_brief`: the full brief and the executive edition. -/
def renderBrief (hostname : String → Option String) (topic summary : String)
    (signals : List BriefSignal) (ranking : List (RankedItem F)) : String × String :=
  let (shown, heldBack) := briefSignals BriefSignal.sourceUrl signals ranking
  (join "\n" (["# Morning Brief — " ++ topic, "", summary, "", "## Signals"] ++
      shown.map (signalLine hostname) ++
      if heldBack = 0 then [] else ["", heldBackLine heldBack]),
    join "\n" (["# Executive Edition — " ++ topic, "", summary, "", "## Top signals"] ++
      (shown.take 3).map fun item => "- " ++ item.headline))

end Brief

/-! ## The ranking -/

section Facts

variable {F : Type} [LinearOrder F] {A : Arithmetic F} {policy : ScoringPolicy F}
  {signals : List BriefSignal} {ranked : List (RankedItem F)} {i n : Nat} {item : RankedItem F}

instance : Std.Total (ranksBefore (F := F)) where
  total a b := by
    rcases lt_trichotomy a.score b.score with hlt | heq | hgt
    · exact .inr (.inl hlt)
    · rcases Nat.le_total a.position b.position with hle | hle
      · exact .inl (.inr ⟨heq, hle⟩)
      · exact .inr (.inr ⟨heq.symm, hle⟩)
    · exact .inl (.inl hgt)

instance : IsTrans (RankedItem F) ranksBefore where
  trans a b c := by
    rintro (hab | ⟨hab, hpab⟩) (hbc | ⟨hbc, hpbc⟩)
    · exact .inl (hbc.trans hab)
    · exact .inl (hbc ▸ hab)
    · exact .inl (hab ▸ hbc)
    · exact .inr ⟨hab.trans hbc, hpab.trans hpbc⟩

/-- A test that no item passes behind one that fails it is passed by the front of the list. -/
theorem exists_front {α : Type} {l : List α} (p : α → Bool)
    (hdown : l.Pairwise fun a b => p b = true → p a = true) :
    ∃ t ≤ l.length, ∀ i a, l[i]? = some a → (p a = true ↔ i < t) := by
  induction l with
  | nil => exact ⟨0, Nat.le_refl 0, fun i a h => by simp at h⟩
  | cons b l ih =>
    obtain ⟨hb, hrest⟩ := List.pairwise_cons.1 hdown
    obtain ⟨t, ht, hfront⟩ := ih hrest
    by_cases hpb : p b = true
    · refine ⟨t + 1, Nat.succ_le_succ ht, fun i a h => ?_⟩
      cases i with
      | zero => simp_all
      | succ i =>
        rw [hfront i a (by simpa using h)]
        omega
    · refine ⟨0, Nat.zero_le _, fun i a h => ?_⟩
      cases i with
      | zero => simp_all
      | succ i =>
        have hmem : a ∈ l := List.mem_of_getElem? (by simpa using h)
        have hno : ¬ p a = true := fun hp => hpb (hb a hmem hp)
        simp [hno]

/-- The items, the first `s` of them marked as selected. -/
def markFront (s : Nat) (ranked : List (RankedItem F)) : List (RankedItem F) :=
  ranked.mapIdx fun index item => { item with selected := some (decide (index < s)) }

/-- The policy marks the front of a ranking: of a batch with signals one at least, and no more than
    `top_n`. -/
theorem applySelection_eq (policy : ScoringPolicy F)
    (hsorted : ranked.Pairwise fun a b => b.score ≤ a.score) :
    ∃ s ≤ ranked.length, (∀ n ∈ policy.topN, s ≤ n) ∧ (ranked ≠ [] → 1 ≤ s) ∧
      applySelection policy ranked = markFront s ranked := by
  have hdown : ranked.Pairwise fun a b =>
      (policy.minimumScore.all fun floor => decide (floor ≤ b.score)) = true →
        (policy.minimumScore.all fun floor => decide (floor ≤ a.score)) = true := by
    refine hsorted.imp fun {a b} hab hb => ?_
    cases hfloor : policy.minimumScore with
    | none => rfl
    | some floor =>
      rw [hfloor] at hb
      simpa using (by simpa using hb : floor ≤ b.score).trans hab
  obtain ⟨t, ht, hfront⟩ := exists_front _ hdown
  -- what the two cuts leave
  have hmarked : (ranked.mapIdx fun index item =>
        { item with selected := some (passes policy ranked.length index item) }) =
      markFront (min ((policy.topN.map (min · ranked.length)).getD ranked.length) t) ranked := by
    refine List.ext_getElem? fun i => ?_
    rw [markFront, List.getElem?_mapIdx, List.getElem?_mapIdx]
    cases hi : ranked[i]? with
    | none => rfl
    | some item =>
      have hbool : (policy.minimumScore.all fun floor => decide (floor ≤ item.score)) =
          decide (i < t) := by
        rw [Bool.eq_iff_iff, hfront i item hi, decide_eq_true_iff]
      simp only [Option.map_some, passes, hbool, Nat.lt_min, Bool.decide_and]
  have hkeep : (policy.topN.map (min · ranked.length)).getD ranked.length ≤ ranked.length := by
    cases policy.topN with
    | none => exact Nat.le_refl _
    | some n => exact Nat.min_le_right _ _
  have htop : ∀ n ∈ policy.topN,
      (policy.topN.map (min · ranked.length)).getD ranked.length ≤ n := by
    intro n hn
    rw [Option.mem_def.1 hn]
    exact Nat.min_le_left _ _
  generalize (policy.topN.map (min · ranked.length)).getD ranked.length = keep
    at hmarked hkeep htop
  unfold applySelection
  simp only [hmarked]
  split
  · next hany =>
    refine ⟨min keep t, by omega, fun n hn => ?_, fun _ => ?_, rfl⟩
    · have hle := htop n hn
      omega
    · obtain ⟨item, hitem, hsel⟩ := List.any_eq_true.1 hany
      obtain ⟨i, hi, rfl⟩ := List.mem_mapIdx.1 hitem
      have hlt : i < min keep t := by simpa using hsel
      omega
  · next hany =>
    -- the floor emptied the batch, or the batch is empty
    have hzero : ranked ≠ [] → min keep t = 0 := by
      intro hne
      by_contra hpos
      obtain ⟨a, rest, rfl⟩ := List.exists_cons_of_ne_nil hne
      refine hany (List.any_eq_true.2 ⟨_, List.mem_mapIdx.2 ⟨0, by simp, rfl⟩, ?_⟩)
      simp only [decide_eq_true_eq, Option.some.injEq]
      omega
    refine ⟨min minSelectedSignals ranked.length, Nat.min_le_right _ _, fun n hn => ?_,
      fun hne => ?_, ?_⟩
    · have hone := policy.topN_pos n hn
      unfold minSelectedSignals
      omega
    · have hlength := List.length_pos_iff.2 hne
      unfold minSelectedSignals
      omega
    · refine List.ext_getElem? fun i => ?_
      rw [markFront, markFront, List.getElem?_mapIdx, List.getElem?_mapIdx, List.getElem?_mapIdx]
      cases hi : ranked[i]? with
      | none => rfl
      | some item =>
        have hlt : i < ranked.length := (List.getElem?_eq_some_iff.1 hi).1
        have hnone : min keep t = 0 := hzero (by rintro rfl; simp at hi)
        by_cases hfirst : i < minSelectedSignals
        · simp [hfirst, hlt]
        · simp [hfirst, hnone]

/-- The unmarked ranking of a batch. -/
def ordered (A : Arithmetic F) (policy : ScoringPolicy F) (signals : List BriefSignal) :
    List (RankedItem F) :=
  (signals.mapIdx fun index signal => rankedItem A policy signal index).insertionSort ranksBefore

theorem ordered_perm (A : Arithmetic F) (policy : ScoringPolicy F) (signals : List BriefSignal) :
    (ordered A policy signals).Perm
      (signals.mapIdx fun index signal => rankedItem A policy signal index) :=
  List.perm_insertionSort _ _

theorem ordered_length (A : Arithmetic F) (policy : ScoringPolicy F) (signals : List BriefSignal) :
    (ordered A policy signals).length = signals.length := by
  simpa using (ordered_perm A policy signals).length_eq

/-- Every item is the item of the signal at its position. -/
theorem mem_ordered (h : item ∈ ordered A policy signals) :
    ∃ signal, signals[item.position]? = some signal ∧
      item = rankedItem A policy signal item.position := by
  obtain ⟨i, hi, rfl⟩ := List.mem_mapIdx.1 ((ordered_perm A policy signals).mem_iff.1 h)
  exact ⟨signals[i], List.getElem?_eq_getElem hi, rfl⟩

/-- Every signal has one item. -/
theorem ordered_positions : ((ordered A policy signals).map (·.position)).Perm
    (List.range signals.length) := by
  have h := (ordered_perm A policy signals).map (·.position)
  have hmap : (signals.mapIdx fun index signal => rankedItem A policy signal index).map
      (·.position) = List.range signals.length := by
    refine List.ext_getElem? fun i => ?_
    rw [List.getElem?_map, List.getElem?_mapIdx]
    by_cases hi : i < signals.length
    · rw [List.getElem?_eq_getElem hi, List.getElem?_range hi]
      rfl
    · rw [List.getElem?_eq_none (by omega), List.getElem?_eq_none (by simp; omega)]
      rfl
  rwa [hmap] at h

/-- Scores descend, and ties keep the order of the batch. -/
theorem ordered_sorted : (ordered A policy signals).Pairwise fun a b =>
    b.score < a.score ∨ (a.score = b.score ∧ a.position < b.position) := by
  have hnodup : (ordered A policy signals).Pairwise fun a b => a.position ≠ b.position :=
    List.pairwise_map.1 (ordered_positions.nodup_iff.2 List.nodup_range)
  refine ((List.pairwise_insertionSort ranksBefore _).and hnodup).imp fun {a b} h => ?_
  rcases h with ⟨hlt | ⟨heq, hle⟩, hne⟩
  · exact .inl hlt
  · exact .inr ⟨heq, Nat.lt_of_le_of_ne hle hne⟩

/-- `_rank_signals` marks the front of that ranking. -/
theorem rankSignals_eq (A : Arithmetic F) (policy : ScoringPolicy F) (signals : List BriefSignal) :
    ∃ s ≤ signals.length, (∀ n ∈ policy.topN, s ≤ n) ∧ (signals ≠ [] → 1 ≤ s) ∧
      rankSignals A policy signals = markFront s (ordered A policy signals) := by
  have hdown : (ordered A policy signals).Pairwise fun a b => b.score ≤ a.score :=
    ordered_sorted.imp fun {a b} h => h.elim le_of_lt fun h => h.1.ge
  obtain ⟨s, hs, htop, hpos, heq⟩ := applySelection_eq policy hdown
  rw [ordered_length] at hs
  refine ⟨s, hs, htop, fun hne => hpos fun hnil => hne ?_, heq⟩
  have hlength := ordered_length A policy signals
  rw [hnil] at hlength
  exact List.length_eq_zero_iff.1 hlength.symm

end Facts

end CanvasOS.Signals
