/-
  Which functions are to be demoted (`options_inbox/earn_in.py`).

  1. `evaluateDemotion` — the triggers of `earn-in-rules.yaml` that fire.  One counter and one floor
     are read for every trigger, whichever of the two is there.
  2. `Due` — what a trigger asks for: its metric beyond the threshold, and every floor met by the
     counter it is a floor of.
  3. `fires_iff_due` — the two agree exactly where neither counter stands in for the other
     (`FloorsKeptApart`).

  Metrics and thresholds are any linear order.
-/
import CanvasOS.Lib.Python
import Mathlib.Order.Defs.LinearOrder
import Mathlib.Order.Lattice
import Mathlib.Tactic.MkIffOfInductiveProp

namespace CanvasOS.OptionsInbox

variable {ν : Type}

/-! ## The rules -/

/-- The actions of `demote`. -/
inductive DemotionAction where
  | pauseFunction
  | dropToLevel1
  | dropOneLevelAndPauseUntilCard
  | dropOneLevel
deriving DecidableEq

namespace DemotionAction

def text : DemotionAction → String
  | pauseFunction => "pause_function"
  | dropToLevel1 => "drop_to_level_1"
  | dropOneLevelAndPauseUntilCard => "drop_one_level_and_pause_until_card"
  | dropOneLevel => "drop_one_level"

/-- The order of the docstring of `evaluate_demotion`. -/
def severity : DemotionAction → Nat
  | pauseFunction => 3
  | dropToLevel1 => 2
  | dropOneLevelAndPauseUntilCard => 1
  | dropOneLevel => 0

end DemotionAction

/-- One entry of `demote`. -/
structure DemoteRule (ν : Type) where
  trigger : String
  action : DemotionAction
  threshold : Option ν
  minRuns : Option Nat
  minDecisions : Option Nat
deriving DecidableEq

/-- `signals`.  A value that is `None` is not there. -/
structure Signals (ν : Type) where
  materialFailure : Bool
  runCount : Option Nat
  decisionCount : Option Nat
  metrics : List (String × ν)

/-- `signals.get(name)`, of a metric. -/
def Signals.value (signals : Signals ν) (name : String) : Option ν :=
  (signals.metrics.find? fun kv => kv.1 == name).map Prod.snd

structure DemotionResult where
  trigger : String
  action : DemotionAction
deriving DecidableEq

/-- What a rule that fires leaves. -/
def DemoteRule.result (rule : DemoteRule ν) : DemotionResult := ⟨rule.trigger, rule.action⟩

/-! ## `evaluate_demotion` -/

/-- `a or b`, of numbers that may be missing. -/
def orNumber : Option Nat → Option Nat → Option Nat
  | none, b | some 0, b => b
  | a, _ => a

/-- `text[: -len(suffix)]`, where the text ends so. -/
def withoutSuffix (suffix text : String) : Option String :=
  if suffix.toList.isSuffixOf text.toList then
    some (String.ofList (text.toList.take (text.length - suffix.length)))
  else none

/-- The metric of a trigger, and whether it is to exceed the threshold. -/
def metricOf (trigger : String) : Option (String × Bool) :=
  match withoutSuffix "_gt" trigger with
  | some name => some (name, true)
  | none => (withoutSuffix "_lt" trigger).map fun name => (name, false)

/-- `min_observations is not None and (observed is None or observed < min_observations)` -/
def tooFew : (minObservations observed : Option Nat) → Bool
  | none, _ => false
  | some _, none => true
  | some m, some n => n < m

section Evaluate

variable [LinearOrder ν]

/-- One rule of the loop. -/
def fire (signals : Signals ν) (rule : DemoteRule ν) : Option DemotionResult :=
  if rule.trigger = "material_failure" then
    if signals.materialFailure then some rule.result else none
  else
    match rule.threshold with
    | none => none
    | some threshold =>
      match metricOf rule.trigger with
      | none => none
      | some (name, exceeds) =>
        if tooFew (orNumber rule.minRuns rule.minDecisions)
            (orNumber signals.runCount signals.decisionCount) then none
        else
          match signals.value name with
          | none => none
          | some value =>
            if (exceeds = true ∧ threshold < value) ∨ (exceeds = false ∧ value < threshold) then
              some rule.result
            else none

/-- `evaluate_demotion` -/
def evaluateDemotion (signals : Signals ν) (rules : List (DemoteRule ν)) : List DemotionResult :=
  rules.filterMap (fire signals)

end Evaluate

/-! ## What a trigger asks for -/

/-- A trigger of a shape that is recognised. -/
def DemoteRule.thresholded (rule : DemoteRule ν) : Bool :=
  rule.trigger != "material_failure" && rule.threshold.isSome && (metricOf rule.trigger).isSome

/-- The metric of the rule is there and beyond the threshold. -/
def beyond [LinearOrder ν] (signals : Signals ν) (rule : DemoteRule ν) : Bool :=
  match rule.threshold, metricOf rule.trigger with
  | some threshold, some (name, exceeds) =>
    (signals.value name).any fun value =>
      if exceeds then decide (threshold < value) else decide (value < threshold)
  | _, _ => false

/-- Every floor is met by its own counter.  A counter that is not there has counted nothing. -/
@[mk_iff]
structure FloorsMet (signals : Signals ν) (rule : DemoteRule ν) : Prop where
  runs : ∀ m, rule.minRuns = some m → m ≤ signals.runCount.getD 0
  decisions : ∀ m, rule.minDecisions = some m → m ≤ signals.decisionCount.getD 0

/-- The rule is to fire. -/
def Due [LinearOrder ν] (signals : Signals ν) (rule : DemoteRule ν) : Prop :=
  beyond signals rule = true ∧ FloorsMet signals rule

/-- Neither counter decides about a floor of the other. -/
@[mk_iff]
structure FloorsKeptApart (signals : Signals ν) (rule : DemoteRule ν) : Prop where
  /-- where no run was counted, the decisions do not make up for the runs -/
  runs : ∀ m, rule.minRuns = some m → m ≠ 0 → signals.runCount.getD 0 = 0 →
    signals.decisionCount.getD 0 < m
  /-- runs enough leave no floor of decisions unmet -/
  both : ∀ m k, rule.minRuns = some m → m ≠ 0 → rule.minDecisions = some k →
    m ≤ signals.runCount.getD 0 → k ≤ signals.decisionCount.getD 0
  /-- where runs were counted, they are on the same side of the floor as the decisions -/
  decisions : ∀ k, rule.minRuns.getD 0 = 0 → rule.minDecisions = some k →
    signals.runCount.getD 0 ≠ 0 →
    (k ≤ signals.runCount.getD 0 ↔ k ≤ signals.decisionCount.getD 0)
  /-- a floor of zero has something to be compared with -/
  zero : rule.minRuns.getD 0 = 0 → rule.minDecisions = some 0 →
    signals.runCount.getD 0 ≠ 0 ∨ signals.decisionCount.isSome = true

/-- The floor that is read is reached by the counter that is read, where no counter stands in for
    the other, exactly if every floor is met by its own. -/
theorem floors_iff (signals : Signals ν) (rule : DemoteRule ν) :
    (tooFew (orNumber rule.minRuns rule.minDecisions)
        (orNumber signals.runCount signals.decisionCount) = false ↔ FloorsMet signals rule) ↔
      FloorsKeptApart signals rule := by
  obtain ⟨trigger, action, threshold, minRuns, minDecisions⟩ := rule
  obtain ⟨materialFailure, runCount, decisionCount, metrics⟩ := signals
  rw [floorsMet_iff, floorsKeptApart_iff]
  -- which floor is read, and which counter
  rcases minRuns with _ | _ | m <;> rcases minDecisions with _ | _ | k <;>
    rcases runCount with _ | _ | r <;> rcases decisionCount with _ | d <;>
    simp [tooFew, orNumber]

section Fires

variable [LinearOrder ν] {signals : Signals ν} {rule : DemoteRule ν}

/-- A rule that fires leaves its trigger and its action. -/
theorem eq_of_fire {fired : DemotionResult} (h : fire signals rule = some fired) :
    fired = rule.result := by
  unfold fire at h
  repeat' split at h
  all_goals first
    | exact (Option.some.inj h).symm
    | cases h

/-- A thresholded rule fires when its metric is beyond and the floor that is read is reached. -/
theorem fires_iff (h : rule.thresholded = true) :
    (fire signals rule).isSome = true ↔
      beyond signals rule = true ∧
        tooFew (orNumber rule.minRuns rule.minDecisions)
          (orNumber signals.runCount signals.decisionCount) = false := by
  unfold DemoteRule.thresholded at h
  simp only [Bool.and_eq_true, bne_iff_ne] at h
  obtain ⟨⟨htrigger, hthreshold⟩, hmetric⟩ := h
  obtain ⟨threshold, hthreshold⟩ := Option.isSome_iff_exists.1 hthreshold
  obtain ⟨⟨name, exceeds⟩, hmetric⟩ := Option.isSome_iff_exists.1 hmetric
  unfold fire beyond
  rw [if_neg htrigger, hthreshold, hmetric]
  cases tooFew (orNumber rule.minRuns rule.minDecisions)
      (orNumber signals.runCount signals.decisionCount) with
  | true => simp
  | false =>
    cases hvalue : signals.value name with
    | none => simp [hvalue]
    | some value => cases exceeds <;> simp [hvalue]

/-- It fires when it is due, and only then, exactly where the counters are kept apart or it does not
    come to them. -/
theorem fires_iff_due (h : rule.thresholded = true) :
    ((fire signals rule).isSome = true ↔ Due signals rule) ↔
      (beyond signals rule = true → FloorsKeptApart signals rule) := by
  rw [fires_iff h, ← floors_iff]
  unfold Due
  cases beyond signals rule with
  | false => simp
  | true => simp

end Fires

end CanvasOS.OptionsInbox
