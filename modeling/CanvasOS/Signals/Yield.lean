/-
  The reachability floor of the monthly retire pass (`source_lifecycle.py`).

  1. `yieldHistory` — what the recorded checks say of one source, newest first, since the page of
     signals is newest first.
  2. `unreachableFloor` — the test: a slice at the end of that list.
  3. `firesRight_iff` — the test reads the newest checks exactly where both ends of the history tell
     the same story.
-/
import CanvasOS.Signals.Table

namespace CanvasOS.Signals

open Python Review

/-- `YIELD_SIGNAL_TYPE`. -/
def yieldSignalType : String := "source_yield"

/-- `YIELD_FLOOR_CONSECUTIVE_FAILURES`. -/
def yieldFloorConsecutiveFailures : Nat := 5

/-- The checks of one row for the source: `bool(entry.get("reachable"))`. -/
def checksIn (url : String) (row : SignalRow) : Option (List Bool) :=
  if row.signalType = yieldSignalType then
    (itemsOf row.payload "rows").map fun entries =>
      (entries.filter fun entry => pyStr (Json.get entry "url") = url).map fun entry =>
        (Json.get entry "reachable").truthy
  else some []

/-- `yield_history_by_url.get(url, [])`; `none` is an exception on a malformed row. -/
def yieldHistory (recent : List SignalRow) (url : String) : Option (List Bool) :=
  (recent.mapM (checksIn url)).map List.flatten

/-- `history[-n:]`. -/
def lastOf (n : Nat) (history : List Bool) : List Bool := history.drop (history.length - n)

/-- The test of `source_retire_handler`. -/
def unreachableFloor (history : List Bool) : Bool :=
  decide (yieldFloorConsecutiveFailures ≤ history.length) &&
    !(lastOf yieldFloorConsecutiveFailures history).any id

/-- The floor as the policy states it: the most recent checks of the source are all unreachable. -/
def BelowFloor (history : List Bool) : Prop :=
  yieldFloorConsecutiveFailures ≤ history.length ∧
    ∀ reachable ∈ history.take yieldFloorConsecutiveFailures, reachable = false

/-- The test fires for the source exactly when it is below the floor. -/
def FiresRight (recent : List SignalRow) (url : String) : Prop :=
  ∀ history, yieldHistory recent url = some history →
    (unreachableFloor history = true ↔ BelowFloor history)

variable {history : List Bool} {n : Nat}

theorem unreachableFloor_iff : unreachableFloor history = true ↔
    yieldFloorConsecutiveFailures ≤ history.length ∧
      true ∉ lastOf yieldFloorConsecutiveFailures history := by
  unfold unreachableFloor
  rw [Bool.and_eq_true, decide_eq_true_iff, Bool.not_eq_true', List.any_eq_false]
  refine and_congr_right fun _ => ⟨fun h hmem => h true hmem rfl, fun h b hb hid => h ?_⟩
  rwa [show true = b from hid.symm]

theorem belowFloor_iff : BelowFloor history ↔ yieldFloorConsecutiveFailures ≤ history.length ∧
    true ∉ history.take yieldFloorConsecutiveFailures := by
  refine and_congr_right fun _ => ⟨fun h hmem => Bool.noConfusion (h true hmem), fun h b hb => ?_⟩
  cases b with
  | false => rfl
  | true => exact absurd hb h

/-- A history that is not longer than the slice has one end only. -/
theorem lastOf_eq_take (h : history.length ≤ n) : lastOf n history = history.take n := by
  rw [lastOf, Nat.sub_eq_zero_of_le h, List.drop_zero, List.take_of_length_le h]

/-- The slice stands at the wrong end: the list is newest first, and `history[-5:]` are the oldest
    five checks of the page.  The test is right exactly where a check found the source among the
    oldest five if and only if one did among the newest five. -/
theorem firesRight_iff (recent : List SignalRow) (url : String) : FiresRight recent url ↔
    ∀ history, yieldHistory recent url = some history →
      history.length ≤ yieldFloorConsecutiveFailures ∨
        (true ∈ lastOf yieldFloorConsecutiveFailures history ↔
          true ∈ history.take yieldFloorConsecutiveFailures) := by
  refine forall_congr' fun history => imp_congr_right fun _ => ?_
  rw [unreachableFloor_iff, belowFloor_iff]
  by_cases hshort : history.length ≤ yieldFloorConsecutiveFailures
  · simp [lastOf_eq_take hshort, hshort]
  · have hlong : yieldFloorConsecutiveFailures ≤ history.length := by omega
    simp only [hlong, true_and, hshort, false_or]
    exact not_iff_not

/-- One nightly row of a source. -/
def nightly (reachable : Bool) : SignalRow :=
  ⟨yieldSignalType, [("rows", .arr [.obj [("profile_id", .str "fabric-ecosystem"),
    ("url", .str "https://blog.example/feed"), ("reachable", .bool reachable)]])], 0⟩

/-- Five failed nights, then a night on which the source was back: newest first. -/
def recovered : List SignalRow := nightly true :: List.replicate 5 (nightly false)

/-- Five failed nights after one on which the source was there. -/
def justLost : List SignalRow := List.replicate 5 (nightly false) ++ [nightly true]

/-- The recovered source is proposed for retirement, the lost one is not. -/
theorem wrong_end : ¬ FiresRight recovered "https://blog.example/feed" ∧
    ¬ FiresRight justLost "https://blog.example/feed" := by
  constructor
  · intro h
    have hbelow := (h [true, false, false, false, false, false] (by decide +kernel)).1
      (by decide +kernel)
    exact absurd (belowFloor_iff.1 hbelow).2 (by decide)
  · intro h
    have hfires := (h [false, false, false, false, false, true] (by decide +kernel)).2
      (belowFloor_iff.2 (by decide))
    exact absurd hfires (by decide +kernel)

end CanvasOS.Signals
