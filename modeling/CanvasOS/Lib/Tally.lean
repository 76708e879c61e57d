/-
  How many of the threads of a recorded run (`Lib.System`) are somewhere.

  1. `History.tally` — the number of arrived threads with a property.
  2. What one thread changes: it may add one, it may take one away, it may leave the number as it
     was.
-/
import CanvasOS.Lib.RelyGuarantee

namespace Interleave

variable {Op : Type} {Res : Op → Type} {ε S ι ρ α E : Type}

/-- The number of arrived threads with the property. -/
def History.tally (h : History Op Res S ι ρ) (p : ι → Bool) : Nat :=
  h.arrived.countP fun x => p x.1

section Count

variable [DecidableEq ι] {p q : ι → Bool} {l : List (ι × ρ)} {i : ι}

omit [DecidableEq ι] in
theorem countP_le_of_imp (h : ∀ j, p j = true → q j = true) :
    (l.countP fun x => p x.1) ≤ l.countP fun x => q x.1 :=
  List.countP_mono_left fun x _ hx => h x.1 hx

/-- Only thread `i` may have come to have the property. -/
theorem countP_le_succ (hnodup : (l.map Prod.fst).Nodup)
    (h : ∀ j, j ≠ i → p j = true → q j = true) :
    (l.countP fun x => p x.1) ≤ (l.countP fun x => q x.1) + 1 := by
  induction l with
  | nil => exact Nat.zero_le _
  | cons x l ih =>
    rw [List.map_cons, List.nodup_cons] at hnodup
    rw [List.countP_cons, List.countP_cons]
    by_cases hx : x.1 = i
    · -- `i` occurs once
      have hrest : (l.countP fun x => p x.1) ≤ l.countP fun x => q x.1 :=
        List.countP_mono_left fun y hy hp => h y.1
          (fun heq => hnodup.1 (by rw [hx, ← heq]; exact List.mem_map_of_mem hy)) hp
      have hone : (if p x.1 then 1 else 0) ≤ 1 := by split <;> omega
      omega
    · have hle : (if p x.1 then 1 else 0) ≤ if q x.1 then 1 else 0 := by
        by_cases hp : p x.1 = true
        · exact Nat.le_of_eq (by rw [if_pos hp, if_pos (h x.1 hx hp)])
        · rw [if_neg hp]
          exact Nat.zero_le _
      have := ih hnodup.2
      omega

/-- Thread `i` has lost the property, and no other has come to have it. -/
theorem succ_countP_le (hnodup : (l.map Prod.fst).Nodup) (hi : i ∈ l.map Prod.fst)
    (hp : p i = false) (hq : q i = true) (h : ∀ j, p j = true → q j = true) :
    (l.countP fun x => p x.1) + 1 ≤ l.countP fun x => q x.1 := by
  induction l with
  | nil => cases hi
  | cons x l ih =>
    rw [List.map_cons, List.nodup_cons] at hnodup
    rw [List.countP_cons, List.countP_cons]
    by_cases hx : x.1 = i
    · have hrest : (l.countP fun x => p x.1) ≤ l.countP fun x => q x.1 := countP_le_of_imp h
      rw [hx, hp, hq]
      simp only [Bool.false_eq_true, if_false, if_true]
      omega
    · have hmem : i ∈ l.map Prod.fst := by
        rcases List.mem_cons.1 hi with heq | hmem
        · exact absurd heq.symm hx
        · exact hmem
      have hle : (if p x.1 then 1 else 0) ≤ if q x.1 then 1 else 0 := by
        by_cases hpx : p x.1 = true
        · exact Nat.le_of_eq (by rw [if_pos hpx, if_pos (h x.1 hpx)])
        · rw [if_neg hpx]
          exact Nat.zero_le _
      have := ih hnodup.2 hmem
      omega

end Count

namespace History

variable {h h' : History Op Res S ι ρ} {p q : ι → Bool} {i : ι}

theorem tally_le (harrived : h'.arrived = h.arrived) (himp : ∀ j, p j = true → q j = true) :
    h'.tally p ≤ h.tally q := by
  unfold tally
  rw [harrived]
  exact countP_le_of_imp himp

/-- A thread that arrives without the property is not counted. -/
theorem tally_enter {r : ρ} (harrived : h'.arrived = (i, r) :: h.arrived) (hi : p i = false)
    (himp : ∀ j, p j = true → q j = true) : h'.tally p ≤ h.tally q := by
  unfold tally
  rw [harrived, List.countP_cons, hi]
  exact countP_le_of_imp himp

theorem tally_le_succ [DecidableEq ι] (harrived : h'.arrived = h.arrived)
    (hnodup : (h.arrived.map Prod.fst).Nodup) (himp : ∀ j, j ≠ i → p j = true → q j = true) :
    h'.tally p ≤ h.tally q + 1 := by
  unfold tally
  rw [harrived]
  exact countP_le_succ hnodup himp

theorem succ_tally_le [DecidableEq ι] (harrived : h'.arrived = h.arrived)
    (hnodup : (h.arrived.map Prod.fst).Nodup) (hi : i ∈ h.arrived.map Prod.fst)
    (hp : p i = false) (hq : q i = true) (himp : ∀ j, p j = true → q j = true) :
    h'.tally p + 1 ≤ h.tally q := by
  unfold tally
  rw [harrived]
  exact succ_countP_le hnodup hi hp hq himp

end History

end Interleave
