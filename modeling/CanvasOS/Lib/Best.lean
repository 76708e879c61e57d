/-
  The best `k` items of a list by a key.

  1. `BestOf` — `k` of the items (all of them, where there are fewer) that no other one exceeds.
  2. `le_of_mem_take` — the front of a list in descending order is above everything that `k` of its
     items are above.
  3. `bestOf_take_iff` — when the best items of a part are the best of the whole.
-/
import Mathlib.Data.List.Sort

namespace Best

variable {α β : Type} [LinearOrder β] {key : α → β} {k : Nat} {l part off top all : List α}

/-- `top` are best items of `all`, `k` of them if there are so many. -/
def BestOf (k : Nat) (key : α → β) (top all : List α) : Prop :=
  ∃ rest, (top ++ rest).Perm all ∧ top.length = min k all.length ∧
    ∀ a ∈ top, ∀ b ∈ rest, key b ≤ key a

theorem le_of_mem_take (hsorted : l.Pairwise fun a b => key b ≤ key a) {x : β}
    (hcount : k ≤ l.countP fun a => x ≤ key a) : ∀ a ∈ l.take k, x ≤ key a := by
  induction l generalizing k with
  | nil => simp
  | cons b l ih =>
    obtain ⟨hb, hl⟩ := List.pairwise_cons.1 hsorted
    cases k with
    | zero => simp
    | succ k =>
      -- some item is above `x`, so the first one is
      obtain ⟨c, hc, hxc⟩ := List.countP_pos_iff.1 (Nat.lt_of_lt_of_le (Nat.succ_pos k) hcount)
      have hxb : x ≤ key b := by
        rcases List.mem_cons.1 hc with rfl | hc
        · exact of_decide_eq_true hxc
        · exact (of_decide_eq_true hxc).trans (hb c hc)
      rw [List.countP_cons, if_pos (decide_eq_true hxb)] at hcount
      intro a ha
      rcases List.mem_cons.1 (List.take_succ_cons ▸ ha) with rfl | ha
      · exact hxb
      · exact ih hl (by omega) a ha

/-- The best `k` of a part are the best of the whole exactly if each item outside the part has `k`
    items of the part that are as good. -/
theorem bestOf_take_iff (hsorted : l.Pairwise fun a b => key b ≤ key a) (hperm : l.Perm part) :
    BestOf k key (l.take k) (part ++ off) ↔
      ∀ x ∈ off, k ≤ part.countP fun a => key x ≤ key a := by
  have hparts : (l.take k ++ l.drop k).Perm part := by rwa [List.take_append_drop]
  constructor
  · rintro ⟨rest, hwhole, hlength, hbest⟩ x hx
    have hrest : rest.Perm (l.drop k ++ off) := by
      refine (List.perm_append_left_iff (l.take k)).1 (hwhole.trans ?_)
      rw [← List.append_assoc]
      exact (hparts.append_right off).symm
    have hmem : x ∈ rest := hrest.mem_iff.2 (List.mem_append_right _ hx)
    have hoff : 0 < off.length := List.length_pos_of_mem hx
    have hl : l.length = part.length := hperm.length_eq
    rw [List.length_take, List.length_append] at hlength
    -- there is more than the part, so the front is full
    have hfull : (l.take k).length = k := by
      rw [List.length_take]
      omega
    have hall : ∀ a ∈ l.take k, decide (key x ≤ key a) = true :=
      fun a ha => decide_eq_true (hbest a ha x hmem)
    calc k = (l.take k).countP fun a => key x ≤ key a := by
          rw [List.countP_eq_length.2 hall, hfull]
      _ ≤ l.countP fun a => key x ≤ key a := (List.take_sublist k l).countP_le
      _ = part.countP fun a => key x ≤ key a := hperm.countP_eq _
  · intro hcount
    refine ⟨l.drop k ++ off, ?_, ?_, fun a ha b hb => ?_⟩
    · rw [← List.append_assoc]
      exact hparts.append_right off
    · rw [List.length_take, List.length_append, hperm.length_eq]
      cases off with
      | nil => rfl
      | cons x off =>
        have hk := (hcount x (.head off)).trans List.countP_le_length
        omega
    · rcases List.mem_append.1 hb with hb | hb
      · rw [← List.take_append_drop k l] at hsorted
        exact (List.pairwise_append.1 hsorted).2.2 a ha b hb
      · refine le_of_mem_take hsorted ?_ a ha
        rw [hperm.countP_eq]
        exact hcount b hb

end Best
