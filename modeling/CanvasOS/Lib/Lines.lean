/-
  `"\n".join(lines)`: as long as no line is empty or has the separator in it, the text says what the
  lines were.
-/
import CanvasOS.Lib.Format
import Mathlib.Data.List.Basic

namespace Python

variable {sep : Char} {x : String} {xs ys : List String}

/-- A line that is not empty and does not have the separator in it. -/
def IsLine (sep : Char) (x : String) : Prop := sep ∉ x.toList ∧ x ≠ ""

/-- What stands before the first separator, and what after. -/
theorem append_cons_inj {p q z w : List Char} (hp : sep ∉ p) (hq : sep ∉ q)
    (h : p ++ sep :: z = q ++ sep :: w) : p = q ∧ z = w := by
  induction p generalizing q with
  | nil =>
    cases q with
    | nil => exact ⟨rfl, (List.cons.inj h).2⟩
    | cons c q => exact absurd (List.mem_cons.2 (.inl (List.cons.inj h).1)) hq
  | cons c p ih =>
    cases q with
    | nil => exact absurd (List.mem_cons.2 (.inl (List.cons.inj h).1.symm)) hp
    | cons d q =>
      obtain ⟨rfl, hrest⟩ := List.cons.inj h
      obtain ⟨rfl, rfl⟩ := ih (mt (List.mem_cons_of_mem c) hp) (mt (List.mem_cons_of_mem c) hq)
        hrest
      exact ⟨rfl, rfl⟩

theorem toList_join_cons (hxs : xs ≠ []) : (join (String.singleton sep) (x :: xs)).toList =
    x.toList ++ sep :: (join (String.singleton sep) xs).toList := by
  obtain ⟨y, ys, rfl⟩ := List.exists_cons_of_ne_nil hxs
  rw [join, String.toList_append, String.toList_append, String.toList_singleton, List.append_assoc]
  rfl

theorem join_ne_empty (hx : IsLine sep x) : join (String.singleton sep) (x :: xs) ≠ "" := by
  intro h
  have hnil := congrArg String.toList h
  by_cases hxs : xs = []
  · rw [hxs] at h
    exact hx.2 h
  · rw [toList_join_cons hxs] at hnil
    exact List.cons_ne_nil _ _ (List.append_eq_nil_iff.1 hnil).2

theorem join_injective (hxs : ∀ x ∈ xs, IsLine sep x) (hys : ∀ y ∈ ys, IsLine sep y)
    (h : join (String.singleton sep) xs = join (String.singleton sep) ys) : xs = ys := by
  induction xs generalizing ys with
  | nil =>
    cases ys with
    | nil => rfl
    | cons y ys => exact absurd h.symm (join_ne_empty (hys y List.mem_cons_self))
  | cons x xs ih =>
    obtain ⟨hx, hxs⟩ := List.forall_mem_cons.1 hxs
    cases ys with
    | nil => exact absurd h (join_ne_empty hx)
    | cons y ys =>
      obtain ⟨hy, hys⟩ := List.forall_mem_cons.1 hys
      have hchars := congrArg String.toList h
      -- a separator comes after the first line exactly where there is another
      by_cases hxs' : xs = []
      · by_cases hys' : ys = []
        · rw [hxs', hys'] at h ⊢
          exact congrArg (fun z => [z]) h
        · rw [hxs', toList_join_cons hys', join] at hchars
          exact absurd (hchars ▸ List.mem_append_right _ List.mem_cons_self) hx.1
      · by_cases hys' : ys = []
        · rw [hys', toList_join_cons hxs', join] at hchars
          exact absurd (hchars ▸ List.mem_append_right _ List.mem_cons_self) hy.1
        · rw [toList_join_cons hxs', toList_join_cons hys'] at hchars
          obtain ⟨hline, hrest⟩ := append_cons_inj hx.1 hy.1 hchars
          rw [String.toList_inj.1 hline, ih hxs hys (String.toList_inj.1 hrest)]

end Python
