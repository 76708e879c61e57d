/-
  Sorting that is stable: what `sorted(…, key=…)` promises.

  1. `Stably` — one item stands before another: its key is not greater, and where the keys tie it
     came first.
  2. `pairwise_stably` — insertion sort puts a list in that order.
  3. `filter_insertionSort_eq_iff` — a list is what the sort leaves of some of its items exactly if
     it has these items in that order.
-/
import Mathlib.Data.List.Sort

namespace Stable

variable {α : Type} {r : α → α → Prop} {s : α → α → Prop} {l m : List α} {a : α}

/-- `a` stands before `b` in a sort by `r` of a list in the order `s`. -/
def Stably (r s : α → α → Prop) (a b : α) : Prop := r a b ∧ (r b a → s a b)

/-- The item that came first goes in front of its equals. -/
theorem pairwise_orderedInsert [DecidableRel r] [Std.Total r] [IsTrans α r]
    (hl : l.Pairwise (Stably r s)) (ha : ∀ b ∈ l, s a b) :
    (l.orderedInsert r a).Pairwise (Stably r s) := by
  induction l with
  | nil => simp
  | cons b l ih =>
    obtain ⟨hb, hrest⟩ := List.pairwise_cons.1 hl
    rw [List.orderedInsert_cons]
    split
    · next hab =>
      refine List.pairwise_cons.2 ⟨fun c hc => ⟨?_, fun _ => ha c hc⟩, hl⟩
      rcases List.mem_cons.1 hc with rfl | hc
      · exact hab
      · exact IsTrans.trans _ _ _ hab (hb c hc).1
    · next hab =>
      refine List.pairwise_cons.2 ⟨fun c hc => ?_, ih hrest fun c hc => ha c (.tail b hc)⟩
      rcases List.mem_orderedInsert r |>.1 hc with rfl | hc
      · exact ⟨(Std.Total.total c b).resolve_left hab, fun hcb => absurd hcb hab⟩
      · exact hb c hc

/-- Insertion sort is stable. -/
theorem pairwise_stably [DecidableRel r] [Std.Total r] [IsTrans α r] (hl : l.Pairwise s) :
    (l.insertionSort r).Pairwise (Stably r s) := by
  induction l with
  | nil => exact List.Pairwise.nil
  | cons a l ih =>
    obtain ⟨ha, hrest⟩ := List.pairwise_cons.1 hl
    refine pairwise_orderedInsert (ih hrest) fun b hb => ha b ?_
    exact (List.mem_insertionSort r).1 hb

/-- In a list without repetitions the order is strict. -/
theorem stably_antisymm (hs : ∀ a b, s a b → ¬ s b a) {a b : α} (hab : Stably r s a b)
    (hba : Stably r s b a) : a = b :=
  absurd (hba.2 hab.1) (hs a b (hab.2 hba.1))

/-- What the sort leaves of the items of a predicate: they, in order. -/
theorem filter_insertionSort_eq_iff [DecidableRel r] [Std.Total r] [IsTrans α r]
    (hs : ∀ a b, s a b → ¬ s b a) (hl : l.Pairwise s) (p : α → Bool) :
    (l.insertionSort r).filter p = m ↔ m.Perm (l.filter p) ∧ m.Pairwise (Stably r s) := by
  constructor
  · rintro rfl
    exact ⟨(List.perm_insertionSort r l).filter p, (pairwise_stably hl).filter p⟩
  · rintro ⟨hperm, hsorted⟩
    refine List.Perm.eq_of_pairwise (fun a b _ _ => stably_antisymm hs)
      ((pairwise_stably hl).filter p) hsorted ?_
    exact ((List.perm_insertionSort r l).filter p).trans hperm.symm

end Stable
