/-
  `sorted(items, key=…)` where no two items share a key: the order in which the items come is of no
  account.

  1. `sortBy` — the sort.
  2. `sortBy_perm` — two orders of the same items are sorted alike.
  3. `forall₂_sortBy` — items that correspond, key for key, correspond when they are sorted.
  4. `mapM_eq_of_forall₂`, `map_eq_of_forall₂` — what is made of items that correspond.
-/
import Mathlib.Data.List.Sort
import Mathlib.Data.List.Forall2

namespace Listing

variable {α β κ : Type} [LinearOrder κ] {l l' : List α} {m : List β} {key : α → κ} {key' : β → κ}

/-- `sorted(items, key=…)` -/
def sortBy (key : α → κ) (items : List α) : List α := items.insertionSort fun a b => key a ≤ key b

theorem sortBy_cons {a : α} :
    sortBy key (a :: l) = (sortBy key l).orderedInsert (fun a b => key a ≤ key b) a := rfl

theorem perm_sortBy : (sortBy key l).Perm l := List.perm_insertionSort _ _

theorem mem_sortBy {a : α} : a ∈ sortBy key l ↔ a ∈ l := perm_sortBy.mem_iff

theorem pairwise_sortBy : (sortBy key l).Pairwise fun a b => key a ≤ key b := by
  have : Std.Total fun a b : α => key a ≤ key b := ⟨fun a b => le_total _ _⟩
  have : IsTrans α fun a b => key a ≤ key b := ⟨fun a b c => le_trans⟩
  exact List.pairwise_insertionSort _ _

theorem sortBy_perm (h : l.Perm l') (hl : (l.map key).Nodup) : sortBy key l = sortBy key l' := by
  refine (perm_sortBy.trans (h.trans perm_sortBy.symm)).eq_of_pairwise ?_ pairwise_sortBy
    pairwise_sortBy
  intro a b ha hb hab hba
  exact List.inj_on_of_nodup_map hl (mem_sortBy.1 ha) (h.mem_iff.2 (mem_sortBy.1 hb))
    (le_antisymm hab hba)

/-- Items in order stay as they are. -/
theorem sortBy_eq_self (h : (l.map key).Pairwise (· ≤ ·)) : sortBy key l = l :=
  List.Pairwise.insertionSort_eq (List.pairwise_map.1 h)

/-- The sort does not look at anything but the keys. -/
theorem map_sortBy {f : α → β} (hkey : ∀ a ∈ l, key' (f a) = key a) :
    (sortBy key l).map f = sortBy key' (l.map f) := by
  refine List.map_insertionSort _ _ _ _ fun a ha b hb => ?_
  rw [hkey a ha, hkey b hb]

theorem forall₂_orderedInsert {R : α → β → Prop} (hkey : ∀ a b, R a b → key a = key' b) {a : α}
    {b : β} (hab : R a b) (h : List.Forall₂ R l m) :
    List.Forall₂ R (l.orderedInsert (fun a b => key a ≤ key b) a)
      (m.orderedInsert (fun a b => key' a ≤ key' b) b) := by
  induction h with
  | nil => exact .cons hab .nil
  | @cons c d l m hcd h ih =>
    rw [List.orderedInsert_cons, List.orderedInsert_cons, hkey a b hab, hkey c d hcd]
    split
    · exact .cons hab (.cons hcd h)
    · exact .cons hcd ih

theorem forall₂_sortBy {R : α → β → Prop} (hkey : ∀ a b, R a b → key a = key' b)
    (h : List.Forall₂ R l m) : List.Forall₂ R (sortBy key l) (sortBy key' m) := by
  induction h with
  | nil => exact .nil
  | cons hab h ih => exact forall₂_orderedInsert hkey hab ih

/-- The sort and a filter, in either order. -/
theorem filter_sortBy {p : α → Bool} (hl : (l.map key).Nodup) :
    (sortBy key l).filter p = sortBy key (l.filter p) := by
  refine ((perm_sortBy.filter p).trans perm_sortBy.symm).eq_of_pairwise ?_
    (pairwise_sortBy.filter p) pairwise_sortBy
  intro a b ha hb hab hba
  have hb' := List.mem_of_mem_filter (mem_sortBy.1 hb)
  exact List.inj_on_of_nodup_map hl (mem_sortBy.1 (List.mem_of_mem_filter ha)) hb'
    (le_antisymm hab hba)

/-- What comes of items that correspond. -/
theorem mapM_eq_of_forall₂ {γ ε : Type} {R : α → β → Prop} {f : α → Except ε γ} {g : β → Except ε γ}
    (hfg : ∀ a b, R a b → f a = g b) (h : List.Forall₂ R l m) : l.mapM f = m.mapM g := by
  induction h with
  | nil => rfl
  | cons hab h ih => rw [List.mapM_cons, List.mapM_cons, hfg _ _ hab, ih]

/-- Where nothing stops, each item has its result. -/
theorem forall₂_of_mapM {ε : Type} {f : α → Except ε β} {m : List β} (h : l.mapM f = .ok m) :
    List.Forall₂ (fun a b => f a = .ok b) l m := by
  induction l generalizing m with
  | nil =>
    obtain rfl := Except.ok.inj h
    exact .nil
  | cons a l ih =>
    rw [List.mapM_cons] at h
    cases ha : f a with
    | error stop =>
      rw [ha] at h
      cases h
    | ok b =>
      cases hrest : l.mapM f with
      | error stop =>
        rw [ha, hrest] at h
        cases h
      | ok rest =>
        rw [ha, hrest] at h
        obtain rfl := Except.ok.inj h
        exact .cons ha (ih hrest)

theorem map_eq_of_forall₂ {γ : Type} {R : α → β → Prop} {f : α → γ} {g : β → γ}
    (hfg : ∀ a b, R a b → f a = g b) (h : List.Forall₂ R l m) : l.map f = m.map g := by
  induction h with
  | nil => rfl
  | cons hab h ih => rw [List.map_cons, List.map_cons, hfg _ _ hab, ih]

/-- What can be told from what is listed is listed as well. -/
theorem map_eq_of_map_eq {γ δ : Type} {f : α → γ} {g : β → γ} {f' : α → δ} {g' : β → δ}
    (hfg : ∀ a ∈ l, ∀ b ∈ m, f a = g b → f' a = g' b) (h : l.map f = m.map g) :
    l.map f' = m.map g' := by
  induction l generalizing m with
  | nil => rw [List.map_eq_nil_iff.1 h.symm, List.map_nil, List.map_nil]
  | cons a l ih =>
    cases m with
    | nil => cases h
    | cons b m =>
      obtain ⟨hab, hrest⟩ := List.cons.inj h
      rw [List.map_cons, List.map_cons, hfg a List.mem_cons_self b List.mem_cons_self hab,
        ih (fun c hc d hd => hfg c (List.mem_cons_of_mem _ hc) d (List.mem_cons_of_mem _ hd)) hrest]

end Listing
