/-
  A dict: values under keys, in the order in which the keys were first set.

  1. `Dict` — the items, no two of them under one key.
  2. `Dict.set`, `Dict.pop` — a key that is there keeps its place, a new one goes to the end.
  3. `Dict.get?_set`, `Dict.get?_pop` — what is under a key afterwards.  The proofs read `get?` as
     membership (`mem_items_iff`), where the place of an item is of no account.
  4. `Dict.bump` — a dict as a `Counter`: its counts add up (`total_bump`).
-/
import Mathlib.Algebra.Ring.Nat
import Mathlib.Data.List.Nodup

/-- The items of a dict, oldest key first. -/
structure Dict (κ ν : Type) where
  items : List (κ × ν)
  unique : (items.map Prod.fst).Nodup

namespace Dict

variable {κ ν : Type}

def empty : Dict κ ν := ⟨[], List.nodup_nil⟩

variable {d : Dict κ ν} {k k' : κ} {v v' : ν}

theorem eq_of_mem_items (h : (k, v) ∈ d.items) (h' : (k, v') ∈ d.items) : v = v' :=
  (Prod.mk.inj (List.inj_on_of_nodup_map d.unique h h' rfl)).2

variable [DecidableEq κ]

/-- `d.get(k)` -/
def get? (d : Dict κ ν) (k : κ) : Option ν :=
  (d.items.find? fun item => item.1 = k).map Prod.snd

/-- What `get?` finds is an item. -/
theorem mem_items_iff : d.get? k = some v ↔ (k, v) ∈ d.items := by
  unfold get?
  rw [Option.map_eq_some_iff]
  constructor
  · rintro ⟨⟨k', v'⟩, hfound, rfl⟩
    have hk : k' = k := by simpa using List.find?_some hfound
    exact hk ▸ List.mem_of_find?_eq_some hfound
  · intro h
    have hsome : (d.items.find? fun item => item.1 = k).isSome :=
      List.find?_isSome.2 ⟨(k, v), h, decide_eq_true rfl⟩
    obtain ⟨⟨k', v'⟩, hfound⟩ := Option.isSome_iff_exists.1 hsome
    have hk : k' = k := by simpa using List.find?_some hfound
    exact ⟨(k', v'), hfound, eq_of_mem_items (hk ▸ List.mem_of_find?_eq_some hfound) h⟩

theorem get?_empty : (empty : Dict κ ν).get? k = none := rfl

theorem map_replace (items : List (κ × ν)) (k : κ) (v : ν) :
    (items.map fun item => if item.1 = k then (k, v) else item).map Prod.fst =
      items.map Prod.fst := by
  rw [List.map_map]
  refine List.map_congr_left fun item _ => ?_
  show (if item.1 = k then (k, v) else item).1 = item.1
  split
  next h => exact h.symm
  next => rfl

/-- `d[k] = v` -/
def set (d : Dict κ ν) (k : κ) (v : ν) : Dict κ ν :=
  if h : k ∈ d.items.map Prod.fst then
    ⟨d.items.map fun item => if item.1 = k then (k, v) else item,
      (map_replace d.items k v).symm ▸ d.unique⟩
  else
    ⟨d.items ++ [(k, v)], by
      rw [List.map_append]
      exact d.unique.append (List.nodup_singleton k) (List.disjoint_singleton.2 h)⟩

/-- `d.pop(k, None)`, without what it returns (`d.get? k`). -/
def pop (d : Dict κ ν) (k : κ) : Dict κ ν :=
  ⟨d.items.filter fun item => item.1 ≠ k, d.unique.sublist (List.filter_sublist.map Prod.fst)⟩

theorem mem_set : (k', v') ∈ (d.set k v).items ↔
    k' = k ∧ v' = v ∨ k' ≠ k ∧ (k', v') ∈ d.items := by
  unfold set
  split
  next hk =>
    show (k', v') ∈ d.items.map _ ↔ _
    rw [List.mem_map]
    constructor
    · rintro ⟨item, hitem, heq⟩
      by_cases h : item.1 = k
      · rw [if_pos h] at heq
        exact Or.inl (Prod.mk.inj heq.symm)
      · rw [if_neg h] at heq
        subst heq
        exact Or.inr ⟨h, hitem⟩
    · rintro (⟨rfl, rfl⟩ | ⟨hne, hmem⟩)
      · obtain ⟨item, hitem, rfl⟩ := List.mem_map.1 hk
        exact ⟨item, hitem, if_pos rfl⟩
      · exact ⟨(k', v'), hmem, if_neg hne⟩
  next hk =>
    show (k', v') ∈ d.items ++ [(k, v)] ↔ _
    rw [List.mem_append, List.mem_singleton, Prod.mk.injEq, or_comm]
    refine or_congr_right (iff_and_self.2 ?_)
    rintro hmem rfl
    exact hk (List.mem_map.2 ⟨_, hmem, rfl⟩)

theorem mem_pop : (k', v') ∈ (d.pop k).items ↔ k' ≠ k ∧ (k', v') ∈ d.items := by
  show (k', v') ∈ d.items.filter _ ↔ _
  rw [List.mem_filter, decide_eq_true_iff, and_comm]

@[simp] theorem get?_set : (d.set k v).get? k' = if k' = k then some v else d.get? k' := by
  refine Option.ext fun v' => ?_
  rw [mem_items_iff, mem_set]
  by_cases h : k' = k
  · rw [if_pos h, Option.some_inj]
    exact ⟨fun hor => hor.elim (fun hand => hand.2.symm) fun hand => absurd h hand.1,
      fun heq => Or.inl ⟨h, heq.symm⟩⟩
  · rw [if_neg h, mem_items_iff]
    exact ⟨fun hor => hor.elim (fun hand => absurd hand.1 h) And.right,
      fun hmem => Or.inr ⟨h, hmem⟩⟩

@[simp] theorem get?_pop : (d.pop k).get? k' = if k' = k then none else d.get? k' := by
  refine Option.ext fun v' => ?_
  rw [mem_items_iff, mem_pop]
  by_cases h : k' = k
  · rw [if_pos h]
    exact ⟨fun hand => absurd h hand.1, fun hnone => nomatch hnone⟩
  · rw [if_neg h, mem_items_iff]
    exact and_iff_right h

/-! ## Counting -/

/-- `counter[k] += 1` -/
def bump (d : Dict κ Nat) (k : κ) : Dict κ Nat := d.set k ((d.get? k).getD 0 + 1)

/-- What was counted. -/
def total (d : Dict κ Nat) : Nat := (d.items.map Prod.snd).sum

/-- A key that occurs once has its value exchanged. -/
theorem sum_replace {items : List (κ × Nat)} (hn : (items.map Prod.fst).Nodup) {n m : Nat}
    (hin : (k, n) ∈ items) :
    ((items.map fun item => if item.1 = k then (k, m) else item).map Prod.snd).sum + n =
      (items.map Prod.snd).sum + m := by
  induction items with
  | nil => cases hin
  | cons item items ih =>
    rw [List.map_cons, List.nodup_cons] at hn
    simp only [List.map_cons, List.sum_cons]
    rcases List.mem_cons.1 hin with rfl | hin
    · have hrest : items.map (fun item => if item.1 = k then (k, m) else item) = items := by
        refine (List.map_congr_left fun item hitem => ?_).trans (List.map_id items)
        have hmem : item.1 ∈ items.map Prod.fst := List.mem_map_of_mem hitem
        exact if_neg fun (heq : item.1 = k) => hn.1 (heq ▸ hmem)
      rw [if_pos rfl, hrest]
      show m + _ + n = n + _ + m
      omega
    · have hne : item.1 ≠ k := fun heq => hn.1 (heq ▸ List.mem_map_of_mem hin)
      rw [if_neg hne]
      have := ih hn.2 hin
      omega

theorem total_bump {d : Dict κ Nat} : (d.bump k).total = d.total + 1 := by
  have hcases : d.get? k = none ∨ ∃ n, d.get? k = some n := by
    cases d.get? k with
    | none => exact Or.inl rfl
    | some n => exact Or.inr ⟨n, rfl⟩
  unfold bump total set
  rcases hcases with hk | ⟨n, hk⟩
  · have hout : k ∉ d.items.map Prod.fst := by
      intro hin
      obtain ⟨⟨k', n⟩, hitem, rfl⟩ := List.mem_map.1 hin
      rw [mem_items_iff.2 hitem] at hk
      cases hk
    rw [dif_neg hout, hk]
    simp
  · have hitem := mem_items_iff.1 hk
    rw [dif_pos (List.mem_map_of_mem hitem), hk]
    have := sum_replace d.unique hitem (m := n + 1)
    show ((d.items.map fun item => if item.1 = k then (k, n + 1) else item).map Prod.snd).sum = _
    omega

theorem getD_bump {d : Dict κ Nat} :
    ((d.bump k).get? k').getD 0 = (d.get? k').getD 0 + if k' = k then 1 else 0 := by
  unfold bump
  rw [get?_set]
  by_cases h : k' = k
  · subst h
    rw [if_pos rfl, if_pos rfl]
    rfl
  · rw [if_neg h, if_neg h]
    rfl

end Dict
