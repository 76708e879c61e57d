/-
  `SELECT key, SUM(value) … GROUP BY key`, over any values that can be added up.

  1. `groupSum` — one group for each key that occurs, with the sum of its values.  The order of the
     groups means nothing.
  2. `sumOf` — what the groups say of one key.
  3. `groupSum_total`, `sumOf_groupSum` — no row is lost and none is counted twice.
-/
import Mathlib.Algebra.BigOperators.Group.Finset.Basic

namespace Group

variable {ρ κ M : Type} [DecidableEq κ] [AddCommMonoid M]

/-- The groups of `rows` by `key`, each with the sum of its `value`s. -/
def groupSum (key : ρ → κ) (value : ρ → M) (rows : List ρ) : List (κ × M) :=
  (rows.map key).dedup.map fun k => (k, ((rows.filter fun r => key r = k).map value).sum)

/-- What the groups have under the key `k`. -/
def sumOf (groups : List (κ × M)) (k : κ) : M :=
  ((groups.filter fun g => g.1 = k).map Prod.snd).sum

variable {key : ρ → κ} {value : ρ → M} {rows : List ρ}

/-- Among different keys, one key is met once. -/
theorem sum_single {ks : List κ} (hn : ks.Nodup) (k : κ) (v : M) :
    (ks.map fun i => if i = k then v else 0).sum = if k ∈ ks then v else 0 := by
  induction ks with
  | nil => simp
  | cons j ks ih =>
    obtain ⟨hj, hn⟩ := List.nodup_cons.1 hn
    rw [List.map_cons, List.sum_cons, ih hn]
    by_cases hjk : j = k
    · subst hjk
      simp [hj]
    · simp [hjk, Ne.symm hjk]

/-- One more row joins the group of its key. -/
theorem group_cons (r : ρ) (k : κ) :
    (((r :: rows).filter fun r => key r = k).map value).sum =
      (if k = key r then value r else 0) + ((rows.filter fun r => key r = k).map value).sum := by
  by_cases h : key r = k
  · subst h
    simp
  · simp [h, Ne.symm h]

/-- Over keys that cover the rows, the groups add up to the rows. -/
theorem groups_total {ks : List κ} (hn : ks.Nodup) (hk : ∀ r ∈ rows, key r ∈ ks) :
    (ks.map fun k => ((rows.filter fun r => key r = k).map value).sum).sum =
      (rows.map value).sum := by
  induction rows with
  | nil => simp
  | cons r rows ih =>
    have hrest : ∀ r ∈ rows, key r ∈ ks := fun r' hr' => hk r' (List.mem_cons_of_mem r hr')
    simp only [group_cons, List.sum_map_add, List.map_cons, List.sum_cons]
    rw [ih hrest, sum_single hn, if_pos (hk r List.mem_cons_self)]

/-- The groups add up to the rows. -/
theorem groupSum_total : ((groupSum key value rows).map Prod.snd).sum = (rows.map value).sum := by
  unfold groupSum
  rw [List.map_map]
  exact groups_total (List.nodup_dedup _) fun r hr =>
    List.mem_dedup.2 (List.mem_map_of_mem hr)

/-- A group has what the rows of its key add up to. -/
theorem sumOf_groupSum (k : κ) :
    sumOf (groupSum key value rows) k = ((rows.filter fun r => key r = k).map value).sum := by
  have hfilter : ∀ gs : List (κ × M),
      sumOf gs k = (gs.map fun g => if g.1 = k then g.2 else 0).sum := by
    intro gs
    unfold sumOf
    induction gs with
    | nil => rfl
    | cons g gs ih =>
      by_cases h : g.1 = k
      · simp [h, ih]
      · simp [h, ih]
  have hsame : ∀ i, (if i = k then ((rows.filter fun r => key r = i).map value).sum else 0) =
      if i = k then ((rows.filter fun r => key r = k).map value).sum else 0 := by
    intro i
    split
    · next h => rw [h]
    · rfl
  rw [hfilter, groupSum, List.map_map]
  show ((rows.map key).dedup.map fun i =>
    if i = k then ((rows.filter fun r => key r = i).map value).sum else 0).sum = _
  simp only [hsame]
  rw [sum_single (List.nodup_dedup _)]
  split
  · rfl
  · next hk =>
    -- no row has the key
    have hnone : rows.filter (fun r => key r = k) = [] := by
      rw [List.filter_eq_nil_iff]
      intro r hr hkey
      exact hk (List.mem_dedup.2 (List.mem_map.2 ⟨r, hr, of_decide_eq_true hkey⟩))
    rw [hnone]
    rfl

end Group
