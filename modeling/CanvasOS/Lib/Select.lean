/-
  `SELECT … WHERE p ORDER BY before LIMIT 1` as a relation.

  Rows that `before` leaves unordered may come first in either order, so the statement has a SET of
  possible answers on a table.  `selects rows p before` decides that set: a row is an answer when it
  matches and no matching row comes before it, and no answer is one exactly when no row matches.

  `update rows p f` is `UPDATE … SET f WHERE p RETURNING *`.

  `FirstBy key limit table rows` is the same for `SELECT … ORDER BY key LIMIT limit`: rows of the same
  key come in any order, and any of them may be cut off.
-/
import Mathlib.Data.List.Nodup
import Mathlib.Data.List.Perm.Subperm

namespace Table

variable {α : Type} [DecidableEq α]

/-- The possible answers of the statement. -/
def selects (rows : List α) (p : α → Bool) (before : α → α → Bool) : Option α → Bool
  | none => rows.all fun r => !p r
  | some r => r ∈ rows && p r && rows.all fun l => !(p l && before l r)

variable {rows : List α} {p : α → Bool} {before : α → α → Bool}

theorem selects_none : selects rows p before none ↔ ∀ r ∈ rows, p r = false := by
  simp [selects]

theorem selects_some {r : α} : selects rows p before (some r) ↔
    r ∈ rows ∧ p r = true ∧ ∀ l ∈ rows, p l = true → before l r = false := by
  simp only [selects, Bool.and_eq_true, decide_eq_true_eq, List.all_eq_true, and_assoc,
    Bool.not_eq_true', Bool.and_eq_false_iff]
  refine and_congr_right fun _ => and_congr_right fun _ => forall₂_congr fun l _ => ?_
  cases p l <;> simp

/-- The statement has an answer on every table: a strict order leaves some matching row first. -/
theorem exists_selects (hirrefl : ∀ r, before r r = false)
    (htrans : ∀ a b c, before a b = true → before b c = true → before a c = true) :
    ∃ answer, selects rows p before answer = true := by
  induction rows with
  | nil => exact ⟨none, selects_none.2 fun _ h => absurd h List.not_mem_nil⟩
  | cons a rows ih =>
    obtain ⟨answer, hanswer⟩ := ih
    cases hp : p a with
    | false =>
      refine ⟨answer, ?_⟩
      cases answer with
      | none =>
        have hnone := selects_none.1 hanswer
        exact selects_none.2 (List.forall_mem_cons.2 ⟨hp, hnone⟩)
      | some r =>
        obtain ⟨hr, hpr, hfirst⟩ := selects_some.1 hanswer
        refine selects_some.2 ⟨List.mem_cons_of_mem _ hr, hpr, List.forall_mem_cons.2 ⟨?_, hfirst⟩⟩
        exact fun h => absurd h (by simp [hp])
    | true =>
      cases answer with
      | none =>
        have hnone := selects_none.1 hanswer
        refine ⟨some a, selects_some.2 ⟨List.mem_cons_self, hp, List.forall_mem_cons.2 ⟨?_, ?_⟩⟩⟩
        · exact fun _ => hirrefl a
        · exact fun l hl h => absurd h (by simp [hnone l hl])
      | some r =>
        obtain ⟨hr, hpr, hfirst⟩ := selects_some.1 hanswer
        -- the new row comes before the old answer, or leaves it first
        cases hbefore : before a r with
        | false =>
          refine ⟨some r, selects_some.2 ⟨List.mem_cons_of_mem _ hr, hpr,
            List.forall_mem_cons.2 ⟨fun _ => hbefore, hfirst⟩⟩⟩
        | true =>
          refine ⟨some a, selects_some.2 ⟨List.mem_cons_self, hp,
            List.forall_mem_cons.2 ⟨fun _ => hirrefl a, fun l hl hpl => ?_⟩⟩⟩
          by_contra hla
          have hlr := htrans l a r (by simpa using hla) hbefore
          rw [hfirst l hl hpl] at hlr
          cases hlr

/-- The table after the statement, and the row it returns (the first updated one). -/
def update {α : Type} (rows : List α) (p : α → Bool) (f : α → α) : Option α × List α :=
  ((rows.find? p).map f, rows.map fun r => if p r then f r else r)

/-- Every row of the new table is an old one, updated or not. -/
theorem mem_update {α : Type} {rows t : List α} {p : α → Bool} {f : α → α} {r : α}
    (ht : t = (update rows p f).2) (hr : r ∈ t) :
    (∃ r₀ ∈ rows, p r₀ = true ∧ r = f r₀) ∨ (r ∈ rows ∧ p r = false) := by
  obtain ⟨r₀, hr₀, rfl⟩ := List.mem_map.1 (ht ▸ hr)
  by_cases hp : p r₀ = true
  · exact .inl ⟨r₀, hr₀, hp, if_pos hp⟩
  · rw [if_neg hp]
    exact .inr ⟨hr₀, by simpa using hp⟩

/-- Every old row is found in the new table, updated or not. -/
theorem exists_mem_update {α : Type} {rows t : List α} {p : α → Bool} {f : α → α} {r : α}
    (ht : t = (update rows p f).2) (hr : r ∈ rows) :
    (p r = true ∧ f r ∈ t) ∨ (p r = false ∧ r ∈ t) := by
  have hmem : (if p r then f r else r) ∈ t := ht ▸ List.mem_map.2 ⟨r, hr, rfl⟩
  cases hp : p r with
  | true => exact .inl ⟨rfl, by rwa [if_pos hp] at hmem⟩
  | false => exact .inr ⟨rfl, by rwa [if_neg (by simp [hp])] at hmem⟩

/-- An update of columns other than `g` leaves the column `g` as it was. -/
theorem map_update {α β : Type} (rows : List α) (p : α → Bool) (f : α → α) (g : α → β)
    (hg : ∀ r, g (f r) = g r) : (update rows p f).2.map g = rows.map g := by
  rw [update, List.map_map]
  refine List.map_congr_left fun r _ => ?_
  show g (if p r then f r else r) = g r
  split
  · exact hg r
  · rfl

theorem update_some {α : Type} {rows : List α} {p : α → Bool} {f : α → α} {r : α}
    (h : (update rows p f).1 = some r) :
    ∃ r₀ ∈ rows, p r₀ = true ∧ r = f r₀ ∧ r ∈ (update rows p f).2 := by
  obtain ⟨r₀, hfind, rfl⟩ := Option.map_eq_some_iff.1 h
  have hp : p r₀ = true := List.find?_some hfind
  have hmem := List.mem_of_find?_eq_some hfind
  exact ⟨r₀, hmem, hp, rfl, List.mem_map.2 ⟨r₀, hmem, if_pos hp⟩⟩

theorem update_none {α : Type} {rows : List α} {p : α → Bool} {f : α → α}
    (h : (update rows p f).1 = none) :
    (∀ r ∈ rows, p r = false) ∧ (update rows p f).2 = rows := by
  have hp : ∀ r ∈ rows, p r = false := fun r hr => by
    simpa using List.find?_eq_none.1 (Option.map_eq_none_iff.1 h) r hr
  refine ⟨hp, ?_⟩
  have hid : (rows.map fun r => if p r then f r else r) = rows.map id :=
    List.map_congr_left fun r hr => if_neg (by simp [hp r hr])
  exact hid.trans (List.map_id rows)

/-! ## The first rows of a table -/

/-- `rows` is what the statement can select of a table without duplicates. -/
structure FirstBy (key : α → Int) (limit : Nat) (table rows : List α) : Prop where
  nodup : rows.Nodup
  mem : ∀ row ∈ rows, row ∈ table
  length : rows.length = min limit table.length
  sorted : rows.Pairwise fun a b => key a ≤ key b
  least : ∀ row ∈ table, row ∉ rows → ∀ r ∈ rows, key r ≤ key row

instance (key : α → Int) (limit : Nat) (table rows : List α) :
    Decidable (FirstBy key limit table rows) :=
  decidable_of_iff (rows.Nodup ∧ (∀ row ∈ rows, row ∈ table) ∧
      rows.length = min limit table.length ∧ (rows.Pairwise fun a b => key a ≤ key b) ∧
      ∀ row ∈ table, row ∉ rows → ∀ r ∈ rows, key r ≤ key row)
    ⟨fun ⟨h₁, h₂, h₃, h₄, h₅⟩ => ⟨h₁, h₂, h₃, h₄, h₅⟩,
      fun ⟨h₁, h₂, h₃, h₄, h₅⟩ => ⟨h₁, h₂, h₃, h₄, h₅⟩⟩

namespace FirstBy

variable {key : α → Int} {limit : Nat} {table rows : List α} {row : α}

/-- A row with few rows before or beside it is selected. -/
theorem mem_of_few (h : FirstBy key limit table rows) (hrow : row ∈ table)
    (hfew : (table.filter fun r => key r ≤ key row).length ≤ limit) : row ∈ rows := by
  by_contra hnot
  have hnodup : (row :: rows).Nodup := List.nodup_cons.2 ⟨hnot, h.nodup⟩
  have hbefore : row :: rows ⊆ table.filter fun r => key r ≤ key row := by
    intro r hr
    rw [List.mem_filter, decide_eq_true_iff]
    rcases List.mem_cons.1 hr with rfl | hr
    · exact ⟨hrow, Int.le_refl _⟩
    · exact ⟨h.mem r hr, h.least row hrow hnot r hr⟩
  have hle := (hnodup.subperm hbefore).length_le
  have hall := List.length_filter_le (fun r => decide (key r ≤ key row)) table
  have hlength := h.length
  rw [List.length_cons] at hle
  omega

/-- A table that is not longer than the limit is selected whole. -/
theorem mem_of_short (h : FirstBy key limit table rows) (hshort : table.length ≤ limit)
    (hrow : row ∈ table) : row ∈ rows :=
  h.mem_of_few hrow (Nat.le_trans (List.length_filter_le _ table) hshort)

end FirstBy

end Table
