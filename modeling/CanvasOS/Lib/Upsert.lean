/-
  `INSERT … ON CONFLICT (key) DO UPDATE` and `… DO NOTHING` into a table with a UNIQUE key.

  1. `Keyed` — a table, in no particular order, that carries the uniqueness of its keys.
  2. `Keyed.upsert` — the row takes the place of the one with its key, if there is one, and is then
     the one `find` gives.
     `Keyed.mem_foldl_upsert` is what a batch of upserts leaves: the rows it would leave in an empty
     table, and the old rows whose keys are not among its own.
  3. `Keyed.insertNew` — the row is left out where its key is taken.  A batch keeps all that was
     there, and adds the rows whose keys are free and theirs alone.
-/
import Mathlib.Data.List.Induction
import Mathlib.Data.List.Nodup

namespace Upsert

variable {ρ κ : Type} [DecidableEq κ]

/-- The rows of a table, no two of them under the same key. -/
structure Keyed (key : ρ → κ) where
  rows : List ρ
  unique : (rows.map key).Nodup

namespace Keyed

variable {key : ρ → κ} {t : Keyed key} {r row : ρ} {new : List ρ}

def empty : Keyed key := ⟨[], List.nodup_nil⟩

theorem nodup_upsert {rows : List ρ} (h : (rows.map key).Nodup) (row : ρ) :
    ((rows.filter (fun r => key r ≠ key row) ++ [row]).map key).Nodup := by
  rw [List.map_append, List.nodup_append]
  refine ⟨h.sublist (List.filter_sublist.map key), List.nodup_singleton _, ?_⟩
  intro k hk k' hk' heq
  obtain ⟨r, hr, rfl⟩ := List.mem_map.1 hk
  obtain rfl : k' = key row := List.mem_singleton.1 hk'
  exact of_decide_eq_true (List.mem_filter.1 hr).2 heq

/-- The row is inserted, or takes the place of the one with its key. -/
def upsert (t : Keyed key) (row : ρ) : Keyed key :=
  ⟨t.rows.filter (fun r => key r ≠ key row) ++ [row], nodup_upsert t.unique row⟩

theorem mem_upsert : r ∈ (t.upsert row).rows ↔ r = row ∨ (r ∈ t.rows ∧ key r ≠ key row) := by
  show r ∈ t.rows.filter (fun r => key r ≠ key row) ++ [row] ↔ _
  rw [List.mem_append, List.mem_singleton, List.mem_filter, or_comm, decide_eq_true_iff]

/-- The row under a key. -/
def find (t : Keyed key) (k : κ) : Option ρ := t.rows.find? fun r => key r = k

theorem find_upsert {k : κ} :
    (t.upsert row).find k = if key row = k then some row else t.find k := by
  unfold find upsert
  rw [List.find?_append, List.find?_singleton]
  by_cases hk : key row = k
  · have hnone : (t.rows.filter fun r => key r ≠ key row).find? (fun r => key r = k) = none := by
      refine List.find?_eq_none.2 fun r hr h => ?_
      exact of_decide_eq_true (List.mem_filter.1 hr).2 ((of_decide_eq_true h).trans hk.symm)
    rw [hnone, if_pos hk, if_pos (decide_eq_true hk)]
    rfl
  · have hsame : (t.rows.filter fun r => key r ≠ key row).find? (fun r => key r = k) =
        t.rows.find? fun r => key r = k := by
      rw [List.find?_filter]
      congr 1
      funext r
      by_cases hr : key r = k
      · simp [hr, Ne.symm hk]
      · simp [hr]
    rw [hsame, if_neg hk, if_neg (by simpa using hk)]
    exact Option.or_none

/-- A batch of upserts, and what was there before. -/
theorem mem_foldl_upsert : r ∈ (new.foldl upsert t).rows ↔
    r ∈ (new.foldl upsert (empty : Keyed key)).rows ∨ (r ∈ t.rows ∧ key r ∉ new.map key) := by
  induction new generalizing t with
  | nil =>
    have hnone : r ∉ (empty : Keyed key).rows := List.not_mem_nil
    simp [hnone]
  | cons row new ih =>
    have hnone : r ∉ (empty : Keyed key).rows := List.not_mem_nil
    rw [List.foldl_cons, List.foldl_cons, ih, ih (t := (empty : Keyed key).upsert row), mem_upsert,
      mem_upsert, List.map_cons, List.mem_cons]
    constructor
    · rintro (hnew | ⟨rfl | ⟨hr, hne⟩, hnot⟩)
      · exact .inl (.inl hnew)
      · exact .inl (.inr ⟨.inl rfl, hnot⟩)
      · exact .inr ⟨hr, not_or.2 ⟨hne, hnot⟩⟩
    · rintro ((hnew | ⟨rfl | ⟨hr, -⟩, hnot⟩) | ⟨hr, hnot⟩)
      · exact .inl hnew
      · exact .inr ⟨.inl rfl, hnot⟩
      · exact absurd hr hnone
      · exact .inr ⟨.inr ⟨hr, (not_or.1 hnot).1⟩, (not_or.1 hnot).2⟩

/-- In an empty table, a batch leaves no keys but its own. -/
theorem key_of_mem_foldl (h : r ∈ (new.foldl upsert (empty : Keyed key)).rows) :
    key r ∈ new.map key := by
  induction new using List.reverseRecOn with
  | nil => exact absurd h List.not_mem_nil
  | append_singleton new row ih =>
    rw [List.foldl_append, List.foldl_cons, List.foldl_nil, mem_upsert] at h
    rw [List.map_append, List.mem_append]
    rcases h with rfl | ⟨h, -⟩
    · exact .inr (List.mem_map.2 ⟨r, List.mem_singleton_self r, rfl⟩)
    · exact .inl (ih h)

/-! ## DO NOTHING -/

/-- The row is inserted, unless its key is taken. -/
def insertNew (t : Keyed key) (row : ρ) : Keyed key :=
  if h : key row ∈ t.rows.map key then t
  else ⟨row :: t.rows, by rw [List.map_cons]; exact List.nodup_cons.2 ⟨h, t.unique⟩⟩

theorem mem_insertNew : r ∈ (t.insertNew row).rows ↔
    r ∈ t.rows ∨ (r = row ∧ key row ∉ t.rows.map key) := by
  unfold insertNew
  split
  · next h => exact ⟨.inl, fun hr => hr.elim id fun hnew => absurd h hnew.2⟩
  · next h =>
    rw [List.mem_cons, or_comm]
    exact or_congr_right (and_iff_left h).symm

theorem mem_foldl_insertNew_of_mem (h : r ∈ t.rows) : r ∈ (new.foldl insertNew t).rows := by
  induction new generalizing t with
  | nil => exact h
  | cons row new ih => exact ih (mem_insertNew.2 (.inl h))

/-- What a batch adds is its own, under keys that were free. -/
theorem of_mem_foldl_insertNew (h : r ∈ (new.foldl insertNew t).rows) :
    r ∈ t.rows ∨ (r ∈ new ∧ key r ∉ t.rows.map key) := by
  induction new generalizing t with
  | nil => exact .inl h
  | cons row new ih =>
    rcases ih h with h | ⟨hnew, hfree⟩
    · rcases mem_insertNew.1 h with h | ⟨rfl, hfree⟩
      · exact .inl h
      · exact .inr ⟨List.mem_cons_self, hfree⟩
    · refine .inr ⟨List.mem_cons_of_mem _ hnew, fun htaken => hfree ?_⟩
      obtain ⟨r', hr', heq⟩ := List.mem_map.1 htaken
      exact List.mem_map.2 ⟨r', mem_insertNew.2 (.inl hr'), heq⟩

/-- A row whose key is free, and of no other row of the batch, is added. -/
theorem mem_foldl_insertNew (hr : r ∈ new) (hfree : key r ∉ t.rows.map key)
    (honly : ∀ r' ∈ new, key r' = key r → r' = r) : r ∈ (new.foldl insertNew t).rows := by
  induction new generalizing t with
  | nil => exact absurd hr List.not_mem_nil
  | cons row new ih =>
    rw [List.foldl_cons]
    by_cases hkey : key row = key r
    · obtain rfl := honly row List.mem_cons_self hkey
      exact mem_foldl_insertNew_of_mem (mem_insertNew.2 (.inr ⟨rfl, hfree⟩))
    · have hr : r ∈ new := (List.mem_cons.1 hr).resolve_left fun h => hkey (h ▸ rfl)
      refine ih hr (fun htaken => ?_) fun r' hr' => honly r' (List.mem_cons_of_mem _ hr')
      -- the row before it has another key
      obtain ⟨r', hr', heq⟩ := List.mem_map.1 htaken
      rcases mem_insertNew.1 hr' with hr' | ⟨rfl, -⟩
      · exact hfree (List.mem_map.2 ⟨r', hr', heq⟩)
      · exact hkey heq

omit [DecidableEq κ] in
/-- A key has one row. -/
theorem eq_of_key_eq {r' : ρ} (h : r ∈ t.rows) (h' : r' ∈ t.rows) (heq : key r = key r') :
    r = r' := List.inj_on_of_nodup_map t.unique h h' heq

end Keyed

end Upsert
