/-
  Reading a whole table of Vault, page by page (`vault_client._get_paginated` of the nightly job and
  `services._fetch_all` of the console).

  1. `Lists` — the list endpoint: newest first; rows of the same time come in any order, and not
     always in the same one.
  2. `Reading`, `Reach` — a reader that asks for page after page, among others that insert rows.
  3. `paged_once` — as long as every listing begins with the rows that were returned so far, each
     row that was there at the start is returned once.
-/
import Mathlib.Data.List.Perm.Basic
import CanvasOS.Metering.Spend

namespace CanvasOS.Analytics

open Metering (vaultPageSize vaultMaxRows)

variable {ρ : Type} {createdAt : ρ → Int}

/-! ## The list endpoint -/

/-- `SELECT … ORDER BY created_at DESC` may answer with `listing`. -/
def Lists (createdAt : ρ → Int) (table listing : List ρ) : Prop :=
  listing.Perm table ∧ listing.Pairwise fun row row' => createdAt row' ≤ createdAt row

/-- `LIMIT $2 OFFSET $3` -/
def listObjects (listing : List ρ) (limit offset : Nat) : List ρ := (listing.drop offset).take limit

/-- `Query(50, ge=1, le=500)` -/
def validLimit (limit : Nat) : Bool := decide (1 ≤ limit) && decide (limit ≤ 500)

/-! ## The readers -/

/-- How a reader pages: the size of a page, and the number of rows it stops at. -/
structure Reader where
  limit : Nat
  cap : Option Nat

/-- `_get_paginated` -/
def getPaginated (limit : Nat) : Reader := ⟨limit, none⟩

/-- `_fetch_all` -/
def consoleReader : Reader := ⟨vaultPageSize, some vaultMaxRows⟩

inductive Status where
  | reading
  | returned
  /-- `resp.raise_for_status()` -/
  | raised
deriving DecidableEq

/-- The table, and how far the reader has got. -/
structure Reading (ρ : Type) where
  table : List ρ
  results : List ρ
  offset : Nat
  status : Status

/-- `len(rows) >= VAULT_MAX_ROWS` -/
def Reader.full (C : Reader) (results : List ρ) : Bool := C.cap.any fun cap => decide (cap ≤ results.length)

/-- One round of the loop. -/
def Reader.round (C : Reader) (s : Reading ρ) (listing : List ρ) : Reading ρ :=
  if validLimit C.limit then
    let page := listObjects listing C.limit s.offset
    let results := s.results ++ page
    if page.length < C.limit ∨ C.full results then ⟨s.table, results, s.offset, .returned⟩
    else ⟨s.table, results, s.offset + C.limit, .reading⟩
  else { s with status := .raised }

/-- What can happen next; `ok` restricts the listings a request is answered from. -/
inductive Step (createdAt : ρ → Int) (C : Reader) (ok : Reading ρ → List ρ → Prop) :
    Reading ρ → Reading ρ → Prop
  /-- somebody inserts a row -/
  | insert (s : Reading ρ) (row : ρ) (hnew : row ∉ s.table) :
      Step createdAt C ok s { s with table := row :: s.table }
  /-- the reader asks for the next page -/
  | request (s : Reading ρ) (listing : List ρ) (hstatus : s.status = .reading)
      (hlisting : Lists createdAt s.table listing) (hok : ok s listing) :
      Step createdAt C ok s (C.round s listing)

/-- The states that a reading of `table` can come to. -/
inductive Reach (createdAt : ρ → Int) (C : Reader) (ok : Reading ρ → List ρ → Prop)
    (table : List ρ) : Reading ρ → Prop
  | start : Reach createdAt C ok table ⟨table, [], 0, .reading⟩
  | step {s t : Reading ρ} : Reach createdAt C ok table s → Step createdAt C ok s t →
      Reach createdAt C ok table t

/-! ## What is promised -/

/-- The reader does not raise, it asks for one page beyond the table at most, and where it returns
    below its cap, each of the rows is returned once. -/
structure Exact [DecidableEq ρ] (C : Reader) (rows : List ρ) (s : Reading ρ) : Prop where
  answers : s.status ≠ .raised
  ends : s.offset ≤ s.table.length
  once : s.status = .returned → C.full s.results = false → ∀ row ∈ rows, s.results.count row = 1

/-- The listing begins with the rows that were returned so far: no row has come in ahead of them,
    and rows of the same time are where they were. -/
def Steady (s : Reading ρ) (listing : List ρ) : Prop := s.results <+: listing

/-! ## Steady listings -/

/-- Where a reader has got to after steady listings only. -/
structure Progress [DecidableEq ρ] (C : Reader) (rows : List ρ) (s : Reading ρ) : Prop where
  exact : Exact C rows s
  nodup : s.table.Nodup
  kept : ∀ row ∈ rows, row ∈ s.table
  offset : s.status = .reading → s.offset = s.results.length

/-- The next page of a steady listing is what follows the rows that were returned. -/
theorem page_of_steady {results listing : List ρ} (h : results <+: listing) (limit : Nat) :
    ∃ rest, listing = results ++ rest ∧
      listObjects listing limit results.length = rest.take limit := by
  obtain ⟨rest, rfl⟩ := h
  exact ⟨rest, rfl, by rw [listObjects, List.drop_left]⟩

theorem Progress.step [DecidableEq ρ] {C : Reader} {rows : List ρ} {s t : Reading ρ}
    (hlimit : validLimit C.limit = true) (h : Progress C rows s)
    (hstep : Step createdAt C Steady s t) : Progress C rows t := by
  cases hstep with
  | insert row hnew =>
    refine ⟨⟨h.exact.answers, ?_, h.exact.once⟩, List.nodup_cons.2 ⟨hnew, h.nodup⟩,
      fun r hr => List.mem_cons_of_mem _ (h.kept r hr), h.offset⟩
    exact Nat.le_succ_of_le h.exact.ends
  | request listing hstatus hlisting hok =>
    obtain ⟨rest, hrest, hpage⟩ := page_of_steady hok C.limit
    rw [← h.offset hstatus] at hpage
    have hlength : listing.length = s.table.length := hlisting.1.length_eq
    have hnodup : listing.Nodup := hlisting.1.nodup_iff.2 h.nodup
    unfold Reader.round
    rw [if_pos hlimit]
    dsimp only
    rw [hpage]
    split
    · next hlast =>
      refine ⟨⟨nofun, h.exact.ends, fun _ hcap row hrow => ?_⟩, h.nodup, h.kept, nofun⟩
      -- a short page is the rest of the listing
      have hshort : (rest.take C.limit).length < C.limit := by
        rcases hlast with hshort | hfull
        · exact hshort
        · rw [hcap] at hfull
          cases hfull
      have hall : rest.take C.limit = rest := by
        rw [List.length_take] at hshort
        exact List.take_of_length_le (by omega)
      show (s.results ++ rest.take C.limit).count row = 1
      rw [hall, ← hrest]
      exact List.count_eq_one_of_mem hnodup (hlisting.1.mem_iff.2 (h.kept row hrow))
    · next hmore =>
      rw [not_or, Nat.not_lt] at hmore
      have hfull : (rest.take C.limit).length = C.limit := by
        have := List.length_take_le C.limit rest
        omega
      have hfit : s.offset + C.limit ≤ s.table.length := by
        rw [List.length_take] at hfull
        rw [← hlength, hrest, List.length_append, h.offset hstatus]
        omega
      refine ⟨⟨nofun, hfit, nofun⟩, h.nodup, h.kept, fun _ => ?_⟩
      show s.offset + C.limit = (s.results ++ rest.take C.limit).length
      rw [List.length_append, hfull, h.offset hstatus]

/-- Whoever inserts rows meanwhile: from steady listings, each row of the start is returned once. -/
theorem paged_once [DecidableEq ρ] {C : Reader} {table : List ρ} {s : Reading ρ}
    (hlimit : validLimit C.limit = true) (htable : table.Nodup)
    (h : Reach createdAt C Steady table s) : Exact C table s := by
  suffices hprogress : Progress C table s from hprogress.exact
  induction h with
  | start =>
    exact ⟨⟨nofun, Nat.zero_le _, nofun⟩, htable, fun _ h => h, fun _ => rfl⟩
  | step _ hstep ih => exact ih.step hlimit hstep

/-! ### Three costs, two a page

    Costs are given by their id and their time.  The third page is the first short one. -/

/-- The table, newest first. -/
def threeCosts : List (Nat × Int) := [(3, 30), (2, 20), (1, 10)]

/-- What the reader has after the first page. -/
def firstPage : Reading (Nat × Int) := ⟨threeCosts, [(3, 30), (2, 20)], 2, .reading⟩

theorem firstPage_reached (ok : Reading (Nat × Int) → List (Nat × Int) → Prop)
    (hok : ok ⟨threeCosts, [], 0, .reading⟩ threeCosts) :
    Reach Prod.snd (getPaginated 2) ok threeCosts firstPage :=
  .step .start (.request _ threeCosts rfl ⟨.refl _, by decide⟩ hok)

/-- Nobody inserts anything: the third cost is the second page. -/
theorem threeCosts_exact :
    Exact (getPaginated 2) threeCosts ⟨threeCosts, [(3, 30), (2, 20), (1, 10)], 2, .returned⟩ :=
  paged_once (C := getPaginated 2) rfl (by decide)
    (.step (firstPage_reached Steady ⟨threeCosts, rfl⟩)
      (.request _ threeCosts rfl ⟨.refl _, by decide⟩ ⟨[(1, 10)], rfl⟩))

/-- A fourth cost comes in after the first page: the second cost is returned twice. -/
theorem second_cost_twice :
    ∃ s, Reach Prod.snd (getPaginated 2) (fun _ _ => True) threeCosts s ∧
      s.status = .returned ∧ (2, 20) ∈ threeCosts ∧ s.results.count (2, 20) = 2 := by
  have hfirst := firstPage_reached (fun _ _ => True) True.intro
  have hinsert := hfirst.step (.insert _ (4, 40) (by decide))
  have hsecond := hinsert.step
    (.request _ ((4, 40) :: threeCosts) rfl ⟨.refl _, by decide⟩ True.intro)
  have hthird := hsecond.step
    (.request _ ((4, 40) :: threeCosts) rfl ⟨.refl _, by decide⟩ True.intro)
  exact ⟨_, hthird, rfl, by decide, by decide⟩

end CanvasOS.Analytics
