/-
  What `reconcile_violations` owes its callers, and when it pays.

  1. `Contradicted` — the codes that the deterministic rules contradict for a text.
  2. `dropContradicted` — one rule takes one occurrence of its code from the list and reports it;
     everything else stays where it is.
  3. `reconcile_iff` — no contradicted code is left, and a second run changes nothing, exactly where
     the model gave each contradicted code once at most.
-/
import CanvasOS.Review.Checks

namespace CanvasOS.Review

open Python

variable {U : Unicode} {text code : String} {found : List String} {violations : List Json}
  {x : List Json × List Json} {c : Json}

/-! ## The purpose -/

/-- The deterministic rules contradict the code for the text. -/
def Contradicted (U : Unicode) (text : String) (c : Json) : Prop :=
  (c = .str saSpellingViolation ∧ hasUsSpelling U text = []) ∨
    (c = .str unsupportedClaimViolation ∧ hasUnsupportedClaim U text = [])

instance : DecidablePred (Contradicted U text) := fun _ => inferInstanceAs (Decidable (_ ∨ _))

/-- The contradicted codes are dropped, and nothing else. -/
structure DropsExactly (U : Unicode) (text : String) (violations : List Json) : Prop where
  /-- no contradicted code is left -/
  gone : ∀ c, Contradicted U text c → c ∉ (reconcileViolations U violations text).1
  /-- the other entries survive in order and with their multiplicities -/
  kept : (reconcileViolations U violations text).1.filter (fun c => ¬ Contradicted U text c) =
    violations.filter fun c => ¬ Contradicted U text c
  /-- `dropped` lists what was removed -/
  listed : ((reconcileViolations U violations text).2 ++
    (reconcileViolations U violations text).1).Perm violations
  /-- a second run changes nothing -/
  again : reconcileViolations U (reconcileViolations U violations text).1 text =
    ((reconcileViolations U violations text).1, [])

/-! ## One rule -/

/-- Nothing is lost between the list and the report. -/
theorem dropContradicted_perm :
    ((dropContradicted code found x).2 ++ (dropContradicted code found x).1).Perm (x.2 ++ x.1) := by
  unfold dropContradicted
  split
  · next h =>
    have herase := List.perm_cons_erase h.1
    rw [List.append_assoc, List.singleton_append]
    exact herase.symm.append_left x.2
  · exact List.Perm.refl _

/-- A rule counts its own code down by one, where it contradicts it, and no other. -/
theorem count_dropContradicted : (dropContradicted code found x).1.count c =
    x.1.count c - if c = .str code ∧ found = [] then 1 else 0 := by
  unfold dropContradicted
  by_cases hc : c = .str code
  · subst hc
    by_cases hfound : found = []
    · by_cases hmem : .str code ∈ x.1
      · simp [hfound, hmem]
      · simp [hfound, hmem, List.count_eq_zero_of_not_mem hmem]
    · simp [hfound]
  · have hne : Json.str code ≠ c := fun h => hc h.symm
    split
    · simp [hc, List.count_erase_of_ne hc]
    · simp [hc]

/-- What a predicate that the rule's code does not meet selects, the rule leaves alone. -/
theorem filter_dropContradicted {p : Json → Bool} (hp : found = [] → p (.str code) = false) :
    (dropContradicted code found x).1.filter p = x.1.filter p := by
  unfold dropContradicted
  split
  · next h =>
    have hout : .str code ∉ x.1.filter p := fun hmem => by
      have htrue : p (.str code) = true := (List.mem_filter.1 hmem).2
      rw [hp h.2] at htrue
      cases htrue
    rw [← List.erase_filter, List.erase_of_not_mem hout]
  · rfl

/-- A rule that finds no occurrence to drop leaves the pair as it is. -/
theorem dropContradicted_of_count (h : found = [] → x.1.count (.str code) = 0) :
    dropContradicted code found x = x := by
  unfold dropContradicted
  split
  · next hdrop => exact absurd hdrop.1 (List.count_eq_zero.1 (h hdrop.2))
  · rfl

/-! ## Both rules -/

/-- The two rules are about different codes. -/
theorem violations_ne : saSpellingViolation ≠ unsupportedClaimViolation := by decide

/-- Reconciliation counts each contradicted code down by one. -/
theorem count_reconcile : (reconcileViolations U violations text).1.count c =
    violations.count c - if Contradicted U text c then 1 else 0 := by
  unfold reconcileViolations
  rw [count_dropContradicted, count_dropContradicted]
  by_cases hsa : c = .str saSpellingViolation
  · subst hsa
    simp [Contradicted, violations_ne]
  · simp [Contradicted, hsa]

theorem kept_reconcile : (reconcileViolations U violations text).1.filter
      (fun c => ¬ Contradicted U text c) = violations.filter fun c => ¬ Contradicted U text c := by
  unfold reconcileViolations
  rw [filter_dropContradicted fun h => by simp [Contradicted, h],
    filter_dropContradicted fun h => by simp [Contradicted, h]]

theorem listed_reconcile : ((reconcileViolations U violations text).2 ++
    (reconcileViolations U violations text).1).Perm violations :=
  dropContradicted_perm.trans dropContradicted_perm

/-- Where no contradicted code is left there is nothing to reconcile. -/
theorem reconcile_of_gone (h : ∀ c, Contradicted U text c → violations.count c = 0) :
    reconcileViolations U violations text = (violations, []) := by
  unfold reconcileViolations
  rw [dropContradicted_of_count, dropContradicted_of_count]
  · exact fun hfound => h _ (.inl ⟨rfl, hfound⟩)
  · rw [dropContradicted_of_count fun hfound => h _ (.inl ⟨rfl, hfound⟩)]
    exact fun hfound => h _ (.inr ⟨rfl, hfound⟩)

/-- Reconciliation drops exactly the contradicted codes where each of them was given once at most:
    `list.remove` takes the first occurrence only. -/
theorem reconcile_iff : DropsExactly U text violations ↔
    ∀ c, Contradicted U text c → violations.count c ≤ 1 := by
  constructor
  · intro h c hc
    have hgone := List.count_eq_zero.2 (h.gone c hc)
    rw [count_reconcile, if_pos hc] at hgone
    omega
  · intro h
    have hzero : ∀ c, Contradicted U text c →
        (reconcileViolations U violations text).1.count c = 0 := by
      intro c hc
      rw [count_reconcile, if_pos hc]
      have hone := h c hc
      omega
    exact {
      gone := fun c hc => List.count_eq_zero.1 (hzero c hc)
      kept := kept_reconcile
      listed := listed_reconcile
      again := reconcile_of_gone hzero }

/-- A model that gives `sa-english-spelling` twice for a text in South African English leaves the
    draft with the code, and a second run would drop it. -/
theorem repeated_code_survives :
    ¬ DropsExactly Unicode.ascii "We organise reviews."
      [.str saSpellingViolation, .str saSpellingViolation] := by
  intro h
  have hcontradicted : Contradicted Unicode.ascii "We organise reviews."
      (.str saSpellingViolation) := by decide +kernel
  exact h.gone _ hcontradicted (by decide +kernel)

end CanvasOS.Review
