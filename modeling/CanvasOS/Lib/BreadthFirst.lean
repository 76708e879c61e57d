/-
  Breadth-first search, level by level.

  1. `walks` — where the walks of a given length end, in the order of the successors: every node at
     that distance is among them, and so are nodes that are nearer.
  2. `fresh` — what of a list was not seen before, once each and in the order of the list.
  3. `search` — the levels without what was seen on an earlier one, up to the first that has a goal.
  4. `search_eq` — the search finds what a look at all walks finds.  The one invariant is
     `Level.closed`: what was seen before the frontier has all its successors among what is seen, so
     that a node that is left out loses nothing.
-/
import Mathlib.Data.List.Basic

namespace BreadthFirst

variable {α β : Type} {next : α → List α} {goal : α → Option β}

/-! ## What is to be found -/

/-- Where the walks of `k` steps from `a` end. -/
def walks (next : α → List α) (a : α) : (k : Nat) → List α
  | 0 => [a]
  | k + 1 => (walks next a k).flatMap next

/-- The first goal of the nearest level that has one, of the first `n` levels. -/
def nearest (goal : α → Option β) (next : α → List α) (a : α) (n : Nat) : Option β :=
  (List.range n).findSome? fun k => (walks next a k).findSome? goal

theorem nearest_succ (a : α) (n : Nat) :
    nearest goal next a (n + 1) =
      (nearest goal next a n).or ((walks next a n).findSome? goal) := by
  unfold nearest
  rw [List.range_succ, List.findSome?_append]
  simp

theorem nearest_eq_none_iff {a : α} {n : Nat} :
    nearest goal next a n = none ↔ ∀ k < n, (walks next a k).findSome? goal = none := by
  unfold nearest
  rw [List.findSome?_eq_none_iff]
  simp only [List.mem_range]

/-- It is on some level, and no level before has a goal. -/
theorem nearest_eq_some_iff {a : α} {n : Nat} {b : β} :
    nearest goal next a n = some b ↔
      ∃ d < n, (∀ k < d, (walks next a k).findSome? goal = none) ∧
        (walks next a d).findSome? goal = some b := by
  induction n with
  | zero => simp [nearest]
  | succ n ih =>
    rw [nearest_succ, Option.or_eq_some_iff, ih, nearest_eq_none_iff]
    constructor
    · rintro (⟨d, hd, hbefore, hfound⟩ | ⟨hbefore, hfound⟩)
      · exact ⟨d, by omega, hbefore, hfound⟩
      · exact ⟨n, by omega, hbefore, hfound⟩
    · rintro ⟨d, hd, hbefore, hfound⟩
      rcases Nat.lt_or_ge d n with hlt | hge
      · exact .inl ⟨d, hlt, hbefore, hfound⟩
      · obtain rfl : d = n := by omega
        exact .inr ⟨hbefore, hfound⟩

variable [DecidableEq α]

/-! ## What was not seen before -/

/-- The members of `l` that are not in `seen`, where they first stand. -/
def fresh (seen : List α) : List α → List α
  | [] => []
  | a :: l => if a ∈ seen then fresh seen l else a :: fresh (a :: seen) l

variable {seen old l m : List α}

theorem fresh_cons_of_mem {a : α} (h : a ∈ seen) : fresh seen (a :: l) = fresh seen l := if_pos h

theorem fresh_cons_of_not_mem {a : α} (h : a ∉ seen) :
    fresh seen (a :: l) = a :: fresh (a :: seen) l :=
  if_neg h

theorem mem_fresh {a : α} : a ∈ fresh seen l ↔ a ∈ l ∧ a ∉ seen := by
  induction l generalizing seen with
  | nil => simp [fresh]
  | cons b l ih =>
    unfold fresh
    split
    · next hb =>
      rw [ih, List.mem_cons]
      constructor
      · exact fun h => ⟨.inr h.1, h.2⟩
      · rintro ⟨rfl | h, hno⟩
        · exact absurd hb hno
        · exact ⟨h, hno⟩
    · next hb =>
      rw [List.mem_cons, List.mem_cons, ih, List.mem_cons]
      by_cases hab : a = b
      · simp [hab, hb]
      · simp [hab]

theorem fresh_append :
    fresh seen (l ++ m) = fresh seen l ++ fresh ((fresh seen l).reverse ++ seen) m := by
  induction l generalizing seen with
  | nil => rfl
  | cons a l ih =>
    rw [List.cons_append]
    by_cases ha : a ∈ seen
    · rw [fresh_cons_of_mem ha, fresh_cons_of_mem ha, ih]
    · rw [fresh_cons_of_not_mem ha, fresh_cons_of_not_mem ha, ih, List.reverse_cons,
        List.append_assoc, List.cons_append]
      rfl

theorem fresh_eq_nil (h : ∀ a ∈ l, a ∈ seen) : fresh seen l = [] :=
  List.eq_nil_iff_forall_not_mem.2 fun a ha => (mem_fresh.1 ha).2 (h a (mem_fresh.1 ha).1)

/-- A search through a list loses nothing when what was searched before is left out. -/
theorem findSome?_fresh (h : ∀ a ∈ seen, goal a = none) :
    (fresh seen l).findSome? goal = l.findSome? goal := by
  induction l generalizing seen with
  | nil => rfl
  | cons a l ih =>
    unfold fresh
    rw [List.findSome?_cons]
    split
    · next ha => rw [ih h, h a ha]
    · rw [List.findSome?_cons]
      cases hgoal : goal a with
      | some b => rfl
      | none =>
        refine ih fun c hc => ?_
        rcases List.mem_cons.1 hc with rfl | hc
        · exact hgoal
        · exact h c hc

/-- The new successors of a list are those of its new members, where the successors of the old ones
    were seen. -/
theorem fresh_flatMap_fresh (h : ∀ a ∈ old, ∀ b ∈ next a, b ∈ seen) :
    fresh seen ((fresh old l).flatMap next) = fresh seen (l.flatMap next) := by
  induction l generalizing old seen with
  | nil => rfl
  | cons a l ih =>
    rw [List.flatMap_cons, fresh_append]
    by_cases ha : a ∈ old
    · rw [fresh_cons_of_mem ha, ih h, fresh_eq_nil (h a ha)]
      rfl
    · rw [fresh_cons_of_not_mem ha, List.flatMap_cons, fresh_append]
      congr 1
      refine ih fun c hc b hb => List.mem_append.2 ?_
      rcases List.mem_cons.1 hc with rfl | hc
      · by_cases hseen : b ∈ seen
        · exact .inr hseen
        · exact .inl (List.mem_reverse.2 (mem_fresh.2 ⟨hb, hseen⟩))
      · exact .inr (h c hc b hb)

/-! ## The search -/

/-- Up to `n` levels, of which the first is `frontier`. -/
def search (goal : α → Option β) (next : α → List α) :
    (n : Nat) → (frontier seen : List α) → Option β
  | 0, _, _ => none
  | n + 1, frontier, seen =>
    match frontier.findSome? goal with
    | some b => some b
    | none =>
      let found := fresh seen (frontier.flatMap next)
      search goal next n found (found.reverse ++ seen)

/-- An empty frontier stays empty. -/
theorem search_nil (n : Nat) : search goal next n [] seen = none := by
  induction n generalizing seen with
  | zero => rfl
  | succ n ih => exact ih

/-- The search stands before level `k`, and `old` was seen before its frontier was. -/
structure Level (next : α → List α) (a : α) (k : Nat) (frontier seen old : List α) : Prop where
  new : frontier = fresh old (walks next a k)
  all : seen = frontier.reverse ++ old
  closed : ∀ c ∈ old, ∀ b ∈ next c, b ∈ seen

namespace Level

variable {a : α} {k : Nat} {frontier : List α}

theorem first (a : α) : Level next a 0 [a] [a] [] :=
  ⟨by simp [walks, fresh], rfl, fun _ hc => nomatch hc⟩

/-- The step to the next level. -/
theorem succ (h : Level next a k frontier seen old) :
    Level next a (k + 1) (fresh seen (frontier.flatMap next))
      ((fresh seen (frontier.flatMap next)).reverse ++ seen) seen := by
  refine ⟨?_, rfl, fun c hc b hb => List.mem_append.2 ?_⟩
  · rw [h.new, fresh_flatMap_fresh h.closed]
    rfl
  · by_cases hseen : b ∈ seen
    · exact .inr hseen
    · rw [h.all] at hc
      rcases List.mem_append.1 hc with hc | hc
      · have hsucc : b ∈ frontier.flatMap next :=
          List.mem_flatMap.2 ⟨c, List.mem_reverse.1 hc, hb⟩
        exact .inl (List.mem_reverse.2 (mem_fresh.2 ⟨hsucc, hseen⟩))
      · exact absurd (h.closed c hc b hb) hseen

/-- From a level on, the search finds the first goal of the levels to come. -/
theorem search_eq {n : Nat} (h : Level next a k frontier seen old)
    (hold : ∀ c ∈ old, goal c = none) :
    search goal next n frontier seen =
      (List.range n).findSome? fun d => (walks next a (k + d)).findSome? goal := by
  induction n generalizing k frontier seen old with
  | zero => rfl
  | succ n ih =>
    have hlevel : frontier.findSome? goal = (walks next a (k + 0)).findSome? goal := by
      rw [h.new, findSome?_fresh hold]
      rfl
    rw [List.range_succ_eq_map, List.findSome?_cons, List.findSome?_map, search, ← hlevel]
    cases hgoal : frontier.findSome? goal with
    | some b => rfl
    | none =>
      have hseen : ∀ c ∈ seen, goal c = none := by
        intro c hc
        rw [h.all] at hc
        rcases List.mem_append.1 hc with hc | hc
        · exact List.findSome?_eq_none_iff.1 hgoal c (List.mem_reverse.1 hc)
        · exact hold c hc
      have hshift : ∀ d, k + 1 + d = k + d.succ := by omega
      show search goal next n _ _ = _
      rw [ih h.succ hseen]
      simp only [hshift]
      rfl

end Level

/-- The search with a list of what was seen finds the nearest goal. -/
theorem search_eq (a : α) (n : Nat) :
    search goal next n [a] [a] = nearest goal next a n := by
  rw [(Level.first a).search_eq fun _ hc => nomatch hc]
  simp only [Nat.zero_add, nearest]

end BreadthFirst
