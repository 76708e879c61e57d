/-
  Kahn's algorithm over a finite graph of dependencies.

  1. **The algorithm** (`Kahn.State`, `Kahn.relax`, `Kahn.run`) — in-degrees are the number of
     DISTINCT dependencies still unvisited; a node whose in-degree reaches zero goes on the stack.
  2. **What it computes** (`Kahn.Ordered`) — the visited nodes, newest first, each after all of its
     dependencies.
  3. **What that is good for** (`Kahn.induction`) — if every node was visited, a property that a node
     inherits from its dependencies holds of all nodes.
  4. **What it leaves over** (`Kahn.unvisited_iff`) — the nodes that lie on a cycle, or depend on one.
-/
import Mathlib.Data.Finset.Card
import Mathlib.Data.Fintype.EquivFin
import Mathlib.Data.List.Nodup
import Mathlib.Logic.Relation
import Mathlib.Order.WellFounded

namespace Kahn

variable {α : Type} [DecidableEq α]

/-! ## The algorithm -/

structure State (α : Type) where
  inDegree : α → Int
  queue : List α
  visited : List α

/-- `in_degree[x] -= 1`, and `x` is queued when that makes it zero. -/
def decrement (st : State α) (x : α) : State α :=
  let d := st.inDegree x - 1
  ⟨Function.update st.inDegree x d, if d = 0 then x :: st.queue else st.queue, st.visited⟩

/-- One turn of the loop: the popped node is visited, its dependents lose one unresolved
    dependency each. -/
def relax (nodes : List α) (deps : α → List α) (node : α) (rest : List α) (st : State α) :
    State α :=
  (nodes.filter fun x => node ∈ deps x).foldl decrement ⟨st.inDegree, rest, node :: st.visited⟩

/-- `while queue`, for at most `fuel` turns. -/
def run (nodes : List α) (deps : α → List α) : (fuel : Nat) → State α → State α
  | 0, st => st
  | fuel + 1, st =>
    match st.queue with
    | [] => st
    | node :: rest => run nodes deps fuel (relax nodes deps node rest st)

/-- Every node counts its distinct dependencies; those that have none are queued. -/
def start (nodes : List α) (deps : α → List α) : State α :=
  let inDegree (x : α) : Int := (deps x).toFinset.card
  ⟨inDegree, (nodes.filter fun x => inDegree x = 0).reverse, []⟩

/-- The nodes the algorithm visits, newest first.  A node is visited once, so there are no more
    turns than nodes (`queue_finish`). -/
def finish (nodes : List α) (deps : α → List α) : State α :=
  run nodes deps nodes.length (start nodes deps)

/-! ## Its invariant -/

/-- Each node of the list comes after (to the left of) all of its dependencies. -/
inductive Ordered (deps : α → List α) : List α → Prop where
  | nil : Ordered deps []
  | cons {x : α} {l : List α} (hx : ∀ d ∈ deps x, d ∈ l) (hl : Ordered deps l) :
      Ordered deps (x :: l)

/-- The dependencies of `x` that are not visited yet. -/
def unvisited (deps : α → List α) (visited : List α) (x : α) : Finset α :=
  (deps x).toFinset \ visited.toFinset

/-- The state within a turn, `todo` being the dependents that are still to be decremented. -/
structure Inv (nodes : List α) (deps : α → List α) (todo : List α) (st : State α) : Prop where
  covers : ∀ x, ((unvisited deps st.visited x).card : Int) + (if x ∈ todo then 1 else 0)
    ≤ st.inDegree x
  spent : ∀ x ∈ st.queue ++ st.visited, st.inDegree x ≤ 0
  nodup : (st.queue ++ st.visited).Nodup
  sub : ∀ x ∈ st.queue ++ st.visited, x ∈ nodes
  ordered : Ordered deps st.visited

variable {nodes : List α} {deps : α → List α} {st : State α}

/-- A node whose count is spent has all of its dependencies behind it. -/
theorem Inv.resolved {todo : List α} (h : Inv nodes deps todo st) {x : α}
    (hx : x ∈ st.queue ++ st.visited) : ∀ d ∈ deps x, d ∈ st.visited := by
  intro d hd
  have hle := h.covers x
  have hspent := h.spent x hx
  have hcard : (unvisited deps st.visited x).card = 0 := by
    split at hle <;> omega
  have hempty := Finset.card_eq_zero.1 hcard
  by_contra hv
  have hmem : d ∈ unvisited deps st.visited x := by
    simp [unvisited, hd, hv]
  rw [hempty] at hmem
  exact absurd hmem (Finset.notMem_empty d)

theorem Inv.decrement {todo : List α} {x : α} (h : Inv nodes deps (x :: todo) st) (hx : x ∉ todo)
    (hn : x ∈ nodes) : Inv nodes deps todo (decrement st x) := by
  have hcov : ((unvisited deps st.visited x).card : Int) + 1 ≤ st.inDegree x := by
    have h' := h.covers x
    rwa [if_pos List.mem_cons_self] at h'
  -- its count was not spent, so it has not been queued before
  have hfresh : x ∉ st.queue ++ st.visited := fun hq => by
    have := h.spent x hq
    omega
  have hcovers : ∀ y, ((unvisited deps st.visited y).card : Int) + (if y ∈ todo then 1 else 0)
      ≤ Function.update st.inDegree x (st.inDegree x - 1) y := by
    intro y
    by_cases hyx : y = x
    · subst hyx
      rw [Function.update_self, if_neg hx]
      omega
    · rw [Function.update_of_ne hyx]
      have h' := h.covers y
      simpa [List.mem_cons, hyx] using h'
  have hspent : ∀ y ∈ st.queue ++ st.visited,
      Function.update st.inDegree x (st.inDegree x - 1) y ≤ 0 := by
    intro y hy
    have hyx : y ≠ x := fun heq => hfresh (heq ▸ hy)
    rw [Function.update_of_ne hyx]
    exact h.spent y hy
  by_cases hd : st.inDegree x - 1 = 0
  · refine ⟨hcovers, ?_, ?_, ?_, h.ordered⟩
    · intro y hy
      simp only [Kahn.decrement, if_pos hd, List.cons_append, List.mem_cons] at hy ⊢
      rcases hy with rfl | hy
      · rw [Function.update_self, hd]
      · exact hspent y hy
    · simp only [Kahn.decrement, if_pos hd, List.cons_append]
      exact List.nodup_cons.2 ⟨hfresh, h.nodup⟩
    · intro y hy
      simp only [Kahn.decrement, if_pos hd, List.cons_append, List.mem_cons] at hy
      rcases hy with rfl | hy
      · exact hn
      · exact h.sub y hy
  · refine ⟨hcovers, ?_, ?_, ?_, h.ordered⟩
    · intro y hy
      simp only [Kahn.decrement, if_neg hd] at hy ⊢
      exact hspent y hy
    · simpa only [Kahn.decrement, if_neg hd] using h.nodup
    · intro y hy
      simp only [Kahn.decrement, if_neg hd] at hy
      exact h.sub y hy

/-- The dependents are decremented one after the other. -/
theorem Inv.foldl {todo : List α} (h : Inv nodes deps todo st) (hnodup : todo.Nodup)
    (hn : ∀ x ∈ todo, x ∈ nodes) : Inv nodes deps [] (todo.foldl Kahn.decrement st) := by
  induction todo generalizing st with
  | nil => exact h
  | cons x todo ih =>
    obtain ⟨hx, hnodup⟩ := List.nodup_cons.1 hnodup
    exact ih (h.decrement hx (hn x List.mem_cons_self)) hnodup fun y hy =>
      hn y (List.mem_cons_of_mem _ hy)

/-- Visiting a node resolves it for exactly its dependents. -/
theorem Inv.relax (hnodes : nodes.Nodup) {node : α} {rest : List α}
    (h : Inv nodes deps [] st) (hq : st.queue = node :: rest) :
    Inv nodes deps [] (relax nodes deps node rest st) := by
  have hnode : node ∈ st.queue ++ st.visited := by rw [hq]; simp
  have hnew : node ∉ st.visited := by
    have hnodup := h.nodup
    rw [hq, List.cons_append] at hnodup
    exact fun hv => (List.nodup_cons.1 hnodup).1 (List.mem_append_right _ hv)
  -- the same nodes are queued or visited as before
  have hperm : (rest ++ node :: st.visited).Perm (st.queue ++ st.visited) := by
    rw [hq]
    exact List.perm_middle
  have hstart : Inv nodes deps (nodes.filter fun x => node ∈ deps x)
      ⟨st.inDegree, rest, node :: st.visited⟩ := by
    refine ⟨fun x => ?_, fun x hx => h.spent x (hperm.mem_iff.1 hx), hperm.nodup_iff.2 h.nodup,
      fun x hx => h.sub x (hperm.mem_iff.1 hx), .cons (h.resolved hnode) h.ordered⟩
    have hcov := h.covers x
    rw [if_neg List.not_mem_nil] at hcov
    have heq : unvisited deps (node :: st.visited) x = (unvisited deps st.visited x).erase node := by
      rw [unvisited, unvisited, List.toFinset_cons, Finset.sdiff_insert]
    show ((unvisited deps (node :: st.visited) x).card : Int) + _ ≤ st.inDegree x
    by_cases hdep : node ∈ deps x
    · have hmem : node ∈ unvisited deps st.visited x := by
        simp [unvisited, hdep, hnew]
      have hcard := Finset.card_erase_of_mem hmem
      have hpos := Finset.card_pos.2 ⟨node, hmem⟩
      rw [heq, hcard]
      split <;> omega
    · have hmem : node ∉ unvisited deps st.visited x := by
        simp [unvisited, hdep]
      rw [heq, Finset.erase_eq_of_notMem hmem, if_neg (by simp [hdep])]
      omega
  exact hstart.foldl (hnodes.filter _) fun x hx => (List.mem_filter.1 hx).1

theorem Inv.run (hnodes : nodes.Nodup) (fuel : Nat) (h : Inv nodes deps [] st) :
    Inv nodes deps [] (run nodes deps fuel st) := by
  induction fuel generalizing st with
  | zero => exact h
  | succ fuel ih =>
    unfold Kahn.run
    split
    · exact h
    · exact ih (h.relax hnodes ‹_›)

theorem inv_start (hnodes : nodes.Nodup) : Inv nodes deps [] (start nodes deps) := by
  have hqueue : ∀ x, x ∈ (start nodes deps).queue ++ (start nodes deps).visited ↔
      x ∈ nodes ∧ (start nodes deps).inDegree x = 0 := by
    intro x
    simp [start]
  refine ⟨fun x => ?_, fun x hx => le_of_eq ((hqueue x).1 hx).2, ?_,
    fun x hx => ((hqueue x).1 hx).1, .nil⟩
  · simp [start, unvisited]
  · simp only [start, List.append_nil, List.nodup_reverse]
    exact hnodes.filter _

/-- The visited nodes come in order. -/
theorem ordered_finish (hnodes : nodes.Nodup) : Ordered deps (finish nodes deps).visited :=
  ((inv_start hnodes).run hnodes nodes.length).ordered

omit [DecidableEq α] in
theorem Ordered.induction {P : α → Prop} {l : List α} (hl : Ordered deps l)
    (hstep : ∀ x ∈ l, (∀ d ∈ deps x, P d) → P x) : ∀ x ∈ l, P x := by
  induction hl with
  | nil => exact fun x hx => absurd hx List.not_mem_nil
  | cons hx _ ih =>
    have hP := ih fun y hy => hstep y (List.mem_cons_of_mem _ hy)
    intro y hy
    rcases List.mem_cons.1 hy with rfl | hy
    · exact hstep y List.mem_cons_self fun d hd => hP d (hx d hd)
    · exact hP y hy

/-- When every node was visited, what a node inherits from its dependencies holds of all nodes. -/
theorem induction {P : α → Prop} (hnodes : nodes.Nodup)
    (hall : ∀ x ∈ nodes, x ∈ (finish nodes deps).visited)
    (hstep : ∀ x ∈ nodes, (∀ d ∈ deps x, P d) → P x) : ∀ x ∈ nodes, P x := by
  have hinv : Inv nodes deps [] (finish nodes deps) := (inv_start hnodes).run hnodes nodes.length
  refine fun x hx => (ordered_finish hnodes).induction (fun y hy => ?_) x (hall x hx)
  exact hstep y (hinv.sub y (List.mem_append_right _ hy))

/-! ## The loop ends -/

theorem visited_foldl (todo : List α) : (todo.foldl decrement st).visited = st.visited := by
  induction todo generalizing st with
  | nil => rfl
  | cons x todo ih => exact ih

theorem length_visited_run {fuel : Nat} (h : (run nodes deps fuel st).queue ≠ []) :
    (run nodes deps fuel st).visited.length = fuel + st.visited.length := by
  induction fuel generalizing st with
  | zero => rw [run, Nat.zero_add]
  | succ fuel ih =>
    unfold run at h ⊢
    split
    · rename_i hq
      rw [hq] at h
      exact absurd hq h
    · rename_i node rest hq
      rw [hq] at h
      rw [ih h, relax, visited_foldl, List.length_cons]
      omega

/-- The loop has run to its end: nothing is left on the queue. -/
theorem queue_finish (hnodes : nodes.Nodup) : (finish nodes deps).queue = [] := by
  by_contra hne
  have hlen := length_visited_run hne
  have hinv : Inv nodes deps [] (finish nodes deps) := (inv_start hnodes).run hnodes nodes.length
  have hle : ((finish nodes deps).queue ++ (finish nodes deps).visited).length ≤ nodes.length :=
    (hinv.nodup.subperm hinv.sub).length_le
  have hpos := List.length_pos_iff.2 hne
  rw [List.length_append] at hle
  change (finish nodes deps).visited.length = nodes.length + 0 at hlen
  omega

/-! ## What is left over -/

/-- `y` is one of the dependencies of `x`. -/
def DependsOn (deps : α → List α) (x y : α) : Prop := y ∈ deps x

/-- `x` lies on a cycle, or depends on what lies on one, through any number of others. -/
def ReachesCycle (deps : α → List α) (x : α) : Prop :=
  ∃ y, Relation.ReflTransGen (DependsOn deps) x y ∧ Relation.TransGen (DependsOn deps) y y

/-- The state within a turn: the counts are exact, and a node without any left has been queued. -/
structure Exact (nodes : List α) (deps : α → List α) (todo : List α) (st : State α) : Prop where
  counts : ∀ x ∈ nodes, st.inDegree x =
    ((unvisited deps st.visited x).card : Int) + (if x ∈ todo then 1 else 0)
  queued : ∀ x ∈ nodes, st.inDegree x = 0 → x ∈ st.queue ++ st.visited

theorem Exact.decrement {todo : List α} {x : α} (h : Exact nodes deps (x :: todo) st)
    (hx : x ∉ todo) : Exact nodes deps todo (decrement st x) := by
  constructor
  case counts =>
    intro y hy
    have hcount := h.counts y hy
    show Function.update st.inDegree x (st.inDegree x - 1) y = _
    by_cases hyx : y = x
    · subst hyx
      rw [Function.update_self, hcount, if_pos List.mem_cons_self, if_neg hx]
      show _ = ((unvisited deps st.visited y).card : Int) + 0
      omega
    · rw [Function.update_of_ne hyx, hcount]
      simp only [List.mem_cons, hyx, false_or]
      rfl
  case queued =>
    intro y hy hzero
    replace hzero : Function.update st.inDegree x (st.inDegree x - 1) y = 0 := hzero
    show y ∈ (if st.inDegree x - 1 = 0 then x :: st.queue else st.queue) ++ st.visited
    by_cases hyx : y = x
    · subst hyx
      rw [Function.update_self] at hzero
      rw [if_pos hzero]
      exact List.mem_append_left _ List.mem_cons_self
    · rw [Function.update_of_ne hyx] at hzero
      have hmem := h.queued y hy hzero
      split
      · exact List.mem_cons_of_mem _ hmem
      · exact hmem

/-- The dependents are decremented one after the other. -/
theorem Exact.foldl {todo : List α} (h : Exact nodes deps todo st) (hnodup : todo.Nodup) :
    Exact nodes deps [] (todo.foldl Kahn.decrement st) := by
  induction todo generalizing st with
  | nil => exact h
  | cons x todo ih =>
    obtain ⟨hx, hnodup⟩ := List.nodup_cons.1 hnodup
    exact ih (h.decrement hx) hnodup

/-- Visiting a node resolves one dependency of each of its dependents. -/
theorem Exact.relax (hnodes : nodes.Nodup) {node : α} {rest : List α}
    (h : Exact nodes deps [] st) (hinv : Inv nodes deps [] st) (hq : st.queue = node :: rest) :
    Exact nodes deps [] (relax nodes deps node rest st) := by
  have hnew : node ∉ st.visited := by
    have hnodup := hinv.nodup
    rw [hq, List.cons_append] at hnodup
    exact fun hv => (List.nodup_cons.1 hnodup).1 (List.mem_append_right _ hv)
  have hstart : Exact nodes deps (nodes.filter fun x => node ∈ deps x)
      ⟨st.inDegree, rest, node :: st.visited⟩ := by
    refine ⟨fun x hx => ?_, fun x hx hzero => ?_⟩
    · have hcount := h.counts x hx
      rw [if_neg List.not_mem_nil] at hcount
      have heq : unvisited deps (node :: st.visited) x = (unvisited deps st.visited x).erase node := by
        rw [unvisited, unvisited, List.toFinset_cons, Finset.sdiff_insert]
      show st.inDegree x = ((unvisited deps (node :: st.visited) x).card : Int) + _
      by_cases hdep : node ∈ deps x
      · have hmem : node ∈ unvisited deps st.visited x := by
          simp [unvisited, hdep, hnew]
        have hcard := Finset.card_erase_of_mem hmem
        have hpos := Finset.card_pos.2 ⟨node, hmem⟩
        rw [heq, hcard, if_pos (List.mem_filter.2 ⟨hx, by simpa using hdep⟩)]
        omega
      · have hmem : node ∉ unvisited deps st.visited x := by
          simp [unvisited, hdep]
        rw [heq, Finset.erase_eq_of_notMem hmem, if_neg (by simp [hdep])]
        omega
    · have hmem := h.queued x hx hzero
      rw [hq] at hmem
      exact List.perm_middle.mem_iff.2 hmem
  exact hstart.foldl (hnodes.filter _)

theorem Exact.run (hnodes : nodes.Nodup) (fuel : Nat) (h : Exact nodes deps [] st)
    (hinv : Inv nodes deps [] st) : Exact nodes deps [] (run nodes deps fuel st) := by
  induction fuel generalizing st with
  | zero => exact h
  | succ fuel ih =>
    unfold Kahn.run
    split
    · exact h
    · exact ih (h.relax hnodes hinv ‹_›) (hinv.relax hnodes ‹_›)

theorem exact_start : Exact nodes deps [] (start nodes deps) := by
  refine ⟨fun x _ => ?_, fun x hx hzero => ?_⟩
  · simp [start, unvisited]
  · replace hzero : (((deps x).toFinset.card : Nat) : Int) = 0 := hzero
    refine List.mem_append_left _ (List.mem_reverse.2 (List.mem_filter.2 ⟨hx, ?_⟩))
    exact decide_eq_true hzero

/-- A node that was not visited waits for another one. -/
theorem waits (hnodes : nodes.Nodup) {x : α} (hx : x ∈ nodes)
    (hleft : x ∉ (finish nodes deps).visited) :
    ∃ d ∈ deps x, d ∉ (finish nodes deps).visited := by
  have hexact : Exact nodes deps [] (finish nodes deps) :=
    exact_start.run hnodes nodes.length (inv_start hnodes)
  have hcount := hexact.counts x hx
  rw [if_neg List.not_mem_nil] at hcount
  have hne : (finish nodes deps).inDegree x ≠ 0 := by
    intro hzero
    have hmem := hexact.queued x hx hzero
    rw [queue_finish hnodes, List.nil_append] at hmem
    exact hleft hmem
  have hpos : 0 < (unvisited deps (finish nodes deps).visited x).card := by omega
  obtain ⟨d, hd⟩ := Finset.card_pos.1 hpos
  simp only [unvisited, Finset.mem_sdiff, List.mem_toFinset] at hd
  exact ⟨d, hd.1, hd.2⟩

omit [DecidableEq α] in
/-- No node of an ordered list reaches a cycle. -/
theorem Ordered.acyclic {l : List α} (hl : Ordered deps l) : ∀ x ∈ l, ¬ ReachesCycle deps x := by
  refine hl.induction fun x _ hdeps => ?_
  rintro ⟨y, hxy, hcycle⟩
  rcases hxy.cases_head with rfl | ⟨d, hd, hdy⟩
  · -- the first dependency on the cycle reaches it as well
    obtain ⟨d, hd, hdx⟩ := Relation.TransGen.head'_iff.1 hcycle
    exact hdeps d hd ⟨x, hdx, hcycle⟩
  · exact hdeps d hd ⟨y, hdy, hcycle⟩

/-- The nodes that are left over are those that reach a cycle. -/
theorem unvisited_iff (hnodes : nodes.Nodup) (hknown : ∀ x ∈ nodes, ∀ d ∈ deps x, d ∈ nodes) {x : α}
    (hx : x ∈ nodes) : x ∉ (finish nodes deps).visited ↔ ReachesCycle deps x := by
  constructor
  · intro hleft
    by_contra hnone
    -- what is left over and reached from `x`, ordered by dependency
    let Left := {y : nodes.toFinset //
      y.1 ∉ (finish nodes deps).visited ∧ Relation.ReflTransGen (DependsOn deps) x y.1}
    let below : Left → Left → Prop := fun a b => Relation.TransGen (DependsOn deps) b.1.1 a.1.1
    have htrans : IsTrans Left below := ⟨fun a b c hab hbc => hbc.trans hab⟩
    have hirrefl : Std.Irrefl below := ⟨fun a ha => hnone ⟨a.1.1, a.2.2, ha⟩⟩
    have hwf : WellFounded below := Finite.wellFounded_of_trans_of_irrefl below
    let first : Left := ⟨⟨x, List.mem_toFinset.2 hx⟩, hleft, .refl⟩
    obtain ⟨m, -, hmin⟩ := hwf.has_min Set.univ ⟨first, Set.mem_univ _⟩
    have hm : m.1.1 ∈ nodes := List.mem_toFinset.1 m.1.2
    obtain ⟨d, hd, hwaits⟩ := waits hnodes hm m.2.1
    let next : Left := ⟨⟨d, List.mem_toFinset.2 (hknown _ hm d hd)⟩, hwaits, m.2.2.tail hd⟩
    exact hmin next (Set.mem_univ _) (.single hd)
  · intro hreaches hvisited
    exact (ordered_finish hnodes).acyclic x hvisited hreaches

end Kahn
