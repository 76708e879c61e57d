/-
  The nearest ancestor with a result (`dispatch/lineage.py`).

  1. `dependencies`, `carried` — the graph that the rows of `task_state` make, and what the walk
     looks for in it.  A task without a row has neither.
  2. `walkLineage_completes_iff` — over tables that stay as they are, the walk is the breadth-first
     search (`Lib.BreadthFirst`) of that graph.
  3. `resolveLineageResultWithin_iff` — the walk spends its first hop on the task it starts from.
     So it misses an ancestor that is exactly `max_hops` away, and is right about all others.
-/
import CanvasOS.Lib.BreadthFirst
import CanvasOS.Lib.Solo
import CanvasOS.Orchestrator.Handlers
import CanvasOS.Orchestrator.Rows

namespace CanvasOS.Orchestrator

open Interleave BreadthFirst

/-- `resolve_lineage_result`, with the bound that it is given. -/
def resolveLineageResultWithin (maxHops : Nat) (taskId : TaskId) :
    Worker (Option (TaskRow × ResultRef)) :=
  walkLineage taskId maxHops [taskId] [taskId]

/-! ## The graph -/

variable {s : State}

/-- What a task depends on. -/
def dependencies (s : State) (taskId : TaskId) : List TaskId :=
  match s.find taskId with
  | some row => row.dependsOn
  | none => []

/-- The result an ancestor carries.  The task itself is none of its ancestors. -/
def carried (s : State) (start taskId : TaskId) : Option (TaskRow × ResultRef) :=
  if taskId = start then none
  else (s.find taskId).bind fun row => row.resultRef.map fun ref => (row, ref)

/-! ## One level -/

/-- The dependencies that join the next frontier. -/
theorem extendFrontier_eq (deps seen next : List TaskId) :
    extendFrontier deps seen next = ((fresh seen deps).reverse ++ seen, next ++ fresh seen deps) := by
  induction deps generalizing seen next with
  | nil => simp [extendFrontier, fresh]
  | cons dep deps ih =>
    have hcons : extendFrontier (dep :: deps) seen next =
        if dep ∈ seen then extendFrontier deps seen next
        else extendFrontier deps (dep :: seen) (next ++ [dep]) := by
      by_cases h : dep ∈ seen
      · simp [extendFrontier, h]
      · simp [extendFrontier, h]
    rw [hcons]
    by_cases h : dep ∈ seen
    · rw [if_pos h, fresh_cons_of_mem h, ih]
    · rw [if_neg h, fresh_cons_of_not_mem h, ih, List.reverse_cons]
      simp only [List.append_assoc, List.singleton_append]

/-- A level, read from the rows of its tasks: the first result of the frontier, or what is new
    behind it. -/
theorem scanFrontier_eq {start : TaskId} {rows : List TaskRow} {frontier seen next : List TaskId}
    (hrows : ∀ tid ∈ frontier, (rows.find? fun r => r.taskId == tid) = s.find tid) :
    scanFrontier start rows frontier seen next =
      match frontier.findSome? (carried s start) with
      | some found => .inl found
      | none =>
        let new := fresh seen (frontier.flatMap (dependencies s))
        .inr (new.reverse ++ seen, next ++ new) := by
  induction frontier generalizing seen next with
  | nil => simp [scanFrontier, fresh]
  | cons tid rest ih =>
    rw [List.forall_mem_cons] at hrows
    rw [scanFrontier, hrows.1, List.findSome?_cons, List.flatMap_cons]
    cases hfind : s.find tid with
    | none =>
      have hcarried : carried s start tid = none := by simp [carried, hfind]
      have hdeps : dependencies s tid = [] := by simp [dependencies, hfind]
      simp only [hcarried, hdeps, List.nil_append]
      exact ih hrows.2
    | some row =>
      have hdeps : dependencies s tid = row.dependsOn := by simp [dependencies, hfind]
      have hcarried : carried s start tid =
          (if tid = start then none else row.resultRef).map fun ref => (row, ref) := by
        unfold carried
        rw [hfind]
        split
        · rfl
        · rfl
      rw [hcarried]
      cases hresult : if tid = start then none else row.resultRef with
      | some ref => simp only [hresult, Option.map_some]
      | none =>
        simp only [hresult, Option.map_none, extendFrontier_eq, hdeps]
        rw [ih hrows.2, fresh_append]
        cases rest.findSome? (carried s start) with
        | some found => rfl
        | none => simp only [List.reverse_append, List.append_assoc]

/-- The rows that `get_tasks` answers with are the rows of the tables. -/
theorem find_selected {frontier : List TaskId} {rows : List TaskRow}
    (hids : (s.tasks.map (·.taskId)).Nodup)
    (h : selectsAll s.tasks (fun r => r.taskId ∈ frontier) rows = true) :
    ∀ tid ∈ frontier, (rows.find? fun r => r.taskId == tid) = s.find tid := by
  intro tid htid
  have hmem : ∀ r, r ∈ rows ↔ r ∈ s.tasks ∧ r.taskId ∈ frontier := fun r => by
    simpa using mem_selectsAll (r := r) h
  cases hfind : s.find tid with
  | none =>
    refine List.find?_eq_none.2 fun r hr heq => ?_
    exact find_none hfind r ((hmem r).1 hr).1 (by simpa using heq)
  | some row =>
    obtain ⟨hrow, hid⟩ := find_some hfind
    cases hfound : rows.find? fun r => r.taskId == tid with
    | none =>
      have hin : row ∈ rows := (hmem row).2 ⟨hrow, hid ▸ htid⟩
      exact absurd (by simpa using hid) (List.find?_eq_none.1 hfound row hin)
    | some r =>
      have hr : r.taskId = tid := by simpa using List.find?_some hfound
      have hin := ((hmem r).1 (List.mem_of_find?_eq_some hfound)).1
      rw [List.inj_on_of_nodup_map hids hin hrow (hr.trans hid.symm)]

/-! ## The walk -/

/-- How the statements of the worker are executed. -/
abbrev answered (o : Stmt) : o.Res → State → Option (o.Res × State) := exec o.query

/-- One level of the walk, from the rows that the query answered. -/
theorem level_completes_iff (hids : (s.tasks.map (·.taskId)).Nodup) {start : TaskId} {hops : Nat}
    {frontier seen : List TaskId} {found : Option (TaskRow × ResultRef)} {t : State}
    {rows : List TaskRow}
    (hrows : selectsAll s.tasks (fun r => r.taskId ∈ frontier) rows = true)
    (hrest : ∀ {frontier seen : List TaskId},
      Completes answered (walkLineage start hops frontier seen) s (.ok found) t ↔
        found = search (carried s start) (dependencies s) hops frontier seen ∧ t = s) :
    Completes answered (match scanFrontier start rows frontier seen [] with
        | .inl found => pure (some found)
        | .inr (seen, next) => walkLineage start hops next seen) s (.ok found) t ↔
      found = search (carried s start) (dependencies s) (hops + 1) frontier seen ∧ t = s := by
  rw [scanFrontier_eq (find_selected hids hrows), search]
  cases frontier.findSome? (carried s start) with
  | some x =>
    constructor
    · intro h
      obtain ⟨hfound, rfl⟩ := Completes.of_pure h
      exact ⟨Except.ok.inj hfound, rfl⟩
    · rintro ⟨rfl, rfl⟩
      exact .pure
  | none => exact hrest

/-- The walk ends in what the breadth-first search finds, and in nothing else. -/
theorem walkLineage_completes_iff (hids : (s.tasks.map (·.taskId)).Nodup) {start : TaskId}
    {hops : Nat} {frontier seen : List TaskId} {found : Option (TaskRow × ResultRef)} {t : State} :
    Completes answered (walkLineage start hops frontier seen) s (.ok found) t ↔
      found = search (carried s start) (dependencies s) hops frontier seen ∧ t = s := by
  induction hops generalizing frontier seen with
  | zero =>
    constructor
    · intro h
      obtain ⟨hfound, rfl⟩ := Completes.of_pure h
      exact ⟨Except.ok.inj hfound, rfl⟩
    · rintro ⟨rfl, rfl⟩
      exact .pure
  | succ hops ih =>
    by_cases hne : frontier = []
    · subst hne
      rw [search_nil]
      constructor
      · intro h
        obtain ⟨hfound, rfl⟩ := Completes.of_pure h
        exact ⟨Except.ok.inj hfound, rfl⟩
      · rintro ⟨rfl, rfl⟩
        exact .pure
    · unfold walkLineage
      rw [if_neg hne]
      constructor
      · intro h
        rcases Completes.of_op h with ⟨a, b, u, hx, h⟩ | ⟨e, h⟩ | ⟨a, b, e, u, hx, h⟩
        · change (if selectsAll s.tasks (fun r => r.taskId ∈ frontier) a then some (a, s)
            else none) = some (b, u) at hx
          split at hx
          · next hrows =>
            obtain ⟨rfl, rfl⟩ := Prod.mk.inj (Option.some.inj hx)
            exact (level_completes_iff hids hrows ih).1 h
          · cases hx
        -- a query that fails ends the walk
        · cases (Completes.of_throw h).1
        · cases (Completes.of_throw h).1
      · intro h
        have hrows : selectsAll s.tasks (fun r => r.taskId ∈ frontier)
            (s.tasks.filter fun r => r.taskId ∈ frontier) = true :=
          List.isPerm_iff.2 (.refl _)
        exact .ok (if_pos hrows) ((level_completes_iff hids hrows ih).2 h)

/-! ## What it promises -/

/-- The ancestors that are `d` hops away or nearer, in `depends_on` order. -/
def ancestors (s : State) (start : TaskId) (d : Nat) : List TaskId :=
  walks (dependencies s) start d

/-- No ancestor at that many hops carries a result. -/
def BareAt (s : State) (start : TaskId) (d : Nat) : Prop :=
  ∀ a ∈ ancestors s start d, carried s start a = none

/-- The nearest ancestor with a result, of those within `maxHops` hops: the first in `depends_on`
    order at the least distance; `None` where there is none. -/
def Nearest (s : State) (start : TaskId) (maxHops : Nat) : Option (TaskRow × ResultRef) → Prop
  | some found => ∃ d ≤ maxHops, (∀ k < d, BareAt s start k) ∧
      (ancestors s start d).findSome? (carried s start) = some found
  | none => ∀ d ≤ maxHops, BareAt s start d

/-- The nearest ancestor with a result is that many hops away. -/
def FirstAt (s : State) (start : TaskId) (d : Nat) : Prop :=
  (∀ k < d, BareAt s start k) ∧ ¬ BareAt s start d

theorem bareAt_iff {start : TaskId} {d : Nat} :
    BareAt s start d ↔ (ancestors s start d).findSome? (carried s start) = none :=
  List.findSome?_eq_none_iff.symm

/-- What the search of `maxHops` levels finds is the nearest of all that are nearer than that. -/
theorem nearest_search_iff {start : TaskId} {maxHops : Nat} :
    Nearest s start maxHops (search (carried s start) (dependencies s) maxHops [start] [start]) ↔
      ¬ FirstAt s start maxHops := by
  rw [BreadthFirst.search_eq]
  cases hfound : nearest (carried s start) (dependencies s) start maxHops with
  | some found =>
    obtain ⟨d, hd, hbefore, hat⟩ := nearest_eq_some_iff.1 hfound
    constructor
    · rintro - ⟨hbare, -⟩
      cases hat.symm.trans (bareAt_iff.1 (hbare d hd))
    · intro _
      exact ⟨d, Nat.le_of_lt hd, fun k hk => bareAt_iff.2 (hbefore k hk), hat⟩
  | none =>
    have hbefore : ∀ k < maxHops, BareAt s start k := fun k hk =>
      bareAt_iff.2 (nearest_eq_none_iff.1 hfound k hk)
    constructor
    · rintro hall ⟨-, hno⟩
      exact hno (hall maxHops (Nat.le_refl _))
    · intro hno d hd
      rcases Nat.lt_or_ge d maxHops with hlt | hge
      · exact hbefore d hlt
      · obtain rfl : d = maxHops := Nat.le_antisymm hd hge
        exact Classical.byContradiction fun h => hno ⟨hbefore, h⟩

/-- The walk ends, and however it ends it has the nearest ancestor with a result, exactly where that
    ancestor is not at the very bound. -/
theorem resolveLineageResultWithin_iff (hids : (s.tasks.map (·.taskId)).Nodup) (start : TaskId)
    (maxHops : Nat) :
    ((∃ found, Completes answered (resolveLineageResultWithin maxHops start) s (.ok found) s) ∧
      ∀ found t, Completes answered (resolveLineageResultWithin maxHops start) s (.ok found) t →
        Nearest s start maxHops found) ↔
    ¬ FirstAt s start maxHops := by
  rw [← nearest_search_iff]
  constructor
  · rintro ⟨⟨found, hends⟩, hnearest⟩
    have h := hnearest _ _ hends
    rwa [((walkLineage_completes_iff hids).1 hends).1] at h
  · intro h
    refine ⟨⟨_, (walkLineage_completes_iff hids).2 ⟨rfl, rfl⟩⟩, fun found t hends => ?_⟩
    rwa [((walkLineage_completes_iff hids).1 hends).1]

/-! ### A chain of tasks

    Each depends on the next, and only the last carries a result. -/

def stage (n : Nat) : TaskId := ⟨n, "stage"⟩

def stageRow (n : Nat) (dependsOn : List TaskId) (resultRef : Option ResultRef) : TaskRow :=
  ⟨stage n, "chain", "pass-through", .completed, 0, dependsOn, resultRef⟩

def chainTables : State :=
  { State.empty with tasks := [
    stageRow 0 [stage 1] none, stageRow 1 [stage 2] none, stageRow 2 [stage 3] none,
    stageRow 3 [stage 4] none, stageRow 4 [stage 5] none, stageRow 5 [stage 6] none,
    stageRow 6 [] (some [("brief", .str "b")])] }

theorem chain_nodup : (chainTables.tasks.map (·.taskId)).Nodup := by decide +kernel

/-- From the second task the result is five hops away. -/
theorem chain_found :
    ¬ FirstAt chainTables (stage 1) maxLineageHops ∧
      (∃ found, Completes answered (resolveLineageResultWithin maxLineageHops (stage 1)) chainTables
        (.ok found) chainTables) ∧
      ∀ found t, Completes answered (resolveLineageResultWithin maxLineageHops (stage 1))
        chainTables (.ok found) t → Nearest chainTables (stage 1) maxLineageHops found := by
  have hfirst : ¬ FirstAt chainTables (stage 1) maxLineageHops := by
    rintro ⟨hbare, -⟩
    have h : (carried chainTables (stage 1) (stage 6)).isSome = true := by decide +kernel
    rw [hbare 5 (by decide) (stage 6) (by decide +kernel)] at h
    cases h
  exact ⟨hfirst, (resolveLineageResultWithin_iff chain_nodup (stage 1) maxLineageHops).2 hfirst⟩

/-- From the first task it is six hops away, which is the bound, and the walk finds nothing. -/
theorem chain_missed :
    ¬ ∀ s : State, (s.tasks.map (·.taskId)).Nodup → ∀ start maxHops found t,
      Completes answered (resolveLineageResultWithin maxHops start) s (.ok found) t →
        Nearest s start maxHops found := by
  intro h
  have hends : Completes answered (resolveLineageResultWithin maxLineageHops (stage 0)) chainTables
      (.ok none) chainTables :=
    (walkLineage_completes_iff chain_nodup).2 ⟨by decide +kernel, rfl⟩
  have hbare := h _ chain_nodup _ _ _ _ hends 6 (by decide) (stage 6) (by decide +kernel)
  have hsome : (carried chainTables (stage 0) (stage 6)).isSome = true := by decide +kernel
  rw [hbare] at hsome
  cases hsome

end CanvasOS.Orchestrator
