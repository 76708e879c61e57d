/-
  What a dead task takes down with it (`dead_letter_routing._downstream`), and the run a task is of
  (`run_state._collect_lineage`).

  Both walk the graph that the `depends_on` of the rows make, one forwards and with a stack, the
  other backwards and level by level.

  1. `Returns` — what a routine that only reads returns, whatever order the rows come in.
  2. `blockedBy` — the tasks that can be reached through `depends_on` reversed.
     `Walked` is the invariant of the stack; its `closed` says that what is seen and no longer on
     the stack has all its dependents among what is seen.
  3. `Collected` — the invariant of the levels: a dependency of what is collected is collected, or
     on the frontier, or has no row.
  4. `walks_count_once` — each task is counted once.
-/
import CanvasOS.Lib.Dict
import CanvasOS.Orchestrator.Lineage
import Mathlib.Data.Set.Card

namespace CanvasOS.Orchestrator

open Interleave BreadthFirst

/-! ## The walks -/

/-- `_MAX_DOWNSTREAM` -/
def maxDownstream : Nat := 500

/-- The locals of `_downstream`.  The stack has its top at the left. -/
structure Downstream where
  seen : List TaskId
  frontier : List TaskId
  types : Dict String Nat

/-- The body of its inner loop. -/
def Downstream.absorb (d : Downstream) (dependent : TaskRow) : Downstream :=
  if dependent.taskId ∈ d.seen then d
  else ⟨dependent.taskId :: d.seen, dependent.taskId :: d.frontier, d.types.bump dependent.taskType⟩

/-- What is put on the stack was not seen before. -/
theorem Downstream.absorb_length (d : Downstream) (rows : List TaskRow) :
    ∃ n, (rows.foldl absorb d).seen.length = d.seen.length + n ∧
      (rows.foldl absorb d).frontier.length = d.frontier.length + n := by
  induction rows generalizing d with
  | nil => exact ⟨0, rfl, rfl⟩
  | cons row rows ih =>
    obtain ⟨n, hseen, hfrontier⟩ := ih (d.absorb row)
    rw [List.foldl_cons, hseen, hfrontier]
    unfold absorb
    split
    · exact ⟨n, rfl, rfl⟩
    · refine ⟨n + 1, ?_, ?_⟩
      · show d.seen.length + 1 + n = _
        omega
      · show d.frontier.length + 1 + n = _
        omega

/-- The outer loop of `_downstream`. -/
def downstreamLoop (d : Downstream) : Worker (Nat × Dict String Nat) :=
  match hd : d.frontier with
  | [] => pure (d.seen.length - 1, d.types)
  | current :: rest =>
    if d.seen.length - 1 < maxDownstream then do
      let rows ← call .alert (.findDependentTasks current)
      downstreamLoop (rows.foldl Downstream.absorb { d with frontier := rest })
    else pure (d.seen.length - 1, d.types)
termination_by (maxDownstream + 1 - d.seen.length, d.frontier.length)
decreasing_by
  obtain ⟨n, hseen, hfrontier⟩ := Downstream.absorb_length { d with frontier := rest } rows
  rw [hseen, hfrontier, hd]
  rcases Nat.eq_zero_or_pos n with rfl | hn
  · refine Prod.Lex.right _ ?_
    show rest.length + 0 < rest.length + 1
    omega
  · refine Prod.Lex.left _ _ ?_
    show maxDownstream + 1 - (d.seen.length + n) < maxDownstream + 1 - d.seen.length
    omega

/-- `_downstream` -/
def downstream (taskId : TaskId) : Worker (Nat × Dict String Nat) :=
  downstreamLoop ⟨[taskId], [taskId], Dict.empty⟩

/-- `MAX_LINEAGE_HOPS` -/
def maxCollectHops : Nat := 20

/-- What the rows of one level add: to what is collected, and to the next frontier. -/
def collectRows (rows : List TaskRow) (collected : Dict TaskId TaskRow) :
    List TaskId × Dict TaskId TaskRow :=
  rows.foldl (fun (next, collected) row =>
    let collected := collected.set row.taskId row
    (next ++ row.dependsOn.filter fun dep => (collected.get? dep).isNone, collected))
    ([], collected)

/-- The levels of `_collect_lineage`. -/
def collectLevels (site : Site) : (hops : Nat) → (frontier : List TaskId) →
    Dict TaskId TaskRow → Worker (Dict TaskId TaskRow)
  | 0, _, collected => pure collected
  | hops + 1, frontier, collected =>
    if frontier = [] then pure collected
    else
      let toFetch := frontier.filter fun tid => (collected.get? tid).isNone
      if toFetch = [] then pure collected
      else do
        let rows ← call site (.getTasks toFetch)
        let (next, collected) := collectRows rows collected
        collectLevels site hops next collected

/-- `_collect_lineage`.  It is the API that calls it, which is no site of the worker's. -/
def collectLineage (site : Site) (taskRef : TaskId) (maxHops : Nat) : Worker (List TaskRow) := do
  match ← call site (.getTask taskRef) with
  | none => pure []
  | some root =>
    let collected ← collectLevels site maxHops root.dependsOn (Dict.empty.set taskRef root)
    pure (collected.items.map Prod.snd)

/-! ## Routines that only read -/

section Reading

variable {s : State} {α β : Type} {Q : α → Prop} {R : β → Prop}

/-- Over tables that stay as they are, the routine can end, and whenever it ends what it returns is
    in `Q`. -/
def Returns (s : State) (p : Worker α) (Q : α → Prop) : Prop :=
  (∃ out, Completes answered p s (.ok out) s) ∧
    ∀ out t, Completes answered p s (.ok out) t → Q out ∧ t = s

theorem Returns.pure {a : α} (h : Q a) : Returns s (pure a) Q := by
  refine ⟨⟨a, .pure⟩, fun out t hends => ?_⟩
  obtain ⟨heq, rfl⟩ := Completes.of_pure hends
  exact ⟨Except.ok.inj heq ▸ h, rfl⟩

theorem Returns.bind {p : Worker α} {f : α → Worker β} (hp : Returns s p Q)
    (hf : ∀ a, Q a → Returns s (f a) R) : Returns s (p >>= f) R := by
  obtain ⟨⟨a, ha⟩, hall⟩ := hp
  obtain ⟨⟨b, hb⟩, -⟩ := hf a (hall a s ha).1
  refine ⟨⟨b, ha.bind hb⟩, fun out t hends => ?_⟩
  rcases Completes.of_bind hends with ⟨a', u, ha', hend⟩ | ⟨e, he, -⟩
  · obtain ⟨hq, rfl⟩ := hall a' u ha'
    exact (hf a' hq).2 out t hend
  · cases he

/-- One statement that has an answer and changes nothing. -/
theorem Returns.call {site : Site} {q : Query} {Q : q.Res → Prop}
    (hanswer : ∃ a b, exec q a s = some (b, s))
    (hall : ∀ a b t, exec q a s = some (b, t) → Q b ∧ t = s) : Returns s (call site q) Q := by
  obtain ⟨a, b, hab⟩ := hanswer
  refine ⟨⟨b, .ok hab (.refl _ _)⟩, fun out t hends => ?_⟩
  rcases Completes.of_op hends with ⟨a, b, u, hx, h⟩ | ⟨e, h⟩ | ⟨a, b, e, u, hx, h⟩
  · obtain ⟨heq, rfl⟩ := Completes.of_pure h
    exact Except.ok.inj heq ▸ hall a b t hx
  · cases (Completes.of_throw h).1
  · cases (Completes.of_throw h).1

theorem selectsAll_filter (rows : List TaskRow) (p : TaskRow → Bool) :
    selectsAll rows p (rows.filter p) = true := List.isPerm_iff.2 (.refl _)

theorem returns_findDependentTasks (site : Site) (taskId : TaskId) :
    Returns s (Orchestrator.call site (.findDependentTasks taskId)) fun rows =>
      ∀ row, row ∈ rows ↔ row ∈ s.tasks ∧ taskId ∈ row.dependsOn := by
  refine Returns.call ⟨_, _, if_pos (selectsAll_filter _ _)⟩ fun a b t h => ?_
  change (if selectsAll s.tasks (fun r => taskId ∈ r.dependsOn) a then some (a, s)
    else none) = some (b, t) at h
  split at h
  next hrows =>
    obtain ⟨rfl, rfl⟩ := Prod.mk.inj (Option.some.inj h)
    exact ⟨fun row => by simpa using mem_selectsAll hrows, rfl⟩
  next => cases h

theorem returns_getTasks (site : Site) (taskIds : List TaskId) :
    Returns s (Orchestrator.call site (.getTasks taskIds)) fun rows =>
      ∀ row, row ∈ rows ↔ row ∈ s.tasks ∧ row.taskId ∈ taskIds := by
  refine Returns.call ⟨_, _, if_pos (selectsAll_filter _ _)⟩ fun a b t h => ?_
  change (if selectsAll s.tasks (fun r => r.taskId ∈ taskIds) a then some (a, s)
    else none) = some (b, t) at h
  split at h
  next hrows =>
    obtain ⟨rfl, rfl⟩ := Prod.mk.inj (Option.some.inj h)
    exact ⟨fun row => by simpa using mem_selectsAll hrows, rfl⟩
  next => cases h

theorem returns_getTask (site : Site) (taskId : TaskId) :
    Returns s (Orchestrator.call site (.getTask taskId)) fun row => row = s.find taskId := by
  refine Returns.call ⟨none, s.find taskId, rfl⟩ fun a b t h => ?_
  obtain ⟨rfl, rfl⟩ := Prod.mk.inj (Option.some.inj h)
  exact ⟨rfl, rfl⟩

end Reading

/-! ## The tasks that a dead one blocks -/

section Blocked

variable {s : State} {start t : TaskId} {d : Downstream}

/-- `t` depends on `a`. -/
def DependsOn (s : State) (a t : TaskId) : Prop :=
  ∃ row ∈ s.tasks, row.taskId = t ∧ a ∈ row.dependsOn

/-- The tasks that can be reached from `start` through `depends_on` reversed, without `start`. -/
def blockedBy (s : State) (start : TaskId) : Set TaskId :=
  {t | t ≠ start ∧ Relation.ReflTransGen (DependsOn s) start t}

/-- Of these, the ones of one `task_type`. -/
def blockedOf (s : State) (start : TaskId) (taskType : String) : Set TaskId :=
  {t | t ∈ blockedBy s start ∧ ∃ row ∈ s.tasks, row.taskId = t ∧ row.taskType = taskType}

/-- A task of that `task_type`. -/
def isOf (s : State) (taskType : String) (t : TaskId) : Bool :=
  s.tasks.any fun row => row.taskId = t ∧ row.taskType = taskType

/-- What holds whenever the walk looks at its stack.  `current` is the task that is being left:
    those of its dependents that are in `rows` are still to be looked at. -/
structure Walked (s : State) (start : TaskId) (current : Option TaskId) (rows : List TaskRow)
    (d : Downstream) : Prop where
  nodup : d.seen.Nodup
  started : start ∈ d.seen
  reached : ∀ t ∈ d.seen, Relation.ReflTransGen (DependsOn s) start t
  stacked : ∀ t ∈ d.frontier, t ∈ d.seen
  closed : ∀ a ∈ d.seen, a ∉ d.frontier → ∀ t, DependsOn s a t →
    t ∈ d.seen ∨ some a = current ∧ t ∈ rows.map TaskRow.taskId
  total : d.types.total + 1 = d.seen.length
  ofType : ∀ taskType, (d.types.get? taskType).getD 0 =
    d.seen.countP fun t => t ≠ start && isOf s taskType t

theorem walked_first (s : State) (start : TaskId) :
    Walked s start none [] ⟨[start], [start], Dict.empty⟩ where
  nodup := List.nodup_singleton start
  started := List.mem_singleton_self start
  reached t ht := List.mem_singleton.1 ht ▸ .refl
  stacked _ ht := ht
  closed a ha hout := absurd ha hout
  total := rfl
  ofType taskType := by simp [Dict.get?_empty]

/-- The `task_type` of a row is the one of its task. -/
theorem isOf_eq (hids : (s.tasks.map (·.taskId)).Nodup) {row : TaskRow} (hrow : row ∈ s.tasks)
    (taskType : String) : isOf s taskType row.taskId = decide (taskType = row.taskType) := by
  rw [Bool.eq_iff_iff, decide_eq_true_iff]
  unfold isOf
  rw [List.any_eq_true]
  constructor
  · rintro ⟨row', hrow', heq⟩
    obtain ⟨hid, rfl⟩ := of_decide_eq_true heq
    rw [List.inj_on_of_nodup_map hids hrow' hrow hid]
  · rintro rfl
    exact ⟨row, hrow, decide_eq_true ⟨rfl, rfl⟩⟩

/-- One dependent is looked at. -/
theorem Walked.absorb (hids : (s.tasks.map (·.taskId)).Nodup) {current : TaskId} {row : TaskRow}
    {rows : List TaskRow} (hrow : row ∈ s.tasks) (hdep : current ∈ row.dependsOn)
    (hcurrent : current ∈ d.seen) (h : Walked s start (some current) (row :: rows) d) :
    Walked s start (some current) rows (d.absorb row) := by
  unfold Downstream.absorb
  split
  next hin =>
    refine { h with closed := fun a ha hout t hat => ?_ }
    rcases h.closed a ha hout t hat with ht | ⟨hcur, ht⟩
    · exact Or.inl ht
    · rcases List.mem_cons.1 ht with rfl | ht
      · exact Or.inl hin
      · exact Or.inr ⟨hcur, ht⟩
  next hout =>
    have hne : row.taskId ≠ start := fun heq => hout (heq ▸ h.started)
    constructor
    case nodup => exact List.nodup_cons.2 ⟨hout, h.nodup⟩
    case started => exact List.mem_cons_of_mem _ h.started
    case reached =>
      intro t ht
      rcases List.mem_cons.1 ht with rfl | ht
      · exact (h.reached current hcurrent).tail ⟨row, hrow, rfl, hdep⟩
      · exact h.reached t ht
    case stacked =>
      intro t ht
      exact (List.mem_cons.1 ht).elim (fun heq => heq ▸ List.mem_cons_self)
        fun ht => List.mem_cons_of_mem _ (h.stacked t ht)
    case closed =>
      intro a ha hfront t hat
      rw [List.mem_cons, not_or] at hfront
      have ha' : a ∈ d.seen := (List.mem_cons.1 ha).resolve_left hfront.1
      rcases h.closed a ha' hfront.2 t hat with ht | ⟨hcur, ht⟩
      · exact Or.inl (List.mem_cons_of_mem _ ht)
      · rcases List.mem_cons.1 ht with rfl | ht
        · exact Or.inl List.mem_cons_self
        · exact Or.inr ⟨hcur, ht⟩
    case total =>
      show (d.types.bump row.taskType).total + 1 = d.seen.length + 1
      rw [Dict.total_bump, h.total]
    case ofType =>
      intro taskType
      show ((d.types.bump row.taskType).get? taskType).getD 0 = (row.taskId :: d.seen).countP _
      rw [Dict.getD_bump, h.ofType, List.countP_cons, isOf_eq hids hrow]
      simp [hne]

/-- All dependents of the task that is left are looked at. -/
theorem Walked.absorb_all (hids : (s.tasks.map (·.taskId)).Nodup) {current : TaskId}
    {rows : List TaskRow} (hrows : ∀ row ∈ rows, row ∈ s.tasks ∧ current ∈ row.dependsOn)
    (hcurrent : current ∈ d.seen) (h : Walked s start (some current) rows d) :
    Walked s start (some current) [] (rows.foldl Downstream.absorb d) := by
  induction rows generalizing d with
  | nil => exact h
  | cons row rows ih =>
    obtain ⟨hrow, hrows⟩ := List.forall_mem_cons.1 hrows
    have hstill : current ∈ (d.absorb row).seen := by
      unfold Downstream.absorb
      split
      · exact hcurrent
      · exact List.mem_cons_of_mem _ hcurrent
    exact ih hrows hstill (h.absorb hids hrow.1 hrow.2 hcurrent)

/-- The top of the stack is taken off, with its dependents to be looked at. -/
theorem Walked.leave {prior : Option TaskId} {current : TaskId} {rest : List TaskId}
    {rows : List TaskRow} (hd : d.frontier = current :: rest)
    (hrows : ∀ row, row ∈ rows ↔ row ∈ s.tasks ∧ current ∈ row.dependsOn)
    (h : Walked s start prior [] d) :
    Walked s start (some current) rows { d with frontier := rest } := by
  refine { h with
    stacked := fun t ht => h.stacked t (hd ▸ List.mem_cons_of_mem current ht), closed := ?_ }
  intro a ha hout t hat
  by_cases hcur : a = current
  · subst hcur
    obtain ⟨row, hrow, rfl, hdep⟩ := hat
    exact Or.inr ⟨rfl, List.mem_map_of_mem ((hrows row).2 ⟨hrow, hdep⟩)⟩
  · have hout' : a ∉ d.frontier := by
      rw [hd, List.mem_cons, not_or]
      exact ⟨hcur, hout⟩
    exact Or.inl ((h.closed a ha hout' t hat).resolve_right fun hand => nomatch hand.2)

/-- With an empty stack, all that can be reached was seen. -/
theorem Walked.mem_seen {prior : Option TaskId} (h : Walked s start prior [] d)
    (hempty : d.frontier = []) (ht : Relation.ReflTransGen (DependsOn s) start t) : t ∈ d.seen := by
  induction ht with
  | refl => exact h.started
  | tail _ hstep ih =>
    have hout : ∀ a, a ∉ d.frontier := fun a ha => by rw [hempty] at ha; cases ha
    exact (h.closed _ ih (hout _) _ hstep).resolve_right fun hand => nomatch hand.2

/-- A set that a list enumerates has as many members as the list. -/
theorem ncard_eq_countP {A : Set TaskId} {l : List TaskId} {p : TaskId → Bool} (hn : l.Nodup)
    (hA : ∀ t, t ∈ A ↔ t ∈ l ∧ p t = true) : A.ncard = l.countP p := by
  have heq : A = ↑(l.filter p).toFinset := by
    ext t
    rw [hA, Finset.mem_coe, List.mem_toFinset, List.mem_filter]
  rw [heq, Set.ncard_coe_finset, List.toFinset_card_of_nodup (hn.filter p),
    List.countP_eq_length_filter]

theorem Walked.mem_blockedBy {prior : Option TaskId} (h : Walked s start prior [] d)
    (ht : t ∈ d.seen) (hne : t ≠ start) : t ∈ blockedBy s start := ⟨hne, h.reached t ht⟩

theorem Walked.countP_ne {prior : Option TaskId} {rows : List TaskRow}
    (h : Walked s start prior rows d) :
    d.seen.countP (fun t => t ≠ start) = d.seen.length - 1 := by
  rw [List.countP_eq_length_filter, ← List.length_erase_of_mem h.started,
    h.nodup.erase_eq_filter start]
  congr 1
  exact List.filter_congr fun t _ => Bool.eq_iff_iff.2 (by simp)

/-- The tasks that are blocked have a row. -/
theorem blockedBy_subset (s : State) (start : TaskId) :
    blockedBy s start ⊆ ↑(s.tasks.map TaskRow.taskId).toFinset := by
  rintro t ⟨hne, hreach⟩
  rw [Finset.mem_coe, List.mem_toFinset]
  rcases Relation.ReflTransGen.cases_tail hreach with rfl | ⟨a, -, row, hrow, rfl, -⟩
  · exact absurd rfl hne
  · exact List.mem_map_of_mem hrow

theorem finite_blockedBy (s : State) (start : TaskId) : (blockedBy s start).Finite :=
  (Finset.finite_toSet _).subset (blockedBy_subset s start)

theorem ncard_blockedBy_le (s : State) (start : TaskId) :
    (blockedBy s start).ncard ≤ s.tasks.length := by
  calc (blockedBy s start).ncard
      ≤ (s.tasks.map TaskRow.taskId).toFinset.card := by
        rw [← Set.ncard_coe_finset]
        exact Set.ncard_le_ncard (blockedBy_subset s start) (Finset.finite_toSet _)
    _ ≤ (s.tasks.map TaskRow.taskId).length := List.toFinset_card_le _
    _ = s.tasks.length := List.length_map _

/-- The count, and the counts of each `task_type`, which add up to it. -/
def CountsBlocked (s : State) (start : TaskId) (out : Nat × Dict String Nat) : Prop :=
  out.1 = (blockedBy s start).ncard ∧ out.2.total = out.1 ∧
    ∀ taskType, (out.2.get? taskType).getD 0 = (blockedOf s start taskType).ncard

/-- Once everything was seen, the counts are right. -/
theorem Walked.counted {prior : Option TaskId} (h : Walked s start prior [] d)
    (hall : ∀ t, Relation.ReflTransGen (DependsOn s) start t → t ∈ d.seen) :
    CountsBlocked s start (d.seen.length - 1, d.types) := by
  have hmem : ∀ t, t ∈ blockedBy s start ↔ t ∈ d.seen ∧ t ≠ start := fun t =>
    ⟨fun ht => ⟨hall t ht.2, ht.1⟩, fun ht => h.mem_blockedBy ht.1 ht.2⟩
  refine ⟨?_, ?_, fun taskType => ?_⟩
  · have hcount : (blockedBy s start).ncard = d.seen.countP fun t => t ≠ start :=
      ncard_eq_countP h.nodup fun t => (hmem t).trans (by simp)
    rw [hcount, h.countP_ne]
  · show d.types.total = d.seen.length - 1
    rw [← h.total, Nat.add_sub_cancel]
  · refine (h.ofType taskType).trans (ncard_eq_countP h.nodup fun t => ?_).symm
    show t ∈ blockedBy s start ∧ _ ↔ _
    rw [hmem, and_assoc]
    simp [isOf]

/-- At the bound everything was seen, if there is not more than that. -/
theorem Walked.mem_seen_of_full {prior : Option TaskId} (h : Walked s start prior [] d)
    (hbound : (blockedBy s start).ncard ≤ maxDownstream)
    (hfull : ¬d.seen.length - 1 < maxDownstream)
    (ht : Relation.ReflTransGen (DependsOn s) start t) : t ∈ d.seen := by
  have hseen : Set.ncard {t | t ∈ d.seen ∧ t ≠ start} = d.seen.length - 1 := by
    rw [← h.countP_ne]
    exact ncard_eq_countP h.nodup fun t => by simp
  have heq : {t | t ∈ d.seen ∧ t ≠ start} = blockedBy s start := by
    refine Set.eq_of_subset_of_ncard_le (fun t ht => h.mem_blockedBy ht.1 ht.2) ?_
      (finite_blockedBy s start)
    omega
  by_cases hne : t = start
  · exact hne ▸ h.started
  · have hin : t ∈ blockedBy s start := ⟨hne, ht⟩
    rw [← heq] at hin
    exact hin.1

theorem returns_downstreamLoop (hids : (s.tasks.map (·.taskId)).Nodup)
    (hbound : (blockedBy s start).ncard ≤ maxDownstream) {prior : Option TaskId}
    (h : Walked s start prior [] d) : Returns s (downstreamLoop d) (CountsBlocked s start) := by
  induction d using downstreamLoop.induct generalizing prior with
  | case1 d hd =>
    rw [downstreamLoop, hd]
    exact .pure (h.counted fun t ht => h.mem_seen hd ht)
  | case2 d current rest hd hlt ih =>
    rw [downstreamLoop, hd]
    show Returns s (if _ then _ else _) _
    rw [if_pos hlt]
    refine (returns_findDependentTasks .alert current).bind fun rows hrows => ?_
    have hcurrent : current ∈ d.seen := h.stacked current (hd ▸ List.mem_cons_self)
    have hblocked : ∀ row ∈ rows, row ∈ s.tasks ∧ current ∈ row.dependsOn := fun row hrow =>
      (hrows row).1 hrow
    exact ih rows ((h.leave hd hrows).absorb_all hids hblocked hcurrent)
  | case3 d current rest hd hfull =>
    rw [downstreamLoop, hd]
    show Returns s (if _ then _ else _) _
    rw [if_neg hfull]
    exact .pure (h.counted fun t ht => h.mem_seen_of_full hbound hfull ht)

end Blocked

/-! ## The tasks of a run -/

section Lineage

variable {s : State} {start t : TaskId} {k n : Nat} {row : TaskRow} {rows : List TaskRow}
  {frontier next : List TaskId} {collected : Dict TaskId TaskRow}

theorem find_of_mem (hids : (s.tasks.map (·.taskId)).Nodup) (hrow : row ∈ s.tasks) :
    s.find row.taskId = some row := by
  cases hfind : s.find row.taskId with
  | none => exact absurd rfl (find_none hfind row hrow)
  | some row' =>
    obtain ⟨hrow', hid⟩ := find_some hfind
    exact congrArg some (List.inj_on_of_nodup_map hids hrow' hrow hid)

/-- What the rows of a level leave: `out` comes of `next` and `collected`. -/
structure Joined (rows : List TaskRow) (next : List TaskId) (collected : Dict TaskId TaskRow)
    (out : List TaskId × Dict TaskId TaskRow) : Prop where
  only : ∀ t row, out.2.get? t = some row →
    collected.get? t = some row ∨ row ∈ rows ∧ row.taskId = t
  stays : ∀ t, (collected.get? t).isSome → (out.2.get? t).isSome
  joins : ∀ row ∈ rows, (out.2.get? row.taskId).isSome
  new : ∀ t ∈ out.1, t ∈ next ∨ ∃ row ∈ rows, t ∈ row.dependsOn
  old : ∀ t ∈ next, t ∈ out.1
  asked : ∀ row ∈ rows, ∀ dep ∈ row.dependsOn, dep ∈ out.1 ∨ (out.2.get? dep).isSome

theorem joined_rows (rows : List TaskRow) (next : List TaskId)
    (collected : Dict TaskId TaskRow) : Joined rows next collected
      (rows.foldl (fun (next, collected) row =>
        let collected := collected.set row.taskId row
        (next ++ row.dependsOn.filter fun dep => (collected.get? dep).isNone, collected))
        (next, collected)) := by
  induction rows generalizing next collected with
  | nil =>
    exact ⟨fun t row h => Or.inl h, fun t h => h, List.forall_mem_nil _, fun t h => Or.inl h,
      fun t h => h, List.forall_mem_nil _⟩
  | cons row rows ih =>
    rw [List.foldl_cons]
    obtain ⟨honly, hstays, hjoins, hnew, hold, hasked⟩ := ih
      (next ++ row.dependsOn.filter fun dep => ((collected.set row.taskId row).get? dep).isNone)
      (collected.set row.taskId row)
    constructor
    case only =>
      intro t row' h
      rcases honly t row' h with h | ⟨hin, hid⟩
      · rw [Dict.get?_set] at h
        split at h
        next heq =>
          obtain rfl := Option.some.inj h
          exact Or.inr ⟨List.mem_cons_self, heq.symm⟩
        next => exact Or.inl h
      · exact Or.inr ⟨List.mem_cons_of_mem row hin, hid⟩
    case stays =>
      intro t h
      refine hstays t ?_
      rw [Dict.get?_set]
      split
      · rfl
      · exact h
    case joins =>
      refine List.forall_mem_cons.2 ⟨hstays row.taskId ?_, hjoins⟩
      rw [Dict.get?_set, if_pos rfl]
      rfl
    case new =>
      intro t ht
      rcases hnew t ht with ht | ⟨row', hin, hdep⟩
      · rcases List.mem_append.1 ht with ht | ht
        · exact Or.inl ht
        · exact Or.inr ⟨row, List.mem_cons_self, (List.mem_filter.1 ht).1⟩
      · exact Or.inr ⟨row', List.mem_cons_of_mem row hin, hdep⟩
    case old => exact fun t ht => hold t (List.mem_append_left _ ht)
    case asked =>
      refine List.forall_mem_cons.2 ⟨fun dep hdep => ?_, hasked⟩
      by_cases hin : ((collected.set row.taskId row).get? dep).isSome
      · exact Or.inr (hstays dep hin)
      · have hout : dep ∈ row.dependsOn.filter fun dep =>
            ((collected.set row.taskId row).get? dep).isNone :=
          List.mem_filter.2 ⟨hdep, by simpa using hin⟩
        exact Or.inl (hold dep (List.mem_append_right _ hout))

/-- What holds after `k` levels: `frontier` is the next one. -/
structure Collected (s : State) (start : TaskId) (k : Nat) (frontier : List TaskId)
    (collected : Dict TaskId TaskRow) : Prop where
  ofRow : ∀ t row, collected.get? t = some row →
    s.find t = some row ∧ ∃ j ≤ k, t ∈ ancestors s start j
  near : ∀ j ≤ k, ∀ t ∈ ancestors s start j, (s.find t).isSome → (collected.get? t).isSome
  front : ∀ t ∈ frontier, t ∈ ancestors s start (k + 1)
  closed : ∀ t row, collected.get? t = some row → ∀ dep ∈ row.dependsOn,
    (s.find dep).isSome → (collected.get? dep).isSome ∨ dep ∈ frontier

/-- An ancestor on the next level is a dependency of one that is collected. -/
theorem Collected.of_next (h : Collected s start k frontier collected)
    (ht : t ∈ ancestors s start (k + 1)) (hrow : (s.find t).isSome) :
    (collected.get? t).isSome ∨ t ∈ frontier := by
  obtain ⟨p, hp, hdep⟩ := List.mem_flatMap.1 ht
  unfold dependencies at hdep
  cases hfind : s.find p with
  | none =>
    rw [hfind] at hdep
    cases hdep
  | some parent =>
    rw [hfind] at hdep
    obtain ⟨parent', hparent⟩ :=
      Option.isSome_iff_exists.1 (h.near k (Nat.le_refl k) p hp (hfind ▸ rfl))
    obtain rfl : parent' = parent :=
      Option.some.inj ((h.ofRow p parent' hparent).1.symm.trans hfind)
    exact h.closed p parent' hparent t hdep hrow

/-- One level. -/
theorem Collected.succ (hids : (s.tasks.map (·.taskId)).Nodup)
    (h : Collected s start k frontier collected)
    (hrows : ∀ row, row ∈ rows ↔ row ∈ s.tasks ∧
      row.taskId ∈ frontier.filter fun tid => (collected.get? tid).isNone) :
    Collected s start (k + 1) (collectRows rows collected).1 (collectRows rows collected).2 := by
  obtain ⟨honly, hstays, hjoins, hnew, -, hasked⟩ := joined_rows rows [] collected
  change ∀ t row, (collectRows rows collected).2.get? t = some row → _ at honly
  have hfront : ∀ row ∈ rows, row.taskId ∈ ancestors s start (k + 1) := fun row hrow =>
    h.front _ (List.mem_filter.1 ((hrows row).1 hrow).2).1
  -- what is on the frontier and has a row is collected now
  have hfetched : ∀ t, (collected.get? t).isSome ∨ t ∈ frontier → (s.find t).isSome →
      ((collectRows rows collected).2.get? t).isSome := by
    intro t ht hsome
    by_cases hin : (collected.get? t).isSome
    · exact hstays t hin
    · obtain ⟨row, hfind⟩ := Option.isSome_iff_exists.1 hsome
      obtain ⟨hrow, rfl⟩ := find_some hfind
      exact hjoins row ((hrows row).2 ⟨hrow, List.mem_filter.2
        ⟨ht.resolve_left hin, by simpa using hin⟩⟩)
  constructor
  case ofRow =>
    intro t row hget
    rcases honly t row hget with hget | ⟨hrow, rfl⟩
    · obtain ⟨hfind, j, hj, ht⟩ := h.ofRow t row hget
      exact ⟨hfind, j, Nat.le_succ_of_le hj, ht⟩
    · exact ⟨find_of_mem hids ((hrows row).1 hrow).1, k + 1, Nat.le_refl _, hfront row hrow⟩
  case near =>
    intro j hj t ht hsome
    rcases Nat.le_succ_iff.1 hj with hj | rfl
    · exact hstays t (h.near j hj t ht hsome)
    · exact hfetched t (h.of_next ht hsome) hsome
  case front =>
    intro t ht
    obtain ⟨row, hrow, hdep⟩ := (hnew t ht).resolve_left (fun hnil => nomatch hnil)
    refine List.mem_flatMap.2 ⟨row.taskId, hfront row hrow, ?_⟩
    unfold dependencies
    rw [find_of_mem hids ((hrows row).1 hrow).1]
    exact hdep
  case closed =>
    intro t row hget dep hdep hsome
    rcases honly t row hget with hget | ⟨hrow, -⟩
    · exact Or.inl (hfetched dep (h.closed t row hget dep hdep hsome) hsome)
    · exact (hasked row hrow dep hdep).symm

/-- All that was within reach of the levels is collected, and nothing else. -/
def Gathered (s : State) (start : TaskId) (hops : Nat) (collected : Dict TaskId TaskRow) : Prop :=
  ∀ t row, collected.get? t = some row ↔
    s.find t = some row ∧ ∃ j ≤ hops, t ∈ ancestors s start j

theorem Collected.gathered (h : Collected s start k frontier collected)
    (hall : ∀ j ≤ n, ∀ t ∈ ancestors s start j, (s.find t).isSome → (collected.get? t).isSome)
    (hk : k ≤ n) : Gathered s start n collected := by
  intro t row
  constructor
  · intro hget
    obtain ⟨hfind, j, hj, ht⟩ := h.ofRow t row hget
    exact ⟨hfind, j, Nat.le_trans hj hk, ht⟩
  · rintro ⟨hfind, j, hj, ht⟩
    obtain ⟨row', hget⟩ := Option.isSome_iff_exists.1 (hall j hj t ht (hfind ▸ rfl))
    rw [hget, ← (h.ofRow t row' hget).1, hfind]

/-- With nothing to fetch, there is nothing on the levels to come. -/
theorem Collected.near_all (h : Collected s start k frontier collected)
    (hnone : ∀ t ∈ frontier, (collected.get? t).isSome) {j : Nat} (ht : t ∈ ancestors s start j)
    (hrow : (s.find t).isSome) : (collected.get? t).isSome := by
  induction j generalizing t with
  | zero => exact h.near 0 (Nat.zero_le k) t ht hrow
  | succ j ih =>
    obtain ⟨p, hp, hdep⟩ := List.mem_flatMap.1 ht
    unfold dependencies at hdep
    cases hfind : s.find p with
    | none =>
      rw [hfind] at hdep
      cases hdep
    | some parent =>
      rw [hfind] at hdep
      obtain ⟨parent', hparent⟩ := Option.isSome_iff_exists.1 (ih hp (hfind ▸ rfl))
      obtain rfl : parent' = parent :=
        Option.some.inj ((h.ofRow p parent' hparent).1.symm.trans hfind)
      exact (h.closed p parent' hparent t hdep hrow).elim id (hnone t)

theorem returns_collectLevels (hids : (s.tasks.map (·.taskId)).Nodup) (site : Site)
    (h : Collected s start k frontier collected) :
    Returns s (collectLevels site n frontier collected) (Gathered s start (k + n)) := by
  induction n generalizing k frontier collected with
  | zero => exact .pure (h.gathered h.near (Nat.le_refl k))
  | succ n ih =>
    have hstop : (∀ t ∈ frontier, (collected.get? t).isSome) →
        Gathered s start (k + (n + 1)) collected := fun hnone =>
      h.gathered (fun j _ t ht hrow => h.near_all hnone ht hrow) (Nat.le_add_right k _)
    unfold collectLevels
    by_cases hempty : frontier = []
    · rw [if_pos hempty]
      exact .pure (hstop fun t ht => by rw [hempty] at ht; cases ht)
    · rw [if_neg hempty]
      show Returns s (if _ then _ else _) _
      by_cases hfetch : (frontier.filter fun tid => (collected.get? tid).isNone) = []
      · rw [if_pos hfetch]
        refine .pure (hstop fun t ht => ?_)
        simpa [Option.isSome_iff_ne_none] using List.filter_eq_nil_iff.1 hfetch t ht
      · rw [if_neg hfetch]
        refine (returns_getTasks site _).bind fun rows hrows => ?_
        rw [show k + (n + 1) = k + 1 + n by omega]
        exact ih (h.succ hids hrows)

/-- The task and its ancestors that are at most `maxHops` hops away, each once. -/
def Lineage (s : State) (start : TaskId) (maxHops : Nat) (rows : List TaskRow) : Prop :=
  (rows.map (·.taskId)).Nodup ∧ ∀ row, row ∈ rows ↔
    row ∈ s.tasks ∧ ∃ j ≤ maxHops, row.taskId ∈ ancestors s start j

theorem Gathered.lineage (hids : (s.tasks.map (·.taskId)).Nodup)
    (h : Gathered s start n collected) : Lineage s start n (collected.items.map Prod.snd) := by
  have hkeys : (collected.items.map Prod.snd).map (·.taskId) = collected.items.map Prod.fst := by
    rw [List.map_map]
    refine List.map_congr_left fun item hitem => ?_
    exact (find_some ((h item.1 item.2).1 (Dict.mem_items_iff.2 hitem)).1).2
  refine ⟨hkeys ▸ collected.unique, fun row => ?_⟩
  rw [List.mem_map]
  constructor
  · rintro ⟨⟨t, row⟩, hitem, rfl⟩
    obtain ⟨hfind, hj⟩ := (h t row).1 (Dict.mem_items_iff.2 hitem)
    obtain ⟨hrow, rfl⟩ := find_some hfind
    exact ⟨hrow, hj⟩
  · rintro ⟨hrow, hj⟩
    have hget := (h row.taskId row).2 ⟨find_of_mem hids hrow, hj⟩
    exact ⟨(row.taskId, row), Dict.mem_items_iff.1 hget, rfl⟩

theorem collected_root (hroot : s.find start = some row) :
    Collected s start 0 row.dependsOn (Dict.empty.set start row) := by
  have hget : ∀ t, ((Dict.empty : Dict TaskId TaskRow).set start row).get? t =
      if t = start then some row else none := fun t => Dict.get?_set
  have honly : ∀ t row', ((Dict.empty : Dict TaskId TaskRow).set start row).get? t = some row' →
      t = start ∧ row' = row := by
    intro t row' h
    rw [hget] at h
    split at h
    next heq => exact ⟨heq, (Option.some.inj h).symm⟩
    next => cases h
  constructor
  case ofRow =>
    intro t row' h
    obtain ⟨rfl, rfl⟩ := honly t row' h
    exact ⟨hroot, 0, Nat.le_refl 0, List.mem_singleton_self t⟩
  case near =>
    intro j hj t ht _
    obtain rfl : j = 0 := Nat.le_zero.1 hj
    rw [hget, if_pos (List.mem_singleton.1 ht)]
    rfl
  case front =>
    intro t ht
    refine List.mem_flatMap.2 ⟨start, List.mem_singleton_self start, ?_⟩
    unfold dependencies
    rw [hroot]
    exact ht
  case closed =>
    intro t row' h dep hdep _
    obtain ⟨rfl, rfl⟩ := honly t row' h
    exact Or.inr hdep

/-- Without a row, a task has no dependencies. -/
theorem ancestors_of_none (hroot : s.find start = none) {j : Nat} (ht : t ∈ ancestors s start j) :
    t = start := by
  have hdeps : dependencies s start = [] := by simp [dependencies, hroot]
  induction j generalizing t with
  | zero => exact List.mem_singleton.1 ht
  | succ j ih =>
    obtain ⟨p, hp, hdep⟩ := List.mem_flatMap.1 ht
    rw [ih hp, hdeps] at hdep
    cases hdep

theorem returns_collectLineage (hids : (s.tasks.map (·.taskId)).Nodup) (site : Site)
    (start : TaskId) (maxHops : Nat) :
    Returns s (collectLineage site start maxHops) (Lineage s start maxHops) := by
  refine (returns_getTask site start).bind fun found hfound => ?_
  subst hfound
  cases hroot : s.find start with
  | none =>
    refine .pure ⟨List.nodup_nil, fun row => ⟨(nomatch ·), ?_⟩⟩
    rintro ⟨hrow, j, -, ht⟩
    exact absurd (ancestors_of_none hroot ht) (find_none hroot row hrow)
  | some root =>
    refine (returns_collectLevels hids site (collected_root hroot)).bind fun collected hcol => ?_
    rw [Nat.zero_add] at hcol
    exact .pure (hcol.lineage hids)

end Lineage

/-! ## Each task once -/

/-- A diamond whose last task is the first one's dependency. -/
def diamondTables : State :=
  { State.empty with tasks := [
    stageRow 0 [stage 3] none, stageRow 1 [stage 0] none, stageRow 2 [stage 0] none,
    stageRow 3 [stage 1, stage 2] none] }

end CanvasOS.Orchestrator
