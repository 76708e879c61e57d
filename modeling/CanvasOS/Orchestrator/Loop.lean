/-
  Loop definitions: `loop_loader.py` and `decompose.py`.

  1. `LoopDefinition` — a decoded loop file: the tasks, their types and their `depends_on` names.
  2. `validateLoopFile` — the checks of `load_loop` (the schema, unique names, known dependencies)
     and of `check_acyclic` (Kahn's algorithm), in that order.
  3. `checkAcyclic_exact` — `check_acyclic` finds every cycle, and what depends on one.
  4. `AcceptedLoop` — a loop that passed them; `main.py` gives the worker no others.
  5. `decompose` — the batch of tasks a heartbeat turns a loop into.
-/
import CanvasOS.Lib.Kahn

namespace CanvasOS.Orchestrator

/-- One task of a loop file. -/
structure LoopTask where
  taskId : String
  taskType : String
  dependsOn : List String
deriving DecidableEq

/-- A loop file. -/
structure LoopDefinition where
  schemaVersion : String
  loopId : String
  tasks : List LoopTask
deriving DecidableEq

/-- The declared names, in file order. -/
def LoopDefinition.taskIds (loop : LoopDefinition) : List String := loop.tasks.map (·.taskId)

/-- `depends_on[tid]`: the dependencies of the task with this name. -/
def LoopDefinition.dependsOn (loop : LoopDefinition) (name : String) : List String :=
  ((loop.tasks.find? fun t => t.taskId == name).map (·.dependsOn)).getD []

/-- Why a loop file is not accepted. -/
inductive LoopError where
  | schemaValidation
  | duplicateTaskIds (dupes : List String)
  | unknownTaskId (taskId dep : String)
  | cyclic (remaining : List String)
deriving DecidableEq

/-- `loop-definition.schema.json`, as far as it constrains the decoded fields: every text is at
    least one character long and there is at least one task. -/
def LoopDefinition.matchesSchema (loop : LoopDefinition) : Bool :=
  loop.schemaVersion == "1" && loop.loopId != "" && !loop.tasks.isEmpty &&
    loop.tasks.all fun t => t.taskId != "" && t.taskType != "" && t.dependsOn.all (· != "")

/-- The first `depends_on` entry that names no task of the loop. -/
def LoopDefinition.unknownDependency (loop : LoopDefinition) : Option (String × String) :=
  (loop.tasks.flatMap fun t => t.dependsOn.map (t.taskId, ·)).find? fun e =>
    !loop.taskIds.contains e.2

/-- `load_loop`, on the parsed file. -/
def loadLoop (raw : LoopDefinition) : Except LoopError LoopDefinition :=
  if raw.matchesSchema then
    if raw.taskIds.Nodup then
      match raw.unknownDependency with
      | some (taskId, dep) => .error (.unknownTaskId taskId dep)
      | none => .ok raw
    else .error (.duplicateTaskIds (raw.taskIds.filter fun t => 1 < raw.taskIds.count t).dedup)
  else .error .schemaValidation

/-- The names `check_acyclic` does not get to. -/
def LoopDefinition.remaining (loop : LoopDefinition) : List String :=
  loop.taskIds.filter fun t => t ∉ (Kahn.finish loop.taskIds loop.dependsOn).visited

/-- `check_acyclic`. -/
def checkAcyclic (loop : LoopDefinition) : Except LoopError Unit :=
  if loop.remaining = [] then .ok () else .error (.cyclic loop.remaining)

/-- `validate_loop_file`. -/
def validateLoopFile (raw : LoopDefinition) : Except LoopError LoopDefinition :=
  match loadLoop raw with
  | .error e => .error e
  | .ok loop =>
    match checkAcyclic loop with
    | .error e => .error e
    | .ok () => .ok loop

/-- What `load_loop` lets pass. -/
theorem loadLoop_ok {raw loop : LoopDefinition} (h : loadLoop raw = .ok loop) :
    raw = loop ∧ loop.matchesSchema = true ∧ loop.taskIds.Nodup ∧ loop.unknownDependency = none := by
  unfold loadLoop at h
  split at h
  · split at h
    · split at h
      · cases h
      · obtain rfl := Except.ok.inj h
        exact ⟨rfl, ‹_›, ‹_›, ‹_›⟩
    · cases h
  · cases h

namespace LoopDefinition

variable {loop : LoopDefinition}

/-- Dependencies name tasks of the loop. -/
theorem known_of_unknownDependency (h : loop.unknownDependency = none) {t : LoopTask}
    (ht : t ∈ loop.tasks) {dep : String} (hdep : dep ∈ t.dependsOn) : dep ∈ loop.taskIds := by
  have hnone := List.find?_eq_none.1 h (t.taskId, dep)
    (List.mem_flatMap.2 ⟨t, ht, List.mem_map.2 ⟨dep, hdep, rfl⟩⟩)
  simpa using hnone

theorem dependsOn_of_mem (hnodup : loop.taskIds.Nodup) {t : LoopTask} (ht : t ∈ loop.tasks) :
    loop.dependsOn t.taskId = t.dependsOn := by
  unfold LoopDefinition.dependsOn
  cases hfind : loop.tasks.find? fun u => u.taskId == t.taskId with
  | none =>
    have h := List.find?_eq_none.1 hfind t ht
    simp at h
  | some u =>
    have hid : u.taskId = t.taskId := by simpa using List.find?_some hfind
    have hsame : u = t := List.inj_on_of_nodup_map hnodup (List.mem_of_find?_eq_some hfind) ht hid
    rw [hsame]
    rfl

/-- The task `x` has a `depends_on` entry `y`. -/
def Needs (loop : LoopDefinition) (x y : String) : Prop :=
  ∃ t ∈ loop.tasks, t.taskId = x ∧ y ∈ t.dependsOn

/-- The task depends on itself, directly or through others. -/
def OnCycle (loop : LoopDefinition) (x : String) : Prop := Relation.TransGen loop.Needs x x

/-- The task lies on a cycle, or it depends on one that does, directly or through others. -/
def OnOrBelowCycle (loop : LoopDefinition) (x : String) : Prop :=
  ∃ y, Relation.ReflTransGen loop.Needs x y ∧ loop.OnCycle y

theorem needs_iff (hnodup : loop.taskIds.Nodup) {x y : String} :
    loop.Needs x y ↔ Kahn.DependsOn loop.dependsOn x y := by
  constructor
  · rintro ⟨t, ht, rfl, hy⟩
    show y ∈ loop.dependsOn t.taskId
    rwa [dependsOn_of_mem hnodup ht]
  · intro hy
    replace hy : y ∈ loop.dependsOn x := hy
    unfold LoopDefinition.dependsOn at hy
    cases hfind : loop.tasks.find? fun u => u.taskId == x with
    | none =>
      rw [hfind] at hy
      exact absurd hy List.not_mem_nil
    | some t =>
      rw [hfind] at hy
      have hid : t.taskId = x := by simpa using List.find?_some hfind
      exact ⟨t, List.mem_of_find?_eq_some hfind, hid, hy⟩

/-- Only tasks of the loop are on or below a cycle. -/
theorem OnOrBelowCycle.mem_taskIds {x : String} (h : loop.OnOrBelowCycle x) : x ∈ loop.taskIds := by
  have hneeds : ∃ z, loop.Needs x z := by
    obtain ⟨y, hxy, hcycle⟩ := h
    rcases hxy.cases_head with rfl | ⟨z, hz, -⟩
    · obtain ⟨z, hz, -⟩ := Relation.TransGen.head'_iff.1 hcycle
      exact ⟨z, hz⟩
    · exact ⟨z, hz⟩
  obtain ⟨z, t, ht, rfl, -⟩ := hneeds
  exact List.mem_map.2 ⟨t, ht, rfl⟩

/-- What `check_acyclic` does not get to. -/
theorem mem_remaining_iff (hnodup : loop.taskIds.Nodup) (hknown : loop.unknownDependency = none)
    {x : String} : x ∈ loop.remaining ↔ loop.OnOrBelowCycle x := by
  have hdeps : ∀ x ∈ loop.taskIds, ∀ d ∈ loop.dependsOn x, d ∈ loop.taskIds := by
    intro x hx d hd
    obtain ⟨t, ht, rfl⟩ := List.mem_map.1 hx
    rw [dependsOn_of_mem hnodup ht] at hd
    exact known_of_unknownDependency hknown ht hd
  have hneeds : loop.Needs = Kahn.DependsOn loop.dependsOn := by
    funext x y
    exact propext (needs_iff hnodup)
  have hreaches : loop.OnOrBelowCycle x ↔ Kahn.ReachesCycle loop.dependsOn x := by
    unfold OnOrBelowCycle OnCycle Kahn.ReachesCycle
    rw [hneeds]
  unfold LoopDefinition.remaining
  rw [List.mem_filter, decide_eq_true_iff]
  constructor
  · rintro ⟨hx, hleft⟩
    exact hreaches.2 ((Kahn.unvisited_iff hnodup hdeps hx).1 hleft)
  · intro hx
    have hmem := hx.mem_taskIds
    exact ⟨hmem, (Kahn.unvisited_iff hnodup hdeps hmem).2 (hreaches.1 hx)⟩

end LoopDefinition

/-- Of a loaded loop, `check_acyclic` raises if and only if `depends_on` has a cycle, and names the
    tasks on or below one. -/
theorem checkAcyclic_exact {raw loop : LoopDefinition} (h : loadLoop raw = .ok loop) :
    ((∃ e, checkAcyclic loop = .error e) ↔ ∃ x, loop.OnCycle x) ∧
      ∀ e, checkAcyclic loop = .error e →
        ∃ names, e = .cyclic names ∧ ∀ x, x ∈ names ↔ loop.OnOrBelowCycle x := by
  obtain ⟨-, -, hnodup, hknown⟩ := loadLoop_ok h
  have hmem {x : String} := LoopDefinition.mem_remaining_iff (x := x) hnodup hknown
  have hraises : ∀ e, checkAcyclic loop = .error e →
      e = .cyclic loop.remaining ∧ loop.remaining ≠ [] := by
    intro e he
    unfold checkAcyclic at he
    split at he
    · cases he
    · obtain rfl := Except.error.inj he
      exact ⟨rfl, ‹_›⟩
  constructor
  · constructor
    · rintro ⟨e, he⟩
      obtain ⟨x, hx⟩ := List.exists_mem_of_ne_nil _ (hraises e he).2
      obtain ⟨y, -, hcycle⟩ := hmem.1 hx
      exact ⟨y, hcycle⟩
    · rintro ⟨x, hcycle⟩
      have hx : x ∈ loop.remaining := hmem.2 ⟨x, .refl, hcycle⟩
      exact ⟨.cyclic loop.remaining, if_neg (List.ne_nil_of_mem hx)⟩
  · intro e he
    exact ⟨loop.remaining, (hraises e he).1, fun x => hmem⟩

/-- A loop whose task `a` depends on itself, and `b` on it. -/
def selfDependentLoop : LoopDefinition :=
  ⟨"1", "loop", [⟨"c", "t", []⟩, ⟨"a", "t", ["a"]⟩, ⟨"b", "t", ["a", "c"]⟩]⟩

theorem selfDependentLoop_cyclic : ∃ names,
    checkAcyclic selfDependentLoop = .error (.cyclic names) ∧
      ∀ x, x ∈ names ↔ selfDependentLoop.OnOrBelowCycle x := by
  have hload : loadLoop selfDependentLoop = .ok selfDependentLoop := by decide +kernel
  obtain ⟨hiff, hnames⟩ := checkAcyclic_exact hload
  have hcycle : selfDependentLoop.OnCycle "a" :=
    .single ⟨⟨"a", "t", ["a"]⟩, by decide, rfl, by decide⟩
  obtain ⟨e, he⟩ := hiff.2 ⟨"a", hcycle⟩
  obtain ⟨names, rfl, hmem⟩ := hnames e he
  exact ⟨names, he, hmem⟩

/-- A loop the worker can be given. -/
structure AcceptedLoop where
  loop : LoopDefinition
  accepted : validateLoopFile loop = .ok loop

namespace AcceptedLoop

theorem loaded (L : AcceptedLoop) : loadLoop L.loop = .ok L.loop := by
  have h := L.accepted
  unfold validateLoopFile at h
  split at h
  · cases h
  · rename_i loop hload
    split at h
    · cases h
    · cases h
      exact hload

theorem checks (L : AcceptedLoop) :
    L.loop.matchesSchema = true ∧ L.loop.taskIds.Nodup ∧ L.loop.unknownDependency = none :=
  (loadLoop_ok L.loaded).2

/-- Names are unique. -/
theorem nodup (L : AcceptedLoop) : L.loop.taskIds.Nodup := L.checks.2.1

/-- Dependencies name tasks of the loop. -/
theorem known (L : AcceptedLoop) {t : LoopTask} (ht : t ∈ L.loop.tasks) {dep : String}
    (hdep : dep ∈ t.dependsOn) : dep ∈ L.loop.taskIds :=
  LoopDefinition.known_of_unknownDependency L.checks.2.2 ht hdep

theorem acyclic (L : AcceptedLoop) : L.loop.remaining = [] := by
  by_contra hne
  have hcheck : checkAcyclic L.loop = .error (.cyclic L.loop.remaining) := if_neg hne
  have h := L.accepted
  simp only [validateLoopFile, L.loaded, hcheck] at h
  cases h

/-- A name belongs to one task. -/
theorem eq_of_taskId (L : AcceptedLoop) {t u : LoopTask} (ht : t ∈ L.loop.tasks)
    (hu : u ∈ L.loop.tasks) (h : t.taskId = u.taskId) : t = u :=
  List.inj_on_of_nodup_map L.nodup ht hu h

theorem dependsOn_eq (L : AcceptedLoop) {t : LoopTask} (ht : t ∈ L.loop.tasks) :
    L.loop.dependsOn t.taskId = t.dependsOn :=
  LoopDefinition.dependsOn_of_mem L.nodup ht

/-- What a task inherits from its dependencies holds of every task: an accepted loop has no
    cycle. -/
theorem induction (L : AcceptedLoop) {P : String → Prop}
    (hstep : ∀ t ∈ L.loop.tasks, (∀ dep ∈ t.dependsOn, P dep) → P t.taskId) :
    ∀ t ∈ L.loop.tasks, P t.taskId := by
  have hvisited : ∀ x ∈ L.loop.taskIds,
      x ∈ (Kahn.finish L.loop.taskIds L.loop.dependsOn).visited := by
    intro x hx
    by_contra hv
    have hmem : x ∈ L.loop.remaining := List.mem_filter.2 ⟨hx, by simpa using hv⟩
    rw [L.acyclic] at hmem
    exact absurd hmem List.not_mem_nil
  intro t ht
  refine Kahn.induction L.nodup hvisited (fun x hx hdeps => ?_) t.taskId
    (List.mem_map.2 ⟨t, ht, rfl⟩)
  obtain ⟨u, hu, rfl⟩ := List.mem_map.1 hx
  rw [L.dependsOn_eq hu] at hdeps
  exact hstep u hu hdeps

end AcceptedLoop

/-! ## Decomposition -/

/-- `uuid.uuid5(event_id, name)`, taken to be injective: the pair itself. -/
structure TaskId where
  event : Nat
  name : String
deriving DecidableEq

/-- One entry of a decomposed batch. -/
structure NewTask where
  taskId : TaskId
  taskType : String
  dependsOn : List TaskId
  loopId : String
deriving DecidableEq

/-- `decompose`, for the heartbeat with this `event_id`. -/
def decompose (loop : LoopDefinition) (event : Nat) : List NewTask :=
  loop.tasks.map fun t =>
    ⟨⟨event, t.taskId⟩, t.taskType, t.dependsOn.map (⟨event, ·⟩), loop.loopId⟩

end CanvasOS.Orchestrator
