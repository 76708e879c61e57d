/-
  Any number of routines (`Lib.Prog`) running against one shared state.

  1. **System** (`Sys`) — what a request does when it arrives, the routine it runs, what each
     statement does to the shared state, and what the world does on its own (a clock, a queue,
     an operator).  A statement is ATOMIC; everything between two statements is not.
  2. **Run** (`Act`, `Sys.exec`, `Sys.Reach`) — an arbitrary interleaving, one act at a time:
     a request arrives, a routine executes its next statement with an answer of the environment's
     choosing, a routine dies where it stands, the world moves.
  3. **History** (`Event`, `History`, `recorded`) — the requests and the executed statements,
     newest first, for properties that speak about who did what and in which state;
     `Sys.recording` records what happens in a system that is already there.

  `exec` is a total function (an act that is not possible changes nothing), so a concrete run can
  be evaluated, and `Reach ok` restricts the acts by a predicate `ok` on the configuration they
  start from, so that "in every run whose steps all meet a condition" is a statement.
-/
import CanvasOS.Lib.Prog

namespace Interleave

variable {Op : Type} {Res : Op → Type} {ε S ι ρ α E : Type}

/-- Executing a statement under a reply: the new state, and what the caller sees.  `none` when the
    environment suggested an answer this state does not give. -/
def Reply.apply {β : Type} (run : β → S → Option (β × S)) (s : S) :
    Reply ε β → Option (Except ε β × S)
  | .ok a => (run a s).map fun x => (.ok x.1, x.2)
  | .failed e => some (.error e, s)
  | .lost a e => (run a s).map fun x => (.error e, x.2)

/-- A system of routines over a shared state `S`: threads `ι`, requests `ρ`, results `α`, moves of
    the world `E`. -/
structure Sys (Op : Type) (Res : Op → Type) (ε S ι ρ α E : Type) where
  /-- the routine a request runs -/
  body : ρ → Prog Op Res ε α
  /-- what the arrival of a request does to the shared state; `none` when it cannot arrive -/
  enter : ι → ρ → S → Option S
  /-- one statement of thread `i`, from the answer the environment suggests to the answer given -/
  run : ι → (o : Op) → Res o → S → Option (Res o × S)
  /-- a move of the world -/
  env : E → S → Option S

/-- The shared state and, for every request that ever arrived, what is left of its routine
    (`none` once the routine has died). -/
structure Config (Op : Type) (Res : Op → Type) (ε S ι ρ α : Type) where
  shared : S
  thread : ι → Option (ρ × Option (Prog Op Res ε α))

namespace Config

/-- No request has arrived yet. -/
def idle (s : S) : Config Op Res ε S ι ρ α := ⟨s, fun _ => none⟩

/-- The shared state becomes `s`, thread `i` serves `r` with `p` left to run. -/
def put [DecidableEq ι] (c : Config Op Res ε S ι ρ α) (s : S) (i : ι) (r : ρ)
    (p : Option (Prog Op Res ε α)) : Config Op Res ε S ι ρ α :=
  ⟨s, Function.update c.thread i (some (r, p))⟩

@[simp] theorem put_shared [DecidableEq ι] (c : Config Op Res ε S ι ρ α) (s : S) (i : ι) (r : ρ)
    (p : Option (Prog Op Res ε α)) : (c.put s i r p).shared = s := rfl

theorem put_thread [DecidableEq ι] {c : Config Op Res ε S ι ρ α} {s : S} {i j : ι} {r r' : ρ}
    {p p' : Option (Prog Op Res ε α)} :
    (c.put s i r p).thread j = some (r', p') ↔
      (j = i ∧ r = r' ∧ p = p') ∨ (j ≠ i ∧ c.thread j = some (r', p')) := by
  by_cases hji : j = i
  · subst hji
    simp [put]
  · simp [put, hji]

/-- The statement thread `i` executes next. -/
def next (c : Config Op Res ε S ι ρ α) (i : ι) : Option Op :=
  match c.thread i with
  | some (_, some (.op o _)) => some o
  | _ => none

/-- Thread `i` is in the middle of its routine. -/
def Running (c : Config Op Res ε S ι ρ α) (i : ι) : Prop :=
  ∃ r o k, c.thread i = some (r, some (.op o k))

/-- The request of thread `i` and what it ended with, once it has ended. -/
def result (c : Config Op Res ε S ι ρ α) (i : ι) : Option (ρ × Except ε α) :=
  match c.thread i with
  | some (r, some (.pure a)) => some (r, .ok a)
  | some (r, some (.throw e)) => some (r, .error e)
  | _ => none

theorem thread_of_result_ok {c : Config Op Res ε S ι ρ α} {i : ι} {r : ρ} {a : α}
    (h : c.result i = some (r, .ok a)) : c.thread i = some (r, some (.pure a)) := by
  unfold result at h
  split at h
  · rename_i hi
    obtain ⟨rfl, heq⟩ := Prod.mk.inj (Option.some.inj h)
    rw [hi, Except.ok.inj heq]
  · obtain ⟨-, heq⟩ := Prod.mk.inj (Option.some.inj h)
    cases heq
  · cases h

theorem thread_of_result_error {c : Config Op Res ε S ι ρ α} {i : ι} {r : ρ} {e : ε}
    (h : c.result i = some (r, .error e)) : c.thread i = some (r, some (.throw e)) := by
  unfold result at h
  split at h
  · obtain ⟨-, heq⟩ := Prod.mk.inj (Option.some.inj h)
    cases heq
  · rename_i hi
    obtain ⟨rfl, heq⟩ := Prod.mk.inj (Option.some.inj h)
    rw [hi, Except.error.inj heq]
  · cases h

end Config

/-- One act of a run.  `step i f` lets thread `i` execute its next statement `o` under `f o`. -/
inductive Act (Op : Type) (Res : Op → Type) (ε ι ρ E : Type) where
  | enter (i : ι) (r : ρ)
  | step (i : ι) (f : ∀ o : Op, Reply ε (Res o))
  | crash (i : ι)
  | env (e : E)

namespace Sys

variable [DecidableEq ι] (M : Sys Op Res ε S ι ρ α E)

/-- One act. -/
def exec (c : Config Op Res ε S ι ρ α) : Act Op Res ε ι ρ E → Config Op Res ε S ι ρ α
  | .enter i r =>
    match c.thread i, M.enter i r c.shared with
    | none, some s => c.put s i r (some (M.body r))
    | _, _ => c
  | .step i f =>
    match c.thread i with
    | some (r, some (.op o k)) =>
      match (f o).apply (M.run i o) c.shared with
      | some (out, s) => c.put s i r (some (k out))
      | none => c
    | _ => c
  | .crash i =>
    match c.thread i with
    | some (r, some _) => c.put c.shared i r none
    | _ => c
  | .env e =>
    match M.env e c.shared with
    | some s => ⟨s, c.thread⟩
    | none => c

/-- The configurations a run from `c₀` reaches when every act of it meets `ok`. -/
inductive Reach (ok : Config Op Res ε S ι ρ α → Act Op Res ε ι ρ E → Prop)
    (c₀ : Config Op Res ε S ι ρ α) : Config Op Res ε S ι ρ α → Prop
  | init : Reach ok c₀ c₀
  | act {c : Config Op Res ε S ι ρ α} (a : Act Op Res ε ι ρ E) :
      Reach ok c₀ c → ok c a → Reach ok c₀ (M.exec c a)

/-- Every act of a run is allowed. -/
def free (_ : Config Op Res ε S ι ρ α) (_ : Act Op Res ε ι ρ E) : Prop := True

variable {M} {ok ok' : Config Op Res ε S ι ρ α → Act Op Res ε ι ρ E → Prop}
  {c₀ c : Config Op Res ε S ι ρ α}

/-- A statement under a reply that this state gives. -/
theorem exec_step {i : ι} {f : ∀ o : Op, Reply ε (Res o)} {r : ρ}
    {o : Op} {k : Except ε (Res o) → Prog Op Res ε α} {out : Except ε (Res o)} {s : S}
    (hi : c.thread i = some (r, some (.op o k)))
    (hs : (f o).apply (M.run i o) c.shared = some (out, s)) :
    M.exec c (.step i f) = c.put s i r (some (k out)) := by
  simp only [exec]
  rw [hi]
  simp only [hs]

/-- An act may be judged by where it is taken. -/
theorem Reach.strengthen (h : ∀ c a, M.Reach ok c₀ c → ok c a → ok' c a)
    (hr : M.Reach ok c₀ c) : M.Reach ok' c₀ c := by
  induction hr with
  | init => exact .init
  | act a hr ha ih => exact .act a ih (h _ a hr ha)

theorem Reach.mono (h : ∀ c a, ok c a → ok' c a) (hr : M.Reach ok c₀ c) : M.Reach ok' c₀ c :=
  hr.strengthen fun c a _ => h c a

theorem Reach.trans {c' : Config Op Res ε S ι ρ α} (hr : M.Reach ok c₀ c)
    (hr' : M.Reach ok c c') : M.Reach ok c₀ c' := by
  induction hr' with
  | init => exact hr
  | act a _ ha ih => exact .act a ih ha

/-- A property of configurations that holds initially and survives every allowed act holds
    throughout. -/
theorem Reach.invariant {P : Config Op Res ε S ι ρ α → Prop} (h₀ : P c₀)
    (hstep : ∀ c a, M.Reach ok c₀ c → P c → ok c a → P (M.exec c a)) (hr : M.Reach ok c₀ c) :
    P c := by
  induction hr with
  | init => exact h₀
  | act a hr ha ih => exact hstep _ a hr ih ha

/-- A concrete run, evaluated act by act, is reached as soon as each of its acts is allowed. -/
theorem Reach.foldl (as : List (Act Op Res ε ι ρ E)) (hc : M.Reach ok c₀ c)
    (has : ∀ n : Fin as.length, ok ((as.take n).foldl M.exec c) as[n]) :
    M.Reach ok c₀ (as.foldl M.exec c) := by
  induction as generalizing c with
  | nil => exact hc
  | cons a as ih =>
    refine ih (.act a hc (has ⟨0, Nat.succ_pos _⟩)) fun n => ?_
    exact has ⟨n + 1, Nat.succ_lt_succ n.2⟩

theorem Reach.foldl_free (as : List (Act Op Res ε ι ρ E)) (hc : M.Reach free c₀ c) :
    M.Reach free c₀ (as.foldl M.exec c) :=
  hc.foldl as fun _ => trivial

end Sys

/-! ## Histories -/

/-- An executed statement: by whom, its answer, and the state it was executed in. -/
structure Event (Op : Type) (Res : Op → Type) (S ι : Type) where
  who : ι
  op : Op
  ans : Res op
  pre : S

/-- A shared state together with the requests that have arrived and the statements executed so
    far, both newest first. -/
structure History (Op : Type) (Res : Op → Type) (S ι ρ : Type) where
  cur : S
  arrived : List (ι × ρ)
  log : List (Event Op Res S ι)

namespace History

variable [DecidableEq ι] {h h' : History Op Res S ι ρ} {i : ι}

/-- The statements of thread `i`, newest first. -/
def own (h : History Op Res S ι ρ) (i : ι) : List (Event Op Res S ι) :=
  h.log.filter fun e => e.who = i

theorem mem_own {e : Event Op Res S ι} : e ∈ h.own i ↔ e ∈ h.log ∧ e.who = i := by
  rw [own, List.mem_filter, decide_eq_true_eq]

/-- The record once thread `i` has executed `o`. -/
def after (h : History Op Res S ι ρ) (i : ι) (o : Op) (a : Res o) (s : S) :
    History Op Res S ι ρ :=
  ⟨s, h.arrived, ⟨i, o, a, h.cur⟩ :: h.log⟩

/-- `h'` continues `h` without a statement of thread `i`. -/
structure Others (i : ι) (h h' : History Op Res S ι ρ) : Prop where
  log : ∀ e ∈ h.log, e ∈ h'.log
  arrived : ∀ x ∈ h.arrived, x ∈ h'.arrived
  same : h'.own i = h.own i

/-- `h'` continues `h` with statements of thread `i` only. -/
structure Own (i : ι) (h h' : History Op Res S ι ρ) : Prop where
  log : ∀ e ∈ h.log, e ∈ h'.log
  arrived : h'.arrived = h.arrived
  others : ∀ j, j ≠ i → h'.own j = h.own j

theorem Others.refl : Others i h h :=
  ⟨fun _ h => h, fun _ h => h, rfl⟩

theorem Others.trans {h'' : History Op Res S ι ρ} (h₁ : Others i h h') (h₂ : Others i h' h'') :
    Others i h h'' :=
  ⟨fun e he => h₂.log e (h₁.log e he), fun x hx => h₂.arrived x (h₁.arrived x hx),
    h₂.same.trans h₁.same⟩

/-- Whatever thread `i` has done in `h'` it had done in `h`. -/
theorem Others.own (ho : Others i h h') : ∀ e ∈ h'.log, e.who = i → e ∈ h.log := by
  intro e he hi
  have hmem : e ∈ h'.own i := mem_own.2 ⟨he, hi⟩
  rw [ho.same] at hmem
  exact (mem_own.1 hmem).1

theorem Own.others_of_ne {j : ι} (hij : i ≠ j) (h₁ : Own i h h') : Others j h h' :=
  ⟨h₁.log, fun _ hx => h₁.arrived ▸ hx, h₁.others j (Ne.symm hij)⟩

theorem Own.refl : Own i h h :=
  ⟨fun _ h => h, rfl, fun _ _ => rfl⟩

/-- One recorded statement. -/
theorem own_cons {o : Op} {a : Res o} {t : S} :
    Own i h ⟨t, h.arrived, ⟨i, o, a, h.cur⟩ :: h.log⟩ :=
  ⟨fun _ he => List.mem_cons_of_mem _ he, rfl, fun _ hj =>
    List.filter_cons_of_neg (by simpa using Ne.symm hj)⟩

/-- A statement of thread `i` goes on its own record. -/
theorem own_self {o : Op} {a : Res o} {s t : S} {arrived : List (ι × ρ)} :
    (⟨t, arrived, ⟨i, o, a, s⟩ :: h.log⟩ : History Op Res S ι ρ).own i = ⟨i, o, a, s⟩ :: h.own i :=
  List.filter_cons_of_pos (by simp)

/-- The threads that have executed a statement of this kind, newest first. -/
def executors (p : Event Op Res S ι → Bool) (h : History Op Res S ι ρ) : List ι :=
  (h.log.filter p).map (·.who)

section Executors

variable {p : Event Op Res S ι → Bool} {o : Op} {a : Res o} {s : S}

omit [DecidableEq ι] in
theorem executors_after (hp : p ⟨i, o, a, h.cur⟩ = true) :
    (h.after i o a s).executors p = i :: h.executors p := by
  rw [executors, after, List.filter_cons_of_pos hp]
  rfl

omit [DecidableEq ι] in
theorem executors_after_of_not (hp : p ⟨i, o, a, h.cur⟩ = false) :
    (h.after i o a s).executors p = h.executors p := by
  rw [executors, after, List.filter_cons_of_neg (by simp [hp])]
  rfl

theorem mem_executors : i ∈ h.executors p ↔ ∃ e ∈ h.own i, p e = true := by
  simp only [executors, List.mem_map, List.mem_filter, mem_own]
  constructor
  · rintro ⟨e, ⟨he, hp⟩, hwho⟩
    exact ⟨e, ⟨he, hwho⟩, hp⟩
  · rintro ⟨e, ⟨he, hwho⟩, hp⟩
    exact ⟨e, ⟨he, hp⟩, hwho⟩

end Executors

end History

/-- The system that records what happens in it.  A thread serves one request in its life. -/
def recorded [DecidableEq ι] (body : ρ → Prog Op Res ε α)
    (run : ι → (o : Op) → Res o → S → Option (Res o × S)) (env : E → S → Option S) :
    Sys Op Res ε (History Op Res S ι ρ) ι ρ α E where
  body := body
  enter i r h := if i ∈ h.arrived.map Prod.fst then none
    else some { h with arrived := (i, r) :: h.arrived }
  run i o a h := (run i o a h.cur).map fun x =>
    (x.1, ⟨x.2, h.arrived, ⟨i, o, x.1, h.cur⟩ :: h.log⟩)
  env e h := (env e h.cur).map fun s => { h with cur := s }

section Recorded

variable [DecidableEq ι] {body : ρ → Prog Op Res ε α}
  {run : ι → (o : Op) → Res o → S → Option (Res o × S)} {env : E → S → Option S}
  {h h' : History Op Res S ι ρ} {i : ι}

theorem recorded_enter {r : ρ} (hs : (recorded body run env).enter i r h = some h') :
    i ∉ h.arrived.map Prod.fst ∧ h' = { h with arrived := (i, r) :: h.arrived } := by
  simp only [recorded] at hs
  split at hs
  · cases hs
  · exact ⟨‹_›, (Option.some.inj hs).symm⟩

theorem recorded_run {o : Op} {a b : Res o}
    (hs : (recorded body run env).run i o a h = some (b, h')) :
    ∃ t, run i o a h.cur = some (b, t) ∧ h' = ⟨t, h.arrived, ⟨i, o, b, h.cur⟩ :: h.log⟩ := by
  obtain ⟨⟨b', t⟩, hrun, heq⟩ := Option.map_eq_some_iff.1 hs
  obtain ⟨rfl, rfl⟩ := Prod.mk.inj heq
  exact ⟨t, hrun, rfl⟩

/-- A statement is not executed and raises, or it is executed under the suggested answer and
    recorded. -/
theorem recorded_reply {o : Op} {r : Reply ε (Res o)} {out : Except ε (Res o)}
    (hs : r.apply ((recorded body run env).run i o) h = some (out, h')) :
    (r.executes = false ∧ h' = h) ∨ ∃ a b t, (r = .ok a ∨ ∃ e, r = .lost a e) ∧
      run i o a h.cur = some (b, t) ∧ h' = ⟨t, h.arrived, ⟨i, o, b, h.cur⟩ :: h.log⟩ := by
  cases r with
  | failed e => exact .inl ⟨rfl, (Prod.mk.inj (Option.some.inj hs)).2.symm⟩
  | ok a =>
    obtain ⟨⟨b, t⟩, hrun, heq⟩ := Option.map_eq_some_iff.1 hs
    obtain ⟨-, rfl⟩ := Prod.mk.inj heq
    obtain ⟨t', hx, rfl⟩ := recorded_run hrun
    exact .inr ⟨a, b, t', .inl rfl, hx, rfl⟩
  | lost a e =>
    obtain ⟨⟨b, t⟩, hrun, heq⟩ := Option.map_eq_some_iff.1 hs
    obtain ⟨-, rfl⟩ := Prod.mk.inj heq
    obtain ⟨t', hx, rfl⟩ := recorded_run hrun
    exact .inr ⟨a, b, t', .inr ⟨e, rfl⟩, hx, rfl⟩

/-- A statement is not executed and raises, or it is executed and recorded. -/
theorem recorded_apply {o : Op} {r : Reply ε (Res o)} {out : Except ε (Res o)}
    (hs : r.apply ((recorded body run env).run i o) h = some (out, h')) :
    (r.executes = false ∧ h' = h) ∨ ∃ a b t, r.executes = true ∧
      run i o a h.cur = some (b, t) ∧ h' = ⟨t, h.arrived, ⟨i, o, b, h.cur⟩ :: h.log⟩ := by
  rcases recorded_reply hs with hsame | ⟨a, b, t, hr, hx, heq⟩
  · exact .inl hsame
  · have hexec : r.executes = true := by rcases hr with rfl | ⟨e, rfl⟩ <;> rfl
    exact .inr ⟨a, b, t, hexec, hx, heq⟩

/-- A statement, answered or not, admits no request. -/
theorem recorded_apply_arrived {o : Op} {r : Reply ε (Res o)} {out : Except ε (Res o)}
    (hs : r.apply ((recorded body run env).run i o) h = some (out, h')) :
    h'.arrived = h.arrived := by
  rcases recorded_apply hs with ⟨-, rfl⟩ | ⟨a, b, t, -, -, rfl⟩ <;> rfl

/-- A statement, answered or not, adds at most itself to the record. -/
theorem recorded_apply_log {o : Op} {r : Reply ε (Res o)} {out : Except ε (Res o)}
    (hs : r.apply ((recorded body run env).run i o) h = some (out, h')) :
    ∀ e ∈ h'.log, (e.who = i ∧ e.op = o) ∨ e ∈ h.log := by
  intro e he
  rcases recorded_apply hs with ⟨-, rfl⟩ | ⟨a, b, t, -, -, rfl⟩
  · exact .inr he
  · rcases List.mem_cons.1 he with rfl | he
    · exact .inl ⟨rfl, rfl⟩
    · exact .inr he

theorem recorded_env {e : E} (hs : (recorded body run env).env e h = some h') :
    ∃ t, env e h.cur = some t ∧ h' = { h with cur := t } := by
  obtain ⟨t, ht, rfl⟩ := Option.map_eq_some_iff.1 hs
  exact ⟨t, ht, rfl⟩

end Recorded

/-! ## Recording a given system -/

namespace Sys

/-- `M`, with a record of its requests and statements beside its state. -/
def recording (M : Sys Op Res ε S ι ρ α E) : Sys Op Res ε (History Op Res S ι ρ) ι ρ α E where
  body := M.body
  enter i r h := (M.enter i r h.cur).map fun s => ⟨s, (i, r) :: h.arrived, h.log⟩
  run i o a h := (M.run i o a h.cur).map fun x =>
    (x.1, ⟨x.2, h.arrived, ⟨i, o, x.1, h.cur⟩ :: h.log⟩)
  env e h := (M.env e h.cur).map fun s => { h with cur := s }

variable {M : Sys Op Res ε S ι ρ α E} {h h' : History Op Res S ι ρ} {i : ι}

theorem recording_enter {r : ρ} (hs : M.recording.enter i r h = some h') :
    ∃ s, M.enter i r h.cur = some s ∧ h' = ⟨s, (i, r) :: h.arrived, h.log⟩ := by
  obtain ⟨t, ht, rfl⟩ := Option.map_eq_some_iff.1 hs
  exact ⟨t, ht, rfl⟩

/-- A statement is not executed and raises, or it is executed and recorded. -/
theorem recording_apply [DecidableEq ι] {o : Op} {r : Reply ε (Res o)} {out : Except ε (Res o)}
    (hs : r.apply (M.recording.run i o) h = some (out, h')) :
    (r.executes = false ∧ h' = h) ∨ ∃ a b t, r.executes = true ∧
      M.run i o a h.cur = some (b, t) ∧ h' = ⟨t, h.arrived, ⟨i, o, b, h.cur⟩ :: h.log⟩ := by
  have hrun : r.apply ((recorded M.body M.run M.env).run i o) h = some (out, h') := hs
  exact recorded_apply hrun

theorem recording_env {e : E} (hs : M.recording.env e h = some h') :
    ∃ t, M.env e h.cur = some t ∧ h' = { h with cur := t } := by
  obtain ⟨t, ht, rfl⟩ := Option.map_eq_some_iff.1 hs
  exact ⟨t, ht, rfl⟩

/-- Recording changes nothing: an act comes to the same with and without it. -/
theorem recording_exec [DecidableEq ι] {c : Config Op Res ε S ι ρ α}
    {c' : Config Op Res ε (History Op Res S ι ρ) ι ρ α} (hcur : c'.shared.cur = c.shared)
    (hthread : c'.thread = c.thread) (a : Act Op Res ε ι ρ E) :
    (M.recording.exec c' a).shared.cur = (M.exec c a).shared ∧
      (M.recording.exec c' a).thread = (M.exec c a).thread := by
  cases a with
  | enter i r =>
    simp only [exec, recording, hthread, hcur]
    cases hi : c.thread i with
    | some x => exact ⟨hcur, hthread⟩
    | none =>
      cases M.enter i r c.shared with
      | none => exact ⟨hcur, hthread⟩
      | some s => exact ⟨rfl, by simp only [Option.map_some, Config.put, hthread]⟩
  | step i f =>
    simp only [exec, hthread]
    split
    · rename_i r o k hi
      cases f o with
      | failed e => exact ⟨hcur, by simp only [Reply.apply, Config.put, hthread]⟩
      | ok a | lost a e =>
        simp only [Reply.apply, recording, hcur]
        cases M.run i o a c.shared with
        | none => exact ⟨hcur, hthread⟩
        | some x => exact ⟨rfl, by simp only [Option.map_some, Config.put, hthread]⟩
    · exact ⟨hcur, hthread⟩
  | crash i =>
    simp only [exec, hthread]
    split
    · exact ⟨hcur, by simp only [Config.put, hthread]⟩
    · exact ⟨hcur, hthread⟩
  | env e =>
    simp only [exec, recording, hcur]
    cases M.env e c.shared with
    | none => exact ⟨hcur, hthread⟩
    | some s => exact ⟨rfl, hthread⟩

/-- Every run has a recording. -/
theorem Reach.recording [DecidableEq ι]
    {ok : Config Op Res ε S ι ρ α → Act Op Res ε ι ρ E → Prop}
    {ok' : Config Op Res ε (History Op Res S ι ρ) ι ρ α → Act Op Res ε ι ρ E → Prop} {s₀ : S}
    {c : Config Op Res ε S ι ρ α}
    (hok : ∀ c c' a, c'.shared.cur = c.shared → c'.thread = c.thread → ok c a → ok' c' a)
    (hr : M.Reach ok (.idle s₀) c) :
    ∃ c', M.recording.Reach ok' (.idle ⟨s₀, [], []⟩) c' ∧ c'.shared.cur = c.shared ∧
      c'.thread = c.thread := by
  induction hr with
  | init => exact ⟨_, .init, rfl, rfl⟩
  | act a _ ha ih =>
    obtain ⟨c', hr', hcur, hthread⟩ := ih
    exact ⟨_, .act a hr' (hok _ c' a hcur hthread ha), recording_exec hcur hthread a⟩

end Sys

end Interleave
