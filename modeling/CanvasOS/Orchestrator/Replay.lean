/-
  Runs in which every statement is answered.

  1. `reply` — the answer a state gives to a statement; what lies outside the tables answers as the
     given `world` says.
  2. `handle` — a message is received and handled for a number of turns.
  3. A message that is handled to its end leaves a quiet worker (`reach_handle`), so messages handled
     one after the other are a run that handles one message at a time.
-/
import CanvasOS.Orchestrator.Worker

namespace CanvasOS.Orchestrator

open Interleave

instance : (q : Query) → Inhabited q.Res
  | .insertTaskBatch _ | .transition _ _ _ | .setResultRef _ _ | .publishTask _ | .publishAlert _
  | .completeTask _ | .completeEvent _ | .invoke _ | .releaseAdvisoryLock _ | .notify _ => ⟨()⟩
  | .pendingDependents _ | .getTasks _ | .findDependentTasks _ => ⟨[]⟩
  | .countCompleted _ | .incrementRetry _ => ⟨0⟩
  | .getTask _ => ⟨none⟩
  | .work _ _ => ⟨(default : Outcome)⟩
  | .campaign _ => ⟨""⟩
  | .factCheckGateApproved | .tryAdvisoryLock _ => ⟨true⟩
  | .review _ _ => ⟨(default : Reviewed)⟩
  | .regenerate _ _ _ => ⟨(default : Regenerated)⟩

/-- What the models, the services and the clock answer, in a given state. -/
abbrev World := (q : Query) → State → q.Res

/-- The answer to a statement: the matching rows in table order, or what the world says. -/
def reply (world : World) (s : State) : (q : Query) → q.Res
  | .pendingDependents taskId =>
    s.tasks.filter fun r => taskId ∈ r.dependsOn && r.state == .pending
  | .getTasks taskIds => s.tasks.filter fun r => r.taskId ∈ taskIds
  | .findDependentTasks taskId => s.tasks.filter fun r => taskId ∈ r.dependsOn
  | q => world q s

variable (S : Settings) (world : World)

/-- Thread `i` executes its next statement and is answered. -/
def turn (i : Nat) (c : Snapshot) : Snapshot :=
  (worker S).exec c (.step i fun o => .ok (reply world c.shared o.query))

/-- It does so a number of times. -/
def turns (i : Nat) : Nat → Snapshot → Snapshot
  | 0, c => c
  | n + 1, c => turns i n (turn S world i c)

/-- Message `d` is received by thread `i`, and handled for `n` turns. -/
def handle (i : Nat) (d : Delivery) (n : Nat) (c : Snapshot) : Snapshot :=
  turns S world i n ((worker S).exec c (.enter i d))

/-- Messages are handled one after the other, by threads `i`, `i + 1`, …, for `n` turns each. -/
def handleAll (n : Nat) : List Delivery → Nat → Snapshot → Snapshot
  | [], _, c => c
  | d :: ds, i, c => handleAll n ds (i + 1) (handle S world i d n c)

/-- Each statement of these turns meets `fine`. -/
def turnsMeet (fine : Snapshot → Nat → Bool) (i : Nat) : Nat → Snapshot → Bool
  | 0, _ => true
  | n + 1, c => fine c i && turnsMeet fine i n (turn S world i c)

/-- Each of these messages meets `good` when it is received, its statements meet `fine`, and its
    routine has ended when the next one is received. -/
def allMeet (good : Snapshot → Delivery → Bool) (fine : Snapshot → Nat → Bool) (n : Nat) :
    List Delivery → Nat → Snapshot → Bool
  | [], _, _ => true
  | d :: ds, i, c =>
    good c d && turnsMeet S world fine i n ((worker S).exec c (.enter i d)) &&
      ((handle S world i d n c).next i).isNone &&
      allMeet good fine n ds (i + 1) (handle S world i d n c)

variable {S world} {ok : Snapshot → Action → Prop} {c₀ c : Snapshot} {i : Nat} {d : Delivery}
  {good : Snapshot → Delivery → Bool} {fine : Snapshot → Nat → Bool}

theorem reach_turns
    (hstep : ∀ c i f, fine c i = true → (∀ o, (f o).answers = true) → ok c (.step i f)) (n : Nat)
    (hc : (worker S).Reach ok c₀ c) (hfine : turnsMeet S world fine i n c = true) :
    (worker S).Reach ok c₀ (turns S world i n c) := by
  induction n generalizing c with
  | zero => exact hc
  | succ n ih =>
    rw [turnsMeet, Bool.and_eq_true] at hfine
    exact ih (.act _ hc (hstep _ _ _ hfine.1 fun _ => rfl)) hfine.2

/-- Where any statement is allowed, any turns are. -/
theorem reach_turns_of_free (hstep : ∀ c f, ok c (.step i f)) (n : Nat)
    (hc : (worker S).Reach ok c₀ c) : (worker S).Reach ok c₀ (turns S world i n c) := by
  induction n generalizing c with
  | zero => exact hc
  | succ n ih => exact ih (.act _ hc (hstep _ _))

/-- An act of thread `i` leaves the others as they are. -/
theorem thread_exec {a : Action} (ha : (∃ d, a = .enter i d) ∨ ∃ f, a = .step i f) {j : Nat}
    (hj : j ≠ i) : ((worker S).exec c a).thread j = c.thread j := by
  refine Sys.exec_cases (P := fun c' => c'.thread j = c.thread j) a rfl ?_ ?_ ?_ ?_
  · rintro k d s rfl - -
    rcases ha with ⟨_, h⟩ | ⟨_, h⟩ <;> cases h
    exact Function.update_of_ne hj _ _
  · rintro k f d o p out s rfl - -
    rcases ha with ⟨_, h⟩ | ⟨_, h⟩ <;> cases h
    exact Function.update_of_ne hj _ _
  · rintro k d p rfl -
    rcases ha with ⟨_, h⟩ | ⟨_, h⟩ <;> cases h
  · rintro e s rfl -
    rfl

theorem thread_turns (n : Nat) {j : Nat} (hj : j ≠ i) :
    (turns S world i n c).thread j = c.thread j := by
  induction n generalizing c with
  | zero => rfl
  | succ n ih => exact ih.trans (thread_exec (.inr ⟨_, rfl⟩) hj)

/-- A message that has been handled to its end leaves a quiet worker. -/
theorem quiet_handle {n : Nat} (hq : Quiet c) (hdone : (handle S world i d n c).next i = none) :
    Quiet (handle S world i d n c) := by
  rintro j ⟨d', o, k, hj⟩
  by_cases hji : j = i
  · subst hji
    rw [Config.next, hj] at hdone
    cases hdone
  · refine hq j ⟨d', o, k, ?_⟩
    rw [← hj]
    exact ((thread_turns n hji).trans (thread_exec (.inl ⟨d, rfl⟩) hji)).symm

/-- So does one whose worker dies. -/
theorem quiet_crash {n : Nat} (hq : Quiet c) :
    Quiet ((worker S).exec (handle S world i d n c) (.crash i)) := by
  rintro j ⟨d', o, k, hj⟩
  have hother : j ≠ i → (handle S world i d n c).thread j = c.thread j := fun hji =>
    (thread_turns n hji).trans (thread_exec (.inl ⟨d, rfl⟩) hji)
  simp only [Sys.exec] at hj
  split at hj
  · rcases Config.put_thread.1 hj with ⟨-, -, hp⟩ | ⟨hji, hj⟩
    · cases hp
    · exact hq j ⟨d', o, k, (hother hji).symm.trans hj⟩
  · rename_i hnone
    by_cases hji : j = i
    · subst hji
      exact hnone _ _ hj
    · exact hq j ⟨d', o, k, (hother hji).symm.trans hj⟩

/-- Messages handled one after the other are a run that handles one message at a time. -/
theorem reach_handleAll
    (henter : ∀ c i d, Quiet c → good c d = true → ok c (.enter i d))
    (hstep : ∀ c i f, fine c i = true → (∀ o, (f o).answers = true) → ok c (.step i f)) {n : Nat}
    (ds : List Delivery) (hc : (worker S).Reach ok c₀ c ∧ Quiet c)
    (hmeet : allMeet S world good fine n ds i c = true) :
    (worker S).Reach ok c₀ (handleAll S world n ds i c) ∧ Quiet (handleAll S world n ds i c) := by
  induction ds generalizing i c with
  | nil => exact hc
  | cons d ds ih =>
    simp only [allMeet, Bool.and_eq_true, Option.isNone_iff_eq_none] at hmeet
    obtain ⟨⟨⟨hgood, hfine⟩, hdone⟩, hrest⟩ := hmeet
    exact ih ⟨reach_turns hstep n (.act _ hc.1 (henter _ _ _ hc.2 hgood)) hfine,
      quiet_handle hc.2 hdone⟩ hrest

theorem quiet_idle (s : State) : Quiet (.idle s) := fun _ ⟨_, _, _, h⟩ => nomatch h

/-- A heartbeat fires. -/
theorem reach_fire {event : Nat} (henv : ∀ c e, ok c (.env e))
    (hc : (worker S).Reach ok c₀ c ∧ Quiet c) :
    (worker S).Reach ok c₀ ((worker S).exec c (.env (.fire event))) ∧
      Quiet ((worker S).exec c (.env (.fire event))) :=
  ⟨.act _ hc.1 (henv _ _), hc.2⟩

end CanvasOS.Orchestrator
