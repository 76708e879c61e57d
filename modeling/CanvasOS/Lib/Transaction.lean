/-
  Nested transactions of many connections on one database.

  1. `Sessions` — the committed data and, of every connection, the CHANGES that are not committed
     yet, savepoint by savepoint.  A change is applied when its transaction commits; until then only
     its own connection sees it (`view`).
  2. `write`, `begin`, `commit`, `rollback` — a change outside of a transaction is committed at once;
     inside, `begin` sets a savepoint, `commit` keeps what came after it and `rollback` drops it.
  3. What each of them leaves of the committed data and of the others' sessions.
  4. `Step` — one of them, with what it makes of the levels of its connection (`Step.levels`) and what
     it adds to the committed data (`Step.landed`).
-/
import Mathlib.Logic.Function.Basic

namespace Transaction

variable {ι C D : Type}

/-- The committed data, and the open levels of every connection: the transaction is the last one,
    the innermost savepoint the first, and the newest change stands first in its level. -/
structure Sessions (ι C D : Type) where
  base : D
  levels : ι → List (List C)

namespace Sessions

/-- Nobody has a transaction open. -/
def idle (d : D) : Sessions ι C D := ⟨d, fun _ => []⟩

/-- What connection `i` has changed and not committed, newest first. -/
def pending (s : Sessions ι C D) (i : ι) : List C := (s.levels i).flatten

/-- The data as connection `i` sees it. -/
def view (apply : C → D → D) (s : Sessions ι C D) (i : ι) : D := (s.pending i).foldr apply s.base

variable [DecidableEq ι]

/-- The levels of connection `i` become `ls`. -/
def setLevels (s : Sessions ι C D) (i : ι) (ls : List (List C)) : Sessions ι C D :=
  ⟨s.base, Function.update s.levels i ls⟩

/-- A change of connection `i`. -/
def write (apply : C → D → D) (s : Sessions ι C D) (i : ι) (c : C) : Sessions ι C D :=
  match s.levels i with
  | [] => ⟨apply c s.base, s.levels⟩
  | l :: ls => s.setLevels i ((c :: l) :: ls)

/-- Changes of connection `i`, newest first. -/
def writes (apply : C → D → D) (s : Sessions ι C D) (i : ι) (cs : List C) : Sessions ι C D :=
  match s.levels i with
  | [] => ⟨cs.foldr apply s.base, s.levels⟩
  | l :: ls => s.setLevels i ((cs ++ l) :: ls)

/-- `BEGIN`, or `SAVEPOINT` inside a transaction. -/
def begin (s : Sessions ι C D) (i : ι) : Sessions ι C D := s.setLevels i ([] :: s.levels i)

/-- `COMMIT`, or `RELEASE SAVEPOINT` inside a transaction. -/
def commit (apply : C → D → D) (s : Sessions ι C D) (i : ι) : Sessions ι C D :=
  match s.levels i with
  | [] => s
  | [l] => ⟨l.foldr apply s.base, Function.update s.levels i []⟩
  | l :: m :: ls => s.setLevels i ((l ++ m) :: ls)

/-- `ROLLBACK`, or `ROLLBACK TO SAVEPOINT` inside a transaction. -/
def rollback (s : Sessions ι C D) (i : ι) : Sessions ι C D := s.setLevels i (s.levels i).tail

/-- The connection is given back, or lost. -/
def reset (s : Sessions ι C D) (i : ι) : Sessions ι C D := s.setLevels i []

/-! ## What each of them leaves -/

variable {apply : C → D → D} {s : Sessions ι C D} {i j : ι} {c : C} {l : List C}
  {ls : List (List C)}

@[simp] theorem setLevels_base : (s.setLevels i ls).base = s.base := rfl

@[simp] theorem setLevels_self : (s.setLevels i ls).levels i = ls := by
  simp [setLevels]

theorem setLevels_of_ne (h : j ≠ i) : (s.setLevels i ls).levels j = s.levels j := by
  simp [setLevels, h]

@[simp] theorem begin_base : (s.begin i).base = s.base := rfl

@[simp] theorem begin_self : (s.begin i).levels i = [] :: s.levels i := setLevels_self

@[simp] theorem rollback_base : (s.rollback i).base = s.base := rfl

@[simp] theorem rollback_self : (s.rollback i).levels i = (s.levels i).tail := setLevels_self

@[simp] theorem reset_base : (s.reset i).base = s.base := rfl

@[simp] theorem reset_self : (s.reset i).levels i = [] := setLevels_self

theorem write_outside (h : s.levels i = []) : s.write apply i c = ⟨apply c s.base, s.levels⟩ := by
  unfold write
  rw [h]

theorem write_inside (h : s.levels i = l :: ls) :
    s.write apply i c = s.setLevels i ((c :: l) :: ls) := by
  unfold write
  rw [h]

theorem commit_outermost (h : s.levels i = [l]) :
    s.commit apply i = ⟨l.foldr apply s.base, Function.update s.levels i []⟩ := by
  unfold commit
  rw [h]

theorem commit_savepoint {m : List C} (h : s.levels i = l :: m :: ls) :
    s.commit apply i = s.setLevels i ((l ++ m) :: ls) := by
  unfold commit
  rw [h]

theorem writes_nil : s.writes apply i [] = s := by
  cases h : s.levels i with
  | nil => simp [writes, h]
  | cons l ls =>
    have hsame : Function.update s.levels i (l :: ls) = s.levels := by
      rw [← h, Function.update_eq_self]
    simp [writes, h, setLevels, hsame]

theorem commit_of_ne (h : j ≠ i) : (s.commit apply i).levels j = s.levels j := by
  unfold commit
  split
  · rfl
  · simp [h]
  · exact setLevels_of_ne h

/-- A savepoint hides nothing from its own connection. -/
theorem view_begin : (s.begin i).view apply i = s.view apply i := by
  simp [view, pending]

end Sessions

/-! ## Steps -/

/-- What a statement does to the sessions. -/
inductive Step (C : Type) where
  | writes (cs : List C)
  /-- a change that is committed on a connection of its own -/
  | aside (c : C)
  | begin
  | commit
  | rollback
  | reset

namespace Step

variable [DecidableEq ι] {apply : C → D → D} {i j : ι}

/-- The step, by connection `i`. -/
def run (apply : C → D → D) (i : ι) (s : Sessions ι C D) : Step C → Sessions ι C D
  | .writes cs => s.writes apply i cs
  | .aside c => ⟨apply c s.base, s.levels⟩
  | .begin => s.begin i
  | .commit => s.commit apply i
  | .rollback => s.rollback i
  | .reset => s.reset i

/-- The levels of the connection after the step. -/
def levels : Step C → List (List C) → List (List C)
  | .writes cs, l :: ls => (cs ++ l) :: ls
  | .writes _, [] => []
  | .aside _, ls => ls
  | .begin, ls => [] :: ls
  | .commit, l :: m :: ls => (l ++ m) :: ls
  | .commit, _ => []
  | .rollback, ls => ls.tail
  | .reset, _ => []

/-- What the step commits. -/
def landed : Step C → List (List C) → List C
  | .writes cs, [] => cs
  | .aside c, _ => [c]
  | .commit, [l] => l
  | _, _ => []

/-- The changes that the step makes. -/
def written : Step C → List C
  | .writes cs => cs
  | .aside c => [c]
  | _ => []

/-- What is pending after a step was pending, or is written by it. -/
theorem mem_levels {st : Step C} {ls : List (List C)} {c : C} (h : c ∈ (st.levels ls).flatten) :
    c ∈ st.written ∨ c ∈ ls.flatten := by
  cases st with
  | writes cs =>
    cases ls with
    | nil => simp [levels] at h
    | cons l ls => simpa [levels, written, or_assoc] using h
  | commit =>
    match ls with
    | [] | [l] => simp [levels] at h
    | l :: m :: ls => simpa [levels, written] using h
  | rollback =>
    obtain ⟨l, hl, hc⟩ := List.mem_flatten.1 h
    exact .inr (List.mem_flatten.2 ⟨l, List.mem_of_mem_tail hl, hc⟩)
  | aside c => exact .inr h
  | begin => simpa [levels, written] using h
  | reset => simp [levels] at h

/-- What a step commits was pending, or is written by it. -/
theorem mem_landed {st : Step C} {ls : List (List C)} {c : C} (h : c ∈ st.landed ls) :
    c ∈ st.written ∨ c ∈ ls.flatten := by
  cases st with
  | writes cs =>
    cases ls with
    | nil => exact .inl h
    | cons l ls => simp [landed] at h
  | commit =>
    match ls with
    | [] | l :: m :: ls => simp [landed] at h
    | [l] => exact .inr (by simpa [landed] using h)
  | aside c => exact .inl h
  | begin | rollback | reset => simp [landed] at h

/-- What a step commits was pending, if the step is COMMIT; or the step writes it, aside or outside
    of a transaction. -/
theorem mem_landed_cases {st : Step C} {ls : List (List C)} {c : C} (h : c ∈ st.landed ls) :
    (st = .commit ∧ c ∈ ls.flatten) ∨ st = .aside c ∨ (ls = [] ∧ c ∈ st.written) := by
  cases st with
  | writes cs =>
    cases ls with
    | nil => exact .inr (.inr ⟨rfl, h⟩)
    | cons l ls => exact absurd h List.not_mem_nil
  | commit =>
    match ls with
    | [] | l :: m :: ls => exact absurd h List.not_mem_nil
    | [l] => exact .inl ⟨rfl, by simpa [landed] using h⟩
  | aside c' =>
    obtain rfl := List.mem_singleton.1 h
    exact .inr (.inl rfl)
  | begin | rollback | reset => exact absurd h List.not_mem_nil

/-- A step that commits leaves nothing pending, unless it is committed aside. -/
theorem landed_cases (st : Step C) (ls : List (List C)) :
    st.landed ls = [] ∨ st.levels ls = [] ∨ ∃ c, st = .aside c := by
  cases st with
  | writes cs => cases ls <;> simp [landed, levels]
  | commit =>
    match ls with
    | [] | [l] => exact .inr (.inl rfl)
    | l :: m :: ls => exact .inl rfl
  | aside c => exact .inr (.inr ⟨c, rfl⟩)
  | begin | rollback | reset => exact .inl rfl

theorem run_self (st : Step C) (s : Sessions ι C D) :
    (st.run apply i s).levels i = st.levels (s.levels i) := by
  cases st with
  | writes cs =>
    cases h : s.levels i with
    | nil => simp [run, Sessions.writes, levels, h]
    | cons l ls => simp [run, Sessions.writes, levels, h]
  | commit =>
    cases h : s.levels i with
    | nil => simp [run, Sessions.commit, levels, h]
    | cons l ls =>
      cases ls with
      | nil => simp [run, Sessions.commit_outermost h, levels]
      | cons m ls => simp [run, Sessions.commit_savepoint h, levels]
  | _ => simp [run, levels]

/-- The levels of the others stay as they are. -/
theorem run_of_ne (st : Step C) (s : Sessions ι C D) (hji : j ≠ i) :
    (st.run apply i s).levels j = s.levels j := by
  cases st with
  | writes cs =>
    simp only [run, Sessions.writes]
    split
    · rfl
    · exact Sessions.setLevels_of_ne hji
  | aside c => rfl
  | commit => exact Sessions.commit_of_ne hji
  | begin | rollback | reset => exact Sessions.setLevels_of_ne hji

theorem run_base (st : Step C) (s : Sessions ι C D) :
    (st.run apply i s).base = (st.landed (s.levels i)).foldr apply s.base := by
  cases st with
  | writes cs =>
    cases h : s.levels i with
    | nil => simp [run, Sessions.writes, landed, h]
    | cons l ls => simp [run, Sessions.writes, landed, h]
  | commit =>
    cases h : s.levels i with
    | nil => simp [run, Sessions.commit, landed, h]
    | cons l ls =>
      cases ls with
      | nil => simp [run, Sessions.commit_outermost h, landed]
      | cons m ls => simp [run, Sessions.commit_savepoint h, landed]
  | _ => simp [run, landed]

end Step

end Transaction
