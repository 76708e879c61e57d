/-
  Routines (`Lib.Prog`) on one database with nested transactions (`Lib.Transaction`).

  1. `Ledgered` — every statement does to the sessions what `stepOf` says of it and its answer.
  2. `Deed`, `Standing`, `deed` — what a connection has executed, each statement with the levels it
     found, and the levels now: the part of the state that belongs to one routine.
  3. `landed` — what a statement adds to the committed data.
-/
import CanvasOS.Lib.Part
import CanvasOS.Lib.Transaction

namespace Interleave

open Transaction

variable {Op : Type} {Res : Op → Type} {ε S C D ι ρ α E : Type}

/-- `stepOf` says what a statement, once it is answered, does to the sessions `db` of the state. -/
structure Ledgered [DecidableEq ι] (run : ι → (o : Op) → Res o → S → Option (Res o × S))
    (db : S → Sessions ι C D) (apply : C → D → D) (stepOf : (o : Op) → Res o → Step C) : Prop where
  run : ∀ i o a b s t, run i o a s = some (b, t) → db t = (stepOf o b).run apply i (db s)

/-- An executed statement, with the levels of its connection before it. -/
structure Deed (Op : Type) (Res : Op → Type) (C : Type) where
  op : Op
  ans : Res op
  levels : List (List C)

/-- What a connection has executed, newest first, and its levels. -/
structure Standing (Op : Type) (Res : Op → Type) (C : Type) where
  levels : List (List C)
  deeds : List (Deed Op Res C)

section Deeds

variable (stepOf : (o : Op) → Res o → Step C)

/-- What the statement committed. -/
def Deed.landed (d : Deed Op Res C) : List C := (stepOf d.op d.ans).landed d.levels

/-- What the connection has committed, newest first. -/
def Standing.landed (x : Standing Op Res C) : List C := x.deeds.flatMap (Deed.landed stepOf)

/-- One more statement. -/
def Standing.after (x : Standing Op Res C) (o : Op) (a : Res o) : Standing Op Res C :=
  ⟨(stepOf o a).levels x.levels, ⟨o, a, x.levels⟩ :: x.deeds⟩

/-- Every answer is possible; the statement is written down. -/
def deed (o : Op) (a : Res o) (x : Standing Op Res C) : Option (Res o × Standing Op Res C) :=
  some (a, x.after stepOf o a)

variable {stepOf}

theorem deed_eq_some {o : Op} {a b : Res o} {x y : Standing Op Res C}
    (h : deed stepOf o a x = some (b, y)) : y = x.after stepOf o b := by
  obtain ⟨rfl, rfl⟩ := Prod.mk.inj (Option.some.inj h)
  rfl

@[simp] theorem Standing.after_levels (x : Standing Op Res C) (o : Op) (a : Res o) :
    (x.after stepOf o a).levels = (stepOf o a).levels x.levels := rfl

@[simp] theorem Standing.after_landed (x : Standing Op Res C) (o : Op) (a : Res o) :
    (x.after stepOf o a).landed stepOf = (stepOf o a).landed x.levels ++ x.landed stepOf := rfl

theorem Standing.mem_after {x : Standing Op Res C} {o : Op} {a : Res o} {d : Deed Op Res C} :
    d ∈ (x.after stepOf o a).deeds ↔ d = ⟨o, a, x.levels⟩ ∨ d ∈ x.deeds := List.mem_cons

end Deeds

section Recorded

variable [DecidableEq ι] {body : ρ → Prog Op Res ε α}
  {run : ι → (o : Op) → Res o → S → Option (Res o × S)} {env : E → S → Option S}
  {db : S → Sessions ι C D} {apply : C → D → D} {stepOf : (o : Op) → Res o → Step C}
  {ok : Config Op Res ε (History Op Res S ι ρ) ι ρ α → Act Op Res ε ι ρ E → Prop}
  {c : Config Op Res ε (History Op Res S ι ρ) ι ρ α} {s₀ : S}

/-- A recorded statement, as a deed of its connection. -/
def Event.deed (db : S → Sessions ι C D) (e : Event Op Res S ι) : Deed Op Res C :=
  ⟨e.op, e.ans, (db e.pre).levels e.who⟩

/-- What a recorded statement committed. -/
def Event.landed (db : S → Sessions ι C D) (stepOf : (o : Op) → Res o → Step C)
    (e : Event Op Res S ι) : List C := (e.deed db).landed stepOf

/-- Where connection `i` stands. -/
def History.standing (db : S → Sessions ι C D) (i : ι) (h : History Op Res S ι ρ) :
    Standing Op Res C :=
  ⟨(db h.cur).levels i, (h.own i).map (Event.deed db)⟩

theorem History.mem_deeds {h : History Op Res S ι ρ} {i : ι} {d : Deed Op Res C} :
    d ∈ (h.standing db i).deeds ↔ ∃ e ∈ h.log, e.who = i ∧ e.deed db = d := by
  simp only [History.standing, List.mem_map, History.mem_own]
  constructor
  · rintro ⟨e, ⟨he, hi⟩, hd⟩
    exact ⟨e, he, hi, hd⟩
  · rintro ⟨e, he, hi, hd⟩
    exact ⟨e, ⟨he, hi⟩, hd⟩

/-- What the statements of connection `i` have committed, newest first. -/
def History.landedBy (db : S → Sessions ι C D) (stepOf : (o : Op) → Res o → Step C)
    (h : History Op Res S ι ρ) (i : ι) : List C := (h.own i).flatMap (Event.landed db stepOf)

theorem History.landed_standing {h : History Op Res S ι ρ} {i : ι} :
    (h.standing db i).landed stepOf = h.landedBy db stepOf i := by
  unfold Standing.landed History.standing History.landedBy
  rw [List.flatMap_map]
  rfl

/-- A statement of a connection goes on its own record. -/
theorem History.standing_self (hdb : Ledgered run db apply stepOf) {h : History Op Res S ι ρ}
    {i : ι} {o : Op} {a b : Res o} {t : S} (hx : run i o a h.cur = some (b, t)) :
    (⟨t, h.arrived, ⟨i, o, b, h.cur⟩ :: h.log⟩ : History Op Res S ι ρ).standing db i =
      (h.standing db i).after stepOf o b := by
  have hlevels := hdb.run i o a b h.cur t hx
  have hown : (⟨t, h.arrived, ⟨i, o, b, h.cur⟩ :: h.log⟩ : History Op Res S ι ρ).own i =
      ⟨i, o, b, h.cur⟩ :: h.own i := History.own_self
  unfold History.standing Standing.after
  rw [hown, hlevels, Step.run_self]
  rfl

/-- It does not change where the others stand. -/
theorem History.standing_of_ne (hdb : Ledgered run db apply stepOf) {h : History Op Res S ι ρ}
    {i j : ι} {o : Op} {a b : Res o} {t : S} (hx : run i o a h.cur = some (b, t)) (hji : j ≠ i) :
    (⟨t, h.arrived, ⟨i, o, b, h.cur⟩ :: h.log⟩ : History Op Res S ι ρ).standing db j =
      h.standing db j := by
  have hlevels := hdb.run i o a b h.cur t hx
  unfold History.standing
  rw [hlevels, Step.run_of_ne _ _ hji, History.own_cons.others j hji]

/-- Where a connection stands is its own part of the state. -/
theorem standing_parted (hdb : Ledgered run db apply stepOf)
    (henv : ∀ c e t j, ok c (.env e) → env e c.shared.cur = some t →
      (∀ r, c.thread j ≠ some (r, none)) → (db t).levels j = (db c.shared.cur).levels j) :
    Parted (recorded body run env) ok (fun i h => h.standing db i) (deed stepOf) where
  enter i r h h' j hs := by
    obtain ⟨-, rfl⟩ := recorded_enter hs
    rfl
  run i o a b h h' hs := by
    obtain ⟨t, hx, rfl⟩ := recorded_run hs
    rw [History.standing_self hdb hx]
    rfl
  others i o a b h h' j hs hji := by
    obtain ⟨t, hx, rfl⟩ := recorded_run hs
    exact History.standing_of_ne hdb hx hji
  env c e h' j hok hs hj := by
    obtain ⟨t, ht, rfl⟩ := recorded_env hs
    show (⟨_, _⟩ : Standing Op Res C) = ⟨_, _⟩
    rw [henv c e t j hok ht hj]
    rfl

/-- Every recorded statement was executed in the state before it. -/
theorem Sys.Reach.event_ran
    (hr : (recorded body run env).Reach ok (.idle ⟨s₀, [], []⟩) c) :
    ∀ e ∈ c.shared.log, ∃ a t, run e.who e.op a e.pre = some (e.ans, t) := by
  refine hr.shared_invariant (I := fun h => ∀ e ∈ h.log, ∃ a t,
    run e.who e.op a e.pre = some (e.ans, t)) (fun e he => absurd he List.not_mem_nil) ?_ ?_ ?_
  · intro c i r h' _ hI hs
    obtain ⟨-, rfl⟩ := recorded_enter hs
    exact hI
  · intro c i f r o k out h' _ _ hI hs e he
    rcases recorded_apply hs with ⟨-, rfl⟩ | ⟨a, b, t, -, hx, rfl⟩
    · exact hI e he
    · rcases List.mem_cons.1 he with rfl | he
      · exact ⟨a, t, hx⟩
      · exact hI e he
  · intro c e h' _ hI hs
    obtain ⟨t, ht, rfl⟩ := recorded_env hs
    exact hI

/-- The statement wrote the change. -/
def Event.wrote (stepOf : (o : Op) → Res o → Step C) (e : Event Op Res S ι) (ch : C) : Prop :=
  ch ∈ (stepOf e.op e.ans).written

/-- Whatever a connection holds or has committed, one of its statements wrote. -/
theorem Sys.Reach.origin (hdb : Ledgered run db apply stepOf)
    (henv : ∀ e s t i, env e s = some t → (db t).levels i = (db s).levels i ∨ (db t).levels i = [])
    (h₀ : ∀ i, (db s₀).levels i = [])
    (hr : (recorded body run env).Reach ok (.idle ⟨s₀, [], []⟩) c) :
    (∀ i, ∀ ch ∈ ((db c.shared.cur).levels i).flatten,
      ∃ e ∈ c.shared.log, e.who = i ∧ e.wrote stepOf ch) ∧
    ∀ e ∈ c.shared.log, ∀ ch ∈ e.landed db stepOf,
      ∃ e' ∈ c.shared.log, e'.who = e.who ∧ e'.wrote stepOf ch := by
  let I (h : History Op Res S ι ρ) : Prop :=
    (∀ i, ∀ ch ∈ ((db h.cur).levels i).flatten, ∃ e ∈ h.log, e.who = i ∧ e.wrote stepOf ch) ∧
    ∀ e ∈ h.log, ∀ ch ∈ e.landed db stepOf, ∃ e' ∈ h.log, e'.who = e.who ∧ e'.wrote stepOf ch
  have hinit : I ⟨s₀, [], []⟩ := by
    refine ⟨fun i ch hch => ?_, fun e he => absurd he List.not_mem_nil⟩
    rw [h₀ i] at hch
    exact absurd hch List.not_mem_nil
  refine hr.shared_invariant (I := I) hinit ?_ ?_ ?_
  · intro c i r h' _ hI hs
    obtain ⟨-, rfl⟩ := recorded_enter hs
    exact hI
  · intro c i f r o k out h' _ _ hI hs
    rcases recorded_apply hs with ⟨-, rfl⟩ | ⟨a, b, t, -, hx, rfl⟩
    · exact hI
    obtain ⟨hlevels, hlanded⟩ := hI
    have hgrow {j : ι} {ch : C} (h : ∃ e ∈ c.shared.log, e.who = j ∧ e.wrote stepOf ch) :
        ∃ e ∈ (⟨i, o, b, c.shared.cur⟩ : Event Op Res S ι) :: c.shared.log,
          e.who = j ∧ e.wrote stepOf ch := by
      obtain ⟨e, he, hwho, hwrote⟩ := h
      exact ⟨e, List.mem_cons_of_mem _ he, hwho, hwrote⟩
    refine ⟨fun j ch hch => ?_, fun e he ch hch => ?_⟩
    · have hdbt := hdb.run i o a b _ t hx
      by_cases hji : j = i
      · subst hji
        rw [hdbt, Step.run_self] at hch
        rcases Step.mem_levels hch with hch | hch
        · exact ⟨_, List.mem_cons_self, rfl, hch⟩
        · exact hgrow (hlevels j ch hch)
      · rw [hdbt, Step.run_of_ne _ _ hji] at hch
        exact hgrow (hlevels j ch hch)
    · rcases List.mem_cons.1 he with rfl | he
      · rcases Step.mem_landed hch with hch | hch
        · exact ⟨_, List.mem_cons_self, rfl, hch⟩
        · exact hgrow (hlevels i ch hch)
      · exact hgrow (hlanded e he ch hch)
  · intro c e h' _ hI hs
    obtain ⟨t, ht, rfl⟩ := recorded_env hs
    refine ⟨fun i ch hch => ?_, hI.2⟩
    rcases henv e _ t i ht with hlevels | hlevels
    · rw [hlevels] at hch
      exact hI.1 i ch hch
    · rw [hlevels] at hch
      exact absurd hch List.not_mem_nil

end Recorded

end Interleave
