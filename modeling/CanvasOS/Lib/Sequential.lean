/-
  Routines that run ONE AT A TIME, and Hoare triples for them.

  1. **Assertions** (`Assertion move`) — predicates on the shared state that the moves of the world
     keep.  Stability is a field, so it is proved once per assertion and never again at a statement.
  2. **Triples** (`Triple A run i P p Q E`) — from `P`, the routine `p` keeps the invariant and the
     guarantee of `A` at every statement it executes, and ends in `Q` with a value or in `E` with an
     exception.  One rule per constructor of `Prog` and per combinator.
  3. **Soundness** (`Sys.Reach.sound_sequential`) — runs in which a request arrives only when no
     routine is running.  What the state satisfies between two requests (`idle`) and while one of
     them is served (`inv`) are separate: a routine may break the first and must restore it.
-/
import CanvasOS.Lib.RelyGuarantee

namespace Interleave

variable {Op : Type} {Res : Op → Type} {ε S ι ρ α β E : Type} {move : S → S → Prop}

/-! ## Assertions -/

/-- A predicate that survives the moves of the world. -/
structure Assertion (move : S → S → Prop) where
  holds : S → Prop
  stable : ∀ s s', move s s' → holds s → holds s'

namespace Assertion

instance : CoeFun (Assertion move) fun _ => S → Prop := ⟨Assertion.holds⟩

/-- Both. -/
def and (P Q : Assertion move) : Assertion move :=
  ⟨fun s => P s ∧ Q s, fun s s' hs h => ⟨P.stable s s' hs h.1, Q.stable s s' hs h.2⟩⟩

/-- At least one. -/
def or (P Q : Assertion move) : Assertion move :=
  ⟨fun s => P s ∨ Q s, fun s s' hs h => h.imp (P.stable s s' hs) (Q.stable s s' hs)⟩

/-- A fact that has nothing to do with the state. -/
def fact (φ : Prop) : Assertion move := ⟨fun _ => φ, fun _ _ _ h => h⟩

/-- Given a fact that has nothing to do with the state. -/
def when (φ : Prop) (P : Assertion move) : Assertion move :=
  ⟨fun s => φ → P s, fun s s' hs h hφ => P.stable s s' hs (h hφ)⟩

/-- For every `x`. -/
def all {X : Type} (P : X → Assertion move) : Assertion move :=
  ⟨fun s => ∀ x, P x s, fun s s' hs h x => (P x).stable s s' hs (h x)⟩

/-- For some `x`. -/
def any {X : Type} (P : X → Assertion move) : Assertion move :=
  ⟨fun s => ∃ x, P x s, fun s s' hs ⟨x, h⟩ => ⟨x, (P x).stable s s' hs h⟩⟩

end Assertion

/-! ## Triples -/

/-- What a routine that runs alone must respect: the invariant while it runs, what it guarantees of
    each executed statement, and the replies it has to reckon with. -/
structure Alone (Op : Type) (Res : Op → Type) (ε S : Type) where
  inv : S → Prop
  guar : Op → S → S → Prop
  adm : (o : Op) → Reply ε (Res o) → Prop

/-- Only the world moves, along `move`. -/
def Alone.rules (A : Alone Op Res ε S) (move : S → S → Prop) [IsPreorder S move] :
    Rules Op Res ε S ι where
  inv := A.inv
  rely := fun _ => move
  guar := fun _ => A.guar
  adm := fun _ _ => A.adm
  rely_refl := fun _ s => refl_of move s
  rely_trans := fun _ _ _ _ h₁ h₂ => trans_of move h₁ h₂

/-- `o` may be executed, with `a` as the answer the environment suggests. -/
def Alone.Executes (A : Alone Op Res ε S) (o : Op) (a : Res o) : Prop :=
  A.adm o (.ok a) ∨ ∃ e, A.adm o (.lost a e)

variable [IsPreorder S move] {A : Alone Op Res ε S}
  {run : ι → (o : Op) → Res o → S → Option (Res o × S)} {i : ι}

/-- The weakest condition of `p` for ending in `Q` with a value and in `E` with an exception. -/
def Alone.wp (A : Alone Op Res ε S) (run : ι → (o : Op) → Res o → S → Option (Res o × S)) (i : ι)
    (p : Prog Op Res ε α) (Q : α → Assertion move) (E : ε → Assertion move) : S → Prop :=
  (A.rules move : Rules Op Res ε S ι).wp run i p fun
    | .ok a => Q a
    | .error e => E e

/-- `{P} p {Q | E}`. -/
def Triple (A : Alone Op Res ε S) (run : ι → (o : Op) → Res o → S → Option (Res o × S)) (i : ι)
    (P : Assertion move) (p : Prog Op Res ε α) (Q : α → Assertion move) (E : ε → Assertion move) :
    Prop :=
  ∀ s, P s → A.wp run i p Q E s

namespace Triple

variable {P P' M : Assertion move} {Q Q' : α → Assertion move} {E E' : ε → Assertion move}
  {p : Prog Op Res ε α}

theorem pure {a : α} (h : ∀ s, P s → Q a s) : Triple A run i P (.pure a) Q E :=
  fun s hP s' hs => (Q a).stable s s' hs (h s hP)

theorem throw {e : ε} (h : ∀ s, P s → E e s) :
    Triple A run i P (.throw e : Prog Op Res ε α) Q E :=
  fun s hP s' hs => (E e).stable s s' hs (h s hP)

theorem pre (hp : Triple A run i P' p Q E) (h : ∀ s, P s → P' s) : Triple A run i P p Q E :=
  fun s hP => hp s (h s hP)

theorem post (hp : Triple A run i P p Q' E') (hQ : ∀ a s, Q' a s → Q a s)
    (hE : ∀ e s, E' e s → E e s) : Triple A run i P p Q E :=
  fun s hP => (hp s hP).mono fun out s h => by
    cases out with
    | ok a => exact hQ a s h
    | error e => exact hE e s h

/-- A fact among the preconditions is a hypothesis. -/
theorem assume {φ : Prop} (hp : φ → Triple A run i P p Q E) :
    Triple A run i (.and (.fact φ) P) p Q E :=
  fun s hP => hp hP.1 s hP.2

/-- An existential among the preconditions is a variable. -/
theorem exists_pre {X : Type} {P : X → Assertion move} (hp : ∀ x, Triple A run i (P x) p Q E) :
    Triple A run i (.any P) p Q E :=
  fun s ⟨x, hP⟩ => hp x s hP

theorem bind {f : α → Prog Op Res ε β} {R : β → Assertion move} (hp : Triple A run i P p Q E)
    (hf : ∀ a, Triple A run i (Q a) (f a) R E) : Triple A run i P (p.bind f) R E :=
  fun s hP => Rules.wp.bind ((hp s hP).mono fun out s h => by
    cases out with
    | ok a => exact hf a s h
    | error e => exact h)

theorem tryCatch {h : ε → Prog Op Res ε α} (hp : Triple A run i P p Q E)
    (hh : ∀ e, Triple A run i (E e) (h e) Q E') : Triple A run i P (p.tryCatch h) Q E' :=
  fun s hP => Rules.wp.tryCatch ((hp s hP).mono fun out s h => by
    cases out with
    | ok a => exact h
    | error e => exact hh e s h)

/-- `try p finally q`: `q` keeps what either end of `p` established, unless it raises itself. -/
theorem thenFinally {q : Prog Op Res ε Unit} (hp : Triple A run i P p Q E)
    (hq : ∀ a, Triple A run i (Q a) q (fun _ => Q a) E')
    (hq' : ∀ e, Triple A run i (E e) q (fun _ => E' e) E') :
    Triple A run i P (p.thenFinally q) Q E' := by
  intro s hP
  replace hp := hp s hP
  clear hP
  induction p generalizing s with
  | pure a =>
    refine (hq a).bind (fun _ => Triple.pure fun _ h => h) s ?_
    exact hp s (refl_of move s)
  | throw e =>
    refine (hq' e).bind (fun _ => Triple.throw fun _ h => h) s ?_
    exact hp s (refl_of move s)
  | op o k ih =>
    intro s₁ h₁ hI r hr out s₂ hout
    obtain ⟨hI₂, hG, hk⟩ := hp s₁ h₁ hI r hr out s₂ hout
    exact ⟨hI₂, hG, ih out s₂ hk⟩

/-- One statement: in every state it may be executed in, the invariant survives and the guarantee
    is met, and each of its three outcomes is justified. -/
theorem op {o : Op} {k : Except ε (Res o) → Prog Op Res ε α} {M : Res o → Assertion move}
    (hexec : ∀ s a b t, P s → A.inv s → A.Executes o a → run i o a s = some (b, t) →
      A.inv t ∧ A.guar o s t ∧ M b t)
    (hsame : ∀ s e, P s → A.inv s → A.adm o (.failed e) → A.guar o s s)
    (hok : ∀ b, Triple A run i (M b) (k (.ok b)) Q E)
    (hfailed : ∀ e, A.adm o (.failed e) → Triple A run i P (k (.error e)) Q E)
    (hlost : ∀ a b e, A.adm o (.lost a e) → Triple A run i (M b) (k (.error e)) Q E) :
    Triple A run i P (.op o k) Q E := by
  intro s hP
  refine Rules.wp_op ?_ ?_ ?_
  · intro s₁ s₂ a b h₁ hI hadm hrun
    obtain ⟨hI₂, hG, hM⟩ := hexec s₁ a b s₂ (P.stable s s₁ h₁ hP) hI (.inl hadm) hrun
    exact ⟨hI₂, hG, hok b s₂ hM⟩
  · intro s₁ e h₁ hI hadm
    have hP₁ := P.stable s s₁ h₁ hP
    exact ⟨hsame s₁ e hP₁ hI hadm, hfailed e hadm s₁ hP₁⟩
  · intro s₁ s₂ a b e h₁ hI hadm hrun
    obtain ⟨hI₂, hG, hM⟩ := hexec s₁ a b s₂ (P.stable s s₁ h₁ hP) hI (.inr ⟨e, hadm⟩) hrun
    exact ⟨hI₂, hG, hlost a b e hadm s₂ hM⟩

/-- In front of a statement, the invariant holds. -/
theorem inv_pre {o : Op} {k : Except ε (Res o) → Prog Op Res ε α}
    (hp : Triple A run i P' (.op o k) Q E) (h : ∀ s, P s → A.inv s → P' s) :
    Triple A run i P (.op o k) Q E := fun s hP s₁ h₁ hI =>
  hp s₁ (h s₁ (P.stable s s₁ h₁ hP) hI) s₁ (refl_of move s₁) hI

/-- An invariant that the world keeps holds at the end. -/
theorem inv_post (hinv : ∀ s s', move s s' → A.inv s → A.inv s') (hp : Triple A run i P p Q E) :
    Triple A run i (.and P ⟨A.inv, hinv⟩) p (fun a => .and (Q a) ⟨A.inv, hinv⟩)
      fun e => .and (E e) ⟨A.inv, hinv⟩ := by
  rintro s ⟨hP, hI⟩
  replace hp := hp s hP
  clear hP
  induction p generalizing s with
  | pure a => exact fun s₁ h₁ => ⟨hp s₁ h₁, hinv s s₁ h₁ hI⟩
  | throw e => exact fun s₁ h₁ => ⟨hp s₁ h₁, hinv s s₁ h₁ hI⟩
  | op o k ih =>
    intro s₁ h₁ hI₁ r hr out s₂ hout
    obtain ⟨hI₂, hG, hk⟩ := hp s₁ h₁ hI₁ r hr out s₂ hout
    exact ⟨hI₂, hG, ih out s₂ hI₂ hk⟩

end Triple

/-! ## Soundness -/

namespace Sys

variable [DecidableEq ι] {M : Sys Op Res ε S ι ρ α E}
  {ok : Config Op Res ε S ι ρ α → Act Op Res ε ι ρ E → Prop} {s₀ : S}
  {c : Config Op Res ε S ι ρ α} {A : ι → ρ → Alone Op Res ε S} {idle : Assertion move}

/-- Thread `i` is the one that runs, it serves `r` and has `op o k` left to do. -/
structure Serves (M : Sys Op Res ε S ι ρ α E) (A : ι → ρ → Alone Op Res ε S)
    (idle : Assertion move) (c : Config Op Res ε S ι ρ α) (i : ι) (r : ρ) (o : Op)
    (k : Except ε (Res o) → Prog Op Res ε α) : Prop where
  thread : c.thread i = some (r, some (.op o k))
  only : ∀ j, c.Running j → j = i
  inv : (A i r).inv c.shared
  wp : (A i r).wp M.run i (.op o k) (fun _ => idle) (fun _ => idle) c.shared

/-- Either nothing runs and `idle` holds, or exactly one routine runs, and it is justified from
    where it stands. -/
theorem Reach.sound_sequential
    (hseq : ∀ c i r, ok c (.enter i r) → ∀ j, ¬ c.Running j)
    (h₀ : idle s₀)
    (henter : ∀ c i r s, ok c (.enter i r) → idle c.shared → M.enter i r c.shared = some s →
      (A i r).inv s ∧ (A i r).wp M.run i (M.body r) (fun _ => idle) (fun _ => idle) s)
    (hadm : ∀ c i f r o k, ok c (.step i f) → c.thread i = some (r, some (.op o k)) →
      (A i r).adm o (f o))
    (hcrash : ∀ c i r o k, ok c (.crash i) → c.thread i = some (r, some (.op o k)) →
      (A i r).inv c.shared → idle c.shared)
    (henv : ∀ c e s, ok c (.env e) → M.env e c.shared = some s →
      move c.shared s ∧ ∀ i r, (A i r).inv c.shared → (A i r).inv s)
    (hr : M.Reach ok (.idle s₀) c) :
    ((∀ j, ¬ c.Running j) ∧ idle c.shared) ∨ ∃ i r o k, Serves M A idle c i r o k := by
  let J (c : Config Op Res ε S ι ρ α) : Prop :=
    ((∀ j, ¬ c.Running j) ∧ idle c.shared) ∨ ∃ i r o k, Serves M A idle c i r o k
  -- what a thread that alone may be running has left to do decides which of the two it is
  have hput : ∀ (c : Config Op Res ε S ι ρ α) (i : ι) (r : ρ) (s : S) (p : Prog Op Res ε α),
      (∀ j, c.Running j → j = i) → (A i r).inv s →
      (A i r).wp M.run i p (fun _ => idle) (fun _ => idle) s → J (c.put s i r (some p)) := by
    intro c i r s p honly hI hwp
    have honly' : ∀ j, (c.put s i r (some p)).Running j → j = i := by
      rintro j ⟨r', o, k, hj⟩
      rcases Config.put_thread.1 hj with ⟨hji, -⟩ | ⟨-, hj⟩
      · exact hji
      · exact honly j ⟨r', o, k, hj⟩
    have hthread : (c.put s i r (some p)).thread i = some (r, some p) :=
      Config.put_thread.2 (.inl ⟨rfl, rfl, rfl⟩)
    -- a routine that has ended is not running
    have hended : (∀ o k, p ≠ .op o k) → ∀ j, ¬ (c.put s i r (some p)).Running j := by
      rintro hp j ⟨r', o, k, hj⟩
      obtain rfl := honly' j ⟨r', o, k, hj⟩
      rw [hthread] at hj
      exact hp o k (Option.some.inj (Prod.mk.inj (Option.some.inj hj)).2)
    cases p with
    | pure a => exact .inl ⟨hended (by simp), hwp s (refl_of move s)⟩
    | throw e => exact .inl ⟨hended (by simp), hwp s (refl_of move s)⟩
    | op o k => exact .inr ⟨i, r, o, k, hthread, honly', hI, hwp⟩
  have hinit : J (.idle s₀) :=
    .inl ⟨fun j ⟨_, _, _, hj⟩ => (nomatch hj), h₀⟩
  refine hr.invariant hinit fun c a _ hJ ha => exec_cases a hJ ?_ ?_ ?_ ?_
  · rintro i r s rfl hi hs
    have hnone := hseq c i r ha
    rcases hJ with ⟨-, hidle⟩ | ⟨j, r', o, k, hj⟩
    · obtain ⟨hI, hwp⟩ := henter c i r s ha hidle hs
      exact hput c i r s _ (fun j hj => absurd hj (hnone j)) hI hwp
    · exact absurd ⟨r', o, k, hj.thread⟩ (hnone j)
  · rintro i f r o k out s rfl hi hs
    rcases hJ with ⟨hnone, -⟩ | ⟨j, r', o', k', hj⟩
    · exact absurd ⟨r, o, k, hi⟩ (hnone i)
    · obtain rfl := hj.only i ⟨r, o, k, hi⟩
      have heq := hj.thread
      rw [hi] at heq
      cases heq
      obtain ⟨hI, -, hk⟩ := hj.wp c.shared (refl_of move _) hj.inv (f o)
        (hadm c i f r o k ha hi) out s hs
      exact hput c i r s _ hj.only hI hk
  · rintro i r p rfl hi
    rcases hJ with ⟨hnone, hidle⟩ | ⟨j, r', o, k, hj⟩
    · refine .inl ⟨fun j ⟨r', o, k, hj⟩ => ?_, hidle⟩
      rcases Config.put_thread.1 hj with ⟨-, -, hp⟩ | ⟨-, hj⟩
      · cases hp
      · exact hnone j ⟨r', o, k, hj⟩
    · by_cases hji : j = i
      · subst hji
        refine .inl ⟨fun j' ⟨r'', o', k', hj'⟩ => ?_, hcrash c j r' o k ha hj.thread hj.inv⟩
        rcases Config.put_thread.1 hj' with ⟨-, -, hp⟩ | ⟨hne, hj'⟩
        · cases hp
        · exact hne (hj.only j' ⟨r'', o', k', hj'⟩)
      · refine .inr ⟨j, r', o, k, Config.put_thread.2 (.inr ⟨hji, hj.thread⟩), ?_, hj.inv, hj.wp⟩
        rintro j' ⟨r'', o', k', hj'⟩
        rcases Config.put_thread.1 hj' with ⟨-, -, hp⟩ | ⟨-, hj'⟩
        · cases hp
        · exact hj.only j' ⟨r'', o', k', hj'⟩
  · rintro e s rfl hs
    obtain ⟨hmove, hinv⟩ := henv c e s ha hs
    rcases hJ with ⟨hnone, hidle⟩ | ⟨j, r', o, k, hj⟩
    · exact .inl ⟨hnone, idle.stable _ _ hmove hidle⟩
    · exact .inr ⟨j, r', o, k, hj.thread, hj.only, hinv j r' hj.inv, Rules.wp.rely hj.wp hmove⟩

end Sys

end Interleave
