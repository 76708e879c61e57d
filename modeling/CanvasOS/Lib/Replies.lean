/-
  What becomes of a routine is settled by the REPLIES to its statements.

  1. `Ran p l out` — the routine `p`, given the replies `l`, ends in `out`.  One rule for each
     combinator takes such a run apart.
  2. `Prog.expand` — a routine whose statements are routines themselves, over statements of a lower
     level: a call of a collaborator becomes what the collaborator does.
  3. `Sys.replies` — the replies that a run of a system gives to one of its threads.  Whatever runs
     next to it, a thread that has ended has run its routine under them (`Sys.ran_of_result`), and
     what it alone can change of the state is settled by them (`Sys.view_of_replies`).
-/
import CanvasOS.Lib.System

namespace Interleave

variable {Op Op' : Type} {Res : Op → Type} {Res' : Op' → Type} {ε S α β : Type}

/-! ## Runs under given replies -/

/-- What the caller of a statement sees of its reply. -/
def Reply.out : Reply ε α → Except ε α
  | .ok a => .ok a
  | .failed e => .error e
  | .lost _ e => .error e

/-- Statements and the replies to them, the oldest first. -/
abbrev Replies (Op : Type) (Res : Op → Type) (ε : Type) := List ((o : Op) × Reply ε (Res o))

/-- `p`, given the replies `l`, ends in `out`. -/
inductive Ran : Prog Op Res ε α → Replies Op Res ε → Except ε α → Prop where
  | pure (a : α) : Ran (.pure a) [] (.ok a)
  | throw (e : ε) : Ran (.throw e) [] (.error e)
  | op {o : Op} {k : Except ε (Res o) → Prog Op Res ε α} (r : Reply ε (Res o))
      {l : Replies Op Res ε} {out : Except ε α} (h : Ran (k r.out) l out) :
      Ran (.op o k) (⟨o, r⟩ :: l) out

namespace Ran

variable {p : Prog Op Res ε α} {l : Replies Op Res ε}

theorem of_pure {a : α} {out : Except ε α} (h : Ran (.pure a : Prog Op Res ε α) l out) :
    l = [] ∧ out = .ok a := by
  cases h
  exact ⟨rfl, rfl⟩

theorem of_throw {e : ε} {out : Except ε α} (h : Ran (.throw e : Prog Op Res ε α) l out) :
    l = [] ∧ out = .error e := by
  cases h
  exact ⟨rfl, rfl⟩

/-- One statement whose exception is propagated. -/
theorem of_perform {o : Op} {out : Except ε (Res o)}
    (h : Ran (Prog.perform o : Prog Op Res ε (Res o)) l out) :
    ∃ r, l = [⟨o, r⟩] ∧ out = r.out := by
  cases h with
  | op r h =>
    refine ⟨r, ?_⟩
    cases hr : r.out with
    | ok a =>
      rw [hr] at h
      obtain ⟨rfl, rfl⟩ := of_pure h
      exact ⟨rfl, rfl⟩
    | error e =>
      rw [hr] at h
      obtain ⟨rfl, rfl⟩ := of_throw h
      exact ⟨rfl, rfl⟩

theorem of_bind {f : α → Prog Op Res ε β} {out : Except ε β} (h : Ran (p.bind f) l out) :
    (∃ a l₁ l₂, l = l₁ ++ l₂ ∧ Ran p l₁ (.ok a) ∧ Ran (f a) l₂ out) ∨
      ∃ e, out = .error e ∧ Ran p l (.error e) := by
  induction p generalizing l with
  | pure a => exact .inl ⟨a, [], l, rfl, .pure a, h⟩
  | throw e =>
    obtain ⟨rfl, rfl⟩ := of_throw h
    exact .inr ⟨e, rfl, .throw e⟩
  | op o k ih =>
    cases h with
    | op r h =>
      rcases ih r.out h with ⟨a, l₁, l₂, rfl, h₁, h₂⟩ | ⟨e, rfl, h₁⟩
      · exact .inl ⟨a, ⟨o, r⟩ :: l₁, l₂, rfl, .op r h₁, h₂⟩
      · exact .inr ⟨e, rfl, .op r h₁⟩

/-- A sequence that has ended normally. -/
theorem of_bind_ok {f : α → Prog Op Res ε β} {b : β} (h : Ran (p.bind f) l (.ok b)) :
    ∃ a l₁ l₂, l = l₁ ++ l₂ ∧ Ran p l₁ (.ok a) ∧ Ran (f a) l₂ (.ok b) := by
  rcases h.of_bind with h | ⟨e, he, -⟩
  · exact h
  · cases he

theorem of_tryCatch {g : ε → Prog Op Res ε α} {out : Except ε α} (h : Ran (p.tryCatch g) l out) :
    (∃ a, out = .ok a ∧ Ran p l (.ok a)) ∨
      ∃ e l₁ l₂, l = l₁ ++ l₂ ∧ Ran p l₁ (.error e) ∧ Ran (g e) l₂ out := by
  induction p generalizing l with
  | pure a =>
    obtain ⟨rfl, rfl⟩ := of_pure h
    exact .inl ⟨a, rfl, .pure a⟩
  | throw e => exact .inr ⟨e, [], l, rfl, .throw e, h⟩
  | op o k ih =>
    cases h with
    | op r h =>
      rcases ih r.out h with ⟨a, rfl, h₁⟩ | ⟨e, l₁, l₂, rfl, h₁, h₂⟩
      · exact .inl ⟨a, rfl, .op r h₁⟩
      · exact .inr ⟨e, ⟨o, r⟩ :: l₁, l₂, rfl, .op r h₁, h₂⟩

end Ran

/-! ## Statements that are routines -/

namespace Prog

/-- Continue both ends of `x`. -/
def attempt : Prog Op Res ε α → (Except ε α → Prog Op Res ε β) → Prog Op Res ε β
  | .pure a, k => k (.ok a)
  | .throw e, k => k (.error e)
  | .op o k', k => .op o fun r => (k' r).attempt k

/-- Every statement `o` is what `f o` does. -/
def expand (f : ∀ o : Op, Prog Op' Res' ε (Res o)) : Prog Op Res ε α → Prog Op' Res' ε α
  | .pure a => .pure a
  | .throw e => .throw e
  | .op o k => (f o).attempt fun r => (k r).expand f

theorem attempt_bind (x : Prog Op Res ε α) {γ : Type} (k : Except ε α → Prog Op Res ε β)
    (g : β → Prog Op Res ε γ) : (x.attempt k).bind g = x.attempt fun r => (k r).bind g := by
  induction x with
  | pure a => rfl
  | throw e => rfl
  | op o k' ih => exact congrArg (Prog.op o) (funext ih)

theorem attempt_tryCatch (x : Prog Op Res ε α) (k : Except ε α → Prog Op Res ε β)
    (g : ε → Prog Op Res ε β) :
    (x.attempt k).tryCatch g = x.attempt fun r => (k r).tryCatch g := by
  induction x with
  | pure a => rfl
  | throw e => rfl
  | op o k' ih => exact congrArg (Prog.op o) (funext ih)

variable {f : ∀ o : Op, Prog Op' Res' ε (Res o)}

@[simp] theorem expand_pure (a : α) : (Prog.pure a : Prog Op Res ε α).expand f = .pure a := rfl

@[simp] theorem expand_throw (e : ε) : (Prog.throw e : Prog Op Res ε α).expand f = .throw e := rfl

@[simp] theorem expand_bind (x : Prog Op Res ε α) (g : α → Prog Op Res ε β) :
    (x.bind g).expand f = (x.expand f).bind fun a => (g a).expand f := by
  induction x with
  | pure a => rfl
  | throw e => rfl
  | op o k ih =>
    simp only [op_bind, expand, attempt_bind]
    exact congrArg _ (funext ih)

@[simp] theorem expand_tryCatch (x : Prog Op Res ε α) (g : ε → Prog Op Res ε α) :
    (x.tryCatch g).expand f = (x.expand f).tryCatch fun e => (g e).expand f := by
  induction x with
  | pure a => rfl
  | throw e => rfl
  | op o k ih =>
    simp only [op_tryCatch, expand, attempt_tryCatch]
    exact congrArg _ (funext ih)

@[simp] theorem expand_perform (o : Op) :
    (perform o : Prog Op Res ε (Res o)).expand f = f o := by
  unfold perform
  rw [expand]
  generalize f o = x
  induction x with
  | pure a => rfl
  | throw e => rfl
  | op o' k ih => exact congrArg (Prog.op o') (funext ih)

end Prog

/-! ## In a system -/

/-- The reply that is given in state `s`, and the state after it. -/
def Reply.given (run : α → S → Option (α × S)) (s : S) : Reply ε α → Option (Reply ε α × S)
  | .ok a => (run a s).map fun x => (.ok x.1, x.2)
  | .failed e => some (.failed e, s)
  | .lost a e => (run a s).map fun x => (.lost x.1 e, x.2)

/-- The caller sees what is given. -/
theorem Reply.apply_eq_given {run : α → S → Option (α × S)} {s : S} (r : Reply ε α) :
    r.apply run s = (r.given run s).map fun x => (x.1.out, x.2) := by
  cases r with
  | ok a => cases h : run a s <;> simp [Reply.apply, Reply.given, h, Reply.out]
  | failed e => rfl
  | lost a e => cases h : run a s <;> simp [Reply.apply, Reply.given, h, Reply.out]

namespace Sys

variable {ι ρ E : Type} [DecidableEq ι] (M : Sys Op Res ε S ι ρ α E) {c : Config Op Res ε S ι ρ α}

/-- The reply that an act gives to thread `i`, if it is one. -/
def replyTo (i : ι) (c : Config Op Res ε S ι ρ α) :
    Act Op Res ε ι ρ E → Option ((o : Op) × Reply ε (Res o))
  | .step j f =>
    if j = i then
      match c.thread i with
      | some (_, some (.op o _)) => ((f o).given (M.run i o) c.shared).map fun x => ⟨o, x.1⟩
      | _ => none
    else none
  | _ => none

/-- The replies that a run gives to thread `i`, the oldest first. -/
def replies (i : ι) : Config Op Res ε S ι ρ α → List (Act Op Res ε ι ρ E) → Replies Op Res ε
  | _, [] => []
  | c, a :: as => (M.replyTo i c a).toList ++ replies i (M.exec c a) as

variable {M}

/-- How thread `i` stands after the replies `l`: it has not come, it has crashed, or what is left of
    its routine ends as the routine itself does. -/
def Stands (body : ρ → Prog Op Res ε α) (l : Replies Op Res ε) :
    Option (ρ × Option (Prog Op Res ε α)) → Prop
  | none => l = []
  | some (_, none) => True
  | some (r, some q) => ∀ l' out, Ran q l' out → Ran (body r) (l ++ l') out

theorem Stands.exec {i : ι} {l : Replies Op Res ε} (h : Stands M.body l (c.thread i))
    (a : Act Op Res ε ι ρ E) :
    Stands M.body (l ++ (M.replyTo i c a).toList) ((M.exec c a).thread i) := by
  have hother : ∀ (s : S) (j : ι) (r : ρ) (q : Option (Prog Op Res ε α)), j ≠ i →
      Stands M.body l ((c.put s j r q).thread i) := by
    intro s j r q hj
    have hsame : (c.put s j r q).thread i = c.thread i :=
      Function.update_of_ne (Ne.symm hj) _ _
    rw [hsame]
    exact h
  have hself : ∀ (s : S) (r : ρ) (q : Option (Prog Op Res ε α)),
      (c.put s i r q).thread i = some (r, q) := fun s r q => Function.update_self _ _ _
  cases a with
  | enter j r =>
    simp only [replyTo, Option.toList_none, List.append_nil, Sys.exec]
    split
    · next hnone _ =>
      by_cases hj : j = i
      · subst hj
        rw [hnone] at h
        have hnil : l = [] := h
        rw [hself, hnil]
        exact fun l' out hran => hran
      · exact hother _ j r _ hj
    · exact h
  | crash j =>
    simp only [replyTo, Option.toList_none, List.append_nil, Sys.exec]
    split
    · by_cases hj : j = i
      · subst hj
        rw [hself]
        exact True.intro
      · exact hother _ j _ _ hj
    · exact h
  | env e =>
    simp only [replyTo, Option.toList_none, List.append_nil, Sys.exec]
    split <;> exact h
  | step j f =>
    by_cases hj : j = i
    · subst hj
      simp only [replyTo, if_pos, Sys.exec]
      split
      · next r o k hi =>
        rw [hi] at h
        simp only [hi, Reply.apply_eq_given]
        cases hgiven : (f o).given (M.run j o) c.shared with
        | none =>
          simp only [Option.map_none, Option.toList_none, List.append_nil, hi]
          exact h
        | some x =>
          simp only [Option.map_some, Option.toList_some, hself]
          -- the next reply belongs to the next statement
          intro l' out hran
          rw [List.append_assoc]
          exact h _ out (.op x.1 hran)
      · simp only [Option.toList_none, List.append_nil]
        exact h
    · simp only [replyTo, if_neg hj, Option.toList_none, List.append_nil, Sys.exec]
      split
      · split
        · exact hother _ j _ _ hj
        · exact h
      · exact h

theorem Stands.run {i : ι} (as : List (Act Op Res ε ι ρ E)) {l : Replies Op Res ε}
    (h : Stands M.body l (c.thread i)) :
    Stands M.body (l ++ M.replies i c as) ((as.foldl M.exec c).thread i) := by
  induction as generalizing c l with
  | nil =>
    rw [replies, List.append_nil]
    exact h
  | cons a as ih =>
    rw [replies, ← List.append_assoc]
    exact ih (h.exec a)

/-- A thread that has ended has run its routine under the replies it was given. -/
theorem ran_of_result {s₀ : S} {as : List (Act Op Res ε ι ρ E)} {i : ι} {r : ρ} {a : α}
    (h : (as.foldl M.exec (.idle s₀)).result i = some (r, .ok a)) :
    Ran (M.body r) (M.replies i (.idle s₀) as) (.ok a) := by
  have hstart : Stands M.body [] ((Config.idle s₀ : Config Op Res ε S ι ρ α).thread i) := rfl
  have hend := hstart.run as
  rw [Config.thread_of_result_ok h] at hend
  have hran := hend [] (.ok a) (.pure a)
  rwa [List.append_nil] at hran

/-! ### What only one thread changes -/

section View

variable {V : Type} {view : S → V} {g : V → ((o : Op) × Reply ε (Res o)) → V} {i : ι}

/-- `view` of the state is changed by thread `i` alone, and by its replies as `g` says. -/
structure Settles (M : Sys Op Res ε S ι ρ α E) (i : ι) (view : S → V)
    (g : V → ((o : Op) × Reply ε (Res o)) → V) : Prop where
  enter : ∀ j r s s', M.enter j r s = some s' → view s' = view s
  env : ∀ e s s', M.env e s = some s' → view s' = view s
  other : ∀ j, j ≠ i → ∀ o a b s s', M.run j o a s = some (b, s') → view s' = view s
  answered : ∀ o a b s s', M.run i o a s = some (b, s') → view s' = g (view s) ⟨o, .ok b⟩
  lost : ∀ o a b e s s', M.run i o a s = some (b, s') → view s' = g (view s) ⟨o, .lost b e⟩
  failed : ∀ o e v, g v ⟨o, .failed e⟩ = v

omit [DecidableEq ι] in
theorem Settles.given (h : Settles M i view g) {o : Op} {r r' : Reply ε (Res o)} {s s' : S}
    (hr : r.given (M.run i o) s = some (r', s')) : view s' = g (view s) ⟨o, r'⟩ := by
  cases r with
  | ok a =>
    obtain ⟨⟨b, t⟩, hrun, heq⟩ := Option.map_eq_some_iff.1 hr
    obtain ⟨rfl, rfl⟩ := Prod.mk.inj heq
    exact h.answered o a b s t hrun
  | failed e =>
    obtain ⟨rfl, rfl⟩ := Prod.mk.inj (Option.some.inj hr)
    exact (h.failed o e _).symm
  | lost a e =>
    obtain ⟨⟨b, t⟩, hrun, heq⟩ := Option.map_eq_some_iff.1 hr
    obtain ⟨rfl, rfl⟩ := Prod.mk.inj heq
    exact h.lost o a b e s t hrun

omit [DecidableEq ι] in
theorem Settles.given_other (h : Settles M i view g) {j : ι} (hj : j ≠ i) {o : Op}
    {r r' : Reply ε (Res o)} {s s' : S} (hr : r.given (M.run j o) s = some (r', s')) :
    view s' = view s := by
  cases r with
  | ok a | lost a e =>
    obtain ⟨⟨b, t⟩, hrun, heq⟩ := Option.map_eq_some_iff.1 hr
    obtain ⟨-, rfl⟩ := Prod.mk.inj heq
    exact h.other j hj o a b s t hrun
  | failed e =>
    obtain ⟨-, rfl⟩ := Prod.mk.inj (Option.some.inj hr)
    rfl

theorem Settles.exec (h : Settles M i view g) (a : Act Op Res ε ι ρ E) :
    view (M.exec c a).shared = (M.replyTo i c a).toList.foldl g (view c.shared) := by
  cases a with
  | enter j r =>
    simp only [Sys.exec, replyTo]
    split
    · exact h.enter j r _ _ ‹_›
    · rfl
  | crash j =>
    simp only [Sys.exec, replyTo]
    split <;> rfl
  | env e =>
    simp only [Sys.exec, replyTo]
    split
    · exact h.env e _ _ ‹_›
    · rfl
  | step j f =>
    rcases hi : c.thread j with _ | ⟨r, _ | _ | _ | ⟨o, k⟩⟩
    case step.some.some.op =>
      simp only [Sys.exec, replyTo, hi, Reply.apply_eq_given]
      by_cases hj : j = i
      · subst hj
        rw [if_pos rfl, hi]
        cases hgiven : (f o).given (M.run j o) c.shared with
        | none =>
          simp only [hgiven]
          rfl
        | some x =>
          simp only [hgiven]
          exact h.given hgiven
      · rw [if_neg hj]
        cases hgiven : (f o).given (M.run j o) c.shared with
        | none => rfl
        | some x => exact h.given_other hj hgiven
    -- there is nothing to reply to
    all_goals
      have hsame : M.exec c (.step j f) = c := by simp only [Sys.exec, hi]
      have hnone : M.replyTo i c (.step j f) = none := by
        simp only [replyTo]
        split
        · next hj => simp only [← hj, hi]
        · rfl
      rw [hsame, hnone]
      rfl

theorem view_of_replies (h : Settles M i view g) (as : List (Act Op Res ε ι ρ E)) :
    view (as.foldl M.exec c).shared = (M.replies i c as).foldl g (view c.shared) := by
  induction as generalizing c with
  | nil => rfl
  | cons a as ih => rw [List.foldl_cons, ih, h.exec, replies, List.foldl_append]

end View

end Sys

end Interleave
