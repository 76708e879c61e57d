/-
  Straight-line and branching service code as a free PROGRAM over its statements.

  A service routine is a sequence of statements (database statements, calls to other services),
  each of which may answer or raise, and everything between two statements is a pure function of
  the answers so far.  `Prog Op Res ε α` is that tree:

  1. `pure` / `throw` — the routine has ended, with a value or with an exception.
  2. `op o k` — the next statement is `o`; `k` continues from its answer, or from the exception
     it raised, so that `try … except` is a function on trees (`tryCatch`) and not a statement.

  Nothing is executed here.  Who executes the statements, against which state and in which order,
  is the subject of `Lib.System`.
-/
import Mathlib.Logic.Function.Basic

namespace Interleave

/-- `Prog Op Res ε α`: a routine over statements `Op`, statement `o` answering in `Res o`,
    exceptions in `ε`, result in `α`. -/
inductive Prog (Op : Type) (Res : Op → Type) (ε α : Type) : Type where
  | pure (a : α)
  | throw (e : ε)
  | op (o : Op) (k : Except ε (Res o) → Prog Op Res ε α)

/-- What the environment makes of one statement: it executes and answers, it is not executed and
    raises, or it executes and its answer is LOST (a dropped connection after the commit), so that
    the caller sees an exception. -/
inductive Reply (ε α : Type) where
  | ok (a : α)
  | failed (e : ε)
  | lost (a : α) (e : ε)

/-- The statement is executed, whether or not its caller hears of it. -/
def Reply.executes {ε α : Type} : Reply ε α → Bool
  | .ok _ => true
  | .failed _ => false
  | .lost _ _ => true

/-- The caller gets the answer of the statement. -/
def Reply.answers {ε α : Type} : Reply ε α → Bool
  | .ok _ => true
  | .failed _ => false
  | .lost _ _ => false

namespace Prog

variable {Op : Type} {Res : Op → Type} {ε α β γ : Type}

/-- Sequencing: continue every normal end of `x` with `f`. -/
def bind : Prog Op Res ε α → (α → Prog Op Res ε β) → Prog Op Res ε β
  | .pure a, f => f a
  | .throw e, _ => .throw e
  | .op o k, f => .op o fun r => (k r).bind f

/-- `try x except e: h e`. -/
def tryCatch : Prog Op Res ε α → (ε → Prog Op Res ε α) → Prog Op Res ε α
  | .pure a, _ => .pure a
  | .throw e, h => h e
  | .op o k, h => .op o fun r => (k r).tryCatch h

/-- One statement, its exception propagated. -/
def perform (o : Op) : Prog Op Res ε (Res o) :=
  .op o fun
    | .ok a => .pure a
    | .error e => .throw e

instance : Monad (Prog Op Res ε) where
  pure := .pure
  bind := .bind

instance : MonadExcept ε (Prog Op Res ε) where
  throw := .throw
  tryCatch := .tryCatch

/-- `try x finally y`: `y` runs on both ends of `x`, and an exception of `y` replaces the end
    of `x`. -/
def thenFinally (x : Prog Op Res ε α) (y : Prog Op Res ε Unit) : Prog Op Res ε α :=
  match x with
  | .pure a => y.bind fun _ => .pure a
  | .throw e => y.bind fun _ => .throw e
  | .op o k => .op o fun r => (k r).thenFinally y

/-! ## Equations

    `simp` computes a routine down to its next statement with these. -/

@[simp] theorem pure_eq (a : α) : (Pure.pure a : Prog Op Res ε α) = .pure a := rfl
@[simp] theorem bind_eq (x : Prog Op Res ε α) (f : α → Prog Op Res ε β) : x >>= f = x.bind f := rfl
@[simp] theorem throw_eq (e : ε) : (MonadExcept.throw e : Prog Op Res ε α) = .throw e := rfl
@[simp] theorem tryCatch_eq (x : Prog Op Res ε α) (h : ε → Prog Op Res ε α) :
    MonadExcept.tryCatch x h = x.tryCatch h := rfl
@[simp] theorem pure_bind (a : α) (f : α → Prog Op Res ε β) :
    (Prog.pure a : Prog Op Res ε α).bind f = f a := rfl
@[simp] theorem throw_bind (e : ε) (f : α → Prog Op Res ε β) :
    (Prog.throw e : Prog Op Res ε α).bind f = .throw e := rfl
@[simp] theorem op_bind (o : Op) (k : Except ε (Res o) → Prog Op Res ε α)
    (f : α → Prog Op Res ε β) : (Prog.op o k).bind f = .op o fun r => (k r).bind f := rfl
@[simp] theorem pure_tryCatch (a : α) (h : ε → Prog Op Res ε α) :
    (Prog.pure a : Prog Op Res ε α).tryCatch h = .pure a := rfl
@[simp] theorem throw_tryCatch (e : ε) (h : ε → Prog Op Res ε α) :
    (Prog.throw e : Prog Op Res ε α).tryCatch h = h e := rfl
@[simp] theorem op_tryCatch (o : Op) (k : Except ε (Res o) → Prog Op Res ε α)
    (h : ε → Prog Op Res ε α) :
    (Prog.op o k).tryCatch h = .op o fun r => (k r).tryCatch h := rfl

/-! ## The statements a routine can reach -/

/-- `x.Only P`: every statement `x` can reach, whatever the answers, satisfies `P`. -/
def Only (P : Op → Prop) : Prog Op Res ε α → Prop
  | .pure _ => True
  | .throw _ => True
  | .op o k => P o ∧ ∀ r, (k r).Only P

theorem Only.bind {P : Op → Prop} {x : Prog Op Res ε α} {f : α → Prog Op Res ε β}
    (hx : x.Only P) (hf : ∀ a, (f a).Only P) : (x.bind f).Only P := by
  induction x with
  | pure a => exact hf a
  | throw e => trivial
  | op o k ih => exact ⟨hx.1, fun r => ih r (hx.2 r)⟩

theorem Only.tryCatch {P : Op → Prop} {x : Prog Op Res ε α} {h : ε → Prog Op Res ε α}
    (hx : x.Only P) (hh : ∀ e, (h e).Only P) : (x.tryCatch h).Only P := by
  induction x with
  | pure a => trivial
  | throw e => exact hh e
  | op o k ih => exact ⟨hx.1, fun r => ih r (hx.2 r)⟩

theorem Only.perform {P : Op → Prop} {o : Op} (ho : P o) :
    (perform o : Prog Op Res ε (Res o)).Only P :=
  ⟨ho, fun r => by cases r <;> trivial⟩

theorem Only.mono {P Q : Op → Prop} {x : Prog Op Res ε α} (hx : x.Only P)
    (h : ∀ o, P o → Q o) : x.Only Q := by
  induction x with
  | pure a => exact True.intro
  | throw e => exact True.intro
  | op o k ih => exact ⟨h o hx.1, fun r => ih r (hx.2 r)⟩

theorem Only.trivial (x : Prog Op Res ε α) : x.Only fun _ => True := by
  induction x with
  | pure a => exact True.intro
  | throw e => exact True.intro
  | op o k ih => exact ⟨True.intro, ih⟩

/-! ## The statements and the ends of a routine -/

/-- `x.Within P F`: every statement `x` can reach satisfies `P`, and every exception it can end
    with satisfies `F`. -/
def Within (P : Op → Prop) (F : ε → Prop) : Prog Op Res ε α → Prop
  | .pure _ => True
  | .throw e => F e
  | .op o k => P o ∧ ∀ r, (k r).Within P F

section Within

variable {P : Op → Prop} {F G : ε → Prop}

theorem Within.bind {x : Prog Op Res ε α} {f : α → Prog Op Res ε β} (hx : x.Within P F)
    (hf : ∀ a, (f a).Within P F) : (x.bind f).Within P F := by
  induction x with
  | pure a => exact hf a
  | throw e => exact hx
  | op o k ih => exact ⟨hx.1, fun r => ih r (hx.2 r)⟩

theorem Within.tryCatch {x : Prog Op Res ε α} {h : ε → Prog Op Res ε α} (hx : x.Within P F)
    (hh : ∀ e, F e → (h e).Within P G) : (x.tryCatch h).Within P G := by
  induction x with
  | pure a => exact True.intro
  | throw e => exact hh e hx
  | op o k ih => exact ⟨hx.1, fun r => ih r (hx.2 r)⟩

theorem Within.thenFinally {x : Prog Op Res ε α} {y : Prog Op Res ε Unit} (hx : x.Within P F)
    (hy : y.Within P F) : (x.thenFinally y).Within P F := by
  induction x with
  | pure a => exact hy.bind fun _ => True.intro
  | throw e => exact hy.bind fun _ => hx
  | op o k ih => exact ⟨hx.1, fun r => ih r (hx.2 r)⟩

theorem Within.mono {P' : Op → Prop} {x : Prog Op Res ε α} (hx : x.Within P F)
    (hP : ∀ o, P o → P' o) (hF : ∀ e, F e → G e) : x.Within P' G := by
  induction x with
  | pure a => exact True.intro
  | throw e => exact hF e hx
  | op o k ih => exact ⟨hP o hx.1, fun r => ih r (hx.2 r)⟩

theorem Within.only {x : Prog Op Res ε α} (hx : x.Within P F) : x.Only P := by
  induction x with
  | pure a => exact True.intro
  | throw e => exact True.intro
  | op o k ih => exact ⟨hx.1, fun r => ih r (hx.2 r)⟩

end Within

/-! ## Counting statements -/

/-- `x.AtMost P n`: whatever is answered, `x` comes to no more than `n` statements that satisfy
    `P`. -/
def AtMost (P : Op → Prop) : Prog Op Res ε α → Nat → Prop
  | .pure _, _ => True
  | .throw _, _ => True
  | .op o k, n => (¬ P o ∧ ∀ r, (k r).AtMost P n) ∨ ∃ m, n = m + 1 ∧ ∀ r, (k r).AtMost P m

section AtMost

variable {P : Op → Prop} {n m : Nat}

theorem AtMost.mono {x : Prog Op Res ε α} (hx : x.AtMost P n) (hle : n ≤ m) : x.AtMost P m := by
  induction x generalizing n m with
  | pure a => exact True.intro
  | throw e => exact True.intro
  | op o k ih =>
    rcases hx with ⟨hno, hk⟩ | ⟨n, rfl, hk⟩
    · exact .inl ⟨hno, fun r => ih r (hk r) hle⟩
    · obtain ⟨m, rfl⟩ : ∃ m', m = m' + 1 := ⟨m - 1, by omega⟩
      exact .inr ⟨m, rfl, fun r => ih r (hk r) (Nat.le_of_succ_le_succ hle)⟩

theorem AtMost.bind {x : Prog Op Res ε α} {f : α → Prog Op Res ε β} (hx : x.AtMost P n)
    (hf : ∀ a, (f a).AtMost P m) : (x.bind f).AtMost P (n + m) := by
  induction x generalizing n with
  | pure a => exact (hf a).mono (Nat.le_add_left m n)
  | throw e => exact True.intro
  | op o k ih =>
    rcases hx with ⟨hno, hk⟩ | ⟨n, rfl, hk⟩
    · exact .inl ⟨hno, fun r => ih r (hk r)⟩
    · exact .inr ⟨n + m, by omega, fun r => ih r (hk r)⟩

theorem AtMost.tryCatch {x : Prog Op Res ε α} {h : ε → Prog Op Res ε α} (hx : x.AtMost P n)
    (hh : ∀ e, (h e).AtMost P m) : (x.tryCatch h).AtMost P (n + m) := by
  induction x generalizing n with
  | pure a => exact True.intro
  | throw e => exact (hh e).mono (Nat.le_add_left m n)
  | op o k ih =>
    rcases hx with ⟨hno, hk⟩ | ⟨n, rfl, hk⟩
    · exact .inl ⟨hno, fun r => ih r (hk r)⟩
    · exact .inr ⟨n + m, by omega, fun r => ih r (hk r)⟩

/-- A routine without such a statement. -/
theorem AtMost.of_only {x : Prog Op Res ε α} (hx : x.Only fun o => ¬ P o) : x.AtMost P 0 := by
  induction x with
  | pure a => exact True.intro
  | throw e => exact True.intro
  | op o k ih => exact .inl ⟨hx.1, fun r => ih r (hx.2 r)⟩

theorem AtMost.perform {o : Op} : (perform o : Prog Op Res ε (Res o)).AtMost P 1 :=
  .inr ⟨0, rfl, fun r => by cases r <;> exact True.intro⟩

end AtMost

end Prog

end Interleave
