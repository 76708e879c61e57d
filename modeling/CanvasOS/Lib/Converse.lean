/-
  A whole conversation of one routine (`Lib.Prog`) with whoever answers its statements.

  1. `Turn`, `Ends` — a statement with what became of it, and the conversations a routine can have
     from its first statement to its end, newest turn first.  Every reply is possible, so what
     holds of all of them holds whatever runs next to the routine.
  2. `After` — the weakest precondition of a property of the end and of the whole conversation, by
     recursion on the routine, with one rule for each combinator.
-/
import CanvasOS.Lib.System

namespace Interleave

variable {Op : Type} {Res : Op → Type} {ε α β : Type}

/-- What the caller sees of a reply. -/
def Reply.seen : Reply ε α → Except ε α
  | .ok a => .ok a
  | .failed e => .error e
  | .lost _ e => .error e

theorem Reply.seen_eq_ok {r : Reply ε α} {a : α} (h : r.seen = .ok a) : r = .ok a := by
  cases r with
  | ok b => rw [Except.ok.inj h]
  | failed e => cases h
  | lost b e => cases h

/-- A statement and what became of it. -/
abbrev Turn (Op : Type) (Res : Op → Type) (ε : Type) := (o : Op) × Reply ε (Res o)

/-- `Ends p log out log'`: after the conversation `log`, `p` can end with `out` and leave `log'`. -/
inductive Ends : Prog Op Res ε α → List (Turn Op Res ε) → Except ε α → List (Turn Op Res ε) → Prop
  | pure (a : α) (log : List (Turn Op Res ε)) : Ends (.pure a) log (.ok a) log
  | throw (e : ε) (log : List (Turn Op Res ε)) : Ends (.throw e) log (.error e) log
  | op {o : Op} {k : Except ε (Res o) → Prog Op Res ε α} {log log' : List (Turn Op Res ε)}
      {out : Except ε α} (r : Reply ε (Res o)) (h : Ends (k r.seen) (⟨o, r⟩ :: log) out log') :
      Ends (.op o k) log out log'

/-- However the conversation goes on after `log`, it ends in `Q`. -/
def After : Prog Op Res ε α → (Except ε α → List (Turn Op Res ε) → Prop) →
    List (Turn Op Res ε) → Prop
  | .pure a, Q, log => Q (.ok a) log
  | .throw e, Q, log => Q (.error e) log
  | .op o k, Q, log => ∀ r, After (k r.seen) Q (⟨o, r⟩ :: log)

namespace After

variable {p : Prog Op Res ε α} {Q R : Except ε α → List (Turn Op Res ε) → Prop}
  {log log' : List (Turn Op Res ε)} {out : Except ε α}

theorem sound (h : After p Q log) (he : Ends p log out log') : Q out log' := by
  induction he with
  | pure a log => exact h
  | throw e log => exact h
  | op r _ ih => exact ih (h r)

theorem mono (h : After p R log) (hQ : ∀ out log, R out log → Q out log) : After p Q log := by
  induction p generalizing log with
  | pure a => exact hQ _ _ h
  | throw e => exact hQ _ _ h
  | op o k ih => exact fun r => ih _ (h r)

theorem of_forall (h : ∀ out log, Q out log) : After p Q log := by
  induction p generalizing log with
  | pure a => exact h _ _
  | throw e => exact h _ _
  | op o k ih => exact fun r => ih _

/-- What each of its statements keeps, a routine keeps. -/
theorem only {P : Op → Prop} {Z : List (Turn Op Res ε) → Prop} (hp : p.Only P) (hZ : Z log)
    (hkeep : ∀ o r log, P o → Z log → Z (⟨o, r⟩ :: log)) : After p (fun _ log => Z log) log := by
  induction p generalizing log with
  | pure a => exact hZ
  | throw e => exact hZ
  | op o k ih => exact fun r => ih _ (hp.2 r.seen) (hkeep o r log hp.1 hZ)

theorem bind {f : α → Prog Op Res ε β} {Q : Except ε β → List (Turn Op Res ε) → Prop}
    (h : After p R log) (hok : ∀ a log, R (.ok a) log → After (f a) Q log)
    (herror : ∀ e log, R (.error e) log → Q (.error e) log) : After (p.bind f) Q log := by
  induction p generalizing log with
  | pure a => exact hok a log h
  | throw e => exact herror e log h
  | op o k ih => exact fun r => ih _ (h r)

theorem tryCatch {g : ε → Prog Op Res ε α} (h : After p R log)
    (hok : ∀ a log, R (.ok a) log → Q (.ok a) log)
    (herror : ∀ e log, R (.error e) log → After (g e) Q log) : After (p.tryCatch g) Q log := by
  induction p generalizing log with
  | pure a => exact hok a log h
  | throw e => exact herror e log h
  | op o k ih => exact fun r => ih _ (h r)

/-- `try p finally y`. -/
theorem thenFinally {y : Prog Op Res ε Unit} (h : After p R log)
    (hok : ∀ a log, R (.ok a) log → After y (fun out log => match out with
      | .ok _ => Q (.ok a) log
      | .error e => Q (.error e) log) log)
    (herror : ∀ e log, R (.error e) log → After y (fun out log => match out with
      | .ok _ => Q (.error e) log
      | .error e => Q (.error e) log) log) : After (p.thenFinally y) Q log := by
  induction p generalizing log with
  | pure a => exact (hok a log h).bind (fun _ _ h => h) fun _ _ h => h
  | throw e => exact (herror e log h).bind (fun _ _ h => h) fun _ _ h => h
  | op o k ih => exact fun r => ih _ (h r)

/-- One statement whose exception is propagated. -/
theorem perform {o : Op} {Q : Except ε (Res o) → List (Turn Op Res ε) → Prop}
    (h : ∀ r : Reply ε (Res o), Q r.seen (⟨o, r⟩ :: log)) :
    After (Prog.perform o : Prog Op Res ε (Res o)) Q log := by
  intro r
  have hr := h r
  cases hseen : r.seen with
  | ok a =>
    rw [hseen] at hr
    exact hr
  | error e =>
    rw [hseen] at hr
    exact hr

/-- One statement whose exception is propagated, and what follows its answer. -/
theorem ask {o : Op} {f : Res o → Prog Op Res ε β} {Q : Except ε β → List (Turn Op Res ε) → Prop}
    (hok : ∀ a, After (f a) Q (⟨o, .ok a⟩ :: log))
    (hraise : ∀ (r : Reply ε (Res o)) e, r.seen = .error e → Q (.error e) (⟨o, r⟩ :: log)) :
    After ((Prog.perform o).bind f) Q log := by
  intro r
  cases r with
  | ok a => exact hok a
  | failed e => exact hraise (.failed e) e rfl
  | lost a e => exact hraise (.lost a e) e rfl

end After

/-- The conversation in which every statement `o` gets the reply `f o`. -/
def Prog.converse (f : (o : Op) → Reply ε (Res o)) :
    Prog Op Res ε α → List (Turn Op Res ε) → Except ε α × List (Turn Op Res ε)
  | .pure a, log => (.ok a, log)
  | .throw e, log => (.error e, log)
  | .op o k, log => (k (f o).seen).converse f (⟨o, f o⟩ :: log)

theorem Prog.converse_ends (f : (o : Op) → Reply ε (Res o)) (p : Prog Op Res ε α)
    (log : List (Turn Op Res ε)) : Ends p log (p.converse f log).1 (p.converse f log).2 := by
  induction p generalizing log with
  | pure a => exact .pure a log
  | throw e => exact .throw e log
  | op o k ih => exact .op (f o) (ih _ _)

theorem Prog.converse_bind (f : (o : Op) → Reply ε (Res o)) (p : Prog Op Res ε α)
    (k : α → Prog Op Res ε β) (log : List (Turn Op Res ε)) {a : α}
    (h : (p.converse f log).1 = .ok a) :
    (p.bind k).converse f log = (k a).converse f (p.converse f log).2 := by
  induction p generalizing log with
  | pure b =>
    obtain rfl : b = a := Except.ok.inj h
    rfl
  | throw e => cases h
  | op o _ ih => exact ih _ _ h

end Interleave
