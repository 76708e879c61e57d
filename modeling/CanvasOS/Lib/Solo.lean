/-
  One routine (`Lib.Prog`) that runs by itself.

  1. **Runs** (`Solo`) — how far a routine can have got: each statement answers, fails, or is
     executed without its answer arriving, and the routine may stand anywhere, so that a crash is a
     run that goes no further.
  2. **Rules** (`Keeps`) — from a state `s`, the routine keeps an invariant at every point, whatever
     fails, and ends normally in a postcondition.  One rule per constructor and per combinator.
  3. **Whole runs** (`Completes`) — the ends that a routine can reach, put together from those of its
     parts.
  4. **Replays** (`replay`) — the run under given replies, for concrete inputs.
-/
import CanvasOS.Lib.System

namespace Interleave

variable {Op : Type} {Res : Op → Type} {ε S α β : Type}

/-! ## Runs -/

/-- `Solo run p s q u`: the routine `p`, alone from `s`, can have reached `u` with `q` left. -/
inductive Solo (run : (o : Op) → Res o → S → Option (Res o × S)) :
    Prog Op Res ε α → S → Prog Op Res ε α → S → Prop where
  | refl (p : Prog Op Res ε α) (s : S) : Solo run p s p s
  | ok {o : Op} {k : Except ε (Res o) → Prog Op Res ε α} {a b : Res o} {s t u : S}
      {q : Prog Op Res ε α} (hx : run o a s = some (b, t)) (h : Solo run (k (.ok b)) t q u) :
      Solo run (.op o k) s q u
  | failed {o : Op} {k : Except ε (Res o) → Prog Op Res ε α} {e : ε} {s u : S}
      {q : Prog Op Res ε α} (h : Solo run (k (.error e)) s q u) : Solo run (.op o k) s q u
  | lost {o : Op} {k : Except ε (Res o) → Prog Op Res ε α} {a b : Res o} {e : ε} {s t u : S}
      {q : Prog Op Res ε α} (hx : run o a s = some (b, t)) (h : Solo run (k (.error e)) t q u) :
      Solo run (.op o k) s q u

/-! ## Rules -/

/-- From `s`, the routine keeps `J` at every point, and a normal end satisfies `Q`. -/
def Keeps (run : (o : Op) → Res o → S → Option (Res o × S)) (J : S → Prop) :
    Prog Op Res ε α → (α → S → Prop) → S → Prop
  | .pure a, Q, s => J s ∧ Q a s
  | .throw _, _, s => J s
  | .op o k, Q, s =>
    J s ∧ (∀ e, Keeps run J (k (.error e)) Q s) ∧
      ∀ a b t, run o a s = some (b, t) →
        Keeps run J (k (.ok b)) Q t ∧ ∀ e, Keeps run J (k (.error e)) Q t

namespace Keeps

variable {run : (o : Op) → Res o → S → Option (Res o × S)} {J : S → Prop} {s u : S}
  {p q : Prog Op Res ε α} {Q Q' : α → S → Prop}

theorem pure {a : α} (hJ : J s) (h : Q a s) : Keeps run J (.pure a : Prog Op Res ε α) Q s := ⟨hJ, h⟩

theorem throw {e : ε} (hJ : J s) : Keeps run J (.throw e : Prog Op Res ε α) Q s := hJ

/-- The invariant holds where the routine stands. -/
theorem inv (h : Keeps run J p Q s) : J s := by
  cases p with
  | pure a => exact h.1
  | throw e => exact h
  | op o k => exact h.1

theorem mono (h : Keeps run J p Q s) (hQ : ∀ a s, J s → Q a s → Q' a s) : Keeps run J p Q' s := by
  induction p generalizing s with
  | pure a => exact ⟨h.1, hQ a s h.1 h.2⟩
  | throw e => exact h
  | op o k ih =>
    obtain ⟨hJ, hfail, hexec⟩ := h
    refine ⟨hJ, fun e => ih _ (hfail e), fun a b t hx => ?_⟩
    obtain ⟨hok, hlost⟩ := hexec a b t hx
    exact ⟨ih _ hok, fun e => ih _ (hlost e)⟩

/-- A stronger invariant is kept as well, and holds at the end. -/
theorem weaken {J' : S → Prop} (h : Keeps run J' p Q s) (hJ : ∀ s, J' s → J s) :
    Keeps run J p (fun a s => Q a s ∧ J' s) s := by
  induction p generalizing s with
  | pure a => exact ⟨hJ s h.1, h.2, h.1⟩
  | throw e => exact hJ s h
  | op o k ih =>
    obtain ⟨hJ', hfail, hexec⟩ := h
    refine ⟨hJ s hJ', fun e => ih _ (hfail e), fun a b t hx => ?_⟩
    obtain ⟨hok, hlost⟩ := hexec a b t hx
    exact ⟨ih _ hok, fun e => ih _ (hlost e)⟩

theorem bind {f : α → Prog Op Res ε β} {R : β → S → Prop} (h : Keeps run J p Q s)
    (hf : ∀ a s, J s → Q a s → Keeps run J (f a) R s) : Keeps run J (p.bind f) R s := by
  induction p generalizing s with
  | pure a => exact hf a s h.1 h.2
  | throw e => exact h
  | op o k ih =>
    obtain ⟨hJ, hfail, hexec⟩ := h
    refine ⟨hJ, fun e => ih _ (hfail e), fun a b t hx => ?_⟩
    obtain ⟨hok, hlost⟩ := hexec a b t hx
    exact ⟨ih _ hok, fun e => ih _ (hlost e)⟩

/-- What every statement of a routine keeps beside `J` still holds at its end. -/
theorem only {P : Op → Prop} {Z : S → Prop} (hp : p.Only P) (hJ : J s) (hZ : Z s)
    (hkeep : ∀ o a b s t, P o → run o a s = some (b, t) → J s → Z s → J t ∧ Z t) :
    Keeps run J p (fun _ s => Z s) s := by
  induction p generalizing s with
  | pure a => exact ⟨hJ, hZ⟩
  | throw e => exact hJ
  | op o k ih =>
    refine ⟨hJ, fun e => ih _ (hp.2 _) hJ hZ, fun a b t hx => ?_⟩
    obtain ⟨hJ', hZ'⟩ := hkeep o a b s t hp.1 hx hJ hZ
    exact ⟨ih _ (hp.2 _) hJ' hZ', fun e => ih _ (hp.2 _) hJ' hZ'⟩

theorem tryCatch {g : ε → Prog Op Res ε α} (h : Keeps run J p Q s)
    (hg : ∀ e s, J s → Keeps run J (g e) Q s) : Keeps run J (p.tryCatch g) Q s := by
  induction p generalizing s with
  | pure a => exact h
  | throw e => exact hg e s h
  | op o k ih =>
    obtain ⟨hJ, hfail, hexec⟩ := h
    refine ⟨hJ, fun e => ih _ (hfail e), fun a b t hx => ?_⟩
    obtain ⟨hok, hlost⟩ := hexec a b t hx
    exact ⟨ih _ hok, fun e => ih _ (hlost e)⟩

/-- `try p finally y` -/
theorem thenFinally {y : Prog Op Res ε Unit} {R : α → S → Prop} (h : Keeps run J p Q s)
    (hy : ∀ a s, J s → Q a s → Keeps run J y (fun _ => R a) s)
    (hy' : ∀ s, J s → Keeps run J y (fun _ _ => True) s) :
    Keeps run J (p.thenFinally y) R s := by
  induction p generalizing s with
  | pure a => exact (hy a s h.1 h.2).bind fun _ _ hJ hQ => ⟨hJ, hQ⟩
  | throw e => exact (hy' s h).bind fun _ _ hJ _ => hJ
  | op o k ih =>
    obtain ⟨hJ, hfail, hexec⟩ := h
    refine ⟨hJ, fun e => ih _ (hfail e), fun a b t hx => ?_⟩
    obtain ⟨hok, hlost⟩ := hexec a b t hx
    exact ⟨ih _ hok, fun e => ih _ (hlost e)⟩

/-- One statement whose exception is propagated, and what follows its answer. -/
theorem perform_bind {o : Op} {f : Res o → Prog Op Res ε β} {R : β → S → Prop} (hJ : J s)
    (h : ∀ a b t, run o a s = some (b, t) → Keeps run J (f b) R t) :
    Keeps run J ((Prog.perform o).bind f) R s :=
  ⟨hJ, fun _ => hJ, fun a b t hx => ⟨h a b t hx, fun _ => (h a b t hx).inv⟩⟩

/-- One statement whose exception is propagated. -/
theorem perform {o : Op} {R : Res o → S → Prop} (hJ : J s)
    (h : ∀ a b t, run o a s = some (b, t) → J t ∧ R b t) :
    Keeps run J (Prog.perform o : Prog Op Res ε (Res o)) R s :=
  ⟨hJ, fun _ => hJ, fun a b t hx => ⟨h a b t hx, fun _ => (h a b t hx).1⟩⟩

/-- What a routine keeps, each of its runs keeps. -/
theorem sound (hr : Solo run p s q u) (h : Keeps run J p Q s) : Keeps run J q Q u := by
  induction hr with
  | refl p s => exact h
  | ok hx _ ih => exact ih (h.2.2 _ _ _ hx).1
  | failed _ ih => exact ih (h.2.1 _)
  | lost hx _ ih => exact ih ((h.2.2 _ _ _ hx).2 _)

/-- A routine whose statements all keep `J`. -/
theorem of_kept {P : Op → Prop} (hp : p.Only P) (hJ : J s)
    (hkeep : ∀ o a b s t, P o → run o a s = some (b, t) → J s → J t) :
    Keeps run J p (fun _ _ => True) s := by
  induction p generalizing s with
  | pure a => exact ⟨hJ, True.intro⟩
  | throw e => exact hJ
  | op o k ih =>
    refine ⟨hJ, fun e => ih _ (hp.2 _) hJ, fun a b t hx => ?_⟩
    have ht : J t := hkeep o a b s t hp.1 hx hJ
    exact ⟨ih _ (hp.2 _) ht, fun e => ih _ (hp.2 _) ht⟩

/-- Two invariants at once. -/
theorem and {J' : S → Prop} (h : Keeps run J p Q s) (h' : Keeps run J' p Q' s) :
    Keeps run (fun s => J s ∧ J' s) p (fun a s => Q a s ∧ Q' a s) s := by
  induction p generalizing s with
  | pure a => exact ⟨⟨h.1, h'.1⟩, h.2, h'.2⟩
  | throw e => exact ⟨h, h'⟩
  | op o k ih =>
    refine ⟨⟨h.1, h'.1⟩, fun e => ih _ (h.2.1 e) (h'.2.1 e), fun a b t hx => ?_⟩
    obtain ⟨hok, hlost⟩ := h.2.2 a b t hx
    obtain ⟨hok', hlost'⟩ := h'.2.2 a b t hx
    exact ⟨ih _ hok hok', fun e => ih _ (hlost e) (hlost' e)⟩

end Keeps

/-! ## Whole runs -/

/-- A routine that has ended. -/
def Prog.ended : Except ε α → Prog Op Res ε α
  | .ok a => .pure a
  | .error e => .throw e

section Whole

variable {run : (o : Op) → Res o → S → Option (Res o × S)} {s t u : S} {p q : Prog Op Res ε α}

theorem Solo.trans {r : Prog Op Res ε α} (h : Solo run p s q t) (h' : Solo run q t r u) :
    Solo run p s r u := by
  induction h with
  | refl p s => exact h'
  | ok hx _ ih => exact .ok hx (ih h')
  | failed _ ih => exact .failed (ih h')
  | lost hx _ ih => exact .lost hx (ih h')

theorem Solo.bind {f : α → Prog Op Res ε β} (h : Solo run p s q t) :
    Solo run (p.bind f) s (q.bind f) t := by
  induction h with
  | refl p s => exact .refl _ _
  | ok hx _ ih => exact .ok hx ih
  | failed _ ih => exact .failed ih
  | lost hx _ ih => exact .lost hx ih

theorem Solo.tryCatch {g : ε → Prog Op Res ε α} (h : Solo run p s q t) :
    Solo run (p.tryCatch g) s (q.tryCatch g) t := by
  induction h with
  | refl p s => exact .refl _ _
  | ok hx _ ih => exact .ok hx ih
  | failed _ ih => exact .failed ih
  | lost hx _ ih => exact .lost hx ih

theorem Solo.thenFinally {y : Prog Op Res ε Unit} (h : Solo run p s q t) :
    Solo run (p.thenFinally y) s (q.thenFinally y) t := by
  induction h with
  | refl p s => exact .refl _ _
  | ok hx _ ih => exact .ok hx ih
  | failed _ ih => exact .failed ih
  | lost hx _ ih => exact .lost hx ih

/-- `p`, alone from `s`, can end with `out` in `t`. -/
def Completes (run : (o : Op) → Res o → S → Option (Res o × S)) (p : Prog Op Res ε α) (s : S)
    (out : Except ε α) (t : S) : Prop :=
  Solo run p s (Prog.ended out) t

namespace Completes

variable {out : Except ε α} {e : ε} {a : α}

theorem pure : Completes run (.pure a : Prog Op Res ε α) s (.ok a) s := .refl _ _

theorem throw : Completes run (.throw e : Prog Op Res ε α) s (.error e) s := .refl _ _

theorem bind {f : α → Prog Op Res ε β} {out : Except ε β} (h : Completes run p s (.ok a) t)
    (h' : Completes run (f a) t out u) : Completes run (p.bind f) s out u :=
  (Solo.bind h).trans h'

theorem bind_error {f : α → Prog Op Res ε β} (h : Completes run p s (.error e) t) :
    Completes run (p.bind f) s (.error e) t :=
  Solo.bind h

theorem tryCatch_ok {g : ε → Prog Op Res ε α} (h : Completes run p s (.ok a) t) :
    Completes run (p.tryCatch g) s (.ok a) t :=
  Solo.tryCatch h

theorem tryCatch_error {g : ε → Prog Op Res ε α} (h : Completes run p s (.error e) t)
    (h' : Completes run (g e) t out u) : Completes run (p.tryCatch g) s out u :=
  (Solo.tryCatch h).trans h'

/-- `try p finally y`, where `y` goes well. -/
theorem thenFinally {y : Prog Op Res ε Unit} (h : Completes run p s out t)
    (h' : Completes run y t (.ok ()) u) : Completes run (p.thenFinally y) s out u := by
  refine (Solo.thenFinally h).trans ?_
  cases out with
  | ok a => exact Solo.bind h'
  | error e => exact Solo.bind h'

theorem perform {o : Op} {a b : Res o} (h : run o a s = some (b, t)) :
    Completes run (Prog.perform o : Prog Op Res ε (Res o)) s (.ok b) t :=
  .ok h (.refl _ _)

theorem perform_failed {o : Op} (e : ε) :
    Completes run (Prog.perform o : Prog Op Res ε (Res o)) s (.error e) s :=
  .failed (.refl _ _)

/-! What the parts of a completed routine did. -/

theorem of_pure (h : Completes run (.pure a : Prog Op Res ε α) s out t) : out = .ok a ∧ t = s := by
  unfold Completes at h
  generalize hq : Prog.ended out = q at h
  cases h
  cases out with
  | ok b => exact ⟨congrArg Except.ok (Prog.pure.inj hq), rfl⟩
  | error e => cases hq

theorem of_throw (h : Completes run (.throw e : Prog Op Res ε α) s out t) :
    out = .error e ∧ t = s := by
  unfold Completes at h
  generalize hq : Prog.ended out = q at h
  cases h
  cases out with
  | ok b => cases hq
  | error e => exact ⟨congrArg Except.error (Prog.throw.inj hq), rfl⟩

/-- The first statement answered, failed, or was executed unheard. -/
theorem of_op {o : Op} {k : Except ε (Res o) → Prog Op Res ε α}
    (h : Completes run (.op o k) s out u) :
    (∃ a b t, run o a s = some (b, t) ∧ Completes run (k (.ok b)) t out u) ∨
      (∃ e, Completes run (k (.error e)) s out u) ∨
      ∃ a b e t, run o a s = some (b, t) ∧ Completes run (k (.error e)) t out u := by
  unfold Completes at h
  generalize hq : Prog.ended out = q at h
  cases h with
  | refl => cases out <;> cases hq
  | ok hx h =>
    subst hq
    exact .inl ⟨_, _, _, hx, h⟩
  | failed h =>
    subst hq
    exact .inr (.inl ⟨_, h⟩)
  | lost hx h =>
    subst hq
    exact .inr (.inr ⟨_, _, _, _, hx, h⟩)

theorem of_bind {f : α → Prog Op Res ε β} {out : Except ε β}
    (h : Completes run (p.bind f) s out u) :
    (∃ a t, Completes run p s (.ok a) t ∧ Completes run (f a) t out u) ∨
      ∃ e, out = .error e ∧ Completes run p s (.error e) u := by
  induction p generalizing s with
  | pure a => exact .inl ⟨a, s, .pure, h⟩
  | throw e =>
    obtain ⟨rfl, rfl⟩ := of_throw h
    exact .inr ⟨e, rfl, .throw⟩
  | op o k ih =>
    rcases of_op h with ⟨a, b, t, hx, hk⟩ | ⟨e, hk⟩ | ⟨a, b, e, t, hx, hk⟩
    · rcases ih _ hk with ⟨c, t', hp, h'⟩ | ⟨e, rfl, hp⟩
      · exact .inl ⟨c, t', .ok hx hp, h'⟩
      · exact .inr ⟨e, rfl, .ok hx hp⟩
    · rcases ih _ hk with ⟨c, t', hp, h'⟩ | ⟨e', rfl, hp⟩
      · exact .inl ⟨c, t', .failed hp, h'⟩
      · exact .inr ⟨e', rfl, .failed hp⟩
    · rcases ih _ hk with ⟨c, t', hp, h'⟩ | ⟨e', rfl, hp⟩
      · exact .inl ⟨c, t', .lost hx hp, h'⟩
      · exact .inr ⟨e', rfl, .lost hx hp⟩

theorem of_tryCatch {g : ε → Prog Op Res ε α} (h : Completes run (p.tryCatch g) s out u) :
    (∃ a, out = .ok a ∧ Completes run p s (.ok a) u) ∨
      ∃ e t, Completes run p s (.error e) t ∧ Completes run (g e) t out u := by
  induction p generalizing s with
  | pure a =>
    obtain ⟨rfl, rfl⟩ := of_pure h
    exact .inl ⟨a, rfl, .pure⟩
  | throw e => exact .inr ⟨e, s, .throw, h⟩
  | op o k ih =>
    rcases of_op h with ⟨a, b, t, hx, hk⟩ | ⟨e, hk⟩ | ⟨a, b, e, t, hx, hk⟩
    · rcases ih _ hk with ⟨c, rfl, hp⟩ | ⟨e, t', hp, h'⟩
      · exact .inl ⟨c, rfl, .ok hx hp⟩
      · exact .inr ⟨e, t', .ok hx hp, h'⟩
    · rcases ih _ hk with ⟨c, rfl, hp⟩ | ⟨e', t', hp, h'⟩
      · exact .inl ⟨c, rfl, .failed hp⟩
      · exact .inr ⟨e', t', .failed hp, h'⟩
    · rcases ih _ hk with ⟨c, rfl, hp⟩ | ⟨e', t', hp, h'⟩
      · exact .inl ⟨c, rfl, .lost hx hp⟩
      · exact .inr ⟨e', t', .lost hx hp, h'⟩

end Completes

end Whole

/-! ## Replays -/

/-- The run in which each statement gets the reply `reply` has for it; `none` where the state does
    not give the suggested answer. -/
def replay (run : (o : Op) → Res o → S → Option (Res o × S)) (reply : (o : Op) → S → Reply ε (Res o)) :
    Prog Op Res ε α → S → Option (Except ε α × S)
  | .pure a, s => some (.ok a, s)
  | .throw e, s => some (.error e, s)
  | .op o k, s => ((reply o s).apply (run o) s).bind fun x => replay run reply (k x.1) x.2

/-- A replay is a run. -/
theorem replay_solo {run : (o : Op) → Res o → S → Option (Res o × S)}
    {reply : (o : Op) → S → Reply ε (Res o)} {p : Prog Op Res ε α} {s u : S} {out : Except ε α}
    (h : replay run reply p s = some (out, u)) : Solo run p s (Prog.ended out) u := by
  induction p generalizing s with
  | pure a =>
    obtain ⟨rfl, rfl⟩ := Prod.mk.inj (Option.some.inj h)
    exact .refl _ _
  | throw e =>
    obtain ⟨rfl, rfl⟩ := Prod.mk.inj (Option.some.inj h)
    exact .refl _ _
  | op o k ih =>
    obtain ⟨⟨r, t⟩, hr, hk⟩ := Option.bind_eq_some_iff.1 h
    cases hreply : reply o s with
    | ok a =>
      rw [hreply] at hr
      obtain ⟨⟨b, t'⟩, hx, heq⟩ := Option.map_eq_some_iff.1 hr
      obtain ⟨rfl, rfl⟩ := Prod.mk.inj heq
      exact .ok hx (ih _ hk)
    | failed e =>
      rw [hreply] at hr
      obtain ⟨rfl, rfl⟩ := Prod.mk.inj (Option.some.inj hr)
      exact .failed (ih _ hk)
    | lost a e =>
      rw [hreply] at hr
      obtain ⟨⟨b, t'⟩, hx, heq⟩ := Option.map_eq_some_iff.1 hr
      obtain ⟨rfl, rfl⟩ := Prod.mk.inj heq
      exact .lost hx (ih _ hk)

end Interleave
