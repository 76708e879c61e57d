/-
  Routines (`Lib.Prog`) that keep to a discipline while they run next to each other.

  A discipline has typestates: in each some statements are allowed, and their answers lead on to
  others.

  1. **One routine** (`Discipline.Tracks`) — from a typestate, whatever the answers are that the
     discipline expects, the routine stays within it, and ends as promised.  One rule per
     combinator.
  2. **Any number of them** (`Sys.Reach.tracked`) — an invariant of the shared state and of the
     typestates of all threads.  A step has to lead one thread on and to leave the invariant.
-/
import CanvasOS.Lib.RelyGuarantee

namespace Interleave

variable {Op : Type} {Res : Op → Type} {ε S ι ρ α β E T : Type}

/-- Which statements a typestate allows, and where an outcome leads. -/
structure Discipline (Op : Type) (Res : Op → Type) (ε T : Type) where
  may : T → Op → Prop
  next : T → (o : Op) → Except ε (Res o) → T → Prop

namespace Discipline

variable {D : Discipline Op Res ε T} {Q Q' : Except ε α → T → Prop} {τ : T}

/-! ## One routine -/

/-- From `τ` the routine executes what it may, and ends in `Q`. -/
def Tracks (D : Discipline Op Res ε T) : Prog Op Res ε α → (Except ε α → T → Prop) → T → Prop
  | .pure a, Q, τ => Q (.ok a) τ
  | .throw e, Q, τ => Q (.error e) τ
  | .op o k, Q, τ => D.may τ o ∧ ∀ out τ', D.next τ o out τ' → D.Tracks (k out) Q τ'

theorem Tracks.mono {p : Prog Op Res ε α} (h : D.Tracks p Q τ)
    (hQ : ∀ out τ, Q out τ → Q' out τ) : D.Tracks p Q' τ := by
  induction p generalizing τ with
  | pure a => exact hQ _ _ h
  | throw e => exact hQ _ _ h
  | op o k ih => exact ⟨h.1, fun out τ' hnext => ih out (h.2 out τ' hnext)⟩

theorem Tracks.bind {p : Prog Op Res ε α} {f : α → Prog Op Res ε β} {R : Except ε β → T → Prop}
    (h : D.Tracks p Q τ) (hok : ∀ a τ, Q (.ok a) τ → D.Tracks (f a) R τ)
    (herror : ∀ e τ, Q (.error e) τ → R (.error e) τ) : D.Tracks (p.bind f) R τ := by
  induction p generalizing τ with
  | pure a => exact hok a τ h
  | throw e => exact herror e τ h
  | op o k ih => exact ⟨h.1, fun out τ' hnext => ih out (h.2 out τ' hnext)⟩

theorem Tracks.tryCatch {p : Prog Op Res ε α} {g : ε → Prog Op Res ε α}
    {R : Except ε α → T → Prop} (h : D.Tracks p Q τ) (hok : ∀ a τ, Q (.ok a) τ → R (.ok a) τ)
    (herror : ∀ e τ, Q (.error e) τ → D.Tracks (g e) R τ) : D.Tracks (p.tryCatch g) R τ := by
  induction p generalizing τ with
  | pure a => exact hok a τ h
  | throw e => exact herror e τ h
  | op o k ih => exact ⟨h.1, fun out τ' hnext => ih out (h.2 out τ' hnext)⟩

theorem Tracks.perform {o : Op} {R : Except ε (Res o) → T → Prop} (hmay : D.may τ o)
    (hnext : ∀ out τ', D.next τ o out τ' → R out τ') : D.Tracks (Prog.perform o) R τ := by
  refine ⟨hmay, fun out τ' h => ?_⟩
  cases out with
  | ok a => exact hnext _ _ h
  | error e => exact hnext _ _ h

end Discipline

/-! ## Any number of routines -/

namespace Sys

variable [DecidableEq ι] {M : Sys Op Res ε S ι ρ α E} {D : Discipline Op Res ε T}
  {ok : Config Op Res ε S ι ρ α → Act Op Res ε ι ρ E → Prop} {Q : ρ → Except ε α → T → Prop}
  {s₀ : S} {c : Config Op Res ε S ι ρ α} {τ₀ : T} {σ : ι → T} {i : ι} {r : ρ}

/-- Every thread keeps to the discipline from its typestate on.  One that is not there, or has
    died, is in the first one. -/
structure Tracked (D : Discipline Op Res ε T) (Q : ρ → Except ε α → T → Prop) (τ₀ : T)
    (c : Config Op Res ε S ι ρ α) (σ : ι → T) : Prop where
  running : ∀ i r p, c.thread i = some (r, some p) → D.Tracks p (Q r) (σ i)
  quiet : ∀ i, (∀ r p, c.thread i ≠ some (r, some p)) → σ i = τ₀

/-- One thread goes on. -/
theorem Tracked.put (h : Tracked D Q τ₀ c σ) {p : Prog Op Res ε α} {τ : T}
    (hp : D.Tracks p (Q r) τ) (s : S) :
    Tracked D Q τ₀ (c.put s i r (some p)) (Function.update σ i τ) := by
  constructor
  · intro j r' q hj
    rcases Config.put_thread.1 hj with ⟨rfl, rfl, hq⟩ | ⟨hne, hj⟩
    · rw [Function.update_self, ← Option.some.inj hq]
      exact hp
    · rw [Function.update_of_ne hne]
      exact h.running j r' q hj
  · intro j hj
    have hne : j ≠ i := by
      rintro rfl
      exact hj r p (Config.put_thread.2 (.inl ⟨rfl, rfl, rfl⟩))
    rw [Function.update_of_ne hne]
    exact h.quiet j fun r' q hq => hj r' q (Config.put_thread.2 (.inr ⟨hne, hq⟩))

/-- One thread dies. -/
theorem Tracked.crash (h : Tracked D Q τ₀ c σ) (s : S) :
    Tracked D Q τ₀ (c.put s i r none) (Function.update σ i τ₀) := by
  constructor
  · intro j r' q hj
    rcases Config.put_thread.1 hj with ⟨-, -, hq⟩ | ⟨hne, hj⟩
    · cases hq
    · rw [Function.update_of_ne hne]
      exact h.running j r' q hj
  · intro j hj
    by_cases hji : j = i
    · rw [hji, Function.update_self]
    · rw [Function.update_of_ne hji]
      exact h.quiet j fun r' q hq => hj r' q (Config.put_thread.2 (.inr ⟨hji, hq⟩))

/-- An invariant of the shared state and of the typestates, in every run whose acts meet `ok`. -/
theorem Reach.tracked {I : S → (ι → T) → Prop} (hbody : ∀ r, D.Tracks (M.body r) (Q r) τ₀)
    (h₀ : I s₀ fun _ => τ₀)
    (henter : ∀ c σ i r s, ok c (.enter i r) → I c.shared σ → M.enter i r c.shared = some s →
      I s σ)
    (hstep : ∀ c σ i f r o k out s, ok c (.step i f) → Tracked D Q τ₀ c σ → I c.shared σ →
      c.thread i = some (r, some (.op o k)) → D.may (σ i) o →
      (f o).apply (M.run i o) c.shared = some (out, s) →
      ∃ τ, D.next (σ i) o out τ ∧ I s (Function.update σ i τ))
    (hcrash : ∀ c σ i r p, ok c (.crash i) → Tracked D Q τ₀ c σ → I c.shared σ →
      c.thread i = some (r, some p) → I c.shared (Function.update σ i τ₀))
    (henv : ∀ c σ e s, ok c (.env e) → I c.shared σ → M.env e c.shared = some s → I s σ)
    (hr : M.Reach ok (.idle s₀) c) : ∃ σ, I c.shared σ ∧ Tracked D Q τ₀ c σ := by
  let J (c : Config Op Res ε S ι ρ α) : Prop := ∃ σ, I c.shared σ ∧ Tracked D Q τ₀ c σ
  have hidle : J (.idle s₀) := ⟨fun _ => τ₀, h₀, nofun, fun _ _ => rfl⟩
  refine hr.invariant hidle fun c a _ hJ hok => exec_cases (P := J) a hJ ?_ ?_ ?_ ?_
  · rintro i r s rfl hi hs
    obtain ⟨σ, hI, hT⟩ := hJ
    -- a thread that was not there is in the first typestate already
    have hτ : σ i = τ₀ := hT.quiet i fun r' p hp => by
      rw [hi] at hp
      cases hp
    have hσ : Function.update σ i τ₀ = σ := by rw [← hτ, Function.update_eq_self]
    refine ⟨σ, henter c σ i r s hok hI hs, ?_⟩
    rw [← hσ]
    exact hT.put (hbody r) s
  · rintro i f r o k out s rfl hi hs
    obtain ⟨σ, hI, hT⟩ := hJ
    obtain ⟨hmay, hgoes⟩ := hT.running i r _ hi
    obtain ⟨τ, hnext, hI'⟩ := hstep c σ i f r o k out s hok hT hI hi hmay hs
    exact ⟨Function.update σ i τ, hI', hT.put (hgoes out τ hnext) s⟩
  · rintro i r p rfl hi
    obtain ⟨σ, hI, hT⟩ := hJ
    exact ⟨Function.update σ i τ₀, hcrash c σ i r p hok hT hI hi, hT.crash c.shared⟩
  · rintro e s rfl hs
    obtain ⟨σ, hI, hT⟩ := hJ
    exact ⟨σ, henv c σ e s hok hI hs, hT.running, hT.quiet⟩

end Sys

end Interleave
