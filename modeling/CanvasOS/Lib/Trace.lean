/-
  What holds at every point of a recorded run.

  1. `Throughout K h` — `K` holds of the state and the log as they are, and as they were before each
     statement of the log.  `Sys.Reach.throughout` gets it from what one move preserves.
  2. `Sys.Reach.log_grows` — a run only adds to the log, so that what a statement found stays on
     record.
-/
import CanvasOS.Lib.RelyGuarantee

namespace Interleave

variable {Op : Type} {Res : Op → Type} {ε S ι ρ α E : Type}

/-- `K` holds of the state and the log now, and held of them before each statement. -/
structure History.Throughout (K : S → List (Event Op Res S ι) → Prop)
    (h : History Op Res S ι ρ) : Prop where
  now : K h.cur h.log
  before : ∀ later e earlier, h.log = later ++ e :: earlier → K e.pre earlier

/-- A statement that is executed goes on record, and the state before it with it. -/
theorem History.Throughout.after {K : S → List (Event Op Res S ι) → Prop}
    {h : History Op Res S ι ρ} {e : Event Op Res S ι} {s : S} (hpre : e.pre = h.cur)
    (hK : h.Throughout K) (hs : K s (e :: h.log)) :
    (⟨s, h.arrived, e :: h.log⟩ : History Op Res S ι ρ).Throughout K := by
  refine ⟨hs, fun later x earlier heq => ?_⟩
  cases later with
  | nil =>
    obtain ⟨rfl, rfl⟩ := List.cons.inj heq
    rw [hpre]
    exact hK.now
  | cons y later =>
    obtain ⟨-, heq⟩ := List.cons.inj heq
    exact hK.before later x earlier heq

namespace Sys

variable [DecidableEq ι] {M : Sys Op Res ε S ι ρ α E}
  {ok : Config Op Res ε (History Op Res S ι ρ) ι ρ α → Act Op Res ε ι ρ E → Prop} {s₀ : S}
  {c c' : Config Op Res ε (History Op Res S ι ρ) ι ρ α}

/-- What every single move preserves holds throughout a run. -/
theorem Reach.throughout {K : S → List (Event Op Res S ι) → Prop} (h₀ : K s₀ [])
    (henter : ∀ i r s t log, M.enter i r s = some t → K s log → K t log)
    (hrun : ∀ i o a b s t log, M.run i o a s = some (b, t) → K s log → K t (⟨i, o, b, s⟩ :: log))
    (henv : ∀ e s t log, M.env e s = some t → K s log → K t log)
    (hr : M.recording.Reach ok (.idle ⟨s₀, [], []⟩) c) : c.shared.Throughout K := by
  refine hr.shared_invariant (I := fun h => h.Throughout K) ?_ ?_ ?_ ?_
  · exact ⟨h₀, fun later e earlier heq => by cases later <;> cases heq⟩
  · intro c i r h _ hI hs
    obtain ⟨t, ht, rfl⟩ := recording_enter hs
    exact ⟨henter i r _ t _ ht hI.now, hI.before⟩
  · intro c i f r o k out h _ _ hI hs
    rcases recording_apply hs with ⟨-, rfl⟩ | ⟨a, b, t, -, hx, rfl⟩
    · exact hI
    · exact hI.after rfl (hrun i o a b _ t _ hx hI.now)
  · intro c e h _ hI hs
    obtain ⟨t, ht, rfl⟩ := recording_env hs
    exact ⟨henv e _ t _ ht hI.now, hI.before⟩

/-- Every recorded statement was executed in the state before it. -/
theorem Reach.recording_ran (hr : M.recording.Reach ok (.idle ⟨s₀, [], []⟩) c) :
    ∀ e ∈ c.shared.log, ∃ a t, M.run e.who e.op a e.pre = some (e.ans, t) := by
  have h := hr.throughout
    (K := fun _ log => ∀ e ∈ log, ∃ a t, M.run e.who e.op a e.pre = some (e.ans, t))
    (fun e he => absurd he List.not_mem_nil) (fun _ _ _ _ _ _ h => h)
    (fun i o a b s t log hx h e he => ?_) (fun _ _ _ _ _ h => h)
  · exact h.now
  · rcases List.mem_cons.1 he with rfl | he
    · exact ⟨a, t, hx⟩
    · exact h e he

/-- What is on record stays on record. -/
theorem Reach.log_grows (hr : M.recording.Reach ok c c') :
    ∃ new, c'.shared.log = new ++ c.shared.log := by
  let P (d : Config Op Res ε (History Op Res S ι ρ) ι ρ α) : Prop :=
    ∃ new, d.shared.log = new ++ c.shared.log
  have h₀ : P c := ⟨[], rfl⟩
  refine hr.invariant h₀ fun d a _ hd _ => exec_cases (P := P) a hd ?_ ?_ ?_ ?_
  · rintro i r h - - hs
    obtain ⟨t, -, rfl⟩ := recording_enter hs
    exact hd
  · rintro i f r o k out h - - hs
    rcases recording_apply hs with ⟨-, rfl⟩ | ⟨a, b, t, -, -, rfl⟩
    · exact hd
    · obtain ⟨new, heq⟩ := hd
      exact ⟨_ :: new, congrArg (List.cons _) heq⟩
  · rintro i r p - -
    exact hd
  · rintro e h - hs
    obtain ⟨t, -, rfl⟩ := recording_env hs
    exact hd

end Sys

end Interleave
