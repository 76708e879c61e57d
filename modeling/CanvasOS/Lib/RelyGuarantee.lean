/-
  Proof rules for the runs of `Lib.System`.

  1. **Statement invariants** (`Sys.Reach.shared_invariant`) — a property of the shared state that
     every single statement keeps, whatever routine it belongs to.
  2. **Rely–guarantee** (`Rules`, `Rules.wp`) — for a property that depends on where a routine
     stands.  `wp i p Q s` is the weakest condition under which the rest `p` of thread `i`'s
     routine, started in `s`, keeps the global invariant and its guarantee at every statement and
     ends in `Q`.  It is a recursion on the routine: before each statement the OTHER threads move
     the state along `rely i`, and the statement must be justified in every state they can leave.
  3. **Soundness** (`Reach.sound`) for any number of threads at once: each guarantee must then be
     what the others rely on; in `Reach.sound_running` this may depend on who else is running.
     Routines that run one at a time are the subject of `Lib.Sequential`.
-/
import CanvasOS.Lib.System

namespace Interleave

variable {Op : Type} {Res : Op → Type} {ε S ι ρ α β E : Type}

/-- What a proof about a system fixes: the global invariant, what thread `i` relies on and
    guarantees, and the replies it has to reckon with. -/
structure Rules (Op : Type) (Res : Op → Type) (ε S ι : Type) where
  inv : S → Prop
  rely : ι → S → S → Prop
  guar : ι → Op → S → S → Prop
  adm : ι → S → (o : Op) → Reply ε (Res o) → Prop
  rely_refl : ∀ i s, rely i s s
  rely_trans : ∀ i s₁ s₂ s₃, rely i s₁ s₂ → rely i s₂ s₃ → rely i s₁ s₃

namespace Rules

/-- The weakest condition for the rest of a routine: at each statement, in every state the others
    can leave and under every admissible reply, the invariant and the guarantee hold and the
    continuation is justified; at the end, `Q` holds and stays. -/
def wp (R : Rules Op Res ε S ι) (run : ι → (o : Op) → Res o → S → Option (Res o × S)) (i : ι) :
    Prog Op Res ε α → (Except ε α → S → Prop) → S → Prop
  | .pure a, Q, s => ∀ s₁, R.rely i s s₁ → Q (.ok a) s₁
  | .throw e, Q, s => ∀ s₁, R.rely i s s₁ → Q (.error e) s₁
  | .op o k, Q, s => ∀ s₁, R.rely i s s₁ → R.inv s₁ → ∀ r, R.adm i s₁ o r →
      ∀ out s₂, r.apply (run i o) s₁ = some (out, s₂) →
        R.inv s₂ ∧ R.guar i o s₁ s₂ ∧ R.wp run i (k out) Q s₂

variable {R : Rules Op Res ε S ι} {run : ι → (o : Op) → Res o → S → Option (Res o × S)} {i : ι}
  {Q Q' : Except ε α → S → Prop} {s s' : S}

/-- What is justified stays justified while the others move. -/
theorem wp.rely {p : Prog Op Res ε α} (h : R.wp run i p Q s) (hs : R.rely i s s') :
    R.wp run i p Q s' := by
  cases p with
  | pure a => exact fun s₁ h₁ => h s₁ (R.rely_trans i _ _ _ hs h₁)
  | throw e => exact fun s₁ h₁ => h s₁ (R.rely_trans i _ _ _ hs h₁)
  | op o k => exact fun s₁ h₁ => h s₁ (R.rely_trans i _ _ _ hs h₁)

theorem wp.mono {p : Prog Op Res ε α} (h : R.wp run i p Q s)
    (hQ : ∀ out s, Q out s → Q' out s) : R.wp run i p Q' s := by
  induction p generalizing s with
  | pure a => exact fun s₁ h₁ => hQ _ _ (h s₁ h₁)
  | throw e => exact fun s₁ h₁ => hQ _ _ (h s₁ h₁)
  | op o k ih =>
    intro s₁ h₁ hI r hr out s₂ hout
    obtain ⟨hI₂, hG, hk⟩ := h s₁ h₁ hI r hr out s₂ hout
    exact ⟨hI₂, hG, ih out hk⟩

/-- Sequencing: the second part starts where the first one ends. -/
theorem wp.bind {p : Prog Op Res ε α} {f : α → Prog Op Res ε β} {Q : Except ε β → S → Prop}
    (h : R.wp run i p (fun out s => match out with
      | .ok a => R.wp run i (f a) Q s
      | .error e => Q (.error e) s) s) : R.wp run i (p.bind f) Q s := by
  induction p generalizing s with
  | pure a => exact h s (R.rely_refl i s)
  | throw e => exact h
  | op o k ih =>
    intro s₁ h₁ hI r hr out s₂ hout
    obtain ⟨hI₂, hG, hk⟩ := h s₁ h₁ hI r hr out s₂ hout
    exact ⟨hI₂, hG, ih out hk⟩

/-- `try x except e: h e`. -/
theorem wp.tryCatch {p : Prog Op Res ε α} {f : ε → Prog Op Res ε α}
    (h : R.wp run i p (fun out s => match out with
      | .ok a => Q (.ok a) s
      | .error e => R.wp run i (f e) Q s) s) : R.wp run i (p.tryCatch f) Q s := by
  induction p generalizing s with
  | pure a => exact h
  | throw e => exact h s (R.rely_refl i s)
  | op o k ih =>
    intro s₁ h₁ hI r hr out s₂ hout
    obtain ⟨hI₂, hG, hk⟩ := h s₁ h₁ hI r hr out s₂ hout
    exact ⟨hI₂, hG, ih out hk⟩

/-- One statement, its three outcomes apart. -/
theorem wp_op {o : Op} {k : Except ε (Res o) → Prog Op Res ε α}
    (hok : ∀ s₁ s₂ a b, R.rely i s s₁ → R.inv s₁ → R.adm i s₁ o (.ok a) →
      run i o a s₁ = some (b, s₂) → R.inv s₂ ∧ R.guar i o s₁ s₂ ∧ R.wp run i (k (.ok b)) Q s₂)
    (hfailed : ∀ s₁ e, R.rely i s s₁ → R.inv s₁ → R.adm i s₁ o (.failed e) →
      R.guar i o s₁ s₁ ∧ R.wp run i (k (.error e)) Q s₁)
    (hlost : ∀ s₁ s₂ a b e, R.rely i s s₁ → R.inv s₁ → R.adm i s₁ o (.lost a e) →
      run i o a s₁ = some (b, s₂) →
        R.inv s₂ ∧ R.guar i o s₁ s₂ ∧ R.wp run i (k (.error e)) Q s₂) :
    R.wp run i (.op o k) Q s := by
  intro s₁ h₁ hI r hr out s₂ hout
  cases r with
  | ok a =>
    obtain ⟨⟨b, t⟩, hrun, heq⟩ := Option.map_eq_some_iff.1 hout
    obtain ⟨rfl, rfl⟩ := Prod.mk.inj heq
    exact hok s₁ t a b h₁ hI hr hrun
  | failed e =>
    obtain ⟨rfl, rfl⟩ := Prod.mk.inj (Option.some.inj hout)
    exact ⟨hI, hfailed s₁ e h₁ hI hr⟩
  | lost a e =>
    obtain ⟨⟨b, t⟩, hrun, heq⟩ := Option.map_eq_some_iff.1 hout
    obtain ⟨rfl, rfl⟩ := Prod.mk.inj heq
    exact hlost s₁ t a b e h₁ hI hr hrun

/-- A routine all of whose statements keep `J` keeps `J`: nothing else has to be known of it. -/
theorem wp_within {P : Op → Prop} {F : ε → Prop} {J : S → Prop} {p : Prog Op Res ε α}
    (hp : p.Within P F) (hJ : ∀ s s', J s → R.rely i s s' → J s')
    (hP : ∀ o, P o → ∀ s₁, J s₁ → R.inv s₁ → ∀ r, R.adm i s₁ o r → ∀ out s₂,
      r.apply (run i o) s₁ = some (out, s₂) → R.inv s₂ ∧ R.guar i o s₁ s₂ ∧ J s₂)
    (hs : J s) : R.wp run i p (fun out s => J s ∧ ∀ e, out = .error e → F e) s := by
  induction p generalizing s with
  | pure a => exact fun s₁ h₁ => ⟨hJ _ _ hs h₁, fun e he => nomatch he⟩
  | throw e =>
    intro s₁ h₁
    refine ⟨hJ _ _ hs h₁, fun e' he => ?_⟩
    obtain rfl := Except.error.inj he
    exact hp
  | op o k ih =>
    intro s₁ h₁ hI r hr out s₂ hout
    obtain ⟨hI₂, hG, hJ₂⟩ := hP o hp.1 s₁ (hJ _ _ hs h₁) hI r hr out s₂ hout
    exact ⟨hI₂, hG, ih out (hp.2 out) hJ₂⟩

end Rules

/-! ## Recorded systems -/

section Recorded

variable [DecidableEq ι] {body : ρ → Prog Op Res ε α}
  {run : ι → (o : Op) → Res o → S → Option (Res o × S)} {env : E → S → Option S}

/-- The rules of a recorded system: the others add to the record, thread `i` adds its own
    statements. -/
def historyRules (inv : History Op Res S ι ρ → Prop)
    (adm : ι → History Op Res S ι ρ → (o : Op) → Reply ε (Res o) → Prop) :
    Rules Op Res ε (History Op Res S ι ρ) ι where
  inv := inv
  rely := History.Others
  guar := fun i _ => History.Own i
  adm := adm
  rely_refl := fun _ _ => .refl
  rely_trans := fun _ _ _ _ h₁ h₂ => h₁.trans h₂

variable {inv : History Op Res S ι ρ → Prop}
  {adm : ι → History Op Res S ι ρ → (o : Op) → Reply ε (Res o) → Prop}
  {i : ι} {h : History Op Res S ι ρ} {Q : Except ε β → History Op Res S ι ρ → Prop}

/-- The environment may let the statement execute with `a` as its suggested answer. -/
def Admits (adm : ι → History Op Res S ι ρ → (o : Op) → Reply ε (Res o) → Prop) (i : ι)
    (h : History Op Res S ι ρ) (o : Op) (a : Res o) : Prop :=
  adm i h o (.ok a) ∨ ∃ e, adm i h o (.lost a e)

/-- One statement whose exceptions end the routine: whenever it executes, the invariant survives,
    and the routine is justified from the longer record on. -/
theorem wp_call {o : Op} {f : Res o → Prog Op Res ε β} (hQ : ∀ e h, Q (.error e) h)
    (hok : ∀ h₁ a b t, History.Others i h h₁ → inv h₁ → Admits adm i h₁ o a →
      run i o a h₁.cur = some (b, t) →
      inv ⟨t, h₁.arrived, ⟨i, o, b, h₁.cur⟩ :: h₁.log⟩ ∧
        (historyRules inv adm).wp (recorded body run env).run i (f b) Q
          ⟨t, h₁.arrived, ⟨i, o, b, h₁.cur⟩ :: h₁.log⟩) :
    (historyRules inv adm).wp (recorded body run env).run i ((Prog.perform o).bind f) Q h := by
  refine Rules.wp_op ?_ ?_ ?_
  · intro h₁ h₂ a b hrely hI hadm hrun
    obtain ⟨t, hx, rfl⟩ := recorded_run hrun
    obtain ⟨hI₂, hk⟩ := hok h₁ a b t hrely hI (.inl hadm) hx
    exact ⟨hI₂, History.own_cons, hk⟩
  · intro h₁ e _ _ _
    exact ⟨.refl, fun _ _ => hQ e _⟩
  · intro h₁ h₂ a b e hrely hI hadm hrun
    obtain ⟨t, hx, rfl⟩ := recorded_run hrun
    exact ⟨(hok h₁ a b t hrely hI (.inr ⟨e, hadm⟩) hx).1, History.own_cons, fun _ _ => hQ e _⟩

/-- `inv` is kept by every statement, whatever routine it belongs to. -/
def KeptByStatements (run : ι → (o : Op) → Res o → S → Option (Res o × S))
    (inv : History Op Res S ι ρ → Prop)
    (adm : ι → History Op Res S ι ρ → (o : Op) → Reply ε (Res o) → Prop) : Prop :=
  ∀ i h o a b t, inv h → Admits adm i h o a → run i o a h.cur = some (b, t) →
    inv ⟨t, h.arrived, ⟨i, o, b, h.cur⟩ :: h.log⟩

/-- Then nothing has to be known of a routine for it to keep `inv`. -/
theorem wp_trivial (hinv : KeptByStatements run inv adm) {p : Prog Op Res ε β} :
    (historyRules inv adm).wp (recorded body run env).run i p (fun _ _ => True) h := by
  induction p generalizing h with
  | pure a => exact fun _ _ => trivial
  | throw e => exact fun _ _ => trivial
  | op o k ih =>
    refine Rules.wp_op ?_ ?_ ?_
    · intro h₁ h₂ a b _ hI hadm hrun
      obtain ⟨t, hx, rfl⟩ := recorded_run hrun
      exact ⟨hinv i h₁ o a b t hI (.inl hadm) hx, History.own_cons, ih _⟩
    · intro h₁ e _ _ _
      exact ⟨.refl, ih _⟩
    · intro h₁ h₂ a b e _ hI hadm hrun
      obtain ⟨t, hx, rfl⟩ := recorded_run hrun
      exact ⟨hinv i h₁ o a b t hI (.inr ⟨e, hadm⟩) hx, History.own_cons, ih _⟩

/-- One statement of a routine, where every statement keeps the invariant. -/
theorem wp_step (hinv : KeptByStatements run inv adm) {o : Op} {f : Res o → Prog Op Res ε β}
    (hQ : ∀ e h, Q (.error e) h)
    (hok : ∀ h₁ a b t, History.Others i h h₁ → inv h₁ → Admits adm i h₁ o a →
      run i o a h₁.cur = some (b, t) →
      (historyRules inv adm).wp (recorded body run env).run i (f b) Q
        ⟨t, h₁.arrived, ⟨i, o, b, h₁.cur⟩ :: h₁.log⟩) :
    (historyRules inv adm).wp (recorded body run env).run i ((Prog.perform o).bind f) Q h :=
  wp_call hQ fun h₁ a b t ho hI hadm hx =>
    ⟨hinv i h₁ o a b t hI hadm hx, hok h₁ a b t ho hI hadm hx⟩

/-- One statement of a routine whose statements are all answered. -/
theorem wp_answered (hinv : KeptByStatements run inv adm)
    (hadm : ∀ i h o r, adm i h o r → r.answers = true) {o : Op} {f : Res o → Prog Op Res ε β}
    (hok : ∀ h₁ a b t, History.Others i h h₁ → inv h₁ → adm i h₁ o (.ok a) →
      run i o a h₁.cur = some (b, t) →
      (historyRules inv adm).wp (recorded body run env).run i (f b) Q
        ⟨t, h₁.arrived, ⟨i, o, b, h₁.cur⟩ :: h₁.log⟩) :
    (historyRules inv adm).wp (recorded body run env).run i ((Prog.perform o).bind f) Q h := by
  refine Rules.wp_op ?_ ?_ ?_
  · intro h₁ h₂ a b hrely hI ha hrun
    obtain ⟨t, hx, rfl⟩ := recorded_run hrun
    exact ⟨hinv i h₁ o a b t hI (.inl ha) hx, History.own_cons, hok h₁ a b t hrely hI ha hx⟩
  · intro h₁ e _ _ ha
    cases hadm _ _ _ _ ha
  · intro h₁ h₂ a b e _ _ ha _
    cases hadm _ _ _ _ ha

end Recorded

/-! ## Soundness -/

namespace Sys

variable [DecidableEq ι] {M : Sys Op Res ε S ι ρ α E}
  {ok : Config Op Res ε S ι ρ α → Act Op Res ε ι ρ E → Prop} {s₀ : S}
  {c : Config Op Res ε S ι ρ α}

/-- What one act can do: nothing, or one of the four moves with its guards. -/
theorem exec_cases {P : Config Op Res ε S ι ρ α → Prop} (a : Act Op Res ε ι ρ E) (hsame : P c)
    (henter : ∀ i r s, a = .enter i r → c.thread i = none → M.enter i r c.shared = some s →
      P (c.put s i r (some (M.body r))))
    (hstep : ∀ i f r o k out s, a = .step i f → c.thread i = some (r, some (.op o k)) →
      (f o).apply (M.run i o) c.shared = some (out, s) → P (c.put s i r (some (k out))))
    (hcrash : ∀ i r p, a = .crash i → c.thread i = some (r, some p) → P (c.put c.shared i r none))
    (henv : ∀ e s, a = .env e → M.env e c.shared = some s → P ⟨s, c.thread⟩) :
    P (M.exec c a) := by
  cases a with
  | enter i r =>
    simp only [exec]
    split
    · exact henter i r _ rfl ‹_› ‹_›
    · exact hsame
  | step i f =>
    simp only [exec]
    split
    · split
      · exact hstep i f _ _ _ _ _ rfl ‹_› ‹_›
      · exact hsame
    · exact hsame
  | crash i =>
    simp only [exec]
    split
    · exact hcrash i _ _ rfl ‹_›
    · exact hsame
  | env e =>
    simp only [exec]
    split
    · exact henv e _ rfl ‹_›
    · exact hsame

/-- A property of the shared state that arrivals, single statements and the world keep. -/
theorem Reach.shared_invariant {I : S → Prop} (h₀ : I s₀)
    (henter : ∀ c i r s, ok c (.enter i r) → I c.shared → M.enter i r c.shared = some s → I s)
    (hstep : ∀ c i f r o k out s, ok c (.step i f) → c.thread i = some (r, some (.op o k)) →
      I c.shared → (f o).apply (M.run i o) c.shared = some (out, s) → I s)
    (henv : ∀ c e s, ok c (.env e) → I c.shared → M.env e c.shared = some s → I s)
    (hr : M.Reach ok (.idle s₀) c) : I c.shared := by
  let J (c : Config Op Res ε S ι ρ α) : Prop := I c.shared
  have h₀ : J (.idle s₀) := h₀
  refine hr.invariant h₀ fun c a _ hI ha => ?_
  refine exec_cases a hI ?_ ?_ ?_ ?_
  · rintro i r s rfl - hs
    exact henter c i r s ha hI hs
  · rintro i f r o k out s rfl hi hs
    exact hstep c i f r o k out s ha hi hI hs
  · rintro i r p - -
    exact hI
  · rintro e s rfl hs
    exact henv c e s ha hI hs

/-- What a routine has and keeps from statement to statement, it has wherever a thread stands. -/
theorem Reach.thread_invariant {T : ρ → Prog Op Res ε α → Prop} (hbody : ∀ r, T r (M.body r))
    (hstep : ∀ r o k out, T r (.op o k) → T r (k out)) (hr : M.Reach ok (.idle s₀) c) :
    ∀ i r p, c.thread i = some (r, some p) → T r p := by
  let J (c : Config Op Res ε S ι ρ α) : Prop := ∀ i r p, c.thread i = some (r, some p) → T r p
  have h₀ : J (.idle s₀) := fun i r p h => nomatch h
  refine hr.invariant h₀ fun c a _ hJ _ => exec_cases (P := J) a hJ ?_ ?_ ?_ ?_
  · intro i r s _ _ _ j r' p hj
    rcases Config.put_thread.1 hj with ⟨-, rfl, hp⟩ | ⟨-, hj⟩
    · rw [← Option.some.inj hp]
      exact hbody _
    · exact hJ j r' p hj
  · intro i f r o k out s _ hi _ j r' p hj
    rcases Config.put_thread.1 hj with ⟨-, rfl, hp⟩ | ⟨-, hj⟩
    · rw [← Option.some.inj hp]
      exact hstep _ o k out (hJ i _ _ hi)
    · exact hJ j r' p hj
  · intro i r p _ _ j r' p' hj
    rcases Config.put_thread.1 hj with ⟨-, -, hp⟩ | ⟨-, hj⟩
    · cases hp
    · exact hJ j r' p' hj
  · exact fun e s _ _ => hJ

/-- What is left of a routine has no other statements than the routine. -/
theorem Reach.threads_only {P : ρ → Op → Prop} (hbody : ∀ r, (M.body r).Only (P r))
    (hr : M.Reach ok (.idle s₀) c) : ∀ i r p, c.thread i = some (r, some p) → p.Only (P r) :=
  hr.thread_invariant (T := fun r p => p.Only (P r)) hbody fun _ _ _ out h => h.2 out

/-- In a recorded system, the arrived requests are the ones the threads serve. -/
theorem Reach.thread_iff_arrived {body : ρ → Prog Op Res ε α}
    {run : ι → (o : Op) → Res o → S → Option (Res o × S)} {env : E → S → Option S}
    {ok : Config Op Res ε (History Op Res S ι ρ) ι ρ α → Act Op Res ε ι ρ E → Prop}
    {c : Config Op Res ε (History Op Res S ι ρ) ι ρ α}
    (hr : (recorded body run env).Reach ok (.idle ⟨s₀, [], []⟩) c) (i : ι) (r : ρ) :
    (i, r) ∈ c.shared.arrived ↔ ∃ p, c.thread i = some (r, p) := by
  let J (c : Config Op Res ε (History Op Res S ι ρ) ι ρ α) : Prop :=
    ∀ i r, (i, r) ∈ c.shared.arrived ↔ ∃ p, c.thread i = some (r, p)
  -- a thread that goes on, or dies, serves the same request
  have hput : ∀ (c : Config Op Res ε (History Op Res S ι ρ) ι ρ α) (i : ι) (r : ρ)
      (p p' : Option (Prog Op Res ε α)) (s : History Op Res S ι ρ), J c →
      c.thread i = some (r, p) → s.arrived = c.shared.arrived → J (c.put s i r p') := by
    intro c i r p p' s hJ hi hs j r'
    rw [Config.put_shared, hs, hJ j r']
    by_cases hji : j = i
    · subst hji
      rw [hi]
      simp [Config.put]
    · simp [Config.put, hji]
  have h₀ : J (.idle ⟨s₀, [], []⟩) := fun i r => by simp [Config.idle]
  refine hr.invariant h₀ (fun c a _ hJ _ => ?_) i r
  refine exec_cases a hJ ?_ ?_ ?_ ?_
  · intro i r s _ hi hs j r'
    obtain ⟨-, rfl⟩ := recorded_enter hs
    rw [Config.put_shared, List.mem_cons, hJ j r', Prod.mk.injEq]
    by_cases hji : j = i
    · subst hji
      simp [Config.put, hi, eq_comm]
    · simp [Config.put, hji]
  · intro i f r o k out s _ hi hs
    exact hput c i r _ _ s hJ hi (recorded_apply_arrived hs)
  · intro i r p _ hi
    exact hput c i r _ _ _ hJ hi rfl
  · intro e s _ hs
    obtain ⟨t, -, rfl⟩ := recorded_env hs
    exact hJ

/-- In a recorded system, every executed statement is one that the request its thread serves can
    reach. -/
theorem Reach.ops_only {body : ρ → Prog Op Res ε α}
    {run : ι → (o : Op) → Res o → S → Option (Res o × S)} {env : E → S → Option S}
    {ok : Config Op Res ε (History Op Res S ι ρ) ι ρ α → Act Op Res ε ι ρ E → Prop}
    {c : Config Op Res ε (History Op Res S ι ρ) ι ρ α} {P : ρ → Op → Prop}
    (hbody : ∀ r, (body r).Only (P r))
    (hr : (recorded body run env).Reach ok (.idle ⟨s₀, [], []⟩) c) :
    ∀ e ∈ c.shared.log, ∃ r p, c.thread e.who = some (r, p) ∧ P r e.op := by
  let J (c : Config Op Res ε (History Op Res S ι ρ) ι ρ α) : Prop :=
    ∀ e ∈ c.shared.log, ∃ r p, c.thread e.who = some (r, p) ∧ P r e.op
  -- a thread keeps serving its request
  have hkeep : ∀ (c : Config Op Res ε (History Op Res S ι ρ) ι ρ α) (i e : ι) (r : ρ)
      (p p' : Option (Prog Op Res ε α)) (s : History Op Res S ι ρ) (q : Op),
      c.thread i = some (r, p) → (∃ r p, c.thread e = some (r, p) ∧ P r q) →
      ∃ r' p'', (c.put s i r p').thread e = some (r', p'') ∧ P r' q := by
    intro c i e r p p' s q hi ⟨r', p'', he, hP⟩
    by_cases hei : e = i
    · subst hei
      rw [hi] at he
      obtain ⟨rfl, rfl⟩ := Prod.mk.inj (Option.some.inj he)
      exact ⟨r, p', Config.put_thread.2 (.inl ⟨rfl, rfl, rfl⟩), hP⟩
    · exact ⟨r', p'', Config.put_thread.2 (.inr ⟨hei, he⟩), hP⟩
  have h₀ : J (.idle ⟨s₀, [], []⟩) := fun e h => absurd h List.not_mem_nil
  refine hr.invariant h₀ fun c a hr hL _ => ?_
  refine exec_cases (P := J) a hL ?_ ?_ ?_ ?_
  · intro i r s _ hi hs e he
    obtain ⟨hfresh, rfl⟩ := recorded_enter hs
    obtain ⟨r', p, hp, hP⟩ := hL e he
    refine ⟨r', p, Config.put_thread.2 (.inr ⟨fun hei => ?_, hp⟩), hP⟩
    rw [hei, hi] at hp
    cases hp
  · intro i f r o k out s _ hi hs e he
    rcases recorded_apply_log hs e he with ⟨rfl, rfl⟩ | he
    · exact ⟨r, _, Config.put_thread.2 (.inl ⟨rfl, rfl, rfl⟩), (hr.threads_only hbody _ r _ hi).1⟩
    · exact hkeep c i e.who r _ _ s e.op hi (hL e he)
  · intro i r p _ hi e he
    exact hkeep c i e.who r _ _ _ e.op hi (hL e he)
  · intro e s _ hs
    obtain ⟨t, -, rfl⟩ := recorded_env hs
    exact hL

variable {R : Rules Op Res ε S ι} {Q : ι → ρ → Except ε α → S → Prop}

/-- Rely–guarantee for any number of threads at once: the invariant holds, and every routine that
    has not died is justified from where it stands. -/
theorem Reach.sound (h₀ : R.inv s₀)
    (henter : ∀ c i r s, M.Reach ok (.idle s₀) c → ok c (.enter i r) → R.inv c.shared →
      M.enter i r c.shared = some s → R.inv s ∧ (∀ j, j ≠ i → R.rely j c.shared s) ∧
        R.wp M.run i (M.body r) (Q i r) s)
    (hcompat : ∀ i j o s s', i ≠ j → R.guar i o s s' → R.rely j s s')
    (hadm : ∀ c i f r o k, ok c (.step i f) → c.thread i = some (r, some (.op o k)) →
      R.adm i c.shared o (f o))
    (henv : ∀ c e s, ok c (.env e) → R.inv c.shared → M.env e c.shared = some s →
      R.inv s ∧ ∀ j, R.rely j c.shared s)
    (hr : M.Reach ok (.idle s₀) c) :
    R.inv c.shared ∧ ∀ i r p, c.thread i = some (r, some p) → R.wp M.run i p (Q i r) c.shared := by
  let J (c : Config Op Res ε S ι ρ α) : Prop :=
    R.inv c.shared ∧ ∀ i r p, c.thread i = some (r, some p) → R.wp M.run i p (Q i r) c.shared
  refine hr.invariant (P := J) ⟨h₀, fun i r p h => by cases h⟩ fun c a hr ⟨hI, hT⟩ ha =>
    exec_cases (P := J) a ⟨hI, hT⟩ ?_ ?_ ?_ ?_
  · rintro i r s rfl hi hs
    obtain ⟨hI', hrely, hwp⟩ := henter c i r s hr ha hI hs
    refine ⟨hI', fun j r' p hj => ?_⟩
    rcases Config.put_thread.1 hj with ⟨rfl, rfl, hp⟩ | ⟨hji, hj⟩
    · obtain rfl := Option.some.inj hp
      exact hwp
    · exact (hT j r' p hj).rely (hrely j hji)
  · rintro i f r o k out s rfl hi hs
    obtain ⟨hI', hG, hk⟩ :=
      hT i r _ hi c.shared (R.rely_refl i _) hI (f o) (hadm c i f r o k ha hi) out s hs
    refine ⟨hI', fun j r' p hj => ?_⟩
    rcases Config.put_thread.1 hj with ⟨rfl, rfl, hp⟩ | ⟨hji, hj⟩
    · obtain rfl := Option.some.inj hp
      exact hk
    · exact (hT j r' p hj).rely (hcompat i j _ _ _ (Ne.symm hji) hG)
  · rintro i r p - -
    refine ⟨hI, fun j r' p' hj => ?_⟩
    rcases Config.put_thread.1 hj with ⟨-, -, hp⟩ | ⟨-, hj⟩
    · cases hp
    · exact hT j r' p' hj
  · rintro e s rfl hs
    obtain ⟨hI', hrely⟩ := henv c e s ha hI hs
    exact ⟨hI', fun j r p hj => (hT j r p hj).rely (hrely j)⟩

/-- Rely–guarantee for recorded systems: a request starts with a clean record of its own. -/
theorem Reach.sound_recorded {body : ρ → Prog Op Res ε α}
    {run : ι → (o : Op) → Res o → S → Option (Res o × S)} {env : E → S → Option S}
    {ok : Config Op Res ε (History Op Res S ι ρ) ι ρ α → Act Op Res ε ι ρ E → Prop}
    {c : Config Op Res ε (History Op Res S ι ρ) ι ρ α} {inv : History Op Res S ι ρ → Prop}
    {adm : ι → History Op Res S ι ρ → (o : Op) → Reply ε (Res o) → Prop}
    {Q : ι → ρ → Except ε α → History Op Res S ι ρ → Prop} (h₀ : inv ⟨s₀, [], []⟩)
    (harrive : ∀ h i r, inv h → inv { h with arrived := (i, r) :: h.arrived })
    (hmove : ∀ c e t, ok c (.env e) → inv c.shared → env e c.shared.cur = some t →
      inv { c.shared with cur := t })
    (hadm : ∀ c i f r o k, ok c (.step i f) → c.thread i = some (r, some (.op o k)) →
      adm i c.shared o (f o))
    (hbody : ∀ i r h, (i, r) ∈ h.arrived → (∀ e ∈ h.log, e.who ≠ i) → inv h →
      (historyRules inv adm).wp (recorded body run env).run i (body r) (Q i r) h)
    (hr : (recorded body run env).Reach ok (.idle ⟨s₀, [], []⟩) c) :
    inv c.shared ∧ ∀ i r p, c.thread i = some (r, some p) →
      (historyRules inv adm).wp (recorded body run env).run i p (Q i r) c.shared := by
  refine Reach.sound (R := historyRules inv adm) h₀ ?_
    (fun i j _ h h' hij => History.Own.others_of_ne hij) hadm ?_ hr
  · intro c i r s hr _ hI hs
    obtain ⟨hfresh, rfl⟩ := recorded_enter hs
    have hI' := harrive c.shared i r hI
    refine ⟨hI', fun j _ => ⟨fun _ h => h, fun _ h => List.mem_cons_of_mem _ h, rfl⟩,
      hbody i r _ List.mem_cons_self (fun e he hw => ?_) hI'⟩
    have hany : ∀ r : ρ, (body r).Only fun _ => True := fun r => Prog.Only.trivial (body r)
    obtain ⟨r', p, hp, -⟩ := hr.ops_only (P := fun _ _ => True) hany e he
    exact hfresh (List.mem_map.2 ⟨(e.who, r'), (hr.thread_iff_arrived _ _).2 ⟨p, hp⟩, hw⟩)
  · intro c e s hok hI hs
    obtain ⟨t, ht, rfl⟩ := recorded_env hs
    exact ⟨hmove c e t hok hI ht, fun _ => ⟨fun _ h => h, fun _ h => h, rfl⟩⟩

/-! ## Relies that depend on the request

    What a thread relies on may be granted to it because it is running, and because of the request
    it serves: an act of another thread is then judged in the configuration it starts from. -/

/-- Thread `i` is in the middle of its routine for `r`. -/
def Handles (c : Config Op Res ε S ι ρ α) (i : ι) (r : ρ) : Prop :=
  ∃ o k, c.thread i = some (r, some (.op o k))

/-- Rely–guarantee for threads whose rules depend on their requests: the invariant holds, and every
    routine that is running is justified from where it stands. -/
theorem Reach.sound_running {I : S → Prop} {R : ρ → Rules Op Res ε S ι}
    (hinv : ∀ r, (R r).inv = I) (h₀ : I s₀)
    (henter : ∀ c i r s, M.Reach ok (.idle s₀) c → ok c (.enter i r) → I c.shared →
      c.thread i = none → M.enter i r c.shared = some s →
      I s ∧ (∀ j r', Handles c j r' → (R r').rely j c.shared s) ∧
        (R r).wp M.run i (M.body r) (fun _ _ => True) s)
    (hstep : ∀ c i f r o k out s, ok c (.step i f) → c.thread i = some (r, some (.op o k)) →
      I c.shared → (f o).apply (M.run i o) c.shared = some (out, s) →
      (R r).guar i o c.shared s → ∀ j r', j ≠ i → Handles c j r' → (R r').rely j c.shared s)
    (hadm : ∀ c i f r o k, ok c (.step i f) → c.thread i = some (r, some (.op o k)) →
      (R r).adm i c.shared o (f o))
    (henv : ∀ c e s, ok c (.env e) → I c.shared → M.env e c.shared = some s →
      I s ∧ ∀ j r', Handles c j r' → (R r').rely j c.shared s)
    (hr : M.Reach ok (.idle s₀) c) :
    I c.shared ∧ ∀ i r o k, c.thread i = some (r, some (.op o k)) →
      (R r).wp M.run i (.op o k) (fun _ _ => True) c.shared := by
  let J (c : Config Op Res ε S ι ρ α) : Prop :=
    I c.shared ∧ ∀ i r o k, c.thread i = some (r, some (.op o k)) →
      (R r).wp M.run i (.op o k) (fun _ _ => True) c.shared
  refine hr.invariant (P := J) ⟨h₀, fun i r o k h => by cases h⟩ fun c a hr ⟨hI, hT⟩ ha =>
    exec_cases (P := J) a ⟨hI, hT⟩ ?_ ?_ ?_ ?_
  · rintro i r s rfl hi hs
    obtain ⟨hI', hrely, hwp⟩ := henter c i r s hr ha hI hi hs
    refine ⟨hI', fun j r' o k hj => ?_⟩
    rcases Config.put_thread.1 hj with ⟨rfl, rfl, hp⟩ | ⟨-, hj⟩
    · rw [← Option.some.inj hp]
      exact hwp
    · exact (hT j r' o k hj).rely (hrely j r' ⟨o, k, hj⟩)
  · rintro i f r o k out s rfl hi hs
    have hI₀ : (R r).inv c.shared := by
      rw [hinv r]
      exact hI
    obtain ⟨hI', hG, hk⟩ := hT i r o k hi c.shared ((R r).rely_refl i _) hI₀ (f o)
      (hadm c i f r o k ha hi) out s hs
    rw [hinv r] at hI'
    refine ⟨hI', fun j r' o' k' hj => ?_⟩
    rcases Config.put_thread.1 hj with ⟨rfl, rfl, hp⟩ | ⟨hji, hj⟩
    · rw [← Option.some.inj hp]
      exact hk
    · exact (hT j r' o' k' hj).rely (hstep c i f r o k out s ha hi hI hs hG j r' hji ⟨o', k', hj⟩)
  · rintro i r p - -
    refine ⟨hI, fun j r' o k hj => ?_⟩
    rcases Config.put_thread.1 hj with ⟨-, -, hp⟩ | ⟨-, hj⟩
    · cases hp
    · exact hT j r' o k hj
  · rintro e s rfl hs
    obtain ⟨hI', hrely⟩ := henv c e s ha hI hs
    exact ⟨hI', fun j r o k hj => (hT j r o k hj).rely (hrely j r ⟨o, k, hj⟩)⟩

/-- In a recording, only threads that have entered have executed statements. -/
theorem Reach.entered_of_log
    {ok : Config Op Res ε (History Op Res S ι ρ) ι ρ α → Act Op Res ε ι ρ E → Prop}
    {c : Config Op Res ε (History Op Res S ι ρ) ι ρ α}
    (hr : M.recording.Reach ok (.idle ⟨s₀, [], []⟩) c) :
    ∀ e ∈ c.shared.log, c.thread e.who ≠ none := by
  let J (c : Config Op Res ε (History Op Res S ι ρ) ι ρ α) : Prop :=
    ∀ e ∈ c.shared.log, c.thread e.who ≠ none
  have hput : ∀ (c : Config Op Res ε (History Op Res S ι ρ) ι ρ α) (s : History Op Res S ι ρ)
      (i j : ι) (r : ρ) (p : Option (Prog Op Res ε α)), c.thread j ≠ none →
      (c.put s i r p).thread j ≠ none := by
    intro c s i j r p hj
    by_cases hji : j = i
    · subst hji
      simp [Config.put]
    · simpa [Config.put, hji] using hj
  have h₀ : J (.idle ⟨s₀, [], []⟩) := fun e he => absurd he List.not_mem_nil
  refine hr.invariant h₀ fun c a _ hJ _ => exec_cases (P := J) a hJ ?_ ?_ ?_ ?_
  · rintro i r s - - hs e he
    obtain ⟨t, -, rfl⟩ := recording_enter hs
    exact hput c _ i e.who r _ (hJ e he)
  · rintro i f r o k out s - hi hs e he
    rcases recording_apply hs with ⟨-, rfl⟩ | ⟨a, b, t, -, -, rfl⟩
    · exact hput c _ i e.who r _ (hJ e he)
    · rcases List.mem_cons.1 he with rfl | he
      · exact hput c _ i i r _ (by rw [hi]; rintro ⟨⟩)
      · exact hput c _ i e.who r _ (hJ e he)
  · rintro i r p - - e he
    exact hput c _ i e.who r _ (hJ e he)
  · rintro e s - hs x hx
    obtain ⟨t, -, rfl⟩ := recording_env hs
    exact hJ x hx

end Sys

end Interleave
