/-
  A part of the state that belongs to one routine.

  1. `Upholds` — as `Keeps`, but with a postcondition of both ends, and one rule per combinator.
  2. `Parted` — `part i s` is what thread `i` alone changes of the state `s`.  What its routine upholds
     when it is run on such a part by itself, where every answer is possible, it upholds among others
     (`Reach.upholds_part`).  The part of a dead thread may be cleared away.  `recording_parted` is the
     case of what a thread has said and heard.
-/
import CanvasOS.Lib.Own

namespace Interleave

variable {Op : Type} {Res : Op → Type} {ε S X ι ρ α β E : Type}

/-! ## Both ends -/

/-- From `s`, the routine keeps `J` at every point, and either end satisfies `Q`. -/
def Upholds (run : (o : Op) → Res o → S → Option (Res o × S)) (J : S → Prop) :
    Prog Op Res ε α → (Except ε α → S → Prop) → S → Prop
  | .pure a, Q, s => J s ∧ Q (.ok a) s
  | .throw e, Q, s => J s ∧ Q (.error e) s
  | .op o k, Q, s =>
    J s ∧ (∀ e, Upholds run J (k (.error e)) Q s) ∧
      ∀ a b t, run o a s = some (b, t) →
        Upholds run J (k (.ok b)) Q t ∧ ∀ e, Upholds run J (k (.error e)) Q t

namespace Upholds

variable {run : (o : Op) → Res o → S → Option (Res o × S)} {J : S → Prop} {s : S}
  {p : Prog Op Res ε α} {Q Q' : Except ε α → S → Prop}

/-- The invariant holds where the routine stands. -/
theorem inv (h : Upholds run J p Q s) : J s := by
  cases p with
  | pure a => exact h.1
  | throw e => exact h.1
  | op o k => exact h.1

theorem mono (h : Upholds run J p Q s) (hQ : ∀ out s, J s → Q out s → Q' out s) :
    Upholds run J p Q' s := by
  induction p generalizing s with
  | pure a => exact ⟨h.1, hQ _ s h.1 h.2⟩
  | throw e => exact ⟨h.1, hQ _ s h.1 h.2⟩
  | op o k ih =>
    obtain ⟨hJ, hfail, hexec⟩ := h
    refine ⟨hJ, fun e => ih _ (hfail e), fun a b t hx => ?_⟩
    obtain ⟨hok, hlost⟩ := hexec a b t hx
    exact ⟨ih _ hok, fun e => ih _ (hlost e)⟩

/-- What every statement keeps beside `J` may be used at every point. -/
theorem frame {J' Z : S → Prop} (h : Upholds run J p Q s) (hZ : Z s)
    (hkeep : ∀ o a b s t, run o a s = some (b, t) → Z s → Z t) (hJ : ∀ s, J s → Z s → J' s) :
    Upholds run J' p (fun out s => Q out s ∧ Z s) s := by
  induction p generalizing s with
  | pure a => exact ⟨hJ s h.1 hZ, h.2, hZ⟩
  | throw e => exact ⟨hJ s h.1 hZ, h.2, hZ⟩
  | op o k ih =>
    obtain ⟨hs, hfail, hexec⟩ := h
    refine ⟨hJ s hs hZ, fun e => ih _ (hfail e) hZ, fun a b t hx => ?_⟩
    obtain ⟨hok, hlost⟩ := hexec a b t hx
    have ht : Z t := hkeep o a b s t hx hZ
    exact ⟨ih _ hok ht, fun e => ih _ (hlost e) ht⟩

/-- A stronger invariant is kept as well, and holds at the end. -/
theorem weaken {J' : S → Prop} (h : Upholds run J p Q s) (hJ : ∀ s, J s → J' s) :
    Upholds run J' p (fun out s => Q out s ∧ J s) s := by
  induction p generalizing s with
  | pure a => exact ⟨hJ s h.1, h.2, h.1⟩
  | throw e => exact ⟨hJ s h.1, h.2, h.1⟩
  | op o k ih =>
    obtain ⟨hs, hfail, hexec⟩ := h
    refine ⟨hJ s hs, fun e => ih _ (hfail e), fun a b t hx => ?_⟩
    obtain ⟨hok, hlost⟩ := hexec a b t hx
    exact ⟨ih _ hok, fun e => ih _ (hlost e)⟩

theorem bind {f : α → Prog Op Res ε β} {R : Except ε β → S → Prop} (h : Upholds run J p Q s)
    (hok : ∀ a s, J s → Q (.ok a) s → Upholds run J (f a) R s)
    (herror : ∀ e s, J s → Q (.error e) s → R (.error e) s) : Upholds run J (p.bind f) R s := by
  induction p generalizing s with
  | pure a => exact hok a s h.1 h.2
  | throw e => exact ⟨h.1, herror e s h.1 h.2⟩
  | op o k ih =>
    obtain ⟨hJ, hfail, hexec⟩ := h
    refine ⟨hJ, fun e => ih _ (hfail e), fun a b t hx => ?_⟩
    obtain ⟨hok', hlost⟩ := hexec a b t hx
    exact ⟨ih _ hok', fun e => ih _ (hlost e)⟩

theorem tryCatch {g : ε → Prog Op Res ε α} {R : Except ε α → S → Prop} (h : Upholds run J p Q s)
    (hok : ∀ a s, J s → Q (.ok a) s → R (.ok a) s)
    (herror : ∀ e s, J s → Q (.error e) s → Upholds run J (g e) R s) :
    Upholds run J (p.tryCatch g) R s := by
  induction p generalizing s with
  | pure a => exact ⟨h.1, hok a s h.1 h.2⟩
  | throw e => exact herror e s h.1 h.2
  | op o k ih =>
    obtain ⟨hJ, hfail, hexec⟩ := h
    refine ⟨hJ, fun e => ih _ (hfail e), fun a b t hx => ?_⟩
    obtain ⟨hok', hlost⟩ := hexec a b t hx
    exact ⟨ih _ hok', fun e => ih _ (hlost e)⟩

/-- `try p finally y` -/
theorem thenFinally {y : Prog Op Res ε Unit} {R : Except ε α → S → Prop}
    (h : Upholds run J p Q s)
    (hy : ∀ out s, J s → Q out s → Upholds run J y (fun end' s => match end' with
      | .ok () => R out s
      | .error e => R (.error e) s) s) : Upholds run J (p.thenFinally y) R s := by
  induction p generalizing s with
  | pure a => exact (hy _ s h.1 h.2).bind (fun _ _ hJ hR => ⟨hJ, hR⟩) fun _ _ _ hR => hR
  | throw e => exact (hy _ s h.1 h.2).bind (fun _ _ hJ hR => ⟨hJ, hR⟩) fun _ _ _ hR => hR
  | op o k ih =>
    obtain ⟨hJ, hfail, hexec⟩ := h
    refine ⟨hJ, fun e => ih _ (hfail e), fun a b t hx => ?_⟩
    obtain ⟨hok', hlost⟩ := hexec a b t hx
    exact ⟨ih _ hok', fun e => ih _ (hlost e)⟩

/-- A routine whose statements all keep `J`. -/
theorem of_only {P : Op → Prop} (hp : p.Only P) (hs : J s)
    (hkeep : ∀ o a b s t, P o → run o a s = some (b, t) → J s → J t) :
    Upholds run J p (fun _ _ => True) s := by
  induction p generalizing s with
  | pure a => exact ⟨hs, True.intro⟩
  | throw e => exact ⟨hs, True.intro⟩
  | op o k ih =>
    refine ⟨hs, fun e => ih _ (hp.2 _) hs, fun a b t hx => ?_⟩
    have ht : J t := hkeep o a b s t hp.1 hx hs
    exact ⟨ih _ (hp.2 _) ht, fun e => ih _ (hp.2 _) ht⟩

/-- A statement that any answer follows, and is written down. -/
theorem hear_op {J : Heard Op Res → Prop} {o : Op} {k : Except ε (Res o) → Prog Op Res ε α}
    {Q : Except ε α → Heard Op Res → Prop} {log : Heard Op Res} (hJ : J log)
    (hfailed : ∀ e, Upholds hear J (k (.error e)) Q log)
    (hexec : ∀ a r, (∀ b, r = .ok b → b = a) → Upholds hear J (k r) Q (⟨o, a⟩ :: log)) :
    Upholds hear J (.op o k) Q log := by
  refine ⟨hJ, hfailed, fun a b t hx => ?_⟩
  obtain rfl := hear_eq_some hx
  exact ⟨hexec b _ fun c hc => (Except.ok.inj hc).symm, fun e => hexec b _ nofun⟩

/-- A statement whose exception is propagated, and what follows its answer. -/
theorem hear_bind {J : Heard Op Res → Prop} {o : Op} {f : Res o → Prog Op Res ε β}
    {Q : Except ε β → Heard Op Res → Prop} {log : Heard Op Res} (hJ : J log)
    (hQ : ∀ e log, J log → Q (.error e) log)
    (h : ∀ a, Upholds hear J (f a) Q (⟨o, a⟩ :: log)) :
    Upholds hear J ((Prog.perform o).bind f) Q log := by
  refine ⟨hJ, fun e => ⟨hJ, hQ e log hJ⟩, fun a b t hx => ?_⟩
  obtain rfl := hear_eq_some hx
  have hJ' := (h b).inv
  exact ⟨h b, fun e => ⟨hJ', hQ e _ hJ'⟩⟩

/-- What a routine upholds, each of its runs upholds. -/
theorem sound {q : Prog Op Res ε α} {u : S} (hr : Solo run p s q u) (h : Upholds run J p Q s) :
    Upholds run J q Q u := by
  induction hr with
  | refl p s => exact h
  | ok hx _ ih => exact ih (h.2.2 _ _ _ hx).1
  | failed _ ih => exact ih (h.2.1 _)
  | lost hx _ ih => exact ih ((h.2.2 _ _ _ hx).2 _)

end Upholds

/-- What a routine keeps, with nothing said of its exceptions. -/
theorem Keeps.upholds {run : (o : Op) → Res o → S → Option (Res o × S)} {J : S → Prop} {s : S}
    {p : Prog Op Res ε α} {Q : α → S → Prop} (h : Keeps run J p Q s) :
    Upholds run J p (fun out s => ∀ a, out = .ok a → Q a s) s := by
  induction p generalizing s with
  | pure a =>
    refine ⟨h.1, fun b hb => ?_⟩
    obtain rfl := Except.ok.inj hb
    exact h.2
  | throw e => exact ⟨h, nofun⟩
  | op o k ih =>
    obtain ⟨hJ, hfail, hexec⟩ := h
    refine ⟨hJ, fun e => ih _ (hfail e), fun a b t hx => ?_⟩
    obtain ⟨hok, hlost⟩ := hexec a b t hx
    exact ⟨ih _ hok, fun e => ih _ (hlost e)⟩

/-! ## Parts -/

/-- `part i` is changed by the statements of thread `i` only, as `alone` says. -/
structure Parted [DecidableEq ι] (M : Sys Op Res ε S ι ρ α E)
    (ok : Config Op Res ε S ι ρ α → Act Op Res ε ι ρ E → Prop) (part : ι → S → X)
    (alone : (o : Op) → Res o → X → Option (Res o × X)) : Prop where
  enter : ∀ i r s t j, M.enter i r s = some t → part j t = part j s
  run : ∀ i o a b s t, M.run i o a s = some (b, t) → alone o b (part i s) = some (b, part i t)
  others : ∀ i o a b s t j, M.run i o a s = some (b, t) → j ≠ i → part j t = part j s
  env : ∀ c e t j, ok c (.env e) → M.env e c.shared = some t → (∀ r, c.thread j ≠ some (r, none)) →
    part j t = part j c.shared

/-- What a thread has said and heard is its own part of the state. -/
theorem recording_parted [DecidableEq ι] {M : Sys Op Res ε S ι ρ α E}
    {ok : Config Op Res ε (History Op Res S ι ρ) ι ρ α → Act Op Res ε ι ρ E → Prop} :
    Parted M.recording ok (fun i h => h.heard i) hear where
  enter i r h h' j hs := by
    obtain ⟨s, -, rfl⟩ := Sys.recording_enter hs
    rfl
  run i o a b h h' hs := by
    obtain ⟨⟨b', t⟩, -, heq⟩ := Option.map_eq_some_iff.1 hs
    obtain ⟨rfl, rfl⟩ := Prod.mk.inj heq
    rw [History.heard_self]
    rfl
  others i o a b h h' j hs hji := by
    obtain ⟨⟨b', t⟩, -, heq⟩ := Option.map_eq_some_iff.1 hs
    obtain ⟨rfl, rfl⟩ := Prod.mk.inj heq
    unfold History.heard
    rw [History.own_cons.others j hji]
  env c e h' j _ hs _ := by
    obtain ⟨t, -, rfl⟩ := Sys.recording_env hs
    rfl

namespace Sys

variable [DecidableEq ι] {M : Sys Op Res ε S ι ρ α E}
  {ok : Config Op Res ε S ι ρ α → Act Op Res ε ι ρ E → Prop} {part : ι → S → X}
  {alone : (o : Op) → Res o → X → Option (Res o × X)} {J : ρ → X → Prop}
  {Q : ρ → Except ε α → X → Prop} {c : Config Op Res ε S ι ρ α} {s₀ : S} {x₀ : X}

/-- The part of a thread that is not there is what it was, and a routine upholds of its part what it
    upholds by itself. -/
theorem Reach.parts (hparted : Parted M ok part alone) (h₀ : ∀ i, part i s₀ = x₀)
    (hbody : ∀ r, Upholds alone (J r) (M.body r) (Q r) x₀) (hr : M.Reach ok (.idle s₀) c) :
    (∀ i, c.thread i = none → part i c.shared = x₀) ∧
    ∀ i r p, c.thread i = some (r, some p) → Upholds alone (J r) p (Q r) (part i c.shared) := by
  let K (c : Config Op Res ε S ι ρ α) : Prop :=
    (∀ i, c.thread i = none → part i c.shared = x₀) ∧
    ∀ i r p, c.thread i = some (r, some p) → Upholds alone (J r) p (Q r) (part i c.shared)
  have hinit : K (.idle s₀) := ⟨fun i _ => h₀ i, fun i r p h => nomatch h⟩
  refine hr.invariant hinit fun c a _ ⟨hN, hT⟩ hok => exec_cases (P := K) a ⟨hN, hT⟩ ?_ ?_ ?_ ?_
  · rintro i r s - hi hs
    have hpart : ∀ j, part j s = part j c.shared := fun j => hparted.enter i r c.shared s j hs
    refine ⟨fun j hj => ?_, fun j r' p hj => ?_⟩
    · rw [Config.put_shared, hpart]
      refine hN j ?_
      by_cases hji : j = i
      · rw [hji, hi]
      · simpa [Config.put, hji] using hj
    · rw [Config.put_shared, hpart]
      rcases Config.put_thread.1 hj with ⟨rfl, rfl, hp⟩ | ⟨-, hj⟩
      · obtain rfl := Option.some.inj hp
        rw [hN j hi]
        exact hbody r
      · exact hT j r' p hj
  · rintro i f r o k out s - hi hs
    obtain ⟨-, hfailed, hexec⟩ := hT i r _ hi
    -- what thread `i` has left is justified, and the parts of the others are what they were
    have hstep : Upholds alone (J r) (k out) (Q r) (part i s) ∧
        ∀ j, j ≠ i → part j s = part j c.shared := by
      cases hf : f o with
      | failed e =>
        rw [hf] at hs
        obtain ⟨rfl, rfl⟩ := Prod.mk.inj (Option.some.inj hs)
        exact ⟨hfailed e, fun _ _ => rfl⟩
      | ok a =>
        rw [hf] at hs
        obtain ⟨⟨b, t⟩, hrun, heq⟩ := Option.map_eq_some_iff.1 hs
        obtain ⟨rfl, rfl⟩ := Prod.mk.inj heq
        exact ⟨(hexec b b _ (hparted.run i o a b _ _ hrun)).1,
          fun j hji => hparted.others i o a b _ _ j hrun hji⟩
      | lost a e =>
        rw [hf] at hs
        obtain ⟨⟨b, t⟩, hrun, heq⟩ := Option.map_eq_some_iff.1 hs
        obtain ⟨rfl, rfl⟩ := Prod.mk.inj heq
        exact ⟨(hexec b b _ (hparted.run i o a b _ _ hrun)).2 e,
          fun j hji => hparted.others i o a b _ _ j hrun hji⟩
    refine ⟨fun j hj => ?_, fun j r' p hj => ?_⟩
    · have hji : j ≠ i := by
        rintro rfl
        simp [Config.put] at hj
      rw [Config.put_shared, hstep.2 j hji]
      exact hN j (by simpa [Config.put, hji] using hj)
    · rcases Config.put_thread.1 hj with ⟨rfl, rfl, hp⟩ | ⟨hji, hj⟩
      · obtain rfl := Option.some.inj hp
        exact hstep.1
      · rw [Config.put_shared, hstep.2 j hji]
        exact hT j r' p hj
  · rintro i r p - hi
    refine ⟨fun j hj => hN j ?_, fun j r' p' hj => ?_⟩
    · by_cases hji : j = i
      · subst hji
        simp [Config.put] at hj
      · simpa [Config.put, hji] using hj
    · rcases Config.put_thread.1 hj with ⟨-, -, hp⟩ | ⟨-, hj⟩
      · cases hp
      · exact hT j r' p' hj
  · rintro e s rfl hs
    have hpart : ∀ j, (∀ r, c.thread j ≠ some (r, none)) → part j s = part j c.shared :=
      fun j hj => hparted.env c e s j hok hs hj
    refine ⟨fun j hj => ?_, fun j r p hj => ?_⟩
    · have hnone : c.thread j = none := hj
      rw [hpart j (fun r h => by rw [hnone] at h; cases h)]
      exact hN j hnone
    · have hsome : c.thread j = some (r, some p) := hj
      rw [hpart j (fun r' h => by rw [hsome] at h; cases h)]
      exact hT j r p hsome

/-- Whatever runs next to it, a routine upholds of its part what it upholds by itself. -/
theorem Reach.upholds_part (hparted : Parted M ok part alone) (h₀ : ∀ i, part i s₀ = x₀)
    (hbody : ∀ r, Upholds alone (J r) (M.body r) (Q r) x₀) (hr : M.Reach ok (.idle s₀) c) :
    ∀ i r p, c.thread i = some (r, some p) → Upholds alone (J r) p (Q r) (part i c.shared) :=
  (hr.parts hparted h₀ hbody).2

/-- What follows of `J` and stays when the part of a dead thread is cleared away. -/
theorem Reach.upheld {Z : ρ → X → Prop} (hparted : Parted M ok part alone)
    (h₀ : ∀ i, part i s₀ = x₀) (hbody : ∀ r, Upholds alone (J r) (M.body r) (Q r) x₀)
    (hJ : ∀ r x, J r x → Z r x)
    (hclear : ∀ c e t i r, ok c (.env e) → M.env e c.shared = some t →
      c.thread i = some (r, none) → Z r (part i c.shared) → Z r (part i t))
    (hr : M.Reach ok (.idle s₀) c) :
    ∀ i r p, c.thread i = some (r, p) → Z r (part i c.shared) := by
  let K (c : Config Op Res ε S ι ρ α) : Prop :=
    ∀ i r, c.thread i = some (r, none) → Z r (part i c.shared)
  have hinit : K (.idle s₀) := fun i r h => nomatch h
  have hdead : K c := by
    refine hr.invariant hinit fun c a hr hK hok => exec_cases (P := K) a hK ?_ ?_ ?_ ?_
    · rintro i r s - - hs j r' hj
      rcases Config.put_thread.1 hj with ⟨-, -, hp⟩ | ⟨-, hj⟩
      · cases hp
      · rw [Config.put_shared, hparted.enter i r c.shared s j hs]
        exact hK j r' hj
    · rintro i f r o k out s - - hs j r' hj
      rcases Config.put_thread.1 hj with ⟨-, -, hp⟩ | ⟨hji, hj⟩
      · cases hp
      · have hpart : part j s = part j c.shared := by
          cases hf : f o with
          | failed e =>
            rw [hf] at hs
            rw [(Prod.mk.inj (Option.some.inj hs)).2]
          | ok a | lost a e =>
            rw [hf] at hs
            obtain ⟨⟨b, t⟩, hrun, heq⟩ := Option.map_eq_some_iff.1 hs
            obtain ⟨-, rfl⟩ := Prod.mk.inj heq
            exact hparted.others i o a b _ _ j hrun hji
        rw [Config.put_shared, hpart]
        exact hK j r' hj
    · rintro i r p - hi j r' hj
      rcases Config.put_thread.1 hj with ⟨rfl, rfl, -⟩ | ⟨-, hj⟩
      · exact hJ r _ (hr.upholds_part hparted h₀ hbody j r p hi).inv
      · exact hK j r' hj
    · rintro e s rfl hs j r hj
      exact hclear c e s j r hok hs hj (hK j r hj)
  intro i r p hi
  cases p with
  | some p => exact hJ r _ (hr.upholds_part hparted h₀ hbody i r p hi).inv
  | none => exact hdead i r hi

/-- What all routines uphold of what they say and hear holds of what any thread has said and heard,
    whether it runs, has ended, has died or has not come yet. -/
theorem Reach.upholds_heard {S : Type} {M : Sys Op Res ε S ι ρ α E} {s₀ : S}
    {ok : Config Op Res ε (History Op Res S ι ρ) ι ρ α → Act Op Res ε ι ρ E → Prop}
    {c : Config Op Res ε (History Op Res S ι ρ) ι ρ α} {J : Heard Op Res → Prop} (h₀ : J [])
    (hbody : ∀ r, Upholds hear J (M.body r) (fun _ _ => True) [])
    (hr : M.recording.Reach ok (.idle ⟨s₀, [], []⟩) c) (i : ι) : J (c.shared.heard i) := by
  cases hi : c.thread i with
  | none =>
    have hnil : c.shared.heard i = [] :=
      (hr.parts recording_parted (fun _ => rfl) hbody).1 i hi
    rw [hnil]
    exact h₀
  | some entry =>
    obtain ⟨r, p⟩ := entry
    exact hr.upheld (Z := fun _ => J) recording_parted (fun _ => rfl) hbody (fun _ _ h => h)
      (fun c e t i r _ hs hi hJ => by
        obtain ⟨t, -, rfl⟩ := recording_env hs
        exact hJ) i r p hi

end Sys

end Interleave
