/-
  What a routine has said and heard, by itself and among others.

  1. **Logs** (`Heard`, `hear`) — the statements one routine executed with their answers, newest
     first.  `hear` is the state machine that accepts every answer, so that `Keeps hear J p Q []`
     says of `p` alone, whatever it is answered, that its log satisfies `J` at every point.
  2. **Among others** (`Sys.Reach.own_keeps`) — in a recorded system every thread's own log
     satisfies what its routine keeps, whatever runs next to it.
  3. **Expected answers** (`listen`, `Sys.Reach.sound_own`) — where the state a routine meets
     restricts the answers it can get, its log satisfies what the routine keeps under such answers,
     and an invariant of the whole system may use this at every statement.
-/
import CanvasOS.Lib.RelyGuarantee
import CanvasOS.Lib.Solo

namespace Interleave

variable {Op : Type} {Res : Op → Type} {ε S ι ρ α β E : Type}

/-! ## Logs -/

/-- Executed statements and their answers, newest first. -/
abbrev Heard (Op : Type) (Res : Op → Type) := List ((o : Op) × Res o)

/-- Every answer is possible; it is written down. -/
def hear (o : Op) (a : Res o) (log : Heard Op Res) : Option (Res o × Heard Op Res) :=
  some (a, ⟨o, a⟩ :: log)

theorem hear_eq_some {o : Op} {a b : Res o} {log log' : Heard Op Res}
    (h : hear o a log = some (b, log')) : log' = ⟨o, b⟩ :: log := by
  obtain ⟨rfl, rfl⟩ := Prod.mk.inj (Option.some.inj h)
  rfl

/-- A statement whose exception is propagated, and what follows its answer. -/
theorem Keeps.hear_bind {J : Heard Op Res → Prop} {o : Op} {f : Res o → Prog Op Res ε β}
    {R : β → Heard Op Res → Prop} {log : Heard Op Res} (hJ : J log)
    (h : ∀ a, Keeps hear J (f a) R (⟨o, a⟩ :: log)) :
    Keeps hear J ((Prog.perform o).bind f) R log :=
  perform_bind hJ fun a b t ht => by
    rw [hear_eq_some ht]
    exact h b

/-- A routine all of whose statements keep `J` keeps `J`. -/
theorem Keeps.of_only {J : Heard Op Res → Prop} {P : Op → Prop} {p : Prog Op Res ε α}
    {log : Heard Op Res} (hp : p.Only P) (hJ : J log)
    (hP : ∀ o a log, P o → J log → J (⟨o, a⟩ :: log)) :
    Keeps hear J p (fun _ log => J log) log :=
  Keeps.only hp hJ hJ fun o a b log log' ho hx hJ _ => by
    rw [hear_eq_some hx]
    exact ⟨hP o b log ho hJ, hP o b log ho hJ⟩

/-! ## Among others -/

namespace History

/-- What thread `i` has said and heard. -/
def heard [DecidableEq ι] (h : History Op Res S ι ρ) (i : ι) : Heard Op Res :=
  (h.own i).map fun e => ⟨e.op, e.ans⟩

theorem mem_heard [DecidableEq ι] {h : History Op Res S ι ρ} {i : ι} {o : Op} {a : Res o} :
    (⟨o, a⟩ : (o : Op) × Res o) ∈ h.heard i ↔ ∃ pre, ⟨i, o, a, pre⟩ ∈ h.log := by
  simp only [heard, List.mem_map, mem_own]
  constructor
  · rintro ⟨⟨who, o', a', pre⟩, ⟨he, rfl⟩, heq⟩
    obtain ⟨rfl, h⟩ := Sigma.mk.inj heq
    obtain rfl := eq_of_heq h
    exact ⟨pre, he⟩
  · rintro ⟨pre, he⟩
    exact ⟨_, ⟨he, rfl⟩, rfl⟩

/-- A statement of thread `i` joins what it has said and heard. -/
theorem heard_self [DecidableEq ι] {h : History Op Res S ι ρ} {i : ι} {o : Op} {a : Res o}
    {s t : S} {arrived : List (ι × ρ)} :
    (⟨t, arrived, ⟨i, o, a, s⟩ :: h.log⟩ : History Op Res S ι ρ).heard i =
      ⟨o, a⟩ :: h.heard i := by
  unfold heard
  rw [own_self, List.map_cons]

/-- What a thread has said and heard after a statement of thread `i`. -/
theorem heard_after [DecidableEq ι] {h : History Op Res S ι ρ} {i : ι} {o : Op} {a : Res o} {s : S}
    (j : ι) : (h.after i o a s).heard j = if j = i then ⟨o, a⟩ :: h.heard i else h.heard j := by
  split
  · next hji =>
    subst hji
    exact heard_self
  · next hji =>
    unfold heard after
    rw [own_cons.others j hji]

end History

namespace Sys

variable [DecidableEq ι] {body : ρ → Prog Op Res ε α}
  {run : ι → (o : Op) → Res o → S → Option (Res o × S)} {env : E → S → Option S}
  {ok : Config Op Res ε (History Op Res S ι ρ) ι ρ α → Act Op Res ε ι ρ E → Prop} {s₀ : S}
  {c : Config Op Res ε (History Op Res S ι ρ) ι ρ α}

/-- Whatever runs next to it, what a thread has said and heard is what its routine keeps. -/
theorem Reach.own_keeps {J : ρ → Heard Op Res → Prop}
    (hbody : ∀ r, Keeps hear (J r) (body r) (fun _ _ => True) [])
    (hr : (recorded body run env).Reach ok (.idle ⟨s₀, [], []⟩) c) :
    ∀ i r p, c.thread i = some (r, p) → J r (c.shared.heard i) := by
  let K (c : Config Op Res ε (History Op Res S ι ρ) ι ρ α) : Prop :=
    (∀ i, c.thread i = none → c.shared.heard i = []) ∧
    ∀ i r p, c.thread i = some (r, p) → J r (c.shared.heard i) ∧
      ∀ q, p = some q → Keeps hear (J r) q (fun _ _ => True) (c.shared.heard i)
  have h₀ : K (.idle ⟨s₀, [], []⟩) := ⟨fun _ _ => rfl, by rintro i r p ⟨⟩⟩
  suffices hK : K c from fun i r p h => (hK.2 i r p h).1
  refine hr.invariant h₀ fun c a _ hK _ => exec_cases (P := K) a hK ?_ ?_ ?_ ?_
  · intro i r s _ hi hs
    obtain ⟨-, rfl⟩ := recorded_enter hs
    refine ⟨fun j hj => hK.1 j ?_, fun j r' p hj => ?_⟩
    · by_cases hji : j = i
      · rw [hji, hi]
      · simpa [Config.put, hji] using hj
    · rcases Config.put_thread.1 hj with ⟨rfl, rfl, rfl⟩ | ⟨-, hj⟩
      · have hnil : c.shared.heard j = [] := hK.1 j hi
        have hkeeps : Keeps hear (J r) (body r) (fun _ _ => True) (c.shared.heard j) := by
          rw [hnil]
          exact hbody r
        refine ⟨hkeeps.inv, fun q hq => ?_⟩
        obtain rfl := Option.some.inj hq
        exact hkeeps
      · exact hK.2 j r' p hj
  · intro i f r o k out s _ hi hs
    have hnone : ∀ j, j ≠ i → (c.put s i r (some (k out))).thread j = c.thread j := by
      intro j hji
      simp [Config.put, hji]
    obtain ⟨-, hkeeps⟩ := hK.2 i r _ hi
    obtain ⟨-, hfailed, hexec⟩ := hkeeps _ rfl
    -- the others' logs are what they were
    have hothers : ∀ j, j ≠ i → s.heard j = c.shared.heard j := by
      intro j hji
      rcases recorded_apply hs with ⟨-, rfl⟩ | ⟨a, b, t, -, -, rfl⟩
      · rfl
      · unfold History.heard
        rw [History.own_cons.others j hji]
    have hown : Keeps hear (J r) (k out) (fun _ _ => True) (s.heard i) := by
      cases hf : f o with
      | failed e =>
        rw [hf] at hs
        obtain ⟨rfl, rfl⟩ := Prod.mk.inj (Option.some.inj hs)
        exact hfailed e
      | ok a =>
        rw [hf] at hs
        obtain ⟨⟨b, s'⟩, hrun, heq⟩ := Option.map_eq_some_iff.1 hs
        obtain ⟨rfl, rfl⟩ := Prod.mk.inj heq
        obtain ⟨t, -, rfl⟩ := recorded_run hrun
        rw [History.heard_self]
        exact (hexec b b _ rfl).1
      | lost a e =>
        rw [hf] at hs
        obtain ⟨⟨b, s'⟩, hrun, heq⟩ := Option.map_eq_some_iff.1 hs
        obtain ⟨rfl, rfl⟩ := Prod.mk.inj heq
        obtain ⟨t, -, rfl⟩ := recorded_run hrun
        rw [History.heard_self]
        exact (hexec b b _ rfl).2 e
    refine ⟨fun j hj => ?_, fun j r' p hj => ?_⟩
    · by_cases hji : j = i
      · subst hji
        simp [Config.put] at hj
      · rw [Config.put_shared, hothers j hji]
        exact hK.1 j (by rw [← hnone j hji]; exact hj)
    · rcases Config.put_thread.1 hj with ⟨rfl, rfl, rfl⟩ | ⟨hji, hj⟩
      · refine ⟨hown.inv, fun q hq => ?_⟩
        obtain rfl := Option.some.inj hq
        exact hown
      · rw [Config.put_shared, hothers j hji]
        exact hK.2 j r' p hj
  · intro i r p _ hi
    refine ⟨fun j hj => hK.1 j ?_, fun j r' p' hj => ?_⟩
    · by_cases hji : j = i
      · subst hji
        simp [Config.put] at hj
      · simpa [Config.put, hji] using hj
    · rcases Config.put_thread.1 hj with ⟨rfl, rfl, rfl⟩ | ⟨-, hj⟩
      · exact ⟨(hK.2 j r _ hi).1, by rintro _ ⟨⟩⟩
      · exact hK.2 j r' p' hj
  · intro e s _ hs
    obtain ⟨t, -, rfl⟩ := recorded_env hs
    exact hK

end Sys

/-! ## Expected answers -/

section Listen

variable {A : Heard Op Res → (o : Op) × Res o → Prop} {J : Heard Op Res → Prop}
  {log log' : Heard Op Res}

open Classical in
/-- After a log, only the answers in `A` are possible; they are written down. -/
noncomputable def listen (A : Heard Op Res → (o : Op) × Res o → Prop) (o : Op) (a : Res o)
    (log : Heard Op Res) : Option (Res o × Heard Op Res) :=
  if A log ⟨o, a⟩ then some (a, ⟨o, a⟩ :: log) else none

theorem listen_eq_some {o : Op} {a b : Res o} (h : listen A o a log = some (b, log')) :
    A log ⟨o, b⟩ ∧ log' = ⟨o, b⟩ :: log := by
  unfold listen at h
  split at h
  · obtain ⟨rfl, rfl⟩ := Prod.mk.inj (Option.some.inj h)
    exact ⟨‹_›, rfl⟩
  · cases h

theorem listen_of_expected {o : Op} {a : Res o} (h : A log ⟨o, a⟩) :
    listen A o a log = some (a, ⟨o, a⟩ :: log) := by
  unfold listen
  rw [if_pos h]

/-- A statement whose exception is propagated, and what follows its answer. -/
theorem Keeps.listen_bind {o : Op} {f : Res o → Prog Op Res ε β} {R : β → Heard Op Res → Prop}
    (hJ : J log)
    (h : ∀ a, A log ⟨o, a⟩ → Keeps (listen A) J (f a) R (⟨o, a⟩ :: log)) :
    Keeps (listen A) J ((Prog.perform o).bind f) R log :=
  perform_bind hJ fun a b t ht => by
    obtain ⟨hb, rfl⟩ := listen_eq_some ht
    exact h b hb

/-- What every statement of a routine keeps beside `J` still holds at its end. -/
theorem Keeps.listen_only {P : Op → Prop} {Z : Heard Op Res → Prop} {p : Prog Op Res ε α}
    (hp : p.Only P) (hJ : J log) (hZ : Z log)
    (hP : ∀ o a log, P o → A log ⟨o, a⟩ → J log → Z log → J (⟨o, a⟩ :: log) ∧ Z (⟨o, a⟩ :: log)) :
    Keeps (listen A) J p (fun _ log => Z log) log :=
  Keeps.only hp hJ hZ fun o a b log log' ho hx hJ hZ => by
    obtain ⟨hb, rfl⟩ := listen_eq_some hx
    exact hP o b log ho hb hJ hZ

end Listen

namespace Sys

variable [DecidableEq ι] {body : ρ → Prog Op Res ε α}
  {run : ι → (o : Op) → Res o → S → Option (Res o × S)} {env : E → S → Option S}
  {ok : Config Op Res ε (History Op Res S ι ρ) ι ρ α → Act Op Res ε ι ρ E → Prop} {s₀ : S}
  {c : Config Op Res ε (History Op Res S ι ρ) ι ρ α}

/-- An invariant `K` of a recorded system in which only answers in `A` occur.  Each executed
    statement may be judged by what the routine of its thread keeps. -/
theorem Reach.sound_own {A : Heard Op Res → (o : Op) × Res o → Prop}
    {J : ρ → Heard Op Res → Prop}
    {K : Config Op Res ε (History Op Res S ι ρ) ι ρ α → Prop}
    (hbody : ∀ r, Keeps (listen A) (J r) (body r) (fun _ _ => True) [])
    (h₀ : K (.idle ⟨s₀, [], []⟩))
    (henter : ∀ c i r, ok c (.enter i r) → K c → c.thread i = none → c.shared.heard i = [] →
      i ∉ c.shared.arrived.map Prod.fst →
      K (c.put { c.shared with arrived := (i, r) :: c.shared.arrived } i r (some (body r))))
    (hfail : ∀ c i r o k e, K c → c.thread i = some (r, some (.op o k)) →
      K (c.put c.shared i r (some (k (.error e)))))
    (hcrash : ∀ c i r p, K c → c.thread i = some (r, some p) → K (c.put c.shared i r none))
    (hanswer : ∀ c i r o k a b t, K c → c.thread i = some (r, some (.op o k)) →
      run i o a c.shared.cur = some (b, t) → A (c.shared.heard i) ⟨o, b⟩)
    (hstep : ∀ c i f r o k out a b t, ok c (.step i f) → (f o).executes = true → K c →
      c.thread i = some (r, some (.op o k)) → run i o a c.shared.cur = some (b, t) →
      J r (⟨o, b⟩ :: c.shared.heard i) →
      K (c.put (c.shared.after i o b t) i r (some (k out))))
    (henv : ∀ c e t, ok c (.env e) → K c → env e c.shared.cur = some t →
      K ⟨{ c.shared with cur := t }, c.thread⟩)
    (hr : (recorded body run env).Reach ok (.idle ⟨s₀, [], []⟩) c) : K c := by
  -- next to `K`: every thread is where its routine keeps `J`
  let T (c : Config Op Res ε (History Op Res S ι ρ) ι ρ α) : Prop :=
    K c ∧ (∀ i, c.thread i = none → c.shared.heard i = []) ∧
    ∀ i r p, c.thread i = some (r, some p) →
      Keeps (listen A) (J r) p (fun _ _ => True) (c.shared.heard i)
  have h₀' : T (.idle ⟨s₀, [], []⟩) := ⟨h₀, fun _ _ => rfl, by rintro i r p ⟨⟩⟩
  suffices hT : T c from hT.1
  -- a thread that is not there has said nothing, whatever thread `i` does
  have hquiet : ∀ (c : Config Op Res ε (History Op Res S ι ρ) ι ρ α) (s : History Op Res S ι ρ)
      (i : ι) (r : ρ) (q : Option (Prog Op Res ε α)),
      (∀ j, c.thread j = none → c.shared.heard j = []) →
      (∀ j, j ≠ i → s.heard j = c.shared.heard j) →
      ∀ j, (c.put s i r q).thread j = none → (c.put s i r q).shared.heard j = [] := by
    intro c s i r q hN hs j hj
    by_cases hji : j = i
    · subst hji
      simp [Config.put] at hj
    · rw [Config.put_shared, hs j hji]
      exact hN j (by simpa [Config.put, hji] using hj)
  refine hr.invariant h₀' fun c a hr hT hok => ?_
  obtain ⟨hK, hN, hT⟩ := hT
  refine exec_cases (P := T) a ⟨hK, hN, hT⟩ ?_ ?_ ?_ ?_
  · rintro i r s rfl hi hs
    obtain ⟨hfresh, rfl⟩ := recorded_enter hs
    refine ⟨henter c i r hok hK hi (hN i hi) hfresh, hquiet c _ i r _ hN fun _ _ => rfl,
      fun j r' p hj => ?_⟩
    rcases Config.put_thread.1 hj with ⟨rfl, rfl, hp⟩ | ⟨-, hj⟩
    · obtain rfl := Option.some.inj hp
      have hnil : c.shared.heard j = [] := hN j hi
      show Keeps _ _ _ _ (c.shared.heard j)
      rw [hnil]
      exact hbody r
    · exact hT j r' p hj
  · rintro i f r o k out s rfl hi hs
    obtain ⟨hJ, hfailed, hexec⟩ := hT i r _ hi
    rcases recorded_reply hs with ⟨hf, rfl⟩ | ⟨a, b, t, hf, hx, rfl⟩
    · obtain ⟨e, rfl⟩ : ∃ e, out = .error e := by
        cases hf' : f o with
        | failed e =>
          rw [hf'] at hs
          exact ⟨e, (Prod.mk.inj (Option.some.inj hs)).1.symm⟩
        | ok a | lost a e =>
          rw [hf'] at hf
          cases hf
      refine ⟨hfail c i r o k e hK hi, hquiet c _ i r _ hN fun _ _ => rfl, fun j r' p hj => ?_⟩
      rcases Config.put_thread.1 hj with ⟨rfl, rfl, hp⟩ | ⟨-, hj⟩
      · obtain rfl := Option.some.inj hp
        exact hfailed e
      · exact hT j r' p hj
    · have hA : A (c.shared.heard i) ⟨o, b⟩ := hanswer c i r o k a b t hK hi hx
      have hkeeps := hexec b b _ (listen_of_expected hA)
      have hothers : ∀ j, j ≠ i → (c.shared.after i o b t).heard j = c.shared.heard j := by
        intro j hji
        unfold History.heard
        rw [History.after, History.own_cons.others j hji]
      have hown : (c.shared.after i o b t).heard i = ⟨o, b⟩ :: c.shared.heard i :=
        History.heard_self
      have hJ' : J r (⟨o, b⟩ :: c.shared.heard i) := hkeeps.1.inv
      have hexecutes : (f o).executes = true := by rcases hf with hf | ⟨e, hf⟩ <;> rw [hf] <;> rfl
      refine ⟨hstep c i f r o k out a b t hok hexecutes hK hi hx hJ', hquiet c _ i r _ hN hothers,
        fun j r' p hj => ?_⟩
      rcases Config.put_thread.1 hj with ⟨rfl, rfl, hp⟩ | ⟨hji, hj⟩
      · obtain rfl := Option.some.inj hp
        show Keeps _ _ _ _ ((c.shared.after j o b t).heard j)
        rw [hown]
        cases out with
        | ok b' =>
          -- the answer that arrives is the one that was written down
          have hb' : b' = b := by
            rcases hf with hf | ⟨e, hf⟩
            · rw [hf] at hs
              obtain ⟨⟨b'', s'⟩, hx', heq⟩ := Option.map_eq_some_iff.1 hs
              obtain ⟨heq, hlog⟩ := Prod.mk.inj heq
              obtain ⟨t', -, hlog'⟩ := recorded_run hx'
              obtain rfl := Except.ok.inj heq
              rw [hlog'] at hlog
              exact eq_of_heq (Event.mk.inj (List.cons.inj (History.mk.inj hlog).2.2).1).2.2.1
            · rw [hf] at hs
              obtain ⟨x, -, heq⟩ := Option.map_eq_some_iff.1 hs
              cases (Prod.mk.inj heq).1
          rw [hb']
          exact hkeeps.1
        | error e => exact hkeeps.2 e
      · show Keeps _ _ _ _ ((c.shared.after i o b t).heard j)
        rw [hothers j hji]
        exact hT j r' p hj
  · rintro i r p - hi
    refine ⟨hcrash c i r p hK hi, hquiet c _ i r _ hN fun _ _ => rfl, fun j r' p' hj => ?_⟩
    rcases Config.put_thread.1 hj with ⟨-, -, hp⟩ | ⟨-, hj⟩
    · cases hp
    · exact hT j r' p' hj
  · rintro e s rfl hs
    obtain ⟨t, ht, rfl⟩ := recorded_env hs
    exact ⟨henv c e t hok hK ht, hN, hT⟩

end Sys

end Interleave
