/-
  The two caches side by side: what `LocalCache` gives its callers, `PostgresCache` could give.

  1. `Follows es` — the runs of `Gateway.Callers` that a schedule `es` of the local cache allows:
     the calls that arrive are those of `es`, each computation ends as it did there, only cancelled
     calls are cancelled, and nothing else goes wrong.
  2. `Sound es` — no event of `es` wakes a waiter with a failure that is not its own, and no owner
     fails on a future that a waiter's cancellation has cancelled.
  3. Under `Sound`, every event is matched by statements of the one call it is about (`Sim`).  The
     local owner stands at `compute` with the lock in its hands, a waiter at its first statement.
  4. Conversely, in a run that follows `es` an exception is the call's own (`Blamed`), and a
     schedule that is not sound gives some call another's (`not_sound`).
-/
import CanvasOS.Gateway.Callers
import CanvasOS.Gateway.LocalCache
import CanvasOS.Lib.RelyGuarantee

namespace CanvasOS.Gateway

open Interleave

variable {R : Type} {taskRef : String} {es : List (LocalEvent R)} {i j : Nat}

/-! ## Schedules -/

/-- An act of a run that does what the schedule did. -/
def Follows (es : List (LocalEvent R)) (c : CallersConfig R) : CallersAct R → Prop
  | .enter i _ => ∃ k, (LocalCache.run es).call i = some k
  | .step i f =>
    match c.next i with
    | some .compute =>
      (∃ r, f .compute = .ok r ∧ ComputedIn i (.ok r) es) ∨
        ∃ e, f .compute = .failed e ∧ ComputedIn i (.error e) es
    | some o => (f o).answers = true ∨ f o = .failed .cancelled ∧ CancelledIn i es
    | none => True
  | .crash _ => False
  | .env _ => False

/-- The event does not hand a failure on: a waiter that was not cancelled wakes up to a response,
    and an owner that fails finds its future as it made it. -/
def Fine (s : LocalCache R) : LocalEvent R → Prop
  | .resume i => ∀ f e, s.call i = some (.waiting f false) → (s.future f).await ≠ some (.error e)
  | .computed i (.error e) => ∀ f, s.call i = some (.computing f) → (s.future f).raised e = e
  | _ => True

/-- Every event of the schedule is fine in the state it meets. -/
def Sound : List (LocalEvent R) → Prop
  | [] => True
  | e :: es => Fine (LocalCache.run es) e ∧ Sound es

/-! ## Exceptions -/

/-- The exception is the call's own. -/
def Blames (es : List (LocalEvent R)) (i : Nat) (e : CacheExc) : Prop :=
  e = .cancelled ∧ CancelledIn i es ∨ ComputedIn i (.error e) es

/-- The exception that the call is on its way out with. -/
def Point.failure : Point R → Option CacheExc
  | .releaseFailed e | .commitFailed e | .rollback e => some e
  | .putBack (.error e) | .done (.error e) => some e
  | _ => none

/-- A call goes on with the exception it had, or with that of its statement. -/
theorem code_next {pt : Point R} {o : CacheOp R} {k : Except CacheExc o.Res → Cache R (R × Bool)}
    (h : pt.code = .op o k) (out : Except CacheExc o.Res) :
    ∃ pt' : Point R, k out = pt'.code ∧
      ∀ e, pt'.failure = some e → pt.failure = some e ∨ out = .error e := by
  cases pt with
  | done x =>
    cases x with
    | ok a =>
      rw [done_ok] at h
      cases h
    | error e =>
      rw [done_error] at h
      cases h
  | select =>
    rw [Point.code] at h
    cases h
    cases out with
    | ok row =>
      cases row with
      | some r => exact ⟨.releaseHit r, rfl, by rintro _ ⟨⟩⟩
      | none => exact ⟨.commitMiss, rfl, by rintro _ ⟨⟩⟩
    | error e => exact ⟨.rollback e, rfl, fun e' h => .inr (congrArg _ (Option.some.inj h))⟩
  | compute =>
    rw [Point.code] at h
    cases h
    cases out with
    | ok r => exact ⟨.insert r, rfl, by rintro _ ⟨⟩⟩
    | error e =>
      exact ⟨.releaseFailed e, rfl, fun e' h => .inr (congrArg _ (Option.some.inj h))⟩
  | putBack x =>
    rw [Point.code] at h
    cases h
    cases out with
    | ok b =>
      refine ⟨.done x, rfl, fun e h => .inl ?_⟩
      cases x with
      | ok a => cases h
      | error e' => exact h
    | error e => exact ⟨.done (.error e), rfl, fun e' h => .inr (congrArg _ (Option.some.inj h))⟩
  | _ =>
    rw [Point.code] at h
    cases h
    cases out with
    | ok b => exact ⟨_, rfl, fun e h => .inl h⟩
    | error e => exact ⟨_, rfl, fun e' h => .inr (congrArg _ (Option.some.inj h))⟩

/-- An allowed statement raises only what the schedule holds against its call. -/
theorem Follows.blames {c : CallersConfig R} {f : ∀ o : CacheOp R, Reply CacheExc o.Res}
    {o : CacheOp R} {k : Except CacheExc o.Res → Cache R (R × Bool)} {s : Postgres R}
    {out : Except CacheExc o.Res} (hok : Follows es c (.step i f))
    (hi : c.thread i = some ((), some (.op o k)))
    (hs : (f o).apply (execCache i o) c.shared = some (out, s)) {e : CacheExc}
    (he : out = .error e) : Blames es i e := by
  have hnext : c.next i = some o := by rw [Config.next, hi]
  -- what a reply makes its caller see
  have hseen : ∀ e', f o = .failed e' → e' = e := by
    intro e' hf
    rw [hf, he] at hs
    exact Except.error.inj (Prod.mk.inj (Option.some.inj hs)).1
  have hanswers : (f o).answers ≠ true := by
    intro hans
    cases hf : f o with
    | ok a =>
      rw [hf, he] at hs
      obtain ⟨x, hx, heq⟩ := Option.map_eq_some_iff.1 hs
      cases (Prod.mk.inj heq).1
    | failed e' | lost a e' =>
      rw [hf] at hans
      cases hans
  simp only [Follows, hnext] at hok
  cases o with
  | compute =>
    rcases hok with ⟨r, hf, -⟩ | ⟨e', hf, hin⟩
    · rw [hf] at hanswers
      exact absurd rfl hanswers
    · rw [← hseen e' hf]
      exact .inr hin
  | _ =>
    rcases hok with hans | ⟨hf, hin⟩
    · exact absurd hans hanswers
    · exact .inl ⟨(hseen _ hf).symm, hin⟩

/-- In a run that follows the schedule, an exception is the call's own. -/
theorem blamed_of_reach (h : taskRef ≠ "") {c : CallersConfig R}
    (hr : (callers R taskRef).Reach (Follows es) (.idle .empty) c) :
    ∀ i p, c.thread i = some ((), some p) →
      ∃ pt : Point R, p = pt.code ∧ ∀ e, pt.failure = some e → Blames es i e := by
  let J (c : CallersConfig R) : Prop := ∀ i p, c.thread i = some ((), some p) →
    ∃ pt : Point R, p = pt.code ∧ ∀ e, pt.failure = some e → Blames es i e
  refine hr.invariant (P := J) (fun i p h => by cases h) fun c a _ hJ hok => ?_
  -- one call moves to a point that is all right
  have hput : ∀ (s : Postgres R) (i : Nat) (pt : Point R),
      (∀ e, pt.failure = some e → Blames es i e) → J (c.put s i () (some pt.code)) := by
    intro s i pt hpt j q hj
    rcases Config.put_thread.1 hj with ⟨rfl, -, hq⟩ | ⟨-, hj⟩
    · exact ⟨pt, (Option.some.inj hq).symm, hpt⟩
    · exact hJ j q hj
  refine Sys.exec_cases (P := J) a hJ ?_ ?_ ?_ ?_
  · rintro i ⟨⟩ s rfl - -
    have hbody : (callers R taskRef).body () = Point.borrow.code := getOrCompute_eq h
    rw [hbody]
    exact hput s i .borrow nofun
  · rintro i f ⟨⟩ o k out s rfl hi hs
    obtain ⟨pt, hcode, hpt⟩ := hJ i _ hi
    obtain ⟨pt', hk, hfail⟩ := code_next hcode.symm out
    rw [hk]
    refine hput s i pt' fun e he => ?_
    rcases hfail e he with hold | hnew
    · exact hpt e hold
    · exact hok.blames hi hs hnew
  · rintro i r p rfl -
    exact hok.elim
  · rintro e s rfl -
    exact hok.elim

/-- A call ends with an exception of its own. -/
theorem blamed_result (h : taskRef ≠ "") {c : CallersConfig R}
    (hr : (callers R taskRef).Reach (Follows es) (.idle .empty) c) {e : CacheExc}
    (hi : c.result i = some ((), .error e)) : Blames es i e := by
  obtain ⟨pt, hcode, hpt⟩ := blamed_of_reach h hr i _ (Config.thread_of_result_error hi)
  cases pt with
  | done out =>
    cases out with
    | ok a =>
      rw [done_ok] at hcode
      cases hcode
    | error e' =>
      rw [done_error] at hcode
      obtain rfl := Prog.throw.inj hcode
      exact hpt e rfl
  | _ =>
    rw [Point.code] at hcode
    cases hcode

/-! ## Schedules that are not sound -/

/-- The call an event is about. -/
def LocalEvent.about : LocalEvent R → Nat
  | .arrive i | .computed i _ | .resume i | .cancel i => i

theorem LocalCache.step_other (s : LocalCache R) {e : LocalEvent R} (h : e.about ≠ j) :
    (s.step e).call j = s.call j := by
  cases e with
  | arrive i =>
    have hji : j ≠ i := Ne.symm h
    simp only [LocalCache.step]
    split
    · unfold LocalCache.lookUp
      repeat' split
      all_goals simp [LocalCache.setCall, Function.update_of_ne hji]
    · rfl
  | computed i out =>
    have hji : j ≠ i := Ne.symm h
    simp only [LocalCache.step]
    split
    · simp [LocalCache.succeed, Function.update_of_ne hji]
    · simp [LocalCache.fail, Function.update_of_ne hji]
    · rfl
  | resume i =>
    have hji : j ≠ i := Ne.symm h
    simp only [LocalCache.step]
    split
    · unfold LocalCache.ride
      repeat' split
      all_goals simp [LocalCache.setCall, Function.update_of_ne hji]
    · rfl
  | cancel i =>
    have hji : j ≠ i := Ne.symm h
    simp only [LocalCache.step]
    split
    · simp [LocalCache.cancelWaiter, Function.update_of_ne hji]
    · rfl

/-- What has happened to a call that is on its way: nothing yet, but for a waiter's cancellation. -/
def Call.Told (es : List (LocalEvent R)) (i : Nat) : Option (Call R) → Prop
  | some (.returned _) => True
  | some (.waiting _ true) => CancelledIn i es ∧ ∀ out, ¬ ComputedIn i out es
  | _ => ¬ CancelledIn i es ∧ ∀ out, ¬ ComputedIn i out es

/-- An event that is neither its computation's end nor its cancellation tells a call nothing. -/
theorem Call.Told.cons {e : LocalEvent R} {k : Option (Call R)} (h : Call.Told es i k)
    (hcomputed : ∀ out f, e = .computed i out →
      (LocalCache.run es).call i ≠ some (.computing f))
    (hcancel : ∀ f b, e = .cancel i → (LocalCache.run es).call i ≠ some (.waiting f b)) :
    Call.Told (e :: es) i k := by
  have hc : CancelledIn i (e :: es) → CancelledIn i es := by
    rintro (⟨he, f, b, hk⟩ | h)
    · exact absurd hk (hcancel f b he)
    · exact h
  have ho : ∀ out, ComputedIn i out (e :: es) → ComputedIn i out es := by
    rintro out (⟨he, f, hk⟩ | h)
    · exact absurd hk (hcomputed out f he)
    · exact h
  match k with
  | some (.returned out) => trivial
  | some (.waiting f true) => exact ⟨.inr h.1, fun out hout => h.2 out (ho out hout)⟩
  | some (.waiting f false) | some (.computing f) | none =>
    exact ⟨fun hin => h.1 (hc hin), fun out hout => h.2 out (ho out hout)⟩

theorem told_of_run (es : List (LocalEvent R)) (i : Nat) :
    Call.Told es i ((LocalCache.run es).call i) := by
  induction es with
  | nil => exact ⟨id, fun _ => id⟩
  | cons e es ih =>
    show Call.Told (e :: es) i (((LocalCache.run es).step e).call i)
    by_cases hi : e.about = i
    · cases e with
      | arrive j =>
        obtain rfl : j = i := hi
        have hnone : ∀ k : Option (Call R), Call.Told es j k → Call.Told (.arrive j :: es) j k :=
          fun k h => h.cons (fun out f h => nomatch h) fun f b h => nomatch h
        simp only [LocalCache.step]
        split
        · rename_i hcall
          rw [hcall] at ih
          rcases (LocalCache.run es).lookUp_call j with
            ⟨r, -, h⟩ | ⟨f, -, -, h⟩ | ⟨-, -, -, h⟩
          · rw [h, LocalCache.setCall_call]
            trivial
          · rw [h, LocalCache.setCall_call]
            exact hnone (some (.waiting f false)) ih
          · rw [h, Function.update_self]
            exact hnone (some (.computing _)) ih
        · exact hnone _ ih
      | computed j out =>
        obtain rfl : j = i := hi
        simp only [LocalCache.step]
        split
        · rw [LocalCache.succeed_call]
          trivial
        · rw [LocalCache.fail_call]
          trivial
        · rename_i hok herror
          refine ih.cons (fun out' f he hcall => ?_) fun f b he => nomatch he
          have hout := (LocalEvent.computed.inj he).2
          cases out' with
          | ok r => exact hok f r hcall hout
          | error e => exact herror f e hcall hout
      | resume j =>
        obtain rfl : j = i := hi
        have hsame : Call.Told (.resume j :: es) j ((LocalCache.run es).call j) :=
          ih.cons (fun out f h => nomatch h) fun f b h => nomatch h
        simp only [LocalCache.step]
        split
        · rename_i f b hcall
          rcases (LocalCache.run es).ride_call j f b with ⟨h, -⟩ | ⟨out, -, h⟩
          · rw [h]
            exact hsame
          · rw [h, LocalCache.setCall_call]
            trivial
        · exact hsame
      | cancel j =>
        obtain rfl : j = i := hi
        simp only [LocalCache.step]
        split
        · rename_i f b hcall
          rw [LocalCache.cancelWaiter_call]
          rw [hcall] at ih
          refine ⟨.inl ⟨rfl, f, b, hcall⟩, fun out hout => ?_⟩
          have hnot : ∀ out, ¬ ComputedIn j out es := by
            cases b with
            | true => exact ih.2
            | false => exact ih.2
          rcases hout with ⟨he, -⟩ | hout
          · cases he
          · exact hnot out hout
        · rename_i hcall
          exact ih.cons (fun out f h => nomatch h) fun f b _ h => hcall f b h
    · rw [LocalCache.step_other _ hi]
      refine ih.cons (fun out f he => ?_) fun f b he => ?_
      · exact absurd (by rw [he]; rfl) hi
      · exact absurd (by rw [he]; rfl) hi

/-- A call that has returned stays as it is. -/
theorem LocalCache.step_returned {s : LocalCache R} {out : Except CacheExc (R × Bool)}
    (e : LocalEvent R) (h : s.call i = some (.returned out)) :
    (s.step e).call i = some (.returned out) := by
  by_cases hi : e.about = i
  · have hsame : s.step e = s := by
      cases e with
      | arrive j | resume j | cancel j =>
        obtain rfl : j = i := hi
        simp only [LocalCache.step, h]
      | computed j x =>
        obtain rfl : j = i := hi
        simp only [LocalCache.step, h]
    rw [hsame]
    exact h
  · rw [LocalCache.step_other _ hi]
    exact h

/-- A schedule that is not sound gives some call an exception that is not its own. -/
theorem not_sound (h : ¬ Sound es) :
    ∃ i e, (LocalCache.run es).call i = some (.returned (.error e)) ∧ ¬ Blames es i e := by
  induction es with
  | nil => exact absurd trivial h
  | cons e es ih =>
    by_cases hes : Sound es
    · have hfine : ¬ Fine (LocalCache.run es) e := fun hf => h ⟨hf, hes⟩
      cases e with
      | arrive j | cancel j => exact absurd trivial hfine
      | resume j =>
        have htold := told_of_run es j
        simp only [Fine, not_forall, not_not] at hfine
        obtain ⟨f, e', hcall, hawait⟩ := hfine
        rw [hcall] at htold
        refine ⟨j, e', ?_, ?_⟩
        · show ((LocalCache.run es).step (.resume j)).call j = _
          simp only [LocalCache.step, hcall]
          rcases (LocalCache.run es).ride_call j f false with ⟨-, hnone⟩ | ⟨out, hsome, h⟩
          · rw [hnone] at hawait
            cases hawait
          · rw [hsome] at hawait
            obtain rfl := Option.some.inj hawait
            rw [h, LocalCache.setCall_call]
            rfl
        · rintro (⟨-, ⟨he, -⟩ | hin⟩ | ⟨he, -⟩ | hin)
          · cases he
          · exact htold.1 hin
          · cases he
          · exact htold.2 _ hin
      | computed j out =>
        have htold := told_of_run es j
        cases out with
        | ok r => exact absurd trivial hfine
        | error e' =>
          simp only [Fine, not_forall] at hfine
          obtain ⟨f, hcall, hraised⟩ := hfine
          rw [hcall] at htold
          -- the future was cancelled by a waiter, and the owner's exception is another one
          cases hfut : (LocalCache.run es).future f with
          | cancelled =>
            rw [hfut] at hraised
            refine ⟨j, .cancelled, ?_, ?_⟩
            · show ((LocalCache.run es).step (.computed j (.error e'))).call j = _
              simp only [LocalCache.step, hcall, LocalCache.fail_call, hfut]
              rfl
            · rintro (⟨-, ⟨he, -⟩ | hin⟩ | ⟨he, -⟩ | hin)
              · cases he
              · exact htold.1 hin
              · exact hraised (Except.error.inj (LocalEvent.computed.inj he).2).symm
              · exact htold.2 _ hin
          | _ =>
            rw [hfut] at hraised
            exact absurd rfl hraised
    · obtain ⟨i, x, hcall, hblame⟩ := ih hes
      refine ⟨i, x, LocalCache.step_returned e hcall, fun hb => hblame ?_⟩
      rcases hb with ⟨hx, ⟨-, f, b, hw⟩ | hin⟩ | ⟨-, f, hw⟩ | hin
      · rw [hcall] at hw
        cases hw
      · exact .inl ⟨hx, hin⟩
      · rw [hcall] at hw
        cases hw
      · exact .inr hin

/-! ## One call at a time -/

section Moves

variable {rest : Nat → Option (Unit × Option (Cache R (R × Bool)))} {pt pt' : Point R}
  {db db' : Postgres R} {row : Option R} {l : List (Nat × R)} {r : R} {e : CacheExc}

/-- A run that follows the schedule has got call `i` to `pt`, the others standing as in `rest`. -/
def Stands (es : List (LocalEvent R)) (taskRef : String)
    (rest : Nat → Option (Unit × Option (Cache R (R × Bool)))) (i : Nat) (pt : Point R)
    (db : Postgres R) : Prop :=
  ∃ c, (callers R taskRef).Reach (Follows es) (.idle .empty) c ∧ c.shared = db ∧
    c.thread = Function.update rest i (some ((), some pt.code))

/-- What the statements of a call are answered, given the first one and `compute`. -/
def scripted (conn : Reply CacheExc Nat) (compute : Reply CacheExc R) :
    (o : CacheOp R) → Reply CacheExc o.Res
  | .getconn => conn
  | .selectResponse => .ok none
  | .compute => compute
  | .advisoryLock => .ok ()
  | .advisoryUnlock => .ok ()
  | .insertResponse _ => .ok ()
  | .commit => .ok ()
  | .rollback => .ok ()
  | .putconn => .ok ()

/-- One statement of the call. -/
theorem Stands.step (h : Stands es taskRef rest i pt db) (o : CacheOp R)
    (f : ∀ o : CacheOp R, Reply CacheExc o.Res) (out : Except CacheExc o.Res)
    {k : Except CacheExc o.Res → Cache R (R × Bool)} (hcode : pt.code = .op o k)
    (hok : ∀ c : CallersConfig R, c.next i = some o → Follows es c (.step i f))
    (hs : (f o).apply (execCache i o) db = some (out, db')) (hk : k out = pt'.code) :
    Stands es taskRef rest i pt' db' := by
  obtain ⟨c, hr, rfl, hc⟩ := h
  have hi : c.thread i = some ((), some (.op o k)) := by
    rw [hc, Function.update_self, hcode]
  have hnext : c.next i = some o := by rw [Config.next, hi]
  refine ⟨_, hr.act (.step i f) (hok c hnext), ?_, ?_⟩
  · rw [Sys.exec_step hi hs]
    rfl
  · rw [Sys.exec_step hi hs, ← hk]
    show Function.update c.thread i _ = _
    rw [hc, Function.update_idem]

/-- A statement other than `compute` that is answered; `getconn` is given session 0. -/
theorem Stands.answered (h : Stands es taskRef rest i pt db) (o : CacheOp R) (b : o.Res)
    {k : Except CacheExc o.Res → Cache R (R × Bool)} (hcode : pt.code = .op o k)
    (ho : o = .compute → False)
    (hs : ((scripted (.ok 0) (.failed .pool)) o).apply (execCache i o) db = some (.ok b, db'))
    (hk : k (.ok b) = pt'.code) : Stands es taskRef rest i pt' db' := by
  refine h.step o _ _ hcode (fun c hnext => ?_) hs hk
  simp only [Follows, hnext]
  cases o with
  | compute => exact (ho rfl).elim
  | _ => exact .inl rfl

/-- Nobody has a connection. -/
def resting (row : Option R) (l : List (Nat × R)) : Postgres R :=
  ⟨row, none, none, fun _ => none, fun _ => none, [], l⟩

/-- Call `i` has connection 0. -/
def lent (row : Option R) (pending : Option (Nat × R)) (holder : Option (Nat × Nat)) (i : Nat)
    (l : List (Nat × R)) : Postgres R :=
  ⟨row, pending, holder, Function.update (fun _ => none) i (some 0),
    Function.update (fun _ => none) 0 (some i), [], l⟩

theorem Stands.borrow (h : Stands es taskRef rest i .borrow (resting row l)) :
    Stands es taskRef rest i .lock (lent row none none i l) := by
  refine h.answered .getconn 0 (Point.code.eq_def _) nofun ?_ rfl
  simp [scripted, Reply.apply, execCache, resting, lent]

theorem Stands.lock (h : Stands es taskRef rest i .lock (lent row none none i l)) :
    Stands es taskRef rest i .select (lent row none (some (0, 0)) i l) := by
  refine h.answered .advisoryLock () (Point.code.eq_def _) nofun ?_ rfl
  simp [scripted, Reply.apply, execCache, Postgres.onSession, Postgres.lock, lent]

theorem Stands.putBack {out : Except CacheExc (R × Bool)}
    (h : Stands es taskRef rest i (.putBack out) (lent row none none i l)) :
    Stands es taskRef rest i (.done out) (resting row l) := by
  refine h.answered .putconn () (Point.code.eq_def _) nofun ?_ rfl
  simp [scripted, Reply.apply, execCache, Postgres.rollback, lent, resting]

/-- A call that finds the row: a hit. -/
theorem Stands.hit (h : Stands es taskRef rest i .borrow (resting (some r) l)) :
    Stands es taskRef rest i (.done (.ok (r, true))) (resting (some r) l) := by
  have hselect : Stands es taskRef rest i (.releaseHit r)
      (lent (some r) none (some (0, 0)) i l) := by
    refine h.borrow.lock.answered .selectResponse (some r) (Point.code.eq_def _) (by rintro ⟨⟩) ?_ rfl
    simp [scripted, Reply.apply, execCache, Postgres.onSession, Postgres.visible, lent]
  have hrelease : Stands es taskRef rest i (.commitHit r) (lent (some r) none none i l) := by
    refine hselect.answered .advisoryUnlock () (Point.code.eq_def _) (by rintro ⟨⟩) ?_ rfl
    simp [scripted, Reply.apply, execCache, Postgres.onSession, Postgres.unlock, lent]
  have hcommit : Stands es taskRef rest i (.putBack (.ok (r, true)))
      (lent (some r) none none i l) := by
    refine hrelease.answered .commit () (Point.code.eq_def _) (by rintro ⟨⟩) ?_ rfl
    simp [scripted, Reply.apply, execCache, Postgres.onSession, Postgres.commit, lent]
  exact hcommit.putBack

/-- A call that finds none becomes the owner. -/
theorem Stands.acquire (h : Stands es taskRef rest i .borrow (resting none l)) :
    Stands es taskRef rest i .compute (lent none none (some (0, 0)) i l) := by
  have hselect : Stands es taskRef rest i .commitMiss (lent none none (some (0, 0)) i l) := by
    refine h.borrow.lock.answered .selectResponse none (Point.code.eq_def _) (by rintro ⟨⟩) ?_ rfl
    simp [scripted, Reply.apply, execCache, Postgres.onSession, Postgres.visible, lent]
  refine hselect.answered .commit () (Point.code.eq_def _) (by rintro ⟨⟩) ?_ rfl
  simp [scripted, Reply.apply, execCache, Postgres.onSession, Postgres.commit, lent]

/-- The owner's computation succeeds: its response is stored before the lock is released. -/
theorem Stands.succeed (h : Stands es taskRef rest i .compute (lent none none (some (0, 0)) i l))
    (hin : ComputedIn i (.ok r) es) :
    Stands es taskRef rest i (.done (.ok (r, false))) (resting (some r) ((i, r) :: l)) := by
  have hcompute : Stands es taskRef rest i (.insert r)
      (lent none none (some (0, 0)) i ((i, r) :: l)) := by
    refine h.step .compute (scripted (.ok 0) (.ok r)) (.ok r)
      (Point.code.eq_def _) (fun c hnext => ?_) rfl rfl
    simp only [Follows, hnext]
    exact .inl ⟨r, rfl, hin⟩
  have hinsert : Stands es taskRef rest i (.commitInsert r)
      (lent none (some (0, r)) (some (0, 0)) i ((i, r) :: l)) := by
    refine hcompute.answered (.insertResponse r) () (Point.code.eq_def _) (by rintro ⟨⟩) ?_ rfl
    simp [scripted, Reply.apply, execCache, Postgres.onSession, Postgres.insert, lent]
  have hcommit : Stands es taskRef rest i (.release r)
      (lent (some r) none (some (0, 0)) i ((i, r) :: l)) := by
    refine hinsert.answered .commit () (Point.code.eq_def _) (by rintro ⟨⟩) ?_ rfl
    simp [scripted, Reply.apply, execCache, Postgres.onSession, Postgres.commit, lent]
  have hrelease : Stands es taskRef rest i (.commitRelease r)
      (lent (some r) none none i ((i, r) :: l)) := by
    refine hcommit.answered .advisoryUnlock () (Point.code.eq_def _) (by rintro ⟨⟩) ?_ rfl
    simp [scripted, Reply.apply, execCache, Postgres.onSession, Postgres.unlock, lent]
  have hend : Stands es taskRef rest i (.putBack (.ok (r, false)))
      (lent (some r) none none i ((i, r) :: l)) := by
    refine hrelease.answered .commit () (Point.code.eq_def _) (by rintro ⟨⟩) ?_ rfl
    simp [scripted, Reply.apply, execCache, Postgres.onSession, Postgres.commit, lent]
  exact hend.putBack

/-- The owner's computation raises: nothing is stored and the lock is released. -/
theorem Stands.fail (h : Stands es taskRef rest i .compute (lent none none (some (0, 0)) i l))
    (hin : ComputedIn i (.error e) es) :
    Stands es taskRef rest i (.done (.error e)) (resting none l) := by
  have hcompute : Stands es taskRef rest i (.releaseFailed e)
      (lent none none (some (0, 0)) i l) := by
    refine h.step .compute (scripted (.ok 0) (.failed e)) (.error e)
      (Point.code.eq_def _) (fun c hnext => ?_) rfl rfl
    simp only [Follows, hnext]
    exact .inr ⟨e, rfl, hin⟩
  have hrelease : Stands es taskRef rest i (.commitFailed e) (lent none none none i l) := by
    refine hcompute.answered .advisoryUnlock () (Point.code.eq_def _) (by rintro ⟨⟩) ?_ rfl
    simp [scripted, Reply.apply, execCache, Postgres.onSession, Postgres.unlock, lent]
  have hend : Stands es taskRef rest i (.putBack (.error e)) (lent none none none i l) := by
    refine hrelease.answered .commit () (Point.code.eq_def _) (by rintro ⟨⟩) ?_ rfl
    simp [scripted, Reply.apply, execCache, Postgres.onSession, Postgres.commit, lent]
  exact hend.putBack

/-- A call that is cancelled while it waits for a connection. -/
theorem Stands.cancel (h : Stands es taskRef rest i .borrow db) (hin : CancelledIn i es) :
    Stands es taskRef rest i (.done (.error .cancelled)) db := by
  refine h.step .getconn (scripted (.failed .cancelled) (.failed .pool)) (.error .cancelled)
    (Point.code.eq_def _) (fun c hnext => ?_) rfl rfl
  simp only [Follows, hnext]
  exact .inr ⟨rfl, hin⟩

end Moves

/-! ## The simulation -/

/-- Where the call of the other cache stands. -/
def Call.point : Call R → Point R
  | .computing _ => .compute
  | .waiting _ _ => .borrow
  | .returned out => .done out

/-- What holds of the local cache: an owner has its future in the map and nothing is completed, so
    that there is one; a response in a future is the completed one. -/
structure Tidy (s : LocalCache R) : Prop where
  owner : ∀ i f, s.call i = some (.computing f) → s.pending = some f ∧ s.completed = none
  unique : ∀ i j f g, s.call i = some (.computing f) → s.call j = some (.computing g) → i = j
  result : ∀ f r, s.future f = .result r → s.completed = some r

/-- The calls of both caches stand at corresponding points, and so do their tables. -/
structure Sim (s : LocalCache R) (c : CallersConfig R) : Prop where
  threads : c.thread = fun i => (s.call i).map fun k => ((), some k.point.code)
  free : (∀ i f, s.call i ≠ some (.computing f)) → ∃ l, c.shared = resting s.completed l
  owned : ∀ i f, s.call i = some (.computing f) →
    ∃ l, c.shared = lent none none (some (0, 0)) i l

section Tidy

variable {s : LocalCache R}

/-- A call that is not an owner. -/
theorem Tidy.setCall (h : Tidy s) {k : Call R} (hj : ∀ f, s.call j ≠ some (.computing f))
    (hk : ∀ f, k ≠ .computing f) : Tidy (s.setCall j k) := by
  have hold : ∀ i f, (s.setCall j k).call i = some (.computing f) →
      s.call i = some (.computing f) := by
    intro i f hi
    by_cases hij : i = j
    · subst hij
      rw [LocalCache.setCall_call] at hi
      exact absurd (Option.some.inj hi) (hk f)
    · simpa [LocalCache.setCall, Function.update_of_ne hij] using hi
  exact ⟨fun i f hi => h.owner i f (hold i f hi),
    fun i i' f g hi hi' => h.unique i i' f g (hold i f hi) (hold i' g hi'), h.result⟩

/-- Once the owner has returned there is none. -/
theorem Tidy.no_owner (h : Tidy s) {f : Nat} {out : Except CacheExc (R × Bool)}
    (hj : s.call j = some (.computing f)) (i g : Nat) :
    Function.update s.call j (some (.returned out)) i ≠ some (.computing g) := by
  by_cases hij : i = j
  · subst hij
    simp
  · rw [Function.update_of_ne hij]
    exact fun hi => hij (h.unique i j g f hi hj)

/-- While there is an owner no future has a response. -/
theorem Tidy.no_result (h : Tidy s) {f : Nat} (hj : s.call j = some (.computing f)) (g : Nat)
    (r : R) : s.future g ≠ .result r := by
  intro hg
  have hnone := (h.owner j f hj).2
  rw [h.result g r hg] at hnone
  cases hnone

theorem Inflight.settle_eq_result {a b : Inflight R} {r : R} (h : a.settle b = .result r) :
    a = .result r ∨ b = .result r := by
  cases a with
  | pending => exact .inr h
  | _ => exact .inl h

theorem Tidy.step (h : Tidy s) (e : LocalEvent R) : Tidy (s.step e) := by
  cases e with
  | arrive j =>
    simp only [LocalCache.step]
    split
    · rename_i hcall
      have hj : ∀ f, s.call j ≠ some (.computing f) := fun f hf => nomatch hcall.symm.trans hf
      unfold LocalCache.lookUp
      split
      · exact h.setCall hj nofun
      · rename_i hcompleted
        split
        · exact h.setCall hj nofun
        · rename_i hpending
          have hnone : ∀ i f, s.call i ≠ some (.computing f) := fun i f hi =>
            nomatch hpending.symm.trans (h.owner i f hi).1
          have hnew : ∀ i f, Function.update s.call j (some (.computing s.created)) i =
              some (.computing f) → i = j ∧ f = s.created := by
            intro i f hi
            by_cases hij : i = j
            · subst hij
              rw [Function.update_self] at hi
              exact ⟨rfl, (Call.computing.inj (Option.some.inj hi)).symm⟩
            · rw [Function.update_of_ne hij] at hi
              exact absurd hi (hnone i f)
          refine ⟨fun i f hi => ⟨?_, hcompleted⟩, fun i i' f g hi hi' => ?_, fun f r hf => ?_⟩
          · rw [(hnew i f hi).2]
          · exact (hnew i f hi).1.trans (hnew i' g hi').1.symm
          · by_cases hfc : f = s.created
            · subst hfc
              simp at hf
            · refine h.result f r ?_
              simpa [Function.update_of_ne hfc] using hf
    · exact h
  | computed j out =>
    simp only [LocalCache.step]
    split
    · rename_i f r hcall
      refine ⟨fun i g hi => absurd hi (h.no_owner hcall i g),
        fun i i' g g' hi _ => absurd hi (h.no_owner hcall i g), fun g r' hg => ?_⟩
      by_cases hgf : g = f
      · subst hgf
        have hset : (s.future g).settle (.result r) = .result r' := by
          simpa [LocalCache.succeed] using hg
        rcases Inflight.settle_eq_result hset with hold | hnew
        · exact absurd hold (h.no_result hcall g r')
        · exact congrArg some (Inflight.result.inj hnew)
      · refine absurd ?_ (h.no_result hcall g r')
        simpa [LocalCache.succeed, Function.update_of_ne hgf] using hg
    · rename_i f e hcall
      refine ⟨fun i g hi => absurd hi (h.no_owner hcall i g),
        fun i i' g g' hi _ => absurd hi (h.no_owner hcall i g), fun g r' hg => ?_⟩
      by_cases hgf : g = f
      · subst hgf
        have hset : (s.future g).settle (.exception e) = .result r' := by
          simpa [LocalCache.fail] using hg
        rcases Inflight.settle_eq_result hset with hold | hnew
        · exact absurd hold (h.no_result hcall g r')
        · cases hnew
      · refine absurd ?_ (h.no_result hcall g r')
        simpa [LocalCache.fail, Function.update_of_ne hgf] using hg
    · exact h
  | resume j =>
    simp only [LocalCache.step]
    split
    · rename_i f b hcall
      rcases s.ride_call j f b with ⟨hsame, -⟩ | ⟨out, -, hret⟩
      · rw [hsame]
        exact h
      · rw [hret]
        exact h.setCall (fun g hg => nomatch hcall.symm.trans hg) nofun
    · exact h
  | cancel j =>
    simp only [LocalCache.step]
    split
    · rename_i f b hcall
      have htidy : Tidy (s.setCall j (.waiting f true)) :=
        h.setCall (fun g hg => nomatch hcall.symm.trans hg) nofun
      refine ⟨htidy.owner, htidy.unique, fun g r hg => ?_⟩
      by_cases hgf : g = f
      · subst hgf
        have hset : (s.future g).settle .cancelled = .result r := by
          simpa [LocalCache.cancelWaiter] using hg
        rcases Inflight.settle_eq_result hset with hold | hnew
        · exact h.result g r hold
        · cases hnew
      · refine h.result g r ?_
        simpa [LocalCache.cancelWaiter, Function.update_of_ne hgf] using hg
    · exact h

theorem tidy_run (es : List (LocalEvent R)) : Tidy (LocalCache.run es) := by
  induction es with
  | nil => exact ⟨nofun, nofun, nofun⟩
  | cons e es ih => exact ih.step e

end Tidy

section Simulation

variable {c : CallersConfig R} {e : LocalEvent R}

/-- A call that has arrived stays. -/
theorem LocalCache.step_arrived {s : LocalCache R} {k : Call R} (e : LocalEvent R)
    (h : s.call i = some k) : ∃ k', (s.step e).call i = some k' := by
  by_cases hi : e.about = i
  · cases e with
    | arrive j =>
      obtain rfl : j = i := hi
      simp only [LocalCache.step, h]
      exact ⟨k, rfl⟩
    | computed j out =>
      obtain rfl : j = i := hi
      simp only [LocalCache.step]
      split
      · exact ⟨_, LocalCache.succeed_call ..⟩
      · exact ⟨_, LocalCache.fail_call ..⟩
      · exact ⟨k, h⟩
    | resume j =>
      obtain rfl : j = i := hi
      simp only [LocalCache.step]
      split
      · rename_i f b _
        rcases s.ride_call j f b with ⟨hsame, -⟩ | ⟨out, -, hret⟩
        · rw [hsame]
          exact ⟨k, h⟩
        · rw [hret]
          exact ⟨_, LocalCache.setCall_call ..⟩
      · exact ⟨k, h⟩
    | cancel j =>
      obtain rfl : j = i := hi
      simp only [LocalCache.step]
      split
      · exact ⟨_, LocalCache.cancelWaiter_call ..⟩
      · exact ⟨k, h⟩
  · rw [LocalCache.step_other _ hi]
    exact ⟨k, h⟩

/-- A longer schedule allows what a shorter one does. -/
theorem Follows.cons {a : CallersAct R} (h : Follows es c a) : Follows (e :: es) c a := by
  cases a with
  | enter i r =>
    obtain ⟨k, hk⟩ := h
    exact LocalCache.step_arrived e hk
  | step i f =>
    simp only [Follows] at h ⊢
    split at h
    · exact h.imp (fun ⟨r, hf, hin⟩ => ⟨r, hf, .inr hin⟩) fun ⟨x, hf, hin⟩ => ⟨x, hf, .inr hin⟩
    · exact h.imp id fun ⟨hf, hin⟩ => ⟨hf, .inr hin⟩
    · trivial
  | crash i => exact h
  | env x => exact h

/-- The call that the event is about has been moved to its new point. -/
theorem Sim.moved {s s' : LocalCache R} {k : Call R} {db' : Postgres R} (hsim : Sim s c)
    (hst : Stands es taskRef c.thread j k.point db')
    (hcall : s'.call = Function.update s.call j (some k))
    (hfree : (∀ i f, s'.call i ≠ some (.computing f)) → ∃ l, db' = resting s'.completed l)
    (howned : ∀ i f, s'.call i = some (.computing f) →
      ∃ l, db' = lent none none (some (0, 0)) i l) :
    ∃ c', (callers R taskRef).Reach (Follows es) (.idle .empty) c' ∧ Sim s' c' := by
  obtain ⟨c', hr, rfl, hthread⟩ := hst
  refine ⟨c', hr, ?_, hfree, howned⟩
  rw [hthread, hsim.threads, hcall]
  funext i
  by_cases hij : i = j
  · subst hij
    simp
  · simp [Function.update_of_ne hij]

theorem Stands.of_thread {pt : Point R}
    (hr : (callers R taskRef).Reach (Follows es) (.idle .empty) c)
    (hj : c.thread j = some ((), some pt.code)) :
    Stands (e :: es) taskRef c.thread j pt c.shared := by
  refine ⟨c, hr.mono fun _ _ h => h.cons, rfl, ?_⟩
  rw [← hj, Function.update_eq_self]

/-- An owner that fails on a future nobody has cancelled raises what `compute` raised. -/
theorem raised_settle {f : Inflight R} {x : CacheExc} (h : f.raised x = x) :
    (f.settle (.exception x)).raised x = x := by
  cases f with
  | cancelled => exact h
  | _ => rfl

/-- One event is matched by statements of the call it is about. -/
theorem Sim.step (h : taskRef ≠ "") (hr : (callers R taskRef).Reach (Follows es) (.idle .empty) c)
    (hsim : Sim (LocalCache.run es) c) (hfine : Fine (LocalCache.run es) e) :
    ∃ c', (callers R taskRef).Reach (Follows (e :: es)) (.idle .empty) c' ∧
      Sim (LocalCache.run (e :: es)) c' := by
  have htidy := tidy_run es
  have hsame : ∃ c', (callers R taskRef).Reach (Follows (e :: es)) (.idle .empty) c' ∧
      Sim (LocalCache.run es) c' := ⟨c, hr.mono fun _ _ h => h.cons, hsim⟩
  have hthread : ∀ j k, (LocalCache.run es).call j = some k →
      c.thread j = some ((), some k.point.code) := by
    intro j k hk
    rw [hsim.threads]
    simp [hk]
  -- what is completed lies in a table at rest
  have hrest : ∀ r, (LocalCache.run es).completed = some r → ∃ l, c.shared = resting (some r) l := by
    intro r hc
    have hnone : ∀ i f, (LocalCache.run es).call i ≠ some (.computing f) := by
      intro i f hi
      cases hc.symm.trans (htidy.owner i f hi).2
    obtain ⟨l, hl⟩ := hsim.free hnone
    exact ⟨l, by rw [hl, hc]⟩
  -- a call that neither was nor becomes an owner leaves the tables as they are
  have howner : ∀ j (k : Call R), (∀ g, k ≠ .computing g) → ∀ i f,
      Function.update (LocalCache.run es).call j (some k) i = some (.computing f) →
      (LocalCache.run es).call i = some (.computing f) := by
    intro j k hk i f hi
    by_cases hij : i = j
    · subst hij
      rw [Function.update_self] at hi
      exact absurd (Option.some.inj hi) (hk f)
    · rwa [Function.update_of_ne hij] at hi
  have hfree : ∀ j (k : Call R), (∀ g, (LocalCache.run es).call j ≠ some (.computing g)) →
      (∀ i f, Function.update (LocalCache.run es).call j (some k) i ≠ some (.computing f)) →
      ∃ l, c.shared = resting (LocalCache.run es).completed l := by
    intro j k hj hall
    refine hsim.free fun i f hi => hall i f ?_
    have hij : i ≠ j := fun hij => hj f (hij ▸ hi)
    rwa [Function.update_of_ne hij]
  cases e with
  | arrive j =>
    show ∃ c', _ ∧ Sim ((LocalCache.run es).step (.arrive j)) c'
    simp only [LocalCache.step]
    split
    · rename_i hnone
      have hcj : c.thread j = none := by
        rw [hsim.threads]
        simp [hnone]
      -- the call arrives, and nothing is executed yet
      have hent : Stands (.arrive j :: es) taskRef c.thread j .borrow c.shared := by
        have harrived : Follows (.arrive j :: es) c (.enter j ()) := by
          show ∃ k, ((LocalCache.run es).step (.arrive j)).call j = some k
          simp only [LocalCache.step, hnone]
          rcases (LocalCache.run es).lookUp_call j with
            ⟨r, -, h⟩ | ⟨f, -, -, h⟩ | ⟨-, -, -, h⟩
          · exact ⟨_, by rw [h, LocalCache.setCall_call]⟩
          · exact ⟨_, by rw [h, LocalCache.setCall_call]⟩
          · exact ⟨_, by rw [h, Function.update_self]⟩
        have hexec : (callers R taskRef).exec c (.enter j ()) =
            c.put c.shared j () (some Point.borrow.code) := by
          rw [← getOrCompute_eq h]
          simp [Sys.exec, callers, hcj]
        refine ⟨_, (hr.mono fun _ _ h => h.cons).act (.enter j ()) harrived, ?_, ?_⟩
        · rw [hexec]
          rfl
        · rw [hexec]
          rfl
      rcases (LocalCache.run es).lookUp_call j with
        ⟨r, hc, heq⟩ | ⟨f, hc, hp, heq⟩ | ⟨hc, hp, hc', heq⟩
      · obtain ⟨l, hl⟩ := hrest r hc
        rw [hl] at hent
        rw [heq]
        refine hsim.moved (k := .returned (.ok (r, true))) hent.hit rfl (fun _ => ⟨l, ?_⟩)
          fun i f hi => ?_
        · show _ = resting (LocalCache.run es).completed l
          rw [hc]
        · have hi' := howner j (.returned (.ok (r, true))) (by rintro _ ⟨⟩) i f hi
          cases hc.symm.trans (htidy.owner i f hi').2
      · rw [heq]
        exact hsim.moved (k := .waiting f false) hent rfl
          (hfree j _ fun g hg => by cases hnone.symm.trans hg)
          fun i g hi => hsim.owned i g (howner j (.waiting f false) (by rintro _ ⟨⟩) i g hi)
      · have hnoone : ∀ i f, (LocalCache.run es).call i ≠ some (.computing f) := by
          intro i f hi
          cases hp.symm.trans (htidy.owner i f hi).1
        obtain ⟨l, hl⟩ := hsim.free hnoone
        rw [hl, hc] at hent
        refine hsim.moved (k := .computing (LocalCache.run es).created) hent.acquire heq
          (fun hfree => ?_) fun i f hi => ?_
        · refine absurd ?_ (hfree j (LocalCache.run es).created)
          rw [heq, Function.update_self]
        · rw [heq] at hi
          by_cases hij : i = j
          · rw [hij]
            exact ⟨l, rfl⟩
          · rw [Function.update_of_ne hij] at hi
            exact absurd hi (hnoone i f)
    · exact hsame
  | computed j out =>
    show ∃ c', _ ∧ Sim ((LocalCache.run es).step (.computed j out)) c'
    simp only [LocalCache.step]
    split
    · rename_i f r hcall
      obtain ⟨l, hl⟩ := hsim.owned j f hcall
      have hst : Stands (.computed j (.ok r) :: es) taskRef c.thread j .compute c.shared :=
        .of_thread hr (hthread j _ hcall)
      rw [hl] at hst
      exact hsim.moved (k := .returned (.ok (r, false))) (hst.succeed (.inl ⟨rfl, f, hcall⟩)) rfl
        (fun _ => ⟨_, rfl⟩) fun i g hi => absurd hi (htidy.no_owner hcall i g)
    · rename_i f x hcall
      obtain ⟨l, hl⟩ := hsim.owned j f hcall
      have hst : Stands (.computed j (.error x) :: es) taskRef c.thread j .compute c.shared :=
        .of_thread hr (hthread j _ hcall)
      rw [hl] at hst
      have hraised := raised_settle (hfine f hcall)
      refine hsim.moved (k := .returned (.error x)) (hst.fail (.inl ⟨rfl, f, hcall⟩)) ?_
        (fun _ => ⟨l, ?_⟩) fun i g hi => absurd hi (htidy.no_owner hcall i g)
      · show Function.update _ _ _ = _
        rw [hraised]
      · show _ = resting (LocalCache.run es).completed l
        rw [(htidy.owner j f hcall).2]
    · exact hsame
  | resume j =>
    show ∃ c', _ ∧ Sim ((LocalCache.run es).step (.resume j)) c'
    simp only [LocalCache.step]
    split
    · rename_i f b hcall
      have hst : Stands (.resume j :: es) taskRef c.thread j .borrow c.shared :=
        .of_thread hr (hthread j _ hcall)
      have hj : ∀ g, (LocalCache.run es).call j ≠ some (.computing g) := by
        intro g hg
        cases hcall.symm.trans hg
      rcases (LocalCache.run es).ride_call j f b with ⟨heq, -⟩ | ⟨out, hawait, heq⟩
      · rw [heq]
        exact hsame
      · rw [heq]
        cases b with
        | true =>
          have htold := told_of_run es j
          rw [hcall] at htold
          exact hsim.moved (k := .returned (.error .cancelled)) (hst.cancel (.inr htold.1)) rfl
            (hfree j _ hj) fun i g hi =>
              hsim.owned i g (howner j (.returned (.error .cancelled)) (by rintro _ ⟨⟩) i g hi)
        | false =>
          cases out with
          | error x => exact absurd hawait (hfine f x hcall)
          | ok r =>
            have hc : (LocalCache.run es).completed = some r := by
              refine htidy.result f r ?_
              cases hfut : (LocalCache.run es).future f with
              | result r' =>
                rw [hfut] at hawait
                rw [Except.ok.inj (Option.some.inj hawait)]
              | _ =>
                rw [hfut] at hawait
                cases hawait
            obtain ⟨l, hl⟩ := hrest r hc
            rw [hl] at hst
            refine hsim.moved (k := .returned (.ok (r, true))) hst.hit rfl (fun _ => ⟨l, ?_⟩)
              fun i g hi => ?_
            · show _ = resting (LocalCache.run es).completed l
              rw [hc]
            · have hi' := howner j (.returned (.ok (r, true))) (by rintro _ ⟨⟩) i g hi
              cases hc.symm.trans (htidy.owner i g hi').2
    · exact hsame
  | cancel j =>
    show ∃ c', _ ∧ Sim ((LocalCache.run es).step (.cancel j)) c'
    simp only [LocalCache.step]
    split
    · rename_i f b hcall
      have hst : Stands (.cancel j :: es) taskRef c.thread j .borrow c.shared :=
        .of_thread hr (hthread j _ hcall)
      exact hsim.moved (k := .waiting f true) hst rfl
        (hfree j _ fun g hg => by cases hcall.symm.trans hg)
        fun i g hi => hsim.owned i g (howner j (.waiting f true) (by rintro _ ⟨⟩) i g hi)
    · exact hsame

end Simulation

/-! ## The result -/

/-- The response or the exception of every call that has ended, and of no other. -/
theorem Sim.result {s : LocalCache R} {c : CallersConfig R} (hsim : Sim s c) (i : Nat) :
    c.result i = s.result i := by
  have hi : c.thread i = (s.call i).map fun k => ((), some k.point.code) :=
    congrFun hsim.threads i
  unfold Config.result LocalCache.result
  rw [hi]
  cases s.call i with
  | none => rfl
  | some k =>
    rw [Option.map_some]
    cases k with
    | computing f | waiting f b => rw [Call.point, Point.code]
    | returned out =>
      cases out with
      | ok a => rw [Call.point, done_ok]
      | error e => rw [Call.point, done_error]

theorem sim_of_sound (h : taskRef ≠ "") (hs : Sound es) :
    ∃ c, (callers R taskRef).Reach (Follows es) (.idle .empty) c ∧ Sim (LocalCache.run es) c := by
  induction es with
  | nil => exact ⟨_, .init, rfl, fun _ => ⟨[], rfl⟩, nofun⟩
  | cons e es ih =>
    obtain ⟨c, hr, hsim⟩ := ih hs.2
    exact hsim.step h hr hs.1

/-- One contract.  The results that a schedule gives on the local cache are results that the
    Postgres cache could give to the same calls, with the same computations and cancellations, if
    and only if no event of the schedule hands a failure on to another call. -/
theorem local_results_iff (h : taskRef ≠ "") (es : List (LocalEvent R)) :
    (∃ c, (callers R taskRef).Reach (Follows es) (.idle .empty) c ∧
      ∀ i, c.result i = (LocalCache.run es).result i) ↔ Sound es := by
  constructor
  · rintro ⟨c, hr, hres⟩
    by_contra hsound
    obtain ⟨i, e, hcall, hblame⟩ := not_sound hsound
    refine hblame (blamed_result h hr ?_)
    rw [hres i, LocalCache.result, hcall]
  · intro hs
    obtain ⟨c, hr, hsim⟩ := sim_of_sound h hs
    exact ⟨c, hr, hsim.result⟩

/-! ### Two schedules -/

/-- A waiter rides on the owner's computation, and a late call hits. -/
def rideSchedule : List (LocalEvent String) :=
  [.arrive 2, .resume 1, .computed 0 (.ok "response"), .arrive 1, .arrive 0]

theorem local_results_ride :
    ((LocalCache.run rideSchedule).result 1 = some ((), .ok ("response", true))) ∧
    ∃ c, (callers String "task-1").Reach (Follows rideSchedule) (.idle .empty) c ∧
      ∀ i, c.result i = (LocalCache.run rideSchedule).result i := by
  refine ⟨rfl, (local_results_iff (by decide) rideSchedule).2
    ⟨trivial, fun f e hcall hawait => ?_, trivial, trivial, trivial, trivial⟩⟩
  obtain rfl : f = 0 := by
    have hf : some (Call.waiting 0 false) = some (Call.waiting (R := String) f false) := hcall
    cases hf
    rfl
  have hr : some (Except.ok "response") = some (Except.error (α := String) e) := hawait
  cases hr

/-- The owner fails while a caller waits. -/
def failSchedule : List (LocalEvent String) :=
  [.resume 1, .computed 0 (.error (.compute "502")), .arrive 1, .arrive 0]

/-- The waiter ends with the owner's exception, without a computation of its own. -/
theorem waiter_gets_owners_exception : ¬ ∀ (taskRef : String) (es : List (LocalEvent String)),
    taskRef ≠ "" → ∃ c, (callers String taskRef).Reach (Follows es) (.idle .empty) c ∧
      ∀ i, c.result i = (LocalCache.run es).result i := by
  intro h
  obtain ⟨c, hr, hres⟩ := h "task-1" failSchedule (by decide)
  have hone : c.result 1 = some ((), .error (.compute "502")) := hres 1
  have hblames := blamed_result (by decide) hr hone
  simp [Blames, failSchedule, ComputedIn] at hblames

end CanvasOS.Gateway
