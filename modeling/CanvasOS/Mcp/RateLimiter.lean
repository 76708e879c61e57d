/-
  The rate limiter of mcp-web (`rate_limiter.SlidingWindowRateLimiter`) and the calls of `check`
  that any number of threads make.

  A call reads the clock first and takes the lock afterwards, so that the readings need not go into
  the deque in their order.

  1. The limiter, the two statements of `check`, and the threads.
  2. `admitted`, `expired` — the deque is a queue: what it has is the end of what was admitted
     (`Sound.queue`), and the rest was expired.
  3. `window_le` — the limit holds as long as no call enters whose window has a call that was
     expired.  A call that was overtaken by a later one can be such a call (`overtaken_exceeds`).
-/
import CanvasOS.Lib.RelyGuarantee
import Mathlib.Algebra.Order.Group.Defs
import Mathlib.Algebra.Order.Group.Int
import Mathlib.Data.List.TakeWhile

namespace CanvasOS.Mcp

open Interleave

/-! ## The limiter -/

/-- `SlidingWindowRateLimiter` and the clock that it reads. -/
structure Limiter (T : Type) where
  calls : List T
  clock : T

/-- `max_calls`, `window_seconds` -/
structure Ceiling (T : Type) where
  maxCalls : Nat
  windowSeconds : T

/-- `RateLimitExceeded`, with what its message says. -/
structure RateLimitExceeded (T : Type) where
  maxCalls : Nat
  windowSeconds : T

/-- `time.monotonic()`, and the section that holds the lock. -/
inductive Statement (T : Type) where
  | monotonic
  | enter (now : T)

/-- A reading; whether the section records the call or raises. -/
abbrev Statement.Res {T : Type} : Statement T → Type
  | .monotonic => T
  | .enter _ => Bool

section Code

variable {T : Type} [AddCommGroup T] [LinearOrder T]

/-- The `while` loop. -/
def expire (windowSeconds now : T) (calls : List T) : List T :=
  calls.dropWhile fun front => windowSeconds < now - front

/-- The section that holds the lock. -/
def lockedSection (C : Ceiling T) (now : T) (calls : List T) : Bool × List T :=
  let calls := expire C.windowSeconds now calls
  if C.maxCalls ≤ calls.length then (false, calls) else (true, calls ++ [now])

/-- What the statements do. -/
def runStatement (C : Ceiling T) :
    (o : Statement T) → o.Res → Limiter T → Option (o.Res × Limiter T)
  | .monotonic, _, s => some (s.clock, s)
  | .enter now, _, s =>
    let (recorded, calls) := lockedSection C now s.calls
    some (recorded, { s with calls := calls })

/-- `check` -/
def check (C : Ceiling T) : Prog (Statement T) Statement.Res (RateLimitExceeded T) Unit := do
  let now ← Prog.perform (.monotonic : Statement T)
  let recorded ← Prog.perform (.enter now : Statement T)
  if recorded then pure () else .throw ⟨C.maxCalls, C.windowSeconds⟩

/-- The clock goes on, and never back. -/
def tick (t : T) (s : Limiter T) : Option (Limiter T) :=
  if s.clock ≤ t then some { s with clock := t } else none

/-- Threads that call `check`. -/
abbrev limiterSystem (C : Ceiling T) (ι : Type) [DecidableEq ι] :=
  recorded (ι := ι) (fun _ : Unit => check C) (fun _ => runStatement C) tick

end Code

/-! ## What was admitted, and what of it was expired -/

section Record

variable {T ι : Type}

/-- What the limiter records of its calls. -/
abbrev Record (T ι : Type) := History (Statement T) Statement.Res (Limiter T) ι Unit

/-- The reading of a call that is admitted. -/
def admittedBy : Event (Statement T) Statement.Res (Limiter T) ι → Option T
  | ⟨_, .enter now, true, _⟩ => some now
  | _ => none

/-- The readings of the calls that were admitted, oldest first. -/
def admitted (h : Record T ι) : List T := (h.log.filterMap admittedBy).reverse

/-- Those that are no longer in the deque. -/
def expired (h : Record T ι) : List T :=
  (admitted h).take ((admitted h).length - h.cur.calls.length)

/-- The deque is the end of what was admitted: the beginning is what was expired. -/
theorem expired_eq {h : Record T ι} {l : List T} (hq : admitted h = l ++ h.cur.calls) :
    expired h = l := by
  rw [expired, hq, List.length_append, Nat.add_sub_cancel, List.take_left]

theorem admitted_cons {h : Record T ι} {e : Event (Statement T) Statement.Res (Limiter T) ι}
    {s : Limiter T} {arrived : List (ι × Unit)} :
    admitted (⟨s, arrived, e :: h.log⟩ : Record T ι) =
      admitted h ++ (admittedBy e).toList := by
  unfold admitted
  rw [List.filterMap_cons]
  cases admittedBy e with
  | none => exact (List.append_nil _).symm
  | some reading => exact List.reverse_cons

end Record

section Window

variable {T ι : Type} [AddCommGroup T] [LinearOrder T] {C : Ceiling T} {h : Record T ι}

/-- The calls that were admitted in the window of length `window_seconds` from `t` on. -/
def inWindow (C : Ceiling T) (h : Record T ι) (t : T) : Nat :=
  (admitted h).countP fun reading => t ≤ reading ∧ reading ≤ t + C.windowSeconds

/-- At most `max_calls` were admitted within any window. -/
def Limited (C : Ceiling T) (h : Record T ι) : Prop := ∀ t, inWindow C h t ≤ C.maxCalls

/-- Some window has both readings. -/
def Near (C : Ceiling T) (reading now : T) : Prop :=
  now - reading ≤ C.windowSeconds ∧ reading - now ≤ C.windowSeconds

/-- No call takes the lock with a reading near that of a call that was expired. -/
def NoneLate [DecidableEq ι] (C : Ceiling T)
    (c : Config (Statement T) Statement.Res (RateLimitExceeded T) (Record T ι) ι Unit Unit)
    (a : Act (Statement T) Statement.Res (RateLimitExceeded T) ι Unit T) : Prop :=
  ∀ i f now, a = .step i f → c.next i = some (.enter now) →
    ∀ reading ∈ expired c.shared, ¬Near C reading now

/-- The deque has the end of what was admitted, and the limit holds. -/
structure Sound (C : Ceiling T) (h : Record T ι) : Prop where
  queue : admitted h = expired h ++ h.cur.calls
  limited : Limited C h

theorem expire_append (w now : T) (calls : List T) :
    ∃ gone, calls = gone ++ expire w now calls ∧ ∀ reading ∈ gone, w < now - reading := by
  refine ⟨calls.takeWhile fun front => w < now - front, (List.takeWhile_append_dropWhile).symm,
    fun reading hin => ?_⟩
  simpa using List.mem_takeWhile_imp hin

variable [IsOrderedAddMonoid T]

/-- What is in a window with `now` is near it. -/
theorem near_of_window {t reading now : T} (hnow : t ≤ now ∧ now ≤ t + C.windowSeconds)
    (hreading : t ≤ reading ∧ reading ≤ t + C.windowSeconds) : Near C reading now := by
  constructor
  · rw [sub_le_iff_le_add']
    exact hnow.2.trans (add_le_add_left hreading.1 _)
  · rw [sub_le_iff_le_add']
    exact hreading.2.trans (add_le_add_left hnow.1 _)

/-- The section that holds the lock. -/
theorem Sound.enter {i : ι} {now : T} {recorded : Bool} {calls : List T}
    (hsound : Sound C h) (hlate : ∀ reading ∈ expired h, ¬Near C reading now)
    (hsection : lockedSection C now h.cur.calls = (recorded, calls)) :
    Sound C (⟨{ h.cur with calls := calls }, h.arrived,
      ⟨i, .enter now, recorded, h.cur⟩ :: h.log⟩ : Record T ι) := by
  obtain ⟨gone, hgone, hold⟩ := expire_append C.windowSeconds now h.cur.calls
  have hqueue : admitted h = (expired h ++ gone) ++ expire C.windowSeconds now h.cur.calls := by
    rw [List.append_assoc, ← hgone]
    exact hsound.queue
  -- neither what was expired before nor what is expired now has a window with `now`
  have hfar : ∀ reading ∈ expired h ++ gone, ¬Near C reading now := by
    intro reading hin
    rcases List.mem_append.1 hin with hin | hin
    · exact hlate reading hin
    · exact fun hnear => absurd hnear.1 (not_le.2 (hold reading hin))
  unfold lockedSection at hsection
  dsimp only at hsection
  split at hsection
  next hfull =>
    obtain ⟨rfl, rfl⟩ := Prod.mk.inj hsection
    have hsame : admitted (⟨{ h.cur with calls := expire C.windowSeconds now h.cur.calls },
        h.arrived, ⟨i, .enter now, false, h.cur⟩ :: h.log⟩ : Record T ι) = admitted h :=
      admitted_cons.trans (List.append_nil _)
    refine ⟨?_, fun t => ?_⟩
    · rw [expired_eq (hsame.trans hqueue), hsame]
      exact hqueue
    · unfold inWindow
      rw [hsame]
      exact hsound.limited t
  next hroom =>
    obtain ⟨rfl, rfl⟩ := Prod.mk.inj hsection
    have hmore : admitted (⟨{ h.cur with
        calls := expire C.windowSeconds now h.cur.calls ++ [now] }, h.arrived,
        ⟨i, .enter now, true, h.cur⟩ :: h.log⟩ : Record T ι) = admitted h ++ [now] := admitted_cons
    refine ⟨?_, fun t => ?_⟩
    · have hq := hmore
      rw [hqueue, List.append_assoc] at hq
      rw [expired_eq hq]
      exact hq
    · unfold inWindow
      rw [hmore, List.countP_append, List.countP_singleton]
      split
      next hnow =>
        -- what the window has beside `now` is in the deque, which has room
        have hnone : (expired h ++ gone).countP (fun reading =>
            t ≤ reading ∧ reading ≤ t + C.windowSeconds) = 0 := by
          refine List.countP_eq_zero.2 fun reading hin hwindow => hfar reading hin ?_
          exact near_of_window (of_decide_eq_true hnow) (of_decide_eq_true hwindow)
        rw [hqueue, List.countP_append, hnone, Nat.zero_add]
        exact Nat.lt_of_le_of_lt List.countP_le_length (Nat.not_le.1 hroom)
      next => exact hsound.limited t

/-! ## Every run -/

variable [DecidableEq ι]

/-- The limit holds in every run in which no call takes the lock too late. -/
theorem window_le {clock : T}
    {c : Config (Statement T) Statement.Res (RateLimitExceeded T) (Record T ι) ι Unit Unit}
    (hr : (limiterSystem C ι).Reach (NoneLate C) (.idle ⟨⟨[], clock⟩, [], []⟩) c) :
    Limited C c.shared := by
  have hsound : Sound C c.shared := by
    refine hr.shared_invariant ⟨rfl, fun t => Nat.zero_le _⟩ ?_ ?_ ?_
    · intro c i r s _ hs henter
      obtain ⟨-, rfl⟩ := recorded_enter henter
      exact ⟨hs.queue, hs.limited⟩
    · intro c i f r o k out s hok hi hs hreply
      rcases recorded_reply hreply with ⟨-, rfl⟩ | ⟨a, b, t, -, hrun, rfl⟩
      · exact hs
      · cases o with
        | monotonic =>
          obtain ⟨rfl, rfl⟩ := Prod.mk.inj (Option.some.inj hrun)
          have hsame : admitted (⟨c.shared.cur, c.shared.arrived,
              ⟨i, .monotonic, c.shared.cur.clock, c.shared.cur⟩ :: c.shared.log⟩ : Record T ι) =
              admitted c.shared := admitted_cons.trans (List.append_nil _)
          refine ⟨?_, fun t => ?_⟩
          · rw [expired_eq (hsame.trans hs.queue), hsame]
            exact hs.queue
          · unfold inWindow
            rw [hsame]
            exact hs.limited t
        | enter now =>
          obtain ⟨rfl, rfl⟩ := Prod.mk.inj (Option.some.inj hrun)
          have hnext : c.next i = some (.enter now) := by
            unfold Config.next
            rw [hi]
          exact hs.enter (hok i f now rfl hnext) rfl
    · intro c e s _ hs henv
      obtain ⟨t, ht, rfl⟩ := Option.map_eq_some_iff.1 henv
      unfold tick at ht
      split at ht
      · obtain rfl := Option.some.inj ht
        exact ⟨hs.queue, hs.limited⟩
      · cases ht
  exact hsound.limited

end Window

/-! ### Two calls in ten seconds -/

def twoInTen : Ceiling Int := ⟨2, 10⟩

/-- Every statement is executed. -/
def answered (o : Statement Int) : Reply (RateLimitExceeded Int) o.Res :=
  match o with
  | .monotonic => .ok 0
  | .enter _ => .ok true

abbrev LimiterAct := Act (Statement Int) Statement.Res (RateLimitExceeded Int) Nat Unit Int

/-- Where a run has come to. -/
def after (acts : List LimiterAct) :
    Config (Statement Int) Statement.Res (RateLimitExceeded Int) (Record Int Nat) Nat Unit Unit :=
  acts.foldl (limiterSystem twoInTen Nat).exec (.idle ⟨⟨[], 0⟩, [], []⟩)

/-- One call after the other. -/
def inTurn : List LimiterAct :=
  [.enter 0 (), .env 50, .step 0 answered, .step 0 answered,
    .enter 1 (), .env 55, .step 1 answered, .step 1 answered]

theorem inTurn_limited : (limiterSystem twoInTen Nat).Reach (NoneLate twoInTen)
    (.idle ⟨⟨[], 0⟩, [], []⟩) (after inTurn) ∧ Limited twoInTen (after inTurn).shared := by
  have hreach : (limiterSystem twoInTen Nat).Reach (NoneLate twoInTen)
      (.idle ⟨⟨[], 0⟩, [], []⟩) (after inTurn) := by
    refine .foldl inTurn .init fun n i f now _ _ reading hin => ?_
    have hnone : ∀ n : Fin inTurn.length, expired (after (inTurn.take n)).shared = [] := by
      decide +kernel
    change reading ∈ expired (after (inTurn.take n)).shared at hin
    rw [hnone n] at hin
    cases hin
  exact ⟨hreach, window_le hreach⟩

/-- Calls 0 and 1 are admitted at 50.  Call 2 reads 55, and is overtaken by call 3, which reads 100
    and expires both. -/
def overtaken : List LimiterAct :=
  [.enter 0 (), .enter 1 (), .enter 2 (), .enter 3 (),
    .env 50, .step 0 answered, .step 0 answered, .step 1 answered, .step 1 answered,
    .env 55, .step 2 answered, .env 100, .step 3 answered, .step 3 answered, .step 2 answered]

/-- Three calls are admitted between 50 and 60. -/
theorem overtaken_exceeds : ¬∀ c, (limiterSystem twoInTen Nat).Reach Sys.free
    (.idle ⟨⟨[], 0⟩, [], []⟩) c → Limited twoInTen c.shared := by
  intro hall
  have hthree : inWindow twoInTen (after overtaken).shared 50 = 3 := by decide +kernel
  have hle := hall (after overtaken) (.foldl_free overtaken .init) 50
  rw [hthree] at hle
  exact absurd hle (by decide)

end CanvasOS.Mcp
