/-
  What a routine may ASK, given the replies to what it has asked before.

  1. `Asks p l o` — under the replies `l`, the routine `p` comes to the statement `o`.
  2. `p.Sure P Q E l` — from the replies `l` on, every statement that `p` comes to meets `P` of the
     replies before it, and `p` ends as `Q` or, with an exception, as `E` says of all of them.  One
     rule for each combinator; behind a sequence the replies so far are still there (`Sure.bind`).
     A given way to answer makes a transcript (`ran_transcript`, `asks_transcript`).
  3. `Sys.asks_of_replies` — what a run of a system has replied to, the routine of the thread has
     asked under the replies before it.
  4. `Sys.Records` — a record in the state that statements add to and nothing takes from.  It has
     what the statements of some thread have written, and nothing else (`Sys.Records.has_iff`).
-/
import CanvasOS.Lib.Replies

namespace Interleave

variable {Op Op' : Type} {Res : Op → Type} {Res' : Op' → Type} {ε S α β : Type}

/-! ## Statements under given replies -/

/-- `p`, given the replies `l`, comes to the statement `o`. -/
inductive Asks : Prog Op Res ε α → Replies Op Res ε → Op → Prop where
  | now (o : Op) (k : Except ε (Res o) → Prog Op Res ε α) : Asks (.op o k) [] o
  | later {o o' : Op} {k : Except ε (Res o) → Prog Op Res ε α} (r : Reply ε (Res o))
      {l : Replies Op Res ε} (h : Asks (k r.out) l o') : Asks (.op o k) (⟨o, r⟩ :: l) o'

/-- `p`, given the replies `l`, came to each of these statements in turn. -/
def Asked (p : Prog Op Res ε α) (l : Replies Op Res ε) : Prop :=
  ∀ l₁ x l₂, l = l₁ ++ x :: l₂ → Asks p l₁ x.1

/-! ## Judgements -/

namespace Prog

/-- From the replies `l` on, the statements of `p` meet `P`, its normal ends `Q` and its exceptions
    `E`, each of the replies up to there. -/
def Sure (P : Replies Op Res ε → Op → Prop) (Q : α → Replies Op Res ε → Prop)
    (E : ε → Replies Op Res ε → Prop) : Prog Op Res ε α → Replies Op Res ε → Prop
  | .pure a, l => Q a l
  | .throw e, l => E e l
  | .op o k, l => P l o ∧ ∀ r : Reply ε (Res o), (k r.out).Sure P Q E (l ++ [⟨o, r⟩])

variable {P : Replies Op Res ε → Op → Prop} {Q : α → Replies Op Res ε → Prop}
  {R : β → Replies Op Res ε → Prop} {E F : ε → Replies Op Res ε → Prop}
  {l l' : Replies Op Res ε} {p : Prog Op Res ε α}

theorem Sure.asks (h : p.Sure P Q E l) {o : Op} (ha : Asks p l' o) : P (l ++ l') o := by
  induction ha generalizing l with
  | now o k =>
    rw [List.append_nil]
    exact h.1
  | later r _ ih =>
    have hrest := ih (h.2 r)
    rwa [List.append_assoc] at hrest

theorem Sure.mono {P' : Replies Op Res ε → Op → Prop} {Q' : α → Replies Op Res ε → Prop}
    (h : p.Sure P Q E l) (hP : ∀ l o, P l o → P' l o) (hQ : ∀ a l', l <+: l' → Q a l' → Q' a l')
    (hE : ∀ e l', l <+: l' → E e l' → F e l') : p.Sure P' Q' F l := by
  induction p generalizing l with
  | pure a => exact hQ a l (List.prefix_refl l) h
  | throw e => exact hE e l (List.prefix_refl l) h
  | op o k ih =>
    refine ⟨hP l o h.1, fun r => ih r.out (h.2 r) (fun a l' hl => hQ a l' ?_)
      fun e l' hl => hE e l' ?_⟩
    · exact (List.prefix_append l _).trans hl
    · exact (List.prefix_append l _).trans hl

/-- The replies so far are among the later ones. -/
theorem Sure.extending (h : p.Sure P Q E l) :
    p.Sure P (fun a l' => l <+: l' ∧ Q a l') (fun e l' => l <+: l' ∧ E e l') l :=
  h.mono (fun _ _ h => h) (fun _ _ hl h => ⟨hl, h⟩) fun _ _ hl h => ⟨hl, h⟩

theorem Sure.bind {x : Prog Op Res ε β} {f : β → Prog Op Res ε α} (hx : x.Sure P R E l)
    (hf : ∀ b l', l <+: l' → R b l' → (f b).Sure P Q E l') : (x.bind f).Sure P Q E l := by
  induction x generalizing l with
  | pure b => exact hf b l (List.prefix_refl l) hx
  | throw e => exact hx
  | op o k ih =>
    exact ⟨hx.1, fun r => ih r.out (hx.2 r) fun b l' hl =>
      hf b l' ((List.prefix_append l _).trans hl)⟩

theorem Sure.tryCatch {x : Prog Op Res ε α} {h : ε → Prog Op Res ε α} (hx : x.Sure P Q F l)
    (hh : ∀ e l', l <+: l' → F e l' → (h e).Sure P Q E l') : (x.tryCatch h).Sure P Q E l := by
  induction x generalizing l with
  | pure a => exact hx
  | throw e => exact hh e l (List.prefix_refl l) hx
  | op o k ih =>
    exact ⟨hx.1, fun r => ih r.out (hx.2 r) fun e l' hl =>
      hh e l' ((List.prefix_append l _).trans hl)⟩

/-- One statement, its exception propagated. -/
theorem Sure.perform {o : Op} {Q : Res o → Replies Op Res ε → Prop} (ho : P l o)
    (hok : ∀ a, Q a (l ++ [⟨o, .ok a⟩]))
    (herr : ∀ r e, r.out = .error e → E e (l ++ [⟨o, r⟩])) :
    (Prog.perform o : Prog Op Res ε (Res o)).Sure P Q E l := by
  refine ⟨ho, fun r => ?_⟩
  cases r with
  | ok a => exact hok a
  | failed e => exact herr (.failed e) e rfl
  | lost a e => exact herr (.lost a e) e rfl

/-- One statement and what comes behind it, where no exception is of interest. -/
theorem Sure.step {o : Op} {f : Res o → Prog Op Res ε α} (ho : P l o)
    (hf : ∀ a, (f a).Sure P Q (fun _ _ => True) (l ++ [⟨o, .ok a⟩])) :
    ((Prog.perform o).bind f).Sure P Q (fun _ _ => True) l :=
  (Sure.perform (Q := fun a l' => l' = l ++ [⟨o, .ok a⟩]) ho (fun _ => rfl)
    fun _ _ _ => trivial).bind fun a _ _ hl => hl ▸ hf a

end Prog

/-- What is asked, and what becomes of the routine, where each statement is answered by `f`. -/
def Prog.transcript (f : ∀ o : Op, Reply ε (Res o)) :
    Prog Op Res ε α → Replies Op Res ε × Except ε α
  | .pure a => ([], .ok a)
  | .throw e => ([], .error e)
  | .op o k => (⟨o, f o⟩ :: ((k (f o).out).transcript f).1, ((k (f o).out).transcript f).2)

theorem ran_transcript (f : ∀ o : Op, Reply ε (Res o)) (p : Prog Op Res ε α) :
    Ran p (p.transcript f).1 (p.transcript f).2 := by
  induction p with
  | pure a => exact .pure a
  | throw e => exact .throw e
  | op o k ih => exact .op (f o) (ih (f o).out)

theorem asks_transcript {f : ∀ o : Op, Reply ε (Res o)} {p : Prog Op Res ε α} {n : Nat} {o : Op}
    (h : (p.transcript f).1[n]?.map Sigma.fst = some o) :
    Asks p ((p.transcript f).1.take n) o := by
  induction p generalizing n with
  | pure a | throw e => cases h
  | op o' k ih =>
    cases n with
    | zero =>
      obtain rfl := Option.some.inj h
      exact .now o' k
    | succ n => exact .later (f o') (ih (f o').out h)

/-- What was replied to is what the routine can reach. -/
theorem Ran.only {C : Op → Prop} {p : Prog Op Res ε α} {l : Replies Op Res ε} {out : Except ε α}
    (h : Ran p l out) (hp : p.Only C) : ∀ x ∈ l, C x.1 := by
  induction h with
  | pure a | throw e => exact fun x hx => absurd hx List.not_mem_nil
  | op r _ ih =>
    intro x hx
    rcases List.mem_cons.1 hx with rfl | hx
    · exact hp.1
    · exact ih (hp.2 r.out) x hx

/-! ## In a system -/

namespace Sys

variable {ι ρ A X : Type} [DecidableEq ι] {M : Sys Op Res ε S ι ρ α A}
  {c : Config Op Res ε S ι ρ α}

/-- How thread `i` stands after the replies `l`: its routine asked for all of them, and what is left
    of it asks what the routine does. -/
def Came (body : ρ → Prog Op Res ε α) (l : Replies Op Res ε) :
    Option (ρ × Option (Prog Op Res ε α)) → Prop
  | none => l = []
  | some (r, none) => Asked (body r) l
  | some (r, some q) => Asked (body r) l ∧ ∀ l' o, Asks q l' o → Asks (body r) (l ++ l') o

omit [DecidableEq ι] in
theorem Came.asked {l : Replies Op Res ε} {r : ρ} {q : Option (Prog Op Res ε α)}
    (h : Came M.body l (some (r, q))) : Asked (M.body r) l := by
  cases q with
  | none => exact h
  | some q => exact h.1

theorem asked_append {p : Prog Op Res ε α} {l : Replies Op Res ε}
    {x : (o : Op) × Reply ε (Res o)} (h : Asked p l) (hx : Asks p l x.1) : Asked p (l ++ [x]) := by
  intro l₁ y l₂ heq
  rcases List.append_eq_append_iff.1 heq with ⟨m, rfl, hm⟩ | ⟨m, rfl, hm⟩
  · cases m with
    | nil =>
      obtain ⟨rfl, -⟩ := List.cons.inj hm
      rwa [List.append_nil]
    | cons z m =>
      obtain ⟨-, hnil⟩ := List.cons.inj hm
      exact absurd hnil (by simp)
  · cases m with
    | nil =>
      obtain ⟨rfl, -⟩ := List.cons.inj hm
      rwa [List.append_nil] at hx
    | cons z m =>
      obtain ⟨rfl, -⟩ := List.cons.inj hm
      exact h l₁ y m rfl

theorem Came.exec {i : ι} {l : Replies Op Res ε} (h : Came M.body l (c.thread i))
    (a : Act Op Res ε ι ρ A) :
    Came M.body (l ++ (M.replyTo i c a).toList) ((M.exec c a).thread i) := by
  have hother : ∀ (s : S) (j : ι) (r : ρ) (q : Option (Prog Op Res ε α)), j ≠ i →
      Came M.body l ((c.put s j r q).thread i) := by
    intro s j r q hj
    have hsame : (c.put s j r q).thread i = c.thread i :=
      Function.update_of_ne (Ne.symm hj) _ _
    rw [hsame]
    exact h
  have hself : ∀ (s : S) (r : ρ) (q : Option (Prog Op Res ε α)),
      (c.put s i r q).thread i = some (r, q) := fun s r q => Function.update_self _ _ _
  cases a with
  | enter j r =>
    simp only [replyTo, Option.toList_none, List.append_nil, Sys.exec]
    split
    · next hnone _ =>
      by_cases hj : j = i
      · subst hj
        rw [hnone] at h
        obtain rfl : l = [] := h
        rw [hself]
        exact ⟨fun l₁ x l₂ heq => absurd heq (by simp), fun _ _ hasks => hasks⟩
      · exact hother _ j r _ hj
    · exact h
  | crash j =>
    simp only [replyTo, Option.toList_none, List.append_nil, Sys.exec]
    split
    · next hj =>
      by_cases hji : j = i
      · subst hji
        rw [hj] at h
        rw [hself]
        exact h.asked
      · exact hother _ j _ _ hji
    · exact h
  | env e =>
    simp only [replyTo, Option.toList_none, List.append_nil, Sys.exec]
    split <;> exact h
  | step j f =>
    by_cases hj : j = i
    · subst hj
      simp only [replyTo, if_pos, Sys.exec]
      split
      · next r o k hi =>
        rw [hi] at h
        simp only [hi, Reply.apply_eq_given]
        cases hgiven : (f o).given (M.run j o) c.shared with
        | none =>
          simp only [Option.map_none, Option.toList_none, List.append_nil, hi]
          exact h
        | some x =>
          simp only [Option.map_some, Option.toList_some, hself]
          -- the next reply belongs to the next statement
          have hnow : Asks (M.body r) l o := by
            have hfirst := h.2 [] o (.now o k)
            rwa [List.append_nil] at hfirst
          refine ⟨asked_append h.1 hnow, fun l' o' hasks => ?_⟩
          rw [List.append_assoc]
          exact h.2 _ o' (.later x.1 hasks)
      · simp only [Option.toList_none, List.append_nil]
        exact h
    · simp only [replyTo, if_neg hj, Option.toList_none, List.append_nil, Sys.exec]
      split
      · split
        · exact hother _ j _ _ hj
        · exact h
      · exact h

theorem Came.run {i : ι} (as : List (Act Op Res ε ι ρ A)) {l : Replies Op Res ε}
    (h : Came M.body l (c.thread i)) :
    Came M.body (l ++ M.replies i c as) ((as.foldl M.exec c).thread i) := by
  induction as generalizing c l with
  | nil =>
    rw [replies, List.append_nil]
    exact h
  | cons a as ih =>
    rw [replies, ← List.append_assoc]
    exact ih (h.exec a)

/-- A statement that was replied to is one that the routine of its thread came to, under the replies
    before it. -/
theorem asks_of_replies {s₀ : S} {as : List (Act Op Res ε ι ρ A)} {i : ι}
    {l₁ l₂ : Replies Op Res ε} {x : (o : Op) × Reply ε (Res o)}
    (h : M.replies i (.idle s₀) as = l₁ ++ x :: l₂) :
    ∃ r q, (as.foldl M.exec (.idle s₀)).thread i = some (r, q) ∧ Asks (M.body r) l₁ x.1 := by
  have hstart : Came M.body [] ((Config.idle s₀ : Config Op Res ε S ι ρ α).thread i) := rfl
  have hend := hstart.run as
  rw [List.nil_append] at hend
  cases hthread : (as.foldl M.exec (.idle s₀)).thread i with
  | none =>
    rw [hthread] at hend
    have hnil : M.replies i (.idle s₀) as = [] := hend
    rw [hnil] at h
    exact absurd h (by simp)
  | some t =>
    obtain ⟨r, q⟩ := t
    rw [hthread] at hend
    exact ⟨r, q, rfl, hend.asked l₁ x l₂ h⟩

/-! ### Records -/

/-- What the state has on record: an executed statement adds to it as its answer says, and nothing
    is taken from it. -/
structure Records (M : Sys Op Res ε S ι ρ α A) (has : X → S → Prop)
    (writes : X → (o : Op) → Res o → Prop) : Prop where
  enter : ∀ x j r s s', M.enter j r s = some s' → (has x s' ↔ has x s)
  env : ∀ x e s s', M.env e s = some s' → (has x s' ↔ has x s)
  run : ∀ x j o a b s s', M.run j o a s = some (b, s') → (has x s' ↔ has x s ∨ writes x o b)

/-- The reply was given to a statement that wrote `x`, whether or not its caller heard of it. -/
def Wrote (writes : X → (o : Op) → Res o → Prop) (x : X)
    (y : (o : Op) × Reply ε (Res o)) : Prop :=
  ∃ b, (y.2 = .ok b ∨ ∃ e, y.2 = .lost b e) ∧ writes x y.1 b

variable {has : X → S → Prop} {writes : X → (o : Op) → Res o → Prop}

omit [DecidableEq ι] in
theorem Records.given (h : Records M has writes) {x : X} {j : ι} {o : Op}
    {r r' : Reply ε (Res o)} {s s' : S} (hr : r.given (M.run j o) s = some (r', s')) :
    has x s' ↔ has x s ∨ Wrote writes x ⟨o, r'⟩ := by
  cases r with
  | ok a =>
    obtain ⟨⟨b, t⟩, hrun, heq⟩ := Option.map_eq_some_iff.1 hr
    obtain ⟨rfl, rfl⟩ := Prod.mk.inj heq
    rw [h.run x j o a b s t hrun]
    simp [Wrote]
  | failed e =>
    obtain ⟨rfl, rfl⟩ := Prod.mk.inj (Option.some.inj hr)
    simp [Wrote]
  | lost a e =>
    obtain ⟨⟨b, t⟩, hrun, heq⟩ := Option.map_eq_some_iff.1 hr
    obtain ⟨rfl, rfl⟩ := Prod.mk.inj heq
    rw [h.run x j o a b s t hrun]
    simp [Wrote]

theorem Records.exec (h : Records M has writes) (x : X) (a : Act Op Res ε ι ρ A) :
    has x (M.exec c a).shared ↔
      has x c.shared ∨ ∃ i, ∃ y ∈ (M.replyTo i c a).toList, Wrote writes x y := by
  cases a with
  | enter j r =>
    simp only [Sys.exec, replyTo, Option.toList_none, List.not_mem_nil, false_and, exists_false,
      or_false]
    split
    · exact h.enter x j r _ _ ‹_›
    · rfl
  | crash j =>
    simp only [Sys.exec, replyTo, Option.toList_none, List.not_mem_nil, false_and, exists_false,
      or_false]
    split <;> rfl
  | env e =>
    simp only [Sys.exec, replyTo, Option.toList_none, List.not_mem_nil, false_and, exists_false,
      or_false]
    split
    · exact h.env x e _ _ ‹_›
    · rfl
  | step j f =>
    -- only thread `j` can get a reply
    have hone : (∃ i, ∃ y ∈ (M.replyTo i c (.step j f)).toList, Wrote writes x y) ↔
        ∃ y ∈ (M.replyTo j c (.step j f)).toList, Wrote writes x y := by
      constructor
      · rintro ⟨i, y, hy, hw⟩
        by_cases hji : j = i
        · subst hji
          exact ⟨y, hy, hw⟩
        · simp only [replyTo, if_neg hji, Option.toList_none, List.not_mem_nil] at hy
      · rintro ⟨y, hy, hw⟩
        exact ⟨j, y, hy, hw⟩
    rw [hone]
    rcases hj : c.thread j with _ | ⟨r, _ | _ | _ | ⟨o, k⟩⟩
    case some.some.op =>
      simp only [Sys.exec, replyTo, hj, if_pos, Reply.apply_eq_given]
      cases hgiven : (f o).given (M.run j o) c.shared with
      | none => simp
      | some y =>
        have hhas := h.given (x := x) hgiven
        simpa [hgiven, Config.put] using hhas
    -- there is nothing to reply to
    all_goals simp [Sys.exec, replyTo, hj]

/-- The record has what it had, and what was written by the statements of some thread. -/
theorem Records.has_iff (h : Records M has writes) (x : X) (as : List (Act Op Res ε ι ρ A)) :
    has x (as.foldl M.exec c).shared ↔
      has x c.shared ∨ ∃ i, ∃ y ∈ M.replies i c as, Wrote writes x y := by
  induction as generalizing c with
  | nil =>
    simp only [List.foldl_nil, replies, List.not_mem_nil, false_and, exists_false, or_false]
  | cons a as ih =>
    rw [List.foldl_cons, ih, h.exec x a, or_assoc]
    refine or_congr_right ?_
    simp only [replies, List.mem_append, or_and_right, exists_or]

/-- What an answered statement has written is on record. -/
theorem Records.of_reply (h : Records M has writes) {x : X} {as : List (Act Op Res ε ι ρ A)} {i : ι}
    {o : Op} {b : Res o} (hy : ⟨o, .ok b⟩ ∈ M.replies i c as) (hw : writes x o b) :
    has x (as.foldl M.exec c).shared :=
  (h.has_iff x as).2 (.inr ⟨i, _, hy, b, .inl rfl, hw⟩)

end Sys

end Interleave
