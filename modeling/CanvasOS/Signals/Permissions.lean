/-
  `_next_standing_permission_id`: an id that is derived from what the page of signals still shows.

  1. `parseInt`, `permissionId` — `int(…)` of an id, and `f"SP-\x7bn:03d\x7d"`.
  2. `nextNumber` — one more than the highest proposal on the page, the hand-seeded ones apart.
  3. `Happening`, `after` — a history of calls, recorded proposals and rows of other kinds.
  4. `returned_eq` — while every call sees the proposal before it, the ids are counted up.
  5. `fresh_iff` — no id is returned twice exactly where every call sees the last proposal.
-/
import CanvasOS.Signals.Table

namespace CanvasOS.Signals

open Python Review

/-! ## Numbers in ids -/

/-- A run of digits, with single underscores between them. -/
def parseDigits (s : List Char) : Option Nat :=
  let groups := s.splitOnP (· == '_')
  if groups.all fun group => group ≠ [] ∧ group.all Char.isDigit then
    some (Nat.ofDigitChars 10 groups.flatten 0)
  else none

/-- `int(s)`; `none` is the ValueError.  The digits of an id are ASCII. -/
def parseInt (s : List Char) : Option Int :=
  match strip s with
  | '-' :: digits => (parseDigits digits).map fun n => -(n : Int)
  | '+' :: digits => (parseDigits digits).map fun n => (n : Int)
  | digits => (parseDigits digits).map fun n => (n : Int)

/-- `f"\x7bn:03d\x7d"` -/
def pad3 (n : Nat) : List Char :=
  List.replicate (3 - (Nat.toDigits 10 n).length) '0' ++ Nat.toDigits 10 n

/-- `f"SP-\x7bn:03d\x7d"` -/
def permissionId (n : Nat) : String := String.ofList ("SP-".toList ++ pad3 n)

/-! ## `_next_standing_permission_id` -/

/-- `STANDING_PERMISSION_PROPOSAL_SIGNAL_TYPE`. -/
def proposalSignalType : String := "standing_permission_proposal"

/-- `STANDING_PERMISSION_SEEDED_MAX`. -/
def seededMax : Int := 6

/-- The id that a proposal carries. -/
def proposedId (row : SignalRow) : String :=
  pyStr ((Json.lookup row.payload "permission_id").getD (.str ""))

/-- The number of an id: `int(permission_id[3:])`, where it begins with `SP-`. -/
def idNumber (id : String) : Option Int :=
  if "SP-".toList <+: id.toList then parseInt (id.toList.drop 3) else none

/-- The loop over the page: `highest`. -/
def highestProposed (page : List SignalRow) : Int :=
  page.foldl (fun highest row =>
    if row.signalType = proposalSignalType then
      (idNumber (proposedId row)).elim highest (max highest)
    else highest) seededMax

/-- `_next_standing_permission_id`. -/
def nextPermissionId (table : List SignalRow) : String :=
  permissionId (highestProposed (listSignals lifecycleSignalLookback table) + 1).toNat

/-! ## Ids and their numbers -/

variable {page table : List SignalRow} {row : SignalRow} {n m : Nat} {id : String}

theorem isDigit_pad3 : ∀ c ∈ pad3 n, c.isDigit = true := by
  intro c hc
  rcases List.mem_append.1 hc with hzero | hdigit
  · rw [List.eq_of_mem_replicate hzero]
    rfl
  · exact Nat.isDigit_of_mem_toDigits (by decide) (by decide) hdigit

theorem not_isSpace_of_isDigit {c : Char} (h : c.isDigit = true) : isSpace c = false := by
  have hc : 48 ≤ c.toNat ∧ c.toNat ≤ 57 := Char.isDigit_iff_toNat.1 h
  unfold isSpace
  simp only [Bool.or_eq_false_iff, Bool.and_eq_false_iff, decide_eq_false_iff_not,
    beq_eq_false_iff_ne]
  omega

theorem dropWhile_digits {l : List Char} (h : ∀ c ∈ l, c.isDigit = true) :
    l.dropWhile isSpace = l := by
  cases l with
  | nil => rfl
  | cons c l =>
    rw [List.dropWhile_cons_of_neg]
    simp [not_isSpace_of_isDigit (h c List.mem_cons_self)]

theorem strip_digits {l : List Char} (h : ∀ c ∈ l, c.isDigit = true) : strip l = l := by
  rw [strip, dropWhile_digits h, dropWhile_digits fun c hc => h c (List.mem_reverse.1 hc),
    List.reverse_reverse]

/-- Leading zeros count for nothing. -/
theorem ofDigitChars_zeros (k : Nat) (l : List Char) :
    Nat.ofDigitChars 10 (List.replicate k '0' ++ l) 0 = Nat.ofDigitChars 10 l 0 := by
  induction k with
  | zero => rfl
  | succ k ih => simpa [List.replicate_succ, Nat.ofDigitChars] using ih

/-- The number of an id that was made of a number. -/
theorem idNumber_permissionId (n : Nat) : idNumber (permissionId n) = some (n : Int) := by
  have hdigits : ∀ c ∈ pad3 n, c.isDigit = true := isDigit_pad3
  have hne : pad3 n ≠ [] := by simp [pad3]
  have hgroups : (pad3 n).splitOnP (· == '_') = [pad3 n] := by
    refine List.splitOnP_eq_singleton fun c hc => ?_
    have hdigit := hdigits c hc
    by_cases heq : c = '_'
    · rw [heq] at hdigit
      cases hdigit
    · simpa using heq
  have hparse : parseDigits (pad3 n) = some n := by
    unfold parseDigits
    simp only [hgroups]
    rw [if_pos (by simpa [hne] using hdigits), List.flatten_singleton, pad3, ofDigitChars_zeros,
      Nat.ofDigitChars_ten_toDigits]
  have hdrop : (permissionId n).toList.drop 3 = pad3 n := by
    rw [permissionId, String.toList_ofList]
    rfl
  have hfront : "SP-".toList <+: (permissionId n).toList := by simp [permissionId]
  rw [idNumber, if_pos hfront, hdrop, parseInt, strip_digits hdigits]
  cases hpad : pad3 n with
  | nil => exact absurd hpad hne
  | cons c l =>
    have hdigit : c.isDigit = true := hdigits c (by rw [hpad]; exact List.mem_cons_self)
    rw [← hpad]
    split
    · next heq =>
      rw [hpad] at heq
      rw [(List.cons.inj heq).1] at hdigit
      cases hdigit
    · next heq =>
      rw [hpad] at heq
      rw [(List.cons.inj heq).1] at hdigit
      cases hdigit
    · rw [hparse]
      rfl

theorem permissionId_inj (h : permissionId n = permissionId m) : n = m := by
  have hnumber := congrArg idNumber h
  rw [idNumber_permissionId, idNumber_permissionId] at hnumber
  exact Int.ofNat.inj (Option.some.inj hnumber)

/-! ## The highest proposal -/

/-- The number of the proposal that a row records. -/
def proposedNumber (row : SignalRow) : Option Int :=
  if row.signalType = proposalSignalType then idNumber (proposedId row) else none

theorem highestProposed_eq (page : List SignalRow) :
    highestProposed page = (page.filterMap proposedNumber).foldl max seededMax := by
  unfold highestProposed
  generalize seededMax = highest
  induction page generalizing highest with
  | nil => rfl
  | cons row page ih =>
    rw [List.foldl_cons, List.filterMap_cons, ih]
    by_cases htype : row.signalType = proposalSignalType
    · cases hnumber : idNumber (proposedId row) with
      | none => simp [proposedNumber, htype, hnumber]
      | some k => simp [proposedNumber, htype, hnumber]
    · simp [proposedNumber, htype]

theorem le_foldl_max (l : List Int) (k : Int) : k ≤ l.foldl max k ∧ ∀ x ∈ l, x ≤ l.foldl max k := by
  induction l generalizing k with
  | nil => exact ⟨Int.le_refl k, fun x hx => (nomatch hx)⟩
  | cons y l ih =>
    obtain ⟨hk, hl⟩ := ih (max k y)
    refine ⟨by rw [List.foldl_cons]; omega, fun x hx => ?_⟩
    rcases List.mem_cons.1 hx with rfl | hx
    · rw [List.foldl_cons]
      omega
    · exact hl x hx

theorem foldl_max_le {l : List Int} {k b : Int} (hk : k ≤ b) (hl : ∀ x ∈ l, x ≤ b) :
    l.foldl max k ≤ b := by
  induction l generalizing k with
  | nil => exact hk
  | cons y l ih =>
    have hy := hl y List.mem_cons_self
    exact ih (by omega) fun x hx => hl x (.tail y hx)

/-- The seeded ids are below the highest. -/
theorem seededMax_le (page : List SignalRow) : seededMax ≤ highestProposed page := by
  rw [highestProposed_eq]
  exact (le_foldl_max _ _).1

theorem le_highestProposed {k : Int} (hrow : row ∈ page) (hnumber : proposedNumber row = some k) :
    k ≤ highestProposed page := by
  rw [highestProposed_eq]
  exact (le_foldl_max _ _).2 k (List.mem_filterMap.2 ⟨row, hrow, hnumber⟩)

theorem highestProposed_le {b : Int} (hb : seededMax ≤ b)
    (hall : ∀ row ∈ page, ∀ k, proposedNumber row = some k → k ≤ b) : highestProposed page ≤ b := by
  rw [highestProposed_eq]
  refine foldl_max_le hb fun k hk => ?_
  obtain ⟨row, hrow, hnumber⟩ := List.mem_filterMap.1 hk
  exact hall row hrow k hnumber

/-! ## Histories -/

/-- What happens to the table of signals, as far as ids go. -/
inductive Happening where
  /-- `_next_standing_permission_id` returns an id -/
  | called
  /-- the handler records a proposal -/
  | recorded (row : SignalRow)
  /-- somebody writes a row of another kind -/
  | other (row : SignalRow)

/-- The table, newest first, and the ids returned so far, the last one first. -/
structure Learner where
  table : List SignalRow
  returned : List String

/-- One happening. -/
def Learner.step (s : Learner) : Happening → Learner
  | .called => { s with returned := nextPermissionId s.table :: s.returned }
  | .recorded row => { s with table := row :: s.table }
  | .other row => { s with table := row :: s.table }

/-- A history, the latest happening first. -/
def after : List Happening → Learner
  | [] => ⟨[], []⟩
  | e :: es => (after es).step e

/-- What is recorded as a proposal is an id that was returned, and other rows are none. -/
def Happening.possible (s : Learner) : Happening → Prop
  | .called => True
  | .recorded row => row.signalType = proposalSignalType ∧ proposedId row ∈ s.returned
  | .other row => row.signalType ≠ proposalSignalType

/-- A history that can come about. -/
def Possible : List Happening → Prop
  | [] => True
  | e :: es => e.possible (after es) ∧ Possible es

/-- The proposal of the id that was returned last is on the page. -/
def Learner.SeesLast (s : Learner) : Prop :=
  ∀ id ∈ s.returned.head?, ∃ row ∈ listSignals lifecycleSignalLookback s.table,
    row.signalType = proposalSignalType ∧ proposedId row = id

/-- Every call sees the proposal of the call before it. -/
def EachSeesLast : List Happening → Prop
  | [] => True
  | .called :: es => (after es).SeesLast ∧ EachSeesLast es
  | _ :: es => EachSeesLast es

variable {es : List Happening}

/-- The ids counted up from the first that is not seeded, the last one first. -/
def countedUp (k : Nat) : List String := (List.range k).reverse.map fun i => permissionId (i + 7)

theorem mem_countedUp {k : Nat} : id ∈ countedUp k ↔ ∃ i < k, id = permissionId (i + 7) := by
  simp [countedUp, eq_comm]

theorem countedUp_succ (k : Nat) : countedUp (k + 1) = permissionId (k + 7) :: countedUp k := by
  simp [countedUp, List.range_succ]

/-- What is recorded was returned. -/
theorem proposed_returned (h : Possible es) : ∀ row ∈ (after es).table,
    row.signalType = proposalSignalType → proposedId row ∈ (after es).returned := by
  induction es with
  | nil => exact fun row hrow => (nomatch hrow)
  | cons e es ih =>
    have hold := ih h.2
    intro row hrow htype
    cases e with
    | called => exact List.mem_cons_of_mem _ (hold row hrow htype)
    | recorded new =>
      rcases List.mem_cons.1 hrow with rfl | hrow
      · exact h.1.2
      · exact hold row hrow htype
    | other new =>
      rcases List.mem_cons.1 hrow with rfl | hrow
      · exact absurd htype h.1
      · exact hold row hrow htype

/-- The next id, where the ids so far were counted up: one further, where the last proposal is on
    the page, and one of the old ones otherwise. -/
theorem nextPermissionId_of_countedUp (h : Possible es) {k : Nat}
    (hcounted : (after es).returned = countedUp k) :
    ((after es).SeesLast → nextPermissionId (after es).table = permissionId (k + 7)) ∧
      (¬ (after es).SeesLast → nextPermissionId (after es).table ∈ (after es).returned) := by
  have hreturned := proposed_returned h
  rw [hcounted] at hreturned
  -- a proposal on the page has one of the numbers so far
  have hnumbers : ∀ row ∈ listSignals lifecycleSignalLookback (after es).table, ∀ n,
      proposedNumber row = some n → ∃ i < k, n = ((i + 7 : Nat) : Int) ∧
        proposedId row = permissionId (i + 7) ∧ row.signalType = proposalSignalType := by
    intro row hrow n hn
    unfold proposedNumber at hn
    split at hn
    · next htype =>
      obtain ⟨i, hi, hid⟩ := mem_countedUp.1 (hreturned row (mem_of_mem_page hrow) htype)
      rw [hid, idNumber_permissionId] at hn
      exact ⟨i, hi, (Option.some.inj hn).symm, hid, htype⟩
    · cases hn
  have hlow := seededMax_le (listSignals lifecycleSignalLookback (after es).table)
  have hseeded : seededMax = 6 := rfl
  unfold nextPermissionId
  constructor
  · intro hsees
    have hhigh : highestProposed (listSignals lifecycleSignalLookback (after es).table) =
        ((k + 6 : Nat) : Int) := by
      refine Int.le_antisymm (highestProposed_le (by omega) fun row hrow n hn => ?_) ?_
      · obtain ⟨i, hi, rfl, -⟩ := hnumbers row hrow n hn
        omega
      · cases k with
        | zero => omega
        | succ k =>
          obtain ⟨row, hrow, htype, hid⟩ := hsees (permissionId (k + 7)) (by
            rw [hcounted, countedUp_succ]
            rfl)
          have hnumber : proposedNumber row = some ((k + 7 : Nat) : Int) := by
            rw [proposedNumber, if_pos htype, hid, idNumber_permissionId]
          have hle := le_highestProposed hrow hnumber
          omega
    rw [hhigh]
    congr 1
  · intro hnot
    have hpos : 0 < k := by
      refine Nat.pos_of_ne_zero fun hzero => hnot fun id hid => ?_
      rw [hcounted, hzero] at hid
      cases hid
    have hhigh : highestProposed (listSignals lifecycleSignalLookback (after es).table) ≤
        ((k + 5 : Nat) : Int) := by
      refine highestProposed_le (by omega) fun row hrow n hn => ?_
      obtain ⟨i, hi, rfl, hid, htype⟩ := hnumbers row hrow n hn
      have hne : i + 1 ≠ k := by
        rintro rfl
        refine hnot fun id hlast => ⟨row, hrow, htype, ?_⟩
        rw [hcounted, countedUp_succ] at hlast
        rw [hid]
        exact Option.some.inj hlast
      omega
    rw [hcounted]
    refine mem_countedUp.2 ⟨(highestProposed (listSignals lifecycleSignalLookback
      (after es).table) - 6).toNat, by omega, ?_⟩
    congr 1
    omega

/-- While every call sees the last proposal, the ids are counted up. -/
theorem returned_eq (h : Possible es) (hsees : EachSeesLast es) :
    ∃ k, (after es).returned = countedUp k := by
  induction es with
  | nil => exact ⟨0, rfl⟩
  | cons e es ih =>
    cases e with
    | called =>
      obtain ⟨k, hk⟩ := ih h.2 hsees.2
      refine ⟨k + 1, ?_⟩
      show nextPermissionId (after es).table :: (after es).returned = _
      rw [(nextPermissionId_of_countedUp h.2 hk).1 hsees.1, hk, countedUp_succ]
    | recorded row => exact ih h.2 hsees
    | other row => exact ih h.2 hsees

theorem countedUp_nodup (k : Nat) : (countedUp k).Nodup := by
  refine List.Nodup.map_on (fun i _ j _ h => ?_) (List.nodup_reverse.2 List.nodup_range)
  have hij := permissionId_inj h
  omega

/-- No id is returned twice exactly where every call finds the proposal of the call before it among
    the newest rows: recorded, and not pushed out by rows of other kinds. -/
theorem fresh_iff (es : List Happening) (h : Possible es) :
    (after es).returned.Nodup ↔ EachSeesLast es := by
  constructor
  · intro hnodup
    induction es with
    | nil => trivial
    | cons e es ih =>
      cases e with
      | called =>
        obtain ⟨hnew, hold⟩ := List.nodup_cons.1 hnodup
        have hsees := ih h.2 hold
        obtain ⟨k, hk⟩ := returned_eq h.2 hsees
        refine ⟨?_, hsees⟩
        by_contra hnot
        exact hnew ((nextPermissionId_of_countedUp h.2 hk).2 hnot)
      | recorded row => exact ih h.2 hnodup
      | other row => exact ih h.2 hnodup
  · intro hsees
    obtain ⟨k, hk⟩ := returned_eq h hsees
    rw [hk]
    exact countedUp_nodup k

/-- A proposal under an id. -/
def proposal (id : String) : SignalRow := ⟨proposalSignalType, [("permission_id", .str id)], 0⟩

/-- A row of another writer. -/
def scanRow : SignalRow := ⟨"scan_batch", [], 0⟩

/-- Two calls, the first of them recorded, with a row of another writer in between. -/
def quiet : List Happening :=
  [.called, .other scanRow, .recorded (proposal "SP-007"), .called]

theorem scanRow_ne : scanRow.signalType ≠ proposalSignalType := by decide

theorem possible_recorded : Possible [.recorded (proposal "SP-007"), .called] :=
  ⟨⟨rfl, by decide +kernel⟩, trivial, trivial⟩

theorem quiet_fresh : (after quiet).returned = ["SP-008", "SP-007"] ∧
    (after quiet).returned.Nodup := by
  refine ⟨by decide +kernel, (fresh_iff quiet ⟨trivial, scanRow_ne, possible_recorded⟩).2 ?_⟩
  refine ⟨fun id hid => ⟨proposal "SP-007", by decide +kernel, rfl, ?_⟩,
    fun id hid => (nomatch hid), trivial⟩
  obtain rfl : "SP-007" = id := Option.some.inj hid
  decide +kernel

/-- The same with five hundred such rows. -/
def crowded : List Happening :=
  .called :: List.replicate 500 (.other scanRow) ++ [.recorded (proposal "SP-007"), .called]

theorem possible_replicate {es : List Happening} (h : Possible es) (n : Nat) :
    Possible (List.replicate n (.other scanRow) ++ es) := by
  induction n with
  | zero => exact h
  | succ n ih =>
    rw [List.replicate_succ, List.cons_append]
    exact ⟨scanRow_ne, ih⟩

/-- The proposal has left the page: the id is returned again. -/
theorem crowded_reuses : ¬ ∀ es, Possible es → (after es).returned.Nodup := by
  intro h
  have hpossible : Possible crowded :=
    ⟨trivial, possible_replicate possible_recorded 500⟩
  have hreturned : (after crowded).returned = ["SP-007", "SP-007"] := by decide +kernel
  have hnodup := h crowded hpossible
  rw [hreturned] at hnodup
  exact absurd hnodup (by decide)

end CanvasOS.Signals
