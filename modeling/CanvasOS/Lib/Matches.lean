/-
  What a regular expression matches, told by the text it takes.

  1. `wordAfter` — whether a word character stands in front, behind a piece of text.
  2. `Regex.Match` — the piece that one match takes, with what follows it.
  3. `mem_ends_iff`, `search_iff` — the places where a match can end, and the search, in these terms.
  4. `match_exactly` — a text without choices matches itself.
-/
import CanvasOS.Lib.Regex

namespace Python

variable {U : Unicode} {cls : CharClass} {r a b : Regex} {w : Bool} {c : Char}
  {s t m : List Char} {least : Nat} {most : Option Nat} {e : Bool × List Char}

/-- The flag of `ends` behind the piece `m`. -/
def wordAfter (U : Unicode) (w : Bool) (m : List Char) : Bool := m.foldl (fun _ c => U.word c) w

theorem wordAfter_append (w : Bool) (m s : List Char) :
    wordAfter U w (m ++ s) = wordAfter U (wordAfter U w m) s := List.foldl_append

/-- A match takes the piece `m` in front of `t`. -/
def Regex.Match (U : Unicode) : Regex → Bool → List Char → List Char → Prop
  | .chars cls least most, _, m, _ =>
    (∀ c ∈ m, cls.holds U c = true) ∧ least ≤ m.length ∧ ∀ n ∈ most, m.length ≤ n
  | .boundary, w, m, t => m = [] ∧ w ≠ headWord U t
  | .seq a b, w, m, t => ∃ front back, m = front ++ back ∧ a.Match U w front (back ++ t) ∧
      b.Match U (wordAfter U w front) back t
  | .choice a b, w, m, t => a.Match U w m t ∨ b.Match U w m t

theorem mem_charsEnds_iff : e ∈ charsEnds U cls least most w s ↔ ∃ m, s = m ++ e.2 ∧
    e.1 = wordAfter U w m ∧ (∀ c ∈ m, cls.holds U c = true) ∧ least ≤ m.length ∧
      ∀ n ∈ most, m.length ≤ n := by
  induction s generalizing w least most with
  | nil =>
    unfold charsEnds
    constructor
    · intro h
      split at h
      · next hleast =>
        obtain rfl := List.mem_singleton.1 h
        exact ⟨[], rfl, rfl, by rintro c ⟨⟩, Nat.le_of_eq hleast, fun n _ => n.zero_le⟩
      · cases h
    · rintro ⟨m, hm, hw, -, hleast, -⟩
      obtain ⟨rfl, he⟩ := List.append_eq_nil_iff.1 hm.symm
      rw [if_pos (Nat.le_zero.1 hleast)]
      exact List.mem_singleton.2 (Prod.ext hw he)
  | cons c s ih =>
    unfold charsEnds
    rw [List.mem_append]
    constructor
    · rintro (h | h)
      · split at h
        · next hleast =>
          obtain rfl := List.mem_singleton.1 h
          exact ⟨[], rfl, rfl, by rintro c ⟨⟩, Nat.le_of_eq hleast, fun n _ => n.zero_le⟩
        · cases h
      · split at h
        · next hc =>
          obtain ⟨m, hm, hw, hall, hleast, hmost⟩ := ih.1 h
          refine ⟨c :: m, by rw [hm, List.cons_append], hw, ?_, ?_, fun n hn => ?_⟩
          · exact List.forall_mem_cons.2 ⟨hc.1, hall⟩
          · rw [List.length_cons]
            omega
          · obtain rfl := Option.mem_def.1 hn
            have hle := hmost (n - 1) rfl
            have hpos : n ≠ 0 := fun hzero => hc.2 (by rw [hzero])
            rw [List.length_cons]
            omega
        · cases h
    · rintro ⟨m, hm, hw, hall, hleast, hmost⟩
      cases m with
      | nil =>
        left
        rw [if_pos (Nat.le_zero.1 hleast)]
        exact List.mem_singleton.2 (Prod.ext hw hm.symm)
      | cons d m =>
        right
        obtain ⟨rfl, rfl⟩ := List.cons.inj hm
        obtain ⟨hc, hall⟩ := List.forall_mem_cons.1 hall
        rw [List.length_cons] at hleast
        rw [if_pos ⟨hc, fun hzero => by simpa using hmost 0 hzero⟩]
        refine ih.2 ⟨m, rfl, hw, hall, by omega, fun n hn => ?_⟩
        obtain ⟨k, hk, rfl⟩ := Option.map_eq_some_iff.1 hn
        have hle := hmost k hk
        rw [List.length_cons] at hle
        omega

/-- The places where a match can end are those behind the pieces that it can take. -/
theorem mem_ends_iff : e ∈ r.ends U w s ↔
    ∃ m, s = m ++ e.2 ∧ e.1 = wordAfter U w m ∧ r.Match U w m e.2 := by
  induction r generalizing w s e with
  | chars cls least most => exact mem_charsEnds_iff
  | boundary =>
    unfold Regex.ends
    constructor
    · intro h
      split at h
      · next hw =>
        obtain rfl := List.mem_singleton.1 h
        exact ⟨[], rfl, rfl, rfl, hw⟩
      · cases h
    · rintro ⟨m, hm, hw, rfl, hboundary⟩
      obtain rfl : s = e.2 := hm
      rw [if_pos hboundary]
      exact List.mem_singleton.2 (Prod.ext hw rfl)
  | seq a b iha ihb =>
    rw [Regex.ends, List.mem_flatMap]
    constructor
    · rintro ⟨middle, hmiddle, he⟩
      obtain ⟨front, hs, hw, hfront⟩ := iha.1 hmiddle
      obtain ⟨back, hrest, hw', hback⟩ := ihb.1 he
      refine ⟨front ++ back, by rw [hs, hrest, List.append_assoc], ?_, front, back, rfl, ?_, ?_⟩
      · rw [hw', hw, wordAfter_append]
      · rwa [← hrest]
      · rwa [← hw]
    · rintro ⟨m, hs, hw, front, back, rfl, hfront, hback⟩
      refine ⟨(wordAfter U w front, back ++ e.2), iha.2 ⟨front, ?_, rfl, hfront⟩,
        ihb.2 ⟨back, rfl, ?_, hback⟩⟩
      · rw [hs, List.append_assoc]
      · rw [hw, wordAfter_append]
  | choice a b iha ihb =>
    rw [Regex.ends, List.mem_append, iha, ihb]
    constructor
    · rintro (⟨m, hs, hw, hmatch⟩ | ⟨m, hs, hw, hmatch⟩)
      · exact ⟨m, hs, hw, .inl hmatch⟩
      · exact ⟨m, hs, hw, .inr hmatch⟩
    · rintro ⟨m, hs, hw, hmatch | hmatch⟩
      · exact .inl ⟨m, hs, hw, hmatch⟩
      · exact .inr ⟨m, hs, hw, hmatch⟩

theorem ends_ne_nil_iff : (!(r.ends U w s).isEmpty) = true ↔ ∃ m t, s = m ++ t ∧ r.Match U w m t := by
  rw [Bool.not_eq_true', List.isEmpty_eq_false_iff_exists_mem]
  constructor
  · rintro ⟨e, he⟩
    obtain ⟨m, hs, -, hmatch⟩ := mem_ends_iff.1 he
    exact ⟨m, e.2, hs, hmatch⟩
  · rintro ⟨m, t, hs, hmatch⟩
    exact ⟨(wordAfter U w m, t), mem_ends_iff.2 ⟨m, hs, rfl, hmatch⟩⟩

theorem searchFrom_iff : searchFrom U r w s = true ↔
    ∃ front m t, s = front ++ m ++ t ∧ r.Match U (wordAfter U w front) m t := by
  induction s generalizing w with
  | nil =>
    rw [searchFrom_nil, ends_ne_nil_iff]
    constructor
    · rintro ⟨m, t, hs, hmatch⟩
      exact ⟨[], m, t, hs, hmatch⟩
    · rintro ⟨front, m, t, hs, hmatch⟩
      obtain ⟨hfront, rfl⟩ := List.append_eq_nil_iff.1 hs.symm
      obtain ⟨rfl, rfl⟩ := List.append_eq_nil_iff.1 hfront
      exact ⟨[], [], rfl, hmatch⟩
  | cons c s ih =>
    rw [searchFrom_cons, Bool.or_eq_true, ends_ne_nil_iff, ih]
    constructor
    · rintro (⟨m, t, hs, hmatch⟩ | ⟨front, m, t, hs, hmatch⟩)
      · exact ⟨[], m, t, hs, hmatch⟩
      · exact ⟨c :: front, m, t, by rw [hs]; rfl, hmatch⟩
    · rintro ⟨front, m, t, hs, hmatch⟩
      cases front with
      | nil => exact .inl ⟨m, t, hs, hmatch⟩
      | cons d front =>
        obtain ⟨rfl, hs'⟩ := List.cons.inj hs
        exact .inr ⟨front, m, t, hs', hmatch⟩

/-- A search succeeds exactly if the text has a piece that a match takes. -/
theorem search_iff : search U r s = true ↔
    ∃ front m t, s = front ++ m ++ t ∧ r.Match U (wordAfter U false front) m t := searchFrom_iff

/-! ## Pieces of an expression -/

/-- The text, character by character. -/
def Regex.exactly (value : List Char) : Regex := .seqs (value.map fun c => .one (.ranges [(c, c)]))

theorem match_seqs_nil : (Regex.seqs []).Match U w m t ↔ m = [] := by
  constructor
  · rintro ⟨-, -, hmost⟩
    exact List.length_eq_zero_iff.1 (Nat.le_zero.1 (hmost 0 rfl))
  · rintro rfl
    exact ⟨fun c hc => (nomatch hc), Nat.le_refl 0, fun n _ => n.zero_le⟩

theorem match_seqs_cons {rs : List Regex} : (Regex.seqs (r :: rs)).Match U w m t ↔
    ∃ front back, m = front ++ back ∧ r.Match U w front (back ++ t) ∧
      (Regex.seqs rs).Match U (wordAfter U w front) back t := by
  cases rs with
  | nil =>
    constructor
    · intro h
      exact ⟨m, [], (List.append_nil m).symm, h, match_seqs_nil.2 rfl⟩
    · rintro ⟨front, back, rfl, hfront, hback⟩
      rw [match_seqs_nil.1 hback] at hfront ⊢
      rwa [List.append_nil]
  | cons r' rs => exact Iff.rfl

/-- Any run of a class. -/
theorem match_star : (Regex.chars cls 0 none).Match U w m t ↔ ∀ c ∈ m, cls.holds U c = true :=
  ⟨fun h => h.1, fun h => ⟨h, m.length.zero_le, fun _ hn => (nomatch hn)⟩⟩

theorem match_one : (Regex.one cls).Match U w m t ↔ ∃ c, m = [c] ∧ cls.holds U c = true := by
  constructor
  · rintro ⟨hall, hleast, hmost⟩
    obtain ⟨c, rfl⟩ := List.length_eq_one_iff.1 (Nat.le_antisymm (hmost 1 rfl) hleast)
    exact ⟨c, rfl, hall c (.head _)⟩
  · rintro ⟨c, rfl, hc⟩
    exact ⟨fun d hd => by rwa [List.mem_singleton.1 hd], Nat.le_refl 1, fun n hn =>
      Nat.le_of_eq (Option.some.inj hn)⟩

theorem match_exactly {value : List Char} : (Regex.exactly value).Match U w m t ↔ m = value := by
  induction value generalizing w m with
  | nil => exact match_seqs_nil
  | cons d value ih =>
    have hstep : (Regex.exactly (d :: value)).Match U w m t ↔ ∃ front back, m = front ++ back ∧
        (Regex.one (.ranges [(d, d)])).Match U w front (back ++ t) ∧
          (Regex.exactly value).Match U (wordAfter U w front) back t := match_seqs_cons
    rw [hstep]
    constructor
    · rintro ⟨front, back, rfl, hfront, hback⟩
      obtain ⟨c, rfl, hc⟩ := match_one.1 hfront
      have hcd : c = d := by
        simp only [CharClass.holds, List.any_cons, List.any_nil, Bool.or_false, Bool.and_eq_true,
          decide_eq_true_eq] at hc
        exact Char.le_antisymm hc.2 hc.1
      rw [ih.1 hback, hcd]
      rfl
    · rintro rfl
      refine ⟨[d], value, rfl, match_one.2 ⟨d, rfl, ?_⟩, ih.2 rfl⟩
      simp [CharClass.holds]

end Python
