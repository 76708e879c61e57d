/-
  Line ends: a carriage return in front of a newline, by itself, or none.

  1. `crlfToLf` — `data.replace(b"\r\n", b"\n")`.
  2. `universal` — what reading in text mode makes of a line end: `\r\n` and `\r` are `\n`.
  3. The two agree exactly where every carriage return is followed by a newline (`Paired`), since
     the second leaves no carriage return and the first leaves those that are by themselves.
  4. `universal_flatMap` — it comes to the same thing whether line ends are read of the characters
     or of the bytes, for an encoding in which the two characters are one byte each, and occur in
     no other character.
-/
import Mathlib.Data.List.Basic

namespace Newline

section Paired

variable {α : Type}

/-- Every carriage return is followed by a newline. -/
def Paired (cr nl : α) : List α → Prop
  | [] => True
  | [a] => a ≠ cr
  | a :: b :: l => (a = cr → b = nl) ∧ Paired cr nl (b :: l)

theorem Paired.tail {cr nl a : α} {l : List α} (h : Paired cr nl (a :: l)) : Paired cr nl l := by
  cases l with
  | nil => exact trivial
  | cons b l => exact h.2

end Paired

variable {α β : Type} [DecidableEq α] [DecidableEq β]

/-- `data.replace(b"\r\n", b"\n")` -/
def crlfToLf (cr nl : α) : List α → List α
  | [] => []
  | [a] => [a]
  | a :: b :: l => if a = cr ∧ b = nl then nl :: crlfToLf cr nl l else a :: crlfToLf cr nl (b :: l)

/-- Universal newlines. -/
def universal (cr nl : α) : List α → List α
  | [] => []
  | [a] => [if a = cr then nl else a]
  | a :: b :: l =>
    if a = cr then
      if b = nl then nl :: universal cr nl l else nl :: universal cr nl (b :: l)
    else a :: universal cr nl (b :: l)

variable {cr nl : α} {a : α} {l m : List α}

/-! ## One line end -/

theorem universal_cons_of_ne (h : a ≠ cr) : universal cr nl (a :: l) = a :: universal cr nl l := by
  cases l with
  | nil => rw [universal, universal, if_neg h]
  | cons b l => rw [universal, if_neg h]

theorem universal_crlf : universal cr nl (cr :: nl :: l) = nl :: universal cr nl l := by
  rw [universal, if_pos rfl, if_pos rfl]

theorem universal_cr (h : l.head? ≠ some nl) :
    universal cr nl (cr :: l) = nl :: universal cr nl l := by
  cases l with
  | nil => rw [universal, universal, if_pos rfl]
  | cons b l =>
    have hb : b ≠ nl := fun heq => h (congrArg some heq)
    rw [universal, if_pos rfl, if_neg hb]

theorem universal_append (h : cr ∉ l) : universal cr nl (l ++ m) = l ++ universal cr nl m := by
  induction l with
  | nil => rfl
  | cons a l ih =>
    obtain ⟨ha, hl⟩ := not_or.1 (mt List.mem_cons.2 h)
    rw [List.cons_append, universal_cons_of_ne (Ne.symm ha), ih hl, List.cons_append]

theorem crlfToLf_cons_of_ne (h : a ≠ cr) : crlfToLf cr nl (a :: l) = a :: crlfToLf cr nl l := by
  cases l with
  | nil => rw [crlfToLf, crlfToLf]
  | cons b l => rw [crlfToLf, if_neg fun hand => h hand.1]

/-! ## The two of them -/

/-- No carriage return is left. -/
theorem not_mem_universal (hne : cr ≠ nl) : cr ∉ universal cr nl l := by
  fun_induction universal cr nl l with
  | case1 => exact List.not_mem_nil
  | case2 a =>
    rw [List.mem_singleton]
    split
    · exact hne
    · exact fun heq => ‹¬a = cr› heq.symm
  | case3 l ih => exact not_or.2 ⟨hne, ih⟩ ∘ List.mem_cons.1
  | case4 b l hb ih => exact not_or.2 ⟨hne, ih⟩ ∘ List.mem_cons.1
  | case5 a b l ha ih => exact not_or.2 ⟨Ne.symm ha, ih⟩ ∘ List.mem_cons.1

theorem crlfToLf_of_not_mem (h : cr ∉ l) : crlfToLf cr nl l = l := by
  induction l with
  | nil => rfl
  | cons a l ih =>
    obtain ⟨ha, hl⟩ := not_or.1 (mt List.mem_cons.2 h)
    rw [crlfToLf_cons_of_ne (Ne.symm ha), ih hl]

/-- Where every carriage return is followed by a newline, the two agree. -/
theorem crlfToLf_eq_universal (hne : cr ≠ nl) (h : Paired cr nl l) :
    crlfToLf cr nl l = universal cr nl l := by
  fun_induction crlfToLf cr nl l with
  | case1 => rfl
  | case2 a => rw [universal, if_neg h]
  | case3 a b l hcrlf ih =>
    obtain ⟨rfl, rfl⟩ := hcrlf
    rw [universal_crlf, ih h.tail.tail]
  | case4 a b l hnot ih =>
    have ha : a ≠ cr := fun heq => hnot ⟨heq, h.1 heq⟩
    rw [universal_cons_of_ne ha, ih h.tail]

/-- The first leaves the carriage returns that are by themselves. -/
theorem paired_of_not_mem (hne : cr ≠ nl) (h : cr ∉ crlfToLf cr nl l) : Paired cr nl l := by
  fun_induction crlfToLf cr nl l with
  | case1 => exact trivial
  | case2 a => exact fun heq => h (heq ▸ List.mem_singleton_self a)
  | case3 a b l hcrlf ih =>
    obtain ⟨rfl, rfl⟩ := hcrlf
    have hrest := ih fun hin => h (List.mem_cons_of_mem _ hin)
    refine ⟨fun _ => rfl, ?_⟩
    cases l with
    | nil => exact Ne.symm hne
    | cons c l => exact ⟨fun heq => absurd heq.symm hne, hrest⟩
  | case4 a b l hnot ih =>
    obtain ⟨ha, hrest⟩ := not_or.1 (mt List.mem_cons.2 h)
    exact ⟨fun heq => absurd heq.symm ha, ih hrest⟩

/-- What the first makes of one text is what the second makes of another exactly when the first one
    has no carriage return by itself, and the second makes the same of both. -/
theorem universal_eq_crlfToLf_iff (hne : cr ≠ nl) :
    universal cr nl m = crlfToLf cr nl l ↔
      Paired cr nl l ∧ universal cr nl m = universal cr nl l := by
  constructor
  · intro h
    have hpaired : Paired cr nl l := by
      refine paired_of_not_mem hne ?_
      rw [← h]
      exact not_mem_universal hne
    exact ⟨hpaired, h.trans (crlfToLf_eq_universal hne hpaired)⟩
  · rintro ⟨hpaired, h⟩
    rw [h, crlfToLf_eq_universal hne hpaired]

/-- The second is the first with the carriage returns that are left made newlines. -/
theorem universal_eq_map : universal cr nl l =
    (crlfToLf cr nl l).map fun a => if a = cr then nl else a := by
  fun_induction crlfToLf cr nl l with
  | case1 => rfl
  | case2 a => rw [universal, List.map_singleton]
  | case3 a b l hcrlf ih =>
    obtain ⟨rfl, rfl⟩ := hcrlf
    rw [universal_crlf, ih, List.map_cons, ite_eq_left_iff.2 fun _ => rfl]
  | case4 a b l hnot ih =>
    rw [List.map_cons, ← ih]
    by_cases ha : a = cr
    · have hb : b ≠ nl := fun hb => hnot ⟨ha, hb⟩
      have hhead : (b :: l).head? ≠ some nl := fun hhead => hb (Option.some.inj hhead)
      rw [ha, if_pos rfl, universal_cr hhead]
    · rw [if_neg ha, universal_cons_of_ne ha]

/-! ## Encodings -/

/-- Line ends may be read of the characters or of the bytes. -/
theorem universal_flatMap {f : α → List β} {cr' nl' : β} (hcr : f cr = [cr']) (hnl : f nl = [nl'])
    (hne' : cr' ≠ nl') (hnil : ∀ a, f a ≠ [])
    (hother : ∀ a, a ≠ cr → a ≠ nl → cr' ∉ f a ∧ nl' ∉ f a) :
    universal cr' nl' (l.flatMap f) = (universal cr nl l).flatMap f := by
  -- a newline is the first byte only where it is the first character
  have hhead : ∀ b l, b ≠ nl → ((b :: l).flatMap f).head? ≠ some nl' := by
    intro b l hb h
    rw [List.flatMap_cons, List.head?_append_of_ne_nil _ (hnil b)] at h
    by_cases hbc : b = cr
    · rw [hbc, hcr] at h
      exact hne' (Option.some.inj h)
    · exact (hother b hbc hb).2 (List.mem_of_mem_head? h)
  have hkeep : ∀ a, a ≠ cr → cr' ∉ f a := by
    intro a ha
    by_cases han : a = nl
    · rw [han, hnl, List.mem_singleton]
      exact hne'
    · exact (hother a ha han).1
  fun_induction universal cr nl l with
  | case1 => rfl
  | case2 a =>
    by_cases ha : a = cr
    · rw [if_pos ha, List.flatMap_singleton, List.flatMap_singleton, ha, hcr, hnl]
      rw [universal, if_pos rfl]
    · rw [if_neg ha, List.flatMap_singleton]
      have happend : universal cr' nl' (f a ++ []) = f a ++ universal cr' nl' [] :=
        universal_append (hkeep a ha)
      rwa [List.append_nil, universal, List.append_nil] at happend
  | case3 l ih =>
    rw [List.flatMap_cons, List.flatMap_cons, List.flatMap_cons, hcr, hnl]
    show universal cr' nl' (cr' :: nl' :: l.flatMap f) = _
    rw [universal_crlf, ih]
    rfl
  | case4 b l hb ih =>
    rw [List.flatMap_cons, hcr]
    show universal cr' nl' (cr' :: (b :: l).flatMap f) = _
    rw [universal_cr (hhead b l hb), ih, List.flatMap_cons, hnl]
    rfl
  | case5 a b l ha ih =>
    rw [List.flatMap_cons, universal_append (hkeep a ha), ih, List.flatMap_cons]

/-- What is made of an encoding's line ends is an encoding. -/
theorem crlfToLf_flatMap {f : α → List β} {cr' nl' : β} (hcr : f cr = [cr']) (hnl : f nl = [nl'])
    (hne' : cr' ≠ nl') (hnil : ∀ a, f a ≠ [])
    (hother : ∀ a, a ≠ cr → a ≠ nl → cr' ∉ f a ∧ nl' ∉ f a) :
    crlfToLf cr' nl' (l.flatMap f) = (crlfToLf cr nl l).flatMap f := by
  have hkeep : ∀ a m, a ≠ cr → crlfToLf cr' nl' (f a ++ m) = f a ++ crlfToLf cr' nl' m := by
    intro a m ha
    have hnot : cr' ∉ f a := by
      by_cases han : a = nl
      · rw [han, hnl, List.mem_singleton]
        exact hne'
      · exact (hother a ha han).1
    generalize f a = w at hnot
    induction w with
    | nil => rfl
    | cons b w ih =>
      obtain ⟨hb, hw⟩ := not_or.1 (mt List.mem_cons.2 hnot)
      rw [List.cons_append, crlfToLf_cons_of_ne (Ne.symm hb), ih hw, List.cons_append]
  fun_induction crlfToLf cr nl l with
  | case1 => rfl
  | case2 a =>
    by_cases ha : a = cr
    · rw [List.flatMap_singleton, ha, hcr, crlfToLf]
    · have happend := hkeep a [] ha
      rwa [List.append_nil, crlfToLf, List.append_nil, ← List.flatMap_singleton f a] at happend
  | case3 a b l hcrlf ih =>
    obtain ⟨rfl, rfl⟩ := hcrlf
    rw [List.flatMap_cons, List.flatMap_cons, List.flatMap_cons, hcr, hnl, ← ih]
    show crlfToLf cr' nl' (cr' :: nl' :: l.flatMap f) = nl' :: crlfToLf cr' nl' (l.flatMap f)
    rw [crlfToLf, if_pos ⟨rfl, rfl⟩]
  | case4 a b l hnot ih =>
    show crlfToLf cr' nl' (f a ++ (b :: l).flatMap f) = f a ++ (crlfToLf cr nl (b :: l)).flatMap f
    rw [← ih]
    by_cases ha : a = cr
    · -- the carriage return stays, since the next character is not written with a newline in front
      have hb : b ≠ nl := fun hb => hnot ⟨ha, hb⟩
      have hhead : (f b).head? ≠ some nl' := by
        intro hhead
        by_cases hbc : b = cr
        · rw [hbc, hcr] at hhead
          exact hne' (Option.some.inj hhead)
        · exact (hother b hbc hb).2 (List.mem_of_mem_head? hhead)
      obtain ⟨c, w, hfb⟩ := List.exists_cons_of_ne_nil (hnil b)
      rw [hfb] at hhead
      rw [ha, hcr, List.flatMap_cons, hfb]
      show crlfToLf cr' nl' (cr' :: c :: (w ++ l.flatMap f)) = _
      rw [crlfToLf, if_neg fun hand => hhead (congrArg some hand.2)]
      rfl
    · rw [hkeep a _ ha]

/-- What has the line ends of an encoding is one itself. -/
theorem exists_flatMap_of_crlfToLf {f : α → List β} {cr' nl' : β} (hcr : f cr = [cr'])
    (hnl : f nl = [nl']) (hne' : cr' ≠ nl') (hnil : ∀ a, f a ≠ [])
    (hother : ∀ a, a ≠ cr → a ≠ nl → cr' ∉ f a ∧ nl' ∉ f a) {data w : List β} :
    ∀ m : List α, cr' ∉ w → nl' ∉ w → crlfToLf cr' nl' data = w ++ m.flatMap f →
      ∃ m', data = w ++ List.flatMap f m' := by
  have hhead : ∀ (a : α) (b : β) (v : List β), f a = b :: v →
      (a = cr ∧ b = cr' ∧ v = []) ∨ (a = nl ∧ b = nl' ∧ v = []) ∨
        (b ≠ cr' ∧ b ≠ nl' ∧ cr' ∉ v ∧ nl' ∉ v) := by
    intro a b v hf
    by_cases hac : a = cr
    · rw [hac, hcr] at hf
      obtain ⟨rfl, rfl⟩ := List.cons.inj hf
      exact .inl ⟨hac, rfl, rfl⟩
    · by_cases han : a = nl
      · rw [han, hnl] at hf
        obtain ⟨rfl, rfl⟩ := List.cons.inj hf
        exact .inr (.inl ⟨han, rfl, rfl⟩)
      · obtain ⟨h₁, h₂⟩ := hother a hac han
        rw [hf, List.mem_cons, not_or] at h₁ h₂
        exact .inr (.inr ⟨Ne.symm h₁.1, Ne.symm h₂.1, h₁.2, h₂.2⟩)
  -- the induction is on the bytes; `w` is what is left of the character that is being read
  fun_induction crlfToLf cr' nl' data generalizing w with
  | case1 =>
    intro m _ _ h
    obtain ⟨rfl, -⟩ := List.append_eq_nil_iff.1 h.symm
    exact ⟨[], rfl⟩
  | case2 a =>
    intro m hw₁ hw₂ h
    exact ⟨m, h⟩
  | case3 a b l hcrlf ih =>
    obtain ⟨rfl, rfl⟩ := hcrlf
    intro m hw₁ hw₂ h
    cases w with
    | cons c w =>
      obtain ⟨rfl, -⟩ := List.cons.inj h
      exact absurd List.mem_cons_self hw₂
    | nil =>
      cases m with
      | nil => cases h
      | cons c m =>
        obtain ⟨d, v, hf⟩ := List.exists_cons_of_ne_nil (hnil c)
        rw [List.nil_append, List.flatMap_cons, hf] at h
        obtain ⟨rfl, hrest⟩ := List.cons.inj h
        rcases hhead c _ v hf with ⟨-, heq, -⟩ | ⟨-, -, rfl⟩ | ⟨-, hne, -⟩
        · exact absurd heq.symm hne'
        · obtain ⟨m', hm'⟩ := ih m List.not_mem_nil List.not_mem_nil hrest
          refine ⟨cr :: nl :: m', ?_⟩
          rw [List.flatMap_cons, List.flatMap_cons, hcr, hnl, hm']
          rfl
        · exact absurd rfl hne
  | case4 a b l hnot ih =>
    intro m hw₁ hw₂ h
    cases w with
    | cons c w =>
      obtain ⟨rfl, hrest⟩ := List.cons.inj h
      obtain ⟨m', hm'⟩ := ih m (fun hin => hw₁ (List.mem_cons_of_mem _ hin))
        (fun hin => hw₂ (List.mem_cons_of_mem _ hin)) hrest
      exact ⟨m', by rw [hm', List.cons_append]⟩
    | nil =>
      cases m with
      | nil => cases h
      | cons c m =>
        obtain ⟨d, v, hf⟩ := List.exists_cons_of_ne_nil (hnil c)
        rw [List.nil_append, List.flatMap_cons, hf] at h
        obtain ⟨rfl, hrest⟩ := List.cons.inj h
        have hv : cr' ∉ v ∧ nl' ∉ v := by
          rcases hhead c _ v hf with ⟨-, -, rfl⟩ | ⟨-, -, rfl⟩ | ⟨-, -, hv⟩
          · exact ⟨List.not_mem_nil, List.not_mem_nil⟩
          · exact ⟨List.not_mem_nil, List.not_mem_nil⟩
          · exact hv
        obtain ⟨m', hm'⟩ := ih m hv.1 hv.2 hrest
        refine ⟨c :: m', ?_⟩
        rw [List.flatMap_cons, hf, hm']
        rfl

end Newline
