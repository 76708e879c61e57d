/-
  Whole words in a text, up to letter case: what `containsWord` finds.

  1. `WordIn` — the word stands in the text between characters that are no word characters.
  2. `containsWord_iff` — that is what the search finds.
  3. `WordWithin` — a word stands in another one whatever the letter case of the text is;
     `WordWithin.wordIn`, `exists_worst_case` — so that it is found wherever the other one is, and
     one text shows all the words within it and no others.
-/
import CanvasOS.Lib.Text
import Mathlib.Tactic.ByContra
import Mathlib.Tactic.Choose

namespace Python

variable {U : Unicode} {fold : Char → Char} {word s pre mid post : List Char} {prev : Option Char}

/-- No word character stands there. -/
def noWord (U : Unicode) (c : Option Char) : Prop := ∀ d ∈ c, U.word d = false

theorem all_noWord (c : Option Char) : (c.all fun d => !U.word d) = true ↔ noWord U c := by
  cases c <;> simp [noWord]

/-- `word` stands in `s` as a whole word, up to `fold`. -/
def WordIn (U : Unicode) (fold : Char → Char) (word s : List Char) : Prop :=
  ∃ pre mid post, s = pre ++ mid ++ post ∧ mid.map fold = word.map fold ∧
    noWord U pre.getLast? ∧ noWord U post.head?

theorem wordAt_iff : wordAt U fold word s = true ↔
    ∃ mid post, s = mid ++ post ∧ mid.map fold = word.map fold ∧ noWord U post.head? := by
  unfold wordAt
  rw [Bool.and_eq_true, all_noWord, List.isPrefixOf_iff_prefix]
  constructor
  · rintro ⟨hfront, hnext⟩
    refine ⟨s.take word.length, s.drop word.length, (List.take_append_drop _ _).symm, ?_, hnext⟩
    rw [List.map_take, List.prefix_iff_eq_take.1 hfront, List.length_map]
  · rintro ⟨mid, post, rfl, hmid, hnext⟩
    have hlength : word.length = mid.length := by
      have h := congrArg List.length hmid
      simpa using h.symm
    refine ⟨⟨post.map fold, by rw [List.map_append, hmid]⟩, ?_⟩
    rwa [hlength, List.drop_left]

/-- The search, behind the character `prev`. -/
theorem searchWord_iff : searchWord U fold word prev s = true ↔ ∃ pre mid post,
    s = pre ++ mid ++ post ∧ mid.map fold = word.map fold ∧
      noWord U (pre.getLast?.or prev) ∧ noWord U post.head? := by
  induction s generalizing prev with
  | nil =>
    unfold searchWord
    rw [Bool.and_eq_true, all_noWord, wordAt_iff]
    constructor
    · rintro ⟨hprev, mid, post, hs, hmid, hpost⟩
      exact ⟨[], mid, post, hs, hmid, hprev, hpost⟩
    · rintro ⟨pre, mid, post, hs, hmid, hpre, hpost⟩
      obtain ⟨rfl, rfl, rfl⟩ : pre = [] ∧ mid = [] ∧ post = [] := by simpa using hs.symm
      exact ⟨hpre, [], [], rfl, hmid, hpost⟩
  | cons c s ih =>
    unfold searchWord
    rw [Bool.or_eq_true, Bool.and_eq_true, all_noWord, wordAt_iff, ih]
    constructor
    · rintro (⟨hprev, mid, post, hs, hmid, hpost⟩ | ⟨pre, mid, post, rfl, hmid, hpre, hpost⟩)
      · exact ⟨[], mid, post, hs, hmid, hprev, hpost⟩
      · refine ⟨c :: pre, mid, post, by simp, hmid, ?_, hpost⟩
        rw [List.getLast?_cons]
        cases hlast : pre.getLast? <;> simpa [hlast] using hpre
    · rintro ⟨pre, mid, post, hs, hmid, hpre, hpost⟩
      cases pre with
      | nil => exact .inl ⟨hpre, mid, post, hs, hmid, hpost⟩
      | cons d pre =>
        obtain ⟨rfl, rfl⟩ : c = d ∧ s = pre ++ mid ++ post := by simpa using hs
        refine .inr ⟨pre, mid, post, rfl, hmid, ?_, hpost⟩
        rw [List.getLast?_cons] at hpre
        cases hlast : pre.getLast? <;> simpa [hlast] using hpre

theorem containsWord_iff : containsWord U fold word s = true ↔ WordIn U fold word s := by
  unfold containsWord WordIn
  rw [searchWord_iff]
  simp only [Option.or_none]

/-! ## Words of words -/

/-- No letter case of the character is a word character. -/
def neverWord (U : Unicode) (fold : Char → Char) (c : Option Char) : Prop :=
  ∀ d ∈ c, ∀ e, fold e = fold d → U.word e = false

/-- `short` stands in `long` as a whole word, in whatever letter case `long` is written. -/
def WordWithin (U : Unicode) (fold : Char → Char) (short long : List Char) : Prop :=
  ∃ pre mid post, long = pre ++ mid ++ post ∧ mid.map fold = short.map fold ∧
    neverWord U fold pre.getLast? ∧ neverWord U fold post.head?

theorem noWord_of_neverWord {c d : Option Char} (h : neverWord U fold c)
    (hcd : d.map fold = c.map fold) : noWord U d := by
  intro e he
  obtain ⟨x, hx, hfold⟩ := Option.map_eq_some_iff.1 (hcd.symm.trans (congrArg (Option.map fold) he))
  exact h x hx e hfold.symm

/-- What stands within a word of a text is a word of the text. -/
theorem WordWithin.wordIn {short long : List Char} (h : WordWithin U fold short long)
    (hlong : WordIn U fold long s) : WordIn U fold short s := by
  obtain ⟨pre, mid, post, rfl, hmid, hpre, hpost⟩ := h
  obtain ⟨front, found, back, rfl, hfound, hfront, hback⟩ := hlong
  -- what is found of the long word falls apart as the long word does
  rw [List.map_append, List.map_append] at hfound
  obtain ⟨x, c, rfl, hx, hc⟩ := List.map_eq_append_iff.1 hfound
  obtain ⟨a, b, rfl, ha, hb⟩ := List.map_eq_append_iff.1 hx
  refine ⟨front ++ a, b, c ++ back, by simp, hb.trans hmid, ?_, ?_⟩
  · cases hlast : a.getLast? with
    | none =>
      rw [List.getLast?_eq_none_iff.1 hlast, List.append_nil]
      exact hfront
    | some d =>
      rw [List.getLast?_append, hlast, Option.some_or]
      exact noWord_of_neverWord hpre
        (by rw [← hlast, ← List.getLast?_map, ← List.getLast?_map, ha])
  · cases hc' : c with
    | nil => exact hback
    | cons d c =>
      refine noWord_of_neverWord hpost ?_
      rw [← List.head?_map, ← List.head?_map, ← hc, hc']
      rfl

/-- Some letter case of a word shows all the words within it and no others. -/
theorem exists_worst_case (U : Unicode) (fold : Char → Char) (long : List Char) :
    ∃ s, s.map fold = long.map fold ∧
      ∀ short, WordIn U fold short s → WordWithin U fold short long := by
  classical
  -- every character in a letter case that is a word character, where it has one
  have hworst : ∀ c : Char, ∃ d, fold d = fold c ∧ (U.word d = false → ∀ e, fold e = fold c →
      U.word e = false) := by
    intro c
    by_cases h : ∃ d, fold d = fold c ∧ U.word d = true
    · obtain ⟨d, hd, hword⟩ := h
      exact ⟨d, hd, fun hno => by rw [hword] at hno; cases hno⟩
    · refine ⟨c, rfl, fun _ e he => ?_⟩
      by_contra hword
      exact h ⟨e, he, by simpa using hword⟩
  choose f hfold hnever using hworst
  refine ⟨long.map f, by simp [hfold, Function.comp_def], ?_⟩
  rintro short ⟨pre, mid, post, hs, hmid, hpre, hpost⟩
  obtain ⟨x, c, rfl, hx, rfl⟩ := List.map_eq_append_iff.1 hs
  obtain ⟨a, b, rfl, rfl, rfl⟩ := List.map_eq_append_iff.1 hx
  have hlift : ∀ o : Option Char, noWord U (o.map f) → neverWord U fold o := by
    rintro o ho d hd e he
    exact hnever d (ho (f d) (by rw [hd]; rfl)) e he
  refine ⟨a, b, c, rfl, ?_, hlift _ ?_, hlift _ ?_⟩
  · simpa [hfold, Function.comp_def] using hmid
  · rwa [← List.getLast?_map]
  · rwa [← List.head?_map]

end Python
