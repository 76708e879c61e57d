/-
  Python's text searches, on lists of characters.

  1. `before` — `s.find(sub)`, as the text in front of the first occurrence; `rstrip`.
  2. `Unicode` — what Python's character tables say, as far as `re` and `str.lower` ask them.
  3. `containsWord`, `sentences` — `re.search` for a whole word, `re.split` at sentence ends.
-/
import CanvasOS.Lib.Python

namespace Python

/-! ## Searching -/

/-- `s[:s.find(sub)]`, or `none` where `s.find(sub)` is `-1`. -/
def before (sub : List Char) : List Char → Option (List Char)
  | [] => if sub.isPrefixOf [] then some [] else none
  | c :: rest =>
    if sub.isPrefixOf (c :: rest) then some [] else (before sub rest).map (c :: ·)

/-- `sub in s`. -/
def contains (sub s : List Char) : Bool := (before sub s).isSome

/-- `s.rstrip()`. -/
def rstrip (s : List Char) : List Char := (s.reverse.dropWhile isSpace).reverse

variable {sub s p : List Char}

/-- What `find` finds is there. -/
theorem eq_of_before (h : before sub s = some p) : ∃ rest, s = p ++ sub ++ rest := by
  induction s generalizing p with
  | nil =>
    unfold before at h
    split at h
    · next hp =>
      obtain ⟨rest, hrest⟩ := List.isPrefixOf_iff_prefix.1 hp
      exact ⟨rest, by rw [← Option.some.inj h]; exact hrest.symm⟩
    · cases h
  | cons c s ih =>
    unfold before at h
    split at h
    · next hp =>
      obtain ⟨rest, hrest⟩ := List.isPrefixOf_iff_prefix.1 hp
      exact ⟨rest, by rw [← Option.some.inj h]; exact hrest.symm⟩
    · obtain ⟨q, hq, rfl⟩ := Option.map_eq_some_iff.1 h
      obtain ⟨rest, hrest⟩ := ih hq
      exact ⟨rest, by simp [hrest]⟩

/-- What is there is found. -/
theorem before_ne_none (h : sub <:+: s) : before sub s ≠ none := by
  induction s with
  | nil =>
    have hnil : sub = [] := List.eq_nil_of_infix_nil h
    simp [before, hnil]
  | cons c s ih =>
    unfold before
    split
    · simp
    · next hp =>
      rcases List.infix_cons_iff.1 h with h | h
      · exact absurd (List.isPrefixOf_iff_prefix.2 h) hp
      · simpa using ih h

/-- What `find` finds is the first: `p`, where `sub` begins nowhere in it. -/
theorem before_append {rest : List Char}
    (h : ∀ q c r, p = q ++ c :: r → ¬ sub <+: c :: r ++ sub ++ rest) :
    before sub (p ++ sub ++ rest) = some p := by
  induction p with
  | nil =>
    have hprefix : sub.isPrefixOf (sub ++ rest) = true :=
      List.isPrefixOf_iff_prefix.2 (List.prefix_append _ _)
    cases hs : [] ++ sub ++ rest with
    | nil =>
      obtain ⟨rfl, rfl⟩ : sub = [] ∧ rest = [] := by simpa using hs
      rfl
    | cons c s =>
      rw [List.nil_append] at hs
      rw [hs] at hprefix
      rw [before, if_pos hprefix]
  | cons c p ih =>
    have hno : ¬ sub.isPrefixOf (c :: p ++ sub ++ rest) = true := fun hp =>
      h [] c p rfl (List.isPrefixOf_iff_prefix.1 hp)
    have hrest := ih fun q d r hq => h (c :: q) d r (by rw [hq]; rfl)
    rw [List.cons_append, List.cons_append] at hno ⊢
    rw [before, if_neg hno, hrest]
    rfl

/-- Nothing that is there lies in front of what `find` finds. -/
theorem prefix_of_before {a b : List Char} (h : before sub (a ++ sub ++ b) = some p) :
    p <+: a := by
  induction a generalizing p with
  | nil =>
    have hfound : before sub ([] ++ sub ++ b) = some [] :=
      before_append fun q c r hq => absurd hq.symm (by simp)
    rw [hfound] at h
    obtain rfl := Option.some.inj h
    exact List.prefix_rfl
  | cons c a ih =>
    rw [List.cons_append, List.cons_append, before] at h
    split at h
    · rw [← Option.some.inj h]
      exact List.nil_prefix
    · obtain ⟨q, hq, rfl⟩ := Option.map_eq_some_iff.1 h
      exact List.cons_prefix_cons.2 ⟨rfl, ih hq⟩

/-- What `find` finds first, of a single character. -/
theorem before_singleton {c : Char} {rest : List Char} (h : c ∉ p) :
    before [c] (p ++ c :: rest) = some p := by
  have hfound : before [c] (p ++ [c] ++ rest) = some p := by
    refine before_append fun q d r hp hprefix => h ?_
    obtain ⟨t, ht⟩ := hprefix
    obtain ⟨rfl, -⟩ := List.cons.inj ht
    rw [hp]
    exact List.mem_append_right _ List.mem_cons_self
  rwa [List.append_assoc] at hfound

/-! ## Stripping -/

theorem strip_eq (s : List Char) : strip s = rstrip (s.dropWhile isSpace) := rfl

theorem isPrefix_rstrip (s : List Char) : rstrip s <+: s := by
  have h := List.reverse_prefix.2 (List.dropWhile_suffix isSpace (l := s.reverse))
  rwa [List.reverse_reverse] at h

/-- What is left is part of the text. -/
theorem infix_strip (s : List Char) : strip s <:+: s :=
  (isPrefix_rstrip _).isInfix.trans (List.dropWhile_suffix _).isInfix

/-- White space in front of a text that does not begin with any. -/
theorem dropWhile_append_head {w t : List Char} {c : Char} (hc : isSpace c = false) :
    (w ++ c :: t).dropWhile isSpace = w.dropWhile isSpace ++ c :: t := by
  induction w with
  | nil => exact List.dropWhile_cons_of_neg (by simp [hc])
  | cons x w ih =>
    rw [List.cons_append]
    by_cases hx : isSpace x = true
    · rw [List.dropWhile_cons_of_pos hx, List.dropWhile_cons_of_pos hx, ih]
    · rw [List.dropWhile_cons_of_neg hx, List.dropWhile_cons_of_neg hx, List.cons_append]

/-- What ends in no white space stays. -/
theorem rstrip_append (d t : List Char) {c : Char} (hc : isSpace c = false) :
    rstrip (d ++ c :: t) = d ++ c :: rstrip t := by
  have hreverse : (d ++ c :: t).reverse = t.reverse ++ c :: d.reverse := by simp
  rw [rstrip, hreverse, dropWhile_append_head hc]
  simp [rstrip]

theorem rstrip_length_le : (rstrip s).length ≤ s.length := by
  have h := (List.dropWhile_sublist isSpace (l := s.reverse)).length_le
  simpa [rstrip] using h

/-! ## Characters -/

/-- Python's character tables. -/
structure Unicode where
  /-- `\w` -/
  word : Char → Bool
  /-- `\d` -/
  digit : Char → Bool
  /-- `str.lower()` -/
  lower : List Char → List Char
  /-- what `re.IGNORECASE` compares characters by -/
  fold : Char → Char

/-- The tables as far as ASCII goes. -/
def Unicode.ascii : Unicode where
  word c := c.isAlphanum || c == '_'
  digit := Char.isDigit
  lower := Python.lower
  fold := lowerChar

/-! ## Words and sentences -/

/-- `word` stands at the front of `s`, up to `fold`, and no word character follows it. -/
def wordAt (U : Unicode) (fold : Char → Char) (word s : List Char) : Bool :=
  (word.map fold).isPrefixOf (s.map fold) && (s.drop word.length).head?.all fun c => !U.word c

/-- `word` stands somewhere in `s`, which follows the character `prev`, with no word character on
    either side. -/
def searchWord (U : Unicode) (fold : Char → Char) (word : List Char) :
    Option Char → List Char → Bool
  | prev, [] => prev.all (fun c => !U.word c) && wordAt U fold word []
  | prev, c :: rest =>
    (prev.all (fun c => !U.word c) && wordAt U fold word (c :: rest)) ||
      searchWord U fold word (some c) rest

/-- `re.search` for a whole word. -/
def containsWord (U : Unicode) (fold : Char → Char) (word s : List Char) : Bool :=
  searchWord U fold word none s

/-- `re.split(r"(?<=[.!?])\s+", …)`: `cur` is the sentence so far, backwards, and `skip` says that
    the white space behind a sentence is being dropped. -/
def splitSentences : (skip : Bool) → (cur : List Char) → List Char → List (List Char)
  | _, cur, [] => [cur.reverse]
  | skip, cur, c :: rest =>
    if isSpace c && skip then splitSentences true cur rest
    else if isSpace c && cur.head?.any (fun e => e == '.' || e == '!' || e == '?') then
      cur.reverse :: splitSentences true [] rest
    else splitSentences false (c :: cur) rest

/-- The sentences of `s`. -/
def sentences (s : List Char) : List (List Char) := splitSentences false [] s

example : containsWord Unicode.ascii lowerChar "delta".toList "At Delta, deltas".toList := by decide
example : ¬ containsWord Unicode.ascii lowerChar "delta".toList "Quarterly deltas".toList := by
  decide
example : sentences "One. Two!  3".toList = ["One.".toList, "Two!".toList, "3".toList] := by decide

end Python
