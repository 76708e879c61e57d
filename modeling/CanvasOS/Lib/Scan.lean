/-
  One pass of an expression over a text: `re.finditer` and `re.sub`.

  1. `spans`, `sub` — where the matches are, from left to right, and the text with a marker in the
     place of each.
  2. `gapsOf` — what stands between the matches of a piece, each with its place in the text.
  3. `sub_eq`, `MarkedOff.sub_intercalate` — a pass leaves the gaps; over a text that a pass has
     left, the next one works on each gap alone.
  4. `mem_finditer`, `exists_finditer`, `finditer_unique` — what a pass finds: one match over every
     place where a match begins, and no two over the same place.
  5. `Cut` — a piece of a text, cut out beside no word; `gapsOf_cut`, `kept_gapsOf_iff`: the gaps
     are such pieces, and have the characters that no match takes.
  6. `Cut.covered_iff`, `Cut.mem_finditer` — a pass over such a piece finds what it finds there in
     the whole, where matches that run out of the piece end with it.
  7. `not_begun` — what one expression takes, another one does not begin in.
-/
import CanvasOS.Lib.Tries

namespace Python

section Passes

variable (U : Unicode) (T : Tries)

/-- `finditer`: the matches from position `i` on; `skip` characters belong to the last match still,
    and the flag says that a word character precedes. -/
def spans : (i skip : Nat) → Bool → List Char → List (Nat × Nat)
  | _, _, _, [] => []
  | i, skip + 1, _, c :: s => spans (i + 1) skip (U.word c) s
  | i, 0, w, c :: s =>
    match (T w (c :: s)).head? with
    | some (n + 1) => (i, i + n + 1) :: spans (i + 1) n (U.word c) s
    | _ => spans (i + 1) 0 (U.word c) s

/-- `sub`. -/
def sub (marker : List Char) : (skip : Nat) → Bool → List Char → List Char
  | _, _, [] => []
  | skip + 1, _, c :: s => sub marker skip (U.word c) s
  | 0, w, c :: s =>
    match (T w (c :: s)).head? with
    | some (n + 1) => marker ++ sub marker n (U.word c) s
    | _ => c :: sub marker 0 (U.word c) s

/-- The gaps between the matches; `cur` is what the scan has of the latest one, and `start` its
    place. -/
def gaps : (i skip : Nat) → Bool → (start : Nat) → (cur : List Char) → List Char →
    List (Nat × List Char)
  | _, _, _, start, cur, [] => [(start, cur)]
  | i, skip + 1, _, start, cur, c :: s => gaps (i + 1) skip (U.word c) start cur s
  | i, 0, w, start, cur, c :: s =>
    match (T w (c :: s)).head? with
    | some (n + 1) => (start, cur) :: gaps (i + 1) n (U.word c) (i + n + 1) [] s
    | _ => gaps (i + 1) 0 (U.word c) start (cur ++ [c]) s

/-- The matches in a piece, by their places in the text. -/
def finditer (piece : Nat × List Char) : List (Nat × Nat) := spans U T piece.1 0 false piece.2

/-- The gaps of a piece. -/
def gapsOf (piece : Nat × List Char) : List (Nat × List Char) :=
  gaps U T piece.1 0 false piece.1 [] piece.2

/-- No match anywhere. -/
def Clean (s : List Char) : Prop := ∀ x y, s = x ++ y → T (wordAfter U false x) y = []

end Passes

variable {U : Unicode} {T : Tries} {marker : List Char} {i j skip start n : Nat} {w : Bool}
  {c : Char} {s x y cur front g back : List Char} {piece : Nat × List Char} {span : Nat × Nat}

/-! ## What a pass leaves -/

theorem gaps_ne_nil : gaps U T i skip w start cur s ≠ [] := by
  induction s generalizing i skip w start cur with
  | nil => exact List.cons_ne_nil _ _
  | cons c s ih =>
    cases skip with
    | succ skip => exact ih
    | zero =>
      unfold gaps
      split
      · exact List.cons_ne_nil _ _
      · exact ih

theorem gapsOf_ne_nil : gapsOf U T piece ≠ [] := gaps_ne_nil

theorem intercalate_append {a b : List (List Char)} (ha : a ≠ []) (hb : b ≠ []) :
    marker.intercalate (a ++ b) = marker.intercalate a ++ marker ++ marker.intercalate b := by
  induction a with
  | nil => exact absurd rfl ha
  | cons g a ih =>
    cases a with
    | nil =>
      cases b with
      | nil => exact absurd rfl hb
      | cons h b => simp [List.intercalate]
    | cons g' a =>
      have hrest := ih (List.cons_ne_nil g' a)
      simp only [List.cons_append, List.intercalate_cons_cons] at hrest ⊢
      rw [hrest]
      simp only [List.append_assoc]

theorem map_snd_ne_nil {pieces : List (Nat × List Char)} (h : pieces ≠ []) :
    pieces.map Prod.snd ≠ [] := fun hnil => h (List.map_eq_nil_iff.1 hnil)

/-- A pass leaves the gaps, with the marker between them. -/
theorem intercalate_gaps : marker.intercalate ((gaps U T i skip w start cur s).map Prod.snd) =
    cur ++ sub U T marker skip w s := by
  induction s generalizing i skip w start cur with
  | nil => simp [gaps, sub]
  | cons c s ih =>
    cases skip with
    | succ skip => exact ih
    | zero =>
      unfold gaps sub
      split
      · next n heq =>
        rw [List.map_cons, ← List.singleton_append, intercalate_append (List.cons_ne_nil _ _)
          (map_snd_ne_nil gaps_ne_nil), ih]
        simp
      · rw [ih, List.append_assoc, List.singleton_append]

theorem sub_eq (s : List Char) (o : Nat) : sub U T marker 0 false s =
    marker.intercalate ((gapsOf U T (o, s)).map Prod.snd) := by
  unfold gapsOf
  rw [intercalate_gaps, List.nil_append]

/-! ## Markers -/

/-- A pass is the same on both sides of a separator. -/
theorem sub_append (hsep : Separated c T) (hwithin : Fits T) (hc : U.word c = false)
    (hskip : skip ≤ x.length) : sub U T marker skip w (x ++ c :: y) =
      sub U T marker skip w x ++ c :: sub U T marker 0 false y := by
  induction x generalizing skip w with
  | nil =>
    obtain rfl : skip = 0 := Nat.le_zero.1 hskip
    have hends : T w (c :: y) = T w [] := hsep w [] y
    have hnone : ∀ n, (T w []).head? ≠ some (n + 1) := fun n hn =>
      absurd (hwithin w [] _ (List.mem_of_mem_head? hn)) (Nat.not_succ_le_zero n)
    show sub U T marker 0 w (c :: y) = c :: sub U T marker 0 false y
    conv_lhs => unfold sub
    rw [hends]
    split
    · next n heq => exact absurd heq (hnone n)
    · rw [hc]
  | cons d x ih =>
    cases skip with
    | succ skip => exact ih (Nat.le_of_succ_le_succ hskip)
    | zero =>
      have hends : T w (d :: (x ++ c :: y)) = T w (d :: x) := hsep w (d :: x) y
      rw [List.cons_append, sub, sub, hends]
      split
      · next n heq =>
        have hn := hwithin w (d :: x) _ (List.mem_of_mem_head? heq)
        rw [ih (Nat.le_of_succ_le_succ hn), List.append_assoc]
      · rw [ih (Nat.zero_le _), List.cons_append]

theorem sub_of_clean (h : Clean U T s) : sub U T marker 0 false s = s := by
  have hrest : ∀ x y, s = x ++ y → sub U T marker 0 (wordAfter U false x) y = y := by
    intro x y
    induction y generalizing x with
    | nil => exact fun _ => rfl
    | cons c y ih =>
      intro hs
      have hnext := ih (x ++ [c]) (by rw [hs, List.append_assoc]; rfl)
      rw [wordAfter_append] at hnext
      rw [sub, h x (c :: y) hs]
      exact congrArg (c :: ·) hnext
  exact hrest [] s rfl

theorem Clean.append (hsep : Separated c T) (hnil : ∀ w, T w [] = []) (hc : U.word c = false)
    (hx : Clean U T x) (hy : Clean U T y) : Clean U T (x ++ c :: y) := by
  intro a b hab
  rcases List.append_eq_append_iff.1 hab with ⟨d, rfl, hb⟩ | ⟨d, rfl, hb⟩
  · cases d with
    | nil =>
      rw [List.append_nil]
      obtain rfl : b = c :: y := by simpa using hb.symm
      exact (hsep _ [] y).trans (hnil _)
    | cons d rest =>
      obtain ⟨rfl, rfl⟩ := List.cons.inj hb
      have hflag : wordAfter U false (x ++ c :: rest) = wordAfter U false rest := by
        rw [wordAfter_append]
        show wordAfter U (U.word c) rest = _
        rw [hc]
      rw [hflag]
      exact hy rest b rfl
  · rw [hb, hsep]
    exact hx a d rfl

/-- A marker between separators, in which the expression finds nothing. -/
structure MarkedOff (U : Unicode) (T : Tries) (marker : List Char) : Prop where
  within : Fits T
  nil : ∀ w, T w [] = []
  parts : ∃ o mid e, marker = o :: (mid ++ [e]) ∧ Separated o T ∧ Separated e T ∧
    U.word o = false ∧ U.word e = false ∧ Clean U T mid

/-- A pass leaves the marker alone and works on its two sides. -/
theorem MarkedOff.sub_append {m : List Char} (h : MarkedOff U T marker) (x y : List Char) :
    sub U T m 0 false (x ++ marker ++ y) =
      sub U T m 0 false x ++ marker ++ sub U T m 0 false y := by
  obtain ⟨o, mid, e, rfl, ho, he, hwo, hwe, hmid⟩ := h.parts
  have hform : x ++ o :: (mid ++ [e]) ++ y = x ++ o :: (mid ++ e :: y) := by simp
  rw [hform, Python.sub_append ho h.within hwo (Nat.zero_le _),
    Python.sub_append he h.within hwe (Nat.zero_le _), sub_of_clean hmid]
  simp

theorem MarkedOff.clean_append (h : MarkedOff U T marker) (hx : Clean U T x) (hy : Clean U T y) :
    Clean U T (x ++ marker ++ y) := by
  obtain ⟨o, mid, e, rfl, ho, he, hwo, hwe, hmid⟩ := h.parts
  have hform : x ++ o :: (mid ++ [e]) ++ y = x ++ o :: (mid ++ e :: y) := by simp
  rw [hform]
  exact hx.append ho h.nil hwo (hmid.append he h.nil hwe hy)

/-- The next pass over what a pass has left works on each gap alone. -/
theorem MarkedOff.sub_intercalate (h : MarkedOff U T marker) {pieces : List (Nat × List Char)}
    (hne : pieces ≠ []) : sub U T marker 0 false (marker.intercalate (pieces.map Prod.snd)) =
      marker.intercalate ((pieces.flatMap (gapsOf U T)).map Prod.snd) := by
  induction pieces with
  | nil => exact absurd rfl hne
  | cons piece pieces ih =>
    cases pieces with
    | nil => simpa [List.intercalate] using sub_eq piece.2 piece.1
    | cons piece' pieces =>
      have hrest := ih (List.cons_ne_nil _ _)
      have hflat : (piece' :: pieces).flatMap (gapsOf U T) ≠ [] := by
        rw [List.flatMap_cons]
        exact List.append_ne_nil_of_left_ne_nil gapsOf_ne_nil _
      have hcons : (piece :: piece' :: pieces).flatMap (gapsOf U T) =
          gapsOf U T piece ++ (piece' :: pieces).flatMap (gapsOf U T) := List.flatMap_cons
      rw [List.map_cons, ← List.singleton_append,
        intercalate_append (List.cons_ne_nil _ _) (map_snd_ne_nil (List.cons_ne_nil _ _)),
        h.sub_append, hrest, hcons, List.map_append,
        intercalate_append (map_snd_ne_nil gapsOf_ne_nil) (map_snd_ne_nil hflat)]
      congr 2
      simpa [List.intercalate] using sub_eq piece.2 piece.1

theorem MarkedOff.clean_intercalate (h : MarkedOff U T marker) {pieces : List (List Char)}
    (hall : ∀ g ∈ pieces, Clean U T g) : Clean U T (marker.intercalate pieces) := by
  induction pieces with
  | nil =>
    intro x y hxy
    obtain ⟨rfl, rfl⟩ := List.append_eq_nil_iff.1 hxy.symm
    exact h.nil _
  | cons g pieces ih =>
    obtain ⟨hg, hrest⟩ := List.forall_mem_cons.1 hall
    cases pieces with
    | nil => simpa [List.intercalate] using hg
    | cons g' pieces =>
      rw [← List.singleton_append, intercalate_append (List.cons_ne_nil _ _) (List.cons_ne_nil _ _)]
      refine h.clean_append ?_ (ih hrest)
      simpa [List.intercalate] using hg

/-! ## What a pass finds -/

/-- What can match at a place of a piece. -/
def triesAt (U : Unicode) (T : Tries) (piece : Nat × List Char) (j : Nat) : List Nat :=
  T (wordAfter U false (piece.2.take (j - piece.1))) (piece.2.drop (j - piece.1))

/-- The preferred match there. -/
def matchAt (U : Unicode) (T : Tries) (piece : Nat × List Char) (j : Nat) : Option Nat :=
  (triesAt U T piece j).head?

/-- Some match takes the character there. -/
def Covered (found : List (Nat × Nat)) (j : Nat) : Prop :=
  ∃ span ∈ found, span.1 ≤ j ∧ j < span.2

theorem mem_spans (h : span ∈ spans U T i skip w s) : ∃ x y, s = x ++ y ∧ span.1 = i + x.length ∧
    skip ≤ x.length ∧ span.1 < span.2 ∧
      (T (wordAfter U w x) y).head? = some (span.2 - span.1) := by
  induction s generalizing i skip w with
  | nil => cases h
  | cons c s ih =>
    -- from the rest of the text on
    have hrest : ∀ k, skip ≤ k + 1 → span ∈ spans U T (i + 1) k (U.word c) s → ∃ x y,
        c :: s = x ++ y ∧ span.1 = i + x.length ∧ skip ≤ x.length ∧ span.1 < span.2 ∧
          (T (wordAfter U w x) y).head? = some (span.2 - span.1) := by
      intro k hk hspan
      obtain ⟨x, y, rfl, hat, hskip, hlt, hhead⟩ := ih hspan
      refine ⟨c :: x, y, rfl, ?_, ?_, hlt, hhead⟩
      · rw [List.length_cons]
        omega
      · rw [List.length_cons]
        omega
    cases skip with
    | succ skip => exact hrest skip (Nat.le_refl _) h
    | zero =>
      unfold spans at h
      split at h
      · next n heq =>
        rcases List.mem_cons.1 h with rfl | h
        · refine ⟨[], c :: s, rfl, rfl, Nat.le_refl 0, by omega, ?_⟩
          show (T w (c :: s)).head? = some (i + n + 1 - i)
          rw [heq]
          congr 1
          omega
        · exact hrest n (Nat.zero_le _) h
      · exact hrest 0 (Nat.zero_le _) h

theorem exists_spans (hwithin : Fits T) (hskip : skip ≤ x.length) (hs : s = x ++ y) (hpos : 0 < n)
    (h : (T (wordAfter U w x) y).head? = some n) :
    Covered (spans U T i skip w s) (i + x.length) := by
  induction s generalizing i skip w x with
  | nil =>
    obtain ⟨rfl, rfl⟩ := List.append_eq_nil_iff.1 hs.symm
    have hle := hwithin _ _ _ (List.mem_of_mem_head? h)
    exact absurd hpos (by simpa using hle)
  | cons c s ih =>
    cases x with
    | nil =>
      obtain rfl : skip = 0 := Nat.le_zero.1 hskip
      obtain rfl : c :: s = y := hs
      obtain ⟨k, rfl⟩ := Nat.exists_eq_add_of_lt hpos
      rw [Nat.zero_add] at h
      unfold spans
      rw [show T w (c :: s) = T (wordAfter U w []) (c :: s) from rfl, h]
      exact ⟨_, .head _, Nat.le_refl i, show i + 0 < i + k + 1 by omega⟩
    | cons d x =>
      obtain ⟨rfl, hrest⟩ : c = d ∧ s = x ++ y := List.cons.inj hs
      have hplace : i + (c :: x).length = i + 1 + x.length := by
        rw [List.length_cons]
        omega
      rw [hplace]
      cases skip with
      | succ skip => exact ih (Nat.le_of_succ_le_succ hskip) hrest h
      | zero =>
        unfold spans
        split
        · next k heq =>
          by_cases hk : k ≤ x.length
          · obtain ⟨span, hspan, hcovers⟩ := ih hk hrest h
            exact ⟨span, .tail _ hspan, hcovers⟩
          · exact ⟨_, .head _, by omega, by omega⟩
        · exact ih (Nat.zero_le _) hrest h

theorem le_of_mem_spans (h : span ∈ spans U T i skip w s) : i + skip ≤ span.1 := by
  obtain ⟨x, y, -, hat, hskip, -⟩ := mem_spans h
  omega

theorem spans_apart : (spans U T i skip w s).Pairwise fun a b => a.2 ≤ b.1 := by
  induction s generalizing i skip w with
  | nil => exact .nil
  | cons c s ih =>
    cases skip with
    | succ skip => exact ih
    | zero =>
      unfold spans
      split
      · next n heq =>
        refine .cons (fun span hspan => ?_) ih
        have hle := le_of_mem_spans hspan
        show i + n + 1 ≤ span.1
        omega
      · exact ih

theorem mem_finditer (h : span ∈ finditer U T piece) : piece.1 ≤ span.1 ∧ span.1 < span.2 ∧
    matchAt U T piece span.1 = some (span.2 - span.1) := by
  obtain ⟨x, y, hs, hat, -, hlt, hhead⟩ := mem_spans h
  refine ⟨by omega, hlt, ?_⟩
  unfold matchAt triesAt
  rwa [hs, hat, Nat.add_sub_cancel_left, List.take_left, List.drop_left, ← hat]

theorem end_le_of_mem_finditer (hT : Framed U T) (h : span ∈ finditer U T piece) :
    span.2 ≤ piece.1 + piece.2.length := by
  obtain ⟨hle, hlt, hmatch⟩ := mem_finditer h
  have hend := hT.within _ _ _ (List.mem_of_mem_head? hmatch)
  rw [List.length_drop] at hend
  omega

/-- A match is over every place where one begins. -/
theorem exists_finditer (hT : Framed U T) (hle : piece.1 ≤ j)
    (h : matchAt U T piece j ≠ none) : Covered (finditer U T piece) j := by
  obtain ⟨n, hn⟩ := Option.ne_none_iff_exists'.1 h
  obtain ⟨-, hhead, hpos⟩ := hT.opens _ _ _ (List.mem_of_mem_head? hn)
  -- the place lies in the piece
  have hlt : j - piece.1 < piece.2.length := by
    by_contra hlt
    rw [List.drop_eq_nil_iff.2 (Nat.le_of_not_lt hlt)] at hhead
    cases hhead
  have hlength : (piece.2.take (j - piece.1)).length = j - piece.1 := by
    rw [List.length_take]
    omega
  have hcovered := @exists_spans U T piece.1 0 n false piece.2 _ _ hT.within (Nat.zero_le _)
    (List.take_append_drop (j - piece.1) piece.2).symm hpos hn
  rwa [hlength, Nat.add_sub_cancel' hle] at hcovered

/-- Two matches over one place are one. -/
theorem finditer_unique {a b : Nat × Nat} (ha : a ∈ finditer U T piece)
    (hb : b ∈ finditer U T piece) (ha' : a.1 ≤ j ∧ j < a.2) (hb' : b.1 ≤ j ∧ j < b.2) : a = b := by
  have happart : (finditer U T piece).Pairwise fun a b => a.2 ≤ b.1 := spans_apart
  have hone := List.Pairwise.forall_of_forall_of_flip
    (R := fun a b : Nat × Nat => a.1 ≤ j ∧ j < a.2 → b.1 ≤ j ∧ j < b.2 → a = b)
    (fun _ _ _ _ => rfl) (happart.imp fun h _ _ => by omega) (happart.imp fun h _ _ => by omega)
  exact hone ha hb ha' hb'

/-! ## Pieces -/

/-- `piece` is cut out of `whole` beside no word. -/
def Cut (U : Unicode) (whole piece : Nat × List Char) : Prop :=
  ∃ front back, whole.2 = front ++ piece.2 ++ back ∧ piece.1 = whole.1 + front.length ∧
    (wordAfter U false front = true → headWord U piece.2 = false) ∧
      (wordAfter U false (front ++ piece.2) = true → headWord U back = false)

variable {whole : Nat × List Char}

theorem Cut.refl (piece : Nat × List Char) : Cut U piece piece :=
  ⟨[], [], by simp, rfl, fun h => (nomatch h), fun _ => rfl⟩

theorem Cut.bounds (h : Cut U whole piece) :
    whole.1 ≤ piece.1 ∧ piece.1 + piece.2.length ≤ whole.1 + whole.2.length := by
  obtain ⟨front, back, hwhole, hat, -, -⟩ := h
  have hlength := congrArg List.length hwhole
  rw [List.length_append, List.length_append] at hlength
  omega

/-- The piece has the characters that stand there in the whole. -/
theorem Cut.eq_take (h : Cut U whole piece) :
    piece.2 = (whole.2.drop (piece.1 - whole.1)).take piece.2.length := by
  obtain ⟨front, back, hwhole, hat, -, -⟩ := h
  rw [hwhole, hat, Nat.add_sub_cancel_left, List.append_assoc, List.drop_left, List.take_left]

theorem wordAfter_of_ne_nil (h : x ≠ []) (w w' : Bool) : wordAfter U w x = wordAfter U w' x := by
  cases x with
  | nil => exact absurd rfl h
  | cons c x => rfl

/-- What of a piece is cut out of the whole that way is so of each. -/
theorem Cut.trans {part : Nat × List Char} (h : Cut U whole piece) (h' : Cut U piece part) :
    Cut U whole part := by
  obtain ⟨front, back, hwhole, hat, hleft, hright⟩ := h
  obtain ⟨front', back', hpiece, hat', hleft', hright'⟩ := h'
  rw [hpiece] at hwhole hleft hright
  refine ⟨front ++ front', back' ++ back, by rw [hwhole]; simp, ?_, fun hword => ?_,
    fun hword => ?_⟩
  · rw [List.length_append]
    omega
  · cases hfront : front' with
    | nil =>
      rw [hfront, List.append_nil] at hword
      have hhead := hleft hword
      rw [hfront, List.nil_append] at hhead
      cases hpart : part.2 with
      | nil => rfl
      | cons d rest =>
        rw [hpart] at hhead
        exact hhead
    | cons d rest =>
      refine hleft' ?_
      rw [wordAfter_append, hfront] at hword
      rw [hfront]
      exact hword
  · cases hback : back' with
    | nil =>
      rw [List.nil_append]
      refine hright ?_
      rwa [hback, List.append_nil, ← List.append_assoc]
    | cons d rest =>
      show headWord U (d :: rest) = false
      rw [← hback]
      by_cases hempty : front' ++ part.2 = []
      · rw [List.append_assoc, hempty, List.append_nil] at hword
        have hhead := hleft hword
        rwa [hempty, List.nil_append] at hhead
      · refine hright' ?_
        rw [List.append_assoc, wordAfter_append] at hword
        rwa [wordAfter_of_ne_nil hempty false (wordAfter U false front)]

theorem head?_ne_none {l : List Nat} : l.head? ≠ none ↔ l ≠ [] := by
  rw [ne_eq, List.head?_eq_none_iff]

/-- A place of a piece, as the piece and as the whole have it: `x`, `y` stand on its two sides. -/
theorem Cut.exists_sides (h : Cut U whole piece) (hle : piece.1 ≤ j)
    (hlt : j < piece.1 + piece.2.length) : ∃ x y w back, y ≠ [] ∧ piece.1 + x.length = j ∧
      piece.2 = x ++ y ∧ triesAt U T piece j = T (wordAfter U false x) y ∧
      triesAt U T whole j = T w (y ++ back) ∧
      (headWord U y = true → w = false → wordAfter U false x = false) ∧
      (headWord U y = true → wordAfter U false x = false → w = false) ∧
      (wordAfter U w y = true → headWord U back = false) := by
  obtain ⟨front, back, hwhole, hat, hleft, hright⟩ := h
  obtain ⟨x, y, hpiece, hlength⟩ : ∃ x y, piece.2 = x ++ y ∧ x.length = j - piece.1 :=
    ⟨_, _, (List.take_append_drop (j - piece.1) piece.2).symm, by rw [List.length_take]; omega⟩
  have hy : y ≠ [] := by
    rintro rfl
    rw [hpiece, List.append_nil] at hlt
    omega
  have hplace : j - whole.1 = (front ++ x).length := by
    rw [List.length_append]
    omega
  have hsides : whole.2 = (front ++ x) ++ (y ++ back) := by
    rw [hwhole, hpiece]
    simp
  refine ⟨x, y, wordAfter U false (front ++ x), back, hy, by omega, hpiece, ?_, ?_, ?_, ?_, ?_⟩
  · unfold triesAt
    rw [← hlength, hpiece, List.take_left, List.drop_left]
  · unfold triesAt
    rw [hplace, hsides, List.take_left, List.drop_left]
  · intro _ hw
    cases x with
    | nil => rfl
    | cons c x => rwa [wordAfter_append] at hw
  · intro hhead hw
    cases x with
    | nil =>
      rw [List.append_nil, ← Bool.not_eq_true]
      intro hword
      have hnot := hleft hword
      rw [hpiece, List.nil_append, hhead] at hnot
      cases hnot
    | cons c x => rwa [wordAfter_append]
  · intro hword
    refine hright ?_
    rw [hpiece, ← List.append_assoc, wordAfter_append]
    exact hword

/-- What could match in a piece could match in the whole. -/
theorem Cut.mem_triesAt (hT : Framed U T) (h : Cut U whole piece) (hle : piece.1 ≤ j)
    (hn : n ∈ triesAt U T piece j) : n ∈ triesAt U T whole j := by
  by_cases hlt : j < piece.1 + piece.2.length
  · obtain ⟨x, y, w, back, hy, -, -, hpiece, hwhole, -, hflag, hcut⟩ :=
      @exists_sides U T j _ _ h hle hlt
    rw [hpiece] at hn
    obtain ⟨hw, hhead, -⟩ := hT.opens _ _ _ hn
    rw [hw] at hn
    rw [hwhole, hflag hhead hw]
    rw [hflag hhead hw] at hcut
    exact hT.extend false y back n hcut hn
  · unfold triesAt at hn
    rw [List.drop_eq_nil_iff.2 (by omega)] at hn
    exact Bool.noConfusion (hT.opens _ _ _ hn).2.1

theorem Cut.matchAt_whole (hT : Framed U T) (h : Cut U whole piece) (hle : piece.1 ≤ j)
    (hmatch : matchAt U T piece j ≠ none) : matchAt U T whole j ≠ none := by
  unfold matchAt at hmatch ⊢
  rw [head?_ne_none] at hmatch ⊢
  obtain ⟨n, hn⟩ := List.exists_mem_of_ne_nil _ hmatch
  exact List.ne_nil_of_mem (h.mem_triesAt hT hle hn)

/-- What matches in the whole and ends in the piece matches there. -/
theorem Cut.matchAt_piece (hT : Framed U T) (h : Cut U whole piece) (hle : piece.1 ≤ j)
    (hmatch : matchAt U T whole j = some n) (hend : j + n ≤ piece.1 + piece.2.length) :
    matchAt U T piece j = some n := by
  have hpos : 0 < n := (hT.opens _ _ _ (List.mem_of_mem_head? hmatch)).2.2
  obtain ⟨x, y, w, back, hy, hx, hsplit, hpiece, hwhole, hflag, -, hcut⟩ :=
    @exists_sides U T j _ _ h hle (by omega)
  unfold matchAt at hmatch ⊢
  rw [hwhole] at hmatch
  obtain ⟨rfl, hhead, -⟩ := hT.opens _ _ _ (List.mem_of_mem_head? hmatch)
  rw [headWord_append_of_ne hy] at hhead
  rw [hpiece, hflag hhead rfl]
  refine hT.restrict false y back n hcut hmatch ?_
  rw [hsplit, List.length_append] at hend
  omega

/-! ## A pass over a piece -/

/-- No match of the whole runs into the piece. -/
def Unentered (U : Unicode) (T : Tries) (whole piece : Nat × List Char) : Prop :=
  ∀ span ∈ finditer U T whole, span.1 < piece.1 → span.2 ≤ piece.1

/-- Where the pass over the whole has a match, the one over the piece comes to as well: it has no
    match there, or one that begins there. -/
theorem Cut.start_of_covered (hT : Framed U T) (h : Cut U whole piece)
    (hentry : Unentered U T whole piece) {q e : Nat} (hspan : (q, e) ∈ finditer U T whole)
    (hle : piece.1 ≤ q) (hlt : q < piece.1 + piece.2.length)
    (hfound : span ∈ finditer U T piece) (hover : span.1 ≤ q ∧ q < span.2) : span.1 = q := by
  -- by induction on the place: an earlier match of the piece would be over the one before
  induction q using Nat.strongRecOn generalizing e span with
  | ind q ih =>
    by_contra hne
    obtain ⟨hle', hlt', hmatch⟩ := mem_finditer hfound
    obtain ⟨before, hbefore, hcovers⟩ := exists_finditer hT (Nat.le_trans h.bounds.1 hle')
      (h.matchAt_whole hT hle' (by rw [hmatch]; exact Option.some_ne_none _))
    have hinside : piece.1 ≤ before.1 := by
      by_contra hout
      have hends := hentry before hbefore (by omega)
      omega
    have hends : before.2 ≤ q := by
      by_contra hlater
      have hsame := finditer_unique (j := q) hbefore hspan (by omega)
        ⟨Nat.le_refl q, (mem_finditer hspan).2.1⟩
      rw [hsame] at hcovers
      omega
    obtain ⟨-, hbefore', hmatch'⟩ := mem_finditer hbefore
    have hpiece := h.matchAt_piece hT hinside hmatch' (by omega)
    obtain ⟨found, hfound', hcovers'⟩ := exists_finditer hT hinside
      (by rw [hpiece]; exact Option.some_ne_none _)
    have hstart := ih before.1 (by omega) hbefore hinside (by omega) hfound' hcovers'
    obtain ⟨-, -, hmatch''⟩ := mem_finditer hfound'
    rw [hstart, hpiece, Option.some.injEq] at hmatch''
    have hsame := finditer_unique (j := span.1) hfound' hfound (by omega)
      ⟨Nat.le_refl _, by omega⟩
    rw [hsame] at hmatch'' hstart
    omega

/-- A match of the whole that begins in the piece begins in the pass over the piece, if anything
    matches there. -/
theorem Cut.mem_finditer (hT : Framed U T) (h : Cut U whole piece)
    (hentry : Unentered U T whole piece) {q e : Nat} (hspan : (q, e) ∈ finditer U T whole)
    (hle : piece.1 ≤ q) (hlt : q < piece.1 + piece.2.length)
    (hmatch : matchAt U T piece q = some n) : (q, q + n) ∈ finditer U T piece := by
  obtain ⟨found, hfound, hcovers⟩ := exists_finditer hT hle
    (by rw [hmatch]; exact Option.some_ne_none _)
  have hstart := h.start_of_covered hT hentry hspan hle hlt hfound hcovers
  obtain ⟨-, hlt', hmatch'⟩ := Python.mem_finditer hfound
  rw [hstart, hmatch, Option.some.injEq] at hmatch'
  have heq : found = (q, q + n) := Prod.ext hstart (by dsimp only; omega)
  rwa [← heq]

/-- Matches of the whole that run out of the piece end with it. -/
def EndsWith (U : Unicode) (T : Tries) (whole piece : Nat × List Char) : Prop :=
  ∀ span ∈ finditer U T whole, piece.1 ≤ span.1 → span.1 < piece.1 + piece.2.length →
    piece.1 + piece.2.length < span.2 →
      matchAt U T piece span.1 = some (piece.1 + piece.2.length - span.1)

/-- The pass over such a piece takes what the pass over the whole takes there. -/
theorem Cut.covered_iff (hT : Framed U T) (h : Cut U whole piece)
    (hentry : Unentered U T whole piece) (hend : EndsWith U T whole piece) (hle : piece.1 ≤ j)
    (hlt : j < piece.1 + piece.2.length) :
    Covered (finditer U T piece) j ↔ Covered (finditer U T whole) j := by
  -- a match of the whole, as far as the piece goes
  have hcuts : ∀ span ∈ finditer U T whole, piece.1 ≤ span.1 →
      span.1 < piece.1 + piece.2.length →
        (span.1, min span.2 (piece.1 + piece.2.length)) ∈ finditer U T piece := by
    intro span hspan hinside hbefore
    obtain ⟨-, hlt', hmatch⟩ := Python.mem_finditer hspan
    rcases Nat.lt_or_ge (piece.1 + piece.2.length) span.2 with hout | hin
    · have hfound := h.mem_finditer hT hentry hspan hinside hbefore
        (hend span hspan hinside hbefore hout)
      rwa [Nat.add_sub_cancel' (Nat.le_of_lt hbefore), ← Nat.min_eq_right (Nat.le_of_lt hout)]
        at hfound
    · have hfound := h.mem_finditer hT hentry hspan hinside hbefore
        (h.matchAt_piece hT hinside hmatch (by omega))
      rwa [Nat.add_sub_cancel' (Nat.le_of_lt hlt'), ← Nat.min_eq_left hin] at hfound
  constructor
  · rintro ⟨found, hfound, hcovers⟩
    obtain ⟨hle', hlt', hmatch⟩ := Python.mem_finditer hfound
    obtain ⟨span, hspan, hover⟩ := exists_finditer hT (Nat.le_trans h.bounds.1 hle')
      (h.matchAt_whole hT hle' (by rw [hmatch]; exact Option.some_ne_none _))
    have hinside : piece.1 ≤ span.1 := by
      by_contra hout
      have hends := hentry span hspan (by omega)
      omega
    have hsame := finditer_unique (j := found.1) (hcuts span hspan hinside (by omega)) hfound
      (by dsimp only; omega) (by omega)
    refine ⟨span, hspan, ?_⟩
    rw [← hsame] at hcovers
    dsimp only at hcovers
    omega
  · rintro ⟨span, hspan, hcovers⟩
    have hinside : piece.1 ≤ span.1 := by
      by_contra hout
      have hends := hentry span hspan (by omega)
      omega
    refine ⟨_, hcuts span hspan hinside (by omega), ?_⟩
    dsimp only
    omega

/-! ## Gaps -/

/-- Some piece has the character that stands there. -/
def Kept (pieces : List (Nat × List Char)) (j : Nat) : Prop :=
  ∃ piece ∈ pieces, piece.1 ≤ j ∧ j < piece.1 + piece.2.length

/-- Each gap is cut out beside no word; it begins and ends with the piece or beside a match. -/
theorem gaps_cut (hT : Framed U T) {pre front : List Char} (hwhole : whole.2 = pre ++ s)
    (hplace : i = whole.1 + pre.length) (hw : skip = 0 → w = wordAfter U false pre)
    (hskip : skip ≤ s.length) (hcur : whole.2 = front ++ cur ++ s.drop skip)
    (hstart : start = whole.1 + front.length)
    (hleft : wordAfter U false front = true → headWord U (cur ++ s.drop skip) = false)
    (h : piece ∈ gaps U T i skip w start cur s) : Cut U whole piece ∧
      (piece.1 = start ∨ ∃ span ∈ spans U T i skip w s, span.2 = piece.1) ∧
      (piece.1 + piece.2.length = whole.1 + whole.2.length ∨
        ∃ span ∈ spans U T i skip w s, span.1 = piece.1 + piece.2.length) := by
  induction s generalizing i skip w start cur pre front with
  | nil =>
    rw [List.drop_nil, List.append_nil] at hcur hleft
    obtain rfl := List.mem_singleton.1 h
    refine ⟨⟨front, [], by rw [List.append_nil, hcur], hstart, hleft, fun _ => rfl⟩, .inl rfl,
      .inl ?_⟩
    rw [hcur, List.length_append]
    dsimp only
    omega
  | cons c s ih =>
    have hwhole' : whole.2 = (pre ++ [c]) ++ s := by
      rw [hwhole, List.append_assoc, List.singleton_append]
    have hplace' : i + 1 = whole.1 + (pre ++ [c]).length := by
      rw [hplace, List.length_append, List.length_singleton, Nat.add_assoc]
    have hw' : U.word c = wordAfter U false (pre ++ [c]) := (wordAfter_concat false pre c).symm
    cases skip with
    | succ skip =>
      exact ih hwhole' hplace' (fun _ => hw') (Nat.le_of_succ_le_succ hskip) hcur hstart hleft h
    | zero =>
      rw [List.drop_zero] at hcur hleft
      have hpre : pre = front ++ cur := List.append_cancel_right (hwhole.symm.trans hcur)
      unfold gaps at h
      unfold spans
      split at h
      · next n heq =>
        rcases List.mem_cons.1 h with rfl | h
        · -- the gap that the match ends; no word character stands in front of the match
          have hopens := hT.opens _ _ _ (List.mem_of_mem_head? heq)
          refine ⟨⟨front, c :: s, hcur, hstart, fun hword => ?_, fun hword => ?_⟩, .inl rfl,
            .inr ⟨_, .head _, ?_⟩⟩
          · have hhead := hleft hword
            cases cur with
            | nil => rfl
            | cons d rest => exact hhead
          · rw [← hpre, ← hw rfl, hopens.1] at hword
            cases hword
          · dsimp only
            rw [hplace, hpre, hstart, List.length_append]
            omega
        · have hn := hT.within _ _ _ (List.mem_of_mem_head? heq)
          have hleaves := hT.leaves _ _ _ heq
          rw [List.length_cons] at hn
          have hcur' : whole.2 = (pre ++ (c :: s).take (n + 1)) ++ [] ++ s.drop n := by
            rw [hwhole, List.append_nil, List.append_assoc, ← List.drop_succ_cons,
              List.take_append_drop]
          obtain ⟨hcut, hbegin, hend⟩ := ih hwhole' hplace' (fun _ => hw')
            (Nat.le_of_succ_le_succ hn) hcur'
            (show i + n + 1 = whole.1 + (pre ++ (c :: s).take (n + 1)).length by
              rw [List.length_append, List.length_take, List.length_cons]; omega)
            (fun _ => hleaves) h
          refine ⟨hcut, ?_, ?_⟩
          · rcases hbegin with hbegin | ⟨span, hspan, heq'⟩
            · exact .inr ⟨_, .head _, hbegin.symm⟩
            · exact .inr ⟨span, .tail _ hspan, heq'⟩
          · rcases hend with hend | ⟨span, hspan, heq'⟩
            · exact .inl hend
            · exact .inr ⟨span, .tail _ hspan, heq'⟩
      · refine ih hwhole' hplace' (fun _ => hw') (Nat.zero_le _) ?_ hstart ?_ h
        · rw [hcur]
          simp
        · intro hword
          have hhead := hleft hword
          rwa [List.drop_zero, List.append_assoc, List.singleton_append]

theorem gapsOf_cut (hT : Framed U T) (h : piece ∈ gapsOf U T whole) : Cut U whole piece ∧
    (piece.1 = whole.1 ∨ ∃ span ∈ finditer U T whole, span.2 = piece.1) ∧
    (piece.1 + piece.2.length = whole.1 + whole.2.length ∨
      ∃ span ∈ finditer U T whole, span.1 = piece.1 + piece.2.length) :=
  @gaps_cut U T whole.1 0 whole.1 false whole.2 [] piece whole hT [] [] rfl rfl (fun _ => rfl)
    (Nat.zero_le _) rfl rfl (fun h => nomatch h) h

theorem kept_gaps_iff (hwithin : Fits T) (hskip : skip ≤ s.length)
    (hcur : start + cur.length = i + skip) : Kept (gaps U T i skip w start cur s) j ↔
      start ≤ j ∧ j < start + cur.length ∨ i + skip ≤ j ∧ j < i + s.length ∧
        ¬ Covered (spans U T i skip w s) j := by
  induction s generalizing i skip w start cur with
  | nil =>
    unfold gaps Kept
    simp only [List.mem_singleton, exists_eq_left, List.length_nil]
    omega
  | cons c s ih =>
    rw [List.length_cons] at hskip
    cases skip with
    | succ skip =>
      have hrest := @ih (i + 1) skip start (U.word c) cur (Nat.le_of_succ_le_succ hskip) (by omega)
      rw [List.length_cons, show i + (skip + 1) = i + 1 + skip by omega,
        show i + (s.length + 1) = i + 1 + s.length by omega]
      exact hrest
    | zero =>
      unfold gaps spans
      split
      · next n heq =>
        have hn := hwithin _ _ _ (List.mem_of_mem_head? heq)
        rw [List.length_cons] at hn
        have hrest := @ih (i + 1) n (i + n + 1) (U.word c) [] (Nat.le_of_succ_le_succ hn)
          (by rw [List.length_nil]; omega)
        have hsplit : Kept ((start, cur) :: gaps U T (i + 1) n (U.word c) (i + n + 1) [] s) j ↔
            start ≤ j ∧ j < start + cur.length ∨
              Kept (gaps U T (i + 1) n (U.word c) (i + n + 1) [] s) j := List.exists_mem_cons_iff ..
        have hover : Covered ((i, i + n + 1) :: spans U T (i + 1) n (U.word c) s) j ↔
            i ≤ j ∧ j < i + n + 1 ∨ Covered (spans U T (i + 1) n (U.word c) s) j :=
          List.exists_mem_cons_iff ..
        rw [hsplit, hrest, hover, List.length_nil, List.length_cons]
        constructor
        · rintro (h | h | ⟨h, h', hnot⟩)
          · exact .inl h
          · omega
          · exact .inr ⟨by omega, by omega, fun hor => hor.elim (by omega) hnot⟩
        · rintro (h | ⟨h, h', hnot⟩)
          · exact .inl h
          · rw [not_or] at hnot
            exact .inr (.inr ⟨by omega, by omega, hnot.2⟩)
      · have hrest := @ih (i + 1) 0 start (U.word c) (cur ++ [c]) (Nat.zero_le _)
          (by rw [List.length_append, List.length_singleton]; omega)
        rw [hrest, List.length_append, List.length_singleton, List.length_cons]
        constructor
        · rintro (h | ⟨h, h', hnot⟩)
          · by_cases hj : j < start + cur.length
            · exact .inl ⟨h.1, hj⟩
            · refine .inr ⟨by omega, by omega, ?_⟩
              rintro ⟨span, hspan, hover⟩
              have hle := le_of_mem_spans hspan
              omega
          · exact .inr ⟨by omega, by omega, hnot⟩
        · rintro (h | ⟨h, h', hnot⟩)
          · exact .inl ⟨h.1, by omega⟩
          · by_cases hj : j = i
            · exact .inl ⟨by omega, by omega⟩
            · exact .inr ⟨by omega, by omega, hnot⟩

/-- The gaps have the characters of the piece that no match takes. -/
theorem kept_gapsOf_iff (hwithin : Fits T) : Kept (gapsOf U T piece) j ↔
    piece.1 ≤ j ∧ j < piece.1 + piece.2.length ∧ ¬ Covered (finditer U T piece) j := by
  unfold gapsOf
  rw [kept_gaps_iff hwithin (Nat.zero_le _)
    (show piece.1 + ([] : List Char).length = piece.1 + 0 from rfl), List.length_nil]
  constructor
  · rintro (h | h)
    · omega
    · exact h
  · exact fun h => .inr h

/-- No match takes a character of a piece of a gap. -/
theorem not_covered_of_gap (hT : Framed U T) {gap : Nat × List Char} (hgap : gap ∈ gapsOf U T whole)
    (hcut : Cut U gap piece) (hle : piece.1 ≤ j) (hlt : j < piece.1 + piece.2.length) :
    ¬ Covered (finditer U T whole) j := by
  have hbounds := hcut.bounds
  have hkept : Kept (gapsOf U T whole) j := ⟨gap, hgap, by omega, by omega⟩
  exact ((kept_gapsOf_iff hT.within).1 hkept).2.2

/-- Pieces that follow one another. -/
def Ordered (pieces : List (Nat × List Char)) : Prop :=
  pieces.Pairwise fun a b => a.1 + a.2.length ≤ b.1

theorem start_le_of_mem_gaps (hcur : start + cur.length = i + skip)
    (h : piece ∈ gaps U T i skip w start cur s) : start ≤ piece.1 := by
  induction s generalizing i skip w start cur with
  | nil =>
    obtain rfl := List.mem_singleton.1 h
    exact Nat.le_refl _
  | cons c s ih =>
    cases skip with
    | succ skip => exact ih (by omega) h
    | zero =>
      unfold gaps at h
      split at h
      · next n heq =>
        rcases List.mem_cons.1 h with rfl | h
        · exact Nat.le_refl _
        · have hle := ih (by rw [List.length_nil]; omega) h
          omega
      · exact ih (by rw [List.length_append, List.length_singleton]; omega) h

theorem gaps_ordered (hcur : start + cur.length = i + skip) :
    Ordered (gaps U T i skip w start cur s) := by
  induction s generalizing i skip w start cur with
  | nil => exact List.pairwise_singleton _ _
  | cons c s ih =>
    cases skip with
    | succ skip => exact ih (by omega)
    | zero =>
      unfold gaps
      split
      · next n heq =>
        refine .cons (fun piece hpiece => ?_) (ih (by rw [List.length_nil]; omega))
        have hle := start_le_of_mem_gaps (by rw [List.length_nil]; omega) hpiece
        dsimp only
        omega
      · exact ih (by rw [List.length_append, List.length_singleton]; omega)

/-- Gaps of pieces that follow one another do so too. -/
theorem Ordered.flatMap_gapsOf (hT : Framed U T) {pieces : List (Nat × List Char)}
    (h : Ordered pieces) : Ordered (pieces.flatMap (gapsOf U T)) := by
  refine List.pairwise_flatMap.2 ⟨fun piece _ => gaps_ordered rfl, h.imp fun hle x hx y hy => ?_⟩
  have hx' := (gapsOf_cut hT hx).1.bounds
  have hy' := (gapsOf_cut hT hy).1.bounds
  omega

/-! ## What can still match -/

/-- In a piece without a character that a match over the whole takes, nothing matches. -/
theorem Cut.clean (hT : Framed U T) (h : Cut U whole piece)
    (hfree : ∀ j, piece.1 ≤ j → j < piece.1 + piece.2.length → ¬ Covered (finditer U T whole) j) :
    Clean U T piece.2 := by
  intro x y hxy
  by_contra hne
  have hat : matchAt U T piece (piece.1 + x.length) = (T (wordAfter U false x) y).head? := by
    unfold matchAt triesAt
    rw [hxy, Nat.add_sub_cancel_left, List.take_left, List.drop_left]
  have hmatch : matchAt U T piece (piece.1 + x.length) ≠ none := by
    rwa [hat, head?_ne_none]
  obtain ⟨n, hn⟩ := List.exists_mem_of_ne_nil _ hne
  have hhead := (hT.opens _ _ _ hn).2.1
  have hlt : piece.1 + x.length < piece.1 + piece.2.length := by
    cases y with
    | nil => cases hhead
    | cons c y =>
      rw [hxy, List.length_append, List.length_cons]
      omega
  exact hfree _ (Nat.le_add_right _ _) hlt (exists_finditer hT
    (Nat.le_trans h.bounds.1 (Nat.le_add_right _ _))
    (h.matchAt_whole hT (Nat.le_add_right _ _) hmatch))

/-- A piece begins there, and not with a word character. -/
def Rests (U : Unicode) (piece : Nat × List Char) (j : Nat) : Prop :=
  piece.1 = j ∧ piece.2 ≠ [] ∧ headWord U piece.2 = false

theorem Rests.bounds (h : Rests U piece j) : piece.1 ≤ j ∧ j < piece.1 + piece.2.length := by
  have hlength := List.length_pos_iff.2 h.2.1
  have hat := h.1
  omega

theorem Rests.not_covered (hT : Framed U T) (h : Rests U piece j) :
    ¬ Covered (finditer U T piece) j := by
  rintro ⟨span, hspan, hover⟩
  obtain ⟨hle, -, hmatch⟩ := Python.mem_finditer hspan
  obtain ⟨rfl, -, hhead⟩ := h
  rw [show span.1 = piece.1 by omega] at hmatch
  unfold matchAt triesAt at hmatch
  rw [Nat.sub_self, List.drop_zero] at hmatch
  have hopens := (hT.opens _ _ _ (List.mem_of_mem_head? hmatch)).2.1
  rw [hhead] at hopens
  cases hopens

/-- The first character of a gap, as the whole has it. -/
theorem Cut.headWord_eq (h : Cut U whole piece) (hne : piece.2 ≠ []) :
    headWord U piece.2 = headWord U (whole.2.drop (piece.1 - whole.1)) := by
  have hlength := List.length_pos_iff.2 hne
  rw [h.eq_take]
  cases whole.2.drop (piece.1 - whole.1) with
  | nil => simp
  | cons c s =>
    obtain ⟨n, hn⟩ := Nat.exists_eq_succ_of_ne_zero (Nat.ne_of_gt hlength)
    rw [hn]
    rfl

/-- A character that is kept behind one that is not, or at the beginning, begins a gap. -/
theorem rests_of_not_covered (hT : Framed U T) (hle : whole.1 ≤ j)
    (hlt : j < whole.1 + whole.2.length) (hnot : ¬ Covered (finditer U T whole) j)
    (hbegin : j = whole.1 ∨ Covered (finditer U T whole) (j - 1))
    (hhead : headWord U (whole.2.drop (j - whole.1)) = false) :
    ∃ gap ∈ gapsOf U T whole, Rests U gap j := by
  obtain ⟨gap, hgap, hover⟩ := (kept_gapsOf_iff hT.within).2 ⟨hle, hlt, hnot⟩
  obtain ⟨hcut, -, -⟩ := gapsOf_cut hT hgap
  have hstart : gap.1 = j := by
    rcases hbegin with rfl | hcovered
    · have hbounds := hcut.bounds
      omega
    · by_contra hne
      have hkept := (kept_gapsOf_iff hT.within).1 ⟨gap, hgap, show gap.1 ≤ j - 1 by omega, by omega⟩
      exact hkept.2.2 hcovered
  have hnonempty : gap.2 ≠ [] := by
    rintro hnil
    rw [hnil, List.length_nil] at hover
    omega
  refine ⟨gap, hgap, hstart, hnonempty, ?_⟩
  rwa [hcut.headWord_eq hnonempty, hstart]

/-- What begins a piece without being a word character stays where it is. -/
theorem Rests.exists_gapsOf (hT : Framed U T) (h : Rests U piece j) :
    ∃ gap ∈ gapsOf U T piece, Rests U gap j := by
  have hnot := h.not_covered hT
  obtain ⟨rfl, hne, hhead⟩ := h
  have hlength := List.length_pos_iff.2 hne
  refine rests_of_not_covered hT (Nat.le_refl _) (by omega) hnot (.inl rfl) ?_
  rwa [Nat.sub_self, List.drop_zero]

/-- What stands behind a match begins a gap, and not with a word character. -/
theorem rests_of_end (hT : Framed U T) (hspan : span ∈ finditer U T whole)
    (hlt : span.2 < whole.1 + whole.2.length) : ∃ gap ∈ gapsOf U T whole, Rests U gap span.2 := by
  obtain ⟨hle, hlt', hmatch⟩ := Python.mem_finditer hspan
  have hhead : headWord U (whole.2.drop (span.2 - whole.1)) = false := by
    have hleaves := hT.leaves _ _ _ hmatch
    rwa [List.drop_drop, show span.1 - whole.1 + (span.2 - span.1) = span.2 - whole.1 by omega]
      at hleaves
  refine rests_of_not_covered hT (by omega) hlt ?_ (.inr ⟨span, hspan, by omega, by omega⟩) hhead
  rintro ⟨span', hspan', hover⟩
  obtain ⟨-, hlt'', hmatch'⟩ := Python.mem_finditer hspan'
  rcases Nat.lt_or_eq_of_le hover.1 with hbefore | heq
  · have hsame := finditer_unique (j := span.2 - 1) hspan hspan' (by omega) (by omega)
    rw [hsame] at hover
    omega
  · rw [heq] at hmatch'
    have hopens := (hT.opens _ _ _ (List.mem_of_mem_head? hmatch')).2.1
    rw [hhead] at hopens
    cases hopens

/-! ## Two expressions -/

/-- Where a match takes none of the texts with which another expression opens, nothing of that one
    begins within the match. -/
theorem not_begun (hT' : Framed U T) {T' : Tries} {ps : List (List Char)}
    (hT : Framed U T') (havoids : Avoids U ps false T') (hopens : Opens U ps T) {q : Nat}
    (hle : piece.1 ≤ q) (hn : n ∈ triesAt U T' piece q) (hmatch : matchAt U T piece j ≠ none) :
    ¬ (q ≤ j ∧ j < q + n) := by
  rintro ⟨hqj, hj⟩
  have hwithin := hT.within _ _ _ hn
  unfold triesAt at hn
  unfold matchAt triesAt at hmatch
  rw [head?_ne_none] at hmatch
  obtain ⟨hw, -, -⟩ := hT.opens _ _ _ hn
  rw [hw] at hn
  -- the text from `q` on falls apart at `j`
  obtain ⟨s, hs⟩ : ∃ s, s = piece.2.drop (q - piece.1) := ⟨_, rfl⟩
  have hback : piece.2.drop (j - piece.1) = s.drop (j - q) := by
    rw [hs, List.drop_drop, show q - piece.1 + (j - q) = j - piece.1 by omega]
  have hfront : piece.2.take (j - piece.1) = piece.2.take (q - piece.1) ++ s.take (j - q) := by
    rw [hs, ← List.take_add, show q - piece.1 + (j - q) = j - piece.1 by omega]
  rw [hback, hfront, wordAfter_append, hw] at hmatch
  rw [← hs] at hn hwithin
  obtain ⟨k, hk⟩ := List.exists_mem_of_ne_nil _ hmatch
  obtain ⟨hword, -, -⟩ := hT'.opens _ _ _ hk
  obtain ⟨p, hp, hbegins⟩ := hopens _ _ hmatch
  exact havoids s n hn _ _ (List.take_append_drop (j - q) s).symm
    (by rw [List.length_take]; omega) hword p hp hbegins

/-- Nothing matches in a text that has none of the texts with which the expression opens. -/
theorem clean_of_avoids (hU : FoldLaws U) (hT : Framed U T) {ps : List (List Char)}
    (hopens : Opens U ps T) (hps : (ps.all fun p => p.all isAsciiChar) = true)
    (hs : s.all isAsciiChar = true) (h : avoids ps false s = true) : Clean U T s := by
  intro x y hxy
  by_contra hne
  obtain ⟨n, hn⟩ := List.exists_mem_of_ne_nil _ hne
  obtain ⟨hw, hhead, -⟩ := hT.opens _ _ _ hn
  obtain ⟨p, hp, hbegins⟩ := hopens _ _ hne
  have hself : s.length ∈ folded U s false s := mem_folded_iff.2 ⟨rfl, List.prefix_rfl⟩
  refine avoids_folded hU hps hs h s _ hself x y hxy ?_ hw p hp hbegins
  cases y with
  | nil => cases hhead
  | cons c y =>
    rw [hxy, List.length_append, List.length_cons]
    omega

/-- So of the matches in a piece, whatever else could match in the whole. -/
theorem Cut.not_begun (hT : Framed U T) {T' : Tries} (hT' : Framed U T') {ps : List (List Char)}
    (havoids : Avoids U ps false T') (hopens : Opens U ps T) (h : Cut U whole piece)
    (hspan : span ∈ finditer U T' piece) (hmatch : matchAt U T whole j ≠ none) :
    ¬ (span.1 ≤ j ∧ j < span.2) := by
  obtain ⟨hle, hlt, hmatch'⟩ := Python.mem_finditer hspan
  have hmem := h.mem_triesAt hT' hle (List.mem_of_mem_head? hmatch')
  have hnot := Python.not_begun hT hT' havoids hopens (Nat.le_trans h.bounds.1 hle) hmem hmatch
  rwa [Nat.add_sub_cancel' (Nat.le_of_lt hlt)] at hnot

/-- What matches at a place of a piece is what matches there in the whole, cut off where the piece
    ends. -/
theorem Cut.matchAt_take_iff (hT : Framed U T) (h : Cut U whole piece) (hle : piece.1 ≤ j) :
    matchAt U T (whole.1, whole.2.take (piece.1 + piece.2.length - whole.1)) j = some n ↔
      matchAt U T piece j = some n := by
  have hcut : Cut U (whole.1, whole.2.take (piece.1 + piece.2.length - whole.1)) piece := by
    obtain ⟨front, back, hwhole, hat, hleft, -⟩ := h
    refine ⟨front, [], ?_, hat, hleft, fun _ => rfl⟩
    have hlength : piece.1 + piece.2.length - whole.1 = (front ++ piece.2).length := by
      rw [List.length_append]
      omega
    rw [List.append_nil, hlength, hwhole, List.take_left]
  have hbounds := hcut.bounds
  have hpiece : ∀ k, matchAt U T (whole.1, whole.2.take (piece.1 + piece.2.length - whole.1)) j =
      some k → matchAt U T piece j = some k := by
    intro k hk
    refine hcut.matchAt_piece hT hle hk ?_
    have hend := hT.within _ _ _ (List.mem_of_mem_head? hk)
    have hpos := (hT.opens _ _ _ (List.mem_of_mem_head? hk)).2.2
    rw [List.length_drop, List.length_take] at hend
    dsimp only at hend
    omega
  refine ⟨hpiece n, fun hn => ?_⟩
  obtain ⟨k, hk⟩ := Option.ne_none_iff_exists'.1
    (hcut.matchAt_whole hT hle (by rw [hn]; exact Option.some_ne_none _))
  rw [hk, ← hpiece k hk, hn]

end Python
