/-
  Regular expressions with their preference: what `re` takes, of all that it could.

  1. `Tries` — the lengths that an expression can take of a text, in the order in which it tries
     them: greedy runs, sequences, choices.
  2. `Local` — an expression without `\b` looks at what it takes and no further.
  3. `FoldLaws`, `Opens`, `Closes` — the texts that it opens with, up to letter case, and that it
     ends with a word character.
  4. `Avoids` — the texts of which none begins within what it takes, as words begin.
  5. `Framed` — an expression that takes whole words, with none of their characters left on either
     side: it finds in a piece of a text what it finds in the text, as far as the piece goes.
  6. `framed_bounded`, `framed_run` — `\b…\b`, and `\b…` with a run of word characters at its end.
-/
import CanvasOS.Lib.Matches

namespace Python

/-- What an expression takes in front of a text, as numbers of characters, in the order of trying;
    the flag says that a word character precedes. -/
abbrev Tries := Bool → List Char → List Nat

section Expressions

variable (U : Unicode)

/-- A greedy run of the characters of a class. -/
def run (p : Char → Bool) (least : Nat) (most : Option Nat) : Tries := fun _ s =>
  let longest := most.elim (s.takeWhile p).length (min (s.takeWhile p).length)
  (List.range (longest + 1)).reverse.filter (least ≤ ·)

/-- `\b` -/
def atBoundary : Tries := fun w s => if w ≠ headWord U s then [0] else []

/-- One after the other. -/
def andThen (a b : Tries) : Tries := fun w s =>
  (a w s).flatMap fun n => (b (wordAfter U w (s.take n)) (s.drop n)).map (n + ·)

/-- The one, or else the other. -/
def orElse (a b : Tries) : Tries := fun w s => a w s ++ b w s

/-- Nothing. -/
def nothing : Tries := fun _ _ => [0]

/-- `(?:…)?` -/
def optional (a : Tries) : Tries := orElse a nothing

/-- `[…]` with single characters. -/
def oneOf (cs : List Char) : Tries := run cs.contains 1 (some 1)

/-- A text under `re.IGNORECASE`. -/
def folded (value : List Char) : Tries := fun _ s =>
  if (value.map U.fold).isPrefixOf (s.map U.fold) then [value.length] else []

end Expressions

variable {U : Unicode} {a b : Tries} {p : Char → Bool} {least n k : Nat} {most : Option Nat}
  {w : Bool} {c d : Char} {s t x y : List Char} {cs : List Char}

/-! ## Without `\b` -/

/-- What stands behind a text changes nothing within it. -/
def Local (a : Tries) : Prop := ∀ w x y, (a w (x ++ y)).filter (· ≤ x.length) = a w x

theorem Local.le_length (h : Local a) (hn : n ∈ a w s) : n ≤ s.length := by
  rw [← h w s []] at hn
  exact of_decide_eq_true (List.mem_filter.1 hn).2

theorem Local.mem_append (h : Local a) (hn : n ∈ a w x) : n ∈ a w (x ++ y) := by
  rw [← h w x y] at hn
  exact List.mem_of_mem_filter hn

theorem takeWhile_append_length (p : Char → Bool) (x y : List Char) :
    min ((x ++ y).takeWhile p).length x.length = (x.takeWhile p).length := by
  induction x with
  | nil => simp
  | cons c x ih =>
    cases hc : p c with
    | false => simp [hc]
    | true => simpa [hc, Nat.add_min_add_right] using ih

/-- The first numbers of a countdown that are small enough. -/
theorem filter_countdown (m k least : Nat) :
    ((List.range (m + 1)).reverse.filter (least ≤ ·)).filter (· ≤ k) =
      (List.range (min m k + 1)).reverse.filter (least ≤ ·) := by
  rw [List.filter_comm]
  congr 1
  rw [List.filter_reverse]
  congr 1
  induction m with
  | zero => simp
  | succ m ih =>
    rw [List.range_succ, List.filter_append, ih, List.filter_singleton]
    by_cases hk : m + 1 ≤ k
    · rw [decide_eq_true hk, Nat.min_eq_left hk, Nat.min_eq_left (Nat.le_of_succ_le hk)]
      exact List.range_succ.symm
    · rw [decide_eq_false hk, Nat.min_eq_right (by omega), Nat.min_eq_right (by omega)]
      exact List.append_nil _

theorem local_run (p : Char → Bool) (least : Nat) (most : Option Nat) :
    Local (run p least most) := by
  intro w x y
  unfold run
  dsimp only
  rw [filter_countdown]
  have hlength := takeWhile_append_length p x y
  cases most with
  | none => rw [Option.elim_none, Option.elim_none, hlength]
  | some m =>
    rw [Option.elim_some, Option.elim_some, ← hlength]
    congr 3
    omega

theorem local_nothing : Local nothing := fun _ _ _ => rfl

theorem Local.orElse (ha : Local a) (hb : Local b) : Local (orElse a b) := by
  intro w x y
  unfold Python.orElse
  rw [List.filter_append, ha, hb]

theorem flatMap_filter (q : Nat → Bool) (f : Nat → List Nat) (l : List Nat) :
    (l.filter q).flatMap f = l.flatMap fun n => if q n = true then f n else [] := by
  induction l with
  | nil => rfl
  | cons n l ih =>
    cases hn : q n with
    | true => simp [hn, ih]
    | false => simp [hn, ih]

theorem Local.andThen (ha : Local a) (hb : Local b) : Local (andThen U a b) := by
  intro w x y
  unfold Python.andThen
  rw [← ha w x y, List.filter_flatMap, flatMap_filter]
  refine List.flatMap_congr fun n _ => ?_
  by_cases hn : n ≤ x.length
  · rw [if_pos (decide_eq_true hn), List.take_append_of_le_length hn,
      List.drop_append_of_le_length hn, ← hb _ (x.drop n) y, List.filter_map]
    congr 1
    refine List.filter_congr fun m _ => ?_
    rw [Function.comp_apply, List.length_drop]
    exact decide_eq_decide.2 (by omega)
  · rw [if_neg (by simpa using hn), List.filter_map]
    refine List.map_eq_nil_iff.2 (List.filter_eq_nil_iff.2 fun m _ => ?_)
    rw [Function.comp_apply, decide_eq_true_eq]
    omega

/-- `t` begins with `s`, up to letter case. -/
def BeginsWith (U : Unicode) (s t : List Char) : Prop := s.map U.fold <+: t.map U.fold

theorem mem_folded_iff {value : List Char} :
    n ∈ folded U value w s ↔ n = value.length ∧ BeginsWith U value s := by
  unfold folded BeginsWith
  rw [← List.isPrefixOf_iff_prefix]
  split
  · next h => simp [h]
  · next h => simp [h]

theorem BeginsWith.length_le {value : List Char} (h : BeginsWith U value s) :
    value.length ≤ s.length := by
  have hle := List.IsPrefix.length_le h
  rwa [List.length_map, List.length_map] at hle

theorem beginsWith_append_iff {value : List Char} (hle : value.length ≤ x.length) :
    BeginsWith U value (x ++ y) ↔ BeginsWith U value x := by
  unfold BeginsWith
  rw [List.map_append]
  constructor
  · intro h
    refine List.prefix_of_prefix_length_le h (List.prefix_append _ _) ?_
    rwa [List.length_map, List.length_map]
  · exact fun h => h.trans (List.prefix_append _ _)

theorem local_folded (value : List Char) : Local (folded U value) := by
  intro w x y
  by_cases hle : value.length ≤ x.length
  · have hsame := @beginsWith_append_iff U x y value hle
    unfold BeginsWith at hsame
    rw [← List.isPrefixOf_iff_prefix, ← List.isPrefixOf_iff_prefix, Bool.coe_iff_coe] at hsame
    unfold folded
    rw [hsame]
    split
    · simp [hle]
    · rfl
  · have hnone : ∀ n, n ∉ folded U value w x := fun n hn =>
      hle (mem_folded_iff.1 hn).2.length_le
    rw [List.eq_nil_iff_forall_not_mem.2 hnone, List.filter_eq_nil_iff]
    intro n hn
    obtain ⟨rfl, -⟩ := mem_folded_iff.1 hn
    simpa using hle

/-! ## First and last characters -/

/-- Tables by which letter case does not decide what is a word character, nor what is a space. -/
structure FoldLaws (U : Unicode) : Prop where
  ascii : U.AsciiLike
  word_of_fold : ∀ c d, isAsciiChar d = true → U.fold c = U.fold d → U.word c = U.word d
  word_of_space : ∀ c, isSpace c = true → U.word c = false

/-- A word character of ASCII. -/
def asciiWord (c : Char) : Bool := isAsciiChar c && Unicode.ascii.word c

theorem FoldLaws.word_of_asciiWord (hU : FoldLaws U) (hd : asciiWord d = true)
    (heq : U.fold c = U.fold d) : U.word c = true := by
  obtain ⟨hascii, hword⟩ := Bool.and_eq_true_iff.1 hd
  rw [hU.word_of_fold c d hascii heq, hU.ascii.word d hascii, hword]

theorem FoldLaws.fold_ne (hU : FoldLaws U) (hc : isAsciiChar c = true) (hd : isAsciiChar d = true)
    (hne : lowerChar c ≠ lowerChar d) : U.fold c ≠ U.fold d := by
  rw [hU.ascii.fold c hc, hU.ascii.fold d hd]
  exact hne

/-- What the expression takes begins with one of these texts. -/
def Opens (U : Unicode) (ps : List (List Char)) (a : Tries) : Prop :=
  ∀ w s, a w s ≠ [] → ∃ p ∈ ps, BeginsWith U p s

/-- It begins with a word character. -/
def OpensWord (U : Unicode) (a : Tries) : Prop := ∀ w s, a w s ≠ [] → headWord U s = true

/-- It ends with a word character. -/
def Closes (U : Unicode) (a : Tries) : Prop :=
  ∀ w s n, n ∈ a w s → wordAfter U w (s.take n) = true

theorem andThen_ne_nil (h : andThen U a b w s ≠ []) : a w s ≠ [] := by
  rintro hnil
  refine h ?_
  rw [andThen, hnil, List.flatMap_nil]

theorem mem_andThen_iff : n ∈ andThen U a b w s ↔
    ∃ m ∈ a w s, ∃ k ∈ b (wordAfter U w (s.take m)) (s.drop m), n = m + k := by
  unfold andThen
  simp only [List.mem_flatMap, List.mem_map, eq_comm]

theorem Opens.andThen {ps : List (List Char)} (h : Opens U ps a) : Opens U ps (andThen U a b) :=
  fun w s hs => h w s (andThen_ne_nil hs)

theorem Opens.orElse {ps qs : List (List Char)} (ha : Opens U ps a) (hb : Opens U qs b) :
    Opens U (ps ++ qs) (orElse a b) := by
  intro w s h
  by_cases hnil : a w s = []
  · obtain ⟨q, hq, hbegins⟩ := hb w s (by rwa [Python.orElse, hnil, List.nil_append] at h)
    exact ⟨q, List.mem_append_right _ hq, hbegins⟩
  · obtain ⟨p, hp, hbegins⟩ := ha w s hnil
    exact ⟨p, List.mem_append_left _ hp, hbegins⟩

theorem opens_folded (value : List Char) : Opens U [value] (folded U value) := by
  intro w s h
  obtain ⟨n, hn⟩ := List.exists_mem_of_ne_nil _ h
  exact ⟨value, .head _, (mem_folded_iff.1 hn).2⟩

/-- What begins with a text and goes on with another begins with the two. -/
theorem opens_folded_andThen {qs : List (List Char)} (value : List Char) (hb : Opens U qs b) :
    Opens U (qs.map (value ++ ·)) (Python.andThen U (folded U value) b) := by
  intro w s h
  obtain ⟨n, hn⟩ := List.exists_mem_of_ne_nil _ h
  obtain ⟨m, hm, k, hk, -⟩ := mem_andThen_iff.1 hn
  obtain ⟨rfl, r, hr⟩ := mem_folded_iff.1 hm
  obtain ⟨q, hq, r', hr'⟩ := hb _ _ (List.ne_nil_of_mem hk)
  refine ⟨value ++ q, List.mem_map_of_mem hq, r', ?_⟩
  rw [List.map_append, List.append_assoc, hr', ← hr, List.map_drop, ← hr]
  congr 1
  rw [← List.length_map U.fold, List.drop_left]

theorem Opens.optional_andThen {ps qs : List (List Char)} (ha : Opens U ps a)
    (hb : Opens U qs b) : Opens U (ps ++ qs) (Python.andThen U (optional a) b) := by
  intro w s h
  by_cases hnil : a w s = []
  · obtain ⟨n, hn⟩ := List.exists_mem_of_ne_nil _ h
    obtain ⟨m, hm, k, hk, -⟩ := mem_andThen_iff.1 hn
    rw [optional, Python.orElse, hnil, List.nil_append] at hm
    obtain rfl := List.mem_singleton.1 hm
    obtain ⟨q, hq, hbegins⟩ := hb _ _ (List.ne_nil_of_mem hk)
    exact ⟨q, List.mem_append_right _ hq, hbegins⟩
  · obtain ⟨p, hp, hbegins⟩ := ha w s hnil
    exact ⟨p, List.mem_append_left _ hp, hbegins⟩

theorem BeginsWith.headWord (hU : FoldLaws U) {p : List Char} (hp : p.head?.any asciiWord = true)
    (h : BeginsWith U p s) : headWord U s = true := by
  obtain ⟨r, hr⟩ := h
  cases p with
  | nil => cases hp
  | cons d p =>
    cases s with
    | nil => cases hr
    | cons c s => exact hU.word_of_asciiWord hp (List.cons.inj hr).1.symm

theorem Opens.opensWord (hU : FoldLaws U) {ps : List (List Char)} (h : Opens U ps a)
    (hps : (ps.all fun p => p.head?.any asciiWord) = true) : OpensWord U a := by
  intro w s hs
  obtain ⟨p, hp, hbegins⟩ := h w s hs
  exact hbegins.headWord hU (List.all_eq_true.1 hps p hp)

theorem wordAfter_concat (w : Bool) (s : List Char) (c : Char) :
    wordAfter U w (s ++ [c]) = U.word c := by
  rw [wordAfter_append]
  rfl

/-- Letter case does not decide whether a word character stands last. -/
theorem FoldLaws.wordAfter_eq (hU : FoldLaws U) (ht : t.all isAsciiChar = true)
    (heq : s.map U.fold = t.map U.fold) (w : Bool) :
    wordAfter U w s = wordAfter Unicode.ascii w t := by
  induction s generalizing w t with
  | nil =>
    cases t with
    | nil => rfl
    | cons d t => cases heq
  | cons c s ih =>
    cases t with
    | nil => cases heq
    | cons d t =>
      obtain ⟨hhead, htail⟩ := List.cons.inj heq
      obtain ⟨hd, ht⟩ := Bool.and_eq_true_iff.1 ht
      have hword : U.word c = Unicode.ascii.word d := by
        rw [hU.word_of_fold c d hd hhead, hU.ascii.word d hd]
      show wordAfter U (U.word c) s = wordAfter Unicode.ascii (Unicode.ascii.word d) t
      rw [hword]
      exact ih ht htail _

/-- What is taken of a text is the text, up to letter case. -/
theorem BeginsWith.map_take {value : List Char} (h : BeginsWith U value s) (k : Nat) :
    (s.take (min k value.length)).map U.fold = (value.take k).map U.fold := by
  obtain ⟨r, hr⟩ := h
  have hle : min k value.length ≤ (value.map U.fold).length := by
    rw [List.length_map]
    exact Nat.min_le_right _ _
  rw [List.map_take, ← hr, List.take_append_of_le_length hle, ← List.map_take]
  congr 1
  exact List.take_eq_take_min.symm

theorem closes_folded (hU : FoldLaws U) {value : List Char} (hascii : value.all isAsciiChar = true)
    (hlast : wordAfter Unicode.ascii false value = true) : Closes U (folded U value) := by
  intro w s n hn
  obtain ⟨rfl, hbegins⟩ := mem_folded_iff.1 hn
  have htake := hbegins.map_take value.length
  rw [Nat.min_self, List.take_length] at htake
  rw [hU.wordAfter_eq hascii htake]
  cases value with
  | nil => cases hlast
  | cons d value => exact hlast

theorem Closes.andThen (hb : Closes U b) : Closes U (andThen U a b) := by
  intro w s n hn
  obtain ⟨m, -, k, hk, rfl⟩ := mem_andThen_iff.1 hn
  rw [List.take_add, wordAfter_append]
  exact hb _ _ k hk

theorem Closes.orElse (ha : Closes U a) (hb : Closes U b) : Closes U (orElse a b) := by
  intro w s n hn
  rcases List.mem_append.1 hn with hn | hn
  · exact ha w s n hn
  · exact hb w s n hn

/-! ## Texts that are not within -/

/-- None of the texts begins within what the expression takes, unless behind a word character. -/
def Avoids (U : Unicode) (ps : List (List Char)) (w : Bool) (a : Tries) : Prop :=
  ∀ s n, n ∈ a w s → ∀ x y, s = x ++ y → x.length < n → wordAfter U w x = false →
    ∀ p ∈ ps, ¬ BeginsWith U p y

/-- Two texts differ before one of them ends. -/
def clashes : List Char → List Char → Bool
  | c :: s, d :: t => lowerChar c != lowerChar d || clashes s t
  | _, _ => false

/-- The texts clash with a text wherever a word can begin in it. -/
def avoids (ps : List (List Char)) : Bool → List Char → Bool
  | _, [] => true
  | w, c :: s => (w || ps.all fun p => clashes p (c :: s)) && avoids ps (Unicode.ascii.word c) s

variable {ps : List (List Char)} {value : List Char}

theorem clashes_iff (hU : FoldLaws U) {p : List Char} (hp : p.all isAsciiChar = true)
    (hvalue : value.all isAsciiChar = true) (h : clashes p value = true)
    (hs : BeginsWith U value s) : ¬ BeginsWith U p s := by
  induction p generalizing value s with
  | nil => cases h
  | cons c p ih =>
    cases value with
    | nil => cases h
    | cons d value =>
      rintro ⟨r, hr⟩
      obtain ⟨r', hr'⟩ := hs
      cases s with
      | nil => cases hr
      | cons e s =>
        obtain ⟨hc, hp⟩ := Bool.and_eq_true_iff.1 hp
        obtain ⟨hd, hvalue⟩ := Bool.and_eq_true_iff.1 hvalue
        obtain ⟨hhead, htail⟩ := List.cons.inj hr
        obtain ⟨hhead', htail'⟩ := List.cons.inj hr'
        rcases Bool.or_eq_true_iff.1 h with h | h
        · exact hU.fold_ne hc hd (by simpa using h) (hhead.trans hhead'.symm)
        · exact ih hp hvalue h ⟨r', htail'⟩ ⟨r, htail⟩

theorem avoids_append {s t : List Char} (h : avoids ps w (s ++ t) = true) :
    avoids ps (wordAfter Unicode.ascii w s) t = true := by
  induction s generalizing w with
  | nil => exact h
  | cons c s ih => exact ih (Bool.and_eq_true_iff.1 h).2

theorem avoids_folded (hU : FoldLaws U) (hps : (ps.all fun p => p.all isAsciiChar) = true)
    (hvalue : value.all isAsciiChar = true) (h : avoids ps w value = true) :
    Avoids U ps w (folded U value) := by
  intro s n hn x y hs hlt hword p hp
  obtain ⟨rfl, hbegins⟩ := mem_folded_iff.1 hn
  obtain ⟨front, back, hsplit, hlength⟩ : ∃ front back, value = front ++ back ∧
      front.length = x.length :=
    ⟨value.take x.length, value.drop x.length, (List.take_append_drop _ _).symm, by simp; omega⟩
  rw [hsplit, List.all_append, Bool.and_eq_true] at hvalue
  -- what stands in front looks the same in the text
  obtain ⟨r, hr⟩ := hbegins
  rw [hsplit, hs, List.map_append, List.map_append, List.append_assoc] at hr
  obtain ⟨hfront, hback⟩ := List.append_inj hr (by rw [List.length_map, List.length_map, hlength])
  rw [hU.wordAfter_eq hvalue.1 hfront.symm] at hword
  have hrest := avoids_append (s := front) (hsplit ▸ h)
  rw [hword] at hrest
  cases back with
  | nil =>
    rw [hsplit, List.append_nil] at hlt
    omega
  | cons d back =>
    rw [avoids, Bool.false_or, Bool.and_eq_true, List.all_eq_true] at hrest
    exact clashes_iff hU (List.all_eq_true.1 hps p hp) hvalue.2 (hrest.1 p hp) ⟨r, hback⟩

theorem Avoids.mono {qs : List (List Char)} (h : Avoids U ps w a) (hsub : qs ⊆ ps) :
    Avoids U qs w a :=
  fun s n hn x y hs hlt hword q hq => h s n hn x y hs hlt hword q (hsub hq)

theorem Avoids.orElse (ha : Avoids U ps w a) (hb : Avoids U ps w b) :
    Avoids U ps w (orElse a b) := by
  intro s n hn
  rcases List.mem_append.1 hn with hn | hn
  · exact ha s n hn
  · exact hb s n hn

theorem avoids_nothing : Avoids U ps w nothing := by
  intro s n hn x y hs hlt
  rw [List.mem_singleton.1 hn] at hlt
  exact absurd hlt (Nat.not_lt_zero _)

theorem Avoids.andThen (ha : Avoids U ps w a)
    (hb : ∀ s n, n ∈ a w s → Avoids U ps (wordAfter U w (s.take n)) b) :
    Avoids U ps w (andThen U a b) := by
  intro s n hn x y hs hlt hword p hp
  obtain ⟨m, hm, k, hk, rfl⟩ := mem_andThen_iff.1 hn
  by_cases hx : x.length < m
  · exact ha s m hm x y hs hx hword p hp
  · have hsplit : x = s.take m ++ x.drop m := by
      rw [hs, List.take_append_of_le_length (by omega), List.take_append_drop]
    rw [hsplit, wordAfter_append] at hword
    refine hb s m hm (s.drop m) k hk (x.drop m) y ?_ ?_ hword p hp
    · rw [hs, List.drop_append_of_le_length (by omega)]
    · rw [List.length_drop]
      omega

/-- Behind a word character. -/
theorem Avoids.andThen_word (hcloses : Closes U a) (ha : Avoids U ps w a)
    (hb : Avoids U ps true b) : Avoids U ps w (Python.andThen U a b) :=
  ha.andThen fun s n hn => by rwa [hcloses w s n hn]

theorem holds_of_lt_takeWhile (h : x.length < ((x ++ c :: y).takeWhile p).length) :
    p c = true := by
  induction x with
  | nil =>
    cases hc : p c with
    | true => rfl
    | false => simp [hc] at h
  | cons d x ih =>
    cases hd : p d with
    | true => exact ih (by simpa [hd] using h)
    | false => simp [hd] at h

/-- A run of characters that are no word characters. -/
theorem avoids_run (hU : FoldLaws U) (hps : (ps.all fun p => p.head?.any asciiWord) = true)
    (hclass : ∀ c, p c = true → U.word c = false) : Avoids U ps w (run p least most) := by
  intro s n hn x y hs hlt _ q hq hbegins
  have hhead := hbegins.headWord hU (List.all_eq_true.1 hps q hq)
  have hle : n ≤ (s.takeWhile p).length := by
    unfold run at hn
    dsimp only at hn
    rw [List.mem_filter, List.mem_reverse, List.mem_range] at hn
    cases most with
    | none => exact Nat.le_of_lt_succ hn.1
    | some m =>
      rw [Option.elim_some] at hn
      omega
  cases y with
  | nil => cases hhead
  | cons c y =>
    have hword : U.word c = true := hhead
    rw [hs] at hle
    rw [hclass c (holds_of_lt_takeWhile (x := x) (y := y) (by omega))] at hword
    cases hword

/-! ## Separators -/

/-- A character that the expression neither takes nor looks past. -/
def Separated (c : Char) (a : Tries) : Prop := ∀ w x y, a w (x ++ c :: y) = a w x

/-- The expression takes no more than there is. -/
def Fits (a : Tries) : Prop := ∀ w s n, n ∈ a w s → n ≤ s.length

theorem Local.fits (h : Local a) : Fits a := fun _ _ _ hn => h.le_length hn

theorem fits_atBoundary : Fits (atBoundary U) := by
  intro w s n hn
  unfold atBoundary at hn
  split at hn
  · rw [List.mem_singleton.1 hn]
    exact Nat.zero_le _
  · cases hn

theorem separated_run (hc : p c = false) (least : Nat) (most : Option Nat) :
    Separated c (run p least most) := by
  intro w x y
  have htake : (x ++ c :: y).takeWhile p = x.takeWhile p := by
    induction x with
    | nil => simp [hc]
    | cons d x ih =>
      rw [List.cons_append, List.takeWhile_cons, List.takeWhile_cons, ih]
  unfold run
  rw [htake]

theorem separated_nothing (c : Char) : Separated c nothing := fun _ _ _ => rfl

theorem separated_atBoundary (hc : U.word c = false) : Separated c (atBoundary U) := by
  intro w x y
  have hhead : headWord U (x ++ c :: y) = headWord U x := by
    cases x with
    | nil => simp [headWord, hc]
    | cons d x => rfl
  unfold atBoundary
  rw [hhead]

theorem Separated.orElse (ha : Separated c a) (hb : Separated c b) : Separated c (orElse a b) := by
  intro w x y
  unfold Python.orElse
  rw [ha, hb]

theorem Separated.andThen (ha : Separated c a) (hwithin : Fits a) (hb : Separated c b) :
    Separated c (andThen U a b) := by
  intro w x y
  unfold Python.andThen
  rw [ha]
  refine List.flatMap_congr fun n hn => ?_
  have hle := hwithin w x n hn
  rw [List.take_append_of_le_length hle, List.drop_append_of_le_length hle, hb]

theorem separated_folded {value : List Char} (hvalue : ∀ d ∈ value, U.fold c ≠ U.fold d) :
    Separated c (folded U value) := by
  intro w x y
  have hiff : BeginsWith U value (x ++ c :: y) ↔ BeginsWith U value x := by
    by_cases hle : value.length ≤ x.length
    · exact beginsWith_append_iff hle
    · refine ⟨fun h => absurd ?_ hle, fun h => absurd h.length_le hle⟩
      -- the text that is looked for would have the separator
      have hfront : x.map U.fold ++ [U.fold c] <+: (x ++ c :: y).map U.fold :=
        ⟨y.map U.fold, by simp⟩
      have hinside := List.prefix_of_prefix_length_le hfront h (by simp; omega)
      have hmem := hinside.subset (List.mem_append_right _ (.head _))
      obtain ⟨d, hd, heq⟩ := List.mem_map.1 hmem
      exact absurd heq.symm (hvalue d hd)
  unfold BeginsWith at hiff
  rw [← List.isPrefixOf_iff_prefix, ← List.isPrefixOf_iff_prefix, Bool.coe_iff_coe] at hiff
  unfold folded
  rw [hiff]

/-- An expression without `\b` to which all of these characters are separators. -/
structure Bare (cs : List Char) (a : Tries) : Prop where
  looksNoFurther : Local a
  separated : ∀ c ∈ cs, Separated c a

theorem bare_nothing : Bare cs nothing := ⟨local_nothing, fun c _ => separated_nothing c⟩

theorem Bare.orElse (ha : Bare cs a) (hb : Bare cs b) : Bare cs (orElse a b) :=
  ⟨ha.1.orElse hb.1, fun c hc => (ha.2 c hc).orElse (hb.2 c hc)⟩

theorem Bare.andThen (ha : Bare cs a) (hb : Bare cs b) : Bare cs (Python.andThen U a b) :=
  ⟨ha.1.andThen hb.1, fun c hc => (ha.2 c hc).andThen ha.1.fits (hb.2 c hc)⟩

theorem bare_run (hclass : (cs.all fun c => !p c) = true) : Bare cs (run p least most) :=
  ⟨local_run p least most, fun c hc =>
    separated_run (by simpa using List.all_eq_true.1 hclass c hc) least most⟩

theorem bare_folded (hU : FoldLaws U) {value : List Char}
    (h : (cs.all fun c => isAsciiChar c && value.all fun d =>
      isAsciiChar d && lowerChar c != lowerChar d) = true) : Bare cs (folded U value) := by
  refine ⟨local_folded value, fun c hc => separated_folded fun d hd => ?_⟩
  have hboth := List.all_eq_true.1 h c hc
  rw [Bool.and_eq_true] at hboth
  have hd' := List.all_eq_true.1 hboth.2 d hd
  rw [Bool.and_eq_true, bne_iff_ne] at hd'
  exact hU.fold_ne hboth.1 hd'.1 hd'.2

/-! ## Whole words -/

/-- What is found in a text and what is found in a piece of it agree: an expression that takes
    whole words, where the cut goes through no word. -/
structure Framed (U : Unicode) (T : Tries) : Prop where
  within : Fits T
  /-- it takes something, a word character first, and none stands in front -/
  opens : ∀ w s n, n ∈ T w s → w = false ∧ headWord U s = true ∧ 0 < n
  /-- its preferred way leaves no word character behind -/
  leaves : ∀ w s n, (T w s).head? = some n → headWord U (s.drop n) = false
  /-- what it could take of a piece, it could take of the text -/
  extend : ∀ w x y n, (wordAfter U w x = true → headWord U y = false) → n ∈ T w x → n ∈ T w (x ++ y)
  /-- what it takes of the text, it takes of a piece that has all of it -/
  restrict : ∀ w x y n, (wordAfter U w x = true → headWord U y = false) →
    (T w (x ++ y)).head? = some n → n ≤ x.length → (T w x).head? = some n

theorem atBoundary_andThen (w : Bool) (s : List Char) :
    andThen U (atBoundary U) b w s = if w ≠ headWord U s then b w s else [] := by
  unfold andThen atBoundary
  split
  · simp [wordAfter]
  · rfl

theorem andThen_atBoundary (w : Bool) (s : List Char) : andThen U a (atBoundary U) w s =
    (a w s).filter fun n => wordAfter U w (s.take n) != headWord U (s.drop n) := by
  unfold andThen atBoundary
  induction a w s with
  | nil => rfl
  | cons n l ih =>
    rw [List.flatMap_cons, ih]
    by_cases hn : wordAfter U w (s.take n) = headWord U (s.drop n)
    · simp [hn]
    · simp [hn]

/-- `\b(…)\b` -/
def bounded (U : Unicode) (a : Tries) : Tries :=
  andThen U (atBoundary U) (andThen U a (atBoundary U))

theorem Bare.separated_bounded (h : Bare cs a) (hc : c ∈ cs) (hword : U.word c = false) :
    Separated c (bounded U a) :=
  (separated_atBoundary hword).andThen fits_atBoundary
    ((h.separated c hc).andThen h.looksNoFurther.fits (separated_atBoundary hword))

theorem mem_atBoundary_andThen (hn : n ∈ andThen U (atBoundary U) b w s) : n ∈ b w s := by
  rw [atBoundary_andThen] at hn
  split at hn
  · exact hn
  · cases hn

theorem mem_bounded (hn : n ∈ bounded U a w s) : n ∈ a w s := by
  have hmem := mem_atBoundary_andThen hn
  rw [andThen_atBoundary] at hmem
  exact List.mem_of_mem_filter hmem

theorem Opens.bounded (h : Opens U ps a) : Opens U ps (bounded U a) := by
  intro w s hs
  obtain ⟨n, hn⟩ := List.exists_mem_of_ne_nil _ hs
  exact h w s (List.ne_nil_of_mem (mem_bounded hn))

theorem Opens.behind_boundary (h : Opens U ps b) :
    Opens U ps (Python.andThen U (atBoundary U) b) := by
  intro w s hs
  obtain ⟨n, hn⟩ := List.exists_mem_of_ne_nil _ hs
  exact h w s (List.ne_nil_of_mem (mem_atBoundary_andThen hn))

theorem Avoids.bounded (h : Avoids U ps w a) : Avoids U ps w (bounded U a) :=
  fun s n hn => h s n (mem_bounded hn)

/-- Where the expression ends with a word character, the second `\b` asks for none behind it. -/
theorem bounded_eq (hcloses : Closes U a) (w : Bool) (s : List Char) : bounded U a w s =
    if w ≠ headWord U s then (a w s).filter fun n => !headWord U (s.drop n) else [] := by
  unfold bounded
  rw [atBoundary_andThen, andThen_atBoundary]
  congr 1
  refine List.filter_congr fun n hn => ?_
  rw [hcloses w s n hn]
  cases headWord U (s.drop n) <;> rfl

theorem headWord_drop_append {n : Nat} (h : n < x.length) :
    headWord U ((x ++ y).drop n) = headWord U (x.drop n) := by
  rw [List.drop_append_of_le_length (Nat.le_of_lt h)]
  cases hdrop : x.drop n with
  | nil =>
    rw [List.drop_eq_nil_iff] at hdrop
    omega
  | cons d rest => rfl

theorem headWord_append_of_ne (h : x ≠ []) : headWord U (x ++ y) = headWord U x := by
  cases x with
  | nil => exact absurd rfl h
  | cons d x => rfl

/-- The head of a list that satisfies a predicate is the head of the filtered list. -/
theorem head?_filter {l : List Nat} {q : Nat → Bool} (h : l.head? = some n) (hq : q n = true) :
    (l.filter q).head? = some n := by
  cases l with
  | nil => cases h
  | cons m l =>
    obtain rfl := Option.some.inj h
    rw [List.filter_cons_of_pos hq]
    rfl

theorem framed_bounded (hlocal : Local a) (hopens : OpensWord U a) (hcloses : Closes U a) :
    Framed U (bounded U a) := by
  have heq := bounded_eq hcloses
  -- beside a cut that goes through no word, `\b` says the same with and without what follows
  have hclosing : ∀ w x y, (wordAfter U w x = true → headWord U y = false) → ∀ n, n ∈ a w x →
      headWord U ((x ++ y).drop n) = headWord U (x.drop n) := by
    intro w x y hcut n hn
    rcases Nat.lt_or_eq_of_le (hlocal.le_length hn) with hlt | rfl
    · exact headWord_drop_append hlt
    · have hword := hcloses w x x.length hn
      rw [List.take_length] at hword
      rw [List.drop_left, List.drop_length, hcut hword]
      rfl
  have hpos : ∀ w s n, n ∈ bounded U a w s → w = false ∧ headWord U s = true ∧ 0 < n := by
    intro w s n hn
    rw [heq] at hn
    split at hn
    · next hw =>
      obtain ⟨hn, -⟩ := List.mem_filter.1 hn
      have hhead := hopens w s (List.ne_nil_of_mem hn)
      rw [hhead, ne_eq, Bool.not_eq_true] at hw
      refine ⟨hw, hhead, Nat.pos_of_ne_zero fun hzero => ?_⟩
      have hword := hcloses w s n hn
      rw [hzero, hw] at hword
      cases hword
    · cases hn
  constructor
  · intro w s n hn
    rw [heq] at hn
    split at hn
    · exact hlocal.le_length (List.mem_of_mem_filter hn)
    · cases hn
  · exact hpos
  · intro w s n hn
    have hmem := List.mem_of_mem_head? hn
    rw [heq] at hmem
    split at hmem
    · simpa using (List.mem_filter.1 hmem).2
    · cases hmem
  · intro w x y n hcut hn
    have hx : x ≠ [] := by
      rintro rfl
      exact Bool.noConfusion (hpos w [] n hn).2.1
    rw [heq] at hn ⊢
    split at hn
    · next hw =>
      obtain ⟨hn, hend⟩ := List.mem_filter.1 hn
      rw [headWord_append_of_ne hx, if_pos hw]
      refine List.mem_filter.2 ⟨hlocal.mem_append hn, ?_⟩
      rwa [hclosing w x y hcut n hn]
    · cases hn
  · intro w x y n hcut hn hle
    have hx : x ≠ [] := by
      rintro rfl
      have hzero := (hpos w _ n (List.mem_of_mem_head? hn)).2.2
      rw [List.length_nil] at hle
      omega
    rw [heq, headWord_append_of_ne hx] at hn
    rw [heq]
    split at hn
    · next hw =>
      rw [if_pos hw]
      have hfits := @head?_filter n _ (· ≤ x.length) hn (decide_eq_true hle)
      rw [List.filter_comm, hlocal] at hfits
      rw [← hfits]
      refine congrArg List.head? (List.filter_congr fun m hm => ?_)
      rw [hclosing w x y hcut m hm]
    · cases hn

theorem head?_flatMap {l : List Nat} {f : Nat → List Nat} (h : (l.flatMap f).head? = some n) :
    ∃ m ∈ l, (f m).head? = some n := by
  induction l with
  | nil => cases h
  | cons m l ih =>
    rw [List.flatMap_cons, List.head?_append] at h
    cases hm : (f m).head? with
    | some k =>
      rw [hm] at h
      exact ⟨m, .head _, hm.trans h⟩
    | none =>
      rw [hm] at h
      obtain ⟨k, hk, hhead⟩ := ih h
      exact ⟨k, .tail _ hk, hhead⟩

/-- A greedy run prefers to go as far as its class does. -/
theorem head?_run (h : (run p least none w s).head? = some n) :
    n = (s.takeWhile p).length ∧ least ≤ n := by
  unfold run at h
  dsimp only at h
  rw [Option.elim_none, List.range_succ, List.reverse_append, List.reverse_singleton,
    List.singleton_append] at h
  by_cases hleast : least ≤ (s.takeWhile p).length
  · rw [List.filter_cons, if_pos (decide_eq_true hleast)] at h
    obtain rfl := Option.some.inj h
    exact ⟨rfl, hleast⟩
  · rw [List.filter_cons, if_neg (by simpa using hleast)] at h
    have hmem := List.mem_of_mem_head? h
    rw [List.mem_filter, List.mem_reverse, List.mem_range, decide_eq_true_eq] at hmem
    omega

theorem not_head_dropWhile (s : List Char) : ∀ d ∈ (s.drop (s.takeWhile p).length).head?,
    p d = false := by
  induction s with
  | nil => exact fun d hd => (nomatch hd)
  | cons c s ih =>
    cases hc : p c with
    | true => simpa [hc] using ih
    | false => simp [hc]

theorem framed_run (hlocal : Local a) (hopens : OpensWord U a) (hleast : 0 < least)
    (hp : ∀ c, U.word c = true → p c = true) :
    Framed U (andThen U (atBoundary U) (andThen U a (run p least none))) := by
  have hall : Local (andThen U a (run p least none)) := hlocal.andThen (local_run p least none)
  have hpos : ∀ w s n, n ∈ andThen U (atBoundary U) (andThen U a (run p least none)) w s →
      w = false ∧ headWord U s = true ∧ 0 < n := by
    intro w s n hn
    rw [atBoundary_andThen] at hn
    split at hn
    · next hw =>
      have hhead := hopens w s (andThen_ne_nil (List.ne_nil_of_mem hn))
      rw [hhead, ne_eq, Bool.not_eq_true] at hw
      obtain ⟨m, -, k, hk, rfl⟩ := mem_andThen_iff.1 hn
      unfold run at hk
      have hk' := (List.mem_filter.1 hk).2
      rw [decide_eq_true_eq] at hk'
      exact ⟨hw, hhead, by omega⟩
    · cases hn
  constructor
  · intro w s n hn
    rw [atBoundary_andThen] at hn
    split at hn
    · exact hall.le_length hn
    · cases hn
  · exact hpos
  · intro w s n hn
    rw [atBoundary_andThen] at hn
    split at hn
    · obtain ⟨m, -, hhead⟩ := head?_flatMap hn
      rw [List.head?_map, Option.map_eq_some_iff] at hhead
      obtain ⟨k, hk, rfl⟩ := hhead
      obtain ⟨rfl, -⟩ := head?_run hk
      rw [← List.drop_drop]
      have hnot := @not_head_dropWhile p (s.drop m)
      cases hrest : (s.drop m).drop ((s.drop m).takeWhile p).length with
      | nil => rfl
      | cons d rest =>
        have hd := hnot d (by rw [hrest]; rfl)
        rw [headWord, List.head?_cons, Option.any_some, ← Bool.not_eq_true]
        intro hword
        rw [hp d hword] at hd
        cases hd
    · cases hn
  · intro w x y n hcut hn
    have hx : x ≠ [] := by
      rintro rfl
      exact Bool.noConfusion (hpos w [] n hn).2.1
    rw [atBoundary_andThen] at hn ⊢
    rw [headWord_append_of_ne hx]
    split at hn
    · next hw =>
      rw [if_pos hw]
      exact hall.mem_append hn
    · cases hn
  · intro w x y n hcut hn hle
    have hx : x ≠ [] := by
      rintro rfl
      have hzero := (hpos w _ n (List.mem_of_mem_head? hn)).2.2
      rw [List.length_nil] at hle
      omega
    rw [atBoundary_andThen, headWord_append_of_ne hx] at hn
    rw [atBoundary_andThen]
    split at hn
    · next hw =>
      rw [if_pos hw, ← hall w x y]
      exact head?_filter hn (decide_eq_true hle)
    · cases hn

end Python
