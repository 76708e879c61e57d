/-
  Regular expressions, as `re.search` answers them on a list of characters.

  1. `CharClass`, `Regex` — a class with its counts, `\b`, a sequence, a choice.
  2. `Regex.ends`, `search` — where a match that begins here can end, and whether one begins
     anywhere.
  3. `search_append` — a text falls apart at a character that no class takes and that is no word
     character: nothing matches across it, and `\b` holds beside it as at the ends of a text.
  4. `search_cons` — such a character in front of a text changes nothing where no match opens
     with it.
  5. `Unicode.AsciiLike` — tables that agree with ASCII there: a search in an ASCII text is decided
     by ASCII alone (`search_ascii`).
-/
import CanvasOS.Lib.Text
import Mathlib.Data.List.Basic

namespace Python

/-- A class of characters. -/
inductive CharClass where
  /-- `[…]` -/
  | ranges (rs : List (Char × Char))
  /-- `\d` -/
  | digit
  /-- `\s` -/
  | space
  /-- one character, under `re.IGNORECASE` -/
  | folded (d : Char)

def CharClass.holds (U : Unicode) : CharClass → Char → Bool
  | .ranges rs, c => rs.any fun r => r.1 ≤ c && c ≤ r.2
  | .digit, c => U.digit c
  | .space, c => isSpace c
  | .folded d, c => U.fold c == U.fold d

inductive Regex where
  /-- `[…]{least,most}` -/
  | chars (cls : CharClass) (least : Nat) (most : Option Nat)
  /-- `\b` -/
  | boundary
  | seq (first second : Regex)
  | choice (first second : Regex)

namespace Regex

/-- One character. -/
def one (cls : CharClass) : Regex := chars cls 1 (some 1)

/-- One after the other. -/
def seqs : List Regex → Regex
  | [] => chars (.ranges []) 0 (some 0)
  | [r] => r
  | r :: rs => seq r (seqs rs)

/-- `re.escape(value)` under `re.IGNORECASE`. -/
def literal (value : String) : Regex := seqs (value.toList.map fun c => one (.folded c))

end Regex

/-! ## Matching -/

section Matching

variable (U : Unicode)

/-- Where a run of the class can end, and whether a word character stands in front of the end. -/
def charsEnds (cls : CharClass) : (least : Nat) → (most : Option Nat) → Bool → List Char →
    List (Bool × List Char)
  | least, _, w, [] => if least = 0 then [(w, [])] else []
  | least, most, w, c :: s =>
    (if least = 0 then [(w, c :: s)] else []) ++
      if cls.holds U c = true ∧ most ≠ some 0 then
        charsEnds cls (least - 1) (most.map (· - 1)) (U.word c) s
      else []

/-- The next character is a word character. -/
def headWord (s : List Char) : Bool := s.head?.any U.word

/-- Where a match that begins in front of `s` can end; `w` says that a word character precedes. -/
def Regex.ends : Regex → Bool → List Char → List (Bool × List Char)
  | .chars cls least most, w, s => charsEnds U cls least most w s
  | .boundary, w, s => if w ≠ headWord U s then [(w, s)] else []
  | .seq a b, w, s => (a.ends w s).flatMap fun e => b.ends e.1 e.2
  | .choice a b, w, s => a.ends w s ++ b.ends w s

/-- Some match begins in `s`, behind a word character or not. -/
def searchFrom (r : Regex) : Bool → List Char → Bool
  | w, [] => !(r.ends U w []).isEmpty
  | w, c :: s => !(r.ends U w (c :: s)).isEmpty || searchFrom r (U.word c) s

/-- `re.search` -/
def search (r : Regex) (s : List Char) : Bool := searchFrom U r false s

/-- Some class of the expression takes the character. -/
def Regex.takes : Regex → Char → Bool
  | .chars cls _ _, c => cls.holds U c
  | .boundary, _ => false
  | .seq a b, c => a.takes c || b.takes c
  | .choice a b, c => a.takes c || b.takes c

/-- A match may begin with the character, where no word character precedes. -/
def Regex.opens : Regex → Char → Bool
  | .chars cls least _, c => least == 0 || cls.holds U c
  | .boundary, c => U.word c
  | .seq a _, c => a.opens c
  | .choice a b, c => a.opens c || b.opens c

end Matching

theorem searchFrom_nil (U : Unicode) (r : Regex) (w : Bool) :
    searchFrom U r w [] = !(r.ends U w []).isEmpty := rfl

theorem searchFrom_cons (U : Unicode) (r : Regex) (w : Bool) (c : Char) (s : List Char) :
    searchFrom U r w (c :: s) = (!(r.ends U w (c :: s)).isEmpty || searchFrom U r (U.word c) s) :=
  rfl

/-! ## Separators -/

section Separator

variable {U : Unicode} {r : Regex} {c : Char} {x y t : List Char} {w : Bool}

theorem charsEnds_append {cls : CharClass} (hcls : cls.holds U c = false) (least : Nat)
    (most : Option Nat) : charsEnds U cls least most w (x ++ c :: y) =
      (charsEnds U cls least most w x).map fun e => (e.1, e.2 ++ c :: y) := by
  induction x generalizing least most w with
  | nil =>
    by_cases hleast : least = 0
    · simp [charsEnds, hcls, hleast]
    · simp [charsEnds, hcls, hleast]
  | cons d x ih =>
    simp only [List.cons_append, charsEnds, ih, List.map_append]
    congr 1
    · split <;> rfl
    · split <;> rfl

/-- What matches in front of the separator matches without it. -/
theorem ends_append (htakes : r.takes U c = false) (hword : U.word c = false) :
    r.ends U w (x ++ c :: y) = (r.ends U w x).map fun e => (e.1, e.2 ++ c :: y) := by
  induction r generalizing w x with
  | chars cls least most => exact charsEnds_append htakes least most
  | boundary =>
    have hhead : headWord U (x ++ c :: y) = headWord U x := by
      cases x with
      | nil => simp [headWord, hword]
      | cons d x => rfl
    simp only [Regex.ends, hhead]
    split <;> rfl
  | seq a b iha ihb =>
    rw [Regex.takes, Bool.or_eq_false_iff] at htakes
    simp only [Regex.ends, iha htakes.1, List.flatMap_map, List.map_flatMap, ihb htakes.2]
  | choice a b iha ihb =>
    rw [Regex.takes, Bool.or_eq_false_iff] at htakes
    rw [Regex.ends, Regex.ends, iha htakes.1, ihb htakes.2, List.map_append]

/-- Nothing is found across the separator. -/
theorem searchFrom_append (htakes : r.takes U c = false) (hword : U.word c = false) :
    searchFrom U r w (x ++ c :: y) = (searchFrom U r w x || search U r y) := by
  induction x generalizing w with
  | nil =>
    have hends := ends_append (w := w) (x := []) (y := y) htakes hword
    rw [List.nil_append] at hends
    rw [List.nil_append, searchFrom_cons, hends, List.isEmpty_map, hword, searchFrom_nil]
    rfl
  | cons d x ih =>
    have hends := ends_append (w := w) (x := d :: x) (y := y) htakes hword
    rw [List.cons_append] at hends
    rw [List.cons_append, searchFrom_cons, hends, List.isEmpty_map, ih, searchFrom_cons,
      Bool.or_assoc]

theorem search_append (htakes : r.takes U c = false) (hword : U.word c = false) :
    search U r (x ++ c :: y) = (search U r x || search U r y) :=
  searchFrom_append htakes hword

theorem ends_of_not_opens (hopens : r.opens U c = false) (hword : U.word c = false) :
    r.ends U false (c :: t) = [] := by
  induction r with
  | chars cls least most =>
    simp only [Regex.opens, Bool.or_eq_false_iff, beq_eq_false_iff_ne] at hopens
    simp [Regex.ends, charsEnds, hopens]
  | boundary => simp [Regex.ends, headWord, hword]
  | seq a b iha =>
    rw [Regex.ends, iha hopens]
    rfl
  | choice a b iha ihb =>
    rw [Regex.opens, Bool.or_eq_false_iff] at hopens
    rw [Regex.ends, iha hopens.1, ihb hopens.2]
    rfl

/-- A character that no match opens with, in front of a text. -/
theorem search_cons (hopens : r.opens U c = false) (hword : U.word c = false) :
    search U r (c :: t) = search U r t := by
  rw [search, searchFrom_cons, ends_of_not_opens hopens hword, hword]
  rfl

end Separator

/-! ## ASCII -/

/-- The character lies in ASCII. -/
def isAsciiChar (c : Char) : Bool := c.toNat < 128

/-- Tables that agree with ASCII there. -/
structure Unicode.AsciiLike (U : Unicode) : Prop where
  word : ∀ c, isAsciiChar c = true → U.word c = Unicode.ascii.word c
  digit : ∀ c, isAsciiChar c = true → U.digit c = Unicode.ascii.digit c
  fold : ∀ c, isAsciiChar c = true → U.fold c = Unicode.ascii.fold c

theorem Unicode.ascii_asciiLike : Unicode.ascii.AsciiLike :=
  ⟨fun _ _ => rfl, fun _ _ => rfl, fun _ _ => rfl⟩

/-- The literals of the expression lie in ASCII. -/
def Regex.isAscii : Regex → Bool
  | .chars (.folded d) _ _ => isAsciiChar d
  | .chars _ _ _ => true
  | .boundary => true
  | .seq a b => a.isAscii && b.isAscii
  | .choice a b => a.isAscii && b.isAscii

section Ascii

variable {U : Unicode} (hU : U.AsciiLike) {r : Regex} (hr : r.isAscii = true) {c : Char}
  {s : List Char} {w : Bool}

include hU

theorem holds_ascii {cls : CharClass} {least : Nat} {most : Option Nat}
    (hcls : (Regex.chars cls least most).isAscii = true) (hc : isAsciiChar c = true) :
    cls.holds U c = cls.holds Unicode.ascii c := by
  cases cls with
  | ranges rs => rfl
  | digit => exact hU.digit c hc
  | space => rfl
  | folded d =>
    have hd : isAsciiChar d = true := hcls
    simp only [CharClass.holds, hU.fold c hc, hU.fold d hd]

include hr

theorem takes_ascii (hc : isAsciiChar c = true) : r.takes U c = r.takes Unicode.ascii c := by
  induction r with
  | chars cls least most => exact holds_ascii hU hr hc
  | boundary => rfl
  | seq a b iha ihb | choice a b iha ihb =>
    rw [Regex.isAscii, Bool.and_eq_true] at hr
    rw [Regex.takes, Regex.takes, iha hr.1, ihb hr.2]

theorem opens_ascii (hc : isAsciiChar c = true) : r.opens U c = r.opens Unicode.ascii c := by
  induction r with
  | chars cls least most => rw [Regex.opens, Regex.opens, holds_ascii hU hr hc]
  | boundary => exact hU.word c hc
  | seq a b iha ihb =>
    rw [Regex.isAscii, Bool.and_eq_true] at hr
    exact iha hr.1
  | choice a b iha ihb =>
    rw [Regex.isAscii, Bool.and_eq_true] at hr
    rw [Regex.opens, Regex.opens, iha hr.1, ihb hr.2]

omit hr in
theorem charsEnds_ascii {cls : CharClass} {n : Nat} {m : Option Nat}
    (hcls : (Regex.chars cls n m).isAscii = true) (least : Nat) (most : Option Nat)
    (hs : ∀ c ∈ s, isAsciiChar c = true) :
    charsEnds U cls least most w s = charsEnds Unicode.ascii cls least most w s := by
  induction s generalizing least most w with
  | nil => rfl
  | cons c s ih =>
    obtain ⟨hc, hs⟩ := List.forall_mem_cons.1 hs
    simp only [charsEnds, holds_ascii hU hcls hc, hU.word c hc, ih _ _ hs]

omit hU hr in
/-- What is left of a text is its end. -/
theorem charsEnds_suffix {cls : CharClass} (least : Nat) (most : Option Nat) {e : Bool × List Char}
    (h : e ∈ charsEnds U cls least most w s) : e.2 <:+ s := by
  induction s generalizing least most w with
  | nil =>
    unfold charsEnds at h
    split at h
    · obtain rfl := List.mem_singleton.1 h
      exact List.suffix_rfl
    · cases h
  | cons c s ih =>
    unfold charsEnds at h
    rcases List.mem_append.1 h with h | h
    · split at h
      · obtain rfl := List.mem_singleton.1 h
        exact List.suffix_rfl
      · cases h
    · split at h
      · exact (ih _ _ h).trans (List.suffix_cons c s)
      · cases h

omit hU hr in
theorem ends_suffix {e : Bool × List Char} (h : e ∈ r.ends U w s) : e.2 <:+ s := by
  induction r generalizing w s e with
  | chars cls least most => exact charsEnds_suffix least most h
  | boundary =>
    unfold Regex.ends at h
    split at h
    · obtain rfl := List.mem_singleton.1 h
      exact List.suffix_rfl
    · cases h
  | seq a b iha ihb =>
    obtain ⟨e', he', h⟩ := List.mem_flatMap.1 h
    exact (ihb h).trans (iha he')
  | choice a b iha ihb =>
    rcases List.mem_append.1 h with h | h
    · exact iha h
    · exact ihb h

theorem ends_ascii (hs : ∀ c ∈ s, isAsciiChar c = true) :
    r.ends U w s = r.ends Unicode.ascii w s := by
  induction r generalizing w s with
  | chars cls least most => exact charsEnds_ascii hU hr least most hs
  | boundary =>
    have hhead : headWord U s = headWord Unicode.ascii s := by
      cases s with
      | nil => rfl
      | cons c s => simp [headWord, hU.word c (hs c List.mem_cons_self)]
    rw [Regex.ends, Regex.ends, hhead]
  | seq a b iha ihb =>
    rw [Regex.isAscii, Bool.and_eq_true] at hr
    rw [Regex.ends, Regex.ends, iha hr.1 hs]
    refine List.flatMap_congr fun e he => ?_
    exact ihb hr.2 fun c hc => hs c ((ends_suffix he).subset hc)
  | choice a b iha ihb =>
    rw [Regex.isAscii, Bool.and_eq_true] at hr
    rw [Regex.ends, Regex.ends, iha hr.1 hs, ihb hr.2 hs]

/-- A search in an ASCII text is decided by ASCII. -/
theorem search_ascii (hs : ∀ c ∈ s, isAsciiChar c = true) :
    search U r s = search Unicode.ascii r s := by
  have hfrom : ∀ w, searchFrom U r w s = searchFrom Unicode.ascii r w s := by
    induction s with
    | nil => exact fun w => by rw [searchFrom_nil, searchFrom_nil, ends_ascii hU hr hs]
    | cons c s ih =>
      intro w
      obtain ⟨hc, hs'⟩ := List.forall_mem_cons.1 hs
      rw [searchFrom_cons, searchFrom_cons, ends_ascii hU hr hs, hU.word c hc, ih hs']
  exact hfrom false

end Ascii

example : search Unicode.ascii (.seqs [.boundary, .one (.ranges [('A', 'Z')]),
    .chars (.ranges [('a', 'z')]) 1 none, .chars .space 1 none, .literal "nkosi", .boundary])
    "to Thabo\n Nkosi.".toList = true := by decide

end Python
