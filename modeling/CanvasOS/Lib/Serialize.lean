/-
  `json.dumps(value, sort_keys=True)` and the strings that occur in a value.

  1. `dumpsSorted` — the text; an object's items stand in the order of their keys.
  2. `strings` — the keys and the string values of a value, at any depth.
  3. `infix_dumpsSorted` — each of them stands in the text as a JSON string, and as it is where
     nothing in it is escaped (`plain`).
-/
import CanvasOS.Lib.Format
import Mathlib.Data.List.Sort

namespace Python

mutual

/-- `json.dumps(value, sort_keys=True)`. -/
def dumpsSorted : Json → String
  | .null => "null"
  | .bool true => "true"
  | .bool false => "false"
  | .int n => toString n
  | .float r => r
  | .str s => dumpsStr s
  | .arr xs => "[" ++ join ", " (dumpsSortedList xs) ++ "]"
  | .obj kvs =>
    "\x7b" ++ join ", " (((dumpsSortedItems kvs).insertionSort (·.1 ≤ ·.1)).map (·.2)) ++ "\x7d"

def dumpsSortedList : List Json → List String
  | [] => []
  | x :: xs => dumpsSorted x :: dumpsSortedList xs

/-- Each item with the key it is sorted by. -/
def dumpsSortedItems : List (String × Json) → List (String × String)
  | [] => []
  | (k, x) :: rest => (k, dumpsStr k ++ ": " ++ dumpsSorted x) :: dumpsSortedItems rest

end

mutual

/-- The strings that occur in a value: keys and values, at any depth. -/
def strings : Json → List String
  | .str s => [s]
  | .arr xs => stringsList xs
  | .obj kvs => stringsItems kvs
  | _ => []

def stringsList : List Json → List String
  | [] => []
  | x :: xs => strings x ++ stringsList xs

def stringsItems : List (String × Json) → List String
  | [] => []
  | (k, x) :: rest => k :: (strings x ++ stringsItems rest)

end

/-- `s` occurs in `t`. -/
def Within (s t : String) : Prop := s.toList <:+: t.toList

theorem Within.refl (s : String) : Within s s := List.infix_rfl

theorem Within.trans {s t u : String} (h : Within s t) (h' : Within t u) : Within s u :=
  List.IsInfix.trans h h'

theorem Within.append_left {s t : String} (u : String) (h : Within s t) : Within s (t ++ u) := by
  unfold Within
  rw [String.toList_append]
  exact List.infix_append_of_infix_left h

theorem Within.append_right {s t : String} (u : String) (h : Within s t) : Within s (u ++ t) := by
  unfold Within
  rw [String.toList_append]
  exact List.infix_append_of_infix_right h

mutual

/-- Every string of a value is part of its text. -/
theorem infix_dumpsSorted {s : String} (v : Json) (h : s ∈ strings v) :
    Within (dumpsStr s) (dumpsSorted v) := by
  cases v with
  | null | bool b | int n | float r => cases h
  | str t =>
    obtain rfl := List.mem_singleton.1 h
    exact .refl _
  | arr xs =>
    obtain ⟨t, ht, hst⟩ := infix_dumpsSortedList xs h
    exact ((hst.trans (infix_join ht)).append_right "[").append_left "]"
  | obj kvs =>
    obtain ⟨kt, ht, hst⟩ := infix_dumpsSortedItems kvs h
    have hmem : kt.2 ∈ ((dumpsSortedItems kvs).insertionSort (·.1 ≤ ·.1)).map (·.2) :=
      List.mem_map_of_mem ((List.mem_insertionSort _).2 ht)
    exact ((hst.trans (infix_join hmem)).append_right "\x7b").append_left "\x7d"

theorem infix_dumpsSortedList {s : String} (xs : List Json) (h : s ∈ stringsList xs) :
    ∃ t ∈ dumpsSortedList xs, Within (dumpsStr s) t := by
  match xs with
  | [] => cases h
  | x :: xs =>
    rcases List.mem_append.1 h with h | h
    · exact ⟨_, List.mem_cons_self, infix_dumpsSorted x h⟩
    · obtain ⟨t, ht, hst⟩ := infix_dumpsSortedList xs h
      exact ⟨t, List.mem_cons_of_mem _ ht, hst⟩

theorem infix_dumpsSortedItems {s : String} (kvs : List (String × Json))
    (h : s ∈ stringsItems kvs) :
    ∃ kt ∈ dumpsSortedItems kvs, Within (dumpsStr s) kt.2 := by
  match kvs with
  | [] => cases h
  | (k, x) :: rest =>
    rcases List.mem_cons.1 h with rfl | h
    · exact ⟨_, List.mem_cons_self, ((Within.refl _).append_left _).append_left _⟩
    rcases List.mem_append.1 h with h | h
    · exact ⟨_, List.mem_cons_self, (infix_dumpsSorted x h).append_right _⟩
    · obtain ⟨kt, ht, hst⟩ := infix_dumpsSortedItems rest h
      exact ⟨kt, List.mem_cons_of_mem _ ht, hst⟩

end

/-- Nothing in the string is escaped in JSON. -/
def plain (s : String) : Bool :=
  s.toList.all fun c => c != '"' && c != '\\' && 32 ≤ c.toNat && c.toNat < 127

theorem dumpsChar_of_plain {c : Char} (hquote : c ≠ '"') (hslash : c ≠ '\\')
    (hlow : 32 ≤ c.toNat) (hhigh : c.toNat < 127) : dumpsChar c = String.singleton c := by
  have hne : ∀ d : Char, d.toNat < 32 → c ≠ d := by
    rintro d hd rfl
    omega
  have hn := hne '\n' (by decide)
  have hr := hne '\r' (by decide)
  have ht := hne '\t' (by decide)
  have h8 : c.toNat ≠ 8 := by omega
  have h12 : c.toNat ≠ 12 := by omega
  simp [dumpsChar, hquote, hslash, hn, hr, ht, h8, h12, hlow, hhigh]

/-- Joining the characters of a string gives the string back. -/
theorem join_singleton (cs : List Char) :
    (join "" (cs.map String.singleton)).toList = cs := by
  induction cs with
  | nil => rfl
  | cons c cs ih =>
    cases cs with
    | nil => simp [join]
    | cons d cs =>
      show (String.singleton c ++ "" ++ join "" ((d :: cs).map String.singleton)).toList = _
      rw [String.toList_append, String.toList_append, ih]
      simp

/-- A plain string is its own JSON text, but for the quotes. -/
theorem Within.dumpsStr {s : String} (h : plain s = true) : Within s (Python.dumpsStr s) := by
  have hmap : s.toList.map dumpsChar = s.toList.map String.singleton := by
    refine List.map_congr_left fun c hc => ?_
    have hplain := List.all_eq_true.1 h c hc
    simp only [Bool.and_eq_true, bne_iff_ne, decide_eq_true_eq] at hplain
    obtain ⟨⟨⟨hquote, hslash⟩, hlow⟩, hhigh⟩ := hplain
    exact dumpsChar_of_plain hquote hslash hlow hhigh
  have hbody : Within s (join "" (s.toList.map dumpsChar)) := by
    have hsame : join "" (s.toList.map dumpsChar) = s :=
      String.toList_inj.1 (by rw [hmap, join_singleton])
    rw [hsame]
    exact Within.refl s
  exact (hbody.append_right "\"").append_left "\""

end Python
