/-
  What a search finds in a JSON text.

  1. `atoms` — the pieces of a value that can match: its strings as they are escaped, and its
     numbers.
  2. `Sealed` — an expression that takes none of JSON's marks, opens with no blank and matches no
     constant.
  3. `search_dumpsSorted` — such an expression is found in the text of a value just where it is
     found in one of the pieces.
-/
import CanvasOS.Lib.Regex
import CanvasOS.Lib.JsonText
import CanvasOS.Lib.Serialize

namespace Python

mutual

/-- The pieces of a value: strings as they are escaped, and numbers. -/
def atoms : Json → List (List Char)
  | .int n => [(toString n).toList]
  | .float r => [r.toList]
  | .str s => [escaped s.toList]
  | .arr xs => atomsList xs
  | .obj kvs => atomsItems kvs
  | _ => []

def atomsList : List Json → List (List Char)
  | [] => []
  | x :: xs => atoms x ++ atomsList xs

def atomsItems : List (String × Json) → List (List Char)
  | [] => []
  | (k, x) :: rest => escaped k.toList :: (atoms x ++ atomsItems rest)

end

mutual

/-- Each string of a value is one of its pieces, as it is escaped. -/
theorem mem_atoms {s : String} : (v : Json) → s ∈ strings v → escaped s.toList ∈ atoms v
  | .str t, h => by rw [List.mem_singleton.1 h]; exact List.mem_singleton.2 rfl
  | .arr xs, h => mem_atomsList xs h
  | .obj kvs, h => mem_atomsItems kvs h

theorem mem_atomsList {s : String} : (xs : List Json) → s ∈ stringsList xs →
    escaped s.toList ∈ atomsList xs
  | x :: xs, h => by
    rcases List.mem_append.1 h with h | h
    · exact List.mem_append_left _ (mem_atoms x h)
    · exact List.mem_append_right _ (mem_atomsList xs h)

theorem mem_atomsItems {s : String} : (kvs : List (String × Json)) → s ∈ stringsItems kvs →
    escaped s.toList ∈ atomsItems kvs
  | (k, x) :: kvs, h => by
    rcases List.mem_cons.1 h with rfl | h
    · exact List.mem_cons_self
    rcases List.mem_append.1 h with h | h
    · exact List.mem_cons_of_mem _ (List.mem_append_left _ (mem_atoms x h))
    · exact List.mem_cons_of_mem _ (List.mem_append_right _ (mem_atomsItems kvs h))

end

/-- The marks between the pieces. -/
def jsonMarks : List Char := ['"', ',', ':', '[', ']', '{', '}']

/-- The expression matches within a piece only. -/
structure Sealed (U : Unicode) (r : Regex) : Prop where
  word : ∀ c ∈ ' ' :: jsonMarks, U.word c = false
  takes : ∀ c ∈ jsonMarks, r.takes U c = false
  opens : r.opens U ' ' = false
  empty : search U r [] = false
  constants : ∀ s ∈ ["null", "true", "false"], search U r s.toList = false

/-- It is enough that the expression is sealed in ASCII. -/
theorem Sealed.of_ascii {U : Unicode} (hU : U.AsciiLike) {r : Regex} (hr : r.isAscii = true)
    (h : Sealed Unicode.ascii r) : Sealed U r := by
  have hmarks : ∀ c ∈ ' ' :: jsonMarks, isAsciiChar c = true := List.all_eq_true.1 (by decide)
  have hall : ["null", "true", "false"].all (fun s => s.toList.all isAsciiChar) = true := by decide
  have hconstants : ∀ s ∈ ["null", "true", "false"], ∀ c ∈ s.toList, isAsciiChar c = true :=
    fun s hs => List.all_eq_true.1 (List.all_eq_true.1 hall s hs)
  refine ⟨fun c hc => ?_, fun c hc => ?_, ?_, ?_, fun s hs => ?_⟩
  · rw [hU.word c (hmarks c hc)]
    exact h.word c hc
  · rw [takes_ascii hU hr (hmarks c (List.mem_cons_of_mem _ hc))]
    exact h.takes c hc
  · rw [opens_ascii hU hr (by decide)]
    exact h.opens
  · rw [search_ascii hU hr (s := []) (by simp)]
    exact h.empty
  · rw [search_ascii hU hr (hconstants s hs)]
    exact h.constants s hs

section Sealed

variable {U : Unicode} {r : Regex} (h : Sealed U r)

include h

theorem Sealed.mark {c : Char} (hc : c ∈ jsonMarks) (x y : List Char) :
    search U r (x ++ c :: y) = (search U r x || search U r y) :=
  search_append (h.takes c hc) (h.word c (List.mem_cons_of_mem _ hc))

theorem Sealed.blank (x : List Char) : search U r (' ' :: x) = search U r x :=
  search_cons h.opens (h.word ' ' List.mem_cons_self)

/-- Between two marks there is what is between them. -/
theorem Sealed.between {c d : Char} (hc : c ∈ jsonMarks) (hd : d ∈ jsonMarks) (x : List Char) :
    search U r (c :: (x ++ [d])) = search U r x := by
  have hleft := h.mark hc [] (x ++ [d])
  have hright := h.mark hd x []
  rw [List.nil_append, h.empty, Bool.false_or] at hleft
  rw [h.empty, Bool.or_false] at hright
  rw [hleft, hright]

theorem Sealed.dumpsStr (s : String) :
    search U r (dumpsStr s).toList = search U r (escaped s.toList) := by
  rw [toList_dumpsStr]
  exact h.between (by decide) (by decide) _

/-- In a list of texts that are joined, what is found is found in one of them. -/
theorem Sealed.join (xs : List String) :
    search U r (join ", " xs).toList = xs.any fun x => search U r x.toList := by
  induction xs with
  | nil => exact h.empty
  | cons x xs ih =>
    cases xs with
    | nil => simp [Python.join]
    | cons y xs =>
      have htext : (Python.join ", " (x :: y :: xs)).toList =
          x.toList ++ ',' :: ' ' :: (Python.join ", " (y :: xs)).toList := by
        simp [Python.join]
      rw [htext, h.mark (by decide), h.blank, ih, List.any_cons (a := x)]

end Sealed

section Dumps

variable {U : Unicode} {r : Regex}

mutual

/-- A search in the text of a value finds what it finds in its pieces. -/
theorem search_dumpsSorted (h : Sealed U r) : (v : Json) →
    search U r (dumpsSorted v).toList = (atoms v).any (search U r)
  | .null => h.constants "null" (by decide)
  | .bool true => h.constants "true" (by decide)
  | .bool false => h.constants "false" (by decide)
  | .int n => by simp [dumpsSorted, atoms]
  | .float f => by simp [dumpsSorted, atoms]
  | .str s => by
    rw [dumpsSorted, h.dumpsStr]
    simp [atoms]
  | .arr xs => by
    have htext : (dumpsSorted (.arr xs)).toList =
        '[' :: ((join ", " (dumpsSortedList xs)).toList ++ [']']) := by
      simp [dumpsSorted]
    rw [htext, h.between (by decide) (by decide), h.join, search_dumpsSortedList h xs]
    rfl
  | .obj kvs => by
    have htext : (dumpsSorted (.obj kvs)).toList = '{' :: ((join ", "
        (((dumpsSortedItems kvs).insertionSort (·.1 ≤ ·.1)).map (·.2))).toList ++ ['}']) := by
      simp [dumpsSorted]
    have hperm := (List.perm_insertionSort (·.1 ≤ ·.1) (dumpsSortedItems kvs)).any_eq
      (f := fun x => search U r x.2.toList)
    rw [htext, h.between (by decide) (by decide), h.join, List.any_map]
    exact hperm.trans (search_dumpsSortedItems h kvs)

theorem search_dumpsSortedList (h : Sealed U r) : (xs : List Json) →
    ((dumpsSortedList xs).any fun x => search U r x.toList) = (atomsList xs).any (search U r)
  | [] => rfl
  | x :: xs => by
    rw [dumpsSortedList, List.any_cons, atomsList, List.any_append, search_dumpsSorted h x,
      search_dumpsSortedList h xs]

theorem search_dumpsSortedItems (h : Sealed U r) : (kvs : List (String × Json)) →
    ((dumpsSortedItems kvs).any fun x => search U r x.2.toList) =
      (atomsItems kvs).any (search U r)
  | [] => rfl
  | (k, x) :: rest => by
    have htext : (dumpsStr k ++ ": " ++ dumpsSorted x).toList =
        (dumpsStr k).toList ++ ':' :: ' ' :: (dumpsSorted x).toList := by
      simp
    rw [dumpsSortedItems, List.any_cons, atomsItems, List.any_cons, List.any_append, htext,
      h.mark (by decide), h.blank, h.dumpsStr, search_dumpsSorted h x,
      search_dumpsSortedItems h rest, Bool.or_assoc]

end

end Dumps

end Python
