/-
  `json.dumps(value, sort_keys=True, indent=2, ensure_ascii=False)`: a JSON text for readers.

  1. `rawStr` — a string whose characters stand as they are, but for the controls, the quote and the
     backslash.
  2. `prettyAt` — a value, each element and item on a line of its own; `dumpsPretty` with its keys
     in order.
  3. `reads_prettyAt`, `loads_dumpsPretty` — what is written is read back.
-/
import CanvasOS.Lib.JsonText

namespace Python

/-! ## Writing -/

/-- One character of a JSON string without `ensure_ascii`. -/
def rawChar (c : Char) : List Char :=
  if c = '"' ∨ c = '\\' ∨ c.toNat < 32 then (dumpsChar c).toList else [c]

/-- A JSON string. -/
def rawStr (s : String) : String := String.ofList ('"' :: (s.toList.flatMap rawChar ++ ['"']))

mutual

/-- `json.dumps(value, indent=2, ensure_ascii=False)` inside `pad` blanks -/
def prettyAt (pad : Nat) : Json → String
  | .null => "null"
  | .bool true => "true"
  | .bool false => "false"
  | .int n => toString n
  | .float r => r
  | .str s => rawStr s
  | .arr [] => "[]"
  | .arr (x :: xs) =>
    "[" ++ newline (pad + 2) ++ join ("," ++ newline (pad + 2)) (prettyElems (pad + 2) (x :: xs)) ++
      newline pad ++ "]"
  | .obj [] => "\x7b\x7d"
  | .obj (kv :: kvs) =>
    "\x7b" ++ newline (pad + 2) ++
      join ("," ++ newline (pad + 2)) (prettyItems (pad + 2) (kv :: kvs)) ++ newline pad ++ "\x7d"

def prettyElems (pad : Nat) : List Json → List String
  | [] => []
  | x :: xs => prettyAt pad x :: prettyElems pad xs

def prettyItems (pad : Nat) : List (String × Json) → List String
  | [] => []
  | (k, x) :: rest => (rawStr k ++ ": " ++ prettyAt pad x) :: prettyItems pad rest

end

/-- `json.dumps(value, sort_keys=True, indent=2, ensure_ascii=False)` -/
def dumpsPretty (v : Json) : String := prettyAt 0 (sortKeys v)

/-! ## Reading -/

theorem scanChar_rawChar (c : Char) (rest : List Char) :
    scanChar (rawChar c ++ rest) = some (c, rest) := by
  unfold rawChar
  split
  · exact scanChar_dumpsChar c rest
  · next hplain =>
    rw [not_or, not_or] at hplain
    simp only [List.singleton_append, scanChar, if_neg hplain.2.1, if_neg hplain.2.2]

theorem rawChar_head (c : Char) : ∃ x t, rawChar c = x :: t ∧ x ≠ '"' := by
  unfold rawChar
  split
  · exact dumpsChar_head c
  · next hplain =>
    rw [not_or] at hplain
    exact ⟨c, [], rfl, hplain.1⟩

theorem readsString_raw (s : List Char) : ReadsString s (s.flatMap rawChar) :=
  readsString_flatMap scanChar_rawChar rawChar_head s

theorem isJsonSpace_newline (pad : Nat) : ∀ x ∈ (newline pad).toList, isJsonSpace x = true := by
  intro x hx
  rw [newline, String.toList_ofList, List.mem_cons, List.mem_replicate] at hx
  rcases hx with rfl | ⟨-, rfl⟩ <;> rfl

theorem isJsonSpace_singleton {c : Char} (hc : isJsonSpace c = true) :
    ∀ x ∈ [c], isJsonSpace x = true := by
  intro x hx
  rwa [List.mem_singleton.1 hx]

theorem isJsonSpace_blank : ∀ x ∈ [' '], isJsonSpace x = true := isJsonSpace_singleton rfl

section Pretty

variable {spell : List Char → String}

mutual

/-- What is written is read back. -/
theorem reads_prettyAt (pad : Nat) : (v : Json) → WellFormed spell v →
    Reads spell v (prettyAt pad v).toList
  | .null, _ => .constant (by simp [constants, prettyAt])
  | .bool true, _ => .constant (by simp [constants, prettyAt])
  | .bool false, _ => .constant (by simp [constants, prettyAt])
  | .int n, _ => reads_int spell n
  | .float _, h => h
  | .str s, _ => by
    have hread : Reads spell (.str (String.ofList s.toList)) _ := .str (readsString_raw s.toList)
    rw [String.ofList_toList] at hread
    rwa [prettyAt, rawStr, String.toList_ofList]
  | .arr [], _ => by
    rw [prettyAt]
    exact .emptyArr noSpace
  | .arr (x :: xs), h => by
    have hread := Reads.arr (isJsonSpace_newline (pad + 2))
      (reads_prettyElems pad (x :: xs) (List.cons_ne_nil x xs) h)
    have htext : (prettyAt pad (.arr (x :: xs))).toList = '[' :: ((newline (pad + 2)).toList ++
        (((join ("," ++ newline (pad + 2)) (prettyElems (pad + 2) (x :: xs))).toList ++
          (newline pad).toList) ++ [']'])) := by
      simp [prettyAt]
    rwa [htext]
  | .obj [], _ => by
    rw [prettyAt]
    exact .emptyObj noSpace
  | .obj (kv :: kvs), h => by
    have hread := Reads.obj (isJsonSpace_newline (pad + 2))
      (reads_prettyItems pad (kv :: kvs) (List.cons_ne_nil kv kvs) h.2)
    rw [update_nil h.1] at hread
    have htext : (prettyAt pad (.obj (kv :: kvs))).toList = '{' :: ((newline (pad + 2)).toList ++
        (((join ("," ++ newline (pad + 2)) (prettyItems (pad + 2) (kv :: kvs))).toList ++
          (newline pad).toList) ++ ['}'])) := by
      simp [prettyAt]
    rwa [htext]

/-- The elements, with the line break in front of the bracket. -/
theorem reads_prettyElems (pad : Nat) : (xs : List Json) → xs ≠ [] → WellFormedElems spell xs →
    ReadsElems spell xs ((join ("," ++ newline (pad + 2)) (prettyElems (pad + 2) xs)).toList ++
      (newline pad).toList)
  | [], hne, _ => absurd rfl hne
  | x :: xs, _, h => by
    have hx := reads_prettyAt (pad + 2) x h.1
    by_cases hxs : xs = []
    · subst hxs
      exact ReadsElems.last hx (isJsonSpace_newline pad)
    · have hread := ReadsElems.more hx noSpace (isJsonSpace_newline (pad + 2))
        (reads_prettyElems pad xs hxs h.2)
      obtain ⟨y, ys, rfl⟩ := List.exists_cons_of_ne_nil hxs
      have htext :
          (join ("," ++ newline (pad + 2)) (prettyElems (pad + 2) (x :: y :: ys))).toList ++
          (newline pad).toList = (prettyAt (pad + 2) x).toList ++ ([] ++ ',' ::
            ((newline (pad + 2)).toList ++ ((join ("," ++ newline (pad + 2))
              (prettyElems (pad + 2) (y :: ys))).toList ++ (newline pad).toList))) := by
        simp [prettyElems, join]
      rw [htext]
      exact hread

/-- The items, with the line break in front of the brace. -/
theorem reads_prettyItems (pad : Nat) : (kvs : List (String × Json)) → kvs ≠ [] →
    WellFormedItems spell kvs →
    ReadsItems spell kvs ((join ("," ++ newline (pad + 2)) (prettyItems (pad + 2) kvs)).toList ++
      (newline pad).toList)
  | [], hne, _ => absurd rfl hne
  | (k, x) :: kvs, _, h => by
    have hk := readsString_raw k.toList
    have hx := reads_prettyAt (pad + 2) x h.1
    by_cases hkvs : kvs = []
    · subst hkvs
      have hread := ReadsItems.last hk noSpace isJsonSpace_blank hx (isJsonSpace_newline pad)
      have htext : (join ("," ++ newline (pad + 2)) (prettyItems (pad + 2) [(k, x)])).toList ++
          (newline pad).toList = '"' :: (k.toList.flatMap rawChar ++ '"' :: ([] ++ ':' :: ([' '] ++
            ((prettyAt (pad + 2) x).toList ++ (newline pad).toList)))) := by
        simp [prettyItems, join, rawStr]
      rw [htext]
      rwa [String.ofList_toList] at hread
    · have hread := ReadsItems.more hk noSpace isJsonSpace_blank hx noSpace
        (isJsonSpace_newline (pad + 2)) (reads_prettyItems pad kvs hkvs h.2)
      obtain ⟨kv, kvs, rfl⟩ := List.exists_cons_of_ne_nil hkvs
      have htext : (join ("," ++ newline (pad + 2))
          (prettyItems (pad + 2) ((k, x) :: kv :: kvs))).toList ++ (newline pad).toList =
          '"' :: (k.toList.flatMap rawChar ++ '"' :: ([] ++ ':' :: ([' '] ++
            ((prettyAt (pad + 2) x).toList ++ ([] ++ ',' :: ((newline (pad + 2)).toList ++
              ((join ("," ++ newline (pad + 2)) (prettyItems (pad + 2) (kv :: kvs))).toList ++
                (newline pad).toList))))))) := by
        simp [prettyItems, join, rawStr]
      rw [htext]
      rwa [String.ofList_toList] at hread

end

/-- A document is read back as the value with its keys in order, also when a line break follows. -/
theorem loads_dumpsPretty {v : Json} (h : WellFormed spell v) :
    loads spell (dumpsPretty v ++ "\n").toList = some (sortKeys v) := by
  have hread := reads_prettyAt 0 _ (wellFormed_sortKeys v h)
  exact loads_iff.2 ⟨[], _, ['\n'], by rw [String.toList_append]; rfl, noSpace,
    isJsonSpace_singleton rfl, hread⟩

end Pretty

example : dumpsPretty (.obj [("b", .arr [.str "é\n"]), ("a", .null)]) =
    "\x7b\n  \"a\": null,\n  \"b\": [\n    \"é\\n\"\n  ]\n\x7d" := by decide +kernel

end Python
