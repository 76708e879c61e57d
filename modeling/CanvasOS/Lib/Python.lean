/-
  The part of Python's values and of its string methods that the services' own checks turn on.

  1. `Json` — a decoded JSON value, its truth value (`if not x`) and dictionary lookup.  Two
     values are comparable by `=`, so that tables keyed by whatever a caller sent can be evaluated.
  2. `strip`, `lower` — `str.strip()` and `str.lower()` on characters.  `lower` maps every
     character that has an ASCII lower-case form to it (the ASCII capitals and the Kelvin sign)
     and leaves the rest alone: the lower-case forms of the others are outside ASCII as well,
     which is all that a comparison with ASCII text can see of them.
-/
import Mathlib.Logic.Basic

namespace Python

/-- A decoded JSON value.  A float is kept as its shortest decimal text. -/
inductive Json where
  | null
  | bool (b : Bool)
  | int (n : Int)
  | float (repr : String)
  | str (s : String)
  | arr (xs : List Json)
  | obj (kvs : List (String × Json))

namespace Json

mutual

/-- Equality of JSON values is decided along their structure. -/
def decEq : (a b : Json) → Decidable (a = b)
  | .null, .null => isTrue rfl
  | .bool a, .bool b => decidable_of_iff (a = b) (by simp)
  | .int a, .int b => decidable_of_iff (a = b) (by simp)
  | .float a, .float b => decidable_of_iff (a = b) (by simp)
  | .str a, .str b => decidable_of_iff (a = b) (by simp)
  | .arr a, .arr b => @decidable_of_iff _ (a = b) (by simp) (decEqList a b)
  | .obj a, .obj b => @decidable_of_iff _ (a = b) (by simp) (decEqItems a b)
  | .null, .bool _ | .null, .int _ | .null, .float _ | .null, .str _ | .null, .arr _
  | .null, .obj _ | .bool _, .null | .bool _, .int _ | .bool _, .float _ | .bool _, .str _
  | .bool _, .arr _ | .bool _, .obj _ | .int _, .null | .int _, .bool _ | .int _, .float _
  | .int _, .str _ | .int _, .arr _ | .int _, .obj _ | .float _, .null | .float _, .bool _
  | .float _, .int _ | .float _, .str _ | .float _, .arr _ | .float _, .obj _ | .str _, .null
  | .str _, .bool _ | .str _, .int _ | .str _, .float _ | .str _, .arr _ | .str _, .obj _
  | .arr _, .null | .arr _, .bool _ | .arr _, .int _ | .arr _, .float _ | .arr _, .str _
  | .arr _, .obj _ | .obj _, .null | .obj _, .bool _ | .obj _, .int _ | .obj _, .float _
  | .obj _, .str _ | .obj _, .arr _ => isFalse (by simp)

def decEqList : (a b : List Json) → Decidable (a = b)
  | [], [] => isTrue rfl
  | x :: xs, y :: ys =>
    @decidable_of_iff _ (x = y ∧ xs = ys) (by simp)
      (@instDecidableAnd _ _ (decEq x y) (decEqList xs ys))
  | [], _ :: _ | _ :: _, [] => isFalse (by simp)

def decEqItems : (a b : List (String × Json)) → Decidable (a = b)
  | [], [] => isTrue rfl
  | (k, x) :: xs, (l, y) :: ys =>
    @decidable_of_iff _ (k = l ∧ x = y ∧ xs = ys) (by simp [and_assoc])
      (@instDecidableAnd _ _ inferInstance
        (@instDecidableAnd _ _ (decEq x y) (decEqItems xs ys)))
  | [], _ :: _ | _ :: _, [] => isFalse (by simp)

end

instance : DecidableEq Json := decEq

/-- Python's truth value: `None`, `False`, zeros and empty containers are false. -/
def truthy : Json → Bool
  | .null => false
  | .bool b => b
  | .int n => n != 0
  | .float r => r != "0.0" && r != "-0.0"
  | .str s => s != ""
  | .arr xs => !xs.isEmpty
  | .obj kvs => !kvs.isEmpty

/-- `key in d` and `d[key]` in one: the value stored under `key`. -/
def lookup (kvs : List (String × Json)) (key : String) : Option Json :=
  (kvs.find? fun kv => kv.1 == key).map Prod.snd

/-- `d.get(key)`: `None` where the key is absent. -/
def get (kvs : List (String × Json)) (key : String) : Json :=
  (lookup kvs key).getD .null

/-- `d[key] = value`: in place where the key is there, else at the end. -/
def insert (kvs : List (String × Json)) (key : String) (value : Json) : List (String × Json) :=
  if kvs.any fun kv => kv.1 == key then
    kvs.map fun kv => if kv.1 == key then (key, value) else kv
  else kvs ++ [(key, value)]

/-- `d.update(other)`. -/
def update (kvs other : List (String × Json)) : List (String × Json) :=
  other.foldl (fun kvs kv => insert kvs kv.1 kv.2) kvs

section Insert

variable {kvs other : List (String × Json)} {key key' : String} {value : Json}

theorem lookup_cons {kv : String × Json} :
    lookup (kv :: kvs) key = if kv.1 = key then some kv.2 else lookup kvs key := by
  unfold lookup
  by_cases h : kv.1 = key
  · rw [List.find?_cons_of_pos (by simpa using h), if_pos h, Option.map_some]
  · rw [List.find?_cons_of_neg (by simpa using h), if_neg h]

/-- Replacing the value of one key leaves the others as they were. -/
theorem lookup_replace_of_ne (h : key ≠ key') :
    lookup (kvs.map fun kv => if kv.1 == key then (key, value) else kv) key' = lookup kvs key' := by
  induction kvs with
  | nil => rfl
  | cons kv kvs ih =>
    rw [List.map_cons, lookup_cons, lookup_cons, ih]
    by_cases hkv : kv.1 = key
    · simp [hkv, h]
    · simp [hkv]

theorem lookup_replace_self (h : (kvs.any fun kv => kv.1 == key) = true) :
    lookup (kvs.map fun kv => if kv.1 == key then (key, value) else kv) key = some value := by
  induction kvs with
  | nil => cases h
  | cons kv kvs ih =>
    rw [List.map_cons, lookup_cons]
    by_cases hkv : kv.1 = key
    · simp [hkv]
    · have hrest : (kvs.any fun kv => kv.1 == key) = true := by simpa [hkv] using h
      have hne : (kv.1 == key) = false := by simpa using hkv
      rw [hne, ih hrest]
      simp [hkv]

theorem lookup_append_of_none (h : lookup kvs key = none) :
    lookup (kvs ++ other) key = lookup other key := by
  induction kvs with
  | nil => rfl
  | cons kv kvs ih =>
    rw [lookup_cons] at h
    split at h
    · cases h
    · next hne => rw [List.cons_append, lookup_cons, if_neg hne, ih h]

theorem lookup_append_of_some (h : lookup kvs key = some value) :
    lookup (kvs ++ other) key = some value := by
  induction kvs with
  | nil => cases h
  | cons kv kvs ih =>
    rw [lookup_cons] at h
    rw [List.cons_append, lookup_cons]
    split at h
    · next heq => rw [if_pos heq, h]
    · next hne => rw [if_neg hne, ih h]

theorem lookup_none_of_any (h : (kvs.any fun kv => kv.1 == key) = false) :
    lookup kvs key = none := by
  unfold lookup
  rw [Option.map_eq_none_iff, List.find?_eq_none]
  intro kv hkv heq
  have hall : ∀ kv ∈ kvs, ¬ kv.1 == key := by simpa using h
  exact hall kv hkv heq

/-- What `d[key] = value` stores is found under `key`, and nothing else changes. -/
theorem lookup_insert :
    lookup (insert kvs key value) key' = if key = key' then some value else lookup kvs key' := by
  unfold insert
  split
  · next hany =>
    split
    · next heq => rw [← heq, lookup_replace_self hany]
    · next hne => rw [lookup_replace_of_ne hne]
  · next hany =>
    have hnone : lookup kvs key = none := lookup_none_of_any (Bool.eq_false_iff.2 hany)
    split
    · next heq => rw [← heq, lookup_append_of_none hnone, lookup_cons, if_pos rfl]
    · next hne =>
      cases hl : lookup kvs key' with
      | some v => rw [lookup_append_of_some hl]
      | none =>
        rw [lookup_append_of_none hl, lookup_cons, if_neg hne]
        rfl

/-- `d.update(other)` finds what `other` has last, and what `d` has otherwise. -/
theorem lookup_update :
    lookup (update kvs other) key = (lookup other.reverse key).or (lookup kvs key) := by
  unfold update
  induction other generalizing kvs with
  | nil => rfl
  | cons kv other ih =>
    rw [List.foldl_cons, ih, lookup_insert, List.reverse_cons]
    cases hl : lookup other.reverse key with
    | some v => rw [lookup_append_of_some hl, Option.some_or, Option.some_or]
    | none =>
      rw [lookup_append_of_none hl, lookup_cons, Option.none_or]
      split
      · rfl
      · rfl

end Insert

/-- An optional string as a JSON value. -/
def ofOption : Option String → Json
  | some s => .str s
  | none => .null

end Json

/-- `str.isspace()` of one character: the characters `str.strip()` removes. -/
def isSpace (c : Char) : Bool :=
  let n := c.toNat
  (9 ≤ n && n ≤ 13) || (0x1c ≤ n && n ≤ 0x20) || n == 0x85 || n == 0xa0 || n == 0x1680 ||
    (0x2000 ≤ n && n ≤ 0x200a) || n == 0x2028 || n == 0x2029 || n == 0x202f || n == 0x205f ||
    n == 0x3000

/-- `s.strip()`, on the characters of `s`. -/
def strip (s : List Char) : List Char :=
  ((s.dropWhile isSpace).reverse.dropWhile isSpace).reverse

/-- The lower-case form of one character, where it lies in ASCII. -/
def lowerChar (c : Char) : Char :=
  if 'A' ≤ c ∧ c ≤ 'Z' then Char.ofNat (c.toNat + 32)
  else if c.toNat = 0x212a then 'k'
  else c

/-- `s.lower()`, on the characters of `s` and as far as ASCII text can tell. -/
def lower (s : List Char) : List Char := s.map lowerChar

/-- `s.isascii()`. -/
def isAscii (s : List Char) : Bool := s.all fun c => c.toNat < 128

example : lower (strip [' ', 'A', 'b', '\n']) = ['a', 'b'] := by decide

end Python
