/-
  Decoded JSON values as text, the way Python writes them.

  1. `pyStr` — what an f-string makes of a value: a string is itself, anything else its `repr`.
  2. `dumpsIndent` — `json.dumps(value, indent=2)`.

  `repr` leaves every character it does not escape as it is; Python escapes the unprintable ones
  beyond ASCII as well.
-/
import CanvasOS.Lib.Text
import Mathlib.Algebra.Ring.Nat

namespace Python

/-- `sep.join(xs)`. -/
def join (sep : String) : List String → String
  | [] => ""
  | [x] => x
  | x :: y :: rest => x ++ sep ++ join sep (y :: rest)

/-- What is joined is part of the whole. -/
theorem infix_join {sep x : String} {xs : List String} (h : x ∈ xs) :
    x.toList <:+: (join sep xs).toList := by
  induction xs with
  | nil => cases h
  | cons y xs ih =>
    cases xs with
    | nil =>
      obtain rfl := List.mem_singleton.1 h
      exact List.infix_refl _
    | cons z xs =>
      rw [join, String.toList_append, String.toList_append]
      rcases List.mem_cons.1 h with rfl | h
      · exact (List.prefix_append _ _).isInfix.trans (List.prefix_append _ _).isInfix
      · exact (ih h).trans (List.suffix_append _ _).isInfix

/-- A hexadecimal digit. -/
def hexDigit (n : Nat) : Char := "0123456789abcdef".toList.getD n '0'

/-- The last `k` hexadecimal digits of `n`. -/
def hexDigits (k n : Nat) : String :=
  String.ofList ((List.range k).reverse.map fun i => hexDigit (n / 16 ^ i % 16))

/-! ## `repr` -/

/-- One character in a `repr` quoted by `q`. -/
def reprChar (q c : Char) : String :=
  if c == q || c == '\\' then String.ofList ['\\', c]
  else if c == '\n' then "\\n"
  else if c == '\r' then "\\r"
  else if c == '\t' then "\\t"
  else if c.toNat < 32 || c.toNat == 127 then "\\x" ++ hexDigits 2 c.toNat
  else String.singleton c

/-- `repr` of a string: in single quotes, unless it has one and no double quote. -/
def reprStr (s : String) : String :=
  let q := if '\'' ∈ s.toList ∧ '"' ∉ s.toList then '"' else '\''
  String.singleton q ++ join "" (s.toList.map (reprChar q)) ++ String.singleton q

mutual

/-- `repr(value)`. -/
def reprJson : Json → String
  | .null => "None"
  | .bool true => "True"
  | .bool false => "False"
  | .int n => toString n
  | .float r => r
  | .str s => reprStr s
  | .arr xs => "[" ++ join ", " (reprList xs) ++ "]"
  | .obj kvs => "\x7b" ++ join ", " (reprItems kvs) ++ "\x7d"

def reprList : List Json → List String
  | [] => []
  | x :: xs => reprJson x :: reprList xs

def reprItems : List (String × Json) → List String
  | [] => []
  | (k, x) :: rest => (reprStr k ++ ": " ++ reprJson x) :: reprItems rest

end

/-- `str(value)`, which is what an f-string puts in. -/
def pyStr : Json → String
  | .str s => s
  | j => reprJson j

/-! ## `json.dumps` -/

/-- One character of a JSON string with `ensure_ascii`. -/
def dumpsChar (c : Char) : String :=
  if c == '"' || c == '\\' then String.ofList ['\\', c]
  else if c == '\n' then "\\n"
  else if c == '\r' then "\\r"
  else if c == '\t' then "\\t"
  else if c.toNat == 8 then "\\b"
  else if c.toNat == 12 then "\\f"
  else if 32 ≤ c.toNat && c.toNat < 127 then String.singleton c
  else if c.toNat < 0x10000 then "\\u" ++ hexDigits 4 c.toNat
  else "\\u" ++ hexDigits 4 (0xd800 + (c.toNat - 0x10000) / 0x400) ++
    "\\u" ++ hexDigits 4 (0xdc00 + (c.toNat - 0x10000) % 0x400)

/-- A JSON string. -/
def dumpsStr (s : String) : String := "\"" ++ join "" (s.toList.map dumpsChar) ++ "\""

/-- A line break and `pad` blanks. -/
def newline (pad : Nat) : String := String.ofList ('\n' :: List.replicate pad ' ')

mutual

/-- `json.dumps(value, indent=2)` inside `pad` blanks. -/
def dumpsAt (pad : Nat) : Json → String
  | .null => "null"
  | .bool true => "true"
  | .bool false => "false"
  | .int n => toString n
  | .float r => r
  | .str s => dumpsStr s
  | .arr [] => "[]"
  | .arr xs =>
    "[" ++ newline (pad + 2) ++ join ("," ++ newline (pad + 2)) (dumpsList (pad + 2) xs) ++
      newline pad ++ "]"
  | .obj [] => "\x7b\x7d"
  | .obj kvs =>
    "\x7b" ++ newline (pad + 2) ++ join ("," ++ newline (pad + 2)) (dumpsItems (pad + 2) kvs) ++
      newline pad ++ "\x7d"

def dumpsList (pad : Nat) : List Json → List String
  | [] => []
  | x :: xs => dumpsAt pad x :: dumpsList pad xs

def dumpsItems (pad : Nat) : List (String × Json) → List String
  | [] => []
  | (k, x) :: rest => (dumpsStr k ++ ": " ++ dumpsAt pad x) :: dumpsItems pad rest

end

/-- `json.dumps(value, indent=2)`. -/
def dumpsIndent (value : Json) : String := dumpsAt 0 value

example : pyStr (.arr [.str "it's", .null, .int (-3)]) = "[\"it's\", None, -3]" := by decide +kernel
example : dumpsIndent (.obj [("a", .arr [.str "é"])]) =
    "\x7b\n  \"a\": [\n    \"\\u00e9\"\n  ]\n\x7d" := by decide +kernel

end Python
