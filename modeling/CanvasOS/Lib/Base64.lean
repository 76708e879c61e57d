/-
  `base64.b64encode` and `base64.b64decode(text, validate=True)`.

  1. `b64encode` — three bytes are four digits of six bits, and what is missing of the last three is
     written `=`.
  2. `b64decode` — nothing but digits, in fours, with at most two `=` at the very end; the bits that
     no byte has are not looked at.
  3. `b64decode_b64encode` — the bytes are read back, and no blank is written (`not_isSpace`).
-/
import CanvasOS.Lib.Text

namespace Base64

/-- The digits, by their values. -/
def alphabet : List Char :=
  "ABCDEFGHIJKLMNOPQRSTUVWXYZabcdefghijklmnopqrstuvwxyz0123456789+/".toList

def digit (n : Nat) : Char := alphabet.getD n 'A'

/-- The value of a digit; `none` for any other character. -/
def value (c : Char) : Option Nat := alphabet.findIdx? (· == c)

/-- `base64.b64encode(data).decode("ascii")` -/
def b64encode : List UInt8 → List Char
  | [] => []
  | [a] => [digit (a.toNat / 4), digit (a.toNat % 4 * 16), '=', '=']
  | [a, b] =>
    [digit (a.toNat / 4), digit (a.toNat % 4 * 16 + b.toNat / 16), digit (b.toNat % 16 * 4), '=']
  | a :: b :: c :: rest =>
    digit (a.toNat / 4) :: digit (a.toNat % 4 * 16 + b.toNat / 16) ::
      digit (b.toNat % 16 * 4 + c.toNat / 64) :: digit (c.toNat % 64) :: b64encode rest

/-- `base64.b64decode(text, validate=True)`; `none` where it raises -/
def b64decode : List Char → Option (List UInt8)
  | [] => some []
  | p :: q :: r :: s :: rest =>
    if s = '=' then
      if rest = [] then do
        let x ← value p
        let y ← value q
        if r = '=' then some [UInt8.ofNat (x * 4 + y / 16)]
        else do
          let z ← value r
          some [UInt8.ofNat (x * 4 + y / 16), UInt8.ofNat (y % 16 * 16 + z / 4)]
      else none
    else do
      let x ← value p
      let y ← value q
      let z ← value r
      let w ← value s
      let more ← b64decode rest
      some (UInt8.ofNat (x * 4 + y / 16) :: UInt8.ofNat (y % 16 * 16 + z / 4) ::
        UInt8.ofNat (z % 4 * 64 + w) :: more)
  | _ => none

theorem value_digit : ∀ n < 64, value (digit n) = some n := by decide +kernel

theorem digit_ne_pad : ∀ n < 64, digit n ≠ '=' := by decide +kernel

theorem not_isSpace_digit : ∀ n < 64, Python.isSpace (digit n) = false := by decide +kernel

theorem ofNat_eq {a : UInt8} {n : Nat} (h : n = a.toNat) : UInt8.ofNat n = a := by
  rw [h, UInt8.ofNat_toNat]

/-- What is written is read back. -/
theorem b64decode_b64encode (data : List UInt8) : b64decode (b64encode data) = some data := by
  fun_induction b64encode data with
  | case1 => rfl
  | case2 a =>
    have ha := a.toNat_lt
    have h₁ : a.toNat / 4 < 64 := by omega
    have h₂ : a.toNat % 4 * 16 < 64 := by omega
    have hbyte : UInt8.ofNat (a.toNat / 4 * 4 + a.toNat % 4 * 16 / 16) = a := ofNat_eq (by omega)
    rw [b64decode, if_pos rfl, if_pos rfl, value_digit _ h₁, value_digit _ h₂]
    simp only [Option.bind_eq_bind, Option.bind_some, if_true, hbyte]
  | case3 a b =>
    have ha := a.toNat_lt
    have hb := b.toNat_lt
    have h₁ : a.toNat / 4 < 64 := by omega
    have h₂ : a.toNat % 4 * 16 + b.toNat / 16 < 64 := by omega
    have h₃ : b.toNat % 16 * 4 < 64 := by omega
    have hfirst : UInt8.ofNat (a.toNat / 4 * 4 + (a.toNat % 4 * 16 + b.toNat / 16) / 16) = a :=
      ofNat_eq (by omega)
    have hsecond : UInt8.ofNat ((a.toNat % 4 * 16 + b.toNat / 16) % 16 * 16 +
        b.toNat % 16 * 4 / 4) = b := ofNat_eq (by omega)
    rw [b64decode, if_pos rfl, if_pos rfl, value_digit _ h₁, value_digit _ h₂]
    simp only [Option.bind_eq_bind, Option.bind_some, if_neg (digit_ne_pad _ h₃),
      value_digit _ h₃, hfirst, hsecond]
  | case4 a b c rest ih =>
    have ha := a.toNat_lt
    have hb := b.toNat_lt
    have hc := c.toNat_lt
    have h₁ : a.toNat / 4 < 64 := by omega
    have h₂ : a.toNat % 4 * 16 + b.toNat / 16 < 64 := by omega
    have h₃ : b.toNat % 16 * 4 + c.toNat / 64 < 64 := by omega
    have h₄ : c.toNat % 64 < 64 := by omega
    have hfirst : UInt8.ofNat (a.toNat / 4 * 4 + (a.toNat % 4 * 16 + b.toNat / 16) / 16) = a :=
      ofNat_eq (by omega)
    have hsecond : UInt8.ofNat ((a.toNat % 4 * 16 + b.toNat / 16) % 16 * 16 +
        (b.toNat % 16 * 4 + c.toNat / 64) / 4) = b := ofNat_eq (by omega)
    have hthird : UInt8.ofNat ((b.toNat % 16 * 4 + c.toNat / 64) % 4 * 64 + c.toNat % 64) = c :=
      ofNat_eq (by omega)
    rw [b64decode, if_neg (digit_ne_pad _ h₄), value_digit _ h₁, value_digit _ h₂,
      value_digit _ h₃, value_digit _ h₄, ih]
    simp only [Option.bind_eq_bind, Option.bind_some, hfirst, hsecond, hthird]

/-- No blank is written. -/
theorem not_isSpace (data : List UInt8) : ∀ c ∈ b64encode data, Python.isSpace c = false := by
  have hpad : Python.isSpace '=' = false := by decide
  fun_induction b64encode data with
  | case1 => exact List.forall_mem_nil _
  | case2 a =>
    have ha := a.toNat_lt
    simp only [List.forall_mem_cons]
    exact ⟨not_isSpace_digit _ (by omega), not_isSpace_digit _ (by omega), hpad, hpad,
      List.forall_mem_nil _⟩
  | case3 a b =>
    have ha := a.toNat_lt
    have hb := b.toNat_lt
    simp only [List.forall_mem_cons]
    exact ⟨not_isSpace_digit _ (by omega), not_isSpace_digit _ (by omega),
      not_isSpace_digit _ (by omega), hpad, List.forall_mem_nil _⟩
  | case4 a b c rest ih =>
    have ha := a.toNat_lt
    have hb := b.toNat_lt
    have hc := c.toNat_lt
    simp only [List.forall_mem_cons]
    exact ⟨not_isSpace_digit _ (by omega), not_isSpace_digit _ (by omega),
      not_isSpace_digit _ (by omega), not_isSpace_digit _ (by omega), ih⟩

example : b64encode [1, 2, 250, 255] = "AQL6/w==".toList ∧
    b64decode "AQL6/w=".toList = none := by decide +kernel

end Base64
