/-
  Token verification and content hashing (`verifier.py`, `hashing.py`).

  `verify` is stateless: absent token, pinned algorithm, the signature check of the token library
  (an oracle, whose three exceptions become three refusal reasons), and a usable binding in either
  contract version.  Replay is not its business.
-/
import CanvasOS.Publisher.Store

namespace CanvasOS.Publisher

open Interleave Python Governance

/-! ## `hashing.py` -/

/-- `recompute_content_hash`: lowercase hex SHA-256 of the exact bytes. -/
def recomputeContentHash (py : Stdlib) (assetBytes : List UInt8) : String :=
  py.sha256Hex assetBytes

/-- What two digests are compared by: blanks stripped, letter case ignored. -/
def digestForm (s : String) : List Char := lower (strip s.toList)

/-- `hashes_match`: False for an absent or empty expectation; `hmac.compare_digest` raises a
    TypeError on text outside ASCII, `str.strip` an AttributeError on anything but text. -/
def hashesMatch (expected : Json) (actual : String) : Except Exc Bool :=
  if !expected.truthy then .ok false
  else match expected with
    | .str e =>
      if isAscii (digestForm e) && isAscii (digestForm actual) then
        .ok (digestForm e == digestForm actual)
      else .error (.other "TypeError")
    | _ => .error (.other "AttributeError")

/-- A match compares equal text in digest form. -/
theorem eq_of_hashesMatch {expected : Json} {actual : String}
    (h : hashesMatch expected actual = .ok true) :
    ∃ e, expected = .str e ∧ digestForm e = digestForm actual := by
  unfold hashesMatch at h
  split at h
  · cases h
  · cases expected with
    | str e =>
      simp only at h
      split at h
      · refine ⟨e, rfl, ?_⟩
        simpa using h
      · cases h
    | null | bool | int | float | arr | obj => cases h

/-! ## `verifier.py` -/

def reasonTokenAbsent : String := "token_absent"
def reasonTokenExpired : String := "token_expired"
def reasonTokenReplayed : String := "token_replayed"
def reasonContentHashMismatch : String := "content_hash_mismatch"
def reasonInvalidAlg : String := "invalid_alg"
def reasonTokenInvalid : String := "token_invalid"

/-- `except jwt.PyJWTError`: the base class of the token library's exceptions. -/
def Exc.isPyJwt : Exc → Bool
  | .expiredSignature | .invalidAlgorithm | .pyJwt => true
  | _ => false

/-- The header names an algorithm of the allowlist. -/
def pinned (allowedAlgorithms : List String) (header : List (String × Json)) : Bool :=
  allowedAlgorithms.any fun a => Json.get header "alg" == .str a

/-- `_pin_algorithm`: an absent `alg` and one outside the allowlist are refused alike. -/
def pinAlgorithm (allowedAlgorithms : List String) (token : String) : Pub Unit := do
  let header ← translating (fun e => if e.isPyJwt then .verification reasonTokenInvalid else e)
    (call (.getUnverifiedHeader token))
  if pinned allowedAlgorithms header then pure ()
  else throw (.verification reasonInvalidAlg)

/-- `_bound_taxonomy_claims`: a ValueError becomes a refusal, a TypeError passes through. -/
def boundTaxonomyClaims (py : Stdlib) (claims : Claims) : Pub Binding :=
  match extractFunctionIdAndContentHash py claims with
  | .ok b => pure b
  | .error .valueError => throw (.verification reasonTokenInvalid)
  | .error .typeError => throw (.other "TypeError")

/-- The refusal each exception of `jwt.decode` becomes. -/
def decodeRefusal : Exc → Exc
  | .expiredSignature => .verification reasonTokenExpired
  | .invalidAlgorithm => .verification reasonInvalidAlg
  | .pyJwt => .verification reasonTokenInvalid
  | e => e

/-- `GateTokenVerifier.verify`. -/
def verify (py : Stdlib) (allowedAlgorithms : List String) (token : Option String) :
    Pub Claims :=
  match token with
  | none => throw (.verification reasonTokenAbsent)
  | some token =>
    if strip token.toList = [] then throw (.verification reasonTokenAbsent)
    else do
      pinAlgorithm allowedAlgorithms token
      let claims ← translating decodeRefusal (call (.jwtDecode token))
      let _ ← boundTaxonomyClaims py claims
      pure claims

end CanvasOS.Publisher
