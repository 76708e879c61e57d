/-
  A function's prompt, authorised by the signed registry manifest (`manifest.resolve_prompt`),
  while anything may happen to its file.

  The file is read twice: as bytes, to be hashed, and as text, to be returned.

  1. `resolvePrompt` — the code, as a routine that looks at the file three times, and
     `promptSystem`, in which the file is replaced by whatever, at any moment.
  2. `decode_eq_some` — reading text is decoding, and the line ends of the characters are those of
     the bytes.
  3. `signed_iff` — the text that is returned is the one that was signed exactly when the two
     contents agree up to their line ends and the first has no carriage return by itself, unless
     their hashes collide.
-/
import CanvasOS.Lib.Format
import CanvasOS.Lib.Newline
import CanvasOS.Lib.Replies

namespace CanvasOS.Orchestrator.Manifest

open Interleave Newline

/-! ## The code -/

abbrev Bytes := List UInt8

inductive Failure where
  /-- `ManifestVerificationError` -/
  | manifestVerificationError (message : String)
  /-- `read_text` of bytes that are no UTF-8 -/
  | unicodeDecodeError
  /-- what the file system raises -/
  | osError
deriving DecidableEq

/-- `VerifiedManifest`, as far as prompts are concerned. -/
structure VerifiedManifest where
  /-- `files_by_function.get(function_id)`, and `.get(relative_path)` of it -/
  filesByFunction : String → Option (String → Option String)

/-- `has_function` -/
def VerifiedManifest.hasFunction (m : VerifiedManifest) (functionId : String) : Bool :=
  (m.filesByFunction functionId).isSome

/-- `file_sha256` -/
def VerifiedManifest.fileSha256 (m : VerifiedManifest) (functionId relativePath : String) :
    Option String :=
  (m.filesByFunction functionId).bind fun files => files relativePath

/-- What `resolve_prompt` finds in its process. -/
structure Deployment where
  /-- `get_manifest()` -/
  manifest : Except Failure VerifiedManifest
  /-- `_load_registry_tooling(None)` -/
  tooling : Except Failure Unit
  /-- `functions_dir` -/
  functionsDir : String
  /-- `hashlib.sha256(data).hexdigest()` -/
  sha256 : Bytes → String

/-- The three looks at the file. -/
inductive Look where
  | isFile
  | readBytes
  /-- `read_text`, before anything is decoded -/
  | readText

abbrev Look.Res : Look → Type
  | .isFile => Bool
  | .readBytes => Bytes
  | .readText => Bytes

def cr : UInt8 := 13

def lf : UInt8 := 10

/-- `normalise_text_bytes`, of the bytes that were read. -/
def normaliseTextBytes (data : Bytes) : Bytes := crlfToLf cr lf data

/-- `encode("utf-8")` -/
def encode (text : String) : Bytes := text.toList.flatMap String.utf8EncodeChar

/-- `read_text(encoding="utf-8")`, of the bytes that were read: strict, with universal newlines. -/
def decode (data : Bytes) : Option String :=
  (String.fromUTF8? data.toByteArray).map fun text =>
    String.ofList (universal '\r' '\n' text.toList)

/-- `f"{prompt_path}"` -/
def promptPath (D : Deployment) (functionId : String) : String :=
  D.functionsDir ++ "/" ++ functionId ++ "/prompt.md"

def see (o : Look) : Prog Look Look.Res Failure o.Res := Prog.perform o

def raising {α : Type} : Except Failure α → Prog Look Look.Res Failure α
  | .ok a => .pure a
  | .error e => .throw e

/-- `resolve_prompt` -/
def resolvePrompt (D : Deployment) (functionId : String) : Prog Look Look.Res Failure String := do
  let manifest ← raising D.manifest
  if manifest.hasFunction functionId = false then
    .throw (.manifestVerificationError (
      Python.reprStr functionId ++ " is not a package the signed registry manifest knows " ++
        "about -- refusing to run an unregistered function's prompt"))
  else match manifest.fileSha256 functionId "prompt.md" with
  | none =>
    .throw (.manifestVerificationError (
      "the signed registry manifest has no prompt.md hash recorded for " ++
        Python.reprStr functionId ++ " -- was the manifest built before this function's " ++
        "prompt existed?"))
  | some expected => do
    if (← see .isFile) = false then
      .throw (.manifestVerificationError (
        promptPath D functionId ++ " is recorded in the signed manifest but missing on disk"))
    else do
      raising D.tooling
      let actual := D.sha256 (normaliseTextBytes (← see .readBytes))
      if actual ≠ expected then
        .throw (.manifestVerificationError (
          "prompt.md for " ++ Python.reprStr functionId ++ " does not match the signed registry " ++
            "manifest (expected sha256 " ++ expected ++ ", got " ++ actual ++ ") -- refusing to " ++
            "run a tampered prompt"))
      else
        match decode (← see .readText) with
        | none => .throw .unicodeDecodeError
        | some text => .pure text

/-- What the file system answers: a file that is not there cannot be read. -/
def look : (o : Look) → o.Res → Option Bytes → Option (o.Res × Option Bytes)
  | .isFile, _, file => some (file.isSome, file)
  | .readBytes, _, file => file.map fun data => (data, file)
  | .readText, _, file => file.map fun data => (data, file)

/-- Calls of `resolve_prompt` for a function, while its file is replaced. -/
def promptSystem (D : Deployment) (functionId : String) :
    Sys Look Look.Res Failure (Option Bytes) Nat Unit String (Option Bytes) where
  body _ := resolvePrompt D functionId
  enter _ _ file := some file
  run _ := look
  env file _ := some file

/-! ## What is promised -/

/-- The text's bytes, with their line ends normalised, have the hash that was signed. -/
def Signed (D : Deployment) (functionId text : String) : Prop :=
  ∃ manifest expected, D.manifest = .ok manifest ∧
    manifest.fileSha256 functionId "prompt.md" = some expected ∧
    D.sha256 (normaliseTextBytes (encode text)) = expected

/-- The two contents are the same text up to their line ends, and in the first every carriage
    return is followed by a newline. -/
def Untouched (first second : Bytes) : Prop :=
  Paired cr lf first ∧ universal cr lf second = universal cr lf first

/-- What is hashed and what is returned are different, and have the same hash. -/
def Collide (D : Deployment) (first second : Bytes) : Prop :=
  universal cr lf second ≠ normaliseTextBytes first ∧
    D.sha256 (universal cr lf second) = D.sha256 (normaliseTextBytes first)

/-! ## Text and bytes -/

/-- No other character has one of the two bytes. -/
theorem ne_of_mem_utf8EncodeChar {c : Char} (hcr : c ≠ '\r') (hlf : c ≠ '\n') :
    ∀ b ∈ String.utf8EncodeChar c, b.toNat ≠ 13 ∧ b.toNat ≠ 10 := by
  have h13 : c.val.toNat ≠ 13 := fun h => hcr (Char.ext (UInt32.toNat_inj.1 h))
  have h10 : c.val.toNat ≠ 10 := fun h => hlf (Char.ext (UInt32.toNat_inj.1 h))
  intro b hb
  unfold String.utf8EncodeChar at hb
  dsimp only at hb
  -- the bytes of a longer sequence are at least 128
  split at hb
  · obtain rfl := List.mem_singleton.1 hb
    rw [UInt8.toNat_ofNat']
    omega
  · split at hb
    · simp only [List.mem_cons, List.not_mem_nil, or_false] at hb
      rcases hb with rfl | rfl <;> simp only [UInt8.toNat_ofNat'] <;> omega
    · split at hb
      · simp only [List.mem_cons, List.not_mem_nil, or_false] at hb
        rcases hb with rfl | rfl | rfl <;> simp only [UInt8.toNat_ofNat'] <;> omega
      · simp only [List.mem_cons, List.not_mem_nil, or_false] at hb
        rcases hb with rfl | rfl | rfl | rfl <;> simp only [UInt8.toNat_ofNat'] <;> omega

/-- The line ends of a text are those of its bytes. -/
theorem encode_universal (text : String) :
    encode (String.ofList (universal '\r' '\n' text.toList)) = universal cr lf (encode text) := by
  have hflat : universal cr lf (text.toList.flatMap String.utf8EncodeChar) =
      (universal '\r' '\n' text.toList).flatMap String.utf8EncodeChar := by
    refine universal_flatMap rfl rfl (by decide) (fun _ => String.utf8EncodeChar_ne_nil) ?_
    intro c hcr hlf
    have hne := ne_of_mem_utf8EncodeChar hcr hlf
    exact ⟨fun hin => (hne cr hin).1 rfl, fun hin => (hne lf hin).2 rfl⟩
  rw [encode, String.toList_ofList, encode, hflat]

theorem encode_of_fromUTF8? {data : Bytes} {text : String}
    (h : String.fromUTF8? data.toByteArray = some text) : encode text = data := by
  have hbytes : text.toByteArray = data.toByteArray := by
    unfold String.fromUTF8? at h
    split at h
    · rw [← Option.some.inj h]
      rfl
    · cases h
  rw [← String.utf8Encode_toList] at hbytes
  exact List.toByteArray_inj.1 hbytes

/-- What is read as text is the text of the bytes. -/
theorem encode_of_decode {data : Bytes} {text : String} (h : decode data = some text) :
    encode text = universal cr lf data := by
  obtain ⟨raw, hraw, rfl⟩ := Option.map_eq_some_iff.1 h
  rw [encode_universal, encode_of_fromUTF8? hraw]

/-- The bytes of a text are its own encoding. -/
theorem fromUTF8?_encode (text : String) :
    String.fromUTF8? (encode text).toByteArray = some text := by
  have hbytes : (encode text).toByteArray = text.toByteArray := String.utf8Encode_toList
  unfold String.fromUTF8?
  rw [hbytes, dif_pos text.isValidUTF8]
  rfl

/-- The text of a string's own bytes. -/
theorem decode_encode (text : String) :
    decode (encode text) = some (String.ofList (universal '\r' '\n' text.toList)) := by
  rw [decode, fromUTF8?_encode]
  rfl

/-- No two texts have the same bytes. -/
theorem encode_injective {text text' : String} (h : encode text = encode text') : text = text' := by
  have hbytes := congrArg List.toByteArray h
  rw [encode, encode, ← List.utf8Encode, ← List.utf8Encode, String.utf8Encode_toList,
    String.utf8Encode_toList] at hbytes
  exact String.toByteArray_inj.1 hbytes

/-- Contents that have the same hash input are read as the same text, or neither is read. -/
theorem decode_congr {data data' : Bytes}
    (h : normaliseTextBytes data = normaliseTextBytes data') : decode data = decode data' := by
  have hother : ∀ c : Char, c ≠ '\r' → c ≠ '\n' →
      cr ∉ String.utf8EncodeChar c ∧ lf ∉ String.utf8EncodeChar c := by
    intro c hcr hlf
    have hne := ne_of_mem_utf8EncodeChar hcr hlf
    exact ⟨fun hin => (hne cr hin).1 rfl, fun hin => (hne lf hin).2 rfl⟩
  have hcr : String.utf8EncodeChar '\r' = [cr] := rfl
  have hlf : String.utf8EncodeChar '\n' = [lf] := rfl
  -- what the one is read as, the other is read as
  have hread : ∀ {d d' : Bytes} {text : String}, normaliseTextBytes d = normaliseTextBytes d' →
      decode d = some text → decode d' = some text := by
    intro d d' text hd htext
    obtain ⟨raw, hraw, -⟩ := Option.map_eq_some_iff.1 htext
    have hflat : normaliseTextBytes d' =
        (crlfToLf '\r' '\n' raw.toList).flatMap String.utf8EncodeChar := by
      rw [← hd, ← encode_of_fromUTF8? hraw]
      exact crlfToLf_flatMap rfl rfl (by decide) (fun _ => String.utf8EncodeChar_ne_nil) hother
    have hback : ∃ chars : List Char, d' = [] ++ chars.flatMap String.utf8EncodeChar :=
      exists_flatMap_of_crlfToLf hcr hlf (by decide)
        (fun _ => String.utf8EncodeChar_ne_nil) hother _ List.not_mem_nil List.not_mem_nil hflat
    obtain ⟨chars, hchars⟩ := hback
    have hdata : d' = encode (String.ofList chars) := by
      rw [hchars, encode, String.toList_ofList]
      rfl
    rw [hdata, decode_encode, Option.some_inj]
    refine encode_injective ?_
    rw [encode_universal, ← hdata, encode_of_decode htext, universal_eq_map, universal_eq_map]
    exact congrArg _ hd.symm
  cases htext : decode data with
  | some text => exact (hread h htext).symm
  | none =>
    cases htext' : decode data' with
    | none => rfl
    | some text => exact absurd (htext.symm.trans (hread h.symm htext')) (Option.some_ne_none text).symm

/-! ## Every run -/

variable {D : Deployment} {functionId text : String}

theorem raising_ok {α β : Type} {x : Except Failure α} {f : α → Prog Look Look.Res Failure β}
    {l : Replies Look Look.Res Failure} {b : β} (h : Ran ((raising x).bind f) l (.ok b)) :
    ∃ a, x = .ok a ∧ Ran (f a) l (.ok b) := by
  cases x with
  | ok a => exact ⟨a, rfl, h⟩
  | error e => cases h.of_throw.2

theorem see_ok {o : Look} {β : Type} {f : o.Res → Prog Look Look.Res Failure β}
    {l : Replies Look Look.Res Failure} {b : β} (h : Ran ((see o).bind f) l (.ok b)) :
    ∃ a l', l = ⟨o, .ok a⟩ :: l' ∧ Ran (f a) l' (.ok b) := by
  obtain ⟨a, l₁, l₂, rfl, h₁, h₂⟩ := h.of_bind_ok
  obtain ⟨r, rfl, hr⟩ := h₁.of_perform
  cases r with
  | ok a' => exact ⟨a, l₂, by rw [Except.ok.inj hr]; rfl, h₂⟩
  | failed e => cases hr
  | lost a' e => cases hr

/-- What a call that returns has seen. -/
theorem ran_resolvePrompt {l : Replies Look Look.Res Failure}
    (h : Ran (resolvePrompt D functionId) l (.ok text)) :
    ∃ manifest expected first second, D.manifest = .ok manifest ∧
      manifest.fileSha256 functionId "prompt.md" = some expected ∧
      l = [⟨.isFile, .ok true⟩, ⟨.readBytes, .ok first⟩, ⟨.readText, .ok second⟩] ∧
      D.sha256 (normaliseTextBytes first) = expected ∧ decode second = some text := by
  obtain ⟨manifest, hmanifest, h₀⟩ := raising_ok h
  split at h₀
  next => cases h₀.of_throw.2
  next =>
    split at h₀
    next => cases h₀.of_throw.2
    next expected hexpected =>
      obtain ⟨there, l₁, rfl, h₁⟩ := see_ok h₀
      split at h₁
      next => cases h₁.of_throw.2
      next hthere =>
        obtain ⟨-, -, h₂⟩ := raising_ok h₁
        obtain ⟨first, l₂, rfl, h₃⟩ := see_ok h₂
        dsimp only at h₃
        split at h₃
        next => cases h₃.of_throw.2
        next hhash =>
          obtain ⟨second, l₃, rfl, h₄⟩ := see_ok h₃
          split at h₄
          next => cases h₄.of_throw.2
          next text' hdecode =>
            obtain ⟨rfl, htext⟩ := h₄.of_pure
            obtain rfl : there = true := by simpa using hthere
            exact ⟨manifest, expected, first, second, hmanifest, hexpected, rfl,
              not_not.1 hhash, Except.ok.inj htext ▸ hdecode⟩

/-- Whatever happens to the file: what is returned was signed exactly when the content that is
    returned is the one that was hashed, up to line ends, or has its hash. -/
theorem signed_iff {file : Option Bytes}
    {acts : List (Act Look Look.Res Failure Nat Unit (Option Bytes))} {i : Nat}
    (h : (acts.foldl (promptSystem D functionId).exec (.idle file)).result i =
      some ((), .ok text)) :
    ∃ first second, (promptSystem D functionId).replies i (.idle file) acts =
        [⟨.isFile, .ok true⟩, ⟨.readBytes, .ok first⟩, ⟨.readText, .ok second⟩] ∧
      (Signed D functionId text ↔ Untouched first second ∨ Collide D first second) := by
  obtain ⟨manifest, expected, first, second, hmanifest, hexpected, hreplies, hhash, hdecode⟩ :=
    ran_resolvePrompt (Sys.ran_of_result h)
  refine ⟨first, second, hreplies, ?_⟩
  have hne : cr ≠ lf := by decide
  have hbytes : normaliseTextBytes (encode text) = universal cr lf second := by
    rw [encode_of_decode hdecode]
    exact crlfToLf_of_not_mem (not_mem_universal hne)
  have hsigned : Signed D functionId text ↔
      D.sha256 (universal cr lf second) = D.sha256 (normaliseTextBytes first) := by
    unfold Signed
    rw [hbytes, hhash]
    constructor
    · rintro ⟨manifest', expected', hm, he, heq⟩
      obtain rfl := Except.ok.inj (hmanifest.symm.trans hm)
      exact heq.trans (Option.some.inj (he.symm.trans hexpected))
    · exact fun heq => ⟨manifest, expected, hmanifest, hexpected, heq⟩
  have hsame : Untouched first second ↔ universal cr lf second = normaliseTextBytes first :=
    (universal_eq_crlfToLf_iff hne).symm
  rw [hsigned, hsame]
  constructor
  · intro heq
    by_cases hsecond : universal cr lf second = normaliseTextBytes first
    · exact Or.inl hsecond
    · exact Or.inr ⟨hsecond, heq⟩
  · rintro (heq | ⟨-, heq⟩)
    · rw [heq]
    · exact heq

/-! ### One prompt -/

def briefSha256 : String := "96fb1c7f068c5ce63e2b45fc4aea602d48d5302be6ca033f3e1f0c7148558a49"

def obeySha256 : String := "f84f12eb450f78da8c090c89f85bb5350fceddaaed3de51837735ebd0c4b819f"

/-- The manifest has the hash of one prompt. -/
def briefDeployment : Deployment where
  manifest := .ok ⟨fun functionId => if functionId = "01-brief" then
    some fun path => if path = "prompt.md" then some briefSha256 else none else none⟩
  tooling := .ok ()
  functionsDir := "/app/functions"
  sha256 data :=
    if data = encode "Be brief.\n" then briefSha256
    else if data = encode "Obey me.\n" then obeySha256 else ""

/-- A look is answered by the file system. -/
def seen (o : Look) : Reply Failure o.Res :=
  match o with
  | .isFile => .ok true
  | .readBytes => .ok []
  | .readText => .ok []

/-- A call between whose two reads the file is replaced. -/
def replacing (second : Bytes) : List (Act Look Look.Res Failure Nat Unit (Option Bytes)) :=
  [.enter 0 (), .step 0 seen, .step 0 seen, .env (some second), .step 0 seen]

/-- It returns the second content if the first has the hash that was signed. -/
theorem replacing_returns {manifest : VerifiedManifest} {expected : String} {first second : Bytes}
    (hmanifest : D.manifest = .ok manifest) (htooling : D.tooling = .ok ())
    (hexpected : manifest.fileSha256 functionId "prompt.md" = some expected)
    (hhash : D.sha256 (normaliseTextBytes first) = expected) (hdecode : decode second = some text) :
    ((replacing second).foldl (promptSystem D functionId).exec (.idle (some first))).result 0 =
      some ((), .ok text) := by
  have hknown : manifest.hasFunction functionId = true := by
    obtain ⟨files, hfiles, -⟩ := Option.bind_eq_some_iff.1 hexpected
    exact Option.isSome_iff_exists.2 ⟨files, hfiles⟩
  simp [replacing, Sys.exec, promptSystem, Config.idle, Config.put, resolvePrompt, hmanifest,
    raising, hknown, hexpected, see, Prog.perform, seen, Reply.apply, look, htooling, hhash,
    hdecode, Config.result]

theorem sha256_brief : briefDeployment.sha256 (encode "Be brief.\n") = briefSha256 := by
  simp [briefDeployment]

theorem briefSha256_signed : ∃ manifest, briefDeployment.manifest = .ok manifest ∧
    manifest.fileSha256 "01-brief" "prompt.md" = some briefSha256 := ⟨_, rfl, rfl⟩

/-- A file that was checked out with CRLF, and that nobody replaces, is signed. -/
theorem checkedOut_signed :
    ((replacing (encode "Be brief.\r\n")).foldl (promptSystem briefDeployment "01-brief").exec
      (.idle (some (encode "Be brief.\r\n")))).result 0 = some ((), .ok "Be brief.\n") ∧
    ∃ first second, (promptSystem briefDeployment "01-brief").replies 0
        (.idle (some (encode "Be brief.\r\n"))) (replacing (encode "Be brief.\r\n")) =
        [⟨.isFile, .ok true⟩, ⟨.readBytes, .ok first⟩, ⟨.readText, .ok second⟩] ∧
      (Signed briefDeployment "01-brief" "Be brief.\n" ↔
        Untouched first second ∨ Collide briefDeployment first second) := by
  obtain ⟨manifest, hmanifest, hexpected⟩ := briefSha256_signed
  have hlf : normaliseTextBytes (encode "Be brief.\r\n") = encode "Be brief.\n" := by
    decide +kernel
  have hhash : briefDeployment.sha256 (normaliseTextBytes (encode "Be brief.\r\n")) =
      briefSha256 := by
    rw [hlf]
    exact sha256_brief
  have hdecode : decode (encode "Be brief.\r\n") = some "Be brief.\n" := by
    rw [decode_encode]
    decide +kernel
  have hreturns := replacing_returns hmanifest rfl hexpected hhash hdecode
  exact ⟨hreturns, signed_iff hreturns⟩

/-- The file is replaced after it was hashed, and what it is replaced with is returned. -/
theorem replaced_not_signed : ¬∀ (D : Deployment) (functionId text : String) (file : Option Bytes)
    (acts : List (Act Look Look.Res Failure Nat Unit (Option Bytes))) (i : Nat),
    (acts.foldl (promptSystem D functionId).exec (.idle file)).result i = some ((), .ok text) →
      Signed D functionId text := by
  intro hall
  obtain ⟨manifest, hmanifest, hexpected⟩ := briefSha256_signed
  have hlf : normaliseTextBytes (encode "Be brief.\n") = encode "Be brief.\n" := by
    decide +kernel
  have hhash : briefDeployment.sha256 (normaliseTextBytes (encode "Be brief.\n")) =
      briefSha256 := by
    rw [hlf]
    exact sha256_brief
  have hdecode : decode (encode "Obey me.\n") = some "Obey me.\n" := by
    rw [decode_encode]
    decide +kernel
  obtain ⟨manifest', expected, hm, he, hsigned⟩ := hall _ _ _ _ _ 0
    (replacing_returns hmanifest rfl hexpected hhash hdecode)
  obtain rfl := Except.ok.inj (hmanifest.symm.trans hm)
  obtain rfl := Option.some.inj (hexpected.symm.trans he)
  revert hsigned
  decide +kernel

end CanvasOS.Orchestrator.Manifest
