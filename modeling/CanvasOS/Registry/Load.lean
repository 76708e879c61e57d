/-
  The signed manifest, from the build to the process that runs the prompts
  (`build_registry.write_artefact`, `signing.py`, `manifest.load_verified_manifest`).

  1. `Manifest.items`, `writeArtefact` — the document, and the signature beside it.
  2. `resolveKeyPath` — which key verifies it; `loadVerifiedManifest` — what the orchestrator makes
     of the two files.
  3. `load_writeArtefact` — what was signed is loaded: a function has the hashes of its own files
     and no others.
  4. `resolved_prompt_was_built` — a prompt that is resolved by it is one that it was built from.
-/
import CanvasOS.Lib.Base64
import CanvasOS.Lib.JsonPretty
import CanvasOS.Registry.Binding

namespace CanvasOS.Registry

open Python Listing Base64 Interleave
open Orchestrator.Manifest (Bytes Failure VerifiedManifest normaliseTextBytes encode decode
  decode_encode  fromUTF8?_encode decode_congr Look Look.Res Deployment promptSystem ran_resolvePrompt
  replacing replacing_returns)

/-! ## Writing -/

def Entry.items (e : Entry) : List (String × Json) :=
  [("id", .str e.id),
    ("path", .str e.path),
    ("content_sha256", .str e.contentSha256),
    ("file_count", .int e.fileCount),
    ("eval_task_count", .int e.evalTaskCount),
    ("tools", .arr (e.tools.map .str)),
    ("files", .obj (e.files.map fun file => (file.1, .str file.2)))]

def ScaffoldEntry.items (e : ScaffoldEntry) : List (String × Json) :=
  [("id", .str e.id),
    ("path", .str e.path),
    ("files", .obj (e.files.map fun file => (file.1, .str file.2)))]

/-- The dictionary that `build_manifest` returns -/
def Manifest.items (m : Manifest) : List (String × Json) :=
  [("registry_schema_version", .int registrySchemaVersion),
    ("tag", .str m.tag),
    ("known_tags", .arr ((sortBy id knownTags).map .str)),
    ("signature_algorithm", .str "Ed25519"),
    ("bundle_sha256", .str m.bundleSha256),
    ("function_count", .int m.functions.length),
    ("functions", .arr (m.functions.map fun e => .obj e.items)),
    ("scaffold_function_count", .int m.scaffoldFunctions.length),
    ("scaffold_functions", .arr (m.scaffoldFunctions.map fun e => .obj e.items))]

/-- `canonical_json` -/
def canonicalJson (payload : Json) : String := dumpsPretty payload ++ "\n"

/-- `sign_bytes`, with the key that was resolved -/
def signBytes (sign : Bytes → Bytes) (payload : Bytes) : String :=
  String.ofList (b64encode (sign payload))

/-- `registry.json` and `registry.json.sig` -/
structure Artefact where
  registry : Option Bytes
  signature : Option Bytes

/-- `write_artefact`, with the key where it is to be signed -/
def writeArtefact (m : Manifest) (sign : Option (Bytes → Bytes)) : Artefact :=
  let payload := encode (canonicalJson (.obj m.items))
  { registry := some payload
    signature := sign.map fun sign => encode (signBytes sign payload ++ "\n") }

/-! ## Keys -/

/-- What the resolution of a key asks its host. -/
structure Host where
  /-- `os.environ.get(name, "")` -/
  environ : String → String
  /-- `Path(configured).expanduser()` -/
  expanduser : String → String
  isFile : String → Bool
  /-- `rel_or_str` -/
  relOrStr : String → String

def publicKeyEnv : String := "REGISTRY_SIGNING_PUBLIC_KEY_PATH"

/-- `_KEYVAULT_MESSAGE.format(env=…, value=…)` -/
def keyvaultMessage (env value : String) : String :=
  env ++ "=" ++ Python.reprStr value ++ " is a Key Vault reference, but no Key Vault-held " ++
    "signing key exists in this scope and the vault is not reachable (publicNetworkAccess " ++
    "Disabled, no in-VNet runner). Refusing to silently fall back to the " ++
    "non-production dev key. See the 'Registry artefact is signed with a " ++
    "committed development key' entry in docs/accepted-risks.md, which records " ++
    "the Key Vault-held production signing key as a named follow-up."

/-- `_resolve_key_path`; what `fail` was told where it fails -/
def resolveKeyPath (H : Host) (envVar fallback : String) : Except String String :=
  let configured := String.ofList (strip (H.environ envVar).toList)
  if configured ≠ "" then
    if "keyvault://".toList <+: lower configured.toList then
      .error (keyvaultMessage envVar configured)
    else if H.isFile (H.expanduser configured) = false then
      .error (envVar ++ "=" ++ Python.reprStr configured ++
        " does not point at a readable key file")
    else .ok (H.expanduser configured)
  else if H.isFile fallback = false then
    .error (envVar ++ " is unset and the fallback development key " ++ H.relOrStr fallback ++
      " is missing — cannot sign or verify")
  else .ok fallback

/-! ## Loading -/

/-- How the orchestrator's load of a manifest fails. -/
inductive LoadFailure where
  | failed (failure : Failure)
  | attributeError
  | typeError
  /-- `load_public_key` ends the process, or raises what nobody catches. -/
  | badKey
deriving DecidableEq

/-- What `load_verified_manifest` finds. -/
structure Stage where
  /-- `registry_path` and `signature_path` -/
  registryPath : String
  signaturePath : String
  manifestDir : String
  artefact : Artefact
  /-- `_load_registry_tooling(tooling_dir)` -/
  tooling : Except Failure Unit
  host : Host
  /-- `DEV_PUBLIC_KEY_PATH` -/
  devPublicKeyPath : String
  /-- `load_public_key(path).verify`, of a signature and a payload, where `path` is such a key -/
  publicKey : String → Option (Bytes → Bytes → Bool)
  /-- The text of what `json.loads` or the decoding raises -/
  readError : Bytes → String
  /-- How a float is spelled -/
  spell : List Char → String

/-- `VerifiedManifest`, with its values as they were read -/
structure LoadedManifest where
  tag : String
  filesByFunction : List (Json × List (String × Json))

def digestOf : Option Json → Option String
  | some (.str digest) => some digest
  | _ => none

/-- What prompts are resolved with. -/
def LoadedManifest.verified (v : LoadedManifest) : VerifiedManifest where
  filesByFunction functionId :=
    (v.filesByFunction.find? fun entry => entry.1 = .str functionId).map fun entry relativePath =>
      digestOf (Json.lookup entry.2 relativePath)

/-- Only what is hashable can be a key. -/
def hashable : Json → Bool
  | .arr _ => false
  | .obj _ => false
  | _ => true

/-- `verify_bytes`, with the key that is found at the resolved path -/
def verifyBytes (publicKey : Option (Bytes → Bytes → Bool)) (payload : Bytes)
    (signatureB64 : String) : Except LoadFailure Bool :=
  match b64decode (strip signatureB64.toList), publicKey with
  | none, _ => .ok false
  | some _, none => .error .badKey
  | some signature, some verify => .ok (verify signature payload)

def manifestError (message : String) : LoadFailure := .failed (.manifestVerificationError message)

/-- One entry of `manifest.get(list_key, [])` -/
def addEntry (registryPath listKey : String)
    (filesByFunction : List (Json × List (String × Json))) :
    Json → Except LoadFailure (List (Json × List (String × Json)))
  | .obj entry =>
    let functionId := Json.get entry "id"
    match Json.truthy functionId, Json.get entry "files" with
    | true, .obj files =>
      if hashable functionId = false then .error .typeError
      else if filesByFunction.any fun other => other.1 = functionId then
        .error (manifestError (registryPath ++ " lists " ++ reprJson functionId ++
          " in both 'functions' and 'scaffold_functions'"))
      else .ok (filesByFunction ++ [(functionId, files)])
    | _, _ =>
      .error (manifestError (registryPath ++ " verified but has a malformed entry in " ++
        Python.reprStr listKey ++ " (missing id/files): " ++ reprJson (.obj entry)))
  | _ => .error .attributeError

/-- `manifest.get(list_key, [])`, as it is gone through -/
def listed (manifest : List (String × Json)) (listKey : String) : Except LoadFailure (List Json) :=
  match iterated ((Json.lookup manifest listKey).getD (.arr [])) with
  | .ok entries => .ok entries
  | .error _ => .error .typeError

/-- The manifest, read from a payload whose signature was good. -/
def readManifest (registryPath : String) : Json → Except LoadFailure LoadedManifest
  | .obj manifest => do
    let functions ← listed manifest "functions"
    let filesByFunction ← functions.foldlM (addEntry registryPath "functions") []
    let scaffolds ← listed manifest "scaffold_functions"
    let filesByFunction ←
      scaffolds.foldlM (addEntry registryPath "scaffold_functions") filesByFunction
    .ok { tag := pyStr ((Json.lookup manifest "tag").getD (.str "unknown")), filesByFunction }
  | _ => .error .attributeError

/-- `load_verified_manifest` -/
def loadVerifiedManifest (S : Stage) : Except LoadFailure LoadedManifest :=
  match S.artefact.registry with
  | none =>
    .error (manifestError ("registry manifest not found at " ++ S.registryPath ++
      " -- build it with `python services/registry/build_registry.py --out " ++ S.manifestDir ++
      " --sign` (TD-09; CI builds this before the orchestrator test suite/image runs, see " ++
      ".github/workflows/ci.yml and orchestrator-image.yml)"))
  | some payload =>
    match S.artefact.signature with
    | none =>
      .error (manifestError ("detached signature not found at " ++ S.signaturePath ++
        " -- build with --sign"))
    | some signature =>
      match S.tooling with
      | .error failure => .error (.failed failure)
      | .ok _ =>
        match decode signature with
        | none => .error (.failed .unicodeDecodeError)
        | some signatureText =>
          match resolveKeyPath S.host publicKeyEnv S.devPublicKeyPath with
          | .error message => .error (manifestError ("FAIL: " ++ message))
          | .ok publicKeyPath =>
            match verifyBytes (S.publicKey publicKeyPath) payload signatureText with
            | .error failure => .error failure
            | .ok false =>
              .error (manifestError ("Ed25519 signature verification FAILED for " ++
                S.registryPath ++ " against key " ++ publicKeyPath ++
                " -- the manifest content and the signature do not match (content tampered, " ++
                "signature tampered, or a different signing key was used)"))
            | .ok true =>
              match (String.fromUTF8? payload.toByteArray).bind fun text =>
                  loads S.spell text.toList with
              | none =>
                .error (manifestError (S.registryPath ++ " verified but is not valid JSON: " ++
                  S.readError payload))
              | some manifest => readManifest S.registryPath manifest

/-! ## The signature -/

theorem strip_append_newline {l : List Char} (h : ∀ c ∈ l, isSpace c = false) :
    strip (l ++ ['\n']) = l := by
  have hnewline : isSpace '\n' = true := by decide
  have hfront : (l ++ ['\n']).dropWhile isSpace = if l = [] then [] else l ++ ['\n'] := by
    cases l with
    | nil => rfl
    | cons c l => rw [List.cons_append, List.dropWhile_cons, h c List.mem_cons_self]; rfl
  have hback : l.reverse.dropWhile isSpace = l.reverse := by
    rw [List.dropWhile_eq_self_iff]
    intro hl
    rw [h _ (List.mem_reverse.1 (List.getElem_mem hl))]
    exact Bool.false_ne_true
  unfold strip
  rw [hfront]
  split
  · next hnil => rw [hnil]; rfl
  · rw [List.reverse_append, List.reverse_singleton, List.singleton_append, List.dropWhile_cons,
      hnewline, if_pos rfl, hback, List.reverse_reverse]

/-- The signature file is read as the signature and a line break. -/
theorem decode_signature (sign : Bytes → Bytes) (payload : Bytes) :
    decode (encode (signBytes sign payload ++ "\n")) =
      some (String.ofList (b64encode (sign payload) ++ ['\n'])) := by
  have hcr : '\r' ∉ b64encode (sign payload) := fun hin =>
    absurd (not_isSpace _ _ hin) (by decide)
  rw [decode_encode, String.toList_append, signBytes, String.toList_ofList,
    Newline.universal_append hcr]
  rfl

theorem verifyBytes_signBytes {sign : Bytes → Bytes} {verify : Bytes → Bytes → Bool}
    (hverify : ∀ payload, verify (sign payload) payload = true) (payload : Bytes) :
    verifyBytes (some verify) payload (String.ofList (b64encode (sign payload) ++ ['\n'])) =
      .ok true := by
  unfold verifyBytes
  rw [String.toList_ofList, strip_append_newline (not_isSpace _), b64decode_b64encode]
  exact congrArg Except.ok (hverify payload)

/-! ## The document -/

variable {spell : List Char → String} {T : Tools} {C : Checkout} {p : Child} {tag : String}
  {m : Manifest}

theorem wellFormedElems_map {α : Type} {f : α → Json} {l : List α}
    (h : ∀ a ∈ l, WellFormed spell (f a)) : WellFormedElems spell (l.map f) := by
  induction l with
  | nil => trivial
  | cons a l ih =>
    obtain ⟨ha, hl⟩ := List.forall_mem_cons.1 h
    exact ⟨ha, ih hl⟩

theorem sortKeysList_map {α : Type} (f : α → Json) (l : List α) :
    sortKeysList (l.map f) = l.map fun a => sortKeys (f a) := by
  induction l with
  | nil => rfl
  | cons a l ih => rw [List.map_cons, sortKeysList, ih, List.map_cons]

/-- The `files` of an entry, as they are written. -/
def filesJson (files : List (String × String)) : List (String × Json) :=
  files.map fun file => (file.1, .str file.2)

theorem wellFormed_filesJson {files : List (String × String)} (h : (files.map Prod.fst).Nodup) :
    WellFormed spell (.obj (filesJson files)) := by
  refine ⟨?_, wellFormedItems_iff.2 fun kv hkv => ?_⟩
  · rw [filesJson, List.map_map]
    exact h
  · obtain ⟨file, -, rfl⟩ := List.mem_map.1 hkv
    trivial

theorem Entry.keys (e : Entry) : (e.items.map Prod.fst).Nodup := by
  have hkeys : e.items.map Prod.fst = ["id", "path", "content_sha256", "file_count",
      "eval_task_count", "tools", "files"] := rfl
  rw [hkeys]
  decide

theorem ScaffoldEntry.keys (e : ScaffoldEntry) : (e.items.map Prod.fst).Nodup := by
  have hkeys : e.items.map Prod.fst = ["id", "path", "files"] := rfl
  rw [hkeys]
  decide

theorem Manifest.keys (m : Manifest) : (m.items.map Prod.fst).Nodup := by
  have hkeys : m.items.map Prod.fst = ["registry_schema_version", "tag", "known_tags",
      "signature_algorithm", "bundle_sha256", "function_count", "functions",
      "scaffold_function_count", "scaffold_functions"] := rfl
  rw [hkeys]
  decide

theorem Entry.wellFormed {e : Entry} (h : (e.files.map Prod.fst).Nodup) :
    WellFormed spell (.obj e.items) :=
  ⟨e.keys, trivial, trivial, trivial, trivial, trivial,
    wellFormedElems_map fun _ _ => trivial, wellFormed_filesJson h, trivial⟩

theorem ScaffoldEntry.wellFormed {e : ScaffoldEntry} (h : (e.files.map Prod.fst).Nodup) :
    WellFormed spell (.obj e.items) :=
  ⟨e.keys, trivial, trivial, wellFormed_filesJson h, trivial⟩

theorem Manifest.wellFormed (h : ∀ e ∈ m.functions, (e.files.map Prod.fst).Nodup)
    (h' : ∀ e ∈ m.scaffoldFunctions, (e.files.map Prod.fst).Nodup) :
    WellFormed spell (.obj m.items) :=
  ⟨m.keys, trivial, trivial, wellFormedElems_map fun _ _ => trivial, trivial, trivial, trivial,
    wellFormedElems_map fun e he => Entry.wellFormed (h e he), trivial,
    wellFormedElems_map fun e he => ScaffoldEntry.wellFormed (h' e he), trivial⟩

/-! ## Its entries -/

/-- The entry of a function with these files. -/
def Describes (entry : Json) (x : String × List (String × Json)) : Prop :=
  ∃ kvs, entry = .obj kvs ∧ Json.get kvs "id" = .str x.1 ∧ Json.get kvs "files" = .obj x.2

/-- The files of an entry, in the order of their paths. -/
def sortedFiles (files : List (String × String)) : List (String × Json) :=
  (sortKeysItems (filesJson files)).insertionSort (·.1 ≤ ·.1)

theorem get_sortKeys {kvs : List (String × Json)} (h : (kvs.map Prod.fst).Nodup) {k : String}
    {v : Json} (hk : Json.lookup kvs k = some v) :
    Json.get ((sortKeysItems kvs).insertionSort (·.1 ≤ ·.1)) k = sortKeys v := by
  rw [Json.get, lookup_sortKeys h, hk]
  rfl

theorem Entry.describes (e : Entry) :
    Describes (sortKeys (.obj e.items)) (e.id, sortedFiles e.files) :=
  ⟨_, rfl, get_sortKeys (k := "id") (v := .str e.id) e.keys rfl,
    get_sortKeys (k := "files") (v := .obj (filesJson e.files)) e.keys rfl⟩

theorem ScaffoldEntry.describes (e : ScaffoldEntry) :
    Describes (sortKeys (.obj e.items)) (e.id, sortedFiles e.files) :=
  ⟨_, rfl, get_sortKeys (k := "id") (v := .str e.id) e.keys rfl,
    get_sortKeys (k := "files") (v := .obj (filesJson e.files)) e.keys rfl⟩

/-- Entries of different functions are all taken up. -/
theorem foldlM_addEntry {registryPath listKey : String} {entries : List Json}
    {functions : List (String × List (String × Json))}
    (h : List.Forall₂ Describes entries functions) (hnamed : ∀ x ∈ functions, x.1 ≠ "")
    {filesByFunction : List (Json × List (String × Json))}
    (hdistinct : (filesByFunction.map Prod.fst ++ functions.map fun x => Json.str x.1).Nodup) :
    entries.foldlM (addEntry registryPath listKey) filesByFunction =
      .ok (filesByFunction ++ functions.map fun x => (.str x.1, x.2)) := by
  induction h generalizing filesByFunction with
  | nil => rw [List.map_nil, List.append_nil]; rfl
  | @cons entry x entries functions hx h ih =>
    obtain ⟨hname, hnamed⟩ := List.forall_mem_cons.1 hnamed
    obtain ⟨kvs, rfl, hid, hfiles⟩ := hx
    have htruthy : Json.truthy (.str x.1) = true := by
      rw [Json.truthy, bne_iff_ne]
      exact hname
    have hnew : (filesByFunction.any fun other => other.1 = .str x.1) = false := by
      rw [List.any_eq_false]
      intro other hother heq
      refine (List.nodup_append.1 hdistinct).2.2 _ (List.mem_map_of_mem hother) _
        List.mem_cons_self ?_
      simpa using heq
    have hadd : addEntry registryPath listKey filesByFunction (.obj kvs) =
        .ok (filesByFunction ++ [(.str x.1, x.2)]) := by
      unfold addEntry
      dsimp only
      rw [hid, hfiles, htruthy, hnew]
      rfl
    rw [List.foldlM_cons, hadd]
    show entries.foldlM _ (filesByFunction ++ [(Json.str x.1, x.2)]) = _
    rw [ih hnamed (by
      rw [List.map_append, List.append_assoc]
      exact hdistinct), List.append_assoc]
    rfl

/-! ## The covered children -/

/-- A child whose prompt a manifest vouches for. -/
def Registered (p : Child) : Prop :=
  isFunctionPackage p = true ∨
    p.isDir = true ∧ ¬"_".toList <+: p.name.toList ∧ p.isFileAt "prompt.md" = true

/-- What a manifest has an entry for. -/
def covered (C : Checkout) : List Child :=
  discoverFunctionPackages C ++
    discoverScaffoldPackages C ((discoverFunctionPackages C).map Child.name)

theorem mem_discoverFunctionPackages :
    p ∈ discoverFunctionPackages C ↔ p ∈ C.children ∧ isFunctionPackage p = true := by
  rw [discoverFunctionPackages, mem_sortBy, List.mem_filter]

theorem mem_discoverScaffoldPackages {ids : List String} : p ∈ discoverScaffoldPackages C ids ↔
    p ∈ C.children ∧ (p.isDir = true ∧ p.name ∉ ids ∧ ¬"_".toList <+: p.name.toList) ∧
      p.isFileAt "prompt.md" = true := by
  rw [discoverScaffoldPackages, List.mem_filter, mem_sortBy, Bool.and_eq_true, Bool.not_eq_true',
    Bool.or_eq_false_iff, Bool.or_eq_false_iff, Bool.not_eq_false', List.contains_eq_mem,
    decide_eq_false_iff_not, ← Bool.not_eq_true, List.isPrefixOf_iff_prefix,
    @and_assoc (p.isDir = true)]

theorem mem_covered : p ∈ covered C ↔ p ∈ C.children ∧ Registered p := by
  have hname : p ∈ C.children → (p.name ∈ (discoverFunctionPackages C).map Child.name ↔
      isFunctionPackage p = true) := by
    intro hp
    rw [List.mem_map]
    constructor
    · rintro ⟨q, hq, heq⟩
      obtain ⟨hq, hpackage⟩ := mem_discoverFunctionPackages.1 hq
      rwa [← List.inj_on_of_nodup_map C.distinct hq hp heq]
    · exact fun hpackage => ⟨p, mem_discoverFunctionPackages.2 ⟨hp, hpackage⟩, rfl⟩
  rw [covered, List.mem_append, mem_discoverFunctionPackages, mem_discoverScaffoldPackages,
    ← and_or_left]
  refine and_congr_right fun hp => ?_
  rw [hname hp, Registered]
  by_cases hpackage : isFunctionPackage p = true
  · exact iff_of_true (.inl hpackage) (.inl hpackage)
  · simp [hpackage, and_assoc]

theorem names_covered : ((covered C).map Child.name).Nodup := by
  have hsort : ((sortBy Child.name C.children).map Child.name).Nodup :=
    (perm_sortBy.map _).nodup_iff.2 C.distinct
  rw [covered, List.map_append, List.nodup_append]
  refine ⟨?_, hsort.sublist (List.filter_sublist.map _), ?_⟩
  · rw [discoverFunctionPackages, (perm_sortBy.map _).nodup_iff]
    exact C.distinct.sublist (List.filter_sublist.map _)
  · rintro id hid _ hid' rfl
    obtain ⟨q, hq, rfl⟩ := List.mem_map.1 hid'
    exact (mem_discoverScaffoldPackages.1 hq).2.1.2.1 hid

theorem keys_iterPackageFiles : ((iterPackageFiles C p).map Prod.fst).Nodup := by
  rw [iterPackageFiles, (perm_sortBy.map _).nodup_iff]
  refine p.distinct.sublist ?_
  induction p.found with
  | nil => exact List.Sublist.refl _
  | cons entry l ih =>
    obtain ⟨rel, content⟩ := entry
    rw [List.filterMap_cons]
    dsimp only
    cases content with
    | none =>
      rw [Option.map_none, ite_self]
      exact ih.cons _
    | some data =>
      split
      · next hnone => exact ih.cons _
      · next file hsome =>
        split at hsome
        · obtain rfl := Option.some.inj hsome
          exact ih.cons_cons _
        · cases hsome

theorem keys_fileHashes : ((fileHashes T C p).map Prod.fst).Nodup := by
  rw [fileHashes, List.map_map]
  exact keys_iterPackageFiles

theorem lookup_sortedFiles {rel d : String} :
    Json.lookup (sortedFiles (fileHashes T C p)) rel = some (.str d) ↔
      ∃ data, kept (p.dir C) rel = true ∧ (rel, some data) ∈ p.found ∧ digest T data = d := by
  have hkeys : ((filesJson (fileHashes T C p)).map Prod.fst).Nodup := by
    rw [filesJson, List.map_map]
    exact keys_fileHashes
  rw [sortedFiles, lookup_sortKeys hkeys, Option.map_eq_some_iff]
  simp only [lookup_eq_some_iff hkeys]
  simp only [filesJson, fileHashes, List.map_map, List.mem_map]
  constructor
  · rintro ⟨v, ⟨file, hfile, heq⟩, hv⟩
    obtain ⟨rfl, rfl⟩ := Prod.mk.inj heq
    obtain ⟨hkept, hin⟩ := mem_iterPackageFiles.1 hfile
    exact ⟨file.2, hkept, hin, Json.str.inj hv⟩
  · rintro ⟨data, hkept, hin, rfl⟩
    exact ⟨_, ⟨(rel, data), mem_iterPackageFiles.2 ⟨hkept, hin⟩, rfl⟩, rfl⟩

/-- The functions of a built manifest, with their files. -/
theorem functions_eq (h : buildManifest T tag C = .ok m) :
    (m.functions.map fun e => (e.id, sortedFiles e.files)) ++
        (m.scaffoldFunctions.map fun e => (e.id, sortedFiles e.files)) =
      (covered C).map fun p => (p.name, sortedFiles (fileHashes T C p)) := by
  obtain ⟨hall, -, hscaffolds, -⟩ := buildManifest_ok h
  have hpackages : (discoverFunctionPackages C).map (fun p =>
      (p.name, sortedFiles (fileHashes T C p))) =
      m.functions.map fun e => (e.id, sortedFiles e.files) := by
    refine map_eq_of_forall₂ (fun p e he => ?_) hall
    obtain ⟨hid, -, hfiles⟩ := entryOf_ok he
    rw [hid, hfiles]
  rw [covered, List.map_append, hpackages, hscaffolds, List.map_map]
  rfl

theorem wellFormed_of_build (h : buildManifest T tag C = .ok m) :
    WellFormed spell (.obj m.items) := by
  obtain ⟨hall, -, hscaffolds, -⟩ := buildManifest_ok h
  have hfiles : (discoverFunctionPackages C).map (fileHashes T C) = m.functions.map Entry.files :=
    map_eq_of_forall₂ (fun p e he => (entryOf_ok he).2.2.symm) hall
  refine Manifest.wellFormed (fun e he => ?_) fun e he => ?_
  · have hmem := List.mem_map_of_mem (f := Entry.files) he
    rw [← hfiles] at hmem
    obtain ⟨p, -, hp⟩ := List.mem_map.1 hmem
    rw [← hp]
    exact keys_fileHashes
  · rw [hscaffolds] at he
    obtain ⟨p, -, rfl⟩ := List.mem_map.1 he
    exact keys_fileHashes

theorem listed_sortKeys {kvs : List (String × Json)} (hkvs : (kvs.map Prod.fst).Nodup)
    {listKey : String} {α : Type} {l : List α} {f : α → Json}
    (h : Json.lookup kvs listKey = some (.arr (l.map f))) :
    listed ((sortKeysItems kvs).insertionSort (·.1 ≤ ·.1)) listKey =
      .ok (l.map fun a => sortKeys (f a)) := by
  unfold listed
  rw [lookup_sortKeys hkvs, h, Option.map_some, Option.getD_some, sortKeys, sortKeysList_map]
  rfl

theorem forall₂_map {α : Type} {l : List α} {f : α → Json} {g : α → String × List (String × Json)}
    (h : ∀ a, Describes (f a) (g a)) : List.Forall₂ Describes (l.map f) (l.map g) := by
  induction l with
  | nil => exact .nil
  | cons a l ih => exact .cons (h a) ih

/-- What the orchestrator has of the checkout that a manifest was built from. -/
theorem readManifest_build {registryPath : String} (h : buildManifest T tag C = .ok m) :
    readManifest registryPath (sortKeys (.obj m.items)) = .ok
      { tag
        filesByFunction := (covered C).map fun p =>
          (.str p.name, sortedFiles (fileHashes T C p)) } := by
  have hfunctions := functions_eq h
  have htag : m.tag = tag := (buildManifest_ok h).2.2.2
  have hnamed : ∀ x ∈ (covered C).map (fun p => (p.name, sortedFiles (fileHashes T C p))),
      x.1 ≠ "" := by
    intro x hx
    obtain ⟨p, -, rfl⟩ := List.mem_map.1 hx
    exact p.named
  have hkeys : ((covered C).map fun p => Json.str p.name).Nodup := by
    have hinj := (names_covered (C := C)).map (f := Json.str) fun _ _ => Json.str.inj
    rwa [List.map_map] at hinj
  have hsplit : ((m.functions.map fun e => (e.id, sortedFiles e.files)) ++
      m.scaffoldFunctions.map fun e => (e.id, sortedFiles e.files)).map (fun x => Json.str x.1) =
        (covered C).map fun p => Json.str p.name := by
    rw [hfunctions, List.map_map]
    rfl
  rw [← hsplit, List.map_append] at hkeys
  rw [← hfunctions, List.forall_mem_append] at hnamed
  have hfirst : (m.functions.map fun e => sortKeys (.obj e.items)).foldlM
      (addEntry registryPath "functions") [] = .ok ([] ++
        (m.functions.map fun e => (e.id, sortedFiles e.files)).map fun x => (.str x.1, x.2)) :=
    foldlM_addEntry (forall₂_map Entry.describes) hnamed.1 (List.nodup_append.1 hkeys).1
  have hsecond : (m.scaffoldFunctions.map fun e => sortKeys (.obj e.items)).foldlM
      (addEntry registryPath "scaffold_functions") ([] ++
        (m.functions.map fun e => (e.id, sortedFiles e.files)).map fun x => (.str x.1, x.2)) =
      .ok (([] ++
        (m.functions.map fun e => (e.id, sortedFiles e.files)).map fun x => (.str x.1, x.2)) ++
        (m.scaffoldFunctions.map fun e => (e.id, sortedFiles e.files)).map fun x =>
          (.str x.1, x.2)) := by
    refine foldlM_addEntry (forall₂_map ScaffoldEntry.describes) hnamed.2 ?_
    rw [List.nil_append, List.map_map]
    exact hkeys
  rw [sortKeys, readManifest, listed_sortKeys (l := m.functions) m.keys rfl,
    listed_sortKeys (l := m.scaffoldFunctions) m.keys rfl, lookup_sortKeys m.keys]
  dsimp only [bind, Except.bind]
  rw [hfirst]
  dsimp only
  rw [hsecond]
  have hlookup : Json.lookup m.items "tag" = some (.str tag) := by
    rw [← htag]
    rfl
  rw [hlookup, List.nil_append, ← List.map_append, hfunctions, List.map_map]
  rfl

/-! ## What was signed is loaded -/

/-- The process is to verify what the build has signed. -/
structure Deployed (S : Stage) (sign : Bytes → Bytes) (m : Manifest) : Prop where
  artefact : S.artefact = writeArtefact m (some sign)
  tooling : ∃ u, S.tooling = .ok u
  /-- The key that is resolved is the other half of the one that signed. -/
  key : ∃ path verify, resolveKeyPath S.host publicKeyEnv S.devPublicKeyPath = .ok path ∧
    S.publicKey path = some verify ∧ ∀ payload, verify (sign payload) payload = true

variable {S : Stage} {sign : Bytes → Bytes}

theorem loadVerifiedManifest_build (h : buildManifest T tag C = .ok m) (hS : Deployed S sign m) :
    loadVerifiedManifest S = .ok
      { tag
        filesByFunction := (covered C).map fun p =>
          (.str p.name, sortedFiles (fileHashes T C p)) } := by
  obtain ⟨path, verify, hpath, hkey, hverify⟩ := hS.key
  obtain ⟨u, htooling⟩ := hS.tooling
  unfold loadVerifiedManifest
  rw [hS.artefact, htooling]
  dsimp only [writeArtefact, Option.map_some]
  rw [decode_signature]
  dsimp only
  rw [hpath]
  dsimp only
  rw [hkey, verifyBytes_signBytes hverify]
  dsimp only
  rw [fromUTF8?_encode, Option.bind_some, canonicalJson, loads_dumpsPretty (wellFormed_of_build h)]
  exact readManifest_build h

/-- The functions of a checkout, as they are loaded. -/
def loadedFunctions (T : Tools) (C : Checkout) : List (Json × List (String × Json)) :=
  (covered C).map fun p => (.str p.name, sortedFiles (fileHashes T C p))

theorem find?_loadedFunctions {functionId : String} {entry : Json × List (String × Json)} :
    (loadedFunctions T C).find? (fun entry => entry.1 = .str functionId) = some entry ↔
      ∃ p ∈ C.children, Registered p ∧ p.name = functionId ∧
        entry = (.str p.name, sortedFiles (fileHashes T C p)) := by
  have hone : ∀ {other}, (loadedFunctions T C).find? (fun entry => entry.1 = .str functionId) =
      some other → ∃ p ∈ covered C, p.name = functionId ∧
        other = (.str p.name, sortedFiles (fileHashes T C p)) := by
    intro other hother
    obtain ⟨p, hp, rfl⟩ := List.mem_map.1 (List.mem_of_find?_eq_some hother)
    have hname := List.find?_some hother
    exact ⟨p, hp, Json.str.inj (of_decide_eq_true hname), rfl⟩
  constructor
  · intro h
    obtain ⟨p, hp, hname, rfl⟩ := hone h
    obtain ⟨hp, hregistered⟩ := mem_covered.1 hp
    exact ⟨p, hp, hregistered, hname, rfl⟩
  · rintro ⟨p, hp, hregistered, hname, rfl⟩
    have hp := mem_covered.2 ⟨hp, hregistered⟩
    have hsome : ((loadedFunctions T C).find? fun entry => entry.1 = .str functionId).isSome := by
      rw [List.find?_isSome]
      exact ⟨_, List.mem_map.2 ⟨p, hp, rfl⟩, decide_eq_true (congrArg Json.str hname)⟩
    obtain ⟨other, hother⟩ := Option.isSome_iff_exists.1 hsome
    obtain ⟨q, hq, hqname, rfl⟩ := hone hother
    rw [hother, List.inj_on_of_nodup_map names_covered hq hp (hqname.trans hname.symm)]

theorem hasFunction_iff {v : LoadedManifest} (hv : v.filesByFunction = loadedFunctions T C)
    {functionId : String} : v.verified.hasFunction functionId = true ↔
      ∃ p ∈ C.children, Registered p ∧ p.name = functionId := by
  unfold VerifiedManifest.hasFunction LoadedManifest.verified
  rw [Option.isSome_map, hv, Option.isSome_iff_exists]
  simp only [find?_loadedFunctions]
  constructor
  · rintro ⟨entry, p, hp, hregistered, hname, -⟩
    exact ⟨p, hp, hregistered, hname⟩
  · rintro ⟨p, hp, hregistered, hname⟩
    exact ⟨_, p, hp, hregistered, hname, rfl⟩

theorem digestOf_eq_some_iff {x : Option Json} {d : String} :
    digestOf x = some d ↔ x = some (.str d) := by
  unfold digestOf
  split
  · rw [Option.some_inj, Option.some_inj, Json.str.injEq]
  · next hother => exact iff_of_false (Option.some_ne_none d).symm (hother d)

theorem fileSha256_iff {v : LoadedManifest} (hv : v.filesByFunction = loadedFunctions T C)
    {functionId rel d : String} : v.verified.fileSha256 functionId rel = some d ↔
      ∃ p ∈ C.children, Registered p ∧ p.name = functionId ∧
        ∃ data, kept (p.dir C) rel = true ∧ (rel, some data) ∈ p.found ∧ digest T data = d := by
  unfold VerifiedManifest.fileSha256 LoadedManifest.verified
  rw [hv, Option.bind_eq_some_iff]
  simp only [Option.map_eq_some_iff, find?_loadedFunctions]
  constructor
  · rintro ⟨_, ⟨entry, ⟨p, hp, hregistered, hname, rfl⟩, rfl⟩, hd⟩
    exact ⟨p, hp, hregistered, hname, lookup_sortedFiles.1 (digestOf_eq_some_iff.1 hd)⟩
  · rintro ⟨p, hp, hregistered, hname, hd⟩
    exact ⟨_, ⟨_, ⟨p, hp, hregistered, hname, rfl⟩, rfl⟩,
      digestOf_eq_some_iff.2 (lookup_sortedFiles.2 hd)⟩

/-- What was built and signed is loaded: the functions are the children that are registered, and the
    hash of a file is the one of the file that was there. -/
theorem load_writeArtefact (h : buildManifest T tag C = .ok m) (hS : Deployed S sign m) :
    ∃ v, loadVerifiedManifest S = .ok v ∧ v.tag = tag ∧
      (∀ functionId, v.verified.hasFunction functionId = true ↔
        ∃ p ∈ C.children, Registered p ∧ p.name = functionId) ∧
      ∀ functionId rel d, v.verified.fileSha256 functionId rel = some d ↔
        ∃ p ∈ C.children, Registered p ∧ p.name = functionId ∧
          ∃ data, kept (p.dir C) rel = true ∧ (rel, some data) ∈ p.found ∧ digest T data = d :=
  ⟨_, loadVerifiedManifest_build h hS, rfl, fun _ => hasFunction_iff rfl,
    fun _ _ _ => fileSha256_iff rfl⟩

/-! ### One deployment -/

/-- The signature, by the committed development key, of the manifest of the runner's checkout. -/
def devSignature : Bytes :=
  [169, 2, 186, 51, 192, 161, 5, 4, 235, 117, 190, 8, 28, 142, 8, 167, 18, 134, 55, 61, 154, 68, 80,
    35, 31, 213, 164, 244, 193, 58, 81, 231, 23, 154, 114, 186, 217, 60, 36, 215, 242, 194, 21, 44,
    71, 77, 69, 129, 180, 82, 30, 207, 100, 183, 34, 40, 95, 37, 133, 176, 175, 230, 21, 3]

/-- A process without a configured key. -/
def devStage (artefact : Artefact) : Stage where
  registryPath := "/app/registry/registry.json"
  signaturePath := "/app/registry/registry.json.sig"
  manifestDir := "/app/registry"
  artefact
  tooling := .ok ()
  host :=
    { environ := fun _ => ""
      expanduser := id
      isFile := fun _ => true
      relOrStr := id }
  devPublicKeyPath := "/app/services/registry/keys/dev-signing-key.pub"
  publicKey _ := some fun signature _ => signature = devSignature
  readError _ := ""
  spell := String.ofList

theorem deployed_devStage :
    Deployed (devStage (writeArtefact m (some fun _ => devSignature))) (fun _ => devSignature) m :=
  ⟨rfl, ⟨(), rfl⟩, _, _, rfl, rfl, fun _ => decide_eq_true rfl⟩

theorem postWriter_registered : postWriter ∈ linux.children ∧ Registered postWriter ∧
    ("prompt.md", some (encode "Be brief.\n")) ∈ postWriter.found ∧
    kept (postWriter.dir linux) "prompt.md" = true ∧ digest briefTools (encode "Be brief.\n") =
      "96fb1c7f068c5ce63e2b45fc4aea602d48d5302be6ca033f3e1f0c7148558a49" :=
  ⟨List.mem_cons_self, .inl (by decide +kernel), List.mem_cons_self, by decide +kernel,
    by decide +kernel⟩

/-- The prompt of the one package has its hash. -/
theorem postWriter_loads : ∃ m v, buildManifest briefTools defaultTag linux = .ok m ∧
    loadVerifiedManifest (devStage (writeArtefact m (some fun _ => devSignature))) = .ok v ∧
    v.verified.fileSha256 "42-linkedin-post-writer" "prompt.md" =
      some "96fb1c7f068c5ce63e2b45fc4aea602d48d5302be6ca033f3e1f0c7148558a49" := by
  obtain ⟨m, hm⟩ : ∃ m, buildManifest briefTools defaultTag linux = .ok m :=
    builds_of_isOk (by decide +kernel)
  obtain ⟨v, hv, -, -, hfiles⟩ := load_writeArtefact hm deployed_devStage
  obtain ⟨hchild, hregistered, hprompt, hkept, hdigest⟩ := postWriter_registered
  exact ⟨m, v, hm, hv, (hfiles _ _ _).2
    ⟨postWriter, hchild, hregistered, rfl, _, hkept, hprompt, hdigest⟩⟩

/-! ## The prompts that are run -/

/-- A process that resolves prompts with a manifest that was built, signed and loaded: whatever
    happens to the file meanwhile, what was hashed is the prompt of a function the manifest was
    built from, or has its hash. If it is that prompt and is also what was read, that prompt is
    run. -/
theorem resolved_prompt_was_built {v : LoadedManifest} {D : Deployment} {functionId text : String}
    (h : buildManifest T tag C = .ok m) (hS : Deployed S sign m)
    (hv : loadVerifiedManifest S = .ok v) (hD : D.manifest = .ok v.verified)
    (hsha : D.sha256 = T.sha256) {file : Option Bytes}
    {acts : List (Act Look Look.Res Failure Nat Unit (Option Bytes))} {i : Nat}
    (hresult : (acts.foldl (promptSystem D functionId).exec (.idle file)).result i =
      some ((), .ok text)) :
    ∃ p ∈ C.children, Registered p ∧ p.name = functionId ∧
      ∃ built, ("prompt.md", some built) ∈ p.found ∧
        ∃ first second, (promptSystem D functionId).replies i (.idle file) acts =
            [⟨.isFile, .ok true⟩, ⟨.readBytes, .ok first⟩, ⟨.readText, .ok second⟩] ∧
          (normaliseTextBytes first = normaliseTextBytes built ∧
              (normaliseTextBytes second = normaliseTextBytes first → decode built = some text) ∨
            normaliseTextBytes first ≠ normaliseTextBytes built ∧
              digest T first = digest T built) := by
  obtain ⟨manifest, expected, first, second, hmanifest, hexpected, hreplies, hhash, hdecode⟩ :=
    ran_resolvePrompt (Sys.ran_of_result hresult)
  obtain rfl := Except.ok.inj (hmanifest.symm.trans hD)
  rw [loadVerifiedManifest_build h hS] at hv
  obtain rfl := Except.ok.inj hv
  obtain ⟨p, hp, hregistered, hname, built, -, hbuilt, hdigest⟩ := (fileSha256_iff rfl).1 hexpected
  refine ⟨p, hp, hregistered, hname, built, hbuilt, first, second, hreplies, ?_⟩
  by_cases hsame : normaliseTextBytes first = normaliseTextBytes built
  · refine .inl ⟨hsame, fun hsecond => ?_⟩
    rw [← decode_congr (hsecond.trans hsame), hdecode]
  · refine .inr ⟨hsame, ?_⟩
    rw [hdigest, ← hhash, digest, hsha]

/-- An orchestrator that has loaded the manifest of the runner's checkout. -/
def linuxDeployment : Deployment where
  manifest := .ok (LoadedManifest.verified ⟨defaultTag, loadedFunctions briefTools linux⟩)
  tooling := .ok ()
  functionsDir := "/app/functions"
  sha256 := briefTools.sha256

/-- The orchestrator's copy has CRLF; its text is the one that was built from. -/
theorem postWriter_runs :
    ((replacing (encode "Be brief.\r\n")).foldl
      (promptSystem linuxDeployment "42-linkedin-post-writer").exec
        (.idle (some (encode "Be brief.\r\n")))).result 0 = some ((), .ok "Be brief.\n") ∧
    ∃ p ∈ linux.children, Registered p ∧ p.name = "42-linkedin-post-writer" ∧
      ∃ built, ("prompt.md", some built) ∈ p.found := by
  obtain ⟨m, hm⟩ : ∃ m, buildManifest briefTools defaultTag linux = .ok m :=
    builds_of_isOk (by decide +kernel)
  obtain ⟨hchild, hregistered, hprompt, hkept, hdigest⟩ := postWriter_registered
  have hexpected := (fileSha256_iff (v := ⟨defaultTag, loadedFunctions briefTools linux⟩) rfl).2
    ⟨postWriter, hchild, hregistered, rfl, _, hkept, hprompt, hdigest⟩
  have hdecode : decode (encode "Be brief.\r\n") = some "Be brief.\n" := by
    rw [decode_encode]
    decide +kernel
  have hhash : linuxDeployment.sha256 (normaliseTextBytes (encode "Be brief.\r\n")) =
      "96fb1c7f068c5ce63e2b45fc4aea602d48d5302be6ca033f3e1f0c7148558a49" := by decide +kernel
  have hreturns := replacing_returns (D := linuxDeployment) rfl rfl hexpected hhash hdecode
  obtain ⟨p, hp, hregistered', hname, built, hbuilt, -⟩ := resolved_prompt_was_built hm
    deployed_devStage (loadVerifiedManifest_build hm deployed_devStage) rfl rfl hreturns
  exact ⟨hreturns, p, hp, hregistered', hname, built, hbuilt⟩

end CanvasOS.Registry
