/-
  The function registry, as it is built from a checkout (`build_registry.build_manifest`).

  1. `Checkout` — what the file system shows of `functions/`, in whatever order it lists it.
  2. `common.py` — which files and which directories count.
  3. `buildManifest` — what is hashed of them, and what is written down.
-/
import CanvasOS.Lib.SortBy
import CanvasOS.Orchestrator.Prompt
import Mathlib.Data.String.Basic

namespace CanvasOS.Registry

open Python Listing
open Orchestrator.Manifest (Bytes normaliseTextBytes encode decode)

/-! ## A checkout -/

/-- A child of `functions/`, with what `rglob("*")` finds in it under their posix paths relative to
    it; a directory has no bytes. -/
structure Child where
  name : String
  isDir : Bool
  found : List (String × Option Bytes)
  named : name ≠ ""
  distinct : (found.map Prod.fst).Nodup

structure Checkout where
  /-- `REPO_ROOT`, in parts -/
  repoRoot : List String
  /-- `functions_dir`, resolved, in parts -/
  functionsDir : List String
  /-- `functions_dir.iterdir()` -/
  children : List Child
  distinct : (children.map Child.name).Nodup

/-- What the build uses that is not its own. -/
structure Tools where
  /-- `hashlib.sha256(data).hexdigest()` -/
  sha256 : Bytes → String
  /-- `yaml.safe_load(text)`, or the text of its `YAMLError` -/
  safeLoad : String → Except String Json

/-- How a build ends without a manifest. -/
inductive Stop where
  /-- `fail(message)` -/
  | fail (message : String)
  | unicodeDecodeError
  | attributeError
  | typeError
  | osError
deriving DecidableEq

/-! ## `common.py` -/

/-- `PurePosixPath(rel).parts` -/
def parts (rel : String) : List String :=
  (rel.toList.splitOnP (· == '/')).map String.ofList

/-- `Path(*parts).as_posix()` of a relative path -/
def asPosix (names : List String) : String :=
  if names.filter (· ≠ "") = [] then "." else join "/" (names.filter (· ≠ ""))

/-- `rel_posix` -/
def relPosix (path root : List String) : String :=
  if root <+: path then asPosix (path.drop root.length)
  else asPosix [path.dropLast.getLast?.getD "", path.getLast?.getD ""]

def skipDirs : List String := ["__pycache__", ".pytest_cache", ".ruff_cache"]

/-- `candidate.suffix in {".pyc", ".pyo"}` -/
def compiled (rel : String) : Bool :=
  let name := ((parts rel).getLast?.getD "").toList
  4 < name.length && (".pyc".toList.isSuffixOf name || ".pyo".toList.isSuffixOf name)

/-- A candidate of `iter_package_files` that is not left out, below the directory `above`. -/
def kept (above : List String) (rel : String) : Bool :=
  !(above ++ parts rel).any (· ∈ skipDirs) && !compiled rel

def Child.dir (C : Checkout) (p : Child) : List String := C.functionsDir ++ [p.name]

/-- `iter_package_files`, with the bytes of each -/
def iterPackageFiles (C : Checkout) (p : Child) : List (String × Bytes) :=
  sortBy Prod.fst (p.found.filterMap fun entry =>
    if kept (p.dir C) entry.1 then entry.2.map fun data => (entry.1, data) else none)

theorem mem_iterPackageFiles {C : Checkout} {p : Child} {rel : String} {data : Bytes} :
    (rel, data) ∈ iterPackageFiles C p ↔
      kept (p.dir C) rel = true ∧ (rel, some data) ∈ p.found := by
  unfold iterPackageFiles
  rw [mem_sortBy, List.mem_filterMap]
  constructor
  · rintro ⟨entry, hentry, hfile⟩
    split at hfile
    · next hkept =>
      obtain ⟨data', hdata, heq⟩ := Option.map_eq_some_iff.1 hfile
      obtain ⟨rfl, rfl⟩ := Prod.mk.inj heq
      refine ⟨hkept, ?_⟩
      rw [← hdata]
      exact hentry
    · cases hfile
  · rintro ⟨hkept, hin⟩
    exact ⟨_, hin, by rw [if_pos hkept]; rfl⟩

/-- `(path / name).is_file()` -/
def Child.isFileAt (p : Child) (rel : String) : Bool :=
  p.found.any fun entry => entry.1 == rel && entry.2.isSome

/-- `(path / name).is_dir()` -/
def Child.isDirAt (p : Child) (rel : String) : Bool :=
  p.found.any fun entry => entry.1 == rel && entry.2.isNone

def requiredPackageFiles : List String := ["prompt.md", "skill.md", "tools.yaml", "schema.json"]

def requiredPackageDirs : List String := ["evals"]

/-- `is_function_package` -/
def isFunctionPackage (p : Child) : Bool :=
  p.isDir && requiredPackageFiles.all p.isFileAt && requiredPackageDirs.all p.isDirAt

/-- `discover_function_packages` -/
def discoverFunctionPackages (C : Checkout) : List Child :=
  sortBy Child.name (C.children.filter isFunctionPackage)

/-- What `glob("*.json")` finds in `evals` -/
def isEvalTask (rel : String) : Bool :=
  match parts rel with
  | [dir, name] => dir == "evals" && ".json".toList.isSuffixOf name.toList
  | _ => false

/-- `eval_task_files` -/
def evalTaskFiles (p : Child) : List String :=
  if p.isDirAt "evals" then sortBy id ((p.found.map Prod.fst).filter isEvalTask) else []

/-- `read_bytes` -/
def Child.readBytes (p : Child) (rel : String) : Except Stop Bytes :=
  match p.found.findSome? fun entry => if entry.1 = rel then entry.2 else none with
  | some data => .ok data
  | none => .error .osError

/-- `load_yaml`, of a file of a package -/
def loadYaml (T : Tools) (C : Checkout) (p : Child) (rel : String) : Except Stop Json := do
  let data ← p.readBytes rel
  match decode data with
  | none => .error .unicodeDecodeError
  | some text =>
    match T.safeLoad text with
    | .ok document => .ok document
    | .error exc => .error (.fail (
        relPosix (p.dir C ++ [rel]) C.repoRoot ++ ": invalid YAML (" ++ exc ++ ")"))

/-! ## `build_registry.py` -/

def registrySchemaVersion : Int := 2

def defaultTag : String := "v1.0.0"

def knownTags : List String := [defaultTag, "latest"]

/-- `sha256_bytes(normalise_text_bytes(file_path))` -/
def digest (T : Tools) (data : Bytes) : String := T.sha256 (normaliseTextBytes data)

/-- `compute_content_sha256` -/
def computeContentSha256 (T : Tools) (C : Checkout) (p : Child) : String × Nat :=
  let files := iterPackageFiles C p
  let lines := files.map fun file => digest T file.2 ++ "  " ++ file.1
  (T.sha256 (encode (join "\n" lines)), files.length)

/-- `file_hashes`: its keys are the paths of different files. -/
def fileHashes (T : Tools) (C : Checkout) (p : Child) : List (String × String) :=
  (iterPackageFiles C p).map fun file => (file.1, digest T file.2)

/-- What a `for` goes through. -/
def iterated : Json → Except Stop (List Json)
  | .arr xs => .ok xs
  | .obj kvs => .ok (kvs.map fun kv => .str kv.1)
  | .str s => .ok (s.toList.map fun c => .str (String.singleton c))
  | _ => .error .typeError

/-- `str(tool.get("name"))`, for a tool that has one -/
def toolName : Json → Except Stop (Option String)
  | .obj kvs =>
    .ok (if Json.truthy (Json.get kvs "name") then some (pyStr (Json.get kvs "name")) else none)
  | _ => .error .attributeError

/-- The `tools` of a document, `or {}` -/
def toolsOf (document : Json) : Except Stop (List Json) :=
  match if Json.truthy document then document else .obj [] with
  | .obj kvs => iterated ((Json.lookup kvs "tools").getD (.arr []))
  | _ => .error .attributeError

/-- `tool_names` -/
def toolNames (T : Tools) (C : Checkout) (p : Child) : Except Stop (List String) := do
  let document ← loadYaml T C p "tools.yaml"
  let tools ← toolsOf document
  let names ← tools.mapM toolName
  .ok (sortBy id names.reduceOption)

/-- `discover_scaffold_packages` -/
def discoverScaffoldPackages (C : Checkout) (coveredIds : List String) : List Child :=
  (sortBy Child.name C.children).filter fun child =>
    !(!child.isDir || coveredIds.contains child.name || "_".toList.isPrefixOf child.name.toList) &&
      child.isFileAt "prompt.md"

/-- An entry of `functions` -/
structure Entry where
  id : String
  path : String
  contentSha256 : String
  fileCount : Nat
  evalTaskCount : Nat
  tools : List String
  files : List (String × String)

/-- An entry of `scaffold_functions` -/
structure ScaffoldEntry where
  id : String
  path : String
  files : List (String × String)

/-- The manifest that `build_manifest` returns; what it says the same of every checkout is in
    `Manifest.json`. -/
structure Manifest where
  tag : String
  bundleSha256 : String
  functions : List Entry
  scaffoldFunctions : List ScaffoldEntry

def entryOf (T : Tools) (C : Checkout) (p : Child) : Except Stop Entry := do
  let content := computeContentSha256 T C p
  let evalTasks := evalTaskFiles p
  let tools ← toolNames T C p
  .ok
    { id := p.name
      path := relPosix (p.dir C) C.repoRoot
      contentSha256 := content.1
      fileCount := content.2
      evalTaskCount := evalTasks.length
      tools
      files := fileHashes T C p }

def scaffoldEntryOf (T : Tools) (C : Checkout) (p : Child) : ScaffoldEntry :=
  { id := p.name
    path := relPosix (p.dir C) C.repoRoot
    files := fileHashes T C p }

/-- `build_manifest` -/
def buildManifest (T : Tools) (tag : String) (C : Checkout) : Except Stop Manifest :=
  let packages := discoverFunctionPackages C
  let scaffoldDirs := discoverScaffoldPackages C (packages.map Child.name)
  if packages = [] ∧ scaffoldDirs = [] then
    .error (.fail ("no function-definition packages found under " ++
      relPosix C.functionsDir C.repoRoot))
  else do
    let entries ← packages.mapM (entryOf T C)
    let entries := sortBy Entry.id entries
    let bundleSha256 := T.sha256 (encode (join "\n" (entries.map fun entry =>
      entry.contentSha256 ++ "  " ++ entry.id)))
    let scaffoldEntries := sortBy ScaffoldEntry.id (scaffoldDirs.map (scaffoldEntryOf T C))
    .ok { tag, bundleSha256, functions := entries, scaffoldFunctions := scaffoldEntries }

/-! ### One checkout -/

/-- The hashes of what is hashed for the checkouts below. -/
def briefDigests : List (Bytes × String) :=
  [(encode "\x7b\x7d\n", "ca3d163bab055381827226140568f3bef7eaac187cebd76878e0b63e9e442356"),
    (encode "Be brief.\n", "96fb1c7f068c5ce63e2b45fc4aea602d48d5302be6ca033f3e1f0c7148558a49"),
    (encode "Short.\n", "05e7af01711bc1fd49c9bb2f92dd1b9550e7e2d3183701d0056dbf1955efee5e"),
    (encode "tools: []\n", "754ceaf6b2f6e081e4da466ec43ac164e57bd9690db6f9370824fde667e0e766"),
    (encode ("ca3d163bab055381827226140568f3bef7eaac187cebd76878e0b63e9e442356  evals/a.json\n" ++
      "96fb1c7f068c5ce63e2b45fc4aea602d48d5302be6ca033f3e1f0c7148558a49  prompt.md\n" ++
      "ca3d163bab055381827226140568f3bef7eaac187cebd76878e0b63e9e442356  schema.json\n" ++
      "05e7af01711bc1fd49c9bb2f92dd1b9550e7e2d3183701d0056dbf1955efee5e  skill.md\n" ++
      "754ceaf6b2f6e081e4da466ec43ac164e57bd9690db6f9370824fde667e0e766  tools.yaml"),
      "50643a4ed9f829c35a8d1544b35a126c4f04fef8364359667cc0c71347b5eb6f"),
    (encode ("50643a4ed9f829c35a8d1544b35a126c4f04fef8364359667cc0c71347b5eb6f  " ++
      "42-linkedin-post-writer"),
      "5aeb569e6bfae173dcb2acb01e898a26952609d51f7f6fc4a04f877322e5cec7")]

def briefTools : Tools where
  sha256 data := ((briefDigests.find? fun entry => entry.1 = data).map Prod.snd).getD
    "e3b0c44298fc1c149afbf4c8996fb92427ae41e4649b934ca495991b7852b855"
  safeLoad text :=
    if text = "tools: []\n" then .ok (.obj [("tools", .arr [])]) else .error "not a document"

def postWriter : Child where
  name := "42-linkedin-post-writer"
  isDir := true
  found :=
    [("prompt.md", some (encode "Be brief.\n")), ("skill.md", some (encode "Short.\n")),
      ("tools.yaml", some (encode "tools: []\n")), ("schema.json", some (encode "\x7b\x7d\n")),
      ("evals", none), ("evals/a.json", some (encode "\x7b\x7d\n"))]
  named := by decide
  distinct := by decide

/-- The same, checked out with CRLF, with a cache, and listed in another order. -/
def postWriterCrlf : Child where
  name := "42-linkedin-post-writer"
  isDir := true
  found :=
    [("evals", none), ("evals/a.json", some (encode "\x7b\x7d\r\n")),
      ("evals/__pycache__", none), ("evals/__pycache__/a.pyc", some [0, 1]),
      ("prompt.md", some (encode "Be brief.\r\n")), ("schema.json", some (encode "\x7b\x7d\r\n")),
      ("skill.md", some (encode "Short.\r\n")), ("tools.yaml", some (encode "tools: []\r\n"))]
  named := by decide
  distinct := by decide

/-- A package without the full shape. -/
def legalTriage : Child where
  name := "124-legal-triage"
  isDir := true
  found := [("prompt.md", some (encode "Be brief.\n"))]
  named := by decide
  distinct := by decide

/-- What an interpreter has left behind. -/
def pycache : Child where
  name := "__pycache__"
  isDir := true
  found := [("a.pyc", some [0, 1])]
  named := by decide
  distinct := by decide

def linux : Checkout where
  repoRoot := ["home", "runner", "work"]
  functionsDir := ["home", "runner", "work", "functions"]
  children := [postWriter, legalTriage]
  distinct := by decide

def windows : Checkout where
  repoRoot := ["C:", "src"]
  functionsDir := ["C:", "src", "functions"]
  children := [pycache, legalTriage, postWriterCrlf]
  distinct := by decide

example : (discoverFunctionPackages windows).map Child.name = ["42-linkedin-post-writer"] ∧
    (iterPackageFiles windows postWriterCrlf).map Prod.fst =
      ["evals/a.json", "prompt.md", "schema.json", "skill.md", "tools.yaml"] := by decide +kernel

end CanvasOS.Registry
