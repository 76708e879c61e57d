/-
  A manifest is a property of the commit, not of the checkout it is built from.

  1. `SameCommit` — two checkouts of one commit: the listings come in any order, text files have
     either line end, caches and compiled files lie about, and the repository may be anywhere.
  2. One lemma for each thing the build looks at: it finds the same in both.
  3. `buildManifest_congr` — the two have one manifest, or fail alike.
-/
import CanvasOS.Registry.Build

namespace CanvasOS.Registry

open Python Listing
open Orchestrator.Manifest (Bytes normaliseTextBytes encode decode decode_congr)

/-! ## One commit -/

/-- What the build looks at, wherever the checkout is. -/
def shown (entry : String × Option Bytes) : Bool :=
  kept [] entry.1 && (entry.2.isSome || entry.1 == "evals" || isEvalTask entry.1)

/-- What a commit has of a child: no caches and no compiled files, and its own line ends. -/
def Child.committed (p : Child) : List (String × Option Bytes) :=
  (p.found.filter shown).map fun entry => (entry.1, entry.2.map normaliseTextBytes)

def SameChild (p q : Child) : Prop :=
  p.name = q.name ∧ p.isDir = q.isDir ∧ p.committed.Perm q.committed

/-- The checkout is not below a directory whose files are skipped. -/
def Checkout.Clean (C : Checkout) : Prop := ∀ part ∈ C.functionsDir, part ∉ skipDirs

/-- Two checkouts of one commit, at places whose names are of no account. -/
structure SameCommit (C C' : Checkout) : Prop where
  /-- A child that the commit has nothing of may be there in one of the two only. -/
  children : ∃ l, l.Perm (C'.children.filter fun p => p.committed ≠ []) ∧
    List.Forall₂ SameChild (C.children.filter fun p => p.committed ≠ []) l
  place : ∃ below, C.functionsDir = C.repoRoot ++ below ∧ C'.functionsDir = C'.repoRoot ++ below
  clean : C.Clean
  clean' : C'.Clean

variable {T : Tools} {C C' : Checkout} {p q : Child} {rel tag : String} {data : Bytes}

theorem kept_dir (hC : C.Clean) :
    kept (p.dir C) rel = (decide (p.name ∉ skipDirs) && kept [] rel) := by
  have habove : C.functionsDir.any (· ∈ skipDirs) = false := by
    rw [List.any_eq_false]
    exact fun part hpart => by simpa using hC part hpart
  unfold kept Child.dir
  rw [List.any_append, List.any_append, habove, List.any_cons, List.any_nil, List.nil_append]
  by_cases hname : p.name ∈ skipDirs <;> simp [hname]

theorem keys_committed : (p.committed.map Prod.fst).Nodup := by
  have hkeys : p.committed.map Prod.fst = (p.found.filter shown).map Prod.fst := by
    rw [Child.committed, List.map_map]
    rfl
  rw [hkeys]
  exact p.distinct.sublist (List.filter_sublist.map _)

/-- The hashes of a child's files, of what the commit has of it. -/
def committedHashes (T : Tools) (p : Child) : List (String × String) :=
  p.committed.filterMap fun entry => entry.2.map fun data => (entry.1, T.sha256 data)

theorem keys_committedHashes : ((committedHashes T p).map Prod.fst).Nodup := by
  have hkeys := keys_committed (p := p)
  refine hkeys.sublist ?_
  unfold committedHashes
  induction p.committed with
  | nil => exact List.Sublist.refl _
  | cons entry l ih =>
    obtain ⟨rel, content⟩ := entry
    cases content with
    | none => exact ih.cons _
    | some data => exact ih.cons_cons _

/-- The files are hashed in the order of their paths, whatever order they were found in. -/
theorem fileHashes_eq (hC : C.Clean) : fileHashes T C p =
    if p.name ∈ skipDirs then [] else sortBy Prod.fst (committedHashes T p) := by
  have hkey : ∀ files : List (String × Bytes),
      (sortBy Prod.fst files).map (fun file => (file.1, digest T file.2)) =
        sortBy Prod.fst (files.map fun file => (file.1, digest T file.2)) :=
    fun _ => map_sortBy fun _ _ => rfl
  unfold fileHashes iterPackageFiles
  rw [hkey, List.map_filterMap]
  split
  · next hname =>
    rw [List.filterMap_eq_nil_iff.2]
    · rfl
    · intro entry _
      rw [kept_dir hC, decide_eq_false (not_not.2 hname)]
      rfl
  · next hname =>
    congr 1
    unfold committedHashes Child.committed
    rw [List.filterMap_map, List.filterMap_filter]
    refine List.filterMap_congr fun entry _ => ?_
    obtain ⟨rel, content⟩ := entry
    rw [kept_dir hC, decide_eq_true hname, Bool.true_and]
    cases content with
    | none => cases kept [] rel <;> cases shown (rel, none) <;> rfl
    | some data =>
      have hshown : shown (rel, some data) = kept [] rel := by
        rw [shown, Option.isSome_some, Bool.true_or, Bool.true_or, Bool.and_true]
      rw [hshown]
      cases kept [] rel <;> rfl

theorem isFileAt_eq (hrel : kept [] rel = true) :
    p.isFileAt rel = p.committed.any fun entry => entry.1 == rel && entry.2.isSome := by
  unfold Child.isFileAt Child.committed
  rw [List.any_map, List.any_filter]
  refine List.any_congr rfl fun entry => ?_
  obtain ⟨rel', content⟩ := entry
  by_cases heq : rel' = rel
  · subst heq
    cases content <;> simp [shown, hrel]
  · simp [heq]

theorem isDirAt_evals_eq :
    p.isDirAt "evals" = p.committed.any fun entry => entry.1 == "evals" && entry.2.isNone := by
  have hevals : kept [] "evals" = true := by decide +kernel
  unfold Child.isDirAt Child.committed
  rw [List.any_map, List.any_filter]
  refine List.any_congr rfl fun entry => ?_
  obtain ⟨rel', content⟩ := entry
  by_cases heq : rel' = "evals"
  · subst heq
    cases content <;> simp [shown, hevals]
  · simp [heq]

theorem SameChild.isFileAt (h : SameChild p q) (hrel : kept [] rel = true) :
    p.isFileAt rel = q.isFileAt rel := by
  rw [isFileAt_eq hrel, isFileAt_eq hrel, h.2.2.any_eq]

theorem SameChild.isDirAt_evals (h : SameChild p q) : p.isDirAt "evals" = q.isDirAt "evals" := by
  rw [isDirAt_evals_eq, isDirAt_evals_eq, h.2.2.any_eq]

theorem kept_required : ∀ name ∈ requiredPackageFiles, kept [] name = true := by decide +kernel

theorem SameChild.isFunctionPackage (h : SameChild p q) :
    isFunctionPackage p = isFunctionPackage q := by
  have hfiles : requiredPackageFiles.all p.isFileAt = requiredPackageFiles.all q.isFileAt := by
    rw [Bool.eq_iff_iff, List.all_eq_true, List.all_eq_true]
    refine forall₂_congr fun name hname => ?_
    rw [h.isFileAt (kept_required name hname)]
  have hdirs : requiredPackageDirs.all p.isDirAt = requiredPackageDirs.all q.isDirAt :=
    congrArg (· && true) h.isDirAt_evals
  rw [Registry.isFunctionPackage, Registry.isFunctionPackage, h.2.1, hfiles, hdirs]

/-- A task is no cache and no compiled file. -/
theorem kept_of_isEvalTask (h : isEvalTask rel = true) : kept [] rel = true := by
  unfold isEvalTask at h
  split at h
  · next dir name hparts =>
    rw [Bool.and_eq_true, beq_iff_eq] at h
    obtain ⟨rfl, hname⟩ := h
    have hsuffix : ".json".toList <:+ name.toList := List.isSuffixOf_iff_suffix.1 hname
    have hskip : ∀ skip ∈ skipDirs, ¬".json".toList <:+ skip.toList := by decide +kernel
    have hcompiled : ∀ ending ∈ [".pyc".toList, ".pyo".toList], ending.isSuffixOf name.toList =
        false := by
      intro ending hending
      have hshort : ∀ e ∈ [".pyc".toList, ".pyo".toList], e.length ≤ ".json".toList.length ∧
          ¬e <:+ ".json".toList := by decide +kernel
      obtain ⟨hlen, hnot⟩ := hshort ending hending
      rw [Bool.eq_false_iff, Ne, List.isSuffixOf_iff_suffix]
      exact fun hend => hnot (List.suffix_of_suffix_length_le hend hsuffix hlen)
    have hname' : name ∉ skipDirs := fun hin => hskip name hin hsuffix
    have hevals : "evals" ∉ skipDirs := by decide +kernel
    unfold kept compiled
    rw [hparts, List.getLast?_cons_cons, List.getLast?_singleton, Option.getD_some]
    dsimp only
    rw [hcompiled _ List.mem_cons_self, hcompiled _ (List.mem_cons_of_mem _ List.mem_cons_self)]
    simp [hname', hevals]
  · cases h

theorem evalTaskFiles_eq : evalTaskFiles p =
    if p.isDirAt "evals" then sortBy id ((p.committed.map Prod.fst).filter isEvalTask) else [] := by
  unfold evalTaskFiles
  refine if_congr Iff.rfl ?_ rfl
  congr 1
  unfold Child.committed
  rw [List.map_map, List.filter_map, List.filter_map, List.filter_filter]
  refine congrArg (List.map Prod.fst) (List.filter_congr fun entry _ => ?_)
  by_cases htask : isEvalTask entry.1 = true
  · simp [Function.comp, htask, shown, kept_of_isEvalTask htask]
  · simp [Function.comp, htask]

theorem SameChild.evalTaskFiles (h : SameChild p q) : evalTaskFiles p = evalTaskFiles q := by
  rw [evalTaskFiles_eq, evalTaskFiles_eq, h.isDirAt_evals]
  refine if_congr Iff.rfl ?_ rfl
  refine sortBy_perm ((h.2.2.map Prod.fst).filter _) ?_
  rw [List.map_id]
  exact keys_committed.filter _

theorem SameChild.committedHashes (h : SameChild p q) :
    (committedHashes T p).Perm (committedHashes T q) := h.2.2.filterMap _

theorem SameChild.fileHashes (h : SameChild p q) (hC : C.Clean) (hC' : C'.Clean) :
    fileHashes T C p = fileHashes T C' q := by
  rw [fileHashes_eq hC, fileHashes_eq hC', h.1,
    sortBy_perm h.committedHashes keys_committedHashes]

/-- The content hash is one of the file hashes. -/
theorem computeContentSha256_eq : computeContentSha256 T C p =
    (T.sha256 (encode (join "\n" ((fileHashes T C p).map fun file => file.2 ++ "  " ++ file.1))),
      (fileHashes T C p).length) := by
  unfold computeContentSha256 fileHashes
  rw [List.map_map, List.length_map]
  rfl

theorem readBytes_eq_ok_iff : p.readBytes rel = .ok data ↔ (rel, some data) ∈ p.found := by
  have hmem : ∀ {data'}, p.readBytes rel = .ok data' → (rel, some data') ∈ p.found := by
    intro data' h
    unfold Child.readBytes at h
    split at h
    · next data'' hfound =>
      obtain ⟨entry, hin, hentry⟩ := List.exists_of_findSome?_eq_some hfound
      split at hentry
      · next heq =>
        rw [← Except.ok.inj h, ← hentry, ← heq]
        exact hin
      · cases hentry
    · cases h
  refine ⟨hmem, fun hin => ?_⟩
  have hsome : ∃ data', p.readBytes rel = .ok data' := by
    unfold Child.readBytes
    split
    · exact ⟨_, rfl⟩
    · next hnone =>
      have hentry := List.findSome?_eq_none_iff.1 hnone _ hin
      rw [if_pos rfl] at hentry
      cases hentry
  obtain ⟨data', hdata'⟩ := hsome
  have heq := List.inj_on_of_nodup_map p.distinct (hmem hdata') hin rfl
  rw [hdata', Option.some.inj (Prod.mk.inj heq).2]

theorem readBytes_eq_error (h : ∀ data, p.readBytes rel ≠ .ok data) :
    p.readBytes rel = .error .osError := by
  unfold Child.readBytes at h ⊢
  split
  · next data hfound =>
    rw [hfound] at h
    exact absurd rfl (h data)
  · rfl

theorem mem_committed (hrel : kept [] rel = true) :
    (rel, some data) ∈ p.committed ↔ ∃ raw, p.readBytes rel = .ok raw ∧
      normaliseTextBytes raw = data := by
  unfold Child.committed
  simp only [List.mem_map, List.mem_filter, readBytes_eq_ok_iff]
  constructor
  · rintro ⟨entry, ⟨hin, -⟩, heq⟩
    obtain ⟨hname, hcontent⟩ := Prod.mk.inj heq
    obtain ⟨raw, hraw, hdata⟩ := Option.map_eq_some_iff.1 hcontent
    refine ⟨raw, ?_, hdata⟩
    rw [← hname, ← hraw]
    exact hin
  · rintro ⟨raw, hin, rfl⟩
    exact ⟨_, ⟨hin, by simp [shown, hrel]⟩, rfl⟩

/-- A file has the same content in both, up to line ends, or is in neither. -/
theorem SameChild.readBytes (h : SameChild p q) (hrel : kept [] rel = true) :
    (∃ raw raw', p.readBytes rel = .ok raw ∧ q.readBytes rel = .ok raw' ∧
      normaliseTextBytes raw = normaliseTextBytes raw') ∨
    (p.readBytes rel = .error .osError ∧ q.readBytes rel = .error .osError) := by
  have hiff : ∀ data, (∃ raw, p.readBytes rel = .ok raw ∧ normaliseTextBytes raw = data) ↔
      ∃ raw, q.readBytes rel = .ok raw ∧ normaliseTextBytes raw = data := by
    intro data
    rw [← mem_committed hrel, ← mem_committed hrel, h.2.2.mem_iff]
  by_cases hp : ∃ raw, p.readBytes rel = .ok raw
  · obtain ⟨raw, hraw⟩ := hp
    obtain ⟨raw', hraw', heq⟩ := (hiff _).1 ⟨raw, hraw, rfl⟩
    exact .inl ⟨raw, raw', hraw, hraw', heq.symm⟩
  · refine .inr ⟨readBytes_eq_error (not_exists.1 hp), readBytes_eq_error fun raw' hraw' => ?_⟩
    obtain ⟨raw, hraw, -⟩ := (hiff _).2 ⟨raw', hraw', rfl⟩
    exact hp ⟨raw, hraw⟩

/-- The path of a package does not say where the checkout is. -/
theorem relPosix_append {root below : List String} :
    relPosix (root ++ below) root = asPosix below := by
  rw [relPosix, if_pos (List.prefix_append _ _), List.drop_left]

theorem SameChild.loadYaml (h : SameChild p q) (hC : SameCommit C C') (hrel : kept [] rel = true) :
    loadYaml T C p rel = loadYaml T C' q rel := by
  obtain ⟨below, hbelow, hbelow'⟩ := hC.place
  have hpath : relPosix (p.dir C ++ [rel]) C.repoRoot =
      relPosix (q.dir C' ++ [rel]) C'.repoRoot := by
    rw [Child.dir, Child.dir, hbelow, hbelow', h.1, List.append_assoc, List.append_assoc,
      List.append_assoc, List.append_assoc, relPosix_append, relPosix_append]
  unfold Registry.loadYaml
  rcases h.readBytes hrel with ⟨raw, raw', hraw, hraw', heq⟩ | ⟨hraw, hraw'⟩
  · rw [hraw, hraw', hpath]
    dsimp only [bind, Except.bind]
    rw [decode_congr heq]
  · rw [hraw, hraw']
    rfl

theorem SameChild.toolNames (h : SameChild p q) (hC : SameCommit C C') :
    toolNames T C p = toolNames T C' q := by
  unfold Registry.toolNames
  rw [h.loadYaml hC (kept_required _ (by decide))]

theorem SameChild.path (h : SameChild p q) (hC : SameCommit C C') :
    relPosix (p.dir C) C.repoRoot = relPosix (q.dir C') C'.repoRoot := by
  obtain ⟨below, hbelow, hbelow'⟩ := hC.place
  rw [Child.dir, Child.dir, hbelow, hbelow', h.1, List.append_assoc, List.append_assoc,
    relPosix_append, relPosix_append]

theorem SameChild.entryOf (h : SameChild p q) (hC : SameCommit C C') :
    entryOf T C p = entryOf T C' q := by
  unfold Registry.entryOf
  rw [computeContentSha256_eq, computeContentSha256_eq, h.evalTaskFiles, h.toolNames hC, h.1,
    h.path hC, h.fileHashes hC.clean hC.clean']

theorem SameChild.scaffoldEntryOf (h : SameChild p q) (hC : SameCommit C C') :
    scaffoldEntryOf T C p = scaffoldEntryOf T C' q := by
  rw [Registry.scaffoldEntryOf, Registry.scaffoldEntryOf, h.1, h.path hC,
    h.fileHashes hC.clean hC.clean']

/-- The children that are chosen for what the commit has of them, in the order of their names. -/
theorem SameCommit.sorted (hC : SameCommit C C') {chosen : Child → Bool}
    (hsame : ∀ p q, SameChild p q → chosen p = chosen q)
    (hfile : ∀ p, chosen p = true → p.committed ≠ []) :
    List.Forall₂ SameChild (sortBy Child.name (C.children.filter chosen))
      (sortBy Child.name (C'.children.filter chosen)) := by
  obtain ⟨l, hperm, hl⟩ := hC.children
  have hall : ∀ children : List Child, children.filter chosen =
      (children.filter fun p => p.committed ≠ []).filter chosen := by
    intro children
    rw [List.filter_filter]
    refine List.filter_congr fun p _ => ?_
    cases hp : chosen p with
    | false => rfl
    | true => simp [hfile p hp]
  have hfilter : List.Forall₂ SameChild
      ((C.children.filter fun p => p.committed ≠ []).filter chosen) (l.filter chosen) :=
    List.rel_filter (fun p q h => Bool.eq_iff_iff.1 (hsame p q h)) hl
  have hsort := forall₂_sortBy (fun _ _ h => h.1) hfilter
  have hnames : ((l.filter chosen).map Child.name).Nodup := by
    refine (((hperm.map Child.name).nodup_iff.2 ?_).sublist (List.filter_sublist.map _))
    exact C'.distinct.sublist (List.filter_sublist.map _)
  rw [hall, hall C'.children, ← sortBy_perm (hperm.filter chosen) hnames]
  exact hsort

/-- Whoever has a prompt, the commit has something of. -/
theorem committed_ne_nil (h : p.isFileAt "prompt.md" = true) : p.committed ≠ [] := by
  rw [isFileAt_eq (kept_required _ List.mem_cons_self)] at h
  intro hnil
  rw [hnil] at h
  cases h

theorem SameCommit.packages (hC : SameCommit C C') :
    List.Forall₂ SameChild (discoverFunctionPackages C) (discoverFunctionPackages C') := by
  refine hC.sorted (fun _ _ h => h.isFunctionPackage) fun p hp => committed_ne_nil ?_
  unfold isFunctionPackage at hp
  rw [Bool.and_eq_true, Bool.and_eq_true] at hp
  exact List.all_eq_true.1 hp.1.2 _ List.mem_cons_self

theorem SameCommit.scaffolds (hC : SameCommit C C') (ids : List String) :
    List.Forall₂ SameChild (discoverScaffoldPackages C ids) (discoverScaffoldPackages C' ids) := by
  unfold discoverScaffoldPackages
  rw [filter_sortBy C.distinct, filter_sortBy C'.distinct]
  refine hC.sorted ?_ fun p hp => committed_ne_nil (Bool.and_eq_true_iff.1 hp).2
  intro p q h
  rw [h.1, h.2.1, h.isFileAt (kept_required _ List.mem_cons_self)]

theorem eq_nil_iff_of_forall₂ {l m : List Child} (h : List.Forall₂ SameChild l m) :
    l = [] ↔ m = [] := by
  rw [← List.length_eq_zero_iff, h.length_eq, List.length_eq_zero_iff]

/-- Two checkouts of one commit have one manifest, or fail alike. -/
theorem buildManifest_congr (hC : SameCommit C C') :
    buildManifest T tag C = buildManifest T tag C' := by
  have hpackages := hC.packages
  have hnames : (discoverFunctionPackages C).map Child.name =
      (discoverFunctionPackages C').map Child.name :=
    map_eq_of_forall₂ (fun _ _ h => h.1) hpackages
  have hscaffolds := hC.scaffolds ((discoverFunctionPackages C').map Child.name)
  obtain ⟨below, hbelow, hbelow'⟩ := hC.place
  have hplace : relPosix C.functionsDir C.repoRoot = relPosix C'.functionsDir C'.repoRoot := by
    rw [hbelow, hbelow', relPosix_append, relPosix_append]
  have hentries : (discoverFunctionPackages C).mapM (entryOf T C) =
      (discoverFunctionPackages C').mapM (entryOf T C') :=
    mapM_eq_of_forall₂ (fun _ _ h => h.entryOf hC) hpackages
  have hscaffoldEntries : (discoverScaffoldPackages C ((discoverFunctionPackages C').map
      Child.name)).map (scaffoldEntryOf T C) = (discoverScaffoldPackages C'
        ((discoverFunctionPackages C').map Child.name)).map (scaffoldEntryOf T C') :=
    map_eq_of_forall₂ (fun _ _ h => h.scaffoldEntryOf hC) hscaffolds
  unfold buildManifest
  dsimp only
  rw [hnames, hentries, hscaffoldEntries, hplace]
  exact if_congr (and_congr (eq_nil_iff_of_forall₂ hpackages) (eq_nil_iff_of_forall₂ hscaffolds))
    rfl rfl

theorem windows_sameCommit : SameCommit linux windows := by
  have hpost : postWriter.committed ≠ [] := by decide +kernel
  have hpost' : postWriterCrlf.committed ≠ [] := by decide +kernel
  have hlegal : legalTriage.committed ≠ [] := by decide +kernel
  have hcache : pycache.committed = [] := by decide +kernel
  have hlinux : linux.children.filter (fun p => p.committed ≠ []) = [postWriter, legalTriage] := by
    simp [linux, hpost, hlegal]
  have hwindows : windows.children.filter (fun p => p.committed ≠ []) =
      [legalTriage, postWriterCrlf] := by
    simp [windows, hpost', hlegal, hcache]
  refine ⟨⟨[postWriterCrlf, legalTriage], ?_, ?_⟩, ⟨["functions"], rfl, rfl⟩, ?_, ?_⟩
  · rw [hwindows]
    exact List.Perm.swap _ _ _
  · rw [hlinux]
    exact .cons ⟨rfl, rfl, by decide +kernel⟩ (.cons ⟨rfl, rfl, List.Perm.refl _⟩ .nil)
  · unfold Checkout.Clean
    decide +kernel
  · unfold Checkout.Clean
    decide +kernel

/-- The runner's checkout and a developer's. -/
theorem windows_builds_alike :
    buildManifest briefTools defaultTag linux = buildManifest briefTools defaultTag windows :=
  buildManifest_congr windows_sameCommit

end CanvasOS.Registry
