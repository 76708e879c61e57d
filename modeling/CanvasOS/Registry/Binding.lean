/-
  What the bundle hash of a manifest says of the packages.

  1. `buildManifest_ok` — the entries of a manifest are those of the packages, in the order of their
     names.
  2. `lines_injective` — a text of `sha256sum` lines says which files have which hash.
  3. `bundle_binds` — two builds with one bundle hash have the same packages with the same files, up
     to line ends, unless two of the texts they hash collide.
-/
import CanvasOS.Lib.Lines
import CanvasOS.Registry.Reproducible

namespace CanvasOS.Registry

open Python Listing
open Orchestrator.Manifest (Bytes normaliseTextBytes encode encode_injective)

variable {T : Tools} {C C' : Checkout} {p : Child} {tag tag' : String} {m m' : Manifest}

/-! ## The entries -/

theorem entryOf_ok {e : Entry} (h : entryOf T C p = .ok e) :
    e.id = p.name ∧ e.contentSha256 = (computeContentSha256 T C p).1 ∧
      e.files = fileHashes T C p := by
  unfold entryOf at h
  cases htools : toolNames T C p with
  | error stop =>
    rw [htools] at h
    cases h
  | ok tools =>
    rw [htools] at h
    obtain rfl := Except.ok.inj h
    exact ⟨rfl, rfl, rfl⟩

theorem buildManifest_ok (h : buildManifest T tag C = .ok m) :
    List.Forall₂ (fun p e => entryOf T C p = .ok e) (discoverFunctionPackages C) m.functions ∧
      m.bundleSha256 = T.sha256 (encode (join "\n" (m.functions.map fun entry =>
        entry.contentSha256 ++ "  " ++ entry.id))) ∧
      m.scaffoldFunctions = (discoverScaffoldPackages C ((discoverFunctionPackages C).map
        Child.name)).map (scaffoldEntryOf T C) ∧ m.tag = tag := by
  unfold buildManifest at h
  dsimp only at h
  split at h
  · cases h
  · cases hentries : (discoverFunctionPackages C).mapM (entryOf T C) with
    | error stop =>
      rw [hentries] at h
      cases h
    | ok entries =>
      rw [hentries] at h
      obtain rfl := Except.ok.inj h
      have hall := forall₂_of_mapM hentries
      -- the entries come in the order of the packages, which is that of their ids
      have hids : (discoverFunctionPackages C).map Child.name = entries.map Entry.id :=
        map_eq_of_forall₂ (fun p e he => (entryOf_ok he).1.symm) hall
      have hsorted : sortBy Entry.id entries = entries := by
        refine sortBy_eq_self ?_
        rw [← hids, List.pairwise_map]
        exact pairwise_sortBy
      have hscaffolds : ∀ ids, sortBy ScaffoldEntry.id ((discoverScaffoldPackages C ids).map
          (scaffoldEntryOf T C)) = (discoverScaffoldPackages C ids).map (scaffoldEntryOf T C) := by
        intro ids
        refine sortBy_eq_self ?_
        rw [List.map_map, List.pairwise_map]
        exact pairwise_sortBy.filter _
      refine ⟨?_, ?_, hscaffolds _, rfl⟩
      · rw [hsorted]
        exact hall
      · rfl

/-! ## Lines of hashes -/

/-- `hexdigest()` -/
def Hexdigest (digest : String) : Prop :=
  digest.length = 64 ∧ ∀ c ∈ digest.toList, c ∈ "0123456789abcdef".toList

theorem Hexdigest.isLine {digest name : String} (h : Hexdigest digest)
    (hname : '\n' ∉ name.toList) :
    IsLine '\n' (digest ++ "  " ++ name) := by
  refine ⟨?_, ?_⟩
  · intro hin
    rw [String.toList_append, String.toList_append, List.mem_append, List.mem_append] at hin
    rcases hin with (hin | hin) | hin
    · exact absurd (h.2 _ hin) (by decide)
    · exact absurd hin (by decide)
    · exact hname hin
  · intro hempty
    have hlen := congrArg String.length hempty
    rw [String.length_append, String.length_append, h.1, String.length_empty] at hlen
    omega

/-- What the lines of two texts say. -/
theorem lines_injective {l l' : List (String × String)}
    (hl : ∀ x ∈ l, Hexdigest x.1 ∧ '\n' ∉ x.2.toList)
    (hl' : ∀ x ∈ l', Hexdigest x.1 ∧ '\n' ∉ x.2.toList)
    (h : join "\n" (l.map fun x => x.1 ++ "  " ++ x.2) =
      join "\n" (l'.map fun x => x.1 ++ "  " ++ x.2)) : l = l' := by
  have hlines : ∀ l : List (String × String), (∀ x ∈ l, Hexdigest x.1 ∧ '\n' ∉ x.2.toList) →
      ∀ line ∈ l.map fun x => x.1 ++ "  " ++ x.2, IsLine '\n' line := by
    intro l hl line hline
    obtain ⟨x, hx, rfl⟩ := List.mem_map.1 hline
    exact (hl x hx).1.isLine (hl x hx).2
  have hmap := join_injective (hlines l hl) (hlines l' hl') h
  clear h hlines
  induction l generalizing l' with
  | nil =>
    cases l' with
    | nil => rfl
    | cons x l' => cases hmap
  | cons x l ih =>
    cases l' with
    | nil => cases hmap
    | cons y l' =>
      obtain ⟨hx, hl⟩ := List.forall_mem_cons.1 hl
      obtain ⟨hy, hl'⟩ := List.forall_mem_cons.1 hl'
      obtain ⟨hline, hrest⟩ := List.cons.inj hmap
      have hchars := congrArg String.toList hline
      simp only [String.toList_append, List.append_assoc] at hchars
      obtain ⟨hdigest, hname⟩ := List.append_inj hchars (hx.1.1.trans hy.1.1.symm)
      obtain ⟨-, hname⟩ := List.append_inj hname rfl
      rw [ih hl hl' hrest, Prod.ext (String.toList_inj.1 hdigest) (String.toList_inj.1 hname)]

/-! ## The bundle -/

/-- The lines of the bundle. -/
def bundleLines (T : Tools) (C : Checkout) : List (String × String) :=
  (discoverFunctionPackages C).map fun p => ((computeContentSha256 T C p).1, p.name)

/-- The lines of a package. -/
def contentLines (T : Tools) (C : Checkout) (p : Child) : List (String × String) :=
  (iterPackageFiles C p).map fun file => (digest T file.2, file.1)

/-- A text of lines, as it is hashed. -/
def linesText (lines : List (String × String)) : Bytes :=
  encode (join "\n" (lines.map fun line => line.1 ++ "  " ++ line.2))

/-- What is hashed to build the functions of a manifest. -/
def hashed (T : Tools) (C : Checkout) : List Bytes :=
  linesText (bundleLines T C) :: (discoverFunctionPackages C).flatMap fun p =>
    linesText (contentLines T C p) ::
      (iterPackageFiles C p).map fun file => normaliseTextBytes file.2

/-- Two different things that were hashed for the two have one hash. -/
def Collide (T : Tools) (C C' : Checkout) : Prop :=
  ∃ data ∈ hashed T C, ∃ data' ∈ hashed T C', data ≠ data' ∧ T.sha256 data = T.sha256 data'

/-- The packages, and their files with normalised line ends. -/
def contents (C : Checkout) : List (String × List (String × Bytes)) :=
  (discoverFunctionPackages C).map fun p =>
    (p.name, (iterPackageFiles C p).map fun file => (file.1, normaliseTextBytes file.2))

/-- No name has a line end in it. -/
def Checkout.OneLine (C : Checkout) : Prop :=
  ∀ p ∈ C.children, '\n' ∉ p.name.toList ∧ ∀ entry ∈ p.found, '\n' ∉ entry.1.toList

theorem contentSha256_eq :
    (computeContentSha256 T C p).1 = T.sha256 (linesText (contentLines T C p)) := by
  unfold computeContentSha256 linesText contentLines
  rw [List.map_map]
  rfl

theorem bundleSha256_eq (h : buildManifest T tag C = .ok m) :
    m.bundleSha256 = T.sha256 (linesText (bundleLines T C)) := by
  obtain ⟨hall, hbundle, -, -⟩ := buildManifest_ok h
  have hlines : bundleLines T C = m.functions.map fun entry => (entry.contentSha256, entry.id) :=
    map_eq_of_forall₂ (fun p e he => Prod.ext (entryOf_ok he).2.1.symm (entryOf_ok he).1.symm) hall
  rw [hbundle, linesText, hlines, List.map_map]
  rfl

/-- Two checkouts of one commit have the same lines. -/
theorem SameCommit.bundleLines (hC : SameCommit C C') : bundleLines T C = bundleLines T C' := by
  refine map_eq_of_forall₂ (fun p q h => ?_) hC.packages
  rw [computeContentSha256_eq, computeContentSha256_eq, h.fileHashes hC.clean hC.clean', h.1]

theorem mem_children (h : p ∈ discoverFunctionPackages C) : p ∈ C.children :=
  List.mem_of_mem_filter (mem_sortBy.1 h)

theorem bundleLines_plain (hT : ∀ data, Hexdigest (T.sha256 data)) (hC : C.OneLine) :
    ∀ line ∈ bundleLines T C, Hexdigest line.1 ∧ '\n' ∉ line.2.toList := by
  intro line hline
  obtain ⟨p, hp, rfl⟩ := List.mem_map.1 hline
  exact ⟨hT _, (hC p (mem_children hp)).1⟩

theorem contentLines_plain (hT : ∀ data, Hexdigest (T.sha256 data)) (hC : C.OneLine)
    (hp : p ∈ discoverFunctionPackages C) :
    ∀ line ∈ contentLines T C p, Hexdigest line.1 ∧ '\n' ∉ line.2.toList := by
  intro line hline
  obtain ⟨file, hfile, rfl⟩ := List.mem_map.1 hline
  exact ⟨hT _, (hC p (mem_children hp)).2 _ (mem_iterPackageFiles.1 hfile).2⟩

theorem mem_hashed {data : Bytes} (hp : p ∈ discoverFunctionPackages C)
    (hdata : data ∈ linesText (contentLines T C p) ::
      (iterPackageFiles C p).map fun file => normaliseTextBytes file.2) : data ∈ hashed T C :=
  List.mem_cons_of_mem _ (List.mem_flatMap.2 ⟨p, hp, hdata⟩)

/-- Two builds with one bundle hash have the same packages with the same files, unless two of the
    texts that were hashed collide. -/
theorem bundle_binds (hT : ∀ data, Hexdigest (T.sha256 data)) (hC : C.OneLine) (hC' : C'.OneLine)
    (h : buildManifest T tag C = .ok m) (h' : buildManifest T tag' C' = .ok m')
    (hbundle : m.bundleSha256 = m'.bundleSha256) : contents C = contents C' ∨ Collide T C C' := by
  by_cases hcollide : Collide T C C'
  · exact .inr hcollide
  refine .inl ?_
  -- without a collision, one hash is one text
  have hone : ∀ data ∈ hashed T C, ∀ data' ∈ hashed T C', T.sha256 data = T.sha256 data' →
      data = data' := by
    intro data hdata data' hdata' heq
    by_contra hne
    exact hcollide ⟨data, hdata, data', hdata', hne, heq⟩
  have htext : linesText (bundleLines T C) = linesText (bundleLines T C') := by
    rw [bundleSha256_eq h, bundleSha256_eq h'] at hbundle
    exact hone _ List.mem_cons_self _ List.mem_cons_self hbundle
  have hlines : bundleLines T C = bundleLines T C' :=
    lines_injective (bundleLines_plain hT hC) (bundleLines_plain hT hC') (encode_injective htext)
  -- one line is one package: its content hash is that of the lines of its files
  refine map_eq_of_map_eq (fun p hp q hq hline => ?_) hlines
  obtain ⟨hsha, hname⟩ := Prod.mk.inj hline
  rw [contentSha256_eq, contentSha256_eq] at hsha
  have hcontent := hone _ (mem_hashed hp List.mem_cons_self) _
    (mem_hashed hq List.mem_cons_self) hsha
  have hfiles := lines_injective (contentLines_plain hT hC hp) (contentLines_plain hT hC' hq)
    (encode_injective hcontent)
  refine Prod.ext hname (map_eq_of_map_eq (fun file hfile file' hfile' hline => ?_) hfiles)
  obtain ⟨hdigest, hpath⟩ := Prod.mk.inj hline
  refine Prod.ext hpath (hone _ (mem_hashed hp ?_) _ (mem_hashed hq ?_) hdigest)
  · exact List.mem_cons_of_mem _ (List.mem_map.2 ⟨file, hfile, rfl⟩)
  · exact List.mem_cons_of_mem _ (List.mem_map.2 ⟨file', hfile', rfl⟩)

theorem hexdigest_of_all {digest : String} (hlength : digest.length = 64)
    (hall : (digest.toList.all "0123456789abcdef".toList.contains) = true) : Hexdigest digest :=
  ⟨hlength, fun _ hc => List.contains_iff_mem.1 (List.all_eq_true.1 hall _ hc)⟩

/-- `hexdigest()` of the checkouts' tools -/
theorem hexdigest_briefTools (data : Bytes) : Hexdigest (briefTools.sha256 data) := by
  have hall : ∀ entry ∈ briefDigests, entry.2.length = 64 ∧
      (entry.2.toList.all "0123456789abcdef".toList.contains) = true := by decide +kernel
  unfold briefTools
  dsimp only
  cases hfound : briefDigests.find? fun entry => entry.1 = data with
  | none => exact hexdigest_of_all (by decide +kernel) (by decide +kernel)
  | some entry =>
    obtain ⟨hlength, hhex⟩ := hall entry (List.mem_of_find?_eq_some hfound)
    exact hexdigest_of_all hlength hhex

theorem builds_of_isOk (h : (buildManifest T tag C).toOption.isSome = true) :
    ∃ m, buildManifest T tag C = .ok m := by
  cases hm : buildManifest T tag C with
  | error stop =>
    rw [hm] at h
    cases h
  | ok m => exact ⟨m, rfl⟩

/-- A developer's checkout has the bundle hash that the runner's has. -/
theorem windows_bundle : ∃ m m', buildManifest briefTools defaultTag linux = .ok m ∧
    buildManifest briefTools "latest" windows = .ok m' ∧
    (contents linux = contents windows ∨ Collide briefTools linux windows) := by
  obtain ⟨m, hm⟩ : ∃ m, buildManifest briefTools defaultTag linux = .ok m :=
    builds_of_isOk (by decide +kernel)
  obtain ⟨m', hm'⟩ : ∃ m', buildManifest briefTools "latest" windows = .ok m' :=
    builds_of_isOk (by decide +kernel)
  have hlinux : linux.OneLine := by
    unfold Checkout.OneLine
    decide +kernel
  have hwindows : windows.OneLine := by
    unfold Checkout.OneLine
    decide +kernel
  have hbundle : m.bundleSha256 = m'.bundleSha256 := by
    rw [bundleSha256_eq hm, bundleSha256_eq hm', windows_sameCommit.bundleLines]
  exact ⟨m, m', hm, hm', bundle_binds hexdigest_briefTools hlinux hwindows hm hm' hbundle⟩

end CanvasOS.Registry
