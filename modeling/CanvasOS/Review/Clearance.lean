/-
  The permission register as one dictionary: when `check_clearance` and `find_uncleared_in_text` are
  default deny.

  1. `owner` — the entry that a name or alias leads to: the last one of that name, else the first
     that lists it as an alias.  `find_loadRegister` says that this is what the index holds.
  2. `unclearedAmong_spec` — what the search of a text reports: one raw name for each lower-cased
     name, each led to by a key that the text carries.
  3. `DefaultDeny`, `Unambiguous` — what the register is for, and what it takes of its entries.
  4. `defaultDeny_iff` — the one holds exactly where the other does.
-/
import Mathlib.Data.List.Nodup
import CanvasOS.Lib.Words
import CanvasOS.Review.Checks

namespace CanvasOS.Review

open Python

/-! ## Entries and keys -/

/-- The entry permits naming. -/
def ClientEntry.isCleared (entry : ClientEntry) : Prop := stripped entry.status = "CLEARED"

instance (entry : ClientEntry) : Decidable entry.isCleared :=
  inferInstanceAs (Decidable (stripped entry.status = "CLEARED"))

/-- The lower-cased name. -/
def ClientEntry.nameKey (U : Unicode) (entry : ClientEntry) : String :=
  lowered U (stripped entry.name)

/-- The lower-cased forms of some names, blank ones left out. -/
def keysOf (U : Unicode) (names : List String) : List String :=
  ((names.map stripped).filter (· ≠ "")).map (lowered U)

/-- What the entry lists as its name or as an alias, lower-cased. -/
def ClientEntry.listed (U : Unicode) (entry : ClientEntry) : List String :=
  keysOf U (entry.name :: entry.aliases)

/-- The entry that a key leads to.  An entry without a name is skipped by the loader. -/
def owner (U : Unicode) (clients : List ClientEntry) (key : String) : Option ClientEntry :=
  (clients.reverse.find? fun e => stripped e.name ≠ "" ∧ e.nameKey U = key).or
    (clients.find? fun e => stripped e.name ≠ "" ∧ key ∈ keysOf U e.aliases)

variable {U : Unicode} {index : Register} {clients : List ClientEntry} {entry w : ClientEntry}
  {key k name text c : String} {names seen : List String}

theorem mem_keysOf : key ∈ keysOf U names ↔
    ∃ name ∈ names, stripped name ≠ "" ∧ key = lowered U (stripped name) := by
  simp only [keysOf, List.mem_map, List.mem_filter, decide_eq_true_eq]
  constructor
  · rintro ⟨_, ⟨⟨name, hname, rfl⟩, hne⟩, rfl⟩
    exact ⟨name, hname, hne, rfl⟩
  · rintro ⟨name, hname, hne, rfl⟩
    exact ⟨_, ⟨⟨name, hname, rfl⟩, hne⟩, rfl⟩

theorem keysOf_cons_blank (h : stripped name = "") : keysOf U (name :: names) = keysOf U names := by
  simp [keysOf, h]

theorem keysOf_cons (h : stripped name ≠ "") :
    keysOf U (name :: names) = lowered U (stripped name) :: keysOf U names := by
  simp [keysOf, h]

/-! ## What the index holds -/

theorem find_cons {kv : String × ClientEntry} : Register.find (kv :: index) k =
    if kv.1 = k then some kv.2 else index.find k := by
  unfold Register.find
  by_cases hk : kv.1 = k
  · rw [List.find?_cons_of_pos (by simpa using hk), if_pos hk, Option.map_some]
  · rw [List.find?_cons_of_neg (by simpa using hk), if_neg hk]

/-- Replacing an entry in place. -/
theorem find_replace :
    Register.find (index.map fun kv => if kv.1 == key then (key, entry) else kv) k =
    if key = k ∧ (index.any fun kv => kv.1 == key) = true then some entry else index.find k := by
  induction index with
  | nil => simp [Register.find]
  | cons kv index ih =>
    rw [List.map_cons, find_cons, find_cons, ih, List.any_cons]
    by_cases hkv : kv.1 = key
    · by_cases hk : key = k
      · simp [hkv, hk]
      · simp [hkv, hk]
    · have hne : (kv.1 == key) = false := by simpa using hkv
      by_cases hk : key = k
      · subst hk
        rw [hne, Bool.false_or, if_neg Bool.false_ne_true, if_neg hkv, if_neg hkv]
      · simp [hne, hk]

theorem find_set : (index.set key entry).find k = if key = k then some entry else index.find k := by
  unfold Register.set
  by_cases hany : (index.any fun kv => kv.1 == key) = true
  · rw [if_pos hany, find_replace]
    simp only [hany, and_true]
  · rw [if_neg hany, Register.find, List.find?_append]
    by_cases hk : key = k
    · subst hk
      have hfind : index.find? (fun kv => kv.1 == key) = none :=
        List.find?_eq_none.2 fun kv hkv heq => hany (List.any_eq_true.2 ⟨kv, hkv, heq⟩)
      simp [hfind]
    · simp [hk, Register.find]

theorem find_setDefault : (index.setDefault key entry).find k =
    (index.find k).or (if key = k then some entry else none) := by
  unfold Register.setDefault Register.find
  by_cases hany : (index.any fun kv => kv.1 == key) = true
  · rw [if_pos hany]
    by_cases hk : key = k
    · subst hk
      obtain ⟨x, hx, heq⟩ := List.any_eq_true.1 hany
      have hsome : (index.find? fun kv => kv.1 == key).isSome = true :=
        List.find?_isSome.2 ⟨x, hx, heq⟩
      obtain ⟨y, hy⟩ := Option.isSome_iff_exists.1 hsome
      simp [hy]
    · simp [hk]
  · rw [if_neg hany, List.find?_append]
    by_cases hk : key = k
    · cases index.find? (fun kv => kv.1 == k) <;> simp [hk]
    · cases index.find? (fun kv => kv.1 == k) <;> simp [hk]

/-- The aliases of an entry lead to it where nothing was there before. -/
theorem find_aliases : (names.foldl (fun index a =>
      if stripped a = "" then index else index.setDefault (lowered U (stripped a)) entry)
      index).find k = (index.find k).or (if k ∈ keysOf U names then some entry else none) := by
  induction names generalizing index with
  | nil => simp [keysOf]
  | cons a names ih =>
    rw [List.foldl_cons, ih]
    by_cases hblank : stripped a = ""
    · rw [if_pos hblank, keysOf_cons_blank hblank]
    · rw [if_neg hblank, find_setDefault, Option.or_assoc, keysOf_cons hblank]
      by_cases hk : lowered U (stripped a) = k
      · simp [hk]
      · have hne : k ≠ lowered U (stripped a) := fun heq => hk heq.symm
        simp [hk, hne]

theorem find_add : (index.add U entry).find k =
    if stripped entry.name ≠ "" ∧ entry.nameKey U = k then some entry
    else (index.find k).or
      (if stripped entry.name ≠ "" ∧ k ∈ keysOf U entry.aliases then some entry else none) := by
  unfold Register.add
  by_cases hblank : stripped entry.name = ""
  · simp [hblank]
  · by_cases hk : entry.nameKey U = k
    · have hk' : lowered U (stripped entry.name) = k := hk
      simp [hblank, find_aliases, find_set, hk, hk']
    · have hk' : ¬ lowered U (stripped entry.name) = k := hk
      simp [hblank, find_aliases, find_set, hk, hk']

/-- The index leads a key to its owner. -/
theorem find_loadRegister : (loadRegister U clients).find k = owner U clients k := by
  induction clients using List.reverseRecOn with
  | nil => rfl
  | append_singleton clients entry ih =>
    rw [loadRegister, List.foldl_concat, ← loadRegister, find_add, ih, owner, owner,
      List.reverse_append, List.reverse_singleton, List.singleton_append, List.find?_append]
    by_cases hname : stripped entry.name ≠ "" ∧ entry.nameKey U = k
    · rw [if_pos hname, List.find?_cons_of_pos (by simpa using hname), Option.some_or]
    · rw [if_neg hname, List.find?_cons_of_neg (by simpa using hname), Option.or_assoc]
      by_cases halias : stripped entry.name ≠ "" ∧ k ∈ keysOf U entry.aliases
      · rw [if_pos halias, List.find?_cons_of_pos (by simpa using halias)]
      · rw [if_neg halias, List.find?_cons_of_neg (by simpa using halias), List.find?_nil]

/-- The owner of a key is a named entry that lists it. -/
theorem owner_some (h : owner U clients k = some w) :
    w ∈ clients ∧ stripped w.name ≠ "" ∧ k ∈ w.listed U := by
  unfold owner at h
  rcases Option.or_eq_some_iff.1 h with hname | ⟨-, halias⟩
  · have hw := List.find?_some hname
    rw [decide_eq_true_eq] at hw
    exact ⟨List.mem_reverse.1 (List.mem_of_find?_eq_some hname), hw.1,
      mem_keysOf.2 ⟨w.name, List.mem_cons_self, hw.1, hw.2.symm⟩⟩
  · have hw := List.find?_some halias
    rw [decide_eq_true_eq] at hw
    obtain ⟨a, ha, hne, heq⟩ := mem_keysOf.1 hw.2
    exact ⟨List.mem_of_find?_eq_some halias, hw.1,
      mem_keysOf.2 ⟨a, List.mem_cons_of_mem _ ha, hne, heq⟩⟩

/-- The name of an entry has an owner. -/
theorem owner_nameKey (hw : w ∈ clients) (hname : stripped w.name ≠ "") :
    ∃ v, owner U clients (w.nameKey U) = some v := by
  unfold owner
  have hsome : (clients.reverse.find? fun e =>
      stripped e.name ≠ "" ∧ e.nameKey U = w.nameKey U).isSome = true :=
    List.find?_isSome.2 ⟨w, List.mem_reverse.2 hw, by simp [hname]⟩
  obtain ⟨v, hv⟩ := Option.isSome_iff_exists.1 hsome
  exact ⟨v, by rw [hv, Option.some_or]⟩

/-! ## What the search reports -/

/-- The text carries the name or alias. -/
def Carried (U : Unicode) (key text : String) : Prop := WordIn U U.fold key.toList text.toList

/-- The raw name that a key of the index is reported under. -/
def canonical (index : Register) (key : String) : String :=
  ((index.find key).map (·.name)).getD key

/-- The search reports one raw name for each lower-cased name that a carried key leads to and that
    may not be used. -/
theorem unclearedAmong_spec : ∃ raw : List String,
    unclearedAmong U index text names seen = raw.map stripped ∧ (raw.map (lowered U)).Nodup ∧
    (∀ c ∈ raw, lowered U c ∉ seen ∧ ∃ k ∈ names, Carried U k text ∧ canonical index k = c ∧
      clearanceAllowed U index c = false) ∧
    ∀ k ∈ names, Carried U k text → clearanceAllowed U index (canonical index k) = false →
      lowered U (canonical index k) ∈ seen ∨
        ∃ c ∈ raw, lowered U c = lowered U (canonical index k) := by
  induction names generalizing seen with
  | nil => exact ⟨[], rfl, List.nodup_nil, fun c hc => (nomatch hc), fun k hk => (nomatch hk)⟩
  | cons name names ih =>
    have hunfold : unclearedAmong U index text (name :: names) seen =
        if containsWord U U.fold name.toList text.toList &&
          lowered U (canonical index name) ∉ seen &&
          !clearanceAllowed U index (canonical index name) then
        stripped (canonical index name) :: unclearedAmong U index text names
          (lowered U (canonical index name) :: seen)
        else unclearedAmong U index text names seen := rfl
    rw [hunfold]
    by_cases hreport : (containsWord U U.fold name.toList text.toList &&
        lowered U (canonical index name) ∉ seen &&
        !clearanceAllowed U index (canonical index name)) = true
    · rw [if_pos hreport]
      simp only [Bool.and_eq_true, decide_eq_true_eq, Bool.not_eq_true', containsWord_iff]
        at hreport
      obtain ⟨⟨hcarried, hunseen⟩, hdenied⟩ := hreport
      obtain ⟨raw, heq, hnodup, hraw, hall⟩ := @ih (lowered U (canonical index name) :: seen)
      refine ⟨canonical index name :: raw, by rw [heq]; rfl, ?_, ?_, ?_⟩
      · refine List.nodup_cons.2 ⟨fun hmem => ?_, hnodup⟩
        obtain ⟨c, hc, hlower⟩ := List.mem_map.1 hmem
        exact (hraw c hc).1 (List.mem_cons.2 (.inl hlower))
      · intro c hc
        rcases List.mem_cons.1 hc with rfl | hc
        · exact ⟨hunseen, name, List.mem_cons_self, hcarried, rfl, hdenied⟩
        · obtain ⟨hfresh, k, hk, hrest⟩ := hraw c hc
          exact ⟨fun hmem => hfresh (List.mem_cons_of_mem _ hmem), k, List.mem_cons_of_mem _ hk,
            hrest⟩
      · intro k hk hcarriedk hdeniedk
        rcases List.mem_cons.1 hk with rfl | hk
        · exact .inr ⟨_, List.mem_cons_self, rfl⟩
        · rcases hall k hk hcarriedk hdeniedk with hseen | ⟨c, hc, hlower⟩
          · rcases List.mem_cons.1 hseen with hsame | hseen
            · exact .inr ⟨_, List.mem_cons_self, hsame.symm⟩
            · exact .inl hseen
          · exact .inr ⟨c, List.mem_cons_of_mem _ hc, hlower⟩
    · rw [if_neg hreport]
      obtain ⟨raw, heq, hnodup, hraw, hall⟩ := @ih seen
      refine ⟨raw, heq, hnodup, ?_, ?_⟩
      · intro c hc
        obtain ⟨hfresh, k, hk, hrest⟩ := hraw c hc
        exact ⟨hfresh, k, List.mem_cons_of_mem _ hk, hrest⟩
      · intro k hk hcarriedk hdeniedk
        rcases List.mem_cons.1 hk with rfl | hk
        · -- a carried and denied name is passed over only where it has been reported
          refine .inl (by_contra fun hunseen => hreport ?_)
          simp only [Bool.and_eq_true, decide_eq_true_eq, Bool.not_eq_true', containsWord_iff]
          exact ⟨⟨hcarriedk, hunseen⟩, hdeniedk⟩
        · exact hall k hk hcarriedk hdeniedk

/-! ## Default deny -/

/-- What is used of the character tables: white space has no letter case, and a blank is no word
    character. -/
structure CharacterLaws (U : Unicode) : Prop where
  lower_strip : ∀ s, U.lower (strip s) = strip (U.lower s)
  blank : U.word ' ' = false

/-- The text carries the entry's name or one of its aliases. -/
def ClientEntry.NamedIn (U : Unicode) (entry : ClientEntry) (text : String) : Prop :=
  ∃ key ∈ entry.listed U, Carried U key text

/-- What the register is for.  Reports are compared by their names, in whatever letter case. -/
structure DefaultDeny (U : Unicode) (clients : List ClientEntry) : Prop where
  /-- a name is allowed only if an entry lists it and none that lists it is other than CLEARED -/
  allowed : ∀ name, clearanceAllowed U (loadRegister U clients) name = true →
    (∃ e ∈ clients, lowered U (stripped name) ∈ e.listed U) ∧
      ∀ e ∈ clients, lowered U (stripped name) ∈ e.listed U → e.isCleared
  /-- the entries that are not CLEARED and that the text names are reported, and nothing else -/
  reported : ∀ text n, n ∈ (findUnclearedInText U (loadRegister U clients) text).map (lowered U) ↔
    ∃ e ∈ clients, ¬ e.isCleared ∧ e.nameKey U = n ∧ e.NamedIn U text
  /-- each of them once -/
  once : ∀ text, ((findUnclearedInText U (loadRegister U clients) text).map (lowered U)).Nodup

/-- The name is denied: its owner is not CLEARED. -/
def Denied (U : Unicode) (clients : List ClientEntry) (n : String) : Prop :=
  ∃ v, owner U clients n = some v ∧ ¬ v.isCleared

/-- No collision of names and aliases hides an entry that is not CLEARED. -/
structure Unambiguous (U : Unicode) (clients : List ClientEntry) : Prop where
  /-- what such an entry lists does not lead to a CLEARED one -/
  uncleared : ∀ e ∈ clients, ¬ e.isCleared → ∀ k ∈ e.listed U, ∀ w, owner U clients k = some w →
    ¬ w.isCleared
  /-- what such an entry lists is, or has within it, a key that leads to its name -/
  found : ∀ e ∈ clients, ¬ e.isCleared → ∀ k ∈ e.listed U, ∃ k' w, owner U clients k' = some w ∧
    w.nameKey U = e.nameKey U ∧ Denied U clients (e.nameKey U) ∧
      WordWithin U U.fold k'.toList k.toList
  /-- a key that leads to a denied name is, or has within it, a key of an entry of that name that is
      not CLEARED -/
  only : ∀ k w, owner U clients k = some w → Denied U clients (w.nameKey U) →
    ∃ e ∈ clients, ¬ e.isCleared ∧ e.nameKey U = w.nameKey U ∧
      ∃ k' ∈ e.listed U, WordWithin U U.fold k'.toList k.toList
  /-- entries of one denied name write it alike, up to letter case -/
  once : ∀ k k' w w', owner U clients k = some w → owner U clients k' = some w' →
    w.nameKey U = w'.nameKey U → Denied U clients (w.nameKey U) →
    lowered U w.name = lowered U w'.name

/-- A cleared name has a cleared owner. -/
theorem clearanceAllowed_iff : clearanceAllowed U (loadRegister U clients) name = true ↔
    stripped name ≠ "" ∧ ∃ w, owner U clients (lowered U (stripped name)) = some w ∧
      w.isCleared := by
  unfold clearanceAllowed
  rw [find_loadRegister]
  cases owner U clients (lowered U (stripped name)) with
  | none => simp
  | some w => simp [ClientEntry.isCleared]

/-- The name of an owner is denied exactly where the check of it says so. -/
theorem denied_iff (h : owner U clients k = some w) :
    clearanceAllowed U (loadRegister U clients) w.name = false ↔
      Denied U clients (w.nameKey U) := by
  obtain ⟨hmem, hname, -⟩ := owner_some h
  obtain ⟨v, hv⟩ := owner_nameKey (U := U) hmem hname
  have hv' : owner U clients (lowered U (stripped w.name)) = some v := hv
  rw [← Bool.not_eq_true, clearanceAllowed_iff, Denied, hv, hv']
  simp [hname]

theorem mem_registeredNames : k ∈ registeredNames (loadRegister U clients) ↔
    ∃ w, owner U clients k = some w := by
  rw [registeredNames, List.mem_insertionSort, ← find_loadRegister, Register.find]
  simp only [List.mem_map, Option.map_eq_some_iff, exists_comm (α := ClientEntry)]
  constructor
  · rintro ⟨kv, hkv, rfl⟩
    have hsome : (List.find? (fun x => x.1 == kv.1) (loadRegister U clients)).isSome = true :=
      List.find?_isSome.2 ⟨kv, hkv, by simp⟩
    obtain ⟨x, hx⟩ := Option.isSome_iff_exists.1 hsome
    exact ⟨x, x.2, hx, rfl⟩
  · rintro ⟨kv, w, hfind, -⟩
    exact ⟨kv, List.mem_of_find?_eq_some hfind, by simpa using List.find?_some hfind⟩

theorem canonical_of_owner (h : owner U clients k = some w) :
    canonical (loadRegister U clients) k = w.name := by
  rw [canonical, find_loadRegister, h]
  rfl

/-- The search of a text, in terms of the owners of the keys that the text carries. -/
theorem reported_spec (U : Unicode) (clients : List ClientEntry) (text : String) :
    ∃ raw : List String, findUnclearedInText U (loadRegister U clients) text = raw.map stripped ∧
      (raw.map (lowered U)).Nodup ∧
      (∀ c ∈ raw, ∃ k w, owner U clients k = some w ∧ w.name = c ∧ Carried U k text ∧
        Denied U clients (w.nameKey U)) ∧
      ∀ k w, owner U clients k = some w → Carried U k text → Denied U clients (w.nameKey U) →
        ∃ c ∈ raw, lowered U c = lowered U w.name := by
  obtain ⟨raw, heq, hnodup, hraw, hall⟩ := @unclearedAmong_spec U (loadRegister U clients) text
    (registeredNames (loadRegister U clients)) []
  refine ⟨raw, heq, hnodup, ?_, ?_⟩
  · intro c hc
    obtain ⟨-, k, hk, hcarried, hcanonical, hdenied⟩ := hraw c hc
    obtain ⟨w, hw⟩ := mem_registeredNames.1 hk
    rw [canonical_of_owner hw] at hcanonical
    subst hcanonical
    exact ⟨k, w, hw, rfl, hcarried, (denied_iff hw).1 hdenied⟩
  · intro k w hw hcarried hdenied
    have hcanonical := canonical_of_owner hw
    rcases hall k (mem_registeredNames.2 ⟨w, hw⟩) hcarried
      (hcanonical ▸ (denied_iff hw).2 hdenied) with hseen | ⟨c, hc, hlower⟩
    · cases hseen
    · exact ⟨c, hc, hcanonical ▸ hlower⟩

/-- Names that are equal in lower case are equal in lower case without the blanks around them. -/
theorem lowered_stripped (hU : CharacterLaws U) (s : String) :
    lowered U (stripped s) = stripped (lowered U s) := by
  simp [lowered, stripped, hU.lower_strip]

/-- A name that a text reports, in terms of owners. -/
theorem mem_reported_iff (hU : CharacterLaws U) {n : String} :
    n ∈ (findUnclearedInText U (loadRegister U clients) text).map (lowered U) ↔
      ∃ k w, owner U clients k = some w ∧ w.nameKey U = n ∧ Carried U k text ∧
        Denied U clients n := by
  obtain ⟨raw, heq, -, hraw, hall⟩ := reported_spec U clients text
  rw [heq, List.map_map, List.mem_map]
  constructor
  · rintro ⟨c, hc, rfl⟩
    obtain ⟨k, w, hw, rfl, hcarried, hdenied⟩ := hraw c hc
    exact ⟨k, w, hw, rfl, hcarried, hdenied⟩
  · rintro ⟨k, w, hw, rfl, hcarried, hdenied⟩
    obtain ⟨c, hc, hlower⟩ := hall k w hw hcarried hdenied
    refine ⟨c, hc, ?_⟩
    show lowered U (stripped c) = lowered U (stripped w.name)
    rw [lowered_stripped hU, lowered_stripped hU, hlower]

/-- A key stands in any letter case of itself. -/
theorem carried_of_fold {s : List Char} (h : s.map U.fold = k.toList.map U.fold) :
    Carried U k (String.ofList s) := by
  rw [Carried, String.toList_ofList]
  exact ⟨[], s, [], by simp, h, by simp [noWord], by simp [noWord]⟩

/-- Some text carries the key, and no key that is not within it. -/
theorem exists_text (U : Unicode) (k : String) : ∃ text, Carried U k text ∧
    ∀ k', Carried U k' text → WordWithin U U.fold k'.toList k.toList := by
  obtain ⟨s, hs, hworst⟩ := exists_worst_case U U.fold k.toList
  refine ⟨String.ofList s, carried_of_fold hs, fun k' hk' => hworst _ ?_⟩
  rwa [Carried, String.toList_ofList] at hk'

/-- Two keys side by side. -/
theorem exists_text_of_two (hU : CharacterLaws U) (k k' : String) :
    ∃ text, Carried U k text ∧ Carried U k' text := by
  refine ⟨String.ofList (k.toList ++ ' ' :: k'.toList), ?_, ?_⟩
  · rw [Carried, String.toList_ofList]
    exact ⟨[], k.toList, ' ' :: k'.toList, by simp, rfl, by simp [noWord],
      by simp [noWord, hU.blank]⟩
  · rw [Carried, String.toList_ofList]
    exact ⟨k.toList ++ [' '], k'.toList, [], by simp, rfl, by simp [noWord, hU.blank],
      by simp [noWord]⟩

/-! ## When the register is default deny -/

theorem DefaultDeny.unambiguous (hU : CharacterLaws U) (h : DefaultDeny U clients) :
    Unambiguous U clients where
  uncleared := by
    intro e he hnot k hk w hw hcleared
    obtain ⟨s, -, hname, rfl⟩ := mem_keysOf.1 hk
    have hallowed := clearanceAllowed_iff.2 ⟨hname, w, hw, hcleared⟩
    exact hnot ((h.allowed s hallowed).2 e he hk)
  found := by
    intro e he hnot k hk
    obtain ⟨text, hcarried, hwithin⟩ := exists_text U k
    have hmem := (h.reported text (e.nameKey U)).2 ⟨e, he, hnot, rfl, k, hk, hcarried⟩
    obtain ⟨k', w, hw, hname, hcarried', hdenied⟩ := (mem_reported_iff hU).1 hmem
    exact ⟨k', w, hw, hname, hdenied, hwithin k' hcarried'⟩
  only := by
    intro k w hw hdenied
    obtain ⟨text, hcarried, hwithin⟩ := exists_text U k
    have hmem := (mem_reported_iff hU).2 ⟨k, w, hw, rfl, hcarried, hdenied⟩
    obtain ⟨e, he, hnot, hname, k', hk', hcarried'⟩ := (h.reported text _).1 hmem
    exact ⟨e, he, hnot, hname, k', hk', hwithin k' hcarried'⟩
  once := by
    intro k k' w w' hw hw' hname hdenied
    obtain ⟨text, hcarried, hcarried'⟩ := exists_text_of_two hU k k'
    obtain ⟨raw, heq, -, -, hall⟩ := reported_spec U clients text
    obtain ⟨c, hc, hlower⟩ := hall k w hw hcarried hdenied
    obtain ⟨c', hc', hlower'⟩ := hall k' w' hw' hcarried' (hname ▸ hdenied)
    have hnodup := h.once text
    rw [heq, List.map_map] at hnodup
    -- both reports have the one name
    have hsame : lowered U (stripped c) = lowered U (stripped c') := by
      rw [lowered_stripped hU, lowered_stripped hU, hlower, hlower', ← lowered_stripped hU,
        ← lowered_stripped hU]
      exact hname
    have hcc := List.inj_on_of_nodup_map hnodup hc hc' hsame
    rw [← hlower, ← hlower', hcc]

theorem Unambiguous.defaultDeny (hU : CharacterLaws U) (h : Unambiguous U clients) :
    DefaultDeny U clients where
  allowed := by
    intro name hallowed
    obtain ⟨-, w, hw, hcleared⟩ := clearanceAllowed_iff.1 hallowed
    obtain ⟨hmem, -, hlisted⟩ := owner_some hw
    refine ⟨⟨w, hmem, hlisted⟩, fun e he hlists => ?_⟩
    by_contra hnot
    exact h.uncleared e he hnot _ hlists w hw hcleared
  reported := by
    intro text n
    rw [mem_reported_iff hU]
    constructor
    · rintro ⟨k, w, hw, rfl, hcarried, hdenied⟩
      obtain ⟨e, he, hnot, hname, k', hk', hwithin⟩ := h.only k w hw hdenied
      exact ⟨e, he, hnot, hname, k', hk', hwithin.wordIn hcarried⟩
    · rintro ⟨e, he, hnot, rfl, k, hk, hcarried⟩
      obtain ⟨k', w, hw, hname, hdenied, hwithin⟩ := h.found e he hnot k hk
      exact ⟨k', w, hw, hname, hwithin.wordIn hcarried, hdenied⟩
  once := by
    intro text
    obtain ⟨raw, heq, hnodup, hraw, -⟩ := reported_spec U clients text
    rw [heq, List.map_map]
    refine List.Nodup.map_on ?_ (List.Nodup.of_map _ hnodup)
    intro c hc c' hc' hsame
    obtain ⟨k, w, hw, rfl, -, hdenied⟩ := hraw c hc
    obtain ⟨k', w', hw', rfl, -, -⟩ := hraw c' hc'
    exact List.inj_on_of_nodup_map hnodup hc hc' (h.once k k' w w' hw hw' hsame hdenied)

/-- The register is default deny exactly where no collision of its names and aliases hides an entry
    that is not CLEARED. -/
theorem defaultDeny_iff (U : Unicode) (hU : CharacterLaws U) (clients : List ClientEntry) :
    DefaultDeny U clients ↔ Unambiguous U clients :=
  ⟨fun h => h.unambiguous hU, fun h => h.defaultDeny hU⟩

/-- Rotork is in the register once, and not CLEARED. -/
def rotork : ClientEntry := ⟨"Rotork", [], "UNCLEARED"⟩

theorem rotork_unambiguous : Unambiguous Unicode.ascii [rotork] := by
  have howner : ∀ {k w}, owner Unicode.ascii [rotork] k = some w → w = rotork ∧ k = "rotork" := by
    intro k w hw
    obtain ⟨hmem, -, hk⟩ := owner_some hw
    obtain rfl := List.mem_singleton.1 hmem
    have hlisted : rotork.listed Unicode.ascii = ["rotork"] := by decide +kernel
    rw [hlisted] at hk
    exact ⟨rfl, List.mem_singleton.1 hk⟩
  have hself : owner Unicode.ascii [rotork] "rotork" = some rotork := by decide +kernel
  have hkey : rotork.nameKey Unicode.ascii = "rotork" := by decide +kernel
  have hnot : ¬ rotork.isCleared := by decide +kernel
  have hlisted : "rotork" ∈ rotork.listed Unicode.ascii := by decide +kernel
  have hwithin : ∀ k : String, WordWithin Unicode.ascii Unicode.ascii.fold k.toList k.toList :=
    fun k => ⟨[], k.toList, [], by simp, rfl, by simp [neverWord], by simp [neverWord]⟩
  constructor
  · intro e he _ k _ w hw
    rw [(howner hw).1]
    exact hnot
  · intro e he _ k hk
    obtain rfl := List.mem_singleton.1 he
    exact ⟨"rotork", rotork, hself, rfl, ⟨rotork, by rw [hkey]; exact hself, hnot⟩, by
      have hkeys : rotork.listed Unicode.ascii = ["rotork"] := by decide +kernel
      rw [hkeys] at hk
      rw [List.mem_singleton.1 hk]
      exact hwithin _⟩
  · intro k w hw _
    obtain ⟨rfl, rfl⟩ := howner hw
    exact ⟨rotork, List.mem_cons_self, hnot, rfl, "rotork", hlisted, hwithin _⟩
  · intro k k' w w' hw hw' _ _
    rw [(howner hw).1, (howner hw').1]

/-- White space has no letter case in ASCII. -/
theorem isSpace_lowerChar (c : Char) : isSpace (lowerChar c) = isSpace c := by
  by_cases hc : c.toNat < 128
  · have hall : ∀ n < 128, isSpace (lowerChar (Char.ofNat n)) = isSpace (Char.ofNat n) := by decide
    have hchar := hall c.toNat hc
    rwa [Char.ofNat_toNat] at hchar
  · have hupper : ¬ ('A' ≤ c ∧ c ≤ 'Z') := fun h => hc (Nat.lt_of_le_of_lt h.2 (by decide))
    unfold lowerChar
    rw [if_neg hupper]
    split
    · next hkelvin =>
      have hfalse : isSpace c = false := by
        unfold isSpace
        rw [hkelvin]
        decide
      rw [hfalse]
      decide
    · rfl

theorem asciiLaws : CharacterLaws Unicode.ascii where
  lower_strip s := by
    show (strip s).map lowerChar = strip (s.map lowerChar)
    have hspace : isSpace ∘ lowerChar = isSpace := funext isSpace_lowerChar
    simp [strip, List.dropWhile_map, ← List.map_reverse, hspace]
  blank := by decide

theorem rotork_denied : DefaultDeny Unicode.ascii [rotork] :=
  (defaultDeny_iff Unicode.ascii asciiLaws [rotork]).2 rotork_unambiguous

/-- A second entry for Rotork, CLEARED, and an alias that Imperial shares with a CLEARED entry. -/
def collisions : List ClientEntry :=
  [rotork, ⟨"Rotork", [], "CLEARED"⟩, ⟨"Delta", ["Imperial Group"], "CLEARED"⟩,
    ⟨"Imperial", ["Imperial Group", "ILG"], "UNCLEARED"⟩]

/-- Both names are allowed, and a text that uses Rotork's is not reported. -/
theorem collisions_allowed : ¬ DefaultDeny Unicode.ascii collisions ∧
    clearanceAllowed Unicode.ascii (loadRegister Unicode.ascii collisions) "Rotork" = true ∧
    clearanceAllowed Unicode.ascii (loadRegister Unicode.ascii collisions) "Imperial Group" = true ∧
    findUnclearedInText Unicode.ascii (loadRegister Unicode.ascii collisions)
      "How Rotork closes its month" = [] := by
  have hallowed : clearanceAllowed Unicode.ascii (loadRegister Unicode.ascii collisions) "Rotork" =
    true := by decide +kernel
  refine ⟨fun h => ?_, hallowed, by decide +kernel, by decide +kernel⟩
  have hcleared := (h.allowed "Rotork" hallowed).2 rotork List.mem_cons_self (by decide +kernel)
  exact absurd hcleared (by decide +kernel)

end CanvasOS.Review
