/-
  `dedupe.py` — one card for each story that the scanners found.

  1. `cardIdentity`, `dedupeCards` — `_card_identity` and the one pass of `_dedupe_cards`.
  2. `entries` — the output entry that each card is counted in.
  3. `Mirrors` — the two dictionaries of the loop are the key table of `Merge.Pass`, so that the
     entries are its places.
  4. `mergesCompletely_iff` — the entries are the chains of shared keys exactly where every card
     shares a key with the first card of its chain: a merged card's other key is not registered.
-/
import CanvasOS.Lib.Merge
import CanvasOS.Lib.Text
import CanvasOS.Lib.Format
import Mathlib.Algebra.BigOperators.Group.List.Basic
import Mathlib.Algebra.Ring.Nat

namespace CanvasOS.Dispatch

open Python Merge

/-! ## The batches -/

/-- A card of a scanner, as the model sent it. -/
abbrev ScanCard := List (String × Json)

/-- `batch["payload"]`, as far as its cards go. -/
structure ScanPayload where
  signals : Option (List ScanCard)
  cards : Option (List ScanCard)

/-- A scanner's batch. -/
structure ScanBatch where
  profileId : String
  payload : ScanPayload

/-- `_batch_items`: function 09 says `signals`, the scanners say `cards`. -/
def batchItems (payload : ScanPayload) : List ScanCard := (payload.signals.or payload.cards).getD []

/-! ## `_card_identity` -/

/-- `s.rstrip("/")`. -/
def rstripSlash (s : List Char) : List Char := (s.reverse.dropWhile (· == '/')).reverse

/-- `s.split()`. -/
def splitWhite (s : List Char) : List (List Char) :=
  (s.splitOnP isSpace).filter fun word => word ≠ []

/-- `_card_identity`: the normalised URL and the normalised headline. -/
def cardIdentity (U : Unicode) (card : ScanCard) : String × String :=
  let url := pyStr ((Json.lookup card "source_url").getD (.str ""))
  let headline := pyStr ((Json.lookup card "headline").getD (.str ""))
  (String.ofList (rstripSlash (U.lower (strip url.toList))),
    join " " ((splitWhite (U.lower headline.toList)).map String.ofList))

/-! ## `_dedupe_cards` -/

/-- An entry of the output: a card, with `seen_by` and `profiles`. -/
structure MergedCard where
  card : ScanCard
  seenBy : Nat
  profiles : List String
deriving DecidableEq

/-- `merged`, `urls` and `headlines`.  The latest entry under a key stands first. -/
structure Merging where
  merged : List MergedCard
  urls : List (String × Nat)
  headlines : List (String × Nat)

/-- The entry that already tells the card's story: by its URL, else by its headline. -/
def Merging.index (U : Unicode) (m : Merging) (card : ScanCard) : Option Nat :=
  let (url, headline) := cardIdentity U card
  (if url = "" then none else m.urls.lookup url).or
    (if headline = "" then none else m.headlines.lookup headline)

/-- One more scanner saw the story. -/
def MergedCard.seenAgain (profileId : String) (existing : MergedCard) : MergedCard :=
  { existing with
    seenBy := existing.seenBy + 1
    profiles := if profileId ∈ existing.profiles then existing.profiles
      else existing.profiles ++ [profileId] }

/-- The body of the loop. -/
def Merging.add (U : Unicode) (m : Merging) (arrival : String × ScanCard) : Merging :=
  match m.index U arrival.2 with
  | some index => { m with merged := m.merged.modify index (MergedCard.seenAgain arrival.1) }
  | none =>
    let (url, headline) := cardIdentity U arrival.2
    { merged := m.merged ++ [⟨arrival.2, 1, [arrival.1]⟩]
      urls := if url = "" then m.urls else (url, m.merged.length) :: m.urls
      headlines :=
        if headline = "" then m.headlines else (headline, m.merged.length) :: m.headlines }

/-- The cards in the order in which the loops meet them. -/
def arrivals (batches : List ScanBatch) : List (String × ScanCard) :=
  batches.flatMap fun batch => (batchItems batch.payload).map fun card => (batch.profileId, card)

/-- The loop, over some cards. -/
def Merging.run (U : Unicode) (m : Merging) (cards : List (String × ScanCard)) : Merging :=
  cards.foldl (Merging.add U) m

/-- `_dedupe_cards`. -/
def dedupeCards (U : Unicode) (batches : List ScanBatch) : List MergedCard :=
  (Merging.run U ⟨[], [], []⟩ (arrivals batches)).merged

/-- The entries that the cards are counted in, from a state of the loop on. -/
def entriesFrom (U : Unicode) : Merging → List (String × ScanCard) → List Nat
  | _, [] => []
  | m, arrival :: rest =>
    (m.index U arrival.2).getD m.merged.length :: entriesFrom U (m.add U arrival) rest

/-- The output entry that each card is counted in. -/
def entries (U : Unicode) (batches : List ScanBatch) : List Nat :=
  entriesFrom U ⟨[], [], []⟩ (arrivals batches)

/-! ## What it is for -/

/-- The keys of a card's story: its URL and its headline, where it has them. -/
def storyKeys (U : Unicode) (arrival : String × ScanCard) : List (String ⊕ String) :=
  let (url, headline) := cardIdentity U arrival.2
  (if url = "" then [] else [.inl url]) ++ (if headline = "" then [] else [.inr headline])

/-- The cards at the two positions tell one story: they share a URL or a headline, directly or
    through a chain of other cards. -/
abbrev SameStory (U : Unicode) (batches : List ScanBatch) : Nat → Nat → Prop :=
  Chain (storyKeys U) (arrivals batches)

/-- `_dedupe_cards` merges completely and loses nothing. -/
structure MergesCompletely (U : Unicode) (batches : List ScanBatch) : Prop where
  /-- two cards are in one entry exactly if they tell one story -/
  together : ∀ i j n m, (entries U batches)[i]? = some n → (entries U batches)[j]? = some m →
    (SameStory U batches i j ↔ n = m)
  /-- every card is counted in an entry, and the counts add up to the cards -/
  counted : (entries U batches).length = (arrivals batches).length ∧
    (∀ n ∈ entries U batches, n < (dedupeCards U batches).length) ∧
    ((dedupeCards U batches).map MergedCard.seenBy).sum = (arrivals batches).length
  /-- an entry carries the card that came first, and how many cards are in it -/
  carried : ∀ n entry, (dedupeCards U batches)[n]? = some entry → ∃ i arrival,
    (arrivals batches)[i]? = some arrival ∧ Founds (entries U batches) i n ∧
      entry.card = arrival.2 ∧ entry.seenBy = (entries U batches).count n
  /-- the entries keep the order of first appearance -/
  ordered : ∀ i j n m, Founds (entries U batches) i n → Founds (entries U batches) j m →
    i < j → n < m

/-! ## The loop as a pass over keys -/

variable {U : Unicode} {m : Merging} {p : Pass (String ⊕ String)} {batches : List ScanBatch}
  {arrival : String × ScanCard} {cards : List (String × ScanCard)} {ns : List Nat} {n : Nat}

/-- The dictionaries of the loop are the key table of the pass. -/
structure Mirrors (m : Merging) (p : Pass (String ⊕ String)) : Prop where
  size : p.size = m.merged.length
  urls : ∀ url, p.index (.inl url) = m.urls.lookup url
  headlines : ∀ headline, p.index (.inr headline) = m.headlines.lookup headline

/-- Both find the same entry. -/
theorem Mirrors.find_eq (h : Mirrors m p) : p.find (storyKeys U) arrival = m.index U arrival.2 := by
  unfold Pass.find storyKeys Merging.index
  generalize cardIdentity U arrival.2 = identity
  obtain ⟨url, headline⟩ := identity
  by_cases hurl : url = ""
  · by_cases hheadline : headline = ""
    · simp [hurl, hheadline]
    · simp [hurl, hheadline, h.headlines]
  · by_cases hheadline : headline = ""
    · cases hlookup : m.urls.lookup url <;> simp [hurl, hheadline, h.urls, hlookup]
    · cases hlookup : m.urls.lookup url <;>
        simp [hurl, hheadline, h.urls, h.headlines, hlookup]

/-- One card keeps the mirror. -/
theorem Mirrors.add (h : Mirrors m p) :
    Mirrors (m.add U arrival) (p.add (storyKeys U) arrival) := by
  unfold Merging.add Pass.add
  rw [h.find_eq]
  cases hindex : m.index U arrival.2 with
  | some index => exact ⟨by simpa using h.size, h.urls, h.headlines⟩
  | none =>
    unfold storyKeys
    generalize cardIdentity U arrival.2 = identity
    obtain ⟨url, headline⟩ := identity
    refine ⟨by simp [h.size], fun url' => ?_, fun headline' => ?_⟩
    · by_cases hurl : url = ""
      · by_cases hheadline : headline = "" <;> simp [hurl, hheadline, h.urls]
      · by_cases heq : url' = url
        · simp [hurl, heq, h.size]
        · have hne : (url' == url) = false := by simpa using heq
          by_cases hheadline : headline = "" <;>
            simp [hurl, hheadline, heq, hne, List.lookup_cons, h.urls]
    · by_cases hheadline : headline = ""
      · by_cases hurl : url = "" <;> simp [hurl, hheadline, h.headlines]
      · by_cases heq : headline' = headline
        · simp [hheadline, heq, h.size]
        · have hne : (headline' == headline) = false := by simpa using heq
          by_cases hurl : url = "" <;>
            simp [hurl, hheadline, heq, hne, List.lookup_cons, h.headlines]

theorem Mirrors.run (h : Mirrors m p) :
    Mirrors (m.run U cards) (p.run (storyKeys U) cards) := by
  induction cards generalizing m p with
  | nil => exact h
  | cons arrival cards ih => exact ih h.add

/-- The entries of the cards are the places of the pass. -/
theorem Mirrors.entriesFrom_eq (h : Mirrors m p) :
    entriesFrom U m cards = placesFrom (storyKeys U) p cards := by
  induction cards generalizing m p with
  | nil => rfl
  | cons arrival cards ih =>
    rw [entriesFrom, placesFrom, ih h.add, Pass.place, h.find_eq, h.size]

theorem mirrors_empty : Mirrors ⟨[], [], []⟩ Pass.empty := ⟨rfl, fun _ => rfl, fun _ => rfl⟩

theorem entries_eq : entries U batches = places (storyKeys U) (arrivals batches) :=
  mirrors_empty.entriesFrom_eq

/-! ## What the entries carry -/

/-- The entries `merged` are what the cards have made of the places `ns`. -/
structure Filled (cards : List (String × ScanCard)) (merged : List MergedCard) (ns : List Nat) :
    Prop where
  entry : ∀ n e, merged[n]? = some e → ∃ i arrival, cards[i]? = some arrival ∧ Founds ns i n ∧
    e.card = arrival.2 ∧ e.seenBy = ns.count n
  sum : (merged.map MergedCard.seenBy).sum = ns.length

/-- Raising one summand by one. -/
theorem sum_modify {merged : List MergedCard} {profileId : String} (h : n < merged.length) :
    ((merged.modify n (MergedCard.seenAgain profileId)).map MergedCard.seenBy).sum =
      (merged.map MergedCard.seenBy).sum + 1 := by
  induction merged generalizing n with
  | nil => cases h
  | cons e merged ih =>
    cases n with
    | zero =>
      simp only [List.modify_zero_cons, List.map_cons, List.sum_cons, MergedCard.seenAgain]
      omega
    | succ n =>
      have hlt : n < merged.length := Nat.lt_of_succ_lt_succ h
      simp only [List.modify_succ_cons, List.map_cons, List.sum_cons, ih hlt]
      omega

/-- A card that is counted in an entry. -/
theorem Filled.join {merged : List MergedCard} (h : Filled cards merged ns) (hn : n ∈ ns)
    (hlt : n < merged.length) : Filled (cards ++ [arrival])
      (merged.modify n (MergedCard.seenAgain arrival.1)) (ns ++ [n]) where
  entry k e he := by
    rw [List.getElem?_modify, Option.map_eq_map, Option.map_eq_some_iff] at he
    obtain ⟨old, hold, rfl⟩ := he
    obtain ⟨i, first, hfirst, hfounds, hcard, hseen⟩ := h.entry k old hold
    refine ⟨i, first, getElem?_append_singleton.2 (.inl hfirst),
      (founds_append_of_mem hn).2 hfounds, ?_, ?_⟩
    · split
      · exact hcard
      · exact hcard
    · rw [List.count_append, List.count_singleton]
      by_cases hnk : n = k
      · simp [hnk, MergedCard.seenAgain, hseen]
      · simp [hnk, hseen]
  sum := by
    rw [sum_modify hlt, h.sum, List.length_append, List.length_singleton]

/-- A card that opens an entry. -/
theorem Filled.opening {merged : List MergedCard} (h : Filled cards merged ns)
    (hlength : ns.length = cards.length) (hnew : merged.length ∉ ns) :
    Filled (cards ++ [arrival]) (merged ++ [⟨arrival.2, 1, [arrival.1]⟩])
      (ns ++ [merged.length]) where
  entry k e he := by
    rcases getElem?_append_singleton.1 he with hold | ⟨rfl, rfl⟩
    · obtain ⟨i, first, hfirst, hfounds, hcard, hseen⟩ := h.entry k e hold
      have hne : merged.length ≠ k := fun heq => hnew (heq ▸ hfounds.mem)
      refine ⟨i, first, getElem?_append_singleton.2 (.inl hfirst), founds_append.2 (.inl hfounds),
        hcard, ?_⟩
      rw [List.count_append, List.count_singleton]
      simp [hne, hseen]
    · refine ⟨cards.length, arrival, getElem?_append_singleton.2 (.inr ⟨rfl, rfl⟩),
        founds_append.2 (.inr ⟨hlength.symm, rfl, hnew⟩), rfl, ?_⟩
      rw [List.count_append, List.count_eq_zero_of_not_mem hnew, List.count_singleton_self]
  sum := by
    rw [List.map_append, List.sum_append, h.sum]
    simp

/-- The output carries what the cards have made of the places. -/
theorem filled (cards : List (String × ScanCard)) :
    Filled cards (Merging.run U ⟨[], [], []⟩ cards).merged (places (storyKeys U) cards) := by
  induction cards using List.reverseRecOn with
  | nil => exact ⟨fun n e he => (nomatch he), rfl⟩
  | append_singleton cards arrival ih =>
    have hmirror : Mirrors (Merging.run U ⟨[], [], []⟩ cards)
        (Pass.empty.run (storyKeys U) cards) := mirrors_empty.run
    have hfounded := founded (storyKeys U) cards
    rw [places, placesFrom_append_singleton, Pass.place, hmirror.find_eq, hmirror.size,
      Merging.run, List.foldl_concat, ← Merging.run, Merging.add]
    cases hindex : (Merging.run U ⟨[], [], []⟩ cards).index U arrival.2 with
    | some n =>
      have hmem : n ∈ places (storyKeys U) cards := by
        obtain ⟨k, -, hk⟩ := List.exists_of_findSome?_eq_some (hmirror.find_eq.trans hindex)
        obtain ⟨i, x, -, hfounds, -⟩ := (hfounded.index k n).1 hk
        exact hfounds.mem
      exact ih.join hmem (hmirror.size ▸ (hfounded.size n).1 hmem)
    | none =>
      refine ih.opening hfounded.length fun hmem => ?_
      rw [← hmirror.size] at hmem
      exact Nat.lt_irrefl _ ((hfounded.size _).1 hmem)

/-! ## The claim of the docstring -/

/-- `_dedupe_cards` merges completely exactly where every card shares its URL or its headline with
    the first card of its own story.  A chain that goes through a merged card is cut: what the
    merged card brings as its other key is not registered, and a card that belongs to two entries
    joins one of them only. -/
theorem mergesCompletely_iff (U : Unicode) (batches : List ScanBatch) :
    MergesCompletely U batches ↔ ∀ i j, j < (arrivals batches).length →
      FirstOf (storyKeys U) (arrivals batches) i j →
      i = j ∨ SharesAt (storyKeys U) (arrivals batches) i j := by
  have hfounded := founded (storyKeys U) (arrivals batches)
  have hfilled := filled (U := U) (arrivals batches)
  rw [← hfounded.places_iff]
  constructor
  · intro h
    rw [← entries_eq]
    exact h.together
  · intro h
    rw [← entries_eq] at h hfounded hfilled
    have hmirror : Mirrors (Merging.run U ⟨[], [], []⟩ (arrivals batches))
        (Pass.empty.run (storyKeys U) (arrivals batches)) := mirrors_empty.run
    exact {
      together := h
      counted := ⟨hfounded.length, fun n hn => hmirror.size ▸ (hfounded.size n).1 hn,
        hfilled.sum.trans hfounded.length⟩
      carried := hfilled.entry
      ordered := hfounded.order }

/-- A card as a scanner sends it. -/
def scanCard (url headline : String) : ScanCard :=
  [("source_url", .str url), ("headline", .str headline)]

/-- One article under two headlines, and the second headline from another publication. -/
def retold : List (String × ScanCard) :=
  [("competitor-watch", scanCard "https://a.example/1" "Rival cuts price"),
    ("pricing-watch", scanCard "https://A.example/1/" "Price war begins"),
    ("press-watch", scanCard "https://b.example/9" "price  war begins")]

/-- The batches of the three scanners. -/
def retoldBatches : List ScanBatch :=
  retold.map fun arrival => ⟨arrival.1, ⟨none, some [arrival.2]⟩⟩

/-- The third card shares its headline with the second, which was merged into the first by its URL:
    one story, two entries. -/
theorem retold_split : ¬ MergesCompletely Unicode.ascii retoldBatches := by
  intro h
  have hkeys : retold.map (storyKeys Unicode.ascii) =
      [[.inl "https://a.example/1", .inr "rival cuts price"],
        [.inl "https://a.example/1", .inr "price war begins"],
        [.inl "https://b.example/9", .inr "price war begins"]] := by decide +kernel
  have hkey : ∀ (i : Nat) x ks, retold[i]? = some x →
      (retold.map (storyKeys Unicode.ascii))[i]? = some ks → storyKeys Unicode.ascii x = ks := by
    intro i x ks hx hks
    rw [List.getElem?_map, hx] at hks
    exact Option.some.inj hks
  rw [hkeys] at hkey
  have hfirst : SharesAt (storyKeys Unicode.ascii) (arrivals retoldBatches) 0 1 :=
    ⟨_, _, rfl, rfl, .inl "https://a.example/1", by rw [hkey 0 _ _ rfl rfl]; simp,
      by rw [hkey 1 _ _ rfl rfl]; simp⟩
  have hsecond : SharesAt (storyKeys Unicode.ascii) (arrivals retoldBatches) 1 2 :=
    ⟨_, _, rfl, rfl, .inr "price war begins", by rw [hkey 1 _ _ rfl rfl]; simp,
      by rw [hkey 2 _ _ rfl rfl]; simp⟩
  have hsame : SameStory Unicode.ascii retoldBatches 0 2 := .head hfirst (.single hsecond)
  have hentries : entries Unicode.ascii retoldBatches = [0, 0, 1] := by decide +kernel
  have heq := (h.together 0 2 0 1 (by rw [hentries]; rfl) (by rw [hentries]; rfl)).1 hsame
  cases heq

end CanvasOS.Dispatch
