/-
  The brief and its ranking: what `_render_brief` lists, against what the policy selected.

  1. `ShowsSelected` — the brief lists the selected signals in ranked order and counts the others.
  2. `UrlsApart` — what that takes of the batch: signals of one URL stand together in the ranking,
     in the order of the batch, and are selected or held back together.
  3. `joined_iff` — the sort and the filter join by URL; `Stable.filter_insertionSort_eq_iff` says
     when the result is the selected items.
  4. `showsSelected_iff` — the one holds exactly where the other does.
-/
import CanvasOS.Signals.Ranking

namespace CanvasOS.Signals

open Python Stable

variable {F : Type}

/-! ## The purpose -/

/-- The item is selected. -/
def RankedItem.isSelected (item : RankedItem F) : Bool := item.selected == some true

/-- `opportunity_card_ids`: score-signals creates the cards in ranked order.  `cardId` gives the id
    of the card of the signal at a position. -/
def opportunityCardIds (cardId : Nat → String) (ranking : List (RankedItem F)) : List String :=
  ranking.map fun item => cardId item.position

/-- `_lead_opportunity_card_id`. -/
def leadOpportunityCardId (cardIds : List String) : Option String := cardIds.head?

/-- The positions in the batch of the signals that the brief lists. -/
def shownPositions (signals : List BriefSignal) (ranking : List (RankedItem F)) : List Nat :=
  (briefSignals (fun x : BriefSignal × Nat => x.1.sourceUrl) signals.zipIdx ranking).1.map (·.2)

/-- The brief shows exactly the selected signals in ranked order. -/
structure ShowsSelected [LinearOrder F] (A : Arithmetic F) (policy : ScoringPolicy F)
    (signals : List BriefSignal) : Prop where
  /-- the ranking is a permutation of the batch -/
  permuted : ((rankSignals A policy signals).map (·.position)).Perm (List.range signals.length)
  items : ∀ item ∈ rankSignals A policy signals, ∃ signal, signals[item.position]? = some signal ∧
    item = { rankedItem A policy signal item.position with selected := item.selected }
  /-- by descending score, with ties in input order -/
  sorted : (rankSignals A policy signals).Pairwise fun a b =>
    b.score < a.score ∨ (a.score = b.score ∧ a.position < b.position)
  /-- the selected items are a prefix of it -/
  chosen : ∃ s ≤ signals.length, (∀ n ∈ policy.topN, s ≤ n) ∧ (signals ≠ [] → 1 ≤ s) ∧
    ∀ i item, (rankSignals A policy signals)[i]? = some item → (item.isSelected = true ↔ i < s)
  /-- the brief lists the signals whose own items are selected, in ranked order -/
  shown : shownPositions signals (rankSignals A policy signals) =
    ((rankSignals A policy signals).filter (·.isSelected)).map (·.position)
  listed : (briefSignals BriefSignal.sourceUrl signals (rankSignals A policy signals)).1 =
    ((rankSignals A policy signals).filter (·.isSelected)).filterMap fun item =>
      signals[item.position]?
  /-- it reports the number of the others -/
  heldBack : (briefSignals BriefSignal.sourceUrl signals (rankSignals A policy signals)).2 =
    ((rankSignals A policy signals).filter fun item => !item.isSelected).length
  /-- it leads with the signal of the first opportunity card -/
  leads : ∀ cardId : Nat → String,
    leadOpportunityCardId (opportunityCardIds cardId (rankSignals A policy signals)) =
      (shownPositions signals (rankSignals A policy signals)).head?.map cardId

/-- The signals of one URL keep together. -/
structure UrlsApart (ranking : List (RankedItem F)) : Prop where
  /-- no signal is held back whose URL a selected one has -/
  selected : ∀ a ∈ ranking, ∀ b ∈ ranking, a.isSelected = true → b.isSelected = false →
    a.sourceUrl ≠ b.sourceUrl
  /-- between two selected signals of one URL there are only signals of that URL -/
  together : ∀ (i j k : Nat) (a b c : RankedItem F), ranking[i]? = some a → ranking[j]? = some b →
    ranking[k]? = some c → i < j → j < k → a.isSelected = true → b.isSelected = true →
    c.isSelected = true → a.sourceUrl = c.sourceUrl → a.sourceUrl = b.sourceUrl
  /-- selected signals of one URL are ranked in the order of the batch -/
  inOrder : ∀ (i j : Nat) (a b : RankedItem F), ranking[i]? = some a → ranking[j]? = some b →
    i < j → a.isSelected = true → b.isSelected = true → a.sourceUrl = b.sourceUrl →
    a.position < b.position

/-! ## The join by URL -/

variable {ranking : List (RankedItem F)} {signals : List BriefSignal} {u : String} {i j n k : Nat}
  {a b c item : RankedItem F}

/-- A URL without a rank is the URL of no item. -/
theorem lastRank_none (h : lastRank u n ranking = none) :
    ∀ (j : Nat) b, ranking[j]? = some b → b.sourceUrl ≠ u := by
  induction ranking generalizing n with
  | nil => exact fun j b hb => by simp at hb
  | cons item ranking ih =>
    rw [lastRank, Option.or_eq_none_iff] at h
    intro j b hb hurl
    cases j with
    | zero =>
      obtain rfl := Option.some.inj hb
      rw [if_pos hurl] at h
      cases h.2
    | succ j => exact ih h.1 j b (by simpa using hb) hurl

/-- The rank of a URL is the rank of its last item. -/
theorem lastRank_some (h : lastRank u n ranking = some k) : ∃ i c, k = n + i ∧
    ranking[i]? = some c ∧ c.sourceUrl = u ∧
      ∀ (j : Nat) b, ranking[j]? = some b → b.sourceUrl = u → j ≤ i := by
  induction ranking generalizing n with
  | nil => cases h
  | cons item ranking ih =>
    rw [lastRank] at h
    rcases Option.or_eq_some_iff.1 h with hrest | ⟨hnone, hitem⟩
    · obtain ⟨i, c, rfl, hc, hurl, hlast⟩ := ih hrest
      refine ⟨i + 1, c, by omega, by simpa using hc, hurl, fun j b hb hurl' => ?_⟩
      cases j with
      | zero => omega
      | succ j =>
        have hle := hlast j b (by simpa using hb) hurl'
        omega
    · split at hitem
      · next hurl =>
        obtain rfl := Option.some.inj hitem
        refine ⟨0, item, rfl, rfl, hurl, fun j b hb hurl' => ?_⟩
        cases j with
        | zero => exact Nat.le_refl 0
        | succ j => exact absurd hurl' (lastRank_none hnone j b (by simpa using hb))
      · cases hitem

/-- The key of a ranked URL is the rank of the last item that has it. -/
theorem rankKey_spec (ha : ranking[i]? = some a) : ∃ c, i ≤ rankKey ranking a.sourceUrl ∧
    ranking[rankKey ranking a.sourceUrl]? = some c ∧ c.sourceUrl = a.sourceUrl := by
  cases hlast : lastRank a.sourceUrl 0 ranking with
  | none => exact absurd rfl (lastRank_none hlast i a ha)
  | some k =>
    obtain ⟨l, c, rfl, hc, hurl, hmax⟩ := lastRank_some hlast
    have hkey : rankKey ranking a.sourceUrl = l := by
      rw [rankKey, hlast, Option.getD_some, Nat.zero_add]
    rw [hkey]
    exact ⟨c, hmax i a ha rfl, hc, hurl⟩

/-- Two URLs of one key are one URL. -/
theorem rankKey_inj (ha : ranking[i]? = some a) (hb : ranking[j]? = some b)
    (h : rankKey ranking a.sourceUrl = rankKey ranking b.sourceUrl) :
    a.sourceUrl = b.sourceUrl := by
  obtain ⟨c, -, hc, hca⟩ := rankKey_spec ha
  obtain ⟨d, -, hd, hdb⟩ := rankKey_spec hb
  rw [h, hd] at hc
  rw [← hca, ← hdb, Option.some.inj hc]

/-- The signal that an item was made of, and its position. -/
def RankedItem.origin (item : RankedItem F) : BriefSignal × Nat :=
  (⟨item.headline, item.soWhat, item.sourceUrl, item.pillar, item.confidence⟩, item.position)

/-- The URL of a signal and its position. -/
def urlOf (x : BriefSignal × Nat) : String := x.1.sourceUrl

/-- What ties a ranking to its batch. -/
structure Ranks (ranking : List (RankedItem F)) (signals : List BriefSignal) : Prop where
  perm : signals.zipIdx.Perm (ranking.map (·.origin))
  nodup : (ranking.map (·.position)).Nodup
  marked : ∀ item ∈ ranking, item.selected.isSome = true

/-- The order in which the sort leaves two signals. -/
abbrev Sorted (ranking : List (RankedItem F)) : BriefSignal × Nat → BriefSignal × Nat → Prop :=
  Stably (fun x y => rankKey ranking (urlOf x) ≤ rankKey ranking (urlOf y)) fun x y => x.2 < y.2

/-- What the brief lists is the sorted batch without the signals that are held back. -/
theorem briefSignals_eq (h : Ranks ranking signals) :
    (briefSignals urlOf signals.zipIdx ranking).1 =
      (signals.zipIdx.insertionSort fun x y =>
        rankKey ranking (urlOf x) ≤ rankKey ranking (urlOf y)).filter (isKept urlOf ranking) := by
  cases hranking : ranking with
  | nil =>
    have hnil : signals.zipIdx = [] := by
      have hperm := h.perm
      rw [hranking] at hperm
      exact hperm.eq_nil
    rw [briefSignals, orderByRanking, if_pos rfl, splitHeldBack, if_pos (.inl rfl), hnil]
    rfl
  | cons item rest =>
    have hsome : ((item :: rest).any fun item => item.selected.isSome) = true := by
      rw [List.any_cons, h.marked item (hranking ▸ List.mem_cons_self), Bool.true_or]
    have hcut : ¬ (item :: rest = [] ∨
        ¬ ((item :: rest).any fun item => item.selected.isSome) = true) := by simp [hsome]
    rw [briefSignals, orderByRanking, if_neg (by simp), splitHeldBack, if_neg hcut]

/-- The items that are kept: some selected item has their URL. -/
theorem isKept_origin (h : Ranks ranking signals) (ha : a ∈ ranking) :
    isKept urlOf ranking a.origin = true ↔
      ∃ b ∈ ranking, b.isSelected = true ∧ b.sourceUrl = a.sourceUrl := by
  have hself : (ranking.any fun item => item.sourceUrl == urlOf a.origin) = true :=
    List.any_eq_true.2 ⟨a, ha, by simp [urlOf, RankedItem.origin]⟩
  rw [isKept, hself, Bool.not_true, Bool.or_false, List.any_eq_true]
  refine exists_congr fun b => and_congr_right fun hb => ?_
  have hmarked := h.marked b hb
  obtain ⟨sel, hsel⟩ := Option.isSome_iff_exists.1 hmarked
  simp [RankedItem.isSelected, hsel, urlOf, RankedItem.origin]

theorem position_injOn (h : Ranks ranking signals) (ha : a ∈ ranking) (hb : b ∈ ranking)
    (heq : a.position = b.position) : a = b :=
  List.inj_on_of_nodup_map h.nodup ha hb heq

/-- Lists on which a function is injective are equal where their images are. -/
theorem eq_of_map_eq {α β : Type} {f : α → β} {l m : List α}
    (hinj : ∀ a ∈ l, ∀ b ∈ m, f a = f b → a = b) (h : l.map f = m.map f) : l = m := by
  induction l generalizing m with
  | nil => exact (List.map_eq_nil_iff.1 h.symm).symm
  | cons a l ih =>
    cases m with
    | nil => cases h
    | cons b m =>
      obtain ⟨hab, hlm⟩ := List.cons.inj h
      obtain rfl := hinj a List.mem_cons_self b List.mem_cons_self hab
      rw [ih (fun a ha b hb => hinj a (.tail _ ha) b (.tail _ hb)) hlm]

/-- A signal of the batch is known by its position. -/
theorem shown_iff_origins (h : Ranks ranking signals) :
    shownPositions signals ranking = (ranking.filter (·.isSelected)).map (·.position) ↔
      (briefSignals urlOf signals.zipIdx ranking).1 =
        (ranking.filter (·.isSelected)).map (·.origin) := by
  have hmap : (ranking.filter (·.isSelected)).map (·.position) =
      ((ranking.filter (·.isSelected)).map (·.origin)).map (·.2) := by
    rw [List.map_map]
    rfl
  rw [hmap]
  refine ⟨fun heq => eq_of_map_eq (fun x hx y hy hxy => ?_) heq, fun heq => congrArg _ heq⟩
  rw [briefSignals_eq h] at hx
  have hmem := (List.mem_insertionSort _).1 (List.mem_filter.1 hx).1
  obtain ⟨a, ha, rfl⟩ := List.mem_map.1 (h.perm.mem_iff.1 hmem)
  obtain ⟨b, hb, rfl⟩ := List.mem_map.1 hy
  rw [position_injOn h ha (List.mem_filter.1 hb).1 hxy]

/-- The brief lists the selected items exactly where they are the kept ones and stand in the order
    of the sort. -/
theorem shown_iff (h : Ranks ranking signals) :
    shownPositions signals ranking = (ranking.filter (·.isSelected)).map (·.position) ↔
      (∀ a ∈ ranking, isKept urlOf ranking a.origin = a.isSelected) ∧
        ((ranking.filter (·.isSelected)).map (·.origin)).Pairwise (Sorted ranking) := by
  have hsort : (briefSignals urlOf signals.zipIdx ranking).1 =
        (ranking.filter (·.isSelected)).map (·.origin) ↔
      ((ranking.filter (·.isSelected)).map (·.origin)).Perm
          (signals.zipIdx.filter (isKept urlOf ranking)) ∧
        ((ranking.filter (·.isSelected)).map (·.origin)).Pairwise (Sorted ranking) := by
    rw [briefSignals_eq h]
    refine filter_insertionSort_eq_iff (fun x y hxy hyx => Nat.lt_asymm hxy hyx) ?_ _
    exact List.pairwise_iff_getElem.2 fun i j hi hj hij => by simpa using hij
  have hkept : (signals.zipIdx.filter (isKept urlOf ranking)).Perm
      ((ranking.filter fun a => isKept urlOf ranking a.origin).map (·.origin)) := by
    have hperm := h.perm.filter (isKept urlOf ranking)
    rwa [List.filter_map] at hperm
  rw [shown_iff_origins h, hsort]
  refine and_congr_left fun _ => ⟨fun hperm a ha => ?_, fun hall => ?_⟩
  · rw [Bool.eq_iff_iff]
    constructor
    · intro hk
      have hmem := (hperm.trans hkept).mem_iff.2
        (List.mem_map_of_mem (List.mem_filter.2 ⟨ha, hk⟩))
      obtain ⟨b, hb, heq⟩ := List.mem_map.1 hmem
      obtain ⟨hbr, hsel⟩ := List.mem_filter.1 hb
      rwa [← position_injOn h hbr ha (congrArg Prod.snd heq)]
    · exact fun hsel => (isKept_origin h ha).2 ⟨a, ha, hsel, rfl⟩
  · have heq : ranking.filter (fun a => isKept urlOf ranking a.origin) =
        ranking.filter (·.isSelected) := List.filter_congr hall
    rw [heq] at hkept
    exact hkept.symm

/-- The selected items are the kept ones where no held-back item has the URL of a selected one. -/
theorem kept_iff (h : Ranks ranking signals) :
    (∀ a ∈ ranking, isKept urlOf ranking a.origin = a.isSelected) ↔
      ∀ a ∈ ranking, ∀ b ∈ ranking, a.isSelected = true → b.isSelected = false →
        a.sourceUrl ≠ b.sourceUrl := by
  constructor
  · intro hall a ha b hb hsel hnot heq
    have hkept := (isKept_origin h hb).2 ⟨a, ha, hsel, heq⟩
    rw [hall b hb, hnot] at hkept
    cases hkept
  · intro hapart a ha
    rw [Bool.eq_iff_iff, isKept_origin h ha]
    refine ⟨?_, fun hsel => ⟨a, ha, hsel, rfl⟩⟩
    rintro ⟨b, hb, hsel, heq⟩
    cases hnot : a.isSelected with
    | true => rfl
    | false => exact absurd heq (hapart b hb a ha hsel hnot)

/-- The order of the sort on the selected items, by their ranks. -/
theorem sorted_iff : ((ranking.filter (·.isSelected)).map (·.origin)).Pairwise (Sorted ranking) ↔
    ∀ (i j : Nat) (a b : RankedItem F), ranking[i]? = some a → ranking[j]? = some b → i < j →
      a.isSelected = true → b.isSelected = true →
      rankKey ranking a.sourceUrl ≤ rankKey ranking b.sourceUrl ∧
        (rankKey ranking b.sourceUrl ≤ rankKey ranking a.sourceUrl → a.position < b.position) := by
  rw [List.pairwise_map, List.pairwise_filter, List.pairwise_iff_getElem]
  constructor
  · intro h i j a b ha hb hij hsela hselb
    obtain ⟨hi, rfl⟩ := List.getElem?_eq_some_iff.1 ha
    obtain ⟨hj, rfl⟩ := List.getElem?_eq_some_iff.1 hb
    exact h i j hi hj hij hsela hselb
  · intro h i j hi hj hij hsela hselb
    exact h i j _ _ (List.getElem?_eq_getElem hi) (List.getElem?_eq_getElem hj) hij hsela hselb

/-- The join by URL gives back the ranking exactly where the signals of one URL keep together. -/
theorem joined_iff (h : Ranks ranking signals) :
    shownPositions signals ranking = (ranking.filter (·.isSelected)).map (·.position) ↔
      UrlsApart ranking := by
  rw [shown_iff h, kept_iff h, sorted_iff]
  constructor
  · rintro ⟨hapart, hsorted⟩
    refine ⟨hapart, ?_, ?_⟩
    · intro i j k a b c ha hb hc hij hjk hsela hselb hselc hurl
      obtain ⟨hab, -⟩ := hsorted i j a b ha hb hij hsela hselb
      obtain ⟨hbc, -⟩ := hsorted j k b c hb hc hjk hselb hselc
      rw [← hurl] at hbc
      exact rankKey_inj ha hb (Nat.le_antisymm hab hbc)
    · intro i j a b ha hb hij hsela hselb hurl
      exact (hsorted i j a b ha hb hij hsela hselb).2 (by rw [hurl])
  · intro hurls
    refine ⟨hurls.selected, fun i j a b ha hb hij hsela hselb => ?_⟩
    by_cases hurl : a.sourceUrl = b.sourceUrl
    · exact ⟨by rw [hurl], fun _ => hurls.inOrder i j a b ha hb hij hsela hselb hurl⟩
    · -- the last item of the first URL stands in front of the second item
      obtain ⟨c, hik, hc, hca⟩ := rankKey_spec ha
      obtain ⟨-, hjk, -⟩ := rankKey_spec hb
      have hselc : c.isSelected = true := by
        cases hnot : c.isSelected with
        | true => rfl
        | false =>
          exact absurd hca.symm (hurls.selected a (List.mem_of_getElem? ha) c
            (List.mem_of_getElem? hc) hsela hnot)
      have hlt : rankKey ranking a.sourceUrl < j := by
        rcases Nat.lt_trichotomy (rankKey ranking a.sourceUrl) j with hlt | heq | hgt
        · exact hlt
        · rw [heq, hb] at hc
          obtain rfl := Option.some.inj hc
          exact absurd hca.symm hurl
        · exact absurd (hurls.together i j _ a b c ha hb hc hij hgt hsela hselb hselc hca.symm) hurl
      exact ⟨by omega, fun hle => by omega⟩

/-- What the brief lists of a batch is what it lists of the batch with its positions. -/
theorem briefSignals_zipIdx : briefSignals BriefSignal.sourceUrl signals ranking =
    ((briefSignals urlOf signals.zipIdx ranking).1.map (·.1),
      (briefSignals urlOf signals.zipIdx ranking).2) := by
  have horder : orderByRanking BriefSignal.sourceUrl signals ranking =
      (orderByRanking urlOf signals.zipIdx ranking).map (·.1) := by
    unfold orderByRanking
    split
    · simp
    · have hmap : (signals.zipIdx.insertionSort fun x y =>
            rankKey ranking (urlOf x) ≤ rankKey ranking (urlOf y)).map (·.1) =
          (signals.zipIdx.map (·.1)).insertionSort fun a b =>
            rankKey ranking a.sourceUrl ≤ rankKey ranking b.sourceUrl :=
        List.map_insertionSort _ _ _ _ fun a _ b _ => Iff.rfl
      rw [hmap, List.zipIdx_map_fst]
  unfold briefSignals splitHeldBack
  rw [horder]
  split
  · rfl
  · simp only [List.filter_map, List.length_map]
    rfl

/-- The signals that are not listed are counted. -/
theorem heldBack_eq : (briefSignals urlOf signals.zipIdx ranking).2 =
    signals.length - (briefSignals urlOf signals.zipIdx ranking).1.length := by
  have hlength : (orderByRanking urlOf signals.zipIdx ranking).length = signals.length := by
    unfold orderByRanking
    split
    · simp
    · simp
  unfold briefSignals splitHeldBack
  split
  · exact (Nat.sub_eq_zero_of_le (Nat.le_of_eq hlength.symm)).symm
  · show _ - _ = _
    rw [hlength]

/-! ## The ranking of a batch -/

theorem mem_markFront {s : Nat} (h : item ∈ markFront s ranking) : ∃ a ∈ ranking, ∃ mark : Bool,
    item = { a with selected := some mark } := by
  obtain ⟨i, hi, rfl⟩ := List.mem_mapIdx.1 h
  exact ⟨_, List.getElem_mem hi, _, rfl⟩

/-- The marks are no part of what an item says otherwise. -/
theorem map_markFront {β : Type} {s : Nat} (f : RankedItem F → β)
    (hf : ∀ (a : RankedItem F) mark, f { a with selected := mark } = f a) :
    (markFront s ranking).map f = ranking.map f := by
  refine List.ext_getElem? fun i => ?_
  rw [List.getElem?_map, List.getElem?_map, markFront, List.getElem?_mapIdx]
  cases ranking[i]? with
  | none => rfl
  | some a => simp [hf]

theorem isSelected_markFront {s : Nat} (h : (markFront s ranking)[i]? = some item) :
    item.isSelected = true ↔ i < s := by
  rw [markFront, List.getElem?_mapIdx, Option.map_eq_some_iff] at h
  obtain ⟨a, -, rfl⟩ := h
  simp [RankedItem.isSelected]

section Ranked

variable [LinearOrder F]

theorem ranks_markFront (A : Arithmetic F) (policy : ScoringPolicy F) (signals : List BriefSignal)
    (s : Nat) : Ranks (markFront s (ordered A policy signals)) signals where
  perm := by
    rw [map_markFront _ fun _ _ => rfl]
    have hperm := (ordered_perm A policy signals).map (·.origin)
    have hzip : (signals.mapIdx fun index signal => rankedItem A policy signal index).map
        (·.origin) = signals.zipIdx := by
      refine List.ext_getElem? fun i => ?_
      rw [List.getElem?_map, List.getElem?_mapIdx, List.getElem?_zipIdx]
      cases signals[i]? with
      | none => rfl
      | some signal => simp [RankedItem.origin, rankedItem]
    rw [hzip] at hperm
    exact hperm.symm
  nodup := by
    rw [map_markFront _ fun _ _ => rfl]
    exact ordered_positions.nodup_iff.2 List.nodup_range
  marked := by
    intro item hitem
    obtain ⟨a, -, mark, rfl⟩ := mem_markFront hitem
    rfl

end Ranked

/-! ## A batch that shares a URL -/

/-- Scores in ten-thousandths. -/
def tenThousandths : Arithmetic Nat where
  times a b := (a * b + 5000) / 10000
  one := 10000
  round4 := id

/-- The shipped weights, and a brief of one signal. -/
def leadOnly : ScoringPolicy Nat where
  confidenceWeights := [("high", 8000), ("medium", 5000), ("low", 2500)]
  unknownConfidence := 1000
  pillarWeights := []
  topN := some 1
  minimumScore := none
  topN_pos := by simp

/-- A signal of one publisher's index page. -/
def indexed (headline confidence : String) : BriefSignal :=
  ⟨headline, "", "https://news.example/", "Fabric-native", confidence⟩

/-- Two stories under the URL of one index page: the second scores higher. -/
def sharedUrl : List BriefSignal :=
  [indexed "Minor update" "low", indexed "Capacity pricing changes" "high"]

end CanvasOS.Signals
