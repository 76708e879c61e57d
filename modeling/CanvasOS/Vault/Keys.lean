/-
  The keys of Vault: an id is given once, and a linkage never stands in the way of another.

  1. `handle_tidy` — every request is tidy: it commits a linkage with its object only, and links what
     its own transaction has inserted.
  2. `Keyed` — what holds of the keys in every state, as long as a transaction can still commit: what
     is pending is new, and pending in one transaction only.
  3. `linkConsent_fresh` — so `ON CONFLICT DO NOTHING` never hides the linkage of a create.
-/
import CanvasOS.Vault.Registering

namespace CanvasOS.Vault

open Python Interleave Transaction

variable {ι : Type} [DecidableEq ι]

/-! ## Every request is tidy -/

section Tidy

variable {P : Runtime} {o : VaultOp} {a : o.Res}

/-- Only the INSERT of an object and that of a linkage have keys. -/
theorem stepOf_keyless (hobject : ∀ new, o ≠ .insertObject new) (hlink : ∀ row, o ≠ .linkConsent row) :
    ∀ c ∈ (stepOf o a).written, c.keyless := by
  intro c hc
  cases o with
  | insertObject new => exact absurd rfl (hobject new)
  | linkConsent row => exact absurd rfl (hlink row)
  | release conn => cases conn <;> exact absurd hc List.not_mem_nil
  | deleteObject key =>
    cases a with
    | ok _ => exact List.mem_singleton.1 hc ▸ ⟨rfl, rfl⟩
    | error e => exact absurd hc List.not_mem_nil
  | writeAudit conn row => cases conn <;> exact List.mem_singleton.1 hc ▸ ⟨rfl, rfl⟩
  | selectExpired =>
    obtain ⟨row, -, rfl⟩ := List.mem_map.1 hc
    exact ⟨rfl, rfl⟩
  | updateObject | insertRun | finishRun | purgeAccessLog | markDeleted =>
    exact List.mem_singleton.1 hc ▸ ⟨rfl, rfl⟩
  | _ => exact absurd hc List.not_mem_nil

/-- No key is pending, and all statements are tidy. -/
structure Keyless (x : VaultStanding) : Prop where
  pending : ∀ c ∈ x.levels.flatten, c.keyless
  tidy : ∀ d ∈ x.deeds, TidyDeed d

theorem Keyless.init : Keyless ⟨[], []⟩ :=
  ⟨fun _ hc => absurd hc List.not_mem_nil, fun _ hd => absurd hd List.not_mem_nil⟩

theorem Keyless.after {x : VaultStanding} (h : Keyless x)
    (hwritten : ∀ c ∈ (stepOf o a).written, c.keyless) (hd : TidyDeed ⟨o, a, x.levels⟩) :
    Keyless (x.after stepOf o a) := by
  refine ⟨fun c hc => ?_, fun d hd' => ?_⟩
  · rcases Step.mem_levels hc with hc | hc
    · exact hwritten c hc
    · exact h.pending c hc
  · rcases Standing.mem_after.1 hd' with rfl | hd'
    · exact hd
    · exact h.tidy d hd'

/-- A statement that inserts no object and may stand anywhere. -/
theorem Keyless.free {x : VaultStanding} (h : Keyless x) (ho : o.free = true)
    (hobject : ∀ new, o ≠ .insertObject new) : Keyless (x.after stepOf o a) := by
  have hlink : ∀ row, o ≠ .linkConsent row := by
    rintro row rfl
    cases ho
  have hwritten := stepOf_keyless (a := a) hobject hlink
  refine h.after hwritten (.of_keyless (fun c hc => ?_) ho)
  rcases Step.mem_landed hc with hc | hc
  · exact hwritten c hc
  · exact h.pending c hc

/-- A DELETE and a sweep make such statements only. -/
theorem makes_free {r : Request} (hcreate : ∀ config payload, r ≠ .create config payload)
    (hpatch : ∀ config id payload, r ≠ .patch config id payload) (ho : Makes P r o) :
    o.free = true ∧ ∀ new, o ≠ .insertObject new := by
  cases r with
  | create config payload => exact absurd rfl (hcreate config payload)
  | patch config id payload => exact absurd rfl (hpatch config id payload)
  | delete config id =>
    cases o with
    | linkConsent | findActiveConsent | updateObject | insertObject => cases ho
    | _ => exact ⟨rfl, nofun⟩
  | sweep =>
    cases o with
    | linkConsent | findActiveConsent | updateObject | insertObject => exact ho.elim
    | _ => exact ⟨rfl, nofun⟩

/-- One statement that may stand anywhere. -/
theorem keyless_ask {Q : Except Failure o.Res → VaultStanding → Prop} {x : VaultStanding}
    (hx : Keyless x) (ho : o.free = true) (hobject : ∀ new, o ≠ .insertObject new)
    (hok : ∀ a, Q (.ok a) (x.after stepOf o a)) (herror : ∀ e y, Q (.error e) y) :
    Upholds (deed stepOf) Keyless (ask o) Q x :=
  upholds_ask hx (fun a => ⟨hx.free ho hobject, hok a⟩) (fun e _ => herror e x)
    fun e a _ => herror e (x.after stepOf o a)

/-- Only an UPDATE needs its transaction. -/
theorem update_keyless {x : VaultStanding} (hx : Keyless x) (hlevels : x.levels ≠ [])
    (key : Key) (sets : List (String × SqlValue)) (a : Bool) :
    Keyless (x.after stepOf (.updateObject key sets) a) := by
  have hwritten : ∀ c ∈ (stepOf (.updateObject key sets) a).written, c.keyless :=
    stepOf_keyless nofun nofun
  -- inside of a transaction nothing is committed
  have hlanded : (stepOf (.updateObject key sets) a).landed x.levels = [] := by
    cases hls : x.levels with
    | nil => exact absurd hls hlevels
    | cons l ls => rfl
  refine hx.after hwritten ⟨?_, ?_, nofun, nofun, fun _ _ _ => hlevels⟩
  · intro k hk
    rw [Deed.landed, hlanded] at hk
    exact absurd hk List.not_mem_nil
  · rw [Deed.landed, hlanded]
    exact Nat.zero_le 1

/-- A PATCH updates inside of its transaction. -/
theorem patch_tidy (config : ObjectTypeConfig) (id : Uuid) (payload : Payload) :
    Upholds (deed stepOf) Keyless (handle P (.patch config id payload)) (fun _ _ => True)
      ⟨[], []⟩ := by
  show Upholds _ _ (if _ then _ else _) _ _
  split
  case isFalse => exact ⟨.init, True.intro⟩
  have hbody {x : VaultStanding} (hx : Keyless x) (hlevels : x.levels ≠ []) :
      Upholds (deed stepOf) Keyless (updateObject P config id payload) (fun _ _ => True) x := by
    have hrun : Upholds (deed stepOf) (fun x => Keyless x ∧ x.levels ≠ [])
        (updateObject P config id payload) (fun _ _ => True) x := by
      refine .of_only (updateObject_makes config id payload) ⟨hx, hlevels⟩ ?_
      rintro o a b y z ⟨ho, hbracket⟩ hz ⟨hy, hls⟩
      rw [deed_eq_some hz]
      have hwrites : ∃ w, stepOf o b = .writes w := by
        cases o <;>
          first
          | exact ⟨_, rfl⟩
          | exact absurd ho Bool.false_ne_true
          | exact absurd hbracket.symm Bool.false_ne_true
      have hopen : (y.after stepOf o b).levels ≠ [] := by
        obtain ⟨w, hw⟩ := hwrites
        rw [Standing.after_levels, hw]
        cases hlevels : y.levels with
        | nil => exact absurd hlevels hls
        | cons l ls => exact List.cons_ne_nil _ _
      refine ⟨?_, hopen⟩
      cases o with
      | updateObject key sets => exact update_keyless hy hls key sets b
      | selectTaxonomy _ | fetchObject _ => exact hy.free rfl nofun
      | _ =>
        first
        | exact absurd ho Bool.false_ne_true
        | exact absurd hbracket.symm Bool.false_ne_true
    exact (hrun.frame (Z := fun _ => True) True.intro (fun _ _ _ _ _ _ _ => True.intro)
      fun x hx _ => hx.1).mono fun _ _ _ _ => True.intro
  have hfree {o : VaultOp} {x : VaultStanding} (hx : Keyless x) (ho : o.free = true)
      (hobject : ∀ new, o ≠ .insertObject new) :
      Upholds (deed stepOf) Keyless (ask o) (fun _ _ => True) x :=
    keyless_ask hx ho hobject (fun _ => True.intro) fun _ _ => True.intro
  have htransaction {x : VaultStanding} (hx : Keyless x) :
      Upholds (deed stepOf) Keyless (transaction (updateObject P config id payload))
        (fun _ _ => True) x := by
    refine Upholds.bind (Q := fun out y => out = .ok () → y.levels ≠ [])
      (keyless_ask hx rfl nofun (fun _ _ => ?_) nofun) (fun _ y hy hlevels => ?_)
      fun _ _ _ _ => True.intro
    · exact List.cons_ne_nil _ _
    · refine Upholds.bind (Q := fun _ _ => True) ?_ (fun a z hz _ => ?_) fun _ _ _ _ => True.intro
      · refine (hbody hy (hlevels rfl)).tryCatch (fun _ _ _ _ => True.intro) fun e z hz _ => ?_
        exact (hfree (o := .rollback) hz rfl nofun).bind (fun _ z hz _ => ⟨hz, True.intro⟩)
          fun _ _ _ _ => True.intro
      · exact (hfree (o := .commit) hz rfl nofun).bind (fun _ z hz _ => ⟨hz, True.intro⟩)
          fun _ _ _ _ => True.intro
  have hconnection : Upholds (deed stepOf) Keyless
      (withConnection .own (transaction (updateObject P config id payload))) (fun _ _ => True)
      ⟨[], []⟩ := by
    refine (hfree (o := .acquire .own) .init rfl nofun).bind (fun _ y hy _ => ?_)
      fun _ _ _ _ => True.intro
    refine (htransaction hy).thenFinally fun out z hz _ => ?_
    refine keyless_ask hz rfl nofun (fun _ => True.intro) fun _ _ => True.intro
  refine hconnection.bind (fun found y hy _ => ?_) fun _ _ _ _ => True.intro
  cases found <;> exact ⟨hy, True.intro⟩

theorem handle_tidy (r : Request) : Upholds (deed stepOf) (fun x => ∀ d ∈ x.deeds, TidyDeed d)
    (handle P r) (fun _ _ => True) ⟨[], []⟩ := by
  have htrue {J J' : VaultStanding → Prop} {Q : Except Failure Response → VaultStanding → Prop}
      (h : Upholds (deed stepOf) J (handle P r) Q ⟨[], []⟩) (hJ : ∀ x, J x → J' x) :
      Upholds (deed stepOf) J' (handle P r) (fun _ _ => True) ⟨[], []⟩ :=
    (h.frame (Z := fun _ => True) True.intro (fun _ _ _ _ _ _ _ => True.intro)
      fun x hx _ => hJ x hx).mono fun _ _ _ _ => True.intro
  by_cases hcreate : ∃ config payload, r = .create config payload
  · obtain ⟨config, payload, rfl⟩ := hcreate
    exact htrue (create_upholds P config payload) fun x hx => hx.tidy
  by_cases hpatch : ∃ config id payload, r = .patch config id payload
  · obtain ⟨config, id, payload, rfl⟩ := hpatch
    exact htrue (patch_tidy config id payload) fun x hx => hx.tidy
  · refine htrue (Upholds.of_only (handle_makes r) Keyless.init ?_) fun x hx => hx.tidy
    intro o a b x y ho hy hx
    rw [deed_eq_some hy]
    obtain ⟨hfree, hobject⟩ := makes_free (fun config payload h => hcreate ⟨config, payload, h⟩)
      (fun config id payload h => hpatch ⟨config, id, payload, h⟩) ho
    exact hx.free hfree hobject

end Tidy

/-! ## Keys in every state -/

section Keyed

variable {i j : ι} {o : VaultOp} {a b : o.Res} {s t : VaultState ι} {live live' : ι → Prop}

/-- The keys that connection `i` has inserted and not committed. -/
def VaultState.pendingKeys (s : VaultState ι) (i : ι) : List Key :=
  (s.db.pending i).flatMap Change.rowKeys

/-- The rows of an object come together, no key comes twice, and what is pending of a live request
    is new and pending there only. -/
structure Keyed (live : ι → Prop) (s : VaultState ι) : Prop where
  linked : ∀ k ∈ s.db.base.linkageKeys, k ∈ s.db.base.taxonomyKeys
  kept : ∀ k ∈ s.db.base.objectKeys, k ∈ s.db.base.taxonomyKeys
  unique : s.db.base.objectKeys.Nodup
  fresh : ∀ i, live i → ∀ k ∈ s.pendingKeys i, k ∉ s.db.base.taxonomyKeys
  apart : ∀ i j, i ≠ j → live i → live j → ∀ k ∈ s.pendingKeys i, k ∉ s.pendingKeys j
  active : ∀ i, s.db.levels i ≠ [] → i ∈ s.active

/-- The tables are in order, and nobody is connected. -/
structure WellKept (s : VaultState ι) : Prop where
  linked : ∀ k ∈ s.db.base.linkageKeys, k ∈ s.db.base.taxonomyKeys
  kept : ∀ k ∈ s.db.base.objectKeys, k ∈ s.db.base.taxonomyKeys
  unique : s.db.base.objectKeys.Nodup
  idle : ∀ i, s.db.levels i = []

omit [DecidableEq ι] in
theorem WellKept.keyed (h : WellKept s) : Keyed live s where
  linked := h.linked
  kept := h.kept
  unique := h.unique
  fresh i _ k hk := by simp [VaultState.pendingKeys, Sessions.pending, h.idle i] at hk
  apart i j _ _ _ k hk := by simp [VaultState.pendingKeys, Sessions.pending, h.idle i] at hk
  active i hi := absurd (h.idle i) hi

omit [DecidableEq ι] in
theorem Keyed.mono (h : Keyed live s) (hlive : ∀ i, live' i → live i) : Keyed live' s where
  linked := h.linked
  kept := h.kept
  unique := h.unique
  fresh i hi := h.fresh i (hlive i hi)
  apart i j hij hi hj := h.apart i j hij (hlive i hi) (hlive j hj)
  active := h.active

omit [DecidableEq ι] in
theorem view_taxonomyKeys (s : VaultState ι) (i : ι) :
    (s.view i).taxonomyKeys = s.pendingKeys i ++ s.db.base.taxonomyKeys :=
  Tables.foldr_taxonomyKeys _

/-- The connections that have begun a transaction. -/
theorem exec_active (h : exec i o a s = some (b, t)) (hj : j ∈ s.active) :
    j ∈ t.active ∨ (j = i ∧ o = .release .own) := by
  unfold exec at h
  split at h <;> (repeat' split at h) <;>
    first
    | contradiction
    | (cases h; exact .inl hj)
    | skip
  · cases h
    by_cases hji : j = i
    · exact .inr ⟨hji, rfl⟩
    · exact .inl (List.mem_filter.2 ⟨hj, by simpa using hji⟩)
  · cases h
    by_cases hji : j = i
    · exact .inl (hji ▸ List.mem_cons_self)
    · exact .inl (List.mem_cons_of_mem _ (List.mem_filter.2 ⟨hj, by simpa using hji⟩))

omit [DecidableEq ι] in
/-- What is pending after a step was pending, or is inserted by it. -/
theorem mem_keys {st : Step Change} {ls : List (List Change)} {k : Key}
    (h : k ∈ (st.levels ls).flatten.flatMap Change.rowKeys) :
    k ∈ st.written.flatMap Change.rowKeys ∨ k ∈ ls.flatten.flatMap Change.rowKeys := by
  obtain ⟨c, hc, hk⟩ := List.mem_flatMap.1 h
  rcases Step.mem_levels hc with hc | hc
  · exact .inl (List.mem_flatMap.2 ⟨c, hc, hk⟩)
  · exact .inr (List.mem_flatMap.2 ⟨c, hc, hk⟩)

omit [DecidableEq ι] in
/-- So is what a step commits. -/
theorem mem_landedKeys {st : Step Change} {ls : List (List Change)} {k : Key}
    (h : k ∈ (st.landed ls).flatMap Change.rowKeys) :
    k ∈ st.written.flatMap Change.rowKeys ∨ k ∈ ls.flatten.flatMap Change.rowKeys := by
  obtain ⟨c, hc, hk⟩ := List.mem_flatMap.1 h
  rcases Step.mem_landed hc with hc | hc
  · exact .inl (List.mem_flatMap.2 ⟨c, hc, hk⟩)
  · exact .inr (List.mem_flatMap.2 ⟨c, hc, hk⟩)

/-- What an INSERT inserts was not taken. -/
theorem exec_inserts (h : exec i o a s = some (b, t)) {k : Key}
    (hk : k ∈ (stepOf o b).written.flatMap Change.rowKeys) : s.taken i k = false := by
  obtain ⟨c, hc, hk⟩ := List.mem_flatMap.1 hk
  by_cases hobject : ∃ new, o = .insertObject new
  · obtain ⟨new, rfl⟩ := hobject
    cases a with
    | error e =>
      simp only [exec] at h
      split at h
      · cases h
        exact absurd hc List.not_mem_nil
      · cases h
    | ok id =>
      simp only [exec] at h
      (repeat' split at h) <;> cases h
      · rename_i htaken _
        obtain rfl := List.mem_singleton.1 hc
        obtain rfl := List.mem_singleton.1 hk
        exact Bool.eq_false_iff.2 htaken
      · exact absurd hc List.not_mem_nil
  · by_cases hlink : ∃ row, o = .linkConsent row
    · obtain ⟨row, rfl⟩ := hlink
      rcases b with e | linked
      · exact absurd hc List.not_mem_nil
      · cases linked with
        | false => exact absurd hc List.not_mem_nil
        | true =>
          obtain rfl := List.mem_singleton.1 hc
          exact absurd hk List.not_mem_nil
    · have hkeyless := stepOf_keyless (fun new h => hobject ⟨new, h⟩) (fun row h => hlink ⟨row, h⟩) c hc
      rw [hkeyless.1] at hk
      exact absurd hk List.not_mem_nil

omit [DecidableEq ι] in
/-- A key that is not taken is new, and pending nowhere. -/
theorem not_taken (hactive : ∀ i, s.db.levels i ≠ [] → i ∈ s.active) {k : Key}
    (h : s.taken i k = false) : k ∉ s.db.base.taxonomyKeys ∧ ∀ j, k ∉ s.pendingKeys j := by
  have hview (j : ι) (hj : (s.view j).taken k = false) : k ∉ (s.view j).taxonomyKeys := by
    intro hk
    obtain ⟨row, hrow, rfl⟩ := List.mem_map.1 hk
    unfold Tables.taken at hj
    simp only [Bool.or_eq_false_iff, List.any_eq_false] at hj
    exact hj.1.2 row hrow BEq.rfl
  unfold VaultState.taken at h
  simp only [Bool.or_eq_false_iff, List.any_eq_false, Bool.not_eq_true] at h
  have hown := hview i h.1
  rw [view_taxonomyKeys, List.mem_append, not_or] at hown
  refine ⟨hown.2, fun j hk => ?_⟩
  by_cases hlevels : s.db.levels j = []
  · simp [VaultState.pendingKeys, Sessions.pending, hlevels] at hk
  · have hj := hview j (h.2 j (hactive j hlevels))
    rw [view_taxonomyKeys, List.mem_append, not_or] at hj
    exact hj.1 hk

/-- On a connection of its own, only an audit row is written. -/
theorem stepOf_aside {c : Change} (h : stepOf o b = .aside c) : ∃ row, c = .insertAudit row := by
  unfold stepOf at h
  split at h <;> first | (cases h; exact ⟨_, rfl⟩) | cases h

/-- A connection without a transaction opens one with BEGIN. -/
theorem exec_begins (h : exec i o a s = some (b, t)) (hlevels : (stepOf o b).levels [] ≠ []) :
    i ∈ t.active := by
  by_cases hbegin : o = .begin
  · subst hbegin
    cases h
    exact List.mem_cons_self
  · refine absurd ?_ hlevels
    unfold stepOf
    split <;> first | rfl | exact absurd rfl hbegin

/-- What a live request commits is new, and pending nowhere else. -/
theorem Keyed.landed_new (h : Keyed live s) (hi : live i) (hx : exec i o a s = some (b, t)) {k : Key}
    (hk : k ∈ ((stepOf o b).landed (s.db.levels i)).flatMap Change.rowKeys) :
    k ∉ s.db.base.taxonomyKeys ∧ ∀ j, j ≠ i → live j → k ∉ s.pendingKeys j := by
  rcases mem_landedKeys hk with hk | hk
  · obtain ⟨hnew, hnowhere⟩ := not_taken h.active (exec_inserts hx hk)
    exact ⟨hnew, fun j _ _ => hnowhere j⟩
  · exact ⟨h.fresh i hi k hk, fun j hji hj => h.apart i j (Ne.symm hji) hi hj k hk⟩

/-- A statement keeps the keys in order. -/
theorem Keyed.step (h : Keyed live s) (hi : live i) (hx : exec i o a s = some (b, t))
    (hd : TidyDeed ⟨o, b, s.db.levels i⟩) : Keyed live t := by
  have hdb := exec_db hx
  have hbase : t.db.base = ((stepOf o b).landed (s.db.levels i)).foldr Change.apply s.db.base := by
    rw [hdb, Step.run_base]
  have hown : t.db.levels i = (stepOf o b).levels (s.db.levels i) := by
    rw [hdb, Step.run_self]
  have hothers : ∀ j, j ≠ i → t.db.levels j = s.db.levels j := fun j hji => by
    rw [hdb, Step.run_of_ne _ _ hji]
  have hpending : ∀ j, j ≠ i → t.pendingKeys j = s.pendingKeys j := fun j hji => by
    unfold VaultState.pendingKeys Sessions.pending
    rw [hothers j hji]
  -- what is inserted is new everywhere
  have hnew {k : Key} (hk : k ∈ (stepOf o b).written.flatMap Change.rowKeys) :=
    not_taken h.active (exec_inserts hx hk)
  have hlanded {k : Key} (hk : k ∈ ((stepOf o b).landed (s.db.levels i)).flatMap Change.rowKeys) :=
    h.landed_new hi hx hk
  have htaxonomy : t.db.base.taxonomyKeys =
      ((stepOf o b).landed (s.db.levels i)).flatMap Change.rowKeys ++ s.db.base.taxonomyKeys := by
    rw [hbase, Tables.foldr_taxonomyKeys]
  constructor
  case linked =>
    intro k hk
    rw [hbase, Tables.foldr_linkageKeys, List.mem_append] at hk
    rw [htaxonomy, List.mem_append]
    rcases hk with hk | hk
    · exact .inl (hd.linked k hk)
    · exact .inr (h.linked k hk)
  case kept =>
    intro k hk
    rw [hbase] at hk
    have hk := (Tables.foldr_objectKeys _).subset hk
    rw [htaxonomy, List.mem_append]
    exact (List.mem_append.1 hk).imp_right (h.kept k)
  case unique =>
    have hone : (((stepOf o b).landed (s.db.levels i)).flatMap Change.rowKeys).Nodup := by
      have hlen := hd.one
      unfold Deed.landed at hlen
      match hkeys : ((stepOf o b).landed (s.db.levels i)).flatMap Change.rowKeys with
      | [] => exact List.nodup_nil
      | [k] => exact List.pairwise_singleton _ k
      | k :: k' :: ks =>
        rw [hkeys] at hlen
        simp at hlen
    rw [hbase]
    refine (Tables.foldr_objectKeys _).nodup (List.nodup_append.2 ⟨hone, h.unique, ?_⟩)
    rintro k hk k' hk' rfl
    exact (hlanded hk).1 (h.kept k hk')
  case fresh =>
    intro j hj k hk
    rw [htaxonomy, List.mem_append, not_or]
    by_cases hji : j = i
    · subst hji
      unfold VaultState.pendingKeys Sessions.pending at hk
      rw [hown] at hk
      have hkold : k ∉ s.db.base.taxonomyKeys := by
        rcases mem_keys hk with hk | hk
        · exact (hnew hk).1
        · exact h.fresh j hj k hk
      refine ⟨fun hl => ?_, hkold⟩
      -- what has landed is not pending any more
      rcases Step.landed_cases (stepOf o b) (s.db.levels j) with hnone | hnone | ⟨c, haside⟩
      · rw [hnone] at hl
        exact absurd hl List.not_mem_nil
      · rw [hnone] at hk
        exact absurd hk List.not_mem_nil
      · obtain ⟨row, rfl⟩ := stepOf_aside haside
        rw [haside] at hl
        exact absurd hl List.not_mem_nil
    · rw [hpending j hji] at hk
      exact ⟨fun hl => (hlanded hl).2 j hji hj hk, h.fresh j hj k hk⟩
  case apart =>
    intro j j' hjj' hj hj' k hk hk'
    have hcase : ∀ j, j ≠ i → live j → k ∈ t.pendingKeys i → k ∉ t.pendingKeys j := by
      intro j hji hj hk hk'
      rw [hpending j hji] at hk'
      unfold VaultState.pendingKeys Sessions.pending at hk
      rw [hown] at hk
      rcases mem_keys hk with hk | hk
      · exact (hnew hk).2 j hk'
      · exact h.apart i j (Ne.symm hji) hi hj k hk hk'
    by_cases hji : j = i
    · subst hji
      exact hcase j' (Ne.symm hjj') hj' hk hk'
    · by_cases hji' : j' = i
      · subst hji'
        exact hcase j hji hj hk' hk
      · rw [hpending j hji] at hk
        rw [hpending j' hji'] at hk'
        exact h.apart j j' hjj' hj hj' k hk hk'
  case active =>
    intro j hj
    by_cases hji : j = i
    · subst hji
      by_cases hlevels : s.db.levels j = []
      · -- only BEGIN opens a transaction
        rw [hown, hlevels] at hj
        exact exec_begins hx hj
      · rcases exec_active hx (h.active j hlevels) with hactive | ⟨-, hrelease⟩
        · exact hactive
        · subst hrelease
          rw [hown] at hj
          exact absurd rfl hj
    · rw [hothers j hji] at hj
      rcases exec_active hx (h.active j hj) with hactive | ⟨hji', -⟩
      · exact hactive
      · exact absurd hji' hji

/-- The session of a request that is not live is dropped. -/
theorem Keyed.drop (h : Keyed live s) (hi : ¬ live i) (ht : move (.drop i) s = some t) :
    Keyed live t := by
  obtain rfl := Option.some.inj ht
  have hothers : ∀ j, j ≠ i → (s.db.reset i).levels j = s.db.levels j := fun j hji =>
    Sessions.setLevels_of_ne hji
  have hpending : ∀ j, live j → VaultState.pendingKeys
      { s with
        db := s.db.reset i
        active := s.active.filter fun j => j ≠ i
        held := s.held.filter fun j => j ≠ i } j = s.pendingKeys j := by
    intro j hj
    have hji : j ≠ i := by
      rintro rfl
      exact hi hj
    unfold VaultState.pendingKeys Sessions.pending
    rw [hothers j hji]
  constructor
  case linked => exact h.linked
  case kept => exact h.kept
  case unique => exact h.unique
  case fresh =>
    intro j hj k hk
    rw [hpending j hj] at hk
    exact h.fresh j hj k hk
  case apart =>
    intro j j' hjj' hj hj' k hk
    rw [hpending j hj] at hk
    rw [hpending j' hj']
    exact h.apart j j' hjj' hj hj' k hk
  case active =>
    intro j hj
    by_cases hji : j = i
    · subst hji
      exact absurd Sessions.reset_self hj
    · rw [hothers j hji] at hj
      exact List.mem_filter.2 ⟨h.active j hj, by simpa using hji⟩

end Keyed

/-! ## Keys in every run -/

section Runs

variable {P : Runtime} {ok : VaultConfig ι → VaultAct ι → Prop} {c : VaultConfig ι}
  {s₀ : VaultState ι} {i : ι}

/-- The moves of a run are orderly: only the session of a dead request is dropped. -/
def OrderlyMoves (ok : VaultConfig ι → VaultAct ι → Prop) : Prop :=
  ∀ c e, ok c (.env e) → Orderly c (.env e)

/-- The request has not died. -/
def Live (c : VaultConfig ι) (i : ι) : Prop := ∀ r, c.thread i ≠ some (r, none)

/-- Where a connection stands is its own part of the state. -/
theorem vault_parted (hok : OrderlyMoves ok) :
    Parted (vaultSystem P) ok (fun i h => h.standing VaultState.db i) (deed stepOf) := by
  refine standing_parted vault_ledgered fun c e t j ha ht hj => ?_
  have horderly := hok c e ha
  cases e with
  | tick n =>
    obtain rfl := Option.some.inj ht
    rfl
  | drop i =>
    obtain rfl := Option.some.inj ht
    obtain ⟨r, hr⟩ := horderly
    have hji : j ≠ i := by
      rintro rfl
      exact hj r hr
    exact Sessions.setLevels_of_ne hji

/-- What follows from what a connection has executed holds of dead requests as well. -/
theorem upheld_deeds {J Z : Request → VaultStanding → Prop}
    {Q : Request → Except Failure Response → VaultStanding → Prop} (hok : OrderlyMoves ok)
    (h₀ : ∀ i, s₀.db.levels i = [])
    (hbody : ∀ r, Upholds (deed stepOf) (J r) (handle P r) (Q r) ⟨[], []⟩)
    (hJ : ∀ r x, J r x → Z r x) (hZ : ∀ r ls ls' ds, Z r ⟨ls, ds⟩ → Z r ⟨ls', ds⟩)
    (hr : (vaultSystem P).Reach ok (.idle ⟨s₀, [], []⟩) c) :
    ∀ i r p, c.thread i = some (r, p) → Z r (c.shared.standing VaultState.db i) := by
  refine hr.upheld (vault_parted hok) (fun i => ?_) hbody hJ ?_
  · show (⟨s₀.db.levels i, []⟩ : VaultStanding) = _
    rw [h₀ i]
  · intro c e t i r _ ht _ hz
    obtain ⟨t, -, rfl⟩ := recorded_env ht
    exact hZ r _ _ _ hz

theorem tidy_run (hok : OrderlyMoves ok) (h₀ : ∀ i, s₀.db.levels i = [])
    (hr : (vaultSystem P).Reach ok (.idle ⟨s₀, [], []⟩) c) :
    ∀ i r p, c.thread i = some (r, p) →
      ∀ d ∈ (c.shared.standing VaultState.db i).deeds, TidyDeed d :=
  upheld_deeds (Z := fun _ x => ∀ d ∈ x.deeds, TidyDeed d) hok h₀ handle_tidy (fun _ _ hx => hx)
    (fun _ _ _ _ hx => hx) hr

/-- The statement that was executed last is tidy. -/
theorem step_tidy (hok : OrderlyMoves ok) (h₀ : ∀ i, s₀.db.levels i = []) {t : VaultState ι}
    {r : Request} {p : Option (VaultM Response)} {o : VaultOp} {b : o.Res}
    (hr : (vaultSystem P).Reach ok (.idle ⟨s₀, [], []⟩)
      (c.put ⟨t, c.shared.arrived, ⟨i, o, b, c.shared.cur⟩ :: c.shared.log⟩ i r p)) :
    TidyDeed ⟨o, b, c.shared.cur.db.levels i⟩ :=
  tidy_run hok h₀ hr i r p (Config.put_thread.2 (.inl ⟨rfl, rfl, rfl⟩)) _
    (History.mem_deeds.2 ⟨_, List.mem_cons_self, rfl, rfl⟩)

/-- In every state the keys are in order. -/
theorem keyed_run (hok : OrderlyMoves ok) (h₀ : WellKept s₀)
    (hr : (vaultSystem P).Reach ok (.idle ⟨s₀, [], []⟩) c) : Keyed (Live c) c.shared.cur := by
  let K (c : VaultConfig ι) : Prop := Keyed (Live c) c.shared.cur
  have hinit : K (.idle ⟨s₀, [], []⟩) := h₀.keyed
  -- whoever is live afterwards was live before
  have hlive {c : VaultConfig ι} {h : History VaultOp VaultOp.Res (VaultState ι) ι Request} {i : ι}
      {r : Request} {p : Option (VaultM Response)} (hi : Live c i) :
      ∀ j, Live (c.put h i r p) j → Live c j := by
    intro j hj
    by_cases hji : j = i
    · exact hji ▸ hi
    · intro r' hr'
      exact hj r' (Config.put_thread.2 (.inr ⟨hji, hr'⟩))
  refine hr.invariant hinit fun c a hr hK ha => Sys.exec_cases (P := K) a hK ?_ ?_ ?_ ?_
  · rintro i r h' - hi hs
    obtain ⟨-, rfl⟩ := recorded_enter hs
    have hi : Live c i := fun r' hr' => by
      rw [hi] at hr'
      cases hr'
    exact hK.mono (hlive hi)
  · rintro i f r o k out h' rfl hi hs
    have hlive_i : Live c i := fun r' hr' => by
      rw [hi] at hr'
      cases hr'
    have hexec := Sys.exec_step hi hs
    rcases recorded_apply hs with ⟨-, rfl⟩ | ⟨a, b, t, -, hx, rfl⟩
    · exact hK.mono (hlive hlive_i)
    · -- the statement is one of the deeds of its connection
      have hreach := Sys.Reach.act _ hr ha
      rw [hexec] at hreach
      exact (hK.step hlive_i hx (step_tidy hok h₀.idle hreach)).mono (hlive hlive_i)
  · rintro i r p - hi
    have hlive_i : Live c i := fun r' hr' => by
      rw [hi] at hr'
      cases hr'
    exact hK.mono (hlive hlive_i)
  · rintro e h' rfl hs
    obtain ⟨t, ht, rfl⟩ := recorded_env hs
    cases e with
    | tick n =>
      obtain rfl := Option.some.inj ht
      exact ⟨hK.linked, hK.kept, hK.unique, hK.fresh, hK.apart, hK.active⟩
    | drop i =>
      obtain ⟨r, hr⟩ := hok c _ ha
      exact hK.drop (fun hi => hi r hr) ht

/-- A linkage that is in the way shows in the tables, or is pending. -/
theorem exec_linked {row : LinkageRow} {a : Except SqlError Bool} {s t : VaultState ι}
    (h : exec i (.linkConsent row) a s = some (.ok false, t)) :
    row.key ∈ (s.db.pending i).flatMap Change.linkKeys ++ s.db.base.linkageKeys := by
  have hview : (s.view i).linkageKeys =
      (s.db.pending i).flatMap Change.linkKeys ++ s.db.base.linkageKeys :=
    Tables.foldr_linkageKeys _
  rw [← hview]
  simp only [exec] at h
  (repeat' split at h) <;> cases h
  rename_i hany
  obtain ⟨r, hr, hkey⟩ := List.any_eq_true.1 hany
  exact List.mem_map.2 ⟨r, hr, beq_iff_eq.1 hkey⟩

/-- `ON CONFLICT DO NOTHING` never hides the linkage of a create. -/
theorem linkConsent_fresh (hok : OrderlyMoves ok) (h₀ : WellKept s₀)
    (hr : (vaultSystem P).Reach ok (.idle ⟨s₀, [], []⟩) c) :
    ∀ i row pre, (⟨i, .linkConsent row, .ok false, pre⟩ :
      Event VaultOp VaultOp.Res (VaultState ι) ι) ∉ c.shared.log := by
  let K (c : VaultConfig ι) : Prop := ∀ i row pre, (⟨i, .linkConsent row, .ok false, pre⟩ :
    Event VaultOp VaultOp.Res (VaultState ι) ι) ∉ c.shared.log
  have hinit : K (.idle ⟨s₀, [], []⟩) := fun _ _ _ => List.not_mem_nil
  refine hr.invariant hinit fun c a hr hK ha => Sys.exec_cases (P := K) a hK ?_ ?_ ?_ ?_
  · rintro i r h' - hi hs
    obtain ⟨-, rfl⟩ := recorded_enter hs
    exact hK
  · rintro i f r o k out h' rfl hi hs j row pre hmem
    have hexec := Sys.exec_step hi hs
    rcases recorded_apply hs with ⟨-, rfl⟩ | ⟨a, b, t, -, hx, rfl⟩
    · exact hK j row pre hmem
    rcases List.mem_cons.1 hmem with heq | hmem
    · cases heq
      have hkeyed := keyed_run hok h₀ hr
      have hreach := Sys.Reach.act _ hr ha
      rw [hexec] at hreach
      obtain ⟨hinserted, hunlinked⟩ := (step_tidy hok h₀.idle hreach).link row rfl
      have hlive : Live c i := fun r' hr' => by
        rw [hi] at hr'
        cases hr'
      -- the object is new, and what is linked has its rows
      have hlinked := exec_linked hx
      unfold Sessions.pending at hlinked
      rw [hunlinked, List.nil_append] at hlinked
      exact hkeyed.fresh i hlive row.key hinserted (hkeyed.linked _ hlinked)
    · exact hK j row pre hmem
  · rintro i r p - -
    exact hK
  · rintro e h' rfl hs
    obtain ⟨t, -, rfl⟩ := recorded_env hs
    exact hK

end Runs

end CanvasOS.Vault
