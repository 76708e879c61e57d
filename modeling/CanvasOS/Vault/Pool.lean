/-
  The connection pool of Vault (`db.get_pool`).

  1. `heldAfter`, `connections` — what a statement does to the connections in use, and to the number
     of those that its own request has.
  2. `Nested n p` — from at most `n` connections `p` comes back to at most `n`, and never has more
     than two.  Every request is nested, so that one which waits for a connection has at most one.
  3. `Deadlocked` — all connections are held by requests that wait for another.  Twenty rejected
     creates get there; while fewer than twenty requests have a connection nobody does.
-/
import Mathlib.Data.Finset.Card
import Mathlib.Data.List.Duplicate
import CanvasOS.Lib.Part
import CanvasOS.Vault.Retention

namespace CanvasOS.Vault

open Python Interleave

variable {ι : Type} [DecidableEq ι]

/-! ## What a statement does to the pool -/

section Held

variable {i j : ι} {o : VaultOp} {a b : o.Res} {s t : VaultState ι}

/-- The connections in use after a statement of thread `i`. -/
def heldAfter (i : ι) : VaultOp → List ι → List ι
  | .acquire _, held => i :: held
  | .release _, held => held.erase i
  | _, held => held

@[simp] theorem VaultState.write_held {c : Change} : (s.write i c).held = s.held := rfl

@[simp] theorem VaultState.lockRows_held {rows : List RetentionRow} :
    (s.lockRows i rows).held = s.held := rfl

theorem exec_held (h : exec i o a s = some (b, t)) : t.held = heldAfter i o s.held := by
  unfold exec at h
  split at h <;> (repeat' split at h) <;>
    first
    | contradiction
    | (cases h; rfl)

/-- A statement leaves the connections of the others alone. -/
theorem count_heldAfter_of_ne (hji : j ≠ i) (held : List ι) :
    (heldAfter i o held).count j = held.count j := by
  cases o with
  | acquire conn => exact List.count_cons_of_ne (Ne.symm hji)
  | release conn => exact List.count_erase_of_ne hji
  | _ => rfl

end Held

/-! ## The connections of one request -/

/-- The number of connections after a statement, whatever it is answered. -/
def connections (o : VaultOp) (a : o.Res) (n : Nat) : Option (o.Res × Nat) :=
  some (a, match o with
    | .acquire _ => n + 1
    | .release _ => n - 1
    | _ => n)

/-- The statement neither takes nor gives back a connection. -/
def VaultOp.onConnection : VaultOp → Bool
  | .acquire _ | .release _ => false
  | _ => true

theorem connections_onConnection {o : VaultOp} {a b : o.Res} {n m : Nat}
    (ho : o.onConnection = true) (h : connections o a n = some (b, m)) : m = n := by
  cases o with
  | acquire conn | release conn => cases ho
  | _ => exact ((Prod.mk.inj (Option.some.inj h)).2).symm

/-- From at most `n` connections back to at most `n`, with never more than two. -/
def Nested {α : Type} (n : Nat) (p : VaultM α) : Prop :=
  ∀ m ≤ n, Keeps connections (· ≤ 2) p (fun _ k => k ≤ n) m

namespace Nested

variable {α β : Type} {n : Nat} {p : VaultM α}

theorem pure (hn : n ≤ 2) (a : α) : Nested n (.pure a) := fun _ hm =>
  Keeps.pure (Nat.le_trans hm hn) hm

theorem throw (hn : n ≤ 2) (e : Failure) : Nested n (.throw e : VaultM α) := fun _ hm =>
  Keeps.throw (Nat.le_trans hm hn)

theorem bind {f : α → VaultM β} (hp : Nested n p) (hf : ∀ a, Nested n (f a)) :
    Nested n (p.bind f) := fun m hm =>
  (hp m hm).bind fun a k _ hk => hf a k hk

/-- A routine that stays on its connections. -/
theorem of_only (hn : n ≤ 2) (hp : p.Only fun o => o.onConnection = true) : Nested n p := by
  intro m hm
  have hm2 : m ≤ 2 := Nat.le_trans hm hn
  induction p with
  | pure a => exact Keeps.pure hm2 hm
  | throw e => exact Keeps.throw hm2
  | op o k ih =>
    refine ⟨hm2, fun e => ih _ (hp.2 _), fun a b m' hx => ?_⟩
    rw [connections_onConnection hp.1 hx]
    exact ⟨ih _ (hp.2 _), fun e => ih _ (hp.2 _)⟩

/-- One statement, which may take a connection. -/
theorem ask_bind {o : VaultOp} {f : o.Res → VaultM β} {R : β → Nat → Prop} {m : Nat} (hm : m ≤ 2)
    (h : ∀ a b k, connections o a m = some (b, k) → Keeps connections (· ≤ 2) (f b) R k) :
    Keeps connections (· ≤ 2) ((ask o).bind f) R m :=
  ⟨hm, fun _ => hm, fun a b k hx => ⟨h a b k hx, fun _ => (h a b k hx).inv⟩⟩

/-- `async with pool.acquire() as conn` -/
theorem withConnection {conn : Conn} (hn : n + 1 ≤ 2) (hp : Nested (n + 1) p) :
    Nested n (withConnection conn p) := by
  intro m hm
  have hm2 : m ≤ 2 := by omega
  refine ask_bind hm2 fun a b k hk => ?_
  obtain ⟨-, rfl⟩ := Prod.mk.inj (Option.some.inj hk)
  have hrelease : ∀ k ≤ 2, Keeps connections (· ≤ 2) (ask (.release conn))
      (fun _ k' => k' = k - 1) k := by
    intro k hk2
    refine ⟨hk2, fun _ => hk2, fun a b k' hx => ?_⟩
    obtain ⟨-, rfl⟩ := Prod.mk.inj (Option.some.inj hx)
    have hle : k - 1 ≤ 2 := by omega
    exact ⟨⟨hle, rfl⟩, fun _ => hle⟩
  -- the body may end with `n + 1` connections, and one of them is given back
  exact (hp (m + 1) (by omega)).thenFinally
    (fun a k hk2 hk => (hrelease k hk2).mono fun _ k' _ hk' => by omega)
    (fun k hk2 => (hrelease k hk2).mono fun _ _ _ _ => True.intro)

/-- One statement on the connection there is. -/
theorem ask {o : VaultOp} (hn : n ≤ 2) (ho : o.onConnection = true) : Nested n (ask o) :=
  of_only hn (ask_only ho)

/-- `async with conn.transaction()` -/
theorem transaction (hn : n ≤ 2) (hp : Nested n p) : Nested n (transaction p) := by
  have hbody : Nested n (p.tryCatch fun e => (Vault.ask .rollback).bind fun _ => .throw e) := by
    intro m hm
    refine (hp m hm).tryCatch fun e k hk => ?_
    refine (ask (Nat.le_refl 2) rfl k hk).bind fun _ _ hJ _ => Keeps.throw hJ
  exact (ask hn rfl).bind fun _ => hbody.bind fun a => (ask hn rfl).bind fun _ => pure hn a

end Nested

/-! ## Every request is nested -/

section Requests

variable {P : Runtime} {config : ObjectTypeConfig} {payload : Payload}

theorem writeAuditIsolated_nested (row : AuditRow) : Nested 1 (writeAuditIsolated row) :=
  .withConnection (Nat.le_refl 2) (.ask (Nat.le_refl 2) (by rfl))

/-- A rejection writes its audit row on a second connection. -/
theorem rejectTaxonomy_nested (reason message code fieldName : String) :
    Nested 1 (rejectTaxonomy config reason message code fieldName) :=
  (writeAuditIsolated_nested _).bind fun _ => .throw (by decide) _

theorem checkPresent_nested (fields : List String) :
    Nested 1 (checkPresent config payload fields) := by
  induction fields with
  | nil => exact .pure (by decide) ()
  | cons fieldName rest ih =>
    unfold checkPresent
    split
    · exact rejectTaxonomy_nested _ _ _ _
    · exact ih

theorem compute_nested {α : Type} (r : Except Failure α) : Nested 1 (compute r) :=
  .of_only (by decide) (compute_only r)

theorem checkAllowed_nested (fieldName : String) (allowed : List String) :
    Nested 1 (checkAllowed config payload fieldName allowed) := by
  refine (compute_nested _).bind fun ok => ?_
  cases ok with
  | true => exact .pure (by decide) ()
  | false => exact rejectTaxonomy_nested _ _ _ _

theorem checkCampaign_nested : Nested 1 (checkCampaign P config payload) := by
  unfold checkCampaign
  split
  · exact .pure (by decide) ()
  · exact rejectTaxonomy_nested _ _ _ _

theorem validateTaxonomy_nested : Nested 1 (validateTaxonomy P config payload) :=
  (checkPresent_nested _).bind fun _ => (checkAllowed_nested _ _).bind fun _ =>
    (checkAllowed_nested _ _).bind fun _ => (checkAllowed_nested _ _).bind fun _ =>
      checkCampaign_nested

theorem consentOf_nested : Nested 1 (consentOf config payload) := by
  refine (compute_nested _).bind fun _ => (compute_nested _).bind fun subject =>
    (compute_nested _).bind fun channel => (compute_nested _).bind fun purpose =>
      (Nested.ask (by decide) (by rfl)).bind fun consentId => ?_
  cases consentId with
  | some id => exact .pure (by decide) _
  | none => exact (writeAuditIsolated_nested _).bind fun _ => .throw (by decide) _

theorem handleConsentGate_nested : Nested 1 (handleConsentGate config payload) := by
  unfold handleConsentGate
  split
  · exact .pure (by decide) _
  · split
    · exact consentOf_nested
    · exact .pure (by decide) _

theorem insertObject_only (extraColumns : List (String × SqlValue)) :
    (insertObject P config payload extraColumns).Only fun o => o.onConnection = true := by
  refine (compute_only _).bind fun new => (ask_only (by rfl)).bind fun now =>
    (ask_only (by rfl)).bind fun answer => ?_
  cases answer with
  | ok id => exact True.intro
  | error e => cases e <;> exact True.intro

theorem linkConsent_only (table : String) (id : Uuid) (consent : Option Uuid) :
    (linkConsent table id consent).Only fun o => o.onConnection = true := by
  cases consent with
  | none => exact True.intro
  | some consent =>
    exact (ask_only (by rfl)).bind fun answer => (orRaise_only answer).bind fun _ => True.intro

theorem contentColumns_only (data : List UInt8) :
    (contentColumns P data).Only fun o => o.onConnection = true := by
  refine Prog.Only.bind ((ask_only (by rfl)).bind fun there => ?_) fun digest => True.intro
  cases there with
  | true => exact True.intro
  | false => exact (ask_only (by rfl)).bind fun _ => True.intro

theorem createObject_nested {extraColumns : VaultM (List (String × SqlValue))}
    (hextra : Nested 1 extraColumns) : Nested 1 (createObject P config payload extraColumns) :=
  validateTaxonomy_nested.bind fun _ => (compute_nested _).bind fun _ =>
    handleConsentGate_nested.bind fun _ => hextra.bind fun _ =>
      (Nested.of_only (by decide) (insertObject_only _)).bind fun id =>
        (Nested.of_only (by decide) (linkConsent_only _ _ _)).bind fun _ => .pure (by decide) id

theorem createAndFetch_nested {extraColumns : VaultM (List (String × SqlValue))}
    (hextra : Nested 1 extraColumns) :
    Nested 0 (createAndFetch P config payload extraColumns) :=
  .withConnection (by decide)
    (((createObject_nested hextra).transaction (by decide)).bind fun _ => .ask (by decide) (by rfl))

theorem applyUpdates_only (key : Key) (sets : List (String × SqlValue)) :
    (applyUpdates key sets).Only fun o => o.onConnection = true := by
  unfold applyUpdates
  split
  · exact True.intro
  · exact ask_only (by rfl)

theorem assertTaxonomyImmutable_only (key : Key) :
    (assertTaxonomyImmutable P key payload).Only fun o => o.onConnection = true := by
  unfold assertTaxonomyImmutable
  dsimp only
  split
  · exact True.intro
  · refine (ask_only (by rfl)).bind fun current => ?_
    cases current with
    | some row => exact compute_only _
    | none => exact True.intro

theorem updateObject_only (id : Uuid) :
    (updateObject P config id payload).Only fun o => o.onConnection = true := by
  refine (assertTaxonomyImmutable_only _).bind fun _ => (compute_only _).bind fun sets =>
    (applyUpdates_only _ _).bind fun found => ?_
  cases found with
  | true => exact ask_only (by rfl)
  | false => exact True.intro

theorem tryDeleteBlob_only (digest : String) (stillReferenced : Bool) :
    (tryDeleteBlob digest stillReferenced).Only fun o => o.onConnection = true := by
  refine Prog.Only.tryCatch (Prog.Only.bind ?_ fun _ => True.intro) fun e => ?_
  · unfold deleteContentIfUnreferenced
    split
    · exact True.intro
    · refine (ask_only (by rfl)).bind fun there => ?_
      cases there with
      | true => exact ask_only (by rfl)
      | false => exact True.intro
  · split <;> exact True.intro

theorem blobStep_only (row : RetentionRow) :
    (blobStep row).Only fun o => o.onConnection = true := by
  unfold blobStep deleteBlobOf
  split
  · refine (ask_only (by rfl)).bind fun asset => ?_
    split
    · exact True.intro
    · exact (ask_only (by rfl)).bind fun _ => (tryDeleteBlob_only _ _).bind fun _ => True.intro
  · exact True.intro

theorem deleteExpired_nested (row : RetentionRow) (digest : Option String) :
    Nested 1 (deleteExpired row digest) :=
  .transaction (by decide) (.of_only (by decide) ((ask_only (by rfl)).bind fun answer =>
    (orRaise_only answer).bind fun _ => (ask_only (by rfl)).bind fun _ => ask_only (by rfl)))

theorem processRow_nested (row : RetentionRow) : Nested 1 (processRow row) := by
  unfold processRow
  split
  · refine (Nested.of_only (by decide) (blobStep_only row)).bind fun blob => ?_
    obtain ⟨digest, failed⟩ := blob
    cases failed with
    | true => exact (writeAuditIsolated_nested _).bind fun _ => .pure (by decide) _
    | false => exact (deleteExpired_nested row digest).bind fun _ => .pure (by decide) _
  · exact .pure (by decide) _

theorem sweepRows_nested (rows : List RetentionRow) : Nested 1 (sweepRows rows) := by
  induction rows with
  | nil => exact .pure (by decide) _
  | cons row rest ih =>
    exact (processRow_nested row).bind fun _ => ih.bind fun _ => .pure (by decide) _

theorem runRetentionExpiry_nested : Nested 0 runRetentionExpiry := by
  refine Nested.withConnection (by decide) (Nested.bind (.ask (by decide) (by rfl)) fun runId => ?_)
  have hsweep : Nested 1 sweepExpired :=
    (Nested.ask (by decide) (by rfl)).bind fun rows => sweepRows_nested rows
  refine (hsweep.transaction (by decide)).bind fun counts => ?_
  obtain ⟨deletedCount, failedCount⟩ := counts
  exact (Nested.ask (by decide) (by rfl)).bind fun now =>
    (Nested.ask (by decide) (by rfl)).bind fun purged =>
      (Nested.ask (by decide) (by rfl)).bind fun _ => .pure (by decide) _

/-- Every request comes without a connection and leaves without one. -/
theorem handle_nested (r : Request) : Nested 0 (handle P r) := by
  cases r with
  | create config payload =>
    show Nested 0 (if _ then _ else _)
    split
    · refine Nested.bind (.of_only (Nat.zero_le 2) (compute_only _)) fun raw => ?_
      refine (createAndFetch_nested (.of_only (by decide) (contentColumns_only raw))).bind
        fun found => .of_only (Nat.zero_le 2) ?_
      cases found <;> exact True.intro
    · exact (createAndFetch_nested (.pure (by decide) [])).bind fun found =>
        .pure (Nat.zero_le 2) _
  | patch config id payload =>
    show Nested 0 (if _ then _ else _)
    split
    · have hpatch : Nested (0 + 1) (transaction (updateObject P config id payload)) :=
        .transaction (by decide) (.of_only (by decide) (updateObject_only id))
      refine (hpatch.withConnection (by decide)).bind fun found =>
        .of_only (Nat.zero_le 2) ?_
      cases found <;> exact True.intro
    · exact .throw (Nat.zero_le 2) _
  | delete config id =>
    show Nested 0 (if _ then _ else _)
    split
    · have hdelete : Nested (0 + 1) ((ask (.deleteObject (config.name, id))).bind orRaise) :=
        .of_only (by decide) ((ask_only (by rfl)).bind fun answer => orRaise_only answer)
      exact (hdelete.withConnection (by decide)).bind fun _ => .pure (Nat.zero_le 2) _
    · exact .throw (Nat.zero_le 2) _
  | sweep =>
    have hselect (id : Nat) : Nested (0 + 1) (ask (.selectRun id)) :=
      .ask (by decide) (by rfl)
    exact runRetentionExpiry_nested.bind fun summary =>
      ((hselect summary.id).withConnection (by decide)).bind fun row => .pure (Nat.zero_le 2) _

end Requests

/-! ## Deadlock -/

/-- Thread `i` takes a connection next, or waits for one. -/
def acquires (c : VaultConfig ι) (i : ι) : Bool :=
  match c.next i with
  | some (.acquire _) => true
  | _ => false

/-- All connections are held, by requests each of which waits for another. -/
def Deadlocked (c : VaultConfig ι) : Prop :=
  c.shared.cur.held.length = poolSize ∧ ∀ i ∈ c.shared.cur.held, acquires c i = true

instance (c : VaultConfig ι) : Decidable (Deadlocked c) :=
  inferInstanceAs (Decidable (_ ∧ _))

/-- The requests that have a connection. -/
def holders (c : VaultConfig ι) : Finset ι := c.shared.cur.held.toFinset

/-- A connection is taken only where, with it, fewer than twenty requests have one. -/
def LeavesOne (c : VaultConfig ι) : VaultAct ι → Prop
  | .step i _ => acquires c i = true → (insert i (holders c)).card < poolSize
  | a => Orderly c a

section Deadlock

variable {P : Runtime} {ok : VaultConfig ι → VaultAct ι → Prop} {c : VaultConfig ι}
  {s₀ : VaultState ι}

/-- The connections of a request are changed by its own statements only. -/
theorem connections_parted (hok : ∀ c e, ok c (.env e) → Orderly c (.env e)) :
    Parted (vaultSystem P) ok (fun i h => h.cur.held.count i) connections where
  enter i r h h' j hs := by
    obtain ⟨-, rfl⟩ := recorded_enter hs
    rfl
  run i o a b h h' hs := by
    obtain ⟨t, hx, rfl⟩ := recorded_run hs
    have hheld := exec_held hx
    unfold connections
    rw [hheld]
    cases o with
    | acquire conn => simp [heldAfter]
    | release conn => simp [heldAfter]
    | _ => rfl
  others i o a b h h' j hs hji := by
    obtain ⟨t, hx, rfl⟩ := recorded_run hs
    show t.held.count j = h.cur.held.count j
    rw [exec_held hx, count_heldAfter_of_ne hji]
  env c e h' j ha hs hj := by
    obtain ⟨t, ht, rfl⟩ := recorded_env hs
    have horderly := hok c e ha
    cases e with
    | tick n =>
      obtain rfl := Option.some.inj ht
      rfl
    | drop i =>
      obtain rfl := Option.some.inj ht
      obtain ⟨r, hr⟩ := horderly
      have hji : j ≠ i := by
        rintro rfl
        exact hj r hr
      show (c.shared.cur.held.filter fun k => k ≠ i).count j = _
      rw [List.count_filter]
      simpa using hji

/-- A request that waits for a connection has at most one. -/
theorem count_of_acquires (hok : ∀ c e, ok c (.env e) → Orderly c (.env e)) (h₀ : s₀.held = [])
    (hr : (vaultSystem P).Reach ok (.idle ⟨s₀, [], []⟩) c) {i : ι} (hi : acquires c i = true) :
    c.shared.cur.held.count i ≤ 1 := by
  have hkeeps := hr.upholds_part (connections_parted hok) (fun i => by simp [h₀]) fun r =>
    (handle_nested r 0 (Nat.le_refl 0)).upholds
  unfold acquires at hi
  split at hi
  · rename_i conn hnext
    unfold Config.next at hnext
    split at hnext
    · rename_i r o k hthread
      obtain rfl := Option.some.inj hnext
      -- had it one connection more, it would have three
      obtain ⟨-, -, hexec⟩ := hkeeps i r _ hthread
      have hthree := (hexec () () _ rfl).1.inv
      have hle : c.shared.cur.held.count i + 1 ≤ 2 := hthree
      omega
    · cases hnext
  · cases hi

/-- Whoever has a connection after a statement had one before, or takes one. -/
theorem heldAfter_subset {i : ι} {o : VaultOp} (held : List ι) (ho : ∀ conn, o ≠ .acquire conn) :
    (heldAfter i o held).toFinset ⊆ held.toFinset := by
  cases o with
  | acquire conn => exact absurd rfl (ho conn)
  | release conn =>
    intro j hj
    exact List.mem_toFinset.2 (List.mem_of_mem_erase (List.mem_toFinset.1 hj))
  | _ => exact fun _ hj => hj

theorem holders_lt (h₀ : s₀.held = [])
    (hr : (vaultSystem P).Reach LeavesOne (.idle ⟨s₀, [], []⟩) c) :
    (holders c).card < poolSize := by
  refine hr.shared_invariant (I := fun h => h.cur.held.toFinset.card < poolSize) ?_ ?_ ?_ ?_
  · show s₀.held.toFinset.card < poolSize
    rw [h₀]
    exact Nat.zero_lt_succ 19
  · intro c i r h' _ hI hs
    obtain ⟨-, rfl⟩ := recorded_enter hs
    exact hI
  · intro c i f r o k out h' hok hthread hI hs
    rcases recorded_apply hs with ⟨-, rfl⟩ | ⟨a, b, t, -, hx, rfl⟩
    · exact hI
    · show t.held.toFinset.card < poolSize
      rw [exec_held hx]
      have hnext : c.next i = some o := by
        unfold Config.next
        rw [hthread]
      by_cases ho : ∃ conn, o = .acquire conn
      · obtain ⟨conn, rfl⟩ := ho
        have hacquires : acquires c i = true := by
          unfold acquires
          rw [hnext]
        have hroom := hok hacquires
        rwa [holders, ← List.toFinset_cons] at hroom
      · have hsub := heldAfter_subset (i := i) c.shared.cur.held fun conn h => ho ⟨conn, h⟩
        exact Nat.lt_of_le_of_lt (Finset.card_le_card hsub) hI
  · intro c e h' _ hI hs
    obtain ⟨t, ht, rfl⟩ := recorded_env hs
    cases e with
    | tick n =>
      obtain rfl := Option.some.inj ht
      exact hI
    | drop i =>
      obtain rfl := Option.some.inj ht
      refine Nat.lt_of_le_of_lt (Finset.card_le_card fun j hj => ?_) hI
      exact List.mem_toFinset.2 (List.mem_of_mem_filter (List.mem_toFinset.1 hj))

/-- While fewer than twenty requests have a connection, the pool does not wait for itself. -/
theorem never_deadlocked (h₀ : s₀.held = [])
    (hr : (vaultSystem P).Reach LeavesOne (.idle ⟨s₀, [], []⟩) c) : ¬ Deadlocked c := by
  rintro ⟨hfull, hwait⟩
  have hfew := holders_lt h₀ hr
  -- twenty connections in fewer than twenty hands: somebody has two
  have hdup : ¬ c.shared.cur.held.Nodup := by
    intro hnodup
    have hcard := List.toFinset_card_of_nodup hnodup
    unfold holders at hfew
    omega
  obtain ⟨i, hi⟩ := List.exists_duplicate_iff_not_nodup.2 hdup
  have htwo := List.duplicate_iff_two_le_count.1 hi
  have horderly (c : VaultConfig ι) (e : Move ι) (h : LeavesOne c (.env e)) : Orderly c (.env e) := h
  have hone := count_of_acquires horderly h₀ hr (hwait i hi.mem)
  omega

end Deadlock

/-- So many creates without a taxonomy arrive; each takes its connection and begins. -/
def rejectedCreates (n : Nat) : List (VaultAct Nat) :=
  (List.range n).flatMap fun i =>
    [.enter i (.create signals []), .step i fun o => .ok (plainAnswer o),
      .step i fun o => .ok (plainAnswer o)]

/-- Where they stand. -/
def rejectedEnd (n : Nat) : VaultConfig Nat :=
  (rejectedCreates n).foldl (vaultSystem plainRuntime).exec (.idle ⟨emptyVault, [], []⟩)

theorem rejectedCreates_no_move {n : Nat} {a : VaultAct Nat} (h : a ∈ rejectedCreates n) :
    ∀ e, a ≠ .env e := by
  obtain ⟨i, -, hi⟩ := List.mem_flatMap.1 h
  rintro e rfl
  simp at hi

theorem rejectedEnd_reach {ok : VaultConfig Nat → VaultAct Nat → Prop} {n : Nat}
    (hok : ∀ m : Fin (rejectedCreates n).length, ∀ a, (∀ e, a ≠ .env e) →
      ok (((rejectedCreates n).take m).foldl (vaultSystem plainRuntime).exec
        (.idle ⟨emptyVault, [], []⟩)) a) :
    (vaultSystem plainRuntime).Reach ok (.idle ⟨emptyVault, [], []⟩) (rejectedEnd n) :=
  Sys.Reach.init.foldl _ fun m => hok m _ (rejectedCreates_no_move (List.getElem_mem m.2))

theorem leavesOne_of_room {c : VaultConfig Nat} {a : VaultAct Nat} (ha : ∀ e, a ≠ .env e)
    (hroom : (holders c).card + 1 < poolSize) : LeavesOne c a := by
  cases a with
  | step i f => exact fun _ => Nat.lt_of_le_of_lt (Finset.card_insert_le _ _) hroom
  | env e => exact absurd rfl (ha e)
  | _ => exact True.intro

/-- Eighteen rejected creates wait for the audit row's connection, and get it. -/
theorem eighteen_rejected_go_on :
    acquires (rejectedEnd 18) 0 = true ∧ ¬ Deadlocked (rejectedEnd 18) := by
  have hroom : ∀ m : Fin (rejectedCreates 18).length,
      (holders (((rejectedCreates 18).take m).foldl (vaultSystem plainRuntime).exec
        (.idle ⟨emptyVault, [], []⟩))).card + 1 < poolSize := by decide +kernel
  have hreach : (vaultSystem plainRuntime).Reach LeavesOne (.idle ⟨emptyVault, [], []⟩)
      (rejectedEnd 18) := rejectedEnd_reach fun m _ ha => leavesOne_of_room ha (hroom m)
  exact ⟨by decide +kernel, never_deadlocked rfl hreach⟩

theorem twenty_rejected_deadlock : ¬ ∀ (P : Runtime) (c : VaultConfig Nat),
    (vaultSystem P).Reach Orderly (.idle ⟨emptyVault, [], []⟩) c → ¬ Deadlocked c := by
  intro h
  refine h plainRuntime (rejectedEnd 20) (rejectedEnd_reach fun m a ha => ?_) (by decide +kernel)
  cases a with
  | env e => exact absurd rfl (ha e)
  | _ => exact True.intro

end CanvasOS.Vault
