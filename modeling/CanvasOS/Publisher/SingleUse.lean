/-
  A gate token publishes at most once, whatever runs next to it.

  Any number of `POST /publish` requests run against one ledger, statement by statement, while an
  operator flips kill switches.  What is counted stands in the history of executed statements: the
  ledger inserts that won (`consumedJti`), the drafts and the `published` rows.

  1. **Invariant** (`Inv`) — every winning insert is in the ledger, no two won the same jti, every
     draft and every `published` row was preceded by the winning insert of the SAME request, no
     request has two of either, and a request that won has its checks on record (`Justified`).
  2. **Step** (`wp_quiet`) — a statement that neither wins the ledger nor writes outside keeps all
     of it and only adds to the record (`Extends`).
  3. **Routine** — the checks are quiet and leave their evidence; the three loud statements are
     justified one by one (`wp_publishOnce`), and rely–guarantee does the rest.
-/
import CanvasOS.Lib.RelyGuarantee
import CanvasOS.Publisher.Publish
import Mathlib.Data.List.Nodup

namespace CanvasOS.Publisher

open Interleave Python Governance

/-- An executed statement of some request. -/
abbrev PubEvent := Event PubOp PubOp.Res Db Nat

/-- The tables, the requests and the statements executed so far. -/
abbrev PubHistory := History PubOp PubOp.Res Db Nat PublishRequest

/-- Publisher serving requests while an operator rewrites the kill-switch table. -/
def publisher (py : Stdlib) (S : Settings) :
    Sys PubOp PubOp.Res Exc PubHistory Nat PublishRequest PublishResponse (List KillSwitch) :=
  recorded (publishImpl py S) (fun _ o => exec o)
    fun switches db => some { db with killSwitches := switches }

/-! ## What is counted -/

/-- The jti whose ledger insert this statement won. -/
def consumedJti : PubEvent → Option Json
  | ⟨_, .consumeJti jti _, true, _⟩ => some jti
  | _ => none

/-- A draft went to Buffer. -/
def isDraft : PubEvent → Bool
  | ⟨_, .createDraft _ _ _ _, _, _⟩ => true
  | _ => false

/-- The row this statement appended to `publish_attempts`. -/
def attemptRow : PubEvent → Option Attempt
  | ⟨_, .insertAttempt row, _, _⟩ => some row
  | _ => none

/-- A `published` row was appended. -/
def isPublished (e : PubEvent) : Bool :=
  (attemptRow e).any fun row => row.outcome == outcomePublished

/-- Thread `i` won the ledger insert of `jti`: it reached the point after `JtiLedger.consume`. -/
def Consumed (h : PubHistory) (i : Nat) (jti : Json) : Prop :=
  ∃ e ∈ h.log, e.who = i ∧ consumedJti e = some jti

/-- `verify` accepted the token with these claims: a non-blank token, a pinned algorithm, and the
    token library's verdict. -/
def Accepted (S : Settings) (h : PubHistory) (i : Nat) (gateToken : Option String)
    (claims : Claims) : Prop :=
  ∃ token, gateToken = some token ∧ strip token.toList ≠ [] ∧
    (∃ header pre, ⟨i, .getUnverifiedHeader token, header, pre⟩ ∈ h.log ∧
      pinned S.allowedAlgorithms header = true) ∧
    ∃ pre, ⟨i, .jwtDecode token, claims, pre⟩ ∈ h.log

/-- The kill-switch read of thread `i` found no active switch that blocks the function. -/
def FoundUnblocked (h : PubHistory) (i : Nat) (functionId : Json) : Prop :=
  ∃ row pre, ⟨i, .selectActiveSwitches functionId, row, pre⟩ ∈ h.log ∧
    Unblocked pre.killSwitches functionId

/-- The Vault told thread `i` that the asset's stored hash is the given one. -/
def VaultHash (py : Stdlib) (h : PubHistory) (i : Nat) (assetId hash : String) : Prop :=
  ∃ asset pre, ⟨i, .getAsset assetId, ⟨200, some (.obj asset)⟩, pre⟩ ∈ h.log ∧
    digestForm (py.str (Json.get asset "content_hash")) = digestForm hash

/-- Everything the request had to show before its token was used up. -/
def Justified (py : Stdlib) (S : Settings) (h : PubHistory) (i : Nat) (request : PublishRequest)
    (jti : Json) : Prop :=
  ∃ assetBytes claims b bound,
    py.b64decode request.assetBytesB64 = some assetBytes ∧
    Accepted S h i request.gateToken claims ∧ Json.lookup claims "jti" = some jti ∧
    extractFunctionIdAndContentHash py claims = .ok b ∧
    FoundUnblocked h i b.functionId ∧
    b.contentHash = .str bound ∧ digestForm bound = digestForm (py.sha256Hex assetBytes) ∧
    ∀ assetId, request.assetId = some assetId → assetId ≠ "" →
      VaultHash py h i assetId (py.sha256Hex assetBytes)

section Growing

variable {py : Stdlib} {S : Settings} {h h' : PubHistory} {i : Nat}

/-- The record is only ever added to. -/
theorem Consumed.mono {jti : Json} (hl : ∀ e ∈ h.log, e ∈ h'.log) (hc : Consumed h i jti) :
    Consumed h' i jti := by
  obtain ⟨e, he, hw, hj⟩ := hc
  exact ⟨e, hl e he, hw, hj⟩

theorem Accepted.mono {token : Option String} {claims : Claims}
    (hl : ∀ e ∈ h.log, e ∈ h'.log) (ha : Accepted S h i token claims) :
    Accepted S h' i token claims := by
  obtain ⟨t, ht, hs, ⟨header, pre, hh, hp⟩, pre', hd⟩ := ha
  exact ⟨t, ht, hs, ⟨header, pre, hl _ hh, hp⟩, pre', hl _ hd⟩

theorem FoundUnblocked.mono {f : Json} (hl : ∀ e ∈ h.log, e ∈ h'.log)
    (hf : FoundUnblocked h i f) : FoundUnblocked h' i f := by
  obtain ⟨row, pre, hr, hu⟩ := hf
  exact ⟨row, pre, hl _ hr, hu⟩

theorem VaultHash.mono {assetId hash : String} (hl : ∀ e ∈ h.log, e ∈ h'.log)
    (hv : VaultHash py h i assetId hash) : VaultHash py h' i assetId hash := by
  obtain ⟨asset, pre, ha, hd⟩ := hv
  exact ⟨asset, pre, hl _ ha, hd⟩

theorem Justified.mono {request : PublishRequest} {jti : Json} (hl : ∀ e ∈ h.log, e ∈ h'.log)
    (hj : Justified py S h i request jti) : Justified py S h' i request jti := by
  obtain ⟨bytes, claims, b, bound, h₁, h₂, h₃, h₄, h₅, h₆, h₇, h₈⟩ := hj
  exact ⟨bytes, claims, b, bound, h₁, h₂.mono hl, h₃, h₄, h₅.mono hl, h₆, h₇,
    fun a ha hne => (h₈ a ha hne).mono hl⟩

end Growing

/-! ## The invariant -/

/-- Once per request: no request has two statements of kind `k`, and none has one before it has
    won the ledger. -/
structure Once (k : PubEvent → Bool) (log : List PubEvent) : Prop where
  nodup : ((log.filter k).map Event.who).Nodup
  after : ∀ e ∈ log, k e = true → ∃ e' ∈ log, e'.who = e.who ∧ (consumedJti e').isSome

/-- What holds at every moment of every run. -/
structure Inv (py : Stdlib) (S : Settings) (h : PubHistory) : Prop where
  arrived : ∀ e ∈ h.log, ∃ request, (e.who, request) ∈ h.arrived
  ledger : ∀ e ∈ h.log, ∀ jti, consumedJti e = some jti → jti ∈ h.cur.jtiLedger
  jtis : (h.log.filterMap consumedJti).Nodup
  drafts : Once isDraft h.log
  published : Once isPublished h.log
  rows : h.cur.publishAttempts = h.log.filterMap attemptRow
  rowJti : ∀ e ∈ h.log, ∀ row, attemptRow e = some row → row.outcome = outcomePublished →
    Consumed h e.who row.jti
  justified : ∀ e ∈ h.log, ∀ jti, consumedJti e = some jti →
    ∃ request, (e.who, request) ∈ h.arrived ∧ Justified py S h e.who request jti

/-- A statement that neither uses up a token nor writes a draft or a `published` row. -/
def Quiet : PubOp → Prop
  | .consumeJti _ _ => False
  | .createDraft _ _ _ _ => False
  | .insertAttempt row => row.outcome = outcomeRejected
  | _ => True

/-- An event that counts for nothing. -/
def Uncounted (e : PubEvent) : Prop :=
  consumedJti e = none ∧ isDraft e = false ∧ isPublished e = false

theorem uncounted_of_quiet {i : Nat} {o : PubOp} {a : o.Res} {pre : Db} (ho : Quiet o) :
    Uncounted ⟨i, o, a, pre⟩ := by
  cases o with
  | consumeJti | createDraft => exact ho.elim
  | insertAttempt row =>
    have : row.outcome = outcomeRejected := ho
    simp [Uncounted, consumedJti, isDraft, isPublished, attemptRow, this, outcomeRejected,
      outcomePublished]
  | _ => simp [Uncounted, consumedJti, isDraft, isPublished, attemptRow]

theorem Once.cons {k : PubEvent → Bool} {log : List PubEvent} {e : PubEvent} (ho : Once k log)
    (hk : k e = true → (∀ e' ∈ log, e'.who = e.who → k e' = false) ∧
      ∃ e' ∈ log, e'.who = e.who ∧ (consumedJti e').isSome) : Once k (e :: log) := by
  constructor
  · by_cases hke : k e = true
    · rw [List.filter_cons_of_pos hke, List.map_cons, List.nodup_cons]
      refine ⟨fun hmem => ?_, ho.nodup⟩
      obtain ⟨e', he', hw⟩ := List.mem_map.1 hmem
      obtain ⟨hl, hke'⟩ := List.mem_filter.1 he'
      rw [(hk hke).1 e' hl hw] at hke'
      cases hke'
    · rw [List.filter_cons_of_neg hke]
      exact ho.nodup
  · intro e' he' hke'
    rcases List.mem_cons.1 he' with rfl | he'
    · obtain ⟨e'', hl, hw⟩ := (hk hke').2
      exact ⟨e'', List.mem_cons_of_mem _ hl, hw⟩
    · obtain ⟨e'', hl, hw⟩ := ho.after e' he' hke'
      exact ⟨e'', List.mem_cons_of_mem _ hl, hw⟩

/-- Appending an event that breaks none of the counts. -/
theorem Inv.cons {py : Stdlib} {S : Settings} {h : PubHistory} {e : PubEvent} {t : Db}
    (hI : Inv py S h) (ha : ∃ request, (e.who, request) ∈ h.arrived)
    (hledger : ∀ jti ∈ h.cur.jtiLedger, jti ∈ t.jtiLedger)
    (hrows : t.publishAttempts = (attemptRow e).toList ++ h.cur.publishAttempts)
    (hconsumed : ∀ jti, consumedJti e = some jti → jti ∈ t.jtiLedger ∧ jti ∉ h.cur.jtiLedger ∧
      ∃ request, (e.who, request) ∈ h.arrived ∧ Justified py S h e.who request jti)
    (hdraft : isDraft e = true → (∀ e' ∈ h.log, e'.who = e.who → isDraft e' = false) ∧
      ∃ e' ∈ h.log, e'.who = e.who ∧ (consumedJti e').isSome)
    (hpublished : isPublished e = true →
      (∀ e' ∈ h.log, e'.who = e.who → isPublished e' = false) ∧
      ∀ row, attemptRow e = some row → Consumed h e.who row.jti) :
    Inv py S ⟨t, h.arrived, e :: h.log⟩ := by
  have hmem : ∀ e' ∈ h.log, e' ∈ e :: h.log := fun _ he => List.mem_cons_of_mem _ he
  refine ⟨?_, ?_, ?_, hI.drafts.cons hdraft, hI.published.cons fun hp => ⟨(hpublished hp).1, ?_⟩,
    ?_, ?_, ?_⟩
  · intro e' he'
    rcases List.mem_cons.1 he' with rfl | he'
    · exact ha
    · exact hI.arrived e' he'
  · intro e' he' jti hj
    rcases List.mem_cons.1 he' with rfl | he'
    · exact (hconsumed jti hj).1
    · exact hledger jti (hI.ledger e' he' jti hj)
  · cases hc : consumedJti e with
    | none => rw [List.filterMap_cons_none hc]; exact hI.jtis
    | some jti =>
      rw [List.filterMap_cons_some hc, List.nodup_cons]
      refine ⟨fun hin => ?_, hI.jtis⟩
      obtain ⟨e', he', hj⟩ := List.mem_filterMap.1 hin
      exact (hconsumed jti hc).2.1 (hI.ledger e' he' jti hj)
  · obtain ⟨row, hrow, -⟩ := (Option.any_eq_true _ _).1 hp
    obtain ⟨e', he', hw, hj⟩ := (hpublished hp).2 row hrow
    exact ⟨e', he', hw, by simp [hj]⟩
  · rw [hrows, hI.rows]
    cases ha : attemptRow e with
    | none => rw [List.filterMap_cons_none ha]; rfl
    | some row => rw [List.filterMap_cons_some ha]; rfl
  · intro e' he' row hrow hout
    rcases List.mem_cons.1 he' with rfl | he'
    · have hp : isPublished e' = true := by simp [isPublished, hrow, hout]
      exact ((hpublished hp).2 row hrow).mono hmem
    · exact (hI.rowJti e' he' row hrow hout).mono hmem
  · intro e' he' jti hj
    rcases List.mem_cons.1 he' with rfl | he'
    · obtain ⟨-, -, request, hr, hjust⟩ := hconsumed jti hj
      exact ⟨request, hr, hjust.mono hmem⟩
    · obtain ⟨request, hr, hjust⟩ := hI.justified e' he' jti hj
      exact ⟨request, hr, hjust.mono hmem⟩

/-- What a quiet statement does to the tables. -/
theorem exec_quiet {o : PubOp} {a b : o.Res} {db t : Db} (ho : Quiet o)
    (he : exec o a db = some (b, t)) (i : Nat) :
    t.jtiLedger = db.jtiLedger ∧
      t.publishAttempts = (attemptRow ⟨i, o, b, db⟩).toList ++ db.publishAttempts := by
  cases o with
  | consumeJti | createDraft => exact ho.elim
  | selectActiveSwitches f =>
    simp only [exec] at he
    split at he
    · obtain ⟨rfl, rfl⟩ := Prod.mk.inj (Option.some.inj he)
      exact ⟨rfl, rfl⟩
    · cases he
  | _ =>
    obtain ⟨rfl, rfl⟩ := Prod.mk.inj (Option.some.inj he)
    exact ⟨rfl, rfl⟩

/-- An answer a statement has given it also gives when suggested. -/
theorem exec_answer {o : PubOp} {a b : o.Res} {db t : Db} (he : exec o a db = some (b, t)) :
    exec o b db = some (b, t) := by
  cases o with
  | consumeJti jti g =>
    exact he
  | selectActiveSwitches f =>
    simp only [exec] at he
    split at he
    · obtain ⟨rfl, rfl⟩ := Prod.mk.inj (Option.some.inj he)
      simpa only [exec] using if_pos ‹_›
    · cases he
  | _ =>
    obtain ⟨rfl, rfl⟩ := Prod.mk.inj (Option.some.inj he)
    rfl

/-! ## Stepping through the routine -/

/-- `h'` continues `h`, and thread `i` did nothing that counts in between. -/
structure Extends (i : Nat) (h h' : PubHistory) : Prop where
  log : ∀ e ∈ h.log, e ∈ h'.log
  arrived : ∀ x ∈ h.arrived, x ∈ h'.arrived
  own : ∀ e ∈ h'.log, e.who = i → e ∈ h.log ∨ Uncounted e

theorem Extends.refl {i : Nat} {h : PubHistory} : Extends i h h :=
  ⟨fun _ h => h, fun _ h => h, fun _ h _ => .inl h⟩

theorem Extends.trans {i : Nat} {h₁ h₂ h₃ : PubHistory} (h₁₂ : Extends i h₁ h₂)
    (h₂₃ : Extends i h₂ h₃) : Extends i h₁ h₃ :=
  ⟨fun e he => h₂₃.log e (h₁₂.log e he), fun x hx => h₂₃.arrived x (h₁₂.arrived x hx),
    fun e he hw => (h₂₃.own e he hw).elim (fun he => h₁₂.own e he hw) .inr⟩

theorem Extends.of_others {i : Nat} {h h' : PubHistory} (ho : History.Others i h h') :
    Extends i h h' :=
  ⟨ho.log, ho.arrived, fun e he hw => .inl (ho.own e he hw)⟩

theorem Extends.of_quiet {i : Nat} {h : PubHistory} {o : PubOp} {a : o.Res} {t : Db}
    (ho : Quiet o) : Extends i h ⟨t, h.arrived, ⟨i, o, a, h.cur⟩ :: h.log⟩ :=
  ⟨fun _ he => List.mem_cons_of_mem _ he, fun _ hx => hx, fun e he _ => by
    rcases List.mem_cons.1 he with rfl | he
    · exact .inr (uncounted_of_quiet ho)
    · exact .inl he⟩

section Stepping

variable {py : Stdlib} {S : Settings} {h : PubHistory} {i : Nat} {α β : Type}

/-- The routine `p` of thread `i` is justified from `h` on, and ends in `Q`. -/
abbrev Justifies (py : Stdlib) (S : Settings) (i : Nat) (p : Pub α)
    (Q : Except Exc α → PubHistory → Prop) (h : PubHistory) : Prop :=
  (historyRules (Inv py S) fun _ _ _ _ => True).wp (publisher py S).run i p Q h

/-- One quiet statement: it leaves a record of its answer, whatever the others do around it. -/
theorem wp_quiet {o : PubOp} {k : Except Exc o.Res → Pub α} {Q : Except Exc α → PubHistory → Prop}
    (ho : Quiet o) (ha : ∃ request, (i, request) ∈ h.arrived)
    (hok : ∀ h' b pre t, Extends i h h' → ⟨i, o, b, pre⟩ ∈ h'.log → exec o b pre = some (b, t) →
      Justifies py S i (k (.ok b)) Q h')
    (herr : ∀ h' e, Extends i h h' → Justifies py S i (k (.error e)) Q h') :
    Justifies py S i (.op o k) Q h := by
  obtain ⟨request, hreq⟩ := ha
  have hstep : ∀ h₁ h₂ (a b : o.Res), History.Others i h h₁ → Inv py S h₁ →
      (publisher py S).run i o a h₁ = some (b, h₂) →
      Inv py S h₂ ∧ History.Own i h₁ h₂ ∧ Extends i h h₂ ∧
        ∃ t, ⟨i, o, b, h₁.cur⟩ ∈ h₂.log ∧ exec o b h₁.cur = some (b, t) := by
    intro h₁ h₂ a b hrely hI hrun
    obtain ⟨t, hx, rfl⟩ := recorded_run hrun
    obtain ⟨hl, hr⟩ := exec_quiet ho hx i
    have huncounted : Uncounted ⟨i, o, b, h₁.cur⟩ := uncounted_of_quiet ho
    obtain ⟨hc, hd, hp⟩ := huncounted
    refine ⟨hI.cons ⟨request, hrely.arrived _ hreq⟩ (fun j hj => hl ▸ hj) hr ?_ ?_ ?_,
      History.own_cons, (Extends.of_others hrely).trans (.of_quiet ho), t,
      List.mem_cons_self, ?_⟩
    · intro jti hj
      rw [hc] at hj
      cases hj
    · intro hd'
      rw [hd] at hd'
      cases hd'
    · intro hp'
      rw [hp] at hp'
      cases hp'
    · exact exec_answer hx
  refine Rules.wp_op ?_ ?_ ?_
  · intro h₁ h₂ a b hrely hI _ hrun
    obtain ⟨hI₂, hown, hext, t, hmem, hx⟩ := hstep h₁ h₂ a b hrely hI hrun
    exact ⟨hI₂, hown, hok h₂ b h₁.cur t hext hmem hx⟩
  · intro h₁ e hrely hI _
    exact ⟨.refl, herr h₁ e (.of_others hrely)⟩
  · intro h₁ h₂ a b e hrely hI _ hrun
    obtain ⟨hI₂, hown, hext, -⟩ := hstep h₁ h₂ a b hrely hI hrun
    exact ⟨hI₂, hown, herr h₂ e hext⟩

/-- One quiet statement whose answer the routine goes on with. -/
theorem justifies_call {o : PubOp} {f : o.Res → Pub β} {Q : Except Exc β → PubHistory → Prop}
    (ho : Quiet o) (ha : ∃ request, (i, request) ∈ h.arrived)
    (hok : ∀ h' b pre t, Extends i h h' → ⟨i, o, b, pre⟩ ∈ h'.log → exec o b pre = some (b, t) →
      Justifies py S i (f b) Q h')
    (herr : ∀ h' e, Extends i h h' → Q (.error e) h') :
    Justifies py S i ((call o).bind f) Q h :=
  wp_quiet ho ha hok fun _ e hx _ hother => herr _ e (hx.trans (.of_others hother))

/-- A routine that started in `h₀` and did nothing that counts ends: with a value for which `P`
    holds, or with an exception. -/
def Ends (i : Nat) (h₀ : PubHistory) (P : α → PubHistory → Prop) : Except Exc α → PubHistory → Prop
  | .ok a, h => Extends i h₀ h ∧ P a h
  | .error _, h => Extends i h₀ h

/-- A fact about the record that stays true when the record grows. -/
def Lasting (i : Nat) (P : PubHistory → Prop) : Prop := ∀ h h', P h → Extends i h h' → P h'

theorem justifies_pure {h₀ : PubHistory} {a : α} {P : α → PubHistory → Prop}
    (h₀h : Extends i h₀ h) (hP : P a h) (hl : Lasting i (P a)) :
    Justifies py S i (.pure a) (Ends i h₀ P) h :=
  fun h' ho => ⟨h₀h.trans (.of_others ho), hl h h' hP (.of_others ho)⟩

theorem justifies_throw {h₀ : PubHistory} {e : Exc} {P : α → PubHistory → Prop}
    (h₀h : Extends i h₀ h) : Justifies py S i (.throw e : Pub α) (Ends i h₀ P) h :=
  fun _ ho => h₀h.trans (.of_others ho)

theorem justifies_bind {p : Pub α} {f : α → Pub β} {P : α → PubHistory → Prop}
    {Q : Except Exc β → PubHistory → Prop} (hp : Justifies py S i p (Ends i h P) h)
    (hf : ∀ a h', Extends i h h' → P a h' → Justifies py S i (f a) Q h')
    (hQ : ∀ e h', Extends i h h' → Q (.error e) h') : Justifies py S i (p.bind f) Q h := by
  refine Rules.wp.bind (hp.mono fun out h' hout => ?_)
  cases out with
  | ok a => exact hf a h' hout.1 hout.2
  | error e => exact hQ e h' hout

theorem justifies_tryCatch {p : Pub α} {f : Exc → Pub α} {h₀ : PubHistory}
    {P : α → PubHistory → Prop} (hp : Justifies py S i p (Ends i h₀ P) h)
    (hf : ∀ e h', Extends i h₀ h' → Justifies py S i (f e) (Ends i h₀ P) h') :
    Justifies py S i (p.tryCatch f) (Ends i h₀ P) h := by
  refine Rules.wp.tryCatch (hp.mono fun out h' hout => ?_)
  cases out with
  | ok a => exact hout
  | error e => exact hf e h' hout

/-- A routine of quiet statements. -/
theorem justifies_only {p : Pub α} (hp : p.Only Quiet) {h₀ : PubHistory} (h₀h : Extends i h₀ h)
    (ha : ∃ request, (i, request) ∈ h₀.arrived) :
    Justifies py S i p (Ends i h₀ fun _ _ => True) h := by
  induction p generalizing h with
  | pure a => exact justifies_pure h₀h trivial fun _ _ h _ => h
  | throw e => exact justifies_throw h₀h
  | op o k ih =>
    have ha' : ∃ request, (i, request) ∈ h.arrived := ha.imp fun _ hr => h₀h.arrived _ hr
    exact wp_quiet hp.1 ha'
      (fun h' b _ _ hx _ _ => ih (.ok b) (hp.2 _) (h₀h.trans hx))
      (fun h' e hx => ih (.error e) (hp.2 _) (h₀h.trans hx))

/-- A routine that only ends in exceptions satisfies any claim about its value. -/
theorem justifies_refuse {h₀ : PubHistory} {P : α → PubHistory → Prop} {agentRunId : String}
    {gateDecisionId : Option String} {functionId jti contentHash : Json} {reason : String}
    (h₀h : Extends i h₀ h) (ha : ∃ request, (i, request) ∈ h₀.arrived) :
    Justifies py S i (refuse agentRunId gateDecisionId functionId jti contentHash reason : Pub α)
      (Ends i h₀ P) h :=
  wp_quiet rfl (ha.imp fun _ hr => h₀h.arrived _ hr)
    (fun _ _ _ _ hx _ _ => justifies_throw (h₀h.trans hx))
    (fun _ _ hx => justifies_throw (h₀h.trans hx))

/-! ## The checks -/

theorem pinAlgorithm_spec {token : String} (ha : ∃ request, (i, request) ∈ h.arrived) :
    Justifies py S i (pinAlgorithm S.allowedAlgorithms token)
      (Ends i h fun _ h' => ∃ header pre, ⟨i, .getUnverifiedHeader token, header, pre⟩ ∈ h'.log ∧
        pinned S.allowedAlgorithms header = true) h := by
  refine wp_quiet trivial ha (fun h' header pre t hx hmem _ => ?_)
    fun h' e hx => justifies_throw hx
  show Justifies py S i (if pinned S.allowedAlgorithms header then .pure ()
    else .throw (.verification reasonInvalidAlg)) _ h'
  split
  · exact justifies_pure hx ⟨header, pre, hmem, ‹_›⟩
      fun _ _ ⟨header, pre, hm, hp⟩ hx => ⟨header, pre, hx.log _ hm, hp⟩
  · exact justifies_throw hx

/-- What is left of `verify` once the library has decoded the token. -/
theorem boundTaxonomyClaims_spec {h₀ : PubHistory} {claims : Claims} (h₀h : Extends i h₀ h) :
    Justifies py S i (boundTaxonomyClaims py claims)
      (Ends i h₀ fun b _ => extractFunctionIdAndContentHash py claims = .ok b) h := by
  unfold boundTaxonomyClaims
  split
  · exact justifies_pure h₀h ‹_› fun _ _ hb _ => hb
  · exact justifies_throw h₀h
  · exact justifies_throw h₀h

theorem verify_spec {token : Option String} (ha : ∃ request, (i, request) ∈ h.arrived) :
    Justifies py S i (verify py S.allowedAlgorithms token)
      (Ends i h fun claims h' => Accepted S h' i token claims) h := by
  cases token with
  | none => exact justifies_throw .refl
  | some token =>
    show Justifies py S i (if strip token.toList = [] then _ else _) _ h
    split
    · exact justifies_throw .refl
    rename_i hblank
    refine justifies_bind (pinAlgorithm_spec ha) (fun _ h₁ hx₁ ⟨header, pre, hm, hp⟩ => ?_)
      fun _ _ hx => hx
    refine wp_quiet trivial (ha.imp fun _ hr => hx₁.arrived _ hr)
      (fun h₂ claims pre' t hx₂ hm' _ => ?_) fun h₂ e hx₂ => justifies_throw (hx₁.trans hx₂)
    have hacc : Accepted S h₂ i (some token) claims :=
      ⟨token, rfl, hblank, ⟨header, pre, hx₂.log _ hm, hp⟩, pre', hm'⟩
    show Justifies py S i ((boundTaxonomyClaims py claims).bind fun _ => .pure claims) _ h₂
    refine justifies_bind (boundTaxonomyClaims_spec .refl) (fun _ h₃ hx₃ _ => ?_)
      fun _ _ hx => (hx₁.trans hx₂).trans hx
    exact justifies_pure ((hx₁.trans hx₂).trans hx₃) (hacc.mono hx₃.log)
      fun _ _ hacc hx => hacc.mono hx.log

theorem decode_spec {h₀ : PubHistory} {r : Response} (h₀h : Extends i h₀ h) :
    Justifies py S i r.decode (Ends i h₀ fun j _ => r.json = some j) h := by
  unfold Response.decode
  split
  · exact justifies_pure h₀h ‹_› fun _ _ hj _ => hj
  · exact justifies_throw h₀h

theorem asDict_spec {h₀ : PubHistory} {j : Json} (h₀h : Extends i h₀ h) :
    Justifies py S i (asDict j) (Ends i h₀ fun kvs _ => j = .obj kvs) h := by
  unfold asDict
  split
  · exact justifies_pure h₀h rfl fun _ _ hj _ => hj
  · exact justifies_throw h₀h

/-- A dict off the wire: the body was JSON and an object. -/
theorem decodeDict_spec {r : Response} :
    Justifies py S i (r.decode.bind asDict) (Ends i h fun kvs _ => r.json = some (.obj kvs)) h :=
  justifies_bind (decode_spec .refl)
    (fun _ _ hx hj => (asDict_spec hx).mono fun out _ hout => by
      cases out with
      | ok kvs =>
        obtain ⟨hx', rfl⟩ := hout
        exact ⟨hx', hj⟩
      | error e => exact hout)
    fun _ _ hx => hx

theorem fetchAssetAndAgentName_spec {assetId : String} (ha : ∃ request, (i, request) ∈ h.arrived) :
    Justifies py S i (fetchAssetAndAgentName py assetId)
      (Ends i h fun lookup h' => ∃ asset pre,
        ⟨i, .getAsset assetId, ⟨200, some (.obj asset)⟩, pre⟩ ∈ h'.log ∧
          lookup.contentHash = py.str (Json.get asset "content_hash")) h := by
  refine justifies_tryCatch ?_ fun _ _ hx => justifies_throw hx
  refine wp_quiet trivial ha (fun h₁ r pre t hx₁ hmem _ => ?_) fun h₁ e hx₁ => justifies_throw hx₁
  show Justifies py S i (if r.statusCode ≠ 200 then _ else _) _ h₁
  split
  · exact justifies_throw hx₁
  rename_i hstatus
  refine justifies_bind decodeDict_spec (fun asset h₂ hx₂ hasset => ?_) fun _ _ hx => hx₁.trans hx
  obtain rfl : r = ⟨200, some (.obj asset)⟩ := by
    cases r
    simp_all
  show Justifies py S i (if _ then _ else _) _ h₂
  split
  · exact justifies_throw (hx₁.trans hx₂)
  refine wp_quiet trivial (ha.imp fun _ hr => (hx₁.trans hx₂).arrived _ hr)
    (fun h₃ r' pre' t' hx₃ _ _ => ?_) fun h₃ e hx₃ => justifies_throw ((hx₁.trans hx₂).trans hx₃)
  have hx := (hx₁.trans hx₂).trans hx₃
  show Justifies py S i (if r'.statusCode ≠ 200 then _ else _) _ h₃
  split
  · exact justifies_throw hx
  refine justifies_bind decodeDict_spec (fun agentRun h₄ hx₄ _ => ?_) fun _ _ hx' => hx.trans hx'
  show Justifies py S i (if _ then _ else _) _ h₄
  split
  · exact justifies_throw (hx.trans hx₄)
  · exact justifies_pure (hx.trans hx₄)
      ⟨asset, pre, (hx₂.trans (hx₃.trans hx₄)).log _ hmem, rfl⟩
      fun _ _ ⟨asset, pre, hm, he⟩ hx => ⟨asset, pre, hx.log _ hm, he⟩

theorem raising_spec {h₀ : PubHistory} {x : Except Exc α} (h₀h : Extends i h₀ h) :
    Justifies py S i (raising x) (Ends i h₀ fun a _ => x = .ok a) h := by
  unfold raising
  split
  · exact justifies_pure h₀h rfl fun _ _ hj _ => hj
  · exact justifies_throw h₀h

theorem crossCheck_spec {assetId : Option String} {c : Cleared}
    (ha : ∃ request, (i, request) ∈ h.arrived) :
    Justifies py S i (crossCheck py assetId c)
      (Ends i h fun _ h' => ∀ a, assetId = some a → a ≠ "" →
        VaultHash py h' i a c.actualContentHash) h := by
  unfold crossCheck
  split
  · rename_i hnone
    refine justifies_pure .refl (fun a has hne => ?_) fun _ _ hv hx a has hne => (hv a has hne).mono hx.log
    rw [has, Option.filter_some, if_pos (by simpa using hne)] at hnone
    cases hnone
  · rename_i a hsome
    have hids : assetId = some a := Option.eq_some_of_filter_eq_some hsome
    refine justifies_bind (justifies_tryCatch (fetchAssetAndAgentName_spec ha) fun e h' hx => ?_)
      (fun lookup h₁ hx₁ ⟨asset, pre, hm, hhash⟩ => ?_) fun _ _ hx => hx
    · cases e with
      | vaultLookup => exact justifies_refuse hx ha
      | _ => exact justifies_throw hx
    · refine justifies_bind (raising_spec .refl) (fun ok h₂ hx₂ hok => ?_)
        fun _ _ hx => hx₁.trans hx
      cases ok with
      | false => exact justifies_refuse (hx₁.trans hx₂) ha
      | true =>
        obtain ⟨e, he, hd⟩ := eq_of_hashesMatch hok
        obtain rfl := Json.str.inj he
        refine justifies_pure (hx₁.trans hx₂) (fun a' has hne => ?_)
          fun _ _ hv hx a has hne => (hv a has hne).mono hx.log
        obtain rfl := Option.some.inj (hids.symm.trans has)
        exact ⟨asset, pre, hx₂.log _ hm, hhash ▸ hd⟩

/-! ## The quiet routines -/

theorem decode_only {P : PubOp → Prop} {r : Response} : r.decode.Only P := by
  unfold Response.decode
  split <;> trivial

theorem asDict_only {P : PubOp → Prop} {j : Json} : (asDict j).Only P := by
  unfold asDict
  split <;> trivial

theorem decodeDict_only {P : PubOp → Prop} {r : Response} : (r.decode.bind asDict).Only P :=
  decode_only.bind fun _ => asDict_only

theorem callTool_only {P : PubOp → Prop} {r : Response} : (callTool r).Only P := by
  unfold callTool
  split
  · trivial
  refine decodeDict_only.bind fun envelope => ?_
  split
  · trivial
  refine Prog.Only.bind ?_ fun result => ?_
  · unfold dictOrEmpty
    split
    · exact asDict_only
    · trivial
  · show Prog.Only P (if _ then _ else _)
    split <;> trivial

theorem listQueueCount_quiet (channelId : String) : (listQueueCount channelId).Only Quiet := by
  refine (Prog.Only.perform trivial).bind fun response => ?_
  refine (callTool_only.bind fun _ => asDict_only).bind fun result => ?_
  dsimp only
  split
  · exact asDict_only.bind fun _ => trivial
  · trivial

theorem recordPublish_quiet (agentRunId : String) (functionId : Json)
    (contentHash gateDecisionId : String) (jti : Json) :
    (recordPublish py agentRunId functionId contentHash gateDecisionId jti).Only Quiet := by
  refine Prog.Only.tryCatch ?_ fun _ => trivial
  refine (Prog.Only.perform trivial).bind fun source => ?_
  split
  · trivial
  refine decodeDict_only.bind fun source => ?_
  show Prog.Only Quiet (if _ then _ else _)
  split
  · trivial
  refine (Prog.Only.perform trivial).bind fun created => ?_
  split
  · trivial
  refine decodeDict_only.bind fun created => ?_
  show Prog.Only Quiet (if _ then _ else _)
  split <;> trivial

/-! ## Behind the ledger -/

/-- One statement that counts, whose exceptions end the routine. -/
theorem wp_loud {o : PubOp} {k : Except Exc o.Res → Pub α} {Q : Except Exc α → PubHistory → Prop}
    (hok : ∀ h₁ a b t, History.Others i h h₁ → Inv py S h₁ → exec o a h₁.cur = some (b, t) →
      Inv py S ⟨t, h₁.arrived, ⟨i, o, b, h₁.cur⟩ :: h₁.log⟩ ∧
        Justifies py S i (k (.ok b)) Q ⟨t, h₁.arrived, ⟨i, o, b, h₁.cur⟩ :: h₁.log⟩)
    (herr : ∀ h₁ e, Justifies py S i (k (.error e)) Q h₁) : Justifies py S i (.op o k) Q h := by
  refine Rules.wp_op ?_ ?_ ?_
  · intro h₁ h₂ a b hrely hI _ hrun
    obtain ⟨t, hx, rfl⟩ := recorded_run hrun
    obtain ⟨hI₂, hk⟩ := hok h₁ a b t hrely hI hx
    exact ⟨hI₂, History.own_cons, hk⟩
  · intro h₁ e _ _ _
    exact ⟨.refl, herr h₁ e⟩
  · intro h₁ h₂ a b e hrely hI _ hrun
    obtain ⟨t, hx, rfl⟩ := recorded_run hrun
    exact ⟨(hok h₁ a b t hrely hI hx).1, History.own_cons, herr _ e⟩

/-- Thread `i` has executed no statement of kind `k` yet. -/
def Silent (k : PubEvent → Bool) (i : Nat) (h : PubHistory) : Prop :=
  ∀ e ∈ h.log, e.who = i → k e = false

theorem Silent.extends {k : PubEvent → Bool} (hk : ∀ e, Uncounted e → k e = false)
    {h' : PubHistory} (hs : Silent k i h) (hx : Extends i h h') : Silent k i h' :=
  fun e he hw => (hx.own e he hw).elim (fun he => hs e he hw) (hk e)

theorem Silent.cons {k : PubEvent → Bool} {e : PubEvent} {t : Db} (hs : Silent k i h)
    (he : k e = false) : Silent k i ⟨t, h.arrived, e :: h.log⟩ := by
  intro e' he' hw
  rcases List.mem_cons.1 he' with rfl | he'
  · exact he
  · exact hs e' he' hw

/-- A thread that has not won the ledger has written nothing outside. -/
theorem Once.silent {k : PubEvent → Bool} (ho : Once k h.log)
    (hs : Silent (fun e => (consumedJti e).isSome) i h) : Silent k i h := by
  intro e he hw
  by_contra hk
  obtain ⟨e', he', hw', hc⟩ := ho.after e he (by simpa using hk)
  have hnone : (consumedJti e').isSome = false := hs e' he' (hw'.trans hw)
  rw [hnone] at hc
  cases hc

/-- Step (5), once the token is used up. -/
theorem recordPublished_spec {c : Cleared} {dryRun : Bool}
    (ha : ∃ request, (i, request) ∈ h.arrived) (hc : Consumed h i c.jti)
    (hs : Silent isPublished i h) :
    Justifies py S i (recordPublished py c dryRun) (fun _ _ => True) h := by
  refine justifies_bind (justifies_only (recordPublish_quiet ..) .refl ha) (fun recordId h₁ hx _ => ?_)
    fun _ _ _ => trivial
  refine wp_loud (fun h₂ a b t hrely hI hx₂ => ⟨?_, fun _ _ => trivial⟩) fun _ _ _ _ => trivial
  have hx' : Extends i h h₂ := hx.trans (.of_others hrely)
  obtain ⟨request, hr⟩ := ha
  obtain ⟨rfl, rfl⟩ := Prod.mk.inj (Option.some.inj hx₂)
  refine hI.cons ⟨request, hx'.arrived _ hr⟩ (fun _ hj => hj) rfl (fun _ hj => nomatch hj)
    (fun hd => nomatch hd) fun _ => ⟨hs.extends (fun _ hu => hu.2.2) hx', ?_⟩
  rintro row hrow
  obtain rfl := Option.some.inj hrow
  exact hc.mono hx'.log

/-- Step (4.5): at most one draft, and nothing else that counts. -/
theorem queueDraft_spec {c : Cleared} (ha : ∃ request, (i, request) ∈ h.arrived)
    (hc : Consumed h i c.jti) (hd : Silent isDraft i h) (hs : Silent isPublished i h) :
    Justifies py S i (queueDraft py S c) (fun out h' => match out with
      | .ok _ => (∃ request, (i, request) ∈ h'.arrived) ∧ Consumed h' i c.jti ∧
          Silent isPublished i h'
      | .error _ => True) h := by
  have hstable : ∀ {h₁ h₂ : PubHistory}, Extends i h₁ h₂ →
      ((∃ request, (i, request) ∈ h₁.arrived) ∧ Consumed h₁ i c.jti ∧ Silent isPublished i h₁) →
      (∃ request, (i, request) ∈ h₂.arrived) ∧ Consumed h₂ i c.jti ∧ Silent isPublished i h₂ :=
    fun hx ⟨ha, hc, hs⟩ => ⟨ha.imp fun _ hr => hx.arrived _ hr, hc.mono hx.log,
      hs.extends (fun _ hu => hu.2.2) hx⟩
  refine justifies_call trivial ha (fun h₁ baseUrl pre t hx₁ _ _ => ?_) fun _ _ _ => trivial
  split
  · exact fun _ _ => trivial
  have ha₁ : ∃ request, (i, request) ∈ h₁.arrived := ha.imp fun _ hr => hx₁.arrived _ hr
  refine justifies_bind (justifies_tryCatch
    (justifies_only (listQueueCount_quiet ..) .refl ha₁) fun e h₂ hx₂ => ?_)
    (fun queueCount h₂ hx₂ _ => ?_) fun _ _ _ => trivial
  · cases e with
    | bufferClient => exact justifies_refuse hx₂ ha₁
    | _ => exact justifies_throw hx₂
  have hx := hx₁.trans hx₂
  split
  · have hrefuse : Justifies py S i (c.refuse reasonBufferQueueCapExceeded)
        (Ends i h₂ fun (_ : Unit) _ => False) h₂ :=
      justifies_refuse .refl (ha.imp fun _ hr => hx.arrived _ hr)
    refine hrefuse.mono fun out _ hout => ?_
    cases out with
    | ok a => exact hout.2.elim
    | error e => trivial
  split
  · exact fun _ _ => trivial
  refine wp_loud (fun h₃ a b t hrely hI hx₃ => ⟨?_, ?_⟩) fun _ _ _ _ => trivial
  all_goals
    have hx' : Extends i h h₃ := hx.trans (.of_others hrely)
    obtain ⟨request, hr⟩ := ha
    obtain ⟨rfl, rfl⟩ := Prod.mk.inj (Option.some.inj hx₃)
  · refine hI.cons ⟨request, hx'.arrived _ hr⟩ (fun _ hj => hj) rfl (fun _ hj => nomatch hj)
      (fun _ => ⟨hd.extends (fun _ hu => hu.2.1) hx', ?_⟩) fun hp => nomatch hp
    obtain ⟨e, he, hw, hj⟩ := hc.mono hx'.log
    exact ⟨e, he, hw, by simp [hj]⟩
  · have hdrafted : ∀ h', Extends i ⟨h₃.cur, h₃.arrived, ⟨i, _, a, h₃.cur⟩ :: h₃.log⟩ h' →
        (∃ request, (i, request) ∈ h'.arrived) ∧ Consumed h' i c.jti ∧ Silent isPublished i h' :=
      fun h' hx'' => hstable hx'' ⟨⟨request, hx'.arrived _ hr⟩,
        hc.mono fun e he => List.mem_cons_of_mem _ (hx'.log e he),
        (hs.extends (fun _ hu => hu.2.2) hx').cons rfl⟩
    refine justifies_bind (justifies_only callTool_only .refl ⟨request, hx'.arrived _ hr⟩)
      (fun _ h₄ hx₄ _ => ?_) fun _ _ _ => trivial
    exact fun h₅ ho => hdrafted h₅ (hx₄.trans (.of_others ho))

/-- Thread `i` has won no ledger insert yet. -/
abbrev NotYet (i : Nat) (h : PubHistory) : Prop := Silent (fun e => (consumedJti e).isSome) i h

theorem NotYet.extends {h' : PubHistory} (hn : NotYet i h) (hx : Extends i h h') : NotYet i h' :=
  Silent.extends (fun _ hu => by simp [hu.1]) hn hx

/-- Step (4): the ledger lets through one request per jti, with its checks on record. -/
theorem publishOnce_spec {c : Cleared} {dryRun : Bool} {request : PublishRequest}
    (hr : (i, request) ∈ h.arrived) (hn : NotYet i h)
    (hj : Justified py S h i request c.jti) :
    Justifies py S i (publishOnce py S c dryRun) (fun _ _ => True) h := by
  show Justifies py S i ((if _ then _ else _ : Pub Bool).bind _) _ h
  split
  · exact fun _ _ => trivial
  refine wp_loud (fun h₁ a won t hrely hI hx₁ => ?_) fun _ _ _ _ => trivial
  have hx : Extends i h h₁ := .of_others hrely
  have hr₁ := hx.arrived _ hr
  simp only [exec] at hx₁
  split at hx₁
  · -- the jti is in the ledger: nothing is counted, and the request is refused
    obtain ⟨rfl, rfl⟩ := Prod.mk.inj (Option.some.inj hx₁)
    refine ⟨hI.cons ⟨request, hr₁⟩ (fun _ h => h) rfl (fun _ h => nomatch h) (fun h => nomatch h)
      (fun h => nomatch h), ?_⟩
    let h₂ : PubHistory := ⟨h₁.cur, h₁.arrived,
      ⟨i, .consumeJti c.jti c.gateDecisionId, false, h₁.cur⟩ :: h₁.log⟩
    have hr₂ : ∃ request, (i, request) ∈ h₂.arrived := ⟨request, hr₁⟩
    have hrefuse : Justifies py S i (c.refuse reasonTokenReplayed)
        (Ends i h₂ fun (_ : PublishResponse) _ => True) h₂ := justifies_refuse .refl hr₂
    exact hrefuse.mono fun _ _ _ => trivial
  · -- this request is the one that claims the jti
    rename_i hfresh
    obtain ⟨rfl, rfl⟩ := Prod.mk.inj (Option.some.inj hx₁)
    refine ⟨hI.cons ⟨request, hr₁⟩ (fun _ h => List.mem_cons_of_mem _ h) rfl (fun jti hjti => ?_)
      (fun h => nomatch h) (fun h => nomatch h), ?_⟩
    · obtain rfl := Option.some.inj hjti
      exact ⟨List.mem_cons_self, hfresh, request, hr₁, hj.mono hx.log⟩
    let h₂ : PubHistory := ⟨{ h₁.cur with jtiLedger := c.jti :: h₁.cur.jtiLedger }, h₁.arrived,
      ⟨i, .consumeJti c.jti c.gateDecisionId, true, h₁.cur⟩ :: h₁.log⟩
    have hr₂ : ∃ request, (i, request) ∈ h₂.arrived := ⟨request, hr₁⟩
    have hc : Consumed h₂ i c.jti := ⟨_, List.mem_cons_self, rfl, rfl⟩
    have hd : Silent isDraft i h₂ := (hI.drafts.silent (hn.extends hx)).cons rfl
    have hp : Silent isPublished i h₂ := (hI.published.silent (hn.extends hx)).cons rfl
    show Justifies py S i (if dryRun = true then recordPublished py c dryRun
      else (queueDraft py S c).bind fun _ => recordPublished py c dryRun) _ h₂
    split
    · exact recordPublished_spec hr₂ hc hp
    · refine Rules.wp.bind ((queueDraft_spec hr₂ hc hd hp).mono fun out h₃ hout => ?_)
      cases out with
      | ok a => exact recordPublished_spec hout.1 hout.2.1 hout.2.2
      | error e => trivial

/-- Steps (2) to (5), for a token that was accepted with these claims. -/
theorem publishBound_spec {request : PublishRequest} {agentRunId : String}
    {assetBytes : List UInt8} {jti : Json} {gateDecisionId : Option String} {claims : Claims}
    {b : Binding} (hr : (i, request) ∈ h.arrived) (hn : NotYet i h)
    (hbytes : py.b64decode request.assetBytesB64 = some assetBytes)
    (hacc : Accepted S h i request.gateToken claims) (hjti : Json.lookup claims "jti" = some jti)
    (hb : extractFunctionIdAndContentHash py claims = .ok b) :
    Justifies py S i (publishBound py S request agentRunId assetBytes jti gateDecisionId b)
      (fun _ _ => True) h := by
  refine justifies_call trivial ⟨request, hr⟩ (fun h₁ row pre t hx₁ hmem hexec => ?_)
    fun _ _ _ => trivial
  have hr₁ := hx₁.arrived _ hr
  show Justifies py S i (if (isBlocked row).blocked = true then _ else _) _ h₁
  split
  · have hrefuse : Justifies py S i
        (refuse agentRunId gateDecisionId b.functionId jti b.contentHash
          ((isBlocked row).auditReason.getD ""))
        (Ends i h₁ fun (_ : PublishResponse) _ => True) h₁ := justifies_refuse .refl ⟨request, hr₁⟩
    exact hrefuse.mono fun _ _ _ => trivial
  rename_i hblocked
  have hunblocked : FoundUnblocked h₁ i b.functionId := by
    simp only [exec] at hexec
    split at hexec
    · exact ⟨row, pre, hmem, unblocked_of_isFirst ‹_› (by simpa using hblocked)⟩
    · cases hexec
  refine justifies_bind (raising_spec .refl) (fun ok h₂ hx₂ hmatch => ?_) fun _ _ _ => trivial
  have hx := hx₁.trans hx₂
  have hr₂ := hx.arrived _ hr
  cases ok with
  | false =>
    have hrefuse : Justifies py S i
        (refuse agentRunId gateDecisionId b.functionId jti
          (.str (recomputeContentHash py assetBytes)) reasonContentHashMismatch)
        (Ends i h₂ fun (_ : PublishResponse) _ => True) h₂ := justifies_refuse .refl ⟨request, hr₂⟩
    exact hrefuse.mono fun _ _ _ => trivial
  | true =>
    obtain ⟨bound, hbound, hdigest⟩ := eq_of_hashesMatch hmatch
    refine justifies_bind (crossCheck_spec ⟨request, hr₂⟩) (fun lookup h₃ hx₃ hvault => ?_)
      fun _ _ _ => trivial
    have hr₃ := hx₃.arrived _ hr₂
    refine justifies_bind (justifies_only ?_ .refl ⟨request, hr₃⟩) (fun dryRun h₄ hx₄ _ => ?_)
      fun _ _ _ => trivial
    · split
      · trivial
      · exact .perform trivial
    have hx' := hx.trans (hx₃.trans hx₄)
    refine publishOnce_spec (hx'.arrived _ hr) (hn.extends hx') ?_
    exact ⟨assetBytes, claims, b, bound, hbytes, hacc.mono hx'.log, hjti, hb,
      hunblocked.mono (hx₂.trans (hx₃.trans hx₄)).log, hbound, hdigest,
      fun a ha hne => (hvault a ha hne).mono hx₄.log⟩

/-- The whole routine, from a request that has just arrived. -/
theorem publishImpl_spec {request : PublishRequest} (hr : (i, request) ∈ h.arrived)
    (hn : NotYet i h) : Justifies py S i (publishImpl py S request) (fun _ _ => True) h := by
  unfold publishImpl
  split
  · exact fun _ _ => trivial
  split
  · exact fun _ _ => trivial
  rename_i assetBytes hbytes
  refine justifies_call trivial ⟨request, hr⟩ (fun h₁ _ _ _ hx₁ _ _ => ?_) fun _ _ _ => trivial
  have hr₁ := hx₁.arrived _ hr
  refine justifies_bind (justifies_tryCatch (verify_spec ⟨request, hr₁⟩) fun e h₂ hx₂ => ?_)
    (fun claims h₂ hx₂ hacc => ?_) fun _ _ _ => trivial
  · cases e with
    | verification reason => exact justifies_refuse hx₂ ⟨request, hr₁⟩
    | _ => exact justifies_throw hx₂
  have hr₂ := hx₂.arrived _ hr₁
  split
  · exact fun _ _ => trivial
  rename_i jti hjti
  refine justifies_bind (justifies_tryCatch (boundTaxonomyClaims_spec .refl) fun e h₃ hx₃ => ?_)
    (fun b h₃ hx₃ hb => ?_) fun _ _ _ => trivial
  · cases e with
    | verification reason => exact justifies_refuse hx₃ ⟨request, hr₂⟩
    | _ => exact justifies_throw hx₃
  exact publishBound_spec (hx₃.arrived _ hr₂) (hn.extends (hx₁.trans (hx₂.trans hx₃))) hbytes
    (hacc.mono hx₃.log) hjti hb

end Stepping

/-! ## The result -/

instance (h : PubHistory) (i : Nat) (jti : Json) : Decidable (Consumed h i jti) :=
  inferInstanceAs (Decidable (∃ e ∈ h.log, e.who = i ∧ consumedJti e = some jti))

/-- A list whose elements are told apart by `f`, but all share one value of `f`. -/
theorem length_le_one_of_nodup_map {α β : Type} {f : α → β} {l : List α} (hn : (l.map f).Nodup)
    (hf : ∀ a ∈ l, ∀ b ∈ l, f a = f b) : l.length ≤ 1 := by
  match l with
  | [] => exact Nat.zero_le _
  | [_] => exact Nat.le_refl _
  | a :: b :: l =>
    rw [List.map_cons, List.nodup_cons] at hn
    refine absurd ?_ hn.1
    rw [hf a List.mem_cons_self b (by simp)]
    exact List.mem_cons_self

theorem eq_of_nodup_filterMap {α β : Type} {f : α → Option β} {l : List α}
    (hn : (l.filterMap f).Nodup) {a b : α} {x : β} (ha : a ∈ l) (hb : b ∈ l)
    (hfa : f a = some x) (hfb : f b = some x) : a = b := by
  induction l with
  | nil => cases ha
  | cons c l ih =>
    have hrest : (l.filterMap f).Nodup := hn.sublist (List.Sublist.filterMap f (List.sublist_cons_self c l))
    -- an element of the tail with the same key would repeat the head's
    have hhead : ∀ d, f c = some x → d ∈ l → f d ≠ some x := by
      intro d hc hd hfd
      rw [List.filterMap_cons_some hc, List.nodup_cons] at hn
      exact hn.1 (List.mem_filterMap.2 ⟨d, hd, hfd⟩)
    rcases List.mem_cons.1 ha with rfl | ha' <;> rcases List.mem_cons.1 hb with rfl | hb'
    · rfl
    · exact absurd hfb (hhead b hfa hb')
    · exact absurd hfa (hhead a hfb ha')
    · exact ih hrest ha' hb'

theorem length_filter_filterMap {α β : Type} (f : α → Option β) (p : β → Bool) (l : List α) :
    ((l.filterMap f).filter p).length = (l.filter fun a => (f a).any p).length := by
  induction l with
  | nil => rfl
  | cons a l ih =>
    cases hf : f a with
    | none => simpa [List.filterMap_cons_none hf, hf] using ih
    | some b => by_cases hp : p b = true <;> simpa [List.filterMap_cons_some hf, hf, hp] using ih

section Counting

variable {py : Stdlib} {S : Settings} {h : PubHistory} {jti : Json}

/-- Only one request won the insert of a jti. -/
theorem Inv.consumed_unique (hI : Inv py S h) {i i' : Nat} (hi : Consumed h i jti)
    (hi' : Consumed h i' jti) : i = i' := by
  obtain ⟨e, he, rfl, hj⟩ := hi
  obtain ⟨e', he', rfl, hj'⟩ := hi'
  rw [eq_of_nodup_filterMap hI.jtis he he' hj hj']

/-- At most one statement of a kind that each request executes at most once. -/
theorem Inv.length_le_one (hI : Inv py S h) (jti : Json) {k : PubEvent → Bool} (ho : Once k h.log)
    {p : PubEvent → Bool} (hk : ∀ e, p e = true → k e = true)
    (hp : ∀ e ∈ h.log, p e = true → Consumed h e.who jti) : (h.log.filter p).length ≤ 1 := by
  have hsub : (h.log.filter p).Sublist (h.log.filter k) := List.monotone_filter_right _ hk
  refine length_le_one_of_nodup_map (ho.nodup.sublist (hsub.map Event.who)) fun e he e' he' => ?_
  obtain ⟨hl, hpe⟩ := List.mem_filter.1 he
  obtain ⟨hl', hpe'⟩ := List.mem_filter.1 he'
  exact hI.consumed_unique (hp e hl hpe) (hp e' hl' hpe')

end Counting

/-- The invariant holds at every moment of every run, however the requests interleave. -/
theorem inv_of_reach {py : Stdlib} {S : Settings} {switches : List KillSwitch} {ledger : List Json}
    {c : Config PubOp PubOp.Res Exc PubHistory Nat PublishRequest PublishResponse}
    (hr : (publisher py S).Reach Sys.free (.idle ⟨⟨switches, ledger, []⟩, [], []⟩) c) :
    Inv py S c.shared := by
  suffices h : Inv py S c.shared ∧ ∀ i r p, c.thread i = some (r, some p) →
      Justifies py S i p (fun _ _ => True) c.shared from h.1
  refine Sys.Reach.sound_recorded ?_ ?_ ?_ (fun _ _ _ _ _ _ _ _ => trivial) ?_ hr
  · have honce : ∀ k, Once k [] := fun k => ⟨List.nodup_nil, fun _ h => absurd h List.not_mem_nil⟩
    exact ⟨fun _ h => absurd h List.not_mem_nil, fun _ h => absurd h List.not_mem_nil,
      List.nodup_nil, honce _, honce _, rfl, fun _ h => absurd h List.not_mem_nil,
      fun _ h => absurd h List.not_mem_nil⟩
  · intro h i request hI
    exact ⟨fun e he => (hI.arrived e he).imp fun _ hr => List.mem_cons_of_mem _ hr, hI.ledger,
      hI.jtis, hI.drafts, hI.published, hI.rows, hI.rowJti, fun e he jti hj =>
        (hI.justified e he jti hj).imp fun _ ⟨hr, hjust⟩ => ⟨List.mem_cons_of_mem _ hr, hjust⟩⟩
  · intro c e t _ hI ht
    obtain rfl := Option.some.inj ht
    exact ⟨hI.arrived, hI.ledger, hI.jtis, hI.drafts, hI.published, hI.rows, hI.rowJti,
      hI.justified⟩
  · intro i request h hreq hfresh _
    exact publishImpl_spec hreq fun e he hw => absurd hw (hfresh e he)

/-- Single use.  In every run of any number of concurrent requests: one ledger insert is won per
    jti, so at most one draft and at most one `published` row exist per jti; no draft and no
    `published` row exists without one; and the request that won it had shown an accepted token, a
    kill-switch read that found nothing active, and bytes whose SHA-256 is the bound hash and, with
    an asset id, the Vault's. -/
theorem publish_single_use {py : Stdlib} {S : Settings} {switches : List KillSwitch}
    {ledger : List Json}
    {c : Config PubOp PubOp.Res Exc PubHistory Nat PublishRequest PublishResponse}
    (hr : (publisher py S).Reach Sys.free (.idle ⟨⟨switches, ledger, []⟩, [], []⟩) c) :
    (∀ jti, (c.shared.log.filter fun e => consumedJti e = some jti).length ≤ 1 ∧
      (c.shared.log.filter fun e => isDraft e ∧ Consumed c.shared e.who jti).length ≤ 1 ∧
      (c.shared.cur.publishAttempts.filter fun row =>
        row.outcome = outcomePublished ∧ row.jti = jti).length ≤ 1) ∧
    (∀ e ∈ c.shared.log, isDraft e ∨ isPublished e → ∃ jti, Consumed c.shared e.who jti) ∧
    ∀ i jti, Consumed c.shared i jti → ∃ request code, c.thread i = some (request, code) ∧
      Justified py S c.shared i request jti := by
  have hI := inv_of_reach hr
  have hafter : ∀ e ∈ c.shared.log, (∃ e' ∈ c.shared.log, e'.who = e.who ∧
      (consumedJti e').isSome) → ∃ jti, Consumed c.shared e.who jti := by
    rintro e - ⟨e', he', hw, hsome⟩
    obtain ⟨jti, hj⟩ := Option.isSome_iff_exists.1 hsome
    exact ⟨jti, e', he', hw, hj⟩
  refine ⟨fun jti => ⟨?_, ?_, ?_⟩, ?_, ?_⟩
  · have h := List.nodup_iff_count_le_one.1 hI.jtis jti
    rw [List.count_filterMap, List.countP_eq_length_filter] at h
    refine Nat.le_trans (Nat.le_of_eq (congrArg _ (List.filter_congr fun e _ => ?_))) h
    exact (Bool.beq_eq_decide_eq ..).symm
  · refine hI.length_le_one jti hI.drafts (fun e h => ?_) fun e _ h => ?_
    · exact (of_decide_eq_true h).1
    · exact (of_decide_eq_true h).2
  · rw [hI.rows, length_filter_filterMap]
    refine hI.length_le_one jti hI.published (fun e h => ?_) fun e he h => ?_
    all_goals
      obtain ⟨row, hrow, hp⟩ := (Option.any_eq_true _ _).1 h
      obtain ⟨hout, hjti⟩ := of_decide_eq_true hp
    · simp [isPublished, hrow, hout]
    · exact hjti ▸ hI.rowJti e he row hrow hout
  · rintro e he (hd | hp)
    · exact hafter e he (hI.drafts.after e he hd)
    · exact hafter e he (hI.published.after e he hp)
  · rintro i jti ⟨e, he, rfl, hj⟩
    obtain ⟨request, hreq, hjust⟩ := hI.justified e he jti hj
    obtain ⟨code, hcode⟩ := (hr.thread_iff_arrived _ _).1 hreq
    exact ⟨request, code, hcode, hjust⟩

/-! ## A run

    One token is submitted twice, in live mode: the first request publishes, the second one is
    refused at the ledger. -/

/-- The library functions on the inputs of the run. -/
def examplePython : Stdlib where
  jsonLoads _ := none
  jsonDumps _ := ""
  uuid j := if j = .str "6b1f0c3e-8a52-4a0e-9d0b-3f5f2b7f1c11" then
    some "6b1f0c3e-8a52-4a0e-9d0b-3f5f2b7f1c11" else none
  b64decode s := if s = "aGk=" then some [104, 105] else none
  sha256Hex bytes := if bytes = [104, 105] then
    "8f434346648f6b96df89dda901c5176b10a6d83961dd3c1ac88b59b2dc327aa4" else ""
  decodeUtf8 bytes := if bytes = [104, 105] then some "hi" else none
  repr _ := ""

def exampleSettings : Settings := ⟨["RS256"], "linkedin"⟩

def exampleRequest : PublishRequest :=
  ⟨"6b1f0c3e-8a52-4a0e-9d0b-3f5f2b7f1c11", "schedule-social", "aGk=", some "header.claims.sig", none⟩

/-- Every service answers as it does when all is well. -/
def exampleAnswer : (o : PubOp) → o.Res
  | .buildVerifier => ()
  | .getUnverifiedHeader _ => [("alg", .str "RS256")]
  | .jwtDecode _ => [("jti", .str "jti-1"), ("function_id", .str "schedule-social"),
      ("content_hash", .str "8F434346648F6B96DF89DDA901C5176B10A6D83961DD3C1AC88B59B2DC327AA4")]
  | .selectActiveSwitches _ => none
  | .getAsset _ => ⟨404, none⟩
  | .getAgentRun _ => ⟨404, none⟩
  | .publisherDryRun => false
  | .consumeJti _ _ => true
  | .resolveMcpBufferBaseUrl => some "http://mcp-buffer"
  | .listQueue _ => ⟨200, some (.obj [("result", .obj [("structuredContent",
      .obj [("posts", .arr [])])])])⟩
  | .createDraft _ _ _ _ => ⟨200, some (.obj [("result", .obj [("structuredContent",
      .obj [("id", .str "draft-1")])])])⟩
  | .getGateDecision _ => ⟨200, some (.obj (taxonomyFields.map fun f => (f, .str "x")))⟩
  | .postGateDecision _ _ _ _ => ⟨201, some (.obj [("id", .str "record-1")])⟩
  | .insertAttempt _ => "attempt"

/-- Both requests arrive; their statements alternate until both have ended. -/
def exampleRun : List (Act PubOp PubOp.Res Exc Nat PublishRequest (List KillSwitch)) :=
  [.enter 0 exampleRequest, .enter 1 exampleRequest] ++
    (List.range 24).map fun n => .step (n % 2) fun o => .ok (exampleAnswer o)

def exampleEnd : Config PubOp PubOp.Res Exc PubHistory Nat PublishRequest PublishResponse :=
  exampleRun.foldl (publisher examplePython exampleSettings).exec (.idle ⟨⟨[], [], []⟩, [], []⟩)

theorem exampleEnd_reach : (publisher examplePython exampleSettings).Reach Sys.free
    (.idle ⟨⟨[], [], []⟩, [], []⟩) exampleEnd :=
  Sys.Reach.foldl_free exampleRun .init

/-- The two requests race for one jti: exactly one draft and one `published` row come of it, and
    the other request leaves a `token_replayed` row. -/
theorem publish_single_use_race :
    ((exampleEnd.shared.log.filter fun e => isDraft e ∧ Consumed exampleEnd.shared e.who
      (.str "jti-1")).length = 1 ∧
    exampleEnd.shared.cur.publishAttempts.map Attempt.reason =
      [reasonPublished, reasonTokenReplayed]) ∧
    (∀ jti, (exampleEnd.shared.log.filter fun e => consumedJti e = some jti).length ≤ 1 ∧
      (exampleEnd.shared.log.filter fun e => isDraft e ∧
        Consumed exampleEnd.shared e.who jti).length ≤ 1 ∧
      (exampleEnd.shared.cur.publishAttempts.filter fun row =>
        row.outcome = outcomePublished ∧ row.jti = jti).length ≤ 1) :=
  ⟨by decide +kernel,
    (publish_single_use exampleEnd_reach).1⟩

end CanvasOS.Publisher
