/-
  One audit row for each publish request, and no token spent on a refusal.

  1. `rows`, `Burned`, `OneRow` — what a request has written, read off its conversation with the
     database and the services, and what the module's docstring promises of it.
  2. `Obliging` — the replies that leave the promise intact, turn by turn: each turn is judged by
     what was said before it.
  3. `publishImpl_oneRow_iff` — the promise holds of a conversation exactly where every reply of it
     is obliging.  Before the token is spent, an exception that no `except` clause looks at leaves no row;
     after it, also a full or unreachable queue spends the token on a refusal.
-/
import CanvasOS.Lib.Converse
import CanvasOS.Publisher.Publish

namespace CanvasOS.Publisher

open Interleave Python Governance

/-- A statement of a request and what became of it. -/
abbrev PubTurn := Turn PubOp PubOp.Res Exc

/-! ## What is promised -/

/-- The row of `publish_attempts` that a turn appended. -/
def rowOf : PubTurn → Option Attempt
  | ⟨.insertAttempt row, r⟩ => if r.executes then some row else none
  | _ => none

/-- The rows a request has appended. -/
def rows (log : List PubTurn) : List Attempt := log.filterMap rowOf

/-- The turn spent the token. -/
def burns : PubTurn → Bool
  | ⟨.consumeJti _ _, .ok true⟩ => true
  | ⟨.consumeJti _ _, .lost true _⟩ => true
  | _ => false

def Burned (log : List PubTurn) : Prop := log.any burns = true

/-- Exactly one row, and a token that was spent was spent on a publish or by an earlier request. -/
structure OneRow (log : List PubTurn) : Prop where
  one : (rows log).length = 1
  spent : Burned log → ∀ row ∈ rows log,
    row.outcome = outcomePublished ∨ row.reason = reasonTokenReplayed

/-! ## What was said before -/

/-- The claims of the token, once it is verified. -/
def claimsIn : List PubTurn → Option Claims
  | [] => none
  | ⟨.jwtDecode _, .ok claims⟩ :: _ => some claims
  | _ :: log => claimsIn log

/-- The asset that the Vault has answered with. -/
def assetIn : List PubTurn → Option (List (String × Json))
  | [] => none
  | ⟨.getAsset _, .ok ⟨_, some (.obj asset)⟩⟩ :: _ => some asset
  | _ :: log => assetIn log

/-- The claims name a token that can be spent. -/
def Spendable (log : List PubTurn) : Prop :=
  ∃ claims jti, claimsIn log = some claims ∧ Json.lookup claims "jti" = some jti ∧
    jti.truthy = true

/-! ## Obliging replies -/

/-- An exception of the token check that the handler turns into a refusal. -/
def Refusable (e : Exc) : Prop := e.isPyJwt = true ∨ ∃ reason, e = .verification reason

/-- An exception of the Vault lookup that the handler turns into a refusal. -/
def LookupFailure (e : Exc) : Prop := e = .httpx ∨ e = .vaultLookup

/-- The answer is a JSON object. -/
def Response.object (r : Response) (kvs : List (String × Json)) : Prop := r.json = some (.obj kvs)

/-- `_call_tool`: the structured content of a Buffer answer, where it has any. -/
def structuredContent (response : Response) : Option Json :=
  match response.statusCode, response.json with
  | 200, some (.obj envelope) =>
    if Json.get envelope "error" ≠ .null then none
    else
      let result := Json.get envelope "result"
      match if result.truthy then result else .obj [] with
      | .obj result =>
        let structured := Json.get result "structuredContent"
        if structured = .null then none else some structured
      | _ => none
  | _, _ => none

/-- How many posts a listing has. -/
def postCount : Json → Nat
  | .arr xs => xs.length
  | _ => 0

/-- `list_queue_count`: the depth of the queue, where the answer of Buffer tells it. -/
def queueLength (response : Response) : Option Nat :=
  match structuredContent response with
  | some (.obj result) =>
    match Json.get result "posts", Json.get result "result" with
    | .null, .obj wrapped =>
      match (Json.lookup wrapped "data").getD (.obj []) with
      | .obj data => some (postCount (Json.get data "posts"))
      | _ => none
    | posts, _ => some (postCount posts)
  | _ => none

section Obliging

variable (py : Stdlib) (assetBytes : List UInt8)

/-- The comparison with the recomputed hash does not raise, and gives `m`. -/
def Compares (expected : Json) (m : Bool) : Prop :=
  hashesMatch expected (recomputeContentHash py assetBytes) = .ok m

/-- The claims bind the token to a function and a hash, and name its jti; or they are refused. -/
def UsableClaims (claims : Claims) : Prop :=
  match extractFunctionIdAndContentHash py claims with
  | .ok _ => (Json.lookup claims "jti").isSome = true
  | .error .valueError => True
  | .error .typeError => False

/-- After the conversation `log`, the reply to a statement keeps the promise within reach. -/
def ObligingReply (log : List PubTurn) : (o : PubOp) → Reply Exc o.Res → Prop
  | .buildVerifier, r => r.answers = true
  | .getUnverifiedHeader _, r => ∀ e, r.seen = .error e → Refusable e
  | .jwtDecode _, r => match r.seen with
    | .ok claims => UsableClaims py claims
    | .error e => Refusable e
  | .selectActiveSwitches _, r => ∃ row, r = .ok row ∧ ((isBlocked row).blocked = true ∨
      ∃ claims b m, claimsIn log = some claims ∧
        extractFunctionIdAndContentHash py claims = .ok b ∧ Compares py assetBytes b.contentHash m)
  | .getAsset _, r => match r.seen with
    | .ok response => response.statusCode = 200 → ∃ asset, response.object asset
    | .error e => LookupFailure e
  | .getAgentRun _, r => match r.seen with
    | .ok response => response.statusCode = 200 → ∃ agentRun, response.object agentRun ∧
        ((Json.get agentRun "agent_name").truthy = true → ∃ asset m, assetIn log = some asset ∧
          Compares py assetBytes (.str (py.str (Json.get asset "content_hash"))) m ∧
          (m = true → py.str (Json.get agentRun "agent_name") = agentNameLoopProof →
            Spendable log))
    | .error e => LookupFailure e
  | .publisherDryRun, r => r.answers = true ∧ Spendable log
  | .consumeJti _ _, r => r.answers = true
  | .resolveMcpBufferBaseUrl, r => ∃ url, r = .ok url ∧ url.getD "" ≠ ""
  | .listQueue _, r => ∃ response n, r = .ok response ∧ queueLength response = some n ∧
      n < bufferFreeTierQueueCap ∧ (py.decodeUtf8 assetBytes).isSome = true
  | .createDraft _ _ _ _, r => ∃ response, r = .ok response ∧
      (structuredContent response).isSome = true
  | .getGateDecision _, r => ∃ response source, r = .ok response ∧ response.statusCode = 200 ∧
      response.object source ∧ ∀ name ∈ taxonomyFields, (Json.get source name).truthy = true
  | .postGateDecision _ _ _ _, r => ∃ response created, r = .ok response ∧
      (response.statusCode = 200 ∨ response.statusCode = 201) ∧ response.object created ∧
      (Json.get created "id").truthy = true
  | .insertAttempt _, r => r.executes = true

/-- Every reply of the conversation is obliging. -/
def Obliging : List PubTurn → Prop
  | [] => True
  | ⟨o, r⟩ :: log => ObligingReply py assetBytes log o r ∧ Obliging log

/-- The promise holds of the conversation exactly where its replies are obliging. -/
def Settled (log : List PubTurn) : Prop := OneRow log ↔ Obliging py assetBytes log

/-- No row yet, the token spent or not, and the replies so far obliging exactly where `C` holds. -/
structure Standing (log : List PubTurn) (burned : Prop) (C : Prop) : Prop where
  norow : rows log = []
  burned : Burned log ↔ burned
  obliging : Obliging py assetBytes log ↔ C

end Obliging

/-! ## One turn -/

section Turns

variable {py : Stdlib} {assetBytes : List UInt8} {log : List PubTurn} {burned C : Prop}

theorem Standing.spent {burned' : Prop} (h : Standing py assetBytes log burned C)
    (hb : burned ↔ burned') : Standing py assetBytes log burned' C :=
  ⟨h.norow, h.burned.trans hb, h.obliging⟩

/-- Without a row the promise is broken. -/
theorem Standing.settled (h : Standing py assetBytes log burned C) (hC : ¬ C) :
    Settled py assetBytes log := by
  constructor
  · intro hone
    have := hone.one
    rw [h.norow] at this
    cases this
  · intro hobliging
    exact absurd (h.obliging.1 hobliging) hC

/-- A turn that writes nothing. -/
theorem Standing.quiet (h : Standing py assetBytes log burned True) {o : PubOp}
    {r : Reply Exc o.Res} (hrow : rowOf ⟨o, r⟩ = none) (hburn : burns ⟨o, r⟩ = false) :
    Standing py assetBytes (⟨o, r⟩ :: log) burned (ObligingReply py assetBytes log o r) := by
  refine ⟨?_, ?_, ?_⟩
  · unfold rows at *
    rw [List.filterMap_cons, hrow]
    exact h.norow
  · have := h.burned
    unfold Burned at *
    rw [List.any_cons, hburn, Bool.false_or]
    exact this
  · show _ ∧ _ ↔ _
    rw [h.obliging, and_true]

theorem Standing.congr {C' : Prop} (h : Standing py assetBytes log burned C) (hC : C ↔ C') :
    Standing py assetBytes log burned C' :=
  ⟨h.norow, h.burned, h.obliging.trans hC⟩

theorem Standing.open (h : Standing py assetBytes log burned C) (hC : C) :
    Standing py assetBytes log burned True :=
  h.congr (iff_true_intro hC)

theorem rows_insert {row : Attempt} {r : Reply Exc (PubOp.Res (.insertAttempt row))} :
    rows (⟨.insertAttempt row, r⟩ :: log) =
      if r.executes = true then row :: rows log else rows log := by
  unfold rows
  rw [List.filterMap_cons]
  cases hr : r.executes <;> simp [rowOf, hr]

theorem burned_insert {row : Attempt} {r : Reply Exc (PubOp.Res (.insertAttempt row))} :
    Burned (⟨.insertAttempt row, r⟩ :: log) ↔ Burned log := by
  unfold Burned
  rw [List.any_cons]
  exact Iff.rfl

/-- The one row of a request whose replies were obliging so far. -/
theorem Standing.insert (h : Standing py assetBytes log burned True) {row : Attempt}
    {r : Reply Exc (PubOp.Res (.insertAttempt row))}
    (hrow : burned → row.outcome = outcomePublished ∨ row.reason = reasonTokenReplayed) :
    Settled py assetBytes (⟨.insertAttempt row, r⟩ :: log) := by
  have hobliging : Obliging py assetBytes (⟨.insertAttempt row, r⟩ :: log) ↔ r.executes = true := by
    show r.executes = true ∧ _ ↔ _
    rw [h.obliging, and_true]
  unfold Settled
  rw [hobliging]
  constructor
  · intro hone
    have hlen := hone.one
    rw [rows_insert, h.norow] at hlen
    by_contra hnot
    rw [if_neg hnot] at hlen
    cases hlen
  · intro hr
    have hrows : rows (⟨.insertAttempt row, r⟩ :: log) = [row] := by
      rw [rows_insert, if_pos hr, h.norow]
    refine ⟨by rw [hrows]; rfl, fun hb row' hmem => ?_⟩
    rw [hrows, List.mem_singleton] at hmem
    subst hmem
    exact hrow (h.burned.1 (burned_insert.1 hb))

/-- A refusal that comes after the token was spent breaks the promise. -/
theorem Standing.insert_spent (h : Standing py assetBytes log True C) (hC : ¬ C) {row : Attempt}
    {r : Reply Exc (PubOp.Res (.insertAttempt row))}
    (hrow : ¬ (row.outcome = outcomePublished ∨ row.reason = reasonTokenReplayed)) :
    Settled py assetBytes (⟨.insertAttempt row, r⟩ :: log) := by
  constructor
  · intro hone
    have hlen := hone.one
    have hspent := hone.spent (burned_insert.2 (h.burned.2 trivial))
    rw [rows_insert, h.norow] at hlen hspent
    split at hlen
    · next hr =>
      rw [if_pos hr] at hspent
      exact absurd (hspent row (List.mem_singleton.2 rfl)) hrow
    · cases hlen
  · intro hobliging
    exact absurd (h.obliging.1 hobliging.2) hC

end Turns

/-! ## Refusals -/

section Routine

variable {py : Stdlib} {assetBytes : List UInt8} {log : List PubTurn} {burned C : Prop} {α : Type}

/-- A refusal before the token is spent. -/
theorem refuse_settles (h : Standing py assetBytes log False True)
    {Q : Except Exc α → List PubTurn → Prop}
    (hQ : ∀ e log, Settled py assetBytes log → Q (.error e) log) {agentRunId : String}
    {gateDecisionId : Option String} {functionId jti contentHash : Json} {reason : String} :
    After (refuse agentRunId gateDecisionId functionId jti contentHash reason : Pub α) Q log :=
  After.ask (fun _ => hQ _ _ (h.insert False.elim)) fun _ _ _ => hQ _ _ (h.insert False.elim)

/-- A refusal after the token is spent. -/
theorem refuse_spent (h : Standing py assetBytes log True C) (hC : ¬ C)
    {Q : Except Exc α → List PubTurn → Prop}
    (hQ : ∀ e log, Settled py assetBytes log → Q (.error e) log) {c : Cleared} {reason : String}
    (hreason : reason ≠ reasonTokenReplayed) : After (c.refuse reason : Pub α) Q log := by
  have hrow : ¬ (outcomeRejected = outcomePublished ∨ reason = reasonTokenReplayed) := by
    rintro (houtcome | hreplayed)
    · revert houtcome
      decide
    · exact hreason hreplayed
  exact After.ask (fun _ => hQ _ _ (h.insert_spent hC hrow)) fun _ _ _ =>
    hQ _ _ (h.insert_spent hC hrow)

/-! ## Decoding -/

/-- A body that is no JSON object raises an exception nobody looks at. -/
theorem object_bind {β : Type} {r : Response} {f : List (String × Json) → Pub β}
    {Q : Except Exc β → List PubTurn → Prop} (hok : ∀ kvs, r.object kvs → After (f kvs) Q log)
    (herror : ∀ what, (∀ kvs, ¬ r.object kvs) → Q (.error (.other what)) log) :
    After ((r.decode.bind asDict).bind f) Q log := by
  unfold Response.object at hok herror
  unfold Response.decode
  split
  · next j hj =>
    cases j with
    | obj kvs => exact hok kvs hj
    | null | bool | int | float | str | arr =>
      exact herror _ fun kvs heq => by
        rw [hj] at heq
        cases heq
  · next hj =>
    exact herror _ fun kvs heq => by
      rw [hj] at heq
      cases heq

/-! ## The token -/

/-- How the token check ends: with claims, with a refusal, or with an exception. -/
def VerifyEnd (py : Stdlib) (assetBytes : List UInt8) :
    Except Exc Claims → List PubTurn → Prop
  | .ok claims, log => ∃ b, claimsIn log = some claims ∧
      extractFunctionIdAndContentHash py claims = .ok b ∧
      Standing py assetBytes log False ((Json.lookup claims "jti").isSome = true)
  | .error (.verification _), log => Standing py assetBytes log False True
  | .error _, log => Settled py assetBytes log

theorem verifyEnd_of_refusable {e : Exc} {f : Exc → Exc}
    (hf : ∀ e, e.isPyJwt = true → ∃ reason, f e = .verification reason)
    (hf' : ∀ e, e.isPyJwt = false → f e = e)
    (h : Standing py assetBytes log False (Refusable e)) :
    VerifyEnd py assetBytes (.error (f e)) log := by
  cases hjwt : e.isPyJwt with
  | true =>
    obtain ⟨reason, heq⟩ := hf e hjwt
    rw [heq]
    exact h.open (.inl hjwt)
  | false =>
    rw [hf' e hjwt]
    have hno : (¬ ∃ reason, e = .verification reason) → ¬ Refusable e := by
      rintro hno (h | h)
      · rw [hjwt] at h
        cases h
      · exact hno h
    cases e with
    | verification reason => exact h.open (.inr ⟨reason, rfl⟩)
    | _ => exact h.settled (hno (by rintro ⟨_, heq⟩; cases heq))

/-- The two library calls of the token check answer, or raise what may be refused. -/
theorem translating_after {o : PubOp} {f : Exc → Exc} {K : o.Res → List PubTurn → Prop}
    (hf : ∀ e, e.isPyJwt = true → ∃ reason, f e = .verification reason)
    (hf' : ∀ e, e.isPyJwt = false → f e = e)
    (hok : ∀ a, K a (⟨o, .ok a⟩ :: log))
    (herror : ∀ r e, r.seen = .error e →
      Standing py assetBytes (⟨o, r⟩ :: log) False (Refusable e)) :
    After (translating f (call o)) (fun out log => match out with
      | .ok a => K a log
      | .error e => VerifyEnd py assetBytes (.error e) log) log := by
  refine After.tryCatch (R := fun out log => match out with
    | .ok a => K a log
    | .error e => Standing py assetBytes log False (Refusable e)) ?_ (fun _ _ h => h)
    fun e log h => verifyEnd_of_refusable hf hf' h
  refine After.perform fun r => ?_
  cases hseen : r.seen with
  | ok a =>
    obtain rfl := Reply.seen_eq_ok hseen
    exact hok a
  | error e => exact herror r e hseen

theorem pinAlgorithm_after (h : Standing py assetBytes log False True)
    (allowedAlgorithms : List String) (token : String) :
    After (pinAlgorithm allowedAlgorithms token) (fun out log => match out with
      | .ok _ => Standing py assetBytes log False True
      | .error e => VerifyEnd py assetBytes (.error e) log) log := by
  unfold pinAlgorithm
  have hturn : ∀ r, Standing py assetBytes (⟨.getUnverifiedHeader token, r⟩ :: log) False
      (∀ e, r.seen = .error e → Refusable e) := fun r => h.quiet rfl rfl
  refine After.bind (translating_after (K := fun _ log => Standing py assetBytes log False True)
    ?_ ?_ (fun a => (hturn (.ok a)).open nofun) fun r e hseen => (hturn r).congr ?_)
    (fun header log h => ?_) fun _ _ h => h
  · intro e hjwt
    exact ⟨_, if_pos hjwt⟩
  · intro e hjwt
    exact if_neg (by rw [hjwt]; exact Bool.false_ne_true)
  · refine ⟨fun hall => hall e hseen, fun href e' hseen' => ?_⟩
    rw [hseen] at hseen'
    rwa [← Except.error.inj hseen']
  · split
    · exact h
    · exact h

theorem verify_after (h : Standing py assetBytes log False True) (allowedAlgorithms : List String)
    (token : Option String) :
    After (verify py allowedAlgorithms token) (VerifyEnd py assetBytes) log := by
  unfold verify
  cases token with
  | none => exact h
  | some token =>
    dsimp only
    split
    · exact h
    refine After.bind (pinAlgorithm_after h allowedAlgorithms token) (fun _ log h => ?_)
      fun _ _ h => h
    have hturn : ∀ r, Standing py assetBytes (⟨.jwtDecode token, r⟩ :: log) False
        (ObligingReply py assetBytes log (.jwtDecode token) r) := fun r => h.quiet rfl rfl
    let K (claims : Claims) (log : List PubTurn) : Prop := claimsIn log = some claims ∧
      Standing py assetBytes log False (UsableClaims py claims)
    refine After.bind (translating_after (K := K) ?_ ?_
      (fun claims => ⟨rfl, hturn (.ok claims)⟩) fun r e hseen => (hturn r).congr ?_)
      (fun claims log h => ?_) fun _ _ h => h
    · intro e hjwt
      cases e with
      | expiredSignature | invalidAlgorithm | pyJwt => exact ⟨_, rfl⟩
      | _ => cases hjwt
    · intro e hjwt
      cases e with
      | expiredSignature | invalidAlgorithm | pyJwt => cases hjwt
      | _ => rfl
    · simp only [ObligingReply, hseen]
    · obtain ⟨hclaims, h⟩ := h
      unfold boundTaxonomyClaims
      cases hb : extractFunctionIdAndContentHash py claims with
      | ok b =>
        refine ⟨b, hclaims, hb, h.congr ?_⟩
        unfold UsableClaims
        rw [hb]
      | error e =>
        have husable : UsableClaims py claims ↔ e = .valueError := by
          unfold UsableClaims
          rw [hb]
          cases e <;> simp
        cases e with
        | valueError => exact h.open (husable.2 rfl)
        | typeError => exact h.settled fun hu => nomatch husable.1 hu

/-! ## The cross-check with the Vault -/

/-- How the lookup ends.  Where it succeeds, what is left of its obligations is the comparison of
    the hash, and a token to spend if the asset belongs to the proof circuit. -/
def LookupEnd (py : Stdlib) (assetBytes : List UInt8) (claims : Option Claims) :
    Except Exc AssetLookupResult → List PubTurn → Prop
  | .ok lookup, log => claimsIn log = claims ∧ Standing py assetBytes log False
      (∃ m, Compares py assetBytes (.str lookup.contentHash) m ∧
        (m = true → lookup.agentName = agentNameLoopProof → Spendable log))
  | .error .vaultLookup, log => Standing py assetBytes log False True
  | .error _, log => Settled py assetBytes log

/-- An HTTP failure counts as a failed lookup. -/
theorem lookupEnd_of_failure {claims : Option Claims} {e : Exc}
    (h : Standing py assetBytes log False (LookupFailure e)) :
    LookupEnd py assetBytes claims (.error (if e = .httpx then .vaultLookup else e)) log := by
  split
  · next hhttpx => exact h.open (.inl hhttpx)
  · next hhttpx =>
    cases e with
    | vaultLookup => exact h.open (.inr rfl)
    | httpx => exact absurd rfl hhttpx
    | _ => exact h.settled (by rintro (heq | heq) <;> cases heq)

/-- The second half of the lookup, once the asset is there. -/
theorem agentRun_after {claims : Option Claims} {asset : List (String × Json)}
    (h : Standing py assetBytes log False True) (hasset : assetIn log = some asset)
    (hclaims : claimsIn log = claims) (label : Json → Option String) :
    After ((call (.getAgentRun (Json.get asset "agent_run_id"))).bind fun agentRunResponse =>
      if agentRunResponse.statusCode ≠ 200 then .throw .vaultLookup
      else (agentRunResponse.decode.bind asDict).bind fun agentRun =>
        if !(Json.get agentRun "agent_name").truthy then .throw .vaultLookup
        else .pure ⟨py.str (Json.get asset "content_hash"),
          py.str (Json.get agentRun "agent_name"), py.str (Json.get asset "agent_run_id"),
          label (Json.get asset "asset_type"), label (Json.get asset "campaign")⟩)
      (fun out log => match out with
        | .ok lookup => LookupEnd py assetBytes claims (.ok lookup) log
        | .error e => Standing py assetBytes log False (LookupFailure e)) log := by
  have hfailed : ∀ {C log}, Standing py assetBytes log False C → C →
      Standing py assetBytes log False (LookupFailure .vaultLookup) :=
    fun h hC => (h.open hC).congr (iff_of_true trivial (.inr rfl))
  refine After.ask (fun response => ?_) fun r e hseen => ?_
  · have h := h.quiet (o := .getAgentRun (Json.get asset "agent_run_id")) (r := .ok response)
      rfl rfl
    simp only [ObligingReply, Reply.seen] at h
    split
    · next hstatus => exact hfailed h fun hok => absurd hok hstatus
    next hstatus =>
    rw [ne_eq, not_not] at hstatus
    refine object_bind (fun agentRun hrun => ?_) fun what hno => ?_
    · have hagent : ∀ run, response.object run → run = agentRun := by
        intro run hrun'
        unfold Response.object at hrun hrun'
        rw [hrun] at hrun'
        cases hrun'
        rfl
      split
      · next hname =>
        refine hfailed h fun _ => ⟨agentRun, hrun, fun htruthy => ?_⟩
        rw [htruthy] at hname
        cases hname
      next hname =>
      have hname : (Json.get agentRun "agent_name").truthy = true := by simpa using hname
      refine ⟨hclaims, h.congr ⟨fun hall => ?_, ?_⟩⟩
      · obtain ⟨run, hrun', hall⟩ := hall hstatus
        obtain rfl := hagent run hrun'
        obtain ⟨asset', m, hasset', hm, hspend⟩ := hall hname
        obtain rfl := Option.some.inj (hasset.symm.trans hasset')
        exact ⟨m, hm, hspend⟩
      · rintro ⟨m, hm, hspend⟩ -
        exact ⟨agentRun, hrun, fun _ => ⟨asset, m, hasset, hm, hspend⟩⟩
    · refine h.congr ⟨fun hobj => ?_, ?_⟩
      · obtain ⟨run, hrun, -⟩ := hobj hstatus
        exact absurd hrun (hno run)
      · rintro (heq | heq) <;> cases heq
  · have h := h.quiet (o := .getAgentRun (Json.get asset "agent_run_id")) (r := r) rfl rfl
    simp only [ObligingReply, hseen] at h
    exact h

theorem fetchAssetAndAgentName_after (h : Standing py assetBytes log False True)
    (assetId : String) :
    After (fetchAssetAndAgentName py assetId) (LookupEnd py assetBytes (claimsIn log)) log := by
  let claims := claimsIn log
  have hclaims : claimsIn log = claims := rfl
  clear_value claims
  rw [hclaims]
  refine After.tryCatch (R := fun out log => match out with
    | .ok lookup => LookupEnd py assetBytes claims (.ok lookup) log
    | .error e => Standing py assetBytes log False (LookupFailure e)) ?_ (fun _ _ h => h)
    fun e log h => lookupEnd_of_failure h
  have hfailed : ∀ log, Standing py assetBytes log False True →
      Standing py assetBytes log False (LookupFailure .vaultLookup) :=
    fun log h => h.congr (iff_of_true trivial (.inr rfl))
  simp only [Prog.bind_eq]
  refine After.ask (fun response => ?_) fun r e hseen => ?_
  · have h := h.quiet (o := .getAsset assetId) (r := .ok response) rfl rfl
    simp only [ObligingReply, Reply.seen] at h
    split
    · next hstatus => exact hfailed _ (h.open fun hok => absurd hok hstatus)
    next hstatus =>
    rw [ne_eq, not_not] at hstatus
    refine object_bind (fun asset hasset => ?_) fun what hno => ?_
    · have h := h.open fun _ => ⟨asset, hasset⟩
      have hassetIn : assetIn (⟨.getAsset assetId, .ok response⟩ :: log) = some asset := by
        obtain ⟨status, body⟩ := response
        unfold Response.object at hasset
        obtain rfl := hasset
        rfl
      split
      · exact hfailed _ h
      exact agentRun_after h hassetIn hclaims fun j => if j.truthy then some (py.str j) else none
    · refine h.congr ⟨fun hobj => ?_, ?_⟩
      · obtain ⟨asset, hasset⟩ := hobj hstatus
        exact absurd hasset (hno asset)
      · rintro (heq | heq) <;> cases heq
  · have h := h.quiet (o := .getAsset assetId) (r := r) rfl rfl
    simp only [ObligingReply, hseen] at h
    exact h

/-- A comparison that may raise. -/
theorem raising_bind {β : Type} {expected : Json} {f : Bool → Pub β} {C : Bool → Prop}
    (h : Standing py assetBytes log False (∃ m, Compares py assetBytes expected m ∧ C m))
    {Q : Except Exc β → List PubTurn → Prop}
    (hok : ∀ m, Standing py assetBytes log False (C m) → After (f m) Q log)
    (herror : ∀ e, Settled py assetBytes log → Q (.error e) log) :
    After ((raising (hashesMatch expected (recomputeContentHash py assetBytes))).bind f) Q log := by
  unfold Compares at h
  cases hm : hashesMatch expected (recomputeContentHash py assetBytes) with
  | ok m =>
    refine hok m (h.congr ⟨?_, fun hC => ⟨m, hm, hC⟩⟩)
    rintro ⟨m', hm', hC⟩
    obtain rfl := Except.ok.inj (hm.symm.trans hm')
    exact hC
  | error e =>
    refine herror e (h.settled ?_)
    rintro ⟨m', hm', -⟩
    rw [hm] at hm'
    cases hm'

/-- After the cross-check a token is needed at once only for the proof circuit. -/
theorem crossCheck_after (h : Standing py assetBytes log False True) (assetId : Option String)
    {c : Cleared} (hc : c.actualContentHash = recomputeContentHash py assetBytes) :
    After (crossCheck py assetId c) (fun out log' => match out with
      | .ok lookup => claimsIn log' = claimsIn log ∧ Standing py assetBytes log' False
          ((lookup.any fun l => l.agentName == agentNameLoopProof) = true → Spendable log')
      | .error _ => Settled py assetBytes log') log := by
  unfold crossCheck
  split
  · exact ⟨rfl, h.congr (iff_of_true trivial nofun)⟩
  next assetId _ =>
  let claims := claimsIn log
  have hclaims : claimsIn log = claims := rfl
  rw [hclaims]
  refine After.bind (R := fun out log => match out with
    | .ok lookup => LookupEnd py assetBytes claims (.ok lookup) log
    | .error _ => Settled py assetBytes log) ?_ (fun lookup log hend => ?_) fun _ _ h => h
  · refine After.tryCatch (fetchAssetAndAgentName_after h assetId) (fun _ _ h => h)
      fun e log hend => ?_
    cases e with
    | vaultLookup => exact refuse_settles hend fun _ _ h => h
    | _ => exact hend
  · obtain ⟨hsame, hend⟩ := hend
    rw [hc]
    refine raising_bind hend (fun m h => ?_) fun _ h => h
    split
    · next hm =>
      refine ⟨hsame, h.congr ?_⟩
      simp [hm]
    · next hm => exact refuse_settles (h.open fun htrue => absurd htrue hm) fun _ _ h => h

/-! ## After the token is spent -/

/-- `callTool` makes no statement: it has the structured content or raises. -/
theorem callTool_eq (response : Response) :
    (∃ j, structuredContent response = some j ∧ callTool response = .pure j) ∨
      structuredContent response = none ∧ ∃ e, callTool response = .throw e := by
  obtain ⟨status, body⟩ := response
  unfold callTool structuredContent Response.decode
  by_cases hstatus : status = 200
  · subst hstatus
    rcases body with _ | body
    · exact .inr ⟨rfl, _, rfl⟩
    cases body with
    | obj envelope =>
      simp only [ne_eq, not_true_eq_false, if_false, Prog.bind_eq, Prog.pure_eq, Prog.pure_bind,
        asDict, dictOrEmpty]
      by_cases herror : Json.get envelope "error" = .null
      · cases htruthy : (Json.get envelope "result").truthy with
        | false =>
          simp only [herror, not_true_eq_false, if_false, Bool.false_eq_true, Prog.pure_bind]
          exact .inr ⟨by decide, _, rfl⟩
        | true =>
          simp only [herror, not_true_eq_false, if_false, if_true]
          cases Json.get envelope "result" with
          | obj result =>
            simp only [Prog.pure_bind]
            by_cases hnull : Json.get result "structuredContent" = .null
            · rw [if_pos hnull, if_pos hnull]
              exact .inr ⟨rfl, _, rfl⟩
            · rw [if_neg hnull, if_neg hnull]
              exact .inl ⟨_, rfl, rfl⟩
          | null | bool | int | float | str | arr => exact .inr ⟨rfl, _, rfl⟩
      · simp only [herror, not_false_eq_true, if_true]
        exact .inr ⟨trivial, _, rfl⟩
    | null | bool | int | float | str | arr => exact .inr ⟨rfl, _, rfl⟩
  · simp only [ne_eq, hstatus, not_false_eq_true, if_true]
    refine .inr ⟨?_, _, rfl⟩
    split
    · exact absurd rfl hstatus
    · rfl

/-- How a listing of the queue ends: with its depth where the answer tells it. -/
def ListingEnd (channelId : String) (log : List PubTurn) :
    Except Exc Nat → List PubTurn → Prop
  | .ok n, log' => ∃ response, log' = ⟨.listQueue channelId, .ok response⟩ :: log ∧
      queueLength response = some n
  | .error _, log' => ∃ r, log' = ⟨.listQueue channelId, r⟩ :: log ∧
      ∀ response, r = .ok response → queueLength response = none

theorem listingEnd_of_none {channelId : String} {response : Response} {e : Exc}
    (h : queueLength response = none) :
    ListingEnd channelId log (.error e) (⟨.listQueue channelId, .ok response⟩ :: log) :=
  ⟨_, rfl, fun _ heq => by rwa [← Reply.ok.inj heq]⟩

theorem listQueueCount_after (channelId : String) :
    After (listQueueCount channelId) (ListingEnd channelId log) log := by
  unfold listQueueCount
  simp only [Prog.bind_eq]
  refine After.ask (fun response => ?_) fun r e hseen => ⟨r, rfl, fun response heq => ?_⟩
  · rcases callTool_eq response with ⟨j, hj, heq⟩ | ⟨hnone, e, heq⟩
    · rw [heq]
      cases j with
      | obj result =>
        show After (match Json.get result "posts", Json.get result "result" with
          | .null, .obj wrapped =>
            (asDict ((Json.lookup wrapped "data").getD (.obj []))).bind fun data =>
              .pure (postCount (Json.get data "posts"))
          | posts, _ => .pure (postCount posts)) _ _
        have hlength : queueLength response =
            match Json.get result "posts", Json.get result "result" with
            | .null, .obj wrapped =>
              match (Json.lookup wrapped "data").getD (.obj []) with
              | .obj data => some (postCount (Json.get data "posts"))
              | _ => none
            | posts, _ => some (postCount posts) := by
          unfold queueLength
          rw [hj]
        split
        · next wrapped hposts hresult =>
          rw [hposts, hresult] at hlength
          dsimp only at hlength
          cases hdata : (Json.lookup wrapped "data").getD (.obj []) with
          | obj data =>
            rw [hdata] at hlength
            exact ⟨response, rfl, hlength⟩
          | null | bool | int | float | str | arr =>
            rw [hdata] at hlength
            exact listingEnd_of_none hlength
        · next hnot =>
          refine ⟨response, rfl, hlength.trans ?_⟩
          split
          · next hposts hresult => exact absurd hresult (hnot _ hposts)
          · rfl
      | null | bool | int | float | str | arr =>
        exact listingEnd_of_none (by unfold queueLength; rw [hj])
    · rw [heq]
      exact listingEnd_of_none (by unfold queueLength; rw [hnone])
  · rw [heq] at hseen
    cases hseen

/-- How a step after the spending ends: the promise still within reach, or settled. -/
def SpentEnd (py : Stdlib) (assetBytes : List UInt8) : Except Exc α → List PubTurn → Prop
  | .ok _, log => Standing py assetBytes log True True
  | .error _, log => Settled py assetBytes log

theorem createDraft_after (h : Standing py assetBytes log True True) {channelId text : String}
    {utmCampaign postArchetype : Option String} :
    After (createDraft channelId text utmCampaign postArchetype) (SpentEnd py assetBytes) log := by
  unfold createDraft
  simp only [Prog.bind_eq]
  have hturn : ∀ r, Standing py assetBytes
      (⟨.createDraft channelId text (utmCampaign.filter (· ≠ "")) (postArchetype.filter (· ≠ "")),
        r⟩ :: log) True (∃ response, r = .ok response ∧ (structuredContent response).isSome = true) :=
    fun r => h.quiet rfl rfl
  refine After.ask (fun response => ?_) fun r e hseen => (hturn r).settled ?_
  · rcases callTool_eq response with ⟨j, hj, heq⟩ | ⟨hnone, e, heq⟩
    · rw [heq]
      exact (hturn (.ok response)).open ⟨response, rfl, by rw [hj]; rfl⟩
    · rw [heq]
      refine (hturn (.ok response)).settled ?_
      rintro ⟨response', heq', hsome⟩
      obtain rfl := Reply.ok.inj heq'
      rw [hnone] at hsome
      cases hsome
  · rintro ⟨response, rfl, -⟩
    cases hseen

theorem queueDraft_after (h : Standing py assetBytes log True True) (S : Settings) {c : Cleared}
    (hc : c.assetBytes = assetBytes) :
    After (queueDraft py S c) (SpentEnd py assetBytes) log := by
  unfold queueDraft
  simp only [Prog.bind_eq]
  refine After.ask (fun baseUrl => ?_) fun r e hseen => ?_
  · have h := h.quiet (o := .resolveMcpBufferBaseUrl) (r := .ok baseUrl) rfl rfl
    simp only [ObligingReply] at h
    split
    · next hurl =>
      refine h.settled ?_
      rintro ⟨url, heq, hne⟩
      exact hne (Reply.ok.inj heq ▸ hurl)
    next hurl =>
    have h := h.open ⟨baseUrl, rfl, hurl⟩
    refine After.bind (R := fun out log' => match out with
      | .ok n => ListingEnd S.bufferLinkedinChannelId
          (⟨.resolveMcpBufferBaseUrl, .ok baseUrl⟩ :: log) (.ok n) log'
      | .error _ => Settled py assetBytes log') ?_ (fun n log' hend => ?_) fun _ _ h => h
    · refine After.tryCatch (listQueueCount_after _) (fun _ _ h => h) fun e log' hend => ?_
      -- without a depth the listing was not obliging, whatever becomes of the exception
      obtain ⟨r, rfl, hnone⟩ := hend
      have h := h.quiet (o := .listQueue S.bufferLinkedinChannelId) (r := r) rfl rfl
      have hnot : ¬ ObligingReply py assetBytes (⟨.resolveMcpBufferBaseUrl, .ok baseUrl⟩ :: log)
          (.listQueue S.bufferLinkedinChannelId) r := by
        rintro ⟨response, n, heq, hlength, -⟩
        rw [hnone response heq] at hlength
        cases hlength
      cases e with
      | bufferClient => exact refuse_spent h hnot (fun _ _ h => h) (by decide)
      | _ => exact h.settled hnot
    · obtain ⟨response, rfl, hlength⟩ := hend
      have h := h.quiet (o := .listQueue S.bufferLinkedinChannelId) (r := .ok response) rfl rfl
      simp only [ObligingReply] at h
      have hn : ∀ {C : Nat → Prop}, (∃ response' n, (Reply.ok response : Reply Exc Response) =
          .ok response' ∧ queueLength response' = some n ∧ C n) → C n := by
        rintro C ⟨response', n', heq, hlength', hC⟩
        obtain rfl := Reply.ok.inj heq
        obtain rfl := Option.some.inj (hlength.symm.trans hlength')
        exact hC
      split
      · next hfull =>
        exact refuse_spent h (fun hob => absurd (hn hob).1 (Nat.not_lt.2 hfull)) (fun _ _ h => h)
          (by decide)
      next hroom =>
      rw [hc]
      split
      · next hutf8 =>
        refine h.settled fun hob => ?_
        have := (hn hob).2
        rw [hutf8] at this
        cases this
      next text hutf8 =>
      have h := h.open ⟨response, n, rfl, hlength, Nat.lt_of_not_le hroom, by rw [hutf8]; rfl⟩
      exact (createDraft_after h).bind (fun _ _ h => h) fun _ _ h => h
  · have h := h.quiet (o := .resolveMcpBufferBaseUrl) (r := r) rfl rfl
    refine h.settled ?_
    rintro ⟨url, rfl, -⟩
    cases hseen

/-- The second half of the Vault record, once the taxonomy is there. -/
theorem postGateDecision_after (h : Standing py assetBytes log True True)
    {agentRunId reason : String} {functionId : Json} {taxonomy : List (String × Json)} :
    After ((call (.postGateDecision agentRunId reason functionId taxonomy)).bind fun response =>
      if response.statusCode ≠ 200 ∧ response.statusCode ≠ 201 then .throw .vaultWrite
      else (response.decode.bind asDict).bind fun created =>
        if !(Json.get created "id").truthy then .throw .vaultWrite
        else (.pure (py.str (Json.get created "id")) : Pub String)) (SpentEnd py assetBytes) log := by
  have hturn : ∀ r, Standing py assetBytes
      (⟨.postGateDecision agentRunId reason functionId taxonomy, r⟩ :: log) True
      (∃ response created, r = .ok response ∧
        (response.statusCode = 200 ∨ response.statusCode = 201) ∧ response.object created ∧
        (Json.get created "id").truthy = true) := fun r => h.quiet rfl rfl
  refine After.ask (fun response => ?_) fun r e hseen => (hturn r).settled ?_
  · have h := hturn (.ok response)
    split
    · next hstatus =>
      refine h.settled ?_
      rintro ⟨response', created, heq, hok | hok, -⟩ <;> obtain rfl := Reply.ok.inj heq
      · exact hstatus.1 hok
      · exact hstatus.2 hok
    next hstatus =>
    refine object_bind (fun created hcreated => ?_) fun what hno => ?_
    · split
      · next hid =>
        refine h.settled ?_
        rintro ⟨response', created', heq, -, hcreated', htruthy⟩
        obtain rfl := Reply.ok.inj heq
        unfold Response.object at hcreated hcreated'
        rw [hcreated] at hcreated'
        cases hcreated'
        rw [htruthy] at hid
        cases hid
      · next hid =>
        exact h.open ⟨response, created, rfl, by omega, hcreated, by simpa using hid⟩
    · refine h.settled ?_
      rintro ⟨response', created, heq, -, hcreated, -⟩
      obtain rfl := Reply.ok.inj heq
      exact hno created hcreated
  · rintro ⟨response, created, rfl, -⟩
    cases hseen

theorem recordPublish_after (h : Standing py assetBytes log True True) {agentRunId : String}
    {functionId jti : Json} {contentHash gateDecisionId : String} :
    After (recordPublish py agentRunId functionId contentHash gateDecisionId jti)
      (SpentEnd py assetBytes) log := by
  refine After.tryCatch (R := SpentEnd py assetBytes) ?_ (fun _ _ h => h) fun e log h => h
  simp only [Prog.bind_eq]
  have hturn : ∀ r, Standing py assetBytes (⟨.getGateDecision gateDecisionId, r⟩ :: log) True
      (∃ response source, r = .ok response ∧ response.statusCode = 200 ∧
        response.object source ∧
        ∀ name ∈ taxonomyFields, (Json.get source name).truthy = true) :=
    fun r => h.quiet rfl rfl
  refine After.ask (fun response => ?_) fun r e hseen => (hturn r).settled ?_
  · have h := hturn (.ok response)
    split
    · next hstatus =>
      refine h.settled ?_
      rintro ⟨response', source, heq, hok, -⟩
      obtain rfl := Reply.ok.inj heq
      exact hstatus hok
    next hstatus =>
    rw [ne_eq, Classical.not_not] at hstatus
    refine object_bind (fun source hsource => ?_) fun what hno => ?_
    · split
      · next htaxonomy =>
        refine h.settled ?_
        rintro ⟨response', source', heq, -, hsource', hall⟩
        obtain rfl := Reply.ok.inj heq
        unfold Response.object at hsource hsource'
        rw [hsource] at hsource'
        cases hsource'
        obtain ⟨kv, hkv, hfalsy⟩ := List.any_eq_true.1 htaxonomy
        obtain ⟨name, hname, rfl⟩ := List.mem_map.1 hkv
        rw [hall name hname] at hfalsy
        cases hfalsy
      · next htaxonomy =>
        refine postGateDecision_after (h.open ⟨response, source, rfl, hstatus, hsource, ?_⟩)
        intro name hname
        by_contra hfalsy
        refine htaxonomy (List.any_eq_true.2 ⟨_, List.mem_map_of_mem hname, ?_⟩)
        simpa using hfalsy
    · refine h.settled ?_
      rintro ⟨response', source, heq, -, hsource, -⟩
      obtain rfl := Reply.ok.inj heq
      exact hno source hsource
  · rintro ⟨response, source, rfl, -⟩
    cases hseen

theorem recordPublished_after (h : Standing py assetBytes log True True) (c : Cleared)
    (effectiveDryRun : Bool) :
    After (recordPublished py c effectiveDryRun) (fun _ log => Settled py assetBytes log) log := by
  unfold recordPublished
  simp only [Prog.bind_eq]
  refine After.bind (recordPublish_after h) (fun recordId log h => ?_) fun _ _ h => h
  have hpublished : True → outcomePublished = outcomePublished ∨
      (if effectiveDryRun = true then reasonPublishedDryRun else reasonPublished) =
        reasonTokenReplayed := fun _ => .inl rfl
  exact After.ask (fun _ => h.insert hpublished) fun _ _ _ => h.insert hpublished

/-! ## Spending the token -/

theorem Standing.consume (h : Standing py assetBytes log False True) {jti : Json}
    {gateDecisionId : Option String} (r : Reply Exc (PubOp.Res (.consumeJti jti gateDecisionId))) :
    Standing py assetBytes (⟨.consumeJti jti gateDecisionId, r⟩ :: log)
      (burns ⟨.consumeJti jti gateDecisionId, r⟩ = true) (r.answers = true) := by
  refine ⟨?_, ?_, ?_⟩
  · exact h.norow
  · have := h.burned
    unfold Burned at *
    rw [List.any_cons, Bool.or_eq_true]
    exact or_iff_left this.1
  · show _ ∧ _ ↔ _
    rw [h.obliging, and_true]
    exact Iff.rfl

theorem publishOnce_after {claims : Claims} {c : Cleared}
    (h : Standing py assetBytes log False (Spendable log)) (S : Settings)
    (hclaims : claimsIn log = some claims) (hjti : Json.lookup claims "jti" = some c.jti)
    (hc : c.assetBytes = assetBytes) (effectiveDryRun : Bool) :
    After (publishOnce py S c effectiveDryRun) (fun _ log => Settled py assetBytes log) log := by
  unfold publishOnce consume
  simp only [Prog.bind_eq]
  split
  · next hfalsy =>
    refine h.settled ?_
    rintro ⟨claims', jti, hclaims', hjti', htruthy⟩
    obtain rfl := Option.some.inj (hclaims.symm.trans hclaims')
    obtain rfl := Option.some.inj (hjti.symm.trans hjti')
    rw [htruthy] at hfalsy
    cases hfalsy
  next htruthy =>
  have h := h.open ⟨claims, c.jti, hclaims, hjti, by simpa using htruthy⟩
  have hturn : ∀ r, Standing py assetBytes (⟨.consumeJti c.jti c.gateDecisionId, r⟩ :: log)
      (burns ⟨.consumeJti c.jti c.gateDecisionId, r⟩ = true) (r.answers = true) := h.consume
  refine After.ask (fun won => ?_) fun r e hseen => (hturn r).settled ?_
  · cases won with
    | false =>
      have h := ((hturn (.ok false)).open rfl).spent (iff_false_intro Bool.false_ne_true)
      exact refuse_settles h fun _ _ h => h
    | true =>
      have h := ((hturn (.ok true)).open rfl).spent (iff_true_intro rfl)
      rw [if_pos rfl]
      split
      · exact recordPublished_after h c effectiveDryRun
      · exact (queueDraft_after h S hc).bind
          (fun _ _ h => recordPublished_after h c effectiveDryRun) fun _ _ h => h
  · cases r with
    | ok a => cases hseen
    | failed e' => exact Bool.false_ne_true
    | lost a e' => exact Bool.false_ne_true

/-- The mode is read where the asset does not force it; then a token is needed. -/
theorem effectiveDryRun_after {claims : Option Claims} {forced : Bool}
    (hclaims : claimsIn log = claims)
    (h : Standing py assetBytes log False (forced = true → Spendable log)) :
    After (if forced = true then (Prog.pure true : Pub Bool) else call .publisherDryRun)
      (fun out log => match out with
        | .ok _ => claimsIn log = claims ∧ Standing py assetBytes log False (Spendable log)
        | .error _ => Settled py assetBytes log) log := by
  split
  · next hforced => exact ⟨hclaims, h.congr ⟨fun h => h hforced, fun h _ => h⟩⟩
  next hforced =>
  have h := h.open fun htrue => absurd htrue hforced
  refine After.perform fun r => ?_
  have h := h.quiet (o := .publisherDryRun) (r := r) rfl rfl
  simp only [ObligingReply] at h
  cases r with
  | ok mode => exact ⟨hclaims, h.congr ⟨And.right, fun h => ⟨rfl, h⟩⟩⟩
  | failed e => exact h.settled fun h => Bool.false_ne_true h.1
  | lost mode e => exact h.settled fun h => Bool.false_ne_true h.1

theorem publishBound_after {claims : Claims} {jti : Json} {b : Binding}
    (h : Standing py assetBytes log False True) (S : Settings) (request : PublishRequest)
    (hclaims : claimsIn log = some claims) (hjti : Json.lookup claims "jti" = some jti)
    (hb : extractFunctionIdAndContentHash py claims = .ok b) (agentRunId : String)
    (gateDecisionId : Option String) :
    After (publishBound py S request agentRunId assetBytes jti gateDecisionId b)
      (fun _ log => Settled py assetBytes log) log := by
  unfold publishBound
  simp only [Prog.bind_eq]
  have hturn : ∀ r, Standing py assetBytes (⟨.selectActiveSwitches b.functionId, r⟩ :: log) False
      (ObligingReply py assetBytes log (.selectActiveSwitches b.functionId) r) :=
    fun r => h.quiet rfl rfl
  refine After.ask (fun row => ?_) fun r e hseen => (hturn r).settled ?_
  · have h := hturn (.ok row)
    split
    · next hblocked => exact refuse_settles (h.open ⟨row, rfl, .inl hblocked⟩) fun _ _ h => h
    next hblocked =>
    -- what is left is a comparison that does not raise
    have h : Standing py assetBytes (⟨.selectActiveSwitches b.functionId, .ok row⟩ :: log) False
        (∃ m, Compares py assetBytes b.contentHash m ∧ True) := by
      refine h.congr ⟨?_, fun ⟨m, hm, _⟩ => ⟨row, rfl, .inr ⟨claims, b, m, hclaims, hb, hm⟩⟩⟩
      rintro ⟨row', heq, hyes | ⟨claims', b', m, hclaims', hb', hm⟩⟩
      · obtain rfl := Reply.ok.inj heq
        exact absurd hyes hblocked
      · obtain rfl := Option.some.inj (hclaims.symm.trans hclaims')
        obtain rfl := Except.ok.inj (hb.symm.trans hb')
        exact ⟨m, hm, trivial⟩
    refine raising_bind h (fun m h => ?_) fun _ h => h
    split
    · refine (crossCheck_after h request.assetId rfl).bind (fun lookup log' hend => ?_)
        fun _ _ h => h
      obtain ⟨hsame, h⟩ := hend
      refine (effectiveDryRun_after (hsame.trans hclaims) h).bind (fun mode log'' hend => ?_)
        fun _ _ h => h
      obtain ⟨hclaims'', h⟩ := hend
      exact publishOnce_after h S hclaims'' hjti rfl mode
    · exact refuse_settles h fun _ _ h => h
  · rintro ⟨row, rfl, -⟩
    cases hseen

/-- Every conversation of a well-formed request. -/
theorem publishImpl_after (S : Settings) (request : PublishRequest) {agentRunId : String}
    (hid : safeUuid py (.str request.agentRunId) = some agentRunId)
    (hbytes : py.b64decode request.assetBytesB64 = some assetBytes) :
    After (publishImpl py S request) (fun _ log => Settled py assetBytes log) [] := by
  have h : Standing py assetBytes [] False True :=
    ⟨rfl, iff_of_false Bool.false_ne_true id, Iff.rfl⟩
  unfold publishImpl
  rw [hid, hbytes]
  dsimp only
  simp only [Prog.bind_eq]
  have hturn : ∀ r, Standing py assetBytes [⟨.buildVerifier, r⟩] False (r.answers = true) :=
    fun r => h.quiet rfl rfl
  refine After.ask (fun _ => ?_) fun r e hseen => (hturn r).settled ?_
  · have h := (hturn (.ok ())).open rfl
    refine After.bind (R := fun out log => match out with
      | .ok claims => VerifyEnd py assetBytes (.ok claims) log
      | .error _ => Settled py assetBytes log) ?_ (fun claims log hend => ?_) fun _ _ h => h
    · refine After.tryCatch (verify_after h _ _) (fun _ _ h => h) fun e log hend => ?_
      cases e with
      | verification reason => exact refuse_settles hend fun _ _ h => h
      | _ => exact hend
    · obtain ⟨b, hclaims, hb, h⟩ := hend
      split
      · next hjti =>
        refine h.settled ?_
        rw [hjti]
        exact Bool.false_ne_true
      next jti hjti =>
      have h := h.open (by rw [hjti]; rfl)
      unfold boundTaxonomyClaims
      rw [hb]
      exact publishBound_after h S request hclaims hjti hb agentRunId _
  · cases r with
    | ok a => cases hseen
    | failed e' => exact Bool.false_ne_true
    | lost a e' => exact Bool.false_ne_true

/-- One audit row and no token spent on a refusal, exactly where every reply is obliging. -/
theorem publishImpl_oneRow_iff (S : Settings) (request : PublishRequest) {agentRunId : String}
    (hid : safeUuid py (.str request.agentRunId) = some agentRunId)
    (hbytes : py.b64decode request.assetBytesB64 = some assetBytes)
    {out : Except Exc PublishResponse} (h : Ends (publishImpl py S request) [] out log) :
    OneRow log ↔ Obliging py assetBytes log :=
  (publishImpl_after S request hid hbytes).sound h

end Routine

/-! ## A post that Buffer does not take -/

/-- The library functions, and a well-formed request with a token. -/
def plainPython : Stdlib where
  jsonLoads _ := none
  jsonDumps _ := ""
  uuid j := match j with
    | .str s => some s
    | _ => none
  b64decode _ := some [104, 105]
  sha256Hex _ := "8f43"
  decodeUtf8 _ := some "hi"
  repr _ := ""

def plainRequest : PublishRequest := ⟨"run-1", "schedule-social", "aGk=", some "token", none⟩

/-- All is well, but that Buffer is asked and does not answer as `draft` says. -/
def plainReply (draft : Reply Exc Response) : (o : PubOp) → Reply Exc o.Res
  | .buildVerifier => .ok ()
  | .getUnverifiedHeader _ => .ok [("alg", .str "RS256")]
  | .jwtDecode _ => .ok [("jti", .str "jti-1"), ("function_id", .str "schedule-social"),
      ("content_hash", .str "8f43")]
  | .selectActiveSwitches _ => .ok none
  | .getAsset _ => .failed .httpx
  | .getAgentRun _ => .failed .httpx
  | .publisherDryRun => .ok false
  | .consumeJti _ _ => .ok true
  | .resolveMcpBufferBaseUrl => .ok (some "http://mcp-buffer")
  | .listQueue _ => .ok ⟨200, some (.obj [("result", .obj [("structuredContent",
      .obj [("posts", .arr [])])])])⟩
  | .createDraft _ _ _ _ => draft
  | .getGateDecision _ => .ok ⟨200, some (.obj (taxonomyFields.map fun f => (f, .str "x")))⟩
  | .postGateDecision _ _ _ _ => .ok ⟨201, some (.obj [("id", .str "record-1")])⟩
  | .insertAttempt _ => .ok "attempt-1"

/-- The conversation of the request. -/
def plainLog (draft : Reply Exc Response) : List PubTurn :=
  ((publishImpl plainPython ⟨["RS256"], "linkedin"⟩ plainRequest).converse (plainReply draft) []).2

/-- The draft is taken, and every reply was obliging. -/
theorem oneRow_of_taken_draft : Obliging plainPython [104, 105] (plainLog (.ok ⟨200, some
    (.obj [("result", .obj [("structuredContent", .obj [("id", .str "draft-1")])])])⟩)) :=
  (publishImpl_oneRow_iff ⟨["RS256"], "linkedin"⟩ plainRequest rfl rfl
    (Prog.converse_ends (plainReply _) _ _)).1
    ⟨by decide +kernel, fun _ => by decide +kernel⟩

/-- Buffer refuses the draft: the token is spent and no row says so. -/
theorem refused_draft_leaves_no_row : ¬ ∀ (py : Stdlib) (S : Settings) (request : PublishRequest)
    (agentRunId : String) (assetBytes : List UInt8) (out : Except Exc PublishResponse)
    (log : List PubTurn), safeUuid py (.str request.agentRunId) = some agentRunId →
    py.b64decode request.assetBytesB64 = some assetBytes →
    Ends (publishImpl py S request) [] out log → OneRow log := by
  intro h
  have hone := (h plainPython ⟨["RS256"], "linkedin"⟩ plainRequest "run-1" [104, 105] _
    (plainLog (.ok ⟨500, none⟩)) rfl rfl (Prog.converse_ends (plainReply _) _ _)).one
  revert hone
  decide +kernel

end CanvasOS.Publisher
