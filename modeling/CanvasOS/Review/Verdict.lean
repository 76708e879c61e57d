/-
  From a model's answer to the violations of a draft: three copies of one pipeline.

  1. `resolveVerdict` — `_resolve_verdict`: an answer that does not meet its function's output schema
     is refused.
  2. `ordinaryReview` — the Thursday review (`_single_draft_qa_review`), `singleQaCheck` — the check
     of the retry loop (`_run_single_qa_check`), `optionQa` — the options composer's
     (`_run_option_qa`).
  3. `review_copies_strict_iff` — when a copy passes a text, which answers the ordinary review passes
     it on as well.

  `none` is an exception; `some []` is a draft that passes.
-/
import CanvasOS.Review.Checks

namespace CanvasOS.Review

open Python Orchestrator

/-! ## The verdict of a QA function -/

/-- A decoded JSON object. -/
abbrev Object := List (String × Json)

/-- The content of a completion as `_parse_json_content` reads it; `none` where it is not a JSON
    object. -/
abbrev Content := Option Object

/-- `function_id` of `_QA_REVIEW_PARAMS`. -/
def functionId : ReviewKind → String
  | .brandSteward => "02-brand-steward-qa"
  | .factCheck => "48-fact-check-verdict"

/-- The violation codes of the function's output schema. -/
def violationCodes : ReviewKind → List String
  | .brandSteward => ["uncleared-client-reference", "link-shortener", "sa-english-spelling",
      "missing-cta", "url-utm", "unsupported-claim"]
  | .factCheck => ["fabricated-proof-point", "misstated-approved-fact",
      "revenue-model-misstatement"]

/-- `_validate_function_output`: the schema requires `pass`, `violations` and `notes` and permits
    nothing else. -/
def outputConforms (kind : ReviewKind) (verdict : Object) : Bool :=
  verdict.all (fun kv => kv.1 ∈ ["pass", "violations", "notes"]) &&
  (match Json.lookup verdict "pass" with
    | some (.bool _) => true
    | _ => false) &&
  (match Json.lookup verdict "violations" with
    | some (.arr codes) => codes.all fun c => (violationCodes kind).any fun code => c == .str code
    | _ => false) &&
  (match Json.lookup verdict "notes" with
    | some (.str _) => true
    | _ => false)

/-- `list(x)` of a decoded value; `none` is the TypeError. -/
def pyList : Json → Option (List Json)
  | .arr xs => some xs
  | .str s => some (s.toList.map fun c => .str (String.singleton c))
  | .obj kvs => some (kvs.map fun kv => .str kv.1)
  | _ => none

/-- `list(verdict.get("violations") or [])`. -/
def declaredViolations (verdict : Object) : Option (List Json) :=
  if (Json.get verdict "violations").truthy then pyList (Json.get verdict "violations") else some []

/-- `_resolve_verdict`. -/
def resolveVerdict (kind : ReviewKind) (verdict : Object) : Option (Bool × List Json) := do
  guard (outputConforms kind verdict)
  let violations ← declaredViolations verdict
  pure ((Json.get verdict "pass").truthy, violations)

/-- `QA_VERDICT_UNSPECIFIED_FAILURE`. -/
def qaVerdictUnspecifiedFailure : String := "verdict-declared-failure-without-code"

/-- The code of an uncleared name is added where the model did not give it. -/
def addUncleared (uncleared : List String) (violations : List Json) : List Json :=
  if uncleared ≠ [] ∧ .str violationCode ∉ violations then violations ++ [.str violationCode]
  else violations

/-! ## The three pipelines -/

/-- The policies a review reads. -/
structure Policies where
  unicode : Unicode
  /-- `docs/permission-register.yaml` -/
  clients : List ClientEntry
  /-- `approved` of `policies/fact-check-gate.yaml` -/
  factCheckApproved : Bool

/-- `permission_check`'s index of the register. -/
def Policies.register (P : Policies) : Register := loadRegister P.unicode P.clients

/-- The names in a text that may not be used. -/
def Policies.uncleared (P : Policies) (text : String) : List String :=
  findUnclearedInText P.unicode P.register text

/-- One `{claim, source}` pair of the fact check's input schema. -/
def proofPointConforms : Json → Bool
  | .obj kvs =>
    kvs.all (fun kv => kv.1 ∈ ["claim", "source"]) &&
    ["claim", "source"].all fun key =>
      match Json.lookup kvs key with
      | some (.str s) => s != ""
      | _ => false
  | _ => false

/-- `_validate_function_input`: the reviews differ in the proof points, which only the fact check is
    sent. -/
def inputConforms (kind : ReviewKind) (draftText : String) (proofPoints : Json) : Bool :=
  draftText != "" &&
  match kind with
  | .brandSteward => true
  | .factCheck =>
    match proofPoints with
    | .arr points => points.all proofPointConforms
    | _ => false

/-- The ordinary review's last word on what reconciliation left and dropped: a refusal without a
    code is a refusal, unless it is reconciliation that emptied the list. -/
def conclude (declaredPass : Bool) (reconciled : List Json × List Json) : List Json :=
  if reconciled.1 = [] ∧ declaredPass = false ∧ reconciled.2 = [] then
    [.str qaVerdictUnspecifiedFailure]
  else reconciled.1

/-- What the ordinary review makes of a resolved verdict. -/
def settle (P : Policies) (draftText : String) (declaredPass : Bool) (declared : List Json) :
    List Json :=
  conclude declaredPass
    (reconcileViolations P.unicode (addUncleared (P.uncleared draftText) declared) draftText)

/-- `_single_draft_qa_review`: the violations of `draftText`, given the model's answer. -/
def ordinaryReview (P : Policies) (kind : ReviewKind) (draftText : String) (proofPoints : Json)
    (content : Content) : Option (List Json) :=
  if kind = .factCheck ∧ P.factCheckApproved = false then some [.str factCheckGateNotApproved]
  else do
    guard (inputConforms kind draftText proofPoints)
    let verdict ← content
    let (declaredPass, declared) ← resolveVerdict kind verdict
    pure (settle P draftText declaredPass declared)

/-- `_run_single_qa_check`: the violations of `draftText`, given the model's answer. -/
def singleQaCheck (P : Policies) (draftText : String) (content : Content) :
    Option (List Json) := do
  let verdict ← content
  let declared ← declaredViolations verdict
  let uncleared := findUnclearedReferences P.unicode P.register []
  pure (reconcileViolations P.unicode (addUncleared uncleared declared) draftText).1

/-- `_run_option_qa`: whether `text` passes, and its violations, given the two models' answers. -/
def optionQa (P : Policies) (text : String) (proofPoints : Json) (brand fact : Content) :
    Option (Bool × List Json) := do
  guard (inputConforms .brandSteward text proofPoints)
  let brandVerdict ← brand
  let (_, brandViolations) ← resolveVerdict .brandSteward brandVerdict
  guard (inputConforms .factCheck text proofPoints)
  let factVerdict ← fact
  let (_, factViolations) ← resolveVerdict .factCheck factVerdict
  let violations := addUncleared (P.uncleared text) (brandViolations ++ factViolations)
  let (violations, _) := reconcileViolations P.unicode violations text
  pure (decide (violations = []), violations)

/-! ## Reconciliation -/

section Reconcile

variable {U : Unicode} {code : String} {found : List String} {x : List Json × List Json}
  {violations : List Json} {text : String}

/-- A code is dropped or it is left: none is lost and none is added. -/
theorem dropContradicted_length :
    (dropContradicted code found x).1.length + (dropContradicted code found x).2.length =
      x.1.length + x.2.length := by
  unfold dropContradicted
  split
  · next h =>
    have hlen := List.length_erase_of_mem h.1
    have hpos := List.length_pos_of_mem h.1
    simp only [List.length_append, List.length_singleton]
    omega
  · rfl

/-- Only `code` is dropped. -/
theorem mem_dropContradicted {c : Json} (hc : c ≠ .str code) (h : c ∈ x.1) :
    c ∈ (dropContradicted code found x).1 := by
  unfold dropContradicted
  split
  · exact (List.mem_erase_of_ne hc).2 h
  · exact h

theorem reconcileViolations_length :
    (reconcileViolations U violations text).1.length +
      (reconcileViolations U violations text).2.length = violations.length := by
  unfold reconcileViolations
  rw [dropContradicted_length, dropContradicted_length]
  rfl

/-- Every code but the two enumerable ones stays. -/
theorem mem_reconcileViolations {c : Json} (hsa : c ≠ .str saSpellingViolation)
    (hclaim : c ≠ .str unsupportedClaimViolation) (h : c ∈ violations) :
    c ∈ (reconcileViolations U violations text).1 :=
  mem_dropContradicted hclaim (mem_dropContradicted hsa h)

/-- Where nothing is left, something was dropped if there was something. -/
theorem dropped_eq_nil_iff (h : (reconcileViolations U violations text).1 = []) :
    (reconcileViolations U violations text).2 = [] ↔ violations = [] := by
  have hlen : (reconcileViolations U violations text).1.length +
      (reconcileViolations U violations text).2.length = violations.length :=
    reconcileViolations_length
  rw [h, List.length_nil, Nat.zero_add] at hlen
  rw [← List.length_eq_zero_iff, hlen, List.length_eq_zero_iff]

end Reconcile

/-! ## What each pipeline passes -/

section Passing

variable {P : Policies} {kind : ReviewKind} {text : String} {proofPoints : Json}
  {content : Content} {verdict : Object} {declared : List Json} {declaredPass : Bool}

theorem resolveVerdict_eq_some :
    resolveVerdict kind verdict = some (declaredPass, declared) ↔
      outputConforms kind verdict ∧ declaredViolations verdict = some declared ∧
        (Json.get verdict "pass").truthy = declaredPass := by
  simp [resolveVerdict, Option.bind_eq_some_iff, Option.guard_eq_some']

/-- The codes of a conforming verdict are codes of its function. -/
theorem mem_violationCodes (hv : outputConforms kind verdict)
    (hd : declaredViolations verdict = some declared) {c : Json} (hc : c ∈ declared) :
    ∃ code ∈ violationCodes kind, c = .str code := by
  simp only [outputConforms, Bool.and_eq_true] at hv
  obtain ⟨⟨-, hcodes⟩, -⟩ := hv
  cases hl : Json.lookup verdict "violations" with
  | none => simp [hl] at hcodes
  | some x =>
    cases x with
    | arr codes =>
      have hget : Json.get verdict "violations" = .arr codes := by simp [Json.get, hl]
      rw [declaredViolations, hget] at hd
      have hmem : c ∈ codes := by
        split at hd
        · rwa [← Option.some.inj hd] at hc
        · simp [← Option.some.inj hd] at hc
      simp only [hl, List.all_eq_true, List.any_eq_true, beq_iff_eq] at hcodes
      exact hcodes c hmem
    | _ => simp [hl] at hcodes

/-- A text with an uncleared name keeps the code. -/
theorem violationCode_mem_addUncleared {names : List String} (h : names ≠ []) :
    .str violationCode ∈ addUncleared names declared := by
  unfold addUncleared
  split
  · simp
  · next hmem => simpa [h] using hmem

theorem settle_eq_nil_iff :
    settle P text declaredPass declared = [] ↔
      P.uncleared text = [] ∧ (reconcileViolations P.unicode declared text).1 = [] ∧
        (declaredPass = true ∨ declared ≠ []) := by
  by_cases hclear : P.uncleared text = []
  · have hadd : addUncleared (P.uncleared text) declared = declared := by simp [addUncleared, hclear]
    by_cases hleft : (reconcileViolations P.unicode declared text).1 = []
    · unfold settle conclude
      rw [hadd]
      simp only [hleft, dropped_eq_nil_iff hleft, hclear]
      cases declaredPass <;> by_cases hd : declared = [] <;> simp [hd]
    · unfold settle conclude
      rw [hadd]
      simp [hleft]
  · -- the code of the uncleared name survives reconciliation
    have hleft : (reconcileViolations P.unicode
        (addUncleared (P.uncleared text) declared) text).1 ≠ [] :=
      List.ne_nil_of_mem (mem_reconcileViolations (by decide) (by decide)
        (violationCode_mem_addUncleared hclear))
    simp [settle, conclude, hleft, hclear]

theorem ordinaryReview_eq_nil_iff :
    ordinaryReview P kind text proofPoints content = some [] ↔
      (kind = .factCheck → P.factCheckApproved = true) ∧ inputConforms kind text proofPoints ∧
        ∃ verdict declared, content = some verdict ∧ outputConforms kind verdict ∧
          declaredViolations verdict = some declared ∧
          settle P text (Json.get verdict "pass").truthy declared = [] := by
  unfold ordinaryReview
  split
  · next h => simp [h]
  · next h =>
    have hgate : kind = .factCheck → P.factCheckApproved = true := fun hk => by
      simpa [hk] using h
    simp only [Option.bind_eq_bind, Option.bind_eq_some_iff, Option.guard_eq_some']
    constructor
    · rintro ⟨-, hin, verdict, rfl, ⟨pass, declared⟩, hres, hset⟩
      obtain ⟨hout, hd, rfl⟩ := resolveVerdict_eq_some.1 hres
      exact ⟨hgate, hin, verdict, declared, rfl, hout, hd, Option.some.inj hset⟩
    · rintro ⟨-, hin, verdict, declared, rfl, hout, hd, hset⟩
      exact ⟨(), hin, verdict, rfl, _, resolveVerdict_eq_some.2 ⟨hout, hd, rfl⟩,
        congrArg some hset⟩

theorem singleQaCheck_eq_nil_iff :
    singleQaCheck P text content = some [] ↔
      ∃ verdict declared, content = some verdict ∧ declaredViolations verdict = some declared ∧
        (reconcileViolations P.unicode declared text).1 = [] := by
  simp [singleQaCheck, Option.bind_eq_some_iff, addUncleared, findUnclearedReferences]

/-- Two conforming verdicts that pass together: the fact check names nothing. -/
theorem optionQa_pass {brand fact : Content} {violations : List Json}
    (h : optionQa P text proofPoints brand fact = some (true, violations)) :
    inputConforms .brandSteward text proofPoints ∧ inputConforms .factCheck text proofPoints ∧
      P.uncleared text = [] ∧ ∃ bv bd fv, brand = some bv ∧ outputConforms .brandSteward bv ∧
        declaredViolations bv = some bd ∧ (reconcileViolations P.unicode bd text).1 = [] ∧
        fact = some fv ∧ outputConforms .factCheck fv ∧ declaredViolations fv = some [] := by
  simp only [optionQa, Option.bind_eq_bind, Option.bind_eq_some_iff, Option.guard_eq_some'] at h
  obtain ⟨-, hbi, bv, rfl, ⟨bp, bd⟩, hbr, -, hfi, fv, rfl, ⟨fp, fd⟩, hfr, hpass⟩ := h
  obtain ⟨hbo, hbd, -⟩ := resolveVerdict_eq_some.1 hbr
  obtain ⟨hfo, hfd, -⟩ := resolveVerdict_eq_some.1 hfr
  have hleft : (reconcileViolations P.unicode (addUncleared (P.uncleared text) (bd ++ fd))
      text).1 = [] := of_decide_eq_true (Prod.mk.inj (Option.some.inj hpass)).1
  have hstays : ∀ c ∈ addUncleared (P.uncleared text) (bd ++ fd),
      c = .str saSpellingViolation ∨ c = .str unsupportedClaimViolation := by
    intro c hc
    by_contra hne
    obtain ⟨hsa, hclaim⟩ := not_or.1 hne
    exact List.ne_nil_of_mem (mem_reconcileViolations hsa hclaim hc) hleft
  have hclear : P.uncleared text = [] := by
    by_contra hne
    have := hstays _ (violationCode_mem_addUncleared hne)
    exact absurd this (by decide)
  have hadd : addUncleared (P.uncleared text) (bd ++ fd) = bd ++ fd := by
    simp [addUncleared, hclear]
  rw [hadd] at hleft hstays
  have hfnil : fd = [] := by
    rw [List.eq_nil_iff_forall_not_mem]
    intro c hc
    obtain ⟨code, hcode, rfl⟩ := mem_violationCodes hfo hfd hc
    have hthis := hstays (.str code) (List.mem_append_right bd hc)
    simp only [violationCodes, List.mem_cons, List.not_mem_nil, or_false] at hcode
    rcases hcode with rfl | rfl | rfl <;> exact absurd hthis (by decide)
  subst hfnil
  rw [List.append_nil] at hleft
  exact ⟨hbi, hfi, hclear, bv, bd, fv, rfl, hbo, hbd, hleft, rfl, hfo, hfd⟩

end Passing

/-! ## The copies against the original -/

/-- The verdict refuses the text without naming a code. -/
def RefusesSilently (verdict : Object) : Prop :=
  (Json.get verdict "pass").truthy = false ∧ declaredViolations verdict = some []

/-- What the ordinary review asks of a text that the check of the retry loop passed. -/
structure SingleAgrees (P : Policies) (kind : ReviewKind) (text : String) (proofPoints : Json)
    (content : Content) : Prop where
  gate : kind = .factCheck → P.factCheckApproved = true
  input : inputConforms kind text proofPoints = true
  cleared : P.uncleared text = []
  verdict : ∃ v, content = some v ∧ outputConforms kind v = true ∧ ¬ RefusesSilently v

/-- What the ordinary reviews ask of a text that the options composer passed. -/
structure OptionAgrees (P : Policies) (brand fact : Content) : Prop where
  gate : P.factCheckApproved = true
  brand : ∀ v, brand = some v → ¬ RefusesSilently v
  fact : ∀ v, fact = some v → ¬ RefusesSilently v

/-- A declared verdict that is not a silent refusal. -/
theorem not_refusesSilently_iff {verdict : Object} {declared : List Json}
    (hd : declaredViolations verdict = some declared) :
    ¬ RefusesSilently verdict ↔ (Json.get verdict "pass").truthy = true ∨ declared ≠ [] := by
  unfold RefusesSilently
  rw [hd, Option.some.injEq, not_and_or, Bool.not_eq_false]

theorem singleQaCheck_ordinary {P : Policies} {kind : ReviewKind} {text : String}
    {proofPoints : Json} {content : Content} (h : singleQaCheck P text content = some []) :
    ordinaryReview P kind text proofPoints content = some [] ↔
      SingleAgrees P kind text proofPoints content := by
  obtain ⟨v, d, rfl, hd, hleft⟩ := singleQaCheck_eq_nil_iff.1 h
  rw [ordinaryReview_eq_nil_iff]
  constructor
  · rintro ⟨hgate, hin, w, e, hw, hout, he, hset⟩
    obtain rfl := Option.some.inj hw
    obtain ⟨hclear, -, hpass⟩ := settle_eq_nil_iff.1 hset
    exact ⟨hgate, hin, hclear, v, rfl, hout, (not_refusesSilently_iff he).2 hpass⟩
  · rintro ⟨hgate, hin, hclear, w, hw, hout, hpass⟩
    obtain rfl := Option.some.inj hw
    have hset := settle_eq_nil_iff.2 ⟨hclear, hleft, (not_refusesSilently_iff hd).1 hpass⟩
    exact ⟨hgate, hin, v, d, rfl, hout, hd, hset⟩

theorem optionQa_ordinary {P : Policies} {text : String} {proofPoints : Json}
    {brand fact : Content} {violations : List Json}
    (h : optionQa P text proofPoints brand fact = some (true, violations)) :
    (ordinaryReview P .brandSteward text proofPoints brand = some [] ∧
        ordinaryReview P .factCheck text proofPoints fact = some []) ↔
      OptionAgrees P brand fact := by
  obtain ⟨hbi, hfi, hclear, bv, bd, fv, rfl, hbo, hbd, hleft, rfl, hfo, hfd⟩ := optionQa_pass h
  rw [ordinaryReview_eq_nil_iff, ordinaryReview_eq_nil_iff]
  constructor
  · rintro ⟨⟨-, -, v, d, hv, -, hd, hbset⟩, hgate, -, w, e, hw, -, he, hfset⟩
    obtain rfl := Option.some.inj hv
    obtain rfl := Option.some.inj hw
    refine ⟨hgate rfl, fun x hx => ?_, fun x hx => ?_⟩
    · obtain rfl := Option.some.inj hx
      exact (not_refusesSilently_iff hd).2 (settle_eq_nil_iff.1 hbset).2.2
    · obtain rfl := Option.some.inj hx
      exact (not_refusesSilently_iff he).2 (settle_eq_nil_iff.1 hfset).2.2
  · rintro ⟨hgate, hb, hf⟩
    have hbset := settle_eq_nil_iff.2
      ⟨hclear, hleft, (not_refusesSilently_iff hbd).1 (hb bv rfl)⟩
    have hfset : settle P text (Json.get fv "pass").truthy [] = [] :=
      settle_eq_nil_iff.2 ⟨hclear, rfl, (not_refusesSilently_iff hfd).1 (hf fv rfl)⟩
    exact ⟨⟨nofun, hbi, bv, bd, rfl, hbo, hbd, hbset⟩, fun _ => hgate, hfi, fv, [], rfl, hfo, hfd,
      hfset⟩

/-- A text that the retry loop's check passes is passed by the ordinary review exactly where the
    answer is a conforming verdict that does not refuse silently and the text names nobody who is
    not cleared; a text that the options composer passes, exactly where the fact-check gate is open
    and neither verdict refuses silently. -/
theorem review_copies_strict_iff (P : Policies) (text : String) (proofPoints : Json) :
    (∀ kind content, singleQaCheck P text content = some [] →
      (ordinaryReview P kind text proofPoints content = some [] ↔
        SingleAgrees P kind text proofPoints content)) ∧
    ∀ brand fact violations, optionQa P text proofPoints brand fact = some (true, violations) →
      ((ordinaryReview P .brandSteward text proofPoints brand = some [] ∧
          ordinaryReview P .factCheck text proofPoints fact = some []) ↔
        OptionAgrees P brand fact) :=
  ⟨fun _ _ h => singleQaCheck_ordinary h, fun _ _ _ h => optionQa_ordinary h⟩

/-- One client that is not cleared, and the fact-check gate open. -/
def imperialUncleared : Policies :=
  ⟨.ascii, [⟨"Imperial", ["Imperial Logistics"], "UNCLEARED"⟩], true⟩

/-- `{"pass": …, "violations": [], "notes": ""}`. -/
def codeless (pass : Bool) : Object :=
  [("pass", .bool pass), ("violations", .arr []), ("notes", .str "")]

/-- A name that is not cleared, an answer off the schema and a refusal without a code: the retry
    loop's check passes all three, the options composer's the last one, and the ordinary review
    none. -/
theorem review_copies_looser :
    ¬ ((∀ P kind text proofPoints content, singleQaCheck P text content = some [] →
        ordinaryReview P kind text proofPoints content = some []) ∧
      ∀ P text proofPoints brand fact violations,
        optionQa P text proofPoints brand fact = some (true, violations) →
          ordinaryReview P .brandSteward text proofPoints brand = some [] ∧
            ordinaryReview P .factCheck text proofPoints fact = some []) ∧
    (singleQaCheck imperialUncleared "We consolidated Imperial." (some (codeless true)) = some [] ∧
      ordinaryReview imperialUncleared .brandSteward "We consolidated Imperial." (.arr [])
        (some (codeless true)) = some [.str violationCode]) ∧
    (singleQaCheck imperialUncleared "A governed source." (some []) = some [] ∧
      ordinaryReview imperialUncleared .brandSteward "A governed source." (.arr []) (some []) =
        none) ∧
    optionQa imperialUncleared "A governed source." (.arr []) (some (codeless false))
        (some (codeless true)) = some (true, []) ∧
      ordinaryReview imperialUncleared .brandSteward "A governed source." (.arr [])
        (some (codeless false)) = some [.str qaVerdictUnspecifiedFailure] := by
  refine ⟨fun h => ?_, ⟨?_, ?_⟩, ⟨?_, ?_⟩, ?_, ?_⟩
  · have hpass := h.1 imperialUncleared .brandSteward "A governed source." (.arr []) (some [])
      (by decide +kernel)
    revert hpass
    decide +kernel
  all_goals decide +kernel

/-- Both copies pass a text, and so does the ordinary review. -/
theorem review_copies_strict_somewhere :
    ordinaryReview imperialUncleared .brandSteward "A governed source." (.arr [])
        (some (codeless true)) = some [] ∧
      ordinaryReview imperialUncleared .factCheck "A governed source." (.arr [])
        (some (codeless true)) = some [] := by
  have hagree := review_copies_strict_iff imperialUncleared "A governed source." (.arr [])
  have hsilent : ∀ v, some (codeless true) = some v → ¬ RefusesSilently v := by
    intro v hv hr
    obtain rfl := Option.some.inj hv
    exact absurd hr.1 (by decide)
  refine ⟨(hagree.1 .brandSteward (some (codeless true)) (by decide +kernel)).2
    ⟨nofun, by decide +kernel, by decide +kernel, codeless true, rfl, by decide +kernel,
      hsilent _ rfl⟩, ?_⟩
  exact ((hagree.2 (some (codeless true)) (some (codeless true)) [] (by decide +kernel)).2
    ⟨rfl, hsilent, hsilent⟩).2

end CanvasOS.Review
