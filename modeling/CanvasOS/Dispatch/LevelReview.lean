/-
  The monthly review of the levels (`decision_quality_level_review_monthly_handler`).

  1. `demotionRequest` — the card that proposes a demotion.  It takes the first trigger that fired,
     by the name of the most severe one.
  2. `Demotes` — what is promised of the triggers and of the card.
  3. `demotes_iff` — it holds where neither counter stands in for the other, and the first rule that
     is due is of the greatest severity.
-/
import CanvasOS.Dispatch.ComposeOptions
import CanvasOS.OptionsInbox.EarnIn

namespace CanvasOS.Dispatch

open Python Review OptionsInbox

/-! ## The card -/

/-- One turn of the monthly review, up to the evaluation. -/
structure ReviewTurn where
  cardId : String
  now : Moment
  taskId : Json
  agentRun : String
  functionId : Nat
  actionClass : String
  /-- the metrics, as they are printed -/
  recommendationHitRate : String
  rejectionAllRate : String
  decisions : Nat

/-- `evidence` -/
def ReviewTurn.evidence (turn : ReviewTurn) (mostSevere : DemotionResult) : String :=
  "Fn " ++ toString turn.functionId ++ " (" ++ turn.actionClass ++ ") over the trailing 30 days: " ++
    "recommendation_hit_rate=" ++ turn.recommendationHitRate ++ ", rejection_all_rate=" ++
    turn.rejectionAllRate ++ ", decisions=" ++ toString turn.decisions ++ ". Triggered: " ++
    mostSevere.trigger ++ " -> " ++ mostSevere.action.text ++ "."

/-- One of the two options. -/
def ReviewTurn.option (turn : ReviewTurn) (mostSevere : DemotionResult)
    (optionId label summary predictedOutcome : String) : Object :=
  [("option_id", .str optionId), ("label", .str label), ("summary", .str (firstChars 400 summary)),
    ("payload_ref", .str ("vault://agent-run/" ++ turn.agentRun)),
    ("evidence_refs", .arr [.obj [("source_type", .str "vault_asset"),
      ("ref", .str ("vault://agent-run/" ++ turn.agentRun)),
      ("quote", .str (firstChars 300 (turn.evidence mostSevere))),
      ("authority", .str "primary")]]),
    ("predicted_outcome", .str predictedOutcome), ("risks", .arr [])]

/-- `decision_question` -/
def demotionQuestion (action : DemotionAction) (functionId : Nat) : String :=
  "Apply " ++ (action.text ++ (" to function " ++ (toString functionId ++ "?")))

/-- The arguments of `build_card`; there is no card where nothing fired. -/
def demotionRequest (turn : ReviewTurn) : (fired : List DemotionResult) → Option CardRequest
  | [] => none
  | mostSevere :: _ => some {
      cardId := turn.cardId
      kind := "system.autonomy_level_change"
      level := 0
      title := firstChars 120 ("Fn " ++ toString turn.functionId ++ ": demote per " ++
        mostSevere.trigger)
      decisionQuestion := demotionQuestion mostSevere.action turn.functionId
      options := [
        turn.option mostSevere "A" "Apply" (mostSevere.action.text ++ " for function " ++
          toString turn.functionId ++ ".")
          "Function's autonomy level is reduced per the fired trigger.",
        turn.option mostSevere "B" "Hold" ("Do not change function " ++ toString turn.functionId ++
          "'s level yet.") "No change; re-evaluated next monthly pass."]
      recommended := "A"
      evidenceRefs := [[("source_type", .str "vault_asset"),
        ("ref", .str ("vault://agent-run/" ++ turn.agentRun)), ("authority", .str "primary")]]
      producedBy := [("function_id", .int 126), ("prompt_version", .str "0.1.0")]
      registerRows := ["H14", "H26"]
      rationale := turn.evidence mostSevere
      contextSummary := ""
      novelStance := false
      lineage := some [("agent_run_id", .str turn.agentRun), ("source_task_id", turn.taskId)]
      now := turn.now
      expiresHours := none
      defaultsEarned := false }

/-! ## What is promised -/

section Promise

variable {ν : Type} [LinearOrder ν] {signals : Signals ν} {rules : List (DemoteRule ν)}

/-- A thresholded trigger fires when it is due, and the card applies an action of the greatest
    severity. -/
structure Demotes (signals : Signals ν) (rules : List (DemoteRule ν)) : Prop where
  fires : ∀ rule ∈ rules, rule.thresholded = true →
    ((fire signals rule).isSome = true ↔ Due signals rule)
  severest : ∀ (turn : ReviewTurn) (request : CardRequest),
    demotionRequest turn (evaluateDemotion signals rules) = some request →
    ∃ applied ∈ evaluateDemotion signals rules,
      request.decisionQuestion = demotionQuestion applied.action turn.functionId ∧
      ∀ fired ∈ evaluateDemotion signals rules, fired.action.severity ≤ applied.action.severity

/-- The signals ask for the demotion of the rule. -/
def Asked (signals : Signals ν) (rule : DemoteRule ν) : Prop :=
  (rule.trigger = "material_failure" ∧ signals.materialFailure = true) ∨
    (rule.thresholded = true ∧ Due signals rule)

/-- The first rule that is asked for is as severe as any that is. -/
def SeverestFirst (signals : Signals ν) (rules : List (DemoteRule ν)) : Prop :=
  ∀ before first after, rules = before ++ first :: after → (∀ rule ∈ before, ¬ Asked signals rule) →
    Asked signals first →
    ∀ rule ∈ rules, Asked signals rule → rule.action.severity ≤ first.action.severity

/-! ## Where it holds -/

theorem demotionQuestion_inj {a b : DemotionAction} {functionId : Nat}
    (h : demotionQuestion a functionId = demotionQuestion b functionId) : a = b := by
  have htext : a.text = b.text := by
    have hchars := congrArg String.toList h
    simp only [demotionQuestion, String.toList_append] at hchars
    exact String.toList_inj.1 (List.append_cancel_right (List.append_cancel_left hchars))
  cases a <;> cases b <;> first | rfl | exact absurd htext (by decide)

/-- Where every thresholded rule fires when it is due, the rules that fire are those asked for. -/
theorem fire_isSome_iff {rule : DemoteRule ν}
    (h : rule.thresholded = true → ((fire signals rule).isSome = true ↔ Due signals rule)) :
    (fire signals rule).isSome = true ↔ Asked signals rule := by
  unfold Asked
  by_cases htrigger : rule.trigger = "material_failure"
  · have hno : rule.thresholded = false := by simp [DemoteRule.thresholded, htrigger]
    unfold fire
    rw [if_pos htrigger, hno]
    cases signals.materialFailure with
    | true => simp [htrigger]
    | false => simp
  · cases hshape : rule.thresholded with
    | true => rw [h hshape]; simp [htrigger]
    | false =>
      have hnone : fire signals rule = none := by
        unfold fire
        rw [if_neg htrigger]
        unfold DemoteRule.thresholded at hshape
        cases hthreshold : rule.threshold with
        | none => rfl
        | some threshold =>
          cases hmetric : metricOf rule.trigger with
          | none => simp
          | some metric => simp [hthreshold, hmetric, htrigger] at hshape
      simp [hnone, htrigger]

/-- Any turn of the review. -/
def someTurn : ReviewTurn := ⟨"card", ⟨0, true⟩, .str "task", "run", 116, "compose_options", "0.3",
  "0.6", 40⟩

/-- The promise is kept exactly where no counter decides about a floor of the other, for a rule whose
    metric is beyond its threshold, and the first of the rules that are asked for is of the greatest
    severity. -/
theorem demotes_iff (signals : Signals ν) (rules : List (DemoteRule ν)) :
    Demotes signals rules ↔
      (∀ rule ∈ rules, rule.thresholded = true → beyond signals rule = true →
        FloorsKeptApart signals rule) ∧ SeverestFirst signals rules := by
  have hkept : (∀ rule ∈ rules, rule.thresholded = true →
      ((fire signals rule).isSome = true ↔ Due signals rule)) ↔
      ∀ rule ∈ rules, rule.thresholded = true → beyond signals rule = true →
        FloorsKeptApart signals rule :=
    forall₂_congr fun rule _ => forall_congr' fun hshape => fires_iff_due hshape
  rw [← hkept]
  constructor
  · rintro ⟨hfires, hsevere⟩
    refine ⟨hfires, fun before first after hsplit hbefore hfirst rule hrule hasked => ?_⟩
    have hiff := fun rule hrule => fire_isSome_iff (hfires rule hrule)
    have hin : first ∈ rules := by rw [hsplit]; simp
    have hnone : before.filterMap (fire signals) = [] := by
      refine List.filterMap_eq_nil_iff.2 fun rule hrule => ?_
      have hno := hbefore rule hrule
      rw [← hiff rule (by rw [hsplit]; simp [hrule])] at hno
      simpa using hno
    -- the card is about the first rule that is asked for
    have hfired : fire signals first = some first.result := by
      obtain ⟨fired, hfired⟩ := Option.isSome_iff_exists.1 ((hiff first hin).2 hfirst)
      rw [hfired, eq_of_fire hfired]
    have hlist : evaluateDemotion signals rules =
        first.result :: after.filterMap (fire signals) := by
      unfold evaluateDemotion
      rw [hsplit, List.filterMap_append, hnone, List.nil_append, List.filterMap_cons_some hfired]
    obtain ⟨applied, -, hquestion, hmost⟩ := hsevere someTurn _ (by rw [hlist]; rfl)
    obtain ⟨fired, hrulefired⟩ := Option.isSome_iff_exists.1 ((hiff rule hrule).2 hasked)
    have hmem : fired ∈ evaluateDemotion signals rules :=
      List.mem_filterMap.2 ⟨rule, hrule, hrulefired⟩
    have hle := hmost fired hmem
    rw [eq_of_fire hrulefired, ← demotionQuestion_inj hquestion] at hle
    exact hle
  · rintro ⟨hfires, hfirst⟩
    refine ⟨hfires, fun turn request hrequest => ?_⟩
    have hiff := fun rule hrule => fire_isSome_iff (hfires rule hrule)
    cases hlist : evaluateDemotion signals rules with
    | nil =>
      rw [hlist] at hrequest
      cases hrequest
    | cons mostSevere rest =>
      rw [hlist] at hrequest
      obtain rfl := Option.some.inj hrequest
      obtain ⟨before, first, after, hsplit, hnone, hfired, -⟩ := List.filterMap_eq_cons_iff.1 hlist
      refine ⟨mostSevere, List.mem_cons_self, rfl, fun fired hmem => ?_⟩
      rw [← hlist] at hmem
      obtain ⟨rule, hrule, hrulefired⟩ := List.mem_filterMap.1 hmem
      have hin : first ∈ rules := by rw [hsplit]; simp
      have hle := hfirst before first after hsplit
        (fun rule hrule hasked => ?_) ((hiff first hin).1 (by rw [hfired]; rfl))
        rule hrule ((hiff rule hrule).1 (by rw [hrulefired]; rfl))
      · rw [eq_of_fire hfired, eq_of_fire hrulefired]
        exact hle
      · have hsome := (hiff rule (by rw [hsplit]; simp [hrule])).2 hasked
        rw [hnone rule hrule] at hsome
        cases hsome

end Promise

/-! ### The rules of `earn-in-rules.yaml`

    Rates are per cent. -/

def demoteRules : List (DemoteRule Nat) := [
  ⟨"material_failure", .dropOneLevelAndPauseUntilCard, none, none, none⟩,
  ⟨"fabricated_proof_point_rate_gt", .dropToLevel1, some 5, none, none⟩,
  ⟨"gate_pass_rate_lt", .dropOneLevel, some 50, some 20, none⟩,
  ⟨"recommendation_hit_rate_lt", .dropOneLevel, some 40, none, some 20⟩,
  ⟨"rejection_all_rate_gt", .pauseFunction, some 50, none, some 15⟩]

/-- Thirty runs, but only five decisions. -/
def fewDecisions : Signals Nat := ⟨false, some 30, some 5, [("recommendation_hit_rate", 10)]⟩

/-- Forty decisions, most of which reject everything. -/
def mostlyRejected : Signals Nat :=
  ⟨false, some 40, some 40, [("recommendation_hit_rate", 10), ("rejection_all_rate", 90)]⟩

/-- The runs stand in for the decisions; and the card drops a level where the function is to be
    paused. -/
theorem demoteRules_broken :
    ¬ Demotes fewDecisions demoteRules ∧ ¬ Demotes mostlyRejected demoteRules := by
  constructor
  · rintro ⟨hfires, -⟩
    have hdue := (hfires ⟨"recommendation_hit_rate_lt", .dropOneLevel, some 40, none, some 20⟩
      (by decide +kernel) (by decide +kernel)).1 (by decide +kernel)
    have hfloor : 20 ≤ 5 := hdue.2.decisions 20 rfl
    omega
  · rintro ⟨-, hsevere⟩
    have hfired : evaluateDemotion mostlyRejected demoteRules =
        [⟨"recommendation_hit_rate_lt", .dropOneLevel⟩,
          ⟨"rejection_all_rate_gt", .pauseFunction⟩] := by decide +kernel
    obtain ⟨applied, -, hquestion, hmost⟩ := hsevere someTurn _ (by rw [hfired]; rfl)
    have hle := hmost ⟨"rejection_all_rate_gt", .pauseFunction⟩ (by rw [hfired]; simp)
    rw [← demotionQuestion_inj hquestion] at hle
    exact absurd hle (by decide)

end CanvasOS.Dispatch
