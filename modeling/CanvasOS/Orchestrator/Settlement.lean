/-
  The messages of the Azure queues (`AzureServiceBusGateway` in `servicebus/consumer.py`).

  1. `receive` — a batch is registered under the ids that are derived from it, and handed out.  A
     body that is no JSON text raises, and what is registered by then stays.
  2. `settle` — `complete` and `abandon` settle whatever is registered under the id, and forget it.
  3. `SettlesRight` — along a run every raw message is settled or can be, by the message that was
     built from it, over the queue it came from, and once.
  4. `settlesRight_iff` — a run does that exactly when no two messages share an id.
-/
import CanvasOS.Lib.Python
import Mathlib.Data.List.Nodup
import Mathlib.Logic.Function.Basic

namespace CanvasOS.Orchestrator

open Python

/-! ## The gateway -/

/-- What is read of a message of the SDK. -/
structure RawMessage where
  /-- as `str` prints it -/
  messageId : Option String
  sequenceNumber : Option Int
  /-- `str(raw)` -/
  text : String
  deliveryCount : Option Nat
deriving DecidableEq

/-- `str(raw.message_id) or str(raw.sequence_number)`; `str(None)` is a text like others. -/
def RawMessage.msgId (raw : RawMessage) : String :=
  let printed := raw.messageId.getD "None"
  if printed ≠ "" then printed else (raw.sequenceNumber.map toString).getD "None"

structure LockedMessage where
  id : String
  queue : String
  body : Json
  deliveryCount : Nat
deriving DecidableEq

/-- The message that is built from a raw one. -/
def RawMessage.locked (raw : RawMessage) (queue : String) (body : Json) : LockedMessage :=
  ⟨raw.msgId, queue, body, if raw.deliveryCount.getD 0 = 0 then 1 else raw.deliveryCount.getD 0⟩

inductive Disposition where
  | complete
  | abandon
deriving DecidableEq

/-- A call of a receiver's `complete_message` or `abandon_message`. -/
structure SettleCall where
  how : Disposition
  queue : String
  raw : Nat
deriving DecidableEq

/-- `AzureServiceBusGateway`.  A raw message is referred to by its place among all that were
    received. -/
structure BusGateway where
  /-- the raw messages, each with its queue, the oldest first -/
  received : List (String × RawMessage)
  /-- `_raw_by_id` -/
  rawById : String → Option Nat
  /-- the messages that were returned, each with the one it was built from -/
  handed : List (Nat × LockedMessage)
  /-- the newest first -/
  settled : List SettleCall

def BusGateway.start : BusGateway := ⟨[], fun _ => none, [], []⟩

/-- The loop of `receive`, from the raw message `ref` on: the registry it leaves, and the results
    unless a body raises. -/
def registerAll (loads : String → Option Json) (queue : String) (rawById : String → Option Nat)
    (ref : Nat) : List RawMessage → (String → Option Nat) × Option (List (Nat × LockedMessage))
  | [] => (rawById, some [])
  | raw :: raws =>
    match loads raw.text with
    | none => (rawById, none)
    | some body =>
      let rest := registerAll loads queue (Function.update rawById raw.msgId (some ref)) (ref + 1)
        raws
      (rest.1, rest.2.map fun results => (ref, raw.locked queue body) :: results)

namespace BusGateway

/-- `receive` -/
def receive (loads : String → Option Json) (g : BusGateway) (queue : String)
    (raws : List RawMessage) : BusGateway :=
  let registered := registerAll loads queue g.rawById g.received.length raws
  { g with
    received := g.received ++ raws.map (queue, ·)
    rawById := registered.1
    handed := g.handed ++ registered.2.getD [] }

/-- `complete` and `abandon` -/
def settle (how : Disposition) (g : BusGateway) (msg : LockedMessage) : BusGateway :=
  match g.rawById msg.id with
  | none => g
  | some ref =>
    { g with
      rawById := Function.update g.rawById msg.id none
      settled := ⟨how, msg.queue, ref⟩ :: g.settled }

/-- The message that was built from a raw one. -/
def messageOf (g : BusGateway) (ref : Nat) : Option LockedMessage :=
  (g.handed.find? fun p => p.1 = ref).map Prod.snd

def settledRefs (g : BusGateway) : List Nat := g.settled.map SettleCall.raw

end BusGateway

/-- A call of the gateway; a message is settled by whoever it was handed to. -/
inductive BusCall where
  | receive (queue : String) (raws : List RawMessage)
  | settle (how : Disposition) (ref : Nat)

def BusGateway.exec (loads : String → Option Json) (g : BusGateway) : BusCall → BusGateway
  | .receive queue raws => g.receive loads queue raws
  | .settle how ref =>
    match g.messageOf ref with
    | none => g
    | some msg => g.settle how msg

/-! ## What it is for -/

/-- Every raw message has been settled, or the message that was built from it settles it and no
    other; and none has been settled twice. -/
structure Right (g : BusGateway) : Prop where
  settleable : ∀ ref queue raw, g.received[ref]? = some (queue, raw) → ref ∈ g.settledRefs ∨
    ∃ msg, (ref, msg) ∈ g.handed ∧
      ∀ how, (g.settle how msg).settled = ⟨how, queue, ref⟩ :: g.settled
  once : g.settledRefs.Nodup

/-- A call settles the raw message of its message, or nothing when that is settled already. -/
def Exact (g : BusGateway) : BusCall → Prop
  | .receive _ _ => True
  | .settle how ref => ∀ msg, g.messageOf ref = some msg →
    (g.settle how msg).settled =
      if ref ∈ g.settledRefs then g.settled else ⟨how, msg.queue, ref⟩ :: g.settled

/-- Along a run of calls. -/
def SettlesRight (loads : String → Option Json) : BusGateway → List BusCall → Prop
  | g, [] => Right g
  | g, call :: calls => Right g ∧ Exact g call ∧ SettlesRight loads (g.exec loads call) calls

/-- A batch can be read, its ids are distinct and none of them is registered; a message that has
    been settled is settled again only while no other is registered under its id. -/
def Heeded (loads : String → Option Json) (g : BusGateway) : BusCall → Prop
  | .receive _ raws => (∀ raw ∈ raws, (loads raw.text).isSome) ∧
    (raws.map RawMessage.msgId).Nodup ∧ ∀ raw ∈ raws, g.rawById raw.msgId = none
  | .settle _ ref => ∀ msg, g.messageOf ref = some msg → ref ∈ g.settledRefs →
    g.rawById msg.id = none

def HeededAlong (loads : String → Option Json) : BusGateway → List BusCall → Prop
  | _, [] => True
  | g, call :: calls => Heeded loads g call ∧ HeededAlong loads (g.exec loads call) calls

/-! ## One batch -/

section Batch

variable {loads : String → Option Json} {queue : String} {raws : List RawMessage}

/-- Whatever was not in the batch is registered as before. -/
theorem registerAll_of_not_mem {rawById : String → Option Nat} {ref : Nat} {id : String}
    (h : id ∉ raws.map RawMessage.msgId) :
    (registerAll loads queue rawById ref raws).1 id = rawById id := by
  induction raws generalizing rawById ref with
  | nil => rfl
  | cons raw raws ih =>
    rw [List.map_cons, List.mem_cons, not_or] at h
    simp only [registerAll]
    split
    · rfl
    · exact (ih h.2).trans (Function.update_of_ne h.1 _ _)

/-- A batch that can be read is registered whole, when its ids are distinct. -/
theorem registerAll_getElem (hreads : ∀ raw ∈ raws, (loads raw.text).isSome)
    (hnodup : (raws.map RawMessage.msgId).Nodup) {rawById : String → Option Nat} {ref i : Nat}
    {raw : RawMessage} (hraw : raws[i]? = some raw) :
    (registerAll loads queue rawById ref raws).1 raw.msgId = some (ref + i) := by
  induction raws generalizing rawById ref i with
  | nil => cases hraw
  | cons first raws ih =>
    obtain ⟨hfirst, hrest⟩ := List.forall_mem_cons.1 hreads
    obtain ⟨body, hbody⟩ := Option.isSome_iff_exists.1 hfirst
    rw [List.map_cons, List.nodup_cons] at hnodup
    simp only [registerAll, hbody]
    cases i with
    | zero =>
      obtain rfl := Option.some.inj hraw
      rw [registerAll_of_not_mem hnodup.1]
      exact Function.update_self _ _ _
    | succ i =>
      rw [ih hrest hnodup.2 hraw]
      exact congrArg some (by omega)

/-- A batch that can be read is handed out whole. -/
theorem registerAll_results (queue : String) (hreads : ∀ raw ∈ raws, (loads raw.text).isSome)
    (rawById : String → Option Nat) (ref : Nat) :
    ∃ results, (registerAll loads queue rawById ref raws).2 = some results ∧
      ∀ i raw, raws[i]? = some raw → ∃ msg, (ref + i, msg) ∈ results := by
  induction raws generalizing rawById ref with
  | nil => exact ⟨[], rfl, fun i raw h => nomatch h⟩
  | cons first raws ih =>
    obtain ⟨hfirst, hrest⟩ := List.forall_mem_cons.1 hreads
    obtain ⟨body, hbody⟩ := Option.isSome_iff_exists.1 hfirst
    obtain ⟨results, hresults, hmem⟩ :=
      ih hrest (Function.update rawById first.msgId (some ref)) (ref + 1)
    refine ⟨(ref, first.locked queue body) :: results, ?_, fun i raw hraw => ?_⟩
    · simp only [registerAll, hbody, hresults, Option.map_some]
    · cases i with
      | zero => exact ⟨_, List.mem_cons_self⟩
      | succ i =>
        obtain ⟨msg, hmsg⟩ := hmem i raw hraw
        have hplace : ref + (i + 1) = ref + 1 + i := by omega
        rw [hplace]
        exact ⟨msg, List.mem_cons_of_mem _ hmsg⟩

/-- What is handed out was built from its own raw message. -/
theorem registerAll_built {rawById : String → Option Nat} {ref n : Nat} {msg : LockedMessage}
    (h : (n, msg) ∈ (registerAll loads queue rawById ref raws).2.getD []) :
    ∃ i raw, raws[i]? = some raw ∧ n = ref + i ∧ msg.id = raw.msgId ∧ msg.queue = queue := by
  induction raws generalizing rawById ref with
  | nil => cases h
  | cons first raws ih =>
    simp only [registerAll] at h
    split at h
    · cases h
    next body hbody =>
      cases hresults : (registerAll loads queue
          (Function.update rawById first.msgId (some ref)) (ref + 1) raws).2 with
      | none =>
        rw [hresults] at h
        cases h
      | some results =>
        rw [hresults] at h
        rcases List.mem_cons.1 h with h | h
        · obtain ⟨rfl, rfl⟩ := Prod.mk.inj h
          exact ⟨0, first, rfl, rfl, rfl, rfl⟩
        · rw [← Option.getD_some (a := results) (b := []), ← hresults] at h
          obtain ⟨i, raw, hraw, rfl, hid, hqueue⟩ := ih h
          exact ⟨i + 1, raw, hraw, by omega, hid, hqueue⟩

/-- A body that cannot be read, and nothing is handed out. -/
theorem registerAll_none {rawById : String → Option Nat} {ref : Nat} {raw : RawMessage}
    (hraw : raw ∈ raws) (h : loads raw.text = none) :
    (registerAll loads queue rawById ref raws).2 = none := by
  induction raws generalizing rawById ref with
  | nil => cases hraw
  | cons first raws ih =>
    simp only [registerAll]
    split
    · rfl
    · rcases List.mem_cons.1 hraw with rfl | hraw
      · rename_i hbody
        rw [h] at hbody
        cases hbody
      · rw [ih hraw]
        rfl

end Batch

/-! ## One call -/

/-- What a run keeps: what was handed out was built from a raw message, and those that are not
    settled are registered, under their own ids. -/
structure Ordered (g : BusGateway) : Prop where
  built : ∀ ref msg, (ref, msg) ∈ g.handed →
    ∃ raw, g.received[ref]? = some (msg.queue, raw) ∧ msg.id = raw.msgId
  handed : ∀ ref queue raw, g.received[ref]? = some (queue, raw) → ∃ msg, (ref, msg) ∈ g.handed
  registered : ∀ ref queue raw, g.received[ref]? = some (queue, raw) → ref ∉ g.settledRefs →
    g.rawById raw.msgId = some ref
  live : ∀ id ref, g.rawById id = some ref → ref ∉ g.settledRefs ∧
    ∃ queue raw, g.received[ref]? = some (queue, raw) ∧ raw.msgId = id
  settled : ∀ ref ∈ g.settledRefs, ref < g.received.length
  once : g.settledRefs.Nodup

theorem Ordered.start : Ordered BusGateway.start :=
  ⟨fun _ _ h => (nomatch h), fun _ _ _ h => (nomatch h), fun _ _ _ h => (nomatch h),
    fun _ _ h => (nomatch h), fun _ h => (nomatch h), List.nodup_nil⟩

section Call

variable {loads : String → Option Json} {g : BusGateway}

theorem mem_of_messageOf {ref : Nat} {msg : LockedMessage} (h : g.messageOf ref = some msg) :
    (ref, msg) ∈ g.handed := by
  obtain ⟨p, hp, rfl⟩ := Option.map_eq_some_iff.1 h
  have hfst := List.find?_some hp
  rw [← of_decide_eq_true hfst]
  exact List.mem_of_find?_eq_some hp

theorem settle_of_some {how : Disposition} {msg : LockedMessage} {ref : Nat}
    (h : g.rawById msg.id = some ref) : g.settle how msg =
      { g with
        rawById := Function.update g.rawById msg.id none
        settled := ⟨how, msg.queue, ref⟩ :: g.settled } := by
  rw [BusGateway.settle, h]

theorem settle_of_none {how : Disposition} {msg : LockedMessage} (h : g.rawById msg.id = none) :
    g.settle how msg = g := by
  rw [BusGateway.settle, h]

/-- A message settles `ref` and nothing else exactly when `ref` is registered under its id. -/
theorem settle_settled_iff {how : Disposition} {msg : LockedMessage} {queue : String} {ref : Nat} :
    (g.settle how msg).settled = ⟨how, queue, ref⟩ :: g.settled ↔
      g.rawById msg.id = some ref ∧ msg.queue = queue := by
  cases h : g.rawById msg.id with
  | none =>
    rw [settle_of_none h]
    exact ⟨fun heq => absurd heq.symm (List.cons_ne_self _ _), fun ⟨heq, _⟩ => nomatch heq⟩
  | some ref' =>
    rw [settle_of_some h]
    simp [and_comm]

theorem Ordered.right (hO : Ordered g) : Right g where
  settleable ref queue raw hraw := by
    by_cases hsettled : ref ∈ g.settledRefs
    · exact .inl hsettled
    obtain ⟨msg, hmsg⟩ := hO.handed ref queue raw hraw
    obtain ⟨raw', hraw', hid⟩ := hO.built ref msg hmsg
    obtain ⟨hqueue, rfl⟩ := Prod.mk.inj (Option.some.inj (hraw'.symm.trans hraw))
    refine .inr ⟨msg, hmsg, fun how => settle_settled_iff.2 ⟨?_, hqueue⟩⟩
    rw [hid]
    exact hO.registered ref queue raw' hraw hsettled
  once := hO.once

/-- What `Right` says of the registry, where what was handed out was built from the raw
    messages. -/
theorem Right.registered (hR : Right g) (hbuilt : ∀ ref msg, (ref, msg) ∈ g.handed →
      ∃ raw, g.received[ref]? = some (msg.queue, raw) ∧ msg.id = raw.msgId)
    {ref : Nat} {queue : String} {raw : RawMessage} (hraw : g.received[ref]? = some (queue, raw))
    (hopen : ref ∉ g.settledRefs) : g.rawById raw.msgId = some ref := by
  obtain hsettled | ⟨msg, hmsg, hsettles⟩ := hR.settleable ref queue raw hraw
  · exact absurd hsettled hopen
  · obtain ⟨raw', hraw', hid⟩ := hbuilt ref msg hmsg
    obtain ⟨-, rfl⟩ := Prod.mk.inj (Option.some.inj (hraw'.symm.trans hraw))
    rw [← hid]
    exact (settle_settled_iff.1 (hsettles .complete)).1

/-! ### `settle` -/

/-- A call is exact as far as it is heeded. -/
theorem Ordered.settledBy_iff (hO : Ordered g) {how : Disposition} {ref : Nat} :
    Exact g (.settle how ref) ↔ Heeded loads g (.settle how ref) := by
  constructor
  · intro h msg hmsg hsettled
    have hexact := h msg hmsg
    rw [if_pos hsettled] at hexact
    by_contra hne
    obtain ⟨ref', hid⟩ := Option.ne_none_iff_exists'.1 hne
    rw [settle_of_some hid] at hexact
    exact List.cons_ne_self _ _ hexact
  · intro h msg hmsg
    split
    · next hsettled => rw [settle_of_none (h msg hmsg hsettled)]
    · next hopen =>
      obtain ⟨raw, hraw, hid⟩ := hO.built ref msg (mem_of_messageOf hmsg)
      refine settle_settled_iff.2 ⟨?_, rfl⟩
      rw [hid]
      exact hO.registered ref _ raw hraw hopen

/-- An exact call keeps the order. -/
theorem Ordered.settle (hO : Ordered g) {how : Disposition} {ref : Nat}
    (h : Heeded loads g (.settle how ref)) : Ordered (g.exec loads (.settle how ref)) := by
  simp only [BusGateway.exec]
  split
  · exact hO
  next msg hmsg =>
    by_cases hsettled : ref ∈ g.settledRefs
    · rw [settle_of_none (h msg hmsg hsettled)]
      exact hO
    obtain ⟨raw, hraw, hid⟩ := hO.built ref msg (mem_of_messageOf hmsg)
    have hregistered : g.rawById msg.id = some ref := by
      rw [hid]
      exact hO.registered ref _ raw hraw hsettled
    rw [settle_of_some hregistered]
    refine ⟨hO.built, hO.handed, fun ref' queue raw' hraw' hopen => ?_, fun id ref' hlive => ?_,
      fun ref' href' => ?_, List.nodup_cons.2 ⟨hsettled, hO.once⟩⟩
    · obtain ⟨hne, hopen⟩ := not_or.1 (fun h => hopen (List.mem_cons.2 h))
      have hregistered' := hO.registered ref' queue raw' hraw' hopen
      refine (Function.update_of_ne (fun heq => hne ?_) _ _).trans hregistered'
      rw [heq, hregistered] at hregistered'
      exact (Option.some.inj hregistered').symm
    · have hlive : Function.update g.rawById msg.id none id = some ref' := hlive
      by_cases hid' : id = msg.id
      · subst hid'
        rw [Function.update_self] at hlive
        cases hlive
      · rw [Function.update_of_ne hid'] at hlive
        obtain ⟨hopen, queue, raw', hraw', hid''⟩ := hO.live id ref' hlive
        refine ⟨fun hmem => ?_, queue, raw', hraw', hid''⟩
        rcases List.mem_cons.1 hmem with rfl | hmem
        · obtain ⟨-, rfl⟩ := Prod.mk.inj (Option.some.inj (hraw'.symm.trans hraw))
          exact hid' (hid''.symm.trans hid.symm)
        · exact hopen hmem
    · rcases List.mem_cons.1 href' with rfl | href'
      · exact (List.getElem?_eq_some_iff.1 hraw).1
      · exact hO.settled ref' href'

/-! ### `receive` -/

variable {queue : String} {raws : List RawMessage}

/-- The raw messages after a batch: those from before, and those of the batch. -/
theorem receive_received {ref : Nat} {q : String} {raw : RawMessage} :
    (g.receive loads queue raws).received[ref]? = some (q, raw) ↔
      g.received[ref]? = some (q, raw) ∨
        ∃ i, ref = g.received.length + i ∧ raws[i]? = some raw ∧ q = queue := by
  show (g.received ++ raws.map (queue, ·))[ref]? = some (q, raw) ↔ _
  rcases Nat.lt_or_ge ref g.received.length with hlt | hge
  · rw [List.getElem?_append_left hlt]
    refine ⟨.inl, fun h => h.resolve_right ?_⟩
    rintro ⟨i, rfl, -⟩
    omega
  · rw [List.getElem?_append_right hge, List.getElem?_map, Option.map_eq_some_iff]
    constructor
    · rintro ⟨raw', hraw, heq⟩
      obtain ⟨rfl, rfl⟩ := Prod.mk.inj heq
      exact .inr ⟨_, by omega, hraw, rfl⟩
    · rintro (h | ⟨i, rfl, hraw, rfl⟩)
      · rw [List.getElem?_eq_none hge] at h
        cases h
      · rw [Nat.add_sub_cancel_left]
        exact ⟨raw, hraw, rfl⟩

theorem Ordered.receive_built (hO : Ordered g) {ref : Nat} {msg : LockedMessage}
    (h : (ref, msg) ∈ (g.receive loads queue raws).handed) :
    ∃ raw, (g.receive loads queue raws).received[ref]? = some (msg.queue, raw) ∧
      msg.id = raw.msgId := by
  rcases List.mem_append.1 h with h | h
  · obtain ⟨raw, hraw, hid⟩ := hO.built ref msg h
    exact ⟨raw, receive_received.2 (.inl hraw), hid⟩
  · obtain ⟨i, raw, hraw, rfl, hid, hqueue⟩ := registerAll_built h
    exact ⟨raw, receive_received.2 (.inr ⟨i, rfl, hraw, hqueue⟩), hid⟩

/-- A batch that is heeded keeps the order. -/
theorem Ordered.receive (hO : Ordered g) (h : Heeded loads g (.receive queue raws)) :
    Ordered (g.receive loads queue raws) := by
  obtain ⟨hreads, hnodup, hfree⟩ := h
  have hold : ∀ id, id ∉ raws.map RawMessage.msgId →
      (g.receive loads queue raws).rawById id = g.rawById id :=
    fun id h => registerAll_of_not_mem h
  have hnew : ∀ i raw, raws[i]? = some raw →
      (g.receive loads queue raws).rawById raw.msgId = some (g.received.length + i) :=
    fun i raw h => registerAll_getElem hreads hnodup h
  refine ⟨fun ref msg => hO.receive_built, fun ref q raw hraw => ?_,
    fun ref q raw hraw hopen => ?_, fun id ref hlive => ?_, fun ref href => ?_, hO.once⟩
  · rcases receive_received.1 hraw with hraw | ⟨i, rfl, hraw, -⟩
    · obtain ⟨msg, hmsg⟩ := hO.handed ref q raw hraw
      exact ⟨msg, List.mem_append_left _ hmsg⟩
    · obtain ⟨results, hresults, hmem⟩ :=
        registerAll_results queue hreads g.rawById g.received.length
      obtain ⟨msg, hmsg⟩ := hmem i raw hraw
      refine ⟨msg, List.mem_append_right _ ?_⟩
      rw [hresults]
      exact hmsg
  · rcases receive_received.1 hraw with hraw | ⟨i, rfl, hraw, -⟩
    · have hregistered := hO.registered ref q raw hraw hopen
      rw [hold raw.msgId fun hmem => ?_]
      · exact hregistered
      obtain ⟨raw', hraw', hid⟩ := List.mem_map.1 hmem
      rw [← hid, hfree raw' hraw'] at hregistered
      cases hregistered
    · exact hnew i raw hraw
  · by_cases hmem : id ∈ raws.map RawMessage.msgId
    · obtain ⟨raw, hraw, rfl⟩ := List.mem_map.1 hmem
      obtain ⟨i, hi⟩ := List.getElem?_of_mem hraw
      rw [hnew i raw hi] at hlive
      obtain rfl := Option.some.inj hlive
      refine ⟨fun hsettled => ?_, queue, raw, receive_received.2 (.inr ⟨i, rfl, hi, rfl⟩), rfl⟩
      have hlt := hO.settled _ hsettled
      omega
    · rw [hold id hmem] at hlive
      obtain ⟨hopen, q, raw, hraw, hid⟩ := hO.live id ref hlive
      exact ⟨hopen, q, raw, receive_received.2 (.inl hraw), hid⟩
  · show ref < (g.received ++ _).length
    rw [List.length_append]
    exact Nat.lt_add_right _ (hO.settled ref href)

/-- A batch after which everything can be settled was heeded. -/
theorem Ordered.heeded_of_right (hO : Ordered g) (hR : Right (g.receive loads queue raws)) :
    Heeded loads g (.receive queue raws) := by
  have hopen : ∀ i, g.received.length + i ∉ g.settledRefs := fun i hmem => by
    have hlt := hO.settled _ hmem
    omega
  have hnew : ∀ i raw, raws[i]? = some raw →
      (g.receive loads queue raws).rawById raw.msgId = some (g.received.length + i) :=
    fun i raw hraw => hR.registered (fun ref msg => hO.receive_built)
      (receive_received.2 (.inr ⟨i, rfl, hraw, rfl⟩)) (hopen i)
  refine ⟨fun raw hraw => ?_, ?_, fun raw hraw => ?_⟩
  · -- a body that cannot be read leaves its raw message without a message
    by_contra hnone
    obtain ⟨i, hi⟩ := List.getElem?_of_mem hraw
    obtain hsettled | ⟨msg, hmsg, -⟩ :=
      hR.settleable _ queue raw (receive_received.2 (.inr ⟨i, rfl, hi, rfl⟩))
    · exact hopen i hsettled
    · rcases List.mem_append.1 hmsg with hmsg | hmsg
      · obtain ⟨raw', hraw', -⟩ := hO.built _ msg hmsg
        have hlt := (List.getElem?_eq_some_iff.1 hraw').1
        omega
      · rw [registerAll_none hraw (Option.not_isSome_iff_eq_none.1 hnone)] at hmsg
        cases hmsg
  · -- two of the batch under one id would both be what is registered under it
    rw [List.nodup_iff_getElem?_ne_getElem?]
    intro i j hij hj heq
    rw [List.length_map] at hj
    have hi := hnew i raws[i] (List.getElem?_eq_getElem (Nat.lt_trans hij hj))
    have hjreg := hnew j raws[j] (List.getElem?_eq_getElem hj)
    rw [List.getElem?_map, List.getElem?_map, List.getElem?_eq_getElem (Nat.lt_trans hij hj),
      List.getElem?_eq_getElem hj] at heq
    have hid : raws[i].msgId = raws[j].msgId := Option.some.inj heq
    rw [hid, hjreg] at hi
    have hplace := Option.some.inj hi
    omega
  · by_contra hne
    obtain ⟨ref, href⟩ := Option.ne_none_iff_exists'.1 hne
    obtain ⟨hopen', q, raw', hraw', hid⟩ := hO.live _ ref href
    obtain ⟨i, hi⟩ := List.getElem?_of_mem hraw
    have hregistered := hR.registered (fun ref msg => hO.receive_built)
      (receive_received.2 (.inl hraw')) hopen'
    rw [hid, hnew i raw hi] at hregistered
    have hlt := (List.getElem?_eq_some_iff.1 hraw').1
    have hplace := Option.some.inj hregistered
    omega

end Call

/-! ## A run -/

/-- What a call leaves is right and the call exact, exactly when the call is heeded. -/
theorem Ordered.call_iff {loads : String → Option Json} {g : BusGateway} (hO : Ordered g)
    {call : BusCall} : Exact g call ∧ Right (g.exec loads call) ↔ Heeded loads g call := by
  cases call with
  | receive queue raws =>
    exact ⟨fun h => hO.heeded_of_right h.2, fun h => ⟨True.intro, (hO.receive h).right⟩⟩
  | settle how ref =>
    exact ⟨fun h => hO.settledBy_iff.1 h.1, fun h => ⟨hO.settledBy_iff.2 h, (hO.settle h).right⟩⟩

theorem Ordered.exec {loads : String → Option Json} {g : BusGateway} (hO : Ordered g)
    {call : BusCall} (h : Heeded loads g call) : Ordered (g.exec loads call) := by
  cases call with
  | receive queue raws => exact hO.receive h
  | settle how ref => exact hO.settle h

theorem SettlesRight.right {loads : String → Option Json} {g : BusGateway} {calls : List BusCall}
    (h : SettlesRight loads g calls) : Right g := by
  cases calls with
  | nil => exact h
  | cons call calls => exact h.1

theorem Ordered.right_iff {loads : String → Option Json} {g : BusGateway} (hO : Ordered g)
    (calls : List BusCall) : SettlesRight loads g calls ↔ HeededAlong loads g calls := by
  induction calls generalizing g with
  | nil => exact ⟨fun _ => True.intro, fun _ => hO.right⟩
  | cons call calls ih =>
    constructor
    · rintro ⟨-, hexact, hrest⟩
      have hheeded := hO.call_iff.1 ⟨hexact, hrest.right⟩
      exact ⟨hheeded, (ih (hO.exec hheeded)).1 hrest⟩
    · rintro ⟨hheeded, hrest⟩
      exact ⟨hO.right, (hO.call_iff.2 hheeded).1, (ih (hO.exec hheeded)).2 hrest⟩

/-- Whatever is received and in whatever order it is settled, the right messages are, exactly when
    every batch can be read and brings ids that are distinct and not registered, and no message is
    settled again once another has its id. -/
theorem settlesRight_iff (loads : String → Option Json) (calls : List BusCall) :
    SettlesRight loads .start calls ↔ HeededAlong loads .start calls :=
  Ordered.start.right_iff calls

/-- Two messages without an id, of which the first is then settled. -/
def twoWithoutId : List BusCall :=
  [.receive "task" [⟨none, some 1, "\x7b\x7d", some 1⟩, ⟨none, some 2, "\x7b\x7d", some 1⟩],
    .settle .complete 0]

/-- Messages that are sent without an id are not told apart. -/
theorem withoutId_not_settlesRight :
    ¬ SettlesRight (fun _ => some (.obj [])) .start twoWithoutId := by
  rintro ⟨-, -, -, hexact, -⟩
  have hsettled := hexact ⟨"None", "task", .obj [], 1⟩ rfl
  revert hsettled
  decide

end CanvasOS.Orchestrator
