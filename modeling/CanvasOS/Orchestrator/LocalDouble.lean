/-
  The in-memory Service Bus that stands in for the real one in the worker's tests
  (`servicebus/local_double.py`), and what it keeps of the messages that are sent.

  A message is in the deque of its queue, or in flight, which two dicts record: the record by its
  id, and the queue it goes back to.  Every call moves messages one at a time, and there are four
  moves: `send`, `deliver`, `requeue` and `complete`.

  1. The model: `InMemoryServiceBus`, its operations, and `World`, the bus beside what its callers
     did.
  2. `Placed` — where a record is, and what its delivery count says — and one lemma for each move.
  3. `run_placed` — every sequence of calls, and that none of them raises.
  4. `conserves_run` — the messages are conserved, where a completion counts if the message is in
     flight at that moment.  A lock that expired gives the message back to its queue, and the
     `complete` of its old holder leaves it there (`asked_not_gone`).
-/
import CanvasOS.Lib.Dict
import Mathlib.Algebra.Ring.Int.Defs
import Mathlib.Data.List.Range
import Mathlib.Logic.Basic
import Mathlib.Tactic.Cases

namespace CanvasOS.Orchestrator.LocalDouble

/-! ## The bus -/

/-- `_Record` -/
structure Record (T B : Type) where
  id : String
  body : B
  deliveryCount : Nat
  lockedUntil : Option T

/-- `LockedMessage` -/
structure LockedMessage (B : Type) where
  id : String
  queue : String
  body : B
  deliveryCount : Nat

/-- `InMemoryServiceBus`.  `_queue` sets a deque that is not there to an empty one, so that every
    name has its deque. -/
structure InMemoryServiceBus (T B : Type) where
  pending : String → List (Record T B)
  inFlight : Dict String (Record T B)
  inFlightQueue : Dict String String
  now : T
  defaultLockDurationS : T

section Operations

variable {T B : Type} [Zero T] [Add T] [LE T] [DecidableLE T] [DecidableEq T]

/-- `__init__` -/
def init (defaultLockDurationS : T) : InMemoryServiceBus T B :=
  ⟨fun _ => [], Dict.empty, Dict.empty, 0, defaultLockDurationS⟩

/-- The deque of one queue is replaced. -/
def setQueue (bus : InMemoryServiceBus T B) (queue : String) (records : List (Record T B)) :
    InMemoryServiceBus T B :=
  { bus with pending := fun name => if name = queue then records else bus.pending name }

/-- `send`, with the UUID it draws. -/
def send (bus : InMemoryServiceBus T B) (queue : String) (body : B) (uuid : String) :
    InMemoryServiceBus T B :=
  setQueue bus queue (bus.pending queue ++ [⟨uuid, body, 0, none⟩])

/-- The body of the loop of `receive`, for the record that `popleft` returned. -/
def deliver (bus : InMemoryServiceBus T B) (queue : String) (lockDurationS : Option T)
    (record : Record T B) (rest : List (Record T B)) :
    LockedMessage B × InMemoryServiceBus T B :=
  -- `lock_duration_s or self.default_lock_duration_s`: 0 is the default as well
  let duration := match lockDurationS with
    | none => bus.defaultLockDurationS
    | some duration => if duration = 0 then bus.defaultLockDurationS else duration
  let record' := { record with
    deliveryCount := record.deliveryCount + 1, lockedUntil := some (bus.now + duration) }
  (⟨record'.id, queue, record'.body, record'.deliveryCount⟩,
    { setQueue bus queue rest with
      inFlight := bus.inFlight.set record'.id record'
      inFlightQueue := bus.inFlightQueue.set record'.id queue })

/-- The loop of `receive`: `break` on an empty deque. -/
def receiveLoop (queue : String) (lockDurationS : Option T) :
    Nat → InMemoryServiceBus T B → List (LockedMessage B) × InMemoryServiceBus T B
  | 0, bus => ([], bus)
  | n + 1, bus =>
    match bus.pending queue with
    | [] => ([], bus)
    | record :: rest =>
      let (message, bus) := deliver bus queue lockDurationS record rest
      let (messages, bus) := receiveLoop queue lockDurationS n bus
      (message :: messages, bus)

/-- `receive`: `range` of a negative number is empty. -/
def receive (bus : InMemoryServiceBus T B) (queue : String) (maxCount : Int)
    (lockDurationS : Option T) : List (LockedMessage B) × InMemoryServiceBus T B :=
  receiveLoop queue lockDurationS maxCount.toNat bus

/-- `complete` -/
def complete (bus : InMemoryServiceBus T B) (msg : LockedMessage B) : InMemoryServiceBus T B :=
  { bus with inFlight := bus.inFlight.pop msg.id, inFlightQueue := bus.inFlightQueue.pop msg.id }

/-- The record leaves the dicts, and goes back to the left end of the deque without a lock. -/
def requeue (bus : InMemoryServiceBus T B) (mid : String) (record : Record T B) (queue : String) :
    InMemoryServiceBus T B :=
  setQueue
    { bus with inFlight := bus.inFlight.pop mid, inFlightQueue := bus.inFlightQueue.pop mid } queue
    ({ record with lockedUntil := none } :: bus.pending queue)

/-- `abandon` -/
def abandon (bus : InMemoryServiceBus T B) (msg : LockedMessage B) : InMemoryServiceBus T B :=
  match bus.inFlight.get? msg.id, bus.inFlightQueue.get? msg.id with
  | some record, some queue => requeue bus msg.id record queue
  | _, _ => complete bus msg

/-- `advance_clock` -/
def advanceClock (bus : InMemoryServiceBus T B) (seconds : T) : InMemoryServiceBus T B :=
  { bus with now := bus.now + seconds }

/-- `expired_ids` -/
def expiredIds (bus : InMemoryServiceBus T B) : List String :=
  (bus.inFlight.items.filter fun item => item.2.lockedUntil.any fun t => t ≤ bus.now).map Prod.fst

/-- The loop of `expire_locks`; `none` is the `KeyError` of a `pop` without a default. -/
def expireLoop : List String → InMemoryServiceBus T B → Option (InMemoryServiceBus T B)
  | [], bus => some bus
  | mid :: mids, bus =>
    match bus.inFlight.get? mid, bus.inFlightQueue.get? mid with
    | some record, some queue => expireLoop mids (requeue bus mid record queue)
    | _, _ => none

/-- `expire_locks` -/
def expireLocks (bus : InMemoryServiceBus T B) : Option (InMemoryServiceBus T B) :=
  expireLoop (expiredIds bus) bus

/-! ## Its callers -/

/-- A call on the bus. -/
inductive Call (T B : Type) where
  | send (queue : String) (body : B) (uuid : String)
  | receive (queue : String) (maxCount : Int) (lockDurationS : Option T)
  | complete (msg : LockedMessage B)
  | abandon (msg : LockedMessage B)
  | simulateCrash (msg : LockedMessage B)
  | advanceClock (seconds : T)
  | expireLocks

/-- The UUID that a call draws. -/
def Call.uuid? : Call T B → Option String
  | .send _ _ uuid => some uuid
  | _ => none

/-- A message as it was sent. -/
structure Sent (B : Type) where
  id : String
  queue : String
  body : B

/-- The bus, and what was done with it so far. -/
structure World (T B : Type) where
  bus : InMemoryServiceBus T B
  /-- The messages that were sent. -/
  sent : List (Sent B)
  /-- What `receive` returned, oldest first. -/
  received : List (LockedMessage B)
  /-- The ids that `complete` was called for. -/
  asked : List String
  /-- Of these, the ones that were in flight at that moment. -/
  completed : List String

/-- A bus that was just made. -/
def World.init (defaultLockDurationS : T) : World T B :=
  ⟨LocalDouble.init defaultLockDurationS, [], [], [], []⟩

/-- A call is made; `none` where it raises. -/
def World.step (w : World T B) : Call T B → Option (World T B)
  | .send queue body uuid =>
    some { w with bus := send w.bus queue body uuid, sent := w.sent ++ [⟨uuid, queue, body⟩] }
  | .receive queue maxCount lockDurationS =>
    let (messages, bus) := receive w.bus queue maxCount lockDurationS
    some { w with bus := bus, received := w.received ++ messages }
  | .complete msg =>
    some { w with
      bus := complete w.bus msg
      asked := w.asked ++ [msg.id]
      completed :=
        if (w.bus.inFlight.get? msg.id).isSome then w.completed ++ [msg.id] else w.completed }
  | .abandon msg => some { w with bus := abandon w.bus msg }
  | .simulateCrash _ => some w
  | .advanceClock seconds => some { w with bus := advanceClock w.bus seconds }
  | .expireLocks => (expireLocks w.bus).map fun bus => { w with bus := bus }

/-- Calls are made one after the other. -/
def World.run (w : World T B) : List (Call T B) → Option (World T B)
  | [] => some w
  | call :: calls => (w.step call).bind fun w => w.run calls

end Operations

/-! ## What is to be kept -/

section Specification

variable {T B : Type}

/-- The message waits in the deque of `queue`, once. -/
def Pending (bus : InMemoryServiceBus T B) (queue id : String) : Prop :=
  ((bus.pending queue).map Record.id).count id = 1

/-- The message is in flight, and goes back to `queue`. -/
def InFlight (bus : InMemoryServiceBus T B) (queue id : String) : Prop :=
  (bus.inFlight.get? id).isSome ∧ bus.inFlightQueue.get? id = some queue

/-- No deque has the message, and neither dict. -/
def Gone (bus : InMemoryServiceBus T B) (id : String) : Prop :=
  (∀ queue, ∀ record ∈ bus.pending queue, record.id ≠ id) ∧
    bus.inFlight.get? id = none ∧ bus.inFlightQueue.get? id = none

/-- The record is in a deque or in flight. -/
def Held (bus : InMemoryServiceBus T B) (record : Record T B) : Prop :=
  (∃ queue, record ∈ bus.pending queue) ∨ ∃ id, bus.inFlight.get? id = some record

/-- How often the message was received. -/
def World.receipts (w : World T B) (id : String) : Nat :=
  (w.received.map LockedMessage.id).count id

/-- Every message is conserved, where the ids of `done` are the ones that were completed. -/
structure Conserves (w : World T B) (done : List String) : Prop where
  /-- What is sent and not completed is pending or in flight, not both, and in its own queue. -/
  kept : ∀ s ∈ w.sent, s.id ∉ done →
    Xor (Pending w.bus s.queue s.id) (InFlight w.bus s.queue s.id) ∧
      ∀ queue, queue ≠ s.queue →
        (∀ record ∈ w.bus.pending queue, record.id ≠ s.id) ∧ ¬InFlight w.bus queue s.id
  /-- What is completed is in neither. -/
  gone : ∀ s ∈ w.sent, s.id ∈ done → Gone w.bus s.id
  /-- Nothing else is there. -/
  only : ∀ record, Held w.bus record → ∃ s ∈ w.sent, s.id = record.id ∧ s.body = record.body
  /-- A record has counted its deliveries. -/
  counted : ∀ record, Held w.bus record → record.deliveryCount = w.receipts record.id
  /-- The receivers of a message are told 1, 2, … -/
  told : ∀ s ∈ w.sent,
    (w.received.filter fun m => m.id = s.id).map LockedMessage.deliveryCount =
      List.range' 1 (w.receipts s.id)

end Specification

/-! ## Where the records are -/

section Invariant

variable {T B : Type} {w : World T B} {record r : Record T B} {rest : List (Record T B)}
  {queue q id : String}

/-- The record is of a message that was sent to the queue, and its count is right. -/
structure Known (w : World T B) (queue : String) (record : Record T B) : Prop where
  sent : ∃ s ∈ w.sent, s.id = record.id ∧ s.queue = queue ∧ s.body = record.body
  fresh : record.id ∉ w.completed
  count : record.deliveryCount = w.receipts record.id

theorem Known.withBus (h : Known w queue record) (bus : InMemoryServiceBus T B) :
    Known { w with bus := bus } queue record := ⟨h.sent, h.fresh, h.count⟩

/-- What holds of a bus and of what was done with it. -/
structure Placed (w : World T B) : Prop where
  unique : (w.sent.map Sent.id).Nodup
  once : ∀ queue, ((w.bus.pending queue).map Record.id).Nodup
  waits : ∀ queue, ∀ record ∈ w.bus.pending queue,
    Known w queue record ∧ w.bus.inFlight.get? record.id = none
  flies : ∀ id record, w.bus.inFlight.get? id = some record →
    record.id = id ∧ ∃ queue, w.bus.inFlightQueue.get? id = some queue ∧ Known w queue record
  landed : ∀ id, w.bus.inFlight.get? id = none → w.bus.inFlightQueue.get? id = none
  kept : ∀ s ∈ w.sent, s.id ∉ w.completed →
    (∃ record ∈ w.bus.pending s.queue, record.id = s.id) ∨ (w.bus.inFlight.get? s.id).isSome
  ofSent : ∀ id, id ∈ w.completed ∨ id ∈ w.received.map LockedMessage.id →
    id ∈ w.sent.map Sent.id
  told : ∀ id, (w.received.filter fun m => m.id = id).map LockedMessage.deliveryCount =
    List.range' 1 (w.receipts id)

/-- Two records of one message are of one queue. -/
theorem Known.queue_eq (hu : (w.sent.map Sent.id).Nodup) (h : Known w queue record)
    (h' : Known w q r) (hid : record.id = r.id) : queue = q := by
  obtain ⟨s, hs, hsid, rfl, -⟩ := h.sent
  obtain ⟨s', hs', hsid', rfl, -⟩ := h'.sent
  have heq : s = s' := List.inj_on_of_nodup_map hu hs hs' (hsid.trans (hid.trans hsid'.symm))
  exact congrArg Sent.queue heq

/-- What is the id of a message that was sent is not that of one that is yet to be. -/
theorem Known.mem_sent (h : Known w queue record) : record.id ∈ w.sent.map Sent.id := by
  obtain ⟨s, hs, hid, -⟩ := h.sent
  exact hid ▸ List.mem_map_of_mem hs

/-- The message at the left end of a deque is nowhere else. -/
theorem Placed.head_apart (h : Placed w) (hq : w.bus.pending queue = record :: rest)
    (hr : r ∈ if q = queue then rest else w.bus.pending q) :
    r ∈ w.bus.pending q ∧ r.id ≠ record.id := by
  have hhead : record ∈ w.bus.pending queue := hq ▸ List.mem_cons_self
  by_cases heq : q = queue
  · subst heq
    rw [if_pos rfl] at hr
    have hn := h.once q
    rw [hq, List.map_cons, List.nodup_cons] at hn
    exact ⟨hq ▸ List.mem_cons_of_mem record hr,
      fun hid => hn.1 (hid ▸ List.mem_map_of_mem hr)⟩
  · rw [if_neg heq] at hr
    refine ⟨hr, fun hid => heq ?_⟩
    exact (h.waits q r hr).1.queue_eq h.unique (h.waits queue record hhead).1 hid

/-! ## One move -/

theorem receipts_snoc {bus : InMemoryServiceBus T B} {m : LockedMessage B} :
    World.receipts { w with bus := bus, received := w.received ++ [m] } id =
      w.receipts id + if m.id = id then 1 else 0 := by
  show ((w.received ++ [m]).map LockedMessage.id).count id = _
  rw [List.map_append, List.count_append, List.map_singleton, List.count_singleton]
  simp only [World.receipts, beq_iff_eq]

/-- A message that was not received has no receipts. -/
theorem receipts_eq_zero (h : Placed w) (hid : id ∉ w.sent.map Sent.id) : w.receipts id = 0 :=
  List.count_eq_zero.2 fun hin => hid (h.ofSent id (Or.inr hin))

theorem placed_send [Zero T] [Add T] [LE T] [DecidableLE T] [DecidableEq T] {body : B}
    {uuid : String} (h : Placed w) (hnew : uuid ∉ w.sent.map Sent.id) :
    Placed { w with
      bus := send w.bus queue body uuid, sent := w.sent ++ [⟨uuid, queue, body⟩] } := by
  have hold : ∀ {q r}, Known w q r →
      Known { w with
        bus := send w.bus queue body uuid, sent := w.sent ++ [⟨uuid, queue, body⟩] } q r := by
    rintro q r ⟨⟨s, hs, hand⟩, hfresh, hcount⟩
    exact ⟨⟨s, List.mem_append_left _ hs, hand⟩, hfresh, hcount⟩
  have hdown : w.bus.inFlight.get? uuid = none := by
    refine Option.eq_none_iff_forall_ne_some.2 fun r hr => hnew ?_
    obtain ⟨hid, q, -, hknown⟩ := h.flies uuid r hr
    exact hid ▸ hknown.mem_sent
  -- what is in a deque now: what was there, and the new record in one of them
  have hmem : ∀ q r, r ∈ (send w.bus queue body uuid).pending q →
      r ∈ w.bus.pending q ∨ q = queue ∧ r = ⟨uuid, body, 0, none⟩ := by
    intro q r hr
    change r ∈ if q = queue then _ else _ at hr
    by_cases hq : q = queue
    · rw [if_pos hq, List.mem_append, List.mem_singleton] at hr
      exact hr.imp (fun hr => hq ▸ hr) fun hr => ⟨hq, hr⟩
    · rw [if_neg hq] at hr
      exact Or.inl hr
  constructor
  case unique =>
    show ((w.sent ++ [_]).map Sent.id).Nodup
    rw [List.map_append]
    exact h.unique.append (List.nodup_singleton uuid) (List.disjoint_singleton.2 hnew)
  case once =>
    intro q
    show ((if q = queue then w.bus.pending queue ++ [_] else w.bus.pending q).map Record.id).Nodup
    split
    next =>
      have hout : uuid ∉ (w.bus.pending queue).map Record.id := by
        intro hin
        obtain ⟨r, hr, rfl⟩ := List.mem_map.1 hin
        exact hnew (h.waits queue r hr).1.mem_sent
      rw [List.map_append]
      exact (h.once queue).append (List.nodup_singleton uuid) (List.disjoint_singleton.2 hout)
    next => exact h.once q
  case waits =>
    intro q r hr
    rcases hmem q r hr with hr | ⟨rfl, rfl⟩
    · exact ⟨hold (h.waits q r hr).1, (h.waits q r hr).2⟩
    · refine ⟨⟨⟨_, List.mem_append_right _ (List.mem_singleton_self _), rfl, rfl, rfl⟩, ?_, ?_⟩,
        hdown⟩
      · exact fun hin => hnew (h.ofSent uuid (Or.inl hin))
      · exact (receipts_eq_zero h hnew).symm
  case flies =>
    intro id r hr
    obtain ⟨hid, q, hq, hknown⟩ := h.flies id r hr
    exact ⟨hid, q, hq, hold hknown⟩
  case landed => exact h.landed
  case kept =>
    intro s hs hfresh
    rcases List.mem_append.1 hs with hs | hs
    · refine (h.kept s hs hfresh).imp_left fun ⟨r, hr, hid⟩ => ⟨r, ?_, hid⟩
      show r ∈ if s.queue = queue then _ else _
      split
      next heq => exact List.mem_append_left _ (heq ▸ hr)
      next => exact hr
    · obtain rfl := List.mem_singleton.1 hs
      refine Or.inl ⟨⟨uuid, body, 0, none⟩, ?_, rfl⟩
      show _ ∈ if queue = queue then _ else _
      rw [if_pos rfl]
      exact List.mem_append_right _ (List.mem_singleton_self _)
  case ofSent =>
    intro id hid
    show id ∈ (w.sent ++ [_]).map Sent.id
    rw [List.map_append]
    exact List.mem_append_left _ (h.ofSent id hid)
  case told => exact h.told

/-- The world after one turn of the loop of `receive`. -/
def delivered [Zero T] [Add T] [DecidableEq T] (w : World T B) (queue : String)
    (lockDurationS : Option T) (record : Record T B) (rest : List (Record T B)) : World T B :=
  { w with
    bus := (deliver w.bus queue lockDurationS record rest).2
    received := w.received ++ [(deliver w.bus queue lockDurationS record rest).1] }

theorem placed_delivered [Zero T] [Add T] [DecidableEq T] {lockDurationS : Option T}
    (h : Placed w) (hq : w.bus.pending queue = record :: rest) :
    Placed (delivered w queue lockDurationS record rest) := by
  have hhead : record ∈ w.bus.pending queue := hq ▸ List.mem_cons_self
  obtain ⟨hknown, hdown⟩ := h.waits queue record hhead
  have hcount : ∀ id, (delivered w queue lockDurationS record rest).receipts id =
      w.receipts id + if record.id = id then 1 else 0 := fun id => receipts_snoc
  have hother : ∀ {q r}, r.id ≠ record.id → Known w q r →
      Known (delivered w queue lockDurationS record rest) q r := by
    rintro q r hne ⟨hsent, hfresh, hc⟩
    exact ⟨hsent, hfresh, by rw [hcount, if_neg hne.symm, hc, Nat.add_zero]⟩
  have hflight : ∀ id, (delivered w queue lockDurationS record rest).bus.inFlight.get? id =
      if id = record.id then _ else w.bus.inFlight.get? id := fun id => Dict.get?_set
  have hgoes : ∀ id, (delivered w queue lockDurationS record rest).bus.inFlightQueue.get? id =
      if id = record.id then some queue else w.bus.inFlightQueue.get? id :=
    fun id => Dict.get?_set
  constructor
  case unique => exact h.unique
  case once =>
    intro q
    show ((if q = queue then rest else w.bus.pending q).map Record.id).Nodup
    split
    next =>
      have hn := h.once queue
      rw [hq, List.map_cons] at hn
      exact hn.of_cons
    next => exact h.once q
  case waits =>
    intro q r hr
    obtain ⟨hr, hne⟩ := h.head_apart hq hr
    refine ⟨hother hne (h.waits q r hr).1, ?_⟩
    rw [hflight, if_neg hne]
    exact (h.waits q r hr).2
  case flies =>
    intro id r hr
    rw [hflight] at hr
    rw [hgoes]
    by_cases hid : id = record.id
    · rw [if_pos hid] at hr
      obtain rfl := Option.some_inj.1 hr
      refine ⟨hid.symm, queue, if_pos hid, hknown.sent, hknown.fresh, ?_⟩
      show record.deliveryCount + 1 = _
      rw [hcount, if_pos rfl, hknown.count]
    · rw [if_neg hid] at hr ⊢
      obtain ⟨rfl, q, hto, hk⟩ := h.flies id r hr
      exact ⟨rfl, q, hto, hother hid hk⟩
  case landed =>
    intro id hid
    rw [hflight] at hid
    rw [hgoes]
    by_cases heq : id = record.id
    · rw [if_pos heq] at hid
      cases hid
    · rw [if_neg heq] at hid ⊢
      exact h.landed id hid
  case kept =>
    intro s hs hfresh
    rw [hflight]
    by_cases hid : s.id = record.id
    · rw [if_pos hid]
      exact Or.inr rfl
    · rw [if_neg hid]
      refine (h.kept s hs hfresh).imp_left fun ⟨r, hr, hrid⟩ => ⟨r, ?_, hrid⟩
      show r ∈ if s.queue = queue then rest else w.bus.pending s.queue
      split
      next heq =>
        rw [heq, hq, List.mem_cons] at hr
        exact hr.resolve_left fun h' => hid (hrid ▸ h' ▸ rfl)
      next => exact hr
  case ofSent =>
    intro id hid
    refine hid.elim (fun hid => h.ofSent id (Or.inl hid)) fun hid => ?_
    change id ∈ (w.received ++ [_]).map LockedMessage.id at hid
    rw [List.map_append, List.mem_append] at hid
    rcases hid with hid | hid
    · exact h.ofSent id (Or.inr hid)
    · exact List.mem_singleton.1 hid ▸ hknown.mem_sent
  case told =>
    intro id
    show ((w.received ++ [_]).filter _).map _ = _
    rw [List.filter_append, List.map_append, h.told, hcount]
    by_cases hid : record.id = id
    · have hlast : ((deliver w.bus queue lockDurationS record rest).1.id = id) := hid
      rw [if_pos hid, List.range'_concat, List.filter_singleton, decide_eq_true hlast, cond_true]
      show _ ++ [record.deliveryCount + 1] = _
      rw [hknown.count, hid, Nat.one_mul, Nat.add_comm 1]
    · have hlast : ¬(deliver w.bus queue lockDurationS record rest).1.id = id := hid
      rw [if_neg hid, List.filter_singleton, decide_eq_false hlast, cond_false]
      exact List.append_nil _

theorem placed_requeue {mid : String} (h : Placed w) (hr : w.bus.inFlight.get? mid = some record)
    (hq : w.bus.inFlightQueue.get? mid = some queue) :
    Placed { w with bus := requeue w.bus mid record queue } := by
  obtain ⟨rfl, q', hq', hknown⟩ := h.flies mid record hr
  obtain rfl : queue = q' := Option.some_inj.1 (hq.symm.trans hq')
  have hdown : ∀ id, (requeue w.bus record.id record queue).inFlight.get? id =
      if id = record.id then none else w.bus.inFlight.get? id := fun id => Dict.get?_pop
  have hgoes : ∀ id, (requeue w.bus record.id record queue).inFlightQueue.get? id =
      if id = record.id then none else w.bus.inFlightQueue.get? id := fun id => Dict.get?_pop
  have hapart : ∀ q, ∀ r ∈ w.bus.pending q, r.id ≠ record.id := by
    intro q r hrq hid
    have hnone := (h.waits q r hrq).2
    rw [hid, hr] at hnone
    cases hnone
  constructor
  case unique => exact h.unique
  case once =>
    intro q
    show ((if q = queue then { record with lockedUntil := none } :: w.bus.pending queue
      else w.bus.pending q).map Record.id).Nodup
    split
    next =>
      rw [List.map_cons, List.nodup_cons]
      refine ⟨fun hin => ?_, h.once queue⟩
      obtain ⟨r, hrq, hid⟩ := List.mem_map.1 hin
      exact hapart queue r hrq hid
    next => exact h.once q
  case waits =>
    intro q r hrq
    change r ∈ if q = queue then { record with lockedUntil := none } :: w.bus.pending queue
      else w.bus.pending q at hrq
    have hcases : r ∈ w.bus.pending q ∨ q = queue ∧ r = { record with lockedUntil := none } := by
      by_cases heq : q = queue
      · rw [if_pos heq, List.mem_cons] at hrq
        exact hrq.symm.imp (fun hrq => heq ▸ hrq) fun h' => ⟨heq, h'⟩
      · rw [if_neg heq] at hrq
        exact Or.inl hrq
    rcases hcases with hrq | ⟨rfl, rfl⟩
    · refine ⟨(h.waits q r hrq).1.withBus _, ?_⟩
      rw [hdown, if_neg (hapart q r hrq)]
      exact (h.waits q r hrq).2
    · refine ⟨⟨hknown.sent, hknown.fresh, hknown.count⟩, ?_⟩
      rw [hdown, if_pos rfl]
  case flies =>
    intro id r hf
    rw [hdown] at hf
    rw [hgoes]
    by_cases hid : id = record.id
    · rw [if_pos hid] at hf
      cases hf
    · rw [if_neg hid] at hf ⊢
      obtain ⟨heq, q, hto, hk⟩ := h.flies id r hf
      exact ⟨heq, q, hto, hk.withBus _⟩
  case landed =>
    intro id hf
    rw [hdown] at hf
    rw [hgoes]
    by_cases hid : id = record.id
    · rw [if_pos hid]
    · rw [if_neg hid] at hf ⊢
      exact h.landed id hf
  case kept =>
    intro s hs hfresh
    rw [hdown]
    show (∃ r : Record T B, (r ∈ if s.queue = queue then _ else _) ∧ r.id = s.id) ∨ _
    by_cases hid : s.id = record.id
    · -- what is requeued is back in its own queue
      obtain ⟨s', hs', hid', rfl, -⟩ := hknown.sent
      obtain rfl : s = s' := List.inj_on_of_nodup_map h.unique hs hs' (hid.trans hid'.symm)
      rw [if_pos rfl]
      exact Or.inl ⟨_, List.mem_cons_self, hid.symm⟩
    · rw [if_neg hid]
      refine (h.kept s hs hfresh).imp_left fun ⟨r, hrs, hrid⟩ => ⟨r, ?_, hrid⟩
      split
      next heq => exact List.mem_cons_of_mem _ (heq ▸ hrs)
      next => exact hrs
  case ofSent => exact h.ofSent
  case told => exact h.told

/-- The world after `complete`. -/
def settled (w : World T B) (msg : LockedMessage B) : World T B :=
  { w with
    bus := complete w.bus msg
    asked := w.asked ++ [msg.id]
    completed :=
      if (w.bus.inFlight.get? msg.id).isSome then w.completed ++ [msg.id] else w.completed }

theorem mem_settled {msg : LockedMessage B} : id ∈ (settled w msg).completed ↔
    id ∈ w.completed ∨ id = msg.id ∧ (w.bus.inFlight.get? msg.id).isSome := by
  show id ∈ (if _ then _ else _) ↔ _
  split
  next hup => rw [List.mem_append, List.mem_singleton, and_iff_left hup]
  next hup => rw [or_iff_left fun hand => hup hand.2]

theorem placed_settled {msg : LockedMessage B} (h : Placed w) : Placed (settled w msg) := by
  have hdown : ∀ id, (settled w msg).bus.inFlight.get? id =
      if id = msg.id then none else w.bus.inFlight.get? id := fun id => Dict.get?_pop
  have hgoes : ∀ id, (settled w msg).bus.inFlightQueue.get? id =
      if id = msg.id then none else w.bus.inFlightQueue.get? id := fun id => Dict.get?_pop
  have hother : ∀ {q r}, (r.id = msg.id → w.bus.inFlight.get? r.id = none) → Known w q r →
      Known (settled w msg) q r := by
    rintro q r hne ⟨hsent, hfresh, hcount⟩
    refine ⟨hsent, fun hin => ?_, hcount⟩
    rcases mem_settled.1 hin with hin | ⟨hid, hup⟩
    · exact hfresh hin
    · rw [← hid, hne hid] at hup
      cases hup
  constructor
  case unique => exact h.unique
  case once => exact h.once
  case waits =>
    intro q r hr
    obtain ⟨hknown, hnone⟩ := h.waits q r hr
    refine ⟨hother (fun _ => hnone) hknown, ?_⟩
    rw [hdown, hnone, ite_self]
  case flies =>
    intro id r hf
    rw [hdown] at hf
    rw [hgoes]
    by_cases hid : id = msg.id
    · rw [if_pos hid] at hf
      cases hf
    · rw [if_neg hid] at hf ⊢
      obtain ⟨rfl, q, hto, hknown⟩ := h.flies id r hf
      exact ⟨rfl, q, hto, hother (fun heq => absurd heq hid) hknown⟩
  case landed =>
    intro id hf
    rw [hdown] at hf
    rw [hgoes]
    by_cases hid : id = msg.id
    · rw [if_pos hid]
    · rw [if_neg hid] at hf ⊢
      exact h.landed id hf
  case kept =>
    intro s hs hfresh
    have hnot := not_or.1 (mt mem_settled.2 hfresh)
    refine (h.kept s hs hnot.1).imp_right fun hup => ?_
    rw [hdown]
    by_cases hid : s.id = msg.id
    · exact absurd ⟨hid, hid ▸ hup⟩ hnot.2
    · rw [if_neg hid]
      exact hup
  case ofSent =>
    intro id hid
    rcases hid with hid | hid
    · rcases mem_settled.1 hid with hid | ⟨rfl, hup⟩
      · exact h.ofSent id (Or.inl hid)
      · obtain ⟨r, hr⟩ := Option.isSome_iff_exists.1 hup
        obtain ⟨heq, q, -, hknown⟩ := h.flies msg.id r hr
        exact heq ▸ hknown.mem_sent
    · exact h.ofSent id (Or.inr hid)
  case told => exact h.told

/-! ## Every run -/

/-- Neither the clock nor what `complete` was called for says where a record is. -/
theorem Placed.anyTime (h : Placed w) (now : T) (asked : List String) :
    Placed { w with bus := { w.bus with now := now }, asked := asked } where
  unique := h.unique
  once := h.once
  waits queue record hr := by
    obtain ⟨⟨hsent, hfresh, hcount⟩, hdown⟩ := h.waits queue record hr
    exact ⟨⟨hsent, hfresh, hcount⟩, hdown⟩
  flies id record hf := by
    obtain ⟨hid, queue, hto, hsent, hfresh, hcount⟩ := h.flies id record hf
    exact ⟨hid, queue, hto, hsent, hfresh, hcount⟩
  landed := h.landed
  kept := h.kept
  ofSent := h.ofSent
  told := h.told

theorem placed_receiveLoop [Zero T] [Add T] [DecidableEq T] {lockDurationS : Option T} (n : Nat)
    (h : Placed w) : Placed { w with
      bus := (receiveLoop queue lockDurationS n w.bus).2
      received := w.received ++ (receiveLoop queue lockDurationS n w.bus).1 } := by
  induction n generalizing w with
  | zero => simpa only [receiveLoop, List.append_nil] using h
  | succ n ih =>
    unfold receiveLoop
    split
    next => simpa only [List.append_nil] using h
    next record rest hq =>
      have hone : Placed (delivered w queue lockDurationS record rest) := placed_delivered h hq
      have hrest := ih hone
      simpa only [delivered, List.append_assoc, List.singleton_append] using hrest

theorem placed_abandon {msg : LockedMessage B} (h : Placed w) :
    Placed { w with bus := abandon w.bus msg } := by
  unfold abandon
  split
  next record queue hr hq => exact placed_requeue h hr hq
  next hnone =>
    -- the dicts have the same keys, so that there is nothing to be popped
    have hdown : w.bus.inFlight.get? msg.id = none := by
      refine Option.eq_none_iff_forall_ne_some.2 fun record hr => ?_
      obtain ⟨-, queue, hq, -⟩ := h.flies msg.id record hr
      exact hnone record queue hr hq
    have hp : Placed (settled w msg) := placed_settled h
    rw [settled, hdown] at hp
    exact hp.anyTime w.bus.now w.asked

/-- Locks that have expired and are still there can be given back. -/
theorem expireLoop_placed {mids : List String} (hn : mids.Nodup)
    (hup : ∀ mid ∈ mids, (w.bus.inFlight.get? mid).isSome) (h : Placed w) :
    ∃ bus, expireLoop mids w.bus = some bus ∧ Placed { w with bus := bus } := by
  induction mids generalizing w with
  | nil => exact ⟨w.bus, rfl, h⟩
  | cons mid mids ih =>
    obtain ⟨hmid, hn⟩ := List.nodup_cons.1 hn
    obtain ⟨record, hr⟩ := Option.isSome_iff_exists.1 (hup mid List.mem_cons_self)
    obtain ⟨-, queue, hq, -⟩ := h.flies mid record hr
    have hstill : ∀ mid' ∈ mids,
        ((requeue w.bus mid record queue).inFlight.get? mid').isSome := by
      intro mid' hin
      have hne : mid' ≠ mid := fun heq => hmid (heq ▸ hin)
      show ((w.bus.inFlight.pop mid).get? mid').isSome
      rw [Dict.get?_pop, if_neg hne]
      exact hup mid' (List.mem_cons_of_mem mid hin)
    unfold expireLoop
    rw [hr, hq]
    exact ih hn hstill (placed_requeue h hr hq)

theorem expireLocks_placed [Add T] [LE T] [DecidableLE T] (h : Placed w) :
    ∃ bus, expireLocks w.bus = some bus ∧ Placed { w with bus := bus } := by
  refine expireLoop_placed (w.bus.inFlight.unique.sublist (List.filter_sublist.map _)) ?_ h
  intro mid hin
  obtain ⟨⟨mid, record⟩, hitem, rfl⟩ := List.mem_map.1 hin
  exact Option.isSome_iff_exists.2 ⟨record, Dict.mem_items_iff.2 (List.mem_filter.1 hitem).1⟩

theorem placed_init [Zero T] (defaultLockDurationS : T) :
    Placed (World.init defaultLockDurationS : World T B) where
  unique := List.nodup_nil
  once _ := List.nodup_nil
  waits _ _ hr := nomatch hr
  flies _ _ hf := nomatch hf
  landed _ _ := rfl
  kept _ hs := nomatch hs
  ofSent _ hid := hid.elim (fun hin => nomatch hin) fun hin => nomatch hin
  told _ := rfl

variable [Zero T] [Add T] [LE T] [DecidableLE T] [DecidableEq T]

/-- One call. -/
theorem step_placed {call : Call T B} (h : Placed w)
    (hnew : ∀ uuid ∈ call.uuid?, uuid ∉ w.sent.map Sent.id) :
    ∃ w', w.step call = some w' ∧ Placed w' ∧
      w'.sent.map Sent.id = w.sent.map Sent.id ++ call.uuid?.toList := by
  cases call with
  | send queue body uuid =>
    exact ⟨_, rfl, placed_send h (hnew uuid rfl), List.map_append⟩
  | receive queue maxCount lockDurationS =>
    exact ⟨_, rfl, placed_receiveLoop maxCount.toNat h, (List.append_nil _).symm⟩
  | complete msg => exact ⟨_, rfl, placed_settled h, (List.append_nil _).symm⟩
  | abandon msg => exact ⟨_, rfl, placed_abandon h, (List.append_nil _).symm⟩
  | simulateCrash msg => exact ⟨w, rfl, h, (List.append_nil _).symm⟩
  | advanceClock seconds => exact ⟨_, rfl, h.anyTime _ _, (List.append_nil _).symm⟩
  | expireLocks =>
    obtain ⟨bus, hbus, hp⟩ := expireLocks_placed h
    refine ⟨{ w with bus := bus }, ?_, hp, (List.append_nil _).symm⟩
    show (expireLocks w.bus).map _ = _
    rw [hbus]
    rfl

/-- Any number of calls, in any order, as long as no UUID is drawn twice. -/
theorem run_placed {calls : List (Call T B)} (h : Placed w)
    (hnew : (w.sent.map Sent.id ++ calls.filterMap Call.uuid?).Nodup) :
    ∃ w', w.run calls = some w' ∧ Placed w' := by
  induction calls generalizing w with
  | nil => exact ⟨w, rfl, h⟩
  | cons call calls ih =>
    have huuid : (call :: calls).filterMap Call.uuid? =
        call.uuid?.toList ++ calls.filterMap Call.uuid? := by
      rw [List.filterMap_cons]
      cases call.uuid? <;> rfl
    rw [huuid] at hnew
    obtain ⟨w', hstep, hp, hsent⟩ := step_placed h fun uuid hu hin =>
      List.disjoint_of_nodup_append hnew hin
        (List.mem_append_left _ (Option.mem_toList.2 hu))
    rw [← List.append_assoc, ← hsent] at hnew
    obtain ⟨w'', hrun, hp'⟩ := ih hp hnew
    refine ⟨w'', ?_, hp'⟩
    show (w.step call).bind _ = _
    rw [hstep]
    exact hrun

/-! ## The messages are conserved -/

omit [Zero T] [Add T] [LE T] [DecidableLE T] [DecidableEq T]

/-- A record in a deque is the one time its message is there. -/
theorem Placed.pending_iff (h : Placed w) :
    Pending w.bus queue id ↔ ∃ record ∈ w.bus.pending queue, record.id = id := by
  have hcount : Pending w.bus queue id ↔ id ∈ (w.bus.pending queue).map Record.id := by
    rw [Pending, (h.once queue).count]
    exact ite_eq_left_iff.trans ⟨fun hin => by_contra fun hout => Nat.zero_ne_one (hin hout),
      fun hin hout => absurd hin hout⟩
  rw [hcount, List.mem_map]

theorem Placed.conserves (h : Placed w) : Conserves w w.completed := by
  have hout : ∀ q, ∀ record ∈ w.bus.pending q, ¬(w.bus.inFlight.get? record.id).isSome := by
    intro q record hr hup
    rw [(h.waits q record hr).2] at hup
    cases hup
  -- the queue of a message is the one it was sent to
  have hown : ∀ s ∈ w.sent, ∀ {q r}, Known w q r → r.id = s.id → q = s.queue := by
    intro s hs q r hknown hid
    obtain ⟨s', hs', hid', rfl, -⟩ := hknown.sent
    exact congrArg Sent.queue (List.inj_on_of_nodup_map h.unique hs' hs (hid'.trans hid))
  have hflight : ∀ s ∈ w.sent, ∀ q, InFlight w.bus q s.id → q = s.queue := by
    rintro s hs q ⟨hup, hto⟩
    obtain ⟨r, hr⟩ := Option.isSome_iff_exists.1 hup
    obtain ⟨hid, q', hto', hknown⟩ := h.flies s.id r hr
    obtain rfl : q = q' := Option.some_inj.1 (hto.symm.trans hto')
    exact hown s hs hknown hid
  constructor
  case kept =>
    intro s hs hfresh
    rw [h.pending_iff]
    refine ⟨?_, fun q hne => ⟨fun r hr hid => hne ?_, fun hin => hne (hflight s hs q hin)⟩⟩
    · rcases h.kept s hs hfresh with ⟨r, hr, hid⟩ | hup
      · exact Or.inl ⟨⟨r, hr, hid⟩, fun hin => hout s.queue r hr (hid ▸ hin.1)⟩
      · refine Or.inr ⟨⟨hup, ?_⟩, fun ⟨r, hr, hid⟩ => hout s.queue r hr (hid ▸ hup)⟩
        obtain ⟨r, hr⟩ := Option.isSome_iff_exists.1 hup
        obtain ⟨hid, q, hto, hknown⟩ := h.flies s.id r hr
        exact hown s hs hknown hid ▸ hto
    · exact hown s hs (h.waits q r hr).1 hid
  case gone =>
    intro s hs hdone
    have hdown : w.bus.inFlight.get? s.id = none := by
      refine Option.eq_none_iff_forall_ne_some.2 fun r hr => ?_
      obtain ⟨hid, q, -, hknown⟩ := h.flies s.id r hr
      exact hknown.fresh (hid ▸ hdone)
    refine ⟨fun q r hr hid => ?_, hdown, h.landed s.id hdown⟩
    exact (h.waits q r hr).1.fresh (hid ▸ hdone)
  case only =>
    rintro r (⟨q, hr⟩ | ⟨id, hr⟩)
    · obtain ⟨s, hs, hid, -, hbody⟩ := (h.waits q r hr).1.sent
      exact ⟨s, hs, hid, hbody⟩
    · obtain ⟨-, q, -, hknown⟩ := h.flies id r hr
      obtain ⟨s, hs, hid, -, hbody⟩ := hknown.sent
      exact ⟨s, hs, hid, hbody⟩
  case counted =>
    rintro r (⟨q, hr⟩ | ⟨id, hr⟩)
    · exact (h.waits q r hr).1.count
    · obtain ⟨-, q, -, hknown⟩ := h.flies id r hr
      exact hknown.count
  case told => exact fun s _ => h.told s.id

end Invariant

/-- Whatever is called, in any order: nothing raises, and the messages are conserved, where those
    count as completed whose `complete` was called while they were in flight. -/
theorem conserves_run {T B : Type} [Zero T] [Add T] [LE T] [DecidableLE T] [DecidableEq T]
    (defaultLockDurationS : T) (calls : List (Call T B))
    (huuid : (calls.filterMap Call.uuid?).Nodup) :
    ∃ w, (World.init defaultLockDurationS).run calls = some w ∧ Conserves w w.completed := by
  have hall : ∃ w, (World.init defaultLockDurationS).run calls = some w ∧ Placed w :=
    run_placed (placed_init defaultLockDurationS) huuid
  obtain ⟨w, hrun, hp⟩ := hall
  exact ⟨w, hrun, hp.conserves⟩

/-- A lock expires between `receive` and `complete`. -/
def staleCompletion : List (Call Int String) :=
  [.send "task" "brief" "m1", .receive "task" 10 none, .advanceClock 61, .expireLocks,
    .complete ⟨"m1", "task", "brief", 1⟩]

theorem conserves_staleCompletion : (staleCompletion.filterMap Call.uuid?).Nodup ∧
    ∃ w, (World.init 60).run staleCompletion = some w ∧ Conserves w w.completed :=
  ⟨by decide, conserves_run 60 staleCompletion (by decide)⟩

/-- The message that `complete` was called for is still pending. -/
theorem asked_not_gone : ¬∀ (calls : List (Call Int String)),
    (calls.filterMap Call.uuid?).Nodup → ∀ w, (World.init 60).run calls = some w →
      Conserves w w.asked := by
  intro hall
  obtain ⟨w, hrun, hasked, hsent, hpending⟩ : ∃ w,
      (World.init (60 : Int)).run staleCompletion = some w ∧ w.asked = ["m1"] ∧
        w.sent.map Sent.id = ["m1"] ∧ (w.bus.pending "task").map Record.id = ["m1"] :=
    ⟨_, rfl, rfl, rfl, rfl⟩
  have hc := hall staleCompletion (by decide) w hrun
  obtain ⟨s, hs, hid⟩ := List.mem_map.1 (hsent ▸ List.mem_singleton_self "m1")
  obtain ⟨r, hr, hrid⟩ := List.mem_map.1 (hpending ▸ List.mem_singleton_self "m1")
  have hgone := hc.gone s hs (hid ▸ hasked ▸ List.mem_singleton_self "m1")
  exact hgone.1 "task" r hr (hrid.trans hid.symm)

end CanvasOS.Orchestrator.LocalDouble
