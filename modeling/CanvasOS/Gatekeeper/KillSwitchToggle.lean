/-
  The global kill switch over REST (`routers/kill_switch.py`), next to the read that the decisions
  make of it (`is_blocked`).

  1. `toggleGlobal` — find the newest global row and update it, or insert one if there is none: two
     statements, each a transaction of its own.
  2. `Reported`, `isFirst` — what `GET /kill-switch` shows is the newest global row, what a decision
     looks for is any active one.
  3. `killSwitch_agrees` — with one global row these are the same, and it holds what the last toggle
     wrote; nothing but a second INSERT makes a second row, and two first toggles can come to it.

  The REST surface has no switch but the global one; the switches of single functions are rows that
  nobody here writes.
-/
import CanvasOS.Governance.KillSwitch
import CanvasOS.Lib.Own

namespace CanvasOS.Gatekeeper

open Interleave Python Governance

/-! ## The table and its statements -/

/-- A row of `governance.kill_switches`. -/
structure SwitchRow where
  id : Nat
  switch : KillSwitch
  decidedBy : Option String
  updatedAt : Nat
deriving DecidableEq

def SwitchRow.isGlobal (row : SwitchRow) : Bool := row.switch.scope == globalScope

/-- `ORDER BY created_at DESC` -/
def SwitchRow.newer (row row' : SwitchRow) : Bool := row'.switch.createdAt < row.switch.createdAt

inductive SwitchOp
  /-- `_SELECT_GLOBAL_ID` -/
  | selectGlobalId
  /-- `_UPDATE_GLOBAL … RETURNING` -/
  | updateGlobal (id : Nat) (active : Bool) (reason decidedBy : String)
  /-- `_INSERT_GLOBAL … RETURNING` -/
  | insertGlobal (active : Bool) (reason decidedBy : String)

abbrev SwitchOp.Res : SwitchOp → Type
  | .selectGlobalId => Option Nat
  | .updateGlobal _ _ _ _ => Option SwitchRow
  | .insertGlobal _ _ _ => SwitchRow

/-- The statement can find this row first. -/
def isNewest (rows : List SwitchRow) (row : Option SwitchRow) : Bool :=
  Table.selects rows SwitchRow.isGlobal SwitchRow.newer row

/-- The row that a toggle writes. -/
def SwitchRow.set (active : Bool) (reason decidedBy : String) (now : Nat) (row : SwitchRow) :
    SwitchRow :=
  { row with
    switch := { row.switch with active := active, reason := some reason }
    decidedBy := some decidedBy
    updatedAt := now }

/-- One statement on the table.  Ids and times are the database's: they come with the answer. -/
def execSwitch : (o : SwitchOp) → o.Res → List SwitchRow → Option (o.Res × List SwitchRow)
  | .selectGlobalId, none, rows => if isNewest rows none then some (none, rows) else none
  | .selectGlobalId, some id, rows =>
    if rows.any fun row => row.id == id && isNewest rows (some row) then some (some id, rows)
    else none
  | .updateGlobal id active reason decidedBy, answer, rows =>
    some (Table.update rows (fun row => row.id == id)
      (SwitchRow.set active reason decidedBy (answer.elim 0 SwitchRow.updatedAt)))
  | .insertGlobal active reason decidedBy, answer, rows =>
    if rows.all fun row => row.id != answer.id then
      let row : SwitchRow := ⟨answer.id,
        ⟨globalScope, none, active, some reason, answer.switch.createdAt⟩, some decidedBy,
        answer.updatedAt⟩
      some (row, row :: rows)
    else none

/-! ## The routes -/

/-- The exceptions of a toggle. -/
inductive SwitchExc
  | database
  | typeError
deriving DecidableEq

structure KillSwitchToggleRequest where
  active : Bool
  reason : String
  operator : String
deriving DecidableEq

structure KillSwitchState where
  active : Bool
  reason : Option String
  scope : String
deriving DecidableEq

/-- `_state_body` -/
def stateBody : Option SwitchRow → KillSwitchState
  | none => ⟨false, none, globalScope⟩
  | some row => ⟨row.switch.active, row.switch.reason, globalScope⟩

/-- One statement of a toggle. -/
abbrev callSwitch (o : SwitchOp) : Prog SwitchOp SwitchOp.Res SwitchExc o.Res := Prog.perform o

/-- `_toggle_global` -/
def toggleGlobal (active : Bool) (reason decidedBy : String) :
    Prog SwitchOp SwitchOp.Res SwitchExc SwitchRow := do
  let existing ← callSwitch .selectGlobalId
  match existing with
  | some id => do
    let row ← callSwitch (.updateGlobal id active reason decidedBy)
    match row with
    | some row => pure row
    | none => throw .typeError
  | none => callSwitch (.insertGlobal active reason decidedBy)

/-- `post_kill_switch_toggle` -/
def postKillSwitchToggle (request : KillSwitchToggleRequest) :
    Prog SwitchOp SwitchOp.Res SwitchExc KillSwitchState := do
  let row ← toggleGlobal request.active request.reason request.operator
  pure (stateBody (some row))

/-- `get_kill_switch` can answer with this state. -/
def Reported (rows : List SwitchRow) (state : KillSwitchState) : Prop :=
  ∃ row, isNewest rows row = true ∧ state = stateBody row

/-! ## Any number of toggles -/

abbrev SwitchHistory :=
  History SwitchOp SwitchOp.Res (List SwitchRow) Nat KillSwitchToggleRequest

abbrev SwitchConfig :=
  Config SwitchOp SwitchOp.Res SwitchExc SwitchHistory Nat KillSwitchToggleRequest KillSwitchState

/-- Toggle requests, statement by statement. -/
def toggles : Sys SwitchOp SwitchOp.Res SwitchExc SwitchHistory Nat KillSwitchToggleRequest
    KillSwitchState Unit :=
  recorded postKillSwitchToggle (fun _ => execSwitch) fun _ _ => none

/-- What the last toggle to commit has set. -/
def lastToggle : List (Event SwitchOp SwitchOp.Res (List SwitchRow) Nat) → Option (Bool × String)
  | [] => none
  | ⟨_, .updateGlobal _ active reason _, some _, _⟩ :: _ => some (active, reason)
  | ⟨_, .insertGlobal active reason _, _, _⟩ :: _ => some (active, reason)
  | _ :: log => lastToggle log

/-- The state that is shown is the state that is enforced, for every function. -/
def Agrees (rows : List SwitchRow) : Prop :=
  ∀ state, Reported rows state → ∀ functionId row,
    isFirst (rows.map SwitchRow.switch) functionId row = true →
      (state.active = true ↔ (isBlocked row).scope = some globalScope) ∧
      (state.active = true → (isBlocked row).blocked = true ∧
        (isBlocked row).reason = state.reason)

/-- The state that is shown is what the last toggle has set, or the state before all of them. -/
def ShowsLast (rows₀ : List SwitchRow) (h : SwitchHistory) : Prop :=
  ∀ state, Reported h.cur state → match lastToggle h.log with
    | some (active, reason) => state.active = active ∧ state.reason = some reason
    | none => Reported rows₀ state

/-- No toggle inserts a global row where there is one already. -/
def InsertsFirst (c : SwitchConfig) : Act SwitchOp SwitchOp.Res SwitchExc Nat
    KillSwitchToggleRequest Unit → Prop
  | .step i _ => ∀ active reason decidedBy,
      c.next i = some (.insertGlobal active reason decidedBy) →
        c.shared.cur.all (fun row => !row.isGlobal) = true
  | _ => True

/-! ## One global row -/

/-- No two rows are global. -/
def OneGlobal (rows : List SwitchRow) : Prop :=
  ∀ row ∈ rows, ∀ row' ∈ rows, row.isGlobal = true → row'.isGlobal = true → row = row'

/-- A switch that a decision finds is a row of the table, and it is active. -/
theorem active_of_isFirst {rows : List SwitchRow} {functionId : Json} {k : KillSwitch}
    (h : isFirst (rows.map SwitchRow.switch) functionId (some k) = true) :
    (∃ row ∈ rows, row.switch = k) ∧ k.active = true := by
  obtain ⟨hmem, hblocks, -⟩ := Table.selects_some.1 h
  unfold KillSwitch.blocks at hblocks
  exact ⟨List.mem_map.1 hmem, (Bool.and_eq_true_iff.1 hblocks).1⟩

/-- An active global row is found by every decision, as a global switch. -/
theorem global_of_isFirst {rows : List SwitchRow} {functionId : Json} {row : SwitchRow}
    {found : Option KillSwitch} (hmem : row ∈ rows) (hglobal : row.isGlobal = true)
    (hactive : row.switch.active = true)
    (h : isFirst (rows.map SwitchRow.switch) functionId found = true) :
    ∃ k, found = some k ∧ k.scope = globalScope := by
  have hscope : (row.switch.scope == globalScope) = true := hglobal
  have hblocks : row.switch.blocks functionId = true := by
    unfold KillSwitch.blocks
    rw [hactive, hscope]
    rfl
  have hswitch : row.switch ∈ rows.map SwitchRow.switch := List.mem_map_of_mem hmem
  cases found with
  | none =>
    rw [Table.selects_none.1 h row.switch hswitch] at hblocks
    cases hblocks
  | some k =>
    refine ⟨k, rfl, ?_⟩
    have hbefore := (Table.selects_some.1 h).2.2 row.switch hswitch hblocks
    unfold KillSwitch.before at hbefore
    rw [hscope] at hbefore
    cases hk : k.scope == globalScope with
    | true => exact eq_of_beq hk
    | false =>
      rw [hk] at hbefore
      cases hbefore

/-- The only global row is the one shown and the one enforced. -/
theorem agrees_of_oneGlobal {rows : List SwitchRow} (h : OneGlobal rows) : Agrees rows := by
  rintro state ⟨newest, hnewest, rfl⟩ functionId found hfirst
  -- a global switch that is found is the global row
  have hfound : ∀ row ∈ rows, row.isGlobal = true → ∀ k, found = some k →
      k.scope = globalScope → k = row.switch ∧ row.switch.active = true := by
    rintro row hmem hglobal k rfl hscope
    obtain ⟨⟨row', hmem', rfl⟩, hactive⟩ := active_of_isFirst hfirst
    have hglobal' : row'.isGlobal = true := by
      unfold SwitchRow.isGlobal
      rw [hscope]
      rfl
    obtain rfl := h row' hmem' row hmem hglobal' hglobal
    exact ⟨rfl, hactive⟩
  have hscope : ∀ {k}, found = some k → (isBlocked found).scope = some k.scope := by
    rintro k rfl
    rfl
  cases newest with
  | none =>
    have hnone := Table.selects_none.1 hnewest
    refine ⟨⟨nofun, fun hglobal => ?_⟩, nofun⟩
    cases found with
    | none => cases hglobal
    | some k =>
      obtain ⟨⟨row, hmem, rfl⟩, -⟩ := active_of_isFirst hfirst
      have hrow := hnone row hmem
      unfold SwitchRow.isGlobal at hrow
      rw [Option.some.inj hglobal] at hrow
      cases hrow
  | some row =>
    obtain ⟨hmem, hglobal, -⟩ := Table.selects_some.1 hnewest
    refine ⟨⟨fun hactive => ?_, fun hglobal' => ?_⟩, fun hactive => ?_⟩
    · obtain ⟨k, hk, hkscope⟩ := global_of_isFirst hmem hglobal hactive hfirst
      rw [hscope hk, hkscope]
    · cases found with
      | none => cases hglobal'
      | some k => exact (hfound row hmem hglobal k rfl (Option.some.inj hglobal')).2
    · obtain ⟨k, hk, hkscope⟩ := global_of_isFirst hmem hglobal hactive hfirst
      obtain ⟨rfl, -⟩ := hfound row hmem hglobal k hk hkscope
      subst hk
      exact ⟨rfl, rfl⟩

/-! ## What a toggle does -/

/-- A toggle updates the row that it has found. -/
def Found : Heard SwitchOp SwitchOp.Res → Prop
  | [] => True
  | entry :: log =>
    (∀ id active reason decidedBy answer,
      entry = ⟨.updateGlobal id active reason decidedBy, answer⟩ →
        (⟨.selectGlobalId, some id⟩ : (o : SwitchOp) × o.Res) ∈ log) ∧
    Found log

theorem postKillSwitchToggle_keeps (request : KillSwitchToggleRequest) :
    Interleave.Keeps hear Found (postKillSwitchToggle request) (fun _ _ => True) [] := by
  unfold postKillSwitchToggle toggleGlobal
  refine Keeps.bind (Q := fun _ _ => True) ?_ fun row log h _ => ⟨h, trivial⟩
  refine Keeps.hear_bind trivial fun existing => ?_
  have h : Found [⟨.selectGlobalId, existing⟩] := ⟨nofun, trivial⟩
  cases existing with
  | none =>
    refine Keeps.perform h fun a b log hlog => ?_
    rw [hear_eq_some hlog]
    exact ⟨⟨nofun, h⟩, trivial⟩
  | some id =>
    refine Keeps.hear_bind h fun row => ?_
    have h' : Found [⟨.updateGlobal id request.active request.reason request.operator, row⟩,
        ⟨.selectGlobalId, some id⟩] := by
      refine ⟨fun id' active reason decidedBy answer heq => ?_, h⟩
      obtain ⟨rfl, -, -, -⟩ := SwitchOp.updateGlobal.inj (Sigma.mk.inj heq).1
      exact List.mem_singleton.2 rfl
    cases row with
    | none => exact h'
    | some row => exact ⟨h', trivial⟩

/-- What holds of the table and the record while no second global row is inserted. -/
structure SwitchInv (rows₀ : List SwitchRow) (h : SwitchHistory) : Prop where
  ids : (h.cur.map SwitchRow.id).Nodup
  one : OneGlobal h.cur
  found : ∀ i id pre,
    (⟨i, .selectGlobalId, some id, pre⟩ : Event SwitchOp SwitchOp.Res _ Nat) ∈ h.log →
      ∃ row ∈ h.cur, row.id = id ∧ row.isGlobal = true
  last : match lastToggle h.log with
    | some (active, reason) => ∃ row ∈ h.cur, row.isGlobal = true ∧
        row.switch.active = active ∧ row.switch.reason = some reason
    | none => h.cur = rows₀

section Step

variable {rows₀ t : List SwitchRow} {h : SwitchHistory} {i : Nat}

theorem SwitchInv.select (hI : SwitchInv rows₀ h) {answer : Option Nat}
    (hanswer : ∀ id, answer = some id → ∃ row ∈ h.cur, row.id = id ∧ row.isGlobal = true) :
    SwitchInv rows₀ ⟨h.cur, h.arrived, ⟨i, .selectGlobalId, answer, h.cur⟩ :: h.log⟩ := by
  refine ⟨hI.ids, hI.one, fun j id pre hmem => ?_, hI.last⟩
  rcases List.mem_cons.1 hmem with heq | hmem
  · obtain ⟨-, -, hb, -⟩ := Event.mk.inj heq
    exact hanswer id (eq_of_heq hb).symm
  · exact hI.found j id pre hmem

/-- An update of the row that was found changes what the global row says, and no other row. -/
theorem SwitchInv.update (hI : SwitchInv rows₀ h) {id now : Nat} {active : Bool} {reason decidedBy : String}
    (hfound : ∃ row ∈ h.cur, row.id = id ∧ row.isGlobal = true) {answer : Option SwitchRow}
    (hx : Table.update h.cur (fun row => row.id == id) (SwitchRow.set active reason decidedBy now) =
      (answer, t)) :
    SwitchInv rows₀ ⟨t, h.arrived,
      ⟨i, .updateGlobal id active reason decidedBy, answer, h.cur⟩ :: h.log⟩ := by
  let p (row : SwitchRow) : Bool := row.id == id
  let f : SwitchRow → SwitchRow := SwitchRow.set active reason decidedBy now
  have ht : t = (Table.update h.cur p f).2 := (congrArg Prod.snd hx).symm
  have hids : t.map SwitchRow.id = h.cur.map SwitchRow.id := by
    rw [ht]
    exact Table.map_update _ _ _ _ fun _ => rfl
  have hglobal : ∀ row, (f row).isGlobal = row.isGlobal := fun _ => rfl
  -- every new row is an old one, updated where it has the id
  have hnew : ∀ row ∈ t, ∃ row₀ ∈ h.cur, row = (if p row₀ then f row₀ else row₀) ∧
      row.isGlobal = row₀.isGlobal := by
    intro row hrow
    rw [ht] at hrow
    obtain ⟨row₀, hmem, rfl⟩ := List.mem_map.1 hrow
    refine ⟨row₀, hmem, rfl, ?_⟩
    split
    · exact hglobal row₀
    · rfl
  have hold : ∀ row₀ ∈ h.cur, ∃ row ∈ t, row.id = row₀.id ∧ row.isGlobal = row₀.isGlobal := by
    intro row₀ hmem
    rcases Table.exists_mem_update ht hmem with ⟨-, hmem'⟩ | ⟨-, hmem'⟩
    · exact ⟨f row₀, hmem', rfl, hglobal row₀⟩
    · exact ⟨row₀, hmem', rfl, rfl⟩
  obtain ⟨row₀, hmem₀, hid₀, hglobal₀⟩ := hfound
  have hp₀ : p row₀ = true := by simp [p, hid₀]
  refine ⟨hids ▸ hI.ids, fun row hrow row' hrow' hg hg' => ?_, fun j id' pre hmem => ?_, ?_⟩
  · obtain ⟨r, hr, heq, hgr⟩ := hnew row hrow
    obtain ⟨r', hr', heq', hgr'⟩ := hnew row' hrow'
    obtain rfl := hI.one r hr r' hr' (hgr ▸ hg) (hgr' ▸ hg')
    rw [heq, heq']
  · have hmem : (⟨j, .selectGlobalId, some id', pre⟩ :
        Event SwitchOp SwitchOp.Res (List SwitchRow) Nat) ∈ h.log := by
      rcases List.mem_cons.1 hmem with heq | hmem
      · cases (Event.mk.inj heq).2.1
      · exact hmem
    obtain ⟨r, hr, hid, hg⟩ := hI.found j id' pre hmem
    obtain ⟨row, hrow, hid', hg'⟩ := hold r hr
    exact ⟨row, hrow, hid'.trans hid, hg'.trans hg⟩
  · cases answer with
    | none =>
      have hnone : (Table.update h.cur p f).1 = none := congrArg Prod.fst hx
      rw [(Table.update_none hnone).1 row₀ hmem₀] at hp₀
      cases hp₀
    | some row =>
      rcases Table.exists_mem_update ht hmem₀ with ⟨-, hmem⟩ | ⟨hno, -⟩
      · exact ⟨f row₀, hmem, (hglobal row₀).trans hglobal₀, rfl, rfl⟩
      · rw [hp₀] at hno
        cases hno

/-- The first global row. -/
theorem SwitchInv.insert (hI : SwitchInv rows₀ h) {active : Bool} {reason decidedBy : String}
    {row : SwitchRow} (hfresh : h.cur.all (fun row' => row'.id != row.id) = true)
    (hfirst : h.cur.all (fun row' => !row'.isGlobal) = true)
    (hscope : row.isGlobal = true) (hactive : row.switch.active = active)
    (hreason : row.switch.reason = some reason) :
    SwitchInv rows₀ ⟨row :: h.cur, h.arrived,
      ⟨i, .insertGlobal active reason decidedBy, row, h.cur⟩ :: h.log⟩ := by
  have hother : ∀ row' ∈ h.cur, row'.isGlobal = true → False := by
    intro row' hmem hg
    have := List.all_eq_true.1 hfirst row' hmem
    rw [hg] at this
    cases this
  refine ⟨?_, ?_, fun j id pre hmem => ?_, row, List.mem_cons_self, hscope, hactive, hreason⟩
  · refine List.nodup_cons.2 ⟨fun hmem => ?_, hI.ids⟩
    obtain ⟨row', hmem', heq⟩ := List.mem_map.1 hmem
    have := List.all_eq_true.1 hfresh row' hmem'
    simp [heq] at this
  · intro r hr r' hr' hg hg'
    rcases List.mem_cons.1 hr with rfl | hr
    · rcases List.mem_cons.1 hr' with rfl | hr'
      · rfl
      · exact (hother r' hr' hg').elim
    · exact (hother r hr hg).elim
  · rcases List.mem_cons.1 hmem with heq | hmem
    · cases (Event.mk.inj heq).2.1
    · obtain ⟨row', hmem', hid, hg⟩ := hI.found j id pre hmem
      exact ⟨row', List.mem_cons_of_mem _ hmem', hid, hg⟩

/-- One statement of a toggle. -/
theorem SwitchInv.step (hI : SwitchInv rows₀ h) {o : SwitchOp} {a b : o.Res}
    (hx : execSwitch o a h.cur = some (b, t)) (hown : Found (⟨o, b⟩ :: h.heard i))
    (hinsert : ∀ active reason decidedBy, o = .insertGlobal active reason decidedBy →
      h.cur.all (fun row => !row.isGlobal) = true) :
    SwitchInv rows₀ ⟨t, h.arrived, ⟨i, o, b, h.cur⟩ :: h.log⟩ := by
  cases o with
  | selectGlobalId =>
    cases a with
    | none =>
      obtain ⟨-, heq⟩ := Option.ite_none_right_eq_some.1 hx
      obtain ⟨rfl, rfl⟩ := Prod.mk.inj (Option.some.inj heq)
      exact hI.select nofun
    | some id =>
      obtain ⟨hany, heq⟩ := Option.ite_none_right_eq_some.1 hx
      obtain ⟨rfl, rfl⟩ := Prod.mk.inj (Option.some.inj heq)
      refine hI.select fun id' heq => ?_
      obtain rfl := Option.some.inj heq
      obtain ⟨row, hmem, hrow⟩ := List.any_eq_true.1 hany
      obtain ⟨hid, hnewest⟩ := Bool.and_eq_true_iff.1 hrow
      exact ⟨row, hmem, eq_of_beq hid, (Table.selects_some.1 hnewest).2.1⟩
  | updateGlobal id active reason decidedBy =>
    obtain ⟨pre, hmem⟩ := History.mem_heard.1 (hown.1 id active reason decidedBy b rfl)
    exact hI.update (hI.found i id pre hmem) (Option.some.inj hx)
  | insertGlobal active reason decidedBy =>
    obtain ⟨hfresh, heq⟩ := Option.ite_none_right_eq_some.1 hx
    obtain ⟨rfl, rfl⟩ := Prod.mk.inj (Option.some.inj heq)
    exact hI.insert hfresh (hinsert active reason decidedBy rfl) rfl rfl rfl

end Step

/-! ## Runs -/

theorem switchInv_of_reach {rows₀ : List SwitchRow} {c : SwitchConfig}
    (hids : (rows₀.map SwitchRow.id).Nodup) (hone : OneGlobal rows₀)
    (hr : toggles.Reach InsertsFirst (.idle ⟨rows₀, [], []⟩) c) : SwitchInv rows₀ c.shared := by
  let J (c : SwitchConfig) : Prop := SwitchInv rows₀ c.shared
  have h₀ : J (.idle ⟨rows₀, [], []⟩) := ⟨hids, hone, nofun, rfl⟩
  refine hr.invariant (P := J) h₀ fun c a hr hI ha => ?_
  have hr' : toggles.Reach InsertsFirst (.idle ⟨rows₀, [], []⟩) (toggles.exec c a) := .act a hr ha
  refine Sys.exec_cases (P := fun c' => toggles.Reach InsertsFirst (.idle ⟨rows₀, [], []⟩) c' →
    J c') a (fun _ => hI) ?_ ?_ ?_ ?_ hr'
  · intro i r s _ hi hs _
    obtain ⟨-, rfl⟩ := recorded_enter hs
    exact ⟨hI.ids, hI.one, hI.found, hI.last⟩
  · intro i f r o k out s ha' hi hs hr'
    have hown : Found (s.heard i) :=
      hr'.own_keeps (J := fun _ => Found) postKillSwitchToggle_keeps i r _
        (Config.put_thread.2 (.inl ⟨rfl, rfl, rfl⟩))
    subst ha'
    rcases recorded_apply hs with ⟨-, rfl⟩ | ⟨a', b, t, -, hx, rfl⟩
    · exact hI
    · rw [History.heard_self] at hown
      refine hI.step hx hown fun active reason decidedBy heq => ha active reason decidedBy ?_
      unfold Config.next
      rw [hi]
      exact congrArg some heq
  · intro i r p _ _ _
    exact hI
  · intro e s _ hs _
    obtain ⟨t, ht, -⟩ := recorded_env hs
    cases ht

/-- While no toggle inserts a second global row, what is shown is what is enforced, and it is what
    the last toggle has set. -/
theorem killSwitch_agrees {rows₀ : List SwitchRow} {c : SwitchConfig}
    (hids : (rows₀.map SwitchRow.id).Nodup) (hone : OneGlobal rows₀)
    (hr : toggles.Reach InsertsFirst (.idle ⟨rows₀, [], []⟩) c) :
    Agrees c.shared.cur ∧ ShowsLast rows₀ c.shared := by
  have hI := switchInv_of_reach hids hone hr
  refine ⟨agrees_of_oneGlobal hI.one, ?_⟩
  rintro state ⟨newest, hnewest, rfl⟩
  have hlast := hI.last
  split
  · next active reason heq =>
    rw [heq] at hlast
    obtain ⟨row, hmem, hglobal, hactive, hreason⟩ := hlast
    cases newest with
    | none =>
      rw [Table.selects_none.1 hnewest row hmem] at hglobal
      cases hglobal
    | some row' =>
      obtain ⟨hmem', hglobal', -⟩ := Table.selects_some.1 hnewest
      obtain rfl := hI.one row' hmem' row hmem hglobal' hglobal
      exact ⟨hactive, hreason⟩
  · next heq =>
    rw [heq] at hlast
    rw [← hlast]
    exact ⟨newest, hnewest, rfl⟩

/-! ## Two first toggles -/

/-- The table has no row yet; an INSERT gets this id at this time. -/
def emptyReply (id now : Nat) : (o : SwitchOp) → Reply SwitchExc o.Res
  | .selectGlobalId => .ok none
  | .updateGlobal _ _ _ _ => .ok none
  | .insertGlobal _ _ _ => .ok ⟨id, ⟨globalScope, none, false, none, now⟩, none, now⟩

/-- The first toggle ever. -/
def firstToggle : List (Act SwitchOp SwitchOp.Res SwitchExc Nat KillSwitchToggleRequest Unit) :=
  [.enter 0 ⟨true, "incident", "ann"⟩, .step 0 (emptyReply 1 10), .step 0 (emptyReply 1 10)]

theorem firstToggle_reach : toggles.Reach InsertsFirst (.idle ⟨[], [], []⟩)
    (firstToggle.foldl toggles.exec (.idle ⟨[], [], []⟩)) := by
  refine Sys.Reach.init.foldl firstToggle fun n => ?_
  match n with
  | ⟨0, _⟩ => trivial
  | ⟨1, _⟩ =>
    intro active reason decidedBy h
    cases h
  | ⟨2, _⟩ => exact fun _ _ _ _ => rfl

theorem killSwitch_agrees_first :
    Agrees (firstToggle.foldl toggles.exec (.idle ⟨[], [], []⟩)).shared.cur ∧
      ShowsLast [] (firstToggle.foldl toggles.exec (.idle ⟨[], [], []⟩)).shared :=
  killSwitch_agrees List.nodup_nil nofun firstToggle_reach

/-- Two operators toggle at once: neither finds a row, and both insert one. -/
def twoFirstToggles :
    List (Act SwitchOp SwitchOp.Res SwitchExc Nat KillSwitchToggleRequest Unit) :=
  [.enter 0 ⟨true, "incident", "ann"⟩, .enter 1 ⟨false, "all clear", "bob"⟩,
    .step 0 (emptyReply 1 10), .step 1 (emptyReply 2 11),
    .step 0 (emptyReply 1 10), .step 1 (emptyReply 2 11)]

def bothToggled : SwitchConfig := twoFirstToggles.foldl toggles.exec (.idle ⟨[], [], []⟩)

theorem not_running_of_result {c : SwitchConfig} {i : Nat} (h : (c.result i).isSome = true) :
    ¬ c.Running i := by
  rintro ⟨r, o, k, hi⟩
  unfold Config.result at h
  rw [hi] at h
  cases h

/-- The console shows the switch off, and every function is blocked. -/
theorem shown_off_enforced_on : ¬ ∀ c : SwitchConfig,
    toggles.Reach Sys.free (.idle ⟨[], [], []⟩) c → (∀ i, ¬ c.Running i) →
      Agrees c.shared.cur ∧ ShowsLast [] c.shared := by
  intro h
  have hdone : ∀ i, ¬ bothToggled.Running i := by
    rintro (_ | _ | i)
    · exact not_running_of_result rfl
    · exact not_running_of_result rfl
    · rintro ⟨r, o, k, hi⟩
      cases hi
  have hagrees := (h bothToggled (Sys.Reach.init.foldl_free _) hdone).1
  have hshown : Reported bothToggled.shared.cur ⟨false, some "all clear", globalScope⟩ :=
    ⟨some ⟨2, ⟨globalScope, none, false, some "all clear", 11⟩, some "bob", 11⟩, by decide, rfl⟩
  have henforced := (hagrees _ hshown .null
    (some ⟨globalScope, none, true, some "incident", 10⟩) (by decide)).1
  exact Bool.false_ne_true (henforced.2 rfl)

end CanvasOS.Gatekeeper
