/-
  Kill switches, the read that Gatekeeper and Publisher share (`governance_lib/kill_switch.py`).

  The table is read afresh on every decision: one SELECT of the active rows that are global or
  name the function, global rows first and then the oldest, `LIMIT 1` (`isFirst`, an instance of
  `Table.selects`); `isBlocked` turns the row it returned into the status the callers look at.
-/
import CanvasOS.Lib.Python
import CanvasOS.Lib.Select

namespace CanvasOS.Governance

open Python

/-- A row of `governance.kill_switches`, as far as the read looks at it. -/
structure KillSwitch where
  scope : String
  functionId : Option String
  active : Bool
  reason : Option String
  createdAt : Nat
deriving DecidableEq

def globalScope : String := "global"
def functionScope : String := "function"
def killSwitchReasonPrefix : String := "kill_switch_active"

/-- The WHERE clause: an active switch that is global or names the function.  A NULL or
    non-text `function_id` equals no row's. -/
def KillSwitch.blocks (k : KillSwitch) (functionId : Json) : Bool :=
  k.active && (k.scope == globalScope ||
    (k.scope == functionScope && k.functionId.any fun f => functionId == .str f))

/-- The ORDER BY clause: global switches first, then by age. -/
def KillSwitch.before (k l : KillSwitch) : Bool :=
  if (k.scope == globalScope) == (l.scope == globalScope) then k.createdAt < l.createdAt
  else k.scope == globalScope

/-- `_SELECT_ACTIVE_SWITCHES` can return `row` on this table. -/
def isFirst (rows : List KillSwitch) (functionId : Json) (row : Option KillSwitch) : Bool :=
  Table.selects rows (·.blocks functionId) KillSwitch.before row

/-- What a caller learns. -/
structure KillSwitchStatus where
  blocked : Bool
  scope : Option String
  functionId : Option String
  reason : Option String
deriving DecidableEq

/-- `is_blocked`, from the row its SELECT returned. -/
def isBlocked : Option KillSwitch → KillSwitchStatus
  | none => ⟨false, none, none, none⟩
  | some k => ⟨true, some k.scope, k.functionId, k.reason⟩

/-- `KillSwitchStatus.audit_reason`. -/
def KillSwitchStatus.auditReason (s : KillSwitchStatus) : Option String :=
  if s.blocked then
    let detail := killSwitchReasonPrefix ++ ":" ++ s.scope.getD "None"
    let detail := match s.functionId with
      | some f => if f == "" then detail else detail ++ ":" ++ f
      | none => detail
    some (match s.reason with
      | some r => if r == "" then detail else detail ++ " (" ++ r ++ ")"
      | none => detail)
  else none

/-- No active switch of the table blocks the function. -/
def Unblocked (rows : List KillSwitch) (functionId : Json) : Prop :=
  ∀ k ∈ rows, k.blocks functionId = false

/-- The read is exact: it reports "not blocked" only where no active switch blocks. -/
theorem unblocked_of_isFirst {rows : List KillSwitch} {functionId : Json} {row : Option KillSwitch}
    (hrow : isFirst rows functionId row) (hb : (isBlocked row).blocked = false) :
    Unblocked rows functionId := by
  cases row with
  | some k => cases hb
  | none => exact Table.selects_none.1 hrow

end CanvasOS.Governance
