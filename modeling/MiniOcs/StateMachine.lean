import MiniOcs.Types

/-!
# The apply status of a connection

`connection_state_machine.cpp`, and `startApplyTransition` of the orchestrator: the status a
configuration event moves a connection to.
-/
namespace MiniOcs

inductive ConnectionApplyStatus where
  | absent
  | pendingCreate
  | applying
  | active
  | pendingUpdate
  | pendingDelete
  | removing
  | failed
  | retryWait
  | drifted
  | reconciling
  deriving DecidableEq, Repr

def canTransition : ConnectionApplyStatus → ConnectionApplyStatus → Bool
  | .absent, target => target = .pendingCreate
  | .pendingCreate, target => target = .applying || target = .failed
  | .pendingUpdate, target => target = .applying || target = .failed
  | .applying, target => target = .active || target = .failed
  | .active, target => target = .pendingUpdate || target = .pendingDelete || target = .drifted
  | .pendingDelete, target => target = .removing || target = .failed
  | .removing, target => target = .absent || target = .failed
  | .failed, target => target = .retryWait
  | .retryWait, target => target = .applying || target = .removing
  | .drifted, target => target = .reconciling
  | .reconciling, target => target = .active || target = .failed

/-- The `logic_error` of `requireTransition`. -/
structure InvalidTransition where
  source : ConnectionApplyStatus
  target : ConnectionApplyStatus
  deriving DecidableEq, Repr

def requireTransition (source target : ConnectionApplyStatus) : Except InvalidTransition Unit :=
  if canTransition source target then .ok () else .error ⟨source, target⟩

/-- The status while a command is executing. -/
def executing : ConnectionOperation → ConnectionApplyStatus
  | .remove => .removing
  | .upsert => .applying

def pendingStatus (current : ConnectionApplyStatus) :
    ConnectionOperation → ConnectionApplyStatus
  | .remove => .pendingDelete
  | .upsert => if current = .absent then .pendingCreate else .pendingUpdate

def requireBoth (first second : Except InvalidTransition Unit) : Except InvalidTransition Unit :=
  match first with
  | .error e => .error e
  | .ok () => second

/-- The transitions that lead from the current status to execution. -/
def startChecks (current : ConnectionApplyStatus) (operation : ConnectionOperation) :
    Except InvalidTransition Unit :=
  match current with
  | .applying | .removing => .ok ()
  | .failed => requireBoth (requireTransition .failed .retryWait)
      (requireTransition .retryWait (executing operation))
  | .retryWait => requireTransition .retryWait (executing operation)
  | current => requireBoth (requireTransition current (pendingStatus current operation))
      (requireTransition (pendingStatus current operation) (executing operation))

def startApplyTransition (current : ConnectionApplyStatus) (operation : ConnectionOperation) :
    Except InvalidTransition ConnectionApplyStatus :=
  (startChecks current operation).map fun _ => executing operation

/-- Whatever the status was, the transition ends in the executing status or not at all. -/
theorem startApplyTransition_ok {current status : ConnectionApplyStatus}
    {operation : ConnectionOperation} (h : startApplyTransition current operation = .ok status) :
    status = executing operation := by
  unfold startApplyTransition at h
  cases hc : startChecks current operation with
  | error e => rw [hc] at h; cases h
  | ok u => rw [hc] at h; cases h; rfl

/-- Where an event can start from. A connection that is absent cannot be removed. -/
theorem startApplyTransition_isOk {current : ConnectionApplyStatus} {operation : ConnectionOperation} :
    startApplyTransition current operation = .ok (executing operation) ↔
      current = .active ∨ current = .applying ∨ current = .removing ∨ current = .failed ∨
        current = .retryWait ∨ (current = .absent ∧ operation = .upsert) := by
  cases current <;> cases operation <;>
    simp [startApplyTransition, startChecks, requireBoth, requireTransition, canTransition,
      executing, pendingStatus, Except.map]

end MiniOcs
