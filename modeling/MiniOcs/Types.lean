/-!
# Connections, devices and errors

The value types of `connection.hpp`, `errors.hpp` and `device_types.hpp`. Ports and
versions are natural numbers; the places where the 16 bits of a port id matter say so.
-/
namespace MiniOcs

inductive ConnectionOperation where
  | upsert
  | remove
  deriving DecidableEq, Repr

structure ConnectionCommand where
  operation : ConnectionOperation := .upsert
  id : String
  inputPort : Nat := 0
  outputPort : Nat := 0
  desiredVersion : Nat
  deriving DecidableEq, Repr

structure AppliedConnection where
  id : String
  inputPort : Nat
  outputPort : Nat
  appliedVersion : Nat
  deriving DecidableEq, Repr

inductive ErrorCode where
  | ok
  | invalidArgument
  | invalidPort
  | connectionNotFound
  | connectionExists
  | inputConflict
  | outputConflict
  | portDisabled
  | portDown
  | deviceNotReady
  | applyTimeout
  | applyFailed
  | versionStale
  | protocolMalformed
  | protocolVersion
  | payloadTooLarge
  | unsupported
  | internalError
  deriving DecidableEq, Repr

structure Error where
  code : ErrorCode := .ok
  message : String := ""
  deriving DecidableEq, Repr

def Error.isOk (e : Error) : Bool := decide (e.code = .ok)

def Error.success : Error := {}

inductive PortDirection where
  | input
  | output
  deriving DecidableEq, Repr

inductive PortOperStatus where
  | up
  | down
  | lowPower
  | fault
  | unknown
  deriving DecidableEq, Repr

structure DeviceInfo where
  name : String
  inputPortCount : Nat
  outputPortCount : Nat
  model : String := ""
  serialNumber : String := ""
  firmwareVersion : String := ""
  generation : Nat
  deriving DecidableEq, Repr

inductive DeviceOperStatus where
  | init
  | ready
  | degraded
  | failed
  | resetting
  deriving DecidableEq, Repr

structure DeviceHealth where
  status : DeviceOperStatus := .init
  lastError : Error := {}
  deriving DecidableEq, Repr

/-- `opticalPowerDbm` only ever holds the constants the simulator writes, -3.0 and 0.0. -/
structure PortState where
  id : Nat
  direction : PortDirection
  adminEnabled : Bool := true
  operStatus : PortOperStatus := .unknown
  opticalPowerDbm : Rat := -3
  deriving DecidableEq, Repr

/-- An empty `operation_id` is `none`. -/
structure ApplyOptions (ω : Type) where
  atomic : Bool := true
  timeoutMs : Int := 1000
  operationId : Option ω := none
  deriving DecidableEq, Repr

structure ApplyResult where
  error : Error
  connections : List AppliedConnection
  deriving DecidableEq, Repr

def ApplyResult.isOk (r : ApplyResult) : Bool := r.error.isOk

inductive ResetMode where
  | soft
  | hard
  deriving DecidableEq, Repr

inductive FaultType where
  | nextApplyError
  | nextApplyTimeout
  | inputPortDown
  | outputPortDown
  | outOfBandDrift
  | all
  deriving DecidableEq, Repr

structure FaultSpec where
  type : FaultType
  portId : Nat := 0
  deriving DecidableEq, Repr

end MiniOcs
