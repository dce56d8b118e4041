import MiniOcs.Concurrent.Triple
import MiniOcs.Json.Access
import MiniOcs.Syncd.Service

/-!
# Fault commands

`processFaultOne`: a fault command is executed on the device unless its result is stored, and the
result is stored before the command is acknowledged. The shared world gains the fault stream, its
consumer group and the results; a history beside them records which commands stand behind an apply
that fails with an injected error.
-/
namespace MiniOcs.Syncd
open Concurrent

structure FaultEvent where
  eventId : String
  device : String
  resourceType : String
  operation : String
  payload : String
  deriving DecidableEq, Repr

/-- The hash of a fault result; its texts are those of the error. -/
structure FaultRecord where
  commandId : String
  device : String
  error : Error
  completedAtNs : Nat
  deriving DecidableEq, Repr

/-! ## Reading a command -/

def malformedFault (what : String) : Error := { code := .protocolMalformed, message := what }

def invalidFault (what : String) : Error := { code := .invalidArgument, message := what }

def managedFaultType (value : String) : Except Error FaultType :=
  if value = "NEXT_APPLY_ERROR" then .ok .nextApplyError
  else if value = "NEXT_APPLY_TIMEOUT" then .ok .nextApplyTimeout
  else if value = "INPUT_PORT_DOWN" then .ok .inputPortDown
  else if value = "OUTPUT_PORT_DOWN" then .ok .outputPortDown
  else if value = "ALL" then .ok .all
  else .error (invalidFault "unsupported managed fault type")

/-- The operation and the fault of a command, or the error of the exception that is caught. -/
def decodeFault (parse : String → Except String Json) (event : FaultEvent) :
    Except Error (String × FaultSpec) := do
  if event.resourceType ≠ "fault" ∨ (event.operation ≠ "INJECT" ∧ event.operation ≠ "CLEAR") then
    .error (invalidFault "invalid fault command envelope")
  else
    let payload ← (parse event.payload).mapError malformedFault
    let operation ← (payload.atKey "operation" >>= Json.getString).mapError malformedFault
    if operation ≠ event.operation then
      .error (invalidFault "fault payload operation does not match envelope")
    else
      let type ← managedFaultType
        (← (payload.atKey "fault_type" >>= Json.getString).mapError malformedFault)
      let port ← (payload.atKey "port_id" >>= Json.getUInt64).mapError malformedFault
      if 65535 < port then .error (invalidFault "fault port is outside the supported range")
      else if (type = .inputPortDown ∨ type = .outputPortDown) ∧ port = 0 then
        .error (invalidFault "port fault requires a positive port")
      else if type = .all ∧ operation ≠ "CLEAR" then
        .error (invalidFault "ALL is only valid for clear")
      else return (operation, { type, portId := port })

/-! ## The history -/

def oneShot : FaultType → Bool
  | .nextApplyError | .nextApplyTimeout => true
  | _ => false

/-- Whether the flag of a one-shot fault is up. -/
def raised (d : SimulatedOcsDevice CommandId) : FaultType → Bool
  | .nextApplyError => d.failNextApply
  | .nextApplyTimeout => d.timeoutNextApply
  | _ => false

/-- The commands that have raised a flag since it was last lowered, for every apply that failed
with an injected error the commands behind the flag it met, and the command whose handler was the
last to raise a flag, unless that handler was lost. -/
structure History where
  behind : FaultType → List String := fun _ => []
  failures : List (List String) := []
  handled : Option String := none

namespace History

def inject (h : History) (eventId : String) (type : FaultType) : History :=
  if oneShot type then
    { h with behind := Function.update h.behind type (h.behind type ++ [eventId])
             handled := some eventId }
  else h

def clear (h : History) (type : FaultType) : History :=
  if type = .all then { h with behind := fun _ => [] }
  else { h with behind := Function.update h.behind type [] }

def fail (h : History) : Option FaultType → History
  | none => h
  | some type => { h with failures := h.failures ++ [h.behind type]
                          behind := Function.update h.behind type [] }

/-- The flags are those of the device: commands stand behind raised ones only. -/
def lower (h : History) (d : SimulatedOcsDevice CommandId) : History :=
  { h with behind := fun type => if raised d type then h.behind type else [] }

/-- The applies that the command has made fail. -/
def failuresBy (h : History) (eventId : String) : Nat :=
  h.failures.countP fun causes => eventId ∈ causes

end History

def injectedFailure : Error := { code := .applyFailed, message := "injected next-apply failure" }

def injectedTimeout : Error := { code := .applyTimeout, message := "injected next-apply timeout" }

/-- The one-shot fault that an apply fails with. A repeated operation is answered from the cache:
it is not applied again. -/
def failedWith (d : SimulatedOcsDevice CommandId) (commands : List ConnectionCommand)
    (options : ApplyOptions CommandId) : Option FaultType :=
  match d.cachedResult options, d.applyConnections commands options with
  | none, .ok (result, _) =>
      if result.error = injectedFailure then some .nextApplyError
      else if result.error = injectedTimeout then some .nextApplyTimeout
      else none
  | _, _ => none

/-! ## Operations -/

structure FaultWorld where
  world : World
  stream : List FaultEvent := []
  group : Group := {}
  results : String → Option FaultRecord := fun _ => none
  history : History := {}

inductive FaultOp where
  | service (o : Op)
  | xpending
  | xclaim (n : Nat)
  | readGroup
  | xack (n : Nat)
  | getResult (eventId : String)
  | putResultIfAbsent (eventId : String) (record : FaultRecord)
  | now
  | getDeviceInfo
  | injectFault (eventId : String) (fault : FaultSpec)
  | clearFault (fault : FaultSpec)
  | raise (error : Raised)

abbrev FaultOp.Reply : FaultOp → Type
  | .service o => o.Reply
  | .xpending => Option Nat
  | .xclaim _ => Option FaultEvent
  | .readGroup => Option (Nat × FaultEvent)
  | .xack _ => Bool
  | .getResult _ => Option FaultRecord
  | .putResultIfAbsent _ _ => Bool
  | .now => Nat
  | .getDeviceInfo => Except String DeviceInfo
  | .injectFault _ _ => Except String Error
  | .clearFault _ => Except String Error
  | .raise _ => Unit

/-- Whether the link delivers the request. -/
def delivered (choice : Nat) : Bool := decide (choice ≠ 1) && decide (choice ≠ 2)

/-- A fault request. The link may lose the request or the reply, as for an apply. -/
def faultOverLink (choice : Nat) (d : SimulatedOcsDevice CommandId)
    (executed : Except Abort (Error × SimulatedOcsDevice CommandId)) :
    Except String Error × SimulatedOcsDevice CommandId :=
  match executed with
  | .error _ => (.error "device operation failed", d)
  | .ok (error, d') =>
      match choice with
      | 0 => (.ok error, d')
      | 1 => (.ok ⟨.deviceNotReady, linkFailure⟩, d)
      | 2 => (.ok ⟨.applyTimeout, linkFailure⟩, d)
      | 3 => (.ok ⟨.deviceNotReady, linkFailure⟩, d')
      | 4 => (.ok ⟨.applyTimeout, linkFailure⟩, d')
      | _ => (.error "UDS response is malformed", d')

/-- What the history keeps of an operation of the services. -/
def observe (o : Op) (choice : Nat) (s : FaultWorld) : History :=
  match o with
  | .syncd (.applyConnections commands options) =>
      if delivered choice then s.history.fail (failedWith s.world.hwsim commands options)
      else s.history
  | _ => s.history

def FaultOp.exec : (o : FaultOp) → Nat → FaultWorld → o.Reply × FaultWorld
  | .service o, choice, s =>
      ((MiniOcs.exec o choice s.world).1,
        { s with world := (MiniOcs.exec o choice s.world).2, history := observe o choice s })
  | .xpending, choice, s => (s.group.candidate pendingScan choice, s)
  | .xclaim n, choice, s =>
      (if choice = 0 ∧ n ∈ s.group.pending then s.stream[n]? else none, s)
  | .readGroup, _, s =>
      ((s.group.read s.stream.length).1.bind fun n => s.stream[n]?.map fun event => (n, event),
        { s with group := (s.group.read s.stream.length).2 })
  | .xack n, _, s => ((s.group.ack n).1, { s with group := (s.group.ack n).2 })
  | .getResult eventId, _, s => (s.results eventId, s)
  | .putResultIfAbsent eventId record, _, s =>
      if (s.results eventId).isSome then (false, s)
      else (true, { s with results := Function.update s.results eventId (some record) })
  | .now, choice, s => (choice, s)
  | .getDeviceInfo, choice, s => (readDevice choice s.world.hwsim.info, s)
  | .injectFault eventId fault, choice, s =>
      let sent := faultOverLink choice s.world.hwsim (s.world.hwsim.injectFault fault)
      (sent.1, { s with
        world := { s.world with hwsim := sent.2 }
        history := if delivered choice then s.history.inject eventId fault.type else s.history })
  | .clearFault fault, choice, s =>
      let sent := faultOverLink choice s.world.hwsim (s.world.hwsim.clearFault fault)
      (sent.1, { s with
        world := { s.world with hwsim := sent.2 }
        history := if delivered choice then s.history.clear fault.type else s.history })
  | .raise _, _, s => ((), s)

abbrev FaultService (α : Type) := Prog FaultOp FaultOp.Reply Raised α

/-! ## The handler -/

def sendFault (o : FaultOp) : FaultService o.Reply := .call o .pure

/-- `claimPending` for one entry, then `readGroupIfNoPending`. -/
def nextFault : FaultService (Option (Nat × FaultEvent)) := do
  match ← sendFault .xpending with
  | none => sendFault .readGroup
  | some n =>
      match ← sendFault (.xclaim n) with
      | some event => .pure (some (n, event))
      | none => sendFault .readGroup

/-- The error of a device call: an exception of the codec is caught. -/
def answeredFault : Except String Error → Error
  | .ok error => error
  | .error what => malformedFault what

/-- The device call of a decoded command. -/
def requestFault (event : FaultEvent) (operation : String) (fault : FaultSpec) :
    FaultService Error := do
  match ← sendFault .getDeviceInfo with
  | .error what => .pure { code := .deviceNotReady, message := what }
  | .ok info =>
      if info.name ≠ event.device then
        .pure { code := .deviceNotReady
                message := "fault device does not match the connected backend" }
      else
        let reply ← if operation = "INJECT" then sendFault (.injectFault event.eventId fault)
          else sendFault (.clearFault fault)
        .pure (answeredFault reply)

section Handler

-- the JSON parser of syncd
variable (parse : String → Except String Json)

def executeFault (event : FaultEvent) : FaultService Error :=
  match decodeFault parse event with
  | .error error => .pure error
  | .ok (operation, fault) => requestFault event operation fault

def storeFault (event : FaultEvent) (error : Error) : FaultService Unit := do
  let completedAtNs ← sendFault .now
  let record := { commandId := event.eventId, device := event.device, error, completedAtNs }
  let _ ← sendFault (.putResultIfAbsent event.eventId record)

def acknowledgeFault (n : Nat) : FaultService Bool := do
  let acknowledged ← sendFault (.xack n)
  if acknowledged then .pure true
  else
    let error := Raised.runtimeError "syncd failed to acknowledge processed fault command"
    .call (.raise error) fun _ => .throw error

def processFaultOne : FaultService Bool := do
  match ← nextFault with
  | none => .pure false
  | some (n, event) =>
      let stored ← sendFault (.getResult event.eventId)
      if stored.isNone then
        let error ← executeFault parse event
        storeFault event error
      acknowledgeFault n

end Handler

/-- A program of the services among the fault commands. -/
def embed {α : Type} : Service α → FaultService α
  | .pure a => .pure a
  | .throw e => .throw e
  | .call o k => .call (.service o) fun r => embed (k r)

end MiniOcs.Syncd
