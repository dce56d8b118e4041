import Std.Data.ExtTreeMap
import MiniOcs.Types

/-!
# The simulated optical switch

`SimulatedOcsDevice` with its connection table, the two port-indexed copies of the
matrix, the version fences, the replay cache and the one-shot faults. A bounds-checked
`.at()` outside its vector and a port loop that never ends are results of their own.
-/
namespace MiniOcs
open Std

/-- What a device operation can do instead of returning. -/
inductive Abort where
  | outOfRange
  | diverges
  deriving DecidableEq, Repr

/-- Why a batch is not applied: a checked index failed, or the device rejects it. -/
inductive Refusal where
  | abort (a : Abort)
  | rejected (e : Error)
  deriving DecidableEq, Repr

def maxCachedApplyResults : Nat := 4096

structure SimulatedOcsDevice (ω : Type) where
  info : DeviceInfo
  health : DeviceHealth := { status := .ready }
  connections : ExtTreeMap String AppliedConnection
  lastVersions : ExtTreeMap String Nat
  inputToOutput : List (Option Nat)
  outputToInput : List (Option Nat)
  inputPorts : List PortState
  outputPorts : List PortState
  applyResults : List (ω × ApplyResult)
  applyResultOrder : List ω
  failNextApply : Bool
  timeoutNextApply : Bool

/-- The loop of `makePorts`. The loop variable is a 16-bit `PortId`: it wraps. -/
def makePortsLoop (direction : PortDirection) (count : Nat) :
    Nat → Nat → List PortState → Option (List PortState)
  | 0, _, _ => none
  | fuel + 1, id, ports =>
      if id ≤ count then
        makePortsLoop direction count fuel ((id + 1) % 65536)
          (ports ++ [{ id := id, direction := direction, operStatus := .up }])
      else some ports

/-- `none` is a loop that does not end: 65536 rounds return to the same loop variable. -/
def makePorts (direction : PortDirection) (count : Nat) : Option (List PortState) :=
  makePortsLoop direction count 65536 1 []

/-- `.at(port - 1)` on a vector indexed by port. Port 0 wraps to the largest index. -/
def portAt {α : Type} (table : List α) (port : Nat) : Except Refusal α :=
  if port = 0 then .error (.abort .outOfRange)
  else match table[port - 1]? with
    | some a => .ok a
    | none => .error (.abort .outOfRange)

namespace SimulatedOcsDevice

variable {ω : Type}

/-- The constructor: `none` while a port loop does not end, an error for a zero count. -/
def construct (info : DeviceInfo) : Option (Except String (SimulatedOcsDevice ω)) :=
  match makePorts .input info.inputPortCount, makePorts .output info.outputPortCount with
  | some inputs, some outputs =>
      if info.inputPortCount = 0 ∨ info.outputPortCount = 0 then
        some (.error "device port counts must be positive")
      else some (.ok {
        info := info
        connections := ∅
        lastVersions := ∅
        inputToOutput := List.replicate info.inputPortCount none
        outputToInput := List.replicate info.outputPortCount none
        inputPorts := inputs
        outputPorts := outputs
        applyResults := []
        applyResultOrder := []
        failNextApply := false
        timeoutNextApply := false })
  | _, _ => none

def portCount (d : SimulatedOcsDevice ω) : PortDirection → Nat
  | .input => d.info.inputPortCount
  | .output => d.info.outputPortCount

def ports (d : SimulatedOcsDevice ω) : PortDirection → List PortState
  | .input => d.inputPorts
  | .output => d.outputPorts

def setPorts (d : SimulatedOcsDevice ω) : PortDirection → List PortState → SimulatedOcsDevice ω
  | .input, ps => { d with inputPorts := ps }
  | .output, ps => { d with outputPorts := ps }

def validatePort (d : SimulatedOcsDevice ω) (direction : PortDirection) (id : Nat) : Error :=
  if id = 0 ∨ d.portCount direction < id then
    { code := .invalidPort, message := "port is outside the configured matrix" }
  else Error.success

def validatePortAvailable (d : SimulatedOcsDevice ω) (direction : PortDirection) (id : Nat) :
    Except Refusal Unit :=
  if !(d.validatePort direction id).isOk then .error (.rejected (d.validatePort direction id))
  else match portAt (d.ports direction) id with
    | .error e => .error e
    | .ok port =>
        if !port.adminEnabled then
          .error (.rejected { code := .portDisabled, message := "port is administratively disabled" })
        else if port.operStatus ≠ .up then
          .error (.rejected { code := .portDown, message := "port is not operationally up" })
        else .ok ()

def staleVersion (d : SimulatedOcsDevice ω) (commands : List ConnectionCommand) : Bool :=
  commands.any fun command =>
    decide (command.desiredVersion ≠ 0) &&
      match d.lastVersions[command.id]? with
      | some last => decide (command.desiredVersion < last)
      | none => false

/-- The loop that edits the copied connection table, command by command. -/
def editConnections (d : SimulatedOcsDevice ω) :
    List ConnectionCommand → ExtTreeMap String AppliedConnection →
      Except Refusal (ExtTreeMap String AppliedConnection)
  | [], table => .ok table
  | command :: rest, table =>
      if command.id = "" then
        .error (.rejected { code := .invalidArgument, message := "connection id must not be empty" })
      else match command.operation with
        | .remove => d.editConnections rest (table.erase command.id)
        | .upsert =>
            match d.validatePortAvailable .input command.inputPort with
            | .error e => .error e
            | .ok () =>
                match d.validatePortAvailable .output command.outputPort with
                | .error e => .error e
                | .ok () => d.editConnections rest (table.insert command.id {
                    id := command.id
                    inputPort := command.inputPort
                    outputPort := command.outputPort
                    appliedVersion := command.desiredVersion })

/-- The loop that rebuilds both port-indexed copies and finds port conflicts. -/
def indexConnections : List AppliedConnection → List (Option Nat) → List (Option Nat) →
    Except Refusal (List (Option Nat) × List (Option Nat))
  | [], inputs, outputs => .ok (inputs, outputs)
  | connection :: rest, inputs, outputs =>
      match portAt inputs connection.inputPort with
      | .error e => .error e
      | .ok (some _) =>
          .error (.rejected { code := .inputConflict, message := "input port is already connected" })
      | .ok none =>
          match portAt outputs connection.outputPort with
          | .error e => .error e
          | .ok (some _) =>
              .error (.rejected
                { code := .outputConflict, message := "output port is already connected" })
          | .ok none => indexConnections rest
              (inputs.set (connection.inputPort - 1) (some connection.outputPort))
              (outputs.set (connection.outputPort - 1) (some connection.inputPort))

/-- `finish`: store the result under its operation id, evicting the oldest one when full. -/
def finish [DecidableEq ω] (d : SimulatedOcsDevice ω) (options : ApplyOptions ω)
    (result : ApplyResult) : ApplyResult × SimulatedOcsDevice ω :=
  match options.operationId with
  | none => (result, d)
  | some op =>
      let evicted :=
        if d.applyResults.length < maxCachedApplyResults then d
        else match d.applyResultOrder with
          | [] => d
          | oldest :: order =>
              { d with
                applyResults := d.applyResults.filter fun entry => entry.1 ≠ oldest
                applyResultOrder := order }
      (result, { evicted with
        applyResults := (evicted.applyResults.filter fun entry => entry.1 ≠ op) ++ [(op, result)]
        applyResultOrder := evicted.applyResultOrder ++ [op] })

def recordVersions (versions : ExtTreeMap String Nat) (commands : List ConnectionCommand) :
    ExtTreeMap String Nat :=
  commands.foldl (fun acc command =>
    if command.desiredVersion ≠ 0 then acc.insert command.id command.desiredVersion else acc)
    versions

def changedConnections (table : ExtTreeMap String AppliedConnection)
    (commands : List ConnectionCommand) : List AppliedConnection :=
  commands.filterMap fun command => table[command.id]?

/-- The candidate matrix of a batch: the edited table and both rebuilt copies. -/
def candidate (d : SimulatedOcsDevice ω) (commands : List ConnectionCommand) :
    Except Refusal (ExtTreeMap String AppliedConnection × List (Option Nat) ×
      List (Option Nat)) :=
  if d.staleVersion commands then
    .error (.rejected { code := .versionStale, message := "connection version is stale" })
  else match d.editConnections commands d.connections with
    | .error e => .error e
    | .ok table =>
        match indexConnections (table.toList.map Prod.snd)
          (List.replicate d.info.inputPortCount none)
          (List.replicate d.info.outputPortCount none) with
        | .error e => .error e
        | .ok copies => .ok (table, copies)

/-- A batch that is neither cached nor refused before the matrix is looked at. -/
def applyBatch [DecidableEq ω] (d : SimulatedOcsDevice ω) (commands : List ConnectionCommand)
    (options : ApplyOptions ω) : Except Abort (ApplyResult × SimulatedOcsDevice ω) :=
  match d.candidate commands with
  | .error (.abort a) => .error a
  | .error (.rejected e) => .ok (d.finish options ⟨e, []⟩)
  | .ok (table, inputs, outputs) =>
      if d.failNextApply then
        .ok ({ d with failNextApply := false }.finish options
          ⟨{ code := .applyFailed, message := "injected next-apply failure" }, []⟩)
      else if d.timeoutNextApply then
        .ok ({ d with timeoutNextApply := false }.finish options
          ⟨{ code := .applyTimeout, message := "injected next-apply timeout" }, []⟩)
      else
        .ok ({ d with
          connections := table
          inputToOutput := inputs
          outputToInput := outputs
          lastVersions := recordVersions d.lastVersions commands }.finish options
            ⟨Error.success, changedConnections table commands⟩)

def cachedResult [DecidableEq ω] (d : SimulatedOcsDevice ω) (options : ApplyOptions ω) :
    Option ApplyResult :=
  options.operationId.bind fun op => d.applyResults.lookup op

def applyConnections [DecidableEq ω] (d : SimulatedOcsDevice ω)
    (commands : List ConnectionCommand) (options : ApplyOptions ω) :
    Except Abort (ApplyResult × SimulatedOcsDevice ω) :=
  match d.cachedResult options with
  | some cached => .ok (cached, d)
  | none =>
      if !options.atomic then
        .ok (d.finish options
          ⟨{ code := .unsupported, message := "non-atomic apply is not supported" }, []⟩)
      else d.applyBatch commands options

def getConnections (d : SimulatedOcsDevice ω) : List AppliedConnection :=
  d.connections.toList.map Prod.snd

def getPortState (d : SimulatedOcsDevice ω) (direction : PortDirection) (id : Nat) :
    Except Refusal PortState :=
  if !(d.validatePort direction id).isOk then
    .ok { id, direction, adminEnabled := false, opticalPowerDbm := 0 }
  else portAt (d.ports direction) id

def reset (d : SimulatedOcsDevice ω) (mode : ResetMode) :
    Except Abort (Nat × SimulatedOcsDevice ω) :=
  match makePorts .input d.info.inputPortCount, makePorts .output d.info.outputPortCount with
  | some inputs, some outputs =>
      let generation := match mode with
        -- `++` on a 64-bit generation
        | .hard => (d.info.generation + 1) % 18446744073709551616
        | .soft => d.info.generation
      .ok (generation, {
        info := { d.info with generation := generation }
        health := { status := .ready }
        connections := ∅
        lastVersions := ∅
        inputToOutput := d.inputToOutput.map fun _ => none
        outputToInput := d.outputToInput.map fun _ => none
        inputPorts := inputs
        outputPorts := outputs
        applyResults := []
        applyResultOrder := []
        failNextApply := false
        timeoutNextApply := false })
  | _, _ => .error .diverges

/-- `.at(id - 1).oper_status = status` on the ports of one direction. -/
def setOperStatus (d : SimulatedOcsDevice ω) (direction : PortDirection) (id : Nat)
    (status : PortOperStatus) : Except Abort (Error × SimulatedOcsDevice ω) :=
  if !(d.validatePort direction id).isOk then .ok (d.validatePort direction id, d)
  else match portAt (d.ports direction) id with
    | .ok port => .ok (Error.success,
        d.setPorts direction ((d.ports direction).set (id - 1) { port with operStatus := status }))
    | .error _ => .error .outOfRange

/-- The drift fault removes the connection with the smallest id from all three copies. -/
def injectDrift (d : SimulatedOcsDevice ω) : Except Abort (Error × SimulatedOcsDevice ω) :=
  match d.connections.toList with
  | [] => .ok ({ code := .invalidArgument, message := "drift target connection was not found" }, d)
  | (id, connection) :: _ =>
      match portAt d.inputToOutput connection.inputPort,
          portAt d.outputToInput connection.outputPort with
      | .ok _, .ok _ => .ok (Error.success, { d with
          inputToOutput := d.inputToOutput.set (connection.inputPort - 1) none
          outputToInput := d.outputToInput.set (connection.outputPort - 1) none
          connections := d.connections.erase id })
      | _, _ => .error .outOfRange

def injectFault (d : SimulatedOcsDevice ω) (fault : FaultSpec) :
    Except Abort (Error × SimulatedOcsDevice ω) :=
  match fault.type with
  | .all => .ok ({ code := .invalidArgument, message := "ALL is only valid when clearing faults" }, d)
  | .nextApplyError => .ok (Error.success, { d with failNextApply := true })
  | .nextApplyTimeout => .ok (Error.success, { d with timeoutNextApply := true })
  | .outOfBandDrift => d.injectDrift
  | .inputPortDown => d.setOperStatus .input fault.portId .down
  | .outputPortDown => d.setOperStatus .output fault.portId .down

def clearFault (d : SimulatedOcsDevice ω) (selector : FaultSpec) :
    Except Abort (Error × SimulatedOcsDevice ω) :=
  match selector.type with
  | .all => .ok (Error.success, { d with
      failNextApply := false
      timeoutNextApply := false
      inputPorts := d.inputPorts.map fun port => { port with operStatus := .up }
      outputPorts := d.outputPorts.map fun port => { port with operStatus := .up } })
  | .nextApplyError => .ok (Error.success, { d with failNextApply := false })
  | .nextApplyTimeout => .ok (Error.success, { d with timeoutNextApply := false })
  | .outOfBandDrift => .ok (Error.success, d)
  | .inputPortDown => d.setOperStatus .input selector.portId .up
  | .outputPortDown => d.setOperStatus .output selector.portId .up

def setPortAdminState (d : SimulatedOcsDevice ω) (direction : PortDirection) (id : Nat)
    (enabled : Bool) : Except Abort (Error × SimulatedOcsDevice ω) :=
  if !(d.validatePort direction id).isOk then .ok (d.validatePort direction id, d)
  else match portAt (d.ports direction) id with
    | .ok port => .ok (Error.success,
        d.setPorts direction ((d.ports direction).set (id - 1) { port with adminEnabled := enabled }))
    | .error _ => .error .outOfRange

end SimulatedOcsDevice

end MiniOcs
