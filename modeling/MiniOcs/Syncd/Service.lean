import MiniOcs.Reconciler
import MiniOcs.World

/-!
# The device synchronizer

`SyncdService`: the command handler, which applies a batch once and publishes its state,
counters and results, and the device poll, which publishes port state and schedules
generation recovery and reconciliation. Heartbeats are left out.
-/
namespace MiniOcs.Syncd
open Concurrent

/-- `claimPending` for one entry, then `readGroupIfNoPending`. -/
def nextCommand : Service (Option (Nat × CommandEvent)) := do
  let candidate ← send .xpending
  match candidate with
  | none => send .readGroup
  | some n =>
      let claimed ← send (.xclaim n)
      match claimed with
      | some event => .pure (some (n, event))
      | none => send .readGroup

def acknowledge (n : Nat) : Service Bool := do
  let acknowledged ← send (.xack n)
  if acknowledged then .pure true
  else raise (.runtimeError "syncd failed to acknowledge processed device command")

/-- `.at("active_delta")` of a marker that was just written or found. -/
def markedDelta (delta : Option Int) : Service Int :=
  match delta with
  | some delta => .pure delta
  | none => raise (.runtimeError "map::at")

/-- The delta of a block that was just executed, or of its marker. -/
def publishedDelta (published : Bool) (delta : Int) (marker : Service (Option Int)) : Service Int :=
  if published then .pure delta
  else do
    let marked ← marker
    markedDelta marked

def activeDelta (before after : Bool) : Int :=
  if before = after then 0 else if after then 1 else -1

def wasActive (previous : Option ConnectionState) : Bool :=
  match previous with
  | some state => state.actualPresent
  | none => false

def stateFailed (state : Option ConnectionState) : Bool :=
  match state with
  | some state => state.applyStatus = .failed
  | none => false

/-! ## Applying a command -/

/-- The batch that the publisher of a command prepared; empty when it cannot be read. -/
def recoverPreparedBatch (event : CommandEvent) : Service DeviceCommandBatch := do
  let prepared ← send (.getConfigBatch event.id)
  match prepared with
  | none => .pure { commands := [] }
  | some payload =>
      match decodeDeviceCommand payload with
      | .ok batch => .pure batch
      | .error _ => .pure { commands := [] }

/-- The last success of a connection in this generation is not older than the command. -/
def supersededBy (generation : Nat) (command : ConnectionCommand)
    (version : Option ConnectionVersion) : Bool :=
  match version with
  | some version => decide (version.deviceGeneration = generation) &&
      decide (command.desiredVersion ≤ version.lastSuccessfulVersion)
  | none => false

def allSuperseded (generation : Nat) : List ConnectionCommand → Service Bool
  | [] => .pure true
  | command :: rest => do
      let version ← send (.getHash (.connectionVersion command.id))
      if supersededBy generation command version then allSuperseded generation rest
      else .pure false

def isStaleVersion (event : CommandEvent) (batch : DeviceCommandBatch) : Service Bool :=
  if event.id.isGenerationRecovery ∨ event.id.isReconciliation then .pure false
  else do
    let memory ← send .readMemory
    allSuperseded memory.2 batch.commands

def portUnavailable (port : PortState) : Bool :=
  !port.adminEnabled || decide (port.operStatus ≠ .up)

/-- The loop over the members of a batch that failed: `none` where one is not confirmed. -/
def confirmMembers (actual : List AppliedConnection) (confirmed : List AppliedConnection) :
    List ConnectionCommand → Service (Option (List AppliedConnection))
  | [] => .pure (some confirmed)
  | command :: rest =>
      let found := actual.find? fun connection => connection.id = command.id
      match command.operation, found with
      | .remove, some _ => .pure none
      | .remove, none => confirmMembers actual confirmed rest
      | .upsert, none => .pure none
      | .upsert, some connection =>
          if !applies command connection then .pure none
          else do
            let input ← send (.getPortState .input command.inputPort)
            match input with
            | .error _ => .pure none
            | .ok input =>
                let output ← send (.getPortState .output command.outputPort)
                match output with
                | .error _ => .pure none
                | .ok output =>
                    if portUnavailable input || portUnavailable output then .pure none
                    else confirmMembers actual (confirmed ++ [connection]) rest

def confirmAppliedResult (batch : DeviceCommandBatch) (result : ApplyResult) :
    Service ApplyResult :=
  if result.isOk ∨ batch.commands = [] then .pure result
  else do
    let actual ← send .getConnections
    match actual with
    | .error _ => .pure result
    | .ok actual =>
        let confirmed ← confirmMembers actual [] batch.commands
        match confirmed with
        | none => .pure result
        | some connections => .pure ⟨Error.success, connections⟩

def refused (code : ErrorCode) (message : String) : ApplyResult := ⟨⟨code, message⟩, []⟩

/-- The reply of an apply request, or the exception that it raised. -/
def appliedResult (reply : Except String ApplyResult) : ApplyResult :=
  match reply with
  | .ok result => result
  | .error message => refused .protocolMalformed message

/-- A failed attempt is checked against the device. -/
def confirmAttempt (batch : DeviceCommandBatch) (result : ApplyResult) : Service ApplyResult :=
  if result.isOk then .pure result else confirmAppliedResult batch result

def applyCommand (event : CommandEvent) (batch : DeviceCommandBatch) : Service ApplyResult := do
  let info ← send .getDeviceInfo
  match info with
  | .error message => .pure (refused .deviceNotReady message)
  | .ok info =>
      let _ ← send (.remember info.name info.generation)
      if info.name ≠ event.device then
        .pure (refused .deviceNotReady
          "command device does not match the connected device backend")
      else
        let reply ← send (.applyConnections batch.commands batch.options)
        confirmAttempt batch (appliedResult reply)

/-! ## Publishing state -/

/-- A port failure on a connection that is already confirmed as the command wants it. -/
def preserveConfirmedPortState (command : ConnectionCommand) (result : ApplyResult)
    (previous : Option ConnectionState) : Except String Bool :=
  match previous with
  | none => .ok false
  | some state =>
      if result.error.code = .portDown ∧ command.operation = .upsert ∧ state.actualPresent = true ∧
          state.applyStatus = .active then
        if !validPort state.inputPort then
          .error "device connection snapshot has invalid input_port"
        else if state.inputPort ≠ command.inputPort then .ok false
        else if !validPort state.outputPort then
          .error "device connection snapshot has invalid output_port"
        else .ok (decide (state.outputPort = command.outputPort) &&
          decide (state.desiredVersion = command.desiredVersion) &&
          decide (state.appliedVersion = command.desiredVersion))
      else .ok false

def appliedState (command : ConnectionCommand) (result : ApplyResult)
    (applied : AppliedConnection) : ConnectionState where
  id := command.id
  inputPort := command.inputPort
  outputPort := command.outputPort
  desiredVersion := command.desiredVersion
  appliedVersion := applied.appliedVersion
  actualPresent := true
  applyStatus := .active
  lastErrorCode := some result.error.code
  lastErrorMessage := result.error.message

/-- A failure keeps the last confirmed facts. -/
def failedState (command : ConnectionCommand) (result : ApplyResult)
    (previous : Option ConnectionState) : ConnectionState :=
  let kept : ConnectionState := previous.getD {
    id := command.id
    inputPort := command.inputPort
    outputPort := command.outputPort
    desiredVersion := command.desiredVersion
    appliedVersion := 0
    actualPresent := false
    applyStatus := .failed
    lastErrorCode := none
    lastErrorMessage := "" }
  { kept with
    desiredVersion := command.desiredVersion
    applyStatus := .failed
    lastErrorCode := some result.error.code
    lastErrorMessage := result.error.message }

def memberStateEvent (event : CommandEvent) (command : ConnectionCommand)
    (operation : ConnectionOperation) (state : Option ConnectionState) : StateEvent where
  id := .command event.id command.id
  operation := operation
  desiredVersion := command.desiredVersion
  connection := state

/-- Write the state of a member, with its event and its marker. -/
def replaceMemberState (event : CommandEvent) (command : ConnectionCommand) (before after : Bool)
    (operation : ConnectionOperation) (state : Option ConnectionState) : Service Int := do
  let published ← send (.replaceStateOnce (.statePublication event.id command.id)
    { activeDelta := activeDelta before after } command.id state
    (memberStateEvent event command operation state))
  if published then .pure (activeDelta before after)
  else
    let marker : Option StatePublication ← send (.getHash (.statePublication event.id command.id))
    markedDelta (marker.map (·.activeDelta))

def publishMemberState (event : CommandEvent) (result : ApplyResult) (command : ConnectionCommand)
    (previous : Option ConnectionState) : Service Int :=
  let before := wasActive previous
  if result.isOk then
    match command.operation with
    | .remove => replaceMemberState event command before false .remove none
    | .upsert =>
        match result.connections.find? fun item => item.id = command.id with
        | none => raise (.runtimeError "successful device apply omitted connection result")
        | some applied => replaceMemberState event command before true .upsert
            (some (appliedState command result applied))
  else do
    let state ← send (.getState command.id)
    replaceMemberState event command before before .upsert
      (some (failedState command result state))

/-- Mark a member without touching its state. -/
def skipMemberState (event : CommandEvent) (command : ConnectionCommand)
    (marker : StatePublication) : Service Int := do
  let _ ← send (.putHashIfAbsent (.statePublication event.id command.id) marker)
  let marker : Option StatePublication ← send (.getHash (.statePublication event.id command.id))
  markedDelta (marker.map (·.activeDelta))

def isSupersededState (command : ConnectionCommand) (previous : Option ConnectionState) : Bool :=
  match previous with
  | some state => decide (command.desiredVersion < state.desiredVersion)
  | none => false

def publishMember (event : CommandEvent) (result : ApplyResult) (command : ConnectionCommand) :
    Service Int := do
  let published : Option StatePublication ←
    send (.getHash (.statePublication event.id command.id))
  match published with
  | some marker => .pure marker.activeDelta
  | none =>
      let previous ← send (.getState command.id)
      if isSupersededState command previous then
        skipMemberState event command { activeDelta := 0, superseded := true }
      else match preserveConfirmedPortState command result previous with
        | .error message => raise (.invalidArgument message)
        | .ok true => skipMemberState event command { activeDelta := 0, confirmedUnchanged := true }
        | .ok false => publishMemberState event result command previous

def publishState (event : CommandEvent) (result : ApplyResult) (total : Int) :
    List ConnectionCommand → Service Int
  | [] => .pure total
  | command :: rest => do
      let delta ← publishMember event result command
      publishState event result (total + delta) rest

def applyIncrements (result : ApplyResult) (delta : Int) : List (CounterField × Int) :=
  [(.deviceApplyTotal, 1),
    (if result.isOk then .deviceApplySuccessTotal else .deviceApplyFailureTotal, 1),
    (.activeConnections, delta)] ++
  if result.error.code = .applyTimeout then [(.deviceApplyTimeoutTotal, 1)] else []

/-! ## Publishing results -/

def resultEvent (event : CommandEvent) (connection : Option String) (resourceId : String)
    (desiredVersion : Nat) (result : ApplyResult) : ResultEvent where
  id := ⟨event.id, connection⟩
  requestId := event.requestId
  device := event.device
  resourceId := resourceId
  desiredVersion := desiredVersion
  success := result.isOk
  errorCode := result.error.code
  errorMessage := result.error.message
  commandId := event.id

/-- A member whose state was confirmed unchanged succeeded. -/
def memberResult (command : ConnectionCommand) (result : ApplyResult)
    (marker : Option StatePublication) : ApplyResult :=
  match marker with
  | some marker =>
      if marker.confirmedUnchanged then ⟨Error.success,
        [⟨command.id, command.inputPort, command.outputPort, command.desiredVersion⟩]⟩
      else result
  | none => result

def publishMemberResults (event : CommandEvent) (result : ApplyResult) :
    List ConnectionCommand → Service Unit
  | [] => .pure ()
  | command :: rest => do
      let marker : Option StatePublication ←
        send (.getHash (.statePublication event.id command.id))
      let _ ← send (.appendResultOnce (.resultPublication event.id command.id) ()
        (resultEvent event (some command.id) command.id command.desiredVersion
          (memberResult command result marker)))
      publishMemberResults event result rest

def publishResult (event : CommandEvent) (batch : DeviceCommandBatch) (result : ApplyResult) :
    Service Unit :=
  if batch.commands = [] then do
    let _ ← send (.appendResultOnce (.resultPublication event.id event.resourceId) ()
      (resultEvent event none event.resourceId event.desiredVersion result))
    .pure ()
  else publishMemberResults event result batch.commands

/-! ## Processed commands -/

abbrev SyncdEntry := (k : SyncdKey) × SyncdHash k

/-- The version hashes of the members that move forward. -/
def versionEntries (generation : Nat) (entries : List SyncdEntry) :
    List ConnectionCommand → Service (List SyncdEntry)
  | [] => .pure entries
  | command :: rest => do
      let existing ← send (.getHash (.connectionVersion command.id))
      if supersededBy generation command existing then versionEntries generation entries rest
      else versionEntries generation (entries ++
        [⟨.connectionVersion command.id, ⟨command.desiredVersion, generation⟩⟩]) rest

def appliedVersions (generation : Nat) (commands : List ConnectionCommand) (applied : Bool) :
    Service (List SyncdEntry) :=
  if applied then versionEntries generation [] commands else .pure []

def loadPortFaults (faults : List ((PortDirection × Nat) × PortFault)) :
    List (PortDirection × Nat) → Service (List ((PortDirection × Nat) × PortFault))
  | [] => .pure faults
  | key :: rest => do
      let fault : Option PortFault ← send (.getHash (.portFault key.1 key.2))
      match fault with
      | some fault => loadPortFaults (faults ++ [(key, fault)]) rest
      | none => loadPortFaults faults rest

def portFaults : Service (List ((PortDirection × Nat) × PortFault)) := do
  let keys ← send .scanPortFaults
  loadPortFaults [] keys

def portFaultEntry (fault : (PortDirection × Nat) × PortFault) : SyncdEntry :=
  ⟨.portFault fault.1.1 fault.1.2, fault.2⟩

/-- The control hash of the reconciliation that the command belongs to. -/
def controlEntry (command : CommandId) (applied : Bool) (control : Option ReconciliationControl) :
    List SyncdEntry :=
  match control with
  | some control =>
      if control.command = command then
        [⟨.reconciliation, { control with status := if applied then .applied else .failed }⟩]
      else []
  | none => []

/-- The faults that the command recovers. -/
def recoveredFaults (command : CommandId) (faults : List ((PortDirection × Nat) × PortFault)) :
    List SyncdEntry :=
  (faults.filter fun fault => fault.2.command = some command).map fun fault =>
    portFaultEntry (fault.1, { fault.2 with status := .recovered })

def markReconciliation (event : CommandEvent) (applied : Bool) : Service (List SyncdEntry) :=
  if !event.id.isReconciliation then .pure []
  else do
    let control : Option ReconciliationControl ← send (.getHash .reconciliation)
    if applied then do
      let _ ← send (.incrementOnce (.reconciliationSuccessPublication event.id) ()
        { increments := [(.reconciliationSuccessTotal, 1)] })
      let faults ← portFaults
      .pure (controlEntry event.id applied control ++ recoveredFaults event.id faults)
    else .pure (controlEntry event.id applied control)

def markProcessed (event : CommandEvent) (batch : DeviceCommandBatch) (applied : Bool) :
    Service Unit := do
  let memory ← send .readMemory
  let versions ← appliedVersions memory.2 batch.commands applied
  let reconciliation ← markReconciliation event applied
  send (.putHashesAtomically
    (⟨.processedCommand event.id, applied⟩ :: versions ++ reconciliation))

/-! ## Commands -/

/-- Everything after the result of a command is durable. -/
def finishCommand (n : Nat) (event : CommandEvent) (batch : DeviceCommandBatch)
    (stored : StoredResult) : Service Bool := do
  let delta ← publishState event stored.result 0 batch.commands
  let _ ← send (.incrementOnce (.countersPublication event.id) () {
    command := some event.id
    increments := applyIncrements stored.result delta
    latencyMs := some stored.latencyMs })
  publishResult event batch stored.result
  markProcessed event batch stored.result.isOk
  acknowledge n

/-- The result as it was stored. -/
def finishStored (n : Nat) (event : CommandEvent) (batch : DeviceCommandBatch)
    (stored : Option StoredResult) : Service Bool :=
  match stored with
  | some stored => finishCommand n event batch stored
  | none => raise (.runtimeError "durable device apply result is missing payload")

def attemptCommand (n : Nat) (event : CommandEvent) (batch : DeviceCommandBatch) :
    Service Bool := do
  let _ ← send (.putHashIfAbsent (.applyAttempt event.id) batch)
  let result ← applyCommand event batch
  let latencyMs ← send .now
  send (.putHash (.applyResult event.id) ⟨result, latencyMs⟩)
  let stored : Option StoredResult ← send (.getHash (.applyResult event.id))
  finishStored n event batch stored

def startCommand (n : Nat) (event : CommandEvent) (batch : DeviceCommandBatch) :
    Service Bool := do
  let stored : Option StoredResult ← send (.getHash (.applyResult event.id))
  match stored with
  | some stored => finishCommand n event batch stored
  | none =>
      let attempt : Option DeviceCommandBatch ← send (.getHash (.applyAttempt event.id))
      match attempt with
      | some _ => attemptCommand n event batch
      | none =>
          let stale ← isStaleVersion event batch
          if stale then do
            markProcessed event batch false
            acknowledge n
          else attemptCommand n event batch

/-- A payload that does not decode is its own result. -/
def malformedCommand (n : Nat) (event : CommandEvent) (message : String) : Service Bool := do
  let batch ← recoverPreparedBatch event
  send (.putHash (.applyResult event.id) ⟨refused .protocolMalformed message, 0⟩)
  startCommand n event batch

def withOperation (event : CommandEvent) (batch : DeviceCommandBatch) : DeviceCommandBatch :=
  { batch with options := { batch.options with operationId := some event.id } }

def handleCommand (n : Nat) (event : CommandEvent) : Service Bool := do
  let processed : Option Bool ← send (.getHash (.processedCommand event.id))
  match processed with
  | some _ => acknowledge n
  | none =>
      match decodeDeviceCommand event.payload with
      | .error message => malformedCommand n event message
      | .ok batch => startCommand n event (withOperation event batch)

def processOne : Service Bool := do
  let message ← nextCommand
  match message with
  | none => .pure false
  | some (n, event) => handleCommand n event

end MiniOcs.Syncd
