import MiniOcs.Syncd.Service

/-!
# The device poll

`pollDevice` and `initialize` of `SyncdService`: port state and port alarms, the recovery of a
new device generation, and the reconciliation of desired and actual connections.
-/
namespace MiniOcs.Syncd
open Concurrent

/-- A device read: an exception of the device backend is an exception of the caller. -/
def readOrRaise {α : Type} (reply : Except String α) : Service α :=
  match reply with
  | .ok value => .pure value
  | .error message => raise (.runtimeError message)

/-! ## Ports -/

def portAlarm (port : PortState) (activation : ActivationId) (affected now : Nat) : Alarm where
  id := .portDown port.direction port.id
  desiredVersion := 0
  errorCode := if port.adminEnabled then .portDown else .portDisabled
  errorMessage := "port is not operationally available"
  activationId := activation
  firstRaisedNs := now
  lastChangeNs := now
  count := affected

def countAlarm (activation : ActivationId) (clear : Bool)
    (increments : List (CounterField × Int)) : Service Unit := do
  let _ ← send (.incrementOnce (.alarmCounterPublication activation clear) ()
    { increments := increments })
  .pure ()

def publishPortAlarm (port : PortState) (activation : ActivationId) (affected : Nat) :
    Service Unit := do
  let marker : Option Unit ← send (.getHash (.portAlarmPublication activation))
  match marker with
  | some _ => countAlarm activation false [(.activeAlarms, 1), (.portDownTotal, 1)]
  | none =>
      let now ← send .now
      let alarm := portAlarm port activation affected now
      let _ ← send (.replaceAlarmOnce (.portAlarmPublication activation) () alarm.id (some alarm)
        ⟨alarm, .upsert⟩)
      countAlarm activation false [(.activeAlarms, 1), (.portDownTotal, 1)]

def countClearedPortAlarm (activation : ActivationId) (marker : Option Unit) : Service Unit :=
  match marker with
  | some _ => countAlarm activation true [(.activeAlarms, -1)]
  | none => .pure ()

def clearPortAlarm (port : PortState) (activation : ActivationId) : Service Unit := do
  let marker : Option Unit ← send (.getHash (.portAlarmClearPublication activation))
  match marker with
  | some _ => countClearedPortAlarm activation marker
  | none =>
      let active : Option Alarm ← send (.getHash (.activeAlarm (.portDown port.direction port.id)))
      match active with
      | none => .pure ()
      | some alarm =>
          let now ← send .now
          let _ ← send (.replaceAlarmOnce (.portAlarmClearPublication activation) ()
            (.portDown port.direction port.id) none
            ⟨{ alarm with active := false, lastChangeNs := now }, .remove⟩)
          let marker : Option Unit ← send (.getHash (.portAlarmClearPublication activation))
          countClearedPortAlarm activation marker

/-- A first snapshot is only stored; a change is also an event. -/
def publishPortChange (port : PortState) (previous : Option PortState) : Service Unit :=
  if previous = some port then .pure ()
  else do
    let now ← send .now
    match previous with
    | none => send (.putHash (.portState port.direction port.id) port)
    | some _ => send (.replaceHashAndAppendEvent (.portState port.direction port.id) port
        { id := .port port.direction port.id now, operation := .upsert, desiredVersion := 0 })

def openPortFault (port : PortState) (fault : Option PortFault) : Service ActivationId :=
  match fault.filter fun fault => fault.status ≠ .recovered with
  | some fault => .pure fault.activationId
  | none => do
      let now ← send .now
      let activation : ActivationId := .port port.direction port.id now
      send (.putHash (.portFault port.direction port.id) ⟨activation, .active, none⟩)
      .pure activation

/-- The status of a fault whose port is available again. -/
def clearedStatus (fault : PortFault) : Service PortFaultStatus :=
  match fault.status, fault.command with
  | .active, _ => .pure .cleared
  | .recoveryPublished, some command => do
      let processed : Option Bool ← send (.getHash (.processedCommand command))
      match processed with
      | some true => .pure .recovered
      | some false => .pure .cleared
      | none => .pure .recoveryPublished
  | status, _ => .pure status

def closePortFault (port : PortState) (fault : Option PortFault) : Service Unit :=
  match fault.filter fun fault => fault.status ≠ .recovered with
  | none => .pure ()
  | some fault => do
      clearPortAlarm port fault.activationId
      let status ← clearedStatus fault
      send (.putHash (.portFault port.direction port.id) { fault with status := status })

def publishPortState (port : PortState) (affected : Nat) : Service Unit := do
  let previous : Option PortState ← send (.getHash (.portState port.direction port.id))
  publishPortChange port previous
  let fault : Option PortFault ← send (.getHash (.portFault port.direction port.id))
  if portUnavailable port then do
    let activation ← openPortFault port fault
    publishPortAlarm port activation affected
  else closePortFault port fault

def connectionPort (direction : PortDirection) (connection : AppliedConnection) : Nat :=
  match direction with
  | .input => connection.inputPort
  | .output => connection.outputPort

/-- The loop over the ports of one direction; the ports that are unavailable. -/
def pollDirection (direction : PortDirection) (actual : List AppliedConnection)
    (unavailable : List Nat) : List Nat → Service (List Nat)
  | [] => .pure unavailable
  | id :: rest => do
      let reply ← send (.getPortState direction id)
      let port ← readOrRaise reply
      publishPortState port
        (actual.countP fun connection => connectionPort port.direction connection = port.id)
      pollDirection direction actual
        (if portUnavailable port then unavailable ++ [id] else unavailable) rest

def portIds (count : Nat) : List Nat := (List.range count).map (· + 1)

def pollPortStates (info : DeviceInfo) (actual : List AppliedConnection) :
    Service (List AppliedConnection) := do
  let inputs ← pollDirection .input actual [] (portIds info.inputPortCount)
  let outputs ← pollDirection .output actual [] (portIds info.outputPortCount)
  .pure (actual.filter fun connection =>
    !inputs.contains connection.inputPort && !outputs.contains connection.outputPort)

/-! ## Device state -/

def publishDeviceState (generation count : Nat) (status : DeviceOperStatus) (error : Error) :
    Service Unit := do
  let now ← send .now
  send (.replaceHashAndAppendEvent .deviceState {
      operStatus := status
      deviceGeneration := generation
      actualConnectionCount := count
      lastErrorCode := if error.isOk then none else some error.code
      lastErrorMessage := error.message }
    { id := .device now, operation := .upsert, desiredVersion := 0 })

/-! ## Generation recovery -/

/-- The intent that the orchestrator last published for a connection. -/
def intendedCommand (snapshot : Application) : Except String ConnectionCommand :=
  match snapshot.operation with
  | .remove => .ok
      { operation := .remove, id := snapshot.id, desiredVersion := snapshot.desiredVersion }
  | .upsert =>
      if !validPort snapshot.inputPort then
        .error "device connection snapshot has invalid input_port"
      else if !validPort snapshot.outputPort then
        .error "device connection snapshot has invalid output_port"
      else .ok {
        id := snapshot.id
        inputPort := snapshot.inputPort
        outputPort := snapshot.outputPort
        desiredVersion := snapshot.desiredVersion }

/-- The state of an intended connection in a new generation; `none` removes it. -/
def refreshedState (command : ConnectionCommand) (found : Option AppliedConnection) :
    Option ConnectionState :=
  match command.operation, found with
  | .remove, none => none
  | _, some connection => some {
      id := command.id
      inputPort := connection.inputPort
      outputPort := connection.outputPort
      desiredVersion := command.desiredVersion
      appliedVersion := connection.appliedVersion
      actualPresent := true
      applyStatus := if intentMatches command found then .active else .failed
      lastErrorCode := if intentMatches command found then none else some .applyFailed
      lastErrorMessage :=
        if intentMatches command found then "" else "actual state differs after device restart" }
  | .upsert, none => some {
      id := command.id
      inputPort := command.inputPort
      outputPort := command.outputPort
      desiredVersion := command.desiredVersion
      appliedVersion := 0
      actualPresent := false
      applyStatus := .failed
      lastErrorCode := some .deviceNotReady
      lastErrorMessage := "actual state was lost when the device generation changed" }

/-- The state of a connection that no intent names. -/
def unexpectedState (connection : AppliedConnection) : ConnectionState where
  id := connection.id
  inputPort := connection.inputPort
  outputPort := connection.outputPort
  desiredVersion := connection.appliedVersion
  appliedVersion := connection.appliedVersion
  actualPresent := true
  applyStatus := .failed
  lastErrorCode := some .applyFailed
  lastErrorMessage := "unexpected actual state after device restart"

/-- Publish the state of a connection once for a generation. -/
def replaceGenerationState (generation : Nat) (id : String) (version : Nat) (before after : Bool)
    (state : Option ConnectionState) : Service Int := do
  let published ← send (.replaceStateOnce (.generationStatePublication generation id)
    (activeDelta before after) id state {
      id := .actual generation id
      operation := if state.isNone then .remove else .upsert
      desiredVersion := version
      connection := state })
  publishedDelta published (activeDelta before after)
    (send (.getHash (.generationStatePublication generation id)))

structure RecoveryScan where
  activeDelta : Int := 0
  commands : List ConnectionCommand := []
  remaining : List AppliedConnection

def refreshIntended (generation : Nat) (scan : RecoveryScan) :
    List String → Service RecoveryScan
  | [] => .pure scan
  | key :: rest => do
      let snapshot ← send (.getDevice key)
      match snapshot with
      | none => refreshIntended generation scan rest
      | some snapshot =>
          match intendedCommand snapshot with
          | .error message => raise (.invalidArgument message)
          | .ok command =>
              let found := scan.remaining.find? fun connection => connection.id = command.id
              let previous ← send (.getState command.id)
              let delta ← replaceGenerationState generation command.id command.desiredVersion
                (wasActive previous) found.isSome (refreshedState command found)
              refreshIntended generation {
                activeDelta := scan.activeDelta + delta
                commands := if intentMatches command found then scan.commands
                  else scan.commands ++ [command]
                remaining := scan.remaining.filter fun connection => connection.id ≠ command.id }
                rest

def refreshUnexpected (generation : Nat) (scan : RecoveryScan) :
    List AppliedConnection → Service RecoveryScan
  | [] => .pure scan
  | connection :: rest => do
      let previous ← send (.getState connection.id)
      let delta ← replaceGenerationState generation connection.id connection.appliedVersion
        (wasActive previous) true (some (unexpectedState connection))
      refreshUnexpected generation { scan with
        activeDelta := scan.activeDelta + delta
        commands := scan.commands ++ [removal connection] } rest

def maxVersion (commands : List ConnectionCommand) : Nat :=
  commands.foldl (fun version command => max version command.desiredVersion) 1

/-- The command of a recovery or a reconciliation. -/
def repairEvent (id : CommandId) (requestId : String) (info : DeviceInfo)
    (operation : CommandOperation) (desiredVersion : Nat) (batch : DeviceCommandBatch) :
    CommandEvent where
  id := id
  requestId := requestId
  device := info.name
  resourceId := match batch.commands with
    | [command] => command.id
    | _ => info.name
  operation := operation
  desiredVersion := desiredVersion
  payload := batch

def recoveryRequestId (info : DeviceInfo) : String :=
  "hwsim-recovery:" ++ info.name ++ ":" ++ toString info.generation

def publishRecovery (info : DeviceInfo) (commands : List ConnectionCommand) : Service Unit :=
  if commands = [] then do
    let _ ← send (.putHashIfAbsent (.generationRecovery info.generation) ⟨false, none⟩)
    .pure ()
  else do
    let command : CommandId := .recovery info.generation
    let batch : DeviceCommandBatch :=
      { commands := commands, options := { operationId := some command } }
    send (.putHash (.configBatch command) batch)
    let _ ← send (.appendCommandOnce (.generationRecovery info.generation) ⟨true, some command⟩
      (repairEvent command (recoveryRequestId info) info .generationRecovery
        (maxVersion commands) batch))
    .pure ()

def scheduleGenerationRecovery (info : DeviceInfo) (actual : List AppliedConnection) :
    Service Unit := do
  let scheduled : Option GenerationRecovery ←
    send (.getHash (.generationRecovery info.generation))
  match scheduled with
  | some _ => .pure ()
  | none =>
      let keys ← send .scanDevice
      let intended ← refreshIntended info.generation { remaining := actual } keys
      let scan ← refreshUnexpected info.generation intended intended.remaining
      let _ ← send (.incrementOnce (.generationCountersPublication info.generation) ()
        { increments := [(.activeConnections, scan.activeDelta)] })
      publishRecovery info (sortById (·.id) scan.commands)

/-! ## Reconciliation -/

def loadDesired (desired : List ConnectionCommand) :
    List String → Service (List ConnectionCommand)
  | [] => .pure desired
  | key :: rest => do
      let snapshot ← send (.getConfig key)
      match snapshot with
      | none => loadDesired desired rest
      | some config =>
          if config.connectionId = "" then
            raise (.invalidArgument "desired connection snapshot is missing identity or version")
          else if !validPort config.inputPort then
            raise (.invalidArgument "device connection snapshot has invalid input_port")
          else if !validPort config.outputPort then
            raise (.invalidArgument "device connection snapshot has invalid output_port")
          else loadDesired (desired ++ [{
            id := config.connectionId
            inputPort := config.inputPort
            outputPort := config.outputPort
            desiredVersion := config.desiredVersion }]) rest

def loadDesiredConnections : Service (List ConnectionCommand) := do
  let keys ← send .scanConfig
  loadDesired [] keys

/-- The loop over the published intents; `desired` is what is still to be met. -/
def settled (desired : List ConnectionCommand) : List String → Service Bool
  | [] => .pure desired.isEmpty
  | key :: rest => do
      let snapshot ← send (.getDevice key)
      match snapshot with
      | none => .pure false
      | some snapshot =>
          match desired.find? fun command => command.id = snapshot.id with
          | none =>
              if snapshot.operation = .remove ∧ snapshot.applyStatus = .failed then
                settled desired rest
              else .pure false
          | some command =>
              if (snapshot.applyStatus ≠ .active ∧ snapshot.applyStatus ≠ .failed) ∨
                  snapshot.desiredVersion ≠ command.desiredVersion then .pure false
              else if !validPort snapshot.inputPort then
                raise (.invalidArgument "device connection snapshot has invalid input_port")
              else if snapshot.inputPort ≠ command.inputPort then .pure false
              else if !validPort snapshot.outputPort then
                raise (.invalidArgument "device connection snapshot has invalid output_port")
              else if snapshot.outputPort ≠ command.outputPort then .pure false
              else settled (desired.filter fun command => command.id ≠ snapshot.id) rest

def orchestrationSettled (desired : List ConnectionCommand) : Service Bool := do
  let keys ← send .scanDevice
  settled desired keys

def mismatch (command : ConnectionCommand) (connection : AppliedConnection) : ConnectionDrift where
  id := command.id
  kind := .mismatched
  desired := command
  actual := connection

/-- The connections that converged but are recorded as failed. -/
def confirmedDrifts (actual : List AppliedConnection) (drifts : List ConnectionDrift) :
    List ConnectionCommand → Service (List ConnectionDrift)
  | [] => .pure drifts
  | command :: rest =>
      match actual.find? fun connection => connection.id = command.id with
      | none => confirmedDrifts actual drifts rest
      | some connection => do
          let device ← send (.getDevice command.id)
          let state ← send (.getState command.id)
          if (device.any fun snapshot => snapshot.applyStatus = .failed) || stateFailed state then
            confirmedDrifts actual (drifts ++ [mismatch command connection]) rest
          else confirmedDrifts actual drifts rest

/-- The removals that failed although the connection is gone. -/
def failedRemovals (desired : List ConnectionCommand) (actual : List AppliedConnection)
    (removals : List ConnectionCommand) : List String → Service (List ConnectionCommand)
  | [] => .pure removals
  | key :: rest => do
      let snapshot ← send (.getDevice key)
      match snapshot with
      | none => failedRemovals desired actual removals rest
      | some snapshot =>
          if (desired.any fun command => command.id = snapshot.id) ∨
              snapshot.operation ≠ .remove ∨ snapshot.applyStatus ≠ .failed ∨
              (actual.any fun connection => connection.id = snapshot.id) then
            failedRemovals desired actual removals rest
          else failedRemovals desired actual (removals ++ [{
            operation := .remove
            id := snapshot.id
            desiredVersion := snapshot.desiredVersion }]) rest

def missing (command : ConnectionCommand) : ConnectionDrift where
  id := command.id
  kind := .missing
  desired := command

/-- A converged plan is extended by what is still recorded as failed. -/
def confirmPlan (desired : List ConnectionCommand) (actual : List AppliedConnection)
    (plan : ReconciliationPlan) : Service (ReconciliationPlan × Bool) :=
  if !plan.converged then .pure (plan, false)
  else do
    let drifts ← confirmedDrifts actual [] desired
    let keys ← send .scanDevice
    let removals ← failedRemovals desired actual [] keys
    .pure ({
      fullSnapshot := { plan.fullSnapshot with
        commands := sortById (·.id) (plan.fullSnapshot.commands ++ removals) }
      drifts := sortById (·.id) (drifts ++ removals.map missing) },
      !(drifts ++ removals.map missing).isEmpty)

def portRecoveryRequired (faults : List ((PortDirection × Nat) × PortFault)) : Bool :=
  faults.any fun fault => fault.2.status = .cleared

def portDrifts (actual : List AppliedConnection) (drifts : List ConnectionDrift) :
    List ConnectionCommand → Service (List ConnectionDrift)
  | [] => .pure drifts
  | command :: rest => do
      let state ← send (.getState command.id)
      if !stateFailed state then portDrifts actual drifts rest
      else match actual.find? fun connection => connection.id = command.id with
        | none => portDrifts actual drifts rest
        | some connection => portDrifts actual (drifts ++ [mismatch command connection]) rest

def recoverFaults (faults : List ((PortDirection × Nat) × PortFault)) : Service Unit :=
  let recovered := (faults.filter fun fault => fault.2.status = .cleared).map fun fault =>
    portFaultEntry (fault.1, { fault.2 with status := .recovered })
  if recovered = [] then .pure () else send (.putHashesAtomically recovered)

/-- A converged plan after a port recovery is extended by what the port failure left failed. -/
def recoverPlan (desired : List ConnectionCommand) (actual : List AppliedConnection)
    (faults : List ((PortDirection × Nat) × PortFault)) (plan : ReconciliationPlan) :
    Service ReconciliationPlan :=
  if !plan.converged ∨ !portRecoveryRequired faults then .pure plan
  else do
    let drifts ← portDrifts actual [] desired
    if drifts.isEmpty then do
      recoverFaults faults
      .pure plan
    else .pure { plan with drifts := sortById (·.id) drifts }

def associatePortFaults (command : CommandId) : Service Unit := do
  let faults ← portFaults
  let updates := (faults.filter fun fault =>
    fault.2.status = .active || fault.2.status = .cleared).map fun fault =>
      portFaultEntry (fault.1,
        { fault.2 with status := .recoveryPublished, command := some command })
  if updates.isEmpty then .pure () else send (.putHashesAtomically updates)

def driftedState (drift : ConnectionDrift) : ConnectionState :=
  let present := decide (drift.kind ≠ .missing)
  { id := drift.id
    inputPort := if present then drift.actual.inputPort else drift.desired.inputPort
    outputPort := if present then drift.actual.outputPort else drift.desired.outputPort
    desiredVersion := drift.desired.desiredVersion
    appliedVersion := if present then drift.actual.appliedVersion else 0
    actualPresent := present
    applyStatus := .drifted
    lastErrorCode := some .applyFailed
    lastErrorMessage := "desired and actual connection state differ" }

def publishDrift (command : CommandId) (drift : ConnectionDrift)
    (previous : Option ConnectionState) : Service Int := do
  let drifted := driftedState drift
  let change := activeDelta (wasActive previous) drifted.actualPresent
  let published ← send (.replaceStateOnce
    (.reconciliationStatePublication command drift.id .drifted) change drift.id (some drifted) {
      id := .drifted command drift.id
      operation := .upsert
      desiredVersion := drifted.desiredVersion
      connection := some drifted })
  let delta ← publishedDelta published change
    (send (.getHash (.reconciliationStatePublication command drift.id .drifted)))
  let reconciling := { drifted with applyStatus := .reconciling }
  let _ ← send (.replaceStateOnce
    (.reconciliationStatePublication command drift.id .reconciling) (0 : Int) drift.id
    (some reconciling) {
      id := .reconciling command drift.id
      operation := .upsert
      desiredVersion := drifted.desiredVersion
      connection := some reconciling })
  .pure delta

/-- A connection that is recorded as failed keeps its record. -/
def recordedFailed (previous : Option ConnectionState) : Bool :=
  match previous with
  | some state => state.applyStatus = .failed || state.applyStatus = .retryWait
  | none => false

def publishDrifts (command : CommandId) (total : Int) : List ConnectionDrift → Service Int
  | [] => .pure total
  | drift :: rest => do
      let previous ← send (.getState drift.id)
      if recordedFailed previous then publishDrifts command total rest
      else do
        let delta ← publishDrift command drift previous
        publishDrifts command (total + delta) rest

def publishReconciliationState (plan : ReconciliationPlan) (command : CommandId) :
    Service Unit := do
  let delta ← publishDrifts command 0 plan.drifts
  let _ ← send (.incrementOnce (.reconciliationCountersPublication command) () { increments :=
    [(.activeConnections, delta), (.driftDetectedTotal, 1), (.reconciliationTotal, 1)] })
  .pure ()

def driftAlarm (command : CommandId) (desiredVersion count now : Nat) (active : Option Alarm) :
    Alarm where
  id := .desiredActualDrift
  desiredVersion := desiredVersion
  errorCode := .applyFailed
  errorMessage := "desired and actual connection matrices differ"
  activationId := match active with
    | some alarm => alarm.activationId
    | none => .drift command
  firstRaisedNs := match active with
    | some alarm => alarm.firstRaisedNs
    | none => now
  lastChangeNs := now
  count := count

def countDriftAlarm (marker : Option AlarmMarker) : Service Unit :=
  match marker with
  | none => raise (.runtimeError "map::at")
  | some marker =>
      if marker.activated then countAlarm marker.activationId false [(.activeAlarms, 1)]
      else .pure ()

def publishDriftAlarm (command : CommandId) (desiredVersion count : Nat) : Service Unit := do
  let marker : Option AlarmMarker ← send (.getHash (.driftAlarmPublication command))
  match marker with
  | some marker => countDriftAlarm (some marker)
  | none =>
      let active : Option Alarm ← send (.getHash (.activeAlarm .desiredActualDrift))
      let now ← send .now
      let alarm := driftAlarm command desiredVersion count now active
      let _ ← send (.replaceAlarmOnce (.driftAlarmPublication command)
        ⟨desiredVersion, alarm.activationId, active.isNone⟩ .desiredActualDrift (some alarm)
        ⟨alarm, .upsert⟩)
      let marker : Option AlarmMarker ← send (.getHash (.driftAlarmPublication command))
      countDriftAlarm marker

def countClearedDriftAlarm (marker : Option AlarmMarker) : Service Unit :=
  match marker with
  | none => raise (.runtimeError "map::at")
  | some marker => countAlarm marker.activationId true [(.activeAlarms, -1)]

def clearDriftAlarm (command : CommandId) (desiredVersion : Nat) : Service Unit := do
  let marker : Option AlarmMarker ← send (.getHash (.driftAlarmClearPublication command))
  let active : Option Alarm ← send (.getHash (.activeAlarm .desiredActualDrift))
  match marker, active with
  | none, none => .pure ()
  | some marker, _ => countClearedDriftAlarm (some marker)
  | none, some alarm =>
      let now ← send .now
      let _ ← send (.replaceAlarmOnce (.driftAlarmClearPublication command)
        ⟨desiredVersion, alarm.activationId, false⟩ .desiredActualDrift none
        ⟨{ alarm with active := false, lastChangeNs := now }, .remove⟩)
      let marker : Option AlarmMarker ← send (.getHash (.driftAlarmClearPublication command))
      countClearedDriftAlarm marker

def convergeControl (control : Option ReconciliationControl) : Service Unit :=
  match control with
  | none => .pure ()
  | some control =>
      if control.status = .converged then .pure ()
      else do
        clearDriftAlarm control.command control.desiredVersion
        send (.putHash .reconciliation { control with status := .converged })

/-- A failed reconciliation that a new reason opens again. -/
def reopens (portRecovery stateRecovery : Bool) (control : ReconciliationControl) : Bool :=
  control.status = .failed &&
    (portRecovery || (stateRecovery && control.reason ≠ .confirmedStateRecovery))

/-- An open reconciliation of the same snapshot. -/
def openControl (portRecovery stateRecovery : Bool) (signature : DeviceCommandBatch)
    (control : Option ReconciliationControl) : Option ReconciliationControl :=
  control.filter fun control => !reopens portRecovery stateRecovery control &&
    decide (control.signature = signature) && decide (control.status ≠ .converged)

def reconciliationReason (portRecovery stateRecovery : Bool) : ReconciliationReason :=
  if portRecovery then .portRecovery
  else if stateRecovery then .confirmedStateRecovery
  else .desiredActualDrift

def reconciliationRequestId (info : DeviceInfo) (control : ReconciliationControl) : String :=
  "reconcile:" ++ info.name ++ ":" ++ toString control.openedNs

def publishReconciliation (info : DeviceInfo) (plan : ReconciliationPlan)
    (control : ReconciliationControl) : Service Unit := do
  associatePortFaults control.command
  publishReconciliationState plan control.command
  publishDriftAlarm control.command control.desiredVersion plan.drifts.length
  let batch : DeviceCommandBatch := { plan.fullSnapshot with
    options := { plan.fullSnapshot.options with operationId := some control.command } }
  send (.putHash (.configBatch control.command) batch)
  let _ ← send (.appendCommandOnce (.reconciliationCommandPublication control.command) ()
    (repairEvent control.command (reconciliationRequestId info control) info .reconcile
      control.desiredVersion batch))
  send (.putHash .reconciliation { control with status := .published })

def openReconciliation (info : DeviceInfo) (plan : ReconciliationPlan)
    (portRecovery stateRecovery : Bool) (control : Option ReconciliationControl) :
    Service Unit :=
  match openControl portRecovery stateRecovery plan.fullSnapshot control with
  | some control =>
      if control.status ≠ .publishing then .pure ()
      else publishReconciliation info plan control
  | none => do
      let now ← send .now
      let control : ReconciliationControl := {
        openedNs := now
        desiredVersion := maxVersion plan.fullSnapshot.commands
        signature := plan.fullSnapshot
        reason := reconciliationReason portRecovery stateRecovery
        status := .publishing }
      send (.putHash .reconciliation control)
      publishReconciliation info plan control

def reconcilePlan (info : DeviceInfo) (desired : List ConnectionCommand)
    (actual : List AppliedConnection) (plan : ReconciliationPlan) : Service Unit := do
  let confirmed ← confirmPlan desired actual plan
  let faults ← portFaults
  let recovered ← recoverPlan desired actual faults confirmed.1
  let control : Option ReconciliationControl ← send (.getHash .reconciliation)
  if recovered.converged then convergeControl control
  else openReconciliation info recovered (portRecoveryRequired faults) confirmed.2 control

def reconcileDevice (info : DeviceInfo) (actual : List AppliedConnection) : Service Unit := do
  let desired ← loadDesiredConnections
  let isSettled ← orchestrationSettled desired
  if !isSettled then .pure ()
  else match buildReconciliationPlan desired actual with
    | .error message => raise (.invalidArgument message)
    | .ok plan => reconcilePlan info desired actual plan

/-! ## Polling -/

/-- The recovery of this generation was published and is not processed. -/
def recoveryPending (recovery : Option GenerationRecovery) : Service Bool :=
  match recovery with
  | some ⟨true, some command⟩ => do
      let processed : Option Bool ← send (.getHash (.processedCommand command))
      .pure processed.isNone
  | _ => .pure false

def reconcileUnlessRecovering (info : DeviceInfo) (effective : List AppliedConnection) :
    Service Unit := do
  let recovery : Option GenerationRecovery ← send (.getHash (.generationRecovery info.generation))
  let pending ← recoveryPending recovery
  if pending then .pure () else reconcileDevice info effective

/-- The device state is published when something in it changed. -/
def refreshDeviceState (info : DeviceInfo) (count : Nat) (state : Option DeviceStateHash) :
    Service Unit :=
  match state with
  | some state =>
      if state.deviceGeneration = info.generation ∧ state.actualConnectionCount = count ∧
          state.operStatus = .ready then .pure ()
      else publishDeviceState info.generation count .ready Error.success
  | none => publishDeviceState info.generation count .ready Error.success

def sameGeneration (info : DeviceInfo) (state : Option DeviceStateHash) : Bool :=
  match state with
  | some state => decide (state.deviceGeneration = info.generation)
  | none => false

def refreshConnections (info : DeviceInfo) (actual effective : List AppliedConnection)
    (state : Option DeviceStateHash) : Service Unit :=
  if sameGeneration info state then reconcileUnlessRecovering info effective
  else scheduleGenerationRecovery info actual

def pollConnected : Service Bool := do
  let reply ← send .getDeviceInfo
  let info ← readOrRaise reply
  let memory ← send .readMemory
  if memory.1 ≠ "" ∧ info.name ≠ memory.1 then
    raise (.runtimeError "connected device identity changed after handshake")
  else
    let reply ← send .getConnections
    let actual ← readOrRaise reply
    let effective ← pollPortStates info actual
    let state : Option DeviceStateHash ← send (.getHash .deviceState)
    let _ ← send (.remember info.name info.generation)
    refreshConnections info actual effective state
    refreshDeviceState info actual.length state
    .pure true

def publishUnavailable (generation : Nat) (message : String) (state : Option DeviceStateHash) :
    Service Unit :=
  match state with
  | some ⟨.failed, _, _, _, _⟩ => .pure ()
  | some state => publishDeviceState generation state.actualConnectionCount .failed
      ⟨.deviceNotReady, message⟩
  | none => publishDeviceState generation 0 .failed ⟨.deviceNotReady, message⟩

def errorText : Raised → String
  | .invalidTransition _ => "invalid connection state transition"
  | .newerResult => "device result version is newer than application state"
  | .invalidArgument message => message
  | .runtimeError message => message

def pollFailed (error : Raised) : Service Bool := do
  let memory ← send .readMemory
  if memory.1 = "" then .pure false
  else
    let state : Option DeviceStateHash ← send (.getHash .deviceState)
    publishUnavailable memory.2 (errorText error) state
    .pure false

def pollDevice : Service Bool := pollConnected.tryCatch pollFailed

/-- A missing device state is only stored; another generation is recovered first. -/
def initializeDeviceState (info : DeviceInfo) (actual : List AppliedConnection)
    (state : Option DeviceStateHash) : Service Unit :=
  match state with
  | none => send (.putHash .deviceState {
      operStatus := .ready
      deviceGeneration := info.generation
      actualConnectionCount := actual.length })
  | some state =>
      if state.deviceGeneration ≠ info.generation then do
        scheduleGenerationRecovery info actual
        publishDeviceState info.generation actual.length .ready Error.success
      else if state.operStatus ≠ .ready then
        publishDeviceState info.generation actual.length .ready Error.success
      else .pure ()

/-- The start of the process. Nothing between the handshake and the end reads the memory of
the process, so it is set at the end. -/
def initializeService : Service Bool := do
  let reply ← send .getDeviceInfo
  let info ← readOrRaise reply
  let reply ← send .getConnections
  let actual ← readOrRaise reply
  let _ ← pollPortStates info actual
  let state : Option DeviceStateHash ← send (.getHash .deviceState)
  initializeDeviceState info actual state
  let _ ← send (.remember info.name info.generation)
  .pure true

/-- What is lost with the process. -/
def forget (w : World) : World :=
  w.setSyncd { w.syncd with deviceName := "", deviceGeneration := 0 }

end MiniOcs.Syncd
