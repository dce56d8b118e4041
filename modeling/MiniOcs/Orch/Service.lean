import MiniOcs.World

/-!
# The orchestrator

`OrchestratorService`: the handlers of the configuration, result and retry streams. Each is
a program over the Redis operations it sends, cut anywhere by a crash.
-/
namespace MiniOcs.Orch
open Concurrent

structure ApplyRetryPolicy where
  maxRetries : Nat := 3
  baseBackoffMs : Nat := 100
  maxBackoffMs : Nat := 5000
  deriving DecidableEq, Repr

/-- The checks of the constructor on the policy. -/
def ApplyRetryPolicy.supported (policy : ApplyRetryPolicy) : Bool :=
  decide (policy.maxRetries ≤ 100) && decide (policy.baseBackoffMs ≤ policy.maxBackoffMs) &&
    decide (policy.maxBackoffMs ≤ 3600000)

def currentStatus (application : Option Application) : ConnectionApplyStatus :=
  match application with
  | some a => a.applyStatus
  | none => .absent

def currentVersion (application : Option Application) : Nat :=
  match application with
  | some a => a.desiredVersion
  | none => 0

/-- `claimPending` for one entry, then `readGroupIfNoPending`. -/
def nextMessage (g : OrchGroup) : Service (Option (Nat × g.Entry)) := do
  let candidate ← send (.xpending g)
  match candidate with
  | none => send (.readGroup g)
  | some n =>
      let claimed ← send (.xclaim g n)
      match claimed with
      | some event => .pure (some (n, event))
      | none => send (.readGroup g)

def acknowledge (g : OrchGroup) (n : Nat) : Service Bool := do
  let _ ← send (.xack g n)
  .pure true

/-- A versioned publication. -/
def publish (copy : Copy) (marker : OrchKey) (fields : OrchHash marker) (version : Nat)
    (hashes : List (String × Option Application)) : Service Unit := do
  let published ← send (.putVersionedHashes copy marker fields version hashes)
  match published with
  | some _ => .pure ()
  | none => raise (.invalidArgument "versioned Redis hash does not match marker desired_version")

def require (source target : ConnectionApplyStatus) : Service Unit :=
  match requireTransition source target with
  | .ok () => .pure ()
  | .error e => raise (.invalidTransition e)

/-! ## Configuration events -/

def decodeConfigBatchEvent (event : Gnmi.ConfigEvent) : Except String DeviceCommandBatch :=
  if event.desiredVersion = 0 then .error "connection batch desired version must be positive"
  else match decodeDeviceCommand { commands := event.commands } with
    | .error e => .error e
    | .ok batch =>
        if batch.commands.all fun c => c.desiredVersion = event.desiredVersion then .ok batch
        else .error "connection batch has inconsistent desired versions"

/-- The loop over the batch of a new event: `none` for a stale batch. -/
def selectCommands (selected : List ConnectionCommand) :
    List ConnectionCommand → Service (Option (List ConnectionCommand))
  | [] => .pure (some selected)
  | command :: rest => do
      let existing ← send (.getAppl command.id)
      if command.desiredVersion ≤ currentVersion existing then .pure none
      else if command.operation = .remove ∧ existing.isNone then selectCommands selected rest
      else selectCommands (selected ++ [command]) rest

def configCommandId (event : Gnmi.ConfigEvent) : CommandId := .config event.eventId

/-- The hash of a member, once its transition to execution was accepted. -/
def configApplication (event : Gnmi.ConfigEvent) (command : ConnectionCommand) : Application where
  device := event.device
  id := command.id
  inputPort := command.inputPort
  outputPort := command.outputPort
  desiredVersion := command.desiredVersion
  applyStatus := executing command.operation
  operation := command.operation
  requestId := toString event.requestId
  eventId := event.eventId
  commandId := configCommandId event
  retryAttempt := 0
  nextRetryAtNs := none
  failedCommandId := none
  lastErrorCode := none
  lastErrorMessage := ""

def configHashes (event : Gnmi.ConfigEvent) (commands : List ConnectionCommand) :
    List (String × Option Application) :=
  commands.map fun command => (command.id, some (configApplication event command))

def configApplications (event : Gnmi.ConfigEvent) (hashes : List (String × Option Application)) :
    List ConnectionCommand → Service (List (String × Option Application))
  | [] => .pure hashes
  | command :: rest => do
      let existing ← send (.getAppl command.id)
      match startApplyTransition (currentStatus existing) command.operation with
      | .error e => raise (.invalidTransition e)
      | .ok status => configApplications event (hashes ++
          [(command.id, some { configApplication event command with applyStatus := status })]) rest

def commandOperation (commands : List ConnectionCommand) : CommandOperation :=
  match commands with
  | [command] => match command.operation with
    | .remove => .remove
    | .upsert => .upsert
  | _ => .applyBatch

def batchResourceId (requestId : String) (commands : List ConnectionCommand) : String :=
  match commands with
  | [command] => command.id
  | _ => requestId

def configCommandEvent (event : Gnmi.ConfigEvent) (batch : DeviceCommandBatch) : CommandEvent where
  id := configCommandId event
  requestId := toString event.requestId
  device := event.device
  resourceId := batchResourceId (toString event.requestId) batch.commands
  operation := commandOperation batch.commands
  desiredVersion := event.desiredVersion
  payload := batch

/-- The phases after the batch is prepared. -/
def publishConfig (n : Nat) (event : Gnmi.ConfigEvent) (batch : DeviceCommandBatch) :
    Service Bool := do
  let hashes ← configApplications event [] batch.commands
  publish .appl (.applicationPublication event.eventId) () event.desiredVersion hashes
  publish .device (.deviceStatePublication event.eventId) () event.desiredVersion hashes
  let _ ← send (.appendCommandOnce (.deviceCommandPublication event.eventId) ()
    (configCommandEvent event batch))
  acknowledge .config n

def resumePrepared (n : Nat) (event : Gnmi.ConfigEvent) (prepared : Option DeviceCommandBatch) :
    Service Bool :=
  match prepared with
  | none => raise (.runtimeError "map::at")
  | some payload =>
      match decodeDeviceCommand payload with
      | .error message => raise (.invalidArgument message)
      | .ok batch => publishConfig n event batch

def prepareConfig (n : Nat) (event : Gnmi.ConfigEvent) (decoded : DeviceCommandBatch) :
    Service Bool := do
  let selected ← selectCommands [] decoded.commands
  match selected with
  | none => acknowledge .config n
  | some [] => acknowledge .config n
  | some (command :: rest) =>
      let _ ← send (.putHashIfAbsent (.configBatch (configCommandId event))
        { decoded with commands := command :: rest })
      let prepared ← send (.getHash (.configBatch (configCommandId event)))
      resumePrepared n event prepared

def handleConfig (n : Nat) (event : Gnmi.ConfigEvent) : Service Bool := do
  let published ← send (.getHash (.deviceCommandPublication event.eventId))
  match published with
  | some _ => acknowledge .config n
  | none =>
      let prepared ← send (.getHash (.configBatch (configCommandId event)))
      match prepared with
      | some _ => resumePrepared n event prepared
      | none =>
          match decodeConfigBatchEvent event with
          | .error message => raise (.invalidArgument message)
          | .ok decoded => prepareConfig n event decoded

def processConfigOne : Service Bool := do
  let message ← nextMessage .config
  match message with
  | none => .pure false
  | some (n, event) => handleConfig n event

/-! ## Alarms -/

def countRaisedAlarm (connection : String) (marker : Option AlarmMarker) : Service Unit :=
  match marker with
  | none => raise (.runtimeError "map::at")
  | some marker =>
      if marker.activated then do
        let _ ← send (.incrementOnce
          (.alarmCounterPublication connection marker.activationId false) () [(.activeAlarms, 1)])
        .pure ()
      else .pure ()

def raisedAlarm (result : ResultEvent) (activation : ActivationId) (connection message : String)
    (active : Option Alarm) (now : Nat) : Alarm where
  id := .applyTimeout connection
  desiredVersion := result.desiredVersion
  errorCode := .applyTimeout
  errorMessage := message
  activationId := match active with
    | some alarm => alarm.activationId
    | none => activation
  firstRaisedNs := match active with
    | some alarm => alarm.firstRaisedNs
    | none => now
  lastChangeNs := now

def publishTimeoutAlarm (result : ResultEvent) (command : CommandId) (connection : String)
    (message : String) : Service Unit := do
  let activation : ActivationId := .timeout command connection
  let published ← send (.getHash (.alarmPublication activation))
  let active : Option Alarm ← send (.getHash (.activeAlarm connection))
  match published with
  | some marker => countRaisedAlarm connection (some marker)
  | none =>
      let now ← send .now
      let alarm := raisedAlarm result activation connection message active now
      let _ ← send (.replaceAlarmOnce (.alarmPublication activation)
        ⟨result.desiredVersion, alarm.activationId, active.isNone⟩ connection (some alarm)
        ⟨alarm, .upsert⟩)
      let marker ← send (.getHash (.alarmPublication activation))
      countRaisedAlarm connection marker

def countClearedAlarm (connection : String) (marker : Option AlarmMarker) : Service Unit :=
  match marker with
  | none => raise (.runtimeError "map::at")
  | some marker => do
      let _ ← send (.incrementOnce
        (.alarmCounterPublication connection marker.activationId true) () [(.activeAlarms, -1)])
      .pure ()

def clearTimeoutAlarm (result : ResultEvent) : Service Unit := do
  let published : Option AlarmMarker ← send (.getHash (.alarmClearPublication result.id))
  let active : Option Alarm ← send (.getHash (.activeAlarm result.resourceId))
  match published, active with
  | none, none => .pure ()
  | some marker, _ => countClearedAlarm result.resourceId (some marker)
  | none, some alarm =>
      let now ← send .now
      let _ ← send (.replaceAlarmOnce (.alarmClearPublication result.id)
        ⟨alarm.desiredVersion, alarm.activationId, false⟩ result.resourceId none
        ⟨{ alarm with active := false, lastChangeNs := now }, .remove⟩)
      let marker ← send (.getHash (.alarmClearPublication result.id))
      countClearedAlarm result.resourceId marker

/-! ## Device results -/

/-- Results of generation recovery and reconciliation commands. -/
def isRecovery (result : ResultEvent) : Bool :=
  result.commandId.isGenerationRecovery || result.id.command.isGenerationRecovery ||
    result.commandId.isReconciliation || result.id.command.isReconciliation

inductive ResultDecision where
  | stale
  | newer
  | invalid (transition : InvalidTransition)
  | publish (next : ConnectionApplyStatus)
  deriving DecidableEq, Repr

/-- The status a result leads to. -/
def resultStatus (result : ResultEvent) (application : Application) : ConnectionApplyStatus :=
  if result.success then
    if application.applyStatus = .removing ∨
        (isRecovery result ∧ application.operation = .remove) then .absent
    else .active
  else .failed

def recoveringFailed (result : ResultEvent) (current : ConnectionApplyStatus) : Bool :=
  isRecovery result && result.success && (current = .failed || current = .retryWait)

/-- The transitions that a result requires. -/
def resultChecks (result : ResultEvent) (current next : ConnectionApplyStatus) :
    Except InvalidTransition Unit :=
  if recoveringFailed result current then
    let executing : ConnectionApplyStatus := if next = .absent then .removing else .applying
    requireBoth (if current = .failed then requireTransition current .retryWait else .ok ())
      (requireBoth (requireTransition .retryWait executing) (requireTransition executing next))
  else requireTransition current next

def resultDecision (result : ResultEvent) (application : Application) : ResultDecision :=
  let current := application.applyStatus
  if result.desiredVersion ≤ application.desiredVersion ∧
      (result.desiredVersion < application.desiredVersion ∨ current = .active ∨
        current = .absent ∨ (current = .failed ∧ recoveringFailed result current = false)) then .stale
  else if application.desiredVersion < result.desiredVersion then .newer
  else
    let next := resultStatus result application
    match resultChecks result current next with
    | .error e => .invalid e
    | .ok () => .publish next

def resultApplication (result : ResultEvent) (next : ConnectionApplyStatus)
    (application : Application) : Application :=
  let updated : Application := { application with
    applyStatus := next
    lastErrorCode := if next = .absent then none else some result.errorCode
    lastErrorMessage := if next = .absent then "" else result.errorMessage }
  if result.success then
    { updated with retryAttempt := 0, nextRetryAtNs := none, failedCommandId := none }
  else updated

def resultDeviceHash (result : ResultEvent) (next : ConnectionApplyStatus)
    (application : Application) : Option Application :=
  if next = .absent then none else some (resultApplication result next application)

def clearAfterSuccess (result : ResultEvent) : Service Unit :=
  if result.success then clearTimeoutAlarm result else .pure ()

def publishResult (n : Nat) (result : ResultEvent) (application : Application)
    (next : ConnectionApplyStatus) : Service Bool := do
  publish .device (.resultDevicePublication result.id) () result.desiredVersion
    [(result.resourceId, resultDeviceHash result next application)]
  publish .appl (.resultApplicationPublication result.id) () result.desiredVersion
    [(result.resourceId, some (resultApplication result next application))]
  clearAfterSuccess result
  acknowledge .results n

def settleResult (n : Nat) (result : ResultEvent) : Service Bool := do
  let existing ← send (.getAppl result.resourceId)
  match existing with
  | none => acknowledge .results n
  | some application =>
      match resultDecision result application with
      | .stale => acknowledge .results n
      | .newer => raise .newerResult
      | .invalid e => raise (.invalidTransition e)
      | .publish next => publishResult n result application next

def handleResult (n : Nat) (result : ResultEvent) : Service Bool := do
  let application ← send (.getHash (.resultApplicationPublication result.id))
  match application with
  | none => settleResult n result
  | some _ =>
      let device ← send (.getHash (.resultDevicePublication result.id))
      match device with
      | none => settleResult n result
      | some _ =>
          clearAfterSuccess result
          acknowledge .results n

/-! ## Timeouts -/

/-- The doubling loop of `retryAtNs`. -/
def backoff (policy : ApplyRetryPolicy) : Nat → Nat → Nat
  | 0, delay => delay
  | rounds + 1, delay =>
      if delay = 0 then delay
      else if policy.maxBackoffMs / 2 ≤ delay then policy.maxBackoffMs
      else backoff policy rounds (delay * 2)

def retryAtNs (policy : ApplyRetryPolicy) (nowNs retryAttempt : Nat) : Nat :=
  nowNs + min (backoff policy (retryAttempt - 1) policy.baseBackoffMs) policy.maxBackoffMs * 1000000

/-- What a first timeout of a command decides for the batch, from its first member. -/
def timeoutMetadata (policy : ApplyRetryPolicy) (result : ResultEvent) (nowNs : Nat)
    (first : Application) : TimeoutMetadata :=
  if first.retryAttempt < policy.maxRetries then {
    desiredVersion := result.desiredVersion
    retryAttempt := first.retryAttempt + 1
    nextRetryAtNs := retryAtNs policy nowNs (first.retryAttempt + 1)
    applyStatus := .retryWait
    retryScheduled := true }
  else {
    desiredVersion := result.desiredVersion
    retryAttempt := first.retryAttempt
    nextRetryAtNs := 0
    applyStatus := .failed
    retryScheduled := false }

def timeoutApplication (result : ResultEvent) (metadata : TimeoutMetadata)
    (application : Application) : Application :=
  { application with
    applyStatus := metadata.applyStatus
    retryAttempt := metadata.retryAttempt
    nextRetryAtNs := some metadata.nextRetryAtNs
    failedCommandId := some result.commandId
    lastErrorCode := some .applyTimeout
    lastErrorMessage := result.errorMessage }

/-- The application is still executing this command at this version. -/
def isCurrent (version : Nat) (command : CommandId) (application : Option Application) : Bool :=
  match application with
  | some a => decide (a.desiredVersion = version) && decide (a.commandId = command)
  | none => false

/-- The loop that reads the batch: `none` where a member is superseded. -/
def timeoutApplications (result : ResultEvent) (metadata : TimeoutMetadata)
    (hashes : List (String × Option Application)) :
    List ConnectionCommand → Service (Option (List (String × Option Application)))
  | [] => .pure (some hashes)
  | command :: rest => do
      let existing ← send (.getAppl command.id)
      match existing with
      | none => .pure none
      | some application =>
          if isCurrent command.desiredVersion result.commandId (some application) then
            timeoutApplications result metadata (hashes ++
              [(command.id, some (timeoutApplication result metadata application))]) rest
          else .pure none

def raiseTimeoutAlarms (result : ResultEvent) : List ConnectionCommand → Service Unit
  | [] => .pure ()
  | command :: rest => do
      publishTimeoutAlarm result result.commandId command.id result.errorMessage
      raiseTimeoutAlarms result rest

def retryEvent (result : ResultEvent) (batch : DeviceCommandBatch) (metadata : TimeoutMetadata) :
    RetryEvent where
  id := ⟨result.commandId, metadata.retryAttempt⟩
  requestId := result.requestId
  device := result.device
  resourceId := batchResourceId result.requestId batch.commands
  desiredVersion := result.desiredVersion
  batch := batch
  notBeforeNs := metadata.nextRetryAtNs

def scheduleRetry (result : ResultEvent) (batch : DeviceCommandBatch)
    (metadata : TimeoutMetadata) : Service Unit :=
  if metadata.retryScheduled then do
    let _ ← send (.appendRetryOnce (.retryPublication result.commandId) ()
      (retryEvent result batch metadata))
    .pure ()
  else .pure ()

def publishTimeout (result : ResultEvent) (batch : DeviceCommandBatch)
    (metadata : TimeoutMetadata) : Service Unit := do
  let applications ← timeoutApplications result metadata [] batch.commands
  match applications with
  | none => .pure ()
  | some hashes => do
      publish .device (.timeoutDevicePublication result.commandId) metadata
        metadata.desiredVersion hashes
      publish .appl (.timeoutApplicationPublication result.commandId) metadata
        metadata.desiredVersion hashes
      raiseTimeoutAlarms result batch.commands
      scheduleRetry result batch metadata

/-- The metadata of a timeout that was not seen before; `none` if the first member is not
executing the command any more. -/
def firstTimeout (policy : ApplyRetryPolicy) (result : ResultEvent) (first : Option Application) :
    Service (Option TimeoutMetadata) :=
  match first with
  | none => .pure none
  | some application =>
      if !isCurrent result.desiredVersion result.commandId (some application) then .pure none
      else if application.applyStatus ≠ .applying ∧ application.applyStatus ≠ .removing then
        .pure none
      else do
        require application.applyStatus .failed
        if application.retryAttempt < policy.maxRetries then
          require .failed .retryWait
          let now ← send .now
          .pure (some (timeoutMetadata policy result now application))
        else .pure (some (timeoutMetadata policy result 0 application))

def handleTimeout (policy : ApplyRetryPolicy) (result : ResultEvent) (batch : DeviceCommandBatch)
    (front : ConnectionCommand) : Service Unit := do
  let published : Option TimeoutMetadata ←
    send (.getHash (.timeoutApplicationPublication result.commandId))
  match published with
  | some metadata => publishTimeout result batch metadata
  | none =>
      let published : Option TimeoutMetadata ←
        send (.getHash (.timeoutDevicePublication result.commandId))
      match published with
      | some metadata => publishTimeout result batch metadata
      | none =>
          let first ← send (.getAppl front.id)
          let metadata ← firstTimeout policy result first
          match metadata with
          | none => .pure ()
          | some metadata => publishTimeout result batch metadata

def handleTimeoutResult (policy : ApplyRetryPolicy) (result : ResultEvent) : Service Unit := do
  let attempt ← send (.getAttempt result.commandId)
  match attempt with
  | none => .pure ()
  | some payload =>
      match decodeDeviceCommand payload with
      | .error _ => .pure ()
      | .ok batch =>
          match batch.commands with
          | [] => .pure ()
          | front :: _ => handleTimeout policy result batch front

def isTimeout (result : ResultEvent) : Bool :=
  !result.success && decide (result.errorCode = .applyTimeout)

def processResultOne (policy : ApplyRetryPolicy) : Service Bool := do
  let message ← nextMessage .results
  match message with
  | none => .pure false
  | some (n, result) =>
      if isTimeout result then
        handleTimeoutResult policy result
        acknowledge .results n
      else handleResult n result

/-! ## Retries -/

/-- The application of a member when its retry is executed. -/
def retryApplication (retry : RetryEvent) (started : Bool) (command : ConnectionCommand)
    (application : Application) : Application :=
  { application with
    applyStatus := if started then application.applyStatus else executing command.operation
    commandId := retry.id.command
    retryAttempt := retry.id.attempt
    nextRetryAtNs := none
    failedCommandId := some retry.id.failed }

def isCurrentRetry (retry : RetryEvent) (started : Bool) (command : ConnectionCommand)
    (application : Option Application) : Bool :=
  (isCurrent command.desiredVersion retry.id.failed application ||
      (started && isCurrent command.desiredVersion retry.id.command application)) &&
    (started || decide (currentStatus application = .retryWait))

/-- The loop that reads the batch: `none` where the retry is obsolete. -/
def retryApplications (retry : RetryEvent) (started : Bool)
    (hashes : List (String × Option Application)) :
    List ConnectionCommand → Service (Option (List (String × Option Application)))
  | [] => .pure (some hashes)
  | command :: rest => do
      let existing ← send (.getAppl command.id)
      match existing with
      | none => .pure none
      | some application =>
          if isCurrentRetry retry started command (some application) then do
            if started then .pure () else require .retryWait (executing command.operation)
            retryApplications retry started (hashes ++
              [(command.id, some (retryApplication retry started command application))]) rest
          else .pure none

def retryCommandEvent (retry : RetryEvent) (batch : DeviceCommandBatch) : CommandEvent where
  id := retry.id.command
  requestId := retry.requestId
  device := retry.device
  resourceId := retry.resourceId
  operation := commandOperation batch.commands
  desiredVersion := retry.desiredVersion
  payload := batch

def publishRetry (n : Nat) (retry : RetryEvent) (batch : DeviceCommandBatch) (started : Bool) :
    Service Bool := do
  let applications ← retryApplications retry started [] batch.commands
  match applications with
  | none => acknowledge .retries n
  | some hashes =>
      publish .appl (.retryApplicationPublication retry.id) () retry.desiredVersion hashes
      publish .device (.retryDevicePublication retry.id) () retry.desiredVersion hashes
      let _ ← send (.putHashIfAbsent (.configBatch retry.id.command) batch)
      let _ ← send (.appendCommandOnce (.retryCommandPublication retry.id) ()
        (retryCommandEvent retry batch))
      acknowledge .retries n

def handleRetry (n : Nat) (retry : RetryEvent) : Service Bool := do
  let now ← send .now
  if now < retry.notBeforeNs then .pure false
  else
    match decodeDeviceCommand retry.batch with
    | .error message => raise (.invalidArgument message)
    | .ok batch =>
        let published ← send (.getHash (.retryCommandPublication retry.id))
        match published with
        | some _ => acknowledge .retries n
        | none =>
            let application ← send (.getHash (.retryApplicationPublication retry.id))
            match application with
            | some _ => publishRetry n retry batch true
            | none =>
                let device ← send (.getHash (.retryDevicePublication retry.id))
                publishRetry n retry batch device.isSome

def processRetryOne : Service Bool := do
  let message ← nextMessage .retries
  match message with
  | none => .pure false
  | some (n, retry) => handleRetry n retry

end MiniOcs.Orch
