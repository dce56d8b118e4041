import MiniOcs.Orch.Service

/-!
# What the orchestrator does to the world

Every call of a handler is one of the actions below: a read, a piece of alarm bookkeeping, or
one phase of one entry, under the facts that hold when a single orchestrator reaches that
phase. The published hashes are functions of the tables at that moment.
-/
namespace MiniOcs.Orch
open Std Concurrent

/-- The entry is delivered and not acknowledged. -/
structure Pending (w : World) (g : OrchGroup) (n : Nat) (event : g.Entry) : Prop where
  mem : n ∈ (w.orch.group g).pending
  get : (w.stream g)[n]? = some event

/-! ## The loops as functions of a table -/

/-- The members of a new batch that are applied; `none` for a stale batch. -/
def selection (table : Table) (selected : List ConnectionCommand) :
    List ConnectionCommand → Option (List ConnectionCommand)
  | [] => some selected
  | command :: rest =>
      if command.desiredVersion ≤ currentVersion table[command.id]? then none
      else if command.operation = .remove ∧ table[command.id]?.isNone then
        selection table selected rest
      else selection table (selected ++ [command]) rest

def timeoutHashes (table : Table) (result : ResultEvent) (metadata : TimeoutMetadata)
    (commands : List ConnectionCommand) : List (String × Option Application) :=
  commands.map fun c => (c.id, (table[c.id]?).map (timeoutApplication result metadata))

def retryHashes (table : Table) (retry : RetryEvent) (started : Bool)
    (commands : List ConnectionCommand) : List (String × Option Application) :=
  commands.map fun c => (c.id, (table[c.id]?).map (retryApplication retry started c))

/-! ## Where a handler stands -/

/-- A configuration event whose batch is prepared and whose command is not published. -/
structure ConfigRun (w : World) (n : Nat) (event : Gnmi.ConfigEvent) (batch : DeviceCommandBatch) :
    Prop where
  pending : Pending w .config n event
  unpublished : w.orch.hash (.deviceCommandPublication event.eventId) = none
  prepared : ∃ payload : DeviceCommandBatch,
    w.orch.hash (.configBatch (configCommandId event)) = some payload ∧
      decodeDeviceCommand payload = .ok batch

def ConfigDone (w : World) (event : Gnmi.ConfigEvent) : Prop :=
  (w.orch.hash (.deviceCommandPublication event.eventId)).isSome ∨
    (w.orch.hash (.deviceCommandPublication event.eventId) = none ∧
      w.orch.hash (.configBatch (configCommandId event)) = none ∧
      ∃ decoded, decodeConfigBatchEvent event = .ok decoded ∧
        (selection w.orch.appl [] decoded.commands = none ∨
          selection w.orch.appl [] decoded.commands = some []))

/-- A result that moves its application. -/
structure ResultRun (w : World) (n : Nat) (result : ResultEvent) (application : Application)
    (next : ConnectionApplyStatus) : Prop where
  pending : Pending w .results n result
  plain : isTimeout result = false
  found : w.orch.appl[result.resourceId]? = some application
  decided : resultDecision result application = .publish next

def ResultDone (w : World) (result : ResultEvent) : Prop :=
  ((w.orch.hash (.resultApplicationPublication result.id)).isSome ∧
      (w.orch.hash (.resultDevicePublication result.id)).isSome) ∨
    w.orch.appl[result.resourceId]? = none ∨
    ∃ application, w.orch.appl[result.resourceId]? = some application ∧
      resultDecision result application = .stale

/-- The alarm of a member was published, and counted if it is new. -/
def AlarmPublished (w : World) (command : CommandId) (connection : String) : Prop :=
  ∃ marker : AlarmMarker,
    w.orch.hash (.alarmPublication (.timeout command connection)) = some marker ∧
      (marker.activated = true →
        (w.orch.hash (.alarmCounterPublication connection marker.activationId false)).isSome)

/-- The alarm of the connection was taken back with the result and counted, or there was none. -/
def AlarmCleared (w : World) (result : ResultEvent) : Prop :=
  (w.orch.hash (.alarmClearPublication result.id) = none ∧
      w.orch.hash (.activeAlarm result.resourceId) = none) ∨
    ∃ marker : AlarmMarker, w.orch.hash (.alarmClearPublication result.id) = some marker ∧
      (w.orch.hash (.alarmCounterPublication result.resourceId marker.activationId true)).isSome

/-- A success that both copies carry has taken the alarm back. -/
def SuccessCleared (w : World) (result : ResultEvent) : Prop :=
  (w.orch.hash (.resultApplicationPublication result.id)).isSome →
    (w.orch.hash (.resultDevicePublication result.id)).isSome → result.success = true →
    AlarmCleared w result

structure TimeoutRun (w : World) (n : Nat) (result : ResultEvent) (batch : DeviceCommandBatch) :
    Prop where
  pending : Pending w .results n result
  timeout : isTimeout result = true
  attempt : ∃ payload : DeviceCommandBatch,
    w.syncd.hash (.applyAttempt result.commandId) = some payload ∧
      decodeDeviceCommand payload = .ok batch

/-- Every member still executes the command. -/
def AllCurrent (w : World) (result : ResultEvent) (batch : DeviceCommandBatch) : Prop :=
  ∀ c ∈ batch.commands, isCurrent c.desiredVersion result.commandId w.orch.appl[c.id]? = true

/-- A timeout that no marker remembers, and what it decides. -/
structure FirstTimeout (policy : ApplyRetryPolicy) (w : World) (result : ResultEvent)
    (batch : DeviceCommandBatch) (front : ConnectionCommand) (application : Application)
    (metadata : TimeoutMetadata) : Prop where
  head : ∃ rest, batch.commands = front :: rest
  found : w.orch.appl[front.id]? = some application
  current : isCurrent result.desiredVersion result.commandId (some application) = true
  executing : application.applyStatus = .applying ∨ application.applyStatus = .removing
  decided : ∃ now, metadata = timeoutMetadata policy result now application

/-- Why the handler leaves a timeout result. -/
inductive TimeoutDone (w : World) (n : Nat) (result : ResultEvent) : Prop
  | malformed : (∃ (payload : DeviceCommandBatch) (message : String),
      w.syncd.hash (.applyAttempt result.commandId) = some payload ∧
        decodeDeviceCommand payload = .error message) → TimeoutDone w n result
  | first {batch front rest} : TimeoutRun w n result batch → batch.commands = front :: rest →
      w.orch.hash (.timeoutApplicationPublication result.commandId) = none →
      w.orch.hash (.timeoutDevicePublication result.commandId) = none →
      (¬∃ application, w.orch.appl[front.id]? = some application ∧
        isCurrent result.desiredVersion result.commandId (some application) = true ∧
        (application.applyStatus = .applying ∨ application.applyStatus = .removing)) →
      TimeoutDone w n result
  | superseded {batch} : TimeoutRun w n result batch → ¬AllCurrent w result batch →
      TimeoutDone w n result
  | complete {batch} {metadata : TimeoutMetadata} : TimeoutRun w n result batch →
      w.orch.hash (.timeoutApplicationPublication result.commandId) = some metadata →
      (∀ c ∈ batch.commands, AlarmPublished w result.commandId c.id) →
      (metadata.retryScheduled = true →
        (w.orch.hash (.retryPublication result.commandId)).isSome) →
      TimeoutDone w n result

/-- A retry event whose command is not published. -/
structure RetryRun (w : World) (n : Nat) (retry : RetryEvent) (batch : DeviceCommandBatch) :
    Prop where
  pending : Pending w .retries n retry
  decoded : decodeDeviceCommand retry.batch = .ok batch
  unpublished : w.orch.hash (.retryCommandPublication retry.id) = none

def retryStarted (w : World) (retry : RetryEvent) : Bool :=
  (w.orch.hash (.retryApplicationPublication retry.id)).isSome ||
    (w.orch.hash (.retryDevicePublication retry.id)).isSome

def RetryCurrent (w : World) (retry : RetryEvent) (started : Bool) (batch : DeviceCommandBatch) :
    Prop :=
  ∀ c ∈ batch.commands, isCurrentRetry retry started c w.orch.appl[c.id]? = true

def RetryDone (w : World) (n : Nat) (retry : RetryEvent) : Prop :=
  (w.orch.hash (.retryCommandPublication retry.id)).isSome ∨
    ∃ batch, RetryRun w n retry batch ∧ ¬RetryCurrent w retry (retryStarted w retry) batch

/-! ## Exceptions -/

/-- The exceptions of the handlers, with the state that raises them. -/
inductive Throws (w : World) : Raised → Prop
  | config {n event batch c e} : ConfigRun w n event batch → c ∈ batch.commands →
      startApplyTransition (currentStatus w.orch.appl[c.id]?) c.operation = .error e →
      Throws w (.invalidTransition e)
  | newer {n} {result : ResultEvent} {application} : Pending w .results n result →
      w.orch.appl[result.resourceId]? = some application →
      resultDecision result application = .newer → Throws w .newerResult
  | result {n} {result : ResultEvent} {application e} : Pending w .results n result →
      isTimeout result = false → w.orch.appl[result.resourceId]? = some application →
      resultDecision result application = .invalid e → Throws w (.invalidTransition e)
  | invalidArgument {message} : Throws w (.invalidArgument message)
  | runtimeError {message} : Throws w (.runtimeError message)

/-! ## Actions -/

/-- Keys of the alarm bookkeeping, which no other handler reads. -/
def isAlarmKey : OrchKey → Bool
  | .activeAlarm _ | .alarmPublication _ | .alarmClearPublication _
  | .alarmCounterPublication _ _ _ => true
  | _ => false

/-- The world with an alarm raised or taken back, and the marker of that. -/
def putAlarm (w : World) (marker : OrchKey) (fields : OrchHash marker) (connection : String)
    (alarm : Option Alarm) (event : AlarmEvent) : World :=
  ({ w with
    orch := { w.orch with hash := Function.update w.orch.hash (.activeAlarm connection) alarm }
    alarmEvents := w.alarmEvents ++ [event] } : World).mark marker fields

/-- The world with the alarm counter moved, and the marker of that. -/
def countAlarm (w : World) (marker : OrchKey) (fields : OrchHash marker) (amount : Int) : World :=
  ({ w with
    counters := w.counters ++ [{ increments := [(.activeAlarms, amount)] }] } : World).mark
      marker fields

/-- What a handler does to the alarms and their counter. -/
inductive AlarmStep (w : World) : World → Prop
  | raise {n result batch c} {active : Option Alarm} {alarm : Alarm} :
      TimeoutRun w n result batch → AllCurrent w result batch →
      (w.orch.hash (.timeoutApplicationPublication result.commandId)).isSome →
      c ∈ batch.commands →
      w.orch.hash (.alarmPublication (.timeout result.commandId c.id)) = none →
      w.orch.hash (.activeAlarm c.id) = active →
      (∃ now, alarm = raisedAlarm result (.timeout result.commandId c.id) c.id
        result.errorMessage active now) →
      AlarmStep w (putAlarm w (.alarmPublication (.timeout result.commandId c.id))
        ⟨result.desiredVersion, alarm.activationId, active.isNone⟩ c.id (some alarm)
        ⟨alarm, .upsert⟩)
  | countRaised {n result batch c} {marker : AlarmMarker} : TimeoutRun w n result batch →
      c ∈ batch.commands →
      w.orch.hash (.alarmPublication (.timeout result.commandId c.id)) = some marker →
      marker.activated = true →
      w.orch.hash (.alarmCounterPublication c.id marker.activationId false) = none →
      AlarmStep w (countAlarm w (.alarmCounterPublication c.id marker.activationId false) () 1)
  | clear {n result} {alarm cleared : Alarm} : Pending w .results n result →
      isTimeout result = false → result.success = true →
      (w.orch.hash (.resultApplicationPublication result.id)).isSome →
      (w.orch.hash (.resultDevicePublication result.id)).isSome →
      w.orch.hash (.alarmClearPublication result.id) = none →
      w.orch.hash (.activeAlarm result.resourceId) = some alarm →
      AlarmStep w (putAlarm w (.alarmClearPublication result.id)
        ⟨alarm.desiredVersion, alarm.activationId, false⟩ result.resourceId none
        ⟨cleared, .remove⟩)
  | countCleared {n} {result : ResultEvent} {marker : AlarmMarker} : Pending w .results n result →
      isTimeout result = false →
      w.orch.hash (.alarmClearPublication result.id) = some marker →
      w.orch.hash (.alarmCounterPublication result.resourceId marker.activationId true) = none →
      AlarmStep w (countAlarm w
        (.alarmCounterPublication result.resourceId marker.activationId true) () (-1))

/-- Only alarm bookkeeping differs. -/
structure AlarmsOnly (w w' : World) : Prop where
  inventory : w'.inventory = w.inventory
  config : w'.config = w.config
  syncd : w'.syncd = w.syncd
  commands : w'.commands = w.commands
  hwsim : w'.hwsim = w.hwsim
  appl : w'.orch.appl = w.orch.appl
  device : w'.orch.device = w.orch.device
  retries : w'.orch.retries = w.orch.retries
  group : ∀ g, w'.orch.group g = w.orch.group g
  hash : ∀ k, isAlarmKey k = false → w'.orch.hash k = w.orch.hash k

inductive Action (policy : ApplyRetryPolicy) (w : World) : OrchOp → World → Prop
  | idle {o} : (∀ e, o ≠ .raise e) → Action policy w o w
  | raise {e} : Throws w e → Action policy w (.raise e) w
  | alarm {o w'} : (∀ e, o ≠ .raise e) → AlarmStep w w' → Action policy w o w'
  | deliver {g n} : (w.orch.group g).pending = [] → (w.orch.group g).delivered = n →
      n < (w.stream g).length →
      Action policy w (.readGroup g) (w.setOrch (w.orch.setGroup g ⟨n + 1, [n]⟩))
  -- configuration events
  | prepare {n event decoded selected} : Pending w .config n event →
      w.orch.hash (.deviceCommandPublication event.eventId) = none →
      w.orch.hash (.configBatch (configCommandId event)) = none →
      decodeConfigBatchEvent event = .ok decoded →
      selection w.orch.appl [] decoded.commands = some selected → selected ≠ [] →
      Action policy w (.putHashIfAbsent (.configBatch (configCommandId event))
          { decoded with commands := selected })
        (w.mark (.configBatch (configCommandId event)) { decoded with commands := selected })
  | stageApplication {n event batch} : ConfigRun w n event batch →
      w.orch.hash (.applicationPublication event.eventId) = none →
      (∀ c ∈ batch.commands, c.desiredVersion = event.desiredVersion) →
      (∀ c ∈ batch.commands,
        startApplyTransition (currentStatus w.orch.appl[c.id]?) c.operation =
          .ok (executing c.operation)) →
      Action policy w (.putVersionedHashes .appl (.applicationPublication event.eventId) ()
          event.desiredVersion (configHashes event batch.commands))
        (w.stage .appl (.applicationPublication event.eventId) () event.desiredVersion
          (configHashes event batch.commands))
  | stageDevice {n event batch} : ConfigRun w n event batch →
      (w.orch.hash (.applicationPublication event.eventId)).isSome →
      w.orch.hash (.deviceStatePublication event.eventId) = none →
      (∀ c ∈ batch.commands, c.desiredVersion = event.desiredVersion) →
      Action policy w (.putVersionedHashes .device (.deviceStatePublication event.eventId) ()
          event.desiredVersion (configHashes event batch.commands))
        (w.stage .device (.deviceStatePublication event.eventId) () event.desiredVersion
          (configHashes event batch.commands))
  | publishCommand {n event batch} : ConfigRun w n event batch →
      (w.orch.hash (.deviceStatePublication event.eventId)).isSome →
      Action policy w (.appendCommandOnce (.deviceCommandPublication event.eventId) ()
          (configCommandEvent event batch))
        ({ w with commands := w.commands ++ [configCommandEvent event batch] }.mark
          (.deviceCommandPublication event.eventId) ())
  | ackConfig {n} {event : Gnmi.ConfigEvent} : Pending w .config n event → ConfigDone w event →
      Action policy w (.xack .config n) (w.acknowledge .config n)
  -- device results
  | resultDevice {n result application next} : ResultRun w n result application next →
      w.orch.hash (.resultDevicePublication result.id) = none →
      w.orch.hash (.resultApplicationPublication result.id) = none →
      Action policy w (.putVersionedHashes .device (.resultDevicePublication result.id) ()
          result.desiredVersion [(result.resourceId, resultDeviceHash result next application)])
        (w.stage .device (.resultDevicePublication result.id) () result.desiredVersion
          [(result.resourceId, resultDeviceHash result next application)])
  | resultApplication {n result application next} : ResultRun w n result application next →
      (w.orch.hash (.resultDevicePublication result.id)).isSome →
      w.orch.hash (.resultApplicationPublication result.id) = none →
      Action policy w (.putVersionedHashes .appl (.resultApplicationPublication result.id) ()
          result.desiredVersion [(result.resourceId, some (resultApplication result next application))])
        (w.stage .appl (.resultApplicationPublication result.id) () result.desiredVersion
          [(result.resourceId, some (resultApplication result next application))])
  | ackResult {n} {result : ResultEvent} : Pending w .results n result → isTimeout result = false →
      ResultDone w result → SuccessCleared w result →
      Action policy w (.xack .results n) (w.acknowledge .results n)
  -- timeouts
  | timeoutDevice {n result batch front application metadata} : TimeoutRun w n result batch →
      AllCurrent w result batch → FirstTimeout policy w result batch front application metadata →
      w.orch.hash (.timeoutDevicePublication result.commandId) = none →
      w.orch.hash (.timeoutApplicationPublication result.commandId) = none →
      (∀ c ∈ batch.commands, c.desiredVersion = metadata.desiredVersion) →
      Action policy w (.putVersionedHashes .device (.timeoutDevicePublication result.commandId)
          metadata metadata.desiredVersion
          (timeoutHashes w.orch.appl result metadata batch.commands))
        (w.stage .device (.timeoutDevicePublication result.commandId) metadata
          metadata.desiredVersion (timeoutHashes w.orch.appl result metadata batch.commands))
  | timeoutApplication {n result batch} {metadata : TimeoutMetadata} :
      TimeoutRun w n result batch → AllCurrent w result batch →
      w.orch.hash (.timeoutDevicePublication result.commandId) = some metadata →
      w.orch.hash (.timeoutApplicationPublication result.commandId) = none →
      (∀ c ∈ batch.commands, c.desiredVersion = metadata.desiredVersion) →
      Action policy w (.putVersionedHashes .appl (.timeoutApplicationPublication result.commandId)
          metadata metadata.desiredVersion
          (timeoutHashes w.orch.appl result metadata batch.commands))
        (w.stage .appl (.timeoutApplicationPublication result.commandId) metadata
          metadata.desiredVersion (timeoutHashes w.orch.appl result metadata batch.commands))
  | scheduleRetry {n result batch} {metadata : TimeoutMetadata} : TimeoutRun w n result batch →
      AllCurrent w result batch →
      w.orch.hash (.timeoutApplicationPublication result.commandId) = some metadata →
      metadata.retryScheduled = true →
      w.orch.hash (.retryPublication result.commandId) = none →
      Action policy w (.appendRetryOnce (.retryPublication result.commandId) ()
          (retryEvent result batch metadata))
        ((w.setOrch { w.orch with
          retries := w.orch.retries ++ [retryEvent result batch metadata] }).mark
            (.retryPublication result.commandId) ())
  | ackTimeout {n} {result : ResultEvent} : Pending w .results n result → isTimeout result = true →
      TimeoutDone w n result → Action policy w (.xack .results n) (w.acknowledge .results n)
  -- retries
  | retryApplication {n retry batch} : RetryRun w n retry batch →
      RetryCurrent w retry false batch →
      w.orch.hash (.retryApplicationPublication retry.id) = none →
      w.orch.hash (.retryDevicePublication retry.id) = none →
      (∀ c ∈ batch.commands, c.desiredVersion = retry.desiredVersion) →
      Action policy w (.putVersionedHashes .appl (.retryApplicationPublication retry.id) ()
          retry.desiredVersion (retryHashes w.orch.appl retry false batch.commands))
        (w.stage .appl (.retryApplicationPublication retry.id) () retry.desiredVersion
          (retryHashes w.orch.appl retry false batch.commands))
  | retryDevice {n retry batch} : RetryRun w n retry batch → RetryCurrent w retry true batch →
      (w.orch.hash (.retryApplicationPublication retry.id)).isSome →
      w.orch.hash (.retryDevicePublication retry.id) = none →
      (∀ c ∈ batch.commands, c.desiredVersion = retry.desiredVersion) →
      Action policy w (.putVersionedHashes .device (.retryDevicePublication retry.id) ()
          retry.desiredVersion (retryHashes w.orch.appl retry true batch.commands))
        (w.stage .device (.retryDevicePublication retry.id) () retry.desiredVersion
          (retryHashes w.orch.appl retry true batch.commands))
  | retryBatch {n retry batch} : RetryRun w n retry batch →
      (w.orch.hash (.retryDevicePublication retry.id)).isSome →
      Action policy w (.putHashIfAbsent (.configBatch retry.id.command) batch)
        (w.mark (.configBatch retry.id.command) batch)
  | retryCommand {n retry batch} : RetryRun w n retry batch →
      (w.orch.hash (.retryDevicePublication retry.id)).isSome →
      Action policy w (.appendCommandOnce (.retryCommandPublication retry.id) ()
          (retryCommandEvent retry batch))
        ({ w with commands := w.commands ++ [retryCommandEvent retry batch] }.mark
          (.retryCommandPublication retry.id) ())
  | ackRetry {n} {retry : RetryEvent} : Pending w .retries n retry → RetryDone w n retry →
      Action policy w (.xack .retries n) (w.acknowledge .retries n)

end MiniOcs.Orch
