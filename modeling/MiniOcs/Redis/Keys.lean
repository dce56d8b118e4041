import MiniOcs.Records
import MiniOcs.Separated

/-!
# The texts of the keys

The model keeps a key as the data that its text is composed of. Here are the texts, as
`redis_keys.hpp` and `redis_keys.py` compose them, and the ids that stand in them. Different keys
have different texts, but for two hashes that both services know.
-/
namespace MiniOcs
open Separated

/-! ## Ids -/

/-- What the ids of a deployment are made from: the uuids of the config events, and the device. -/
structure Naming where
  event : Nat → String
  device : String

namespace Redis

def directionText : PortDirection → String
  | .input => "input"
  | .output => "output"

def phaseText : ReconciliationPhase → String
  | .drifted => "DRIFTED"
  | .reconciling => "RECONCILING"

def applyTimeoutAlarmId (connectionId : String) : String := "apply-timeout-" ++ connectionId

def desiredActualDriftAlarmId : String := "desired-actual-drift"

def portDownAlarmId (direction portId : String) : String :=
  "port-down-" ++ direction ++ "-" ++ portId

def alarmText : AlarmId → String
  | .applyTimeout connection => applyTimeoutAlarmId connection
  | .desiredActualDrift => desiredActualDriftAlarmId
  | .portDown direction port => portDownAlarmId (directionText direction) (Nat.repr port)

variable (N : Naming)

/-- The id that a batch is prepared under: the one of the config event or of the retry event, or
that of the command without its ending. -/
def sourceText : CommandId → String
  | .config eventId => N.event eventId
  | .retry failed attempt => sourceText failed ++ ":command" ++ ":retry:" ++ Nat.repr attempt
  | .recovery generation => "hwsim-recovery:" ++ N.device ++ ":" ++ Nat.repr generation
  | .reconcile timestampNs => "reconcile:" ++ N.device ++ ":" ++ Nat.repr timestampNs

def commandText (command : CommandId) : String := sourceText N command ++ ":command"

def retryText (retry : RetryId) : String :=
  commandText N retry.failed ++ ":retry:" ++ Nat.repr retry.attempt

def resultText (result : ResultId) : String :=
  match result.connection with
  | some connection => commandText N result.command ++ ":result:" ++ connection
  | none => commandText N result.command ++ ":result"

def activationText : ActivationId → String
  | .timeout command connection => commandText N command ++ ":timeout-alarm:" ++ connection
  | .drift command => commandText N command
  | .port direction port timestampNs => "port-fault:" ++ N.device ++ ":" ++
      directionText direction ++ ":" ++ Nat.repr port ++ ":" ++ Nat.repr timestampNs

/-! ## Keys -/

/-- What stands before the first separator of a key. -/
inductive Family where
  | faultResult
  | deviceConfig
  | inputPortConfig
  | outputPortConfig
  | connectionConfig
  | connectionApp
  | connectionDevice
  | syncdConnectionVersion
  | syncdGenerationRecovery
  | syncdGenerationStatePublication
  | syncdGenerationCountersPublication
  | syncdReconciliation
  | syncdReconciliationCommandPublication
  | syncdReconciliationStatePublication
  | syncdReconciliationCountersPublication
  | syncdReconciliationSuccessCountersPublication
  | syncdDriftAlarmPublication
  | syncdDriftAlarmClearPublication
  | syncdDriftAlarmCounterPublication (clear : Bool)
  | syncdPortFault
  | syncdPortAlarmPublication
  | syncdPortAlarmClearPublication
  | syncdPortAlarmCounterPublication (clear : Bool)
  | processedDeviceCommand
  | orchConfigBatch
  | orchApplicationPublication
  | orchDeviceStatePublication
  | orchDeviceCommandPublication
  | orchResultApplicationPublication
  | orchResultDevicePublication
  | orchTimeoutApplicationPublication
  | orchTimeoutDevicePublication
  | orchRetryPublication
  | orchRetryApplicationPublication
  | orchRetryDevicePublication
  | orchRetryCommandPublication
  | deviceApplyAttempt
  | deviceApplyResult
  | syncdStatePublication
  | syncdCountersPublication
  | syncdResultPublication
  | connectionState
  | configRevision
  | deviceState
  | serviceState
  | inputPortState
  | outputPortState
  | deviceCounters
  | connectionCounters
  | activeAlarm
  | orchAlarmPublication
  | orchAlarmClearPublication
  | orchAlarmCounterPublication (clear : Bool)
  deriving DecidableEq, Repr

def Family.name : Family → String
  | .faultResult => "OCS_FAULT_RESULT"
  | .deviceConfig => "OCS_DEVICE"
  | .inputPortConfig => "OCS_INPUT_PORT"
  | .outputPortConfig => "OCS_OUTPUT_PORT"
  | .connectionConfig => "OCS_CONNECTION"
  | .connectionApp => "OCS_CONNECTION_APP"
  | .connectionDevice => "OCS_CONNECTION_DEVICE"
  | .syncdConnectionVersion => "OCS_SYNCD_CONNECTION_VERSION"
  | .syncdGenerationRecovery => "OCS_SYNCD_GENERATION_RECOVERY"
  | .syncdGenerationStatePublication => "OCS_SYNCD_GENERATION_STATE_PUBLISHED"
  | .syncdGenerationCountersPublication => "OCS_SYNCD_GENERATION_COUNTERS_PUBLISHED"
  | .syncdReconciliation => "OCS_SYNCD_RECONCILIATION"
  | .syncdReconciliationCommandPublication => "OCS_SYNCD_RECONCILIATION_COMMAND_PUBLISHED"
  | .syncdReconciliationStatePublication => "OCS_SYNCD_RECONCILIATION_STATE_PUBLISHED"
  | .syncdReconciliationCountersPublication => "OCS_SYNCD_RECONCILIATION_COUNTERS_PUBLISHED"
  | .syncdReconciliationSuccessCountersPublication =>
      "OCS_SYNCD_RECONCILIATION_SUCCESS_COUNTERS_PUBLISHED"
  | .syncdDriftAlarmPublication => "OCS_SYNCD_DRIFT_ALARM_PUBLISHED"
  | .syncdDriftAlarmClearPublication => "OCS_SYNCD_DRIFT_ALARM_CLEARED"
  | .syncdDriftAlarmCounterPublication clear =>
      "OCS_SYNCD_DRIFT_ALARM_COUNTER_" ++ if clear then "CLEARED" else "RAISED"
  | .syncdPortFault => "OCS_SYNCD_PORT_FAULT"
  | .syncdPortAlarmPublication => "OCS_SYNCD_PORT_ALARM_PUBLISHED"
  | .syncdPortAlarmClearPublication => "OCS_SYNCD_PORT_ALARM_CLEARED"
  | .syncdPortAlarmCounterPublication clear =>
      "OCS_SYNCD_PORT_ALARM_COUNTER_" ++ if clear then "CLEARED" else "RAISED"
  | .processedDeviceCommand => "OCS_PROCESSED_DEVICE_COMMAND"
  | .orchConfigBatch => "OCS_ORCH_CONFIG_BATCH"
  | .orchApplicationPublication => "OCS_ORCH_APPLICATION_PUBLISHED"
  | .orchDeviceStatePublication => "OCS_ORCH_DEVICE_STATE_PUBLISHED"
  | .orchDeviceCommandPublication => "OCS_ORCH_DEVICE_COMMAND_PUBLISHED"
  | .orchResultApplicationPublication => "OCS_ORCH_RESULT_APPLICATION_PUBLISHED"
  | .orchResultDevicePublication => "OCS_ORCH_RESULT_DEVICE_PUBLISHED"
  | .orchTimeoutApplicationPublication => "OCS_ORCH_TIMEOUT_APPLICATION_PUBLISHED"
  | .orchTimeoutDevicePublication => "OCS_ORCH_TIMEOUT_DEVICE_PUBLISHED"
  | .orchRetryPublication => "OCS_ORCH_RETRY_PUBLISHED"
  | .orchRetryApplicationPublication => "OCS_ORCH_RETRY_APPLICATION_PUBLISHED"
  | .orchRetryDevicePublication => "OCS_ORCH_RETRY_DEVICE_PUBLISHED"
  | .orchRetryCommandPublication => "OCS_ORCH_RETRY_COMMAND_PUBLISHED"
  | .deviceApplyAttempt => "OCS_DEVICE_APPLY_ATTEMPT"
  | .deviceApplyResult => "OCS_DEVICE_APPLY_RESULT"
  | .syncdStatePublication => "OCS_SYNCD_STATE_PUBLISHED"
  | .syncdCountersPublication => "OCS_SYNCD_COUNTERS_PUBLISHED"
  | .syncdResultPublication => "OCS_SYNCD_RESULT_PUBLISHED"
  | .connectionState => "OCS_CONNECTION_STATE"
  | .configRevision => "OCS_CONFIG_REVISION"
  | .deviceState => "OCS_DEVICE_STATE"
  | .serviceState => "OCS_SERVICE_STATE"
  | .inputPortState => "OCS_INPUT_PORT_STATE"
  | .outputPortState => "OCS_OUTPUT_PORT_STATE"
  | .deviceCounters => "OCS_DEVICE_COUNTERS"
  | .connectionCounters => "OCS_CONNECTION_COUNTERS"
  | .activeAlarm => "OCS_ACTIVE_ALARM"
  | .orchAlarmPublication => "OCS_ORCH_ALARM_PUBLISHED"
  | .orchAlarmClearPublication => "OCS_ORCH_ALARM_CLEAR_PUBLISHED"
  | .orchAlarmCounterPublication clear =>
      "OCS_ORCH_ALARM_COUNTER_" ++ if clear then "CLEARED" else "RAISED"

def Family.all : List Family := [.faultResult, .deviceConfig, .inputPortConfig, .outputPortConfig,
  .connectionConfig, .connectionApp, .connectionDevice, .syncdConnectionVersion,
  .syncdGenerationRecovery, .syncdGenerationStatePublication, .syncdGenerationCountersPublication,
  .syncdReconciliation, .syncdReconciliationCommandPublication,
  .syncdReconciliationStatePublication, .syncdReconciliationCountersPublication,
  .syncdReconciliationSuccessCountersPublication, .syncdDriftAlarmPublication,
  .syncdDriftAlarmClearPublication, .syncdDriftAlarmCounterPublication false,
  .syncdDriftAlarmCounterPublication true, .syncdPortFault, .syncdPortAlarmPublication,
  .syncdPortAlarmClearPublication, .syncdPortAlarmCounterPublication false,
  .syncdPortAlarmCounterPublication true, .processedDeviceCommand, .orchConfigBatch,
  .orchApplicationPublication, .orchDeviceStatePublication, .orchDeviceCommandPublication,
  .orchResultApplicationPublication, .orchResultDevicePublication,
  .orchTimeoutApplicationPublication, .orchTimeoutDevicePublication, .orchRetryPublication,
  .orchRetryApplicationPublication, .orchRetryDevicePublication, .orchRetryCommandPublication,
  .deviceApplyAttempt, .deviceApplyResult, .syncdStatePublication, .syncdCountersPublication,
  .syncdResultPublication, .connectionState, .configRevision, .deviceState, .serviceState,
  .inputPortState, .outputPortState, .deviceCounters, .connectionCounters, .activeAlarm,
  .orchAlarmPublication, .orchAlarmClearPublication, .orchAlarmCounterPublication false,
  .orchAlarmCounterPublication true]

/-- The family of a name. -/
def Family.ofName (name : String) : Option Family := Family.all.find? fun family => family.name = name

theorem Family.ofName_name (family : Family) : Family.ofName family.name = some family := by
  cases family with
  | syncdDriftAlarmCounterPublication clear => cases clear <;> decide +kernel
  | syncdPortAlarmCounterPublication clear => cases clear <;> decide +kernel
  | orchAlarmCounterPublication clear => cases clear <;> decide +kernel
  | _ => decide +kernel

theorem Family.name_inj {f g : Family} (h : f.name = g.name) : f = g := by
  have hname := Family.ofName_name f
  rw [h, Family.ofName_name] at hname
  exact (Option.some.inj hname).symm

/-- A key: the family, and the fields behind separators. -/
def key (family : Family) (fields : List String) : String := join '|' (family.name :: fields)

section Members

variable (device connectionId portId commandId eventId activationId : String)
  (generation : Nat)

def faultResultKey : String := key .faultResult [commandId]
def deviceConfigKey : String := key .deviceConfig [device]
def inputPortConfigKey : String := key .inputPortConfig [device, portId]
def outputPortConfigKey : String := key .outputPortConfig [device, portId]
def connectionConfigKey : String := key .connectionConfig [device, connectionId]
def connectionAppKey : String := key .connectionApp [device, connectionId]
def connectionDeviceKey : String := key .connectionDevice [device, connectionId]
def syncdConnectionVersionKey : String := key .syncdConnectionVersion [device, connectionId]
def syncdGenerationRecoveryKey : String :=
  key .syncdGenerationRecovery [device, Nat.repr generation]
def syncdGenerationStatePublicationKey (device : String) (generation : Nat)
    (connectionId : String) : String :=
  key .syncdGenerationStatePublication [device, Nat.repr generation, connectionId]
def syncdGenerationCountersPublicationKey : String :=
  key .syncdGenerationCountersPublication [device, Nat.repr generation]
def syncdReconciliationKey : String := key .syncdReconciliation [device]
def syncdReconciliationCommandPublicationKey : String :=
  key .syncdReconciliationCommandPublication [commandId]
def syncdReconciliationStatePublicationKey (commandId connectionId phase : String) : String :=
  key .syncdReconciliationStatePublication [commandId, connectionId, phase]
def syncdReconciliationCountersPublicationKey : String :=
  key .syncdReconciliationCountersPublication [commandId]
def syncdReconciliationSuccessCountersPublicationKey : String :=
  key .syncdReconciliationSuccessCountersPublication [commandId]
def syncdDriftAlarmPublicationKey : String := key .syncdDriftAlarmPublication [commandId]
def syncdDriftAlarmClearPublicationKey : String := key .syncdDriftAlarmClearPublication [commandId]
def syncdDriftAlarmCounterPublicationKey (clear : Bool) : String :=
  key (.syncdDriftAlarmCounterPublication clear) [device, activationId]
def syncdPortFaultKey (device direction portId : String) : String := key .syncdPortFault [device, direction, portId]
def syncdPortAlarmPublicationKey : String := key .syncdPortAlarmPublication [activationId]
def syncdPortAlarmClearPublicationKey : String := key .syncdPortAlarmClearPublication [activationId]
def syncdPortAlarmCounterPublicationKey (clear : Bool) : String :=
  key (.syncdPortAlarmCounterPublication clear) [activationId]
def processedDeviceCommandKey : String := key .processedDeviceCommand [commandId]
def orchConfigBatchKey : String := key .orchConfigBatch [eventId]
def orchApplicationPublicationKey : String := key .orchApplicationPublication [eventId]
def orchDeviceStatePublicationKey : String := key .orchDeviceStatePublication [eventId]
def orchDeviceCommandPublicationKey : String := key .orchDeviceCommandPublication [eventId]
def orchResultApplicationPublicationKey : String := key .orchResultApplicationPublication [eventId]
def orchResultDevicePublicationKey : String := key .orchResultDevicePublication [eventId]
def orchTimeoutApplicationPublicationKey : String :=
  key .orchTimeoutApplicationPublication [commandId]
def orchTimeoutDevicePublicationKey : String := key .orchTimeoutDevicePublication [commandId]
def orchRetryPublicationKey : String := key .orchRetryPublication [commandId]
def orchRetryApplicationPublicationKey : String := key .orchRetryApplicationPublication [eventId]
def orchRetryDevicePublicationKey : String := key .orchRetryDevicePublication [eventId]
def orchRetryCommandPublicationKey : String := key .orchRetryCommandPublication [eventId]
def deviceApplyAttemptKey : String := key .deviceApplyAttempt [commandId]
def deviceApplyResultKey : String := key .deviceApplyResult [commandId]
def syncdStatePublicationKey (commandId connectionId : String) : String :=
  key .syncdStatePublication [commandId, connectionId]
def syncdCountersPublicationKey : String := key .syncdCountersPublication [commandId]
def syncdResultPublicationKey (commandId connectionId : String) : String :=
  key .syncdResultPublication [commandId, connectionId]
def connectionStateKey : String := key .connectionState [device, connectionId]
def configRevisionKey : String := key .configRevision [device]
def deviceStateKey : String := key .deviceState [device]
def serviceStateKey (service : String) : String := key .serviceState [service]
def inputPortStateKey : String := key .inputPortState [device, portId]
def outputPortStateKey : String := key .outputPortState [device, portId]
def deviceCountersKey : String := key .deviceCounters [device]
def connectionCountersKey : String := key .connectionCounters [device, connectionId]
def activeAlarmKey (alarmId : String) : String := key .activeAlarm [device, alarmId]
def orchAlarmPublicationKey : String := key .orchAlarmPublication [eventId]
def orchAlarmClearPublicationKey : String := key .orchAlarmClearPublication [eventId]
def orchAlarmCounterPublicationKey (device alarmId activationId : String) (clear : Bool) : String :=
  key (.orchAlarmCounterPublication clear) [device, alarmId, activationId]

end Members

/-! ## The keys of the model -/

/-- The hashes of the model, each by the name that the model has for it. -/
inductive Resource where
  | config (connection : String)
  | revision
  | appl (connection : String)
  | deviceCopy (connection : String)
  | state (connection : String)
  | counters
  | faultResult (eventId : Nat)
  | orch (k : OrchKey)
  | syncd (k : SyncdKey)
  deriving DecidableEq, Repr

def orchKeyText : OrchKey → String
  | .configBatch source => orchConfigBatchKey (sourceText N source)
  | .applicationPublication eventId => orchApplicationPublicationKey (N.event eventId)
  | .deviceStatePublication eventId => orchDeviceStatePublicationKey (N.event eventId)
  | .deviceCommandPublication eventId => orchDeviceCommandPublicationKey (N.event eventId)
  | .resultApplicationPublication result => orchResultApplicationPublicationKey (resultText N result)
  | .resultDevicePublication result => orchResultDevicePublicationKey (resultText N result)
  | .timeoutApplicationPublication command =>
      orchTimeoutApplicationPublicationKey (commandText N command)
  | .timeoutDevicePublication command => orchTimeoutDevicePublicationKey (commandText N command)
  | .retryPublication command => orchRetryPublicationKey (commandText N command)
  | .retryApplicationPublication retry => orchRetryApplicationPublicationKey (retryText N retry)
  | .retryDevicePublication retry => orchRetryDevicePublicationKey (retryText N retry)
  | .retryCommandPublication retry => orchRetryCommandPublicationKey (retryText N retry)
  | .activeAlarm connection => activeAlarmKey N.device (applyTimeoutAlarmId connection)
  | .alarmPublication activation => orchAlarmPublicationKey (activationText N activation)
  | .alarmClearPublication result => orchAlarmClearPublicationKey (resultText N result)
  | .alarmCounterPublication connection activation clear =>
      orchAlarmCounterPublicationKey N.device (applyTimeoutAlarmId connection)
        (activationText N activation) clear

/-- The activation of a drift alarm is counted per device, any other by itself. -/
def syncdAlarmCounterText (activation : ActivationId) (clear : Bool) : String :=
  match activation with
  | .drift command => syncdDriftAlarmCounterPublicationKey N.device (commandText N command) clear
  | _ => syncdPortAlarmCounterPublicationKey (activationText N activation) clear

def portStateText (direction : PortDirection) (port : Nat) : String :=
  match direction with
  | .input => inputPortStateKey N.device (Nat.repr port)
  | .output => outputPortStateKey N.device (Nat.repr port)

def syncdKeyText : SyncdKey → String
  | .configBatch source => orchConfigBatchKey (sourceText N source)
  | .applyAttempt command => deviceApplyAttemptKey (commandText N command)
  | .applyResult command => deviceApplyResultKey (commandText N command)
  | .processedCommand command => processedDeviceCommandKey (commandText N command)
  | .connectionVersion connection => syncdConnectionVersionKey N.device connection
  | .statePublication command connection =>
      syncdStatePublicationKey (commandText N command) connection
  | .countersPublication command => syncdCountersPublicationKey (commandText N command)
  | .resultPublication command connection =>
      syncdResultPublicationKey (commandText N command) connection
  | .generationRecovery generation => syncdGenerationRecoveryKey N.device generation
  | .generationStatePublication generation connection =>
      syncdGenerationStatePublicationKey N.device generation connection
  | .generationCountersPublication generation =>
      syncdGenerationCountersPublicationKey N.device generation
  | .reconciliation => syncdReconciliationKey N.device
  | .reconciliationCommandPublication command =>
      syncdReconciliationCommandPublicationKey (commandText N command)
  | .reconciliationStatePublication command connection phase =>
      syncdReconciliationStatePublicationKey (commandText N command) connection (phaseText phase)
  | .reconciliationCountersPublication command =>
      syncdReconciliationCountersPublicationKey (commandText N command)
  | .reconciliationSuccessPublication command =>
      syncdReconciliationSuccessCountersPublicationKey (commandText N command)
  | .activeAlarm alarm => activeAlarmKey N.device (alarmText alarm)
  | .driftAlarmPublication command => syncdDriftAlarmPublicationKey (commandText N command)
  | .driftAlarmClearPublication command => syncdDriftAlarmClearPublicationKey (commandText N command)
  | .portAlarmPublication activation => syncdPortAlarmPublicationKey (activationText N activation)
  | .portAlarmClearPublication activation =>
      syncdPortAlarmClearPublicationKey (activationText N activation)
  | .alarmCounterPublication activation clear => syncdAlarmCounterText N activation clear
  | .portFault direction port =>
      syncdPortFaultKey N.device (directionText direction) (Nat.repr port)
  | .portState direction port => portStateText N direction port
  | .deviceState => deviceStateKey N.device

def Resource.text : Resource → String
  | .config connection => connectionConfigKey N.device connection
  | .revision => configRevisionKey N.device
  | .appl connection => connectionAppKey N.device connection
  | .deviceCopy connection => connectionDeviceKey N.device connection
  | .state connection => connectionStateKey N.device connection
  | .counters => deviceCountersKey N.device
  | .faultResult eventId => faultResultKey (N.event eventId)
  | .orch k => orchKeyText N k
  | .syncd k => syncdKeyText N k

end Redis

end MiniOcs
