import Mathlib.Tactic.Common
import Std.Data.ExtTreeMap
import MiniOcs.Types
import MiniOcs.StateMachine

/-!
# Identifiers, events and hashes

The texts that the services build from event ids are kept as the data they are built from:
a command id names the event it comes from, and a key names what its text is composed of.
Ids contain no separator, so different data are different texts. Of a marker hash only the
fields that some reader looks at are kept, and of an envelope the schema version and the time
stamp are left out.
-/
namespace MiniOcs
open Std

/-- `<event-id>:command`. A retry event is `<failed-command>:retry:<attempt>`, a recovery
event `hwsim-recovery:<device>:<generation>`, a reconciliation `reconcile:<device>:<time>`. -/
inductive CommandId where
  | config (eventId : Nat)
  | retry (failed : CommandId) (attempt : Nat)
  | recovery (generation : Nat)
  | reconcile (timestampNs : Nat)
  deriving DecidableEq, Repr

def CommandId.isGenerationRecovery : CommandId → Bool
  | .recovery _ => true
  | _ => false

def CommandId.isReconciliation : CommandId → Bool
  | .reconcile _ => true
  | _ => false

/-- `<failed-command>:retry:<attempt>`. -/
structure RetryId where
  failed : CommandId
  attempt : Nat
  deriving DecidableEq, Repr

def RetryId.command (id : RetryId) : CommandId := .retry id.failed id.attempt

/-- `<command>:result:<connection>`, or `<command>:result` for a command without members. -/
structure ResultId where
  command : CommandId
  connection : Option String
  deriving DecidableEq, Repr

structure DeviceCommandBatch where
  commands : List ConnectionCommand
  options : ApplyOptions CommandId := {}
  deriving DecidableEq, Repr

def validPort (port : Nat) : Bool := decide (1 ≤ port) && decide (port ≤ 65535)

/-- The ports of a removal are not read. -/
def decodeCommand (command : ConnectionCommand) : ConnectionCommand :=
  match command.operation with
  | .remove => { command with inputPort := 0, outputPort := 0 }
  | .upsert => command

def validCommand (command : ConnectionCommand) : Bool :=
  match command.operation with
  | .remove => true
  | .upsert => validPort command.inputPort && validPort command.outputPort

def decodeDeviceCommand (batch : DeviceCommandBatch) : Except String DeviceCommandBatch :=
  if batch.options.timeoutMs ≤ 0 then .error "device command timeout must be positive"
  else if !batch.commands.all validCommand then .error "port is outside the supported port range"
  else if batch.commands.isEmpty then .error "device command batch must not be empty"
  else .ok { batch with commands := batch.commands.map decodeCommand }

theorem decodeDeviceCommand_ok {payload batch : DeviceCommandBatch}
    (h : decodeDeviceCommand payload = .ok batch) :
    batch = { payload with commands := payload.commands.map decodeCommand } ∧
      payload.commands ≠ [] ∧ payload.commands.all validCommand = true := by
  unfold decodeDeviceCommand at h
  split_ifs at h with _ hvalid hempty
  cases h
  refine ⟨rfl, fun hnil => hempty (by simp [hnil]), by simpa using hvalid⟩

theorem decodeDeviceCommand_fixed {batch : DeviceCommandBatch} (htimeout : 0 < batch.options.timeoutMs)
    (hne : batch.commands ≠ [])
    (hall : ∀ c ∈ batch.commands, validCommand c = true ∧ decodeCommand c = c) :
    decodeDeviceCommand batch = .ok batch := by
  have hvalid : batch.commands.all validCommand = true :=
    List.all_eq_true.mpr fun c hc => (hall c hc).1
  have hmap : batch.commands.map decodeCommand = batch.commands := by
    conv_rhs => rw [← List.map_id batch.commands]
    exact List.map_congr_left fun c hc => (hall c hc).2
  unfold decodeDeviceCommand
  rw [if_neg (by omega), hvalid, Bool.not_true, if_neg (by simp), if_neg (by simpa using hne), hmap]

/-- What decodes is valid, and decodes to itself from then on. -/
theorem decodeDeviceCommand_decoded {payload batch : DeviceCommandBatch}
    (h : decodeDeviceCommand payload = .ok batch) : decodeDeviceCommand batch = .ok batch := by
  have htimeout : 0 < payload.options.timeoutMs := by
    unfold decodeDeviceCommand at h
    split_ifs at h with htimeout
    omega
  obtain ⟨rfl, hne, hall⟩ := decodeDeviceCommand_ok h
  refine decodeDeviceCommand_fixed htimeout (by simpa using hne) fun c hc => ?_
  obtain ⟨c, hmem, rfl⟩ := List.mem_map.mp hc
  have hvalid := List.all_eq_true.mp hall c hmem
  cases hop : c.operation with
  | remove => simp [validCommand, decodeCommand, hop]
  | upsert => simpa [validCommand, decodeCommand, hop] using hvalid

inductive CommandOperation where
  | upsert
  | remove
  | applyBatch
  | generationRecovery
  | reconcile
  deriving DecidableEq, Repr

structure CommandEvent where
  id : CommandId
  requestId : String
  device : String
  resourceId : String
  operation : CommandOperation
  desiredVersion : Nat
  payload : DeviceCommandBatch
  deriving DecidableEq, Repr

structure ResultEvent where
  id : ResultId
  requestId : String
  device : String
  resourceId : String
  desiredVersion : Nat
  success : Bool
  errorCode : ErrorCode
  errorMessage : String
  commandId : CommandId
  deriving DecidableEq, Repr

structure RetryEvent where
  id : RetryId
  requestId : String
  device : String
  resourceId : String
  desiredVersion : Nat
  batch : DeviceCommandBatch
  notBeforeNs : Nat
  deriving DecidableEq, Repr

/-- A connection hash of APPL_DB or DEVICE_DB. An empty text is `none`. -/
structure Application where
  device : String
  id : String
  inputPort : Nat
  outputPort : Nat
  desiredVersion : Nat
  applyStatus : ConnectionApplyStatus
  operation : ConnectionOperation
  requestId : String
  eventId : Nat
  commandId : CommandId
  retryAttempt : Nat
  nextRetryAtNs : Option Nat
  failedCommandId : Option CommandId
  lastErrorCode : Option ErrorCode
  lastErrorMessage : String
  deriving DecidableEq, Repr

abbrev Table := ExtTreeMap String Application

/-- A connection hash of STATE_DB. -/
structure ConnectionState where
  id : String
  inputPort : Nat
  outputPort : Nat
  desiredVersion : Nat
  appliedVersion : Nat
  actualPresent : Bool
  applyStatus : ConnectionApplyStatus
  lastErrorCode : Option ErrorCode
  lastErrorMessage : String
  deriving DecidableEq, Repr

inductive AlarmId where
  | applyTimeout (connection : String)
  | desiredActualDrift
  | portDown (direction : PortDirection) (port : Nat)
  deriving DecidableEq, Repr

/-- The event that raised an alarm. -/
inductive ActivationId where
  | timeout (command : CommandId) (connection : String)
  | drift (command : CommandId)
  | port (direction : PortDirection) (port : Nat) (timestampNs : Nat)
  deriving DecidableEq, Repr

structure Alarm where
  id : AlarmId
  active : Bool := true
  desiredVersion : Nat
  errorCode : ErrorCode
  errorMessage : String
  activationId : ActivationId
  firstRaisedNs : Nat
  lastChangeNs : Nat
  count : Nat := 0
  deriving DecidableEq, Repr

structure AlarmMarker where
  desiredVersion : Nat
  activationId : ActivationId
  activated : Bool := false
  deriving DecidableEq, Repr

structure AlarmEvent where
  alarm : Alarm
  operation : ConnectionOperation
  deriving DecidableEq, Repr

inductive StateEventId where
  | command (command : CommandId) (connection : String)
  | actual (generation : Nat) (connection : String)
  | drifted (command : CommandId) (connection : String)
  | reconciling (command : CommandId) (connection : String)
  | device (timestampNs : Nat)
  | port (direction : PortDirection) (port : Nat) (timestampNs : Nat)
  deriving DecidableEq, Repr

/-- `connection` is the published hash of a connection event. -/
structure StateEvent where
  id : StateEventId
  operation : ConnectionOperation
  desiredVersion : Nat
  connection : Option ConnectionState := none
  deriving DecidableEq, Repr

inductive CounterField where
  | activeAlarms
  | activeConnections
  | deviceApplyTotal
  | deviceApplySuccessTotal
  | deviceApplyFailureTotal
  | deviceApplyTimeoutTotal
  | driftDetectedTotal
  | portDownTotal
  | reconciliationTotal
  | reconciliationSuccessTotal
  deriving DecidableEq, Repr

/-- What one transaction adds to the counter hash; an apply also records its latency. -/
structure CounterUpdate where
  command : Option CommandId := none
  increments : List (CounterField × Int)
  latencyMs : Option Nat := none
  deriving DecidableEq, Repr

/-- What a transaction adds to one field. -/
def CounterUpdate.amount (update : CounterUpdate) (field : CounterField) : Int :=
  update.increments.foldr
    (fun increment total => if increment.1 = field then increment.2 + total else total) 0

/-- The value of a field of the counter hash. -/
def counterTotal (updates : List CounterUpdate) (field : CounterField) : Int :=
  updates.foldr (fun update total => update.amount field + total) 0

@[simp] theorem counterTotal_nil (field : CounterField) : counterTotal [] field = 0 := rfl

@[simp] theorem counterTotal_concat (updates : List CounterUpdate) (update : CounterUpdate)
    (field : CounterField) :
    counterTotal (updates ++ [update]) field = counterTotal updates field + update.amount field := by
  induction updates with
  | nil => simp [counterTotal]
  | cons first rest ih =>
      simp only [counterTotal, List.cons_append, List.foldr_cons] at ih ⊢
      rw [ih, Int.add_assoc]

theorem CounterUpdate.amount_eq_zero {update : CounterUpdate} {field : CounterField}
    (h : ∀ increment ∈ update.increments, increment.1 ≠ field) : update.amount field = 0 := by
  obtain ⟨command, increments, latencyMs⟩ := update
  unfold CounterUpdate.amount
  dsimp only at h ⊢
  induction increments with
  | nil => rfl
  | cons increment rest ih =>
      rw [List.foldr_cons, if_neg (h increment List.mem_cons_self)]
      exact ih fun i hi => h i (List.mem_cons_of_mem _ hi)

/-- What the orchestrator remembers of a timed-out command. -/
structure TimeoutMetadata where
  desiredVersion : Nat
  retryAttempt : Nat
  nextRetryAtNs : Nat
  applyStatus : ConnectionApplyStatus
  retryScheduled : Bool
  deriving DecidableEq, Repr

structure StoredResult where
  result : ApplyResult
  latencyMs : Nat
  deriving DecidableEq, Repr

structure ConnectionVersion where
  lastSuccessfulVersion : Nat
  deviceGeneration : Nat
  deriving DecidableEq, Repr

structure StatePublication where
  activeDelta : Int
  superseded : Bool := false
  confirmedUnchanged : Bool := false
  deriving DecidableEq, Repr

structure GenerationRecovery where
  recoveryRequired : Bool
  command : Option CommandId := none
  deriving DecidableEq, Repr

inductive ReconciliationStatus where
  | publishing
  | published
  | applied
  | failed
  | converged
  deriving DecidableEq, Repr

inductive ReconciliationReason where
  | portRecovery
  | confirmedStateRecovery
  | desiredActualDrift
  deriving DecidableEq, Repr

/-- A reconciliation is named by the time it was opened at. -/
structure ReconciliationControl where
  openedNs : Nat
  desiredVersion : Nat
  signature : DeviceCommandBatch
  reason : ReconciliationReason
  status : ReconciliationStatus
  deriving DecidableEq, Repr

def ReconciliationControl.command (control : ReconciliationControl) : CommandId :=
  .reconcile control.openedNs

inductive PortFaultStatus where
  | active
  | cleared
  | recoveryPublished
  | recovered
  deriving DecidableEq, Repr

structure PortFault where
  activationId : ActivationId
  status : PortFaultStatus
  command : Option CommandId := none
  deriving DecidableEq, Repr

structure DeviceStateHash where
  operStatus : DeviceOperStatus
  deviceGeneration : Nat
  actualConnectionCount : Nat
  lastErrorCode : Option ErrorCode := none
  lastErrorMessage : String := ""
  deriving DecidableEq, Repr

inductive ReconciliationPhase where
  | drifted
  | reconciling
  deriving DecidableEq, Repr

/-! ## Keys -/

/-- The hashes that only the orchestrator writes, in APPL_DB, DEVICE_DB, ALARM_DB and
COUNTERS_DB. -/
inductive OrchKey where
  | configBatch (source : CommandId)
  | applicationPublication (eventId : Nat)
  | deviceStatePublication (eventId : Nat)
  | deviceCommandPublication (eventId : Nat)
  | resultApplicationPublication (result : ResultId)
  | resultDevicePublication (result : ResultId)
  | timeoutApplicationPublication (command : CommandId)
  | timeoutDevicePublication (command : CommandId)
  | retryPublication (command : CommandId)
  | retryApplicationPublication (retry : RetryId)
  | retryDevicePublication (retry : RetryId)
  | retryCommandPublication (retry : RetryId)
  | activeAlarm (connection : String)
  | alarmPublication (activation : ActivationId)
  | alarmClearPublication (result : ResultId)
  | alarmCounterPublication (connection : String) (activation : ActivationId) (clear : Bool)
  deriving DecidableEq, Repr

abbrev OrchHash : OrchKey → Type
  | .configBatch _ => DeviceCommandBatch
  | .timeoutApplicationPublication _ => TimeoutMetadata
  | .timeoutDevicePublication _ => TimeoutMetadata
  | .activeAlarm _ => Alarm
  | .alarmPublication _ => AlarmMarker
  | .alarmClearPublication _ => AlarmMarker
  | _ => Unit

/-- The hashes that only syncd writes, in DEVICE_DB, STATE_DB, ALARM_DB and COUNTERS_DB. -/
inductive SyncdKey where
  | configBatch (source : CommandId)
  | applyAttempt (command : CommandId)
  | applyResult (command : CommandId)
  | processedCommand (command : CommandId)
  | connectionVersion (connection : String)
  | statePublication (command : CommandId) (connection : String)
  | countersPublication (command : CommandId)
  | resultPublication (command : CommandId) (connection : String)
  | generationRecovery (generation : Nat)
  | generationStatePublication (generation : Nat) (connection : String)
  | generationCountersPublication (generation : Nat)
  | reconciliation
  | reconciliationCommandPublication (command : CommandId)
  | reconciliationStatePublication (command : CommandId) (connection : String)
      (phase : ReconciliationPhase)
  | reconciliationCountersPublication (command : CommandId)
  | reconciliationSuccessPublication (command : CommandId)
  | activeAlarm (alarm : AlarmId)
  | driftAlarmPublication (command : CommandId)
  | driftAlarmClearPublication (command : CommandId)
  | portAlarmPublication (activation : ActivationId)
  | portAlarmClearPublication (activation : ActivationId)
  | alarmCounterPublication (activation : ActivationId) (clear : Bool)
  | portFault (direction : PortDirection) (port : Nat)
  | portState (direction : PortDirection) (port : Nat)
  | deviceState
  deriving DecidableEq, Repr

abbrev SyncdHash : SyncdKey → Type
  | .configBatch _ => DeviceCommandBatch
  | .applyAttempt _ => DeviceCommandBatch
  | .applyResult _ => StoredResult
  | .processedCommand _ => Bool
  | .connectionVersion _ => ConnectionVersion
  | .statePublication _ _ => StatePublication
  | .generationRecovery _ => GenerationRecovery
  | .generationStatePublication _ _ => Int
  | .reconciliation => ReconciliationControl
  | .reconciliationStatePublication _ _ _ => Int
  | .activeAlarm _ => Alarm
  | .driftAlarmPublication _ => AlarmMarker
  | .driftAlarmClearPublication _ => AlarmMarker
  | .portFault _ _ => PortFault
  | .portState _ _ => PortState
  | .deviceState => DeviceStateHash
  | _ => Unit

end MiniOcs
