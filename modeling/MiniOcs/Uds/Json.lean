import MiniOcs.Json.Access
import MiniOcs.Uds.Codec

/-!
# Messages of the device socket

`uds_json.cpp`: the payloads of requests and replies. Reading a payload throws what the JSON
library throws.
-/
namespace MiniOcs.Uds

/-- The JSON library: `dump`, and `parse` with the text of its exception. -/
structure JsonCodec where
  dump : Json → List Byte
  parse : List Byte → Except String Json

/-- Parsing a dumped value gives the value. -/
def JsonCodec.Lossless (codec : JsonCodec) : Prop :=
  ∀ v, Json.Normal v → codec.parse (codec.dump v) = .ok v

abbrev OperationId := { s : String // s ≠ "" }

def operationIdText : Option OperationId → String
  | none => ""
  | some op => op.val

def operationIdOf (s : String) : Option OperationId :=
  if h : s = "" then none else some ⟨s, h⟩

theorem operationIdOf_text (op : Option OperationId) : operationIdOf (operationIdText op) = op := by
  cases op with
  | none => rfl
  | some op => simp [operationIdOf, operationIdText, op.property]

/-! ## Names -/

def directionName : PortDirection → String
  | .input => "INPUT"
  | .output => "OUTPUT"

def parseDirection (value : String) : PortDirection := if value = "OUTPUT" then .output else .input

def operationName : ConnectionOperation → String
  | .remove => "REMOVE"
  | .upsert => "UPSERT"

def parseOperation (value : String) : ConnectionOperation :=
  if value = "REMOVE" then .remove else .upsert

def portStatusName : PortOperStatus → String
  | .up => "UP"
  | .down => "DOWN"
  | .lowPower => "LOW_POWER"
  | .fault => "FAULT"
  | .unknown => "UNKNOWN"

def parsePortStatus (value : String) : PortOperStatus :=
  if value = "UP" then .up
  else if value = "DOWN" then .down
  else if value = "LOW_POWER" then .lowPower
  else if value = "FAULT" then .fault
  else .unknown

def faultName : FaultType → String
  | .nextApplyError => "NEXT_APPLY_ERROR"
  | .nextApplyTimeout => "NEXT_APPLY_TIMEOUT"
  | .inputPortDown => "INPUT_PORT_DOWN"
  | .outputPortDown => "OUTPUT_PORT_DOWN"
  | .outOfBandDrift => "OUT_OF_BAND_DRIFT"
  | .all => "ALL"

def parseFault (value : String) : FaultType :=
  if value = "NEXT_APPLY_TIMEOUT" then .nextApplyTimeout
  else if value = "INPUT_PORT_DOWN" then .inputPortDown
  else if value = "OUTPUT_PORT_DOWN" then .outputPortDown
  else if value = "OUT_OF_BAND_DRIFT" then .outOfBandDrift
  else if value = "ALL" then .all
  else .nextApplyError

/-- `toString` of `errors.cpp`. -/
def errorCodeName : ErrorCode → String
  | .ok => "OCS_OK"
  | .invalidArgument => "OCS_INVALID_ARGUMENT"
  | .invalidPort => "OCS_INVALID_PORT"
  | .connectionNotFound => "OCS_CONNECTION_NOT_FOUND"
  | .connectionExists => "OCS_CONNECTION_EXISTS"
  | .inputConflict => "OCS_INPUT_CONFLICT"
  | .outputConflict => "OCS_OUTPUT_CONFLICT"
  | .portDisabled => "OCS_PORT_DISABLED"
  | .portDown => "OCS_PORT_DOWN"
  | .deviceNotReady => "OCS_DEVICE_NOT_READY"
  | .applyTimeout => "OCS_APPLY_TIMEOUT"
  | .applyFailed => "OCS_APPLY_FAILED"
  | .versionStale => "OCS_VERSION_STALE"
  | .protocolMalformed => "OCS_PROTOCOL_MALFORMED"
  | .protocolVersion => "OCS_PROTOCOL_VERSION"
  | .payloadTooLarge => "OCS_PAYLOAD_TOO_LARGE"
  | .unsupported => "OCS_UNSUPPORTED"
  | .internalError => "OCS_INTERNAL_ERROR"

/-- The codes in the order `errorCodeFromString` tries them. -/
def errorCodes : List ErrorCode :=
  [.ok, .invalidArgument, .invalidPort, .connectionNotFound, .connectionExists, .inputConflict,
    .outputConflict, .portDisabled, .portDown, .deviceNotReady, .applyTimeout, .applyFailed,
    .versionStale, .protocolMalformed, .protocolVersion, .payloadTooLarge, .unsupported,
    .internalError]

def errorCodeFromString (value : String) : ErrorCode :=
  (errorCodes.find? fun code => errorCodeName code = value).getD .internalError

/-! ## Payloads -/

def errorJson (error : Error) : Json :=
  .object [("code", .str (errorCodeName error.code)), ("message", .str error.message)]

def parseError (value : Json) : Except String Error := do
  let code ← value.valueOr "code" "OCS_INTERNAL_ERROR"
  let message ← value.valueOr "message" ""
  return { code := errorCodeFromString code, message }

def connectionJson (connection : AppliedConnection) : Json :=
  .object [("id", .str connection.id), ("input_port", .int connection.inputPort),
    ("output_port", .int connection.outputPort),
    ("applied_version", .int connection.appliedVersion)]

def parseConnection (value : Json) : Except String AppliedConnection := do
  let id ← (← value.atKey "id").getString
  let inputPort ← (← value.atKey "input_port").getUInt16
  let outputPort ← (← value.atKey "output_port").getUInt16
  let appliedVersion ← (← value.atKey "applied_version").getUInt64
  return { id, inputPort, outputPort, appliedVersion }

def deviceInfoJson (info : DeviceInfo) : Json :=
  .object [("name", .str info.name), ("input_port_count", .int info.inputPortCount),
    ("output_port_count", .int info.outputPortCount), ("model", .str info.model),
    ("serial_number", .str info.serialNumber), ("firmware_version", .str info.firmwareVersion),
    ("generation", .int info.generation)]

def parseDeviceInfo (value : Json) : Except String DeviceInfo := do
  let name ← (← value.atKey "name").getString
  let inputPortCount ← (← value.atKey "input_port_count").getUInt16
  let outputPortCount ← (← value.atKey "output_port_count").getUInt16
  let model ← (← value.atKey "model").getString
  let serialNumber ← (← value.atKey "serial_number").getString
  let firmwareVersion ← (← value.atKey "firmware_version").getString
  let generation ← (← value.atKey "generation").getUInt64
  return { name, inputPortCount, outputPortCount, model, serialNumber, firmwareVersion, generation }

def commandJson (command : ConnectionCommand) : Json :=
  .object [("operation", .str (operationName command.operation)), ("id", .str command.id),
    ("input_port", .int command.inputPort), ("output_port", .int command.outputPort),
    ("desired_version", .int command.desiredVersion)]

def parseCommand (value : Json) : Except String ConnectionCommand := do
  let operation ← (← value.atKey "operation").getString
  let id ← (← value.atKey "id").getString
  let inputPort ← (← value.atKey "input_port").getUInt16
  let outputPort ← (← value.atKey "output_port").getUInt16
  let desiredVersion ← (← value.atKey "desired_version").getUInt64
  return { operation := parseOperation operation, id, inputPort, outputPort, desiredVersion }

structure ApplyRequest where
  commands : List ConnectionCommand
  options : ApplyOptions OperationId

def applyRequestJson (request : ApplyRequest) : Json :=
  .object [("commands", .arr (request.commands.map commandJson)),
    ("atomic", .bool request.options.atomic), ("timeout_ms", .int request.options.timeoutMs),
    ("operation_id", .str (operationIdText request.options.operationId))]

def parseApplyRequest (value : Json) : Except String ApplyRequest := do
  let atomic ← (← value.atKey "atomic").getBool
  let timeoutMs ← (← value.atKey "timeout_ms").getInt64
  let operationId ← value.valueOr "operation_id" ""
  let commands ← (← value.atKey "commands").elements.mapM parseCommand
  return { commands, options := { atomic, timeoutMs, operationId := operationIdOf operationId } }

def applyResultJson (result : ApplyResult) : Json :=
  .object [("error", errorJson result.error),
    ("connections", .arr (result.connections.map connectionJson))]

def parseApplyResult (value : Json) : Except String ApplyResult := do
  let error ← parseError (← value.atKey "error")
  let connections ← (← value.atKey "connections").elements.mapM parseConnection
  return { error, connections }

def connectionsJson (connections : List AppliedConnection) : Json :=
  .arr (connections.map connectionJson)

def parseConnections (value : Json) : Except String (List AppliedConnection) :=
  value.elements.mapM parseConnection

structure PortRequest where
  direction : PortDirection
  portId : Nat

def portRequestJson (request : PortRequest) : Json :=
  .object [("direction", .str (directionName request.direction)), ("port_id", .int request.portId)]

def parsePortRequest (value : Json) : Except String PortRequest := do
  let direction ← (← value.atKey "direction").getString
  let portId ← (← value.atKey "port_id").getUInt16
  return { direction := parseDirection direction, portId }

def portStateJson (state : PortState) : Json :=
  .object [("id", .int state.id), ("direction", .str (directionName state.direction)),
    ("admin_enabled", .bool state.adminEnabled),
    ("oper_status", .str (portStatusName state.operStatus)),
    ("optical_power_dbm", .real state.opticalPowerDbm)]

def parsePortState (value : Json) : Except String PortState := do
  let id ← (← value.atKey "id").getUInt16
  let direction ← (← value.atKey "direction").getString
  let adminEnabled ← (← value.atKey "admin_enabled").getBool
  let operStatus ← (← value.atKey "oper_status").getString
  let opticalPowerDbm ← (← value.atKey "optical_power_dbm").getDouble
  return { id, direction := parseDirection direction, adminEnabled,
           operStatus := parsePortStatus operStatus, opticalPowerDbm }

def resetModeName : ResetMode → String
  | .hard => "HARD"
  | .soft => "SOFT"

def resetRequestJson (mode : ResetMode) : Json := .object [("mode", .str (resetModeName mode))]

def parseResetRequest (value : Json) : Except String ResetMode := do
  let mode ← (← value.atKey "mode").getString
  return if mode = "HARD" then .hard else .soft

structure ResetResult where
  error : Error
  generation : Nat
  deriving DecidableEq, Repr

def resetResultJson (result : ResetResult) : Json :=
  .object [("error", errorJson result.error), ("generation", .int result.generation)]

def parseResetResult (value : Json) : Except String ResetResult := do
  let error ← parseError (← value.atKey "error")
  let generation ← (← value.atKey "generation").getUInt64
  return { error, generation }

structure FaultRequest where
  clear : Bool
  fault : FaultSpec

def faultRequestJson (request : FaultRequest) : Json :=
  .object [("action", .str (if request.clear then "CLEAR" else "INJECT")),
    ("type", .str (faultName request.fault.type)), ("port_id", .int request.fault.portId)]

def parseFaultRequest (value : Json) : Except String FaultRequest := do
  let action ← (← value.atKey "action").getString
  let type ← (← value.atKey "type").getString
  let portId ← (← value.atKey "port_id").getUInt16
  return { clear := action = "CLEAR", fault := { type := parseFault type, portId } }

def faultResultJson (error : Error) : Json := .object [("error", errorJson error)]

def parseFaultResult (value : Json) : Except String Error := do
  parseError (← value.atKey "error")

/-! ## Encoding and decoding -/

/-- `Json{...}.dump()`. -/
def encodeAs {α : Type} (write : α → Json) (codec : JsonCodec) (a : α) : List Byte :=
  codec.dump (write a)

/-- `Json::parse(payload)` and what is read of it. -/
def decodeAs {α : Type} (read : Json → Except String α) (codec : JsonCodec) (payload : List Byte) :
    Except String α := do
  read (← codec.parse payload)

def encodeError := encodeAs errorJson
def decodeError := decodeAs parseError
def encodeDeviceInfo := encodeAs deviceInfoJson
def decodeDeviceInfo := decodeAs parseDeviceInfo
def encodeApplyRequest := encodeAs applyRequestJson
def decodeApplyRequest := decodeAs parseApplyRequest
def encodeApplyResult := encodeAs applyResultJson
def decodeApplyResult := decodeAs parseApplyResult
def encodeConnections := encodeAs connectionsJson
def decodeConnections := decodeAs parseConnections
def encodePortRequest := encodeAs portRequestJson
def decodePortRequest := decodeAs parsePortRequest
def encodePortState := encodeAs portStateJson
def decodePortState := decodeAs parsePortState
def encodeResetRequest := encodeAs resetRequestJson
def decodeResetRequest := decodeAs parseResetRequest
def encodeResetResult := encodeAs resetResultJson
def decodeResetResult := decodeAs parseResetResult
def encodeFaultRequest := encodeAs faultRequestJson
def decodeFaultRequest := decodeAs parseFaultRequest
def encodeFaultResult := encodeAs faultResultJson
def decodeFaultResult := decodeAs parseFaultResult

/-! ## Names come back -/

@[simp] theorem parseDirection_name (direction : PortDirection) :
    parseDirection (directionName direction) = direction := by
  cases direction <;> decide

@[simp] theorem parseOperation_name (operation : ConnectionOperation) :
    parseOperation (operationName operation) = operation := by
  cases operation <;> decide

@[simp] theorem parsePortStatus_name (status : PortOperStatus) :
    parsePortStatus (portStatusName status) = status := by
  cases status <;> decide

@[simp] theorem parseFault_name (type : FaultType) : parseFault (faultName type) = type := by
  cases type <;> decide

@[simp] theorem errorCodeFromString_name (code : ErrorCode) :
    errorCodeFromString (errorCodeName code) = code := by
  cases code <;> decide

/-! ## Payloads come back -/

/-- The integers fit the fields of the C++ structure. -/
structure TypedConnection (c : AppliedConnection) : Prop where
  inputPort : c.inputPort < 65536
  outputPort : c.outputPort < 65536
  appliedVersion : c.appliedVersion < 18446744073709551616

structure TypedCommand (c : ConnectionCommand) : Prop where
  inputPort : c.inputPort < 65536
  outputPort : c.outputPort < 65536
  desiredVersion : c.desiredVersion < 18446744073709551616

structure TypedInfo (info : DeviceInfo) : Prop where
  inputPortCount : info.inputPortCount < 65536
  outputPortCount : info.outputPortCount < 65536
  generation : info.generation < 18446744073709551616

structure TypedPort (state : PortState) : Prop where
  id : state.id < 65536
  opticalPowerDbm : state.opticalPowerDbm.den = 1 ∧
    -9007199254740992 ≤ state.opticalPowerDbm.num ∧ state.opticalPowerDbm.num ≤ 9007199254740992

structure TypedOptions (options : ApplyOptions OperationId) : Prop where
  low : -9223372036854775808 ≤ options.timeoutMs
  high : options.timeoutMs < 9223372036854775808

/-- A payload that the receiver reads as the sender meant it. -/
structure Readable {α : Type} (write : α → Json) (read : Json → Except String α) (a : α) : Prop where
  normal : Json.Normal (write a)
  back : read (write a) = .ok a

/-- Both ends of the socket agree on a readable payload. -/
theorem Readable.decode_encode {α : Type} {write : α → Json} {read : Json → Except String α} {a : α}
    (h : Readable write read a) {codec : JsonCodec} (hcodec : codec.Lossless) :
    decodeAs read codec (encodeAs write codec a) = .ok a := by
  rw [decodeAs, encodeAs, hcodec _ h.normal]
  exact h.back

theorem readable_arr {α : Type} {write : α → Json} {read : Json → Except String α} {xs : List α}
    (h : ∀ x ∈ xs, Readable write read x) :
    Json.Normal (.arr (xs.map write)) ∧ (xs.map write).mapM read = .ok xs := by
  constructor
  · apply Json.normal_arr
    intro item hitem
    obtain ⟨x, hx, rfl⟩ := List.mem_map.mp hitem
    exact (h x hx).normal
  · have hback := Json.mapM_map_ok (g := id) fun x hx => (h x hx).back
    rwa [List.map_id] at hback

theorem normal_port {n : Nat} (h : n < 65536) : Json.Normal (.int n) := Json.normal_nat (by omega)

theorem readable_error (error : Error) : Readable errorJson parseError error := by
  constructor
  · apply Json.normal_object
    simp [Json.normal_str]
  · simp [parseError, errorJson]

theorem readable_connection {c : AppliedConnection} (h : TypedConnection c) :
    Readable connectionJson parseConnection c := by
  constructor
  · apply Json.normal_object
    simp [Json.normal_str, normal_port h.inputPort, normal_port h.outputPort,
      Json.normal_nat h.appliedVersion]
  · simp [parseConnection, connectionJson, Json.getUInt16_nat h.inputPort,
      Json.getUInt16_nat h.outputPort, Json.getUInt64_nat h.appliedVersion]

theorem readable_deviceInfo {info : DeviceInfo} (h : TypedInfo info) :
    Readable deviceInfoJson parseDeviceInfo info := by
  constructor
  · apply Json.normal_object
    simp [Json.normal_str, normal_port h.inputPortCount, normal_port h.outputPortCount,
      Json.normal_nat h.generation]
  · simp [parseDeviceInfo, deviceInfoJson, Json.getUInt16_nat h.inputPortCount,
      Json.getUInt16_nat h.outputPortCount, Json.getUInt64_nat h.generation]

theorem readable_command {c : ConnectionCommand} (h : TypedCommand c) :
    Readable commandJson parseCommand c := by
  constructor
  · apply Json.normal_object
    simp [Json.normal_str, normal_port h.inputPort, normal_port h.outputPort,
      Json.normal_nat h.desiredVersion]
  · simp [parseCommand, commandJson, Json.getUInt16_nat h.inputPort,
      Json.getUInt16_nat h.outputPort, Json.getUInt64_nat h.desiredVersion]

theorem readable_applyRequest {request : ApplyRequest} (hoptions : TypedOptions request.options)
    (hcommands : ∀ c ∈ request.commands, TypedCommand c) :
    Readable applyRequestJson parseApplyRequest request := by
  obtain ⟨hnormal, hback⟩ := readable_arr fun c hc => readable_command (hcommands c hc)
  have htimeout : Json.Normal (.int request.options.timeoutMs) := by
    rw [Json.Normal]
    exact ⟨hoptions.low, hoptions.high.trans (by decide)⟩
  constructor
  · apply Json.normal_object
    simp [Json.normal_str, Json.normal_bool, hnormal, htimeout]
  · simp [parseApplyRequest, applyRequestJson, Json.getInt64_int hoptions.low hoptions.high, hback,
      operationIdOf_text]

theorem readable_applyResult {result : ApplyResult}
    (h : ∀ c ∈ result.connections, TypedConnection c) :
    Readable applyResultJson parseApplyResult result := by
  obtain ⟨hnormal, hback⟩ := readable_arr fun c hc => readable_connection (h c hc)
  constructor
  · apply Json.normal_object
    simp [(readable_error _).normal, hnormal]
  · simp [parseApplyResult, applyResultJson, (readable_error _).back, hback]

theorem readable_connections {connections : List AppliedConnection}
    (h : ∀ c ∈ connections, TypedConnection c) :
    Readable connectionsJson parseConnections connections := by
  obtain ⟨hnormal, hback⟩ := readable_arr fun c hc => readable_connection (h c hc)
  exact ⟨hnormal, hback⟩

theorem readable_portRequest {request : PortRequest} (h : request.portId < 65536) :
    Readable portRequestJson parsePortRequest request := by
  constructor
  · apply Json.normal_object
    simp [Json.normal_str, normal_port h]
  · simp [parsePortRequest, portRequestJson, Json.getUInt16_nat h]

theorem readable_portState {state : PortState} (h : TypedPort state) :
    Readable portStateJson parsePortState state := by
  have hpower : Json.Normal (.real state.opticalPowerDbm) := by
    rw [Json.Normal]
    exact h.opticalPowerDbm
  constructor
  · apply Json.normal_object
    simp [Json.normal_str, Json.normal_bool, normal_port h.id, hpower]
  · simp [parsePortState, portStateJson, Json.getUInt16_nat h.id, Json.getDouble]

theorem readable_resetRequest (mode : ResetMode) :
    Readable resetRequestJson parseResetRequest mode := by
  constructor
  · apply Json.normal_object
    simp [Json.normal_str]
  · cases mode <;> simp [parseResetRequest, resetRequestJson, resetModeName]

theorem readable_resetResult {result : ResetResult}
    (h : result.generation < 18446744073709551616) :
    Readable resetResultJson parseResetResult result := by
  constructor
  · apply Json.normal_object
    simp [(readable_error _).normal, Json.normal_nat h]
  · simp [parseResetResult, resetResultJson, (readable_error _).back, Json.getUInt64_nat h]

theorem readable_faultRequest {request : FaultRequest} (h : request.fault.portId < 65536) :
    Readable faultRequestJson parseFaultRequest request := by
  obtain ⟨clear, fault⟩ := request
  constructor
  · apply Json.normal_object
    simp [Json.normal_str, normal_port h]
  · cases clear <;> simp [parseFaultRequest, faultRequestJson, Json.getUInt16_nat h]

theorem readable_faultResult (error : Error) : Readable faultResultJson parseFaultResult error := by
  constructor
  · apply Json.normal_object
    simp [(readable_error _).normal]
  · simp [parseFaultResult, faultResultJson, (readable_error _).back]

end MiniOcs.Uds
