import MiniOcs.Redis.Events

/-!
# Records that are read again

The payloads that the services store and decode after a restart: device commands, durable results,
retries and the envelope around them.
-/
namespace MiniOcs.Redis
open Json

/-! ## Writing and reading -/

def deviceCommandJson (batch : CommandBatch) : Json :=
  .object [("commands", .arr (batch.commands.map Uds.commandJson)),
    ("atomic", .bool batch.options.atomic), ("timeout_ms", .int batch.options.timeoutMs),
    ("operation_id", .str (Uds.operationIdText batch.options.operationId))]

def durableResultJson (result : ApplyResult) : Json :=
  .object [("success", .bool result.isOk), ("error_code", .str (Uds.errorCodeName result.error.code)),
    ("error_message", .str result.error.message),
    ("connections", .arr (result.connections.map Uds.connectionJson))]

def parseDurableResult (value : Json) : Except String ApplyResult := do
  let code ← (← value.atKey "error_code").getString
  let message ← (← value.atKey "error_message").getString
  let connections ← (← value.atKey "connections").elements.mapM Uds.parseConnection
  return { error := { code := Uds.errorCodeFromString code, message }, connections }

def retryJson (batch : Json) (failedCommandId : String) (retryAttempt notBeforeNs : Nat) : Json :=
  .object [("batch", batch), ("failed_command_id", .str failedCommandId),
    ("retry_attempt", .int retryAttempt), ("not_before_ns", .int notBeforeNs)]

section Codec

-- `dump` and `parse` of the JSON library
variable (dump : Json → String) (parse : String → Except String Json)

def encodeDeviceCommand (batch : CommandBatch) : String := dump (deviceCommandJson batch)

def durableResultPayload (result : ApplyResult) : String := dump (durableResultJson result)

def decodeDurableResult (payload : String) : Except String ApplyResult := do
  parseDurableResult (← parse payload)

def retryPayload (batch : CommandBatch) (failedCommandId : String) (retryAttempt notBeforeNs : Nat) :
    Except String String := do
  let value ← parse (encodeDeviceCommand dump batch)
  return dump (retryJson value failedCommandId retryAttempt notBeforeNs)

def retryBatch (payload : Json) : Except String CommandBatch := do
  decodeDeviceCommand parse (dump (← payload.atKey "batch"))

end Codec

/-! ## Records of the services -/

/-- The ports of a removal are not kept. -/
def CommandBatch.normalized (batch : CommandBatch) : CommandBatch :=
  { batch with commands := batch.commands.map decodeCommand }

/-- A batch that the services build: the integers fit their types, and the ports of an upsert
are positive. -/
structure CommandBatch.Sendable (batch : CommandBatch) : Prop where
  nonempty : batch.commands ≠ []
  timeout : 0 < batch.options.timeoutMs ∧ batch.options.timeoutMs < 9223372036854775808
  typed : ∀ command ∈ batch.commands, Uds.TypedCommand command
  ports : ∀ command ∈ batch.commands, command.operation = .upsert →
    0 < command.inputPort ∧ 0 < command.outputPort

structure EventEnvelope.Typed (event : EventEnvelope) : Prop where
  eventSchemaVersion : event.eventSchemaVersion < 4294967296
  timestampNs : event.timestampNs < 18446744073709551616
  desiredVersion : event.desiredVersion < 18446744073709551616

/-- Parsing a dumped value gives the value. -/
def Lossless (dump : Json → String) (parse : String → Except String Json) : Prop :=
  ∀ v, Normal v → parse (dump v) = .ok v

/-! ## Device commands -/

theorem parseOperation_name (operation : ConnectionOperation) :
    parseOperation (Uds.operationName operation) = .ok operation := by
  cases operation <;> rfl

theorem parseCommand_commandJson {command : ConnectionCommand} (htyped : Uds.TypedCommand command)
    (hports : command.operation = .upsert → 0 < command.inputPort ∧ 0 < command.outputPort) :
    parseCommand (Uds.commandJson command) = .ok (decodeCommand command) := by
  have hversion := Json.getUInt64_nat htyped.desiredVersion
  have hin := htyped.inputPort
  have hout := htyped.outputPort
  obtain ⟨operation, id, inputPort, outputPort, desiredVersion⟩ := command
  dsimp only at hports hversion hin hout
  have hoperation : (Uds.commandJson ⟨operation, id, inputPort, outputPort, desiredVersion⟩).atKey
      "operation" = .ok (.str (Uds.operationName operation)) := by simp [Uds.commandJson]
  have hid : (Uds.commandJson ⟨operation, id, inputPort, outputPort, desiredVersion⟩).atKey "id" =
      .ok (.str id) := by simp [Uds.commandJson]
  have hdesired : (Uds.commandJson ⟨operation, id, inputPort, outputPort, desiredVersion⟩).atKey
      "desired_version" = .ok (.int desiredVersion) := by simp [Uds.commandJson]
  cases operation with
  | remove =>
      simp [parseCommand, hoperation, hid, hdesired, hversion, parseOperation_name, decodeCommand]
  | upsert =>
      obtain ⟨hinPos, houtPos⟩ := hports rfl
      have hinput : parsePort (Uds.commandJson ⟨.upsert, id, inputPort, outputPort, desiredVersion⟩)
          "input_port" = .ok inputPort := parsePort_nat (by omega) (by simp)
      have houtput : parsePort (Uds.commandJson ⟨.upsert, id, inputPort, outputPort, desiredVersion⟩)
          "output_port" = .ok outputPort := parsePort_nat (by omega) (by simp)
      simp [parseCommand, hoperation, hid, hdesired, hversion, parseOperation_name, decodeCommand,
        hinput, houtput]

theorem normal_deviceCommandJson {batch : CommandBatch} (h : batch.Sendable) :
    Normal (deviceCommandJson batch) := by
  have hitems : Normal (.arr (batch.commands.map Uds.commandJson)) := by
    apply Json.normal_arr
    intro item hitem
    obtain ⟨command, hcommand, rfl⟩ := List.mem_map.mp hitem
    exact (Uds.readable_command (h.typed command hcommand)).normal
  have htimeout : Json.Normal (.int batch.options.timeoutMs) := by
    obtain ⟨hpos, hlt⟩ := h.timeout
    rw [Json.Normal]
    omega
  apply Json.normal_object
  simp [hitems, htimeout, Json.normal_bool, Json.normal_str]

section Codec

variable {dump : Json → String} {parse : String → Except String Json}

theorem decodeDeviceCommand_dump (hcodec : Lossless dump parse) {batch : CommandBatch}
    (h : batch.Sendable) :
    decodeDeviceCommand parse (dump (deviceCommandJson batch)) = .ok batch.normalized := by
  have hcommands : (batch.commands.map Uds.commandJson).mapM parseCommand =
      .ok (batch.commands.map decodeCommand) :=
    Json.mapM_map_ok fun command hcommand =>
      parseCommand_commandJson (h.typed command hcommand) (h.ports command hcommand)
  obtain ⟨hpos, hlt⟩ := h.timeout
  unfold decodeDeviceCommand
  rw [hcodec _ (normal_deviceCommandJson h)]
  simp [deviceCommandJson, Json.getInt64_int (n := batch.options.timeoutMs) (by omega) hlt,
    hcommands, h.nonempty, show ¬batch.options.timeoutMs ≤ 0 by omega, Uds.operationIdOf_text]
  rfl

/-! ## Durable results -/

theorem readable_durableResult {result : ApplyResult}
    (h : ∀ c ∈ result.connections, Uds.TypedConnection c) :
    Uds.Readable durableResultJson parseDurableResult result := by
  obtain ⟨hnormal, hback⟩ := Uds.readable_arr fun c hc => Uds.readable_connection (h c hc)
  constructor
  · apply Json.normal_object
    simp [Json.normal_bool, Json.normal_str, hnormal]
  · simp [parseDurableResult, durableResultJson, hback]

theorem decodeDurableResult_payload (hcodec : Lossless dump parse) {result : ApplyResult}
    (h : ∀ c ∈ result.connections, Uds.TypedConnection c) :
    decodeDurableResult parse (durableResultPayload dump result) = .ok result := by
  unfold decodeDurableResult durableResultPayload
  rw [hcodec _ (readable_durableResult h).normal]
  exact (readable_durableResult h).back

/-! ## Retries -/

theorem retryPayload_ok (hcodec : Lossless dump parse) {batch : CommandBatch} (h : batch.Sendable)
    (failedCommandId : String) (retryAttempt notBeforeNs : Nat) :
    retryPayload dump parse batch failedCommandId retryAttempt notBeforeNs =
      .ok (dump (retryJson (deviceCommandJson batch) failedCommandId retryAttempt notBeforeNs)) := by
  unfold retryPayload encodeDeviceCommand
  rw [hcodec _ (normal_deviceCommandJson h)]
  rfl

theorem normal_retryJson {batch : CommandBatch} (h : batch.Sendable) (failedCommandId : String)
    {retryAttempt notBeforeNs : Nat} (hattempt : retryAttempt < 18446744073709551616)
    (hbefore : notBeforeNs < 18446744073709551616) :
    Normal (retryJson (deviceCommandJson batch) failedCommandId retryAttempt notBeforeNs) := by
  apply Json.normal_object
  simp [normal_deviceCommandJson h, Json.normal_str, Json.normal_nat hattempt,
    Json.normal_nat hbefore]

theorem retryBatch_retryJson (hcodec : Lossless dump parse) {batch : CommandBatch}
    (h : batch.Sendable) (failedCommandId : String) (retryAttempt notBeforeNs : Nat) :
    retryBatch dump parse (retryJson (deviceCommandJson batch) failedCommandId retryAttempt
      notBeforeNs) = .ok batch.normalized := by
  have hat : (retryJson (deviceCommandJson batch) failedCommandId retryAttempt notBeforeNs).atKey
      "batch" = .ok (deviceCommandJson batch) := by simp [retryJson]
  unfold retryBatch
  rw [hat]
  exact decodeDeviceCommand_dump hcodec h

end Codec

/-! ## Envelopes -/

theorem parseUnsigned_repr (name : String) {n : Nat} (h : n < 18446744073709551616) :
    parseUnsigned name n.repr = .ok n := parseUnsigned_decimal name h

theorem parseEvent_eventFields {event : EventEnvelope} (h : event.Typed) :
    parseEvent (eventFields event) = .ok event := by
  have hschema := h.eventSchemaVersion
  have hversion := parseUnsigned_repr "stoul" (show event.eventSchemaVersion < _ by omega)
  have htime := parseUnsigned_repr "stoull" h.timestampNs
  have hdesired := parseUnsigned_repr "stoull" h.desiredVersion
  simp [parseEvent, eventFields, required, List.lookup_cons, hversion, htime, hdesired,
    Nat.mod_eq_of_lt hschema]

/-! ## Decoded records -/

theorem parsePort_bounds {entry : Json} {field : String} {port : Nat}
    (h : parsePort entry field = .ok port) : 0 < port ∧ port < 65536 := by
  obtain ⟨value, -, h⟩ := bind_eq_ok.mp h
  cases value with
  | int n =>
      dsimp only at h
      split_ifs at h
      cases h
      omega
  | _ => cases h

/-- A decoded command can be sent, and decodes to itself. -/
structure SettledCommand (command : ConnectionCommand) : Prop where
  typed : Uds.TypedCommand command
  ports : command.operation = .upsert → 0 < command.inputPort ∧ 0 < command.outputPort
  fixed : decodeCommand command = command

theorem parseCommand_settled {entry : Json} {command : ConnectionCommand}
    (h : parseCommand entry = .ok command) : SettledCommand command := by
  unfold parseCommand at h
  obtain ⟨_, -, h⟩ := bind_eq_ok.mp h
  obtain ⟨_, -, h⟩ := bind_eq_ok.mp h
  obtain ⟨operation, -, h⟩ := bind_eq_ok.mp h
  obtain ⟨_, -, h⟩ := bind_eq_ok.mp h
  obtain ⟨id, -, h⟩ := bind_eq_ok.mp h
  obtain ⟨_, -, h⟩ := bind_eq_ok.mp h
  obtain ⟨desiredVersion, hversion, h⟩ := bind_eq_ok.mp h
  have hlt := getUInt64_lt hversion
  cases operation with
  | remove =>
      cases h
      exact ⟨⟨by dsimp only; omega, by dsimp only; omega, hlt⟩, nofun, rfl⟩
  | upsert =>
      obtain ⟨inputPort, hin, h⟩ := bind_eq_ok.mp h
      obtain ⟨outputPort, hout, h⟩ := bind_eq_ok.mp h
      cases h
      have hinBounds := parsePort_bounds hin
      have houtBounds := parsePort_bounds hout
      exact ⟨⟨hinBounds.2, houtBounds.2, hlt⟩, fun _ => ⟨hinBounds.1, houtBounds.1⟩, rfl⟩

theorem forall_of_mapM {α : Type} {read : Json → Except String α} {P : α → Prop}
    (hread : ∀ v a, read v = .ok a → P a) {vs : List Json} {as : List α}
    (h : vs.mapM read = .ok as) : ∀ a ∈ as, P a := by
  have hall := forall₂_of_mapM h
  clear h
  induction hall with
  | nil => simp
  | cons hva _ ih =>
      intro a ha
      rcases List.mem_cons.mp ha with rfl | ha
      · exact hread _ _ hva
      · exact ih a ha

theorem decodeDeviceCommand_sendable {parse : String → Except String Json} {text : String}
    {batch : CommandBatch} (h : decodeDeviceCommand parse text = .ok batch) :
    batch.Sendable ∧ batch.normalized = batch := by
  unfold decodeDeviceCommand at h
  obtain ⟨value, -, h⟩ := bind_eq_ok.mp h
  obtain ⟨_, -, h⟩ := bind_eq_ok.mp h
  obtain ⟨atomic, -, h⟩ := bind_eq_ok.mp h
  obtain ⟨_, -, h⟩ := bind_eq_ok.mp h
  obtain ⟨timeoutMs, htimeout, h⟩ := bind_eq_ok.mp h
  obtain ⟨operationId, -, h⟩ := bind_eq_ok.mp h
  split_ifs at h with hpos
  obtain ⟨entries, -, h⟩ := bind_eq_ok.mp h
  obtain ⟨commands, hread, h⟩ := bind_eq_ok.mp h
  split_ifs at h with hempty
  cases h
  have hsettled := forall_of_mapM (fun _ _ => parseCommand_settled) hread
  constructor
  · exact ⟨by simpa using hempty, ⟨by dsimp only; omega, getInt64_lt htimeout⟩,
      fun command hcommand => (hsettled command hcommand).typed,
      fun command hcommand => (hsettled command hcommand).ports⟩
  · have hfixed : commands.map decodeCommand = commands := by
      conv_rhs => rw [← List.map_id commands]
      exact List.map_congr_left fun command hcommand => (hsettled command hcommand).fixed
    simp [CommandBatch.normalized, hfixed]

theorem parseConnection_typed {value : Json} {connection : AppliedConnection}
    (h : Uds.parseConnection value = .ok connection) : Uds.TypedConnection connection := by
  unfold Uds.parseConnection at h
  obtain ⟨_, -, h⟩ := bind_eq_ok.mp h
  obtain ⟨id, -, h⟩ := bind_eq_ok.mp h
  obtain ⟨_, -, h⟩ := bind_eq_ok.mp h
  obtain ⟨inputPort, hin, h⟩ := bind_eq_ok.mp h
  obtain ⟨_, -, h⟩ := bind_eq_ok.mp h
  obtain ⟨outputPort, hout, h⟩ := bind_eq_ok.mp h
  obtain ⟨_, -, h⟩ := bind_eq_ok.mp h
  obtain ⟨appliedVersion, hversion, h⟩ := bind_eq_ok.mp h
  cases h
  exact ⟨getUInt16_lt hin, getUInt16_lt hout, getUInt64_lt hversion⟩

theorem decodeDurableResult_typed {parse : String → Except String Json} {text : String}
    {result : ApplyResult} (h : decodeDurableResult parse text = .ok result) :
    ∀ c ∈ result.connections, Uds.TypedConnection c := by
  unfold decodeDurableResult parseDurableResult at h
  obtain ⟨value, -, h⟩ := bind_eq_ok.mp h
  obtain ⟨_, -, h⟩ := bind_eq_ok.mp h
  obtain ⟨code, -, h⟩ := bind_eq_ok.mp h
  obtain ⟨_, -, h⟩ := bind_eq_ok.mp h
  obtain ⟨message, -, h⟩ := bind_eq_ok.mp h
  obtain ⟨_, -, h⟩ := bind_eq_ok.mp h
  obtain ⟨connections, hread, h⟩ := bind_eq_ok.mp h
  cases h
  exact forall_of_mapM (fun _ _ => parseConnection_typed) hread

theorem parseUnsigned_lt {name text : String} {n : Nat} (h : parseUnsigned name text = .ok n) :
    n < 18446744073709551616 := by
  unfold parseUnsigned at h
  split at h
  · rename_i value hvalue
    cases h
    unfold stoull at hvalue
    obtain ⟨⟨negative, magnitude⟩, -, hvalue⟩ := Option.bind_eq_some_iff.mp hvalue
    dsimp only at hvalue
    split_ifs at hvalue
    · cases hvalue
      omega
    · cases hvalue
      omega
  · cases h

theorem parseEvent_typed {fields : List (String × String)} {event : EventEnvelope}
    (h : parseEvent fields = .ok event) : event.Typed := by
  unfold parseEvent at h
  obtain ⟨_, -, h⟩ := bind_eq_ok.mp h
  obtain ⟨eventSchemaVersion, -, h⟩ := bind_eq_ok.mp h
  obtain ⟨eventId, -, h⟩ := bind_eq_ok.mp h
  obtain ⟨requestId, -, h⟩ := bind_eq_ok.mp h
  obtain ⟨_, -, h⟩ := bind_eq_ok.mp h
  obtain ⟨timestampNs, htime, h⟩ := bind_eq_ok.mp h
  obtain ⟨device, -, h⟩ := bind_eq_ok.mp h
  obtain ⟨resourceType, -, h⟩ := bind_eq_ok.mp h
  obtain ⟨resourceId, -, h⟩ := bind_eq_ok.mp h
  obtain ⟨operation, -, h⟩ := bind_eq_ok.mp h
  obtain ⟨_, -, h⟩ := bind_eq_ok.mp h
  obtain ⟨desiredVersion, hversion, h⟩ := bind_eq_ok.mp h
  obtain ⟨payload, -, h⟩ := bind_eq_ok.mp h
  cases h
  exact ⟨Nat.mod_lt _ (by decide), parseUnsigned_lt htime, parseUnsigned_lt hversion⟩

/-! ## Round trips -/

section RoundTrips

variable (dump : Json → String) (parse : String → Except String Json)

/-- A retry that is stored, and whose batch is recovered. -/
def recoveredRetry (batch : CommandBatch) (failedCommandId : String)
    (retryAttempt notBeforeNs : Nat) : Except String CommandBatch := do
  let text ← retryPayload dump parse batch failedCommandId retryAttempt notBeforeNs
  retryBatch dump parse (← parse text)

variable {dump parse}

theorem recoveredRetry_normalized (hcodec : Lossless dump parse) {batch : CommandBatch}
    (h : batch.Sendable) (failedCommandId : String) {retryAttempt notBeforeNs : Nat}
    (hattempt : retryAttempt < 18446744073709551616) (hbefore : notBeforeNs < 18446744073709551616) :
    recoveredRetry dump parse batch failedCommandId retryAttempt notBeforeNs =
      .ok batch.normalized := by
  unfold recoveredRetry
  rw [retryPayload_ok hcodec h]
  dsimp only [ok_bind]
  rw [hcodec _ (normal_retryJson h failedCommandId hattempt hbefore)]
  exact retryBatch_retryJson hcodec h failedCommandId retryAttempt notBeforeNs

/-- Every durable record is read back as it was written, and one that was decoded can be written
again. -/
theorem durable_records_round_trip (hcodec : Lossless dump parse) :
    ((∀ batch : CommandBatch, batch.Sendable →
        decodeDeviceCommand parse (encodeDeviceCommand dump batch) = .ok batch.normalized) ∧
      (∀ result : ApplyResult, (∀ c ∈ result.connections, Uds.TypedConnection c) →
        decodeDurableResult parse (durableResultPayload dump result) = .ok result) ∧
      (∀ event : EventEnvelope, event.Typed → parseEvent (eventFields event) = .ok event) ∧
      ∀ (batch : CommandBatch) failedCommandId retryAttempt notBeforeNs, batch.Sendable →
        retryAttempt < 18446744073709551616 → notBeforeNs < 18446744073709551616 →
        recoveredRetry dump parse batch failedCommandId retryAttempt notBeforeNs =
          .ok batch.normalized) ∧
    (∀ text batch, decodeDeviceCommand parse text = .ok batch →
        decodeDeviceCommand parse (encodeDeviceCommand dump batch) = .ok batch) ∧
      (∀ text result, decodeDurableResult parse text = .ok result →
        decodeDurableResult parse (durableResultPayload dump result) = .ok result) ∧
      (∀ fields event, parseEvent fields = .ok event →
        parseEvent (eventFields event) = .ok event) ∧
      ∀ payload batch failedCommandId retryAttempt notBeforeNs,
        retryBatch dump parse payload = .ok batch → retryAttempt < 18446744073709551616 →
        notBeforeNs < 18446744073709551616 →
        recoveredRetry dump parse batch failedCommandId retryAttempt notBeforeNs = .ok batch := by
  refine ⟨⟨fun batch h => decodeDeviceCommand_dump hcodec h,
    fun result h => decodeDurableResult_payload hcodec h, fun event h => parseEvent_eventFields h,
    fun batch failed _ _ h hattempt hbefore =>
      recoveredRetry_normalized hcodec h failed hattempt hbefore⟩, ?_, ?_, ?_, ?_⟩
  · intro text batch h
    obtain ⟨hsendable, hfixed⟩ := decodeDeviceCommand_sendable h
    exact (decodeDeviceCommand_dump hcodec hsendable).trans (by rw [hfixed])
  · exact fun text result h => decodeDurableResult_payload hcodec (decodeDurableResult_typed h)
  · exact fun fields event h => parseEvent_eventFields (parseEvent_typed h)
  · intro payload batch failed _ _ h hattempt hbefore
    obtain ⟨value, -, h⟩ := bind_eq_ok.mp h
    obtain ⟨hsendable, hfixed⟩ := decodeDeviceCommand_sendable h
    exact (recoveredRetry_normalized hcodec hsendable failed hattempt hbefore).trans (by rw [hfixed])

end RoundTrips

/-- `dump` with its default arguments. -/
def textDump (v : Json) : String := String.ofList (Json.render false v)

theorem textDump_lossless : Lossless textDump textParse := by
  intro v hv
  simp only [textParse, textDump, String.toList_ofList, Json.parseText_render false hv]

/-- A batch with an upsert and a removal that still names its ports. -/
def storedBatch : CommandBatch where
  commands := [{ id := "a", inputPort := 1, outputPort := 2, desiredVersion := 3 },
    { operation := .remove, id := "b", inputPort := 4, outputPort := 5, desiredVersion := 3 }]

theorem storedBatch_sendable : storedBatch.Sendable where
  nonempty := by decide
  timeout := by decide
  typed := by
    simp only [storedBatch, List.mem_cons, List.not_mem_nil, or_false, forall_eq_or_imp, forall_eq]
    exact ⟨⟨by decide, by decide, by decide⟩, by decide, by decide, by decide⟩
  ports := by decide

theorem durable_records_round_trip_stored :
    decodeDeviceCommand textParse (encodeDeviceCommand textDump storedBatch) =
      .ok storedBatch.normalized ∧
    recoveredRetry textDump textParse storedBatch "e1:command" 1 5000 =
      .ok storedBatch.normalized := by
  obtain ⟨⟨hcommand, -, -, hretry⟩, -⟩ := durable_records_round_trip textDump_lossless
  exact ⟨hcommand storedBatch storedBatch_sendable,
    hretry storedBatch "e1:command" 1 5000 storedBatch_sendable (by decide) (by decide)⟩

end MiniOcs.Redis
