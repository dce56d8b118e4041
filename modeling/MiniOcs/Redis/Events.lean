import MiniOcs.Json.Text
import MiniOcs.Gnmi.CandidateMatching
import MiniOcs.Gnmi.Linearizable
import MiniOcs.Orch.Service
import MiniOcs.Redis.Once
import MiniOcs.Uds.Json

/-!
# Configuration events between the languages

The fields that `_event_fields` of the gNMI server adds to the stream, and what `parseEvent` and
`decodeConfigBatchEvent` of the C++ services make of them. An exception is its text.
-/
namespace MiniOcs.Redis
open Gnmi

/-! ## The Python side -/

/-- `str` of a non-negative integer. -/
def decimal (n : Nat) : String := String.ofList (Nat.toDigits 10 n)

/-- `json.dumps` with compact separators and sorted keys. -/
def dumps (v : Json) : String := String.ofList (Json.render true v)

def commandFields (desiredVersion : Nat) (change : CandidateChange) : Json :=
  .object ([("operation", .str (Uds.operationName change.operation)),
      ("id", .str change.connectionId), ("desired_version", .int desiredVersion)] ++
    match change.config with
    | some config => [("input_port", .int config.inputPort), ("output_port", .int config.outputPort)]
    | none => [])

def batchPayload (desiredVersion : Nat) (changes : List CandidateChange) : Json :=
  .object [("commands", .arr (changes.map (commandFields desiredVersion))), ("atomic", .bool true),
    ("timeout_ms", .int 1000)]

/-- The text of the request id is an argument of its own. -/
def configEventFields (eventId requestId : String) (plan : SetPlan) (desiredVersion timestampNs : Nat)
    (changes : List CandidateChange) : List (String × String) :=
  [("event_schema_version", decimal 1), ("event_id", eventId), ("request_id", requestId),
    ("timestamp_ns", decimal timestampNs), ("device", plan.device),
    ("resource_type", "connection-batch"), ("resource_id", requestId),
    ("operation", "APPLY_BATCH"), ("desired_version", decimal desiredVersion),
    ("payload", dumps (batchPayload desiredVersion changes))]

/-! ## The C++ side -/

/-- `std::stoul` and `std::stoull`, whose exceptions carry the name of the function. -/
def parseUnsigned (name text : String) : Except String Nat :=
  match stoull text with
  | some value => .ok value
  | none => .error name

def required (fields : List (String × String)) (name : String) : Except String String :=
  match fields.lookup name with
  | some value => .ok value
  | none => .error ("Redis stream event is missing field: " ++ name)

def parseEvent (fields : List (String × String)) : Except String EventEnvelope := do
  let eventSchemaVersion ← parseUnsigned "stoul" (← required fields "event_schema_version")
  let eventId ← required fields "event_id"
  let requestId ← required fields "request_id"
  let timestampNs ← parseUnsigned "stoull" (← required fields "timestamp_ns")
  let device ← required fields "device"
  let resourceType ← required fields "resource_type"
  let resourceId ← required fields "resource_id"
  let operation ← required fields "operation"
  let desiredVersion ← parseUnsigned "stoull" (← required fields "desired_version")
  let payload ← required fields "payload"
  return { eventSchemaVersion := eventSchemaVersion % 4294967296, eventId, requestId, timestampNs,
           device, resourceType, resourceId, operation, desiredVersion, payload }

def parseOperation (operation : String) : Except String ConnectionOperation :=
  if operation = "UPSERT" then .ok .upsert
  else if operation = "REMOVE" then .ok .remove
  else .error "unsupported device command operation"

/-- `parsePort`, and `decodePort` of the orchestrator. The parser makes a number without a sign
an unsigned one. -/
def parsePort (command : Json) (field : String) : Except String Nat := do
  match ← command.atKey field with
  | .int n =>
      if n < 0 then .error (field ++ " must be positive")
      else if n = 0 ∨ 65535 < n then .error (field ++ " is outside the supported port range")
      else .ok n.toNat
  | _ => .error (field ++ " must be an integer")

def parseCommand (command : Json) : Except String ConnectionCommand := do
  let operation ← parseOperation (← (← command.atKey "operation").getString)
  let id ← (← command.atKey "id").getString
  let desiredVersion ← (← command.atKey "desired_version").getUInt64
  match operation with
  | .remove => return { operation, id, desiredVersion }
  | .upsert =>
      let inputPort ← parsePort command "input_port"
      let outputPort ← parsePort command "output_port"
      return { operation, id, inputPort, outputPort, desiredVersion }

/-- The decoded batch, with the operation id of the device call. -/
structure CommandBatch where
  commands : List ConnectionCommand
  options : ApplyOptions Uds.OperationId := {}

section Decoder

-- the JSON parser of the services
variable (parse : String → Except String Json)

def decodeDeviceCommand (payload : String) : Except String CommandBatch := do
  let value ← parse payload
  let atomic ← (← value.atKey "atomic").getBool
  let timeoutMs ← (← value.atKey "timeout_ms").getInt64
  let operationId ← value.valueOr "operation_id" ""
  if timeoutMs ≤ 0 then .error "device command timeout must be positive"
  else
    let commands ← (← value.atKey "commands").elements.mapM parseCommand
    if commands.isEmpty then .error "device command batch must not be empty"
    else
      let options := { atomic, timeoutMs, operationId := Uds.operationIdOf operationId }
      return { commands, options }

/-- A single connection, as older events carry it. -/
def decodeConfigEvent (event : EventEnvelope) : Except String ConnectionCommand := do
  if event.resourceType ≠ "connection" then
    .error "orch only supports connection configuration events"
  else if event.desiredVersion = 0 then .error "connection desired version must be positive"
  else if event.operation = "REMOVE" then
    return { operation := .remove, id := event.resourceId, desiredVersion := event.desiredVersion }
  else if event.operation ≠ "UPSERT" then
    .error "unsupported connection configuration operation"
  else
    let payload ← parse event.payload
    let inputPort ← parsePort payload "input_port"
    let outputPort ← parsePort payload "output_port"
    return { id := event.resourceId, inputPort, outputPort, desiredVersion := event.desiredVersion }

def decodeConfigBatchEvent (event : EventEnvelope) : Except String CommandBatch := do
  if event.resourceType = "connection" then
    return { commands := [← decodeConfigEvent parse event] }
  else if event.resourceType ≠ "connection-batch" ∨ event.operation ≠ "APPLY_BATCH" then
    .error "orch only supports connection configuration events"
  else if event.desiredVersion = 0 then
    .error "connection batch desired version must be positive"
  else
    let batch ← decodeDeviceCommand parse event.payload
    if batch.commands.all fun command => command.desiredVersion = event.desiredVersion then
      return batch
    else .error "connection batch has inconsistent desired versions"

end Decoder

/-! ## Numbers come back -/

theorem dropWhile_isSpace_digits (n : Nat) :
    (Nat.toDigits 10 n).dropWhile isSpace = Nat.toDigits 10 n := by
  obtain ⟨c, tail, hdigits, hc⟩ := Json.toDigits_cons n
  have hspace : isSpace c = false := by
    have hlow : '0'.toNat ≤ c.toNat := by
      simp only [Char.isDigit, Bool.and_eq_true, decide_eq_true_eq] at hc
      exact hc.1
    have hne : c ≠ ' ' := by
      rintro rfl
      cases hc
    simp only [isSpace, Bool.or_eq_false_iff, beq_eq_false_iff_ne, Bool.and_eq_false_iff,
      decide_eq_false_iff_not]
    refine ⟨hne, .inr ?_⟩
    change 48 ≤ c.toNat at hlow
    omega
  rw [hdigits, List.dropWhile_cons, if_neg (by simp [hspace])]

theorem leadingDigits_digits (n : Nat) : leadingDigits (Nat.toDigits 10 n) = some n := by
  have htake : (Nat.toDigits 10 n).takeWhile Char.isDigit = Nat.toDigits 10 n :=
    List.takeWhile_eq_self_iff.mpr (Json.isDigit_toDigits n)
  have hvalue := Nat.ofDigitChars_ten_toDigits (n := n)
  rw [Nat.ofDigitChars_eq_foldl] at hvalue
  simp only [leadingDigits, htake, if_neg Nat.toDigits_ne_nil, Option.some.injEq]
  calc _ = (Nat.toDigits 10 n).foldl (fun value digit => 10 * value + (digit.toNat - 48)) 0 := by
        simp only [Nat.mul_comm]
    _ = n := hvalue

theorem signedPrefix_decimal (n : Nat) : signedPrefix (decimal n) = some (false, n) := by
  obtain ⟨c, tail, hdigits, hc⟩ := Json.toDigits_cons n
  have hleading := leadingDigits_digits n
  rw [hdigits] at hleading
  unfold signedPrefix decimal
  rw [String.toList_ofList, dropWhile_isSpace_digits, hdigits]
  split
  · rename_i heq
    cases heq
    cases hc
  · rename_i heq
    cases heq
    cases hc
  · rw [hleading]
    rfl

theorem parseUnsigned_decimal (name : String) {n : Nat} (h : n < 18446744073709551616) :
    parseUnsigned name (decimal n) = .ok n := by
  have hread : stoull (decimal n) = some n := by
    simp [stoull, signedPrefix_decimal, show ¬ 18446744073709551616 ≤ n by omega]
  simp only [parseUnsigned, hread]

/-! ## Accepted candidates -/

/-- Every finalized connection lies inside the port counts. -/
def PortsInRange (input : CandidateInput) (configs : Dict String ConnectionConfig) : Prop :=
  ∀ id c, configs.get? id = some c → (1 ≤ c.inputPort ∧ c.inputPort ≤ input.inputPortCount) ∧
    1 ≤ c.outputPort ∧ c.outputPort ≤ input.outputPortCount

theorem portsInRange_set {input : CandidateInput} {configs : Dict String ConnectionConfig}
    (h : PortsInRange input configs) (id : String) {c : ConnectionConfig}
    (hc : (1 ≤ c.inputPort ∧ c.inputPort ≤ input.inputPortCount) ∧
      1 ≤ c.outputPort ∧ c.outputPort ≤ input.outputPortCount) :
    PortsInRange input (configs.set id c) := by
  intro id' c' hc'
  rw [Dict.get?_set] at hc'
  split_ifs at hc'
  · cases hc'
    exact hc
  · exact h id' c' hc'

theorem portsInRange_finalizeOne {input : CandidateInput} {touched : Dict String Unit}
    {acc acc' : Finalized} {id : String} {m : MutableConnection}
    (hacc : PortsInRange input acc.configs) (h : finalizeOne input touched acc id m = .ok acc') :
    PortsInRange input acc'.configs := by
  unfold finalizeOne at h
  split at h
  · rename_i inputPort outputPort hi ho
    by_cases hin : 1 ≤ inputPort ∧ inputPort ≤ input.inputPortCount
    · by_cases hout : 1 ≤ outputPort ∧ outputPort ≤ input.outputPortCount
      · rw [if_neg (not_not.mpr hin), if_neg (not_not.mpr hout)] at h
        split at h
        · cases h
        · split at h
          · cases h
          · dsimp only at h
            split at h
            · cases h
              exact portsInRange_set hacc id ⟨hin, hout⟩
            · split at h
              · cases h
              · cases h
                exact portsInRange_set hacc id ⟨hin, hout⟩
      · rw [if_neg (not_not.mpr hin), if_pos hout] at h
        cases h
    · rw [if_pos hin] at h
      cases h
  · cases h

theorem portsInRange_finalizeAll {input : CandidateInput} {touched : Dict String Unit}
    {entries : List (String × MutableConnection)} {acc fin : Finalized}
    (hacc : PortsInRange input acc.configs) (h : finalizeAll input touched entries acc = .ok fin) :
    PortsInRange input fin.configs := by
  induction entries generalizing acc with
  | nil =>
      cases h
      exact hacc
  | cons entry rest ih =>
      rw [finalizeAll] at h
      split at h
      · cases h
      · rename_i acc' hone
        exact ih (portsInRange_finalizeOne hacc hone) h

/-- A change of an accepted candidate removes a connection, or sets one inside the port counts. -/
inductive ChangeOk (input : CandidateInput) : CandidateChange → Prop
  | remove (id : String) : ChangeOk input ⟨id, .remove, none⟩
  | upsert (id : String) {c : ConnectionConfig}
      (hin : 1 ≤ c.inputPort ∧ c.inputPort ≤ input.inputPortCount)
      (hout : 1 ≤ c.outputPort ∧ c.outputPort ≤ input.outputPortCount) :
      ChangeOk input ⟨id, .upsert, some c⟩

theorem changeOk_changeOf {input : CandidateInput} {finalized : Dict String ConnectionConfig}
    (h : PortsInRange input finalized) {id : String} {change : CandidateChange}
    (hchange : changeOf input.current finalized id = some change) : ChangeOk input change := by
  unfold changeOf at hchange
  split at hchange
  · cases hchange
  · rename_i hfin
    split_ifs at hchange
    cases hchange
    exact .upsert id (h id _ hfin).1 (h id _ hfin).2
  · rename_i hfin
    cases hchange
    exact .upsert id (h id _ hfin).1 (h id _ hfin).2
  · cases hchange
    exact .remove id

theorem buildCandidate_changes {input : CandidateInput} {plan : SetPlan}
    {candidate : CandidateMutation} (h : buildCandidate input plan = .ok candidate) :
    0 < input.revision ∧ candidate.revision = input.revision ∧
      candidate.timestampNs = input.timestampNs ∧
      ∀ change ∈ candidate.changes, ChangeOk input change := by
  unfold buildCandidate at h
  split_ifs at h with hrevision
  split at h
  · cases h
  · dsimp only at h
    split at h
    · cases h
    · rename_i fin hfin
      cases h
      refine ⟨by omega, rfl, rfl, ?_⟩
      intro change hchange
      obtain ⟨id, -, hof⟩ := List.mem_filterMap.mp hchange
      have hempty : PortsInRange input ({} : Finalized).configs := by
        intro id c hc
        cases hc
      exact changeOk_changeOf (portsInRange_finalizeAll hempty hfin) hof

/-! ## The contract -/

/-- The command does what the change says, at the given version. -/
inductive Carries (revision : Nat) : CandidateChange → ConnectionCommand → Prop
  | remove {id : String} {command : ConnectionCommand} (hid : command.id = id)
      (hoperation : command.operation = .remove) (hversion : command.desiredVersion = revision) :
      Carries revision ⟨id, .remove, none⟩ command
  | upsert {id : String} {config : ConnectionConfig} {command : ConnectionCommand}
      (hid : command.id = id) (hoperation : command.operation = .upsert)
      (hversion : command.desiredVersion = revision)
      (hin : command.inputPort = config.inputPort) (hout : command.outputPort = config.outputPort) :
      Carries revision ⟨id, .upsert, some config⟩ command

theorem normal_commandFields {input : CandidateInput} {revision : Nat}
    (hrevision : revision < 9223372036854775808) (hinputs : input.inputPortCount ≤ 65535)
    (houtputs : input.outputPortCount ≤ 65535) {change : CandidateChange}
    (h : ChangeOk input change) : Json.Normal (commandFields revision change) := by
  have hversion : Json.Normal (.int revision) := Json.normal_nat (by omega)
  apply Json.normal_object
  cases h with
  | remove id => simp [Json.normal_str, hversion]
  | @upsert id c hin hout =>
      have hinput : Json.Normal (.int c.inputPort) := Json.normal_nat (by omega)
      have houtput : Json.Normal (.int c.outputPort) := Json.normal_nat (by omega)
      simp [Json.normal_str, hversion, hinput, houtput]

theorem parsePort_nat {members : List (String × Json)} {field : String} {n : Nat}
    (hport : 1 ≤ n ∧ n ≤ 65535)
    (h : (Json.object members).atKey field = .ok (.int n)) :
    parsePort (Json.object members) field = .ok n := by
  unfold parsePort
  rw [h]
  dsimp only [Json.ok_bind]
  rw [if_neg (by omega), if_neg (by omega)]
  rfl

theorem parseCommand_commandFields {input : CandidateInput} {revision : Nat}
    (hrevision : revision < 9223372036854775808) (hinputs : input.inputPortCount ≤ 65535)
    (houtputs : input.outputPortCount ≤ 65535) {change : CandidateChange}
    (h : ChangeOk input change) :
    parseCommand (commandFields revision change) = .ok (eventCommand revision change) := by
  have hversion := Json.getUInt64_nat (show revision < 18446744073709551616 by omega)
  cases h with
  | remove id =>
      simp [parseCommand, commandFields, Uds.operationName, parseOperation, hversion, eventCommand]
  | @upsert id c hin hout =>
      have hinput : parsePort (commandFields revision ⟨id, .upsert, some c⟩) "input_port" =
          .ok c.inputPort := parsePort_nat (by omega) (by simp)
      have houtput : parsePort (commandFields revision ⟨id, .upsert, some c⟩) "output_port" =
          .ok c.outputPort := parsePort_nat (by omega) (by simp)
      have hoperation : (commandFields revision ⟨id, .upsert, some c⟩).atKey "operation" =
          .ok (.str "UPSERT") := by simp [commandFields, Uds.operationName]
      have hid : (commandFields revision ⟨id, .upsert, some c⟩).atKey "id" = .ok (.str id) := by
        simp [commandFields]
      have hdesired : (commandFields revision ⟨id, .upsert, some c⟩).atKey "desired_version" =
          .ok (.int revision) := by simp [commandFields]
      simp [parseCommand, hoperation, hid, hdesired, hinput, houtput, hversion, parseOperation,
        eventCommand]

theorem carries_eventCommand {input : CandidateInput} {revision : Nat} {change : CandidateChange}
    (h : ChangeOk input change) : Carries revision change (eventCommand revision change) := by
  cases h with
  | remove id => exact .remove rfl rfl rfl
  | upsert id hin hout => exact .upsert rfl rfl rfl rfl rfl

/-- The services read the payload of an accepted candidate as its changes. -/
theorem decodeDeviceCommand_batchPayload {parse : String → Except String Json}
    (hparse : ∀ v, Json.Normal v → parse (dumps v) = .ok v) {input : CandidateInput}
    {revision : Nat} (hrevision : revision < 9223372036854775808)
    (hinputs : input.inputPortCount ≤ 65535) (houtputs : input.outputPortCount ≤ 65535)
    {changes : List CandidateChange} (hchanges : ∀ change ∈ changes, ChangeOk input change)
    (hne : changes ≠ []) :
    decodeDeviceCommand parse (dumps (batchPayload revision changes)) =
      .ok { commands := changes.map (eventCommand revision) } := by
  have hitems : Json.Normal (.arr (changes.map (commandFields revision))) := by
    apply Json.normal_arr
    intro item hitem
    obtain ⟨change, hchange, rfl⟩ := List.mem_map.mp hitem
    exact normal_commandFields hrevision hinputs houtputs (hchanges change hchange)
  have htimeout : Json.Normal (.int 1000) := Json.normal_nat (n := 1000) (by decide)
  have hnormal : Json.Normal (batchPayload revision changes) := by
    apply Json.normal_object
    simp [hitems, Json.normal_bool, htimeout]
  have hcommands : (changes.map (commandFields revision)).mapM parseCommand =
      .ok (changes.map (eventCommand revision)) :=
    Json.mapM_map_ok fun change hchange =>
      parseCommand_commandFields hrevision hinputs houtputs (hchanges change hchange)
  unfold decodeDeviceCommand
  rw [hparse _ hnormal]
  simp [batchPayload, Json.getInt64_int (n := 1000), hcommands, hne]
  rfl

/-- The envelope of a candidate's event. -/
def envelope (eventId requestId : String) (plan : SetPlan) (candidate : CandidateMutation) :
    EventEnvelope where
  eventSchemaVersion := 1
  eventId := eventId
  requestId := requestId
  timestampNs := candidate.timestampNs
  device := plan.device
  resourceType := "connection-batch"
  resourceId := requestId
  operation := "APPLY_BATCH"
  desiredVersion := candidate.revision
  payload := dumps (batchPayload candidate.revision candidate.changes)

theorem parseEvent_configEventFields {candidate : CandidateMutation}
    (hrevision : candidate.revision < 18446744073709551616)
    (hclock : candidate.timestampNs < 18446744073709551616) (eventId requestId : String)
    (plan : SetPlan) :
    parseEvent (configEventFields eventId requestId plan candidate.revision candidate.timestampNs
      candidate.changes) = .ok (envelope eventId requestId plan candidate) := by
  have hschema := parseUnsigned_decimal "stoul" (show 1 < 18446744073709551616 by omega)
  have htimestamp := parseUnsigned_decimal "stoull" hclock
  have hversion := parseUnsigned_decimal "stoull" hrevision
  simp [parseEvent, configEventFields, envelope, required, List.lookup_cons, hschema, htimestamp, hversion]

theorem eventCommand_version (revision : Nat) (change : CandidateChange) :
    (eventCommand revision change).desiredVersion = revision := by
  unfold eventCommand
  split <;> rfl

section Accepted

variable {input : CandidateInput} {plan : SetPlan} {candidate : CandidateMutation}

theorem decodeConfigBatchEvent_envelope {parse : String → Except String Json}
    (hparse : ∀ v, Json.Normal v → parse (dumps v) = .ok v)
    (hbuild : buildCandidate input plan = .ok candidate) (hne : candidate.changes ≠ [])
    (hinputs : input.inputPortCount ≤ 65535) (houtputs : input.outputPortCount ≤ 65535)
    (hrevision : input.revision < 9223372036854775808) (eventId requestId : String) :
    decodeConfigBatchEvent parse (envelope eventId requestId plan candidate) =
      .ok { commands := candidate.changes.map (eventCommand candidate.revision) } := by
  obtain ⟨hpositive, hsame, -, hchanges⟩ := buildCandidate_changes hbuild
  rw [← hsame] at hrevision hpositive
  have hdecoded := decodeDeviceCommand_batchPayload hparse hrevision hinputs houtputs hchanges hne
  unfold decodeConfigBatchEvent envelope
  simp [hdecoded, eventCommand_version, show candidate.revision ≠ 0 by omega]

/-- The orchestrator's model of the event, which has no texts, holds the same batch. -/
theorem orch_decodes_changes (hbuild : buildCandidate input plan = .ok candidate)
    (hne : candidate.changes ≠ []) (hinputs : input.inputPortCount ≤ 65535)
    (houtputs : input.outputPortCount ≤ 65535) (eventId : Nat) :
    Orch.decodeConfigBatchEvent (Gnmi.eventFields plan eventId candidate.revision
        candidate.timestampNs candidate.changes) =
      .ok { commands := candidate.changes.map (eventCommand candidate.revision) } := by
  obtain ⟨hpositive, hsame, -, hchanges⟩ := buildCandidate_changes hbuild
  have hvalid : (candidate.changes.map (eventCommand candidate.revision)).all validCommand = true := by
    rw [List.all_map, List.all_eq_true]
    intro change hchange
    cases hchanges change hchange with
    | remove id => rfl
    | @upsert id c hin hout =>
        show (validPort c.inputPort && validPort c.outputPort) = true
        simp only [validPort, Bool.and_eq_true, decide_eq_true_eq]
        omega
  have hsame' : (candidate.changes.map (eventCommand candidate.revision)).map decodeCommand =
      candidate.changes.map (eventCommand candidate.revision) := by
    rw [List.map_map]
    apply List.map_congr_left
    intro change hchange
    cases hchanges change hchange <;> rfl
  have hdecoded : MiniOcs.decodeDeviceCommand
      { commands := candidate.changes.map (eventCommand candidate.revision) } =
        .ok { commands := candidate.changes.map (eventCommand candidate.revision) } := by
    unfold MiniOcs.decodeDeviceCommand
    rw [hsame']
    simp [hvalid, hne]
  unfold Orch.decodeConfigBatchEvent
  simp [Gnmi.eventFields, hdecoded, eventCommand_version, show candidate.revision ≠ 0 by omega]

/-- Whatever accepted candidate the gNMI server publishes, the services parse its event and read
the candidate's changes, in order and at its revision, as one atomic batch with a timeout. -/
theorem config_event_contract {parse : String → Except String Json}
    (hparse : ∀ v, Json.Normal v → parse (dumps v) = .ok v)
    (hbuild : buildCandidate input plan = .ok candidate) (hne : candidate.changes ≠ [])
    (hinputs : input.inputPortCount ≤ 65535) (houtputs : input.outputPortCount ≤ 65535)
    (hrevision : input.revision < 9223372036854775808)
    (hclock : input.timestampNs < 18446744073709551616) (eventId requestId : String) :
    ∃ event batch,
      parseEvent (configEventFields eventId requestId plan candidate.revision candidate.timestampNs
        candidate.changes) = .ok event ∧
      decodeConfigBatchEvent parse event = .ok batch ∧
      event.device = plan.device ∧ event.desiredVersion = candidate.revision ∧
      List.Forall₂ (Carries candidate.revision) candidate.changes batch.commands ∧
      batch.options.atomic = true ∧ 0 < batch.options.timeoutMs := by
  obtain ⟨-, hsame, htimestamp, hchanges⟩ := buildCandidate_changes hbuild
  refine ⟨envelope eventId requestId plan candidate,
    { commands := candidate.changes.map (eventCommand candidate.revision) },
    parseEvent_configEventFields (by omega) (by omega) eventId requestId plan,
    decodeConfigBatchEvent_envelope hparse hbuild hne hinputs houtputs hrevision eventId requestId,
    rfl, rfl, ?_, rfl, (show (0 : Int) < 1000 by decide)⟩
  rw [List.forall₂_map_right_iff, List.forall₂_same]
  intro change hchange
  exact carries_eventCommand (hchanges change hchange)

end Accepted

/-- A candidate that moves one connection and removes another. -/
def sampleInput : CandidateInput where
  current := Dict.empty.set "a" { connectionId := "a", inputPort := 1, outputPort := 1 } |>.set "b"
    { connectionId := "b", inputPort := 2, outputPort := 2 }
  revision := 7
  timestampNs := 1700000000000000000
  inputPortCount := 16
  outputPortCount := 16

def samplePlan : SetPlan where
  device := "ocs1"
  requestId := 1
  operations :=
    [{ kind := .delete, connectionId := idB },
      { kind := .update, connectionId := idA, values := { outputPort := some 2 } }]

def sampleCandidate : CandidateMutation where
  revision := 7
  timestampNs := 1700000000000000000
  changes := [⟨"b", .remove, none⟩, ⟨"a", .upsert, some sampleConfig⟩]
  connections := [sampleConfig]
where
  sampleConfig : ConnectionConfig :=
    { connectionId := "a", inputPort := 1, outputPort := 2, desiredVersion := 7
      createdAtNs := 1700000000000000000, updatedAtNs := 1700000000000000000 }

def textParse (text : String) : Except String Json :=
  match Json.parseText text.toList with
  | some v => .ok v
  | none => .error "[json.exception.parse_error.101] parse error"

theorem textParse_dumps (v : Json) (h : Json.Normal v) : textParse (dumps v) = .ok v := by
  simp only [textParse, dumps, String.toList_ofList, Json.parseText_render true h]

theorem config_event_contract_sample :
    buildCandidate sampleInput samplePlan = .ok sampleCandidate ∧
    ∃ event batch,
      parseEvent (configEventFields "e1" "r1" samplePlan 7 1700000000000000000
        sampleCandidate.changes) = .ok event ∧
      decodeConfigBatchEvent textParse event = .ok batch ∧
      event.device = "ocs1" ∧ event.desiredVersion = 7 ∧
      List.Forall₂ (Carries 7) sampleCandidate.changes batch.commands ∧
      batch.options.atomic = true ∧ 0 < batch.options.timeoutMs :=
  have hbuild : buildCandidate sampleInput samplePlan = .ok sampleCandidate := by decide +kernel
  ⟨hbuild, config_event_contract textParse_dumps hbuild (by decide) (by decide) (by decide)
    (by decide) (by decide) "e1" "r1"⟩

end MiniOcs.Redis
