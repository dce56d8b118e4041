import MiniOcs.Gnmi.FaultRequest
import MiniOcs.Redis.Events
import MiniOcs.Syncd.Faults

/-!
# The way of a fault

A fault is chosen in the browser or on the command line, becomes the text of a path, a Set request,
a command of the gNMI server, the fields of a stream entry and at last what syncd decodes. What
comes out is what was chosen, except for the ports that only the servers' checks let through.
-/
namespace MiniOcs.FaultRoute
open Gnmi Redis Separated
open PathParser (Path Side portNumber protobufPath)

/-! ## From the gNMI server to syncd -/

/-- The fields that `RedisFaultRepository.execute` adds to the stream. -/
def faultEventFields (command : FaultCommand) (eventId : String) (timestampNs : Nat) :
    List (String × String) :=
  [("event_schema_version", Redis.decimal 1), ("event_id", eventId), ("request_id", command.requestId),
    ("timestamp_ns", Redis.decimal timestampNs), ("device", command.device), ("resource_type", "fault"),
    ("resource_id", command.faultId), ("operation", command.operation),
    ("desired_version", Redis.decimal 0),
    ("payload", dumps (.object [("fault_type", .str command.faultType),
      ("operation", .str command.operation), ("port_id", .int command.portId)]))]

/-- The members of the envelope that `processFaultOne` reads. -/
def faultEvent (envelope : EventEnvelope) : Syncd.FaultEvent where
  eventId := envelope.eventId
  device := envelope.device
  resourceType := envelope.resourceType
  operation := envelope.operation
  payload := envelope.payload

/-- What syncd makes of a command with a fault of this type. -/
def decoded (operation : String) (type : FaultType) (portId : Nat) :
    Except Error (String × FaultSpec) :=
  if 65535 < portId then .error (Syncd.invalidFault "fault port is outside the supported range")
  else .ok (operation, { type, portId })

/-- A command as the request parser makes them. -/
structure Wellformed (command : FaultCommand) : Prop where
  operation : command.operation = "INJECT" ∨ command.operation = "CLEAR"
  name : FaultName (command.operation == "CLEAR") command.faultId command.faultType command.portId

theorem Wellformed.of_asked {request : SetRequest} {command : FaultCommand}
    (h : FaultAsked request command) : Wellformed command :=
  ⟨h.inject.imp And.left And.left, h.name⟩

theorem FaultName.type_eq {allowAll : Bool} {faultId faultType : String} {portId : Nat}
    (h : FaultName allowAll faultId faultType portId) : ∃ type,
      Syncd.managedFaultType faultType = .ok type ∧ Uds.faultName type = faultType ∧
        (type = .inputPortDown ∨ type = .outputPortDown → 0 < portId) ∧
        (type = .all → allowAll = true) ∧ portId ≤ 2147483647 := by
  cases h with
  | all hallow => exact ⟨.all, by decide, rfl, by simp, fun _ => hallow, by omega⟩
  | timeout => exact ⟨.nextApplyTimeout, by decide, rfl, by simp, by simp, by omega⟩
  | error => exact ⟨.nextApplyError, by decide, rfl, by simp, by simp, by omega⟩
  | port side hport =>
      cases side with
      | input =>
          exact ⟨.inputPortDown, by decide, rfl, fun _ => hport.positive, by simp, hport.bounded⟩
      | output =>
          exact ⟨.outputPortDown, by decide, rfl, fun _ => hport.positive, by simp, hport.bounded⟩

/-- The envelope of a command. -/
def faultEnvelope (command : FaultCommand) (eventId : String) (timestampNs : Nat) :
    EventEnvelope where
  eventSchemaVersion := 1
  eventId := eventId
  requestId := command.requestId
  timestampNs := timestampNs
  device := command.device
  resourceType := "fault"
  resourceId := command.faultId
  operation := command.operation
  desiredVersion := 0
  payload := dumps (.object [("fault_type", .str command.faultType),
    ("operation", .str command.operation), ("port_id", .int command.portId)])

theorem parseEvent_faultEventFields (command : FaultCommand) (eventId : String) {timestampNs : Nat}
    (hclock : timestampNs < 18446744073709551616) :
    Redis.parseEvent (faultEventFields command eventId timestampNs) =
      .ok (faultEnvelope command eventId timestampNs) := by
  have hschema := parseUnsigned_decimal "stoul" (show 1 < 18446744073709551616 by omega)
  have htimestamp := parseUnsigned_decimal "stoull" hclock
  have hversion := parseUnsigned_decimal "stoull" (show 0 < 18446744073709551616 by omega)
  simp [Redis.parseEvent, faultEventFields, faultEnvelope, required, List.lookup_cons, hschema,
    htimestamp, hversion]

theorem decodeFault_faultEnvelope {command : FaultCommand} (h : Wellformed command)
    (eventId : String) (timestampNs : Nat) : ∃ type, Uds.faultName type = command.faultType ∧
      Syncd.decodeFault textParse (faultEvent (faultEnvelope command eventId timestampNs)) =
        decoded command.operation type command.portId := by
  obtain ⟨type, htype, hname, hpositive, hall, hbounded⟩ := FaultName.type_eq h.name
  have hnormal : Json.Normal (.object [("fault_type", .str command.faultType),
      ("operation", .str command.operation), ("port_id", .int command.portId)]) := by
    apply Json.normal_object
    simp only [List.forall_mem_cons]
    exact ⟨Json.normal_str _, Json.normal_str _, Json.normal_nat (by omega), by simp⟩
  have henvelope : ¬(command.operation ≠ "INJECT" ∧ command.operation ≠ "CLEAR") := by
    have := h.operation
    tauto
  have hzero : ¬((type = .inputPortDown ∨ type = .outputPortDown) ∧ command.portId = 0) :=
    fun ⟨hside, hport⟩ => absurd (hpositive hside) (by omega)
  have hclear : ¬(type = .all ∧ command.operation ≠ "CLEAR") :=
    fun ⟨htype, hoperation⟩ => hoperation (by simpa using hall htype)
  refine ⟨type, hname, ?_⟩
  simp [Syncd.decodeFault, faultEvent, faultEnvelope, textParse_dumps _ hnormal, Except.mapError,
    Json.getUInt64_nat (show command.portId < 18446744073709551616 by omega), htype, henvelope]
  rw [if_neg hzero, if_neg hclear, decoded]

/-- Every command that a request was parsed to arrives: syncd refuses it only for a port above its
range, and else decodes its operation, its type and its port. -/
theorem command_decoded {command : FaultCommand} (h : Wellformed command) (eventId : String)
    {timestampNs : Nat} (hclock : timestampNs < 18446744073709551616) :
    ∃ envelope type, Redis.parseEvent (faultEventFields command eventId timestampNs) = .ok envelope ∧
      envelope.eventId = eventId ∧ envelope.device = command.device ∧
      Uds.faultName type = command.faultType ∧
      Syncd.decodeFault textParse (faultEvent envelope) =
        decoded command.operation type command.portId := by
  obtain ⟨type, hname, hdecode⟩ := decodeFault_faultEnvelope h eventId timestampNs
  exact ⟨_, type, parseEvent_faultEventFields command eventId hclock, rfl, rfl, hname, hdecode⟩

/-! ## From the user to the gNMI server -/

/-- The faults that a user can choose. -/
inductive ManagedFault where
  | nextApplyTimeout
  | nextApplyError
  | inputPortDown
  | outputPortDown
  deriving DecidableEq, Repr

def ManagedFault.name : ManagedFault → String
  | .nextApplyTimeout => "NEXT_APPLY_TIMEOUT"
  | .nextApplyError => "NEXT_APPLY_ERROR"
  | .inputPortDown => "INPUT_PORT_DOWN"
  | .outputPortDown => "OUTPUT_PORT_DOWN"

def ManagedFault.portFault : ManagedFault → Bool
  | .inputPortDown | .outputPortDown => true
  | _ => false

def ManagedFault.type : ManagedFault → FaultType
  | .nextApplyTimeout => .nextApplyTimeout
  | .nextApplyError => .nextApplyError
  | .inputPortDown => .inputPortDown
  | .outputPortDown => .outputPortDown

/-- `lower().replace("_", "-")`. No other letter has a lower case among those of the names. -/
def kebab (text : String) : String :=
  String.ofList (text.toList.map fun c => if c = '_' then '-' else c.toLower)

/-- `FaultWrite` of the gateway: the port is there when the fault is one of a port. -/
structure FaultWrite where
  fault : ManagedFault
  port : Option Nat := none
  ranged : ∀ p ∈ port, 1 ≤ p ∧ p ≤ 2147483647
  validated : fault.portFault = port.isSome

def FaultWrite.faultId (w : FaultWrite) : String :=
  match w.port with
  | some port => kebab w.fault.name ++ "-" ++ Redis.decimal port
  | none => kebab w.fault.name

/-- `_fault_id` of the command line, where a port is an integer. -/
def cliFaultId (fault : String) (port : Option Int) : Except String String :=
  let normalized := kebab fault
  if normalized = "next-apply-timeout" ∨ normalized = "next-apply-error" then
    if port.isSome then .error (normalized ++ " does not accept --port") else .ok normalized
  else if normalized = "input-port-down" ∨ normalized = "output-port-down" then
    match port with
    | some port =>
        if port ≤ 0 then .error (normalized ++ " requires a positive --port")
        else .ok (normalized ++ "-" ++ toString port)
    | none => .error (normalized ++ " requires a positive --port")
  else .error ("unsupported simulator fault " ++ quoted fault)

/-! ### The ids of the chosen faults -/

theorem all_decimal {p : Char → Bool} (hp : ∀ c, c.isDigit = true → p c = true) (n : Nat) :
    (Redis.decimal n).toList.all p = true := by
  rw [Redis.decimal, String.toList_ofList, List.all_eq_true]
  exact fun c hc => hp c (Nat.isDigit_of_mem_toDigits (by decide) (by decide) hc)

theorem portDigits_decimal {n : Nat} (h : 1 ≤ n ∧ n ≤ 2147483647) : PortDigits (Redis.decimal n) := by
  have hnumber : portNumber (Redis.decimal n) = n := by
    rw [portNumber, Redis.decimal, String.toList_ofList, Nat.ofDigitChars_ten_toDigits]
  refine ⟨?_, all_decimal (fun _ hc => hc) n, by omega, by omega⟩
  intro hempty
  have hlist : (Redis.decimal n).toList = [] := by rw [hempty]; rfl
  rw [Redis.decimal, String.toList_ofList] at hlist
  exact absurd (List.length_pos_iff.mp Nat.length_toDigits_pos) (not_not.mpr hlist)

theorem isSafeId_faultId (side : Side) {n : Nat} (h : n ≤ 2147483647) :
    isSafeId (faultPrefix side ++ Redis.decimal n) = true := by
  have hlength : (Redis.decimal n).toList.length ≤ 10 := by
    rw [Redis.decimal, String.toList_ofList]
    exact (Nat.length_toDigits_le_iff (by decide) (by decide)).mpr (by omega)
  have hdigits : (Redis.decimal n).toList.all isSafeChar = true :=
    all_decimal (fun c hc => by simp [isSafeChar, Char.isAlphanum, hc]) n
  have hside : (faultPrefix side).toList.length ≤ 17 ∧ 1 ≤ (faultPrefix side).toList.length ∧
      (faultPrefix side).toList.all isSafeChar = true := by cases side <;> decide
  simp only [isSafeId, String.toList_append, List.length_append, List.all_append, hdigits, hside.2.2,
    Bool.and_true, Bool.and_eq_true, decide_eq_true_eq]
  omega

theorem FaultWrite.faultId_some (w : FaultWrite) {port : Nat} (hport : w.port = some port) :
    ∃ side, w.faultId = faultPrefix side ++ Redis.decimal port ∧ w.fault.name = portFaultType side := by
  have hfault : w.fault.portFault = true := by rw [w.validated, hport]; rfl
  have hid : w.faultId = kebab w.fault.name ++ "-" ++ Redis.decimal port := by simp [faultId, hport]
  rw [hid]
  cases hw : w.fault with
  | nextApplyTimeout => simp [hw, ManagedFault.portFault] at hfault
  | nextApplyError => simp [hw, ManagedFault.portFault] at hfault
  | inputPortDown =>
      refine ⟨.input, ?_, rfl⟩
      rw [show kebab ManagedFault.inputPortDown.name ++ "-" = faultPrefix .input by decide]
  | outputPortDown =>
      refine ⟨.output, ?_, rfl⟩
      rw [show kebab ManagedFault.outputPortDown.name ++ "-" = faultPrefix .output by decide]

/-- The id of a chosen fault is safe and names its type and its port. -/
theorem FaultWrite.faultName (w : FaultWrite) (allowAll : Bool) :
    FaultName allowAll w.faultId w.fault.name (w.port.getD 0) ∧ isSafeId w.faultId = true := by
  cases hport : w.port with
  | some port =>
      obtain ⟨hlow, hhigh⟩ := w.ranged port hport
      obtain ⟨side, hid, hname⟩ := w.faultId_some hport
      have hdigits := portDigits_decimal ⟨hlow, hhigh⟩
      have hnumber : portNumber (Redis.decimal port) = port := by
        rw [portNumber, Redis.decimal, String.toList_ofList, Nat.ofDigitChars_ten_toDigits]
      have hfault : FaultName allowAll (faultPrefix side ++ Redis.decimal port) (portFaultType side)
          (portNumber (Redis.decimal port)) := .port side hdigits
      rw [hnumber] at hfault
      rw [hid, hname]
      exact ⟨hfault, isSafeId_faultId side hhigh⟩
  | none =>
      have hfault : w.fault.portFault = false := by rw [w.validated, hport]; rfl
      have hid : w.faultId = kebab w.fault.name := by simp [faultId, hport]
      rw [hid]
      cases hw : w.fault with
      | nextApplyTimeout => exact ⟨.timeout, by decide⟩
      | nextApplyError => exact ⟨.error, by decide⟩
      | inputPortDown => simp [hw, ManagedFault.portFault] at hfault
      | outputPortDown => simp [hw, ManagedFault.portFault] at hfault

/-- What the command line accepts is a fault that the gateway knows, up to the size of the port. -/
theorem cliFaultId_write {fault faultId : String} {port : Option Int}
    (h : cliFaultId fault port = .ok faultId) (hrange : ∀ p ∈ port, p ≤ 2147483647) :
    ∃ w : FaultWrite, w.faultId = faultId ∧ kebab fault = kebab w.fault.name ∧
      w.port.map Int.ofNat = port := by
  unfold cliFaultId at h
  dsimp only at h
  split_ifs at h with hplain hport hside
  · rw [Bool.not_eq_true, Option.isSome_eq_false_iff, Option.isNone_iff_eq_none] at hport
    subst hport
    cases h
    rcases hplain with hname | hname
    · exact ⟨⟨.nextApplyTimeout, none, by simp, rfl⟩, by rw [hname]; decide, by rw [hname]; decide, rfl⟩
    · exact ⟨⟨.nextApplyError, none, by simp, rfl⟩, by rw [hname]; decide, by rw [hname]; decide, rfl⟩
  · split at h
    · rename_i port
      split_ifs at h with hpositive
      cases h
      obtain ⟨n, rfl⟩ := Int.eq_ofNat_of_zero_le (show 0 ≤ port by omega)
      have hn : ∀ p ∈ some n, 1 ≤ p ∧ p ≤ 2147483647 := by
        have hbound := hrange _ rfl
        rintro p ⟨⟩
        omega
      have htext : toString (n : Int) = Redis.decimal n := by
        rw [Int.toString_eq_repr, Int.repr_eq_if, if_pos (by omega), Int.toNat_natCast]
        rfl
      rw [htext]
      rcases hside with hname | hname
      · have hkebab : kebab ManagedFault.inputPortDown.name = "input-port-down" := by decide
        refine ⟨⟨.inputPortDown, some n, hn, rfl⟩, ?_, hname.trans hkebab.symm, rfl⟩
        rw [hname, ← hkebab]
        rfl
      · have hkebab : kebab ManagedFault.outputPortDown.name = "output-port-down" := by decide
        refine ⟨⟨.outputPortDown, some n, hn, rfl⟩, ?_, hname.trans hkebab.symm, rfl⟩
        rw [hname, ← hkebab]
        rfl
    · cases h

/-- The payload of an injection. -/
def injectPayload : List UInt8 := "\x7b\x22operation\x22:\x22INJECT\x22\x7d".toUTF8.toList

/-- `inject_fault` of the client -/
def injectFaultRequest (device faultId : String) : Except String SetRequest := do
  let path ← protobufPath (PathParser.faultPath device faultId "config")
  .ok { update := [⟨path, .jsonIetf injectPayload⟩] }

/-- `clear_fault` of the client -/
def clearFaultRequest (device : String) (faultId : Option String) : Except String SetRequest := do
  let path ← protobufPath (PathParser.faultPath device (faultId.getD "") "")
  .ok { delete := [path] }

section

variable {loads : List UInt8 → Option Json} {device faultId : String} {requestId : String}
  {planId : Nat}

/-- A command with its response. -/
def answering (operation : String) (kind : SetOperationKind) (device faultId faultType : String)
    (portId : Nat) (requestId : String) (path : Path) : FaultCommand where
  device := device
  faultId := faultId
  faultType := faultType
  portId := portId
  operation := operation
  requestId := requestId
  responsePath := path
  responseKind := kind

/-- A request of the client whose path the server accepts. -/
theorem protobufPath_of_parse {text : String} {native : PathParser.NativePath}
    (h : PathParser.parsePathString text = .ok native) : ∃ path, protobufPath text = .ok path ∧
      PathParser.parsePath (some {}) path = .ok native := by
  obtain ⟨path, hpath, hnative⟩ := Json.bind_eq_ok.mp h
  exact ⟨path, hpath, hnative⟩

theorem dispatch_inject (hloads : loads injectPayload = some (.obj [("operation", .str "INJECT")]))
    (hdevice : isSafeId device = true) (hid : isSafeId faultId = true) {faultType : String}
    {portId : Nat} (hname : FaultName false faultId faultType portId) :
    ∃ request command, injectFaultRequest device faultId = .ok request ∧
      dispatchSet loads request requestId planId = .ok (.fault command) ∧
      command.device = device ∧ command.operation = "INJECT" ∧ command.faultType = faultType ∧
      command.portId = portId ∧ Wellformed command := by
  have hne : faultId ≠ "" := SafeId.ne_empty ⟨faultId, hid⟩
  obtain ⟨path, hpath, hnative⟩ := protobufPath_of_parse
    ((PathParser.faultPath_some hne).mpr ⟨hdevice, hid, _, .config, rfl⟩)
  have hdecode : decodeInjectPayload loads (.jsonIetf injectPayload) = .ok () := by
    have hlength : ¬maxFaultBytes < injectPayload.length := by decide +kernel
    simp [decodeInjectPayload, hlength, hloads, isInject]
  refine ⟨{ update := [⟨path, .jsonIetf injectPayload⟩] },
    answering "INJECT" .update device faultId faultType portId requestId path,
    ?_, ?_, rfl, rfl, rfl, rfl, .inl rfl, hname⟩
  · simp [injectFaultRequest, hpath, bind, Except.bind]
  · have hfault : isFaultRequest { update := [⟨path, .jsonIetf injectPayload⟩] } = true := by
      simp [isFaultRequest, allPaths, hnative, isFaultKind]
    have hpathOk := requestPath_eq_ok.mpr hnative
    have hparts := faultParts_complete hname
    simp [answering, dispatchSet, hfault, parseFaultRequest, parseInject, hpathOk, hdecode, hparts, bind,
      Except.bind, pure, Except.pure, Except.map]

theorem dispatch_clear (hdevice : isSafeId device = true) {faultId : Option String}
    (hid : ∀ id ∈ faultId, isSafeId id = true) {faultType : String} {portId : Nat}
    (hname : FaultName true (faultId.getD "all") faultType portId) :
    ∃ request command, clearFaultRequest device faultId = .ok request ∧
      dispatchSet loads request requestId planId = .ok (.fault command) ∧
      command.device = device ∧ command.operation = "CLEAR" ∧ command.faultType = faultType ∧
      command.portId = portId ∧ Wellformed command := by
  have hpath : ∃ path native, protobufPath (PathParser.faultPath device (faultId.getD "") "") = .ok path ∧
      PathParser.parsePath (some {}) path = .ok native ∧ isFaultKind native.kind = true ∧
      native.device = some device ∧ clearedFault native = .ok (faultId.getD "all") := by
    cases faultId with
    | none =>
        have hparse : PathParser.parsePathString (PathParser.gatewayPath device "faults") =
            .ok { kind := .faults, device := some device } :=
          (PathParser.gatewayPath_eq_ok .faults).mpr ⟨hdevice, rfl⟩
        rw [← PathParser.faultPath_faults] at hparse
        obtain ⟨path, hpath, hnative⟩ := protobufPath_of_parse hparse
        exact ⟨path, _, hpath, hnative, rfl, rfl, by simp [clearedFault]⟩
    | some id =>
        have hne : id ≠ "" := SafeId.ne_empty ⟨id, hid id rfl⟩
        obtain ⟨path, hpath, hnative⟩ := protobufPath_of_parse
          ((PathParser.faultPath_some hne).mpr ⟨hdevice, hid id rfl, _, .fault, rfl⟩)
        exact ⟨path, _, hpath, hnative, rfl, rfl, by simp [clearedFault, hne]⟩
  obtain ⟨path, native, hpath, hnative, hkind, hnamed, hcleared⟩ := hpath
  refine ⟨{ delete := [path] },
    answering "CLEAR" .delete device (faultId.getD "all") faultType portId requestId path,
    ?_, ?_, rfl, rfl, rfl, rfl, .inr rfl, hname⟩
  · simp [clearFaultRequest, hpath, bind, Except.bind]
  · have hfault : isFaultRequest { delete := [path] } = true := by
      simp [isFaultRequest, allPaths, hnative, hkind]
    have hpathOk := requestPath_eq_ok.mpr hnative
    have hparts := faultParts_complete hname
    simp [answering, dispatchSet, hfault, parseFaultRequest, parseClear, hpathOk, hcleared, hparts, hnamed, bind,
      Except.bind, pure, Except.pure, Except.map]

/-! ## From the user to syncd -/

/-- What the client builds becomes a command that syncd decodes so. -/
def Reaches (loads : List UInt8 → Option Json) (built : Except String SetRequest)
    (device operation : String) (type : FaultType) (portId : Nat) : Prop :=
  ∀ requestId planId eventId timestampNs, timestampNs < 18446744073709551616 →
    ∃ request command envelope, built = .ok request ∧
      dispatchSet loads request requestId planId = .ok (.fault command) ∧
      Redis.parseEvent (faultEventFields command eventId timestampNs) = .ok envelope ∧
      envelope.eventId = eventId ∧ envelope.device = device ∧
      Syncd.decodeFault textParse (faultEvent envelope) = decoded operation type portId

theorem type_of_name {type type' : FaultType} (h : Uds.faultName type = Uds.faultName type') :
    type = type' := by
  cases type <;> cases type' <;> first | rfl | exact absurd h (by decide)

theorem faultName_type (fault : ManagedFault) : Uds.faultName fault.type = fault.name := by
  cases fault <;> rfl

theorem reaches_of_dispatch {built : Except String SetRequest} {operation : String}
    {type : FaultType} {portId : Nat} (h : ∀ requestId planId, ∃ request command,
      built = .ok request ∧ dispatchSet loads request requestId planId = .ok (.fault command) ∧
      command.device = device ∧ command.operation = operation ∧
      command.faultType = Uds.faultName type ∧ command.portId = portId ∧ Wellformed command) :
    Reaches loads built device operation type portId := by
  intro requestId planId eventId timestampNs hclock
  obtain ⟨request, command, hbuilt, hdispatch, hdevice, hoperation, htype, hport, hformed⟩ :=
    h requestId planId
  obtain ⟨envelope, type', hparse, hevent, henvelope, hname, hdecode⟩ :=
    command_decoded hformed eventId hclock
  rw [htype] at hname
  rw [type_of_name hname, hoperation, hport] at hdecode
  exact ⟨request, command, envelope, hbuilt, hdispatch, hparse, hevent, henvelope.trans hdevice, hdecode⟩

/-- A reader that knows the payload of an injection. -/
def injectLoads (payload : List UInt8) : Option Json :=
  if payload = injectPayload then some (.obj [("operation", .str "INJECT")]) else none

end

end MiniOcs.FaultRoute
