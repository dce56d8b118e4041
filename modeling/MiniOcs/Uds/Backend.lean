import MiniOcs.Device.Fences
import MiniOcs.Uds.Json

/-!
# The device behind the socket

`UdsDeviceBackend`, `UdsServer` and `InProcessSimBackend`. The transport is loss-free: `connect`
reaches a server thread, and a sent packet is the next one the peer receives. An exception is
its text.
-/
namespace MiniOcs.Uds

abbrev Device := SimulatedOcsDevice OperationId

/-- The calls of `OcsDeviceApi`. -/
inductive Request where
  | applyConnections (commands : List ConnectionCommand) (options : ApplyOptions OperationId)
  | getConnections
  | getInputPortState (id : Nat)
  | getOutputPortState (id : Nat)
  | reset (mode : ResetMode)
  | injectFault (fault : FaultSpec)
  | clearFault (selector : FaultSpec)
  | getDeviceInfo

inductive Reply where
  | applyResult (result : ApplyResult)
  | connections (connections : List AppliedConnection)
  | portState (state : PortState)
  | resetResult (result : ResetResult)
  | faultResult (error : Error)
  | deviceInfo (info : DeviceInfo)
  | thrown (what : String)

/-! ## The device in the same process -/

def portState (d : Device) (direction : PortDirection) (id : Nat) : Except Abort PortState :=
  match d.getPortState direction id with
  | .ok state => .ok state
  | .error _ => .error .outOfRange

namespace InProcessSimBackend

def call (d : Device) : Request → Except Abort (Reply × Device)
  | .applyConnections commands options =>
      (d.applyConnections commands options).map fun r => (.applyResult r.1, r.2)
  | .getConnections => .ok (.connections d.getConnections, d)
  | .getInputPortState id => (portState d .input id).map fun state => (.portState state, d)
  | .getOutputPortState id => (portState d .output id).map fun state => (.portState state, d)
  | .reset mode => (d.reset mode).map fun r => (.resetResult ⟨Error.success, r.1⟩, r.2)
  | .injectFault fault => (d.injectFault fault).map fun r => (.faultResult r.1, r.2)
  | .clearFault selector => (d.clearFault selector).map fun r => (.faultResult r.1, r.2)
  | .getDeviceInfo => .ok (.deviceInfo d.info, d)

/-- The replies of a session and the device it leaves. -/
def run (d : Device) : List Request → Except Abort (List Reply × Device)
  | [] => .ok ([], d)
  | request :: requests => do
      let (reply, d) ← call d request
      let (replies, d) ← run d requests
      return (reply :: replies, d)

end InProcessSimBackend

/-! ## The server -/

structure UdsServer where
  device : Device
  dropNextApplyReply : Bool := false

section Socket

variable (codec : JsonCodec) (disconnected : ErrorCode)

def errorReply (request : Frame) (error : Error) (generation : BitVec 64) : Frame where
  messageType := .errorReply
  requestId := request.requestId
  deviceGeneration := generation
  payload := encodeError codec error

def response (request : Frame) (generation : BitVec 64) (messageType : MessageType)
    (payload : List Byte) : Frame where
  messageType := messageType
  requestId := request.requestId
  deviceGeneration := generation
  payload := payload

/-- The rest of a case of `dispatch` on the payload it decodes; an exception of the decoder is
caught. -/
def withPayload {α : Type} (request : Frame) (d : Device) (decoded : Except String α)
    (handle : α → Except Abort (Frame × Device)) : Except Abort (Frame × Device) :=
  match decoded with
  | .error what => .ok (errorReply codec request { code := .protocolMalformed, message := what }
      (BitVec.ofNat 64 d.info.generation), d)
  | .ok a => handle a

def dispatch (request : Frame) (d : Device) : Except Abort (Frame × Device) :=
  let generation := BitVec.ofNat 64 d.info.generation
  if request.messageType = .hello then
    .ok (response request generation .helloReply (encodeDeviceInfo codec d.info), d)
  else if request.messageType = .getDeviceInfo then
    .ok (response request generation .deviceInfoReply (encodeDeviceInfo codec d.info), d)
  else if request.messageType = .applyConnections then
    withPayload codec request d (decodeApplyRequest codec request.payload) fun apply =>
      (d.applyConnections apply.commands apply.options).map fun r =>
        (response request generation .applyResult (encodeApplyResult codec r.1), r.2)
  else if request.messageType = .getConnections then
    .ok (response request generation .connectionsReply
      (encodeConnections codec d.getConnections), d)
  else if request.messageType = .getPortState then
    withPayload codec request d (decodePortRequest codec request.payload) fun port =>
      (portState d port.direction port.portId).map fun state =>
        (response request generation .portStateReply (encodePortState codec state), d)
  else if request.messageType = .reset then
    withPayload codec request d (decodeResetRequest codec request.payload) fun mode =>
      (d.reset mode).map fun r =>
        -- the reply carries the generation after the reset
        (response request (BitVec.ofNat 64 r.1) .resetResult
          (encodeResetResult codec ⟨Error.success, r.1⟩), r.2)
  else if request.messageType = .injectFault then
    withPayload codec request d (decodeFaultRequest codec request.payload) fun fault =>
      (if fault.clear then d.clearFault fault.fault else d.injectFault fault.fault).map fun r =>
        (response request generation .faultResult (encodeFaultResult codec r.1), r.2)
  else
    .ok (errorReply codec request
      { code := .unsupported, message := "UDS request type is not supported" } generation, d)

/-- One round of `serveClient`. No packet goes back when the loop is left: the connection is
closed then. -/
def serveClient (packet : List Byte) (server : UdsServer) :
    Except Abort (Option (List Byte) × UdsServer) :=
  if headerSize + maxPayloadSize < packet.length then .ok (none, server)
  else match decode packet with
    | none => .error .outOfRange
    | some (.error _) => .ok (none, server)
    | some (.ok frame) => (dispatch codec frame server.device).map fun r =>
        if frame.messageType = .applyConnections ∧ server.dropNextApplyReply = true then
          (none, { device := r.2, dropNextApplyReply := false })
        else (match encode r.1 with
          | .ok bytes => some bytes
          | .error _ => none, { server with device := r.2 })

/-! ## The client -/

structure UdsDeviceBackend where
  connected : Bool := false
  nextRequestId : BitVec 64 := 1
  deviceGeneration : BitVec 64 := 0

/-- Both ends of the socket. -/
structure Link where
  client : UdsDeviceBackend := {}
  server : UdsServer

/-- What a call does: it throws or returns, and the link is changed either way. -/
abbrev Io := ExceptT String (StateT Link (Except Abort))

def transmit (packet : List Byte) : Io (Option (List Byte)) := fun link =>
  (serveClient codec packet link.server).map fun r => (.ok r.1, { link with server := r.2 })

def closeLocked : Io Unit :=
  modify fun link => { link with client := { link.client with connected := false } }

def sendAndReceiveLocked (request : Frame) (responseType : MessageType) :
    Io (Except Error Frame) := do
  match encode request with
  | .error e => return .error e
  | .ok bytes =>
      if (← get).client.connected = false then
        return .error { code := .deviceNotReady, message := "Bad file descriptor" }
      else match ← transmit codec bytes with
        -- the code depends on the `errno` that an earlier call has left
        | none => return .error { code := disconnected, message := "UDS peer disconnected" }
        | some packet =>
            if headerSize + maxPayloadSize < packet.length then
              return .error
                { code := .payloadTooLarge, message := "UDS response packet exceeds limit" }
            else match decode packet with
              | none => fun _ => .error .outOfRange
              | some (.error e) => return .error e
              | some (.ok frame) =>
                  if frame.requestId ≠ request.requestId then
                    return .error
                      { code := .protocolMalformed, message := "UDS response request ID mismatch" }
                  else if frame.messageType = .errorReply then
                    return .error (← ofExcept (decodeError codec frame.payload))
                  else if frame.messageType ≠ responseType then
                    return .error
                      { code := .protocolMalformed, message := "UDS response type mismatch" }
                  else return .ok frame

/-- `next_request_id_++`. -/
def takeRequestId : Io (BitVec 64) :=
  modifyGet fun link => (link.client.nextRequestId,
    { link with client := { link.client with nextRequestId := link.client.nextRequestId + 1 } })

def setGeneration (generation : BitVec 64) : Io Unit :=
  modify fun link => { link with client := { link.client with deviceGeneration := generation } }

/-- The bytes of the greeting. -/
def helloPayload : List Byte :=
  "\x7b\x22client\x22:\x22ocs-syncd\x22\x7d".toList.map fun c => BitVec.ofNat 8 c.toNat

/-- The bytes of an empty object. -/
def emptyPayload : List Byte := [0x7B, 0x7D]

def ensureConnectedLocked : Io Error := do
  if (← get).client.connected then return Error.success
  else
    modify fun link => { link with client := { link.client with connected := true } }
    let requestId ← takeRequestId
    let hello : Frame := { messageType := .hello, requestId, payload := helloPayload }
    match ← sendAndReceiveLocked codec disconnected hello .helloReply with
    | .error e =>
        closeLocked
        return e
    | .ok frame =>
        setGeneration frame.deviceGeneration
        return Error.success

/-- A request frame under the next id. -/
def sendLocked (requestType responseType : MessageType) (payload : List Byte) :
    Io (Except Error Frame) := do
  let requestId ← takeRequestId
  let request : Frame := { messageType := requestType, requestId
                           deviceGeneration := (← get).client.deviceGeneration, payload }
  sendAndReceiveLocked codec disconnected request responseType

def retrySafe (requestType : MessageType) : Bool :=
  requestType = .getDeviceInfo || requestType = .getConnections || requestType = .getPortState

/-- The second attempt after a failed one. -/
def retryLocked (requestType responseType : MessageType) (payload : List Byte) (error : Error) :
    Io (Except Error Frame) := do
  closeLocked
  if retrySafe requestType && (← ensureConnectedLocked codec disconnected).isOk then
    match ← sendLocked codec disconnected requestType responseType payload with
    | .ok frame => return .ok frame
    | .error e =>
        closeLocked
        return .error e
  else return .error error

def exchangeLocked (requestType responseType : MessageType) (payload : List Byte) :
    Io (Except Error Frame) := do
  let connectionError ← ensureConnectedLocked codec disconnected
  if !connectionError.isOk then return .error connectionError
  else
    let result ← match ← sendLocked codec disconnected requestType responseType payload with
      | .ok frame => pure (Except.ok frame)
      | .error e => retryLocked codec disconnected requestType responseType payload e
    if let .ok frame := result then setGeneration frame.deviceGeneration
    return result

/-- A call that throws when the exchange fails. -/
def getReply {α : Type} (requestType responseType : MessageType) (payload : List Byte)
    (decoder : JsonCodec → List Byte → Except String α) (reply : α → Reply) : Io Reply := do
  match ← exchangeLocked codec disconnected requestType responseType payload with
  | .error e => throw e.message
  | .ok frame => return reply (← ofExcept (decoder codec frame.payload))

/-- A call that returns the error of a failed exchange. -/
def faultReply (request : FaultRequest) : Io Reply := do
  match ← exchangeLocked codec disconnected .injectFault .faultResult
      (encodeFaultRequest codec request) with
  | .error e => return .faultResult e
  | .ok frame => return .faultResult (← ofExcept (decodeFaultResult codec frame.payload))

namespace UdsDeviceBackend

def call : Request → Io Reply
  | .applyConnections commands options => do
      match ← exchangeLocked codec disconnected .applyConnections .applyResult
          (encodeApplyRequest codec { commands, options }) with
      | .error e => return .applyResult ⟨e, []⟩
      | .ok frame => return .applyResult (← ofExcept (decodeApplyResult codec frame.payload))
  | .getConnections =>
      getReply codec disconnected .getConnections .connectionsReply emptyPayload
        decodeConnections .connections
  | .getInputPortState id =>
      getReply codec disconnected .getPortState .portStateReply
        (encodePortRequest codec { direction := .input, portId := id }) decodePortState .portState
  | .getOutputPortState id =>
      getReply codec disconnected .getPortState .portStateReply
        (encodePortRequest codec { direction := .output, portId := id }) decodePortState .portState
  | .reset mode => do
      match ← exchangeLocked codec disconnected .reset .resetResult
          (encodeResetRequest codec mode) with
      | .error e => return .resetResult ⟨e, (← get).client.deviceGeneration.toNat⟩
      | .ok frame =>
          let result ← ofExcept (decodeResetResult codec frame.payload)
          setGeneration (BitVec.ofNat 64 result.generation)
          return .resetResult result
  | .injectFault fault => faultReply codec disconnected { clear := false, fault }
  | .clearFault selector => faultReply codec disconnected { clear := true, fault := selector }
  | .getDeviceInfo =>
      getReply codec disconnected .getDeviceInfo .deviceInfoReply emptyPayload
        decodeDeviceInfo .deviceInfo

/-- A call as its caller sees it. -/
def step (link : Link) (request : Request) : Except Abort (Reply × Link) :=
  (call codec disconnected request link).map fun r => match r with
    | (.ok reply, link) => (reply, link)
    | (.error what, link) => (.thrown what, link)

def run (link : Link) : List Request → Except Abort (List Reply × Link)
  | [] => .ok ([], link)
  | request :: requests => do
      let (reply, link) ← step codec disconnected link request
      let (replies, link) ← run link requests
      return (reply :: replies, link)

end UdsDeviceBackend

end Socket

end MiniOcs.Uds
