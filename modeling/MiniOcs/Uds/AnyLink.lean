import MiniOcs.Uds.Backend

/-!
# The client of the device socket on any link

`UdsDeviceBackend` over system calls that answer as the kernel, the peer and the time please:
packets come late, twice, from nowhere or not at all, and any call fails. The log of a session is
what passed each socket.
-/
namespace MiniOcs.Uds.AnyLink

/-- The outcome of `recv`. `again` is what `errno` says. -/
inductive Received where
  | failed (again : Bool) (text : String)
  | disconnected (again : Bool)
  | packet (bytes : List Byte)

/-- The system calls; a text is the one of `errno`. -/
structure Kernel (ω : Type) where
  socket : ω → Except String Nat × ω
  setTimeouts : Nat → ω → Option String × ω
  connect : Nat → ω → Option String × ω
  send : Nat → List Byte → ω → Option String × ω
  recv : Nat → ω → Received × ω
  close : Nat → ω → ω

/-- `accepted` is a frame whose payload is read by the client. -/
inductive Event where
  | opened (fd : Nat)
  | sent (fd : Nat) (frame : Frame)
  | received (fd : Nat) (packet : List Byte)
  | accepted (frame : Frame)
  | closed (fd : Nat)

/-- The members of the backend, the world around it, and the log; `drawn` counts the request ids
that were taken. -/
structure Session (ω : Type) where
  socketFd : Option Nat := none
  nextRequestId : BitVec 64 := 1
  deviceGeneration : BitVec 64 := 0
  world : ω
  log : List Event := []
  drawn : Nat := 0

variable {ω : Type}

def Session.note (s : Session ω) (event : Event) : Session ω := { s with log := s.log ++ [event] }

/-- `next_request_id_++`. -/
def Session.draw (s : Session ω) : Session ω :=
  { s with nextRequestId := s.nextRequestId + 1, drawn := s.drawn + 1 }

section Client

variable (codec : JsonCodec) (kernel : Kernel ω)

def closeLocked (s : Session ω) : Session ω :=
  match s.socketFd with
  | none => s
  | some fd => { s with socketFd := none, world := kernel.close fd s.world }.note (.closed fd)

/-! ## One exchange -/

/-- What is checked of a packet before its type. `decode` never reads past the end. -/
def checkPacket (request : Frame) (packet : List Byte) : Except Error Frame :=
  if headerSize + maxPayloadSize < packet.length then
    .error { code := .payloadTooLarge, message := "UDS response packet exceeds limit" }
  else match decode packet with
    | none => .error { code := .protocolMalformed, message := "" }
    | some (.error e) => .error e
    | some (.ok frame) =>
        if frame.requestId ≠ request.requestId then
          .error { code := .protocolMalformed, message := "UDS response request ID mismatch" }
        else .ok frame

def readReply (request : Frame) (responseType : MessageType) (packet : List Byte) (s : Session ω) :
    Except String (Except Error Frame) × Session ω :=
  match checkPacket request packet with
  | .error e => (.ok (.error e), s)
  | .ok frame =>
      if frame.messageType = .errorReply then
        ((decodeError codec frame.payload).map .error, s.note (.accepted frame))
      else if frame.messageType ≠ responseType then
        (.ok (.error { code := .protocolMalformed, message := "UDS response type mismatch" }), s)
      else (.ok (.ok frame), s.note (.accepted frame))

def receiveCode (again : Bool) : ErrorCode := if again then .applyTimeout else .deviceNotReady

def receiveLocked (fd : Nat) (request : Frame) (responseType : MessageType) (s : Session ω) :
    Except String (Except Error Frame) × Session ω :=
  match kernel.recv fd s.world with
  | (.failed again text, world) =>
      (.ok (.error { code := receiveCode again, message := text }), { s with world })
  | (.disconnected again, world) =>
      (.ok (.error { code := receiveCode again, message := "UDS peer disconnected" }),
        { s with world })
  | (.packet packet, world) =>
      readReply codec request responseType packet ({ s with world }.note (.received fd packet))

def sendAndReceiveLocked (request : Frame) (responseType : MessageType) (s : Session ω) :
    Except String (Except Error Frame) × Session ω :=
  match encode request with
  | .error e => (.ok (.error e), s)
  | .ok bytes => match s.socketFd with
      | none => (.ok (.error { code := .deviceNotReady, message := "Bad file descriptor" }), s)
      | some fd => match kernel.send fd bytes s.world with
          | (some text, world) => (.ok (.error { code := .deviceNotReady, message := text }),
              { s with world }.note (.sent fd request))
          | (none, world) => receiveLocked codec kernel fd request responseType
              ({ s with world }.note (.sent fd request))

/-! ## Connecting -/

/-- The greeting on a new connection. An exception leaves it open. -/
def helloLocked (s : Session ω) : Except String Error × Session ω :=
  let hello : Frame :=
    { messageType := .hello, requestId := s.nextRequestId, payload := helloPayload }
  match sendAndReceiveLocked codec kernel hello .helloReply s.draw with
  | (.error what, s) => (.error what, s)
  | (.ok (.error e), s) => (.ok e, closeLocked kernel s)
  | (.ok (.ok frame), s) =>
      (.ok Error.success, { s with deviceGeneration := frame.deviceGeneration })

def ensureConnectedLocked (s : Session ω) : Except String Error × Session ω :=
  match s.socketFd with
  | some _ => (.ok Error.success, s)
  | none => match kernel.socket s.world with
      | (.error text, world) =>
          (.ok { code := .deviceNotReady, message := text }, { s with world })
      | (.ok fd, world) => match kernel.setTimeouts fd world with
          | (some text, world) => (.ok { code := .internalError, message := text },
              { s with world := kernel.close fd world })
          | (none, world) => match kernel.connect fd world with
              | (some text, world) => (.ok { code := .deviceNotReady, message := text },
                  { s with world := kernel.close fd world })
              | (none, world) => helloLocked codec kernel
                  ({ s with socketFd := some fd, world }.note (.opened fd))

/-! ## Requests -/

/-- A request frame under the next id. -/
def sendLocked (requestType responseType : MessageType) (payload : List Byte) (s : Session ω) :
    Except String (Except Error Frame) × Session ω :=
  let request : Frame := { messageType := requestType, requestId := s.nextRequestId
                           deviceGeneration := s.deviceGeneration, payload }
  sendAndReceiveLocked codec kernel request responseType s.draw

/-- The second attempt of a read. -/
def retryLocked (requestType responseType : MessageType) (payload : List Byte) (error : Error)
    (s : Session ω) : Except String (Except Error Frame) × Session ω :=
  if retrySafe requestType then
    match ensureConnectedLocked codec kernel (closeLocked kernel s) with
    | (.error what, s) => (.error what, s)
    | (.ok e, s) =>
        if e.isOk then match sendLocked codec kernel requestType responseType payload s with
          | (.error what, s) => (.error what, s)
          | (.ok (.error e), s) => (.ok (.error e), closeLocked kernel s)
          | (.ok (.ok frame), s) => (.ok (.ok frame), s)
        else (.ok (.error error), s)
  else (.ok (.error error), closeLocked kernel s)

/-- A good response brings the generation of the device. -/
def learnGeneration : Except String (Except Error Frame) × Session ω →
    Except String (Except Error Frame) × Session ω
  | (.ok (.ok frame), s) => (.ok (.ok frame), { s with deviceGeneration := frame.deviceGeneration })
  | outcome => outcome

def exchangeLocked (requestType responseType : MessageType) (payload : List Byte)
    (s : Session ω) : Except String (Except Error Frame) × Session ω :=
  match ensureConnectedLocked codec kernel s with
  | (.error what, s) => (.error what, s)
  | (.ok e, s) =>
      if e.isOk then match sendLocked codec kernel requestType responseType payload s with
        | (.error what, s) => (.error what, s)
        | (.ok (.error e), s) =>
            learnGeneration (retryLocked codec kernel requestType responseType payload e s)
        | (.ok (.ok frame), s) => learnGeneration (.ok (.ok frame), s)
      else (.ok (.error e), s)

end Client

/-! ## Calls -/

/-- The public members of the backend. -/
inductive Call where
  | request (request : Request)
  | getHealth
  | deviceGeneration

inductive Answer where
  | reply (reply : Reply)
  | health (health : DeviceHealth)
  | generation (generation : BitVec 64)

/-- What a member sends, how it reads the response, and what it makes of a failed exchange. -/
structure Exchange where
  requestType : MessageType
  responseType : MessageType
  payload : List Byte
  read : List Byte → Except String Reply
  failed : Error → BitVec 64 → Reply

section Calls

variable (codec : JsonCodec)

def getDeviceInfo : Exchange where
  requestType := .getDeviceInfo
  responseType := .deviceInfoReply
  payload := emptyPayload
  read payload := (decodeDeviceInfo codec payload).map .deviceInfo
  failed e _ := .thrown e.message

def applyConnections (commands : List ConnectionCommand) (options : ApplyOptions OperationId) :
    Exchange where
  requestType := .applyConnections
  responseType := .applyResult
  payload := encodeApplyRequest codec { commands, options }
  read payload := (decodeApplyResult codec payload).map .applyResult
  failed e _ := .applyResult ⟨e, []⟩

def getConnections : Exchange where
  requestType := .getConnections
  responseType := .connectionsReply
  payload := emptyPayload
  read payload := (decodeConnections codec payload).map .connections
  failed e _ := .thrown e.message

def getPortState (direction : PortDirection) (id : Nat) : Exchange where
  requestType := .getPortState
  responseType := .portStateReply
  payload := encodePortRequest codec { direction, portId := id }
  read payload := (decodePortState codec payload).map .portState
  failed e _ := .thrown e.message

def reset (mode : ResetMode) : Exchange where
  requestType := .reset
  responseType := .resetResult
  payload := encodeResetRequest codec mode
  read payload := (decodeResetResult codec payload).map .resetResult
  failed e generation := .resetResult ⟨e, generation.toNat⟩

/-- `injectFault` and `clearFault`. -/
def changeFault (clear : Bool) (fault : FaultSpec) : Exchange where
  requestType := .injectFault
  responseType := .faultResult
  payload := encodeFaultRequest codec { clear, fault }
  read payload := (decodeFaultResult codec payload).map .faultResult
  failed e _ := .faultResult e

def exchangeOf : Request → Exchange
  | .applyConnections commands options => applyConnections codec commands options
  | .getConnections => getConnections codec
  | .getInputPortState id => getPortState codec .input id
  | .getOutputPortState id => getPortState codec .output id
  | .reset mode => reset codec mode
  | .injectFault fault => changeFault codec false fault
  | .clearFault selector => changeFault codec true selector
  | .getDeviceInfo => getDeviceInfo codec

/-- A hard reset brings another generation. -/
def afterReply : Reply → Session ω → Session ω
  | .resetResult result, s => { s with deviceGeneration := BitVec.ofNat 64 result.generation }
  | _, s => s

variable (kernel : Kernel ω)

def performExchange (exchange : Exchange) (s : Session ω) : Reply × Session ω :=
  match exchangeLocked codec kernel exchange.requestType exchange.responseType exchange.payload s with
  | (.error what, s) => (.thrown what, s)
  | (.ok (.error e), s) => (exchange.failed e s.deviceGeneration, s)
  | (.ok (.ok frame), s) => match exchange.read frame.payload with
      | .error what => (.thrown what, s)
      | .ok reply => (reply, afterReply reply s)

/-- A device that answers is ready. -/
def healthOf : Reply → DeviceHealth
  | .thrown what =>
      { status := .failed, lastError := { code := .deviceNotReady, message := what } }
  | _ => { status := .ready, lastError := Error.success }

def call : Call → Session ω → Answer × Session ω
  | .request request, s =>
      let (reply, s) := performExchange codec kernel (exchangeOf codec request) s
      (.reply reply, s)
  | .getHealth, s =>
      let (reply, s) := performExchange codec kernel (getDeviceInfo codec) s
      (.health (healthOf reply), s)
  | .deviceGeneration, s => (.generation s.deviceGeneration, s)

/-- The answers of a session, each with the part of the log that the call added. -/
def run : List Call → Session ω → List (Answer × List Event) × Session ω
  | [], s => ([], s)
  | c :: calls, s =>
      let (answer, t) := call codec kernel c s
      let (answers, u) := run calls t
      ((answer, t.log.drop s.log.length) :: answers, u)

end Calls

end MiniOcs.Uds.AnyLink
