import MiniOcs.Json.Text
import MiniOcs.Uds.Typed

/-!
# The socket does not show

A session over the socket gives the replies of the device in the same process, and leaves the
same device behind.
-/
namespace MiniOcs.Uds
open SimulatedOcsDevice

/-! ## Calls that return -/

/-- The call returns `a` and leaves `link'`. -/
def Returns {α : Type} (x : Io α) (link : Link) (a : α) (link' : Link) : Prop :=
  x link = .ok (.ok a, link')

theorem returns_pure {α : Type} (a : α) (link : Link) : Returns (pure a) link a link := rfl

theorem returns_bind {α β : Type} {x : Io α} {f : α → Io β} {link link' link'' : Link} {a : α}
    {b : β} (hx : Returns x link a link') (hf : Returns (f a) link' b link'') :
    Returns (x >>= f) link b link'' := by
  unfold Returns at hx hf ⊢
  show (x link >>= fun r => ExceptT.bindCont f r.1 r.2) = _
  rw [hx]
  exact hf

theorem returns_get (link : Link) : Returns (get : Io Link) link link link := rfl

theorem returns_modify (f : Link → Link) (link : Link) :
    Returns (modify f : Io PUnit) link () (f link) := rfl

theorem returns_ofExcept {α : Type} {x : Except String α} {a : α} (h : x = .ok a) (link : Link) :
    Returns (ofExcept x : Io α) link a link := by
  rw [h]
  rfl

variable {codec : JsonCodec} {disconnected : ErrorCode}

/-! ## One packet each way -/

/-- The server answers a frame with what `dispatch` makes of it. -/
theorem serveClient_dispatch {server : UdsServer} {request reply : Frame} {d : Device}
    (hdrop : server.dropNextApplyReply = false) (hrequest : Encodable request)
    (hreply : Encodable reply) (h : dispatch codec request server.device = .ok (reply, d)) :
    serveClient codec (header request ++ request.payload) server =
      .ok (some (header reply ++ reply.payload), { server with device := d }) := by
  have hsize := hrequest.size
  unfold serveClient
  rw [if_neg (by simp; omega), decode_header hrequest]
  dsimp only
  rw [h]
  simp only [Except.map, hdrop, Bool.false_eq_true, and_false, ↓reduceIte, encode_eq hreply]

theorem sendAndReceive_dispatch {c : ErrorCode} (link : Link) {request reply : Frame} {d : Device}
    (hconnected : link.client.connected = true) (hdrop : link.server.dropNextApplyReply = false)
    (hrequest : Encodable request) (hreply : Encodable reply)
    (h : dispatch codec request link.server.device = .ok (reply, d))
    (hid : reply.requestId = request.requestId) (herror : reply.messageType ≠ .errorReply) :
    Returns (sendAndReceiveLocked codec c request reply.messageType) link (.ok reply)
      { link with server := { link.server with device := d } } := by
  have hsize := hreply.size
  unfold sendAndReceiveLocked
  rw [encode_eq hrequest]
  dsimp only
  apply returns_bind (returns_get link)
  rw [if_neg (by simp [hconnected])]
  have htransmit : Returns (transmit codec (header request ++ request.payload)) link
      (some (header reply ++ reply.payload))
      { link with server := { link.server with device := d } } := by
    unfold Returns transmit
    rw [serveClient_dispatch hdrop hrequest hreply h]
    rfl
  apply returns_bind htransmit
  dsimp only
  rw [if_neg (by simp; omega), decode_header hreply]
  dsimp only
  rw [if_neg (by simp [hid]), if_neg herror, if_neg (by simp)]
  exact returns_pure _ _

/-! ## Exchanges -/

/-- The device and the hook of the server, which alone decide what it answers. -/
structure Serves (link : Link) (d : Device) : Prop where
  device : link.server.device = d
  lossless : link.server.dropNextApplyReply = false

theorem dispatch_hello (requestId : BitVec 64) (d : Device) :
    dispatch codec { messageType := .hello, requestId, payload := helloPayload } d =
      .ok ({ messageType := .helloReply, requestId
             deviceGeneration := BitVec.ofNat 64 d.info.generation
             payload := encodeDeviceInfo codec d.info }, d) := rfl

theorem takeRequestId_returns (link : Link) :
    Returns takeRequestId link link.client.nextRequestId
      { link with client :=
        { link.client with nextRequestId := link.client.nextRequestId + 1 } } := rfl

theorem helloPayload_length : helloPayload.length ≤ maxPayloadSize := by decide

/-- The connection stands, or the reply to the greeting fits a frame. -/
def Greeted (codec : JsonCodec) (link : Link) (d : Device) : Prop :=
  link.client.connected = true ∨ (encodeDeviceInfo codec d.info).length ≤ maxPayloadSize

theorem ensureConnected_returns {c : ErrorCode} {link : Link} {d : Device} (h : Serves link d)
    (hgreeted : Greeted codec link d) :
    ∃ link', Returns (ensureConnectedLocked codec c) link Error.success link' ∧
      link'.client.connected = true ∧ Serves link' d := by
  obtain ⟨rfl, hlossless⟩ := h
  unfold ensureConnectedLocked
  cases hconnected : link.client.connected with
  | true =>
      refine ⟨link, ?_, hconnected, rfl, hlossless⟩
      apply returns_bind (returns_get link)
      rw [if_pos hconnected]
      exact returns_pure _ _
  | false =>
      have hgreeting := hgreeted.resolve_left (by simp [hconnected])
      have hsend := sendAndReceive_dispatch (c := c)
        { client := { link.client with connected := true
                                       nextRequestId := link.client.nextRequestId + 1 }
          server := link.server } rfl hlossless ⟨rfl, rfl, helloPayload_length⟩
        ⟨rfl, rfl, hgreeting⟩ (dispatch_hello link.client.nextRequestId link.server.device) rfl
        (show MessageType.helloReply ≠ .errorReply by decide)
      refine ⟨{ client := { connected := true
                            nextRequestId := link.client.nextRequestId + 1
                            deviceGeneration :=
                              BitVec.ofNat 64 link.server.device.info.generation }
                server := link.server }, ?_, rfl, rfl, hlossless⟩
      apply returns_bind (returns_get link)
      rw [if_neg (by simp [hconnected])]
      apply returns_bind (returns_modify _ link)
      apply returns_bind (takeRequestId_returns _)
      exact returns_bind hsend (returns_bind (returns_modify _ _) (returns_pure _ _))

/-- Whatever the request id and the generation, the server answers the request with this reply. -/
def Answers (codec : JsonCodec) (d : Device) (requestType : MessageType) (payload : List Byte)
    (replyType : MessageType) (replyPayload : List Byte) (d' : Device) : Prop :=
  ∀ requestId generation, ∃ generation',
    dispatch codec { messageType := requestType, requestId, deviceGeneration := generation
                     payload } d =
      .ok ({ messageType := replyType, requestId, deviceGeneration := generation'
             payload := replyPayload }, d')

/-- An exchange brings the reply of the server, on the first attempt. -/
theorem exchange_returns {c : ErrorCode} {link : Link} {d d' : Device} (h : Serves link d)
    (hgreeted : Greeted codec link d)
    {requestType replyType : MessageType} {payload replyPayload : List Byte}
    (hanswers : Answers codec d requestType payload replyType replyPayload d')
    (hrequest : isKnownMessageType requestType.code = true)
    (hreply : isKnownMessageType replyType.code = true) (herror : replyType ≠ .errorReply)
    (hsize : payload.length ≤ maxPayloadSize) (hsize' : replyPayload.length ≤ maxPayloadSize) :
    ∃ frame link', Returns (exchangeLocked codec c requestType replyType payload) link
        (.ok frame) link' ∧
      frame.payload = replyPayload ∧ link'.client.connected = true ∧ Serves link' d' := by
  obtain ⟨link₁, hconnect, hconnected, hserves⟩ :=
    ensureConnected_returns (c := c) h hgreeted
  obtain ⟨generation', hdispatch⟩ :=
    hanswers link₁.client.nextRequestId link₁.client.deviceGeneration
  obtain ⟨rfl, hlossless⟩ := hserves
  have hsend := sendAndReceive_dispatch (c := c)
    { link₁ with client :=
      { link₁.client with nextRequestId := link₁.client.nextRequestId + 1 } }
    hconnected hlossless ⟨rfl, hrequest, hsize⟩ ⟨rfl, hreply, hsize'⟩ hdispatch rfl herror
  refine ⟨{ messageType := replyType, requestId := link₁.client.nextRequestId
            deviceGeneration := generation', payload := replyPayload },
    { client := { connected := true, nextRequestId := link₁.client.nextRequestId + 1
                  deviceGeneration := generation' }
      server := { link₁.server with device := d' } }, ?_, rfl, rfl, rfl, hlossless⟩
  apply returns_bind hconnect
  rw [if_neg (by decide)]
  have hlocked : Returns (sendLocked codec c requestType replyType payload) link₁
      (.ok { messageType := replyType, requestId := link₁.client.nextRequestId
             deviceGeneration := generation', payload := replyPayload })
      { client := { link₁.client with nextRequestId := link₁.client.nextRequestId + 1 }
        server := { link₁.server with device := d' } } := by
    apply returns_bind (takeRequestId_returns link₁)
    exact returns_bind (returns_get _) hsend
  apply returns_bind hlocked
  apply returns_bind (returns_pure _ _)
  rw [← hconnected]
  exact returns_bind (returns_modify _ _) (returns_pure _ _)

/-! ## Requests and replies -/

def Request.messageType : Request → MessageType
  | .applyConnections .. => .applyConnections
  | .getConnections => .getConnections
  | .getInputPortState _ => .getPortState
  | .getOutputPortState _ => .getPortState
  | .reset _ => .reset
  | .injectFault _ => .injectFault
  | .clearFault _ => .injectFault
  | .getDeviceInfo => .getDeviceInfo

def Request.replyType : Request → MessageType
  | .applyConnections .. => .applyResult
  | .getConnections => .connectionsReply
  | .getInputPortState _ => .portStateReply
  | .getOutputPortState _ => .portStateReply
  | .reset _ => .resetResult
  | .injectFault _ => .faultResult
  | .clearFault _ => .faultResult
  | .getDeviceInfo => .deviceInfoReply

/-- The payload that the client sends. -/
def Request.payload (codec : JsonCodec) : Request → List Byte
  | .applyConnections commands options => encodeApplyRequest codec { commands, options }
  | .getConnections => emptyPayload
  | .getInputPortState id => encodePortRequest codec { direction := .input, portId := id }
  | .getOutputPortState id => encodePortRequest codec { direction := .output, portId := id }
  | .reset mode => encodeResetRequest codec mode
  | .injectFault fault => encodeFaultRequest codec { clear := false, fault }
  | .clearFault selector => encodeFaultRequest codec { clear := true, fault := selector }
  | .getDeviceInfo => emptyPayload

/-- The payload that the server sends. -/
def Reply.payload (codec : JsonCodec) : Reply → List Byte
  | .applyResult result => encodeApplyResult codec result
  | .connections applied => encodeConnections codec applied
  | .portState state => encodePortState codec state
  | .resetResult result => encodeResetResult codec result
  | .faultResult error => encodeFaultResult codec error
  | .deviceInfo info => encodeDeviceInfo codec info
  | .thrown _ => []

theorem map_eq_ok {α β : Type} {x : Except Abort α} {f : α → β} {b : β} (h : x.map f = .ok b) :
    ∃ a, x = .ok a ∧ f a = b := by
  cases x with
  | error a => cases h
  | ok a => exact ⟨a, rfl, Except.ok.inj h⟩

/-- The server does with a request what the device in the process does. -/
theorem answers_call (hcodec : codec.Lossless) {d d' : Device} {request : Request}
    (hrequest : TypedRequest request) {reply : Reply}
    (h : InProcessSimBackend.call d request = .ok (reply, d')) :
    Answers codec d request.messageType (request.payload codec) request.replyType
      (reply.payload codec) d' := by
  intro requestId generation
  cases request with
  | applyConnections commands options =>
      obtain ⟨⟨result, e⟩, hresult, heq⟩ := map_eq_ok h
      cases heq
      refine ⟨BitVec.ofNat 64 d.info.generation, ?_⟩
      show withPayload codec _ d (decodeAs parseApplyRequest codec (encodeAs applyRequestJson codec
        { commands, options })) _ = _
      rw [(readable_applyRequest hrequest.2 hrequest.1).decode_encode hcodec, withPayload, hresult]
      rfl
  | getConnections =>
      cases h
      exact ⟨_, rfl⟩
  | getInputPortState id =>
      obtain ⟨state, hstate, heq⟩ := map_eq_ok h
      cases heq
      refine ⟨BitVec.ofNat 64 d.info.generation, ?_⟩
      have hread : Readable portRequestJson parsePortRequest { direction := .input, portId := id } :=
        readable_portRequest hrequest
      show withPayload codec _ d (decodeAs parsePortRequest codec (encodeAs portRequestJson codec
        { direction := .input, portId := id })) _ = _
      rw [hread.decode_encode hcodec, withPayload, hstate]
      rfl
  | getOutputPortState id =>
      obtain ⟨state, hstate, heq⟩ := map_eq_ok h
      cases heq
      refine ⟨BitVec.ofNat 64 d.info.generation, ?_⟩
      have hread : Readable portRequestJson parsePortRequest { direction := .output, portId := id } :=
        readable_portRequest hrequest
      show withPayload codec _ d (decodeAs parsePortRequest codec (encodeAs portRequestJson codec
        { direction := .output, portId := id })) _ = _
      rw [hread.decode_encode hcodec, withPayload, hstate]
      rfl
  | reset mode =>
      obtain ⟨⟨next, e⟩, hresult, heq⟩ := map_eq_ok h
      cases heq
      refine ⟨BitVec.ofNat 64 next, ?_⟩
      show withPayload codec _ d (decodeAs parseResetRequest codec (encodeAs resetRequestJson codec
        mode)) _ = _
      rw [(readable_resetRequest mode).decode_encode hcodec, withPayload, hresult]
      rfl
  | injectFault fault =>
      obtain ⟨⟨error, e⟩, hresult, heq⟩ := map_eq_ok h
      cases heq
      refine ⟨BitVec.ofNat 64 d.info.generation, ?_⟩
      have hread : Readable faultRequestJson parseFaultRequest { clear := false, fault } :=
        readable_faultRequest hrequest
      show withPayload codec _ d (decodeAs parseFaultRequest codec (encodeAs faultRequestJson codec
        { clear := false, fault })) _ = _
      rw [hread.decode_encode hcodec, withPayload]
      dsimp only
      rw [if_neg (by decide), hresult]
      rfl
  | clearFault selector =>
      obtain ⟨⟨error, e⟩, hresult, heq⟩ := map_eq_ok h
      cases heq
      refine ⟨BitVec.ofNat 64 d.info.generation, ?_⟩
      have hread : Readable faultRequestJson parseFaultRequest { clear := true, fault := selector } :=
        readable_faultRequest hrequest
      show withPayload codec _ d (decodeAs parseFaultRequest codec (encodeAs faultRequestJson codec
        { clear := true, fault := selector })) _ = _
      rw [hread.decode_encode hcodec, withPayload]
      dsimp only
      rw [if_pos rfl, hresult]
      rfl
  | getDeviceInfo =>
      cases h
      exact ⟨_, rfl⟩

/-- The payloads of a call stay below the limit of a frame. -/
def payloadsFit (codec : JsonCodec) (request : Request) (reply : Reply) : Bool :=
  decide ((request.payload codec).length ≤ maxPayloadSize) &&
    decide ((reply.payload codec).length ≤ maxPayloadSize)

theorem messageTypes_known (request : Request) :
    isKnownMessageType request.messageType.code = true ∧
      isKnownMessageType request.replyType.code = true ∧ request.replyType ≠ .errorReply := by
  cases request <;> simp only [Request.messageType, Request.replyType] <;> decide

theorem getReply_returns {α : Type} {requestType replyType : MessageType} {payload : List Byte}
    {decoder : JsonCodec → List Byte → Except String α} {reply : α → Reply} {link link' : Link}
    {frame : Frame} {a : α}
    (h : Returns (exchangeLocked codec disconnected requestType replyType payload) link
      (.ok frame) link') (hdecode : decoder codec frame.payload = .ok a) :
    Returns (getReply codec disconnected requestType replyType payload decoder reply) link (reply a)
      link' := by
  apply returns_bind h
  exact returns_bind (returns_ofExcept hdecode link') (returns_pure _ _)

theorem faultReply_returns {request : FaultRequest} {link link' : Link} {frame : Frame}
    {error : Error}
    (h : Returns (exchangeLocked codec disconnected .injectFault .faultResult
      (encodeFaultRequest codec request)) link (.ok frame) link')
    (hdecode : decodeFaultResult codec frame.payload = .ok error) :
    Returns (faultReply codec disconnected request) link (.faultResult error) link' := by
  apply returns_bind h
  exact returns_bind (returns_ofExcept hdecode link') (returns_pure _ _)

/-- A call over the socket returns what the call in the process returns. -/
theorem call_returns {c : ErrorCode} (hcodec : codec.Lossless) {link : Link} {d d' : Device} (hserves : Serves link d)
    (hgreeted : Greeted codec link d) {request : Request}
    (hrequest : TypedRequest request) {reply : Reply} (hreply : TypedReply reply)
    (h : InProcessSimBackend.call d request = .ok (reply, d'))
    (hfit : payloadsFit codec request reply = true) :
    ∃ link', Returns (UdsDeviceBackend.call codec c request) link reply link' ∧
      link'.client.connected = true ∧ Serves link' d' := by
  obtain ⟨hknown, hknown', herror⟩ := messageTypes_known request
  simp only [payloadsFit, Bool.and_eq_true, decide_eq_true_eq] at hfit
  obtain ⟨frame, link', hexchange, hpayload, hconnected, hserves'⟩ :=
    exchange_returns (c := c) hserves hgreeted
      (answers_call hcodec hrequest h) hknown hknown' herror hfit.1 hfit.2
  cases request with
  | applyConnections commands options =>
      obtain ⟨⟨result, e⟩, -, heq⟩ := map_eq_ok h
      cases heq
      have hdecode : decodeApplyResult codec frame.payload = .ok result := by
        rw [hpayload]
        exact (readable_applyResult hreply).decode_encode hcodec
      refine ⟨link', returns_bind hexchange ?_, hconnected, hserves'⟩
      exact returns_bind (returns_ofExcept hdecode link') (returns_pure _ _)
  | getConnections =>
      cases h
      refine ⟨link', getReply_returns hexchange ?_, hconnected, hserves'⟩
      rw [hpayload]
      exact (readable_connections hreply).decode_encode hcodec
  | getInputPortState id =>
      obtain ⟨state, -, heq⟩ := map_eq_ok h
      cases heq
      refine ⟨link', getReply_returns hexchange ?_, hconnected, hserves'⟩
      rw [hpayload]
      exact (readable_portState hreply).decode_encode hcodec
  | getOutputPortState id =>
      obtain ⟨state, -, heq⟩ := map_eq_ok h
      cases heq
      refine ⟨link', getReply_returns hexchange ?_, hconnected, hserves'⟩
      rw [hpayload]
      exact (readable_portState hreply).decode_encode hcodec
  | reset mode =>
      obtain ⟨⟨generation, e⟩, -, heq⟩ := map_eq_ok h
      cases heq
      have hdecode : decodeResetResult codec frame.payload = .ok ⟨Error.success, generation⟩ := by
        rw [hpayload]
        exact (readable_resetResult hreply).decode_encode hcodec
      refine ⟨{ link' with client :=
          { link'.client with deviceGeneration := BitVec.ofNat 64 generation } },
        returns_bind hexchange ?_, hconnected, hserves'.device, hserves'.lossless⟩
      apply returns_bind (returns_ofExcept hdecode link')
      exact returns_bind (returns_modify _ _) (returns_pure _ _)
  | injectFault fault =>
      obtain ⟨⟨error, e⟩, -, heq⟩ := map_eq_ok h
      cases heq
      refine ⟨link', faultReply_returns hexchange ?_, hconnected, hserves'⟩
      rw [hpayload]
      exact (readable_faultResult error).decode_encode hcodec
  | clearFault selector =>
      obtain ⟨⟨error, e⟩, -, heq⟩ := map_eq_ok h
      cases heq
      refine ⟨link', faultReply_returns hexchange ?_, hconnected, hserves'⟩
      rw [hpayload]
      exact (readable_faultResult error).decode_encode hcodec
  | getDeviceInfo =>
      cases h
      refine ⟨link', getReply_returns hexchange ?_, hconnected, hserves'⟩
      rw [hpayload]
      exact (readable_deviceInfo hreply).decode_encode hcodec

/-! ## Sessions -/

/-- Every call of the device returns. -/
theorem sound_call {d : Device} (h : Sound d) (request : Request) :
    ∃ reply d', InProcessSimBackend.call d request = .ok (reply, d') ∧ Sound d' := by
  have hport : ∀ direction id, ∃ state, portState d direction id = .ok state := by
    intro direction id
    unfold portState getPortState
    cases hvalid : (d.validatePort direction id).isOk with
    | false => exact ⟨_, rfl⟩
    | true =>
        obtain ⟨port, hport⟩ := h.portAt_ports hvalid
        simp only [Bool.not_true, Bool.false_eq_true, ↓reduceIte, hport]
        exact ⟨_, rfl⟩
  cases request with
  | applyConnections commands options =>
      obtain ⟨r, hr, hsound⟩ := h.applyConnections commands options
      exact ⟨.applyResult r.1, r.2, by rw [InProcessSimBackend.call, hr]; rfl, hsound⟩
  | getConnections => exact ⟨_, d, rfl, h⟩
  | getInputPortState id =>
      obtain ⟨state, hstate⟩ := hport .input id
      exact ⟨.portState state, d, by rw [InProcessSimBackend.call, hstate]; rfl, h⟩
  | getOutputPortState id =>
      obtain ⟨state, hstate⟩ := hport .output id
      exact ⟨.portState state, d, by rw [InProcessSimBackend.call, hstate]; rfl, h⟩
  | reset mode =>
      obtain ⟨r, hr, hsound⟩ := h.reset mode
      exact ⟨.resetResult ⟨Error.success, r.1⟩, r.2, by rw [InProcessSimBackend.call, hr]; rfl, hsound⟩
  | injectFault fault =>
      obtain ⟨r, hr, hsound⟩ := h.injectFault fault
      exact ⟨.faultResult r.1, r.2, by rw [InProcessSimBackend.call, hr]; rfl, hsound⟩
  | clearFault selector =>
      obtain ⟨r, hr, hsound⟩ := h.clearFault selector
      exact ⟨.faultResult r.1, r.2, by rw [InProcessSimBackend.call, hr]; rfl, hsound⟩
  | getDeviceInfo => exact ⟨_, d, rfl, h⟩

/-- No request and no reply of a session is longer than a frame allows. -/
def sessionFits (codec : JsonCodec) (d : Device) : List Request → Bool
  | [] => true
  | request :: requests => match InProcessSimBackend.call d request with
      | .error _ => true
      | .ok (reply, d') => payloadsFit codec request reply && sessionFits codec d' requests

theorem run_equivalent {c : ErrorCode} (hcodec : codec.Lossless) {requests : List Request} {link : Link} {d : Device}
    (hsound : Sound d) (htyped : TypedDevice d) (hserves : Serves link d)
    (hrequests : ∀ request ∈ requests, TypedRequest request)
    (hgreeted : requests ≠ [] → Greeted codec link d)
    (hfit : sessionFits codec d requests = true) :
    ∃ replies d' link', InProcessSimBackend.run d requests = .ok (replies, d') ∧
      UdsDeviceBackend.run codec c link requests = .ok (replies, link') ∧
      Serves link' d' := by
  induction requests generalizing link d with
  | nil => exact ⟨[], d, link, rfl, rfl, hserves⟩
  | cons request requests ih =>
      obtain ⟨reply, d₁, hcall, hsound₁⟩ := sound_call hsound request
      obtain ⟨hreply, htyped₁⟩ := htyped.call hsound (hrequests request (by simp)) hcall
      rw [sessionFits, hcall] at hfit
      obtain ⟨hfits, hfit⟩ := Bool.and_eq_true_iff.mp hfit
      obtain ⟨link₁, hreturns, hconnected, hserves₁⟩ := call_returns (c := c) hcodec hserves
        (hgreeted (by simp)) (hrequests request (by simp)) hreply hcall hfits
      obtain ⟨replies, d', link', hrun, hremote, hserves'⟩ := ih hsound₁ htyped₁ hserves₁
        (fun request hmem => hrequests request (by simp [hmem])) (fun _ => .inl hconnected) hfit
      have hstep : UdsDeviceBackend.step codec c link request = .ok (reply, link₁) := by
        unfold UdsDeviceBackend.step
        rw [hreturns]
        rfl
      refine ⟨reply :: replies, d', link', ?_, ?_, hserves'⟩
      · rw [InProcessSimBackend.run, hcall]
        show (InProcessSimBackend.run d₁ requests >>= _) = _
        rw [hrun]
        rfl
      · rw [UdsDeviceBackend.run, hstep]
        show (UdsDeviceBackend.run codec c link₁ requests >>= _) = _
        rw [hremote]
        rfl

/-- Over a loss-free socket every session has the replies of the device in the same process,
and the two devices end up equal. -/
theorem backends_equivalent (hcodec : codec.Lossless) {d : Device} (hd : Reachable d)
    (htyped : TypedDevice d) {requests : List Request}
    (hrequests : ∀ request ∈ requests, TypedRequest request)
    (hgreeting : requests ≠ [] → (encodeDeviceInfo codec d.info).length ≤ maxPayloadSize)
    (hfit : sessionFits codec d requests = true) :
    ∃ replies d' link', InProcessSimBackend.run d requests = .ok (replies, d') ∧
      UdsDeviceBackend.run codec disconnected { server := { device := d } } requests =
        .ok (replies, link') ∧
      link'.server.device = d' := by
  have hserves : Serves { server := { device := d } } d := ⟨rfl, rfl⟩
  obtain ⟨replies, d', link', hrun, hremote, hserves'⟩ := run_equivalent (c := disconnected) hcodec
    hd.sound htyped hserves hrequests (fun h => .inr (hgreeting h)) hfit
  exact ⟨replies, d', link', hrun, hremote, hserves'.device⟩

/-- Compact JSON texts in UTF-8. -/
def textCodec : JsonCodec where
  dump v := ((Json.render false v).flatMap String.utf8EncodeChar).map UInt8.toBitVec
  parse bytes :=
    match (bytes.map UInt8.ofBitVec).toByteArray.utf8Decode?.bind fun chars =>
      Json.parseText chars.toList with
    | some v => .ok v
    | none => .error "[json.exception.parse_error.101] parse error"

theorem textCodec_lossless : textCodec.Lossless := by
  intro v hv
  have hbytes : ∀ bytes : List UInt8, (bytes.map UInt8.toBitVec).map UInt8.ofBitVec = bytes := by
    intro bytes
    rw [List.map_map]
    exact List.map_id bytes
  have hdecode : ((Json.render false v).flatMap String.utf8EncodeChar).toByteArray.utf8Decode? =
      some (Json.render false v).toArray := List.utf8Decode?_utf8Encode
  simp only [textCodec, hbytes, hdecode, Option.bind_some, Json.parseText_render false hv]

def socketDevice : Device where
  info := twoByTwo.info
  connections := ∅
  lastVersions := ∅
  inputToOutput := [none, none]
  outputToInput := [none, none]
  inputPorts := twoByTwo.inputPorts
  outputPorts := twoByTwo.outputPorts
  applyResults := []
  applyResultOrder := []
  failNextApply := false
  timeoutNextApply := false

/-- Every operation once: a crossed pair, a port that does not exist, a fault and a hard reset. -/
def sampleSession : List Request :=
  [.applyConnections crossedPair { operationId := some ⟨"op1", by decide⟩ }, .getConnections,
    .injectFault { type := .inputPortDown, portId := 1 }, .getInputPortState 1,
    .getOutputPortState 9, .clearFault { type := .all }, .reset .hard, .getDeviceInfo]

theorem socketDevice_reachable : Reachable socketDevice :=
  ⟨twoByTwo.info, socketDevice, [], rfl, rfl⟩

theorem socketDevice_typed : TypedDevice socketDevice where
  info := ⟨by decide, by decide, by decide⟩
  connections := by
    intro id c hc
    simp [socketDevice] at hc
  results := nofun
  inputPorts := typed_makePorts (show makePorts .input 2 = some socketDevice.inputPorts from rfl)
  outputPorts := typed_makePorts (show makePorts .output 2 = some socketDevice.outputPorts from rfl)

theorem sampleSession_typed : ∀ request ∈ sampleSession, TypedRequest request := by
  have hpair : ∀ c ∈ crossedPair, TypedCommand c := by
    simp only [crossedPair, List.mem_cons, List.not_mem_nil, or_false, forall_eq_or_imp, forall_eq]
    exact ⟨⟨by decide, by decide, by decide⟩, by decide, by decide, by decide⟩
  simp only [sampleSession, List.mem_cons, List.not_mem_nil, or_false, forall_eq_or_imp, forall_eq,
    TypedRequest, and_true, true_and]
  exact ⟨⟨hpair, by decide, by decide⟩, by decide⟩

theorem backends_equivalent_sampleSession :
    textCodec.Lossless ∧ Reachable socketDevice ∧
    ∃ replies d' link', InProcessSimBackend.run socketDevice sampleSession = .ok (replies, d') ∧
      UdsDeviceBackend.run textCodec .deviceNotReady { server := { device := socketDevice } }
        sampleSession = .ok (replies, link') ∧
      link'.server.device = d' :=
  ⟨textCodec_lossless, socketDevice_reachable,
    backends_equivalent textCodec_lossless socketDevice_reachable socketDevice_typed
      sampleSession_typed (fun _ => by decide +kernel) (by decide +kernel)⟩

end MiniOcs.Uds
