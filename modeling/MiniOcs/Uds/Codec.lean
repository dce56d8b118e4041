import MiniOcs.BigEndian
import MiniOcs.Types

/-!
# Frames on the device socket

`uds_codec.cpp`: seven big-endian header fields and the payload bytes. Reading past the end of
a packet is a result of its own.
-/
namespace MiniOcs.Uds

abbrev Byte := BitVec 8

def magic : BitVec 32 := 0x4F435331

def protocolVersion : BitVec 16 := 1

def headerSize : Nat := 32

def maxPayloadSize : Nat := 1048576

/-- The 16-bit enumeration can hold codes that have no name. -/
structure MessageType where
  code : BitVec 16
  deriving DecidableEq, Repr

namespace MessageType

def hello : MessageType := ⟨1⟩
def helloReply : MessageType := ⟨2⟩
def getDeviceInfo : MessageType := ⟨3⟩
def deviceInfoReply : MessageType := ⟨4⟩
def applyConnections : MessageType := ⟨5⟩
def applyResult : MessageType := ⟨6⟩
def getConnections : MessageType := ⟨7⟩
def connectionsReply : MessageType := ⟨8⟩
def getPortState : MessageType := ⟨9⟩
def portStateReply : MessageType := ⟨10⟩
def reset : MessageType := ⟨11⟩
def resetResult : MessageType := ⟨12⟩
def injectFault : MessageType := ⟨13⟩
def faultResult : MessageType := ⟨14⟩
def deviceEvent : MessageType := ⟨15⟩
def errorReply : MessageType := ⟨16⟩

end MessageType

structure Frame where
  version : BitVec 16 := protocolVersion
  messageType : MessageType := .hello
  flags : BitVec 32 := 0
  requestId : BitVec 64 := 0
  deviceGeneration : BitVec 64 := 0
  payload : List Byte := []
  deriving DecidableEq, Repr

/-! ## Integers -/

/-- The loop of `appendBigEndian`, from the most significant byte down. -/
def appendLoop {w : Nat} (value : BitVec w) : Nat → List Byte → List Byte
  | 0, output => output
  | offset + 1, output =>
      appendLoop value offset (output ++ [((value >>> (offset * 8)) &&& 0xFF).setWidth 8])

def appendBigEndian {n : Nat} (output : List Byte) (value : BitVec (8 * n)) : List Byte :=
  appendLoop value n output

/-- The loop of `readBigEndian`; `none` is an index past the end. -/
def readLoop {w : Nat} (input : List Byte) : Nat → BitVec w → Nat → Option (BitVec w × Nat)
  | 0, value, offset => some (value, offset)
  | count + 1, value, offset => match input[offset]? with
      | none => none
      | some byte => readLoop input count ((value <<< 8) ||| byte.setWidth w) (offset + 1)

def readBigEndian (n : Nat) (input : List Byte) (offset : Nat) : Option (BitVec (8 * n) × Nat) :=
  readLoop input n 0 offset

def isKnownMessageType (value : BitVec 16) : Bool :=
  decide (MessageType.hello.code ≤ value) && decide (value ≤ MessageType.errorReply.code)

/-! ## Frames -/

def encode (frame : Frame) : Except Error (List Byte) :=
  if frame.version ≠ protocolVersion then
    .error { code := .protocolVersion, message := "unsupported UDS protocol version" }
  else if maxPayloadSize < frame.payload.length ∨ 4294967295 < frame.payload.length then
    .error { code := .payloadTooLarge, message := "UDS payload exceeds limit" }
  else
    let output := appendBigEndian (n := 4) [] magic
    let output := appendBigEndian (n := 2) output frame.version
    let output := appendBigEndian (n := 2) output frame.messageType.code
    let output := appendBigEndian (n := 4) output frame.flags
    let output := appendBigEndian (n := 8) output frame.requestId
    let output := appendBigEndian (n := 4) output (BitVec.ofNat 32 frame.payload.length)
    let output := appendBigEndian (n := 8) output frame.deviceGeneration
    .ok (output ++ frame.payload)

/-- The checks on the header that has been read, up to `offset`. -/
def decodeFields (bytes : List Byte) (offset : Nat) (magic' : BitVec 32)
    (version messageType : BitVec 16) (flags : BitVec 32) (requestId : BitVec 64)
    (payloadLength : BitVec 32) (deviceGeneration : BitVec 64) : Except Error Frame :=
  if magic' ≠ magic then
    .error { code := .protocolMalformed, message := "UDS frame magic is invalid" }
  else if version ≠ protocolVersion then
    .error { code := .protocolVersion, message := "unsupported UDS protocol version" }
  else if !isKnownMessageType messageType then
    .error { code := .protocolMalformed, message := "UDS message type is invalid" }
  else if maxPayloadSize < payloadLength.toNat then
    .error { code := .payloadTooLarge, message := "UDS payload exceeds limit" }
  else if bytes.length ≠ headerSize + payloadLength.toNat then
    .error { code := .protocolMalformed, message := "UDS payload length does not match frame" }
  else
    -- the copy loop runs from the end of the header to the end of the packet
    .ok { version, messageType := ⟨messageType⟩, flags, requestId, deviceGeneration,
          payload := bytes.drop offset }

def decode (bytes : List Byte) : Option (Except Error Frame) :=
  if bytes.length < headerSize then
    some (.error { code := .protocolMalformed, message := "UDS frame header is truncated" })
  else do
    let (magic', offset) ← readBigEndian 4 bytes 0
    let (version, offset) ← readBigEndian 2 bytes offset
    let (messageType, offset) ← readBigEndian 2 bytes offset
    let (flags, offset) ← readBigEndian 4 bytes offset
    let (requestId, offset) ← readBigEndian 8 bytes offset
    let (payloadLength, offset) ← readBigEndian 4 bytes offset
    let (deviceGeneration, offset) ← readBigEndian 8 bytes offset
    return decodeFields bytes offset magic' version messageType flags requestId payloadLength
      deviceGeneration

/-! ## Integers and their bytes -/

theorem appendLoop_eq {w : Nat} (hw : 8 ≤ w) (value : BitVec w) (offset : Nat)
    (output : List Byte) :
    appendLoop value offset output = output ++ BigEndian.bytes offset value.toNat := by
  induction offset generalizing output with
  | zero => simp [appendLoop, BigEndian.bytes]
  | succ offset ih =>
      rw [appendLoop, ih, BigEndian.bytes, List.append_assoc, List.singleton_append]
      congr 2
      apply BitVec.eq_of_toNat_eq
      have hpow : (2 : Nat) ^ (offset * 8) = 256 ^ offset := by
        rw [Nat.mul_comm, Nat.pow_mul]
      have hmask : (255 : BitVec w).toNat = 2 ^ 8 - 1 := by
        show (BitVec.ofNat w 255).toNat = _
        rw [BitVec.toNat_ofNat]
        exact Nat.mod_eq_of_lt
          (Nat.lt_of_lt_of_le (by decide) (Nat.pow_le_pow_right (by decide) hw))
      simp only [BitVec.toNat_setWidth, BitVec.toNat_and, BitVec.toNat_ushiftRight,
        BitVec.toNat_ofNat, Nat.shiftRight_eq_div_pow, hpow, hmask, Nat.and_two_pow_sub_one_eq_mod,
        Nat.mod_mod]

theorem appendBigEndian_eq {n : Nat} (hn : 0 < n) (output : List Byte) (value : BitVec (8 * n)) :
    appendBigEndian output value = output ++ BigEndian.bytes n value.toNat :=
  appendLoop_eq (by omega) value n output

/-- One more byte at the low end. -/
theorem toNat_shiftLeft_or {w k : Nat} {value : BitVec w} (hvalue : value.toNat < 256 ^ k)
    (hk : 8 * (k + 1) ≤ w) (byte : Byte) :
    ((value <<< 8) ||| byte.setWidth w).toNat = value.toNat * 256 + byte.toNat := by
  have hbyte : byte.toNat < 256 := byte.isLt
  have hpow : (256 : Nat) ^ (k + 1) ≤ 2 ^ w := by
    calc (256 : Nat) ^ (k + 1) = 2 ^ (8 * (k + 1)) := by rw [Nat.pow_mul]
      _ ≤ 2 ^ w := Nat.pow_le_pow_right (by decide) hk
  have hshift : value.toNat * 256 + 256 ≤ 256 ^ (k + 1) := by
    rw [Nat.pow_succ]
    calc value.toNat * 256 + 256 = (value.toNat + 1) * 256 := by ring
      _ ≤ 256 ^ k * 256 := Nat.mul_le_mul_right _ hvalue
  have hleft : value.toNat <<< 8 % 2 ^ w = value.toNat <<< 8 := by
    apply Nat.mod_eq_of_lt
    rw [Nat.shiftLeft_eq]
    omega
  have hright : byte.toNat % 2 ^ w = byte.toNat := Nat.mod_eq_of_lt (by omega)
  rw [BitVec.toNat_or, BitVec.toNat_shiftLeft, BitVec.toNat_setWidth, hleft, hright,
    ← Nat.shiftLeft_add_eq_or_of_lt hbyte, Nat.shiftLeft_eq]

theorem readLoop_eq {w k count : Nat} (hw : 8 * (k + count) = w) {input : List Byte} {offset : Nat}
    (hlen : offset + count ≤ input.length) {value : BitVec w} (hvalue : value.toNat < 256 ^ k) :
    readLoop input count value offset =
      some (BitVec.ofNat w (value.toNat * 256 ^ count +
        BigEndian.value ((input.drop offset).take count)), offset + count) := by
  induction count generalizing k value offset with
  | zero => simp [readLoop, BigEndian.value]
  | succ count ih =>
      have hlt : offset < input.length := by omega
      have hnext := toNat_shiftLeft_or hvalue (by omega) (input[offset])
      have hbyte : (input[offset]).toNat < 256 := (input[offset]).isLt
      have hbound : ((value <<< 8) ||| (input[offset]).setWidth w).toNat < 256 ^ (k + 1) := by
        rw [hnext, Nat.pow_succ]
        calc value.toNat * 256 + (input[offset]).toNat < (value.toNat + 1) * 256 := by omega
          _ ≤ 256 ^ k * 256 := Nat.mul_le_mul_right _ hvalue
      have hcons : (input.drop offset).take (count + 1) =
          input[offset] :: (input.drop (offset + 1)).take count := by
        rw [List.drop_eq_getElem_cons hlt, List.take_succ_cons]
      have hlength : ((input.drop (offset + 1)).take count).length = count := by
        rw [List.length_take, List.length_drop]
        omega
      simp only [readLoop, List.getElem?_eq_getElem hlt]
      rw [ih (k := k + 1) (by omega) (by omega) hbound, hnext, hcons, BigEndian.value_cons, hlength]
      congr 2
      · congr 1
        rw [Nat.pow_succ']
        ring
      · omega

/-- A field of the header, as its bytes stand in the packet. -/
def field (bytes : List Byte) (offset n : Nat) : List Byte := (bytes.drop offset).take n

theorem readBigEndian_eq {n : Nat} {input : List Byte} {offset : Nat}
    (hlen : offset + n ≤ input.length) :
    readBigEndian n input offset =
      some (BitVec.ofNat (8 * n) (BigEndian.value (field input offset n)), offset + n) := by
  have hzero : (0 : BitVec (8 * n)).toNat < 256 ^ 0 := by simp
  have hread := readLoop_eq (by rw [Nat.zero_add]) hlen hzero
  simpa [readBigEndian, field] using hread

/-! ## Headers -/

/-- The frames that the codec carries. -/
structure Encodable (frame : Frame) : Prop where
  version : frame.version = protocolVersion
  known : isKnownMessageType frame.messageType.code = true
  size : frame.payload.length ≤ maxPayloadSize

def header (frame : Frame) : List Byte :=
  BigEndian.bytes 4 magic.toNat ++ BigEndian.bytes 2 frame.version.toNat ++
    BigEndian.bytes 2 frame.messageType.code.toNat ++ BigEndian.bytes 4 frame.flags.toNat ++
    BigEndian.bytes 8 frame.requestId.toNat ++ BigEndian.bytes 4 frame.payload.length ++
    BigEndian.bytes 8 frame.deviceGeneration.toNat

@[simp] theorem length_header (frame : Frame) : (header frame).length = headerSize := by
  simp [header, headerSize]

theorem encode_eq {frame : Frame} (h : Encodable frame) :
    encode frame = .ok (header frame ++ frame.payload) := by
  have hsize := h.size
  have hmax : maxPayloadSize = 1048576 := rfl
  have hlength : (BitVec.ofNat 32 frame.payload.length).toNat = frame.payload.length := by
    rw [BitVec.toNat_ofNat]
    exact Nat.mod_eq_of_lt (by omega)
  unfold encode
  rw [if_neg (not_not.mpr h.version), if_neg (by omega)]
  simp only [appendBigEndian_eq (show 0 < 2 by decide), appendBigEndian_eq (show 0 < 4 by decide),
    appendBigEndian_eq (show 0 < 8 by decide), List.nil_append, hlength]
  rfl

/-- A packet with a whole header is decoded from the fields as they stand. -/
theorem decode_eq {bytes : List Byte} (h : headerSize ≤ bytes.length) :
    decode bytes = some (decodeFields bytes 32
      (BitVec.ofNat 32 (BigEndian.value (field bytes 0 4)))
      (BitVec.ofNat 16 (BigEndian.value (field bytes 4 2)))
      (BitVec.ofNat 16 (BigEndian.value (field bytes 6 2)))
      (BitVec.ofNat 32 (BigEndian.value (field bytes 8 4)))
      (BitVec.ofNat 64 (BigEndian.value (field bytes 12 8)))
      (BitVec.ofNat 32 (BigEndian.value (field bytes 20 4)))
      (BitVec.ofNat 64 (BigEndian.value (field bytes 24 8)))) := by
  have hlen : 32 ≤ bytes.length := h
  unfold decode
  rw [if_neg (by omega)]
  simp only [Option.bind_eq_bind, Option.bind_some,
    readBigEndian_eq (show 0 + 4 ≤ bytes.length by omega),
    readBigEndian_eq (show 0 + 4 + 2 ≤ bytes.length by omega),
    readBigEndian_eq (show 0 + 4 + 2 + 2 ≤ bytes.length by omega),
    readBigEndian_eq (show 0 + 4 + 2 + 2 + 4 ≤ bytes.length by omega),
    readBigEndian_eq (show 0 + 4 + 2 + 2 + 4 + 8 ≤ bytes.length by omega),
    readBigEndian_eq (show 0 + 4 + 2 + 2 + 4 + 8 + 4 ≤ bytes.length by omega),
    readBigEndian_eq (show 0 + 4 + 2 + 2 + 4 + 8 + 4 + 8 ≤ bytes.length by omega)]
  rfl

theorem field_head {a b : List Byte} {n : Nat} (h : a.length = n) : field (a ++ b) 0 n = a := by
  subst h
  simp [field]

theorem field_skip {a b : List Byte} {offset n : Nat} (h : a.length ≤ offset) :
    field (a ++ b) offset n = field b (offset - a.length) n := by
  unfold field
  rw [List.drop_append, List.drop_eq_nil_of_le h, List.nil_append]

theorem length_field {bytes : List Byte} {offset n : Nat} (h : offset + n ≤ bytes.length) :
    (field bytes offset n).length = n := by
  rw [field, List.length_take, List.length_drop]
  omega

/-- Neighbouring fields make up one longer field. -/
theorem field_concat (bytes : List Byte) (offset n m : Nat) :
    field bytes offset n ++ field bytes (offset + n) m = field bytes offset (n + m) := by
  unfold field
  rw [List.take_add, List.drop_drop]

theorem ofNat_value_bytes {w n : Nat} (hw : w = 8 * n) (v : BitVec w) :
    BitVec.ofNat w (BigEndian.value (BigEndian.bytes n v.toNat)) = v := by
  have hlt : v.toNat < 256 ^ n := by
    calc v.toNat < 2 ^ w := v.isLt
      _ = 256 ^ n := by rw [hw, Nat.pow_mul]
  rw [BigEndian.value_bytes_of_lt hlt, BitVec.ofNat_toNat, BitVec.setWidth_eq]

theorem bytes_ofNat_field {w n : Nat} (hw : w = 8 * n) {bytes : List Byte} {offset : Nat}
    (h : offset + n ≤ bytes.length) :
    BigEndian.bytes n (BitVec.ofNat w (BigEndian.value (field bytes offset n))).toNat =
      field bytes offset n := by
  have hlt := BigEndian.value_lt (field bytes offset n)
  rw [length_field h] at hlt
  have hmod : BigEndian.value (field bytes offset n) % 2 ^ w =
      BigEndian.value (field bytes offset n) := by
    apply Nat.mod_eq_of_lt
    rw [hw, Nat.pow_mul]
    exact hlt
  have hbytes := BigEndian.bytes_value (field bytes offset n)
  rw [length_field h] at hbytes
  rw [BitVec.toNat_ofNat, hmod, hbytes]

/-! ## Both directions -/

theorem decode_header {frame : Frame} (h : Encodable frame) :
    decode (header frame ++ frame.payload) = some (.ok frame) := by
  have hsize := h.size
  have hmax : maxPayloadSize = 1048576 := rfl
  have hlength : (BitVec.ofNat 32 (BigEndian.value
      (BigEndian.bytes 4 frame.payload.length))).toNat = frame.payload.length := by
    rw [BigEndian.value_bytes_of_lt (by omega), BitVec.toNat_ofNat]
    exact Nat.mod_eq_of_lt (by omega)
  have hdrop : (header frame ++ frame.payload).drop 32 = frame.payload := by
    rw [List.drop_left' (by simp [headerSize])]
  have hlen : (header frame ++ frame.payload).length = headerSize + frame.payload.length := by
    simp
  rw [decode_eq (by rw [hlen]; omega)]
  -- the seven fields of the packet are the seven parts of the header
  simp (disch := simp) only [header, List.append_assoc, field_skip, field_head,
    BigEndian.length_bytes, Nat.reduceSub, Nat.sub_self]
  simp only [← List.append_assoc]
  rw [← header]
  simp only [ofNat_value_bytes (show 16 = 8 * 2 from rfl), ofNat_value_bytes (show 32 = 8 * 4 from rfl),
    ofNat_value_bytes (show 64 = 8 * 8 from rfl)]
  unfold decodeFields
  rw [if_neg (by simp), if_neg (not_not.mpr h.version), if_neg (by simp [h.known]),
    if_neg (by rw [hlength]; omega), if_neg (by rw [hlength, hlen]; simp), hdrop]

theorem encode_of_decode {bytes : List Byte} {frame : Frame}
    (h : decode bytes = some (.ok frame)) : Encodable frame ∧ encode frame = .ok bytes := by
  have hlen : headerSize ≤ bytes.length := by
    by_contra hshort
    unfold decode at h
    rw [if_pos (by omega)] at h
    simp at h
  have hlen' : 32 ≤ bytes.length := hlen
  rw [decode_eq hlen] at h
  unfold decodeFields at h
  split_ifs at h with hmagic hversion hknown hlarge hsize
  all_goals simp only [Option.some.injEq, reduceCtorEq, Except.ok.injEq] at h
  subst h
  simp only [not_not, Bool.not_eq_true, Bool.not_eq_false'] at hmagic hversion hknown hsize
  have hpayload : (bytes.drop 32).length =
      (BitVec.ofNat 32 (BigEndian.value (field bytes 20 4))).toNat := by
    rw [List.length_drop, hsize]
    simp [headerSize]
  have hencodable : Encodable
      { version := BitVec.ofNat 16 (BigEndian.value (field bytes 4 2))
        messageType := ⟨BitVec.ofNat 16 (BigEndian.value (field bytes 6 2))⟩
        flags := BitVec.ofNat 32 (BigEndian.value (field bytes 8 4))
        requestId := BitVec.ofNat 64 (BigEndian.value (field bytes 12 8))
        deviceGeneration := BitVec.ofNat 64 (BigEndian.value (field bytes 24 8))
        payload := bytes.drop 32 } := by
    refine ⟨hversion, by simpa using hknown, ?_⟩
    show (bytes.drop 32).length ≤ maxPayloadSize
    omega
  refine ⟨hencodable, ?_⟩
  rw [encode_eq hencodable, header]
  simp only [hpayload, ← hmagic]
  rw [bytes_ofNat_field rfl (by omega), bytes_ofNat_field rfl (by omega),
    bytes_ofNat_field rfl (by omega), bytes_ofNat_field rfl (by omega),
    bytes_ofNat_field rfl (by omega), bytes_ofNat_field rfl (by omega),
    bytes_ofNat_field rfl (by omega), field_concat, field_concat, field_concat, field_concat,
    field_concat, field_concat]
  simp [field]

/-- The packets that `decode` accepts, field by field. -/
structure WellFormed (bytes : List Byte) : Prop where
  header : headerSize ≤ bytes.length
  magic : BigEndian.value (field bytes 0 4) = magic.toNat
  version : BigEndian.value (field bytes 4 2) = protocolVersion.toNat
  known : 1 ≤ BigEndian.value (field bytes 6 2) ∧ BigEndian.value (field bytes 6 2) ≤ 16
  size : BigEndian.value (field bytes 20 4) ≤ maxPayloadSize
  length : bytes.length = headerSize + BigEndian.value (field bytes 20 4)

theorem value_field_lt {bytes : List Byte} {offset n : Nat} (h : offset + n ≤ bytes.length) :
    BigEndian.value (field bytes offset n) < 256 ^ n := by
  have hlt := BigEndian.value_lt (field bytes offset n)
  rwa [length_field h] at hlt

theorem decodeFields_accepts {bytes : List Byte} {offset : Nat} {magic' : BitVec 32}
    {version messageType : BitVec 16} {flags : BitVec 32} {requestId : BitVec 64}
    {payloadLength : BitVec 32} {deviceGeneration : BitVec 64} :
    (∃ frame, decodeFields bytes offset magic' version messageType flags requestId payloadLength
      deviceGeneration = .ok frame) ↔
    magic' = magic ∧ version = protocolVersion ∧ isKnownMessageType messageType = true ∧
      payloadLength.toNat ≤ maxPayloadSize ∧ bytes.length = headerSize + payloadLength.toNat := by
  unfold decodeFields
  split_ifs with hmagic hversion hknown hlarge hsize
  · simp [hmagic]
  · simp [hversion]
  · simpa using fun _ _ h => absurd h (by simpa using hknown)
  · simp only [exists_false, false_iff]
    omega
  · simp only [exists_false, false_iff]
    omega
  · simp only [Except.ok.injEq, exists_eq', true_iff]
    exact ⟨not_not.mp hmagic, not_not.mp hversion, by simpa using hknown, by omega, by omega⟩

theorem decode_accepts {bytes : List Byte} :
    (∃ frame, decode bytes = some (.ok frame)) ↔ WellFormed bytes := by
  by_cases hlen : headerSize ≤ bytes.length
  · have hlen' : 32 ≤ bytes.length := hlen
    have hmagic := value_field_lt (show 0 + 4 ≤ bytes.length by omega)
    have hversion := value_field_lt (show 4 + 2 ≤ bytes.length by omega)
    have hknown := value_field_lt (show 6 + 2 ≤ bytes.length by omega)
    have hsize := value_field_lt (show 20 + 4 ≤ bytes.length by omega)
    have hmod : ∀ {v n : Nat}, v < 256 ^ n → v % 2 ^ (8 * n) = v := fun h =>
      Nat.mod_eq_of_lt (by rwa [Nat.pow_mul])
    rw [decode_eq hlen]
    simp only [Option.some.injEq]
    rw [decodeFields_accepts]
    simp only [← BitVec.toNat_inj, BitVec.toNat_ofNat, isKnownMessageType, Bool.and_eq_true,
      decide_eq_true_eq, BitVec.le_def]
    rw [hmod (n := 4) hmagic, hmod (n := 2) hversion, hmod (n := 2) hknown, hmod (n := 4) hsize]
    constructor
    · rintro ⟨h1, h2, h3, h4, h5⟩
      exact ⟨hlen, h1, h2, h3, h4, h5⟩
    · intro h
      exact ⟨h.magic, h.version, h.known, h.size, h.length⟩
  · constructor
    · rintro ⟨frame, hframe⟩
      unfold decode at hframe
      rw [if_pos (by omega)] at hframe
      simp at hframe
    · intro h
      exact absurd h.header hlen

theorem decode_total (bytes : List Byte) : ∃ result, decode bytes = some result := by
  by_cases hlen : headerSize ≤ bytes.length
  · exact ⟨_, decode_eq hlen⟩
  · unfold decode
    rw [if_pos (by omega)]
    exact ⟨_, rfl⟩

theorem field_take {bytes : List Byte} {k offset n : Nat} (h : offset + n ≤ k) :
    field (bytes.take k) offset n = field bytes offset n := by
  unfold field
  rw [List.drop_take, List.take_take, Nat.min_eq_left (by omega)]

theorem field_extend {bytes extra : List Byte} {offset n : Nat} (h : offset + n ≤ bytes.length) :
    field (bytes ++ extra) offset n = field bytes offset n := by
  unfold field
  rw [List.drop_append_of_le_length (by omega),
    List.take_append_of_le_length (by rw [List.length_drop]; omega)]

/-- No proper start of an accepted packet is accepted. -/
theorem truncated_rejected {bytes : List Byte} (h : WellFormed bytes) {k : Nat}
    (hk : k < bytes.length) : ¬ WellFormed (bytes.take k) := by
  intro hshort
  have hheader := hshort.header
  have hlength := hshort.length
  have hwhole := h.length
  rw [List.length_take] at hheader hlength
  have hsize : headerSize = 32 := rfl
  rw [field_take (by omega)] at hlength
  omega

theorem extended_rejected {bytes : List Byte} (h : WellFormed bytes) {extra : List Byte}
    (hextra : extra ≠ []) : ¬ WellFormed (bytes ++ extra) := by
  intro hlong
  have hheader := h.header
  have hlength := hlong.length
  have hwhole := h.length
  have hpos := List.length_pos_iff.mpr hextra
  have hsize : headerSize = 32 := rfl
  rw [field_extend (by omega), List.length_append] at hlength
  omega

/-- Frames and accepted packets correspond one to one. No packet makes `decode` read past its
end, and it accepts exactly the packets whose header fields are right and whose length is the
one they announce. -/
theorem codec_bijective :
    (∀ frame, Encodable frame →
      ∃ bytes, encode frame = .ok bytes ∧ decode bytes = some (.ok frame)) ∧
    ∀ bytes, (∃ result, decode bytes = some result) ∧
      ((∃ frame, decode bytes = some (.ok frame)) ↔
        ∃ frame, Encodable frame ∧ encode frame = .ok bytes) ∧
      (∀ frame, decode bytes = some (.ok frame) → encode frame = .ok bytes) ∧
      ((∃ frame, decode bytes = some (.ok frame)) ↔ WellFormed bytes) ∧
      (WellFormed bytes → (∀ k < bytes.length, ¬ ∃ frame, decode (bytes.take k) = some (.ok frame)) ∧
        ∀ extra, extra ≠ [] → ¬ ∃ frame, decode (bytes ++ extra) = some (.ok frame)) := by
  constructor
  · intro frame h
    exact ⟨_, encode_eq h, decode_header h⟩
  · intro bytes
    refine ⟨decode_total bytes, ?_, fun frame h => (encode_of_decode h).2, decode_accepts, ?_⟩
    · constructor
      · rintro ⟨frame, h⟩
        exact ⟨frame, encode_of_decode h⟩
      · rintro ⟨frame, hencodable, h⟩
        rw [encode_eq hencodable] at h
        cases h
        exact ⟨frame, decode_header hencodable⟩
    · intro h
      simp only [decode_accepts]
      exact ⟨fun k hk => truncated_rejected h hk, fun extra hextra => extended_rejected h hextra⟩

/-- The frame of the codec test. -/
def sampleFrame : Frame where
  messageType := .applyConnections
  flags := 0x01020304
  requestId := 0x0102030405060708
  deviceGeneration := 42
  payload := [0x7B, 0x7D]

theorem codec_bijective_sampleFrame :
    Encodable sampleFrame ∧
    ∃ bytes, encode sampleFrame = .ok bytes ∧ decode bytes = some (.ok sampleFrame) :=
  have h : Encodable sampleFrame := ⟨rfl, rfl, by decide⟩
  ⟨h, codec_bijective.1 sampleFrame h⟩

example : (encode sampleFrame).map (·.take 8) = .ok [0x4F, 0x43, 0x53, 0x31, 0, 1, 0, 5] := by
  decide

end MiniOcs.Uds
