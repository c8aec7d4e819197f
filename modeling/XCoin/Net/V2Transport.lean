import XCoin.Net.Bip324
import XCoin.Primitives.Transaction

/-!
# The v2 transport

`V2Transport`: the receive and the send state machine of a BIP 324 connection and
the HX1 hybrid handshake (`ProcessHybridKey`, `ProcessHybridVersion`).  A function
that returns `false` in the source returns the state it leaves behind as an error,
since that state can still be asked (`GetInfo`, `GetHybridStatus`).

The v1 transport that a connection may fall back to is a parameter, and so are ECDH
and ML-KEM; each of their calls is made at most once for a connection, so that its
random choices are part of the connection's configuration.  Logging is left out.
`Assume` is not a check: it states what the callers guarantee.

Two lists are not in the source: `opened` has every packet that authenticated, with the
receive state that used it and the stage of its keys; `counted` is the history of the HX1
counters.
-/

namespace XCoin.Net

variable {type : Bytes} (kind : UInt8)

/-! ## Constants -/

/-- `EllSwiftPubKey::size()`. -/
def ellSwiftSize : ℕ := 64
/-- `MAX_GARBAGE_LEN`. -/
def maxGarbageLen : ℕ := 4095
/-- `V1_PREFIX_LEN`. -/
def v1PrefixLen : ℕ := 16
/-- `CMessageHeader::HEADER_SIZE`. -/
def v1HeaderSize : ℕ := 24
/-- `CMessageHeader::MESSAGE_TYPE_SIZE`. -/
def messageTypeSize : ℕ := 12
/-- `MAX_PROTOCOL_MESSAGE_LENGTH`. -/
def maxProtocolMessageLength : ℕ := 64 * 1000 * 1000

/-- `MAX_CONTENTS_LEN`. -/
def maxContentsLen : ℕ := 1 + messageTypeSize + min maxSize maxProtocolMessageLength

/-- `HYBRID_TAG`. -/
def hybridTag : Bytes := Bytes.ofAscii "xcoin-pq"
/-- `HYBRID_VERSION`. -/
def hybridVersion : UInt8 := 1
/-- `HYBRID_KIND_OFFER`. -/
def hybridKindOffer : UInt8 := 1
/-- `HYBRID_KIND_ACCEPT`. -/
def hybridKindAccept : UInt8 := 2
/-- `HYBRID_HEADER_LEN`. -/
def hybridHeaderLen : ℕ := 12
/-- `HYBRID_FIRST_PACKET_MAX_CONTENTS`. -/
def hybridFirstPacketMaxContents : ℕ := 4095

/-- `VERSION_CONTENTS`. -/
def versionContents : Bytes := []

/-- The text after the network magic in a v1 version message. -/
def v1VersionType : Bytes := Bytes.ofAscii "version" ++ [0, 0, 0, 0, 0]

/-! ## Messages -/

/-- `CSerializedNetMsg`. -/
structure NetMsg where
  type : Bytes
  data : Bytes
deriving DecidableEq, Repr

/-- `V2_MESSAGE_IDS`. -/
def v2MessageIds : List Bytes :=
  ["", "addr", "block", "blocktxn", "cmpctblock", "feefilter", "filteradd", "filterclear",
    "filterload", "getblocks", "getblocktxn", "getdata", "getheaders", "headers", "inv", "mempool",
    "merkleblock", "notfound", "ping", "pong", "sendcmpct", "tx", "getcfilters", "cfilter",
    "getcfheaders", "cfheaders", "getcfcheckpt", "cfcheckpt", "addrv2", "", "", "",
    ""].map Bytes.ofAscii

/-- `V2_MESSAGE_MAP`: the first short id from 1 on with this name. -/
def v2MessageMap (type : Bytes) : Option UInt8 :=
  ((v2MessageIds.drop 1).idxOf? type).map fun index => UInt8.ofNat (index + 1)

/-- The message type field of the long encoding, padded with zeroes. -/
def paddedType (type : Bytes) : Bytes :=
  (type ++ List.replicate messageTypeSize 0).take messageTypeSize

/-- The packet contents for a message. -/
def encodeContents (msg : NetMsg) : Bytes :=
  match v2MessageMap msg.type with
  | some id => id :: msg.data
  | none => 0 :: (paddedType msg.type ++ msg.data)

/-- The long encoding's type: characters up to the first zero, then zeroes only. -/
def readPaddedType (field : Bytes) : Option Bytes :=
  let type := field.takeWhile (· ≠ 0)
  if type.any fun byte => decide (byte < 0x20 ∨ 0x7f < byte) then none
  else if (field.drop type.length).any (· ≠ 0) then none
  else some type

/-- `GetMessageType`: the message type and the rest of the contents. -/
def getMessageType (contents : Bytes) : Option (Bytes × Bytes) :=
  match contents with
  | [] => none
  | firstByte :: rest =>
    if firstByte ≠ 0 then
      (v2MessageIds[firstByte.toNat]?).map fun type => (type, rest)
    else if rest.length < messageTypeSize then none
    else
      (readPaddedType (rest.take messageTypeSize)).map fun type =>
        (type, rest.drop messageTypeSize)

theorem getElem_of_v2MessageMap {id : UInt8} (hid : v2MessageMap type = some id) :
    id ≠ 0 ∧ v2MessageIds[id.toNat]? = some type := by
  obtain ⟨index, hindex, rfl⟩ := Option.map_eq_some_iff.mp hid
  obtain ⟨hlt, hget, -⟩ := List.idxOf?_eq_some_iff.mp hindex
  have hlength : (v2MessageIds.drop 1).length = 32 := by decide
  have hnat : (UInt8.ofNat (index + 1)).toNat = index + 1 := by
    rw [UInt8.toNat_ofNat']
    omega
  constructor
  · intro hzero
    have := congrArg UInt8.toNat hzero
    rw [hnat] at this
    simp at this
  · rw [hnat, Nat.add_comm, ← List.getElem?_drop, List.getElem?_eq_getElem hlt, hget]

theorem paddedType_eq (hlength : type.length ≤ messageTypeSize) :
    paddedType type = type ++ List.replicate (messageTypeSize - type.length) 0 := by
  rw [paddedType, List.take_append, List.take_of_length_le hlength, List.take_replicate,
    Nat.min_eq_left (Nat.sub_le _ _)]

theorem readPaddedType_paddedType (hlength : type.length ≤ messageTypeSize)
    (hchars : ∀ byte ∈ type, 0x20 ≤ byte ∧ byte ≤ 0x7f) :
    readPaddedType (paddedType type) = some type := by
  have hnonzero : ∀ byte ∈ type, decide (byte ≠ 0) = true := by
    intro byte hbyte
    have hlow := (hchars byte hbyte).1
    rw [decide_eq_true_iff]
    rintro rfl
    exact absurd hlow (by decide)
  have htake : (paddedType type).takeWhile (fun byte => decide (byte ≠ 0)) = type := by
    rw [paddedType_eq hlength, List.takeWhile_append_of_pos hnonzero]
    simp
  have hany : (type.any fun byte => decide (byte < 0x20 ∨ 0x7f < byte)) = false := by
    rw [List.any_eq_false]
    intro byte hbyte
    obtain ⟨hlow, hhigh⟩ := hchars byte hbyte
    simp only [decide_eq_true_eq, not_or, UInt8.not_lt]
    exact ⟨hlow, hhigh⟩
  rw [readPaddedType]
  simp only [htake, hany, Bool.false_eq_true, if_false]
  rw [paddedType_eq hlength, List.drop_left]
  simp

theorem getMessageType_encodeContents {msg : NetMsg} (hlength : msg.type.length ≤ messageTypeSize)
    (hchars : ∀ byte ∈ msg.type, 0x20 ≤ byte ∧ byte ≤ 0x7f) :
    getMessageType (encodeContents msg) = some (msg.type, msg.data) := by
  rw [encodeContents]
  cases hid : v2MessageMap msg.type with
  | some id =>
    obtain ⟨hnonzero, hget⟩ := getElem_of_v2MessageMap hid
    simp only [getMessageType, if_pos hnonzero, hget, Option.map_some]
  | none =>
    have hpadded : (paddedType msg.type).length = messageTypeSize := by
      rw [paddedType_eq hlength, List.length_append, List.length_replicate]
      omega
    have hlong : ¬(paddedType msg.type ++ msg.data).length < messageTypeSize := by
      rw [List.length_append]
      omega
    simp only [getMessageType, ne_eq, not_true_eq_false, if_false, if_neg hlong]
    rw [List.take_left' hpadded, List.drop_left' hpadded,
      readPaddedType_paddedType hlength hchars]
    rfl

/-! ## HX1 records -/

/-- `V2HybridOutcome`. -/
inductive HybridOutcome where
  | hybrid
  | classical
  | refused
  | badRecord
  | stage2Failed
  | localError
  | classicalRetry
deriving DecidableEq, Repr

/-- `EncodeHybridRecord`. -/
def encodeHybridRecord (body : Bytes) : Bytes :=
  hybridTag ++ [hybridVersion, kind] ++ Bytes.ofNatLE 2 body.length ++ body

/-- `HybridRecord`, with the body of a valid one. -/
inductive HybridRecord where
  | none
  | malformed
  | valid (body : Bytes)
deriving DecidableEq, Repr

/-- The body length of a record kind. -/
def hybridBodyLen : ℕ := if kind = hybridKindOffer then hx1EkLen else hx1CtLen

/-- `ClassifyHybridRecord`. -/
def classifyHybridRecord (contents : Bytes) (expectedKind : UInt8) : HybridRecord :=
  if contents.length < hybridTag.length + 1 ∨ contents.take hybridTag.length ≠ hybridTag then .none
  else if contents.getD hybridTag.length 0 ≠ hybridVersion then .none
  else if contents.length < hybridHeaderLen then .malformed
  else if contents.getD 9 0 ≠ expectedKind ∨
      Bytes.toNatLE ((contents.drop 10).take 2) ≠ hybridBodyLen expectedKind ∨
      contents.length < hybridHeaderLen + hybridBodyLen expectedKind then .malformed
  else .valid ((contents.drop hybridHeaderLen).take (hybridBodyLen expectedKind))

theorem length_encodeHybridRecord (body : Bytes) :
    (encodeHybridRecord kind body).length = hybridHeaderLen + body.length := by
  simp only [encodeHybridRecord, List.length_append, Bytes.length_ofNatLE, List.length_cons,
    List.length_nil]
  rfl

theorem classifyHybridRecord_encodeHybridRecord {kind : UInt8} {body : Bytes}
    (hbody : body.length = hybridBodyLen kind) :
    classifyHybridRecord (encodeHybridRecord kind body) kind = .valid body := by
  have hlength := length_encodeHybridRecord kind body
  have hfits : body.length < 256 ^ 2 := by
    rw [hbody, hybridBodyLen]
    split <;> decide
  have hrecord : encodeHybridRecord kind body =
      (hybridTag ++ [hybridVersion, kind] ++ Bytes.ofNatLE 2 body.length) ++ body := rfl
  have hheader : (hybridTag ++ [hybridVersion, kind] ++ Bytes.ofNatLE 2 body.length).length =
      hybridHeaderLen := by simp; rfl
  have htag : (encodeHybridRecord kind body).take hybridTag.length = hybridTag := by
    simp [encodeHybridRecord]
  have hversion : (encodeHybridRecord kind body).getD hybridTag.length 0 = hybridVersion := by
    simp [encodeHybridRecord]
  have hkind : (encodeHybridRecord kind body).getD 9 0 = kind := rfl
  have hlen : Bytes.toNatLE (((encodeHybridRecord kind body).drop 10).take 2) = body.length := by
    have hdrop : (encodeHybridRecord kind body).drop 10 = Bytes.ofNatLE 2 body.length ++ body := rfl
    rw [hdrop, List.take_left' (Bytes.length_ofNatLE ..), Bytes.toNatLE_ofNatLE hfits]
  have hrest : (encodeHybridRecord kind body).drop hybridHeaderLen = body := by
    rw [hrecord, ← hheader, List.drop_left]
  have hshort : hybridTag.length + 1 ≤ hybridHeaderLen := by decide
  rw [classifyHybridRecord, if_neg, if_neg, if_neg, if_neg, hrest, ← hbody, List.take_length]
  · simp only [hkind, hlen, hbody, hlength, ne_eq, not_true_eq_false, false_or, lt_irrefl,
      not_false_eq_true]
  · omega
  · exact not_not.mpr hversion
  · rw [not_or]
    exact ⟨by omega, not_not.mpr htag⟩

/-! ## The key encapsulation -/

/-- `mlkem768::Error`. -/
inductive KemError where
  | invalidEncapsKey
  | invalidDecapsKey
  | rngFailure
  | libraryFailure
deriving DecidableEq, Repr

/-- `mlkem768::KeyPair`. -/
structure KeyPair where
  ek : Bytes
  dk : Bytes
  length_ek : ek.length = hx1EkLen

/-- `mlkem768::Encapsulation`. -/
structure Encapsulation where
  ct : Bytes
  sharedSecret : Bytes
  length_ct : ct.length = hx1CtLen
  length_sharedSecret : sharedSecret.length = hx1SharedSecretLen

/-- `V2HybridKem`, with the random choices of this connection. -/
structure HybridKem where
  keygen : Except KemError KeyPair
  checkEncapsKey : Bytes → Bool
  encaps : Bytes → Except KemError Encapsulation
  decaps : Bytes → Bytes → Except KemError Bytes

/-- A key encapsulation without randomness. -/
def clearKem : HybridKem where
  keygen := .ok ⟨List.replicate hx1EkLen 7, [], List.length_replicate⟩
  checkEncapsKey _ := true
  encaps _ := .ok
    { ct := List.replicate hx1CtLen 5
      sharedSecret := List.replicate hx1SharedSecretLen 3
      length_ct := List.length_replicate
      length_sharedSecret := List.length_replicate }
  decaps _ _ := .ok (List.replicate hx1SharedSecretLen 3)

/-! ## The transport -/

/-- `RecvState`. -/
inductive RecvState where
  | keyMaybeV1
  | key
  | garbGarbterm
  | version
  | app
  | appReady
  | v1
deriving DecidableEq, Repr

/-- `SendState`. -/
inductive SendState where
  | maybeV1
  | awaitingKey
  | awaitingVersion
  | ready
  | v1
deriving DecidableEq, Repr

/-- `HybridState`. -/
inductive HybridState where
  | pending
  | classical
  | unconfirmed
  | confirmed
  | failed
deriving DecidableEq, Repr

/-- `TransportProtocolType`. -/
inductive TransportProtocolType where
  | detecting
  | v1
  | v2
deriving DecidableEq, Repr

/-- `Transport::Info`. -/
structure TransportInfo where
  transportType : TransportProtocolType
  sessionId : Option Bytes
  hybrid : Bool
deriving DecidableEq, Repr

/-- A received message, or a packet whose message type is invalid. -/
structure ReceivedMessage where
  message : Option NetMsg
  rawMessageSize : ℕ
deriving DecidableEq, Repr

/-- The v1 transport to fall back to, with its state. -/
structure V1Fallback (V1 : Type) where
  start : V1
  receivedBytes : V1 → Bytes → Except (V1 × Bytes) (V1 × Bytes)
  receivedMessageComplete : V1 → Bool
  getReceivedMessage : V1 → ReceivedMessage × V1
  setMessageToSend : V1 → NetMsg → Option V1
  getBytesToSend : V1 → Bool → Bytes × Bool × Bytes
  markBytesSent : V1 → ℕ → V1
  getInfo : V1 → TransportInfo

/-- What a transport is constructed with. -/
structure TransportConfig (V1 : Type) where
  crypto : TransportCrypto
  /-- `Params().MessageStart()` -/
  messageStart : Bytes
  initiating : Bool
  hybridMode : HybridMode
  hybridKem : HybridKem
  ourPubKey : Bytes
  /-- `ComputeBIP324ECDHSecret` with our key, for the other side's public key -/
  ecdhSecret : Bytes → Bytes
  garbage : Bytes
  v1 : V1Fallback V1
  length_messageStart : messageStart.length = 4
  length_ourPubKey : ourPubKey.length = ellSwiftSize
  length_garbage : garbage.length ≤ maxGarbageLen

/-- A v1 transport that takes no bytes. -/
def closedV1 : V1Fallback Unit where
  start := ()
  receivedBytes _ bytes := .error ((), bytes)
  receivedMessageComplete _ := false
  getReceivedMessage _ := (⟨none, 0⟩, ())
  setMessageToSend _ _ := none
  getBytesToSend _ _ := ([], false, [])
  markBytesSent _ _ := ()
  getInfo _ := ⟨.v1, none, false⟩

/-- A transport with readable parts: its key is 64 times `side`, its garbage two bytes. -/
def clearConfig (initiating : Bool) (hybridMode : HybridMode) (side : UInt8) :
    TransportConfig Unit where
  crypto := clearCrypto
  messageStart := [1, 2, 3, 4]
  initiating := initiating
  hybridMode := hybridMode
  hybridKem := clearKem
  ourPubKey := List.replicate ellSwiftSize side
  ecdhSecret _ := List.replicate 32 9
  garbage := [side, side]
  v1 := closedV1
  length_messageStart := rfl
  length_ourPubKey := List.length_replicate
  length_garbage := show 2 ≤ maxGarbageLen by decide

/-- A packet that authenticated: the receive state it was used in, and whether it was under stage-2
keys. -/
structure OpenedPacket where
  recvState : RecvState
  stage2 : Bool
deriving DecidableEq, Repr

/-- The state of a transport. -/
structure V2Transport (V1 : Type) where
  cipher : Bip324Cipher
  v1Fallback : V1
  recvLen : ℕ
  recvBuffer : Bytes
  recvAad : Bytes
  recvDecodeBuffer : Bytes
  recvState : RecvState
  hybridState : HybridState
  hybridTagSeen : Bool
  hybridFailure : Option HybridOutcome
  hybridKeyPair : Option KeyPair
  sendBuffer : Bytes
  sendPos : ℕ
  sendGarbage : Bytes
  sendType : Bytes
  sendState : SendState
  sentV1HeaderWorth : Bool
  hybridFirstSend : Bool
  /-- the outcomes that were counted, newest first -/
  counted : List HybridOutcome
  /-- the packets that authenticated, newest first -/
  opened : List OpenedPacket

variable {V1 : Type} (config : TransportConfig V1) (t : V2Transport V1) (crypto : TransportCrypto)

namespace V2Transport

/-! ## Sending parts of the handshake -/

/-- `StartSendingHandshake`: our key and the garbage. -/
def startSendingHandshake : V2Transport V1 :=
  { t with sendBuffer := t.cipher.ourPubKey ++ t.sendGarbage }

/-- Not a v1 connection: expect a key, and send ours. -/
def startV2 : V2Transport V1 :=
  { t with recvState := .key, sendState := .awaitingKey }.startSendingHandshake

/-- The constructor; an initiator starts sending at once. -/
def new : V2Transport V1 :=
  let t : V2Transport V1 :=
    { cipher := .new config.ourPubKey
      v1Fallback := config.v1.start
      recvLen := 0
      recvBuffer := []
      recvAad := []
      recvDecodeBuffer := []
      recvState := if config.initiating then .key else .keyMaybeV1
      hybridState := .pending
      hybridTagSeen := false
      hybridFailure := none
      hybridKeyPair := none
      sendBuffer := []
      sendPos := 0
      sendGarbage := config.garbage
      sendType := []
      sendState := if config.initiating then .awaitingKey else .maybeV1
      sentV1HeaderWorth := false
      hybridFirstSend := false
      counted := []
      opened := [] }
  if config.initiating then t.startSendingHandshake else t

/-- `CountHybrid`. -/
def countHybrid (outcome : HybridOutcome) (t : V2Transport V1) : V2Transport V1 :=
  { t with counted := outcome :: t.counted }

/-- `HybridFail`. -/
def hybridFail (outcome : HybridOutcome) (t : V2Transport V1) : V2Transport V1 :=
  countHybrid outcome
    { t with
      hybridState := .failed
      hybridFailure := some outcome
      hybridKeyPair := none
      cipher := t.cipher.discardStage2Secret }

/-- Append the garbage terminator to the send buffer. -/
def appendTerminator : V2Transport V1 :=
  { t with sendBuffer := t.sendBuffer ++ t.cipher.sendGarbageTerminator }

/-- The terminator goes out; our version packet may have to wait for the other side's. -/
def awaitVersion : V2Transport V1 :=
  { t with sendState := .awaitingVersion }.appendTerminator

/-- Append a packet to the send buffer. -/
def sendPacket (contents aad : Bytes) (ignore : Bool) (t : V2Transport V1) : V2Transport V1 :=
  { t with
    sendBuffer := t.sendBuffer ++ t.cipher.encrypted crypto contents aad ignore
    cipher := t.cipher.afterEncrypt }

/-- Append our version packet, with the sent garbage as associated data; the garbage is not
needed any more. -/
def sendVersion (contents : Bytes) (t : V2Transport V1) : V2Transport V1 :=
  { t.sendPacket crypto contents t.sendGarbage false with sendGarbage := [] }

/-- The terminator and an empty version packet go out, and messages may follow. -/
def sendEmptyVersion (t : V2Transport V1) : V2Transport V1 :=
  { t with sendState := .ready }.appendTerminator.sendVersion crypto versionContents

/-- The responder's version packet offers its encapsulation key. -/
def sendOffer (keyPair : KeyPair) (t : V2Transport V1) : V2Transport V1 :=
  { t with hybridKeyPair := some keyPair }.awaitVersion.sendVersion crypto
    (encodeHybridRecord hybridKindOffer keyPair.ek)

end V2Transport

open V2Transport

/-! ## Receiving the key -/

/-- The beginning of a v1 connection. -/
def v1Prefix : Bytes := config.messageStart ++ v1VersionType

/-- Fall back to v1: the received bytes go to the v1 transport. -/
def fallBackToV1 : V2Transport V1 :=
  { t with
    v1Fallback :=
      match config.v1.receivedBytes t.v1Fallback t.recvBuffer with
      | .ok (v1, _) => v1
      | .error (v1, _) => v1
    recvState := .v1
    sendState := .v1
    recvBuffer := []
    sendBuffer := [] }

/-- `ProcessReceivedMaybeV1Bytes`. -/
def processReceivedMaybeV1Bytes : Except (V2Transport V1) (V2Transport V1) :=
  if t.recvBuffer ≠ (v1Prefix config).take t.recvBuffer.length then
    .ok t.startV2
  else if t.recvBuffer.length = v1PrefixLen then
    if config.hybridMode = .require then .error (t.countHybrid .refused)
    else .ok (fallBackToV1 config t)
  else .ok t

/-- The other side's key is complete: set up the ciphers and expect its garbage. -/
def initializeCipher : V2Transport V1 :=
  { t with
    cipher := t.cipher.initializeCiphers config.crypto config.messageStart
      (config.ecdhSecret t.recvBuffer) t.recvBuffer config.initiating false config.hybridMode
    recvState := .garbGarbterm
    recvBuffer := [] }

/-- `ProcessHybridKey`. -/
def processHybridKey : Except (V2Transport V1) (V2Transport V1) :=
  if config.initiating then .ok t.awaitVersion
  else
    match config.hybridKem.keygen with
    | .error _ => .error (t.hybridFail .localError)
    | .ok keyPair => .ok (t.sendOffer config.crypto keyPair)

/-- A responder recognises a v1 peer of another network by the text after the magic. -/
def looksLikeWrongNetwork : Prop :=
  config.initiating = false ∧ v1PrefixLen ≤ t.recvBuffer.length ∧
    (t.recvBuffer.drop 4).take v1VersionType.length = v1VersionType

instance : Decidable (looksLikeWrongNetwork config t) := by
  unfold looksLikeWrongNetwork
  infer_instance

/-- `ProcessReceivedKeyBytes`. -/
def processReceivedKeyBytes : Except (V2Transport V1) (V2Transport V1) :=
  if looksLikeWrongNetwork config t then .error t
  else if t.recvBuffer.length = ellSwiftSize then
    if config.hybridMode ≠ .off then processHybridKey config (initializeCipher config t)
    else .ok ((initializeCipher config t).sendEmptyVersion config.crypto)
  else .ok t

/-- `ProcessReceivedGarbageBytes`. -/
def processReceivedGarbageBytes : Except (V2Transport V1) (V2Transport V1) :=
  if t.recvBuffer.length < garbageTerminatorLen then .ok t
  else if t.recvBuffer.drop (t.recvBuffer.length - garbageTerminatorLen) =
      t.cipher.recvGarbageTerminator then
    .ok { t with
      recvAad := t.recvBuffer.take (t.recvBuffer.length - garbageTerminatorLen)
      recvBuffer := []
      recvState := .version }
  else if t.recvBuffer.length = maxGarbageLen + garbageTerminatorLen then .error t
  else .ok t

/-! ## The hybrid version packet -/

/-- The session stays classical; the initiator's version packet is still to be sent. -/
def declineHybrid : V2Transport V1 :=
  let declined := { t with
    hybridState := .classical
    hybridKeyPair := none
    cipher := t.cipher.discardStage2Secret }
  { if config.initiating then declined.sendVersion config.crypto versionContents else declined with
    sendState := .ready }.countHybrid .classical

/-- No HX1 record: the session stays classical, or is refused. -/
def stayClassical : Except (V2Transport V1) (V2Transport V1) :=
  if config.hybridMode = .require then .error (t.hybridFail .refused)
  else .ok (declineHybrid config t)

/-- The initiator's version packet, sealed before the switch, is the last one under stage-1 keys. -/
def answerOffer (accept : Bytes) (switched : Bip324Cipher) (t : V2Transport V1) : V2Transport V1 :=
  { t with
    cipher := switched
    sendBuffer := t.sendBuffer ++ t.cipher.encrypted crypto accept t.sendGarbage false
    sendGarbage := []
    hybridFirstSend := true
    hybridState := .unconfirmed
    sendState := .ready }

/-- The initiator takes the offer. -/
def acceptOffer (ek : Bytes) (t : V2Transport V1) : Except (V2Transport V1) (V2Transport V1) :=
  if config.hybridKem.checkEncapsKey ek = false then .error (t.hybridFail .badRecord)
  else
    match config.hybridKem.encaps ek with
    | .error _ => .error (t.hybridFail .localError)
    | .ok encapsulation =>
      match t.cipher.afterEncrypt.switchToStage2 config.crypto encapsulation.sharedSecret
          encapsulation.ct ek with
      | none => .error ({ t with cipher := t.cipher.afterEncrypt }.hybridFail .localError)
      | some switched =>
        .ok (answerOffer config.crypto (encodeHybridRecord hybridKindAccept encapsulation.ct)
          switched t)

/-- The responder has switched, and confirms with an empty decoy. -/
def confirmSwitch (switched : Bip324Cipher) (t : V2Transport V1) : V2Transport V1 :=
  { { t with cipher := switched, hybridKeyPair := none }.sendPacket crypto [] [] true with
    hybridState := .unconfirmed
    sendState := .ready }

/-- The responder takes the ciphertext. -/
def takeAccept (ct : Bytes) (t : V2Transport V1) : Except (V2Transport V1) (V2Transport V1) :=
  match t.hybridKeyPair with
  | none => .error (t.hybridFail .localError)
  | some keyPair =>
    match config.hybridKem.decaps keyPair.dk ct with
    | .error _ => .error (t.hybridFail .localError)
    | .ok kemSecret =>
      match t.cipher.switchToStage2 config.crypto kemSecret ct keyPair.ek with
      | none => .error ({ t with hybridKeyPair := none }.hybridFail .localError)
      | some switched => .ok (confirmSwitch config.crypto switched t)

/-- The record kind that a side expects in the version packet. -/
def expectedKind (initiating : Bool) : UInt8 :=
  if initiating then hybridKindOffer else hybridKindAccept

/-- `ProcessHybridVersion`, on the contents in the decode buffer. -/
def processHybridVersion : Except (V2Transport V1) (V2Transport V1) :=
  match classifyHybridRecord t.recvDecodeBuffer (expectedKind config.initiating) with
  | .none => stayClassical config { t with hybridTagSeen := false }
  | .malformed => .error ({ t with hybridTagSeen := true }.hybridFail .badRecord)
  | .valid body =>
    if config.initiating then acceptOffer config body { t with hybridTagSeen := true }
    else takeAccept config body { t with hybridTagSeen := true }

section Equations

variable {config : TransportConfig V1} {t : V2Transport V1} {body ek ct : Bytes}

theorem processHybridVersion_of_none
    (hrecord : classifyHybridRecord t.recvDecodeBuffer (expectedKind config.initiating) = .none) :
    processHybridVersion config t = stayClassical config { t with hybridTagSeen := false } := by
  rw [processHybridVersion, hrecord]

theorem processHybridVersion_of_valid
    (hrecord : classifyHybridRecord t.recvDecodeBuffer (expectedKind config.initiating) =
      .valid body) :
    processHybridVersion config t =
      if config.initiating then acceptOffer config body { t with hybridTagSeen := true }
      else takeAccept config body { t with hybridTagSeen := true } := by
  rw [processHybridVersion, hrecord]

theorem acceptOffer_eq_ok {encapsulation : Encapsulation} {switched : Bip324Cipher}
    (hcheck : config.hybridKem.checkEncapsKey ek = true)
    (hencaps : config.hybridKem.encaps ek = .ok encapsulation)
    (hswitch : t.cipher.afterEncrypt.switchToStage2 config.crypto encapsulation.sharedSecret
      encapsulation.ct ek = some switched) :
    acceptOffer config ek t =
      .ok (answerOffer config.crypto (encodeHybridRecord hybridKindAccept encapsulation.ct)
        switched t) := by
  simp only [acceptOffer, hcheck, hencaps, hswitch, Bool.true_eq_false, if_false]

theorem takeAccept_eq_ok {keyPair : KeyPair} {kemSecret : Bytes} {switched : Bip324Cipher}
    (hkeyPair : t.hybridKeyPair = some keyPair)
    (hdecaps : config.hybridKem.decaps keyPair.dk ct = .ok kemSecret)
    (hswitch : t.cipher.switchToStage2 config.crypto kemSecret ct keyPair.ek = some switched) :
    takeAccept config ct t = .ok (confirmSwitch config.crypto switched t) := by
  simp only [takeAccept, hkeyPair, hdecaps, hswitch]

end Equations

/-! ## Packets -/

/-- HX1 is on, both directions use stage-2 keys, and no packet of the peer has confirmed them. -/
def awaitsConfirmation : Prop :=
  config.hybridMode ≠ .off ∧ t.hybridState = .unconfirmed

instance : Decidable (awaitsConfirmation config t) := inferInstanceAs (Decidable (_ ∧ _))

/-- A failure of a packet that should have confirmed the stage-2 keys. -/
def failUnconfirmed : V2Transport V1 :=
  if awaitsConfirmation config t then t.hybridFail .stage2Failed else t

/-- The length descriptor is complete. -/
def decryptLength : V2Transport V1 :=
  { t with
    recvLen := t.cipher.decryptedLength config.crypto t.recvBuffer
    cipher := t.cipher.afterDecryptLength }

/-- The limits on a packet's length. -/
def checkLength : Except (V2Transport V1) (V2Transport V1) :=
  if awaitsConfirmation config t ∧ hybridFirstPacketMaxContents < t.recvLen then
    .error (t.hybridFail .stage2Failed)
  else if maxContentsLen < t.recvLen then .error t
  else .ok t

/-- A packet authenticated; the first one under stage-2 keys confirms them. -/
def openPacket (contents : Bytes) (t : V2Transport V1) : V2Transport V1 :=
  { t with
    cipher := t.cipher.afterDecrypt
    recvDecodeBuffer := contents
    recvAad := []
    hybridState := if awaitsConfirmation config t then .confirmed else t.hybridState
    counted := if awaitsConfirmation config t then .hybrid :: t.counted else t.counted
    opened := ⟨t.recvState, t.cipher.stage2⟩ :: t.opened }

/-- What the receive state makes of a packet that is not a decoy. -/
def usePacket : Except (V2Transport V1) (V2Transport V1) :=
  match t.recvState with
  | .version =>
    if config.hybridMode ≠ .off then
      (processHybridVersion config t).map fun t => { t with recvState := .app }
    else .ok { t with recvState := .app }
  | .app => .ok { t with recvState := .appReady }
  | _ => .ok t

theorem usePacket_of_off {config : TransportConfig V1} {t : V2Transport V1}
    (hrecv : t.recvState = .version) (hmode : config.hybridMode = .off) :
    usePacket config t = .ok { t with recvState := .app } := by
  simp only [usePacket, hrecv, hmode, ne_eq, not_true_eq_false, if_false]

theorem usePacket_of_hybrid {config : TransportConfig V1} {t : V2Transport V1}
    (hrecv : t.recvState = .version) (hmode : config.hybridMode ≠ .off) :
    usePacket config t =
      (processHybridVersion config t).map fun t => { t with recvState := .app } := by
  simp only [usePacket, hrecv, if_pos hmode]

theorem usePacket_of_app {config : TransportConfig V1} {t : V2Transport V1}
    (hrecv : t.recvState = .app) : usePacket config t = .ok { t with recvState := .appReady } := by
  simp only [usePacket, hrecv]

/-- Wipe the buffers for the next packet. -/
def wipePacket : V2Transport V1 :=
  { t with
    recvBuffer := []
    recvDecodeBuffer := if t.recvState = .appReady then t.recvDecodeBuffer else [] }

/-- A complete packet is in the receive buffer. -/
def processPacket : Except (V2Transport V1) (V2Transport V1) :=
  match t.cipher.decrypted config.crypto (t.recvBuffer.drop lengthLen) t.recvAad with
  | none => .error (failUnconfirmed config { t with cipher := t.cipher.afterDecrypt })
  | some (ignore, contents) =>
    if ignore then .ok (wipePacket (openPacket config contents t))
    else (usePacket config (openPacket config contents t)).map wipePacket

theorem processPacket_of_decrypted {config : TransportConfig V1} {t : V2Transport V1}
    {ignore : Bool} {contents : Bytes}
    (hdecrypted : t.cipher.decrypted config.crypto (t.recvBuffer.drop lengthLen) t.recvAad =
      some (ignore, contents)) :
    processPacket config t =
      if ignore then .ok (wipePacket (openPacket config contents t))
      else (usePacket config (openPacket config contents t)).map wipePacket := by
  rw [processPacket, hdecrypted]

/-- `ProcessReceivedPacketBytes`. -/
def processReceivedPacketBytes : Except (V2Transport V1) (V2Transport V1) :=
  if t.recvBuffer.length = lengthLen then checkLength config (decryptLength config t)
  else if lengthLen < t.recvBuffer.length ∧ t.recvBuffer.length = t.recvLen + expansion then
    processPacket config t
  else .ok t

/-! ## The receive loop -/

/-- `GetMaxBytesToProcess`. -/
def getMaxBytesToProcess : ℕ :=
  match t.recvState with
  | .keyMaybeV1 => v1PrefixLen - t.recvBuffer.length
  | .key => ellSwiftSize - t.recvBuffer.length
  | .garbGarbterm => 1
  | .version | .app =>
    if t.recvBuffer.length < lengthLen then lengthLen - t.recvBuffer.length
    else expansion + t.recvLen - t.recvBuffer.length
  | .appReady | .v1 => 0

/-- Append received bytes to the receive buffer. -/
def appendReceived (bytes : Bytes) (t : V2Transport V1) : V2Transport V1 :=
  { t with recvBuffer := t.recvBuffer ++ bytes }

/-- Process what the receive buffer holds, by the receive state. -/
def processReceived : Except (V2Transport V1) (V2Transport V1) :=
  match t.recvState with
  | .keyMaybeV1 => processReceivedMaybeV1Bytes config t
  | .key => processReceivedKeyBytes config t
  | .garbGarbterm => processReceivedGarbageBytes t
  | .version | .app => processReceivedPacketBytes config t
  | .appReady | .v1 => .ok t

/-- The loop of `ReceivedBytes`; every round takes at least one byte, so that the number of bytes
is enough fuel.  Both outcomes carry the bytes that were not consumed. -/
def receiveLoop (config : TransportConfig V1) : ℕ → V2Transport V1 → Bytes →
    Except (V2Transport V1 × Bytes) (V2Transport V1 × Bytes)
  | 0, t, bytes => .ok (t, bytes)
  | fuel + 1, t, bytes =>
    if bytes = [] ∨ t.recvState = .appReady ∨ t.recvState = .v1 then .ok (t, bytes)
    else
      match processReceived config (appendReceived (bytes.take (getMaxBytesToProcess t)) t) with
      | .error t' => .error (t', bytes.drop (getMaxBytesToProcess t))
      | .ok t' => receiveLoop config fuel t' (bytes.drop (getMaxBytesToProcess t))

/-! ## The transport interface -/

/-- `ReceivedBytes`. -/
def receivedBytes (bytes : Bytes) : Except (V2Transport V1 × Bytes) (V2Transport V1 × Bytes) :=
  if t.recvState = .v1 then
    match config.v1.receivedBytes t.v1Fallback bytes with
    | .error (v1, rest) => .error ({ t with v1Fallback := v1 }, rest)
    | .ok (v1, rest) => .ok ({ t with v1Fallback := v1 }, rest)
  else receiveLoop config bytes.length t bytes

/-- `ReceivedMessageComplete`. -/
def receivedMessageComplete : Bool :=
  if t.recvState = .v1 then config.v1.receivedMessageComplete t.v1Fallback
  else decide (t.recvState = .appReady)

/-- `GetReceivedMessage`. -/
def getReceivedMessage : ReceivedMessage × V2Transport V1 :=
  if t.recvState = .v1 then
    ((config.v1.getReceivedMessage t.v1Fallback).1,
      { t with v1Fallback := (config.v1.getReceivedMessage t.v1Fallback).2 })
  else
    ({ message := (getMessageType t.recvDecodeBuffer).map fun parsed => ⟨parsed.1, parsed.2⟩
       rawMessageSize := t.recvDecodeBuffer.length + expansion },
      { t with recvDecodeBuffer := [], recvState := .app })

/-- The initiator's first stage-2 packet must be small, so an empty decoy goes before a long one. -/
def sendFirstDecoy (contents : Bytes) (t : V2Transport V1) : V2Transport V1 :=
  if config.hybridMode ≠ .off ∧ t.hybridFirstSend = true then
    if hybridFirstPacketMaxContents < contents.length then
      { t with hybridFirstSend := false }.sendPacket config.crypto [] [] true
    else { t with hybridFirstSend := false }
  else t

/-- `SetMessageToSend`; `none` when no message can be set now. -/
def setMessageToSend (msg : NetMsg) (t : V2Transport V1) : Option (V2Transport V1) :=
  if t.sendState = .v1 then
    (config.v1.setMessageToSend t.v1Fallback msg).map fun v1 => { t with v1Fallback := v1 }
  else if t.sendState = .ready ∧ t.sendBuffer = [] then
    some { (sendFirstDecoy config (encodeContents msg) t).sendPacket config.crypto
        (encodeContents msg) [] false with sendType := msg.type }
  else none

/-- `GetBytesToSend`: the bytes, whether more will follow them, and their message type. -/
def getBytesToSend (haveNextMessage : Bool) (t : V2Transport V1) : Bytes × Bool × Bytes :=
  if t.sendState = .v1 then config.v1.getBytesToSend t.v1Fallback haveNextMessage
  else
    (t.sendBuffer.drop t.sendPos, haveNextMessage && decide (t.sendState = .ready), t.sendType)

/-- `MarkBytesSent`. -/
def markBytesSent (bytesSent : ℕ) (t : V2Transport V1) : V2Transport V1 :=
  if t.sendState = .v1 then
    { t with v1Fallback := config.v1.markBytesSent t.v1Fallback bytesSent }
  else if t.sendPos + bytesSent = t.sendBuffer.length then
    { t with
      sendPos := 0
      sendBuffer := []
      sentV1HeaderWorth := t.sentV1HeaderWorth || decide (v1HeaderSize ≤ t.sendPos + bytesSent) }
  else
    { t with
      sendPos := t.sendPos + bytesSent
      sentV1HeaderWorth := t.sentV1HeaderWorth || decide (v1HeaderSize ≤ t.sendPos + bytesSent) }

/-- `V1ReconnectCondition`. -/
def v1ReconnectCondition : Bool :=
  config.initiating && decide (t.recvState = .key) && t.recvBuffer.isEmpty && t.sentV1HeaderWorth

/-- `ShouldReconnectV1`. -/
def shouldReconnectV1 : Bool :=
  decide (config.hybridMode ≠ .require) && v1ReconnectCondition config t

/-- The session is not established before HX1 is declined or confirmed. -/
def hybridPending : Prop :=
  config.hybridMode ≠ .off ∧ t.hybridState ≠ .classical ∧ t.hybridState ≠ .confirmed

instance : Decidable (hybridPending config t) := inferInstanceAs (Decidable (_ ∧ _))

/-- `GetInfo`. -/
def getInfo : TransportInfo :=
  if t.recvState = .v1 then config.v1.getInfo t.v1Fallback
  else if (t.recvState = .app ∨ t.recvState = .appReady) ∧ ¬hybridPending config t then
    { transportType := .v2
      sessionId := some t.cipher.sessionId
      hybrid := decide (t.hybridState = .confirmed) }
  else
    { transportType := .detecting
      sessionId := none
      hybrid := false }

/-- `Transport::HybridStatus`. -/
structure HybridStatus where
  unconfirmed : Bool := false
  retryClassical : Bool := false
  failure : Option HybridOutcome := none
  v1Refused : Bool := false
deriving DecidableEq, Repr

/-- `GetHybridStatus`. -/
def getHybridStatus : HybridStatus :=
  if config.hybridMode = .off then {}
  else
    { unconfirmed := decide (t.hybridState = .unconfirmed)
      retryClassical :=
        config.initiating && decide (config.hybridMode = .prefer) && t.hybridTagSeen &&
          decide (t.hybridState ≠ .confirmed) && decide (t.hybridFailure ≠ some .localError)
      failure := t.hybridFailure
      v1Refused := decide (config.hybridMode = .require) && v1ReconnectCondition config t }

/-- A packet of the peer has authenticated under stage-2 keys. -/
def stage2Authenticated : Prop := ∃ packet ∈ t.opened, packet.stage2 = true

instance : Decidable (stage2Authenticated t) :=
  inferInstanceAs (Decidable (∃ packet ∈ t.opened, packet.stage2 = true))

theorem stage2Authenticated_openPacket {config : TransportConfig V1} {contents : Bytes}
    {t : V2Transport V1} :
    stage2Authenticated (openPacket config contents t) ↔
      t.cipher.stage2 = true ∨ stage2Authenticated t := by
  simp only [stage2Authenticated, openPacket, List.exists_mem_cons_iff]

end XCoin.Net
