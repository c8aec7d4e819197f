import XCoin.Net.ReceiveSteps

/-!
# Rounds of the receive loop, byte by byte

The bytes of the peer reach `ReceivedBytes` in chunks, and `CNode::ReceiveMsgBytes` takes
every message as soon as it is complete (`feedAll`).  Here one round of the receive loop is
compared with the same bytes one at a time (`feedBytes`).

A round of the receive loop takes at most `getMaxBytesToProcess` bytes, and looks at its
receive buffer once it has them.  One byte at a time it looks at every length, but until
the last byte of the round it finds nothing to do:

| receive state     | at the bytes before the last one of a round                     |
|-------------------|-----------------------------------------------------------------|
| `keyMaybeV1`      | waits, or finds a mismatch and then waits in `key`              |
| `key`             | waits, or rejects a peer of another network, as it will later   |
| `garbGarbterm`    | there are none                                                  |
| `version`, `app`  | waits                                                           |

There is one difference.  If the mismatch with the v1 prefix is found together with the
sixteenth byte, the check for a peer of another network is made with the next byte
(`Doomed`); one byte at a time it is made at once.
-/

namespace XCoin.Net

open V2Transport

variable {V1 : Type} {config : TransportConfig V1} {t t' : V2Transport V1} {bytes : Bytes}
  (more : Bytes)

/-! ## Feeding a transport -/

/-- A transport, the messages that were taken from it and the bytes that it has consumed. -/
structure Inbox (V1 : Type) where
  transport : V2Transport V1
  delivered : List ReceivedMessage
  consumed : Bytes

namespace Inbox

variable {inbox inbox' : Inbox V1}

/-- The inbox of a new transport. -/
def new (config : TransportConfig V1) : Inbox V1 := ⟨.new config, [], []⟩

/-- Take the message if one is complete. -/
def takeMessage (config : TransportConfig V1) (inbox : Inbox V1) : Inbox V1 :=
  if receivedMessageComplete config inbox.transport then
    { inbox with
      transport := (getReceivedMessage config inbox.transport).2
      delivered := inbox.delivered ++ [(getReceivedMessage config inbox.transport).1] }
  else inbox

/-- The transport after a call, which has consumed these bytes. -/
def moved (inbox : Inbox V1) (t : V2Transport V1) (used : Bytes) : Inbox V1 :=
  ⟨t, inbox.delivered, inbox.consumed ++ used⟩

/-- The loop of `ReceiveMsgBytes` on one chunk; every call consumes a byte, so that the length of
the chunk is enough fuel. -/
def feedLoop (config : TransportConfig V1) : ℕ → Inbox V1 → Bytes → Except (Inbox V1) (Inbox V1)
  | 0, inbox, _ => .ok inbox
  | fuel + 1, inbox, bytes =>
    if bytes = [] then .ok inbox
    else
      match receivedBytes config inbox.transport bytes with
      | .error (t, rest) => .error (inbox.moved t (bytes.take (bytes.length - rest.length)))
      | .ok (t, rest) =>
        feedLoop config fuel
          ((inbox.moved t (bytes.take (bytes.length - rest.length))).takeMessage config) rest

/-- One chunk. -/
def feed (config : TransportConfig V1) (inbox : Inbox V1) (chunk : Bytes) :
    Except (Inbox V1) (Inbox V1) :=
  feedLoop config chunk.length inbox chunk

/-- One chunk after the other, until one is rejected. -/
def feedAll (config : TransportConfig V1) (inbox : Inbox V1) (chunks : List Bytes) :
    Except (Inbox V1) (Inbox V1) :=
  chunks.foldlM (feed config) inbox

/-! ## One byte at a time -/

/-- What a round makes of the inbox. -/
def afterRound (config : TransportConfig V1) (inbox : Inbox V1) (used : Bytes) :
    Except (V2Transport V1) (V2Transport V1) → Except (Inbox V1) (Inbox V1)
  | .error t => .error (inbox.moved t used)
  | .ok t => .ok ((inbox.moved t used).takeMessage config)

/-- Receives one byte and takes what is complete. -/
def feedByte (config : TransportConfig V1) (inbox : Inbox V1) (byte : UInt8) :
    Except (Inbox V1) (Inbox V1) :=
  inbox.afterRound config [byte] (processReceived config (appendReceived [byte] inbox.transport))

/-- Receives bytes one by one. -/
def feedBytes (config : TransportConfig V1) (inbox : Inbox V1) (bytes : Bytes) :
    Except (Inbox V1) (Inbox V1) :=
  bytes.foldlM (feedByte config) inbox

theorem feedBytes_append (bytes more : Bytes) :
    inbox.feedBytes config (bytes ++ more) =
      inbox.feedBytes config bytes >>= fun middle => middle.feedBytes config more :=
  List.foldlM_append

theorem feedBytes_append_of_ok (hok : inbox.feedBytes config bytes = .ok inbox') :
    inbox.feedBytes config (bytes ++ more) = inbox'.feedBytes config more := by
  rw [feedBytes_append, hok]
  rfl

theorem feedBytes_append_of_error (herror : inbox.feedBytes config bytes = .error inbox') :
    inbox.feedBytes config (bytes ++ more) = .error inbox' := by
  rw [feedBytes_append, herror]
  rfl

@[simp] theorem feedBytes_nil : inbox.feedBytes config [] = .ok inbox := rfl

theorem feedBytes_singleton (byte : UInt8) :
    inbox.feedBytes config [byte] = inbox.feedByte config byte := by
  rw [feedBytes, List.foldlM_cons]
  cases inbox.feedByte config byte with
  | error e => rfl
  | ok a => rfl

theorem takeMessage_of_recvState (hready : inbox.transport.recvState ≠ .appReady)
    (hv1 : inbox.transport.recvState ≠ .v1) : inbox.takeMessage config = inbox := by
  rw [takeMessage, receivedMessageComplete, if_neg hv1]
  simp [hready]

theorem moved_nil : inbox.moved inbox.transport [] = inbox := by
  simp [moved]

theorem afterRound_moved (used more : Bytes)
    (result : Except (V2Transport V1) (V2Transport V1)) :
    (inbox.moved t used).afterRound config more result =
      inbox.afterRound config (used ++ more) result := by
  cases result with
  | error t' => simp [afterRound, moved]
  | ok t' => simp [afterRound, moved]

end Inbox

/-! ## Quiet bytes -/

theorem appendReceived_append (bytes more : Bytes) (t : V2Transport V1) :
    appendReceived more (appendReceived bytes t) = appendReceived (bytes ++ more) t := by
  simp [appendReceived]

@[simp] theorem recvBuffer_appendReceived (bytes : Bytes) (t : V2Transport V1) :
    (appendReceived bytes t).recvBuffer = t.recvBuffer ++ bytes := rfl

/-- With these bytes in its receive buffer, the transport waits for more. -/
def Waits (config : TransportConfig V1) (t : V2Transport V1) (bytes : Bytes) : Prop :=
  processReceived config (appendReceived bytes t) = .ok (appendReceived bytes t)

theorem recvState_of_max_pos (hmax : 0 < getMaxBytesToProcess t) :
    t.recvState ≠ .appReady ∧ t.recvState ≠ .v1 := by
  constructor <;>
  · intro hstate
    rw [getMaxBytesToProcess, hstate] at hmax
    exact Nat.lt_irrefl 0 hmax

namespace Inbox

variable {inbox : Inbox V1}

/-- If the transport waits at every length, nothing happens but that the buffer grows. -/
theorem feedBytes_of_waits (hmax : 0 < getMaxBytesToProcess inbox.transport) (bytes : Bytes)
    (hwaits : ∀ first, first <+: bytes → first ≠ [] → Waits config inbox.transport first) :
    inbox.feedBytes config bytes =
      .ok (inbox.moved (appendReceived bytes inbox.transport) bytes) := by
  induction bytes using List.reverseRecOn with
  | nil => simp [moved, appendReceived]
  | append_singleton init byte ih =>
    have hinit := ih fun first hfirst => hwaits first (hfirst.trans (List.prefix_append _ _))
    have hlast : Waits config inbox.transport (init ++ [byte]) :=
      hwaits _ List.prefix_rfl (by simp)
    rw [feedBytes_append_of_ok [byte] hinit, feedBytes_singleton, feedByte]
    obtain ⟨hready, hv1⟩ := recvState_of_max_pos hmax
    rw [show (inbox.moved (appendReceived init inbox.transport) init).transport =
      appendReceived init inbox.transport from rfl, appendReceived_append, hlast,
      afterRound_moved]
    exact congrArg Except.ok (takeMessage_of_recvState hready hv1)

/-- After quiet bytes the last byte of a round has the whole round in the buffer. -/
theorem feedBytes_concat {init : Bytes} (byte : UInt8)
    (hinit : inbox.feedBytes config init =
      .ok (inbox.moved (appendReceived init inbox.transport) init)) :
    inbox.feedBytes config (init ++ [byte]) = inbox.afterRound config (init ++ [byte])
      (processReceived config (appendReceived (init ++ [byte]) inbox.transport)) := by
  rw [feedBytes_append_of_ok [byte] hinit, feedBytes_singleton, feedByte, afterRound_moved]
  exact congrArg _ (congrArg _ (appendReceived_append init [byte] inbox.transport))

end Inbox

/-! ## The receive states -/

theorem getMaxBytesToProcess_of_inPacket (hpacket : InPacket t) :
    getMaxBytesToProcess t =
      if t.recvBuffer.length < lengthLen then lengthLen - t.recvBuffer.length
      else expansion + t.recvLen - t.recvBuffer.length := by
  rcases hpacket with hrecv | hrecv <;> rw [getMaxBytesToProcess, hrecv]

theorem processReceived_of_inPacket (hpacket : InPacket t) :
    processReceived config t = processReceivedPacketBytes config t := by
  rcases hpacket with hrecv | hrecv <;> rw [processReceived, hrecv]

theorem waits_of_inPacket (hpacket : InPacket t) {bytes : Bytes} (hnonempty : bytes ≠ [])
    (hlength : bytes.length < getMaxBytesToProcess t) : Waits config t bytes := by
  have hpacket' : InPacket (appendReceived bytes t) := hpacket
  have hpos : 0 < bytes.length := List.length_pos_iff.mpr hnonempty
  rw [getMaxBytesToProcess_of_inPacket hpacket] at hlength
  rw [Waits, processReceived_of_inPacket hpacket', processReceivedPacketBytes,
    recvBuffer_appendReceived, List.length_append]
  by_cases hshort : t.recvBuffer.length < lengthLen
  · rw [if_pos hshort] at hlength
    rw [if_neg (by omega), if_neg (by omega)]
  · rw [if_neg hshort] at hlength
    have hend : t.recvBuffer.length + bytes.length ≠
        (appendReceived bytes t).recvLen + expansion := by
      change t.recvBuffer.length + bytes.length ≠ t.recvLen + expansion
      omega
    rw [if_neg (by omega), if_neg fun hcomplete => hend hcomplete.2]

theorem looksLikeWrongNetwork_append
    (hwrong : looksLikeWrongNetwork config (appendReceived bytes t)) :
    looksLikeWrongNetwork config (appendReceived (bytes ++ more) t) := by
  obtain ⟨hinitiating, hlength, hmatch⟩ := hwrong
  have hfour : 4 + v1VersionType.length ≤ (t.recvBuffer ++ bytes).length := hlength
  refine ⟨hinitiating, ?_, ?_⟩
  · rw [recvBuffer_appendReceived, ← List.append_assoc, List.length_append]
    exact hlength.trans (Nat.le_add_right _ _)
  · rw [recvBuffer_appendReceived, ← List.append_assoc, List.drop_append_of_le_length (by omega),
      List.take_append_of_le_length (by rw [List.length_drop]; omega)]
    exact hmatch

theorem processReceived_of_key (hrecv : t.recvState = .key) :
    processReceived config t = processReceivedKeyBytes config t := by
  rw [processReceived, hrecv]

theorem processReceived_of_wrongNetwork (hrecv : t.recvState = .key) {bytes : Bytes}
    (hwrong : looksLikeWrongNetwork config (appendReceived bytes t)) :
    processReceived config (appendReceived bytes t) = .error (appendReceived bytes t) := by
  have hrecv' : (appendReceived bytes t).recvState = .key := hrecv
  rw [processReceived_of_key hrecv', processReceivedKeyBytes, if_pos hwrong]

theorem waits_of_key (hrecv : t.recvState = .key) {bytes : Bytes}
    (hlength : t.recvBuffer.length + bytes.length < ellSwiftSize)
    (hright : ¬looksLikeWrongNetwork config (appendReceived bytes t)) : Waits config t bytes := by
  have hshort : (appendReceived bytes t).recvBuffer.length ≠ ellSwiftSize := by
    rw [recvBuffer_appendReceived, List.length_append]
    omega
  have hrecv' : (appendReceived bytes t).recvState = .key := hrecv
  rw [Waits, processReceived_of_key hrecv', processReceivedKeyBytes, if_neg hright, if_neg hshort]

theorem processReceived_of_maybeV1 (hrecv : t.recvState = .keyMaybeV1) :
    processReceived config t = processReceivedMaybeV1Bytes config t := by
  rw [processReceived, hrecv]

/-- The receive buffer begins like a v1 connection. -/
def MatchesV1 (config : TransportConfig V1) (t : V2Transport V1) : Prop :=
  t.recvBuffer = (v1Prefix config).take t.recvBuffer.length

theorem waits_of_maybeV1 (hrecv : t.recvState = .keyMaybeV1) {bytes : Bytes}
    (hlength : t.recvBuffer.length + bytes.length < v1PrefixLen)
    (hmatches : MatchesV1 config (appendReceived bytes t)) : Waits config t bytes := by
  have hshort : (appendReceived bytes t).recvBuffer.length ≠ v1PrefixLen := by
    rw [recvBuffer_appendReceived, List.length_append]
    omega
  have hrecv' : (appendReceived bytes t).recvState = .keyMaybeV1 := hrecv
  have hequal : ¬(appendReceived bytes t).recvBuffer ≠
      (v1Prefix config).take (appendReceived bytes t).recvBuffer.length := not_not.mpr hmatches
  rw [Waits, processReceived_of_maybeV1 hrecv', processReceivedMaybeV1Bytes, if_neg hequal,
    if_neg hshort]

theorem processReceived_of_mismatch (hrecv : t.recvState = .keyMaybeV1) {bytes : Bytes}
    (hmismatch : ¬MatchesV1 config (appendReceived bytes t)) :
    processReceived config (appendReceived bytes t) = .ok (appendReceived bytes t).startV2 := by
  have hrecv' : (appendReceived bytes t).recvState = .keyMaybeV1 := hrecv
  have hne : (appendReceived bytes t).recvBuffer ≠
      (v1Prefix config).take (appendReceived bytes t).recvBuffer.length := hmismatch
  rw [processReceived_of_maybeV1 hrecv', processReceivedMaybeV1Bytes, if_pos hne]

theorem MatchesV1.of_append {bytes more : Bytes}
    (hmatches : MatchesV1 config (appendReceived (bytes ++ more) t)) :
    MatchesV1 config (appendReceived bytes t) := by
  have hwhole : t.recvBuffer ++ bytes ++ more =
      (v1Prefix config).take (t.recvBuffer ++ bytes ++ more).length := by
    rw [List.append_assoc]
    exact hmatches
  have hfirst := congrArg (List.take (t.recvBuffer ++ bytes).length) hwhole
  rw [List.take_left, List.take_take, Nat.min_eq_left (by simp)] at hfirst
  exact hfirst

theorem startV2_appendReceived (bytes : Bytes) (t : V2Transport V1) :
    appendReceived bytes t.startV2 = (appendReceived bytes t).startV2 := rfl

/-! ## Rounds -/

/-- The next byte will be rejected: a peer of another network, not looked at yet. -/
def Doomed (config : TransportConfig V1) (t : V2Transport V1) : Prop :=
  t.recvState = .key ∧ looksLikeWrongNetwork config t

/-- A round on a chunk, and the bytes of the chunk one at a time. -/
inductive RoundOutcome (config : TransportConfig V1) (inbox : Inbox V1) (chunk : Bytes) : Prop
  /-- the same -/
  | same : inbox.feedBytes config chunk = inbox.afterRound config chunk
      (processReceived config (appendReceived chunk inbox.transport)) →
      RoundOutcome config inbox chunk
  /-- both reject, one byte at a time maybe earlier -/
  | rejected (t : V2Transport V1) (inbox' : Inbox V1) :
      processReceived config (appendReceived chunk inbox.transport) = .error t →
      inbox.feedBytes config chunk = .error inbox' → inbox'.delivered = inbox.delivered →
      RoundOutcome config inbox chunk
  /-- one byte at a time the last byte is rejected, and the round leaves that to the next one -/
  | doomed (init : Bytes) (byte : UInt8) (inbox' : Inbox V1) : chunk = init ++ [byte] →
      inbox.transport.recvState = .keyMaybeV1 →
      processReceived config (appendReceived chunk inbox.transport) =
        .ok (appendReceived chunk inbox.transport).startV2 →
      Doomed config (appendReceived chunk inbox.transport).startV2 →
      (inbox.feedBytes config init).isOk = true → inbox.feedBytes config chunk = .error inbox' →
      inbox'.delivered = inbox.delivered → RoundOutcome config inbox chunk

namespace Inbox

variable {inbox : Inbox V1} {init : Bytes}

theorem roundOutcome_of_inPacket (hpacket : InPacket inbox.transport) (byte : UInt8)
    (hlength : init.length < getMaxBytesToProcess inbox.transport) :
    RoundOutcome config inbox (init ++ [byte]) := by
  apply RoundOutcome.same
  apply feedBytes_concat
  apply feedBytes_of_waits (Nat.zero_lt_of_lt hlength)
  intro first hfirst hnonempty
  exact waits_of_inPacket hpacket hnonempty (hfirst.length_le.trans_lt hlength)

theorem feedBytes_of_key (inbox : Inbox V1) (hrecv : inbox.transport.recvState = .key)
    (hlength : inbox.transport.recvBuffer.length + init.length < ellSwiftSize)
    (hright : ¬looksLikeWrongNetwork config (appendReceived init inbox.transport)) :
    inbox.feedBytes config init =
      .ok (inbox.moved (appendReceived init inbox.transport) init) := by
  have hmax : 0 < getMaxBytesToProcess inbox.transport := by
    rw [getMaxBytesToProcess, hrecv]
    change 0 < ellSwiftSize - inbox.transport.recvBuffer.length
    omega
  apply feedBytes_of_waits hmax
  intro first hfirst _
  have hfits := hfirst.length_le
  refine waits_of_key hrecv (by omega) fun hwrong => hright ?_
  obtain ⟨more, rfl⟩ := hfirst
  exact looksLikeWrongNetwork_append more hwrong

/-- A peer of another network is rejected, at the last byte or before. -/
theorem feedBytes_of_wrongNetwork (bytes : Bytes) :
    ∀ inbox : Inbox V1, inbox.transport.recvState = .key → bytes ≠ [] →
      inbox.transport.recvBuffer.length + bytes.length ≤ ellSwiftSize →
      looksLikeWrongNetwork config (appendReceived bytes inbox.transport) →
      ∃ inbox', inbox.feedBytes config bytes = .error inbox' ∧
        inbox'.delivered = inbox.delivered := by
  induction bytes with
  | nil =>
    intro inbox _ hnonempty
    exact absurd rfl hnonempty
  | cons byte rest ih =>
    intro inbox hrecv _ hlength hwrong
    rw [List.length_cons] at hlength
    by_cases hfirst : looksLikeWrongNetwork config (appendReceived [byte] inbox.transport)
    · -- rejected with this byte
      have hrejected : inbox.feedBytes config [byte] =
          .error (inbox.moved (appendReceived [byte] inbox.transport) [byte]) := by
        rw [feedBytes_singleton, feedByte, processReceived_of_wrongNetwork hrecv hfirst]
        rfl
      exact ⟨_, feedBytes_append_of_error rest hrejected, rfl⟩
    · have hrest : rest ≠ [] := by
        rintro rfl
        exact hfirst hwrong
      have hpos : 0 < rest.length := List.length_pos_iff.mpr hrest
      have hquiet : inbox.feedBytes config [byte] =
          .ok (inbox.moved (appendReceived [byte] inbox.transport) [byte]) :=
        feedBytes_of_key inbox hrecv (by rw [List.length_singleton]; omega) hfirst
      have hwrong' : looksLikeWrongNetwork config
          (appendReceived rest (appendReceived [byte] inbox.transport)) := by
        rw [appendReceived_append]
        exact hwrong
      have hlength' : (inbox.transport.recvBuffer ++ [byte]).length + rest.length ≤
          ellSwiftSize := by
        rw [List.length_append, List.length_singleton]
        omega
      obtain ⟨inbox', herror, hdelivered⟩ :=
        ih (inbox.moved (appendReceived [byte] inbox.transport) [byte]) hrecv hrest hlength'
          hwrong'
      exact ⟨inbox', (feedBytes_append_of_ok rest hquiet).trans herror, hdelivered⟩

theorem roundOutcome_of_key (hrecv : inbox.transport.recvState = .key) (byte : UInt8)
    (hlength : init.length < getMaxBytesToProcess inbox.transport) :
    RoundOutcome config inbox (init ++ [byte]) := by
  have hmax : getMaxBytesToProcess inbox.transport =
      ellSwiftSize - inbox.transport.recvBuffer.length := by
    rw [getMaxBytesToProcess, hrecv]
  rw [hmax] at hlength
  by_cases hwrong : looksLikeWrongNetwork config (appendReceived init inbox.transport)
  · -- rejected before the last byte of the round
    have hwhole := looksLikeWrongNetwork_append [byte] hwrong
    have hlength' : inbox.transport.recvBuffer.length + (init ++ [byte]).length ≤
        ellSwiftSize := by
      rw [List.length_append, List.length_singleton]
      omega
    obtain ⟨inbox', herror, hdelivered⟩ :=
      feedBytes_of_wrongNetwork (init ++ [byte]) inbox hrecv (by simp) hlength' hwhole
    exact .rejected _ inbox' (processReceived_of_wrongNetwork hrecv hwhole) herror hdelivered
  · apply RoundOutcome.same
    apply feedBytes_concat
    exact feedBytes_of_key inbox hrecv (by omega) hwrong

theorem not_wrongNetwork_of_short (hlength : t.recvBuffer.length + bytes.length < v1PrefixLen) :
    ¬looksLikeWrongNetwork config (appendReceived bytes t) := by
  intro hwrong
  have hlong := hwrong.2.1
  rw [recvBuffer_appendReceived, List.length_append] at hlong
  omega

section MaybeV1

variable (hrecv : inbox.transport.recvState = .keyMaybeV1)

include hrecv

theorem feedBytes_of_matches
    (hlength : inbox.transport.recvBuffer.length + init.length < v1PrefixLen)
    (hmatches : MatchesV1 config (appendReceived init inbox.transport)) :
    inbox.feedBytes config init =
      .ok (inbox.moved (appendReceived init inbox.transport) init) := by
  have hmax : 0 < getMaxBytesToProcess inbox.transport := by
    rw [getMaxBytesToProcess, hrecv]
    change 0 < v1PrefixLen - inbox.transport.recvBuffer.length
    omega
  apply feedBytes_of_waits hmax
  intro first hfirst _
  have hfits := hfirst.length_le
  refine waits_of_maybeV1 hrecv (by omega) ?_
  obtain ⟨more, rfl⟩ := hfirst
  exact hmatches.of_append

theorem feedBytes_concat_of_mismatch {byte : UInt8} (hinit : inbox.feedBytes config init =
      .ok (inbox.moved (appendReceived init inbox.transport) init))
    (hmismatch : ¬MatchesV1 config (appendReceived (init ++ [byte]) inbox.transport)) :
    inbox.feedBytes config (init ++ [byte]) =
      .ok (inbox.moved (appendReceived (init ++ [byte]) inbox.transport).startV2
        (init ++ [byte])) := by
  rw [feedBytes_concat byte hinit, processReceived_of_mismatch hrecv hmismatch]
  exact congrArg Except.ok (takeMessage_of_recvState RecvState.noConfusion RecvState.noConfusion)

/-- After a mismatch the transport expects a key, and waits as long as there are too few bytes to
look at. -/
theorem feedBytes_of_mismatch (bytes : Bytes) :
    inbox.transport.recvBuffer.length + bytes.length < v1PrefixLen → bytes ≠ [] →
      ¬MatchesV1 config (appendReceived bytes inbox.transport) →
      inbox.feedBytes config bytes =
        .ok (inbox.moved (appendReceived bytes inbox.transport).startV2 bytes) := by
  induction bytes using List.reverseRecOn with
  | nil => exact fun _ hnonempty => absurd rfl hnonempty
  | append_singleton first byte ih =>
    intro hlength _ hmismatch
    rw [List.length_append, List.length_singleton] at hlength
    by_cases hempty : first = []
    · subst hempty
      apply feedBytes_concat_of_mismatch hrecv _ hmismatch
      simp [moved, appendReceived]
    by_cases hmatches : MatchesV1 config (appendReceived first inbox.transport)
    · exact feedBytes_concat_of_mismatch hrecv
        (feedBytes_of_matches hrecv (by omega) hmatches) hmismatch
    · -- the mismatch was found before, and the state is `key` now
      have hfirst := ih (by omega) hempty hmatches
      have hright : ¬looksLikeWrongNetwork config
          (appendReceived [byte] (appendReceived first inbox.transport).startV2) := by
        apply not_wrongNetwork_of_short
        change (inbox.transport.recvBuffer ++ first).length + 1 < v1PrefixLen
        rw [List.length_append]
        omega
      have hshort : (inbox.transport.recvBuffer ++ first).length + [byte].length <
          ellSwiftSize := by
        have hle : v1PrefixLen ≤ ellSwiftSize := by decide
        rw [List.length_append, List.length_singleton]
        omega
      have hlast := feedBytes_of_key
        (inbox.moved (appendReceived first inbox.transport).startV2 first) rfl hshort hright
      rw [feedBytes_append_of_ok [byte] hfirst, hlast]
      simp [moved, startV2_appendReceived, appendReceived_append]

theorem roundOutcome_of_mismatch (byte : UInt8)
    (hlength : inbox.transport.recvBuffer.length + init.length < v1PrefixLen)
    (hnonempty : init ≠ [])
    (hmismatch : ¬MatchesV1 config (appendReceived init inbox.transport)) :
    RoundOutcome config inbox (init ++ [byte]) := by
  have hbefore := feedBytes_of_mismatch hrecv init hlength hnonempty hmismatch
  have hround : processReceived config (appendReceived (init ++ [byte]) inbox.transport) =
      .ok (appendReceived (init ++ [byte]) inbox.transport).startV2 :=
    processReceived_of_mismatch hrecv fun hmatches => hmismatch hmatches.of_append
  have hstart : appendReceived [byte] (appendReceived init inbox.transport).startV2 =
      (appendReceived (init ++ [byte]) inbox.transport).startV2 := by
    rw [startV2_appendReceived, appendReceived_append]
  have hshort : (inbox.transport.recvBuffer ++ init).length + [byte].length < ellSwiftSize := by
    have hlt : v1PrefixLen < ellSwiftSize := by decide
    rw [List.length_append, List.length_singleton]
    omega
  by_cases hwrong : looksLikeWrongNetwork config
      (appendReceived [byte] (appendReceived init inbox.transport).startV2)
  · obtain ⟨inbox', herror, hdelivered⟩ := feedBytes_of_wrongNetwork [byte]
      (inbox.moved (appendReceived init inbox.transport).startV2 init) rfl (by simp) hshort.le
      hwrong
    refine .doomed init byte inbox' rfl hrecv hround ?_ ?_ ?_ hdelivered
    · rw [← hstart]
      exact ⟨rfl, hwrong⟩
    · rw [hbefore]
      rfl
    · rw [feedBytes_append_of_ok [byte] hbefore, herror]
  · apply RoundOutcome.same
    rw [feedBytes_append_of_ok [byte] hbefore,
      feedBytes_of_key (inbox.moved (appendReceived init inbox.transport).startV2 init) rfl hshort
        hwrong, hround, afterRound,
      takeMessage_of_recvState RecvState.noConfusion RecvState.noConfusion]
    simp [moved, startV2_appendReceived, appendReceived_append]

theorem roundOutcome_of_maybeV1 (byte : UInt8)
    (hlength : init.length < getMaxBytesToProcess inbox.transport) :
    RoundOutcome config inbox (init ++ [byte]) := by
  have hmax : getMaxBytesToProcess inbox.transport =
      v1PrefixLen - inbox.transport.recvBuffer.length := by
    rw [getMaxBytesToProcess, hrecv]
  rw [hmax] at hlength
  by_cases hempty : init = []
  · subst hempty
    apply RoundOutcome.same
    apply feedBytes_concat
    simp [moved, appendReceived]
  by_cases hmatches : MatchesV1 config (appendReceived init inbox.transport)
  · apply RoundOutcome.same
    apply feedBytes_concat
    exact feedBytes_of_matches hrecv (by omega) hmatches
  · exact roundOutcome_of_mismatch hrecv byte (by omega) hempty hmatches

end MaybeV1

/-- **A round is its bytes one at a time**, but for the cases of `RoundOutcome`. -/
theorem roundOutcome_of_length_le {chunk : Bytes} (hnonempty : chunk ≠ [])
    (hlength : chunk.length ≤ getMaxBytesToProcess inbox.transport) :
    RoundOutcome config inbox chunk := by
  obtain ⟨init, byte, rfl⟩ : ∃ init byte, chunk = init ++ [byte] :=
    ⟨_, _, (List.dropLast_append_getLast hnonempty).symm⟩
  rw [List.length_append, List.length_singleton] at hlength
  cases hrecv : inbox.transport.recvState with
  | keyMaybeV1 => exact roundOutcome_of_maybeV1 hrecv byte hlength
  | key => exact roundOutcome_of_key hrecv byte hlength
  | garbGarbterm =>
    -- one byte is all that a round takes
    rw [getMaxBytesToProcess, hrecv] at hlength
    have hone : init.length + 1 ≤ 1 := hlength
    obtain rfl : init = [] := List.eq_nil_of_length_eq_zero (by omega)
    apply RoundOutcome.same
    apply feedBytes_concat
    simp [moved, appendReceived]
  | version => exact roundOutcome_of_inPacket (.inl hrecv) byte hlength
  | app => exact roundOutcome_of_inPacket (.inr hrecv) byte hlength
  | appReady =>
    rw [getMaxBytesToProcess, hrecv] at hlength
    exact absurd hlength (Nat.not_succ_le_zero _)
  | v1 =>
    rw [getMaxBytesToProcess, hrecv] at hlength
    exact absurd hlength (Nat.not_succ_le_zero _)

end Inbox

/-! ## After a round -/

/-- The transport takes bytes, has a message or speaks v1. -/
structure Continues (t : V2Transport V1) : Prop where
  max : t.recvState ≠ .appReady → t.recvState ≠ .v1 → 0 < getMaxBytesToProcess t
  appReady : t.recvState = .appReady → t.recvBuffer = []

theorem continues_of_max_pos (hmax : 0 < getMaxBytesToProcess t) : Continues t where
  max _ _ := hmax
  appReady hready := absurd hready (recvState_of_max_pos hmax).1

theorem continues_of_v1 (hv1 : t.recvState = .v1) : Continues t where
  max _ hv2 := absurd hv1 hv2
  appReady hready := by
    rw [hv1] at hready
    cases hready

theorem continues_of_nil (hpacket : InPacket t ∨ t.recvState = .appReady)
    (hbuffer : t.recvBuffer = []) : Continues t where
  max hready _ := by
    rw [getMaxBytesToProcess_of_inPacket (hpacket.resolve_right hready), hbuffer,
      if_pos (by decide)]
    decide
  appReady _ := hbuffer

theorem continues_wipePacket (hpacket : InPacket t ∨ t.recvState = .appReady) :
    Continues (wipePacket t) :=
  continues_of_nil hpacket rfl

theorem continues_of_processPacket (hpacket : InPacket t)
    (hok : processPacket config t = .ok t') : Continues t' := by
  have hprocessed : ∀ contents, (usePacket config (openPacket config contents t)).map wipePacket =
      .ok t' → Continues t' := by
    intro contents hused
    rcases hpacket with hrecv | hrecv
    · have hopened : (openPacket config contents t).recvState = .version := hrecv
      by_cases hmode : config.hybridMode = .off
      · rw [usePacket_of_off hopened hmode] at hused
        cases hused
        exact continues_wipePacket (.inl (.inr rfl))
      · rw [usePacket_of_hybrid hopened hmode] at hused
        cases hversion : processHybridVersion config (openPacket config contents t) with
        | error e =>
          rw [hversion] at hused
          cases hused
        | ok a =>
          rw [hversion] at hused
          cases hused
          exact continues_wipePacket (.inl (.inr rfl))
    · have hopened : (openPacket config contents t).recvState = .app := hrecv
      rw [usePacket_of_app hopened] at hused
      cases hused
      exact continues_wipePacket (.inr rfl)
  rw [processPacket] at hok
  split at hok
  · cases hok
  · next ignore contents _ =>
      split_ifs at hok
      · cases hok
        exact continues_wipePacket (.inl hpacket)
      · exact hprocessed contents hok

theorem continues_of_inPacket (hpacket : InPacket t) {bytes : Bytes} (hnonempty : bytes ≠ [])
    (hlength : bytes.length ≤ getMaxBytesToProcess t)
    (hok : processReceived config (appendReceived bytes t) = .ok t') : Continues t' := by
  have hpacket' : InPacket (appendReceived bytes t) := hpacket
  have hpos : 0 < bytes.length := List.length_pos_iff.mpr hnonempty
  have hbuffer : (appendReceived bytes t).recvBuffer.length =
      t.recvBuffer.length + bytes.length := by
    rw [recvBuffer_appendReceived, List.length_append]
  rw [getMaxBytesToProcess_of_inPacket hpacket] at hlength
  rw [processReceived_of_inPacket hpacket', processReceivedPacketBytes] at hok
  by_cases hdescriptor : (appendReceived bytes t).recvBuffer.length = lengthLen
  · -- the length is known now, and at least the rest of the expansion is to come
    rw [if_pos hdescriptor, checkLength] at hok
    split_ifs at hok
    cases hok
    apply continues_of_max_pos
    have hpacket'' : InPacket (decryptLength config (appendReceived bytes t)) := hpacket
    rw [getMaxBytesToProcess_of_inPacket hpacket'',
      show (decryptLength config (appendReceived bytes t)).recvBuffer =
        (appendReceived bytes t).recvBuffer from rfl, hdescriptor, if_neg (Nat.lt_irrefl _)]
    have hle : lengthLen < expansion := by decide
    omega
  · rw [if_neg hdescriptor] at hok
    by_cases hcomplete : lengthLen < (appendReceived bytes t).recvBuffer.length ∧
        (appendReceived bytes t).recvBuffer.length =
          (appendReceived bytes t).recvLen + expansion
    · rw [if_pos hcomplete] at hok
      exact continues_of_processPacket hpacket' hok
    · rw [if_neg hcomplete] at hok
      cases hok
      apply continues_of_max_pos
      have hrecvLen : (appendReceived bytes t).recvLen = t.recvLen := rfl
      rw [getMaxBytesToProcess_of_inPacket hpacket']
      rw [hbuffer, hrecvLen] at hcomplete ⊢
      rw [hbuffer] at hdescriptor
      split_ifs at hlength ⊢ <;> omega

theorem continues_of_key_short (hrecv : t.recvState = .key)
    (hlength : t.recvBuffer.length < ellSwiftSize) : Continues t := by
  apply continues_of_max_pos
  rw [getMaxBytesToProcess, hrecv]
  exact Nat.sub_pos_of_lt hlength

theorem continues_of_garbage (hrecv : t.recvState = .garbGarbterm) : Continues t := by
  apply continues_of_max_pos
  rw [getMaxBytesToProcess, hrecv]
  exact Nat.one_pos

theorem continues_of_key (hrecv : t.recvState = .key) {bytes : Bytes}
    (hlength : bytes.length ≤ getMaxBytesToProcess t) (hmax : 0 < getMaxBytesToProcess t)
    (hok : processReceived config (appendReceived bytes t) = .ok t') : Continues t' := by
  have hrecv' : (appendReceived bytes t).recvState = .key := hrecv
  have hfits : (appendReceived bytes t).recvBuffer.length ≤ ellSwiftSize := by
    rw [getMaxBytesToProcess, hrecv] at hlength hmax
    have hroom : bytes.length ≤ ellSwiftSize - t.recvBuffer.length := hlength
    have hpos : 0 < ellSwiftSize - t.recvBuffer.length := hmax
    rw [recvBuffer_appendReceived, List.length_append]
    omega
  rw [processReceived_of_key hrecv', processReceivedKeyBytes] at hok
  split_ifs at hok with hwrong hcomplete hmode
  · rw [processHybridKey] at hok
    split_ifs at hok
    · cases hok
      exact continues_of_garbage rfl
    · split at hok
      · cases hok
      · cases hok
        exact continues_of_garbage rfl
  · cases hok
    exact continues_of_garbage rfl
  · cases hok
    exact continues_of_key_short hrecv' (lt_of_le_of_ne hfits hcomplete)

theorem continues_of_maybeV1 (hrecv : t.recvState = .keyMaybeV1) {bytes : Bytes}
    (hlength : bytes.length ≤ getMaxBytesToProcess t) (hmax : 0 < getMaxBytesToProcess t)
    (hok : processReceived config (appendReceived bytes t) = .ok t') : Continues t' := by
  have hrecv' : (appendReceived bytes t).recvState = .keyMaybeV1 := hrecv
  have hfits : (appendReceived bytes t).recvBuffer.length ≤ v1PrefixLen := by
    rw [getMaxBytesToProcess, hrecv] at hlength hmax
    have hroom : bytes.length ≤ v1PrefixLen - t.recvBuffer.length := hlength
    have hpos : 0 < v1PrefixLen - t.recvBuffer.length := hmax
    rw [recvBuffer_appendReceived, List.length_append]
    omega
  rw [processReceived_of_maybeV1 hrecv', processReceivedMaybeV1Bytes] at hok
  split_ifs at hok with hmismatch hcomplete hmode
  · cases hok
    have hlt : v1PrefixLen < ellSwiftSize := by decide
    exact continues_of_key_short rfl (hfits.trans_lt hlt)
  · cases hok
    exact continues_of_v1 rfl
  · cases hok
    apply continues_of_max_pos
    rw [getMaxBytesToProcess, hrecv']
    exact Nat.sub_pos_of_lt (lt_of_le_of_ne hfits hcomplete)

theorem continues_of_garbageBytes (hrecv : t.recvState = .garbGarbterm) {bytes : Bytes}
    (hok : processReceived config (appendReceived bytes t) = .ok t') : Continues t' := by
  have hrecv' : (appendReceived bytes t).recvState = .garbGarbterm := hrecv
  rw [processReceived, hrecv'] at hok
  change processReceivedGarbageBytes (appendReceived bytes t) = .ok t' at hok
  rw [processReceivedGarbageBytes] at hok
  split_ifs at hok
  · cases hok
    exact continues_of_garbage hrecv'
  · cases hok
    exact continues_of_nil (.inl (.inl rfl)) rfl
  · cases hok
    exact continues_of_garbage hrecv'

/-- After a round the transport takes bytes, has a message or speaks v1. -/
theorem continues_of_round (hnonempty : bytes ≠ [])
    (hlength : bytes.length ≤ getMaxBytesToProcess t)
    (hok : processReceived config (appendReceived bytes t) = .ok t') : Continues t' := by
  have hmax : 0 < getMaxBytesToProcess t := (List.length_pos_iff.mpr hnonempty).trans_le hlength
  cases hrecv : t.recvState with
  | keyMaybeV1 => exact continues_of_maybeV1 hrecv hlength hmax hok
  | key => exact continues_of_key hrecv hlength hmax hok
  | garbGarbterm => exact continues_of_garbageBytes hrecv hok
  | version => exact continues_of_inPacket (.inl hrecv) hnonempty hlength hok
  | app => exact continues_of_inPacket (.inr hrecv) hnonempty hlength hok
  | appReady => exact absurd hrecv (recvState_of_max_pos hmax).1
  | v1 => exact absurd hrecv (recvState_of_max_pos hmax).2

end XCoin.Net
