import XCoin.Net.ByteRounds
import XCoin.Net.RequireMode

/-!
# The receiver does not see how the stream is cut

Whatever the chunks are in which the bytes of the peer arrive, the outcome is that of
receiving them one at a time, or a transport that will reject the next byte (`Reached`).
The round is lifted to the loop of `ReceivedBytes`, to the loop of `ReceiveMsgBytes`, and
to a list of chunks.
-/

namespace XCoin.Net

open V2Transport

variable {V1 : Type} {config : TransportConfig V1} {t t' : V2Transport V1}

/-! ## The loops -/

namespace Inbox

variable {start inbox : Inbox V1} {bytes : Bytes} {rejected : Inbox V1} {middle : V2Transport V1}
  {inbox' : Inbox V1} {chunk : Bytes}

theorem eq_of_processed_maybeV1 (hprocessed : Processed config t (.ok t'))
    (hrecv : t'.recvState = .keyMaybeV1) : t' = t := by
  cases hprocessed with
  | waits => rfl
  | lengthRead hpacket | decoy _ hpacket =>
    have hstate : t.recvState = .keyMaybeV1 := hrecv
    rcases hpacket with hrecv' | hrecv' <;> rw [hrecv'] at hstate <;> cases hstate
  | starts | fallsBack | keyClassical | keyInitiator | offers | garbageEnds | message
  | versionIgnored | versionDone => cases hrecv

theorem takeMessage_of_maybeV1 (hrecv : (inbox.takeMessage config).transport.recvState =
    .keyMaybeV1) : inbox.takeMessage config = inbox := by
  by_cases hcomplete : receivedMessageComplete config inbox.transport = true
  · rw [takeMessage, if_pos hcomplete, getReceivedMessage] at hrecv
    split_ifs at hrecv with hv1
    rw [show inbox.transport.recvState = .keyMaybeV1 from hrecv] at hv1
    cases hv1
  · rw [takeMessage, if_neg hcomplete]

/-- A transport that still may speak v1 has done nothing but collect bytes. -/
theorem eq_moved_of_maybeV1 (bytes : Bytes) :
    ∀ inbox : Inbox V1, start.feedBytes config bytes = .ok inbox →
      inbox.transport.recvState = .keyMaybeV1 →
      inbox = start.moved (appendReceived bytes start.transport) bytes := by
  induction bytes using List.reverseRecOn with
  | nil =>
    intro inbox hok _
    cases hok
    simp [moved, appendReceived]
  | append_singleton init byte ih =>
    intro inbox hok hrecv
    rw [feedBytes_append] at hok
    obtain ⟨middle, hmiddle, hlast⟩ := Except.bind_eq_ok_iff.mp hok
    rw [feedBytes_singleton, feedByte] at hlast
    have hprocessed :=
      processed_processReceived config (appendReceived [byte] middle.transport)
    cases hround : processReceived config (appendReceived [byte] middle.transport) with
    | error t =>
      rw [hround] at hlast
      cases hlast
    | ok t =>
      rw [hround] at hlast hprocessed
      obtain rfl := Except.ok.inj hlast
      have htake := takeMessage_of_maybeV1 hrecv
      rw [htake] at hrecv ⊢
      have ht : t = appendReceived [byte] middle.transport :=
        eq_of_processed_maybeV1 hprocessed hrecv
      subst ht
      rw [ih middle hmiddle hrecv]
      simp [moved, appendReceived]

theorem takeMessage_v1 (hv1 : inbox.transport.recvState = .v1) :
    (inbox.takeMessage config).transport.recvState = .v1 := by
  rw [takeMessage]
  split_ifs
  · rw [getReceivedMessage, if_pos hv1]
    exact hv1
  · exact hv1

theorem feedBytes_v1 (bytes : Bytes) :
    ∀ inbox : Inbox V1, inbox.transport.recvState = .v1 →
      ∃ inbox', inbox.feedBytes config bytes = .ok inbox' ∧
        inbox'.transport.recvState = .v1 := by
  induction bytes with
  | nil =>
    intro inbox hv1
    exact ⟨inbox, rfl, hv1⟩
  | cons byte rest ih =>
    intro inbox hv1
    have hv1' : (appendReceived [byte] inbox.transport).recvState = .v1 := hv1
    have hround : processReceived config (appendReceived [byte] inbox.transport) =
        .ok (appendReceived [byte] inbox.transport) := by
      rw [processReceived, hv1']
    have hfirst : inbox.feedBytes config [byte] = .ok ((inbox.moved
        (appendReceived [byte] inbox.transport) [byte]).takeMessage config) := by
      rw [feedBytes_singleton, feedByte, hround]
      rfl
    have hnext : ((inbox.moved (appendReceived [byte] inbox.transport)
        [byte]).takeMessage config).transport.recvState = .v1 := takeMessage_v1 hv1
    obtain ⟨inbox', hrest, hstays⟩ := ih _ hnext
    exact ⟨inbox', (feedBytes_append_of_ok rest hfirst).trans hrest, hstays⟩

/-- What cutting the stream into chunks can lead to. -/
inductive Reached (config : TransportConfig V1) (start inbox : Inbox V1) (bytes : Bytes) : Prop
  /-- what the bytes one at a time lead to -/
  | agrees : start.feedBytes config bytes = .ok inbox →
      0 < getMaxBytesToProcess inbox.transport → Reached config start inbox bytes
  /-- one byte at a time the last byte is rejected, and so will be any byte after it -/
  | doomed (init : Bytes) (byte : UInt8) (rejected : Inbox V1) : bytes = init ++ [byte] →
      (start.feedBytes config init).isOk = true →
      start.feedBytes config bytes = .error rejected → rejected.delivered = inbox.delivered →
      inbox = start.moved (appendReceived bytes start.transport).startV2 bytes →
      Doomed config inbox.transport → 0 < getMaxBytesToProcess inbox.transport →
      Reached config start inbox bytes
  /-- both have fallen back to v1 -/
  | v1 (other : Inbox V1) : start.feedBytes config bytes = .ok other →
      other.transport.recvState = .v1 → inbox.transport.recvState = .v1 →
      Reached config start inbox bytes

theorem Reached.max_pos (h : Reached config start inbox bytes)
    (hv2 : inbox.transport.recvState ≠ .v1) : 0 < getMaxBytesToProcess inbox.transport := by
  cases h with
  | agrees _ hmax => exact hmax
  | doomed _ _ _ _ _ _ _ _ _ hmax => exact hmax
  | v1 _ _ _ hv1 => exact absurd hv1 hv2

theorem Reached.stays_v1 (h : Reached config start inbox bytes)
    (hv1 : inbox.transport.recvState = .v1) (hv1' : inbox'.transport.recvState = .v1)
    (more : Bytes) :
    Reached config start inbox' (bytes ++ more) := by
  cases h with
  | agrees _ hmax => exact absurd hv1 (recvState_of_max_pos hmax).2
  | doomed _ _ _ _ _ _ _ _ _ hmax => exact absurd hv1 (recvState_of_max_pos hmax).2
  | v1 other hfeed hother _ =>
    obtain ⟨later, hlater, hstays⟩ := feedBytes_v1 more other hother
    exact .v1 later ((feedBytes_append_of_ok more hfeed).trans hlater) hstays hv1'

theorem takeMessage_max_pos (hcontinues : Continues inbox.transport)
    (hv2 : inbox.transport.recvState ≠ .v1) :
    0 < getMaxBytesToProcess (inbox.takeMessage config).transport := by
  by_cases hready : inbox.transport.recvState = .appReady
  · rw [takeMessage, receivedMessageComplete, if_neg hv2, if_pos (decide_eq_true hready),
      getReceivedMessage, if_neg hv2, getMaxBytesToProcess_of_inPacket (.inr rfl)]
    change 0 < if inbox.transport.recvBuffer.length < lengthLen then _ else _
    rw [hcontinues.appReady hready, if_pos (by decide)]
    decide
  · rw [takeMessage_of_recvState hready hv2]
    exact hcontinues.max hready hv2

/-- The message that a round leaves behind is taken, and the next round may begin. -/
theorem reached_of_feedBytes (hmax : chunk.length ≤ getMaxBytesToProcess inbox.transport)
    (hnonempty : chunk ≠ [])
    (hround : processReceived config (appendReceived chunk inbox.transport) = .ok t')
    (hfeed : start.feedBytes config bytes = .ok ((inbox.moved t' chunk).takeMessage config)) :
    Reached config start ((inbox.moved t' chunk).takeMessage config) bytes := by
  have hcontinues : Continues t' := continues_of_round hnonempty hmax hround
  by_cases hv1 : t'.recvState = .v1
  · exact .v1 _ hfeed (takeMessage_v1 hv1) (takeMessage_v1 hv1)
  · exact .agrees hfeed (takeMessage_max_pos hcontinues hv1)

/-- **One round.** From what chunks can lead to, to what chunks can lead to, or to a rejection that
comes one byte at a time as well. -/
theorem Reached.round (h : Reached config start inbox bytes) (hv2 : inbox.transport.recvState ≠ .v1)
    (hnonempty : chunk ≠ []) (hlength : chunk.length ≤ getMaxBytesToProcess inbox.transport) :
    (processReceived config (appendReceived chunk inbox.transport)).Satisfies
      (fun _ => ∃ rejected, start.feedBytes config (bytes ++ chunk) = .error rejected ∧
        rejected.delivered = inbox.delivered)
      (fun t' => Reached config start ((inbox.moved t' chunk).takeMessage config)
        (bytes ++ chunk)) := by
  cases h with
  | v1 _ _ _ hv1 => exact absurd hv1 hv2
  | doomed _ _ rejected _ _ hfeed hdelivered _ hdoomed _ =>
    -- more bytes do not change the verdict on the first ones
    have hempty : looksLikeWrongNetwork config (appendReceived [] inbox.transport) := by
      simpa [appendReceived] using hdoomed.2
    have hwrong : looksLikeWrongNetwork config (appendReceived chunk inbox.transport) :=
      looksLikeWrongNetwork_append chunk hempty
    rw [processReceived_of_wrongNetwork hdoomed.1 hwrong]
    exact ⟨rejected, feedBytes_append_of_error chunk hfeed, hdelivered⟩
  | agrees hfeed hmax =>
    have hchunk := feedBytes_append_of_ok chunk hfeed
    have houtcome : RoundOutcome config inbox chunk :=
      roundOutcome_of_length_le hnonempty hlength
    cases houtcome with
    | same hsame =>
      rw [hsame] at hchunk
      cases hround : processReceived config (appendReceived chunk inbox.transport) with
      | error t' =>
        rw [hround] at hchunk
        exact ⟨_, hchunk, rfl⟩
      | ok t' =>
        rw [hround] at hchunk
        exact reached_of_feedBytes hlength hnonempty hround hchunk
    | rejected t' inbox' hround herror hdelivered =>
      rw [hround]
      exact ⟨inbox', hchunk.trans herror, hdelivered⟩
    | doomed init byte inbox' hsplit hrecv hround hdoomed hinit herror hdelivered =>
      rw [hround]
      have hmoved := eq_moved_of_maybeV1 bytes inbox hfeed hrecv
      have hcontinues : Continues (appendReceived chunk inbox.transport).startV2 :=
        continues_of_round hnonempty hlength hround
      have htake : (inbox.moved (appendReceived chunk inbox.transport).startV2
          chunk).takeMessage config =
            inbox.moved (appendReceived chunk inbox.transport).startV2 chunk :=
        takeMessage_of_recvState RecvState.noConfusion RecvState.noConfusion
      change Reached config start _ _
      rw [htake]
      refine .doomed (bytes ++ init) byte inbox' ?_ ?_ (hchunk.trans herror) hdelivered ?_
        hdoomed (hcontinues.max RecvState.noConfusion RecvState.noConfusion)
      · rw [hsplit, List.append_assoc]
      · rw [feedBytes_append_of_ok init hfeed]
        exact hinit
      · rw [hmoved]
        simp [moved, appendReceived]

theorem receiveLoop_of_stop {fuel : ℕ}
    (hstop : chunk = [] ∨ t.recvState = .appReady ∨ t.recvState = .v1) :
    receiveLoop config fuel t chunk = .ok (t, chunk) := by
  cases fuel with
  | zero => rfl
  | succ fuel => rw [receiveLoop, if_pos hstop]

/-- What a call of `ReceivedBytes` returns when it accepts the bytes. -/
structure CallReturns (config : TransportConfig V1) (start inbox : Inbox V1) (bytes chunk : Bytes)
    (t' : V2Transport V1) (rest used : Bytes) : Prop where
  split : chunk = used ++ rest
  progress : chunk ≠ [] → used ≠ []
  reached : Reached config start ((inbox.moved t' used).takeMessage config) (bytes ++ used)
  stops : rest = [] ∨ t'.recvState = .appReady ∨ t'.recvState = .v1

/-- What it has consumed when it rejects them. -/
structure CallRejects (config : TransportConfig V1) (start inbox : Inbox V1) (bytes chunk : Bytes)
    (rest used : Bytes) (rejected : Inbox V1) : Prop where
  split : chunk = used ++ rest
  feedBytes : start.feedBytes config (bytes ++ used) = .error rejected
  delivered : rejected.delivered = inbox.delivered

theorem Reached.callReturns_nil (h : Reached config start inbox bytes)
    (hv2 : inbox.transport.recvState ≠ .v1) :
    CallReturns config start inbox bytes [] inbox.transport [] [] where
  split := rfl
  progress hnonempty := hnonempty
  reached := by
    have hready := (recvState_of_max_pos (h.max_pos hv2)).1
    rw [moved_nil, takeMessage_of_recvState hready hv2, List.append_nil]
    exact h
  stops := .inl rfl

theorem CallReturns.after {chunk rest used : Bytes} {first : Bytes}
    (h : CallReturns config start (inbox.moved middle first) (bytes ++ first) chunk t' rest used)
    (hnonempty : first ≠ []) :
    CallReturns config start inbox bytes (first ++ chunk) t' rest (first ++ used) where
  split := by rw [h.split, List.append_assoc]
  progress _ hempty := hnonempty (List.append_eq_nil_iff.mp hempty).1
  reached := by
    have hmoved : (inbox.moved middle first).moved t' used = inbox.moved t' (first ++ used) := by
      simp [moved]
    rw [← hmoved, ← List.append_assoc]
    exact h.reached
  stops := h.stops

theorem CallRejects.after {chunk rest used : Bytes} {first : Bytes}
    (h : CallRejects config start (inbox.moved middle first) (bytes ++ first) chunk rest used
      rejected) :
    CallRejects config start inbox bytes (first ++ chunk) rest (first ++ used) rejected where
  split := by rw [h.split, List.append_assoc]
  feedBytes := by
    rw [← List.append_assoc]
    exact h.feedBytes
  delivered := h.delivered

/-- What a call of `ReceivedBytes` on a chunk can do. -/
def CallOutcome (config : TransportConfig V1) (start inbox : Inbox V1) (bytes chunk : Bytes) :
    Except (V2Transport V1 × Bytes) (V2Transport V1 × Bytes) → Prop :=
  Except.Satisfies
    (fun result => ∃ used rejected,
      CallRejects config start inbox bytes chunk result.2 used rejected)
    (fun result => ∃ used, CallReturns config start inbox bytes chunk result.1 result.2 used)

theorem CallOutcome.after {chunk first : Bytes}
    {result : Except (V2Transport V1 × Bytes) (V2Transport V1 × Bytes)}
    (h : CallOutcome config start (inbox.moved middle first) (bytes ++ first) chunk result)
    (hnonempty : first ≠ []) : CallOutcome config start inbox bytes (first ++ chunk) result := by
  refine h.imp ?_ ?_
  · rintro result ⟨used, rejected, hrejects⟩
    exact ⟨first ++ used, rejected, hrejects.after⟩
  · rintro result ⟨used, hreturns⟩
    exact ⟨first ++ used, hreturns.after hnonempty⟩

/-- **The receive loop**, by induction on its rounds. -/
theorem Reached.receiveLoop (fuel : ℕ) :
    ∀ (inbox : Inbox V1) (bytes chunk : Bytes), Reached config start inbox bytes →
      inbox.transport.recvState ≠ .v1 → chunk.length ≤ fuel →
      CallOutcome config start inbox bytes chunk
        (receiveLoop config fuel inbox.transport chunk) := by
  induction fuel with
  | zero =>
    intro inbox bytes chunk h hv2 hfuel
    obtain rfl : chunk = [] := List.eq_nil_of_length_eq_zero (Nat.le_zero.mp hfuel)
    exact ⟨[], h.callReturns_nil hv2⟩
  | succ fuel ih =>
    intro inbox bytes chunk h hv2 hfuel
    have hmax := h.max_pos hv2
    have hready := (recvState_of_max_pos hmax).1
    by_cases hempty : chunk = []
    · subst hempty
      rw [receiveLoop_of_stop (.inl rfl)]
      exact ⟨[], h.callReturns_nil hv2⟩
    rw [Net.receiveLoop, if_neg (by simp [hempty, hready, hv2])]
    -- the bytes of this round, and those that are left for the next ones
    have hnonempty : chunk.take (getMaxBytesToProcess inbox.transport) ≠ [] := by
      simp [List.take_eq_nil_iff, hempty, hmax.ne']
    have hround := h.round hv2 hnonempty (List.length_take_le _ _)
    have hsplit := List.take_append_drop (getMaxBytesToProcess inbox.transport) chunk
    have hrest : (chunk.drop (getMaxBytesToProcess inbox.transport)).length ≤ fuel := by
      rw [List.length_drop]
      omega
    generalize chunk.drop (getMaxBytesToProcess inbox.transport) = rest at hsplit hrest ⊢
    generalize chunk.take (getMaxBytesToProcess inbox.transport) = first at *
    cases hprocess : processReceived config (appendReceived first inbox.transport) with
    | error t' =>
      rw [hprocess] at hround
      obtain ⟨rejected, hfeed, hdelivered⟩ := hround
      exact ⟨first, rejected, hsplit.symm, hfeed, hdelivered⟩
    | ok t' =>
      rw [hprocess] at hround
      change CallOutcome config start inbox bytes chunk (Net.receiveLoop config fuel t' rest)
      by_cases hstop : t'.recvState = .appReady ∨ t'.recvState = .v1
      · -- the message is taken, or the v1 transport goes on
        rw [receiveLoop_of_stop (.inr hstop)]
        exact ⟨first, hsplit.symm, fun _ => hnonempty, hround, .inr hstop⟩
      · rw [not_or] at hstop
        have htake : (inbox.moved t' first).takeMessage config = inbox.moved t' first :=
          takeMessage_of_recvState hstop.1 hstop.2
        have hmiddle : Reached config start (inbox.moved t' first) (bytes ++ first) :=
          htake ▸ hround
        rw [← hsplit]
        exact (ih (inbox.moved t' first) (bytes ++ first) rest hmiddle hstop.2 hrest).after
          hnonempty

/-! ## Chunks -/

theorem takeMessage_consumed : (inbox.takeMessage config).consumed = inbox.consumed := by
  rw [takeMessage]
  split_ifs <;> rfl

theorem feedByte_consumed {byte : UInt8} (hok : inbox.feedByte config byte = .ok inbox') :
    inbox'.consumed = inbox.consumed ++ [byte] := by
  rw [feedByte] at hok
  cases hround : processReceived config (appendReceived [byte] inbox.transport) with
  | error t =>
    rw [hround] at hok
    cases hok
  | ok t =>
    rw [hround] at hok
    obtain rfl := Except.ok.inj hok
    exact takeMessage_consumed

theorem feedBytes_consumed (bytes : Bytes) :
    ∀ start inbox : Inbox V1, start.feedBytes config bytes = .ok inbox →
      inbox.consumed = start.consumed ++ bytes := by
  induction bytes with
  | nil =>
    intro start inbox hok
    cases hok
    exact (List.append_nil _).symm
  | cons byte rest ih =>
    intro start inbox hok
    rw [feedBytes, List.foldlM_cons] at hok
    obtain ⟨middle, hfirst, hrest⟩ := Except.bind_eq_ok_iff.mp hok
    rw [ih middle inbox hrest, feedByte_consumed hfirst, List.append_assoc]
    rfl

theorem Reached.consumed (h : Reached config start inbox bytes)
    (hv2 : inbox.transport.recvState ≠ .v1) : inbox.consumed = start.consumed ++ bytes := by
  cases h with
  | agrees hfeed => exact feedBytes_consumed bytes start inbox hfeed
  | doomed _ _ _ _ _ _ _ hmoved =>
    rw [hmoved]
    rfl
  | v1 _ _ _ hv1 => exact absurd hv1 hv2

theorem feedLoop_v1 (fuel : ℕ) :
    ∀ (inbox : Inbox V1) (chunk : Bytes), inbox.transport.recvState = .v1 →
      (feedLoop config fuel inbox chunk).Satisfies (·.transport.recvState = .v1)
        (·.transport.recvState = .v1) := by
  induction fuel with
  | zero =>
    intro inbox chunk hv1
    exact hv1
  | succ fuel ih =>
    intro inbox chunk hv1
    rw [feedLoop, receivedBytes, if_pos hv1]
    split_ifs
    · exact hv1
    · rcases config.v1.receivedBytes inbox.transport.v1Fallback chunk with
        ⟨v1, rest⟩ | ⟨v1, rest⟩
      · exact hv1
      · exact ih _ _ (takeMessage_v1 hv1)

/-- A run that rejects.  One byte at a time, what it has consumed is rejected as well, unless it
is the v1 transport that rejects. -/
inductive Rejects (config : TransportConfig V1) (start : Inbox V1) (stream : Bytes)
    (rejected : Inbox V1) : Prop
  | v1 (other : Inbox V1) : start.feedBytes config stream = .ok other →
      other.transport.recvState = .v1 → rejected.transport.recvState = .v1 →
      Rejects config start stream rejected
  | v2 (used : Bytes) (other : Inbox V1) : used <+: stream →
      rejected.consumed = start.consumed ++ used →
      start.feedBytes config used = .error other → other.delivered = rejected.delivered →
      Rejects config start stream rejected

theorem Rejects.append {stream : Bytes} (h : Rejects config start stream rejected) (more : Bytes) :
    Rejects config start (stream ++ more) rejected := by
  cases h with
  | v1 other hfeed hother hv1 =>
    obtain ⟨later, hlater, hstays⟩ := feedBytes_v1 more other hother
    exact .v1 later ((feedBytes_append_of_ok more hfeed).trans hlater) hstays hv1
  | v2 used other hused hconsumed hfeed hdelivered =>
    exact .v2 used other (hused.trans (List.prefix_append _ _)) hconsumed hfeed hdelivered

theorem Reached.rejects (h : Reached config start inbox bytes)
    (hv1 : inbox.transport.recvState = .v1) (hrejected : rejected.transport.recvState = .v1) :
    Rejects config start bytes rejected := by
  cases h with
  | agrees _ hmax => exact absurd hv1 (recvState_of_max_pos hmax).2
  | doomed _ _ _ _ _ _ _ _ _ hmax => exact absurd hv1 (recvState_of_max_pos hmax).2
  | v1 other hfeed hother _ => exact .v1 other hfeed hother hrejected

theorem take_sub_length {chunk used rest : Bytes} (hsplit : chunk = used ++ rest) :
    chunk.take (chunk.length - rest.length) = used := by
  rw [hsplit, List.length_append, Nat.add_sub_cancel, List.take_left]

/-- The loop of `ReceiveMsgBytes`, by induction on its calls. -/
theorem Reached.feedLoop (fuel : ℕ) :
    ∀ (inbox : Inbox V1) (bytes chunk : Bytes), Reached config start inbox bytes →
      chunk.length ≤ fuel →
      (feedLoop config fuel inbox chunk).Satisfies (Rejects config start (bytes ++ chunk))
        (fun inbox' => Reached config start inbox' (bytes ++ chunk)) := by
  induction fuel with
  | zero =>
    intro inbox bytes chunk h hfuel
    obtain rfl : chunk = [] := List.eq_nil_of_length_eq_zero (Nat.le_zero.mp hfuel)
    rw [List.append_nil]
    exact h
  | succ fuel ih =>
    intro inbox bytes chunk h hfuel
    by_cases hv1 : inbox.transport.recvState = .v1
    · exact (feedLoop_v1 _ inbox chunk hv1).imp
        (fun _ hv1' => (h.rejects hv1 hv1').append chunk)
        (fun _ hv1' => h.stays_v1 hv1 hv1' chunk)
    rw [Inbox.feedLoop]
    by_cases hempty : chunk = []
    · rw [if_pos hempty, hempty, List.append_nil]
      exact h
    · have hcall := h.receiveLoop chunk.length inbox bytes chunk hv1 le_rfl
      rw [if_neg hempty, receivedBytes, if_neg hv1]
      revert hcall
      rcases Net.receiveLoop config chunk.length inbox.transport chunk with
        ⟨t', rest⟩ | ⟨t', rest⟩
      · rintro ⟨used, rejected, hrejects⟩
        refine .v2 (bytes ++ used) rejected ?_ ?_ hrejects.feedBytes hrejects.delivered
        · rw [hrejects.split, ← List.append_assoc]
          exact List.prefix_append _ _
        · change inbox.consumed ++ chunk.take (chunk.length - rest.length) = _
          rw [take_sub_length hrejects.split, h.consumed hv1, List.append_assoc]
      · rintro ⟨used, hreturns⟩
        have hsplit : chunk = used ++ rest := hreturns.split
        have hshorter : rest.length ≤ fuel := by
          have hused : 0 < used.length := List.length_pos_iff.mpr (hreturns.progress hempty)
          rw [hsplit, List.length_append] at hfuel
          omega
        have hnext := ih _ _ rest hreturns.reached hshorter
        rw [List.append_assoc, ← hsplit] at hnext
        change Except.Satisfies _ _ (Inbox.feedLoop config fuel
          ((inbox.moved t' (chunk.take (chunk.length - rest.length))).takeMessage config) rest)
        rw [take_sub_length hsplit]
        exact hnext

theorem Reached.feedAll (chunks : List Bytes) :
    ∀ (inbox : Inbox V1) (bytes : Bytes), Reached config start inbox bytes →
      (feedAll config inbox chunks).Satisfies (Rejects config start (bytes ++ chunks.flatten))
        (fun inbox' => Reached config start inbox' (bytes ++ chunks.flatten)) := by
  induction chunks with
  | nil =>
    intro inbox bytes h
    rw [List.flatten_nil, List.append_nil]
    exact h
  | cons chunk rest ih =>
    intro inbox bytes h
    have hlonger : ∀ rejected, Rejects config start (bytes ++ chunk) rejected →
        Rejects config start (bytes ++ (chunk :: rest).flatten) rejected := by
      intro rejected hrejects
      rw [List.flatten_cons, ← List.append_assoc]
      exact hrejects.append rest.flatten
    rw [Inbox.feedAll, List.foldlM_cons]
    refine ((h.feedLoop chunk.length inbox bytes chunk le_rfl).imp hlonger fun _ => id).bind ?_
    intro middle hmiddle
    have hnext := ih middle (bytes ++ chunk) hmiddle
    rw [List.append_assoc, ← List.flatten_cons] at hnext
    exact hnext

theorem max_pos_new : 0 < getMaxBytesToProcess (V2Transport.new config) := by
  cases hinitiating : config.initiating <;>
    simp [V2Transport.new, startSendingHandshake, getMaxBytesToProcess, hinitiating] <;> decide

/-- Any way to cut a stream, from a new transport on. -/
theorem reached_of_feedAll (config : TransportConfig V1) (chunks : List Bytes) :
    (feedAll config (Inbox.new config) chunks).Satisfies
      (Rejects config (Inbox.new config) chunks.flatten)
      (fun inbox => Reached config (Inbox.new config) inbox chunks.flatten) :=
  Reached.feedAll chunks (Inbox.new config) [] (.agrees rfl max_pos_new)

theorem Reached.eq (h : Reached config start inbox bytes) (h' : Reached config start inbox' bytes)
    (hv2 : inbox.transport.recvState ≠ .v1) : inbox' = inbox := by
  cases h' with
  | v1 other hfeed' hother _ =>
    cases h with
    | v1 _ _ _ hv1 => exact absurd hv1 hv2
    | agrees hfeed =>
      rw [hfeed] at hfeed'
      cases hfeed'
      exact absurd hother hv2
    | doomed _ _ _ _ _ herror =>
      rw [hfeed'] at herror
      cases herror
  | agrees hfeed' =>
    cases h with
    | v1 _ _ _ hv1 => exact absurd hv1 hv2
    | agrees hfeed => exact Except.ok.inj (hfeed'.symm.trans hfeed)
    | doomed _ _ _ _ _ herror =>
      rw [hfeed'] at herror
      cases herror
  | doomed _ _ _ _ _ herror' _ hmoved' =>
    cases h with
    | v1 _ _ _ hv1 => exact absurd hv1 hv2
    | agrees hfeed =>
      rw [hfeed] at herror'
      cases herror'
    | doomed _ _ _ _ _ _ _ hmoved => exact hmoved'.trans hmoved.symm

/-- What is rejected one byte at a time is rejected by every run that gets more than it. -/
theorem not_reached_of_error {used stream : Bytes}
    (herror : start.feedBytes config used = .error rejected) (hbegins : used <+: stream)
    (hlonger : used.length < stream.length) : ¬Reached config start inbox stream := by
  have hstream : start.feedBytes config stream = .error rejected := by
    obtain ⟨more, rfl⟩ := hbegins
    exact feedBytes_append_of_error more herror
  intro h
  cases h with
  | v1 other hfeed =>
    rw [hstream] at hfeed
    cases hfeed
  | agrees hfeed =>
    rw [hstream] at hfeed
    cases hfeed
  | doomed init byte _ hsplit hinit =>
    -- the byte that dooms the run is the last one, so `used` is accepted
    subst hsplit
    rw [List.length_append, List.length_singleton] at hlonger
    obtain ⟨more, rfl⟩ := List.prefix_of_prefix_length_le hbegins (List.prefix_append _ _)
      (Nat.le_of_lt_succ hlonger)
    rw [feedBytes_append_of_error more herror] at hinit
    cases hinit

theorem Rejects.delivered_eq {used stream : Bytes} {other rejected : Inbox V1}
    (h : Rejects config start stream rejected)
    (herror : start.feedBytes config used = .error other) (hbegins : used <+: stream) :
    rejected.delivered = other.delivered := by
  have hstream : start.feedBytes config stream = .error other := by
    obtain ⟨more, rfl⟩ := hbegins
    exact feedBytes_append_of_error more herror
  cases h with
  | v1 _ hfeed =>
    rw [hstream] at hfeed
    cases hfeed
  | v2 used' other' hused' _ herror' hdelivered =>
    obtain ⟨more, rfl⟩ := hused'
    rw [feedBytes_append_of_error more herror'] at hstream
    obtain rfl := Except.error.inj hstream
    exact hdelivered.symm

/-- **Chunks do not matter.** For a stream that does not lead to the v1 fallback: two runs that
accept it end in the same state with the same messages delivered, and if a run rejects what it has
consumed, then every run that gets this and at least one more byte rejects, and has delivered the
same messages. -/
theorem chunking_independent (config : TransportConfig V1) (chunks chunks' : List Bytes) :
    (∀ inbox inbox', chunks.flatten = chunks'.flatten →
      feedAll config (Inbox.new config) chunks = .ok inbox →
      feedAll config (Inbox.new config) chunks' = .ok inbox' →
      inbox.transport.recvState ≠ .v1 → inbox' = inbox) ∧
    (∀ rejected, feedAll config (Inbox.new config) chunks = .error rejected →
      rejected.transport.recvState ≠ .v1 → rejected.consumed <+: chunks'.flatten →
      rejected.consumed.length < chunks'.flatten.length →
      ∃ rejected', feedAll config (Inbox.new config) chunks' = .error rejected' ∧
        rejected'.delivered = rejected.delivered) := by
  have hrun := reached_of_feedAll config chunks
  have hrun' := reached_of_feedAll config chunks'
  constructor
  · intro inbox inbox' hsame hok hok' hv2
    rw [hok] at hrun
    rw [hok', ← hsame] at hrun'
    exact Reached.eq hrun hrun' hv2
  · intro rejected herror hv2 hbegins hlonger
    rw [herror] at hrun
    -- the rejected bytes, one at a time
    obtain ⟨other, hfeed, hdelivered⟩ : ∃ other,
        (Inbox.new config).feedBytes config rejected.consumed = .error other ∧
          other.delivered = rejected.delivered := by
      cases hrun with
      | v1 _ _ _ hv1 => exact absurd hv1 hv2
      | v2 used other _ hconsumed hfeed hdelivered =>
        have hused : rejected.consumed = used := hconsumed
        exact ⟨other, hused ▸ hfeed, hdelivered⟩
    cases hresult : feedAll config (Inbox.new config) chunks' with
    | ok inbox' =>
      rw [hresult] at hrun'
      exact absurd hrun' (not_reached_of_error hfeed hbegins hlonger)
    | error rejected' =>
      rw [hresult] at hrun'
      exact ⟨rejected', rfl, (Rejects.delivered_eq hrun' hfeed hbegins).trans hdelivered⟩

/-- The peer that accepts the offer, in one chunk and in two. -/
theorem acceptingPeer_cut : ∃ inbox : Inbox Unit,
    feedAll (clearConfig false .require 2) (Inbox.new (clearConfig false .require 2))
      [acceptingPeer] = .ok inbox ∧
    feedAll (clearConfig false .require 2) (Inbox.new (clearConfig false .require 2))
      [acceptingPeer.take 20, acceptingPeer.drop 20] = .ok inbox ∧
    inbox.delivered.length = 1 := by
  have hwhole : (feedAll (clearConfig false .require 2) (Inbox.new (clearConfig false .require 2))
      [acceptingPeer]).toOption.any (fun inbox => decide (inbox.delivered.length = 1) &&
        decide (inbox.transport.recvState ≠ .v1)) = true := by decide +kernel
  have hcut : (feedAll (clearConfig false .require 2) (Inbox.new (clearConfig false .require 2))
      [acceptingPeer.take 20, acceptingPeer.drop 20]).isOk = true := by decide +kernel
  simp only [Option.any_eq_true, Bool.and_eq_true, decide_eq_true_eq] at hwhole
  obtain ⟨inbox, hinbox, hlength, hv2⟩ := hwhole
  obtain ⟨inbox', hinbox'⟩ := Except.isOk_iff_exists.mp hcut
  have hok : feedAll (clearConfig false .require 2) (Inbox.new (clearConfig false .require 2))
      [acceptingPeer] = .ok inbox := by
    cases hresult : feedAll (clearConfig false .require 2)
        (Inbox.new (clearConfig false .require 2)) [acceptingPeer] with
    | error rejected =>
      rw [hresult] at hinbox
      cases hinbox
    | ok other =>
      rw [hresult] at hinbox
      cases hinbox
      rfl
  have hsame := (chunking_independent (clearConfig false .require 2) [acceptingPeer]
    [acceptingPeer.take 20, acceptingPeer.drop 20]).1 inbox inbox' (by simp) hok hinbox' hv2
  exact ⟨inbox, hok, hsame ▸ hinbox', hlength⟩

end Inbox

end XCoin.Net
