import XCoin.Lib.ExceptRun
import XCoin.Net.V2Transport

/-!
# Runs of a transport

A transport as its caller drives it: any sequence of calls that the interface allows.
Bytes are not fed after `ReceivedBytes` returned `false`, and a message is taken only
when one is complete.  The remaining calls of the interface do not change the state.

An invariant of all runs is one of every step (`Inductive`); the receive loop is taken
apart once, here.
-/

namespace XCoin.Net

open V2Transport

variable {V1 : Type} {config : TransportConfig V1}

/-! ## Calls -/

/-- A call that changes the transport. -/
inductive TransportCall where
  | receivedBytes (bytes : Bytes)
  | getReceivedMessage
  | setMessageToSend (msg : NetMsg)
  | markBytesSent (bytesSent : ℕ)
deriving DecidableEq, Repr

/-- A transport and whether `ReceivedBytes` has returned `false` on it. -/
structure Endpoint (V1 : Type) where
  transport : V2Transport V1
  rejected : Bool

/-- The transport after its constructor. -/
def Endpoint.new (config : TransportConfig V1) : Endpoint V1 := ⟨.new config, false⟩

/-- What `ReceivedBytes` leaves behind. -/
def endpointAfter : Except (V2Transport V1 × Bytes) (V2Transport V1 × Bytes) → Endpoint V1
  | .error (t, _) => ⟨t, true⟩
  | .ok (t, _) => ⟨t, false⟩

/-- One call; `none` if the interface does not allow it now. -/
def Endpoint.call (config : TransportConfig V1) (e : Endpoint V1) :
    TransportCall → Option (Endpoint V1)
  | .receivedBytes bytes =>
    if e.rejected then none else some (endpointAfter (receivedBytes config e.transport bytes))
  | .getReceivedMessage =>
    if receivedMessageComplete config e.transport then
      some { e with transport := (getReceivedMessage config e.transport).2 }
    else none
  | .setMessageToSend msg =>
    some { e with transport := (setMessageToSend config msg e.transport).getD e.transport }
  | .markBytesSent bytesSent =>
    some { e with transport := markBytesSent config bytesSent e.transport }

/-- A sequence of calls. -/
def Endpoint.calls (config : TransportConfig V1) (e : Endpoint V1) (calls : List TransportCall) :
    Option (Endpoint V1) :=
  calls.foldlM (Endpoint.call config) e

/-! ## Invariants -/

/-- `P` holds of a new transport and every step keeps it, whether it fails or not. -/
structure Inductive (config : TransportConfig V1) (P : V2Transport V1 → Prop) : Prop where
  new : P (.new config)
  append : ∀ bytes t, P t → P (appendReceived bytes t)
  process : ∀ t, P t → (processReceived config t).Satisfies P P
  fallback : ∀ t v1, t.recvState = .v1 ∨ t.sendState = .v1 → P t → P { t with v1Fallback := v1 }
  take : ∀ t, t.recvState = .appReady → P t →
    P { t with recvDecodeBuffer := [], recvState := .app }
  set : ∀ msg t t', t.sendState ≠ .v1 → setMessageToSend config msg t = some t' → P t → P t'
  mark : ∀ bytesSent t, t.sendState ≠ .v1 → P t → P (markBytesSent config bytesSent t)

variable {P : V2Transport V1 → Prop}

theorem receiveLoop_satisfies (happend : ∀ bytes t, P t → P (appendReceived bytes t))
    (hprocess : ∀ t, P t → (processReceived config t).Satisfies P P) (fuel : ℕ) :
    ∀ t bytes, P t → (receiveLoop config fuel t bytes).Satisfies (P ·.1) (P ·.1) := by
  induction fuel with
  | zero =>
    intro t bytes ht
    exact ht
  | succ fuel ih =>
    intro t bytes ht
    rw [receiveLoop]
    by_cases hstop : bytes = [] ∨ t.recvState = .appReady ∨ t.recvState = .v1
    · rw [if_pos hstop]
      exact ht
    · rw [if_neg hstop]
      have hround := hprocess _ (happend (bytes.take (getMaxBytesToProcess t)) t ht)
      revert hround
      cases processReceived config (appendReceived (bytes.take (getMaxBytesToProcess t)) t) with
      | error t' =>
        intro hround
        exact hround
      | ok t' =>
        intro hround
        exact ih t' _ hround

theorem receivedBytes_satisfies (happend : ∀ bytes t, P t → P (appendReceived bytes t))
    (hprocess : ∀ t, P t → (processReceived config t).Satisfies P P)
    (hfallback : ∀ t v1, t.recvState = .v1 → P t → P { t with v1Fallback := v1 })
    (t : V2Transport V1) (bytes : Bytes) (ht : P t) :
    P (endpointAfter (receivedBytes config t bytes)).transport := by
  rw [receivedBytes]
  by_cases hv1 : t.recvState = .v1
  · rw [if_pos hv1]
    rcases config.v1.receivedBytes t.v1Fallback bytes with ⟨v1, rest⟩ | ⟨v1, rest⟩
    · exact hfallback t v1 hv1 ht
    · exact hfallback t v1 hv1 ht
  · rw [if_neg hv1]
    have hloop := receiveLoop_satisfies happend hprocess bytes.length t bytes ht
    revert hloop
    rcases receiveLoop config bytes.length t bytes with ⟨t', rest⟩ | ⟨t', rest⟩
    · exact id
    · exact id

theorem Inductive.receivedBytes (hP : Inductive config P) (t : V2Transport V1) (bytes : Bytes)
    (ht : P t) : P (endpointAfter (receivedBytes config t bytes)).transport :=
  receivedBytes_satisfies hP.append hP.process
    (fun t v1 hv1 => hP.fallback t v1 (.inl hv1)) t bytes ht

theorem Inductive.getReceivedMessage (hP : Inductive config P) (t : V2Transport V1)
    (hcomplete : receivedMessageComplete config t = true) (ht : P t) :
    P (getReceivedMessage config t).2 := by
  by_cases hv1 : t.recvState = .v1
  · rw [Net.getReceivedMessage, if_pos hv1]
    exact hP.fallback t _ (.inl hv1) ht
  · rw [receivedMessageComplete, if_neg hv1, decide_eq_true_iff] at hcomplete
    rw [Net.getReceivedMessage, if_neg hv1]
    exact hP.take t hcomplete ht

theorem Inductive.setMessageToSend (hP : Inductive config P) (msg : NetMsg) (t : V2Transport V1)
    (ht : P t) : P ((setMessageToSend config msg t).getD t) := by
  by_cases hv1 : t.sendState = .v1
  · rw [Net.setMessageToSend, if_pos hv1]
    cases config.v1.setMessageToSend t.v1Fallback msg with
    | none => exact ht
    | some v1 => exact hP.fallback t v1 (.inr hv1) ht
  · cases hset : Net.setMessageToSend config msg t with
    | none => exact ht
    | some t' => exact hP.set msg t t' hv1 hset ht

theorem Inductive.markBytesSent (hP : Inductive config P) (bytesSent : ℕ) (t : V2Transport V1)
    (ht : P t) : P (markBytesSent config bytesSent t) := by
  by_cases hv1 : t.sendState = .v1
  · rw [Net.markBytesSent, if_pos hv1]
    exact hP.fallback t _ (.inr hv1) ht
  · exact hP.mark bytesSent t hv1 ht

theorem Inductive.call (hP : Inductive config P) {e e' : Endpoint V1} {call : TransportCall}
    (hcall : e.call config call = some e') (he : P e.transport) : P e'.transport := by
  cases call with
  | receivedBytes bytes =>
    simp only [Endpoint.call, Option.ite_none_left_eq_some, Option.some.injEq] at hcall
    obtain ⟨-, rfl⟩ := hcall
    exact hP.receivedBytes e.transport bytes he
  | getReceivedMessage =>
    simp only [Endpoint.call, Option.ite_none_right_eq_some, Option.some.injEq] at hcall
    obtain ⟨hcomplete, rfl⟩ := hcall
    exact hP.getReceivedMessage e.transport hcomplete he
  | setMessageToSend msg =>
    simp only [Endpoint.call, Option.some.injEq] at hcall
    subst hcall
    exact hP.setMessageToSend msg e.transport he
  | markBytesSent bytesSent =>
    simp only [Endpoint.call, Option.some.injEq] at hcall
    subst hcall
    exact hP.markBytesSent bytesSent e.transport he

/-- **Invariants of runs.** What every step keeps holds after every sequence of calls. -/
theorem Inductive.calls (hP : Inductive config P) (calls : List TransportCall) :
    ∀ e e' : Endpoint V1, e.calls config calls = some e' → P e.transport → P e'.transport := by
  induction calls with
  | nil =>
    intro e e' hrun he
    cases hrun
    exact he
  | cons call rest ih =>
    intro e e' hrun he
    rw [Endpoint.calls, List.foldlM_cons] at hrun
    obtain ⟨middle, hcall, hrest⟩ := Option.bind_eq_some_iff.mp hrun
    exact ih middle e' hrest (hP.call hcall he)

end XCoin.Net
