import BoostPractice.RpcSessionStreamProofs
import BoostPractice.RpcSessionIdProofs

/-! # Envelopes that do not parse

    `rpc_codec::on_read` does not look at what `ParseFromArray` returns: a
    payload that is no `RpcMessage` reaches `on_rpc_callback` as the message
    that was filled up to the error.  The request inside an envelope is
    checked, and so is the checksum around it.

    Nothing is assumed of the parser but that it is a function: `undispatched_iff`
    says for which of the half-filled messages nothing is dispatched. -/

namespace RpcSessionEnvelope

open MachineInt FrameDecoding BoostBuffer RpcMessages RpcCodecRead RpcCodecSend RpcSession
open RpcSessionStream RpcSessionId

variable {Msg : Type}

/-- The frame of a payload, with its length and its checksum. -/
def payloadFrame (adler32 : Bytes → UInt32) (payload : Bytes) : Bytes :=
  int32Bytes (Int32.ofNat (payload.length + 4)) ++ payload ++
    int32Bytes (adler32 payload).toInt32

/-- Received bytes, from the codec's buffer through the session. -/
def handleBytes (P : Protobuf RpcMessage) (adler32 : Bytes → UInt32) (b : Buffer)
    (s : Session Msg) (chunks : List Bytes) : Except Fault (Session Msg × List (Effect Msg)) :=
  handleCallbacks s (feed (onRead P adler32) b chunks).1

/-- A service is called, or a closure of a call is run. -/
def isDispatched : Effect Msg → Bool
  | .invoke _ _ _ _ => true
  | .run _ => true
  | _ => false

/-- **UNDISPATCHED**: no service handler is invoked, no closure is run, and
    the pending calls are what they were. -/
def Undispatched (s : Session Msg)
    (handled : Except Fault (Session Msg × List (Effect Msg))) : Prop :=
  ∃ s' effects, handled = .ok (s', effects) ∧ (∀ e ∈ effects, isDispatched e = false) ∧
    s'.reqCallbacks = s.reqCallbacks

/-- A message that makes the session do nothing but send an error reply. -/
def Inert (s : Session Msg) (m : RpcMessage) : Prop :=
  (∀ inv, ¬ Asks s.services m inv) ∧
    (m.type = .response → s.reqCallbacks (uint64ToInt32 m.id) = none)

/-- A frame with a payload of any content is handed on as the message that
    parsing leaves. -/
theorem handleBytes_payloadFrame (P : Protobuf RpcMessage) (adler32 : Bytes → UInt32)
    {b : Buffer} (hb : b.content = []) (s : Session Msg) {payload : Bytes}
    (hsize : payload.length ≤ 2 ^ 31 - 5) {chunks : List Bytes}
    (hcut : chunks.flatten = payloadFrame adler32 payload) :
    handleBytes P adler32 b s chunks
      = onRpcCallback s (some (P.parseFromArray payload).1) .kNoError := by
  have hlen : (Int32.ofNat (payload.length + 4)).toInt = (payload.length + 4 : Nat) :=
    Int32.toInt_ofNat_of_lt (by omega)
  have hnext := loopNext_payload P adler32 hlen []
  have hobs := observe_feed_idle P adler32 hb chunks
  rw [List.append_nil] at hnext
  rw [hcut, payloadFrame, (loopGrammar P adler32).decode_frame hnext] at hobs
  have hcallbacks : (feed (onRead P adler32) b chunks).1
      = [⟨some (P.parseFromArray payload).1, .kNoError⟩] := congrArg Prod.fst hobs
  rw [handleBytes, hcallbacks, handleCallbacks]
  cases onRpcCallback s (some (P.parseFromArray payload).1) .kNoError with
  | error fault => rfl
  | ok handled =>
      simp only [handleCallbacks, List.append_nil]

/-- Only an inert message leaves the pending calls and calls no service. -/
theorem undispatched_message_iff (s : Session Msg) (m : RpcMessage) :
    Undispatched s (onRpcCallback s (some m) .kNoError) ↔ Inert s m := by
  by_cases hres : m.type = .response
  · -- a RESPONSE asks for nothing, and completes the call that it names
    have hasks : ∀ inv, ¬ Asks s.services m inv := fun inv hinv =>
      absurd (hinv.request.symm.trans hres) (by decide)
    cases hentry : s.reqCallbacks (uint64ToInt32 m.id) with
    | none =>
        refine iff_of_true ?_ ⟨hasks, fun _ => hentry⟩
        exact ⟨s, [], onRpcCallback_unknown s hres hentry, nofun, rfl⟩
    | some entry =>
        constructor
        · rintro ⟨s', effects, hok, -, hsame⟩
          rw [onRpcCallback_pending s hres hentry] at hok
          obtain ⟨rfl, -⟩ := Prod.mk.inj (Except.ok.inj hok)
          have hnone := congrFun hsame (uint64ToInt32 m.id)
          rw [hentry] at hnone
          simp only [Function.update_self] at hnone
          cases hnone
        · intro hinert
          have hnone := hinert.2 hres
          rw [hentry] at hnone
          cases hnone
  · obtain ⟨effects, hok, hhandled⟩ := onRpcCallback_handled s hres
    rw [hok]
    constructor
    · rintro ⟨s', effects', heq, hnone, -⟩
      obtain ⟨rfl, rfl⟩ := Prod.mk.inj (Except.ok.inj heq)
      refine ⟨?_, fun h => absurd h hres⟩
      intro inv hinv
      cases hhandled with
      | invoked inv' _ =>
          have hfalse := hnone _ (List.mem_singleton_self _)
          cases hfalse
      | rejected errorCode rejects => exact hinv.not_rejects rejects
      | ignored other => exact other hinv.request
    · rintro ⟨hasks, -⟩
      refine ⟨s, effects, rfl, ?_, rfl⟩
      cases hhandled with
      | invoked inv asks => exact absurd asks (hasks inv)
      | rejected errorCode _ =>
          intro e he
          rw [List.mem_singleton.mp he]
          rfl
      | ignored _ =>
          intro e he
          cases he

/-- **ENVELOPES THAT DO NOT PARSE, EXACTLY**: a frame with a correct
    checksum, in any pieces, is not dispatched when its payload does not parse
    if and only if it does parse or the message left behind is inert. -/
theorem undispatched_iff (P : Protobuf RpcMessage) (adler32 : Bytes → UInt32) (s : Session Msg)
    {b : Buffer} (hb : b.content = []) {payload : Bytes} (hsize : payload.length ≤ 2 ^ 31 - 5)
    {chunks : List Bytes} (hcut : chunks.flatten = payloadFrame adler32 payload) :
    ((P.parseFromArray payload).2 = false →
        Undispatched s (handleBytes P adler32 b s chunks)) ↔
      ((P.parseFromArray payload).2 = true ∨ Inert s (P.parseFromArray payload).1) := by
  rw [handleBytes_payloadFrame P adler32 hb s hsize hcut, undispatched_message_iff]
  cases (P.parseFromArray payload).2 with
  | true => exact iff_of_true nofun (.inl rfl)
  | false =>
      constructor
      · exact fun h => .inr (h rfl)
      · rintro (h | h)
        · cases h
        · exact fun _ => h

/-- A session with the echo service that waits for the answer of a call. -/
def callingSession : Session RpcMessage :=
  (callMethod (Session.new.setServices (registerServices [echoService])) 0 echoMethod
    RpcMessage.new true true).1

/-- A RESPONSE to another call, and a byte behind it that is no field. -/
def brokenResponse : Bytes :=
  rpcProto.serialize { RpcMessage.new with type := .response, id := 7 } ++ [15]

/-- It does not parse, and the call goes on waiting. -/
theorem broken_response_undispatched :
    (rpcProto.parseFromArray brokenResponse).2 = false ∧
      (callingSession.reqCallbacks 0).isSome = true ∧
      Undispatched callingSession (handleBytes rpcProto zlibAdler32 inputBuffer callingSession
        [(payloadFrame zlibAdler32 brokenResponse).take 9,
          (payloadFrame zlibAdler32 brokenResponse).drop 9]) := by
  have hfails : (rpcProto.parseFromArray brokenResponse).2 = false := by decide +kernel
  have hleft : (rpcProto.parseFromArray brokenResponse).1
      = { RpcMessage.new with type := .response, id := 7 } := by
    decide +kernel
  have hinert : Inert callingSession (rpcProto.parseFromArray brokenResponse).1 := by
    rw [hleft]
    exact ⟨fun inv hinv => absurd hinv.request (by decide), fun _ => rfl⟩
  have hcut : [(payloadFrame zlibAdler32 brokenResponse).take 9,
      (payloadFrame zlibAdler32 brokenResponse).drop 9].flatten
        = payloadFrame zlibAdler32 brokenResponse := by
    decide +kernel
  exact ⟨hfails, rfl, (undispatched_iff rpcProto zlibAdler32 callingSession
    (Buffer.content_new _) (by decide +kernel) hcut).mpr (.inr hinert) hfails⟩

/-- A REQUEST to the echo service with one such byte behind it. -/
def brokenRequest : Bytes := rpcProto.serialize (echoRequest 7) ++ [15]

/-- It does not parse, and the echo service is invoked. -/
theorem broken_request_dispatched :
    (rpcProto.parseFromArray brokenRequest).2 = false ∧
      ¬ Undispatched (Session.new.setServices (registerServices [echoService]))
        (handleBytes rpcProto zlibAdler32 inputBuffer
          (Session.new.setServices (registerServices [echoService]))
          [payloadFrame zlibAdler32 brokenRequest]) := by
  have hleft : (rpcProto.parseFromArray brokenRequest).1 = echoRequest 7 := by
    decide +kernel
  have hidle : inputBuffer.content = [] := Buffer.content_new _
  refine ⟨by decide +kernel, ?_⟩
  rw [handleBytes_payloadFrame rpcProto zlibAdler32 hidle _ (by decide +kernel)
    (List.append_nil _), hleft, undispatched_message_iff]
  exact fun h => h.1 _ (echoRequest_asks 7)

end RpcSessionEnvelope
