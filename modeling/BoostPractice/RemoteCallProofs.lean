import BoostPractice.RpcSessionStreamProofs

/-! # A remote call, from `CallMethod` to the closure

    The client's `CallMethod`, the frame of the REQUEST, dispatch on the
    server, the service's answer through `done_callback`, the frame of the
    RESPONSE and the client's response path, put together.  The connection is
    intact: each side receives the bytes the other one sent, cut in any way.

    `call_completes_iff` says for which calls the client gets the value the
    service computed: all those that fit a frame and whose response is not
    encoded by the empty string.  Protobuf's code `P` for `RpcMessage` is a
    parameter; what is used of it is that it parses back the two messages of
    the call. -/

namespace RemoteCall

open MachineInt FrameDecoding BoostBuffer RpcMessages RpcCodecRead RpcCodecSend RpcSession
open RpcSessionStream

variable {Msg : Type} (P : Protobuf RpcMessage)

/-- The bytes `send_rpc_msg` builds for a message, in the pieces in which
    they arrive. -/
def Arrives (adler32 : Bytes → UInt32) (m : RpcMessage) (chunks : List Bytes) : Prop :=
  BuiltFrame P adler32 m chunks.flatten

/-- The two ends of a connection, each with its session and what it has
    buffered of the next frame. -/
structure Connection (Msg : Type) where
  client : Session Msg
  server : Session Msg
  clientBuffer : Buffer
  serverBuffer : Buffer

/-- **THE CALL COMPLETES**: however the request arrives, the server invokes
    exactly this method of this service, once, with the request; and when the
    service has run its closure once with `f request`, then however the reply
    arrives, `f request` is parsed into the call's response object and the
    call's closure runs, once. -/
def Completes (adler32 : Bytes → UInt32) (c : Connection Msg) (call : Nat) (service : Service Msg)
    (method : MethodDescriptor Msg) (f : Msg → Msg) (request : Msg) : Prop :=
  ∃ client m, callMethod c.client call method request true true = (client, [.send m]) ∧
    ∀ sent, Arrives P adler32 m sent →
      ∃ id, handleChunks P adler32 c.serverBuffer c.server sent
          = .ok (c.server, [.invoke service method request id]) ∧
        ∀ replied,
          Arrives P adler32 (doneCallback method.responsePrototype (f request) id) replied →
          ∃ client', handleChunks P adler32 c.clientBuffer client replied
            = .ok (client', [.parse call (f request), .run call])

/-- A frame that arrives is a message handled; one that is too long is
    nothing at all. -/
theorem handleChunks_arrives {adler32 : Bytes → UInt32} {b : Buffer} (hb : b.content = [])
    (s : Session Msg) {m : RpcMessage} (hback : P.ParsesBack m)
    (hmem : (P.serialize m).length < 2 ^ 31)
    {chunks : List Bytes} (h : Arrives P adler32 m chunks) :
    handleChunks P adler32 b s chunks
      = if (P.serialize m).length ≤ 2 ^ 31 - 5 then
          handleCallbacks s [⟨some m, .kNoError⟩]
        else .ok (s, []) := by
  have hcut : chunks.flatten = frame P adler32 m := (builtFrame_iff P adler32 m _).mp h
  rw [handleChunks]
  split
  · next hsize =>
      rw [feed_built_frame P adler32 hb hsize hback hcut]
  · next hsize =>
      rw [feed_oversized_frame P adler32 hb (Nat.lt_of_not_le hsize) hmem hcut]
      rfl

/-- One message handled. -/
theorem handleCallbacks_one {s s' : Session Msg} {m : RpcMessage} {effects : List (Effect Msg)}
    (h : onRpcCallback s (some m) .kNoError = .ok (s', effects)) :
    handleCallbacks s [⟨some m, .kNoError⟩] = .ok (s', effects) := by
  rw [handleCallbacks, h]
  simp only [handleCallbacks, List.append_nil]

/-! ## The server's side -/

/-- A REQUEST for a registered method is invoked with the request sent. -/
theorem onRpcCallback_request {services : List (Service Msg)}
    (hnames : (services.map Service.fullName).Nodup) {service : Service Msg}
    (hservice : service ∈ services) {method : MethodDescriptor Msg}
    (hmethod : method ∈ service.methods) {request : Msg}
    (hparse : method.requestPrototype.ParsesBack request) {server : Session Msg}
    (hserver : server.services = some (registerServices services)) (id : Int32) :
    onRpcCallback server (some (requestMessage method request id)) .kNoError
      = .ok (server, [.invoke service method request id]) := by
  have hname : registerServices services method.service = some service := by
    rw [service.methods_service method hmethod]
    exact registerServices_fullName hnames hservice
  have hdispatch : dispatch server.services (requestMessage method request id)
      = (.noError, [.invoke service method request id]) := by
    have hparse' : method.requestPrototype.parseFromArray
        (method.requestPrototype.serialize request) = (request, true) := hparse
    rw [hserver]
    simp only [dispatch, requestMessage, hname, service.findMethodByName_name hmethod, hparse',
      if_true, uint64ToInt32_int32ToUInt64]
  rw [onRpcCallback, if_neg (fun h => h rfl)]
  show Except.map _ (errorReply (some (requestMessage method request id)) _) = _
  rw [hdispatch]
  rfl

/-! ## The client's side -/

/-- The reply of a service that answered `value` to the latest call. -/
theorem onRpcCallback_reply (client : Session Msg) (call : Nat) (method : MethodDescriptor Msg)
    {value : Msg} (hparse : method.responsePrototype.ParsesBack value) :
    ∃ client', onRpcCallback
        (client.fetchAdd.register client.id (callEntry call method true true))
        (some (doneCallback method.responsePrototype value client.id)) .kNoError
      = .ok (client', if method.responsePrototype.serialize value = [] then []
          else [.parse call value, .run call]) := by
  let s := client.fetchAdd.register client.id (callEntry call method true true)
  have hentry : s.reqCallbacks client.id = some (callEntry call method true true) :=
    Function.update_self _ _ _
  have hid : uint64ToInt32 (doneCallback method.responsePrototype value client.id).id
      = client.id := by
    rw [doneCallback_id, uint64ToInt32_int32ToUInt64]
  rw [← hid] at hentry
  rw [← completeCall_doneCallback call method hparse client.id]
  exact ⟨_, onRpcCallback_pending s (doneCallback_type _ _ _) hentry⟩

/-! ## Both sides -/

/-- Request and reply of a call fit a frame, and the encoding of the value
    the service computed is not empty. -/
def Fits (method : MethodDescriptor Msg) (request value : Msg) (id : Int32) : Prop :=
  method.responsePrototype.serialize value ≠ [] ∧
    (P.serialize (requestMessage method request id)).length ≤ 2 ^ 31 - 5 ∧
    (P.serialize (doneCallback method.responsePrototype value id)).length ≤ 2 ^ 31 - 5

instance (method : MethodDescriptor Msg) (request value : Msg) (id : Int32) :
    Decidable (Fits P method request value id) :=
  inferInstanceAs (Decidable (_ ∧ _ ∧ _))

/-- Protobuf encodes nothing longer than `2 ^ 31 - 1` bytes. -/
def Encodable (method : MethodDescriptor Msg) (request value : Msg) (id : Int32) : Prop :=
  (P.serialize (requestMessage method request id)).length < 2 ^ 31 ∧
    (P.serialize (doneCallback method.responsePrototype value id)).length < 2 ^ 31

section Call

variable {adler32 : Bytes → UInt32} {services : List (Service Msg)}
  (hnames : (services.map Service.fullName).Nodup) {service : Service Msg}
  (hservice : service ∈ services) {method : MethodDescriptor Msg}
  (hmethod : method ∈ service.methods) {f : Msg → Msg} {request : Msg}
  (hrequest : method.requestPrototype.ParsesBack request)
  (hresponse : method.responsePrototype.ParsesBack (f request))
  {c : Connection Msg} (hserver : c.server.services = some (registerServices services))
  (hclientBuffer : c.clientBuffer.content = []) (hserverBuffer : c.serverBuffer.content = [])
  (hsent : P.ParsesBack (requestMessage method request c.client.id))
  (hreplied : P.ParsesBack (doneCallback method.responsePrototype (f request) c.client.id))
  (hencodable : Encodable P method request (f request) c.client.id) {call : Nat}

include hnames hservice hmethod hrequest hresponse hserver hclientBuffer hserverBuffer hsent
  hreplied hencodable

theorem completes_of_fits (hfits : Fits P method request (f request) c.client.id) :
    Completes P adler32 c call service method f request := by
  obtain ⟨hne, hsize, hsize'⟩ := hfits
  have hserve := handleCallbacks_one
    (onRpcCallback_request hnames hservice hmethod hrequest hserver c.client.id)
  obtain ⟨client', hcomplete⟩ := onRpcCallback_reply c.client call method hresponse
  refine ⟨_, _, rfl, ?_⟩
  intro sent harrives
  refine ⟨c.client.id, ?_, ?_⟩
  · rw [handleChunks_arrives P hserverBuffer c.server hsent hencodable.1 harrives, if_pos hsize,
      hserve]
  · intro replied harrives'
    refine ⟨client', ?_⟩
    rw [handleChunks_arrives P hclientBuffer _ hreplied hencodable.2 harrives', if_pos hsize',
      handleCallbacks_one hcomplete, if_neg hne]

/-- A request or a reply that is too long never arrives, and the reply to an
    empty encoding completes nothing. -/
theorem fits_of_completes (h : Completes P adler32 c call service method f request) :
    Fits P method request (f request) c.client.id := by
  have hserve := handleCallbacks_one
    (onRpcCallback_request hnames hservice hmethod hrequest hserver c.client.id)
  obtain ⟨client', hcomplete⟩ := onRpcCallback_reply c.client call method hresponse
  have harrives : ∀ m : RpcMessage, Arrives P adler32 m [frame P adler32 m] := fun m =>
    (builtFrame_iff P adler32 m _).mpr (List.append_nil _)
  obtain ⟨client, m, hcall, hrun⟩ := h
  obtain ⟨rfl, hm⟩ := Prod.mk.inj hcall
  obtain rfl : requestMessage method request c.client.id = m := Effect.send.inj (List.cons.inj hm).1
  obtain ⟨id, hinvoke, hanswer⟩ := hrun _ (harrives _)
  rw [handleChunks_arrives P hserverBuffer c.server hsent hencodable.1 (harrives _)] at hinvoke
  split at hinvoke
  · next hsize =>
      rw [hserve] at hinvoke
      obtain rfl : c.client.id = id :=
        (Effect.invoke.inj (List.cons.inj (Prod.mk.inj (Except.ok.inj hinvoke)).2).1).2.2.2
      obtain ⟨client'', hdone⟩ := hanswer _ (harrives _)
      rw [handleChunks_arrives P hclientBuffer _ hreplied hencodable.2 (harrives _)] at hdone
      split at hdone
      · next hsize' =>
          rw [handleCallbacks_one hcomplete] at hdone
          refine ⟨?_, hsize, hsize'⟩
          intro hempty
          rw [if_pos hempty] at hdone
          exact nomatch (Prod.mk.inj (Except.ok.inj hdone)).2
      · exact nomatch (Prod.mk.inj (Except.ok.inj hdone)).2
  · exact nomatch (Prod.mk.inj (Except.ok.inj hinvoke)).2

/-- **END TO END, EXACTLY**: a call of a registered method completes with the
    value the service computed if and only if request and reply fit a frame
    and the encoding of that value is not empty. -/
theorem call_completes_iff :
    Completes P adler32 c call service method f request
      ↔ Fits P method request (f request) c.client.id :=
  ⟨fits_of_completes P hnames hservice hmethod hrequest hresponse hserver hclientBuffer
      hserverBuffer hsent hreplied hencodable,
    completes_of_fits P hnames hservice hmethod hrequest hresponse hserver hclientBuffer
      hserverBuffer hsent hreplied hencodable⟩

end Call

/-! ## The service that echoes -/

theorem echo_names_nodup : ([echoService].map Service.fullName).Nodup := List.nodup_singleton _

/-- A new client, and a server with the one service. -/
def echoConnection : Connection RpcMessage where
  client := .new
  server := Session.new.setServices (registerServices [echoService])
  clientBuffer := inputBuffer
  serverBuffer := inputBuffer

theorem echo_completes :
    Completes rpcProto zlibAdler32 echoConnection 0 echoService echoMethod id
      { RpcMessage.new with id := 1 } :=
  (call_completes_iff rpcProto echo_names_nodup List.mem_cons_self List.mem_cons_self
    (rpcProto_parsesBack (by decide)) (rpcProto_parsesBack (by decide)) rfl
    (Buffer.content_new _) (Buffer.content_new _)
    (rpcProto_parsesBack (by decide +kernel)) (rpcProto_parsesBack (by decide +kernel))
    ⟨by decide +kernel, by decide +kernel⟩).mpr (by decide +kernel)

/-- The message whose fields all have their defaults is encoded by the empty
    string; its echo never completes. -/
theorem echo_of_default_not_completed :
    rpcProto.ParsesBack RpcMessage.new ∧
      ¬ Completes rpcProto zlibAdler32 echoConnection 0 echoService echoMethod id
        RpcMessage.new := by
  have hback : rpcProto.ParsesBack RpcMessage.new := rpcProto_parsesBack (by decide)
  refine ⟨hback, fun h => ?_⟩
  obtain ⟨hne, -⟩ := fits_of_completes rpcProto (f := id) echo_names_nodup List.mem_cons_self
    List.mem_cons_self hback hback rfl (Buffer.content_new _) (Buffer.content_new _)
    (rpcProto_parsesBack (by decide +kernel)) (rpcProto_parsesBack (by decide +kernel))
    ⟨by decide +kernel, by decide +kernel⟩ h
  exact hne rfl

end RemoteCall
