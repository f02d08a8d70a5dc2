import Mathlib.Data.List.Nodup
import Mathlib.Logic.Function.Basic
import BoostPractice.RpcCodecSendProofs

/-! # `rpc_session` — calls, dispatch and replies

    A session is both ends of RPC: `CallMethod` sends a REQUEST and keeps the
    caller's response object and closure in `reqCallbacks_`;
    `on_rpc_callback` dispatches a REQUEST to the registered services and
    completes a call on a RESPONSE; `done_callback` sends the reply of a
    service.  What they do outside the session (hand a message to
    `send_rpc_msg`, call a service, parse into a response object, run a
    closure) is a list of effects, in order.

    The messages of the services are values of one type; a method knows how
    the messages of its request and its response type are encoded. -/

namespace RpcSession

open MachineInt BoostBuffer RpcMessages RpcCodecRead

variable {Msg : Type}

/-! ## Services -/

/-- `MethodDescriptor`: its name, its service's full name, and its request
    and response prototypes. -/
structure MethodDescriptor (Msg : Type) where
  name : String
  service : String
  requestPrototype : Protobuf Msg
  responsePrototype : Protobuf Msg

/-- A `Service` with its descriptor. -/
structure Service (Msg : Type) where
  fullName : String
  methods : List (MethodDescriptor Msg)
  methods_service : ∀ m ∈ methods, m.service = fullName
  names_nodup : (methods.map MethodDescriptor.name).Nodup

/-- `FindMethodByName`. -/
def Service.findMethodByName (service : Service Msg) (name : String) :
    Option (MethodDescriptor Msg) :=
  service.methods.find? fun m => m.name = name

/-- A descriptor's own name finds it. -/
theorem Service.findMethodByName_name (service : Service Msg) {m : MethodDescriptor Msg}
    (h : m ∈ service.methods) : service.findMethodByName m.name = some m := by
  have hnodup := service.names_nodup
  rw [Service.findMethodByName]
  generalize service.methods = methods at h hnodup
  induction methods with
  | nil => exact nomatch h
  | cons m' rest ih =>
      rw [List.map_cons, List.nodup_cons] at hnodup
      rw [List.find?_cons]
      rcases List.mem_cons.mp h with rfl | hrest
      · rw [decide_eq_true rfl]
      · have hne : m'.name ≠ m.name := fun heq =>
          hnodup.1 (heq ▸ List.mem_map_of_mem hrest)
        rw [decide_eq_false hne]
        exact ih hrest hnodup.2

/-- `std::map<std::string, Service *>`. -/
abbrev Services (Msg : Type) := String → Option (Service Msg)

/-- `rpc_server::registerService`. -/
def registerService (services : Services Msg) (service : Service Msg) : Services Msg :=
  Function.update services service.fullName (some service)

/-- The `services_` of a server after some services were registered. -/
def registerServices (services : List (Service Msg)) : Services Msg :=
  services.foldl registerService fun _ => none

/-- Services with different names do not displace each other. -/
theorem registerServices_fullName {services : List (Service Msg)}
    (hnodup : (services.map Service.fullName).Nodup) {service : Service Msg}
    (h : service ∈ services) : registerServices services service.fullName = some service := by
  have hfold : ∀ (rest : List (Service Msg)) (found : Services Msg) (name : String),
      name ∉ rest.map Service.fullName → rest.foldl registerService found name = found name := by
    intro rest
    induction rest with
    | nil => intro found name _; rfl
    | cons s rest ih =>
        intro found name hname
        rw [List.map_cons, List.mem_cons, not_or] at hname
        rw [List.foldl_cons, ih _ _ hname.2, registerService, Function.update_of_ne hname.1]
  rw [registerServices]
  generalize (fun _ => none : Services Msg) = found
  induction services generalizing found with
  | nil => exact nomatch h
  | cons s rest ih =>
      rw [List.map_cons, List.nodup_cons] at hnodup
      rw [List.foldl_cons]
      rcases List.mem_cons.mp h with rfl | hrest
      · rw [hfold _ _ _ hnodup.1, registerService, Function.update_self]
      · exact ih hnodup.2 hrest _

/-! ## The session -/

/-- A pointer to the response object of a call, and the object's type. -/
structure ResponsePtr (Msg : Type) where
  call : Nat
  type : Protobuf Msg

/-- `std::tuple<Message *, Closure *>`; either pointer may be null.  A
    closure is named by the call it was given to. -/
structure Entry (Msg : Type) where
  response : Option (ResponsePtr Msg)
  done : Option Nat

/-- `services_` (possibly null), `id_` and `reqCallbacks_`. -/
structure Session (Msg : Type) where
  services : Option (Services Msg)
  id : Int32
  reqCallbacks : Int32 → Option (Entry Msg)

/-- `rpc_session::rpc_session`. -/
def Session.new : Session Msg := ⟨none, 0, fun _ => none⟩

/-- `set_services`. -/
def Session.setServices (s : Session Msg) (services : Services Msg) : Session Msg :=
  { s with services := some services }

/-- What a handler does to the world around the session. -/
inductive Effect (Msg : Type) where
  /-- `codec_.send_rpc_msg`. -/
  | send (rpcMsg : RpcMessage)
  /-- `service->CallMethod` with a closure of `done_callback` for `id`. -/
  | invoke (service : Service Msg) (method : MethodDescriptor Msg) (request : Msg) (id : Int32)
  /-- `response->ParseFromString`, with the value the object has after it. -/
  | parse (call : Nat) (value : Msg)
  /-- `done->Run()`. -/
  | run (call : Nat)

/-- The null `rpcMsg` is dereferenced. -/
inductive Fault where
  | nullRpcMsg
  deriving DecidableEq

/-- The REQUEST branch of `on_rpc_callback`: the error code it sets. -/
def dispatch (services : Option (Services Msg)) (rpcMsg : RpcMessage) :
    ErrorCode × List (Effect Msg) :=
  match services with
  | some services =>
      match services rpcMsg.service with
      | some service =>
          match service.findMethodByName rpcMsg.method with
          | some method =>
              let request := method.requestPrototype.parseFromArray rpcMsg.request
              if request.2 then
                let id := uint64ToInt32 rpcMsg.id
                (.noError, [.invoke service method request.1 id])
              else (.invalidRequest, [])
          | none => (.noMethod, [])
      | none => (.noService, [])
  | none => (.noService, [])

/-- Find and erase an entry, the critical section of the RESPONSE branch. -/
def takeEntry (reqCallbacks : Int32 → Option (Entry Msg)) (id : Int32) :
    Option (Entry Msg) × (Int32 → Option (Entry Msg)) :=
  match reqCallbacks id with
  | some entry => (some entry, Function.update reqCallbacks id none)
  | none => (none, reqCallbacks)

/-- The rest of the RESPONSE branch, with the entry found. -/
def completeCall (entry : Entry Msg) (rpcMsg : RpcMessage) : List (Effect Msg) :=
  match entry.response with
  | some response =>
      if rpcMsg.error ≠ .noError then []
      else
        .parse response.call (response.type.parseFromArray rpcMsg.response).1 ::
          match entry.done with
          | some call => [.run call]
          | none => []
  | none => []

/-- The message of the error block at the end of `on_rpc_callback`. -/
def errorMessage (id : UInt64) (errorCode : ErrorCode) : RpcMessage :=
  { RpcMessage.new with id := id, error := errorCode, type := .response }

/-- The error block at the end of `on_rpc_callback`. -/
def errorReply (rpcMsg : Option RpcMessage) (errorCode : ErrorCode) :
    Except Fault (List (Effect Msg)) :=
  if errorCode ≠ .noError then
    match rpcMsg with
    | some m => .ok [.send (errorMessage m.id errorCode)]
    | none => .error .nullRpcMsg
  else .ok []

/-- `on_rpc_callback`. -/
def onRpcCallback (s : Session Msg) (rpcMsg : Option RpcMessage) (error : CodecError) :
    Except Fault (Session Msg × List (Effect Msg)) :=
  if error ≠ .kNoError then
    (errorReply rpcMsg .invalidChecksum).map fun reply => (s, reply)
  else
    match rpcMsg with
    | none => .error .nullRpcMsg
    | some m =>
        if m.type = .request then
          (errorReply rpcMsg (dispatch s.services m).1).map fun reply =>
            (s, (dispatch s.services m).2 ++ reply)
        else if m.type = .response then
          let taken := takeEntry s.reqCallbacks (uint64ToInt32 m.id)
          .ok ({ s with reqCallbacks := taken.2 },
            match taken.1 with
            | some entry => completeCall entry m
            | none => [])
        else .ok (s, [])

/-- `done_callback`: the message handed to `send_rpc_msg`. -/
def doneCallback (type : Protobuf Msg) (response : Msg) (id : Int32) : RpcMessage :=
  let resStr := type.serialize response
  if resStr = [] then
    { RpcMessage.new with
      id := int32ToUInt64 id, type := .response, error := .invalidRequest }
  else
    { RpcMessage.new with
      id := int32ToUInt64 id, type := .response, error := .noError, response := resStr }

/-- The message `CallMethod` sends. -/
def requestMessage (method : MethodDescriptor Msg) (request : Msg) (id : Int32) : RpcMessage :=
  { RpcMessage.new with
    id := int32ToUInt64 id, type := .request, service := method.service, method := method.name,
    request := method.requestPrototype.serialize request }

/-- The entry `CallMethod` keeps, for given pointers that may be null. -/
def callEntry (call : Nat) (method : MethodDescriptor Msg) (response done : Bool) : Entry Msg where
  response := if response then some ⟨call, method.responsePrototype⟩ else none
  done := if done then some call else none

/-- `id_.fetch_add(1)`. -/
def Session.fetchAdd (s : Session Msg) : Session Msg := { s with id := s.id + 1 }

/-- `reqCallbacks_[id] = std::make_tuple(response, done)`. -/
def Session.register (s : Session Msg) (id : Int32) (entry : Entry Msg) : Session Msg :=
  { s with reqCallbacks := Function.update s.reqCallbacks id (some entry) }

/-- `CallMethod`, run without interruption. -/
def callMethod (s : Session Msg) (call : Nat) (method : MethodDescriptor Msg) (request : Msg)
    (response done : Bool) : Session Msg × List (Effect Msg) :=
  let id := s.id
  (s.fetchAdd.register id (callEntry call method response done),
    [.send (requestMessage method request id)])

/-! ## Dispatch -/

/-- The call of a service a message asks for. -/
structure Invocation (Msg : Type) where
  service : Service Msg
  method : MethodDescriptor Msg
  request : Msg
  id : Int32

/-- **A VALID REQUEST**: a REQUEST for a registered service, one of its
    methods, and a request that parses. -/
structure Asks (services : Option (Services Msg)) (rpcMsg : RpcMessage) (inv : Invocation Msg) :
    Prop where
  request : rpcMsg.type = .request
  registered : ∃ reg, services = some reg ∧ reg rpcMsg.service = some inv.service
  method : inv.service.findMethodByName rpcMsg.method = some inv.method
  parses : inv.method.requestPrototype.parseFromArray rpcMsg.request = (inv.request, true)
  id : inv.id = uint64ToInt32 rpcMsg.id

/-- **THE FIRST CHECK THAT FAILS** for a REQUEST, and its error code. -/
inductive Rejects (services : Option (Services Msg)) (rpcMsg : RpcMessage) : ErrorCode → Prop where
  | noService (request : rpcMsg.type = .request)
      (unknown : ∀ reg, services = some reg → reg rpcMsg.service = none) :
      Rejects services rpcMsg .noService
  | noMethod (request : rpcMsg.type = .request) (reg : Services Msg) (service : Service Msg)
      (known : services = some reg) (registered : reg rpcMsg.service = some service)
      (unknown : service.findMethodByName rpcMsg.method = none) :
      Rejects services rpcMsg .noMethod
  | invalidRequest (request : rpcMsg.type = .request) (reg : Services Msg) (service : Service Msg)
      (method : MethodDescriptor Msg) (known : services = some reg)
      (registered : reg rpcMsg.service = some service)
      (found : service.findMethodByName rpcMsg.method = some method)
      (fails : (method.requestPrototype.parseFromArray rpcMsg.request).2 = false) :
      Rejects services rpcMsg .invalidRequest

/-- **DISPATCH** of a REQUEST either invokes what it asks for, or rejects it
    for the first check that fails. -/
theorem dispatch_spec (services : Option (Services Msg)) {rpcMsg : RpcMessage}
    (h : rpcMsg.type = .request) :
    (∃ inv : Invocation Msg, Asks services rpcMsg inv ∧
      dispatch services rpcMsg
        = (.noError, [.invoke inv.service inv.method inv.request inv.id])) ∨
      ∃ errorCode, Rejects services rpcMsg errorCode ∧ errorCode ≠ .noError ∧
        dispatch services rpcMsg = (errorCode, []) := by
  cases services with
  | none => exact .inr ⟨.noService, .noService h nofun, by decide, rfl⟩
  | some reg =>
      cases hservice : reg rpcMsg.service with
      | none =>
          refine .inr ⟨.noService, .noService h ?_, by decide, ?_⟩
          · intro reg' hreg
            rw [← Option.some.inj hreg]
            exact hservice
          · simp only [dispatch, hservice]
      | some service =>
          cases hmethod : service.findMethodByName rpcMsg.method with
          | none =>
              refine .inr ⟨.noMethod, .noMethod h reg service rfl hservice hmethod, by decide, ?_⟩
              simp only [dispatch, hservice, hmethod]
          | some method =>
              cases hparse : method.requestPrototype.parseFromArray rpcMsg.request with
              | mk request ok =>
                  cases ok with
                  | true =>
                      refine .inl ⟨⟨service, method, request, uint64ToInt32 rpcMsg.id⟩,
                        ⟨h, ⟨reg, rfl, hservice⟩, hmethod, hparse, rfl⟩, ?_⟩
                      simp only [dispatch, hservice, hmethod, hparse, if_true]
                  | false =>
                      refine .inr ⟨.invalidRequest, .invalidRequest h reg service method rfl
                        hservice hmethod (by rw [hparse]), by decide, ?_⟩
                      simp only [dispatch, hservice, hmethod, hparse, Bool.false_eq_true, if_false]

/-- A message asks for one invocation at most. -/
theorem Asks.unique {services : Option (Services Msg)} {rpcMsg : RpcMessage}
    {inv inv' : Invocation Msg} (h : Asks services rpcMsg inv) (h' : Asks services rpcMsg inv') :
    inv = inv' := by
  obtain ⟨reg, hreg, hservice⟩ := h.registered
  obtain ⟨reg', hreg', hservice'⟩ := h'.registered
  obtain rfl := Option.some.inj (hreg.symm.trans hreg')
  have hs : inv.service = inv'.service := Option.some.inj (hservice.symm.trans hservice')
  have hmethod := h.method
  rw [hs, h'.method] at hmethod
  have hm : inv.method = inv'.method := (Option.some.inj hmethod).symm
  have hparse := h.parses
  rw [hm, h'.parses] at hparse
  have hr : inv.request = inv'.request := (congrArg Prod.fst hparse).symm
  have hid : inv.id = inv'.id := h.id.trans h'.id.symm
  obtain ⟨service, method, request, id⟩ := inv
  obtain ⟨service', method', request', id'⟩ := inv'
  obtain rfl : service = service' := hs
  obtain rfl : method = method' := hm
  obtain rfl : request = request' := hr
  obtain rfl : id = id' := hid
  rfl

/-- What is asked for is not rejected. -/
theorem Asks.not_rejects {services : Option (Services Msg)} {rpcMsg : RpcMessage}
    {inv : Invocation Msg} (h : Asks services rpcMsg inv) {errorCode : ErrorCode} :
    ¬ Rejects services rpcMsg errorCode := by
  obtain ⟨reg, hreg, hservice⟩ := h.registered
  intro hrej
  cases hrej with
  | noService _ unknown => exact nomatch hservice.symm.trans (unknown reg hreg)
  | noMethod _ reg' service known registered unknown =>
      obtain rfl := Option.some.inj (hreg.symm.trans known)
      rw [← Option.some.inj (hservice.symm.trans registered), h.method] at unknown
      exact nomatch unknown
  | invalidRequest _ reg' service method known registered found fails =>
      obtain rfl := Option.some.inj (hreg.symm.trans known)
      rw [← Option.some.inj (hservice.symm.trans registered), h.method] at found
      rw [← Option.some.inj found, h.parses] at fails
      exact nomatch fails

/-- **WHAT A MESSAGE OTHER THAN A RESPONSE CAUSES**: the invocation it asks
    for, the reply that rejects it, or nothing. -/
inductive Handled (services : Option (Services Msg)) (rpcMsg : RpcMessage) :
    List (Effect Msg) → Prop where
  | invoked (inv : Invocation Msg) (asks : Asks services rpcMsg inv) :
      Handled services rpcMsg [.invoke inv.service inv.method inv.request inv.id]
  | rejected (errorCode : ErrorCode) (rejects : Rejects services rpcMsg errorCode) :
      Handled services rpcMsg [.send (errorMessage rpcMsg.id errorCode)]
  | ignored (other : rpcMsg.type ≠ .request) : Handled services rpcMsg []

/-- Such a message is handled, and leaves the session as it is. -/
theorem onRpcCallback_handled (s : Session Msg) {rpcMsg : RpcMessage}
    (h : rpcMsg.type ≠ .response) :
    ∃ effects, onRpcCallback s (some rpcMsg) .kNoError = .ok (s, effects) ∧
      Handled s.services rpcMsg effects := by
  rw [onRpcCallback, if_neg (fun hne => hne rfl)]
  by_cases hreq : rpcMsg.type = .request
  · simp only [if_pos hreq]
    rcases dispatch_spec s.services hreq with
      ⟨inv, hasks, hdispatch⟩ | ⟨errorCode, hrejects, hne, hdispatch⟩
    · rw [hdispatch]
      exact ⟨_, rfl, .invoked inv hasks⟩
    · have hreply : (errorReply (some rpcMsg) errorCode : Except Fault (List (Effect Msg)))
          = .ok [.send (errorMessage rpcMsg.id errorCode)] := if_pos hne
      rw [hdispatch, hreply]
      exact ⟨_, rfl, .rejected errorCode hrejects⟩
  · simp only [if_neg hreq, if_neg h]
    exact ⟨[], rfl, .ignored hreq⟩

/-- What completing a call does: nothing, or parse into the response object
    the entry points to and then run the closure it has. -/
theorem completeCall_cases (entry : Entry Msg) (rpcMsg : RpcMessage) :
    completeCall entry rpcMsg = [] ∨
      ∃ response, entry.response = some response ∧ rpcMsg.error = .noError ∧
        completeCall entry rpcMsg
          = .parse response.call (response.type.parseFromArray rpcMsg.response).1 ::
            (entry.done.map Effect.run).toList := by
  rw [completeCall]
  cases hresponse : entry.response with
  | none => exact .inl rfl
  | some response =>
      by_cases herror : rpcMsg.error = .noError
      · refine .inr ⟨response, rfl, herror, ?_⟩
        simp only [if_neg (not_not_intro herror)]
        cases entry.done with
        | none => rfl
        | some call => rfl
      · exact .inl (if_pos herror)

/-- Completing a call parses, or runs a closure. -/
theorem mem_completeCall {entry : Entry Msg} {rpcMsg : RpcMessage} {e : Effect Msg}
    (h : e ∈ completeCall entry rpcMsg) :
    (∃ call value, e = .parse call value) ∨ ∃ call, e = .run call := by
  rcases completeCall_cases entry rpcMsg with hnone | ⟨response, -, -, hsome⟩
  · rw [hnone] at h
    cases h
  · rw [hsome] at h
    rcases List.mem_cons.mp h with rfl | hrun
    · exact .inl ⟨_, _, rfl⟩
    · obtain ⟨call, -, rfl⟩ := Option.map_eq_some_iff.mp (Option.mem_toList.mp hrun)
      exact .inr ⟨call, rfl⟩

/-- A RESPONSE takes the entry of its id and completes the call. -/
theorem onRpcCallback_pending (s : Session Msg) {rpcMsg : RpcMessage}
    (hres : rpcMsg.type = .response) {entry : Entry Msg}
    (hentry : s.reqCallbacks (uint64ToInt32 rpcMsg.id) = some entry) :
    onRpcCallback s (some rpcMsg) .kNoError
      = .ok ({ s with
          reqCallbacks := Function.update s.reqCallbacks (uint64ToInt32 rpcMsg.id) none },
        completeCall entry rpcMsg) := by
  have hreq : rpcMsg.type ≠ .request := by
    rw [hres]
    decide
  rw [onRpcCallback, if_neg (fun h => h rfl)]
  simp only [if_neg hreq, if_pos hres, takeEntry, hentry]

/-- A RESPONSE with an unknown id does nothing. -/
theorem onRpcCallback_unknown (s : Session Msg) {rpcMsg : RpcMessage}
    (hres : rpcMsg.type = .response)
    (hentry : s.reqCallbacks (uint64ToInt32 rpcMsg.id) = none) :
    onRpcCallback s (some rpcMsg) .kNoError = .ok (s, []) := by
  have hreq : rpcMsg.type ≠ .request := by
    rw [hres]
    decide
  rw [onRpcCallback, if_neg (fun h => h rfl)]
  simp only [if_neg hreq, if_pos hres, takeEntry, hentry]

/-! ## Replies of a service -/

@[simp]
theorem doneCallback_type (type : Protobuf Msg) (response : Msg) (id : Int32) :
    (doneCallback type response id).type = .response := by
  rw [doneCallback]
  split
  · rfl
  · rfl

@[simp]
theorem doneCallback_id (type : Protobuf Msg) (response : Msg) (id : Int32) :
    (doneCallback type response id).id = int32ToUInt64 id := by
  rw [doneCallback]
  split
  · rfl
  · rfl

/-- The reply to a call with both pointers: one with an empty encoding says
    INVALID_REQUEST and completes nothing. -/
theorem completeCall_doneCallback (call : Nat) (method : MethodDescriptor Msg) {value : Msg}
    (hparse : method.responsePrototype.ParsesBack value) (id : Int32) :
    completeCall (callEntry call method true true) (doneCallback method.responsePrototype value id)
      = if method.responsePrototype.serialize value = [] then []
        else [.parse call value, .run call] := by
  have hparse' : method.responsePrototype.parseFromArray
      (method.responsePrototype.serialize value) = (value, true) := hparse
  by_cases hempty : method.responsePrototype.serialize value = []
  · rw [if_pos hempty, doneCallback, if_pos hempty]
    rfl
  · rw [if_neg hempty, doneCallback, if_neg hempty]
    show Effect.parse call (method.responsePrototype.parseFromArray
      (method.responsePrototype.serialize value)).1 :: [Effect.run call] = _
    rw [hparse']

/-! ## A service that echoes -/

def echoMethod : MethodDescriptor RpcMessage := ⟨"Echo", "test.EchoService", rpcProto, rpcProto⟩

def echoService : Service RpcMessage where
  fullName := "test.EchoService"
  methods := [echoMethod]
  methods_service := by
    intro m hm
    rw [List.mem_singleton.mp hm]
    rfl
  names_nodup := List.nodup_singleton _

end RpcSession
