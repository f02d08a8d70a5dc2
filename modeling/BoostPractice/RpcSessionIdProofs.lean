import BoostPractice.RpcSessionReplyProofs

/-! # The id of a reply

    The id of a message is a fixed64.  The error block of `on_rpc_callback`
    copies it from the REQUEST; the closure of `done_callback` is given an
    `int32_t`, so on the way of a successful call the id is truncated, and
    widened again with its sign when the reply is made.

    `RepliesTo` collects all replies that a REQUEST can get, and
    `replied_of_reachable` shows that over the runs of a session there are no
    others.  `reply_id_iff` says for which REQUESTs each of them has the id
    of the REQUEST. -/

namespace RpcSessionId

open MachineInt RpcMessages RpcCodecRead RpcSession RpcSessionRun RpcSessionReply GuardedRun

variable {Msg : Type}

/-- A reply that a session with these services can send to a message: that of
    the error block, or that of a closure made for it, whatever response the
    service sets. -/
inductive RepliesTo (services : Option (Services Msg)) (m : RpcMessage) : RpcMessage → Prop where
  | errorBlock {s s' : Session Msg} {effects : List (Effect Msg)} {reply : RpcMessage}
      (session : s.services = services)
      (handled : onRpcCallback s (some m) .kNoError = .ok (s', effects))
      (sent : .send reply ∈ effects) : RepliesTo services m reply
  | done {s s' : Session Msg} {effects : List (Effect Msg)} {service : Service Msg}
      {method : MethodDescriptor Msg} {request : Msg} {id : Int32}
      (session : s.services = services)
      (handled : onRpcCallback s (some m) .kNoError = .ok (s', effects))
      (invoked : .invoke service method request id ∈ effects) (response : Msg) :
      RepliesTo services m (doneCallback method.responsePrototype response id)

/-- The check that fails decides what is dispatched. -/
theorem dispatch_of_rejects {services : Option (Services Msg)} {m : RpcMessage}
    {errorCode : ErrorCode} (h : Rejects services m errorCode) :
    dispatch services m = (errorCode, []) := by
  cases h with
  | noService _ unknown =>
      cases services with
      | none => rfl
      | some reg =>
          have hnone := unknown reg rfl
          simp only [dispatch, hnone]
  | noMethod _ reg service known registered unknown =>
      subst known
      simp only [dispatch, registered, unknown]
  | invalidRequest _ reg service method known registered found fails =>
      subst known
      simp only [dispatch, registered, found, fails, Bool.false_eq_true, if_false]

/-- So there is one such check at most. -/
theorem rejects_unique {services : Option (Services Msg)} {m : RpcMessage}
    {errorCode errorCode' : ErrorCode} (h : Rejects services m errorCode)
    (h' : Rejects services m errorCode') : errorCode = errorCode' :=
  congrArg Prod.fst ((dispatch_of_rejects h).symm.trans (dispatch_of_rejects h'))

section Request

variable {services : Option (Services Msg)} {m : RpcMessage} (hm : m.type = .request)

include hm

/-- What the handler of a REQUEST does. -/
theorem handled_of_ok {s s' : Session Msg} {effects : List (Effect Msg)}
    (h : onRpcCallback s (some m) .kNoError = .ok (s', effects)) :
    Handled s.services m effects := by
  have hres : m.type ≠ .response := by
    rw [hm]
    decide
  obtain ⟨effects', hok, hhandled⟩ := onRpcCallback_handled s hres
  obtain ⟨-, rfl⟩ := Prod.mk.inj (Except.ok.inj (hok.symm.trans h))
  exact hhandled

/-- The replies of a REQUEST: the one of the check that fails, or those of
    the invocation it asks for. -/
theorem repliesTo_iff {reply : RpcMessage} :
    RepliesTo services m reply ↔
      (∃ errorCode, Rejects services m errorCode ∧ reply = errorMessage m.id errorCode) ∨
      ∃ (inv : Invocation Msg) (response : Msg), Asks services m inv ∧
        reply = doneCallback inv.method.responsePrototype response inv.id := by
  have hres : m.type ≠ .response := by
    rw [hm]
    decide
  constructor
  · intro h
    cases h with
    | errorBlock session handled sent =>
        have hhandled := session ▸ handled_of_ok hm handled
        cases hhandled with
        | invoked inv _ => simp at sent
        | rejected errorCode rejects =>
            exact .inl ⟨errorCode, rejects, Effect.send.inj (List.mem_singleton.mp sent)⟩
        | ignored other => exact absurd hm other
    | done session handled invoked response =>
        have hhandled := session ▸ handled_of_ok hm handled
        cases hhandled with
        | invoked inv asks =>
            obtain ⟨-, rfl, -, rfl⟩ := Effect.invoke.inj (List.mem_singleton.mp invoked)
            exact .inr ⟨inv, response, asks, rfl⟩
        | rejected errorCode _ => simp at invoked
        | ignored other => exact absurd hm other
  · obtain ⟨effects, hok, hhandled⟩ :=
      onRpcCallback_handled (Session.mk services 0 fun _ => none) hres
    rintro (⟨errorCode, hrejects, rfl⟩ | ⟨inv, response, hasks, rfl⟩)
    · cases hhandled with
      | invoked inv asks => exact absurd hrejects asks.not_rejects
      | rejected errorCode' rejects =>
          rw [rejects_unique hrejects rejects]
          exact .errorBlock rfl hok (List.mem_singleton_self _)
      | ignored other => exact absurd hm other
    · cases hhandled with
      | invoked inv' asks =>
          obtain rfl := hasks.unique asks
          exact .done rfl hok (List.mem_singleton_self _) response
      | rejected errorCode' rejects => exact absurd rejects hasks.not_rejects
      | ignored other => exact absurd hm other

end Request

/-! ## Replies over a run -/

/-- A closure that a service was given for a message. -/
def GivenFor (services : Option (Services Msg)) (m : RpcMessage) (closure : Closure Msg) : Prop :=
  ∃ inv : Invocation Msg, Asks services m inv ∧
    closure.type = inv.method.responsePrototype ∧ closure.id = inv.id

theorem repliesTo_of_rejects {services : Option (Services Msg)} {m : RpcMessage}
    {errorCode : ErrorCode} (h : Rejects services m errorCode) :
    RepliesTo services m (errorMessage m.id errorCode) :=
  (repliesTo_iff (rejects_type h)).mpr (.inl ⟨errorCode, h, rfl⟩)

theorem GivenFor.repliesTo {services : Option (Services Msg)} {m : RpcMessage}
    {closure : Closure Msg} (h : GivenFor services m closure) (response : Msg) :
    RepliesTo services m (doneCallback closure.type response closure.id) := by
  obtain ⟨inv, hasks, htype, hid⟩ := h
  rw [htype, hid]
  exact (repliesTo_iff hasks.request).mpr (.inr ⟨inv, response, hasks, rfl⟩)

/-- Handling a message replies to it, or gives a closure away for it. -/
theorem replied_of_handled {services : Option (Services Msg)} {m : RpcMessage}
    {effects : List (Effect Msg)} (h : Handled services m effects) :
    (∀ reply, .send reply ∈ effects → RepliesTo services m reply) ∧
      ∀ closure ∈ effects.filterMap closureOf, GivenFor services m closure := by
  cases h with
  | invoked inv asks =>
      constructor
      · intro reply hreply
        simp at hreply
      · intro closure hclosure
        obtain rfl := List.mem_singleton.mp hclosure
        exact ⟨inv, asks, rfl, rfl⟩
  | rejected errorCode rejects =>
      constructor
      · intro reply hreply
        rw [Effect.send.inj (List.mem_singleton.mp hreply)]
        exact repliesTo_of_rejects rejects
      · intro closure hclosure
        simp [closureOf] at hclosure
  | ignored _ =>
      constructor
      · intro reply hreply
        cases hreply
      · intro closure hclosure
        cases hclosure

/-- The replies sent and the closures given away so far. -/
structure AllReplied (services : Option (Services Msg)) (s : State Msg) : Prop where
  sent : ∀ cause reply, isReply (cause, (.send reply : Effect Msg)) →
    (cause, .send reply) ∈ s.log → ∃ m ∈ s.received, RepliesTo services m reply
  given : ∀ closure ∈ s.closures, ∃ m ∈ s.received, GivenFor services m closure

/-- **ALL REPLIES** that a session ever sends reply to a message that it has
    received. -/
theorem replied_of_reachable {services : Option (Services Msg)} {s : State Msg}
    (h : Reachable services s) : AllReplied services s := by
  refine reachable_invariant (I := AllReplied services) ⟨nofun, nofun⟩ ?_ h
  intro t t' hservices hprogress hall
  cases hprogress with
  | silent new heffects hlog hreceived hclosures =>
      constructor
      · intro cause reply hreply hmem
        rw [hlog] at hmem
        rw [hreceived]
        rcases List.mem_append.mp hmem with hold | hnew
        · exact hall.sent cause reply hreply hold
        · exact absurd hreply (not_isReply_of_silent (heffects _ hnew))
      · rw [hclosures, hreceived]
        exact hall.given
  | handled m effects hhandled hlog hreceived hclosures =>
      obtain ⟨hsent, hgiven⟩ := replied_of_handled (hservices ▸ hhandled)
      constructor
      · intro cause reply hreply hmem
        rw [hlog] at hmem
        rw [hreceived]
        rcases List.mem_append.mp hmem with hold | hnew
        · obtain ⟨m', hm', hto⟩ := hall.sent cause reply hreply hold
          exact ⟨m', List.mem_append_left _ hm', hto⟩
        · obtain ⟨e, he, heq⟩ := List.mem_map.mp hnew
          obtain ⟨-, rfl⟩ := Prod.mk.inj heq
          exact ⟨m, List.mem_append_right _ (List.mem_singleton_self m), hsent reply he⟩
      · intro closure hclosure
        rw [hclosures] at hclosure
        rw [hreceived]
        rcases List.mem_append.mp hclosure with hold | hnew
        · obtain ⟨m', hm', hfor⟩ := hall.given closure hold
          exact ⟨m', List.mem_append_left _ hm', hfor⟩
        · exact ⟨m, List.mem_append_right _ (List.mem_singleton_self m), hgiven closure hnew⟩
  | answered j closure response hget _ hlog hreceived hclosures =>
      constructor
      · intro cause reply hreply hmem
        rw [hlog] at hmem
        rw [hreceived]
        rcases List.mem_append.mp hmem with hold | hnew
        · exact hall.sent cause reply hreply hold
        · obtain ⟨-, heq⟩ := Prod.mk.inj (List.mem_singleton.mp hnew)
          obtain ⟨m, hm, hfor⟩ := hall.given closure (List.mem_of_getElem? hget)
          rw [Effect.send.inj heq]
          exact ⟨m, hm, hfor.repliesTo response⟩
      · intro closure' hclosure'
        rw [hclosures] at hclosure'
        rw [hreceived]
        rcases List.mem_or_eq_of_mem_set hclosure' with hold | rfl
        · exact hall.given closure' hold
        · -- the closure is marked, its type and its id are what they were
          exact hall.given closure (List.mem_of_getElem? hget)

/-! ## Which replies have the id of their request -/

/-- A REQUEST whose replies have its id: its id is an `int32_t` widened with
    its sign, or it is rejected. -/
def KeepsId (services : Option (Services Msg)) (m : RpcMessage) : Prop :=
  (m.id.toNat < 2 ^ 31 ∨ 2 ^ 64 - 2 ^ 31 ≤ m.id.toNat) ∨ ∀ inv, ¬ Asks services m inv

/-- The id of the reply to a call of a service, compared with the id asked
    for. -/
theorem doneCallback_id_iff {services : Option (Services Msg)} {m : RpcMessage}
    {inv : Invocation Msg} (h : Asks services m inv) (response : Msg) :
    (doneCallback inv.method.responsePrototype response inv.id).id = m.id ↔
      m.id.toNat < 2 ^ 31 ∨ 2 ^ 64 - 2 ^ 31 ≤ m.id.toNat := by
  rw [doneCallback_id, h.id]
  exact int32ToUInt64_uint64ToInt32_iff m.id

theorem KeepsId.reply_id {services : Option (Services Msg)} {m reply : RpcMessage}
    (h : KeepsId services m) (hm : m.type = .request) (hreply : RepliesTo services m reply) :
    reply.id = m.id := by
  rcases (repliesTo_iff hm).mp hreply with ⟨errorCode, -, rfl⟩ | ⟨inv, response, hasks, rfl⟩
  · rfl
  · rcases h with hid | hnone
    · exact (doneCallback_id_iff hasks response).mpr hid
    · exact absurd hasks (hnone inv)

/-- **IDS OF REPLIES, EXACTLY**: all replies to a REQUEST have its id if and
    only if the id is an `int32_t` widened with its sign, or nothing is
    invoked; and the replies to two such REQUESTs with different ids differ
    in their ids. -/
theorem reply_id_iff (services : Option (Services Msg)) {m : RpcMessage}
    (hm : m.type = .request) :
    ((∀ reply, RepliesTo services m reply → reply.id = m.id) ↔ KeepsId services m) ∧
      ∀ m', m'.type = .request → KeepsId services m → KeepsId services m' → m.id ≠ m'.id →
        ∀ reply reply', RepliesTo services m reply → RepliesTo services m' reply' →
          reply.id ≠ reply'.id := by
  constructor
  · constructor
    · intro hall
      by_cases hasks : ∃ inv, Asks services m inv
      · obtain ⟨inv, hinv⟩ := hasks
        -- the service may well echo the request
        have hreply := hall _ ((repliesTo_iff hm).mpr (.inr ⟨inv, inv.request, hinv, rfl⟩))
        exact .inl ((doneCallback_id_iff hinv inv.request).mp hreply)
      · exact .inr fun inv hinv => hasks ⟨inv, hinv⟩
    · exact fun hkeeps reply => hkeeps.reply_id hm
  · intro m' hm' hkeeps hkeeps' hne reply reply' hreply hreply'
    rw [hkeeps.reply_id hm hreply, hkeeps'.reply_id hm' hreply']
    exact hne

/-- A REQUEST to the echo service with a given id. -/
def echoRequest (id : UInt64) : RpcMessage :=
  { RpcMessage.new with
    id := id, service := "test.EchoService", method := "Echo",
    request := rpcProto.serialize { RpcMessage.new with id := 7 } }

theorem reply_id_of_seven :
    ((∀ reply, RepliesTo (some (registerServices [echoService])) (echoRequest 7) reply →
        reply.id = 7) ↔ KeepsId (some (registerServices [echoService])) (echoRequest 7)) ∧
      ∀ m', m'.type = .request → KeepsId (some (registerServices [echoService])) (echoRequest 7) →
        KeepsId (some (registerServices [echoService])) m' → 7 ≠ m'.id →
        ∀ reply reply', RepliesTo (some (registerServices [echoService])) (echoRequest 7) reply →
          RepliesTo (some (registerServices [echoService])) m' reply' → reply.id ≠ reply'.id :=
  reply_id_iff (some (registerServices [echoService])) (m := echoRequest 7) rfl

theorem echoRequest_asks (id : UInt64) :
    Asks (some (registerServices [echoService])) (echoRequest id)
      ⟨echoService, echoMethod, { RpcMessage.new with id := 7 }, uint64ToInt32 id⟩ where
  request := rfl
  registered := by
    have hnodup : ([echoService].map Service.fullName).Nodup := List.nodup_singleton _
    exact ⟨_, rfl, registerServices_fullName hnodup (List.mem_singleton_self _)⟩
  method := echoService.findMethodByName_name (List.mem_singleton_self _)
  parses := rpcProto_parsesBack (by decide +kernel)
  id := rfl

/-- The ids of the replies sent. -/
def replyIds (s : State Msg) : List UInt64 :=
  (s.log.filter isReply).filterMap fun p =>
    match p.2 with
    | .send reply => some reply.id
    | _ => none

/-- The REQUESTs `0` and `2 ^ 32`, both outstanding: the service answers the
    second first, and both replies have the id 0. -/
theorem reply_id_truncated :
    (∃ s : State RpcMessage, Reachable (some (registerServices [echoService])) s ∧
      s.received = [echoRequest 0, echoRequest 4294967296] ∧ replyIds s = [0, 0]) ∧
    ∃ reply : RpcMessage,
      RepliesTo (some (registerServices [echoService])) (echoRequest 4294967296) reply ∧
        reply.id ≠ (echoRequest 4294967296).id := by
  constructor
  · have hrun : (guardedRun step (fun _ _ => True)
        (State.start (some (registerServices [echoService])))
        [.receive (echoRequest 0), .receive (echoRequest 4294967296),
          .answer 1 (echoRequest 7), .answer 0 (echoRequest 7)]).map
        (fun s => (s.received, replyIds s))
          = some ([echoRequest 0, echoRequest 4294967296], [0, 0]) := by
      decide +kernel
    obtain ⟨s, hs, hids⟩ := exists_of_guardedRun hrun
    obtain ⟨hreceived, hreplies⟩ := Prod.mk.inj hids
    exact ⟨s, hs, hreceived, hreplies⟩
  · refine ⟨_, (repliesTo_iff rfl).mpr
      (.inr ⟨_, echoRequest 7, echoRequest_asks 4294967296, rfl⟩), ?_⟩
    rw [doneCallback_id]
    decide

end RpcSessionId
