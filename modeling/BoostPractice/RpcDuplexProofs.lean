import BoostPractice.RpcSessionCallProofs
import BoostPractice.RpcSessionReplyProofs

/-! # Two sessions on one connection

    An `rpc_session` of the client and one of the server, each with calls of
    its own threads and with services, and between them the messages that one
    handed to `send_rpc_msg` and the other one has not received yet.  The
    connection is intact: messages arrive once each, in order.  Everything
    else interleaves freely.

    `callSafe_of_reachable` is what a caller relies on: whatever the schedule, the value
    that is parsed into a call's response object is the one that the peer's
    service computed for the request of THAT call. -/

namespace RpcDuplex

open MachineInt RpcMessages RpcSession RpcSessionRun RpcSessionCall RpcSessionReply GuardedRun

variable {Msg : Type}

/-! ## What a session sends, and why -/

/-- The message an effect hands to `send_rpc_msg`. -/
def sentMessage : Cause × Effect Msg → Option RpcMessage
  | (_, .send m) => some m
  | _ => none

/-- The messages handed to `send_rpc_msg`, in order. -/
def sent (s : State Msg) : List RpcMessage := s.log.filterMap sentMessage

/-- The REQUEST of a call. -/
def requestOf (call : Call Msg) : RpcMessage :=
  requestMessage call.method call.request call.id

theorem mem_sent {s : State Msg} {m : RpcMessage} :
    m ∈ sent s ↔ ∃ cause, (cause, .send m) ∈ s.log := by
  rw [sent, List.mem_filterMap]
  constructor
  · rintro ⟨⟨cause, effect⟩, hmem, hsend⟩
    cases effect with
    | send m' =>
        obtain rfl : m' = m := Option.some.inj hsend
        exact ⟨cause, hmem⟩
    | invoke _ _ _ _ => exact nomatch hsend
    | parse _ _ => exact nomatch hsend
    | run _ => exact nomatch hsend
  · rintro ⟨cause, hmem⟩
    exact ⟨_, hmem, rfl⟩

section Session

variable {services : Option (Services Msg)} {s s' : State Msg}

/-- The log only grows. -/
theorem step_log {a : RpcSessionRun.Action Msg} (h : RpcSessionRun.step s a = some s') :
    ∃ new, s'.log = s.log ++ new := by
  cases (step_progress h).1 with
  | silent new _ hlog _ _ => exact ⟨new, hlog⟩
  | handled m effects _ hlog _ _ => exact ⟨_, hlog⟩
  | answered j closure response _ _ hlog _ _ => exact ⟨_, hlog⟩

/-- A call keeps what it was made with, and stays sent. -/
theorem step_call {a : RpcSessionRun.Action Msg} (h : RpcSessionRun.step s a = some s') {k : Nat}
    {call : Call Msg} (hcall : s.calls[k]? = some call) :
    ∃ stage, s'.calls[k]? = some { call with stage := stage } ∧
      (call.stage = .sent → stage = .sent) := by
  have hset : ∀ (j : Nat) (old : Call Msg) (stage : CallStage), s.calls[j]? = some old →
      old.stage ≠ .sent → ∃ stage',
        (s.calls.set j { old with stage := stage })[k]? = some { call with stage := stage' } ∧
        (call.stage = .sent → stage' = .sent) := by
    intro j old stage hold hstage
    rcases getElem?_set_cases hold hcall { old with stage := stage } with
      ⟨-, rfl, hnew⟩ | ⟨-, hsame⟩
    · exact ⟨stage, hnew, fun hsent => absurd hsent hstage⟩
    · exact ⟨call.stage, hsame, id⟩
  cases a with
  | fetchAdd method request response done =>
      obtain rfl := Option.some.inj h
      exact ⟨call.stage, getElem?_concat_iff.mpr (.inl hcall), id⟩
  | register j =>
      obtain ⟨old, hold, hstage, rfl⟩ := step_register h
      exact hset j old _ hold (hstage ▸ nofun)
  | sendRequest j =>
      obtain ⟨old, hold, hstage, rfl⟩ := step_sendRequest h
      exact hset j old _ hold (hstage ▸ nofun)
  | receive m =>
      obtain ⟨-, ⟨-, entry, -, rfl⟩ | ⟨-, -, rfl⟩ | ⟨-, effects, -, rfl⟩⟩ := step_receive h
      · exact ⟨call.stage, hcall, id⟩
      · exact ⟨call.stage, hcall, id⟩
      · exact ⟨call.stage, hcall, id⟩
  | deliver =>
      obtain ⟨m, entry, -, rfl⟩ := step_deliver h
      exact ⟨call.stage, hcall, id⟩
  | doneReturn =>
      obtain ⟨-, rfl⟩ := step_doneReturn h
      exact ⟨call.stage, hcall, id⟩
  | answer j response =>
      obtain ⟨closure, -, -, rfl⟩ := step_answer h
      exact ⟨call.stage, hcall, id⟩

/-- A message sent on behalf of a call is the request of that call. -/
theorem step_call_sends {a : RpcSessionRun.Action Msg} (h : RpcSessionRun.step s a = some s')
    {k : Nat} {m : RpcMessage} (hmem : (.call k, .send m) ∈ s'.log) :
    (.call k, .send m) ∈ s.log ∨ ∃ call, s'.calls[k]? = some call ∧ call.stage = .sent ∧
      m = requestOf call := by
  cases a with
  | fetchAdd method request response done =>
      obtain rfl := Option.some.inj h
      exact .inl hmem
  | register j =>
      obtain ⟨call, -, -, rfl⟩ := step_register h
      exact .inl hmem
  | sendRequest j =>
      obtain ⟨call, hcall, -, rfl⟩ := step_sendRequest h
      rcases List.mem_append.mp hmem with hold | hnew
      · exact .inl hold
      · obtain ⟨hcause, hsend⟩ := Prod.mk.inj (List.mem_singleton.mp hnew)
        obtain rfl : k = j := Cause.call.inj hcause
        refine .inr ⟨{ call with stage := .sent },
          List.getElem?_set_self (List.getElem?_eq_some_iff.mp hcall).1, rfl, ?_⟩
        exact Effect.send.inj hsend
  | receive m' =>
      obtain ⟨-, effects, -, hlog, -⟩ := progress_receive h
      rw [hlog] at hmem
      rcases List.mem_append.mp hmem with hold | hnew
      · exact .inl hold
      · obtain ⟨e, -, he⟩ := List.mem_map.mp hnew
        exact nomatch (Prod.mk.inj he).1
  | deliver =>
      obtain ⟨m', entry, -, rfl⟩ := step_deliver h
      rcases List.mem_append.mp hmem with hold | hnew
      · exact .inl hold
      · obtain ⟨e, -, he⟩ := List.mem_map.mp hnew
        exact nomatch (Prod.mk.inj he).1
  | doneReturn =>
      obtain ⟨-, rfl⟩ := step_doneReturn h
      exact .inl hmem
  | answer j response =>
      obtain ⟨closure, -, -, rfl⟩ := step_answer h
      rcases List.mem_append.mp hmem with hold | hnew
      · exact .inl hold
      · exact nomatch (Prod.mk.inj (List.mem_singleton.mp hnew)).1

/-- What a call has sent is its request, and nothing before that. -/
theorem request_of_call (h : Reachable services s) {k : Nat} {m : RpcMessage}
    (hmem : (.call k, .send m) ∈ s.log) :
    ∃ call, s.calls[k]? = some call ∧ call.stage = .sent ∧ m = requestOf call := by
  refine h.invariant (I := fun t => (.call k, .send m) ∈ t.log → ∃ call,
    t.calls[k]? = some call ∧ call.stage = .sent ∧ m = requestOf call)
    (fun hnil => absurd hnil List.not_mem_nil) ?_ hmem
  intro t a t' ih _ hstep hmem'
  rcases step_call_sends hstep hmem' with hold | hnew
  · obtain ⟨call, hcall, hsent, rfl⟩ := ih hold
    obtain ⟨stage, hcall', hstage⟩ := step_call hstep hcall
    exact ⟨_, hcall', hstage hsent, rfl⟩
  · exact hnew

/-- Messages with effects, and one whose handler has not ended, were
    received. -/
structure Heard (s : State Msg) : Prop where
  log : ∀ m e, (.message m, e) ∈ s.log → m ∈ s.received
  holding : ∀ m e, s.reader = .holding m e → m ∈ s.received

theorem heard_start (services : Option (Services Msg)) : Heard (State.start services) where
  log := fun _ _ h => absurd h List.not_mem_nil
  holding := fun _ _ h => nomatch h

theorem heard_of_reachable (h : Reachable services s) : Heard s := by
  refine h.invariant (I := Heard) (heard_start services) ?_
  intro t a t' hheard _ hstep
  cases a with
  | fetchAdd method request response done =>
      obtain rfl := Option.some.inj hstep
      exact ⟨hheard.log, hheard.holding⟩
  | register j =>
      obtain ⟨call, -, -, rfl⟩ := step_register hstep
      exact ⟨hheard.log, hheard.holding⟩
  | sendRequest j =>
      obtain ⟨call, -, -, rfl⟩ := step_sendRequest hstep
      refine ⟨fun m e hmem => ?_, hheard.holding⟩
      rcases List.mem_append.mp hmem with hold | hnew
      · exact hheard.log m e hold
      · exact nomatch (Prod.mk.inj (List.mem_singleton.mp hnew)).1
  | receive m' =>
      have hnew : ∀ effects : List (Effect Msg), ∀ m e,
          (.message m, e) ∈ t.log ++ effects.map (Cause.message m', ·) →
            m ∈ t.received ++ [m'] := by
        intro effects m e hmem
        rcases List.mem_append.mp hmem with hold | hnew
        · exact List.mem_append_left _ (hheard.log m e hold)
        · obtain ⟨e', -, he⟩ := List.mem_map.mp hnew
          rw [Cause.message.inj (Prod.mk.inj he).1]
          exact List.mem_append_right _ List.mem_cons_self
      obtain ⟨hidle, ⟨-, entry, -, rfl⟩ | ⟨-, -, rfl⟩ | ⟨-, effects, -, rfl⟩⟩ := step_receive hstep
      · refine ⟨fun m e hmem => List.mem_append_left _ (hheard.log m e hmem), fun m e hheld => ?_⟩
        rw [← (Reader.holding.inj hheld).1]
        exact List.mem_append_right _ List.mem_cons_self
      · exact ⟨fun m e hmem => List.mem_append_left _ (hheard.log m e hmem),
          fun _ _ hheld => nomatch hheld⟩
      · exact ⟨hnew effects, fun _ _ hheld => nomatch hidle.symm.trans hheld⟩
  | deliver =>
      obtain ⟨m', entry, hheld', rfl⟩ := step_deliver hstep
      refine ⟨fun m e hmem => ?_, fun m e hheld => absurd hheld (deliver_reader t m' entry m e)⟩
      rcases List.mem_append.mp hmem with hold | hnew
      · exact hheard.log m e hold
      · obtain ⟨e', -, he⟩ := List.mem_map.mp hnew
        rw [← Cause.message.inj (Prod.mk.inj he).1]
        exact hheard.holding m' entry hheld'
  | doneReturn =>
      obtain ⟨-, rfl⟩ := step_doneReturn hstep
      exact ⟨hheard.log, fun _ _ hidle => nomatch hidle⟩
  | answer j response =>
      obtain ⟨closure, -, -, rfl⟩ := step_answer hstep
      refine ⟨fun m e hmem => ?_, hheard.holding⟩
      rcases List.mem_append.mp hmem with hold | hnew
      · exact hheard.log m e hold
      · exact nomatch (Prod.mk.inj (List.mem_singleton.mp hnew)).1

/-- What a session with these services may send back for a REQUEST. -/
inductive Reply (services : Option (Services Msg)) (m : RpcMessage) : RpcMessage → Prop where
  | rejected (errorCode : ErrorCode) (rejects : Rejects services m errorCode) :
      Reply services m (errorMessage m.id errorCode)
  | answered (inv : Invocation Msg) (asks : Asks services m inv) (response : Msg) :
      Reply services m (doneCallback inv.method.responsePrototype response inv.id)

/-- A closure was given to a service for a REQUEST that asks for it. -/
theorem given_of_reachable (h : Reachable services s) {j : Nat} {closure : Closure Msg}
    (hget : s.closures[j]? = some closure) :
    ∃ m inv, m ∈ s.received ∧ Asks services m inv ∧
      closure.type = inv.method.responsePrototype ∧ closure.id = inv.id ∧
      (.message m, .invoke inv.service inv.method inv.request inv.id) ∈ s.log := by
  obtain ⟨handlings, hd⟩ := dispatched_of_reachable h
  have hmem : asGiven closure ∈ handlings.flatMap Handling.closures :=
    hd.closures ▸ List.mem_map_of_mem (List.mem_of_getElem? hget)
  obtain ⟨handling, hin, hgiven⟩ := List.mem_flatMap.mp hmem
  have hreceived : handling.rpcMsg ∈ s.received := hd.received ▸ List.mem_map_of_mem hin
  have hlog : ∀ p ∈ handling.log, p ∈ s.log := fun p hp =>
    List.mem_of_mem_filter (hd.log ▸ List.mem_flatMap_of_mem hin hp)
  obtain ⟨m, effects, hhandled⟩ := handling
  cases hhandled with
  | invoked inv asks =>
      have hsame := List.mem_singleton.mp hgiven
      exact ⟨m, inv, hreceived, asks, congrArg Closure.type hsame, congrArg Closure.id hsame,
        hlog _ List.mem_cons_self⟩
  | rejected errorCode _ => exact nomatch hgiven
  | ignored _ => exact nomatch hgiven

/-- An error is sent back for a REQUEST that fails a check. -/
theorem rejected_of_reachable (h : Reachable services s) {m m' : RpcMessage}
    (hmem : (.message m, .send m') ∈ s.log) :
    m ∈ s.received ∧ ∃ errorCode, Rejects services m errorCode ∧
      m' = errorMessage m.id errorCode := by
  refine ⟨(heard_of_reachable h).log m _ hmem, ?_⟩
  obtain ⟨handlings, hd⟩ := dispatched_of_reachable h
  have hdispatch : (.message m, .send m') ∈ handlings.flatMap Handling.log :=
    hd.log ▸ List.mem_filter.mpr ⟨hmem, rfl⟩
  obtain ⟨⟨m₀, effects, hhandled⟩, -, hin⟩ := List.mem_flatMap.mp hdispatch
  obtain ⟨e, he, heq⟩ := List.mem_map.mp hin
  obtain ⟨hcause, rfl⟩ := Prod.mk.inj heq
  obtain rfl : m₀ = m := Cause.message.inj hcause
  cases hhandled with
  | invoked inv asks => exact nomatch List.mem_singleton.mp he
  | rejected errorCode rejects =>
      exact ⟨errorCode, rejects, Effect.send.inj (List.mem_singleton.mp he)⟩
  | ignored _ => exact nomatch he

/-- What a closure sends is what `done_callback` makes of an answer. -/
theorem answered_of_reachable (h : Reachable services s) {j : Nat} {m' : RpcMessage}
    (hmem : (.closure j, .send m') ∈ s.log) :
    ∃ closure response, s.closures[j]? = some closure ∧
      m' = doneCallback closure.type response closure.id := by
  have hanswers := answers_of_reachable h
  have hin : (.closure j, .send m') ∈ answersOf s j :=
    List.mem_filter.mpr ⟨hmem, beq_self_eq_true j⟩
  cases hget : s.closures[j]? with
  | none =>
      rw [hanswers.others j hget] at hin
      exact nomatch hin
  | some closure =>
      rcases hanswers.given j closure hget with ⟨-, hnone⟩ | ⟨-, response, hone⟩
      · rw [hnone] at hin
        exact nomatch hin
      · rw [hone] at hin
        refine ⟨closure, response, rfl, ?_⟩
        rw [doneCallback_eq]
        exact Effect.send.inj (Prod.mk.inj (List.mem_singleton.mp hin)).2

/-- **A REQUEST SENT** is that of a call. -/
theorem request_of_sent (h : Reachable services s) {m : RpcMessage} (hmem : m ∈ sent s)
    (hreq : m.type = .request) :
    ∃ (k : Nat) (call : Call Msg), s.calls[k]? = some call ∧ call.stage = .sent ∧
      m = requestOf call := by
  obtain ⟨cause, hlog⟩ := mem_sent.mp hmem
  have horigin := origin_of_reachable h _ hlog
  have hnot : m.type ≠ .response := hreq ▸ nofun
  cases cause with
  | message m' => exact absurd horigin.2 hnot
  | closure j => exact absurd horigin hnot
  | call k => exact ⟨k, request_of_call h hlog⟩

/-- **A RESPONSE SENT** replies to a REQUEST received. -/
theorem reply_of_sent (h : Reachable services s) {m' : RpcMessage} (hmem : m' ∈ sent s)
    (hres : m'.type = .response) : ∃ m ∈ s.received, Reply services m m' := by
  obtain ⟨cause, hlog⟩ := mem_sent.mp hmem
  have horigin := origin_of_reachable h _ hlog
  cases cause with
  | message m =>
      obtain ⟨hreceived, errorCode, hrejects, rfl⟩ := rejected_of_reachable h hlog
      exact ⟨m, hreceived, .rejected errorCode hrejects⟩
  | closure j =>
      obtain ⟨closure, response, hget, rfl⟩ := answered_of_reachable h hlog
      obtain ⟨m, inv, hreceived, hasks, htype, hid, -⟩ := given_of_reachable h hget
      rw [htype, hid]
      exact ⟨m, hreceived, .answered inv hasks response⟩
  | call k => exact absurd (hres.symm.trans horigin) nofun

end Session

/-! ## The two ends -/

inductive Side where
  | left
  | right
  deriving DecidableEq

def Side.peer : Side → Side
  | .left => .right
  | .right => .left

@[simp]
theorem Side.peer_peer (x : Side) : x.peer.peer = x := by
  cases x with
  | left => rfl
  | right => rfl

theorem Side.peer_ne (x : Side) : x.peer ≠ x := by
  cases x with
  | left => decide
  | right => decide

theorem Side.eq_or_peer (x y : Side) : x = y ∨ x = y.peer := by
  cases x with
  | left =>
      cases y with
      | left => exact .inl rfl
      | right => exact .inr rfl
  | right =>
      cases y with
      | left => exact .inr rfl
      | right => exact .inl rfl

/-- Both sessions, and the messages each of them sent that its peer has not
    received yet. -/
structure Duplex (Msg : Type) where
  session : Side → State Msg
  inFlight : Side → List RpcMessage

/-- Two new sessions with their services. -/
def Duplex.start (services : Side → Option (Services Msg)) : Duplex Msg where
  session := fun x => State.start (services x)
  inFlight := fun _ => []

inductive Action (Msg : Type) where
  /-- A step of the session on that side, other than receiving a message. -/
  | act (x : Side) (a : RpcSessionRun.Action Msg)
  /-- The next message in flight to that side is received. -/
  | arrive (x : Side)

/-- A session's action that the peer has no part in. -/
def isOwn : RpcSessionRun.Action Msg → Bool
  | .receive _ => false
  | _ => true

/-- What a step of a session handed to `send_rpc_msg`. -/
def newlySent (s s' : State Msg) : List RpcMessage :=
  (s'.log.drop s.log.length).filterMap sentMessage

/-- The session on side `x` has gone on to `s'`, with `inFlight` in flight
    before. -/
def Duplex.moved (d : Duplex Msg) (x : Side) (s' : State Msg)
    (inFlight : Side → List RpcMessage) : Duplex Msg where
  session := Function.update d.session x s'
  inFlight := Function.update inFlight x (inFlight x ++ newlySent (d.session x) s')

def step (d : Duplex Msg) : Action Msg → Option (Duplex Msg)
  | .act x a =>
      if isOwn a then
        match RpcSessionRun.step (d.session x) a with
        | some s' => some (d.moved x s' d.inFlight)
        | none => none
      else none
  | .arrive x =>
      match d.inFlight x.peer with
      | m :: rest =>
          match RpcSessionRun.step (d.session x) (.receive m) with
          | some s' => some (d.moved x s' (Function.update d.inFlight x.peer rest))
          | none => none
      | [] => none

theorem step_act {d d' : Duplex Msg} {x : Side} {a : RpcSessionRun.Action Msg}
    (h : step d (.act x a) = some d') :
    isOwn a = true ∧ ∃ s', RpcSessionRun.step (d.session x) a = some s' ∧
      d' = d.moved x s' d.inFlight := by
  simp only [step] at h
  split at h
  · next hown =>
      split at h
      · next s' hstep => exact ⟨hown, s', hstep, (Option.some.inj h).symm⟩
      · exact nomatch h
  · exact nomatch h

theorem step_arrive {d d' : Duplex Msg} {x : Side} (h : step d (.arrive x) = some d') :
    ∃ m rest s', d.inFlight x.peer = m :: rest ∧
      RpcSessionRun.step (d.session x) (.receive m) = some s' ∧
      d' = d.moved x s' (Function.update d.inFlight x.peer rest) := by
  simp only [step] at h
  split at h
  · next m rest hflight =>
      split at h
      · next s' hstep => exact ⟨m, rest, s', hflight, hstep, (Option.some.inj h).symm⟩
      · exact nomatch h
  · exact nomatch h

/-- The states of all runs from two new sessions. -/
def Reachable (services : Side → Option (Services Msg)) : Duplex Msg → Prop :=
  Reaches step (fun _ _ => True) (Duplex.start services)

section Moved

variable {d : Duplex Msg} {x : Side} {s' : State Msg} {inFlight : Side → List RpcMessage}

@[simp]
theorem moved_session_self : (d.moved x s' inFlight).session x = s' := Function.update_self _ _ _

@[simp]
theorem moved_session_peer : (d.moved x s' inFlight).session x.peer = d.session x.peer :=
  Function.update_of_ne x.peer_ne _ _

@[simp]
theorem moved_inFlight_self :
    (d.moved x s' inFlight).inFlight x = inFlight x ++ newlySent (d.session x) s' :=
  Function.update_self _ _ _

@[simp]
theorem moved_inFlight_peer : (d.moved x s' inFlight).inFlight x.peer = inFlight x.peer :=
  Function.update_of_ne x.peer_ne _ _

end Moved

/-- Every step of the two is a step of one of them. -/
theorem step_session {d d' : Duplex Msg} {a : Action Msg} (h : step d a = some d') :
    ∃ x b s', RpcSessionRun.step (d.session x) b = some s' ∧
      d'.session = Function.update d.session x s' := by
  cases a with
  | act x a =>
      obtain ⟨-, s', hstep, rfl⟩ := step_act h
      exact ⟨x, a, s', hstep, rfl⟩
  | arrive x =>
      obtain ⟨m, rest, s', -, hstep, rfl⟩ := step_arrive h
      exact ⟨x, .receive m, s', hstep, rfl⟩

/-- **PROJECTION**: what happens to a session here happens to a session in
    some run of its own. -/
theorem session_reachable {services : Side → Option (Services Msg)} {d : Duplex Msg}
    (h : Reachable services d) (x : Side) :
    RpcSessionRun.Reachable (services x) (d.session x) := by
  refine h.invariant (I := fun d => RpcSessionRun.Reachable (services x) (d.session x))
    (show RpcSessionRun.Reachable (services x) (State.start (services x)) from .start) ?_
  intro d a d' ih _ hstep
  obtain ⟨y, b, s', hb, hsession⟩ := step_session hstep
  rw [hsession]
  rcases Side.eq_or_peer x y with rfl | rfl
  · rw [Function.update_self]
    exact ih.next trivial hb
  · rw [Function.update_of_ne y.peer_ne]
    exact ih

/-! ## Nothing is lost, and nothing comes from nowhere -/

theorem sent_step {s s' : State Msg} {a : RpcSessionRun.Action Msg}
    (h : RpcSessionRun.step s a = some s') : sent s' = sent s ++ newlySent s s' := by
  obtain ⟨new, hlog⟩ := step_log h
  rw [newlySent, hlog, List.drop_left, sent, hlog, List.filterMap_append, sent]

theorem received_step {s s' : State Msg} {a : RpcSessionRun.Action Msg}
    (h : RpcSessionRun.step s a = some s') :
    (isOwn a = true ∧ s'.received = s.received) ∨
      ∃ m, a = .receive m ∧ s'.received = s.received ++ [m] := by
  cases a with
  | fetchAdd method request response done =>
      obtain rfl := Option.some.inj h
      exact .inl ⟨rfl, rfl⟩
  | register k =>
      obtain ⟨call, -, -, rfl⟩ := step_register h
      exact .inl ⟨rfl, rfl⟩
  | sendRequest k =>
      obtain ⟨call, -, -, rfl⟩ := step_sendRequest h
      exact .inl ⟨rfl, rfl⟩
  | receive m =>
      obtain ⟨-, effects, -, -, hreceived, -⟩ := progress_receive h
      exact .inr ⟨m, rfl, hreceived⟩
  | deliver =>
      obtain ⟨m, entry, -, rfl⟩ := step_deliver h
      exact .inl ⟨rfl, rfl⟩
  | doneReturn =>
      obtain ⟨-, rfl⟩ := step_doneReturn h
      exact .inl ⟨rfl, rfl⟩
  | answer j response =>
      obtain ⟨closure, -, -, rfl⟩ := step_answer h
      exact .inl ⟨rfl, rfl⟩

/-- What one side sent is what the other received, in that order, and then
    what is in flight. -/
def Conserved (d : Duplex Msg) (x : Side) : Prop :=
  sent (d.session x) = (d.session x.peer).received ++ d.inFlight x

theorem conserved_start (services : Side → Option (Services Msg)) (x : Side) :
    Conserved (Duplex.start services) x := rfl

theorem conserved_of_reachable {services : Side → Option (Services Msg)} {d : Duplex Msg}
    (h : Reachable services d) (x : Side) : Conserved d x := by
  refine h.invariant (I := fun d => ∀ x, Conserved d x) (conserved_start services) ?_ x
  intro d a d' hcons _ hstep x
  cases a with
  | act y a =>
      obtain ⟨hown, s', hs', rfl⟩ := step_act hstep
      have hreceived : s'.received = (d.session y).received := by
        rcases received_step hs' with ⟨-, hsame⟩ | ⟨m, rfl, -⟩
        · exact hsame
        · exact nomatch hown
      rcases Side.eq_or_peer x y with rfl | rfl
      · rw [Conserved, moved_session_self, moved_session_peer, moved_inFlight_self, sent_step hs',
          hcons x, List.append_assoc]
      · have hpeer := hcons y.peer
        rw [Conserved, Side.peer_peer] at hpeer ⊢
        rw [moved_session_self, moved_session_peer, moved_inFlight_peer, hreceived, hpeer]
  | arrive y =>
      obtain ⟨m, rest, s', hflight, hs', rfl⟩ := step_arrive hstep
      have hreceived : s'.received = (d.session y).received ++ [m] := by
        rcases received_step hs' with ⟨hown, -⟩ | ⟨m', hm, hnew⟩
        · exact nomatch hown
        · rw [hnew, RpcSessionRun.Action.receive.inj hm]
      rcases Side.eq_or_peer x y with rfl | rfl
      · rw [Conserved, moved_session_self, moved_session_peer, moved_inFlight_self, sent_step hs',
          hcons x, List.append_assoc, Function.update_of_ne x.peer_ne.symm]
      · have hpeer := hcons y.peer
        rw [Conserved, Side.peer_peer] at hpeer ⊢
        rw [moved_session_self, moved_session_peer, moved_inFlight_peer, hreceived, hpeer, hflight,
          Function.update_self, List.append_assoc]
        rfl

/-! ## Whose reply it is -/

theorem Reply.id {services : Option (Services Msg)} {m m' : RpcMessage}
    (h : Reply services m m') : uint64ToInt32 m'.id = uint64ToInt32 m.id := by
  cases h with
  | rejected errorCode _ => rfl
  | answered inv asks response =>
      rw [doneCallback_id, uint64ToInt32_int32ToUInt64, asks.id]

theorem rejects_error {services : Option (Services Msg)} {m : RpcMessage} {errorCode : ErrorCode}
    (h : Rejects services m errorCode) : errorCode ≠ .noError := by
  cases h with
  | noService _ _ => decide
  | noMethod _ _ _ _ _ _ => decide
  | invalidRequest _ _ _ _ _ _ _ _ => decide

/-- An answer without an error is an encoding that is not empty. -/
theorem doneCallback_noError {type : Protobuf Msg} {response : Msg} {id : Int32}
    (h : (doneCallback type response id).error = .noError) :
    type.serialize response ≠ [] ∧
      (doneCallback type response id).response = type.serialize response := by
  rw [doneCallback] at h ⊢
  split at h
  · exact absurd h (show ErrorCode.invalidRequest ≠ .noError by decide)
  · next hne => exact ⟨hne, by rw [if_neg hne]⟩

@[simp]
theorem id_requestOf (call : Call Msg) : uint64ToInt32 (requestOf call).id = call.id :=
  uint64ToInt32_int32ToUInt64 call.id

section Reachable

variable {services : Side → Option (Services Msg)} {d : Duplex Msg} (h : Reachable services d)

include h

theorem services_of_side (x : Side) : (d.session x).session.services = services x :=
  services_of_reachable (session_reachable h x)

/-- A REQUEST received is that of a call of the peer. -/
theorem request_received {x : Side} {m : RpcMessage}
    (hmem : m ∈ (d.session x.peer).received) (hreq : m.type = .request) :
    ∃ (k : Nat) (call : Call Msg), (d.session x).calls[k]? = some call ∧ call.stage = .sent ∧
      m = requestOf call := by
  refine request_of_sent (session_reachable h x) ?_ hreq
  rw [conserved_of_reachable h x]
  exact List.mem_append_left _ hmem

/-- A message received was sent by the peer. -/
theorem sent_of_received {x : Side} {m : RpcMessage} (hmem : m ∈ (d.session x).received) :
    m ∈ sent (d.session x.peer) := by
  have hcons := conserved_of_reachable h x.peer
  rw [Conserved, Side.peer_peer] at hcons
  rw [hcons]
  exact List.mem_append_left _ hmem

/-- A RESPONSE sent is the reply to a call of the peer. -/
theorem reply_to_call {x : Side} {m : RpcMessage} (hmem : m ∈ sent (d.session x.peer))
    (hres : m.type = .response) :
    ∃ (k : Nat) (call : Call Msg), (d.session x).calls[k]? = some call ∧ call.stage = .sent ∧
      Reply (services x.peer) (requestOf call) m := by
  obtain ⟨request, hreceived, hreply⟩ := reply_of_sent (session_reachable h x.peer) hmem hres
  have hreq : request.type = .request := by
    cases hreply with
    | rejected errorCode rejects => exact rejects_type rejects
    | answered inv asks response => exact asks.request
  obtain ⟨k, call, hcall, hsent, rfl⟩ := request_received h hreceived hreq
  exact ⟨k, call, hcall, hsent, hreply⟩

end Reachable

/-- **OWN ANSWER**: the peer invoked what this call's request asks for, the
    service ran the closure it was given with `response`, and `value` is what
    parsing the encoding of `response` leaves. -/
structure OwnAnswer (peer : State Msg) (call : Call Msg) (value : Msg) (inv : Invocation Msg)
    (j : Nat) (response : Msg) : Prop where
  asks : Asks peer.session.services (requestOf call) inv
  invoked : (.message (requestOf call), .invoke inv.service inv.method inv.request call.id)
    ∈ peer.log
  answered : answersOf peer j
    = [(.closure j, .send (doneCallback inv.method.responsePrototype response call.id))]
  encoded : inv.method.responsePrototype.serialize response ≠ []
  value_eq : value = (call.method.responsePrototype.parseFromArray
    (inv.method.responsePrototype.serialize response)).1

/-- What a caller relies on. -/
structure CallSafe (session : Side → State Msg) (x : Side) (k : Nat) (call : Call Msg) :
    Prop where
  once : (session x).runs k ≤ 1
  /-- A closure runs right after its response object was parsed into. -/
  filled : ∀ (i : Nat) cause, (session x).log[i]? = some (cause, .run k) →
    ∃ j value, i = j + 1 ∧ (session x).log[j]? = some (cause, .parse k value)
  own : ∀ cause value, (cause, .parse k value) ∈ (session x).log →
    ∃ inv j response, OwnAnswer (session x.peer) call value inv j response

/-- **NO CROSS-TALK**: whatever both sides call and answer, in whatever
    order, a call's closure runs at most once, right after its response object
    was filled, and only ever with the answer to its own request. -/
theorem callSafe_of_reachable {services : Side → Option (Services Msg)} {d : Duplex Msg}
    (h : Reachable services d) (x : Side) (hfew : (d.session x).calls.length < 2 ^ 32) (k : Nat)
    (call : Call Msg) (hcall : (d.session x).calls[k]? = some call) :
    CallSafe d.session x k call := by
  have hreach := session_reachable h x
  have hpeer := session_reachable h x.peer
  have hcalls := calls_of_reaches hreach hfew
  have hlog := logOk_of_reaches hreach hfew
  constructor
  · exact (hcalls.ok k call hcall).once
  · exact fun i cause => hlog.ran i cause k
  · intro cause value hmem
    obtain ⟨m, call', rfl, hcall', hans, rfl⟩ := hlog.parsed cause k value hmem
    obtain rfl : call = call' := Option.some.inj (hcall.symm.trans hcall')
    -- the peer sent the message, for a closure, as it says no error
    have hsent := sent_of_received h ((heard_of_reachable hreach).log m _ hmem)
    obtain ⟨cause', hsends⟩ := mem_sent.mp hsent
    have horigin := origin_of_reachable hpeer _ hsends
    cases cause' with
    | message request =>
        obtain ⟨-, errorCode, hrejects, rfl⟩ := rejected_of_reachable hpeer hsends
        exact absurd hans.noError (rejects_error hrejects)
    | call k' => cases hans.response.symm.trans horigin
    | closure j =>
        obtain ⟨closure, response, hget, rfl⟩ := answered_of_reachable hpeer hsends
        obtain ⟨request, inv, hreceived, hasks, htype, hid, hinvoked⟩ :=
          given_of_reachable hpeer hget
        -- the request it was given for is that of a call with the same id
        obtain ⟨k', call', hcall', -, rfl⟩ := request_received h hreceived hasks.request
        have hidcall : closure.id = call'.id := by
          rw [hid, hasks.id, id_requestOf]
        have hsame : k' = k := by
          refine hcalls.unique hfew hcall' hcall ?_
          rw [← hidcall, ← hans.id, doneCallback_id, uint64ToInt32_int32ToUInt64]
        obtain rfl : call = call' := by
          rw [hsame, hcall] at hcall'
          exact Option.some.inj hcall'
        obtain ⟨hne, hresponse⟩ := doneCallback_noError hans.noError
        have hinvid : inv.id = call.id := hid.symm.trans hidcall
        refine ⟨inv, j, response, ?_, ?_, ?_, htype ▸ hne, ?_⟩
        · rw [services_of_reachable hpeer]
          exact hasks
        · rw [← hinvid]
          exact hinvoked
        · have hin : (.closure j, .send (doneCallback closure.type response closure.id))
              ∈ answersOf (d.session x.peer) j :=
            List.mem_filter.mpr ⟨hsends, beq_self_eq_true j⟩
          rcases (answers_of_reachable hpeer).given j closure hget with ⟨-, hnone⟩ | ⟨-, r, hone⟩
          · rw [hnone] at hin
            cases hin
          · rw [hone] at hin ⊢
            rw [← List.mem_singleton.mp hin, htype, hidcall]
        · rw [hresponse, htype]

/-- Both sides have the echo service. -/
def echoServices : Side → Option (Services RpcMessage) :=
  fun _ => some (registerServices [echoService])

/-- Two calls of the left session, sent and answered out of order, and one of
    the right session in between. -/
def crossRun : List (Action RpcMessage) :=
  [.act .left (.fetchAdd echoMethod { RpcMessage.new with id := 7 } true true),
    .act .left (.fetchAdd echoMethod { RpcMessage.new with id := 8 } true true),
    .act .right (.fetchAdd echoMethod { RpcMessage.new with id := 9 } true true),
    .act .left (.register 1), .act .left (.register 0), .act .left (.sendRequest 1),
    .arrive .right, .act .right (.register 0), .act .left (.sendRequest 0), .arrive .right,
    .act .right (.sendRequest 0), .act .right (.answer 1 { RpcMessage.new with id := 7 }),
    .arrive .left, .act .left (.answer 0 { RpcMessage.new with id := 9 }), .arrive .left,
    .act .right (.answer 0 { RpcMessage.new with id := 8 }), .act .left .deliver, .arrive .right]

end RpcDuplex
