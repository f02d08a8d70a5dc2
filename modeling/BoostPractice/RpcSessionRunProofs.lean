import BoostPractice.GuardedRunProofs
import BoostPractice.RpcSessionProofs

/-! # Runs of a session

    `CallMethod` may be called from any thread, also from inside a closure,
    and its three parts (`id_.fetch_add`, the critical section that keeps the
    entry, `send_rpc_msg`) interleave with those of other calls and with the
    handler of a received message.  Handlers run one at a time on the strand;
    the RESPONSE branch takes its entry in a critical section, and parses and
    runs the closure after it.  A service runs its closure of
    `done_callback` whenever it likes.

    Calls are named by the order of their `fetch_add`.  The log holds every
    effect with its cause. -/

namespace RpcSessionRun

open MachineInt BoostBuffer RpcMessages RpcCodecRead RpcSession GuardedRun

variable {Msg : Type}

/-- How far a `CallMethod` has come. -/
inductive CallStage where
  | numbered
  | registered
  | sent
  deriving DecidableEq

/-- One `CallMethod`: its arguments, whether the two pointers are not null,
    and the id it got. -/
structure Call (Msg : Type) where
  method : MethodDescriptor Msg
  request : Msg
  response : Bool
  done : Bool
  id : Int32
  stage : CallStage

/-- The entry a call keeps. -/
def Call.entry (call : Call Msg) (k : Nat) : Entry Msg :=
  callEntry k call.method call.response call.done

/-- The strand: no handler, the handler of a RESPONSE with the entry it took,
    or a closure that runs in it. -/
inductive Reader (Msg : Type) where
  | idle
  | holding (rpcMsg : RpcMessage) (entry : Entry Msg)
  | running (rpcMsg : RpcMessage)

/-- A closure of `done_callback` given to a service. -/
structure Closure (Msg : Type) where
  type : Protobuf Msg
  id : Int32
  answered : Bool

/-- On whose behalf an effect happens. -/
inductive Cause where
  | message (rpcMsg : RpcMessage)
  | closure (j : Nat)
  | call (k : Nat)

structure State (Msg : Type) where
  session : Session Msg
  calls : List (Call Msg)
  reader : Reader Msg
  closures : List (Closure Msg)
  received : List RpcMessage
  log : List (Cause × Effect Msg)

/-- A new session with its services, or none. -/
def State.start (services : Option (Services Msg)) : State Msg where
  session := { Session.new with services := services }
  calls := []
  reader := .idle
  closures := []
  received := []
  log := []

inductive Action (Msg : Type) where
  /-- `CallMethod` up to `id_.fetch_add(1)`. -/
  | fetchAdd (method : MethodDescriptor Msg) (request : Msg) (response done : Bool)
  /-- Its critical section. -/
  | register (k : Nat)
  /-- Its `send_rpc_msg`. -/
  | sendRequest (k : Nat)
  /-- `on_rpc_callback` on a message, for a RESPONSE up to the end of its
      critical section. -/
  | receive (rpcMsg : RpcMessage)
  /-- The rest of the RESPONSE branch, up to the start of the closure. -/
  | deliver
  /-- The closure returns. -/
  | doneReturn
  /-- A service runs the `j`-th closure it was given, its response set. -/
  | answer (j : Nat) (response : Msg)

/-- The closure made for an invocation. -/
def closureOf : Effect Msg → Option (Closure Msg)
  | .invoke _ method _ id => some ⟨method.responsePrototype, id, false⟩
  | _ => none

/-- The handler of a message. -/
def receive (s : State Msg) (rpcMsg : RpcMessage) : Option (State Msg) :=
  if rpcMsg.type = .response then
    let taken := takeEntry s.session.reqCallbacks (uint64ToInt32 rpcMsg.id)
    some { s with
      session := { s.session with reqCallbacks := taken.2 }
      reader :=
        match taken.1 with
        | some entry => .holding rpcMsg entry
        | none => .idle
      received := s.received ++ [rpcMsg] }
  else
    match onRpcCallback s.session (some rpcMsg) .kNoError with
    | .ok (session, effects) =>
        some { s with
          session := session
          closures := s.closures ++ effects.filterMap closureOf
          received := s.received ++ [rpcMsg]
          log := s.log ++ effects.map (.message rpcMsg, ·) }
    | .error _ => none

/-- An effect that runs a closure. -/
def startsClosure : Effect Msg → Bool
  | .run _ => true
  | _ => false

/-- The rest of the RESPONSE branch. -/
def deliver (s : State Msg) (rpcMsg : RpcMessage) (entry : Entry Msg) : State Msg :=
  let effects := completeCall entry rpcMsg
  { s with
    reader := if effects.any startsClosure then .running rpcMsg else .idle
    log := s.log ++ effects.map (.message rpcMsg, ·) }

def step (s : State Msg) : Action Msg → Option (State Msg)
  | .fetchAdd method request response done =>
      some { s with
        session := s.session.fetchAdd
        calls := s.calls ++ [⟨method, request, response, done, s.session.id, .numbered⟩] }
  | .register k =>
      match s.calls[k]? with
      | some call =>
          if call.stage = .numbered then
            some { s with
              session := s.session.register call.id (call.entry k)
              calls := s.calls.set k { call with stage := .registered } }
          else none
      | none => none
  | .sendRequest k =>
      match s.calls[k]? with
      | some call =>
          if call.stage = .registered then
            some { s with
              calls := s.calls.set k { call with stage := .sent }
              log := s.log ++ [(.call k, .send (requestMessage call.method call.request call.id))] }
          else none
      | none => none
  | .receive rpcMsg =>
      match s.reader with
      | .idle => receive s rpcMsg
      | _ => none
  | .deliver =>
      match s.reader with
      | .holding rpcMsg entry => some (deliver s rpcMsg entry)
      | _ => none
  | .doneReturn =>
      match s.reader with
      | .running _ => some { s with reader := .idle }
      | _ => none
  | .answer j response =>
      match s.closures[j]? with
      | some closure =>
          if closure.answered then none
          else
            some { s with
              closures := s.closures.set j { closure with answered := true }
              log := s.log
                ++ [(.closure j, .send (doneCallback closure.type response closure.id))] }
      | none => none

/-- The states of all runs from a new session. -/
def Reachable (services : Option (Services Msg)) : State Msg → Prop :=
  Reaches step (fun _ _ => True) (State.start services)

/-- `done->Run()` of call `k`. -/
def isRun (k : Nat) : Cause × Effect Msg → Bool
  | (_, .run call) => call == k
  | _ => false

/-- How often the closure of call `k` was run. -/
def State.runs (s : State Msg) (k : Nat) : Nat := s.log.countP (isRun k)

/-! ## What each step can do -/

section Step

variable {s s' : State Msg}

theorem step_register {k : Nat} (h : step s (.register k) = some s') :
    ∃ call, s.calls[k]? = some call ∧ call.stage = .numbered ∧
      s' = { s with
        session := s.session.register call.id (call.entry k)
        calls := s.calls.set k { call with stage := .registered } } := by
  simp only [step] at h
  split at h
  · next call hcall =>
      split at h
      · next hstage => exact ⟨call, hcall, hstage, (Option.some.inj h).symm⟩
      · exact nomatch h
  · exact nomatch h

theorem step_sendRequest {k : Nat} (h : step s (.sendRequest k) = some s') :
    ∃ call, s.calls[k]? = some call ∧ call.stage = .registered ∧
      s' = { s with
        calls := s.calls.set k { call with stage := .sent }
        log := s.log ++ [(.call k, .send (requestMessage call.method call.request call.id))] } := by
  simp only [step] at h
  split at h
  · next call hcall =>
      split at h
      · next hstage => exact ⟨call, hcall, hstage, (Option.some.inj h).symm⟩
      · exact nomatch h
  · exact nomatch h

/-- A handler starts when none is running: it takes the entry of a RESPONSE,
    finds none, or handles another message to its end. -/
theorem step_receive {m : RpcMessage} (h : step s (.receive m) = some s') :
    s.reader = .idle ∧
      ((m.type = .response ∧ ∃ entry,
          s.session.reqCallbacks (uint64ToInt32 m.id) = some entry ∧
          s' = { s with
            session := { s.session with
              reqCallbacks := Function.update s.session.reqCallbacks (uint64ToInt32 m.id) none }
            reader := .holding m entry
            received := s.received ++ [m] }) ∨
        (m.type = .response ∧ s.session.reqCallbacks (uint64ToInt32 m.id) = none ∧
          s' = { s with reader := .idle, received := s.received ++ [m] }) ∨
        (m.type ≠ .response ∧ ∃ effects, Handled s.session.services m effects ∧
          s' = { s with
            closures := s.closures ++ effects.filterMap closureOf
            received := s.received ++ [m]
            log := s.log ++ effects.map (.message m, ·) })) := by
  simp only [step] at h
  split at h
  · next hidle =>
      refine ⟨hidle, ?_⟩
      rw [receive] at h
      split at h
      · next hres =>
          cases hentry : s.session.reqCallbacks (uint64ToInt32 m.id) with
          | some entry =>
              simp only [takeEntry, hentry] at h
              exact .inl ⟨hres, entry, rfl, (Option.some.inj h).symm⟩
          | none =>
              simp only [takeEntry, hentry] at h
              exact .inr (.inl ⟨hres, rfl, (Option.some.inj h).symm⟩)
      · next hres =>
          obtain ⟨effects, hok, hhandled⟩ := onRpcCallback_handled s.session hres
          rw [hok] at h
          exact .inr (.inr ⟨hres, effects, hhandled, (Option.some.inj h).symm⟩)
  · cases h

theorem step_deliver (h : step s .deliver = some s') :
    ∃ m entry, s.reader = .holding m entry ∧ s' = deliver s m entry := by
  simp only [step] at h
  split at h
  · next m entry hreader => exact ⟨m, entry, hreader, (Option.some.inj h).symm⟩
  · exact nomatch h

theorem step_doneReturn (h : step s .doneReturn = some s') :
    (∃ m, s.reader = .running m) ∧ s' = { s with reader := .idle } := by
  simp only [step] at h
  split at h
  · next m hreader => exact ⟨⟨m, hreader⟩, (Option.some.inj h).symm⟩
  · exact nomatch h

theorem step_answer {j : Nat} {response : Msg} (h : step s (.answer j response) = some s') :
    ∃ closure, s.closures[j]? = some closure ∧ closure.answered = false ∧
      s' = { s with
        closures := s.closures.set j { closure with answered := true }
        log := s.log
          ++ [(.closure j, .send (doneCallback closure.type response closure.id))] } := by
  simp only [step] at h
  split at h
  · next closure hclosure =>
      split at h
      · exact nomatch h
      · next hanswered =>
          exact ⟨closure, hclosure, Bool.eq_false_of_not_eq_true hanswered,
            (Option.some.inj h).symm⟩
  · exact nomatch h

end Step

/-! ## The handler in one piece -/

/-- The steps of a RESPONSE's handler, nothing in between, are
    `on_rpc_callback`. -/
theorem handler_steps {s : State Msg} {m : RpcMessage} (hidle : s.reader = .idle)
    (hres : m.type = .response) :
    ∃ session effects, onRpcCallback s.session (some m) .kNoError = .ok (session, effects) ∧
      ∃ actions, guardedRun step (fun _ _ => True) s (.receive m :: actions)
        = some { s with
            session := session
            received := s.received ++ [m]
            log := s.log ++ effects.map (.message m, ·) } := by
  obtain ⟨session, calls, reader, closures, received, log⟩ := s
  obtain rfl : reader = .idle := hidle
  cases hentry : session.reqCallbacks (uint64ToInt32 m.id) with
  | none =>
      refine ⟨_, _, onRpcCallback_unknown session hres hentry, [], ?_⟩
      simp only [guardedRun, if_true, step, receive, if_pos hres, takeEntry, hentry,
        List.map_nil, List.append_nil]
  | some entry =>
      refine ⟨_, _, onRpcCallback_pending session hres hentry, ?_⟩
      simp only [guardedRun, if_true, step, receive, if_pos hres, takeEntry, hentry]
      by_cases hruns : (completeCall entry m).any startsClosure
      · refine ⟨[.deliver, .doneReturn], ?_⟩
        simp only [guardedRun, if_true, step, deliver, hruns]
      · refine ⟨[.deliver], ?_⟩
        simp only [guardedRun, if_true, step, deliver, hruns, Bool.false_eq_true, if_false]

end RpcSessionRun
