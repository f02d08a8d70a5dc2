import BoostPractice.RpcSessionRunProofs

/-! # The replies of a session

    A REQUEST is replied to in one of two places: the error block at the end
    of `on_rpc_callback`, or `done_callback` when the service runs the closure
    it was given.  `Progress` says what a step does to the messages received,
    the closures given and the log; the rest follows from its three cases.

    A reply is always a RESPONSE, and only a REQUEST is replied to: two
    sessions cannot keep a reply going between them. -/

namespace RpcSessionReply

open MachineInt RpcMessages RpcSession RpcSessionRun GuardedRun

variable {Msg : Type}

/-- A message handed to `send_rpc_msg` by the handler of a message, or by a
    closure of `done_callback`. -/
def isReply : Cause × Effect Msg → Bool
  | (.message _, .send _) => true
  | (.closure _, .send _) => true
  | _ => false

/-- What the REQUEST branch does, now: an invocation or an error reply. -/
def isDispatch : Cause × Effect Msg → Bool
  | (.message _, .send _) => true
  | (_, .invoke _ _ _ _) => true
  | _ => false

/-- What closure `j` does. -/
def isAnswerOf (j : Nat) : Cause × Effect Msg → Bool
  | (.closure i, _) => i == j
  | _ => false

def isRequest (m : RpcMessage) : Bool := decide (m.type = .request)

/-- A closure that the service has not run yet. -/
def isWaiting (closure : Closure Msg) : Bool := !closure.answered

/-- The number of replies handed to `send_rpc_msg`. -/
def replies (s : State Msg) : Nat := s.log.countP isReply

/-- What closure `j` has done. -/
def answersOf (s : State Msg) (j : Nat) : List (Cause × Effect Msg) :=
  s.log.filter (isAnswerOf j)

/-! ## What a step does -/

/-- An effect that is neither a reply nor an invocation: what completing a
    call does, and the request that a call sends. -/
def Silent : Cause × Effect Msg → Prop
  | (.message _, .parse _ _) => True
  | (.message _, .run _) => True
  | (.call _, .send m) => m.type = .request
  | _ => False

theorem not_isReply_of_silent {p : Cause × Effect Msg} (h : Silent p) : ¬ isReply p = true := by
  obtain ⟨cause, effect⟩ := p
  cases cause with
  | message m =>
      cases effect with
      | send _ => exact h.elim
      | invoke _ _ _ _ => exact h.elim
      | parse _ _ => exact nofun
      | run _ => exact nofun
  | closure j => exact h.elim
  | call k => exact nofun

theorem not_isDispatch_of_silent {p : Cause × Effect Msg} (h : Silent p) :
    ¬ isDispatch p = true := by
  obtain ⟨cause, effect⟩ := p
  cases cause with
  | message m =>
      cases effect with
      | send _ => exact h.elim
      | invoke _ _ _ _ => exact h.elim
      | parse _ _ => exact nofun
      | run _ => exact nofun
  | closure j => exact h.elim
  | call k =>
      cases effect with
      | send _ => exact nofun
      | invoke _ _ _ _ => exact h.elim
      | parse _ _ => exact h.elim
      | run _ => exact h.elim

theorem not_isAnswerOf_of_silent {p : Cause × Effect Msg} (h : Silent p) (j : Nat) :
    ¬ isAnswerOf j p = true := by
  obtain ⟨cause, effect⟩ := p
  cases cause with
  | message m => exact nofun
  | closure i => exact h.elim
  | call k => exact nofun

/-- Completing a call is silent. -/
theorem silent_completeCall (entry : Entry Msg) (m : RpcMessage) :
    ∀ p ∈ (completeCall entry m).map (Cause.message m, ·), Silent p := by
  intro p hp
  obtain ⟨e, he, rfl⟩ := List.mem_map.mp hp
  rcases mem_completeCall he with ⟨k, v, rfl⟩ | ⟨k, rfl⟩
  · trivial
  · trivial

/-- **WHAT A STEP DOES** as far as replies are concerned: nothing, or it
    handles a message, or a service runs a closure. -/
inductive Progress (s s' : State Msg) : Prop where
  | silent (new : List (Cause × Effect Msg)) (effects : ∀ p ∈ new, Silent p)
      (log : s'.log = s.log ++ new) (received : s'.received = s.received)
      (closures : s'.closures = s.closures)
  | handled (m : RpcMessage) (effects : List (Effect Msg))
      (handled : Handled s.session.services m effects)
      (log : s'.log = s.log ++ effects.map (.message m, ·))
      (received : s'.received = s.received ++ [m])
      (closures : s'.closures = s.closures ++ effects.filterMap closureOf)
  | answered (j : Nat) (closure : Closure Msg) (response : Msg)
      (given : s.closures[j]? = some closure) (waiting : closure.answered = false)
      (log : s'.log
        = s.log ++ [(.closure j, .send (doneCallback closure.type response closure.id))])
      (received : s'.received = s.received)
      (closures : s'.closures = s.closures.set j { closure with answered := true })

section Steps

variable {s s' : State Msg}

theorem progress_receive {m : RpcMessage} (h : step s (.receive m) = some s') :
    s'.session.services = s.session.services ∧ ∃ effects,
      Handled s.session.services m effects ∧
      s'.log = s.log ++ effects.map (.message m, ·) ∧
      s'.received = s.received ++ [m] ∧
      s'.closures = s.closures ++ effects.filterMap closureOf := by
  -- a RESPONSE is no REQUEST, and all that happens to it now is silent
  have hother : m.type = .response → m.type ≠ .request := fun hres hreq =>
    absurd (hres.symm.trans hreq) (by decide)
  obtain ⟨-, ⟨hres, entry, -, rfl⟩ | ⟨hres, -, rfl⟩ | ⟨-, effects, hhandled, rfl⟩⟩ :=
    step_receive h
  · exact ⟨rfl, [], .ignored (hother hres), (List.append_nil _).symm, rfl,
      (List.append_nil _).symm⟩
  · exact ⟨rfl, [], .ignored (hother hres), (List.append_nil _).symm, rfl,
      (List.append_nil _).symm⟩
  · exact ⟨rfl, effects, hhandled, rfl, rfl, rfl⟩

/-- Every step is of one of the three kinds, and leaves the services. -/
theorem step_progress {a : Action Msg} (h : step s a = some s') :
    Progress s s' ∧ s'.session.services = s.session.services := by
  cases a with
  | fetchAdd method request response done =>
      obtain rfl := Option.some.inj h
      exact ⟨.silent [] nofun (List.append_nil _).symm rfl rfl, rfl⟩
  | register k =>
      obtain ⟨call, -, -, rfl⟩ := step_register h
      exact ⟨.silent [] nofun (List.append_nil _).symm rfl rfl, rfl⟩
  | sendRequest k =>
      obtain ⟨call, -, -, rfl⟩ := step_sendRequest h
      refine ⟨.silent _ ?_ rfl rfl rfl, rfl⟩
      intro p hp
      rw [List.mem_singleton.mp hp]
      rfl
  | receive m =>
      obtain ⟨hservices, effects, hhandled, hlog, hreceived, hclosures⟩ := progress_receive h
      exact ⟨.handled m effects hhandled hlog hreceived hclosures, hservices⟩
  | deliver =>
      obtain ⟨m, entry, -, rfl⟩ := step_deliver h
      exact ⟨.silent _ (silent_completeCall entry m) rfl rfl rfl, rfl⟩
  | doneReturn =>
      obtain ⟨-, rfl⟩ := step_doneReturn h
      exact ⟨.silent [] nofun (List.append_nil _).symm rfl rfl, rfl⟩
  | answer j response =>
      obtain ⟨closure, hgiven, hwaiting, rfl⟩ := step_answer h
      exact ⟨.answered j closure response hgiven hwaiting rfl rfl rfl, rfl⟩

end Steps

theorem services_of_reachable {services : Option (Services Msg)} {s : State Msg}
    (h : Reachable services s) : s.session.services = services :=
  h.invariant (I := fun t => t.session.services = services) rfl
    fun _ _ _ hkept _ hstep => (step_progress hstep).2.trans hkept

/-- What every step of each kind keeps holds all along a run. -/
theorem reachable_invariant {services : Option (Services Msg)} {I : State Msg → Prop}
    (start : I (State.start services))
    (next : ∀ s s', s.session.services = services → Progress s s' → I s → I s')
    {s : State Msg} (h : Reachable services s) : I s :=
  h.invariant_over (J := fun t => t.session.services = services)
    (fun _ ht => services_of_reachable ht) start
    fun t _ t' hservices hI _ hstep => next t t' hservices (step_progress hstep).1 hI

/-! ## What is handled -/

theorem rejects_type {services : Option (Services Msg)} {m : RpcMessage} {errorCode : ErrorCode}
    (h : Rejects services m errorCode) : m.type = .request := by
  cases h with
  | noService request _ => exact request
  | noMethod request _ _ _ _ _ => exact request
  | invalidRequest request _ _ _ _ _ _ _ => exact request

section Handled

variable {services : Option (Services Msg)} {m : RpcMessage} {effects : List (Effect Msg)}

/-- All that handling a message does at once is dispatch. -/
theorem filter_handled (h : Handled services m effects) :
    (effects.map (Cause.message m, ·)).filter isDispatch = effects.map (.message m, ·) := by
  cases h with
  | invoked inv _ => rfl
  | rejected errorCode _ => rfl
  | ignored _ => rfl

/-- It gives a closure away or replies if the message is a REQUEST. -/
theorem count_handled (h : Handled services m effects) :
    (effects.map (Cause.message m, ·)).countP isReply
      + (effects.filterMap closureOf).countP isWaiting = [m].countP isRequest := by
  cases h with
  | invoked inv asks => simp [isReply, closureOf, isWaiting, isRequest, asks.request]
  | rejected errorCode rejects => simp [isReply, closureOf, isRequest, rejects_type rejects]
  | ignored other => simp [isRequest, other]

/-- No closure runs meanwhile. -/
theorem not_isAnswerOf_message (j : Nat) :
    ∀ p ∈ effects.map (Cause.message m, ·), ¬ isAnswerOf j p = true := by
  intro p hp
  obtain ⟨e, -, rfl⟩ := List.mem_map.mp hp
  exact nofun

theorem not_answered_of_mem {closure : Closure Msg} (h : closure ∈ effects.filterMap closureOf) :
    closure.answered = false := by
  obtain ⟨e, -, he⟩ := List.mem_filterMap.mp h
  cases e with
  | invoke service method request id => rw [← Option.some.inj he]
  | send _ => exact nomatch he
  | parse _ _ => exact nomatch he
  | run _ => exact nomatch he

/-- What becomes of a message: a REQUEST is invoked as it asks, or gets a
    RESPONSE with its id and the error of the first check that fails, and no
    more; nothing comes of another message now. -/
inductive Outcome (services : Option (Services Msg)) (rpcMsg : RpcMessage) :
    List (Effect Msg) → Prop where
  | invoked (inv : Invocation Msg) (asks : Asks services rpcMsg inv) :
      Outcome services rpcMsg [.invoke inv.service inv.method inv.request inv.id]
  | rejected (errorCode : ErrorCode) (rejects : Rejects services rpcMsg errorCode) :
      Outcome services rpcMsg [.send {
        type := .response
        id := rpcMsg.id
        service := ""
        method := ""
        request := []
        response := []
        error := errorCode }]
  | ignored (other : rpcMsg.type ≠ .request) : Outcome services rpcMsg []

/-- The error block fills in its reply as it should. -/
theorem outcome_of_handled (h : Handled services m effects) : Outcome services m effects := by
  cases h with
  | invoked inv asks => exact .invoked inv asks
  | rejected errorCode rejects => exact .rejected errorCode rejects
  | ignored other => exact .ignored other

end Handled

/-- A message with what its handler dispatches. -/
structure Handling (services : Option (Services Msg)) where
  rpcMsg : RpcMessage
  effects : List (Effect Msg)
  outcome : Outcome services rpcMsg effects

def Handling.log {services : Option (Services Msg)} (handling : Handling services) :
    List (Cause × Effect Msg) := handling.effects.map (.message handling.rpcMsg, ·)

/-- The closures given to services meanwhile. -/
def Handling.closures {services : Option (Services Msg)} (handling : Handling services) :
    List (Closure Msg) := handling.effects.filterMap closureOf

/-- A closure as it was when it was given away. -/
def asGiven (closure : Closure Msg) : Closure Msg := { closure with answered := false }

theorem map_asGiven_of_not_answered {closures : List (Closure Msg)}
    (h : ∀ closure ∈ closures, closure.answered = false) : closures.map asGiven = closures := by
  induction closures with
  | nil => rfl
  | cons closure rest ih =>
      have hsame : asGiven closure = closure := by
        rw [asGiven, ← h closure (List.mem_cons_self ..)]
      rw [List.map_cons, hsame, ih fun c hc => h c (List.mem_cons_of_mem _ hc)]

/-- Running a closure does not change how it was given. -/
theorem map_asGiven_set {closures : List (Closure Msg)} {j : Nat} {closure : Closure Msg}
    (h : closures[j]? = some closure) :
    (closures.set j { closure with answered := true }).map asGiven = closures.map asGiven := by
  obtain ⟨hj, rfl⟩ := List.getElem?_eq_some_iff.mp h
  have hj' : j < (closures.map asGiven).length := by
    rw [List.length_map]
    exact hj
  have hself : asGiven { closures[j] with answered := true } = (closures.map asGiven)[j] := by
    rw [List.getElem_map]
    rfl
  rw [List.map_set, hself, List.set_getElem_self]

/-- These are the handlings of the messages received, in order; all
    invocations and error replies are theirs, and so are all closures. -/
structure Dispatched {services : Option (Services Msg)} (s : State Msg)
    (handlings : List (Handling services)) : Prop where
  received : s.received = handlings.map Handling.rpcMsg
  log : s.log.filter isDispatch = handlings.flatMap Handling.log
  closures : s.closures.map asGiven = handlings.flatMap Handling.closures

theorem dispatched_of_reachable {services : Option (Services Msg)} {s : State Msg}
    (h : Reachable services s) :
    ∃ handlings : List (Handling services), Dispatched s handlings := by
  refine reachable_invariant (I := fun t => ∃ handlings : List (Handling services),
    Dispatched t handlings) ⟨[], rfl, rfl, rfl⟩ ?_ h
  intro t t' hservices hprogress ⟨handlings, hd⟩
  cases hprogress with
  | silent new heffects hlog hreceived hclosures =>
      refine ⟨handlings, hreceived.trans hd.received, ?_, ?_⟩
      · have hnew : new.filter isDispatch = [] :=
          List.filter_eq_nil_iff.mpr fun p hp => not_isDispatch_of_silent (heffects p hp)
        rw [hlog, List.filter_append, hnew, List.append_nil, hd.log]
      · rw [hclosures, hd.closures]
  | handled m effects hhandled hlog hreceived hclosures =>
      refine ⟨handlings ++ [⟨m, effects, outcome_of_handled (hservices ▸ hhandled)⟩], ?_, ?_, ?_⟩
      · rw [hreceived, hd.received, List.map_append]
        rfl
      · rw [hlog, List.filter_append, filter_handled hhandled, hd.log, List.flatMap_append,
          List.flatMap_singleton]
        rfl
      · rw [hclosures, List.map_append, hd.closures,
          map_asGiven_of_not_answered fun _ => not_answered_of_mem, List.flatMap_append,
          List.flatMap_singleton]
        rfl
  | answered j closure response hgiven hwaiting hlog hreceived hclosures =>
      refine ⟨handlings, hreceived.trans hd.received, ?_, ?_⟩
      · rw [hlog, List.filter_append, hd.log]
        exact List.append_nil _
      · rw [hclosures, map_asGiven_set hgiven, hd.closures]

/-! ## What is replied -/

/-- The replies sent and the closures that wait make up the REQUESTs. -/
theorem replies_of_reachable {services : Option (Services Msg)} {s : State Msg}
    (h : Reachable services s) :
    replies s + s.closures.countP isWaiting = s.received.countP isRequest := by
  refine reachable_invariant (I := fun t => replies t + t.closures.countP isWaiting
    = t.received.countP isRequest) rfl ?_ h
  intro t t' _ hprogress hcount
  cases hprogress with
  | silent new heffects hlog hreceived hclosures =>
      have hnew : new.countP isReply = 0 :=
        List.countP_eq_zero.mpr fun p hp => not_isReply_of_silent (heffects p hp)
      rw [replies, hlog, List.countP_append, hnew, hreceived, hclosures]
      exact hcount
  | handled m effects hhandled hlog hreceived hclosures =>
      -- the message counts once, as a reply or as a closure
      rw [replies, hlog, hreceived, hclosures, List.countP_append, List.countP_append,
        List.countP_append, ← hcount, ← count_handled hhandled, replies]
      omega
  | answered j closure response hgiven hwaiting hlog hreceived hclosures =>
      obtain ⟨hj, rfl⟩ := List.getElem?_eq_some_iff.mp hgiven
      have hwaits : isWaiting t.closures[j] = true := by
        rw [isWaiting, hwaiting]
        rfl
      -- one closure waits less, one reply more is sent
      have hpos : 0 < t.closures.countP isWaiting :=
        List.countP_pos_iff.mpr ⟨_, List.getElem_mem hj, hwaits⟩
      have hset : (t.closures.set j { t.closures[j] with answered := true }).countP isWaiting
          = t.closures.countP isWaiting - 1 := by
        rw [List.countP_set hj, if_pos hwaits]
        rfl
      have hone : t'.log.countP isReply = t.log.countP isReply + 1 := by
        rw [hlog, List.countP_append]
        rfl
      rw [replies, hone, hreceived, hclosures, hset, ← hcount, replies]
      omega

/-- The reply of a closure: a RESPONSE with the id the closure was given and
    the encoding of the service's response, or INVALID_REQUEST where that is
    empty. -/
def closureReply (closure : Closure Msg) (response : Msg) : RpcMessage where
  type := .response
  id := int32ToUInt64 closure.id
  service := ""
  method := ""
  request := []
  response := closure.type.serialize response
  error := if closure.type.serialize response = [] then .invalidRequest else .noError

/-- `done_callback` fills in its reply as it should. -/
theorem doneCallback_eq (closure : Closure Msg) (response : Msg) :
    doneCallback closure.type response closure.id = closureReply closure response := by
  rw [doneCallback, closureReply]
  by_cases hempty : closure.type.serialize response = []
  · rw [if_pos hempty, if_pos hempty, hempty]
    rfl
  · rw [if_neg hempty, if_neg hempty]
    rfl

/-- A closure does nothing until it runs, and then sends one reply. -/
def Answered (s : State Msg) (j : Nat) (closure : Closure Msg) : Prop :=
  closure.answered = false ∧ answersOf s j = [] ∨
    closure.answered = true ∧ ∃ response,
      answersOf s j = [(.closure j, .send (closureReply closure response))]

/-- Every closure so far, and none that is still to come. -/
structure Answers (s : State Msg) : Prop where
  given : ∀ (j : Nat) (closure : Closure Msg), s.closures[j]? = some closure → Answered s j closure
  others : ∀ j : Nat, s.closures[j]? = none → answersOf s j = []

theorem answersOf_append {s s' : State Msg} {new : List (Cause × Effect Msg)}
    (hlog : s'.log = s.log ++ new) {j : Nat} (h : ∀ p ∈ new, ¬ isAnswerOf j p = true) :
    answersOf s' j = answersOf s j := by
  rw [answersOf, hlog, List.filter_append, List.filter_eq_nil_iff.mpr h, List.append_nil,
    answersOf]

theorem Answered.frame {s s' : State Msg} {j : Nat} {closure : Closure Msg}
    (h : Answered s j closure) (hsame : answersOf s' j = answersOf s j) :
    Answered s' j closure := by
  rw [Answered, hsame]
  exact h

theorem answers_of_reachable {services : Option (Services Msg)} {s : State Msg}
    (h : Reachable services s) : Answers s := by
  refine reachable_invariant (I := Answers) ⟨fun _ _ hget => (nomatch hget), fun _ _ => rfl⟩ ?_ h
  intro t t' _ hprogress hanswers
  cases hprogress with
  | silent new heffects hlog hreceived hclosures =>
      have hsame : ∀ j, answersOf t' j = answersOf t j := fun j =>
        answersOf_append hlog fun p hp => not_isAnswerOf_of_silent (heffects p hp) j
      constructor
      · intro j closure hget
        rw [hclosures] at hget
        exact (hanswers.given j closure hget).frame (hsame j)
      · intro j hget
        rw [hclosures] at hget
        exact (hsame j).trans (hanswers.others j hget)
  | handled m effects hhandled hlog hreceived hclosures =>
      have hsame : ∀ j, answersOf t' j = answersOf t j := fun j =>
        answersOf_append hlog (not_isAnswerOf_message j)
      constructor
      · intro j closure hget
        rw [hclosures, List.getElem?_append] at hget
        split at hget
        · exact (hanswers.given j closure hget).frame (hsame j)
        · -- a closure just given has done nothing
          next hge =>
            have hnone := List.getElem?_eq_none (Nat.le_of_not_lt hge)
            exact .inl ⟨not_answered_of_mem (List.mem_of_getElem? hget),
              (hsame j).trans (hanswers.others j hnone)⟩
      · intro j hget
        rw [hclosures, List.getElem?_eq_none_iff, List.length_append] at hget
        refine (hsame j).trans (hanswers.others j ?_)
        exact List.getElem?_eq_none (Nat.le_trans (Nat.le_add_right _ _) hget)
  | answered i closure response hgiven hwaiting hlog hreceived hclosures =>
      have hi := (List.getElem?_eq_some_iff.mp hgiven).1
      -- the closure that runs has done nothing before
      have hnone : answersOf t i = [] := by
        rcases hanswers.given i closure hgiven with ⟨-, hnone⟩ | ⟨hrun, -⟩
        · exact hnone
        · exact nomatch hwaiting.symm.trans hrun
      have hself : answersOf t' i
          = [(.closure i, .send (doneCallback closure.type response closure.id))] := by
        rw [answersOf, hlog, List.filter_append, ← answersOf, hnone]
        simp [isAnswerOf]
      have hother : ∀ j, j ≠ i → answersOf t' j = answersOf t j := by
        intro j hj
        refine answersOf_append hlog fun p hp => ?_
        rw [List.mem_singleton.mp hp]
        simp [isAnswerOf, Ne.symm hj]
      constructor
      · intro j closure' hget
        rw [hclosures] at hget
        by_cases hj : j = i
        · rw [hj] at hget ⊢
          rw [List.getElem?_set_self hi] at hget
          rw [← Option.some.inj hget]
          exact .inr ⟨rfl, response, hself.trans (by rw [doneCallback_eq]; rfl)⟩
        · rw [List.getElem?_set_ne (Ne.symm hj)] at hget
          exact (hanswers.given j closure' hget).frame (hother j hj)
      · intro j hget
        rw [hclosures, List.getElem?_eq_none_iff, List.length_set] at hget
        have hj : j ≠ i := fun heq => absurd hi (Nat.not_lt_of_le (heq ▸ hget))
        exact (hother j hj).trans (hanswers.others j (List.getElem?_eq_none hget))

/-- Who sends what: a reply is a RESPONSE, on behalf of a REQUEST or of a
    closure, and a call sends a REQUEST. -/
def Origin : Cause × Effect Msg → Prop
  | (.message m, .send m') => m.type = .request ∧ m'.type = .response
  | (.closure _, .send m') => m'.type = .response
  | (.call _, .send m') => m'.type = .request
  | (.message m, .invoke _ _ _ _) => m.type = .request
  | (_, .invoke _ _ _ _) => False
  | _ => True

theorem origin_of_silent {p : Cause × Effect Msg} (h : Silent p) : Origin p := by
  obtain ⟨cause, effect⟩ := p
  cases cause with
  | message m =>
      cases effect with
      | send _ => exact h.elim
      | invoke _ _ _ _ => exact h.elim
      | parse _ _ => trivial
      | run _ => trivial
  | closure j => exact h.elim
  | call k =>
      cases effect with
      | send _ => exact h
      | invoke _ _ _ _ => exact h.elim
      | parse _ _ => trivial
      | run _ => trivial

theorem origin_of_handled {services : Option (Services Msg)} {m : RpcMessage}
    {effects : List (Effect Msg)} (h : Handled services m effects) :
    ∀ p ∈ effects.map (Cause.message m, ·), Origin p := by
  intro p hp
  cases h with
  | invoked inv asks =>
      rw [List.mem_singleton.mp hp]
      exact asks.request
  | rejected errorCode rejects =>
      rw [List.mem_singleton.mp hp]
      exact ⟨rejects_type rejects, rfl⟩
  | ignored _ => exact nomatch hp

theorem origin_of_reachable {services : Option (Services Msg)} {s : State Msg}
    (h : Reachable services s) : ∀ p ∈ s.log, Origin p := by
  refine reachable_invariant (I := fun t => ∀ p ∈ t.log, Origin p) nofun ?_ h
  intro t t' _ hprogress horigin p hp
  cases hprogress with
  | silent new heffects hlog _ _ =>
      rw [hlog] at hp
      rcases List.mem_append.mp hp with hold | hnew
      · exact horigin p hold
      · exact origin_of_silent (heffects p hnew)
  | handled m effects hhandled hlog _ _ =>
      rw [hlog] at hp
      rcases List.mem_append.mp hp with hold | hnew
      · exact horigin p hold
      · exact origin_of_handled hhandled p hnew
  | answered j closure response _ _ hlog _ _ =>
      rw [hlog] at hp
      rcases List.mem_append.mp hp with hold | hnew
      · exact horigin p hold
      · rw [List.mem_singleton.mp hnew]
        exact doneCallback_type closure.type response closure.id

/-! ## One reply per request -/

/-- How a session with these services deals with what it receives. -/
structure Replied (services : Option (Services Msg)) (s : State Msg) : Prop where
  /-- Each REQUEST is invoked once as it asks, or rejected for the first
      check that fails; nothing else is. -/
  handlings : ∃ handlings : List (Handling services), Dispatched s handlings
  /-- A closure sends one reply when it runs. -/
  answers : ∀ (j : Nat) (closure : Closure Msg), s.closures[j]? = some closure →
    Answered s j closure
  /-- A REQUEST has had its reply, or its closure has not run yet. -/
  count : replies s + s.closures.countP isWaiting = s.received.countP isRequest
  complete : (∀ closure ∈ s.closures, closure.answered = true) →
    replies s = s.received.countP isRequest
  origin : ∀ p ∈ s.log, Origin p
  /-- Another message than a REQUEST causes no reply, at once or later. -/
  others : ∀ m s', step s (.receive m) = some s' → m.type ≠ .request →
    replies s' = replies s ∧ s'.closures = s.closures
  completion : ∀ a s', (a = .deliver ∨ a = .doneReturn) → step s a = some s' →
    replies s' = replies s ∧ s'.closures = s.closures
  /-- Every message is handled, every handler ends and every closure that
      waits can run. -/
  receives : s.reader = .idle → ∀ m, ∃ s', step s (.receive m) = some s'
  ends : s.reader ≠ .idle → ∃ a s', (a = .deliver ∨ a = .doneReturn) ∧ step s a = some s'
  runs : ∀ (j : Nat) (closure : Closure Msg), s.closures[j]? = some closure →
    closure.answered = false → ∀ response, ∃ s', step s (.answer j response) = some s'

/-- A session that is not handling a message can handle any. -/
theorem receives_any {s : State Msg} (hidle : s.reader = .idle) (m : RpcMessage) :
    ∃ s', step s (.receive m) = some s' := by
  simp only [step, hidle, receive]
  by_cases hres : m.type = .response
  · exact ⟨_, if_pos hres⟩
  · obtain ⟨effects, hok, -⟩ := onRpcCallback_handled s.session hres
    rw [if_neg hres, hok]
    exact ⟨_, rfl⟩

/-- A handler that has not ended can go on. -/
theorem handler_ends {s : State Msg} (hbusy : s.reader ≠ .idle) :
    ∃ a s', (a = .deliver ∨ a = .doneReturn) ∧ step s a = some s' := by
  cases hreader : s.reader with
  | idle => exact absurd hreader hbusy
  | holding m entry =>
      refine ⟨.deliver, deliver s m entry, .inl rfl, ?_⟩
      simp only [step, hreader]
  | running m =>
      refine ⟨.doneReturn, { s with reader := .idle }, .inr rfl, ?_⟩
      simp only [step, hreader]

/-- A service can run a closure that waits. -/
theorem waiting_runs {s : State Msg} {j : Nat} {closure : Closure Msg}
    (hget : s.closures[j]? = some closure) (hwaiting : closure.answered = false)
    (response : Msg) : ∃ s', step s (.answer j response) = some s' := by
  refine ⟨{ s with
    closures := s.closures.set j { closure with answered := true }
    log := s.log ++ [(.closure j, .send (doneCallback closure.type response closure.id))] }, ?_⟩
  simp only [step, hget, hwaiting, Bool.false_eq_true, if_false]

/-- **ONE REPLY PER REQUEST**, and none otherwise, whatever arrives and
    whenever the services run their closures. -/
theorem one_reply_per_request {services : Option (Services Msg)} {s : State Msg}
    (h : Reachable services s) : Replied services s := by
  have hcount := replies_of_reachable h
  constructor
  · exact dispatched_of_reachable h
  · exact (answers_of_reachable h).given
  · exact hcount
  · intro hall
    have hnone : s.closures.countP isWaiting = 0 := by
      refine List.countP_eq_zero.mpr fun closure hmem => ?_
      rw [isWaiting, hall closure hmem]
      exact nofun
    rw [← hcount, hnone, Nat.add_zero]
  · exact origin_of_reachable h
  · intro m s' hstep hother
    obtain ⟨-, effects, hhandled, hlog, -, hclosures⟩ := progress_receive hstep
    cases hhandled with
    | invoked inv asks => exact absurd asks.request hother
    | rejected errorCode rejects => exact absurd (rejects_type rejects) hother
    | ignored _ =>
        rw [replies, hlog, hclosures]
        exact ⟨congrArg _ (List.append_nil _), List.append_nil _⟩
  · rintro a s' (rfl | rfl) hstep
    · obtain ⟨m, entry, -, rfl⟩ := step_deliver hstep
      have hnew : ((completeCall entry m).map (Cause.message m, ·)).countP isReply = 0 :=
        List.countP_eq_zero.mpr fun p hp => not_isReply_of_silent (silent_completeCall entry m p hp)
      refine ⟨?_, rfl⟩
      show (s.log ++ (completeCall entry m).map (Cause.message m, ·)).countP isReply = replies s
      rw [List.countP_append, hnew, Nat.add_zero, replies]
    · obtain ⟨-, rfl⟩ := step_doneReturn hstep
      exact ⟨rfl, rfl⟩
  · exact receives_any
  · exact handler_ends
  · exact fun j closure => waiting_runs

/-- Two REQUESTs to the echo service, one each that fails each check, a
    RESPONSE, an ERROR and a message of no known type; the services answer
    the second REQUEST first. -/
def echoRun : List (Action RpcMessage) :=
  let ask : RpcMessage := { RpcMessage.new with
    service := "test.EchoService", method := "Echo",
    request := rpcProto.serialize { RpcMessage.new with id := 7 } }
  [.receive { ask with id := 1 }, .receive { ask with id := 2 },
    .receive { ask with id := 3, service := "" }, .answer 1 { RpcMessage.new with id := 7 },
    .receive { ask with id := 4, method := "" }, .receive { ask with id := 5, request := [1] },
    .receive { ask with id := 6, type := .response }, .receive { ask with id := 7, type := .error },
    .receive { ask with id := 8, type := ⟨-5⟩ }, .answer 0 .new]

theorem one_reply_per_request_on_run :
    ∃ s, guardedRun step (fun _ _ => True) (State.start (some (registerServices [echoService])))
        echoRun = some s ∧ replies s = 5 ∧
      Replied (some (registerServices [echoService])) s := by
  have hrun : (guardedRun step (fun _ _ => True)
      (State.start (some (registerServices [echoService]))) echoRun).map replies = some 5 := by
    decide +kernel
  obtain ⟨s, hs, hreplies⟩ := Option.map_eq_some_iff.mp hrun
  exact ⟨s, hs, hreplies, one_reply_per_request (reaches_of_guardedRun hs)⟩

end RpcSessionReply
