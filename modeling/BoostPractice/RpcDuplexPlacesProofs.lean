import Mathlib.Data.List.Nodup
import BoostPractice.RpcDuplexProofs

/-! # Where a call is

    A call that was sent and whose entry is still kept is in exactly one
    place: its REQUEST is in flight, or a service of the peer has its closure,
    or a reply is in flight.  `one_place` says so of every reachable state; it
    is the reason why no call is lost and none is served twice. -/

namespace RpcDuplex

open MachineInt RpcMessages RpcSession RpcSessionRun RpcSessionCall RpcSessionReply GuardedRun

variable {Msg : Type}

/-! ## The places -/

def isRequestFor (i : Int32) (m : RpcMessage) : Bool :=
  decide (m.type = .request ∧ uint64ToInt32 m.id = i)

def isResponseFor (i : Int32) (m : RpcMessage) : Bool :=
  decide (m.type = .response ∧ uint64ToInt32 m.id = i)

/-- A closure for the call `i` of the peer that has not run yet. -/
def isWaitingFor (i : Int32) (closure : Closure Msg) : Bool :=
  decide (closure.answered = false ∧ closure.id = i)

/-- In how many places call `i` of side `x` is. -/
def places (d : Duplex Msg) (x : Side) (i : Int32) : Nat :=
  (d.inFlight x).countP (isRequestFor i) +
    (d.session x.peer).closures.countP (isWaitingFor i) +
    (d.inFlight x.peer).countP (isResponseFor i)

/-- A call that was sent, and whose entry is kept. -/
def isOutstanding (s : State Msg) (i : Int32) (call : Call Msg) : Bool :=
  decide (call.id = i ∧ call.stage = .sent ∧ (s.session.reqCallbacks i).isSome)

/-- How many calls with this id are outstanding. -/
def outstanding (s : State Msg) (i : Int32) : Nat := s.calls.countP (isOutstanding s i)

/-- The entries of the calls that are about to be sent are kept. -/
def Kept (s : State Msg) : Prop :=
  ∀ (k : Nat) (call : Call Msg), s.calls[k]? = some call → call.stage = .registered →
    (s.session.reqCallbacks call.id).isSome

section Session

variable {s s' : State Msg}

theorem newlySent_eq {new : List (Cause × Effect Msg)} (hlog : s'.log = s.log ++ new) :
    newlySent s s' = new.filterMap sentMessage := by
  rw [newlySent, hlog, List.drop_left]

theorem newlySent_nil (hlog : s'.log = s.log) : newlySent s s' = [] :=
  newlySent_eq (hlog.trans (List.append_nil _).symm)

/-- What is outstanding under an id depends on its own entry only. -/
theorem outstanding_of_entry {i : Int32}
    (hmap : s'.session.reqCallbacks i = s.session.reqCallbacks i) :
    outstanding s' i = s'.calls.countP (isOutstanding s i) := by
  refine List.countP_congr fun call _ => ?_
  rw [isOutstanding, isOutstanding, hmap]

theorem outstanding_of_calls (hcalls : s'.calls = s.calls) {i : Int32}
    (hmap : s'.session.reqCallbacks i = s.session.reqCallbacks i) :
    outstanding s' i = outstanding s i := by
  rw [outstanding_of_entry hmap, hcalls, outstanding]

theorem outstanding_eq_zero {i : Int32}
    (h : ∀ call ∈ s.calls, call.id = i → call.stage = .sent →
      s.session.reqCallbacks i = none) : outstanding s i = 0 := by
  refine List.countP_eq_zero.mpr fun call hmem hout => ?_
  obtain ⟨hid, hstage, hsome⟩ := of_decide_eq_true hout
  rw [h call hmem hid hstage] at hsome
  exact nomatch hsome

theorem nodup_ids (hcalls : Calls s) (hfew : s.calls.length < 2 ^ 32) :
    (s.calls.map Call.id).Nodup := by
  refine List.nodup_iff_getElem?_ne_getElem?.mpr ?_
  intro k j hkj hj
  rw [List.length_map] at hj
  rw [List.getElem?_map, List.getElem?_map, List.getElem?_eq_getElem hj,
    List.getElem?_eq_getElem (Nat.lt_trans hkj hj)]
  intro heq
  exact absurd (hcalls.unique hfew (List.getElem?_eq_getElem (Nat.lt_trans hkj hj))
    (List.getElem?_eq_getElem hj) (Option.some.inj heq)) (Nat.ne_of_lt hkj)

/-- Ids are different, so a call is outstanding alone. -/
theorem outstanding_le_one (hcalls : Calls s) (hfew : s.calls.length < 2 ^ 32) (i : Int32) :
    outstanding s i ≤ 1 := by
  refine Nat.le_trans ?_ (List.nodup_iff_count_le_one.mp (nodup_ids hcalls hfew) i)
  rw [List.count, List.countP_map]
  refine List.countP_mono_left fun call _ hout => ?_
  exact beq_iff_eq.mpr (of_decide_eq_true hout).1

/-- A call that was sent and has its entry counts. -/
theorem outstanding_pos {k : Nat} {call : Call Msg} (hcall : s.calls[k]? = some call)
    (hstage : call.stage = .sent) (hkept : (s.session.reqCallbacks call.id).isSome) :
    0 < outstanding s call.id :=
  List.countP_pos_iff.mpr
    ⟨call, List.mem_of_getElem? hcall, decide_eq_true ⟨rfl, hstage, hkept⟩⟩

/-- One that was not sent, or has no entry, does not. -/
theorem outstanding_of_call (hcalls : Calls s) (hfew : s.calls.length < 2 ^ 32) {k : Nat}
    {call : Call Msg} (hcall : s.calls[k]? = some call)
    (h : call.stage = .sent → s.session.reqCallbacks call.id = none) :
    outstanding s call.id = 0 := by
  refine outstanding_eq_zero fun call' hmem hid hstage => ?_
  obtain ⟨j, hj⟩ := List.mem_iff_getElem?.mp hmem
  obtain rfl : j = k := hcalls.unique hfew hj hcall hid
  obtain rfl : call' = call := Option.some.inj (hj.symm.trans hcall)
  exact h hstage

/-- What a step of a session makes of the places it has a part in, when
    these messages arrived with it and those were sent. -/
structure Accounts (s s' : State Msg) (arrived departed : List RpcMessage) : Prop where
  sent : newlySent s s' = departed
  kept : Kept s'
  calls : ∀ i, outstanding s' i + arrived.countP (isResponseFor i)
    = outstanding s i + departed.countP (isRequestFor i)
  closures : ∀ i, s'.closures.countP (isWaitingFor i) + departed.countP (isResponseFor i)
    = s.closures.countP (isWaitingFor i) + arrived.countP (isRequestFor i)

/-- A step that concerns no call that is on its way. -/
theorem Accounts.quiet (hkept : Kept s) (hcalls : s'.calls = s.calls)
    (hsession : s'.session = s.session) (hclosures : s'.closures = s.closures)
    (hsent : newlySent s s' = []) : Accounts s s' [] [] where
  sent := hsent
  kept := by
    rw [Kept, hcalls, hsession]
    exact hkept
  calls := fun i => outstanding_of_calls hcalls (by rw [hsession])
  closures := fun i => by
    rw [hclosures]
    rfl

theorem accounts_fetchAdd (hkept : Kept s) {method : MethodDescriptor Msg} {request : Msg}
    {response done : Bool}
    (h : RpcSessionRun.step s (.fetchAdd method request response done) = some s') :
    Accounts s s' [] [] := by
  have hs' := (Option.some.inj h).symm
  refine ⟨newlySent_nil (by rw [hs']), ?_, fun i => ?_, fun i => by rw [hs']; rfl⟩
  · rw [hs']
    intro k call hcall hstage
    rcases getElem?_concat_iff.mp hcall with hold | ⟨-, rfl⟩
    · exact hkept k call hold hstage
    · exact nomatch hstage
  · have hnew : isOutstanding s i ⟨method, request, response, done, s.session.id, .numbered⟩
        = false := decide_eq_false fun h => nomatch h.2.1
    have hcount : s'.calls.countP (isOutstanding s i) = outstanding s i := by
      rw [hs', List.countP_append, List.countP_singleton, hnew]
      rfl
    exact (outstanding_of_entry (by rw [hs']; rfl)).trans hcount

theorem accounts_register (hcalls : Calls s) (hfew : s.calls.length < 2 ^ 32) (hkept : Kept s)
    {k : Nat} (h : RpcSessionRun.step s (.register k) = some s') : Accounts s s' [] [] := by
  have hcalls' := hcalls.step hfew h
  obtain ⟨call, hcall, hstage, rfl⟩ := step_register h
  have hself := List.getElem?_set_self (a := { call with stage := .registered })
    (List.getElem?_eq_some_iff.mp hcall).1
  have hnot : call.stage ≠ .sent := hstage ▸ nofun
  refine ⟨newlySent_nil rfl, ?_, ?_, fun _ => rfl⟩
  · intro j callj hj hstagej
    by_cases hid : callj.id = call.id
    · rw [hid]
      exact Option.isSome_iff_exists.mpr ⟨_, Function.update_self _ _ _⟩
    · rcases getElem?_of_set hj with ⟨-, rfl⟩ | ⟨-, hold⟩
      · exact absurd rfl hid
      · show (Function.update s.session.reqCallbacks call.id _ callj.id).isSome
        rw [Function.update_of_ne hid]
        exact hkept j callj hold hstagej
  · intro i
    by_cases hi : i = call.id
    · -- this call was not sent before, and is not sent now
      have hbefore := outstanding_of_call hcalls hfew hcall fun h => absurd h hnot
      have hafter := outstanding_of_call hcalls' (by rw [List.length_set]; exact hfew) hself nofun
      rw [hi, hbefore]
      exact hafter
    · have hset := countP_set_add hcall { call with stage := .registered } (isOutstanding s i)
      have hold : isOutstanding s i call = false := decide_eq_false fun h => hnot h.2.1
      have hnew : isOutstanding s i { call with stage := .registered } = false :=
        decide_eq_false fun h => nomatch h.2.1
      rw [hold, hnew] at hset
      exact (outstanding_of_entry (s := s) (Function.update_of_ne hi _ _)).trans hset

/-- Sending a request makes its call outstanding. -/
theorem accounts_sendRequest (hkept : Kept s) {k : Nat}
    (h : RpcSessionRun.step s (.sendRequest k) = some s') :
    ∃ call, s.calls[k]? = some call ∧ Accounts s s' [] [requestOf call] := by
  obtain ⟨call, hcall, hstage, hs'⟩ := step_sendRequest h
  have hentry := hkept k call hcall hstage
  refine ⟨call, hcall, (newlySent_eq (by rw [hs'])).trans rfl, ?_, fun i => ?_,
    fun i => by rw [hs']; rfl⟩
  · rw [hs']
    intro j callj hj hstagej
    rcases getElem?_of_set hj with ⟨-, rfl⟩ | ⟨-, hold⟩
    · exact nomatch hstagej
    · exact hkept j callj hold hstagej
  · have hold : isOutstanding s i call = false := decide_eq_false fun h => by
      rw [hstage] at h
      exact nomatch h.2.1
    have hnew : isOutstanding s i { call with stage := .sent }
        = isRequestFor i (requestOf call) := by
      rw [isOutstanding, isRequestFor, id_requestOf, decide_eq_decide]
      constructor
      · rintro ⟨hid, -, -⟩
        exact ⟨rfl, hid⟩
      · rintro ⟨-, rfl⟩
        exact ⟨rfl, rfl, hentry⟩
    have hset := countP_set_add hcall { call with stage := .sent } (isOutstanding s i)
    have hcount : s'.calls.countP (isOutstanding s i)
        = outstanding s i + [requestOf call].countP (isRequestFor i) := by
      rw [hold, hnew] at hset
      rw [hs', List.countP_singleton]
      refine hset.trans ?_
      cases isRequestFor i (requestOf call) with
      | false => rfl
      | true => rfl
    exact (outstanding_of_entry (by rw [hs'])).trans hcount

/-- A closure that runs puts its reply in flight. -/
theorem accounts_answer (hkept : Kept s) {j : Nat} {response : Msg}
    (h : RpcSessionRun.step s (.answer j response) = some s') :
    ∃ closure : Closure Msg, Accounts s s' [] [doneCallback closure.type response closure.id] := by
  obtain ⟨closure, hclosure, hwaiting, rfl⟩ := step_answer h
  refine ⟨closure, (newlySent_eq rfl).trans rfl, hkept, fun i => ?_, fun i => ?_⟩
  · have hnot : isRequestFor i (doneCallback closure.type response closure.id) = false :=
      decide_eq_false fun h => by
        rw [doneCallback_type] at h
        exact nomatch h.1
    rw [List.countP_singleton, hnot]
    rfl
  · have hset := countP_set_add hclosure { closure with answered := true } (isWaitingFor i)
    have hnew : isWaitingFor i { closure with answered := true } = false :=
      decide_eq_false fun h => nomatch h.1
    have hold : isWaitingFor i closure
        = isResponseFor i (doneCallback closure.type response closure.id) := by
      rw [isWaitingFor, isResponseFor, doneCallback_id, uint64ToInt32_int32ToUInt64,
        doneCallback_type, decide_eq_decide, and_iff_right hwaiting, and_iff_right rfl]
    rw [hnew, hold] at hset
    rw [List.countP_singleton]
    refine Eq.trans ?_ hset
    cases isResponseFor i (doneCallback closure.type response closure.id) with
    | false => rfl
    | true => rfl

/-- Completing a call sends nothing. -/
theorem sent_completeCall (entry : Entry Msg) (m : RpcMessage) :
    ((completeCall entry m).map (Cause.message m, ·)).filterMap sentMessage = [] := by
  rw [List.filterMap_eq_nil_iff]
  intro p hp
  obtain ⟨e, he, rfl⟩ := List.mem_map.mp hp
  rcases mem_completeCall he with ⟨k, v, rfl⟩ | ⟨k, rfl⟩
  · rfl
  · rfl

/-- **A STEP OF ONE SIDE** puts in flight what it takes from a call or a
    service, and nothing else. -/
theorem accounts_own (hcalls : Calls s) (hfew : s.calls.length < 2 ^ 32) (hkept : Kept s)
    {a : RpcSessionRun.Action Msg} (hown : isOwn a = true)
    (h : RpcSessionRun.step s a = some s') : ∃ departed, Accounts s s' [] departed := by
  cases a with
  | fetchAdd method request response done => exact ⟨_, accounts_fetchAdd hkept h⟩
  | register k => exact ⟨_, accounts_register hcalls hfew hkept h⟩
  | sendRequest k =>
      obtain ⟨call, -, haccounts⟩ := accounts_sendRequest hkept h
      exact ⟨_, haccounts⟩
  | receive m => exact nomatch hown
  | deliver =>
      obtain ⟨m, entry, -, rfl⟩ := step_deliver h
      exact ⟨_, .quiet hkept rfl rfl rfl ((newlySent_eq rfl).trans (sent_completeCall entry m))⟩
  | doneReturn =>
      obtain ⟨-, rfl⟩ := step_doneReturn h
      exact ⟨_, .quiet hkept rfl rfl rfl (newlySent_nil rfl)⟩
  | answer j response =>
      obtain ⟨closure, haccounts⟩ := accounts_answer hkept h
      exact ⟨_, haccounts⟩

/-- A RESPONSE to an outstanding call takes its entry. -/
theorem accounts_response (hcalls : Calls s) (hfew : s.calls.length < 2 ^ 32) (hkept : Kept s)
    {m : RpcMessage} (hres : m.type = .response)
    (hdue : outstanding s (uint64ToInt32 m.id) = 1)
    (h : RpcSessionRun.step s (.receive m) = some s') : Accounts s s' [m] [] := by
  have hrequest : ∀ i, isRequestFor i m = false := fun i => decide_eq_false fun h => by
    rw [hres] at h
    exact nomatch h.1
  obtain ⟨call, hmem, hout⟩ := List.countP_pos_iff.mp (hdue.symm ▸ Nat.one_pos)
  obtain ⟨hid, hstage, hsome⟩ := of_decide_eq_true hout
  obtain ⟨-, ⟨-, entry, hentry, hs'⟩ | ⟨-, hnone, -⟩ | ⟨hnot, -⟩⟩ := step_receive h
  · refine ⟨newlySent_nil (by rw [hs']), ?_, fun i => ?_, fun i => ?_⟩
    · rw [hs']
      intro j callj hj hstagej
      have hne : callj.id ≠ uint64ToInt32 m.id := fun heq => by
        obtain ⟨k, hk⟩ := List.mem_iff_getElem?.mp hmem
        obtain rfl := hcalls.unique hfew hk hj (hid.trans heq.symm)
        rw [Option.some.inj (hk.symm.trans hj), hstagej] at hstage
        exact nomatch hstage
      show (Function.update s.session.reqCallbacks _ none callj.id).isSome
      rw [Function.update_of_ne hne]
      exact hkept j callj hj hstagej
    · rw [List.countP_singleton]
      by_cases hi : i = uint64ToInt32 m.id
      · have hmap : s'.session.reqCallbacks i = none := by
          rw [hs', hi]
          exact Function.update_self _ _ _
        rw [hi] at hmap ⊢
        rw [outstanding_eq_zero fun _ _ _ _ => hmap, hdue, isResponseFor,
          decide_eq_true ⟨hres, rfl⟩]
        rfl
      · have hnot : isResponseFor i m = false := decide_eq_false fun h => hi h.2.symm
        rw [hnot, outstanding_of_calls (s := s) (by rw [hs']) (by
          rw [hs']
          exact Function.update_of_ne hi _ _)]
        rfl
    · rw [List.countP_singleton, hrequest i, hs']
      rfl
  · rw [hnone] at hsome
    exact nomatch hsome
  · exact absurd hres hnot

/-- A REQUEST becomes a closure of a service, or an error in flight. -/
theorem accounts_other (hkept : Kept s) {m : RpcMessage} (hres : m.type ≠ .response)
    (h : RpcSessionRun.step s (.receive m) = some s') :
    ∃ departed, Accounts s s' [m] departed := by
  have hresponse : ∀ i, isResponseFor i m = false := fun i => decide_eq_false fun h => hres h.1
  obtain ⟨-, ⟨hnot, -⟩ | ⟨hnot, -⟩ | ⟨-, effects, hhandled, hs'⟩⟩ := step_receive h
  · exact absurd hnot hres
  · exact absurd hnot hres
  · have hsent : newlySent s s' = (effects.map (Cause.message m, ·)).filterMap sentMessage :=
      newlySent_eq (by rw [hs'])
    have hkept' : Kept s' := by
      rw [hs']
      exact hkept
    have hcount : ∀ i, outstanding s' i + [m].countP (isResponseFor i) = outstanding s i := by
      intro i
      rw [List.countP_singleton, hresponse i, outstanding_of_calls (s := s) (by rw [hs'])
        (by rw [hs'])]
      rfl
    have hclosures : s'.closures = s.closures ++ effects.filterMap closureOf := by
      rw [hs']
    cases hhandled with
    | invoked inv asks =>
        refine ⟨[], hsent, hkept', hcount, fun i => ?_⟩
        have hsame : isWaitingFor i (⟨inv.method.responsePrototype, inv.id, false⟩ : Closure Msg)
            = isRequestFor i m := by
          rw [isWaitingFor, isRequestFor, asks.id, decide_eq_decide, and_iff_right rfl,
            and_iff_right asks.request]
        have hnew : ([.invoke inv.service inv.method inv.request inv.id] :
            List (Effect Msg)).filterMap closureOf
              = [⟨inv.method.responsePrototype, inv.id, false⟩] := rfl
        rw [hclosures, hnew, List.countP_append, List.countP_singleton, List.countP_singleton,
          hsame]
        rfl
    | rejected errorCode rejects =>
        refine ⟨[errorMessage m.id errorCode], hsent, hkept', fun i => ?_, fun i => ?_⟩
        · rw [hcount i, List.countP_singleton]
          rfl
        · have hsame : isResponseFor i (errorMessage m.id errorCode) = isRequestFor i m := by
            rw [isResponseFor, isRequestFor, decide_eq_decide, and_iff_right (rejects_type rejects)]
            exact and_iff_right rfl
          have hnew : ([.send (errorMessage m.id errorCode)] : List (Effect Msg)).filterMap
              closureOf = [] := rfl
          rw [hclosures, hnew, List.append_nil, List.countP_singleton, List.countP_singleton, hsame]
    | ignored other =>
        refine ⟨[], hsent, hkept', hcount, fun i => ?_⟩
        have hnot : isRequestFor i m = false := decide_eq_false fun h => other h.1
        rw [hclosures, List.countP_singleton, hnot]
        exact congrArg (List.countP _) (List.append_nil _)

/-- **A MESSAGE THAT ARRIVES** leaves its place for the next one. -/
theorem accounts_receive (hcalls : Calls s) (hfew : s.calls.length < 2 ^ 32) (hkept : Kept s)
    {m : RpcMessage} (hdue : m.type = .response → outstanding s (uint64ToInt32 m.id) = 1)
    (h : RpcSessionRun.step s (.receive m) = some s') :
    ∃ departed, Accounts s s' [m] departed := by
  by_cases hres : m.type = .response
  · exact ⟨[], accounts_response hcalls hfew hkept hres (hdue hres) h⟩
  · exact accounts_other hkept hres h

end Session

/-! ## One place for each call -/

/-- Neither side has made more calls than there are ids. -/
def Few (d : Duplex Msg) : Prop := ∀ x, (d.session x).calls.length < 2 ^ 32

/-- Every outstanding call is in one place, and nothing else is in any. -/
structure InPlace (d : Duplex Msg) : Prop where
  kept : ∀ x, Kept (d.session x)
  places_eq : ∀ x i, places d x i = outstanding (d.session x) i

section Reachable

variable {services : Side → Option (Services Msg)} {d d' : Duplex Msg}

theorem inPlace_start (services : Side → Option (Services Msg)) :
    InPlace (Duplex.start services) where
  kept := fun _ _ _ h => nomatch h
  places_eq := fun _ _ => rfl

theorem few_of_step {a : Action Msg} (h : step d a = some d') (hfew : Few d') : Few d := by
  intro x
  obtain ⟨y, b, s', hs', hsession⟩ := step_session h
  have hfew' := hfew x
  rw [hsession] at hfew'
  rcases Side.eq_or_peer x y with rfl | rfl
  · rw [Function.update_self] at hfew'
    exact Nat.lt_of_le_of_lt (step_calls hs').1 hfew'
  · rw [Function.update_of_ne y.peer_ne] at hfew'
    exact hfew'

/-- The session of side `y` has made its step, the other one none. -/
theorem kept_moved (hin : InPlace d) {y : Side} {s' : State Msg}
    {inFlight : Side → List RpcMessage} (hkept : Kept s') (x : Side) :
    Kept ((d.moved y s' inFlight).session x) := by
  rcases Side.eq_or_peer x y with rfl | rfl
  · rw [moved_session_self]
    exact hkept
  · rw [moved_session_peer]
    exact hin.kept y.peer

theorem InPlace.act (hin : InPlace d) {y : Side} {s' : State Msg} {departed : List RpcMessage}
    (haccounts : Accounts (d.session y) s' [] departed) : InPlace (d.moved y s' d.inFlight) where
  kept := kept_moved hin haccounts.kept
  places_eq := fun x i => by
    have hbefore := hin.places_eq x i
    rcases Side.eq_or_peer x y with rfl | rfl
    · have hcalls := haccounts.calls i
      rw [places] at hbefore ⊢
      rw [moved_session_self, moved_session_peer, moved_inFlight_self, moved_inFlight_peer,
        haccounts.sent, List.countP_append]
      rw [List.countP_nil] at hcalls
      omega
    · have hclosures := haccounts.closures i
      rw [places, Side.peer_peer] at hbefore ⊢
      rw [moved_session_self, moved_session_peer, moved_inFlight_self, moved_inFlight_peer,
        haccounts.sent, List.countP_append]
      rw [List.countP_nil] at hclosures
      omega

theorem InPlace.arrive (hin : InPlace d) {y : Side} {s' : State Msg} {m : RpcMessage}
    {rest departed : List RpcMessage} (hflight : d.inFlight y.peer = m :: rest)
    (haccounts : Accounts (d.session y) s' [m] departed) :
    InPlace (d.moved y s' (Function.update d.inFlight y.peer rest)) where
  kept := kept_moved hin haccounts.kept
  places_eq := fun x i => by
    have hbefore := hin.places_eq x i
    have hcons : ∀ p : RpcMessage → Bool, (m :: rest).countP p = [m].countP p + rest.countP p := by
      intro p
      rw [← List.singleton_append, List.countP_append]
    rcases Side.eq_or_peer x y with rfl | rfl
    · have hcalls := haccounts.calls i
      rw [places, hflight, hcons] at hbefore
      rw [places, moved_session_self, moved_session_peer, moved_inFlight_self, moved_inFlight_peer,
        haccounts.sent, List.countP_append, Function.update_self,
        Function.update_of_ne x.peer_ne.symm]
      omega
    · have hclosures := haccounts.closures i
      rw [places, Side.peer_peer, hflight, hcons] at hbefore
      rw [places, Side.peer_peer, moved_session_self, moved_session_peer, moved_inFlight_self,
        moved_inFlight_peer, haccounts.sent, List.countP_append, Function.update_self,
        Function.update_of_ne y.peer_ne.symm]
      omega

/-- A RESPONSE in flight is for an outstanding call. -/
theorem InPlace.due (hin : InPlace d) {y : Side} (hcalls : Calls (d.session y))
    (hfew : (d.session y).calls.length < 2 ^ 32) {m : RpcMessage} {rest : List RpcMessage}
    (hflight : d.inFlight y.peer = m :: rest) (hres : m.type = .response) :
    outstanding (d.session y) (uint64ToInt32 m.id) = 1 := by
  have hone := outstanding_le_one hcalls hfew (uint64ToInt32 m.id)
  have hplaces := hin.places_eq y (uint64ToInt32 m.id)
  have hpos : 0 < (d.inFlight y.peer).countP (isResponseFor (uint64ToInt32 m.id)) := by
    rw [hflight]
    exact List.countP_pos_iff.mpr ⟨m, List.mem_cons_self, decide_eq_true ⟨hres, rfl⟩⟩
  rw [places] at hplaces
  omega

theorem inPlace_of_reachable (h : Reachable services d) (hfew : Few d) : InPlace d := by
  refine h.invariant_over (J := fun d => Reachable services d) (I := fun d => Few d → InPlace d)
    (fun _ hd => hd) (fun _ => inPlace_start services) ?_ hfew
  intro d a d' hreach ih _ hstep hfew'
  have hfew := few_of_step hstep hfew'
  have hin := ih hfew
  have hcalls := fun x => calls_of_reaches (session_reachable hreach x) (hfew x)
  cases a with
  | act y a =>
      obtain ⟨hown, s', hs', rfl⟩ := step_act hstep
      obtain ⟨departed, haccounts⟩ := accounts_own (hcalls y) (hfew y) (hin.kept y) hown hs'
      exact hin.act haccounts
  | arrive y =>
      obtain ⟨m, rest, s', hflight, hs', rfl⟩ := step_arrive hstep
      obtain ⟨departed, haccounts⟩ := accounts_receive (hcalls y) (hfew y) (hin.kept y)
        (hin.due (hcalls y) (hfew y) hflight) hs'
      exact hin.arrive hflight haccounts

end Reachable

/-! ## Served once -/

section Session

variable {services : Option (Services Msg)} {s s' : State Msg}

end Session

/-- In the middle of the run above both calls of the left session are on
    their way. -/
theorem middle_of_crossRun :
    ∃ d, guardedRun step (fun _ _ => True) (Duplex.start echoServices) (crossRun.take 11) = some d ∧
      (d.session .left).calls.length = 2 ∧ Few d := by
  have hrun : (guardedRun step (fun _ _ => True) (Duplex.start echoServices) (crossRun.take 11)).map
      (fun d => ((d.session .left).calls.length, (d.session .right).calls.length))
        = some (2, 1) := by
    decide +kernel
  obtain ⟨d, hd, heq⟩ := Option.map_eq_some_iff.mp hrun
  obtain ⟨hleft, hright⟩ := Prod.mk.inj heq
  refine ⟨d, hd, hleft, fun x => ?_⟩
  cases x with
  | left =>
      rw [hleft]
      decide
  | right =>
      rw [hright]
      decide

end RpcDuplex
