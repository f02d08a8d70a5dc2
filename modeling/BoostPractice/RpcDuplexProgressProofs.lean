import BoostPractice.RpcDuplexPlacesProofs

/-! # Every call comes to its end

    Each step but a new call takes some call one place further, so a run
    without new calls ends (`run_length`), on both sides together: replies do
    not cause replies.  Where nothing can go on every call has had its one
    reply, and `calls_end` says that every run gets there. -/

namespace RpcDuplex

open MachineInt RpcMessages RpcSession RpcSessionRun RpcSessionCall RpcSessionReply GuardedRun

variable {Msg : Type}

/-! ## How much is left to do -/

/-- The steps a call, a message or a closure can still cause. -/
def callWork (call : Call Msg) : Nat :=
  match call.stage with
  | .numbered => 7
  | .registered => 6
  | .sent => 0

def messageWork (m : RpcMessage) : Nat := if m.type = .request then 5 else 3

def closureWork (closure : Closure Msg) : Nat := if closure.answered then 0 else 4

def readerWork : Reader Msg → Nat
  | .holding _ _ => 2
  | .running _ => 1
  | .idle => 0

def sessionWork (s : State Msg) : Nat :=
  (s.calls.map callWork).sum + (s.closures.map closureWork).sum + readerWork s.reader

/-- All that is left to do on a side, and in flight from it. -/
def sideWork (d : Duplex Msg) (x : Side) : Nat :=
  sessionWork (d.session x) + ((d.inFlight x).map messageWork).sum

def work (d : Duplex Msg) : Nat := sideWork d .left + sideWork d .right

/-- A new call brings all its work with it. -/
def newWork : RpcSessionRun.Action Msg → Nat
  | .fetchAdd _ _ _ _ => 8
  | _ => 0

section Session

variable {services : Option (Services Msg)} {s s' : State Msg}

theorem messageWork_response {m : RpcMessage} (h : m.type = .response) : messageWork m = 3 := by
  rw [messageWork, if_neg]
  rw [h]
  decide

/-- A step of one side lowers what is left to do, in flight included. -/
theorem sessionWork_own {a : RpcSessionRun.Action Msg} (hown : isOwn a = true)
    (h : RpcSessionRun.step s a = some s') :
    sessionWork s' + ((newlySent s s').map messageWork).sum + 1 ≤ sessionWork s + newWork a := by
  cases a with
  | fetchAdd method request response done =>
      have hs' := (Option.some.inj h).symm
      rw [newlySent_nil (by rw [hs']), sessionWork, sessionWork, hs']
      simp only [List.map_append, List.sum_append, List.map_cons, List.map_nil, List.sum_cons,
        List.sum_nil, callWork, newWork]
      omega
  | register k =>
      obtain ⟨call, hcall, hstage, hs'⟩ := step_register h
      have hset := sum_map_set hcall { call with stage := .registered } callWork
      rw [newlySent_nil (by rw [hs']), sessionWork, sessionWork, hs']
      simp only [callWork, hstage, newWork, List.map_nil, List.sum_nil] at hset ⊢
      omega
  | sendRequest k =>
      obtain ⟨call, hcall, hstage, hs'⟩ := step_sendRequest h
      have hset := sum_map_set hcall { call with stage := .sent } callWork
      have hsent : newlySent s s' = [requestOf call] := (newlySent_eq (by rw [hs'])).trans rfl
      have hwork : messageWork (requestOf call) = 5 := rfl
      rw [hsent, sessionWork, sessionWork, hs']
      simp only [callWork, hstage, newWork, List.map_cons, List.map_nil, List.sum_cons,
        List.sum_nil, hwork] at hset ⊢
      omega
  | receive m => exact nomatch hown
  | deliver =>
      obtain ⟨m, entry, hheld, hs'⟩ := step_deliver h
      have hsent : newlySent s s' = [] :=
        (newlySent_eq (by rw [hs']; rfl)).trans (sent_completeCall entry m)
      have hreader : readerWork s'.reader ≤ 1 := by
        rw [hs']
        show readerWork (if _ then _ else _) ≤ 1
        split
        · exact Nat.le_refl _
        · exact Nat.zero_le _
      have hheldwork : readerWork s.reader = 2 := by rw [hheld]; rfl
      have hcalls : s'.calls = s.calls := by rw [hs']; rfl
      have hclosures : s'.closures = s.closures := by rw [hs']; rfl
      rw [hsent, sessionWork, sessionWork, hcalls, hclosures, hheldwork, List.map_nil, List.sum_nil]
      omega
  | doneReturn =>
      obtain ⟨⟨m, hrunning⟩, hs'⟩ := step_doneReturn h
      rw [newlySent_nil (by rw [hs']), sessionWork, sessionWork, hs', hrunning]
      simp only [readerWork, newWork, List.map_nil, List.sum_nil]
      omega
  | answer j response =>
      obtain ⟨closure, hclosure, hwaiting, hs'⟩ := step_answer h
      have hset := sum_map_set hclosure { closure with answered := true } closureWork
      have hsent : newlySent s s' = [doneCallback closure.type response closure.id] :=
        (newlySent_eq (by rw [hs'])).trans rfl
      have hwork : messageWork (doneCallback closure.type response closure.id) = 3 :=
        messageWork_response (doneCallback_type _ _ _)
      rw [hsent, sessionWork, sessionWork, hs']
      simp only [closureWork, hwaiting, Bool.false_eq_true, if_false, if_true, newWork,
        List.map_cons, List.map_nil, List.sum_cons, List.sum_nil, hwork] at hset ⊢
      omega

/-- What is left after dispatch is less than the message was. -/
theorem handledWork {m : RpcMessage} {effects : List (Effect Msg)}
    (h : Handled services m effects) :
    ((effects.filterMap closureOf).map closureWork).sum +
      (((effects.map (Cause.message m, ·)).filterMap sentMessage).map messageWork).sum + 1
        ≤ messageWork m := by
  cases h with
  | invoked inv asks =>
      rw [messageWork, if_pos asks.request]
      exact Nat.le_refl 5
  | rejected errorCode rejects =>
      rw [messageWork, if_pos (rejects_type rejects)]
      exact Nat.le_succ 4
  | ignored other =>
      rw [messageWork, if_neg other]
      exact Nat.le_add_left 1 2

/-- So does a message that arrives, with its own share. -/
theorem sessionWork_receive {m : RpcMessage} (h : RpcSessionRun.step s (.receive m) = some s') :
    sessionWork s' + ((newlySent s s').map messageWork).sum + 1
      ≤ sessionWork s + messageWork m := by
  obtain ⟨hidle, ⟨hres, entry, -, hs'⟩ | ⟨hres, -, hs'⟩ | ⟨-, effects, hhandled, hs'⟩⟩ :=
    step_receive h
  · rw [newlySent_nil (by rw [hs']), sessionWork, sessionWork, hs', hidle,
      messageWork_response hres]
    simp only [readerWork, List.map_nil, List.sum_nil]
    omega
  · rw [newlySent_nil (by rw [hs']), sessionWork, sessionWork, hs', hidle,
      messageWork_response hres]
    simp only [readerWork, List.map_nil, List.sum_nil]
    omega
  · have hsent : newlySent s s' = (effects.map (Cause.message m, ·)).filterMap sentMessage :=
      newlySent_eq (by rw [hs'])
    have hwork := handledWork hhandled
    rw [hsent, sessionWork, sessionWork, hs']
    simp only [List.map_append, List.sum_append]
    omega

end Session

/-- An action that starts a call. -/
def isNewCall : Action Msg → Bool
  | .act _ (.fetchAdd _ _ _ _) => true
  | _ => false

def actionWork : Action Msg → Nat
  | .act _ a => newWork a
  | .arrive _ => 0

theorem actionWork_eq (a : Action Msg) : actionWork a = if isNewCall a then 8 else 0 := by
  cases a with
  | act x b =>
      cases b with
      | fetchAdd _ _ _ _ => rfl
      | register _ => rfl
      | sendRequest _ => rfl
      | receive _ => rfl
      | deliver => rfl
      | doneReturn => rfl
      | answer _ _ => rfl
  | arrive x => rfl

theorem work_sides (d : Duplex Msg) (x : Side) : work d = sideWork d x + sideWork d x.peer := by
  cases x with
  | left => rfl
  | right => exact Nat.add_comm _ _

/-- **EVERY STEP** but a new call leaves less to do. -/
theorem work_step {d d' : Duplex Msg} {a : Action Msg} (h : step d a = some d') :
    work d' + 1 ≤ work d + actionWork a := by
  cases a with
  | act y a =>
      obtain ⟨hown, s', hs', rfl⟩ := step_act h
      have hless := sessionWork_own hown hs'
      rw [work_sides _ y, work_sides d y, sideWork, sideWork, sideWork, sideWork,
        moved_session_self, moved_session_peer, moved_inFlight_self, moved_inFlight_peer,
        List.map_append, List.sum_append, actionWork]
      omega
  | arrive y =>
      obtain ⟨m, rest, s', hflight, hs', rfl⟩ := step_arrive h
      have hless := sessionWork_receive hs'
      rw [work_sides _ y, work_sides d y, sideWork, sideWork, sideWork, sideWork,
        moved_session_self, moved_session_peer, moved_inFlight_self, moved_inFlight_peer, hflight,
        List.map_append, List.sum_append, Function.update_self,
        Function.update_of_ne y.peer_ne.symm, List.map_cons, List.sum_cons, actionWork]
      omega

/-- **NO PING-PONG**: whatever is called, served and answered, on both sides
    and in any order, `n` calls make for at most `8 * n` steps. -/
theorem run_length {services : Side → Option (Services Msg)} {as : List (Action Msg)}
    {d : Duplex Msg} (h : guardedRun step (fun _ _ => True) (Duplex.start services) as = some d) :
    as.length + work d ≤ 8 * as.countP isNewCall := by
  have hbound := length_of_guardedRun (fun _ _ _ hstep => work_step hstep) as _ d h
  have hstart : work (Duplex.start services) = 0 := rfl
  have hcost : (as.map actionWork).sum = 8 * as.countP isNewCall := by
    generalize as = bs
    induction bs with
    | nil => rfl
    | cons a bs ih =>
        rw [List.map_cons, List.sum_cons, ih, List.countP_cons, actionWork_eq]
        split
        · omega
        · omega
  rw [hstart, hcost, Nat.zero_add] at hbound
  exact hbound

theorem run_length_on_run :
    ∃ d, guardedRun step (fun _ _ => True) (Duplex.start echoServices) crossRun = some d ∧
      crossRun.length + work d ≤ 8 * crossRun.countP isNewCall := by
  have hrun : (guardedRun step (fun _ _ => True) (Duplex.start echoServices) crossRun).isSome := by
    decide +kernel
  obtain ⟨d, hd⟩ := Option.isSome_iff_exists.mp hrun
  exact ⟨d, hd, run_length hd⟩

/-! ## How a call ends -/

/-- How often the closure of a call is run for this reply. -/
def completions (call : Call Msg) (m : RpcMessage) : Nat :=
  if m.error = .noError ∧ call.response ∧ call.done then 1 else 0

/-- This RESPONSE took the entry of call `k`, and its handler has not gone on
    yet, or has run the closure as it had to. -/
structure TakenBy (s : State Msg) (k : Nat) (call : Call Msg) (m : RpcMessage) : Prop where
  received : m ∈ s.received
  response : m.type = .response
  id : uint64ToInt32 m.id = call.id
  ran : s.reader = .holding m (call.entry k) ∨ s.runs k = completions call m

/-- Every call that has lost its entry has lost it to a RESPONSE. -/
def AllTaken (s : State Msg) : Prop :=
  ∀ (k : Nat) (call : Call Msg), s.calls[k]? = some call → call.stage ≠ .numbered →
    s.session.reqCallbacks call.id = none → ∃ m, TakenBy s k call m

section Session

variable {services : Option (Services Msg)} {s s' : State Msg}

theorem TakenBy.frame {k : Nat} {call : Call Msg} {m : RpcMessage} (h : TakenBy s k call m)
    (hreceived : ∀ m ∈ s.received, m ∈ s'.received)
    (hreader : s.reader = .holding m (call.entry k) → s'.reader = .holding m (call.entry k))
    (hruns : s'.runs k = s.runs k) : TakenBy s' k call m where
  received := hreceived m h.received
  response := h.response
  id := h.id
  ran := h.ran.imp hreader hruns.trans

/-- Completing a call runs its closure if there is no error, an object to
    parse into and a closure. -/
theorem countP_completions (m : RpcMessage) (call : Call Msg) (k : Nat) :
    ((completeCall (call.entry k) m).map (Cause.message m, ·)).countP (isRun k)
      = completions call m := by
  rw [Call.entry, callEntry, completeCall, completions]
  cases call.response with
  | false => simp
  | true =>
      by_cases herror : m.error = .noError
      · cases call.done with
        | false => simp [herror, isRun]
        | true => simp [herror, isRun]
      · simp [herror]

theorem allTaken_receive (hcalls : Calls s) (hfew : s.calls.length < 2 ^ 32) (htaken : AllTaken s)
    {m : RpcMessage} (h : RpcSessionRun.step s (.receive m) = some s') : AllTaken s' := by
  have hmono : ∀ m' ∈ s.received, m' ∈ s.received ++ [m] := fun m' => List.mem_append_left _
  obtain ⟨hidle, ⟨hres, entry, hentry, rfl⟩ | ⟨-, -, rfl⟩ | ⟨-, effects, hhandled, rfl⟩⟩ :=
    step_receive h
  · intro j callj hj hstage hnone
    obtain ⟨k, call, hcall, hid⟩ := hcalls.kept_call _ _ hentry
    by_cases hjk : j = k
    · subst hjk
      obtain rfl : callj = call := Option.some.inj (hj.symm.trans hcall)
      obtain ⟨rfl, -⟩ := (hcalls.ok j callj hcall).kept entry (by rw [hid]; exact hentry)
      exact ⟨m, List.mem_append_right _ List.mem_cons_self, hres, hid.symm, .inl rfl⟩
    · have hne : callj.id ≠ uint64ToInt32 m.id := fun heq =>
        hjk (hcalls.unique hfew hj hcall (heq.trans hid.symm))
      have hold : s.session.reqCallbacks callj.id = none := by
        rw [← hnone]
        exact (Function.update_of_ne hne _ _).symm
      obtain ⟨m', hm'⟩ := htaken j callj hj hstage hold
      exact ⟨m', hm'.frame hmono (fun hheld => nomatch hidle.symm.trans hheld) rfl⟩
  · intro j callj hj hstage hnone
    obtain ⟨m', hm'⟩ := htaken j callj hj hstage hnone
    exact ⟨m', hm'.frame hmono (fun hheld => nomatch hidle.symm.trans hheld) rfl⟩
  · intro j callj hj hstage hnone
    obtain ⟨m', hm'⟩ := htaken j callj hj hstage hnone
    refine ⟨m', hm'.frame hmono id ?_⟩
    rw [runs_append rfl j, countP_handled hhandled j, Nat.add_zero]

theorem allTaken_deliver (hcalls : Calls s) (hfew : s.calls.length < 2 ^ 32) (hheard : Heard s)
    (htaken : AllTaken s) (h : RpcSessionRun.step s .deliver = some s') : AllTaken s' := by
  obtain ⟨m, entry, hheld, rfl⟩ := step_deliver h
  obtain ⟨hres, k, call, hcall, hid, rfl, hzero, -⟩ := hcalls.holding hheld
  intro j callj hj hstage hnone
  by_cases hjk : j = k
  · subst hjk
    obtain rfl : callj = call := Option.some.inj (hj.symm.trans hcall)
    refine ⟨m, hheard.holding m _ hheld, hres, hid.symm, .inr ?_⟩
    rw [runs_deliver, hzero, Nat.zero_add, countP_completions]
  · obtain ⟨m', hm'⟩ := htaken j callj hj hstage hnone
    refine ⟨m', hm'.frame (fun _ => id) (fun hheld' => ?_) ?_⟩
    · -- the handler held the entry of call `k`
      obtain ⟨rfl, -⟩ := Reader.holding.inj (hheld.symm.trans hheld')
      exact absurd (hcalls.unique hfew hj hcall (hm'.id.symm.trans hid.symm)) hjk
    · have hcount := countP_completeCall m call k j
      rw [if_neg hjk, Nat.le_zero] at hcount
      rw [runs_deliver, hcount, Nat.add_zero]

theorem allTaken_step (hcalls : Calls s) (hfew : s.calls.length < 2 ^ 32) (hheard : Heard s)
    (htaken : AllTaken s) {a : RpcSessionRun.Action Msg}
    (h : RpcSessionRun.step s a = some s') : AllTaken s' := by
  cases a with
  | fetchAdd method request response done =>
      obtain rfl := Option.some.inj h
      intro j callj hj hstage hnone
      rcases getElem?_concat_iff.mp hj with hold | ⟨-, rfl⟩
      · obtain ⟨m, hm⟩ := htaken j callj hold hstage hnone
        exact ⟨m, hm.frame (fun _ => id) id rfl⟩
      · exact absurd rfl hstage
  | register k =>
      obtain ⟨call, hcall, -, rfl⟩ := step_register h
      intro j callj hj hstage hnone
      rcases getElem?_of_set hj with ⟨-, rfl⟩ | ⟨hjk, hold⟩
      · exact nomatch (Function.update_self _ _ _).symm.trans hnone
      · have hne : callj.id ≠ call.id := fun heq => hjk (hcalls.unique hfew hcall hold heq.symm)
        have hnone' : s.session.reqCallbacks callj.id = none := by
          rw [← hnone]
          exact (Function.update_of_ne hne _ _).symm
        obtain ⟨m, hm⟩ := htaken j callj hold hstage hnone'
        exact ⟨m, hm.frame (fun _ => id) id rfl⟩
  | sendRequest k =>
      obtain ⟨call, hcall, hregistered, rfl⟩ := step_sendRequest h
      intro j callj hj hstage hnone
      rcases getElem?_of_set hj with ⟨rfl, rfl⟩ | ⟨-, hold⟩
      · obtain ⟨m, hm⟩ := htaken k call hcall (hregistered ▸ nofun) hnone
        exact ⟨m, hm.received, hm.response, hm.id, hm.ran.imp id (runs_send rfl k).trans⟩
      · obtain ⟨m, hm⟩ := htaken j callj hold hstage hnone
        exact ⟨m, hm.frame (fun _ => id) id (runs_send rfl j)⟩
  | receive m => exact allTaken_receive hcalls hfew htaken h
  | deliver => exact allTaken_deliver hcalls hfew hheard htaken h
  | doneReturn =>
      obtain ⟨⟨m, hrunning⟩, rfl⟩ := step_doneReturn h
      intro j callj hj hstage hnone
      obtain ⟨m', hm'⟩ := htaken j callj hj hstage hnone
      exact ⟨m', hm'.frame (fun _ => id) (fun hheld => nomatch hrunning.symm.trans hheld) rfl⟩
  | answer i response =>
      obtain ⟨closure, -, -, rfl⟩ := step_answer h
      intro j callj hj hstage hnone
      obtain ⟨m, hm⟩ := htaken j callj hj hstage hnone
      exact ⟨m, hm.frame (fun _ => id) id (runs_send rfl j)⟩

theorem allTaken_of_reachable (h : RpcSessionRun.Reachable services s)
    (hfew : s.calls.length < 2 ^ 32) : AllTaken s := by
  refine h.invariant_over (J := RpcSessionRun.Reachable services)
    (I := fun t => t.calls.length < 2 ^ 32 → AllTaken t) (fun _ ht => ht)
    (fun _ _ _ hnil => nomatch hnil) ?_ hfew
  intro t a t' hreach ih _ hstep hfew'
  have hlt : t.calls.length < 2 ^ 32 := Nat.lt_of_le_of_lt (step_calls hstep).1 hfew'
  exact allTaken_step (calls_of_reaches hreach hlt) hlt (heard_of_reachable hreach) (ih hlt) hstep

end Session

/-- Nothing can happen but a new call. -/
def Settled (d : Duplex Msg) : Prop := ∀ a, isNewCall a = false → step d a = none

/-- **RESOLVED**: the call was sent, one RESPONSE took its entry, which is a
    reply of the peer to this call, and the closure was run for it if it
    carries no error and the caller gave both pointers. -/
structure Resolved (d : Duplex Msg) (x : Side) (k : Nat) (call : Call Msg) : Prop where
  sent : call.stage = .sent
  entry : (d.session x).session.reqCallbacks call.id = none
  reply : ∃ m ∈ (d.session x).received,
    Reply (d.session x.peer).session.services (requestOf call) m ∧
      (d.session x).runs k = completions call m

section Settled

variable {services : Side → Option (Services Msg)} {d : Duplex Msg}

theorem step_of_own {x : Side} {a : RpcSessionRun.Action Msg} (hown : isOwn a = true)
    {s' : State Msg} (h : RpcSessionRun.step (d.session x) a = some s') :
    step d (.act x a) = some (d.moved x s' d.inFlight) := by
  simp only [step, hown, h, if_true]

/-- Where nothing can happen, no handler runs. -/
theorem Settled.idle (hsettled : Settled d) (x : Side) : (d.session x).reader = .idle := by
  by_contra hbusy
  obtain ⟨a, s', ha, hs'⟩ := handler_ends hbusy
  rcases ha with rfl | rfl
  · exact nomatch (hsettled (.act x .deliver) rfl).symm.trans (step_of_own rfl hs')
  · exact nomatch (hsettled (.act x .doneReturn) rfl).symm.trans (step_of_own rfl hs')

/-- Nothing is in flight, as it could arrive. -/
theorem Settled.inFlight (hsettled : Settled d) (x : Side) : d.inFlight x = [] := by
  cases hflight : d.inFlight x with
  | nil => rfl
  | cons m rest =>
      obtain ⟨s', hs'⟩ := receives_any (hsettled.idle x.peer) m
      have hstep : step d (.arrive x.peer)
          = some (d.moved x.peer s' (Function.update d.inFlight x.peer.peer rest)) := by
        simp only [step, Side.peer_peer, hflight, hs']
      cases (hsettled (.arrive x.peer) rfl).symm.trans hstep

/-- No service has a closure left to run. -/
theorem Settled.answered (h : Reachable services d) (hsettled : Settled d) {x : Side} {j : Nat}
    {closure : Closure Msg} (hget : (d.session x).closures[j]? = some closure) :
    closure.answered = true := by
  cases hwaiting : closure.answered with
  | true => rfl
  | false =>
      obtain ⟨m, inv, -⟩ := given_of_reachable (session_reachable h x) hget
      obtain ⟨s', hs'⟩ := waiting_runs hget hwaiting inv.request
      exact nomatch (hsettled (.act x (.answer j inv.request)) rfl).symm.trans
        (step_of_own rfl hs')

/-- Every call was sent. -/
theorem Settled.sent (hsettled : Settled d) {x : Side} {k : Nat} {call : Call Msg}
    (hcall : (d.session x).calls[k]? = some call) : call.stage = .sent := by
  cases hstage : call.stage with
  | sent => rfl
  | numbered =>
      have hs' : (RpcSessionRun.step (d.session x) (.register k)).isSome := by
        simp only [RpcSessionRun.step, hcall, hstage, if_true, Option.isSome_some]
      obtain ⟨s', hs'⟩ := Option.isSome_iff_exists.mp hs'
      cases (hsettled (.act x (.register k)) rfl).symm.trans (step_of_own rfl hs')
  | registered =>
      have hs' : (RpcSessionRun.step (d.session x) (.sendRequest k)).isSome := by
        simp only [RpcSessionRun.step, hcall, hstage, if_true, Option.isSome_some]
      obtain ⟨s', hs'⟩ := Option.isSome_iff_exists.mp hs'
      cases (hsettled (.act x (.sendRequest k)) rfl).symm.trans (step_of_own rfl hs')

/-- No call is in any place, so none waits for its reply. -/
theorem Settled.places (h : Reachable services d) (hsettled : Settled d) (x : Side) (i : Int32) :
    places d x i = 0 := by
  have hclosures : (d.session x.peer).closures.countP (isWaitingFor i) = 0 := by
    refine List.countP_eq_zero.mpr fun closure hmem hwaiting => ?_
    obtain ⟨j, hj⟩ := List.mem_iff_getElem?.mp hmem
    exact nomatch (of_decide_eq_true hwaiting).1.symm.trans (hsettled.answered h hj)
  rw [RpcDuplex.places, hsettled.inFlight, hsettled.inFlight, hclosures]
  rfl

theorem settled_resolved (h : Reachable services d) (hfew : Few d) (hsettled : Settled d)
    (x : Side) (k : Nat) (call : Call Msg) (hcall : (d.session x).calls[k]? = some call) :
    Resolved d x k call := by
  have hreach := session_reachable h x
  have hcalls := calls_of_reaches hreach (hfew x)
  have hsent := hsettled.sent hcall
  have hnone : (d.session x).session.reqCallbacks call.id = none := by
    cases hentry : (d.session x).session.reqCallbacks call.id with
    | none => rfl
    | some e =>
        have hpos := outstanding_pos hcall hsent (by rw [hentry]; rfl)
        rw [← (inPlace_of_reachable h hfew).places_eq, hsettled.places h] at hpos
        exact absurd hpos (Nat.lt_irrefl 0)
  obtain ⟨m, htaken⟩ := allTaken_of_reachable hreach (hfew x) k call hcall (hsent ▸ nofun) hnone
  obtain ⟨k', call', hcall', -, hreply⟩ :=
    reply_to_call h (sent_of_received h htaken.received) htaken.response
  have hid : call'.id = call.id := by
    rw [← htaken.id, hreply.id, id_requestOf]
  obtain rfl : k' = k := hcalls.unique (hfew x) hcall' hcall hid
  obtain rfl : call' = call := Option.some.inj (hcall'.symm.trans hcall)
  refine ⟨hsent, hnone, m, htaken.received, ?_, ?_⟩
  · rw [services_of_side h]
    exact hreply
  · rcases htaken.ran with hheld | hran
    · exact nomatch (hsettled.idle x).symm.trans hheld
    · exact hran

end Settled

/-- A step that starts no call makes none. -/
theorem calls_of_step {d d' : Duplex Msg} {a : Action Msg} (hold : isNewCall a = false)
    (h : step d a = some d') (x : Side) :
    (d'.session x).calls.length = (d.session x).calls.length := by
  have hsame : ∀ {s s' : State Msg} {b : RpcSessionRun.Action Msg}, newWork b = 0 →
      RpcSessionRun.step s b = some s' → s'.calls.length = s.calls.length := by
    intro s s' b hnew hstep
    cases b with
    | fetchAdd _ _ _ _ => exact nomatch hnew
    | register k =>
        obtain ⟨call, -, -, rfl⟩ := step_register hstep
        exact List.length_set
    | sendRequest k =>
        obtain ⟨call, -, -, rfl⟩ := step_sendRequest hstep
        exact List.length_set
    | receive m =>
        obtain ⟨-, ⟨-, entry, -, rfl⟩ | ⟨-, -, rfl⟩ | ⟨-, effects, -, rfl⟩⟩ := step_receive hstep
        · rfl
        · rfl
        · rfl
    | deliver =>
        obtain ⟨m, entry, -, rfl⟩ := step_deliver hstep
        rfl
    | doneReturn =>
        obtain ⟨-, rfl⟩ := step_doneReturn hstep
        rfl
    | answer j response =>
        obtain ⟨closure, -, -, rfl⟩ := step_answer hstep
        rfl
  have hmoved : ∀ (y : Side) (s' : State Msg) (inFlight : Side → List RpcMessage),
      s'.calls.length = (d.session y).calls.length →
      ((d.moved y s' inFlight).session x).calls.length = (d.session x).calls.length := by
    intro y s' inFlight hs'
    rcases Side.eq_or_peer x y with rfl | rfl
    · rw [moved_session_self, hs']
    · rw [moved_session_peer]
  cases a with
  | act y b =>
      obtain ⟨-, s', hs', rfl⟩ := step_act h
      have hnew : newWork b = 0 := by
        have := actionWork_eq (.act y b)
        rwa [hold] at this
      exact hmoved y s' _ (hsame hnew hs')
  | arrive y =>
      obtain ⟨m, rest, s', -, hs', rfl⟩ := step_arrive h
      exact hmoved y s' _ (hsame rfl hs')

/-- **EVERY CALL COMES TO ITS END**: as soon as no new calls are made, each
    run goes on to a state where nothing is left to do, whichever step is
    taken next; and there every call has been resolved by its own reply. -/
theorem calls_end {services : Side → Option (Services Msg)} {d : Duplex Msg}
    (h : Reachable services d) (hfew : Few d) :
    (∀ a d', isNewCall a = false → step d a = some d' → work d' < work d) ∧
      ∃ d', Reaches step (fun _ a => isNewCall a = false) d d' ∧ Settled d' ∧
        ∀ (x : Side) (k : Nat) (call : Call Msg), (d'.session x).calls[k]? = some call →
          Resolved d' x k call := by
  have hless : ∀ (d : Duplex Msg) a d', isNewCall a = false → step d a = some d' →
      work d' < work d := by
    intro d a d' hold hstep
    have hwork := work_step hstep
    rw [actionWork_eq, hold] at hwork
    exact hwork
  refine ⟨hless d, ?_⟩
  obtain ⟨d', hrun, hstuck⟩ := exists_stuck (C := fun _ a => isNewCall a = false) hless d
  have hreach : Reachable services d' := Reaches.append h (hrun.mono fun _ _ _ => trivial)
  have hfew' : Few d' := by
    refine hrun.invariant (I := Few) hfew ?_
    intro e a e' hfew hold hstep x
    rw [calls_of_step hold hstep x]
    exact hfew x
  exact ⟨d', hrun, hstuck, settled_resolved hreach hfew' hstuck⟩

theorem calls_end_on_run :
    ∃ d, guardedRun step (fun _ _ => True) (Duplex.start echoServices) (crossRun.take 11) = some d ∧
      ∃ d', Reaches step (fun _ a => isNewCall a = false) d d' ∧ Settled d' ∧
        ∀ (x : Side) (k : Nat) (call : Call RpcMessage), (d'.session x).calls[k]? = some call →
          Resolved d' x k call := by
  obtain ⟨d, hd, -, hfew⟩ := middle_of_crossRun
  exact ⟨d, hd, (calls_end (reaches_of_guardedRun hd) hfew).2⟩

end RpcDuplex
