import BoostPractice.RpcSessionRunProofs

/-! # The calls of a session

    Ids are the numbers of the calls, modulo `2 ^ 32`; below `2 ^ 32` calls
    they are all different.  A call's entry is in `reqCallbacks_`, or held by
    the handler of the RESPONSE that took it, or gone; its closure has not
    run as long as the entry is anywhere.

    `correlation` is what follows for the peer: it can complete a call at
    most once, and only by a RESPONSE that carries its id and no error.
    `calls_accounted` says in which runs no call is dropped. -/

namespace RpcSessionCall

open MachineInt BoostBuffer RpcMessages RpcCodecRead RpcSession RpcSessionRun GuardedRun

variable {Msg : Type}

/-! ## Counting the runs of a closure -/

theorem runs_append {s s' : State Msg} {new : List (Cause × Effect Msg)}
    (h : s'.log = s.log ++ new) (k : Nat) : s'.runs k = s.runs k + new.countP (isRun k) := by
  rw [State.runs, h, List.countP_append, State.runs]

theorem runs_send {s s' : State Msg} {cause : Cause} {m : RpcMessage}
    (h : s'.log = s.log ++ [(cause, .send m)]) (k : Nat) : s'.runs k = s.runs k := runs_append h k

/-- What handles another message than a RESPONSE runs no closure of a call. -/
theorem countP_handled {services : Option (Services Msg)} {m : RpcMessage}
    {effects : List (Effect Msg)} (h : Handled services m effects) (k : Nat) :
    (effects.map (Cause.message m, ·)).countP (isRun k) = 0 := by
  cases h with
  | invoked inv _ => rfl
  | rejected errorCode _ => rfl
  | ignored _ => rfl

/-- Completing the call `k` does nothing, or parses into its own response
    object and runs its own closure, if it has one. -/
theorem completeCall_entry (m : RpcMessage) (call : Call Msg) (k : Nat) :
    completeCall (call.entry k) m = [] ∨
      m.error = .noError ∧ completeCall (call.entry k) m
        = .parse k (call.method.responsePrototype.parseFromArray m.response).1 ::
          if call.done then [.run k] else [] := by
  rcases completeCall_cases (call.entry k) m with hnone | ⟨response, hresponse, herror, hsome⟩
  · exact .inl hnone
  · refine .inr ⟨herror, ?_⟩
    have hptr : response = ⟨k, call.method.responsePrototype⟩ := by
      rw [Call.entry, callEntry] at hresponse
      split at hresponse
      · exact (Option.some.inj hresponse).symm
      · cases hresponse
    rw [hsome, hptr, Call.entry, callEntry]
    cases call.done with
    | false => rfl
    | true => rfl

/-- That is one run of its closure at most, and no other. -/
theorem countP_completeCall (m : RpcMessage) (call : Call Msg) (k j : Nat) :
    ((completeCall (call.entry k) m).map (Cause.message m, ·)).countP (isRun j)
      ≤ if j = k then 1 else 0 := by
  rcases completeCall_entry m call k with hnone | ⟨-, hsome⟩
  · rw [hnone]
    exact Nat.zero_le _
  · rw [hsome]
    cases call.done with
    | false => exact Nat.zero_le _
    | true =>
        by_cases hj : j = k
        · rw [if_pos hj]
          exact Nat.le_of_eq (by rw [hj]; simp [isRun])
        · rw [if_neg hj]
          exact Nat.le_of_eq (by simp [isRun, Ne.symm hj])

/-! ## The invariant -/

/-- An entry of call `k` is the one it made, and its closure has not run. -/
structure CallOk (s : State Msg) (k : Nat) (call : Call Msg) : Prop where
  numbered : call.stage = .numbered → s.runs k = 0
  kept : ∀ e, s.session.reqCallbacks call.id = some e →
    e = call.entry k ∧ call.stage ≠ .numbered ∧ s.runs k = 0
  held : ∀ m e, s.reader = .holding m e → uint64ToInt32 m.id = call.id →
    e = call.entry k ∧ call.stage ≠ .numbered ∧ s.runs k = 0 ∧
      s.session.reqCallbacks call.id = none
  once : s.runs k ≤ 1

/-- Ids are the numbers of the calls, and every entry belongs to a call. -/
structure Calls (s : State Msg) : Prop where
  next_id : s.session.id = Int32.ofNat s.calls.length
  id : ∀ (k : Nat) (call : Call Msg), s.calls[k]? = some call → call.id = Int32.ofNat k
  ok : ∀ (k : Nat) (call : Call Msg), s.calls[k]? = some call → CallOk s k call
  kept_call : ∀ id e, s.session.reqCallbacks id = some e →
    ∃ (k : Nat) (call : Call Msg), s.calls[k]? = some call ∧ call.id = id
  held_call : ∀ m e, s.reader = .holding m e → m.type = .response ∧
    ∃ (k : Nat) (call : Call Msg), s.calls[k]? = some call ∧ call.id = uint64ToInt32 m.id
  unmade : ∀ k : Nat, s.calls[k]? = none → s.runs k = 0

theorem calls_start (services : Option (Services Msg)) : Calls (State.start services) where
  next_id := rfl
  id := fun _ _ h => nomatch h
  ok := fun _ _ h => nomatch h
  kept_call := fun _ _ h => nomatch h
  held_call := fun _ _ h => nomatch h
  unmade := fun _ _ => rfl

section Steps

variable {s s' : State Msg}

/-- Calls with one id are one call. -/
theorem Calls.unique (hcalls : Calls s) (hfew : s.calls.length < 2 ^ 32) {k j : Nat}
    {call call' : Call Msg} (hk : s.calls[k]? = some call) (hj : s.calls[j]? = some call')
    (hid : call.id = call'.id) : k = j := by
  have hklt := (List.getElem?_eq_some_iff.mp hk).1
  have hjlt := (List.getElem?_eq_some_iff.mp hj).1
  rw [hcalls.id k call hk, hcalls.id j call' hj] at hid
  exact int32_ofNat_inj (Nat.lt_trans hklt hfew) (Nat.lt_trans hjlt hfew) hid

/-- A call that a step does not concern stays as it is. -/
theorem CallOk.frame {k : Nat} {call : Call Msg} (hok : CallOk s k call)
    (hmap : s'.session.reqCallbacks call.id = s.session.reqCallbacks call.id)
    (hreader : ∀ m e, s'.reader = .holding m e → uint64ToInt32 m.id = call.id →
      s.reader = .holding m e)
    (hruns : s'.runs k = s.runs k) : CallOk s' k call where
  numbered := fun h => hruns.trans (hok.numbered h)
  kept := fun e he => by
    obtain ⟨hentry, hstage, hrun⟩ := hok.kept e (hmap.symm.trans he)
    exact ⟨hentry, hstage, hruns.trans hrun⟩
  held := fun m e hheld hid => by
    obtain ⟨hentry, hstage, hrun, hnone⟩ := hok.held m e (hreader m e hheld hid) hid
    exact ⟨hentry, hstage, hruns.trans hrun, hmap.trans hnone⟩
  once := hruns ▸ hok.once

/-- **A STEP OF ONE CALL** keeps the invariant if it keeps that call's part
    of it, and touches no other call's entry or closure. -/
theorem Calls.at_call (hcalls : Calls s) (hfew : s.calls.length < 2 ^ 32) {k : Nat}
    {call call' : Call Msg} (hcall : s.calls[k]? = some call)
    (hself : s'.calls[k]? = some call') (hid : call'.id = call.id)
    (hothers : ∀ j, j ≠ k → s'.calls[j]? = s.calls[j]?)
    (hlength : s'.calls.length = s.calls.length) (hnext : s'.session.id = s.session.id)
    (hmap : ∀ id, id ≠ call.id → s'.session.reqCallbacks id = s.session.reqCallbacks id)
    (hreader : ∀ m e, s'.reader = .holding m e → s.reader = .holding m e ∨
      (m.type = .response ∧ uint64ToInt32 m.id = call.id))
    (hruns : ∀ j, j ≠ k → s'.runs j = s.runs j) (hok : CallOk s' k call') : Calls s' := by
  have hkeeps : ∀ (j : Nat) (callj : Call Msg), s.calls[j]? = some callj →
      ∃ callj', s'.calls[j]? = some callj' ∧ callj'.id = callj.id := by
    intro j callj hj
    by_cases hjk : j = k
    · rw [hjk] at hj ⊢
      rw [Option.some.inj (hj.symm.trans hcall)]
      exact ⟨call', hself, hid⟩
    · exact ⟨callj, by rw [hothers j hjk]; exact hj, rfl⟩
  constructor
  · rw [hnext, hcalls.next_id, hlength]
  · intro j callj hj
    by_cases hjk : j = k
    · rw [hjk] at hj ⊢
      rw [← Option.some.inj (hself.symm.trans hj), hid, hcalls.id k call hcall]
    · exact hcalls.id j callj (by rw [← hothers j hjk]; exact hj)
  · intro j callj hj
    by_cases hjk : j = k
    · rw [hjk] at hj ⊢
      rw [← Option.some.inj (hself.symm.trans hj)]
      exact hok
    · -- another call has another id, so its entry is not the one that changes
      rw [hothers j hjk] at hj
      have hne : callj.id ≠ call.id := fun heq => hjk (hcalls.unique hfew hj hcall heq)
      refine (hcalls.ok j callj hj).frame (hmap _ hne) ?_ (hruns j hjk)
      intro m e hheld hmid
      rcases hreader m e hheld with hold | ⟨-, hk⟩
      · exact hold
      · exact absurd (hmid.symm.trans hk) hne
  · intro id e he
    by_cases hidk : id = call.id
    · exact ⟨k, call', hself, hid.trans hidk.symm⟩
    · rw [hmap id hidk] at he
      obtain ⟨j, callj, hj, hjid⟩ := hcalls.kept_call id e he
      obtain ⟨callj', hj', heq⟩ := hkeeps j callj hj
      exact ⟨j, callj', hj', heq.trans hjid⟩
  · intro m e hheld
    rcases hreader m e hheld with hold | ⟨hres, hk⟩
    · obtain ⟨hres, j, callj, hj, hjid⟩ := hcalls.held_call m e hold
      obtain ⟨callj', hj', heq⟩ := hkeeps j callj hj
      exact ⟨hres, j, callj', hj', heq.trans hjid⟩
    · exact ⟨hres, k, call', hself, hid.trans hk.symm⟩
  · intro j hj
    have hjk : j ≠ k := by
      rintro rfl
      exact nomatch hself.symm.trans hj
    rw [hruns j hjk]
    exact hcalls.unmade j (by rw [← hothers j hjk]; exact hj)

/-- A step of no call changes none of this. -/
theorem Calls.frame (hcalls : Calls s) (hsame : s'.calls = s.calls)
    (hsession : s'.session = s.session)
    (hreader : ∀ m e, s'.reader = .holding m e → s.reader = .holding m e)
    (hruns : ∀ k, s'.runs k = s.runs k) : Calls s' where
  next_id := by rw [hsession, hsame, hcalls.next_id]
  id := by
    rw [hsame]
    exact hcalls.id
  ok := by
    rw [hsame]
    exact fun k call hcall => (hcalls.ok k call hcall).frame (by rw [hsession])
      (fun m e hheld _ => hreader m e hheld) (hruns k)
  kept_call := by
    rw [hsame, hsession]
    exact hcalls.kept_call
  held_call := by
    rw [hsame]
    exact fun m e hheld => hcalls.held_call m e (hreader m e hheld)
  unmade := by
    rw [hsame]
    exact fun k hk => (hruns k).trans (hcalls.unmade k hk)

theorem Calls.fetchAdd (hcalls : Calls s) (hfew : s.calls.length < 2 ^ 32)
    {method : MethodDescriptor Msg} {request : Msg} {response done : Bool}
    (h : step s (.fetchAdd method request response done) = some s') : Calls s' := by
  obtain rfl := Option.some.inj h
  let new : Call Msg := ⟨method, request, response, done, s.session.id, .numbered⟩
  have hlast : s.calls[s.calls.length]? = none := List.getElem?_eq_none (Nat.le_refl _)
  -- no call has the new id yet
  have hfresh : ∀ (j : Nat) (callj : Call Msg), s.calls[j]? = some callj →
      callj.id ≠ s.session.id := by
    intro j callj hj heq
    have hjlt := (List.getElem?_eq_some_iff.mp hj).1
    rw [hcalls.id j callj hj, hcalls.next_id] at heq
    exact absurd (int32_ofNat_inj (Nat.lt_trans hjlt hfew) hfew heq) (Nat.ne_of_lt hjlt)
  have hkeep : ∀ (j : Nat) (callj : Call Msg), s.calls[j]? = some callj →
      (s.calls ++ [new])[j]? = some callj :=
    fun j callj hj => getElem?_concat_iff.mpr (.inl hj)
  constructor
  · show s.session.id + 1 = Int32.ofNat (s.calls ++ [new]).length
    rw [hcalls.next_id, int32_ofNat_succ, List.length_append, List.length_singleton]
  · intro j callj hj
    rcases getElem?_concat_iff.mp hj with hj | ⟨rfl, rfl⟩
    · exact hcalls.id j callj hj
    · exact hcalls.next_id
  · intro j callj hj
    rcases getElem?_concat_iff.mp hj with hj | ⟨rfl, rfl⟩
    · exact (hcalls.ok j callj hj).frame rfl (fun m e hheld _ => hheld) rfl
    · -- whatever is kept or held belongs to a call made before, with another id
      have hzero := hcalls.unmade _ hlast
      refine ⟨fun _ => hzero, ?_, ?_, hzero ▸ Nat.zero_le 1⟩
      · intro e he
        obtain ⟨j, callj, hj, hid⟩ := hcalls.kept_call _ e he
        exact absurd hid (hfresh j callj hj)
      · intro m e hheld hid
        obtain ⟨-, j, callj, hj, hjid⟩ := hcalls.held_call m e hheld
        exact absurd (hjid.trans hid) (hfresh j callj hj)
  · intro id e he
    obtain ⟨j, callj, hj, hid⟩ := hcalls.kept_call id e he
    exact ⟨j, callj, hkeep j callj hj, hid⟩
  · intro m e hheld
    obtain ⟨hres, j, callj, hj, hid⟩ := hcalls.held_call m e hheld
    exact ⟨hres, j, callj, hkeep j callj hj, hid⟩
  · intro j hj
    exact hcalls.unmade j (getElem?_of_concat_none hj)

theorem Calls.register (hcalls : Calls s) (hfew : s.calls.length < 2 ^ 32) {k : Nat}
    (h : step s (.register k) = some s') : Calls s' := by
  obtain ⟨call, hcall, hstage, rfl⟩ := step_register h
  have hk := (List.getElem?_eq_some_iff.mp hcall).1
  have hzero := (hcalls.ok k call hcall).numbered hstage
  refine hcalls.at_call hfew hcall (List.getElem?_set_self hk) rfl
    (fun j hj => List.getElem?_set_ne (Ne.symm hj)) List.length_set rfl
    (fun id hid => Function.update_of_ne hid _ _) (fun m e hheld => .inl hheld) (fun _ _ => rfl) ?_
  refine ⟨nofun, ?_, ?_, hzero ▸ Nat.zero_le 1⟩
  · intro e he
    have hself : (s.session.register call.id (call.entry k)).reqCallbacks call.id
        = some (call.entry k) := Function.update_self _ _ _
    exact ⟨(Option.some.inj (hself.symm.trans he)).symm, nofun, hzero⟩
  · intro m e hheld hid
    exact absurd hstage ((hcalls.ok k call hcall).held m e hheld hid).2.1

theorem Calls.sendRequest (hcalls : Calls s) (hfew : s.calls.length < 2 ^ 32) {k : Nat}
    (h : step s (.sendRequest k) = some s') : Calls s' := by
  obtain ⟨call, hcall, hstage, rfl⟩ := step_sendRequest h
  have hk := (List.getElem?_eq_some_iff.mp hcall).1
  have hok := hcalls.ok k call hcall
  refine hcalls.at_call hfew hcall (List.getElem?_set_self hk) rfl
    (fun j hj => List.getElem?_set_ne (Ne.symm hj)) List.length_set rfl (fun _ _ => rfl)
    (fun m e hheld => .inl hheld) (fun j _ => runs_send rfl j) ?_
  refine ⟨nofun, ?_, ?_, ?_⟩
  · intro e he
    obtain ⟨hentry, -, hrun⟩ := hok.kept e he
    exact ⟨hentry, nofun, (runs_send rfl k).trans hrun⟩
  · intro m e hheld hid
    obtain ⟨hentry, -, hrun, hnone⟩ := hok.held m e hheld hid
    exact ⟨hentry, nofun, (runs_send rfl k).trans hrun, hnone⟩
  · exact Nat.le_trans (Nat.le_of_eq (runs_send rfl k)) hok.once

theorem Calls.receive (hcalls : Calls s) (hfew : s.calls.length < 2 ^ 32) {m : RpcMessage}
    (h : step s (.receive m) = some s') : Calls s' := by
  obtain ⟨hidle, ⟨hres, entry, hentry, rfl⟩ | ⟨-, -, rfl⟩ | ⟨-, effects, hhandled, rfl⟩⟩ :=
    step_receive h
  · -- the handler takes the entry of a pending call
    obtain ⟨k, call, hcall, hid⟩ := hcalls.kept_call _ _ hentry
    have hok := hcalls.ok k call hcall
    obtain ⟨rfl, hstage, hrun⟩ := hok.kept entry (by rw [hid]; exact hentry)
    refine hcalls.at_call hfew hcall hcall rfl (fun _ _ => rfl) rfl rfl
      (fun id hne => Function.update_of_ne (hid ▸ hne) _ _) ?_ (fun _ _ => rfl) ?_
    · intro m' e hheld
      obtain ⟨rfl, -⟩ := Reader.holding.inj hheld
      exact .inr ⟨hres, hid.symm⟩
    · have hnone : Function.update s.session.reqCallbacks (uint64ToInt32 m.id) none call.id
          = none := by
        rw [hid, Function.update_self]
      refine ⟨fun _ => hrun, ?_, ?_, hok.once⟩
      · intro e he
        exact nomatch hnone.symm.trans he
      · intro m' e hheld _
        obtain ⟨-, rfl⟩ := Reader.holding.inj hheld
        exact ⟨rfl, hstage, hrun, hnone⟩
  · exact hcalls.frame rfl rfl (fun _ _ hheld => nomatch hheld) (fun _ => rfl)
  · refine hcalls.frame rfl rfl (fun _ _ hheld => hheld) fun k => ?_
    rw [runs_append rfl k, countP_handled hhandled k, Nat.add_zero]

/-- The entry a handler holds is that of one call, and its message carries
    the call's id. -/
theorem Calls.holding (hcalls : Calls s) {m : RpcMessage} {entry : Entry Msg}
    (hheld : s.reader = .holding m entry) :
    m.type = .response ∧ ∃ (k : Nat) (call : Call Msg), s.calls[k]? = some call ∧
      call.id = uint64ToInt32 m.id ∧ entry = call.entry k ∧ s.runs k = 0 ∧
      s.session.reqCallbacks call.id = none := by
  obtain ⟨hres, k, call, hcall, hid⟩ := hcalls.held_call m entry hheld
  obtain ⟨hentry, -, hrun, hnone⟩ := (hcalls.ok k call hcall).held m entry hheld hid.symm
  exact ⟨hres, k, call, hcall, hid, hentry, hrun, hnone⟩

theorem runs_deliver (s : State Msg) (m : RpcMessage) (entry : Entry Msg) (k : Nat) :
    (deliver s m entry).runs k
      = s.runs k + ((completeCall entry m).map (Cause.message m, ·)).countP (isRun k) :=
  runs_append (show (deliver s m entry).log = s.log ++ _ from rfl) k

/-- While a closure runs, and when there is none to run, nothing is held. -/
theorem deliver_reader (s : State Msg) (m : RpcMessage) (entry : Entry Msg) (m' : RpcMessage)
    (e : Entry Msg) : (deliver s m entry).reader ≠ .holding m' e := by
  rw [deliver]
  show (if _ then _ else _) ≠ _
  split
  · intro hheld
    cases hheld
  · intro hheld
    cases hheld

theorem Calls.deliver (hcalls : Calls s) (hfew : s.calls.length < 2 ^ 32)
    (h : step s .deliver = some s') : Calls s' := by
  obtain ⟨m, entry, hheld, rfl⟩ := step_deliver h
  obtain ⟨-, k, call, hcall, hid, rfl, hrun, hnone⟩ := hcalls.holding hheld
  have hcount : ∀ j, (RpcSessionRun.deliver s m (call.entry k)).runs j
      ≤ s.runs j + if j = k then 1 else 0 := fun j => by
    rw [runs_deliver]
    exact Nat.add_le_add_left (countP_completeCall m call k j) _
  refine hcalls.at_call hfew hcall hcall rfl (fun _ _ => rfl) rfl rfl (fun _ _ => rfl)
    (fun m' e hheld' => absurd hheld' (deliver_reader s m _ m' e)) ?_ ?_
  · intro j hj
    refine Nat.le_antisymm ?_ ?_
    · have := hcount j
      rwa [if_neg hj] at this
    · rw [runs_deliver]
      exact Nat.le_add_right _ _
  · have hone := hcount k
    rw [if_pos rfl, hrun] at hone
    refine ⟨?_, ?_, ?_, hone⟩
    · intro hnumbered
      exact absurd hnumbered ((hcalls.ok k call hcall).held m _ hheld hid.symm).2.1
    · intro e he
      exact nomatch hnone.symm.trans he
    · intro m' e hheld' _
      exact absurd hheld' (deliver_reader s m _ m' e)

/-- **EVERY STEP** keeps the calls and their entries in order. -/
theorem Calls.step (hcalls : Calls s) (hfew : s.calls.length < 2 ^ 32) {a : Action Msg}
    (h : RpcSessionRun.step s a = some s') : Calls s' := by
  cases a with
  | fetchAdd method request response done => exact hcalls.fetchAdd hfew h
  | register k => exact hcalls.register hfew h
  | sendRequest k => exact hcalls.sendRequest hfew h
  | receive m => exact hcalls.receive hfew h
  | deliver => exact hcalls.deliver hfew h
  | doneReturn =>
      obtain ⟨-, rfl⟩ := step_doneReturn h
      exact hcalls.frame rfl rfl (fun _ _ hheld => nomatch hheld) (fun _ => rfl)
  | answer j response =>
      obtain ⟨closure, -, -, rfl⟩ := step_answer h
      exact hcalls.frame rfl rfl (fun _ _ hheld => hheld) fun k => runs_send rfl k

/-- A call stays, and keeps what it was made with. -/
theorem step_calls {a : Action Msg} (h : RpcSessionRun.step s a = some s') :
    s.calls.length ≤ s'.calls.length ∧
      ∀ (k : Nat) (call : Call Msg), s.calls[k]? = some call →
        ∃ call', s'.calls[k]? = some call' ∧ call'.id = call.id ∧ call'.method = call.method := by
  have hset : ∀ (j : Nat) (old new : Call Msg), s.calls[j]? = some old → new.id = old.id →
      new.method = old.method → ∀ (k : Nat) (call : Call Msg), s.calls[k]? = some call →
      ∃ call', (s.calls.set j new)[k]? = some call' ∧ call'.id = call.id ∧
        call'.method = call.method := by
    intro j old new hold hid hmethod k call hcall
    rcases getElem?_set_cases hold hcall new with ⟨-, rfl, hnew⟩ | ⟨-, hsame⟩
    · exact ⟨new, hnew, hid, hmethod⟩
    · exact ⟨call, hsame, rfl, rfl⟩
  have hsame : ∀ (k : Nat) (call : Call Msg), s.calls[k]? = some call →
      ∃ call', s.calls[k]? = some call' ∧ call'.id = call.id ∧ call'.method = call.method :=
    fun k call hcall => ⟨call, hcall, rfl, rfl⟩
  cases a with
  | fetchAdd method request response done =>
      obtain rfl := Option.some.inj h
      refine ⟨by rw [List.length_append]; exact Nat.le_add_right _ _, ?_⟩
      intro k call hcall
      exact ⟨call, getElem?_concat_iff.mpr (.inl hcall), rfl, rfl⟩
  | register j =>
      obtain ⟨old, hold, -, rfl⟩ := step_register h
      exact ⟨Nat.le_of_eq List.length_set.symm, hset j old _ hold rfl rfl⟩
  | sendRequest j =>
      obtain ⟨old, hold, -, rfl⟩ := step_sendRequest h
      exact ⟨Nat.le_of_eq List.length_set.symm, hset j old _ hold rfl rfl⟩
  | receive m =>
      obtain ⟨-, ⟨-, entry, -, rfl⟩ | ⟨-, -, rfl⟩ | ⟨-, effects, -, rfl⟩⟩ := step_receive h
      · exact ⟨Nat.le_refl _, hsame⟩
      · exact ⟨Nat.le_refl _, hsame⟩
      · exact ⟨Nat.le_refl _, hsame⟩
  | deliver =>
      obtain ⟨m, entry, -, rfl⟩ := step_deliver h
      exact ⟨Nat.le_refl _, hsame⟩
  | doneReturn =>
      obtain ⟨-, rfl⟩ := step_doneReturn h
      exact ⟨Nat.le_refl _, hsame⟩
  | answer j response =>
      obtain ⟨closure, -, -, rfl⟩ := step_answer h
      exact ⟨Nat.le_refl _, hsame⟩

/-- Below `2 ^ 32` calls every reachable state is in order. -/
theorem calls_of_reaches {services : Option (Services Msg)} {C : State Msg → Action Msg → Prop}
    (h : Reaches RpcSessionRun.step C (State.start services) s) (hfew : s.calls.length < 2 ^ 32) :
    Calls s := by
  refine h.invariant (I := fun t => t.calls.length < 2 ^ 32 → Calls t)
    (fun _ => calls_start services) ?_ hfew
  intro t a t' hcalls _ hstep hfew'
  have hlt : t.calls.length < 2 ^ 32 := Nat.lt_of_le_of_lt (step_calls hstep).1 hfew'
  exact (hcalls hlt).step hlt hstep

end Steps

/-! ## The log -/

/-- Message `m` answers this call: a RESPONSE with its id and no error. -/
structure Answers (m : RpcMessage) (call : Call Msg) : Prop where
  response : m.type = .response
  noError : m.error = .noError
  id : uint64ToInt32 m.id = call.id

/-- Only a message that answers a call is parsed into its response object,
    and a closure runs right after that. -/
structure LogOk (s : State Msg) : Prop where
  parsed : ∀ cause k v, (cause, .parse k v) ∈ s.log → ∃ m call, cause = .message m ∧
    s.calls[k]? = some call ∧ Answers m call ∧
    v = (call.method.responsePrototype.parseFromArray m.response).1
  ran : ∀ (i : Nat) cause k, s.log[i]? = some (cause, .run k) →
    ∃ j v, i = j + 1 ∧ s.log[j]? = some (cause, .parse k v)

/-- An effect on no call. -/
def isQuiet : Effect Msg → Bool
  | .parse _ _ => false
  | .run _ => false
  | _ => true

section Log

variable {s s' : State Msg}

theorem LogOk.append (hlog : LogOk s) {a : Action Msg} (h : step s a = some s')
    {new : List (Cause × Effect Msg)} (heq : s'.log = s.log ++ new)
    (hparsed : ∀ cause k v, (cause, .parse k v) ∈ new → ∃ m call, cause = .message m ∧
      s'.calls[k]? = some call ∧ Answers m call ∧
      v = (call.method.responsePrototype.parseFromArray m.response).1)
    (hran : ∀ (i : Nat) cause k, new[i]? = some (cause, .run k) →
      ∃ j v, i = j + 1 ∧ new[j]? = some (cause, .parse k v)) : LogOk s' where
  parsed := fun cause k v hmem => by
    rw [heq] at hmem
    rcases List.mem_append.mp hmem with hold | hnew
    · obtain ⟨m, call, hcause, hcall, hans, hv⟩ := hlog.parsed cause k v hold
      obtain ⟨call', hcall', hid, hmethod⟩ := (step_calls h).2 k call hcall
      exact ⟨m, call', hcause, hcall', ⟨hans.response, hans.noError, hans.id.trans hid.symm⟩,
        by rw [hmethod]; exact hv⟩
    · exact hparsed cause k v hnew
  ran := fun i cause k hget => by
    rw [heq] at hget ⊢
    rw [List.getElem?_append] at hget
    split at hget
    · next hlt =>
        obtain ⟨j, v, rfl, hj⟩ := hlog.ran i cause k hget
        refine ⟨j, v, rfl, ?_⟩
        rw [List.getElem?_append_left (Nat.lt_of_succ_lt hlt)]
        exact hj
    · next hge =>
        obtain ⟨j, v, hi, hj⟩ := hran _ cause k hget
        refine ⟨s.log.length + j, v, by omega, ?_⟩
        rw [List.getElem?_append_right (Nat.le_add_right _ _), Nat.add_sub_cancel_left]
        exact hj

theorem LogOk.append_quiet (hlog : LogOk s) {a : Action Msg} (h : step s a = some s')
    {new : List (Cause × Effect Msg)} (heq : s'.log = s.log ++ new)
    (hquiet : ∀ p ∈ new, isQuiet p.2 = true) : LogOk s' := by
  refine hlog.append h heq ?_ ?_
  · intro cause k v hmem
    exact nomatch hquiet _ hmem
  · intro i cause k hget
    exact nomatch hquiet _ (List.mem_of_getElem? hget)

/-- The rest of the RESPONSE branch acts on the call that is answered. -/
theorem LogOk.deliver (hlog : LogOk s) (hcalls : Calls s)
    (h : RpcSessionRun.step s .deliver = some s') : LogOk s' := by
  obtain ⟨m, entry, hheld, rfl⟩ := step_deliver h
  obtain ⟨hres, k, call, hcall, hid, rfl, -⟩ := hcalls.holding hheld
  have hnew : (RpcSessionRun.deliver s m (call.entry k)).log
      = s.log ++ (completeCall (call.entry k) m).map (.message m, ·) := rfl
  rcases completeCall_entry m call k with hnone | ⟨herror, hsome⟩
  · refine hlog.append_quiet h hnew ?_
    rw [hnone]
    exact nofun
  · rw [hsome, List.map_cons] at hnew
    refine hlog.append h hnew ?_ ?_
    · intro cause j v hmem
      rcases List.mem_cons.mp hmem with heq | hrun
      · obtain ⟨rfl, heffect⟩ := Prod.mk.inj heq
        obtain ⟨rfl, rfl⟩ := Effect.parse.inj heffect
        exact ⟨m, call, rfl, hcall, ⟨hres, herror, hid.symm⟩, rfl⟩
      · -- the only effect after the parse is a run
        cases hdone : call.done with
        | false =>
            rw [hdone] at hrun
            cases hrun
        | true =>
            rw [hdone] at hrun
            exact nomatch (Prod.mk.inj (List.mem_singleton.mp hrun)).2
    · intro i cause j hget
      match i, hget with
      | 0, hget => exact nomatch (Prod.mk.inj (Option.some.inj hget)).2
      | i + 1, hget =>
          rw [List.getElem?_cons_succ] at hget
          cases hdone : call.done with
          | false =>
              rw [hdone] at hget
              exact nomatch hget
          | true =>
              rw [hdone] at hget
              obtain ⟨hi, heq⟩ := List.getElem?_eq_some_iff.mp hget
              obtain rfl : i = 0 := Nat.lt_one_iff.mp hi
              obtain ⟨rfl, heffect⟩ := Prod.mk.inj heq
              obtain rfl : k = j := Effect.run.inj heffect
              exact ⟨0, _, rfl, rfl⟩

theorem LogOk.step (hlog : LogOk s) (hcalls : Calls s) {a : Action Msg}
    (h : RpcSessionRun.step s a = some s') : LogOk s' := by
  cases a with
  | fetchAdd method request response done =>
      obtain rfl := Option.some.inj h
      exact hlog.append_quiet h (List.append_nil _).symm nofun
  | register k =>
      obtain ⟨call, -, -, rfl⟩ := step_register h
      exact hlog.append_quiet h (List.append_nil _).symm nofun
  | sendRequest k =>
      obtain ⟨call, -, -, rfl⟩ := step_sendRequest h
      refine hlog.append_quiet h rfl fun p hp => ?_
      rw [List.mem_singleton.mp hp]
      rfl
  | receive m =>
      obtain ⟨-, ⟨-, entry, -, rfl⟩ | ⟨-, -, rfl⟩ | ⟨-, effects, hhandled, rfl⟩⟩ := step_receive h
      · exact hlog.append_quiet h (List.append_nil _).symm nofun
      · exact hlog.append_quiet h (List.append_nil _).symm nofun
      · refine hlog.append_quiet h rfl fun p hp => ?_
        obtain ⟨e, he, rfl⟩ := List.mem_map.mp hp
        cases hhandled with
        | invoked inv _ =>
            rw [List.mem_singleton.mp he]
            rfl
        | rejected errorCode _ =>
            rw [List.mem_singleton.mp he]
            rfl
        | ignored _ => exact nomatch he
  | deliver => exact hlog.deliver hcalls h
  | doneReturn =>
      obtain ⟨-, rfl⟩ := step_doneReturn h
      exact hlog.append_quiet h (List.append_nil _).symm nofun
  | answer j response =>
      obtain ⟨closure, -, -, rfl⟩ := step_answer h
      refine hlog.append_quiet h rfl fun p hp => ?_
      rw [List.mem_singleton.mp hp]
      rfl

theorem logOk_of_reaches {services : Option (Services Msg)} (h : Reachable services s)
    (hfew : s.calls.length < 2 ^ 32) : LogOk s := by
  refine h.invariant_over (J := fun t => t.calls.length < 2 ^ 32 → Calls t)
    (I := fun t => t.calls.length < 2 ^ 32 → LogOk t) (fun t ht hlt => calls_of_reaches ht hlt)
    (fun _ => ⟨fun _ _ _ h => (nomatch h), fun _ _ _ h => (nomatch h)⟩) ?_ hfew
  intro t a t' hcalls hlog _ hstep hfew'
  have hlt : t.calls.length < 2 ^ 32 := Nat.lt_of_le_of_lt (step_calls hstep).1 hfew'
  exact (hlog hlt).step (hcalls hlt) hstep

end Log

/-! ## Correlation -/

/-- What a peer can do to the calls of a session. -/
structure Correlated (s : State Msg) : Prop where
  /-- A closure runs at most once. -/
  once : ∀ k, s.runs k ≤ 1
  /-- It runs while a RESPONSE without an error is handled that carries the
      id of its call, right after the response was parsed into that call's
      response object, and into no other. -/
  ran : ∀ (i k : Nat) cause, s.log[i]? = some (cause, .run k) →
    ∃ m call j, cause = .message m ∧ s.calls[k]? = some call ∧ Answers m call ∧ i = j + 1 ∧
      s.log[j]? = some
        (.message m, .parse k (call.method.responsePrototype.parseFromArray m.response).1) ∧
      ∀ k' v, (.message m, .parse k' v) ∈ s.log → k' = k
  /-- A message other than a RESPONSE to a pending id leaves the entries. -/
  others : ∀ m s', step s (.receive m) = some s' →
    ¬ (m.type = .response ∧ (s.session.reqCallbacks (uint64ToInt32 m.id)).isSome) →
    s'.session.reqCallbacks = s.session.reqCallbacks
  /-- A RESPONSE to a pending id takes no entry but that one, and the rest of
      its handler none at all. -/
  own : ∀ m s' id, step s (.receive m) = some s' → id ≠ uint64ToInt32 m.id →
    s'.session.reqCallbacks id = s.session.reqCallbacks id
  rest : ∀ a s', step s a = some s' → a = .deliver ∨ a = .doneReturn →
    s'.session.reqCallbacks = s.session.reqCallbacks

/-- **CORRELATION**: whatever messages arrive and however they interleave
    with `CallMethod`s, a session with fewer than `2 ^ 32` calls completes
    each at most once, and only by its own RESPONSE. -/
theorem correlation {services : Option (Services Msg)} {s : State Msg}
    (h : Reachable services s) (hfew : s.calls.length < 2 ^ 32) : Correlated s := by
  have hcalls := calls_of_reaches h hfew
  have hlog := logOk_of_reaches h hfew
  constructor
  · intro k
    cases hk : s.calls[k]? with
    | none => exact Nat.le_trans (Nat.le_of_eq (hcalls.unmade k hk)) (Nat.zero_le 1)
    | some call => exact (hcalls.ok k call hk).once
  · -- the parse before the run says which message it was and which call
    intro i k cause hget
    obtain ⟨j, v, hi, hparse⟩ := hlog.ran i cause k hget
    obtain ⟨m, call, rfl, hcall, hans, rfl⟩ :=
      hlog.parsed cause k v (List.mem_of_getElem? hparse)
    refine ⟨m, call, j, rfl, hcall, hans, hi, hparse, ?_⟩
    intro k' v' hmem
    obtain ⟨m', call', hm, hcall', hans', -⟩ := hlog.parsed _ k' v' hmem
    obtain rfl := Cause.message.inj hm
    exact hcalls.unique hfew hcall' hcall (hans'.id.symm.trans hans.id)
  · intro m s' hstep hnot
    obtain ⟨-, ⟨hres, entry, hentry, -⟩ | ⟨-, -, rfl⟩ | ⟨-, effects, -, rfl⟩⟩ := step_receive hstep
    · exact absurd ⟨hres, by rw [hentry]; rfl⟩ hnot
    · rfl
    · rfl
  · intro m s' id hstep hid
    obtain ⟨-, ⟨-, entry, -, rfl⟩ | ⟨-, -, rfl⟩ | ⟨-, effects, -, rfl⟩⟩ := step_receive hstep
    · exact Function.update_of_ne hid _ _
    · rfl
    · rfl
  · rintro a s' hstep (rfl | rfl)
    · obtain ⟨m, entry, -, rfl⟩ := step_deliver hstep
      rfl
    · obtain ⟨-, rfl⟩ := step_doneReturn hstep
      rfl

/-- A RESPONSE with the id of call 0, and one message in it. -/
def reply (error : ErrorCode) : RpcMessage :=
  { RpcMessage.new with
    type := .response, error := error,
    response := rpcProto.serialize { RpcMessage.new with id := 7 } }

/-- The reply comes before the call is registered, again after it was sent,
    and once more. -/
def duplicateRun : List (Action RpcMessage) :=
  [.fetchAdd echoMethod .new true true, .receive (reply .noError), .register 0, .sendRequest 0,
    .receive (reply .noError), .deliver, .doneReturn, .receive (reply .noError)]

theorem correlation_on_duplicates :
    ∃ s, guardedRun step (fun _ _ => True) (State.start none) duplicateRun = some s ∧
      s.runs 0 = 1 ∧ Correlated s := by
  have hrun : (guardedRun step (fun _ _ => True) (State.start none) duplicateRun).map
      (fun s => (s.calls.length, s.runs 0)) = some (1, 1) := by decide +kernel
  obtain ⟨s, hs, heq⟩ := Option.map_eq_some_iff.mp hrun
  obtain ⟨hlength, hruns⟩ := Prod.mk.inj heq
  refine ⟨s, hs, hruns, correlation (reaches_of_guardedRun hs) ?_⟩
  rw [hlength]
  decide

/-! ## No call is dropped -/

/-- A caller passes a response object and a closure. -/
def NonNull : Action Msg → Prop
  | .fetchAdd _ _ response done => response = true ∧ done = true
  | _ => True

/-- A RESPONSE to a pending call carries no error. -/
def Heeded (s : State Msg) : Action Msg → Prop
  | .receive m =>
      m.type = .response → (s.session.reqCallbacks (uint64ToInt32 m.id)).isSome →
        m.error = .noError
  | _ => True

instance (a : Action Msg) : Decidable (NonNull a) :=
  match a with
  | .fetchAdd _ _ _ _ => inferInstanceAs (Decidable (_ ∧ _))
  | .register _ => isTrue trivial
  | .sendRequest _ => isTrue trivial
  | .receive _ => isTrue trivial
  | .deliver => isTrue trivial
  | .doneReturn => isTrue trivial
  | .answer _ _ => isTrue trivial

instance (s : State Msg) (a : Action Msg) : Decidable (Heeded s a) :=
  match a with
  | .receive _ => inferInstanceAs (Decidable (_ → _ → _))
  | .fetchAdd _ _ _ _ => isTrue trivial
  | .register _ => isTrue trivial
  | .sendRequest _ => isTrue trivial
  | .deliver => isTrue trivial
  | .doneReturn => isTrue trivial
  | .answer _ _ => isTrue trivial

/-- The entry of a call is kept, or held by the handler of a RESPONSE without
    an error, or its closure has run. -/
def Accounted (s : State Msg) (k : Nat) (call : Call Msg) : Prop :=
  s.session.reqCallbacks call.id = some (call.entry k) ∨
    (∃ m, s.reader = .holding m (call.entry k) ∧ uint64ToInt32 m.id = call.id ∧
      m.error = .noError) ∨
    s.runs k = 1

/-- All calls were made with both pointers, and are accounted for. -/
def AllAccounted (s : State Msg) : Prop :=
  ∀ (k : Nat) (call : Call Msg), s.calls[k]? = some call →
    call.response = true ∧ call.done = true ∧ (call.stage ≠ .numbered → Accounted s k call)

section Accounted

variable {s s' : State Msg}

theorem Accounted.frame {k : Nat} {call : Call Msg} (hacc : Accounted s k call)
    (hmap : s'.session.reqCallbacks call.id = s.session.reqCallbacks call.id)
    (hreader : ∀ m e, s.reader = .holding m e → uint64ToInt32 m.id = call.id →
      s'.reader = .holding m e)
    (hruns : s.runs k ≤ s'.runs k) (honce : s'.runs k ≤ 1) : Accounted s' k call := by
  rcases hacc with hkept | ⟨m, hheld, hid, herror⟩ | hrun
  · exact .inl (hmap.trans hkept)
  · exact .inr (.inl ⟨m, hreader m _ hheld hid, hid, herror⟩)
  · exact .inr (.inr (Nat.le_antisymm honce (hrun ▸ hruns)))

/-- Completing a call with both pointers by a RESPONSE without an error runs
    its closure. -/
theorem runs_completed {m : RpcMessage} {call : Call Msg} {k : Nat}
    (hresponse : call.response = true) (hdone : call.done = true) (herror : m.error = .noError)
    (hzero : s.runs k = 0) : (deliver s m (call.entry k)).runs k = 1 := by
  have heffects : completeCall (call.entry k) m
      = [.parse k (call.method.responsePrototype.parseFromArray m.response).1, .run k] := by
    rw [Call.entry, callEntry, hresponse, hdone]
    simp only [completeCall, herror, if_true, ne_eq, not_true_eq_false, if_false]
  rw [runs_deliver, hzero, heffects]
  simp [isRun]

/-- A step accounts for all calls if it accounts for one, and leaves the
    entries of the others alone. -/
theorem AllAccounted.at_call (hacc : AllAccounted s) (hcalls' : Calls s') {k : Nat}
    {call' : Call Msg} (hself : s'.calls[k]? = some call')
    (hgiven : call'.response = true ∧ call'.done = true)
    (hok : call'.stage ≠ .numbered → Accounted s' k call')
    (hothers : ∀ (j : Nat) (callj : Call Msg), j ≠ k → s'.calls[j]? = some callj →
      s.calls[j]? = some callj ∧
      s'.session.reqCallbacks callj.id = s.session.reqCallbacks callj.id ∧
      (∀ m e, s.reader = .holding m e → uint64ToInt32 m.id = callj.id →
        s'.reader = .holding m e) ∧
      s.runs j ≤ s'.runs j) : AllAccounted s' := by
  intro j callj hj
  by_cases hjk : j = k
  · rw [hjk] at hj ⊢
    rw [← Option.some.inj (hself.symm.trans hj)]
    exact ⟨hgiven.1, hgiven.2, hok⟩
  · obtain ⟨hold, hmap, hreader, hruns⟩ := hothers j callj hjk hj
    obtain ⟨hresponse, hdone, haccj⟩ := hacc j callj hold
    exact ⟨hresponse, hdone, fun hstage =>
      (haccj hstage).frame hmap hreader hruns (hcalls'.ok j callj hj).once⟩

/-- So does a step that leaves all of them alone. -/
theorem AllAccounted.frame (hacc : AllAccounted s) (hcalls' : Calls s')
    (hsame : s'.calls = s.calls) (hsession : s'.session = s.session)
    (hreader : ∀ m e, s.reader = .holding m e → s'.reader = .holding m e)
    (hruns : ∀ k, s.runs k ≤ s'.runs k) : AllAccounted s' := by
  intro j callj hj
  obtain ⟨hresponse, hdone, haccj⟩ := hacc j callj (by rw [← hsame]; exact hj)
  exact ⟨hresponse, hdone, fun hstage => (haccj hstage).frame (by rw [hsession])
    (fun m e hheld _ => hreader m e hheld) (hruns j) (hcalls'.ok j callj hj).once⟩

/-- A new call has both pointers, and no entry to account for yet. -/
theorem AllAccounted.fetchAdd (hacc : AllAccounted s) {method : MethodDescriptor Msg}
    {request : Msg} {response done : Bool} (hnull : response = true ∧ done = true)
    (h : RpcSessionRun.step s (.fetchAdd method request response done) = some s')
    (hcalls' : Calls s') : AllAccounted s' := by
  obtain rfl := Option.some.inj h
  refine hacc.at_call hcalls' (getElem?_concat_iff.mpr (.inr ⟨rfl, rfl⟩)) hnull
    (fun hstage => absurd rfl hstage) ?_
  intro j callj hj hcallj
  rcases getElem?_concat_iff.mp hcallj with hcallj | ⟨hnew, -⟩
  · exact ⟨hcallj, rfl, fun _ _ hheld _ => hheld, Nat.le_refl _⟩
  · exact absurd hnew hj

/-- The critical section stores the entry of its call. -/
theorem AllAccounted.register (hacc : AllAccounted s) (hcalls : Calls s)
    (hfew : s.calls.length < 2 ^ 32) {k : Nat}
    (h : RpcSessionRun.step s (.register k) = some s') (hcalls' : Calls s') : AllAccounted s' := by
  obtain ⟨call, hcall, -, rfl⟩ := step_register h
  obtain ⟨hresponse, hdone, -⟩ := hacc k call hcall
  refine hacc.at_call hcalls' (List.getElem?_set_self (List.getElem?_eq_some_iff.mp hcall).1)
    ⟨hresponse, hdone⟩ (fun _ => .inl (Function.update_self _ _ _)) ?_
  intro j callj hj hcallj
  rw [List.getElem?_set_ne (Ne.symm hj)] at hcallj
  have hne : callj.id ≠ call.id := fun heq => hj (hcalls.unique hfew hcallj hcall heq)
  exact ⟨hcallj, Function.update_of_ne hne _ _, fun _ _ hheld _ => hheld, Nat.le_refl _⟩

theorem AllAccounted.sendRequest (hacc : AllAccounted s) {k : Nat}
    (h : RpcSessionRun.step s (.sendRequest k) = some s') (hcalls' : Calls s') :
    AllAccounted s' := by
  obtain ⟨call, hcall, hstage, rfl⟩ := step_sendRequest h
  obtain ⟨hresponse, hdone, hacck⟩ := hacc k call hcall
  have hself := List.getElem?_set_self (a := { call with stage := .sent })
    (List.getElem?_eq_some_iff.mp hcall).1
  refine hacc.at_call hcalls' hself ⟨hresponse, hdone⟩ (fun _ => ?_) ?_
  · have hnot : call.stage ≠ .numbered := by
      rw [hstage]
      exact nofun
    show Accounted _ k call
    exact (hacck hnot).frame rfl (fun _ _ hheld _ => hheld)
      (Nat.le_of_eq (runs_send rfl k).symm) (hcalls'.ok k _ hself).once
  · intro j callj hj hcallj
    rw [List.getElem?_set_ne (Ne.symm hj)] at hcallj
    exact ⟨hcallj, rfl, fun _ _ hheld _ => hheld, Nat.le_of_eq (runs_send rfl j).symm⟩

/-- A RESPONSE to a pending call takes the entry to complete the call. -/
theorem AllAccounted.receive (hacc : AllAccounted s) (hcalls : Calls s)
    (hfew : s.calls.length < 2 ^ 32) {m : RpcMessage} (hheeded : Heeded s (.receive m))
    (h : RpcSessionRun.step s (.receive m) = some s') (hcalls' : Calls s') : AllAccounted s' := by
  obtain ⟨hidle, ⟨hres, entry, hentry, rfl⟩ | ⟨-, -, rfl⟩ | ⟨-, effects, hhandled, rfl⟩⟩ :=
    step_receive h
  · -- the RESPONSE carries no error, so the handler will complete the call
    obtain ⟨k, call, hcall, hid⟩ := hcalls.kept_call _ _ hentry
    obtain ⟨hresponse, hdone, -⟩ := hacc k call hcall
    obtain ⟨rfl, -, -⟩ := (hcalls.ok k call hcall).kept entry (by rw [hid]; exact hentry)
    have herror : m.error = .noError := hheeded hres (by rw [hentry]; rfl)
    refine hacc.at_call hcalls' hcall ⟨hresponse, hdone⟩
      (fun _ => .inr (.inl ⟨m, rfl, hid.symm, herror⟩)) ?_
    intro j callj hj hcallj
    have hne : callj.id ≠ uint64ToInt32 m.id := fun heq =>
      hj (hcalls.unique hfew hcallj hcall (heq.trans hid.symm))
    refine ⟨hcallj, Function.update_of_ne hne _ _, ?_, Nat.le_refl _⟩
    intro m' e hheld
    exact nomatch hidle.symm.trans hheld
  · exact hacc.frame hcalls' rfl rfl (fun _ _ hheld => nomatch hidle.symm.trans hheld)
      (fun _ => Nat.le_refl _)
  · refine hacc.frame hcalls' rfl rfl (fun _ _ hheld => hheld) fun k => ?_
    exact Nat.le_trans (Nat.le_add_right _ _) (Nat.le_of_eq (runs_append rfl k).symm)

/-- The call whose entry is held has its closure run. -/
theorem AllAccounted.deliver (hacc : AllAccounted s) (hcalls : Calls s)
    (hfew : s.calls.length < 2 ^ 32) (h : RpcSessionRun.step s .deliver = some s')
    (hcalls' : Calls s') : AllAccounted s' := by
  obtain ⟨m, entry, hheld, rfl⟩ := step_deliver h
  obtain ⟨-, k, call, hcall, hid, rfl, hzero, hnone⟩ := hcalls.holding hheld
  obtain ⟨hresponse, hdone, hacck⟩ := hacc k call hcall
  have hstage := ((hcalls.ok k call hcall).held m _ hheld hid.symm).2.1
  have herror : m.error = .noError := by
    rcases hacck hstage with hkept | ⟨m', hheld', -, herror⟩ | hrun
    · exact nomatch hnone.symm.trans hkept
    · obtain ⟨rfl, -⟩ := Reader.holding.inj (hheld.symm.trans hheld')
      exact herror
    · exact nomatch hzero.symm.trans hrun
  refine hacc.at_call hcalls' hcall ⟨hresponse, hdone⟩
    (fun _ => .inr (.inr (runs_completed hresponse hdone herror hzero))) ?_
  intro j callj hj hcallj
  refine ⟨hcallj, rfl, ?_, ?_⟩
  · intro m' e hheld' hid'
    obtain ⟨rfl, -⟩ := Reader.holding.inj (hheld.symm.trans hheld')
    exact absurd (hcalls.unique hfew hcallj hcall (hid'.symm.trans hid.symm)) hj
  · rw [runs_deliver]
    exact Nat.le_add_right _ _

/-- Every step that meets the rule accounts for all calls. -/
theorem AllAccounted.step (hacc : AllAccounted s) (hcalls : Calls s)
    (hfew : s.calls.length < 2 ^ 32) {a : Action Msg} (hnull : NonNull a) (hheeded : Heeded s a)
    (h : RpcSessionRun.step s a = some s') : AllAccounted s' := by
  have hcalls' := hcalls.step hfew h
  cases a with
  | fetchAdd method request response done => exact hacc.fetchAdd hnull h hcalls'
  | register k => exact hacc.register hcalls hfew h hcalls'
  | sendRequest k => exact hacc.sendRequest h hcalls'
  | receive m => exact hacc.receive hcalls hfew hheeded h hcalls'
  | deliver => exact hacc.deliver hcalls hfew h hcalls'
  | doneReturn =>
      obtain ⟨⟨m, hrunning⟩, rfl⟩ := step_doneReturn h
      exact hacc.frame hcalls' rfl rfl (fun _ _ hheld => nomatch hrunning.symm.trans hheld)
        (fun _ => Nat.le_refl _)
  | answer j response =>
      obtain ⟨closure, -, -, rfl⟩ := step_answer h
      exact hacc.frame hcalls' rfl rfl (fun _ _ hheld => hheld)
        fun k => Nat.le_of_eq (runs_send rfl k).symm

end Accounted

/-- **NO CALL IS DROPPED** in a run whose RESPONSEs to pending calls carry no
    error: between handlers, each call either has its entry or has had its
    closure run, once. -/
theorem calls_accounted {services : Option (Services Msg)} {s : State Msg}
    (h : Reaches step (fun t a => NonNull a ∧ Heeded t a) (State.start services) s)
    (hfew : s.calls.length < 2 ^ 32) (hidle : s.reader = .idle) (k : Nat) (call : Call Msg)
    (hcall : s.calls[k]? = some call) (hstage : call.stage ≠ .numbered) :
    (s.session.reqCallbacks call.id = some (call.entry k) ∧ s.runs k = 0) ∨
      (s.session.reqCallbacks call.id = none ∧ s.runs k = 1) := by
  have hok := (calls_of_reaches h hfew).ok k call hcall
  have hacc : AllAccounted s := by
    refine h.invariant_over (J := fun t => t.calls.length < 2 ^ 32 → Calls t)
      (I := fun t => t.calls.length < 2 ^ 32 → AllAccounted t)
      (fun t ht hlt => calls_of_reaches ht hlt) (fun _ _ _ h => nomatch h) ?_ hfew
    intro t a t' hcalls hacc hrule hstep hfew'
    have hlt : t.calls.length < 2 ^ 32 := Nat.lt_of_le_of_lt (step_calls hstep).1 hfew'
    exact (hacc hlt).step (hcalls hlt) hlt hrule.1 hrule.2 hstep
  -- between handlers no entry is held
  rcases (hacc k call hcall).2.2 hstage with hkept | ⟨m, hheld, -⟩ | hrun
  · exact .inl ⟨hkept, (hok.kept _ hkept).2.2⟩
  · exact nomatch hidle.symm.trans hheld
  · refine .inr ⟨?_, hrun⟩
    cases hentry : s.session.reqCallbacks call.id with
    | none => rfl
    | some e =>
        rw [(hok.kept e hentry).2.2] at hrun
        exact nomatch hrun

/-- One call is answered, a second one waits. -/
def accountedRun : List (Action RpcMessage) :=
  [.fetchAdd echoMethod .new true true, .register 0, .fetchAdd echoMethod .new true true,
    .sendRequest 0, .register 1, .receive (reply .noError), .sendRequest 1, .deliver, .doneReturn]

theorem calls_accounted_on_run :
    ∃ s call, guardedRun step (fun t a => NonNull a ∧ Heeded t a) (State.start none) accountedRun
        = some s ∧ s.calls[0]? = some call ∧
      ((s.session.reqCallbacks call.id = some (call.entry 0) ∧ s.runs 0 = 0) ∨
        (s.session.reqCallbacks call.id = none ∧ s.runs 0 = 1)) :=
  ⟨_, _, rfl, rfl, calls_accounted
    (reaches_of_guardedRun (show guardedRun step (fun t a => NonNull a ∧ Heeded t a)
      (State.start none) accountedRun = some _ from rfl))
    (by decide) rfl 0 _ rfl nofun⟩

/-- The only call is answered with an error. -/
def droppedRun : List (Action RpcMessage) :=
  [.fetchAdd echoMethod .new true true, .register 0, .sendRequest 0, .receive (reply .noService),
    .deliver]

/-- Its handler is over, its entry gone, and its closure was not run. -/
theorem error_reply_drops_call :
    ∃ (s : State RpcMessage) (call : Call RpcMessage),
      Reaches step (fun _ a => NonNull a) (State.start none) s ∧
      s.calls[0]? = some call ∧ call.stage = .sent ∧ s.reader = .idle ∧
      s.session.reqCallbacks call.id = none ∧ s.runs 0 = 0 :=
  ⟨_, _, reaches_of_guardedRun (show guardedRun step (fun _ a => NonNull a)
      (State.start none) droppedRun = some _ from rfl), rfl, rfl, rfl, rfl, rfl⟩

end RpcSessionCall
