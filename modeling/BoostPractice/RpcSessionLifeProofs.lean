import BoostPractice.AcceptorProofs
import BoostPractice.RpcSessionProofs

/-! # The life of an `rpc_session`

    After `run` a session always has one handler that goes on with the next
    read, until a read fails: it is then over, and says so.  In the SSL build
    a handshake comes first.  Beside this chain of handlers each message that
    is sent has a write with a handler of its own, and each request that was
    given to a service a closure of `done_callback`.

    What matters here is what is outstanding, not the bytes.  An operation is
    outstanding until its handler returns.  What `on_rpc_callback` does to a
    session's life is read off its effects in `callback_reaches`.

    `over_once` says when `sessionOverFunc_` is called exactly once. -/

namespace RpcSessionLife

open Acceptor GuardedRun RpcSession

/-! ## The handlers -/

/-- Where the chain of handlers is: the handshake; the handler of a read that
    is outstanding, that handles what was read, that is about to call
    `sessionOverFunc_`, or that has called it and has not returned; behind
    that; or given up without it. -/
inductive Chain where
  | shaking
  | waiting
  | handling
  | ending
  | returning
  | ended
  | dropped
  deriving DecidableEq

/-- The chain, the outstanding writes, and the closures of `done_callback` that
    have not run. -/
structure Life where
  chain : Chain
  writes : Nat
  closures : Nat
  deriving DecidableEq

/-- `rpc_session::run`, with or without `USE_SSL`. -/
def run (ssl : Bool) : Life := ⟨if ssl then .shaking else .waiting, 0, 0⟩

/-- What `is_open`, `remote_endpoint` and `shutdown` come to in `on_read`. -/
structure ReadIo where
  isOpen : Bool
  remoteEndpoint : ErrorCode
  shutdown : ErrorCode
  deriving DecidableEq

/-- The handler of the handshake. -/
def onHandshake (ec : ErrorCode) : Chain := if ec ≠ 0 then .dropped else .waiting

/-- `rpc_session::on_read`, up to `sessionOverFunc_` or `codec_.on_read`. -/
def onRead (ec : ErrorCode) (io : ReadIo) : Except SystemError Chain :=
  if ec ≠ 0 then do
    if io.isOpen then
      if ec = eof then
        try throwing io.remoteEndpoint
        catch _ => pure ()
      -- what it reports is printed, unless it is `not_connected`
      let _socketEc ← reporting io.shutdown
    pure .ending
  else pure .handling

/-- `rpc_codec::on_write`: whether it issues another write.  `left` says that
    bytes are readable after the `retrieve`. -/
def onWrite (ec : ErrorCode) (left : Bool) (shutdown : ErrorCode) : Except SystemError Bool :=
  if ec ≠ 0 then do
    throwing shutdown
    pure false
  else pure left

inductive Event where
  | onHandshake (ec : ErrorCode)
  | onRead (ec : ErrorCode) (io : ReadIo)
  /-- `on_rpc_callback` calls a service. -/
  | dispatch
  /-- `on_rpc_callback` sends an error. -/
  | reject
  | doRead
  | doneCallback
  | callMethod
  | onWrite (ec : ErrorCode) (left : Bool) (shutdown : ErrorCode)
  /-- `on_read` returns behind `sessionOverFunc_`, and its handler lets the
      session go. -/
  | readReturns
  deriving DecidableEq

/-- A step of a session's handlers, and the exception that leaves it. -/
def handle (l : Life) : Event → Option (Life × Option SystemError)
  | .onHandshake ec =>
      if l.chain = .shaking then some ({ l with chain := onHandshake ec }, none) else none
  | .onRead ec io =>
      if l.chain = .waiting then
        match onRead ec io with
        | .ok chain => some ({ l with chain := chain }, none)
        -- never taken: `onRead_eq`
        | .error e => some ({ l with chain := .dropped }, some e)
      else none
  | .dispatch =>
      if l.chain = .handling then some ({ l with closures := l.closures + 1 }, none) else none
  | .reject =>
      if l.chain = .handling then some ({ l with writes := l.writes + 1 }, none) else none
  | .doRead =>
      if l.chain = .handling then some ({ l with chain := .waiting }, none) else none
  | .doneCallback =>
      if 0 < l.closures then
        some ({ l with writes := l.writes + 1, closures := l.closures - 1 }, none)
      else none
  -- from any thread, by someone who holds the session
  | .callMethod => some ({ l with writes := l.writes + 1 }, none)
  | .onWrite ec left shutdown =>
      if 0 < l.writes then
        match onWrite ec left shutdown with
        -- the rest is written, with the same handler
        | .ok true => some (l, none)
        | .ok false => some ({ l with writes := l.writes - 1 }, none)
        | .error e => some ({ l with writes := l.writes - 1 }, some e)
      else none
  | .readReturns =>
      if l.chain = .returning then some ({ l with chain := .ended }, none) else none

/-- `on_read` calls `sessionOverFunc_`. -/
def sessionOver (l : Life) : Option Life :=
  if l.chain = .ending then some { l with chain := .returning } else none

/-- The chain holds the session until it ends, and each write does. -/
def holders (l : Life) : Nat :=
  (match l.chain with
    | .ended => 0
    | .dropped => 0
    | _ => 1) + l.writes

/-- `rpc_session`, in the build with or without SSL. -/
def session (ssl : Bool) : SessionProgram Life Event := ⟨run ssl, handle, sessionOver, holders⟩

/-! ## What each handler can do -/

/-- `on_read` never throws: it catches what `remote_endpoint` throws. -/
theorem onRead_eq (ec : ErrorCode) (io : ReadIo) :
    onRead ec io = .ok (if ec = 0 then .handling else .ending) := by
  have hcaught : (tryCatch (throwing io.remoteEndpoint) fun _ => pure () :
      Except SystemError Unit) = .ok () := by
    by_cases hio : io.remoteEndpoint = 0
    · rw [throwing, if_pos hio]
      rfl
    · rw [throwing_of_ne hio]
      rfl
  rw [onRead]
  by_cases hec : ec = 0
  · rw [if_neg (fun hne => hne hec), if_pos hec]
    rfl
  · rw [if_pos hec, if_neg hec]
    by_cases hopen : io.isOpen
    · by_cases heof : ec = eof
      · simp only [hopen, if_true, if_pos heof, hcaught]
        rfl
      · simp only [hopen, if_true, if_neg heof]
        rfl
    · simp only [hopen, if_false, Bool.false_eq_true]
      rfl

/-- `on_write` throws exactly when `shutdown` fails after a failed write. -/
theorem onWrite_eq (ec : ErrorCode) (left : Bool) (shutdown : ErrorCode) :
    onWrite ec left shutdown
      = if ec = 0 then .ok left else if shutdown = 0 then .ok false else .error ⟨shutdown⟩ := by
  rw [onWrite]
  by_cases hec : ec = 0
  · rw [if_neg (fun hne => hne hec), if_pos hec]
    rfl
  · rw [if_pos hec, if_neg hec]
    by_cases hshutdown : shutdown = 0
    · rw [if_pos hshutdown, hshutdown, throwing_zero]
      rfl
    · rw [if_neg hshutdown, throwing_of_ne hshutdown]
      rfl

/-- A write that ends: it failed, or everything was transferred. -/
def Finishes (ec : ErrorCode) (left : Bool) : Prop := ec ≠ 0 ∨ left = false

instance (ec : ErrorCode) (left : Bool) : Decidable (Finishes ec left) :=
  inferInstanceAs (Decidable (_ ∨ _))

/-- **WHAT A STEP CAN DO** to a session, with the exception that leaves it. -/
inductive Moves (l : Life) : Event → Life → Option SystemError → Prop where
  | shaken (here : l.chain = .shaking) : Moves l (.onHandshake 0) { l with chain := .waiting } none
  | refused {ec : ErrorCode} (failed : ec ≠ 0) (here : l.chain = .shaking) :
      Moves l (.onHandshake ec) { l with chain := .dropped } none
  | received {io : ReadIo} (here : l.chain = .waiting) :
      Moves l (.onRead 0 io) { l with chain := .handling } none
  | readFailed {ec : ErrorCode} {io : ReadIo} (failed : ec ≠ 0) (here : l.chain = .waiting) :
      Moves l (.onRead ec io) { l with chain := .ending } none
  | dispatched (here : l.chain = .handling) :
      Moves l .dispatch { l with closures := l.closures + 1 } none
  | rejected (here : l.chain = .handling) : Moves l .reject { l with writes := l.writes + 1 } none
  | reading (here : l.chain = .handling) : Moves l .doRead { l with chain := .waiting } none
  | answered (pending : 0 < l.closures) :
      Moves l .doneCallback { l with writes := l.writes + 1, closures := l.closures - 1 } none
  | called : Moves l .callMethod { l with writes := l.writes + 1 } none
  | continued {shutdown : ErrorCode} (writing : 0 < l.writes) :
      Moves l (.onWrite 0 true shutdown) l none
  | finished (ec shutdown : ErrorCode) (left : Bool) (writing : 0 < l.writes)
      (finishes : Finishes ec left) :
      Moves l (.onWrite ec left shutdown) { l with writes := l.writes - 1 }
        (if ec ≠ 0 ∧ shutdown ≠ 0 then some ⟨shutdown⟩ else none)
  | returned (here : l.chain = .returning) : Moves l .readReturns { l with chain := .ended } none

theorem moves_onRead {l l' : Life} {ec : ErrorCode} {io : ReadIo} {thrown : Option SystemError}
    (h : handle l (.onRead ec io) = some (l', thrown)) : Moves l (.onRead ec io) l' thrown := by
  rw [handle, onRead_eq] at h
  obtain ⟨hwaiting, heq⟩ := Option.ite_none_right_eq_some.mp h
  obtain ⟨rfl, rfl⟩ := Prod.mk.inj (Option.some.inj heq)
  by_cases hec : ec = 0
  · subst hec
    exact .received hwaiting
  · rw [if_neg hec]
    exact .readFailed hec hwaiting

theorem moves_onWrite {l l' : Life} {ec shutdown : ErrorCode} {left : Bool}
    {thrown : Option SystemError}
    (h : handle l (.onWrite ec left shutdown) = some (l', thrown)) :
    Moves l (.onWrite ec left shutdown) l' thrown := by
  rw [handle, onWrite_eq] at h
  obtain ⟨hwriting, heq⟩ := Option.ite_none_right_eq_some.mp h
  have hends : Finishes ec left → Moves l (.onWrite ec left shutdown)
      { l with writes := l.writes - 1 }
      (if ec ≠ 0 ∧ shutdown ≠ 0 then some ⟨shutdown⟩ else none) :=
    .finished ec shutdown left hwriting
  by_cases hec : ec = 0
  · subst hec
    cases left with
    | true =>
        obtain ⟨rfl, rfl⟩ := Prod.mk.inj (Option.some.inj heq)
        exact .continued hwriting
    | false =>
        obtain ⟨rfl, rfl⟩ := Prod.mk.inj (Option.some.inj heq)
        rw [if_neg fun hne => hne.1 rfl] at hends
        exact hends (.inr rfl)
  · rw [if_neg hec] at heq
    by_cases hshutdown : shutdown = 0
    · rw [if_pos hshutdown] at heq
      obtain ⟨rfl, rfl⟩ := Prod.mk.inj (Option.some.inj heq)
      rw [if_neg fun hne => hne.2 hshutdown] at hends
      exact hends (.inl hec)
    · rw [if_neg hshutdown] at heq
      obtain ⟨rfl, rfl⟩ := Prod.mk.inj (Option.some.inj heq)
      rw [if_pos ⟨hec, hshutdown⟩] at hends
      exact hends (.inl hec)

theorem moves_of_handle {l l' : Life} {e : Event} {thrown : Option SystemError}
    (h : handle l e = some (l', thrown)) : Moves l e l' thrown := by
  cases e with
  | onHandshake ec =>
      obtain ⟨hshaking, heq⟩ := Option.ite_none_right_eq_some.mp h
      obtain ⟨rfl, rfl⟩ := Prod.mk.inj (Option.some.inj heq)
      by_cases hec : ec = 0
      · subst hec
        exact .shaken hshaking
      · rw [onHandshake, if_pos hec]
        exact .refused hec hshaking
  | onRead ec io => exact moves_onRead h
  | dispatch =>
      obtain ⟨hhandling, heq⟩ := Option.ite_none_right_eq_some.mp h
      obtain ⟨rfl, rfl⟩ := Prod.mk.inj (Option.some.inj heq)
      exact .dispatched hhandling
  | reject =>
      obtain ⟨hhandling, heq⟩ := Option.ite_none_right_eq_some.mp h
      obtain ⟨rfl, rfl⟩ := Prod.mk.inj (Option.some.inj heq)
      exact .rejected hhandling
  | doRead =>
      obtain ⟨hhandling, heq⟩ := Option.ite_none_right_eq_some.mp h
      obtain ⟨rfl, rfl⟩ := Prod.mk.inj (Option.some.inj heq)
      exact .reading hhandling
  | doneCallback =>
      obtain ⟨hpending, heq⟩ := Option.ite_none_right_eq_some.mp h
      obtain ⟨rfl, rfl⟩ := Prod.mk.inj (Option.some.inj heq)
      exact .answered hpending
  | callMethod =>
      obtain ⟨rfl, rfl⟩ := Prod.mk.inj (Option.some.inj h)
      exact .called
  | onWrite ec left shutdown => exact moves_onWrite h
  | readReturns =>
      obtain ⟨hreturning, heq⟩ := Option.ite_none_right_eq_some.mp h
      obtain ⟨rfl, rfl⟩ := Prod.mk.inj (Option.some.inj heq)
      exact .returned hreturning

/-- How an event moves the chain on. -/
inductive Goes : Event → Chain → Chain → Prop where
  | shakes : Goes (.onHandshake 0) .shaking .waiting
  | givesUp {ec : ErrorCode} (failed : ec ≠ 0) : Goes (.onHandshake ec) .shaking .dropped
  | receives {io : ReadIo} : Goes (.onRead 0 io) .waiting .handling
  | fails {ec : ErrorCode} {io : ReadIo} (failed : ec ≠ 0) : Goes (.onRead ec io) .waiting .ending
  | reads : Goes .doRead .handling .waiting
  | returns : Goes .readReturns .returning .ended

/-- **THE CHAIN** stays where it is, or goes on. -/
theorem Moves.goes {l l' : Life} {e : Event} {thrown : Option SystemError}
    (h : Moves l e l' thrown) : l'.chain = l.chain ∨ Goes e l.chain l'.chain := by
  cases h with
  | shaken here => exact .inr (here ▸ .shakes)
  | refused failed here => exact .inr (here ▸ .givesUp failed)
  | received here => exact .inr (here ▸ .receives)
  | readFailed failed here => exact .inr (here ▸ .fails failed)
  | reading here => exact .inr (here ▸ .reads)
  | dispatched _ => exact .inl rfl
  | rejected _ => exact .inl rfl
  | answered _ => exact .inl rfl
  | called => exact .inl rfl
  | continued _ => exact .inl rfl
  | finished _ _ _ _ _ => exact .inl rfl
  | returned here => exact .inr (here ▸ .returns)

/-- Which exceptions leave a handler of a session. -/
theorem Moves.thrown {l l' : Life} {e : Event} {thrown : Option SystemError}
    (h : Moves l e l' thrown) :
    thrown = none ∨
      ∃ ec left shutdown, e = .onWrite ec left shutdown ∧ ec ≠ 0 ∧ shutdown ≠ 0 := by
  cases h with
  | finished ec shutdown left _ _ =>
      by_cases hfails : ec ≠ 0 ∧ shutdown ≠ 0
      · exact .inr ⟨ec, left, shutdown, rfl, hfails⟩
      · exact .inl (if_neg hfails)
  | shaken _ => exact .inl rfl
  | refused _ _ => exact .inl rfl
  | received _ => exact .inl rfl
  | readFailed _ _ => exact .inl rfl
  | reading _ => exact .inl rfl
  | dispatched _ => exact .inl rfl
  | rejected _ => exact .inl rfl
  | answered _ => exact .inl rfl
  | called => exact .inl rfl
  | continued _ => exact .inl rfl
  | returned _ => exact .inl rfl

/-- And it does leave it. -/
theorem Moves.throws {l l' : Life} {ec shutdown : ErrorCode} {left : Bool}
    {thrown : Option SystemError} (h : Moves l (.onWrite ec left shutdown) l' thrown)
    (hec : ec ≠ 0) (hshutdown : shutdown ≠ 0) : thrown = some ⟨shutdown⟩ := by
  cases h with
  | continued _ => exact absurd rfl hec
  | finished _ _ _ _ _ => exact if_pos ⟨hec, hshutdown⟩

theorem sessionOver_eq_some {l l' : Life} (h : sessionOver l = some l') :
    l.chain = .ending ∧ l' = { l with chain := .returning } := by
  obtain ⟨hending, heq⟩ := Option.ite_none_right_eq_some.mp h
  exact ⟨hending, (Option.some.inj heq).symm⟩

/-! ## What `on_rpc_callback` does to a session's life -/

/-- The step behind an effect: what is done with a response does not touch the
    session. -/
def eventOf {Msg : Type} : Effect Msg → Option Event
  | .send _ => some .reject
  | .invoke _ _ _ _ => some .dispatch
  | .parse _ _ => none
  | .run _ => none

/-- A session after some steps of `on_rpc_callback`. -/
def Life.after (l : Life) (events : List Event) : Life :=
  { l with
    writes := l.writes + events.count .reject
    closures := l.closures + events.count .dispatch }

theorem Life.after_cons (l : Life) (e : Event) (events : List Event) :
    (l.after [e]).after events = l.after (e :: events) := by
  simp only [Life.after, List.count_cons, List.count_nil, Nat.zero_add, Nat.add_comm,
    Nat.add_left_comm]

/-- Where a message is handled, the step of each effect can be taken. -/
theorem handle_eventOf {Msg : Type} {effect : Effect Msg} {e : Event}
    (he : eventOf effect = some e) {l : Life} (h : l.chain = .handling) :
    handle l e = some (l.after [e], none) := by
  cases effect with
  | send rpcMsg =>
      obtain rfl := Option.some.inj he
      exact if_pos h
  | invoke service method request id =>
      obtain rfl := Option.some.inj he
      exact if_pos h
  | parse call value => cases he
  | run call => cases he

/-- **A CALLBACK IS A RUN**: whatever the effects of `on_rpc_callback` are, a
    session that handles what was read can take their steps in order. -/
theorem callback_reaches {Msg : Type} {ssl : Bool} {p₀ : Peer Life} (effects : List (Effect Msg)) :
    ∀ p : Peer Life, Reaches (session ssl).peerNext (fun _ _ => True) p₀ p →
      p.life.chain = .handling →
      Reaches (session ssl).peerNext (fun _ _ => True) p₀
        ⟨p.life.after (effects.filterMap eventOf), p.overs⟩ := by
  induction effects with
  | nil =>
      intro p hp _
      exact hp
  | cons effect rest ih =>
      intro p hp hhandling
      cases heffect : eventOf effect with
      | none =>
          rw [List.filterMap_cons_none heffect]
          exact ih p hp hhandling
      | some e =>
          rw [List.filterMap_cons_some heffect, ← Life.after_cons]
          refine ih ⟨p.life.after [e], p.overs⟩ (hp.next (a := .handle e) trivial ?_) hhandling
          show ((handle p.life e).map _).map _ = _
          rw [handle_eventOf heffect hhandling]
          rfl

/-- A REQUEST gives a closure to a service, or is answered with an error. -/
theorem events_of_request {Msg : Type} (s : Session Msg) {rpcMsg : RpcMessages.RpcMessage}
    (h : rpcMsg.type = .request) :
    ∃ effects, onRpcCallback s (some rpcMsg) .kNoError = .ok (s, effects) ∧
      (effects.filterMap eventOf = [.dispatch] ∨ effects.filterMap eventOf = [.reject]) := by
  have hnot : rpcMsg.type ≠ .response := by
    rw [h]
    decide
  obtain ⟨effects, hok, hhandled⟩ := onRpcCallback_handled s hnot
  refine ⟨effects, hok, ?_⟩
  cases hhandled with
  | invoked inv asks => exact .inl rfl
  | rejected errorCode rejects => exact .inr rfl
  | ignored other => exact absurd h other

/-! ## What holds a session -/

theorem holders_of_writes {l : Life} (h : 0 < l.writes) : 0 < holders l :=
  Nat.lt_of_lt_of_le h (Nat.le_add_left _ _)

theorem holders_of_chain {l : Life} (hended : l.chain ≠ .ended) (hdropped : l.chain ≠ .dropped) :
    0 < holders l := by
  rw [holders]
  cases hchain : l.chain with
  | ended => exact absurd hchain hended
  | dropped => exact absurd hchain hdropped
  | shaking => exact Nat.add_pos_left Nat.one_pos _
  | waiting => exact Nat.add_pos_left Nat.one_pos _
  | handling => exact Nat.add_pos_left Nat.one_pos _
  | ending => exact Nat.add_pos_left Nat.one_pos _
  | returning => exact Nat.add_pos_left Nat.one_pos _

theorem holders_ended {l : Life} (hended : l.chain = .ended) (hwrites : l.writes = 0) :
    holders l = 0 := by
  simp [holders, hended, hwrites]

/-- A write that ends is outstanding no longer. -/
theorem Moves.finishes {l l' : Life} {ec shutdown : ErrorCode} {left : Bool}
    {thrown : Option SystemError} (h : Moves l (.onWrite ec left shutdown) l' thrown)
    (hfinishes : Finishes ec left) : l' = { l with writes := l.writes - 1 } := by
  cases h with
  | continued _ => rcases hfinishes with hec | hleft <;> contradiction
  | finished _ _ _ _ _ => rfl

/-- The chain of a handler that returns behind the call has ended. -/
theorem Moves.returns {l l' : Life} {thrown : Option SystemError}
    (h : Moves l .readReturns l' thrown) : l' = { l with chain := .ended } := by
  cases h with
  | returned _ => rfl

/-- Only behind the handshake is anything dispatched. -/
def Undispatched (l : Life) : Prop :=
  l.chain = .shaking ∨ l.chain = .dropped → l.closures = 0

theorem Undispatched.moves {l l' : Life} {e : Event} {thrown : Option SystemError}
    (hquiet : Undispatched l) (h : Moves l e l' thrown) : Undispatched l' := by
  cases h with
  | shaken _ => rintro (hchain | hchain) <;> cases hchain
  | refused _ here => exact fun _ => hquiet (.inl here)
  | received _ => rintro (hchain | hchain) <;> cases hchain
  | readFailed _ _ => rintro (hchain | hchain) <;> cases hchain
  | reading _ => rintro (hchain | hchain) <;> cases hchain
  | dispatched here => rintro (hchain | hchain) <;> cases here.symm.trans hchain
  | rejected _ => exact hquiet
  | answered _ =>
      intro hchain
      show l.closures - 1 = 0
      rw [hquiet hchain]
  | called => exact hquiet
  | continued _ => exact hquiet
  | finished _ _ _ _ _ => exact hquiet
  | returned _ => rintro (hchain | hchain) <;> cases hchain

/-- **WHO LETS GO**: with a closure pending, a session loses its last holder
    to a handler only when the last one of its chain returns and no write is
    outstanding, or with the end of its last write behind that. -/
theorem Moves.held {l l' : Life} {e : Event} {thrown : Option SystemError}
    (h : Moves l e l' thrown) (hquiet : Undispatched l) (hpending : 0 < l'.closures) :
    0 < holders l' ∨ (∃ ec left shutdown, e = .onWrite ec left shutdown ∧ Finishes ec left ∧
      l.writes = 1 ∧ l.chain = .ended ∧ 0 < l.closures) ∨
      e = .readReturns ∧ l.writes = 0 ∧ 0 < l.closures := by
  cases h with
  | shaken _ => exact .inl (holders_of_chain Chain.noConfusion Chain.noConfusion)
  | refused _ here => exact absurd (hquiet (.inl here)) (Nat.ne_of_gt hpending)
  | received _ => exact .inl (holders_of_chain Chain.noConfusion Chain.noConfusion)
  | readFailed _ _ => exact .inl (holders_of_chain Chain.noConfusion Chain.noConfusion)
  | reading _ => exact .inl (holders_of_chain Chain.noConfusion Chain.noConfusion)
  | dispatched here =>
      refine .inl (holders_of_chain ?_ ?_)
      · exact fun hended => Chain.noConfusion (here.symm.trans hended)
      · exact fun hdropped => Chain.noConfusion (here.symm.trans hdropped)
  | rejected _ => exact .inl (holders_of_writes (Nat.succ_pos _))
  | answered _ => exact .inl (holders_of_writes (Nat.succ_pos _))
  | called => exact .inl (holders_of_writes (Nat.succ_pos _))
  | continued writing => exact .inl (holders_of_writes writing)
  | finished ec shutdown left writing finishes =>
      -- another write holds the session, or the chain does while it goes on
      by_cases hmore : 0 < l.writes - 1
      · exact .inl (holders_of_writes hmore)
      · by_cases hended : l.chain = .ended
        · exact .inr (.inl ⟨ec, left, shutdown, rfl, finishes, by omega, hended, hpending⟩)
        · refine .inl (holders_of_chain hended fun hdropped => ?_)
          exact absurd (hquiet (.inr hdropped)) (Nat.ne_of_gt hpending)
  | returned _ =>
      by_cases hwriting : l.writes = 0
      · exact .inr (.inr ⟨rfl, hwriting, hpending⟩)
      · exact .inl (holders_of_writes (Nat.pos_of_ne_zero hwriting))

/-! ## The end of a session -/

/-- Nothing is outstanding, and no handler runs. -/
def Idle (l : Life) : Prop := holders l = 0

/-- A handshake completes without an error. -/
def Shakes (_ : Peer Life) : PeerAction Event → Prop
  | .handle (.onHandshake ec) => ec = 0
  | _ => True

instance (p : Peer Life) (a : PeerAction Event) : Decidable (Shakes p a) :=
  match a with
  | .handle (.onHandshake ec) => inferInstanceAs (Decidable (ec = 0))
  | .handle (.onRead _ _) => isTrue trivial
  | .handle .dispatch => isTrue trivial
  | .handle .reject => isTrue trivial
  | .handle .doRead => isTrue trivial
  | .handle .doneCallback => isTrue trivial
  | .handle .callMethod => isTrue trivial
  | .handle (.onWrite _ _ _) => isTrue trivial
  | .handle .readReturns => isTrue trivial
  | .sessionOver => isTrue trivial

/-- With nothing outstanding the chain has ended, or was given up. -/
theorem chain_of_idle {l : Life} (h : Idle l) : l.chain = .ended ∨ l.chain = .dropped := by
  by_contra hchain
  rw [not_or] at hchain
  exact Nat.ne_of_gt (holders_of_chain hchain.1 hchain.2) h

/-- `sessionOverFunc_` has been called. -/
def Chain.Over (c : Chain) : Prop := c = .returning ∨ c = .ended

instance (c : Chain) : Decidable c.Over := inferInstanceAs (Decidable (_ ∨ _))

/-- `sessionOverFunc_` was called once behind its call, and not before. -/
def Reported (p : Peer Life) : Prop := p.overs = if p.life.chain.Over then 1 else 0

section Runs

variable {ssl : Bool} {p p' : Peer Life}

/-- A step of a session by itself is one of its handlers' or the call to
    `sessionOverFunc_`. -/
theorem step_cases {a : PeerAction Event} (h : (session ssl).peerNext p a = some p') :
    (∃ e thrown, a = .handle e ∧ Moves p.life e p'.life thrown ∧ p'.overs = p.overs) ∨
      (a = .sessionOver ∧ p.life.chain = .ending ∧ p'.life = { p.life with chain := .returning } ∧
        p'.overs = p.overs + 1) := by
  obtain ⟨⟨p₁, thrown⟩, hstep, rfl⟩ := Option.map_eq_some_iff.mp h
  cases a with
  | handle e =>
      obtain ⟨hhandle, hovers⟩ := peerStep_handle hstep
      exact .inl ⟨e, thrown, rfl, moves_of_handle hhandle, hovers⟩
  | sessionOver =>
      obtain ⟨hover, hovers, -⟩ := peerStep_sessionOver hstep
      obtain ⟨hending, hlife⟩ := sessionOver_eq_some hover
      exact .inr ⟨rfl, hending, hlife, hovers⟩

/-- No handler moves the chain from behind the call to before it, or back. -/
theorem Moves.over_iff {l l' : Life} {e : Event} {thrown : Option SystemError}
    (h : Moves l e l' thrown) : l'.chain.Over ↔ l.chain.Over := by
  rcases h.goes with heq | hgoes
  · rw [heq]
  · generalize l.chain = c, l'.chain = c' at hgoes
    cases hgoes with
    | shakes => simp [Chain.Over]
    | givesUp _ => simp [Chain.Over]
    | receives => simp [Chain.Over]
    | fails _ => simp [Chain.Over]
    | reads => simp [Chain.Over]
    | returns => simp [Chain.Over]

theorem undispatched_of_reaches {C : Peer Life → PeerAction Event → Prop}
    (h : Reaches (session ssl).peerNext C (session ssl).started p) : Undispatched p.life := by
  refine h.invariant (I := fun q => Undispatched q.life) (fun _ => rfl) ?_
  intro q a q' hquiet _ hstep
  rcases step_cases hstep with ⟨e, thrown, -, hmoves, -⟩ | ⟨-, -, hlife, -⟩
  · exact hquiet.moves hmoves
  · rw [hlife]
    rintro (hchain | hchain) <;> cases hchain

theorem Reported.step (hreported : Reported p) {a : PeerAction Event}
    (h : (session ssl).peerNext p a = some p') : Reported p' := by
  rw [Reported] at hreported ⊢
  rcases step_cases h with ⟨e, thrown, -, hmoves, hovers⟩ | ⟨-, hending, hlife, hovers⟩
  · simp only [hovers, hreported, hmoves.over_iff]
  · rw [hovers, hreported, hlife, hending, if_neg (by decide)]
    exact (if_pos (Or.inl rfl)).symm

/-- **AT MOST ONCE**, and exactly once behind the call. -/
theorem reported_of_reaches {C : Peer Life → PeerAction Event → Prop}
    (h : Reaches (session ssl).peerNext C (session ssl).started p) : Reported p := by
  refine h.invariant (I := Reported) ?_ ?_
  · cases ssl <;> rfl
  · intro q a q' hreported _ hstep
    exact hreported.step hstep

/-- Only a handshake that fails gives a session up. -/
theorem Moves.dropped {l l' : Life} {e : Event} {thrown : Option SystemError}
    (h : Moves l e l' thrown) (hdropped : l'.chain = .dropped) :
    l.chain = .dropped ∨ l.chain = .shaking ∧ ∃ ec, ec ≠ 0 ∧ e = .onHandshake ec := by
  rcases h.goes with heq | hgoes
  · exact .inl (heq ▸ hdropped)
  · rw [hdropped] at hgoes
    generalize l.chain = c at hgoes ⊢
    cases hgoes with
    | givesUp failed => exact .inr ⟨rfl, _, failed, rfl⟩

theorem not_dropped_of_shakes (h : Reaches (session ssl).peerNext Shakes (session ssl).started p) :
    p.life.chain ≠ .dropped := by
  refine h.invariant (I := fun q => q.life.chain ≠ .dropped) ?_ ?_
  · cases ssl <;> exact Chain.noConfusion
  · intro q a q' hq rule hstep hdropped
    rcases step_cases hstep with ⟨e, thrown, rfl, hmoves, -⟩ | ⟨-, -, hlife, -⟩
    · rcases hmoves.dropped hdropped with hold | ⟨-, ec, hec, rfl⟩
      · exact hq hold
      · exact hec rule
    · rw [hlife] at hdropped
      cases hdropped

/-- No handler goes back to the handshake. -/
theorem Moves.shaking {l l' : Life} {e : Event} {thrown : Option SystemError}
    (h : Moves l e l' thrown) (hshaking : l'.chain = .shaking) : l.chain = .shaking := by
  rcases h.goes with heq | hgoes
  · exact heq ▸ hshaking
  · rw [hshaking] at hgoes
    generalize l.chain = c at hgoes
    cases hgoes

/-- Without SSL there is no handshake that could fail. -/
theorem not_dropped_of_plain {C : Peer Life → PeerAction Event → Prop}
    (h : Reaches (session false).peerNext C (session false).started p) :
    p.life.chain ≠ .shaking ∧ p.life.chain ≠ .dropped := by
  refine h.invariant (I := fun q => q.life.chain ≠ .shaking ∧ q.life.chain ≠ .dropped)
    ⟨Chain.noConfusion, Chain.noConfusion⟩ ?_
  rintro q a q' ⟨hshaking, hdropped⟩ _ hstep
  rcases step_cases hstep with ⟨e, thrown, rfl, hmoves, -⟩ | ⟨-, -, hlife, -⟩
  · refine ⟨fun h' => hshaking (hmoves.shaking h'), fun h' => ?_⟩
    rcases hmoves.dropped h' with hold | ⟨hold, -⟩
    · exact hdropped hold
    · exact hshaking hold
  · rw [hlife]
    exact ⟨Chain.noConfusion, Chain.noConfusion⟩

/-- Behind a chain that was not given up, an idle session has been reported. -/
theorem Reported.overs_eq_one_iff (h : Reported p) (hidle : Idle p.life) :
    p.overs = 1 ↔ p.life.chain ≠ .dropped := by
  rw [h]
  rcases chain_of_idle hidle with hended | hdropped
  · simp [hended, Chain.Over]
  · simp [hdropped, Chain.Over]

theorem Reported.overs_le_one (h : Reported p) : p.overs ≤ 1 := by
  rw [h]
  split
  · exact Nat.le_refl 1
  · exact Nat.zero_le 1

end Runs

/-- **THE END OF A SESSION IS REPORTED**: at most once in every run, and exactly
    once when nothing is outstanding any more, in every run whose handshake does
    not fail; a session whose handshake failed is not reported, and there is
    none in the plain build. -/
theorem over_once (ssl : Bool) :
    (∀ p, Reaches (session ssl).peerNext Shakes (session ssl).started p →
      p.overs ≤ 1 ∧ (Idle p.life → p.overs = 1)) ∧
    ∀ p, Reaches (session ssl).peerNext (fun _ _ => True) (session ssl).started p →
      p.overs ≤ 1 ∧ (Idle p.life → (p.overs = 1 ↔ p.life.chain ≠ .dropped)) ∧
        (ssl = false → p.life.chain ≠ .dropped) := by
  refine ⟨?_, ?_⟩
  · intro p h
    have hreported := reported_of_reaches h
    refine ⟨hreported.overs_le_one, fun hidle => ?_⟩
    exact (hreported.overs_eq_one_iff hidle).mpr (not_dropped_of_shakes h)
  · intro p h
    have hreported := reported_of_reaches h
    refine ⟨hreported.overs_le_one, hreported.overs_eq_one_iff, ?_⟩
    rintro rfl
    exact (not_dropped_of_plain h).2

/-- A session that answers one request, and whose peer then goes away. -/
def answered : List (PeerAction Event) :=
  [.handle (.onHandshake 0), .handle (.onRead 0 ⟨true, 0, 0⟩), .handle .dispatch,
    .handle .doneCallback, .handle .doRead, .handle (.onWrite 0 false 0),
    .handle (.onRead eof ⟨true, 107, 107⟩), .sessionOver, .handle .readReturns]

theorem over_once_answered :
    ∃ p, guardedRun (session true).peerNext Shakes (session true).started answered = some p ∧
      Idle p.life ∧ p.overs ≤ 1 ∧ p.overs = 1 := by
  have hrun : guardedRun (session true).peerNext Shakes (session true).started answered
      = some ⟨⟨.ended, 0, 0⟩, 1⟩ := by
    decide +kernel
  have hidle : Idle ⟨.ended, 0, 0⟩ := rfl
  obtain ⟨hmost, hexactly⟩ := (over_once true).1 _ (reaches_of_guardedRun hrun)
  exact ⟨_, hrun, hidle, hmost, hexactly hidle⟩

/-- After a handshake that failed a session is idle and was not reported. -/
theorem refused_not_reported :
    ∃ p, Reaches (session true).peerNext (fun _ _ => True) (session true).started p ∧
      Idle p.life ∧ p.overs = 0 :=
  ⟨⟨⟨.dropped, 0, 0⟩, 0⟩,
    .next (a := .handle (.onHandshake eof)) .start trivial rfl, rfl, rfl⟩

end RpcSessionLife
