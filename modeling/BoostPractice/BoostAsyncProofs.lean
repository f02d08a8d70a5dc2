import BoostPractice.RpcServerProofs

/-! # Two session registries

    `boost_async`, the server of the first RPC program, accepts as `rpc_server`
    does, but gives up after an accept that failed.  Its sessions call
    `sessionCb_` after a read that failed and after a write that failed, from
    different handlers, so that a session may be over more than once.

    Both servers start a session before they keep it in `sessions_`.  On
    another thread its first read may have failed by then.
    `registry_forgets` says that this is the only way to a registry that is
    not right. -/

namespace BoostAsync

open Acceptor GuardedRun

/-! ## The session -/

/-- The handler of the read: outstanding, handling what was read, or returned
    without another read. -/
inductive Reader where
  | waiting
  | handling
  | returned
  deriving DecidableEq

/-- The reader, the outstanding writes, and the handlers that are about to call
    `sessionCb_`. -/
structure Life where
  reader : Reader
  writes : Nat
  leaving : Nat
  deriving DecidableEq

/-- What `remote_endpoint`, called twice, and `shutdown` come to. -/
structure ReadIo where
  address : ErrorCode
  port : ErrorCode
  shutdown : ErrorCode

/-- What a handler does next. -/
inductive After where
  | sessionCb
  | more
  | done

/-- `rpc_session::on_read`, up to `sessionCb_` or the loop. -/
def onRead (ec : ErrorCode) (io : ReadIo) : Except SystemError After :=
  if ec ≠ 0 then do
    if ec = eof then
      throwing io.address
      throwing io.port
    throwing io.shutdown
    pure .sessionCb
  else pure .more

/-- `rpc_session::on_write`, up to `sessionCb_` or the next write.  `left` says
    that bytes are readable after the `retrieve`. -/
def onWrite (ec : ErrorCode) (left : Bool) (shutdown : ErrorCode) : Except SystemError After :=
  if ec ≠ 0 then do
    throwing shutdown
    pure .sessionCb
  else if left then pure .more else pure .done

inductive Event where
  | onRead (ec : ErrorCode) (io : ReadIo)
  /-- The service has answered a message in `CallMethod`. -/
  | doneCallback
  | doRead
  | onWrite (ec : ErrorCode) (left : Bool) (shutdown : ErrorCode)

/-- A step of a session's handlers, and the exception that leaves it. -/
def handle (l : Life) : Event → Option (Life × Option SystemError)
  | .onRead ec io =>
      if l.reader = .waiting then
        match onRead ec io with
        | .ok .sessionCb =>
            some ({ l with reader := .returned, leaving := l.leaving + 1 }, none)
        | .ok _ => some ({ l with reader := .handling }, none)
        | .error e => some ({ l with reader := .returned }, some e)
      else none
  | .doneCallback =>
      if l.reader = .handling then some ({ l with writes := l.writes + 1 }, none) else none
  | .doRead =>
      if l.reader = .handling then some ({ l with reader := .waiting }, none) else none
  | .onWrite ec left shutdown =>
      if 0 < l.writes then
        match onWrite ec left shutdown with
        | .ok .sessionCb =>
            some ({ l with writes := l.writes - 1, leaving := l.leaving + 1 }, none)
        -- the rest is written, with the same handler
        | .ok .more => some (l, none)
        | .ok .done => some ({ l with writes := l.writes - 1 }, none)
        | .error e => some ({ l with writes := l.writes - 1 }, some e)
      else none

/-- One of the handlers calls `sessionCb_` and returns. -/
def sessionCb (l : Life) : Option Life :=
  if 0 < l.leaving then some { l with leaving := l.leaving - 1 } else none

def holders (l : Life) : Nat :=
  (if l.reader = .returned then 0 else 1) + l.writes + l.leaving

/-! ## The server -/

/-- What the accept comes to, the two calls of `remote_endpoint`, and the
    `shutdown` after an accept that failed. -/
structure AcceptIo where
  ec : ErrorCode
  address : ErrorCode
  port : ErrorCode
  shutdown : ErrorCode

/-- `boost_async::on_accept`, up to the start of the session. -/
def onAccept (io : AcceptIo) : Except SystemError Next :=
  if io.ec ≠ 0 then do
    throwing io.shutdown
    -- no `do_accept` here
    pure .leave
  else do
    throwing io.address
    throwing io.port
    pure .startSession

/-- `boost_async` and its `rpc_session`. -/
def boostAsync : Program AcceptIo Life Event where
  run := ⟨.waiting, 0, 0⟩
  handle := handle
  sessionOver := sessionCb
  holders := holders
  onAccept := onAccept

/-! ## How a session ends -/

/-- A handler that returns without an exception leaves the read to the next
    one, or calls `sessionCb_`. -/
theorem handle_returned {l l' : Life} {e : Event} (h : handle l e = some (l', none))
    (hreturned : l'.reader = .returned) :
    l.reader = .returned ∧ l.leaving ≤ l'.leaving ∨ 0 < l'.leaving := by
  cases e with
  | onRead ec io =>
      obtain ⟨-, heq⟩ := Option.ite_none_right_eq_some.mp h
      split at heq
      · cases heq
        exact .inr (Nat.succ_pos _)
      · cases heq
        cases hreturned
      · cases heq
  | doneCallback =>
      obtain ⟨-, heq⟩ := Option.ite_none_right_eq_some.mp h
      cases heq
      exact .inl ⟨hreturned, Nat.le_refl _⟩
  | doRead =>
      obtain ⟨-, heq⟩ := Option.ite_none_right_eq_some.mp h
      cases heq
      cases hreturned
  | onWrite ec left shutdown =>
      obtain ⟨-, heq⟩ := Option.ite_none_right_eq_some.mp h
      split at heq
      · cases heq
        exact .inr (Nat.succ_pos _)
      · cases heq
        exact .inl ⟨hreturned, Nat.le_refl _⟩
      · cases heq
        exact .inl ⟨hreturned, Nat.le_refl _⟩
      · cases heq

/-- A session that reads no more has been reported, or is about to be. -/
def Reported (p : Peer Life) : Prop := p.life.reader = .returned → 0 < p.overs + p.life.leaving

/-- No session is given up silently as long as no exception escapes. -/
theorem reported_of_reaches {C : Server Life → Action AcceptIo Event → Prop} {s : Server Life}
    (h : Reaches boostAsync.step C Server.start s) :
    s.escaped = none → ∀ (k : Nat) (p : Peer Life), s.peers[k]? = some p → Reported p := by
  refine h.invariant (I := fun t => t.escaped = none → ∀ (k : Nat) (p : Peer Life),
    t.peers[k]? = some p → Reported p) ?_ ?_
  · intro _ k p hp
    cases hp
  · intro t a t' hI _ hstep hrunning k p hp hreturned
    have hold := hI (act_of_step hstep).1
    rcases peer_of_step hstep hp with hsame | rfl | ⟨b, p₀, rfl, hp₀, htaken⟩
    · exact hold k p hsame hreturned
    · cases hreturned
    · have hbefore := hold k p₀ hp₀
      rw [hrunning] at htaken
      cases b with
      | handle e =>
          obtain ⟨hhandle, hovers⟩ := peerStep_handle htaken
          rcases handle_returned hhandle hreturned with ⟨hreader, hleaving⟩ | hleaving
          · have hpos := hbefore hreader
            omega
          · omega
      | sessionOver =>
          have hovers := (peerStep_sessionOver htaken).2.1
          omega

/-- Without an exception that has escaped, a session of `boost_async` that no
    handler holds is not in the registry either, if it is right. -/
theorem forgotten {s : Server Life} (h : Reaches boostAsync.step AfterRegister Server.start s)
    (hrunning : s.escaped = none) {k : Nat} {p : Peer Life} (hp : s.peers[k]? = some p)
    (hdone : s.onAccept ≠ .registering k) (hidle : holders p.life = 0) :
    boostAsync.owners s k p = 0 := by
  have hreturned : p.life.reader = .returned := by
    by_contra hreader
    rw [holders, if_neg hreader] at hidle
    omega
  have hleaving : p.life.leaving = 0 := (Nat.add_eq_zero_iff.mp hidle).2
  have hreported := reported_of_reaches h hrunning k p hp hreturned
  have hcount := registry_of_reaches h k p hp hdone
  rw [if_neg (by omega)] at hcount
  show s.sessions.count k + holders p.life + _ = 0
  rw [hcount, hidle, if_neg hdone]

/-! ## The registries -/

open RpcSessionLife (Idle chain_of_idle) in
/-- So is one of `rpc_server`, in the plain build, where every end is reported. -/
theorem forgotten_rpcServer {s : Server RpcSessionLife.Life}
    (h : RpcServer.Runs false AfterRegister s) {k : Nat} {p : Peer RpcSessionLife.Life}
    (hp : s.peers[k]? = some p) (hdone : s.onAccept ≠ .registering k) (hidle : Idle p.life) :
    (RpcServer.rpcServer false).owners s k p = 0 := by
  have hpeer := peer_reaches (D := fun _ _ => True) (fun _ _ _ _ _ _ => trivial) h k p hp
  have hreported := RpcSessionLife.reported_of_reaches hpeer
  have hone := (hreported.overs_eq_one_iff hidle).mpr
    (RpcSessionLife.not_dropped_of_plain hpeer).2
  have hcount := registry_of_reaches h k p hp hdone
  rw [hone, if_neg Nat.one_ne_zero] at hcount
  show s.sessions.count k + RpcSessionLife.holders p.life + _ = 0
  rw [hcount, hidle, if_neg hdone]

/-- **THE REGISTRY FORGETS FINISHED SESSIONS** and keeps the others once, of
    both servers, in every run in which `on_session_over` is executed for a
    session after `on_accept` has put it in; and a session for which it was
    executed before is in the registry next. -/
theorem registry_forgets (ssl : Bool) :
    (∀ s, RpcServer.Runs ssl AfterRegister s → Registered s) ∧
    (∀ s, Reaches boostAsync.step AfterRegister Server.start s → Registered s) ∧
    (∀ s k s', s.onAccept = .registering k →
      (RpcServer.rpcServer ssl).step s (.session k .sessionOver) = some s' →
      ∃ s'', (RpcServer.rpcServer ssl).step s' .register = some s'' ∧ ¬ Registered s'') ∧
    ∀ s k s', s.onAccept = .registering k →
      boostAsync.step s (.session k .sessionOver) = some s' →
      ∃ s'', boostAsync.step s' .register = some s'' ∧ ¬ Registered s'' := by
  refine ⟨?_, ?_, ?_, ?_⟩
  · intro s h
    exact registry_of_reaches h
  · intro s h
    exact registry_of_reaches h
  · intro s k s' hearly hstep
    exact early_over hearly hstep
  · intro s k s' hearly hstep
    exact early_over hearly hstep

/-- A client that connects and goes away, twice. -/
def inAndOut {Io E : Type} (accepted : Io) (readFails : E) : List (Action Io E) :=
  [.accept accepted, .register, .session 0 (.handle readFails), .doAccept, .accept accepted,
    .session 0 .sessionOver, .session 1 (.handle readFails), .register, .session 1 .sessionOver]

theorem registry_forgets_in_and_out :
    (∃ s, guardedRun (RpcServer.rpcServer false).step AfterRegister Server.start
        (inAndOut ⟨0, 0, 0⟩ (.onRead eof ⟨true, 0, 0⟩)) = some s ∧ Registered s) ∧
    ∃ s, guardedRun boostAsync.step AfterRegister Server.start
        (inAndOut ⟨0, 0, 0, 0⟩ (.onRead eof ⟨0, 0, 0⟩)) = some s ∧ Registered s := by
  refine ⟨?_, ?_⟩
  · have hrun : (guardedRun (RpcServer.rpcServer false).step AfterRegister Server.start
        (inAndOut ⟨0, 0, 0⟩ (.onRead eof ⟨true, 0, 0⟩))).map Server.sessions = some [] := by
      decide +kernel
    obtain ⟨s, hs, -⟩ := Option.map_eq_some_iff.mp hrun
    exact ⟨s, hs, (registry_forgets false).1 s (reaches_of_guardedRun hs)⟩
  · have hrun : (guardedRun boostAsync.step AfterRegister Server.start
        (inAndOut ⟨0, 0, 0, 0⟩ (.onRead eof ⟨0, 0, 0⟩))).map Server.sessions = some [] := by
      decide +kernel
    obtain ⟨s, hs, -⟩ := Option.map_eq_some_iff.mp hrun
    exact ⟨s, hs, (registry_forgets false).2.1 s (reaches_of_guardedRun hs)⟩

/-- A client that goes away before its session is in the registry. -/
def gone {Io E : Type} (accepted : Io) (readFails : E) : List (Action Io E) :=
  [.accept accepted, .session 0 (.handle readFails), .session 0 .sessionOver, .register, .doAccept]

/-- Its session stays in `sessions_`. -/
theorem finished_session_kept :
    (∃ s, RpcServer.Runs false (fun _ _ => True) s ∧ s.onAccept = .armed ∧ s.sessions = [0] ∧
      s.peers.map Peer.overs = [1]) ∧
    ∃ s, Reaches boostAsync.step (fun _ _ => True) Server.start s ∧ s.onAccept = .armed ∧
      s.sessions = [0] ∧ s.peers.map Peer.overs = [1] := by
  refine ⟨?_, ?_⟩
  · have hrun : (guardedRun (RpcServer.rpcServer false).step (fun _ _ => True) Server.start
        (gone ⟨0, 0, 0⟩ (.onRead eof ⟨true, 0, 0⟩))).map
        (fun s => (s.onAccept, s.sessions, s.peers.map Peer.overs)) = some (.armed, [0], [1]) := by
      decide +kernel
    obtain ⟨s, hs, hend⟩ := exists_of_guardedRun hrun
    obtain ⟨harmed, hrest⟩ := Prod.mk.inj hend
    obtain ⟨hsessions, hovers⟩ := Prod.mk.inj hrest
    exact ⟨s, hs, harmed, hsessions, hovers⟩
  · have hrun : (guardedRun boostAsync.step (fun _ _ => True) Server.start
        (gone ⟨0, 0, 0, 0⟩ (.onRead eof ⟨0, 0, 0⟩))).map
        (fun s => (s.onAccept, s.sessions, s.peers.map Peer.overs)) = some (.armed, [0], [1]) := by
      decide +kernel
    obtain ⟨s, hs, hend⟩ := exists_of_guardedRun hrun
    obtain ⟨harmed, hrest⟩ := Prod.mk.inj hend
    obtain ⟨hsessions, hovers⟩ := Prod.mk.inj hrest
    exact ⟨s, hs, harmed, hsessions, hovers⟩

end BoostAsync
