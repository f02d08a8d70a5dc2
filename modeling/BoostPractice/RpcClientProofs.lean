import BoostPractice.RpcServerProofs

/-! # `rpc_client`, and how a connection ends

    `rpc_client::connect` starts a connect and a timer of two seconds;
    `on_connect` cancels the timer and makes the session, and
    `connectionCb_` is called behind that, in the SSL build behind the
    handshake.  `disconnect` shuts down the sending direction and nothing
    else: the server's `on_read` comes to the end of the stream, shuts down
    its own direction and reports its session to be over, then the client's
    does the same, and `on_session_over` stops the `io_context`.

    Both sessions are those of `RpcSessionLife`, in either build; between them
    the messages on their way are counted, and a read that completes none is
    left out.  The server accepts a connection once it is established, whether
    or not the client has come to `on_connect`, and runs any number of
    threads.  An exception that leaves a handler ends the run.

    `connection_ends` says that a connection is left half open by nobody. -/

namespace RpcClient

open Acceptor GuardedRun RpcSessionLife
open RpcServer (AcceptIo onAccept)

/-! ## The client, the server's session and the connection -/

inductive Side where
  | client
  | server
  deriving DecidableEq

def Side.peer : Side → Side
  | .client => .server
  | .server => .client

/-- `timeOut_`: it is running; its handler is to be called, without an error or
    with `operation_aborted`; or the handler has returned. -/
inductive Timer where
  | running
  | expired
  | cancelled
  | handled
  deriving DecidableEq

/-- `timeOut_.cancel()`: too late for a handler that is to be called. -/
def Timer.cancel : Timer → Timer
  | .running => .cancelled
  | timer => timer

/-- A session with its socket: whether its sending direction is shut down, how
    many of its writes are transferred and not handled, and how many messages
    `on_read` has still to go through. -/
structure End where
  peer : Peer Life
  shut : Bool
  transferred : Nat
  unhandled : Nat
  deriving DecidableEq

def End.started (ssl : Bool) : End := ⟨(session ssl).started, false, 0, 0⟩

def End.life (e : End) : Life := e.peer.life

/-- A handler of the session, or its call of `sessionOverFunc_`, with what it
    does to the socket and the exception that leaves it. -/
def End.next (ssl : Bool) (a : PeerAction Event) (f : End → End) (e : End) :
    Option (End × Option SystemError) :=
  ((session ssl).peerStep e.peer a).map fun r => (f { e with peer := r.1 }, r.2)

/-- The client's `ioc_` and what it runs, `connectionCb_`'s calls, `session_`
    and the session that the server accepted, and the messages on their way to
    each; whether the server's is in `sessions_`, whether `on_accept` has put it
    in, and whether it was over by then; and an exception that no handler has
    caught. -/
structure Conn where
  connecting : Bool
  /-- The connection is established. -/
  connected : Bool
  timer : Timer
  callbacks : Nat
  /-- `ioc_.stop()` was called, and whether because the time was out. -/
  stopped : Bool
  timedOut : Bool
  /-- `run` has returned, and the client is destroyed with its socket. -/
  gone : Bool
  ends : Side → Option End
  flying : Side → Nat
  sessions : Bool
  registered : Bool
  late : Bool
  escaped : Option SystemError

/-- `rpc_client::connect`. -/
def Conn.connect : Conn where
  connecting := true
  connected := false
  timer := .running
  callbacks := 0
  stopped := false
  timedOut := false
  gone := false
  ends := fun _ => none
  flying := fun _ => 0
  sessions := false
  registered := false
  late := false
  escaped := none

/-- The sending direction is shut down, or its socket is closed. -/
def Conn.shut (s : Conn) (x : Side) : Bool :=
  (x == .client && s.gone) ||
    match s.ends x with
    | some e => e.shut
    | none => false

/-- The session's handshake has failed. -/
def Conn.Failed (s : Conn) (x : Side) : Prop := ∃ e ∈ s.ends x, e.life.chain = .dropped

instance (s : Conn) (x : Side) : Decidable (s.Failed x) :=
  inferInstanceAs (Decidable (∃ e ∈ s.ends x, e.life.chain = .dropped))

/-- The session can still be used. -/
def Conn.lives (s : Conn) : Side → Bool
  | .client => !s.gone
  | .server => true

/-- Its handlers are run. -/
def Conn.runs (s : Conn) : Side → Bool
  | .client => !s.gone && !s.stopped
  | .server => true

/-- `ioc_.run()` returns: no handler is in the middle of `on_session_over`, and
    it was stopped or is out of work. -/
def Conn.Returns (s : Conn) : Prop :=
  (∀ e ∈ s.ends .client, e.life.chain ≠ .returning) ∧
    (s.stopped = true ∨ s.connecting = false ∧ s.timer = .handled ∧
      ∀ e ∈ s.ends .client, holders e.life = 0)

instance (s : Conn) : Decidable s.Returns :=
  inferInstanceAs (Decidable ((∀ e ∈ s.ends .client, _) ∧ (_ ∨ _ ∧ _ ∧ ∀ e ∈ s.ends .client, _)))

/-- `rpc_client::on_connect`. -/
def Conn.onConnect (ssl : Bool) (s : Conn) (ec : ErrorCode) : Conn :=
  let s := { s with connecting := false, timer := s.timer.cancel }
  if ec ≠ 0 then s
  else
    { s with
      ends := Function.update s.ends .client (some (.started ssl))
      callbacks := if ssl then s.callbacks else s.callbacks + 1 }

/-- A step of a session that may take it. -/
def Conn.at (s : Conn) (may : Bool) (x : Side) (f : End → Option (End × Option SystemError)) :
    Option Conn :=
  if may then
    match s.ends x with
    | some e =>
        (f e).map fun r =>
          { s with ends := Function.update s.ends x (some r.1), escaped := r.2 }
    | none => none
  else none

inductive Action where
  /-- The connection is established. -/
  | establish
  | onConnect (ec : ErrorCode)
  /-- Two seconds have passed. -/
  | expire
  /-- The handler of `timeOut_`. -/
  | onTimer
  /-- `on_accept` of the server starts its session. -/
  | accept (io : AcceptIo)
  /-- It puts it in `sessions_`. -/
  | register
  /-- `rpc_client::disconnect`, from any thread. -/
  | disconnect
  /-- `run` returns, and the client is destroyed. -/
  | exit
  | onHandshake (x : Side) (ec : ErrorCode)
  /-- A write of `x` is transferred. -/
  | transfer (x : Side)
  /-- Its handler. -/
  | onWrite (x : Side)
  | writeFails (x : Side) (ec shutdown : ErrorCode)
  /-- `on_read` of `x` gets `n` messages. -/
  | read (x : Side) (n : Nat) (io : ReadIo)
  | readFails (x : Side) (ec : ErrorCode) (io : ReadIo)
  /-- `on_rpc_callback` of a REQUEST: a service is called, or an error sent. -/
  | request (x : Side) (dispatch : Bool)
  /-- `on_rpc_callback` of another message. -/
  | reply (x : Side)
  | doRead (x : Side)
  /-- `CallMethod`, which only the client's stub calls, or the closure of a
      service. -/
  | send (x : Side) (closure : Bool)
  | sessionOver (x : Side)
  /-- `on_read` returns behind it. -/
  | readReturns (x : Side)

/-- What an action comes to, if it can happen. -/
def act (ssl : Bool) (s : Conn) : Action → Option Conn
  | .establish =>
      if s.connecting = true ∧ s.connected = false ∧ s.gone = false then
        some { s with connected := true }
      else none
  | .onConnect ec =>
      if s.connecting = true ∧ s.runs .client = true then some (s.onConnect ssl ec) else none
  | .expire => if s.timer = .running then some { s with timer := .expired } else none
  | .onTimer =>
      if s.runs .client then
        match s.timer with
        | .expired => some { s with timer := .handled, stopped := true, timedOut := true }
        | .cancelled => some { s with timer := .handled }
        | _ => none
      else none
  | .accept io =>
      if s.connected = true ∧ (s.ends .server).isNone then
        match onAccept io with
        | .ok .startSession =>
            some { s with ends := Function.update s.ends .server (some (.started ssl)) }
        | .ok _ => some s
        | .error e => some { s with escaped := some e }
      else none
  | .register =>
      if s.registered then none
      else
        (s.ends .server).map fun e =>
          { s with sessions := true, registered := true, late := e.life.chain.Over }
  | .disconnect => s.at (s.lives .client) .client fun e => some ({ e with shut := true }, none)
  | .exit => if s.Returns ∧ s.gone = false then some { s with gone := true } else none
  | .onHandshake x ec =>
      (s.at (s.runs x) x (End.next ssl (.handle (.onHandshake ec)) id)).map fun s =>
        -- `sslComplete_` calls `connectionCb_`; the server sets none
        if x = .client ∧ ec = 0 then { s with callbacks := s.callbacks + 1 } else s
  | .transfer x =>
      (s.at (s.lives x) x fun e =>
        if e.transferred < e.life.writes then
          some ({ e with transferred := e.transferred + 1 }, none)
        else none).map fun s =>
          { s with flying := Function.update s.flying x.peer (s.flying x.peer + 1) }
  | .onWrite x =>
      s.at (s.runs x) x fun e =>
        if 0 < e.transferred then
          e.next ssl (.handle (.onWrite 0 false 0)) fun e =>
            { e with transferred := e.transferred - 1 }
        else none
  | .writeFails x ec shutdown =>
      s.at (s.runs x) x fun e =>
        if ec ≠ 0 ∧ e.transferred < e.life.writes then
          e.next ssl (.handle (.onWrite ec false shutdown)) fun e => { e with shut := true }
        else none
  | .read x n io =>
      if 0 < n ∧ n ≤ s.flying x then
        (s.at (s.runs x) x
          (End.next ssl (.handle (.onRead 0 io)) fun e => { e with unhandled := n })).map fun s =>
            { s with flying := Function.update s.flying x (s.flying x - n) }
      else none
  | .readFails x ec io =>
      if ec ≠ 0 then
        s.at (s.runs x) x
          (End.next ssl (.handle (.onRead ec io)) fun e => { e with shut := true })
      else none
  | .request x dispatch =>
      -- the client has no `services_`
      if dispatch = true ∧ x = .client then none
      else
        s.at (s.runs x) x fun e =>
          if 0 < e.unhandled then
            e.next ssl (.handle (if dispatch then .dispatch else .reject)) fun e =>
              { e with unhandled := e.unhandled - 1 }
          else none
  | .reply x =>
      s.at (s.runs x) x fun e =>
        if 0 < e.unhandled then some ({ e with unhandled := e.unhandled - 1 }, none) else none
  | .doRead x =>
      s.at (s.runs x) x fun e =>
        if e.unhandled = 0 then e.next ssl (.handle .doRead) id else none
  | .send x closure =>
      if closure = true ∨ x = .client ∧ 0 < s.callbacks then
        s.at (s.lives x) x
          (End.next ssl (.handle (if closure then .doneCallback else .callMethod)) id)
      else none
  | .sessionOver x =>
      (s.at (s.runs x) x (End.next ssl .sessionOver id)).map fun s =>
        match x with
        | .client => { s with stopped := true }
        -- nothing is taken out that is not in
        | .server => { s with sessions := false }
  | .readReturns x => s.at (s.lives x) x (End.next ssl (.handle .readReturns) id)

/-- One step; an exception that escapes ends the run. -/
def step (ssl : Bool) (s : Conn) (a : Action) : Option Conn :=
  if s.escaped = none then act ssl s a else none

/-- **THE CONNECTION**, which does not break by itself: it is established for
    both sides or for none; a handshake takes two, and may fail at any time;
    nothing is transferred behind a shutdown; writes fail behind one, or when
    the client is gone; a read fails when all was read that the peer has sent
    and it has shut down, when the client is gone, or when the peer's
    handshake has failed.  A closure of a service is run while its session has
    an owner. -/
def Intact (s : Conn) : Action → Prop
  | .onConnect ec => ec = 0 ↔ s.connected = true
  | .accept io => io.ec = 0
  | .onHandshake x ec => ec = 0 → (s.ends x.peer).isSome
  | .transfer x => s.shut x = false
  | .writeFails x _ _ => s.shut x = true ∨ x = .server ∧ s.gone = true
  | .readFails x _ _ =>
      (s.shut x.peer = true ∧ s.flying x = 0) ∨ (x = .server ∧ s.gone = true) ∨ s.Failed x.peer
  | .send .server true =>
      s.sessions = true ∨ s.registered = false ∨ ∀ e ∈ s.ends .server, 0 < holders e.life
  | _ => True

instance (s : Conn) (a : Action) : Decidable (Intact s a) :=
  match a with
  | .onConnect _ => inferInstanceAs (Decidable (_ ↔ _))
  | .accept _ => inferInstanceAs (Decidable (_ = _))
  | .onHandshake _ _ => inferInstanceAs (Decidable (_ → _))
  | .transfer _ => inferInstanceAs (Decidable (_ = _))
  | .writeFails _ _ _ => inferInstanceAs (Decidable (_ ∨ _ ∧ _))
  | .readFails _ _ _ => inferInstanceAs (Decidable ((_ ∧ _) ∨ (_ ∧ _) ∨ _))
  | .send .server true => inferInstanceAs (Decidable (_ ∨ _ ∨ ∀ e ∈ s.ends .server, _))
  | .send .server false => isTrue trivial
  | .send .client _ => isTrue trivial
  | .establish => isTrue trivial
  | .expire => isTrue trivial
  | .onTimer => isTrue trivial
  | .register => isTrue trivial
  | .disconnect => isTrue trivial
  | .exit => isTrue trivial
  | .onWrite _ => isTrue trivial
  | .read _ _ _ => isTrue trivial
  | .request _ _ => isTrue trivial
  | .reply _ => isTrue trivial
  | .doRead _ => isTrue trivial
  | .sessionOver _ => isTrue trivial
  | .readReturns _ => isTrue trivial

def Reachable (ssl : Bool) : Conn → Prop := Reaches (step ssl) Intact Conn.connect

/-! ## One end -/

/-- The chain of handlers has come to its last one. -/
def Ending (c : Chain) : Prop := c = .ending ∨ c.Over

/-- The first read has been started. -/
def Begun (c : Chain) : Prop := c ≠ .shaking ∧ c ≠ .dropped

instance (c : Chain) : Decidable (Begun c) := inferInstanceAs (Decidable (_ ∧ _))

/-- A session with its socket. -/
structure EndOk (e : End) : Prop where
  reported : Reported e.peer
  quiet : ¬ Begun e.life.chain → e.life.writes = 0 ∧ e.life.closures = 0
  shut : Ending e.life.chain → e.shut = true
  idle : e.life.chain ≠ .handling → e.unhandled = 0
  transferred : e.transferred ≤ e.life.writes

theorem endOk_started (ssl : Bool) : EndOk (.started ssl) where
  reported := by cases ssl <;> rfl
  quiet := fun _ => ⟨rfl, rfl⟩
  shut := by
    intro h
    cases ssl with
    | true => rcases h with h | h | h <;> cases h
    | false => rcases h with h | h | h <;> cases h
  idle := fun _ => rfl
  transferred := Nat.le_refl 0

section End

variable {ssl : Bool} {e e' : End} {f : End → End} {thrown : Option SystemError}

/-- What a handler does to an end: a move of its session. -/
theorem next_handle {ev : Event} (h : e.next ssl (.handle ev) f = some (e', thrown)) :
    ∃ e₁, e' = f e₁ ∧ Moves e.life ev e₁.life thrown ∧
      (Reported e.peer → Reported e₁.peer) ∧ e₁.shut = e.shut ∧
      e₁.transferred = e.transferred ∧ e₁.unhandled = e.unhandled := by
  obtain ⟨⟨peer, thrown'⟩, hpeer, heq⟩ := Option.map_eq_some_iff.mp h
  obtain ⟨rfl, rfl⟩ := Prod.mk.inj heq
  have hnext : (session ssl).peerNext e.peer (.handle ev) = some peer := by
    rw [SessionProgram.peerNext, hpeer]
    rfl
  exact ⟨{ e with peer := peer }, rfl, moves_of_handle (peerStep_handle hpeer).1,
    fun hreported => hreported.step hnext, rfl, rfl, rfl⟩

theorem next_sessionOver (h : e.next ssl .sessionOver f = some (e', thrown)) :
    ∃ e₁, e' = f e₁ ∧ e.life.chain = .ending ∧ e₁.life = { e.life with chain := .returning } ∧
      (Reported e.peer → Reported e₁.peer) ∧ e₁.shut = e.shut ∧
      e₁.transferred = e.transferred ∧ e₁.unhandled = e.unhandled := by
  obtain ⟨⟨peer, thrown'⟩, hpeer, heq⟩ := Option.map_eq_some_iff.mp h
  obtain ⟨rfl, rfl⟩ := Prod.mk.inj heq
  have hnext : (session ssl).peerNext e.peer .sessionOver = some peer := by
    rw [SessionProgram.peerNext, hpeer]
    rfl
  obtain ⟨hending, hlife⟩ := sessionOver_eq_some (peerStep_sessionOver hpeer).1
  exact ⟨{ e with peer := peer }, rfl, hending, hlife, fun hreported => hreported.step hnext,
    rfl, rfl, rfl⟩

/-- Two places of a chain between which nothing here tells: before its end, and
    behind the call of `sessionOverFunc_`. -/
def Alike (c c' : Chain) : Prop :=
  c' = c ∨ ((c = .waiting ∨ c = .handling) ∧ (c' = .waiting ∨ c' = .handling)) ∨
    c.Over ∧ c'.Over

/-- Neither the chain comes to its end nor the socket to a shutdown. -/
structure GoesOn (e e' : End) : Prop where
  ok : EndOk e'
  chain : Alike e.life.chain e'.life.chain
  shut : e'.shut = e.shut

/-- What is true of a chain at one of two such places is true at the other. -/
theorem Alike.iff {c c' : Chain} (h : Alike c c') {p : Chain → Prop}
    (hlive : p .waiting ↔ p .handling) (hover : p .returning ↔ p .ended) : p c' ↔ p c := by
  rcases h with rfl | ⟨rfl | rfl, rfl | rfl⟩ | ⟨rfl | rfl, rfl | rfl⟩
  · exact Iff.rfl
  · exact Iff.rfl
  · exact hlive.symm
  · exact hlive
  · exact Iff.rfl
  · exact Iff.rfl
  · exact hover.symm
  · exact hover
  · exact Iff.rfl

theorem Alike.over_iff {c c' : Chain} (h : Alike c c') : c'.Over ↔ c.Over :=
  h.iff (p := Chain.Over) (by decide) (by decide)

theorem Alike.ending {c c' : Chain} (h : Alike c c') : Ending c' ↔ Ending c := by
  refine h.iff ?_ ?_
  · simp [Ending, Chain.Over]
  · simp [Ending, Chain.Over]

theorem Alike.begun {c c' : Chain} (h : Alike c c') : Begun c' ↔ Begun c :=
  h.iff (by decide) (by decide)

theorem Alike.dropped {c c' : Chain} (h : Alike c c') : c' = .dropped ↔ c = .dropped :=
  h.iff (p := (· = .dropped)) (by decide) (by decide)

/-- The chain stays where it is. -/
theorem GoesOn.of_chain (h : EndOk e) (hreported : Reported e'.peer)
    (hchain : e'.life.chain = e.life.chain)
    (hquiet : ¬ Begun e.life.chain → e'.life.writes = 0 ∧ e'.life.closures = 0)
    (hshut : e'.shut = e.shut) (hunhandled : e'.unhandled ≤ e.unhandled)
    (hwrites : e'.transferred ≤ e'.life.writes) : GoesOn e e' := by
  refine ⟨⟨hreported, ?_, ?_, ?_, hwrites⟩, .inl hchain, hshut⟩
  · rw [hchain]
    exact hquiet
  · intro hends
    rw [hshut]
    exact h.shut (hchain ▸ hends)
  · intro hnot
    have hzero := h.idle (hchain ▸ hnot)
    omega

/-- Between two places of the chain before its end. -/
theorem GoesOn.of_live (hreported : Reported e'.peer)
    (hchain : e.life.chain = .waiting ∨ e.life.chain = .handling)
    (hchain' : e'.life.chain = .waiting ∧ e'.unhandled = 0 ∨ e'.life.chain = .handling)
    (hshut : e'.shut = e.shut) (hwrites : e'.transferred ≤ e'.life.writes) : GoesOn e e' := by
  have hlive : e'.life.chain = .waiting ∨ e'.life.chain = .handling := hchain'.imp And.left id
  refine ⟨⟨hreported, ?_, ?_, ?_, hwrites⟩, .inr (.inl ⟨hchain, hlive⟩), hshut⟩
  · intro hnot
    rcases hlive with hwaiting | hhandling
    · exact absurd (hwaiting ▸ by decide) hnot
    · exact absurd (hhandling ▸ by decide) hnot
  · intro hends
    rcases hlive with hlive | hlive
    · rw [hlive] at hends
      rcases hends with h | h | h <;> cases h
    · rw [hlive] at hends
      rcases hends with h | h | h <;> cases h
  · intro hnot
    exact hchain'.elim And.right fun hhandling => absurd hhandling hnot

theorem goesOn_transfer (h : EndOk e) (hmore : e.transferred < e.life.writes) :
    GoesOn e { e with transferred := e.transferred + 1 } :=
  .of_chain h h.reported rfl h.quiet rfl (Nat.le_refl _) hmore

theorem goesOn_onWrite (h : EndOk e)
    (hstep : e.next ssl (.handle (.onWrite 0 false 0)) (fun e =>
      { e with transferred := e.transferred - 1 }) = some (e', thrown)) : GoesOn e e' := by
  obtain ⟨e₁, rfl, hmoves, hreported, hshut, htransferred, hunhandled⟩ := next_handle hstep
  have hlife := hmoves.finishes (.inr rfl)
  have hchain : e₁.life.chain = e.life.chain := by rw [hlife]
  have hle := h.transferred
  refine .of_chain h (hreported h.reported) hchain ?_ hshut
    (Nat.le_of_eq hunhandled) ?_
  · intro hnot
    obtain ⟨hwrites, hclosures⟩ := h.quiet hnot
    show e₁.life.writes = 0 ∧ e₁.life.closures = 0
    rw [hlife]
    exact ⟨by rw [hwrites], hclosures⟩
  · show e₁.transferred - 1 ≤ e₁.life.writes
    rw [htransferred, hlife]
    show e.transferred - 1 ≤ e.life.writes - 1
    omega

/-- A write that fails shuts the socket down. -/
theorem ok_writeFails (h : EndOk e) {ec shutdown : ErrorCode} (hec : ec ≠ 0)
    (hmore : e.transferred < e.life.writes)
    (hstep : e.next ssl (.handle (.onWrite ec false shutdown)) (fun e =>
      { e with shut := true }) = some (e', thrown)) :
    EndOk e' ∧ e'.life.chain = e.life.chain ∧ e'.shut = true := by
  obtain ⟨e₁, rfl, hmoves, hreported, -, htransferred, hunhandled⟩ := next_handle hstep
  have hlife := hmoves.finishes (.inl hec)
  have hchain : e₁.life.chain = e.life.chain := by rw [hlife]
  refine ⟨⟨hreported h.reported, ?_, fun _ => rfl, ?_, ?_⟩, hchain, rfl⟩
  · intro hnot
    have hnone := (h.quiet (hchain ▸ hnot)).1
    omega
  · intro hnot
    show e₁.unhandled = 0
    rw [hunhandled]
    exact h.idle fun hhandling => hnot (hchain.trans hhandling)
  · show e₁.transferred ≤ e₁.life.writes
    rw [htransferred, hlife]
    show e.transferred ≤ e.life.writes - 1
    omega

theorem goesOn_read (h : EndOk e) {n : Nat} {io : ReadIo}
    (hstep : e.next ssl (.handle (.onRead 0 io)) (fun e => { e with unhandled := n })
      = some (e', thrown)) : GoesOn e e' := by
  obtain ⟨e₁, rfl, hmoves, hreported, hshut, htransferred, -⟩ := next_handle hstep
  have hmoved : e.life.chain = .waiting ∧ e₁.life = { e.life with chain := .handling } := by
    generalize e₁.life = l at hmoves
    cases hmoves with
    | received here => exact ⟨here, rfl⟩
    | readFailed failed _ => exact absurd rfl failed
  obtain ⟨hwaiting, hlife⟩ := hmoved
  refine .of_live (hreported h.reported) (.inl hwaiting) (.inr (congrArg Life.chain hlife)) hshut ?_
  show e₁.transferred ≤ e₁.life.writes
  rw [htransferred, hlife]
  exact h.transferred

/-- A read that fails is the last of the session. -/
theorem ok_readFails (h : EndOk e) {ec : ErrorCode} {io : ReadIo} (hec : ec ≠ 0)
    (hstep : e.next ssl (.handle (.onRead ec io)) (fun e => { e with shut := true })
      = some (e', thrown)) :
    EndOk e' ∧ e.life.chain = .waiting ∧ e'.life.chain = .ending ∧ e'.shut = true := by
  obtain ⟨e₁, rfl, hmoves, hreported, -, htransferred, hunhandled⟩ := next_handle hstep
  have hmoved : e.life.chain = .waiting ∧ e₁.life = { e.life with chain := .ending } := by
    generalize e₁.life = l at hmoves
    cases hmoves with
    | received _ => exact absurd rfl hec
    | readFailed _ here => exact ⟨here, rfl⟩
  obtain ⟨hwaiting, hlife⟩ := hmoved
  have hending : e₁.life.chain = .ending := congrArg Life.chain hlife
  refine ⟨⟨hreported h.reported, ?_, fun _ => rfl, fun _ => ?_, ?_⟩, hwaiting, hending, rfl⟩
  · intro hnot
    exact absurd (show Begun e₁.life.chain from hending ▸ by decide) hnot
  · show e₁.unhandled = 0
    rw [hunhandled]
    exact h.idle (hwaiting ▸ Chain.noConfusion)
  · show e₁.transferred ≤ e₁.life.writes
    rw [htransferred, hlife]
    exact h.transferred

theorem goesOn_request (h : EndOk e) {dispatch : Bool}
    (hstep : e.next ssl (.handle (if dispatch then .dispatch else .reject)) (fun e =>
      { e with unhandled := e.unhandled - 1 }) = some (e', thrown)) : GoesOn e e' := by
  obtain ⟨e₁, rfl, hmoves, hreported, hshut, htransferred, hunhandled⟩ := next_handle hstep
  have hmoved : e.life.chain = .handling ∧ e₁.life.chain = e.life.chain ∧
      e.life.writes ≤ e₁.life.writes := by
    generalize e₁.life = l at hmoves
    cases dispatch with
    | true =>
        cases hmoves with
        | dispatched here => exact ⟨here, rfl, Nat.le_refl _⟩
    | false =>
        cases hmoves with
        | rejected here => exact ⟨here, rfl, Nat.le_succ _⟩
  obtain ⟨hhandling, hchain, hwrites⟩ := hmoved
  refine .of_chain h (hreported h.reported) hchain ?_ hshut ?_ ?_
  · intro hnot
    exact absurd (hhandling ▸ by decide) hnot
  · exact Nat.le_trans (Nat.sub_le _ _) (Nat.le_of_eq hunhandled)
  · exact Nat.le_trans (Nat.le_of_eq htransferred) (Nat.le_trans h.transferred hwrites)

theorem goesOn_doRead (h : EndOk e) (hnone : e.unhandled = 0)
    (hstep : e.next ssl (.handle .doRead) id = some (e', thrown)) : GoesOn e e' := by
  obtain ⟨_, rfl, hmoves, hreported, hshut, htransferred, hunhandled⟩ := next_handle hstep
  have hmoved : e.life.chain = .handling ∧ e'.life = { e.life with chain := .waiting } := by
    generalize e'.life = l at hmoves
    cases hmoves with
    | reading here => exact ⟨here, rfl⟩
  obtain ⟨hhandling, hlife⟩ := hmoved
  refine .of_live (hreported h.reported) (.inr hhandling)
    (.inl ⟨congrArg Life.chain hlife, hunhandled.trans hnone⟩) hshut ?_
  show e'.transferred ≤ e'.life.writes
  rw [htransferred, hlife]
  exact h.transferred

theorem goesOn_send (h : EndOk e) {closure : Bool}
    (hbegun : closure = false → Begun e.life.chain)
    (hstep : e.next ssl (.handle (if closure then .doneCallback else .callMethod)) id
      = some (e', thrown)) : GoesOn e e' := by
  obtain ⟨_, rfl, hmoves, hreported, hshut, htransferred, hunhandled⟩ := next_handle hstep
  have hmoved : Begun e.life.chain ∧ e'.life.chain = e.life.chain ∧
      e.life.writes ≤ e'.life.writes := by
    generalize e'.life = l at hmoves
    cases closure with
    | true =>
        cases hmoves with
        | answered pending =>
            -- nothing was dispatched before the first read
            refine ⟨by_contra fun hnot => ?_, rfl, Nat.le_succ _⟩
            exact Nat.ne_of_gt pending (h.quiet hnot).2
    | false =>
        cases hmoves with
        | called => exact ⟨hbegun rfl, rfl, Nat.le_succ _⟩
  obtain ⟨hbegun', hchain, hwrites⟩ := hmoved
  refine .of_chain h (hreported h.reported) hchain (fun hnot => absurd hbegun' hnot) hshut
    (Nat.le_of_eq hunhandled) ?_
  exact Nat.le_trans (Nat.le_of_eq htransferred) (Nat.le_trans h.transferred hwrites)

theorem goesOn_readReturns (h : EndOk e)
    (hstep : e.next ssl (.handle .readReturns) id = some (e', thrown)) : GoesOn e e' := by
  obtain ⟨_, rfl, hmoves, hreported, hshut, htransferred, hunhandled⟩ := next_handle hstep
  have hreturning : e.life.chain = .returning := by
    generalize e'.life = l at hmoves
    cases hmoves with
    | returned here => exact here
  have hlife := hmoves.returns
  have hended : e'.life.chain = .ended := by rw [hlife]
  refine ⟨⟨hreported h.reported, ?_, fun _ => ?_, fun _ => ?_, ?_⟩, .inr (.inr ⟨?_, ?_⟩), hshut⟩
  · intro hnot
    exact absurd (show Begun e'.life.chain from hended ▸ by decide) hnot
  · exact hshut.trans (h.shut (.inr (.inl hreturning)))
  · exact hunhandled.trans (h.idle (hreturning ▸ Chain.noConfusion))
  · show e'.transferred ≤ e'.life.writes
    rw [htransferred, hlife]
    exact h.transferred
  · exact .inl hreturning
  · exact .inr hended

theorem ok_sessionOver (h : EndOk e) (hstep : e.next ssl .sessionOver id = some (e', thrown)) :
    EndOk e' ∧ e.life.chain = .ending ∧ e'.life.chain = .returning ∧ e'.shut = e.shut := by
  obtain ⟨_, rfl, hending, hlife, hreported, hshut, htransferred, hunhandled⟩ :=
    next_sessionOver hstep
  have hover : e'.life.chain = .returning := congrArg Life.chain hlife
  refine ⟨⟨hreported h.reported, ?_, fun _ => ?_, fun _ => ?_, ?_⟩, hending, hover, hshut⟩
  · intro hnot
    exact absurd (show Begun e'.life.chain from hover ▸ by decide) hnot
  · exact hshut.trans (h.shut (.inl hending))
  · exact hunhandled.trans (h.idle (hending ▸ Chain.noConfusion))
  · show e'.transferred ≤ e'.life.writes
    rw [htransferred, hlife]
    exact h.transferred

/-- A handshake that completes starts the first read, and one that fails gives
    the session up. -/
theorem ok_onHandshake (h : EndOk e) {ec : ErrorCode}
    (hstep : e.next ssl (.handle (.onHandshake ec)) id = some (e', thrown)) :
    EndOk e' ∧ e.life.chain = .shaking ∧
      e'.life.chain = (if ec = 0 then .waiting else .dropped) ∧ e'.shut = e.shut := by
  obtain ⟨_, rfl, hmoves, hreported, hshut, htransferred, hunhandled⟩ := next_handle hstep
  have hmoved : e.life.chain = .shaking ∧
      e'.life = { e.life with chain := if ec = 0 then .waiting else .dropped } := by
    generalize e'.life = l at hmoves
    cases hmoves with
    | shaken here => exact ⟨here, rfl⟩
    | refused failed here => exact ⟨here, by rw [if_neg failed]⟩
  obtain ⟨hshaking, hlife⟩ := hmoved
  have hchain : e'.life.chain = if ec = 0 then .waiting else .dropped := congrArg Life.chain hlife
  have hquiet := h.quiet (hshaking ▸ by decide)
  refine ⟨⟨hreported h.reported, fun _ => ?_, fun hends => ?_, fun _ => ?_, ?_⟩, hshaking, hchain,
    hshut⟩
  · show e'.life.writes = 0 ∧ e'.life.closures = 0
    rw [hlife]
    exact hquiet
  · have hends : Ending e'.life.chain := hends
    rw [hchain] at hends
    split at hends
    · rcases hends with h | h | h <;> cases h
    · rcases hends with h | h | h <;> cases h
  · exact hunhandled.trans (h.idle (hshaking ▸ Chain.noConfusion))
  · show e'.transferred ≤ e'.life.writes
    rw [htransferred, hlife]
    exact h.transferred

end End

/-! ## Every step -/

/-- The server's session is in `sessions_` from when `on_accept` has put it in
    until it is over, or for good if it was over before. -/
structure Listing (sessions registered late : Bool) (server : Option End) : Prop where
  started : registered = true → server.isSome
  early : late = true → ∃ e, server = some e ∧ e.life.chain.Over
  listed : sessions = true ↔
    registered = true ∧ (late = true ∨ ∃ e, server = some e ∧ ¬ e.life.chain.Over)

section Listing

variable {sessions registered late : Bool} {e e' : End}

theorem Listing.of_over_iff (h : Listing sessions registered late (some e))
    (hover : e'.life.chain.Over ↔ e.life.chain.Over) :
    Listing sessions registered late (some e') where
  started := fun _ => rfl
  early := by
    intro hlate
    obtain ⟨e₁, he₁, hchain⟩ := h.early hlate
    rw [← Option.some.inj he₁] at hchain
    exact ⟨e', rfl, hover.mpr hchain⟩
  listed := by
    rw [h.listed]
    simp only [Option.some.injEq, exists_eq_left', hover]

theorem Listing.accept (h : Listing sessions registered late none) (ssl : Bool) :
    Listing sessions registered late (some (.started ssl)) := by
  have hregistered : registered = false := Bool.eq_false_iff.mpr fun htrue => by
    cases h.started htrue
  refine ⟨fun _ => rfl, fun hlate => ?_, ?_⟩
  · obtain ⟨e, he, -⟩ := h.early hlate
    cases he
  · rw [h.listed, hregistered]
    exact iff_of_false (fun hboth => Bool.false_ne_true hboth.1) fun hboth =>
      Bool.false_ne_true hboth.1

theorem listing_register (e : End) :
    Listing true true (decide e.life.chain.Over) (some e) where
  started := fun _ => rfl
  early := fun hlate => ⟨e, rfl, of_decide_eq_true hlate⟩
  listed := by
    simp only [Option.some.injEq, exists_eq_left', decide_eq_true_eq, true_iff, true_and]
    exact Classical.em _

theorem Listing.sessionOver (h : Listing sessions registered late (some e))
    (hbefore : ¬ e.life.chain.Over) (hover : e'.life.chain.Over) :
    Listing false registered late (some e') := by
  have hlate : late = false := by
    refine Bool.eq_false_iff.mpr fun hlate => ?_
    obtain ⟨e₁, he₁, hchain⟩ := h.early hlate
    rw [← Option.some.inj he₁] at hchain
    exact hbefore hchain
  refine ⟨fun _ => rfl, fun _ => ⟨e', rfl, hover⟩, ?_⟩
  simp only [hlate, Option.some.injEq, exists_eq_left', hover, not_true_eq_false,
    Bool.false_eq_true, or_self, and_false]

end Listing

/-- How often `connectionCb_` is called for a session. -/
def begun : Option End → Nat
  | some e => if Begun e.life.chain then 1 else 0
  | none => 0

/-- The time was not out, and the client's handshake has not failed. -/
def Conn.Regular (s : Conn) : Prop := s.timedOut = false ∧ ¬ s.Failed .client

/-- **WHAT HOLDS ALL ALONG**: the client's session is made by `on_connect`,
    which stops the time; `connectionCb_` is called when its first read is
    started; the server's is in `sessions_` until it is over; the `io_context`
    is stopped by the end of the session or the end of the time.  When nothing
    of the client's has failed, the server's session ends when it has got all
    that the client sent before it shut down, and the client's after the
    server's. -/
structure Ok (ssl : Bool) (s : Conn) : Prop where
  ends : ∀ x e, s.ends x = some e → EndOk e
  plain : ssl = false → ∀ x e, s.ends x = some e → Begun e.life.chain
  connecting : s.connecting = true → s.ends .client = none
  callbacks : s.callbacks = begun (s.ends .client)
  connected : ∀ x e, s.ends x = some e → s.connected = true
  refused : s.connecting = false → s.ends .client = none → s.connected = false
  timer : s.connecting = false → s.timer ≠ .running
  listing : Listing s.sessions s.registered s.late (s.ends .server)
  stops : s.stopped = true ↔
    s.timedOut = true ∨ ∃ e, s.ends .client = some e ∧ e.life.chain.Over
  gone : s.gone = true → s.Returns
  heard : s.Regular → ∀ e, s.ends .server = some e → e.shut = true →
    Ending e.life.chain ∧ s.shut .client = true ∧ s.flying .server = 0
  follows : s.Regular → ∀ e, s.ends .client = some e → Ending e.life.chain →
    s.shut .server = true ∨ s.Failed .server

section Steps

variable {ssl : Bool} {s s' : Conn} {x : Side}

theorem shut_client {e : End} (he : s.ends .client = some e) :
    s.shut .client = (s.gone || e.shut) := by
  rw [Conn.shut, he]
  rfl

theorem shut_server {e : End} (he : s.ends .server = some e) : s.shut .server = e.shut := by
  rw [Conn.shut, he]
  rfl

theorem failed_iff {e : End} (he : s.ends x = some e) :
    s.Failed x ↔ e.life.chain = .dropped := by
  rw [Conn.Failed, he]
  simp only [Option.mem_def, Option.some.injEq, exists_eq_left']

theorem at_some {may : Bool} {f : End → Option (End × Option SystemError)}
    (h : s.at may x f = some s') :
    may = true ∧ ∃ e e' thrown, s.ends x = some e ∧ f e = some (e', thrown) ∧
      s' = { s with ends := Function.update s.ends x (some e'), escaped := thrown } := by
  rw [Conn.at] at h
  obtain ⟨hmay, h⟩ := Option.ite_none_right_eq_some.mp h
  refine ⟨hmay, ?_⟩
  cases he : s.ends x with
  | none =>
      rw [he] at h
      cases h
  | some e =>
      simp only [he] at h
      obtain ⟨⟨e', thrown⟩, hf, rfl⟩ := Option.map_eq_some_iff.mp h
      exact ⟨e, e', thrown, rfl, hf, rfl⟩

theorem gone_of_lives (h : s.lives x = true) (hx : x = .client) : s.gone = false := by
  subst hx
  exact (Bool.not_eq_true' _).mp h

theorem gone_of_runs (h : s.runs x = true) (hx : x = .client) :
    s.gone = false ∧ s.stopped = false := by
  subst hx
  obtain ⟨hgone, hstopped⟩ := (Bool.and_eq_true _ _).mp h
  exact ⟨(Bool.not_eq_true' _).mp hgone, (Bool.not_eq_true' _).mp hstopped⟩

/-- The client's end is another. -/
theorem Ok.client (h : Ok ssl s) (hlive : s.gone = false) {e e' : End}
    (he : s.ends .client = some e) (hok : EndOk e')
    (hplain : ssl = false → Begun e'.life.chain)
    {callbacks : Nat} (hcallbacks : callbacks = begun (some e'))
    {stopped : Bool} (hstops : stopped = true ↔ s.timedOut = true ∨ e'.life.chain.Over)
    (hshut : e.shut = true → e'.shut = true)
    (hdropped : e.life.chain = .dropped → e'.life.chain = .dropped)
    (hfollows : s.Regular → Ending e'.life.chain → s.shut .server = true ∨ s.Failed .server)
    {flying : Side → Nat} (hflying : s.shut .client = true → flying .server ≤ s.flying .server)
    {escaped : Option SystemError} :
    Ok ssl { s with
      ends := Function.update s.ends .client (some e')
      callbacks := callbacks
      stopped := stopped
      flying := flying
      escaped := escaped } := by
  let t : Conn := { s with
    ends := Function.update s.ends .client (some e')
    callbacks := callbacks
    stopped := stopped
    flying := flying
    escaped := escaped }
  have hserver : t.ends .server = s.ends .server := by
    show Function.update s.ends .client (some e') .server = _
    exact Function.update_of_ne Side.noConfusion _ _
  have hclient : t.ends .client = some e' := by
    show Function.update s.ends .client (some e') .client = _
    exact Function.update_self _ _ _
  have hregular : t.Regular → s.Regular := by
    rintro ⟨htime, hfine⟩
    exact ⟨htime, fun hfailed =>
      hfine ((failed_iff hclient).mpr (hdropped ((failed_iff he).mp hfailed)))⟩
  have hends : ∀ x e, t.ends x = some e → e = e' ∨ s.ends x = some e := by
    intro x e₁ he₁
    cases x with
    | client => exact .inl (Option.some.inj (hclient.symm.trans he₁)).symm
    | server => exact .inr (hserver.symm.trans he₁)
  refine ⟨?_, ?_, ?_, ?_, ?_, ?_, h.timer, ?_, ?_, ?_, ?_, ?_⟩
  · intro x e₁ he₁
    rcases hends x e₁ he₁ with rfl | hold
    · exact hok
    · exact h.ends x e₁ hold
  · intro hssl x e₁ he₁
    rcases hends x e₁ he₁ with rfl | hold
    · exact hplain hssl
    · exact h.plain hssl x e₁ hold
  · intro hconnecting
    cases (h.connecting hconnecting).symm.trans he
  · exact hcallbacks.trans (congrArg begun hclient.symm)
  · intro _ _ _
    exact h.connected .client e he
  · intro _ hnone
    cases hclient.symm.trans hnone
  · show Listing s.sessions s.registered s.late (t.ends .server)
    rw [hserver]
    exact h.listing
  · show stopped = true ↔ s.timedOut = true ∨ ∃ e, t.ends .client = some e ∧ _
    rw [hstops, hclient]
    simp only [Option.some.injEq, exists_eq_left']
  · intro hgone
    cases hlive.symm.trans hgone
  · intro hreg e₁ he₁ hshut₁
    obtain ⟨hending, hclientShut, hnone⟩ :=
      h.heard (hregular hreg) e₁ (hserver.symm.trans he₁) hshut₁
    refine ⟨hending, ?_, Nat.le_zero.mp (hnone ▸ hflying hclientShut)⟩
    rw [shut_client he, hlive, Bool.false_or] at hclientShut
    show t.shut .client = true
    rw [shut_client hclient, hshut hclientShut, Bool.or_true]
  · intro hreg e₁ he₁ hending
    rw [← Option.some.inj (hclient.symm.trans he₁)] at hending
    have hpeer := hfollows (hregular hreg) hending
    rwa [show s.shut .server = t.shut .server by rw [Conn.shut, Conn.shut, hserver],
      show s.Failed .server = t.Failed .server by rw [Conn.Failed, Conn.Failed, hserver]] at hpeer

/-- The server's end is another. -/
theorem Ok.server (h : Ok ssl s) {e e' : End} (he : s.ends .server = some e) (hok : EndOk e')
    (hplain : ssl = false → Begun e'.life.chain)
    {sessions : Bool} (hlisting : Listing sessions s.registered s.late (some e'))
    (hshut : e.shut = true → e'.shut = true)
    (hdropped : e.life.chain = .dropped → e'.life.chain = .dropped)
    {flying : Side → Nat}
    (hheard : s.Regular → e'.shut = true →
      Ending e'.life.chain ∧ s.shut .client = true ∧ flying .server = 0)
    {escaped : Option SystemError} :
    Ok ssl { s with
      ends := Function.update s.ends .server (some e')
      sessions := sessions
      flying := flying
      escaped := escaped } := by
  let t : Conn := { s with
    ends := Function.update s.ends .server (some e')
    sessions := sessions
    flying := flying
    escaped := escaped }
  have hserver : t.ends .server = some e' := by
    show Function.update s.ends .server (some e') .server = _
    exact Function.update_self _ _ _
  have hclient : t.ends .client = s.ends .client := by
    show Function.update s.ends .server (some e') .client = _
    exact Function.update_of_ne Side.noConfusion _ _
  have hregular : t.Regular → s.Regular := by
    intro hreg
    rwa [Conn.Regular, show t.Failed .client = s.Failed .client by
      rw [Conn.Failed, Conn.Failed, hclient]] at hreg
  have hclientShut : t.shut .client = s.shut .client := by rw [Conn.shut, Conn.shut, hclient]
  have hends : ∀ x e, t.ends x = some e → e = e' ∨ s.ends x = some e := by
    intro x e₁ he₁
    cases x with
    | client => exact .inr (hclient.symm.trans he₁)
    | server => exact .inl (Option.some.inj (hserver.symm.trans he₁)).symm
  refine ⟨?_, ?_, ?_, ?_, ?_, ?_, h.timer, ?_, ?_, ?_, ?_, ?_⟩
  · intro x e₁ he₁
    rcases hends x e₁ he₁ with rfl | hold
    · exact hok
    · exact h.ends x e₁ hold
  · intro hssl x e₁ he₁
    rcases hends x e₁ he₁ with rfl | hold
    · exact hplain hssl
    · exact h.plain hssl x e₁ hold
  · intro hconnecting
    exact hclient.trans (h.connecting hconnecting)
  · exact h.callbacks.trans (congrArg begun hclient.symm)
  · intro _ _ _
    exact h.connected .server e he
  · intro hconnecting hnone
    exact h.refused hconnecting (hclient.symm.trans hnone)
  · show Listing sessions s.registered s.late (t.ends .server)
    rw [hserver]
    exact hlisting
  · show s.stopped = true ↔ s.timedOut = true ∨ ∃ e, t.ends .client = some e ∧ _
    rw [hclient]
    exact h.stops
  · intro hgone
    have hreturns := h.gone hgone
    rwa [Conn.Returns, ← hclient] at hreturns
  · intro hreg e₁ he₁ hshut₁
    rw [← Option.some.inj (hserver.symm.trans he₁)] at hshut₁ ⊢
    obtain ⟨hending, hclient', hnone⟩ := hheard (hregular hreg) hshut₁
    exact ⟨hending, hclientShut.trans hclient', hnone⟩
  · intro hreg e₁ he₁ hending
    rcases h.follows (hregular hreg) e₁ (hclient.symm.trans he₁) hending with hold | hold
    · refine .inl ((shut_server hserver).trans (hshut ?_))
      rwa [shut_server he] at hold
    · exact .inr ((failed_iff hserver).mpr (hdropped ((failed_iff he).mp hold)))

theorem Ok.stopped_iff (h : Ok ssl s) {e : End} (he : s.ends .client = some e) :
    s.stopped = true ↔ s.timedOut = true ∨ e.life.chain.Over := by
  rw [h.stops, he]
  simp only [Option.some.injEq, exists_eq_left']

/-- A step between two places of a chain, with what it puts on the way or
    takes. -/
theorem Ok.goesOn (h : Ok ssl s) (hlive : x = .client → s.gone = false) {e e' : End}
    (he : s.ends x = some e) (hgoes : GoesOn e e') {flying : Side → Nat}
    (hflying : s.shut .client = true → flying .server ≤ s.flying .server)
    {escaped : Option SystemError} :
    Ok ssl { s with
      ends := Function.update s.ends x (some e')
      flying := flying
      escaped := escaped } := by
  have hplain : ssl = false → Begun e'.life.chain := fun hssl =>
    hgoes.chain.begun.mpr (h.plain hssl x e he)
  cases x with
  | client =>
      refine h.client (hlive rfl) he hgoes.ok hplain ?_ ?_ (fun hshut => hgoes.shut.trans hshut)
        hgoes.chain.dropped.mpr ?_ hflying
      · rw [h.callbacks, he]
        simp only [begun, hgoes.chain.begun]
      · rw [h.stopped_iff he, hgoes.chain.over_iff]
      · intro hreg hending
        exact h.follows hreg e he (hgoes.chain.ending.mp hending)
  | server =>
      refine h.server he hgoes.ok hplain ((he ▸ h.listing).of_over_iff hgoes.chain.over_iff)
        (fun hshut => hgoes.shut.trans hshut) hgoes.chain.dropped.mpr ?_
      intro hreg hshut
      obtain ⟨hending, hclientShut, hnone⟩ := h.heard hreg e he (hgoes.shut.symm.trans hshut)
      exact ⟨hgoes.chain.ending.mpr hending, hclientShut,
        Nat.le_zero.mp (hnone ▸ hflying hclientShut)⟩

/-- A session that goes on. -/
theorem Ok.at_goesOn (h : Ok ssl s) {may : Bool} {f : End → Option (End × Option SystemError)}
    (hlive : may = true → x = .client → s.gone = false)
    (hf : ∀ e e' thrown, s.ends x = some e → f e = some (e', thrown) → GoesOn e e')
    (hstep : s.at may x f = some s') : Ok ssl s' := by
  obtain ⟨hmay, e, e', thrown, he, he', rfl⟩ := at_some hstep
  exact h.goesOn (hlive hmay) he (hf e e' thrown he he') fun _ => Nat.le_refl _

theorem runs_live : s.runs x = true → x = .client → s.gone = false :=
  fun hruns hx => (gone_of_runs hruns hx).1

/-! ### The client -/

theorem cancel_ne_running (timer : Timer) : timer.cancel ≠ .running := by
  cases timer <;> exact Timer.noConfusion

theorem Ok.onConnect (h : Ok ssl s) (hconnecting : s.connecting = true) (hlive : s.gone = false)
    {ec : ErrorCode} (hrule : ec = 0 ↔ s.connected = true) : Ok ssl (s.onConnect ssl ec) := by
  have hnone := h.connecting hconnecting
  rw [Conn.onConnect]
  split
  · next hec =>
      exact { h with
        connecting := nofun
        refused := fun _ _ => Bool.eq_false_iff.mpr fun hconnected => hec (hrule.mpr hconnected)
        timer := fun _ => cancel_ne_running _
        gone := fun hgone => nomatch hlive.symm.trans hgone }
  · next hec =>
      have hconnected := hrule.mp (not_not.mp hec)
      let t : Conn := { s with
        connecting := false
        timer := s.timer.cancel
        ends := Function.update s.ends .client (some (.started ssl))
        callbacks := if ssl then s.callbacks else s.callbacks + 1 }
      have hclient : t.ends .client = some (.started ssl) := by
        show Function.update s.ends .client (some (.started ssl)) .client = _
        exact Function.update_self _ _ _
      have hserver : t.ends .server = s.ends .server := by
        show Function.update s.ends .client (some (.started ssl)) .server = _
        exact Function.update_of_ne Side.noConfusion _ _
      have hends : ∀ x e, t.ends x = some e → e = .started ssl ∨ s.ends x = some e := by
        intro x e₁ he₁
        cases x with
        | client => exact .inl (Option.some.inj (hclient.symm.trans he₁)).symm
        | server => exact .inr (hserver.symm.trans he₁)
      have hstops := h.stops
      have hcallbacks := h.callbacks
      rw [hnone] at hstops hcallbacks
      have hregular : t.Regular → s.Regular := fun hreg =>
        ⟨hreg.1, fun ⟨e, he, _⟩ => nomatch hnone.symm.trans he⟩
      refine ⟨?_, ?_, nofun, ?_, fun _ _ _ => hconnected, ?_, fun _ => cancel_ne_running _, ?_, ?_,
        fun hgone => (nomatch hlive.symm.trans hgone), ?_, ?_⟩
      · intro x e he
        rcases hends x e he with rfl | hold
        · exact endOk_started ssl
        · exact h.ends x e hold
      · intro hssl x e he
        rcases hends x e he with rfl | hold
        · subst hssl
          exact ⟨Chain.noConfusion, Chain.noConfusion⟩
        · exact h.plain hssl x e hold
      · show (if ssl then s.callbacks else s.callbacks + 1) = begun (t.ends .client)
        rw [hclient, hcallbacks]
        cases ssl <;> rfl
      · intro _ hnone'
        cases hclient.symm.trans hnone'
      · show Listing s.sessions s.registered s.late (t.ends .server)
        rw [hserver]
        exact h.listing
      · show s.stopped = true ↔ s.timedOut = true ∨ ∃ e, t.ends .client = some e ∧ _
        rw [hstops, hclient]
        refine or_congr_right (iff_of_false ?_ ?_)
        · rintro ⟨e, he, -⟩
          cases he
        · rintro ⟨e, he, hover⟩
          rw [← Option.some.inj he] at hover
          cases ssl <;> rcases hover with hover | hover <;> cases hover
      · intro hreg e he hshut
        -- no client had shut down that was not there
        obtain ⟨-, hclientShut, -⟩ := h.heard (hregular hreg) e (hserver.symm.trans he) hshut
        rw [Conn.shut, hlive, hnone] at hclientShut
        cases hclientShut
      · intro _ e he hending
        rw [← Option.some.inj (hclient.symm.trans he)] at hending
        cases ssl <;> rcases hending with hending | hending | hending <;> cases hending

theorem Ok.onTimer (h : Ok ssl s) (hstep : act ssl s .onTimer = some s') : Ok ssl s' := by
  obtain ⟨hruns, heq⟩ := Option.ite_none_right_eq_some.mp hstep
  have hlive := runs_live hruns rfl
  split at heq
  · rw [← Option.some.inj heq]
    exact { h with
      timer := fun _ => Timer.noConfusion
      stops := iff_of_true rfl (.inl rfl)
      gone := fun hgone => nomatch hlive.symm.trans hgone
      heard := fun hreg => nomatch hreg.1
      follows := fun hreg => nomatch hreg.1 }
  · rw [← Option.some.inj heq]
    exact { h with
      timer := fun _ => Timer.noConfusion
      gone := fun hgone => nomatch hlive.symm.trans hgone }
  · cases heq

/-- `run` returns, and the client's socket is closed. -/
theorem Ok.exit (h : Ok ssl s) (hreturns : s.Returns) : Ok ssl { s with gone := true } := by
  exact { h with
    gone := fun _ => hreturns
    heard := fun hreg e he hshut => by
      obtain ⟨hending, -, hnone⟩ := h.heard hreg e he hshut
      exact ⟨hending, rfl, hnone⟩ }

theorem Ok.disconnect (h : Ok ssl s) (hstep : act ssl s .disconnect = some s') : Ok ssl s' := by
  obtain ⟨hlives, e, e', thrown, he, heq, rfl⟩ := at_some hstep
  obtain ⟨rfl, rfl⟩ := Prod.mk.inj (Option.some.inj heq)
  have hold := h.ends .client e he
  have hok : EndOk { e with shut := true } :=
    ⟨hold.reported, hold.quiet, fun _ => rfl, hold.idle, hold.transferred⟩
  have hcallbacks := h.callbacks
  have hstops := h.stopped_iff he
  rw [he] at hcallbacks
  exact h.client (gone_of_lives hlives rfl) he hok (fun hssl => h.plain hssl .client e he)
    hcallbacks hstops (fun _ => rfl) id (fun hreg => h.follows hreg e he) fun _ => Nat.le_refl _

/-! ### The server -/

theorem Ok.accept (h : Ok ssl s) (hconnected : s.connected = true)
    (hnone : s.ends .server = none) :
    Ok ssl { s with ends := Function.update s.ends .server (some (.started ssl)) } := by
  let t : Conn := { s with ends := Function.update s.ends .server (some (.started ssl)) }
  have hclient : t.ends .client = s.ends .client := by
    show Function.update s.ends .server (some (.started ssl)) .client = _
    exact Function.update_of_ne Side.noConfusion _ _
  have hserver : t.ends .server = some (.started ssl) := by
    show Function.update s.ends .server (some (.started ssl)) .server = _
    exact Function.update_self _ _ _
  have hends : ∀ x e, t.ends x = some e → e = .started ssl ∨ s.ends x = some e := by
    intro x e₁ he₁
    cases x with
    | client => exact .inr (hclient.symm.trans he₁)
    | server => exact .inl (Option.some.inj (hserver.symm.trans he₁)).symm
  have hregular : t.Regular → s.Regular := by
    intro hreg
    rwa [Conn.Regular, show t.Failed .client = s.Failed .client by
      rw [Conn.Failed, Conn.Failed, hclient]] at hreg
  refine ⟨?_, ?_, ?_, ?_, fun _ _ _ => hconnected, ?_, h.timer, ?_, ?_, ?_, ?_, ?_⟩
  · intro x e he
    rcases hends x e he with rfl | hold
    · exact endOk_started ssl
    · exact h.ends x e hold
  · intro hssl x e he
    rcases hends x e he with rfl | hold
    · subst hssl
      exact ⟨Chain.noConfusion, Chain.noConfusion⟩
    · exact h.plain hssl x e hold
  · intro hconnecting
    exact hclient.trans (h.connecting hconnecting)
  · exact h.callbacks.trans (congrArg begun hclient.symm)
  · intro hconnecting hnone'
    exact h.refused hconnecting (hclient.symm.trans hnone')
  · show Listing s.sessions s.registered s.late (t.ends .server)
    rw [hserver]
    exact (hnone ▸ h.listing).accept ssl
  · show s.stopped = true ↔ s.timedOut = true ∨ ∃ e, t.ends .client = some e ∧ _
    rw [hclient]
    exact h.stops
  · intro hgone
    have hreturns := h.gone hgone
    rwa [Conn.Returns, ← hclient] at hreturns
  · intro _ e he hshut
    rw [← Option.some.inj (hserver.symm.trans he)] at hshut
    cases hshut
  · intro hreg e he hending
    -- a client's session does not end before the server has accepted
    rcases h.follows (hregular hreg) e (hclient.symm.trans he) hending with hshut | ⟨e₁, he₁, -⟩
    · rw [Conn.shut, hnone] at hshut
      cases hshut
    · cases hnone.symm.trans he₁

theorem Ok.register (h : Ok ssl s) {e : End} (he : s.ends .server = some e) :
    Ok ssl { s with sessions := true, registered := true, late := e.life.chain.Over } := by
  have hlisting : Listing true true (decide e.life.chain.Over) (s.ends .server) := by
    rw [he]
    exact listing_register e
  exact { h with listing := hlisting }

/-- When the client is gone, and nothing of it has failed, the server's session
    has come to its end before it. -/
theorem Ok.server_of_gone (h : Ok ssl s) (hreg : s.Regular) (hgone : s.gone = true) {e : End}
    (he : s.ends .server = some e) : e.life.chain = .dropped ∨ e.shut = true := by
  have hover : ∃ ec, s.ends .client = some ec ∧ ec.life.chain.Over := by
    rcases (h.gone hgone).2 with hstopped | ⟨hconnecting, -, hidle⟩
    · exact (h.stops.mp hstopped).resolve_left (Bool.eq_false_iff.mp hreg.1)
    · cases hclient : s.ends .client with
      | none =>
          have hrefused := h.refused hconnecting hclient
          cases hrefused.symm.trans (h.connected .server e he)
      | some ec =>
          refine ⟨ec, rfl, ?_⟩
          rcases chain_of_idle (hidle ec hclient) with hended | hdropped
          · exact .inr hended
          · exact absurd ((failed_iff hclient).mpr hdropped) hreg.2
  obtain ⟨ec, hec, hover⟩ := hover
  rcases h.follows hreg ec hec (.inr hover) with hshut | hfailed
  · exact .inr ((shut_server he).symm.trans hshut)
  · exact .inl ((failed_iff he).mp hfailed)

/-! ### Both -/

/-- A handshake completes, or fails. -/
theorem Ok.onHandshake (h : Ok ssl s) {ec : ErrorCode}
    (hstep : act ssl s (.onHandshake x ec) = some s') : Ok ssl s' := by
  obtain ⟨s₁, hat, rfl⟩ := Option.map_eq_some_iff.mp hstep
  obtain ⟨hruns, e, e', thrown, he, he', rfl⟩ := at_some hat
  obtain ⟨hok, hshaking, hchain, hshut⟩ := ok_onHandshake (h.ends x e he) he'
  have hssl : ssl = false → Begun e'.life.chain := fun hssl =>
    absurd hshaking (h.plain hssl x e he).1
  have hnever : ¬ Ending e'.life.chain := by
    rw [hchain]
    split
    · rintro (hend | hend | hend) <;> cases hend
    · rintro (hend | hend | hend) <;> cases hend
  have hbefore : ¬ Ending e.life.chain := by
    rw [hshaking]
    rintro (hend | hend | hend) <;> cases hend
  have hover : e'.life.chain.Over ↔ e.life.chain.Over :=
    iff_of_false (fun hover => hnever (.inr hover)) fun hover => hbefore (.inr hover)
  have hdropped : e.life.chain = .dropped → e'.life.chain = .dropped := fun hold =>
    Chain.noConfusion (hshaking.symm.trans hold)
  cases x with
  | client =>
      have hcallbacks := h.callbacks
      rw [he, begun, hshaking] at hcallbacks
      have hstops : s.stopped = true ↔ s.timedOut = true ∨ e'.life.chain.Over := by
        rw [h.stopped_iff he, hover]
      by_cases hec : ec = 0
      · rw [if_pos ⟨rfl, hec⟩]
        refine h.client (runs_live hruns rfl) he hok hssl ?_ hstops
          (fun hold => hshut.trans hold) hdropped (fun _ hend => absurd hend hnever)
          fun _ => Nat.le_refl _
        rw [hcallbacks, begun, hchain, if_pos hec]
        rfl
      · rw [if_neg fun hboth => hec hboth.2]
        refine h.client (runs_live hruns rfl) he hok hssl ?_ hstops
          (fun hold => hshut.trans hold) hdropped (fun _ hend => absurd hend hnever)
          fun _ => Nat.le_refl _
        rw [hcallbacks, begun, hchain, if_neg hec]
        rfl
  | server =>
      rw [if_neg fun hboth => Side.noConfusion hboth.1]
      refine h.server he hok hssl ((he ▸ h.listing).of_over_iff hover)
        (fun hold => hshut.trans hold) hdropped fun hreg hshut' => ?_
      exact absurd (h.heard hreg e he (hshut.symm.trans hshut')).1 hbefore

/-- A write that fails: behind a shutdown, or when the client is gone. -/
theorem Ok.writeFails (h : Ok ssl s) {ec shutdown : ErrorCode}
    (hrule : s.shut x = true ∨ x = .server ∧ s.gone = true)
    (hstep : act ssl s (.writeFails x ec shutdown) = some s') : Ok ssl s' := by
  obtain ⟨hruns, e, e', thrown, he, hnext, rfl⟩ := at_some hstep
  obtain ⟨⟨hec, hmore⟩, he'⟩ := Option.ite_none_right_eq_some.mp hnext
  have hold := h.ends x e he
  obtain ⟨hok, hchain, hshut⟩ := ok_writeFails hold hec hmore he'
  have hssl : ssl = false → Begun e'.life.chain := fun hssl => hchain ▸ h.plain hssl x e he
  cases x with
  | client =>
      refine h.client (runs_live hruns rfl) he hok hssl ?_ ?_ (fun _ => hshut)
        (fun hdropped => hchain.trans hdropped) ?_ fun _ => Nat.le_refl _
      · rw [h.callbacks, he, begun, begun, hchain]
      · rw [h.stopped_iff he, hchain]
      · intro hreg hending
        exact h.follows hreg e he (hchain ▸ hending)
  | server =>
      have hover : e'.life.chain.Over ↔ e.life.chain.Over := by rw [hchain]
      refine h.server he hok hssl ((he ▸ h.listing).of_over_iff hover) (fun _ => hshut)
        (fun hdropped => hchain.trans hdropped) fun hreg _ => ?_
      -- a shutdown came first, in both cases
      have hfirst : e.shut = true := by
        rcases hrule with hrule | ⟨-, hgone⟩
        · exact (shut_server he).symm.trans hrule
        · refine (h.server_of_gone hreg hgone he).resolve_left fun hdropped => ?_
          have hnone := (hold.quiet fun hbegun => hbegun.2 hdropped).1
          omega
      obtain ⟨hending, hclient, hnone⟩ := h.heard hreg e he hfirst
      exact ⟨hchain.symm ▸ hending, hclient, hnone⟩

/-- **THE LAST READ** of a session. -/
theorem Ok.readFails (h : Ok ssl s) {ec : ErrorCode} {io : ReadIo}
    (hrule : (s.shut x.peer = true ∧ s.flying x = 0) ∨ (x = .server ∧ s.gone = true) ∨
      s.Failed x.peer)
    (hstep : act ssl s (.readFails x ec io) = some s') : Ok ssl s' := by
  obtain ⟨hec, hat⟩ := Option.ite_none_right_eq_some.mp hstep
  obtain ⟨hruns, e, e', thrown, he, he', rfl⟩ := at_some hat
  obtain ⟨hok, hwaiting, hending, hshut⟩ := ok_readFails (h.ends x e he) hec he'
  have hbegun : Begun e'.life.chain := hending ▸ by decide
  have hover : e'.life.chain.Over ↔ e.life.chain.Over := by
    rw [hending, hwaiting]
    decide
  have hdropped : e.life.chain = .dropped → e'.life.chain = .dropped := fun hold =>
    Chain.noConfusion (hwaiting.symm.trans hold)
  cases x with
  | client =>
      refine h.client (runs_live hruns rfl) he hok (fun _ => hbegun) ?_ ?_ (fun _ => hshut) hdropped
        ?_ fun _ => Nat.le_refl _
      · rw [h.callbacks, he, begun, begun, hending, hwaiting]
        rfl
      · rw [h.stopped_iff he, hover]
      · intro _ _
        rcases hrule with ⟨hserver, -⟩ | ⟨hside, -⟩ | hfailed
        · exact .inl hserver
        · cases hside
        · exact .inr hfailed
  | server =>
      refine h.server he hok (fun _ => hbegun) ((he ▸ h.listing).of_over_iff hover)
        (fun _ => hshut) hdropped fun hreg _ => ?_
      rcases hrule with ⟨hclient, hnone⟩ | ⟨-, hgone⟩ | hfailed
      · exact ⟨.inl hending, hclient, hnone⟩
      · -- then the session has shut down before, and does not read any more
        rcases h.server_of_gone hreg hgone he with hold | hold
        · cases hwaiting.symm.trans hold
        · obtain ⟨hends, -, -⟩ := h.heard hreg e he hold
          rw [hwaiting] at hends
          rcases hends with hend | hend | hend <;> cases hend
      · exact absurd hfailed hreg.2

/-- **A SESSION IS OVER**: the client's stops its `io_context`, the server's
    leaves `sessions_`. -/
theorem Ok.sessionOver (h : Ok ssl s) (hstep : act ssl s (.sessionOver x) = some s') :
    Ok ssl s' := by
  obtain ⟨s₁, hat, rfl⟩ := Option.map_eq_some_iff.mp hstep
  obtain ⟨hruns, e, e', thrown, he, he', rfl⟩ := at_some hat
  obtain ⟨hok, hending, hreturning, hshut⟩ := ok_sessionOver (h.ends x e he) he'
  have hbegun : Begun e'.life.chain := hreturning ▸ by decide
  have hover : e'.life.chain.Over := .inl hreturning
  have hdropped : e.life.chain = .dropped → e'.life.chain = .dropped := fun hold =>
    Chain.noConfusion (hending.symm.trans hold)
  cases x with
  | client =>
      refine h.client (runs_live hruns rfl) he hok (fun _ => hbegun) ?_
        (iff_of_true rfl (.inr hover)) (fun hold => hshut.trans hold) hdropped
        (fun hreg _ => h.follows hreg e he (.inl hending)) fun _ => Nat.le_refl _
      show s.callbacks = _
      rw [h.callbacks, he, begun, begun, hending, hreturning]
      rfl
  | server =>
      have hbefore : ¬ e.life.chain.Over := by
        rw [hending]
        decide
      refine h.server he hok (fun _ => hbegun) ((he ▸ h.listing).sessionOver hbefore hover)
        (fun hold => hshut.trans hold) hdropped fun hreg hshut' => ?_
      obtain ⟨-, hclient, hnone⟩ := h.heard hreg e he (hshut.symm.trans hshut')
      exact ⟨.inr hover, hclient, hnone⟩

/-- **EVERY STEP** keeps what holds all along. -/
theorem Ok.step (h : Ok ssl s) {a : Action} (hrule : Intact s a)
    (hstep : step ssl s a = some s') : Ok ssl s' := by
  obtain ⟨-, hstep⟩ := Option.ite_none_right_eq_some.mp hstep
  cases a with
  | establish =>
      obtain ⟨⟨hconnecting, -, -⟩, heq⟩ := Option.ite_none_right_eq_some.mp hstep
      rw [← Option.some.inj heq]
      exact { h with
        connected := fun _ _ _ => rfl
        refused := fun hnot => nomatch hconnecting.symm.trans hnot }
  | onConnect ec =>
      obtain ⟨⟨hconnecting, hruns⟩, heq⟩ := Option.ite_none_right_eq_some.mp hstep
      rw [← Option.some.inj heq]
      exact h.onConnect hconnecting (runs_live hruns rfl) hrule
  | expire =>
      obtain ⟨hrunning, heq⟩ := Option.ite_none_right_eq_some.mp hstep
      rw [← Option.some.inj heq]
      refine { h with timer := fun _ => Timer.noConfusion, gone := fun hgone => ?_ }
      obtain ⟨hmiddle, hreturns⟩ := h.gone hgone
      refine ⟨hmiddle, hreturns.imp_right fun hidle => ?_⟩
      cases hrunning.symm.trans hidle.2.1
  | onTimer => exact h.onTimer hstep
  | accept io =>
      obtain ⟨⟨hconnected, hnone⟩, heq⟩ := Option.ite_none_right_eq_some.mp hstep
      split at heq
      · rw [← Option.some.inj heq]
        exact h.accept hconnected (Option.isNone_iff_eq_none.mp hnone)
      · rw [← Option.some.inj heq]
        exact h
      · rw [← Option.some.inj heq]
        exact { h with }
  | register =>
      obtain ⟨-, hmap⟩ := Option.ite_none_left_eq_some.mp hstep
      obtain ⟨e, he, rfl⟩ := Option.map_eq_some_iff.mp hmap
      exact h.register he
  | disconnect => exact h.disconnect hstep
  | exit =>
      obtain ⟨⟨hreturns, -⟩, heq⟩ := Option.ite_none_right_eq_some.mp hstep
      rw [← Option.some.inj heq]
      exact h.exit hreturns
  | onHandshake x ec => exact h.onHandshake hstep
  | transfer x =>
      obtain ⟨s₁, hat, rfl⟩ := Option.map_eq_some_iff.mp hstep
      obtain ⟨hlives, e, e', thrown, he, he', rfl⟩ := at_some hat
      obtain ⟨hmore, heq⟩ := Option.ite_none_right_eq_some.mp he'
      obtain ⟨rfl, rfl⟩ := Prod.mk.inj (Option.some.inj heq)
      refine h.goesOn (gone_of_lives hlives) he (goesOn_transfer (h.ends x e he) hmore)
        fun hshut => ?_
      cases x with
      | client => exact absurd (hrule.symm.trans hshut) Bool.false_ne_true
      | server => exact Nat.le_of_eq (Function.update_of_ne Side.noConfusion _ _)
  | onWrite x =>
      refine h.at_goesOn runs_live (fun e e' thrown he he' => ?_) hstep
      obtain ⟨-, hnext⟩ := Option.ite_none_right_eq_some.mp he'
      exact goesOn_onWrite (h.ends x e he) hnext
  | writeFails x ec shutdown => exact h.writeFails hrule hstep
  | read x n io =>
      obtain ⟨-, hmap⟩ := Option.ite_none_right_eq_some.mp hstep
      obtain ⟨s₁, hat, rfl⟩ := Option.map_eq_some_iff.mp hmap
      obtain ⟨hruns, e, e', thrown, he, he', rfl⟩ := at_some hat
      refine h.goesOn (runs_live hruns) he (goesOn_read (h.ends x e he) he') fun _ => ?_
      cases x with
      | client => exact Nat.le_of_eq (Function.update_of_ne Side.noConfusion _ _)
      | server =>
          show Function.update s.flying .server (s.flying .server - n) .server ≤ _
          rw [Function.update_self]
          exact Nat.sub_le _ _
  | readFails x ec io => exact h.readFails hrule hstep
  | request x dispatch =>
      obtain ⟨-, hat⟩ := Option.ite_none_left_eq_some.mp hstep
      refine h.at_goesOn runs_live (fun e e' thrown he he' => ?_) hat
      obtain ⟨-, hnext⟩ := Option.ite_none_right_eq_some.mp he'
      exact goesOn_request (h.ends x e he) hnext
  | reply x =>
      refine h.at_goesOn runs_live (fun e e' thrown he he' => ?_) hstep
      obtain ⟨-, heq⟩ := Option.ite_none_right_eq_some.mp he'
      obtain ⟨rfl, rfl⟩ := Prod.mk.inj (Option.some.inj heq)
      have hok := h.ends x e he
      exact .of_chain hok hok.reported rfl hok.quiet rfl (Nat.sub_le _ _) hok.transferred
  | doRead x =>
      refine h.at_goesOn runs_live (fun e e' thrown he he' => ?_) hstep
      obtain ⟨hnone, hnext⟩ := Option.ite_none_right_eq_some.mp he'
      exact goesOn_doRead (h.ends x e he) hnone hnext
  | send x closure =>
      obtain ⟨hmay, hat⟩ := Option.ite_none_right_eq_some.mp hstep
      refine h.at_goesOn gone_of_lives (fun e e' thrown he he' => ?_) hat
      refine goesOn_send (h.ends x e he) (fun hcall => ?_) he'
      -- the stub was handed out when the first read was started
      obtain ⟨rfl, hcalled⟩ := hmay.resolve_left (hcall ▸ Bool.false_ne_true)
      by_contra hnot
      rw [h.callbacks, he, begun, if_neg hnot] at hcalled
      exact Nat.lt_irrefl 0 hcalled
  | sessionOver x => exact h.sessionOver hstep
  | readReturns x =>
      exact h.at_goesOn gone_of_lives (fun e e' thrown he he' =>
        goesOn_readReturns (h.ends x e he) he') hstep

end Steps

/-- What the programs decide: to disconnect, to make a call, to answer one. -/
def Action.byProgram : Action → Bool
  | .disconnect => true
  | .send _ _ => true
  | _ => false

/-- Nothing happens unless a program does something. -/
def Stand (ssl : Bool) (s : Conn) : Prop :=
  s.escaped = none ∧ ∀ a, a.byProgram = false → Intact s a → act ssl s a = none

/-- The connection is open both ways, and both sessions wait for a message that
    nobody has sent. -/
def OpenAndIdle (s : Conn) : Prop :=
  s.stopped = false ∧ s.gone = false ∧
    ∀ x, s.shut x = false ∧ s.flying x = 0 ∧
      ∃ e, s.ends x = some e ∧ e.life.chain = .waiting ∧ e.life.writes = 0

/-- `run` has returned.  The server has accepted the connection, if there was
    one, and its session was over once, or its handshake has failed; the server
    has forgotten a session that was over, but for one that was over before
    `on_accept` put it in `sessions_`. -/
def Closed (s : Conn) : Prop :=
  s.gone = true ∧ (s.connected = true → (s.ends .server).isSome) ∧
    ∀ e, s.ends .server = some e →
      (e.peer.overs = 1 ∨ e.life.chain = .dropped) ∧
        (s.sessions = true ↔ s.late = true ∨ e.life.chain = .dropped)

section Stand

variable {ssl : Bool} {s : Conn} {x : Side} {e : End}

theorem at_none {may : Bool} {f : End → Option (End × Option SystemError)}
    (h : s.at may x f = none) (hmay : may = true) (he : s.ends x = some e) : f e = none := by
  rw [Conn.at, if_pos hmay] at h
  simp only [he] at h
  exact Option.map_eq_none_iff.mp h

/-- What a handler could do it does. -/
theorem next_none {ev : Event} {f : End → End} (h : e.next ssl (.handle ev) f = none) :
    handle e.life ev = none := by
  have hpeer : (session ssl).peerStep e.peer (.handle ev) = none := Option.map_eq_none_iff.mp h
  exact Option.map_eq_none_iff.mp hpeer

theorem handle_onRead_ne_none {l : Life} (hwaiting : l.chain = .waiting) (ec : ErrorCode)
    (io : ReadIo) : handle l (.onRead ec io) ≠ none := by
  rw [handle, if_pos hwaiting, onRead_eq]
  exact Option.some_ne_none _

/-- The system calls of `on_read`, when nothing fails. -/
def smoothly : ReadIo := ⟨true, 0, 0⟩

/-- **AN END AT A STAND** waits for messages of a peer that may still send, is
    over, or was given up. -/
theorem Stand.end_cases (hstand : Stand ssl s) (he : s.ends x = some e)
    (hruns : s.runs x = true) :
    (e.life.chain = .waiting ∧ s.flying x = 0 ∧ s.shut x.peer = false ∧ ¬ s.Failed x.peer ∧
      ¬ (x = .server ∧ s.gone = true)) ∨ e.life.chain = .ended ∨ e.life.chain = .dropped := by
  cases hchain : e.life.chain with
  | shaking =>
      have hnext := at_none (Option.map_eq_none_iff.mp
        (hstand.2 (.onHandshake x eof) rfl (fun h => nomatch h))) hruns he
      have hhandle := next_none hnext
      rw [handle, if_pos hchain] at hhandle
      cases hhandle
  | dropped => exact .inr (.inr rfl)
  | ended => exact .inr (.inl rfl)
  | returning =>
      have hlives : s.lives x = true := by
        cases x with
        | client => exact ((Bool.and_eq_true _ _).mp hruns).1
        | server => rfl
      have hhandle := next_none (at_none (hstand.2 (.readReturns x) rfl trivial) hlives he)
      rw [handle, if_pos hchain] at hhandle
      cases hhandle
  | ending =>
      have hnext := at_none (Option.map_eq_none_iff.mp
        (hstand.2 (.sessionOver x) rfl trivial)) hruns he
      have hpeer : (session ssl).peerStep e.peer .sessionOver = none :=
        Option.map_eq_none_iff.mp hnext
      have hover : sessionOver e.life = none := Option.map_eq_none_iff.mp hpeer
      rw [RpcSessionLife.sessionOver, if_pos hchain] at hover
      cases hover
  | handling =>
      by_cases hnone : e.unhandled = 0
      · have hnext := at_none (hstand.2 (.doRead x) rfl trivial) hruns he
        rw [if_pos hnone] at hnext
        have hhandle := next_none hnext
        rw [handle, if_pos hchain] at hhandle
        cases hhandle
      · have hnext := at_none (hstand.2 (.reply x) rfl trivial) hruns he
        rw [if_pos (Nat.pos_of_ne_zero hnone)] at hnext
        cases hnext
  | waiting =>
      have hflying : s.flying x = 0 := by
        by_contra hne
        have hready : 0 < s.flying x ∧ s.flying x ≤ s.flying x :=
          ⟨Nat.pos_of_ne_zero hne, Nat.le_refl _⟩
        have hstep := hstand.2 (.read x (s.flying x) smoothly) rfl trivial
        rw [act, if_pos hready] at hstep
        have hnext := at_none (Option.map_eq_none_iff.mp hstep) hruns he
        exact handle_onRead_ne_none hchain 0 smoothly (next_none hnext)
      -- a read that could fail would
      have hfails : ¬ Intact s (.readFails x eof smoothly) := by
        intro hrule
        have hstep := hstand.2 (.readFails x eof smoothly) rfl hrule
        rw [act, if_pos (by decide)] at hstep
        exact handle_onRead_ne_none hchain eof smoothly (next_none (at_none hstep hruns he))
      refine .inl ⟨rfl, hflying, Bool.eq_false_iff.mpr fun hshut => ?_, fun hfailed => ?_,
        fun hgone => ?_⟩
      · exact hfails (.inl ⟨hshut, hflying⟩)
      · exact hfails (.inr (.inr hfailed))
      · exact hfails (.inr (.inl hgone))

/-- Every message that an open socket sent is on its way, or has been handled. -/
theorem Stand.writes_eq_zero (hstand : Stand ssl s) (h : Ok ssl s) (he : s.ends x = some e)
    (hruns : s.runs x = true) (hshut : s.shut x = false) : e.life.writes = 0 := by
  have hle := (h.ends x e he).transferred
  have htransferred : e.transferred = 0 := by
    by_contra hne
    have hpos := Nat.pos_of_ne_zero hne
    have hnext := at_none (hstand.2 (.onWrite x) rfl trivial) hruns he
    rw [if_pos hpos] at hnext
    have hhandle := next_none hnext
    rw [handle, if_pos (Nat.lt_of_lt_of_le hpos hle), onWrite_eq] at hhandle
    cases hhandle
  have hlives : s.lives x = true := by
    cases x with
    | client => exact ((Bool.and_eq_true _ _).mp hruns).1
    | server => rfl
  by_contra hne
  have hmore : e.transferred < e.life.writes := htransferred ▸ Nat.pos_of_ne_zero hne
  have hstep := hstand.2 (.transfer x) rfl hshut
  have hnext := at_none (Option.map_eq_none_iff.mp hstep) hlives he
  rw [if_pos hmore] at hnext
  cases hnext

/-- What could return has returned. -/
theorem Stand.gone (hstand : Stand ssl s) (hreturns : s.Returns) : s.gone = true := by
  refine Bool.not_eq_false _ ▸ fun hlive => ?_
  have hstep := hstand.2 .exit rfl trivial
  rw [act, if_pos ⟨hreturns, hlive⟩] at hstep
  cases hstep

/-- The time was stopped, or has passed, and its handler was called. -/
theorem Stand.timer (hstand : Stand ssl s) (h : Ok ssl s) (hconnecting : s.connecting = false)
    (hruns : s.runs .client = true) : s.timer = .handled := by
  have hstep := hstand.2 .onTimer rfl trivial
  rw [act, if_pos hruns] at hstep
  cases hcase : s.timer with
  | running => exact absurd hcase (h.timer hconnecting)
  | handled => rfl
  | expired =>
      rw [hcase] at hstep
      cases hstep
  | cancelled =>
      rw [hcase] at hstep
      cases hstep

theorem Stand.accepted (hstand : Stand ssl s) (hconnected : s.connected = true) :
    (s.ends .server).isSome := by
  refine Option.isSome_iff_ne_none.mpr fun hnone => ?_
  have hstep := hstand.2 (.accept ⟨0, 0, 0⟩) rfl rfl
  rw [act, if_pos ⟨hconnected, Option.isNone_iff_eq_none.mpr hnone⟩] at hstep
  cases hstep

/-- **A CLIENT AT A STAND** waits on a connection that is open at both ends,
    or is gone. -/
theorem Stand.cases (hstand : Stand ssl s) (h : Ok ssl s) : OpenAndIdle s ∨ s.gone = true := by
  by_cases hstopped : s.stopped = true
  · -- `on_session_over` has returned
    refine .inr (by_contra fun hlive => ?_)
    have hlives : s.lives .client = true := by
      rw [Conn.lives, Bool.eq_false_iff.mpr hlive]
      rfl
    refine hlive (hstand.gone ⟨fun e he hreturning => ?_, .inl hstopped⟩)
    have hhandle := next_none (at_none (hstand.2 (.readReturns .client) rfl trivial) hlives he)
    rw [handle, if_pos hreturning] at hhandle
    cases hhandle
  · by_cases hgone : s.gone = true
    · exact .inr hgone
    · have hruns : s.runs .client = true := by
        rw [Conn.runs, Bool.eq_false_iff.mpr hgone, Bool.eq_false_iff.mpr hstopped]
        rfl
      have hconnecting : s.connecting = false := by
        refine Bool.eq_false_iff.mpr fun hconnecting => ?_
        cases hconnected : s.connected with
        | true =>
            have hstep := hstand.2 (.onConnect 0) rfl (iff_of_true rfl hconnected)
            rw [act, if_pos ⟨hconnecting, hruns⟩] at hstep
            cases hstep
        | false =>
            have hstep := hstand.2 .establish rfl trivial
            rw [act, if_pos ⟨hconnecting, hconnected, Bool.eq_false_iff.mpr hgone⟩] at hstep
            cases hstep
      have htimer := hstand.timer h hconnecting hruns
      have hidle : (∀ e ∈ s.ends .client, holders e.life = 0) → s.gone = true := by
        intro hnone
        refine hstand.gone ⟨fun e he hreturning => ?_, .inr ⟨hconnecting, htimer, hnone⟩⟩
        exact Nat.ne_of_gt (holders_of_chain (hreturning ▸ Chain.noConfusion)
          (hreturning ▸ Chain.noConfusion)) (hnone e he)
      cases hclient : s.ends .client with
      | none =>
          refine .inr (hidle fun e he => ?_)
          cases hclient.symm.trans he
      | some ec =>
          rcases hstand.end_cases hclient hruns with
            ⟨hwaiting, hnone, hserver, hfine, -⟩ | hended | hdropped
          · -- the server's session waits as well: its end would have been noticed
            obtain ⟨es, hes⟩ := Option.isSome_iff_exists.mp
              (hstand.accepted (h.connected .client ec hclient))
            refine .inl ⟨Bool.eq_false_iff.mpr hstopped, Bool.eq_false_iff.mpr hgone, ?_⟩
            rcases hstand.end_cases hes rfl with
              ⟨hwaiting', hnone', hclient', -, -⟩ | hended | hdropped
            · intro x
              cases x with
              | client =>
                  exact ⟨hclient', hnone, ec, hclient, hwaiting,
                    hstand.writes_eq_zero h hclient hruns hclient'⟩
              | server =>
                  exact ⟨hserver, hnone', es, hes, hwaiting',
                    hstand.writes_eq_zero h hes rfl hserver⟩
            · have hshut := (h.ends .server es hes).shut (.inr (.inr hended))
              cases (hserver.symm.trans (shut_server hes)).trans hshut
            · exact absurd ((failed_iff hes).mpr hdropped) hfine
          · exact absurd ((h.stopped_iff hclient).mpr (.inr (.inr hended))) hstopped
          · refine .inr (hidle fun e he => ?_)
            obtain rfl := Option.some.inj (hclient.symm.trans he)
            have hquiet := (h.ends .client ec hclient).quiet fun hbegun => hbegun.2 hdropped
            rw [holders, hdropped, hquiet.1]

end Stand

/-- The time can be out for a client that is connected: `cancel` came too late
    for a handler that was to be called, and the handler does not look. -/
theorem stopped_though_connected :
    ∃ s, Reachable false s ∧ s.callbacks = 1 ∧ s.timedOut = true ∧ s.stopped = true := by
  have hrun : (guardedRun (step false) Intact Conn.connect
      [.expire, .establish, .onConnect 0, .onTimer]).map
      (fun s => (s.callbacks, s.timedOut, s.stopped)) = some (1, true, true) := by
    decide +kernel
  obtain ⟨s, hreachable, hview⟩ := exists_of_guardedRun hrun
  obtain ⟨hcallbacks, hview⟩ := Prod.mk.inj hview
  exact ⟨s, hreachable, hcallbacks, Prod.mk.inj hview⟩

/-- The server accepts before the client has come to `on_connect`; the client
    calls `Add` and disconnects in the callback. -/
def oneCall : List Action :=
  [.establish, .accept ⟨0, 0, 0⟩, .onConnect 0, .onTimer, .onHandshake .client 0,
    .send .client false, .onHandshake .server 0, .transfer .client, .onWrite .client,
    .read .server 1 smoothly, .request .server true, .register, .doRead .server,
    .send .server true, .transfer .server, .onWrite .server, .read .client 1 smoothly,
    .reply .client, .disconnect, .doRead .client, .readFails .server eof smoothly,
    .sessionOver .server, .readReturns .server, .readFails .client eof smoothly,
    .sessionOver .client, .readReturns .client, .exit]

end RpcClient
