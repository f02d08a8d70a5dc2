import BoostPractice.AcceptorProofs
import BoostPractice.HttpConnectionProofs

/-! # `listener` and its `http_session`s

    The listener accepts one connection after the other and forgets it: a
    session lives as long as one of its handlers does.  On each connection the
    client sends requests without waiting for the answers, and shuts down its
    sending direction when it likes; the session answers them one at a time.

    `requests_served` says what a client gets, whatever the others do, and
    `requests_end` that a server which is left alone has answered every request
    that does not come behind the last answer of its connection. -/

namespace HttpServer

open Acceptor (SystemError throwing)
open GuardedRun HttpMessage HttpSession HttpConnection

/-! ## The listener, the sessions and their clients -/

/-- The requests of a client in the order it sends them, whether it has shut
    down its sending direction, and its session. -/
structure Conn where
  asked : List Request
  finished : Bool
  session : Session

/-- `http_session::run`. -/
def Conn.accepted : Conn := ⟨[], false, run⟩

/-- The request that is read next. -/
def Conn.next (c : Conn) : Option Request := c.asked[c.session.answered.length]?

inductive ConnAction where
  /-- The client sends a request. -/
  | ask (req : Request)
  /-- It shuts down its sending direction. -/
  | finish
  /-- `on_read` of a request, with the files that `handle_request` finds. -/
  | onRead (files : FileSystem)
  /-- `on_read` at the end of the stream, and what `shutdown` comes to. -/
  | endOfStream (shutdown : Acceptor.ErrorCode)
  | readError
  | onWrite
  | writeError (n : Nat)

/-- What leaves the handler: `on_read` uses the `shutdown` that throws, and
    `on_write` the one that does not. -/
def ConnAction.thrown : ConnAction → Except SystemError Unit
  | .endOfStream shutdown => throwing shutdown
  | _ => .ok ()

/-- The listener's connections, and an exception that no handler has caught. -/
structure Server where
  conns : List Conn
  escaped : Option SystemError

/-- `listener::run`. -/
def Server.start : Server := ⟨[], none⟩

/-- `listener::on_accept`, which accepts again in any case. -/
def Server.onAccept (s : Server) (ec : Acceptor.ErrorCode) : Server :=
  if ec ≠ 0 then s else { s with conns := s.conns ++ [.accepted] }

inductive Action where
  | onAccept (ec : Acceptor.ErrorCode)
  | connection (k : Nat) (a : ConnAction)

section Server

variable (server : Line) (docRoot : Bytes)

/-- A step of a client or of its session. -/
def Conn.step (c : Conn) : ConnAction → Option Conn
  | .ask req => if c.finished then none else some { c with asked := c.asked ++ [req] }
  | .finish => if c.finished then none else some { c with finished := true }
  | .onRead files =>
      match c.next with
      | some req => go c (.onRead ⟨files, req⟩)
      | none => none
  -- pipelined requests are read before the end of the stream is seen
  | .endOfStream _ => if c.finished = true ∧ c.next = none then go c .endOfStream else none
  | .readError => go c .readError
  | .onWrite => go c .onWrite
  | .writeError n => go c (.writeError n)
where
  go (c : Conn) (a : HttpConnection.Action) : Option Conn :=
    (sessionStep server docRoot c.session a).map fun session => { c with session }

/-- One step; an exception that escapes ends the run. -/
def step (s : Server) : Action → Option Server
  | .onAccept ec => if s.escaped = none then some (s.onAccept ec) else none
  | .connection k a =>
      if s.escaped = none then
        match s.conns[k]? with
        | some c =>
            (c.step server docRoot a).map fun c' =>
              { s with
                conns := s.conns.set k c'
                escaped := match a.thrown with
                  | .ok () => none
                  | .error e => some e }
        | none => none
      else none

def Reachable : Server → Prop := Reaches (step server docRoot) (fun _ _ => True) Server.start

/-! ## What each step can do -/

/-- A request whose answer is the last one: the client says so, or the file
    does not exist. -/
def Closes (e : Exchange) : Prop :=
  e.req.keepAlive = false ∨
    Accepted e.req ∧ (requestedFile docRoot e.files e.req).ec = noSuchFileOrDirectory

instance (e : Exchange) : Decidable (Closes docRoot e) := inferInstanceAs (Decidable (_ ∨ _))

theorem needEof_response (e : Exchange) :
    needEof (e.response server docRoot) = true ↔ Closes docRoot e := by
  have hkeep : ∀ keepAlive : Bool, (!keepAlive) = true ↔ keepAlive = false := by decide
  rw [Closes, needEof, Exchange.response, hkeep]
  rcases handleRequest_cases server docRoot e.files e.req with
    ⟨hnot, why, hhandled⟩ | ⟨haccepted, hec, hhandled⟩ | ⟨haccepted, hec, -⟩
  · rw [hhandled]
    exact ⟨.inl, fun h => h.elim id fun h => absurd h.1 hnot⟩
  · rw [hhandled]
    exact iff_of_true rfl (.inr ⟨haccepted, hec⟩)
  · -- the file is sent as the client wants it
    have hkept : (handleRequest server docRoot e.files e.req).response.keepAlive
        = e.req.keepAlive := by
      obtain ⟨hmethod, htarget⟩ := haccepted
      rw [handleRequest, if_neg fun h => hmethod.elim h.1 h.2, if_neg htarget]
      exact congrArg (fun h : Handled => h.response.keepAlive) (if_neg hec)
    rw [hkept]
    exact ⟨.inl, fun h => h.elim id fun h => absurd h.2 hec⟩

/-- What a step does to a session. -/
inductive SessionMoves (s : Session) : HttpConnection.Action → Session → Prop where
  | reads (reading : s.phase = .reading) (e : Exchange) :
      SessionMoves s (.onRead e) { s with phase := .writing e }
  | ends (reading : s.phase = .reading) : SessionMoves s .endOfStream { s with phase := .shut }
  | readFails (reading : s.phase = .reading) :
      SessionMoves s .readError { s with phase := .dropped }
  | answers {e : Exchange} (writing : s.phase = .writing e) :
      SessionMoves s .onWrite
        ⟨if needEof (e.response server docRoot) then .shut else .reading, s.answered ++ [e],
          s.written ++ responseBytes (e.response server docRoot)⟩
  | writeFails {e : Exchange} (writing : s.phase = .writing e) (n : Nat) :
      SessionMoves s (.writeError n) { s with
        phase := .dropped
        written := s.written ++ (responseBytes (e.response server docRoot)).take n }

/-- **WHAT A STEP CAN DO** to a connection. -/
inductive Moves (c : Conn) : ConnAction → Conn → Prop where
  | asks (sending : c.finished = false) (req : Request) :
      Moves c (.ask req) { c with asked := c.asked ++ [req] }
  | finishes (sending : c.finished = false) : Moves c .finish { c with finished := true }
  | reads (reading : c.session.phase = .reading) {req : Request} (next : c.next = some req)
      (files : FileSystem) :
      Moves c (.onRead files) { c with session.phase := .writing ⟨files, req⟩ }
  | ends (reading : c.session.phase = .reading) (finished : c.finished = true)
      (last : c.next = none) (shutdown : Acceptor.ErrorCode) :
      Moves c (.endOfStream shutdown) { c with session.phase := .shut }
  | readFails (reading : c.session.phase = .reading) :
      Moves c .readError { c with session.phase := .dropped }
  | answers {e : Exchange} (writing : c.session.phase = .writing e) :
      Moves c .onWrite { c with
        session := ⟨if needEof (e.response server docRoot) then .shut else .reading,
          c.session.answered ++ [e],
          c.session.written ++ responseBytes (e.response server docRoot)⟩ }
  | writeFails {e : Exchange} (writing : c.session.phase = .writing e) (n : Nat) :
      Moves c (.writeError n) { c with
        session.phase := .dropped
        session.written :=
          c.session.written ++ (responseBytes (e.response server docRoot)).take n }

section Step

variable {server docRoot} {c c' : Conn} {s s' : Server}

theorem moves_of_sessionStep {t t' : Session} {a : HttpConnection.Action}
    (h : sessionStep server docRoot t a = some t') : SessionMoves server docRoot t a t' := by
  rw [sessionStep.eq_def] at h
  split at h
  · next hreading =>
      rw [← Option.some.inj h]
      exact .reads hreading _
  · next hreading =>
      rw [← Option.some.inj h]
      exact .ends hreading
  · next hreading =>
      rw [← Option.some.inj h]
      exact .readFails hreading
  · next hwriting =>
      rw [← Option.some.inj h]
      exact .answers hwriting
  · next hwriting =>
      rw [← Option.some.inj h]
      exact .writeFails hwriting _
  · cases h

theorem step_go {a : HttpConnection.Action} (h : Conn.step.go server docRoot c a = some c') :
    ∃ session, sessionStep server docRoot c.session a = some session ∧
      SessionMoves server docRoot c.session a session ∧ c' = { c with session := session } := by
  obtain ⟨session, hsession, heq⟩ := Option.map_eq_some_iff.mp h
  exact ⟨session, hsession, moves_of_sessionStep hsession, heq.symm⟩

theorem moves_of_step {a : ConnAction} (h : c.step server docRoot a = some c') :
    Moves server docRoot c a c' := by
  cases a with
  | ask req =>
      obtain ⟨hsending, heq⟩ := Option.ite_none_left_eq_some.mp h
      rw [← Option.some.inj heq]
      exact .asks (Bool.eq_false_iff.mpr hsending) req
  | finish =>
      obtain ⟨hsending, heq⟩ := Option.ite_none_left_eq_some.mp h
      rw [← Option.some.inj heq]
      exact .finishes (Bool.eq_false_iff.mpr hsending)
  | onRead files =>
      rw [Conn.step] at h
      split at h
      · next req hnext =>
          obtain ⟨session, -, hmoves, rfl⟩ := step_go h
          cases hmoves with
          | reads reading => exact .reads reading hnext files
      · cases h
  | endOfStream shutdown =>
      obtain ⟨⟨hfinished, hnext⟩, hgo⟩ := Option.ite_none_right_eq_some.mp h
      obtain ⟨session, -, hmoves, rfl⟩ := step_go hgo
      cases hmoves with
      | ends reading => exact .ends reading hfinished hnext shutdown
  | readError =>
      obtain ⟨session, -, hmoves, rfl⟩ := step_go h
      cases hmoves with
      | readFails reading => exact .readFails reading
  | onWrite =>
      obtain ⟨session, -, hmoves, rfl⟩ := step_go h
      cases hmoves with
      | answers writing => exact .answers writing
  | writeError n =>
      obtain ⟨session, -, hmoves, rfl⟩ := step_go h
      cases hmoves with
      | writeFails writing => exact .writeFails writing n

/-- Its session takes a step of its own, or none. -/
theorem session_of_step {a : ConnAction} (h : c.step server docRoot a = some c') :
    c'.session = c.session ∨ ∃ b, sessionStep server docRoot c.session b = some c'.session := by
  have hgo : ∀ {b}, Conn.step.go server docRoot c b = some c' →
      ∃ b, sessionStep server docRoot c.session b = some c'.session := by
    intro b hgo
    obtain ⟨session, hsession, -, rfl⟩ := step_go hgo
    exact ⟨b, hsession⟩
  cases a with
  | ask req =>
      cases moves_of_step h with
      | asks _ _ => exact .inl rfl
  | finish =>
      cases moves_of_step h with
      | finishes _ => exact .inl rfl
  | onRead files =>
      rw [Conn.step] at h
      split at h
      · exact .inr (hgo h)
      · cases h
  | endOfStream shutdown => exact .inr (hgo (Option.ite_none_right_eq_some.mp h).2)
  | readError => exact .inr (hgo h)
  | onWrite => exact .inr (hgo h)
  | writeError n => exact .inr (hgo h)

theorem step_connection {k : Nat} {a : ConnAction}
    (h : step server docRoot s (.connection k a) = some s') :
    s.escaped = none ∧ ∃ c c', s.conns[k]? = some c ∧ c.step server docRoot a = some c' ∧
      s'.conns = s.conns.set k c' ∧ (∀ e, s'.escaped = some e → a.thrown = .error e) := by
  obtain ⟨hrunning, hmatch⟩ := Option.ite_none_right_eq_some.mp h
  split at hmatch
  · next c hc =>
      obtain ⟨c', hstep, rfl⟩ := Option.map_eq_some_iff.mp hmatch
      refine ⟨hrunning, c, c', hc, hstep, rfl, fun e he => ?_⟩
      dsimp only at he
      split at he
      · cases he
      · next hthrown => rw [hthrown, Option.some.inj he]
  · cases hmatch

/-- A connection of a server is as it was, new, or takes a step of its own. -/
theorem conn_of_step {a : Action} {k : Nat} (h : step server docRoot s a = some s')
    (hc : s'.conns[k]? = some c') :
    s.conns[k]? = some c' ∨ c' = .accepted ∨
      ∃ c b, s.conns[k]? = some c ∧ c.step server docRoot b = some c' := by
  cases a with
  | onAccept ec =>
      obtain ⟨-, heq⟩ := Option.ite_none_right_eq_some.mp h
      rw [← Option.some.inj heq, Server.onAccept] at hc
      split at hc
      · exact .inl hc
      · rcases getElem?_concat_iff.mp hc with hold | ⟨-, hnew⟩
        · exact .inl hold
        · exact .inr (.inl hnew.symm)
  | connection j b =>
      obtain ⟨-, c, c₁, hold, hstep, hconns, -⟩ := step_connection h
      rw [hconns] at hc
      rcases getElem?_of_set hc with ⟨rfl, rfl⟩ | ⟨-, hsame⟩
      · exact .inr (.inr ⟨c, b, hold, hstep⟩)
      · exact .inl hsame

end Step

/-! ## One connection -/

/-- The requests that were read, with those that are answered. -/
def begun (s : Session) : List Exchange :=
  match s.phase with
  | .writing e => s.answered ++ [e]
  | _ => s.answered

/-- The last answer closes the connection, and none before it does. -/
def Conn.Closed (c : Conn) : Prop :=
  ∃ es e, c.session.answered = es ++ [e] ∧ (∀ e ∈ es, ¬ Closes docRoot e) ∧ Closes docRoot e

/-- The client sends no more, and was answered in full. -/
def Conn.Through (c : Conn) : Prop :=
  c.finished = true ∧ c.session.answered.map Exchange.req = c.asked ∧
    ∀ e ∈ c.session.answered, ¬ Closes docRoot e

/-- **WHAT HOLDS ALL ALONG** of a connection. -/
structure Ok (c : Conn) : Prop where
  inOrder : (begun c.session).map Exchange.req <+: c.asked
  kept : c.session.phase ≠ .shut → ∀ e ∈ c.session.answered, ¬ Closes docRoot e
  shut : c.session.phase = .shut → c.Closed docRoot ∨ c.Through docRoot

section Connection

variable {server docRoot} {c c' : Conn}

theorem begun_of_writing {s : Session} {e : Exchange} (h : s.phase = .writing e) :
    begun s = s.answered ++ [e] := by
  rw [begun, h]

theorem begun_of_not_writing {s : Session} (h : ∀ e, s.phase ≠ .writing e) :
    begun s = s.answered := by
  rw [begun]
  split
  · next e hwriting => exact absurd hwriting (h e)
  · rfl

/-- The request that is read next stands behind those before it. -/
theorem concat_prefix_of_getElem? {R : Type} {rs all : List R} {r : R} (h : rs <+: all)
    (hr : all[rs.length]? = some r) : rs ++ [r] <+: all := by
  obtain ⟨rest, rfl⟩ := h
  rw [List.getElem?_append_right (Nat.le_refl _), Nat.sub_self] at hr
  cases rest with
  | nil => cases hr
  | cons r' rest =>
      rw [Option.some.inj hr, List.prefix_append_right_inj]
      exact List.prefix_append [r] rest

theorem ok_accepted : Ok docRoot .accepted where
  inOrder := List.nil_prefix
  kept := fun _ _ he => absurd he List.not_mem_nil
  shut := nofun

theorem Ok.read (h : Ok docRoot c) (hreading : c.session.phase = .reading) {req : Request}
    (hnext : c.next = some req) (files : FileSystem) :
    Ok docRoot { c with session.phase := .writing ⟨files, req⟩ } := by
  have hbegun : begun c.session = c.session.answered :=
    begun_of_not_writing fun e he => Phase.noConfusion (hreading.symm.trans he)
  have hfirst := h.inOrder
  rw [hbegun] at hfirst
  refine ⟨?_, fun _ => h.kept (hreading ▸ Phase.noConfusion), nofun⟩
  show (c.session.answered ++ [_]).map Exchange.req <+: c.asked
  rw [List.map_append]
  refine concat_prefix_of_getElem? hfirst ?_
  rw [List.length_map]
  exact hnext

theorem Ok.ends (h : Ok docRoot c) (hreading : c.session.phase = .reading)
    (hfinished : c.finished = true) (hlast : c.next = none) :
    Ok docRoot { c with session.phase := .shut } := by
  have hbegun : begun c.session = c.session.answered :=
    begun_of_not_writing fun e he => Phase.noConfusion (hreading.symm.trans he)
  have hfirst := h.inOrder
  rw [hbegun] at hfirst
  refine ⟨hfirst, fun hopen => absurd rfl hopen, fun _ => .inr ⟨hfinished, ?_, ?_⟩⟩
  · have hle := List.getElem?_eq_none_iff.mp hlast
    rw [← List.length_map (f := Exchange.req)] at hle
    exact hfirst.eq_of_length_le hle
  · exact h.kept (hreading ▸ Phase.noConfusion)

theorem Ok.answer (h : Ok docRoot c) {e : Exchange} (hwriting : c.session.phase = .writing e)
    (written : Bytes) :
    Ok docRoot { c with
      session := ⟨if needEof (e.response server docRoot) then .shut else .reading,
        c.session.answered ++ [e], written⟩ } := by
  have hkept := h.kept (hwriting ▸ Phase.noConfusion)
  have hfirst := h.inOrder
  rw [begun_of_writing hwriting] at hfirst
  refine ⟨?_, ?_, ?_⟩
  · rw [begun_of_not_writing]
    · exact hfirst
    · intro e'
      dsimp only
      split
      · exact Phase.noConfusion
      · exact Phase.noConfusion
  · intro hopen e' he'
    have hlast : ¬ Closes docRoot e := fun hcloses =>
      hopen (if_pos ((needEof_response server docRoot e).mpr hcloses))
    rcases List.mem_append.mp he' with hold | hnew
    · exact hkept e' hold
    · rw [List.mem_singleton.mp hnew]
      exact hlast
  · intro hshut
    have hcloses : Closes docRoot e := by
      by_contra hnot
      rw [← needEof_response server docRoot e] at hnot
      exact Phase.noConfusion ((if_neg hnot).symm.trans hshut)
    exact .inl ⟨c.session.answered, e, rfl, hkept, hcloses⟩

theorem Ok.drop (h : Ok docRoot c) (hopen : c.session.phase ≠ .shut) (written : Bytes) :
    Ok docRoot { c with session := ⟨.dropped, c.session.answered, written⟩ } := by
  refine ⟨List.IsPrefix.trans ?_ h.inOrder, fun _ => h.kept hopen, nofun⟩
  show c.session.answered.map Exchange.req <+: _
  rw [begun]
  split
  · rw [List.map_append]
    exact List.prefix_append _ _
  · exact List.prefix_rfl

/-- **EVERY STEP** of a connection. -/
theorem Ok.step (h : Ok docRoot c) {a : ConnAction}
    (hstep : c.step server docRoot a = some c') : Ok docRoot c' := by
  cases moves_of_step hstep with
  | asks hsending req =>
      refine ⟨h.inOrder.trans (List.prefix_append _ _), h.kept, fun hshut => ?_⟩
      rcases h.shut hshut with hclosed | ⟨hfinished, -⟩
      · exact .inl hclosed
      -- who has shut down asks no more
      · cases hsending.symm.trans hfinished
  | finishes hsending =>
      refine ⟨h.inOrder, h.kept, fun hshut => ?_⟩
      rcases h.shut hshut with hclosed | ⟨hfinished, -⟩
      · exact .inl hclosed
      · cases hsending.symm.trans hfinished
  | reads hreading hnext files => exact h.read hreading hnext files
  | ends hreading hfinished hlast shutdown => exact h.ends hreading hfinished hlast
  | readFails hreading => exact h.drop (hreading ▸ Phase.noConfusion) _
  | answers hwriting => exact h.answer hwriting _
  | writeFails hwriting n => exact h.drop (hwriting ▸ Phase.noConfusion) _

end Connection

/-! ## The whole server -/

/-- **WHAT A CLIENT GETS**: answers to its first requests, in order, none behind
    one that closes the connection; a session that has shut down has given such
    an answer, or all there were to give.  Where no answer has octets that are
    not expected, the client finds each where it is, and behind them at most
    what a failed write has left. -/
structure Served (c : Conn) : Prop where
  inOrder : c.session.answered.map Exchange.req <+: c.asked
  kept : ∀ e ∈ c.session.answered.dropLast, ¬ Closes docRoot e
  ended : c.session.phase = .shut → c.Closed docRoot ∨ c.Through docRoot
  found : (∀ e ∈ c.session.answered, Answerable docRoot e) → ∃ torn,
    readResponses (c.session.answered.map Exchange.toHead) c.session.written
      = some (c.session.answered.map fun e =>
          (head (e.response server docRoot), e.expected server docRoot), torn) ∧
    (torn = [] ∨ c.session.phase = .dropped)

section Runs

variable {server docRoot} {s s' : Server} {c : Conn}

/-- What a connection goes through, the others apart. -/
theorem conn_reaches (h : Reachable server docRoot s) (hc : c ∈ s.conns) :
    Reaches (Conn.step server docRoot) (fun _ _ => True) .accepted c := by
  obtain ⟨k, hk⟩ := List.mem_iff_getElem?.mp hc
  refine Reaches.part (fun s k => s.conns[k]?) (fun k => rfl) ?_ h hk
  intro s a s' k c' hstep hc'
  exact conn_of_step hstep hc'

theorem ok_of_reaches (h : Reaches (Conn.step server docRoot) (fun _ _ => True) .accepted c) :
    Ok docRoot c :=
  h.invariant ok_accepted fun _ _ _ hok _ hstep => hok.step hstep

theorem session_reaches (h : Reaches (Conn.step server docRoot) (fun _ _ => True) .accepted c) :
    Reaches (sessionStep server docRoot) (fun _ _ => True) run c.session := by
  induction h with
  | start => exact .start
  | next _ _ hstep ih =>
      rcases session_of_step hstep with hsame | ⟨b, hsession⟩
      · exact hsame ▸ ih
      · exact ih.next trivial hsession

theorem found_of_reaches (h : Reaches (sessionStep server docRoot) (fun _ _ => True) run c.session)
    (hanswerable : ∀ e ∈ c.session.answered, Answerable docRoot e) : ∃ torn,
    readResponses (c.session.answered.map Exchange.toHead) c.session.written
      = some (c.session.answered.map fun e =>
          (head (e.response server docRoot), e.expected server docRoot), torn) ∧
    (torn = [] ∨ c.session.phase = .dropped) := by
  obtain ⟨torn, hwritten, htorn⟩ := written_of_reaches server docRoot h
  have hstray : ∀ w ∈ c.session.answered.map (Exchange.sent server docRoot), w.stray = [] := by
    intro w hw
    obtain ⟨e, he, rfl⟩ := List.mem_map.mp hw
    exact (stray_eq_nil_iff server docRoot e).mpr (hanswerable e he)
  have hread := readResponses_found hstray torn
  rw [← hwritten, List.map_map, List.map_map] at hread
  exact ⟨torn, hread, htorn⟩

theorem Ok.served (h : Ok docRoot c)
    (hreaches : Reaches (sessionStep server docRoot) (fun _ _ => True) run c.session) :
    Served server docRoot c where
  inOrder := by
    refine List.IsPrefix.trans ?_ h.inOrder
    rw [begun]
    split
    · rw [List.map_append]
      exact List.prefix_append _ _
    · exact List.prefix_rfl
  kept := by
    intro e he
    by_cases hshut : c.session.phase = .shut
    · rcases h.shut hshut with ⟨es, last, heq, hkept, -⟩ | ⟨-, -, hkept⟩
      · rw [heq, List.dropLast_concat] at he
        exact hkept e he
      · exact hkept e (List.mem_of_mem_dropLast he)
    · exact h.kept hshut e (List.mem_of_mem_dropLast he)
  ended := h.shut
  found := found_of_reaches hreaches

/-- An exception leaves a handler at the end of a stream only. -/
theorem through_of_escaped (h : Reachable server docRoot s) {e : SystemError}
    (he : s.escaped = some e) : ∃ c ∈ s.conns, c.Through docRoot := by
  cases h with
  | start => cases he
  | @next s₀ _ a run _ hstep =>
      cases a with
      | onAccept ec =>
          obtain ⟨hrunning, heq⟩ := Option.ite_none_right_eq_some.mp hstep
          rw [← Option.some.inj heq, Server.onAccept] at he
          split at he
          · cases hrunning.symm.trans he
          · cases hrunning.symm.trans he
      | connection k b =>
          obtain ⟨-, c, c', hc, hmove, hconns, hthrown⟩ := step_connection hstep
          have hok := ok_of_reaches (conn_reaches run (List.mem_of_getElem? hc))
          have hmem : c' ∈ s.conns := by
            rw [hconns]
            exact List.mem_set (List.getElem?_eq_some_iff.mp hc).1 c'
          refine ⟨c', hmem, ?_⟩
          have hthrows := hthrown e he
          -- no other handler uses an operation that throws
          cases moves_of_step hmove with
          | ends hreading hfinished hlast shutdown =>
              rcases (hok.ends hreading hfinished hlast).shut rfl with ⟨es, e, heq, -, hcloses⟩ | h'
              -- behind a closing answer nothing is read
              · have hmem : e ∈ c.session.answered := by
                  rw [heq]
                  exact List.mem_concat_self
                exact absurd hcloses (hok.kept (hreading ▸ Phase.noConfusion) e hmem)
              · exact h'
          | asks _ _ => cases hthrows
          | finishes _ => cases hthrows
          | reads _ _ _ => cases hthrows
          | readFails _ => cases hthrows
          | answers _ => cases hthrows
          | writeFails _ _ => cases hthrows

end Runs

/-- **SERVED**: in every run, whatever the other clients do, each client gets
    the answers to its requests in order; and when the server comes down, then
    at the end of a connection that was answered in full. -/
theorem requests_served {s : Server} (h : Reachable server docRoot s) :
    (∀ c ∈ s.conns, Served server docRoot c) ∧
      ∀ e, s.escaped = some e → ∃ c ∈ s.conns, c.Through docRoot := by
  refine ⟨fun c hc => ?_, fun e he => through_of_escaped h he⟩
  have hreaches := conn_reaches h hc
  exact (ok_of_reaches hreaches).served (session_reaches hreaches)

end Server

/-- A client asks for a file and has the connection closed with the next answer;
    another sends what is no request for a file, and shuts down. -/
def twoClients (shutdown : Acceptor.ErrorCode) : List Action :=
  [.onAccept 0, .connection 0 (.ask getFile.req), .connection 0 (.ask headEmpty.req), .onAccept 0,
    .connection 0 (.onRead hi), .connection 1 (.ask { getFile.req with method := .other 3 }),
    .connection 1 (.onRead hi), .connection 1 .onWrite, .connection 0 .onWrite,
    .connection 1 .finish, .connection 0 (.onRead empty), .connection 0 .onWrite,
    .connection 1 (.endOfStream shutdown)]

/-- The second is gone when its session shuts down. -/
theorem requests_served_two_clients : ∃ s,
    guardedRun (step beast (text "/srv")) (fun _ _ => True) Server.start (twoClients 107) = some s ∧
    (∀ c ∈ s.conns, Served beast (text "/srv") c) ∧ ∃ c ∈ s.conns, c.Through (text "/srv") := by
  have hrun : (guardedRun (step beast (text "/srv")) (fun _ _ => True) Server.start
      (twoClients 107)).map Server.escaped = some (some ⟨107⟩) := by
    decide +kernel
  obtain ⟨s, hs, hescaped⟩ := Option.map_eq_some_iff.mp hrun
  obtain ⟨hserved, hthrough⟩ := requests_served beast (text "/srv") (reaches_of_guardedRun hs)
  exact ⟨s, hs, hserved, hthrough _ hescaped⟩

section Server

variable (server : Line) (docRoot : Bytes)

/-! ## Where a run comes to its end -/

/-- What a connection still has before it: two handlers for each request that
    is not answered, less the read of the one that is being answered, and the
    read behind them. -/
def Conn.load (c : Conn) : Nat :=
  let left := 2 * (c.asked.length - c.session.answered.length)
  match c.session.phase with
  | .reading => left + 1
  | .writing _ => left
  | .shut => 0
  | .dropped => 0

def Server.load (s : Server) : Nat := (s.conns.map Conn.load).sum

/-- What the clients and the network cost. -/
def Action.cost : Action → Nat
  | .onAccept _ => 2
  | .connection _ (.ask _) => 3
  | .connection _ .finish => 1
  | .connection _ _ => 0

/-- The handlers of a session, where nothing fails. -/
def ConnAction.goesOn : ConnAction → Bool
  | .onRead _ => true
  | .endOfStream _ => true
  | .onWrite => true
  | _ => false

/-- No session goes on by itself. -/
def Settled (s : Server) : Prop :=
  ∀ k a, a.goesOn = true → step server docRoot s (.connection k a) = none

section Ends

variable {server docRoot} {s s' : Server} {c c' : Conn}

/-- The request that is being answered is not answered yet. -/
theorem Ok.writing_lt (h : Ok docRoot c) {e : Exchange} (hwriting : c.session.phase = .writing e) :
    c.session.answered.length < c.asked.length := by
  have hle := h.inOrder.length_le
  -- the invariant has a place for it behind those that are answered
  rw [begun_of_writing hwriting, List.length_map, List.length_append, List.length_singleton] at hle
  exact hle

theorem load_step (h : Ok docRoot c) {a : ConnAction} {k : Nat}
    (hstep : c.step server docRoot a = some c') :
    c'.load + 1 ≤ c.load + (Action.connection k a).cost := by
  cases moves_of_step hstep with
  | asks hsending req =>
      have hone : (c.asked ++ [req]).length = c.asked.length + 1 := List.length_append
      cases hphase : c.session.phase with
      | reading =>
          simp only [Conn.load, Action.cost, hphase, hone]
          omega
      | writing e =>
          simp only [Conn.load, Action.cost, hphase, hone]
          omega
      | shut =>
          simp only [Conn.load, Action.cost, hphase]
          omega
      | dropped =>
          simp only [Conn.load, Action.cost, hphase]
          omega
  | finishes hsending => exact Nat.le_refl _
  | reads hreading hnext files =>
      simp only [Conn.load, Action.cost, hreading]
      omega
  | ends hreading hfinished hlast shutdown =>
      simp only [Conn.load, Action.cost, hreading]
      omega
  | readFails hreading =>
      simp only [Conn.load, Action.cost, hreading]
      omega
  | answers hwriting =>
      have hlt := h.writing_lt hwriting
      simp only [Conn.load, Action.cost, hwriting, List.length_append, List.length_singleton]
      split
      · omega
      · omega
      · omega
      · omega
  | writeFails hwriting n =>
      have hlt := h.writing_lt hwriting
      simp only [Conn.load, Action.cost, hwriting]
      omega

/-- Every connection keeps what holds of it alone. -/
theorem ok_step {a : Action} (h : ∀ c ∈ s.conns, Ok docRoot c)
    (hstep : step server docRoot s a = some s') : ∀ c ∈ s'.conns, Ok docRoot c := by
  intro c' hc'
  obtain ⟨k, hk⟩ := List.mem_iff_getElem?.mp hc'
  rcases conn_of_step hstep hk with hsame | rfl | ⟨c, b, hold, hmove⟩
  · exact h c' (List.mem_of_getElem? hsame)
  · exact ok_accepted
  · exact (h c (List.mem_of_getElem? hold)).step hmove

theorem server_load_step {a : Action} (h : ∀ c ∈ s.conns, Ok docRoot c)
    (hstep : step server docRoot s a = some s') : s'.load + 1 ≤ s.load + a.cost := by
  cases a with
  | onAccept ec =>
      obtain ⟨-, heq⟩ := Option.ite_none_right_eq_some.mp hstep
      rw [← Option.some.inj heq, Server.onAccept]
      split
      · exact Nat.add_le_add_left (Nat.le_succ 1) _
      · have hone : Server.load { s with conns := s.conns ++ [.accepted] } = s.load + 1 := by
          rw [Server.load, List.map_append, List.sum_append]
          rfl
        rw [hone]
        exact Nat.le_refl _
  | connection k b =>
      obtain ⟨-, c, c', hc, hmove, hconns, -⟩ := step_connection hstep
      have hone := load_step (h c (List.mem_of_getElem? hc)) (k := k) hmove
      have hsum := sum_map_set hc c' Conn.load
      rw [Server.load, Server.load, hconns]
      omega

/-- A connection where nothing goes on. -/
theorem Settled.conn_cases (hsettled : Settled server docRoot s) (hrunning : s.escaped = none)
    (h : Ok docRoot c) (hc : c ∈ s.conns) :
    c.session.phase = .dropped ∨ c.Closed docRoot ∨
      c.session.answered.map Exchange.req = c.asked ∧
        (c.session.phase = .shut ↔ c.finished = true) := by
  obtain ⟨k, hk⟩ := List.mem_iff_getElem?.mp hc
  have hnone : ∀ a : ConnAction, a.goesOn = true → c.step server docRoot a = none := by
    intro a ha
    have hstep := hsettled k a ha
    rw [step, if_pos hrunning, hk] at hstep
    exact Option.map_eq_none_iff.mp hstep
  cases hphase : c.session.phase with
  | dropped => exact .inl rfl
  | shut =>
      rcases h.shut hphase with hclosed | ⟨hfinished, hall, -⟩
      · exact .inr (.inl hclosed)
      · exact .inr (.inr ⟨hall, iff_of_true rfl hfinished⟩)
  | writing e =>
      have hstep := hnone .onWrite rfl
      rw [Conn.step, Conn.step.go, sessionStep.eq_def, hphase] at hstep
      cases hstep
  | reading =>
      -- it has read all there was, and the client may still send
      have hlast : c.next = none := by
        refine Option.eq_none_iff_forall_ne_some.mpr fun req hnext => ?_
        have hstep := hnone (.onRead empty) rfl
        simp only [Conn.step, hnext, Conn.step.go, sessionStep.eq_def, hphase] at hstep
        cases hstep
      have hopen : c.finished = false := by
        refine Bool.eq_false_iff.mpr fun hfinished => ?_
        have hstep := hnone (.endOfStream 0) rfl
        rw [Conn.step, if_pos ⟨hfinished, hlast⟩, Conn.step.go, sessionStep.eq_def, hphase] at hstep
        cases hstep
      have hfirst := h.inOrder
      rw [begun_of_not_writing fun e he => Phase.noConfusion (hphase.symm.trans he)] at hfirst
      have hle := List.getElem?_eq_none_iff.mp hlast
      rw [← List.length_map (f := Exchange.req)] at hle
      exact .inr (.inr ⟨hfirst.eq_of_length_le hle,
        iff_of_false Phase.noConfusion (Bool.eq_false_iff.mp hopen)⟩)

/-- Nothing goes on where there is nothing to do. -/
theorem settled_of_load (h : Reachable server docRoot s) (hload : s.load = 0) :
    Settled server docRoot s := by
  intro k a ha
  have hcost : (Action.connection k a).cost = 0 := by
    cases a with
    | ask req => cases ha
    | finish => cases ha
    | _ => rfl
  refine Option.eq_none_iff_forall_ne_some.mpr fun s' hstep => ?_
  have hlt := server_load_step (fun c hc => ok_of_reaches (conn_reaches h hc)) hstep
  omega

end Ends

/-- **EVERY REQUEST COMES TO ITS END**: a run takes no more than two steps for a
    connection, three for a request and one for its client's shutdown; and
    where no session goes on, each has answered all requests, or shut down with
    the last answer, or was given up. -/
theorem requests_end {as : List Action} {s : Server}
    (h : guardedRun (step server docRoot) (fun _ _ => True) Server.start as = some s) :
    as.length + s.load ≤ (as.map Action.cost).sum ∧
      (Settled server docRoot s → s.escaped = none → ∀ c ∈ s.conns,
        c.session.phase = .dropped ∨ c.Closed docRoot ∨
          c.session.answered.map Exchange.req = c.asked ∧
            (c.session.phase = .shut ↔ c.finished = true)) := by
  refine ⟨?_, fun hsettled hrunning c hc => ?_⟩
  · have hstep : ∀ (s : Server) (a : Action) (s' : Server), (∀ c ∈ s.conns, Ok docRoot c) → True →
        step server docRoot s a = some s' →
        (∀ c ∈ s'.conns, Ok docRoot c) ∧ s'.load + 1 ≤ s.load + a.cost :=
      fun s a s' hok _ htaken => ⟨ok_step hok htaken, server_load_step hok htaken⟩
    have hbound := length_of_guardedRun_over hstep as Server.start s
      (fun c hc => absurd hc List.not_mem_nil) h
    exact Nat.le_trans hbound (Nat.le_of_eq (Nat.zero_add _))
  · have hok := ok_of_reaches (conn_reaches (reaches_of_guardedRun h) hc)
    exact hsettled.conn_cases hrunning hok hc

end Server

theorem requests_end_two_clients : ∃ s,
    guardedRun (step beast (text "/srv")) (fun _ _ => True) Server.start (twoClients 0) = some s ∧
    (twoClients 0).length ≤ 14 ∧ ∀ c ∈ s.conns,
      c.session.phase = .dropped ∨ c.Closed (text "/srv") ∨
        c.session.answered.map Exchange.req = c.asked ∧
          (c.session.phase = .shut ↔ c.finished = true) := by
  have hrun : (guardedRun (step beast (text "/srv")) (fun _ _ => True) Server.start
      (twoClients 0)).map (fun s => (s.load, s.escaped)) = some (0, none) := by
    decide +kernel
  obtain ⟨s, hs, hview⟩ := Option.map_eq_some_iff.mp hrun
  obtain ⟨hload, hescaped⟩ := Prod.mk.inj hview
  obtain ⟨hlength, hends⟩ := requests_end beast (text "/srv") hs
  have hsettled := settled_of_load (reaches_of_guardedRun hs) hload
  exact ⟨s, hs, Nat.le_trans (Nat.le_add_right _ _) hlength, hends hsettled hescaped⟩

end HttpServer
