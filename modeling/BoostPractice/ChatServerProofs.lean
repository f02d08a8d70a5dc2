import BoostPractice.AcceptorProofs
import BoostPractice.SharedBufferSendProofs

/-! # The chat server and the owners of its sessions

    `boost_server` keeps its sessions in `sessions_` and hands every message of
    one to the others.  A `session` reads through a handler bound to its raw
    `this`, and writes through handlers bound to `shared_from_this()`.  After a
    read that failed and after a write that failed it calls `disCb_`, which
    takes it out of `sessions_`.

    The handlers of one session run one after the other, on its strand; those
    of different sessions and `on_accept` run beside each other.  A step is the
    begin of a handler, or what it does up to its next access to what the
    sessions share.

    `outlives_iff` says which steps leave a session without an owner while its
    read is outstanding or its `on_read` runs. -/

namespace ChatServer

open BoostBuffer PrefixReader ChatReader GuardedRun
open Acceptor (ErrorCode SystemError Next OnAccept Entries throwing eof entries_nil)
open SharedBufferSend (sessionSendMessage)

/-! ## The sessions -/

/-- What runs on the strand of a session. -/
inductive Handler where
  | idle
  /-- `on_read`, with the messages that are still to be handed to `messageCb_`,
      and `inputBuffer_` behind them. -/
  | reading (messages : List Bytes) (rest : Except Misuse Buffer)
  /-- `on_session_message`, at the entry `it` of `sessions_`. -/
  | sending (it : Nat) (message : Bytes) (messages : List Bytes) (rest : Except Misuse Buffer)
  /-- `on_read` with an error, before `disCb_` and behind it. -/
  | readFailed
  | readReturns
  /-- `on_write` with an error, likewise. -/
  | writeFailed
  | writeReturns

def Handler.isRead : Handler → Bool
  | .reading _ _ => true
  | .sending _ _ _ _ => true
  | .readFailed => true
  | .readReturns => true
  | _ => false

def Handler.isWrite : Handler → Bool
  | .writeFailed => true
  | .writeReturns => true
  | _ => false

/-- A `session`: whether its `async_read_some` is outstanding, how many of its
    writes are, what runs on its strand, and its buffers. -/
structure Session where
  waiting : Bool
  writes : Nat
  handler : Handler
  inputBuffer : Buffer
  outputBuffer : Buffer

/-- A session after `run()`. -/
def Session.run : Session :=
  ⟨true, 0, .idle, Buffer.new kInitialSize, Buffer.new kInitialSize⟩

/-- A handler bound to the raw `this` is outstanding or executing. -/
def Session.readPending (p : Session) : Bool := p.waiting || p.handler.isRead

/-! ## The server -/

/-- `on_accept`, `sessions_`, every session that was made, named by its
    position, and whether an exception or an assertion has ended the
    program. -/
structure Server where
  onAccept : OnAccept
  sessions : List Nat
  made : List Session
  ended : Bool

/-- The server after `start()`. -/
def Server.start : Server := ⟨.armed, [], [], false⟩

/-- Who has a `shared_ptr` to a session: an entry of `sessions_`, the local of
    `on_accept`, the handler of an outstanding write, and the one that is
    running. -/
inductive Holder where
  | sessions
  | onAccept
  | write
  | running
  deriving DecidableEq

def holders (s : Server) (k : Nat) (p : Session) : List Holder :=
  List.replicate (s.sessions.count k) .sessions ++
    (if s.onAccept = .registering k then [.onAccept] else []) ++
    List.replicate p.writes .write ++
    if p.handler.isWrite then [.running] else []

/-- **OUTLIVES**: a session whose read is outstanding or executing has an
    owner. -/
def Outlives (s : Server) : Prop :=
  ∀ (k : Nat) (p : Session), s.made[k]? = some p → p.readPending = true → holders s k p ≠ []

/-- `boost_server::on_accept`, up to the start of the session. -/
def onAccept (ec remoteEndpoint : ErrorCode) : Except SystemError Next :=
  if ec ≠ 0 then pure .leave
  else do
    throwing remoteEndpoint
    pure .startSession

inductive Action where
  /-- An accept completes; `remote_endpoint()` may fail. -/
  | onAccept (ec remoteEndpoint : ErrorCode)
  /-- `sessions_.push_back(std::move(sessionPtr))`. -/
  | register
  | start
  /-- A read or a write of the `k`-th session completes. -/
  | onRead (k : Nat) (ec : ErrorCode) (bytes : Bytes)
  | onWrite (k : Nat) (ec : ErrorCode) (bytes : Nat)
  /-- The handler of the `k`-th session goes on. -/
  | go (k : Nat)

/-- The `k`-th session comes to another state. -/
def Server.update (s : Server) (k : Nat) (p : Session) : Server :=
  { s with made := s.made.set k p }

def Server.fail (s : Server) : Server := { s with ended := true }

/-- `session::sendMessage` of the `j`-th session. -/
def Server.sendMessage (s : Server) (j : Nat) (message : Bytes) : Server :=
  match s.made[j]? with
  | none => s.fail
  | some q =>
      match sessionSendMessage q.outputBuffer message with
      | none => s.fail
      | some b => s.update j { q with outputBuffer := b, writes := q.writes + 1 }

/-- `boost_server::on_session_disconnect`. -/
def Server.onSessionDisconnect (s : Server) (k : Nat) : Server :=
  { s with sessions := s.sessions.erase k }

/-- `session::on_read`, up to the first message or `disCb_`. -/
def Session.onRead (p : Session) (ec : ErrorCode) (bytes : Bytes) : Session :=
  if ec ≠ 0 then { p with waiting := false, handler := .readFailed }
  else
    let (messages, rest) := sessionOnRead p.inputBuffer bytes
    { p with waiting := false, handler := .reading messages rest }

/-- `session::on_write`, up to `disCb_` or its end; nothing if an assertion
    fails.  The rest is written with another handler that holds the session. -/
def Session.onWrite (p : Session) (ec : ErrorCode) (bytes : Nat) : Option Session :=
  if ec ≠ 0 then some { p with writes := p.writes - 1, handler := .writeFailed }
  else
    match p.outputBuffer.retrieve bytes with
    | none => none
    | some b =>
        if b.readableBytes > 0 then some { p with outputBuffer := b }
        else some { p with outputBuffer := b, writes := p.writes - 1 }

/-- What the handler of the `k`-th session does next. -/
def Server.go (s : Server) (k : Nat) (p : Session) : Option Server :=
  match p.handler with
  | .idle => none
  -- a string that is too long, or an assertion of the buffer
  | .reading [] (.error _) => some s.fail
  | .reading [] (.ok b) =>
      -- `do_read`
      some (s.update k { p with waiting := true, handler := .idle, inputBuffer := b })
  | .reading (message :: messages) rest =>
      some (s.update k { p with handler := .sending 0 message messages rest })
  | .sending it message messages rest =>
      match s.sessions[it]? with
      -- `it == sessions_.end()`: the loop of `on_read` goes on
      | none => some (s.update k { p with handler := .reading messages rest })
      | some j =>
          let s := if j = k then s else s.sendMessage j message
          some (s.update k { p with handler := .sending (it + 1) message messages rest })
  | .readFailed => some ((s.onSessionDisconnect k).update k { p with handler := .readReturns })
  | .readReturns => some (s.update k { p with handler := .idle })
  | .writeFailed => some ((s.onSessionDisconnect k).update k { p with handler := .writeReturns })
  | .writeReturns => some (s.update k { p with handler := .idle })

/-- A step of the `k`-th session.  One without an owner has been destroyed, and
    what its handlers do is undefined. -/
def Server.session (s : Server) (k : Nat) (act : Session → Option Server) : Option Server :=
  match s.made[k]? with
  | none => none
  | some p => if holders s k p = [] then none else act p

/-- One step; nothing if it cannot happen, or the program has ended. -/
def step (s : Server) (a : Action) : Option Server :=
  if s.ended then none
  else
    match a with
    | .onAccept ec remoteEndpoint =>
        if s.onAccept = .armed then
          match onAccept ec remoteEndpoint with
          | .ok .startSession =>
              some { s with onAccept := .registering s.made.length, made := s.made ++ [.run] }
          | .ok _ => some { s with onAccept := .returned }
          | .error _ => some s.fail
        else none
    | .register =>
        match s.onAccept with
        | .registering k => some { s with onAccept := .finishing, sessions := s.sessions ++ [k] }
        | _ => none
    | .start => if s.onAccept = .finishing then some { s with onAccept := .armed } else none
    | .onRead k ec bytes =>
        s.session k fun p =>
          match p.handler with
          | .idle => if p.waiting then some (s.update k (p.onRead ec bytes)) else none
          | _ => none
    | .onWrite k ec bytes =>
        s.session k fun p =>
          match p.handler with
          | .idle =>
              if 0 < p.writes then
                match p.onWrite ec bytes with
                | some p' => some (s.update k p')
                | none => some s.fail
              else none
          | _ => none
    | .go k => s.session k (s.go k)

/-! ## Which steps leave an owner -/

/-- What goes on in a handler of a session whose owners are at stake. -/
def Server.MayGo (s : Server) (k : Nat) (p : Session) : Handler → Prop
  | .readFailed => s.onAccept = .registering k ∨ 0 < p.writes
  | .writeReturns => p.waiting = true → k ∈ s.sessions ∨ s.onAccept = .registering k ∨ 0 < p.writes
  | _ => True

/-- **THE READ ENDS FIRST**: `on_read` calls `disCb_` while a write of its
    session is outstanding, or `on_accept` has not let go of it; and the last
    write handler of a session that is not in `sessions_` ends when its read is
    not outstanding. -/
def ReadEndsFirst (s : Server) : Action → Prop
  | .onWrite k ec bytes => ∀ p ∈ s.made[k]?,
      p.waiting = true → ec = 0 → bytes = p.outputBuffer.readableBytes →
        k ∈ s.sessions ∨ s.onAccept = .registering k ∨ 1 < p.writes
  | .go k => ∀ p ∈ s.made[k]?, s.MayGo k p p.handler
  | _ => True

instance (s : Server) (k : Nat) (p : Session) (h : Handler) : Decidable (s.MayGo k p h) :=
  match h with
  | .readFailed => inferInstanceAs (Decidable (_ ∨ _))
  | .writeReturns => inferInstanceAs (Decidable (_ → _))
  | .idle => isTrue trivial
  | .reading _ _ => isTrue trivial
  | .sending _ _ _ _ => isTrue trivial
  | .readReturns => isTrue trivial
  | .writeFailed => isTrue trivial

instance (s : Server) (a : Action) : Decidable (ReadEndsFirst s a) :=
  match a with
  | .onWrite _ _ _ => inferInstanceAs (Decidable (∀ p ∈ (_ : Option Session), _))
  | .go _ => inferInstanceAs (Decidable (∀ p ∈ (_ : Option Session), _))
  | .onAccept _ _ => isTrue trivial
  | .register => isTrue trivial
  | .start => isTrue trivial
  | .onRead _ _ _ => isTrue trivial

/-! ## Owners -/

theorem holders_ne_nil_iff {s : Server} {k : Nat} {p : Session} :
    holders s k p ≠ [] ↔ k ∈ s.sessions ∨ s.onAccept = .registering k ∨ 0 < p.writes ∨
      p.handler.isWrite = true := by
  rw [holders, ne_eq, List.append_eq_nil_iff, List.append_eq_nil_iff, List.append_eq_nil_iff,
    List.replicate_eq_nil_iff, List.replicate_eq_nil_iff, List.count_eq_zero]
  by_cases haccept : s.onAccept = .registering k
  · simp [haccept]
  · rw [if_neg haccept]
    by_cases hwrite : p.handler.isWrite = true
    · simp [hwrite]
    · rw [if_neg hwrite]
      simp only [haccept, hwrite]
      grind

section Update

variable {s s' : Server}

/-- A session took a step that takes no owner from the others: the question is
    what becomes of it. -/
theorem outlives_set_iff (h : Outlives s) {k : Nat} {p p' : Session}
    (hk : s.made[k]? = some p) (hmade : s'.made = s.made.set k p')
    (hothers : ∀ (j : Nat) (q : Session), j ≠ k → holders s j q ≠ [] → holders s' j q ≠ []) :
    Outlives s' ↔ (p'.readPending = true → holders s' k p' ≠ []) := by
  constructor
  · intro hs' hpending
    refine hs' k p' ?_ hpending
    rw [hmade]
    exact List.getElem?_set_self (List.getElem?_eq_some_iff.mp hk).1
  · intro hp' j q hj hpending
    rw [hmade] at hj
    rcases getElem?_of_set hj with ⟨rfl, rfl⟩ | ⟨hne, hj⟩
    · exact hp' hpending
    · exact hothers j q (Ne.symm hne) (h j q hj hpending)

theorem outlives_update_iff (h : Outlives s) {k : Nat} {p : Session} (hk : s.made[k]? = some p)
    (p' : Session) : Outlives (s.update k p') ↔
      (p'.readPending = true → holders (s.update k p') k p' ≠ []) :=
  outlives_set_iff h hk rfl fun _ _ _ hheld => hheld

/-- A session that leaves `sessions_` leaves the others there. -/
theorem outlives_disconnect_iff (h : Outlives s) {k : Nat} {p : Session}
    (hk : s.made[k]? = some p) (p' : Session) :
    Outlives ((s.onSessionDisconnect k).update k p') ↔
      (p'.readPending = true → holders ((s.onSessionDisconnect k).update k p') k p' ≠ []) := by
  refine outlives_set_iff h hk rfl ?_
  intro j q hne hheld
  rw [holders_ne_nil_iff] at hheld ⊢
  exact hheld.imp_left (List.mem_erase_of_ne hne).mpr

/-- A session that keeps its owners, and reads only if it did before. -/
theorem Outlives.update (h : Outlives s) {k : Nat} {p p' : Session} (hk : s.made[k]? = some p)
    (hpending : p'.readPending = true → p.readPending = true) (hwrites : p.writes ≤ p'.writes)
    (hhandler : p.handler.isWrite = true → p'.handler.isWrite = true) :
    Outlives (s.update k p') := by
  refine (outlives_update_iff h hk p').mpr fun hreads => ?_
  have hheld := holders_ne_nil_iff.mp (h k p hk (hpending hreads))
  rw [holders_ne_nil_iff]
  rcases hheld with hmem | haccept | hwrite | hruns
  · exact .inl hmem
  · exact .inr (.inl haccept)
  · exact .inr (.inr (.inl (Nat.lt_of_lt_of_le hwrite hwrites)))
  · exact .inr (.inr (.inr (hhandler hruns)))

theorem Outlives.sendMessage (h : Outlives s) (j : Nat) (message : Bytes) :
    Outlives (s.sendMessage j message) := by
  rw [Server.sendMessage]
  split
  · exact h
  · next q hq =>
      split
      · exact h
      · exact h.update hq id (Nat.le_succ _) id

theorem sendMessage_made {j k : Nat} (hne : j ≠ k) (message : Bytes) :
    (s.sendMessage j message).made[k]? = s.made[k]? := by
  rw [Server.sendMessage]
  split
  · rfl
  · split
    · rfl
    · exact List.getElem?_set_ne hne

end Update

/-! ## `sessions_` -/

/-- The entries of `sessions_` are sessions that were made, each once. -/
def Distinct (s : Server) : Prop := Entries s.onAccept s.sessions s.made.length

/-- What a step of a session does to the other members: it may take the session
    out of `sessions_`. -/
structure SessionStep (s s' : Server) (k : Nat) : Prop where
  onAccept : s'.onAccept = s.onAccept
  sessions : s'.sessions = s.sessions ∨ s'.sessions = s.sessions.erase k
  length : s'.made.length = s.made.length

section Distinct

variable {s s' : Server}

theorem sessionStep_update (k : Nat) (p : Session) : SessionStep s (s.update k p) k :=
  ⟨rfl, .inl rfl, List.length_set⟩

theorem sessionStep_fail (k : Nat) : SessionStep s s.fail k := ⟨rfl, .inl rfl, rfl⟩

theorem sendMessage_sessionStep (j k : Nat) (message : Bytes) :
    SessionStep s (s.sendMessage j message) k := by
  rw [Server.sendMessage]
  split
  · exact sessionStep_fail k
  · split
    · exact sessionStep_fail k
    · exact ⟨rfl, .inl rfl, List.length_set⟩

theorem go_sessionStep {k : Nat} {p : Session} (h : s.go k p = some s') : SessionStep s s' k := by
  obtain ⟨waiting, writes, handler, inputBuffer, outputBuffer⟩ := p
  cases handler with
  | idle => cases h
  | reading messages rest =>
      cases messages with
      | nil =>
          cases rest with
          | error misuse =>
              obtain rfl := Option.some.inj h
              exact sessionStep_fail k
          | ok b =>
              obtain rfl := Option.some.inj h
              exact sessionStep_update k _
      | cons message messages =>
          obtain rfl := Option.some.inj h
          exact sessionStep_update k _
  | sending it message messages rest =>
      dsimp only [Server.go] at h
      split at h
      · obtain rfl := Option.some.inj h
        exact sessionStep_update k _
      · next j _ =>
          obtain rfl := Option.some.inj h
          have hsend := sendMessage_sessionStep (s := s) j k message
          split
          · exact sessionStep_update k _
          · exact ⟨hsend.onAccept, hsend.sessions, List.length_set.trans hsend.length⟩
  | readFailed =>
      obtain rfl := Option.some.inj h
      exact ⟨rfl, .inr rfl, List.length_set⟩
  | readReturns =>
      obtain rfl := Option.some.inj h
      exact sessionStep_update k _
  | writeFailed =>
      obtain rfl := Option.some.inj h
      exact ⟨rfl, .inr rfl, List.length_set⟩
  | writeReturns =>
      obtain rfl := Option.some.inj h
      exact sessionStep_update k _

theorem Distinct.session (h : Distinct s) {k : Nat} (hstep : SessionStep s s' k) : Distinct s' := by
  have hsub : s'.sessions.Sublist s.sessions := by
    rcases hstep.sessions with heq | heq
    · rw [heq]
    · rw [heq]
      exact List.erase_sublist
  rw [Distinct, hstep.onAccept, hstep.length]
  exact Entries.sublist h hsub

end Distinct

/-! ## What each step can do -/

section Step

variable {s s' : Server}

theorem session_cases {k : Nat} {act : Session → Option Server} (h : s.session k act = some s') :
    ∃ p, s.made[k]? = some p ∧ holders s k p ≠ [] ∧ act p = some s' := by
  rw [Server.session] at h
  split at h
  · cases h
  · next p hp =>
      split at h
      · cases h
      · next hheld => exact ⟨p, hp, hheld, h⟩

theorem step_onAccept {ec remoteEndpoint : ErrorCode}
    (h : step s (.onAccept ec remoteEndpoint) = some s') : s.onAccept = .armed ∧
      (s' = { s with onAccept := .registering s.made.length, made := s.made ++ [.run] } ∨
        s' = { s with onAccept := .returned } ∨ s' = s.fail) := by
  rw [step] at h
  split at h
  · cases h
  · obtain ⟨harmed, heq⟩ := Option.ite_none_right_eq_some.mp h
    refine ⟨harmed, ?_⟩
    split at heq
    · exact .inl (Option.some.inj heq).symm
    · exact .inr (.inl (Option.some.inj heq).symm)
    · exact .inr (.inr (Option.some.inj heq).symm)

theorem step_register (h : step s .register = some s') : ∃ k, s.onAccept = .registering k ∧
    s' = { s with onAccept := .finishing, sessions := s.sessions ++ [k] } := by
  rw [step] at h
  split at h
  · cases h
  · split at h
    · next k hk => exact ⟨k, hk, (Option.some.inj h).symm⟩
    · cases h

theorem step_start (h : step s .start = some s') :
    s.onAccept = .finishing ∧ s' = { s with onAccept := .armed } := by
  rw [step] at h
  split at h
  · cases h
  · obtain ⟨hfinishing, heq⟩ := Option.ite_none_right_eq_some.mp h
    exact ⟨hfinishing, (Option.some.inj heq).symm⟩

theorem step_onRead {k : Nat} {ec : ErrorCode} {bytes : Bytes}
    (h : step s (.onRead k ec bytes) = some s') : ∃ p, s.made[k]? = some p ∧
      p.handler = .idle ∧ p.waiting = true ∧ s' = s.update k (p.onRead ec bytes) := by
  rw [step] at h
  split at h
  · cases h
  · obtain ⟨p, hp, -, heq⟩ := session_cases h
    split at heq
    · next hidle =>
        obtain ⟨hwaiting, heq⟩ := Option.ite_none_right_eq_some.mp heq
        exact ⟨p, hp, hidle, hwaiting, (Option.some.inj heq).symm⟩
    · cases heq

theorem step_onWrite {k : Nat} {ec : ErrorCode} {bytes : Nat}
    (h : step s (.onWrite k ec bytes) = some s') : ∃ p, s.made[k]? = some p ∧
      p.handler = .idle ∧ 0 < p.writes ∧
      ((∃ p', p.onWrite ec bytes = some p' ∧ s' = s.update k p') ∨
        p.onWrite ec bytes = none ∧ s' = s.fail) := by
  rw [step] at h
  split at h
  · cases h
  · obtain ⟨p, hp, -, heq⟩ := session_cases h
    split at heq
    · next hidle =>
        obtain ⟨hwrites, heq⟩ := Option.ite_none_right_eq_some.mp heq
        refine ⟨p, hp, hidle, hwrites, ?_⟩
        split at heq
        · next p' hp' => exact .inl ⟨p', hp', (Option.some.inj heq).symm⟩
        · next hnone => exact .inr ⟨hnone, (Option.some.inj heq).symm⟩
    · cases heq

theorem step_go {k : Nat} (h : step s (.go k) = some s') :
    ∃ p, s.made[k]? = some p ∧ holders s k p ≠ [] ∧ s.go k p = some s' := by
  rw [step] at h
  split at h
  · cases h
  · exact session_cases h

/-- What a write comes to for the writes that are outstanding. -/
theorem onWrite_cases {p p' : Session} {ec : ErrorCode} {bytes : Nat}
    (h : p.onWrite ec bytes = some p') :
    (ec ≠ 0 ∧ p' = { p with writes := p.writes - 1, handler := .writeFailed }) ∨
      ∃ b : Buffer, ec = 0 ∧
        (bytes < p.outputBuffer.readableBytes ∧ p' = { p with outputBuffer := b } ∨
          bytes = p.outputBuffer.readableBytes ∧
            p' = { p with outputBuffer := b, writes := p.writes - 1 }) := by
  rw [Session.onWrite] at h
  split at h
  · next hec => exact .inl ⟨hec, (Option.some.inj h).symm⟩
  · next hec =>
      cases hretrieve : p.outputBuffer.retrieve bytes with
      | none =>
          rw [hretrieve] at h
          cases h
      | some b =>
          have hle : bytes ≤ p.outputBuffer.readableBytes := by
            rw [← p.outputBuffer.retrieve_isSome_iff bytes, hretrieve]
            rfl
          obtain ⟨b', hb', hcontent⟩ := p.outputBuffer.retrieve_of_le hle
          obtain rfl := Option.some.inj (hb'.symm.trans hretrieve)
          have hleft : b'.readableBytes = p.outputBuffer.readableBytes - bytes := by
            rw [← b'.length_content, hcontent, List.length_drop, Buffer.length_content]
          rw [hretrieve] at h
          refine .inr ⟨b', of_not_not hec, ?_⟩
          dsimp only at h
          split at h
          · exact .inl ⟨by omega, (Option.some.inj h).symm⟩
          · exact .inr ⟨by omega, (Option.some.inj h).symm⟩

theorem onWrite_none {p : Session} {ec : ErrorCode} {bytes : Nat} (h : p.onWrite ec bytes = none) :
    p.outputBuffer.readableBytes < bytes := by
  rw [Session.onWrite] at h
  split at h
  · cases h
  · cases hretrieve : p.outputBuffer.retrieve bytes with
    | none =>
        rw [← Nat.not_le, ← p.outputBuffer.retrieve_isSome_iff bytes, hretrieve]
        exact Bool.false_ne_true
    | some b =>
        rw [hretrieve] at h
        dsimp only at h
        split at h <;> cases h

end Step

theorem Distinct.step {s s' : Server} (h : Distinct s) {a : Action} (hstep : step s a = some s') :
    Distinct s' := by
  cases a with
  | onAccept ec remoteEndpoint =>
      obtain ⟨-, rfl | rfl | rfl⟩ := step_onAccept hstep
      · rw [Distinct, List.length_append]
        exact Entries.begin h
      · exact Entries.move h nofun
      · exact h
  | register =>
      obtain ⟨k, hk, rfl⟩ := step_register hstep
      rw [Distinct, hk] at h
      exact Entries.register h
  | start =>
      obtain ⟨-, rfl⟩ := step_start hstep
      exact Entries.move h nofun
  | onRead k ec bytes =>
      obtain ⟨p, -, -, -, rfl⟩ := step_onRead hstep
      exact h.session (sessionStep_update k _)
  | onWrite k ec bytes =>
      obtain ⟨p, -, -, -, ⟨p', -, rfl⟩ | ⟨-, rfl⟩⟩ := step_onWrite hstep
      · exact h.session (sessionStep_update k _)
      · exact h.session (sessionStep_fail k)
  | go k =>
      obtain ⟨p, -, -, hgo⟩ := step_go hstep
      exact h.session (go_sessionStep hgo)

theorem distinct_of_reaches {C : Server → Action → Prop} {s : Server}
    (h : Reaches step C Server.start s) : Distinct s := by
  have hstart : Distinct Server.start := entries_nil
  exact h.invariant hstart fun t a t' ht _ hstep => ht.step hstep

/-! ## Which steps leave a session without an owner -/

section Outlives

variable {s s' : Server}

/-- The accept handler moves on, and every session keeps an owner. -/
theorem Outlives.move (h : Outlives s) (hmade : s'.made = s.made)
    (hheld : ∀ (k : Nat) (p : Session), holders s k p ≠ [] → holders s' k p ≠ []) :
    Outlives s' := by
  intro k p hk hpending
  rw [hmade] at hk
  exact hheld k p (h k p hk hpending)

theorem Outlives.accept (h : Outlives s) (harmed : s.onAccept = .armed) :
    Outlives { s with onAccept := .registering s.made.length, made := s.made ++ [.run] } := by
  intro k p hk hpending
  rw [holders_ne_nil_iff]
  rcases getElem?_concat_iff.mp hk with hold | ⟨rfl, -⟩
  · rcases holders_ne_nil_iff.mp (h k p hold hpending) with hmem | haccept | hrest
    · exact .inl hmem
    · cases harmed.symm.trans haccept
    · exact .inr (.inr hrest)
  · exact .inr (.inl rfl)

/-- An accept handler that holds no session moves on. -/
theorem Outlives.passes (h : Outlives s) (hnone : ∀ k, s.onAccept ≠ .registering k)
    (c : OnAccept) : Outlives { s with onAccept := c } := by
  refine h.move rfl ?_
  intro k p hheld
  rcases holders_ne_nil_iff.mp hheld with hmem | haccept | hrest
  · exact holders_ne_nil_iff.mpr (.inl hmem)
  · exact absurd haccept (hnone k)
  · exact holders_ne_nil_iff.mpr (.inr (.inr hrest))

theorem Outlives.register (h : Outlives s) {j : Nat} (hj : s.onAccept = .registering j) :
    Outlives { s with onAccept := .finishing, sessions := s.sessions ++ [j] } := by
  refine h.move rfl ?_
  intro k p hheld
  rw [holders_ne_nil_iff]
  rcases holders_ne_nil_iff.mp hheld with hmem | haccept | hrest
  · exact .inl (List.mem_append_left _ hmem)
  · obtain rfl := OnAccept.registering.inj (hj.symm.trans haccept)
    exact .inl (List.mem_append_right _ (List.mem_singleton_self j))
  · exact .inr (.inr hrest)

theorem Outlives.onRead (h : Outlives s) {k : Nat} {p : Session} (hk : s.made[k]? = some p)
    (hidle : p.handler = .idle) (hwaiting : p.waiting = true) (ec : ErrorCode) (bytes : Bytes) :
    Outlives (s.update k (p.onRead ec bytes)) := by
  have hpending : p.readPending = true := by rw [Session.readPending, hwaiting, Bool.true_or]
  have hnotWrite : p.handler.isWrite ≠ true := by
    rw [hidle]
    exact Bool.false_ne_true
  refine h.update hk (fun _ => hpending) ?_ (fun hwrite => absurd hwrite hnotWrite)
  rw [Session.onRead]
  split <;> exact Nat.le_refl _

/-- The end of a write, and an error in it. -/
theorem outlives_onWrite_iff (h : Outlives s) {k : Nat} {p p' : Session} {ec : ErrorCode}
    {bytes : Nat} (hk : s.made[k]? = some p) (hidle : p.handler = .idle)
    (hwrite : p.onWrite ec bytes = some p') :
    Outlives (s.update k p') ↔
      (p.waiting = true → ec = 0 → bytes = p.outputBuffer.readableBytes →
        k ∈ s.sessions ∨ s.onAccept = .registering k ∨ 1 < p.writes) := by
  have hiff := outlives_update_iff h hk p'
  rcases onWrite_cases hwrite with ⟨hec, rfl⟩ | ⟨b, hec, ⟨hlt, rfl⟩ | ⟨heq, rfl⟩⟩
  · -- the handler that is running holds the session
    refine iff_of_true (hiff.mpr fun _ => ?_) fun _ hzero => absurd hzero hec
    exact holders_ne_nil_iff.mpr (.inr (.inr (.inr rfl)))
  · exact iff_of_true (h.update hk id (Nat.le_refl _) id)
      fun _ _ heq => absurd heq (Nat.ne_of_lt hlt)
  · have hpending : Session.readPending { p with outputBuffer := b, writes := p.writes - 1 }
        = p.waiting := by
      rw [Session.readPending, hidle]
      exact Bool.or_false _
    have hnotWrite : p.handler.isWrite ≠ true := by
      rw [hidle]
      exact Bool.false_ne_true
    rw [hiff, hpending, holders_ne_nil_iff]
    constructor
    · intro hheld hwaiting _ _
      rcases hheld hwaiting with hmem | haccept | hwrites | hruns
      · exact .inl hmem
      · exact .inr (.inl haccept)
      · exact .inr (.inr (Nat.lt_of_sub_pos hwrites))
      · exact absurd hruns hnotWrite
    · intro hrule hwaiting
      rcases hrule hwaiting hec heq with hmem | haccept | hwrites
      · exact .inl hmem
      · exact .inr (.inl haccept)
      · exact .inr (.inr (.inl (Nat.sub_pos_of_lt hwrites)))

/-- A handler that goes on. -/
theorem outlives_go_iff (h : Outlives s) (hdistinct : Distinct s) {k : Nat} {p : Session}
    (hk : s.made[k]? = some p) (hheld : holders s k p ≠ []) (hgo : s.go k p = some s') :
    Outlives s' ↔ s.MayGo k p p.handler := by
  obtain ⟨waiting, writes, handler, inputBuffer, outputBuffer⟩ := p
  cases handler with
  | idle => cases hgo
  | reading messages rest =>
      refine iff_of_true ?_ trivial
      cases messages with
      | nil =>
          cases rest with
          | error misuse =>
              obtain rfl := Option.some.inj hgo
              exact h
          | ok b =>
              obtain rfl := Option.some.inj hgo
              exact h.update hk (fun _ => Bool.or_true _) (Nat.le_refl _) id
      | cons message messages =>
          obtain rfl := Option.some.inj hgo
          exact h.update hk id (Nat.le_refl _) id
  | sending it message messages rest =>
      refine iff_of_true ?_ trivial
      dsimp only [Server.go] at hgo
      split at hgo
      · obtain rfl := Option.some.inj hgo
        exact h.update hk id (Nat.le_refl _) id
      · next j _ =>
          obtain rfl := Option.some.inj hgo
          split
          · exact h.update hk id (Nat.le_refl _) id
          · next hne =>
              -- the session that is sent to gets an owner, and is another one
              refine (h.sendMessage j message).update ((sendMessage_made hne message).trans hk) id
                (Nat.le_refl _) id
  | readFailed =>
      obtain rfl := Option.some.inj hgo
      rw [outlives_disconnect_iff h hk, holders_ne_nil_iff]
      -- its only entry is erased, so that a write has to hold it, or `on_accept`
      have hgone : k ∉ s.sessions.erase k := (Entries.nodup hdistinct).not_mem_erase
      constructor
      · intro howned
        rcases howned (Bool.or_true _) with hmem | haccept | hwrites | hruns
        · exact absurd hmem hgone
        · exact .inl haccept
        · exact .inr hwrites
        · cases hruns
      · rintro (haccept | hwrites) -
        · exact .inr (.inl haccept)
        · exact .inr (.inr (.inl hwrites))
  | readReturns =>
      obtain rfl := Option.some.inj hgo
      exact iff_of_true (h.update hk (fun _ => Bool.or_true _) (Nat.le_refl _) id) trivial
  | writeFailed =>
      obtain rfl := Option.some.inj hgo
      refine iff_of_true ?_ trivial
      rw [outlives_disconnect_iff h hk]
      exact fun _ => holders_ne_nil_iff.mpr (.inr (.inr (.inr rfl)))
  | writeReturns =>
      obtain rfl := Option.some.inj hgo
      rw [outlives_update_iff h hk, holders_ne_nil_iff]
      have hpending : Session.readPending ⟨waiting, writes, .idle, inputBuffer, outputBuffer⟩
          = waiting := Bool.or_false _
      rw [hpending]
      constructor
      · intro howned hwaiting
        rcases howned hwaiting with hmem | haccept | hwrites | hruns
        · exact .inl hmem
        · exact .inr (.inl haccept)
        · exact .inr (.inr hwrites)
        · cases hruns
      · intro hrule hwaiting
        rcases hrule hwaiting with hmem | haccept | hwrites
        · exact .inl hmem
        · exact .inr (.inl haccept)
        · exact .inr (.inr (.inl hwrites))

/-- What the rule says of a step of the `k`-th session. -/
theorem readEndsFirst_onWrite_iff {k : Nat} {p : Session} (hk : s.made[k]? = some p)
    (ec : ErrorCode) (bytes : Nat) : ReadEndsFirst s (.onWrite k ec bytes) ↔
      (p.waiting = true → ec = 0 → bytes = p.outputBuffer.readableBytes →
        k ∈ s.sessions ∨ s.onAccept = .registering k ∨ 1 < p.writes) := by
  rw [ReadEndsFirst, hk]
  simp only [Option.mem_some_iff, forall_eq']

theorem readEndsFirst_go_iff {k : Nat} {p : Session} (hk : s.made[k]? = some p) :
    ReadEndsFirst s (.go k) ↔ s.MayGo k p p.handler := by
  rw [ReadEndsFirst, hk]
  simp only [Option.mem_some_iff, forall_eq']

/-- **EVERY STEP**: every session that reads still has an owner after a step
    that meets the rule, and after no other. -/
theorem outlives_step_iff (h : Outlives s) (hdistinct : Distinct s) {a : Action}
    (hstep : step s a = some s') : Outlives s' ↔ ReadEndsFirst s a := by
  cases a with
  | onAccept ec remoteEndpoint =>
      refine iff_of_true ?_ trivial
      obtain ⟨harmed, rfl | rfl | rfl⟩ := step_onAccept hstep
      · exact h.accept harmed
      · exact h.passes (fun k hk => nomatch harmed.symm.trans hk) .returned
      · exact h
  | register =>
      obtain ⟨k, hk, rfl⟩ := step_register hstep
      exact iff_of_true (h.register hk) trivial
  | start =>
      obtain ⟨hfinishing, rfl⟩ := step_start hstep
      exact iff_of_true (h.passes (fun k hk => nomatch hfinishing.symm.trans hk) .armed) trivial
  | onRead k ec bytes =>
      obtain ⟨p, hk, hidle, hwaiting, rfl⟩ := step_onRead hstep
      exact iff_of_true (h.onRead hk hidle hwaiting ec bytes) trivial
  | onWrite k ec bytes =>
      obtain ⟨p, hk, hidle, -, ⟨p', hwrite, rfl⟩ | ⟨hnone, rfl⟩⟩ := step_onWrite hstep
      · rw [readEndsFirst_onWrite_iff hk]
        exact outlives_onWrite_iff h hk hidle hwrite
      · refine iff_of_true h ((readEndsFirst_onWrite_iff hk ec bytes).mpr fun _ _ heq => ?_)
        exact absurd heq (Nat.ne_of_gt (onWrite_none hnone))
  | go k =>
      obtain ⟨p, hk, hheld, hgo⟩ := step_go hstep
      rw [readEndsFirst_go_iff hk]
      exact outlives_go_iff h hdistinct hk hheld hgo

end Outlives

/-- **A SESSION OUTLIVES ITS READS** in every run in which they end first, and
    the first other step leaves one behind that reads without an owner. -/
theorem outlives_iff {s : Server} (h : Reaches step ReadEndsFirst Server.start s) :
    Outlives s ∧ ∀ a s', step s a = some s' → (Outlives s' ↔ ReadEndsFirst s a) := by
  have houtlives : Outlives s := by
    refine h.invariant_over (I := Outlives) (fun t ht => distinct_of_reaches ht) nofun ?_
    intro t a t' hdistinct ht hrule hstep
    exact (outlives_step_iff ht hdistinct hstep).mpr hrule
  exact ⟨houtlives, fun a s' hstep => outlives_step_iff houtlives (distinct_of_reaches h) hstep⟩

/-- Two clients; the first has sent `h`, which is on its way to the second. -/
def broadcast : List Action :=
  [.onAccept 0 0, .register, .start, .onAccept 0 0, .register, .start,
    .onRead 0 0 [0, 0, 0, 1, 104], .go 0, .go 0, .go 0, .go 0, .go 0]

/-- The second goes away: its read fails first, and its write then. -/
theorem outlives_iff_going_away : ∃ s, Reaches step ReadEndsFirst Server.start s ∧
    s.sessions = [0] ∧ Outlives s ∧
      ∀ a s', step s a = some s' → (Outlives s' ↔ ReadEndsFirst s a) := by
  have hrun : (guardedRun step ReadEndsFirst Server.start
      (broadcast ++ [.onRead 1 eof [], .go 1, .go 1, .onWrite 1 32 0, .go 1, .go 1])).map
        Server.sessions = some [0] := by
    decide +kernel
  obtain ⟨s, hs, hend⟩ := exists_of_guardedRun hrun
  exact ⟨s, hs, hend, outlives_iff hs⟩

/-- A session that reads without an owner. -/
theorem not_outlives {s : Server} {k : Nat}
    (h : s.made[k]?.map (fun p => (p.readPending, holders s k p)) = some (true, [])) :
    ¬ Outlives s := by
  obtain ⟨p, hp, heq⟩ := Option.map_eq_some_iff.mp h
  obtain ⟨hpending, hnone⟩ := Prod.mk.inj heq
  exact fun houtlives => houtlives k p hp hpending hnone

/-- The write fails first: with the end of its handler the session is gone, and
    its read is outstanding.  And one client that only connects and goes away:
    `disCb_` destroys the session in its `on_read`. -/
theorem reads_left_behind :
    (∃ s, Reaches step (fun _ _ => True) Server.start s ∧
      s.made.map Session.waiting = [true, true] ∧ ¬ Outlives s) ∧
    ∃ s, Reaches step (fun _ _ => True) Server.start s ∧
      s.made.map Session.waiting = [false] ∧ ¬ Outlives s := by
  constructor
  · have hrun : (guardedRun step (fun _ _ => True) Server.start
        (broadcast ++ [.onWrite 1 32 0, .go 1, .go 1])).map
          (fun s => (s.made.map Session.waiting,
            s.made[1]?.map fun p => (p.readPending, holders s 1 p)))
        = some ([true, true], some (true, [])) := by
      decide +kernel
    obtain ⟨s, hs, hend⟩ := exists_of_guardedRun hrun
    obtain ⟨hwaiting, hgone⟩ := Prod.mk.inj hend
    exact ⟨s, hs, hwaiting, not_outlives hgone⟩
  · have hrun : (guardedRun step (fun _ _ => True) Server.start
        [.onAccept 0 0, .register, .start, .onRead 0 eof [], .go 0]).map
          (fun s => (s.made.map Session.waiting,
            s.made[0]?.map fun p => (p.readPending, holders s 0 p)))
        = some ([false], some (true, [])) := by
      decide +kernel
    obtain ⟨s, hs, hend⟩ := exists_of_guardedRun hrun
    obtain ⟨hwaiting, hgone⟩ := Prod.mk.inj hend
    exact ⟨s, hs, hwaiting, not_outlives hgone⟩

end ChatServer
