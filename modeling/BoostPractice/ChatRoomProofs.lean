import BoostPractice.ChatServerProofs

/-! # The chat room: a message of one is heard by all the others

    What `boost_server` is for.  Beside a run of the server a history is kept,
    read off the states before and after each step: the pieces each session
    read, the messages it handed to `on_session_message` with the entries of
    `sessions_` at that moment, the messages that went into the output buffer
    of another session and were issued, and what each session has written.

    `on_session_message` walks `sessions_` without `mutex_`.  As long as nobody
    enters or leaves while a message is being handed on, `every_message_sent_on`
    says what the room hears: of every message that the bytes of a session
    decode to, in order, one copy for each of the others, and none for the
    session itself. -/

namespace ChatServer

open BoostBuffer FrameDecoding PrefixReader ChatReader GuardedRun
open Acceptor (ErrorCode Entries)
open SharedBufferSend (sessionSendMessage)

/-! ## The history -/

/-- One `sendMessage`: the session whose message it is, the one that sends it,
    and the message. -/
structure Copy where
  speaker : Nat
  listener : Nat
  message : Bytes
  deriving DecidableEq

structure History where
  received : Nat → List Bytes
  begun : Nat → List (Bytes × List Nat)
  sends : List Copy
  wire : Nat → Bytes

def History.empty : History := ⟨fun _ => [], fun _ => [], [], fun _ => []⟩

/-- The message that is about to be handed to the first entry. -/
def Handler.beginning : Handler → Option Bytes
  | .sending 0 message _ _ => some message
  | _ => none

/-- The message that the `k`-th session has begun to hand on. -/
def Server.begins (s : Server) (k : Nat) : Option Bytes :=
  s.made[k]?.bind fun p => p.handler.beginning

/-- What the `j`-th session was given to send between two states: another
    write is issued, and the message is behind its length and what was unsent. -/
def Server.gave (s s' : Server) (j : Nat) : Option Bytes :=
  match s.made[j]?, s'.made[j]? with
  | some q, some q' =>
      if q.writes < q'.writes then
        some (q'.outputBuffer.content.drop (4 + q.outputBuffer.readableBytes))
      else none
  | _, _ => none

/-- The copies that a step of the `k`-th session has sent to any of them. -/
def Server.copies (s s' : Server) (k : Nat) : List Copy :=
  (List.range s.made.length).filterMap fun j => (s.gave s' j).map (Copy.mk k j)

/-- What the handler of the `k`-th session has done. -/
def History.goes (h : History) (s s' : Server) (k : Nat) : History :=
  { h with
    begun :=
      match s'.begins k with
      | some message => Function.update h.begun k (h.begun k ++ [(message, s.sessions)])
      | none => h.begun
    sends := h.sends ++ s.copies s' k }

/-- What a write has transferred is what `on_write` drops. -/
def History.writes (h : History) (s : Server) (k bytes : Nat) : History :=
  match s.made[k]? with
  | some p =>
      { h with wire :=
          Function.update h.wire k (h.wire k ++ p.outputBuffer.content.take bytes) }
  | none => h

def History.note (h : History) (s : Server) (a : Action) (s' : Server) : History :=
  match a with
  | .onWrite k ec bytes => if ec = 0 then h.writes s k bytes else h
  | .onRead k ec bytes =>
      if ec = 0 then
        { h with received := Function.update h.received k (h.received k ++ [bytes]) }
      else h
  | .go k => h.goes s s' k
  | _ => h

/-- What was sent on for the `k`-th session. -/
def History.sentOn (h : History) (k : Nat) : List (Nat × Bytes) :=
  (h.sends.filter fun c => c.speaker == k).map fun c => (c.listener, c.message)

/-- One copy of a message for each of the others. -/
def toOthers (k : Nat) (begun : Bytes × List Nat) : List (Nat × Bytes) :=
  (begun.2.filter (· ≠ k)).map fun j => (j, begun.1)

/-! ## Nobody enters or leaves meanwhile -/

def Handler.isSending : Handler → Bool
  | .sending _ _ _ _ => true
  | _ => false

def Handler.isIdle : Handler → Bool
  | .idle => true
  | _ => false

theorem Handler.eq_idle_of_isIdle {handler : Handler} (h : handler.isIdle = true) :
    handler = .idle := by
  cases handler with
  | idle => rfl
  | reading messages rest => cases h
  | sending it message messages rest => cases h
  | readFailed => cases h
  | readReturns => cases h
  | writeFailed => cases h
  | writeReturns => cases h

/-- The handler is about to call `disCb_`. -/
def Handler.isLeaving : Handler → Bool
  | .readFailed => true
  | .writeFailed => true
  | _ => false

/-- No message is being handed on. -/
def Server.Quiet (s : Server) : Prop := ∀ p ∈ s.made, p.handler.isSending = false

/-- `sessions_` is not changed while a message is being handed on. -/
def Undisturbed (s : Server) : Action → Prop
  | .register => s.Quiet
  | .go k => ∀ p ∈ s.made[k]?, p.handler.isLeaving = true → s.Quiet
  | _ => True

instance (s : Server) : Decidable s.Quiet := inferInstanceAs (Decidable (∀ p ∈ s.made, _))

instance (s : Server) (a : Action) : Decidable (Undisturbed s a) :=
  match a with
  | .register => inferInstanceAs (Decidable s.Quiet)
  | .go _ => inferInstanceAs (Decidable (∀ p ∈ (_ : Option Session), _))
  | .onAccept _ _ => isTrue trivial
  | .start => isTrue trivial
  | .onRead _ _ _ => isTrue trivial
  | .onWrite _ _ _ => isTrue trivial

/-- A run in an undisturbed room, and its history. -/
def Heard (s : Server) (h : History) : Prop :=
  Reaches (traced step History.note) (fun w a => Undisturbed w.1 a)
    (Server.start, History.empty) (s, h)

/-! ## What the history says of a session -/

/-- The messages that are still to be handed on, and what is behind them. -/
def Handler.pending : Handler → Buffer → List Bytes × Except Misuse Buffer
  | .reading messages rest, _ => (messages, rest)
  | .sending _ _ messages rest, _ => (messages, rest)
  | _, b => ([], .ok b)

/-- The messages that were begun and those still to come are what the reader
    made of the pieces. -/
def ReadSoFar (h : History) (k : Nat) (handler : Handler) (inputBuffer : Buffer) : Prop :=
  feed sessionOnRead (Buffer.new kInitialSize) (h.received k)
    = ((h.begun k).map Prod.fst ++ (handler.pending inputBuffer).1, (handler.pending inputBuffer).2)

/-- Every message begun was sent on to the others, the current one to those
    before `it`; but for a `sendMessage` that has ended the program. -/
def SentOn (sessions : List Nat) (ended : Bool) (h : History) (k : Nat) : Handler → Prop
  | .sending it message _ _ =>
      ∃ before n, h.begun k = before ++ [(message, sessions)] ∧ it ≤ sessions.length ∧
        (ended = false → n = it) ∧
        h.sentOn k = before.flatMap (toOthers k) ++ toOthers k (message, sessions.take n)
  | _ => h.sentOn k = (h.begun k).flatMap (toOthers k)

structure Room (s : Server) (h : History) : Prop where
  session : ∀ (k : Nat) (p : Session), s.made[k]? = some p →
    ReadSoFar h k p.handler p.inputBuffer ∧ SentOn s.sessions s.ended h k p.handler
  nobody : ∀ k, s.made.length ≤ k →
    h.received k = [] ∧ h.begun k = [] ∧ h.sentOn k = []

theorem room_start : Room Server.start History.empty where
  session := fun _ _ hp => nomatch hp
  nobody := fun _ _ => ⟨rfl, rfl, rfl⟩

/-! ## What is noted -/

section Noted

variable {s s' : Server} {h : History} {k j : Nat} {p p' q : Session}

theorem filterMap_range_eq_singleton {α : Type} {f : Nat → Option α} {a : α} {n j : Nat}
    (hj : j < n) (hf : f j = some a) (hothers : ∀ i, i ≠ j → f i = none) :
    (List.range n).filterMap f = [a] := by
  induction n with
  | zero => exact absurd hj (Nat.not_lt_zero j)
  | succ n ih =>
      rw [List.range_succ, List.filterMap_append]
      rcases Nat.lt_or_eq_of_le (Nat.le_of_lt_succ hj) with hlt | rfl
      · rw [ih hlt, List.filterMap_cons_none (hothers n (Nat.ne_of_gt hlt))]
        rfl
      · have hnone : (List.range j).filterMap f = [] := by
          refine List.filterMap_eq_nil_iff.mpr fun i hi => ?_
          exact hothers i (Nat.ne_of_lt (List.mem_range.mp hi))
        rw [hnone, List.filterMap_cons_some hf]
        rfl

/-- A session without another write was given nothing. -/
theorem gave_none (hwrites : ∀ q q', s.made[j]? = some q → s'.made[j]? = some q' →
    q'.writes = q.writes) : s.gave s' j = none := by
  rw [Server.gave]
  split
  · next q q' hq hq' => rw [if_neg (by rw [hwrites q q' hq hq']; exact Nat.lt_irrefl _)]
  · rfl

theorem writes_set (hp : s.made[k]? = some p) (hmade : s'.made = s.made.set k p')
    (hwrites : p'.writes = p.writes) (j : Nat) {q q' : Session} (hq : s.made[j]? = some q)
    (hq' : s'.made[j]? = some q') : q'.writes = q.writes := by
  rw [hmade] at hq'
  rcases getElem?_of_set hq' with ⟨rfl, rfl⟩ | ⟨-, hold⟩
  · rw [hwrites, Option.some.inj (hp.symm.trans hq)]
  · rw [Option.some.inj (hold.symm.trans hq)]

/-- A step that issues no write has sent nothing. -/
theorem copies_nil (hp : s.made[k]? = some p) (hmade : s'.made = s.made.set k p')
    (hwrites : p'.writes = p.writes) : s.copies s' k = [] := by
  refine List.filterMap_eq_nil_iff.mpr fun j _ => ?_
  rw [gave_none fun q q' hq hq' => writes_set hp hmade hwrites j hq hq']
  rfl

theorem begins_set (hp : s.made[k]? = some p) (hmade : s'.made = s.made.set k p') :
    s'.begins k = p'.handler.beginning := by
  rw [Server.begins, hmade, List.getElem?_set_self (List.getElem?_eq_some_iff.mp hp).1]
  rfl

/-- A step that begins no message and issues no write. -/
theorem goes_silent (hp : s.made[k]? = some p) (hmade : s'.made = s.made.set k p')
    (hwrites : p'.writes = p.writes) (hhandler : p'.handler.beginning = none) :
    h.goes s s' k = h := by
  rw [History.goes, begins_set hp hmade, hhandler, copies_nil hp hmade hwrites, List.append_nil]

/-- The program has ended, and nobody was given anything. -/
theorem goes_failed (hp : s.made[k]? = some p) (hhandler : p.handler.beginning = none) :
    h.goes s s.fail k = h := by
  obtain ⟨hlt, rfl⟩ := List.getElem?_eq_some_iff.mp hp
  have hmade : s.fail.made = s.made.set k s.made[k] := (List.set_getElem_self hlt).symm
  exact goes_silent hp hmade rfl hhandler

theorem goes_begins {message : Bytes} {messages : List Bytes} {rest : Except Misuse Buffer}
    (hp : s.made[k]? = some p) :
    h.goes s (s.update k { p with handler := .sending 0 message messages rest }) k
      = { h with begun := Function.update h.begun k (h.begun k ++ [(message, s.sessions)]) } := by
  let p' : Session := { p with handler := .sending 0 message messages rest }
  have hmade : (s.update k p').made = s.made.set k p' := rfl
  have hbegins : (s.update k p').begins k = some message := begins_set hp hmade
  rw [History.goes, hbegins, copies_nil hp hmade rfl, List.append_nil]

/-- **WHAT `sendMessage` GIVES** to a session is the message. -/
theorem gave_sendMessage {b : Buffer} {message : Bytes}
    (hb : sessionSendMessage q.outputBuffer message = some b) :
    b.content.drop (4 + q.outputBuffer.readableBytes) = message := by
  have hcontent := Buffer.content_prepend _ hb
  rw [hcontent, Buffer.content_append, ← List.append_assoc, List.drop_left']
  rw [List.length_append, MachineInt.length_int32Bytes, Buffer.length_content]

/-- A copy goes to another session, and the handler goes on. -/
theorem goes_sends {b : Buffer} {message : Bytes} (hp : s.made[k]? = some p)
    (hq : s.made[j]? = some q) (hjk : j ≠ k)
    (hb : sessionSendMessage q.outputBuffer message = some b) {handler : Handler}
    (hhandler : handler.beginning = none) :
    h.goes s ((s.update j { q with outputBuffer := b, writes := q.writes + 1 }).update k
        { p with handler := handler }) k
      = { h with sends := h.sends ++ [⟨k, j, message⟩] } := by
  have hltk := (List.getElem?_eq_some_iff.mp hp).1
  have hltj := (List.getElem?_eq_some_iff.mp hq).1
  generalize hs' : (s.update j { q with outputBuffer := b, writes := q.writes + 1 }).update k
    { p with handler := handler } = s'
  have hself : s'.made[k]? = some { p with handler := handler } := by
    rw [← hs']
    exact List.getElem?_set_self (by rw [Server.update, List.length_set]; exact hltk)
  have hother : s'.made[j]? = some { q with outputBuffer := b, writes := q.writes + 1 } := by
    rw [← hs']
    exact (List.getElem?_set_ne (Ne.symm hjk)).trans (List.getElem?_set_self hltj)
  have hbegins : s'.begins k = none := by
    rw [Server.begins, hself]
    exact hhandler
  have hgave : s.gave s' j = some message := by
    rw [Server.gave, hq, hother]
    simp only [Nat.lt_succ_self, if_true, gave_sendMessage hb]
  have hnone : ∀ i, i ≠ j → s.gave s' i = none := by
    intro i hij
    refine gave_none fun q₁ q₁' hq₁ hq₁' => ?_
    rw [← hs'] at hq₁'
    rcases getElem?_of_set hq₁' with ⟨rfl, rfl⟩ | ⟨-, hold⟩
    · rw [Option.some.inj (hp.symm.trans hq₁)]
    · have hsame : s.made[i]? = some q₁' := (List.getElem?_set_ne (Ne.symm hij)).symm.trans hold
      rw [Option.some.inj (hsame.symm.trans hq₁)]
  have hcopies : s.copies s' k = [⟨k, j, message⟩] :=
    filterMap_range_eq_singleton hltj (by rw [hgave]; rfl) fun i hi => by rw [hnone i hi]; rfl
  rw [History.goes, hbegins, hcopies]

end Noted

/-! ## Who is not concerned by a step -/

section Frame

variable {s s₁ s' : Server} {h h' : History}

/-- The sessions are the same ones, and are where they were in what they
    read. -/
def Alike (s s₁ : Server) : Prop :=
  s₁.made.length = s.made.length ∧
    ∀ (j : Nat) (q' : Session), s₁.made[j]? = some q' →
      ∃ q, s.made[j]? = some q ∧ q'.handler = q.handler ∧ q'.inputBuffer = q.inputBuffer

theorem alike_refl (s : Server) : Alike s s := ⟨rfl, fun _ q hq => ⟨q, hq, rfl, rfl⟩⟩

/-- A session that is sent to does not notice it in what it reads. -/
theorem alike_sendMessage (s : Server) (j : Nat) (message : Bytes) :
    Alike s (s.sendMessage j message) := by
  rw [Server.sendMessage]
  split
  · exact alike_refl s
  · next q hq =>
      split
      · exact alike_refl s
      · refine ⟨List.length_set, ?_⟩
        intro i q' hi
        rcases getElem?_of_set hi with ⟨rfl, rfl⟩ | ⟨-, hold⟩
        · exact ⟨q, hq, rfl, rfl⟩
        · exact ⟨q', hold, rfl, rfl⟩

/-- Only a message that is being handed on looks at `sessions_`. -/
theorem sentOn_of_quiet {sessions sessions' : List Nat} {ended ended' : Bool} {k : Nat}
    {handler : Handler} (hquiet : handler.isSending = false)
    (hsent : SentOn sessions ended h k handler) : SentOn sessions' ended' h k handler := by
  cases handler with
  | sending it message messages rest => cases hquiet
  | idle => exact hsent
  | reading messages rest => exact hsent
  | readFailed => exact hsent
  | readReturns => exact hsent
  | writeFailed => exact hsent
  | writeReturns => exact hsent

/-- While the program runs, what is noted of a session stays if its part of
    the history does. -/
theorem sentOn_frame {sessions : List Nat} {ended : Bool} {k : Nat} {handler : Handler}
    (hbegun : h'.begun k = h.begun k) (hsends : h'.sentOn k = h.sentOn k)
    (hsent : SentOn sessions false h k handler) : SentOn sessions ended h' k handler := by
  cases handler with
  | sending it message messages rest =>
      obtain ⟨before, n, hbefore, hit, hn, hcopies⟩ := hsent
      exact ⟨before, n, hbegun.trans hbefore, hit, fun _ => hn rfl, hsends.trans hcopies⟩
  | idle => exact hsends.trans (hbegun ▸ hsent)
  | reading messages rest => exact hsends.trans (hbegun ▸ hsent)
  | readFailed => exact hsends.trans (hbegun ▸ hsent)
  | readReturns => exact hsends.trans (hbegun ▸ hsent)
  | writeFailed => exact hsends.trans (hbegun ▸ hsent)
  | writeReturns => exact hsends.trans (hbegun ▸ hsent)

theorem readSoFar_frame {k : Nat} {handler : Handler} {b : Buffer}
    (hreceived : h'.received k = h.received k) (hbegun : h'.begun k = h.begun k)
    (hread : ReadSoFar h k handler b) : ReadSoFar h' k handler b := by
  rw [ReadSoFar, hreceived, hbegun]
  exact hread

/-- What was written is of no account here. -/
theorem Room.written (hroom : Room s h) (t t' : Server) (k n : Nat) (ec : ErrorCode) :
    Room s (h.note t (.onWrite k ec n) t') := by
  rw [History.note]
  split
  · rw [History.writes]
    split
    · exact ⟨hroom.session, hroom.nobody⟩
    · exact hroom
  · exact hroom

/-- **ONE SESSION GOES ON**: the others are where they were. -/
theorem Room.update (hroom : Room s h) (hlive : s.ended = false) {k : Nat} {p' : Session}
    (halike : Alike s s₁) (hk : k < s.made.length) (hmade : s'.made = s₁.made.set k p')
    (hothers : ∀ j, j ≠ k →
      h'.received j = h.received j ∧ h'.begun j = h.begun j ∧ h'.sentOn j = h.sentOn j)
    (hsessions : s'.sessions = s.sessions ∨ s.Quiet)
    (hself : ReadSoFar h' k p'.handler p'.inputBuffer ∧
      SentOn s'.sessions s'.ended h' k p'.handler) :
    Room s' h' where
  session := by
    intro j q' hj
    rw [hmade] at hj
    rcases getElem?_of_set hj with ⟨rfl, rfl⟩ | ⟨hne, hj⟩
    · exact hself
    · obtain ⟨q, hq, hhandler, hinput⟩ := halike.2 j q' hj
      obtain ⟨hreceived, hbegun, hsends⟩ := hothers j (Ne.symm hne)
      obtain ⟨hread, hsent⟩ := hroom.session j q hq
      rw [hlive] at hsent
      rw [hhandler, hinput]
      refine ⟨readSoFar_frame hreceived hbegun hread, sentOn_frame hbegun hsends ?_⟩
      rcases hsessions with hsame | hquiet
      · rw [hsame]
        exact hsent
      · exact sentOn_of_quiet (hquiet q (List.mem_of_getElem? hq)) hsent
  nobody := by
    intro j hj
    rw [hmade, List.length_set, halike.1] at hj
    obtain ⟨hreceived, hbegun, hsends⟩ := hothers j (by omega)
    rw [hreceived, hbegun, hsends]
    exact hroom.nobody j hj

/-- `on_accept` goes on, and the sessions stay. -/
theorem Room.move (hroom : Room s h) (hlive : s.ended = false) (hmade : s'.made = s.made)
    (hsessions : s'.sessions = s.sessions ∨ s.Quiet) : Room s' h where
  session := by
    intro j q hj
    rw [hmade] at hj
    obtain ⟨hread, hsent⟩ := hroom.session j q hj
    rw [hlive] at hsent
    refine ⟨hread, sentOn_frame rfl rfl ?_⟩
    rcases hsessions with hsame | hquiet
    · rw [hsame]
      exact hsent
    · exact sentOn_of_quiet (hquiet q (List.mem_of_getElem? hj)) hsent
  nobody := by
    rw [hmade]
    exact hroom.nobody

/-- A new session has read nothing. -/
theorem Room.accept (hroom : Room s h) (hlive : s.ended = false)
    (hmade : s'.made = s.made ++ [.run]) (hsessions : s'.sessions = s.sessions) : Room s' h where
  session := by
    intro j q hj
    rw [hmade] at hj
    rw [hsessions]
    rcases getElem?_concat_iff.mp hj with hold | ⟨rfl, rfl⟩
    · obtain ⟨hread, hsent⟩ := hroom.session j q hold
      rw [hlive] at hsent
      exact ⟨hread, sentOn_frame rfl rfl hsent⟩
    · obtain ⟨hreceived, hbegun, hsends⟩ := hroom.nobody s.made.length (Nat.le_refl _)
      refine ⟨?_, ?_⟩
      · rw [ReadSoFar, hreceived, hbegun]
        rfl
      · show h.sentOn s.made.length = (h.begun s.made.length).flatMap _
        rw [hsends, hbegun]
        rfl
  nobody := by
    intro j hj
    rw [hmade, List.length_append] at hj
    exact hroom.nobody j (by omega)

end Frame

/-! ## What a handler does -/

section Steps

variable {s s' : Server} {h : History}

theorem Room.onRead (hroom : Room s h) (hlive : s.ended = false) {k : Nat} {p : Session}
    (hp : s.made[k]? = some p) (hidle : p.handler = .idle) (ec : ErrorCode) (bytes : Bytes) :
    Room (s.update k (p.onRead ec bytes)) (h.note s (.onRead k ec bytes) s') := by
  have hlt := (List.getElem?_eq_some_iff.mp hp).1
  obtain ⟨hread, hsent⟩ := hroom.session k p hp
  rw [hidle] at hread hsent
  by_cases hec : ec = 0
  · have hnote : h.note s (.onRead k ec bytes) s'
        = { h with received := Function.update h.received k (h.received k ++ [bytes]) } :=
      if_pos hec
    have hhandler : p.onRead ec bytes = { p with
        waiting := false
        handler := .reading (sessionOnRead p.inputBuffer bytes).1
          (sessionOnRead p.inputBuffer bytes).2 } := if_neg (not_not_intro hec)
    rw [hnote, hhandler]
    refine hroom.update hlive (alike_refl s) hlt rfl ?_ (.inl rfl) ⟨?_, hsent⟩
    · intro j hj
      exact ⟨Function.update_of_ne hj _ _, rfl, rfl⟩
    · show feed sessionOnRead _ (Function.update h.received k _ k)
        = ((h.begun k).map Prod.fst ++ (sessionOnRead p.inputBuffer bytes).1,
          (sessionOnRead p.inputBuffer bytes).2)
      rw [Function.update_self, feed_concat sessionOnRead hread bytes, List.append_assoc]
      rfl
  · have hnote : h.note s (.onRead k ec bytes) s' = h := if_neg hec
    have hhandler : p.onRead ec bytes = { p with waiting := false, handler := .readFailed } :=
      if_pos hec
    rw [hnote, hhandler]
    exact hroom.update hlive (alike_refl s) hlt rfl (fun _ _ => ⟨rfl, rfl, rfl⟩) (.inl rfl)
      ⟨hread, hsent⟩

/-- The handler goes on, and nothing is noted. -/
theorem Room.same (hroom : Room s h) (hlive : s.ended = false) {k : Nat} {p p' : Session}
    (hp : s.made[k]? = some p) (hmade : s'.made = s.made.set k p')
    (hsessions : s'.sessions = s.sessions ∨ s.Quiet)
    (hread : ReadSoFar h k p.handler p.inputBuffer → ReadSoFar h k p'.handler p'.inputBuffer)
    (hsent : SentOn s.sessions false h k p.handler →
      SentOn s'.sessions s'.ended h k p'.handler) : Room s' h := by
  have hlt := (List.getElem?_eq_some_iff.mp hp).1
  obtain ⟨hread', hsent'⟩ := hroom.session k p hp
  rw [hlive] at hsent'
  exact hroom.update hlive (alike_refl s) hlt hmade (fun _ _ => ⟨rfl, rfl, rfl⟩) hsessions
    ⟨hread hread', hsent hsent'⟩

theorem Room.onWrite (hroom : Room s h) (hlive : s.ended = false) {k : Nat} {p p' : Session}
    (hp : s.made[k]? = some p) (hidle : p.handler = .idle) {ec : ErrorCode} {bytes : Nat}
    (hwrite : p.onWrite ec bytes = some p') : Room (s.update k p') h := by
  rcases onWrite_cases hwrite with ⟨-, rfl⟩ | ⟨b, -, ⟨-, rfl⟩ | ⟨-, rfl⟩⟩
  · refine hroom.same hlive hp rfl (.inl rfl) ?_ ?_
    · rw [hidle]
      exact id
    · rw [hidle]
      exact id
  · exact hroom.same hlive hp rfl (.inl rfl) id (sentOn_frame rfl rfl)
  · exact hroom.same hlive hp rfl (.inl rfl) id (sentOn_frame rfl rfl)

/-- One copy more, or the walk has come to the session itself. -/
theorem toOthers_take_succ {sessions : List Nat} {it j k : Nat} (hj : sessions[it]? = some j)
    (message : Bytes) :
    toOthers k (message, sessions.take (it + 1))
      = toOthers k (message, sessions.take it) ++ if j = k then [] else [(j, message)] := by
  obtain ⟨hlt, heq⟩ := List.getElem?_eq_some_iff.mp hj
  rw [toOthers, toOthers, List.take_succ_eq_append_getElem hlt, heq, List.filter_append,
    List.map_append]
  by_cases hjk : j = k
  · simp [hjk]
  · simp [hjk]

theorem sentOn_send (h : History) (k j i : Nat) (message : Bytes) :
    ({ h with sends := h.sends ++ [⟨k, j, message⟩] } : History).sentOn i
      = h.sentOn i ++ if i = k then [(j, message)] else [] := by
  rw [History.sentOn, History.sentOn, List.filter_append, List.map_append]
  by_cases hik : i = k
  · simp [hik]
  · simp [hik, Ne.symm hik]

/-- **A COPY** is sent to the next entry, if that is another session. -/
theorem Room.send (hroom : Room s h) (hlive : s.ended = false) {k it j : Nat} {p : Session}
    {message : Bytes} {messages : List Bytes} {rest : Except Misuse Buffer}
    (hp : s.made[k]? = some p) (hhandler : p.handler = .sending it message messages rest)
    (hj : s.sessions[it]? = some j) (hjk : j ≠ k) :
    Room ((s.sendMessage j message).update k
        { p with handler := .sending (it + 1) message messages rest })
      (h.goes s ((s.sendMessage j message).update k
        { p with handler := .sending (it + 1) message messages rest }) k) := by
  have hlt := (List.getElem?_eq_some_iff.mp hp).1
  have hit : it < s.sessions.length := (List.getElem?_eq_some_iff.mp hj).1
  obtain ⟨hread, hsent⟩ := hroom.session k p hp
  rw [hhandler] at hread hsent
  obtain ⟨before, n, hbefore, -, hn, hcopies⟩ := hsent
  -- the program may end, and then nobody was given a copy
  have hfailed : Room
      (s.fail.update k { p with handler := .sending (it + 1) message messages rest })
      (h.goes s (s.fail.update k { p with handler := .sending (it + 1) message messages rest })
        k) := by
    have hmade :
        (s.fail.update k { p with handler := .sending (it + 1) message messages rest }).made
        = s.made.set k { p with handler := .sending (it + 1) message messages rest } := rfl
    rw [goes_silent hp hmade rfl rfl]
    exact hroom.update hlive (alike_refl s) hlt rfl (fun _ _ => ⟨rfl, rfl, rfl⟩) (.inl rfl)
      ⟨hread, before, n, hbefore, hit, nofun, hcopies⟩
  cases hq : s.made[j]? with
  | none =>
      have hmade : s.sendMessage j message = s.fail := by rw [Server.sendMessage, hq]
      rw [hmade]
      exact hfailed
  | some q =>
      cases hb : sessionSendMessage q.outputBuffer message with
      | none =>
          have hmade : s.sendMessage j message = s.fail := by
            rw [Server.sendMessage, hq]
            simp only [hb]
          rw [hmade]
          exact hfailed
      | some b =>
          have hmade : s.sendMessage j message
              = s.update j { q with outputBuffer := b, writes := q.writes + 1 } := by
            rw [Server.sendMessage, hq]
            simp only [hb]
          have halike := alike_sendMessage s j message
          rw [hmade] at halike ⊢
          rw [goes_sends hp hq hjk hb rfl]
          obtain rfl := hn hlive
          have htake := toOthers_take_succ (k := k) hj message
          rw [if_neg hjk] at htake
          refine hroom.update hlive halike hlt rfl ?_ (.inl rfl)
            ⟨hread, before, n + 1, hbefore, hit, fun _ => rfl, ?_⟩
          · intro i hi
            refine ⟨rfl, rfl, ?_⟩
            rw [sentOn_send, if_neg hi, List.append_nil]
          · show _ = _ ++ toOthers k (message, s.sessions.take (n + 1))
            rw [sentOn_send, if_pos rfl, hcopies, htake, List.append_assoc]

/-- The walk has come to the session itself, and goes on. -/
theorem Room.skip (hroom : Room s h) (hlive : s.ended = false) {k it : Nat} {p : Session}
    {message : Bytes} {messages : List Bytes} {rest : Except Misuse Buffer}
    (hp : s.made[k]? = some p) (hhandler : p.handler = .sending it message messages rest)
    (hj : s.sessions[it]? = some k) :
    Room (s.update k { p with handler := .sending (it + 1) message messages rest }) h := by
  have hit : it < s.sessions.length := (List.getElem?_eq_some_iff.mp hj).1
  have htake := toOthers_take_succ (k := k) hj message
  rw [if_pos rfl, List.append_nil] at htake
  refine hroom.same hlive hp rfl (.inl rfl) ?_ ?_
  · rw [hhandler]
    exact id
  · rw [hhandler]
    rintro ⟨before, n, hbefore, -, hn, hcopies⟩
    obtain rfl := hn rfl
    refine ⟨before, n + 1, hbefore, hit, fun _ => rfl, ?_⟩
    rw [hcopies]
    exact congrArg (_ ++ ·) htake.symm

/-- The next message begins with the entries there are. -/
theorem Room.begins (hroom : Room s h) (hlive : s.ended = false) {k : Nat} {p : Session}
    {message : Bytes} {messages : List Bytes} {rest : Except Misuse Buffer}
    (hp : s.made[k]? = some p) (hhandler : p.handler = .reading (message :: messages) rest) :
    Room (s.update k { p with handler := .sending 0 message messages rest })
      { h with begun := Function.update h.begun k (h.begun k ++ [(message, s.sessions)]) } := by
  have hlt := (List.getElem?_eq_some_iff.mp hp).1
  obtain ⟨hread, hsent⟩ := hroom.session k p hp
  rw [hhandler] at hread hsent
  refine hroom.update hlive (alike_refl s) hlt rfl ?_ (.inl rfl)
    ⟨?_, h.begun k, 0, ?_, Nat.zero_le _, fun _ => rfl, ?_⟩
  · intro j hj
    exact ⟨rfl, Function.update_of_ne hj _ _, rfl⟩
  · show feed sessionOnRead _ (h.received k)
      = ((Function.update h.begun k _ k).map Prod.fst ++ messages, rest)
    rw [Function.update_self, List.map_append, List.append_assoc]
    exact hread
  · exact Function.update_self _ _ _
  · show h.sentOn k = _ ++ []
    rw [List.append_nil]
    exact hsent

/-- A handler that does something else than begin a message or send it. -/
theorem Room.goesOn (hroom : Room s h) (hlive : s.ended = false) {k : Nat} {p p' : Session}
    (hp : s.made[k]? = some p) (hmade : s'.made = s.made.set k p')
    (hwrites : p'.writes = p.writes) (hsessions : s'.sessions = s.sessions ∨ s.Quiet)
    (hhandler : p'.handler.isSending = false)
    (hread : ReadSoFar h k p.handler p.inputBuffer → ReadSoFar h k p'.handler p'.inputBuffer)
    (hsent : SentOn s.sessions false h k p.handler →
      SentOn s'.sessions s'.ended h k p'.handler) : Room s' (h.goes s s' k) := by
  have hbegins : p'.handler.beginning = none := by
    cases hp' : p'.handler with
    | sending it message messages rest =>
        rw [hp'] at hhandler
        cases hhandler
    | idle => rfl
    | reading messages rest => rfl
    | readFailed => rfl
    | readReturns => rfl
    | writeFailed => rfl
    | writeReturns => rfl
  rw [goes_silent hp hmade hwrites hbegins]
  exact hroom.same hlive hp hmade hsessions hread hsent

theorem Room.go (hroom : Room s h) (hlive : s.ended = false) {k : Nat} {p : Session}
    (hp : s.made[k]? = some p) (hundisturbed : p.handler.isLeaving = true → s.Quiet)
    (hgo : s.go k p = some s') : Room s' (h.goes s s' k) := by
  obtain ⟨waiting, writes, handler, inputBuffer, outputBuffer⟩ := p
  cases handler with
  | idle => cases hgo
  | reading messages rest =>
      cases messages with
      | nil =>
          cases rest with
          | error misuse =>
              obtain rfl := Option.some.inj hgo
              rw [goes_failed hp rfl]
              exact hroom.move hlive rfl (.inl rfl)
          | ok b =>
              obtain rfl := Option.some.inj hgo
              exact hroom.goesOn hlive hp rfl rfl (.inl rfl) rfl id id
      | cons message messages =>
          obtain rfl := Option.some.inj hgo
          rw [goes_begins hp]
          exact hroom.begins hlive hp rfl
  | sending it message messages rest =>
      dsimp only [Server.go] at hgo
      cases hj : s.sessions[it]? with
      | none =>
          rw [hj] at hgo
          obtain rfl := Option.some.inj hgo
          refine hroom.goesOn hlive hp rfl rfl (.inl rfl) rfl id ?_
          -- every entry has had its copy
          rintro ⟨before, n, hbefore, hit, hn, hcopies⟩
          obtain rfl := hn rfl
          have hall : s.sessions.take n = s.sessions :=
            List.take_of_length_le (List.getElem?_eq_none_iff.mp hj)
          show h.sentOn k = (h.begun k).flatMap (toOthers k)
          rw [hcopies, hall, hbefore, List.flatMap_append, List.flatMap_singleton]
      | some j =>
          rw [hj] at hgo
          obtain rfl := Option.some.inj hgo
          by_cases hjk : j = k
          · subst hjk
            simp only [if_true]
            have hmade : (s.update j ⟨waiting, writes, .sending (it + 1) message messages rest,
                inputBuffer, outputBuffer⟩).made
              = s.made.set j ⟨waiting, writes, .sending (it + 1) message messages rest,
                inputBuffer, outputBuffer⟩ := rfl
            rw [goes_silent hp hmade rfl rfl]
            exact hroom.skip hlive hp rfl hj
          · simp only [if_neg hjk]
            exact hroom.send hlive hp rfl hj hjk
  | readFailed =>
      obtain rfl := Option.some.inj hgo
      exact hroom.goesOn hlive hp rfl rfl (.inr (hundisturbed rfl)) rfl id id
  | readReturns =>
      obtain rfl := Option.some.inj hgo
      exact hroom.goesOn hlive hp rfl rfl (.inl rfl) rfl id id
  | writeFailed =>
      obtain rfl := Option.some.inj hgo
      exact hroom.goesOn hlive hp rfl rfl (.inr (hundisturbed rfl)) rfl id id
  | writeReturns =>
      obtain rfl := Option.some.inj hgo
      exact hroom.goesOn hlive hp rfl rfl (.inl rfl) rfl id id

theorem live_of_step {a : Action} (h : ChatServer.step s a = some s') : s.ended = false := by
  unfold ChatServer.step at h
  split at h
  · cases h
  · next hlive => exact Bool.eq_false_iff.mpr hlive

/-- **EVERY STEP** in an undisturbed room keeps the history in order. -/
theorem Room.step (hroom : Room s h) {a : Action} (hundisturbed : Undisturbed s a)
    (hstep : ChatServer.step s a = some s') : Room s' (h.note s a s') := by
  have hlive := live_of_step hstep
  cases a with
  | onAccept ec remoteEndpoint =>
      obtain ⟨-, rfl | rfl | rfl⟩ := step_onAccept hstep
      · exact hroom.accept hlive rfl rfl
      · exact hroom.move hlive rfl (.inl rfl)
      · exact hroom.move hlive rfl (.inl rfl)
  | register =>
      obtain ⟨k, -, rfl⟩ := step_register hstep
      exact hroom.move hlive rfl (.inr hundisturbed)
  | start =>
      obtain ⟨-, rfl⟩ := step_start hstep
      exact hroom.move hlive rfl (.inl rfl)
  | onRead k ec bytes =>
      obtain ⟨p, hp, hidle, -, rfl⟩ := step_onRead hstep
      exact hroom.onRead hlive hp hidle ec bytes
  | onWrite k ec bytes =>
      obtain ⟨p, hp, hidle, -, ⟨p', hwrite, rfl⟩ | ⟨-, rfl⟩⟩ := step_onWrite hstep
      · exact (hroom.onWrite hlive hp hidle hwrite).written _ _ _ _ _
      · have hended : Room s.fail h := hroom.move hlive rfl (.inl rfl)
        exact hended.written _ _ _ _ _
  | go k =>
      obtain ⟨p, hp, -, hgo⟩ := step_go hstep
      exact hroom.go hlive hp (fun hleaving => hundisturbed p hp hleaving) hgo

end Steps

theorem room_of_heard {s : Server} {h : History} (hheard : Heard s h) : Room s h := by
  refine hheard.invariant (I := fun w => Room w.1 w.2) room_start ?_
  rintro ⟨t, g⟩ a ⟨t', g'⟩ hroom hundisturbed hstep
  obtain ⟨htaken, rfl⟩ := traced_some hstep
  exact hroom.step hundisturbed htaken

/-- A message begins with the entries there are. -/
theorem begun_note (h : History) (s : Server) (a : Action) (s' : Server) (k : Nat) :
    (h.note s a s').begun k = h.begun k ∨
      ∃ message, (h.note s a s').begun k = h.begun k ++ [(message, s.sessions)] := by
  cases a with
  | onAccept ec remoteEndpoint => exact .inl rfl
  | register => exact .inl rfl
  | start => exact .inl rfl
  | onRead j ec bytes =>
      rw [History.note]
      split
      · exact .inl rfl
      · exact .inl rfl
  | onWrite j ec bytes =>
      rw [History.note]
      split
      · rw [History.writes]
        split
        · exact .inl rfl
        · exact .inl rfl
      · exact .inl rfl
  | go j =>
      rw [History.note, History.goes]
      cases s'.begins j with
      | none => exact .inl rfl
      | some message =>
          by_cases hk : k = j
          · subst hk
            exact .inr ⟨message, Function.update_self _ _ _⟩
          · exact .inl (Function.update_of_ne hk _ _)

/-- What a message that was begun found: entries of `sessions_`, each once. -/
theorem nodup_of_heard {s : Server} {h : History} (hheard : Heard s h) :
    ∀ k, ∀ begun ∈ h.begun k, begun.2.Nodup := by
  have hknown : ∀ w, Reaches (traced step History.note) (fun w a => Undisturbed w.1 a)
      (Server.start, History.empty) w → Distinct w.1 :=
    fun _ hw => distinct_of_reaches (reaches_of_traced hw)
  refine hheard.invariant_over (J := fun w => Distinct w.1)
    (I := fun w => ∀ k, ∀ begun ∈ w.2.begun k, begun.2.Nodup) hknown
    (fun _ _ hbegun => absurd hbegun List.not_mem_nil) ?_
  rintro ⟨t, g⟩ a ⟨t', g'⟩ hdistinct ih - hstep k
  obtain ⟨-, rfl⟩ := traced_some hstep
  rcases begun_note g t a t' k with hsame | ⟨message, hbegun⟩
  · show ∀ begun ∈ (g.note t a t').begun k, begun.2.Nodup
    rw [hsame]
    exact ih k
  · show ∀ begun ∈ (g.note t a t').begun k, begun.2.Nodup
    intro begun hmem
    rw [hbegun, List.mem_append, List.mem_singleton] at hmem
    rcases hmem with hold | rfl
    · exact ih k begun hold
    · exact Entries.nodup hdistinct

/-- A session that waits has handed on all it has read. -/
theorem begun_of_waiting {s : Server} {h : History} (hheard : Heard s h) {k : Nat}
    {p : Session} (hp : s.made[k]? = some p) (hidle : p.handler = .idle) :
    (h.begun k).map Prod.fst = ((prefixGrammar chatGuard).decode (h.received k).flatten).1 ∧
      h.sentOn k = (h.begun k).flatMap (toOthers k) := by
  obtain ⟨hread, hsent⟩ := (room_of_heard hheard).session k p hp
  rw [hidle] at hread hsent
  refine ⟨?_, hsent⟩
  rw [← sessionOnRead_reads.observe_feed, hread]
  exact (List.append_nil _).symm

/-- **EVERY MESSAGE IS SENT ON**: as long as nobody enters or leaves while a
    message is being handed on, the messages that a waiting session has begun
    are those that the bytes it sent decode to, in order and however they were
    cut; and what was sent for it is one copy of each, for each of the others
    that were in `sessions_` when it began, and nothing else. -/
theorem every_message_sent_on {s : Server} {h : History} (hheard : Heard s h) {k : Nat}
    {p : Session} (hp : s.made[k]? = some p) (hidle : p.handler = .idle) :
    (h.begun k).map Prod.fst = ((prefixGrammar chatGuard).decode (h.received k).flatten).1 ∧
      (∀ begun ∈ h.begun k, begun.2.Nodup) ∧
      h.sentOn k = (h.begun k).flatMap (toOthers k) := by
  obtain ⟨hbegun, hsent⟩ := begun_of_waiting hheard hp hidle
  exact ⟨hbegun, nodup_of_heard hheard k, hsent⟩

/-- Three clients; the second says two things, in three pieces, and then the
    third one thing. -/
def threeClients : List Action :=
  [.onAccept 0 0, .register, .start, .onAccept 0 0, .register, .start, .onAccept 0 0, .register,
    .start, .onRead 1 0 [0, 0, 0], .go 1, .onRead 1 0 [1, 104, 0, 0, 0, 1, 105], .go 1, .go 1,
    .go 1, .go 1, .go 1, .onWrite 0 0 5, .onWrite 2 0 5, .go 1, .go 1, .go 1, .go 1, .go 1, .go 1]

theorem every_message_sent_on_run : ∃ s h p, Heard s h ∧ s.made[1]? = some p ∧
    h.sentOn 1 = [(0, [104]), (2, [104]), (0, [105]), (2, [105])] ∧
    (h.begun 1).map Prod.fst = ((prefixGrammar chatGuard).decode (h.received 1).flatten).1 ∧
      (∀ begun ∈ h.begun 1, begun.2.Nodup) ∧
      h.sentOn 1 = (h.begun 1).flatMap (toOthers 1) := by
  have hrun : (guardedRun (traced step History.note) (fun w a => Undisturbed w.1 a)
      (Server.start, History.empty) threeClients).map
      (fun w => (w.2.sentOn 1, w.1.made[1]?.map fun p => p.handler.isIdle))
        = some ([(0, [104]), (2, [104]), (0, [105]), (2, [105])], some true) := by
    decide +kernel
  obtain ⟨⟨s, h⟩, hs, heq⟩ := Option.map_eq_some_iff.mp hrun
  obtain ⟨hcopies, hp⟩ := Prod.mk.inj heq
  obtain ⟨p, hp, hidle⟩ := Option.map_eq_some_iff.mp hp
  have hheard : Heard s h := reaches_of_guardedRun hs
  exact ⟨s, h, p, hheard, hp, hcopies,
    every_message_sent_on hheard hp (Handler.eq_idle_of_isIdle hidle)⟩

end ChatServer
