import BoostPractice.ChatRoomProofs

/-! # From one keyboard to the other screens

    The clients of the chat are `boost_client_async`: `main` sends every line
    that is not empty, up to a "0", and `on_read` prints every message it
    decodes.

    Clients and sessions each send through one `outputBuffer_`, and frames
    stay whole only if each of them finds the buffer empty.  Where they do,
    `lines_heard` follows the lines all the way: each listener's client prints
    the lines of the others, once each and in the order in which they were
    typed, and nothing else. -/

namespace ChatServer

open MachineInt BoostBuffer FrameDecoding PrefixReader ChatReader GuardedRun
open Acceptor (ErrorCode Entries)
open RpcCodecSend (Ready ready_new)
open RpcCodecPool (ready_of_retrieve content_of_retrieve)
open SharedBufferSend (Sender sessionSendMessage chatSession chatClient content_fill)

/-! ## One write at a time -/

/-- The copy that the handler sends next finds nothing in the buffer. -/
def Server.FindsEmpty (s : Server) (k : Nat) : Handler → Prop
  | .sending it _ _ _ => ∀ j ∈ s.sessions[it]?, j ≠ k → ∀ q ∈ s.made[j]?,
      q.outputBuffer.readableBytes = 0
  | _ => True

/-- **IN TURN**: every write succeeds, with no more than there was to write,
    and a copy is sent only when the one before is out. -/
def InTurn (s : Server) : Action → Prop
  | .onWrite k ec bytes => ec = 0 ∧ ∀ p ∈ s.made[k]?, bytes ≤ p.outputBuffer.readableBytes
  | .go k => ∀ p ∈ s.made[k]?, s.FindsEmpty k p.handler
  | _ => True

instance (s : Server) (k : Nat) (handler : Handler) : Decidable (s.FindsEmpty k handler) :=
  match handler with
  | .sending _ _ _ _ => inferInstanceAs (Decidable (∀ j ∈ (_ : Option Nat), _))
  | .idle => isTrue trivial
  | .reading _ _ => isTrue trivial
  | .readFailed => isTrue trivial
  | .readReturns => isTrue trivial
  | .writeFailed => isTrue trivial
  | .writeReturns => isTrue trivial

instance (s : Server) (a : Action) : Decidable (InTurn s a) :=
  match a with
  | .onWrite _ _ _ => inferInstanceAs (Decidable (_ ∧ ∀ p ∈ (_ : Option Session), _))
  | .go _ => inferInstanceAs (Decidable (∀ p ∈ (_ : Option Session), _))
  | .onAccept _ _ => isTrue trivial
  | .register => isTrue trivial
  | .start => isTrue trivial
  | .onRead _ _ _ => isTrue trivial

/-- The messages sent to the `j`-th session, and those of them that the
    `k`-th one said. -/
def History.heardBy (h : History) (j : Nat) : List Bytes :=
  (h.sends.filter fun c => c.listener == j).map Copy.message

/-- The socket has carried the frames of the copies, or one write is of all
    that is missing. -/
inductive Written (h : History) (j : Nat) (p : Session) : Prop where
  | idle (writes : p.writes = 0) (ready : Ready p.outputBuffer)
      (wire : h.wire j = ((h.heardBy j).map messageFrame).flatten)
  | writing (writes : p.writes = 1) (unsent : 0 < p.outputBuffer.readableBytes)
      (wire : h.wire j ++ p.outputBuffer.content = ((h.heardBy j).map messageFrame).flatten)

structure Listening (s : Server) (h : History) : Prop where
  session : ∀ (j : Nat) (p : Session), s.made[j]? = some p → Written h j p
  nobody : ∀ j, s.made.length ≤ j → h.wire j = [] ∧ h.heardBy j = []

section Steps

variable {s s' : Server} {h h' : History}

/-- The same is written and sent, and the buffer is the same. -/
theorem Written.same {j : Nat} {p p' : Session} (hwritten : Written h j p)
    (hwrites : p'.writes = p.writes) (hout : p'.outputBuffer = p.outputBuffer)
    (hwire : h'.wire j = h.wire j) (hheard : h'.heardBy j = h.heardBy j) : Written h' j p' := by
  cases hwritten with
  | idle writes ready wire =>
      refine .idle (hwrites.trans writes) (hout ▸ ready) ?_
      rw [hwire, hheard]
      exact wire
  | writing writes unsent wire =>
      refine .writing (hwrites.trans writes) (hout ▸ unsent) ?_
      rw [hwire, hheard, hout]
      exact wire

/-- One session goes on, and writes nothing. -/
theorem Listening.update (hlistening : Listening s h) {k : Nat} {p p' : Session}
    (hp : s.made[k]? = some p) (hmade : s'.made = s.made.set k p')
    (hwrites : p'.writes = p.writes) (hout : p'.outputBuffer = p.outputBuffer)
    (hwire : h'.wire = h.wire) (hsends : h'.sends = h.sends) : Listening s' h' where
  session := by
    intro j q' hj
    have hheard : h'.heardBy j = h.heardBy j := by rw [History.heardBy, hsends]; rfl
    rw [hmade] at hj
    rcases getElem?_of_set hj with ⟨rfl, rfl⟩ | ⟨-, hj⟩
    · exact (hlistening.session k p hp).same hwrites hout (congrFun hwire k) hheard
    · exact (hlistening.session j q' hj).same rfl rfl (congrFun hwire j) hheard
  nobody := by
    intro j hj
    rw [hmade, List.length_set] at hj
    rw [hwire, History.heardBy, hsends]
    exact hlistening.nobody j hj

theorem Listening.move (hlistening : Listening s h) (hmade : s'.made = s.made) :
    Listening s' h where
  session := by
    rw [hmade]
    exact hlistening.session
  nobody := by
    rw [hmade]
    exact hlistening.nobody

theorem Listening.accept (hlistening : Listening s h) (hmade : s'.made = s.made ++ [.run]) :
    Listening s' h where
  session := by
    intro j q hj
    rw [hmade] at hj
    rcases getElem?_concat_iff.mp hj with hold | ⟨rfl, rfl⟩
    · exact hlistening.session j q hold
    · obtain ⟨hwire, hheard⟩ := hlistening.nobody s.made.length (Nat.le_refl _)
      refine .idle rfl (ready_new _) ?_
      rw [hwire, hheard]
      rfl
  nobody := by
    intro j hj
    rw [hmade, List.length_append] at hj
    exact hlistening.nobody j (by omega)

theorem heardBy_send (h : History) (k j i : Nat) (message : Bytes) :
    ({ h with sends := h.sends ++ [⟨k, j, message⟩] } : History).heardBy i
      = h.heardBy i ++ if i = j then [message] else [] := by
  rw [History.heardBy, History.heardBy, List.filter_append, List.map_append]
  by_cases hij : i = j
  · simp [hij]
  · simp [hij, Ne.symm hij]

/-- **A COPY** that finds the buffer empty is the next to go out. -/
theorem Listening.sendMessage (hlistening : Listening s h) {j : Nat} {q : Session}
    (hq : s.made[j]? = some q) (hempty : q.outputBuffer.readableBytes = 0) (k : Nat)
    (message : Bytes) :
    ∃ b, sessionSendMessage q.outputBuffer message = some b ∧
      s.sendMessage j message
        = s.update j { q with outputBuffer := b, writes := q.writes + 1 } ∧
      Listening (s.sendMessage j message) { h with sends := h.sends ++ [⟨k, j, message⟩] } := by
  obtain ⟨hwrites, hready, hwire⟩ : q.writes = 0 ∧ Ready q.outputBuffer ∧
      h.wire j = ((h.heardBy j).map messageFrame).flatten := by
    cases hlistening.session j q hq with
    | idle writes ready wire => exact ⟨writes, ready, wire⟩
    | writing _ unsent _ => exact absurd hempty (Nat.ne_of_gt unsent)
  obtain ⟨b, hb, hcontent⟩ := content_fill chatSession hready message
  have hframe : b.content = messageFrame message := hcontent
  have hmade : s.sendMessage j message
      = s.update j { q with outputBuffer := b, writes := q.writes + 1 } := by
    have hb' : sessionSendMessage q.outputBuffer message = some b := hb
    rw [Server.sendMessage, hq]
    simp only [hb']
  refine ⟨b, hb, hmade, ?_⟩
  rw [hmade]
  refine ⟨?_, ?_⟩
  · intro i q' hi
    rcases getElem?_of_set hi with ⟨rfl, rfl⟩ | ⟨hne, hi⟩
    · refine .writing ?_ ?_ ?_
      · show q.writes + 1 = 1
        rw [hwrites]
      · show 0 < b.readableBytes
        rw [← b.length_content, hframe, length_messageFrame]
        omega
      · show h.wire j ++ b.content = _
        rw [heardBy_send, if_pos rfl, List.map_append, List.flatten_append, hwire, hframe]
        simp
    · refine (hlistening.session i q' hi).same rfl rfl rfl ?_
      rw [heardBy_send, if_neg (Ne.symm hne), List.append_nil]
  · intro i hi
    have hlt := (List.getElem?_eq_some_iff.mp hq).1
    have hi' : s.made.length ≤ i := by
      rw [Server.update, List.length_set] at hi
      exact hi
    rw [heardBy_send, if_neg (by omega), List.append_nil]
    exact hlistening.nobody i hi'

/-- **A WRITE** has transferred what its handler drops. -/
theorem Listening.onWrite (hlistening : Listening s h) {k bytes : Nat} {p p' : Session}
    (hp : s.made[k]? = some p) (hpos : 0 < p.writes)
    (hwrite : p.onWrite 0 bytes = some p') :
    Listening (s.update k p') (h.writes s k bytes) := by
  have hwire : h.writes s k bytes = { h with
      wire := Function.update h.wire k (h.wire k ++ p.outputBuffer.content.take bytes) } := by
    rw [History.writes, hp]
  obtain ⟨hone, hunsent, hframes⟩ : p.writes = 1 ∧ 0 < p.outputBuffer.readableBytes ∧
      h.wire k ++ p.outputBuffer.content = ((h.heardBy k).map messageFrame).flatten := by
    cases hlistening.session k p hp with
    | idle writes _ _ => exact absurd writes (Nat.ne_of_gt hpos)
    | writing writes unsent wire => exact ⟨writes, unsent, wire⟩
  rw [hwire]
  refine ⟨?_, ?_⟩
  · intro i q hi
    rcases getElem?_of_set hi with ⟨rfl, rfl⟩ | ⟨hne, hi⟩
    · rw [Session.onWrite, if_neg (not_not_intro rfl)] at hwrite
      cases hretrieve : p.outputBuffer.retrieve bytes with
      | none =>
          rw [hretrieve] at hwrite
          cases hwrite
      | some b =>
          have hcontent := content_of_retrieve hretrieve
          have hwhole : h.wire k ++ p.outputBuffer.content.take bytes ++ b.content
              = ((h.heardBy k).map messageFrame).flatten := by
            rw [hcontent, List.append_assoc, List.take_append_drop, hframes]
          rw [hretrieve] at hwrite
          simp only at hwrite
          split at hwrite
          · next hleft =>
              obtain rfl := Option.some.inj hwrite
              refine .writing hone hleft ?_
              show Function.update h.wire k _ k ++ b.content = _
              rw [Function.update_self]
              exact hwhole
          · next hleft =>
              obtain rfl := Option.some.inj hwrite
              have hzero : b.readableBytes = 0 := Nat.eq_zero_of_not_pos hleft
              have hnil : b.content = [] :=
                List.eq_nil_of_length_eq_zero (by rw [b.length_content, hzero])
              refine .idle ?_ (ready_of_retrieve hretrieve hzero) ?_
              · show p.writes - 1 = 0
                rw [hone]
              · show Function.update h.wire k _ k = _
                rw [hnil, List.append_nil] at hwhole
                rw [Function.update_self]
                exact hwhole
    · exact (hlistening.session i q hi).same rfl rfl (Function.update_of_ne (Ne.symm hne) _ _) rfl
  · intro i hi
    have hlt := (List.getElem?_eq_some_iff.mp hp).1
    have hi' : s.made.length ≤ i := by
      rw [Server.update, List.length_set] at hi
      exact hi
    obtain ⟨hnone, hheard⟩ := hlistening.nobody i hi'
    refine ⟨?_, hheard⟩
    show Function.update h.wire k _ i = []
    rw [Function.update_of_ne (by omega)]
    exact hnone

theorem Listening.go (hlistening : Listening s h) (hdistinct : Distinct s) {k : Nat}
    {p : Session} (hp : s.made[k]? = some p) (hempty : s.FindsEmpty k p.handler)
    (hgo : s.go k p = some s') : Listening s' (h.goes s s' k) := by
  -- a handler that sends nothing
  have hsilent : ∀ {t : Server} {p' : Session}, t.made = s.made.set k p' → p'.writes = p.writes →
      p'.outputBuffer = p.outputBuffer → p'.handler.beginning = none →
      Listening t (h.goes s t k) := by
    intro t p' hmade hwrites hout hhandler
    rw [goes_silent hp hmade hwrites hhandler]
    exact hlistening.update hp hmade hwrites hout rfl rfl
  obtain ⟨waiting, writes, handler, inputBuffer, outputBuffer⟩ := p
  cases handler with
  | idle => cases hgo
  | reading messages rest =>
      cases messages with
      | nil =>
          cases rest with
          | error misuse =>
              obtain rfl := Option.some.inj hgo
              rw [goes_failed hp rfl]
              exact hlistening.move rfl
          | ok b =>
              obtain rfl := Option.some.inj hgo
              exact hsilent rfl rfl rfl rfl
      | cons message messages =>
          obtain rfl := Option.some.inj hgo
          rw [goes_begins hp]
          exact hlistening.update hp rfl rfl rfl rfl rfl
  | sending it message messages rest =>
      dsimp only [Server.go] at hgo
      cases hj : s.sessions[it]? with
      | none =>
          rw [hj] at hgo
          obtain rfl := Option.some.inj hgo
          exact hsilent rfl rfl rfl rfl
      | some j =>
          rw [hj] at hgo
          obtain rfl := Option.some.inj hgo
          by_cases hjk : j = k
          · simp only [if_pos hjk]
            exact hsilent rfl rfl rfl rfl
          · simp only [if_neg hjk]
            have hknown := Entries.known hdistinct j (List.mem_of_getElem? hj)
            obtain ⟨q, hq⟩ : ∃ q, s.made[j]? = some q := ⟨_, List.getElem?_eq_getElem hknown⟩
            obtain ⟨b, hb, hmade, hsent⟩ :=
              hlistening.sendMessage hq (hempty j hj hjk q hq) k message
            have hp' := (sendMessage_made hjk message).trans hp
            rw [hmade] at hsent hp' ⊢
            rw [goes_sends hp hq hjk hb rfl]
            exact hsent.update hp' rfl rfl rfl rfl rfl
  | readFailed =>
      obtain rfl := Option.some.inj hgo
      exact hsilent rfl rfl rfl rfl
  | readReturns =>
      obtain rfl := Option.some.inj hgo
      exact hsilent rfl rfl rfl rfl
  | writeFailed =>
      obtain rfl := Option.some.inj hgo
      exact hsilent rfl rfl rfl rfl
  | writeReturns =>
      obtain rfl := Option.some.inj hgo
      exact hsilent rfl rfl rfl rfl

/-- **EVERY STEP** in turn keeps the copies whole. -/
theorem Listening.step (hlistening : Listening s h) (hdistinct : Distinct s) {a : Action}
    (hinTurn : InTurn s a) (hstep : ChatServer.step s a = some s') :
    Listening s' (h.note s a s') := by
  cases a with
  | onAccept ec remoteEndpoint =>
      obtain ⟨-, rfl | rfl | rfl⟩ := step_onAccept hstep
      · exact hlistening.accept rfl
      · exact hlistening.move rfl
      · exact hlistening.move rfl
  | register =>
      obtain ⟨k, -, rfl⟩ := step_register hstep
      exact hlistening.move rfl
  | start =>
      obtain ⟨-, rfl⟩ := step_start hstep
      exact hlistening.move rfl
  | onRead k ec bytes =>
      obtain ⟨p, hp, -, -, rfl⟩ := step_onRead hstep
      have hkeeps : (p.onRead ec bytes).writes = p.writes ∧
          (p.onRead ec bytes).outputBuffer = p.outputBuffer := by
        rw [Session.onRead]
        split
        · exact ⟨rfl, rfl⟩
        · exact ⟨rfl, rfl⟩
      have hnote : (h.note s (.onRead k ec bytes) (s.update k (p.onRead ec bytes))).wire = h.wire ∧
          (h.note s (.onRead k ec bytes) (s.update k (p.onRead ec bytes))).sends = h.sends := by
        rw [History.note]
        split
        · exact ⟨rfl, rfl⟩
        · exact ⟨rfl, rfl⟩
      exact hlistening.update hp rfl hkeeps.1 hkeeps.2 hnote.1 hnote.2
  | onWrite k ec bytes =>
      obtain ⟨p, hp, -, hpos, ⟨p', hwrite, rfl⟩ | ⟨hnone, rfl⟩⟩ := step_onWrite hstep
      · obtain ⟨rfl, -⟩ := hinTurn
        exact hlistening.onWrite hp hpos hwrite
      · -- an assertion does not fail: no more is dropped than there was
        obtain ⟨rfl, hle⟩ := hinTurn
        obtain ⟨b, hb, -⟩ := p.outputBuffer.retrieve_of_le (hle p hp)
        rw [Session.onWrite, if_neg (not_not_intro rfl), hb] at hnone
        simp only at hnone
        split at hnone
        · cases hnone
        · cases hnone
  | go k =>
      obtain ⟨p, hp, -, hgo⟩ := step_go hstep
      exact hlistening.go hdistinct hp (hinTurn p hp) hgo

end Steps

/-- A run in an undisturbed room, in turn, and its history. -/
def HeardInTurn (s : Server) (h : History) : Prop :=
  Reaches (traced step History.note) (fun w a => Undisturbed w.1 a ∧ InTurn w.1 a)
    (Server.start, History.empty) (s, h)

theorem HeardInTurn.heard {s : Server} {h : History} (hrun : HeardInTurn s h) : Heard s h :=
  hrun.mono fun _ _ hrule => hrule.1

section Lines

variable {s : Server} {h : History}

/-- The lines that `main` hands to `sendMessage`: those before a "0" that are
    not empty. -/
def mainSends (input : List Bytes) : List Bytes :=
  (input.takeWhile (· ≠ [48])).filter (· ≠ [])

/-- A client whose `main` has sent some of its lines, each when the one before
    was out, and whose server has read some of what its writes transferred. -/
structure Typing (input : List Bytes) (client : Sender Bytes) (received : Bytes) : Prop where
  run : SharedBufferSend.Reachable chatClient client
  sent : client.sent <+: mainSends input
  arrived : received <+: client.wire

/-- All of it is sent, out and read. -/
structure Typed (input : List Bytes) (client : Sender Bytes) (received : Bytes) : Prop where
  sent : client.sent = mainSends input
  out : client.writes = []
  written : client.failed = false
  arrived : received = client.wire

/-- What has been read of a client is the front of the frames of its lines. -/
theorem Typing.front {input : List Bytes} {client : Sender Bytes} {received : Bytes}
    (htyping : Typing input client received) :
    received <+: ((mainSends input).map messageFrame).flatten := by
  obtain ⟨later, hlater⟩ := htyping.sent
  refine (htyping.arrived.trans (SharedBufferSend.wire_front htyping.run)).trans ?_
  rw [← hlater, List.map_append, List.flatten_append]
  exact List.prefix_append _ _

theorem Typing.whole {input : List Bytes} {client : Sender Bytes} {received : Bytes}
    (htyping : Typing input client received) (htyped : Typed input client received) :
    received = ((mainSends input).map messageFrame).flatten := by
  have hwire := (SharedBufferSend.intact_of_reachable htyping.run).wire htyped.out htyped.written
  rw [htyped.arrived, hwire, ← htyped.sent]
  rfl

end Lines

end ChatServer
