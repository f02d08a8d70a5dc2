import BoostPractice.AsioRpcReaderProofs
import BoostPractice.RpcCodecPoolProofs

/-! # Senders with one output buffer

    The chat programs and the first RPC program send through a single
    `outputBuffer_`: a send appends the message at the back, prepends its
    length AT THE FRONT and issues a write of all that is readable; the
    handler of a write drops what was transferred and issues the rest.  With
    unsent bytes in the buffer the length of a new message lands in front of
    the previous one.

    The four senders fill the buffer alike, and a `Program` is one of them.
    Sends, transfers and handlers are steps, in any order; a failed assertion
    ends the run.  `senders_intact` says that all is well in every run in which a
    send finds the buffer empty, and `pipelined_sends` what happens to two
    sends in a row. -/

namespace SharedBufferSend

open MachineInt BoostBuffer RpcMessages RpcCodecSend PrefixReader GuardedRun
open RpcCodecPool (region region_eq_take ready_of_retrieve content_of_retrieve)

/-! ## The four senders -/

/-- `session::sendMessage`, up to the write. -/
def sessionSendMessage (outputBuffer : Buffer) (message : Bytes) : Option Buffer :=
  (outputBuffer.append message).prependInt32 (Int32.ofNat message.length)

/-- `boost_client_async::sendMessage`, up to the write. -/
def clientSendMessage (outputBuffer : Buffer) (message : Bytes) : Option Buffer :=
  (outputBuffer.append message).prependInt32 (Int32.ofNat message.length)

section Rpc

variable {M : Type} (P : Protobuf M)

/-- `rpc_session::doneCallback`, up to the write. -/
def doneCallback (outputBuffer : Buffer) (response : M) : Option Buffer :=
  let message := P.serialize response
  let b := outputBuffer.append message
  let len := Int32.ofNat message.length
  b.prependInt32 len

/-- `rpc_client::CallMethod`, its part with `outputBuffer_`, up to the write:
    the request is serialized to `beginWrite()`. -/
def callMethod (outputBuffer : Buffer) (request : M) : Option Buffer :=
  let bytes := P.serialize request
  let len := Int32.ofNat bytes.length
  let b := outputBuffer.ensureWritableBytes bytes.length
  let b := b.write bytes (outputBuffer.le_writableBytes_ensure bytes.length)
  b.prependInt32 len

end Rpc

/-- A sender of messages of type `M`: the bytes it sends for one, and what it
    does to the buffer. -/
structure Program (M : Type) where
  payload : M → Bytes
  fill : Buffer → M → Option Buffer
  fill_eq : ∀ b m, fill b m = (b.append (payload m)).prependInt32 (Int32.ofNat (payload m).length)

def chatSession : Program Bytes := ⟨id, sessionSendMessage, fun _ _ => rfl⟩

def chatClient : Program Bytes := ⟨id, clientSendMessage, fun _ _ => rfl⟩

def rpcSession {M : Type} (P : Protobuf M) : Program M :=
  ⟨P.serialize, doneCallback P, fun _ _ => rfl⟩

def rpcClient {M : Type} (P : Protobuf M) : Program M :=
  ⟨P.serialize, callMethod P, fun _ _ => rfl⟩

/-! ## The steps -/

/-- An issued write whose handler has not run: its region, the bytes in it
    and the size of the vector when it was issued, and then the number of
    bytes transferred and whether it failed. -/
structure Write where
  offset : Nat
  length : Nat
  bytes : Bytes
  size : Nat
  result : Option (Nat × Bool)
  deriving DecidableEq

/-- `outputBuffer_`, the outstanding writes in the order they were issued,
    the messages sent and the bytes on the socket, and whether a write has
    failed or an assertion. -/
structure Sender (M : Type) where
  outputBuffer : Buffer
  writes : List Write
  sent : List M
  wire : Bytes
  failed : Bool
  violated : Bool

variable {M : Type}

def Sender.new : Sender M := ⟨Buffer.new kInitialSize, [], [], [], false, false⟩

/-- `async_write_some` of everything readable. -/
def Sender.issue (s : Sender M) : Sender M :=
  let b := s.outputBuffer
  { s with
    writes := s.writes ++ [⟨b.readerIndex, b.readableBytes,
      region b b.readerIndex b.readableBytes, b.data.length, none⟩] }

inductive Action (M : Type) where
  | send (message : M)
  /-- The `k`-th outstanding write transfers `n` bytes, and may fail. -/
  | transfer (k n : Nat) (ec : Bool)
  /-- Its handler. -/
  | onWrite (k : Nat)

/-- The handler of a write, `on_write` or `on_send`: what it does with the
    error differs, but none touches the buffer then. -/
def onWrite (s : Sender M) (bytes : Nat) (ec : Bool) : Sender M :=
  if ec then { s with failed := true }
  else
    match s.outputBuffer.retrieve bytes with
    | some b =>
        let s := { s with outputBuffer := b }
        if b.readableBytes > 0 then s.issue else s
    | none => { s with violated := true }

/-- One step; nothing if it cannot happen, or an assertion has failed. -/
def step (prog : Program M) (s : Sender M) (a : Action M) : Option (Sender M) :=
  if s.violated then none
  else
    match a with
    | .send message =>
        match prog.fill s.outputBuffer message with
        | some b => some { s with outputBuffer := b, sent := s.sent ++ [message] }.issue
        | none => some { s with violated := true }
    | .transfer k n ec =>
        match s.writes[k]? with
        | some w =>
            if w.result = none ∧ n ≤ w.length then
              some { s with
                writes := s.writes.set k { w with result := some (n, ec) }
                wire := s.wire ++ region s.outputBuffer w.offset n }
            else none
        | none => none
    | .onWrite k =>
        match s.writes[k]? with
        | some w =>
            match w.result with
            | some (bytes, ec) => some (onWrite { s with writes := s.writes.eraseIdx k } bytes ec)
            | none => none
        | none => none

/-- What asio promises: writes take effect in the order they were issued, and
    one that succeeds transfers something. -/
def AsioStep (s : Sender M) : Action M → Prop
  | .transfer k n ec =>
      s.writes.findIdx? (fun w => w.result.isNone) = some k ∧ (ec = false → 0 < n)
  | _ => True

/-- A send finds nothing in the buffer. -/
def FindsEmpty (s : Sender M) : Action M → Prop
  | .send _ => s.outputBuffer.readableBytes = 0
  | _ => True

instance (s : Sender M) (a : Action M) : Decidable (AsioStep s a) :=
  match a with
  | .transfer _ _ _ => inferInstanceAs (Decidable (_ ∧ _))
  | .send _ => isTrue trivial
  | .onWrite _ => isTrue trivial

instance (s : Sender M) (a : Action M) : Decidable (FindsEmpty s a) :=
  match a with
  | .send _ => inferInstanceAs (Decidable (_ = _))
  | .transfer _ _ _ => isTrue trivial
  | .onWrite _ => isTrue trivial

/-- The frames of the messages sent, in order. -/
def framesOf (prog : Program M) (sent : List M) : Bytes :=
  (sent.map fun m => messageFrame (prog.payload m)).flatten

/-- **INTACT**: no assertion has failed, the region of every outstanding write
    is where it was and holds what it held, and with nothing outstanding and
    no failed write the socket has carried the frames of the messages. -/
structure Intact (prog : Program M) (s : Sender M) : Prop where
  asserted : s.violated = false
  regions : ∀ w ∈ s.writes, region s.outputBuffer w.offset w.length = w.bytes ∧
    s.outputBuffer.data.length = w.size
  wire : s.writes = [] → s.failed = false → s.wire = framesOf prog s.sent

/-- The states of the runs in which every send finds the buffer empty. -/
def Reachable (prog : Program M) : Sender M → Prop :=
  Reaches (step prog) FindsEmpty Sender.new

/-! ## What each step can do -/

section Step

variable {prog : Program M} {s s' : Sender M}

theorem step_send {m : M} (h : step prog s (.send m) = some s') :
    s.violated = false ∧
      ((∃ b, prog.fill s.outputBuffer m = some b ∧
        s' = { s with outputBuffer := b, sent := s.sent ++ [m] }.issue) ∨
        (prog.fill s.outputBuffer m = none ∧ s' = { s with violated := true })) := by
  rw [step] at h
  split at h
  · cases h
  · next hok =>
      refine ⟨Bool.eq_false_iff.mpr hok, ?_⟩
      cases hfill : prog.fill s.outputBuffer m with
      | none =>
          simp only [hfill] at h
          exact .inr ⟨rfl, (Option.some.inj h).symm⟩
      | some b =>
          simp only [hfill] at h
          exact .inl ⟨b, rfl, (Option.some.inj h).symm⟩

theorem step_transfer {k n : Nat} {ec : Bool} (h : step prog s (.transfer k n ec) = some s') :
    s.violated = false ∧ ∃ w, s.writes[k]? = some w ∧ w.result = none ∧ n ≤ w.length ∧
      s' = { s with
        writes := s.writes.set k { w with result := some (n, ec) }
        wire := s.wire ++ region s.outputBuffer w.offset n } := by
  rw [step] at h
  split at h
  · cases h
  · next hok =>
      refine ⟨Bool.eq_false_iff.mpr hok, ?_⟩
      cases hw : s.writes[k]? with
      | none =>
          simp only [hw] at h
          cases h
      | some w =>
          simp only [hw] at h
          split at h
          · next hready =>
              exact ⟨w, rfl, hready.1, hready.2, (Option.some.inj h).symm⟩
          · cases h

theorem step_onWrite {k : Nat} (h : step prog s (.onWrite k) = some s') :
    s.violated = false ∧ ∃ w n ec, s.writes[k]? = some w ∧ w.result = some (n, ec) ∧
      s' = onWrite { s with writes := s.writes.eraseIdx k } n ec := by
  rw [step] at h
  split at h
  · cases h
  · next hok =>
      refine ⟨Bool.eq_false_iff.mpr hok, ?_⟩
      cases hw : s.writes[k]? with
      | none =>
          simp only [hw] at h
          cases h
      | some w =>
          simp only [hw] at h
          split at h
          · next n ec hresult =>
              exact ⟨w, n, ec, rfl, hresult, (Option.some.inj h).symm⟩
          · cases h

end Step

/-! ## One write at a time -/

/-- The write is of all that is readable now. -/
structure Write.Current (w : Write) (b : Buffer) : Prop where
  offset : w.offset = b.readerIndex
  length : w.length = b.readableBytes
  bytes : w.bytes = b.content
  size : w.size = b.data.length

/-- The bytes a write has transferred that its handler has not dropped. -/
def Write.transferred (w : Write) : Nat :=
  match w.result with
  | some (n, _) => n
  | none => 0

/-- With sends that find the buffer empty there is one write at most: either
    the socket has carried everything, or one write is of all that is left,
    or a write has failed and what it was to carry stays. -/
inductive Phase (prog : Program M) (s : Sender M) : Prop where
  | idle (writes : s.writes = []) (failed : s.failed = false) (ready : Ready s.outputBuffer)
      (wire : s.wire = framesOf prog s.sent)
  | writing (w : Write) (writes : s.writes = [w]) (failed : s.failed = false)
      (current : w.Current s.outputBuffer) (unsent : 0 < s.outputBuffer.readableBytes)
      (within : w.transferred ≤ w.length)
      (wire : s.wire ++ s.outputBuffer.content.drop w.transferred = framesOf prog s.sent)
  | failed (writes : s.writes = []) (failed : s.failed = true)
      (unsent : 0 < s.outputBuffer.readableBytes) (wire : s.wire <+: framesOf prog s.sent)

theorem region_content (b : Buffer) : region b b.readerIndex b.readableBytes = b.content := by
  rw [region_eq_take b (Nat.le_refl _), ← b.length_content, List.take_length]

/-- A write that was just issued is of all that is readable. -/
theorem current_issued (b : Buffer) :
    Write.Current ⟨b.readerIndex, b.readableBytes, region b b.readerIndex b.readableBytes,
      b.data.length, none⟩ b :=
  ⟨rfl, rfl, region_content b, rfl⟩

/-- Filling an empty buffer leaves the frame of the message. -/
theorem content_fill (prog : Program M) {b : Buffer} (hready : Ready b) (m : M) :
    ∃ b', prog.fill b m = some b' ∧ b'.content = messageFrame (prog.payload m) := by
  have hroom := le_readerIndex_append (Nat.le_of_eq hready.1.symm) (prog.payload m)
  have hfits : (int32Bytes (Int32.ofNat (prog.payload m).length)).length
      ≤ (b.append (prog.payload m)).prependableBytes := by
    rw [length_int32Bytes]
    exact Nat.le_trans (by decide) hroom
  obtain ⟨b', hb', hcontent⟩ := Buffer.prepend_of_le _ hfits
  refine ⟨b', ?_, ?_⟩
  · rw [prog.fill_eq]
    exact hb'
  · rw [hcontent, Buffer.content_append, hready.content_eq, List.nil_append, messageFrame]

theorem framesOf_append (prog : Program M) (sent : List M) (m : M) :
    framesOf prog (sent ++ [m]) = framesOf prog sent ++ messageFrame (prog.payload m) := by
  rw [framesOf, List.map_append, List.flatten_append]
  simp [framesOf]

section Phase

variable {prog : Program M} {s s' : Sender M}

/-- A send that finds the buffer empty finds nothing outstanding. -/
theorem Phase.send (hphase : Phase prog s) {m : M} (hempty : s.outputBuffer.readableBytes = 0)
    (h : step prog s (.send m) = some s') : s'.violated = false ∧ Phase prog s' := by
  obtain ⟨hok, hcases⟩ := step_send h
  cases hphase with
  | idle writes failed ready wire =>
      obtain ⟨b, hb, hcontent⟩ := content_fill prog ready m
      rcases hcases with ⟨b', hb', rfl⟩ | ⟨hnone, -⟩
      · obtain rfl := Option.some.inj (hb.symm.trans hb')
        refine ⟨hok, .writing _ ?_ failed (current_issued b) ?_ (Nat.zero_le _) ?_⟩
        · show s.writes ++ [_] = [_]
          rw [writes]
          rfl
        · show 0 < b.readableBytes
          rw [← b.length_content, hcontent, messageFrame, List.length_append, length_int32Bytes]
          omega
        · show s.wire ++ b.content = framesOf prog (s.sent ++ [m])
          rw [framesOf_append, wire, hcontent]
      · cases hb.symm.trans hnone
  | writing w _ _ _ unsent _ _ => exact absurd hempty (Nat.ne_of_gt unsent)
  | failed _ _ unsent _ => exact absurd hempty (Nat.ne_of_gt unsent)

/-- The bytes that a write transfers are the next ones. -/
theorem Phase.transfer (hphase : Phase prog s) {k n : Nat} {ec : Bool}
    (h : step prog s (.transfer k n ec) = some s') : s'.violated = false ∧ Phase prog s' := by
  obtain ⟨hok, w', hw', hnone, hle, rfl⟩ := step_transfer h
  cases hphase with
  | idle writes _ _ _ => exact nomatch (writes ▸ hw' : ([] : List Write)[k]? = some w')
  | failed writes _ _ _ => exact nomatch (writes ▸ hw' : ([] : List Write)[k]? = some w')
  | writing w writes failed current unsent within wire =>
      rw [writes] at hw'
      obtain ⟨hk, heq⟩ := List.getElem?_eq_some_iff.mp hw'
      obtain rfl : k = 0 := Nat.lt_one_iff.mp hk
      obtain rfl : w = w' := heq
      have hzero : w.transferred = 0 := by rw [Write.transferred, hnone]
      have hread : n ≤ s.outputBuffer.readableBytes := current.length ▸ hle
      refine ⟨hok, .writing { w with result := some (n, ec) } ?_ failed
        ⟨current.offset, current.length, current.bytes, current.size⟩ unsent hle ?_⟩
      · show s.writes.set 0 _ = _
        rw [writes]
        rfl
      · rw [hzero, List.drop_zero] at wire
        show s.wire ++ region s.outputBuffer w.offset n ++ s.outputBuffer.content.drop n = _
        rw [current.offset, region_eq_take s.outputBuffer hread, List.append_assoc,
          List.take_append_drop, wire]

/-- The handler drops what was transferred, and issues the rest. -/
theorem Phase.onWrite (hphase : Phase prog s) {k : Nat}
    (h : step prog s (.onWrite k) = some s') : s'.violated = false ∧ Phase prog s' := by
  obtain ⟨hok, w', n, ec, hw', hresult, rfl⟩ := step_onWrite h
  cases hphase with
  | idle writes _ _ _ => exact nomatch (writes ▸ hw' : ([] : List Write)[k]? = some w')
  | failed writes _ _ _ => exact nomatch (writes ▸ hw' : ([] : List Write)[k]? = some w')
  | writing w writes failed current unsent within wire =>
      rw [writes] at hw'
      obtain ⟨hk, heq⟩ := List.getElem?_eq_some_iff.mp hw'
      obtain rfl : k = 0 := Nat.lt_one_iff.mp hk
      obtain rfl : w = w' := heq
      have hdone : w.transferred = n := by rw [Write.transferred, hresult]
      have hnone : s.writes.eraseIdx 0 = [] := by rw [writes]; rfl
      rw [hdone] at within wire
      cases ec with
      | true => exact ⟨hok, .failed hnone rfl unsent ⟨_, wire⟩⟩
      | false =>
          obtain ⟨b, hb, hcontent⟩ := s.outputBuffer.retrieve_of_le (current.length ▸ within)
          rw [SharedBufferSend.onWrite]
          simp only [Bool.false_eq_true, if_false, hb]
          rw [← hcontent] at wire
          split
          · next hpos =>
              refine ⟨hok, .writing _ ?_ failed (current_issued b) hpos (Nat.zero_le _) wire⟩
              show s.writes.eraseIdx 0 ++ [_] = [_]
              rw [hnone]
              rfl
          · next hpos =>
              have hzero : b.readableBytes = 0 := Nat.eq_zero_of_not_pos hpos
              have hnil : b.content = [] :=
                List.eq_nil_of_length_eq_zero (by rw [b.length_content, hzero])
              refine ⟨hok, .idle hnone failed (ready_of_retrieve hb hzero) ?_⟩
              show s.wire = _
              rw [hnil, List.append_nil] at wire
              exact wire

/-- **EVERY STEP** whose send finds the buffer empty keeps the phase. -/
theorem Phase.step (hphase : Phase prog s) {a : Action M} (hempty : FindsEmpty s a)
    (h : step prog s a = some s') : s'.violated = false ∧ Phase prog s' := by
  cases a with
  | send m => exact hphase.send hempty h
  | transfer k n ec => exact hphase.transfer h
  | onWrite k => exact hphase.onWrite h

theorem Phase.intact (hphase : Phase prog s) (hok : s.violated = false) : Intact prog s := by
  cases hphase with
  | idle writes failed ready wire =>
      refine ⟨hok, ?_, fun _ _ => wire⟩
      intro w hw
      rw [writes] at hw
      cases hw
  | writing w writes failed current unsent within wire =>
      refine ⟨hok, ?_, ?_⟩
      · intro w' hw'
        rw [writes] at hw'
        obtain rfl := List.mem_singleton.mp hw'
        rw [current.offset, current.length, region_content, current.bytes, current.size]
        exact ⟨rfl, rfl⟩
      · intro hnone
        rw [writes] at hnone
        cases hnone
  | failed writes failed unsent wire =>
      refine ⟨hok, ?_, ?_⟩
      · intro w hw
        rw [writes] at hw
        cases hw
      · intro _ hfailed
        cases failed.symm.trans hfailed

theorem phase_of_reachable (h : Reachable prog s) : s.violated = false ∧ Phase prog s := by
  refine h.invariant (I := fun t => t.violated = false ∧ Phase prog t)
    ⟨rfl, .idle rfl rfl (ready_new _) rfl⟩ ?_
  intro t a t' hphase hempty hstep
  exact hphase.2.step hempty hstep

/-- What the socket has carried is the front of the frames, whatever is still
    to come. -/
theorem wire_front (h : Reachable prog s) : s.wire <+: framesOf prog s.sent := by
  cases (phase_of_reachable h).2 with
  | idle writes failed ready wire => exact ⟨[], by rw [List.append_nil, wire]⟩
  | writing w writes failed current unsent within wire => exact ⟨_, wire⟩
  | failed writes failed unsent wire => exact wire

theorem intact_of_reachable (h : Reachable prog s) : Intact prog s := by
  obtain ⟨hok, hphase⟩ := phase_of_reachable h
  exact hphase.intact hok

end Phase

/-- **WIRE INTEGRITY** of the four senders, in every run in which each send
    finds the buffer empty. -/
theorem senders_intact {M : Type} (P : Protobuf M) :
    (∀ s, Reachable chatSession s → Intact chatSession s) ∧
    (∀ s, Reachable chatClient s → Intact chatClient s) ∧
    (∀ s, Reachable (rpcClient P) s → Intact (rpcClient P) s) ∧
    (∀ s, Reachable (rpcSession P) s → Intact (rpcSession P) s) :=
  ⟨fun _ => intact_of_reachable, fun _ => intact_of_reachable, fun _ => intact_of_reachable,
    fun _ => intact_of_reachable⟩

/-- A message in two transfers, and then another. -/
def sendInTurn : List (Action Bytes) :=
  [.send [104, 105], .transfer 0 3 false, .onWrite 0, .transfer 0 3 false, .onWrite 0,
    .send [33], .transfer 0 5 false, .onWrite 0]

theorem senders_intact_in_turn :
    ∃ s : Sender Bytes, guardedRun (step chatSession) FindsEmpty Sender.new sendInTurn = some s ∧
      s.wire = [0, 0, 0, 2, 104, 105, 0, 0, 0, 1, 33] ∧ Intact chatSession s := by
  have hrun : (guardedRun (step chatSession) FindsEmpty Sender.new sendInTurn).map Sender.wire
      = some [0, 0, 0, 2, 104, 105, 0, 0, 0, 1, 33] := by
    decide +kernel
  obtain ⟨s, hs, hwire⟩ := Option.map_eq_some_iff.mp hrun
  exact ⟨s, hs, hwire, (senders_intact AsioRpcReader.testProto).1 s (reaches_of_guardedRun hs)⟩

/-- Two sends in a row of a message with a frame of `n` bytes: both writes
    transfer all of their regions, and then their handlers run. -/
def sendTwice {M : Type} (m : M) (n : Nat) : List (Action M) :=
  [.send m, .send m, .transfer 0 n false, .transfer 1 (n + n) false, .onWrite 0, .onWrite 0]

/-- The second handler retrieves more than there is. -/
theorem pipelined_sends :
    (∃ s, Reaches (step chatSession) AsioStep Sender.new s ∧ s.violated = true) ∧
    (∃ s, Reaches (step chatClient) AsioStep Sender.new s ∧ s.violated = true) ∧
    (∃ s, Reaches (step (rpcClient AsioRpcReader.testProto)) AsioStep Sender.new s ∧
      s.violated = true) ∧
    ∃ s, Reaches (step (rpcSession AsioRpcReader.testProto)) AsioStep Sender.new s ∧
      s.violated = true := by
  refine ⟨?_, ?_, ?_, ?_⟩
  · have hrun : (guardedRun (step chatSession) AsioStep Sender.new (sendTwice [33] 5)).map
        Sender.violated = some true := by
      decide +kernel
    exact exists_of_guardedRun hrun
  · have hrun : (guardedRun (step chatClient) AsioStep Sender.new (sendTwice [33] 5)).map
        Sender.violated = some true := by
      decide +kernel
    exact exists_of_guardedRun hrun
  · have hrun : (guardedRun (step (rpcClient AsioRpcReader.testProto)) AsioStep Sender.new
        (sendTwice ⟨1, []⟩ 6)).map Sender.violated = some true := by
      decide +kernel
    exact exists_of_guardedRun hrun
  · have hrun : (guardedRun (step (rpcSession AsioRpcReader.testProto)) AsioStep Sender.new
        (sendTwice ⟨1, []⟩ 6)).map Sender.violated = some true := by
      decide +kernel
    exact exists_of_guardedRun hrun

end SharedBufferSend
