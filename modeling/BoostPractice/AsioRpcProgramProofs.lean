import BoostPractice.AsioRpcRequestProofs
import BoostPractice.AsioRpcResponseProofs

/-! # The first RPC program, end to end

    `send_request` makes a `TestReq` of a line and `CallMethod` writes it; the
    session reads it, `TestSolve` adds one to every byte of its message, and
    `doneCallback` writes the `TestRes`; the client reads that and `on_solved`
    prints it.  Each side has one `outputBuffer_` and a loop of its own.

    With the next call made when the last one is solved, and no read handled
    before the handler of a write that is over, both buffers are empty when
    they are filled and every reader sees one message at a time.  A `Stage` of
    the program is a call on its way, and every step keeps to it.

    `P` and `Q` are what protobuf does for requests and for responses; relied
    on is that the messages of the calls made are parsed back. -/

namespace AsioRpcProgram

open MachineInt FrameDecoding BoostBuffer RpcMessages PrefixReader GuardedRun
open AsioRpcReader (ResCalls ResponseCall Solved TestMessage testProto rpcSessionGuard)
open AsioRpcRequest (Session answer testSolve prefixNext_request prefixNext_incomplete step_answer)
open SharedBufferSend (Sender Write Phase framesOf rpcClient rpcSession)

/-! ## The program -/

inductive Party where
  | client
  | server
  deriving DecidableEq

def Party.peer : Party → Party
  | .client => .server
  | .server => .client

/-- What a party sends: `CallMethod` and `doneCallback` fill its buffer. -/
def Party.sender (P Q : Protobuf TestMessage) : Party → SharedBufferSend.Program TestMessage
  | .client => rpcClient P
  | .server => rpcSession Q

/-- An `rpc_client` or an `rpc_session`: its two buffers, whether it is in the
    loop of `on_read`, how many bytes it has read, and whether the loop has met
    a failing assertion or undefined behaviour. -/
structure Side where
  inputBuffer : Buffer
  reading : Bool
  received : Nat
  output : Sender TestMessage
  failed : Bool

def Side.new : Side := ⟨Buffer.new kInitialSize, false, 0, Sender.new, false⟩

/-- `on_read` puts the bytes in the buffer and enters the loop. -/
def Side.arrive (p : Side) (bytes : Bytes) : Side :=
  { p with
    inputBuffer := (p.inputBuffer.ensureWritableBytes bytes.length).append bytes
    reading := true
    received := p.received + bytes.length }

/-- The client, the session, `id_`, `resCalls_` and what `on_solved` was
    called with. -/
structure Program where
  client : Side
  server : Side
  id : Int32
  resCalls : ResCalls
  solved : List (Solved TestMessage)

def Program.new : Program := ⟨.new, .new, 0, fun _ => none, []⟩

def Program.side (s : Program) : Party → Side
  | .client => s.client
  | .server => s.server

def Program.setSide (s : Program) (x : Party) (p : Side) : Program :=
  match x with
  | .client => { s with client := p }
  | .server => { s with server := p }

/-- The requests made so far. -/
def Program.requests (s : Program) : List TestMessage := s.client.output.sent

inductive Action where
  | sendRequest (msg : Bytes)
  /-- The `k`-th outstanding write of `x` transfers `n` bytes, and may fail. -/
  | transfer (x : Party) (k n : Nat) (ec : Bool)
  /-- Its handler, `on_send` or `on_write`. -/
  | onWrite (x : Party) (k : Nat)
  /-- `on_read` of `x`, with `n` bytes. -/
  | read (x : Party) (n : Nat)
  /-- One evaluation of its loop condition and, if it holds, of the body. -/
  | iterate (x : Party)

section Program

variable (P Q : Protobuf TestMessage)

/-- A step of a party with its `outputBuffer_`. -/
def Program.write (s : Program) (x : Party) (a : SharedBufferSend.Action TestMessage) :
    Option Program :=
  (SharedBufferSend.step (x.sender P Q) (s.side x).output a).map fun output =>
    s.setSide x { s.side x with output }

/-- `rpc_client::send_request`, with `CallMethod`.  The response object and the
    closure of a call are new, and named by the number of the call. -/
def Program.sendRequest (s : Program) (msg : Bytes) : Option Program :=
  let req : TestMessage := ⟨s.id, msg⟩
  let call := s.requests.length
  (s.write P Q .client (.send req)).map fun s =>
    { s with
      id := s.id + 1
      resCalls := Function.update s.resCalls req.id (some ⟨some call, some call⟩) }

/-- An iteration of `rpc_client::on_read`. -/
def Program.clientIterate (s : Program) : Program :=
  match AsioRpcResponse.iterate Q TestMessage.id s.client.inputBuffer s.resCalls with
  | .ok (some (it, inputBuffer)) =>
      { s with
        client := { s.client with inputBuffer }
        resCalls := it.resCalls
        solved := s.solved ++ [it.solved] }
  | .ok none => { s with client := { s.client with reading := false } }
  | .error _ => { s with client := { s.client with failed := true } }

/-- An iteration of `rpc_session::on_read`. -/
def Program.serverIterate (s : Program) : Program :=
  match AsioRpcRequest.iterate P Q ⟨s.server.inputBuffer, s.server.output⟩ with
  | .ok (some (_, session)) =>
      { s with
        server := { s.server with inputBuffer := session.inputBuffer, output := session.output } }
  | .ok none => { s with server := { s.server with reading := false } }
  | .error _ => { s with server := { s.server with failed := true } }

/-- One step; nothing if it cannot happen. -/
def step (s : Program) : Action → Option Program
  | .sendRequest msg => s.sendRequest P Q msg
  | .transfer x k n ec => s.write P Q x (.transfer k n ec)
  | .onWrite x k => s.write P Q x (.onWrite k)
  | .read x n =>
      let p := s.side x
      let bytes := ((s.side x.peer).output.wire.drop p.received).take n
      if p.failed = false ∧ p.reading = false ∧ 0 < n ∧ n ≤ 100 ∧ bytes.length = n then
        some (s.setSide x (p.arrive bytes))
      else none
  | .iterate x =>
      if (s.side x).failed = false ∧ (s.side x).reading = true then
        match x with
        | .client => some (s.clientIterate Q)
        | .server => some (s.serverIterate P Q)
      else none

/-- Request and response leave room for their lengths, the session's an `int`
    sum, and protobuf parses them back; that a parse says so is not looked at. -/
structure Carried (request : TestMessage) : Prop where
  request_le : (P.serialize request).length ≤ 2 ^ 31 - 5
  request_eq : (P.parseFromArray (P.serialize request)).1 = request
  response_lt : (Q.serialize (testSolve request)).length < 2 ^ 31
  response_eq : (Q.parseFromArray (Q.serialize (testSolve request))).1 = testSolve request

theorem carried_iff (request : TestMessage) :
    ((P.serialize request).length ≤ 2 ^ 31 - 5 ∧
      (P.parseFromArray (P.serialize request)).1 = request ∧
      (Q.serialize (testSolve request)).length < 2 ^ 31 ∧
      (Q.parseFromArray (Q.serialize (testSolve request))).1 = testSolve request) ↔
      Carried P Q request := by
  constructor
  · rintro ⟨hle, heq, hlt, heq'⟩
    exact ⟨hle, heq, hlt, heq'⟩
  · rintro ⟨hle, heq, hlt, heq'⟩
    exact ⟨hle, heq, hlt, heq'⟩

instance (request : TestMessage) : Decidable (Carried P Q request) :=
  decidable_of_iff _ (carried_iff P Q request)

/-- **IN TURN**: a call is made when those before it are solved, of messages
    that are carried; writes succeed; and the handlers of a thread run in
    order, that of a write that is over before that of a read. -/
def InTurn (s : Program) : Action → Prop
  | .sendRequest msg => s.solved.length = s.requests.length ∧ Carried P Q ⟨s.id, msg⟩
  | .transfer _ _ n ec => ec = false ∧ 0 < n
  | .read x _ => ∀ w ∈ (s.side x).output.writes, w.result = none
  | _ => True

instance (s : Program) (a : Action) : Decidable (InTurn P Q s a) :=
  match a with
  | .sendRequest _ => inferInstanceAs (Decidable (_ ∧ _))
  | .transfer _ _ _ _ => inferInstanceAs (Decidable (_ ∧ _))
  | .read _ _ => inferInstanceAs (Decidable (∀ _ ∈ _, _))
  | .onWrite _ _ => isTrue trivial
  | .iterate _ => isTrue trivial

def Reachable : Program → Prop := Reaches (step P Q) (InTurn P Q) Program.new

end Program

/-- What `on_solved` is to be called with, each call with its own objects. -/
def answers (requests : List TestMessage) : List (Solved TestMessage) :=
  requests.mapIdx fun call m => ⟨call, testSolve m, call⟩

/-! ## A sender without faults -/

/-- No assertion of the sender has failed and none of its writes. -/
structure Faultless (prog : SharedBufferSend.Program TestMessage) (o : Sender TestMessage) :
    Prop where
  phase : Phase prog o
  asserted : o.violated = false
  written : o.failed = false
  succeed : ∀ w ∈ o.writes, ∀ n, w.result ≠ some (n, true)

section Faultless

variable {prog : SharedBufferSend.Program TestMessage} {o o' : Sender TestMessage}

theorem faultless_new : Faultless prog Sender.new where
  phase := .idle rfl rfl (RpcCodecSend.ready_new _) rfl
  asserted := rfl
  written := rfl
  succeed := by
    intro w hw
    cases hw

/-- What is on the socket and what is not yet are the frames. -/
theorem Faultless.wire (h : Faultless prog o) :
    ∃ rest, o.wire ++ rest = framesOf prog o.sent ∧
      (rest = [] → (∀ w ∈ o.writes, w.result = none) → o.writes = []) := by
  cases h.phase with
  | idle writes _ _ wire => exact ⟨[], by rw [List.append_nil, wire], fun _ _ => writes⟩
  | failed _ failed _ => cases failed.symm.trans h.written
  | writing w writes _ current unsent _ wire =>
      refine ⟨_, wire, fun hrest hnone => ?_⟩
      -- nothing is left to transfer, so the write is over
      have hresult : w.result = none := hnone w (by rw [writes]; exact List.mem_singleton_self w)
      rw [Write.transferred, hresult, List.drop_zero, ← List.length_eq_zero_iff,
        Buffer.length_content] at hrest
      exact absurd hrest (Nat.ne_of_gt unsent)

/-- With nothing outstanding the buffer is empty. -/
theorem Faultless.empty (h : Faultless prog o) (hwrites : o.writes = []) :
    o.outputBuffer.readableBytes = 0 := by
  cases h.phase with
  | idle _ _ ready _ => rw [← Buffer.length_content, ready.content_eq, List.length_nil]
  | failed _ failed _ => cases failed.symm.trans h.written
  | writing w writes _ _ _ _ _ => exact absurd (writes.symm.trans hwrites) (List.cons_ne_nil _ _)

/-- A send that finds nothing outstanding succeeds. -/
theorem Faultless.send (h : Faultless prog o) (hwrites : o.writes = []) (m : TestMessage) :
    ∃ o', SharedBufferSend.step prog o (.send m) = some o' ∧ Faultless prog o' ∧
      o'.sent = o.sent ++ [m] ∧ o'.wire = o.wire ∧ ∀ w ∈ o'.writes, w.result = none := by
  have hempty := h.empty hwrites
  obtain ⟨o', ho'⟩ : ∃ o', SharedBufferSend.step prog o (.send m) = some o' := by
    rw [SharedBufferSend.step, h.asserted]
    cases prog.fill o.outputBuffer m with
    | none => exact ⟨_, rfl⟩
    | some b => exact ⟨_, rfl⟩
  obtain ⟨hasserted, hphase⟩ := h.phase.send hempty ho'
  rcases (SharedBufferSend.step_send ho').2 with ⟨b, hb, rfl⟩ | ⟨-, rfl⟩
  · have hnew : ∀ w ∈ Sender.writes { o with outputBuffer := b, sent := o.sent ++ [m] }.issue,
        w.result = none := by
      intro w hw
      have hw : w ∈ o.writes ++ [_] := hw
      rw [hwrites, List.nil_append] at hw
      rw [List.mem_singleton.mp hw]
    refine ⟨_, ho', ⟨hphase, hasserted, h.written, ?_⟩, rfl, rfl, hnew⟩
    intro w hw n
    rw [hnew w hw]
    exact (Option.some_ne_none _).symm
  · cases hasserted

/-- The bytes of a transfer are all there. -/
theorem Faultless.length_wire (h : Faultless prog o) {k n : Nat} {ec : Bool}
    (hstep : SharedBufferSend.step prog o (.transfer k n ec) = some o') :
    o'.wire.length = o.wire.length + n := by
  obtain ⟨-, w, hw, -, hle, rfl⟩ := SharedBufferSend.step_transfer hstep
  have hmem : w ∈ o.writes := List.mem_of_getElem? hw
  have hcurrent : w.Current o.outputBuffer := by
    cases h.phase with
    | idle writes _ _ _ => exact absurd (writes ▸ hmem) List.not_mem_nil
    | failed writes _ _ => exact absurd (writes ▸ hmem) List.not_mem_nil
    | writing w' writes _ current _ _ _ =>
        rw [writes] at hmem
        rw [List.mem_singleton.mp hmem]
        exact current
  rw [hcurrent.length] at hle
  show (o.wire ++ RpcCodecPool.region o.outputBuffer w.offset n).length = _
  rw [hcurrent.offset, RpcCodecPool.region_eq_take _ hle, List.length_append, List.length_take,
    Buffer.length_content, Nat.min_eq_left hle]

/-- A successful transfer adds to what is on the socket. -/
theorem Faultless.transfer (h : Faultless prog o) {k n : Nat}
    (hstep : SharedBufferSend.step prog o (.transfer k n false) = some o') :
    Faultless prog o' ∧ o.writes ≠ [] ∧ o'.sent = o.sent ∧ o.wire <+: o'.wire := by
  obtain ⟨hasserted, hphase⟩ := h.phase.transfer hstep
  obtain ⟨-, w, hw, -, -, rfl⟩ := SharedBufferSend.step_transfer hstep
  refine ⟨⟨hphase, hasserted, h.written, ?_⟩, ?_, rfl, List.prefix_append _ _⟩
  · intro w' hw' n'
    rcases List.mem_or_eq_of_mem_set hw' with hmem | rfl
    · exact h.succeed w' hmem n'
    · exact fun heq => nomatch (Prod.mk.inj (Option.some.inj heq)).2
  · intro hnil
    rw [hnil] at hw
    cases hw

/-- There is one write at most. -/
theorem Faultless.single (h : Faultless prog o) {k : Nat} {w : Write}
    (hw : o.writes[k]? = some w) : k = 0 ∧ o.writes = [w] := by
  cases h.phase with
  | idle writes _ _ _ => exact nomatch (writes ▸ hw : ([] : List Write)[k]? = some w)
  | failed writes _ _ => exact nomatch (writes ▸ hw : ([] : List Write)[k]? = some w)
  | writing w' writes _ _ _ _ _ =>
      rw [writes] at hw
      obtain ⟨hk, heq⟩ := List.getElem?_eq_some_iff.mp hw
      obtain rfl : k = 0 := Nat.lt_one_iff.mp hk
      exact ⟨rfl, writes.trans (congrArg (· :: []) heq)⟩

/-- The handler of the write puts nothing on the socket, and if it issues
    another write that one is to come. -/
theorem Faultless.onWrite (h : Faultless prog o) {k : Nat}
    (hstep : SharedBufferSend.step prog o (.onWrite k) = some o') :
    Faultless prog o' ∧ o'.sent = o.sent ∧ o'.wire = o.wire ∧
      (∀ w ∈ o'.writes, w.result = none) ∧ ∃ w, o.writes = [w] ∧ w.result ≠ none := by
  obtain ⟨hasserted, hphase⟩ := h.phase.onWrite hstep
  obtain ⟨-, w, n, ec, hw, hresult, rfl⟩ := SharedBufferSend.step_onWrite hstep
  obtain ⟨rfl, hwrites⟩ := h.single hw
  have hnone : o.writes.eraseIdx 0 = [] := by rw [hwrites]; rfl
  obtain rfl : ec = false := by
    cases ec with
    | false => rfl
    | true => exact absurd hresult (h.succeed w (List.mem_of_getElem? hw) n)
  rw [SharedBufferSend.onWrite] at hphase hasserted ⊢
  simp only [Bool.false_eq_true, if_false] at hphase hasserted ⊢
  cases hretrieve : o.outputBuffer.retrieve n with
  | none =>
      rw [hretrieve] at hasserted
      cases hasserted
  | some b =>
      simp only [hretrieve, hnone] at hphase hasserted ⊢
      have hold : ∃ w, o.writes = [w] ∧ w.result ≠ none :=
        ⟨w, hwrites, Option.ne_none_iff_exists'.mpr ⟨_, hresult⟩⟩
      split at hphase
      · next hpos =>
          -- the rest is issued
          rw [if_pos hpos]
          have hnew : ∀ w ∈
              ({ o with outputBuffer := b, writes := [] } : Sender TestMessage).issue.writes,
              w.result = none := by
            intro w' hw'
            rw [List.mem_singleton.mp hw']
          refine ⟨⟨hphase, h.asserted, h.written, ?_⟩, rfl, rfl, hnew, hold⟩
          intro w' hw' n'
          rw [hnew w' hw']
          exact (Option.some_ne_none _).symm
      · next hpos =>
          rw [if_neg hpos]
          refine ⟨⟨hphase, h.asserted, h.written, ?_⟩, rfl, rfl, ?_, hold⟩
          · intro w' hw'
            cases hw'
          · intro w' hw'
            cases hw'

theorem Faultless.wire_le (h : Faultless prog o) :
    o.wire.length ≤ (framesOf prog o.sent).length := by
  obtain ⟨rest, hrest, -⟩ := h.wire
  rw [← hrest, List.length_append]
  exact Nat.le_add_right _ _

end Faultless

/-! ## One evaluation of a loop -/

section Loops

variable {P Q : Protobuf TestMessage} {b : Buffer} {o : Sender TestMessage} {m : TestMessage}

/-- The session waits until the request is there. -/
theorem session_waits (hok : o.violated = false) {p : Bytes} (hsize : p.length ≤ 2 ^ 31 - 5)
    (hfront : b.content <+: messageFrame p) (hshort : b.content.length < (messageFrame p).length) :
    AsioRpcRequest.iterate P Q ⟨b, o⟩ = .ok none := by
  obtain ⟨t, ht⟩ := hfront
  have hcut : b.content ++ t = messageFrame p ++ [] := by rw [ht, List.append_nil]
  have hfollows := readerStep_follows (G := rpcSessionGuard) retrieveAsString_copies
  have hstep := hfollows.more b (prefixNext_incomplete hsize hcut hshort)
  rw [AsioRpcRequest.iterate, if_neg (Bool.eq_false_iff.mp hok), hstep]

/-- When it is, the session takes it and sends the response. -/
theorem session_answers (hok : o.violated = false) (hcarried : Carried P Q m)
    (hcontent : b.content = messageFrame (P.serialize m)) :
    ∃ b', AsioRpcRequest.iterate P Q ⟨b, o⟩ = .ok (some (m, ⟨b', answer Q o (testSolve m)⟩)) ∧
      b'.content = [] := by
  have hfollows := readerStep_follows (G := rpcSessionGuard) retrieveAsString_copies
  have hnext := prefixNext_request hcarried.request_le []
  rw [List.append_nil, ← hcontent] at hnext
  obtain ⟨b', hstep, hb'⟩ := hfollows.frame b _ [] hnext
  refine ⟨b', ?_, hb'⟩
  rw [AsioRpcRequest.iterate, if_neg (Bool.eq_false_iff.mp hok), hstep]
  simp only [hcarried.request_eq]

/-- The only call is the one that is answered. -/
def pendingCall (m : TestMessage) (call : Nat) : ResCalls :=
  Function.update (fun _ => none) m.id (some ⟨some call, some call⟩)

/-- The client solves the call that the response is for. -/
theorem client_solves (call : Nat) (hcarried : Carried P Q m)
    (hcontent : b.content = messageFrame (Q.serialize (testSolve m))) :
    ∃ it b', AsioRpcResponse.iterate Q TestMessage.id b (pendingCall m call)
        = .ok (some (it, b')) ∧
      it.solved = ⟨call, testSolve m, call⟩ ∧ it.resCalls = (fun _ => none) ∧ b'.content = [] := by
  have hlen := hcarried.response_lt
  have hcontent' : b.content = messageFrame (Q.serialize (testSolve m)) ++ [] := by
    rw [hcontent, List.append_nil]
  obtain ⟨b', hb', hit⟩ := AsioRpcResponse.iterate_complete Q TestMessage.id hlen hcontent'
    (pendingCall m call)
  rw [List.append_nil] at hit
  have hrange : toSizeT (toInt32 (Q.serialize (testSolve m)).length)
      = (Q.serialize (testSolve m)).length :=
    (AsioRpcResponse.toSizeT_toInt32_eq_iff hlen).mpr (Nat.mod_eq_of_lt (by omega))
  have hfits : AsioRpcResponse.Fits (Q.serialize (testSolve m)) := Nat.le_of_eq hrange
  have hvalue : AsioRpcResponse.valueOf Q
      (AsioRpcReader.parsedRange (Q.serialize (testSolve m))) = testSolve m := by
    rw [AsioRpcReader.parsedRange, hrange, List.take_length]
    exact hcarried.response_eq
  have hcall : pendingCall m call (testSolve m).id = some ⟨some call, some call⟩ :=
    Function.update_self _ _ _
  have hnone : Function.update (pendingCall m call) (testSolve m).id none = fun _ => none := by
    show Function.update (Function.update (fun _ => none) m.id _) m.id none = _
    rw [Function.update_idem, Function.update_eq_self_iff.mpr rfl]
  rw [AsioRpcResponse.complete, if_pos hfits] at hit
  simp only [hvalue, hcall, hnone] at hit
  exact ⟨_, b', hit, rfl, rfl, hb'⟩

end Loops

/-! ## A call on its way -/

section Stages

variable (P Q : Protobuf TestMessage)

def Program.sent (s : Program) (x : Party) : List TestMessage := (s.side x).output.sent

def Program.input (s : Program) (x : Party) : Bytes := (s.side x).inputBuffer.content

/-- The bytes sent to `x` that its loop has not taken: those in its buffer, and
    those that it has not read. -/
def Program.ahead (s : Program) (x : Party) : Bytes :=
  s.input x ++ (framesOf (x.peer.sender P Q) (s.sent x.peer)).drop (s.side x).received

/-- The requests with an answer while `m` or its answer is on the way to `x`. -/
def Party.answered (before : List TestMessage) (m : TestMessage) : Party → List TestMessage
  | .server => before
  | .client => before ++ [m]

/-- What is on its way. -/
def Party.awaited (m : TestMessage) : Party → Bytes
  | .server => P.serialize m
  | .client => Q.serialize (testSolve m)

/-- As long as its reader can take. -/
def Party.limit : Party → Nat
  | .server => 2 ^ 31 - 5
  | .client => 2 ^ 31 - 1

/-- Every call is solved. -/
structure Quiet (s : Program) : Prop where
  responses : s.sent .server = s.requests.map testSolve
  solved : s.solved = answers s.requests
  resCalls : s.resCalls = fun _ => none
  ahead : ∀ x, s.ahead P Q x = []
  free : s.client.output.writes = []

/-- The last call, of `m`, is on its way to `x`.  When `x` has begun to read it,
    its own writes are over. -/
structure Underway (s : Program) (x : Party) (before : List TestMessage) (m : TestMessage) :
    Prop where
  requests : s.requests = before ++ [m]
  responses : s.sent .server = (x.answered before m).map testSolve
  solved : s.solved = answers before
  resCalls : s.resCalls = pendingCall m before.length
  ahead : s.ahead P Q x = messageFrame (x.awaited P Q m)
  nothing : s.ahead P Q x.peer = []
  free : s.input x ≠ [] → (s.side x).output.writes = []
  partly : (s.side x).reading = false →
    (s.input x).length < (messageFrame (x.awaited P Q m)).length

inductive Stage (s : Program) : Prop where
  | quiet (h : Quiet P Q s)
  | underway (x : Party) (before : List TestMessage) (m : TestMessage)
      (h : Underway P Q s x before m)

/-- The ids count up from zero, as an `int` does. -/
def Numbered (s : Program) : Prop :=
  s.id = Int32.ofNat s.requests.length ∧
    s.requests.map TestMessage.id = (List.range s.requests.length).map Int32.ofNat

/-- No assertion fails on either side, and the calls are in order. -/
structure Orderly (s : Program) : Prop where
  faultless : ∀ x, Faultless (x.sender P Q) (s.side x).output
  survived : ∀ x, (s.side x).failed = false
  received : ∀ x, (s.side x).received ≤ (s.side x.peer).output.wire.length
  carried : ∀ m ∈ s.requests, Carried P Q m
  numbered : Numbered s
  stage : Stage P Q s

end Stages

variable {P Q : Protobuf TestMessage}

section Frame

variable {s : Program} {x : Party} {p : Side}

@[simp]
theorem side_setSide_self : (s.setSide x p).side x = p := by
  cases x with
  | client => rfl
  | server => rfl

@[simp]
theorem side_setSide_peer : (s.setSide x p).side x.peer = s.side x.peer := by
  cases x with
  | client => rfl
  | server => rfl

@[simp]
theorem peer_peer (x : Party) : x.peer.peer = x := by
  cases x with
  | client => rfl
  | server => rfl

/-- A party is this one or the other. -/
theorem eq_or_peer (x y : Party) : y = x ∨ y = x.peer := by
  cases x with
  | client =>
      cases y with
      | client => exact .inl rfl
      | server => exact .inr rfl
  | server =>
      cases y with
      | client => exact .inr rfl
      | server => exact .inl rfl

/-- What holds of the new side and of the other holds of both. -/
theorem forall_setSide {R : Party → Side → Prop} (hself : R x p)
    (hother : R x.peer (s.side x.peer)) (y : Party) : R y ((s.setSide x p).side y) := by
  rcases eq_or_peer x y with rfl | rfl
  · rw [side_setSide_self]
    exact hself
  · rw [side_setSide_peer]
    exact hother

@[simp]
theorem solved_setSide : (s.setSide x p).solved = s.solved := by
  cases x with
  | client => rfl
  | server => rfl

@[simp]
theorem resCalls_setSide : (s.setSide x p).resCalls = s.resCalls := by
  cases x with
  | client => rfl
  | server => rfl

end Frame

@[simp]
theorem id_setSide {s : Program} {x : Party} {p : Side} : (s.setSide x p).id = s.id := by
  cases x with
  | client => rfl
  | server => rfl

theorem Numbered.of_eq {s s' : Program} (h : Numbered s) (hid : s'.id = s.id)
    (hrequests : s'.requests = s.requests) : Numbered s' := by
  rw [Numbered, hid, hrequests]
  exact h

/-- The next call has the next id. -/
theorem Numbered.call {s s' : Program} (h : Numbered s) {msg : Bytes} (hid : s'.id = s.id + 1)
    (hrequests : s'.requests = s.requests ++ [⟨s.id, msg⟩]) : Numbered s' := by
  obtain ⟨hnext, hids⟩ := h
  refine ⟨?_, ?_⟩
  · rw [hid, hrequests, List.length_append, hnext, Int32.ofNat_add]
    rfl
  · rw [hrequests, List.length_append, List.map_append, hids, List.length_singleton,
      List.range_succ, List.map_append, List.map_singleton, List.map_singleton, ← hnext]

/-- Two states that differ only in what is written and what is being read. -/
structure SameCalls (s s' : Program) : Prop where
  sent : ∀ x, s'.sent x = s.sent x
  input : ∀ x, s'.input x = s.input x
  received : ∀ x, (s'.side x).received = (s.side x).received
  solved : s'.solved = s.solved
  resCalls : s'.resCalls = s.resCalls

section SameCalls

variable {s s' : Program}

theorem SameCalls.requests_eq (hsame : SameCalls s s') : s'.requests = s.requests :=
  hsame.sent .client

theorem SameCalls.ahead_eq (hsame : SameCalls s s') (x : Party) :
    s'.ahead P Q x = s.ahead P Q x := by
  rw [Program.ahead, Program.ahead, hsame.input, hsame.sent, hsame.received]

/-- Where writes are over they stay over, and where a loop is left its message
    is not complete. -/
theorem Stage.of_same (h : Stage P Q s) (hsame : SameCalls s s')
    (hfree : ∀ x, (s.side x).output.writes = [] → (s'.side x).output.writes = [])
    (hleft : ∀ x before m, Underway P Q s x before m → (s'.side x).reading = false →
      (s.input x).length < (messageFrame (x.awaited P Q m)).length) : Stage P Q s' := by
  cases h with
  | quiet h =>
      refine .quiet ⟨?_, ?_, ?_, ?_, hfree .client h.free⟩
      · rw [hsame.sent, hsame.requests_eq, h.responses]
      · rw [hsame.solved, hsame.requests_eq, h.solved]
      · rw [hsame.resCalls, h.resCalls]
      · intro x
        rw [hsame.ahead_eq, h.ahead]
  | underway x before m h =>
      refine .underway x before m ⟨?_, ?_, ?_, ?_, ?_, ?_, ?_, ?_⟩
      · rw [hsame.requests_eq, h.requests]
      · rw [hsame.sent, h.responses]
      · rw [hsame.solved, h.solved]
      · rw [hsame.resCalls, h.resCalls]
      · rw [hsame.ahead_eq, h.ahead]
      · rw [hsame.ahead_eq, h.nothing]
      · intro hne
        rw [hsame.input] at hne
        exact hfree x (h.free hne)
      · intro hreading
        rw [hsame.input]
        exact hleft x before m h hreading

end SameCalls

/-! ## Every step keeps to the stage -/

section Steps

variable {s s' : Program} {x : Party}

/-- Where nothing is ahead of a party, it has read all that was sent to it. -/
theorem received_of_nothing (h : Orderly P Q s) (hnil : s.ahead P Q x = []) :
    s.input x = [] ∧ (s.side x).received = (s.side x.peer).output.wire.length ∧
      (s.side x.peer).output.wire = framesOf (x.peer.sender P Q) (s.sent x.peer) := by
  obtain ⟨hinput, hdrop⟩ := List.append_eq_nil_iff.mp hnil
  obtain ⟨rest, hrest, -⟩ := (h.faultless x.peer).wire
  have hle := h.received x
  have hall : (framesOf (x.peer.sender P Q) (s.sent x.peer)).length ≤ (s.side x).received :=
    List.drop_eq_nil_iff.mp hdrop
  have hlength := congrArg List.length hrest
  rw [List.length_append] at hlength
  have hall : (framesOf (x.peer.sender P Q) (s.side x.peer).output.sent).length
      ≤ (s.side x).received := hall
  obtain rfl : rest = [] := List.eq_nil_of_length_eq_zero (by omega)
  rw [List.append_nil] at hrest
  exact ⟨hinput, by omega, hrest⟩

/-- The bytes of one more frame are all that is ahead. -/
theorem drop_framesOf_append {prog : SharedBufferSend.Program TestMessage}
    {sent : List TestMessage} {n : Nat} (hn : n = (framesOf prog sent).length) (m : TestMessage) :
    (framesOf prog (sent ++ [m])).drop n = messageFrame (prog.payload m) := by
  rw [SharedBufferSend.framesOf_append, List.drop_left' hn.symm]

/-- One party goes on with a write, or leaves its loop. -/
theorem Orderly.setSide (h : Orderly P Q s) {p : Side}
    (hfaultless : Faultless (x.sender P Q) p.output) (hfailed : p.failed = false)
    (hsent : p.output.sent = s.sent x) (hinput : p.inputBuffer.content = s.input x)
    (hreceived : p.received = (s.side x).received)
    (hwire : (s.side x).output.wire <+: p.output.wire)
    (hfree : (s.side x).output.writes = [] → p.output.writes = [])
    (hleft : p.reading = false → ∀ before m, Underway P Q s x before m →
      (s.input x).length < (messageFrame (x.awaited P Q m)).length) :
    Orderly P Q (s.setSide x p) := by
  have hsame : SameCalls s (s.setSide x p) :=
    ⟨forall_setSide (R := fun y p => p.output.sent = s.sent y) hsent rfl,
      forall_setSide (R := fun y p => p.inputBuffer.content = s.input y) hinput rfl,
      forall_setSide (R := fun y p => p.received = (s.side y).received) hreceived rfl,
      solved_setSide, resCalls_setSide⟩
  refine ⟨?_, ?_, ?_, ?_, h.numbered.of_eq id_setSide hsame.requests_eq,
    h.stage.of_same hsame ?_ ?_⟩
  · exact forall_setSide (R := fun y p => Faultless (y.sender P Q) p.output) hfaultless
      (h.faultless x.peer)
  · exact forall_setSide (R := fun _ p => p.failed = false) hfailed (h.survived x.peer)
  · intro y
    have hgrows := forall_setSide (s := s)
      (R := fun z p => (s.side z).output.wire <+: p.output.wire) hwire (List.prefix_refl _) y.peer
    rw [hsame.received]
    exact Nat.le_trans (h.received y) hgrows.length_le
  · rw [hsame.requests_eq]
    exact h.carried
  · exact forall_setSide (R := fun y p => (s.side y).output.writes = [] → p.output.writes = [])
      hfree id
  · intro y before m hway hreading
    rcases eq_or_peer x y with rfl | rfl
    · rw [side_setSide_self] at hreading
      exact hleft hreading before m hway
    · rw [side_setSide_peer] at hreading
      exact hway.partly hreading

/-- A transfer, or the handler of a write. -/
theorem Orderly.output (h : Orderly P Q s) {o : Sender TestMessage}
    (hfaultless : Faultless (x.sender P Q) o) (hne : (s.side x).output.writes ≠ [])
    (hsent : o.sent = (s.side x).output.sent) (hwire : (s.side x).output.wire <+: o.wire) :
    Orderly P Q (s.setSide x { s.side x with output := o }) :=
  h.setSide hfaultless (h.survived x) hsent rfl rfl hwire (fun hnil => absurd hnil hne)
    fun hreading _ _ hway => hway.partly hreading

/-- The loop is left before the message is complete. -/
theorem Orderly.left (h : Orderly P Q s)
    (hleft : ∀ before m, Underway P Q s x before m →
      (s.input x).length < (messageFrame (x.awaited P Q m)).length) :
    Orderly P Q (s.setSide x { s.side x with reading := false }) :=
  h.setSide (h.faultless x) (h.survived x) rfl rfl rfl (List.prefix_refl _) id fun _ => hleft

/-- Bytes that are read are still ahead. -/
theorem ahead_arrive {bytes frames rest : Bytes} {n received : Nat} {wire : Bytes}
    (hrest : wire ++ rest = frames) (hle : received ≤ wire.length)
    (hbytes : bytes = (wire.drop received).take n) (hlength : bytes.length = n) (input : Bytes) :
    (input ++ bytes) ++ frames.drop (received + bytes.length) = input ++ frames.drop received := by
  have hroom : received + n ≤ wire.length := by
    rw [hbytes, List.length_take, List.length_drop] at hlength
    omega
  rw [hlength, ← hrest, List.drop_append_of_le_length hroom, List.drop_append_of_le_length hle,
    ← List.drop_drop, hbytes, List.append_assoc, ← List.append_assoc (List.take _ _),
    List.take_append_drop]

/-- While a message is on its way to `x`, all that `x` has sent is written. -/
theorem Underway.written {before : List TestMessage} {m : TestMessage}
    (hway : Underway P Q s x before m) (h : Orderly P Q s)
    (hover : ∀ w ∈ (s.side x).output.writes, w.result = none) :
    (s.side x).output.writes = [] := by
  obtain ⟨rest, hrest, hdone⟩ := (h.faultless x).wire
  obtain ⟨-, -, hwire⟩ := received_of_nothing h hway.nothing
  rw [peer_peer] at hwire
  have hwire : (s.side x).output.wire = framesOf (x.sender P Q) (s.side x).output.sent := hwire
  exact hdone (List.append_cancel_left (hrest.trans (hwire.symm.trans (List.append_nil _).symm)))
    hover

/-- **A READ** takes the next bytes of the message that is on its way. -/
theorem Orderly.read (h : Orderly P Q s) {n : Nat} (hpos : 0 < n)
    (hover : ∀ w ∈ (s.side x).output.writes, w.result = none) {bytes : Bytes}
    (hbytes : bytes = ((s.side x.peer).output.wire.drop (s.side x).received).take n)
    (hlength : bytes.length = n) : Orderly P Q (s.setSide x ((s.side x).arrive bytes)) := by
  obtain ⟨rest, hrest, -⟩ := (h.faultless x.peer).wire
  have hle := h.received x
  have hroom : (s.side x).received + n ≤ (s.side x.peer).output.wire.length := by
    rw [hbytes, List.length_take, List.length_drop] at hlength
    omega
  have hsome (hnil : s.ahead P Q x = []) : False := by
    have := (received_of_nothing h hnil).2.1
    omega
  obtain ⟨before, m, hway⟩ : ∃ before m, Underway P Q s x before m := by
    cases h.stage with
    | quiet hquiet => exact (hsome (hquiet.ahead x)).elim
    | underway y before m hway =>
        rcases eq_or_peer x y with rfl | rfl
        · exact ⟨before, m, hway⟩
        · exact (hsome (peer_peer x ▸ hway.nothing)).elim
  have hsent : ∀ y, (s.setSide x ((s.side x).arrive bytes)).sent y = s.sent y :=
    forall_setSide (R := fun y p => p.output.sent = s.sent y) rfl rfl
  have hwire : ∀ y, ((s.setSide x ((s.side x).arrive bytes)).side y).output.wire
      = (s.side y).output.wire :=
    forall_setSide (R := fun y p => p.output.wire = (s.side y).output.wire) rfl rfl
  have hinput : (s.setSide x ((s.side x).arrive bytes)).input x = s.input x ++ bytes := by
    rw [Program.input, side_setSide_self]
    exact AsioRpcReader.content_arrive _ _
  refine ⟨?_, ?_, ?_, ?_, h.numbered.of_eq id_setSide (hsent .client),
    .underway x before m ⟨?_, ?_, ?_, ?_, ?_, ?_, ?_, ?_⟩⟩
  · exact forall_setSide (R := fun y p => Faultless (y.sender P Q) p.output) (h.faultless x)
      (h.faultless x.peer)
  · exact forall_setSide (R := fun _ p => p.failed = false) (h.survived x) (h.survived x.peer)
  · intro y
    rw [hwire]
    refine forall_setSide
      (R := fun y p => p.received ≤ (s.side y.peer).output.wire.length) ?_ (h.received x.peer) y
    show (s.side x).received + bytes.length ≤ _
    rw [hlength]
    exact hroom
  · have hrequests : (s.setSide x ((s.side x).arrive bytes)).requests = s.requests := hsent .client
    rw [hrequests]
    exact h.carried
  · exact (hsent .client).trans hway.requests
  · exact (hsent .server).trans hway.responses
  · exact solved_setSide.trans hway.solved
  · exact resCalls_setSide.trans hway.resCalls
  · rw [← hway.ahead, Program.ahead, Program.ahead, hsent, hinput, side_setSide_self]
    exact ahead_arrive hrest hle hbytes hlength _
  · rw [← hway.nothing, Program.ahead, Program.ahead, hsent, Program.input, side_setSide_peer]
    rfl
  · intro _
    rw [side_setSide_self]
    exact hway.written h hover
  · rw [side_setSide_self]
    exact nofun

/-- The bytes that a party has of its message are the first ones. -/
theorem Underway.front {before : List TestMessage} {m : TestMessage}
    (hway : Underway P Q s x before m) :
    s.input x <+: messageFrame (x.awaited P Q m) := ⟨_, hway.ahead⟩

theorem Underway.mem {before : List TestMessage} {m : TestMessage}
    (hway : Underway P Q s x before m) : m ∈ s.requests := by
  rw [hway.requests]
  exact List.mem_append_right _ (List.mem_singleton_self m)

theorem Underway.awaited_le {before : List TestMessage} {m : TestMessage}
    (hway : Underway P Q s x before m) (h : Orderly P Q s) :
    (x.awaited P Q m).length ≤ x.limit := by
  have hcarried := h.carried m hway.mem
  cases x with
  | client => exact Nat.le_sub_one_of_lt hcarried.response_lt
  | server => exact hcarried.request_le

/-- A party has a part of its message, if any, or the whole of it. -/
theorem Orderly.input_cases (h : Orderly P Q s) (x : Party) :
    ((∃ p : Bytes, p.length ≤ x.limit ∧ s.input x <+: messageFrame p ∧
        (s.input x).length < (messageFrame p).length) ∧
      ∀ before m, Underway P Q s x before m →
        (s.input x).length < (messageFrame (x.awaited P Q m)).length) ∨
    ∃ before m, Underway P Q s x before m ∧ s.input x = messageFrame (x.awaited P Q m) := by
  have hnone (hnil : s.input x = []) (p : Bytes) :
      (s.input x).length < (messageFrame p).length := by
    rw [hnil, ChatReader.length_messageFrame, List.length_nil]
    omega
  have hidle (hnil : s.input x = []) : (∃ p : Bytes, p.length ≤ x.limit ∧
      s.input x <+: messageFrame p ∧ (s.input x).length < (messageFrame p).length) ∧
      ∀ before m, Underway P Q s x before m →
        (s.input x).length < (messageFrame (x.awaited P Q m)).length :=
    ⟨⟨[], Nat.zero_le _, hnil ▸ List.nil_prefix, hnone hnil _⟩, fun _ _ _ => hnone hnil _⟩
  cases h.stage with
  | quiet hquiet => exact .inl (hidle (received_of_nothing h (hquiet.ahead x)).1)
  | underway y before m hway =>
      rcases eq_or_peer x y with rfl | rfl
      · by_cases hshort : (s.input y).length < (messageFrame (y.awaited P Q m)).length
        · refine .inl ⟨⟨_, hway.awaited_le h, hway.front, hshort⟩, fun before' m' hway' => ?_⟩
          rw [← hway'.ahead, hway.ahead]
          exact hshort
        · exact .inr ⟨before, m, hway, hway.front.eq_of_length_le (Nat.le_of_not_lt hshort)⟩
      · exact .inl (hidle (received_of_nothing h (peer_peer x ▸ hway.nothing)).1)

/-- With the whole message there, nothing else is ahead. -/
theorem Underway.rest {before : List TestMessage} {m : TestMessage}
    (hway : Underway P Q s x before m) (hinput : s.input x = messageFrame (x.awaited P Q m)) :
    (framesOf (x.peer.sender P Q) (s.sent x.peer)).drop (s.side x).received = [] := by
  have hahead := hway.ahead
  rw [Program.ahead, hinput] at hahead
  exact List.append_cancel_left (hahead.trans (List.append_nil _).symm)

@[simp]
theorem length_answers (requests : List TestMessage) :
    (answers requests).length = requests.length :=
  List.length_mapIdx

theorem answers_concat (before : List TestMessage) (m : TestMessage) :
    answers (before ++ [m]) = answers before ++ [⟨before.length, testSolve m, before.length⟩] :=
  List.mapIdx_concat

/-- **SOLVED**: the client's iteration on the response. -/
theorem Underway.solve {before : List TestMessage} {m : TestMessage}
    (hway : Underway P Q s .client before m) (h : Orderly P Q s)
    (hinput : s.input .client = messageFrame (Party.client.awaited P Q m))
    {b : Buffer} (hb : b.content = []) :
    Orderly P Q { s with
      client := { s.client with inputBuffer := b }
      resCalls := fun _ => none
      solved := s.solved ++ [⟨before.length, testSolve m, before.length⟩] } := by
  refine ⟨?_, ?_, ?_, h.carried, h.numbered.of_eq rfl rfl, .quiet ⟨?_, ?_, rfl, ?_, ?_⟩⟩
  · exact forall_setSide (s := s) (x := .client) (p := { s.client with inputBuffer := b })
      (R := fun y p => Faultless (y.sender P Q) p.output) (h.faultless .client)
      (h.faultless .server)
  · exact forall_setSide (s := s) (x := .client) (p := { s.client with inputBuffer := b })
      (R := fun _ p => p.failed = false) (h.survived .client) (h.survived .server)
  · intro y
    cases y with
    | client => exact h.received .client
    | server => exact h.received .server
  · exact hway.responses.trans (congrArg _ hway.requests.symm)
  · show s.solved ++ _ = answers s.requests
    rw [hway.requests, answers_concat, hway.solved]
  · intro y
    cases y with
    | client =>
        show b.content ++ _ = []
        rw [hb, List.nil_append]
        exact hway.rest hinput
    | server => exact hway.nothing
  · refine hway.free (hinput ▸ ?_)
    exact List.ne_nil_of_length_pos (by rw [ChatReader.length_messageFrame]; omega)

/-- **ANSWERED**: the session's iteration on the request. -/
theorem Underway.answer {before : List TestMessage} {m : TestMessage}
    (hway : Underway P Q s .server before m) (h : Orderly P Q s)
    (hinput : s.input .server = messageFrame (Party.server.awaited P Q m))
    {b : Buffer} (hb : b.content = []) {o : Sender TestMessage}
    (hfaultless : Faultless (Party.server.sender P Q) o)
    (hsent : o.sent = s.server.output.sent ++ [testSolve m])
    (hwire : o.wire = s.server.output.wire) :
    Orderly P Q { s with server := { s.server with inputBuffer := b, output := o } } := by
  obtain ⟨hnothing, hreceived, hframes⟩ : s.input .client = [] ∧
      s.client.received = s.server.output.wire.length ∧
      s.server.output.wire = framesOf (Party.server.sender P Q) s.server.output.sent :=
    received_of_nothing h hway.nothing
  have hpos : 0 < (messageFrame (Party.client.awaited P Q m)).length := by
    rw [ChatReader.length_messageFrame]
    omega
  refine ⟨?_, ?_, ?_, h.carried, h.numbered.of_eq rfl rfl,
    .underway .client before m ⟨?_, ?_, ?_, ?_, ?_, ?_, ?_, ?_⟩⟩
  · exact forall_setSide (s := s) (x := .server)
      (p := { s.server with inputBuffer := b, output := o })
      (R := fun y p => Faultless (y.sender P Q) p.output) hfaultless (h.faultless .client)
  · exact forall_setSide (s := s) (x := .server)
      (p := { s.server with inputBuffer := b, output := o })
      (R := fun _ p => p.failed = false) (h.survived .server) (h.survived .client)
  · intro y
    cases y with
    | client => exact Nat.le_trans (h.received .client) (Nat.le_of_eq (congrArg _ hwire.symm))
    | server => exact h.received .server
  · exact hway.requests
  · show o.sent = _
    have hresponses : s.server.output.sent = before.map testSolve := hway.responses
    rw [hsent, hresponses]
    show _ = (before ++ [m]).map testSolve
    rw [List.map_append, List.map_singleton]
  · exact hway.solved
  · exact hway.resCalls
  · show s.input .client ++ (framesOf _ o.sent).drop _ = _
    rw [hnothing, List.nil_append, hsent]
    exact drop_framesOf_append (hreceived.trans (congrArg _ hframes)) (testSolve m)
  · show b.content ++ _ = []
    rw [hb, List.nil_append]
    exact hway.rest hinput
  · intro hne
    exact absurd hnothing hne
  · intro _
    show (s.input .client).length < _
    rw [hnothing]
    exact hpos

/-- With all calls solved nothing is on the way. -/
theorem Orderly.quiet (h : Orderly P Q s) (hsolved : s.solved.length = s.requests.length) :
    Quiet P Q s := by
  cases h.stage with
  | quiet hquiet => exact hquiet
  | underway y before m hway =>
      rw [hway.solved, hway.requests, length_answers, List.length_append] at hsolved
      exact absurd hsolved.symm (Nat.succ_ne_self _)

/-- **A CALL** is made with nothing on the way. -/
theorem Orderly.sendRequest (h : Orderly P Q s) {msg : Bytes}
    (hturn : InTurn P Q s (.sendRequest msg))
    (hstep : s.sendRequest P Q msg = some s') : Orderly P Q s' := by
  obtain ⟨hsolved, hsize⟩ := hturn
  have hquiet := h.quiet hsolved
  obtain ⟨o, ho, hfaultless, hsent, hwire, -⟩ :=
    (h.faultless .client).send hquiet.free ⟨s.id, msg⟩
  obtain ⟨hnothing, hreceived, hframes⟩ : s.input .server = [] ∧
      s.server.received = s.client.output.wire.length ∧
      s.client.output.wire = framesOf (Party.client.sender P Q) s.client.output.sent :=
    received_of_nothing h (hquiet.ahead .server)
  have hpos (p : Bytes) : 0 < (messageFrame p).length := by
    rw [ChatReader.length_messageFrame]
    omega
  rw [Program.sendRequest, Program.write, ho] at hstep
  obtain rfl := Option.some.inj hstep
  refine ⟨?_, ?_, ?_, ?_, h.numbered.call rfl hsent,
    .underway .server s.requests ⟨s.id, msg⟩ ⟨?_, ?_, ?_, ?_, ?_, ?_, ?_, ?_⟩⟩
  · exact forall_setSide (s := s) (x := .client) (p := { s.client with output := o })
      (R := fun y p => Faultless (y.sender P Q) p.output) hfaultless (h.faultless .server)
  · exact forall_setSide (s := s) (x := .client) (p := { s.client with output := o })
      (R := fun _ p => p.failed = false) (h.survived .client) (h.survived .server)
  · intro y
    cases y with
    | client => exact h.received .client
    | server => exact Nat.le_trans (h.received .server) (Nat.le_of_eq (congrArg _ hwire.symm))
  · intro m hm
    have hm : m ∈ o.sent := hm
    rw [hsent] at hm
    rcases List.mem_append.mp hm with hm | hm
    · exact h.carried m hm
    · rw [List.mem_singleton.mp hm]
      exact hsize
  · exact hsent
  · exact hquiet.responses
  · exact hquiet.solved
  · show Function.update s.resCalls _ _ = _
    rw [hquiet.resCalls]
    rfl
  · show s.input .server ++ (framesOf _ o.sent).drop _ = _
    rw [hnothing, List.nil_append, hsent]
    exact drop_framesOf_append (hreceived.trans (congrArg _ hframes)) _
  · exact hquiet.ahead .client
  · intro hne
    exact absurd hnothing hne
  · intro _
    show (s.input .server).length < _
    rw [hnothing]
    exact hpos _

/-- What an evaluation of a loop comes to: it is left, or the message that was
    on its way is there and is dealt with. -/
inductive Iterated (P Q : Protobuf TestMessage) (s : Program) : Party → Program → Prop where
  | left (x : Party)
      (partly : ∀ before m, Underway P Q s x before m →
        (s.input x).length < (messageFrame (x.awaited P Q m)).length) :
      Iterated P Q s x (s.setSide x { s.side x with reading := false })
  | solved {before : List TestMessage} {m : TestMessage} {b : Buffer}
      (way : Underway P Q s .client before m)
      (input : s.input .client = messageFrame (Party.client.awaited P Q m))
      (emptied : b.content = []) :
      Iterated P Q s .client { s with
        client := { s.client with inputBuffer := b }
        resCalls := fun _ => none
        solved := s.solved ++ [⟨before.length, testSolve m, before.length⟩] }
  | answered {before : List TestMessage} {m : TestMessage} {b : Buffer} {o : Sender TestMessage}
      (way : Underway P Q s .server before m)
      (input : s.input .server = messageFrame (Party.server.awaited P Q m))
      (emptied : b.content = [])
      (faultless : Faultless (Party.server.sender P Q) o)
      (sent : o.sent = s.server.output.sent ++ [testSolve m])
      (wire : o.wire = s.server.output.wire) (fresh : ∀ w ∈ o.writes, w.result = none) :
      Iterated P Q s .server { s with server := { s.server with inputBuffer := b, output := o } }

/-- A loop goes on as long as it has not been left. -/
theorem Orderly.iterated (h : Orderly P Q s) (hreading : (s.side x).reading = true) :
    ∃ s', AsioRpcProgram.step P Q s (.iterate x) = some s' ∧ Iterated P Q s x s' := by
  have hready := And.intro (h.survived x) hreading
  cases x with
  | client =>
      refine ⟨s.clientIterate Q, if_pos hready, ?_⟩
      rcases h.input_cases .client with ⟨⟨p, hsize, hfront, hshort⟩, hleft⟩ |
        ⟨before, m, hway, hinput⟩
      · have hlt : p.length < 2 ^ 31 := Nat.lt_of_le_of_lt hsize (by decide)
        have hwaits := AsioRpcResponse.iterate_waits Q TestMessage.id (b := s.client.inputBuffer)
          (p := p) (t := []) hlt (by rw [List.append_nil]; exact hfront)
          (by rw [← ChatReader.length_messageFrame]; exact hshort) s.resCalls
        rw [Program.clientIterate, hwaits]
        exact .left .client hleft
      · obtain ⟨it, b, hit, hsolved, hresCalls, hb⟩ :=
          client_solves (b := s.client.inputBuffer) before.length (h.carried m hway.mem) hinput
        rw [← hway.resCalls] at hit
        rw [Program.clientIterate, hit]
        simp only [hsolved, hresCalls]
        exact .solved hway hinput hb
  | server =>
      have hok : s.server.output.violated = false := (h.faultless .server).asserted
      refine ⟨s.serverIterate P Q, if_pos hready, ?_⟩
      rcases h.input_cases .server with ⟨⟨p, hsize, hfront, hshort⟩, hleft⟩ |
        ⟨before, m, hway, hinput⟩
      · rw [Program.serverIterate,
          session_waits (b := s.server.inputBuffer) hok hsize hfront hshort]
        exact .left .server hleft
      · obtain ⟨b, hb, hcontent⟩ := session_answers (b := s.server.inputBuffer) hok
          (h.carried m hway.mem) hinput
        have hfree : s.server.output.writes = [] := by
          refine hway.free (hinput ▸ ?_)
          exact List.ne_nil_of_length_pos (by rw [ChatReader.length_messageFrame]; omega)
        obtain ⟨o, ho, hfaultless, hsent, hwire, hover⟩ :=
          Faultless.send (o := s.server.output) (h.faultless .server) hfree (testSolve m)
        have ho' : answer Q s.server.output (testSolve m) = o :=
          Option.some.inj ((step_answer hok (testSolve m)).symm.trans ho)
        rw [Program.serverIterate, hb, ho']
        exact .answered hway hinput hcontent hfaultless hsent hwire hover

/-- An evaluation of a loop. -/
theorem Orderly.iterate (h : Orderly P Q s) (hs' : Iterated P Q s x s') : Orderly P Q s' := by
  cases hs' with
  | left _ partly => exact h.left partly
  | solved way input emptied => exact way.solve h input emptied
  | answered way input emptied faultless sent wire fresh =>
      exact way.answer h input emptied faultless sent wire

theorem step_iterate (hstep : AsioRpcProgram.step P Q s (.iterate x) = some s') :
    (s.side x).reading = true := by
  cases x with
  | client =>
      simp only [AsioRpcProgram.step] at hstep
      split at hstep
      · next hready => exact hready.2
      · cases hstep
  | server =>
      simp only [AsioRpcProgram.step] at hstep
      split at hstep
      · next hready => exact hready.2
      · cases hstep

theorem Orderly.iterated_of_step (h : Orderly P Q s)
    (hstep : AsioRpcProgram.step P Q s (.iterate x) = some s') : Iterated P Q s x s' := by
  obtain ⟨s₁, hs₁, hcases⟩ := h.iterated (step_iterate hstep)
  rwa [← Option.some.inj (hs₁.symm.trans hstep)]

/-- **EVERY STEP** keeps the calls in order. -/
theorem Orderly.step (h : Orderly P Q s) {a : Action} (hturn : InTurn P Q s a)
    (hstep : step P Q s a = some s') : Orderly P Q s' := by
  cases a with
  | sendRequest msg => exact h.sendRequest hturn hstep
  | transfer x k n ec =>
      obtain ⟨rfl, -⟩ := hturn
      obtain ⟨o, ho, rfl⟩ := Option.map_eq_some_iff.mp hstep
      obtain ⟨hfaultless, hne, hsent, hwire⟩ := (h.faultless x).transfer ho
      exact h.output hfaultless hne hsent hwire
  | onWrite x k =>
      obtain ⟨o, ho, rfl⟩ := Option.map_eq_some_iff.mp hstep
      obtain ⟨hfaultless, hsent, hwire, -, w, hw, -⟩ := (h.faultless x).onWrite ho
      exact h.output hfaultless (hw ▸ List.cons_ne_nil w []) hsent (hwire ▸ List.prefix_refl _)
  | read x n =>
      simp only [AsioRpcProgram.step] at hstep
      split at hstep
      · next hready =>
          obtain rfl := Option.some.inj hstep
          exact h.read hready.2.2.1 hturn rfl hready.2.2.2.2
      · cases hstep
  | iterate x => exact h.iterate (h.iterated_of_step hstep)

end Steps

theorem orderly_new : Orderly P Q Program.new where
  faultless x := by
    cases x with
    | client => exact faultless_new
    | server => exact faultless_new
  survived x := by
    cases x with
    | client => rfl
    | server => rfl
  received x := Nat.le_of_eq (by cases x with | client => rfl | server => rfl)
  carried := by
    intro m hm
    cases hm
  numbered := ⟨rfl, rfl⟩
  stage := by
    refine .quiet ⟨rfl, rfl, rfl, ?_, rfl⟩
    intro x
    cases x with
    | client => rfl
    | server => rfl

theorem orderly_of_reachable {s : Program} (h : Reachable P Q s) : Orderly P Q s :=
  h.invariant orderly_new fun _ _ _ hs hturn hstep => hs.step hturn hstep

/-- **IN TURN, ALL IS WELL**: in every run in which the calls are made one
    after the other, no assertion fails and nothing is undefined; the session
    answers the requests in order, each once; and `on_solved` is called once
    for each call, with its own objects, its id and its answer, in order. -/
theorem calls_in_turn {P Q : Protobuf TestMessage} {s : Program} (h : Reachable P Q s) :
    (∀ x, (s.side x).failed = false ∧ (s.side x).output.violated = false) ∧
    s.sent .server = (s.requests.take (s.sent .server).length).map testSolve ∧
    s.solved = answers (s.requests.take s.solved.length) ∧
    s.requests.length ≤ s.solved.length + 1 ∧
    s.requests.map TestMessage.id = (List.range s.requests.length).map Int32.ofNat := by
  have horderly := orderly_of_reachable h
  refine ⟨fun x => ⟨horderly.survived x, (horderly.faultless x).asserted⟩, ?_, ?_, ?_,
    horderly.numbered.2⟩
  · cases horderly.stage with
    | quiet hquiet => rw [hquiet.responses, List.length_map, List.take_length]
    | underway x before m hway =>
        rw [hway.responses, List.length_map, hway.requests]
        cases x with
        | client => rw [Party.answered, List.take_length]
        | server => rw [Party.answered, List.take_left]
  · cases horderly.stage with
    | quiet hquiet =>
        rw [hquiet.solved, length_answers, List.take_length]
    | underway x before m hway =>
        rw [hway.solved, hway.requests, length_answers, List.take_left]
  · cases horderly.stage with
    | quiet hquiet =>
        rw [hquiet.solved, length_answers]
        exact Nat.le_succ _
    | underway x before m hway =>
        rw [hway.solved, hway.requests, length_answers, List.length_append]
        exact Nat.le_refl _

/-- Two calls, of `hi` and of `!`, cut in pieces. -/
def twoCalls : List Action :=
  [.sendRequest [104, 105], .transfer .client 0 3 false, .read .server 3, .iterate .server,
    .onWrite .client 0, .transfer .client 0 5 false, .onWrite .client 0, .read .server 5,
    .iterate .server, .iterate .server, .transfer .server 0 8 false, .onWrite .server 0,
    .read .client 8, .iterate .client, .sendRequest [33], .iterate .client,
    .transfer .client 0 9 false, .onWrite .client 0, .read .server 9, .iterate .server,
    .iterate .server, .transfer .server 0 9 false, .onWrite .server 0, .read .client 9,
    .iterate .client, .iterate .client]

theorem calls_in_turn_two : ∃ s,
    guardedRun (step testProto testProto) (InTurn testProto testProto) Program.new twoCalls
      = some s ∧ s.solved.map Solved.value = [⟨0, [105, 106]⟩, ⟨1, [34]⟩] ∧
    s.solved = answers (s.requests.take s.solved.length) := by
  have hrun : (guardedRun (step testProto testProto) (InTurn testProto testProto) Program.new
      twoCalls).map (fun s => s.solved.map Solved.value)
      = some [⟨0, [105, 106]⟩, ⟨1, [34]⟩] := by
    decide +kernel
  obtain ⟨s, hs, hsolved⟩ := Option.map_eq_some_iff.mp hrun
  exact ⟨s, hs, hsolved, (calls_in_turn (reaches_of_guardedRun hs)).2.2.1⟩

/-- The rules without the order of the handlers, which a session run by several
    threads does not keep to. -/
def CallsInTurn (P Q : Protobuf TestMessage) (s : Program) (a : Action) : Prop :=
  match a with
  | .read _ _ => True
  | _ => InTurn P Q s a

instance (s : Program) (a : Action) : Decidable (CallsInTurn P Q s a) :=
  match a with
  | .sendRequest _ => inferInstanceAs (Decidable (_ ∧ _))
  | .transfer _ _ _ _ => inferInstanceAs (Decidable (_ ∧ _))
  | .read _ _ => isTrue trivial
  | .onWrite _ _ => isTrue trivial
  | .iterate _ => isTrue trivial

/-- The second request is read before `on_write` has run for the first answer:
    the second answer is put around it, and the handlers drop more than there
    is. -/
theorem late_handler_fails :
    ∃ s, Reaches (step testProto testProto) (CallsInTurn testProto testProto) Program.new s ∧
      s.server.output.violated = true := by
  have hrun : (guardedRun (step testProto testProto) (CallsInTurn testProto testProto) Program.new
      [.sendRequest [104, 105], .transfer .client 0 8 false, .onWrite .client 0, .read .server 8,
        .iterate .server, .iterate .server, .transfer .server 0 8 false, .read .client 8,
        .iterate .client, .sendRequest [33], .transfer .client 0 9 false, .read .server 9,
        .iterate .server, .transfer .server 1 17 false, .onWrite .server 0,
        .onWrite .server 0]).map (fun s => s.server.output.violated) = some true := by
    decide +kernel
  exact exists_of_guardedRun hrun

/-! ## Every call is solved -/

/-- Nothing can happen but another call. -/
def Waiting (P Q : Protobuf TestMessage) (s : Program) : Prop :=
  ∀ a, (∀ msg, a ≠ .sendRequest msg) → InTurn P Q s a → step P Q s a = none

section Progress

variable {s : Program} {x : Party}

theorem transfer_some {prog : SharedBufferSend.Program TestMessage} {o : Sender TestMessage}
    (h : Faultless prog o) {k : Nat} {w : Write} (hw : o.writes[k]? = some w)
    (hnone : w.result = none) :
    SharedBufferSend.step prog o (.transfer k w.length false) ≠ none := by
  rw [SharedBufferSend.step, h.asserted]
  simp only [Bool.false_eq_true, if_false, hw, if_pos (And.intro hnone (Nat.le_refl w.length))]
  exact Option.some_ne_none _

theorem onWrite_some {prog : SharedBufferSend.Program TestMessage} {o : Sender TestMessage}
    (h : Faultless prog o) {k : Nat} {w : Write} (hw : o.writes[k]? = some w)
    (hsome : w.result ≠ none) : SharedBufferSend.step prog o (.onWrite k) ≠ none := by
  obtain ⟨⟨n, ec⟩, hresult⟩ := Option.ne_none_iff_exists'.mp hsome
  rw [SharedBufferSend.step, h.asserted]
  simp only [Bool.false_eq_true, if_false, hw, hresult]
  exact Option.some_ne_none _

/-- With nothing else to happen, the handlers of all writes have run. -/
theorem Waiting.handled (hwaiting : Waiting P Q s) (h : Orderly P Q s) (x : Party) :
    ∀ w ∈ (s.side x).output.writes, w.result = none := by
  intro w hw
  by_contra hsome
  obtain ⟨k, hk⟩ := List.getElem?_of_mem hw
  have hstep : s.write P Q x (.onWrite k) = none := hwaiting (.onWrite x k) nofun trivial
  exact onWrite_some (h.faultless x) hk hsome (Option.map_eq_none_iff.mp hstep)

/-- And everything sent is on the socket. -/
theorem Waiting.written (hwaiting : Waiting P Q s) (h : Orderly P Q s) (x : Party) :
    (s.side x).output.wire = framesOf (x.sender P Q) (s.sent x) := by
  cases (h.faultless x).phase with
  | idle _ _ _ wire => exact wire
  | failed _ failed _ => cases failed.symm.trans (h.faultless x).written
  | writing w writes _ current unsent _ _ =>
      have hw : (s.side x).output.writes[0]? = some w := by rw [writes]; rfl
      have hnone := hwaiting.handled h x w (List.mem_of_getElem? hw)
      have hpos : 0 < w.length := current.length ▸ unsent
      have hstep : s.write P Q x (.transfer 0 w.length false) = none :=
        hwaiting (.transfer x 0 w.length false) nofun ⟨rfl, hpos⟩
      exact absurd (Option.map_eq_none_iff.mp hstep) (transfer_some (h.faultless x) hw hnone)

/-- And no loop is being run. -/
theorem Waiting.idle (hwaiting : Waiting P Q s) (h : Orderly P Q s) (x : Party) :
    (s.side x).reading = false := by
  by_contra hreading
  obtain ⟨s', hs', -⟩ := h.iterated (Bool.eq_true_of_not_eq_false hreading)
  cases hs'.symm.trans (hwaiting (.iterate x) nofun trivial)

/-- And everything on the socket has been read. -/
theorem Waiting.read (hwaiting : Waiting P Q s) (h : Orderly P Q s) (x : Party) :
    (s.side x).received = (s.side x.peer).output.wire.length := by
  refine Nat.le_antisymm (h.received x) (Nat.le_of_not_lt fun hlt => ?_)
  have hone : (((s.side x.peer).output.wire.drop (s.side x).received).take 1).length = 1 := by
    rw [List.length_take, List.length_drop]
    omega
  have hready : (s.side x).failed = false ∧ (s.side x).reading = false ∧ 0 < 1 ∧ 1 ≤ 100 ∧
      (((s.side x.peer).output.wire.drop (s.side x).received).take 1).length = 1 :=
    ⟨h.survived x, hwaiting.idle h x, Nat.one_pos, by decide, hone⟩
  have hstep := hwaiting (.read x 1) nofun (hwaiting.handled h x)
  simp only [step] at hstep
  rw [if_pos hready] at hstep
  cases hstep

/-- **NOTHING IS STUCK**: where nothing can happen but another call, every
    call is solved. -/
theorem Waiting.solved (hwaiting : Waiting P Q s) (h : Orderly P Q s) :
    s.solved = answers s.requests := by
  cases h.stage with
  | quiet hquiet => exact hquiet.solved
  | underway x before m hway =>
      have hrest :
          (framesOf (x.peer.sender P Q) (s.sent x.peer)).drop (s.side x).received = [] := by
        rw [← hwaiting.written h x.peer, hwaiting.read h x, List.drop_length]
      have hwhole := hway.ahead
      rw [Program.ahead, hrest, List.append_nil] at hwhole
      have hshort := hway.partly (hwaiting.idle h x)
      rw [hwhole] at hshort
      exact absurd hshort (Nat.lt_irrefl _)

end Progress

/-! ## Every run ends -/

section Cost

variable (P Q : Protobuf TestMessage)

/-- What is left to do for the bytes on their way to `x`, those that are still
    to be transferred, those to be read and those in its buffer, and for its
    loop and the handlers of its writes. -/
def Program.loadOf (s : Program) (x : Party) : Nat :=
  5 * ((framesOf (x.peer.sender P Q) (s.sent x.peer)).length - (s.side x.peer).output.wire.length)
    + 3 * ((s.side x.peer).output.wire.length - (s.side x).received)
    + (s.input x).length
    + (s.side x).reading.toNat
    + (s.side x).output.writes.countP fun w => w.result.isSome

/-- The bytes of the responses that are still to be made. -/
def Program.unanswered (s : Program) : Nat :=
  ((s.requests.drop (s.sent .server).length).map fun m =>
    (messageFrame (Q.serialize (testSolve m))).length).sum

def Program.load (s : Program) : Nat :=
  s.loadOf P Q .client + s.loadOf P Q .server + 5 * s.unanswered Q

/-- What a call costs: it brings two frames. -/
def cost (request : TestMessage) : Nat :=
  5 * ((messageFrame (P.serialize request)).length +
    (messageFrame (Q.serialize (testSolve request))).length) + 1

/-- What the calls made so far cost. -/
def Program.earned (s : Program) : Nat := (s.requests.map (cost P Q)).sum

end Cost

section Load

variable {s s' : Program} {x : Party}

theorem load_eq (s : Program) (x : Party) :
    s.load P Q = s.loadOf P Q x + s.loadOf P Q x.peer + 5 * s.unanswered Q := by
  cases x with
  | client => rfl
  | server => exact congrArg (· + _) (Nat.add_comm _ _)

/-- As many responses are to be made, and as many calls were made. -/
theorem load_le_of_same (hsent : ∀ x, s'.sent x = s.sent x)
    (hload : s'.loadOf P Q x + s'.loadOf P Q x.peer + 1 ≤ s.loadOf P Q x + s.loadOf P Q x.peer) :
    s'.load P Q + s.earned P Q + 1 ≤ s.load P Q + s'.earned P Q := by
  have hrequests : s'.requests = s.requests := hsent .client
  have hunanswered : s'.unanswered Q = s.unanswered Q := by
    rw [Program.unanswered, Program.unanswered, hrequests, hsent]
  have hearned : s'.earned P Q = s.earned P Q := by
    rw [Program.earned, Program.earned, hrequests]
  rw [load_eq s' x, load_eq s x, hunanswered, hearned]
  omega

/-- A transfer: `n` bytes more on the socket, and a handler to run. -/
theorem load_transfer (h : Orderly P Q s) {k n : Nat} {o : Sender TestMessage} (hn : 0 < n)
    (ho : SharedBufferSend.step (x.sender P Q) (s.side x).output (.transfer k n false) = some o) :
    (s.setSide x { s.side x with output := o }).load P Q + s.earned P Q + 1
      ≤ s.load P Q + (s.setSide x { s.side x with output := o }).earned P Q := by
  obtain ⟨hfaultless, -, hsent, -⟩ := (h.faultless x).transfer ho
  have hwire := (h.faultless x).length_wire ho
  have hle := hfaultless.wire_le
  have hreceived := h.received x.peer
  have hover : o.writes.countP (fun w => w.result.isSome)
      = (s.side x).output.writes.countP (fun w => w.result.isSome) + 1 := by
    obtain ⟨-, w, hw, hnone, -, rfl⟩ := SharedBufferSend.step_transfer ho
    obtain ⟨rfl, hwrites⟩ := (h.faultless x).single hw
    rw [hwrites, List.countP_singleton, hnone]
    rfl
  rw [hsent] at hle
  rw [peer_peer] at hreceived
  refine load_le_of_same (x := x)
    (forall_setSide (R := fun y p => p.output.sent = s.sent y) hsent rfl) ?_
  simp only [Program.loadOf, Program.sent, Program.input, side_setSide_self, side_setSide_peer,
    peer_peer, hsent, hwire, hover]
  omega

/-- A handler has run. -/
theorem load_onWrite (h : Orderly P Q s) {k : Nat} {o : Sender TestMessage}
    (ho : SharedBufferSend.step (x.sender P Q) (s.side x).output (.onWrite k) = some o) :
    (s.setSide x { s.side x with output := o }).load P Q + s.earned P Q + 1
      ≤ s.load P Q + (s.setSide x { s.side x with output := o }).earned P Q := by
  obtain ⟨-, hsent, hwire, hnone, w, hw, hsome⟩ := (h.faultless x).onWrite ho
  have hover : o.writes.countP (fun w => w.result.isSome) = 0 := by
    rw [List.countP_eq_zero]
    intro w' hw'
    rw [hnone w' hw']
    exact Bool.false_ne_true
  have hold : (s.side x).output.writes.countP (fun w => w.result.isSome) = 1 := by
    rw [hw, List.countP_singleton, if_pos (Option.isSome_iff_ne_none.mpr hsome)]
  refine load_le_of_same (x := x)
    (forall_setSide (R := fun y p => p.output.sent = s.sent y) hsent rfl) ?_
  simp only [Program.loadOf, Program.sent, Program.input, side_setSide_self, side_setSide_peer,
    peer_peer, hsent, hwire, hover, hold]
  omega

/-- Bytes that were on the socket are in a buffer, and its loop is to be run. -/
theorem load_read {n : Nat} {bytes : Bytes} (hn : 0 < n)
    (hreading : (s.side x).reading = false) (hlength : bytes.length = n)
    (hroom : (s.side x).received + n ≤ (s.side x.peer).output.wire.length) :
    (s.setSide x ((s.side x).arrive bytes)).load P Q + s.earned P Q + 1
      ≤ s.load P Q + (s.setSide x ((s.side x).arrive bytes)).earned P Q := by
  have hcontent : ((s.side x).arrive bytes).inputBuffer.content.length
      = (s.side x).inputBuffer.content.length + n := by
    rw [← hlength, ← List.length_append]
    exact congrArg _ (AsioRpcReader.content_arrive _ _)
  have hreceived : ((s.side x).arrive bytes).received = (s.side x).received + n :=
    congrArg _ hlength
  have harrived : ((s.side x).arrive bytes).reading = true := rfl
  have houtput : ((s.side x).arrive bytes).output = (s.side x).output := rfl
  refine load_le_of_same (x := x)
    (forall_setSide (R := fun y p => p.output.sent = s.sent y) rfl rfl) ?_
  simp only [Program.loadOf, Program.sent, Program.input, side_setSide_self, side_setSide_peer,
    peer_peer, hcontent, hreceived, harrived, houtput, hreading, Bool.toNat_false,
    Bool.toNat_true]
  omega

/-- A loop that is left, or a message that is dealt with: the response to it
    was still to be made. -/
theorem load_iterated (h : Orderly P Q s) (hreading : (s.side x).reading = true)
    (hs' : Iterated P Q s x s') :
    s'.load P Q + s.earned P Q + 1 ≤ s.load P Q + s'.earned P Q := by
  cases hs' with
  | left _ partly =>
      refine load_le_of_same (x := x)
        (forall_setSide (R := fun y p => p.output.sent = s.sent y) rfl rfl) ?_
      simp only [Program.loadOf, Program.sent, Program.input, side_setSide_self,
        side_setSide_peer, peer_peer, hreading, Bool.toNat_false, Bool.toNat_true]
      omega
  | @solved before m b way input emptied =>
      have hlength := congrArg List.length input
      rw [ChatReader.length_messageFrame] at hlength
      have hinput : s.client.inputBuffer.content.length = _ := hlength
      refine load_le_of_same (x := .client)
        (fun y => by cases y with | client => rfl | server => rfl) ?_
      simp only [Program.loadOf, Program.sent, Program.input, Program.side, Party.peer, emptied,
        List.length_nil, hinput]
      omega
  | @answered before m b o way input emptied faultless sent wire fresh =>
      have hlength := congrArg List.length input
      rw [ChatReader.length_messageFrame] at hlength
      have hinput : s.server.inputBuffer.content.length = 4 + (P.serialize m).length := hlength
      have hframes : (framesOf (Party.server.sender P Q) o.sent).length
          = (framesOf (Party.server.sender P Q) s.server.output.sent).length
            + (messageFrame (Q.serialize (testSolve m))).length := by
        rw [sent, SharedBufferSend.framesOf_append, List.length_append]
        rfl
      have hover : o.writes.countP (fun w => w.result.isSome) = 0 := by
        rw [List.countP_eq_zero]
        intro w hw
        rw [fresh w hw]
        exact Bool.false_ne_true
      have hle := (h.faultless .server).wire_le
      have hle : s.server.output.wire.length
        ≤ (framesOf (Party.server.sender P Q) s.server.output.sent).length := hle
      -- it was the last of the requests without a response
      have hresponses : s.server.output.sent.length = before.length := by
        have hold : s.server.output.sent = before.map testSolve := way.responses
        rw [hold, List.length_map]
      have hrequests : s.client.output.sent = before ++ [m] := way.requests
      have hbefore : s.unanswered Q = (messageFrame (Q.serialize (testSolve m))).length := by
        show ((s.client.output.sent.drop s.server.output.sent.length).map _).sum = _
        rw [hrequests, hresponses, List.drop_left, List.map_singleton, List.sum_singleton]
      have hafter : ({ s with server := { s.server with inputBuffer := b, output := o } } :
          Program).unanswered Q = 0 := by
        show ((s.client.output.sent.drop o.sent.length).map _).sum = 0
        rw [List.drop_eq_nil_of_le (by
          rw [hrequests, sent, List.length_append, List.length_append, hresponses]
          exact Nat.le_refl _)]
        rfl
      rw [Program.load, Program.load, hbefore, hafter]
      simp only [Program.loadOf, Program.sent, Program.input, Program.side, Party.peer, emptied,
        List.length_nil, hinput, hframes, hover, wire, Program.earned, Program.requests]
      omega

/-- A call: two frames more. -/
theorem load_sendRequest (h : Orderly P Q s) {msg : Bytes}
    (hturn : InTurn P Q s (.sendRequest msg)) (hstep : s.sendRequest P Q msg = some s') :
    s'.load P Q + s.earned P Q + 1 ≤ s.load P Q + s'.earned P Q := by
  have hquiet := h.quiet hturn.1
  obtain ⟨o, ho, -, hsent, hwire, hnone⟩ :=
    Faultless.send (o := s.client.output) (h.faultless .client) hquiet.free ⟨s.id, msg⟩
  have hle : s.client.output.wire.length
      ≤ (framesOf (Party.client.sender P Q) s.client.output.sent).length :=
    (h.faultless .client).wire_le
  have hframes : (framesOf (Party.client.sender P Q) (s.client.output.sent ++ [⟨s.id, msg⟩])).length
      = (framesOf (Party.client.sender P Q) s.client.output.sent).length
        + (messageFrame (P.serialize ⟨s.id, msg⟩)).length := by
    rw [SharedBufferSend.framesOf_append, List.length_append]
    rfl
  have hover : o.writes.countP (fun w => w.result.isSome) = 0 := by
    rw [List.countP_eq_zero]
    intro w hw
    rw [hnone w hw]
    exact Bool.false_ne_true
  have hresponses : s.server.output.sent.length = s.client.output.sent.length := by
    have hall : s.server.output.sent = s.client.output.sent.map testSolve := hquiet.responses
    rw [hall, List.length_map]
  have hstep : ((SharedBufferSend.step (Party.client.sender P Q) s.client.output
      (.send ⟨s.id, msg⟩)).map fun output =>
        s.setSide .client { s.client with output }).map _ = some s' := hstep
  rw [ho] at hstep
  obtain rfl := Option.some.inj hstep
  simp only [Program.load, Program.loadOf, Program.unanswered, Program.earned, Program.requests,
    Program.sent, Program.input, Program.side, Program.setSide, Party.peer, hframes, hover, hwire,
    hsent, hresponses, List.drop_left, List.drop_length, List.map_append, List.sum_append,
    List.map_singleton, List.sum_singleton, List.map_nil, List.sum_nil, cost]
  omega

/-- **EVERY STEP** leaves less to do, or is a call that costs what it brings. -/
theorem load_step (h : Orderly P Q s) {a : Action} (hturn : InTurn P Q s a)
    (hstep : step P Q s a = some s') :
    s'.load P Q + s.earned P Q + 1 ≤ s.load P Q + s'.earned P Q := by
  cases a with
  | sendRequest msg => exact load_sendRequest h hturn hstep
  | transfer x k n ec =>
      obtain ⟨rfl, hn⟩ := hturn
      obtain ⟨o, ho, rfl⟩ := Option.map_eq_some_iff.mp hstep
      exact load_transfer h hn ho
  | onWrite x k =>
      obtain ⟨o, ho, rfl⟩ := Option.map_eq_some_iff.mp hstep
      exact load_onWrite h ho
  | read x n =>
      simp only [step] at hstep
      split at hstep
      · next hready =>
          obtain rfl := Option.some.inj hstep
          have hlength := hready.2.2.2.2
          refine load_read hready.2.2.1 hready.2.1 hlength ?_
          have := h.received x
          have hn := hready.2.2.1
          rw [List.length_take, List.length_drop] at hlength
          omega
      · cases hstep
  | iterate x => exact load_iterated h (step_iterate hstep) (h.iterated_of_step hstep)

end Load

/-- A step that is no call makes none. -/
theorem earned_of_step {s s' : Program} (h : Orderly P Q s) {a : Action}
    (hcall : ∀ msg, a ≠ .sendRequest msg) (hturn : InTurn P Q s a)
    (hstep : step P Q s a = some s') : s'.earned P Q = s.earned P Q := by
  have hkept (hsame : ∀ x, s'.sent x = s.sent x) : s'.earned P Q = s.earned P Q := by
    have hrequests : s'.requests = s.requests := hsame .client
    rw [Program.earned, Program.earned, hrequests]
  cases a with
  | sendRequest msg => exact absurd rfl (hcall msg)
  | transfer x k n ec =>
      obtain ⟨rfl, -⟩ := hturn
      obtain ⟨o, ho, rfl⟩ := Option.map_eq_some_iff.mp hstep
      obtain ⟨-, -, hsent, -⟩ := (h.faultless x).transfer ho
      exact hkept (forall_setSide (R := fun y p => p.output.sent = s.sent y) hsent rfl)
  | onWrite x k =>
      obtain ⟨o, ho, rfl⟩ := Option.map_eq_some_iff.mp hstep
      obtain ⟨-, hsent, -⟩ := (h.faultless x).onWrite ho
      exact hkept (forall_setSide (R := fun y p => p.output.sent = s.sent y) hsent rfl)
  | read x n =>
      simp only [step] at hstep
      split at hstep
      · obtain rfl := Option.some.inj hstep
        exact hkept (forall_setSide (R := fun y p => p.output.sent = s.sent y) rfl rfl)
      · cases hstep
  | iterate x =>
      cases h.iterated_of_step hstep with
      | left _ _ => exact hkept (forall_setSide (R := fun y p => p.output.sent = s.sent y) rfl rfl)
      | solved _ _ _ => rfl
      | answered _ _ _ _ _ _ _ => rfl

/-- With nothing left to do, nothing can happen but another call. -/
theorem waiting_of_load {s : Program} (h : Orderly P Q s) (hload : s.load P Q = 0) :
    Waiting P Q s := by
  intro a hcall hturn
  refine Option.eq_none_iff_forall_ne_some.mpr fun s' hstep => ?_
  have hlower := load_step h hturn hstep
  rw [earned_of_step h hcall hturn hstep] at hlower
  omega

/-- **EVERY CALL IS SOLVED**: runs are no longer than their calls allow, and
    where one comes to a stand every call made has been solved, with its own
    answer. -/
theorem every_call_solved {P Q : Protobuf TestMessage} {as : List Action} {s : Program}
    (hrun : guardedRun (step P Q) (InTurn P Q) Program.new as = some s) :
    as.length ≤ (s.requests.map (cost P Q)).sum ∧
      (Waiting P Q s → s.solved = answers s.requests) := by
  have hstep : ∀ s a s', Orderly P Q s → InTurn P Q s a → step P Q s a = some s' →
      Orderly P Q s' ∧ s'.load P Q + s.earned P Q + 1 ≤ s.load P Q + s'.earned P Q :=
    fun s a s' h hturn htaken => ⟨h.step hturn htaken, load_step h hturn htaken⟩
  have hbound := length_of_guardedRun_earned hstep as _ s orderly_new hrun
  have hstart : (Program.new.load P Q) = 0 := rfl
  have horderly := orderly_of_reachable (reaches_of_guardedRun hrun)
  have hearned : s.earned P Q = (s.requests.map (cost P Q)).sum := rfl
  exact ⟨by omega, fun hwaiting => hwaiting.solved horderly⟩

theorem every_call_solved_two : ∃ s,
    guardedRun (step testProto testProto) (InTurn testProto testProto) Program.new twoCalls
      = some s ∧ twoCalls.length ≤ (s.requests.map (cost testProto testProto)).sum ∧
    s.solved = answers s.requests := by
  have hrun : (guardedRun (step testProto testProto) (InTurn testProto testProto) Program.new
      twoCalls).map (fun s => s.load testProto testProto) = some 0 := by
    decide +kernel
  obtain ⟨s, hs, hload⟩ := Option.map_eq_some_iff.mp hrun
  have hwaiting := waiting_of_load (orderly_of_reachable (reaches_of_guardedRun hs)) hload
  obtain ⟨hlength, hsolved⟩ := every_call_solved hs
  exact ⟨s, hs, hlength, hsolved hwaiting⟩

end AsioRpcProgram
