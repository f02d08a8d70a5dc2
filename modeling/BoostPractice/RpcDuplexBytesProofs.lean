import BoostPractice.RpcCodecSendProofs
import BoostPractice.RpcDuplexProofs

/-! # Two sessions on an ideal byte stream

    The same two sessions, with nothing between them but bytes.  The stream is
    ideal on the writers' side: what a session hands to `send_rpc_msg` is on
    it at once, as a whole frame behind the frames before.  (What the codecs
    write, in parts and out of pooled buffers, is `RpcDuplexSocketsProofs`.)
    The readers are the code's: a side reads whatever the socket returns into
    `inputBuffer_` and runs the loop of `rpc_codec::on_read`, one callback at
    a time, while the threads of both sides go on calling and answering.

    `sessions_on_bytes` says that this is no different from messages in
    flight: the two systems bring the sessions into the same states, in both
    directions, however the stream is cut. -/

namespace RpcDuplex

open MachineInt FrameDecoding BoostBuffer RpcMessages RpcCodecRead RpcCodecSend
open RpcSession RpcSessionRun RpcSessionCall RpcSessionReply GuardedRun

variable {Msg : Type}

/-- Both sessions, what their codecs have in `inputBuffer_`, whether the loop
    of `on_read` runs, and the bytes each of them sent that its peer has not
    read. -/
structure Link (Msg : Type) where
  session : Side → State Msg
  inputBuffer : Side → Buffer
  reading : Side → Bool
  wire : Side → Bytes

def Link.start (services : Side → Option (Services Msg)) : Link Msg where
  session := fun x => State.start (services x)
  inputBuffer := fun _ => RpcCodecRead.inputBuffer
  reading := fun _ => false
  wire := fun _ => []

inductive LinkAction (Msg : Type) where
  /-- A step of the session on that side, other than receiving a message. -/
  | act (x : Side) (a : RpcSessionRun.Action Msg)
  /-- A read of the socket returns `n` bytes to `on_read`. -/
  | read (x : Side) (n : Nat)
  /-- The loop of `on_read` is tested, and its body run up to the callback. -/
  | loop (x : Side)

section Link

variable (P : Protobuf RpcMessage) (adler32 : Bytes → UInt32)

/-- The frames of some messages, one after the other. -/
def framesOf (msgs : List RpcMessage) : Bytes := msgs.flatMap (frame P adler32)

/-- The session on side `x` has gone on to `s'`; what it sent is on the ideal
    stream, whole and behind what was sent before. -/
def Link.moved (l : Link Msg) (x : Side) (s' : State Msg) : Link Msg :=
  { l with
    session := Function.update l.session x s'
    wire := Function.update l.wire x
      (l.wire x ++ framesOf P adler32 (newlySent (l.session x) s')) }

/-- The loop has handed out a message and left this buffer. -/
def Link.consumed (l : Link Msg) (x : Side) (b : Buffer) : Link Msg :=
  { l with inputBuffer := Function.update l.inputBuffer x b }

/-- The loop of `on_read` goes on when the callback before has returned.  A
    null message is dereferenced, an unsafe access undefined: neither has a
    next state. -/
def loopStep (l : Link Msg) (x : Side) : Option (Link Msg) :=
  match (l.session x).reader, onReadStep P adler32 (l.inputBuffer x) with
  | .idle, .ok (some (⟨some m, .kNoError⟩, b)) =>
      match RpcSessionRun.step (l.session x) (.receive m) with
      | some s' => some ((l.moved P adler32 x s').consumed x b)
      | none => none
  | .idle, .ok none => some { l with reading := Function.update l.reading x false }
  | _, _ => none

def linkStep (l : Link Msg) : LinkAction Msg → Option (Link Msg)
  | .act x a =>
      if isOwn a then
        match RpcSessionRun.step (l.session x) a with
        | some s' => some (l.moved P adler32 x s')
        | none => none
      else none
  | .read x n =>
      if l.reading x = false ∧ n ≤ (l.wire x.peer).length then
        some { l with
          inputBuffer := Function.update l.inputBuffer x
            ((l.inputBuffer x).append ((l.wire x.peer).take n))
          reading := Function.update l.reading x true
          wire := Function.update l.wire x.peer ((l.wire x.peer).drop n) }
      else none
  | .loop x => if l.reading x = true then loopStep P adler32 l x else none

/-- The states of all runs of the link. -/
def LinkReachable (services : Side → Option (Services Msg)) : Link Msg → Prop :=
  Reaches (linkStep P adler32) (fun _ _ => True) (Link.start services)

end Link

/-! ## The frames on the wire -/

/-- Every message sent so far fits a frame. -/
def AllFit (P : Protobuf RpcMessage) (session : Side → State Msg) : Prop :=
  ∀ x, ∀ m ∈ sent (session x), (P.serialize m).length ≤ 2 ^ 31 - 5

theorem allFit_iff (P : Protobuf RpcMessage) (session : Side → State Msg) :
    ((∀ m ∈ sent (session .left), (P.serialize m).length ≤ 2 ^ 31 - 5) ∧
      ∀ m ∈ sent (session .right), (P.serialize m).length ≤ 2 ^ 31 - 5) ↔
      AllFit P session := by
  constructor
  · rintro ⟨hleft, hright⟩ x
    cases x with
    | left => exact hleft
    | right => exact hright
  · intro hfit
    exact ⟨hfit .left, hfit .right⟩

instance (P : Protobuf RpcMessage) (session : Side → State Msg) : Decidable (AllFit P session) :=
  decidable_of_iff _ (allFit_iff P session)

section Frames

variable {P : Protobuf RpcMessage} {adler32 : Bytes → UInt32}

theorem framesOf_append (msgs msgs' : List RpcMessage) :
    framesOf P adler32 (msgs ++ msgs') = framesOf P adler32 msgs ++ framesOf P adler32 msgs' :=
  List.flatMap_append

/-- The loop finds the first of them. -/
theorem loopNext_framesOf (hP : P.ParsesAllBack) {m : RpcMessage}
    (hsize : (P.serialize m).length ≤ 2 ^ 31 - 5) (rest : List RpcMessage) :
    loopNext P adler32 (framesOf P adler32 (m :: rest))
      = .frame ⟨some m, .kNoError⟩ (framesOf P adler32 rest) := by
  rw [framesOf, List.flatMap_cons]
  exact loopNext_built_frame P adler32 hsize (hP m (by omega)) _

/-- What is buffered of a stream of frames begins with the first one, or with
    part of it. -/
theorem loopNext_buffered (hP : P.ParsesAllBack) {content wire : Bytes} {msgs : List RpcMessage}
    (hsize : ∀ m ∈ msgs, (P.serialize m).length ≤ 2 ^ 31 - 5)
    (hbytes : content ++ wire = framesOf P adler32 msgs) :
    loopNext P adler32 content = .more ∨
      ∃ m rest r, msgs = m :: rest ∧ r ++ wire = framesOf P adler32 rest ∧
        loopNext P adler32 content = .frame ⟨some m, .kNoError⟩ r := by
  cases hnext : loopNext P adler32 content with
  | more => exact .inl rfl
  | fault =>
      have hall : loopNext P adler32 (framesOf P adler32 msgs) = .fault := by
        rw [← hbytes]
        exact (loopGrammar P adler32).fault_append hnext wire
      cases msgs with
      | nil => exact nomatch hall
      | cons m rest =>
          rw [loopNext_framesOf hP (hsize m List.mem_cons_self) rest] at hall
          exact nomatch hall
  | frame out r =>
      have hall : loopNext P adler32 (framesOf P adler32 msgs) = .frame out (r ++ wire) := by
        rw [← hbytes]
        exact (loopGrammar P adler32).frame_append hnext wire
      cases msgs with
      | nil => exact nomatch hall
      | cons m rest =>
          rw [loopNext_framesOf hP (hsize m List.mem_cons_self) rest] at hall
          obtain ⟨rfl, hr⟩ := Verdict.frame.inj hall
          exact .inr ⟨m, rest, r, rfl, hr.symm, rfl⟩

end Frames

/-! ## The two systems side by side -/

/-- The link carries these messages: what is buffered on one side and on the
    wire to it are their frames, and between two reads no frame is whole. -/
structure Carries (P : Protobuf RpcMessage) (adler32 : Bytes → UInt32) (l : Link Msg)
    (d : Duplex Msg) : Prop where
  session : l.session = d.session
  bytes : ∀ x, (l.inputBuffer x.peer).content ++ l.wire x = framesOf P adler32 (d.inFlight x)
  waiting : ∀ x, l.reading x = false →
    loopNext P adler32 (l.inputBuffer x).content = .more

theorem carries_start (P : Protobuf RpcMessage) (adler32 : Bytes → UInt32)
    (services : Side → Option (Services Msg)) :
    Carries P adler32 (Link.start services) (Duplex.start services) where
  session := rfl
  bytes := fun _ => congrArg (· ++ []) (Buffer.content_new _)
  waiting := fun _ _ => by
    show loopNext P adler32 RpcCodecRead.inputBuffer.content = .more
    rw [RpcCodecRead.inputBuffer, Buffer.content_new]
    rfl

section Steps

variable {P : Protobuf RpcMessage} {adler32 : Bytes → UInt32} {l : Link Msg} {d : Duplex Msg}

/-- A session's own step, on both levels. -/
theorem Carries.act (hcarries : Carries P adler32 l d) (x : Side) (s' : State Msg) :
    Carries P adler32 (l.moved P adler32 x s') (d.moved x s' d.inFlight) where
  session := by
    show Function.update l.session x s' = Function.update d.session x s'
    rw [hcarries.session]
  bytes := fun y => by
    have hold := hcarries.bytes y
    rcases Side.eq_or_peer y x with rfl | rfl
    · rw [moved_inFlight_self, framesOf_append, ← hold, ← hcarries.session, List.append_assoc]
      refine congrArg ((l.inputBuffer y.peer).content ++ ·) ?_
      exact Function.update_self _ _ _
    · rw [moved_inFlight_peer, ← hold]
      refine congrArg ((l.inputBuffer x.peer.peer).content ++ ·) ?_
      exact Function.update_of_ne x.peer_ne _ _
  waiting := hcarries.waiting

/-- A read moves bytes from the wire into the buffer. -/
theorem Carries.read (hcarries : Carries P adler32 l d) (x : Side) (n : Nat) :
    Carries P adler32 { l with
      inputBuffer := Function.update l.inputBuffer x
        ((l.inputBuffer x).append ((l.wire x.peer).take n))
      reading := Function.update l.reading x true
      wire := Function.update l.wire x.peer ((l.wire x.peer).drop n) } d where
  session := hcarries.session
  bytes := fun y => by
    have hold := hcarries.bytes y
    show (Function.update l.inputBuffer x _ y.peer).content ++ Function.update l.wire x.peer _ y
      = _
    rcases Side.eq_or_peer y x with rfl | rfl
    · rw [Function.update_of_ne y.peer_ne, Function.update_of_ne y.peer_ne.symm]
      exact hold
    · rw [Side.peer_peer] at hold ⊢
      rw [Function.update_self, Function.update_self, Buffer.content_append, List.append_assoc,
        List.take_append_drop]
      exact hold
  waiting := fun y hreading => by
    show loopNext P adler32 (Function.update l.inputBuffer x _ y).content = _
    have hold : Function.update l.reading x true y = false := hreading
    by_cases hy : y = x
    · rw [hy, Function.update_self] at hold
      exact nomatch hold
    · rw [Function.update_of_ne hy] at hold ⊢
      exact hcarries.waiting y hold

/-- The loop hands the first message in flight to the session. -/
theorem Carries.arrive (hcarries : Carries P adler32 l d) {x : Side} (s' : State Msg)
    {rest : List RpcMessage} {b : Buffer}
    (hrest : b.content ++ l.wire x.peer = framesOf P adler32 rest) (hreading : l.reading x = true) :
    Carries P adler32 ((l.moved P adler32 x s').consumed x b)
      (d.moved x s' (Function.update d.inFlight x.peer rest)) where
  session := by
    show Function.update l.session x s' = Function.update d.session x s'
    rw [hcarries.session]
  bytes := fun y => by
    have hold := hcarries.bytes y
    show (Function.update l.inputBuffer x b y.peer).content
      ++ Function.update l.wire x (l.wire x ++ _) y = _
    rcases Side.eq_or_peer y x with rfl | rfl
    · rw [moved_inFlight_self, Function.update_of_ne y.peer_ne, Function.update_self,
        Function.update_of_ne y.peer_ne.symm, framesOf_append, ← hold, ← hcarries.session,
        List.append_assoc]
    · rw [moved_inFlight_peer, Function.update_self, Side.peer_peer, Function.update_self,
        Function.update_of_ne x.peer_ne]
      exact hrest
  waiting := fun y hnot => by
    show loopNext P adler32 (Function.update l.inputBuffer x b y).content = _
    by_cases hy : y = x
    · rw [hy] at hnot
      exact nomatch hreading.symm.trans hnot
    · rw [Function.update_of_ne hy]
      exact hcarries.waiting y hnot

/-- The loop ends where no frame is whole. -/
theorem Carries.ended (hcarries : Carries P adler32 l d) {x : Side}
    (hmore : loopNext P adler32 (l.inputBuffer x).content = .more) :
    Carries P adler32 { l with reading := Function.update l.reading x false } d where
  session := hcarries.session
  bytes := hcarries.bytes
  waiting := fun y hnot => by
    have hold : Function.update l.reading x false y = false := hnot
    by_cases hy : y = x
    · rw [hy]
      exact hmore
    · rw [Function.update_of_ne hy] at hold
      exact hcarries.waiting y hold

end Steps

/-! ## What the link can do -/

section Steps

variable {P : Protobuf RpcMessage} {adler32 : Bytes → UInt32} {l l' : Link Msg}

theorem linkStep_act {x : Side} {a : RpcSessionRun.Action Msg}
    (h : linkStep P adler32 l (.act x a) = some l') :
    isOwn a = true ∧ ∃ s', RpcSessionRun.step (l.session x) a = some s' ∧
      l' = l.moved P adler32 x s' := by
  simp only [linkStep] at h
  split at h
  · next hown =>
      split at h
      · next s' hstep => exact ⟨hown, s', hstep, (Option.some.inj h).symm⟩
      · exact nomatch h
  · exact nomatch h

theorem linkStep_read {x : Side} {n : Nat} (h : linkStep P adler32 l (.read x n) = some l') :
    l.reading x = false ∧
      l' = { l with
        inputBuffer := Function.update l.inputBuffer x
          ((l.inputBuffer x).append ((l.wire x.peer).take n))
        reading := Function.update l.reading x true
        wire := Function.update l.wire x.peer ((l.wire x.peer).drop n) } := by
  simp only [linkStep] at h
  split at h
  · next hcan => exact ⟨hcan.1, (Option.some.inj h).symm⟩
  · exact nomatch h

/-- The loop hands out a message, or ends. -/
theorem linkStep_loop {x : Side} (h : linkStep P adler32 l (.loop x) = some l') :
    l.reading x = true ∧
      ((∃ m b s', onReadStep P adler32 (l.inputBuffer x)
          = .ok (some (⟨some m, .kNoError⟩, b)) ∧
          RpcSessionRun.step (l.session x) (.receive m) = some s' ∧
          l' = (l.moved P adler32 x s').consumed x b) ∨
        (onReadStep P adler32 (l.inputBuffer x) = .ok none ∧
          l' = { l with reading := Function.update l.reading x false })) := by
  simp only [linkStep, loopStep] at h
  split at h
  · next hreading =>
      refine ⟨hreading, ?_⟩
      split at h
      · next m b _ hloop =>
          split at h
          · next s' hstep => exact .inl ⟨m, b, s', hloop, hstep, (Option.some.inj h).symm⟩
          · exact nomatch h
      · next _ hloop => exact .inr ⟨hloop, (Option.some.inj h).symm⟩
      · exact nomatch h
  · exact nomatch h

theorem sent_subset {x y : Side} {session : Side → State Msg} {a : RpcSessionRun.Action Msg}
    {s' : State Msg} (h : RpcSessionRun.step (session x) a = some s') {m : RpcMessage}
    (hmem : m ∈ sent (session y)) : m ∈ sent (Function.update session x s' y) := by
  by_cases hy : y = x
  · rw [hy] at hmem ⊢
    rw [Function.update_self, sent_step h]
    exact List.mem_append_left _ hmem
  · rw [Function.update_of_ne hy]
    exact hmem

/-- What was sent stays sent. -/
theorem sent_of_linkStep {a : LinkAction Msg} (h : linkStep P adler32 l a = some l') {y : Side}
    {m : RpcMessage} (hmem : m ∈ sent (l.session y)) : m ∈ sent (l'.session y) := by
  cases a with
  | act x a =>
      obtain ⟨-, s', hs', rfl⟩ := linkStep_act h
      exact sent_subset hs' hmem
  | read x n =>
      rw [(linkStep_read h).2]
      exact hmem
  | loop x =>
      obtain ⟨-, ⟨m', b, s', -, hs', rfl⟩ | ⟨-, rfl⟩⟩ := linkStep_loop h
      · exact sent_subset hs' hmem
      · exact hmem

/-- So it fitted all along. -/
theorem allFit_of_linkStep {a : LinkAction Msg} (h : linkStep P adler32 l a = some l')
    (hfit : AllFit P l'.session) : AllFit P l.session :=
  fun y m hmem => hfit y m (sent_of_linkStep h hmem)

theorem allFit_of_step {d d' : Duplex Msg} {a : Action Msg} (h : step d a = some d')
    (hfit : AllFit P d'.session) : AllFit P d.session := by
  intro y m hmem
  obtain ⟨x, b, s', hs', hsession⟩ := step_session h
  refine hfit y m ?_
  rw [hsession]
  exact sent_subset hs' hmem

end Steps

section Simulation

variable {P : Protobuf RpcMessage} {adler32 : Bytes → UInt32}
  {services : Side → Option (Services Msg)} {l : Link Msg} {d : Duplex Msg}

/-- What is in flight was sent, and fits. -/
theorem fit_of_inFlight (h : Reachable services d) (hfit : AllFit P d.session) (x : Side) :
    ∀ m ∈ d.inFlight x, (P.serialize m).length ≤ 2 ^ 31 - 5 := by
  intro m hmem
  refine hfit x m ?_
  rw [conserved_of_reachable h x]
  exact List.mem_append_right _ hmem

/-- The test of the loop: a whole frame is the first message in flight,
    anything less ends the loop. -/
theorem Carries.onReadStep (hP : P.ParsesAllBack) (hcarries : Carries P adler32 l d)
    (h : Reachable services d) (hfit : AllFit P d.session) (x : Side) :
    (loopNext P adler32 (l.inputBuffer x).content = .more ∧
      onReadStep P adler32 (l.inputBuffer x) = .ok none) ∨
    ∃ m rest b, d.inFlight x.peer = m :: rest ∧
      onReadStep P adler32 (l.inputBuffer x) = .ok (some (⟨some m, .kNoError⟩, b)) ∧
      b.content ++ l.wire x.peer = framesOf P adler32 rest := by
  have hbytes := hcarries.bytes x.peer
  rw [Side.peer_peer] at hbytes
  rcases loopNext_buffered hP (fit_of_inFlight h hfit x.peer) hbytes with
    hmore | ⟨m, rest, r, hflight, hrest, hnext⟩
  · exact .inl ⟨hmore, (onReadStep_follows P adler32).more _ hmore⟩
  · obtain ⟨b, hstep, hb⟩ := (onReadStep_follows P adler32).frame _ _ _ hnext
    exact .inr ⟨m, rest, b, hflight, hstep, hb.symm ▸ hrest⟩

theorem step_arrive_of {x : Side} {m : RpcMessage} {rest : List RpcMessage} {s' : State Msg}
    (hflight : d.inFlight x.peer = m :: rest)
    (h : RpcSessionRun.step (d.session x) (.receive m) = some s') :
    step d (.arrive x) = some (d.moved x s' (Function.update d.inFlight x.peer rest)) := by
  simp only [step, hflight, h]

theorem step_act_of {x : Side} {a : RpcSessionRun.Action Msg} {s' : State Msg}
    (hown : isOwn a = true) (h : RpcSessionRun.step (d.session x) a = some s') :
    step d (.act x a) = some (d.moved x s' d.inFlight) := by
  simp only [step, hown, h, if_true]

/-- **BYTES ARE MESSAGES**: the link never does what messages in flight could
    not do. -/
theorem duplex_of_link (hP : P.ParsesAllBack) (h : LinkReachable P adler32 services l)
    (hfit : AllFit P l.session) : ∃ d, Reachable services d ∧ Carries P adler32 l d := by
  refine h.invariant (I := fun l => AllFit P l.session → ∃ d, Reachable services d ∧
    Carries P adler32 l d) (fun _ => ⟨_, .start, carries_start P adler32 services⟩) ?_ hfit
  intro l a l' ih _ hstep hfit'
  have hfit := allFit_of_linkStep hstep hfit'
  obtain ⟨d, hreach, hcarries⟩ := ih hfit
  cases a with
  | act x a =>
      obtain ⟨hown, s', hs', rfl⟩ := linkStep_act hstep
      rw [hcarries.session] at hs'
      exact ⟨_, hreach.next trivial (step_act_of hown hs'), hcarries.act x s'⟩
  | read x n =>
      rw [(linkStep_read hstep).2]
      exact ⟨d, hreach, hcarries.read x n⟩
  | loop x =>
      obtain ⟨hreading, hloop⟩ := linkStep_loop hstep
      rw [hcarries.session] at hfit
      rcases hcarries.onReadStep hP hreach hfit x with
        ⟨hmore, hend⟩ | ⟨m, rest, b, hflight, hbody, hrest⟩
      · rcases hloop with ⟨m', b', s', hbody, -⟩ | ⟨-, rfl⟩
        · exact nomatch hend.symm.trans hbody
        · exact ⟨d, hreach, hcarries.ended hmore⟩
      · rcases hloop with ⟨m', b', s', hbody', hs', rfl⟩ | ⟨hend, -⟩
        · rw [hcarries.session] at hs'
          obtain ⟨hcb, rfl⟩ :=
            Prod.mk.inj (Option.some.inj (Except.ok.inj (hbody.symm.trans hbody')))
          obtain rfl : m = m' := Option.some.inj (congrArg RpcCallback.rpcMsg hcb)
          exact ⟨_, hreach.next trivial (step_arrive_of hflight hs'),
            hcarries.arrive s' hrest hreading⟩
        · exact nomatch hend.symm.trans hbody

/-- With nothing but reads and tests of the loop the first message in flight
    comes to the front of the buffer. -/
theorem link_reads (hP : P.ParsesAllBack) (hl : LinkReachable P adler32 services l)
    (hcarries : Carries P adler32 l d) (h : Reachable services d) (hfit : AllFit P d.session)
    {x : Side} {m : RpcMessage}
    {rest : List RpcMessage} (hflight : d.inFlight x.peer = m :: rest)
    (hidle : (d.session x).reader = .idle) :
    ∃ l', LinkReachable P adler32 services l' ∧ Carries P adler32 l' d ∧ l'.reading x = true ∧
      ∃ b, onReadStep P adler32 (l'.inputBuffer x) = .ok (some (⟨some m, .kNoError⟩, b)) ∧
        b.content ++ l'.wire x.peer = framesOf P adler32 rest := by
  -- first without a loop that is running
  have hread : ∀ l, LinkReachable P adler32 services l → Carries P adler32 l d →
      l.reading x = false → ∃ l', LinkReachable P adler32 services l' ∧ Carries P adler32 l' d ∧
      l'.reading x = true ∧ ∃ b, onReadStep P adler32 (l'.inputBuffer x)
        = .ok (some (⟨some m, .kNoError⟩, b)) ∧
        b.content ++ l'.wire x.peer = framesOf P adler32 rest := by
    intro l hl hcarries hreading
    have hcarries' := hcarries.read x (l.wire x.peer).length
    refine ⟨_, hl.next (a := .read x (l.wire x.peer).length) trivial ?_, hcarries',
      Function.update_self _ _ _, ?_⟩
    · rw [linkStep]
      exact if_pos ⟨hreading, Nat.le_refl _⟩
    rcases hcarries'.onReadStep hP h hfit x with
      ⟨hmore, -⟩ | ⟨m', rest', b, hflight', hbody, hrest⟩
    · -- all that was sent is in the buffer now
      have hbytes := hcarries.bytes x.peer
      rw [Side.peer_peer, hflight] at hbytes
      have hall : loopNext P adler32 (framesOf P adler32 (m :: rest)) = .more := by
        rw [← hbytes, ← hmore]
        show _ = loopNext P adler32 (Function.update l.inputBuffer x _ x).content
        rw [Function.update_self, Buffer.content_append, List.take_length]
      rw [loopNext_framesOf hP
        (fit_of_inFlight h hfit x.peer m (hflight ▸ List.mem_cons_self)) rest] at hall
      exact nomatch hall
    · obtain ⟨rfl, rfl⟩ := List.cons.inj (hflight.symm.trans hflight')
      exact ⟨b, hbody, hrest⟩
  cases hreading : l.reading x with
  | false => exact hread l hl hcarries hreading
  | true =>
      rcases hcarries.onReadStep hP h hfit x with
        ⟨hmore, hend⟩ | ⟨m', rest', b, hflight', hbody, hrest⟩
      · have hstep : linkStep P adler32 l (.loop x)
            = some { l with reading := Function.update l.reading x false } := by
          have hidle' : (l.session x).reader = .idle := by
            rw [hcarries.session]
            exact hidle
          simp only [linkStep, loopStep, hreading, hidle', hend, if_true]
        exact hread _ (hl.next trivial hstep) (hcarries.ended hmore) (Function.update_self _ _ _)
      · obtain ⟨rfl, rfl⟩ := List.cons.inj (hflight.symm.trans hflight')
        exact ⟨l, hl, hcarries, hreading, b, hbody, hrest⟩

/-- **MESSAGES ARE BYTES**: whatever messages in flight can do, the link can
    do. -/
theorem link_of_duplex (hP : P.ParsesAllBack) (h : Reachable services d)
    (hfit : AllFit P d.session) :
    ∃ l, LinkReachable P adler32 services l ∧ Carries P adler32 l d := by
  refine h.invariant_over (J := Reachable services)
    (I := fun d => AllFit P d.session →
      ∃ l, LinkReachable P adler32 services l ∧ Carries P adler32 l d)
    (fun _ hd => hd) (fun _ => ⟨_, .start, carries_start P adler32 services⟩) ?_ hfit
  intro d a d' hreach ih _ hstep hfit'
  have hfit := allFit_of_step hstep hfit'
  obtain ⟨l, hl, hcarries⟩ := ih hfit
  cases a with
  | act x a =>
      obtain ⟨hown, s', hs', rfl⟩ := step_act hstep
      have hlink : linkStep P adler32 l (.act x a) = some (l.moved P adler32 x s') := by
        rw [← hcarries.session] at hs'
        simp only [linkStep, hown, hs', if_true]
      exact ⟨_, hl.next trivial hlink, hcarries.act x s'⟩
  | arrive x =>
      obtain ⟨m, rest, s', hflight, hs', rfl⟩ := step_arrive hstep
      have hidle := (step_receive hs').1
      obtain ⟨l', hl', hcarries', hreading, b, hbody, hrest⟩ :=
        link_reads hP hl hcarries hreach hfit hflight hidle
      have hlink : linkStep P adler32 l' (.loop x)
          = some ((l'.moved P adler32 x s').consumed x b) := by
        rw [← hcarries'.session] at hs' hidle
        simp only [linkStep, loopStep, hreading, hidle, hbody, hs', if_true]
      exact ⟨_, hl'.next trivial hlink, hcarries'.arrive s' hrest hreading⟩

/-- **THE SAME SESSIONS**: as long as every message fits a frame, two sessions
    get into the same states over an ideal byte stream, cut in any way, as
    over messages in flight. -/
theorem sessions_on_bytes (hP : P.ParsesAllBack) {session : Side → State Msg}
    (hfit : AllFit P session) :
    (∃ l, LinkReachable P adler32 services l ∧ l.session = session) ↔
      ∃ d, Reachable services d ∧ d.session = session := by
  constructor
  · rintro ⟨l, hl, rfl⟩
    obtain ⟨d, hd, hcarries⟩ := duplex_of_link hP hl hfit
    exact ⟨d, hd, hcarries.session.symm⟩
  · rintro ⟨d, hd, rfl⟩
    obtain ⟨l, hl, hcarries⟩ := link_of_duplex hP hd hfit
    exact ⟨l, hl, hcarries.session⟩

end Simulation

/-- At the end of the run above, whose messages all fit a frame. -/
theorem end_of_crossRun :
    ∃ d, Reachable echoServices d ∧ AllFit rpcProto d.session ∧ (d.session .left).calls.length = 2 ∧
      (d.session .left).runs 0 = 1 := by
  have hrun : (guardedRun step (fun _ _ => True) (Duplex.start echoServices) crossRun).map
      (fun d => (decide (AllFit rpcProto d.session), (d.session .left).calls.length,
        (d.session .left).runs 0)) = some (true, 2, 1) := by
    decide +kernel
  obtain ⟨d, hd, heq⟩ := exists_of_guardedRun hrun
  obtain ⟨hfit, heq⟩ := Prod.mk.inj heq
  obtain ⟨hlength, hruns⟩ := Prod.mk.inj heq
  exact ⟨d, hd, of_decide_eq_true hfit, hlength, hruns⟩

theorem sessions_on_bytes_on_run :
    ∃ l, LinkReachable rpcProto zlibAdler32 echoServices l ∧ (l.session .left).runs 0 = 1 := by
  obtain ⟨d, hd, hfit, -, hruns⟩ := end_of_crossRun
  obtain ⟨l, hl, hsession⟩ := (sessions_on_bytes rpcProto_parsesAllBack hfit).mpr ⟨d, hd, rfl⟩
  refine ⟨l, hl, ?_⟩
  rw [hsession]
  exact hruns

end RpcDuplex
