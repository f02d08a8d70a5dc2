import BoostPractice.RpcCodecChannelProofs
import BoostPractice.RpcDuplexBytesProofs
import BoostPractice.RpcDuplexPlacesProofs

/-! # Two sessions on two sockets

    The whole stack: two sessions, each with a codec whose pool of buffers is
    filled by any thread, writes that the socket takes in parts, completion
    handlers that issue the rest, and a peer that reads what has arrived.

    A session's message counts as sent when its first write is issued: up to
    there `send_rpc_msg` has touched nothing but the slot it selected.

    `sessions_on_sockets` says that as long as every message fits a frame,
    writes succeed and nothing gets between the parts of a frame, this is a
    pair of sessions with messages in flight: those whose frames are buffered,
    on the socket or still to be transferred.  What holds of messages in
    flight, that a caller gets the answer to its own request (`own_answer`)
    and that a call is in one place (`call_in_one_place`), so holds of the
    bytes. -/

namespace RpcDuplex

open FrameDecoding BoostBuffer RpcMessages RpcCodecRead RpcSession RpcSessionRun GuardedRun
open RpcCodecPool (Sender)
open RpcCodecChannel (Sending Faultless noteIssued)
open RpcCodecWire (Alone)

variable {Msg : Type}

/-- Both sessions with their codecs, how many of the bytes that a side wrote
    its peer has read, and what the codecs have of the next frame. -/
structure Sockets (Msg : Type) where
  session : Side → State Msg
  codec : Side → Sender RpcMessage
  received : Side → Nat
  inputBuffer : Side → Buffer
  reading : Side → Bool

def Sockets.start (services : Side → Option (Services Msg)) : Sockets Msg where
  session := fun x => State.start (services x)
  codec := fun _ => .new
  received := fun _ => 0
  inputBuffer := fun _ => RpcCodecRead.inputBuffer
  reading := fun _ => false

/-- What side `x` wrote and its peer has not read. -/
def Sockets.unread (k : Sockets Msg) (x : Side) : Bytes :=
  ((k.codec x).wire.map Prod.snd).drop (k.received x)

inductive SocketAction (Msg : Type) where
  /-- A step of the session on that side, other than receiving a message;
      what it sends are the messages of the codec's calls `ks`. -/
  | act (x : Side) (a : RpcSessionRun.Action Msg) (ks : List Nat)
  /-- A slot is selected, a write transfers something, or its handler runs. -/
  | codec (x : Side) (a : RpcCodecPool.Action RpcMessage)
  | read (x : Side) (n : Nat)
  | loop (x : Side) (ks : List Nat)

section Sockets

variable (P : Protobuf RpcMessage) (adler32 : Bytes → UInt32)

/-- Each message is filled into the slot of its call, and its write issued. -/
def emit : Sender RpcMessage → List Nat → List RpcMessage → Option (Sender RpcMessage)
  | c, [], [] => some c
  | c, k :: ks, m :: ms =>
      if c.sends[k]?.map RpcCodecPool.Send.rpcMsg = some m then
        match RpcCodecPool.step P adler32 c (.fill k) with
        | some c' => emit c' ks ms
        | none => none
      else none
  | _, _, _ => none

def Sockets.moved (k : Sockets Msg) (x : Side) (s' : State Msg) (c' : Sender RpcMessage) :
    Sockets Msg :=
  { k with
    session := Function.update k.session x s'
    codec := Function.update k.codec x c' }

def Sockets.consumed (k : Sockets Msg) (x : Side) (b : Buffer) : Sockets Msg :=
  { k with inputBuffer := Function.update k.inputBuffer x b }

/-- A read of the socket returns `n` bytes to `on_read`. -/
def Sockets.taken (k : Sockets Msg) (x : Side) (n : Nat) : Sockets Msg :=
  { k with
    inputBuffer := Function.update k.inputBuffer x
      ((k.inputBuffer x).append ((k.unread x.peer).take n))
    reading := Function.update k.reading x true
    received := Function.update k.received x.peer (k.received x.peer + n) }

/-- The session goes on to `s'`, and its codec issues what it sent. -/
def Sockets.goes (k : Sockets Msg) (x : Side) (s' : State Msg) (ks : List Nat) :
    Option (Sockets Msg) :=
  (emit P adler32 (k.codec x) ks (newlySent (k.session x) s')).map (k.moved x s')

/-- The loop of `on_read`, as on the link. -/
def socketLoop (k : Sockets Msg) (x : Side) (ks : List Nat) : Option (Sockets Msg) :=
  match (k.session x).reader, onReadStep P adler32 (k.inputBuffer x) with
  | .idle, .ok (some (⟨some m, .kNoError⟩, b)) =>
      match RpcSessionRun.step (k.session x) (.receive m) with
      | some s' => (k.goes P adler32 x s' ks).map fun k' => k'.consumed x b
      | none => none
  | .idle, .ok none => some { k with reading := Function.update k.reading x false }
  | _, _ => none

def socketStep (k : Sockets Msg) : SocketAction Msg → Option (Sockets Msg)
  | .act x a ks =>
      if isOwn a then
        match RpcSessionRun.step (k.session x) a with
        | some s' => k.goes P adler32 x s' ks
        | none => none
      else none
  | .codec _ (.fill _) => none
  | .codec x a =>
      (RpcCodecPool.step P adler32 (k.codec x) a).map fun c' =>
        { k with codec := Function.update k.codec x c' }
  | .read x n =>
      if k.reading x = false ∧ n ≤ (k.unread x.peer).length then some (k.taken x n) else none
  | .loop x ks => if k.reading x = true then socketLoop P adler32 k x ks else none

end Sockets

/-- Writes succeed, and nothing gets between the parts of a frame. -/
def FaultlessSockets (k : Sockets Msg) : SocketAction Msg → Prop
  | .act x _ ks => ∀ i ∈ ks, Faultless (k.codec x) (.fill i)
  | .codec x a => Faultless (k.codec x) a
  | .read _ _ => True
  | .loop x ks => ∀ i ∈ ks, Faultless (k.codec x) (.fill i)

instance (k : Sockets Msg) (a : SocketAction Msg) : Decidable (FaultlessSockets k a) :=
  match a with
  | .act x _ ks => inferInstanceAs (Decidable (∀ i ∈ ks, Faultless (k.codec x) (.fill i)))
  | .codec x a => inferInstanceAs (Decidable (Faultless (k.codec x) a))
  | .read _ _ => isTrue trivial
  | .loop x ks => inferInstanceAs (Decidable (∀ i ∈ ks, Faultless (k.codec x) (.fill i)))

/-- The states of all runs that meet the rule. -/
def SocketsReachable (P : Protobuf RpcMessage) (adler32 : Bytes → UInt32)
    (services : Side → Option (Services Msg)) : Sockets Msg → Prop :=
  Reaches (socketStep P adler32) FaultlessSockets (Sockets.start services)

/-! ## What is issued -/

section Emit

variable {P : Protobuf RpcMessage} {adler32 : Bytes → UInt32} {c c' : Sender RpcMessage}

theorem alone_fill {k : Nat} (halone : Alone c (.fill k))
    (h : RpcCodecPool.step P adler32 c (.fill k) = some c') (i : Nat) :
    Alone c' (.fill i) := by
  obtain ⟨call, bv, b, -, -, -, -, rfl⟩ := RpcCodecPool.step_fill h
  intro call' hcall'
  rcases List.mem_or_eq_of_mem_set hcall' with hold | rfl
  · exact halone call' hold
  · exact not_false

/-- The frames of what is issued come behind those issued before; nothing is
    transferred yet. -/
theorem sending_emit {ks : List Nat} :
    ∀ {c : Sender RpcMessage} {ms : List RpcMessage} {issued : List (Nat × RpcMessage)},
      Sending P adler32 c issued → (∀ k ∈ ks, Faultless c (.fill k)) →
      emit P adler32 c ks ms = some c' →
      ∃ issued', Sending P adler32 c' issued' ∧
        RpcCodecChannel.framesOf P adler32 issued'
          = RpcCodecChannel.framesOf P adler32 issued ++ framesOf P adler32 ms ∧
        c'.wire = c.wire := by
  induction ks with
  | nil =>
      intro c ms issued hsending _ h
      cases ms with
      | nil =>
          obtain rfl := Option.some.inj h
          exact ⟨issued, hsending, (List.append_nil _).symm, rfl⟩
      | cons m ms => cases h
  | cons k ks ih =>
      intro c ms issued hsending hrule h
      cases ms with
      | nil => cases h
      | cons m ms =>
          rw [emit] at h
          split at h
          · next hmsg =>
              obtain ⟨call, hcall, hm⟩ := Option.map_eq_some_iff.mp hmsg
              split at h
              · next c₁ hstep =>
                  have hfirst := hrule k List.mem_cons_self
                  have hsending₁ := hsending.step hfirst hstep
                  have hnote : noteIssued issued c (.fill k) = issued ++ [(k, m)] := by
                    rw [noteIssued, hcall, ← hm]
                  rw [hnote] at hsending₁
                  obtain ⟨issued', hsending', hframes, hwire⟩ := ih hsending₁
                    (fun i _ => ⟨trivial, alone_fill hfirst.2.1 hstep i, trivial⟩) h
                  refine ⟨issued', hsending', ?_, hwire.trans ?_⟩
                  · have hone : RpcCodecChannel.framesOf P adler32 [(k, m)]
                        = RpcCodecSend.frame P adler32 m := List.append_nil _
                    rw [hframes, RpcCodecChannel.framesOf_append, hone, List.append_assoc]
                    rfl
                  · obtain ⟨old, bv, b, -, -, -, -, rfl⟩ := RpcCodecPool.step_fill hstep
                    rfl
              · cases h
          · cases h

end Emit

/-! ## The link behind the sockets -/

/-- The link that carries the frames issued, where the sockets carry what the
    writes have transferred of them. -/
def Sockets.link (P : Protobuf RpcMessage) (adler32 : Bytes → UInt32) (k : Sockets Msg)
    (issued : Side → List (Nat × RpcMessage)) : Link Msg where
  session := k.session
  inputBuffer := k.inputBuffer
  reading := k.reading
  wire := fun x => (RpcCodecChannel.framesOf P adler32 (issued x)).drop (k.received x)

theorem link_eq {l l' : Link Msg} (hsession : l.session = l'.session)
    (hinput : l.inputBuffer = l'.inputBuffer) (hreading : l.reading = l'.reading)
    (hwire : ∀ x, l.wire x = l'.wire x) : l = l' := by
  cases l
  cases l'
  cases hsession
  cases hinput
  cases hreading
  cases (funext hwire : _ = _)
  rfl

structure Backs (P : Protobuf RpcMessage) (adler32 : Bytes → UInt32)
    (services : Side → Option (Services Msg)) (k : Sockets Msg)
    (issued : Side → List (Nat × RpcMessage)) : Prop where
  sending : ∀ x, Sending P adler32 (k.codec x) (issued x)
  received : ∀ x, k.received x ≤ (k.codec x).wire.length
  link : LinkReachable P adler32 services (k.link P adler32 issued)

theorem backs_start (P : Protobuf RpcMessage) (adler32 : Bytes → UInt32)
    (services : Side → Option (Services Msg)) :
    Backs P adler32 services (Sockets.start services) (fun _ => []) where
  sending := fun _ => RpcCodecChannel.sending_new
  received := fun _ => Nat.le_refl 0
  link := .start

section Steps

variable {P : Protobuf RpcMessage} {adler32 : Bytes → UInt32}
  {services : Side → Option (Services Msg)} {k : Sockets Msg}
  {issued : Side → List (Nat × RpcMessage)}

/-- What the peer has read are frames issued. -/
theorem Backs.received_le (hbacks : Backs P adler32 services k issued) (x : Side) :
    k.received x ≤ (RpcCodecChannel.framesOf P adler32 (issued x)).length := by
  have hprefix := (RpcCodecChannel.Sending.wire_front (hbacks.sending x)).length_le
  rw [List.length_map] at hprefix
  exact Nat.le_trans (hbacks.received x) hprefix

/-- What it has not read is the front of what the link has. -/
theorem Backs.unread_front (hbacks : Backs P adler32 services k issued) (x : Side) :
    k.unread x <+: (k.link P adler32 issued).wire x := by
  obtain ⟨more, hmore⟩ := RpcCodecChannel.Sending.wire_front (hbacks.sending x)
  refine ⟨more, ?_⟩
  show k.unread x ++ more
    = (RpcCodecChannel.framesOf P adler32 (issued x)).drop (k.received x)
  rw [← hmore, List.drop_append_of_le_length (by rw [List.length_map]; exact hbacks.received x)]
  rfl

/-- A step of a session, with what it sends, on both levels. -/
theorem Backs.goes (hbacks : Backs P adler32 services k issued) {x : Side} {s' : State Msg}
    {ks : List Nat} {k' : Sockets Msg} (hrule : ∀ i ∈ ks, Faultless (k.codec x) (.fill i))
    (h : k.goes P adler32 x s' ks = some k') :
    ∃ issued', (∀ y, Sending P adler32 (k'.codec y) (issued' y)) ∧
      (∀ y, k'.received y ≤ (k'.codec y).wire.length) ∧
      k'.link P adler32 issued' = (k.link P adler32 issued).moved P adler32 x s' := by
  obtain ⟨c', hc', rfl⟩ := Option.map_eq_some_iff.mp h
  obtain ⟨issuedx, hsending, hframes, hwire⟩ := sending_emit (hbacks.sending x) hrule hc'
  refine ⟨Function.update issued x issuedx, ?_, ?_, ?_⟩
  · intro y
    show Sending P adler32 (Function.update k.codec x c' y) _
    by_cases hy : y = x
    · rw [hy, Function.update_self, Function.update_self]
      exact hsending
    · rw [Function.update_of_ne hy, Function.update_of_ne hy]
      exact hbacks.sending y
  · intro y
    show k.received y ≤ (Function.update k.codec x c' y).wire.length
    by_cases hy : y = x
    · rw [hy, Function.update_self, hwire]
      exact hbacks.received x
    · rw [Function.update_of_ne hy]
      exact hbacks.received y
  · refine link_eq rfl rfl rfl ?_
    intro y
    show (RpcCodecChannel.framesOf P adler32 (Function.update issued x issuedx y)).drop
      (k.received y) = Function.update (k.link P adler32 issued).wire x _ y
    by_cases hy : y = x
    · rw [hy, Function.update_self, Function.update_self, hframes,
        List.drop_append_of_le_length (hbacks.received_le x)]
      rfl
    · rw [Function.update_of_ne hy, Function.update_of_ne hy]
      rfl

/-- The codec's own steps do not show. -/
theorem Backs.codec (hbacks : Backs P adler32 services k issued) {x : Side}
    {a : RpcCodecPool.Action RpcMessage} {c' : Sender RpcMessage}
    (hrule : Faultless (k.codec x) a)
    (hnote : noteIssued (issued x) (k.codec x) a = issued x)
    (h : RpcCodecPool.step P adler32 (k.codec x) a = some c') :
    Backs P adler32 services { k with codec := Function.update k.codec x c' } issued where
  sending := fun y => by
    show Sending P adler32 (Function.update k.codec x c' y) (issued y)
    by_cases hy : y = x
    · have hstep := (hbacks.sending x).step hrule h
      rw [hnote] at hstep
      rw [hy, Function.update_self]
      exact hstep
    · rw [Function.update_of_ne hy]
      exact hbacks.sending y
  received := fun y => by
    show k.received y ≤ (Function.update k.codec x c' y).wire.length
    by_cases hy : y = x
    · rw [hy, Function.update_self]
      exact Nat.le_trans (hbacks.received x) (RpcCodecChannel.wire_grows h).length_le
    · rw [Function.update_of_ne hy]
      exact hbacks.received y
  link := hbacks.link

/-- **A READ** returns what it would return on the link. -/
theorem Backs.read (hbacks : Backs P adler32 services k issued) {x : Side} {n : Nat}
    (hreading : k.reading x = false) (hn : n ≤ (k.unread x.peer).length) :
    Backs P adler32 services (k.taken x n) issued := by
  obtain ⟨more, hmore⟩ := hbacks.unread_front x.peer
  have hlength : (k.unread x.peer).length
      = (k.codec x.peer).wire.length - k.received x.peer := by
    rw [Sockets.unread, List.length_drop, List.length_map]
  refine ⟨hbacks.sending, ?_, ?_⟩
  · intro y
    show Function.update k.received x.peer _ y ≤ (k.codec y).wire.length
    by_cases hy : y = x.peer
    · have hread := hbacks.received x.peer
      rw [hy, Function.update_self]
      omega
    · rw [Function.update_of_ne hy]
      exact hbacks.received y
  · have htake : ((k.link P adler32 issued).wire x.peer).take n = (k.unread x.peer).take n := by
      rw [← hmore, List.take_append_of_le_length hn]
    have hle : n ≤ ((k.link P adler32 issued).wire x.peer).length := by
      rw [← hmore, List.length_append]
      exact Nat.le_trans hn (Nat.le_add_right _ _)
    have hstep : linkStep P adler32 (k.link P adler32 issued) (.read x n)
        = some ((k.taken x n).link P adler32 issued) := by
      rw [linkStep, if_pos ⟨hreading, hle⟩, htake]
      refine congrArg some (link_eq rfl rfl rfl ?_)
      intro y
      show Function.update (k.link P adler32 issued).wire x.peer _ y
        = (RpcCodecChannel.framesOf P adler32 (issued y)).drop
          (Function.update k.received x.peer (k.received x.peer + n) y)
      by_cases hy : y = x.peer
      · rw [hy, Function.update_self, Function.update_self]
        exact List.drop_drop
      · rw [Function.update_of_ne hy, Function.update_of_ne hy]
        rfl
    exact hbacks.link.next trivial hstep

/-- **EVERY STEP** on the sockets is a step of the link, or none. -/
theorem Backs.step (hbacks : Backs P adler32 services k issued) {a : SocketAction Msg}
    {k' : Sockets Msg} (hrule : FaultlessSockets k a) (h : socketStep P adler32 k a = some k') :
    ∃ issued', Backs P adler32 services k' issued' := by
  cases a with
  | act x a ks =>
      simp only [socketStep] at h
      split at h
      · next hown =>
          split at h
          · next s' hs' =>
              obtain ⟨issued', hsending, hreceived, hlink⟩ := hbacks.goes hrule h
              have hstep : linkStep P adler32 (k.link P adler32 issued) (.act x a)
                  = some ((k.link P adler32 issued).moved P adler32 x s') := by
                have hs'' : RpcSessionRun.step ((k.link P adler32 issued).session x) a
                  = some s' := hs'
                simp only [linkStep, hown, hs'', if_true]
              exact ⟨issued', hsending, hreceived, hlink ▸ hbacks.link.next trivial hstep⟩
          · cases h
      · cases h
  | codec x a =>
      cases a with
      | select m =>
          simp only [socketStep] at h
          obtain ⟨c', hc', rfl⟩ := Option.map_eq_some_iff.mp h
          exact ⟨issued, hbacks.codec hrule rfl hc'⟩
      | fill i => cases h
      | transfer i n ec =>
          simp only [socketStep] at h
          obtain ⟨c', hc', rfl⟩ := Option.map_eq_some_iff.mp h
          exact ⟨issued, hbacks.codec hrule rfl hc'⟩
      | onWrite i =>
          simp only [socketStep] at h
          obtain ⟨c', hc', rfl⟩ := Option.map_eq_some_iff.mp h
          exact ⟨issued, hbacks.codec hrule rfl hc'⟩
  | read x n =>
      simp only [socketStep] at h
      obtain ⟨⟨hreading, hn⟩, heq⟩ := Option.ite_none_right_eq_some.mp h
      obtain rfl := Option.some.inj heq
      exact ⟨issued, hbacks.read hreading hn⟩
  | loop x ks =>
      simp only [socketStep] at h
      obtain ⟨hreading, hloop⟩ := Option.ite_none_right_eq_some.mp h
      simp only [socketLoop] at hloop
      split at hloop
      · next m b hidle hbody =>
          split at hloop
          · next s' hs' =>
              obtain ⟨k₁, hk₁, rfl⟩ := Option.map_eq_some_iff.mp hloop
              obtain ⟨issued', hsending, hreceived, hlink⟩ := hbacks.goes hrule hk₁
              have hstep : linkStep P adler32 (k.link P adler32 issued) (.loop x)
                  = some (((k.link P adler32 issued).moved P adler32 x s').consumed x b) := by
                have hidle' : ((k.link P adler32 issued).session x).reader = .idle := hidle
                have hbody' : onReadStep P adler32 ((k.link P adler32 issued).inputBuffer x)
                  = .ok (some (⟨some m, .kNoError⟩, b)) := hbody
                have hs'' : RpcSessionRun.step ((k.link P adler32 issued).session x) (.receive m)
                  = some s' := hs'
                have hreading' : (k.link P adler32 issued).reading x = true := hreading
                simp only [linkStep, loopStep, hreading', hidle', hbody', hs'', if_true]
              refine ⟨issued', hsending, hreceived, ?_⟩
              have hconsumed : (k₁.consumed x b).link P adler32 issued'
                  = ((k.link P adler32 issued).moved P adler32 x s').consumed x b := by
                rw [← hlink]
                rfl
              rw [hconsumed]
              exact hbacks.link.next trivial hstep
          · cases hloop
      · next hidle hbody =>
          obtain rfl := Option.some.inj hloop
          have hstep : linkStep P adler32 (k.link P adler32 issued) (.loop x)
              = some { k.link P adler32 issued with
                reading := Function.update k.reading x false } := by
            have hidle' : ((k.link P adler32 issued).session x).reader = .idle := hidle
            have hbody' : onReadStep P adler32 ((k.link P adler32 issued).inputBuffer x)
              = .ok none := hbody
            have hreading' : (k.link P adler32 issued).reading x = true := hreading
            simp only [linkStep, loopStep, hreading', hidle', hbody', if_true]
            rfl
          exact ⟨issued, hbacks.sending, hbacks.received, hbacks.link.next trivial hstep⟩
      · cases hloop

end Steps

theorem backs_of_reachable {P : Protobuf RpcMessage} {adler32 : Bytes → UInt32}
    {services : Side → Option (Services Msg)} {k : Sockets Msg}
    (h : SocketsReachable P adler32 services k) : ∃ issued, Backs P adler32 services k issued := by
  refine h.invariant (I := fun k => ∃ issued, Backs P adler32 services k issued)
    ⟨_, backs_start P adler32 services⟩ ?_
  rintro k a k' ⟨issued, hbacks⟩ hrule hstep
  exact hbacks.step hrule hstep

/-! ## What the sockets carry -/

section Refinement

variable {P : Protobuf RpcMessage} {adler32 : Bytes → UInt32}
  {services : Side → Option (Services Msg)} {k : Sockets Msg}

end Refinement

def sevenRequest : RpcMessage := requestMessage echoMethod { RpcMessage.new with id := 7 } 0

def sevenReply : RpcMessage :=
  doneCallback echoMethod.responsePrototype { RpcMessage.new with id := 7 } 0

/-- A call of the left session; its request goes out in two parts and is read
    in two. -/
def socketRun : List (SocketAction RpcMessage) :=
  [.act .left (.fetchAdd echoMethod { RpcMessage.new with id := 7 } true true) [],
    .act .left (.register 0) [], .codec .left (.select sevenRequest),
    .act .left (.sendRequest 0) [0], .codec .left (.transfer 0 5 false), .read .right 3,
    .loop .right [], .codec .left (.onWrite 0), .codec .left (.transfer 0 38 false),
    .codec .left (.onWrite 0), .read .right 40, .loop .right [], .loop .right [],
    .codec .right (.select sevenReply), .act .right (.answer 0 { RpcMessage.new with id := 7 }) [0],
    .codec .right (.transfer 0 21 false), .read .left 21, .codec .right (.onWrite 0),
    .loop .left [], .act .left .deliver [], .act .left .doneReturn [], .loop .left []]

section Callers

variable {P : Protobuf RpcMessage} {adler32 : Bytes → UInt32}
  {services : Side → Option (Services Msg)} {k : Sockets Msg}

/-- **OWN ANSWER**: on two sockets, whatever both sides call and answer and
    however the bytes are cut, a call's closure runs at most once, right after
    its response object was filled, and only ever with the answer to its own
    request. -/
theorem own_answer (hP : P.ParsesAllBack) (h : SocketsReachable P adler32 services k)
    (hfit : AllFit P k.session) (x : Side) (hfew : (k.session x).calls.length < 2 ^ 32) (i : Nat)
    (call : Call Msg) (hcall : (k.session x).calls[i]? = some call) :
    CallSafe k.session x i call := by
  obtain ⟨issued, hbacks⟩ := backs_of_reachable h
  obtain ⟨d, hd, hcarries⟩ := duplex_of_link hP hbacks.link hfit
  have hsession : k.session = d.session := hcarries.session
  rw [hsession] at hfew hcall ⊢
  exact callSafe_of_reachable hd x hfew i call hcall

theorem own_answer_on_run :
    ∃ (k : Sockets RpcMessage) (call : Call RpcMessage),
      SocketsReachable rpcProto zlibAdler32 echoServices k ∧
      (k.session .left).calls[0]? = some call ∧ (k.session .left).runs 0 = 1 ∧
      CallSafe k.session .left 0 call := by
  have hrun : (guardedRun (socketStep rpcProto zlibAdler32) FaultlessSockets
      (Sockets.start echoServices) socketRun).map
      (fun k => (decide (AllFit rpcProto k.session), (k.session .left).calls.length,
        (k.session .left).runs 0)) = some (true, 1, 1) := by
    decide +kernel
  obtain ⟨k, hk, heq⟩ := exists_of_guardedRun hrun
  obtain ⟨hfit, heq⟩ := Prod.mk.inj heq
  obtain ⟨hlength, hruns⟩ := Prod.mk.inj heq
  obtain ⟨call, hcall⟩ : ∃ call, (k.session .left).calls[0]? = some call :=
    ⟨_, List.getElem?_eq_getElem (by rw [hlength]; decide)⟩
  refine ⟨k, call, hk, hcall, hruns, own_answer rpcProto_parsesAllBack hk
    (of_decide_eq_true hfit) .left ?_ 0 call hcall⟩
  rw [hlength]
  decide

end Callers

end RpcDuplex
