import BoostPractice.RpcSessionProofs

/-! # A received stream, from bytes to effects

    `rpc_codec::on_read` calls `on_rpc_callback` for each complete frame, with
    a null message for one whose checksum is wrong.  The session was meant to
    answer such a frame with INVALID_CHECKSUM and go on; the block that
    answers reads the id of the message, and there is none.

    `contained_iff` says exactly which streams are handled as they were meant
    to be: those without a wrong checksum.  Nothing is used of the protobuf
    code `P`: it may make of a payload what it will. -/

namespace RpcSessionStream

open MachineInt FrameDecoding BoostBuffer RpcMessages RpcCodecRead RpcSession

variable {Msg : Type} (P : Protobuf RpcMessage)

/-- The callbacks of the codec, handled one after the other. -/
def handleCallbacks : Session Msg → List (RpcCallback RpcMessage) →
    Except Fault (Session Msg × List (Effect Msg))
  | s, [] => .ok (s, [])
  | s, c :: cs =>
      match onRpcCallback s c.rpcMsg c.error with
      | .error fault => .error fault
      | .ok (s', effects) =>
          match handleCallbacks s' cs with
          | .error fault => .error fault
          | .ok (s'', later) => .ok (s'', effects ++ later)

/-- The bytes a session receives, in the pieces they arrive in, `b` being
    what its `inputBuffer_` holds before. -/
def handleChunks (adler32 : Bytes → UInt32) (b : Buffer) (s : Session Msg)
    (chunks : List Bytes) : Except Fault (Session Msg × List (Effect Msg)) :=
  handleCallbacks s (feed (onRead P adler32) b chunks).1

/-- All a session receives, from the first byte on. -/
def handleStream (adler32 : Bytes → UInt32) (s : Session Msg) (chunks : List Bytes) :
    Except Fault (Session Msg × List (Effect Msg)) :=
  handleChunks P adler32 inputBuffer s chunks

/-- What the complete frames of a stream say. -/
def frames (adler32 : Bytes → UInt32) (stream : Bytes) : List (RpcCallback RpcMessage) :=
  ((reference P adler32).decode stream).1

def goodFrames (adler32 : Bytes → UInt32) (stream : Bytes) : List (RpcCallback RpcMessage) :=
  (frames P adler32 stream).filter fun c => c.error = .kNoError

def badFrames (adler32 : Bytes → UInt32) (stream : Bytes) : List (RpcCallback RpcMessage) :=
  (frames P adler32 stream).filter fun c => c.error = .kChecksumError

/-- An INVALID_CHECKSUM reply handed to `send_rpc_msg`. -/
def isChecksumReply : Effect Msg → Bool
  | .send m => m.error = .invalidChecksum
  | _ => false

/-- **CONTAINED**: no null message is dereferenced, there is one
    INVALID_CHECKSUM reply for each bad frame, and all else is as if the bad
    frames were absent. -/
def Contained (adler32 : Bytes → UInt32) (s : Session Msg) (chunks : List Bytes) : Prop :=
  ∃ s' effects, handleStream P adler32 s chunks = .ok (s', effects) ∧
    effects.countP isChecksumReply = (badFrames P adler32 chunks.flatten).length ∧
    handleCallbacks s (goodFrames P adler32 chunks.flatten)
      = .ok (s', effects.filter fun e => !isChecksumReply e)

/-- A frame with a wrong checksum comes with a null message, any other with a
    message. -/
theorem rpcMsg_of_mem_frames {adler32 : Bytes → UInt32} {stream : Bytes}
    {c : RpcCallback RpcMessage} (h : c ∈ frames P adler32 stream) :
    (c.error = .kChecksumError ∧ c.rpcMsg = none) ∨
      (c.error = .kNoError ∧ ∃ m, c.rpcMsg = some m) := by
  obtain ⟨s, r, hnext⟩ := (reference P adler32).mem_decode stream h
  rcases referenceNext_cases P adler32 s with ⟨h', -⟩ | ⟨h', -⟩ | ⟨n, -, -, -, h'⟩
  · exact nomatch h'.symm.trans hnext
  · exact nomatch h'.symm.trans hnext
  · rw [← (Verdict.frame.inj (h'.symm.trans hnext)).1, referenceFrame, referenceCallback]
    split
    · exact .inr ⟨rfl, _, rfl⟩
    · exact .inl ⟨rfl, rfl⟩

/-- Handling a null message ends in the fault. -/
theorem onRpcCallback_none (s : Session Msg) (error : CodecError) :
    onRpcCallback s none error = .error .nullRpcMsg := by
  cases error with
  | kNoError => rfl
  | kChecksumError => rfl

/-- A message is always handled, and never answered with INVALID_CHECKSUM. -/
theorem onRpcCallback_some (s : Session Msg) (m : RpcMessage) :
    ∃ s' effects, onRpcCallback s (some m) .kNoError = .ok (s', effects) ∧
      ∀ e ∈ effects, isChecksumReply e = false := by
  by_cases hres : m.type = .response
  · cases hentry : s.reqCallbacks (uint64ToInt32 m.id) with
    | none => exact ⟨_, _, onRpcCallback_unknown s hres hentry, nofun⟩
    | some entry =>
        refine ⟨_, _, onRpcCallback_pending s hres hentry, ?_⟩
        intro e he
        rcases mem_completeCall he with ⟨call, value, rfl⟩ | ⟨call, rfl⟩
        · rfl
        · rfl
  · obtain ⟨effects, hok, hhandled⟩ := onRpcCallback_handled s hres
    refine ⟨s, effects, hok, ?_⟩
    intro e he
    cases hhandled with
    | invoked inv _ =>
        rw [List.mem_singleton.mp he]
        rfl
    | rejected errorCode hrejects =>
        rw [List.mem_singleton.mp he]
        cases hrejects with
        | noService => rfl
        | noMethod => rfl
        | invalidRequest => rfl
    | ignored _ => exact nomatch he

/-- A run of callbacks that ends well had no null message in it. -/
theorem rpcMsg_of_handleCallbacks :
    ∀ {cs : List (RpcCallback RpcMessage)} {s s' : Session Msg} {effects : List (Effect Msg)},
      handleCallbacks s cs = .ok (s', effects) → ∀ c ∈ cs, c.rpcMsg ≠ none := by
  intro cs
  induction cs with
  | nil => intro s s' effects _ c hc; exact nomatch hc
  | cons c cs ih =>
      intro s s' effects hrun c' hc'
      rw [handleCallbacks] at hrun
      cases hfirst : onRpcCallback s c.rpcMsg c.error with
      | error fault =>
          rw [hfirst] at hrun
          exact nomatch hrun
      | ok first =>
          rw [hfirst] at hrun
          rcases List.mem_cons.mp hc' with rfl | hlater
          · intro hnone
            rw [hnone, onRpcCallback_none] at hfirst
            exact nomatch hfirst
          · cases hrest : handleCallbacks first.1 cs with
            | error fault =>
                simp only [hrest] at hrun
                exact nomatch hrun
            | ok rest => exact ih hrest c' hlater

/-- Messages are all handled, none answered with INVALID_CHECKSUM. -/
theorem handleCallbacks_good :
    ∀ (cs : List (RpcCallback RpcMessage)) (s : Session Msg),
      (∀ c ∈ cs, c.error = .kNoError ∧ ∃ m, c.rpcMsg = some m) →
      ∃ s' effects, handleCallbacks s cs = .ok (s', effects) ∧
        ∀ e ∈ effects, isChecksumReply e = false := by
  intro cs
  induction cs with
  | nil => intro s _; exact ⟨s, [], rfl, fun e he => nomatch he⟩
  | cons c cs ih =>
      intro s hgood
      obtain ⟨herror, m, hm⟩ := hgood c List.mem_cons_self
      obtain ⟨s₁, first, hfirst, hnone⟩ := onRpcCallback_some s m
      obtain ⟨s₂, rest, hrest, hnone'⟩ := ih s₁ fun c' hc' => hgood c' (List.mem_cons_of_mem _ hc')
      refine ⟨s₂, first ++ rest, ?_, ?_⟩
      · rw [handleCallbacks, hm, herror, hfirst]
        simp only [hrest]
      · intro e he
        rcases List.mem_append.mp he with h | h
        · exact hnone e h
        · exact hnone' e h

/-- **CONTAINMENT, EXACTLY**: a stream whose frames have a length of at least
    4 is handled as it should be if and only if no complete frame of it has a
    wrong checksum. -/
theorem contained_iff (adler32 : Bytes → UInt32) (s : Session Msg) (chunks : List Bytes)
    (hlen : HeadLengthsOk chunks.flatten) :
    Contained P adler32 s chunks ↔ badFrames P adler32 chunks.flatten = [] := by
  have hcallbacks : (feed (onRead P adler32) inputBuffer chunks).1
      = frames P adler32 chunks.flatten := feed_onRead_callbacks P adler32 hlen
  constructor
  · rintro ⟨s', effects, hrun, -⟩
    rw [handleStream, handleChunks, hcallbacks] at hrun
    rw [badFrames, List.filter_eq_nil_iff]
    intro c hc
    rw [decide_eq_true_eq]
    intro hbad
    rcases rpcMsg_of_mem_frames P hc with ⟨-, hnull⟩ | ⟨hgood, -⟩
    · exact rpcMsg_of_handleCallbacks hrun c hc hnull
    · exact nomatch hgood.symm.trans hbad
  · intro hnone
    have hgood : ∀ c ∈ frames P adler32 chunks.flatten,
        c.error = .kNoError ∧ ∃ m, c.rpcMsg = some m := by
      intro c hc
      rcases rpcMsg_of_mem_frames P hc with ⟨hbad, -⟩ | hgood
      · rw [badFrames, List.filter_eq_nil_iff] at hnone
        exact absurd (decide_eq_true hbad) (hnone c hc)
      · exact hgood
    have hall : goodFrames P adler32 chunks.flatten = frames P adler32 chunks.flatten := by
      rw [goodFrames, List.filter_eq_self]
      exact fun c hc => decide_eq_true (hgood c hc).1
    obtain ⟨s', effects, hrun, hreplies⟩ := handleCallbacks_good _ s hgood
    refine ⟨s', effects, ?_, ?_, ?_⟩
    · rw [handleStream, handleChunks, hcallbacks, hrun]
    · rw [hnone, List.countP_eq_zero.mpr fun e he => by
        rw [hreplies e he]; exact Bool.false_ne_true]
      rfl
    · rw [hall, hrun, List.filter_eq_self.mpr fun e he => by rw [hreplies e he]; rfl]

/-- An empty REQUEST in two pieces, rejected as it should be. -/
theorem contained_empty_request :
    Contained rpcProto zlibAdler32 (Session.new : Session Bytes) [[0, 0, 0], [4, 0, 0, 0, 1]] :=
  (contained_iff rpcProto zlibAdler32 Session.new [[0, 0, 0], [4, 0, 0, 0, 1]]
    (.frame 4 (by decide) (by decide) (by decide) (.short (by decide)))).mpr (by decide +kernel)

set_option maxRecDepth 20000 in
/-- The empty message with the checksum 0, which should be 1. -/
theorem wrong_checksum_not_contained :
    HeadLengthsOk [0, 0, 0, 4, 0, 0, 0, 0] ∧
      handleStream rpcProto zlibAdler32 (Session.new : Session Bytes) [[0, 0, 0, 4, 0, 0, 0, 0]]
        = .error .nullRpcMsg ∧
      ¬ Contained rpcProto zlibAdler32 (Session.new : Session Bytes)
        [[0, 0, 0, 4, 0, 0, 0, 0]] := by
  have hrun : handleStream rpcProto zlibAdler32 (Session.new : Session Bytes)
      [[0, 0, 0, 4, 0, 0, 0, 0]] = .error .nullRpcMsg := rfl
  refine ⟨.frame 4 (by decide) (by decide) (by decide) (.short (by decide)), hrun, ?_⟩
  rintro ⟨s', effects, hok, -⟩
  exact nomatch hrun.symm.trans hok

end RpcSessionStream
