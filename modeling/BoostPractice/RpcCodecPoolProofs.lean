import BoostPractice.GuardedRunProofs
import BoostPractice.RpcCodecSendProofs

/-! # `rpc_codec`'s pool of output buffers

    Every `send_rpc_msg` takes a slot of `outputBuffers_`, fills it and
    issues a write of its region; `on_write` drops what was transferred and
    issues the next write, or gives the slot back.  The model keeps one
    record for each call of `send_rpc_msg`, named by its position, and
    tags the bytes on the socket with the call they were transferred for.

    Selecting a slot (under `mutexBuffers_`), filling it, the transfer of
    bytes from the region and the handler `on_write` are separate steps,
    taken in any order.  A transfer reads the slot's memory when it happens,
    not when the write was issued: that the bytes are the right ones is a
    result, not a modelling choice.

    The main result is `pool_invariant`. -/

namespace RpcCodecPool

open BoostBuffer RpcMessages RpcCodecRead RpcCodecSend GuardedRun

/-- `struct BufferValue`. -/
structure BufferValue where
  valid : Bool
  buffer : Buffer

/-- `BufferValue()`. -/
def BufferValue.new : BufferValue := ⟨true, Buffer.new kInitialSize⟩

/-- How far a call of `send_rpc_msg` and its writes have come.  `writing` is
    an issued write, its region given by an offset into the vector and a
    length; `result` holds the number of bytes transferred and whether the
    write failed, from the transfer until the handler runs. -/
inductive Stage where
  | filling
  | writing (offset length : Nat) (result : Option (Nat × Bool))
  | failed
  | done
  deriving DecidableEq

/-- One call of `send_rpc_msg`. -/
structure Send (M : Type) where
  rpcMsg : M
  slot : Nat
  stage : Stage

/-- `outputBuffers_`, the calls so far, the issued writes that have not taken
    effect, and the bytes put on the socket, each with its call. -/
structure Sender (M : Type) where
  outputBuffers : List BufferValue
  sends : List (Send M)
  queue : List Nat
  wire : List (Nat × UInt8)

variable {M : Type}

/-- `rpc_codec::rpc_codec`. -/
def Sender.new : Sender M := ⟨[.new], [], [], []⟩

/-! ## The steps -/

/-- The scan for a valid slot: the slots with the first valid one taken and
    its position, or one new slot at the end. -/
def selectBuffer : List BufferValue → List BufferValue × Nat
  | [] => ([{ BufferValue.new with valid := false }], 0)
  | bv :: rest =>
      if bv.valid then ({ bv with valid := false } :: rest, 0)
      else (bv :: (selectBuffer rest).1, (selectBuffer rest).2 + 1)

/-- The memory `[offset, offset + n)` of a buffer's vector. -/
def region (b : Buffer) (offset n : Nat) : Bytes := (b.data.drop offset).take n

/-- Replace a slot and the record of the call that has it. -/
def Sender.update (s : Sender M) (k : Nat) (call : Send M) (bv : BufferValue) : Sender M :=
  { s with
    outputBuffers := s.outputBuffers.set call.slot bv
    sends := s.sends.set k call }

/-- Issue the write of everything readable in a slot. -/
def Sender.issue (s : Sender M) (k : Nat) (call : Send M) (bv : BufferValue) : Sender M :=
  let region := Stage.writing bv.buffer.readerIndex bv.buffer.readableBytes none
  { s.update k { call with stage := region } bv with queue := s.queue ++ [k] }

inductive Action (M : Type) where
  /-- `send_rpc_msg` up to the end of its critical section. -/
  | select (rpcMsg : M)
  /-- The rest of the `k`-th `send_rpc_msg`. -/
  | fill (k : Nat)
  /-- The outstanding write of call `k` transfers `n` bytes, and may fail. -/
  | transfer (k n : Nat) (ec : Bool)
  /-- The handler of that write. -/
  | onWrite (k : Nat)

section Step

variable (P : Protobuf M) (adler32 : Bytes → UInt32)

/-- `send_rpc_msg` after the slot is selected. -/
def fill (s : Sender M) (k : Nat) (call : Send M) (bv : BufferValue) : Option (Sender M) :=
  match call.stage with
  | .filling => 
      (fillBuffer P adler32 bv.buffer call.rpcMsg).map fun b =>
        s.issue k call { bv with buffer := b }
  | _ => none

/-- The kernel takes `n` bytes of the region. -/
def transfer (s : Sender M) (k n : Nat) (ec : Bool) (call : Send M) (bv : BufferValue) :
    Option (Sender M) :=
  match call.stage with
  | .writing offset length none =>
      if n ≤ length then
        some { s.update k { call with stage := .writing offset length (some (n, ec)) } bv with
          queue := s.queue.erase k
          wire := s.wire ++ (region bv.buffer offset n).map (k, ·) }
      else none
  | _ => none

/-- `rpc_codec::on_write`. -/
def onWrite (s : Sender M) (k : Nat) (call : Send M) (bv : BufferValue) : Option (Sender M) :=
  match call.stage with
  | .writing _ _ (some (bytes, ec)) =>
      if ec then some (s.update k { call with stage := .failed } bv)
      else
        (bv.buffer.retrieve bytes).map fun b =>
          if b.readableBytes > 0 then s.issue k call { bv with buffer := b }
          else s.update k { call with stage := .done } { valid := true, buffer := b }
  | _ => none

/-- Let the `k`-th call go on with its slot. -/
def withCall (s : Sender M) (k : Nat) (f : Send M → BufferValue → Option (Sender M)) :
    Option (Sender M) :=
  match s.sends[k]? with
  | some call =>
      match s.outputBuffers[call.slot]? with
      | some bv => f call bv
      | none => none
  | none => none

/-- One step; nothing if the action cannot happen, or an assert fails. -/
def step (s : Sender M) : Action M → Option (Sender M)
  | .select rpcMsg =>
      some { s with
        outputBuffers := (selectBuffer s.outputBuffers).1
        sends := s.sends ++ [⟨rpcMsg, (selectBuffer s.outputBuffers).2, .filling⟩] }
  | .fill k => withCall s k (fill P adler32 s k)
  | .transfer k n ec => withCall s k (transfer s k n ec)
  | .onWrite k => withCall s k (onWrite s k)

end Step

/-- The bytes transferred for a call, in the order they went out. -/
def Sender.transferred (s : Sender M) (k : Nat) : Bytes :=
  (s.wire.filter fun p => p.1 == k).map Prod.snd

/-! ## What each step can do -/

theorem withCall_some {s s' : Sender M} {k : Nat} {f : Send M → BufferValue → Option (Sender M)}
    (h : withCall s k f = some s') :
    ∃ call bv, s.sends[k]? = some call ∧ s.outputBuffers[call.slot]? = some bv ∧
      f call bv = some s' := by
  rw [withCall] at h
  split at h
  · next call hcall =>
      split at h
      · next bv hbv => exact ⟨call, bv, hcall, hbv, h⟩
      · exact nomatch h
  · exact nomatch h

theorem withCall_of {s : Sender M} {k : Nat} {call : Send M} {bv : BufferValue}
    (hcall : s.sends[k]? = some call) (hbv : s.outputBuffers[call.slot]? = some bv)
    (f : Send M → BufferValue → Option (Sender M)) : withCall s k f = f call bv := by
  rw [withCall, hcall]
  simp only [hbv]

section Step

variable {P : Protobuf M} {adler32 : Bytes → UInt32} {s s' : Sender M} {k : Nat}

theorem step_fill (h : step P adler32 s (.fill k) = some s') :
    ∃ call bv b, s.sends[k]? = some call ∧ s.outputBuffers[call.slot]? = some bv ∧
      call.stage = .filling ∧ fillBuffer P adler32 bv.buffer call.rpcMsg = some b ∧
      s' = s.issue k call { bv with buffer := b } := by
  obtain ⟨call, bv, hcall, hbv, hfill⟩ := withCall_some h
  rw [fill] at hfill
  split at hfill
  · next hstage =>
      obtain ⟨b, hb, rfl⟩ := Option.map_eq_some_iff.mp hfill
      exact ⟨call, bv, b, hcall, hbv, hstage, hb, rfl⟩
  · exact nomatch hfill

theorem step_transfer {n : Nat} {ec : Bool} (h : step P adler32 s (.transfer k n ec) = some s') :
    ∃ call bv offset length, s.sends[k]? = some call ∧ s.outputBuffers[call.slot]? = some bv ∧
      call.stage = .writing offset length none ∧ n ≤ length ∧
      s' = { s.update k { call with stage := .writing offset length (some (n, ec)) } bv with
        queue := s.queue.erase k
        wire := s.wire ++ (region bv.buffer offset n).map (k, ·) } := by
  obtain ⟨call, bv, hcall, hbv, htransfer⟩ := withCall_some h
  rw [transfer] at htransfer
  split at htransfer
  · next offset length hstage =>
      split at htransfer
      · next hle =>
          exact ⟨call, bv, offset, length, hcall, hbv, hstage, hle,
            (Option.some.inj htransfer).symm⟩
      · exact nomatch htransfer
  · exact nomatch htransfer

/-- The handler sees an error, more to write, or the end of the frame. -/
theorem step_onWrite (h : step P adler32 s (.onWrite k) = some s') :
    ∃ call bv offset length n ec, s.sends[k]? = some call ∧
      s.outputBuffers[call.slot]? = some bv ∧
      call.stage = .writing offset length (some (n, ec)) ∧
      ((ec = true ∧ s' = s.update k { call with stage := .failed } bv) ∨
        (ec = false ∧ ∃ b, bv.buffer.retrieve n = some b ∧ 0 < b.readableBytes ∧
          s' = s.issue k call { bv with buffer := b }) ∨
        (ec = false ∧ ∃ b, bv.buffer.retrieve n = some b ∧ b.readableBytes = 0 ∧
          s' = s.update k { call with stage := .done } { valid := true, buffer := b })) := by
  obtain ⟨call, bv, hcall, hbv, hwrite⟩ := withCall_some h
  rw [onWrite] at hwrite
  split at hwrite
  · next offset length n ec hstage =>
      refine ⟨call, bv, offset, length, n, ec, hcall, hbv, hstage, ?_⟩
      cases ec with
      | true => exact .inl ⟨rfl, (Option.some.inj hwrite).symm⟩
      | false =>
          obtain ⟨b, hb, heq⟩ := Option.map_eq_some_iff.mp hwrite
          split at heq
          · next hpos => exact .inr (.inl ⟨rfl, b, hb, hpos, heq.symm⟩)
          · next hpos => exact .inr (.inr ⟨rfl, b, hb, Nat.eq_zero_of_not_pos hpos, heq.symm⟩)
  · exact nomatch hwrite

end Step

/-- Selecting takes one slot, a valid one or a new one at the end, and leaves
    the others alone. -/
theorem selectBuffer_spec (bvs : List BufferValue) :
    ∃ b, (selectBuffer bvs).1[(selectBuffer bvs).2]? = some ⟨false, b⟩ ∧
      (bvs[(selectBuffer bvs).2]? = some ⟨true, b⟩ ∨
        bvs[(selectBuffer bvs).2]? = none ∧ b = Buffer.new kInitialSize) ∧
      ∀ j, j ≠ (selectBuffer bvs).2 → (selectBuffer bvs).1[j]? = bvs[j]? := by
  induction bvs with
  | nil =>
      refine ⟨Buffer.new kInitialSize, rfl, .inr ⟨rfl, rfl⟩, ?_⟩
      rintro (_ | j) hj
      · exact absurd rfl hj
      · rfl
  | cons bv rest ih =>
      obtain ⟨valid, b⟩ := bv
      cases valid with
      | true =>
          refine ⟨b, rfl, .inl rfl, ?_⟩
          rintro (_ | j) hj
          · exact absurd rfl hj
          · rfl
      | false =>
          obtain ⟨b', htaken, hbefore, hothers⟩ := ih
          refine ⟨b', htaken, hbefore, ?_⟩
          rintro (_ | j) hj
          · rfl
          · exact hothers j fun heq => hj (congrArg (· + 1) heq)

/-! ## Bytes transferred -/

/-- A transfer for one call adds nothing to another's bytes. -/
theorem transferred_append {s s' : Sender M} {k : Nat} {bs : Bytes}
    (hwire : s'.wire = s.wire ++ bs.map (k, ·)) (j : Nat) :
    s'.transferred j = s.transferred j ++ if j = k then bs else [] := by
  rw [Sender.transferred, hwire, List.filter_append, List.map_append, Sender.transferred]
  congr 1
  rw [List.filter_map, List.map_map]
  by_cases h : j = k
  · have hall : ((fun p : Nat × UInt8 => p.1 == j) ∘ (k, ·)) = fun _ => true := by
      funext x
      rw [h]
      exact beq_self_eq_true k
    rw [if_pos h, hall, List.filter_true]
    exact List.map_id bs
  · have hnone : ((fun p : Nat × UInt8 => p.1 == j) ∘ (k, ·)) = fun _ => false := by
      funext x
      exact beq_eq_false_iff_ne.mpr (Ne.symm h)
    rw [if_neg h, hnone, List.filter_false]
    rfl

@[simp] theorem transferred_update (s : Sender M) (k : Nat) (call : Send M) (bv : BufferValue)
    (j : Nat) : (s.update k call bv).transferred j = s.transferred j := rfl

@[simp] theorem transferred_issue (s : Sender M) (k : Nat) (call : Send M) (bv : BufferValue)
    (j : Nat) : (s.issue k call bv).transferred j = s.transferred j := rfl

/-- Inside a buffer, the region of its readable bytes holds its content. -/
theorem region_eq_take (b : Buffer) {n : Nat} (h : n ≤ b.readableBytes) :
    region b b.readerIndex n = b.content.take n := by
  rw [Buffer.readableBytes] at h
  rw [region, Buffer.content, List.drop_take, List.take_take, Nat.min_eq_left h]

/-- A buffer that was emptied by retrieving is ready for the next frame. -/
theorem ready_of_retrieve {b b' : Buffer} {n : Nat} (h : b.retrieve n = some b')
    (hempty : b'.readableBytes = 0) : Ready b' := by
  rw [Buffer.retrieve] at h
  split at h
  · next hle =>
      split at h
      · next hlt =>
          -- the first branch of `retrieve` leaves bytes behind
          rw [← Option.some.inj h] at hempty
          have hread : b.readableBytes - n = 0 := by
            rw [← hempty]
            exact (Nat.sub_add_eq _ _ _).symm
          exact absurd (Nat.le_of_sub_eq_zero hread) (Nat.not_le_of_lt hlt)
      · rw [← Option.some.inj h]
        exact ⟨rfl, rfl⟩
  · cases h

/-! ## The invariant -/

section Invariant

variable (P : Protobuf M) (adler32 : Bytes → UInt32)

/-- The bytes a write has transferred that its handler has not dropped yet. -/
def Stage.pending : Option (Nat × Bool) → Nat
  | none => 0
  | some (n, _) => n

/-- What a call's slot holds and what has been transferred for it, at each
    stage: the frame is what went out before, and what is readable. -/
def StageOk (rpcMsg : M) (b : Buffer) (sent : Bytes) : Stage → Prop
  | .filling => Ready b ∧ sent = []
  | .writing offset length result =>
      offset = b.readerIndex ∧ length = b.readableBytes ∧ 0 < length ∧
        Stage.pending result ≤ length ∧
        ∃ before, before ++ b.content = frame P adler32 rpcMsg ∧
          sent = before ++ b.content.take (Stage.pending result)
  | .failed => sent <+: frame P adler32 rpcMsg
  | .done => sent = frame P adler32 rpcMsg

/-- Valid slots are ready; the others have exactly one call that is not done
    yet, in the state its stage says. -/
structure Consistent (s : Sender M) : Prop where
  valid_ready : ∀ (i : Nat) (b : Buffer), s.outputBuffers[i]? = some ⟨true, b⟩ → Ready b
  owner : ∀ (i : Nat) (b : Buffer), s.outputBuffers[i]? = some ⟨false, b⟩ →
    ∃ (k : Nat) (call : Send M), s.sends[k]? = some call ∧ call.slot = i ∧ call.stage ≠ .done
  unique : ∀ (k k' : Nat) (call call' : Send M), s.sends[k]? = some call →
    s.sends[k']? = some call' → call.slot = call'.slot → call.stage ≠ .done →
    call'.stage ≠ .done → k = k'
  live : ∀ (k : Nat) (call : Send M), s.sends[k]? = some call → call.stage ≠ .done →
    ∃ b : Buffer, s.outputBuffers[call.slot]? = some ⟨false, b⟩ ∧
      StageOk P adler32 call.rpcMsg b (s.transferred k) call.stage
  finished : ∀ (k : Nat) (call : Send M), s.sends[k]? = some call → call.stage = .done →
    s.transferred k = frame P adler32 call.rpcMsg
  unsent : ∀ k : Nat, s.sends[k]? = none → s.transferred k = []

theorem consistent_new : Consistent P adler32 (Sender.new : Sender M) where
  valid_ready := by
    rintro (_ | i) b h
    · have hb : Buffer.new kInitialSize = b := congrArg BufferValue.buffer (Option.some.inj h)
      rw [← hb]
      exact ready_new _
    · exact nomatch h
  owner := by
    rintro (_ | i) b h
    · exact nomatch congrArg BufferValue.valid (Option.some.inj h)
    · exact nomatch h
  unique := fun k k' call call' h => nomatch h
  live := fun k call h => nomatch h
  finished := fun k call h => nomatch h
  unsent := fun k _ => rfl

end Invariant

section Steps

variable {P : Protobuf M} {adler32 : Bytes → UInt32} {s s' : Sender M}

/-- **A CALL'S OWN STEP** keeps the invariant if it puts the call's slot, its
    stage and the bytes transferred for it into agreement again. -/
theorem Consistent.update (hinv : Consistent P adler32 s) {k : Nat} {call call' : Send M}
    {bv' : BufferValue}
    (hcall : s.sends[k]? = some call) (hlive : call.stage ≠ .done)
    (hbuffers : s'.outputBuffers = s.outputBuffers.set call.slot bv')
    (hsends : s'.sends = s.sends.set k call')
    (hslot : call'.slot = call.slot) (hmsg : call'.rpcMsg = call.rpcMsg)
    (hothers : ∀ j, j ≠ k → s'.transferred j = s.transferred j)
    (hstage : StageOk P adler32 call.rpcMsg bv'.buffer (s'.transferred k) call'.stage)
    (hvalid : (bv'.valid = false ∧ call'.stage ≠ .done) ∨
      (bv'.valid = true ∧ call'.stage = .done ∧ Ready bv'.buffer)) :
    Consistent P adler32 s' := by
  obtain ⟨b, hb, -⟩ := hinv.live k call hcall hlive
  have hself : s'.sends[k]? = some call' := by
    rw [hsends, List.getElem?_set_self (List.getElem?_eq_some_iff.mp hcall).1]
  have hslotself : s'.outputBuffers[call.slot]? = some bv' := by
    rw [hbuffers, List.getElem?_set_self (List.getElem?_eq_some_iff.mp hb).1]
  -- a live call other than `k` is in another slot
  have hdisjoint : ∀ (j : Nat) (callj : Send M), k ≠ j → s.sends[j]? = some callj →
      callj.stage ≠ .done → call.slot ≠ callj.slot :=
    fun j callj hj hcallj hlivej heq =>
      hj (hinv.unique k j call callj hcall hcallj heq hlive hlivej)
  constructor
  · -- the call's slot is valid only if it is done, and then ready
    intro i b' hget
    rw [hbuffers] at hget
    rcases getElem?_of_set hget with ⟨rfl, rfl⟩ | ⟨-, hold⟩
    · rcases hvalid with ⟨hv, -⟩ | ⟨-, -, hready⟩
      · cases hv
      · exact hready
    · exact hinv.valid_ready i b' hold
  · -- otherwise the call goes on owning it; the other owners stay
    intro i b' hget
    rw [hbuffers] at hget
    rcases getElem?_of_set hget with ⟨rfl, rfl⟩ | ⟨hi, hold⟩
    · rcases hvalid with ⟨-, hnot⟩ | ⟨hv, -⟩
      · exact ⟨k, call', hself, hslot, hnot⟩
      · cases hv
    · obtain ⟨j, callj, hcallj, hslotj, hlivej⟩ := hinv.owner i b' hold
      rcases getElem?_set_cases hcall hcallj call' with ⟨rfl, rfl, -⟩ | ⟨-, hsame⟩
      · exact absurd hslotj hi
      · exact ⟨j, callj, by rw [hsends]; exact hsame, hslotj, hlivej⟩
  · intro j j' callj callj' hcallj hcallj' heq hlivej hlivej'
    rw [hsends] at hcallj hcallj'
    rcases getElem?_of_set hcallj with ⟨rfl, rfl⟩ | ⟨hj, hold⟩
    · rcases getElem?_of_set hcallj' with ⟨rfl, -⟩ | ⟨hj', hold'⟩
      · rfl
      · exact absurd (hslot.symm.trans heq) (hdisjoint j' callj' hj' hold' hlivej')
    · rcases getElem?_of_set hcallj' with ⟨rfl, rfl⟩ | ⟨-, hold'⟩
      · exact absurd (hslot.symm.trans heq.symm) (hdisjoint j callj hj hold hlivej)
      · exact hinv.unique j j' callj callj' hold hold' heq hlivej hlivej'
  · intro j callj hcallj hlivej
    rw [hsends] at hcallj
    rcases getElem?_of_set hcallj with ⟨rfl, rfl⟩ | ⟨hj, hold⟩
    · rcases hvalid with ⟨hv, -⟩ | ⟨-, hdone, -⟩
      · refine ⟨bv'.buffer, ?_, ?_⟩
        · rw [hslot, hslotself, ← hv]
        · rw [hmsg]
          exact hstage
      · exact absurd hdone hlivej
    · obtain ⟨bj, hbj, hstagej⟩ := hinv.live j callj hold hlivej
      refine ⟨bj, ?_, ?_⟩
      · rw [hbuffers, List.getElem?_set_ne (hdisjoint j callj hj hold hlivej)]
        exact hbj
      · rw [hothers j (Ne.symm hj)]
        exact hstagej
  · intro j callj hcallj hdone
    rw [hsends] at hcallj
    rcases getElem?_of_set hcallj with ⟨rfl, rfl⟩ | ⟨hj, hold⟩
    · rw [hdone] at hstage
      rw [hmsg]
      exact hstage
    · rw [hothers j (Ne.symm hj)]
      exact hinv.finished j callj hold hdone
  · intro j hnone
    have hj : k ≠ j := by
      rintro rfl
      cases hself.symm.trans hnone
    rw [hothers j (Ne.symm hj)]
    rw [hsends, List.getElem?_set_ne hj] at hnone
    exact hinv.unsent j hnone

/-- Selecting opens a new call on a slot nobody has. -/
theorem Consistent.select (hinv : Consistent P adler32 s) {m : M}
    (h : step P adler32 s (.select m) = some s') : Consistent P adler32 s' := by
  obtain ⟨b, htaken, hbefore, hothers⟩ := selectBuffer_spec s.outputBuffers
  obtain rfl := Option.some.inj h
  generalize hi : (selectBuffer s.outputBuffers).2 = i at *
  -- the slot was ready, and no live call has it
  have hready : Ready b := by
    rcases hbefore with hget | ⟨-, hnew⟩
    · exact hinv.valid_ready i b hget
    · rw [hnew]
      exact ready_new _
  have hfree : ∀ (k : Nat) (call : Send M), s.sends[k]? = some call → call.stage ≠ .done →
      call.slot ≠ i := by
    intro k call hcall hlive hslot
    obtain ⟨b', hb', -⟩ := hinv.live k call hcall hlive
    rw [hslot] at hb'
    rcases hbefore with hget | ⟨hnone, -⟩
    · exact nomatch congrArg BufferValue.valid (Option.some.inj (hget.symm.trans hb'))
    · exact nomatch hnone.symm.trans hb'
  have hlast : s.sends[s.sends.length]? = none := List.getElem?_eq_none (Nat.le_refl _)
  constructor
  · intro j b' hget
    by_cases hj : j = i
    · rw [hj] at hget
      exact nomatch congrArg BufferValue.valid (Option.some.inj (htaken.symm.trans hget))
    · exact hinv.valid_ready j b' (by rw [← hothers j hj]; exact hget)
  · intro j b' hget
    by_cases hj : j = i
    · exact ⟨s.sends.length, ⟨m, i, .filling⟩, List.getElem?_concat_length, hj.symm, nofun⟩
    · obtain ⟨k, call, hcall, hslot, hlive⟩ :=
        hinv.owner j b' (by rw [← hothers j hj]; exact hget)
      exact ⟨k, call, getElem?_concat_iff.mpr (.inl hcall), hslot, hlive⟩
  · intro k k' call call' hcall hcall' heq hlive hlive'
    rcases getElem?_concat_iff.mp hcall with hc | ⟨hk, rfl⟩
    · rcases getElem?_concat_iff.mp hcall' with hc' | ⟨-, rfl⟩
      · exact hinv.unique k k' call call' hc hc' heq hlive hlive'
      · exact absurd heq (hfree k call hc hlive)
    · rcases getElem?_concat_iff.mp hcall' with hc' | ⟨hk', -⟩
      · exact absurd heq.symm (hfree k' call' hc' hlive')
      · exact hk.trans hk'.symm
  · intro k call hcall hlive
    rcases getElem?_concat_iff.mp hcall with hc | ⟨rfl, rfl⟩
    · obtain ⟨b', hb', hstage⟩ := hinv.live k call hc hlive
      exact ⟨b', by rw [← hothers _ (hfree k call hc hlive)] at hb'; exact hb', hstage⟩
    · exact ⟨b, htaken, hready, hinv.unsent _ hlast⟩
  · intro k call hcall hdone
    rcases getElem?_concat_iff.mp hcall with hc | ⟨-, rfl⟩
    · exact hinv.finished k call hc hdone
    · exact nomatch hdone
  · intro k hnone
    exact hinv.unsent k (getElem?_of_concat_none hnone)

theorem length_frame_pos (m : M) : 0 < (frame P adler32 m).length := by
  rw [frame, List.length_append, List.length_append, MachineInt.length_int32Bytes]
  omega

theorem content_of_retrieve {b b' : Buffer} {n : Nat} (h : b.retrieve n = some b') :
    b'.content = b.content.drop n := by
  have hle : n ≤ b.readableBytes := (b.retrieve_isSome_iff n).mp (by rw [h]; rfl)
  obtain ⟨b'', hb'', hcontent⟩ := b.retrieve_of_le hle
  rw [← Option.some.inj (hb''.symm.trans h), hcontent]

/-- The slot of a live call, as the step found it. -/
theorem Consistent.slot_of (hinv : Consistent P adler32 s) {k : Nat} {call : Send M}
    {bv : BufferValue} (hcall : s.sends[k]? = some call) (hlive : call.stage ≠ .done)
    (hbv : s.outputBuffers[call.slot]? = some bv) :
    bv.valid = false ∧ StageOk P adler32 call.rpcMsg bv.buffer (s.transferred k) call.stage := by
  obtain ⟨b, hb, hstage⟩ := hinv.live k call hcall hlive
  rw [Option.some.inj (hbv.symm.trans hb)]
  exact ⟨rfl, hstage⟩

theorem Consistent.fill (hinv : Consistent P adler32 s) {k : Nat}
    (h : step P adler32 s (.fill k) = some s') : Consistent P adler32 s' := by
  obtain ⟨call, bv, b, hcall, hbv, hstage, hfill, rfl⟩ := step_fill h
  have hlive : call.stage ≠ .done := by
    rw [hstage]
    exact nofun
  obtain ⟨hvalid, hok⟩ := hinv.slot_of hcall hlive hbv
  rw [hstage] at hok
  obtain ⟨hready, hsent⟩ := hok
  obtain ⟨b', hb', hcontent⟩ := content_fillBuffer P adler32 hready call.rpcMsg
  obtain rfl := Option.some.inj (hb'.symm.trans hfill)
  refine hinv.update hcall hlive rfl rfl rfl rfl (fun _ _ => rfl) ?_
    (.inl ⟨hvalid, nofun⟩)
  refine ⟨rfl, rfl, ?_, Nat.zero_le _, [], hcontent, ?_⟩
  · rw [← Buffer.length_content, hcontent]
    exact length_frame_pos call.rpcMsg
  · rw [transferred_issue, hsent]
    rfl

theorem Consistent.transfer (hinv : Consistent P adler32 s) {k n : Nat} {ec : Bool}
    (h : step P adler32 s (.transfer k n ec) = some s') : Consistent P adler32 s' := by
  obtain ⟨call, bv, offset, length, hcall, hbv, hstage, hle, rfl⟩ := step_transfer h
  have hlive : call.stage ≠ .done := by
    rw [hstage]
    exact nofun
  obtain ⟨hvalid, hok⟩ := hinv.slot_of hcall hlive hbv
  rw [hstage] at hok
  obtain ⟨rfl, rfl, hpos, -, before, hframe, hsent⟩ := hok
  refine hinv.update hcall hlive rfl rfl rfl rfl (fun j hj => ?_) ?_ (.inl ⟨hvalid, nofun⟩)
  · rw [transferred_append rfl j, if_neg hj, List.append_nil]
  · refine ⟨rfl, rfl, hpos, hle, before, hframe, ?_⟩
    rw [transferred_append rfl k, if_pos rfl, hsent, region_eq_take bv.buffer hle]
    show before ++ bv.buffer.content.take 0 ++ bv.buffer.content.take n
      = before ++ bv.buffer.content.take n
    rw [List.take_zero, List.append_nil]

theorem Consistent.onWrite (hinv : Consistent P adler32 s) {k : Nat}
    (h : step P adler32 s (.onWrite k) = some s') : Consistent P adler32 s' := by
  obtain ⟨call, bv, offset, length, n, ec, hcall, hbv, hstage, hcases⟩ := step_onWrite h
  have hlive : call.stage ≠ .done := by
    rw [hstage]
    exact nofun
  obtain ⟨hvalid, hok⟩ := hinv.slot_of hcall hlive hbv
  rw [hstage] at hok
  obtain ⟨rfl, rfl, -, hle, before, hframe, hsent⟩ := hok
  have hsplit : before ++ bv.buffer.content.take n ++ bv.buffer.content.drop n
      = frame P adler32 call.rpcMsg := by
    rw [List.append_assoc, List.take_append_drop, hframe]
  rcases hcases with ⟨-, rfl⟩ | ⟨-, b, hb, hpos, rfl⟩ | ⟨-, b, hb, hempty, rfl⟩
  · refine hinv.update hcall hlive rfl rfl rfl rfl (fun _ _ => rfl) ?_
      (.inl ⟨hvalid, nofun⟩)
    show Sender.transferred _ k <+: frame P adler32 call.rpcMsg
    rw [transferred_update, hsent]
    exact ⟨_, hsplit⟩
  · refine hinv.update hcall hlive rfl rfl rfl rfl (fun _ _ => rfl) ?_
      (.inl ⟨hvalid, nofun⟩)
    refine ⟨rfl, rfl, hpos, Nat.zero_le _, before ++ bv.buffer.content.take n, ?_, ?_⟩
    · rw [content_of_retrieve hb, hsplit]
    · rw [transferred_issue, hsent]
      exact (List.append_nil _).symm
  · refine hinv.update hcall hlive rfl rfl rfl rfl (fun _ _ => rfl) ?_
      (.inr ⟨rfl, rfl, ready_of_retrieve hb hempty⟩)
    have hall : bv.buffer.content.drop n = [] := by
      rw [← content_of_retrieve hb]
      exact List.eq_nil_of_length_eq_zero (by rw [Buffer.length_content, hempty])
    show Sender.transferred _ k = frame P adler32 call.rpcMsg
    rw [transferred_update, hsent, ← hsplit, hall, List.append_nil]
    rfl

/-- **EVERY STEP** keeps slots, calls and transferred bytes consistent. -/
theorem Consistent.step (hinv : Consistent P adler32 s) {a : Action M}
    (h : step P adler32 s a = some s') : Consistent P adler32 s' := by
  cases a with
  | select m => exact hinv.select h
  | fill k => exact hinv.fill h
  | transfer k n ec => exact hinv.transfer h
  | onWrite k => exact hinv.onWrite h

/-! ## The pool in every reachable state -/

/-- The states of the runs from a new codec, with nothing assumed of the
    order of the steps or of the result of a write. -/
def Reachable (P : Protobuf M) (adler32 : Bytes → UInt32) : Sender M → Prop :=
  Reaches (RpcCodecPool.step P adler32) (fun _ _ => True) Sender.new

theorem consistent_of_reachable (h : Reachable P adler32 s) : Consistent P adler32 s :=
  h.invariant (consistent_new P adler32) fun _ _ _ hinv _ hstep => hinv.step hstep

/-- The call an action belongs to; `select` opens a new one. -/
def Action.call : Action M → Option Nat
  | .select _ => none
  | .fill k => some k
  | .transfer k _ _ => some k
  | .onWrite k => some k

/-- A step keeps the message and the slot of every call, and changes the
    stage of its own call only. -/
theorem step_sends {a : Action M} (h : RpcCodecPool.step P adler32 s a = some s') {k : Nat}
    {call : Send M} (hcall : s.sends[k]? = some call) :
    ∃ call', s'.sends[k]? = some call' ∧ call'.rpcMsg = call.rpcMsg ∧ call'.slot = call.slot ∧
      (a.call ≠ some k → call' = call) := by
  have hset : ∀ (j : Nat) (old new : Send M), s.sends[j]? = some old →
      new.rpcMsg = old.rpcMsg → new.slot = old.slot →
      ∃ call', (s.sends.set j new)[k]? = some call' ∧ call'.rpcMsg = call.rpcMsg ∧
        call'.slot = call.slot ∧ (some j ≠ some k → call' = call) := by
    intro j old new hold hmsg hslot
    rcases getElem?_set_cases hold hcall new with ⟨rfl, rfl, hnew⟩ | ⟨-, hsame⟩
    · exact ⟨new, hnew, hmsg, hslot, fun hne => absurd rfl hne⟩
    · exact ⟨call, hsame, rfl, rfl, fun _ => rfl⟩
  cases a with
  | select m =>
      rw [← Option.some.inj h]
      exact ⟨call, getElem?_concat_iff.mpr (.inl hcall), rfl, rfl, fun _ => rfl⟩
  | fill j =>
      obtain ⟨old, bv, b, hold, -, -, -, rfl⟩ := step_fill h
      exact hset j old _ hold rfl rfl
  | transfer j n ec =>
      obtain ⟨old, bv, offset, length, hold, -, -, -, rfl⟩ := step_transfer h
      exact hset j old _ hold rfl rfl
  | onWrite j =>
      obtain ⟨old, bv, offset, length, n, ec, hold, -, -, hcases⟩ := step_onWrite h
      rcases hcases with ⟨-, rfl⟩ | ⟨-, b, -, -, rfl⟩ | ⟨-, b, -, -, rfl⟩
      · exact hset j old _ hold rfl rfl
      · exact hset j old _ hold rfl rfl
      · exact hset j old _ hold rfl rfl

/-- A step of another call leaves a slot in use alone. -/
theorem Consistent.step_others (hinv : Consistent P adler32 s) {a : Action M}
    (h : RpcCodecPool.step P adler32 s a = some s') {i k : Nat} {b : Buffer} {call : Send M}
    (hslot : s.outputBuffers[i]? = some ⟨false, b⟩) (hcall : s.sends[k]? = some call)
    (howns : call.slot = i) (hlive : call.stage ≠ .done) (hother : a.call ≠ some k) :
    s'.outputBuffers[i]? = some ⟨false, b⟩ := by
  have hset : ∀ (j : Nat) (callj : Send M) (bv : BufferValue), some j ≠ some k →
      s.sends[j]? = some callj → callj.stage ≠ .done →
      (s.outputBuffers.set callj.slot bv)[i]? = some ⟨false, b⟩ := by
    intro j callj bv hj hcallj hlivej
    rw [List.getElem?_set_ne, hslot]
    intro heq
    exact hj (congrArg some (hinv.unique j k callj call hcallj hcall (heq.trans howns.symm)
      hlivej hlive))
  cases a with
  | select m =>
      obtain ⟨b', htaken, hbefore, hothers⟩ := selectBuffer_spec s.outputBuffers
      rw [← Option.some.inj h]
      show (selectBuffer s.outputBuffers).1[i]? = some ⟨false, b⟩
      rw [hothers i, hslot]
      rintro rfl
      rcases hbefore with hget | ⟨hnone, -⟩
      · exact nomatch congrArg BufferValue.valid (Option.some.inj (hget.symm.trans hslot))
      · exact nomatch hnone.symm.trans hslot
  | fill j =>
      obtain ⟨callj, bv, b', hcallj, -, hstage, -, rfl⟩ := step_fill h
      exact hset j callj _ hother hcallj (by rw [hstage]; exact nofun)
  | transfer j n ec =>
      obtain ⟨callj, bv, offset, length, hcallj, -, hstage, -, rfl⟩ := step_transfer h
      exact hset j callj _ hother hcallj (by rw [hstage]; exact nofun)
  | onWrite j =>
      obtain ⟨callj, bv, offset, length, n, ec, hcallj, -, hstage, hcases⟩ := step_onWrite h
      have hlivej : callj.stage ≠ .done := by
        rw [hstage]
        exact nofun
      rcases hcases with ⟨-, rfl⟩ | ⟨-, b', -, -, rfl⟩ | ⟨-, b', -, -, rfl⟩
      · exact hset j callj _ hother hcallj hlivej
      · exact hset j callj _ hother hcallj hlivej
      · exact hset j callj _ hother hcallj hlivej

/-- What the pool promises in a state, and for the next step from it. -/
structure PoolOk (P : Protobuf M) (adler32 : Bytes → UInt32) (s : Sender M) : Prop where
  /-- A valid slot is empty, both indices at `kCheapPrepend`. -/
  valid_ready : ∀ (i : Nat) (b : Buffer), s.outputBuffers[i]? = some ⟨true, b⟩ →
    b.content = [] ∧ b.readerIndex = kCheapPrepend ∧ b.writerIndex = kCheapPrepend
  /-- No assert fails: filling succeeds, and so does every handler. -/
  fill_succeeds : ∀ (k : Nat) (call : Send M), s.sends[k]? = some call →
    call.stage = .filling → (RpcCodecPool.step P adler32 s (.fill k)).isSome
  onWrite_succeeds : ∀ (k offset length n : Nat) (ec : Bool) (call : Send M),
    s.sends[k]? = some call → call.stage = .writing offset length (some (n, ec)) →
    (RpcCodecPool.step P adler32 s (.onWrite k)).isSome
  /-- A slot in use has exactly one owner: a call that is filling it, has the
      write of its readable bytes outstanding, or failed to write. -/
  owned : ∀ (i : Nat) (b : Buffer), s.outputBuffers[i]? = some ⟨false, b⟩ →
    ∃ (k : Nat) (call : Send M), s.sends[k]? = some call ∧ call.slot = i ∧
      (call.stage = .filling ∨ call.stage = .failed ∨
        ∃ result, call.stage = .writing b.readerIndex b.readableBytes result) ∧
      (∀ (k' : Nat) (call' : Send M), s.sends[k']? = some call' → call'.slot = i →
        call'.stage ≠ .done → k' = k) ∧
      ∀ (a : Action M) (s' : Sender M), RpcCodecPool.step P adler32 s a = some s' →
        a.call ≠ some k → s'.outputBuffers[i]? = some ⟨false, b⟩
  /-- What was transferred for a call is a prefix of its frame. -/
  transferred_prefix : ∀ (k : Nat) (call : Send M), s.sends[k]? = some call →
    s.transferred k <+: frame P adler32 call.rpcMsg
  /-- A slot becomes valid again when the whole frame of its owner was. -/
  freed : ∀ (i k : Nat) (b b' : Buffer) (call : Send M) (a : Action M) (s' : Sender M),
    s.outputBuffers[i]? = some ⟨false, b⟩ → s.sends[k]? = some call → call.slot = i →
    call.stage ≠ .done → RpcCodecPool.step P adler32 s a = some s' →
    s'.outputBuffers[i]? = some ⟨true, b'⟩ → s'.transferred k = frame P adler32 call.rpcMsg

theorem StageOk.prefix_frame {m : M} {b : Buffer} {sent : Bytes} {stage : Stage}
    (h : StageOk P adler32 m b sent stage) : sent <+: frame P adler32 m := by
  cases stage with
  | filling =>
      rw [h.2]
      exact List.nil_prefix
  | writing offset length result =>
      obtain ⟨-, -, -, -, before, hframe, rfl⟩ := h
      rw [← hframe]
      exact (List.prefix_append_right_inj before).mpr (List.take_prefix _ _)
  | failed => exact h
  | done => exact ⟨[], (List.append_nil sent).trans h⟩

/-- **THE POOL INVARIANT** holds after every run of sends, transfers and
    handlers, in any order and with any result. -/
theorem pool_invariant (h : Reachable P adler32 s) : PoolOk P adler32 s := by
  have hinv := consistent_of_reachable h
  constructor
  · intro i b hget
    have hready := hinv.valid_ready i b hget
    exact ⟨hready.content_eq, hready⟩
  · intro k call hcall hstage
    have hlive : call.stage ≠ .done := by
      rw [hstage]
      exact nofun
    obtain ⟨b, hb, hok⟩ := hinv.live k call hcall hlive
    rw [hstage] at hok
    obtain ⟨b', hb', -⟩ := content_fillBuffer P adler32 hok.1 call.rpcMsg
    show (withCall s k _).isSome
    rw [withCall_of hcall hb, RpcCodecPool.fill, hstage, hb']
    rfl
  · intro k offset length n ec call hcall hstage
    have hlive : call.stage ≠ .done := by
      rw [hstage]
      exact nofun
    obtain ⟨b, hb, hok⟩ := hinv.live k call hcall hlive
    rw [hstage] at hok
    obtain ⟨-, rfl, -, hle, -⟩ := hok
    obtain ⟨b', hb', -⟩ := b.retrieve_of_le (show n ≤ b.readableBytes from hle)
    show (withCall s k _).isSome
    rw [withCall_of hcall hb, RpcCodecPool.onWrite, hstage]
    cases ec with
    | true => rfl
    | false =>
        simp only [Bool.false_eq_true, if_false]
        rw [hb']
        rfl
  · intro i b hget
    obtain ⟨k, call, hcall, hslot, hlive⟩ := hinv.owner i b hget
    refine ⟨k, call, hcall, hslot, ?_, ?_, ?_⟩
    · obtain ⟨b', hb', hok⟩ := hinv.live k call hcall hlive
      rw [hslot] at hb'
      obtain rfl : b = b' := congrArg BufferValue.buffer (Option.some.inj (hget.symm.trans hb'))
      cases hstage : call.stage with
      | filling => exact .inl rfl
      | writing offset length result =>
          rw [hstage] at hok
          obtain ⟨rfl, rfl, -⟩ := hok
          exact .inr (.inr ⟨result, rfl⟩)
      | failed => exact .inr (.inl rfl)
      | done => exact absurd hstage hlive
    · intro k' call' hcall' hslot' hlive'
      exact hinv.unique k' k call' call hcall' hcall (hslot'.trans hslot.symm) hlive' hlive
    · intro a s' hstep hother
      exact hinv.step_others hstep hget hcall hslot hlive hother
  · intro k call hcall
    by_cases hdone : call.stage = .done
    · exact ⟨[], (List.append_nil _).trans (hinv.finished k call hcall hdone)⟩
    · obtain ⟨b, -, hok⟩ := hinv.live k call hcall hdone
      exact hok.prefix_frame
  · intro i k b b' call a s' hget hcall hslot hlive hstep hfreed
    obtain ⟨call', hcall', hmsg, hslot', -⟩ := step_sends hstep hcall
    have hinv' := hinv.step hstep
    have hdone : call'.stage = .done := by
      by_contra hlive'
      obtain ⟨b'', hb'', -⟩ := hinv'.live k call' hcall' hlive'
      rw [hslot', hslot] at hb''
      exact nomatch congrArg BufferValue.valid (Option.some.inj (hfreed.symm.trans hb''))
    rw [← hmsg]
    exact hinv'.finished k call' hcall' hdone

end Steps

/-- Two empty messages, the first one's write short, the second one's
    failed, and the first one's slot used again. -/
def poolRun : List (Action RpcMessage) :=
  [.select .new, .select .new, .fill 1, .fill 0, .transfer 0 3 false, .onWrite 0,
    .transfer 1 5 true, .onWrite 1, .transfer 0 5 false, .onWrite 0, .select .new]

theorem pool_invariant_on_run :
    ∃ s, guardedRun (step rpcProto zlibAdler32) (fun _ _ => True) Sender.new poolRun = some s ∧
      s.outputBuffers.map BufferValue.valid = [false, false] ∧
      PoolOk rpcProto zlibAdler32 s := by
  have hrun : (guardedRun (step rpcProto zlibAdler32) (fun _ _ => True) Sender.new poolRun).map
      (fun s => s.outputBuffers.map BufferValue.valid) = some [false, false] := by decide +kernel
  obtain ⟨s, hs, hslots⟩ := Option.map_eq_some_iff.mp hrun
  exact ⟨s, hs, hslots, pool_invariant (reaches_of_guardedRun hs)⟩

end RpcCodecPool
