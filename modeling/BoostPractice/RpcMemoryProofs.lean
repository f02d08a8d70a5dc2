import Mathlib.Algebra.Order.BigOperators.Group.List
import Mathlib.Data.List.Induction
import BoostPractice.BufferDequeProofs
import BoostPractice.RpcCodecPoolProofs

/-! # How large the vectors of a connection get

    A `Buffer` never shrinks by itself, and `outputBuffers_` never loses a
    slot, so what a connection holds is set by the worst moment it has been
    through.  Counted is `buffer_.size()`; what a vector has reserved beyond
    that is up to the library.

    `pool_memory` says which moment that is for the sender: there are as many
    slots as there ever were unfinished messages at once, none of them larger
    than the largest frame.  `reader_memory` bounds the reader's buffer by the
    largest frame and what one read returns, over every stream of such
    frames, cut in any way. -/

namespace BoostBuffer

namespace Buffer

variable (b : Buffer)

/-! ## The size of the vector -/

theorem size_makeSpace (len : Nat) (h : b.writableBytes < len) :
    (b.makeSpace len h).data.length
      = if b.writableBytes + b.prependableBytes < len + kCheapPrepend then b.writerIndex + len
        else b.data.length := by
  rw [makeSpace]
  split
  · exact length_resize _ _
  · next hroom =>
      have hread := b.readerIndex_add_readableBytes
      have hwrite := b.writerIndex_add_writableBytes
      rw [prependableBytes] at hroom
      refine length_overwrite ?_
      rw [length_content]
      omega

/-- The vector grows to what is needed behind `writerIndex`, if at all. -/
theorem size_ensureWritableBytes (len : Nat) :
    (b.ensureWritableBytes len).data.length ≤ max b.data.length (b.writerIndex + len) := by
  rw [ensureWritableBytes]
  split
  · rw [size_makeSpace]
    split
    · exact Nat.le_max_right _ _
    · exact Nat.le_max_left _ _
  · exact Nat.le_max_left _ _

/-- It grows only when moving the readable bytes to the front would not do,
    so not beyond twice what is appended. -/
theorem size_ensureWritableBytes_twice (len : Nat) :
    (b.ensureWritableBytes len).data.length
      ≤ max b.data.length (2 * len + b.readableBytes + kCheapPrepend) := by
  rw [ensureWritableBytes]
  split
  · rw [size_makeSpace]
    split
    · next hroom =>
        have hread := b.readerIndex_add_readableBytes
        rw [prependableBytes] at hroom
        omega
    · exact Nat.le_max_left _ _
  · exact Nat.le_max_left _ _

theorem size_write (bs : Bytes) (h : bs.length ≤ b.writableBytes) :
    (b.write bs h).data.length = b.data.length := by
  have hwrite := b.writerIndex_add_writableBytes
  exact length_overwrite (by omega)

theorem size_append (bs : Bytes) :
    (b.append bs).data.length ≤ max b.data.length (b.writerIndex + bs.length) := by
  rw [append, size_write]
  exact b.size_ensureWritableBytes bs.length

theorem size_append_twice (bs : Bytes) :
    (b.append bs).data.length
      ≤ max b.data.length (2 * bs.length + b.readableBytes + kCheapPrepend) := by
  rw [append, size_write]
  exact b.size_ensureWritableBytes_twice bs.length

theorem size_retrieve {b b' : Buffer} {n : Nat} (h : b.retrieve n = some b') :
    b'.data.length = b.data.length := by
  rw [retrieve] at h
  split at h
  · split at h
    · rw [← Option.some.inj h]
    · rw [← Option.some.inj h]
      rfl
  · cases h

theorem size_prepend {b b' : Buffer} {bs : Bytes} (h : b.prepend bs = some b') :
    b'.data.length = b.data.length := by
  rw [prepend] at h
  split at h
  · next hle =>
      have hread := b.reader_le
      have hwrite := b.writer_le
      have hindex : bs.length ≤ b.readerIndex := hle
      rw [← Option.some.inj h]
      exact length_overwrite (by omega)
  · cases h

end Buffer

end BoostBuffer

/-! ## The sender's pool -/

namespace RpcCodecPool

open MachineInt BoostBuffer RpcMessages RpcCodecRead RpcCodecSend GuardedRun

variable {M : Type}

/-- Calls of `send_rpc_msg` whose frame is not out yet; one that failed never
    will be. -/
def Sender.inUse (s : Sender M) : Nat := s.sends.countP fun call => decide (call.stage ≠ .done)

/-- Slots that no call may take. -/
def Sender.taken (s : Sender M) : Nat := s.outputBuffers.countP fun bv => !bv.valid

/-- Selecting takes one slot more, a new one only if none is valid. -/
theorem selectBuffer_counts (bvs : List BufferValue) :
    (selectBuffer bvs).1.countP (fun bv => !bv.valid) = bvs.countP (fun bv => !bv.valid) + 1 ∧
      (selectBuffer bvs).1.length
        = max bvs.length (bvs.countP (fun bv => !bv.valid) + 1) := by
  induction bvs with
  | nil => exact ⟨rfl, rfl⟩
  | cons bv rest ih =>
      obtain ⟨hcount, hlength⟩ := ih
      have hle := List.countP_le_length (p := fun bv : BufferValue => !bv.valid) (l := rest)
      obtain ⟨valid, b⟩ := bv
      cases valid with
      | true =>
          refine ⟨?_, ?_⟩
          · simp [selectBuffer]
          · simp only [selectBuffer, if_true, List.length_cons, List.countP_cons]
            simp
            omega
      | false =>
          refine ⟨?_, ?_⟩
          · simp [selectBuffer, hcount]
          · simp only [selectBuffer, List.length_cons, List.countP_cons]
            simp [hlength]

section Counts

variable {s : Sender M} {k : Nat} {call : Send M} {bv : BufferValue}

/-- A call that goes on keeps its slot. -/
theorem counts_update (call' : Send M) (bv' : BufferValue) (hcall : s.sends[k]? = some call)
    (hbv : s.outputBuffers[call'.slot]? = some bv) (hvalid : bv'.valid = bv.valid)
    (hlive : call.stage ≠ .done) (hlive' : call'.stage ≠ .done) :
    (s.update k call' bv').inUse = s.inUse ∧ (s.update k call' bv').taken = s.taken := by
  have hsends := countP_set_add hcall call' fun call => decide (call.stage ≠ .done)
  have hslots := countP_set_add hbv bv' fun bv => !bv.valid
  rw [decide_eq_true hlive, decide_eq_true hlive'] at hsends
  rw [hvalid] at hslots
  exact ⟨Nat.add_right_cancel hsends, Nat.add_right_cancel hslots⟩

/-- A call that is done gives it back. -/
theorem counts_done (call' : Send M) (bv' : BufferValue) (hcall : s.sends[k]? = some call)
    (hbv : s.outputBuffers[call'.slot]? = some bv) (hvalid : bv.valid = false)
    (hvalid' : bv'.valid = true) (hlive : call.stage ≠ .done) (hdone : call'.stage = .done) :
    (s.update k call' bv').inUse + 1 = s.inUse ∧ (s.update k call' bv').taken + 1 = s.taken := by
  have hsends := countP_set_add hcall call' fun call => decide (call.stage ≠ .done)
  have hslots := countP_set_add hbv bv' fun bv => !bv.valid
  rw [decide_eq_true hlive, decide_eq_false (not_not_intro hdone)] at hsends
  rw [hvalid, hvalid'] at hslots
  exact ⟨hsends, hslots⟩

end Counts

section Steps

variable {P : Protobuf M} {adler32 : Bytes → UInt32} {s s' : Sender M}

/-- **THE SLOTS TAKEN** are the calls in use, and another slot is made only
    when there were never as many. -/
theorem counts_step (hinv : Consistent P adler32 s) (heq : s.taken = s.inUse) {a : Action M}
    (h : step P adler32 s a = some s') :
    s'.taken = s'.inUse ∧ s'.outputBuffers.length = max s.outputBuffers.length s'.inUse := by
  have hle : s.taken ≤ s.outputBuffers.length := List.countP_le_length
  -- a step that keeps the slots and takes no more of them
  have hkept : s'.taken = s'.inUse → s'.outputBuffers.length = s.outputBuffers.length →
      s'.inUse ≤ s.inUse →
      s'.taken = s'.inUse ∧ s'.outputBuffers.length = max s.outputBuffers.length s'.inUse :=
    fun htaken hlength hless => ⟨htaken, by omega⟩
  cases a with
  | select m =>
      obtain ⟨hcount, hlength⟩ := selectBuffer_counts s.outputBuffers
      rw [← Option.some.inj h]
      have hone : (s.sends ++ [(⟨m, (selectBuffer s.outputBuffers).2, .filling⟩ : Send M)]).countP
          (fun call => decide (call.stage ≠ .done)) = s.inUse + 1 := by
        rw [List.countP_append, Sender.inUse]
        rfl
      refine ⟨?_, ?_⟩
      · show (selectBuffer s.outputBuffers).1.countP _ = List.countP _ (s.sends ++ _)
        rw [hcount, hone, ← heq]
        rfl
      · show (selectBuffer s.outputBuffers).1.length = max _ (List.countP _ (s.sends ++ _))
        rw [hlength, hone, ← heq]
        rfl
  | fill k =>
      obtain ⟨call, bv, b, hcall, hbv, hstage, -, hs'⟩ := step_fill h
      rw [hs'] at hkept ⊢
      obtain ⟨huse, htaken⟩ := counts_update
          { call with stage := .writing b.readerIndex b.readableBytes none } { bv with buffer := b }
          hcall hbv rfl (hstage ▸ nofun) nofun
      exact hkept (htaken.trans (heq.trans huse.symm)) List.length_set (Nat.le_of_eq huse)
  | transfer k n ec =>
      obtain ⟨call, bv, offset, length, hcall, hbv, hstage, -, hs'⟩ := step_transfer h
      rw [hs'] at hkept ⊢
      obtain ⟨huse, htaken⟩ := counts_update
          { call with stage := .writing offset length (some (n, ec)) } bv
          hcall hbv rfl (hstage ▸ nofun) nofun
      exact hkept (htaken.trans (heq.trans huse.symm)) List.length_set (Nat.le_of_eq huse)
  | onWrite k =>
      obtain ⟨call, bv, offset, length, n, ec, hcall, hbv, hstage, hcases⟩ := step_onWrite h
      have hlive : call.stage ≠ .done := hstage ▸ nofun
      rcases hcases with ⟨-, hs'⟩ | ⟨-, b, -, -, hs'⟩ | ⟨-, b, -, -, hs'⟩
      · rw [hs'] at hkept ⊢
        obtain ⟨huse, htaken⟩ := counts_update { call with stage := .failed } bv
          hcall hbv rfl hlive nofun
        exact hkept (htaken.trans (heq.trans huse.symm)) List.length_set (Nat.le_of_eq huse)
      · rw [hs'] at hkept ⊢
        obtain ⟨huse, htaken⟩ := counts_update
          { call with stage := .writing b.readerIndex b.readableBytes none } { bv with buffer := b }
          hcall hbv rfl hlive nofun
        exact hkept (htaken.trans (heq.trans huse.symm)) List.length_set (Nat.le_of_eq huse)
      · rw [hs'] at hkept ⊢
        -- the slot of a call that is not done is not valid
        have hvalid : bv.valid = false := by
          obtain ⟨b', hb', -⟩ := hinv.live k call hcall hlive
          exact congrArg BufferValue.valid (Option.some.inj (hbv.symm.trans hb'))
        obtain ⟨huse, htaken⟩ := counts_done { call with stage := .done } ⟨true, b⟩
          hcall hbv hvalid rfl hlive rfl
        exact hkept (by omega) List.length_set (by omega)

/-- An empty buffer is not moved by an append. -/
theorem readerIndex_append {b : Buffer} (hready : Ready b) (bs : Bytes) :
    (b.append bs).readerIndex = kCheapPrepend := by
  show (b.ensureWritableBytes bs.length).readerIndex = kCheapPrepend
  rw [Buffer.ensureWritableBytes]
  split
  · rw [Buffer.makeSpace]
    split
    · exact hready.1
    · rfl
  · exact hready.1

/-- A frame is built in the room there is, or makes the room it needs. -/
theorem size_fillBuffer {b b' : Buffer} {m : M} (hready : Ready b)
    (h : fillBuffer P adler32 b m = some b') :
    b'.data.length ≤ max b.data.length ((frame P adler32 m).length + 4) := by
  have hframe : (frame P adler32 m).length = (P.serialize m).length + 8 := by
    rw [frame, List.length_append, List.length_append, length_int32Bytes, length_int32Bytes]
    omega
  let b₁ := b.append (P.serialize m)
  let checksum := (adler32 (b₁.content.take (toUInt32 b₁.readableBytes))).toInt32
  have hsize : b'.data.length = (b₁.appendInt32 checksum).data.length := Buffer.size_prepend h
  have hpayload : b₁.data.length ≤ _ := b.size_append (P.serialize m)
  have hchecksum : (b₁.appendInt32 checksum).data.length ≤ _ :=
    b₁.size_append (int32Bytes checksum)
  have hwriter : b₁.writerIndex = kCheapPrepend + (P.serialize m).length := by
    rw [← b₁.readerIndex_add_readableBytes, ← b₁.length_content, readerIndex_append hready,
      Buffer.content_append, hready.content_eq, List.nil_append]
  rw [hwriter, length_int32Bytes] at hchecksum
  rw [hready.2] at hpayload
  have hprepend : kCheapPrepend = 8 := rfl
  omega

/-- Room for the largest frame, or what a new buffer has. -/
def slotSize (F : Nat) : Nat := max (kCheapPrepend + kInitialSize) (F + 4)

/-- No slot is larger. -/
def SlotsBounded (F : Nat) (s : Sender M) : Prop :=
  ∀ (i : Nat) (bv : BufferValue), s.outputBuffers[i]? = some bv →
    bv.buffer.data.length ≤ slotSize F

/-- Every frame to be built is at most that long. -/
def FramesBounded (P : Protobuf M) (adler32 : Bytes → UInt32) (F : Nat) (s : Sender M) : Prop :=
  ∀ (k : Nat) (call : Send M), s.sends[k]? = some call → (frame P adler32 call.rpcMsg).length ≤ F

theorem SlotsBounded.set {F : Nat} (hslots : SlotsBounded F s) {slot : Nat} {bv' : BufferValue}
    (hbuffers : s'.outputBuffers = s.outputBuffers.set slot bv')
    (hsize : bv'.buffer.data.length ≤ slotSize F) : SlotsBounded F s' := by
  intro i bv hget
  rw [hbuffers] at hget
  rcases getElem?_of_set hget with ⟨-, rfl⟩ | ⟨-, hold⟩
  · exact hsize
  · exact hslots i bv hold

theorem slotsBounded_step {F : Nat} (hinv : Consistent P adler32 s)
    (hframes : FramesBounded P adler32 F s) (hslots : SlotsBounded F s) {a : Action M}
    (h : step P adler32 s a = some s') : SlotsBounded F s' := by
  cases a with
  | select m =>
      obtain ⟨b, htaken, hbefore, hothers⟩ := selectBuffer_spec s.outputBuffers
      rw [← Option.some.inj h]
      intro i bv hget
      by_cases hi : i = (selectBuffer s.outputBuffers).2
      · obtain rfl : ⟨false, b⟩ = bv := by
          rw [hi] at hget
          exact Option.some.inj (htaken.symm.trans hget)
        rcases hbefore with hold | ⟨-, rfl⟩
        · exact hslots _ ⟨true, b⟩ hold
        · exact Nat.le_trans (Nat.le_of_eq List.length_replicate) (Nat.le_max_left _ _)
      · exact hslots i bv ((hothers i hi).symm.trans hget)
  | fill k =>
      obtain ⟨call, bv, b, hcall, hbv, hstage, hfill, hs'⟩ := step_fill h
      obtain ⟨b', hb', hok⟩ := hinv.live k call hcall (hstage ▸ nofun)
      rw [hstage] at hok
      obtain rfl : bv = ⟨false, b'⟩ := Option.some.inj (hbv.symm.trans hb')
      rw [hs']
      refine hslots.set rfl ?_
      have hsize := size_fillBuffer hok.1 hfill
      have hold : b'.data.length ≤ slotSize F := hslots _ _ hbv
      have hframe := hframes k call hcall
      rw [slotSize] at hold ⊢
      show b.data.length ≤ _
      omega
  | transfer k n ec =>
      obtain ⟨call, bv, offset, length, hcall, hbv, -, -, hs'⟩ := step_transfer h
      rw [hs']
      exact hslots.set rfl (hslots _ _ hbv)
  | onWrite k =>
      obtain ⟨call, bv, offset, length, n, ec, hcall, hbv, -, hcases⟩ := step_onWrite h
      rcases hcases with ⟨-, hs'⟩ | ⟨-, b, hb, -, hs'⟩ | ⟨-, b, hb, -, hs'⟩
      · rw [hs']
        exact hslots.set rfl (hslots _ _ hbv)
      · rw [hs']
        exact hslots.set rfl ((Buffer.size_retrieve hb).trans_le (hslots _ _ hbv))
      · rw [hs']
        exact hslots.set rfl ((Buffer.size_retrieve hb).trans_le (hslots _ _ hbv))

/-- What was to be built before is still counted. -/
theorem framesBounded_of_step {F : Nat} {a : Action M} (h : step P adler32 s a = some s')
    (hframes : FramesBounded P adler32 F s') : FramesBounded P adler32 F s := by
  intro k call hcall
  obtain ⟨call', hcall', hmsg, -⟩ := step_sends h hcall
  rw [← hmsg]
  exact hframes k call' hcall'

theorem slotsBounded_of_reachable {F : Nat} (h : Reachable P adler32 s)
    (hframes : FramesBounded P adler32 F s) : SlotsBounded F s := by
  refine h.invariant_over (J := Consistent P adler32)
    (I := fun s => FramesBounded P adler32 F s → SlotsBounded F s)
    (fun _ => consistent_of_reachable) ?_ ?_ hframes
  · rintro - (_ | i) bv hget
    · rw [← Option.some.inj hget]
      exact Nat.le_trans (Nat.le_of_eq List.length_replicate) (Nat.le_max_left _ _)
    · exact nomatch hget
  · intro t a t' hinv ih _ hstep hframes'
    have hframes := framesBounded_of_step hstep hframes'
    exact slotsBounded_step hinv hframes (ih hframes) hstep

/-- The most calls that were in use at once. -/
def notePeak (peak : Nat) (_ : Sender M) (_ : Action M) (s' : Sender M) : Nat := max peak s'.inUse

/-- The runs of the sender, and their peak. -/
def Watched (P : Protobuf M) (adler32 : Bytes → UInt32) (s : Sender M) (peak : Nat) : Prop :=
  Reaches (traced (step P adler32) notePeak) (fun _ _ => True) (Sender.new, 0) (s, peak)

theorem reachable_of_watched {peak : Nat} (h : Watched P adler32 s peak) :
    Reachable P adler32 s :=
  reaches_of_traced (C := fun _ _ => True) h

theorem slots_of_watched {peak : Nat} (h : Watched P adler32 s peak) :
    s.taken = s.inUse ∧ s.outputBuffers.length = max 1 peak := by
  have hknown : ∀ w, Reaches (traced (step P adler32) notePeak) (fun _ _ => True)
      (Sender.new, 0) w → Consistent P adler32 w.1 :=
    fun _ hw => consistent_of_reachable (reaches_of_traced (C := fun _ _ => True) hw)
  refine h.invariant_over (J := fun w => Consistent P adler32 w.1)
    (I := fun w => w.1.taken = w.1.inUse ∧ w.1.outputBuffers.length = max 1 w.2)
    hknown ⟨rfl, rfl⟩ ?_
  rintro ⟨t, q⟩ a ⟨t', q'⟩ hinv ⟨heq, hlength⟩ - hstep
  obtain ⟨htaken, rfl⟩ := traced_some hstep
  obtain ⟨heq', hlength'⟩ := counts_step hinv heq htaken
  refine ⟨heq', ?_⟩
  show t'.outputBuffers.length = max 1 (max q t'.inUse)
  rw [hlength', hlength, Nat.max_assoc]

/-- **THE POOL'S MEMORY**: there are as many slots as there ever were calls
    in use at once, and together they are no larger than that many frames. -/
theorem pool_memory {peak F : Nat} (h : Watched P adler32 s peak)
    (hframes : FramesBounded P adler32 F s) :
    s.outputBuffers.length = max 1 peak ∧
      (s.outputBuffers.map fun bv => bv.buffer.data.length).sum ≤ max 1 peak * slotSize F := by
  have hlength := (slots_of_watched h).2
  have hslots := slotsBounded_of_reachable (reachable_of_watched h) hframes
  refine ⟨hlength, ?_⟩
  rw [← hlength]
  have hsum := List.sum_le_card_nsmul (s.outputBuffers.map fun bv => bv.buffer.data.length)
    (slotSize F) ?_
  · rw [List.length_map] at hsum
    exact hsum
  · intro n hn
    obtain ⟨bv, hbv, rfl⟩ := List.mem_map.mp hn
    obtain ⟨i, hi⟩ := List.mem_iff_getElem?.mp hbv
    exact hslots i bv hi

end Steps

/-- The run of two empty messages: at most two calls at once, and two slots. -/
theorem pool_memory_on_run :
    ∃ s, Watched rpcProto zlibAdler32 s 2 ∧ s.outputBuffers.length = 2 ∧
      (s.outputBuffers.map fun bv => bv.buffer.data.length).sum ≤ 2 * slotSize 8 := by
  have hrun : (guardedRun (traced (step rpcProto zlibAdler32) notePeak) (fun _ _ => True)
      (Sender.new, 0) poolRun).map
      (fun w => (w.2, w.1.sends.map fun call => (rpcProto.serialize call.rpcMsg).length))
        = some (2, [0, 0, 0]) := by
    decide +kernel
  obtain ⟨⟨s, peak⟩, hs, heq⟩ := Option.map_eq_some_iff.mp hrun
  obtain ⟨rfl, hlengths⟩ := Prod.mk.inj heq
  have hwatched : Watched rpcProto zlibAdler32 s 2 := reaches_of_guardedRun hs
  have hframes : FramesBounded rpcProto zlibAdler32 8 s := by
    intro k call hcall
    have hmem : (rpcProto.serialize call.rpcMsg).length ∈ [0, 0, 0] := by
      rw [← hlengths]
      exact List.mem_map_of_mem (List.mem_of_getElem? hcall)
    rw [frame, List.length_append, List.length_append, length_int32Bytes, length_int32Bytes]
    simp only [List.mem_cons, List.not_mem_nil, or_false, or_self] at hmem
    omega
  exact ⟨s, hwatched, pool_memory hwatched hframes⟩

end RpcCodecPool

/-! ## The reader's buffer -/

namespace RpcCodecRead

open MachineInt FrameDecoding BoostBuffer RpcMessages

/-- Each length field reached at a frame head is at least 4, and that of a
    frame of at most `F` bytes. -/
inductive HeadsAtMost (F : Nat) : Bytes → Prop where
  | short {s : Bytes} : s.length < 4 → HeadsAtMost F s
  | incomplete {s : Bytes} (n : Nat) : (lengthField s).toInt = n → 4 ≤ n → 4 + n ≤ F →
      s.length < 4 + n → HeadsAtMost F s
  | frame {s : Bytes} (n : Nat) : (lengthField s).toInt = n → 4 ≤ n → 4 + n ≤ F →
      4 + n ≤ s.length → HeadsAtMost F (s.drop (4 + n)) → HeadsAtMost F s

/-- The room for a read behind a frame that is not whole yet, or what a new
    buffer has. -/
def readerSize (F N : Nat) : Nat :=
  max (kCheapPrepend + kInitialSize) (2 * N + F + kCheapPrepend)

section Heads

variable {F : Nat}

theorem HeadsAtMost.lengthsOk {s : Bytes} (h : HeadsAtMost F s) : HeadLengthsOk s := by
  induction h with
  | short hshort => exact .short hshort
  | incomplete n hlen hn _ hless => exact .incomplete (by omega) (by omega)
  | frame n hlen hn _ hle _ ih => exact .frame n hlen hn hle ih

/-- What has arrived of a stream has such heads too. -/
theorem HeadsAtMost.of_append {s t : Bytes} (h : HeadsAtMost F (s ++ t)) : HeadsAtMost F s := by
  generalize hall : s ++ t = all at h
  induction h generalizing s with
  | short hshort =>
      rw [← hall, List.length_append] at hshort
      exact .short (by omega)
  | incomplete n hlen hn hF hless =>
      rcases Nat.lt_or_ge s.length 4 with hshort | hhead
      · exact .short hshort
      · rw [← hall, lengthField_append hhead] at hlen
        rw [← hall, List.length_append] at hless
        exact .incomplete n hlen hn hF (by omega)
  | frame n hlen hn hF hle _ ih =>
      rcases Nat.lt_or_ge s.length 4 with hshort | hhead
      · exact .short hshort
      · rw [← hall, lengthField_append hhead] at hlen
        rcases Nat.lt_or_ge s.length (4 + n) with hless | hwhole
        · exact .incomplete n hlen hn hF hless
        · refine .frame n hlen hn hF hwhole (ih ?_)
          rw [← hall, List.drop_append_of_le_length hwhole]

/-- What is left behind whole frames is less than one. -/
theorem HeadsAtMost.tail_le {M : Type} (P : Protobuf M) (adler32 : Bytes → UInt32) {s : Bytes}
    (h : HeadsAtMost F s) (hF : 8 ≤ F) {tail : Bytes}
    (htail : ((reference P adler32).decode s).2 = some tail) : tail.length ≤ F := by
  induction h with
  | @short s hshort =>
      have hmore : referenceNext P adler32 s = .more := if_pos hshort
      rw [Grammar.decode_more _ hmore] at htail
      obtain rfl := Option.some.inj htail
      omega
  | @incomplete s n hlen hn hfits hless =>
      have hmore : referenceNext P adler32 s = .more := by
        rcases referenceNext_cases P adler32 s with ⟨h', -⟩ | ⟨-, -, h'⟩ | ⟨m, hm, -, hle, -⟩
        · exact h'
        · omega
        · omega
      rw [Grammar.decode_more _ hmore] at htail
      obtain rfl := Option.some.inj htail
      omega
  | frame n hlen hn _ hle _ ih =>
      rw [Grammar.decode_frame _ (referenceNext_frame P adler32 hlen hn hle)] at htail
      exact ih htail

end Heads

section Reader

variable {M : Type} {P : Protobuf M} {adler32 : Bytes → UInt32}

theorem ok_of_bind {E A B : Type} {x : Except E A} {f : A → Except E B} {y : B}
    (h : x >>= f = .ok y) : ∃ a, x = .ok a ∧ f a = .ok y := by
  cases x with
  | error e => cases h
  | ok a => exact ⟨a, rfl, h⟩

theorem size_retrieve {b b' : Buffer} {n : Nat} {meant : Int}
    (h : RpcCodecRead.retrieve b n meant = .ok b') : b'.data.length = b.data.length := by
  rw [RpcCodecRead.retrieve] at h
  split at h
  · split at h
    · next b₁ hb₁ =>
        rw [← Except.ok.inj h]
        exact Buffer.size_retrieve hb₁
    · cases h
  · cases h

/-- The body of the loop leaves the vector as long as it is. -/
theorem size_onReadStep {b b' : Buffer} {callback : RpcCallback M}
    (h : onReadStep P adler32 b = .ok (some (callback, b'))) :
    b'.data.length = b.data.length := by
  rw [onReadStep] at h
  split at h
  · obtain ⟨len, -, h⟩ := ok_of_bind h
    split at h
    · obtain ⟨b₁, hb₁, h⟩ := ok_of_bind h
      obtain ⟨callback', -, h⟩ := ok_of_bind h
      obtain ⟨b₂, hb₂, h⟩ := ok_of_bind h
      obtain ⟨-, rfl⟩ := Prod.mk.inj (Option.some.inj (Except.ok.inj h))
      rw [size_retrieve hb₂, size_retrieve hb₁]
    · cases Except.ok.inj h
  · cases Except.ok.inj h

theorem size_loopN (n : Nat) :
    ∀ {b b' : Buffer}, (loopN (onReadStep P adler32) n b).2 = .ok b' →
      b'.data.length = b.data.length := by
  induction n with
  | zero =>
      intro b b' h
      rw [Except.ok.inj h]
  | succ n ih =>
      intro b b' h
      rw [loopN] at h
      split at h
      · cases h
      · rw [Except.ok.inj h]
      · next callback b₁ hbody => rw [ih h, size_onReadStep hbody]

/-- Only the append at the beginning of `on_read` may make it longer. -/
theorem size_onRead {b b' : Buffer} {bytes : Bytes}
    (h : (onRead P adler32 b bytes).2 = .ok b') :
    b'.data.length
      ≤ max b.data.length (2 * bytes.length + b.readableBytes + kCheapPrepend) := by
  rw [size_loopN _ h]
  exact b.size_append_twice bytes

/-- **THE READER'S BUFFER**: over every stream of frames of at most `F` bytes,
    whatever is in them, read in pieces of at most `N` bytes, `inputBuffer_`
    holds less than a frame between two reads, and its vector never gets
    longer than the largest frame and two reads. -/
theorem reader_memory {F N : Nat} (hF : 8 ≤ F) {chunks : List Bytes}
    (hheads : HeadsAtMost F chunks.flatten) (hreads : ∀ chunk ∈ chunks, chunk.length ≤ N) :
    ∃ b, (feed (onRead P adler32) inputBuffer chunks).2 = .ok b ∧ b.readableBytes ≤ F ∧
      b.data.length ≤ readerSize F N := by
  induction chunks using List.reverseRecOn with
  | nil =>
      refine ⟨inputBuffer, rfl, Nat.zero_le _, ?_⟩
      show (List.replicate (kCheapPrepend + kInitialSize) (0 : UInt8)).length ≤ _
      rw [List.length_replicate]
      exact Nat.le_max_left _ _
  | append_singleton chunks chunk ih =>
      have hbefore : HeadsAtMost F chunks.flatten := by
        rw [List.flatten_append] at hheads
        exact hheads.of_append
      obtain ⟨b, hb, hread, hsize⟩ := ih hbefore fun c hc =>
        hreads c (List.mem_append_left _ hc)
      obtain ⟨b', hfeed, htail⟩ := onRead_refines_reference P adler32 (chunks ++ [chunk])
        hheads.lengthsOk _ (List.prefix_refl _)
      have hlast : (onRead P adler32 b chunk).2 = .ok b' := by
        have hbuffered : feed (onRead P adler32) inputBuffer chunks
            = ((feed (onRead P adler32) inputBuffer chunks).1, .ok b) := by
          rw [← hb]
        have hconcat := feed_concat (onRead P adler32) hbuffered chunk
        exact (congrArg Prod.snd hconcat).symm.trans (congrArg Prod.snd hfeed)
      refine ⟨b', congrArg Prod.snd hfeed, ?_, ?_⟩
      · rw [← Buffer.length_content]
        exact hheads.tail_le P adler32 hF htail
      · have hgrow := size_onRead hlast
        have hchunk := hreads chunk (List.mem_append_right _ List.mem_cons_self)
        rw [readerSize] at hsize ⊢
        omega

end Reader

/-- Two frames of ten bytes and the head of a third, in pieces of seven. -/
theorem reader_memory_on_pieces :
    ∃ b, (feed (onRead rpcProto zlibAdler32) inputBuffer
        [[0, 0, 0, 6, 8, 1, 0], [0, 0, 0, 0, 0, 0, 6], [8, 1, 0, 0, 0, 0, 0]]).2 = .ok b ∧
      b.readableBytes ≤ 10 ∧ b.data.length ≤ readerSize 10 7 :=
  reader_memory (by decide)
    (.frame 6 (by decide) (by decide) (by decide) (by decide)
      (.frame 6 (by decide) (by decide) (by decide) (by decide) (.short (by decide))))
    (by decide)

end RpcCodecRead
