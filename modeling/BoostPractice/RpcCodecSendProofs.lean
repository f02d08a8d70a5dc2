import BoostPractice.RpcCodecReadProofs

/-! # `rpc_codec::send_rpc_msg` — building a frame

    `send_rpc_msg` serializes a message into an output buffer, appends the
    checksum of what was serialized and prepends the length.  `fillBuffer`
    follows it on the buffer; `content_fillBuffer` says which bytes come out:
    the same for every empty buffer, whatever was sent through it before.

    The result of this file is the ROUND TRIP of the two halves of the
    codec, `frames_round_trip`. -/

namespace RpcCodecSend

open MachineInt FrameDecoding BoostBuffer RpcMessages RpcCodecRead

section Frame

variable {M : Type} (P : Protobuf M) (adler32 : Bytes → UInt32)

/-- `ByteSize()`. -/
def byteSize (m : M) : Int32 := Int32.ofNat (P.serialize m).length

/-- The part of `send_rpc_msg` after the slot is selected and before the
    write is issued; nothing if the prepend does not fit. -/
def fillBuffer (outputBuffer : Buffer) (rpcMsg : M) : Option Buffer :=
  let len := byteSize P rpcMsg
  -- ensureWritableBytes, SerializeWithCachedSizesToArray to beginWrite() and hasWritten
  let b := outputBuffer.append (P.serialize rpcMsg)
  let checksum : Int32 := (adler32 (b.content.take (toUInt32 b.readableBytes))).toInt32
  let b := b.appendInt32 checksum
  b.prependInt32 (Int32.ofInt (toSizeT (len.toInt + 4)))

/-- The frame of a message: length, payload, checksum. -/
def frame (m : M) : Bytes :=
  let payload := P.serialize m
  int32Bytes (Int32.ofInt (toSizeT ((byteSize P m).toInt + 4))) ++ payload ++
    int32Bytes (adler32 (payload.take (toUInt32 payload.length))).toInt32

end Frame

/-- A buffer as `retrieveAll` and the constructor leave it: both indices at
    `kCheapPrepend`. -/
def Ready (b : Buffer) : Prop := b.readerIndex = kCheapPrepend ∧ b.writerIndex = kCheapPrepend

instance (b : Buffer) : Decidable (Ready b) := inferInstanceAs (Decidable (_ ∧ _))

theorem ready_new (n : Nat) : Ready (Buffer.new n) := ⟨rfl, rfl⟩

theorem Ready.content_eq {b : Buffer} (h : Ready b) : b.content = [] := by
  apply List.eq_nil_of_length_eq_zero
  rw [b.length_content, Buffer.readableBytes, h.1, h.2, Nat.sub_self]

/-- Appending never takes the reader below `kCheapPrepend`. -/
theorem le_readerIndex_append {b : Buffer} (h : kCheapPrepend ≤ b.readerIndex) (bs : Bytes) :
    kCheapPrepend ≤ (b.append bs).readerIndex := by
  show kCheapPrepend ≤ (b.ensureWritableBytes bs.length).readerIndex
  rw [Buffer.ensureWritableBytes]
  split
  · rw [Buffer.makeSpace]
    split
    · exact h
    · exact Nat.le_refl _
  · exact h

section Frame

variable {M : Type} (P : Protobuf M) (adler32 : Bytes → UInt32)

/-- **FILLING** an empty buffer always succeeds, and leaves exactly the frame
    of the message. -/
theorem content_fillBuffer {b : Buffer} (hready : Ready b) (m : M) :
    ∃ b', fillBuffer P adler32 b m = some b' ∧ b'.content = frame P adler32 m := by
  have hpayload : (b.append (P.serialize m)).content = P.serialize m := by
    rw [Buffer.content_append, hready.content_eq, List.nil_append]
  have hread : (b.append (P.serialize m)).readableBytes = (P.serialize m).length := by
    rw [← Buffer.length_content, hpayload]
  have hroom := le_readerIndex_append (Nat.le_of_eq hready.1.symm) (P.serialize m)
  let checksum := (adler32 ((P.serialize m).take (toUInt32 (P.serialize m).length))).toInt32
  let len := Int32.ofInt (toSizeT ((byteSize P m).toInt + 4))
  have hprep : (int32Bytes len).length
      ≤ ((b.append (P.serialize m)).appendInt32 checksum).prependableBytes := by
    have := le_readerIndex_append hroom (int32Bytes checksum)
    rw [length_int32Bytes]
    exact Nat.le_trans (by decide) this
  obtain ⟨b', hb', hcontent⟩ := Buffer.prepend_of_le _ hprep
  refine ⟨b', ?_, ?_⟩
  · rw [fillBuffer, hpayload, hread]
    exact hb'
  · rw [hcontent, Buffer.content_appendInt32, hpayload, ← List.append_assoc]
    rfl

/-- A byte string that `send_rpc_msg` built for a message in some empty
    output buffer. -/
def BuiltFrame (m : M) (bs : Bytes) : Prop :=
  ∃ b b', Ready b ∧ fillBuffer P adler32 b m = some b' ∧ b'.content = bs

theorem builtFrame_iff (m : M) (bs : Bytes) :
    BuiltFrame P adler32 m bs ↔ bs = frame P adler32 m := by
  constructor
  · rintro ⟨b, b', hready, hfill, rfl⟩
    obtain ⟨b'', hfill', hcontent⟩ := content_fillBuffer P adler32 hready m
    rw [← hcontent, ← Option.some.inj (hfill.symm.trans hfill')]
  · rintro rfl
    obtain ⟨b', hfill, hcontent⟩ := content_fillBuffer P adler32 (ready_new kInitialSize) m
    exact ⟨_, b', ready_new _, hfill, hcontent⟩

theorem builtFrames_eq {msgs : List M} {frames : List Bytes}
    (h : List.Forall₂ (BuiltFrame P adler32) msgs frames) :
    frames = msgs.map (frame P adler32) := by
  induction h with
  | nil => rfl
  | @cons m bs msgs frames hbuilt _ ih =>
      rw [(builtFrame_iff P adler32 m bs).mp hbuilt, ih]
      rfl

/-! ## Decoding what was built -/

/-- Up to `2 ^ 31 - 5` bytes the length field counts payload and checksum. -/
theorem frame_of_size {m : M} (h : (P.serialize m).length ≤ 2 ^ 31 - 5) :
    ∃ len : Int32, len.toInt = ((P.serialize m).length + 4 : Nat) ∧
      frame P adler32 m
        = int32Bytes len ++ P.serialize m ++ int32Bytes (adler32 (P.serialize m)).toInt32 := by
  have hsize : (byteSize P m).toInt = (P.serialize m).length := by
    rw [byteSize, Int32.toInt_ofNat_of_lt (by omega)]
  have hlen : (toSizeT ((byteSize P m).toInt + 4) : Int) = ((P.serialize m).length + 4 : Nat) := by
    rw [hsize, toSizeT_of_nonneg (by omega) (by omega)]
    omega
  have hcover : toUInt32 (P.serialize m).length = (P.serialize m).length := by
    have := toUInt32_of_nonneg (n := (P.serialize m).length) (by omega) (by omega)
    omega
  refine ⟨Int32.ofInt (toSizeT ((byteSize P m).toInt + 4)), ?_, ?_⟩
  · rw [hlen, Int32.toInt_ofInt_of_le (by omega) (by omega)]
  · simp only [frame, hcover, List.take_length]

/-- A frame whose length field counts its payload and its checksum, whatever
    they are and whatever follows the frame. -/
theorem loopNext_whole {payload sum : Bytes} {len : Int32}
    (hlen : len.toInt = (payload.length + 4 : Nat)) (hsum : sum.length = 4) (t : Bytes) :
    loopNext P adler32 (int32Bytes len ++ payload ++ sum ++ t)
      = .frame (referenceCallback P adler32 payload sum) t := by
  rw [List.append_assoc (int32Bytes len)]
  obtain ⟨f, hf⟩ : ∃ f, f = int32Bytes len ++ (payload ++ sum) := ⟨_, rfl⟩
  rw [← hf]
  have hlength : f.length = 4 + (payload.length + 4) := by
    rw [hf, List.length_append, List.length_append, length_int32Bytes, hsum]
  have hfield : lengthField f = len := by
    rw [lengthField, hf, List.take_left' (length_int32Bytes len), int32Of_int32Bytes]
  have hbody : f.drop 4 = payload ++ sum := by
    rw [hf, List.drop_left' (length_int32Bytes len)]
  have hcallback : referenceFrame P adler32 f (payload.length + 4)
      = referenceCallback P adler32 payload sum := by
    have hall : (payload ++ sum).take (payload.length + 4) = payload ++ sum :=
      List.take_of_length_le (by rw [List.length_append, hsum])
    rw [referenceFrame, hbody, hall, Nat.add_sub_cancel, List.take_left, List.drop_left]
  have hn : 4 ≤ payload.length + 4 := Nat.le_add_left _ _
  have hlen' : (lengthField f).toInt = (payload.length + 4 : Nat) := by
    rw [hfield, hlen]
  have hnext := referenceNext_frame P adler32 hlen' hn (Nat.le_of_eq hlength.symm)
  rw [hcallback, ← hlength, List.drop_length] at hnext
  rw [loopNext_append P adler32 hlen' hn (Nat.le_of_eq hlength.symm)]
  exact Grammar.frame_append (reference P adler32) (s := f) hnext t

/-- With the right checksum it is a message, the one that parsing leaves. -/
theorem loopNext_payload {payload : Bytes} {len : Int32}
    (hlen : len.toInt = (payload.length + 4 : Nat)) (t : Bytes) :
    loopNext P adler32 (int32Bytes len ++ payload ++ int32Bytes (adler32 payload).toInt32 ++ t)
      = .frame ⟨some (P.parseFromArray payload).1, .kNoError⟩ t := by
  have hsum : netNat (int32Bytes (adler32 payload).toInt32) = (adler32 payload).toNat :=
    (checksum_beq_iff (length_int32Bytes _) _).mp
      (by rw [int32Of_int32Bytes]; exact beq_self_eq_true _)
  rw [loopNext_whole P adler32 hlen (length_int32Bytes _), referenceCallback, if_pos hsum]

/-- **ONE FRAME**: whatever follows it, the decoder reads a built frame as
    the message it was built for. -/
theorem loopNext_built_frame {m : M} (hsize : (P.serialize m).length ≤ 2 ^ 31 - 5)
    (hparse : P.ParsesBack m) (t : Bytes) :
    loopNext P adler32 (frame P adler32 m ++ t) = .frame ⟨some m, .kNoError⟩ t := by
  obtain ⟨len, hlen, hframe⟩ := frame_of_size P adler32 hsize
  have hmsg : (P.parseFromArray (P.serialize m)).1 = m := congrArg Prod.fst hparse
  rw [hframe, loopNext_payload P adler32 hlen, hmsg]

/-- A single frame, fed in any pieces to a buffer that is between frames. -/
theorem feed_built_frame {b : Buffer} (hb : b.content = []) {m : M}
    (hsize : (P.serialize m).length ≤ 2 ^ 31 - 5) (hparse : P.ParsesBack m) {chunks : List Bytes}
    (hcut : chunks.flatten = frame P adler32 m) :
    (feed (onRead P adler32) b chunks).1 = [⟨some m, .kNoError⟩] := by
  have hnext := loopNext_built_frame P adler32 hsize hparse []
  have hobs := observe_feed_idle P adler32 hb chunks
  rw [List.append_nil] at hnext
  rw [hcut, (loopGrammar P adler32).decode_frame hnext] at hobs
  exact congrArg Prod.fst hobs

/-- **TOO LONG**: above `2 ^ 31 - 5` bytes the length wraps to a negative
    number, and the frame never completes. -/
theorem feed_oversized_frame {b : Buffer} (hb : b.content = []) {m : M}
    (hsize : 2 ^ 31 - 5 < (P.serialize m).length) (hmem : (P.serialize m).length < 2 ^ 31)
    {chunks : List Bytes} (hcut : chunks.flatten = frame P adler32 m) :
    (feed (onRead P adler32) b chunks).1 = [] := by
  have hcount : (byteSize P m).toInt = (P.serialize m).length := by
    rw [byteSize, Int32.toInt_ofNat_of_lt hmem]
  have hfield : (lengthField (frame P adler32 m)).toInt
      = ((P.serialize m).length + 4 : Nat) - 2 ^ 32 := by
    have hsum : (toSizeT ((byteSize P m).toInt + 4) : Int)
        = ((P.serialize m).length + 4 : Nat) := by
      rw [hcount, toSizeT_of_nonneg (by omega) (by omega)]
      omega
    rw [lengthField, frame, List.append_assoc, List.take_left' (length_int32Bytes _),
      int32Of_int32Bytes, hsum, Int32.toInt_ofInt, Int.bmod_def]
    simp only [Int32.size]
    omega
  have hlength : (frame P adler32 m).length = (P.serialize m).length + 8 := by
    rw [frame, List.length_append, List.length_append, length_int32Bytes, length_int32Bytes]
    omega
  have hmore : loopNext P adler32 (frame P adler32 m) = .more := by
    rcases loopNext_cases P adler32 (frame P adler32 m) with ⟨h, -⟩ | ⟨-, -, hguard, -⟩ |
      ⟨n, hn, -, -, -⟩
    · exact h
    · rw [hfield, hlength, toSizeT] at hguard
      omega
    · rw [hfield] at hn
      omega
  have hobs := observe_feed_idle P adler32 hb chunks
  rw [hcut, (loopGrammar P adler32).decode_more hmore] at hobs
  exact congrArg Prod.fst hobs

/-- **ROUND TRIP**: the frames built for any messages, put one after the
    other and cut in any way, are delivered once each, in order, as the
    messages sent, and `inputBuffer_` ends empty. -/
theorem frames_round_trip (msgs : List M) (frames : List Bytes)
    (hbuilt : List.Forall₂ (BuiltFrame P adler32) msgs frames)
    (hsize : ∀ m ∈ msgs, (P.serialize m).length ≤ 2 ^ 31 - 5)
    (hparse : ∀ m ∈ msgs, P.ParsesBack m)
    (chunks : List Bytes) (hcut : chunks.flatten = frames.flatten) :
    ∃ b : Buffer,
      feed (onRead P adler32) inputBuffer chunks
        = (msgs.map fun m => ⟨some m, .kNoError⟩, .ok b) ∧ b.readableBytes = 0 := by
  have hframes : frames = msgs.map (frame P adler32) := builtFrames_eq P adler32 hbuilt
  have hdecode := (loopGrammar P adler32).decode_frames (frame P adler32)
    (fun m => (⟨some m, .kNoError⟩ : RpcCallback M)) rfl msgs
    (fun m hm t => loopNext_built_frame P adler32 (hsize m hm) (hparse m hm) t)
  have hobs := observe_feed_onRead P adler32 chunks
  rw [hcut, hframes, hdecode] at hobs
  rcases hrun : feed (onRead P adler32) inputBuffer chunks with ⟨callbacks, a | b⟩
  · rw [hrun] at hobs
    exact nomatch congrArg Prod.snd hobs
  · rw [hrun] at hobs
    have hout : callbacks = msgs.map fun m => ⟨some m, .kNoError⟩ := congrArg Prod.fst hobs
    have htail : b.content = [] := Option.some.inj (congrArg Prod.snd hobs)
    refine ⟨b, by rw [hout], ?_⟩
    rw [← b.length_content, htail]
    rfl

end Frame

/-- An empty message and one with an id, the stream cut inside both frames. -/
theorem frames_round_trip_two :
    ∃ b : Buffer,
      feed (onRead rpcProto zlibAdler32) inputBuffer
          [[0, 0, 0], [4, 0, 0, 0, 1, 0, 0, 0, 13, 17], [1, 0, 0, 0, 0, 0, 0, 0, 0, 170, 0, 19]]
        = ([⟨some RpcMessage.new, .kNoError⟩,
            ⟨some { RpcMessage.new with id := 1 }, .kNoError⟩], .ok b) ∧ b.readableBytes = 0 := by
  refine frames_round_trip rpcProto zlibAdler32
    [RpcMessage.new, { RpcMessage.new with id := 1 }] _
    (.cons ((builtFrame_iff _ _ _ _).mpr rfl) (.cons ((builtFrame_iff _ _ _ _).mpr rfl) .nil))
    (by decide) ?_ _ (by decide)
  intro m hm
  refine rpcProto_parsesBack ?_
  revert m
  decide

end RpcCodecSend
