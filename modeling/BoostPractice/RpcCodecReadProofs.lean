import BoostPractice.FrameDecodingProofs
import BoostPractice.RpcMessageProofs

/-! # `rpc_codec::on_read` — the incremental decoder

    The decoder reads `[length][payload][checksum]` frames out of a buffer
    that grows by whatever a socket read returned.  Its length field is a
    SIGNED 32-bit integer that the code mixes with `size_t` arithmetic modulo
    `2 ^ 64` and narrows to zlib's 32-bit `uInt`; the model keeps each of
    these conversions, and passes every byte range and every count that the
    loop hands on through an `Access`.  The first access that is not `Safe`
    ends the run: from there the behaviour of the source is undefined.

    Two results are proved about whole runs, for every stream and every way
    of cutting it: exactly which streams are decoded without an unsafe access
    (`onRead_safe_iff`), and that the decoder computes what a reference
    decoder of the whole string computes (`onRead_refines_reference`). -/

namespace RpcCodecRead

open MachineInt FrameDecoding BoostBuffer RpcMessages

/-- zlib's `adler32(1, buf, len)`: the sum of the bytes and the sum of the
    running sums, modulo the largest prime below `2 ^ 16`. -/
def zlibAdler32 (buf : Bytes) : UInt32 :=
  let sums := buf.foldl
    (fun (ab : Nat × Nat) x =>
      ((ab.1 + x.toNat) % 65521, (ab.2 + (ab.1 + x.toNat) % 65521) % 65521)) (1, 0)
  UInt32.ofNat (sums.2 * 65536 + sums.1)

/-- `enum CodecError`. -/
inductive CodecError where
  | kNoError
  | kChecksumError
  deriving DecidableEq

/-- The arguments of a call of `rpcCallback_`; no message is a null pointer. -/
structure RpcCallback (M : Type) where
  rpcMsg : Option M
  error : CodecError
  deriving DecidableEq

/-- `kMinMessageLen = sizeof(int32_t) + sizeof(int32_t)`: the length field
    and the checksum. -/
def kMinMessageLen : Nat := 4 + 4

/-! ## Accesses -/

/-- What a byte range or a count is handed to. -/
inductive Use where
  | peekInt32
  | adler32
  | checksum
  | parseFromArray
  | retrieve
  deriving DecidableEq

/-- A range of `length` bytes from `peek() + offset`, handed on while
    `readable` bytes are readable.  `length` is what the callee receives,
    `meant` the same expression without wrap-around. -/
structure Access where
  use : Use
  offset : Int
  length : Int
  meant : Int
  readable : Nat
  deriving DecidableEq

/-- The range lies inside the readable bytes and its length is the
    non-negative value meant. -/
def Access.Safe (a : Access) : Prop :=
  0 ≤ a.offset ∧ a.offset + a.length ≤ a.readable ∧ a.length = a.meant ∧ 0 ≤ a.meant

instance (a : Access) : Decidable a.Safe :=
  inferInstanceAs (Decidable (_ ∧ _ ∧ _ ∧ _))

/-- Read a byte range of the buffer, if it is safe to. -/
def access (b : Buffer) (use : Use) (offset length meant : Int) : Except Access Bytes :=
  let a : Access := ⟨use, offset, length, meant, b.readableBytes⟩
  if a.Safe then .ok ((b.content.drop offset.toNat).take length.toNat) else .error a

/-- `inputBuffer_.retrieve(n)`, where `n` was computed from `meant`. -/
def retrieve (b : Buffer) (n : Nat) (meant : Int) : Except Access Buffer :=
  let a : Access := ⟨.retrieve, 0, n, meant, b.readableBytes⟩
  if a.Safe then
    match b.retrieve n with
    | some b' => .ok b'
    | none => .error a
  else .error a

/-- `inputBuffer_.peekInt32()`. -/
def peekInt32 (b : Buffer) : Except Access Int32 :=
  (access b .peekInt32 0 4 4).map int32Of

/-! ## The decoder -/

section Decoder

variable {M : Type} (P : Protobuf M) (adler32 : Bytes → UInt32)

/-- `validate_checksum(buf, len)`, with `buf` the buffer's `peek()`. -/
def validateChecksum (b : Buffer) (len : Int32) : Except Access Bool := do
  -- `len - sizeof(int32_t)` is a `size_t`, zlib's parameter a 32-bit `uInt`
  let covered ← access b .adler32 0 (toUInt32 (toSizeT (len.toInt - 4)))
    (len.toInt - 4)
  let checksum : Int32 := (adler32 covered).toInt32
  let stored ← access b .checksum (len.toInt - 4) 4 4
  let expectedChecksum := int32Of stored
  return checksum == expectedChecksum

/-- The callback for the frame at the front of `b`, its length field already
    retrieved. -/
def frameCallback (b : Buffer) (len : Int32) : Except Access (RpcCallback M) := do
  let validate ← validateChecksum adler32 b len
  if !validate then
    return ⟨none, .kChecksumError⟩
  else
    -- the value that `ParseFromArray` returns is not looked at
    let payload ← access b .parseFromArray 0 (toInt32 (toSizeT (len.toInt - 4)))
      (len.toInt - 4)
    return ⟨some (P.parseFromArray payload).1, .kNoError⟩

/-- One evaluation of the loop condition of `on_read` and, if it holds, of
    the body; nothing when the loop is left. -/
def onReadStep (b : Buffer) : Except Access (Option (RpcCallback M × Buffer)) :=
  if kMinMessageLen ≤ b.readableBytes then do
    let len ← peekInt32 b
    if toSizeT (4 + len.toInt) ≤ b.readableBytes then do
      let b ← retrieve b 4 4
      let callback ← frameCallback P adler32 b len
      let b ← retrieve b (toSizeT len.toInt) len.toInt
      return some (callback, b)
    else
      return none
  else
    return none

/-- `on_read(bytes, readBuffer)` on the state of `inputBuffer_`: the calls of
    `rpcCallback_` in order, and the buffer left.  The callback has no access
    to `inputBuffer_`, so what it does is left to the session. -/
def onRead (inputBuffer : Buffer) (bytes : Bytes) : List (RpcCallback M) × Except Access Buffer :=
  let b := inputBuffer.append bytes
  loopN (onReadStep P adler32) (b.readableBytes + 1) b

end Decoder

/-- `inputBuffer_` of a new codec. -/
def inputBuffer : Buffer := Buffer.new kInitialSize

/-! ## What safe accesses return -/

theorem access_ok {b : Buffer} {use : Use} {n : Nat} {offset length meant : Int}
    (hlen : length = n) (hmeant : meant = n) (h0 : 0 ≤ offset)
    (h : offset.toNat + n ≤ b.readableBytes) :
    access b use offset length meant = .ok ((b.content.drop offset.toNat).take n) := by
  have hsafe : Access.Safe ⟨use, offset, length, meant, b.readableBytes⟩ := by
    refine ⟨h0, ?_, ?_, ?_⟩
    · show offset + length ≤ b.readableBytes
      omega
    · exact hlen.trans hmeant.symm
    · show 0 ≤ meant
      omega
  rw [access, if_pos hsafe, hlen, Int.toNat_natCast]

/-- A length that is meant to be negative is never safe. -/
theorem access_negative {b : Buffer} {use : Use} {offset length meant : Int} (h : meant < 0) :
    access b use offset length meant
      = .error ⟨use, offset, length, meant, b.readableBytes⟩ := by
  have hunsafe : ¬ Access.Safe ⟨use, offset, length, meant, b.readableBytes⟩ := by
    rintro ⟨-, -, -, hmeant⟩
    exact absurd hmeant (Int.not_le.mpr h)
  rw [access, if_neg hunsafe]

theorem retrieve_ok {b : Buffer} {n : Nat} {meant : Int} (hmeant : meant = n)
    (h : n ≤ b.readableBytes) :
    ∃ b', retrieve b n meant = .ok b' ∧ b'.content = b.content.drop n := by
  obtain ⟨b', hb', hcontent⟩ := b.retrieve_of_le h
  refine ⟨b', ?_, hcontent⟩
  have hsafe : Access.Safe ⟨.retrieve, 0, n, meant, b.readableBytes⟩ := by
    refine ⟨Int.le_refl 0, ?_, hmeant.symm, ?_⟩
    · show (0 : Int) + n ≤ b.readableBytes
      omega
    · show 0 ≤ meant
      omega
  rw [retrieve, if_pos hsafe, hb']

/-- The length field at the front of a byte string. -/
def lengthField (s : Bytes) : Int32 := int32Of (s.take 4)

theorem peekInt32_ok {b : Buffer} (h : 4 ≤ b.readableBytes) :
    peekInt32 b = .ok (lengthField b.content) := by
  have hread : access b .peekInt32 0 4 4 = .ok ((b.content.drop (0 : Int).toNat).take 4) :=
    access_ok rfl rfl (Int.le_refl 0) (by simpa using h)
  rw [peekInt32, hread]
  rfl

/-! ## The reference decoder

    A frame is a four-byte length `L`, `L - 4` bytes of payload and a
    four-byte checksum of the payload.  The reference looks at the whole
    string at once and compares the checksum as a number; a length below 4
    has no frame. -/

section Reference

variable {M : Type} (P : Protobuf M) (adler32 : Bytes → UInt32)

/-- What a complete frame with this payload and checksum field says. -/
def referenceCallback (payload sum : Bytes) : RpcCallback M :=
  if netNat sum = (adler32 payload).toNat then ⟨some (P.parseFromArray payload).1, .kNoError⟩
  else ⟨none, .kChecksumError⟩

/-- What the `n` bytes after the length field say. -/
def referenceFrame (s : Bytes) (n : Nat) : RpcCallback M :=
  let body := (s.drop 4).take n
  referenceCallback P adler32 (body.take (n - 4)) (body.drop (n - 4))

/-- The frame at the front of a byte string. -/
def referenceNext (s : Bytes) : Verdict UInt8 (RpcCallback M) :=
  let len := (lengthField s).toInt
  if s.length < 4 then .more
  else if len < 4 then .fault
  else if (s.length : Int) < 4 + len then .more
  else .frame (referenceFrame P adler32 s len.toNat) (s.drop (4 + len.toNat))

theorem lengthField_append {s : Bytes} (h : 4 ≤ s.length) (t : Bytes) :
    lengthField (s ++ t) = lengthField s := by
  rw [lengthField, lengthField, List.take_append_of_le_length h]

/-- Nothing that follows a complete frame is looked at. -/
theorem take_drop_append {s : Bytes} {i n : Nat} (h : i + n ≤ s.length) (t : Bytes) :
    ((s ++ t).drop i).take n = (s.drop i).take n := by
  rw [List.drop_append_of_le_length (by omega), List.take_append_of_le_length]
  rw [List.length_drop]
  omega

/-- The inversion of `referenceNext`, which says all that it can answer. -/
theorem referenceNext_cases (s : Bytes) :
    (referenceNext P adler32 s = .more ∧
      (s.length < 4 ∨ 4 ≤ (lengthField s).toInt ∧
        (s.length : Int) < 4 + (lengthField s).toInt)) ∨
    (referenceNext P adler32 s = .fault ∧ 4 ≤ s.length ∧
      (lengthField s).toInt < 4) ∨
    (∃ n : Nat, (lengthField s).toInt = n ∧ 4 ≤ n ∧ 4 + n ≤ s.length ∧
      referenceNext P adler32 s = .frame (referenceFrame P adler32 s n) (s.drop (4 + n))) := by
  by_cases h1 : s.length < 4
  · exact Or.inl ⟨if_pos h1, Or.inl h1⟩
  · by_cases h2 : (lengthField s).toInt < 4
    · refine Or.inr (Or.inl ⟨?_, Nat.le_of_not_lt h1, h2⟩)
      rw [referenceNext, if_neg h1, if_pos h2]
    · have hlen : (4 : Int) ≤ (lengthField s).toInt := Int.not_lt.mp h2
      by_cases h3 : (s.length : Int) < 4 + (lengthField s).toInt
      · refine Or.inl ⟨?_, Or.inr ⟨hlen, h3⟩⟩
        rw [referenceNext, if_neg h1, if_neg h2, if_pos h3]
      · have hn : (lengthField s).toInt = (lengthField s).toInt.toNat :=
          (Int.toNat_of_nonneg (by omega)).symm
        refine Or.inr (Or.inr ⟨(lengthField s).toInt.toNat, hn, by omega, by omega, ?_⟩)
        rw [referenceNext, if_neg h1, if_neg h2, if_neg h3]

/-- The frames of `[length][payload][checksum]` streams. -/
def reference : Grammar UInt8 (RpcCallback M) where
  next := referenceNext P adler32
  shrinks := by
    intro s out r h
    rcases referenceNext_cases P adler32 s with ⟨h', -⟩ | ⟨h', -, -⟩ | ⟨n, -, hn, hle, h'⟩
    · exact nomatch h'.symm.trans h
    · exact nomatch h'.symm.trans h
    · have hr : s.drop (4 + n) = r := (Verdict.frame.inj (h'.symm.trans h)).2
      rw [← hr, List.length_drop]
      omega
  frame_append := by
    intro s out r h t
    rcases referenceNext_cases P adler32 s with ⟨h', -⟩ | ⟨h', -, -⟩ | ⟨n, hlen, hn, hle, h'⟩
    · exact nomatch h'.symm.trans h
    · exact nomatch h'.symm.trans h
    · have hfield : lengthField (s ++ t) = lengthField s :=
        lengthField_append (by omega) t
      have hbody : referenceFrame P adler32 (s ++ t) n = referenceFrame P adler32 s n := by
        rw [referenceFrame, referenceFrame, take_drop_append hle t]
      have hrest : (s ++ t).drop (4 + n) = s.drop (4 + n) ++ t :=
        List.drop_append_of_le_length hle
      rw [referenceNext, hfield, hlen, if_neg (by rw [List.length_append]; omega),
        if_neg (by omega),
        if_neg (by rw [List.length_append]; push_cast; omega)]
      simp only [Int.toNat_natCast, hbody, hrest]
      obtain ⟨hout, hr⟩ := Verdict.frame.inj (h'.symm.trans h)
      rw [hout, hr]
  fault_append := by
    intro s h t
    rcases referenceNext_cases P adler32 s with ⟨h', -⟩ | ⟨-, hle, hlen⟩ | ⟨n, -, -, -, h'⟩
    · exact nomatch h'.symm.trans h
    · rw [referenceNext, lengthField_append hle, if_neg (by rw [List.length_append]; omega),
        if_pos hlen]
    · exact nomatch h'.symm.trans h

/-! ## What the loop sees

    The loop waits for 8 bytes, not 4, and its guard is computed modulo
    `2 ^ 64`: for a length between -4 and 3 it passes, and the accesses that
    follow are unsafe; below -4 it fails, however much has arrived. -/

/-- The front of a byte string as one iteration of `on_read` treats it. -/
def loopNext (s : Bytes) : Verdict UInt8 (RpcCallback M) :=
  let len := (lengthField s).toInt
  if s.length < kMinMessageLen then .more
  else if s.length < toSizeT (4 + len) then .more
  else if len < 4 then .fault
  else referenceNext P adler32 s

/-- For a length from 4 on the guard means what it says. -/
theorem guard_eq (len : Int32) (h : 0 ≤ len.toInt) :
    (toSizeT (4 + len.toInt) : Int) = 4 + len.toInt := by
  have hlt := len.toInt_lt
  exact toSizeT_of_nonneg (by omega) (by omega)

theorem loopNext_cases (s : Bytes) :
    (loopNext P adler32 s = .more ∧
      (s.length < kMinMessageLen ∨
        s.length < toSizeT (4 + (lengthField s).toInt))) ∨
    (loopNext P adler32 s = .fault ∧ kMinMessageLen ≤ s.length ∧
      toSizeT (4 + (lengthField s).toInt) ≤ s.length ∧
      (lengthField s).toInt < 4) ∨
    (∃ n : Nat, (lengthField s).toInt = n ∧ 4 ≤ n ∧ 4 + n ≤ s.length ∧
      loopNext P adler32 s = .frame (referenceFrame P adler32 s n) (s.drop (4 + n))) := by
  by_cases h1 : s.length < kMinMessageLen
  · exact Or.inl ⟨if_pos h1, Or.inl h1⟩
  · by_cases h2 : s.length < toSizeT (4 + (lengthField s).toInt)
    · refine Or.inl ⟨?_, Or.inr h2⟩
      rw [loopNext, if_neg h1, if_pos h2]
    · by_cases h3 : (lengthField s).toInt < 4
      · refine Or.inr (Or.inl ⟨?_, Nat.le_of_not_lt h1, Nat.le_of_not_lt h2, h3⟩)
        rw [loopNext, if_neg h1, if_neg h2, if_pos h3]
      · have hlen : (4 : Int) ≤ (lengthField s).toInt := Int.not_lt.mp h3
        have hguard := guard_eq (lengthField s) (by omega)
        refine Or.inr (Or.inr ⟨(lengthField s).toInt.toNat, ?_, by omega, by omega, ?_⟩)
        · exact (Int.toNat_of_nonneg (by omega)).symm
        · rw [loopNext, if_neg h1, if_neg h2, if_neg h3, referenceNext, if_neg (by omega),
            if_neg h3, if_neg (by omega)]

/-- A complete frame is the same for the loop and for the reference. -/
theorem loopNext_frame {s r : Bytes} {out : RpcCallback M}
    (h : loopNext P adler32 s = .frame out r) : referenceNext P adler32 s = .frame out r := by
  rcases loopNext_cases P adler32 s with ⟨h', -⟩ | ⟨h', -⟩ | ⟨n, hlen, hn, hle, h'⟩
  · exact nomatch h'.symm.trans h
  · exact nomatch h'.symm.trans h
  · rcases referenceNext_cases P adler32 s with ⟨-, hlt | ⟨-, hlt⟩⟩ | ⟨-, -, hlt⟩ |
      ⟨m, hm, -, -, h''⟩
    · omega
    · omega
    · omega
    · have hmn : m = n := by omega
      rw [h'', hmn, ← h', h]

/-- What the loop answers for a complete frame does not change as more bytes
    arrive. -/
theorem loopNext_append {s : Bytes} {n : Nat} (hlen : (lengthField s).toInt = n) (hn : 4 ≤ n)
    (hle : 4 + n ≤ s.length) (t : Bytes) :
    loopNext P adler32 (s ++ t) = referenceNext P adler32 (s ++ t) := by
  have hguard := guard_eq (lengthField s) (by omega)
  rw [loopNext, lengthField_append (by omega) t, List.length_append,
    if_neg (by rw [kMinMessageLen]; omega), if_neg (by omega), if_neg (by omega)]

/-- The loop's view of a stream, as a grammar. -/
def loopGrammar : Grammar UInt8 (RpcCallback M) where
  next := loopNext P adler32
  shrinks := fun h => (reference P adler32).shrinks (loopNext_frame P adler32 h)
  frame_append := by
    intro s out r h t
    rcases loopNext_cases P adler32 s with ⟨h', -⟩ | ⟨h', -⟩ | ⟨n, hlen, hn, hle, h'⟩
    · exact nomatch h'.symm.trans h
    · exact nomatch h'.symm.trans h
    · rw [loopNext_append P adler32 hlen hn hle]
      exact (reference P adler32).frame_append (loopNext_frame P adler32 h) t
  fault_append := by
    intro s h t
    rcases loopNext_cases P adler32 s with ⟨h', -⟩ | ⟨-, hmin, hle, hlen⟩ | ⟨n, -, -, -, h'⟩
    · exact nomatch h'.symm.trans h
    · have hfield : lengthField (s ++ t) = lengthField s :=
        lengthField_append (Nat.le_trans (by decide) hmin) t
      rw [loopNext, hfield, List.length_append, if_neg (by omega), if_neg (by omega), if_pos hlen]
    · exact nomatch h'.symm.trans h

/-! ## One iteration follows the loop's grammar -/

/-- The stored checksum is compared as a 32-bit integer, the reference
    compares numbers: for four bytes it is the same test. -/
theorem checksum_beq_iff {sum : Bytes} (h : sum.length = 4) (x : UInt32) :
    (x.toInt32 == int32Of sum) = true ↔ netNat sum = x.toNat := by
  have hlt : netNat sum < 2 ^ 32 := by
    have := netNat_lt sum
    rw [h] at this
    exact this
  rw [beq_iff_eq, int32Of]
  constructor
  · intro heq
    have hx : x = UInt32.ofNat (netNat sum) := congrArg Int32.toUInt32 heq
    rw [hx, UInt32.toNat_ofNat_of_lt' hlt]
  · intro heq
    rw [heq, UInt32.ofNat_toNat]

/-! A body of `n >= 4` bytes splits into `n - 4` bytes of payload and four of
    checksum, and each of the three reads is safe. -/

section Body

variable {b : Buffer} {len : Int32} {n : Nat} (hlen : len.toInt = n) (hn : 4 ≤ n)
  (hle : n ≤ b.readableBytes)

include hlen hn hle

theorem access_payload {use : Use} {length : Int} (hlength : length = ((n - 4 : Nat) : Int)) :
    access b use 0 length (len.toInt - 4) = .ok ((b.content.take n).take (n - 4)) := by
  rw [access_ok hlength (by omega) (Int.le_refl 0) (by simp; omega)]
  rw [List.take_take, Nat.min_eq_left (Nat.sub_le _ _)]
  rfl

theorem access_stored :
    access b .checksum (len.toInt - 4) 4 4 = .ok ((b.content.take n).drop (n - 4)) := by
  have hoff : len.toInt - 4 = ((n - 4 : Nat) : Int) := by omega
  have hread : access b .checksum (len.toInt - 4) 4 4
      = .ok ((b.content.drop (len.toInt - 4).toNat).take 4) :=
    access_ok rfl rfl (by omega) (by omega)
  rw [hread, hoff, Int.toNat_natCast, List.drop_take, Nat.sub_sub_self hn]

theorem validateChecksum_ok : validateChecksum adler32 b len = .ok
    ((adler32 ((b.content.take n).take (n - 4))).toInt32
      == int32Of ((b.content.take n).drop (n - 4))) := by
  have hlt := len.toInt_lt
  have hzlib : (toUInt32 (toSizeT (len.toInt - 4)) : Int) = ((n - 4 : Nat) : Int) := by
    rw [toSizeT_of_nonneg (by omega) (by omega), toUInt32_of_nonneg (by omega) (by omega)]
    omega
  rw [validateChecksum, access_payload hlen hn hle hzlib, access_stored hlen hn hle]
  rfl

/-- A body of at least four bytes is read safely, and gives the callback of
    the reference. -/
theorem frameCallback_ok : frameCallback P adler32 b len = .ok (referenceCallback P adler32
    ((b.content.take n).take (n - 4)) ((b.content.take n).drop (n - 4))) := by
  have hlt := len.toInt_lt
  have hint : toInt32 (toSizeT (len.toInt - 4)) = ((n - 4 : Nat) : Int) := by
    rw [toSizeT_of_nonneg (by omega) (by omega), toInt32_of_nonneg (by omega) (by omega)]
    omega
  have hsum : ((b.content.take n).drop (n - 4)).length = 4 := by
    rw [List.length_drop, List.length_take, b.length_content]
    omega
  have hiff := checksum_beq_iff hsum (adler32 ((b.content.take n).take (n - 4)))
  rw [frameCallback, validateChecksum_ok adler32 hlen hn hle,
    access_payload hlen hn hle hint, referenceCallback]
  cases hv : (adler32 ((b.content.take n).take (n - 4))).toInt32
      == int32Of ((b.content.take n).drop (n - 4)) with
  | true =>
      rw [if_pos (hiff.mp hv)]
      rfl
  | false =>
      rw [if_neg (fun heq => Bool.false_ne_true (hv ▸ hiff.mpr heq))]
      rfl

end Body

/-- Below four, the range given to `adler32` is not the one meant. -/
theorem frameCallback_short {b : Buffer} {len : Int32} (h : len.toInt < 4) :
    ∃ a, frameCallback P adler32 b len = .error a := by
  rw [frameCallback, validateChecksum, access_negative (by omega)]
  exact ⟨_, rfl⟩

/-- When enough bytes are buffered, the body of the loop runs. -/
theorem onReadStep_body {b : Buffer} (hmin : kMinMessageLen ≤ b.readableBytes)
    (hguard : toSizeT (4 + (lengthField b.content).toInt) ≤ b.readableBytes) :
    ∃ b₁, b₁.content = b.content.drop 4 ∧
      onReadStep P adler32 b = (do
        let callback ← frameCallback P adler32 b₁ (lengthField b.content)
        let b₂ ← retrieve b₁ (toSizeT (lengthField b.content).toInt) (lengthField b.content).toInt
        return some (callback, b₂)) := by
  have h4 : 4 ≤ b.readableBytes := Nat.le_trans (by decide) hmin
  obtain ⟨b₁, hb₁, hcontent⟩ := retrieve_ok (b := b) (n := 4) rfl h4
  refine ⟨b₁, hcontent, ?_⟩
  have hb₁' : retrieve b 4 4 = .ok b₁ := hb₁
  rw [onReadStep, if_pos hmin, peekInt32_ok h4]
  show (if _ then _ else _ : Except Access (Option (RpcCallback M × Buffer))) = _
  rw [if_pos hguard, hb₁']
  rfl

/-- **ONE ITERATION** follows the loop's grammar on the readable bytes. -/
theorem onReadStep_follows :
    Follows (loopGrammar P adler32) Buffer.content (onReadStep P adler32) where
  more := by
    intro b h
    rcases loopNext_cases P adler32 b.content with ⟨-, hmin | hguard⟩ | ⟨h', -⟩ | ⟨n, -, -, -, h'⟩
    · -- the loop condition fails
      rw [b.length_content] at hmin
      rw [onReadStep, if_neg (Nat.not_le.mpr hmin)]
      rfl
    · -- the guard fails, if the loop condition holds at all
      rw [b.length_content] at hguard
      rw [onReadStep]
      split
      · next hmin =>
          rw [peekInt32_ok (Nat.le_trans (by decide) hmin)]
          show (if _ then _ else _ : Except Access (Option (RpcCallback M × Buffer))) = _
          rw [if_neg (Nat.not_le.mpr hguard)]
          rfl
      · rfl
    · exact nomatch h'.symm.trans h
    · exact nomatch h'.symm.trans h
  fault := by
    intro b h
    rcases loopNext_cases P adler32 b.content with ⟨h', -⟩ | ⟨-, hmin, hguard, hlen⟩ |
      ⟨n, -, -, -, h'⟩
    · exact nomatch h'.symm.trans h
    · -- the first access of the body is the one that is not safe
      rw [b.length_content] at hmin hguard
      obtain ⟨b₁, -, hstep⟩ := onReadStep_body P adler32 hmin hguard
      obtain ⟨a, ha⟩ := frameCallback_short P adler32 (b := b₁) hlen
      rw [hstep, ha]
      exact ⟨a, rfl⟩
    · exact nomatch h'.symm.trans h
  frame := by
    intro b out r h
    rcases loopNext_cases P adler32 b.content with ⟨h', -⟩ | ⟨h', -⟩ | ⟨n, hlen, hn, hle, h'⟩
    · exact nomatch h'.symm.trans h
    · exact nomatch h'.symm.trans h
    · -- both retrieves succeed, and leave what is behind the frame
      obtain ⟨hout, hr⟩ := Verdict.frame.inj (h'.symm.trans h)
      rw [b.length_content] at hle
      have hguard := guard_eq (lengthField b.content) (by omega)
      obtain ⟨b₁, hb₁, hstep⟩ := onReadStep_body P adler32
        (b := b) (by rw [kMinMessageLen]; omega) (by omega)
      have hread : n ≤ b₁.readableBytes := by
        rw [← b₁.length_content, hb₁, List.length_drop, b.length_content]
        omega
      have hlt := (lengthField b.content).toInt_lt
      have hsize : toSizeT (lengthField b.content).toInt = n := by
        have := toSizeT_of_nonneg (n := (lengthField b.content).toInt) (by omega) (by omega)
        omega
      obtain ⟨b₂, hb₂, hrest⟩ := retrieve_ok (b := b₁) hlen hread
      refine ⟨b₂, ?_, ?_⟩
      · rw [hstep, frameCallback_ok P adler32 hlen hn hread, hsize, hb₁]
        show (retrieve b₁ n (lengthField b.content).toInt >>= _) = _
        rw [hb₂, ← hout]
        rfl
      · rw [hrest, hb₁, List.drop_drop, ← hr]

/-- One call of `on_read` decodes what was buffered and the new bytes. -/
theorem observe_onRead (b : Buffer) (bytes : Bytes) :
    observe Buffer.content (onRead P adler32 b bytes)
      = (loopGrammar P adler32).decode (b.content ++ bytes) := by
  rw [onRead, observe_loopN (onReadStep_follows P adler32), Grammar.decode,
    ← Buffer.length_content, Buffer.content_append]

/-! ## Safety of the decoder

    An access is unsafe for exactly those streams in which a length field
    below 4 gets past the guard. -/

/-- Walking from frame head to frame head as long as complete frames are
    there, every length field that the guard lets through is at least 4. -/
inductive GuardedLengthsOk : Bytes → Prop where
  | few {s : Bytes} : s.length < kMinMessageLen → GuardedLengthsOk s
  | blocked {s : Bytes} : s.length < toSizeT (4 + (lengthField s).toInt) → GuardedLengthsOk s
  | frame {s : Bytes} (n : Nat) : (lengthField s).toInt = n → 4 ≤ n → 4 + n ≤ s.length →
      GuardedLengthsOk (s.drop (4 + n)) → GuardedLengthsOk s

/-- For anything that fits into memory the guard lets exactly the lengths
    from -4 to 3 through wrongly. -/
theorem guard_short_iff {s : Bytes} (hmin : kMinMessageLen ≤ s.length) (hmem : s.length < 2 ^ 63)
    (hlen : (lengthField s).toInt < 4) :
    toSizeT (4 + (lengthField s).toInt) ≤ s.length ↔ -4 ≤ (lengthField s).toInt := by
  have hlow := (lengthField s).le_toInt
  rw [kMinMessageLen] at hmin
  rw [toSizeT]
  constructor <;> intro h <;> omega

theorem decode_loop_fault_iff (s : Bytes) :
    ((loopGrammar P adler32).decode s).2 ≠ none ↔ GuardedLengthsOk s := by
  rw [Grammar.decode_ne_none_iff]
  constructor
  · intro h
    induction h with
    | @more s hs =>
        rcases loopNext_cases P adler32 s with ⟨-, h | h⟩ | ⟨h', -⟩ | ⟨n, -, -, -, h'⟩
        · exact .few h
        · exact .blocked h
        · exact nomatch h'.symm.trans hs
        · exact nomatch h'.symm.trans hs
    | @frame s r out hs _ ih =>
        rcases loopNext_cases P adler32 s with ⟨h', -⟩ | ⟨h', -⟩ | ⟨n, hlen, hn, hle, h'⟩
        · exact nomatch h'.symm.trans hs
        · exact nomatch h'.symm.trans hs
        · have hr : s.drop (4 + n) = r := (Verdict.frame.inj (h'.symm.trans hs)).2
          exact .frame n hlen hn hle (hr ▸ ih)
  · intro h
    induction h with
    | few h => exact .more (if_pos h)
    | @blocked s h =>
        have hmore : loopNext P adler32 s = .more := by
          rw [loopNext, if_pos h]
          exact ite_self _
        exact .more hmore
    | @frame s n hlen hn hle _ ih =>
        have hframe : (loopGrammar P adler32).next s
            = .frame (referenceFrame P adler32 s n) (s.drop (4 + n)) := by
          rcases loopNext_cases P adler32 s with ⟨-, h | h⟩ | ⟨-, -, -, h⟩ | ⟨m, hm, -, -, h'⟩
          · rw [kMinMessageLen] at h
            omega
          · have := guard_eq (lengthField s) (by omega)
            omega
          · omega
          · have hmn : m = n := by omega
            exact hmn ▸ h'
        exact .frame hframe ih

/-- Pieces fed to a buffer that is between frames. -/
theorem observe_feed_idle {b : Buffer} (hb : b.content = []) (chunks : List Bytes) :
    observe Buffer.content (feed (onRead P adler32) b chunks)
      = (loopGrammar P adler32).decode chunks.flatten := by
  have h := observe_feed (observe_onRead P adler32) chunks b (by rw [hb]; rfl)
  rw [h, hb, List.nil_append]

theorem observe_feed_onRead (chunks : List Bytes) :
    observe Buffer.content (feed (onRead P adler32) inputBuffer chunks)
      = (loopGrammar P adler32).decode chunks.flatten :=
  observe_feed_idle P adler32 (Buffer.content_new _) chunks

/-- **SAFETY, EXACTLY**: over every stream and every way of cutting it, no
    access of the decoder leaves the readable bytes or has a length other
    than the non-negative one meant, if and only if every length field that
    the guard lets through is at least 4. -/
theorem onRead_safe_iff (chunks : List Bytes) :
    (∀ a, (feed (onRead P adler32) inputBuffer chunks).2 ≠ .error a)
      ↔ GuardedLengthsOk chunks.flatten := by
  rw [← decode_loop_fault_iff P adler32, ← observe_feed_onRead P adler32, observe]
  cases h : (feed (onRead P adler32) inputBuffer chunks).2 with
  | ok b => exact ⟨fun _ => Option.some_ne_none _, fun _ a heq => nomatch heq⟩
  | error a => exact ⟨fun hall => absurd rfl (hall a), fun hne => absurd rfl hne⟩

end Reference

set_option maxRecDepth 20000 in
/-- Eight zero bytes, a frame head with length 0: `adler32` is given
    `2 ^ 32 - 4` bytes where four are readable. -/
theorem onRead_unsafe_at_zero_length :
    ∃ a : Access, (feed (onRead rpcProto zlibAdler32) inputBuffer [[0, 0, 0, 0, 0, 0, 0, 0]]).2
        = .error a ∧ a = ⟨.adler32, 0, 4294967292, -4, 4⟩ ∧ ¬ a.Safe := by
  refine ⟨_, rfl, rfl, ?_⟩
  decide

/-! ## The decoder refines the reference -/

/-- Each length field reached at a frame head is at least 4; payloads and
    checksums are arbitrary. -/
inductive HeadLengthsOk : Bytes → Prop where
  | short {s : Bytes} : s.length < 4 → HeadLengthsOk s
  | incomplete {s : Bytes} : 4 ≤ (lengthField s).toInt →
      (s.length : Int) < 4 + (lengthField s).toInt → HeadLengthsOk s
  | frame {s : Bytes} (n : Nat) : (lengthField s).toInt = n → 4 ≤ n → 4 + n ≤ s.length →
      HeadLengthsOk (s.drop (4 + n)) → HeadLengthsOk s

section Refinement

variable {M : Type} (P : Protobuf M) (adler32 : Bytes → UInt32)

theorem referenceNext_frame {s : Bytes} {n : Nat} (hlen : (lengthField s).toInt = n) (hn : 4 ≤ n)
    (hle : 4 + n ≤ s.length) :
    referenceNext P adler32 s = .frame (referenceFrame P adler32 s n) (s.drop (4 + n)) := by
  rcases referenceNext_cases P adler32 s with ⟨-, h | ⟨-, h⟩⟩ | ⟨-, -, h⟩ | ⟨m, hm, -, -, h⟩
  · omega
  · omega
  · omega
  · have hmn : m = n := by omega
    exact hmn ▸ h

/-- The reference meets no fault exactly where the lengths are fine. -/
theorem decode_reference_fault_iff (s : Bytes) :
    ((reference P adler32).decode s).2 ≠ none ↔ HeadLengthsOk s := by
  rw [Grammar.decode_ne_none_iff]
  constructor
  · intro h
    induction h with
    | @more s hs =>
        rcases referenceNext_cases P adler32 s with ⟨-, h | ⟨h4, h⟩⟩ | ⟨h', -⟩ |
          ⟨n, -, -, -, h'⟩
        · exact .short h
        · exact .incomplete h4 h
        · exact nomatch h'.symm.trans hs
        · exact nomatch h'.symm.trans hs
    | @frame s r out hs _ ih =>
        rcases referenceNext_cases P adler32 s with ⟨h', -⟩ | ⟨h', -⟩ | ⟨n, hlen, hn, hle, h'⟩
        · exact nomatch h'.symm.trans hs
        · exact nomatch h'.symm.trans hs
        · have hr : s.drop (4 + n) = r := (Verdict.frame.inj (h'.symm.trans hs)).2
          exact .frame n hlen hn hle (hr ▸ ih)
  · intro h
    induction h with
    | short h => exact .more (if_pos h)
    | @incomplete s h4 h =>
        have hmore : referenceNext P adler32 s = .more := by
          rcases referenceNext_cases P adler32 s with ⟨h', -⟩ | ⟨-, -, h'⟩ | ⟨n, hn, -, hle, -⟩
          · exact h'
          · omega
          · omega
        exact .more hmore
    | frame n hlen hn hle _ ih =>
        exact .frame (referenceNext_frame P adler32 hlen hn hle) ih

/-- Lengths that are fine in a stream are fine in every prefix of it. -/
theorem HeadLengthsOk.of_append {s t : Bytes} (h : HeadLengthsOk (s ++ t)) : HeadLengthsOk s := by
  have hfault := decode_reference_fault_iff rpcProto zlibAdler32
  refine (hfault s).mp fun hs => (hfault (s ++ t)).mpr h ?_
  rw [Grammar.decode_append_fault _ _ _ hs, hs]

/-- With such lengths the loop and the reference split a stream alike. -/
theorem decode_loop_eq_reference {s : Bytes} (h : HeadLengthsOk s) :
    (loopGrammar P adler32).decode s = (reference P adler32).decode s := by
  induction h with
  | @short s h =>
      have hloop : loopNext P adler32 s = .more := if_pos (by rw [kMinMessageLen]; omega)
      have href : referenceNext P adler32 s = .more := if_pos h
      rw [Grammar.decode_more _ hloop, Grammar.decode_more _ href]
  | @incomplete s h4 h =>
      have hguard := guard_eq (lengthField s) (by omega)
      have hloop : loopNext P adler32 s = .more := by
        rcases loopNext_cases P adler32 s with ⟨h', -⟩ | ⟨-, -, -, h'⟩ | ⟨n, hn, -, hle, -⟩
        · exact h'
        · omega
        · omega
      have href : referenceNext P adler32 s = .more := by
        rcases referenceNext_cases P adler32 s with ⟨h', -⟩ | ⟨-, -, h'⟩ | ⟨n, hn, -, hle, -⟩
        · exact h'
        · omega
        · omega
      rw [Grammar.decode_more _ hloop, Grammar.decode_more _ href]
  | @frame s n hlen hn hle _ ih =>
      have href := referenceNext_frame P adler32 hlen hn hle
      have hloop : loopNext P adler32 s = referenceNext P adler32 s := by
        have := loopNext_append P adler32 hlen hn hle []
        rwa [List.append_nil] at this
      rw [(loopGrammar P adler32).decode_frame (hloop.trans href),
        (reference P adler32).decode_frame href, ih]

/-- The calls of `rpcCallback_` on such a stream. -/
theorem feed_onRead_callbacks {chunks : List Bytes} (h : HeadLengthsOk chunks.flatten) :
    (feed (onRead P adler32) inputBuffer chunks).1
      = ((reference P adler32).decode chunks.flatten).1 := by
  rw [← decode_loop_eq_reference P adler32 h, ← observe_feed_onRead P adler32 chunks, observe]

/-- **REFINEMENT**: whatever part of a stream has been received, in whatever
    pieces, the calls of `rpcCallback_` so far are those of the reference
    decoder on the bytes received, and `inputBuffer_` holds exactly the
    incomplete tail it leaves. -/
theorem onRead_refines_reference (chunks : List Bytes) (hlen : HeadLengthsOk chunks.flatten)
    (received : List Bytes) (hreceived : received <+: chunks) :
    ∃ b : Buffer,
      feed (onRead P adler32) inputBuffer received
        = (((reference P adler32).decode received.flatten).1, .ok b) ∧
      ((reference P adler32).decode received.flatten).2 = some b.content := by
  have hok : HeadLengthsOk received.flatten := by
    obtain ⟨later, rfl⟩ := hreceived
    rw [List.flatten_append] at hlen
    exact hlen.of_append
  have hobs := observe_feed_onRead P adler32 received
  rw [decode_loop_eq_reference P adler32 hok] at hobs
  have hsome := (decode_reference_fault_iff P adler32 received.flatten).mpr hok
  rw [← hobs] at hsome ⊢
  rcases hrun : feed (onRead P adler32) inputBuffer received with ⟨callbacks, a | b⟩
  · rw [hrun] at hsome
    exact absurd rfl hsome
  · exact ⟨b, rfl, rfl⟩

end Refinement

/-- A message with the id 7 whose frame arrives in four pieces, with the first
    byte of another one: the cuts fall inside the length, the message and the
    checksum. -/
theorem onRead_refines_reference_on_pieces :
    ∃ b : Buffer,
      feed (onRead rpcProto zlibAdler32) inputBuffer
          [[0, 0, 0], [13, 17, 7, 0, 0, 0], [0, 0, 0, 0, 0], [218, 0, 25, 9]]
        = ([⟨some { RpcMessage.new with id := 7 }, .kNoError⟩], .ok b) ∧ b.content = [9] := by
  let pieces : List Bytes := [[0, 0, 0], [13, 17, 7, 0, 0, 0], [0, 0, 0, 0, 0], [218, 0, 25, 9]]
  have hdecode : (reference rpcProto zlibAdler32).decode pieces.flatten
      = ([⟨some { RpcMessage.new with id := 7 }, .kNoError⟩], some [9]) := by
    decide +kernel
  obtain ⟨b, hb, htail⟩ := onRead_refines_reference rpcProto zlibAdler32 pieces
    (.frame 13 (by decide) (by decide) (by decide) (.short (by decide))) pieces
    (List.prefix_refl _)
  rw [hdecode] at hb htail
  exact ⟨b, hb, (Option.some.inj htail).symm⟩

end RpcCodecRead
