import BoostPractice.RpcCodecReadProofs

/-! # When the decoder can go on

    The guard of `on_read` compares the readable bytes with
    `sizeof(int32_t) + len`, a `size_t`: a length below -4 is converted to a
    number near `2 ^ 64`, and the loop waits for that many bytes.  Nothing
    that is ever received satisfies it.

    `can_progress_iff` says from which reachable states some continuation of
    the input leads to another call of `rpcCallback_`: from those whose
    buffered bytes are, or can still become, a length of at least 4. -/

namespace RpcCodecProgress

open MachineInt FrameDecoding BoostBuffer RpcMessages RpcCodecRead

section Decoder

variable {M : Type} (P : Protobuf M) (adler32 : Bytes → UInt32)

/-- A state of `inputBuffer_` that some input leads to. -/
def Buffered (b : Buffer) : Prop :=
  ∃ chunks, (feed (onRead P adler32) inputBuffer chunks).2 = .ok b

/-- **PROGRESS**: some further input, in some pieces, leads to another call
    of `rpcCallback_` with fewer than `2 ^ 63` bytes buffered. -/
def CanProgress (b : Buffer) : Prop :=
  ∃ more : List Bytes, (b.content ++ more.flatten).length < 2 ^ 63 ∧
    (feed (onRead P adler32) b more).1 ≠ []

/-- What is buffered at the head of a frame is a length of at least 4, or
    the beginning of one. -/
def HeadOk (s : Bytes) : Prop :=
  (∀ x ∈ s.head?, x.toNat < 128) ∧ (4 ≤ s.length → 4 ≤ (lengthField s).toInt)

/-! ## The length field and its first byte -/

/-- The length field of four bytes and more. -/
theorem toInt_lengthField (a b c d : UInt8) (t : Bytes) :
    (lengthField (a :: b :: c :: d :: t)).toInt
      = toInt32 ((a.toNat * 16777216 + b.toNat * 65536 + c.toNat * 256 + d.toNat : Nat) : Int) := by
  rw [← netNat_four, ← toInt_int32Of]
  rfl

/-- A length that is not negative has a small first byte. -/
theorem head_of_lengthField {s : Bytes} (h4 : 4 ≤ s.length) (h : 0 ≤ (lengthField s).toInt) :
    ∀ x ∈ s.head?, x.toNat < 128 := by
  rcases s with _ | ⟨a, _ | ⟨b, _ | ⟨c, _ | ⟨d, t⟩⟩⟩⟩
  · simp at h4
  · simp at h4
  · simp at h4
  · simp at h4
  · intro x hx
    obtain rfl := Option.some.inj hx
    rw [toInt_lengthField, toInt32, Int.bmod_def] at h
    have hb := b.toNat_lt
    have hc := c.toNat_lt
    have hd := d.toNat_lt
    have ha := a.toNat_lt
    split at h
    · omega
    · omega

/-- The rest of a length that begins with fewer than four bytes. -/
def completion (s : Bytes) : Bytes := [0, 255, 255, 255].drop s.length

/-- With a small first byte it makes a length of at least 255. -/
theorem lengthField_completion {s : Bytes} (hlt : s.length < 4)
    (hhead : ∀ x ∈ s.head?, x.toNat < 128) (t : Bytes) :
    (s ++ completion s).length = 4 ∧ 255 ≤ (lengthField (s ++ completion s ++ t)).toInt := by
  have hbig (a b c : UInt8) (ha : a.toNat < 128) :
      255 ≤ (lengthField (a :: b :: c :: 255 :: t)).toInt := by
    have hb := b.toNat_lt
    have hc := c.toNat_lt
    have hd : (255 : UInt8).toNat = 255 := rfl
    rw [toInt_lengthField, toInt32_of_nonneg (by omega) (by omega)]
    omega
  rcases s with _ | ⟨a, _ | ⟨b, _ | ⟨c, _ | ⟨d, t⟩⟩⟩⟩
  · exact ⟨rfl, hbig 0 255 255 (by decide)⟩
  · exact ⟨rfl, hbig a 255 255 (hhead a rfl)⟩
  · exact ⟨rfl, hbig a b 255 (hhead a rfl)⟩
  · exact ⟨rfl, hbig a b c (hhead a rfl)⟩
  · simp at hlt
    omega

/-! ## What a reachable state waits for -/

/-- The loop has been left, for want of bytes. -/
theorem next_of_buffered {b : Buffer} (h : Buffered P adler32 b) :
    loopNext P adler32 b.content = .more := by
  obtain ⟨chunks, hrun⟩ := h
  have hobs := observe_feed_onRead P adler32 chunks
  rw [observe, hrun] at hobs
  exact (loopGrammar P adler32).next_decode_tail chunks.flatten b.content
    (congrArg Prod.snd hobs).symm

/-- What is called next is decided by the bytes, not by their pieces. -/
theorem observe_feed_buffered {b : Buffer} (h : Buffered P adler32 b) (more : List Bytes) :
    observe Buffer.content (feed (onRead P adler32) b more)
      = (loopGrammar P adler32).decode (b.content ++ more.flatten) :=
  observe_feed (observe_onRead P adler32) more b (next_of_buffered P adler32 h)

/-- A frame at the head of what has been received is a callback. -/
theorem callbacks_ne_nil_iff (s : Bytes) :
    ((loopGrammar P adler32).decode s).1 ≠ [] ↔
      ∃ n : Nat, (lengthField s).toInt = n ∧ 4 ≤ n ∧ 4 + n ≤ s.length := by
  rcases loopNext_cases P adler32 s with ⟨h, hwait⟩ | ⟨h, -, -, hlen⟩ | ⟨n, hlen, hn, hle, h⟩
  · rw [(loopGrammar P adler32).decode_more h]
    refine iff_of_false (fun hne => hne rfl) ?_
    rintro ⟨n, hlen, hn, hle⟩
    have hguard := guard_eq (lengthField s) (by omega)
    rw [kMinMessageLen] at hwait
    omega
  · rw [(loopGrammar P adler32).decode_fault h]
    refine iff_of_false (fun hne => hne rfl) ?_
    rintro ⟨n, hlen', hn, -⟩
    omega
  · rw [(loopGrammar P adler32).decode_frame h]
    exact iff_of_true (List.cons_ne_nil _ _) ⟨n, hlen, hn, hle⟩

/-- So a state can progress if its bytes can be continued to a frame. -/
theorem can_progress_iff_frame {b : Buffer} (h : Buffered P adler32 b) :
    CanProgress P adler32 b ↔ ∃ (t : Bytes) (n : Nat), (b.content ++ t).length < 2 ^ 63 ∧
      (lengthField (b.content ++ t)).toInt = n ∧ 4 ≤ n ∧ 4 + n ≤ (b.content ++ t).length := by
  have hcallbacks (more : List Bytes) : (feed (onRead P adler32) b more).1 ≠ [] ↔
      ∃ n : Nat, (lengthField (b.content ++ more.flatten)).toInt = n ∧ 4 ≤ n ∧
        4 + n ≤ (b.content ++ more.flatten).length := by
    rw [← callbacks_ne_nil_iff P adler32, ← observe_feed_buffered P adler32 h, observe]
  constructor
  · rintro ⟨more, hmem, hne⟩
    obtain ⟨n, hframe⟩ := (hcallbacks more).mp hne
    exact ⟨more.flatten, n, hmem, hframe⟩
  · rintro ⟨t, n, hmem, hframe⟩
    have hflat : [t].flatten = t := List.append_nil t
    exact ⟨[t], by rw [hflat]; exact hmem, (hcallbacks [t]).mpr ⟨n, by rw [hflat]; exact hframe⟩⟩

/-- **PROGRESS, EXACTLY**: from a reachable state some continuation of the
    input leads to another callback if and only if what is buffered is, or
    can become, a length of at least 4. -/
theorem can_progress_iff {b : Buffer} (h : Buffered P adler32 b) :
    CanProgress P adler32 b ↔ HeadOk b.content := by
  rw [can_progress_iff_frame P adler32 h]
  constructor
  · rintro ⟨t, n, -, hlen, hn, hle⟩
    constructor
    · intro x hx
      have hhead := head_of_lengthField (s := b.content ++ t) (by omega) (by omega)
      exact hhead x (by rw [List.head?_append, Option.mem_def.mp hx]; rfl)
    · intro h4
      rw [← lengthField_append h4 t]
      omega
  · rintro ⟨hhead, hfield⟩
    by_cases h4 : 4 ≤ b.content.length
    · -- the length is there: send as many bytes as it says
      have hlen : (lengthField b.content).toInt = (lengthField b.content).toInt.toNat :=
        (Int.toNat_of_nonneg (Int.le_trans (by decide) (hfield h4))).symm
      have hlt := (lengthField b.content).toInt_lt
      have hfew : b.content.length < 4 + (lengthField b.content).toInt.toNat := by
        rcases loopNext_cases P adler32 b.content with ⟨-, hwait⟩ | ⟨hnext, -⟩ |
          ⟨n, -, -, -, hnext⟩
        · have hguard := guard_eq (lengthField b.content) (by omega)
          rw [kMinMessageLen] at hwait
          have := hfield h4
          omega
        · cases (next_of_buffered P adler32 h).symm.trans hnext
        · cases (next_of_buffered P adler32 h).symm.trans hnext
      refine ⟨List.replicate (4 + (lengthField b.content).toInt.toNat) 0,
        (lengthField b.content).toInt.toNat, ?_, ?_, ?_, ?_⟩
      · rw [List.length_append, List.length_replicate]
        omega
      · rw [lengthField_append h4, ← hlen]
      · have := hfield h4
        omega
      · rw [List.length_append, List.length_replicate]
        omega
    · -- complete the length first
      have hshort : b.content.length < 4 := Nat.lt_of_not_le h4
      obtain ⟨hfour, hbig⟩ := lengthField_completion hshort hhead []
      rw [List.append_nil] at hbig
      have hlt := (lengthField (b.content ++ completion b.content)).toInt_lt
      refine ⟨completion b.content ++ List.replicate
          (lengthField (b.content ++ completion b.content)).toInt.toNat 0,
        (lengthField (b.content ++ completion b.content)).toInt.toNat, ?_, ?_, ?_, ?_⟩
      · rw [← List.append_assoc, List.length_append, hfour, List.length_replicate]
        omega
      · rw [← List.append_assoc, lengthField_append (Nat.le_of_eq hfour.symm)]
        omega
      · omega
      · rw [← List.append_assoc, List.length_append, hfour, List.length_replicate]

/-- Any bytes that the loop waits on are what some reachable state buffers. -/
theorem buffered_of_next {s : Bytes} (h : loopNext P adler32 s = .more) :
    ∃ b : Buffer, Buffered P adler32 b ∧ b.content = s := by
  have hobs := observe_feed_onRead P adler32 [s]
  have hflat : [s].flatten = s := List.append_nil s
  rw [hflat, (loopGrammar P adler32).decode_more h, observe] at hobs
  obtain ⟨-, htail⟩ := Prod.mk.inj hobs
  obtain ⟨b, hb, hcontent⟩ := Option.map_eq_some_iff.mp htail
  refine ⟨b, ⟨[s], ?_⟩, hcontent⟩
  cases hrun : (feed (onRead P adler32) inputBuffer [s]).2 with
  | error a =>
      rw [hrun] at hb
      cases hb
  | ok b' =>
      rw [hrun] at hb
      exact congrArg Except.ok (Option.some.inj hb)

/-- Below -4 the guard asks for more bytes than fit into memory. -/
theorem next_of_wedged {s : Bytes} (h : (lengthField s).toInt < -4) (hmem : s.length < 2 ^ 63) :
    loopNext P adler32 s = .more := by
  rcases loopNext_cases P adler32 s with ⟨hmore, -⟩ | ⟨-, -, hguard, -⟩ | ⟨n, hn, -, -, -⟩
  · exact hmore
  · have hlow := (lengthField s).le_toInt
    rw [toSizeT] at hguard
    omega
  · omega

/-- **WEDGED**: with such a length at the head all further input is buffered,
    and nothing is called. -/
theorem feed_wedged {b : Buffer} (h : Buffered P adler32 b) (h4 : 4 ≤ b.content.length)
    (hlen : (lengthField b.content).toInt < -4) {more : List Bytes}
    (hmem : (b.content ++ more.flatten).length < 2 ^ 63) :
    observe Buffer.content (feed (onRead P adler32) b more)
      = ([], some (b.content ++ more.flatten)) := by
  have hfield : (lengthField (b.content ++ more.flatten)).toInt < -4 := by
    rw [lengthField_append h4]
    exact hlen
  rw [observe_feed_buffered P adler32 h]
  exact (loopGrammar P adler32).decode_more (next_of_wedged P adler32 hfield hmem)

end Decoder

/-- Two bytes of a length, both 0. -/
theorem can_progress_two_bytes :
    ∃ b : Buffer, b.content = [0, 0] ∧
      (CanProgress rpcProto zlibAdler32 b ↔ HeadOk b.content) := by
  have hnext : loopNext rpcProto zlibAdler32 [0, 0] = .more := by
    rw [loopNext, if_pos (by decide)]
  obtain ⟨b, hb, hcontent⟩ := buffered_of_next rpcProto zlibAdler32 hnext
  exact ⟨b, hcontent, can_progress_iff rpcProto zlibAdler32 hb⟩

/-- A first length field of `-2 ^ 31`: the decoder never calls back again. -/
theorem wedged_by_negative_length :
    ∃ b : Buffer, Buffered rpcProto zlibAdler32 b ∧ b.content = [128, 0, 0, 0] ∧
      ¬ CanProgress rpcProto zlibAdler32 b ∧
      ∀ more : List Bytes, (b.content ++ more.flatten).length < 2 ^ 63 →
        observe Buffer.content (feed (onRead rpcProto zlibAdler32) b more)
          = ([], some (b.content ++ more.flatten)) := by
  have hnext : loopNext rpcProto zlibAdler32 [128, 0, 0, 0] = .more := by
    rw [loopNext, if_pos (by decide)]
  obtain ⟨b, hb, hcontent⟩ := buffered_of_next rpcProto zlibAdler32 hnext
  have hwedged : ∀ more : List Bytes, (b.content ++ more.flatten).length < 2 ^ 63 →
      observe Buffer.content (feed (onRead rpcProto zlibAdler32) b more)
        = ([], some (b.content ++ more.flatten)) := fun more hmem =>
    feed_wedged rpcProto zlibAdler32 hb (by rw [hcontent]; decide) (by rw [hcontent]; decide) hmem
  refine ⟨b, hb, hcontent, ?_, hwedged⟩
  rintro ⟨more, hmem, hne⟩
  exact hne (congrArg Prod.fst (hwedged more hmem))

end RpcCodecProgress
