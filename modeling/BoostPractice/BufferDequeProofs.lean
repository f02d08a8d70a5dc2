import BoostPractice.BufferProofs
import BoostPractice.GuardedRunProofs

/-! # `Buffer` as a queue with room at both ends

    The rest of `class Buffer`, and what all of it promises together.  A
    caller sees three things: the readable bytes, how much may be prepended,
    and how much may be written in place.  `Deque` keeps just these, and its
    operations say when a caller may call and what is promised then.

    `buffer_run` relates the two over every sequence of calls: a sequence the
    deque allows runs into no `assert` of the buffer, and every byte returned
    is the deque's.  How the vector is resized, compacted or reset shows
    nowhere.

    The deque allows no size from `2 ^ 63` on: a vector is never that large, so
    that no sum of two sizes wraps around.  `findEOL` and `findCRLF`, which
    return a pointer into the buffer, are left out; `retrieveUntil` takes
    one. -/

namespace BoostBuffer

open MachineInt GuardedRun

/-! ## The other members -/

namespace Buffer

variable (b : Buffer)

/-- `hasWritten(bs.length)` after `bs` was copied to `beginWrite()`; `none`
    when `assert(len <= writableBytes())` fails. -/
def hasWritten (bs : Bytes) : Option Buffer :=
  if h : bs.length ≤ b.writableBytes then some (b.write bs h) else none

/-- `unwrite(len)`; `none` when `assert(len <= readableBytes())` fails. -/
def unwrite (len : Nat) : Option Buffer :=
  if h : len ≤ b.readableBytes then
    some
      { data := b.data
        readerIndex := b.readerIndex
        writerIndex := b.writerIndex - len
        reader_le := by
          have := b.reader_le
          rw [readableBytes] at h
          omega
        writer_le := Nat.le_trans (Nat.sub_le _ _) b.writer_le
        prepend_le := b.prepend_le }
  else none

/-- `retrieveUntil(end)`, with `end` given by its distance from `peek()`. -/
def retrieveUntil (distance : Nat) : Option Buffer := b.retrieve distance

/-- `retrieveAsString(len)`. -/
def retrieveAsString (len : Nat) : Option (Bytes × Buffer) :=
  if len ≤ b.readableBytes then
    (b.retrieve len).map (b.content.take len, ·)
  else none

/-- `retrieveAllAsString()`. -/
def retrieveAllAsString : Option (Bytes × Buffer) := b.retrieveAsString b.readableBytes

/-- `toStringPiece()`: the length goes through an `int`, and a negative one
    is a `std::length_error`. -/
def toStringPiece : Option Bytes :=
  if toInt32 b.readableBytes < 0 then none
  else some (b.content.take (toInt32 b.readableBytes).toNat)

/-- `shrink(reserve)`: the readable bytes, in a new buffer. -/
def shrink (reserve : Nat) : Option Buffer :=
  let other := (Buffer.new kInitialSize).ensureWritableBytes (b.readableBytes + reserve)
  b.toStringPiece.map other.append

end Buffer

/-! ## What a caller may rely on -/

/-- The readable bytes, how many may be prepended, and how many may be
    written in place. -/
structure Deque where
  content : Bytes
  room : Nat
  space : Nat
  deriving DecidableEq

/-- The calls. -/
inductive Op where
  | append (bs : Bytes)
  | ensureWritableBytes (len : Nat)
  | hasWritten (bs : Bytes)
  | unwrite (len : Nat)
  | peek (len : Nat)
  | toStringPiece
  | retrieve (len : Nat)
  | retrieveUntil (distance : Nat)
  | retrieveAll
  | retrieveAsString (len : Nat)
  | retrieveAllAsString
  | prepend (bs : Bytes)
  | shrink (reserve : Nat)
  deriving DecidableEq

/-- What a call does to a buffer and the bytes it returns. -/
def Buffer.step (b : Buffer) : Op → Option (Bytes × Buffer)
  | .append bs => some ([], b.append bs)
  | .ensureWritableBytes len => some ([], b.ensureWritableBytes len)
  | .hasWritten bs => (b.hasWritten bs).map ([], ·)
  | .unwrite len => (b.unwrite len).map ([], ·)
  | .peek len => if len ≤ b.readableBytes then some (b.content.take len, b) else none
  | .toStringPiece => b.toStringPiece.map (·, b)
  | .retrieve len => (b.retrieve len).map ([], ·)
  | .retrieveUntil distance => (b.retrieveUntil distance).map ([], ·)
  | .retrieveAll => some ([], b.retrieveAll)
  | .retrieveAsString len => b.retrieveAsString len
  | .retrieveAllAsString => b.retrieveAllAsString
  | .prepend bs => (b.prepend bs).map ([], ·)
  | .shrink reserve => (b.shrink reserve).map ([], ·)

namespace Deque

variable (q : Deque)

/-- Nothing to read, and the indices at the front. -/
def emptied : Deque where
  content := []
  room := kCheapPrepend
  space := q.space + q.room + q.content.length - kCheapPrepend

def retrieve (len : Nat) : Deque :=
  if len < q.content.length then
    { q with content := q.content.drop len, room := min kCheapPrepend (q.room + len) }
  else q.emptied

/-- What a call does to the queue, and `none` when it is not allowed. -/
def step : Op → Option (Bytes × Deque)
  | .append bs =>
      if bs.length < 2 ^ 63 then
        some ([], { q with content := q.content ++ bs, space := q.space - bs.length })
      else none
  | .ensureWritableBytes len =>
      if len < 2 ^ 63 then some ([], { q with space := max q.space len }) else none
  | .hasWritten bs =>
      if bs.length ≤ q.space then
        some ([], { q with content := q.content ++ bs, space := q.space - bs.length })
      else none
  | .unwrite len =>
      if len ≤ q.content.length then
        some ([], { q with
          content := q.content.take (q.content.length - len), space := q.space + len })
      else none
  | .peek len => if len ≤ q.content.length then some (q.content.take len, q) else none
  | .toStringPiece => if q.content.length < 2 ^ 31 then some (q.content, q) else none
  | .retrieve len => if len ≤ q.content.length then some ([], q.retrieve len) else none
  | .retrieveUntil distance =>
      if distance ≤ q.content.length then some ([], q.retrieve distance) else none
  | .retrieveAll => some ([], q.emptied)
  | .retrieveAsString len =>
      if len ≤ q.content.length then some (q.content.take len, q.retrieve len) else none
  | .retrieveAllAsString => some (q.content, q.emptied)
  | .prepend bs =>
      if bs.length ≤ q.room then
        some ([], { q with content := bs ++ q.content, room := q.room - bs.length })
      else none
  | .shrink reserve =>
      if q.content.length < 2 ^ 31 ∧ q.content.length + reserve < 2 ^ 63 then
        some ([], ⟨q.content, kCheapPrepend, reserve⟩)
      else none

end Deque

/-- What the deque promises, the buffer has. -/
structure Simulates (b : Buffer) (q : Deque) : Prop where
  content : b.content = q.content
  room : q.room ≤ b.readerIndex
  room_le : q.room ≤ kCheapPrepend
  space : q.space ≤ b.writableBytes

/-- What a new buffer of so many bytes promises. -/
def Deque.empty (initialSize : Nat) : Deque := ⟨[], kCheapPrepend, initialSize⟩

/-- The constructor. -/
def Deque.new (initialSize : Nat) : Option Deque :=
  if kCheapPrepend + initialSize < 2 ^ 63 then some (.empty initialSize) else none

theorem simulates_new (initialSize : Nat) :
    Simulates (Buffer.new initialSize) (Deque.empty initialSize) where
  content := Buffer.content_new initialSize
  room := Nat.le_refl _
  room_le := Nat.le_refl _
  space := by
    rw [Buffer.writableBytes, Buffer.new, List.length_replicate, Nat.add_sub_cancel_left]
    exact Nat.le_refl _

/-! ## One call -/

namespace Buffer

variable (b : Buffer)

/-- Making room moves the readable bytes to the front or leaves them. -/
theorem room_ensureWritableBytes (len : Nat) :
    min kCheapPrepend b.readerIndex ≤ (b.ensureWritableBytes len).readerIndex := by
  rcases b.readerIndex_ensureWritableBytes len with hstays | ⟨-, hfront⟩
  · rw [hstays]
    exact Nat.min_le_right _ _
  · rw [hfront]
    exact Nat.min_le_left _ _

/-- It never takes room at the end. -/
theorem writableBytes_ensureWritableBytes (len : Nat) :
    b.writableBytes ≤ (b.ensureWritableBytes len).writableBytes := by
  rcases Nat.lt_or_ge b.writableBytes len with hlt | hge
  · exact Nat.le_trans (Nat.le_of_lt hlt) (b.le_writableBytes_ensure len)
  · rw [ensureWritableBytes, dif_neg (Nat.not_lt.mpr hge)]

theorem writableBytes_write (bs : Bytes) (h : bs.length ≤ b.writableBytes) :
    (b.write bs h).writableBytes = b.writableBytes - bs.length := by
  have hfit : b.writerIndex + bs.length ≤ b.data.length := by
    have := b.writer_le
    rw [writableBytes] at h
    omega
  show (overwrite b.data b.writerIndex bs).length - (b.writerIndex + bs.length) = _
  rw [length_overwrite hfit, writableBytes]
  omega

/-- How far the end of the readable bytes is from the front. -/
theorem readerIndex_add_readableBytes : b.readerIndex + b.readableBytes = b.writerIndex := by
  have := b.reader_le
  rw [readableBytes]
  omega

theorem writerIndex_add_writableBytes : b.writerIndex + b.writableBytes = b.data.length := by
  have := b.writer_le
  rw [writableBytes]
  omega

end Buffer

namespace Simulates

variable {b : Buffer} {q : Deque} (h : Simulates b q)

include h

theorem readableBytes : b.readableBytes = q.content.length := by
  rw [← h.content, Buffer.length_content]

theorem ensureWritableBytes (len : Nat) :
    Simulates (b.ensureWritableBytes len) { q with space := max q.space len } where
  content := by rw [Buffer.content_ensureWritableBytes, h.content]
  room := Nat.le_trans (Nat.le_min.mpr ⟨h.room_le, h.room⟩) (b.room_ensureWritableBytes len)
  room_le := h.room_le
  space := Nat.max_le.mpr
    ⟨Nat.le_trans h.space (b.writableBytes_ensureWritableBytes len), b.le_writableBytes_ensure len⟩

theorem write (bs : Bytes) (hfit : bs.length ≤ b.writableBytes) :
    Simulates (b.write bs hfit)
      { q with content := q.content ++ bs, space := q.space - bs.length } where
  content := by rw [Buffer.content_write, h.content]
  room := h.room
  room_le := h.room_le
  space := by
    rw [Buffer.writableBytes_write]
    exact Nat.sub_le_sub_right h.space _

theorem append (bs : Bytes) :
    Simulates (b.append bs)
      { q with content := q.content ++ bs, space := q.space - bs.length } := by
  have hwrite := (h.ensureWritableBytes bs.length).write bs (b.le_writableBytes_ensure _)
  exact ⟨hwrite.content, hwrite.room, hwrite.room_le,
    Nat.le_trans (Nat.sub_le_sub_right (Nat.le_max_left _ _) _) hwrite.space⟩

theorem unwrite {len : Nat} (hle : len ≤ q.content.length) :
    ∃ b', b.unwrite len = some b' ∧ Simulates b'
      { q with content := q.content.take (q.content.length - len), space := q.space + len } := by
  have hlen : len ≤ b.readableBytes := h.readableBytes ▸ hle
  refine ⟨_, dif_pos hlen, ?_, h.room, h.room_le, ?_⟩
  · have hread := b.readerIndex_add_readableBytes
    rw [← h.content, Buffer.length_content]
    show (b.data.take (b.writerIndex - len)).drop b.readerIndex
      = ((b.data.take b.writerIndex).drop b.readerIndex).take (b.readableBytes - len)
    rw [List.take_drop, List.take_take]
    congr 2
    omega
  · have hwrite := b.writerIndex_add_writableBytes
    have hread := b.readerIndex_add_readableBytes
    have hspace := h.space
    show q.space + len ≤ b.data.length - (b.writerIndex - len)
    omega

/-- What was behind the front is free again. -/
theorem retrieveAll : Simulates b.retrieveAll q.emptied where
  content := Buffer.content_retrieveAll b
  room := Nat.le_refl _
  room_le := Nat.le_refl _
  space := by
    have hread := b.readerIndex_add_readableBytes
    have hwrite := b.writerIndex_add_writableBytes
    have hspace := h.space
    have hroom := h.room
    have hlength := h.readableBytes
    show q.space + q.room + q.content.length - kCheapPrepend ≤ b.data.length - kCheapPrepend
    omega

theorem retrieve {len : Nat} (hle : len ≤ q.content.length) :
    ∃ b', b.retrieve len = some b' ∧ Simulates b' (q.retrieve len) := by
  have hlen : len ≤ b.readableBytes := h.readableBytes ▸ hle
  rw [Buffer.retrieve, dif_pos hlen, Deque.retrieve]
  by_cases hlt : len < q.content.length
  · rw [dif_pos (h.readableBytes ▸ hlt), if_pos hlt]
    refine ⟨_, rfl, ?_, ?_, Nat.min_le_left _ _, h.space⟩
    · show (b.data.take b.writerIndex).drop (b.readerIndex + len) = q.content.drop len
      rw [← List.drop_drop, ← h.content, Buffer.content]
    · exact Nat.le_trans (Nat.min_le_right _ _) (Nat.add_le_add_right h.room len)
  · rw [dif_neg (h.readableBytes ▸ hlt), if_neg hlt]
    exact ⟨_, rfl, h.retrieveAll⟩

theorem retrieveAsString {len : Nat} (hle : len ≤ q.content.length) :
    ∃ b', b.retrieveAsString len = some (q.content.take len, b') ∧
      Simulates b' (q.retrieve len) := by
  obtain ⟨b', hb', hsim⟩ := h.retrieve hle
  refine ⟨b', ?_, hsim⟩
  rw [Buffer.retrieveAsString, if_pos (h.readableBytes ▸ hle), hb', h.content]
  rfl

theorem retrieveAllAsString :
    ∃ b', b.retrieveAllAsString = some (q.content, b') ∧ Simulates b' q.emptied := by
  obtain ⟨b', hb', hsim⟩ := h.retrieveAsString (Nat.le_refl _)
  rw [List.take_length, ← h.readableBytes] at hb'
  rw [Deque.retrieve, if_neg (Nat.lt_irrefl _)] at hsim
  exact ⟨b', hb', hsim⟩

theorem prepend {bs : Bytes} (hle : bs.length ≤ q.room) :
    ∃ b', b.prepend bs = some b' ∧
      Simulates b' { q with content := bs ++ q.content, room := q.room - bs.length } := by
  have hfit : bs.length ≤ b.prependableBytes := Nat.le_trans hle h.room
  obtain ⟨b', hb', hcontent⟩ := b.prepend_of_le hfit
  refine ⟨b', hb', by rw [hcontent, h.content], ?_, ?_, ?_⟩
  · rw [Buffer.prepend, dif_pos hfit] at hb'
    rw [← Option.some.inj hb']
    exact Nat.sub_le_sub_right h.room _
  · exact Nat.le_trans (Nat.sub_le _ _) h.room_le
  · rw [Buffer.prepend, dif_pos hfit] at hb'
    rw [← Option.some.inj hb']
    show q.space ≤ (overwrite b.data (b.readerIndex - bs.length) bs).length - b.writerIndex
    have hread := b.reader_le
    have hwrite := b.writer_le
    have hindex : bs.length ≤ b.readerIndex := hfit
    rw [length_overwrite (by omega)]
    exact h.space

theorem toStringPiece (hlt : q.content.length < 2 ^ 31) : b.toStringPiece = some q.content := by
  have hint : toInt32 b.readableBytes = b.readableBytes :=
    toInt32_of_nonneg (Int.natCast_nonneg _) (by rw [h.readableBytes]; omega)
  rw [Buffer.toStringPiece, hint, if_neg (Int.not_lt.mpr (Int.natCast_nonneg _)), Int.toNat_natCast,
    h.content, h.readableBytes, List.take_length]

/-- The new buffer has the bytes, and the reserve behind them. -/
theorem shrink (hlt : q.content.length < 2 ^ 31) (reserve : Nat) :
    ∃ b', b.shrink reserve = some b' ∧
      Simulates b' ⟨q.content, kCheapPrepend, reserve⟩ := by
  rw [Buffer.shrink, h.toStringPiece hlt]
  have hnew := ((simulates_new kInitialSize).ensureWritableBytes
    (b.readableBytes + reserve)).append q.content
  refine ⟨_, rfl, ?_, hnew.room, hnew.room_le, ?_⟩
  · rw [hnew.content]
    rfl
  · have hspace := hnew.space
    have hmax := Nat.le_max_right (Deque.empty kInitialSize).space (b.readableBytes + reserve)
    have hlength := h.readableBytes
    refine Nat.le_trans ?_ hspace
    show reserve
      ≤ max (Deque.empty kInitialSize).space (b.readableBytes + reserve) - q.content.length
    omega

end Simulates

/-! ## All calls -/

/-- **EVERY CALL** that the deque allows succeeds and returns the same. -/
theorem buffer_step {b : Buffer} {q q' : Deque} {op : Op} {out : Bytes} (h : Simulates b q)
    (hstep : q.step op = some (out, q')) :
    ∃ b', b.step op = some (out, b') ∧ Simulates b' q' := by
  cases op with
  | append bs =>
      obtain ⟨-, heq⟩ := Option.ite_none_right_eq_some.mp hstep
      obtain ⟨rfl, rfl⟩ := Prod.mk.inj (Option.some.inj heq)
      exact ⟨_, rfl, h.append bs⟩
  | ensureWritableBytes len =>
      obtain ⟨-, heq⟩ := Option.ite_none_right_eq_some.mp hstep
      obtain ⟨rfl, rfl⟩ := Prod.mk.inj (Option.some.inj heq)
      exact ⟨_, rfl, h.ensureWritableBytes len⟩
  | hasWritten bs =>
      obtain ⟨hle, heq⟩ := Option.ite_none_right_eq_some.mp hstep
      obtain ⟨rfl, rfl⟩ := Prod.mk.inj (Option.some.inj heq)
      have hfit : bs.length ≤ b.writableBytes := Nat.le_trans hle h.space
      refine ⟨_, ?_, h.write bs hfit⟩
      rw [Buffer.step, Buffer.hasWritten, dif_pos hfit]
      rfl
  | unwrite len =>
      obtain ⟨hle, heq⟩ := Option.ite_none_right_eq_some.mp hstep
      obtain ⟨rfl, rfl⟩ := Prod.mk.inj (Option.some.inj heq)
      obtain ⟨b', hb', hsim⟩ := h.unwrite hle
      exact ⟨b', by rw [Buffer.step, hb']; rfl, hsim⟩
  | peek len =>
      obtain ⟨hle, heq⟩ := Option.ite_none_right_eq_some.mp hstep
      obtain ⟨rfl, rfl⟩ := Prod.mk.inj (Option.some.inj heq)
      refine ⟨b, ?_, h⟩
      rw [Buffer.step, if_pos (h.readableBytes ▸ hle), h.content]
  | toStringPiece =>
      obtain ⟨hlt, heq⟩ := Option.ite_none_right_eq_some.mp hstep
      obtain ⟨rfl, rfl⟩ := Prod.mk.inj (Option.some.inj heq)
      exact ⟨b, by rw [Buffer.step, h.toStringPiece hlt]; rfl, h⟩
  | retrieve len =>
      obtain ⟨hle, heq⟩ := Option.ite_none_right_eq_some.mp hstep
      obtain ⟨rfl, rfl⟩ := Prod.mk.inj (Option.some.inj heq)
      obtain ⟨b', hb', hsim⟩ := h.retrieve hle
      exact ⟨b', by rw [Buffer.step, hb']; rfl, hsim⟩
  | retrieveUntil distance =>
      obtain ⟨hle, heq⟩ := Option.ite_none_right_eq_some.mp hstep
      obtain ⟨rfl, rfl⟩ := Prod.mk.inj (Option.some.inj heq)
      obtain ⟨b', hb', hsim⟩ := h.retrieve hle
      exact ⟨b', by rw [Buffer.step, Buffer.retrieveUntil, hb']; rfl, hsim⟩
  | retrieveAll =>
      obtain ⟨rfl, rfl⟩ := Prod.mk.inj (Option.some.inj hstep)
      exact ⟨_, rfl, h.retrieveAll⟩
  | retrieveAsString len =>
      obtain ⟨hle, heq⟩ := Option.ite_none_right_eq_some.mp hstep
      obtain ⟨rfl, rfl⟩ := Prod.mk.inj (Option.some.inj heq)
      exact h.retrieveAsString hle
  | retrieveAllAsString =>
      obtain ⟨rfl, rfl⟩ := Prod.mk.inj (Option.some.inj hstep)
      exact h.retrieveAllAsString
  | prepend bs =>
      obtain ⟨hle, heq⟩ := Option.ite_none_right_eq_some.mp hstep
      obtain ⟨rfl, rfl⟩ := Prod.mk.inj (Option.some.inj heq)
      obtain ⟨b', hb', hsim⟩ := h.prepend hle
      exact ⟨b', by rw [Buffer.step, hb']; rfl, hsim⟩
  | shrink reserve =>
      obtain ⟨⟨hlt, -⟩, heq⟩ := Option.ite_none_right_eq_some.mp hstep
      obtain ⟨rfl, rfl⟩ := Prod.mk.inj (Option.some.inj heq)
      obtain ⟨b', hb', hsim⟩ := h.shrink hlt reserve
      exact ⟨b', by rw [Buffer.step, hb']; rfl, hsim⟩

/-- **A BUFFER IS A DEQUE**: any sequence of calls that the deque allows runs
    into no assert of a new buffer, and returns what the deque returns. -/
theorem buffer_run {initialSize : Nat} {ops : List Op} {outs : List Bytes} {q₀ q : Deque}
    (hnew : Deque.new initialSize = some q₀)
    (h : outputs Deque.step q₀ ops = some (outs, q)) :
    ∃ b, outputs Buffer.step (Buffer.new initialSize) ops = some (outs, b) ∧ Simulates b q := by
  have hcall : ∀ b q op out q', Simulates b q → Deque.step q op = some (out, q') →
      ∃ b', Buffer.step b op = some (out, b') ∧ Simulates b' q' :=
    fun _ _ _ _ _ hsim hstep => buffer_step hsim hstep
  obtain ⟨-, heq⟩ := Option.ite_none_right_eq_some.mp hnew
  obtain rfl := Option.some.inj heq
  exact outputs_simulates hcall ops _ _ outs q (simulates_new initialSize) h

/-- A frame built in a buffer of four bytes, the length put in front of it
    once it is known, and read back in two parts. -/
def frameCalls : List Op :=
  [.ensureWritableBytes 6, .hasWritten [1, 2, 3], .append [4, 5, 6, 7], .unwrite 1,
    .prepend [0, 0, 0, 6], .retrieveAsString 4, .peek 2, .shrink 1, .retrieveAsString 6]

theorem buffer_run_on_frame :
    ∃ b q, outputs Buffer.step (Buffer.new 4) frameCalls
        = some ([[], [], [], [], [], [0, 0, 0, 6], [1, 2], [], [1, 2, 3, 4, 5, 6]], b) ∧
      Simulates b q := by
  have hdeque : outputs Deque.step (Deque.empty 4) frameCalls
      = some ([[], [], [], [], [], [0, 0, 0, 6], [1, 2], [], [1, 2, 3, 4, 5, 6]], ⟨[], 8, 7⟩) := by
    decide
  obtain ⟨b, hb, hsim⟩ := buffer_run (if_pos (by decide)) hdeque
  exact ⟨b, _, hb, hsim⟩

end BoostBuffer
