import BoostPractice.MachineIntProofs

/-! # `Buffer` — the byte buffer under every connection

    `Buffer.h` keeps a `std::vector<char>` and two indices,
    `0 <= readerIndex <= writerIndex <= size`; the structure below carries
    exactly these inequalities, so a buffer with crossed indices cannot be
    built.  Reading goes through `content`, the readable bytes: `append`,
    `retrieve` and `prepend` are characterised on it by ONE equation each,
    and how the vector grew, was compacted or was reset on the way shows in
    none of them.

    An `assert` of the source that a caller can violate is an `Option`; the
    asserts of `ensureWritableBytes` and `makeSpace` are discharged here.  A
    size is a `Nat`: the sums of two `size_t` in `makeSpace` are those of the
    source as long as both are below `2 ^ 63`, more than a vector holds.  A
    caller that asks for `SIZE_MAX` writable bytes makes them wrap, and does
    violate those asserts. -/

namespace BoostBuffer

open MachineInt

/-- Raw bytes, the contents of a `char` array. -/
abbrev Bytes := List UInt8

/-- Room kept in front of the readable bytes for a length prefix. -/
def kCheapPrepend : Nat := 8

def kInitialSize : Nat := 1024

/-- `class Buffer`: `buffer_`, `readerIndex_` and `writerIndex_`. -/
structure Buffer where
  data : Bytes
  readerIndex : Nat
  writerIndex : Nat
  reader_le : readerIndex ≤ writerIndex
  writer_le : writerIndex ≤ data.length
  prepend_le : kCheapPrepend ≤ data.length
  deriving DecidableEq

/-- `explicit Buffer(size_t initialSize = kInitialSize)`. -/
def Buffer.new (initialSize : Nat) : Buffer where
  data := List.replicate (kCheapPrepend + initialSize) 0
  readerIndex := kCheapPrepend
  writerIndex := kCheapPrepend
  reader_le := Nat.le_refl _
  writer_le := by rw [List.length_replicate]; omega
  prepend_le := by rw [List.length_replicate]; omega

namespace Buffer

variable (b : Buffer)

def readableBytes : Nat := b.writerIndex - b.readerIndex

def writableBytes : Nat := b.data.length - b.writerIndex

def prependableBytes : Nat := b.readerIndex

/-- The bytes `[peek(), beginWrite())`. -/
def content : Bytes := (b.data.take b.writerIndex).drop b.readerIndex

@[simp] theorem length_content : b.content.length = b.readableBytes := by
  have := b.writer_le
  simp only [content, readableBytes, List.length_drop, List.length_take]
  omega

@[simp] theorem content_new (n : Nat) : (Buffer.new n).content = [] := by
  apply List.eq_nil_of_length_eq_zero
  rw [length_content, readableBytes, Buffer.new, Nat.sub_self]

end Buffer

/-! ## Writing into the vector -/

/-- `std::copy` of `bs` to the offset `pos` of a vector. -/
def overwrite (data : Bytes) (pos : Nat) (bs : Bytes) : Bytes :=
  data.take pos ++ bs ++ data.drop (pos + bs.length)

theorem length_overwrite {data : Bytes} {pos : Nat} {bs : Bytes}
    (h : pos + bs.length ≤ data.length) :
    (overwrite data pos bs).length = data.length := by
  simp only [overwrite, List.length_append, List.length_take, List.length_drop]
  omega

/-- Up to its end, an overwritten vector is the old prefix and the new bytes. -/
theorem take_overwrite {data : Bytes} {pos : Nat} {bs : Bytes} (h : pos ≤ data.length) :
    (overwrite data pos bs).take (pos + bs.length) = data.take pos ++ bs := by
  have hlen : (data.take pos ++ bs).length = pos + bs.length := by
    rw [List.length_append, List.length_take, Nat.min_eq_left h]
  rw [overwrite, ← hlen, List.take_left]

/-- From the overwritten offset on, it is the new bytes and the old suffix. -/
theorem drop_overwrite {data : Bytes} {pos : Nat} {bs : Bytes} (h : pos ≤ data.length) :
    (overwrite data pos bs).drop pos = bs ++ data.drop (pos + bs.length) := by
  have hlen : (data.take pos).length = pos := by
    rw [List.length_take, Nat.min_eq_left h]
  rw [overwrite, List.append_assoc, List.drop_left' hlen]

/-- `buffer_.resize(n)`: new elements are zero. -/
def resize (data : Bytes) (n : Nat) : Bytes :=
  data.take n ++ List.replicate (n - data.length) 0

theorem length_resize (data : Bytes) (n : Nat) : (resize data n).length = n := by
  simp only [resize, List.length_append, List.length_take, List.length_replicate]
  omega

theorem take_resize {data : Bytes} {n k : Nat} (hk : k ≤ data.length) (hn : data.length ≤ n) :
    (resize data n).take k = data.take k := by
  rw [resize, List.take_of_length_le hn, List.take_append_of_le_length hk]

namespace Buffer

variable (b : Buffer)

/-! ## Making room -/

/-- `makeSpace(len)`, called only when fewer than `len` bytes are writable.
    The second branch moves the readable bytes to the front; its
    `assert(kCheapPrepend < readerIndex_)` follows from the two guards. -/
def makeSpace (len : Nat) (h : b.writableBytes < len) : Buffer :=
  if hroom : b.writableBytes + b.prependableBytes < len + kCheapPrepend then
    { data := resize b.data (b.writerIndex + len)
      readerIndex := b.readerIndex
      writerIndex := b.writerIndex
      reader_le := b.reader_le
      writer_le := by rw [length_resize]; omega
      prepend_le := by
        have := b.prepend_le
        rw [writableBytes] at h
        rw [length_resize]
        omega }
  else
    have hassert : kCheapPrepend < b.readerIndex := by
      rw [prependableBytes] at hroom
      omega
    have hfit : kCheapPrepend + b.content.length ≤ b.data.length := by
      have := b.reader_le
      have := b.writer_le
      rw [length_content, readableBytes]
      omega
    { data := overwrite b.data kCheapPrepend b.content
      readerIndex := kCheapPrepend
      writerIndex := kCheapPrepend + b.readableBytes
      reader_le := Nat.le_add_right _ _
      writer_le := by rw [length_overwrite hfit, ← length_content]; exact hfit
      prepend_le := by rw [length_overwrite hfit]; exact b.prepend_le }

/-- `ensureWritableBytes(len)`. -/
def ensureWritableBytes (len : Nat) : Buffer :=
  if h : b.writableBytes < len then b.makeSpace len h else b

theorem content_makeSpace (len : Nat) (h : b.writableBytes < len) :
    (b.makeSpace len h).content = b.content := by
  rw [makeSpace]
  split
  · rw [writableBytes] at h
    have := b.writer_le
    simp only [content]
    rw [take_resize b.writer_le (by omega)]
  · show ((overwrite b.data kCheapPrepend b.content).take
      (kCheapPrepend + b.readableBytes)).drop kCheapPrepend = b.content
    have hpre : (b.data.take kCheapPrepend).length = kCheapPrepend := by
      rw [List.length_take, Nat.min_eq_left b.prepend_le]
    rw [← length_content, take_overwrite b.prepend_le, List.drop_left' hpre]

@[simp] theorem content_ensureWritableBytes (len : Nat) :
    (b.ensureWritableBytes len).content = b.content := by
  rw [ensureWritableBytes]
  split
  · exact content_makeSpace b len _
  · rfl

/-- `assert(writableBytes() >= len)` at the end of `ensureWritableBytes`. -/
theorem le_writableBytes_ensure (len : Nat) :
    len ≤ (b.ensureWritableBytes len).writableBytes := by
  rw [ensureWritableBytes]
  split
  · next h =>
      rw [makeSpace]
      split
      · simp only [writableBytes, length_resize]
        omega
      · next hroom =>
          have := b.writer_le
          have := b.reader_le
          have hfit : kCheapPrepend + b.content.length ≤ b.data.length := by
            rw [writableBytes, prependableBytes] at hroom
            rw [writableBytes] at h
            rw [length_content, readableBytes]
            omega
          simp only [writableBytes, length_overwrite hfit, readableBytes]
          rw [writableBytes, prependableBytes] at hroom
          omega
  · next h => exact Nat.le_of_not_lt h

/-! ## Appending -/

/-- Copy `bs` to `beginWrite()` and `hasWritten(bs.length)`. -/
def write (bs : Bytes) (h : bs.length ≤ b.writableBytes) : Buffer :=
  have hfit : b.writerIndex + bs.length ≤ b.data.length := by
    have := b.writer_le
    rw [writableBytes] at h
    omega
  { data := overwrite b.data b.writerIndex bs
    readerIndex := b.readerIndex
    writerIndex := b.writerIndex + bs.length
    reader_le := Nat.le_trans b.reader_le (Nat.le_add_right _ _)
    writer_le := by rw [length_overwrite hfit]; exact hfit
    prepend_le := by rw [length_overwrite hfit]; exact b.prepend_le }

theorem content_write (bs : Bytes) (h : bs.length ≤ b.writableBytes) :
    (b.write bs h).content = b.content ++ bs := by
  show ((overwrite b.data b.writerIndex bs).take (b.writerIndex + bs.length)).drop
    b.readerIndex = b.content ++ bs
  have hread : b.readerIndex ≤ (b.data.take b.writerIndex).length := by
    rw [List.length_take, Nat.min_eq_left b.writer_le]
    exact b.reader_le
  rw [take_overwrite b.writer_le, List.drop_append_of_le_length hread, content]

/-- `append(data, len)`. -/
def append (bs : Bytes) : Buffer :=
  (b.ensureWritableBytes bs.length).write bs (b.le_writableBytes_ensure _)

/-- **APPEND** puts its bytes behind the readable ones, whichever way room
    was made. -/
@[simp] theorem content_append (bs : Bytes) : (b.append bs).content = b.content ++ bs := by
  rw [append, content_write, content_ensureWritableBytes]

/-- `appendInt32(x)`: the four bytes of `x` in network order. -/
def appendInt32 (x : Int32) : Buffer := b.append (int32Bytes x)

@[simp] theorem content_appendInt32 (x : Int32) :
    (b.appendInt32 x).content = b.content ++ int32Bytes x := content_append b _

/-- Making room leaves the reader where it is, or moves it to the front. -/
theorem readerIndex_ensureWritableBytes (len : Nat) :
    (b.ensureWritableBytes len).readerIndex = b.readerIndex ∨
      kCheapPrepend < b.readerIndex ∧ (b.ensureWritableBytes len).readerIndex = kCheapPrepend := by
  rw [ensureWritableBytes]
  split
  · next hfew =>
      rw [makeSpace]
      split
      · exact .inl rfl
      · next hroom =>
          refine .inr ⟨?_, rfl⟩
          rw [prependableBytes] at hroom
          omega
  · exact .inl rfl

/-! ## Retrieving -/

/-- `retrieveAll()`: both indices go back to the front. -/
def retrieveAll : Buffer where
  data := b.data
  readerIndex := kCheapPrepend
  writerIndex := kCheapPrepend
  reader_le := Nat.le_refl _
  writer_le := b.prepend_le
  prepend_le := b.prepend_le

@[simp] theorem content_retrieveAll : b.retrieveAll.content = [] := by
  apply List.eq_nil_of_length_eq_zero
  rw [length_content, readableBytes, retrieveAll, Nat.sub_self]

/-- `retrieve(len)`; `none` when `assert(len <= readableBytes())` fails. -/
def retrieve (len : Nat) : Option Buffer :=
  if h : len ≤ b.readableBytes then
    some (if hlt : len < b.readableBytes then
      { data := b.data
        readerIndex := b.readerIndex + len
        writerIndex := b.writerIndex
        reader_le := by rw [readableBytes] at h; have := b.reader_le; omega
        writer_le := b.writer_le
        prepend_le := b.prepend_le }
    else b.retrieveAll)
  else none

/-- **RETRIEVE** drops bytes from the front of the readable ones, whether or
    not it resets the indices. -/
theorem retrieve_of_le {len : Nat} (h : len ≤ b.readableBytes) :
    ∃ b', b.retrieve len = some b' ∧ b'.content = b.content.drop len := by
  rw [retrieve, dif_pos h]
  by_cases hlt : len < b.readableBytes
  · refine ⟨_, by rw [dif_pos hlt], ?_⟩
    simp only [content, List.drop_drop]
  · refine ⟨_, by rw [dif_neg hlt], ?_⟩
    rw [content_retrieveAll, List.drop_of_length_le]
    rw [length_content]
    omega

/-- The reader goes on, or back to the front. -/
theorem readerIndex_retrieve {len : Nat} {b' : Buffer} (h : b.retrieve len = some b') :
    b'.readerIndex = b.readerIndex + len ∨ b'.readerIndex = kCheapPrepend := by
  rw [retrieve] at h
  split at h
  · rw [← Option.some.inj h]
    split
    · exact .inl rfl
    · exact .inr rfl
  · cases h

theorem retrieve_isSome_iff (len : Nat) :
    (b.retrieve len).isSome ↔ len ≤ b.readableBytes := by
  rw [retrieve]
  split
  · next h => exact ⟨fun _ => h, fun _ => rfl⟩
  · next h => exact ⟨fun hs => (Bool.noConfusion hs), fun hle => absurd hle h⟩

/-! ## Prepending -/

/-- `prepend(data, len)`; `none` when `assert(len <= prependableBytes())`
    fails. -/
def prepend (bs : Bytes) : Option Buffer :=
  if h : bs.length ≤ b.prependableBytes then
    have hle : bs.length ≤ b.readerIndex := h
    have hfit : b.readerIndex - bs.length + bs.length ≤ b.data.length := by
      have := b.reader_le
      have := b.writer_le
      omega
    some
      { data := overwrite b.data (b.readerIndex - bs.length) bs
        readerIndex := b.readerIndex - bs.length
        writerIndex := b.writerIndex
        reader_le := Nat.le_trans (Nat.sub_le _ _) b.reader_le
        writer_le := by rw [length_overwrite hfit]; exact b.writer_le
        prepend_le := by rw [length_overwrite hfit]; exact b.prepend_le }
  else none

/-- **PREPEND** puts its bytes in front of the readable ones. -/
theorem prepend_of_le {bs : Bytes} (h : bs.length ≤ b.prependableBytes) :
    ∃ b', b.prepend bs = some b' ∧ b'.content = bs ++ b.content := by
  have hr := b.reader_le
  have hw := b.writer_le
  have hle : bs.length ≤ b.readerIndex := h
  refine ⟨_, by rw [prepend, dif_pos h], ?_⟩
  have hpos : b.readerIndex - bs.length ≤ b.data.length := by omega
  have hend : b.readerIndex - bs.length + bs.length = b.readerIndex := by omega
  have hcount : b.writerIndex - (b.readerIndex - bs.length)
      = bs.length + (b.writerIndex - b.readerIndex) := by omega
  simp only [content]
  rw [List.drop_take, List.drop_take, drop_overwrite hpos, hend, hcount,
    List.take_length_add_append]

theorem content_prepend {bs : Bytes} {b' : Buffer} (h : b.prepend bs = some b') :
    b'.content = bs ++ b.content := by
  by_cases hle : bs.length ≤ b.prependableBytes
  · obtain ⟨b₁, hb₁, hcontent⟩ := b.prepend_of_le hle
    rw [← Option.some.inj (hb₁.symm.trans h), hcontent]
  · rw [prepend, dif_neg hle] at h
    cases h

theorem readerIndex_prepend {bs : Bytes} {b' : Buffer} (h : b.prepend bs = some b') :
    b'.readerIndex + bs.length = b.readerIndex := by
  rw [prepend] at h
  split at h
  · next hle =>
      rw [← Option.some.inj h]
      exact Nat.sub_add_cancel hle
  · cases h

/-- `prependInt32(x)`. -/
def prependInt32 (x : Int32) : Option Buffer := b.prepend (int32Bytes x)

end Buffer

end BoostBuffer
