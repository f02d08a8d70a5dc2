import BoostPractice.BufferDequeProofs

/-! # Numbers and strings through a `Buffer`

    The members that append, look at, read and prepend an integer in network
    order are four families, one member for each width; each family is one
    definition over `NetInt`, and each member that definition at its width.

    `queue_run` is what they are for: whatever numbers and strings are
    appended, they are read back in the order they were appended, while more
    are appended behind them.  As in a `Deque`, sizes are below `2 ^ 63`. -/

namespace BoostBuffer

open MachineInt GuardedRun

/-! ## Numbers in network order -/

/-- An integer type with its bytes in network order. -/
structure NetInt (Val : Type) where
  width : Nat
  toBytes : Val → Bytes
  ofBytes : Bytes → Val
  length_toBytes : ∀ x, (toBytes x).length = width
  ofBytes_toBytes : ∀ x, ofBytes (toBytes x) = x

def netInt64 : NetInt Int64 where
  width := 8
  toBytes x := netBytes 8 x.toUInt64.toNat
  ofBytes bs := (UInt64.ofNat (netNat bs)).toInt64
  length_toBytes _ := length_netBytes 8 _
  ofBytes_toBytes x := by
    have hlt : x.toUInt64.toNat < 256 ^ 8 := x.toUInt64.toNat_lt
    rw [netNat_netBytes, Nat.mod_eq_of_lt hlt, UInt64.ofNat_toNat]
    rfl

def netInt32 : NetInt Int32 where
  width := 4
  toBytes := int32Bytes
  ofBytes := int32Of
  length_toBytes := length_int32Bytes
  ofBytes_toBytes := int32Of_int32Bytes

def netInt16 : NetInt Int16 where
  width := 2
  toBytes x := netBytes 2 x.toUInt16.toNat
  ofBytes bs := (UInt16.ofNat (netNat bs)).toInt16
  length_toBytes _ := length_netBytes 2 _
  ofBytes_toBytes x := by
    have hlt : x.toUInt16.toNat < 256 ^ 2 := x.toUInt16.toNat_lt
    rw [netNat_netBytes, Nat.mod_eq_of_lt hlt, UInt16.ofNat_toNat]
    rfl

def netInt8 : NetInt Int8 where
  width := 1
  toBytes x := netBytes 1 x.toUInt8.toNat
  ofBytes bs := (UInt8.ofNat (netNat bs)).toInt8
  length_toBytes _ := length_netBytes 1 _
  ofBytes_toBytes x := by
    have hlt : x.toUInt8.toNat < 256 ^ 1 := x.toUInt8.toNat_lt
    rw [netNat_netBytes, Nat.mod_eq_of_lt hlt, UInt8.ofNat_toNat]
    rfl

namespace Buffer

section Numbers

variable {Val : Type} (N : NetInt Val) (b : Buffer)

def appendInt (x : Val) : Buffer := b.append (N.toBytes x)

/-- `none` when `assert(readableBytes() >= sizeof(x))` fails. -/
def peekInt : Option Val :=
  if N.width ≤ b.readableBytes then some (N.ofBytes (b.content.take N.width)) else none

def retrieveInt : Option Buffer := b.retrieve N.width

def readInt : Option (Val × Buffer) :=
  (b.peekInt N).bind fun x => (b.retrieveInt N).map (x, ·)

def prependInt (x : Val) : Option Buffer := b.prepend (N.toBytes x)

end Numbers

variable (b : Buffer)

def appendInt64 : Int64 → Buffer := b.appendInt netInt64
def appendInt16 : Int16 → Buffer := b.appendInt netInt16
def appendInt8 : Int8 → Buffer := b.appendInt netInt8

def peekInt64 : Option Int64 := b.peekInt netInt64
def peekInt32 : Option Int32 := b.peekInt netInt32
def peekInt16 : Option Int16 := b.peekInt netInt16
def peekInt8 : Option Int8 := b.peekInt netInt8

def retrieveInt64 : Option Buffer := b.retrieveInt netInt64
def retrieveInt32 : Option Buffer := b.retrieveInt netInt32
def retrieveInt16 : Option Buffer := b.retrieveInt netInt16
def retrieveInt8 : Option Buffer := b.retrieveInt netInt8

/-- It takes eight readable bytes, as `peekInt64` asserts; the source's comment
    on `readInt64` asks for four. -/
def readInt64 : Option (Int64 × Buffer) := b.readInt netInt64
def readInt32 : Option (Int32 × Buffer) := b.readInt netInt32
def readInt16 : Option (Int16 × Buffer) := b.readInt netInt16
def readInt8 : Option (Int8 × Buffer) := b.readInt netInt8

def prependInt64 : Int64 → Option Buffer := b.prependInt netInt64
def prependInt16 : Int16 → Option Buffer := b.prependInt netInt16
def prependInt8 : Int8 → Option Buffer := b.prependInt netInt8

end Buffer

/-- `appendInt32` and `prependInt32` are of the same kind. -/
theorem appendInt32_eq (b : Buffer) : b.appendInt32 = b.appendInt netInt32 := rfl

theorem prependInt32_eq (b : Buffer) : b.prependInt32 = b.prependInt netInt32 := rfl

/-- A number in front of the readable bytes is read, and they are left. -/
theorem readInt_of_content {Val : Type} {N : NetInt Val} {b : Buffer} {x : Val} {rest : Bytes}
    (h : b.content = N.toBytes x ++ rest) :
    ∃ b', b.readInt N = some (x, b') ∧ b'.content = rest := by
  have hwidth : N.width ≤ b.readableBytes := by
    rw [← b.length_content, h, List.length_append, N.length_toBytes]
    exact Nat.le_add_right _ _
  obtain ⟨b', hb', hcontent⟩ := b.retrieve_of_le hwidth
  refine ⟨b', ?_, ?_⟩
  · rw [Buffer.readInt, Buffer.peekInt, if_pos hwidth, h, ← N.length_toBytes x, List.take_left,
      N.ofBytes_toBytes, Option.bind_some, Buffer.retrieveInt, hb']
    rfl
  · rw [hcontent, h, ← N.length_toBytes x, List.drop_left]

/-! ## Items of a stream -/

/-- What is appended to a buffer. -/
inductive Item where
  | int64 (x : Int64)
  | int32 (x : Int32)
  | int16 (x : Int16)
  | int8 (x : Int8)
  | str (bs : Bytes)
  deriving DecidableEq

/-- What a reader asks for. -/
inductive Kind where
  | int64
  | int32
  | int16
  | int8
  | str (len : Nat)
  deriving DecidableEq

def Item.kind : Item → Kind
  | .int64 _ => .int64
  | .int32 _ => .int32
  | .int16 _ => .int16
  | .int8 _ => .int8
  | .str bs => .str bs.length

/-- The calls of the writer and the reader of a stream, and the look at the
    number in front. -/
inductive Call where
  | push (item : Item)
  | peek (kind : Kind)
  | pop (kind : Kind)
  deriving DecidableEq

def Buffer.push (b : Buffer) : Item → Buffer
  | .int64 x => b.appendInt64 x
  | .int32 x => b.appendInt32 x
  | .int16 x => b.appendInt16 x
  | .int8 x => b.appendInt8 x
  | .str bs => b.append bs

def Buffer.peekItem (b : Buffer) : Kind → Option Item
  | .int64 => b.peekInt64.map .int64
  | .int32 => b.peekInt32.map .int32
  | .int16 => b.peekInt16.map .int16
  | .int8 => b.peekInt8.map .int8
  | .str len => if len ≤ b.readableBytes then some (.str (b.content.take len)) else none

def Buffer.popItem (b : Buffer) : Kind → Option (Item × Buffer)
  | .int64 => b.readInt64.map fun r => (.int64 r.1, r.2)
  | .int32 => b.readInt32.map fun r => (.int32 r.1, r.2)
  | .int16 => b.readInt16.map fun r => (.int16 r.1, r.2)
  | .int8 => b.readInt8.map fun r => (.int8 r.1, r.2)
  | .str len => (b.retrieveAsString len).map fun r => (.str r.1, r.2)

/-- One call on a buffer, and the item it returns. -/
def Buffer.call (b : Buffer) : Call → Option (Option Item × Buffer)
  | .push item => some (none, b.push item)
  | .peek kind => (b.peekItem kind).map fun item => (some item, b)
  | .pop kind => (b.popItem kind).map fun r => (some r.1, r.2)

def Item.bytes : Item → Bytes
  | .int64 x => netInt64.toBytes x
  | .int32 x => netInt32.toBytes x
  | .int16 x => netInt16.toBytes x
  | .int8 x => netInt8.toBytes x
  | .str bs => bs

/-- The constructor: no item. -/
def queueNew (initialSize : Nat) : Option (List Item) :=
  if kCheapPrepend + initialSize < 2 ^ 63 then some [] else none

/-- The same call on the items that were appended and not read yet: a reader
    asks for what is in front. -/
def queueCall : List Item → Call → Option (Option Item × List Item)
  | items, .push item =>
      if item.bytes.length < 2 ^ 63 then some (none, items ++ [item]) else none
  | item :: items, .peek kind =>
      if item.kind = kind then some (some item, item :: items) else none
  | item :: items, .pop kind => if item.kind = kind then some (some item, items) else none
  | [], .peek _ => none
  | [], .pop _ => none

/-- The readable bytes are those of the items. -/
def Holds (b : Buffer) (items : List Item) : Prop := b.content = items.flatMap Item.bytes

theorem Buffer.content_push (b : Buffer) (item : Item) :
    (b.push item).content = b.content ++ item.bytes := by
  cases item with
  | int64 x => exact b.content_append _
  | int32 x => exact b.content_append _
  | int16 x => exact b.content_append _
  | int8 x => exact b.content_append _
  | str bs => exact b.content_append bs

/-- A string in front of the readable bytes is retrieved, and they are left. -/
theorem retrieveAsString_of_content {b : Buffer} {bs rest : Bytes} (h : b.content = bs ++ rest) :
    ∃ b', b.retrieveAsString bs.length = some (bs, b') ∧ b'.content = rest := by
  have hle : bs.length ≤ b.readableBytes := by
    rw [← b.length_content, h, List.length_append]
    exact Nat.le_add_right _ _
  obtain ⟨b', hb', hcontent⟩ := b.retrieve_of_le hle
  refine ⟨b', ?_, ?_⟩
  · rw [Buffer.retrieveAsString, if_pos hle, hb', h, List.take_left]
    rfl
  · rw [hcontent, h, List.drop_left]

/-- What is popped is what was looked at. -/
theorem popItem_of_content {b : Buffer} {item : Item} {rest : Bytes}
    (h : b.content = item.bytes ++ rest) :
    ∃ b', b.popItem item.kind = some (item, b') ∧ b'.content = rest := by
  cases item with
  | int64 x =>
      obtain ⟨b', hb', hrest⟩ := readInt_of_content h
      exact ⟨b', congrArg (Option.map _) hb', hrest⟩
  | int32 x =>
      obtain ⟨b', hb', hrest⟩ := readInt_of_content h
      exact ⟨b', congrArg (Option.map _) hb', hrest⟩
  | int16 x =>
      obtain ⟨b', hb', hrest⟩ := readInt_of_content h
      exact ⟨b', congrArg (Option.map _) hb', hrest⟩
  | int8 x =>
      obtain ⟨b', hb', hrest⟩ := readInt_of_content h
      exact ⟨b', congrArg (Option.map _) hb', hrest⟩
  | str bs =>
      obtain ⟨b', hb', hrest⟩ := retrieveAsString_of_content h
      exact ⟨b', congrArg (Option.map _) hb', hrest⟩

/-- Reading a number looks at it first. -/
theorem peekInt_of_readInt {Val : Type} {N : NetInt Val} {b b' : Buffer} {x : Val}
    (h : b.readInt N = some (x, b')) : b.peekInt N = some x := by
  obtain ⟨y, hy, hmap⟩ := Option.bind_eq_some_iff.mp h
  obtain ⟨b₁, -, heq⟩ := Option.map_eq_some_iff.mp hmap
  rw [hy, (Prod.mk.inj heq).1]

theorem peekItem_of_content {b : Buffer} {item : Item} {rest : Bytes}
    (h : b.content = item.bytes ++ rest) : b.peekItem item.kind = some item := by
  cases item with
  | int64 x =>
      obtain ⟨b', hb', -⟩ := readInt_of_content h
      exact congrArg (Option.map _) (peekInt_of_readInt hb')
  | int32 x =>
      obtain ⟨b', hb', -⟩ := readInt_of_content h
      exact congrArg (Option.map _) (peekInt_of_readInt hb')
  | int16 x =>
      obtain ⟨b', hb', -⟩ := readInt_of_content h
      exact congrArg (Option.map _) (peekInt_of_readInt hb')
  | int8 x =>
      obtain ⟨b', hb', -⟩ := readInt_of_content h
      exact congrArg (Option.map _) (peekInt_of_readInt hb')
  | str bs =>
      have hle : bs.length ≤ b.readableBytes := by
        rw [← b.length_content, h, List.length_append]
        exact Nat.le_add_right _ _
      rw [Item.kind, Buffer.peekItem, if_pos hle, h]
      exact congrArg (fun c => some (Item.str c)) List.take_left

/-- **FIRST IN, FIRST OUT**: any sequence of appends, looks and reads, in
    which a reader asks for the kind of item that is in front, runs into no
    assert and returns the items in the order they were appended. -/
theorem queue_run {initialSize : Nat} {calls : List Call} {outs : List (Option Item)}
    {items₀ items : List Item} (hnew : queueNew initialSize = some items₀)
    (h : outputs queueCall items₀ calls = some (outs, items)) :
    ∃ b, outputs Buffer.call (Buffer.new initialSize) calls = some (outs, b) ∧
      Holds b items := by
  have hcall : ∀ b items call out items', Holds b items →
      queueCall items call = some (out, items') →
      ∃ b', Buffer.call b call = some (out, b') ∧ Holds b' items' := by
    intro b items call out items' hb hspec
    cases call with
    | push item =>
        obtain ⟨-, heq⟩ := Option.ite_none_right_eq_some.mp hspec
        obtain ⟨rfl, rfl⟩ := Prod.mk.inj (Option.some.inj heq)
        refine ⟨_, rfl, ?_⟩
        rw [Holds, Buffer.content_push, hb, List.flatMap_append, List.flatMap_singleton]
    | peek kind =>
        cases items with
        | nil => exact nomatch hspec
        | cons item items =>
            obtain ⟨rfl, heq⟩ := Option.ite_none_right_eq_some.mp hspec
            obtain ⟨rfl, rfl⟩ := Prod.mk.inj (Option.some.inj heq)
            refine ⟨b, ?_, hb⟩
            rw [Buffer.call, peekItem_of_content (hb.trans List.flatMap_cons)]
            rfl
    | pop kind =>
        cases items with
        | nil => exact nomatch hspec
        | cons item items =>
            obtain ⟨rfl, heq⟩ := Option.ite_none_right_eq_some.mp hspec
            obtain ⟨rfl, rfl⟩ := Prod.mk.inj (Option.some.inj heq)
            obtain ⟨b', hb', hrest⟩ := popItem_of_content (hb.trans List.flatMap_cons)
            refine ⟨b', ?_, hrest⟩
            rw [Buffer.call, hb']
            rfl
  obtain ⟨-, heq⟩ := Option.ite_none_right_eq_some.mp hnew
  obtain rfl := Option.some.inj heq
  exact outputs_simulates hcall calls _ [] outs items (Buffer.content_new initialSize) h

/-- Numbers of three widths and a string, read while more is appended. -/
def mixedCalls : List Call :=
  [.push (.int32 (-2)), .push (.int64 7), .peek .int32, .pop .int32, .push (.str [1, 2, 3]),
    .pop .int64, .push (.int16 (-1)), .pop (.str 3), .peek .int16, .pop .int16]

theorem queue_run_on_mixed :
    ∃ b, outputs Buffer.call (Buffer.new 4) mixedCalls
        = some ([none, none, some (.int32 (-2)), some (.int32 (-2)), none, some (.int64 7), none,
          some (.str [1, 2, 3]), some (.int16 (-1)), some (.int16 (-1))], b) ∧ Holds b [] := by
  have hqueue : outputs queueCall [] mixedCalls
      = some ([none, none, some (.int32 (-2)), some (.int32 (-2)), none, some (.int64 7), none,
          some (.str [1, 2, 3]), some (.int16 (-1)), some (.int16 (-1))], []) := by
    decide
  exact queue_run (if_pos (by decide)) hqueue

end BoostBuffer
