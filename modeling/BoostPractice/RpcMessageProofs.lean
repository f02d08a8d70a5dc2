import BoostPractice.BufferProofs
import BoostPractice.WireFormatProofs

/-! # `RpcMessage` — the message of `rpc.proto`

    The codec and the session use a message only through its fields and
    through protobuf's `serialize` and `ParseFromArray`, so the results are
    stated over any `Protobuf` whose parse undoes its serialization on the
    messages in play.

    `rpcProto` is such a one, to run the programs with: it writes and reads
    back the fields of `rpc.proto` as proto3 does.  No result is about it; on
    bytes that no serializer writes the generated code may differ. -/

namespace RpcMessages

open MachineInt BoostBuffer WireFormat

/-- What protobuf's generated code does for a message type: serialization,
    and `ParseFromArray` into a new message with the value it returns. -/
structure Protobuf (M : Type) where
  serialize : M → Bytes
  parseFromArray : Bytes → M × Bool

/-- Parsing undoes serialization on this message. -/
def Protobuf.ParsesBack {M : Type} (P : Protobuf M) (m : M) : Prop :=
  P.parseFromArray (P.serialize m) = (m, true)

/-- What protobuf promises of a message type: what it serializes, at most
    `2 ^ 31 - 1` bytes, it parses back. -/
def Protobuf.ParsesAllBack {M : Type} (P : Protobuf M) : Prop :=
  ∀ m, (P.serialize m).length < 2 ^ 31 → P.ParsesBack m

/-! ## The message -/

/-- `enum MessageType`; a proto3 enum is open, any value can arrive. -/
structure MessageType where
  value : Int32
  deriving DecidableEq

def MessageType.request : MessageType := ⟨0⟩
def MessageType.response : MessageType := ⟨1⟩
def MessageType.error : MessageType := ⟨2⟩

/-- `enum ErrorCode`. -/
structure ErrorCode where
  value : Int32
  deriving DecidableEq

def ErrorCode.noError : ErrorCode := ⟨0⟩
def ErrorCode.invalidRequest : ErrorCode := ⟨1⟩
def ErrorCode.noService : ErrorCode := ⟨2⟩
def ErrorCode.noMethod : ErrorCode := ⟨3⟩
def ErrorCode.invalidChecksum : ErrorCode := ⟨4⟩

/-- `message RpcMessage`. -/
structure RpcMessage where
  type : MessageType
  id : UInt64
  service : String
  method : String
  request : Bytes
  response : Bytes
  error : ErrorCode
  deriving DecidableEq

/-- `RpcMessage::default_instance().New()`. -/
def RpcMessage.new : RpcMessage where
  type := .request
  id := 0
  service := ""
  method := ""
  request := []
  response := []
  error := .noError

/-! ## Its proto3 encoding

    A field that has its default value is not written; an enum is a varint of
    the sign-extended value; a string must be UTF-8 to be read. -/

/-- One optional field. -/
def field (number : Nat) (isDefault : Bool) (value : Value) : List Field :=
  if isDefault then [] else [⟨number, value⟩]

def utf8Bytes (s : String) : Bytes := s.toUTF8.data.toList

def ofUtf8Bytes (bs : Bytes) : Option String := String.fromUTF8? ⟨bs.toArray⟩

def enumField (number : Nat) (x : Int32) : List Field :=
  field number (x == 0) (.varint (int32ToUInt64 x).toNat)

def idField (number : Nat) (x : UInt64) : List Field :=
  field number (x == 0) (.fixed64 x.toNat)

def stringField (number : Nat) (s : String) : List Field :=
  field number (s == "") (.bytes (utf8Bytes s))

def bytesField (number : Nat) (bs : Bytes) : List Field :=
  field number (bs == []) (.bytes bs)

/-- The fields of a message, in field order. -/
def RpcMessage.fields (m : RpcMessage) : List Field :=
  enumField 1 m.type.value ++ idField 2 m.id ++ stringField 3 m.service ++
    stringField 4 m.method ++ bytesField 5 m.request ++ bytesField 6 m.response ++
    enumField 7 m.error.value

/-- Store one field; a field of another number or wire type is skipped, and a
    string that is not UTF-8 is an error. -/
def RpcMessage.merge (m : RpcMessage) (f : Field) : Option RpcMessage :=
  match f.number, f.value with
  | 1, .varint n => some { m with type := ⟨uint64ToInt32 (UInt64.ofNat n)⟩ }
  | 2, .fixed64 n => some { m with id := UInt64.ofNat n }
  | 3, .bytes bs => (ofUtf8Bytes bs).map fun s => { m with service := s }
  | 4, .bytes bs => (ofUtf8Bytes bs).map fun s => { m with method := s }
  | 5, .bytes bs => some { m with request := bs }
  | 6, .bytes bs => some { m with response := bs }
  | 7, .varint n => some { m with error := ⟨uint64ToInt32 (UInt64.ofNat n)⟩ }
  | _, _ => some m

/-- Store fields until the first error. -/
def RpcMessage.mergeAll (m : RpcMessage) : List Field → RpcMessage × Bool
  | [] => (m, true)
  | f :: fs =>
      match m.merge f with
      | none => (m, false)
      | some m' => m'.mergeAll fs

/-- A codec for `RpcMessage`. -/
def rpcProto : Protobuf RpcMessage where
  serialize m := writeFields m.fields
  parseFromArray bs :=
    let scanned := readFields bs
    let merged := RpcMessage.new.mergeAll scanned.1
    (merged.1, scanned.2 && merged.2)

theorem ofUtf8Bytes_utf8Bytes (s : String) : ofUtf8Bytes (utf8Bytes s) = some s := by
  have hbytes : (⟨(utf8Bytes s).toArray⟩ : ByteArray) = s.toByteArray := by
    simp [utf8Bytes, String.toUTF8]
  rw [ofUtf8Bytes, hbytes, String.fromUTF8?, dif_pos s.isValidUTF8]
  rfl

/-- Reading an optional field back: either it was written, or the message
    still has the default. -/
theorem mergeAll_field (m m' : RpcMessage) {number : Nat} {isDefault : Bool} {v : Value}
    {fs : List Field} (hdefault : isDefault = true → m = m')
    (hmerge : m.merge ⟨number, v⟩ = some m') :
    m.mergeAll (field number isDefault v ++ fs) = m'.mergeAll fs := by
  cases h : isDefault with
  | true =>
      rw [hdefault h]
      rfl
  | false =>
      show RpcMessage.mergeAll m (⟨number, v⟩ :: fs) = m'.mergeAll fs
      rw [RpcMessage.mergeAll, hmerge]

theorem mergeAll_fields (m : RpcMessage) : RpcMessage.new.mergeAll m.fields = (m, true) := by
  obtain ⟨⟨type⟩, id, service, method, request, response, ⟨error⟩⟩ := m
  have hint (x : Int32) : uint64ToInt32 (UInt64.ofNat (int32ToUInt64 x).toNat) = x := by
    rw [UInt64.ofNat_toNat, uint64ToInt32_int32ToUInt64]
  have hutf8 (s : String) : ofUtf8Bytes (utf8Bytes s) = some s := ofUtf8Bytes_utf8Bytes s
  simp only [RpcMessage.fields, List.append_assoc, enumField, idField, stringField, bytesField]
  -- one field at a time, in the order they were written
  rw [mergeAll_field RpcMessage.new ⟨⟨type⟩, 0, "", "", [], [], ⟨0⟩⟩
      (fun h => by rw [beq_iff_eq.mp h]; rfl) (by simp only [RpcMessage.merge, hint]; rfl),
    mergeAll_field _ ⟨⟨type⟩, id, "", "", [], [], ⟨0⟩⟩
      (fun h => by rw [beq_iff_eq.mp h]) (by simp only [RpcMessage.merge, UInt64.ofNat_toNat]),
    mergeAll_field _ ⟨⟨type⟩, id, service, "", [], [], ⟨0⟩⟩
      (fun h => by rw [beq_iff_eq.mp h]) (by simp only [RpcMessage.merge, hutf8]; rfl),
    mergeAll_field _ ⟨⟨type⟩, id, service, method, [], [], ⟨0⟩⟩
      (fun h => by rw [beq_iff_eq.mp h]) (by simp only [RpcMessage.merge, hutf8]; rfl),
    mergeAll_field _ ⟨⟨type⟩, id, service, method, request, [], ⟨0⟩⟩
      (fun h => by rw [beq_iff_eq.mp h]) (by simp only [RpcMessage.merge]),
    mergeAll_field _ ⟨⟨type⟩, id, service, method, request, response, ⟨0⟩⟩
      (fun h => by rw [beq_iff_eq.mp h]) (by simp only [RpcMessage.merge])]
  rw [← List.append_nil (field 7 _ _),
    mergeAll_field _ ⟨⟨type⟩, id, service, method, request, response, ⟨error⟩⟩
      (fun h => by rw [beq_iff_eq.mp h]) (by simp only [RpcMessage.merge, hint])]
  rfl

theorem mem_field {f : Field} {number : Nat} {isDefault : Bool} {v : Value}
    (h : f ∈ field number isDefault v) : f.number = number ∧ f.value = v := by
  cases isDefault with
  | true => exact nomatch h
  | false =>
      rw [List.mem_singleton.mp h]
      exact ⟨rfl, rfl⟩

/-- Numbers are small, and a value is a 64-bit number or a byte string. -/
theorem mem_fields {m : RpcMessage} {f : Field} (h : f ∈ m.fields) :
    0 < f.number ∧ f.number < 8 ∧
      ((∃ x : UInt64, f.value = .varint x.toNat) ∨ (∃ x : UInt64, f.value = .fixed64 x.toNat) ∨
        ∃ bs, f.value = .bytes bs) := by
  simp only [RpcMessage.fields, List.mem_append] at h
  rcases h with (((((h | h) | h) | h) | h) | h) | h
  all_goals obtain ⟨hn, hv⟩ := mem_field h
  · exact ⟨by omega, by omega, Or.inl ⟨_, hv⟩⟩
  · exact ⟨by omega, by omega, Or.inr (Or.inl ⟨_, hv⟩)⟩
  · exact ⟨by omega, by omega, Or.inr (Or.inr ⟨_, hv⟩)⟩
  · exact ⟨by omega, by omega, Or.inr (Or.inr ⟨_, hv⟩)⟩
  · exact ⟨by omega, by omega, Or.inr (Or.inr ⟨_, hv⟩)⟩
  · exact ⟨by omega, by omega, Or.inr (Or.inr ⟨_, hv⟩)⟩
  · exact ⟨by omega, by omega, Or.inl ⟨_, hv⟩⟩

/-- What is written for a message of serializable size fits the wire format. -/
theorem fields_fit {m : RpcMessage} (h : (rpcProto.serialize m).length < 2 ^ 64) :
    ∀ f ∈ m.fields, f.Fits := by
  rintro ⟨number, value⟩ hf
  have hle : (writeField ⟨number, value⟩).length < 2 ^ 64 :=
    Nat.lt_of_le_of_lt (length_writeField_le hf) h
  obtain ⟨hpos, hlt, ⟨x, hx⟩ | ⟨x, hx⟩ | ⟨bs, hx⟩⟩ := mem_fields hf
  · refine ⟨hpos, Nat.lt_trans hlt (by decide), ?_⟩
    rw [hx]
    exact x.toNat_lt
  · refine ⟨hpos, Nat.lt_trans hlt (by decide), ?_⟩
    rw [hx]
    exact x.toNat_lt
  · refine ⟨hpos, Nat.lt_trans hlt (by decide), ?_⟩
    -- the byte string is part of what was written
    have hx' : value = .bytes bs := hx
    rw [hx', writeField, writeValue, List.length_append, List.length_append] at hle
    rw [hx]
    show bs.length < 2 ^ 64
    omega

/-- **PARSE UNDOES SERIALIZE** for every message of serializable size. -/
theorem rpcProto_parsesBack {m : RpcMessage} (h : (rpcProto.serialize m).length < 2 ^ 64) :
    rpcProto.ParsesBack m := by
  show (((RpcMessage.new.mergeAll (readFields (writeFields m.fields)).1).1,
    (readFields (writeFields m.fields)).2
      && (RpcMessage.new.mergeAll (readFields (writeFields m.fields)).1).2)) = (m, true)
  rw [readFields_writeFields (fields_fit h)]
  simp only [mergeAll_fields, Bool.and_self]

theorem rpcProto_parsesAllBack : rpcProto.ParsesAllBack :=
  fun _ h => rpcProto_parsesBack (Nat.lt_trans h (by decide))

end RpcMessages
