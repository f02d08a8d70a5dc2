import BoostPractice.MachineIntProofs

/-! # The protobuf wire format

    A serialized message is a sequence of fields, each a tag (field number
    and wire type) and a value: a base-128 varint, eight or four fixed bytes,
    or a varint length and that many bytes.  `readFields` scans any byte
    string: it returns the fields before the first error and whether the
    string was read to its end.

    `readFields_writeFields` is the ROUND TRIP for every list of fields whose
    numbers fit their tags; what a message type makes of its fields is left
    to the message type. -/

namespace WireFormat

open MachineInt

/-- The value of a field, by wire type. -/
inductive Value where
  | varint (n : Nat)
  | fixed64 (n : Nat)
  | bytes (bs : List UInt8)
  | fixed32 (n : Nat)
  deriving DecidableEq

structure Field where
  number : Nat
  value : Value
  deriving DecidableEq

def Value.wireType : Value → Nat
  | .varint _ => 0
  | .fixed64 _ => 1
  | .bytes _ => 2
  | .fixed32 _ => 5

/-! ## Varints -/

/-- A varint is at most ten bytes long. -/
def maxVarintBytes : Nat := 10

/-- The base-128 digits of `n`, least significant first, each but the last
    with its top bit set. -/
def varintDigits : Nat → Nat → List UInt8
  | 0, _ => []
  | k + 1, n =>
      if n < 128 then [UInt8.ofNat n] else UInt8.ofNat (n % 128 + 128) :: varintDigits k (n / 128)

/-- Read up to `k` digits off the front. -/
def scanVarint : Nat → List UInt8 → Option (Nat × List UInt8)
  | 0, _ => none
  | _ + 1, [] => none
  | k + 1, b :: bs =>
      if b.toNat < 128 then some (b.toNat, bs)
      else
        match scanVarint k bs with
        | none => none
        | some (n, rest) => some (b.toNat - 128 + 128 * n, rest)

def writeVarint (n : Nat) : List UInt8 := varintDigits maxVarintBytes n

def readVarint (bs : List UInt8) : Option (Nat × List UInt8) := scanVarint maxVarintBytes bs

theorem scanVarint_varintDigits :
    ∀ (k n : Nat) (rest : List UInt8), n < 128 ^ (k + 1) →
      scanVarint (k + 1) (varintDigits (k + 1) n ++ rest) = some (n, rest) := by
  intro k
  induction k with
  | zero =>
      intro n rest h
      have hlt : n < 128 := h
      have hn : (UInt8.ofNat n).toNat = n :=
        UInt8.toNat_ofNat_of_lt' (Nat.lt_trans hlt (by decide))
      rw [varintDigits, if_pos hlt]
      show (if (UInt8.ofNat n).toNat < 128 then some ((UInt8.ofNat n).toNat, rest) else _) = _
      rw [hn, if_pos hlt]
  | succ k ih =>
      intro n rest h
      rw [varintDigits]
      by_cases hlt : n < 128
      · have hn : (UInt8.ofNat n).toNat = n :=
        UInt8.toNat_ofNat_of_lt' (Nat.lt_trans hlt (by decide))
        rw [if_pos hlt]
        show (if (UInt8.ofNat n).toNat < 128 then some ((UInt8.ofNat n).toNat, rest) else _) = _
        rw [hn, if_pos hlt]
      · have hdigit : (UInt8.ofNat (n % 128 + 128)).toNat = n % 128 + 128 :=
          UInt8.toNat_ofNat_of_lt' (by show n % 128 + 128 < 256; omega)
        have hdiv : n / 128 < 128 ^ (k + 1) := by
          rw [Nat.div_lt_iff_lt_mul (by omega), ← Nat.pow_succ]
          exact h
        rw [if_neg hlt, List.cons_append, scanVarint, hdigit, if_neg (by omega), ih _ _ hdiv]
        simp only [Option.some.injEq, Prod.mk.injEq, and_true]
        omega

theorem readVarint_writeVarint {n : Nat} (h : n < 2 ^ 64) (rest : List UInt8) :
    readVarint (writeVarint n ++ rest) = some (n, rest) :=
  scanVarint_varintDigits 9 n rest (Nat.lt_of_lt_of_le h (by decide))

theorem writeVarint_ne_nil (n : Nat) : writeVarint n ≠ [] := by
  rw [writeVarint, maxVarintBytes, varintDigits]
  split <;> exact List.cons_ne_nil _ _

/-! ## Fields -/

/-- `w` bytes, least significant first. -/
def writeFixed (w n : Nat) : List UInt8 := (netBytes w n).reverse

def readFixed (w : Nat) (bs : List UInt8) : Option (Nat × List UInt8) :=
  if w ≤ bs.length then some (netNat (bs.take w).reverse, bs.drop w) else none

def writeValue : Value → List UInt8
  | .varint n => writeVarint n
  | .fixed64 n => writeFixed 8 n
  | .bytes bs => writeVarint bs.length ++ bs
  | .fixed32 n => writeFixed 4 n

def writeField (f : Field) : List UInt8 :=
  writeVarint (f.number * 8 + f.value.wireType) ++ writeValue f.value

/-- The bytes of a length-delimited value. -/
def readDelimited (bs : List UInt8) : Option (List UInt8 × List UInt8) :=
  match readVarint bs with
  | none => none
  | some (n, rest) => if n ≤ rest.length then some (rest.take n, rest.drop n) else none

/-- A value of the given wire type; groups and reserved types are errors. -/
def readValue (wireType : Nat) (bs : List UInt8) : Option (Value × List UInt8) :=
  match wireType with
  | 0 => (readVarint bs).map fun x => (.varint x.1, x.2)
  | 1 => (readFixed 8 bs).map fun x => (.fixed64 x.1, x.2)
  | 2 => (readDelimited bs).map fun x => (.bytes x.1, x.2)
  | 5 => (readFixed 4 bs).map fun x => (.fixed32 x.1, x.2)
  | _ => none

/-- A field; the number 0 is an error. -/
def readField (bs : List UInt8) : Option (Field × List UInt8) :=
  match readVarint bs with
  | none => none
  | some (tag, rest) =>
      if tag / 8 = 0 then none
      else (readValue (tag % 8) rest).map fun x => (⟨tag / 8, x.1⟩, x.2)

def readFieldsN : Nat → List UInt8 → List Field × Bool
  | 0, bs => ([], bs.isEmpty)
  | _ + 1, [] => ([], true)
  | k + 1, b :: bs =>
      match readField (b :: bs) with
      | none => ([], false)
      | some (f, rest) => (f :: (readFieldsN k rest).1, (readFieldsN k rest).2)

/-- The fields before the first error, and whether there was none. -/
def readFields (bs : List UInt8) : List Field × Bool := readFieldsN bs.length bs

def writeFields (fs : List Field) : List UInt8 := fs.flatMap writeField

/-- A value fits the width of its wire type. -/
def Value.Fits : Value → Prop
  | .varint n => n < 2 ^ 64
  | .fixed64 n => n < 2 ^ 64
  | .bytes bs => bs.length < 2 ^ 64
  | .fixed32 n => n < 2 ^ 32

/-- A field number fits its tag and its value its wire type. -/
def Field.Fits (f : Field) : Prop := 0 < f.number ∧ f.number < 2 ^ 29 ∧ f.value.Fits

theorem readFixed_writeFixed {w n : Nat} (h : n < 256 ^ w) (rest : List UInt8) :
    readFixed w (writeFixed w n ++ rest) = some (n, rest) := by
  have hlen : (writeFixed w n).length = w := by
    rw [writeFixed, List.length_reverse, length_netBytes]
  rw [readFixed, if_pos (by rw [List.length_append, hlen]; omega), List.take_left' hlen,
    List.drop_left' hlen, writeFixed, List.reverse_reverse, netNat_netBytes, Nat.mod_eq_of_lt h]

theorem readValue_writeValue {v : Value} (h : v.Fits) (rest : List UInt8) :
    readValue v.wireType (writeValue v ++ rest) = some (v, rest) := by
  cases v with
  | varint n =>
      rw [Value.wireType, writeValue, readValue, readVarint_writeVarint h]
      rfl
  | fixed64 n =>
      rw [Value.wireType, writeValue, readValue, readFixed_writeFixed h]
      rfl
  | bytes bs =>
      rw [Value.wireType, writeValue, readValue, List.append_assoc, readDelimited,
        readVarint_writeVarint h]
      simp only [List.length_append, Nat.le_add_right, if_true, List.take_left, List.drop_left]
      rfl
  | fixed32 n =>
      rw [Value.wireType, writeValue, readValue, readFixed_writeFixed h]
      rfl

theorem wireType_lt (v : Value) : v.wireType < 8 := by
  cases v <;> simp [Value.wireType]

theorem readField_writeField {f : Field} (h : f.Fits) (rest : List UInt8) :
    readField (writeField f ++ rest) = some (f, rest) := by
  obtain ⟨hpos, hnum, hval⟩ := h
  have hw := wireType_lt f.value
  have hdiv : (f.number * 8 + f.value.wireType) / 8 = f.number := by omega
  have hmod : (f.number * 8 + f.value.wireType) % 8 = f.value.wireType := by omega
  rw [writeField, List.append_assoc, readField, readVarint_writeVarint (by omega)]
  simp only [hdiv, hmod, if_neg (Nat.ne_of_gt hpos), readValue_writeValue hval]
  rfl

theorem writeField_ne_nil (f : Field) : writeField f ≠ [] := by
  rw [writeField]
  exact List.append_ne_nil_of_left_ne_nil (writeVarint_ne_nil _) _

theorem readFieldsN_writeFields :
    ∀ (fs : List Field) (k : Nat), (∀ f ∈ fs, f.Fits) → fs.length ≤ k →
      readFieldsN k (writeFields fs) = (fs, true) := by
  intro fs
  induction fs with
  | nil =>
      intro k _ _
      cases k <;> rfl
  | cons f fs ih =>
      intro k h hk
      cases k with
      | zero => exact absurd hk (by simp)
      | succ k =>
          have hne : writeField f ++ writeFields fs ≠ [] :=
            List.append_ne_nil_of_left_ne_nil (writeField_ne_nil f) _
          obtain ⟨b, bs, hcons⟩ := List.exists_cons_of_ne_nil hne
          have hread : readField (b :: bs) = some (f, writeFields fs) := by
            rw [← hcons]
            exact readField_writeField (h f List.mem_cons_self) _
          have hrest := ih k (fun g hg => h g (List.mem_cons_of_mem _ hg))
            (Nat.le_of_succ_le_succ hk)
          show readFieldsN (k + 1) (writeField f ++ writeFields fs) = _
          rw [hcons, readFieldsN, hread]
          simp only [hrest]

theorem length_le_writeFields (fs : List Field) : fs.length ≤ (writeFields fs).length := by
  induction fs with
  | nil => exact Nat.zero_le _
  | cons f fs ih =>
      have hpos : 0 < (writeField f).length := List.length_pos_iff.mpr (writeField_ne_nil f)
      show fs.length + 1 ≤ (writeField f ++ writeFields fs).length
      rw [List.length_append]
      omega

/-- **ROUND TRIP** for a list of fields. -/
theorem readFields_writeFields {fs : List Field} (h : ∀ f ∈ fs, f.Fits) :
    readFields (writeFields fs) = (fs, true) :=
  readFieldsN_writeFields fs _ h (length_le_writeFields fs)

/-- A field is no longer than the message it is written into. -/
theorem length_writeField_le {f : Field} {fs : List Field} (h : f ∈ fs) :
    (writeField f).length ≤ (writeFields fs).length := by
  induction fs with
  | nil => exact nomatch h
  | cons g fs ih =>
      show (writeField f).length ≤ (writeField g ++ writeFields fs).length
      rw [List.length_append]
      rcases List.mem_cons.mp h with heq | hmem
      · rw [heq]
        omega
      · have := ih hmem
        omega

/-! ## Packed repeated fields

    The numbers of a packed field are varints one behind the other, in the
    bytes of one field. -/

def writeVarints (ns : List Nat) : List UInt8 := ns.flatMap writeVarint

def readVarintsN : Nat → List UInt8 → List Nat × Bool
  | 0, bs => ([], bs.isEmpty)
  | _ + 1, [] => ([], true)
  | k + 1, b :: bs =>
      match readVarint (b :: bs) with
      | none => ([], false)
      | some (n, rest) => (n :: (readVarintsN k rest).1, (readVarintsN k rest).2)

/-- The numbers before the first error, and whether there was none. -/
def readVarints (bs : List UInt8) : List Nat × Bool := readVarintsN bs.length bs

theorem readVarintsN_writeVarints :
    ∀ (ns : List Nat) (k : Nat), (∀ n ∈ ns, n < 2 ^ 64) → ns.length ≤ k →
      readVarintsN k (writeVarints ns) = (ns, true) := by
  intro ns
  induction ns with
  | nil =>
      intro k _ _
      cases k with
      | zero => rfl
      | succ k => rfl
  | cons n ns ih =>
      intro k h hk
      cases k with
      | zero => exact absurd hk (Nat.not_succ_le_zero _)
      | succ k =>
          obtain ⟨b, bs, hcons⟩ := List.exists_cons_of_ne_nil
            (List.append_ne_nil_of_left_ne_nil (writeVarint_ne_nil n) (writeVarints ns))
          have hread : readVarint (b :: bs) = some (n, writeVarints ns) := by
            rw [← hcons]
            exact readVarint_writeVarint (h n List.mem_cons_self) _
          have hrest := ih k (fun m hm => h m (List.mem_cons_of_mem _ hm))
            (Nat.le_of_succ_le_succ hk)
          show readVarintsN (k + 1) (writeVarint n ++ writeVarints ns) = _
          rw [hcons, readVarintsN, hread]
          simp only [hrest]

theorem length_le_writeVarints (ns : List Nat) : ns.length ≤ (writeVarints ns).length := by
  induction ns with
  | nil => exact Nat.zero_le _
  | cons n ns ih =>
      have hpos : 0 < (writeVarint n).length := List.length_pos_iff.mpr (writeVarint_ne_nil n)
      show ns.length + 1 ≤ (writeVarint n ++ writeVarints ns).length
      rw [List.length_append]
      omega

/-- **ROUND TRIP** for the numbers of a packed field. -/
theorem readVarints_writeVarints {ns : List Nat} (h : ∀ n ∈ ns, n < 2 ^ 64) :
    readVarints (writeVarints ns) = (ns, true) :=
  readVarintsN_writeVarints ns _ h (length_le_writeVarints ns)

end WireFormat
