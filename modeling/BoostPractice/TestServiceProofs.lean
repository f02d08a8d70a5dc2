import BoostPractice.RemoteCallProofs

/-! # The example service: numbers are added up

    `example/server.cpp` registers a `TestService` whose `Add` adds up the
    numbers of a `TestReq`; `example/client.cpp` calls it and prints the
    `TestRes`.

    `add_completes_iff` puts the whole path together: the client gets the sum
    if and only if it is not zero.  A sum of zero is encoded by no bytes, which
    `done_callback` takes for an invalid request.  Protobuf's code for the
    messages of `test.proto` and `rpc.proto` is a parameter; `TestProto` says
    what is used of the former. -/

namespace TestService

open MachineInt BoostBuffer WireFormat RpcMessages RpcCodecRead RpcSession RpcSessionStream
open RemoteCall

/-! ## `test.proto` -/

/-- `TestReq` and `TestRes`. -/
inductive Message where
  | testReq (value : List Int32)
  | testRes (result : Int32)
  deriving DecidableEq

/-- What protobuf promises of the two: what it serializes it parses back, and a
    field is left out exactly where it has its default. -/
structure TestProto (reqProto resProto : Protobuf Message) : Prop where
  req : ∀ value, (reqProto.serialize (.testReq value)).length < 2 ^ 31 →
    reqProto.ParsesBack (.testReq value)
  res : ∀ result, resProto.ParsesBack (.testRes result)
  zero : ∀ result, resProto.serialize (.testRes result) = [] ↔ result = 0

/-! ## The service -/

/-- `TestServiceImpl::Add`, from `result` on; nothing where an addition
    overflows an `int`. -/
def addFrom (result : Int) : List Int32 → Option Int
  | [] => some result
  | x :: xs =>
      if -2 ^ 31 ≤ result + x.toInt ∧ result + x.toInt < 2 ^ 31 then addFrom (result + x.toInt) xs
      else none

/-- The response that the closure is run with. -/
def add : Message → Option Message
  | .testReq value => (addFrom 0 value).map fun result => .testRes (Int32.ofInt result)
  | .testRes _ => none

section Protobuf

variable (reqProto resProto : Protobuf Message)

def addMethod : MethodDescriptor Message := ⟨"Add", "rpc.test.TestService", reqProto, resProto⟩

def testService : Service Message where
  fullName := "rpc.test.TestService"
  methods := [addMethod reqProto resProto]
  methods_service := by
    intro m hm
    rw [List.mem_singleton.mp hm]
    rfl
  names_nodup := List.nodup_singleton _

end Protobuf

theorem addFrom_range {result total : Int} {xs : List Int32}
    (hrange : -2 ^ 31 ≤ result ∧ result < 2 ^ 31) (h : addFrom result xs = some total) :
    -2 ^ 31 ≤ total ∧ total < 2 ^ 31 := by
  induction xs generalizing result with
  | nil =>
      obtain rfl := Option.some.inj h
      exact hrange
  | cons x xs ih =>
      obtain ⟨hrange', hrest⟩ := Option.ite_none_right_eq_some.mp h
      exact ih hrange' hrest

/-- Without an overflow the result is the sum. -/
theorem addFrom_sum {result total : Int} {xs : List Int32} (h : addFrom result xs = some total) :
    total = result + (xs.map Int32.toInt).sum := by
  induction xs generalizing result with
  | nil =>
      obtain rfl := Option.some.inj h
      exact (Int.add_zero _).symm
  | cons x xs ih =>
      obtain ⟨-, hrest⟩ := Option.ite_none_right_eq_some.mp h
      rw [ih hrest, List.map_cons, List.sum_cons, Int.add_assoc]

/-! ## The call -/

section Call

variable {P : Protobuf RpcMessage} {reqProto resProto : Protobuf Message}

/-- **THE SUM ARRIVES, UNLESS IT IS ZERO**: a call of `Add` whose messages fit
    a frame, on any client whose server has the service, completes with the
    sum, however request and reply are cut, if and only if the sum is not
    zero. -/
theorem add_completes_iff (hP : P.ParsesAllBack) (hproto : TestProto reqProto resProto)
    {value : List Int32} {res : Message} (hadd : add (.testReq value) = some res)
    {c : Connection Message}
    (hserver : c.server.services = some (registerServices [testService reqProto resProto]))
    (hclientBuffer : c.clientBuffer.content = []) (hserverBuffer : c.serverBuffer.content = [])
    (hvalue : (reqProto.serialize (.testReq value)).length < 2 ^ 31)
    (hrequest : (P.serialize (requestMessage (addMethod reqProto resProto) (.testReq value)
      c.client.id)).length ≤ 2 ^ 31 - 5)
    (hreply : (P.serialize (doneCallback resProto res c.client.id)).length ≤ 2 ^ 31 - 5)
    (adler32 : Bytes → UInt32) (call : Nat) :
    ∃ result : Int32, res = .testRes result ∧ result.toInt = (value.map Int32.toInt).sum ∧
      (Completes P adler32 c call (testService reqProto resProto) (addMethod reqProto resProto)
        (fun _ => res) (.testReq value) ↔ (value.map Int32.toInt).sum ≠ 0) := by
  obtain ⟨total, htotal, rfl⟩ := Option.map_eq_some_iff.mp hadd
  have hsum := addFrom_sum htotal
  rw [Int.zero_add] at hsum
  obtain ⟨hlow, hhigh⟩ := addFrom_range (by decide) htotal
  have hresult : (Int32.ofInt total).toInt = total :=
    Int32.toInt_ofInt_of_le (by omega) (by omega)
  refine ⟨_, rfl, hresult.trans hsum, ?_⟩
  have hsent := Nat.lt_of_le_of_lt hrequest (show 2 ^ 31 - 5 < 2 ^ 31 by decide)
  have hreplied := Nat.lt_of_le_of_lt hreply (show 2 ^ 31 - 5 < 2 ^ 31 by decide)
  have hnames : ([testService reqProto resProto].map Service.fullName).Nodup :=
    List.nodup_singleton _
  have hcall : Completes P adler32 c call (testService reqProto resProto)
        (addMethod reqProto resProto) (fun _ => .testRes (Int32.ofInt total)) (.testReq value)
      ↔ Fits P (addMethod reqProto resProto) (.testReq value) (.testRes (Int32.ofInt total))
        c.client.id :=
    call_completes_iff P (f := fun _ : Message => .testRes (Int32.ofInt total)) hnames
      List.mem_cons_self List.mem_cons_self (hproto.req value hvalue) (hproto.res _) hserver
      hclientBuffer hserverBuffer (hP _ hsent) (hP _ hreplied) ⟨hsent, hreplied⟩
  -- both messages fit, so that only the empty encoding is left to tell
  have hzero : resProto.serialize (.testRes (Int32.ofInt total)) ≠ [] ↔
      (value.map Int32.toInt).sum ≠ 0 := by
    rw [ne_eq, hproto.zero, ← hsum, ← Int32.toInt_inj, hresult]
    rfl
  rw [hcall, ← hzero]
  exact ⟨And.left, fun hne => ⟨hne, hrequest, hreply⟩⟩

end Call

/-! ## The codec of `test.proto`

    A packed list of numbers, and one number, to run the example with. -/

/-- An `int32` is written as a varint of the sign-extended value. -/
def toVarint (x : Int32) : Nat := (int32ToUInt64 x).toNat

def ofVarint (n : Nat) : Int32 := uint64ToInt32 (UInt64.ofNat n)

/-- `repeated int32 value = 1`, packed. -/
def reqFields (value : List Int32) : List Field :=
  field 1 (value == []) (.bytes (writeVarints (value.map toVarint)))

/-- Numbers are added to the list one at a time or packed; other fields are
    skipped. -/
def mergeValue (value : List Int32) (f : Field) : List Int32 × Bool :=
  match f.number, f.value with
  | 1, .varint n => (value ++ [ofVarint n], true)
  | 1, .bytes bs => (value ++ (readVarints bs).1.map ofVarint, (readVarints bs).2)
  | _, _ => (value, true)

/-- Up to the first error. -/
def mergeValues (value : List Int32) : List Field → List Int32 × Bool
  | [] => (value, true)
  | f :: fs =>
      let merged := mergeValue value f
      if merged.2 then mergeValues merged.1 fs else merged

/-- A codec for `TestReq`; it is given no other message. -/
def reqProto : Protobuf Message where
  serialize
    | .testReq value => writeFields (reqFields value)
    | .testRes _ => []
  parseFromArray bs :=
    let scanned := readFields bs
    let merged := mergeValues [] scanned.1
    (.testReq merged.1, scanned.2 && merged.2)

/-- `int32 result = 1`: the last one counts. -/
def mergeResult (result : Int32) (f : Field) : Int32 :=
  match f.number, f.value with
  | 1, .varint n => ofVarint n
  | _, _ => result

/-- A codec for `TestRes`; it is given no other message. -/
def resProto : Protobuf Message where
  serialize
    | .testReq _ => []
    | .testRes result => writeFields (enumField 1 result)
  parseFromArray bs :=
    let scanned := readFields bs
    (.testRes (scanned.1.foldl mergeResult 0), scanned.2)

theorem ofVarint_toVarint (x : Int32) : ofVarint (toVarint x) = x := by
  rw [ofVarint, toVarint, UInt64.ofNat_toNat, uint64ToInt32_int32ToUInt64]

theorem toVarint_lt (x : Int32) : toVarint x < 2 ^ 64 := (int32ToUInt64 x).toNat_lt

theorem testReq_parsesBack {value : List Int32}
    (hsize : (reqProto.serialize (.testReq value)).length < 2 ^ 31) :
    reqProto.ParsesBack (.testReq value) := by
  have hpacked : readVarints (writeVarints (value.map toVarint)) = (value.map toVarint, true) := by
    refine readVarints_writeVarints ?_
    intro n hn
    obtain ⟨x, -, rfl⟩ := List.mem_map.mp hn
    exact toVarint_lt x
  have hback : (value.map toVarint).map ofVarint = value := by
    rw [List.map_map]
    exact List.map_id'' ofVarint_toVarint value
  have hfit : ∀ f ∈ reqFields value, f.Fits := by
    rintro ⟨number, v⟩ hf
    have hle : (writeField ⟨number, v⟩).length < 2 ^ 31 :=
      Nat.lt_of_le_of_lt (length_writeField_le hf) hsize
    obtain ⟨rfl, rfl⟩ := mem_field hf
    refine ⟨Nat.one_pos, show 1 < 2 ^ 29 by decide, ?_⟩
    show (writeVarints (value.map toVarint)).length < 2 ^ 64
    rw [writeField, writeValue, List.length_append, List.length_append] at hle
    omega
  show (Message.testReq (mergeValues [] (readFields (writeFields (reqFields value))).1).1,
    (readFields (writeFields (reqFields value))).2
      && (mergeValues [] (readFields (writeFields (reqFields value))).1).2) = (.testReq value, true)
  rw [readFields_writeFields hfit]
  cases value with
  | nil => rfl
  | cons x xs =>
      have hmerge : mergeValues [] (reqFields (x :: xs)) = (x :: xs, true) := by
        show (if (readVarints (writeVarints ((x :: xs).map toVarint))).2
          then mergeValues
            ([] ++ (readVarints (writeVarints ((x :: xs).map toVarint))).1.map ofVarint) []
          else _) = _
        rw [hpacked, if_pos rfl, hback]
        rfl
      rw [hmerge]
      rfl

theorem testRes_parsesBack (result : Int32) : resProto.ParsesBack (.testRes result) := by
  have hfit : ∀ f ∈ enumField 1 result, f.Fits := by
    rintro ⟨number, v⟩ hf
    obtain ⟨rfl, rfl⟩ := mem_field hf
    exact ⟨Nat.one_pos, show 1 < 2 ^ 29 by decide, (int32ToUInt64 result).toNat_lt⟩
  show (Message.testRes ((readFields (writeFields (enumField 1 result))).1.foldl mergeResult 0),
    (readFields (writeFields (enumField 1 result))).2) = (.testRes result, true)
  rw [readFields_writeFields hfit]
  by_cases hzero : result = 0
  · rw [hzero]
    rfl
  · have hfields : enumField 1 result = [⟨1, .varint (toVarint result)⟩] := by
      rw [enumField, field, beq_eq_false_iff_ne.mpr hzero]
      rfl
    rw [hfields]
    show (Message.testRes (ofVarint (toVarint result)), true) = _
    rw [ofVarint_toVarint]

/-- Nothing is written exactly for a result of zero. -/
theorem serialize_testRes_eq_nil_iff (result : Int32) :
    resProto.serialize (.testRes result) = [] ↔ result = 0 := by
  show writeFields (enumField 1 result) = [] ↔ result = 0
  by_cases hzero : result = 0
  · rw [hzero]
    exact iff_of_true rfl rfl
  · refine iff_of_false ?_ hzero
    rw [enumField, field, beq_eq_false_iff_ne.mpr hzero]
    exact List.append_ne_nil_of_left_ne_nil (writeField_ne_nil _) _

theorem testProto : TestProto reqProto resProto where
  req _ h := testReq_parsesBack h
  res := testRes_parsesBack
  zero := serialize_testRes_eq_nil_iff

/-- The connection of the example, before the first call. -/
def exampleConnection : Connection Message where
  client := .new
  server := Session.new.setServices (registerServices [testService reqProto resProto])
  clientBuffer := inputBuffer
  serverBuffer := inputBuffer

/-- One and two make three; one and minus one never arrive. -/
theorem add_completes_on_example :
    (∃ result : Int32, Message.testRes 3 = .testRes result ∧ result.toInt = 3 ∧
      (Completes rpcProto zlibAdler32 exampleConnection 0 (testService reqProto resProto)
        (addMethod reqProto resProto) (fun _ => .testRes 3) (.testReq [1, 2])
          ↔ (3 : Int) ≠ 0)) ∧
    ∃ result : Int32, Message.testRes 0 = .testRes result ∧ result.toInt = 0 ∧
      (Completes rpcProto zlibAdler32 exampleConnection 0 (testService reqProto resProto)
        (addMethod reqProto resProto) (fun _ => .testRes 0) (.testReq [1, -1])
          ↔ (0 : Int) ≠ 0) := by
  have hthree : add (.testReq [1, 2]) = some (.testRes 3) := by decide
  have hzero : add (.testReq [1, -1]) = some (.testRes 0) := by decide
  have hservices : exampleConnection.server.services
      = some (registerServices [testService reqProto resProto]) := rfl
  exact ⟨add_completes_iff rpcProto_parsesAllBack testProto hthree hservices
      (Buffer.content_new _) (Buffer.content_new _) (by decide +kernel) (by decide +kernel)
      (by decide +kernel) _ _,
    add_completes_iff rpcProto_parsesAllBack testProto hzero hservices
      (Buffer.content_new _) (Buffer.content_new _) (by decide +kernel) (by decide +kernel)
      (by decide +kernel) _ _⟩

end TestService
