import Mathlib.Data.ZMod.Basic
import BoostPractice.RpcCodecSendProofs
import BoostPractice.RunningSumsProofs

/-! # Frames that are damaged on the way

    `validate_checksum` compares zlib's Adler-32 of the payload with the
    number behind it.  Adler-32 is a pair of running sums modulo a prime above
    256, so that one byte in place of another and two neighbours in the other
    order change it; `corruption_detected` follows such a damage from the
    frame that `send_rpc_msg` built to the callback of `on_read`. -/

namespace RpcCodecCorruption

open MachineInt FrameDecoding BoostBuffer RpcMessages RpcCodecRead RpcCodecSend RunningSums

/-! ## Adler-32 as running sums -/

/-- The values that Adler-32 adds up. -/
def residues (buf : Bytes) : List (ZMod 65521) := buf.map fun x => (x.toNat : ZMod 65521)

theorem residue_ne {x y : UInt8} (h : x ≠ y) : (x.toNat : ZMod 65521) ≠ (y.toNat : ZMod 65521) := by
  intro heq
  have hx := x.toNat_lt
  have hy := y.toNat_lt
  rw [ZMod.natCast_eq_natCast_iff', Nat.mod_eq_of_lt (by omega), Nat.mod_eq_of_lt (by omega)] at heq
  exact h (UInt8.toNat_inj.mp heq)

/-- The sums that `zlibAdler32` computes with naturals. -/
def adlerSums (s : Nat × Nat) (buf : Bytes) : Nat × Nat :=
  buf.foldl (fun (ab : Nat × Nat) x =>
    ((ab.1 + x.toNat) % 65521, (ab.2 + (ab.1 + x.toNat) % 65521) % 65521)) s

/-- They are the running sums of the residues. -/
theorem adlerSums_cast (buf : Bytes) (s : Nat × Nat) :
    (((adlerSums s buf).1 : ZMod 65521), ((adlerSums s buf).2 : ZMod 65521))
      = sums ((s.1 : ZMod 65521), (s.2 : ZMod 65521)) (residues buf) := by
  induction buf generalizing s with
  | nil => rfl
  | cons x buf ih =>
      have hnext : ∀ n : Nat, ((n % 65521 : Nat) : ZMod 65521) = (n : ZMod 65521) :=
        fun n => ZMod.natCast_mod n 65521
      have hread : sums ((s.1 : ZMod 65521), (s.2 : ZMod 65521)) (residues (x :: buf))
          = sums (next ((s.1 : ZMod 65521), (s.2 : ZMod 65521)) x.toNat) (residues buf) := rfl
      rw [adlerSums, List.foldl_cons, ← adlerSums, ih, hread]
      simp only [next, hnext, Nat.cast_add]

theorem adlerSums_lt (buf : Bytes) {s : Nat × Nat} (hs : s.1 < 65521 ∧ s.2 < 65521) :
    (adlerSums s buf).1 < 65521 ∧ (adlerSums s buf).2 < 65521 := by
  induction buf generalizing s with
  | nil => exact hs
  | cons x buf ih => exact ih ⟨Nat.mod_lt _ (by decide), Nat.mod_lt _ (by decide)⟩

/-- Payloads with one checksum have the same sums. -/
theorem sums_of_zlibAdler32 {buf buf' : Bytes} (h : zlibAdler32 buf = zlibAdler32 buf') :
    sums (1, 0) (residues buf) = sums (1, 0) (residues buf') := by
  have hlt := adlerSums_lt buf (s := (1, 0)) ⟨by decide, by decide⟩
  have hlt' := adlerSums_lt buf' (s := (1, 0)) ⟨by decide, by decide⟩
  have hnat : (adlerSums (1, 0) buf).2 * 65536 + (adlerSums (1, 0) buf).1
      = (adlerSums (1, 0) buf').2 * 65536 + (adlerSums (1, 0) buf').1 := by
    have hvalue := congrArg UInt32.toNat h
    rw [zlibAdler32, zlibAdler32, UInt32.toNat_ofNat', UInt32.toNat_ofNat'] at hvalue
    change ((adlerSums (1, 0) buf).2 * 65536 + (adlerSums (1, 0) buf).1) % 2 ^ 32
      = ((adlerSums (1, 0) buf').2 * 65536 + (adlerSums (1, 0) buf').1) % 2 ^ 32 at hvalue
    rwa [Nat.mod_eq_of_lt (by omega), Nat.mod_eq_of_lt (by omega)] at hvalue
  have hfst : (adlerSums (1, 0) buf).1 = (adlerSums (1, 0) buf').1 := by omega
  have hsnd : (adlerSums (1, 0) buf).2 = (adlerSums (1, 0) buf').2 := by omega
  have hcast := adlerSums_cast buf (1, 0)
  rw [hfst, hsnd, adlerSums_cast buf' (1, 0)] at hcast
  simpa using hcast.symm

/-- **ONE BYTE** of a payload in place of another changes its checksum. -/
theorem zlibAdler32_replaced (before after : Bytes) {x y : UInt8} (h : x ≠ y) :
    zlibAdler32 (before ++ x :: after) ≠ zlibAdler32 (before ++ y :: after) := by
  intro heq
  have hsums := sums_of_zlibAdler32 heq
  simp only [residues, List.map_append, List.map_cons] at hsums
  exact sums_replaced _ _ _ (residue_ne h) hsums

/-- **TWO NEIGHBOURS** in the other order change it too. -/
theorem zlibAdler32_swapped (before after : Bytes) {x y : UInt8} (h : x ≠ y) :
    zlibAdler32 (before ++ x :: y :: after) ≠ zlibAdler32 (before ++ y :: x :: after) := by
  intro heq
  have hsums := sums_of_zlibAdler32 heq
  simp only [residues, List.map_append, List.map_cons] at hsums
  exact sums_swapped _ _ _ (residue_ne h) hsums

/-! ## Damaged frames -/

/-- A frame with a payload of `n` bytes, damaged behind its length: one byte
    of the payload or of the checksum is another one, or two neighbours in the
    payload have changed places. -/
inductive Corrupted (n : Nat) : Bytes → Bytes → Prop where
  | replaced (before after : Bytes) {x y : UInt8} : x ≠ y → 4 ≤ before.length →
      Corrupted n (before ++ x :: after) (before ++ y :: after)
  | swapped (before after : Bytes) {x y : UInt8} : x ≠ y → 4 ≤ before.length →
      before.length + 2 ≤ 4 + n →
      Corrupted n (before ++ x :: y :: after) (before ++ y :: x :: after)

/-- The checksum field does not say what the payload's checksum is. -/
def Mismatch (payload sum : Bytes) : Prop := netNat sum ≠ (zlibAdler32 payload).toNat

/-- The number in a checksum field that was not damaged. -/
theorem netNat_checksum (payload : Bytes) :
    netNat (int32Bytes (zlibAdler32 payload).toInt32) = (zlibAdler32 payload).toNat :=
  (checksum_beq_iff (length_int32Bytes _) _).mp
    (by rw [int32Of_int32Bytes]; exact beq_self_eq_true _)

/-- Another payload with the old checksum. -/
theorem mismatch_of_payload {payload payload' : Bytes}
    (h : zlibAdler32 payload ≠ zlibAdler32 payload') :
    Mismatch payload' (int32Bytes (zlibAdler32 payload).toInt32) := by
  rw [Mismatch, netNat_checksum]
  exact fun heq => h (UInt32.toNat_inj.mp heq)

/-- Another checksum with the old payload. -/
theorem mismatch_of_sum {payload sum : Bytes} (hlength : sum.length = 4)
    (h : sum ≠ int32Bytes (zlibAdler32 payload).toInt32) : Mismatch payload sum := by
  intro heq
  rw [← netNat_checksum] at heq
  exact h (netNat_inj (hlength.trans (length_int32Bytes _).symm) heq)

/-- A place in a list that consists of two is in the one or in the other. -/
theorem append_eq_append_cons {α : Type} {as bs before after : List α} {x : α}
    (h : as ++ bs = before ++ x :: after) :
    (∃ mid, as = before ++ x :: mid ∧ after = mid ++ bs) ∨
      ∃ mid, before = as ++ mid ∧ bs = mid ++ x :: after := by
  rcases List.append_eq_append_iff.mp h with ⟨mid, hbefore, hbs⟩ | ⟨mid, has, hcons⟩
  · exact .inr ⟨mid, hbefore, hbs⟩
  · cases mid with
    | nil => exact .inr ⟨[], by simpa using has.symm, by simpa using hcons.symm⟩
    | cons z mid =>
        obtain ⟨rfl, rfl⟩ := List.cons.inj hcons
        exact .inl ⟨mid, has, rfl⟩

/-- **A DAMAGED FRAME** still has its length, a payload and a checksum field,
    which do not fit together any more. -/
theorem mismatch_of_corrupted {len : Int32} {payload f : Bytes}
    (h : Corrupted payload.length
      (int32Bytes len ++ payload ++ int32Bytes (zlibAdler32 payload).toInt32) f) :
    ∃ payload' sum, f = int32Bytes len ++ payload' ++ sum ∧ payload'.length = payload.length ∧
      sum.length = 4 ∧ Mismatch payload' sum := by
  generalize hg : int32Bytes len ++ payload ++ int32Bytes (zlibAdler32 payload).toInt32 = g at h
  cases h with
  | @replaced before after x y hne hbefore =>
      rcases append_eq_append_cons hg with ⟨mid, hfront, rfl⟩ | ⟨mid, rfl, hsum⟩
      · rcases append_eq_append_cons hfront with ⟨mid', hlen, -⟩ | ⟨pre, rfl, rfl⟩
        · -- the damage is behind the length
          have hlength := congrArg List.length hlen
          rw [length_int32Bytes, List.length_append, List.length_cons] at hlength
          omega
        · -- in the payload
          refine ⟨pre ++ y :: mid, _, ?_, ?_, length_int32Bytes _,
            mismatch_of_payload (zlibAdler32_replaced pre mid hne)⟩
          · simp only [List.append_assoc, List.cons_append]
          · simp only [List.length_append, List.length_cons]
      · -- in the checksum
        have hlength : (mid ++ y :: after).length = 4 := by
          rw [← length_int32Bytes (zlibAdler32 payload).toInt32, hsum, List.length_append,
            List.length_append, List.length_cons, List.length_cons]
        refine ⟨payload, mid ++ y :: after, ?_, rfl, hlength, mismatch_of_sum hlength ?_⟩
        · simp only [List.append_assoc]
        · rw [hsum]
          intro heq
          exact hne (List.cons.inj (List.append_cancel_left heq)).1.symm
  | @swapped before after x y hne hbefore hwithin =>
      rcases append_eq_append_cons hg with ⟨mid, hfront, hafter⟩ | ⟨mid, rfl, -⟩
      · -- the second of the two is in the payload as well
        have hlength := congrArg List.length hfront
        rw [List.length_append, length_int32Bytes, List.length_append, List.length_cons] at hlength
        cases mid with
        | nil =>
            rw [List.length_nil] at hlength
            omega
        | cons z mid =>
            obtain ⟨rfl, rfl⟩ := List.cons.inj hafter
            rcases append_eq_append_cons hfront with ⟨mid', hlen, -⟩ | ⟨pre, rfl, rfl⟩
            · have hlength' := congrArg List.length hlen
              rw [length_int32Bytes, List.length_append, List.length_cons] at hlength'
              omega
            · refine ⟨pre ++ y :: x :: mid, _, ?_, ?_, length_int32Bytes _,
                mismatch_of_payload (zlibAdler32_swapped pre mid hne)⟩
              · simp only [List.append_assoc, List.cons_append, List.append_eq]
              · simp only [List.length_append, List.length_cons]
      · rw [List.length_append, List.length_append, length_int32Bytes] at hwithin
        omega

section Detection

variable {M : Type} (P : Protobuf M)

/-- **DETECTED**: a frame that `send_rpc_msg` built and that is damaged behind
    its length is reported as such and is no message.  What comes before it, up
    to the end of a frame, and what follows it are read as they are alone. -/
theorem corruption_detected {m : M} (hsize : (P.serialize m).length ≤ 2 ^ 31 - 5) {f f' : Bytes}
    (hbuilt : BuiltFrame P zlibAdler32 m f) (hcorrupt : Corrupted (P.serialize m).length f f')
    {before later : Bytes} {callbacks : List (RpcCallback M)}
    (hbefore : observe Buffer.content (feed (onRead P zlibAdler32) inputBuffer [before])
      = (callbacks, some []))
    {chunks : List Bytes} (hcut : chunks.flatten = before ++ (f' ++ later)) :
    (feed (onRead P zlibAdler32) inputBuffer chunks).1
      = callbacks ++ ⟨none, .kChecksumError⟩ ::
        (feed (onRead P zlibAdler32) inputBuffer [later]).1 := by
  obtain ⟨len, hlen, hframe⟩ := frame_of_size P zlibAdler32 hsize
  rw [(builtFrame_iff P zlibAdler32 m f).mp hbuilt, hframe] at hcorrupt
  obtain ⟨payload, sum, rfl, hlength, hsum, hmismatch⟩ := mismatch_of_corrupted hcorrupt
  have hnext : loopNext P zlibAdler32 (int32Bytes len ++ payload ++ sum ++ later)
      = .frame ⟨none, .kChecksumError⟩ later := by
    rw [loopNext_whole P zlibAdler32 (hlength ▸ hlen) hsum, referenceCallback, if_neg hmismatch]
  rw [observe_feed_onRead, List.flatten_singleton] at hbefore
  have hall := observe_feed_onRead P zlibAdler32 chunks
  have hlater := observe_feed_onRead P zlibAdler32 [later]
  rw [hcut, (loopGrammar P zlibAdler32).decode_append _ before [] (congrArg Prod.snd hbefore),
    List.nil_append, (loopGrammar P zlibAdler32).decode_frame hnext, hbefore, observe] at hall
  rw [List.flatten_singleton, observe] at hlater
  have hfirst := congrArg Prod.fst hall
  have hrest := congrArg Prod.fst hlater
  dsimp only at hfirst hrest
  rw [hfirst, hrest]

end Detection

/-- Between two empty messages the frame of a message with an id, in which two
    bytes of the payload have changed places. -/
theorem corruption_detected_swapped :
    (feed (onRead rpcProto zlibAdler32) inputBuffer
        [[0, 0, 0, 4, 0, 0, 0, 1, 0, 0, 0, 13, 1, 17, 0, 0],
          [0, 0, 0, 0, 0, 0, 170, 0, 19, 0, 0, 0, 4, 0, 0, 0, 1]]).1
      = [⟨some RpcMessage.new, .kNoError⟩] ++ ⟨none, .kChecksumError⟩ ::
        (feed (onRead rpcProto zlibAdler32) inputBuffer [[0, 0, 0, 4, 0, 0, 0, 1]]).1 := by
  have hbuilt : BuiltFrame rpcProto zlibAdler32 { RpcMessage.new with id := 1 }
      [0, 0, 0, 13, 17, 1, 0, 0, 0, 0, 0, 0, 0, 0, 170, 0, 19] :=
    (builtFrame_iff _ _ _ _).mpr rfl
  have hcorrupt : Corrupted (rpcProto.serialize { RpcMessage.new with id := 1 }).length
      [0, 0, 0, 13, 17, 1, 0, 0, 0, 0, 0, 0, 0, 0, 170, 0, 19]
      [0, 0, 0, 13, 1, 17, 0, 0, 0, 0, 0, 0, 0, 0, 170, 0, 19] :=
    .swapped [0, 0, 0, 13] [0, 0, 0, 0, 0, 0, 0, 0, 170, 0, 19] (by decide) (by decide) (by decide)
  have hnext : loopNext rpcProto zlibAdler32 [0, 0, 0, 4, 0, 0, 0, 1]
      = .frame ⟨some RpcMessage.new, .kNoError⟩ [] := rfl
  have hbefore : observe Buffer.content
      (feed (onRead rpcProto zlibAdler32) inputBuffer [[0, 0, 0, 4, 0, 0, 0, 1]])
      = ([⟨some RpcMessage.new, .kNoError⟩], some []) := by
    rw [observe_feed_onRead, List.flatten_singleton, Grammar.decode_frame _ hnext]
    rfl
  exact corruption_detected rpcProto (by decide) hbuilt hcorrupt hbefore (by decide)

end RpcCodecCorruption
