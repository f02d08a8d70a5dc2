import Mathlib.Data.List.Induction
import Mathlib.Data.List.Nodup
import BoostPractice.RpcCodecPoolProofs

/-! # The bytes `rpc_codec` puts on the socket

    The pool keeps the bytes of ONE message in order.  Whether the frames of
    several messages stay whole on the socket is another matter: after a
    short write, `on_write` issues the rest of a frame behind every write
    issued in the meantime.

    `frames_interleaved` is a run in which this happens, with everything
    asio promises.  `wire_intact` says when it does not: as long as a write
    comes out short only while no other is issued, and no other is issued
    before its handler has run, the socket carries whole frames. -/

namespace RpcCodecWire

open BoostBuffer RpcMessages RpcCodecRead RpcCodecSend RpcCodecPool GuardedRun

variable {M : Type}

/-- What asio promises for one socket: the issued writes take effect in
    their order, and one that succeeds transfers something. -/
def AsioStep (s : Sender M) : Action M → Prop
  | .transfer k n ec => s.queue.head? = some k ∧ (ec = false → 0 < n)
  | _ => True

instance (s : Sender M) (a : Action M) : Decidable (AsioStep s a) :=
  match a with
  | .transfer _ _ _ => inferInstanceAs (Decidable (_ ∧ _))
  | .select _ => isTrue trivial
  | .fill _ => isTrue trivial
  | .onWrite _ => isTrue trivial

section Frames

variable (P : Protobuf M) (adler32 : Bytes → UInt32)

/-- The frames of some calls, one after the other, each byte with its call. -/
def framesOf (order : List (Nat × M)) : List (Nat × UInt8) :=
  order.flatMap fun p => (frame P adler32 p.2).map (p.1, ·)

/-- The socket carries the complete frames of the calls whose write was
    issued, each once, in some order. -/
def WireIntact (s : Sender M) : Prop :=
  ∃ order : List (Nat × M), (order.map Prod.fst).Nodup ∧
    (∀ k m, (k, m) ∈ order ↔
      ∃ call, s.sends[k]? = some call ∧ call.rpcMsg = m ∧ call.stage ≠ .filling) ∧
    s.wire = framesOf P adler32 order

end Frames

/-- Nothing outstanding, and no error. -/
def Stage.Settled : Stage → Prop
  | .filling => True
  | .writing _ _ _ => False
  | .failed => False
  | .done => True

/-- A write came out short, and its handler has not run yet. -/
def Stage.Short : Stage → Prop
  | .writing _ length (some (n, false)) => n < length
  | _ => False

instance (stage : Stage) : Decidable (Stage.Settled stage) :=
  match stage with
  | .filling => isTrue trivial
  | .writing _ _ _ => isFalse id
  | .failed => isFalse id
  | .done => isTrue trivial

instance (stage : Stage) : Decidable (Stage.Short stage) :=
  match stage with
  | .writing _ length (some (n, false)) => inferInstanceAs (Decidable (n < length))
  | .writing _ _ (some (_, true)) => isFalse id
  | .writing _ _ none => isFalse id
  | .filling => isFalse id
  | .failed => isFalse id
  | .done => isFalse id

/-- The length of the region a call has issued. -/
def regionLength (s : Sender M) (k : Nat) : Nat :=
  match s.sends[k]? with
  | some call =>
      match call.stage with
      | .writing _ length _ => length
      | _ => 0
  | none => 0

/-- **NOTHING GETS BETWEEN**: a write comes out short only while it is the
    only one issued, and no write is issued while a short one waits for its
    handler. -/
def Alone (s : Sender M) : Action M → Prop
  | .transfer k n ec => ec = false → n < regionLength s k → s.queue = [k]
  | .fill _ => ∀ call ∈ s.sends, ¬ Stage.Short call.stage
  | _ => True

instance (s : Sender M) (a : Action M) : Decidable (Alone s a) :=
  match a with
  | .transfer _ _ _ => inferInstanceAs (Decidable (_ → _))
  | .select _ => isTrue trivial
  | .fill _ => inferInstanceAs (Decidable (∀ call ∈ s.sends, ¬ Stage.Short call.stage))
  | .onWrite _ => isTrue trivial

/-! ## What a wire of whole frames says about one call -/

section Frames

variable {P : Protobuf M} {adler32 : Bytes → UInt32}

theorem framesOf_append (order : List (Nat × M)) (k : Nat) (m : M) :
    framesOf P adler32 (order ++ [(k, m)])
      = framesOf P adler32 order ++ (frame P adler32 m).map (k, ·) := by
  rw [framesOf, List.flatMap_append, List.flatMap_singleton]
  rfl

theorem transferred_of_not_mem {s : Sender M} {order : List (Nat × M)}
    (hwire : s.wire = framesOf P adler32 order) {k : Nat} (hk : ∀ m, (k, m) ∉ order) :
    s.transferred k = [] := by
  rw [Sender.transferred, hwire, List.map_eq_nil_iff, List.filter_eq_nil_iff]
  intro x hx
  obtain ⟨p, hp, hxp⟩ := List.mem_flatMap.mp hx
  obtain ⟨byte, -, rfl⟩ := List.mem_map.mp hxp
  rw [beq_iff_eq]
  rintro rfl
  exact hk p.2 hp

theorem transferred_of_mem {order : List (Nat × M)} :
    ∀ {s : Sender M}, s.wire = framesOf P adler32 order → (order.map Prod.fst).Nodup →
      ∀ {k : Nat} {m : M}, (k, m) ∈ order → s.transferred k = frame P adler32 m := by
  induction order using List.reverseRecOn with
  | nil =>
      intro s _ _ k m hmem
      exact nomatch hmem
  | append_singleton order p ih =>
      intro s hwire hnodup k m hmem
      obtain ⟨j, mj⟩ := p
      rw [framesOf_append] at hwire
      rw [List.map_append, List.nodup_append] at hnodup
      obtain ⟨hnodup, -, hdisjoint⟩ := hnodup
      -- the wire before the last frame
      let before : Sender M := { s with wire := framesOf P adler32 order }
      have hsplit := transferred_append (s := before) hwire k
      have hnot : ∀ m', (j, m') ∉ order := fun m' hm' =>
        hdisjoint j (List.mem_map_of_mem hm') j (List.mem_singleton_self j) rfl
      rcases List.mem_append.mp hmem with hin | hlast
      · have hkj : k ≠ j := fun h => hnot m (h ▸ hin)
        rw [hsplit, if_neg hkj, List.append_nil]
        exact ih rfl hnodup hin
      · obtain ⟨rfl, rfl⟩ := Prod.mk.inj (List.mem_singleton.mp hlast)
        rw [hsplit, if_pos rfl, transferred_of_not_mem rfl hnot, List.nil_append]

end Frames

/-! ## Errors stay -/

/-- The write failed, whether its handler has run or not. -/
def Stage.Erroneous : Stage → Prop
  | .failed => True
  | .writing _ _ (some (_, ec)) => ec = true
  | _ => False

def Errored (s : Sender M) : Prop :=
  ∃ (k : Nat) (call : Send M), s.sends[k]? = some call ∧ Stage.Erroneous call.stage

section Steps

variable {P : Protobuf M} {adler32 : Bytes → UInt32} {s s' : Sender M}

/-- A call of the next state whose step this was not is one of this state,
    or new. -/
theorem step_sends_back {a : Action M} (h : step P adler32 s a = some s') {k : Nat}
    {call : Send M} (hcall : s'.sends[k]? = some call) (hother : a.call ≠ some k) :
    s.sends[k]? = some call ∨ call.stage = .filling := by
  have hset : ∀ (j : Nat) (new : Send M), some j ≠ some k →
      (s.sends.set j new)[k]? = s.sends[k]? :=
    fun j new hj => List.getElem?_set_ne fun heq => hj (congrArg some heq)
  cases a with
  | select m =>
      obtain rfl := Option.some.inj h
      rcases getElem?_concat_iff.mp hcall with hold | ⟨-, rfl⟩
      · exact .inl hold
      · exact .inr rfl
  | fill j =>
      obtain ⟨old, bv, b, -, -, -, -, rfl⟩ := step_fill h
      exact .inl ((hset j _ hother).symm.trans hcall)
  | transfer j n ec =>
      obtain ⟨old, bv, offset, length, -, -, -, -, rfl⟩ := step_transfer h
      exact .inl ((hset j _ hother).symm.trans hcall)
  | onWrite j =>
      obtain ⟨old, bv, offset, length, n, ec, -, -, -, hcases⟩ := step_onWrite h
      rcases hcases with ⟨-, rfl⟩ | ⟨-, b, -, -, rfl⟩ | ⟨-, b, -, -, rfl⟩
      · exact .inl ((hset j _ hother).symm.trans hcall)
      · exact .inl ((hset j _ hother).symm.trans hcall)
      · exact .inl ((hset j _ hother).symm.trans hcall)

/-- The handler of a write: it failed, it was short and the rest is issued,
    or it was the last of its frame. -/
theorem onWrite_cases (hinv : Consistent P adler32 s) {k : Nat}
    (h : step P adler32 s (.onWrite k) = some s') :
    ∃ call call', s.sends[k]? = some call ∧ s'.sends[k]? = some call' ∧ s'.wire = s.wire ∧
      (Stage.Erroneous call'.stage ∨
        (Stage.Short call.stage ∧ s'.queue = s.queue ++ [k] ∧
          ∃ offset length, call'.stage = .writing offset length none) ∨
        (¬ Stage.Short call.stage ∧ s'.queue = s.queue ∧ call'.stage = .done)) := by
  obtain ⟨call, bv, offset, length, n, ec, hcall, hbv, hstage, hcases⟩ := step_onWrite h
  have hk : k < s.sends.length := (List.getElem?_eq_some_iff.mp hcall).1
  have hlive : call.stage ≠ .done := by
    rw [hstage]
    exact nofun
  obtain ⟨-, hok⟩ := hinv.slot_of hcall hlive hbv
  rw [hstage] at hok
  obtain ⟨-, rfl, -, hle, -⟩ := hok
  have hrest : ∀ b : Buffer, bv.buffer.retrieve n = some b →
      b.readableBytes = bv.buffer.readableBytes - n := fun b hb => by
    rw [← Buffer.length_content, content_of_retrieve hb, List.length_drop, Buffer.length_content]
  rcases hcases with ⟨-, rfl⟩ | ⟨rfl, b, hb, hpos, rfl⟩ | ⟨rfl, b, hb, hempty, rfl⟩
  · exact ⟨call, _, hcall, List.getElem?_set_self hk, rfl, .inl trivial⟩
  · refine ⟨call, _, hcall, List.getElem?_set_self hk, rfl, .inr (.inl ⟨?_, rfl, _, _, rfl⟩)⟩
    rw [hstage]
    rw [hrest b hb] at hpos
    exact Nat.lt_of_sub_pos hpos
  · refine ⟨call, _, hcall, List.getElem?_set_self hk, rfl, .inr (.inr ⟨?_, rfl, rfl⟩)⟩
    rw [hstage]
    rw [hrest b hb] at hempty
    exact Nat.not_lt_of_le (Nat.le_of_sub_eq_zero hempty)

/-- A transfer extends what went out of its frame, to the whole frame if it
    is not short. -/
theorem transfer_cases (hinv : Consistent P adler32 s) {k n : Nat} {ec : Bool}
    (h : step P adler32 s (.transfer k n ec) = some s') :
    ∃ (call call' : Send M) (bs : Bytes), s.sends[k]? = some call ∧
      s'.sends[k]? = some call' ∧ call'.rpcMsg = call.rpcMsg ∧
      s'.queue = s.queue.erase k ∧ s'.wire = s.wire ++ bs.map (k, ·) ∧
      (∃ offset, call'.stage = .writing offset (regionLength s k) (some (n, ec))) ∧
      n ≤ regionLength s k ∧ s.transferred k ≠ frame P adler32 call.rpcMsg ∧
      (n = regionLength s k → s'.transferred k = frame P adler32 call.rpcMsg) := by
  have hinv' := hinv.step h
  obtain ⟨call, bv, offset, length, hcall, hbv, hstage, hle, hs'⟩ := step_transfer h
  have hk : k < s.sends.length := (List.getElem?_eq_some_iff.mp hcall).1
  have hlive : call.stage ≠ .done := by
    rw [hstage]
    exact nofun
  have hregion : regionLength s k = length := by
    rw [regionLength, hcall]
    simp only [hstage]
  have hself : s'.sends[k]?
      = some { call with stage := .writing offset length (some (n, ec)) } := by
    rw [hs']
    exact List.getElem?_set_self hk
  refine ⟨call, _, _, hcall, hself, rfl, by rw [hs'], by rw [hs'],
    ⟨offset, by rw [hregion]⟩, by rw [hregion]; exact hle, ?_, ?_⟩
  · obtain ⟨-, hok⟩ := hinv.slot_of hcall hlive hbv
    rw [hstage] at hok
    obtain ⟨-, rfl, hpos, -, before, hframe, hsent⟩ := hok
    intro heq
    -- what is still readable is not empty
    have hlength := congrArg List.length (hsent.symm.trans (heq.trans hframe.symm))
    rw [List.length_append, List.length_append, Buffer.length_content] at hlength
    have hnone : (bv.buffer.content.take (Stage.pending none)).length = 0 := rfl
    omega
  · intro hfull
    obtain ⟨b, -, hok⟩ := hinv'.live k _ hself nofun
    obtain ⟨-, hlength, -, -, before, hframe, hsent⟩ := hok
    rw [hsent, ← hframe]
    congr 1
    refine List.take_of_length_le ?_
    rw [Buffer.length_content, ← hlength, ← hregion, ← hfull]
    exact Nat.le_refl _

theorem Errored.step (herr : Errored s) {a : Action M}
    (h : RpcCodecPool.step P adler32 s a = some s') : Errored s' := by
  obtain ⟨k, call, hcall, hstage⟩ := herr
  obtain ⟨call', hcall', -, -, hsame⟩ := step_sends h hcall
  by_cases hown : a.call = some k
  · cases a with
    | select m => exact nomatch hown
    | fill j =>
        obtain rfl := Option.some.inj hown
        obtain ⟨old, bv, b, hold, -, hfilling, -⟩ := step_fill h
        rw [Option.some.inj (hcall.symm.trans hold), hfilling] at hstage
        exact hstage.elim
    | transfer j n ec =>
        obtain rfl := Option.some.inj hown
        obtain ⟨old, bv, offset, length, hold, -, hwriting, -⟩ := step_transfer h
        rw [Option.some.inj (hcall.symm.trans hold), hwriting] at hstage
        exact hstage.elim
    | onWrite j =>
        obtain rfl := Option.some.inj hown
        obtain ⟨old, bv, offset, length, n, ec, hold, -, hwriting, hcases⟩ := step_onWrite h
        obtain rfl := Option.some.inj (hcall.symm.trans hold)
        rw [hwriting] at hstage
        obtain rfl : ec = true := hstage
        rcases hcases with ⟨-, rfl⟩ | ⟨hec, -⟩ | ⟨hec, -⟩
        · refine ⟨j, _, List.getElem?_set_self (List.getElem?_eq_some_iff.mp hcall).1, trivial⟩
        · exact nomatch hec
        · exact nomatch hec
  · exact ⟨k, call', hcall', by rw [hsame hown]; exact hstage⟩

end Steps

/-! ## Whole frames, but for the last -/

section Steps

variable (P : Protobuf M) (adler32 : Bytes → UInt32)

/-- The socket carries the frames of the calls `order` and nothing else. -/
structure Whole (s : Sender M) (order : List (Nat × M)) : Prop where
  wire : s.wire = framesOf P adler32 order
  none_short : ∀ (j : Nat) (call : Send M), s.sends[j]? = some call → ¬ Stage.Short call.stage

/-- Behind them it carries the beginning of the frame of call `k`, whose
    handler is due with nothing issued, or whose rest is the next to go. -/
structure Begun (s : Sender M) (order : List (Nat × M)) (k : Nat) : Prop where
  fresh : ∀ m, (k, m) ∉ order
  wire : s.wire = framesOf P adler32 order ++ (s.transferred k).map (k, ·)
  none_else_short : ∀ (j : Nat) (call : Send M), s.sends[j]? = some call →
    Stage.Short call.stage → j = k
  next : ∃ call : Send M, s.sends[k]? = some call ∧
    ((Stage.Short call.stage ∧ s.queue = []) ∨
      ((∃ offset length, call.stage = .writing offset length none) ∧ s.queue.head? = some k))

structure Ordered (s : Sender M) (order : List (Nat × M)) : Prop where
  nodup : (order.map Prod.fst).Nodup
  sent : ∀ k m, (k, m) ∈ order → ∃ call : Send M, s.sends[k]? = some call ∧ call.rpcMsg = m

def Serial (s : Sender M) : Prop :=
  ∃ order, Ordered s order ∧ (Whole P adler32 s order ∨ ∃ k, Begun P adler32 s order k)

end Steps

section Steps

variable {P : Protobuf M} {adler32 : Bytes → UInt32} {s s' : Sender M}

theorem Ordered.step {order : List (Nat × M)} (hord : Ordered s order) {a : Action M}
    (h : RpcCodecPool.step P adler32 s a = some s') : Ordered s' order where
  nodup := hord.nodup
  sent := fun k m hmem => by
    obtain ⟨call, hcall, hmsg⟩ := hord.sent k m hmem
    obtain ⟨call', hcall', hmsg', -⟩ := step_sends h hcall
    exact ⟨call', hcall', hmsg'.trans hmsg⟩

/-- A step that transfers nothing, and leaves its own call not short, keeps
    whole frames whole. -/
theorem Whole.step {order : List (Nat × M)} (hwhole : Whole P adler32 s order) {a : Action M}
    (h : RpcCodecPool.step P adler32 s a = some s') (hwire : s'.wire = s.wire)
    (hown : ∀ (k : Nat) (call : Send M), a.call = some k → s'.sends[k]? = some call →
      ¬ Stage.Short call.stage) :
    Whole P adler32 s' order where
  wire := hwire.trans hwhole.wire
  none_short := fun j call hcall => by
    by_cases hj : a.call = some j
    · exact hown j call hj hcall
    · rcases step_sends_back h hcall hj with hold | hfilling
      · exact hwhole.none_short j call hold
      · rw [hfilling]
        exact not_false

/-- Such a step of another call keeps the frame that has begun the next to
    go on, unless it issues a write in front of its rest. -/
theorem Begun.step {order : List (Nat × M)} {k : Nat} (hbegun : Begun P adler32 s order k)
    {a : Action M} (h : RpcCodecPool.step P adler32 s a = some s') (hwire : s'.wire = s.wire)
    (hother : a.call ≠ some k) {issued : List Nat} (hqueue : s'.queue = s.queue ++ issued)
    (hwait : (∃ call ∈ s.sends, Stage.Short call.stage) → issued = [])
    (hown : ∀ (j : Nat) (call : Send M), a.call = some j → s'.sends[j]? = some call →
      ¬ Stage.Short call.stage) :
    Begun P adler32 s' order k where
  fresh := hbegun.fresh
  wire := by rw [hwire, hbegun.wire, Sender.transferred, Sender.transferred, hwire]
  none_else_short := fun j call hcall hshort => by
    by_cases hj : a.call = some j
    · exact absurd hshort (hown j call hj hcall)
    · rcases step_sends_back h hcall hj with hold | hfilling
      · exact hbegun.none_else_short j call hold hshort
      · rw [hfilling] at hshort
        exact hshort.elim
  next := by
    obtain ⟨call, hcall, hnext⟩ := hbegun.next
    obtain ⟨call', hcall', -, -, hsame⟩ := step_sends h hcall
    rw [hsame hother] at hcall'
    refine ⟨call, hcall', ?_⟩
    rcases hnext with ⟨hshort, hempty⟩ | ⟨hwriting, hhead⟩
    · refine .inl ⟨hshort, ?_⟩
      rw [hqueue, hempty, hwait ⟨call, List.mem_of_getElem? hcall, hshort⟩]
      rfl
    · refine .inr ⟨hwriting, ?_⟩
      rw [hqueue, List.head?_append, hhead]
      rfl

/-- **A TRANSFER** from the head of the queue ends the frame it belongs to,
    or begins it with nothing else issued. -/
theorem Serial.transfer (hserial : Serial P adler32 s) (hinv : Consistent P adler32 s)
    {k n : Nat} (h : RpcCodecPool.step P adler32 s (.transfer k n false) = some s')
    (hasio : AsioStep s (.transfer k n false)) (halone : Alone s (.transfer k n false)) :
    Serial P adler32 s' := by
  obtain ⟨order, hord, hcase⟩ := hserial
  obtain ⟨call, call', bs, hcall, hcall', hmsg, hqueue, hwire, ⟨offset, hstage'⟩, hle, hpart,
    hfull⟩ := transfer_cases hinv h
  -- in both cases the wire is whole frames and what went out of this one
  have hbefore : (∀ m, (k, m) ∉ order) ∧
      s.wire = framesOf P adler32 order ++ (s.transferred k).map (k, ·) ∧
      ∀ (j : Nat) (callj : Send M), s.sends[j]? = some callj → Stage.Short callj.stage → j = k := by
    rcases hcase with hwhole | ⟨j, hbegun⟩
    · have hfresh : ∀ m, (k, m) ∉ order := by
        intro m hmem
        obtain ⟨callm, hcallm, rfl⟩ := hord.sent k m hmem
        obtain rfl := Option.some.inj (hcall.symm.trans hcallm)
        exact hpart (transferred_of_mem hwhole.wire hord.nodup hmem)
      refine ⟨hfresh, ?_, fun j callj hcallj hshort =>
        absurd hshort (hwhole.none_short j callj hcallj)⟩
      rw [transferred_of_not_mem hwhole.wire hfresh, hwhole.wire]
      exact (List.append_nil _).symm
    · obtain ⟨-, -, ⟨-, hempty⟩ | ⟨-, hhead⟩⟩ := hbegun.next
      · rw [AsioStep, hempty] at hasio
        exact nomatch hasio.1
      · obtain rfl := Option.some.inj (hhead.symm.trans hasio.1)
        exact ⟨hbegun.fresh, hbegun.wire, hbegun.none_else_short⟩
  obtain ⟨hfresh, hwhole, hothers⟩ := hbefore
  have hwire' : s'.wire = framesOf P adler32 order ++ (s'.transferred k).map (k, ·) := by
    rw [hwire, hwhole, transferred_append hwire k, if_pos rfl, List.map_append, List.append_assoc]
  have hshort' : ∀ (j : Nat) (callj : Send M), s'.sends[j]? = some callj →
      Stage.Short callj.stage → j = k := by
    intro j callj hcallj hshort
    by_contra hj
    rcases step_sends_back h hcallj (fun heq => hj (Option.some.inj heq).symm) with hold | hfilling
    · exact hj (hothers j callj hold hshort)
    · rw [hfilling] at hshort
      exact hshort
  by_cases hn : n = regionLength s k
  · -- the transfer was not short: the frame joins the whole ones
    refine ⟨order ++ [(k, call.rpcMsg)], ⟨?_, ?_⟩, .inl ⟨?_, ?_⟩⟩
    · rw [List.map_append, List.nodup_append]
      refine ⟨hord.nodup, List.nodup_singleton k, ?_⟩
      rintro j hj j' hj' rfl
      obtain ⟨p, hp, rfl⟩ := List.mem_map.mp hj
      obtain rfl : p.1 = k := List.mem_singleton.mp hj'
      exact hfresh p.2 hp
    · intro j m hmem
      rcases List.mem_append.mp hmem with hin | hlast
      · exact (hord.step h).sent j m hin
      · obtain ⟨rfl, rfl⟩ := Prod.mk.inj (List.mem_singleton.mp hlast)
        exact ⟨call', hcall', hmsg⟩
    · rw [hwire', hfull hn, framesOf_append]
    · intro j callj hcallj hshort
      obtain rfl := hshort' j callj hcallj hshort
      rw [Option.some.inj (hcallj.symm.trans hcall'), hstage'] at hshort
      exact Nat.lt_irrefl _ (hn ▸ hshort)
  · have hlt : n < regionLength s k := Nat.lt_of_le_of_ne hle hn
    refine ⟨order, hord.step h, .inr ⟨k, hfresh, hwire', hshort', call', hcall', .inl ⟨?_, ?_⟩⟩⟩
    · rw [hstage']
      exact hlt
    · rw [hqueue, halone rfl hlt, List.erase_cons_head]

/-- **THE HANDLER** of a short write issues the rest of its frame with
    nothing in front of it. -/
theorem Serial.onWrite (hserial : Serial P adler32 s) (hinv : Consistent P adler32 s) {k : Nat}
    (h : RpcCodecPool.step P adler32 s (.onWrite k) = some s') :
    Errored s' ∨ Serial P adler32 s' := by
  obtain ⟨order, hord, hcase⟩ := hserial
  obtain ⟨call, call', hcall, hcall', hwire, herr | ⟨hshort, hqueue, hwriting⟩ |
    ⟨hshort, hqueue, hdone⟩⟩ := onWrite_cases hinv h
  · exact .inl ⟨k, call', hcall', herr⟩
  · refine .inr ⟨order, hord.step h, .inr ⟨k, ?_⟩⟩
    rcases hcase with hwhole | ⟨j, hbegun⟩
    · exact absurd hshort (hwhole.none_short k call hcall)
    · obtain rfl := hbegun.none_else_short k call hcall hshort
      obtain ⟨callk, hcallk, hnext⟩ := hbegun.next
      obtain rfl := Option.some.inj (hcall.symm.trans hcallk)
      have hempty : s.queue = [] := by
        rcases hnext with ⟨-, hempty⟩ | ⟨⟨offset, length, hnone⟩, -⟩
        · exact hempty
        · rw [hnone] at hshort
          exact hshort.elim
      refine ⟨hbegun.fresh, ?_, ?_, call', hcall', .inr ⟨hwriting, ?_⟩⟩
      · rw [hwire, hbegun.wire, Sender.transferred, Sender.transferred, hwire]
      · intro j callj hcallj hshortj
        by_contra hj
        rcases step_sends_back h hcallj (fun heq => hj (Option.some.inj heq).symm)
          with hold | hfilling
        · exact hj (hbegun.none_else_short j callj hold hshortj)
        · rw [hfilling] at hshortj
          exact hshortj
      · rw [hqueue, hempty]
        rfl
  · have hown : ∀ (j : Nat) (callj : Send M), some k = some j → s'.sends[j]? = some callj →
        ¬ Stage.Short callj.stage := by
      intro j callj hj hcallj
      obtain rfl := Option.some.inj hj
      rw [Option.some.inj (hcallj.symm.trans hcall'), hdone]
      exact not_false
    refine .inr ⟨order, hord.step h, hcase.imp (fun hwhole => hwhole.step h hwire hown) ?_⟩
    rintro ⟨j, hbegun⟩
    refine ⟨j, hbegun.step h hwire ?_ (hqueue.trans (List.append_nil _).symm) (fun _ => rfl) hown⟩
    -- the call that has begun its frame is not at its handler, or is short
    intro hk
    obtain rfl := Option.some.inj hk
    obtain ⟨callk, hcallk, hnext⟩ := hbegun.next
    obtain rfl := Option.some.inj (hcall.symm.trans hcallk)
    rcases hnext with ⟨hshort', -⟩ | ⟨⟨offset, length, hnone⟩, -⟩
    · exact hshort hshort'
    · obtain ⟨old, bv, offset', length', n, ec, hold, -, hstage, -⟩ := step_onWrite h
      rw [Option.some.inj (hold.symm.trans hcall), hnone] at hstage
      cases hstage

/-- **EVERY STEP** that meets the rule keeps the frames whole, unless a write
    has failed. -/
theorem Serial.step (hserial : Serial P adler32 s) (hinv : Consistent P adler32 s) {a : Action M}
    (hasio : AsioStep s a) (halone : Alone s a)
    (h : RpcCodecPool.step P adler32 s a = some s') : Errored s' ∨ Serial P adler32 s' := by
  cases a with
  | select m =>
      obtain ⟨order, hord, hcase⟩ := hserial
      have hs' := Option.some.inj h
      have hwire : s'.wire = s.wire := by rw [← hs']
      have hqueue : s'.queue = s.queue ++ [] := by rw [← hs', List.append_nil]
      refine .inr ⟨order, hord.step h, hcase.imp (fun hwhole => hwhole.step h hwire nofun) ?_⟩
      rintro ⟨k, hbegun⟩
      exact ⟨k, hbegun.step h hwire nofun hqueue (fun _ => rfl) nofun⟩
  | fill j =>
      obtain ⟨order, hord, hcase⟩ := hserial
      obtain ⟨call, bv, b, hcall, -, hfilling, -, hs'⟩ := step_fill h
      have hown : ∀ (i : Nat) (calli : Send M), some j = some i → s'.sends[i]? = some calli →
          ¬ Stage.Short calli.stage := by
        intro i calli hi hcalli
        obtain rfl := Option.some.inj hi
        rw [hs'] at hcalli
        rw [← Option.some.inj
          ((List.getElem?_set_self (List.getElem?_eq_some_iff.mp hcall).1).symm.trans hcalli)]
        exact not_false
      have hwire : s'.wire = s.wire := by rw [hs']; rfl
      have hqueue : s'.queue = s.queue ++ [j] := by rw [hs']; rfl
      refine .inr ⟨order, hord.step h, hcase.imp (fun hwhole => hwhole.step h hwire hown) ?_⟩
      rintro ⟨k, hbegun⟩
      refine ⟨k, hbegun.step h hwire ?_ hqueue ?_ hown⟩
      · -- the call that has begun its frame is past filling
        intro hk
        obtain rfl := Option.some.inj hk
        obtain ⟨callk, hcallk, hnext⟩ := hbegun.next
        obtain rfl := Option.some.inj (hcall.symm.trans hcallk)
        rw [hfilling] at hnext
        rcases hnext with ⟨hshort, -⟩ | ⟨⟨offset, length, hnone⟩, -⟩
        · exact hshort
        · exact nomatch hnone
      · rintro ⟨callk, hmem, hshort⟩
        exact absurd hshort (halone callk hmem)
  | transfer k n ec =>
      cases ec with
      | true =>
          obtain ⟨call, call', bs, -, hcall', -, -, -, ⟨offset, hstage⟩, -⟩ := transfer_cases hinv h
          exact .inl ⟨k, call', hcall', by rw [hstage]; rfl⟩
      | false => exact .inr (hserial.transfer hinv h hasio halone)
  | onWrite k => exact hserial.onWrite hinv h

theorem serial_new : Serial P adler32 (Sender.new : Sender M) :=
  ⟨[], ⟨List.nodup_nil, fun _ _ h => nomatch h⟩, .inl ⟨rfl, fun _ _ h => nomatch h⟩⟩

/-- **WIRE INTEGRITY**: in every run in which no write gets between the parts
    of another's frame, whenever nothing is outstanding and no write has
    failed the socket carries whole frames, one for each message sent. -/
theorem wire_intact
    (h : Reaches (RpcCodecPool.step P adler32) (fun s a => AsioStep s a ∧ Alone s a) Sender.new s)
    (hsettled : ∀ call ∈ s.sends, Stage.Settled call.stage) : WireIntact P adler32 s := by
  have hreach : ∀ t, Reaches (RpcCodecPool.step P adler32) (fun s a => AsioStep s a ∧ Alone s a)
      Sender.new t → Consistent P adler32 t :=
    fun t ht => consistent_of_reachable (ht.mono fun _ _ _ => trivial)
  have hinv := hreach s h
  have hrun : Errored s ∨ Serial P adler32 s := by
    refine h.invariant_over (I := fun t => Errored t ∨ Serial P adler32 t) hreach
      (.inr serial_new) ?_
    rintro t a t' hcons (herr | hserial) ⟨hasio, halone⟩ hstep
    · exact .inl (herr.step hstep)
    · exact hserial.step hcons hasio halone hstep
  rcases hrun with ⟨k, call, hcall, herr⟩ | ⟨order, hord, hwhole | ⟨k, hbegun⟩⟩
  · -- a write in error is not settled
    have hset := hsettled call (List.mem_of_getElem? hcall)
    cases hstage : call.stage <;> rw [hstage] at herr hset
    · exact herr.elim
    · exact hset.elim
    · exact hset.elim
    · exact herr.elim
  · refine ⟨order, hord.nodup, ?_, hwhole.wire⟩
    have hne : ∀ m : M, frame P adler32 m ≠ [] := fun m =>
      List.ne_nil_of_length_pos (length_frame_pos m)
    intro k m
    constructor
    · intro hmem
      obtain ⟨call, hcall, hmsg⟩ := hord.sent k m hmem
      refine ⟨call, hcall, hmsg, fun hfilling => ?_⟩
      obtain ⟨b, -, hok⟩ := hinv.live k call hcall (by rw [hfilling]; exact nofun)
      rw [hfilling] at hok
      exact hne m ((transferred_of_mem hwhole.wire hord.nodup hmem).symm.trans hok.2)
    · rintro ⟨call, hcall, rfl, hissued⟩
      have hdone : call.stage = .done := by
        have hset := hsettled call (List.mem_of_getElem? hcall)
        cases hstage : call.stage <;> rw [hstage] at hset hissued
        · exact absurd rfl hissued
        · exact hset.elim
        · exact hset.elim
      have hsent := hinv.finished k call hcall hdone
      by_contra hnot
      have hfresh : ∀ m, (k, m) ∉ order := by
        intro m hmem
        obtain ⟨callm, hcallm, rfl⟩ := hord.sent k m hmem
        rw [Option.some.inj (hcallm.symm.trans hcall)] at hmem
        exact hnot hmem
      exact hne call.rpcMsg (hsent.symm.trans (transferred_of_not_mem hwhole.wire hfresh))
  · -- nor is a frame that was begun: its write is outstanding or was short
    obtain ⟨call, hcall, hnext⟩ := hbegun.next
    have hset := hsettled call (List.mem_of_getElem? hcall)
    rcases hnext with ⟨hshort, -⟩ | ⟨⟨offset, length, hwriting⟩, -⟩
    · cases hstage : call.stage <;> rw [hstage] at hset hshort
      · exact hshort.elim
      · exact hset.elim
      · exact hset.elim
      · exact hshort.elim
    · rw [hwriting] at hset
      exact hset.elim

end Steps

/-! ## Two replies -/

/-- The reply to a request with id 0 for a service that is not registered. -/
def noServiceReply : RpcMessage := { RpcMessage.new with type := .response, error := .noService }

/-- The first reply goes out in two parts, the rest before the second. -/
def aloneRun : List (Action RpcMessage) :=
  [.select noServiceReply, .fill 0, .transfer 0 3 false, .select noServiceReply, .onWrite 0,
    .fill 1, .transfer 0 9 false, .transfer 1 12 false, .onWrite 1, .onWrite 0]

theorem wire_intact_alone :
    ∃ s, guardedRun (step rpcProto zlibAdler32) (fun s a => AsioStep s a ∧ Alone s a)
        Sender.new aloneRun = some s ∧
      s.wire.length = 24 ∧ WireIntact rpcProto zlibAdler32 s := by
  have hrun : (guardedRun (step rpcProto zlibAdler32) (fun s a => AsioStep s a ∧ Alone s a)
      Sender.new aloneRun).map (fun s => (s.wire.length, s.sends.map Send.stage))
      = some (24, [.done, .done]) := by decide +kernel
  obtain ⟨s, hs, heq⟩ := Option.map_eq_some_iff.mp hrun
  obtain ⟨hlength, hstages⟩ := Prod.mk.inj heq
  refine ⟨s, hs, hlength, wire_intact (reaches_of_guardedRun hs) ?_⟩
  intro call hcall
  have hstage : call.stage ∈ [Stage.done, Stage.done] := by
    rw [← hstages]
    exact List.mem_map_of_mem hcall
  obtain h | h := List.mem_pair.mp hstage
  · rw [h]
    exact trivial
  · rw [h]
    exact trivial

/-- The second write is issued before the handler of the first, short one has
    run, and so its bytes go out before the rest of the first frame. -/
def interleavedRun : List (Action RpcMessage) :=
  [.select noServiceReply, .fill 0, .select noServiceReply, .fill 1, .transfer 0 3 false,
    .onWrite 0, .transfer 1 12 false, .onWrite 1, .transfer 0 9 false, .onWrite 0]

/-- **INTERLEAVED**: asio keeps its promises, both calls are done, and the
    second frame stands inside the first. -/
theorem frames_interleaved :
    ∃ s, Reaches (step rpcProto zlibAdler32) AsioStep Sender.new s ∧
      (∀ call ∈ s.sends, call.stage = .done) ∧
      s.wire.map Prod.snd
        = (frame rpcProto zlibAdler32 noServiceReply).take 3 ++
            frame rpcProto zlibAdler32 noServiceReply ++
            (frame rpcProto zlibAdler32 noServiceReply).drop 3 ∧
      ¬ WireIntact rpcProto zlibAdler32 s := by
  obtain ⟨F, hF⟩ : ∃ F, frame rpcProto zlibAdler32 noServiceReply = F := ⟨_, rfl⟩
  have hrun : (guardedRun (step rpcProto zlibAdler32) AsioStep Sender.new interleavedRun).map
      (fun s => (s.wire.map Prod.snd, s.sends.map Send.stage, s.sends.map Send.rpcMsg))
      = some (F.take 3 ++ F ++ F.drop 3, [.done, .done], [noServiceReply, noServiceReply]) := by
    rw [← hF]
    decide +kernel
  obtain ⟨s, hs, heq⟩ := exists_of_guardedRun hrun
  obtain ⟨hwire, hrest⟩ := Prod.mk.inj heq
  obtain ⟨hstages, hmsgs⟩ := Prod.mk.inj hrest
  have hmsg : ∀ (k : Nat) (call : Send RpcMessage), s.sends[k]? = some call →
      call.rpcMsg = noServiceReply := by
    intro k call hcall
    have hin : call.rpcMsg ∈ [noServiceReply, noServiceReply] := by
      rw [← hmsgs]
      exact List.mem_map_of_mem (List.mem_of_getElem? hcall)
    obtain h | h := List.mem_pair.mp hin <;> exact h
  refine ⟨s, hs, ?_, by rw [hwire, hF], ?_⟩
  · intro call hcall
    have hstage : call.stage ∈ [Stage.done, Stage.done] := by
      rw [← hstages]
      exact List.mem_map_of_mem hcall
    obtain h | h := List.mem_pair.mp hstage <;> exact h
  · rintro ⟨order, -, hmem, hframes⟩
    rw [hframes] at hwire
    -- the fourth byte of the first frame is its length, on the socket it is 0
    cases order with
    | nil =>
        have hempty : [] = F.take 3 ++ F ++ F.drop 3 := hwire
        rw [← hF] at hempty
        revert hempty
        decide +kernel
    | cons p rest =>
        obtain ⟨call, hcall, hp, -⟩ := (hmem p.1 p.2).mp List.mem_cons_self
        have hfirst : frame rpcProto zlibAdler32 p.2 = F := by
          rw [← hp, hmsg p.1 call hcall, hF]
        rw [framesOf, List.flatMap_cons, List.map_append, List.map_map, hfirst] at hwire
        have hhead : (F.map (Prod.snd ∘ (p.1, ·))).take 4 = F.take 4 := by
          rw [show (Prod.snd ∘ (p.1, ·) : UInt8 → UInt8) = id from rfl, List.map_id]
        have hfour := congrArg (List.take 4) hwire
        rw [List.take_append_of_le_length (by rw [List.length_map, ← hF]; decide +kernel), hhead,
          ← hF] at hfour
        revert hfour
        decide +kernel

end RpcCodecWire
