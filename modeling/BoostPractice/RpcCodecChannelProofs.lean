import BoostPractice.RpcCodecWireProofs

/-! # Two codecs make a queue

    `send_rpc_msg` and `on_write` on one side of a connection, `on_read` on
    the other, and the socket between them.  As long as writes succeed and
    nothing gets between the parts of a frame (`RpcCodecWire.Alone`), the
    frames go out in the order in which their writes were issued.

    `codec_channel` is what the two codecs are for: at any moment the
    messages delivered are the first ones issued, in that order and
    unchanged, and none is left behind when everything is through. -/

namespace RpcCodecChannel

open FrameDecoding BoostBuffer RpcMessages RpcCodecRead RpcCodecSend RpcCodecPool RpcCodecWire
open GuardedRun

variable {M : Type}

/-! ## Writes that succeed -/

def Succeeds : Action M → Prop
  | .transfer _ _ ec => ec = false
  | _ => True

/-- What asio promises, no failure, and nothing between the parts of a frame. -/
def Faultless (s : Sender M) (a : Action M) : Prop := AsioStep s a ∧ Alone s a ∧ Succeeds a

instance (a : Action M) : Decidable (Succeeds a) :=
  match a with
  | .transfer _ _ ec => inferInstanceAs (Decidable (ec = false))
  | .select _ => isTrue trivial
  | .fill _ => isTrue trivial
  | .onWrite _ => isTrue trivial

instance (s : Sender M) (a : Action M) : Decidable (Faultless s a) :=
  inferInstanceAs (Decidable (_ ∧ _ ∧ _))

section Frames

variable (P : Protobuf M) (adler32 : Bytes → UInt32)

/-- The frames of some calls, one after the other. -/
def framesOf (calls : List (Nat × M)) : Bytes := calls.flatMap fun p => frame P adler32 p.2

/-- What is on the socket of the first of these frames. -/
def begun (s : Sender M) : List (Nat × M) → Bytes
  | [] => []
  | (k, _) :: _ => s.transferred k

/-- A short write of the call waits for its handler. -/
def ShortAt (s : Sender M) (k : Nat) : Prop :=
  ∃ call : Send M, s.sends[k]? = some call ∧ Stage.Short call.stage

/-- The writes issued and not transferred are those of `rest`; or only the
    end of one frame is missing, and the handler of its write is due. -/
def NextOut (s : Sender M) (rest : List (Nat × M)) : Prop :=
  (rest.map Prod.fst = s.queue ∧ ∀ k, ¬ ShortAt s k) ∨
  (s.queue = [] ∧ ∃ k m, rest = [(k, m)] ∧ ∀ j, ShortAt s j ↔ j = k)

/-- **IN LINE**: the socket carries the frames of `whole`, and of those of
    `rest` the beginning of the first. -/
structure InLine (s : Sender M) (whole rest : List (Nat × M)) : Prop where
  wire : s.wire.map Prod.snd = framesOf P adler32 whole ++ begun s rest
  untouched : ∀ p ∈ rest.tail, s.transferred p.1 = []
  next : NextOut s rest

/-- The calls whose write was issued, each once and with its message. -/
structure Issued (s : Sender M) (issued : List (Nat × M)) : Prop where
  nodup : (issued.map Prod.fst).Nodup
  mem_iff : ∀ k m, (k, m) ∈ issued ↔
    ∃ call, s.sends[k]? = some call ∧ call.rpcMsg = m ∧ call.stage ≠ .filling

end Frames

section Steps

variable {P : Protobuf M} {adler32 : Bytes → UInt32} {s s' : Sender M}

/-- A step that succeeds makes no error. -/
theorem errored_back {a : Action M} (hsucceeds : Succeeds a)
    (h : step P adler32 s a = some s') (herr : Errored s') : Errored s := by
  obtain ⟨k, call, hcall, hstage⟩ := herr
  by_cases hown : a.call = some k
  · cases a with
    | select m => cases hown
    | fill j =>
        obtain rfl := Option.some.inj hown
        obtain ⟨old, bv, b, hold, -, -, -, hs'⟩ := step_fill h
        have hself := List.getElem?_set_self (l := s.sends)
          (a := ({ old with stage := .writing b.readerIndex b.readableBytes none } : Send M))
          (List.getElem?_eq_some_iff.mp hold).1
        rw [hs'] at hcall
        rw [← Option.some.inj (hself.symm.trans hcall)] at hstage
        exact hstage.elim
    | transfer j n ec =>
        obtain rfl := Option.some.inj hown
        obtain ⟨old, bv, offset, length, hold, -, -, -, hs'⟩ := step_transfer h
        have hself := List.getElem?_set_self (l := s.sends)
          (a := ({ old with stage := .writing offset length (some (n, ec)) } : Send M))
          (List.getElem?_eq_some_iff.mp hold).1
        rw [hs'] at hcall
        rw [← Option.some.inj (hself.symm.trans hcall)] at hstage
        have hec : ec = false := hsucceeds
        have hec' : ec = true := hstage
        exact Bool.noConfusion (hec.symm.trans hec')
    | onWrite j =>
        obtain rfl := Option.some.inj hown
        obtain ⟨old, bv, offset, length, n, ec, hold, -, hwriting, hcases⟩ := step_onWrite h
        have hlt := (List.getElem?_eq_some_iff.mp hold).1
        rcases hcases with ⟨hec, -⟩ | ⟨-, b, -, -, hs'⟩ | ⟨-, b, -, -, hs'⟩
        · refine ⟨j, old, hold, ?_⟩
          rw [hwriting, hec]
          rfl
        · rw [hs'] at hcall
          rw [← Option.some.inj ((List.getElem?_set_self hlt).symm.trans hcall)] at hstage
          exact hstage.elim
        · rw [hs'] at hcall
          rw [← Option.some.inj ((List.getElem?_set_self hlt).symm.trans hcall)] at hstage
          exact hstage.elim
  · rcases step_sends_back h hcall hown with hold | hfilling
    · exact ⟨k, call, hold, hstage⟩
    · rw [hfilling] at hstage
      exact hstage.elim

/-- Only a call's own step makes it short, or no longer so. -/
theorem shortAt_step {a : Action M} (h : step P adler32 s a = some s') {j : Nat}
    (hother : a.call ≠ some j) : ShortAt s' j ↔ ShortAt s j := by
  constructor
  · rintro ⟨call, hcall, hshort⟩
    rcases step_sends_back h hcall hother with hold | hfilling
    · exact ⟨call, hold, hshort⟩
    · rw [hfilling] at hshort
      exact hshort.elim
  · rintro ⟨call, hcall, hshort⟩
    obtain ⟨call', hcall', -, -, hsame⟩ := step_sends h hcall
    exact ⟨call', hcall', by rw [hsame hother]; exact hshort⟩

theorem begun_of_wire (hwire : s'.wire = s.wire) (rest : List (Nat × M)) :
    begun s' rest = begun s rest := by
  cases rest with
  | nil => rfl
  | cons p rest => rw [begun, begun, Sender.transferred, Sender.transferred, hwire]

/-- Nothing is transferred, and what is to go out next stays. -/
theorem InLine.quiet {whole rest : List (Nat × M)} (hline : InLine P adler32 s whole rest)
    (hwire : s'.wire = s.wire) (hnext : NextOut s' rest) : InLine P adler32 s' whole rest where
  wire := by
    rw [begun_of_wire hwire, hwire]
    exact hline.wire
  untouched := fun p hp => by
    rw [Sender.transferred, hwire]
    exact hline.untouched p hp
  next := hnext

theorem framesOf_append (calls calls' : List (Nat × M)) :
    framesOf P adler32 (calls ++ calls')
      = framesOf P adler32 calls ++ framesOf P adler32 calls' := List.flatMap_append

/-- A write that is issued is the last to go out. -/
theorem InLine.fill {whole rest : List (Nat × M)} (hline : InLine P adler32 s whole rest)
    (hinv : Consistent P adler32 s) {j : Nat} {call : Send M} (hcall : s.sends[j]? = some call)
    (halone : Alone s (.fill j)) (h : step P adler32 s (.fill j) = some s') :
    InLine P adler32 s' whole (rest ++ [(j, call.rpcMsg)]) := by
  obtain ⟨old, bv, b, hold, -, hfilling, -, hs'⟩ := step_fill h
  obtain rfl := Option.some.inj (hcall.symm.trans hold)
  have hwire : s'.wire = s.wire := by rw [hs']; rfl
  have hqueue : s'.queue = s.queue ++ [j] := by rw [hs']; rfl
  obtain ⟨b', -, hstage⟩ := hinv.live j call hcall (by rw [hfilling]; exact nofun)
  rw [hfilling] at hstage
  have hnone : s.transferred j = [] := hstage.2
  have hquiet : ∀ k, ¬ ShortAt s k := fun k hk => by
    obtain ⟨callk, hcallk, hshort⟩ := hk
    exact halone callk (List.mem_of_getElem? hcallk) hshort
  have hshort' : ∀ k, ¬ ShortAt s' k := by
    intro k hk
    by_cases hkj : j = k
    · obtain ⟨callk, hcallk, hshort⟩ := hk
      have hself := List.getElem?_set_self (l := s.sends)
        (a := ({ call with stage := .writing b.readerIndex b.readableBytes none } : Send M))
        (List.getElem?_eq_some_iff.mp hcall).1
      rw [hs', ← hkj] at hcallk
      rw [← Option.some.inj (hself.symm.trans hcallk)] at hshort
      exact hshort
    · exact hquiet k ((shortAt_step h fun heq => hkj (Option.some.inj heq)).mp hk)
  obtain ⟨hnext, -⟩ : rest.map Prod.fst = s.queue ∧ ∀ k, ¬ ShortAt s k := by
    rcases hline.next with hqueued | ⟨-, k, m, -, hdue⟩
    · exact hqueued
    · exact absurd ((hdue k).mpr rfl) (hquiet k)
  refine ⟨?_, ?_, .inl ⟨?_, hshort'⟩⟩
  · rw [begun_of_wire hwire, hwire, hline.wire]
    cases rest with
    | nil => rw [List.nil_append, begun, begun, hnone]
    | cons p rest => rfl
  · intro p hp
    rw [Sender.transferred, hwire]
    cases rest with
    | nil => cases hp
    | cons q rest =>
        rcases List.mem_append.mp hp with hold | hlast
        · exact hline.untouched p hold
        · obtain rfl := List.mem_singleton.mp hlast
          exact hnone
  · rw [List.map_append, hnext, hqueue]
    rfl

/-- **A TRANSFER** is from the first frame that is not out. -/
theorem InLine.transfer {whole rest : List (Nat × M)} (hline : InLine P adler32 s whole rest)
    (hissued : Issued s (whole ++ rest)) (hinv : Consistent P adler32 s) {k n : Nat}
    (hasio : AsioStep s (.transfer k n false)) (halone : Alone s (.transfer k n false))
    (h : step P adler32 s (.transfer k n false) = some s') :
    ∃ whole' rest', InLine P adler32 s' whole' rest' ∧ whole' ++ rest' = whole ++ rest := by
  obtain ⟨hqueued, hquiet⟩ : rest.map Prod.fst = s.queue ∧ ∀ k, ¬ ShortAt s k := by
    rcases hline.next with hqueued | ⟨hempty, -⟩
    · exact hqueued
    · have hhead := hasio.1
      rw [hempty] at hhead
      cases hhead
  obtain ⟨m, others, rfl⟩ : ∃ m others, rest = (k, m) :: others := by
    have hhead := hasio.1
    rw [← hqueued] at hhead
    cases rest with
    | nil => cases hhead
    | cons p others =>
        obtain rfl : p.1 = k := Option.some.inj hhead
        exact ⟨p.2, others, rfl⟩
  obtain ⟨call, call', bs, hcall, hcall', hmsg, hqueue, hwire, ⟨offset, hstage'⟩, hle, -,
    hfull⟩ := transfer_cases hinv h
  -- it is the message of this call
  obtain ⟨callm, hcallm, hm, -⟩ := (hissued.mem_iff k m).mp
    (List.mem_append_right _ List.mem_cons_self)
  rw [Option.some.inj (hcallm.symm.trans hcall)] at hm
  have hothers : ∀ p ∈ others, s'.transferred p.1 = [] := by
    intro p hp
    have hne : p.1 ≠ k := by
      intro heq
      have hnodup := hissued.nodup
      rw [List.map_append, List.nodup_append] at hnodup
      refine (List.nodup_cons.mp hnodup.2.1).1 ?_
      show k ∈ others.map Prod.fst
      rw [← heq]
      exact List.mem_map_of_mem hp
    rw [transferred_append hwire p.1, if_neg hne, List.append_nil]
    exact hline.untouched p hp
  have hout : s'.wire.map Prod.snd = framesOf P adler32 whole ++ s'.transferred k := by
    have hbytes : (bs.map fun x => (k, x)).map Prod.snd = bs := by
      rw [List.map_map]
      exact List.map_id bs
    have hbefore : s.wire.map Prod.snd = framesOf P adler32 whole ++ s.transferred k := hline.wire
    rw [hwire, List.map_append, hbefore, transferred_append hwire k, if_pos rfl, hbytes,
      List.append_assoc]
  have hqueue' : s'.queue = others.map Prod.fst := by
    rw [hqueue, ← hqueued]
    exact List.erase_cons_head _ _
  have hshort' : ∀ j, ShortAt s' j ↔ j = k ∧ n < regionLength s k := by
    intro j
    by_cases hj : j = k
    · subst hj
      constructor
      · rintro ⟨callj, hcallj, hshort⟩
        rw [Option.some.inj (hcallj.symm.trans hcall'), hstage'] at hshort
        exact ⟨rfl, hshort⟩
      · rintro ⟨-, hlt⟩
        exact ⟨call', hcall', by rw [hstage']; exact hlt⟩
    · rw [shortAt_step h fun heq => hj (Option.some.inj heq).symm]
      exact iff_of_false (hquiet j) fun hand => hj hand.1
  rcases Nat.lt_or_eq_of_le hle with hlt | heq
  · -- short: it is the only one, and the handler is due
    have hone : others.map Prod.fst = [] := by
      have halone' := halone rfl hlt
      rw [← hqueued] at halone'
      exact (List.cons.inj halone').2
    obtain rfl := List.map_eq_nil_iff.mp hone
    refine ⟨whole, [(k, m)], ⟨hout, ?_, .inr ⟨?_, k, m, rfl, ?_⟩⟩, rfl⟩
    · intro p hp
      cases hp
    · rw [hqueue']
      rfl
    · intro j
      rw [hshort']
      exact and_iff_left hlt
  · refine ⟨whole ++ [(k, m)], others, ⟨?_, ?_, .inl ⟨hqueue'.symm, ?_⟩⟩, ?_⟩
    · have hlast : framesOf P adler32 [(k, m)] = frame P adler32 m := List.append_nil _
      have hnext : begun s' others = [] := by
        cases others with
        | nil => rfl
        | cons p others => exact hothers p List.mem_cons_self
      rw [hout, hfull heq, framesOf_append, hlast, hnext, List.append_nil, hm]
    · exact fun p hp => hothers p (List.mem_of_mem_tail hp)
    · intro j hj
      exact absurd ((hshort' j).mp hj).2 (Nat.not_lt_of_le (Nat.le_of_eq heq.symm))
    · rw [List.append_assoc]
      rfl

/-- The handler of the short write issues the end of its frame; the others
    issue nothing. -/
theorem InLine.onWrite {whole rest : List (Nat × M)} (hline : InLine P adler32 s whole rest)
    (hinv : Consistent P adler32 s) (hok : ¬ Errored s') {k : Nat}
    (h : step P adler32 s (.onWrite k) = some s') : InLine P adler32 s' whole rest := by
  obtain ⟨call, call', hcall, hcall', hwire, herr | ⟨hshort, hqueue, offset, length, hwriting⟩ |
    ⟨hshort, hqueue, hdone⟩⟩ := onWrite_cases hinv h
  · exact absurd ⟨k, call', hcall', herr⟩ hok
  · refine hline.quiet hwire (.inl ?_)
    have hnot : ¬ ShortAt s' k := by
      rintro ⟨callk, hcallk, hshortk⟩
      rw [Option.some.inj (hcallk.symm.trans hcall'), hwriting] at hshortk
      exact hshortk
    rcases hline.next with ⟨-, hquiet⟩ | ⟨hempty, j, m, rfl, hdue⟩
    · exact absurd ⟨call, hcall, hshort⟩ (hquiet k)
    · obtain rfl := (hdue k).mp ⟨call, hcall, hshort⟩
      refine ⟨by rw [hqueue, hempty]; rfl, ?_⟩
      intro i hi
      by_cases hik : i = k
      · exact hnot (hik ▸ hi)
      · have hi' := (shortAt_step h fun heq => hik (Option.some.inj heq).symm).mp hi
        exact hik ((hdue i).mp hi')
  · have hsame : ∀ i, ShortAt s' i ↔ ShortAt s i := by
      intro i
      by_cases hik : i = k
      · subst hik
        refine iff_of_false ?_ ?_
        · rintro ⟨calli, hcalli, hshorti⟩
          rw [Option.some.inj (hcalli.symm.trans hcall'), hdone] at hshorti
          exact hshorti
        · rintro ⟨calli, hcalli, hshorti⟩
          rw [Option.some.inj (hcalli.symm.trans hcall)] at hshorti
          exact hshort hshorti
      · exact shortAt_step h fun heq => hik (Option.some.inj heq).symm
    refine hline.quiet hwire ?_
    rcases hline.next with ⟨hqueued, hquiet⟩ | ⟨hempty, j, m, hone, hdue⟩
    · exact .inl ⟨hqueued.trans hqueue.symm, fun i hi => hquiet i ((hsame i).mp hi)⟩
    · exact .inr ⟨hqueue.trans hempty, j, m, hone, fun i => (hsame i).trans (hdue i)⟩

end Steps

/-! ## The order of issue -/

/-- A call whose write is issued joins the list. -/
def noteIssued (issued : List (Nat × M)) (s : Sender M) : Action M → List (Nat × M)
  | .fill k =>
      match s.sends[k]? with
      | some call => issued ++ [(k, call.rpcMsg)]
      | none => issued
  | _ => issued

section Steps

variable {P : Protobuf M} {adler32 : Bytes → UInt32} {s s' : Sender M}

/-- A step that issues no first write. -/
theorem Issued.keep {issued : List (Nat × M)} (hissued : Issued s issued) {a : Action M}
    (h : step P adler32 s a = some s')
    (hown : ∀ k, a.call = some k → ∃ call call' : Send M, s.sends[k]? = some call ∧
      s'.sends[k]? = some call' ∧ call.stage ≠ .filling ∧ call'.stage ≠ .filling) :
    Issued s' issued where
  nodup := hissued.nodup
  mem_iff := fun k m => by
    rw [hissued.mem_iff]
    constructor
    · rintro ⟨call, hcall, hmsg, hstage⟩
      obtain ⟨call', hcall', hmsg', -, hsame⟩ := step_sends h hcall
      refine ⟨call', hcall', hmsg'.trans hmsg, ?_⟩
      by_cases hk : a.call = some k
      · obtain ⟨-, new, -, hnew, -, hstage'⟩ := hown k hk
        rw [Option.some.inj (hcall'.symm.trans hnew)]
        exact hstage'
      · rw [hsame hk]
        exact hstage
    · rintro ⟨call', hcall', hmsg, hstage⟩
      by_cases hk : a.call = some k
      · obtain ⟨call, -, hcall, -, hstage', -⟩ := hown k hk
        obtain ⟨new, hnew, hmsg', -⟩ := step_sends h hcall
        rw [Option.some.inj (hcall'.symm.trans hnew), hmsg'] at hmsg
        exact ⟨call, hcall, hmsg, hstage'⟩
      · rcases step_sends_back h hcall' hk with hcall | hfilling
        · exact ⟨call', hcall, hmsg, hstage⟩
        · exact absurd hfilling hstage

theorem Issued.fill {issued : List (Nat × M)} (hissued : Issued s issued) {j : Nat}
    {call : Send M} (hcall : s.sends[j]? = some call)
    (h : step P adler32 s (.fill j) = some s') : Issued s' (issued ++ [(j, call.rpcMsg)]) := by
  obtain ⟨old, bv, b, hold, -, hfilling, -, hs'⟩ := step_fill h
  obtain rfl := Option.some.inj (hcall.symm.trans hold)
  have hself : s'.sends[j]? = some
      { call with stage := .writing b.readerIndex b.readableBytes none } := by
    rw [hs']
    exact List.getElem?_set_self (List.getElem?_eq_some_iff.mp hcall).1
  have hfresh : ∀ m, (j, m) ∉ issued := by
    intro m hmem
    obtain ⟨callm, hcallm, -, hstage⟩ := (hissued.mem_iff j m).mp hmem
    rw [Option.some.inj (hcallm.symm.trans hcall)] at hstage
    exact hstage hfilling
  refine ⟨?_, ?_⟩
  · rw [List.map_append, List.nodup_append]
    refine ⟨hissued.nodup, List.nodup_singleton j, ?_⟩
    rintro i hi i' hi' rfl
    obtain ⟨p, hp, rfl⟩ := List.mem_map.mp hi
    obtain rfl : p.1 = j := List.mem_singleton.mp hi'
    exact hfresh p.2 hp
  · intro k m
    rw [List.mem_append, List.mem_singleton]
    by_cases hkj : k = j
    · subst hkj
      constructor
      · rintro (hin | hlast)
        · exact absurd hin (hfresh m)
        · exact ⟨_, hself, (Prod.mk.inj hlast).2.symm, nofun⟩
      · rintro ⟨call', hcall', rfl, -⟩
        rw [Option.some.inj (hcall'.symm.trans hself)]
        exact .inr rfl
    · have hother : (Action.fill j : Action M).call ≠ some k := fun heq =>
        hkj (Option.some.inj heq).symm
      have hnot : (k, m) ≠ (j, call.rpcMsg) := fun heq => hkj (Prod.mk.inj heq).1
      rw [or_iff_left hnot, hissued.mem_iff]
      constructor
      · rintro ⟨callk, hcallk, hmsg, hstage⟩
        obtain ⟨callk', hcallk', -, -, hsame⟩ := step_sends h hcallk
        exact ⟨callk, by rw [← hsame hother]; exact hcallk', hmsg, hstage⟩
      · rintro ⟨callk, hcallk, hmsg, hstage⟩
        rcases step_sends_back h hcallk hother with hold | hfilling'
        · exact ⟨callk, hold, hmsg, hstage⟩
        · exact absurd hfilling' hstage

/-- Which calls are issued, step by step. -/
theorem Issued.step {issued : List (Nat × M)} (hissued : Issued s issued) {a : Action M}
    (h : RpcCodecPool.step P adler32 s a = some s') : Issued s' (noteIssued issued s a) := by
  cases a with
  | select m => exact hissued.keep h fun k hk => nomatch hk
  | fill j =>
      obtain ⟨call, bv, b, hcall, -⟩ := step_fill h
      have hnote : noteIssued issued s (.fill j) = issued ++ [(j, call.rpcMsg)] := by
        rw [noteIssued, hcall]
      rw [hnote]
      exact hissued.fill hcall h
  | transfer j n ec =>
      refine hissued.keep h ?_
      intro k hk
      obtain rfl := Option.some.inj hk
      obtain ⟨call, bv, offset, length, hcall, -, hstage, -, hs'⟩ := step_transfer h
      refine ⟨call, { call with stage := .writing offset length (some (n, ec)) }, hcall, ?_, ?_,
        nofun⟩
      · rw [hs']
        exact List.getElem?_set_self (List.getElem?_eq_some_iff.mp hcall).1
      · rw [hstage]
        exact nofun
  | onWrite j =>
      refine hissued.keep h ?_
      intro k hk
      obtain rfl := Option.some.inj hk
      obtain ⟨call, bv, offset, length, n, ec, hcall, -, hstage, hcases⟩ := step_onWrite h
      have hlt := (List.getElem?_eq_some_iff.mp hcall).1
      have hlive : call.stage ≠ .filling := by
        rw [hstage]
        exact nofun
      rcases hcases with ⟨-, hs'⟩ | ⟨-, b, -, -, hs'⟩ | ⟨-, b, -, -, hs'⟩
      · refine ⟨call, { call with stage := .failed }, hcall, ?_, hlive, nofun⟩
        rw [hs']
        exact List.getElem?_set_self hlt
      · refine ⟨call, { call with stage := .writing b.readerIndex b.readableBytes none }, hcall,
          ?_, hlive, nofun⟩
        rw [hs']
        exact List.getElem?_set_self hlt
      · refine ⟨call, { call with stage := .done }, hcall, ?_, hlive, nofun⟩
        rw [hs']
        exact List.getElem?_set_self hlt

/-- The sender's side: which calls were issued, and how far they are out. -/
structure Sending (P : Protobuf M) (adler32 : Bytes → UInt32) (s : Sender M)
    (issued : List (Nat × M)) : Prop where
  consistent : Consistent P adler32 s
  sound : ¬ Errored s
  calls : Issued s issued
  inLine : ∃ whole rest, InLine P adler32 s whole rest ∧ whole ++ rest = issued

theorem sending_new : Sending P adler32 (Sender.new : Sender M) [] := by
  have hnone : ∀ (k : Nat) (call : Send M), (Sender.new : Sender M).sends[k]? = some call → False :=
    fun k call hcall => nomatch hcall
  refine ⟨consistent_new P adler32, ?_, ⟨List.nodup_nil, ?_⟩, [], [], ⟨rfl, ?_, .inl ⟨rfl, ?_⟩⟩,
    rfl⟩
  · rintro ⟨k, call, hcall, -⟩
    exact hnone k call hcall
  · intro k m
    refine iff_of_false List.not_mem_nil ?_
    rintro ⟨call, hcall, -⟩
    exact hnone k call hcall
  · intro p hp
    cases hp
  · rintro k ⟨call, hcall, -⟩
    exact hnone k call hcall

/-- **EVERY STEP** keeps the frames in the order of issue. -/
theorem Sending.step {issued : List (Nat × M)} (hsending : Sending P adler32 s issued)
    {a : Action M} (hrule : Faultless s a) (h : RpcCodecPool.step P adler32 s a = some s') :
    Sending P adler32 s' (noteIssued issued s a) := by
  obtain ⟨hasio, halone, hsucceeds⟩ := hrule
  have hsound : ¬ Errored s' := fun herr => hsending.sound (errored_back hsucceeds h herr)
  refine ⟨hsending.consistent.step h, hsound, hsending.calls.step h, ?_⟩
  obtain ⟨whole, rest, hline, rfl⟩ := hsending.inLine
  cases a with
  | select m =>
      have hs' := Option.some.inj h
      have hqueue : s'.queue = s.queue := by rw [← hs']
      have hsame : ∀ j, ShortAt s' j ↔ ShortAt s j := fun j => shortAt_step h nofun
      refine ⟨whole, rest, hline.quiet (by rw [← hs']) ?_, rfl⟩
      rcases hline.next with ⟨hqueued, hquiet⟩ | ⟨hempty, k, m, hone, hdue⟩
      · exact .inl ⟨hqueued.trans hqueue.symm, fun j hj => hquiet j ((hsame j).mp hj)⟩
      · exact .inr ⟨hqueue.trans hempty, k, m, hone, fun j => (hsame j).trans (hdue j)⟩
  | fill j =>
      obtain ⟨call, bv, b, hcall, -⟩ := step_fill h
      refine ⟨whole, rest ++ [(j, call.rpcMsg)], hline.fill hsending.consistent hcall halone h, ?_⟩
      rw [noteIssued, hcall]
      exact (List.append_assoc _ _ _).symm
  | transfer k n ec =>
      obtain rfl : ec = false := hsucceeds
      exact hline.transfer hsending.calls hsending.consistent hasio halone h
  | onWrite k => exact ⟨whole, rest, hline.onWrite hsending.consistent hsound h, rfl⟩

/-- A frame that has begun has not gone beyond itself. -/
theorem transferred_prefix (hinv : Consistent P adler32 s) {k : Nat} {call : Send M}
    (hcall : s.sends[k]? = some call) :
    s.transferred k <+: frame P adler32 call.rpcMsg := by
  by_cases hdone : call.stage = .done
  · have hwhole := hinv.finished k call hcall hdone
    exact ⟨[], by rw [List.append_nil, hwhole]⟩
  · obtain ⟨b, -, hok⟩ := hinv.live k call hcall hdone
    cases hstage : call.stage with
    | filling =>
        rw [hstage] at hok
        rw [hok.2]
        exact List.nil_prefix
    | writing offset length result =>
        rw [hstage] at hok
        obtain ⟨-, -, -, -, before, hframe, hsent⟩ := hok
        rw [hsent, ← hframe]
        exact List.prefix_append_right_inj before |>.mpr (List.take_prefix _ _)
    | failed =>
        rw [hstage] at hok
        exact hok
    | done => exact absurd hstage hdone

/-- **THE STREAM**: what is on the socket is the front of the frames issued. -/
theorem Sending.wire_front {issued : List (Nat × M)} (hsending : Sending P adler32 s issued) :
    s.wire.map Prod.snd <+: framesOf P adler32 issued := by
  obtain ⟨whole, rest, hline, rfl⟩ := hsending.inLine
  rw [hline.wire, framesOf_append]
  refine (List.prefix_append_right_inj _).mpr ?_
  cases rest with
  | nil => exact List.nil_prefix
  | cons p rest =>
      obtain ⟨call, hcall, hmsg, -⟩ := (hsending.calls.mem_iff p.1 p.2).mp
        (List.mem_append_right _ List.mem_cons_self)
      have hpart := transferred_prefix hsending.consistent hcall
      rw [hmsg] at hpart
      exact hpart.trans (List.prefix_append _ _)

/-- When nothing is outstanding, all of it. -/
theorem Sending.wire_settled {issued : List (Nat × M)} (hsending : Sending P adler32 s issued)
    (hsettled : ∀ call ∈ s.sends, Stage.Settled call.stage) :
    s.wire.map Prod.snd = framesOf P adler32 issued := by
  obtain ⟨whole, rest, hline, rfl⟩ := hsending.inLine
  have hdone : ∀ p ∈ whole ++ rest, s.transferred p.1 = frame P adler32 p.2 := by
    intro p hp
    obtain ⟨call, hcall, hmsg, hissued⟩ := (hsending.calls.mem_iff p.1 p.2).mp hp
    have hset := hsettled call (List.mem_of_getElem? hcall)
    cases hstage : call.stage with
    | filling => exact absurd hstage hissued
    | writing offset length result =>
        rw [hstage] at hset
        exact hset.elim
    | failed =>
        rw [hstage] at hset
        exact hset.elim
    | done => rw [hsending.consistent.finished p.1 call hcall hstage, hmsg]
  -- no second frame has begun, so there is none
  rw [hline.wire, framesOf_append]
  congr 1
  cases rest with
  | nil => rfl
  | cons p rest =>
      have hfirst := hdone p (List.mem_append_right _ List.mem_cons_self)
      have hnil : rest = [] := by
        cases rest with
        | nil => rfl
        | cons q rest =>
            have hnone := hline.untouched q List.mem_cons_self
            have hwhole := hdone q (List.mem_append_right _
              (List.mem_cons_of_mem _ List.mem_cons_self))
            have hpos : 0 < (frame P adler32 q.2).length := length_frame_pos q.2
            rw [← hwhole, hnone] at hpos
            exact absurd hpos (Nat.lt_irrefl 0)
      rw [hnil, framesOf, List.flatMap_singleton]
      exact hfirst

end Steps

/-! ## The channel -/

/-- The sender, how many of its bytes the receiver has read, and the
    receiver's `inputBuffer_` and calls of `rpcCallback_`. -/
structure Channel (M : Type) where
  sender : Sender M
  received : Nat
  inputBuffer : Except Access Buffer
  callbacks : List (RpcCallback M)

def Channel.new : Channel M := ⟨.new, 0, .ok RpcCodecRead.inputBuffer, []⟩

/-- The bytes on the socket that the receiver has not read. -/
def Channel.unread (c : Channel M) : Bytes := (c.sender.wire.map Prod.snd).drop c.received

inductive Event (M : Type) where
  | send (a : Action M)
  /-- The receiver's read returns `n` bytes to `on_read`. -/
  | read (n : Nat)

section Channel

variable (P : Protobuf M) (adler32 : Bytes → UInt32)

/-- `rpc_codec::on_read`, on the next `n` bytes. -/
def Channel.onRead (c : Channel M) (b : Buffer) (n : Nat) : Channel M :=
  let result := RpcCodecRead.onRead P adler32 b (c.unread.take n)
  { c with
    received := c.received + n
    inputBuffer := result.2
    callbacks := c.callbacks ++ result.1 }

/-- Nothing is read after an access that is undefined. -/
def channelStep (c : Channel M) : Event M → Option (Channel M)
  | .send a => (step P adler32 c.sender a).map fun s' => { c with sender := s' }
  | .read n =>
      match c.inputBuffer with
      | .ok b => if n ≤ c.unread.length then some (c.onRead P adler32 b n) else none
      | .error _ => none

end Channel

def noteEvent (issued : List (Nat × M)) (c : Channel M) : Event M → Channel M → List (Nat × M)
  | .send a, _ => noteIssued issued c.sender a
  | .read _, _ => issued

/-- How a message arrives. -/
def delivery (call : Nat × M) : RpcCallback M := ⟨some call.2, .kNoError⟩

/-- The rule for the sender; the receiver may read at any time. -/
def FaultlessEvent (c : Channel M) : Event M → Prop
  | .send a => Faultless c.sender a
  | .read _ => True

instance (c : Channel M) (e : Event M) : Decidable (FaultlessEvent c e) :=
  match e with
  | .send a => inferInstanceAs (Decidable (Faultless c.sender a))
  | .read _ => isTrue trivial

section Channel

variable {P : Protobuf M} {adler32 : Bytes → UInt32} {c c' : Channel M}

/-- The receiver has made of what it read what the grammar makes of it. -/
structure Delivering (P : Protobuf M) (adler32 : Bytes → UInt32) (c : Channel M)
    (issued : List (Nat × M)) : Prop where
  sending : Sending P adler32 c.sender issued
  received : c.received ≤ c.sender.wire.length
  decoded : observe Buffer.content (c.callbacks, c.inputBuffer)
    = (loopGrammar P adler32).decode ((c.sender.wire.map Prod.snd).take c.received)

theorem delivering_new : Delivering P adler32 (Channel.new : Channel M) [] where
  sending := sending_new
  received := Nat.le_refl 0
  decoded := by
    show (([] : List (RpcCallback M)), some RpcCodecRead.inputBuffer.content) = _
    rw [RpcCodecRead.inputBuffer, Buffer.content_new]
    rfl

/-- What is on the socket stays there. -/
theorem wire_grows {s s' : Sender M} {a : Action M} (h : step P adler32 s a = some s') :
    s.wire <+: s'.wire := by
  cases a with
  | select m =>
      obtain rfl := Option.some.inj h
      exact List.prefix_refl _
  | fill j =>
      obtain ⟨call, bv, b, -, -, -, -, hs'⟩ := step_fill h
      subst hs'
      exact List.prefix_refl _
  | transfer j n ec =>
      obtain ⟨call, bv, offset, length, -, -, -, -, hs'⟩ := step_transfer h
      subst hs'
      exact List.prefix_append _ _
  | onWrite j =>
      obtain ⟨call, bv, offset, length, n, ec, -, -, -, hcases⟩ := step_onWrite h
      rcases hcases with ⟨-, hs'⟩ | ⟨-, b, -, -, hs'⟩ | ⟨-, b, -, -, hs'⟩
      · subst hs'
        exact List.prefix_refl _
      · subst hs'
        exact List.prefix_refl _
      · subst hs'
        exact List.prefix_refl _

theorem Delivering.send {issued : List (Nat × M)} (hdel : Delivering P adler32 c issued)
    {a : Action M} {s' : Sender M} (hrule : Faultless c.sender a)
    (h : step P adler32 c.sender a = some s') :
    Delivering P adler32 { c with sender := s' } (noteIssued issued c.sender a) := by
  obtain ⟨more, hmore⟩ := wire_grows h
  refine ⟨hdel.sending.step hrule h, ?_, ?_⟩
  · show c.received ≤ s'.wire.length
    rw [← hmore, List.length_append]
    exact Nat.le_trans hdel.received (Nat.le_add_right _ _)
  · show _ = (loopGrammar P adler32).decode ((s'.wire.map Prod.snd).take c.received)
    rw [← hmore, List.map_append, List.take_append_of_le_length
      (by rw [List.length_map]; exact hdel.received)]
    exact hdel.decoded

theorem Delivering.read {issued : List (Nat × M)} (hdel : Delivering P adler32 c issued)
    {b : Buffer} (hb : c.inputBuffer = .ok b) {n : Nat} (hn : n ≤ c.unread.length) :
    Delivering P adler32 (c.onRead P adler32 b n) issued := by
  have hlength : c.unread.length = c.sender.wire.length - c.received := by
    rw [Channel.unread, List.length_drop, List.length_map]
  refine ⟨hdel.sending, ?_, ?_⟩
  · show c.received + n ≤ c.sender.wire.length
    have hread := hdel.received
    omega
  · have hbefore := hdel.decoded
    rw [hb] at hbefore
    have htail : ((loopGrammar P adler32).decode
        ((c.sender.wire.map Prod.snd).take c.received)).2 = some b.content := by
      rw [← hbefore]
      rfl
    have hchunk := observe_onRead P adler32 b (c.unread.take n)
    show (c.callbacks ++ (RpcCodecRead.onRead P adler32 b (c.unread.take n)).1,
        (RpcCodecRead.onRead P adler32 b (c.unread.take n)).2.toOption.map Buffer.content)
      = (loopGrammar P adler32).decode ((c.sender.wire.map Prod.snd).take (c.received + n))
    have hsplit : (c.sender.wire.map Prod.snd).take (c.received + n)
        = (c.sender.wire.map Prod.snd).take c.received ++ c.unread.take n := List.take_add
    rw [hsplit, (loopGrammar P adler32).decode_append _ _ _ htail, ← hbefore, ← hchunk]
    rfl

theorem delivering_of_reaches {issued : List (Nat × M)}
    (h : Reaches (traced (channelStep P adler32) noteEvent) (fun w e => FaultlessEvent w.1 e)
      (Channel.new, []) (c, issued)) : Delivering P adler32 c issued := by
  refine h.invariant (I := fun w => Delivering P adler32 w.1 w.2) delivering_new ?_
  rintro ⟨c, issued⟩ e ⟨c', issued'⟩ hdel hrule hstep
  obtain ⟨htaken, rfl⟩ := traced_some hstep
  cases e with
  | send a =>
      obtain ⟨s', hs', rfl⟩ := Option.map_eq_some_iff.mp htaken
      exact hdel.send hrule hs'
  | read n =>
      simp only [channelStep] at htaken
      split at htaken
      · next b hb =>
          obtain ⟨hn, heq⟩ := Option.ite_none_right_eq_some.mp htaken
          obtain rfl := Option.some.inj heq
          exact hdel.read hb hn
      · cases htaken

/-- **TWO CODECS MAKE A QUEUE**: as long as writes succeed and nothing gets
    between the parts of a frame, what is delivered is the first of the
    messages issued, in the order of issue, each once and unchanged, however
    the writes are split and the reads cut; `on_read` never runs into an
    undefined access; and when all is written and read, all are delivered. -/
theorem codec_channel {issued : List (Nat × M)}
    (h : Reaches (traced (channelStep P adler32) noteEvent) (fun w e => FaultlessEvent w.1 e)
      (Channel.new, []) (c, issued))
    (hback : ∀ p ∈ issued, P.ParsesBack p.2)
    (hsize : ∀ p ∈ issued, (P.serialize p.2).length ≤ 2 ^ 31 - 5) :
    Issued c.sender issued ∧ (∃ b, c.inputBuffer = .ok b) ∧
      c.callbacks <+: issued.map delivery ∧
      ((∀ call ∈ c.sender.sends, Stage.Settled call.stage) → c.unread = [] →
        c.callbacks = issued.map delivery) := by
  have hdel := delivering_of_reaches h
  have hall : (loopGrammar P adler32).decode (framesOf P adler32 issued)
      = (issued.map delivery, some []) := by
    have hmsgs : framesOf P adler32 issued
        = ((issued.map Prod.snd).map (frame P adler32)).flatten := by
      rw [framesOf, List.flatMap_def, List.map_map]
      rfl
    have hdecode := (loopGrammar P adler32).decode_frames (frame P adler32)
      (fun m => (⟨some m, .kNoError⟩ : RpcCallback M)) rfl (issued.map Prod.snd)
      (fun m hm t => by
        obtain ⟨p, hp, rfl⟩ := List.mem_map.mp hm
        exact loopNext_built_frame P adler32 (hsize p hp) (hback p hp) t)
    rw [hmsgs, hdecode, List.map_map]
    rfl
  obtain ⟨behind, hbehind⟩ :=
    (List.take_prefix c.received _).trans (Sending.wire_front hdel.sending)
  have hsound : ((loopGrammar P adler32).decode
      ((c.sender.wire.map Prod.snd).take c.received ++ behind)).2 ≠ none := by
    rw [hbehind, hall]
    exact Option.some_ne_none _
  obtain ⟨hend, hfront⟩ := (loopGrammar P adler32).decode_front hsound
  rw [hbehind, hall] at hfront
  have hdecoded := hdel.decoded
  refine ⟨hdel.sending.calls, ?_, ?_, ?_⟩
  · rw [← hdecoded] at hend
    cases hbuffer : c.inputBuffer with
    | ok b => exact ⟨b, rfl⟩
    | error a =>
        rw [hbuffer] at hend
        exact absurd rfl hend
  · rw [← hdecoded] at hfront
    exact hfront
  · intro hsettled hunread
    have hread : c.sender.wire.length ≤ c.received := by
      rw [← List.length_map (f := Prod.snd)]
      exact List.drop_eq_nil_iff.mp hunread
    rw [List.take_of_length_le (by rw [List.length_map]; exact hread),
      hdel.sending.wire_settled hsettled, hall] at hdecoded
    exact congrArg Prod.fst hdecoded

end Channel

def noMethodReply : RpcMessage := { noServiceReply with error := .noMethod }

/-- Two replies; the second is issued first, and goes out in two parts; three
    reads. -/
def twoReplies : List (Event RpcMessage) :=
  [.send (.select noServiceReply), .send (.select noMethodReply), .send (.fill 1),
    .send (.transfer 1 5 false), .read 3, .send (.onWrite 1), .send (.fill 0),
    .send (.transfer 1 7 false), .read 9, .send (.transfer 0 12 false), .send (.onWrite 0),
    .send (.onWrite 1), .read 12]

theorem codec_channel_on_replies :
    ∃ c : Channel RpcMessage, Issued c.sender [(1, noMethodReply), (0, noServiceReply)] ∧
      (∃ b, c.inputBuffer = .ok b) ∧
      c.callbacks <+: [delivery (1, noMethodReply), delivery (0, noServiceReply)] ∧
      ((∀ call ∈ c.sender.sends, Stage.Settled call.stage) → c.unread = [] →
        c.callbacks = [delivery (1, noMethodReply), delivery (0, noServiceReply)]) := by
  have hrun : (guardedRun (traced (channelStep rpcProto zlibAdler32) noteEvent)
      (fun w e => FaultlessEvent w.1 e) (Channel.new, []) twoReplies).map Prod.snd
        = some [(1, noMethodReply), (0, noServiceReply)] := by decide +kernel
  obtain ⟨⟨c, issued⟩, hreach, rfl⟩ := exists_of_guardedRun hrun
  have hback : ∀ p ∈ ([(1, noMethodReply), (0, noServiceReply)] : List (Nat × RpcMessage)),
      rpcProto.ParsesBack p.2 := by
    intro p hp
    rcases List.mem_pair.mp hp with rfl | rfl
    · exact rpcProto_parsesBack (by decide +kernel)
    · exact rpcProto_parsesBack (by decide +kernel)
  refine ⟨c, codec_channel hreach hback ?_⟩
  intro p hp
  rcases List.mem_pair.mp hp with rfl | rfl
  · decide +kernel
  · decide +kernel

end RpcCodecChannel
