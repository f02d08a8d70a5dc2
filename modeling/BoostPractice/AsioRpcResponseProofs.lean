import Mathlib.Data.List.Forall2
import BoostPractice.AsioRpcReaderProofs

/-! # Responses, from the stream to the closures

    The length of a response tells `rpc_client::on_read` when to decode it and
    how much to drop afterwards, but not what to parse: that is everything
    readable, and with the next response already there both are parsed at
    once.  And a response that nobody waits for takes the same way through the
    loop as any other, with two null pointers.

    What a run does is computed from the bytes that are readable behind each
    length when its turn comes, `reads` (`run_eq`).  `own_frames_iff` says
    when each response is decoded from its own bytes, and `tolerates_iff` when
    the client gets through responses that it did not ask for. -/

namespace AsioRpcResponse

open MachineInt FrameDecoding BoostBuffer RpcMessages PrefixReader AsioRpcReader
open RpcCodecRead (lengthField)
open ChatReader (length_messageFrame)

variable {M : Type} (P : Protobuf M) (id : M → Int32)

/-! ## An iteration with what it parses -/

/-- What an iteration has done: the bytes that it parsed for the id and into
    the response object, the call that it completed, and `resCalls_` after it. -/
structure Iteration (M : Type) where
  idRange : Bytes
  responseRange : Bytes
  solved : Solved M
  resCalls : ResCalls

/-- The bytes that `ParseFromArray(peek(), readableBytes())` parses. -/
def readableRange (b : Buffer) : Except Misuse Bytes :=
  let n := toSizeT (toInt32 b.readableBytes)
  if n ≤ b.readableBytes then .ok (b.content.take n)
  else .error (.parse n b.readableBytes)

/-- The body of the loop of `rpc_client::on_read`, the length retrieved. -/
def iterateBody (b : Buffer) (len : Int32) (resCalls : ResCalls) :
    Except ClientFault (Option (Iteration M × Buffer)) := do
  let idRange ← misused (readableRange b)
  let resTemp := (P.parseFromArray idRange).1
  let (callback, resCalls) := takeCall resCalls (id resTemp)
  match callback.response with
  | none => .error .nullResponse
  | some response => do
      let responseRange ← misused (readableRange b)
      let value := (P.parseFromArray responseRange).1
      let b ← misused (retrieve b (toSizeT len.toInt))
      match callback.done with
      | none => .error .nullDone
      | some done => return some (⟨idRange, responseRange, ⟨response, value, done⟩, resCalls⟩, b)

/-- One evaluation of the loop condition and, if it holds, of the body. -/
def iterate (b : Buffer) (resCalls : ResCalls) :
    Except ClientFault (Option (Iteration M × Buffer)) :=
  if 4 ≤ b.readableBytes then do
    let len ← misused (peekInt32 b)
    if toSizeT (4 + len.toInt) ≤ b.readableBytes then do
      let b ← misused (retrieve b 4)
      iterateBody P id b len resCalls
    else
      return none
  else
    return none

/-- The client between two tests of its loop, `turn` iterations having been
    run. -/
structure Client where
  turn : Nat
  inputBuffer : Buffer
  resCalls : ResCalls

/-- What `CallMethod` does to `resCalls_`, call by call. -/
def register (calls : List (Int32 × ResponseCall)) (resCalls : ResCalls) : ResCalls :=
  calls.foldl (fun resCalls call => Function.update resCalls call.1 (some call.2)) resCalls

section Run

variable (calls : Nat → List (Int32 × ResponseCall))

/-- An iteration of a client whose other threads have made the calls
    `calls k` before the `k`-th iteration locks `resCalls_`. -/
def clientTurn (s : Client) : Except ClientFault (Option (Iteration M × Client)) :=
  (iterate P id s.inputBuffer (register (calls s.turn) s.resCalls)).map fun next =>
    next.map fun (it, b) => (it, ⟨s.turn + 1, b, it.resCalls⟩)

def arrive (s : Client) (bytes : Bytes) : Client :=
  { s with inputBuffer := (s.inputBuffer.ensureWritableBytes bytes.length).append bytes }

def Client.size (s : Client) : Nat := s.inputBuffer.readableBytes

/-- `rpc_client::on_read`. -/
def onRead : Client → Bytes → List (Iteration M) × Except ClientFault Client :=
  loopReader arrive (clientTurn P id calls) Client.size

/-- A client that has read nothing. -/
def Client.new (resCalls : ResCalls) : Client := ⟨0, Buffer.new kInitialSize, resCalls⟩

end Run

theorem parseReadable_eq (b : Buffer) :
    parseReadable P b = (readableRange b).map fun range => (P.parseFromArray range).1 := by
  rw [parseReadable, readableRange]
  split
  · rfl
  · rfl

/-- Without what it parses, an iteration is that of the reader. -/
theorem clientBody_eq (b : Buffer) (len : Int32) (resCalls : ResCalls) :
    clientBody P id b len resCalls
      = (iterateBody P id b len resCalls).map fun next =>
          next.map fun (it, b) => (it.solved, b, it.resCalls) := by
  rw [clientBody, iterateBody, parseReadable_eq]
  rcases readableRange b with misuse | range
  · rfl
  · simp only [Except.map, misused_ok_bind]
    rcases (takeCall resCalls (id (P.parseFromArray range).1)).1 with ⟨_ | response, done⟩
    · rfl
    · rcases retrieve b (toSizeT len.toInt) with misuse | b'
      · rfl
      · cases done with
        | none => rfl
        | some done => rfl

theorem clientStep_eq (b : Buffer) (resCalls : ResCalls) :
    clientStep P id b resCalls
      = (iterate P id b resCalls).map fun next =>
          next.map fun (it, b) => (it.solved, b, it.resCalls) := by
  rw [clientStep, iterate]
  by_cases h4 : 4 ≤ b.readableBytes
  · rw [if_pos h4, if_pos h4, peekInt32_ok h4, misused_ok_bind, misused_ok_bind]
    by_cases hguard : toSizeT (4 + (lengthField b.content).toInt) ≤ b.readableBytes
    · obtain ⟨b₁, hb₁, -⟩ := retrieve_ok h4
      rw [if_pos hguard, if_pos hguard, hb₁, misused_ok_bind, misused_ok_bind, clientBody_eq]
    · rw [if_neg hguard, if_neg hguard]
      rfl
  · rw [if_neg h4, if_neg h4]
    rfl

/-! ## Which bytes an iteration sees -/

/-- The number of readable bytes is not negative as an `int`. -/
def Fits (s : Bytes) : Prop := toSizeT (toInt32 s.length) ≤ s.length

instance (s : Bytes) : Decidable (Fits s) := inferInstanceAs (Decidable (_ ≤ _))

/-- The value that bytes are parsed to. -/
def valueOf (s : Bytes) : M := (P.parseFromArray s).1

/-- What an iteration with `s` readable behind its length comes to. -/
def complete (resCalls : ResCalls) (s : Bytes) : Except ClientFault (Iteration M) :=
  if Fits s then
    let range := parsedRange s
    let value := valueOf P range
    match resCalls (id value) with
    | none => .error .nullResponse
    | some ⟨none, _⟩ => .error .nullResponse
    | some ⟨some _, none⟩ => .error .nullDone
    | some ⟨some response, some done⟩ =>
        .ok ⟨range, range, ⟨response, value, done⟩, Function.update resCalls (id value) none⟩
  else .error (.misuse (.parse (toSizeT (toInt32 s.length)) s.length))

theorem readableRange_eq (b : Buffer) :
    readableRange b = if Fits b.content
      then .ok (parsedRange b.content)
      else .error (.parse (toSizeT (toInt32 b.content.length)) b.content.length) := by
  rw [readableRange, parsedRange, ← b.length_content]
  rfl

/-- The body, when what its length asks for is there. -/
theorem iterateBody_complete {b : Buffer} {len : Int32} {n : Nat} (hlen : len.toInt = n)
    (hle : n ≤ b.content.length) (resCalls : ResCalls) :
    ∃ b', b'.content = b.content.drop n ∧
      iterateBody P id b len resCalls
        = (complete P id resCalls b.content).map fun it => some (it, b') := by
  rw [b.length_content] at hle
  obtain ⟨b', hb', hcontent⟩ := retrieve_ok hle
  refine ⟨b', hcontent, ?_⟩
  rw [iterateBody, complete, readableRange_eq, toSizeT_length hlen, hb']
  split
  · simp only [misused_ok_bind, takeCall, valueOf]
    rcases resCalls (id (P.parseFromArray (parsedRange b.content)).1) with
      _ | ⟨_ | response, _ | done⟩
    · rfl
    · rfl
    · rfl
    · rfl
    · rfl
  · rfl

/-- With the front of a stream of responses readable, the loop waits until the
    first of them is there. -/
theorem iterate_waits {b : Buffer} {p t : Bytes} (hsize : p.length < 2 ^ 31)
    (hfront : b.content <+: messageFrame p ++ t) (hshort : b.content.length < 4 + p.length)
    (resCalls : ResCalls) : iterate P id b resCalls = .ok none := by
  rw [iterate]
  split
  · next h4 =>
      have hlen : (Int32.ofNat p.length).toInt = p.length := Int32.toInt_ofNat_of_lt hsize
      have hneeded : toSizeT (4 + (Int32.ofNat p.length).toInt) = 4 + p.length := by
        have := toSizeT_of_nonneg (n := 4 + (Int32.ofNat p.length).toInt) (by omega) (by omega)
        omega
      rw [peekInt32_ok h4, misused_ok_bind,
        lengthField_messageFrame hfront (b.length_content ▸ h4), hneeded, ← b.length_content,
        if_neg (Nat.not_le_of_lt hshort)]
      rfl
  · rfl

/-- When it is, the iteration sees all that is readable behind its length. -/
theorem iterate_complete {b : Buffer} {p t : Bytes} (hsize : p.length < 2 ^ 31)
    (hcontent : b.content = messageFrame p ++ t) (resCalls : ResCalls) :
    ∃ b', b'.content = t ∧
      iterate P id b resCalls = (complete P id resCalls (p ++ t)).map fun it => some (it, b') := by
  have hlen : (Int32.ofNat p.length).toInt = p.length := Int32.toInt_ofNat_of_lt hsize
  have hlength : b.content.length = 4 + p.length + t.length := by
    rw [hcontent, List.length_append, length_messageFrame]
  have h4 : 4 ≤ b.readableBytes := by
    rw [← b.length_content]
    omega
  have hfront : b.content <+: messageFrame p ++ t := ⟨[], by rw [List.append_nil, hcontent]⟩
  have hfield : lengthField b.content = Int32.ofNat p.length :=
    lengthField_messageFrame hfront (by omega)
  have hneeded : toSizeT (4 + (Int32.ofNat p.length).toInt) = 4 + p.length := by
    have := toSizeT_of_nonneg (n := 4 + (Int32.ofNat p.length).toInt) (by omega) (by omega)
    omega
  obtain ⟨b₁, hb₁, hcontent₁⟩ := retrieve_ok h4
  have hrest : b₁.content = p ++ t := by
    rw [hcontent₁, hcontent, messageFrame, List.append_assoc, List.drop_left' (length_int32Bytes _)]
  obtain ⟨b', hb', hbody⟩ := iterateBody_complete P id (b := b₁) hlen
    (by rw [hrest, List.length_append]; omega) resCalls
  refine ⟨b', by rw [hb', hrest, List.drop_left], ?_⟩
  rw [iterate, if_pos h4, peekInt32_ok h4, misused_ok_bind, hfield, hneeded, ← b.length_content,
    if_pos (by omega), hb₁, misused_ok_bind, hbody, hrest]

/-! ## Whole runs -/

/-- More pieces, until `n` bytes are there. -/
def receive (n : Nat) : Bytes → List Bytes → Bytes × List Bytes
  | s, [] => (s, [])
  | s, c :: cs => if n ≤ s.length then (s, c :: cs) else receive n (s ++ c) cs

/-- What is readable behind the length of each response when it is complete,
    `s` being buffered. -/
def reads : List Bytes → Bytes → List Bytes → List Bytes
  | [], _, _ => []
  | p :: ps, s, cs =>
      let arrived := receive (4 + p.length) s cs
      arrived.1.drop 4 :: reads ps (arrived.1.drop (4 + p.length)) arrived.2

/-- Pieces are received until the first response is there, with a part of the
    others behind it. -/
theorem receive_front {f rest : Bytes} :
    ∀ {cs : List Bytes} {s : Bytes}, s ++ cs.flatten = f ++ rest →
      ∃ t, (receive f.length s cs).1 = f ++ t ∧ t ++ (receive f.length s cs).2.flatten = rest := by
  intro cs
  induction cs with
  | nil =>
      intro s hs
      rw [List.flatten_nil, List.append_nil] at hs
      exact ⟨rest, hs, List.append_nil _⟩
  | cons c cs ih =>
      intro s hs
      rw [receive]
      by_cases hle : f.length ≤ s.length
      · obtain ⟨t, rfl⟩ := List.prefix_of_prefix_length_le (List.prefix_append f rest)
          (hs ▸ List.prefix_append s _) hle
        rw [if_pos hle]
        rw [List.append_assoc] at hs
        exact ⟨t, rfl, List.append_cancel_left hs⟩
      · rw [if_neg hle]
        refine ih ?_
        rw [List.append_assoc]
        exact hs

/-- Each response is at the front of what is readable. -/
theorem reads_front {ps : List Bytes} :
    ∀ {s : Bytes} {cs : List Bytes}, s ++ cs.flatten = (ps.map messageFrame).flatten →
      List.Forall₂ (fun p r => p <+: r) ps (reads ps s cs) := by
  induction ps with
  | nil => exact fun _ => .nil
  | cons p ps ih =>
      intro s cs hs
      rw [List.map_cons, List.flatten_cons] at hs
      obtain ⟨t, harrived, hrest⟩ := receive_front hs
      rw [length_messageFrame] at harrived hrest
      have hdrop : (messageFrame p ++ t).drop 4 = p ++ t := by
        rw [messageFrame, List.append_assoc, List.drop_left' (length_int32Bytes _)]
      rw [reads, harrived, hdrop, List.drop_left' (length_messageFrame p)]
      exact .cons (List.prefix_append p t) (ih hrest)

section Run

variable (calls : Nat → List (Int32 × ResponseCall))

/-- An iteration and, if it completes, what the others come to. -/
def andThen (first : Except ClientFault (Iteration M))
    (others : ResCalls → List (Iteration M) × Option ClientFault) :
    List (Iteration M) × Option ClientFault :=
  match first with
  | .error fault => ([], some fault)
  | .ok it => (it :: (others it.resCalls).1, (others it.resCalls).2)

/-- The iterations from the `k`-th on that see these bytes, and what ends
    them. -/
def answers : Nat → ResCalls → List Bytes → List (Iteration M) × Option ClientFault
  | _, _, [] => ([], none)
  | k, resCalls, s :: ss =>
      andThen (complete P id (register (calls k) resCalls) s) fun resCalls =>
        answers (k + 1) resCalls ss

/-- What ended a run. -/
def faultOf : Except ClientFault Client → Option ClientFault
  | .ok _ => none
  | .error fault => some fault

variable {P id calls}

/-- A completed iteration has retrieved the length at least. -/
theorem size_clientTurn (s : Client) (it : Iteration M) (s' : Client)
    (h : clientTurn P id calls s = .ok (some (it, s'))) : s'.size < s.size := by
  rw [clientTurn] at h
  rcases hit : iterate P id s.inputBuffer (register (calls s.turn) s.resCalls) with
    fault | _ | ⟨it', b⟩
  · rw [hit] at h
    cases h
  · rw [hit] at h
    cases h
  · rw [hit] at h
    obtain ⟨-, rfl⟩ := Prod.mk.inj (Option.some.inj (Except.ok.inj h))
    have hstep : clientStepIn P id (fun _ => register (calls s.turn) s.resCalls)
        (s.turn, s.inputBuffer) = .ok (some (it'.solved, s.turn + 1, b)) := by
      rw [clientStepIn, clientStep_eq, hit]
      rfl
    exact clientStepIn_shrinks P id _ _ _ _ hstep

variable (P id calls) in
/-- An iteration of the client sees all that is readable. -/
theorem clientTurn_complete {s : Client} {p t : Bytes} (hsize : p.length < 2 ^ 31)
    (hcontent : s.inputBuffer.content = messageFrame p ++ t) :
    ∃ b, b.content = t ∧ clientTurn P id calls s
      = (complete P id (register (calls s.turn) s.resCalls) (p ++ t)).map fun it =>
          some (it, ⟨s.turn + 1, b, it.resCalls⟩) := by
  obtain ⟨b, hb, hit⟩ := iterate_complete P id hsize hcontent (register (calls s.turn) s.resCalls)
  refine ⟨b, hb, ?_⟩
  rw [clientTurn, hit]
  rcases complete P id (register (calls s.turn) s.resCalls) (p ++ t) with fault | it
  · rfl
  · rfl

theorem clientTurn_waits {s : Client} {p t : Bytes} (hsize : p.length < 2 ^ 31)
    (hfront : s.inputBuffer.content <+: messageFrame p ++ t)
    (hshort : s.inputBuffer.content.length < 4 + p.length) :
    clientTurn P id calls s = .ok none := by
  rw [clientTurn, iterate_waits P id hsize hfront hshort]
  rfl

variable (P id calls) in
/-- Until the first response is there, its pieces are taken in. -/
theorem readOn_receive {p rest : Bytes} (hsize : p.length < 2 ^ 31) :
    ∀ {cs : List Bytes} {s : Client},
      s.inputBuffer.content ++ cs.flatten = messageFrame p ++ rest →
      ∃ b, b.content = (receive (4 + p.length) s.inputBuffer.content cs).1 ∧
        readOn arrive (clientTurn P id calls) Client.size s cs
          = readOn arrive (clientTurn P id calls) Client.size { s with inputBuffer := b }
              (receive (4 + p.length) s.inputBuffer.content cs).2 := by
  intro cs
  induction cs with
  | nil => exact fun {s} _ => ⟨s.inputBuffer, rfl, rfl⟩
  | cons c cs ih =>
      intro s hs
      rw [receive]
      by_cases hle : 4 + p.length ≤ s.inputBuffer.content.length
      · rw [if_pos hle]
        exact ⟨s.inputBuffer, rfl, rfl⟩
      · have hfront : s.inputBuffer.content <+: messageFrame p ++ rest :=
          hs ▸ List.prefix_append _ _
        have hcontent : (arrive s c).inputBuffer.content = s.inputBuffer.content ++ c :=
          content_arrive s.inputBuffer c
        rw [if_neg hle, readOn_piece (clientTurn_waits hsize hfront (Nat.lt_of_not_le hle)),
          ← hcontent]
        refine ih (s := arrive s c) ?_
        rw [hcontent, List.append_assoc]
        exact hs

theorem clientTurn_empty {s : Client} (hs : s.inputBuffer.content = []) :
    clientTurn P id calls s = .ok none := by
  refine clientTurn_waits (p := []) (t := []) (by decide) ?_ ?_
  · rw [hs]
    exact List.nil_prefix
  · rw [hs]
    decide

variable (P id calls) in
/-- Behind the last response there is nothing to do. -/
theorem readOn_drained :
    ∀ {cs : List Bytes} {s : Client}, s.inputBuffer.content ++ cs.flatten = [] →
      ∃ s', readOn arrive (clientTurn P id calls) Client.size s cs = ([], .ok s') := by
  intro cs
  induction cs with
  | nil =>
      intro s hs
      rw [List.flatten_nil, List.append_nil] at hs
      exact ⟨s, readOn_left (clientTurn_empty hs) []⟩
  | cons c cs ih =>
      intro s hs
      rw [List.append_eq_nil_iff] at hs
      rw [readOn_piece (clientTurn_empty hs.1)]
      refine ih ?_
      have hcontent : (arrive s c).inputBuffer.content = s.inputBuffer.content ++ c :=
        content_arrive s.inputBuffer c
      rw [hcontent, List.append_assoc, hs.1]
      exact hs.2

variable (P id calls) in
/-- **WHAT A RUN DOES**, from a test of the loop on: one iteration for each
    response, with what is readable then. -/
theorem readOn_reads {ps : List Bytes} (hsize : ∀ p ∈ ps, p.length < 2 ^ 31) :
    ∀ {s : Client} {cs : List Bytes},
      s.inputBuffer.content ++ cs.flatten = (ps.map messageFrame).flatten →
      ((readOn arrive (clientTurn P id calls) Client.size s cs).1,
        faultOf (readOn arrive (clientTurn P id calls) Client.size s cs).2)
      = answers P id calls s.turn s.resCalls (reads ps s.inputBuffer.content cs) := by
  induction ps with
  | nil =>
      intro s cs hs
      obtain ⟨s', hs'⟩ := readOn_drained P id calls hs
      rw [hs']
      rfl
  | cons p ps ih =>
      intro s cs hs
      rw [List.map_cons, List.flatten_cons] at hs
      obtain ⟨t, harrived, hrest⟩ := receive_front hs
      rw [length_messageFrame] at harrived hrest
      have hp := hsize p List.mem_cons_self
      obtain ⟨b, hb, hread⟩ := readOn_receive P id calls hp hs
      obtain ⟨b', hb', hturn⟩ := clientTurn_complete P id calls
        (s := { s with inputBuffer := b }) hp (hb.trans harrived)
      have hdrop : (messageFrame p ++ t).drop 4 = p ++ t := by
        rw [messageFrame, List.append_assoc, List.drop_left' (length_int32Bytes _)]
      rw [hread, reads, harrived, hdrop, List.drop_left' (length_messageFrame p), answers]
      rcases hcomplete : complete P id (register (calls s.turn) s.resCalls) (p ++ t) with fault | it
      · rw [hcomplete] at hturn
        rw [readOn_failed hturn]
        rfl
      · have hrec := ih (fun p' hp' => hsize p' (List.mem_cons_of_mem _ hp'))
          (s := ⟨s.turn + 1, b', it.resCalls⟩) (hb'.symm ▸ hrest)
        rw [hcomplete] at hturn
        rw [readOn_again size_clientTurn hturn]
        rw [hb'] at hrec
        exact congrArg (fun rest => (it :: rest.1, rest.2)) hrec

variable (P id calls) in
/-- **A RUN** of a client that starts with `resCalls`. -/
theorem run_eq {ps : List Bytes} (hsize : ∀ p ∈ ps, p.length < 2 ^ 31) {chunks : List Bytes}
    (hcut : chunks.flatten = (ps.map messageFrame).flatten) (resCalls : ResCalls) :
    (feed (onRead P id calls) (Client.new resCalls) chunks).1
        = (answers P id calls 0 resCalls (reads ps [] chunks)).1 ∧
      faultOf (feed (onRead P id calls) (Client.new resCalls) chunks).2
        = (answers P id calls 0 resCalls (reads ps [] chunks)).2 := by
  have hcontent : (Client.new resCalls).inputBuffer.content = [] := Buffer.content_new _
  have hstart : (Client.new resCalls).inputBuffer.content ++ chunks.flatten
      = (ps.map messageFrame).flatten := by
    rw [hcontent]
    exact hcut
  have hrun := readOn_reads P id calls hsize hstart
  rw [readOn_left (clientTurn_empty hcontent), hcontent] at hrun
  exact Prod.mk.inj hrun

end Run

/-- An iteration completes if and only if it finds an entry with both pointers
    for the id that it reads. -/
theorem complete_iff {resCalls : ResCalls} {s : Bytes} {it : Iteration M} :
    complete P id resCalls s = .ok it ↔ Fits s ∧ ∃ response done,
      resCalls (id (valueOf P (parsedRange s))) = some ⟨some response, some done⟩ ∧
      it = ⟨parsedRange s, parsedRange s, ⟨response, valueOf P (parsedRange s), done⟩,
        Function.update resCalls (id (valueOf P (parsedRange s))) none⟩ := by
  rw [complete]
  by_cases hfits : Fits s
  · rw [if_pos hfits]
    dsimp only
    rcases hcall : resCalls (id (valueOf P (parsedRange s))) with _ | ⟨_ | response, _ | done⟩
    · refine iff_of_false nofun ?_
      rintro ⟨-, _, _, h, -⟩
      cases h
    · refine iff_of_false nofun ?_
      rintro ⟨-, _, _, h, -⟩
      cases h
    · refine iff_of_false nofun ?_
      rintro ⟨-, _, _, h, -⟩
      cases h
    · refine iff_of_false nofun ?_
      rintro ⟨-, _, _, h, -⟩
      cases h
    · constructor
      · intro h
        exact ⟨hfits, response, done, rfl, (Except.ok.inj h).symm⟩
      · rintro ⟨-, _, _, h, rfl⟩
        cases h
        rfl
  · rw [if_neg hfits]
    exact iff_of_false nofun fun h => hfits h.1

theorem complete_ok {resCalls : ResCalls} {s : Bytes} {it : Iteration M}
    (h : complete P id resCalls s = .ok it) :
    Fits s ∧ it.idRange = parsedRange s ∧
      resCalls (id (valueOf P (parsedRange s)))
        = some ⟨some it.solved.response, some it.solved.done⟩ ∧
      it.resCalls = Function.update resCalls (id (valueOf P (parsedRange s))) none := by
  obtain ⟨hfits, response, done, hcall, rfl⟩ := (complete_iff P id).mp h
  dsimp only
  exact ⟨hfits, Eq.refl _, hcall, Eq.refl _⟩

/-- A number of bytes converted to an `int` and back. -/
theorem toSizeT_toInt32_eq_iff {n k : Nat} (hk : k < 2 ^ 31) :
    toSizeT (toInt32 n) = k ↔ n % 2 ^ 32 = k := by
  rw [toSizeT, toInt32, Int.bmod_def]
  split
  · constructor
    · intro h
      omega
    · intro h
      omega
  · constructor
    · intro h
      omega
    · intro h
      omega

/-- The bytes that are parsed are those of the response if and only if none
    are readable behind it, up to multiples of `2 ^ 32`. -/
theorem parsedRange_own_iff {p s : Bytes} (hsize : p.length < 2 ^ 31) (hfront : p <+: s) :
    Fits s ∧ parsedRange s = p ↔ (s.length - p.length) % 2 ^ 32 = 0 := by
  obtain ⟨t, rfl⟩ := hfront
  rw [Fits, parsedRange, List.length_append, Nat.add_sub_cancel_left]
  have hcount : toSizeT (toInt32 (p.length + t.length : Nat)) = p.length ↔
      t.length % 2 ^ 32 = 0 := by
    rw [toSizeT_toInt32_eq_iff hsize]
    omega
  rw [← hcount]
  constructor
  · rintro ⟨hfits, hrange⟩
    have hlength := congrArg List.length hrange
    rw [List.length_take, List.length_append, Nat.min_eq_left hfits] at hlength
    exact hlength
  · intro h
    rw [h, List.take_left]
    exact ⟨Nat.le_add_right _ _, rfl⟩

/-! ## Responses that are asked for -/

section Pending

variable (calls : Nat → List (Int32 × ResponseCall))

/-- The id of each response is pending when its turn comes, the entries of
    those before it being erased. -/
def AllPending : Nat → ResCalls → List Bytes → Prop
  | _, _, [] => True
  | k, resCalls, p :: ps =>
      let resCalls := register (calls k) resCalls
      let id := id (valueOf P p)
      (∃ response done, resCalls id = some ⟨some response, some done⟩) ∧
        AllPending (k + 1) (Function.update resCalls id none) ps

/-- The calls that responses complete, each decoded from its own bytes. -/
def completed : Nat → ResCalls → List Bytes → List (Solved M)
  | _, _, [] => []
  | k, resCalls, p :: ps =>
      let resCalls := register (calls k) resCalls
      let value := valueOf P p
      match resCalls (id value) with
      | some ⟨some response, some done⟩ =>
          ⟨response, value, done⟩ ::
            completed (k + 1) (Function.update resCalls (id value) none) ps
      | _ => completed (k + 1) resCalls ps

/-- **OWN FRAMES ONLY**: what is parsed for the id and into the response
    object are the bytes of the response, and the calls are completed as if
    each response had come alone. -/
structure OwnFramesOnly (resCalls : ResCalls) (payloads chunks : List Bytes) : Prop where
  ranges : (feed (onRead P id calls) (Client.new resCalls) chunks).1.map
      (fun it => (it.idRange, it.responseRange)) = payloads.map fun p => (p, p)
  solved : (feed (onRead P id calls) (Client.new resCalls) chunks).1.map Iteration.solved
    = completed P id calls 0 resCalls payloads

/-- How many bytes are readable behind each response when its turn comes. -/
def surplus (payloads chunks : List Bytes) : List Nat :=
  List.zipWith (fun p s => s.length - p.length) payloads (reads payloads [] chunks)

variable {P id calls}

/-- An iteration that parses the bytes of its response. -/
theorem complete_own {resCalls : ResCalls} {p s : Bytes} {response done : Nat} (hfits : Fits s)
    (hrange : parsedRange s = p)
    (hcall : resCalls (id (valueOf P p)) = some ⟨some response, some done⟩) :
    complete P id resCalls s = .ok ⟨p, p, ⟨response, valueOf P p, done⟩,
      Function.update resCalls (id (valueOf P p)) none⟩ := by
  rw [complete_iff]
  subst hrange
  exact ⟨hfits, response, done, hcall, rfl⟩

/-- With nothing readable behind them, all are decoded from their own bytes. -/
theorem answers_own {ps ss : List Bytes} (hsize : ∀ p ∈ ps, p.length < 2 ^ 31)
    (hfront : List.Forall₂ (fun p s => p <+: s) ps ss) :
    ∀ {k : Nat} {resCalls : ResCalls}, AllPending P id calls k resCalls ps →
      (∀ x ∈ List.zipWith (fun p s => s.length - p.length) ps ss, x % 2 ^ 32 = 0) →
      (answers P id calls k resCalls ss).1.map (fun it => (it.idRange, it.responseRange))
          = ps.map (fun p => (p, p)) ∧
        (answers P id calls k resCalls ss).1.map Iteration.solved
          = completed P id calls k resCalls ps := by
  induction hfront with
  | nil => exact fun _ _ => ⟨rfl, rfl⟩
  | @cons p s ps ss hp _ ih =>
      rintro k resCalls ⟨⟨response, done, hcall⟩, hpending⟩ hsurplus
      rw [List.zipWith_cons_cons, List.forall_mem_cons,
        ← parsedRange_own_iff (hsize p List.mem_cons_self) hp] at hsurplus
      obtain ⟨⟨hfits, hrange⟩, hrest⟩ := hsurplus
      obtain ⟨hranges, hsolved⟩ := ih (fun p' hp' => hsize p' (List.mem_cons_of_mem _ hp')) hpending
        hrest
      rw [answers, complete_own hfits hrange hcall, completed, hcall]
      exact ⟨congrArg ((p, p) :: ·) hranges, congrArg (_ :: ·) hsolved⟩

/-- Responses that are decoded from their own bytes have nothing readable
    behind them. -/
theorem surplus_of_ranges {ps ss : List Bytes} (hsize : ∀ p ∈ ps, p.length < 2 ^ 31)
    (hfront : List.Forall₂ (fun p s => p <+: s) ps ss) :
    ∀ {k : Nat} {resCalls : ResCalls}, AllPending P id calls k resCalls ps →
      (answers P id calls k resCalls ss).1.map (fun it => (it.idRange, it.responseRange))
          = ps.map (fun p => (p, p)) →
      ∀ x ∈ List.zipWith (fun p s => s.length - p.length) ps ss, x % 2 ^ 32 = 0 := by
  induction hfront with
  | nil => exact fun _ _ => nofun
  | @cons p s ps ss hp _ ih =>
      -- the first range says that nothing is behind `p`, the others are for `ih`
      rintro k resCalls ⟨⟨response, done, hcall⟩, hpending⟩ hranges
      rw [List.zipWith_cons_cons, List.forall_mem_cons,
        ← parsedRange_own_iff (hsize p List.mem_cons_self) hp]
      rw [answers] at hranges
      rcases hcomplete : complete P id (register (calls k) resCalls) s with fault | it
      · rw [hcomplete, andThen] at hranges
        cases hranges
      · rw [hcomplete, andThen, List.map_cons, List.map_cons] at hranges
        obtain ⟨hhead, htail⟩ := List.cons.inj hranges
        obtain ⟨hfits, hid, -, -⟩ := complete_ok P id hcomplete
        have hrange : parsedRange s = p := hid.symm.trans (congrArg Prod.fst hhead)
        obtain rfl := Except.ok.inj (hcomplete.symm.trans (complete_own hfits hrange hcall))
        exact ⟨⟨hfits, hrange⟩,
          ih (fun p' hp' => hsize p' (List.mem_cons_of_mem _ hp')) hpending htail⟩

/-- **OWN FRAMES, EXACTLY**: each pending response is decoded from its own
    bytes if and only if none are readable behind it when its turn comes, up
    to multiples of `2 ^ 32`. -/
theorem own_frames_iff {payloads : List Bytes} (hsize : ∀ p ∈ payloads, p.length < 2 ^ 31)
    {chunks : List Bytes} (hcut : chunks.flatten = (payloads.map messageFrame).flatten)
    {resCalls : ResCalls} (hpending : AllPending P id calls 0 resCalls payloads) :
    OwnFramesOnly P id calls resCalls payloads chunks ↔
      ∀ x ∈ surplus payloads chunks, x % 2 ^ 32 = 0 := by
  have hrun := (run_eq P id calls hsize hcut resCalls).1
  have hfront := reads_front (s := []) hcut
  constructor
  · rintro ⟨hranges, -⟩
    rw [hrun] at hranges
    exact surplus_of_ranges hsize hfront hpending hranges
  · intro hsurplus
    obtain ⟨hranges, hsolved⟩ := answers_own hsize hfront hpending hsurplus
    constructor
    · rw [hrun, hranges]
    · rw [hrun, hsolved]

end Pending

/-- Two calls are pending, with the ids 1 and 2, and no others are made. -/
def twoCalls : ResCalls := fun i =>
  if i = 1 then some ⟨some 0, some 0⟩ else if i = 2 then some ⟨some 1, some 1⟩ else none

theorem allPending_two :
    AllPending testProto TestMessage.id (fun _ => []) 0 twoCalls [[8, 1], [8, 2]] :=
  ⟨⟨0, 0, rfl⟩, ⟨1, 1, rfl⟩, trivial⟩

/-- Two responses in pieces that end where they end. -/
theorem own_frames_iff_apart :
    OwnFramesOnly testProto TestMessage.id (fun _ => []) twoCalls [[8, 1], [8, 2]]
      [[0, 0], [0, 2, 8, 1], [0, 0, 0, 2, 8, 2]] :=
  (own_frames_iff (by decide) (by decide) allPending_two).mpr (by decide)

/-- The same responses at once: with the first, the second is parsed too. -/
theorem next_frame_parsed :
    AllPending testProto TestMessage.id (fun _ => []) 0 twoCalls [[8, 1], [8, 2]] ∧
      ¬ OwnFramesOnly testProto TestMessage.id (fun _ => []) twoCalls [[8, 1], [8, 2]]
        [[0, 0, 0, 2, 8, 1, 0, 0, 0, 2, 8, 2]] := by
  refine ⟨allPending_two, fun h => ?_⟩
  have hfirst : (feed (onRead testProto TestMessage.id fun _ => []) (Client.new twoCalls)
      [[0, 0, 0, 2, 8, 1, 0, 0, 0, 2, 8, 2]]).1.map (fun it => it.idRange)
        = [[8, 1, 0, 0, 0, 2, 8, 2], [8, 2]] := by
    decide +kernel
  have hranges := congrArg (List.map Prod.fst) h.ranges
  rw [List.map_map] at hranges
  cases hfirst.symm.trans hranges

/-! ## Responses that nobody asked for -/

section Unsolicited

variable (calls : Nat → List (Int32 × ResponseCall))

/-- Responses taken one after the other: the entry that is found for the id of
    each, if there is one, and `resCalls_` without it. -/
def settle : Nat → ResCalls → List Bytes → List (Option ResponseCall × ResCalls)
  | _, _, [] => []
  | k, resCalls, p :: ps =>
      let resCalls := register (calls k) resCalls
      let id := id (valueOf P p)
      (resCalls id, (takeCall resCalls id).2) :: settle (k + 1) (takeCall resCalls id).2 ps

/-- The call that has to be completed, if an entry was found. -/
def toDeliver (r : Option ResponseCall × ResCalls) : Option (ResponseCall × ResCalls) :=
  r.1.map fun call => (call, r.2)

/-- The call that an iteration completed, and `resCalls_` after it. -/
def Iteration.delivered (it : Iteration M) : ResponseCall × ResCalls :=
  (⟨some it.solved.response, some it.solved.done⟩, it.resCalls)

/-- **TOLERANT**: no null pointer is dereferenced, and no other fault ends the
    run; every response with an entry completes its call, in order, and those
    without change nothing. -/
structure Tolerates (resCalls : ResCalls) (payloads chunks : List Bytes) : Prop where
  survives : faultOf (feed (onRead P id calls) (Client.new resCalls) chunks).2 = none
  delivers : (feed (onRead P id calls) (Client.new resCalls) chunks).1.map Iteration.delivered
    = (settle P id calls 0 resCalls payloads).filterMap toDeliver

/-- With `s` readable, an iteration reads the id of its response `p`. -/
def ReadsOwnId (p s : Bytes) : Prop :=
  Fits s ∧ id (valueOf P (parsedRange s)) = id (valueOf P p)

instance (p s : Bytes) : Decidable (ReadsOwnId P id p s) := inferInstanceAs (Decidable (_ ∧ _))

variable {P id calls}

/-- A run without a fault has as many iterations as there are responses. -/
theorem length_answers {ss : List Bytes} :
    ∀ {k : Nat} {resCalls : ResCalls}, (answers P id calls k resCalls ss).2 = none →
      (answers P id calls k resCalls ss).1.length = ss.length := by
  induction ss with
  | nil => exact fun _ => rfl
  | cons s ss ih =>
      intro k resCalls h
      rw [answers] at h ⊢
      rcases hcomplete : complete P id (register (calls k) resCalls) s with fault | it
      · rw [hcomplete, andThen] at h
        cases h
      · rw [hcomplete, andThen] at h
        exact congrArg (· + 1) (ih h)

theorem length_settle {ps : List Bytes} :
    ∀ {k : Nat} {resCalls : ResCalls}, (settle P id calls k resCalls ps).length = ps.length := by
  induction ps with
  | nil => exact rfl
  | cons p ps ih => exact congrArg (· + 1) ih

/-- Responses that are asked for, with ids that are read right, are all
    delivered. -/
theorem answers_pending {ps ss : List Bytes} (hown : List.Forall₂ (ReadsOwnId P id) ps ss) :
    ∀ {k : Nat} {resCalls : ResCalls}, AllPending P id calls k resCalls ps →
      (answers P id calls k resCalls ss).2 = none ∧
        (answers P id calls k resCalls ss).1.map Iteration.delivered
          = (settle P id calls k resCalls ps).filterMap toDeliver := by
  induction hown with
  | nil => exact fun _ => ⟨rfl, rfl⟩
  | @cons p s ps ss hp _ ih =>
      rintro k resCalls ⟨⟨response, done, hcall⟩, hpending⟩
      obtain ⟨hfits, hid⟩ := hp
      have hcomplete : complete P id (register (calls k) resCalls) s
          = .ok ⟨parsedRange s, parsedRange s, ⟨response, valueOf P (parsedRange s), done⟩,
            Function.update (register (calls k) resCalls) (id (valueOf P p)) none⟩ := by
        rw [complete_iff, hid]
        exact ⟨hfits, response, done, hcall, rfl⟩
      have htake : takeCall (register (calls k) resCalls) (id (valueOf P p))
          = (⟨some response, some done⟩,
            Function.update (register (calls k) resCalls) (id (valueOf P p)) none) := by
        rw [takeCall, hcall]
      obtain ⟨hsurvives, hdelivers⟩ := ih hpending
      rw [answers, hcomplete, andThen, settle, htake, hcall]
      exact ⟨hsurvives, congrArg (_ :: ·) hdelivers⟩

/-- What an iteration erases is what it has read the id of. -/
theorem id_of_delivered {resCalls : ResCalls} {s : Bytes} {it : Iteration M}
    (hcomplete : complete P id resCalls s = .ok it) {i : Int32} {call : ResponseCall}
    (hcall : resCalls i = some call) (herased : it.resCalls i = none) :
    id (valueOf P (parsedRange s)) = i := by
  obtain ⟨-, -, -, hafter⟩ := complete_ok P id hcomplete
  by_contra hne
  rw [hafter, Function.update_of_ne (Ne.symm hne), hcall] at herased
  cases herased

theorem pending_of_answers {ps ss : List Bytes}
    (hfront : List.Forall₂ (fun p s => p <+: s) ps ss) :
    ∀ {k : Nat} {resCalls : ResCalls}, (answers P id calls k resCalls ss).2 = none →
      (answers P id calls k resCalls ss).1.map Iteration.delivered
          = (settle P id calls k resCalls ps).filterMap toDeliver →
      AllPending P id calls k resCalls ps ∧ List.Forall₂ (ReadsOwnId P id) ps ss := by
  induction hfront with
  | nil => exact fun _ _ => ⟨trivial, .nil⟩
  | @cons p s ps ss _ hrest ih =>
      intro k resCalls hnone hdelivers
      rw [answers] at hnone hdelivers
      rcases hcomplete : complete P id (register (calls k) resCalls) s with fault | it
      · rw [hcomplete, andThen] at hnone
        cases hnone
      · rw [hcomplete, andThen] at hnone hdelivers
        rw [settle] at hdelivers
        rcases hcall : register (calls k) resCalls (id (valueOf P p)) with _ | call
        · -- one call less than there are iterations
          have hle := List.length_filterMap_le toDeliver
            (settle P id calls (k + 1)
              (takeCall (register (calls k) resCalls) (id (valueOf P p))).2 ps)
          have hlength := congrArg List.length hdelivers
          have hnot : ∀ m, toDeliver (none, m) = none := fun _ => rfl
          rw [hcall, List.filterMap_cons_none (hnot _), List.length_map, List.length_cons,
            length_answers hnone] at hlength
          rw [length_settle, hrest.length_eq] at hle
          omega
        · -- the call that is completed is the one whose entry was found
          have htake : takeCall (register (calls k) resCalls) (id (valueOf P p))
              = (call, Function.update (register (calls k) resCalls) (id (valueOf P p)) none) := by
            rw [takeCall, hcall]
          have hfound : ∀ m, toDeliver (some call, m) = some (call, m) := fun _ => rfl
          rw [hcall, htake, List.filterMap_cons_some (hfound _), List.map_cons] at hdelivers
          obtain ⟨hhead, htail⟩ := List.cons.inj hdelivers
          obtain ⟨hentry, hafter⟩ := Prod.mk.inj hhead
          have hid := id_of_delivered hcomplete hcall
            (by rw [hafter]; exact Function.update_self _ _ _)
          obtain ⟨hfits, -, -, -⟩ := complete_ok P id hcomplete
          rw [hafter] at hnone htail
          obtain ⟨hpending, hown⟩ := ih hnone htail
          exact ⟨⟨⟨_, _, hcall.trans (congrArg some hentry.symm)⟩, hpending⟩,
            .cons ⟨hfits, hid⟩ hown⟩

/-- **TOLERANT, EXACTLY**: the client gets through responses if and only if
    every one is asked for when its turn comes, and its id is read right. -/
theorem tolerates_iff {payloads : List Bytes} (hsize : ∀ p ∈ payloads, p.length < 2 ^ 31)
    {chunks : List Bytes} (hcut : chunks.flatten = (payloads.map messageFrame).flatten)
    (resCalls : ResCalls) :
    Tolerates P id calls resCalls payloads chunks ↔
      AllPending P id calls 0 resCalls payloads ∧
        List.Forall₂ (ReadsOwnId P id) payloads (reads payloads [] chunks) := by
  obtain ⟨hout, hfault⟩ := run_eq P id calls hsize hcut resCalls
  constructor
  · rintro ⟨hsurvives, hdelivers⟩
    rw [hfault] at hsurvives
    rw [hout] at hdelivers
    exact pending_of_answers (reads_front (s := []) hcut) hsurvives hdelivers
  · rintro ⟨hpending, hown⟩
    obtain ⟨hsurvives, hdelivers⟩ := answers_pending hown hpending
    constructor
    · rw [hfault, hsurvives]
    · rw [hout, hdelivers]

end Unsolicited

/-- Two pending responses at once: the second is parsed with the first, and
    stops the parser behind its id. -/
theorem tolerates_iff_two :
    Tolerates testProto TestMessage.id (fun _ => []) twoCalls [[8, 1], [8, 2]]
      [[0, 0, 0, 2, 8, 1, 0, 0, 0, 2, 8, 2]] := by
  refine (tolerates_iff (by decide) (by decide) twoCalls).mpr ⟨allPending_two, ?_⟩
  exact .cons (by decide) (.cons (by decide) .nil)

/-- A response with the id 5 to a client without calls. -/
theorem unsolicited_response_crashes :
    ¬ Tolerates testProto TestMessage.id (fun _ => []) (fun _ => none) [[8, 5]]
      [[0, 0, 0, 2, 8, 5]] := by
  intro h
  have hfault : faultOf (feed (onRead testProto TestMessage.id fun _ => [])
      (Client.new fun _ => none) [[0, 0, 0, 2, 8, 5]]).2 = some .nullResponse := by
    decide +kernel
  cases hfault.symm.trans h.survives

end AsioRpcResponse
