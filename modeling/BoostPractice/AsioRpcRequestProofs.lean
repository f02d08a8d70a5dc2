import BoostPractice.SharedBufferSendProofs

/-! # Requests, from `CallMethod` to the service

    `rpc_client::CallMethod` frames a request in its `outputBuffer_`, and
    `rpc_session::on_read` takes it apart.  The two are different programs,
    with a guard each: the writer's length is an `int32_t`, the reader adds
    four to it as an `int`.  An empty request is four bytes, which are as many
    as the reader waits for.

    `TestSolve` runs its closure before it returns.  The loop of `on_read`
    therefore also fills the session's `outputBuffer_`, once for each request,
    and every response takes four of the eight bytes that can be prepended
    there.  With two responses unwritten, the third fails the assertion of
    `prepend`, and the requests behind it never reach the service.

    `requests_read_iff` says for which requests the service gets what was
    sent, whatever the writes do meanwhile, and in which runs it does. -/

namespace AsioRpcRequest

open FrameDecoding BoostBuffer RpcMessages RpcCodecSend PrefixReader AsioRpcReader SharedBufferSend
open GuardedRun

/-! ## The requests of the client -/

section Request

variable {M : Type} (P : Protobuf M)

/-- `bs` is what `CallMethod` leaves in an `outputBuffer_` that was empty. -/
def BuiltRequest (request : M) (bs : Bytes) : Prop :=
  ∃ b b', Ready b ∧ callMethod P b request = some b' ∧ b'.content = bs

theorem content_callMethod {b : Buffer} (hready : Ready b) (request : M) :
    ∃ b', callMethod P b request = some b' ∧ b'.content = messageFrame (P.serialize request) :=
  content_fill (rpcClient P) hready request

theorem builtRequest_iff (request : M) (bs : Bytes) :
    BuiltRequest P request bs ↔ bs = messageFrame (P.serialize request) := by
  constructor
  · rintro ⟨b, b', hready, hcall, rfl⟩
    obtain ⟨b'', hfill, hcontent⟩ := content_callMethod P hready request
    obtain rfl := Option.some.inj (hcall.symm.trans hfill)
    exact hcontent
  · rintro rfl
    obtain ⟨b', hfill, hcontent⟩ := content_callMethod P (ready_new kInitialSize) request
    exact ⟨_, b', ready_new kInitialSize, hfill, hcontent⟩

/-- The frames of some requests, one behind the other. -/
def requestFrames (requests : List M) : Bytes :=
  (requests.map fun m => messageFrame (P.serialize m)).flatten

theorem builtRequests_flatten {requests : List M} {frames : List Bytes}
    (h : List.Forall₂ (BuiltRequest P) requests frames) :
    frames.flatten = requestFrames P requests := by
  induction h with
  | nil => rfl
  | cons hhead _ ih =>
      rw [List.flatten_cons, (builtRequest_iff P _ _).mp hhead, ih]
      rfl

/-- The reader's sum of two `int`s does not overflow. -/
theorem rpcSessionGuard_needed {n : Nat} (h : n ≤ 2 ^ 31 - 5) :
    ∃ k, rpcSessionGuard.needed (Int32.ofNat n) = .ok k := by
  have hlen : (Int32.ofNat n).toInt = n := Int32.toInt_ofNat_of_lt (by omega)
  exact ⟨_, if_pos (by omega)⟩

/-- **ONE REQUEST**: whatever follows it, the reader takes it off the front. -/
theorem prefixNext_request {p : Bytes} (hsize : p.length ≤ 2 ^ 31 - 5) (t : Bytes) :
    prefixNext rpcSessionGuard (messageFrame p ++ t) = .frame p t := by
  refine prefixNext_messageFrame (by omega) ?_ (rpcSessionGuard_needed hsize)
  -- the length alone is as much as the reader waits for
  show 4 ≤ _
  rw [List.length_append, ChatReader.length_messageFrame]
  omega

/-- As long as it is not all there, the reader waits. -/
theorem prefixNext_incomplete {p s t u : Bytes} (hsize : p.length ≤ 2 ^ 31 - 5)
    (hcut : s ++ t = messageFrame p ++ u) (hshort : s.length < (messageFrame p).length) :
    prefixNext rpcSessionGuard s = .more := by
  have hnext : (prefixGrammar rpcSessionGuard).next (s ++ t) = .frame p u :=
    hcut ▸ prefixNext_request hsize u
  refine (prefixGrammar rpcSessionGuard).next_more_of_append hnext ?_
  have hlength := congrArg List.length hcut
  rw [List.length_append, List.length_append] at hlength
  omega

end Request

/-! ## The session -/

/-- `TestServiceImpl::TestSolve`: the response it fills in. -/
def testSolve (request : TestMessage) : TestMessage :=
  ⟨request.id, request.message.map (· + 1)⟩

/-- `rpc_session`: its two buffers, `outputBuffer_` with the writes of it. -/
structure Session where
  inputBuffer : Buffer
  output : Sender TestMessage

def Session.new : Session := ⟨Buffer.new kInitialSize, Sender.new⟩

/-- What ends `on_read` before its time. -/
inductive Fault where
  | misuse (m : Misuse)
  /-- An assertion of `outputBuffer_` has failed. -/
  | asserted
  deriving DecidableEq

variable (P Q : Protobuf TestMessage)

/-- `doneCallback`, with the write it issues. -/
def answer (o : Sender TestMessage) (response : TestMessage) : Sender TestMessage :=
  match doneCallback Q o.outputBuffer response with
  | some b => { o with outputBuffer := b, sent := o.sent ++ [response] }.issue
  | none => { o with violated := true }

/-- One evaluation of the loop condition of `rpc_session::on_read` and, if it
    holds, of the body: the request that `TestSolve` is called with.  The
    value that `ParseFromString` returns is not looked at, and `TestSolve`
    runs `doneCallback`.  A failed assertion is the end of the process. -/
def iterate (s : Session) : Except Fault (Option (TestMessage × Session)) :=
  if s.output.violated then .error .asserted
  else
    match readerStep rpcSessionGuard retrieveAsString s.inputBuffer with
    | .error m => .error (.misuse m)
    | .ok none => .ok none
    | .ok (some (msg, inputBuffer)) =>
        let request := (P.parseFromArray msg).1
        .ok (some (request, ⟨inputBuffer, answer Q s.output (testSolve request)⟩))

/-- New bytes in `inputBuffer_`. -/
def Session.arrive (s : Session) (bytes : Bytes) : Session :=
  { s with inputBuffer := (s.inputBuffer.ensureWritableBytes bytes.length).append bytes }

/-- `rpc_session::on_read`: the requests that `TestSolve` is called with. -/
def onRead (s : Session) (bytes : Bytes) : List TestMessage × Except Fault Session :=
  let s := s.arrive bytes
  loopN (iterate P Q) (s.inputBuffer.readableBytes + 1) s

/-- What goes on between two reads: a write transfers bytes, and a handler of
    a write runs.  No write fails. -/
def WritesGoOn (_ : Sender TestMessage) : SharedBufferSend.Action TestMessage → Prop
  | .send _ => False
  | .transfer _ _ ec => ec = false
  | .onWrite _ => True

instance (o : Sender TestMessage) (a : SharedBufferSend.Action TestMessage) :
    Decidable (WritesGoOn o a) :=
  match a with
  | .send _ => isFalse id
  | .transfer _ _ _ => inferInstanceAs (Decidable (_ = _))
  | .onWrite _ => isTrue trivial

/-- **A RUN** over the pieces in which the bytes arrive: `on_read` with each of
    them, and before it whatever the writes do.  The session and the bytes
    that `on_read` finds meet `C`. -/
inductive Runs (C : Session → Bytes → Prop) :
    Session → List Bytes → List TestMessage → Except Fault Session → Prop where
  | finished {s : Session} : Runs C s [] [] (.ok s)
  | read {s s' : Session} {output : Sender TestMessage} {bytes : Bytes} {chunks : List Bytes}
      {calls later : List TestMessage} {r : Except Fault Session}
      (writes : Reaches (step (rpcSession Q)) WritesGoOn s.output output)
      (meets : C ⟨s.inputBuffer, output⟩ bytes)
      (read : onRead P Q ⟨s.inputBuffer, output⟩ bytes = (calls, .ok s'))
      (rest : Runs C s' chunks later r) : Runs C s (bytes :: chunks) (calls ++ later) r
  | failed {s : Session} {output : Sender TestMessage} {bytes : Bytes} {chunks : List Bytes}
      {calls : List TestMessage} {fault : Fault}
      (writes : Reaches (step (rpcSession Q)) WritesGoOn s.output output)
      (meets : C ⟨s.inputBuffer, output⟩ bytes)
      (read : onRead P Q ⟨s.inputBuffer, output⟩ bytes = (calls, .error fault)) :
      Runs C s (bytes :: chunks) calls (.error fault)

/-- A run, computed: with each piece, the steps of the writes before it. -/
def serve (C : Session → Bytes → Prop) [∀ s bytes, Decidable (C s bytes)] (s : Session) :
    List (List (SharedBufferSend.Action TestMessage) × Bytes) →
      Option (List TestMessage × Except Fault Session)
  | [] => some ([], .ok s)
  | (writes, bytes) :: later =>
      match guardedRun (step (rpcSession Q)) WritesGoOn s.output writes with
      | none => none
      | some output =>
          if C ⟨s.inputBuffer, output⟩ bytes then
            match onRead P Q ⟨s.inputBuffer, output⟩ bytes with
            | (calls, .error fault) => some (calls, .error fault)
            | (calls, .ok s') => (serve C s' later).map fun run => (calls ++ run.1, run.2)
          else none

theorem runs_of_serve {C : Session → Bytes → Prop} [∀ s bytes, Decidable (C s bytes)]
    {pieces : List (List (SharedBufferSend.Action TestMessage) × Bytes)} :
    ∀ {s : Session} {calls : List TestMessage} {r : Except Fault Session},
      serve P Q C s pieces = some (calls, r) → Runs P Q C s (pieces.map Prod.snd) calls r := by
  induction pieces with
  | nil =>
      intro s calls r h
      obtain ⟨rfl, rfl⟩ := Prod.mk.inj (Option.some.inj h)
      exact .finished
  | cons piece later ih =>
      intro s calls r h
      rw [serve] at h
      cases hwrites : guardedRun (step (rpcSession Q)) WritesGoOn s.output piece.1 with
      | none =>
          rw [hwrites] at h
          cases h
      | some output =>
          simp only [hwrites] at h
          split at h
          · next hmeets =>
              rcases hread : onRead P Q ⟨s.inputBuffer, output⟩ piece.2 with ⟨taken, fault | s'⟩
              · rw [hread] at h
                obtain ⟨rfl, rfl⟩ := Prod.mk.inj (Option.some.inj h)
                exact .failed (reaches_of_guardedRun hwrites) hmeets hread
              · rw [hread] at h
                obtain ⟨run, hrun, heq⟩ := Option.map_eq_some_iff.mp h
                obtain ⟨rfl, rfl⟩ := Prod.mk.inj heq
                exact .read (reaches_of_guardedRun hwrites) hmeets hread (ih hrun)
          · cases h

/-- **READ EXACTLY**: the service has been called once for each request, in
    order and with the request that was sent, and `inputBuffer_` is empty. -/
def ReadExactly (requests calls : List TestMessage) (r : Except Fault Session) : Prop :=
  calls = requests ∧ ∃ s, r = .ok s ∧ s.inputBuffer.readableBytes = 0

/-- The requests that are complete in these bytes. -/
def completed (readable : Bytes) : List Bytes :=
  ((prefixGrammar rpcSessionGuard).decode readable).1

/-- **ROOM FOR THE RESPONSES**: no assertion has failed, and four bytes can be
    prepended for each request that is complete now, within the eight that
    are kept free for it. -/
def HasRoom (s : Session) (bytes : Bytes) : Prop :=
  s.output.violated = false ∧
    4 * (completed (s.inputBuffer.content ++ bytes)).length
      ≤ min kCheapPrepend s.output.outputBuffer.prependableBytes

instance (s : Session) (bytes : Bytes) : Decidable (HasRoom s bytes) :=
  inferInstanceAs (Decidable (_ ∧ _))

/-! ## The responses in `outputBuffer_` -/

/-- Responses to these requests, one after the other. -/
def answers (o : Sender TestMessage) (requests : List TestMessage) : Sender TestMessage :=
  requests.foldl (fun o request => answer Q o (testSolve request)) o

variable {P Q}

theorem step_answer {o : Sender TestMessage} (hok : o.violated = false) (response : TestMessage) :
    step (rpcSession Q) o (.send response) = some (answer Q o response) := by
  rw [step, if_neg (Bool.eq_false_iff.mp hok), answer]
  show (match doneCallback Q o.outputBuffer response with
    | some b => _
    | none => _) = _
  cases doneCallback Q o.outputBuffer response with
  | none => rfl
  | some b => rfl

/-- A response takes four bytes in front, of those that are kept free or of
    those that are free; without four bytes its assertion fails. -/
theorem answer_cases (o : Sender TestMessage) (response : TestMessage) :
    (4 ≤ o.outputBuffer.readerIndex ∧ (answer Q o response).violated = o.violated ∧
      ((answer Q o response).outputBuffer.readerIndex + 4 = o.outputBuffer.readerIndex ∨
        kCheapPrepend < o.outputBuffer.readerIndex ∧
          (answer Q o response).outputBuffer.readerIndex + 4 = kCheapPrepend)) ∨
    (o.outputBuffer.readerIndex < 4 ∧ (answer Q o response).violated = true) := by
  let b := o.outputBuffer.append (Q.serialize response)
  have hb : b.readerIndex = o.outputBuffer.readerIndex ∨
      kCheapPrepend < o.outputBuffer.readerIndex ∧ b.readerIndex = kCheapPrepend :=
    o.outputBuffer.readerIndex_ensureWritableBytes (Q.serialize response).length
  have hdone : doneCallback Q o.outputBuffer response
      = b.prepend (MachineInt.int32Bytes (Int32.ofNat (Q.serialize response).length)) := rfl
  have h8 : kCheapPrepend = 8 := rfl
  by_cases hroom : 4 ≤ b.readerIndex
  · have hfits : (MachineInt.int32Bytes (Int32.ofNat (Q.serialize response).length)).length
        ≤ b.readerIndex := by
      rw [MachineInt.length_int32Bytes]
      exact hroom
    obtain ⟨b', hb', -⟩ := b.prepend_of_le hfits
    have hindex := b.readerIndex_prepend hb'
    rw [MachineInt.length_int32Bytes] at hindex
    rw [answer, hdone, hb']
    refine .inl ⟨by omega, rfl, ?_⟩
    show b'.readerIndex + 4 = _ ∨ _ ∧ b'.readerIndex + 4 = _
    omega
  · have hnone : b.prepend (MachineInt.int32Bytes (Int32.ofNat (Q.serialize response).length))
        = none := by
      rw [Buffer.prepend, dif_neg]
      rw [MachineInt.length_int32Bytes]
      exact hroom
    rw [answer, hdone, hnone]
    exact .inr ⟨by omega, rfl⟩

theorem violated_answer {o : Sender TestMessage} (h : o.violated = true) (response : TestMessage) :
    (answer Q o response).violated = true := by
  rcases answer_cases (Q := Q) o response with ⟨-, hsame, -⟩ | ⟨-, hviolated⟩
  · rw [hsame, h]
  · exact hviolated

theorem violated_answers {o : Sender TestMessage} (h : o.violated = true)
    (requests : List TestMessage) : (answers Q o requests).violated = true := by
  induction requests generalizing o with
  | nil => exact h
  | cons request rest ih => exact ih (violated_answer h _)

/-- Where there is room for all responses, no assertion fails. -/
theorem answers_of_room {o : Sender TestMessage} (hok : o.violated = false)
    {requests : List TestMessage}
    (hroom : 4 * requests.length ≤ min kCheapPrepend o.outputBuffer.readerIndex) :
    (answers Q o requests).violated = false := by
  induction requests generalizing o with
  | nil => exact hok
  | cons request rest ih =>
      rw [List.length_cons] at hroom
      have h8 : kCheapPrepend = 8 := rfl
      rcases answer_cases (Q := Q) o (testSolve request) with ⟨-, hsame, hindex⟩ | ⟨hfew, -⟩
      · have hrest : 4 * rest.length
            ≤ min kCheapPrepend (answer Q o (testSolve request)).outputBuffer.readerIndex := by
          omega
        exact ih (hsame.trans hok) hrest
      · omega

/-- With nothing written meanwhile, every response has taken four bytes. -/
theorem room_of_answers {o : Sender TestMessage}
    (hfront : o.outputBuffer.readerIndex ≤ kCheapPrepend) {requests : List TestMessage}
    (hok : (answers Q o requests).violated = false) :
    4 * requests.length ≤ o.outputBuffer.readerIndex := by
  induction requests generalizing o with
  | nil => exact Nat.zero_le _
  | cons request rest ih =>
      have hok' : (answers Q (answer Q o (testSolve request)) rest).violated = false := hok
      rcases answer_cases (Q := Q) o (testSolve request) with ⟨hle, -, hindex⟩ | ⟨-, hviolated⟩
      · have hrest := ih (by omega) hok'
        rw [List.length_cons]
        omega
      · cases (violated_answers hviolated rest).symm.trans hok'

/-! ## The reader in the session

    What `TestSolve` and the writes do is in `outputBuffer_`.  So the session
    reads what its reader reads alone, until an assertion of `outputBuffer_`
    fails. -/

/-- The session reads as its reader does, or an assertion of `outputBuffer_`
    has ended it on the way. -/
inductive ReadsAlike :
    List TestMessage × Except Fault Session → List TestMessage × Except Misuse Buffer → Prop where
  | read (calls : List TestMessage) (s : Session) :
      ReadsAlike (calls, .ok s) (calls, .ok s.inputBuffer)
  | misused (calls : List TestMessage) (m : Misuse) :
      ReadsAlike (calls, .error (.misuse m)) (calls, .error m)
  | asserted (calls later : List TestMessage) (r : Except Misuse Buffer) :
      ReadsAlike (calls, .error .asserted) (calls ++ later, r)

theorem ReadsAlike.after {x : List TestMessage × Except Fault Session}
    {y : List TestMessage × Except Misuse Buffer} (h : ReadsAlike x y)
    (calls : List TestMessage) : ReadsAlike (calls ++ x.1, x.2) (calls ++ y.1, y.2) := by
  cases h with
  | read later s => exact .read _ s
  | misused later m => exact .misused _ m
  | asserted now later r => exact List.append_assoc calls now later ▸ .asserted _ later r

/-- A failed assertion ends the loop at once. -/
theorem loopN_asserted {s : Session} (h : s.output.violated = true) {n : Nat} (hn : 0 < n) :
    loopN (iterate P Q) n s = ([], .error .asserted) := by
  obtain ⟨m, rfl⟩ := Nat.exists_eq_succ_of_ne_zero (Nat.ne_of_gt hn)
  rw [loopN, iterate, if_pos h]

/-- One step of the loop is one of the reader's loop. -/
theorem loopN_readsAlike (n : Nat) (s : Session) :
    ReadsAlike (loopN (iterate P Q) n s)
      ((loopN (readerStep rpcSessionGuard retrieveAsString) n s.inputBuffer).1.map
          fun msg => (P.parseFromArray msg).1,
        (loopN (readerStep rpcSessionGuard retrieveAsString) n s.inputBuffer).2) := by
  induction n generalizing s with
  | zero => exact .read [] s
  | succ n ih =>
      by_cases hviolated : s.output.violated = true
      · rw [loopN_asserted hviolated (Nat.succ_pos n)]
        exact .asserted [] _ _
      · rw [loopN, loopN, iterate, if_neg hviolated]
        rcases readerStep rpcSessionGuard retrieveAsString s.inputBuffer with
          m | _ | ⟨msg, inputBuffer⟩
        · exact .misused [] m
        · exact .read [] s
        · exact (ih ⟨inputBuffer, _⟩).after [(P.parseFromArray msg).1]

theorem onRead_readsAlike (s : Session) (bytes : Bytes) :
    ReadsAlike (onRead P Q s bytes) (rpcSessionOnRead P s.inputBuffer bytes) :=
  loopN_readsAlike _ (s.arrive bytes)

/-- A whole run, whatever the writes do in between. -/
theorem runs_readsAlike {C : Session → Bytes → Prop} {s : Session} {chunks : List Bytes}
    {calls : List TestMessage} {r : Except Fault Session} (h : Runs P Q C s chunks calls r) :
    ReadsAlike (calls, r) (feed (rpcSessionOnRead P) s.inputBuffer chunks) := by
  induction h with
  | @finished s => exact .read [] s
  | @read s s' output bytes chunks calls later r writes meets read rest ih =>
      have honce : ReadsAlike (calls, .ok s') (rpcSessionOnRead P s.inputBuffer bytes) :=
        read ▸ onRead_readsAlike ⟨s.inputBuffer, output⟩ bytes
      rw [feed]
      generalize rpcSessionOnRead P s.inputBuffer bytes = once at honce ⊢
      cases honce with
      | read => exact ih.after calls
  | @failed s output bytes chunks calls fault writes meets read =>
      have honce : ReadsAlike (calls, .error fault) (rpcSessionOnRead P s.inputBuffer bytes) :=
        read ▸ onRead_readsAlike ⟨s.inputBuffer, output⟩ bytes
      rw [feed]
      generalize rpcSessionOnRead P s.inputBuffer bytes = once at honce ⊢
      cases honce with
      | misused m => exact .misused calls _
      | asserted _ later r =>
          cases r with
          | error m => exact .asserted calls later _
          | ok b =>
              show ReadsAlike _ ((calls ++ later) ++ _, _)
              rw [List.append_assoc]
              exact .asserted calls _ _

/-- **NO MISUSE OF `inputBuffer_`**, when the lengths are such that its reader
    survives alone. -/
theorem no_misuse_of_headsOk {C : Session → Bytes → Prop} {chunks : List Bytes}
    {calls : List TestMessage} {r : Except Fault Session}
    (h : Runs P Q C Session.new chunks calls r)
    (hheads : HeadsOk rpcSessionGuard chunks.flatten) (m : Misuse) : r ≠ .error (.misuse m) := by
  rintro rfl
  have halike := runs_readsAlike h
  have hsurvives := rpcSessionLoop_reads.misuse_iff chunks
  rw [feed_rpcSessionOnRead] at halike
  have hfails : (feed rpcSessionLoop (Buffer.new kInitialSize) chunks).2 = .error m := by
    show (feed rpcSessionLoop Session.new.inputBuffer chunks).2 = _
    generalize (feed rpcSessionLoop Session.new.inputBuffer chunks).2 = last at halike ⊢
    cases halike with
    | misused => rfl
  exact hsurvives.mpr hheads m hfails

/-! ## One `on_read` -/

/-- A request as the reader needs it: protobuf parses it back,
    and the reader can add four to its length. -/
structure Sendable (P : Protobuf TestMessage) (request : TestMessage) : Prop where
  size : (P.serialize request).length ≤ 2 ^ 31 - 5
  parses : P.ParsesBack request

/-- What the loop makes of these requests, `t` being still to come: it takes
    those that are complete, and answers them; or a response has failed its
    assertion. -/
inductive LoopEnds (P Q : Protobuf TestMessage) (s : Session) (requests : List TestMessage)
    (t : Bytes) : List TestMessage × Except Fault Session → Prop where
  | left (calls rest : List TestMessage) (s' : Session) (split : requests = calls ++ rest)
      (complete : calls.length = (completed s.inputBuffer.content).length)
      (content : s'.inputBuffer.content ++ t = requestFrames P rest)
      (waits : prefixNext rpcSessionGuard s'.inputBuffer.content = .more)
      (output : s'.output = answers Q s.output calls) (asserted : s'.output.violated = false) :
      LoopEnds P Q s requests t (calls, .ok s')
  | asserted (calls rest : List TestMessage) (split : requests = calls ++ rest)
      (complete : calls.length ≤ (completed s.inputBuffer.content).length)
      (violated : (answers Q s.output calls).violated = true) :
      LoopEnds P Q s requests t (calls, .error .asserted)

theorem iterate_waits {s : Session} (hok : s.output.violated = false)
    (hmore : prefixNext rpcSessionGuard s.inputBuffer.content = .more) :
    iterate P Q s = .ok none := by
  have hstep := (readerStep_follows rpcSessionGuard retrieveAsString_copies).more _ hmore
  rw [iterate, if_neg (Bool.eq_false_iff.mp hok), hstep]

/-- A request at the front is taken, and answered. -/
theorem iterate_takes {s : Session} (hok : s.output.violated = false) {request : TestMessage}
    (hparse : P.ParsesBack request) {rest : Bytes}
    (hframe : prefixNext rpcSessionGuard s.inputBuffer.content
      = .frame (P.serialize request) rest) :
    ∃ b, b.content = rest ∧
      iterate P Q s = .ok (some (request, ⟨b, answer Q s.output (testSolve request)⟩)) := by
  obtain ⟨b, hb, hrest⟩ :=
    (readerStep_follows rpcSessionGuard retrieveAsString_copies).frame _ _ _ hframe
  refine ⟨b, hrest, ?_⟩
  have hvalue : (P.parseFromArray (P.serialize request)).1 = request := congrArg Prod.fst hparse
  rw [iterate, if_neg (Bool.eq_false_iff.mp hok), hb]
  simp only [hvalue]

theorem completed_waits {s : Bytes} (h : prefixNext rpcSessionGuard s = .more) :
    completed s = [] := by
  rw [completed, (prefixGrammar rpcSessionGuard).decode_more h]

theorem completed_takes {s msg rest : Bytes}
    (h : prefixNext rpcSessionGuard s = .frame msg rest) :
    (completed s).length = (completed rest).length + 1 := by
  rw [completed, (prefixGrammar rpcSessionGuard).decode_frame h]
  rfl

/-- The front of some requests is one of them, or too short for that. -/
theorem front_cases {request : TestMessage} {rest : List TestMessage} {s t : Bytes}
    (hsize : (P.serialize request).length ≤ 2 ^ 31 - 5)
    (hcut : s ++ t = requestFrames P (request :: rest)) :
    prefixNext rpcSessionGuard s = .more ∨
      ∃ u, prefixNext rpcSessionGuard s = .frame (P.serialize request) u ∧
        u ++ t = requestFrames P rest := by
  have hcut' : s ++ t = messageFrame (P.serialize request) ++ requestFrames P rest := hcut
  by_cases hle : (messageFrame (P.serialize request)).length ≤ s.length
  · obtain ⟨u, rfl⟩ : messageFrame (P.serialize request) <+: s :=
      List.prefix_of_prefix_length_le (hcut' ▸ List.prefix_append _ _)
        (List.prefix_append s t) hle
    rw [List.append_assoc] at hcut'
    exact .inr ⟨u, prefixNext_request hsize u, List.append_cancel_left hcut'⟩
  · exact .inl (prefixNext_incomplete hsize hcut' (Nat.lt_of_not_le hle))

/-- **THE LOOP**, run on requests that were cut anywhere. -/
theorem loop_ends {t : Bytes} :
    ∀ {requests : List TestMessage} {n : Nat} {s : Session}, s.output.violated = false →
      (∀ m ∈ requests, Sendable P m) → s.inputBuffer.content ++ t = requestFrames P requests →
      s.inputBuffer.content.length < n →
        LoopEnds P Q s requests t (loopN (iterate P Q) n s) := by
  intro requests
  induction requests with
  | nil =>
      intro n s hok _ hcut hn
      obtain ⟨m, rfl⟩ := Nat.exists_eq_succ_of_ne_zero (Nat.ne_zero_of_lt hn)
      have hnil : s.inputBuffer.content = [] := (List.append_eq_nil_iff.mp hcut).1
      have hmore : prefixNext rpcSessionGuard s.inputBuffer.content = .more := by
        rw [hnil]
        rfl
      rw [loopN, iterate_waits hok hmore]
      exact .left [] [] s rfl (by rw [completed_waits hmore]; rfl) hcut hmore rfl hok
  | cons request rest ih =>
      intro n s hok hsend hcut hn
      obtain ⟨m, rfl⟩ := Nat.exists_eq_succ_of_ne_zero (Nat.ne_zero_of_lt hn)
      obtain ⟨hsize, hparse⟩ := hsend request List.mem_cons_self
      rcases front_cases hsize hcut with hmore | ⟨u, hframe, hrest⟩
      · rw [loopN, iterate_waits hok hmore]
        exact .left [] _ s rfl (by rw [completed_waits hmore]; rfl) hcut hmore rfl hok
      · obtain ⟨b, rfl, htaken⟩ := iterate_takes (Q := Q) hok hparse hframe
        let s' : Session := ⟨b, answer Q s.output (testSolve request)⟩
        have hcomplete : (completed s.inputBuffer.content).length
            = (completed s'.inputBuffer.content).length + 1 := completed_takes hframe
        have hshrinks := (prefixGrammar rpcSessionGuard).shrinks hframe
        rw [loopN, htaken]
        show LoopEnds P Q s (request :: rest) t
          (request :: (loopN (iterate P Q) m s').1, (loopN (iterate P Q) m s').2)
        cases hviolated : s'.output.violated with
        | true =>
            -- the response has failed, and the loop is not entered again
            rw [loopN_asserted hviolated (by omega)]
            exact .asserted [request] rest rfl (by rw [hcomplete]; simp) hviolated
        | false =>
            have hloop := ih (s := s') (n := m) hviolated
              (fun m hm => hsend m (List.mem_cons_of_mem _ hm)) hrest (by
                show b.content.length < m
                omega)
            generalize loopN (iterate P Q) m s' = ends at hloop ⊢
            cases hloop with
            | left calls rest' s'' split complete content waits output asserted =>
                refine .left (request :: calls) rest' s'' (by rw [split]; rfl) ?_ content waits
                  output asserted
                rw [hcomplete, ← complete, List.length_cons]
            | asserted calls rest' split complete violated =>
                refine .asserted (request :: calls) rest' (by rw [split]; rfl) ?_ violated
                rw [hcomplete, List.length_cons]
                omega

theorem content_arriveSession (s : Session) (bytes : Bytes) :
    (s.arrive bytes).inputBuffer.content = s.inputBuffer.content ++ bytes :=
  content_arrive s.inputBuffer bytes

theorem onRead_ends {s : Session} {bytes t : Bytes} {requests : List TestMessage}
    (hok : s.output.violated = false) (hsend : ∀ m ∈ requests, Sendable P m)
    (hcut : s.inputBuffer.content ++ (bytes ++ t) = requestFrames P requests) :
    LoopEnds P Q (s.arrive bytes) requests t (onRead P Q s bytes) := by
  refine loop_ends hok hsend ?_ ?_
  · rw [content_arriveSession, List.append_assoc, hcut]
  · rw [Buffer.length_content]
    exact Nat.lt_succ_self _

/-! ## Runs -/

/-- **WITH ROOM** at every piece, all is read. -/
theorem exact_of_room {s : Session} {chunks : List Bytes} {calls : List TestMessage}
    {r : Except Fault Session} (hrun : Runs P Q HasRoom s chunks calls r) :
    ∀ {requests : List TestMessage}, (∀ m ∈ requests, Sendable P m) →
      prefixNext rpcSessionGuard s.inputBuffer.content = .more →
      s.inputBuffer.content ++ chunks.flatten = requestFrames P requests →
      ReadExactly requests calls r := by
  induction hrun with
  | @finished s =>
      intro requests hsend hwaits hcut
      rw [List.flatten_nil] at hcut
      cases requests with
      | nil =>
          have hnil : s.inputBuffer.content = [] := (List.append_eq_nil_iff.mp hcut).1
          refine ⟨rfl, s, rfl, ?_⟩
          rw [← Buffer.length_content, hnil, List.length_nil]
      | cons request rest =>
          -- the whole request would be there, and not taken
          rw [List.append_nil] at hcut
          have hframe := prefixNext_request (hsend request List.mem_cons_self).size
            (requestFrames P rest)
          rw [hcut] at hwaits
          cases hwaits.symm.trans hframe
  | @read s s' output bytes chunks calls later r _ meets read _ ih =>
      intro requests hsend _ hcut
      rw [List.flatten_cons] at hcut
      have hends := onRead_ends (Q := Q) (s := ⟨s.inputBuffer, output⟩) meets.1 hsend hcut
      rw [read] at hends
      cases hends with
      | left calls rest s' split _ content waits _ _ =>
          obtain ⟨hlater, hend⟩ := ih (fun m hm => hsend m (split ▸ List.mem_append_right _ hm))
            waits content
          exact ⟨by rw [hlater, split], hend⟩
  | @failed s output bytes chunks calls fault _ meets read =>
      intro requests hsend _ hcut
      rw [List.flatten_cons] at hcut
      have hends := onRead_ends (Q := Q) (s := ⟨s.inputBuffer, output⟩) meets.1 hsend hcut
      rw [read] at hends
      cases hends with
      | asserted calls rest split complete violated =>
          rw [content_arriveSession] at complete
          have hroom : 4 * calls.length ≤ min kCheapPrepend output.outputBuffer.readerIndex :=
            Nat.le_trans (Nat.mul_le_mul_left 4 complete) meets.2
          cases (answers_of_room (Q := Q) meets.1 hroom).symm.trans violated

/-- The run in which the writes do not go on at all. -/
theorem runs_feed (chunks : List Bytes) (s : Session) :
    Runs P Q (fun _ _ => True) s chunks (feed (onRead P Q) s chunks).1
      (feed (onRead P Q) s chunks).2 := by
  induction chunks generalizing s with
  | nil => exact .finished
  | cons c cs ih =>
      rw [feed]
      rcases hread : onRead P Q s c with ⟨calls, fault | s'⟩
      · exact .failed .start trivial hread
      · exact .read .start trivial hread (ih s')

/-- In it, all responses are still in `outputBuffer_`. -/
theorem output_feed {chunks : List Bytes} :
    ∀ {s s' : Session} {requests calls : List TestMessage}, s.output.violated = false →
      (∀ m ∈ requests, Sendable P m) →
      s.inputBuffer.content ++ chunks.flatten = requestFrames P requests →
      feed (onRead P Q) s chunks = (calls, .ok s') →
      s'.output = answers Q s.output calls ∧ s'.output.violated = false := by
  induction chunks with
  | nil =>
      intro s s' requests calls hok _ _ hfeed
      obtain ⟨rfl, heq⟩ := Prod.mk.inj hfeed
      obtain rfl := Except.ok.inj heq
      exact ⟨rfl, hok⟩
  | cons c cs ih =>
      intro s s' requests calls hok hsend hcut hfeed
      have hends := onRead_ends (Q := Q) hok hsend hcut
      rw [feed] at hfeed
      rcases hread : onRead P Q s c with ⟨taken, fault | s₁⟩
      · rw [hread] at hfeed
        cases (Prod.mk.inj hfeed).2
      · rw [hread] at hends hfeed
        cases hends with
        | left taken rest s₁ split _ content waits output asserted =>
            obtain ⟨rfl, hend⟩ := Prod.mk.inj hfeed
            obtain ⟨hout, hok'⟩ := ih asserted
              (fun m hm => hsend m (split ▸ List.mem_append_right _ hm)) content
              (Prod.ext rfl hend)
            refine ⟨?_, hok'⟩
            rw [hout, output, answers, answers, answers, List.foldl_append]
            rfl

/-- `outputBuffer_` after so many responses: none, and it is new; one, and a
    write of what is left of it at most; after two nothing is needed of it. -/
def Answered : Nat → Sender TestMessage → Prop
  | 0, o => o = Sender.new
  | 1, o => o.violated = false ∧ Phase (rpcSession Q) o ∧ 4 ≤ o.outputBuffer.readerIndex
  | _, _ => True

variable (Q) in
theorem answered_answer {j : Nat} {o : Sender TestMessage} (h : Answered (Q := Q) j o)
    (response : TestMessage) : Answered (Q := Q) (j + 1) (answer Q o response) := by
  match j, h with
  | 0, h =>
      obtain rfl : o = Sender.new := h
      have hphase : Phase (rpcSession Q) Sender.new := .idle rfl rfl (ready_new _) rfl
      obtain ⟨hok, hphase'⟩ := hphase.send rfl (step_answer rfl response)
      refine ⟨hok, hphase', ?_⟩
      have h8 : (Sender.new : Sender TestMessage).outputBuffer.readerIndex = 8 := rfl
      rcases answer_cases (Q := Q) Sender.new response with ⟨-, -, hindex⟩ | ⟨hfew, -⟩
      · have h8' : kCheapPrepend = 8 := rfl
        omega
      · omega
  | _ + 1, _ => trivial

variable (Q) in
theorem answered_answers {requests : List TestMessage} :
    ∀ {j : Nat} {o : Sender TestMessage}, Answered (Q := Q) j o →
      Answered (Q := Q) (j + requests.length) (answers Q o requests) := by
  induction requests with
  | nil => exact fun h => h
  | cons request rest ih =>
      intro j o h
      rw [List.length_cons, Nat.add_comm rest.length, ← Nat.add_assoc]
      exact ih (answered_answer Q h _)

/-- The writes of one response keep it so. -/
theorem answered_writes {j : Nat} {o o' : Sender TestMessage} (h : Answered (Q := Q) j o)
    (hwrites : Reaches (step (rpcSession Q)) WritesGoOn o o') : Answered (Q := Q) j o' := by
  refine hwrites.invariant (I := Answered (Q := Q) j) h ?_
  intro o a o' h hgoes hstep
  match j, h with
  | 0, h =>
      obtain rfl : o = Sender.new := h
      cases a with
      | send m => exact hgoes.elim
      | transfer k n ec =>
          obtain ⟨-, w, hw, -⟩ := step_transfer hstep
          cases hw
      | onWrite k =>
          obtain ⟨-, w, n, ec, hw, -⟩ := step_onWrite hstep
          cases hw
  | 1, h =>
      obtain ⟨-, hphase, hroom⟩ := h
      cases a with
      | send m => exact hgoes.elim
      | transfer k n ec =>
          obtain ⟨hok, hphase'⟩ := hphase.transfer hstep
          obtain ⟨-, w, -, -, -, rfl⟩ := step_transfer hstep
          exact ⟨hok, hphase', hroom⟩
      | onWrite k =>
          obtain ⟨hok, hphase'⟩ := hphase.onWrite hstep
          refine ⟨hok, hphase', ?_⟩
          obtain ⟨-, w, n, ec, -, -, rfl⟩ := step_onWrite hstep
          rw [SharedBufferSend.onWrite] at hok ⊢
          cases ec with
          | true => exact hroom
          | false =>
              simp only [Bool.false_eq_true, if_false] at hok ⊢
              cases hb : o.outputBuffer.retrieve n with
              | none =>
                  rw [hb] at hok
                  cases hok
              | some b =>
                  have hindex := o.outputBuffer.readerIndex_retrieve hb
                  have h8 : kCheapPrepend = 8 := rfl
                  have hfour : 4 ≤ b.readerIndex := by omega
                  show 4 ≤ (if b.readableBytes > 0 then _ else _ :
                    Sender TestMessage).outputBuffer.readerIndex
                  split
                  · exact hfour
                  · exact hfour
  | _ + 2, _ => trivial

/-- No more requests are complete than were sent. -/
theorem completed_le {requests : List TestMessage} :
    ∀ {s t : Bytes}, (∀ m ∈ requests, Sendable P m) → s ++ t = requestFrames P requests →
      (completed s).length ≤ requests.length := by
  induction requests with
  | nil =>
      intro s t _ hcut
      rw [(List.append_eq_nil_iff.mp hcut).1]
      exact Nat.le_refl 0
  | cons request rest ih =>
      intro s t hsend hcut
      rcases front_cases (hsend request List.mem_cons_self).size hcut with
        hmore | ⟨u, hframe, hrest⟩
      · rw [completed_waits hmore]
        exact Nat.zero_le _
      · rw [completed_takes hframe, List.length_cons]
        exact Nat.succ_le_succ (ih (fun m hm => hsend m (List.mem_cons_of_mem _ hm)) hrest)

/-- A piece has bytes of a request that is not taken yet, so of two requests
    at most the responses to one are there, and there is room for the others. -/
theorem hasRoom_of_answered {j : Nat} {requests : List TestMessage} {s : Session} {bytes t : Bytes}
    (hj : Answered (Q := Q) j s.output) (hfew : j + requests.length ≤ 2)
    (hsend : ∀ m ∈ requests, Sendable P m) (hbytes : bytes ≠ [])
    (hcut : s.inputBuffer.content ++ (bytes ++ t) = requestFrames P requests) :
    HasRoom s bytes := by
  have hcomplete : (completed (s.inputBuffer.content ++ bytes)).length ≤ requests.length :=
    completed_le hsend (by rw [List.append_assoc, hcut])
  have hsome : requests ≠ [] := by
    rintro rfl
    exact hbytes (List.append_eq_nil_iff.mp (List.append_eq_nil_iff.mp hcut).2).1
  have hpos := List.length_pos_iff.mpr hsome
  have h8 : kCheapPrepend = 8 := rfl
  match j, hj with
  | 0, hj =>
      have hnew : s.output = Sender.new := hj
      rw [HasRoom, hnew]
      have hfront : (Sender.new : Sender TestMessage).outputBuffer.prependableBytes = 8 := rfl
      exact ⟨rfl, by omega⟩
  | 1, hj =>
      have hfront : 4 ≤ s.output.outputBuffer.prependableBytes := hj.2.2
      exact ⟨hj.1, by omega⟩
  | j + 2, _ => omega

/-- Two requests at most always find room. -/
theorem room_of_few {s : Session} {chunks : List Bytes} {calls : List TestMessage}
    {r : Except Fault Session} (hrun : Runs P Q (fun _ _ => True) s chunks calls r) :
    ∀ {j : Nat} {requests : List TestMessage}, Answered (Q := Q) j s.output →
      j + requests.length ≤ 2 → (∀ m ∈ requests, Sendable P m) → (∀ c ∈ chunks, c ≠ []) →
      s.inputBuffer.content ++ chunks.flatten = requestFrames P requests →
      Runs P Q HasRoom s chunks calls r := by
  induction hrun with
  | finished => exact fun _ _ _ _ _ => .finished
  | @read s s' output bytes chunks calls later r writes _ read _ ih =>
      intro j requests hj hfew hsend hchunks hcut
      rw [List.flatten_cons] at hcut
      have hwritten := answered_writes hj writes
      have hmeets : HasRoom ⟨s.inputBuffer, output⟩ bytes :=
        hasRoom_of_answered hwritten hfew hsend (hchunks _ List.mem_cons_self) hcut
      have hends := onRead_ends (Q := Q) (s := ⟨s.inputBuffer, output⟩) hmeets.1 hsend hcut
      rw [read] at hends
      cases hends with
      | left calls rest s' split _ content _ houtput _ =>
          have hj' : Answered (Q := Q) (j + calls.length) s'.output := by
            rw [houtput]
            exact answered_answers Q hwritten
          rw [split, List.length_append] at hfew
          exact .read writes hmeets read (ih hj' (by omega)
            (fun m hm => hsend m (split ▸ List.mem_append_right _ hm))
            (fun c hc => hchunks c (List.mem_cons_of_mem _ hc)) content)
  | @failed s output bytes chunks calls fault writes _ read =>
      intro j requests hj hfew hsend hchunks hcut
      rw [List.flatten_cons] at hcut
      have hwritten := answered_writes hj writes
      have hmeets : HasRoom ⟨s.inputBuffer, output⟩ bytes :=
        hasRoom_of_answered hwritten hfew hsend (hchunks _ List.mem_cons_self) hcut
      exact .failed writes hmeets read

variable (P Q) in
/-- **READ EXACTLY, AND WHEN**: however the frames are cut and whatever the
    writes do meanwhile, the service gets what was sent if and only if that is
    two requests at most; and it gets any number of requests in every run in
    which each piece finds room for the responses to those it completes. -/
theorem requests_read_iff {requests : List TestMessage} {frames : List Bytes}
    (hbuilt : List.Forall₂ (BuiltRequest P) requests frames)
    (hsize : ∀ m ∈ requests, (P.serialize m).length ≤ 2 ^ 31 - 5)
    (hparse : ∀ m ∈ requests, P.ParsesBack m)
    {chunks : List Bytes} (hcut : chunks.flatten = frames.flatten)
    (hchunks : ∀ c ∈ chunks, c ≠ []) :
    ((∀ calls r, Runs P Q (fun _ _ => True) Session.new chunks calls r →
        ReadExactly requests calls r) ↔ requests.length ≤ 2) ∧
      ∀ calls r, Runs P Q HasRoom Session.new chunks calls r → ReadExactly requests calls r := by
  have hsend : ∀ m ∈ requests, Sendable P m := fun m hm => ⟨hsize m hm, hparse m hm⟩
  have hwaits : prefixNext rpcSessionGuard Session.new.inputBuffer.content = .more := by
    rw [Session.new, Buffer.content_new]
    rfl
  have hstream : Session.new.inputBuffer.content ++ chunks.flatten = requestFrames P requests := by
    rw [Session.new, Buffer.content_new, List.nil_append, hcut, builtRequests_flatten P hbuilt]
  refine ⟨⟨fun hall => ?_, fun hfew calls r hrun => ?_⟩, fun calls r hrun => ?_⟩
  · -- the writes may not go on at all, and then all responses are in the buffer
    obtain ⟨hcalls, s, hend, -⟩ := hall _ _ (runs_feed chunks Session.new)
    obtain ⟨hout, hok⟩ := output_feed (Q := Q) rfl hsend hstream (Prod.ext hcalls hend)
    have hroom := room_of_answers (o := Sender.new) (Nat.le_refl _) (hout ▸ hok)
    have h8 : (Sender.new : Sender TestMessage).outputBuffer.readerIndex = 8 := rfl
    omega
  · have hrun' := room_of_few hrun (j := 0) rfl (by omega) hsend hchunks hstream
    exact exact_of_room hrun' hsend hwaits hstream
  · exact exact_of_room hrun hsend hwaits hstream

/-- An empty request and one with an id, cut inside both lengths; and three
    empty requests, the third when the responses to the first two are written. -/
theorem requests_read_iff_in_turn :
    (∀ calls r, Runs testProto testProto (fun _ _ => True) Session.new
        [[0, 0], [0, 0, 0, 0, 0], [2, 8], [7]] calls r →
      ReadExactly [⟨0, []⟩, ⟨7, []⟩] calls r) ∧
    ∃ calls r, Runs testProto testProto HasRoom Session.new
        [[0, 0, 0, 0, 0, 0, 0], [0], [0, 0, 0, 0]] calls r ∧
      ReadExactly [⟨0, []⟩, ⟨0, []⟩, ⟨0, []⟩] calls r := by
  have hempty : BuiltRequest testProto ⟨0, []⟩ [0, 0, 0, 0] :=
    (builtRequest_iff testProto _ _).mpr (by decide)
  have hid : BuiltRequest testProto ⟨7, []⟩ [0, 0, 0, 2, 8, 7] :=
    (builtRequest_iff testProto _ _).mpr (by decide)
  constructor
  · refine (requests_read_iff testProto testProto (.cons hempty (.cons hid .nil)) (by decide)
      ?_ (by decide) (by decide)).1.mpr (by decide)
    unfold Protobuf.ParsesBack
    decide +kernel
  · have hserve : (serve testProto testProto HasRoom Session.new
        [([], [0, 0, 0, 0, 0, 0, 0]), ([.transfer 0 4 false, .onWrite 0], [0]),
          ([.transfer 0 4 false, .onWrite 0], [0, 0, 0, 0])]).isSome = true := by
      decide +kernel
    obtain ⟨⟨calls, r⟩, hrun⟩ := Option.isSome_iff_exists.mp hserve
    refine ⟨calls, r, runs_of_serve testProto testProto hrun, ?_⟩
    refine (requests_read_iff testProto testProto (.cons hempty (.cons hempty (.cons hempty .nil)))
      (by decide) ?_ (by decide) (by decide)).2 calls r (runs_of_serve testProto testProto hrun)
    unfold Protobuf.ParsesBack
    decide +kernel

set_option maxRecDepth 20000 in
/-- Sixteen zeros, four empty requests, at once: the response to the third
    fails its assertion, and the service never gets the fourth. -/
theorem four_requests_abort :
    List.Forall₂ (BuiltRequest testProto) (List.replicate 4 ⟨0, []⟩)
        (List.replicate 4 [0, 0, 0, 0]) ∧
      testProto.ParsesBack ⟨0, []⟩ ∧
      Runs testProto testProto (fun _ _ => True) Session.new [List.replicate 16 0]
        (List.replicate 3 ⟨0, []⟩) (.error .asserted) ∧
      ¬ ∀ calls r, Runs testProto testProto (fun _ _ => True) Session.new [List.replicate 16 0]
          calls r → ReadExactly (List.replicate 4 ⟨0, []⟩) calls r := by
  have hempty : BuiltRequest testProto ⟨0, []⟩ [0, 0, 0, 0] :=
    (builtRequest_iff testProto _ _).mpr (by decide)
  have hrun : Runs testProto testProto (fun _ _ => True) Session.new [List.replicate 16 0]
      (List.replicate 3 ⟨0, []⟩) (.error .asserted) :=
    .failed .start trivial rfl
  refine ⟨.cons hempty (.cons hempty (.cons hempty (.cons hempty .nil))), rfl, hrun, ?_⟩
  intro hall
  obtain ⟨-, s, hend, -⟩ := hall _ _ hrun
  cases hend

end AsioRpcRequest
