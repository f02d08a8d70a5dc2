import BoostPractice.ChatReaderProofs

/-! # The readers of the first RPC program

    `rpc_session::on_read` is one more reader of length-prefixed messages; its
    guard is a sum of two `int`s.  `rpc_client::on_read` is not: it parses
    everything that is readable, twice, and between the two looks the id up in
    `resCalls_`, which other threads fill.  An iteration therefore depends on
    what has arrived behind its message, and on `resCalls_` at the time.

    `readers_survive_iff` says for all four readers which streams they read
    without a string or a range beyond the readable bytes, without a failing
    assertion of the buffer and without an overflow. -/

namespace AsioRpcReader

open MachineInt FrameDecoding BoostBuffer RpcMessages PrefixReader ChatReader
open RpcCodecRead (lengthField lengthField_append)

/-! ## The server's reader -/

/-- `readableBytes() >= kMinMessageLen`, and `len + kMinMessageLen`, a sum of
    two `int`s that is compared as a `size_t`. -/
def rpcSessionGuard : Guard where
  fewest := 4
  needed len :=
    if len.toInt + 4 < 2 ^ 31 then .ok (toSizeT (len.toInt + 4))
    else .error (.overflow (len.toInt + 4))
  four_le := Nat.le_refl 4
  needed_eq := by
    intro len n h hn
    split at hn
    · rw [← Except.ok.inj hn, toSizeT_of_nonneg (by omega) (by omega)]
      omega
    · cases hn

/-- The loop of `rpc_session::on_read`: the strings `msg`. -/
def rpcSessionLoop (inputBuffer : Buffer) (bytes : Bytes) : List Bytes × Except Misuse Buffer :=
  let b := (inputBuffer.ensureWritableBytes bytes.length).append bytes
  loopN (readerStep rpcSessionGuard retrieveAsString) (b.readableBytes + 1) b

/-- `rpc_session::on_read` as far as `inputBuffer_` goes: the requests that
    `TestSolve` is called with.  The value that `ParseFromString` returns is
    not looked at.  What `TestSolve` puts into `outputBuffer_` is not here; it
    changes nothing in `inputBuffer_`. -/
def rpcSessionOnRead {M : Type} (P : Protobuf M) (inputBuffer : Buffer) (bytes : Bytes) :
    List M × Except Misuse Buffer :=
  let run := rpcSessionLoop inputBuffer bytes
  (run.1.map fun msg => (P.parseFromArray msg).1, run.2)

theorem content_arrive (b : Buffer) (bytes : Bytes) :
    ((b.ensureWritableBytes bytes.length).append bytes).content = b.content ++ bytes := by
  rw [Buffer.content_append, Buffer.content_ensureWritableBytes]

theorem rpcSessionLoop_reads : Reads rpcSessionGuard rpcSessionLoop where
  observe b bytes := observe_readerLoop rpcSessionGuard retrieveAsString_copies
    (content_arrive b bytes)

/-- What is done with a string does not change what is read. -/
theorem feed_rpcSessionOnRead {M : Type} (P : Protobuf M) (chunks : List Bytes) (b : Buffer) :
    feed (rpcSessionOnRead P) b chunks
      = ((feed rpcSessionLoop b chunks).1.map fun msg => (P.parseFromArray msg).1,
        (feed rpcSessionLoop b chunks).2) := by
  induction chunks generalizing b with
  | nil => rfl
  | cons c cs ih =>
      rw [feed, feed, rpcSessionOnRead]
      rcases rpcSessionLoop b c with ⟨msgs, misuse | b'⟩
      · rfl
      · simp only [ih, List.map_append]

/-! ## The client's reader -/

/-- `ResponseCall`: a pointer to the response object and one to the closure,
    either of which may be null. -/
structure ResponseCall where
  response : Option Nat
  done : Option Nat

/-- `std::map<int32_t, ResponseCall>`. -/
abbrev ResCalls := Int32 → Option ResponseCall

/-- What ends an iteration of the client. -/
inductive ClientFault where
  | misuse (m : Misuse)
  /-- `callback.response` is dereferenced and null. -/
  | nullResponse
  /-- `callback.done` is dereferenced and null. -/
  | nullDone
  deriving DecidableEq

/-- A completed call: the value its response object has, and its closure. -/
structure Solved (M : Type) where
  response : Nat
  value : M
  done : Nat

def misused {α : Type} : Except Misuse α → Except ClientFault α
  | .ok a => .ok a
  | .error m => .error (.misuse m)

section Client

variable {M : Type} (P : Protobuf M) (id : M → Int32)

/-- `ParseFromArray(peek(), readableBytes())`: the number of bytes is
    converted to the `int` of the parameter, and back inside. -/
def parseReadable (b : Buffer) : Except Misuse M :=
  let n := toSizeT (toInt32 b.readableBytes)
  if n ≤ b.readableBytes then .ok (P.parseFromArray (b.content.take n)).1
  else .error (.parse n b.readableBytes)

/-- Find and erase an entry; `{NULL, NULL}` if there is none. -/
def takeCall (resCalls : ResCalls) (id : Int32) : ResponseCall × ResCalls :=
  match resCalls id with
  | some call => (call, Function.update resCalls id none)
  | none => (⟨none, none⟩, resCalls)

/-- The body of the loop of `rpc_client::on_read`, the length retrieved, with
    the `resCalls_` that it locks. -/
def clientBody (b : Buffer) (len : Int32) (resCalls : ResCalls) :
    Except ClientFault (Option (Solved M × Buffer × ResCalls)) := do
  let resTemp ← misused (parseReadable P b)
  let (callback, resCalls) := takeCall resCalls (id resTemp)
  match callback.response with
  | none => .error .nullResponse
  | some response => do
      let value ← misused (parseReadable P b)
      let b ← misused (retrieve b (toSizeT len.toInt))
      match callback.done with
      | none => .error .nullDone
      | some done => return some (⟨response, value, done⟩, b, resCalls)

/-- One evaluation of the loop condition and, if it holds, of the body. -/
def clientStep (b : Buffer) (resCalls : ResCalls) :
    Except ClientFault (Option (Solved M × Buffer × ResCalls)) :=
  if 4 ≤ b.readableBytes then do
    let len ← misused (peekInt32 b)
    if toSizeT (4 + len.toInt) ≤ b.readableBytes then do
      let b ← misused (retrieve b 4)
      clientBody P id b len resCalls
    else
      return none
  else
    return none

/-- The same, for a client whose `resCalls_` are `env k` when its `k`-th
    iteration locks them: other threads may have done anything before. -/
def clientStepIn (env : Nat → ResCalls) (s : Nat × Buffer) :
    Except ClientFault (Option (Solved M × Nat × Buffer)) :=
  (clientStep P id s.2 (env s.1)).map fun next =>
    next.map fun (solved, b, _) => (solved, s.1 + 1, b)

/-- New bytes in `inputBuffer_`. -/
def clientArrive (s : Nat × Buffer) (bytes : Bytes) : Nat × Buffer :=
  (s.1, (s.2.ensureWritableBytes bytes.length).append bytes)

/-- `rpc_client::on_read`. -/
def rpcClientOnRead (env : Nat → ResCalls) (s : Nat × Buffer) (bytes : Bytes) :
    List (Solved M) × Except ClientFault (Nat × Buffer) :=
  let s := clientArrive s bytes
  loopN (clientStepIn P id env) (s.2.readableBytes + 1) s

@[simp]
theorem misused_ok_bind {α β : Type} (a : α) (f : α → Except ClientFault β) :
    (misused (.ok a) >>= f) = f a := rfl

@[simp]
theorem misused_error_bind {α β : Type} (m : Misuse) (f : α → Except ClientFault β) :
    (misused (.error m) >>= f) = .error (.misuse m) := rfl

/-- The bytes that are parsed when these are readable, if there are so many. -/
def parsedRange (s : Bytes) : Bytes := s.take (toSizeT (toInt32 s.length))

/-- The entry of `resCalls_` that an iteration erases, `s` being readable
    behind its length. -/
def erasedCall (resCalls : ResCalls) (s : Bytes) : ResponseCall :=
  (takeCall resCalls (id (P.parseFromArray (parsedRange s)).1)).1

/-- **WHAT AN ITERATION RELIES ON**, its length being `len` and `s` readable
    behind it. -/
structure ClientReads (resCalls : ResCalls) (len : Int32) (s : Bytes) : Prop where
  /-- The number of bytes, as an `int`, is not more than there are. -/
  range : toSizeT (toInt32 s.length) ≤ s.length
  /-- Nor is the length, if there is a response object to parse into. -/
  length : (erasedCall P id resCalls s).response ≠ none → toSizeT len.toInt ≤ s.length

/-- **THE SIGNS** of the two `int`s. -/
structure ClientSigns (resCalls : ResCalls) (len : Int32) (s : Bytes) : Prop where
  /-- The number of bytes is not negative as an `int`. -/
  range : 0 ≤ toInt32 s.length
  /-- Nor is the length, if there is a response object to parse into. -/
  length : (erasedCall P id resCalls s).response ≠ none → 0 ≤ len.toInt

/-- A negative `int` becomes a `size_t` that is longer than any buffer. -/
theorem toSizeT_le_iff {x : Int} {n : Nat} (hlow : -2 ^ 31 ≤ x) (hn : n < 2 ^ 63)
    (hle : 0 ≤ x → x ≤ n) : toSizeT x ≤ n ↔ 0 ≤ x := by
  rw [toSizeT]
  constructor
  · intro h
    omega
  · intro h
    have := hle h
    omega

/-- **BY THEIR SIGNS**: behind a guard that has passed, an iteration finds what
    it relies on exactly if neither `int` is negative. -/
theorem clientReads_iff_signs {resCalls : ResCalls} {len : Int32} {s : Bytes}
    (hmem : s.length < 2 ^ 63) (hguard : toSizeT (4 + len.toInt) ≤ s.length + 4) :
    ClientReads P id resCalls len s ↔ ClientSigns P id resCalls len s := by
  have hlow := len.le_toInt
  have hhigh := len.toInt_lt
  have hrange : toSizeT (toInt32 s.length) ≤ s.length ↔ 0 ≤ toInt32 s.length := by
    refine toSizeT_le_iff ?_ hmem ?_
    · exact Int.le_bmod (by decide)
    · intro _
      rw [toInt32, Int.bmod_def]
      split
      · omega
      · omega
  have hlength : toSizeT len.toInt ≤ s.length ↔ 0 ≤ len.toInt := by
    refine toSizeT_le_iff hlow hmem fun h => ?_
    rw [toSizeT] at hguard
    omega
  constructor
  · intro h
    exact ⟨hrange.mp h.range, fun hne => hlength.mp (h.length hne)⟩
  · intro h
    exact ⟨hrange.mpr h.range, fun hne => hlength.mpr (h.length hne)⟩

/-- `s` being readable, the loop is left. -/
def ClientWaits (s : Bytes) : Prop :=
  s.length < 4 ∨ s.length < toSizeT (4 + (lengthField s).toInt)

/-- Walking from message to message through `s` and the pieces to come, `k`
    iterations having been run, each message is one that an iteration can
    read, which is what `reads` says.  The walk ends where an iteration meets a
    null pointer. -/
inductive ClientHeadsOk (reads : ResCalls → Int32 → Bytes → Prop) (env : Nat → ResCalls) :
    Nat → Bytes → List Bytes → Prop where
  | finished {k : Nat} {s : Bytes} : ClientWaits s → ClientHeadsOk reads env k s []
  | piece {k : Nat} {s c : Bytes} {cs : List Bytes} : ClientWaits s →
      ClientHeadsOk reads env k (s ++ c) cs → ClientHeadsOk reads env k s (c :: cs)
  | message {k : Nat} {s : Bytes} {cs : List Bytes} : ¬ ClientWaits s →
      reads (env k) (lengthField s) (s.drop 4) →
      ((erasedCall P id (env k) (s.drop 4)).response ≠ none →
        (erasedCall P id (env k) (s.drop 4)).done ≠ none →
        ClientHeadsOk reads env (k + 1) (s.drop (4 + toSizeT (lengthField s).toInt)) cs) →
      ClientHeadsOk reads env k s cs

/-- Two conditions that agree behind a guard that has passed. -/
theorem ClientHeadsOk.congr {reads reads' : ResCalls → Int32 → Bytes → Prop}
    {env : Nat → ResCalls} {n k : Nat} {s : Bytes} {cs : List Bytes}
    (hsame : ∀ {resCalls : ResCalls} {len : Int32} {t : Bytes}, t.length < n →
      toSizeT (4 + len.toInt) ≤ t.length + 4 → reads resCalls len t → reads' resCalls len t)
    (h : ClientHeadsOk P id reads env k s cs) (hmem : s.length + cs.flatten.length < n) :
    ClientHeadsOk P id reads' env k s cs := by
  induction h with
  | finished hwaits => exact .finished hwaits
  | @piece k s c cs hwaits _ ih =>
      rw [List.flatten_cons, List.length_append] at hmem
      exact .piece hwaits (ih (by rw [List.length_append]; omega))
  | @message k s cs hwaits hreads _ ih =>
      have hguard := not_or.mp hwaits
      have hlength : (s.drop 4).length = s.length - 4 := List.length_drop
      refine .message hwaits (hsame (by omega) (by omega) hreads) fun hresponse hdone => ?_
      exact ih hresponse hdone (by rw [List.length_drop]; omega)

/-- For fewer than `2 ^ 63` bytes in all the walk can be made by the signs. -/
theorem clientHeadsOk_iff_signs {env : Nat → ResCalls} {chunks : List Bytes}
    (hmem : chunks.flatten.length < 2 ^ 63) :
    ClientHeadsOk P id (ClientReads P id) env 0 [] chunks ↔
      ClientHeadsOk P id (ClientSigns P id) env 0 [] chunks := by
  have hsum : ([] : Bytes).length + chunks.flatten.length < 2 ^ 63 := by
    rwa [List.length_nil, Nat.zero_add]
  constructor
  · intro h
    exact h.congr P id (fun ht hguard => (clientReads_iff_signs P id ht hguard).mp) hsum
  · intro h
    exact h.congr P id (fun ht hguard => (clientReads_iff_signs P id ht hguard).mpr) hsum

/-! ## One iteration of the client -/

theorem parseReadable_ok {b : Buffer}
    (h : toSizeT (toInt32 b.content.length) ≤ b.content.length) :
    parseReadable P b = .ok (P.parseFromArray (parsedRange b.content)).1 := by
  rw [parsedRange]
  rw [b.length_content] at h ⊢
  simp only [parseReadable, if_pos h]

theorem parseReadable_error {b : Buffer}
    (h : ¬ toSizeT (toInt32 b.content.length) ≤ b.content.length) :
    ∃ m, parseReadable P b = .error m := by
  rw [b.length_content] at h
  simp only [parseReadable, if_neg h]
  exact ⟨_, rfl⟩

/-- The cases of `clientBody`: it misuses the buffer, it dereferences a null
    pointer, or it completes a call. -/
theorem clientBody_cases (b : Buffer) (len : Int32) (resCalls : ResCalls) :
    (¬ ClientReads P id resCalls len b.content ∧
      ∃ m, clientBody P id b len resCalls = .error (.misuse m)) ∨
    (ClientReads P id resCalls len b.content ∧
      ((erasedCall P id resCalls b.content).response = none ∨
        (erasedCall P id resCalls b.content).done = none) ∧
      ∃ fault, clientBody P id b len resCalls = .error fault ∧ ∀ m, fault ≠ .misuse m) ∨
    (ClientReads P id resCalls len b.content ∧
      (erasedCall P id resCalls b.content).response ≠ none ∧
      (erasedCall P id resCalls b.content).done ≠ none ∧
      ∃ solved b' resCalls', clientBody P id b len resCalls = .ok (some (solved, b', resCalls')) ∧
        b'.content = b.content.drop (toSizeT len.toInt)) := by
  by_cases hrange : toSizeT (toInt32 b.content.length) ≤ b.content.length
  · rcases hcall : takeCall resCalls (id (P.parseFromArray (parsedRange b.content)).1) with
      ⟨⟨response, done⟩, resCalls'⟩
    have herased : erasedCall P id resCalls b.content = ⟨response, done⟩ := by
      rw [erasedCall, hcall]
    rw [herased, clientBody, parseReadable_ok P hrange, misused_ok_bind, hcall]
    cases response with
    | none =>
        refine .inr (.inl ⟨⟨hrange, fun h => ?_⟩, .inl rfl, .nullResponse, rfl, nofun⟩)
        rw [herased] at h
        exact absurd rfl h
    | some response =>
        by_cases hlen : toSizeT len.toInt ≤ b.content.length
        · have hreads : ClientReads P id resCalls len b.content := ⟨hrange, fun _ => hlen⟩
          obtain ⟨b', hb', hcontent⟩ := retrieve_ok (b := b) (b.length_content ▸ hlen)
          simp only [hb', misused_ok_bind]
          cases done with
          | none => exact .inr (.inl ⟨hreads, .inr rfl, .nullDone, rfl, nofun⟩)
          | some done => exact .inr (.inr ⟨hreads, nofun, nofun, _, b', _, rfl, hcontent⟩)
        · have hfails : retrieve b (toSizeT len.toInt)
              = .error (.assertion (toSizeT len.toInt) b.readableBytes) :=
            retrieve_exceeds (b.length_content ▸ Nat.lt_of_not_le hlen)
          simp only [misused_ok_bind, hfails, misused_error_bind]
          refine .inl ⟨fun h => hlen (h.length ?_), _, rfl⟩
          rw [herased]
          exact nofun
  · obtain ⟨m, hm⟩ := parseReadable_error P hrange
    refine .inl ⟨fun h => hrange h.range, m, ?_⟩
    rw [clientBody, hm, misused_error_bind]

theorem clientStep_waits {b : Buffer} (resCalls : ResCalls) (h : ClientWaits b.content) :
    clientStep P id b resCalls = .ok none := by
  rw [ClientWaits, b.length_content] at h
  by_cases h4 : 4 ≤ b.readableBytes
  · have hguard : b.readableBytes < toSizeT (4 + (lengthField b.content).toInt) :=
      h.resolve_left (Nat.not_lt_of_le h4)
    rw [clientStep, if_pos h4, peekInt32_ok h4, misused_ok_bind,
      if_neg (Nat.not_le_of_lt hguard)]
    rfl
  · exact if_neg h4

/-- When the guard passes, the body is run on what is behind the length. -/
theorem clientStep_body {b : Buffer} (resCalls : ResCalls) (h : ¬ ClientWaits b.content) :
    ∃ b₁, b₁.content = b.content.drop 4 ∧
      clientStep P id b resCalls = clientBody P id b₁ (lengthField b.content) resCalls := by
  rw [ClientWaits, b.length_content, not_or] at h
  have h4 : 4 ≤ b.readableBytes := Nat.le_of_not_lt h.1
  obtain ⟨b₁, hb₁, hcontent⟩ := retrieve_ok h4
  refine ⟨b₁, hcontent, ?_⟩
  rw [clientStep, if_pos h4, peekInt32_ok h4, misused_ok_bind, if_pos (Nat.le_of_not_lt h.2), hb₁,
    misused_ok_bind]

/-- The cases of an iteration of the client: those of its body. -/
theorem clientStepIn_cases (env : Nat → ResCalls) (k : Nat) {b : Buffer}
    (h : ¬ ClientWaits b.content) :
    (¬ ClientReads P id (env k) (lengthField b.content) (b.content.drop 4) ∧
      ∃ m, clientStepIn P id env (k, b) = .error (.misuse m)) ∨
    (ClientReads P id (env k) (lengthField b.content) (b.content.drop 4) ∧
      ((erasedCall P id (env k) (b.content.drop 4)).response = none ∨
        (erasedCall P id (env k) (b.content.drop 4)).done = none) ∧
      ∃ fault, clientStepIn P id env (k, b) = .error fault ∧ ∀ m, fault ≠ .misuse m) ∨
    (ClientReads P id (env k) (lengthField b.content) (b.content.drop 4) ∧
      (erasedCall P id (env k) (b.content.drop 4)).response ≠ none ∧
      (erasedCall P id (env k) (b.content.drop 4)).done ≠ none ∧
      ∃ solved b', clientStepIn P id env (k, b) = .ok (some (solved, k + 1, b')) ∧
        b'.content = b.content.drop (4 + toSizeT (lengthField b.content).toInt)) := by
  obtain ⟨b₁, hb₁, hstep⟩ := clientStep_body P id (env k) h
  have hcases := clientBody_cases P id b₁ (lengthField b.content) (env k)
  rw [hb₁] at hcases
  rcases hcases with ⟨hnot, m, hm⟩ | ⟨hreads, hnull, fault, hfault, hne⟩ |
    ⟨hreads, hresponse, hdone, solved, b', resCalls', hbody, hcontent⟩
  · refine .inl ⟨hnot, m, ?_⟩
    rw [clientStepIn, hstep, hm]
    rfl
  · refine .inr (.inl ⟨hreads, hnull, fault, ?_, hne⟩)
    rw [clientStepIn, hstep, hfault]
    rfl
  · refine .inr (.inr ⟨hreads, hresponse, hdone, solved, b', ?_, ?_⟩)
    · rw [clientStepIn, hstep, hbody]
      rfl
    · rw [hcontent, List.drop_drop]

theorem clientStepIn_waits (env : Nat → ResCalls) (k : Nat) {b : Buffer}
    (h : ClientWaits b.content) : clientStepIn P id env (k, b) = .ok none := by
  rw [clientStepIn, clientStep_waits P id _ h]
  rfl

/-- The loop is left only where it waits. -/
theorem waits_of_left {env : Nat → ResCalls} {s : Nat × Buffer}
    (h : clientStepIn P id env s = .ok none) : ClientWaits s.2.content := by
  by_contra hwaits
  rcases clientStepIn_cases P id env s.1 hwaits with ⟨-, m, hm⟩ | ⟨-, -, fault, hfault, -⟩ |
    ⟨-, -, -, solved, b', hstep, -⟩
  · cases hm.symm.trans h
  · cases hfault.symm.trans h
  · cases hstep.symm.trans h

/-- A completed iteration has retrieved the length at least. -/
theorem clientStepIn_shrinks (env : Nat → ResCalls) (s : Nat × Buffer) (solved : Solved M)
    (s' : Nat × Buffer) (h : clientStepIn P id env s = .ok (some (solved, s'))) :
    s'.2.readableBytes < s.2.readableBytes := by
  obtain ⟨k, b⟩ := s
  by_cases hwaits : ClientWaits b.content
  · cases (clientStepIn_waits P id env k hwaits).symm.trans h
  · have h4 : 4 ≤ b.content.length := Nat.le_of_not_lt fun hlt => hwaits (.inl hlt)
    rcases clientStepIn_cases P id env k hwaits with ⟨-, m, hm⟩ | ⟨-, -, fault, hfault, -⟩ |
      ⟨-, -, -, solved', b', hstep, hcontent⟩
    · cases hm.symm.trans h
    · cases hfault.symm.trans h
    · obtain ⟨-, rfl⟩ := Prod.mk.inj (Option.some.inj (Except.ok.inj (hstep.symm.trans h)))
      rw [← b'.length_content, ← b.length_content, hcontent, List.length_drop]
      omega

/-! ## Which streams the client reads without misuse -/

variable {P id} {env : Nat → ResCalls}

/-- If the client ends without misuse, each iteration has found what it
    relies on. -/
theorem headsOk_of_ends {s : Nat × Buffer} {cs : List Bytes}
    {r : Except ClientFault (Nat × Buffer)}
    (h : Ends clientArrive (clientStepIn P id env) s cs r)
    (hr : ∀ m, r ≠ .error (.misuse m)) :
    ClientHeadsOk P id (ClientReads P id) env s.1 s.2.content cs := by
  induction h with
  | @failed s cs fault fails =>
      by_cases hwaits : ClientWaits s.2.content
      · cases (clientStepIn_waits P id env s.1 hwaits).symm.trans fails
      · rcases clientStepIn_cases P id env s.1 hwaits with ⟨-, m, hm⟩ | ⟨hreads, hnull, -⟩ |
          ⟨-, -, -, solved, b', hstep, -⟩
        · obtain rfl := Except.error.inj (fails.symm.trans hm)
          exact absurd rfl (hr m)
        · refine .message hwaits hreads fun hresponse hdone => ?_
          exact (hnull.elim hresponse hdone).elim
        · cases hstep.symm.trans fails
  | @finished s left =>
      exact .finished (waits_of_left P id left)
  | @piece s c cs r left rest ih =>
      refine .piece (waits_of_left P id left) ?_
      exact content_arrive s.2 c ▸ ih hr
  | @again s s' w cs r taken rest ih =>
      by_cases hwaits : ClientWaits s.2.content
      · cases (clientStepIn_waits P id env s.1 hwaits).symm.trans taken
      · rcases clientStepIn_cases P id env s.1 hwaits with ⟨-, m, hm⟩ | ⟨-, -, fault, hfault, -⟩ |
          ⟨hreads, -, -, solved, b', hstep, hcontent⟩
        · cases hm.symm.trans taken
        · cases hfault.symm.trans taken
        · obtain ⟨-, rfl⟩ := Prod.mk.inj (Option.some.inj (Except.ok.inj (hstep.symm.trans taken)))
          exact .message hwaits hreads fun _ _ => hcontent ▸ ih hr

/-- An iteration that finds what it relies on is without misuse, and the walk
    goes on behind its message. -/
theorem ends_of_headsOk {k : Nat} {s : Bytes} {cs : List Bytes}
    (h : ClientHeadsOk P id (ClientReads P id) env k s cs) :
    ∀ {b : Buffer}, b.content = s → ∀ {r : Except ClientFault (Nat × Buffer)},
      Ends clientArrive (clientStepIn P id env) (k, b) cs r →
        ∀ m, r ≠ .error (.misuse m) := by
  induction h with
  | @finished k s hwaits =>
      rintro b rfl r hends m
      have hstep := clientStepIn_waits P id env k hwaits
      cases hends with
      | failed fails => cases hstep.symm.trans fails
      | finished _ => exact nofun
      | again taken _ => cases hstep.symm.trans taken
  | @piece k s c cs hwaits _ ih =>
      rintro b rfl r hends m
      have hstep := clientStepIn_waits P id env k hwaits
      cases hends with
      | failed fails => cases hstep.symm.trans fails
      | piece _ rest => exact ih (content_arrive b c) rest m
      | again taken _ => cases hstep.symm.trans taken
  | @message k s cs hwaits hreads _ ih =>
      rintro b rfl r hends m
      rcases clientStepIn_cases P id env k hwaits with ⟨hnot, -⟩ | ⟨-, -, fault, hfault, hne⟩ |
        ⟨-, hresponse, hdone, solved, b', hstep, hcontent⟩
      · exact absurd hreads hnot
      · cases hends with
        | failed fails =>
            obtain rfl := Except.error.inj (hfault.symm.trans fails)
            exact fun heq => hne m (Except.error.inj heq)
        | finished left => cases hfault.symm.trans left
        | piece left _ => cases hfault.symm.trans left
        | again taken _ => cases hfault.symm.trans taken
      · cases hends with
        | failed fails => cases hstep.symm.trans fails
        | finished left => cases hstep.symm.trans left
        | piece left _ => cases hstep.symm.trans left
        | again taken rest =>
            have hsame := Except.ok.inj (hstep.symm.trans taken)
            obtain ⟨-, rfl⟩ := Prod.mk.inj (Option.some.inj hsame)
            exact ih hresponse hdone hcontent rest m

/-- **NO MISUSE, EXACTLY**, for the client: from message to message, an
    iteration finds what it relies on. -/
theorem client_misuse_iff (chunks : List Bytes) :
    (∀ m, (feed (rpcClientOnRead P id env) (0, Buffer.new kInitialSize) chunks).2
        ≠ .error (.misuse m)) ↔
      ClientHeadsOk P id (ClientReads P id) env 0 [] chunks := by
  have hwaits : ClientWaits (Buffer.new kInitialSize).content := .inl (by decide)
  have hends : Ends clientArrive (clientStepIn P id env) (0, Buffer.new kInitialSize) chunks
      (feed (rpcClientOnRead P id env) (0, Buffer.new kInitialSize) chunks).2 :=
    ends_feed (clientStepIn_shrinks P id env) (fun _ _ => rfl) chunks _
      (clientStepIn_waits P id env 0 hwaits)
  constructor
  · exact headsOk_of_ends hends
  · intro h
    exact ends_of_headsOk h (Buffer.content_new _) hends

end Client

/-! ## The four readers -/

/-- Of the negative lengths, those from -4 on pass a guard computed in
    `size_t`. -/
theorem negative_passes_iff {len : Int32} {n : Nat} (hneg : len.toInt < 0) (h4 : 4 ≤ n)
    (hmem : n < 2 ^ 63) : toSizeT (len.toInt + 4) ≤ n ↔ -4 ≤ len.toInt := by
  have hlow := len.le_toInt
  rw [toSizeT]
  constructor
  · intro h
    omega
  · intro h
    omega

/-- **SURVIVAL, EXACTLY**: the first three readers survive a stream if and
    only if, from message to message, no guard overflows and none lets a
    negative length pass; the client survives if and only if each of its
    iterations finds what it relies on, which for fewer than `2 ^ 63` bytes is
    that neither the number of bytes behind the length nor, with a response
    object, the length is negative. -/
theorem readers_survive_iff {M : Type} (P : Protobuf M) (id : M → Int32) (env : Nat → ResCalls)
    (chunks : List Bytes) :
    ((∀ misuse, (feed sessionOnRead (Buffer.new kInitialSize) chunks).2 ≠ .error misuse) ↔
      HeadsOk chatGuard chunks.flatten) ∧
    ((∀ misuse, (feed clientOnRead (Buffer.new kInitialSize) chunks).2 ≠ .error misuse) ↔
      HeadsOk chatGuard chunks.flatten) ∧
    ((∀ misuse, (feed (rpcSessionOnRead P) (Buffer.new kInitialSize) chunks).2 ≠ .error misuse) ↔
      HeadsOk rpcSessionGuard chunks.flatten) ∧
    ((∀ misuse, (feed (rpcClientOnRead P id env) (0, Buffer.new kInitialSize) chunks).2
        ≠ .error (.misuse misuse)) ↔
      ClientHeadsOk P id (ClientReads P id) env 0 [] chunks) ∧
    (chunks.flatten.length < 2 ^ 63 →
      ((∀ misuse, (feed (rpcClientOnRead P id env) (0, Buffer.new kInitialSize) chunks).2
          ≠ .error (.misuse misuse)) ↔
        ClientHeadsOk P id (ClientSigns P id) env 0 [] chunks)) := by
  refine ⟨sessionOnRead_reads.misuse_iff chunks, clientOnRead_reads.misuse_iff chunks, ?_,
    client_misuse_iff chunks,
    fun hmem => (client_misuse_iff chunks).trans (clientHeadsOk_iff_signs P id hmem)⟩
  rw [feed_rpcSessionOnRead]
  exact rpcSessionLoop_reads.misuse_iff chunks

/-! `test.proto`: a `TestReq` and a `TestRes` have the same two fields, and
    the message is a `std::string`, of any bytes.  The results take any
    `Protobuf` for them; `testProto` is one to run the programs with. -/

structure TestMessage where
  id : Int32
  message : Bytes
  deriving DecidableEq

def TestMessage.fields (m : TestMessage) : List WireFormat.Field :=
  enumField 1 m.id ++ bytesField 2 m.message

/-- Store one field.  A message that is not UTF-8 is stored, and then found to
    be an error. -/
def TestMessage.merge (m : TestMessage) (f : WireFormat.Field) : TestMessage × Bool :=
  match f.number, f.value with
  | 1, .varint n => ({ m with id := uint64ToInt32 (UInt64.ofNat n) }, true)
  | 2, .bytes bs => ({ m with message := bs }, (ofUtf8Bytes bs).isSome)
  | _, _ => (m, true)

/-- Store fields up to the first error. -/
def TestMessage.mergeAll (m : TestMessage) : List WireFormat.Field → TestMessage × Bool
  | [] => (m, true)
  | f :: fs =>
      let merged := m.merge f
      if merged.2 then merged.1.mergeAll fs else merged

def testProto : Protobuf TestMessage where
  serialize m := WireFormat.writeFields m.fields
  parseFromArray bs :=
    let scanned := WireFormat.readFields bs
    let merged := (⟨0, []⟩ : TestMessage).mergeAll scanned.1
    (merged.1, scanned.2 && merged.2)

set_option maxRecDepth 20000 in
/-- The length -1, with and without a byte behind it, and a length of
    `2 ^ 31 - 1`; the client has a call with the id 0 pending. -/
theorem lengths_not_survived :
    (feed sessionOnRead (Buffer.new kInitialSize) [[255, 255, 255, 255, 0]]).2
        = .error (.string 18446744073709551615 1) ∧
      (feed clientOnRead (Buffer.new kInitialSize) [[255, 255, 255, 255, 0]]).2
        = .error (.assertion 18446744073709551615 1) ∧
      (feed (rpcSessionOnRead testProto) (Buffer.new kInitialSize) [[255, 255, 255, 255]]).2
        = .error (.assertion 18446744073709551615 0) ∧
      (feed (rpcSessionOnRead testProto) (Buffer.new kInitialSize) [[127, 255, 255, 255]]).2
        = .error (.overflow 2147483651) ∧
      ∃ env : Nat → ResCalls,
        (feed (rpcClientOnRead testProto TestMessage.id env) (0, Buffer.new kInitialSize)
          [[255, 255, 255, 255]]).2 = .error (.misuse (.assertion 18446744073709551615 0)) := by
  refine ⟨rfl, rfl, rfl, rfl, fun _ i => if i = 0 then some ⟨some 0, some 0⟩ else none, ?_⟩
  rfl

end AsioRpcReader
