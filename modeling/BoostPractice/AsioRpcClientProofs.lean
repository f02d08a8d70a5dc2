import BoostPractice.MutexProofs
import BoostPractice.SharedBufferSendProofs

/-! # The client of the first RPC program and its threads

    Any thread may call `send_request`, and closures may; the handlers of
    reads and writes run on the threads of the `io_context`.  They share
    `id_`, which is read and advanced in two steps, and under `mutex_` the
    calls and the output buffer.  The lock that `on_read` takes is held while
    the closure of the response runs.

    A step is one access to `id_`, one acquisition of `mutex_`, or what is
    done until it is released.  `view_step` says that the client is one of the
    users of a mutex of `Mutex`.  `never_relocks` says in which runs no thread
    acquires what it holds, and `unique_ids` in which the requests have
    different ids. -/

namespace AsioRpcClient

open MachineInt BoostBuffer RpcMessages PrefixReader AsioRpcReader GuardedRun
open SharedBufferSend (callMethod)
open Mutex (Place Locks Disciplined)

variable (P : Protobuf TestMessage)

/-! ## An iteration of `on_read` in two parts -/

/-- Up to the lock: a response, with its length, what is parsed for its id and
    the buffer; nothing if none is complete. -/
def takeResponse (b : Buffer) : Except ClientFault (Option (Int32 × TestMessage × Buffer)) :=
  if 4 ≤ b.readableBytes then do
    let len ← misused (peekInt32 b)
    if toSizeT (4 + len.toInt) ≤ b.readableBytes then do
      let b ← misused (retrieve b 4)
      let resTemp ← misused (parseReadable P b)
      return some (len, resTemp, b)
    else
      return none
  else
    return none

/-- Behind the lock, up to the closure. -/
def answerCall (b : Buffer) (len : Int32) (resTemp : TestMessage) (resCalls : ResCalls) :
    Except ClientFault (Solved TestMessage × Buffer × ResCalls) := do
  let (callback, resCalls) := takeCall resCalls resTemp.id
  match callback.response with
  | none => .error .nullResponse
  | some response => do
      let value ← misused (parseReadable P b)
      let b ← misused (retrieve b (toSizeT len.toInt))
      match callback.done with
      | none => .error .nullDone
      | some done => return (⟨response, value, done⟩, b, resCalls)

/-- The two parts are an iteration of the reader. -/
theorem clientStep_eq (b : Buffer) (resCalls : ResCalls) :
    clientStep P TestMessage.id b resCalls = (do
      match ← takeResponse P b with
      | none => return none
      | some (len, resTemp, b) => do
          let answer ← answerCall P b len resTemp resCalls
          return some answer) := by
  rw [clientStep, takeResponse]
  by_cases h4 : 4 ≤ b.readableBytes
  · rw [if_pos h4, if_pos h4, peekInt32_ok h4, misused_ok_bind, misused_ok_bind]
    by_cases hguard : toSizeT (4 + (RpcCodecRead.lengthField b.content).toInt) ≤ b.readableBytes
    · obtain ⟨b₁, hb₁, -⟩ := retrieve_ok h4
      rw [if_pos hguard, if_pos hguard, hb₁, misused_ok_bind, misused_ok_bind, clientBody]
      rcases hparse : parseReadable P b₁ with misuse | resTemp
      · rfl
      · show _ = answerCall P b₁ _ resTemp resCalls >>= fun answer => pure (some answer)
        rw [answerCall, misused_ok_bind, hparse]
        rcases takeCall resCalls resTemp.id with ⟨⟨_ | response, done⟩, resCalls'⟩
        · rfl
        · simp only [misused_ok_bind]
          rcases retrieve b₁ (toSizeT (RpcCodecRead.lengthField b.content).toInt) with misuse | b₂
          · rfl
          · cases done with
            | none => rfl
            | some done => rfl
    · rw [if_neg hguard, if_neg hguard]
      rfl
  · rw [if_neg h4, if_neg h4]
    rfl

/-! ## Threads -/

/-- Where a thread is in a function, before the statement that is named. -/
inductive Point where
  /-- `send_request`: `id_` is read, and still to be advanced. -/
  | fetchAdd (req : TestMessage)
  /-- `CallMethod`: the lock. -/
  | lockCall (req : TestMessage) (call : ResponseCall)
  | inCall (req : TestMessage) (call : ResponseCall)
  /-- The request is sent. -/
  | sent (req : TestMessage)
  /-- `on_read`: the condition of the loop. -/
  | testRead
  | lockRead (len : Int32) (resTemp : TestMessage)
  | inRead (len : Int32) (resTemp : TestMessage)
  /-- The closure is running. -/
  | inClosure (done : Nat)
  /-- `on_send`: the lock. -/
  | lockSend (bytes : Nat)
  | inSend (bytes : Nat)
  /-- A handler has returned. -/
  | returned

def Point.place : Point → Place
  | .fetchAdd _ => .outside
  | .lockCall _ _ => .trying
  | .inCall _ _ => .holding
  | .sent _ => .finished
  | .testRead => .outside
  | .lockRead _ _ => .trying
  | .inRead _ _ => .holding
  | .inClosure _ => .holding
  | .lockSend _ => .trying
  | .inSend _ => .holding
  | .returned => .finished

/-- A closure may do anything, and make calls too. -/
def Point.isClosure : Point → Bool
  | .inClosure _ => true
  | _ => false

structure Activity where
  thread : Nat
  point : Point

/-- The members of `rpc_client`, what asio has outstanding, all functions that
    threads have entered, and whether an assertion or a pointer has failed or
    an entry of `resCalls_` was overwritten. -/
structure Client where
  id : Int32
  mutex : Option Nat
  resCalls : ResCalls
  inputBuffer : Buffer
  outputBuffer : Buffer
  reading : Bool
  sends : Nat
  activities : List Activity
  failed : Bool
  overwritten : Bool

/-- A client that was just connected. -/
def Client.connected : Client where
  id := 0
  mutex := none
  resCalls := fun _ => none
  inputBuffer := Buffer.new kInitialSize
  outputBuffer := Buffer.new kInitialSize
  reading := true
  sends := 0
  activities := []
  failed := false
  overwritten := false

/-- All that a thread has entered is finished. -/
def Client.Idle (s : Client) (t : Nat) : Prop :=
  ∀ a ∈ s.activities, a.thread = t → a.point.place = .finished

/-- A thread that is idle, or in a closure. -/
def Client.MayCall (s : Client) (t : Nat) : Prop :=
  ∀ a ∈ s.activities, a.thread = t → a.point.place = .finished ∨ a.point.isClosure = true

instance (s : Client) (t : Nat) : Decidable (s.Idle t) := List.decidableBAll _ _

instance (s : Client) (t : Nat) : Decidable (s.MayCall t) := List.decidableBAll _ _

inductive Action where
  /-- A thread calls `send_request`, which reads `id_`. -/
  | sendRequest (t : Nat) (message : Bytes)
  /-- A thread calls `CallMethod` itself. -/
  | callMethod (t : Nat) (req : TestMessage) (call : ResponseCall)
  /-- A thread of the `io_context` runs a handler. -/
  | onRead (t : Nat) (ec : Bool) (bytes : Bytes)
  | onSend (t : Nat) (ec : Bool) (bytes : Nat)
  /-- The `k`-th activity goes on. -/
  | go (k : Nat)

/-- A thread enters a function. -/
def Client.enter (s : Client) (t : Nat) (p : Point) : Client :=
  { s with activities := s.activities ++ [⟨t, p⟩] }

/-- It comes to another point of it. -/
def Client.reach (s : Client) (k t : Nat) (p : Point) : Client :=
  { s with activities := s.activities.set k ⟨t, p⟩ }

/-- `std::lock_guard<std::mutex> lck(mutex_)`. -/
def Client.lock (s : Client) (k t : Nat) (p : Point) : Option Client :=
  if s.mutex = none then some { s.reach k t p with mutex := some t } else none

def Client.fail (s : Client) : Client := { s with failed := true }

/-- What the `k`-th activity does next; nothing if it waits or is over. -/
def Client.go (s : Client) (k t : Nat) : Point → Option Client
  | .fetchAdd req =>
      some { s.reach k t (.lockCall req ⟨some k, some k⟩) with id := s.id + 1 }
  | .lockCall req call => s.lock k t (.inCall req call)
  | .inCall req call =>
      match callMethod P s.outputBuffer req with
      | none => some s.fail
      | some b =>
          some { s.reach k t (.sent req) with
            outputBuffer := b
            resCalls := Function.update s.resCalls req.id (some call)
            overwritten := s.overwritten || (s.resCalls req.id).isSome
            sends := s.sends + 1
            mutex := none }
  | .sent _ => none
  | .testRead =>
      match takeResponse P s.inputBuffer with
      | .error _ => some s.fail
      | .ok none => some { s.reach k t .returned with reading := true }
      | .ok (some (len, resTemp, b)) =>
          some { s.reach k t (.lockRead len resTemp) with inputBuffer := b }
  | .lockRead len resTemp => s.lock k t (.inRead len resTemp)
  | .inRead len resTemp =>
      match answerCall P s.inputBuffer len resTemp s.resCalls with
      | .error _ => some s.fail
      | .ok (solved, b, resCalls) =>
          some { s.reach k t (.inClosure solved.done) with inputBuffer := b, resCalls := resCalls }
  | .inClosure _ =>
      if s.MayCall t then some { s.reach k t .testRead with mutex := none } else none
  | .lockSend bytes => s.lock k t (.inSend bytes)
  | .inSend bytes =>
      match s.outputBuffer.retrieve bytes with
      | none => some s.fail
      | some b =>
          some { s.reach k t .returned with
            outputBuffer := b
            sends := if b.readableBytes > 0 then s.sends + 1 else s.sends
            mutex := none }
  | .returned => none

def step (s : Client) (a : Action) : Option Client :=
  if s.failed then none
  else
    match a with
    | .sendRequest t message =>
        if s.MayCall t then some (s.enter t (.fetchAdd ⟨s.id, message⟩)) else none
    | .callMethod t req call =>
        if s.MayCall t then some (s.enter t (.lockCall req call)) else none
    | .onRead t ec bytes =>
        if s.reading ∧ s.Idle t then
          if ec then some { s.enter t .returned with reading := false }
          else
            some { s.enter t .testRead with
              reading := false
              inputBuffer := (s.inputBuffer.ensureWritableBytes bytes.length).append bytes }
        else none
    | .onSend t ec bytes =>
        if 0 < s.sends ∧ s.Idle t then
          some { s.enter t (if ec then .returned else .lockSend bytes) with sends := s.sends - 1 }
        else none
    | .go k =>
        match s.activities[k]? with
        | some a => s.go P k a.thread a.point
        | none => none

/-! ## The client as a user of its mutex -/

/-- What the threads do about `mutex_`. -/
def Client.view (s : Client) : Locks Nat :=
  ⟨s.mutex, s.activities.map fun a => ⟨a.thread, a.point.place⟩⟩

/-- A call is made by a thread that is in no closure. -/
def ClosuresCallNothing (s : Client) : Action → Prop
  | .sendRequest t _ => s.Idle t
  | .callMethod t _ _ => s.Idle t
  | _ => True

instance (s : Client) (a : Action) : Decidable (ClosuresCallNothing s a) :=
  match a with
  | .sendRequest _ _ => inferInstanceAs (Decidable (Client.Idle _ _))
  | .callMethod _ _ _ => inferInstanceAs (Decidable (Client.Idle _ _))
  | .onRead _ _ _ => isTrue trivial
  | .onSend _ _ _ => isTrue trivial
  | .go _ => isTrue trivial

section View

variable {P} {s s' : Client}

theorem view_of_enter {t : Nat} {p : Point} (h : s'.activities = s.activities ++ [⟨t, p⟩]) :
    s'.view = ⟨s'.mutex, s.view.activities ++ [⟨t, p.place⟩]⟩ := by
  rw [Client.view, h, List.map_append]
  rfl

theorem view_of_reach {k t : Nat} {p : Point} (h : s'.activities = s.activities.set k ⟨t, p⟩) :
    s'.view = ⟨s'.mutex, s.view.activities.set k ⟨t, p.place⟩⟩ := by
  rw [Client.view, h, List.map_set]
  rfl

/-- A thread that is idle may enter anything that does not hold the mutex. -/
theorem view_begin {t : Nat} (hidle : s.Idle t) {p : Point} (hp : p.place ≠ .holding)
    (hmutex : s'.mutex = s.mutex) (h : s'.activities = s.activities ++ [⟨t, p⟩]) :
    Mutex.Step s.view s'.view := by
  rw [view_of_enter h, hmutex]
  refine .begin ?_ hp
  intro a ha hthread
  obtain ⟨b, hb, rfl⟩ := List.mem_map.mp ha
  exact hidle b hb hthread

theorem view_lock {k : Nat} {a : Activity} (hk : s.view.activities[k]? = some ⟨a.thread, .trying⟩)
    {p : Point} (hp : p.place = .holding) (h : s.lock k a.thread p = some s') :
    Mutex.Step s.view s'.view := by
  rw [Client.lock] at h
  split at h
  · next hfree =>
      have hactivities : s'.activities = s.activities.set k ⟨a.thread, p⟩ := by
        rw [← Option.some.inj h]
        rfl
      have hmutex : s'.mutex = some a.thread := by rw [← Option.some.inj h]
      rw [view_of_reach hactivities, hmutex, hp]
      exact .acquire hk rfl hfree
  · cases h

/-- An activity that goes on is a step of its thread, or none as far as the
    mutex is concerned. -/
theorem view_go {k : Nat} {a : Activity} (hk : s.activities[k]? = some a)
    (h : s.go P k a.thread a.point = some s') : s'.view = s.view ∨ Mutex.Step s.view s'.view := by
  have hview : s.view.activities[k]? = some ⟨a.thread, a.point.place⟩ := by
    rw [Client.view, List.getElem?_map, hk]
    rfl
  obtain ⟨t, p⟩ := a
  cases p with
  | fetchAdd req =>
      obtain rfl := Option.some.inj h
      rw [view_of_reach (s := s) rfl]
      exact .inr (.move hview rfl nofun)
  | lockCall req call => exact .inr (view_lock hview rfl h)
  | inCall req call =>
      rw [Client.go] at h
      split at h
      · obtain rfl := Option.some.inj h
        exact .inl rfl
      · obtain rfl := Option.some.inj h
        rw [view_of_reach (s := s) rfl]
        exact .inr (.release hview rfl nofun)
  | sent req => cases h
  | testRead =>
      rw [Client.go] at h
      split at h
      · obtain rfl := Option.some.inj h
        exact .inl rfl
      · obtain rfl := Option.some.inj h
        rw [view_of_reach (s := s) rfl]
        exact .inr (.move hview rfl nofun)
      · obtain rfl := Option.some.inj h
        rw [view_of_reach (s := s) rfl]
        exact .inr (.move hview rfl nofun)
  | lockRead len resTemp => exact .inr (view_lock hview rfl h)
  | inRead len resTemp =>
      rw [Client.go] at h
      split at h
      · obtain rfl := Option.some.inj h
        exact .inl rfl
      · -- the lock is still held
        obtain rfl := Option.some.inj h
        exact .inl (congrArg (Locks.mk s.mutex) (map_set_eq hk rfl))
  | inClosure done =>
      rw [Client.go] at h
      split at h
      · obtain rfl := Option.some.inj h
        rw [view_of_reach (s := s) rfl]
        exact .inr (.release hview rfl nofun)
      · cases h
  | lockSend bytes => exact .inr (view_lock hview rfl h)
  | inSend bytes =>
      rw [Client.go] at h
      split at h
      · obtain rfl := Option.some.inj h
        exact .inl rfl
      · obtain rfl := Option.some.inj h
        rw [view_of_reach (s := s) rfl]
        exact .inr (.release hview rfl nofun)
  | returned => cases h

/-- **EVERY STEP** is one of threads that use a mutex, if closures call
    nothing. -/
theorem view_step {a : Action} (h : step P s a = some s') (hrule : ClosuresCallNothing s a) :
    s'.view = s.view ∨ Mutex.Step s.view s'.view := by
  rw [step.eq_def] at h
  split at h
  · cases h
  · cases a with
    | sendRequest t message =>
        obtain ⟨-, heq⟩ := Option.ite_none_right_eq_some.mp h
        obtain rfl := Option.some.inj heq
        exact .inr (view_begin (p := .fetchAdd ⟨s.id, message⟩) hrule nofun rfl rfl)
    | callMethod t req call =>
        obtain ⟨-, heq⟩ := Option.ite_none_right_eq_some.mp h
        obtain rfl := Option.some.inj heq
        exact .inr (view_begin (p := .lockCall req call) hrule nofun rfl rfl)
    | onRead t ec bytes =>
        obtain ⟨⟨-, hidle⟩, heq⟩ := Option.ite_none_right_eq_some.mp h
        cases ec with
        | true =>
            obtain rfl := Option.some.inj heq
            exact .inr (view_begin (p := .returned) hidle nofun rfl rfl)
        | false =>
            obtain rfl := Option.some.inj heq
            exact .inr (view_begin (p := .testRead) hidle nofun rfl rfl)
    | onSend t ec bytes =>
        obtain ⟨⟨-, hidle⟩, heq⟩ := Option.ite_none_right_eq_some.mp h
        obtain rfl := Option.some.inj heq
        cases ec with
        | true => exact .inr (view_begin (p := .returned) hidle nofun rfl rfl)
        | false => exact .inr (view_begin (p := .lockSend bytes) hidle nofun rfl rfl)
    | go k =>
        dsimp only at h
        split at h
        · next a hk => exact view_go hk h
        · cases h

theorem disciplined_of_reaches (h : Reaches (step P) ClosuresCallNothing Client.connected s) :
    Disciplined s.view := by
  refine h.invariant (I := fun s => Disciplined s.view) Mutex.disciplined_nil ?_
  intro s a s' hs hrule hstep
  rcases view_step hstep hrule with heq | hmutex
  · rw [heq]
    exact hs
  · exact hs.step hmutex

end View

/-! ## Which threads acquire what they hold -/

/-- **NEVER RELOCKS**: no thread is at a lock of the mutex that it holds. -/
def NeverRelocks (s : Client) : Prop :=
  ∀ a ∈ s.activities, a.point.place = .trying → s.mutex ≠ some a.thread

instance (s : Client) : Decidable (NeverRelocks s) := List.decidableBAll _ _

/-- A call from a closure of `on_read` is of the thread that holds the mutex,
    and comes to its lock. -/
theorem closure_call_relocks {P : Protobuf TestMessage} {s s' : Client}
    (h : Reaches (step P) ClosuresCallNothing Client.connected s) {c : Activity}
    (hc : c ∈ s.activities) (hclosure : c.point.isClosure = true) {req : TestMessage}
    {call : ResponseCall} (hstep : step P s (.callMethod c.thread req call) = some s') :
    ¬ NeverRelocks s' := by
  have hholding : c.point.place = .holding := by
    cases hpoint : c.point with
    | inClosure done => rfl
    | _ =>
        rw [hpoint] at hclosure
        cases hclosure
  have howner : s.mutex = some c.thread :=
    (disciplined_of_reaches h).holds ⟨c.thread, c.point.place⟩ (List.mem_map_of_mem hc) hholding
  rw [step.eq_def] at hstep
  split at hstep
  · cases hstep
  · obtain ⟨-, heq⟩ := Option.ite_none_right_eq_some.mp hstep
    obtain rfl := Option.some.inj heq
    intro hnever
    exact hnever ⟨c.thread, .lockCall req call⟩
      (List.mem_append_right _ (List.mem_singleton_self _)) rfl howner

/-- **NO THREAD RELOCKS** in a run in which the closures of responses make no
    calls. -/
theorem never_relocks (P : Protobuf TestMessage) {s : Client}
    (h : Reaches (step P) ClosuresCallNothing Client.connected s) : NeverRelocks s := by
  intro a ha htrying
  exact (disciplined_of_reaches h).no_relock (List.mem_map_of_mem ha) htrying

/-- One call, and the response to it; a thread sends while another reads. -/
def oneCall : List Action :=
  [.sendRequest 1 [], .go 0, .go 0, .go 0, .onRead 2 false [0, 0, 0, 0], .go 1, .go 1, .go 1]

/-- The closure of the response is running, and another thread is at a lock. -/
theorem never_relocks_in_closure : ∃ s,
    Reaches (step testProto) ClosuresCallNothing Client.connected s ∧
      (s.mutex = some 2 ∧ NeverRelocks s) := by
  have hrun : (guardedRun (step testProto) ClosuresCallNothing Client.connected
      (oneCall ++ [.sendRequest 1 [], .go 2])).map Client.mutex = some (some 2) := by
    decide +kernel
  obtain ⟨s, hs, hmutex⟩ := exists_of_guardedRun hrun
  exact ⟨s, hs, hmutex, never_relocks testProto hs⟩

/-- The closure of the response calls `CallMethod` again. -/
theorem closure_relocks : ¬ ∀ s,
    Reaches (step testProto) (fun _ _ => True) Client.connected s → NeverRelocks s := by
  intro hall
  have hrun : (guardedRun (step testProto) (fun _ _ => True) Client.connected
      (oneCall ++ [.callMethod 2 ⟨1, []⟩ ⟨some 1, some 1⟩])).map (fun s => decide (NeverRelocks s))
        = some false := by
    decide +kernel
  obtain ⟨s, hs, hrelocks⟩ := exists_of_guardedRun hrun
  exact of_decide_eq_false hrelocks (hall s hs)

/-! ## The ids of requests -/

/-- The id of the request that a call is about. -/
def Point.request : Point → Option Int32
  | .fetchAdd req => some req.id
  | .lockCall req _ => some req.id
  | .inCall req _ => some req.id
  | .sent req => some req.id
  | _ => none

/-- The id that was read, and is still to be advanced. -/
def Point.between : Point → Option Int32
  | .fetchAdd req => some req.id
  | _ => none

def Point.sentId : Point → Option Int32
  | .sent req => some req.id
  | _ => none

/-- The ids of all requests, in the order of the calls. -/
def Client.requests (s : Client) : List Int32 := s.activities.filterMap fun a => a.point.request

def Client.between (s : Client) : List Int32 := s.activities.filterMap fun a => a.point.between

/-- The ids of those that are sent. -/
def Client.sentIds (s : Client) : List Int32 := s.activities.filterMap fun a => a.point.sentId

/-- All calls are of `send_request`, and `id_` is read when no other of them is
    between reading and advancing it. -/
def ReadsAlone (s : Client) : Action → Prop
  | .sendRequest _ _ => s.between = []
  | .callMethod _ _ _ => False
  | _ => True

instance (s : Client) (a : Action) : Decidable (ReadsAlone s a) :=
  match a with
  | .sendRequest _ _ => inferInstanceAs (Decidable (_ = _))
  | .callMethod _ _ _ => isFalse fun h => h
  | .onRead _ _ _ => isTrue trivial
  | .onSend _ _ _ => isTrue trivial
  | .go _ => isTrue trivial

/-- **UNIQUE IDS**: the requests that are sent have different ids, and no
    entry of `resCalls_` was overwritten. -/
structure UniqueIds (s : Client) : Prop where
  distinct : s.sentIds.Nodup
  kept : s.overwritten = false

/-- While `id_` is read by one call at a time, it counts them. -/
structure Numbered (s : Client) : Prop where
  requests : s.requests = int32s s.requests.length
  next : s.between = [] ∧ s.id = Int32.ofNat s.requests.length ∨
    s.between = [s.id] ∧ s.id + 1 = Int32.ofNat s.requests.length
  pending : ∀ i, s.resCalls i ≠ none → ∃ a ∈ s.activities, a.point.sentId = some i
  kept : s.requests.length < 2 ^ 32 → s.overwritten = false

section Numbered

variable {P} {s s' : Client}

theorem request_of_sentId {p : Point} {i : Int32} (h : p.sentId = some i) : p.request = some i := by
  cases p with
  | sent req => exact h
  | _ => cases h

theorem takeCall_erases {resCalls : ResCalls} {i j : Int32}
    (h : (takeCall resCalls j).2 i ≠ none) : resCalls i ≠ none := by
  rw [takeCall] at h
  split at h
  · intro hi
    by_cases heq : i = j
    · rw [heq] at h
      exact h (Function.update_self _ _ _)
    · exact h ((Function.update_of_ne heq _ _).trans hi)
  · exact h

/-- Responses only take entries away. -/
theorem answerCall_erases {b b' : Buffer} {len : Int32} {resTemp : TestMessage}
    {resCalls resCalls' : ResCalls} {solved : Solved TestMessage}
    (h : answerCall P b len resTemp resCalls = .ok (solved, b', resCalls')) :
    resCalls' = (takeCall resCalls resTemp.id).2 := by
  rw [answerCall] at h
  rcases htake : takeCall resCalls resTemp.id with ⟨⟨_ | response, done⟩, resCalls''⟩
  · simp only [htake] at h
    exact nomatch h
  · simp only [htake] at h
    rcases hparse : parseReadable P b with misuse | value
    · rw [hparse, misused_error_bind] at h
      exact nomatch h
    · rw [hparse, misused_ok_bind] at h
      rcases hretrieve : retrieve b (toSizeT len.toInt) with misuse | b''
      · rw [hretrieve, misused_error_bind] at h
        exact nomatch h
      · rw [hretrieve, misused_ok_bind] at h
        cases done with
        | none => exact nomatch h
        | some done =>
            obtain ⟨-, htail⟩ := Prod.mk.inj (Except.ok.inj h)
            exact (Prod.mk.inj htail).2.symm

/-- What a lock does to the ids: nothing. -/
theorem lock_cases {k t : Nat} {p : Point} (h : s.lock k t p = some s') :
    s'.activities = s.activities.set k ⟨t, p⟩ ∧ s'.id = s.id ∧ s'.overwritten = s.overwritten ∧
      s'.resCalls = s.resCalls := by
  obtain ⟨-, heq⟩ := Option.ite_none_right_eq_some.mp h
  obtain rfl := Option.some.inj heq
  exact ⟨rfl, rfl, rfl, rfl⟩

/-- What a step of an activity does to the ids: it advances `id_`, it sends,
    or neither. -/
theorem go_cases {k t : Nat} {p : Point} (h : s.go P k t p = some s') :
    s' = s.fail ∨
    (∃ req call, p = .fetchAdd req ∧
      s' = { s.reach k t (.lockCall req call) with id := s.id + 1 }) ∨
    (∃ req call b, p = .inCall req call ∧
      s' = { s.reach k t (.sent req) with
        outputBuffer := b
        resCalls := Function.update s.resCalls req.id (some call)
        overwritten := s.overwritten || (s.resCalls req.id).isSome
        sends := s.sends + 1
        mutex := none }) ∨
    (∃ p', p'.request = p.request ∧ p'.between = none ∧ p.between = none ∧ p.sentId = none ∧
      s'.activities = s.activities.set k ⟨t, p'⟩ ∧ s'.id = s.id ∧ s'.overwritten = s.overwritten ∧
      ∀ i, s'.resCalls i ≠ none → s.resCalls i ≠ none) := by
  cases p with
  | fetchAdd req => exact .inr (.inl ⟨req, _, rfl, (Option.some.inj h).symm⟩)
  | lockCall req call =>
      obtain ⟨hactivities, hid, hkept, hcalls⟩ := lock_cases h
      exact .inr (.inr (.inr ⟨.inCall req call, rfl, rfl, rfl, rfl, hactivities, hid, hkept,
        fun i hi => hcalls ▸ hi⟩))
  | inCall req call =>
      rw [Client.go] at h
      split at h
      · exact .inl (Option.some.inj h).symm
      · exact .inr (.inr (.inl ⟨req, call, _, rfl, (Option.some.inj h).symm⟩))
  | sent req => cases h
  | testRead =>
      rw [Client.go] at h
      split at h
      · exact .inl (Option.some.inj h).symm
      · obtain rfl := Option.some.inj h
        exact .inr (.inr (.inr ⟨.returned, rfl, rfl, rfl, rfl, rfl, rfl, rfl, fun _ hi => hi⟩))
      · next len resTemp b _ =>
          obtain rfl := Option.some.inj h
          exact .inr (.inr (.inr ⟨.lockRead len resTemp, rfl, rfl, rfl, rfl, rfl, rfl, rfl,
            fun _ hi => hi⟩))
  | lockRead len resTemp =>
      obtain ⟨hactivities, hid, hkept, hcalls⟩ := lock_cases h
      exact .inr (.inr (.inr ⟨.inRead len resTemp, rfl, rfl, rfl, rfl, hactivities, hid, hkept,
        fun i hi => hcalls ▸ hi⟩))
  | inRead len resTemp =>
      rw [Client.go] at h
      split at h
      · exact .inl (Option.some.inj h).symm
      · next solved b resCalls hanswer =>
          obtain rfl := Option.some.inj h
          refine .inr (.inr (.inr ⟨.inClosure solved.done, rfl, rfl, rfl, rfl, rfl, rfl, rfl, ?_⟩))
          intro i hi
          exact takeCall_erases (answerCall_erases hanswer ▸ hi)
  | inClosure done =>
      obtain ⟨-, heq⟩ := Option.ite_none_right_eq_some.mp h
      obtain rfl := Option.some.inj heq
      exact .inr (.inr (.inr ⟨.testRead, rfl, rfl, rfl, rfl, rfl, rfl, rfl, fun _ hi => hi⟩))
  | lockSend bytes =>
      obtain ⟨hactivities, hid, hkept, hcalls⟩ := lock_cases h
      exact .inr (.inr (.inr ⟨.inSend bytes, rfl, rfl, rfl, rfl, hactivities, hid, hkept,
        fun i hi => hcalls ▸ hi⟩))
  | inSend bytes =>
      rw [Client.go] at h
      split at h
      · exact .inl (Option.some.inj h).symm
      · obtain rfl := Option.some.inj h
        exact .inr (.inr (.inr ⟨.returned, rfl, rfl, rfl, rfl, rfl, rfl, rfl, fun _ hi => hi⟩))
  | returned => cases h

/-- A step that leaves the activities' ids and `id_` as they are. -/
theorem Numbered.of_same (h : Numbered s) (hrequests : s'.requests = s.requests)
    (hbetween : s'.between = s.between) (hid : s'.id = s.id)
    (hcalls : ∀ i, s'.resCalls i ≠ none → s.resCalls i ≠ none)
    (hsent : ∀ a ∈ s.activities, ∀ i, a.point.sentId = some i →
      ∃ a' ∈ s'.activities, a'.point.sentId = some i)
    (hkept : s'.overwritten = s.overwritten) : Numbered s' where
  requests := by
    rw [hrequests]
    exact h.requests
  next := by
    rw [hbetween, hid, hrequests]
    exact h.next
  pending := by
    intro i hi
    obtain ⟨a, ha, hsentId⟩ := h.pending i (hcalls i hi)
    exact hsent a ha i hsentId
  kept := by
    rw [hrequests, hkept]
    exact h.kept

/-- A handler that is entered is no call. -/
theorem Numbered.enter (h : Numbered s) {t : Nat} {p : Point} (hrequest : p.request = none)
    (hbetween : p.between = none) (hactivities : s'.activities = s.activities ++ [⟨t, p⟩])
    (hid : s'.id = s.id) (hcalls : s'.resCalls = s.resCalls)
    (hkept : s'.overwritten = s.overwritten) : Numbered s' := by
  refine h.of_same ?_ ?_ hid (fun i hi => hcalls ▸ hi) ?_ hkept
  · rw [Client.requests, hactivities]
    exact filterMap_concat_none hrequest
  · rw [Client.between, hactivities]
    exact filterMap_concat_none hbetween
  · intro a ha i hi
    exact ⟨a, hactivities ▸ List.mem_append_left _ ha, hi⟩

/-- A call that reads `id_` alone gets the next number. -/
theorem Numbered.read (h : Numbered s) (halone : s.between = []) (t : Nat) (message : Bytes) :
    Numbered (s.enter t (.fetchAdd ⟨s.id, message⟩)) := by
  -- nobody is to advance `id_`, which is the number of calls
  have hid : s.id = Int32.ofNat s.requests.length := by
    rcases h.next with ⟨-, hid⟩ | ⟨hbetween, -⟩
    · exact hid
    · cases halone.symm.trans hbetween
  have hrequests : (s.enter t (.fetchAdd ⟨s.id, message⟩)).requests = s.requests ++ [s.id] := by
    rw [Client.requests, Client.enter, List.filterMap_append]
    rfl
  constructor
  · rw [hrequests, List.length_append, List.length_singleton, int32s_succ, ← h.requests, ← hid]
  · refine .inr ⟨?_, ?_⟩
    · rw [Client.between, Client.enter, List.filterMap_append, ← Client.between, halone]
      rfl
    · rw [hrequests, List.length_append, List.length_singleton, ← int32_ofNat_succ, ← hid]
      rfl
  · intro i hi
    obtain ⟨a, ha, hsent⟩ := h.pending i hi
    exact ⟨a, List.mem_append_left _ ha, hsent⟩
  · rw [hrequests, List.length_append]
    exact fun hlt => h.kept (Nat.lt_of_le_of_lt (Nat.le_add_right _ _) hlt)

/-- The call that has read `id_` advances it. -/
theorem Numbered.advance (h : Numbered s) {k t : Nat} {req : TestMessage} (call : ResponseCall)
    (hk : s.activities[k]? = some ⟨t, .fetchAdd req⟩) :
    Numbered { s.reach k t (.lockCall req call) with id := s.id + 1 } := by
  have hmem : req.id ∈ s.between :=
    List.mem_filterMap.mpr ⟨_, List.mem_of_getElem? hk, rfl⟩
  -- it is the only one that has
  obtain ⟨hbetween, hid⟩ := h.next.resolve_left fun hnone => List.not_mem_nil (hnone.1 ▸ hmem)
  obtain hreq : req.id = s.id := by
    rw [hbetween] at hmem
    exact List.mem_singleton.mp hmem
  have hrequests : (s.reach k t (.lockCall req call)).requests = s.requests :=
    filterMap_set_eq hk rfl
  constructor
  · show (s.reach k t _).requests = int32s (s.reach k t _).requests.length
    rw [hrequests]
    exact h.requests
  · refine .inl ⟨filterMap_set_nil hbetween hk (congrArg some hreq) rfl, ?_⟩
    show s.id + 1 = Int32.ofNat (s.reach k t _).requests.length
    rw [hrequests]
    exact hid
  · intro i hi
    obtain ⟨a, ha, hsent⟩ := h.pending i hi
    obtain ⟨j, hj⟩ := List.mem_iff_getElem?.mp ha
    rcases getElem?_set_cases hk hj ⟨t, .lockCall req call⟩ with ⟨-, rfl, -⟩ | ⟨-, hj'⟩
    · cases hsent
    · exact ⟨a, List.mem_of_getElem? hj', hsent⟩
  · show (s.reach k t _).requests.length < 2 ^ 32 → _
    rw [hrequests]
    exact h.kept

/-- Requests with different ids do not overwrite each other's entries. -/
theorem Numbered.send (h : Numbered s) {k t : Nat} {req : TestMessage} {call : ResponseCall}
    (b : Buffer) (hk : s.activities[k]? = some ⟨t, .inCall req call⟩) :
    Numbered { s.reach k t (.sent req) with
      outputBuffer := b
      resCalls := Function.update s.resCalls req.id (some call)
      overwritten := s.overwritten || (s.resCalls req.id).isSome
      sends := s.sends + 1
      mutex := none } := by
  have hrequests : (s.reach k t (.sent req)).requests = s.requests := filterMap_set_eq hk rfl
  have hbetween : (s.reach k t (.sent req)).between = s.between := filterMap_set_eq hk rfl
  constructor
  · show (s.reach k t _).requests = int32s (s.reach k t _).requests.length
    rw [hrequests]
    exact h.requests
  · show (s.reach k t _).between = [] ∧ s.id = Int32.ofNat (s.reach k t _).requests.length ∨
      (s.reach k t _).between = [s.id] ∧ s.id + 1 = Int32.ofNat (s.reach k t _).requests.length
    rw [hrequests, hbetween]
    exact h.next
  · intro i hi
    by_cases heq : i = req.id
    · exact ⟨_, List.mem_set (List.getElem?_eq_some_iff.mp hk).1 _, congrArg some heq.symm⟩
    · obtain ⟨a, ha, hsent⟩ := h.pending i fun hnone =>
        hi ((Function.update_of_ne heq _ _).trans hnone)
      obtain ⟨j, hj⟩ := List.mem_iff_getElem?.mp ha
      rcases getElem?_set_cases hk hj ⟨t, .sent req⟩ with ⟨-, rfl, -⟩ | ⟨-, hj'⟩
      · cases hsent
      · exact ⟨a, List.mem_of_getElem? hj', hsent⟩
  · show (s.reach k t _).requests.length < 2 ^ 32 →
      (s.overwritten || (s.resCalls req.id).isSome) = false
    rw [hrequests]
    intro hlt
    rw [h.kept hlt, Bool.false_or, Option.isSome_eq_false_iff, Option.isNone_iff_eq_none]
    by_contra hne
    -- an entry is of a request that is sent, and this one is not
    obtain ⟨a, ha, hsent⟩ := h.pending req.id hne
    obtain ⟨j, hj⟩ := List.mem_iff_getElem?.mp ha
    have hnodup : s.requests.Nodup := h.requests ▸ nodup_int32s hlt
    obtain rfl := position_unique hnodup hj hk (request_of_sentId hsent) rfl
    obtain rfl := Option.some.inj (hj.symm.trans hk)
    cases hsent

theorem Numbered.go (h : Numbered s) {k : Nat} {a : Activity} (hk : s.activities[k]? = some a)
    (hgo : s.go P k a.thread a.point = some s') : Numbered s' := by
  obtain ⟨t, p⟩ := a
  rcases go_cases hgo with rfl | ⟨req, call, rfl, rfl⟩ | ⟨req, call, b, rfl, rfl⟩ |
    ⟨p', hrequest, hafter, hbefore, hsent, hactivities, hid, hkept, hcalls⟩
  · exact h.of_same rfl rfl rfl (fun _ hi => hi) (fun a ha i hi => ⟨a, ha, hi⟩) rfl
  · exact h.advance call hk
  · exact h.send b hk
  · refine h.of_same ?_ ?_ hid hcalls ?_ hkept
    · rw [Client.requests, hactivities]
      exact filterMap_set_eq hk hrequest
    · rw [Client.between, hactivities]
      exact filterMap_set_eq hk (hafter.trans hbefore.symm)
    · intro a ha i hi
      obtain ⟨j, hj⟩ := List.mem_iff_getElem?.mp ha
      rcases getElem?_set_cases hk hj ⟨t, p'⟩ with ⟨-, rfl, -⟩ | ⟨-, hj'⟩
      · cases hsent.symm.trans hi
      · exact ⟨a, hactivities ▸ List.mem_of_getElem? hj', hi⟩

/-- **EVERY STEP** in which `id_` is read alone keeps the count. -/
theorem Numbered.step (h : Numbered s) {a : Action} (hstep : step P s a = some s')
    (halone : ReadsAlone s a) : Numbered s' := by
  rw [step.eq_def] at hstep
  split at hstep
  · cases hstep
  · cases a with
    | sendRequest t message =>
        obtain ⟨-, heq⟩ := Option.ite_none_right_eq_some.mp hstep
        obtain rfl := Option.some.inj heq
        exact h.read halone t message
    | callMethod t req call => exact absurd halone id
    | onRead t ec bytes =>
        obtain ⟨-, heq⟩ := Option.ite_none_right_eq_some.mp hstep
        cases ec with
        | true =>
            obtain rfl := Option.some.inj heq
            exact h.enter (p := .returned) rfl rfl rfl rfl rfl rfl
        | false =>
            obtain rfl := Option.some.inj heq
            exact h.enter (p := .testRead) rfl rfl rfl rfl rfl rfl
    | onSend t ec bytes =>
        obtain ⟨-, heq⟩ := Option.ite_none_right_eq_some.mp hstep
        obtain rfl := Option.some.inj heq
        cases ec with
        | true => exact h.enter (p := .returned) rfl rfl rfl rfl rfl rfl
        | false => exact h.enter (p := .lockSend bytes) rfl rfl rfl rfl rfl rfl
    | go k =>
        dsimp only at hstep
        split at hstep
        · next a hk => exact h.go hk hstep
        · cases hstep

theorem numbered_connected : Numbered Client.connected where
  requests := rfl
  next := .inl ⟨rfl, rfl⟩
  pending := fun _ h => absurd rfl h
  kept := fun _ => rfl

theorem numbered_of_reaches (h : Reaches (AsioRpcClient.step P) ReadsAlone Client.connected s) :
    Numbered s :=
  h.invariant numbered_connected fun _ _ _ hs halone hstep => hs.step hstep halone

end Numbered

/-- A call that reads `id_` while another is between reading and advancing it
    gets the id of that one. -/
theorem overlapping_read_repeats {P : Protobuf TestMessage} {s s' : Client}
    (h : Reaches (step P) ReadsAlone Client.connected s) (hbetween : s.between ≠ []) {t : Nat}
    {message : Bytes} (hstep : step P s (.sendRequest t message) = some s') :
    ¬ s'.requests.Nodup := by
  obtain ⟨hid, -⟩ := (numbered_of_reaches h).next.resolve_left fun hnone => hbetween hnone.1
  have hmem : s.id ∈ s.requests := by
    have hpending : s.id ∈ s.between := hid ▸ List.mem_singleton_self s.id
    obtain ⟨a, ha, hread⟩ := List.mem_filterMap.mp hpending
    refine List.mem_filterMap.mpr ⟨a, ha, ?_⟩
    cases hpoint : a.point with
    | fetchAdd req =>
        rw [hpoint] at hread
        exact hread
    | _ =>
        rw [hpoint] at hread
        cases hread
  rw [step.eq_def] at hstep
  split at hstep
  · cases hstep
  · obtain ⟨-, heq⟩ := Option.ite_none_right_eq_some.mp hstep
    obtain rfl := Option.some.inj heq
    have hrequests : (s.enter t (.fetchAdd ⟨s.id, message⟩)).requests = s.requests ++ [s.id] := by
      rw [Client.requests, Client.enter, List.filterMap_append]
      rfl
    rw [hrequests, List.nodup_append]
    exact fun hnodup => hnodup.2.2 s.id hmem s.id (List.mem_singleton_self _) rfl

/-- **UNIQUE IDS** in a run in which each call reads `id_` alone, up to
    `2 ^ 32` calls. -/
theorem unique_ids (P : Protobuf TestMessage) {s : Client}
    (h : Reaches (step P) ReadsAlone Client.connected s) (hfew : s.requests.length < 2 ^ 32) :
    UniqueIds s := by
  have hnumbered := numbered_of_reaches h
  have hnodup : s.requests.Nodup := hnumbered.requests ▸ nodup_int32s hfew
  constructor
  · rw [Client.sentIds, List.Nodup, List.pairwise_filterMap]
    refine (List.pairwise_filterMap.mp hnodup).imp ?_
    intro a b hab i hi j hj
    exact hab i (request_of_sentId hi) j (request_of_sentId hj)
  · exact hnumbered.kept hfew

/-- Two threads, one call after the other; the second reads `id_` while the
    first is at its lock. -/
theorem unique_ids_in_turn : ∃ s, Reaches (step testProto) ReadsAlone Client.connected s ∧
    s.sentIds = [0, 1] ∧ UniqueIds s := by
  have hrun : (guardedRun (step testProto) ReadsAlone Client.connected
      [.sendRequest 1 [], .go 0, .sendRequest 2 [], .go 0, .go 0, .go 1, .go 1, .go 1]).map
        (fun s => (s.sentIds, s.requests.length)) = some ([0, 1], 2) := by
    decide +kernel
  obtain ⟨s, hs, hend⟩ := exists_of_guardedRun hrun
  obtain ⟨hsent, hlength⟩ := Prod.mk.inj hend
  exact ⟨s, hs, hsent, unique_ids testProto hs (by omega)⟩

/-- Calls of `send_request`, and nothing else, by any threads in any order. -/
def OnlySends (_ : Client) : Action → Prop
  | .callMethod _ _ _ => False
  | _ => True

instance (s : Client) (a : Action) : Decidable (OnlySends s a) :=
  match a with
  | .sendRequest _ _ => isTrue trivial
  | .callMethod _ _ _ => isFalse fun h => h
  | .onRead _ _ _ => isTrue trivial
  | .onSend _ _ _ => isTrue trivial
  | .go _ => isTrue trivial

/-- Two threads read `id_` before either advances it. -/
theorem overlapping_reads_collide : ¬ ∀ s,
    Reaches (step testProto) OnlySends Client.connected s → s.requests.length < 2 ^ 32 →
      UniqueIds s := by
  intro hall
  have hrun : (guardedRun (step testProto) OnlySends Client.connected
      [.sendRequest 1 [], .sendRequest 2 [], .go 0, .go 0, .go 0, .go 1, .go 1, .go 1]).map
        (fun s => (s.requests.length, s.overwritten)) = some (2, true) := by
    decide +kernel
  obtain ⟨s, hs, hend⟩ := exists_of_guardedRun hrun
  obtain ⟨hlength, hoverwritten⟩ := Prod.mk.inj hend
  cases hoverwritten.symm.trans (hall s hs (by omega)).kept

end AsioRpcClient
