import BoostPractice.GuardedRunProofs
import BoostPractice.HttpSessionProofs

/-! # `http_session` — requests and responses on one connection

    A session reads a request, answers it and reads the next one, until a
    response says that it is the last.  The body of the response that
    `handle_request` makes is sent with it, to whatever request: behind the
    head of a response to HEAD come octets that the client does not expect
    there.

    `responses_found_iff` says for which requests the client finds the
    responses where they were written. -/

namespace HttpConnection

open GuardedRun HttpMessage HttpSession

/-! ## A response as octets -/

def Status.line : Status → String
  | .ok => "200 OK"
  | .badRequest => "400 Bad Request"
  | .notFound => "404 Not Found"

/-- `HTTP/1.1`, and the status. -/
def statusLine (version : Fin 100) (status : Status) : Bytes :=
  text "HTTP/" ++ UInt8.ofNat (48 + version / 10) :: 46 :: UInt8.ofNat (48 + version % 10) :: 32 ::
    text (Status.line status)

theorem cr_notMem_statusLine (version : Fin 100) (status : Status) :
    13 ∉ statusLine version status := by
  have hdigit : ∀ d : Nat, d < 10 → (13 : UInt8) ≠ UInt8.ofNat (48 + d) := by decide
  have hstatus : 13 ∉ text (Status.line status) := by
    cases status with
    | ok => decide
    | badRequest => decide
    | notFound => decide
  have hlt := version.isLt
  simp only [statusLine, List.mem_append, List.mem_cons, not_or]
  exact ⟨by decide, hdigit _ (by omega), by decide, hdigit _ (by omega), by decide, hstatus⟩

/-- A field that a response has. -/
def headerField (name : String) (value : Line) (h : 13 ∉ text name ∧ 58 ∉ text name) : Field :=
  ⟨⟨text name, h.1⟩, value, h.2⟩

/-- `keep_alive(v)`: what has to be said of the connection in a version. -/
def connectionField (version : Fin 100) (keepAlive : Bool) : List Field :=
  if (version : Nat) < 11 then
    if keepAlive then [headerField "Connection" ⟨text "keep-alive", by decide⟩ (by decide)] else []
  else
    if keepAlive then [] else [headerField "Connection" ⟨text "close", by decide⟩ (by decide)]

/-- The head of a response as it is written. -/
def head (r : Response) : Head where
  statusLine := ⟨statusLine r.version r.status, cr_notMem_statusLine r.version r.status⟩
  fields := headerField "Server" r.server (by decide) ::
    headerField "Content-Type" r.contentType (by decide) ::
    (connectionField r.version r.keepAlive ++
      [headerField "Content-Length" ⟨decimal r.contentLength, cr_notMem_decimal _⟩ (by decide)])

/-- What `async_write` writes. -/
def responseBytes (r : Response) : Bytes := (head r).bytes ++ r.body

/-- `need_eof()` of a response that has its length: it is the last one. -/
def needEof (r : Response) : Bool := !r.keepAlive

theorem status_head (r : Response) :
    ∃ status, (head r).status = some status ∧ ¬ Bodyless status := by
  have hread : (head r).status =
      readDecimal (((statusLine r.version r.status).drop 9).take 3) := rfl
  rw [hread]
  cases r.status with
  | ok => exact ⟨200, rfl, by decide⟩
  | badRequest => exact ⟨400, rfl, by decide⟩
  | notFound => exact ⟨404, rfl, by decide⟩

theorem field_head (r : Response) : (head r).field (text "Transfer-Encoding") = none ∧
    (head r).field (text "Content-Length") = some (decimal r.contentLength) := by
  rw [Head.field, Head.field, head]
  dsimp only
  rw [connectionField]
  split
  · split
    · exact ⟨rfl, rfl⟩
    · exact ⟨rfl, rfl⟩
  · split
    · exact ⟨rfl, rfl⟩
    · exact ⟨rfl, rfl⟩

/-- How long a client takes the body to be. -/
theorem bodyLength_head (r : Response) (toHead : Bool) :
    (head r).bodyLength toHead = .octets (if toHead then 0 else r.contentLength) := by
  obtain ⟨status, hstatus, hbody⟩ := status_head r
  obtain ⟨hcoding, hlength⟩ := field_head r
  rw [Head.bodyLength, hstatus]
  cases toHead with
  | true => exact if_pos (.inl rfl)
  | false =>
      have hnot : ¬ (false = true ∨ Bodyless status) := fun h => h.elim Bool.noConfusion hbody
      simp only [if_neg hnot, hcoding, hlength, readDecimal_decimal]
      rfl

/-! ## One request after the other -/

/-- A request, and the files as they were when it was handled. -/
structure Exchange where
  files : FileSystem
  req : Request

inductive Phase where
  | reading
  | writing (e : Exchange)
  | shut
  | dropped

/-- A session with the requests that it has answered and all it has written. -/
structure Session where
  phase : Phase
  answered : List Exchange
  written : Bytes

def run : Session := ⟨.reading, [], []⟩

/-- What a read and a write come to; a write that fails may have written some
    of the response. -/
inductive Action where
  | onRead (e : Exchange)
  | endOfStream
  | readError
  | onWrite
  | writeError (n : Nat)

section Server

variable (server : Line) (docRoot : Bytes)

/-- The response to a request. -/
def Exchange.response (e : Exchange) : Response :=
  (handleRequest server docRoot e.files e.req).response

def sessionStep (s : Session) (a : Action) : Option Session :=
  match s.phase, a with
  | .reading, .onRead e => some { s with phase := .writing e }
  | .reading, .endOfStream => some { s with phase := .shut }
  | .reading, .readError => some { s with phase := .dropped }
  | .writing e, .onWrite =>
      let sp := e.response server docRoot
      some ⟨if needEof sp then .shut else .reading, s.answered ++ [e],
        s.written ++ responseBytes sp⟩
  | .writing e, .writeError n =>
      some { s with
        phase := .dropped
        written := s.written ++ (responseBytes (e.response server docRoot)).take n }
  | _, _ => none

/-! ## What the client finds -/

def Exchange.toHead (e : Exchange) : Bool := e.req.method = .head

/-- The body that a client expects. -/
def Exchange.expected (e : Exchange) : Bytes :=
  if e.toHead then [] else (e.response server docRoot).body

/-- What is sent behind it. -/
def Exchange.stray (e : Exchange) : Bytes :=
  if e.toHead then (e.response server docRoot).body else []

theorem contentLength_response (e : Exchange) :
    (e.response server docRoot).contentLength = (e.response server docRoot).body.length := by
  rw [Exchange.response]
  rcases handleRequest_cases server docRoot e.files e.req with
    ⟨-, why, hhandled⟩ | ⟨-, -, hhandled⟩ | ⟨-, -, response, hhandled, -, hbody, hlength⟩
  · rw [hhandled]
    rfl
  · rw [hhandled]
    rfl
  · rw [hhandled]
    exact hlength.trans (congrArg List.length hbody).symm

def Exchange.sent (e : Exchange) : Sent where
  toHead := e.toHead
  found := (head (e.response server docRoot), e.expected server docRoot)
  stray := e.stray server docRoot
  fits := by
    rw [bodyLength_head, contentLength_response, Exchange.expected]
    split
    · rfl
    · rfl

theorem bytes_sent (e : Exchange) :
    (e.sent server docRoot).bytes = responseBytes (e.response server docRoot) := by
  show (head _).bytes ++ e.expected server docRoot ++ e.stray server docRoot = _
  rw [responseBytes, Exchange.expected, Exchange.stray]
  split
  · rw [List.append_nil]
  · rw [List.append_nil]

/-- A HEAD request for an empty file, or another request. -/
def Answerable (e : Exchange) : Prop :=
  e.req.method = .head → Accepted e.req ∧
    (requestedFile docRoot e.files e.req).ec ≠ noSuchFileOrDirectory ∧
    (requestedFile docRoot e.files e.req).body.content = []

instance (e : Exchange) : Decidable (Answerable docRoot e) := inferInstanceAs (Decidable (_ → _))

/-- Only a file may be empty: an error has a text. -/
theorem body_response_eq_nil_iff (e : Exchange) : (e.response server docRoot).body = [] ↔
    Accepted e.req ∧ (requestedFile docRoot e.files e.req).ec ≠ noSuchFileOrDirectory ∧
    (requestedFile docRoot e.files e.req).body.content = [] := by
  have htext : ∀ (s : Bytes) (t : String), text t ≠ [] → s ++ text t ≠ [] := fun _ _ h =>
    List.append_ne_nil_of_right_ne_nil _ h
  rw [Exchange.response]
  rcases handleRequest_cases server docRoot e.files e.req with
    ⟨hnot, why, hhandled⟩ | ⟨-, hec, hhandled⟩ | ⟨haccepted, hec, response, hhandled, -, hbody, -⟩
  · rw [hhandled]
    exact iff_of_false (htext _ "'" (by decide)) fun h => hnot h.1
  · rw [hhandled]
    exact iff_of_false (htext _ " is not found" (by decide)) fun h => h.2.1 hec
  · rw [hhandled]
    dsimp only
    rw [hbody]
    exact ⟨fun h => ⟨haccepted, hec, h⟩, fun h => h.2.2⟩

theorem stray_eq_nil_iff (e : Exchange) : e.stray server docRoot = [] ↔ Answerable docRoot e := by
  rw [Exchange.stray, Exchange.toHead]
  by_cases hhead : e.req.method = .head
  · rw [if_pos (decide_eq_true hhead), body_response_eq_nil_iff]
    exact ⟨fun h _ => h, fun h => h hhead⟩
  · rw [if_neg fun h => hhead (of_decide_eq_true h)]
    exact iff_of_true rfl fun h => absurd h hhead

/-- The responses to the first requests are found as they were made, and what
    was written behind them is left. -/
def FoundFirst (s : Session) (n : Nat) : Prop :=
  readResponses ((s.answered.take n).map Exchange.toHead) s.written
    = some
        ((s.answered.take n).map fun e =>
          (head (e.response server docRoot), e.expected server docRoot),
        s.written.drop (((s.answered.take n).map fun e =>
          responseBytes (e.response server docRoot)).flatten).length)

/-- **WRITTEN**: what a session has written is its responses, and the part of
    one that a failed write left. -/
theorem written_of_reaches {s : Session}
    (h : Reaches (sessionStep server docRoot) (fun _ _ => True) run s) :
    ∃ torn, s.written
        = ((s.answered.map (Exchange.sent server docRoot)).map Sent.bytes).flatten ++ torn ∧
      (torn = [] ∨ s.phase = .dropped) := by
  refine h.invariant (I := fun s => ∃ torn, s.written
        = ((s.answered.map (Exchange.sent server docRoot)).map Sent.bytes).flatten ++ torn ∧
      (torn = [] ∨ s.phase = .dropped)) ⟨[], rfl, .inl rfl⟩ ?_
  rintro s a s' ⟨torn, hwritten, htorn⟩ - hstep
  rw [sessionStep.eq_def] at hstep
  split at hstep
  · next hphase =>
      obtain rfl := Option.some.inj hstep
      exact ⟨torn, hwritten, .inl (htorn.resolve_right fun h => nomatch hphase.symm.trans h)⟩
  · next hphase =>
      obtain rfl := Option.some.inj hstep
      exact ⟨torn, hwritten, .inl (htorn.resolve_right fun h => nomatch hphase.symm.trans h)⟩
  · obtain rfl := Option.some.inj hstep
    exact ⟨torn, hwritten, .inr rfl⟩
  · next e hphase =>
      -- a response was written, behind whole ones only
      obtain rfl := Option.some.inj hstep
      obtain rfl : torn = [] := htorn.resolve_right fun h => nomatch hphase.symm.trans h
      refine ⟨[], ?_, .inl rfl⟩
      simp only [hwritten, List.map_append, List.map_cons, List.map_nil, List.flatten_append,
        List.flatten_cons, List.flatten_nil, List.append_nil, bytes_sent]
  · next e n hphase =>
      obtain rfl := Option.some.inj hstep
      obtain rfl : torn = [] := htorn.resolve_right fun h => nomatch hphase.symm.trans h
      rw [List.append_nil] at hwritten
      exact ⟨_, congrArg (· ++ _) hwritten, .inr rfl⟩
  · cases hstep

/-- **FOUND, EXACTLY**: the client finds the responses to the first `n`
    requests if and only if it was sent no octets behind any of them. -/
theorem responses_found_iff {s : Session}
    (h : Reaches (sessionStep server docRoot) (fun _ _ => True) run s) (n : Nat) :
    FoundFirst server docRoot s n ↔ ∀ e ∈ s.answered.take n, Answerable docRoot e := by
  obtain ⟨torn, hwritten, -⟩ := written_of_reaches server docRoot h
  -- behind the first `n` responses stand the others and a torn one
  let sent : List Exchange → List Sent := List.map (Exchange.sent server docRoot)
  have hsplit : s.written = ((sent (s.answered.take n)).map Sent.bytes).flatten
      ++ (((sent (s.answered.drop n)).map Sent.bytes).flatten ++ torn) := by
    rw [← List.append_assoc, ← List.flatten_append, ← List.map_append, ← List.map_append,
      List.take_append_drop]
    exact hwritten
  have hbytes : (s.answered.take n).map (fun e => responseBytes (e.response server docRoot))
      = (sent (s.answered.take n)).map Sent.bytes := by
    rw [List.map_map]
    exact List.map_congr_left fun e _ => (bytes_sent server docRoot e).symm
  have hheads : (s.answered.take n).map Exchange.toHead
      = (sent (s.answered.take n)).map Sent.toHead := by
    rw [List.map_map]
    rfl
  have hresponses : (s.answered.take n).map
        (fun e => (head (e.response server docRoot), e.expected server docRoot))
      = (sent (s.answered.take n)).map Sent.found := by
    rw [List.map_map]
    rfl
  rw [FoundFirst, hbytes, hheads, hresponses, hsplit, List.drop_left, readResponses_found_iff,
    List.forall_mem_map]
  exact forall₂_congr fun e _ => stray_eq_nil_iff server docRoot e

end Server

/-! ## A file of two octets -/

/-- A file that says `hi`. -/
def hi : FileSystem := fun _ => ⟨0, ⟨true, text "hi"⟩, by decide⟩

/-- An empty file. -/
def empty : FileSystem := fun _ => ⟨0, ⟨true, []⟩, by decide⟩

def getFile : Exchange := ⟨hi, ⟨.get, text "/a", 11, true⟩⟩

def headEmpty : Exchange := ⟨empty, ⟨.head, text "/b", 11, false⟩⟩

/-- A GET, and a HEAD for an empty file: both responses are found. -/
theorem responses_found_iff_get : ∃ s,
    Reaches (sessionStep beast (text "/srv")) (fun _ _ => True) run s ∧
    s.answered = [getFile, headEmpty] ∧ FoundFirst beast (text "/srv") s 2 := by
  have hrun : (guardedRun (sessionStep beast (text "/srv")) (fun _ _ => True) run
      [.onRead getFile, .onWrite, .onRead headEmpty, .onWrite]).map Session.answered
      = some [getFile, headEmpty] := rfl
  obtain ⟨s, hs, hend⟩ := exists_of_guardedRun hrun
  refine ⟨s, hs, hend, (responses_found_iff beast (text "/srv") hs 2).mpr ?_⟩
  rw [hend]
  intro e he
  rcases List.mem_cons.mp he with rfl | hmem
  · decide
  · rw [List.mem_singleton.mp hmem]
    decide

/-- A HEAD for a file of two octets and then a GET: they stand where the
    second response should, and it is not found. -/
theorem head_body_breaks_framing : ¬ ∀ s,
    Reaches (sessionStep beast (text "/srv")) (fun _ _ => True) run s →
    FoundFirst beast (text "/srv") s s.answered.length := by
  intro hall
  have hrun : (guardedRun (sessionStep beast (text "/srv")) (fun _ _ => True) run
      [.onRead ⟨hi, ⟨.head, text "/a", 11, true⟩⟩, .onWrite, .onRead getFile, .onWrite]).map
        (fun s => (s.answered.map Exchange.toHead, (readResponses [true, false] s.written).isNone))
      = some ([true, false], true) := by
    decide +kernel
  obtain ⟨s, hs, hend⟩ := exists_of_guardedRun hrun
  obtain ⟨hheads, hnone⟩ := Prod.mk.inj hend
  have hfound := hall s hs
  rw [FoundFirst, List.take_length, hheads] at hfound
  rw [hfound] at hnone
  exact Bool.noConfusion hnone

end HttpConnection
