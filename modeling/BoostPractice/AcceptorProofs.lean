import Mathlib.Data.List.Nodup
import BoostPractice.GuardedRunProofs

/-! # An acceptor and its sessions

    A server accepts one connection after the other.  The handler of an accept
    makes a session and starts it, keeps it in a list, and accepts again; the
    handlers of a session run beside it on other threads, and report to the
    server when the session is over.  What a session is, what its handlers do
    and what may fail in them is a `Program`.

    A session is named by the order in which it was accepted.  Its handlers
    hold it while they wait to run; the list holds it, and the accept handler
    until it is in the list.  Nobody can do anything with a session that nobody
    holds.

    `peer_reaches` says that what a session of a server goes through is a run
    of that session alone; `registry_of_reaches` says when the list is right,
    and `rearms` that the accept handler comes to its end. -/

namespace Acceptor

open GuardedRun

/-! ## Operations that fail -/

/-- `boost::system::error_code` by its value, zero for no error. -/
abbrev ErrorCode := Int

/-- `boost::asio::error::eof`. -/
def eof : ErrorCode := 2

/-- `boost::system::system_error`. -/
structure SystemError where
  code : ErrorCode
  deriving DecidableEq

/-- An operation on a socket in the overload without an `error_code`. -/
def throwing (ec : ErrorCode) : Except SystemError Unit :=
  if ec = 0 then pure () else throw ⟨ec⟩

/-- The same in the overload that sets one. -/
def reporting (ec : ErrorCode) : Except SystemError ErrorCode := pure ec

theorem throwing_zero : throwing 0 = .ok () := rfl

theorem throwing_of_ne {ec : ErrorCode} (h : ec ≠ 0) : throwing ec = .error ⟨ec⟩ := by
  rw [throwing, if_neg h]
  rfl

/-! ## Sessions -/

/-- What a session is to a server.  `run` is a session that was just started;
    `handle` is a step of its handlers with the exception that leaves it, if
    any; `sessionOver` is a handler's report that it is over; and `holders`
    counts the `shared_ptr`s in its handlers. -/
structure SessionProgram (L E : Type) where
  run : L
  handle : L → E → Option (L × Option SystemError)
  sessionOver : L → Option L
  holders : L → Nat

/-- A session that was started, and how often it was reported to be over. -/
structure Peer (L : Type) where
  life : L
  overs : Nat
  deriving DecidableEq

inductive PeerAction (E : Type) where
  | handle (e : E)
  | sessionOver

variable {Io L E : Type}

/-- A session that was just started. -/
def SessionProgram.started (prog : SessionProgram L E) : Peer L := ⟨prog.run, 0⟩

/-- One step of a session, with the exception that leaves it. -/
def SessionProgram.peerStep (prog : SessionProgram L E) (p : Peer L) :
    PeerAction E → Option (Peer L × Option SystemError)
  | .handle e => (prog.handle p.life e).map fun r => (⟨r.1, p.overs⟩, r.2)
  | .sessionOver => (prog.sessionOver p.life).map fun life => (⟨life, p.overs + 1⟩, none)

/-- One step of a session by itself; what an exception does to the others is
    the server's. -/
def SessionProgram.peerNext (prog : SessionProgram L E) (p : Peer L) (a : PeerAction E) :
    Option (Peer L) :=
  (prog.peerStep p a).map Prod.fst

section Peer

variable {prog : SessionProgram L E}

theorem peerStep_handle {e : E} {p p' : Peer L} {thrown : Option SystemError}
    (h : prog.peerStep p (.handle e) = some (p', thrown)) :
    prog.handle p.life e = some (p'.life, thrown) ∧ p'.overs = p.overs := by
  obtain ⟨r, hr, heq⟩ := Option.map_eq_some_iff.mp h
  obtain ⟨rfl, rfl⟩ := Prod.mk.inj heq
  exact ⟨hr, rfl⟩

theorem peerStep_sessionOver {p p' : Peer L} {thrown : Option SystemError}
    (h : prog.peerStep p .sessionOver = some (p', thrown)) :
    prog.sessionOver p.life = some p'.life ∧ p'.overs = p.overs + 1 ∧ thrown = none := by
  obtain ⟨life, hlife, heq⟩ := Option.map_eq_some_iff.mp h
  obtain ⟨rfl, rfl⟩ := Prod.mk.inj heq
  exact ⟨hlife, rfl, rfl⟩

end Peer

/-! ## The server -/

/-- What the accept handler does after its first part: it starts a session,
    accepts again, or neither. -/
inductive Next where
  | startSession
  | doAccept
  | leave
  deriving DecidableEq

/-- The program of a server: its sessions, and its accept handler up to the
    start of one, for what the accept and the calls on the new socket come
    to. -/
structure Program (Io L E : Type) extends SessionProgram L E where
  onAccept : Io → Except SystemError Next

/-- Where the accept handler is: an accept is outstanding; the session has been
    started and is not in the list; only the next accept is left; or it has
    returned without one. -/
inductive OnAccept where
  | armed
  | registering (k : Nat)
  | finishing
  | returned
  deriving DecidableEq

/-- The list of sessions, every session that was started, and an exception
    that no handler has caught. -/
structure Server (L : Type) where
  onAccept : OnAccept
  sessions : List Nat
  peers : List (Peer L)
  escaped : Option SystemError

/-- The first accept is outstanding. -/
def Server.start : Server L := ⟨.armed, [], [], none⟩

inductive Action (Io E : Type) where
  /-- An accept completes, and its handler runs up to the start of the session. -/
  | accept (io : Io)
  /-- The session is put in the list, and the accept handler lets it go. -/
  | register
  | doAccept
  /-- A step of the `k`-th session. -/
  | session (k : Nat) (a : PeerAction E)

/-- The owners of a session: the list, its handlers, and the accept handler. -/
def Program.owners (prog : Program Io L E) (s : Server L) (k : Nat) (p : Peer L) : Nat :=
  s.sessions.count k + prog.holders p.life + if s.onAccept = .registering k then 1 else 0

/-- The report that a session is over takes it out of the list, if it is in. -/
def onSessionOver (sessions : List Nat) (k : Nat) : PeerAction E → List Nat
  | .handle _ => sessions
  | .sessionOver => sessions.erase k

/-- What an action comes to, if it can happen. -/
def Program.act (prog : Program Io L E) (s : Server L) : Action Io E → Option (Server L)
  | .accept io =>
      if s.onAccept = .armed then
        match prog.onAccept io with
        | .ok .startSession =>
            some { s with
              onAccept := .registering s.peers.length
              peers := s.peers ++ [prog.started] }
        | .ok .doAccept => some { s with onAccept := .finishing }
        | .ok .leave => some { s with onAccept := .returned }
        | .error e => some { s with onAccept := .returned, escaped := some e }
      else none
  | .register =>
      match s.onAccept with
      | .registering k => some { s with onAccept := .finishing, sessions := s.sessions ++ [k] }
      | _ => none
  | .doAccept => if s.onAccept = .finishing then some { s with onAccept := .armed } else none
  | .session k a =>
      match s.peers[k]? with
      | some p =>
          -- a session without an owner has been destroyed
          if 0 < prog.owners s k p then
            (prog.peerStep p a).map fun r =>
              { s with
                sessions := onSessionOver s.sessions k a
                peers := s.peers.set k r.1
                escaped := r.2 }
          else none
      | none => none

/-- One step; an exception that escapes ends the run. -/
def Program.step (prog : Program Io L E) (s : Server L) (a : Action Io E) : Option (Server L) :=
  if s.escaped = none then prog.act s a else none

/-! ## What each step can do -/

section Step

variable {prog : Program Io L E} {s s' : Server L}

theorem act_of_step {a : Action Io E} (h : prog.step s a = some s') :
    s.escaped = none ∧ prog.act s a = some s' := by
  rw [Program.step] at h
  split at h
  · next hrunning => exact ⟨hrunning, h⟩
  · cases h

theorem step_accept {io : Io} (h : prog.step s (.accept io) = some s') :
    s.onAccept = .armed ∧
      ((prog.onAccept io = .ok .startSession ∧
          s' = { s with
            onAccept := .registering s.peers.length
            peers := s.peers ++ [prog.started] }) ∨
        (prog.onAccept io = .ok .doAccept ∧ s' = { s with onAccept := .finishing }) ∨
        (prog.onAccept io = .ok .leave ∧ s' = { s with onAccept := .returned }) ∨
        ∃ e, prog.onAccept io = .error e ∧
          s' = { s with onAccept := .returned, escaped := some e }) := by
  have hact := (act_of_step h).2
  rw [Program.act] at hact
  split at hact
  · next harmed =>
      refine ⟨harmed, ?_⟩
      split at hact
      · next hnext => exact .inl ⟨hnext, (Option.some.inj hact).symm⟩
      · next hnext => exact .inr (.inl ⟨hnext, (Option.some.inj hact).symm⟩)
      · next hnext => exact .inr (.inr (.inl ⟨hnext, (Option.some.inj hact).symm⟩))
      · next e hnext => exact .inr (.inr (.inr ⟨e, hnext, (Option.some.inj hact).symm⟩))
  · cases hact

theorem step_register (h : prog.step s .register = some s') :
    ∃ k, s.onAccept = .registering k ∧
      s' = { s with onAccept := .finishing, sessions := s.sessions ++ [k] } := by
  have hact := (act_of_step h).2
  rw [Program.act] at hact
  split at hact
  · next k hk => exact ⟨k, hk, (Option.some.inj hact).symm⟩
  · cases hact

theorem step_doAccept (h : prog.step s .doAccept = some s') :
    s.onAccept = .finishing ∧ s' = { s with onAccept := .armed } := by
  have hact := (act_of_step h).2
  rw [Program.act] at hact
  split at hact
  · next hfinishing => exact ⟨hfinishing, (Option.some.inj hact).symm⟩
  · cases hact

theorem step_session {k : Nat} {a : PeerAction E} (h : prog.step s (.session k a) = some s') :
    ∃ p p' thrown, s.peers[k]? = some p ∧ 0 < prog.owners s k p ∧
      prog.peerStep p a = some (p', thrown) ∧
      s' = { s with
        sessions := onSessionOver s.sessions k a
        peers := s.peers.set k p'
        escaped := thrown } := by
  have hact := (act_of_step h).2
  rw [Program.act] at hact
  split at hact
  · next p hp =>
      split at hact
      · next howned =>
          obtain ⟨⟨p', thrown⟩, hstep, heq⟩ := Option.map_eq_some_iff.mp hact
          exact ⟨p, p', thrown, hp, howned, hstep, heq.symm⟩
      · cases hact
  · cases hact

/-- A session that somebody holds takes its steps. -/
theorem step_session_of_owned {k : Nat} {a : PeerAction E} {p p' : Peer L}
    {thrown : Option SystemError} (hrunning : s.escaped = none) (hp : s.peers[k]? = some p)
    (howned : 0 < prog.owners s k p) (hstep : prog.peerStep p a = some (p', thrown)) :
    prog.step s (.session k a) = some { s with
      sessions := onSessionOver s.sessions k a
      peers := s.peers.set k p'
      escaped := thrown } := by
  rw [Program.step, if_pos hrunning, Program.act]
  simp only [hp, if_pos howned, hstep, Option.map_some]

/-- What a session was before a step: what it is now, nothing yet, or it took
    the step. -/
theorem peer_of_step {a : Action Io E} (h : prog.step s a = some s') {k : Nat} {p : Peer L}
    (hp : s'.peers[k]? = some p) :
    s.peers[k]? = some p ∨ p = prog.started ∨
      ∃ b p₀, a = .session k b ∧ s.peers[k]? = some p₀ ∧
        prog.peerStep p₀ b = some (p, s'.escaped) := by
  cases a with
  | accept io =>
      rcases step_accept h with ⟨-, ⟨-, rfl⟩ | ⟨-, rfl⟩ | ⟨-, rfl⟩ | ⟨e, -, rfl⟩⟩
      · rcases getElem?_concat_iff.mp hp with hold | ⟨-, hnew⟩
        · exact .inl hold
        · exact .inr (.inl hnew.symm)
      · exact .inl hp
      · exact .inl hp
      · exact .inl hp
  | register =>
      obtain ⟨j, -, rfl⟩ := step_register h
      exact .inl hp
  | doAccept =>
      obtain ⟨-, rfl⟩ := step_doAccept h
      exact .inl hp
  | session j b =>
      obtain ⟨p₀, p', thrown, hp₀, -, hstep, rfl⟩ := step_session h
      rcases getElem?_of_set hp with ⟨rfl, rfl⟩ | ⟨-, hold⟩
      · exact .inr (.inr ⟨b, p₀, rfl, hp₀, hstep⟩)
      · exact .inl hold

end Step

/-! ## One session at a time -/

section Peer

variable {prog : Program Io L E} {C : Server L → Action Io E → Prop}
  {D : Peer L → PeerAction E → Prop}

/-- **PROJECTION**: what a session of a server goes through is a run of that
    session by itself. -/
theorem peer_reaches
    (hCD : ∀ (s : Server L) (k : Nat) (a : PeerAction E) (p : Peer L),
      C s (.session k a) → s.peers[k]? = some p → D p a)
    {s : Server L} (h : Reaches prog.step C Server.start s) :
    ∀ (k : Nat) (p : Peer L), s.peers[k]? = some p →
      Reaches prog.peerNext D prog.started p := by
  refine h.invariant (I := fun t => ∀ (k : Nat) (p : Peer L), t.peers[k]? = some p →
    Reaches prog.peerNext D prog.started p) ?_ ?_
  · intro k p hp
    cases hp
  · intro t a t' hI rule hstep k p hp
    rcases peer_of_step hstep hp with hold | rfl | ⟨b, p₀, rfl, hp₀, htaken⟩
    · exact hI k p hold
    · exact .start
    · refine (hI k p₀ hp₀).next (hCD t k b p₀ rule hp₀) ?_
      rw [SessionProgram.peerNext, htaken]
      rfl

end Peer

/-! ## The list of sessions -/

/-- **THE REGISTRY IS RIGHT**: a session that the accept handler is done with
    is in the list once, or not at all if it was reported to be over. -/
def Registered (s : Server L) : Prop :=
  ∀ (k : Nat) (p : Peer L), s.peers[k]? = some p → s.onAccept ≠ .registering k →
    s.sessions.count k = if p.overs = 0 then 1 else 0

/-- Sessions are reported to be over when the accept handler is done with
    them. -/
def AfterRegister (s : Server L) : Action Io E → Prop
  | .session k .sessionOver => s.onAccept ≠ .registering k
  | _ => True

instance (s : Server L) (a : Action Io E) : Decidable (AfterRegister s a) :=
  match a with
  | .session _ .sessionOver => inferInstanceAs (Decidable (_ ≠ _))
  | .session _ (.handle _) => isTrue trivial
  | .accept _ => isTrue trivial
  | .register => isTrue trivial
  | .doAccept => isTrue trivial

/-- The entries of a list of sessions, `n` of which were started: each is one of
    these, once, and not yet the one that is about to be put in. -/
structure Entries (c : OnAccept) (sessions : List Nat) (n : Nat) : Prop where
  known : ∀ k ∈ sessions, k < n
  nodup : sessions.Nodup
  fresh : ∀ k, c = .registering k → k ∉ sessions ∧ k < n

section Entries

variable {c c' : OnAccept} {sessions sessions' : List Nat} {n : Nat}

theorem entries_nil : Entries .armed [] 0 where
  known := fun _ hk => absurd hk List.not_mem_nil
  nodup := List.nodup_nil
  fresh := nofun

/-- A session is started. -/
theorem Entries.begin (h : Entries c sessions n) : Entries (.registering n) sessions (n + 1) where
  known := fun k hk => Nat.lt_succ_of_lt (h.known k hk)
  nodup := h.nodup
  fresh := by
    intro k hk
    obtain rfl := OnAccept.registering.inj hk
    exact ⟨fun hmem => Nat.lt_irrefl _ (h.known _ hmem), Nat.lt_succ_self _⟩

/-- It is put in the list. -/
theorem Entries.register {k : Nat} (h : Entries (.registering k) sessions n) :
    Entries .finishing (sessions ++ [k]) n := by
  obtain ⟨hnot, hlt⟩ := h.fresh k rfl
  constructor
  · intro j hj
    rcases List.mem_append.mp hj with hold | hnew
    · exact h.known j hold
    · rw [List.mem_singleton.mp hnew]
      exact hlt
  · exact List.nodup_append.mpr ⟨h.nodup, List.nodup_singleton k, by
      rintro j hj _ hk rfl
      exact hnot (List.mem_singleton.mp hk ▸ hj)⟩
  · exact nofun

/-- The accept handler goes on without a session. -/
theorem Entries.move (h : Entries c sessions n) (hc : ∀ k, c' ≠ .registering k) :
    Entries c' sessions n :=
  ⟨h.known, h.nodup, fun k hk => absurd hk (hc k)⟩

/-- Entries are taken out. -/
theorem Entries.sublist (h : Entries c sessions n) (hsub : sessions'.Sublist sessions) :
    Entries c sessions' n where
  known := fun k hk => h.known k (hsub.subset hk)
  nodup := h.nodup.sublist hsub
  fresh := fun k hk => ⟨fun hmem => (h.fresh k hk).1 (hsub.subset hmem), (h.fresh k hk).2⟩

end Entries

/-- The list holds sessions that were started, each once, and not yet the one
    that is about to be put in. -/
structure Distinct (s : Server L) : Prop where
  known : ∀ k ∈ s.sessions, k < s.peers.length
  nodup : s.sessions.Nodup
  fresh : ∀ k, s.onAccept = .registering k → k ∉ s.sessions ∧ k < s.peers.length

section Distinct

variable {prog : Program Io L E} {s s' : Server L}

theorem onSessionOver_sublist (sessions : List Nat) (k : Nat) (a : PeerAction E) :
    (onSessionOver sessions k a).Sublist sessions := by
  cases a with
  | handle e => exact List.Sublist.refl _
  | sessionOver => exact List.erase_sublist

theorem distinct_iff : Distinct s ↔ Entries s.onAccept s.sessions s.peers.length :=
  ⟨fun h => ⟨h.known, h.nodup, h.fresh⟩, fun h => ⟨h.known, h.nodup, h.fresh⟩⟩

theorem Distinct.accept (h : Distinct s) {io : Io} (hstep : prog.step s (.accept io) = some s') :
    Distinct s' := by
  have hentries := distinct_iff.mp h
  rw [distinct_iff]
  obtain ⟨-, ⟨-, rfl⟩ | ⟨-, rfl⟩ | ⟨-, rfl⟩ | ⟨e, -, rfl⟩⟩ := step_accept hstep
  · rw [List.length_append]
    exact hentries.begin
  · exact hentries.move nofun
  · exact hentries.move nofun
  · exact hentries.move nofun

theorem Distinct.step (h : Distinct s) {a : Action Io E} (hstep : prog.step s a = some s') :
    Distinct s' := by
  have hentries := distinct_iff.mp h
  cases a with
  | accept io => exact h.accept hstep
  | register =>
      obtain ⟨j, hj, rfl⟩ := step_register hstep
      rw [hj] at hentries
      exact distinct_iff.mpr hentries.register
  | doAccept =>
      obtain ⟨-, rfl⟩ := step_doAccept hstep
      exact distinct_iff.mpr (hentries.move nofun)
  | session j a =>
      obtain ⟨p, p', thrown, -, -, -, rfl⟩ := step_session hstep
      rw [distinct_iff, List.length_set]
      exact hentries.sublist (onSessionOver_sublist s.sessions j a)

theorem distinct_of_reaches {C : Server L → Action Io E → Prop}
    (h : Reaches prog.step C Server.start s) : Distinct s := by
  refine h.invariant (I := Distinct) (distinct_iff.mpr entries_nil) ?_
  intro t a t' hI _ hstep
  exact hI.step hstep

end Distinct

/-- The list is right, and the session that is about to be put in was not
    reported to be over. -/
structure Listed (s : Server L) : Prop where
  fresh : ∀ (k : Nat) (p : Peer L), s.onAccept = .registering k → s.peers[k]? = some p →
    p.overs = 0
  registered : Registered s

section Listed

variable {prog : Program Io L E} {s s' : Server L}

/-- The list is as right when the accept handler moves on without a session. -/
theorem Listed.move (h : Listed s) {c : OnAccept} {escaped : Option SystemError}
    (hold : ∀ k, s.onAccept ≠ .registering k) (hnew : ∀ k, c ≠ .registering k) :
    Listed { s with onAccept := c, escaped := escaped } :=
  ⟨fun k _ hk => absurd hk (hnew k), fun k p hp _ => h.registered k p hp (hold k)⟩

theorem Listed.accept (h : Listed s) {io : Io} (hstep : prog.step s (.accept io) = some s') :
    Listed s' := by
  obtain ⟨harmed, hcases⟩ := step_accept hstep
  have hold : ∀ k, s.onAccept ≠ .registering k := by
    intro k
    rw [harmed]
    exact nofun
  rcases hcases with ⟨-, rfl⟩ | ⟨-, rfl⟩ | ⟨-, rfl⟩ | ⟨e, -, rfl⟩
  · constructor
    · intro k p hk hp
      obtain rfl := OnAccept.registering.inj hk
      obtain rfl := Option.some.inj (List.getElem?_concat_length.symm.trans hp)
      rfl
    · intro k p hp hne
      rcases getElem?_concat_iff.mp hp with hlisted | ⟨rfl, -⟩
      · exact h.registered k p hlisted (hold k)
      · exact absurd rfl hne
  · exact h.move hold nofun
  · exact h.move hold nofun
  · exact h.move hold nofun

theorem Listed.register (h : Listed s) (hdistinct : Distinct s)
    (hstep : prog.step s .register = some s') : Listed s' := by
  obtain ⟨j, hj, rfl⟩ := step_register hstep
  constructor
  · intro k p hk
    cases hk
  · intro k p hp _
    show (s.sessions ++ [j]).count k = _
    rw [List.count_append]
    by_cases hk : j = k
    · subst hk
      rw [List.count_eq_zero_of_not_mem (hdistinct.fresh j hj).1, List.count_singleton_self,
        if_pos (h.fresh j p hj hp)]
    · have hne : s.onAccept ≠ .registering k := fun heq =>
        hk (OnAccept.registering.inj (hj.symm.trans heq))
      rw [List.count_singleton, if_neg (by simpa using hk)]
      exact h.registered k p hp hne

theorem Listed.handle (h : Listed s) {j : Nat} {e : E}
    (hstep : prog.step s (.session j (.handle e)) = some s') : Listed s' := by
  obtain ⟨p₀, p', thrown, hp₀, -, htaken, rfl⟩ := step_session hstep
  obtain ⟨-, hovers⟩ := peerStep_handle htaken
  constructor
  · intro k p hk hp
    rcases getElem?_of_set hp with ⟨rfl, rfl⟩ | ⟨-, hold⟩
    · rw [hovers]
      exact h.fresh j p₀ hk hp₀
    · exact h.fresh k p hk hold
  · intro k p hp hne
    rcases getElem?_of_set hp with ⟨rfl, rfl⟩ | ⟨-, hold⟩
    · rw [hovers]
      exact h.registered j p₀ hp₀ hne
    · exact h.registered k p hold hne

theorem Listed.sessionOver (h : Listed s) {j : Nat} (hafter : s.onAccept ≠ .registering j)
    (hstep : prog.step s (.session j .sessionOver) = some s') : Listed s' := by
  obtain ⟨p₀, p', thrown, hp₀, -, htaken, rfl⟩ := step_session hstep
  obtain ⟨-, hovers, -⟩ := peerStep_sessionOver htaken
  constructor
  · intro k p hk hp
    rcases getElem?_of_set hp with ⟨rfl, -⟩ | ⟨-, hold⟩
    · exact absurd hk hafter
    · exact h.fresh k p hk hold
  · intro k p hp hne
    show (s.sessions.erase j).count k = _
    rcases getElem?_of_set hp with ⟨rfl, rfl⟩ | ⟨hj, hold⟩
    -- it was in the list once, or not at all if it was over before
    · rw [List.count_erase_self, h.registered j p₀ hp₀ hafter, hovers,
        if_neg (Nat.succ_ne_zero _)]
      split <;> rfl
    · rw [List.count_erase_of_ne (Ne.symm hj)]
      exact h.registered k p hold hne

/-- **EVERY STEP** keeps the list right, if no session is reported to be over
    before it is in it. -/
theorem Listed.step (h : Listed s) (hdistinct : Distinct s) {a : Action Io E}
    (rule : AfterRegister s a) (hstep : prog.step s a = some s') : Listed s' := by
  cases a with
  | accept io => exact h.accept hstep
  | register => exact h.register hdistinct hstep
  | doAccept =>
      obtain ⟨hfinishing, rfl⟩ := step_doAccept hstep
      refine h.move ?_ nofun
      intro k
      rw [hfinishing]
      exact nofun
  | session k a =>
      cases a with
      | handle e => exact h.handle hstep
      | sessionOver => exact h.sessionOver rule hstep

/-- The registry of a server, in every run whose sessions are over only after
    they are in it. -/
theorem registry_of_reaches (h : Reaches prog.step AfterRegister Server.start s) :
    Registered s := by
  have hlisted : Listed s := by
    refine h.invariant_over (I := Listed) (fun t ht => distinct_of_reaches ht) ⟨nofun, nofun⟩ ?_
    intro t a t' hdistinct hI rule hstep
    exact hI.step hdistinct rule hstep
  exact hlisted.registered

/-- A session that was over before it was in the list stays in the list. -/
theorem early_over {k : Nat} (hearly : s.onAccept = .registering k)
    (hstep : prog.step s (.session k .sessionOver) = some s') :
    ∃ s'', prog.step s' .register = some s'' ∧ ¬ Registered s'' := by
  obtain ⟨p₀, p', thrown, hp₀, -, htaken, rfl⟩ := step_session hstep
  obtain ⟨-, hovers, rfl⟩ := peerStep_sessionOver htaken
  refine ⟨{ s with
    onAccept := .finishing
    sessions := s.sessions.erase k ++ [k]
    peers := s.peers.set k p'
    escaped := none }, ?_, ?_⟩
  · rw [Program.step, if_pos rfl]
    simp only [Program.act, hearly]
    rfl
  · intro hregistered
    have hcount := hregistered k p'
      (List.getElem?_set_self (List.getElem?_eq_some_iff.mp hp₀).1) nofun
    rw [hovers, if_neg (Nat.succ_ne_zero _)] at hcount
    exact List.count_eq_zero.mp hcount (List.mem_append_right _ (List.mem_singleton_self k))

end Listed

/-! ## Exceptions, and the end of the accept handler -/

/-- The steps of the accept handler after its first part. -/
def Continues : Action Io E → Prop
  | .register => True
  | .doAccept => True
  | _ => False

/-- **RE-ARMED**: the accept handler has only steps of its own left, and
    after them an accept is outstanding. -/
def Rearms (prog : Program Io L E) (s : Server L) : Prop :=
  ∃ s', Reaches prog.step (fun _ a => Continues a) s s' ∧ s'.onAccept = .armed

section Escapes

variable {prog : Program Io L E} {s : Server L}

theorem rearms (hrunning : s.escaped = none) (hstays : s.onAccept ≠ .returned) :
    Rearms prog s := by
  have hfinish : ∀ t : Server L, t.escaped = none → t.onAccept = .finishing →
      prog.step t .doAccept = some { t with onAccept := .armed } := by
    intro t ht hfinishing
    rw [Program.step, if_pos ht, Program.act, if_pos hfinishing]
  cases hc : s.onAccept with
  | armed => exact ⟨s, .start, hc⟩
  | registering k =>
      have hregister : prog.step s .register = some
          { s with onAccept := .finishing, sessions := s.sessions ++ [k] } := by
        rw [Program.step, if_pos hrunning, Program.act, hc]
      have hrun : Reaches prog.step (fun _ a => Continues a) s _ :=
        .next (a := .register) .start trivial hregister
      exact ⟨_, hrun.next (a := .doAccept) trivial (hfinish _ hrunning rfl), rfl⟩
  | finishing =>
      exact ⟨_, .next (a := .doAccept) .start trivial (hfinish s hrunning hc), rfl⟩
  | returned => exact absurd hc hstays

/-- A server stays up in every run in which its accept handler does not throw or
    give up, and its handlers do not throw. -/
theorem running_of_reaches {C : Server L → Action Io E → Prop}
    (accepts : ∀ (s : Server L) (io : Io), C s (.accept io) →
      prog.onAccept io = .ok .startSession ∨ prog.onAccept io = .ok .doAccept)
    (handles : ∀ (s : Server L) (k : Nat) (e : E) (p : Peer L) (r : L × Option SystemError),
      C s (.session k (.handle e)) → s.peers[k]? = some p → prog.handle p.life e = some r →
      r.2 = none)
    (h : Reaches prog.step C Server.start s) : s.escaped = none ∧ s.onAccept ≠ .returned := by
  refine h.invariant (I := fun t => t.escaped = none ∧ t.onAccept ≠ .returned)
    ⟨rfl, OnAccept.noConfusion⟩ ?_
  rintro t a t' ⟨hrunning, hstays⟩ rule hstep
  cases a with
  | accept io =>
      obtain ⟨-, hcases⟩ := step_accept hstep
      rcases hcases with ⟨-, rfl⟩ | ⟨-, rfl⟩ | ⟨hleave, -⟩ | ⟨e, herror, -⟩
      · exact ⟨hrunning, nofun⟩
      · exact ⟨hrunning, nofun⟩
      · rcases accepts t io rule with hok | hok <;> cases hok.symm.trans hleave
      · rcases accepts t io rule with hok | hok <;> cases hok.symm.trans herror
  | register =>
      obtain ⟨k, -, rfl⟩ := step_register hstep
      exact ⟨hrunning, nofun⟩
  | doAccept =>
      obtain ⟨-, rfl⟩ := step_doAccept hstep
      exact ⟨hrunning, nofun⟩
  | session k b =>
      obtain ⟨p, p', thrown, hp, -, htaken, rfl⟩ := step_session hstep
      refine ⟨?_, hstays⟩
      cases b with
      | handle e => exact handles t k e p _ rule hp (peerStep_handle htaken).1
      | sessionOver => exact (peerStep_sessionOver htaken).2.2

end Escapes

end Acceptor
