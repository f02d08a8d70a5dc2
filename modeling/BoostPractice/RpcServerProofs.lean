import BoostPractice.RpcSessionLifeProofs

/-! # `rpc_server` — failures and owners

    `on_accept` asks the new socket for its remote endpoint, makes a session,
    starts it, keeps it in `sessions_` and accepts again.  Its last two steps
    (`push_back` under the lock, `do_accept`) and `on_session_over`, which
    erases a session, are those of an `Acceptor`.  Every operation on a socket
    may fail, and those without an `error_code` then throw.  `server_survives`
    says which failures reach `io_context::run`.

    A closure of `done_callback` does not hold its session, so that a session
    may be gone before a service has answered.  `closures_owned` says when it
    is not. -/

namespace RpcServer

open Acceptor GuardedRun RpcSessionLife

/-- What the accept comes to, and the two calls of `remote_endpoint`. -/
structure AcceptIo where
  ec : ErrorCode
  address : ErrorCode
  port : ErrorCode

/-- `rpc_server::on_accept`, up to the start of the session. -/
def onAccept (io : AcceptIo) : Except SystemError Next :=
  if io.ec ≠ 0 then pure .doAccept
  else do
    -- printed before the session is made, outside any `try`
    throwing io.address
    throwing io.port
    pure .startSession

/-- `rpc_server`, in the build with or without SSL. -/
def rpcServer (ssl : Bool) : Program AcceptIo Life Event :=
  { session ssl with onAccept := onAccept }

/-- The states of the runs of a server that meet a rule. -/
abbrev Runs (ssl : Bool) (C : Server Life → Action AcceptIo Event → Prop) :
    Server Life → Prop :=
  Reaches (rpcServer ssl).step C Server.start

/-! ## Failures -/

theorem onAccept_failed {io : AcceptIo} (h : io.ec ≠ 0) : onAccept io = .ok .doAccept := if_pos h

theorem onAccept_connected {io : AcceptIo} (hec : io.ec = 0) (h : io.address = 0 ∧ io.port = 0) :
    onAccept io = .ok .startSession := by
  rw [onAccept, if_neg (fun hne => hne hec), h.1, h.2, throwing_zero]
  rfl

theorem onAccept_throws {io : AcceptIo} (hec : io.ec = 0) (h : ¬ (io.address = 0 ∧ io.port = 0)) :
    ∃ e, onAccept io = .error e := by
  rw [onAccept, if_neg (fun hne => hne hec)]
  by_cases haddress : io.address = 0
  · have hport : io.port ≠ 0 := fun hport => h ⟨haddress, hport⟩
    rw [haddress, throwing_zero, throwing_of_ne hport]
    exact ⟨_, rfl⟩
  · rw [throwing_of_ne haddress]
    exact ⟨_, rfl⟩

/-- `remote_endpoint` does not fail on a socket that was accepted, nor does the
    `shutdown` after a write that failed. -/
def Spared (_ : Server Life) : Action AcceptIo Event → Prop
  | .accept io => io.ec = 0 → io.address = 0 ∧ io.port = 0
  | .session _ (.handle (.onWrite ec _ shutdown)) => ec ≠ 0 → shutdown = 0
  | _ => True

instance (s : Server Life) (a : Action AcceptIo Event) : Decidable (Spared s a) :=
  match a with
  | .accept io => inferInstanceAs (Decidable (io.ec = 0 → io.address = 0 ∧ io.port = 0))
  | .session _ (.handle (.onWrite ec _ shutdown)) =>
      inferInstanceAs (Decidable (ec ≠ 0 → shutdown = 0))
  | .session _ (.handle (.onHandshake _)) => isTrue trivial
  | .session _ (.handle (.onRead _ _)) => isTrue trivial
  | .session _ (.handle .dispatch) => isTrue trivial
  | .session _ (.handle .reject) => isTrue trivial
  | .session _ (.handle .doRead) => isTrue trivial
  | .session _ (.handle .doneCallback) => isTrue trivial
  | .session _ (.handle .callMethod) => isTrue trivial
  | .session _ (.handle .readReturns) => isTrue trivial
  | .session _ .sessionOver => isTrue trivial
  | .register => isTrue trivial
  | .doAccept => isTrue trivial

/-- **SURVIVED**: no exception has reached `io_context::run`, and an accept is
    outstanding or `on_accept` is on its way to the next one. -/
structure Survives (ssl : Bool) (s : Server Life) : Prop where
  running : s.escaped = none
  accepting : Rearms (rpcServer ssl) s

theorem survives_of_spared {ssl : Bool} {s : Server Life} (h : Runs ssl Spared s) :
    Survives ssl s := by
  have hrunning : s.escaped = none ∧ s.onAccept ≠ .returned := by
    refine running_of_reaches ?_ ?_ h
    · intro t io rule
      by_cases hec : io.ec = 0
      · exact .inl (onAccept_connected hec (rule hec))
      · exact .inr (onAccept_failed hec)
    · rintro t k e p ⟨l', thrown⟩ rule - hhandle
      rcases (moves_of_handle hhandle).thrown with
        hnone | ⟨ec, left, shutdown, rfl, hec, hshutdown⟩
      · exact hnone
      · exact absurd (rule hec) hshutdown
  exact ⟨hrunning.1, rearms hrunning.1 hrunning.2⟩

/-- One failure that is not spared brings the server down. -/
theorem escaped_of_not_spared {ssl : Bool} {s s' : Server Life} {a : Action AcceptIo Event}
    (hnot : ¬ Spared s a) (hstep : (rpcServer ssl).step s a = some s') : s'.escaped ≠ none := by
  cases a with
  | accept io =>
      obtain ⟨hec, hfails⟩ := Classical.not_imp.mp hnot
      obtain ⟨e, he⟩ := onAccept_throws hec hfails
      rcases step_accept hstep with ⟨-, ⟨h, -⟩ | ⟨h, -⟩ | ⟨h, -⟩ | ⟨e', -, rfl⟩⟩
      · cases he.symm.trans h
      · cases he.symm.trans h
      · cases he.symm.trans h
      · exact Option.some_ne_none e'
  | register => exact absurd trivial hnot
  | doAccept => exact absurd trivial hnot
  | session k b =>
      obtain ⟨p, p', thrown, -, -, htaken, rfl⟩ := step_session hstep
      cases b with
      | sessionOver => exact absurd trivial hnot
      | handle e =>
          have hmoves := moves_of_handle (peerStep_handle htaken).1
          cases e with
          | onWrite ec left shutdown =>
              obtain ⟨hec, hshutdown⟩ := Classical.not_imp.mp hnot
              show thrown ≠ none
              rw [hmoves.throws hec hshutdown]
              exact Option.some_ne_none _
          | onHandshake ec => exact absurd trivial hnot
          | onRead ec io => exact absurd trivial hnot
          | dispatch => exact absurd trivial hnot
          | reject => exact absurd trivial hnot
          | doRead => exact absurd trivial hnot
          | doneCallback => exact absurd trivial hnot
          | callMethod => exact absurd trivial hnot
          | readReturns => exact absurd trivial hnot

/-- **A FAILING CONNECTION CANNOT BRING THE SERVER DOWN**, in every run of the
    plain build in which no failure is one of the two that are not spared; and
    each of these does. -/
theorem server_survives (s : Server Life) :
    (Runs false Spared s → Survives false s) ∧
    (Runs false (fun _ _ => True) s → ∀ a s', (rpcServer false).step s a = some s' →
      ¬ Spared s a → s'.escaped ≠ none) := by
  refine ⟨survives_of_spared, ?_⟩
  intro _ a s' hstep hnot
  exact escaped_of_not_spared hnot hstep

/-- Accepts, reads, writes and `shutdown`s that fail, and `remote_endpoint` of
    a peer that is gone. -/
def failures : List (Action AcceptIo Event) :=
  [.accept ⟨24, 0, 0⟩, .doAccept, .accept ⟨0, 0, 0⟩, .register, .doAccept,
    .session 0 (.handle (.onRead 0 ⟨true, 0, 0⟩)), .session 0 (.handle .dispatch),
    .session 0 (.handle .doneCallback), .session 0 (.handle .doRead),
    .session 0 (.handle (.onRead eof ⟨true, 107, 107⟩)), .session 0 .sessionOver,
    .session 0 (.handle .readReturns), .session 0 (.handle (.onWrite 32 true 0)),
    .accept ⟨0, 0, 0⟩]

theorem server_survives_failures :
    ∃ s, guardedRun (rpcServer false).step Spared Server.start failures = some s ∧
      s.onAccept = .registering 1 ∧ Survives false s := by
  have hrun : (guardedRun (rpcServer false).step Spared Server.start failures).map
      Server.onAccept = some (.registering 1) := by
    decide +kernel
  obtain ⟨s, hs, hregistering⟩ := Option.map_eq_some_iff.mp hrun
  exact ⟨s, hs, hregistering, (server_survives s).1 (reaches_of_guardedRun hs)⟩

/-- A client that has reset its connection before `remote_endpoint` is called,
    and one that has done so when a reply is written to it. -/
theorem server_brought_down :
    (∃ s, Runs false (fun _ _ => True) s ∧ s.escaped ≠ none ∧ s.onAccept = .returned) ∧
    ∃ s, Runs false (fun _ _ => True) s ∧ s.escaped ≠ none ∧ s.onAccept = .armed := by
  refine ⟨?_, ?_⟩
  · have hrun : (guardedRun (rpcServer false).step (fun _ _ => True) Server.start
        [.accept ⟨0, 107, 0⟩]).map (fun s => (s.escaped, s.onAccept))
        = some (some ⟨107⟩, .returned) := by
      decide +kernel
    obtain ⟨s, hs, hend⟩ := exists_of_guardedRun hrun
    obtain ⟨hescaped, hreturned⟩ := Prod.mk.inj hend
    exact ⟨s, hs, hescaped ▸ Option.some_ne_none _, hreturned⟩
  · have hrun : (guardedRun (rpcServer false).step (fun _ _ => True) Server.start
        [.accept ⟨0, 0, 0⟩, .register, .doAccept,
          .session 0 (.handle (.onRead 0 ⟨true, 0, 0⟩)), .session 0 (.handle .dispatch),
          .session 0 (.handle .doneCallback), .session 0 (.handle .doRead),
          .session 0 (.handle (.onWrite 32 true 107))]).map (fun s => (s.escaped, s.onAccept))
        = some (some ⟨107⟩, .armed) := by
      decide +kernel
    obtain ⟨s, hs, hend⟩ := exists_of_guardedRun hrun
    obtain ⟨hescaped, harmed⟩ := Prod.mk.inj hend
    exact ⟨s, hs, hescaped ▸ Option.some_ne_none _, harmed⟩

/-! ## Owners -/

/-- `sessions_` or `on_accept` holds the session. -/
def Kept (s : Server Life) (k : Nat) : Prop := k ∈ s.sessions ∨ s.onAccept = .registering k

instance (s : Server Life) (k : Nat) : Decidable (Kept s k) :=
  inferInstanceAs (Decidable (_ ∨ _))

/-- No request is left unanswered by the services when the last read handler of
    a session returns without a write outstanding, nor when the last write ends
    behind that, and nobody else keeps the session. -/
def Answered (s : Server Life) : Action AcceptIo Event → Prop
  | .session k (.handle .readReturns) =>
      ∀ p ∈ s.peers[k]?, p.life.writes = 0 → ¬ Kept s k → p.life.closures = 0
  | .session k (.handle (.onWrite ec left _)) =>
      ∀ p ∈ s.peers[k]?, Finishes ec left → p.life.writes = 1 → p.life.chain = .ended →
        ¬ Kept s k → p.life.closures = 0
  | _ => True

instance (s : Server Life) (a : Action AcceptIo Event) : Decidable (Answered s a) :=
  match a with
  | .session k (.handle .readReturns) =>
      inferInstanceAs (Decidable (∀ p ∈ s.peers[k]?, _ → _ → _))
  | .session k (.handle (.onWrite _ _ _)) =>
      inferInstanceAs (Decidable (∀ p ∈ s.peers[k]?, _ → _ → _ → _ → _))
  | .session _ (.handle (.onHandshake _)) => isTrue trivial
  | .session _ (.handle (.onRead _ _)) => isTrue trivial
  | .session _ (.handle .dispatch) => isTrue trivial
  | .session _ (.handle .reject) => isTrue trivial
  | .session _ (.handle .doRead) => isTrue trivial
  | .session _ (.handle .doneCallback) => isTrue trivial
  | .session _ (.handle .callMethod) => isTrue trivial
  | .session _ .sessionOver => isTrue trivial
  | .accept _ => isTrue trivial
  | .register => isTrue trivial
  | .doAccept => isTrue trivial

/-- **OWNED**: a session with a closure that has not run has an owner. -/
def Owned (ssl : Bool) (s : Server Life) : Prop :=
  ∀ (k : Nat) (p : Peer Life), s.peers[k]? = some p → 0 < p.life.closures →
    0 < (rpcServer ssl).owners s k p

section Owners

variable {ssl : Bool} {s s' : Server Life}

/-- The owners of a session: who keeps it, and its handlers. -/
theorem owners_pos_iff {k : Nat} {p : Peer Life} :
    0 < (rpcServer ssl).owners s k p ↔ Kept s k ∨ 0 < holders p.life := by
  show 0 < s.sessions.count k + holders p.life + _ ↔ _
  rw [Kept, ← List.count_pos_iff]
  by_cases hregistering : s.onAccept = .registering k
  · rw [if_pos hregistering]
    exact iff_of_true (Nat.succ_pos _) (.inl (.inr hregistering))
  · rw [if_neg hregistering, or_iff_left hregistering]
    omega

/-- Where every session is kept as before, those with closures are owned. -/
theorem Owned.frame (howned : Owned ssl s) (hkept : ∀ k, Kept s k → Kept s' k)
    (hpeers : ∀ (k : Nat) (p : Peer Life), s'.peers[k]? = some p →
      s.peers[k]? = some p ∨ p.life.closures = 0) : Owned ssl s' := by
  intro k p hp hpending
  rcases hpeers k p hp with hold | hnone
  · refine owners_pos_iff.mpr ?_
    rcases owners_pos_iff.mp (howned k p hold hpending) with hk | hheld
    · exact .inl (hkept k hk)
    · exact .inr hheld
  · exact absurd hnone (Nat.ne_of_gt hpending)

theorem Owned.accept (howned : Owned ssl s) {io : AcceptIo}
    (h : (rpcServer ssl).step s (.accept io) = some s') : Owned ssl s' := by
  obtain ⟨harmed, hcases⟩ := step_accept h
  have hkept : ∀ {t : Server Life}, t.sessions = s.sessions → ∀ k, Kept s k → Kept t k := by
    intro t hsame k hk
    rcases hk with hmem | hregistering
    · exact .inl (hsame ▸ hmem)
    · cases harmed.symm.trans hregistering
  rcases hcases with ⟨-, rfl⟩ | ⟨-, rfl⟩ | ⟨-, rfl⟩ | ⟨e, -, rfl⟩
  · refine howned.frame (hkept rfl) ?_
    intro k p hp
    rcases getElem?_concat_iff.mp hp with hold | ⟨-, rfl⟩
    · exact .inl hold
    · exact .inr rfl
  · exact howned.frame (hkept rfl) fun _ _ hp => .inl hp
  · exact howned.frame (hkept rfl) fun _ _ hp => .inl hp
  · exact howned.frame (hkept rfl) fun _ _ hp => .inl hp

/-- The steps of one session leave the others as they are kept. -/
theorem kept_of_session {j k : Nat} {a : PeerAction Event} (hne : j ≠ k)
    (h : (rpcServer ssl).step s (.session j a) = some s') (hk : Kept s k) : Kept s' k := by
  obtain ⟨p, p', thrown, -, -, -, rfl⟩ := step_session h
  rcases hk with hmem | hregistering
  · cases a with
    | handle e => exact .inl hmem
    | sessionOver => exact .inl ((List.mem_erase_of_ne (Ne.symm hne)).mpr hmem)
  · exact .inr hregistering

theorem Owned.session (howned : Owned ssl s) {j : Nat} {a : PeerAction Event}
    (hquiet : ∀ (k : Nat) (p : Peer Life), s.peers[k]? = some p → Undispatched p.life)
    (rule : Answered s (.session j a))
    (h : (rpcServer ssl).step s (.session j a) = some s') : Owned ssl s' := by
  have hothers : ∀ k, j ≠ k → Kept s k → Kept s' k := fun k hne => kept_of_session hne h
  obtain ⟨p₀, p', thrown, hp₀, -, htaken, rfl⟩ := step_session h
  intro k p hp hpending
  refine owners_pos_iff.mpr ?_
  rcases getElem?_of_set hp with ⟨rfl, rfl⟩ | ⟨hne, hold⟩
  -- the session itself: the rule is about the two steps that may take its last owner
  · cases a with
    | handle e =>
        have hmoves := moves_of_handle (peerStep_handle htaken).1
        rcases hmoves.held (hquiet j p₀ hp₀) hpending with
          hheld | ⟨ec, left, shutdown, rfl, hfinishes, hlast, hended, hold⟩ | ⟨rfl, hlast, hold⟩
        · exact .inr hheld
        · by_cases hk : Kept s j
          · exact .inl hk
          · exact absurd (rule p₀ hp₀ hfinishes hlast hended hk) (Nat.ne_of_gt hold)
        · by_cases hk : Kept s j
          · exact .inl hk
          · exact absurd (rule p₀ hp₀ hlast hk) (Nat.ne_of_gt hold)
    | sessionOver =>
        -- it is out of the list, and its handler runs on
        obtain ⟨hover, -, -⟩ := peerStep_sessionOver htaken
        obtain ⟨-, hlife⟩ := sessionOver_eq_some hover
        rw [hlife]
        exact .inr (holders_of_chain Chain.noConfusion Chain.noConfusion)
  -- another one: nothing has changed for it
  · rcases owners_pos_iff.mp (howned k p hold hpending) with hk | hheld
    · exact .inl (hothers k hne hk)
    · exact .inr hheld

theorem Owned.step (howned : Owned ssl s) {a : Action AcceptIo Event}
    (hquiet : ∀ (k : Nat) (p : Peer Life), s.peers[k]? = some p → Undispatched p.life)
    (rule : Answered s a) (h : (rpcServer ssl).step s a = some s') : Owned ssl s' := by
  cases a with
  | accept io => exact howned.accept h
  | register =>
      obtain ⟨j, hj, rfl⟩ := step_register h
      refine howned.frame ?_ fun _ _ hp => .inl hp
      rintro k (hmem | hregistering)
      · exact .inl (List.mem_append_left _ hmem)
      · obtain rfl := OnAccept.registering.inj (hj.symm.trans hregistering)
        exact .inl (List.mem_append_right _ (List.mem_singleton_self j))
  | doAccept =>
      obtain ⟨hfinishing, rfl⟩ := step_doAccept h
      refine howned.frame ?_ fun _ _ hp => .inl hp
      rintro k (hmem | hregistering)
      · exact .inl hmem
      · cases hfinishing.symm.trans hregistering
  | session k b => exact howned.session hquiet rule h

theorem undispatched_of_runs {C : Server Life → Action AcceptIo Event → Prop}
    (h : Runs ssl C s) : ∀ (k : Nat) (p : Peer Life), s.peers[k]? = some p →
      Undispatched p.life := by
  intro k p hp
  have hpeer := peer_reaches (D := fun _ _ => True) (fun _ _ _ _ _ _ => trivial) h k p hp
  exact undispatched_of_reaches hpeer

theorem owned_of_runs (h : Runs ssl Answered s) : Owned ssl s := by
  refine h.invariant_over (I := Owned ssl) (fun t ht => undispatched_of_runs ht) ?_ ?_
  · intro k p hp
    cases hp
  · intro t a t' hquiet howned rule hstep
    exact howned.step hquiet rule hstep

/-- A closure that has not run can run as long as its session has an owner. -/
theorem doneCallback_runs {k : Nat} {p : Peer Life} (hrunning : s.escaped = none)
    (hp : s.peers[k]? = some p) (hpending : 0 < p.life.closures)
    (howned : 0 < (rpcServer ssl).owners s k p) :
    ∃ s', (rpcServer ssl).step s (.session k (.handle .doneCallback)) = some s' := by
  have hstep : (rpcServer ssl).peerStep p (.handle .doneCallback) = some
      (⟨{ p.life with writes := p.life.writes + 1, closures := p.life.closures - 1 }, p.overs⟩,
        none) := by
    show Option.map _ (if 0 < p.life.closures then _ else _) = _
    rw [if_pos hpending]
    rfl
  exact ⟨_, step_session_of_owned hrunning hp howned hstep⟩

/-- A session that nobody keeps has no owner when its chain has ended and no
    write is outstanding. -/
theorem owners_eq_zero {k : Nat} {p : Peer Life} (hkept : ¬ Kept s k)
    (hended : p.life.chain = .ended) (hwrites : p.life.writes = 0) :
    (rpcServer ssl).owners s k p = 0 := by
  refine Nat.eq_zero_of_not_pos fun howned => ?_
  rcases owners_pos_iff.mp howned with hk | hheld
  · exact hkept hk
  · rw [holders_ended hended hwrites] at hheld
    exact Nat.lt_irrefl 0 hheld

/-- A closure that has not run, and whose session has no owner. -/
def Unowned (ssl : Bool) (s : Server Life) : Prop :=
  ∃ k p, s.peers[k]? = some p ∧ 0 < p.life.closures ∧ (rpcServer ssl).owners s k p = 0

theorem unowned_of_readReturns {k : Nat}
    (hnot : ¬ Answered s (.session k (.handle .readReturns)))
    (h : (rpcServer ssl).step s (.session k (.handle .readReturns)) = some s') :
    Unowned ssl s' := by
  simp only [Answered, not_forall] at hnot
  obtain ⟨p, hp, hwrites, hkept, hpending⟩ := hnot
  obtain ⟨p₀, p', thrown, hp₀, -, htaken, rfl⟩ := step_session h
  obtain rfl : p₀ = p := Option.some.inj (hp₀.symm.trans hp)
  have hhandle : handle p₀.life .readReturns = some (p'.life, thrown) :=
    (peerStep_handle htaken).1
  have hlife := (moves_of_handle hhandle).returns
  refine ⟨k, p', List.getElem?_set_self (List.getElem?_eq_some_iff.mp hp₀).1, ?_, ?_⟩
  · rw [hlife]
    exact Nat.pos_of_ne_zero hpending
  · exact owners_eq_zero hkept (by rw [hlife]) (by rw [hlife, hwrites])

theorem unowned_of_onWrite {k : Nat} {ec shutdown : ErrorCode} {left : Bool}
    (hnot : ¬ Answered s (.session k (.handle (.onWrite ec left shutdown))))
    (h : (rpcServer ssl).step s (.session k (.handle (.onWrite ec left shutdown))) = some s') :
    Unowned ssl s' := by
  simp only [Answered, not_forall] at hnot
  obtain ⟨p, hp, hfinishes, hlast, hended, hkept, hpending⟩ := hnot
  obtain ⟨p₀, p', thrown, hp₀, -, htaken, rfl⟩ := step_session h
  obtain rfl : p₀ = p := Option.some.inj (hp₀.symm.trans hp)
  have hhandle : handle p₀.life (.onWrite ec left shutdown) = some (p'.life, thrown) :=
    (peerStep_handle htaken).1
  have hlife := (moves_of_handle hhandle).finishes hfinishes
  refine ⟨k, p', List.getElem?_set_self (List.getElem?_eq_some_iff.mp hp₀).1, ?_, ?_⟩
  · rw [hlife]
    exact Nat.pos_of_ne_zero hpending
  · exact owners_eq_zero hkept (by rw [hlife, hended]) (by rw [hlife, hlast])

/-- **WHAT THE RULE LEAVES OUT** takes the last owner from a closure. -/
theorem unowned_of_not_answered {a : Action AcceptIo Event} (hnot : ¬ Answered s a)
    (h : (rpcServer ssl).step s a = some s') : Unowned ssl s' := by
  cases a with
  | accept io => exact absurd trivial hnot
  | register => exact absurd trivial hnot
  | doAccept => exact absurd trivial hnot
  | session k b =>
      cases b with
      | sessionOver => exact absurd trivial hnot
      | handle e =>
          cases e with
          | onWrite ec left shutdown => exact unowned_of_onWrite hnot h
          | readReturns => exact unowned_of_readReturns hnot h
          | onHandshake ec => exact absurd trivial hnot
          | onRead ec io => exact absurd trivial hnot
          | dispatch => exact absurd trivial hnot
          | reject => exact absurd trivial hnot
          | doRead => exact absurd trivial hnot
          | doneCallback => exact absurd trivial hnot
          | callMethod => exact absurd trivial hnot

end Owners

/-- **PENDING REPLIES KEEP THEIR SESSION OWNED**, so that `done_callback` can
    run, in every run in which the services have answered when a session's last
    owner goes; a step that breaks the rule takes the owner from a closure. -/
theorem closures_owned (ssl : Bool) :
    (∀ s, Runs ssl Answered s → ∀ k p, s.peers[k]? = some p → 0 < p.life.closures →
      0 < (rpcServer ssl).owners s k p ∧ (s.escaped = none →
        ∃ s', (rpcServer ssl).step s (.session k (.handle .doneCallback)) = some s')) ∧
    ∀ s a s', Runs ssl (fun _ _ => True) s → (rpcServer ssl).step s a = some s' →
      ¬ Answered s a → Unowned ssl s' := by
  refine ⟨?_, ?_⟩
  · intro s h k p hp hpending
    have howned := owned_of_runs h k p hp hpending
    exact ⟨howned, fun hrunning => doneCallback_runs hrunning hp hpending howned⟩
  · intro s a s' _ hstep hnot
    exact unowned_of_not_answered hnot hstep

/-- A request whose answer is written when the client has gone, and another one
    that has not been answered yet. -/
def twoRequests : List (Action AcceptIo Event) :=
  [.accept ⟨0, 0, 0⟩, .register, .doAccept,
    .session 0 (.handle (.onRead 0 ⟨true, 0, 0⟩)), .session 0 (.handle .dispatch),
    .session 0 (.handle .dispatch), .session 0 (.handle .doRead),
    .session 0 (.handle .doneCallback), .session 0 (.handle (.onRead eof ⟨true, 0, 0⟩)),
    .session 0 .sessionOver, .session 0 (.handle .readReturns)]

theorem closures_owned_by_write :
    ∃ s p, guardedRun (rpcServer false).step Answered Server.start twoRequests = some s ∧
      s.peers[0]? = some p ∧ s.sessions = [] ∧ 0 < p.life.closures ∧
      0 < (rpcServer false).owners s 0 p := by
  have hrun : (guardedRun (rpcServer false).step Answered Server.start twoRequests).map
      (fun s => (s.peers, s.sessions)) = some ([⟨⟨.ended, 1, 1⟩, 1⟩], []) := by
    decide +kernel
  obtain ⟨s, hs, hend⟩ := Option.map_eq_some_iff.mp hrun
  obtain ⟨hpeers, hsessions⟩ := Prod.mk.inj hend
  have hp : s.peers[0]? = some ⟨⟨.ended, 1, 1⟩, 1⟩ := by
    rw [hpeers]
    rfl
  have hpending : 0 < (⟨.ended, 1, 1⟩ : Life).closures := Nat.one_pos
  have howned := ((closures_owned false).1 s (reaches_of_guardedRun hs) 0 _ hp hpending).1
  exact ⟨s, _, hs, hp, hsessions, hpending, howned⟩

/-- The client goes away before the service has answered its request. -/
theorem closure_outlives_session :
    ∃ s, Runs false (fun _ _ => True) s ∧ ∃ p, s.peers[0]? = some p ∧ 0 < p.life.closures ∧
      (rpcServer false).owners s 0 p = 0 := by
  have hrun : (guardedRun (rpcServer false).step (fun _ _ => True) Server.start
      [.accept ⟨0, 0, 0⟩, .register, .doAccept,
        .session 0 (.handle (.onRead 0 ⟨true, 0, 0⟩)), .session 0 (.handle .dispatch),
        .session 0 (.handle .doRead), .session 0 (.handle (.onRead eof ⟨true, 0, 0⟩)),
        .session 0 .sessionOver, .session 0 (.handle .readReturns)]).map
      (fun s => (s.peers, s.sessions, s.onAccept)) = some ([⟨⟨.ended, 0, 1⟩, 1⟩], [], .armed) := by
    decide +kernel
  obtain ⟨s, hs, hend⟩ := exists_of_guardedRun hrun
  obtain ⟨hpeers, hrest⟩ := Prod.mk.inj hend
  obtain ⟨hsessions, harmed⟩ := Prod.mk.inj hrest
  refine ⟨s, hs, ⟨⟨.ended, 0, 1⟩, 1⟩, ?_, Nat.one_pos, ?_⟩
  · rw [hpeers]
    rfl
  · refine owners_eq_zero ?_ rfl rfl
    rw [Kept, hsessions, harmed]
    rintro (hmem | hregistering)
    · cases hmem
    · cases hregistering

end RpcServer
