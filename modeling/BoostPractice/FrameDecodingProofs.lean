import Mathlib.Data.List.Basic

/-! # Incremental decoding of a framed stream

    A framed stream is cut into pieces by whoever transports it, and a
    reader keeps what it cannot decode yet.  This file states what such a
    reader computes WITHOUT mentioning the pieces: a `Grammar` says what the
    front of a byte string is (a complete frame, the beginning of one, or
    something no continuation can repair), `Grammar.decode` splits a whole
    string at once, and `observe_feed` says that a loop which follows the
    grammar one frame at a time yields `decode` of everything received so
    far, however it was cut. -/

namespace FrameDecoding

variable {α ω σ ε : Type}

/-- What the front of an input is. -/
inductive Verdict (α ω : Type) where
  | more
  | fault
  | frame (out : ω) (rest : List α)

/-- A grammar of frames: a frame takes something off the input, and neither
    a complete frame nor a fault is changed by what follows it. -/
structure Grammar (α ω : Type) where
  next : List α → Verdict α ω
  shrinks : ∀ {s out r}, next s = .frame out r → r.length < s.length
  frame_append : ∀ {s out r}, next s = .frame out r → ∀ t, next (s ++ t) = .frame out (r ++ t)
  fault_append : ∀ {s}, next s = .fault → ∀ t, next (s ++ t) = .fault

/-! ## The reference decoder -/

/-- Decode at most `n` frames off the front. -/
def Grammar.decodeN (G : Grammar α ω) : Nat → List α → List ω × Option (List α)
  | 0, s => ([], some s)
  | n + 1, s =>
      match G.next s with
      | .more => ([], some s)
      | .fault => ([], none)
      | .frame out rest => (out :: (G.decodeN n rest).1, (G.decodeN n rest).2)

/-- All frames of a string, and its incomplete tail; no tail if the string
    runs into a fault. -/
def Grammar.decode (G : Grammar α ω) (s : List α) : List ω × Option (List α) :=
  G.decodeN (s.length + 1) s

/-- A string is shorter than its fuel, so more fuel changes nothing. -/
theorem Grammar.decodeN_fuel (G : Grammar α ω) :
    ∀ (n m : Nat) (s : List α), s.length < n → s.length < m →
      G.decodeN n s = G.decodeN m s := by
  intro n
  induction n with
  | zero => intro m s hn; exact absurd hn (Nat.not_lt_zero _)
  | succ n ih =>
      intro m s hn hm
      cases m with
      | zero => exact absurd hm (Nat.not_lt_zero _)
      | succ m =>
          rw [Grammar.decodeN, Grammar.decodeN]
          cases hs : G.next s with
          | more => rfl
          | fault => rfl
          | frame out r =>
              have hr : r.length < s.length := G.shrinks hs
              simp only [ih m r (by omega) (by omega)]

theorem Grammar.decode_more (G : Grammar α ω) {s : List α}
    (h : G.next s = .more) : G.decode s = ([], some s) := by
  rw [Grammar.decode, Grammar.decodeN, h]

theorem Grammar.decode_fault (G : Grammar α ω) {s : List α}
    (h : G.next s = .fault) : G.decode s = ([], none) := by
  rw [Grammar.decode, Grammar.decodeN, h]

theorem Grammar.decode_frame (G : Grammar α ω) {s r : List α} {out : ω}
    (h : G.next s = .frame out r) :
    G.decode s = (out :: (G.decode r).1, (G.decode r).2) := by
  have hr : r.length < s.length := G.shrinks h
  have hfuel : G.decodeN s.length r = G.decode r :=
    G.decodeN_fuel _ _ r hr (Nat.lt_succ_self _)
  rw [Grammar.decode, Grammar.decodeN, h]
  simp only [hfuel]

/-- **INDUCTION ON FRAMES**: a property of strings holds if it passes from
    what is left after the front frame to the string itself. -/
theorem Grammar.frame_induction (G : Grammar α ω) {P : List α → Prop}
    (more : ∀ s, G.next s = .more → P s)
    (fault : ∀ s, G.next s = .fault → P s)
    (frame : ∀ s out r, G.next s = .frame out r → P r → P s) :
    ∀ s, P s := by
  intro s
  induction hlen : s.length using Nat.strongRecOn generalizing s with
  | _ n ih =>
      cases hs : G.next s with
      | more => exact more s hs
      | fault => exact fault s hs
      | frame out r => exact frame s out r hs (ih r.length (hlen ▸ G.shrinks hs) r rfl)

/-- Complete frames one behind the other, and then one that is incomplete. -/
inductive Grammar.Clean (G : Grammar α ω) : List α → Prop where
  | more {s : List α} : G.next s = .more → G.Clean s
  | frame {s r : List α} {out : ω} : G.next s = .frame out r → G.Clean r → G.Clean s

/-- **NO FAULT** is met in these strings, and in no others. -/
theorem Grammar.decode_ne_none_iff (G : Grammar α ω) (s : List α) :
    (G.decode s).2 ≠ none ↔ G.Clean s := by
  constructor
  · revert s
    refine G.frame_induction ?_ ?_ ?_
    · intro s hs _
      exact .more hs
    · intro s hs h
      rw [G.decode_fault hs] at h
      exact absurd rfl h
    · intro s out r hs ih h
      rw [G.decode_frame hs] at h
      exact .frame hs (ih h)
  · intro h
    induction h with
    | more hs =>
        rw [G.decode_more hs]
        exact Option.some_ne_none _
    | frame hs _ ih =>
        rw [G.decode_frame hs]
        exact ih

/-- Decoding stops only where the front frame is incomplete. -/
theorem Grammar.next_decode_tail (G : Grammar α ω) :
    ∀ s r, (G.decode s).2 = some r → G.next r = .more := by
  refine G.frame_induction ?_ ?_ ?_
  · intro s hs r h
    rw [G.decode_more hs] at h
    exact Option.some.inj h ▸ hs
  · intro s hs r h
    rw [G.decode_fault hs] at h
    exact nomatch h
  · intro s out r' hs ih r h
    rw [G.decode_frame hs] at h
    exact ih r h

/-- **CUT INDEPENDENCE**: decoding `s ++ t` decodes `s`, then the tail of `s`
    followed by `t`. -/
theorem Grammar.decode_append (G : Grammar α ω) (t : List α) :
    ∀ s r, (G.decode s).2 = some r →
      G.decode (s ++ t) = ((G.decode s).1 ++ (G.decode (r ++ t)).1, (G.decode (r ++ t)).2) := by
  refine G.frame_induction ?_ ?_ ?_
  · intro s hs r h
    rw [G.decode_more hs] at h ⊢
    rw [← Option.some.inj h]
    rfl
  · intro s hs r h
    rw [G.decode_fault hs] at h
    exact nomatch h
  · intro s out r' hs ih r h
    rw [G.decode_frame hs] at h ⊢
    rw [G.decode_frame (G.frame_append hs t), ih r h]
    rfl

/-- A fault is final: nothing after it changes what was decoded. -/
theorem Grammar.decode_append_fault (G : Grammar α ω) (t : List α) :
    ∀ s, (G.decode s).2 = none → G.decode (s ++ t) = G.decode s := by
  refine G.frame_induction ?_ ?_ ?_
  · intro s hs h
    rw [G.decode_more hs] at h
    exact nomatch h
  · intro s hs _
    rw [G.decode_fault hs, G.decode_fault (G.fault_append hs t)]
  · intro s out r hs ih h
    rw [G.decode_frame hs] at h ⊢
    rw [G.decode_frame (G.frame_append hs t), ih h]

/-- **NO LOOKING AHEAD**: of a string without a fault, what is decoded begins
    with what is decoded of its front. -/
theorem Grammar.decode_front (G : Grammar α ω) {s t : List α}
    (h : (G.decode (s ++ t)).2 ≠ none) :
    (G.decode s).2 ≠ none ∧ (G.decode s).1 <+: (G.decode (s ++ t)).1 := by
  have hs : (G.decode s).2 ≠ none := by
    intro hnone
    rw [G.decode_append_fault t s hnone] at h
    exact h hnone
  obtain ⟨r, hr⟩ := Option.ne_none_iff_exists'.mp hs
  refine ⟨hs, ?_⟩
  rw [G.decode_append t s r hr]
  exact List.prefix_append _ _

/-- What is decoded from a string is the answer of the grammar somewhere. -/
theorem Grammar.mem_decode (G : Grammar α ω) {out : ω} :
    ∀ s, out ∈ (G.decode s).1 → ∃ s' r, G.next s' = .frame out r := by
  refine G.frame_induction ?_ ?_ ?_
  · intro s hs h
    rw [G.decode_more hs] at h
    exact nomatch h
  · intro s hs h
    rw [G.decode_fault hs] at h
    exact nomatch h
  · intro s out' r hs ih h
    rw [G.decode_frame hs] at h
    rcases List.mem_cons.mp h with rfl | hlater
    · exact ⟨s, r, hs⟩
    · exact ih hlater

/-- Where a frame is not complete yet, the grammar asks for more. -/
theorem Grammar.next_more_of_append (G : Grammar α ω) {s t r : List α} {out : ω}
    (h : G.next (s ++ t) = .frame out r) (hlt : r.length < t.length) : G.next s = .more := by
  cases hs : G.next s with
  | more => rfl
  | fault => cases (G.fault_append hs t).symm.trans h
  | frame out' r' =>
      -- a frame that is complete before the end would end before it
      have hr : r' ++ t = r := (Verdict.frame.inj ((G.frame_append hs t).symm.trans h)).2
      rw [← hr, List.length_append] at hlt
      omega

/-! ## Frames put one after the other -/

/-- Decoding the concatenation of complete frames gives their contents, in
    order, and leaves nothing. -/
theorem Grammar.decode_frames (G : Grammar α ω) {β : Type} (enc : β → List α) (out : β → ω)
    (hnil : G.next [] = .more) :
    ∀ bs : List β, (∀ b ∈ bs, ∀ t, G.next (enc b ++ t) = .frame (out b) t) →
      G.decode (bs.map enc).flatten = (bs.map out, some []) := by
  intro bs
  induction bs with
  | nil =>
      intro _
      exact G.decode_more hnil
  | cons b bs ih =>
      intro hnext
      have hrest := ih fun b' hb' => hnext b' (List.mem_cons_of_mem _ hb')
      rw [List.map_cons, List.flatten_cons, G.decode_frame (hnext b List.mem_cons_self _), hrest]
      rfl

/-! ## A loop that follows a grammar -/

/-- The loop `while (step)`: run the body until it asks to stop, collecting
    what it hands out. -/
def loopN (step : σ → Except ε (Option (ω × σ))) : Nat → σ → List ω × Except ε σ
  | 0, s => ([], .ok s)
  | n + 1, s =>
      match step s with
      | .error e => ([], .error e)
      | .ok none => ([], .ok s)
      | .ok (some (w, s')) => (w :: (loopN step n s').1, (loopN step n s').2)

/-- Feed a reader one piece after the other, until it fails. -/
def feed (read : σ → List α → List ω × Except ε σ) : σ → List (List α) → List ω × Except ε σ
  | s, [] => ([], .ok s)
  | s, c :: cs =>
      match read s c with
      | (ws, .error e) => (ws, .error e)
      | (ws, .ok s') => (ws ++ (feed read s' cs).1, (feed read s' cs).2)

/-- What a run shows: what it handed out, and what it still buffers. -/
def observe (buffered : σ → List α) (x : List ω × Except ε σ) : List ω × Option (List α) :=
  (x.1, x.2.toOption.map buffered)

/-- One body of the loop does what the grammar says of the buffered input. -/
structure Follows (G : Grammar α ω) (buffered : σ → List α)
    (step : σ → Except ε (Option (ω × σ))) : Prop where
  more : ∀ s, G.next (buffered s) = .more → step s = .ok none
  fault : ∀ s, G.next (buffered s) = .fault → ∃ e, step s = .error e
  frame : ∀ s out r, G.next (buffered s) = .frame out r →
    ∃ s', step s = .ok (some (out, s')) ∧ buffered s' = r

theorem observe_loopN {G : Grammar α ω} {buffered : σ → List α}
    {step : σ → Except ε (Option (ω × σ))} (hstep : Follows G buffered step) :
    ∀ (n : Nat) (s : σ), observe buffered (loopN step n s) = G.decodeN n (buffered s) := by
  intro n
  induction n with
  | zero => intro s; rfl
  | succ n ih =>
      intro s
      rw [loopN, Grammar.decodeN]
      cases hs : G.next (buffered s) with
      | more =>
          rw [hstep.more s hs]
          rfl
      | fault =>
          obtain ⟨e, he⟩ := hstep.fault s hs
          rw [he]
          rfl
      | frame out r =>
          obtain ⟨s', hs', hr⟩ := hstep.frame s out r hs
          have hrec := ih s'
          rw [hr] at hrec
          rw [hs']
          simp only [← hrec]
          rfl

/-- **FEEDING IS DECODING**: a reader each of whose calls decodes what it
    has buffered together with the new piece yields, over any sequence of
    pieces, the decoding of the whole. -/
theorem observe_feed {G : Grammar α ω} {buffered : σ → List α}
    {read : σ → List α → List ω × Except ε σ}
    (hread : ∀ s c, observe buffered (read s c) = G.decode (buffered s ++ c)) :
    ∀ (cs : List (List α)) (s : σ), G.next (buffered s) = .more →
      observe buffered (feed read s cs) = G.decode (buffered s ++ cs.flatten) := by
  intro cs
  induction cs with
  | nil =>
      intro s hs
      rw [List.flatten_nil, List.append_nil, G.decode_more hs]
      rfl
  | cons c cs ih =>
      intro s _
      have hc := hread s c
      rw [List.flatten_cons, ← List.append_assoc, feed]
      rcases hr : read s c with ⟨ws, e | s'⟩
      · rw [hr] at hc
        have hnone : (G.decode (buffered s ++ c)).2 = none := by rw [← hc]; rfl
        rw [G.decode_append_fault _ _ hnone, ← hc]
      · rw [hr] at hc
        have hout : (G.decode (buffered s ++ c)).1 = ws := by rw [← hc]; rfl
        have hsome : (G.decode (buffered s ++ c)).2 = some (buffered s') := by rw [← hc]; rfl
        have hs' := ih s' (G.next_decode_tail _ _ hsome)
        rw [G.decode_append _ _ _ hsome, ← hs', hout]
        rfl

/-! ## Where a reader ends

    A reader that does not follow a grammar is described by the tests of its
    loop: `Ends` follows it from one test to the next, through the pieces
    still to come, up to what it ends with. -/

/-- In a test of the loop, with the pieces `cs` to come, this is what the
    reader ends with. -/
inductive Ends (arrive : σ → List α → σ) (step : σ → Except ε (Option (ω × σ))) :
    σ → List (List α) → Except ε σ → Prop where
  | failed {s : σ} {cs : List (List α)} {e : ε} (fails : step s = .error e) :
      Ends arrive step s cs (.error e)
  | finished {s : σ} (left : step s = .ok none) : Ends arrive step s [] (.ok s)
  | piece {s : σ} {c : List α} {cs : List (List α)} {r : Except ε σ} (left : step s = .ok none)
      (rest : Ends arrive step (arrive s c) cs r) : Ends arrive step s (c :: cs) r
  | again {s s' : σ} {w : ω} {cs : List (List α)} {r : Except ε σ}
      (taken : step s = .ok (some (w, s'))) (rest : Ends arrive step s' cs r) :
      Ends arrive step s cs r

/-- The end of feeding is that of the first piece, or of the others. -/
theorem feed_cons_snd (read : σ → List α → List ω × Except ε σ) (s : σ) (c : List α)
    (cs : List (List α)) :
    (feed read s (c :: cs)).2 = (read s c).2 >>= fun s' => (feed read s' cs).2 := by
  rw [feed]
  rcases read s c with ⟨ws, e | s'⟩
  · rfl
  · rfl

/-- One piece more. -/
theorem feed_concat (read : σ → List α → List ω × Except ε σ) {cs : List (List α)} :
    ∀ {s s' : σ} {ws : List ω}, feed read s cs = (ws, .ok s') → ∀ c : List α,
      feed read s (cs ++ [c]) = (ws ++ (read s' c).1, (read s' c).2) := by
  induction cs with
  | nil =>
      intro s s' ws h c
      obtain ⟨rfl, hs⟩ := Prod.mk.inj h
      obtain rfl := Except.ok.inj hs
      show feed read s [c] = _
      rw [feed]
      rcases read s c with ⟨ws', e | s₁⟩
      · rfl
      · show (ws' ++ [], Except.ok s₁) = _
        rw [List.append_nil]
        rfl
  | cons c' cs ih =>
      intro s s' ws h c
      rw [feed] at h
      rw [List.cons_append, feed]
      rcases hread : read s c' with ⟨ws', e | s₁⟩
      · rw [hread] at h
        cases (Prod.mk.inj h).2
      · rw [hread] at h
        obtain ⟨rfl, hs⟩ := Prod.mk.inj h
        have hrest := ih (s := s₁) (show _ = ((feed read s₁ cs).1, Except.ok s') by rw [← hs]) c
        show (ws' ++ (feed read s₁ (cs ++ [c])).1, (feed read s₁ (cs ++ [c])).2) = _
        rw [hrest, List.append_assoc]

section Ends

variable {arrive : σ → List α → σ} {step : σ → Except ε (Option (ω × σ))} {size : σ → Nat}

/-- With enough fuel a loop runs until a test fails or leaves it, and then
    comes what follows the loop. -/
theorem ends_loopN (hsize : ∀ s w s', step s = .ok (some (w, s')) → size s' < size s)
    {cs : List (List α)} {follow : σ → Except ε σ}
    (hfollow : ∀ s, step s = .ok none → Ends arrive step s cs (follow s)) :
    ∀ (n : Nat) (s : σ), size s < n → Ends arrive step s cs ((loopN step n s).2 >>= follow) := by
  intro n
  induction n with
  | zero => intro s h; exact absurd h (Nat.not_lt_zero _)
  | succ n ih =>
      intro s h
      rw [loopN]
      rcases hs : step s with e | _ | ⟨w, s'⟩
      · exact .failed hs
      · exact hfollow s hs
      · have hlt := hsize s w s' hs
        exact .again hs (ih s' (by omega))

/-- **A READER ENDS**: feeding a reader that runs a loop on each piece ends
    as the tests of the loop say. -/
theorem ends_feed (hsize : ∀ s w s', step s = .ok (some (w, s')) → size s' < size s)
    {read : σ → List α → List ω × Except ε σ}
    (hread : ∀ s c, read s c = loopN step (size (arrive s c) + 1) (arrive s c)) :
    ∀ (cs : List (List α)) (s : σ), step s = .ok none →
      Ends arrive step s cs (feed read s cs).2 := by
  intro cs
  induction cs with
  | nil => intro s hs; exact .finished hs
  | cons c cs ih =>
      intro s hs
      rw [feed_cons_snd, hread]
      exact .piece hs (ends_loopN hsize ih _ _ (Nat.lt_succ_self _))

end Ends

/-! ## What a reader does between two tests

    The same reader with what it hands out: `readOn` is the rest of a run,
    from a test of the loop on. -/

section ReadOn

/-- A state is larger than what is left of it after a body, so more fuel
    changes nothing. -/
theorem loopN_fuel {step : σ → Except ε (Option (ω × σ))} {size : σ → Nat}
    (hsize : ∀ s w s', step s = .ok (some (w, s')) → size s' < size s) :
    ∀ (n m : Nat) (s : σ), size s < n → size s < m → loopN step n s = loopN step m s := by
  intro n
  induction n with
  | zero => intro m s hn; exact absurd hn (Nat.not_lt_zero _)
  | succ n ih =>
      intro m s hn hm
      cases m with
      | zero => exact absurd hm (Nat.not_lt_zero _)
      | succ m =>
          rw [loopN, loopN]
          rcases hs : step s with e | _ | ⟨w, s'⟩
          · rfl
          · rfl
          · have hlt := hsize s w s' hs
            simp only [ih m s' (by omega) (by omega)]

variable (arrive : σ → List α → σ) (step : σ → Except ε (Option (ω × σ))) (size : σ → Nat)

/-- Take a piece in, and run the loop. -/
def loopReader (s : σ) (c : List α) : List ω × Except ε σ :=
  loopN step (size (arrive s c) + 1) (arrive s c)

/-- From a test of the loop on, with the pieces `cs` to come. -/
def readOn (s : σ) (cs : List (List α)) : List ω × Except ε σ :=
  match loopN step (size s + 1) s with
  | (ws, .error e) => (ws, .error e)
  | (ws, .ok s') =>
      (ws ++ (feed (loopReader arrive step size) s' cs).1,
        (feed (loopReader arrive step size) s' cs).2)

variable {arrive step size}

theorem readOn_failed {s : σ} {e : ε} (h : step s = .error e) (cs : List (List α)) :
    readOn arrive step size s cs = ([], .error e) := by
  rw [readOn, loopN, h]

/-- Where the loop is left, the rest is fed. -/
theorem readOn_left {s : σ} (h : step s = .ok none) (cs : List (List α)) :
    readOn arrive step size s cs = feed (loopReader arrive step size) s cs := by
  rw [readOn, loopN, h]
  rfl

theorem readOn_piece {s : σ} (h : step s = .ok none) (c : List α) (cs : List (List α)) :
    readOn arrive step size s (c :: cs) = readOn arrive step size (arrive s c) cs := by
  rw [readOn_left h]
  rfl

theorem readOn_again (hsize : ∀ s w s', step s = .ok (some (w, s')) → size s' < size s)
    {s s' : σ} {w : ω} (h : step s = .ok (some (w, s'))) (cs : List (List α)) :
    readOn arrive step size s cs
      = (w :: (readOn arrive step size s' cs).1, (readOn arrive step size s' cs).2) := by
  have hlt := hsize s w s' h
  have hfuel : loopN step (size s) s' = loopN step (size s' + 1) s' :=
    loopN_fuel hsize _ _ s' hlt (Nat.lt_succ_self _)
  rw [readOn, readOn, loopN, h]
  simp only [hfuel]
  rcases loopN step (size s' + 1) s' with ⟨ws, e | s''⟩
  · rfl
  · rfl

end ReadOn

end FrameDecoding
