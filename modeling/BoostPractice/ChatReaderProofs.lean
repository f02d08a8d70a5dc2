import BoostPractice.PrefixReaderProofs

/-! # The readers of the chat programs

    `session::on_read` and `boost_client_async::on_read` have the same two
    guards: the loop runs while MORE than four bytes are readable, the body
    when the length and the message are there.  A message of no bytes is
    complete with its four bytes of length, and the loop does not look at it
    until something follows.

    `delivery_iff` says for which ways of cutting a stream every message is
    delivered as soon as it is complete. -/

namespace ChatReader

open MachineInt FrameDecoding BoostBuffer PrefixReader
open RpcCodecRead (lengthField)

/-! ## The two readers -/

/-- `readableBytes() > sizeof(int32_t)`, and `len + sizeof(int32_t)`, which is
    a `size_t`. -/
def chatGuard : Guard where
  fewest := 4 + 1
  needed len := .ok (toSizeT (len.toInt + 4))
  four_le := by decide
  needed_eq := by
    intro len n h hn
    have hlt := len.toInt_lt
    rw [← Except.ok.inj hn, toSizeT_of_nonneg (by omega) (by omega)]
    omega

/-- The string is made first, and dropped from the buffer then. -/
def copyThenRetrieve (b : Buffer) (n : Nat) : Except Misuse (Bytes × Buffer) := do
  let message ← makeString b n
  let b ← retrieve b n
  return (message, b)

/-- `session::on_read`: the messages `messageCb_` is called with. -/
def sessionOnRead (inputBuffer : Buffer) (bytes : Bytes) : List Bytes × Except Misuse Buffer :=
  let b := inputBuffer.append bytes
  loopN (readerStep chatGuard copyThenRetrieve) (b.readableBytes + 1) b

/-- `boost_client_async::on_read`: the messages printed. -/
def clientOnRead (inputBuffer : Buffer) (bytes : Bytes) : List Bytes × Except Misuse Buffer :=
  let b := inputBuffer.append bytes
  loopN (readerStep chatGuard retrieveAsString) (b.readableBytes + 1) b

theorem copyThenRetrieve_copies : Copies copyThenRetrieve where
  fits := by
    intro b n h hmax
    obtain ⟨b', hb', hcontent⟩ := retrieve_ok h
    refine ⟨b', ?_, hcontent⟩
    rw [copyThenRetrieve, makeString_ok h hmax, hb']
    rfl
  exceeds := by
    intro b n h
    rw [copyThenRetrieve, makeString_exceeds b h]
    exact ⟨_, rfl⟩

theorem sessionOnRead_reads : Reads chatGuard sessionOnRead where
  observe b bytes := observe_readerLoop chatGuard copyThenRetrieve_copies (b.content_append bytes)

theorem clientOnRead_reads : Reads chatGuard clientOnRead where
  observe b bytes := observe_readerLoop chatGuard retrieveAsString_copies (b.content_append bytes)

/-! ## What has to be delivered, and what is -/

/-- The messages whose frames lie within the first `n` bytes of a stream. -/
def completeMessages : List Bytes → Nat → List Bytes
  | [], _ => []
  | m :: ms, n =>
      if 4 + m.length ≤ n then m :: completeMessages ms (n - (4 + m.length)) else []

/-- The messages that the loop reads of them. -/
def readMessages : List Bytes → Nat → List Bytes
  | [], _ => []
  | m :: ms, n =>
      if 4 < n ∧ 4 + m.length ≤ n then m :: readMessages ms (n - (4 + m.length)) else []

/-- The first `n` bytes of a stream end with the frame of an empty message. -/
def EndsEmpty (msgs : List Bytes) (n : Nat) : Prop :=
  ∃ before after, msgs = before ++ [] :: after ∧
    n = ((before ++ [[]]).map messageFrame).flatten.length

/-- **DELIVERY**: whatever part of the stream has been received, exactly the
    complete messages have been delivered, in order, and nothing is left at
    the end. -/
def Delivers (read : Buffer → Bytes → List Bytes × Except Misuse Buffer)
    (msgs chunks : List Bytes) : Prop :=
  (∀ received, received <+: chunks → ∃ b : Buffer,
    feed read (Buffer.new kInitialSize) received
      = (completeMessages msgs received.flatten.length, .ok b)) ∧
  ∃ b : Buffer, (feed read (Buffer.new kInitialSize) chunks).2 = .ok b ∧ b.readableBytes = 0

@[simp]
theorem length_messageFrame (m : Bytes) : (messageFrame m).length = 4 + m.length := by
  rw [messageFrame, List.length_append, length_int32Bytes]

theorem endsEmpty_nil (n : Nat) : ¬ EndsEmpty [] n := by
  rintro ⟨before, after, h, -⟩
  cases before with
  | nil => cases h
  | cons _ _ => cases h

/-- The empty message is the first one, or one of the others. -/
theorem endsEmpty_cons (m : Bytes) (ms : List Bytes) (n : Nat) :
    EndsEmpty (m :: ms) n ↔
      (m = [] ∧ n = 4) ∨ (4 + m.length ≤ n ∧ EndsEmpty ms (n - (4 + m.length))) := by
  constructor
  · rintro ⟨before, after, h, hn⟩
    cases before with
    | nil =>
        obtain ⟨rfl, -⟩ := List.cons.inj h
        exact .inl ⟨rfl, hn⟩
    | cons m' before =>
        obtain ⟨rfl, rfl⟩ := List.cons.inj h
        rw [List.cons_append, List.map_cons, List.flatten_cons, List.length_append,
          length_messageFrame] at hn
        exact .inr ⟨by omega, before, after, rfl, by omega⟩
  · rintro (⟨rfl, rfl⟩ | ⟨hle, before, after, rfl, hn⟩)
    · exact ⟨[], ms, rfl, rfl⟩
    · refine ⟨m :: before, after, rfl, ?_⟩
      rw [List.cons_append, List.map_cons, List.flatten_cons, List.length_append,
        length_messageFrame, ← hn]
      omega

/-- The loop keeps back an empty message at the end, and no other. -/
theorem readMessages_eq_iff (msgs : List Bytes) (n : Nat) :
    readMessages msgs n = completeMessages msgs n ↔ ¬ EndsEmpty msgs n := by
  induction msgs generalizing n with
  | nil => exact iff_of_true rfl (endsEmpty_nil n)
  | cons m ms ih =>
      rw [endsEmpty_cons, readMessages, completeMessages]
      by_cases hle : 4 + m.length ≤ n
      · by_cases hfew : 4 < n
        · rw [if_pos ⟨hfew, hle⟩, if_pos hle]
          have hhead : ¬ (m = [] ∧ n = 4) := fun h => by omega
          constructor
          · rintro h (hempty | ⟨-, hends⟩)
            · exact hhead hempty
            · exact (ih _).mp (List.cons.inj h).2 hends
          · intro h
            rw [(ih _).mpr fun hends => h (.inr ⟨hle, hends⟩)]
        · -- four bytes and no more: the length of an empty message
          rw [if_neg fun h => hfew h.1, if_pos hle]
          have hm : m = [] := List.eq_nil_of_length_eq_zero (by omega)
          refine iff_of_false (List.cons_ne_nil _ _).symm ?_
          exact fun h => h (.inl ⟨hm, by omega⟩)
      · rw [if_neg fun h => hle h.2, if_neg hle]
        refine iff_of_true rfl ?_
        rintro (⟨rfl, rfl⟩ | ⟨h, -⟩)
        · exact hle (Nat.le_refl 4)
        · exact hle h

/-- All of the stream has all of the messages. -/
theorem completeMessages_all (msgs : List Bytes) :
    completeMessages msgs (msgs.map messageFrame).flatten.length = msgs := by
  induction msgs with
  | nil => rfl
  | cons m ms ih =>
      rw [List.map_cons, List.flatten_cons, List.length_append, length_messageFrame,
        completeMessages, if_pos (Nat.le_add_right _ _), Nat.add_sub_cancel_left, ih]

/-! ## The loop on a part of the stream -/

theorem chatGuard_needed (len : Int32) :
    ∃ n, chatGuard.needed len = .ok n := ⟨toSizeT (len.toInt + 4), rfl⟩

/-- A first message that has not arrived in full is waited for. -/
theorem prefixNext_incomplete {m t s : Bytes} (hsize : m.length < 2 ^ 31)
    (hs : s <+: messageFrame m ++ t) (hshort : s.length ≤ 4 ∨ s.length < 4 + m.length) :
    prefixNext chatGuard s = .more := by
  by_cases hfew : s.length < chatGuard.fewest
  · exact if_pos hfew
  · -- the length is there, and is that of the message
    have hfive : 4 + 1 ≤ s.length := Nat.le_of_not_lt hfew
    have hlen : (Int32.ofNat m.length).toInt = m.length := Int32.toInt_ofNat_of_lt hsize
    have hfield : lengthField s = Int32.ofNat m.length :=
      lengthField_messageFrame hs (Nat.le_of_succ_le hfive)
    have hneeded : chatGuard.needed (lengthField s) = .ok (4 + m.length) := by
      have hn : (toSizeT ((lengthField s).toInt + 4) : Int) = (4 + m.length : Nat) := by
        rw [hfield, hlen, toSizeT_of_nonneg (by omega) (by omega)]
        omega
      show Except.ok (toSizeT ((lengthField s).toInt + 4)) = _
      rw [Int.ofNat.inj hn]
    rcases prefixNext_cases chatGuard s with ⟨h, -⟩ | ⟨-, -, ⟨misuse, h⟩ | ⟨-, -, -, h⟩⟩ |
      ⟨n, hn, -, -, hle, -⟩
    · exact h
    · cases hneeded.symm.trans h
    · rw [hfield, hlen] at h
      omega
    · rw [hfield, hlen] at hn
      omega

/-- What is decoded of a part of the stream, and what is kept. -/
theorem decode_part {msgs : List Bytes} (hsize : ∀ m ∈ msgs, m.length < 2 ^ 31) :
    ∀ {s : Bytes}, s <+: (msgs.map messageFrame).flatten →
      (prefixGrammar chatGuard).decode s = (readMessages msgs s.length,
        some (s.drop ((readMessages msgs s.length).map messageFrame).flatten.length)) := by
  induction msgs with
  | nil =>
      intro s hs
      obtain rfl := List.prefix_nil.mp hs
      rfl
  | cons m ms ih =>
      intro s hs
      rw [List.map_cons, List.flatten_cons] at hs
      have hm := hsize m List.mem_cons_self
      by_cases hread : 4 < s.length ∧ 4 + m.length ≤ s.length
      · -- the first message is there, with a part of the others behind it
        have hframe : messageFrame m <+: s :=
          List.prefix_of_prefix_length_le (List.prefix_append _ _) hs
            (by rw [length_messageFrame]; exact hread.2)
        obtain ⟨s', rfl⟩ := hframe
        have hs' : s' <+: (ms.map messageFrame).flatten := (List.prefix_append_right_inj _).mp hs
        have hnext : (prefixGrammar chatGuard).next (messageFrame m ++ s') = .frame m s' :=
          prefixNext_messageFrame hm hread.1 (chatGuard_needed _)
        have hlength : (messageFrame m ++ s').length - (4 + m.length) = s'.length := by
          rw [List.length_append, length_messageFrame, Nat.add_sub_cancel_left]
        rw [Grammar.decode_frame _ hnext,
          ih (fun m' hm' => hsize m' (List.mem_cons_of_mem _ hm')) hs', readMessages,
          if_pos hread, hlength, List.map_cons, List.flatten_cons, List.length_append,
          ← List.drop_drop, List.drop_left]
      · have hmore := prefixNext_incomplete hm hs (by omega)
        rw [Grammar.decode_more _ hmore, readMessages, if_neg hread]
        rfl

/-- What a reader has delivered of a part of the stream. -/
theorem feed_part {read : Buffer → Bytes → List Bytes × Except Misuse Buffer}
    (hreads : Reads chatGuard read) {msgs : List Bytes} (hsize : ∀ m ∈ msgs, m.length < 2 ^ 31)
    {received : List Bytes} (hpart : received.flatten <+: (msgs.map messageFrame).flatten) :
    ∃ b : Buffer, feed read (Buffer.new kInitialSize) received
        = (readMessages msgs received.flatten.length, .ok b) ∧
      b.content = received.flatten.drop
        ((readMessages msgs received.flatten.length).map messageFrame).flatten.length := by
  have hobs := hreads.observe_feed received
  rw [decode_part hsize hpart, observe] at hobs
  obtain ⟨hout, htail⟩ := Prod.mk.inj hobs
  rcases hrun : feed read (Buffer.new kInitialSize) received with ⟨out, misuse | b⟩
  · rw [hrun] at htail
    cases htail
  · rw [hrun] at hout htail
    exact ⟨b, by rw [← hout], Option.some.inj htail⟩

/-- Delivery, for either reader. -/
theorem delivers_iff {read : Buffer → Bytes → List Bytes × Except Misuse Buffer}
    (hreads : Reads chatGuard read) {msgs : List Bytes} (hsize : ∀ m ∈ msgs, m.length < 2 ^ 31)
    {chunks : List Bytes} (hcut : chunks.flatten = (msgs.map messageFrame).flatten) :
    Delivers read msgs chunks ↔
      ∀ received, received <+: chunks → ¬ EndsEmpty msgs received.flatten.length := by
  have hpart : ∀ received, received <+: chunks →
      received.flatten <+: (msgs.map messageFrame).flatten := by
    rintro received ⟨later, rfl⟩
    rw [← hcut, List.flatten_append]
    exact List.prefix_append _ _
  constructor
  · rintro ⟨hdelivered, -⟩ received hreceived
    obtain ⟨b, hb⟩ := hdelivered received hreceived
    obtain ⟨b', hb', -⟩ := feed_part hreads hsize (hpart received hreceived)
    exact (readMessages_eq_iff msgs _).mp (Prod.mk.inj (hb'.symm.trans hb)).1
  · intro hcuts
    have hdelivered : ∀ received, received <+: chunks → ∃ b : Buffer,
        feed read (Buffer.new kInitialSize) received
          = (completeMessages msgs received.flatten.length, .ok b) ∧
        b.content = received.flatten.drop
          ((completeMessages msgs received.flatten.length).map messageFrame).flatten.length := by
      intro received hreceived
      rw [← (readMessages_eq_iff msgs _).mpr (hcuts received hreceived)]
      exact feed_part hreads hsize (hpart received hreceived)
    constructor
    · intro received hreceived
      obtain ⟨b, hb, -⟩ := hdelivered received hreceived
      exact ⟨b, hb⟩
    · obtain ⟨b, hb, hrest⟩ := hdelivered chunks (List.prefix_refl _)
      refine ⟨b, by rw [hb], ?_⟩
      rw [hcut, completeMessages_all, List.drop_length] at hrest
      rw [← b.length_content, hrest]
      rfl

/-- **DELIVERY, EXACTLY**: either reader delivers every message of a stream as
    soon as it is complete, and ends with an empty buffer, if and only if no
    piece ends where the frame of an empty message ends. -/
theorem delivery_iff {msgs : List Bytes} (hsize : ∀ m ∈ msgs, m.length < 2 ^ 31)
    {chunks : List Bytes} (hcut : chunks.flatten = (msgs.map messageFrame).flatten) :
    (Delivers sessionOnRead msgs chunks ↔
      ∀ received, received <+: chunks → ¬ EndsEmpty msgs received.flatten.length) ∧
    (Delivers clientOnRead msgs chunks ↔
      ∀ received, received <+: chunks → ¬ EndsEmpty msgs received.flatten.length) :=
  ⟨delivers_iff sessionOnRead_reads hsize hcut, delivers_iff clientOnRead_reads hsize hcut⟩

/-- An empty message and one of two bytes, cut inside both lengths. -/
theorem delivery_in_pieces :
    (Delivers sessionOnRead [[], [104, 105]] [[0, 0, 0], [0, 0, 0], [0, 2, 104, 105]] ↔
      ∀ received : List Bytes, received <+: [[0, 0, 0], [0, 0, 0], [0, 2, 104, 105]] →
        ¬ EndsEmpty [[], [104, 105]] received.flatten.length) ∧
    (Delivers clientOnRead [[], [104, 105]] [[0, 0, 0], [0, 0, 0], [0, 2, 104, 105]] ↔
      ∀ received : List Bytes, received <+: [[0, 0, 0], [0, 0, 0], [0, 2, 104, 105]] →
        ¬ EndsEmpty [[], [104, 105]] received.flatten.length) := by
  have hsize : ∀ m ∈ ([[], [104, 105]] : List Bytes), m.length < 2 ^ 31 := by decide
  have hcut : [[0, 0, 0], [0, 0, 0], [0, 2, 104, 105]].flatten
      = ([[], [104, 105]].map messageFrame).flatten := by decide
  exact delivery_iff hsize hcut

/-- An empty message alone: its four bytes have arrived, it is not delivered,
    and they stay in the buffer. -/
theorem empty_message_kept :
    ¬ Delivers sessionOnRead [[]] [[0, 0, 0, 0]] ∧ ¬ Delivers clientOnRead [[]] [[0, 0, 0, 0]] := by
  have hkept : EndsEmpty [[]] 4 := ⟨[], [], rfl, rfl⟩
  have hcut : [[0, 0, 0, 0]].flatten = ([[]].map messageFrame).flatten := by decide
  constructor
  · intro h
    exact (delivers_iff sessionOnRead_reads (by decide) hcut).mp h _ (List.prefix_refl _) hkept
  · intro h
    exact (delivers_iff clientOnRead_reads (by decide) hcut).mp h _ (List.prefix_refl _) hkept

end ChatReader
