import BoostPractice.RpcCodecReadProofs

/-! # Readers of length-prefixed messages

    The chat programs and the first RPC program send a message as a four-byte
    length and its bytes.  Their readers are the same loop: while enough bytes
    are readable, look at the length; if the guard lets it pass, drop the
    length, copy the message out and drop it too.  They differ in how many
    bytes they wait for, in the type that the guard is computed in, and in how
    they copy.

    A `Guard` holds the first two, with what makes it one: a length that is
    not negative asks for itself and the four bytes of the field.  For every
    guard the loop is shown to follow a grammar (`readerStep_follows`), and
    `decode_guard_iff` says which streams it reads without misusing the
    buffer. -/

namespace PrefixReader

open MachineInt FrameDecoding BoostBuffer
open RpcCodecRead (lengthField lengthField_append take_drop_append)

/-- What a reader must not do. -/
inductive Misuse where
  /-- A string of `length` bytes is made where `readable` are readable; above
      `max_size()` this is a `std::length_error`. -/
  | string (length readable : Nat)
  /-- An assertion of `Buffer` fails for this length. -/
  | assertion (length readable : Nat)
  /-- A range of `length` bytes is parsed where `readable` are readable. -/
  | parse (length readable : Nat)
  /-- A sum of two `int`s has this value. -/
  | overflow (sum : Int)
  deriving DecidableEq

/-- `inputBuffer_.peekInt32()`. -/
def peekInt32 (b : Buffer) : Except Misuse Int32 :=
  if 4 ≤ b.readableBytes then .ok (lengthField b.content)
  else .error (.assertion 4 b.readableBytes)

/-- `inputBuffer_.retrieve(n)`. -/
def retrieve (b : Buffer) (n : Nat) : Except Misuse Buffer :=
  match b.retrieve n with
  | some b' => .ok b'
  | none => .error (.assertion n b.readableBytes)

/-- `std::string::max_size()`. -/
def maxSize : Nat := 2 ^ 63 - 1

/-- `std::string(inputBuffer_.peek(), n)`. -/
def makeString (b : Buffer) (n : Nat) : Except Misuse Bytes :=
  if n ≤ b.readableBytes ∧ n ≤ maxSize then .ok (b.content.take n)
  else .error (.string n b.readableBytes)

/-- `inputBuffer_.retrieveAsString(n)`. -/
def retrieveAsString (b : Buffer) (n : Nat) : Except Misuse (Bytes × Buffer) :=
  if n ≤ b.readableBytes then do
    let result ← makeString b n
    let b ← retrieve b n
    return (result, b)
  else .error (.assertion n b.readableBytes)

/-- The loop runs while `fewest` bytes are readable; `needed len` is the
    number of bytes that its guard compares with `readableBytes()`. -/
structure Guard where
  fewest : Nat
  needed : Int32 → Except Misuse Nat
  four_le : 4 ≤ fewest
  needed_eq : ∀ {len n}, 0 ≤ len.toInt → needed len = .ok n → (n : Int) = 4 + len.toInt

/-- One evaluation of the loop condition and, if it holds, of the body;
    nothing when the loop is left.  `copy` copies the message out and drops
    it. -/
def readerStep (G : Guard) (copy : Buffer → Nat → Except Misuse (Bytes × Buffer)) (b : Buffer) :
    Except Misuse (Option (Bytes × Buffer)) :=
  if G.fewest ≤ b.readableBytes then do
    let len ← peekInt32 b
    let n ← G.needed len
    if n ≤ b.readableBytes then do
      let b ← retrieve b 4
      let message ← copy b (toSizeT len.toInt)
      return some message
    else
      return none
  else
    return none

/-- What copying must do: hand out the bytes and drop them, if they are
    there, and fail for more than a string can hold. -/
structure Copies (copy : Buffer → Nat → Except Misuse (Bytes × Buffer)) : Prop where
  fits : ∀ (b : Buffer) (n : Nat), n ≤ b.readableBytes → n ≤ maxSize →
    ∃ b', copy b n = .ok (b.content.take n, b') ∧ b'.content = b.content.drop n
  exceeds : ∀ (b : Buffer) (n : Nat), maxSize < n → ∃ misuse, copy b n = .error misuse

/-! ## The operations -/

theorem peekInt32_ok {b : Buffer} (h : 4 ≤ b.readableBytes) :
    peekInt32 b = .ok (lengthField b.content) := if_pos h

theorem retrieve_ok {b : Buffer} {n : Nat} (h : n ≤ b.readableBytes) :
    ∃ b', retrieve b n = .ok b' ∧ b'.content = b.content.drop n := by
  obtain ⟨b', hb', hcontent⟩ := b.retrieve_of_le h
  refine ⟨b', ?_, hcontent⟩
  rw [retrieve, hb']

theorem retrieve_exceeds {b : Buffer} {n : Nat} (h : b.readableBytes < n) :
    retrieve b n = .error (.assertion n b.readableBytes) := by
  rw [retrieve, Buffer.retrieve, dif_neg (Nat.not_le_of_lt h)]

theorem makeString_ok {b : Buffer} {n : Nat} (h : n ≤ b.readableBytes) (hmax : n ≤ maxSize) :
    makeString b n = .ok (b.content.take n) := if_pos ⟨h, hmax⟩

theorem makeString_exceeds (b : Buffer) {n : Nat} (h : maxSize < n) :
    makeString b n = .error (.string n b.readableBytes) :=
  if_neg fun hfits => Nat.not_le_of_lt h hfits.2

theorem retrieveAsString_copies : Copies retrieveAsString where
  fits := by
    intro b n h hmax
    obtain ⟨b', hb', hcontent⟩ := retrieve_ok h
    refine ⟨b', ?_, hcontent⟩
    rw [retrieveAsString, if_pos h, makeString_ok h hmax, hb']
    rfl
  exceeds := by
    intro b n h
    rw [retrieveAsString]
    split
    · rw [makeString_exceeds b h]
      exact ⟨_, rfl⟩
    · exact ⟨_, rfl⟩

/-! ## The grammar of a guard -/

/-- The front of a byte string as one iteration treats it. -/
def prefixNext (G : Guard) (s : Bytes) : Verdict UInt8 Bytes :=
  let len := (lengthField s).toInt
  if s.length < G.fewest then .more
  else
    match G.needed (lengthField s) with
    | .error _ => .fault
    | .ok n =>
        if s.length < n then .more
        else if len < 0 then .fault
        else .frame ((s.drop 4).take len.toNat) (s.drop (4 + len.toNat))

/-- The inversion of `prefixNext`. -/
theorem prefixNext_cases (G : Guard) (s : Bytes) :
    (prefixNext G s = .more ∧
      (s.length < G.fewest ∨ ∃ n, G.needed (lengthField s) = .ok n ∧ s.length < n)) ∨
    (prefixNext G s = .fault ∧ G.fewest ≤ s.length ∧
      ((∃ misuse, G.needed (lengthField s) = .error misuse) ∨
        ∃ n, G.needed (lengthField s) = .ok n ∧ n ≤ s.length ∧ (lengthField s).toInt < 0)) ∨
    (∃ n : Nat, (lengthField s).toInt = n ∧ G.fewest ≤ s.length ∧
      G.needed (lengthField s) = .ok (4 + n) ∧ 4 + n ≤ s.length ∧
      prefixNext G s = .frame ((s.drop 4).take n) (s.drop (4 + n))) := by
  by_cases h1 : s.length < G.fewest
  · exact .inl ⟨if_pos h1, .inl h1⟩
  · have hfew : G.fewest ≤ s.length := Nat.le_of_not_lt h1
    cases hneeded : G.needed (lengthField s) with
    | error misuse =>
        refine .inr (.inl ⟨?_, hfew, .inl ⟨misuse, rfl⟩⟩)
        simp only [prefixNext, if_neg h1, hneeded]
    | ok k =>
        by_cases h2 : s.length < k
        · refine .inl ⟨?_, .inr ⟨k, rfl, h2⟩⟩
          simp only [prefixNext, if_neg h1, hneeded, if_pos h2]
        · by_cases h3 : (lengthField s).toInt < 0
          · refine .inr (.inl ⟨?_, hfew, .inr ⟨k, rfl, Nat.le_of_not_lt h2, h3⟩⟩)
            simp only [prefixNext, if_neg h1, hneeded, if_neg h2, if_pos h3]
          · have hk := G.needed_eq (Int.not_lt.mp h3) hneeded
            have hn : k = 4 + (lengthField s).toInt.toNat := by omega
            refine .inr (.inr ⟨(lengthField s).toInt.toNat, ?_, hfew, ?_, ?_, ?_⟩)
            · omega
            · rw [hn]
            · omega
            · simp only [prefixNext, if_neg h1, hneeded, if_neg h2, if_neg h3]

/-- A complete message at the front is what the grammar reads. -/
theorem prefixNext_frame {G : Guard} {s : Bytes} {n : Nat} (hlen : (lengthField s).toInt = n)
    (hfew : G.fewest ≤ s.length) (hneeded : G.needed (lengthField s) = .ok (4 + n))
    (hle : 4 + n ≤ s.length) :
    prefixNext G s = .frame ((s.drop 4).take n) (s.drop (4 + n)) := by
  rcases prefixNext_cases G s with ⟨-, h | ⟨k, hk, hlt⟩⟩ | ⟨-, -, ⟨misuse, h⟩ | ⟨-, -, -, h⟩⟩ |
    ⟨m, hm, -, -, -, h⟩
  · omega
  · have hk' := Except.ok.inj (hneeded.symm.trans hk)
    omega
  · cases hneeded.symm.trans h
  · omega
  · obtain rfl : m = n := by omega
    exact h

/-- The messages of a length-prefixed stream. -/
def prefixGrammar (G : Guard) : Grammar UInt8 Bytes where
  next := prefixNext G
  shrinks := by
    intro s out r h
    rcases prefixNext_cases G s with ⟨h', -⟩ | ⟨h', -⟩ | ⟨n, -, -, -, hle, h'⟩
    · cases h'.symm.trans h
    · cases h'.symm.trans h
    · rw [← (Verdict.frame.inj (h'.symm.trans h)).2, List.length_drop]
      omega
  frame_append := by
    intro s out r h t
    rcases prefixNext_cases G s with ⟨h', -⟩ | ⟨h', -⟩ | ⟨n, hlen, hfew, hneeded, hle, h'⟩
    · cases h'.symm.trans h
    · cases h'.symm.trans h
    · have hfield : lengthField (s ++ t) = lengthField s := lengthField_append (by omega) t
      obtain ⟨hout, hr⟩ := Verdict.frame.inj (h'.symm.trans h)
      have hnext : prefixNext G (s ++ t)
          = .frame (((s ++ t).drop 4).take n) ((s ++ t).drop (4 + n)) :=
        prefixNext_frame (by rw [hfield, hlen]) (by rw [List.length_append]; omega)
          (by rw [hfield, hneeded]) (by rw [List.length_append]; omega)
      rw [hnext, take_drop_append hle t, List.drop_append_of_le_length hle, hout, hr]
  fault_append := by
    intro s h t
    have hfew := G.four_le
    rcases prefixNext_cases G s with ⟨h', -⟩ | ⟨-, hmin, hwhy⟩ | ⟨n, -, -, -, -, h'⟩
    · cases h'.symm.trans h
    · have hfield : lengthField (s ++ t) = lengthField s := lengthField_append (by omega) t
      rw [prefixNext, hfield, List.length_append, if_neg (by omega)]
      rcases hwhy with ⟨misuse, hneeded⟩ | ⟨n, hneeded, hle, hneg⟩
      · simp only [hneeded]
      · simp only [hneeded]
        rw [if_neg (by omega), if_pos hneg]
    · cases h'.symm.trans h

/-! ## One iteration follows the grammar -/

section Step

variable {G : Guard} {copy : Buffer → Nat → Except Misuse (Bytes × Buffer)}

/-- Below `fewest` bytes the loop is left. -/
theorem readerStep_few {b : Buffer} (h : b.readableBytes < G.fewest) :
    readerStep G copy b = .ok none := if_neg (Nat.not_le_of_lt h)

/-- When enough bytes are readable, the guard is evaluated. -/
theorem readerStep_guard {b : Buffer} (h : G.fewest ≤ b.readableBytes) :
    readerStep G copy b = (G.needed (lengthField b.content) >>= fun n =>
      if n ≤ b.readableBytes then do
        let b₁ ← retrieve b 4
        let message ← copy b₁ (toSizeT (lengthField b.content).toInt)
        return some message
      else return none) := by
  have h4 : 4 ≤ b.readableBytes := Nat.le_trans G.four_le h
  rw [readerStep, if_pos h, peekInt32_ok h4]
  rfl

/-- When the guard passes, the message is copied out of what is behind the
    length. -/
theorem readerStep_body (copy : Buffer → Nat → Except Misuse (Bytes × Buffer)) {b : Buffer}
    {n : Nat} (h : G.fewest ≤ b.readableBytes)
    (hneeded : G.needed (lengthField b.content) = .ok n) (hle : n ≤ b.readableBytes) :
    ∃ b₁, b₁.content = b.content.drop 4 ∧
      readerStep G copy b
        = (copy b₁ (toSizeT (lengthField b.content).toInt) >>= fun message =>
            pure (some message)) := by
  have h4 : 4 ≤ b.readableBytes := Nat.le_trans G.four_le h
  obtain ⟨b₁, hb₁, hcontent⟩ := retrieve_ok h4
  refine ⟨b₁, hcontent, ?_⟩
  rw [readerStep_guard h, hneeded]
  show (if _ then _ else _ : Except Misuse (Option (Bytes × Buffer))) = _
  rw [if_pos hle, hb₁]
  rfl

/-- A negative length is converted to more bytes than a string holds. -/
theorem toSizeT_negative {len : Int32} (h : len.toInt < 0) : maxSize < toSizeT len.toInt := by
  have hlow := len.le_toInt
  rw [toSizeT, maxSize]
  omega

theorem toSizeT_length {len : Int32} {n : Nat} (h : len.toInt = n) : toSizeT len.toInt = n := by
  have hlt := len.toInt_lt
  have := toSizeT_of_nonneg (n := len.toInt) (by omega) (by omega)
  omega

variable (G) in
/-- **ONE ITERATION** follows the grammar on the readable bytes. -/
theorem readerStep_follows (hcopy : Copies copy) :
    Follows (prefixGrammar G) Buffer.content (readerStep G copy) where
  more := by
    intro b h
    rcases prefixNext_cases G b.content with ⟨-, hfew | ⟨n, hneeded, hlt⟩⟩ | ⟨h', -⟩ |
      ⟨n, -, -, -, -, h'⟩
    · rw [b.length_content] at hfew
      exact readerStep_few hfew
    · rw [b.length_content] at hlt
      by_cases hfew : G.fewest ≤ b.readableBytes
      · rw [readerStep_guard hfew, hneeded]
        show (if _ then _ else _ : Except Misuse (Option (Bytes × Buffer))) = _
        rw [if_neg (Nat.not_le_of_lt hlt)]
        rfl
      · exact readerStep_few (Nat.lt_of_not_le hfew)
    · cases h'.symm.trans h
    · cases h'.symm.trans h
  fault := by
    intro b h
    rcases prefixNext_cases G b.content with ⟨h', -⟩ | ⟨-, hfew, hwhy⟩ | ⟨n, -, -, -, -, h'⟩
    · cases h'.symm.trans h
    · rw [b.length_content] at hfew
      rcases hwhy with ⟨misuse, hneeded⟩ | ⟨n, hneeded, hle, hneg⟩
      · rw [readerStep_guard hfew, hneeded]
        exact ⟨misuse, rfl⟩
      · rw [b.length_content] at hle
        obtain ⟨b₁, hb₁, hstep⟩ := readerStep_body copy hfew hneeded hle
        obtain ⟨misuse, hmisuse⟩ := hcopy.exceeds b₁ _ (toSizeT_negative hneg)
        rw [hstep, hmisuse]
        exact ⟨misuse, rfl⟩
    · cases h'.symm.trans h
  frame := by
    intro b out r h
    rcases prefixNext_cases G b.content with ⟨h', -⟩ | ⟨h', -⟩ | ⟨n, hlen, hfew, hneeded, hle, h'⟩
    · cases h'.symm.trans h
    · cases h'.symm.trans h
    · obtain ⟨hout, hr⟩ := Verdict.frame.inj (h'.symm.trans h)
      rw [b.length_content] at hfew hle
      obtain ⟨b₁, hb₁, hstep⟩ := readerStep_body copy hfew hneeded hle
      have hread : n ≤ b₁.readableBytes := by
        rw [← b₁.length_content, hb₁, List.length_drop, b.length_content]
        omega
      have hlt := (lengthField b.content).toInt_lt
      obtain ⟨b₂, hb₂, hrest⟩ := hcopy.fits b₁ n hread (by rw [maxSize]; omega)
      refine ⟨b₂, ?_, ?_⟩
      · rw [hstep, toSizeT_length hlen, hb₂, hb₁, ← hout]
        rfl
      · rw [hrest, hb₁, List.drop_drop, ← hr]

end Step

/-- A reader: the loop over what is buffered and the new bytes. -/
structure Reads (G : Guard) (read : Buffer → Bytes → List Bytes × Except Misuse Buffer) :
    Prop where
  observe : ∀ b bytes, FrameDecoding.observe Buffer.content (read b bytes)
    = (prefixGrammar G).decode (b.content ++ bytes)

/-- The loop, run on a buffer with the new bytes in it, reads. -/
theorem observe_readerLoop (G : Guard) {copy : Buffer → Nat → Except Misuse (Bytes × Buffer)}
    (hcopy : Copies copy) {b : Buffer} {s : Bytes} (h : b.content = s) :
    observe Buffer.content (loopN (readerStep G copy) (b.readableBytes + 1) b)
      = (prefixGrammar G).decode s := by
  rw [observe_loopN (readerStep_follows G hcopy), Grammar.decode, ← b.length_content, h]

/-! ## Which streams are read without misuse -/

/-- Walking from message to message as long as complete ones are there, no
    guard overflows and none lets a negative length pass. -/
inductive HeadsOk (G : Guard) : Bytes → Prop where
  | few {s : Bytes} : s.length < G.fewest → HeadsOk G s
  | blocked {s : Bytes} (n : Nat) : G.needed (lengthField s) = .ok n → s.length < n → HeadsOk G s
  | message {s : Bytes} (n : Nat) : (lengthField s).toInt = n → G.fewest ≤ s.length →
      G.needed (lengthField s) = .ok (4 + n) → 4 + n ≤ s.length → HeadsOk G (s.drop (4 + n)) →
      HeadsOk G s

theorem decode_guard_iff (G : Guard) (s : Bytes) :
    ((prefixGrammar G).decode s).2 ≠ none ↔ HeadsOk G s := by
  rw [Grammar.decode_ne_none_iff]
  constructor
  · intro h
    induction h with
    | @more s hs =>
        rcases prefixNext_cases G s with ⟨-, hfew | ⟨n, hneeded, hlt⟩⟩ | ⟨h', -⟩ |
          ⟨n, -, -, -, -, h'⟩
        · exact .few hfew
        · exact .blocked n hneeded hlt
        · cases h'.symm.trans hs
        · cases h'.symm.trans hs
    | @frame s r out hs _ ih =>
        rcases prefixNext_cases G s with ⟨h', -⟩ | ⟨h', -⟩ | ⟨n, hlen, hfew, hneeded, hle, h'⟩
        · cases h'.symm.trans hs
        · cases h'.symm.trans hs
        · have hr : s.drop (4 + n) = r := (Verdict.frame.inj (h'.symm.trans hs)).2
          exact .message n hlen hfew hneeded hle (hr ▸ ih)
  · intro h
    induction h with
    | few h => exact .more (if_pos h)
    | @blocked s n hneeded hlt =>
        have hmore : prefixNext G s = .more := by
          rw [prefixNext]
          simp only [hneeded, if_pos hlt]
          exact ite_self _
        exact .more hmore
    | message n hlen hfew hneeded hle _ ih =>
        exact .frame (prefixNext_frame hlen hfew hneeded hle) ih

section Reader

variable {G : Guard} {read : Buffer → Bytes → List Bytes × Except Misuse Buffer}

/-- Pieces fed to a new buffer. -/
theorem Reads.observe_feed (h : Reads G read) (chunks : List Bytes) :
    FrameDecoding.observe Buffer.content (feed read (Buffer.new kInitialSize) chunks)
      = (prefixGrammar G).decode chunks.flatten := by
  have hfew : prefixNext G (Buffer.new kInitialSize).content = .more := by
    rw [Buffer.content_new]
    exact if_pos (Nat.lt_of_lt_of_le (by decide) G.four_le)
  rw [FrameDecoding.observe_feed h.observe chunks _ hfew, Buffer.content_new, List.nil_append]

/-- **NO MISUSE, EXACTLY**: a stream is read without misuse, however it is
    cut, if and only if its heads are fine. -/
theorem Reads.misuse_iff (h : Reads G read) (chunks : List Bytes) :
    (∀ misuse, (feed read (Buffer.new kInitialSize) chunks).2 ≠ .error misuse) ↔
      HeadsOk G chunks.flatten := by
  rw [← decode_guard_iff, ← h.observe_feed, FrameDecoding.observe]
  cases (feed read (Buffer.new kInitialSize) chunks).2 with
  | ok b =>
      refine ⟨fun _ => Option.some_ne_none _, fun _ misuse heq => ?_⟩
      cases heq
  | error misuse => exact ⟨fun hall => absurd rfl (hall misuse), fun hne => absurd rfl hne⟩

end Reader

/-! ## Messages -/

/-- A message as it is sent. -/
def messageFrame (message : Bytes) : Bytes :=
  int32Bytes (Int32.ofNat message.length) ++ message

/-- As soon as the length of a message is there, it is read. -/
theorem lengthField_messageFrame {message t s : Bytes} (hs : s <+: messageFrame message ++ t)
    (h4 : 4 ≤ s.length) : lengthField s = Int32.ofNat message.length := by
  obtain ⟨u, hu⟩ := hs
  have happend := lengthField_append h4 u
  rw [hu, lengthField, messageFrame, List.append_assoc, List.take_left' (length_int32Bytes _),
    int32Of_int32Bytes] at happend
  exact happend.symm

/-- The first message of a stream. -/
theorem prefixNext_messageFrame {G : Guard} {message : Bytes} (hsize : message.length < 2 ^ 31)
    {t : Bytes} (hfew : G.fewest ≤ (messageFrame message ++ t).length)
    (hneeded : ∃ n, G.needed (Int32.ofNat message.length) = .ok n) :
    prefixNext G (messageFrame message ++ t) = .frame message t := by
  have hlen : (Int32.ofNat message.length).toInt = message.length :=
    Int32.toInt_ofNat_of_lt hsize
  have hfield : lengthField (messageFrame message ++ t) = Int32.ofNat message.length :=
    lengthField_messageFrame (List.prefix_refl _) (Nat.le_trans G.four_le hfew)
  have hdrop : (messageFrame message ++ t).drop 4 = message ++ t := by
    rw [messageFrame, List.append_assoc, List.drop_left' (length_int32Bytes _)]
  obtain ⟨n, hn⟩ := hneeded
  have hcount := G.needed_eq (by omega) hn
  have hfour : n = 4 + message.length := by omega
  have hnext : prefixNext G (messageFrame message ++ t) = .frame
      (((messageFrame message ++ t).drop 4).take message.length)
      ((messageFrame message ++ t).drop (4 + message.length)) :=
    prefixNext_frame (by rw [hfield, hlen]) hfew (by rw [hfield, hn, hfour])
      (by rw [messageFrame]; simp)
  rw [hnext, hdrop, List.take_left, ← List.drop_drop, hdrop, List.drop_left]

end PrefixReader
