import Mathlib.Data.List.Forall2

/-! # HTTP/1.1 responses on a connection

    A response is a head, lines of text up to an empty one, and a body whose
    length the head announces.  Responses follow each other without a mark
    between them: whoever reads them has to know for each how long its body
    is, and for that WHICH REQUEST it answers, because the response to a HEAD
    request announces a body that does not come.

    `readResponses` reads one response for each request.  It undoes writing
    (`readResponses_written`), and what it has read is what stands there
    (`readResponses_eq`). -/

namespace HttpMessage

/-- ASCII text. -/
def text (s : String) : List UInt8 := s.toList.map fun c => UInt8.ofNat c.toNat

/-- Text without a carriage return, so that a line ends behind it. -/
abbrev Line := { bs : List UInt8 // 13 ∉ bs }

/-- An ASCII letter without its case. -/
def lower (b : UInt8) : UInt8 := if 65 ≤ b ∧ b ≤ 90 then b + 32 else b

/-- Equality of names, which have no case. -/
def sameName (a b : List UInt8) : Bool := a.map lower == b.map lower

/-! ## Cutting at a pair of bytes -/

/-- What stands behind a `b`, if it is the first. -/
def behind (b : UInt8) : List UInt8 → Option (List UInt8)
  | [] => none
  | y :: t => if y = b then some t else none

/-- What stands before the first `a` and behind it, if a `b` follows it. -/
def cut (a b : UInt8) : List UInt8 → Option (List UInt8 × List UInt8)
  | [] => none
  | x :: s =>
      if x = a then (behind b s).map fun t => ([], t)
      else (cut a b s).map fun r => (x :: r.1, r.2)

theorem behind_iff {b : UInt8} {s t : List UInt8} : behind b s = some t ↔ s = b :: t := by
  cases s with
  | nil => exact iff_of_false nofun nofun
  | cons y s =>
      rw [behind]
      by_cases hy : y = b
      · rw [if_pos hy, hy]
        exact ⟨fun h => congrArg (b :: ·) (Option.some.inj h),
          fun h => congrArg some (List.cons.inj h).2⟩
      · rw [if_neg hy]
        exact iff_of_false nofun fun h => hy (List.cons.inj h).1

theorem cut_iff {a b : UInt8} {s l t : List UInt8} :
    cut a b s = some (l, t) ↔ a ∉ l ∧ s = l ++ a :: b :: t := by
  induction s generalizing l with
  | nil =>
      refine iff_of_false nofun ?_
      rintro ⟨-, h⟩
      cases l with
      | nil => cases h
      | cons => cases h
  | cons x s ih =>
      rw [cut]
      by_cases hx : x = a
      · subst hx
        rw [if_pos rfl]
        constructor
        · intro h
          obtain ⟨t', ht, heq⟩ := Option.map_eq_some_iff.mp h
          obtain ⟨rfl, rfl⟩ := Prod.mk.inj heq
          rw [behind_iff.mp ht]
          exact ⟨List.not_mem_nil, rfl⟩
        · rintro ⟨hnot, h⟩
          cases l with
          | nil =>
              obtain ⟨-, rfl⟩ := List.cons.inj h
              rw [behind_iff.mpr rfl]
              rfl
          | cons z l =>
              obtain ⟨rfl, -⟩ := List.cons.inj h
              exact absurd List.mem_cons_self hnot
      · rw [if_neg hx]
        constructor
        · intro h
          obtain ⟨⟨l', t'⟩, hr, heq⟩ := Option.map_eq_some_iff.mp h
          obtain ⟨rfl, rfl⟩ := Prod.mk.inj heq
          obtain ⟨hnot, rfl⟩ := ih.mp hr
          refine ⟨fun hmem => ?_, rfl⟩
          rcases List.mem_cons.mp hmem with rfl | hmem
          · exact hx rfl
          · exact hnot hmem
        · rintro ⟨hnot, h⟩
          cases l with
          | nil => exact absurd (List.cons.inj h).1 hx
          | cons z l =>
              obtain ⟨rfl, rfl⟩ := List.cons.inj h
              rw [ih.mpr ⟨fun hmem => hnot (List.mem_cons_of_mem _ hmem), rfl⟩]
              rfl

/-! ## Numbers -/

/-- The decimal digits of `n`, if there are at most so many. -/
def decimalDigits : Nat → Nat → List UInt8
  | 0, _ => []
  | k + 1, n =>
      if n < 10 then [UInt8.ofNat (48 + n)]
      else decimalDigits k (n / 10) ++ [UInt8.ofNat (48 + n % 10)]

def decimal (n : Nat) : List UInt8 := decimalDigits (n + 1) n

def digitsValue (bs : List UInt8) : Nat := bs.foldl (fun n b => n * 10 + (b.toNat - 48)) 0

/-- The number that a string of digits denotes. -/
def readDecimal (bs : List UInt8) : Option Nat :=
  if bs ≠ [] ∧ bs.all fun b => 48 ≤ b ∧ b ≤ 57 then some (digitsValue bs) else none

theorem decimalDigits_spec :
    ∀ (k n : Nat), n < k → decimalDigits k n ≠ [] ∧ (∀ b ∈ decimalDigits k n, 48 ≤ b ∧ b ≤ 57) ∧
      digitsValue (decimalDigits k n) = n := by
  have hdigit : ∀ d : Nat, d < 10 → (UInt8.ofNat (48 + d)).toNat = 48 + d := by
    intro d hd
    rw [UInt8.toNat_ofNat', Nat.mod_eq_of_lt (by omega)]
  have hrange : ∀ d : Nat, d < 10 → 48 ≤ UInt8.ofNat (48 + d) ∧ UInt8.ofNat (48 + d) ≤ 57 := by
    intro d hd
    rw [UInt8.le_iff_toNat_le, UInt8.le_iff_toNat_le, hdigit d hd]
    exact ⟨Nat.le_add_right _ _, show 48 + d ≤ 57 by omega⟩
  intro k
  induction k with
  | zero => intro n h; exact absurd h (Nat.not_lt_zero _)
  | succ k ih =>
      intro n h
      rw [decimalDigits]
      split
      · next hlt =>
          refine ⟨List.cons_ne_nil _ _, ?_, ?_⟩
          · intro b hb
            rw [List.mem_singleton.mp hb]
            exact hrange n hlt
          · show 0 * 10 + ((UInt8.ofNat (48 + n)).toNat - 48) = n
            rw [hdigit n hlt]
            omega
      · obtain ⟨-, hall, hvalue⟩ := ih (n / 10) (by omega)
        refine ⟨List.append_ne_nil_of_right_ne_nil _ (List.cons_ne_nil _ _), ?_, ?_⟩
        · intro b hb
          rcases List.mem_append.mp hb with hmem | hmem
          · exact hall b hmem
          · rw [List.mem_singleton.mp hmem]
            exact hrange _ (Nat.mod_lt _ (by decide))
        · rw [digitsValue, List.foldl_append, ← digitsValue, hvalue]
          show n / 10 * 10 + ((UInt8.ofNat (48 + n % 10)).toNat - 48) = n
          rw [hdigit _ (Nat.mod_lt _ (by decide))]
          omega

theorem readDecimal_decimal (n : Nat) : readDecimal (decimal n) = some n := by
  obtain ⟨hne, hall, hvalue⟩ := decimalDigits_spec (n + 1) n (Nat.lt_succ_self n)
  have hdigits : (decimalDigits (n + 1) n).all fun b => 48 ≤ b ∧ b ≤ 57 :=
    List.all_eq_true.mpr fun b hb => decide_eq_true (hall b hb)
  rw [readDecimal, decimal, if_pos ⟨hne, hdigits⟩, hvalue]

/-- A number is text of one line. -/
theorem cr_notMem_decimal (n : Nat) : 13 ∉ decimal n := by
  obtain ⟨-, hall, -⟩ := decimalDigits_spec (n + 1) n (Nat.lt_succ_self n)
  exact fun hmem => absurd (hall 13 hmem).1 (by decide)

/-! ## Heads -/

/-- A header field; its name has no colon. -/
structure Field where
  name : Line
  value : Line
  colon_notMem : 58 ∉ name.val

structure Head where
  statusLine : Line
  fields : List Field

/-- `Name: value`. -/
def Field.line (f : Field) : List UInt8 := f.name.val ++ 58 :: 32 :: f.value.val

/-- Lines of fields, and an empty one. -/
def fieldsBytes : List Field → List UInt8
  | [] => [13, 10]
  | f :: fs => f.line ++ 13 :: 10 :: fieldsBytes fs

def Head.bytes (h : Head) : List UInt8 := h.statusLine.val ++ 13 :: 10 :: fieldsBytes h.fields

/-- The field on a line. -/
def readField (line : List UInt8) : Option Field :=
  match cut 58 32 line with
  | none => none
  | some (name, value) =>
      if h : 13 ∉ name ∧ 13 ∉ value ∧ 58 ∉ name then some ⟨⟨name, h.1⟩, ⟨value, h.2.1⟩, h.2.2⟩
      else none

/-- At most `n` lines up to an empty one. -/
def readFields : Nat → List UInt8 → Option (List Field × List UInt8)
  | 0, _ => none
  | n + 1, s =>
      match cut 13 10 s with
      | none => none
      | some ([], t) => some ([], t)
      | some (b :: line, t) =>
          match readField (b :: line) with
          | none => none
          | some f => (readFields n t).map fun r => (f :: r.1, r.2)

def readHead (s : List UInt8) : Option (Head × List UInt8) :=
  match cut 13 10 s with
  | none => none
  | some (line, t) =>
      if h : 13 ∉ line then (readFields (t.length + 1) t).map fun r => (⟨⟨line, h⟩, r.1⟩, r.2)
      else none

theorem readField_iff {line : List UInt8} {f : Field} :
    readField line = some f ↔ line = f.line := by
  constructor
  · intro h
    rw [readField] at h
    split at h
    · cases h
    · next name value hcut =>
        split at h
        · next hok =>
            obtain rfl := Option.some.inj h
            exact (cut_iff.mp hcut).2
        · cases h
  · rintro rfl
    have hcut : cut 58 32 f.line = some (f.name.val, f.value.val) :=
      cut_iff.mpr ⟨f.colon_notMem, rfl⟩
    rw [readField, hcut]
    exact dif_pos ⟨f.name.property, f.value.property, f.colon_notMem⟩

/-- A line of a field is not empty, and has no end in it. -/
theorem Field.line_spec (f : Field) : ∃ b l, f.line = b :: l ∧ 13 ∉ f.line := by
  have hcr : 13 ∉ f.line := by
    rw [Field.line, List.mem_append]
    rintro (hname | hrest)
    · exact f.name.property hname
    · rcases List.mem_cons.mp hrest with h | hrest
      · exact absurd h (by decide)
      · rcases List.mem_cons.mp hrest with h | hvalue
        · exact absurd h (by decide)
        · exact f.value.property hvalue
  cases h : f.line with
  | nil => exact absurd h (List.append_ne_nil_of_right_ne_nil _ (List.cons_ne_nil _ _))
  | cons b l => exact ⟨b, l, rfl, h ▸ hcr⟩

theorem readFields_written (fs : List Field) (t : List UInt8) :
    ∀ n, fs.length < n → readFields n (fieldsBytes fs ++ t) = some (fs, t) := by
  induction fs with
  | nil =>
      intro n hn
      cases n with
      | zero => exact absurd hn (Nat.not_lt_zero _)
      | succ n => rfl
  | cons f fs ih =>
      intro n hn
      cases n with
      | zero => exact absurd hn (Nat.not_lt_zero _)
      | succ n =>
          -- a line that is not empty is not the end of the fields
          obtain ⟨b, l, hline, hcr⟩ := f.line_spec
          have hcut : cut 13 10 (fieldsBytes (f :: fs) ++ t)
              = some (b :: l, fieldsBytes fs ++ t) := by
            rw [cut_iff, ← hline]
            refine ⟨hcr, ?_⟩
            rw [fieldsBytes, List.append_assoc]
            rfl
          rw [readFields, hcut]
          simp only [readField_iff.mpr hline.symm, ih n (Nat.lt_of_succ_lt_succ hn),
            Option.map_some]

theorem readFields_eq {n : Nat} {s t : List UInt8} {fs : List Field}
    (h : readFields n s = some (fs, t)) : s = fieldsBytes fs ++ t := by
  induction n generalizing s fs with
  | zero => cases h
  | succ n ih =>
      rw [readFields] at h
      split at h
      · cases h
      · next hcut =>
          obtain ⟨rfl, rfl⟩ := Prod.mk.inj (Option.some.inj h)
          exact (cut_iff.mp hcut).2
      · next b line t' hcut =>
          split at h
          · cases h
          · next f hfield =>
              obtain ⟨⟨fs', t''⟩, hrest, heq⟩ := Option.map_eq_some_iff.mp h
              obtain ⟨rfl, rfl⟩ := Prod.mk.inj heq
              rw [(cut_iff.mp hcut).2, readField_iff.mp hfield, ih hrest, fieldsBytes,
                List.append_assoc]
              rfl

theorem length_le_fieldsBytes (fs : List Field) : fs.length ≤ (fieldsBytes fs).length := by
  induction fs with
  | nil => exact Nat.zero_le _
  | cons f fs ih =>
      rw [fieldsBytes, List.length_append, List.length_cons, List.length_cons, List.length_cons]
      omega

theorem readHead_written (h : Head) (t : List UInt8) : readHead (h.bytes ++ t) = some (h, t) := by
  have hcut : cut 13 10 (h.bytes ++ t) = some (h.statusLine.val, fieldsBytes h.fields ++ t) := by
    rw [cut_iff, Head.bytes, List.append_assoc]
    exact ⟨h.statusLine.property, rfl⟩
  have hfuel : h.fields.length < (fieldsBytes h.fields ++ t).length + 1 := by
    have := length_le_fieldsBytes h.fields
    rw [List.length_append]
    omega
  simp only [readHead, hcut, dif_pos h.statusLine.property, readFields_written _ _ _ hfuel,
    Option.map_some]

theorem readHead_eq {s t : List UInt8} {h : Head} (hread : readHead s = some (h, t)) :
    s = h.bytes ++ t := by
  rw [readHead] at hread
  split at hread
  · cases hread
  · next line t' hcut =>
      split at hread
      · obtain ⟨⟨fs, t''⟩, hfields, heq⟩ := Option.map_eq_some_iff.mp hread
        obtain ⟨rfl, rfl⟩ := Prod.mk.inj heq
        rw [(cut_iff.mp hcut).2, readFields_eq hfields, Head.bytes, List.append_assoc]
        rfl
      · cases hread

/-! ## How long a body is -/

/-- The number in `HTTP/1.1 200 OK`. -/
def Head.status (h : Head) : Option Nat := readDecimal ((h.statusLine.val.drop 9).take 3)

/-- The value of a field. -/
def Head.field (h : Head) (name : List UInt8) : Option (List UInt8) :=
  (h.fields.find? fun f => sameName f.name.val name).map fun f => f.value.val

inductive BodyLength where
  | octets (n : Nat)
  | untilClose
  | unreadable
  deriving DecidableEq

/-- A response with one of these has no body. -/
def Bodyless (status : Nat) : Prop := status / 100 = 1 ∨ status = 204 ∨ status = 304

instance (status : Nat) : Decidable (Bodyless status) := inferInstanceAs (Decidable (_ ∨ _ ∨ _))

/-- How long the body is behind this head, in a response to a HEAD request or
    to another one.  A transfer coding is not read. -/
def Head.bodyLength (h : Head) (toHead : Bool) : BodyLength :=
  match h.status with
  | none => .unreadable
  | some status =>
      if toHead = true ∨ Bodyless status then .octets 0
      else if (h.field (text "Transfer-Encoding")).isSome then .unreadable
      else
        match h.field (text "Content-Length") with
        | none => .untilClose
        | some value =>
            match readDecimal value with
            | none => .unreadable
            | some n => .octets n

/-! ## Responses -/

/-- A response as it is found. -/
abbrev Found := Head × List UInt8

def Found.bytes (r : Found) : List UInt8 := r.1.bytes ++ r.2

/-- The response at the front. -/
def readResponse (toHead : Bool) (s : List UInt8) : Option (Found × List UInt8) :=
  match readHead s with
  | none => none
  | some (h, t) =>
      match h.bodyLength toHead with
      | .octets n => if n ≤ t.length then some ((h, t.take n), t.drop n) else none
      | .untilClose => some ((h, t), [])
      | .unreadable => none

/-- One response for each request. -/
def readResponses : List Bool → List UInt8 → Option (List Found × List UInt8)
  | [], s => some ([], s)
  | toHead :: requests, s =>
      match readResponse toHead s with
      | none => none
      | some (r, t) => (readResponses requests t).map fun rest => (r :: rest.1, rest.2)

theorem readResponse_written {toHead : Bool} {r : Found}
    (hlength : r.1.bodyLength toHead = .octets r.2.length) (t : List UInt8) :
    readResponse toHead (r.bytes ++ t) = some (r, t) := by
  have hhead : readHead (r.bytes ++ t) = some (r.1, r.2 ++ t) := by
    rw [Found.bytes, List.append_assoc]
    exact readHead_written _ _
  have hle : r.2.length ≤ (r.2 ++ t).length := by
    rw [List.length_append]
    exact Nat.le_add_right _ _
  simp only [readResponse, hhead, hlength, if_pos hle, List.take_left, List.drop_left]

/-- What was read stands at the front. -/
theorem readResponse_eq {toHead : Bool} {s t : List UInt8} {r : Found}
    (h : readResponse toHead s = some (r, t)) : s = r.bytes ++ t := by
  rw [readResponse] at h
  split at h
  · cases h
  · next head t' hhead =>
      have hs := readHead_eq hhead
      split at h
      · split at h
        · obtain ⟨rfl, rfl⟩ := Prod.mk.inj (Option.some.inj h)
          rw [hs, Found.bytes, List.append_assoc, List.take_append_drop]
        · cases h
      · obtain ⟨rfl, rfl⟩ := Prod.mk.inj (Option.some.inj h)
        rw [hs, Found.bytes, List.append_nil]
      · cases h

/-- **READING UNDOES WRITING** responses that are as long as their heads say. -/
theorem readResponses_written {requests : List Bool} {rs : List Found}
    (hlengths : List.Forall₂ (fun toHead (r : Found) =>
      r.1.bodyLength toHead = .octets r.2.length) requests rs) (t : List UInt8) :
    readResponses requests ((rs.map Found.bytes).flatten ++ t) = some (rs, t) := by
  induction hlengths with
  | nil => rfl
  | @cons toHead r requests rs hlength _ ih =>
      rw [List.map_cons, List.flatten_cons, List.append_assoc, readResponses,
        readResponse_written hlength]
      simp only [ih, Option.map_some]

/-- **NOTHING ELSE IS READ**: the responses that are found stand there, one
    behind the other. -/
theorem readResponses_eq {requests : List Bool} {s t : List UInt8} {rs : List Found}
    (h : readResponses requests s = some (rs, t)) : s = (rs.map Found.bytes).flatten ++ t := by
  induction requests generalizing s rs with
  | nil =>
      obtain ⟨rfl, rfl⟩ := Prod.mk.inj (Option.some.inj h)
      rfl
  | cons toHead requests ih =>
      rw [readResponses] at h
      split at h
      · cases h
      · next r t' hr =>
          obtain ⟨⟨rs', t''⟩, hrest, heq⟩ := Option.map_eq_some_iff.mp h
          obtain ⟨rfl, rfl⟩ := Prod.mk.inj heq
          rw [readResponse_eq hr, ih hrest, List.map_cons, List.flatten_cons, List.append_assoc]

/-! ## Octets that nobody expects -/

/-- A response as it is sent: what a client takes for it, and octets behind
    that. -/
structure Sent where
  toHead : Bool
  found : Found
  stray : List UInt8
  fits : found.1.bodyLength toHead = .octets found.2.length

def Sent.bytes (w : Sent) : List UInt8 := w.found.bytes ++ w.stray

theorem readResponses_found {ws : List Sent} (h : ∀ w ∈ ws, w.stray = []) (t : List UInt8) :
    readResponses (ws.map Sent.toHead) ((ws.map Sent.bytes).flatten ++ t)
      = some (ws.map Sent.found, t) := by
  have hfits : List.Forall₂ (fun toHead (r : Found) => r.1.bodyLength toHead = .octets r.2.length)
      (ws.map Sent.toHead) (ws.map Sent.found) := by
    rw [List.forall₂_map_left_iff, List.forall₂_map_right_iff]
    exact List.forall₂_same.mpr fun w _ => w.fits
  have hbytes : ws.map Sent.bytes = (ws.map Sent.found).map Found.bytes := by
    rw [List.map_map]
    refine List.map_congr_left fun w hw => ?_
    rw [Sent.bytes, h w hw, List.append_nil]
    rfl
  rw [hbytes]
  exact readResponses_written hfits t

/-- Octets behind a response make the sum longer. -/
theorem stray_of_length {ws : List Sent}
    (h : ((ws.map Sent.bytes).flatten).length
      ≤ (((ws.map Sent.found).map Found.bytes).flatten).length) :
    ∀ w ∈ ws, w.stray = [] := by
  have hle : ∀ ws : List Sent, (((ws.map Sent.found).map Found.bytes).flatten).length
      ≤ ((ws.map Sent.bytes).flatten).length := by
    intro ws
    induction ws with
    | nil => exact Nat.le_refl _
    | cons w ws ih =>
        simp only [List.map_cons, List.flatten_cons, List.length_append, Sent.bytes]
        omega
  induction ws with
  | nil => exact nofun
  | cons w ws ih =>
      -- the others are no shorter than they say, so `w` is no longer
      have hrest := hle ws
      simp only [List.map_cons, List.flatten_cons, List.length_append, Sent.bytes] at h
      intro w' hw'
      rcases List.mem_cons.mp hw' with rfl | hmem
      · exact List.eq_nil_of_length_eq_zero (by omega)
      · exact ih (by omega) w' hmem

/-- **FOUND WHERE THEY ARE**: a client finds the responses that were sent and
    what stands behind them if and only if each of them is as long as it says. -/
theorem readResponses_found_iff (ws : List Sent) (t : List UInt8) :
    readResponses (ws.map Sent.toHead) ((ws.map Sent.bytes).flatten ++ t)
      = some (ws.map Sent.found, t) ↔ ∀ w ∈ ws, w.stray = [] := by
  constructor
  · intro h
    have hbytes := congrArg List.length (readResponses_eq h)
    rw [List.length_append, List.length_append] at hbytes
    exact stray_of_length (Nat.le_of_eq (Nat.add_right_cancel hbytes))
  · exact fun h => readResponses_found h t

end HttpMessage
