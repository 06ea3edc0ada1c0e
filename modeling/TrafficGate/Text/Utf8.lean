import TrafficGate.Text.Ascii
import TrafficGate.Text.Seq
/-!
  # UTF-8

  Texts as byte strings and back.

  1. `encode` -- one to four bytes for each character;
  2. `decodeFirst` -- the first character of a byte string, or a fault and what follows it;
  3. `decode?` -- strict reading, `decodeLossy` -- reading that puts U+FFFD for every fault.

  A fault covers the longest run of bytes that starts a well-formed character but does not complete
  one, and at least one byte.

  Main facts: **`decodeFirst_encodeChar`** (a written character is read back),
  **`decode?_encode`** and **`decodeLossy_encode`** (so is a written text).
-/

namespace TrafficGate.Utf8

/-! ## 1. Writing -/

/-- The bytes of a character. -/
def encodeChar (c : Char) : Bytes :=
  let n := c.toNat
  if n < 0x80 then [UInt8.ofNat n]
  else if n < 0x800 then [UInt8.ofNat (0xC0 + n / 64), UInt8.ofNat (0x80 + n % 64)]
  else if n < 0x10000 then
    [UInt8.ofNat (0xE0 + n / 4096), UInt8.ofNat (0x80 + n / 64 % 64), UInt8.ofNat (0x80 + n % 64)]
  else
    [UInt8.ofNat (0xF0 + n / 262144), UInt8.ofNat (0x80 + n / 4096 % 64),
      UInt8.ofNat (0x80 + n / 64 % 64), UInt8.ofNat (0x80 + n % 64)]

/-- The bytes of a text. -/
def encode (t : Text) : Bytes := t.flatMap encodeChar

@[simp] theorem encode_nil : encode [] = [] := rfl

@[simp] theorem encode_cons (c : Char) (t : Text) : encode (c :: t) = encodeChar c ++ encode t := by
  simp [encode]

@[simp] theorem encode_append (s t : Text) : encode (s ++ t) = encode s ++ encode t := by
  simp [encode]

/-- How many bytes a text takes. -/
def size (t : Text) : Nat := Seq.total (t.map fun c => (encodeChar c).length)

/-! ## 2. The first character -/

/-- Whether the byte lies between the two numbers. -/
def within (lo hi : Nat) (b : UInt8) : Bool := lo ≤ b.toNat && b.toNat ≤ hi

/-- Whether the byte may continue a character. -/
def isTail (b : UInt8) : Bool := within 0x80 0xBF b

/-- What a continuation byte adds to the number of the character. -/
def tailValue (b : UInt8) : Nat := b.toNat - 0x80

/-- The least second byte after a leading byte; a smaller one would write a short character long. -/
def secondLow (a : Nat) : Nat := if a = 0xE0 then 0xA0 else if a = 0xF0 then 0x90 else 0x80

/-- The greatest second byte after a leading byte; a greater one would name a surrogate or a number
    above U+10FFFF. -/
def secondHigh (a : Nat) : Nat := if a = 0xED then 0x9F else if a = 0xF4 then 0x8F else 0xBF

/-- The first character of the byte string `a :: rest`, or `none` for a fault, and the bytes behind
    it. -/
def decodeFirst (a : UInt8) (rest : Bytes) : Option Char × Bytes :=
  let n := a.toNat
  if n < 0x80 then (some (Char.ofNat n), rest)
  else if n < 0xC2 then (none, rest)
  else if n < 0xE0 then
    match rest with
    | b :: r => if isTail b then (some (Char.ofNat ((n - 0xC0) * 64 + tailValue b)), r) else (none, rest)
    | [] => (none, [])
  else if n < 0xF0 then
    match rest with
    | b :: r =>
      if within (secondLow n) (secondHigh n) b then
        match r with
        | c :: r' =>
          if isTail c then
            (some (Char.ofNat ((n - 0xE0) * 4096 + tailValue b * 64 + tailValue c)), r')
          else (none, r)
        | [] => (none, [])
      else (none, rest)
    | [] => (none, [])
  else if n < 0xF5 then
    match rest with
    | b :: r =>
      if within (secondLow n) (secondHigh n) b then
        match r with
        | c :: r' =>
          if isTail c then
            match r' with
            | d :: r'' =>
              if isTail d then
                (some (Char.ofNat ((n - 0xF0) * 262144 + tailValue b * 4096 + tailValue c * 64
                  + tailValue d)), r'')
              else (none, r')
            | [] => (none, [])
          else (none, r)
        | [] => (none, [])
      else (none, rest)
    | [] => (none, [])
  else (none, rest)

/-- Nothing is put back: what is left is no longer than what followed the first byte. -/
theorem length_decodeFirst_le (a : UInt8) (rest : Bytes) :
    (decodeFirst a rest).2.length ≤ rest.length := by
  unfold decodeFirst
  simp only []
  repeat' split
  all_goals simp_all
  all_goals omega

/-! ## 3. Whole byte strings -/

/-- The text of a byte string that is well-formed UTF-8. -/
def decode? : Bytes → Option Text
  | [] => some []
  | a :: rest =>
    match _h : decodeFirst a rest with
    | (some c, left) => (decode? left).map (c :: ·)
    | (none, _) => none
termination_by bs => bs.length
decreasing_by
  have hle : left.length ≤ rest.length := by
    have := length_decodeFirst_le a rest
    rwa [_h] at this
  simp only [List.length_cons]
  omega

/-- The text of any byte string, with U+FFFD in the place of each fault. -/
def decodeLossy : Bytes → Text
  | [] => []
  | a :: rest =>
    match _h : decodeFirst a rest with
    | (c?, left) => c?.getD (Char.ofNat 0xFFFD) :: decodeLossy left
termination_by bs => bs.length
decreasing_by
  have hle : left.length ≤ rest.length := by
    have := length_decodeFirst_le a rest
    rwa [_h] at this
  simp only [List.length_cons]
  omega

/-! ## 4. Reading back what was written -/

theorem toNat_byte {n : Nat} (h : n < 256) : (UInt8.ofNat n).toNat = n := by
  rw [UInt8.toNat_ofNat']
  omega

theorem tailValue_byte {n : Nat} (h : n < 64) : tailValue (UInt8.ofNat (0x80 + n)) = n := by
  have hb := toNat_byte (show 0x80 + n < 256 by omega)
  unfold tailValue
  omega

theorem isTail_byte {n : Nat} (h : n < 64) : isTail (UInt8.ofNat (0x80 + n)) = true := by
  rw [isTail, within, toNat_byte (show 0x80 + n < 256 by omega)]
  simp only [Bool.and_eq_true, decide_eq_true_eq]
  omega

theorem within_byte {lo hi n : Nat} (h : n < 256) (hl : lo ≤ n) (hh : n ≤ hi) :
    within lo hi (UInt8.ofNat n) = true := by
  rw [within, toNat_byte h]
  simp [hl, hh]

/-- Where the number of a character can lie. -/
theorem toNat_cases (c : Char) : c.toNat < 0xD800 ∨ (0xDFFF < c.toNat ∧ c.toNat < 0x110000) := by
  have h := c.valid
  simpa [UInt32.isValidChar, Nat.isValidChar] using h

/-- **A written character is read back, whatever follows it.** -/
theorem decodeFirst_encodeChar (c : Char) (rest : Bytes) :
    ∃ a bs, encodeChar c = a :: bs ∧ decodeFirst a (bs ++ rest) = (some c, rest) := by
  have hr := toNat_cases c
  have hc := Char.ofNat_toNat c
  unfold encodeChar
  simp only []
  split
  · -- one byte
    next h =>
    refine ⟨_, _, rfl, ?_⟩
    simp only [decodeFirst, toNat_byte (show c.toNat < 256 by omega), h, if_true, hc,
      List.nil_append]
  · split
    · -- two bytes
      next h1 h2 =>
      refine ⟨_, _, rfl, ?_⟩
      simp only [decodeFirst, toNat_byte (show 0xC0 + c.toNat / 64 < 256 by omega)]
      rw [if_neg (by omega), if_neg (by omega), if_pos (by omega)]
      simp only [List.cons_append, List.nil_append,
        isTail_byte (show c.toNat % 64 < 64 by omega), if_true,
        tailValue_byte (show c.toNat % 64 < 64 by omega)]
      rw [show (0xC0 + c.toNat / 64 - 0xC0) * 64 + c.toNat % 64 = c.toNat by omega, hc]
    · split
      · -- three bytes
        next h1 h2 h3 =>
        refine ⟨_, _, rfl, ?_⟩
        have hb : within (secondLow (0xE0 + c.toNat / 4096)) (secondHigh (0xE0 + c.toNat / 4096))
            (UInt8.ofNat (0x80 + c.toNat / 64 % 64)) = true := by
          apply within_byte (by omega)
          · unfold secondLow; split <;> first | omega | (split <;> omega)
          · unfold secondHigh; split <;> first | omega | (split <;> omega)
        simp only [decodeFirst, toNat_byte (show 0xE0 + c.toNat / 4096 < 256 by omega)]
        rw [if_neg (by omega), if_neg (by omega), if_neg (by omega), if_pos (by omega)]
        simp only [List.cons_append, List.nil_append, hb, if_true,
          isTail_byte (show c.toNat % 64 < 64 by omega),
          tailValue_byte (show c.toNat % 64 < 64 by omega),
          tailValue_byte (show c.toNat / 64 % 64 < 64 by omega)]
        rw [show (0xE0 + c.toNat / 4096 - 0xE0) * 4096 + c.toNat / 64 % 64 * 64 + c.toNat % 64
          = c.toNat by omega, hc]
      · -- four bytes
        next h1 h2 h3 =>
        refine ⟨_, _, rfl, ?_⟩
        have hb : within (secondLow (0xF0 + c.toNat / 262144)) (secondHigh (0xF0 + c.toNat / 262144))
            (UInt8.ofNat (0x80 + c.toNat / 4096 % 64)) = true := by
          apply within_byte (by omega)
          · unfold secondLow; split <;> first | omega | (split <;> omega)
          · unfold secondHigh; split <;> first | omega | (split <;> omega)
        simp only [decodeFirst, toNat_byte (show 0xF0 + c.toNat / 262144 < 256 by omega)]
        rw [if_neg (by omega), if_neg (by omega), if_neg (by omega), if_neg (by omega),
          if_pos (by omega)]
        simp only [List.cons_append, List.nil_append, hb, if_true,
          isTail_byte (show c.toNat % 64 < 64 by omega),
          isTail_byte (show c.toNat / 64 % 64 < 64 by omega),
          tailValue_byte (show c.toNat % 64 < 64 by omega),
          tailValue_byte (show c.toNat / 64 % 64 < 64 by omega),
          tailValue_byte (show c.toNat / 4096 % 64 < 64 by omega)]
        rw [show (0xF0 + c.toNat / 262144 - 0xF0) * 262144 + c.toNat / 4096 % 64 * 4096
          + c.toNat / 64 % 64 * 64 + c.toNat % 64 = c.toNat by omega, hc]

/-- **A written text is read back.** -/
theorem decode?_encode (t : Text) : decode? (encode t) = some t := by
  induction t with
  | nil => simp [decode?]
  | cons c t ih =>
    obtain ⟨a, bs, he, hd⟩ := decodeFirst_encodeChar c (encode t)
    rw [encode_cons, he, List.cons_append, decode?]
    split
    · next c' left heq =>
      rw [hd] at heq
      cases heq
      simp [ih]
    · next heq => rw [hd] at heq; cases heq

/-- **Lossy reading loses nothing of a written text.** -/
theorem decodeLossy_encode (t : Text) : decodeLossy (encode t) = t := by
  induction t with
  | nil => simp [decodeLossy]
  | cons c t ih =>
    obtain ⟨a, bs, he, hd⟩ := decodeFirst_encodeChar c (encode t)
    rw [encode_cons, he, List.cons_append, decodeLossy, hd]
    simp [ih]

end TrafficGate.Utf8
