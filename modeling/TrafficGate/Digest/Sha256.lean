import TrafficGate.Text.Hex
import TrafficGate.Text.Seq
/-!
  # SHA-256

  The digest by which bodies are named.

  1. the functions on words of 32 bits, and the constants;
  2. the padded message, in blocks of sixteen words;
  3. one block, and all of them;
  4. `hex` -- the digest as 64 hexadecimal digits.

  Main facts: **`zeros_lt`** and **`length_pad`** (the padding is short and fills whole blocks).
-/

namespace TrafficGate.Sha256

/-! ## 1. Words -/

/-- The word turned right by `n` bits. -/
def turn (n : UInt32) (w : UInt32) : UInt32 := (w >>> n) ||| (w <<< (32 - n))

/-- The mixing function of the schedule for words fifteen before. -/
def schedule0 (w : UInt32) : UInt32 := turn 7 w ^^^ turn 18 w ^^^ (w >>> 3)

/-- The mixing function of the schedule for words two before. -/
def schedule1 (w : UInt32) : UInt32 := turn 17 w ^^^ turn 19 w ^^^ (w >>> 10)

/-- The mixing function of a round for the first word. -/
def round0 (w : UInt32) : UInt32 := turn 2 w ^^^ turn 13 w ^^^ turn 22 w

/-- The mixing function of a round for the fifth word. -/
def round1 (w : UInt32) : UInt32 := turn 6 w ^^^ turn 11 w ^^^ turn 25 w

/-- Chooses bits of `y` or `z` by those of `x`. -/
def choose (x y z : UInt32) : UInt32 := (x &&& y) ^^^ (~~~x &&& z)

/-- The bits that most of three words have. -/
def majority (x y z : UInt32) : UInt32 := (x &&& y) ^^^ (x &&& z) ^^^ (y &&& z)

/-- The constants of the rounds. -/
def roundConstants : List UInt32 := [
  0x428a2f98, 0x71374491, 0xb5c0fbcf, 0xe9b5dba5, 0x3956c25b, 0x59f111f1, 0x923f82a4, 0xab1c5ed5,
  0xd807aa98, 0x12835b01, 0x243185be, 0x550c7dc3, 0x72be5d74, 0x80deb1fe, 0x9bdc06a7, 0xc19bf174,
  0xe49b69c1, 0xefbe4786, 0x0fc19dc6, 0x240ca1cc, 0x2de92c6f, 0x4a7484aa, 0x5cb0a9dc, 0x76f988da,
  0x983e5152, 0xa831c66d, 0xb00327c8, 0xbf597fc7, 0xc6e00bf3, 0xd5a79147, 0x06ca6351, 0x14292967,
  0x27b70a85, 0x2e1b2138, 0x4d2c6dfc, 0x53380d13, 0x650a7354, 0x766a0abb, 0x81c2c92e, 0x92722c85,
  0xa2bfe8a1, 0xa81a664b, 0xc24b8b70, 0xc76c51a3, 0xd192e819, 0xd6990624, 0xf40e3585, 0x106aa070,
  0x19a4c116, 0x1e376c08, 0x2748774c, 0x34b0bcb5, 0x391c0cb3, 0x4ed8aa4a, 0x5b9cca4f, 0x682e6ff3,
  0x748f82ee, 0x78a5636f, 0x84c87814, 0x8cc70208, 0x90befffa, 0xa4506ceb, 0xbef9a3f7, 0xc67178f2]

/-- Eight words: the state between blocks. -/
structure State where
  a : UInt32
  b : UInt32
  c : UInt32
  d : UInt32
  e : UInt32
  f : UInt32
  g : UInt32
  h : UInt32
  deriving DecidableEq, Repr

/-- The state before the first block. -/
def initial : State :=
  { a := 0x6a09e667, b := 0xbb67ae85, c := 0x3c6ef372, d := 0xa54ff53a,
    e := 0x510e527f, f := 0x9b05688c, g := 0x1f83d9ab, h := 0x5be0cd19 }

/-! ## 2. The padded message -/

/-- How many zero bytes follow the bit that ends a message of `n` bytes. -/
def zeros (n : Nat) : Nat := (119 - n % 64) % 64

/-- **The padding is less than a block.** -/
theorem zeros_lt (n : Nat) : zeros n < 64 := Nat.mod_lt _ (by decide)

/-- A number as `k` bytes, the highest first. -/
def bigEndian : Nat → Nat → Bytes
  | 0, _ => []
  | k + 1, n => UInt8.ofNat (n / Nat.pow 256 k % 256) :: bigEndian k n

theorem length_bigEndian (k n : Nat) : (bigEndian k n).length = k := by
  induction k with
  | zero => rfl
  | succ k ih => simp [bigEndian, ih]

/-- The message with its end marked, filled up, and its length in bits behind. -/
def pad (bs : Bytes) : Bytes :=
  bs ++ 0x80 :: (List.replicate (zeros bs.length) 0 ++ bigEndian 8 (bs.length * 8))

/-- **The padded message fills whole blocks.** -/
theorem length_pad (bs : Bytes) : (pad bs).length % 64 = 0 := by
  simp only [pad, List.length_append, List.length_cons, List.length_replicate, length_bigEndian,
    zeros]
  omega

/-- The words of bytes, four to a word. -/
def words : Bytes → List UInt32
  | a :: b :: c :: d :: rest =>
    ((a.toUInt32 <<< 24) ||| (b.toUInt32 <<< 16) ||| (c.toUInt32 <<< 8) ||| d.toUInt32) ::
      words rest
  | _ => []

/-! ## 3. Blocks -/

/-- The word that follows sixteen words of the schedule. -/
def nextWord (window : List UInt32) : UInt32 :=
  schedule1 (window.getD 14 0) + window.getD 9 0 + schedule0 (window.getD 1 0) + window.getD 0 0

/-- One round with its constant and word. -/
def round (s : State) (k w : UInt32) : State :=
  let t1 := s.h + round1 s.e + choose s.e s.f s.g + k + w
  let t2 := round0 s.a + majority s.a s.b s.c
  { a := t1 + t2, b := s.a, c := s.b, d := s.c, e := s.d + t1, f := s.e, g := s.f, h := s.g }

/-- The rounds of the constants; the sixteen words of the window come next, and more follow from
    them. -/
def rounds : List UInt32 → List UInt32 → State → State
  | [], _, s => s
  | k :: ks, window, s =>
    rounds ks (window.drop 1 ++ [nextWord window]) (round s k (window.getD 0 0))

/-- The state behind a block of sixteen words. -/
def block (s : State) (ws : List UInt32) : State :=
  let t := rounds roundConstants ws s
  { a := s.a + t.a, b := s.b + t.b, c := s.c + t.c, d := s.d + t.d,
    e := s.e + t.e, f := s.f + t.f, g := s.g + t.g, h := s.h + t.h }

/-- The state behind all blocks of the words. -/
def blocks (s : State) (ws : List UInt32) : State := (Seq.chunks 16 ws).foldl block s

/-- The digest of bytes, as eight words. -/
def digest (bs : Bytes) : State := blocks initial (words (pad bs))

/-! ## 4. Text -/

/-- A word as eight hexadecimal digits. -/
def wordHex (w : UInt32) : Text := Hex.encode (bigEndian 4 w.toNat)

/-- The digest of bytes, as 64 hexadecimal digits. -/
def hex (bs : Bytes) : Text :=
  let s := digest bs
  [s.a, s.b, s.c, s.d, s.e, s.f, s.g, s.h].flatMap wordHex

/-- A digest has 64 digits. -/
theorem length_hex (bs : Bytes) : (hex bs).length = 64 := by
  simp [hex, wordHex, Hex.length_encode, bigEndian]

end TrafficGate.Sha256
