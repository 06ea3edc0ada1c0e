import TrafficGate.Text.Ascii
/-!
  # SipHash

  A quick digest of 64 bits, with one round for each word and three rounds at the end, and with both
  halves of its key zero. It spreads keys over the parts of a cache.

  1. the state of four words, and a round;
  2. the words of a message, eight bytes to a word, the last of which holds the length;
  3. `digest`.

  Main facts: **`length_words`** (how many words a message has) and **`place_lt`** (a digest gives
  one of the places).
-/

namespace TrafficGate.SipHash

/-! ## 1. Rounds -/

/-- The state between words. -/
structure State where
  a : UInt64
  b : UInt64
  c : UInt64
  d : UInt64
  deriving DecidableEq, Repr

/-- The state before the first word. -/
def initial : State :=
  { a := 0x736f6d6570736575, b := 0x646f72616e646f6d,
    c := 0x6c7967656e657261, d := 0x7465646279746573 }

/-- The word turned left by `n` bits. -/
def turn (n : UInt64) (w : UInt64) : UInt64 := (w <<< n) ||| (w >>> (64 - n))

/-- One round: two additions with turns, and then across. -/
def round (s : State) : State :=
  let a := s.a + s.b
  let b := turn 13 s.b ^^^ a
  let c := s.c + s.d
  let d := turn 16 s.d ^^^ c
  let a := turn 32 a + d
  let d := turn 21 d ^^^ a
  let c := c + b
  let b := turn 17 b ^^^ c
  { a, b, c := turn 32 c, d }

/-- The state behind a word. -/
def absorb (s : State) (w : UInt64) : State :=
  let t := round { s with d := s.d ^^^ w }
  { t with a := t.a ^^^ w }

/-! ## 2. Words -/

/-- The number that bytes are, the lowest first. -/
def littleEndian : Bytes → Nat
  | [] => 0
  | b :: rest => b.toNat + 256 * littleEndian rest

/-- The words of the rest of a message of `n` bytes. The last word has the bytes that are left, and
    the length in its highest byte. -/
def words (n : Nat) : Bytes → List UInt64
  | p :: q :: r :: s :: t :: u :: v :: w :: rest =>
    UInt64.ofNat (littleEndian [p, q, r, s, t, u, v, w]) :: words n rest
  | rest => [UInt64.ofNat (n % 256 * Nat.pow 2 56 + littleEndian rest)]

/-- **A message has a word for each eight bytes, and one more.** -/
theorem length_words (n : Nat) (bs : Bytes) : (words n bs).length = bs.length / 8 + 1 := by
  fun_induction words n bs with
  | case1 p q r s t u v w rest ih =>
    simp only [List.length_cons, ih]
    omega
  | case2 rest h =>
    have : rest.length < 8 := by
      match rest, h with
      | [], _ | [_], _ | [_, _], _ | [_, _, _], _ | [_, _, _, _], _ | [_, _, _, _, _], _
      | [_, _, _, _, _, _], _ | [_, _, _, _, _, _, _], _ => simp
      | p :: q :: r :: s :: t :: u :: v :: w :: rest, h => exact absurd rfl (h p q r s t u v w rest)
    simp only [List.length_cons, List.length_nil]
    omega

/-! ## 3. Digests -/

/-- The digest of bytes. -/
def digest (bs : Bytes) : UInt64 :=
  let s := (words bs.length bs).foldl absorb initial
  let s := round (round (round { s with c := s.c ^^^ 0xff }))
  s.a ^^^ s.b ^^^ s.c ^^^ s.d

/-- One of `n` places, by the digest of bytes. -/
def place (n : Nat) (bs : Bytes) : Nat := (digest bs).toNat % n

/-- **A digest gives one of the places.** -/
theorem place_lt {n : Nat} (h : 0 < n) (bs : Bytes) : place n bs < n := Nat.mod_lt _ h

end TrafficGate.SipHash
