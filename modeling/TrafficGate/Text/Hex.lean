import TrafficGate.Text.Quoted
import TrafficGate.Text.Numeral
/-!
  # Bytes in hexadecimal

  Two small digits for each byte, the higher first; reading takes them in any case.

  Main facts: **`encode_append`** (bytes are written one after the other) and **`length_encode`**
  (two digits for each byte).
-/

namespace TrafficGate.Hex

/-- The digits of a byte. -/
def byte (b : UInt8) : Text := [Quoted.hexDigit (b.toNat / 16), Quoted.hexDigit (b.toNat % 16)]

/-- The digits of bytes. -/
def encode (bs : Bytes) : Text := bs.flatMap byte

/-- The bytes of digits; none for an odd number of them, or for anything else. -/
def decode? : Text → Option Bytes
  | [] => some []
  | [_] => none
  | a :: b :: rest => do
    let high ← Numeral.digitIn? 16 a
    let low ← Numeral.digitIn? 16 b
    some (UInt8.ofNat (high * 16 + low) :: (← decode? rest))

/-- **Bytes are written one after the other.** -/
theorem encode_append (a b : Bytes) : encode (a ++ b) = encode a ++ encode b := by
  simp [encode]

/-- **Two digits for each byte.** -/
theorem length_encode (bs : Bytes) : (encode bs).length = 2 * bs.length := by
  induction bs with
  | nil => rfl
  | cons b bs ih =>
    simp only [encode, List.flatMap_cons, List.length_append, List.length_cons] at *
    rw [ih]
    simp [byte]
    omega

end TrafficGate.Hex
