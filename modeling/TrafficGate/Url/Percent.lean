import TrafficGate.Text.Utf8
import TrafficGate.Text.Numeral
import TrafficGate.Text.Latin1
/-!
  # Percent-decoding

  Escapes of two hexadecimal digits and the plus sign for a space, over the bytes of a text. A text
  with a broken escape, or one whose decoded bytes are not UTF-8, is left as it is.

  Main fact: **`decode_of_plain`** (a text without percent and plus signs is its own decoding).
-/

namespace TrafficGate.Url

/-- The byte of the two characters behind a percent sign, read as a hexadecimal numeral. -/
def escapedByte? (a b : UInt8) : Option UInt8 :=
  (Numeral.readBase? 16 256 (Latin1.decode [a, b])).map UInt8.ofNat

/-- The bytes with every escape resolved; `none` when one is broken. -/
def unescape? : Bytes → Option Bytes
  | [] => some []
  | 0x25 :: a :: b :: rest =>
    match escapedByte? a b with
    | some byte => (unescape? rest).map (byte :: ·)
    | none => none
  | 0x25 :: _ => none
  | 0x2B :: rest => (unescape? rest).map (0x20 :: ·)
  | c :: rest => (unescape? rest).map (c :: ·)

/-- The decoded text, or the text itself when it cannot be decoded. -/
def percentDecode (t : Text) : Text := ((unescape? (Utf8.encode t)).bind Utf8.decode?).getD t

/-- Bytes without percent and plus signs stand for themselves. -/
theorem unescape?_of_plain {bs : Bytes} (h : ∀ b ∈ bs, b ≠ 0x25 ∧ b ≠ 0x2B) :
    unescape? bs = some bs := by
  induction bs with
  | nil => rfl
  | cons b rest ih =>
    have hb := h b List.mem_cons_self
    have hr := ih fun c hc => h c (List.mem_cons_of_mem _ hc)
    unfold unescape?
    split
    · next he => cases he
    · next he => cases he; exact absurd rfl hb.1
    · next he => cases he; exact absurd rfl hb.1
    · next he => cases he; exact absurd rfl hb.2
    · next he => cases he; simp [hr]

/-- **A text whose bytes hold no percent and plus signs is its own decoding.** -/
theorem decode_of_plain {t : Text} (h : ∀ b ∈ Utf8.encode t, b ≠ 0x25 ∧ b ≠ 0x2B) :
    percentDecode t = t := by
  simp [percentDecode, unescape?_of_plain h, Utf8.decode?_encode]

end TrafficGate.Url
