import TrafficGate.Text.Ascii
/-!
  # One character a byte

  Bytes read as the characters of the same numbers: every byte string is a text this way, and no
  two are the same one.

  Main fact: **`decode_injective`** (the text gives the bytes back).
-/

namespace TrafficGate.Latin1

/-- The character of a byte. -/
def char (b : UInt8) : Char := Char.ofNat b.toNat

/-- One character for each byte, of the same number. -/
def decode (bs : Bytes) : Text := bs.map char

@[simp] theorem length_decode (bs : Bytes) : (decode bs).length = bs.length := by simp [decode]

theorem toNat_char (b : UInt8) : (char b).toNat = b.toNat :=
  toNat_charOfNat (Or.inl (by have := b.toNat_lt; omega))

theorem char_injective {a b : UInt8} (h : char a = char b) : a = b := by
  have := congrArg Char.toNat h
  rw [toNat_char, toNat_char] at this
  exact UInt8.toNat_inj.mp this

/-- **The text gives the bytes back.** -/
theorem decode_injective {a b : Bytes} (h : decode a = decode b) : a = b := by
  induction a generalizing b with
  | nil =>
    cases b with
    | nil => rfl
    | cons y b => simp [decode] at h
  | cons x a ih =>
    cases b with
    | nil => simp [decode] at h
    | cons y b =>
      simp only [decode, List.map_cons, List.cons.injEq] at h
      rw [char_injective h.1, ih h.2]

end TrafficGate.Latin1
