import TrafficGate.Digest.Sha256
/-!
  # Digests in digits

  Bodies are named by the digits of their digests. Digits are read back, and so two bodies have one
  name only if they have one digest.

  1. `decode?_encode` -- bytes in hexadecimal are read back;
  2. words of four bytes;
  3. `digest_of_hex`.

  Main facts: **`decode?_encode`** and **`digest_of_hex`**.
-/

namespace TrafficGate

/-! ## 1. Digits of bytes -/

namespace Hex

theorem digitIn?_hexDigit {n : Nat} (h : n < 16) :
    Numeral.digitIn? 16 (Quoted.hexDigit n) = some n := by
  have hall : ∀ m : Fin 16, Numeral.digitIn? 16 (Quoted.hexDigit m) = some m.val := by decide
  exact hall ⟨n, h⟩

theorem decode?_byte_append (b : UInt8) (rest : Text) :
    decode? (byte b ++ rest) = (decode? rest).map (b :: ·) := by
  have hb := b.toNat_lt
  have hhigh := digitIn?_hexDigit (show b.toNat / 16 < 16 by omega)
  have hlow := digitIn?_hexDigit (show b.toNat % 16 < 16 by omega)
  have hvalue : UInt8.ofNat (b.toNat / 16 * 16 + b.toNat % 16) = b := by
    rw [Nat.div_add_mod', UInt8.ofNat_toNat]
  show decode? (Quoted.hexDigit (b.toNat / 16) :: Quoted.hexDigit (b.toNat % 16) :: rest) = _
  simp only [decode?, hhigh, hlow, Option.bind_eq_bind, Option.bind_some, hvalue]
  cases decode? rest <;> rfl

/-- **Bytes in digits are read back.** -/
theorem decode?_encode (bs : Bytes) : decode? (encode bs) = some bs := by
  induction bs with
  | nil => rfl
  | cons b bs ih =>
    show decode? (byte b ++ encode bs) = _
    rw [decode?_byte_append, ih, Option.map_some]

/-- **Digits tell bytes apart.** -/
theorem encode_injective {a b : Bytes} (h : encode a = encode b) : a = b := by
  have hread := decode?_encode a
  rw [h, decode?_encode] at hread
  exact (Option.some.inj hread).symm

end Hex

namespace Sha256

/-! ## 2. Words -/

/-- So many bytes of two numbers are equal only if the numbers are, as far as the bytes go. -/
theorem mod_of_bigEndian {k m n : Nat} (h : bigEndian k m = bigEndian k n) :
    m % Nat.pow 256 k = n % Nat.pow 256 k := by
  induction k with
  | zero =>
    show m % 1 = n % 1
    rw [Nat.mod_one, Nat.mod_one]
  | succ k ih =>
    obtain ⟨hbyte, hrest⟩ := List.cons.inj h
    have hdigit : m / Nat.pow 256 k % 256 = n / Nat.pow 256 k % 256 := by
      have hnat := congrArg UInt8.toNat hbyte
      simpa [UInt8.toNat_ofNat'] using hnat
    have hsplit (x : Nat) : x % Nat.pow 256 (k + 1) =
        x % Nat.pow 256 k + Nat.pow 256 k * (x / Nat.pow 256 k % 256) := Nat.mod_pow_succ
    rw [hsplit, hsplit, ih hrest, hdigit]

/-- The bytes of a word. -/
def wordBytes (w : UInt32) : Bytes := bigEndian 4 w.toNat

theorem wordBytes_injective {v w : UInt32} (h : wordBytes v = wordBytes w) : v = w := by
  have hmod := mod_of_bigEndian h
  have hv : v.toNat < Nat.pow 256 4 := v.toNat_lt
  have hw : w.toNat < Nat.pow 256 4 := w.toNat_lt
  rw [Nat.mod_eq_of_lt hv, Nat.mod_eq_of_lt hw] at hmod
  exact UInt32.toNat_inj.mp hmod

/-- **Bytes tell words apart**, if there are as many. -/
theorem flatMap_wordBytes_injective {vs ws : List UInt32} (hlength : vs.length = ws.length)
    (h : vs.flatMap wordBytes = ws.flatMap wordBytes) : vs = ws := by
  induction vs generalizing ws with
  | nil => exact (List.length_eq_zero_iff.mp hlength.symm).symm
  | cons v vs ih =>
    cases ws with
    | nil => cases hlength
    | cons w ws =>
      have hword : (wordBytes v).length = (wordBytes w).length := by
        rw [wordBytes, wordBytes, length_bigEndian, length_bigEndian]
      obtain ⟨hfirst, hrest⟩ := List.append_inj h hword
      rw [wordBytes_injective hfirst, ih (Nat.succ.inj hlength) hrest]

/-! ## 3. Names -/

/-- The words of a state. -/
def State.toList (s : State) : List UInt32 := [s.a, s.b, s.c, s.d, s.e, s.f, s.g, s.h]

theorem State.toList_injective {s t : State} (h : s.toList = t.toList) : s = t := by
  cases s
  cases t
  simp only [toList, List.cons.injEq, and_true] at h
  simp only [State.mk.injEq]
  exact h

theorem hex_eq (bs : Bytes) : hex bs = Hex.encode ((digest bs).toList.flatMap wordBytes) := by
  rw [Hex.encode, List.flatMap_assoc]
  rfl

/-- **Only bodies of one digest have one name.** -/
theorem digest_of_hex {a b : Bytes} (h : hex a = hex b) : digest a = digest b := by
  rw [hex_eq, hex_eq] at h
  exact State.toList_injective (flatMap_wordBytes_injective rfl (Hex.encode_injective h))

end Sha256

end TrafficGate
