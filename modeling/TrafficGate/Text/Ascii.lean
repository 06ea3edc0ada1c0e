import TrafficGate.Text.Seq
/-!
  # Texts, bytes, and the ASCII letters

  A text is the list of its characters and a byte string the list of its bytes: heads and bodies
  are cut, matched and joined all the time, and lists carry the lemmas for that. Both become
  `String` and `ByteArray` only where they leave the program.

  1. the two types;
  2. ASCII classes and the ASCII case map, which leave every other character alone;
  3. comparison that ignores ASCII case.

  Main facts: **`lower_lower`** (lowering twice is lowering once) and **`mem_lower_iff`** (lowering
  changes letters only).
-/

namespace TrafficGate

/-! ## 1. The two types -/

/-- A text: its characters in order. -/
abbrev Text := List Char

/-- A byte string. -/
abbrev Bytes := List UInt8

/-- A valid code point is the number of the character it names. -/
theorem toNat_charOfNat {n : Nat} (h : n.isValidChar) : (Char.ofNat n).toNat = n := by
  rw [Char.ofNat, dif_pos h]
  rfl

namespace Ascii

/-! ## 2. Classes and case -/

/-- `A` to `Z`. -/
def isUpper (c : Char) : Bool := 65 ≤ c.toNat && c.toNat ≤ 90

/-- `a` to `z`. -/
def isLower (c : Char) : Bool := 97 ≤ c.toNat && c.toNat ≤ 122

/-- An ASCII letter. -/
def isAlpha (c : Char) : Bool := isUpper c || isLower c

/-- `0` to `9`. -/
def isDigit (c : Char) : Bool := 48 ≤ c.toNat && c.toNat ≤ 57

/-- An ASCII letter or digit. -/
def isAlnum (c : Char) : Bool := isAlpha c || isDigit c

/-- The small letter of an ASCII capital; every other character is its own. -/
def lowerChar (c : Char) : Char := if isUpper c then Char.ofNat (c.toNat + 32) else c

/-- The text with its ASCII capitals lowered. -/
def lower (t : Text) : Text := t.map lowerChar

/-- A character is its own small letter, or a capital with its small letter 32 places behind. -/
theorem lowerChar_cases (c : Char) : isUpper c = false ∧ lowerChar c = c ∨
    65 ≤ c.toNat ∧ c.toNat ≤ 90 ∧ (lowerChar c).toNat = c.toNat + 32 := by
  unfold lowerChar
  split
  · next h =>
    simp only [isUpper, Bool.and_eq_true, decide_eq_true_eq] at h
    exact .inr ⟨h.1, h.2, toNat_charOfNat (.inl (by omega))⟩
  · next h => exact .inl ⟨Bool.not_eq_true _ ▸ h, rfl⟩

theorem isUpper_lowerChar (c : Char) : isUpper (lowerChar c) = false := by
  rcases lowerChar_cases c with ⟨hupper, hsame⟩ | ⟨hlow, hhigh, hvalue⟩
  · rw [hsame, hupper]
  · simp only [isUpper, hvalue, Bool.and_eq_false_iff, decide_eq_false_iff_not]
    omega

theorem lowerChar_lowerChar (c : Char) : lowerChar (lowerChar c) = lowerChar c := by
  rw [lowerChar, isUpper_lowerChar]
  rfl

/-- **Lowering is idempotent.** -/
theorem lower_lower (t : Text) : lower (lower t) = lower t := by
  simp [lower, lowerChar_lowerChar]

theorem isAlpha_lowerChar (c : Char) : isAlpha (lowerChar c) = isAlpha c := by
  rcases lowerChar_cases c with ⟨-, hsame⟩ | ⟨hlow, hhigh, hvalue⟩
  · rw [hsame]
  · have hcapital : isAlpha c = true := by
      simp only [isAlpha, isUpper, Bool.or_eq_true, Bool.and_eq_true, decide_eq_true_eq]
      omega
    have hsmall : isAlpha (lowerChar c) = true := by
      simp only [isAlpha, isLower, hvalue, Bool.or_eq_true, Bool.and_eq_true, decide_eq_true_eq]
      omega
    rw [hcapital, hsmall]

theorem lowerChar_eq_iff {c d : Char} (hd : isAlpha d = false) : lowerChar c = d ↔ c = d := by
  have hsame : isAlpha c = false → lowerChar c = c := by
    intro hc
    rw [isAlpha, Bool.or_eq_false_iff] at hc
    rw [lowerChar, hc.1]
    rfl
  constructor
  · rintro rfl
    exact (hsame (isAlpha_lowerChar c ▸ hd)).symm
  · rintro rfl
    exact hsame hd

/-- **Small letters or not, the same other characters stand in a text.** -/
theorem mem_lower_iff {d : Char} (hd : isAlpha d = false) {t : Text} : d ∈ lower t ↔ d ∈ t := by
  simp only [lower, List.mem_map, lowerChar_eq_iff hd, exists_eq_right]

/-- Small letters or not, the same other character is the last one. -/
theorem getLast?_lower_iff {d : Char} (hd : isAlpha d = false) {t : Text} :
    (lower t).getLast? = some d ↔ t.getLast? = some d := by
  simp only [lower, List.getLast?_map, Option.map_eq_some_iff, lowerChar_eq_iff hd, exists_eq_right]

@[simp] theorem length_lower (t : Text) : (lower t).length = t.length := by simp [lower]

@[simp] theorem lower_append (s t : Text) : lower (s ++ t) = lower s ++ lower t := by
  simp [lower]

/-! ## 3. Comparison without case -/

/-- Equality up to the case of ASCII letters. -/
def sameWord (s t : Text) : Bool := lower s == lower t

end Ascii

end TrafficGate
