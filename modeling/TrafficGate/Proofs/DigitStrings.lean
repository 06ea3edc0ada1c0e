import TrafficGate.Text.Latin1
import TrafficGate.Text.Numeral
import TrafficGate.Text.Utf8
/-!
  # Numerals of digits

  The numbers that frame a message are written in digits and nothing else. Digits are no signs, no
  white space and no separators, so that a numeral is read as it stands, wherever it was cut out.

  1. what no digit is;
  2. reading a numeral of digits;
  3. texts in front of other bytes.

  Main facts: **`readBase?_of_digits`**, **`exists_readDigits?`**, **`trim_of_digits`** and
  **`decodeLossy_encode_append`**.
-/

namespace TrafficGate

namespace Numeral

variable {base bound acc n : Nat} {c : Char} {t : Text}

/-! ## 1. Digits -/

/-- The characters that digits of bases up to sixteen can be. -/
theorem toNat_of_digitIn? {d : Nat} (h : digitIn? base c = some d) :
    (48 ≤ c.toNat ∧ c.toNat ≤ 57) ∨ (65 ≤ c.toNat ∧ c.toNat ≤ 70) ∨
      (97 ≤ c.toNat ∧ c.toNat ≤ 102) := by
  have hvalue : digitValue? c = some d := (Option.filter_eq_some_iff.mp h).1
  simp only [digitValue?] at hvalue
  split at hvalue
  · next hd => exact Or.inl hd
  · split at hvalue
    · next hd => exact Or.inr (Or.inr hd)
    · split at hvalue
      · next hd => exact Or.inr (Or.inl hd)
      · cases hvalue

/-- The decimal digits. -/
theorem digitIn?_ten_iff {d : Nat} :
    digitIn? 10 c = some d ↔ Ascii.isDigit c = true ∧ d = c.toNat - 48 := by
  rw [digitIn?, Option.filter_eq_some_iff, digitValue?]
  simp only [Ascii.isDigit, Bool.and_eq_true, decide_eq_true_eq]
  constructor
  · rintro ⟨hvalue, hlt⟩
    split at hvalue
    · next hrange => exact ⟨hrange, (Option.some.inj hvalue).symm⟩
    · split at hvalue
      · cases hvalue
        omega
      · split at hvalue
        · cases hvalue
          omega
        · cases hvalue
  · rintro ⟨hrange, rfl⟩
    exact ⟨if_pos hrange, by omega⟩

/-- Every character of a numeral is a digit. -/
theorem digits_of_readDigits? (h : readDigits? base acc t = some n) :
    ∀ c ∈ t, ∃ d, digitIn? base c = some d := by
  induction t generalizing acc with
  | nil => exact List.forall_mem_nil _
  | cons c t ih =>
    rw [readDigits?] at h
    cases hd : digitIn? base c with
    | none => rw [hd] at h; cases h
    | some d =>
      rw [hd] at h
      exact List.forall_mem_cons.mpr ⟨⟨d, hd⟩, ih h⟩

/-- **A character that is no digit of any base stands in no numeral.** -/
theorem not_mem_of_readDigits? (h : readDigits? base acc t = some n)
    (hc : digitValue? c = none) : c ∉ t := by
  intro hmem
  obtain ⟨d, hd⟩ := digits_of_readDigits? h c hmem
  rw [digitIn?, hc] at hd
  cases hd

/-! ## 2. Reading -/

/-- **One or more digits with a value below the bound are read.** -/
theorem readBase?_of_digits (hb : 0 < base) (hne : t ≠ []) (h : readDigits? base 0 t = some n)
    (hn : n < bound) : readBase? base bound t = some n := by
  obtain ⟨c, r, rfl⟩ := List.exists_cons_of_ne_nil hne
  have hplus : c ≠ '+' := fun he =>
    not_mem_of_readDigits? h (by decide) (he ▸ List.mem_cons_self : '+' ∈ c :: r)
  have hdrop : dropPlus (c :: r) = c :: r := by
    unfold dropPlus
    split
    · next heq => exact absurd (List.cons.inj heq).1 hplus
    · rfl
  have hpos : 0 < bound := Nat.lt_of_le_of_lt (Nat.zero_le n) hn
  simp only [readBase?, hdrop, if_pos hpos]
  rw [readBelow?_eq_filter hb hpos, h]
  simp [Option.filter, hn]

/-- **Decimal digits have a value.** -/
theorem exists_readDigits? (h : ∀ c ∈ t, Ascii.isDigit c = true) (acc : Nat) :
    ∃ n, readDigits? 10 acc t = some n := by
  induction t generalizing acc with
  | nil => exact ⟨acc, rfl⟩
  | cons c t ih =>
    obtain ⟨hc, ht⟩ := List.forall_mem_cons.mp h
    rw [readDigits?, digitIn?_ten_iff.mpr ⟨hc, rfl⟩]
    exact ih ht _

/-- A digit is not white space. -/
theorem isBlank_of_digitIn? {d : Nat} (h : digitIn? base c = some d) :
    Blank.isBlank c = false := by
  have hrange := toNat_of_digitIn? h
  simp only [Blank.isBlank, Bool.or_eq_false_iff, Bool.and_eq_false_iff, decide_eq_false_iff_not,
    beq_eq_false_iff_ne]
  omega

/-- **A numeral is not trimmed.** -/
theorem trim_of_digits (h : readDigits? base acc t = some n) : Text.trim t = t :=
  Text.trim_of_not_blank fun c hc =>
    (digits_of_readDigits? h c hc).elim fun _ => isBlank_of_digitIn?

theorem decimal_ne_nil (n : Nat) : decimal n ≠ [] := by
  unfold decimal
  split <;> simp

/-- Only zero has a numeral that starts with a zero. -/
theorem head?_decimal {n : Nat} (h : n ≠ 0) : (decimal n).head? ≠ some '0' := by
  fun_induction decimal n with
  | case1 n hn =>
    intro hc
    have hdigit : digit n = digit 0 := Option.some.inj hc
    have hread := congrArg (digitIn? 10) hdigit
    rw [digitIn?_digit hn, digitIn?_digit (by omega)] at hread
    exact h (Option.some.inj hread)
  | case2 n hn ih =>
    obtain ⟨d, ds, hd⟩ := List.exists_cons_of_ne_nil (decimal_ne_nil (n / 10))
    have hfirst := ih (by omega)
    rw [hd] at hfirst ⊢
    exact hfirst

end Numeral

/-! ## 3. Texts in front of other bytes -/

namespace Utf8

/-- **A written text is read back in front of any bytes.** -/
theorem decodeLossy_encode_append (t : Text) (rest : Bytes) :
    decodeLossy (encode t ++ rest) = t ++ decodeLossy rest := by
  induction t with
  | nil => rfl
  | cons c t ih =>
    obtain ⟨a, bs, he, hd⟩ := decodeFirst_encodeChar c (encode t ++ rest)
    rw [encode_cons, he, List.cons_append, List.cons_append, List.append_assoc, decodeLossy, hd]
    exact congrArg (c :: ·) ih

/-- A byte below 128 stands in a written text only where its character does. -/
theorem mem_of_mem_encode {b : UInt8} {t : Text} (hb : b.toNat < 0x80) (h : b ∈ encode t) :
    Latin1.char b ∈ t := by
  obtain ⟨c, hc, hmem⟩ := List.mem_flatMap.mp h
  have hr := toNat_cases c
  have hbyte : ∀ {n : Nat}, 0x80 ≤ n → n < 256 → b ≠ UInt8.ofNat n := by
    intro n hlow hhigh he
    rw [he, toNat_byte hhigh] at hb
    omega
  unfold encodeChar at hmem
  simp only [] at hmem
  split at hmem
  · next hn =>
    obtain rfl := List.mem_singleton.mp hmem
    have hchar : Latin1.char (UInt8.ofNat c.toNat) = c := by
      rw [Latin1.char, toNat_byte (by omega), Char.ofNat_toNat]
    rwa [hchar]
  · -- the bytes of any other character are above
    exfalso
    split at hmem
    · simp only [List.mem_cons, List.not_mem_nil, or_false] at hmem
      rcases hmem with he | he <;> exact hbyte (by omega) (by omega) he
    · split at hmem
      · simp only [List.mem_cons, List.not_mem_nil, or_false] at hmem
        rcases hmem with he | he | he <;> exact hbyte (by omega) (by omega) he
      · simp only [List.mem_cons, List.not_mem_nil, or_false] at hmem
        rcases hmem with he | he | he | he <;> exact hbyte (by omega) (by omega) he

end Utf8

end TrafficGate
