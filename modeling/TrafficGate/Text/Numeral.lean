import TrafficGate.Text.Blank
/-!
  # Numerals

  Reading and writing of natural numbers as texts.

  1. the value of a digit in bases up to sixteen;
  2. `readBase?` -- one or more digits, one leading plus sign allowed, below a given bound;
  3. `decimal` -- the decimal digits of a number.

  Main facts: **`readBelow?_eq_filter`** (reading up to a bound), **`readBase?_lt`** (a number that
  was read is below its bound), **`digits_decimal`** (a decimal numeral consists of digits) and
  **`readDigits?_decimal`** (it is read back).
-/

namespace TrafficGate.Numeral

/-! ## 1. Digits -/

/-- The value of a decimal or hexadecimal digit, in either case. -/
def digitValue? (c : Char) : Option Nat :=
  let n := c.toNat
  if 48 ≤ n ∧ n ≤ 57 then some (n - 48)
  else if 97 ≤ n ∧ n ≤ 102 then some (n - 87)
  else if 65 ≤ n ∧ n ≤ 70 then some (n - 55)
  else none

/-- The value of a digit of the base. -/
def digitIn? (base : Nat) (c : Char) : Option Nat := (digitValue? c).filter (· < base)

/-! ## 2. Reading -/

/-- The value of the digits behind `acc`; `none` if some character is no digit of the base. -/
def readDigits? (base : Nat) (acc : Nat) : Text → Option Nat
  | [] => some acc
  | c :: r =>
    match digitIn? base c with
    | some d => readDigits? base (acc * base + d) r
    | none => none

/-- The value of the digits behind `acc`, as long as it stays below `bound`: a numeral that is too
    large is left at the digit that shows it. -/
def readBelow? (base bound : Nat) (acc : Nat) : Text → Option Nat
  | [] => some acc
  | c :: r =>
    match digitIn? base c with
    | some d => if acc * base + d < bound then readBelow? base bound (acc * base + d) r else none
    | none => none

theorem readDigits?_append (base acc : Nat) (a b : Text) :
    readDigits? base acc (a ++ b) = (readDigits? base acc a).bind (readDigits? base · b) := by
  induction a generalizing acc with
  | nil => rfl
  | cons c a ih =>
    simp only [List.cons_append, readDigits?]
    split
    · exact ih _
    · rfl

/-- Digits do not make a value smaller. -/
theorem le_of_readDigits? {base acc n : Nat} {t : Text} (hb : 0 < base)
    (h : readDigits? base acc t = some n) : acc ≤ n := by
  induction t generalizing acc with
  | nil =>
    simp only [readDigits?, Option.some.injEq] at h
    omega
  | cons c r ih =>
    simp only [readDigits?] at h
    split at h
    · have hle := ih h
      have := Nat.le_mul_of_pos_right acc hb
      omega
    · cases h

/-- **Reading up to a bound is reading and then asking for the bound.** -/
theorem readBelow?_eq_filter {base bound acc : Nat} (hb : 0 < base) (ha : acc < bound) (t : Text) :
    readBelow? base bound acc t = (readDigits? base acc t).filter (· < bound) := by
  induction t generalizing acc with
  | nil => simp [readBelow?, readDigits?, Option.filter, ha]
  | cons c r ih =>
    simp only [readBelow?, readDigits?]
    cases digitIn? base c with
    | none => rfl
    | some d =>
      by_cases hd : acc * base + d < bound
      · simp only [hd, if_true]
        exact ih hd
      · simp only [hd, if_false]
        cases hr : readDigits? base (acc * base + d) r with
        | none => rfl
        | some n =>
          have := le_of_readDigits? hb hr
          simp only [Option.filter]
          rw [if_neg]
          simp only [decide_eq_true_eq]
          omega

/-- A value that stays below a bound is below it. -/
theorem readBelow?_lt {base bound acc n : Nat} {t : Text} (ha : acc < bound)
    (h : readBelow? base bound acc t = some n) : n < bound := by
  induction t generalizing acc with
  | nil =>
    simp only [readBelow?, Option.some.injEq] at h
    omega
  | cons c r ih =>
    simp only [readBelow?] at h
    split at h
    · split at h
      · next hd => exact ih hd h
      · cases h
    · cases h

/-- The text without one plus sign in front. -/
def dropPlus : Text → Text
  | '+' :: r => r
  | t => t

/-- Reads an unsigned numeral: a plus sign may stand in front, then one or more digits and nothing
    else; a value of `bound` or more is refused. -/
def readBase? (base bound : Nat) (t : Text) : Option Nat :=
  match dropPlus t with
  | [] => none
  | c :: r => if 0 < bound then readBelow? base bound 0 (c :: r) else none

/-- **A number that was read is below its bound.** -/
theorem readBase?_lt {base bound n : Nat} {t : Text} (h : readBase? base bound t = some n) :
    n < bound := by
  unfold readBase? at h
  split at h
  · cases h
  · split at h
    · next hb => exact readBelow?_lt hb h
    · cases h

/-- A digit of a base is below it. -/
theorem digitIn?_lt {base d : Nat} {c : Char} (h : digitIn? base c = some d) : d < base :=
  of_decide_eq_true (Option.filter_eq_some_iff.mp h).2

/-- **A numeral of `k` digits is below the `k`-th power of its base.** -/
theorem readDigits?_lt {base acc n : Nat} {t : Text} (h : readDigits? base acc t = some n) :
    n < (acc + 1) * Nat.pow base t.length := by
  induction t generalizing acc with
  | nil =>
    simp only [readDigits?, Option.some.injEq] at h
    simp [← h]
  | cons c r ih =>
    simp only [readDigits?] at h
    split at h
    · next d hd =>
      have hlt := ih h
      have hd' := digitIn?_lt hd
      have hle : acc * base + d + 1 ≤ (acc + 1) * base := by
        rw [Nat.add_mul, Nat.one_mul]
        omega
      calc n < (acc * base + d + 1) * Nat.pow base r.length := hlt
        _ ≤ (acc + 1) * base * Nat.pow base r.length := Nat.mul_le_mul_right _ hle
        _ = (acc + 1) * Nat.pow base (c :: r).length := by
          rw [List.length_cons, Nat.pow_eq, Nat.pow_eq, Nat.pow_succ, Nat.mul_assoc,
            Nat.mul_comm base]
    · cases h

theorem length_dropPlus_le (t : Text) : (dropPlus t).length ≤ t.length := by
  unfold dropPlus
  split <;> simp

/-- A number that was read is below the power of the base that its length gives. -/
theorem readBase?_lt_pow {base bound n : Nat} {t : Text} (hb : 0 < base)
    (h : readBase? base bound t = some n) : n < Nat.pow base t.length := by
  have hlen := length_dropPlus_le t
  unfold readBase? at h
  split at h
  · cases h
  · next c r he =>
    split at h
    · next hbound =>
      rw [readBelow?_eq_filter hb hbound] at h
      have hlt := readDigits?_lt (Option.filter_eq_some_iff.mp h).1
      rw [he] at hlen
      rw [Nat.zero_add, Nat.one_mul] at hlt
      exact Nat.lt_of_lt_of_le hlt (Nat.pow_le_pow_right hb hlen)
    · cases h

/-- The numbers that 64 bits hold are those below this one. -/
def wordBound : Nat := Nat.pow 2 64

/-- Reads a decimal numeral below 2^64. -/
def readWord? (t : Text) : Option Nat := readBase? 10 wordBound t

/-- Reads a signed decimal numeral in the range of 64-bit integers: one sign, then digits. -/
def readInt64? (t : Text) : Option Int :=
  match t with
  | '-' :: c :: r =>
    (readBelow? 10 (Nat.pow 2 63 + 1) 0 (c :: r)).map fun n => -(n : Int)
  | _ => (readBase? 10 (Nat.pow 2 63) t).map fun n => (n : Int)

/-! ## 3. Writing -/

/-- The digit of a number below ten. -/
def digit (n : Nat) : Char := Char.ofNat (48 + n)

/-- The decimal digits of a number, without leading zeros. -/
def decimal (n : Nat) : Text :=
  if n < 10 then [digit n] else decimal (n / 10) ++ [digit (n % 10)]

/-- The decimal numeral of an integer, with a minus sign when it is negative. -/
def integer (n : Int) : Text :=
  if n < 0 then '-' :: decimal n.natAbs else decimal n.natAbs

/-- The decimal numeral filled up with zeros on the left to `width` digits. -/
def padded (width n : Nat) : Text :=
  List.replicate (width - (decimal n).length) '0' ++ decimal n

theorem isDigit_digit {n : Nat} (h : n < 10) : Ascii.isDigit (digit n) = true := by
  have hv : (digit n).toNat = 48 + n := toNat_charOfNat (Or.inl (by omega))
  simp only [Ascii.isDigit, hv, Bool.and_eq_true, decide_eq_true_eq]
  omega

/-- **A decimal numeral consists of digits.** -/
theorem digits_decimal (n : Nat) : ∀ c ∈ decimal n, Ascii.isDigit c = true := by
  fun_induction decimal n with
  | case1 n h =>
    intro c hc
    rw [List.mem_singleton.mp hc]
    exact isDigit_digit h
  | case2 n _ ih =>
    intro c hc
    rcases List.mem_append.mp hc with hc | hc
    · exact ih c hc
    · rw [List.mem_singleton.mp hc]
      exact isDigit_digit (Nat.mod_lt _ (by omega))

theorem digitIn?_digit {n : Nat} (h : n < 10) : digitIn? 10 (digit n) = some n := by
  have hv : (digit n).toNat = 48 + n := toNat_charOfNat (Or.inl (by omega))
  have hd : digitValue? (digit n) = some n := by
    simp only [digitValue?, hv]
    rw [if_pos (by omega)]
    exact congrArg some (by omega)
  simp [digitIn?, hd, Option.filter, h]

/-- **A decimal numeral is read back.** -/
theorem readDigits?_decimal (n : Nat) : readDigits? 10 0 (decimal n) = some n := by
  fun_induction decimal n with
  | case1 n h => simp [readDigits?, digitIn?_digit h]
  | case2 n _ ih =>
    have hd := digitIn?_digit (Nat.mod_lt n (by omega : 0 < 10))
    rw [readDigits?_append, ih]
    simp only [Option.bind_some, readDigits?, hd, Option.some.injEq]
    omega

end TrafficGate.Numeral
