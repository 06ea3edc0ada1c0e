/-!
  # Whole numbers as doubles

  A double keeps the first 53 bits of a whole number, so that a larger one is rounded; numbers that
  are large enough have no double at all.

  1. `roundDiv` -- a quotient rounded to the nearest whole number, a half to the even one;
  2. `nearest` -- the double that is nearest to a whole number;
  3. `fits` -- whether a product with a power of ten has a double.

  Main facts: **`nearest_of_lt`** (what 53 bits hold is not rounded) and **`nearest_le`**,
  **`le_nearest`** (rounding moves a number by half a unit of its last place at most).
-/

namespace TrafficGate.Double

/-! ## 1. Rounded quotients -/

/-- `n / d` rounded to the nearest whole number; of two that are equally near, the even one. -/
def roundDiv (n d : Nat) : Nat :=
  if 2 * (n % d) < d then n / d
  else if d < 2 * (n % d) then n / d + 1
  else n / d + n / d % 2

theorem roundDiv_one (n : Nat) : roundDiv n 1 = n := by
  simp [roundDiv, Nat.mod_one]

/-- A rounded quotient is too large by half at most. -/
theorem two_mul_roundDiv_le (n : Nat) {d : Nat} (hd : 0 < d) :
    2 * (roundDiv n d * d) ≤ 2 * n + d := by
  have hn := Nat.div_add_mod n d
  rw [Nat.mul_comm] at hn
  have hm := Nat.mod_lt n hd
  have h2 : n / d % 2 < 2 := Nat.mod_lt _ (by omega)
  unfold roundDiv
  split
  · omega
  · split
    · rw [Nat.add_mul]
      omega
    · rw [Nat.add_mul]
      have : n / d % 2 * d ≤ 1 * d := Nat.mul_le_mul_right d (by omega)
      omega

/-- A rounded quotient is too small by half at most. -/
theorem le_two_mul_roundDiv (n : Nat) {d : Nat} (hd : 0 < d) :
    2 * n ≤ 2 * (roundDiv n d * d) + d := by
  have hn := Nat.div_add_mod n d
  rw [Nat.mul_comm] at hn
  have hm := Nat.mod_lt n hd
  unfold roundDiv
  split
  · omega
  · split
    · rw [Nat.add_mul]
      omega
    · rw [Nat.add_mul]
      omega

/-! ## 2. The nearest double -/

/-- How many bits of a number a double keeps. -/
def precision : Nat := 53

/-- The unit of the last place that a double of this size keeps. -/
def unit (n : Nat) : Nat := Nat.pow 2 (n.log2 + 1 - precision)

theorem unit_pos (n : Nat) : 0 < unit n := Nat.two_pow_pos _

/-- The double that is nearest to a whole number, as a whole number. -/
def nearest (n : Nat) : Nat := roundDiv n (unit n) * unit n

/-- **What 53 bits hold is not rounded.** -/
theorem nearest_of_lt {n : Nat} (h : n < Nat.pow 2 precision) : nearest n = n := by
  have hu : unit n = 1 := by
    rcases Nat.eq_zero_or_pos n with rfl | hp
    · simp [unit, precision]
    · have hl : n.log2 < precision := (Nat.log2_lt (by omega)).mpr h
      rw [unit, Nat.sub_eq_zero_of_le (by omega)]
  rw [nearest, hu, roundDiv_one, Nat.mul_one]

/-- **The nearest double is too large by half a unit at most.** -/
theorem nearest_le (n : Nat) : 2 * nearest n ≤ 2 * n + unit n :=
  two_mul_roundDiv_le n (unit_pos n)

/-- **The nearest double is too small by half a unit at most.** -/
theorem le_nearest (n : Nat) : 2 * n ≤ 2 * nearest n + unit n :=
  le_two_mul_roundDiv n (unit_pos n)

/-! ## 3. Products -/

/-- Numbers of this size and above have no double. -/
def bound : Nat := Nat.pow 2 1024 - Nat.pow 2 970

/-- The largest power of ten with a double. -/
def maxScale : Nat := 308

/-- Whether the product of the doubles of `n` and of `10 ^ scale` has a double. -/
def fits (n scale : Nat) : Bool :=
  n == 0 || (decide (scale ≤ maxScale) && decide (nearest n * nearest (Nat.pow 10 scale) < bound))

end TrafficGate.Double
