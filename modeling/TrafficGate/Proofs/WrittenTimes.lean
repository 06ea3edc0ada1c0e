import Mathlib.Algebra.Group.Nat.Defs
import TrafficGate.Proofs.DigitStrings
import TrafficGate.Time.Timestamp
/-!
  # Times that are written are read back

  A point in time of the years 0 to 9999 is written with six digits of its second, and reading the
  text gives the point in time again, to the microsecond.

  1. days and dates: a day of an era by its century, its four years, its year and its day;
  2. numerals of a fixed number of digits;
  3. points in time.

  Main facts: **`toDays_ofDays`**, **`isValid_ofDays`** and **`Usual.read?_micros`**.
-/

namespace TrafficGate

/-! ## 1. Days and dates -/

namespace Time

/-- A day of an era of 400 years, by its century, the four years in that, the year in those and the
    day in that, all from zero. Only the last of four years has a day more, and the last of a
    century only if the century is the last one too. -/
theorem exists_parts {e : Int} (h0 : 0 ≤ e) (h1 : e < 146097) :
    ∃ century cycle year day : Int, 0 ≤ century ∧ century ≤ 3 ∧ 0 ≤ cycle ∧ cycle ≤ 24 ∧
      0 ≤ year ∧ year ≤ 3 ∧ 0 ≤ day ∧ day ≤ 365 ∧
      (day = 365 → year = 3 ∧ (cycle = 24 → century = 3)) ∧
      e = 36524 * century + 1461 * cycle + 365 * year + day ∧
      (e - e / 1460 + e / 36524 - e / 146096) / 365 = 100 * century + 4 * cycle + year := by
  obtain ⟨d, hd⟩ : ∃ d, d = e / 36524 - e / 146096 := ⟨_, rfl⟩
  have hd0 : 0 ≤ d := by omega
  have hd3 : d ≤ 3 := by omega
  have hlow : 0 ≤ e - 36524 * d := by omega
  have hhigh : e - 36524 * d ≤ 36524 := by omega
  have hlast : e - 36524 * d = 36524 → d = 3 := by omega
  obtain ⟨k, hk⟩ : ∃ k, k = (e - 36524 * d) / 1461 := ⟨_, rfl⟩
  obtain ⟨s, hs⟩ : ∃ s, s = (e - 36524 * d) % 1461 := ⟨_, rfl⟩
  have hsum : e = 36524 * d + 1461 * k + s := by omega
  -- The correction by 1460 days is off by one in the last days of four years.
  have hcycle : e / 1460 = 25 * d + k + if 24 * d + k + s < 1460 then 0 else 1 := by
    split <;> omega
  have hyear : e - e / 1460 + e / 36524 - e / 146096 = e - e / 1460 + d := by omega
  refine ⟨d, k, if s = 1460 then 3 else s / 365, if s = 1460 then 365 else s % 365, ?_⟩
  rw [hyear, hcycle]
  clear hyear hcycle hd
  refine ⟨hd0, hd3, by omega, by omega, ?_⟩
  split
  · refine ⟨by omega, by omega, by omega, by omega, by omega, by omega, ?_⟩
    split <;> omega
  · refine ⟨by omega, by omega, by omega, by omega, by omega, by omega, ?_⟩
    split <;> omega

/-- **The year of an era that a day lies in, and the day in that year**. A year of 366 days is one
    whose last day, a 29th of February, belongs to a leap year. -/
theorem exists_year {e : Int} (h0 : 0 ≤ e) (h1 : e < 146097) :
    ∃ year day : Int, 0 ≤ year ∧ year ≤ 399 ∧ 0 ≤ day ∧ day ≤ 365 ∧
      (day = 365 → ∀ era : Int, isLeapYear (year + era * 400 + 1) = true) ∧
      e = 365 * year + year / 4 - year / 100 + day ∧
      (e - e / 1460 + e / 36524 - e / 146096) / 365 = year := by
  obtain ⟨d, k, t, r, hd0, hd3, hk0, hk24, ht0, ht3, hr0, hr1, hlast, hparts, hyear⟩ :=
    exists_parts h0 h1
  refine ⟨100 * d + 4 * k + t, r, by omega, by omega, hr0, hr1, fun hr era => ?_, ?_, hyear⟩
  · obtain ⟨rfl, hcentury⟩ := hlast hr
    clear hlast hyear hparts h0 h1
    simp only [isLeapYear, Bool.or_eq_true, Bool.and_eq_true, beq_iff_eq, bne_iff_ne, ne_eq]
    omega
  · clear hyear h0 h1
    omega

/-- The day of a month that begins with March, and the month, of a day of the year. -/
theorem exists_month {r : Int} (h0 : 0 ≤ r) (h1 : r ≤ 365) :
    ∃ month day : Int, (5 * r + 2) / 153 = month ∧ r - (153 * month + 2) / 5 + 1 = day ∧
      0 ≤ month ∧ month ≤ 11 ∧ 1 ≤ day ∧ day ≤ 31 ∧
      (month = 1 ∨ month = 3 ∨ month = 6 ∨ month = 8 → day ≤ 30) ∧
      (month = 11 → day ≤ 29 ∧ (day = 29 → r = 365)) := by
  obtain ⟨m, hm⟩ : ∃ m, (5 * r + 2) / 153 = m := ⟨_, rfl⟩
  refine ⟨m, _, hm, rfl, by omega, by omega, by omega, by omega, ?_, ?_⟩
  · rintro (rfl | rfl | rfl | rfl) <;> omega
  · rintro rfl
    omega

/-- The date that lies a number of days after 1970-01-01, by its parts: the era, the year of it that
    begins with March, the month of that and the day. -/
theorem exists_ofDays (days : Int) :
    ∃ era year month day dayOfYear : Int, 0 ≤ year ∧ year ≤ 399 ∧ 0 ≤ month ∧ month ≤ 11 ∧
      1 ≤ day ∧ day ≤ 31 ∧ (month = 1 ∨ month = 3 ∨ month = 6 ∨ month = 8 → day ≤ 30) ∧
      (month = 11 → day ≤ 29 ∧ (day = 29 → isLeapYear (year + era * 400 + 1) = true)) ∧
      dayOfYear = (153 * month + 2) / 5 + day - 1 ∧
      days + epochOffset =
        era * eraDays + (365 * year + year / 4 - year / 100 + dayOfYear) ∧
      Date.ofDays days =
        { year := if month < 10 then year + era * 400 else year + era * 400 + 1
          month := (if month < 10 then month + 3 else month - 9).toNat
          day := day.toNat } := by
  obtain ⟨y, r, hy0, hy1, hr0, hr1, hleap, hsum, hyear⟩ :=
    exists_year (Int.emod_nonneg (days + epochOffset) (by decide : eraDays ≠ 0))
      (Int.emod_lt_of_pos (days + epochOffset) (by decide : 0 < eraDays))
  obtain ⟨m, d, hm, hd, hm0, hm1, hd0, hd1, hshort, hlast⟩ := exists_month hr0 hr1
  have hera := Int.mul_ediv_add_emod (days + epochOffset) eraDays
  refine ⟨(days + epochOffset) / eraDays, y, m, d, r, hy0, hy1, hm0, hm1, hd0, hd1, hshort, ?_, ?_,
    ?_, ?_⟩
  · exact fun h => ⟨(hlast h).1, fun hday => hleap ((hlast h).2 hday) _⟩
  · omega
  · rw [← hsum, Int.mul_comm]
    exact hera.symm
  · have hrest : (days + epochOffset) % eraDays - (365 * y + y / 4 - y / 100) = r := by
      rw [hsum]
      omega
    simp only [Date.ofDays, hyear, hrest, hm, hd, Date.mk.injEq, and_true]
    by_cases hlow : m < 10
    · rw [if_pos hlow, if_pos hlow, if_neg (by omega)]
    · rw [if_neg hlow, if_neg hlow, if_pos (by omega)]

/-- **A date that was counted is counted back.** -/
theorem toDays_ofDays (days : Int) : (Date.ofDays days).toDays = days := by
  obtain ⟨era, year, month, day, dayOfYear, hy0, hy1, hm0, hm1, hd0, -, -, -, hday, hsum, hdate⟩ :=
    exists_ofDays days
  have hyear : (if (Date.ofDays days).month ≤ 2 then (Date.ofDays days).year - 1
      else (Date.ofDays days).year) = year + era * 400 := by
    rw [hdate]
    by_cases hlow : month < 10
    · simp only [if_pos hlow]
      rw [if_neg (by omega)]
    · simp only [if_neg hlow]
      rw [if_pos (by omega)]
      omega
  have hmonth : (if 2 < (Date.ofDays days).month then ((Date.ofDays days).month : Int) - 3
      else ((Date.ofDays days).month : Int) + 9) = month := by
    rw [hdate]
    by_cases hlow : month < 10
    · simp only [if_pos hlow]
      rw [if_pos (by omega)]
      omega
    · simp only [if_neg hlow]
      rw [if_neg (by omega)]
      omega
  have hdays : ((Date.ofDays days).day : Int) = day := by
    rw [hdate]
    exact Int.toNat_of_nonneg (by omega)
  simp only [Date.toDays, hyear, hmonth, hdays]
  have hera : (year + era * 400) / 400 = era := by omega
  have hrest : (year + era * 400) % 400 = year := by omega
  rw [hera, hrest]
  omega

/-- **A date that was counted is one that there is.** -/
theorem isValid_ofDays {days : Int} (h : isHandledYear (Date.ofDays days).year = true) :
    (Date.ofDays days).isValid = true := by
  obtain ⟨era, year, month, day, -, -, -, hm0, hm1, hd0, hd1, hshort, hlast, -, -, hdate⟩ :=
    exists_ofDays days
  have hlength : (Date.ofDays days).day ≤
      monthLength (Date.ofDays days).year (Date.ofDays days).month := by
    rw [hdate]
    by_cases hlow : month < 10
    · simp only [if_pos hlow, monthLength]
      rw [if_neg (by omega)]
      split <;> omega
    · simp only [if_neg hlow, monthLength]
      split
      · next hfebruary =>
        obtain ⟨hday, hleap⟩ := hlast (by omega)
        split
        · omega
        · next hnot =>
          have : day ≠ 29 := fun he => hnot (hleap he)
          omega
      · rw [if_neg (by omega)]
        omega
  have hmonth : 1 ≤ (Date.ofDays days).month ∧ (Date.ofDays days).month ≤ 12 := by
    rw [hdate]
    simp only []
    split <;> omega
  have hday : 1 ≤ (Date.ofDays days).day := by
    rw [hdate]
    simp only []
    omega
  simp only [Date.isValid, h, hlength, hmonth.1, hmonth.2, hday, decide_true, Bool.and_self]

end Time

/-! ## 2. Numerals of a fixed length -/

namespace Numeral

theorem readDigits?_zeros (k : Nat) (t : Text) :
    readDigits? 10 0 (List.replicate k '0' ++ t) = readDigits? 10 0 t := by
  induction k with
  | zero => rfl
  | succ k ih => exact ih

theorem readDigits?_padded (width n : Nat) : readDigits? 10 0 (padded width n) = some n := by
  rw [padded, readDigits?_zeros, readDigits?_decimal]

theorem digits_padded (width n : Nat) : ∀ c ∈ padded width n, Ascii.isDigit c = true := by
  intro c hc
  rcases List.mem_append.mp hc with hzero | hdigit
  · rw [(List.mem_replicate.mp hzero).2]
    rfl
  · exact digits_decimal n c hdigit

/-- A number below a power of ten has no more digits than that. -/
theorem length_decimal_le {width n : Nat} (hw : 0 < width) (h : n < 10 ^ width) :
    (decimal n).length ≤ width := by
  fun_induction decimal n generalizing width with
  | case1 n _ => exact hw
  | case2 n hn ih =>
    obtain ⟨k, rfl⟩ := Nat.exists_eq_succ_of_ne_zero (Nat.ne_of_gt hw)
    have hk : 0 < k := by
      rcases Nat.eq_zero_or_pos k with rfl | hk
      · exact absurd h hn
      · exact hk
    have hless : n / 10 < 10 ^ k := Nat.div_lt_of_lt_mul (by rwa [Nat.pow_succ, Nat.mul_comm] at h)
    have := ih hk hless
    rw [List.length_append, List.length_singleton]
    omega

theorem length_padded {width n : Nat} (hw : 0 < width) (h : n < 10 ^ width) :
    (padded width n).length = width := by
  have := length_decimal_le hw h
  rw [padded, List.length_append, List.length_replicate]
  omega

/-- Digits in front make a value no smaller. -/
theorem le_readDigits? {acc n : Nat} {t : Text} (h : readDigits? 10 acc t = some n) :
    acc * 10 ^ t.length ≤ n := by
  induction t generalizing acc with
  | nil =>
    cases h
    simp
  | cons c t ih =>
    rw [readDigits?] at h
    split at h
    · next d _ =>
      have := ih h
      rw [List.length_cons, Nat.pow_succ, Nat.mul_comm (10 ^ t.length), ← Nat.mul_assoc]
      refine Nat.le_trans (Nat.mul_le_mul_right _ ?_) this
      omega
    · cases h

/-- **The first digits of a numeral of a fixed length are those of a quotient.** -/
theorem readDigits?_take_padded {width n : Nat} (hw : 0 < width) (h : n < 10 ^ width) (k : Nat) :
    readDigits? 10 0 ((padded width n).take k) = some (n / 10 ^ (width - k)) := by
  have hread := readDigits?_padded width n
  rw [← List.take_append_drop k (padded width n), readDigits?_append] at hread
  obtain ⟨m, hm, hrest⟩ := Option.bind_eq_some_iff.mp hread
  have hlength : ((padded width n).drop k).length = width - k := by
    rw [List.length_drop, length_padded hw h]
  have hlow := le_readDigits? hrest
  have hhigh := readDigits?_lt hrest
  rw [hlength] at hlow hhigh
  rw [hm, Nat.div_eq_of_lt_le hlow hhigh]

end Numeral

/-! ## 3. Points in time -/

namespace Time.Timestamp

/-- A point in time to the microsecond. A second that goes on within a minute is the next one. -/
def toMicros (t : Timestamp) : Timestamp :=
  if second ≤ t.nanos ∧ t.seconds % 60 ≠ 59 then
    { seconds := t.seconds + 1, nanos := (t.nanos - second) / 1000 * 1000 }
  else { t with nanos := t.nanos / 1000 * 1000 }

/-- A point in time with a year of four digits and no more than one leap second. -/
structure Usual (t : Timestamp) : Prop where
  year : 0 ≤ (Date.ofDays (t.seconds / daySeconds)).year ∧
    (Date.ofDays (t.seconds / daySeconds)).year ≤ 9999
  nanos : t.nanos < 2 * second

instance (t : Timestamp) : Decidable t.Usual :=
  decidable_of_iff (_ ∧ _) ⟨fun h => ⟨h.1, h.2⟩, fun h => ⟨h.year, h.nanos⟩⟩

/-- **A numeral is read up to a character that is no digit.** -/
theorem number?_digits {least most n : Nat} {digits rest : Text}
    (hd : ∀ c ∈ digits, Ascii.isDigit c = true)
    (hread : Numeral.readDigits? 10 0 digits = some n) (hleast : least ≤ digits.length)
    (hmost : digits.length ≤ most) (hrest : ∀ c ∈ rest.head?, Ascii.isDigit c = false) :
    number? least most (digits ++ rest) = some (n, rest) := by
  rw [number?, Seq.takeWhile_append_of_head hd hrest, List.take_of_length_le hmost,
    if_neg (Nat.not_lt.mpr hleast), hread, Option.map_some, List.drop_left]

theorem number?_padded {width n : Nat} (hw : 0 < width) (h : n < 10 ^ width) {c : Char}
    (hc : Ascii.isDigit c = false) (rest : Text) :
    number? width width (Numeral.padded width n ++ c :: rest) = some (n, c :: rest) := by
  have hlength := Numeral.length_padded hw h
  refine number?_digits (Numeral.digits_padded width n) (Numeral.readDigits?_padded width n)
    (Nat.le_of_eq hlength.symm) (Nat.le_of_eq hlength) fun d hd => ?_
  cases hd
  exact hc

/-- The six digits of a second are read. -/
theorem nanos?_fraction {n : Nat} (h : n < second) :
    nanos? (fraction 6 n ++ ['Z']) = some (n / 1000 * 1000, ['Z']) := by
  have hlt : n < 10 ^ 9 := h
  have hlength : ((Numeral.padded 9 n).take 6).length = 6 := by
    rw [List.length_take, Numeral.length_padded (by decide) hlt]
    rfl
  have hdigits : ∀ c ∈ (Numeral.padded 9 n).take 6, Ascii.isDigit c = true :=
    fun c hc => Numeral.digits_padded 9 n c (List.mem_of_mem_take hc)
  have hread : Numeral.readDigits? 10 0 ((Numeral.padded 9 n).take 6) = some (n / 1000) :=
    Numeral.readDigits?_take_padded (by decide) hlt 6
  have hnumber : number? 1 9 ((Numeral.padded 9 n).take 6 ++ ['Z']) = some (n / 1000, ['Z']) :=
    number?_digits hdigits hread (by omega) (by omega) fun c hc => by cases hc; rfl
  have htext : fraction 6 n ++ ['Z'] = '.' :: ((Numeral.padded 9 n).take 6 ++ ['Z']) := rfl
  rw [htext, nanos?]
  simp only [hnumber, List.length_append, hlength, List.length_singleton]
  rfl

theorem expect?_self (c : Char) (t : Text) : expect? c (c :: t) = some t := if_pos rfl

theorem dateTimeBreak?_T (t : Text) : dateTimeBreak? ('T' :: t) = some t := rfl

/-- A date and a time of day with numerals of fixed lengths are read as their fields. -/
theorem read?_fields {f : Fields} {year n : Nat} (hyear : f.year = year) (hy : year < 10 ^ 4)
    (hmonth : f.month < 10 ^ 2) (hday : f.day < 10 ^ 2) (hhour : f.hour < 10 ^ 2)
    (hminute : f.minute < 10 ^ 2) (hsecond : f.secondOfMinute < 10 ^ 2) (hn : n < second)
    (hnanos : f.nanos = n / 1000 * 1000) :
    read? (Numeral.padded 4 year ++ '-' :: (Numeral.padded 2 f.month ++
      '-' :: (Numeral.padded 2 f.day ++ 'T' :: (Numeral.padded 2 f.hour ++
      ':' :: (Numeral.padded 2 f.minute ++ ':' :: (Numeral.padded 2 f.secondOfMinute ++
      (fraction 6 n ++ ['Z']))))))) = ofFields? f 0 := by
  have htwo {m : Nat} (hm : m < 10 ^ 2) {c : Char} (hc : Ascii.isDigit c = false) (rest : Text) :
      twoDigits? (Numeral.padded 2 m ++ c :: rest) = some (m, c :: rest) :=
    number?_padded (by decide) hm hc rest
  have hlast : twoDigits? (Numeral.padded 2 f.secondOfMinute ++ (fraction 6 n ++ ['Z'])) =
      some (f.secondOfMinute, fraction 6 n ++ ['Z']) := htwo hsecond (c := '.') rfl _
  have hzone : offset? (expect? ':') ['Z'] = some (0, []) := rfl
  obtain ⟨y, month, day, hour, minute, secondOfMinute, nanos⟩ := f
  subst hyear hnanos
  simp only [read?, number?_padded (by decide) hy (c := '-') rfl, expect?_self, dateTimeBreak?_T,
    htwo hmonth (c := '-') rfl, htwo hday (c := 'T') rfl, htwo hhour (c := ':') rfl,
    htwo hminute (c := ':') rfl, hlast, nanos?_fraction hn, hzone, Option.bind_eq_bind,
    Option.bind_some, List.isEmpty_nil, if_true]

/-- The second of its day that a point in time lies in. -/
def secondOfDay (t : Timestamp) : Nat := (t.seconds % daySeconds).toNat

/-- The second of the minute that is shown, one more within a leap second. -/
def shownSecond (t : Timestamp) : Nat :=
  t.secondOfDay % 60 + (if decide (second ≤ t.nanos) then 1 else 0)

/-- The fields that are shown of a point in time. -/
def shown (t : Timestamp) : Fields :=
  { year := (Date.ofDays (t.seconds / daySeconds)).year
    month := (Date.ofDays (t.seconds / daySeconds)).month
    day := (Date.ofDays (t.seconds / daySeconds)).day
    hour := t.secondOfDay / 3600
    minute := t.secondOfDay / 60 % 60
    secondOfMinute := t.shownSecond
    nanos := t.shownNanos / 1000 * 1000 }

theorem cast_secondOfDay (t : Timestamp) : (t.secondOfDay : Int) = t.seconds % 86400 :=
  Int.toNat_of_nonneg (Int.emod_nonneg _ (by decide))

theorem secondOfDay_lt (t : Timestamp) : t.secondOfDay < 86400 := by
  have := t.cast_secondOfDay
  omega

theorem shownSecond_le (t : Timestamp) : t.shownSecond ≤ 60 := by
  unfold shownSecond
  split <;> omega

namespace Usual

variable {t : Timestamp}

theorem isValid (h : t.Usual) : (Date.ofDays (t.seconds / daySeconds)).isValid = true := by
  refine isValid_ofDays ?_
  have := h.year
  rw [isHandledYear, minYear, maxYear, Bool.and_eq_true, decide_eq_true_eq, decide_eq_true_eq]
  omega

/-- The text has the fields that are shown. -/
theorem read?_eq (h : t.Usual) : read? t.micros = ofFields? t.shown 0 := by
  have hyear := h.year
  have hsecond := t.secondOfDay_lt
  have hshown := t.shownSecond_le
  have hvalid := h.isValid
  have hlength := monthLength_le (Date.ofDays (t.seconds / daySeconds)).year
    (Date.ofDays (t.seconds / daySeconds)).month
  simp only [Date.isValid, Bool.and_eq_true, decide_eq_true_eq] at hvalid
  have hread := read?_fields (f := t.shown) (Int.toNat_of_nonneg hyear.1).symm
    (by omega) (show (Date.ofDays (t.seconds / daySeconds)).month < 10 ^ 2 by omega)
    (show (Date.ofDays (t.seconds / daySeconds)).day < 10 ^ 2 by omega)
    (show t.secondOfDay / 3600 < 10 ^ 2 by omega) (show t.secondOfDay / 60 % 60 < 10 ^ 2 by omega)
    (show t.shownSecond < 10 ^ 2 by omega) (Nat.mod_lt t.nanos (by decide : 0 < second)) rfl
  rw [← hread, micros, render]
  simp only [dateText, yearText, if_pos hyear, clockText, List.append_assoc, List.cons_append]
  rfl

/-- The point in time of the fields that are shown. -/
theorem ofFields?_shown (h : t.Usual) :
    ofFields? t.shown 0 =
      some { seconds := t.seconds / 86400 * 86400 + ((t.secondOfDay / 3600 * 3600 +
               t.secondOfDay / 60 % 60 * 60 + min t.shownSecond 59 : Nat) : Int) - 0
             nanos := t.shownNanos / 1000 * 1000 + (if t.shownSecond = 60 then second else 0) } := by
  have hsecond := t.secondOfDay_lt
  have hhour : t.secondOfDay / 3600 < 24 := by omega
  have hminute : t.secondOfDay / 60 % 60 < 60 := by omega
  have hdays := toDays_ofDays (t.seconds / daySeconds)
  rw [ofFields?, if_pos]
  · refine congrArg some (congrArg (Timestamp.mk · _) ?_)
    change (Date.ofDays (t.seconds / daySeconds)).toDays * daySeconds + _ - 0 = _
    rw [hdays]
    rfl
  · change ((Date.ofDays (t.seconds / daySeconds)).isValid && decide (t.secondOfDay / 3600 < 24) &&
      decide (t.secondOfDay / 60 % 60 < 60) && decide (t.shownSecond ≤ 60) &&
      decide (-daySeconds < 0) && decide ((0 : Int) < daySeconds)) = true
    rw [h.isValid, decide_eq_true hhour, decide_eq_true hminute, decide_eq_true t.shownSecond_le]
    rfl

/-- **What is written is read back**, to the microsecond. -/
theorem read?_micros (h : t.Usual) : read? t.micros = some t.toMicros := by
  rw [h.read?_eq, h.ofFields?_shown, Option.some.injEq]
  have hday := t.cast_secondOfDay
  have hnanos := h.nanos
  have hbillion : second = 1000000000 := rfl
  have hshown : t.shownNanos = t.nanos % 1000000000 := rfl
  by_cases hleap : second ≤ t.nanos
  · have hsecond : t.shownSecond = t.secondOfDay % 60 + 1 := by
      rw [shownSecond, decide_eq_true hleap, if_pos rfl]
    -- A leap second stands at the end of a minute, or is shown as the second behind it.
    by_cases hend : t.seconds % 60 = 59
    · have hcut : t.toMicros = { t with nanos := t.nanos / 1000 * 1000 } :=
        if_neg fun he => he.2 hend
      rw [hcut, Timestamp.mk.injEq, if_pos (by omega)]
      omega
    · have hcut : t.toMicros =
          { seconds := t.seconds + 1, nanos := (t.nanos - second) / 1000 * 1000 } :=
        if_pos ⟨hleap, hend⟩
      rw [hcut, Timestamp.mk.injEq, if_neg (by omega)]
      omega
  · have hsecond : t.shownSecond = t.secondOfDay % 60 := by
      rw [shownSecond, decide_eq_false hleap, if_neg Bool.false_ne_true, Nat.add_zero]
    have hcut : t.toMicros = { t with nanos := t.nanos / 1000 * 1000 } :=
      if_neg fun he => hleap he.1
    rw [hcut, Timestamp.mk.injEq, if_neg (by omega)]
    omega

end Usual

end Time.Timestamp

end TrafficGate
