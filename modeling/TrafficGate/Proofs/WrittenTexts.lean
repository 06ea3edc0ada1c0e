import TrafficGate.Text.Utf8
/-!
  # Bytes that are texts

  Strict reading takes exactly the bytes that a text is written in: a character that is read stands
  in the bytes as it is written, in no more of them and in no other way.

  1. a byte and the number it was made of;
  2. the first character;
  3. whole byte strings;
  4. bytes below 128, which are characters of their own wherever they stand.

  Main facts: **`eq_of_decodeFirst`**, **`decode?_eq_some_iff`**, **`decodeLossy_append_ascii`** and
  **`mem_decodeLossy_iff`**.
-/

namespace TrafficGate.Utf8

/-! ## 1. Bytes -/

/-- A byte is made of its number. -/
theorem byte_eq {b : UInt8} {n : Nat} (h : n = b.toNat) : UInt8.ofNat n = b := by
  rw [h, UInt8.ofNat_toNat]

theorem toNat_of_isTail {b : UInt8} (h : isTail b = true) :
    0x80 + tailValue b = b.toNat ∧ tailValue b < 64 := by
  simp only [isTail, within, Bool.and_eq_true, decide_eq_true_eq] at h
  unfold tailValue
  omega

/-- A second byte that may stand behind its leading byte continues a character. -/
theorem isTail_of_second {n : Nat} {b : UInt8} (h : within (secondLow n) (secondHigh n) b = true) :
    secondLow n ≤ b.toNat ∧ b.toNat ≤ secondHigh n ∧ isTail b = true := by
  simp only [within, Bool.and_eq_true, decide_eq_true_eq] at h
  refine ⟨h.1, h.2, ?_⟩
  have hlow : 0x80 ≤ secondLow n := by
    unfold secondLow
    split
    · omega
    · split <;> omega
  have hhigh : secondHigh n ≤ 0xBF := by
    unfold secondHigh
    split
    · omega
    · split <;> omega
  simp only [isTail, within, Bool.and_eq_true, decide_eq_true_eq]
  omega

/-! ## 2. The first character -/

section First

variable {a b d e : UInt8} {k : Nat}

theorem encodeChar_one (hk : k = a.toNat) (h : k < 0x80) : encodeChar (Char.ofNat k) = [a] := by
  have hvalue : (Char.ofNat k).toNat = k := toNat_charOfNat (.inl (by omega))
  simp only [encodeChar, hvalue, if_pos h, byte_eq hk]

theorem encodeChar_two (ha : 0xC2 ≤ a.toNat) (ha' : a.toNat < 0xE0) (hb : isTail b = true)
    (hk : k = (a.toNat - 0xC0) * 64 + tailValue b) : encodeChar (Char.ofNat k) = [a, b] := by
  obtain ⟨hbyte, hlt⟩ := toNat_of_isTail hb
  have hvalue : (Char.ofNat k).toNat = k := toNat_charOfNat (.inl (by omega))
  simp only [encodeChar, hvalue]
  rw [if_neg (by omega), if_pos (by omega), byte_eq (b := a) (by omega),
    byte_eq (b := b) (by omega)]

/-- The bounds of the second byte keep a character of three bytes from being a short one or a
    surrogate. -/
theorem encodeChar_three (ha : 0xE0 ≤ a.toNat) (ha' : a.toNat < 0xF0)
    (hb : within (secondLow a.toNat) (secondHigh a.toNat) b = true) (hd : isTail d = true)
    (hk : k = (a.toNat - 0xE0) * 4096 + tailValue b * 64 + tailValue d) :
    encodeChar (Char.ofNat k) = [a, b, d] := by
  obtain ⟨hlow, hhigh, hb⟩ := isTail_of_second hb
  obtain ⟨hbyte, hlt⟩ := toNat_of_isTail hb
  obtain ⟨hbyte', hlt'⟩ := toNat_of_isTail hd
  have hlong : 0x800 ≤ k := by
    unfold secondLow at hlow
    split at hlow <;> omega
  have hplane : k < 0xD800 ∨ 0xDFFF < k ∧ k < 0x10000 := by
    unfold secondHigh at hhigh
    split at hhigh <;> omega
  have hvalue : (Char.ofNat k).toNat = k := toNat_charOfNat (by
    rcases hplane with h | h
    · exact .inl h
    · exact .inr ⟨h.1, by omega⟩)
  simp only [encodeChar, hvalue]
  rw [if_neg (by omega), if_neg (by omega), if_pos (by omega), byte_eq (b := a) (by omega),
    byte_eq (b := b) (by omega), byte_eq (b := d) (by omega)]

/-- The bounds of the second byte keep a character of four bytes from being a short one or beyond
    the last. -/
theorem encodeChar_four (ha : 0xF0 ≤ a.toNat) (ha' : a.toNat < 0xF5)
    (hb : within (secondLow a.toNat) (secondHigh a.toNat) b = true) (hd : isTail d = true)
    (he : isTail e = true)
    (hk : k = (a.toNat - 0xF0) * 262144 + tailValue b * 4096 + tailValue d * 64 + tailValue e) :
    encodeChar (Char.ofNat k) = [a, b, d, e] := by
  obtain ⟨hlow, hhigh, hb⟩ := isTail_of_second hb
  obtain ⟨hbyte, hlt⟩ := toNat_of_isTail hb
  obtain ⟨hbyte', hlt'⟩ := toNat_of_isTail hd
  obtain ⟨hbyte'', hlt''⟩ := toNat_of_isTail he
  have hlong : 0x10000 ≤ k := by
    unfold secondLow at hlow
    split at hlow
    · omega
    · split at hlow <;> omega
  have hlast : k < 0x110000 := by
    unfold secondHigh at hhigh
    split at hhigh
    · omega
    · split at hhigh <;> omega
  have hvalue : (Char.ofNat k).toNat = k := toNat_charOfNat (.inr ⟨by omega, hlast⟩)
  simp only [encodeChar, hvalue]
  rw [if_neg (by omega), if_neg (by omega), if_neg (by omega), byte_eq (b := a) (by omega),
    byte_eq (b := b) (by omega), byte_eq (b := d) (by omega), byte_eq (b := e) (by omega)]

end First

/-- **A character that is read stands in the bytes as it is written.** -/
theorem eq_of_decodeFirst {a : UInt8} {rest left : Bytes} {c : Char}
    (h : decodeFirst a rest = (some c, left)) : a :: rest = encodeChar c ++ left := by
  revert h
  fun_cases decodeFirst a rest with
  | case1 _ n hone =>
    intro h
    obtain ⟨hc, rfl⟩ := Prod.mk.inj h
    rw [← Option.some.inj hc, encodeChar_one rfl hone]
    rfl
  | case3 n _ hlow htwo b r hb =>
    intro h
    obtain ⟨hc, rfl⟩ := Prod.mk.inj h
    rw [← Option.some.inj hc, encodeChar_two (Nat.le_of_not_lt hlow) htwo hb rfl]
    rfl
  | case6 n _ _ hlow hthree b hb d r hd =>
    intro h
    obtain ⟨hc, rfl⟩ := Prod.mk.inj h
    rw [← Option.some.inj hc, encodeChar_three (Nat.le_of_not_lt hlow) hthree hb hd rfl]
    rfl
  | case11 n _ _ _ hlow hfour b hb d hd e r he =>
    intro h
    obtain ⟨hc, rfl⟩ := Prod.mk.inj h
    rw [← Option.some.inj hc, encodeChar_four (Nat.le_of_not_lt hlow) hfour hb hd he rfl]
    rfl
  | _ => exact nofun

/-! ## 3. Whole byte strings -/

/-- Bytes that are read are those that the text is written in. -/
theorem eq_encode_of_decode? {bs : Bytes} {t : Text} (h : decode? bs = some t) : bs = encode t := by
  induction t generalizing bs with
  | nil =>
    cases bs with
    | nil => rfl
    | cons a rest =>
      rw [decode?] at h
      split at h
      · obtain ⟨_, _, he⟩ := Option.map_eq_some_iff.mp h
        cases he
      · cases h
  | cons c t ih =>
    cases bs with
    | nil =>
      rw [decode?] at h
      cases h
    | cons a rest =>
      rw [decode?] at h
      split at h
      · next c' left hfirst =>
        obtain ⟨t', ht', he⟩ := Option.map_eq_some_iff.mp h
        obtain ⟨rfl, rfl⟩ := List.cons.inj he
        rw [eq_of_decodeFirst hfirst, ih ht', encode_cons]
      · cases h

/-- **Bytes are read as a text exactly if they are what it is written in.** -/
theorem decode?_eq_some_iff {bs : Bytes} {t : Text} : decode? bs = some t ↔ bs = encode t := by
  constructor
  · exact eq_encode_of_decode?
  · rintro rfl
    exact decode?_encode t

/-! ## 4. Bytes below 128 -/

section Ascii

variable {s : UInt8}

theorem not_within_of_ascii (hs : s.toNat < 0x80) (n : Nat) :
    within (secondLow n) (secondHigh n) s = false := by
  rw [Bool.eq_false_iff]
  intro hwithin
  have htail := (toNat_of_isTail (isTail_of_second hwithin).2.2).1
  omega

theorem not_isTail_of_ascii (hs : s.toNat < 0x80) : isTail s = false := by
  rw [Bool.eq_false_iff]
  intro htail
  have hvalue := (toNat_of_isTail htail).1
  omega

/-- **A byte below 128 ends the character or the fault in front of it**, and stays behind it. -/
theorem decodeFirst_append_ascii (hs : s.toNat < 0x80) (a : UInt8) (rest behind : Bytes) :
    decodeFirst a (rest ++ s :: behind) =
      ((decodeFirst a rest).1, (decodeFirst a rest).2 ++ s :: behind) := by
  have htail := not_isTail_of_ascii hs
  have hsecond := not_within_of_ascii hs
  unfold decodeFirst
  simp only []
  split
  · rfl
  split
  · rfl
  split
  · -- two bytes
    cases rest with
    | nil => simp only [List.nil_append, htail, Bool.false_eq_true, if_false]
    | cons b r =>
      rw [List.cons_append]
      cases hb : isTail b <;> simp only [hb, Bool.false_eq_true, if_false, if_true, List.cons_append]
  split
  · -- three bytes
    rcases rest with _ | ⟨b, _ | ⟨c, r⟩⟩
    · simp only [List.nil_append, hsecond, Bool.false_eq_true, if_false]
    · cases hb : within (secondLow a.toNat) (secondHigh a.toNat) b <;>
        simp only [hb, List.cons_append, List.nil_append, htail, Bool.false_eq_true, if_false, if_true]
    · cases hb : within (secondLow a.toNat) (secondHigh a.toNat) b <;> cases hc : isTail c <;>
        simp only [hb, hc, List.cons_append, Bool.false_eq_true, if_false, if_true]
  split
  · -- four bytes
    rcases rest with _ | ⟨b, _ | ⟨c, _ | ⟨d, r⟩⟩⟩
    · simp only [List.nil_append, hsecond, Bool.false_eq_true, if_false]
    · cases hb : within (secondLow a.toNat) (secondHigh a.toNat) b <;>
        simp only [hb, List.cons_append, List.nil_append, htail, Bool.false_eq_true, if_false, if_true]
    · cases hb : within (secondLow a.toNat) (secondHigh a.toNat) b <;> cases hc : isTail c <;>
        simp only [hb, hc, List.cons_append, List.nil_append, htail, Bool.false_eq_true, if_false,
          if_true]
    · cases hb : within (secondLow a.toNat) (secondHigh a.toNat) b <;> cases hc : isTail c <;>
        cases hd : isTail d <;>
        simp only [hb, hc, hd, List.cons_append, Bool.false_eq_true, if_false, if_true]
  · rfl

theorem decodeLossy_append_ascii (hs : s.toNat < 0x80) (front behind : Bytes) :
    decodeLossy (front ++ s :: behind) =
      decodeLossy front ++ Char.ofNat s.toNat :: decodeLossy behind := by
  fun_induction decodeLossy front with
  | case1 =>
    have hfirst : decodeFirst s behind = (some (Char.ofNat s.toNat), behind) := by
      simp only [decodeFirst, hs, if_true]
    rw [List.nil_append, decodeLossy, hfirst]
    rfl
  | case2 a rest c? left hfirst ih =>
    have hwhole := decodeFirst_append_ascii hs a rest behind
    rw [hfirst] at hwhole
    rw [List.cons_append, decodeLossy, hwhole]
    simp only [ih, List.cons_append]

/-- What is left of the bytes stands at their end. -/
theorem decodeFirst_suffix (a : UInt8) (rest : Bytes) : (decodeFirst a rest).2 <:+ rest := by
  fun_cases decodeFirst a rest with
  | case3 => exact List.suffix_cons ..
  | case6 => exact (List.suffix_cons ..).trans (List.suffix_cons ..)
  | case7 => exact List.suffix_cons ..
  | case11 =>
    exact ((List.suffix_cons ..).trans (List.suffix_cons ..)).trans (List.suffix_cons ..)
  | case12 => exact (List.suffix_cons ..).trans (List.suffix_cons ..)
  | case14 => exact List.suffix_cons ..
  | _ => first | exact List.suffix_refl _ | exact List.nil_suffix

/-- A character below 128 is read of its byte only. -/
theorem mem_decodeLossy_iff (hs : s.toNat < 0x80) {bs : Bytes} :
    Char.ofNat s.toNat ∈ decodeLossy bs ↔ s ∈ bs := by
  constructor
  · fun_induction decodeLossy bs with
    | case1 => exact nofun
    | case2 a rest c? left hfirst ih =>
      intro hmem
      rcases List.mem_cons.mp hmem with hchar | hleft
      · cases c? with
        | none =>
          have hvalue := congrArg Char.toNat hchar
          rw [toNat_charOfNat (.inl (by omega))] at hvalue
          rw [hvalue] at hs
          exact absurd hs (by decide)
        | some c =>
          obtain rfl : Char.ofNat s.toNat = c := hchar
          rw [eq_of_decodeFirst hfirst, encodeChar_one rfl hs]
          exact List.mem_cons_self
      · have hsuffix := decodeFirst_suffix a rest
        rw [hfirst] at hsuffix
        exact List.mem_cons_of_mem a (hsuffix.mem (ih hleft))
  · intro hmem
    obtain ⟨front, behind, rfl⟩ := List.append_of_mem hmem
    rw [decodeLossy_append_ascii hs]
    exact List.mem_append_right _ List.mem_cons_self

end Ascii

end TrafficGate.Utf8
