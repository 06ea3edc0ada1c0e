import TrafficGate.Proofs.WrittenTexts
import TrafficGate.Text.Base64
import TrafficGate.Text.Blank
/-!
  # Base64 is read back

  Three bytes make four symbols, and a rest of one or two bytes a group that is filled up. What is
  read are the bytes again, group by group. Trimming such a text loses nothing, as none of its
  characters is white space.

  1. the bytes that can stand in such a text;
  2. groups of symbols;
  3. whole texts.

  Main facts: **`lastGroup_filled`**, **`groups_encodeBytes`** and **`decode_encode`**.
-/

namespace TrafficGate.Base64

/-! ## 1. Bytes -/

theorem symbolByte_ne_padByte : ∀ n < 64, symbolByte n ≠ padByte := by decide

theorem toNat_symbolByte : ∀ n < 64, 33 ≤ (symbolByte n).toNat ∧ (symbolByte n).toNat < 127 := by
  decide

/-- The six bits of each symbol of three bytes. -/
def bitsOf (a b c : UInt8) : List Nat :=
  [a.toNat / 4, a.toNat % 4 * 16 + b.toNat / 16, b.toNat % 16 * 4 + c.toNat / 64, c.toNat % 64]

theorem bitsOf_lt (a b c : UInt8) : ∀ n ∈ bitsOf a b c, n < 64 := by
  have ha := a.toNat_lt
  have hb := b.toNat_lt
  have hc := c.toNat_lt
  simp only [bitsOf, List.forall_mem_cons]
  refine ⟨by omega, by omega, by omega, by omega, List.forall_mem_nil _⟩

/-- **Three bytes are read back from their bits.** -/
theorem groupBytes_bitsOf (a b c : UInt8) : groupBytes (bitsOf a b c) = [a, b, c] := by
  have ha := a.toNat_lt
  have hb := b.toNat_lt
  have hc := c.toNat_lt
  simp only [groupBytes, bitsOf, quad]
  rw [Utf8.byte_eq (show _ = a.toNat by omega), Utf8.byte_eq (show _ = b.toNat by omega),
    Utf8.byte_eq (show _ = c.toNat by omega)]

/-! ## 2. Groups -/

section Groups

variable {place : Nat} {ns : List Nat}

/-- Symbols are read one by one. -/
theorem symbols_map (offset : Nat) (hns : ∀ n ∈ ns, n < 64) :
    symbols offset (ns.map symbolByte) = .ok ns := by
  induction ns generalizing offset with
  | nil => rfl
  | cons n ns ih =>
    obtain ⟨hn, hns⟩ := List.forall_mem_cons.mp hns
    simp only [List.map_cons, symbols, symbol?_symbolByte n hn, ih (offset + 1) hns]

theorem filterMap_symbol? (hns : ∀ n ∈ ns, n < 64) :
    (ns.map symbolByte).filterMap symbol? = ns := by
  induction ns with
  | nil => rfl
  | cons n ns ih =>
    obtain ⟨hn, hns⟩ := List.forall_mem_cons.mp hns
    rw [List.map_cons, List.filterMap_cons_some (symbol?_symbolByte n hn), ih hns]

/-- Symbols may stand in front of what fills up. -/
theorem checkFill_symbols (offset place : Nat) (hns : ∀ n ∈ ns, n < 64) (behind : Bytes) :
    checkFill offset place none (ns.map symbolByte ++ behind) =
      checkFill offset (place + ns.length) none behind := by
  induction ns generalizing place with
  | nil => rfl
  | cons n ns ih =>
    obtain ⟨hn, hns⟩ := List.forall_mem_cons.mp hns
    simp only [List.map_cons, List.cons_append, checkFill, if_neg (symbolByte_ne_padByte n hn),
      symbol?_symbolByte n hn, ih (place + 1) hns, List.length_cons]
    congr 1
    omega

/-- From the third place on a group may be filled up to its end. -/
theorem checkFill_replicate (offset : Nat) (hplace : 2 ≤ place) (first : Option Nat) (k : Nat) :
    checkFill offset place first (List.replicate k padByte) = .ok () := by
  induction k generalizing place first with
  | zero => rfl
  | succ k ih =>
    simp only [List.replicate_succ, checkFill, if_true, if_neg (Nat.not_lt.mpr hplace)]
    exact ih (Nat.le_succ_of_le hplace) _

/-- **A group that is filled up to four bytes gives the bytes of its symbols**, if none of their
    bits is left over. -/
theorem lastGroup_filled (offset : Nat) (hns : ∀ n ∈ ns, n < 64) (htwo : 2 ≤ ns.length)
    (hfour : ns.length ≤ 4) (hleft : leftOver ns = 0) :
    lastGroup offset (ns.map symbolByte ++ List.replicate (4 - ns.length) padByte) =
      .ok (groupBytes ns) := by
  have hcheck : checkFill offset 0 none
      (ns.map symbolByte ++ List.replicate (4 - ns.length) padByte) = .ok () := by
    rw [checkFill_symbols offset 0 hns]
    exact checkFill_replicate offset (by omega) none _
  have hsymbols : ∀ b ∈ ns.map symbolByte, decide (b ≠ padByte) = true := by
    intro b hb
    obtain ⟨n, hn, rfl⟩ := List.mem_map.mp hb
    exact decide_eq_true (symbolByte_ne_padByte n (hns n hn))
  have hfill : ∀ b ∈ (List.replicate (4 - ns.length) padByte).head?,
      decide (b ≠ padByte) = false := by
    intro b hb
    obtain rfl := List.eq_of_mem_replicate (List.mem_of_mem_head? hb)
    rfl
  have hwritten := Seq.takeWhile_append_of_head hsymbols hfill
  have hlength : (ns.map symbolByte ++ List.replicate (4 - ns.length) padByte).length = 4 := by
    rw [List.length_append, List.length_map, List.length_replicate]
    omega
  have hne : (ns.map symbolByte ++ List.replicate (4 - ns.length) padByte).isEmpty = false := by
    rw [Bool.eq_false_iff, ne_eq, List.isEmpty_iff]
    exact fun hnil => absurd (congrArg List.length hnil) (by rw [hlength]; decide)
  simp only [lastGroup, hcheck, hwritten, filterMap_symbol? hns, hlength, hne, hleft]
  rw [if_neg Bool.false_ne_true, if_neg (Nat.not_lt.mpr htwo), if_neg (fun h => h rfl),
    if_neg (fun h => h rfl)]

/-- A full group stands in front of another one. -/
theorem groups_of_full (offset : Nat) (hns : ∀ n ∈ ns, n < 64) (hfour : ns.length = 4)
    {behind bytes : Bytes} (hne : behind ≠ []) (hbehind : groups (offset + 4) behind = .ok bytes) :
    groups offset (ns.map symbolByte ++ behind) = .ok (groupBytes ns ++ bytes) := by
  obtain ⟨b, rest, rfl⟩ := List.exists_cons_of_ne_nil hne
  match ns, hfour with
  | [p, q, r, s], _ =>
    have hread := symbols_map offset hns
    simp only [List.map_cons, List.map_nil] at hread
    simp only [List.map_cons, List.map_nil, List.cons_append, List.nil_append, groups, hread,
      hbehind]

end Groups

/-! ## 3. Texts -/

/-- Three bytes are a group in front of the others. -/
theorem encodeBytes_append (a b c : UInt8) (rest : Bytes) :
    encodeBytes (a :: b :: c :: rest) = (bitsOf a b c).map symbolByte ++ encodeBytes rest := rfl

theorem encodeBytes_ne_nil {bs : Bytes} (h : bs ≠ []) : encodeBytes bs ≠ [] := by
  match bs, h with
  | [_], _ => exact List.cons_ne_nil _ _
  | [_, _], _ => exact List.cons_ne_nil _ _
  | _ :: _ :: _ :: _, _ => exact List.cons_ne_nil _ _

/-- **The groups of bytes are read back.** -/
theorem groups_encodeBytes (offset : Nat) (bs : Bytes) :
    groups offset (encodeBytes bs) = .ok bs := by
  induction bs using encodeBytes.induct generalizing offset with
  | case1 => rfl
  | case2 a =>
    have ha := a.toNat_lt
    have hbits : ∀ n ∈ [a.toNat / 4, a.toNat % 4 * 16], n < 64 := by
      simp only [List.forall_mem_cons]
      exact ⟨by omega, by omega, List.forall_mem_nil _⟩
    refine (lastGroup_filled offset hbits (Nat.le_refl 2) (Nat.le_add_right 2 2) ?_).trans ?_
    · simp only [leftOver]
      omega
    · simp only [groupBytes]
      rw [Utf8.byte_eq (show _ = a.toNat by omega)]
  | case3 a b =>
    have ha := a.toNat_lt
    have hb := b.toNat_lt
    have hbits : ∀ n ∈ [a.toNat / 4, a.toNat % 4 * 16 + b.toNat / 16, b.toNat % 16 * 4],
        n < 64 := by
      simp only [List.forall_mem_cons]
      exact ⟨by omega, by omega, by omega, List.forall_mem_nil _⟩
    refine (lastGroup_filled offset hbits (Nat.le_add_right 2 1) (Nat.le_add_right 3 1) ?_).trans ?_
    · simp only [leftOver]
      omega
    · simp only [groupBytes]
      rw [Utf8.byte_eq (show _ = a.toNat by omega), Utf8.byte_eq (show _ = b.toNat by omega)]
  | case4 a b c rest ih =>
    rw [encodeBytes_append]
    by_cases hrest : rest = []
    · subst hrest
      refine (lastGroup_filled offset (bitsOf_lt a b c) (Nat.le_add_right 2 2) (Nat.le_refl 4)
        rfl).trans ?_
      rw [groupBytes_bitsOf]
    · rw [groups_of_full offset (bitsOf_lt a b c) rfl (encodeBytes_ne_nil hrest) (ih _),
        groupBytes_bitsOf]
      rfl

theorem length_encodeBytes_mod (bs : Bytes) : (encodeBytes bs).length % 4 = 0 := by
  induction bs using encodeBytes.induct with
  | case1 => rfl
  | case2 a => simp only [encodeBytes, List.length_cons, List.length_nil]
  | case3 a b => simp only [encodeBytes, List.length_cons, List.length_nil]
  | case4 a b c rest ih =>
    simp only [encodeBytes, List.length_cons]
    omega

theorem decode_encodeBytes (bs : Bytes) : decode (encodeBytes bs) = .ok bs := by
  have hstray : strayLast? (encodeBytes bs) = none := by
    rw [strayLast?, if_neg]
    rw [length_encodeBytes_mod]
    decide
  rw [decode, hstray]
  exact groups_encodeBytes 0 bs

/-- No byte of such a text is a control, a blank or above 127. -/
theorem toNat_of_mem_encodeBytes {bs : Bytes} :
    ∀ b ∈ encodeBytes bs, 33 ≤ b.toNat ∧ b.toNat < 127 := by
  have hpad : 33 ≤ padByte.toNat ∧ padByte.toNat < 127 := by decide
  induction bs using encodeBytes.induct with
  | case1 => exact List.forall_mem_nil _
  | case2 a =>
    have ha := a.toNat_lt
    simp only [encodeBytes, List.forall_mem_cons]
    exact ⟨toNat_symbolByte _ (by omega), toNat_symbolByte _ (by omega), hpad, hpad,
      List.forall_mem_nil _⟩
  | case3 a b =>
    have ha := a.toNat_lt
    have hb := b.toNat_lt
    simp only [encodeBytes, List.forall_mem_cons]
    exact ⟨toNat_symbolByte _ (by omega), toNat_symbolByte _ (by omega),
      toNat_symbolByte _ (by omega), hpad, List.forall_mem_nil _⟩
  | case4 a b c rest ih =>
    rw [encodeBytes_append]
    refine List.forall_mem_append.mpr ⟨fun x hx => ?_, ih⟩
    obtain ⟨n, hn, rfl⟩ := List.mem_map.mp hx
    exact toNat_symbolByte n (bitsOf_lt a b c n hn)

/-- Each byte is a character of its own. -/
theorem encode_encode (bs : Bytes) : Utf8.encode (encode bs) = encodeBytes bs := by
  have hbyte : ∀ b ∈ encodeBytes bs, 33 ≤ b.toNat ∧ b.toNat < 127 := toNat_of_mem_encodeBytes
  unfold encode
  generalize encodeBytes bs = written at hbyte
  induction written with
  | nil => rfl
  | cons b written ih =>
    obtain ⟨hb, hwritten⟩ := List.forall_mem_cons.mp hbyte
    rw [List.map_cons, Utf8.encode_cons, Utf8.encodeChar_one rfl (by omega), ih hwritten]
    rfl

/-- Nothing is trimmed off. -/
theorem trim_encode (bs : Bytes) : Text.trim (encode bs) = encode bs := by
  refine Text.trim_of_not_blank fun c hc => ?_
  obtain ⟨b, hb, rfl⟩ := List.mem_map.mp hc
  obtain ⟨hlow, hhigh⟩ := toNat_of_mem_encodeBytes b hb
  have hvalue : (Char.ofNat b.toNat).toNat = b.toNat := toNat_charOfNat (.inl (by omega))
  simp only [Blank.isBlank, hvalue]
  grind

/-- **The bytes are read back from their text**, trimmed or not. -/
theorem decode_encode (bs : Bytes) : decode (Utf8.encode (Text.trim (encode bs))) = .ok bs := by
  rw [trim_encode, encode_encode, decode_encodeBytes]

end TrafficGate.Base64
