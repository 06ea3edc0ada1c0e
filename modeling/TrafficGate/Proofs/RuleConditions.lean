import TrafficGate.Proofs.FirstOccurrence
import TrafficGate.Store.Condition
import TrafficGate.Text.Utf8
/-!
  # Rules as conditions

  A rule in memory is compared with a value as a text with another. A rule in a table is selected by
  functions that count characters, and that stop at a NUL. Without NUL the two say the same.

  1. texts without NUL, and the normal form of one;
  2. the condition for each kind, said without counting;
  3. `selects_eq_covers`;
  4. of two URL or two domain rules that match one value, one is a part of the other: the one of
     more characters is the one of more bytes.

  Main facts: **`selects_eq_covers`** and **`eq_of_covers`**.
-/

namespace TrafficGate

/-! ## 1. Texts without NUL -/

/-- A text without the character with the number 0. -/
def Text.NulFree (t : Text) : Prop := '\x00' ∉ t

instance (t : Text) : Decidable t.NulFree := inferInstanceAs (Decidable ('\x00' ∉ t))

theorem Text.NulFree.lower {t : Text} (h : t.NulFree) : NulFree (Ascii.lower t) :=
  mt (Ascii.mem_lower_iff (by decide)).mp h

theorem Rule.Kind.dropDots_sublist (t : Text) : (dropDots t).Sublist t := by
  rw [dropDots, ← List.reverse_sublist, List.reverse_reverse]
  exact List.dropWhile_sublist _

theorem Rule.Kind.dropWildcard_sublist (t : Text) : (dropWildcard t).Sublist t := by
  unfold dropWildcard
  cases hstrip : Seq.stripStart? "*.".toList t with
  | none => exact List.Sublist.refl t
  | some rest =>
    rw [Option.getD_some, Seq.stripStart?_eq_some_iff.mp hstrip]
    exact List.sublist_append_right _ _

/-- **The normal form of a text without NUL has none.** -/
theorem Text.NulFree.normalize {t : Text} (h : t.NulFree) (kind : Rule.Kind) :
    NulFree (kind.normalize t) := by
  have htrim : (trim t).NulFree := fun hc => h ((trim_sublist t).subset hc)
  cases kind with
  | url => exact htrim
  | domain =>
    refine NulFree.lower fun hc => htrim ?_
    exact (Rule.Kind.dropWildcard_sublist _).subset ((Rule.Kind.dropDots_sublist _).subset hc)
  | keyword => exact htrim.lower

/-! ## 2. The condition for each kind -/

namespace Store.Condition

variable {rule value : Text}

theorem counted_eq {t : Text} (h : t.NulFree) : counted t = t := by
  have hall : ∀ c ∈ t, (c.toNat != 0) = true := by
    intro c hc
    rw [bne_iff_ne]
    intro hzero
    have hnul : c = '\x00' := Char.toNat_inj.mp hzero
    exact h (hnul ▸ hc)
  have hwhole : (t ++ []).takeWhile (fun c => c.toNat != 0) = t ++ [] :=
    List.takeWhile_append_of_pos hall
  rwa [List.append_nil] at hwhole

theorem charCount_eq {t : Text} (h : t.NulFree) : charCount t = t.length := by
  rw [charCount, counted_eq h]

/-- The last characters of a text without NUL are a suffix. -/
theorem substrFrom_suffix {t : Text} (h : t.NulFree) {count : Nat} (hlt : count < t.length) :
    substrFrom t (-(count : Int) - 1) = t.drop (t.length - (count + 1)) := by
  have hfront : inFront t (-(count : Int) - 1) = ((t.length - (count + 1) : Nat) : Int) := by
    rw [inFront, if_pos (by omega), charCount_eq h]
    omega
  rw [substrFrom, hfront, counted_eq h, Int.toNat_natCast]

/-- **A URL rule is selected for the values that start with it.** -/
theorem selects_url_iff (hr : rule.NulFree) (hv : value.NulFree) :
    selects .url rule value = true ↔ rule <+: value := by
  rw [selects, charCount_eq hr, substr_prefix (counted_eq hv), beq_iff_eq,
    List.prefix_iff_eq_take, eq_comm]

/-- **A domain rule is selected for itself and for what ends with a dot and the rule.** -/
theorem selects_domain_iff (hr : rule.NulFree) (hv : value.NulFree) :
    selects .domain rule value = true ↔ value = rule ∨ '.' :: rule <:+ value := by
  rw [selects, Bool.or_eq_true, Bool.and_eq_true, beq_iff_eq, beq_iff_eq, decide_eq_true_eq,
    charCount_eq hr, charCount_eq hv]
  refine or_congr_right ⟨?_, ?_⟩
  · rintro ⟨hlt, heq⟩
    rw [substrFrom_suffix hv hlt] at heq
    rw [← heq]
    exact List.drop_suffix _ _
  · intro hs
    have hlt : rule.length < value.length := hs.length_le
    refine ⟨hlt, ?_⟩
    rw [substrFrom_suffix hv hlt]
    exact (List.suffix_iff_eq_drop.mp hs).symm

/-- **A keyword rule is selected for the values in whose small letters it occurs.** -/
theorem selects_keyword_iff :
    selects .keyword rule value = true ↔ rule <:+: Ascii.lower value := by
  rw [selects, decide_eq_true_eq, instr_eq]
  cases h : Seq.indexOf? rule (Ascii.lower value) with
  | none =>
    have hnowhere := Seq.indexOf?_eq_none_iff.mp h
    refine iff_of_false (Nat.lt_irrefl 0) fun hi => ?_
    obtain ⟨t, hp, hs⟩ := List.infix_iff_prefix_suffix.mp hi
    rw [List.suffix_iff_eq_drop.mp hs] at hp
    exact hnowhere _ hp
  | some i =>
    refine iff_of_true (Nat.succ_pos i) ?_
    have hp := (Seq.indexOf?_eq_some_iff.mp h).1
    exact hp.isInfix.trans (List.drop_suffix i _).isInfix

end Store.Condition

/-! ## 3. Selected and covered -/

namespace Rule.Kind

variable {rule value : Text}

theorem isUnder_iff : isUnder rule value = true ↔ value = rule ∨ '.' :: rule <:+ value := by
  rw [isUnder, Bool.or_eq_true, beq_iff_eq]
  refine or_congr_right ?_
  cases hstrip : Seq.stripEnd? rule value with
  | none =>
    refine iff_of_false Bool.false_ne_true fun hd => ?_
    obtain ⟨front, hfront⟩ := (List.suffix_cons '.' rule).trans hd
    rw [Seq.stripEnd?_eq_some_iff.mpr hfront.symm] at hstrip
    cases hstrip
  | some front =>
    obtain rfl := Seq.stripEnd?_eq_some_iff.mp hstrip
    rw [beq_iff_eq, List.getLast?_eq_some_iff]
    constructor
    · rintro ⟨more, rfl⟩
      exact ⟨more, List.append_cons more '.' rule⟩
    · rintro ⟨more, hmore⟩
      exact ⟨more, List.append_cancel_right (hmore.symm.trans (List.append_cons more '.' rule))⟩

theorem covers_url_iff (hne : rule ≠ []) : url.covers rule value = true ↔ rule <+: value := by
  simp [covers, hne]

theorem covers_domain_iff (hne : rule ≠ []) :
    domain.covers rule value = true ↔ value = rule ∨ '.' :: rule <:+ value := by
  simp [covers, hne, isUnder_iff]

theorem covers_keyword_iff (hne : rule ≠ []) :
    keyword.covers rule value = true ↔ rule <:+: Ascii.lower value := by
  simp [covers, hne, Search.occurs_iff]

/-- **A rule is selected for the values that it covers**, if it is not empty and there is no NUL. -/
theorem selects_eq_covers (kind : Kind) (hne : rule ≠ []) (hr : rule.NulFree)
    (hv : value.NulFree) : Store.Condition.selects kind rule value = kind.covers rule value := by
  rw [Bool.eq_iff_iff]
  cases kind with
  | url => rw [Store.Condition.selects_url_iff hr hv, covers_url_iff hne]
  | domain => rw [Store.Condition.selects_domain_iff hr hv, covers_domain_iff hne]
  | keyword => rw [Store.Condition.selects_keyword_iff, covers_keyword_iff hne]

/-! ## 4. Two rules for one value -/

theorem suffix_of_covers_domain (h : domain.covers rule value = true) : rule <:+ value := by
  have hne : rule ≠ [] := by
    rintro rfl
    exact absurd h Bool.false_ne_true
  rcases (covers_domain_iff hne).mp h with rfl | hs
  · exact List.suffix_rfl
  · exact (List.suffix_cons '.' rule).trans hs

theorem prefix_of_covers_url (h : url.covers rule value = true) : rule <+: value := by
  have hne : rule ≠ [] := by
    rintro rfl
    exact absurd h Bool.false_ne_true
  exact (covers_url_iff hne).mp h

end Rule.Kind

namespace Utf8

theorem size_append (s t : Text) : size (s ++ t) = size s + size t := by
  induction s with
  | nil => simp [size]
  | cons c s ih =>
    simp only [size, List.cons_append, List.map_cons, Seq.total_cons] at ih ⊢
    rw [ih]
    omega

/-- Only the empty text takes no bytes. -/
theorem eq_nil_of_size_eq_zero {t : Text} (h : size t = 0) : t = [] := by
  cases t with
  | nil => rfl
  | cons c t =>
    have hpos : 0 < (encodeChar c).length := by
      unfold encodeChar
      simp only
      split
      · simp
      · split
        · simp
        · split <;> simp
    simp only [size, List.map_cons, Seq.total_cons] at h
    omega

end Utf8

namespace Rule.Kind

/-- **Of the URL or domain rules for one value there is only one longest**, in characters and in
    bytes. -/
theorem eq_of_covers {kind : Kind} {a b value : Text} (hkind : kind ≠ .keyword)
    (ha : kind.covers a value = true) (hb : kind.covers b value = true)
    (hchars : b.length ≤ a.length) (hbytes : Utf8.size a ≤ Utf8.size b) : a = b := by
  cases kind with
  | url =>
    obtain ⟨more, rfl⟩ := List.prefix_of_prefix_length_le (prefix_of_covers_url hb)
      (prefix_of_covers_url ha) hchars
    rw [Utf8.size_append] at hbytes
    rw [Utf8.eq_nil_of_size_eq_zero (t := more) (by omega), List.append_nil]
  | domain =>
    obtain ⟨more, rfl⟩ := List.suffix_of_suffix_length_le (suffix_of_covers_domain hb)
      (suffix_of_covers_domain ha) hchars
    rw [Utf8.size_append] at hbytes
    rw [Utf8.eq_nil_of_size_eq_zero (t := more) (by omega), List.nil_append]
  | keyword => exact absurd rfl hkind

end Rule.Kind

end TrafficGate
