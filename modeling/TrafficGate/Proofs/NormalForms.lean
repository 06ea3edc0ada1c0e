import Mathlib.Data.List.DropRight
import TrafficGate.Proofs.RuleTables
/-!
  # Rules in their normal form

  A rule is kept in the normal form of its text. Bringing the form into normal form once more leaves
  it as it is, save for domains: behind a wildcard another one may come to light, and behind a
  wildcard or in front of dots white space. Such a form names another rule than the one kept, so
  that neither store finds the rule by the value that it shows.

  1. steps of the normal form that leave each other alone;
  2. `Bare` -- domains with nothing left to take away, and the fixed points;
  3. rules in memory, and rows of a table, under the value that they show.

  Main facts: **`Rule.Kind.normalize_normalize_iff`**, **`Rule.Book.mem_remove_stored_iff`**,
  **`Store.Ledger.Kept.insert_stored_iff`** and **`normal_forms`**.
-/

namespace TrafficGate

/-! ## 1. Steps -/

namespace Blank

/-- No letter is white space. -/
theorem isBlank_lowerChar (c : Char) : isBlank (Ascii.lowerChar c) = isBlank c := by
  rcases Ascii.lowerChar_cases c with ⟨-, hsame⟩ | ⟨hlow, hhigh, hvalue⟩
  · rw [hsame]
  · have hletter : ∀ d : Char, 65 ≤ d.toNat → d.toNat ≤ 122 → isBlank d = false := by
      intro d hlow hhigh
      simp only [isBlank, Bool.or_eq_false_iff, Bool.and_eq_false_iff, decide_eq_false_iff_not,
        beq_eq_false_iff_ne]
      omega
    rw [hletter _ (by omega) (by omega), hletter c (by omega) (by omega)]

end Blank

namespace Text

theorem trimStart_lower (t : Text) : trimStart (Ascii.lower t) = Ascii.lower (trimStart t) := by
  have hsame : Blank.isBlank ∘ Ascii.lowerChar = Blank.isBlank := funext Blank.isBlank_lowerChar
  rw [trimStart, Ascii.lower, List.dropWhile_map, hsame]
  rfl

theorem trimEnd_lower (t : Text) : trimEnd (Ascii.lower t) = Ascii.lower (trimEnd t) := by
  have hreverse : (Ascii.lower t).reverse = Ascii.lower t.reverse := List.map_reverse.symm
  rw [trimEnd_eq_reverse, trimEnd_eq_reverse, hreverse, trimStart_lower]
  exact List.map_reverse.symm

/-- **Trimming and lowering leave each other alone.** -/
theorem trim_lower (t : Text) : trim (Ascii.lower t) = Ascii.lower (trim t) := by
  rw [trim, trim, trimStart_lower, trimEnd_lower]

end Text

namespace Rule.Kind

theorem dropDots_dropDots (t : Text) : dropDots (dropDots t) = dropDots t :=
  List.rdropWhile_idempotent (· == '.') t

theorem dropDots_lower (t : Text) : dropDots (Ascii.lower t) = Ascii.lower (dropDots t) := by
  have hsame : ((· == '.') ∘ Ascii.lowerChar) = (· == '.') := by
    funext c
    rw [Function.comp_apply, Bool.beq_eq_decide_eq, Bool.beq_eq_decide_eq, decide_eq_decide]
    exact Ascii.lowerChar_eq_iff (by decide)
  have hreverse : (Ascii.lower t).reverse = Ascii.lower t.reverse := List.map_reverse.symm
  rw [dropDots, hreverse, Ascii.lower, List.dropWhile_map, hsame]
  exact List.map_reverse.symm

/-! ## 2. Fixed points -/

/-- Nothing is left to take away at the two ends: no white space and no wildcard. -/
def Bare (t : Text) : Prop := Text.trim t = t ∧ ¬ "*.".toList <+: t

instance : DecidablePred Bare := fun t =>
  inferInstanceAs (Decidable (Text.trim t = t ∧ ¬ "*.".toList <+: t))

theorem dropWildcard_eq_self_iff {t : Text} : dropWildcard t = t ↔ ¬ "*.".toList <+: t := by
  unfold dropWildcard
  cases hstrip : Seq.stripStart? "*.".toList t with
  | none =>
    refine iff_of_true rfl ?_
    rintro ⟨rest, hrest⟩
    rw [Seq.stripStart?_eq_some_iff.mpr hrest.symm] at hstrip
    cases hstrip
  | some rest =>
    obtain rfl := Seq.stripStart?_eq_some_iff.mp hstrip
    refine iff_of_false (fun hsame => ?_) (not_not_intro (List.prefix_append ..))
    exact absurd (List.append_left_eq_self.mp hsame.symm) (by decide)

/-- Dots are taken away, unless another character is the last one. -/
theorem dropDots_eq_self_iff {t : Text} : dropDots t = t ↔ t.getLast? ≠ some '.' := by
  refine List.rdropWhile_eq_self_iff.trans ?_
  rcases eq_or_ne t [] with rfl | hne
  · exact iff_of_true (fun hne => absurd rfl hne) (Option.some_ne_none '.').symm
  · simp only [List.getLast?_eq_some_getLast hne, ne_eq, Option.some_inj, beq_iff_eq]
    exact ⟨fun h => h hne, fun h _ => h⟩

/-- **A normal form is its own one**, unless it is a domain with something left to take away. -/
theorem normalize_normalize_iff (kind : Kind) (t : Text) :
    kind.normalize (kind.normalize t) = kind.normalize t ↔
      (kind = .domain → Bare (kind.normalize t)) := by
  cases kind with
  | url => exact iff_of_true (Text.trim_trim t) nofun
  | keyword =>
    refine iff_of_true ?_ nofun
    rw [normalize, normalize, Text.trim_lower, Text.trim_trim, Ascii.lower_lower]
  | domain =>
    obtain ⟨d, hd⟩ : ∃ d, normalize .domain t = Ascii.lower (dropDots d) := ⟨_, rfl⟩
    rw [hd]
    generalize hv : Ascii.lower (dropDots d) = v
    constructor
    · rintro hfixed -
      -- no step takes anything away, as the whole takes nothing away
      have hlength : (dropDots (dropWildcard (Text.trim v))).length = v.length := by
        rw [← Ascii.length_lower]
        exact congrArg List.length hfixed
      have hdots := (dropDots_sublist (dropWildcard (Text.trim v))).length_le
      have hwildcard := (dropWildcard_sublist (Text.trim v)).length_le
      have htrim := (Text.trim_sublist v).length_le
      have hsame : Text.trim v = v := (Text.trim_sublist v).eq_of_length (by omega)
      rw [hsame] at hlength hdots hwildcard
      have hkept : dropWildcard v = v := (dropWildcard_sublist v).eq_of_length (by omega)
      exact ⟨hsame, dropWildcard_eq_self_iff.mp hkept⟩
    · intro hbare
      obtain ⟨htrim, hplain⟩ := hbare rfl
      rw [normalize, htrim, dropWildcard_eq_self_iff.mpr hplain, ← hv, dropDots_lower,
        dropDots_dropDots, Ascii.lower_lower]

end Rule.Kind

/-! ## 3. Under the value that is shown -/

/-- **A rule in memory is removed by the value that it shows**, exactly if that is its normal form. -/
theorem Rule.Book.mem_remove_stored_iff {b : Book} {r : Rule} (h : r ∈ b.rules) :
    r ∉ (b.remove r.kind r.value).rules ↔ r.kind.normalize r.value = r.value := by
  rw [remove, List.mem_filter, not_and, Bool.not_eq_true, Bool.not_eq_false', isFor_iff]
  constructor
  · exact fun hgone => (congrArg Rule.value (hgone h)).symm
  · intro hsame _
    rw [hsame]

namespace Store

namespace Ledger.Kept

open Rules

variable {l : Ledger} {kind : Rule.Kind} {row : RuleRow}

/-- The row that the table has for the value of a row is that row, exactly if the value is its normal
    form. -/
theorem find?_stored_iff (h : l.Kept) (hrow : row ∈ l.table.rows) (hname : row.kindName = kind.name) :
    l.table.find? kind.name (kind.normalize row.value) = some row ↔
      kind.normalize row.value = row.value := by
  constructor
  · intro hfind
    exact (isFor_iff.mp (List.find?_some hfind)).2.symm
  · intro hsame
    have hfor : isFor kind.name (kind.normalize row.value) row = true :=
      isFor_iff.mpr ⟨hname, hsame.symm⟩
    cases hfind : l.table.find? kind.name (kind.normalize row.value) with
    | none => exact absurd hfor (List.find?_eq_none.mp hfind row hrow)
    | some other =>
      obtain ⟨hname', hvalue⟩ := isFor_iff.mp (List.find?_some hfind)
      rw [h.eq_of_rule (List.mem_of_find?_eq_some hfind) hrow (hname'.trans hname.symm)
        (hvalue.trans hsame)]

/-- **Adding the value of a row gives its number**, exactly if the value is its normal form. -/
theorem insert_stored_iff (h : l.Kept) (hrow : row ∈ l.table.rows) (hname : row.kindName = kind.name)
    (note : Option Text) (now : Time.Timestamp) :
    (l.table.insert kind row.value note now).1 = .ok row.id ↔
      kind.normalize row.value = row.value := by
  rw [← h.find?_stored_iff hrow hname]
  by_cases hempty : kind.normalize row.value = []
  · rw [Call.insert_empty hempty]
    refine iff_of_false nofun fun hfind => ?_
    obtain ⟨_, _, _, _, hvalue, _⟩ := h.written row hrow
    exact hvalue ((isFor_iff.mp (List.find?_some hfind)).2.trans hempty)
  · cases hfind : l.table.find? kind.name (kind.normalize row.value) with
    | none =>
      rw [Call.insert_new hempty hfind]
      refine iff_of_false (fun hid => ?_) nofun
      have hle := h.id_le hrow
      have hnext : l.table.lastId + 1 = row.id := Except.ok.inj hid
      omega
    | some other =>
      rw [h.insert_known hempty hfind]
      have hmem := List.mem_of_find?_eq_some hfind
      constructor
      · intro hid
        rw [List.inj_on_of_nodup_map h.ids hmem hrow (Except.ok.inj hid)]
      · intro hsame
        rw [Option.some.inj hsame]

/-- **Removing the value of a row removes it**, exactly if the value is its normal form. -/
theorem removeValue_stored_iff (h : l.Kept) (hrow : row ∈ l.table.rows)
    (hname : row.kindName = kind.name) :
    row ∉ (l.table.removeValue kind row.value).2.rows ↔ kind.normalize row.value = row.value := by
  rw [← h.find?_stored_iff hrow hname, removeValue]
  cases hfind : l.table.find? kind.name (kind.normalize row.value) with
  | none => exact iff_of_false (not_not_intro hrow) (Option.some_ne_none row).symm
  | some other =>
    have hmem := List.mem_of_find?_eq_some hfind
    have hgone : (l.table.remove other.id).2.rows = l.table.others other.id := by
      rw [Call.remove_eq, row?_eq_some_of_mem h.ids hmem]
      rfl
    show row ∉ (l.table.remove other.id).2.rows ↔ _
    rw [hgone, others, List.mem_filter, bne_iff_ne, not_and_not_right]
    constructor
    · intro hid
      rw [List.inj_on_of_nodup_map h.ids hmem hrow (hid hrow).symm]
    · intro hsame _
      rw [Option.some.inj hsame]

end Ledger.Kept

end Store

/-- **Rules under the value that they show.** The normal form of a URL or keyword rule is its own
    normal form, and so is that of a domain rule from which neither white space nor a wildcard is
    left to take away. Those are the rules that each store finds by the value that it shows: that
    are removed from a book by it, and are added to a table under the number that they have. -/
theorem normal_forms (kind : Rule.Kind) :
    (∀ t, kind.normalize (kind.normalize t) = kind.normalize t ↔
      (kind = .domain → Rule.Kind.Bare (kind.normalize t))) ∧
    (∀ (b : Rule.Book) (t : Text),
      ({ kind, value := kind.normalize t } : Rule) ∉
          ((b.add kind t).remove kind (kind.normalize t)).rules ↔
        (kind = .domain → Rule.Kind.Bare (kind.normalize t))) ∧
    ∀ (calls : List Store.Call) (row : Store.RuleRow), row ∈ (Store.Ledger.run calls).table.rows →
      row.kindName = kind.name →
        (∀ note now, ((Store.Ledger.run calls).table.insert kind row.value note now).1 = .ok row.id ↔
          (kind = .domain → Rule.Kind.Bare row.value)) ∧
        (row ∉ ((Store.Ledger.run calls).table.removeValue kind row.value).2.rows ↔
          (kind = .domain → Rule.Kind.Bare row.value)) := by
  refine ⟨kind.normalize_normalize_iff, fun b t => ?_, fun calls row hrow hname => ?_⟩
  · rw [← kind.normalize_normalize_iff t]
    exact Rule.Book.mem_remove_stored_iff (List.mem_append_right _ (List.mem_singleton.mpr rfl))
  · have hkept := Store.Ledger.kept_run calls
    obtain ⟨kind', t, hname', hvalue, -⟩ := hkept.written row hrow
    obtain rfl := Rule.Kind.name_injective (hname'.symm.trans hname)
    have hfixed := kind'.normalize_normalize_iff t
    rw [← hvalue] at hfixed
    exact ⟨fun note now => (hkept.insert_stored_iff hrow hname note now).trans hfixed,
      (hkept.removeValue_stored_iff hrow hname).trans hfixed⟩

/-- A table with the rule of a text. -/
def Store.Ledger.ofDomain (t : String) : Store.Ledger :=
  Store.Ledger.run [.insert .domain t.toList none ⟨0, 0⟩]

/-- The row of a domain that is the first one added. -/
def Store.RuleRow.firstDomain (value : String) : Store.RuleRow :=
  { id := 1, kindName := Rule.Kind.domain.name, value := value.toList, enabled := 1, note := none,
    createdAt := Time.Timestamp.plain ⟨0, 0⟩ }

/-- A domain in its normal form is found by it. -/
theorem normal_forms_ads :
    Rule.Kind.domain.normalize " *.Ads.COM. ".toList = "ads.com".toList ∧
      Store.RuleRow.firstDomain "ads.com" ∈ (Store.Ledger.ofDomain " *.Ads.COM. ").table.rows ∧
      (((Store.Ledger.ofDomain " *.Ads.COM. ").table.insert .domain "ads.com".toList none ⟨0, 0⟩).1 =
        .ok 1) := by
  have hrow : Store.RuleRow.firstDomain "ads.com" ∈
      (Store.Ledger.ofDomain " *.Ads.COM. ").table.rows := by decide +kernel
  exact ⟨by decide, hrow,
    (((normal_forms .domain).2.2 _ _ hrow rfl).1 none ⟨0, 0⟩).mpr fun _ => by decide⟩

/-- **A wildcard behind a wildcard** is left in the normal form, and taken away from it: the rule is
    not removed by the value that it shows, and adding that value gives another number. White space
    in front of the last dot is left, too. -/
theorem exists_unfound_rule :
    ∃ t v, t = "*.*.ads.com".toList ∧ v = Rule.Kind.domain.normalize t ∧ v = "*.ads.com".toList ∧
      Rule.Kind.domain.normalize v = "ads.com".toList ∧
      ({ kind := .domain, value := v } : Rule) ∈
        ((Rule.Book.empty.add .domain t).remove .domain v).rules ∧
      Store.RuleRow.firstDomain "*.ads.com" ∈ (Store.Ledger.ofDomain "*.*.ads.com").table.rows ∧
      ((Store.Ledger.ofDomain "*.*.ads.com").table.insert .domain v none ⟨0, 0⟩).1 = .ok 2 ∧
      Rule.Kind.domain.normalize "ads.com .".toList = "ads.com ".toList ∧
      Rule.Kind.domain.normalize "ads.com ".toList = "ads.com".toList :=
  ⟨_, _, rfl, rfl, by decide, by decide, by decide, by decide +kernel, by decide, by decide, by decide⟩

end TrafficGate
