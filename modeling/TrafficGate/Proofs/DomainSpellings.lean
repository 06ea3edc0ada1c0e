import TrafficGate.Proofs.NamedUrls
import TrafficGate.Proofs.NormalForms
import TrafficGate.Proofs.UrlSpellings
/-!
  # The names that a domain rule stands for

  The text of a domain rule is brought into one normal form, and the host of a request into another:
  both are in small letters, but only the rule loses the dots at its end. So a rule blocks every
  name that its normal form does not tell apart from it, save those that end with a dot. These no
  domain rule blocks.

  1. names, and the page of a name;
  2. the normal form of a name as a rule, and as a host;
  3. which names a domain rule matches;
  4. `AbortsName` and `PassesName` -- what an engine makes of a name and of its page;
  5. every spelling of the name of a rule.

  Main facts: **`IsName.hostOf_eq_normalize_iff`**, **`covers_name_iff`**, **`name_rule_blocks`** and
  **`name_rule_passed_over`**.
-/

namespace TrafficGate

namespace Url

/-! ## 1. Names -/

/-- A character of a name: an ASCII letter or digit, a hyphen, a dot, or any character beyond ASCII
    that is not white space, such as a letter of another script. -/
def isNameChar (c : Char) : Bool :=
  Ascii.isAlnum c || c == '-' || c == '.' || (128 ≤ c.toNat && !Blank.isBlank c)

/-- A name: characters of names, and not none. -/
def IsName (t : Text) : Prop := t ≠ [] ∧ ∀ c ∈ t, isNameChar c = true

instance : DecidablePred IsName := fun t =>
  decidable_of_iff (t ≠ [] ∧ t.all isNameChar = true) (by rw [IsName, List.all_eq_true])

/-- The page of a name. -/
def page (name : Text) : Text := "http://".toList ++ (name ++ ['/'])

variable {h : Text} {c : Char}

theorem isBlank_of_isNameChar (hc : isNameChar c = true) : Blank.isBlank c = false := by
  have hvisible : 33 ≤ c.toNat → c.toNat ≤ 126 → Blank.isBlank c = false := by
    intro hlow hhigh
    simp only [Blank.isBlank, Bool.or_eq_false_iff, Bool.and_eq_false_iff, decide_eq_false_iff_not,
      beq_eq_false_iff_ne]
    omega
  simp only [isNameChar, Bool.or_eq_true, beq_iff_eq, Bool.and_eq_true, Bool.not_eq_true'] at hc
  rcases hc with ((halnum | rfl) | rfl) | ⟨-, hblank⟩
  · simp only [Ascii.isAlnum, Ascii.isAlpha, Ascii.isUpper, Ascii.isLower, Ascii.isDigit,
      Bool.or_eq_true, Bool.and_eq_true, decide_eq_true_eq] at halnum
    exact hvisible (by omega) (by omega)
  · decide
  · decide
  · exact hblank

/-- The signs around a host are in no name, nor are wildcards and NUL. -/
theorem not_sign_of_isNameChar (hc : isNameChar c = true) : c ∉ "/?#@:[*\x00".toList := by
  have hsigns : "/?#@:[*\x00".toList.all (fun c => !isNameChar c) = true := by decide
  intro hsign
  have hnot := List.all_eq_true.mp hsigns c hsign
  rw [hc] at hnot
  cases hnot

namespace IsName

theorem not_mem (hname : IsName h) (hc : c ∈ "/?#@:[*\x00".toList) : c ∉ h :=
  fun hmem => not_sign_of_isNameChar (hname.2 c hmem) hc

theorem trim_eq (hname : IsName h) : Text.trim h = h :=
  Text.trim_of_not_blank fun c hc => isBlank_of_isNameChar (hname.2 c hc)

theorem trim_ne_nil (hname : IsName h) : Text.trim h ≠ [] := by
  rw [hname.trim_eq]
  exact hname.1

theorem nulFree (hname : IsName h) : h.NulFree := hname.not_mem (by decide)

theorem lower_ne_nil (hname : IsName h) : Ascii.lower h ≠ [] := by
  rw [Ascii.lower, ne_eq, List.map_eq_nil_iff]
  exact hname.1

/-! ## 2. Normal forms and hosts -/

/-- **As a rule a name loses its capitals and the dots at its end.** -/
theorem normalize_eq (hname : IsName h) :
    Rule.Kind.domain.normalize h = Ascii.lower (Rule.Kind.dropDots h) := by
  have hplain : ¬ "*.".toList <+: h := fun hstart =>
    hname.not_mem (by decide) (hstart.subset List.mem_cons_self)
  rw [Rule.Kind.normalize, hname.trim_eq, Rule.Kind.dropWildcard_eq_self_iff.mpr hplain]

/-- **As a host a name loses its capitals.** -/
theorem hostOf_eq (hname : IsName h) : hostOf h = Ascii.lower h := by
  have hcut : Seq.cut? "://".toList h = none :=
    Seq.cut?_eq_none_of_not_mem (hname.not_mem (by decide)) _
  rw [hostOf, parts?, hcut]

/-- **The two normal forms of a name agree**, unless a dot is at its end. -/
theorem hostOf_eq_normalize_iff (hname : IsName h) :
    hostOf h = Rule.Kind.domain.normalize h ↔ h.getLast? ≠ some '.' := by
  rw [hname.hostOf_eq, hname.normalize_eq, ← Rule.Kind.dropDots_eq_self_iff]
  constructor
  · intro hsame
    refine (Rule.Kind.dropDots_sublist h).eq_of_length ?_
    rw [← Ascii.length_lower, ← hsame, Ascii.length_lower]
  · intro hsame
    rw [hsame]

/-- The page of a name in its parts. -/
def spelling (name : Text) : Spelling where
  scheme := "http".toList
  user := none
  host := name
  port := none
  path := ['/']
  query := none
  fragment := none

theorem proper_spelling (hname : IsName h) : (spelling h).Proper where
  scheme := .inl (show Ascii.lower "http".toList = "http".toList by decide)
  authority := {
    user := nofun
    host := .name hname.1 fun c hc hsign =>
      not_sign_of_isNameChar (hname.2 c hc) (List.mem_append_left ['*', '\x00'] hsign)
    port := nofun }
  slash := fun c hc => (Option.some.inj hc).symm
  path := plain_of_all rfl

theorem text_spelling (h : Text) : (spelling h).text = page h := by
  have hscheme : "http".toList ++ "://".toList = "http://".toList := by decide
  calc (spelling h).text
    _ = "http".toList ++ ("://".toList ++ (h ++ [] ++ ['/'])) := rfl
    _ = "http".toList ++ "://".toList ++ (h ++ ['/']) := by rw [List.append_nil, List.append_assoc]
    _ = page h := congrArg (· ++ (h ++ ['/'])) hscheme

/-- **The host of the page of a name is that of the name**, in its canonical form, too. -/
theorem hostOf_canonical_page (hname : IsName h) : hostOf (canonical (page h)) = Ascii.lower h := by
  rw [← text_spelling]
  exact (canonical_spellings hname.proper_spelling).2.2.1

end IsName

end Url

namespace Rule

/-! ## 3. Rules that match a name -/

namespace Kind

/-- A rule that is kept does not end with a dot. -/
theorem getLast?_normalize (t : Text) : (domain.normalize t).getLast? ≠ some '.' := by
  rw [normalize, ne_eq, Ascii.getLast?_lower_iff (by decide)]
  exact dropDots_eq_self_iff.mp (dropDots_dropDots _)

variable {h : Text}

/-- **No domain rule matches a name that ends with a dot.** -/
theorem covers_of_dot (hdot : h.getLast? = some '.') (r : Text) :
    domain.covers (domain.normalize r) (Ascii.lower h) = false := by
  rw [← Bool.not_eq_true]
  intro hcovers
  have hne : domain.normalize r ≠ [] := by
    intro hnil
    rw [hnil] at hcovers
    cases hcovers
  -- the rule is the end of the name, and has its last character
  obtain ⟨front, hfront⟩ := suffix_of_covers_domain hcovers
  have hlast : (Ascii.lower h).getLast? = some '.' :=
    (Ascii.getLast?_lower_iff (by decide)).mpr hdot
  rw [← hfront, List.getLast?_append_of_ne_nil front hne] at hlast
  exact getLast?_normalize r hlast

/-- The texts name the same domain: rules are kept in one form for both. -/
def SameDomain (h r : Text) : Prop := domain.normalize h = domain.normalize r

instance (h r : Text) : Decidable (SameDomain h r) :=
  inferInstanceAs (Decidable (domain.normalize h = domain.normalize r))

/-- **Of the names of its domain a rule matches those that do not end with a dot.** -/
theorem covers_name_iff (hname : Url.IsName h) {r : Text} (hsame : SameDomain h r)
    (hne : domain.normalize r ≠ []) :
    domain.covers (domain.normalize r) (Ascii.lower h) = true ↔ h.getLast? ≠ some '.' := by
  constructor
  · intro hcovers hdot
    rw [covers_of_dot hdot r] at hcovers
    cases hcovers
  · intro hdot
    have hhost := hname.hostOf_eq_normalize_iff.mpr hdot
    rw [hname.hostOf_eq, hsame] at hhost
    exact (covers_domain_iff hne).mpr (.inl hhost)

end Kind

/-- **Nothing is found for a value** when nothing answers but rules for hosts, and not for its own. -/
theorem find_eq_none {answer : Kind → Text → Option Rule} {value : Text}
    (hanswer : ∀ kind v, (kind = .domain → v = Url.hostOf value) → answer kind v = none) :
    find answer value = none := by
  unfold find
  split
  · rfl
  · refine List.findSome?_eq_none_iff.mpr fun kind _ => hanswer kind _ ?_
    rintro rfl
    rfl

end Rule

namespace Engine

open Http TrafficGate.Stream Exchange Rule Verdict Store

variable {W S : Type}

/-! ## 4. A name in traffic -/

namespace State

/-- The name is aborted when it is resolved, and so is every call for its page. -/
def AbortsName (backend : Backend W) (now : Time.Moment) (h : Text) (s : State W) : Prop :=
  (∀ addresses snapshot, addresses ≠ [] →
    ∃ rule, (s.onResolution backend now h addresses snapshot).1 = .abort h (some rule)) ∧
  ∀ call : Call, call.url = Url.page h →
    ∃ rule, (s.onCall backend now call).1 = .abort (Url.page h) (some rule)

/-- The name is let through when it is resolved, and so is every call for its page. -/
def PassesName (backend : Backend W) (now : Time.Moment) (h : Text) (s : State W) : Prop :=
  (∀ addresses snapshot, addresses ≠ [] →
    (s.onResolution backend now h addresses snapshot).1 = .proceed) ∧
  ∀ call : Call, call.url = Url.page h → (s.onCall backend now call).1 = .proceed

variable {backend : Backend W} {fit : W → Prop} {h : Text} {now : Time.Moment} {s : State W}

/-- **A source with a rule for a name aborts it.** -/
theorem abortsName (hname : Url.IsName h)
    (hb : backend.Finds fit { kind := .domain, value := Ascii.lower h })
    (hs : s.ReadyFor fit now { kind := .domain, value := Ascii.lower h }) :
    s.AbortsName backend now h := by
  have hpage := hname.hostOf_canonical_page
  refine ⟨fun addresses snapshot haddresses => ?_, fun call hcall => ?_⟩
  · have hhost : Url.hostOf (Text.trim h) = Ascii.lower h := by rw [hname.trim_eq, hname.hostOf_eq]
    have hresolved := onResolution_finds hb hs snapshot hname.trim_ne_nil haddresses hhost
    rwa [hname.trim_eq] at hresolved
  · have hne : Url.canonical call.url ≠ [] := by
      intro hnil
      rw [← hcall, hnil] at hpage
      exact hname.lower_ne_nil hpage.symm
    rw [← hcall] at hpage ⊢
    exact onCall_finds hb hs call hne hpage

/-- **A source without a rule for a name lets it through.** -/
theorem passesName {answer : Kind → Text → Option Rule} {shelf : W → S} {keeper : Keeper S}
    (hname : Url.IsName h) (hb : backend.Steady fit answer shelf keeper)
    (hs : s.Faithful fit answer)
    (hanswer : ∀ kind v, (kind = .domain → v = Ascii.lower h) → answer kind v = none) :
    s.PassesName backend now h := by
  have hlook : ∀ value, Url.hostOf value = Ascii.lower h →
      (s.lookUp backend now value).1 = .done none := by
    intro value hhost
    obtain ⟨_, _, hlook, -, -⟩ := lookUp_steady hb hs now value
    rw [hlook, Rule.find_eq_none fun kind v hv => hanswer kind v (hhost ▸ hv)]
  refine ⟨fun addresses snapshot haddresses => ?_, fun call hcall => ?_⟩
  · refine onResolution_of_lookUp hname.trim_ne_nil haddresses (hlook _ ?_)
    rw [hname.trim_eq, hname.hostOf_eq]
  · refine onCall_of_lookUp (hlook _ ?_)
    rw [hcall, hname.hostOf_canonical_page]

end State

/-! ## 5. The spellings of the name of a rule -/

/-- The rule that a text is kept as. -/
def domainRule (r : Text) : Rule := { kind := .domain, value := Kind.domain.normalize r }

/-- **In memory a rule aborts every spelling of its name**, save those that end with a dot. -/
theorem abortsName_memory {h r : Text} (hname : Url.IsName h) (hsame : Kind.SameDomain h r)
    (hne : Kind.domain.normalize r ≠ []) (hdot : h.getLast? ≠ some '.') {now : Time.Moment}
    {s : State (Book × Shelf)} (hrule : domainRule r ∈ s.world.1.rules)
    (hcache : s.cache.Without now.tick { kind := .domain, value := Ascii.lower h } none) :
    s.AbortsName memory now h :=
  State.abortsName hname (finds_memory ((Kind.covers_name_iff hname hsame hne).mpr hdot))
    ⟨hrule, hcache⟩

/-- **In a store it does, too.** -/
theorem abortsName_backend {h r : Text} (hname : Url.IsName h) (hsame : Kind.SameDomain h r)
    (hne : Kind.domain.normalize r ≠ []) (hdot : h.getLast? ≠ some '.') {now : Time.Moment}
    {s : State Database} (hrule : s.world.Offers .domain (Kind.domain.normalize r))
    (hcache : s.cache.Without now.tick { kind := .domain, value := Ascii.lower h } none) :
    s.AbortsName Database.backend now h := by
  have hnul : (Kind.domain.normalize r).NulFree := by
    rw [← hsame]
    exact hname.nulFree.normalize .domain
  exact State.abortsName hname (Database.finds_backend hne hnul hname.nulFree.lower
    ((Kind.covers_name_iff hname hsame hne).mpr hdot)) ⟨hrule, hcache⟩

/-- **In memory no domain rule stops a name that ends with a dot.** -/
theorem passesName_memory {h : Text} (hname : Url.IsName h) (hdot : h.getLast? = some '.')
    {rules : List Rule} (hrules : ∀ rule ∈ rules, ∃ r, rule = domainRule r) {now : Time.Moment}
    {s : State (Book × Shelf)} (hs : Reachable memory (fun w => w.1.rules = rules) s) :
    s.PassesName memory now h := by
  refine State.passesName hname (steady_memory rules) (hs.faithful (steady_memory rules)) ?_
  intro kind v hv
  refine Book.answer?_eq_none_iff.mpr fun rule hrule hkind => ?_
  obtain ⟨r, rfl⟩ := hrules rule hrule
  obtain rfl : Kind.domain = kind := hkind
  rw [hv rfl]
  exact Kind.covers_of_dot hdot r

/-- A row with a domain rule as it is kept, without a NUL. -/
def DomainRow (row : RuleRow) : Prop :=
  row.kindName = Kind.domain.name ∧ ∃ r : Text, r.NulFree ∧ row.value = Kind.domain.normalize r

/-- **In a store none does.** -/
theorem passesName_backend {h : Text} (hname : Url.IsName h) (hdot : h.getLast? = some '.')
    {t : Rules} (ht : ∀ row ∈ t.rows, DomainRow row) {now : Time.Moment} {s : State Database}
    (hs : Reachable Database.backend (fun d => d.Readable ∧ d.tables.rules = t) s) :
    s.PassesName Database.backend now h := by
  have hsteady := Database.steady_backend t
  refine State.passesName hname hsteady (hs.faithful hsteady) fun kind v hv => ?_
  refine Rules.findMatch?_eq_none_iff.mpr fun row hrow => ?_
  obtain ⟨hdomain, r, hr, hvalue⟩ := ht row hrow
  rw [← Bool.not_eq_true]
  intro happlies
  simp only [Rules.applies, Bool.and_eq_true, beq_iff_eq, Bool.not_eq_true',
    List.isEmpty_eq_false_iff] at happlies
  obtain ⟨⟨⟨-, hkind⟩, hne⟩, hselects⟩ := happlies
  obtain rfl : Kind.domain = kind := Kind.name_injective (hdomain.symm.trans hkind)
  rw [hv rfl, Kind.selects_eq_covers .domain hne (hvalue ▸ hr.normalize .domain)
    hname.nulFree.lower, hvalue, Kind.covers_of_dot hdot r] at hselects
  cases hselects

/-- **A domain rule blocks the spellings of its name**, save those that end with a dot. For every
    name: the host that is looked up for it and for its page is the name in small letters. A rule
    whose normal form does not tell it from the name matches it exactly if it does not end with a
    dot. Then every engine, in every state, aborts the name when it is resolved and every call for
    its page, if its book holds the rule, or its store answers and the rule is switched on there,
    and if no cached answer that is still good says that no rule matches the name; adding the rule
    brings it into the book and into the store. But a name with a dot at its end every engine lets
    through, whatever domain rules there are. -/
theorem name_rule_blocks {h : Text} (hname : Url.IsName h) :
    (Url.hostOf h = Ascii.lower h ∧ Url.hostOf (Url.canonical (Url.page h)) = Ascii.lower h) ∧
    (∀ r, Kind.SameDomain h r → Kind.domain.normalize r ≠ [] →
      (Kind.domain.covers (Kind.domain.normalize r) (Ascii.lower h) = true ↔
        h.getLast? ≠ some '.') ∧
      (∀ book : Book, domainRule r ∈ (book.add .domain r).rules) ∧
      (∀ (d : Database) note time id, d.Readable → (d.addRule .domain r note time).1 = .ok id →
        (d.addRule .domain r note time).2.Offers .domain (Kind.domain.normalize r)) ∧
      (h.getLast? ≠ some '.' →
        (∀ (s : State (Book × Shelf)) (now : Time.Moment), domainRule r ∈ s.world.1.rules →
          s.cache.Without now.tick { kind := .domain, value := Ascii.lower h } none →
          s.AbortsName memory now h) ∧
        ∀ (s : State Database) (now : Time.Moment),
          s.world.Offers .domain (Kind.domain.normalize r) →
          s.cache.Without now.tick { kind := .domain, value := Ascii.lower h } none →
          s.AbortsName Database.backend now h)) ∧
    (h.getLast? = some '.' →
      (∀ (rules : List Rule) (s : State (Book × Shelf)) (now : Time.Moment),
        (∀ rule ∈ rules, ∃ r, rule = domainRule r) →
        Reachable memory (fun w => w.1.rules = rules) s → s.PassesName memory now h) ∧
      ∀ (t : Rules) (s : State Database) (now : Time.Moment), (∀ row ∈ t.rows, DomainRow row) →
        Reachable Database.backend (fun d => d.Readable ∧ d.tables.rules = t) s →
        s.PassesName Database.backend now h) := by
  refine ⟨⟨hname.hostOf_eq, hname.hostOf_canonical_page⟩, fun r hsame hne => ?_, fun hdot => ?_⟩
  · refine ⟨Kind.covers_name_iff hname hsame hne,
      fun book => List.mem_append_right _ (List.mem_singleton_self _),
      fun d note time id hd h => Database.offers_addRule hd h, fun hdot => ?_⟩
    exact ⟨fun s now => abortsName_memory hname hsame hne hdot,
      fun s now => abortsName_backend hname hsame hne hdot⟩
  · exact ⟨fun rules s now hrules => passesName_memory hname hdot hrules,
      fun t s now ht => passesName_backend hname hdot ht⟩

/-- With the rule of `*.Ads.com.` in the book, the name `ADS.com` is aborted when it is resolved. -/
theorem name_rule_blocks_capitals :
    ∃ s, State.start? Config.defaults (Book.empty.add .domain "*.Ads.com.".toList, Shelf.empty) =
        some s ∧
      ∃ rule, (s.onResolution memory ⟨⟨0, 0⟩, 0⟩ "ADS.com".toList ["192.0.2.1".toList] none).1 =
        .abort "ADS.com".toList (some rule) := by
  obtain ⟨s, hs⟩ : ∃ s, State.start? Config.defaults
      (Book.empty.add .domain "*.Ads.com.".toList, Shelf.empty) = some s := ⟨_, rfl⟩
  obtain ⟨cache, hcache, hstart⟩ := Option.map_eq_some_iff.mp hs
  obtain ⟨-, -, -, hblocks⟩ := (@name_rule_blocks "ADS.com".toList (by decide)).2.1
    "*.Ads.com.".toList (by decide) (by decide)
  have haborts := (hblocks (by decide)).1 s ⟨⟨0, 0⟩, 0⟩
  subst hstart
  exact ⟨_, hs, (haborts (List.mem_singleton_self _) (Cache.without_new? hcache)).1 _ _
    (List.cons_ne_nil _ _)⟩

/-- The name of a rule, with a dot at its end. -/
def dottedName : Text := "ads.com.".toList

/-- A rule of the same normal form. -/
def plainName : Text := "ads.com".toList

/-- **A domain rule does not block every spelling of its name.** The rule is added without the dot,
    and the name with the dot is let through when it is resolved, and its page, too. -/
theorem name_rule_passed_over :
    Url.IsName dottedName ∧ Kind.SameDomain dottedName plainName ∧
    Kind.domain.normalize plainName ≠ [] ∧
    ((State.start? Config.defaults (Book.empty.add .domain plainName, Shelf.empty)).map fun s =>
      (s.onResolution memory ⟨⟨0, 0⟩, 0⟩ dottedName ["192.0.2.1".toList] none).1) =
        some .proceed ∧
    ((State.start? Config.defaults (Book.empty.add .domain plainName, Shelf.empty)).map fun s =>
      (s.onCall memory ⟨⟨0, 0⟩, 0⟩ (callFor (Url.page dottedName))).1) = some .proceed ∧
    ((State.start? Config.defaults
      (Database.inMemory.addRule .domain plainName none ⟨0, 0⟩).2).map fun s =>
      (s.onResolution Database.backend ⟨⟨0, 0⟩, 0⟩ dottedName ["192.0.2.1".toList] none).1) =
        some .proceed ∧
    storeCall? (Database.inMemory.addRule .domain plainName none ⟨0, 0⟩).2 (Url.page dottedName) =
      some .proceed := by
  refine ⟨by decide, by decide, by decide, ?_, ?_, ?_, ?_⟩ <;> decide +kernel

end Engine

end TrafficGate
