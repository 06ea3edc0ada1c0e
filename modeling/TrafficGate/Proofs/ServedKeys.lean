import TrafficGate.Proofs.RuleConditions
import TrafficGate.Proofs.RuleStores
import TrafficGate.Proofs.SteadyRules
import TrafficGate.Store.Database
/-!
  # Keys that the source has a rule for

  A key is a kind and a value. When the source has a rule for it, a look-up of that kind finds one,
  unless the cache says otherwise from the time before the rule was added.

  1. `Without` -- caches that do not give a certain answer now;
  2. `Backend.Finds` -- sources with a rule for a key, and looking it up;
  3. what is made of a look-up: calls and resolved names;
  4. books and stores with a rule.

  Main facts: **`lookUp_finds`** (one look-up), **`State.onCall_finds`**,
  **`State.onResolution_finds`**, **`finds_memory`** and **`Store.Database.finds_backend`**.
-/

namespace TrafficGate

namespace Rule

/-! ## 1. What a cache does not answer -/

variable {κ α : Type} {lifetime now : Nat} {j k : κ} {a b : α}

/-- No entry of a part that is good now gives this answer to the key. -/
def Part.Without (lifetime now : Nat) (k : κ) (a : α) (p : Part κ α) : Prop :=
  ∀ row ∈ p, row.1 = k → row.2.value = a → Part.isFresh lifetime now row.2 = false

/-- No entry of a cache that is good now gives this answer to the key. -/
def Cache.Without (now : Nat) (k : κ) (a : α) (c : Cache κ α) : Prop :=
  ∀ p ∈ c.parts, p.Without c.lifetime now k a

namespace Part

theorem without_nil : Without lifetime now k a ([] : Part κ α) := List.forall_mem_nil _

variable [DecidableEq κ] {p : Part κ α}

theorem Without.erase (h : p.Without lifetime now k a) (j : κ) :
    Without lifetime now k a (Table.erase j p) :=
  fun row hrow => h row (List.mem_filter.mp hrow).1

theorem Without.putFirst (h : p.Without lifetime now k a) (hb : j = k → b ≠ a) :
    Without lifetime now k a (putFirst now j b p) := by
  intro row hrow hkey hvalue
  rcases List.mem_cons.mp hrow with rfl | hrow
  · exact absurd hvalue (hb hkey)
  · exact h.erase j row hrow hkey hvalue

theorem Without.insert (h : p.Without lifetime now k a) (hb : j = k → b ≠ a) (share : Nat) :
    Without lifetime now k a (insert share now j b p) :=
  fun row hrow => h.putFirst hb row (List.mem_of_mem_take hrow)

theorem Without.get (h : p.Without lifetime now k a) (j : κ) :
    (∀ b, (get lifetime now j p).1 = some b → j = k → b ≠ a) ∧
      Without lifetime now k a (get lifetime now j p).2 := by
  unfold Part.get
  cases hfind : Table.find? j p with
  | none => exact ⟨fun _ => nofun, h⟩
  | some e =>
    simp only []
    split
    · next hfresh =>
      have hb : j = k → e.value ≠ a := by
        intro hkey hvalue
        have hold := h (j, e) (Table.mem_of_find? hfind) hkey hvalue
        rw [hfresh] at hold
        cases hold
      refine ⟨fun b hread => ?_, h.putFirst hb⟩
      obtain rfl : e.value = b := Option.some.inj hread
      exact hb
    · exact ⟨fun _ => nofun, h.erase j⟩

end Part

namespace Cache

theorem without_new? {limit lifetime : Nat} {c : Cache κ α} (h : new? limit lifetime = some c) :
    c.Without now k a := by
  unfold new? at h
  split at h
  · cases h
    intro p hp
    rw [List.eq_of_mem_replicate hp]
    exact Part.without_nil
  · cases h

variable [Spread κ] {c : Cache κ α}

theorem Without.part (h : c.Without now k a) (j : κ) : (c.part j).Without c.lifetime now k a := by
  unfold Cache.part
  by_cases hp : c.place j < c.parts.length
  · rw [List.getD_eq_getElem?_getD, List.getElem?_eq_getElem hp]
    exact h _ (List.getElem_mem hp)
  · rw [List.getD_eq_getElem?_getD, List.getElem?_eq_none (Nat.le_of_not_lt hp)]
    exact Part.without_nil

theorem Without.setPart (h : c.Without now k a) {p : Part κ α}
    (hp : p.Without c.lifetime now k a) (j : κ) : (c.setPart j p).Without now k a := by
  intro q hq
  rcases List.mem_or_eq_of_mem_set hq with hq | rfl
  · exact h q hq
  · exact hp

variable [DecidableEq κ]

/-- **Reading does not give the answer**, and reading other keys does not bring it back. -/
theorem Without.get (h : c.Without now k a) (j : κ) :
    (∀ b, (c.get now j).1 = some b → j = k → b ≠ a) ∧ (c.get now j).2.Without now k a := by
  obtain ⟨hread, hkept⟩ := (h.part j).get j
  exact ⟨hread, h.setPart hkept j⟩

/-- **Writing another answer keeps it out.** -/
theorem Without.insert (h : c.Without now k a) (hb : j = k → b ≠ a) :
    (c.insert now j b).Without now k a :=
  h.setPart ((h.part j).insert hb c.share) j

end Cache

end Rule

namespace Engine

open Rule Verdict Exchange

variable {W : Type}

/-! ## 2. Looking a key up -/

/-- In fit worlds the source does not break off, and finds a rule for the key. -/
structure Backend.Finds (backend : Backend W) (fit : W → Prop) (key : Key) : Prop
    extends Backend.Calm backend fit where
  finds : ∀ {w}, fit w → ∃ rule, (backend.rules.query key.kind key.value w).1 = .answer (some rule)

/-- A fit world, and no cached answer that is good now and says that there is no rule for the key. -/
structure State.ReadyFor (fit : W → Prop) (now : Time.Moment) (key : Key) (s : State W) : Prop where
  world : fit s.world
  cache : s.cache.Without now.tick key none

section LookUp

variable {backend : Backend W} {fit : W → Prop} {key : Key} {w : W} {cache : AnswerCache} {now : Nat}

/-- **A look-up does not bring the missing answer back**, and finds a rule if it is for the key. -/
theorem lookup_finds (hb : backend.Finds fit key) (hw : fit w) (hc : cache.Without now key none)
    (other : Key) :
    (lookup backend.rules now other cache w).2.1.Without now key none ∧
      (other = key → ∃ rule, (lookup backend.rules now other cache w).1 = .done (some rule)) := by
  obtain ⟨hread, hkept⟩ := hc.get other
  unfold lookup
  cases hget : cache.get now other with
  | mk found cache' =>
    rw [hget] at hread hkept
    cases found with
    | some r =>
      refine ⟨hkept, fun hkey => ?_⟩
      obtain ⟨rule, rfl⟩ := Option.ne_none_iff_exists'.mp (hread r rfl hkey)
      exact ⟨rule, rfl⟩
    | none =>
      -- the source is asked, and for this key its answer is a rule
      have hanswer : other = key →
          ∃ rule, (backend.rules.query other.kind other.value w).1 = .answer (some rule) := by
        rintro rfl
        exact hb.finds hw
      have hcalm := hb.answers hw other.kind other.value
      simp only [ask]
      cases hq : backend.rules.query other.kind other.value w with
      | mk reply w' =>
        rw [hq] at hanswer hcalm
        cases reply with
        | answer r =>
          have hrule : other = key → ∃ rule, r = some rule := fun hkey =>
            (hanswer hkey).imp fun rule hr => Reply.answer.inj hr
          refine ⟨hkept.insert fun hkey => ?_, fun hkey => ?_⟩
          · obtain ⟨rule, rfl⟩ := hrule hkey
            exact Option.some_ne_none rule
          · obtain ⟨rule, rfl⟩ := hrule hkey
            exact ⟨rule, rfl⟩
        | failed =>
          refine ⟨hkept, fun hkey => ?_⟩
          obtain ⟨rule, hr⟩ := hanswer hkey
          cases hr
        | crashed => exact absurd rfl hcalm

theorem matchKinds_without (hb : backend.Finds fit key) (hw : fit w)
    (hc : cache.Without now key none) (value : Text) (kinds : List Kind) :
    (matchKinds backend.rules now value kinds cache w).2.1.Without now key none := by
  induction kinds generalizing cache w with
  | nil => exact hc
  | cons kind kinds ih =>
    have hlookup := (lookup_finds hb hw hc { kind, value := candidate value kind }).1
    have hfit := fit_lookup hb.toKeeps hw now { kind, value := candidate value kind } cache
    unfold matchKinds
    split
    · next h =>
      rw [h] at hlookup hfit
      exact ih hfit hlookup
    · exact hlookup

/-- **Of the kinds one finds a rule**, if the key is what is looked up of the value as one of them. -/
theorem matchKinds_finds (hb : backend.Finds fit key) (hw : fit w)
    (hc : cache.Without now key none) {value : Text} (hvalue : candidate value key.kind = key.value)
    {kinds : List Kind} (hkinds : key.kind ∈ kinds) :
    ∃ rule, (matchKinds backend.rules now value kinds cache w).1 = .done (some rule) := by
  induction kinds generalizing cache w with
  | nil => cases hkinds
  | cons kind kinds ih =>
    obtain ⟨hkept, hfound⟩ := lookup_finds hb hw hc { kind, value := candidate value kind }
    have hfit := fit_lookup hb.toKeeps hw now { kind, value := candidate value kind } cache
    obtain ⟨r, hr⟩ := lookup_done hb.toCalm hw now { kind, value := candidate value kind } cache
    unfold matchKinds
    split
    · next h =>
      rw [h] at hkept hfound hfit
      refine ih hfit hkept ((List.mem_cons.mp hkinds).resolve_left ?_)
      rintro rfl
      obtain ⟨rule, hrule⟩ := hfound (by rw [hvalue])
      cases hrule
    · next hne =>
      cases hlook : lookup backend.rules now { kind, value := candidate value kind } cache w with
      | mk found rest =>
        rw [hlook] at hr hne
        obtain rfl : found = .done r := hr
        cases r with
        | none => exact absurd rfl (hne rest.1 rest.2)
        | some rule => exact ⟨rule, rfl⟩

theorem State.ReadyFor.lookUp (hb : backend.Finds fit key) {now : Time.Moment} {s : State W}
    (hs : s.ReadyFor fit now key) (value : Text) :
    (s.lookUp backend now value).2.ReadyFor fit now key := by
  refine ⟨fit_lookUp hb.toKeeps hs.world now value, ?_⟩
  show (matchAny backend.rules now.tick value s.cache s.world).2.1.Without _ _ _
  unfold matchAny
  split
  · exact hs.cache
  · exact matchKinds_without hb hs.world hs.cache value Kind.all

/-- **A look-up finds a rule** when the key is what is looked up of the value. -/
theorem lookUp_finds (hb : backend.Finds fit key) {now : Time.Moment} {s : State W}
    (hs : s.ReadyFor fit now key) {value : Text} (hne : value ≠ [])
    (hvalue : candidate value key.kind = key.value) :
    ∃ rule, (s.lookUp backend now value).1 = .done (some rule) := by
  show ∃ rule, (matchAny backend.rules now.tick value s.cache s.world).1 = .done (some rule)
  rw [matchAny, if_neg (by rwa [List.isEmpty_iff])]
  exact matchKinds_finds hb hs.world hs.cache hvalue (by cases key.kind <;> decide)

end LookUp

/-! ## 3. Calls and names -/

namespace State

variable {backend : Backend W} {fit : W → Prop} {key : Key} {now : Time.Moment} {s : State W}

theorem settle_judge {request : Request} {response : Option Response} {value : Text}
    {matched : Option Rule} (h : (s.lookUp backend now value).1 = .done matched) :
    (settle (s.judge backend now request response value)).1 =
      Dispatcher.dispositionFor request matched := by
  unfold judge
  cases hlook : s.lookUp backend now value with
  | mk found t =>
    rw [hlook] at h
    obtain rfl : found = .done matched := h
    exact Dispatcher.dispatch_disposition backend.blobs now.wall request response matched
      t.dispatcher t.world

/-- **What a call is answered** is what its canonical URL finds. -/
theorem onCall_of_lookUp {call : Call} {matched : Option Rule}
    (h : (s.lookUp backend now (Url.canonical call.url)).1 = .done matched) :
    (s.onCall backend now call).1 = Dispatcher.dispositionFor (call.request s.config) matched :=
  settle_judge h

/-- **What a resolved name is answered** is what the name finds. -/
theorem onResolution_of_lookUp {host : Text} {addresses : List Text} {snapshot : Option Text}
    {matched : Option Rule} (hne : Text.trim host ≠ []) (haddresses : addresses ≠ [])
    (h : (s.lookUp backend now (Text.trim host)).1 = .done matched) :
    (s.onResolution backend now host addresses snapshot).1 =
      Dispatcher.dispositionFor (resolution (Text.trim host) addresses snapshot) matched := by
  have hsome : ¬ ((Text.trim host).isEmpty || addresses.isEmpty) = true := by
    simp only [Bool.or_eq_true, List.isEmpty_iff, not_or]
    exact ⟨hne, haddresses⟩
  unfold onResolution
  simp only [if_neg hsome]
  exact settle_judge h

/-- **A call is aborted** when the key is looked up for its canonical URL. -/
theorem onCall_finds (hb : backend.Finds fit key) (hs : s.ReadyFor fit now key) (call : Call)
    (hne : Url.canonical call.url ≠ [])
    (hvalue : candidate (Url.canonical call.url) key.kind = key.value) :
    ∃ rule, (s.onCall backend now call).1 = .abort call.url (some rule) := by
  obtain ⟨rule, hrule⟩ := lookUp_finds hb hs hne hvalue
  exact ⟨rule, onCall_of_lookUp hrule⟩

/-- **A resolved name is aborted** when the key is looked up for it. -/
theorem onResolution_finds (hb : backend.Finds fit key) (hs : s.ReadyFor fit now key) {host : Text}
    {addresses : List Text} (snapshot : Option Text) (hne : Text.trim host ≠ [])
    (haddresses : addresses ≠ []) (hvalue : candidate (Text.trim host) key.kind = key.value) :
    ∃ rule, (s.onResolution backend now host addresses snapshot).1 =
      .abort (Text.trim host) (some rule) := by
  obtain ⟨rule, hrule⟩ := lookUp_finds hb hs hne hvalue
  exact ⟨rule, onResolution_of_lookUp hne haddresses hrule⟩

end State

/-! ## 4. Books and stores with a rule -/

/-- **A book finds a key that one of its rules matches.** -/
theorem finds_memory {kind : Kind} {rule value : Text} (h : kind.covers rule value = true) :
    memory.Finds (fun w => { kind, value := rule } ∈ w.1.rules) { kind, value } where
  query hw _ _ := hw
  keep hw _ _ := hw
  answers _ _ _ := nofun
  finds {w} hw := by
    have hsome : w.1.answer? kind value ≠ none := by
      intro hnone
      have hnot := Book.answer?_eq_none_iff.mp hnone _ hw rfl
      rw [h] at hnot
      cases hnot
    exact (Option.ne_none_iff_exists'.mp hsome).imp fun _ hrule => congrArg Reply.answer hrule

end Engine

namespace Store.Database

open Rule

/-- A store that answers when it is read. -/
def Readable (d : Database) : Prop :=
  d.reader = .own ∨ d.reader = .shared ∧ d.writer ≠ .poisoned

/-- A store that answers, with a rule that is switched on. -/
structure Offers (kind : Kind) (rule : Text) (d : Database) : Prop where
  readable : d.Readable
  row : ∃ row ∈ d.tables.rules.rows,
    row.kindName = kind.name ∧ row.value = rule ∧ row.enabled = 1

/-- A store that is written through a connection for anything answers, unless it is read through one
    that sees no tables. -/
theorem readable_of_anything {d : Database} (hw : d.writer = .anything) (hr : d.reader ≠ .blind) :
    d.Readable := by
  unfold Readable
  cases hreader : d.reader with
  | own => exact .inl rfl
  | shared => exact .inr ⟨rfl, by rw [hw]; exact nofun⟩
  | blind => exact absurd hreader hr

theorem read_of_readable {α : Type} {d : Database} (h : d.Readable)
    (f : Tables → Except Fault α) : d.read f = f d.tables := by
  unfold read
  rcases h with hown | ⟨hshared, hwriter⟩
  · rw [hown]
  · rw [hshared]
    exact if_neg hwriter

/-- What is written changes the tables, or is a fault and changes nothing. -/
theorem write_cases {α : Type} (f : Tables → Except Fault α × Tables) (d : Database) :
    ((∃ fault, (d.write f).1 = .error fault) ∧ (d.write f).2 = d) ∨
      d.write f = ((f d.tables).1, { d with tables := (f d.tables).2 }) := by
  unfold write
  cases d.writer with
  | poisoned | barred => exact .inl ⟨⟨_, rfl⟩, rfl⟩
  | anything => exact .inr rfl

/-- **A rule that was added is offered.** -/
theorem offers_addRule {d : Database} (hd : d.Readable) {kind : Kind} {value : Text} {note : Option Text}
    {now : Time.Timestamp} {id : Int} (h : (d.addRule kind value note now).1 = .ok id) :
    (d.addRule kind value note now).2.Offers kind (kind.normalize value) := by
  unfold addRule at h ⊢
  rcases write_cases (onRules fun t => t.insert kind value note now) d with ⟨⟨fault, hfault⟩, _⟩ | hw
  · rw [hfault] at h
    cases h
  · rw [hw] at h ⊢
    refine ⟨hd, ?_⟩
    simp only [onRules, Rules.insert] at h ⊢
    split at h
    · cases h
    · next hne =>
      rw [if_neg hne]
      cases hfind : d.tables.rules.find? kind.name (kind.normalize value) with
      | none => exact ⟨_, List.mem_append_right _ (List.mem_singleton_self _), rfl, rfl, rfl⟩
      | some row =>
        -- the row that is there is switched on
        have hfor := List.find?_some hfind
        obtain ⟨hkind, hvalue⟩ := Store.Rules.isFor_iff.mp hfor
        refine ⟨{ row with enabled := 1 }, List.mem_map.mpr ⟨row, ?_, if_pos hfor⟩, hkind, hvalue,
          rfl⟩
        exact List.mem_of_find?_eq_some hfind

/-- A store stays readable, with the same rules, whatever bodies it is given. -/
theorem rules_keep {d : Database} (hd : d.Readable) (bytes : Bytes) (mimeType : Text) :
    (blobs.keep bytes mimeType d).2.Readable ∧
      (blobs.keep bytes mimeType d).2.tables.rules = d.tables.rules := by
  show (d.write _).2.Readable ∧ (d.write _).2.tables.rules = _
  rcases write_cases _ d with ⟨_, hsame⟩ | hw
  · rw [hsame]
    exact ⟨hd, rfl⟩
  · rw [hw]
    exact ⟨hd, rfl⟩

/-- What a readable store replies is what its table finds. -/
theorem replyTo_of_readable {d : Database} (hd : d.Readable) (kind : Kind) (value : Text) :
    d.replyTo kind value = .answer (d.tables.rules.findMatch? kind value) := by
  rw [replyTo, findMatch, read_of_readable hd]

/-- **A store finds a key that one of its rules matches**, if neither has a NUL. -/
theorem finds_backend {kind : Kind} {rule value : Text} (hne : rule ≠ []) (hr : rule.NulFree)
    (hv : value.NulFree) (h : kind.covers rule value = true) :
    backend.Finds (Offers kind rule) { kind, value } where
  query hw _ _ := hw
  keep {d} hd bytes mimeType := by
    obtain ⟨hreadable, hrules⟩ := rules_keep hd.readable bytes mimeType
    exact ⟨hreadable, hrules ▸ hd.row⟩
  answers {d} _ kind value := by
    show d.replyTo kind value ≠ .crashed
    unfold replyTo
    split <;> nofun
  finds {d} hd := by
    obtain ⟨row, hrow, hkind, rfl, henabled⟩ := hd.row
    have happlies : Rules.applies kind value row = true := by
      simp only [Rules.applies, Bool.and_eq_true, henabled, hkind, beq_self_eq_true, true_and,
        Bool.not_eq_true', List.isEmpty_eq_false_iff]
      exact ⟨hne, (Kind.selects_eq_covers kind hne hr hv).trans h⟩
    have hsome : d.tables.rules.findMatch? kind value ≠ none := by
      intro hnone
      rw [Rules.findMatch?_eq_none_iff.mp hnone row hrow] at happlies
      cases happlies
    obtain ⟨found, hfound⟩ := Option.ne_none_iff_exists'.mp hsome
    refine ⟨found, ?_⟩
    show d.replyTo kind value = .answer (some found)
    rw [replyTo_of_readable hd.readable, hfound]

/-- **A store is steady as long as its rules stay the same** and it answers. It keeps the bodies
    itself. -/
theorem steady_backend (t : Rules) :
    backend.Steady (fun d => d.Readable ∧ d.tables.rules = t)
      (fun kind value => t.findMatch? kind value) id blobs where
  query hw _ _ := hw
  keep {d} hd bytes mimeType := by
    obtain ⟨hreadable, hrules⟩ := rules_keep hd.1 bytes mimeType
    exact ⟨hreadable, hrules.trans hd.2⟩
  answers {d} hd kind value := by
    show d.replyTo kind value = _
    rw [replyTo_of_readable hd.1, hd.2]
  shelf_query _ _ _ := rfl
  handle_keep _ _ _ := rfl
  shelf_keep _ _ _ := rfl

end Store.Database

end TrafficGate
