import TrafficGate.Proofs.CacheEntries
import TrafficGate.Proofs.LongestRule
import TrafficGate.Proofs.SteadyRules
/-!
  # Answers from a cache

  A cache stands before a source whose rules change and whose queries fail at times. What it gives
  was the answer of the rules at some time since it was last cleared; a failure is nothing that it
  remembers.

  1. `Truthful` -- a source that replies with the answer of its rules, or fails; a book that fails
     at times is one;
  2. `Session` -- a matcher in its world, with the worlds since its cache was last cleared, and
     `Reached` -- the sessions of runs;
  3. one look-up: read from the cache, answered, or failed;
  4. what a run preserves;
  5. look-ups one after the other, and the three of `matchAny`;
  6. `Retains` -- runs in which no entry is lost;
  7. the agreement.

  Main facts: **`lookUp_cases`**, **`Reached.faithful`**, **`matchAny_eq`**, **`Retains.value`** and
  **`Session.Reached.agrees`**.
-/

namespace TrafficGate.Rule

/-! ## 1. Sources that tell the truth -/

variable {W : Type}

/-- Every query is replied to with the answer of the rules in the world, or fails. Asking changes no
    answer. -/
structure Source.Truthful (source : Source W) (answer : W → Kind → Text → Option Rule) : Prop where
  replies : ∀ kind value w, (source.query kind value w).1 = .answer (answer w kind value) ∨
    (source.query kind value w).1 = .failed
  keeps : ∀ kind value w, answer (source.query kind value w).2 = answer w

/-- A book that fails at times: whether each query to come fails. -/
def flaky : Source (Book × List Bool) where
  query kind value w :=
    if w.2.headD false then (.failed, (w.1, w.2.tail))
    else (.answer (w.1.query kind value).1, ((w.1.query kind value).2, w.2.tail))

theorem flaky_truthful : flaky.Truthful fun w kind value => w.1.answer? kind value where
  replies kind value w := by
    simp only [flaky]
    split
    · exact .inr rfl
    · exact .inl rfl
  keeps kind value w := by
    simp only [flaky]
    split <;> rfl

/-! ## 2. Sessions -/

/-- A matcher in its world. -/
structure Session (W : Type) where
  cache : AnswerCache
  world : W
  /-- The worlds since the cache was last cleared, the present one among them. -/
  since : List W

namespace Session

variable (source : Source W) (now : Nat) (key : Key) (s : Session W)

/-- Looks up a value as one kind. -/
def lookUp : Outcome (Option Rule) × Session W :=
  match lookup source now key s.cache s.world with
  | (outcome, cache, w) => (outcome, { cache, world := w, since := w :: s.since })

/-- Clears the cache. -/
def clear : Session W := { s with cache := s.cache.clear, since := [s.world] }

/-- Changes the world: rules come and go, and when queries fail may change, too. -/
def change (w : W) : Session W := { s with world := w, since := w :: s.since }

/-- A look-up asks the source, which fails. -/
def Fails : Prop :=
  (s.cache.get now key).1 = none ∧ (source.query key.kind key.value s.world).1 = .failed

/-- A look-up asks the source, and the answer drops the entry of another look-up. -/
def Evicts : Prop :=
  (s.cache.get now key).1 = none ∧
    (∃ r, (source.query key.kind key.value s.world).1 = .answer r) ∧ s.cache.Evicts key

/-- The sessions of all runs, with caches for any number of answers and any time. -/
inductive Reached : Session W → Prop where
  | start {limit lifetime : Nat} {cache : AnswerCache} (w : W)
      (h : Cache.new? limit lifetime = some cache) : Reached { cache, world := w, since := [w] }
  | lookUp {s : Session W} (now : Nat) (key : Key) : Reached s → Reached (s.lookUp source now key).2
  | clear {s : Session W} : Reached s → Reached s.clear
  | change {s : Session W} (w : W) : Reached s → Reached (s.change w)

/-- Every entry was the answer at some time since the cache was last cleared. -/
structure Faithful (answer : W → Kind → Text → Option Rule) : Prop where
  present : s.world ∈ s.since
  remembers : s.cache.Every fun key r => ∃ w ∈ s.since, r = answer w key.kind key.value
  roomy : s.cache.Roomy

variable {source now key s} {answer : W → Kind → Text → Option Rule}

/-! ## 3. One look-up -/

/-- **What a look-up can be**: read from the cache, answered and written, or failed. -/
theorem lookUp_cases (hs : source.Truthful answer) (now : Nat) (key : Key) (s : Session W) :
    (∃ r, (s.cache.get now key).1 = some r ∧ s.lookUp source now key =
      (.done r, { cache := (s.cache.get now key).2, world := s.world, since := s.world :: s.since })) ∨
    (∃ w, (s.cache.get now key).1 = none ∧ answer w = answer s.world ∧
      (source.query key.kind key.value s.world).1 = .answer (answer s.world key.kind key.value) ∧
      s.lookUp source now key = (.done (answer s.world key.kind key.value),
        { cache := (s.cache.get now key).2.insert now key (answer s.world key.kind key.value),
          world := w, since := w :: s.since })) ∨
    (∃ w, s.Fails source now key ∧ answer w = answer s.world ∧ s.lookUp source now key =
      (.done none, { cache := (s.cache.get now key).2, world := w, since := w :: s.since })) := by
  have hkeeps := hs.keeps key.kind key.value s.world
  have hreplies := hs.replies key.kind key.value s.world
  simp only [lookUp, lookup, Fails]
  rcases hget : s.cache.get now key with ⟨_ | r, cache⟩
  · simp only [ask]
    rcases hquery : source.query key.kind key.value s.world with ⟨reply, w⟩
    rw [hquery] at hkeeps hreplies
    rcases hreplies with rfl | rfl
    · exact .inr (.inl ⟨w, trivial, hkeeps, rfl, rfl⟩)
    · exact .inr (.inr ⟨w, ⟨trivial, rfl⟩, hkeeps, rfl⟩)
  · exact .inl ⟨r, rfl, rfl⟩

/-- A look-up asks with the answers of the world, and changes none. -/
theorem answer_lookUp (hs : source.Truthful answer) (now : Nat) (key : Key) (s : Session W) :
    answer (s.lookUp source now key).2.world = answer s.world := by
  rcases lookUp_cases hs now key s with ⟨r, _, h⟩ | ⟨w, _, hw, _, h⟩ | ⟨w, _, hw, h⟩
  · rw [h]
  · rw [h]
    exact hw
  · rw [h]
    exact hw

theorem since_lookUp (source : Source W) (now : Nat) (key : Key) (s : Session W) :
    (s.lookUp source now key).2.since = (s.lookUp source now key).2.world :: s.since := rfl

namespace Faithful

/-- **A look-up gives an answer since the cache was cleared, or nothing because it failed.** A
    failure is not remembered. -/
theorem honest (hs : source.Truthful answer) (h : s.Faithful answer) (now : Nat) (key : Key) :
    (∃ w ∈ s.since, (s.lookUp source now key).1 = .done (answer w key.kind key.value)) ∨
      (s.Fails source now key ∧ (s.lookUp source now key).1 = .done none ∧
        (s.lookUp source now key).2.cache.held? key = none) := by
  rcases lookUp_cases hs now key s with ⟨r, hget, he⟩ | ⟨w, _, _, _, he⟩ | ⟨w, hfails, _, he⟩
  · obtain ⟨w, hw, rfl⟩ := (h.remembers.get now key).1 r hget
    exact .inl ⟨w, hw, by rw [he]⟩
  · exact .inl ⟨s.world, h.present, by rw [he]⟩
  · refine .inr ⟨hfails, by rw [he], ?_⟩
    rw [he, Cache.held?_get_self h.roomy, hfails.1, Option.map_none]

/-! ## 4. Runs -/

/-- More worlds leave the entries what they are. -/
theorem remembers_cons (h : s.Faithful answer) (w : W) :
    s.cache.Every fun key r => ∃ v ∈ w :: s.since, r = answer v key.kind key.value := by
  intro p hp row hrow
  obtain ⟨v, hv, hr⟩ := h.remembers p hp row hrow
  exact ⟨v, List.mem_cons_of_mem w hv, hr⟩

theorem lookUp (hs : source.Truthful answer) (h : s.Faithful answer) (now : Nat) (key : Key) :
    (s.lookUp source now key).2.Faithful answer := by
  rcases lookUp_cases hs now key s with ⟨r, _, he⟩ | ⟨w, _, _, _, he⟩ | ⟨w, _, _, he⟩
  · rw [he]
    exact ⟨List.mem_cons_self, ((h.remembers_cons s.world).get now key).2, h.roomy.get now key⟩
  · rw [he]
    have hread := ((h.remembers_cons w).get now key).2
    exact ⟨List.mem_cons_self,
      hread.insert ⟨s.world, List.mem_cons_of_mem w h.present, rfl⟩ now,
      (h.roomy.get now key).insert now key _⟩
  · rw [he]
    exact ⟨List.mem_cons_self, ((h.remembers_cons w).get now key).2, h.roomy.get now key⟩

end Faithful

/-- **Every session of a run is faithful.** -/
theorem Reached.faithful (hs : source.Truthful answer) (h : s.Reached source) :
    s.Faithful answer := by
  induction h with
  | start w hcache =>
    exact ⟨List.mem_singleton_self w, Cache.every_new? hcache, Cache.roomy_new? hcache⟩
  | lookUp now key _ ih => exact ih.lookUp hs now key
  | clear _ ih => exact ⟨List.mem_singleton_self _, Cache.every_clear _, ih.roomy.clear⟩
  | change w _ ih => exact ⟨List.mem_cons_self, ih.remembers_cons w, ih.roomy⟩

/-! ## 5. One look-up after the other -/

/-- Looks up the keys, one after the other, up to the first rule. -/
def lookUpFirst (source : Source W) (now : Nat) :
    List Key → Session W → Outcome (Option Rule) × Session W
  | [], s => (.done none, s)
  | key :: keys, s =>
    match s.lookUp source now key with
    | (.done none, s) => lookUpFirst source now keys s
    | found => found

/-- None of the look-ups of the keys fails, up to the first rule. -/
def Served (source : Source W) (now : Nat) : List Key → Session W → Prop
  | [], _ => True
  | key :: keys, s => ¬ s.Fails source now key ∧
      ((s.lookUp source now key).1 = .done none →
        Served source now keys (s.lookUp source now key).2)

instance (source : Source W) (now : Nat) (key : Key) (s : Session W) :
    Decidable (s.Fails source now key) :=
  inferInstanceAs (Decidable ((s.cache.get now key).1 = none ∧ _))

instance decidableServed (source : Source W) (now : Nat) :
    (keys : List Key) → (s : Session W) → Decidable (s.Served source now keys)
  | [], _ => isTrue trivial
  | key :: keys, s =>
    have := decidableServed source now keys (s.lookUp source now key).2
    inferInstanceAs (Decidable (¬ s.Fails source now key ∧
      ((s.lookUp source now key).1 = .done none → _)))

/-- What a value is looked up by, in the order of the kinds. -/
def keysOf (value : Text) : List Key :=
  Kind.all.map fun kind => { kind, value := candidate value kind }

theorem matchKinds_eq (source : Source W) (now : Nat) (value : Text) (kinds : List Kind)
    (s : Session W) : matchKinds source now value kinds s.cache s.world =
      (let found := s.lookUpFirst source now
        (kinds.map fun kind => { kind, value := candidate value kind })
       (found.1, found.2.cache, found.2.world)) := by
  induction kinds generalizing s with
  | nil => rfl
  | cons kind kinds ih =>
    simp only [matchKinds, List.map_cons, lookUpFirst, lookUp]
    rcases lookup source now { kind, value := candidate value kind } s.cache s.world with
      ⟨⟨_ | r⟩ | _, cache, w⟩
    · exact ih { cache, world := w, since := w :: s.since }
    · rfl
    · rfl

/-- **Matching a value is looking it up, one kind after the other.** -/
theorem matchAny_eq (source : Source W) (now : Nat) {value : Text} (hne : value ≠ [])
    (s : Session W) : matchAny source now value s.cache s.world =
      ((s.lookUpFirst source now (keysOf value)).1,
        (s.lookUpFirst source now (keysOf value)).2.cache,
        (s.lookUpFirst source now (keysOf value)).2.world) := by
  rw [matchAny, if_neg fun h => hne (List.isEmpty_iff.mp h), matchKinds_eq]
  rfl

/-- Matching is part of a run. -/
theorem Reached.lookUpFirst (h : s.Reached source) (now : Nat) (keys : List Key) :
    (s.lookUpFirst source now keys).2.Reached source := by
  induction keys generalizing s with
  | nil => exact h
  | cons key keys ih =>
    have hnext : (s.lookUp source now key).2.Reached source := h.lookUp now key
    rw [Session.lookUpFirst]
    rcases hlook : s.lookUp source now key with ⟨⟨_ | r⟩ | _, s'⟩
    · rw [hlook] at hnext
      exact ih hnext
    · rw [hlook] at hnext
      exact hnext
    · rw [hlook] at hnext
      exact hnext

/-- The answers have been the same since the cache was last cleared. -/
def Settled (answer : W → Kind → Text → Option Rule) (s : Session W) : Prop :=
  ∀ w ∈ s.since, answer w = answer s.world

theorem Settled.lookUp (hs : source.Truthful answer) (h : s.Settled answer) (now : Nat)
    (key : Key) : (s.lookUp source now key).2.Settled answer := by
  intro w hw
  rw [answer_lookUp hs]
  rw [since_lookUp] at hw
  rcases List.mem_cons.mp hw with rfl | hw
  · exact answer_lookUp hs now key s
  · exact h w hw

/-- Where the answers have been the same and nothing fails, a look-up gives the answer. -/
theorem lookUp_settled (hs : source.Truthful answer) (hf : s.Faithful answer)
    (h : s.Settled answer) (hserved : ¬ s.Fails source now key) :
    (s.lookUp source now key).1 = .done (answer s.world key.kind key.value) := by
  rcases hf.honest hs now key with ⟨w, hw, he⟩ | ⟨hfails, _⟩
  · rw [he, h w hw]
  · exact absurd hfails hserved

/-- **Look-ups one after the other give the first answer that is a rule.** -/
theorem lookUpFirst_settled (hs : source.Truthful answer) {keys : List Key}
    (hf : s.Faithful answer) (h : s.Settled answer) (hserved : s.Served source now keys) :
    (s.lookUpFirst source now keys).1 =
      .done (keys.findSome? fun key => answer s.world key.kind key.value) := by
  induction keys generalizing s with
  | nil => rfl
  | cons key keys ih =>
    obtain ⟨hfirst, hrest⟩ := hserved
    have he := lookUp_settled hs hf h hfirst
    have hnext := ih (hf.lookUp hs now key) (h.lookUp hs now key)
    rw [answer_lookUp hs] at hnext
    rw [lookUpFirst, List.findSome?_cons]
    rcases hlook : s.lookUp source now key with ⟨outcome, s'⟩
    rw [hlook] at he hrest hnext
    cases ha : answer s.world key.kind key.value with
    | none =>
      rw [ha] at he
      obtain rfl : outcome = .done none := he
      exact hnext (hrest rfl)
    | some r =>
      rw [ha] at he
      obtain rfl : outcome = .done (some r) := he
      rfl

/-! ## 6. Runs without losses -/

/-- The second session follows from the first by look-ups and changes of the world in which no entry
    is found too old and none is dropped. -/
inductive Retains (source : Source W) : Session W → Session W → Prop where
  | refl (s : Session W) : Retains source s s
  | lookUp {s s' : Session W} (now : Nat) (key : Key) : Retains source s s' →
      ¬ s'.cache.Expires now key → ¬ s'.Evicts source now key →
      Retains source s (s'.lookUp source now key).2
  | change {s s' : Session W} (w : W) : Retains source s s' → Retains source s (s'.change w)

/-- A look-up that loses nothing leaves every key the value of its entry. -/
theorem value_lookUp (hs : source.Truthful answer) (hf : s.Faithful answer) {k : Key}
    {r : Option Rule} (hr : (s.cache.held? k).map (·.value) = some r)
    (hfresh : ¬ s.cache.Expires now key) (hroom : ¬ s.Evicts source now key) :
    ((s.lookUp source now key).2.cache.held? k).map (·.value) = some r := by
  obtain ⟨e, hentry, rfl⟩ := Option.map_eq_some_iff.mp hr
  by_cases hk : k = key
  · -- The entry is there and good: the look-up reads it.
    subst hk
    have hget := Cache.get_of_held? hentry hfresh
    rcases lookUp_cases hs now k s with ⟨_, _, he⟩ | ⟨_, hmiss, _⟩ | ⟨_, hfails, _⟩
    · rw [he, Cache.held?_get_self hf.roomy, hget]
      rfl
    · rw [hmiss] at hget
      cases hget
    · rw [hfails.1] at hget
      cases hget
  · have hread : (s.cache.get now key).2.held? k = s.cache.held? k :=
      Cache.held?_get_other hf.roomy hk
    rcases lookUp_cases hs now key s with ⟨_, _, he⟩ | ⟨_, hmiss, _, hreply, he⟩ | ⟨_, _, _, he⟩
    · rw [he, hread, hentry]
      rfl
    · have hfull : ¬ (s.cache.get now key).2.Evicts key := fun hfull =>
        hroom ⟨hmiss, ⟨_, hreply⟩, (Cache.evicts_get_iff hf.roomy).mp hfull⟩
      rw [he, Cache.held?_insert_other (hf.roomy.get now key) hk hfull, hread, hentry]
      rfl
    · rw [he, hread, hentry]
      rfl

/-- **Without losses every key keeps the value of its entry.** -/
theorem Retains.value (hs : source.Truthful answer) {s' : Session W} (h : Retains source s s')
    (hf : s.Faithful answer) {k : Key} {r : Option Rule}
    (hr : (s.cache.held? k).map (·.value) = some r) :
    s'.Faithful answer ∧ (s'.cache.held? k).map (·.value) = some r := by
  induction h with
  | refl => exact ⟨hf, hr⟩
  | lookUp now key _ hfresh hroom ih =>
    obtain ⟨hf', hr'⟩ := ih
    exact ⟨hf'.lookUp hs now key, value_lookUp hs hf' hr' hfresh hroom⟩
  | change w _ ih =>
    exact ⟨⟨List.mem_cons_self, ih.1.remembers_cons w, ih.1.roomy⟩, ih.2⟩

/-- What was answered is remembered. -/
theorem value_of_answered (hs : source.Truthful answer) (hf : s.Faithful answer)
    {r : Option Rule} (hserved : ¬ s.Fails source now key)
    (hr : (s.lookUp source now key).1 = .done r) :
    ((s.lookUp source now key).2.cache.held? key).map (·.value) = some r := by
  rcases lookUp_cases hs now key s with ⟨_, hget, he⟩ | ⟨_, _, _, _, he⟩ | ⟨_, hfails, _⟩
  · rw [he] at hr ⊢
    cases hr
    rw [Cache.held?_get_self hf.roomy, hget]
    rfl
  · rw [he] at hr ⊢
    cases hr
    rw [Cache.held?_insert_self (hf.roomy.get now key)]
    rfl
  · exact absurd hfails hserved

/-! ## 7. The agreement -/

/-- **A matcher with a cache agrees with its source**, in every session of every run.

    A look-up gives what was the answer at some time since the cache was last cleared, or nothing
    because it failed, and a failure is not remembered. A value is matched by such look-ups, which are
    part of the run; if the answers have been the same and none of the look-ups fails, it gives the URL
    rule that answers, else the domain rule for the host, else the keyword rule. As long as no entry is
    lost, what was answered once is not asked again. A book answers with a longest of its rules that
    match. -/
theorem Reached.agrees (hs : source.Truthful answer) (h : s.Reached source) :
    (∀ now key,
      (∃ w ∈ s.since, (s.lookUp source now key).1 = .done (answer w key.kind key.value)) ∨
        (s.Fails source now key ∧ (s.lookUp source now key).1 = .done none ∧
          (s.lookUp source now key).2.cache.held? key = none)) ∧
    (∀ now value, value ≠ [] →
      matchAny source now value s.cache s.world =
        ((s.lookUpFirst source now (keysOf value)).1,
          (s.lookUpFirst source now (keysOf value)).2.cache,
          (s.lookUpFirst source now (keysOf value)).2.world) ∧
      (s.lookUpFirst source now (keysOf value)).2.Reached source ∧
      (s.Settled answer → s.Served source now (keysOf value) →
        (matchAny source now value s.cache s.world).1 =
          .done ((answer s.world .url value).or
            ((answer s.world .domain (Url.hostOf value)).or (answer s.world .keyword value))))) ∧
    (∀ now key r s', ¬ s.Fails source now key → (s.lookUp source now key).1 = .done r →
      Retains source (s.lookUp source now key).2 s' →
      ∀ later, ¬ s'.cache.Expires later key → ∀ (other : Source W) w,
        lookup other later key s'.cache w = (.done r, (s'.cache.get later key).2, w)) ∧
    (∀ (b : Book) kind value, b.Reports kind value (b.query kind value).1) := by
  have hf := h.faithful hs
  refine ⟨fun now key => hf.honest hs now key, fun now value hne => ?_,
    fun now key r s' hserved hr hretains later hfresh other w => ?_,
    fun b kind value => b.reports_query kind value⟩
  · refine ⟨matchAny_eq source now hne s, h.lookUpFirst now _, fun hsettled hserved => ?_⟩
    rw [matchAny_eq source now hne s, lookUpFirst_settled hs hf hsettled hserved]
    simp only [keysOf, Kind.all, List.map_cons, List.map_nil, List.findSome?_cons,
      List.findSome?_nil, candidate]
    cases answer s.world .url value <;> cases answer s.world .domain (Url.hostOf value) <;>
      cases answer s.world .keyword value <;> rfl
  · obtain ⟨_, hvalue⟩ := hretains.value hs (hf.lookUp hs now key)
      (value_of_answered hs hf hserved hr)
    obtain ⟨e, hentry, rfl⟩ := Option.map_eq_some_iff.mp hvalue
    exact lookup_of_get (Prod.ext (Cache.get_of_held? hentry hfresh) rfl) w

/-- A book with a rule for a host. -/
def ruledHost : Book := Book.empty.add .domain "h".toList

/-- A matcher in front of the book, of which the next query fails, or does not. -/
def startRuled (fails : Bool) : Session (Book × List Bool) :=
  { cache := { share := 4, lifetime := 60, parts := List.replicate 16 [] },
    world := (ruledHost, [fails]), since := [(ruledHost, [fails])] }

/-- The host as a key, and its rule. -/
def hostKey : Key := { kind := .domain, value := "h".toList }

def hostRule : Rule := { kind := .domain, value := "h".toList }

/-- The host is found behind a URL without a rule, in a new session, behind a look-up that was
    cached and behind one that failed. The failure is not remembered, and no source is asked for what
    is cached. -/
theorem agrees_ruled_host :
    let cached := ((startRuled false).lookUp flaky 5 hostKey).2
    let failed := ((startRuled true).lookUp flaky 5 hostKey).2
    (∀ s ∈ [startRuled false, cached, failed],
      (matchAny flaky 6 "http://h/a".toList s.cache s.world).1 = .done (some hostRule)) ∧
    ((startRuled true).lookUp flaky 5 hostKey).1 = .done none ∧
    failed.cache.held? hostKey = none ∧
    ∀ (other : Source (Book × List Bool)) w, lookup other 7 hostKey cached.cache w =
      (.done (some hostRule), (cached.cache.get 7 hostKey).2, w) := by
  have hstart : ∀ fails, (startRuled fails).Reached flaky := fun fails =>
    .start (ruledHost, [fails]) (rfl : Cache.new? 64 60 = some (startRuled fails).cache)
  have hsettled : ∀ fails, (startRuled fails).Settled fun w kind value => w.1.answer? kind value := by
    intro fails w hw
    rw [List.mem_singleton.mp hw]
    rfl
  have hmatch : ∀ s : Session (Book × List Bool), s.Reached flaky →
      (s.Settled fun w kind value => w.1.answer? kind value) →
      s.Served flaky 6 (keysOf "http://h/a".toList) →
      (matchAny flaky 6 "http://h/a".toList s.cache s.world).1 =
        .done ((s.world.1.answer? .url "http://h/a".toList).or
          ((s.world.1.answer? .domain (Url.hostOf "http://h/a".toList)).or
            (s.world.1.answer? .keyword "http://h/a".toList))) := fun s hs =>
    ((hs.agrees flaky_truthful).2.1 6 "http://h/a".toList (by decide)).2.2
  have hcached := (hstart false).lookUp 5 hostKey
  have hfailed := (hstart true).lookUp 5 hostKey
  have hnone : ((startRuled true).lookUp flaky 5 hostKey).1 = .done none ∧
      ((startRuled true).lookUp flaky 5 hostKey).2.cache.held? hostKey = none := by
    rcases ((hstart true).agrees flaky_truthful).1 5 hostKey with ⟨w, hw, hfound⟩ | ⟨_, hnone⟩
    · rw [List.mem_singleton.mp hw] at hfound
      exact absurd hfound (by decide +kernel)
    · exact hnone
  refine ⟨?_, hnone.1, hnone.2, ((hstart false).agrees flaky_truthful).2.2.1 5 hostKey
    (some hostRule) _ (by decide +kernel) (by decide +kernel) (.refl _) 7 (by decide +kernel)⟩
  simp only [List.forall_mem_cons]
  refine ⟨?_, ?_, ?_, List.forall_mem_nil _⟩
  · rw [hmatch _ (hstart false) (hsettled false) (by decide +kernel)]
    decide +kernel
  · rw [hmatch _ hcached ((hsettled false).lookUp flaky_truthful 5 hostKey) (by decide +kernel)]
    decide +kernel
  · rw [hmatch _ hfailed ((hsettled true).lookUp flaky_truthful 5 hostKey) (by decide +kernel)]
    decide +kernel

end Session

end TrafficGate.Rule
