import TrafficGate.Proofs.Collaborators
/-!
  # Rules that do not change

  While the rules stay as they are and the source always answers, it does not show whether an answer
  came from the cache or from the source, how old an entry is, or which entries were dropped.

  1. caches of which every entry has a property;
  2. `Steady` -- a source that always gives the same answers, and a keeper of bodies that it does
     not touch;
  3. what a look-up finds in a faithful state;
  4. states of runs are faithful.

  Main facts: **`Cache.Every.get`**, **`lookUp_steady`**, **`Reachable.faithful`** and
  **`steady_memory`**.
-/

namespace TrafficGate

theorem Table.mem_of_find? {κ α : Type} [DecidableEq κ] {k : κ} {a : α} {t : Table κ α}
    (h : find? k t = some a) : (k, a) ∈ t := by
  induction t with
  | nil => cases h
  | cons row rows ih =>
    obtain ⟨k', a'⟩ := row
    by_cases hk : k' = k
    · simp only [find?, if_pos hk, Option.some.injEq] at h
      rw [hk, h]
      exact List.mem_cons_self
    · simp only [find?, if_neg hk] at h
      exact List.mem_cons_of_mem _ (ih h)

namespace Rule

/-! ## 1. Caches -/

section Caches

variable {κ α : Type} {P : κ → α → Prop}

/-- Every entry of a part has the property. -/
def Part.Every (P : κ → α → Prop) (p : Part κ α) : Prop := ∀ row ∈ p, P row.1 row.2.value

/-- Every entry of a cache has the property, good or not. -/
def Cache.Every (P : κ → α → Prop) (c : Cache κ α) : Prop := ∀ p ∈ c.parts, p.Every P

namespace Part

theorem every_nil : Every P ([] : Part κ α) := fun _ h => by cases h

variable [DecidableEq κ]

theorem Every.erase {p : Part κ α} (h : p.Every P) (k : κ) : Every P (Table.erase k p) :=
  fun row hrow => h row (List.mem_filter.mp hrow).1

theorem Every.putFirst {p : Part κ α} (h : p.Every P) {k : κ} {a : α} (ha : P k a) (now : Nat) :
    Every P (putFirst now k a p) := by
  intro row hrow
  rcases List.mem_cons.mp hrow with rfl | hrow
  · exact ha
  · exact h.erase k row hrow

theorem Every.insert {p : Part κ α} (h : p.Every P) {k : κ} {a : α} (ha : P k a)
    (share now : Nat) : Every P (insert share now k a p) :=
  fun row hrow => h.putFirst ha now row (List.mem_of_mem_take hrow)

theorem Every.get {p : Part κ α} (h : p.Every P) (lifetime now : Nat) (k : κ) :
    (∀ a, (get lifetime now k p).1 = some a → P k a) ∧ Every P (get lifetime now k p).2 := by
  unfold Part.get
  cases hf : Table.find? k p with
  | none => exact ⟨fun _ => nofun, h⟩
  | some e =>
    have he : P k e.value := h (k, e) (Table.mem_of_find? hf)
    simp only []
    split
    · refine ⟨fun a ha => ?_, h.putFirst he now⟩
      cases ha
      exact he
    · exact ⟨fun _ => nofun, h.erase k⟩

end Part

namespace Cache

theorem every_new? {limit lifetime : Nat} {c : Cache κ α} (h : new? limit lifetime = some c) :
    c.Every P := by
  unfold new? at h
  split at h
  · cases h
    intro p hp
    rw [List.eq_of_mem_replicate hp]
    exact Part.every_nil
  · cases h

theorem every_clear (c : Cache κ α) : c.clear.Every P := by
  intro p hp
  obtain ⟨_, _, rfl⟩ := List.mem_map.mp hp
  exact Part.every_nil

variable [Spread κ] {c : Cache κ α}

theorem Every.part (h : c.Every P) (k : κ) : (c.part k).Every P := by
  unfold Cache.part
  by_cases hp : c.place k < c.parts.length
  · rw [List.getD_eq_getElem?_getD, List.getElem?_eq_getElem hp]
    exact h _ (List.getElem_mem hp)
  · rw [List.getD_eq_getElem?_getD, List.getElem?_eq_none (Nat.le_of_not_lt hp)]
    exact Part.every_nil

theorem Every.setPart (h : c.Every P) {p : Part κ α} (hp : p.Every P) (k : κ) :
    (c.setPart k p).Every P := by
  intro q hq
  rcases List.mem_or_eq_of_mem_set hq with hq | rfl
  · exact h q hq
  · exact hp

variable [DecidableEq κ]

/-- **What is read has the property of the entries**, and reading keeps it. -/
theorem Every.get (h : c.Every P) (now : Nat) (k : κ) :
    (∀ a, (c.get now k).1 = some a → P k a) ∧ (c.get now k).2.Every P := by
  obtain ⟨hread, hkept⟩ := (h.part k).get c.lifetime now k
  exact ⟨hread, h.setPart hkept k⟩

/-- **Writing an entry with the property keeps it.** -/
theorem Every.insert (h : c.Every P) {k : κ} {a : α} (ha : P k a) (now : Nat) :
    (c.insert now k a).Every P :=
  h.setPart ((h.part k).insert ha c.share now) k

end Cache

end Caches

/-- The rule that matches a value when the rules of each kind give these answers. -/
def find (answer : Kind → Text → Option Rule) (value : Text) : Option Rule :=
  if value.isEmpty then none else Kind.all.findSome? fun kind => answer kind (candidate value kind)

/-- Every cached answer is the one of the rules. -/
def Coherent (answer : Kind → Text → Option Rule) (cache : AnswerCache) : Prop :=
  cache.Every fun key r => r = answer key.kind key.value

end Rule

namespace Engine

open Http TrafficGate.Stream Exchange Rule Verdict

variable {W S : Type}

/-! ## 2. Steady collaborators -/

/-- In fit worlds the source always answers, and always the same. The keeper looks at a part of the
    world, the `shelf`, that the source leaves as it is. -/
structure Backend.Steady (backend : Backend W) (fit : W → Prop)
    (answer : Kind → Text → Option Rule) (shelf : W → S) (keeper : Keeper S) : Prop
    extends Backend.Keeps backend fit where
  answers : ∀ {w}, fit w → ∀ kind value,
    (backend.rules.query kind value w).1 = .answer (answer kind value)
  shelf_query : ∀ {w}, fit w → ∀ kind value,
    shelf (backend.rules.query kind value w).2 = shelf w
  handle_keep : ∀ {w}, fit w → ∀ bytes mimeType,
    (backend.blobs.keep bytes mimeType w).1 = (keeper.keep bytes mimeType (shelf w)).1
  shelf_keep : ∀ {w}, fit w → ∀ bytes mimeType,
    shelf (backend.blobs.keep bytes mimeType w).2 = (keeper.keep bytes mimeType (shelf w)).2

section Steady

variable {backend : Backend W} {fit : W → Prop} {answer : Kind → Text → Option Rule}
  {shelf : W → S} {keeper : Keeper S} {w : W} {cache : AnswerCache}

theorem Backend.Steady.calm (hb : backend.Steady fit answer shelf keeper) : backend.Calm fit where
  toKeeps := hb.toKeeps
  answers hw kind value h := by
    rw [hb.answers hw] at h
    cases h

/-! ## 3. Looking up -/

/-- **Cached or not, the answer is the one of the rules.** -/
theorem lookup_steady (hb : backend.Steady fit answer shelf keeper) (hw : fit w)
    (hc : Coherent answer cache) (now : Nat) (key : Key) :
    ∃ cache' w', lookup backend.rules now key cache w =
        (.done (answer key.kind key.value), cache', w') ∧
      Coherent answer cache' ∧ fit w' ∧ shelf w' = shelf w := by
  obtain ⟨hread, hkept⟩ := hc.get now key
  unfold lookup
  cases hget : cache.get now key with
  | mk found cache' =>
    rw [hget] at hread hkept
    cases found with
    | some r =>
      rw [hread r rfl]
      exact ⟨cache', w, rfl, hkept, hw, rfl⟩
    | none =>
      have hreply := hb.answers hw key.kind key.value
      have hfit := hb.query hw key.kind key.value
      have hshelf := hb.shelf_query hw key.kind key.value
      simp only [ask]
      cases hq : backend.rules.query key.kind key.value w with
      | mk reply w' =>
        rw [hq] at hreply hfit hshelf
        obtain rfl : reply = .answer (answer key.kind key.value) := hreply
        exact ⟨_, w', rfl, hkept.insert rfl now, hfit, hshelf⟩

theorem matchKinds_steady (hb : backend.Steady fit answer shelf keeper) (hw : fit w)
    (hc : Coherent answer cache) (now : Nat) (value : Text) (kinds : List Kind) :
    ∃ cache' w', matchKinds backend.rules now value kinds cache w =
        (.done (kinds.findSome? fun kind => answer kind (candidate value kind)), cache', w') ∧
      Coherent answer cache' ∧ fit w' ∧ shelf w' = shelf w := by
  induction kinds generalizing cache w with
  | nil => exact ⟨cache, w, rfl, hc, hw, rfl⟩
  | cons kind kinds ih =>
    obtain ⟨cache', w', hlookup, hc', hw', hshelf⟩ :=
      lookup_steady hb hw hc now { kind, value := candidate value kind }
    simp only [matchKinds, List.findSome?_cons, hlookup]
    cases answer kind (candidate value kind) with
    | some r => exact ⟨cache', w', rfl, hc', hw', hshelf⟩
    | none =>
      obtain ⟨cache'', w'', hrest, hc'', hw'', hshelf'⟩ := ih hw' hc'
      exact ⟨cache'', w'', hrest, hc'', hw'', hshelf'.trans hshelf⟩

theorem matchAny_steady (hb : backend.Steady fit answer shelf keeper) (hw : fit w)
    (hc : Coherent answer cache) (now : Nat) (value : Text) :
    ∃ cache' w', matchAny backend.rules now value cache w =
        (.done (find answer value), cache', w') ∧
      Coherent answer cache' ∧ fit w' ∧ shelf w' = shelf w := by
  unfold matchAny find
  split
  · exact ⟨cache, w, rfl, hc, hw, rfl⟩
  · exact matchKinds_steady hb hw hc now value Kind.all

/-- A state in a fit world whose cached answers are those of the rules. -/
def State.Faithful (fit : W → Prop) (answer : Kind → Text → Option Rule) (s : State W) : Prop :=
  fit s.world ∧ Coherent answer s.cache

/-- **A look-up in a faithful state finds what the rules say**, and changes nothing else that
    matters. -/
theorem lookUp_steady (hb : backend.Steady fit answer shelf keeper) {s : State W}
    (hs : s.Faithful fit answer) (now : Time.Moment) (value : Text) :
    ∃ cache world, s.lookUp backend now value =
        (.done (find answer value), { s with cache, world }) ∧
      State.Faithful fit answer { s with cache, world } ∧ shelf world = shelf s.world := by
  obtain ⟨cache, world, hmatch, hc, hw, hshelf⟩ := matchAny_steady hb hs.1 hs.2 now.tick value
  refine ⟨cache, world, ?_, ⟨hw, hc⟩, hshelf⟩
  rw [State.lookUp, hmatch]

/-! ## 4. Runs -/

theorem faithful_change (hb : backend.Steady fit answer shelf keeper) {s t : State W}
    (h : State.Change backend s t) (hs : s.Faithful fit answer) : t.Faithful fit answer := by
  refine ⟨fit_change hb.toKeeps h hs.1, ?_⟩
  cases h with
  | handling h =>
    cases h with
    | lookUp now value =>
      obtain ⟨cache, world, hlook, hfaithful, _⟩ := lookUp_steady hb hs now value
      rw [hlook]
      exact hfaithful.2
    | dispatch now request response matched => exact hs.2
    | push flow r => exact hs.2
    | takeOldest flow => exact hs.2
  | receive flow side answersHead bytes => exact hs.2
  | close flow => exact hs.2
  | clear => exact Cache.every_clear s.cache

/-- **While the rules do not change, every cached answer of a run is theirs.** -/
theorem Reachable.faithful (hb : backend.Steady fit answer shelf keeper) {s : State W}
    (h : Reachable backend fit s) : s.Faithful fit answer := by
  refine h.invariant (fun {config world s} _ hw hs => ?_) (faithful_change hb)
    (fun hw hs => ⟨hw, hs.2⟩)
  obtain ⟨cache, hcache, rfl⟩ := Option.map_eq_some_iff.mp hs
  exact ⟨hw, Cache.every_new? hcache⟩

end Steady

/-- **A book is steady as long as its rules stay the same**, and the bodies lie on a shelf of their
    own. -/
theorem steady_memory (rules : List Rule) :
    memory.Steady (fun w => w.1.rules = rules)
      (fun kind value => Book.answer? kind value { rules, queries := 0 }) Prod.snd
      Shelf.keeper where
  query hw _ _ := hw
  keep hw _ _ := hw
  answers hw kind value := by
    subst hw
    rfl
  shelf_query _ _ _ := rfl
  handle_keep _ _ _ := rfl
  shelf_keep _ _ _ := rfl

end Engine

end TrafficGate
