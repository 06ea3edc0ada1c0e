import TrafficGate.Rule.Cache
/-!
  # The entries of a cache

  What reading and writing do to each entry, wherever in the cache it lies. A key is read and written
  in one part; the other parts stay as they are, and in its own part the other entries move behind it.
  An entry goes only if it is too old when it is read, or if another is written into a full part.

  1. `held?` -- the entry of a key; `Expires` and `Evicts` -- the two ways in which one goes;
  2. tables and parts: what is found after reading and writing;
  3. caches: the same, for the parts together.

  Main facts: **`held?_get_self`**, **`held?_get_other`**, **`held?_insert_self`** and
  **`held?_insert_other`**.
-/

namespace TrafficGate

theorem Table.erase_erase {κ α : Type} [DecidableEq κ] (k : κ) (t : Table κ α) :
    erase k (erase k t) = erase k t := by
  simp [erase, List.filter_filter]

namespace Rule

variable {κ α : Type} [DecidableEq κ] {j k : κ}

/-! ## 1. Entries -/

namespace Cache

variable [Spread κ]

/-- The entry of a key, good or not. -/
def held? (k : κ) (c : Cache κ α) : Option (Cached α) := Table.find? k (c.part k)

/-- A key has an entry that is too old to be read now. -/
def Expires (now : Nat) (k : κ) (c : Cache κ α) : Prop :=
  ∃ e, c.held? k = some e ∧ Part.isFresh c.lifetime now e = false

/-- Writing a key drops an entry of another one: with them its part is full. -/
def Evicts (k : κ) (c : Cache κ α) : Prop := c.share ≤ (Table.erase k (c.part k)).length

instance (now : Nat) (k : κ) (c : Cache κ α) : Decidable (c.Expires now k) :=
  match h : c.held? k with
  | none => isFalse fun ⟨e, he, _⟩ => by rw [h] at he; cases he
  | some e =>
    decidable_of_iff (Part.isFresh c.lifetime now e = false)
      ⟨fun hf => ⟨e, h, hf⟩, fun ⟨e', he, hf⟩ => by rw [h] at he; cases he; exact hf⟩

instance (k : κ) (c : Cache κ α) : Decidable (c.Evicts k) :=
  inferInstanceAs (Decidable (c.share ≤ (Table.erase k (c.part k)).length))

end Cache

/-! ## 2. Parts -/

namespace Part

variable {p : Part κ α} {lifetime now share : Nat} {a : α}

theorem find?_putFirst_self :
    Table.find? k (putFirst now k a p) = some { value := a, lastUse := now } := by
  simp [putFirst, Table.find?]

theorem find?_putFirst_other (h : j ≠ k) :
    Table.find? j (putFirst now k a p) = Table.find? j p := by
  rw [putFirst, Table.find?, if_neg (Ne.symm h), Table.find?_erase_other h]

/-- After reading, a key has the entry that was read, used now. -/
theorem find?_get_self : Table.find? k (get lifetime now k p).2 =
    (get lifetime now k p).1.map fun a => { value := a, lastUse := now } := by
  unfold get
  cases h : Table.find? k p with
  | none => exact h
  | some e =>
    simp only
    split
    · exact find?_putFirst_self
    · exact Table.find?_erase_self k p

theorem find?_get_other (h : j ≠ k) :
    Table.find? j (get lifetime now k p).2 = Table.find? j p := by
  unfold get
  split
  · rfl
  · split
    · exact find?_putFirst_other h
    · exact Table.find?_erase_other h p

theorem find?_insert_self (h : 0 < share) :
    Table.find? k (insert share now k a p) = some { value := a, lastUse := now } := by
  obtain ⟨n, rfl⟩ : ∃ n, share = n + 1 := ⟨share - 1, by omega⟩
  simp [insert, putFirst, Table.find?]

/-- Writing where there is room leaves the others. -/
theorem find?_insert_other (h : j ≠ k) (hroom : (Table.erase k p).length < share) :
    Table.find? j (insert share now k a p) = Table.find? j p := by
  have hall : (putFirst now k a p).length ≤ share := by
    rw [putFirst, List.length_cons]
    omega
  rw [insert, List.take_of_length_le hall, find?_putFirst_other h]

/-- Reading a key does nothing to the others. -/
theorem erase_get : Table.erase k (get lifetime now k p).2 = Table.erase k p := by
  unfold get
  split
  · rfl
  · split
    · simp [putFirst, Table.erase, List.filter_filter]
    · exact Table.erase_erase k p

end Part

/-! ## 3. Caches -/

namespace Cache

/-- There are parts, and each has room for an entry. -/
structure Roomy (c : Cache κ α) : Prop where
  parts : c.parts ≠ []
  share : 0 < c.share

variable {c : Cache κ α} {now : Nat} {a : α}

omit [DecidableEq κ] in
theorem roomy_new? {limit lifetime : Nat} (h : new? limit lifetime = some c) : c.Roomy := by
  unfold new? at h
  split at h
  · cases h
    refine ⟨fun hnil => ?_, Nat.le_max_right _ 1⟩
    have hlen := congrArg List.length hnil
    simp only [List.length_replicate, List.length_nil, partCount, maxParts] at hlen
    omega
  · cases h

omit [DecidableEq κ] in
theorem Roomy.clear (h : c.Roomy) : c.clear.Roomy :=
  ⟨fun hnil => h.parts (List.map_eq_nil_iff.mp hnil), h.share⟩

variable [Spread κ]

omit [DecidableEq κ] in
theorem Roomy.setPart (h : c.Roomy) (k : κ) (p : Part κ α) : (c.setPart k p).Roomy :=
  ⟨fun hnil => h.parts (by simpa [Cache.setPart] using hnil), h.share⟩

theorem Roomy.get (h : c.Roomy) (now : Nat) (k : κ) : (c.get now k).2.Roomy := h.setPart k _

theorem Roomy.insert (h : c.Roomy) (now : Nat) (k : κ) (a : α) : (c.insert now k a).Roomy :=
  h.setPart k _

omit [DecidableEq κ] in
theorem place_setPart (j k : κ) (p : Part κ α) : (c.setPart k p).place j = c.place j := by
  simp only [place, Cache.setPart, List.length_set]

omit [DecidableEq κ] in
theorem part_setPart_other {p : Part κ α} (h : c.place j ≠ c.place k) :
    (c.setPart k p).part j = c.part j := by
  rw [part, place_setPart, part, Cache.setPart, List.getD_eq_getElem?_getD,
    List.getElem?_set_ne (Ne.symm h), List.getD_eq_getElem?_getD]

/-- A part in which a key is found as before leaves the key its entry. -/
theorem held?_setPart (h : c.Roomy) {p : Part κ α}
    (hp : Table.find? j p = Table.find? j (c.part k)) : (c.setPart k p).held? j = c.held? j := by
  by_cases he : c.place j = c.place k
  · have hpart : (c.setPart k p).part j = p := by
      have hself := part_setPart h.parts k p
      rw [part, place_setPart] at hself
      rw [part, place_setPart, he, hself]
    rw [held?, hpart, hp, held?, part, part, he]
  · rw [held?, part_setPart_other he, held?]

/-- **After reading, a key has the entry that was read, used now.** -/
theorem held?_get_self (h : c.Roomy) : (c.get now k).2.held? k =
    (c.get now k).1.map fun a => { value := a, lastUse := now } := by
  rw [held?, Cache.get, part_setPart h.parts]
  exact Part.find?_get_self

/-- **Reading leaves the entries of the other keys.** -/
theorem held?_get_other (h : c.Roomy) (hj : j ≠ k) : (c.get now k).2.held? j = c.held? j :=
  held?_setPart h (Part.find?_get_other hj)

/-- **After writing, a key has the entry that was written.** -/
theorem held?_insert_self (h : c.Roomy) :
    (c.insert now k a).held? k = some { value := a, lastUse := now } := by
  rw [held?, Cache.insert, part_setPart h.parts]
  exact Part.find?_insert_self h.share

/-- **Writing leaves the entries of the other keys** unless it drops one. -/
theorem held?_insert_other (h : c.Roomy) (hj : j ≠ k) (hroom : ¬ c.Evicts k) :
    (c.insert now k a).held? j = c.held? j :=
  held?_setPart h (Part.find?_insert_other hj (Nat.lt_of_not_le hroom))

theorem evicts_get_iff (h : c.Roomy) : (c.get now k).2.Evicts k ↔ c.Evicts k := by
  rw [Evicts, Cache.get, part_setPart h.parts, Part.erase_get]
  rfl

/-- A key with an entry that is not too old is read. -/
theorem get_of_held? {e : Cached α} (he : c.held? k = some e) (hfresh : ¬ c.Expires now k) :
    (c.get now k).1 = some e.value := by
  have hgood : Part.isFresh c.lifetime now e = true := by
    rw [← Bool.not_eq_false]
    exact fun hf => hfresh ⟨e, he, hf⟩
  rw [held?] at he
  simp only [Cache.get, Part.get, he, if_pos hgood]

end Cache

end Rule

end TrafficGate
