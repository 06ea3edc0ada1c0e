import TrafficGate.Digest.SipHash
import TrafficGate.Table
import TrafficGate.Text.Utf8
/-!
  # A cache of answers

  Entries that were not read for some time count as gone. The entries are spread over parts by a
  digest of their keys, and each part has room for an equal share of them: when it is full, the
  entry that was used longest ago is dropped.

  1. keys and entries;
  2. one part: entries with the time of their last use, the last used first;
  3. the cache: as many parts as it may have entries, sixteen at most;
  4. reading refreshes an entry, or drops it when it is too old; writing puts an entry in front.

  Main facts: **`get_insert`** (what was just written is read), **`Bounded.insert`** and
  **`size_le_of_bounded`** (a cache keeps to its limit).
-/

namespace TrafficGate.Rule

/-! ## 1. Keys and entries -/

/-- Keys that are spread by a digest of bytes. -/
class Spread (κ : Type) where
  bytes : κ → Bytes

/-- The bytes of a text, and one that no text has. -/
def endedBytes (t : Text) : Bytes := Utf8.encode t ++ [0xff]

instance : Spread Text := ⟨endedBytes⟩

/-- An entry: its value and when it was last used. -/
structure Cached (α : Type) where
  value : α
  lastUse : Nat
  deriving DecidableEq, Repr

variable {κ α : Type}

/-! ## 2. Parts -/

/-- A part of a cache. -/
abbrev Part (κ α : Type) := Table κ (Cached α)

namespace Part

variable [DecidableEq κ]

/-- Whether an entry is still good. -/
def isFresh (lifetime now : Nat) (e : Cached α) : Bool := decide (now - e.lastUse < lifetime)

/-- The entries with one in front that was used now. -/
def putFirst (now : Nat) (k : κ) (a : α) (p : Part κ α) : Part κ α :=
  (k, { value := a, lastUse := now }) :: Table.erase k p

/-- Reads the value of a key. -/
def get (lifetime now : Nat) (k : κ) (p : Part κ α) : Option α × Part κ α :=
  match Table.find? k p with
  | none => (none, p)
  | some e =>
    if isFresh lifetime now e then (some e.value, putFirst now k e.value p)
    else (none, Table.erase k p)

/-- Writes the value of a key. -/
def insert (share now : Nat) (k : κ) (a : α) (p : Part κ α) : Part κ α :=
  (putFirst now k a p).take share

theorem length_erase_lt {k : κ} {p : Part κ α} {e : Cached α} (h : Table.find? k p = some e) :
    (Table.erase k p).length < p.length := by
  induction p with
  | nil => cases h
  | cons row rows ih =>
    obtain ⟨k', e'⟩ := row
    have hle : (Table.erase k rows).length ≤ rows.length := List.length_filter_le ..
    by_cases hk : k' = k
    · have he : Table.erase k ((k', e') :: rows) = Table.erase k rows := by simp [Table.erase, hk]
      rw [he]
      exact Nat.lt_succ_of_le hle
    · have he : Table.erase k ((k', e') :: rows) = (k', e') :: Table.erase k rows := by
        simp [Table.erase, hk]
      simp only [Table.find?, hk, if_false] at h
      rw [he]
      exact Nat.succ_lt_succ (ih h)

/-- Reading makes a part no larger. -/
theorem length_get_le (lifetime now : Nat) (k : κ) (p : Part κ α) :
    (get lifetime now k p).2.length ≤ p.length := by
  unfold get
  split
  · exact Nat.le_refl _
  · next e he =>
    have := length_erase_lt he
    split
    · simp only [putFirst, List.length_cons]
      omega
    · exact Nat.le_of_lt this

/-- A part keeps to its share. -/
theorem length_insert_le (share now : Nat) (k : κ) (a : α) (p : Part κ α) :
    (insert share now k a p).length ≤ share := by
  simp only [insert, List.length_take]
  exact Nat.min_le_left ..

/-- What was just written to a part is read. -/
theorem get_insert {share lifetime : Nat} (hs : 0 < share) (hl : 0 < lifetime) (now : Nat) (k : κ)
    (a : α) (p : Part κ α) : (get lifetime now k (insert share now k a p)).1 = some a := by
  obtain ⟨n, rfl⟩ : ∃ n, share = n + 1 := ⟨share - 1, by omega⟩
  simp [get, insert, putFirst, Table.find?, isFresh, hl]

end Part

/-! ## 3. Caches -/

/-- A cache with a limit on its entries and on the time for which one may lie unused. -/
structure Cache (κ α : Type) where
  /-- How many entries a part has room for. -/
  share : Nat
  lifetime : Nat
  parts : List (Part κ α)
  deriving Repr

namespace Cache

/-- A cache has this many parts at most. -/
def maxParts : Nat := 16

/-- The largest limit for which room can be made. -/
def maxLimit : Nat := 7 * Nat.pow 2 59

/-- How many parts a cache has. A limit of zero counts as one. -/
def partCount (limit : Nat) : Nat := min maxParts (max limit 1)

/-- A cache without entries; none when there is no room for as many as it may have. -/
def new? (limit lifetime : Nat) : Option (Cache κ α) :=
  if limit ≤ maxLimit then
    some { share := max ((limit + partCount limit - 1) / partCount limit) 1, lifetime,
           parts := List.replicate (partCount limit) [] }
  else none

/-- **No room is made beyond the largest limit.** -/
theorem new?_eq_none_iff {limit lifetime : Nat} :
    (new? limit lifetime : Option (Cache κ α)) = none ↔ maxLimit < limit := by
  unfold new?
  split <;> simp <;> omega

/-- How many entries there are, good or not. -/
def size (c : Cache κ α) : Nat := Seq.total (c.parts.map List.length)

/-- Drops every entry. -/
def clear (c : Cache κ α) : Cache κ α := { c with parts := c.parts.map fun _ => [] }

/-- Every part keeps to its share. -/
def Bounded (c : Cache κ α) : Prop := ∀ p ∈ c.parts, p.length ≤ c.share

/-- **A cache that keeps to its shares keeps to their sum.** -/
theorem size_le_of_bounded {c : Cache κ α} (h : c.Bounded) :
    c.size ≤ c.parts.length * c.share := by
  unfold size
  unfold Bounded at h
  generalize c.parts = parts at h
  induction parts with
  | nil => simp
  | cons p parts ih =>
    have := h p List.mem_cons_self
    have := ih fun q hq => h q (List.mem_cons_of_mem _ hq)
    simp only [List.map_cons, Seq.total_cons, List.length_cons, Nat.add_mul]
    omega

/-! ## 4. Reading and writing -/

variable [Spread κ]

/-- The number of the part in which a key belongs. -/
def place (k : κ) (c : Cache κ α) : Nat := SipHash.place c.parts.length (Spread.bytes k)

/-- The part in which a key belongs. -/
def part (k : κ) (c : Cache κ α) : Part κ α := c.parts.getD (c.place k) []

/-- The cache with the part in which a key belongs replaced. -/
def setPart (k : κ) (p : Part κ α) (c : Cache κ α) : Cache κ α :=
  { c with parts := c.parts.set (c.place k) p }

theorem part_setPart {c : Cache κ α} (h : c.parts ≠ []) (k : κ) (p : Part κ α) :
    (c.setPart k p).part k = p := by
  have hlt : c.place k < c.parts.length := SipHash.place_lt (List.length_pos_iff.mpr h) _
  simp only [part, setPart, place, List.length_set] at *
  simp [List.getD_eq_getElem?_getD, hlt]

theorem bounded_setPart {c : Cache κ α} {k : κ} {p : Part κ α} (h : c.Bounded)
    (hp : p.length ≤ c.share) : (c.setPart k p).Bounded := by
  intro q hq
  rcases List.mem_or_eq_of_mem_set hq with hq | rfl
  · exact h q hq
  · exact hp

variable [DecidableEq κ]

/-- Reads the value of a key. -/
def get (now : Nat) (k : κ) (c : Cache κ α) : Option α × Cache κ α :=
  match (c.part k).get c.lifetime now k with
  | (a, p) => (a, c.setPart k p)

/-- Writes the value of a key. -/
def insert (now : Nat) (k : κ) (a : α) (c : Cache κ α) : Cache κ α :=
  c.setPart k ((c.part k).insert c.share now k a)

/-- **What was just written is read**, if entries live at all. -/
theorem get_insert {now : Nat} {k : κ} {a : α} {c : Cache κ α} (hp : c.parts ≠ [])
    (hs : 0 < c.share) (hl : 0 < c.lifetime) : ((c.insert now k a).get now k).1 = some a := by
  simp only [get, insert, part_setPart hp]
  exact Part.get_insert hs hl now k a _

/-- **Writing keeps to the shares.** -/
theorem Bounded.insert {c : Cache κ α} (h : c.Bounded) (now : Nat) (k : κ) (a : α) :
    (c.insert now k a).Bounded := bounded_setPart h (Part.length_insert_le ..)

/-- **Reading keeps to the shares.** -/
theorem Bounded.get {c : Cache κ α} (h : c.Bounded) (now : Nat) (k : κ) :
    (c.get now k).2.Bounded := by
  refine bounded_setPart h (Nat.le_trans (Part.length_get_le ..) ?_)
  unfold part
  by_cases hp : c.place k < c.parts.length
  · rw [List.getD_eq_getElem?_getD, List.getElem?_eq_getElem hp]
    exact h _ (List.getElem_mem hp)
  · rw [List.getD_eq_getElem?_getD, List.getElem?_eq_none (Nat.le_of_not_lt hp)]
    exact Nat.zero_le _

end Cache

end TrafficGate.Rule
