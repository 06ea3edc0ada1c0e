import Mathlib.Algebra.BigOperators.Group.Finset.Basic
import Mathlib.Data.Set.Function
import TrafficGate.Proofs.DigestNames
import TrafficGate.Proofs.FailedRequests
import TrafficGate.Proofs.NamedUrls
/-!
  # Bodies that were stored

  A body that is stored is kept once, under the name it was given, with the type it first came with.
  This is so behind any requests, whichever bodies come again, as long as no two of them have one
  digest.

  1. `Deposit` -- a body, and the name it was stored under;
  2. `Holds` -- tables of deposits, and one more deposit;
  3. requests: only the storing of a body changes the table;
  4. any requests, one after the other;
  5. reading: bodies, their number and their lengths.

  Main facts: **`perform_blobs`**, **`holds_performAll`** and **`bodies_kept`**.
-/

namespace TrafficGate.Store

/-! ## 1. Deposits -/

/-- A body that was stored, with its type and the name that it was given. -/
structure Deposit where
  data : Bytes
  mimeType : Text
  handle : Text
  deriving DecidableEq, Repr

/-- The different bodies of deposits. -/
def bodies (xs : List Deposit) : Finset Bytes := (xs.map Deposit.data).toFinset

/-- The first deposit of a body. -/
def firstOf? (data : Bytes) (xs : List Deposit) : Option Deposit := xs.find? fun x => x.data = data

section Deposits

variable {xs ys : List Deposit} {x : Deposit} {data : Bytes}

theorem mem_bodies_iff : data ∈ bodies xs ↔ ∃ x ∈ xs, x.data = data := by
  rw [bodies, List.mem_toFinset, List.mem_map]

theorem mem_bodies (h : x ∈ xs) : x.data ∈ bodies xs := mem_bodies_iff.mpr ⟨x, h, rfl⟩

theorem bodies_append (xs ys : List Deposit) : bodies (xs ++ ys) = bodies xs ∪ bodies ys := by
  rw [bodies, List.map_append, List.toFinset_append, bodies, bodies]

theorem firstOf?_eq_none_iff : firstOf? data xs = none ↔ data ∉ bodies xs := by
  rw [firstOf?, List.find?_eq_none, mem_bodies_iff]
  simp

/-- A first deposit stays the first. -/
theorem firstOf?_append (h : firstOf? data xs = some x) (ys : List Deposit) :
    firstOf? data (xs ++ ys) = some x := by
  rw [firstOf?, List.find?_append, ← firstOf?, h]
  rfl

theorem firstOf?_new (h : x.data ∉ bodies xs) : firstOf? x.data (xs ++ [x]) = some x := by
  rw [firstOf?, List.find?_append, ← firstOf?, firstOf?_eq_none_iff.mpr h]
  simp

end Deposits

/-! ## 2. Tables of deposits -/

namespace Blobs

/-- The name of a body is its digest. -/
theorem fst_put (data : Bytes) (mimeType : Text) (t : Blobs) :
    (t.put data mimeType).1 = Sha256.hex data := by
  simp only [put]
  split <;> rfl

/-- The table has one row for each body of the deposits, with the type of the first of them. -/
structure Holds (xs : List Deposit) (t : Blobs) : Prop where
  once : (t.rows.map StoredBlob.data).Nodup
  bodies : (t.rows.map StoredBlob.data).toFinset = bodies xs
  row : ∀ b ∈ t.rows, ∃ first, firstOf? b.data xs = some first ∧ b = row b.data first.mimeType

theorem holds_empty : empty.Holds [] := ⟨.nil, rfl, nofun⟩

/-- The bytes of rows of different bodies, if each has the size of its body. -/
theorem foldl_size {rows : List StoredBlob} (hsize : ∀ b ∈ rows, b.size = b.data.length)
    (honce : (rows.map StoredBlob.data).Nodup) (n : Int) :
    rows.foldl (fun n b => n + b.size) n =
      n + ((∑ data ∈ (rows.map StoredBlob.data).toFinset, data.length : Nat) : Int) := by
  induction rows generalizing n with
  | nil => exact (Int.add_zero n).symm
  | cons b rows ih =>
    obtain ⟨hb, hrest⟩ := List.forall_mem_cons.mp hsize
    obtain ⟨hnew, honce⟩ := List.nodup_cons.mp honce
    have hnew : b.data ∉ (rows.map StoredBlob.data).toFinset := mt List.mem_toFinset.mp hnew
    rw [List.foldl_cons, ih hrest honce, hb, List.map_cons, List.toFinset_cons,
      Finset.sum_insert hnew]
    omega

namespace Holds

variable {xs : List Deposit} {t : Blobs} {x : Deposit}

theorem hash_eq (h : t.Holds xs) {b : StoredBlob} (hb : b ∈ t.rows) :
    b.hash = Sha256.hex b.data := by
  obtain ⟨first, -, hrow⟩ := h.row b hb
  rw [hrow]
  rfl

theorem mem_bodies (h : t.Holds xs) {b : StoredBlob} (hb : b ∈ t.rows) : b.data ∈ Store.bodies xs := by
  rw [← h.bodies, List.mem_toFinset]
  exact List.mem_map_of_mem hb

/-- What has no row under its name was never stored. -/
theorem not_mem_of_find? (h : t.Holds xs) {data : Bytes} (hnone : t.find? (Sha256.hex data) = none) :
    data ∉ Store.bodies xs := by
  intro hdata
  rw [← h.bodies, List.mem_toFinset] at hdata
  obtain ⟨b, hb, rfl⟩ := List.mem_map.mp hdata
  have hother := List.find?_eq_none.mp hnone b hb
  rw [h.hash_eq hb, beq_self_eq_true] at hother
  exact hother rfl

/-- What has a row under its name has the digest of a row. -/
theorem digest_of_find? (h : t.Holds xs) {data : Bytes} {b : StoredBlob}
    (hfind : t.find? (Sha256.hex data) = some b) :
    b ∈ t.rows ∧ Sha256.digest b.data = Sha256.digest data := by
  have hb : b ∈ t.rows := List.mem_of_find?_eq_some hfind
  have hname := List.find?_some hfind
  rw [beq_iff_eq, h.hash_eq hb] at hname
  exact ⟨hb, Sha256.digest_of_hex hname⟩

/-- **A body is found under its name**, where no two bodies have one digest. -/
theorem find?_hex (h : t.Holds xs) (hinj : Set.InjOn Sha256.digest (Store.bodies xs)) {data : Bytes}
    (hdata : data ∈ Store.bodies xs) :
    ∃ first, firstOf? data xs = some first ∧
      t.find? (Sha256.hex data) = some (Blobs.row data first.mimeType) := by
  cases hfind : t.find? (Sha256.hex data) with
  | none => exact absurd hdata (h.not_mem_of_find? hfind)
  | some b =>
    obtain ⟨hb, hdigest⟩ := h.digest_of_find? hfind
    have hsame : b.data = data := hinj (h.mem_bodies hb) hdata hdigest
    obtain ⟨first, hfirst, hrow⟩ := h.row b hb
    rw [hsame] at hfirst hrow
    exact ⟨first, hfirst, congrArg some hrow⟩

/-- **One more deposit**: a body that is there stays as it is, another one gets a row. -/
theorem put (h : t.Holds xs) (hinj : Set.InjOn Sha256.digest (Store.bodies (xs ++ [x]))) :
    (t.put x.data x.mimeType).2.Holds (xs ++ [x]) := by
  have hlast : x.data ∈ Store.bodies (xs ++ [x]) :=
    Store.mem_bodies (List.mem_append_right _ (List.mem_singleton_self x))
  have hmore : Store.bodies (xs ++ [x]) = Store.bodies xs ∪ {x.data} := bodies_append xs [x]
  have hrow : ∀ b ∈ t.rows, ∃ first, firstOf? b.data (xs ++ [x]) = some first ∧
      b = Blobs.row b.data first.mimeType := by
    intro b hb
    obtain ⟨first, hfirst, hb⟩ := h.row b hb
    exact ⟨first, firstOf?_append hfirst _, hb⟩
  unfold Blobs.put
  cases hfind : t.find? (Sha256.hex x.data) with
  | some b =>
    obtain ⟨hb, hdigest⟩ := h.digest_of_find? hfind
    have hold := h.mem_bodies hb
    have hsame : b.data = x.data :=
      hinj (by rw [hmore]; exact Finset.mem_union_left _ hold) hlast hdigest
    have hbodies : Store.bodies (xs ++ [x]) = Store.bodies xs := by
      rw [hmore, Finset.union_eq_left, Finset.singleton_subset_iff, ← hsame]
      exact hold
    simp only [Blobs.row, hfind]
    exact ⟨h.once, h.bodies.trans hbodies.symm, hrow⟩
  | none =>
    have hnew := h.not_mem_of_find? hfind
    have hfresh : x.data ∉ t.rows.map StoredBlob.data := by
      rwa [← List.mem_toFinset, h.bodies]
    simp only [Blobs.row, hfind]
    refine ⟨?_, ?_, fun b hb => ?_⟩
    · rw [List.map_append]
      exact List.Nodup.append h.once (List.nodup_singleton _) (by simpa using hfresh)
    · rw [List.map_append, List.toFinset_append, h.bodies, hmore]
      rfl
    · rcases List.mem_append.mp hb with hb | hb
      · exact hrow b hb
      · obtain rfl := List.mem_singleton.mp hb
        exact ⟨x, firstOf?_new hnew, rfl⟩

/-- There are as many rows as different bodies. -/
theorem count_eq (h : t.Holds xs) : t.count = (Store.bodies xs).card := by
  rw [← h.bodies, List.toFinset_card_of_nodup h.once, List.length_map, Blobs.count]

theorem size_eq (h : t.Holds xs) {b : StoredBlob} (hb : b ∈ t.rows) : b.size = b.data.length := by
  obtain ⟨first, -, hrow⟩ := h.row b hb
  rw [hrow]
  rfl

/-- **The rows have as many bytes as the different bodies.** -/
theorem total_eq (h : t.Holds xs) :
    t.total = ((∑ data ∈ Store.bodies xs, data.length : Nat) : Int) := by
  rw [Blobs.total, foldl_size (fun b hb => h.size_eq hb) h.once, Int.zero_add, h.bodies]

end Holds

end Blobs

/-! ## 3. Requests -/

namespace Database

section Write

variable {α : Type} {f : Tables → Except Fault α × Tables} {d : Database}

theorem blobs_write (hf : ∀ t, (f t).2.blobs = t.blobs) :
    (d.write f).2.tables.blobs = d.tables.blobs := by
  rcases write_cases f d with ⟨-, hsame⟩ | hwrite
  · rw [hsame]
  · rw [hwrite]
    exact hf d.tables

/-- Writing leaves the connections as they are. -/
theorem connections_write (f : Tables → Except Fault α × Tables) (d : Database) :
    (d.write f).2.reader = d.reader ∧ (d.write f).2.writer = d.writer := by
  rcases write_cases f d with ⟨-, hsame⟩ | hwrite
  · rw [hsame]
    exact ⟨rfl, rfl⟩
  · rw [hwrite]
    exact ⟨rfl, rfl⟩

theorem blobs_onLog {f : Log → α × Log} (t : Tables) : (onLog f t).2.blobs = t.blobs := by
  unfold onLog
  split <;> rfl

/-- Pruning does nothing, or breaks off, or writes to the log. -/
theorem snd_prune (days : Int) (now : Time.Timestamp) (d : Database) :
    (d.prune days now).2 = d ∨
      ((d.prune days now).1 = .crashed ∧ (d.prune days now).2 = { d with writer := .poisoned }) ∨
        ∃ cutoff, (d.prune days now).2 = (d.write (onLog fun l => l.prune cutoff)).2 := by
  unfold prune
  split
  · exact .inl rfl
  · split
    · exact .inr (.inl ⟨rfl, rfl⟩)
    · next cutoff _ => exact .inr (.inr ⟨cutoff.micros, rfl⟩)

end Write

namespace Request

variable {now : Time.Timestamp} {r : Request} {d : Database}

/-- What a request stored: a body, if it was to store one and was answered with a name. -/
def deposit? : Request → Result → Option Deposit
  | putBlob data mimeType, .done (.ok (.hash handle)) => some { data, mimeType, handle }
  | _, _ => none

theorem snd_perform_prune (days : Int) (now : Time.Timestamp) (d : Database) :
    ((prune days).perform now d).2 = (d.prune days now).2 := by
  simp only [perform]
  split <;> next hprune => rw [hprune]

theorem perform_prune_crashed {days : Int} (h : (d.prune days now).1 = .crashed) :
    ((prune days).perform now d).1 = .crashed := by
  simp only [perform]
  split
  · next hprune =>
    rw [hprune] at h
    cases h
  · rfl

/-- **What a request does to the table of bodies**: it stores the body that it was made to store, or
    nothing. -/
theorem perform_blobs (now : Time.Timestamp) (r : Request) (d : Database) :
    (deposit? r (r.perform now d).1 = none ∧ (r.perform now d).2.tables.blobs = d.tables.blobs) ∨
      ∃ x, deposit? r (r.perform now d).1 = some x ∧ x.handle = Sha256.hex x.data ∧
        (r.perform now d).2.tables.blobs = (d.tables.blobs.put x.data x.mimeType).2 := by
  cases r with
  | getRule | listRules | findMatch | getBlob | recent | counts => exact .inl ⟨rfl, rfl⟩
  | addRule | setRuleEnabled | removeRule => exact .inl ⟨rfl, blobs_write fun _ => rfl⟩
  | putBlob data mimeType =>
    simp only [perform, writing, Database.putBlob]
    rcases write_cases (fun t => (Except.ok (t.blobs.put data mimeType).1,
      { t with blobs := (t.blobs.put data mimeType).2 })) d with ⟨⟨fault, hfault⟩, hsame⟩ | hwrite
    · rw [hfault, hsame]
      exact .inl ⟨rfl, rfl⟩
    · rw [hwrite]
      exact .inr ⟨_, rfl, Blobs.fst_put _ _ _, rfl⟩
  | record e =>
    refine .inl ⟨rfl, ?_⟩
    simp only [perform, writing, Database.record]
    split
    · next hall =>
      refine blobs_write fun t => ?_
      rw [if_pos hall]
      exact blobs_onLog t
    · rfl
  | prune days =>
    refine .inl ⟨rfl, ?_⟩
    rw [snd_perform_prune]
    rcases d.snd_prune days now with hsame | ⟨-, hcrashed⟩ | ⟨cutoff, hwrite⟩
    · rw [hsame]
    · rw [hcrashed]
    · rw [hwrite]
      exact blobs_write blobs_onLog

/-- **A request that does not break off leaves the connections as they are.** -/
theorem perform_connections (h : (r.perform now d).1 ≠ .crashed) :
    (r.perform now d).2.reader = d.reader ∧ (r.perform now d).2.writer = d.writer := by
  cases r with
  | getRule | listRules | findMatch | getBlob | recent | counts => exact ⟨rfl, rfl⟩
  | addRule | setRuleEnabled | removeRule | putBlob => exact connections_write _ d
  | record e =>
    simp only [perform, writing, Database.record]
    split
    · exact connections_write _ d
    · exact ⟨rfl, rfl⟩
  | prune days =>
    rw [snd_perform_prune]
    rcases d.snd_prune days now with hsame | ⟨hcrashed, -⟩ | ⟨cutoff, hwrite⟩
    · rw [hsame]
      exact ⟨rfl, rfl⟩
    · exact absurd (perform_prune_crashed hcrashed) h
    · rw [hwrite]
      exact connections_write _ d

/-- A body is stored through a connection that can be used for anything. -/
theorem perform_putBlob (hw : d.writer = .anything) (data : Bytes) (mimeType : Text) :
    ((putBlob data mimeType).perform now d).1 = .done (.ok (.hash (Sha256.hex data))) := by
  simp only [perform, writing, Database.putBlob, write, hw]
  rw [Blobs.fst_put]
  rfl

/-! ## 4. Requests one after the other -/

/-- The bodies that requests stored, in their order. -/
def deposits (history : List (Time.Timestamp × Request)) (d : Database) : List Deposit :=
  (history.zip (performAll history d).1).filterMap fun p => deposit? p.1.2 p.2

/-- The body that a request is to store, with its type. -/
def body? : Request → Option (Bytes × Text)
  | putBlob data mimeType => some (data, mimeType)
  | _ => none

section History

variable {history : List (Time.Timestamp × Request)} {xs : List Deposit}

theorem deposits_cons (now : Time.Timestamp) (r : Request)
    (history : List (Time.Timestamp × Request)) (d : Database) :
    deposits ((now, r) :: history) d =
      (deposit? r (r.perform now d).1).toList ++ deposits history (r.perform now d).2 := by
  simp only [deposits, performAll, List.zip_cons_cons, List.filterMap_cons]
  cases deposit? r (r.perform now d).1 <;> rfl

/-- **A deposit is named by its digest.** -/
theorem handle_of_mem_deposits {x : Deposit} (hx : x ∈ deposits history d) :
    x.handle = Sha256.hex x.data := by
  induction history generalizing d with
  | nil => cases hx
  | cons q history ih =>
    obtain ⟨now, r⟩ := q
    rw [deposits_cons] at hx
    rcases List.mem_append.mp hx with hnow | hlater
    · rcases perform_blobs now r d with ⟨hnone, -⟩ | ⟨y, hy, hname, -⟩
      · rw [hnone] at hnow
        cases hnow
      · rw [hy] at hnow
        obtain rfl := List.mem_singleton.mp hnow
        exact hname
    · exact ih hlater

/-- **The table holds what was stored**, behind any requests. -/
theorem holds_performAll (h : d.tables.blobs.Holds xs)
    (hinj : Set.InjOn Sha256.digest (bodies (xs ++ deposits history d))) :
    (performAll history d).2.tables.blobs.Holds (xs ++ deposits history d) := by
  induction history generalizing d xs with
  | nil => rwa [deposits, List.zip_nil_left, List.filterMap_nil, List.append_nil]
  | cons q history ih =>
    obtain ⟨now, r⟩ := q
    rw [deposits_cons] at hinj ⊢
    simp only [performAll]
    rcases perform_blobs now r d with ⟨hnone, hsame⟩ | ⟨x, hx, -, hput⟩
    · rw [hnone] at hinj ⊢
      exact ih (hsame ▸ h) hinj
    · rw [hx, Option.toList_some, ← List.append_assoc] at hinj ⊢
      have hfront : Set.InjOn Sha256.digest (bodies (xs ++ [x])) := by
        refine hinj.mono ?_
        rw [bodies_append _ (deposits history _), Finset.coe_union]
        exact Set.subset_union_left
      exact ih (hput ▸ h.put hfront) hinj

/-- **As long as no request breaks off, every body is stored**, and the connections stay as they
    are. -/
theorem deposits_of_anything (hw : d.writer = .anything)
    (hdone : ∀ result ∈ (performAll history d).1, result ≠ .crashed) :
    (deposits history d).map (fun x => (x.data, x.mimeType)) =
        history.filterMap (fun q => body? q.2) ∧
      (performAll history d).2.reader = d.reader ∧
        (performAll history d).2.writer = .anything := by
  induction history generalizing d with
  | nil => exact ⟨rfl, rfl, hw⟩
  | cons q history ih =>
    obtain ⟨now, r⟩ := q
    rw [deposits_cons]
    simp only [performAll] at hdone ⊢
    obtain ⟨hfirst, hrest⟩ := List.forall_mem_cons.mp hdone
    obtain ⟨hreader, hwriter⟩ := perform_connections hfirst
    obtain ⟨hstored, hreader', hwriter'⟩ := ih (hwriter.trans hw) hrest
    refine ⟨?_, hreader'.trans hreader, hwriter'⟩
    rw [List.map_append, hstored, List.filterMap_cons]
    cases r with
    | putBlob data mimeType =>
      rw [perform_putBlob hw]
      rfl
    | _ => rfl

end History

end Request

/-! ## 5. Reading -/

/-- The store gives every body back as it was stored first, and has no others. -/
structure Keeps (xs : List Deposit) (d : Database) : Prop where
  body : ∀ x ∈ xs, ∃ first, firstOf? x.data xs = some first ∧
    d.getBlob x.handle = .ok (some
      { hash := x.handle, mimeType := first.mimeType, size := x.data.length, data := x.data })
  count : d.countBlobs = .ok (bodies xs).card
  total : d.totalBlobs = .ok ((∑ data ∈ bodies xs, data.length : Nat) : Int)

open Request in
/-- **Bodies are kept under their digests.** Behind any requests to a store without bodies, as long as
    no two of the bodies that were stored have one digest: two of them have one name exactly if they
    are equal; a store that answers gives each one back with its length and the type that it was first
    stored with, and has as many bodies and bytes as there are different ones. A store that is
    written through a connection for anything, no request having broken off, has stored every body
    that it was to store, and answers unless it is read through a connection that sees no tables. -/
theorem bodies_kept {d : Database} (hempty : d.tables.blobs = Blobs.empty)
    (history : List (Time.Timestamp × Request))
    (hinj : Set.InjOn Sha256.digest (bodies (deposits history d))) :
    (∀ x ∈ deposits history d, ∀ y ∈ deposits history d, x.handle = y.handle ↔ x.data = y.data) ∧
    ((performAll history d).2.Readable →
      (performAll history d).2.Keeps (deposits history d)) ∧
    (d.writer = .anything → (∀ result ∈ (performAll history d).1, result ≠ .crashed) →
      (deposits history d).map (fun x => (x.data, x.mimeType)) =
          history.filterMap (fun q => body? q.2) ∧
        (d.reader ≠ .blind → (performAll history d).2.Readable)) := by
  refine ⟨fun x hx y hy => ?_, fun hreadable => ?_, fun hw hdone => ?_⟩
  · rw [handle_of_mem_deposits hx, handle_of_mem_deposits hy]
    constructor
    · exact fun hname => hinj (mem_bodies hx) (mem_bodies hy) (Sha256.digest_of_hex hname)
    · exact fun hdata => congrArg Sha256.hex hdata
  · have hnone : d.tables.blobs.Holds [] := hempty ▸ Blobs.holds_empty
    have hholds : (performAll history d).2.tables.blobs.Holds (deposits history d) :=
      holds_performAll hnone hinj
    refine ⟨fun x hx => ?_, ?_, ?_⟩
    · obtain ⟨first, hfirst, hfind⟩ := hholds.find?_hex hinj (mem_bodies hx)
      refine ⟨first, hfirst, ?_⟩
      rw [getBlob, read_of_readable hreadable, handle_of_mem_deposits hx, hfind]
      rfl
    · rw [countBlobs, read_of_readable hreadable, hholds.count_eq]
    · rw [totalBlobs, read_of_readable hreadable, hholds.total_eq]
  · obtain ⟨hstored, hreader, hwriter⟩ := deposits_of_anything hw hdone
    exact ⟨hstored, fun hblind => readable_of_anything hwriter (hreader ▸ hblind)⟩

/-- A page that is stored twice, as different types, with an empty body and other requests in
    between. -/
def pageTwice : List (Time.Timestamp × Request) :=
  let now : Time.Timestamp := ⟨1700000000, 0⟩
  let page := Utf8.encode "<html></html>".toList
  [(now, .putBlob page "text/html".toList), (now, .prune 1), (now, .putBlob [] "text/plain".toList),
    (now, .counts), (now, .putBlob page "application/octet-stream".toList)]

open Request in
/-- The page is kept once, as the type that it came with first. -/
theorem bodies_kept_pageTwice :
    let page := Utf8.encode "<html></html>".toList
    inMemory.tables.blobs = Blobs.empty ∧
      Set.InjOn Sha256.digest (bodies (deposits pageTwice inMemory)) ∧
      (deposits pageTwice inMemory).length = 3 ∧
      (performAll pageTwice inMemory).2.getBlob (Sha256.hex page) = .ok (some
        { hash := Sha256.hex page, mimeType := "text/html".toList, size := 13, data := page }) ∧
      (performAll pageTwice inMemory).2.countBlobs = .ok 2 ∧
      (performAll pageTwice inMemory).2.totalBlobs = .ok 13 := by
  intro page
  have hpairs : ∀ a ∈ bodies (deposits pageTwice inMemory),
      ∀ b ∈ bodies (deposits pageTwice inMemory), Sha256.digest a = Sha256.digest b → a = b := by
    decide +kernel
  have hinj : Set.InjOn Sha256.digest (bodies (deposits pageTwice inMemory)) :=
    fun a ha b hb => hpairs a ha b hb
  have hdone : ∀ result ∈ (performAll pageTwice inMemory).1, result ≠ .crashed := by
    decide +kernel
  obtain ⟨-, hkeeps, hworks⟩ := bodies_kept rfl pageTwice hinj
  obtain ⟨hstored, hreadable⟩ := hworks rfl hdone
  have hkept := hkeeps (hreadable nofun)
  have hfirst : firstOf? page (deposits pageTwice inMemory) =
      some ⟨page, "text/html".toList, Sha256.hex page⟩ := by decide +kernel
  have hpage : ⟨page, "text/html".toList, Sha256.hex page⟩ ∈ deposits pageTwice inMemory :=
    List.mem_of_find?_eq_some hfirst
  refine ⟨rfl, hinj, ?_, ?_, ?_, ?_⟩
  · have hlength := congrArg List.length hstored
    rwa [List.length_map] at hlength
  · obtain ⟨first, hsame, hget⟩ := hkept.body _ hpage
    obtain rfl := Option.some.inj (hfirst.symm.trans hsame)
    exact hget
  · rw [hkept.count]
    decide +kernel
  · rw [hkept.total]
    decide +kernel

end Database

end TrafficGate.Store
