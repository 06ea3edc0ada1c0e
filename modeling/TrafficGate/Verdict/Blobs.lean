import TrafficGate.Text.Numeral
/-!
  # Where large bodies are kept

  A keeper takes a body and its type and gives a handle, unless it cannot.

  1. `Keeper`;
  2. `Shelf` -- a keeper in memory, with handles by number; equal bodies get handles of their own.

  Main fact: **`find?_keep`** (a kept body is found by its handle on a shelf without it).
-/

namespace TrafficGate.Verdict

/-! ## 1. Keepers -/

/-- A place for bodies in the world `W`; no handle when a body was not taken. -/
structure Keeper (W : Type) where
  keep : Bytes → Text → W → Option Text × W

/-! ## 2. Bodies in memory -/

/-- A body with its type. -/
structure Blob where
  mimeType : Text
  data : Bytes
  deriving DecidableEq, Repr

/-- Bodies in memory, the one of number 0 first. -/
structure Shelf where
  blobs : List Blob
  deriving DecidableEq, Repr

namespace Shelf

/-- No bodies. -/
def empty : Shelf := { blobs := [] }

/-- The handle of a number. -/
def handle (n : Nat) : Text := "mem-".toList ++ Numeral.decimal n

/-- Keeps a body under the next number. -/
def keep (data : Bytes) (mimeType : Text) (s : Shelf) : Text × Shelf :=
  (handle s.blobs.length, { blobs := s.blobs ++ [{ mimeType, data }] })

/-- The body of a handle, from a list whose first body has the number `n`. -/
def findFrom? (t : Text) (n : Nat) : List Blob → Option Blob
  | [] => none
  | b :: rest => if handle n = t then some b else findFrom? t (n + 1) rest

/-- The body of a handle. -/
def find? (t : Text) (s : Shelf) : Option Blob := findFrom? t 0 s.blobs

/-- The shelf as a keeper. It takes every body. -/
def keeper : Keeper Shelf where
  keep data mimeType s := (some (s.keep data mimeType).1, (s.keep data mimeType).2)

theorem findFrom?_append_self {b : Blob} {n : Nat} {blobs : List Blob}
    (h : findFrom? (handle (n + blobs.length)) n blobs = none) :
    findFrom? (handle (n + blobs.length)) n (blobs ++ [b]) = some b := by
  induction blobs generalizing n with
  | nil => simp [findFrom?]
  | cons x rest ih =>
    simp only [findFrom?, List.cons_append, List.length_cons] at h ⊢
    split at h
    · cases h
    · next hne =>
      rw [if_neg hne]
      have he : n + (rest.length + 1) = n + 1 + rest.length := by omega
      rw [he] at h ⊢
      exact ih h

/-- **A kept body is found by its handle**, if nothing else had that handle. -/
theorem find?_keep {data : Bytes} {mimeType : Text} {s : Shelf}
    (h : s.find? (s.keep data mimeType).1 = none) :
    (s.keep data mimeType).2.find? (s.keep data mimeType).1 = some { mimeType, data } := by
  have := @findFrom?_append_self { mimeType, data } 0 s.blobs
  rw [Nat.zero_add] at this
  exact this h

end Shelf

end TrafficGate.Verdict
