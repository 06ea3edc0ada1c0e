import TrafficGate.Digest.Sha256
/-!
  # The table of bodies

  Bodies named by their digest. A body that is there is not stored again, and keeps the type it was
  first stored with.

  Main facts: **`find?_put`** (a stored body is there) and **`put_of_find?`** (storing it again
  changes nothing).
-/

namespace TrafficGate.Store

/-- A body as it is stored. -/
structure StoredBlob where
  hash : Text
  mimeType : Text
  size : Int
  data : Bytes
  deriving DecidableEq, Repr

/-- The table of bodies. -/
structure Blobs where
  rows : List StoredBlob
  deriving DecidableEq, Repr

namespace Blobs

/-- A table without bodies. -/
def empty : Blobs := { rows := [] }

/-- The body of a digest. -/
def find? (hash : Text) (t : Blobs) : Option StoredBlob := t.rows.find? fun b => b.hash == hash

/-- The row of a body. -/
def row (data : Bytes) (mimeType : Text) : StoredBlob :=
  { hash := Sha256.hex data, mimeType, size := data.length, data }

/-- Stores a body and gives its digest. -/
def put (data : Bytes) (mimeType : Text) (t : Blobs) : Text × Blobs :=
  let b := row data mimeType
  match t.find? b.hash with
  | some _ => (b.hash, t)
  | none => (b.hash, { rows := t.rows ++ [b] })

/-- How many bodies there are. -/
def count (t : Blobs) : Nat := t.rows.length

/-- How many bytes all bodies have. -/
def total (t : Blobs) : Int := t.rows.foldl (fun n b => n + b.size) 0

/-- **Storing a body again changes nothing.** -/
theorem put_of_find? {data : Bytes} {mimeType : Text} {t : Blobs} {b : StoredBlob}
    (h : t.find? (Sha256.hex data) = some b) : (t.put data mimeType).2 = t := by
  simp [put, row, h]

/-- **A stored body is there.** -/
theorem find?_put (data : Bytes) (mimeType : Text) (t : Blobs) :
    ((t.put data mimeType).2.find? (Sha256.hex data)).isSome := by
  unfold put
  simp only [row]
  split
  · next h => simp [h]
  · simp [find?]

end Blobs

end TrafficGate.Store
