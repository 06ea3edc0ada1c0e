import TrafficGate.Store.Rules
import TrafficGate.Verdict.Event
/-!
  # The log of verdicts

  One row for each published verdict: the copy on the channel of all verdicts is logged, the other
  is not.

  1. rows, and entries as they are read from them;
  2. `record` -- logging an event;
  3. `recent` -- the newest entries, by the text of their time and then by number;
  4. counting and pruning.

  Main facts: **`record_other`** (a copy on another channel is not logged) and
  **`length_prune`** (what is pruned and what is left are all rows).
-/

namespace TrafficGate.Store

open Verdict

/-! ## 1. Rows -/

/-- A verdict as it is stored. -/
structure LogRow where
  id : Int
  transport : Text
  classification : Text
  method : Text
  url : Text
  canonical : Text
  status : Option Int
  ruleKind : Option Text
  ruleValue : Option Text
  dnsHost : Option Text
  requestBlob : Option Text
  responseBlob : Option Text
  createdAt : Text
  deriving DecidableEq, Repr

/-- A verdict as it is read. -/
structure LogEntry where
  id : Int
  transport : Transport
  classification : Classification
  method : Text
  url : Text
  canonical : Text
  status : Option Nat
  rule : Option Rule
  dnsHost : Option Text
  requestBlob : Option Text
  responseBlob : Option Text
  createdAt : Time.Timestamp
  deriving DecidableEq, Repr

/-- The log. -/
structure Log where
  rows : List LogRow
  lastId : Int
  deriving DecidableEq, Repr

namespace LogRow

/-- The rule of a row: its kind must be known and its value there. -/
def rule? (r : LogRow) : Option Rule :=
  match r.ruleKind.bind Rule.Kind.parse?, r.ruleValue with
  | some kind, some value => some { kind, value }
  | _, _ => none

/-- The status of a row, a number of 16 bits; the outer `none` for another number. -/
def status? (r : LogRow) : Option (Option Nat) :=
  match r.status with
  | none => some none
  | some n => if 0 ≤ n ∧ n < 65536 then some (some n.toNat) else none

/-- The entry of a row, if its status can be read. An unknown transport counts as plain, an unknown
    classification as passed. -/
def read? (now : Time.Timestamp) (r : LogRow) : Option LogEntry :=
  r.status?.map fun status =>
    { id := r.id, transport := (Transport.parse? r.transport).getD .plaintext,
      classification := (Classification.ofName? r.classification).getD .passed,
      method := r.method, url := r.url, canonical := r.canonical, status, rule := r.rule?,
      dnsHost := r.dnsHost, requestBlob := r.requestBlob, responseBlob := r.responseBlob,
      createdAt := readTime now r.createdAt }

/-- The row of an event, without a number. -/
def ofEvent (e : Event) : LogRow :=
  { id := 0, transport := e.transport.name, classification := e.classification.name,
    method := e.method, url := e.url, canonical := e.canonical,
    status := e.status.map fun n => (n : Int), ruleKind := e.matched.map fun r => r.kind.name,
    ruleValue := e.matched.map (·.value), dnsHost := e.dnsHost,
    requestBlob := e.requestBody.bind BodyRef.handle?,
    responseBlob := e.responseBody.bind BodyRef.handle?, createdAt := e.timestamp.micros }

end LogRow

namespace Log

/-- A log without rows. -/
def empty : Log := { rows := [], lastId := 0 }

/-! ## 2. Logging -/

/-- Adds a row under the next number. -/
def append (r : LogRow) (l : Log) : Int × Log :=
  (l.lastId + 1, { rows := l.rows ++ [{ r with id := l.lastId + 1 }], lastId := l.lastId + 1 })

/-- Logs an event and gives the number of its row; only the copy on the channel of all verdicts is
    logged. -/
def record (e : Event) (l : Log) : Option Int × Log :=
  if e.channel = .all then (some (l.append (LogRow.ofEvent e)).1, (l.append (LogRow.ofEvent e)).2)
  else (none, l)

/-- **A copy on another channel is not logged.** -/
theorem record_other {e : Event} (h : e.channel ≠ .all) (l : Log) : l.record e = (none, l) := by
  simp [record, h]

/-! ## 3. Reading -/

/-- Whether a row is newer than another, or the same. -/
def newerFirst (a b : LogRow) : Bool :=
  if a.createdAt = b.createdAt then decide (b.id ≤ a.id) else Text.le b.createdAt a.createdAt

/-- At most `limit` elements; all of them for a negative limit. -/
def takeInt {α : Type} (limit : Int) (l : List α) : List α :=
  if limit < 0 then l else l.take limit.toNat

/-- The newest entries: at most `limit`, after the first `offset`. Rows that cannot be read are left
    out, but count. -/
def recent (limit offset : Int) (now : Time.Timestamp) (l : Log) : List LogEntry :=
  (takeInt limit ((l.rows.mergeSort newerFirst).drop offset.toNat)).filterMap (LogRow.read? now)

/-- All entries, by number. Rows that cannot be read are left out. -/
def entries (now : Time.Timestamp) (l : Log) : List LogEntry := l.rows.filterMap (LogRow.read? now)

/-! ## 4. Counting and pruning -/

/-- How many rows are of a classification. -/
def count (c : Classification) (l : Log) : Nat :=
  (l.rows.filter fun r => r.classification == c.name).length

/-- Removes the rows with a time before the given text, and gives their number. -/
def prune (cutoff : Text) (l : Log) : Nat × Log :=
  let old (r : LogRow) : Bool := Text.lt r.createdAt cutoff
  ((l.rows.filter old).length, { l with rows := l.rows.filter fun r => !old r })

/-- **What is pruned and what is left are all rows.** -/
theorem length_prune (cutoff : Text) (l : Log) :
    (l.prune cutoff).1 + (l.prune cutoff).2.rows.length = l.rows.length := by
  unfold prune
  induction l.rows with
  | nil => rfl
  | cons r rest ih =>
    simp only [List.filter_cons] at *
    cases Text.lt r.createdAt cutoff <;> simp at * <;> omega

end Log

end TrafficGate.Store
