import TrafficGate.Store.Database
import TrafficGate.Verdict.Journal
/-!
  # Logging the journal

  The verdicts of the journal are also rows of the log. A verdict that cannot be logged is passed
  over.

  1. `record` -- logging events;
  2. an entry of the log as JSON.

  Main fact: **`record_append`** (events are logged in their order).
-/

namespace TrafficGate.Store

open Verdict

namespace Journal

/-- Logs one event, and counts it if that was done. -/
def recordOne (r : Nat × Database) (e : Event) : Nat × Database :=
  match r.2.record e with
  | (.ok (some _), d) => (r.1 + 1, d)
  | (_, d) => (r.1, d)

/-- Logs events, and gives the number of rows that were added. -/
def record (events : List Event) (r : Nat × Database) : Nat × Database :=
  (Verdict.Journal.written events).foldl recordOne r

/-- **Events are logged in their order.** -/
theorem record_append (a b : List Event) (r : Nat × Database) :
    record (a ++ b) r = record b (record a r) := by
  simp [record, Verdict.Journal.written]

end Journal

/-- An entry of the log as JSON. -/
def LogEntry.json (e : LogEntry) : Json :=
  .record [("id".toList, .int e.id),
    ("transport".toList, .text e.transport.name),
    ("classification".toList, .text e.classification.name),
    ("method".toList, .text e.method),
    ("url".toList, .text e.url),
    ("canonical".toList, .text e.canonical),
    ("status".toList, .ofOption .nat e.status),
    ("rule".toList, .ofOption ruleJson e.rule),
    ("dns_host".toList, .ofOption .text e.dnsHost),
    ("request_blob".toList, .ofOption .text e.requestBlob),
    ("response_blob".toList, .ofOption .text e.responseBlob),
    ("created_at".toList, .text e.createdAt.shortest)]

end TrafficGate.Store
