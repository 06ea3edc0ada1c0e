import TrafficGate.Store.Database
import TrafficGate.Describe
/-!
  # Describing a store

  One line of text about a store and its connections, for logs.
-/

namespace TrafficGate.Store.Database

/-- The connections of a store. -/
def describeConnections (d : Database) : Text :=
  Describe.openRecord "ConnectionPool" [Describe.field "separate_reader" (Describe.bool d.separateReader)]

/-- A store. -/
def describe (d : Database) : Text :=
  Describe.record "Database" [Describe.field "pool" d.describeConnections]

end TrafficGate.Store.Database
