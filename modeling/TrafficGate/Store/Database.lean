import TrafficGate.Store.Blobs
import TrafficGate.Store.Log
import TrafficGate.Engine.Backend
/-!
  # The store

  The three tables together, and the connections through which they are used.

  1. `Tables` -- the tables with the version of their layout, and bringing an old layout up to date;
  2. `Database` -- tables behind one connection, or behind two, one of which only reads. The other
     one may be barred from writing; a request that breaks off in the middle leaves it unusable;
  3. the requests;
  4. the store as the collaborator of an engine.

  Main facts: **`migrate_current`** (tables of the present layout stay as they are),
  **`write_poisoned`** and **`write_barred`** (through a connection that is unusable or barred
  nothing is changed).
-/

namespace TrafficGate.Store

open Verdict

/-! ## 1. Tables -/

/-- All tables. -/
structure Tables where
  /-- The version of the layout. -/
  version : Int
  rules : Rules
  blobs : Blobs
  /-- The log, which came with the second layout. -/
  log : Option Log
  deriving DecidableEq, Repr

namespace Tables

/-- The version of the present layout. -/
def currentVersion : Int := 2

/-- New tables. -/
def fresh : Tables :=
  { version := currentVersion, rules := Rules.empty, blobs := Blobs.empty, log := some Log.empty }

/-- Brings tables of an older layout up to date. A step that makes a table which is there fails and
    changes nothing. -/
def migrate (t : Tables) : Except Fault Tables :=
  if currentVersion ≤ t.version then .ok t
  else if t.version < 1 then .error .refused
  else
    match t.log with
    | some _ => .error .refused
    | none => .ok { t with version := currentVersion, log := some Log.empty }

/-- **Tables of the present layout stay as they are.** -/
theorem migrate_current {t : Tables} (h : currentVersion ≤ t.version) : t.migrate = .ok t := by
  simp [migrate, h]

/-- The version that the tables keep of one that is set: a number of 32 bits with a sign, and zero
    for every other. -/
def keptVersion (version : Int) : Int :=
  if -2147483648 ≤ version ∧ version < 2147483648 then version else 0

/-- The log; a fault when it is missing. -/
def log? (t : Tables) : Except Fault Log :=
  match t.log with
  | some l => .ok l
  | none => .error .refused

end Tables

/-! ## 2. Connections -/

/-- Through which connection a store is read. -/
inductive Reader where
  /-- The one that writes. -/
  | shared
  /-- One that only reads. -/
  | own
  /-- One that only reads, and sees none of the tables. -/
  | blind
  deriving DecidableEq, Repr

/-- What the connection that writes can be used for. -/
inductive Writer where
  | anything
  /-- Nothing is written: the store was opened to be read. -/
  | barred
  /-- A request broke off in the middle, and it is not used again. -/
  | poisoned
  deriving DecidableEq, Repr

/-- A store that is open. -/
structure Database where
  reader : Reader
  writer : Writer
  tables : Tables
  deriving DecidableEq, Repr

namespace Database

/-- Whether reading has a connection of its own. -/
def separateReader (d : Database) : Bool := d.reader != .shared

/-- A new store in memory, with one connection. -/
def inMemory : Database := { reader := .shared, writer := .anything, tables := Tables.fresh }

/-- A new store in memory with two connections. As nothing in memory is shared by them, what is
    written is never read. -/
def apart : Database := { inMemory with reader := .blind }

/-- Opens the tables of a file, with two connections; new ones if there are none. -/
def openFile (tables : Option Tables) : Except Fault Database :=
  match (tables.getD Tables.fresh).migrate with
  | .ok tables => .ok { reader := .own, writer := .anything, tables }
  | .error fault => .error fault

/-- Opens the tables of a file to read them. They must be there, and of the present layout. -/
def openToRead (tables : Option Tables) : Except Fault Database :=
  match tables with
  | some tables =>
    if Tables.currentVersion ≤ tables.version then .ok { reader := .own, writer := .barred, tables }
    else .error .refused
  | none => .error .refused

/-- The fault of a request that may not write. Input that makes no sense is noticed before. -/
def barredFault {α : Type} : Except Fault α → Fault
  | .error (.invalidInput reason) => .invalidInput reason
  | _ => .refused

/-- A request that may change the tables. -/
def write {α : Type} (f : Tables → Except Fault α × Tables) (d : Database) :
    Except Fault α × Database :=
  match d.writer with
  | .poisoned => (.error .poisoned, d)
  | .barred => (.error (barredFault (f d.tables).1), d)
  | .anything =>
    match f d.tables with
    | (result, tables) => (result, { d with tables })

/-- A request that only reads. -/
def read {α : Type} (f : Tables → Except Fault α) (d : Database) : Except Fault α :=
  match d.reader with
  | .shared => if d.writer = .poisoned then .error .poisoned else f d.tables
  | .own => f d.tables
  | .blind => .error .refused

/-- **Through an unusable connection nothing is changed.** -/
theorem write_poisoned {α : Type} {f : Tables → Except Fault α × Tables} {d : Database}
    (h : d.writer = .poisoned) : d.write f = (.error .poisoned, d) := by
  simp [write, h]

/-- **Through a connection that is barred nothing is changed.** -/
theorem write_barred {α : Type} {f : Tables → Except Fault α × Tables} {d : Database}
    (h : d.writer = .barred) : d.write f = (.error (barredFault (f d.tables).1), d) := by
  simp [write, h]

/-! ## 3. Requests -/

/-- A request to the table of rules. -/
def onRules {α : Type} (f : Rules → Except Fault α × Rules) (t : Tables) :
    Except Fault α × Tables :=
  match f t.rules with
  | (result, rules) => (result, { t with rules })

/-- A request to the log. -/
def onLog {α : Type} (f : Log → α × Log) (t : Tables) : Except Fault α × Tables :=
  match t.log with
  | none => (.error .refused, t)
  | some l =>
    match f l with
    | (result, l) => (.ok result, { t with log := some l })

/-- Adds a rule. -/
def addRule (kind : Rule.Kind) (value : Text) (note : Option Text) (now : Time.Timestamp)
    (d : Database) : Except Fault Int × Database :=
  d.write (onRules fun t => t.insert kind value note now)

/-- Adds rules up to the first that is refused. -/
def addRules (rules : List Rule) (now : Time.Timestamp) (d : Database) : Except Fault Database :=
  rules.foldlM (fun d r => (d.addRule r.kind r.value none now).1.map fun _ =>
    (d.addRule r.kind r.value none now).2) d

/-- Adds the row of a rule as it is given. -/
def addRuleRow (kindName value : Text) (enabled : Int) (note : Option Text) (createdAt : Text)
    (d : Database) : Except Fault Unit × Database :=
  d.write (onRules fun t => t.insertRow kindName value enabled note createdAt)

/-- The rule of a number. -/
def getRule (id : Int) (now : Time.Timestamp) (d : Database) : Except Fault (Option StoredRule) :=
  d.read fun t => t.rules.get id now

/-- The rules, of one kind if one is given. -/
def listRules (kind : Option Rule.Kind) (now : Time.Timestamp) (d : Database) :
    Except Fault (List StoredRule) :=
  d.read fun t => .ok (t.rules.list kind now)

/-- How many rules there are. -/
def countRules (d : Database) : Except Fault Nat := d.read fun t => .ok t.rules.count

/-- Switches a rule on or off. -/
def setRuleEnabled (id : Int) (on : Bool) (d : Database) : Except Fault Unit × Database :=
  d.write (onRules fun t => t.setEnabled id on)

/-- Removes a rule. -/
def removeRule (id : Int) (d : Database) : Except Fault Unit × Database :=
  d.write (onRules fun t => t.remove id)

/-- Removes the rule of a kind and value, and tells whether there was one. -/
def removeValue (kind : Rule.Kind) (value : Text) (d : Database) : Except Fault Bool × Database :=
  d.write (onRules fun t => match t.removeValue kind value with
    | (removed, t) => (.ok removed, t))

/-- The rule that matches a value. -/
def findMatch (kind : Rule.Kind) (value : Text) (d : Database) : Except Fault (Option Rule) :=
  d.read fun t => .ok (t.rules.findMatch? kind value)

/-- Stores a body. -/
def putBlob (data : Bytes) (mimeType : Text) (d : Database) : Except Fault Text × Database :=
  d.write fun t =>
    match t.blobs.put data mimeType with
    | (hash, blobs) => (.ok hash, { t with blobs })

/-- The body of a digest. -/
def getBlob (hash : Text) (d : Database) : Except Fault (Option StoredBlob) :=
  d.read fun t => .ok (t.blobs.find? hash)

/-- How many bodies there are. -/
def countBlobs (d : Database) : Except Fault Nat := d.read fun t => .ok t.blobs.count

/-- How many bytes all bodies have. -/
def totalBlobs (d : Database) : Except Fault Int := d.read fun t => .ok t.blobs.total

/-- Logs an event through the connection that writes; no number for a copy that is not logged. -/
def recordThrough (e : Event) (d : Database) : Except Fault (Option Int) × Database :=
  d.write fun t => if e.channel = .all then onLog (fun l => l.record e) t else (.ok none, t)

/-- Logs an event. For a copy that is not logged the connection is not needed. -/
def record (e : Event) (d : Database) : Except Fault (Option Int) × Database :=
  if e.channel = .all then d.recordThrough e else (.ok none, d)

/-- Adds the row of a verdict as it is given. -/
def addLogRow (r : LogRow) (d : Database) : Except Fault Unit × Database :=
  d.write (onLog fun l => ((), (l.append r).2))

/-- The newest entries of the log. -/
def recent (limit offset : Int) (now : Time.Timestamp) (d : Database) :
    Except Fault (List LogEntry) :=
  d.read fun t => t.log?.map fun l => l.recent limit offset now

/-- All entries of the log, by number. -/
def entries (now : Time.Timestamp) (d : Database) : Except Fault (List LogEntry) :=
  d.read fun t => t.log?.map fun l => l.entries now

/-- How many verdicts of each classification are logged. -/
structure Counts where
  blocked : Nat
  passed : Nat
  deriving DecidableEq, Repr

/-- How many verdicts of each classification are logged. -/
def counts (d : Database) : Except Fault Counts :=
  d.read fun t => t.log?.map fun l => { blocked := l.count .blocked, passed := l.count .passed }

/-- Removes the verdicts that are older than a number of days. A span that is not handled breaks off
    the request. -/
def prune (days : Int) (now : Time.Timestamp) (d : Database) :
    Rule.Outcome (Except Fault Nat) × Database :=
  if d.writer = .poisoned then (.done (.error .poisoned), d)
  else
    match now.daysBefore? days with
    | none => (.crashed, { d with writer := .poisoned })
    | some cutoff =>
      match d.write (onLog fun l => l.prune cutoff.micros) with
      | (result, d) => (.done result, d)

/-- Opens a store again: the file that it is in, or a new one in memory. -/
def reopen (d : Database) : Except Fault Database :=
  match d.reader with
  | .shared => .ok inMemory
  | .own => openFile (some d.tables)
  | .blind => .ok apart

/-- Sets the version of the layout past the requests, and drops the log before if asked to. A log
    that is missing cannot be dropped, and then the version stays. -/
def setVersion (version : Int) (dropLog : Bool) (d : Database) : Except Fault Unit × Database :=
  if dropLog && d.tables.log.isNone then (.error .refused, d)
  else
    let log := if dropLog then none else d.tables.log
    (.ok (), { d with tables := { d.tables with version := Tables.keptVersion version, log } })

/-! ## 4. As a collaborator -/

/-- The answer of the store to a lookup. -/
def replyTo (kind : Rule.Kind) (value : Text) (d : Database) : Rule.Reply :=
  match d.findMatch kind value with
  | .ok rule => .answer rule
  | .error _ => .failed

/-- The store as a source of rules. -/
def rules : Rule.Source Database where
  query kind value d := (d.replyTo kind value, d)

/-- The store as a keeper of bodies. -/
def blobs : Verdict.Keeper Database where
  keep data mimeType d := ((d.putBlob data mimeType).1.toOption, (d.putBlob data mimeType).2)

/-- The store as all that an engine works with. -/
def backend : Engine.Backend Database where
  rules := rules
  blobs := blobs

end Database

end TrafficGate.Store
