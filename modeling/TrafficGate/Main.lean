import Std.Time.DateTime.Timestamp
import TrafficGate.CommandLine.Session
import TrafficGate.CommandLine.StoreName
import TrafficGate.Store.Snapshot
/-!
  # The program

  Reads the files that a run names, carries the run out, writes what it shows and keeps the tables
  that it leaves. All that is decided is decided by `CommandLine`.
-/

namespace TrafficGate.Main

open CommandLine

/-- The present. -/
def present : IO Time.Moment := do
  let nanos := (← Std.Time.Timestamp.now).toNanosecondsSinceUnixEpoch.val
  let tick ← IO.monoNanosNow
  return { wall := { seconds := nanos / 1000000000, nanos := (nanos % 1000000000).toNat }, tick }

/-- Why a file could not be read. -/
def readFault : IO.Error → ReadFault
  | .noFileOrDirectory _ _ _ => .missing
  | .inappropriateType _ 21 _ => .directory
  | .inappropriateType _ 20 _ => .notDirectory
  | .invalidArgument _ 36 _ => .nameTooLong
  | e => .system e.toString.toList

/-- The bytes of a file. -/
def readFile (path : Text) : IO (Except ReadFault Bytes) := do
  try
    let bytes ← IO.FS.readBinFile (String.ofList path)
    return .ok bytes.toList
  catch e => return .error (readFault e)

/-- The directory for the data of the program. -/
def dataDirectory : IO (Option Text) := do
  match ← IO.getEnv "XDG_DATA_HOME", ← IO.getEnv "HOME" with
  | some data, _ => return some (data.toList ++ "/netsieve".toList)
  | none, some home => return some (home.toList ++ "/.local/share/netsieve".toList)
  | none, none => return none

/-- Makes the directory for logs, if that can be done. -/
def makeLogs : IO Unit := do
  try
    match ← dataDirectory with
    | some data => IO.FS.createDirAll (String.ofList (data ++ "/logs".toList))
    | none => pure ()
  catch _ => pure ()

/-- The name of the store: the one that is given, or a file in the directory for data. -/
def storeName (given : Option Text) : IO (Except Store.Fault Text) := do
  match given, ← dataDirectory with
  | some name, _ => return .ok name
  | none, some data => return .ok (data ++ "/netsieve.db".toList)
  | none, none => return .error (.config "Could not determine app data directory".toList)

/-- The tables in a file; none if there is no file, or an empty one. -/
def readTables (path : Text) : IO (Except Store.Fault (Option Store.Tables)) := do
  match ← readFile path with
  | .ok file => return Store.Snapshot.read file
  | .error .missing => return .ok none
  | .error fault => return .error (.io fault.message)

/-- The store in a file. Tables that are not there are made if they may be. -/
def openFile (path : Text) (usage : Usage) : IO (Except Store.Fault Store.Database) := do
  let tables ← readTables path
  if usage.access = .read ∨ usage.frozen then return tables.bind Store.Database.openToRead
  else if !usage.readable then return .error .refused
  else return tables.bind Store.Database.openFile

/-- The store of a name, when the directory above the path that the name is was made. -/
def openStore (name : Text) : IO (Except Store.Fault Store.Database) := do
  try
    match Seq.cutLast? '/' name with
    | some (c :: directory, _) => IO.FS.createDirAll (String.ofList (c :: directory))
    | _ => pure ()
    match Place.ofName? name with
    | none => return .error .refused
    | some .apart => return .ok .apart
    | some .held => return Store.Database.openFile none
    | some (.file path usage) => openFile path usage
  catch e => return .error (.io (readFault e).message)

/-- Keeps the tables of the store of a name, if it is in a file that may be written. -/
def keep (name : Text) (tables : Store.Tables) : IO Unit :=
  match Place.ofName? name with
  | some (.file path usage) =>
    if usage.access = .read ∨ usage.frozen then pure ()
    else
      IO.FS.writeBinFile (String.ofList path) (ByteArray.mk (Store.Snapshot.write tables).toArray)
  | _ => pure ()

/-- Carries out a run. -/
def carryOut (inv : Invocation) : IO Report := do
  makeLogs
  let name ← storeName inv.store
  let store ←
    match name with
    | .ok name => openStore name
    | .error fault => pure (.error fault)
  let config ← readFile (inv.config.getD [])
  let capture ←
    match inv.command with
    | .replay path _ => readFile path
    | _ => pure (.error .missing)
  let (report, tables) := execute inv { store, config, capture } (← present)
  match name, tables with
  | .ok name, some tables => keep name tables
  | _, _ => pure ()
  return report

end TrafficGate.Main

/-- Runs the program on the words of its command line. -/
def main (words : List String) : IO UInt32 := do
  let report ←
    match TrafficGate.CommandLine.parse (words.map String.toList) with
    | .ok inv => TrafficGate.Main.carryOut inv
    | .error halt => pure halt.report
  (← IO.getStdout).putStr (String.ofList report.output)
  (← IO.getStderr).putStr (String.ofList report.errors)
  return report.exit.toUInt32
