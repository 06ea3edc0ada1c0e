import TrafficGate.CommandLine.Session
import TrafficGate.CommandLine.StoreFile
/-!
  # Runs in a folder

  Several runs of the program on the same files, which are held in memory. The folder in which the
  runs start is the home directory too.

  1. `Folder` -- a tree of files, and the home directory in it;
  2. `run` -- one run, and the folder behind it. The directory for logs is made first, then the
     store is opened; the other files are read as that left them.

  Main fact: **`run_halt`** (words that make no command leave the folder as it is).
-/

namespace TrafficGate.CommandLine

open Store

/-! ## 1. Folders -/

/-- A tree of files with a home directory. -/
structure Folder where
  home : Path
  tree : FileTree

namespace Folder

/-- A home directory with files in it, by their names. -/
def ofFiles (home : Path) (files : List (Text × Bytes)) : Folder :=
  let tree := FileTree.system.put home .directory
  { home, tree := files.foldl (fun t f => t.addFile (resolve home f.1) f.2) tree }

/-- The bytes of a file. -/
def read (path : Text) (d : Folder) : Except ReadFault Bytes := d.tree.read d.home path

/-- The directory for the data of the program. -/
def dataNames : List Text := [".local".toList, "share".toList, "netsieve".toList]

/-- Where the store is unless a file is named. -/
def defaultStore (d : Folder) : Text :=
  (d.home ++ dataNames ++ ["netsieve.db".toList]).flatMap ('/' :: ·)

/-- The folder with the directory for logs, as far as it can be made. -/
def makeLogs (d : Folder) : Folder :=
  { d with tree := (d.tree.makeDirectories d.home (dataNames ++ ["logs".toList])).2 }

/-! ## 2. Runs -/

/-- Closes the store of a name with the tables that a run leaves in it. -/
def closeStore (name : Text) (tables : Tables) (d : Folder) : Folder :=
  match Place.ofName? name with
  | some (.file path usage) =>
    { d with tree := d.tree.closeStore (resolve d.home path) usage tables }
  | _ => d

/-- Opens the store in a file. When the connection that only reads cannot be had, the store is closed
    again. -/
def openFile (name path : Text) (usage : Usage) (d : Folder) : Except Fault Database × Folder :=
  match d.tree.openStore (resolve d.home path) usage with
  | .error fault => (.error fault, d)
  | .ok (store, tree) =>
    if usage.readable then (.ok store, { d with tree })
    else (.error .refused, closeStore name store.tables { d with tree })

/-- Opens the store of a name, when the directories above the path that the name is are made. -/
def openStore (name : Text) (d : Folder) : Except Fault Database × Folder :=
  match d.tree.makeParents d.home name with
  | (.error fault, tree) => (.error (.io fault.message), { d with tree })
  | (.ok _, tree) =>
    let d := { d with tree }
    match Place.ofName? name with
    | none => (.error .refused, d)
    | some .apart => (.ok .apart, d)
    | some .held => (Database.openFile none, d)
    | some (.file path usage) => d.openFile name path usage

/-- The capture that a run replays. -/
def readCapture (command : Command) (d : Folder) : Except ReadFault Bytes :=
  match command with
  | .replay file _ => d.read file
  | _ => .error .missing

/-- One run on the words of a command line. -/
def run (words : List Text) (now : Time.Moment) (d : Folder) : Report × Folder :=
  match parse words with
  | .error halt => (halt.report, d)
  | .ok inv =>
    let name := inv.store.getD d.defaultStore
    match d.makeLogs.openStore name with
    | (store, d) =>
      let files : Files :=
        { store, config := d.read (inv.config.getD []), capture := d.readCapture inv.command }
      match execute inv files now with
      | (report, some tables) => (report, d.closeStore name tables)
      | (report, none) => (report, d)

/-- **Words that make no command leave the folder as it is.** -/
theorem run_halt {words : List Text} {halt : Halt} (h : parse words = .error halt)
    (now : Time.Moment) (d : Folder) : d.run words now = (halt.report, d) := by
  simp [run, h]

end Folder

end TrafficGate.CommandLine
