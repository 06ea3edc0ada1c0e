import TrafficGate.ReadFault
import TrafficGate.Store.Database
import TrafficGate.Table
import TrafficGate.Text.Seq
/-!
  # A tree of files

  Directories, files and stores by the names on the way to them, and the ways as a path writes them.

  1. `Path`, `Entry` and `FileTree` -- where things are, and what they are;
  2. paths as they are written: names between slashes, from the root or from the home directory;
  3. `follow` and `read` -- going along the names. Each name, also a dot or two, needs a directory to
     start from;
  4. `makeDirectory`, and `makeDirectories` with all that is missing before it;
  5. trees to begin with.

  Main facts: **`follow_append`** (a way in two parts) and **`enter_of_makeBelow`** (a directory that
  was made can be entered).
-/

namespace TrafficGate.CommandLine

open Store

/-! ## 1. Entries -/

/-- A path: the names on the way from the root. -/
abbrev Path := List Text

/-- The file of a store. -/
structure StoreFile where
  tables : Tables
  /-- What the file holds without the changes that are written ahead of it, if it holds tables. -/
  settled : Option Tables
  /-- Whether changes are written ahead. -/
  ahead : Bool
  deriving DecidableEq, Repr

/-- What stands at a path. -/
inductive Entry where
  | directory
  | file (bytes : Bytes)
  /-- The file of a store, whose bytes are no text. -/
  | store (f : StoreFile)
  /-- A file that goes with a store, whose bytes are no text either. -/
  | companion
  deriving DecidableEq, Repr

/-- The entries by their paths. The root is a directory without being among them. -/
structure FileTree where
  entries : Table Path Entry
  deriving Repr

/-! ## 2. Written paths -/

/-- The name of a directory in itself. -/
def here : Text := ['.']

/-- The name of the directory above, in any. -/
def above : Text := ['.', '.']

/-- The names in a path. -/
def namesOf (path : Text) : List Text := (Seq.pieces ['/'] path).filter fun name => !name.isEmpty

/-- The names in a path that lead somewhere. -/
def stepsOf (path : Text) : List Text := (namesOf path).filter (· ≠ here)

/-- Where a path starts: at the root, or at the home directory. -/
def startOf (home : Path) (path : Text) : Path := if path.head? = some '/' then [] else home

/-- A path is at most this many bytes long. -/
def maxPathLength : Nat := 4095

/-- A name is at most this many bytes long. -/
def maxNameLength : Nat := 255

/-- How many bytes a text has. -/
def lengthOf (t : Text) : Nat := (Utf8.encode t).length

/-- Whether a name is longer than any that there is. -/
def isLongName (name : Text) : Bool := decide (maxNameLength < lengthOf name)

/-- One step on the way as the names alone tell: a dot stays, two dots go back. -/
def stepTo (p : Path) (name : Text) : Path :=
  if name = here then p else if name = above then p.dropLast else p ++ [name]

/-- The path that the names alone tell. -/
def resolve (home : Path) (path : Text) : Path := (namesOf path).foldl stepTo (startOf home path)

namespace FileTree

/-! ## 3. Ways -/

/-- What stands at a path. -/
def find? (p : Path) (t : FileTree) : Option Entry :=
  if p.isEmpty then some .directory else t.entries.find? p

/-- Whether a directory stands at a path. -/
def isDirectory (p : Path) (t : FileTree) : Bool := t.find? p == some .directory

/-- The path behind one name. -/
def enter (p : Path) (name : Text) (t : FileTree) : Except ReadFault Path :=
  if !t.isDirectory p then .error .notDirectory
  else if name = here then .ok p
  else if name = above then .ok p.dropLast
  else if isLongName name then .error .nameTooLong
  else if (t.find? (p ++ [name])).isSome then .ok (p ++ [name])
  else .error .missing

/-- The path behind names. -/
def follow (p : Path) (names : List Text) (t : FileTree) : Except ReadFault Path :=
  names.foldlM (fun p name => t.enter p name) p

/-- **A way in two parts.** -/
theorem follow_append (p : Path) (a b : List Text) (t : FileTree) :
    t.follow p (a ++ b) = (t.follow p a).bind fun p => t.follow p b := by
  simp [follow, bind, Except.bind]

/-- Where a written path leads. One that ends in a slash leads to a directory. -/
def locate (home : Path) (path : Text) (t : FileTree) : Except ReadFault Path :=
  if path.isEmpty then .error .missing
  else if maxPathLength < lengthOf path then .error .nameTooLong
  else
    let ending := if path.getLast? = some '/' then [here] else []
    t.follow (startOf home path) (namesOf path ++ ending)

/-- The bytes of a file. -/
def read (home : Path) (path : Text) (t : FileTree) : Except ReadFault Bytes :=
  match t.locate home path with
  | .error fault => .error fault
  | .ok p =>
    match t.find? p with
    | none => .error .missing
    | some .directory => .error .directory
    | some (.file bytes) => .ok bytes
    | some (.store _) | some .companion => .error .notText

/-! ## 4. Making directories -/

/-- Why a directory could not be made. -/
inductive MakeFault where
  /-- The way to it cannot be gone. -/
  | blocked (cause : ReadFault)
  /-- Something stands in its place. -/
  | present
  deriving DecidableEq, Repr

/-- The text of a fault. -/
def MakeFault.message : MakeFault → Text
  | blocked cause => cause.message
  | present => "File exists (os error 17)".toList

/-- The tree with an entry put at a path. -/
def put (p : Path) (e : Entry) (t : FileTree) : FileTree := { entries := t.entries.set p e }

/-- The tree without the entry at a path. -/
def erase (p : Path) (t : FileTree) : FileTree := { entries := t.entries.erase p }

/-- The tree with a directory made below a path. -/
def makeBelow (p : Path) (name : Text) (t : FileTree) : Except MakeFault FileTree :=
  if !t.isDirectory p then .error (.blocked .notDirectory)
  else if name = here ∨ name = above then .error .present
  else if isLongName name then .error (.blocked .nameTooLong)
  else if (t.find? (p ++ [name])).isSome then .error .present
  else .ok (t.put (p ++ [name]) .directory)

/-- The tree with a directory made at the end of a way. -/
def makeDirectory (p : Path) (names : List Text) (t : FileTree) : Except MakeFault FileTree :=
  match names.getLast? with
  | none => .error .present
  | some name =>
    match t.follow p names.dropLast with
    | .error fault => .error (.blocked fault)
    | .ok q => t.makeBelow q name

theorem find?_put_self {p : Path} (h : p ≠ []) (e : Entry) (t : FileTree) :
    (t.put p e).find? p = some e := by
  have hp : p.isEmpty = false := by
    cases p with
    | nil => exact absurd rfl h
    | cons => rfl
  simp [find?, put, hp, Table.find?_set_self]

theorem find?_put_other {p q : Path} (h : q ≠ p) (e : Entry) (t : FileTree) :
    (t.put p e).find? q = t.find? q := by
  simp [find?, put, Table.find?_set_other h]

theorem find?_erase_other {p q : Path} (h : q ≠ p) (t : FileTree) :
    (t.erase p).find? q = t.find? q := by
  simp [find?, erase, Table.find?_erase_other h]

/-- **A directory that was made can be entered.** -/
theorem enter_of_makeBelow {p : Path} {name : Text} {t t' : FileTree}
    (h : t.makeBelow p name = .ok t') : t'.enter p name = .ok (p ++ [name]) := by
  unfold makeBelow at h
  split at h
  · cases h
  · next hd =>
    split at h
    · cases h
    · next hn =>
      split at h
      · cases h
      · next hl =>
        split at h
        · cases h
        · cases h
          have hne : p ≠ p ++ [name] := by simp
          have hs := find?_put_self (by simp : p ++ [name] ≠ []) .directory t
          have ho := find?_put_other hne .directory t
          rw [not_or] at hn
          simp only [enter, isDirectory, ho, hs] at hd ⊢
          simp [hd, hn, hl]

/-- Whether a directory stands at the end of a way. -/
def leadsToDirectory (p : Path) (names : List Text) (t : FileTree) : Bool :=
  match t.follow p names with
  | .ok q => t.isDirectory q
  | .error _ => false

/-- The outcome of a fault in making a directory: none if there is a directory already. -/
def settle (p : Path) (names : List Text) (fault : MakeFault) (t : FileTree) :
    Except MakeFault Unit × FileTree :=
  (if t.leadsToDirectory p names then .ok () else .error fault, t)

/-- Makes the directory at the end of a way, and those that are missing before it. What was made
    before a fault stays. -/
def makeDirectories (p : Path) (names : List Text) (t : FileTree) :
    Except MakeFault Unit × FileTree :=
  if _h : names = [] then (.ok (), t)
  else
    match t.makeDirectory p names with
    | .ok t => (.ok (), t)
    | .error fault =>
      if fault = .blocked .missing then
        match makeDirectories p names.dropLast t with
        | (.error fault, t) => (.error fault, t)
        | (.ok _, t) =>
          match t.makeDirectory p names with
          | .ok t => (.ok (), t)
          | .error fault => t.settle p names fault
      else t.settle p names fault
termination_by names.length
decreasing_by
  have := List.length_pos_iff.mpr _h
  simp only [List.length_dropLast]
  omega

/-- Makes the directories above the file of a path. -/
def makeParents (home : Path) (path : Text) (t : FileTree) : Except MakeFault Unit × FileTree :=
  let names := (stepsOf path).dropLast
  if maxPathLength < lengthOf (names.flatMap ('/' :: ·)) then (.error (.blocked .nameTooLong), t)
  else t.makeDirectories (startOf home path) names

/-! ## 5. Trees -/

/-- The tree with a file, and directories on the way to it. -/
def addFile (p : Path) (bytes : Bytes) (t : FileTree) : FileTree :=
  ((List.range' 1 (p.length - 1)).foldl (fun t n => t.put (p.take n) .directory) t).put p (.file bytes)

/-- The tree that every run finds: some directories, and the file that is always empty. -/
def system : FileTree :=
  let directories : List String :=
    ["bin", "boot", "dev", "etc", "home", "lib", "mnt", "opt", "proc", "root", "run", "sbin", "srv",
      "sys", "tmp", "usr", "var"]
  let root : FileTree := { entries := [] }
  let tree := directories.foldl (fun t name => t.put [name.toList] .directory) root
  tree.put ["dev".toList, "null".toList] (.file [])

end FileTree

end TrafficGate.CommandLine
