import TrafficGate.Table
import TrafficGate.Text.Hex
import TrafficGate.Text.Latin1
import TrafficGate.Text.Utf8
/-!
  # Names of stores

  A store is named by the path of its file, or by a locator: `file:`, perhaps two slashes and this
  host, a path, options behind a question mark, and a remark behind a number sign. Percent signs
  escape bytes in the path and in the options.

  1. `unescape` -- escapes;
  2. `StoreName` -- a name taken apart;
  3. `Access` -- what a connection may do, as the options `mode` leave it;
  4. the other options: who shares the store, how its file is locked, whether it may change;
  5. `Place` -- where the store is and how its file is used.

  Main facts: **`unescape_of_plain`** (bytes without escapes stand for themselves) and
  **`place?_of_path`** (a plain path is the path of a file, used in the usual way).
-/

namespace TrafficGate.CommandLine

/-! ## 1. Escapes -/

/-- The bytes with every escape resolved. What is no escape stands for itself; an escaped zero ends
    them. -/
def unescape : Bytes → Bytes
  | [] => []
  | 0x25 :: a :: b :: rest =>
    match Hex.decode? (Latin1.decode [a, b]) with
    | some [0] => []
    | some bs => bs ++ unescape rest
    | none => 0x25 :: unescape (a :: b :: rest)
  | c :: rest => c :: unescape rest

/-- **Bytes without escapes stand for themselves.** -/
theorem unescape_of_plain {bs : Bytes} (h : ∀ b ∈ bs, b ≠ 0x25) : unescape bs = bs := by
  induction bs with
  | nil => rfl
  | cons b rest ih =>
    have hb := h b List.mem_cons_self
    have hr := ih fun c hc => h c (List.mem_cons_of_mem _ hc)
    unfold unescape
    split
    · next he => cases he
    · next he => cases he; exact absurd rfl hb
    · next he => cases he; rw [hr]

/-- A part of a locator, its escapes resolved. -/
def resolveEscapes (t : Text) : Text := Utf8.decodeLossy (unescape (Utf8.encode t))

/-! ## 2. Names -/

/-- The name of a store. -/
structure StoreName where
  path : Text
  /-- The options with their values, as they were given. -/
  options : List (Text × Text)
  /-- Whether the name is a locator. -/
  isLocator : Bool
  deriving DecidableEq, Repr

namespace StoreName

/-- What a locator begins with. -/
def scheme : Text := "file:".toList

/-- The hosts that a locator may name. -/
def hosts : List Text := [[], "localhost".toList]

/-- An option and its value, which may be missing. One without a name is none. -/
def option? (t : Text) : Option (Text × Text) :=
  let (name, value) := (Seq.cut? ['='] t).getD (t, [])
  if (resolveEscapes name).isEmpty then none else some (resolveEscapes name, resolveEscapes value)

/-- The path and the options of a locator. -/
def ofParts (t : Text) : StoreName :=
  let body := t.takeWhile (· != '#')
  let options := (body.dropWhile (· != '?')).drop 1
  { path := resolveEscapes (body.takeWhile (· != '?')),
    options := (Seq.pieces ['&'] options).filterMap option?, isLocator := true }

/-- The name that a text is; none for a locator of another host. -/
def parse? (t : Text) : Option StoreName :=
  match Seq.stripStart? scheme t with
  | none => some { path := t, options := [], isLocator := false }
  | some rest =>
    match Seq.stripStart? "//".toList rest with
    | none => some (ofParts rest)
    | some rest =>
      if hosts.contains (rest.takeWhile (· != '/')) then some (ofParts (rest.dropWhile (· != '/')))
      else none

/-- The values of an option, the first that was given first. -/
def values (option : String) (n : StoreName) : List Text :=
  (n.options.filter fun o => o.1 == option.toList).map (·.2)

end StoreName

/-! ## 3. Access -/

/-- What a connection may do. -/
inductive Access where
  /-- Read what is there. -/
  | read
  /-- Read and write what is there. -/
  | write
  /-- Also make what is not there. -/
  | create
  /-- Use a store that is in memory. -/
  | memory
  deriving DecidableEq, Repr

namespace Access

/-- The place among the accesses, from the narrowest on. -/
def rank : Access → Nat
  | read => 0
  | write => 1
  | create => 2
  | memory => 3

/-- The accesses by the values of the option that asks for them. -/
def named : Table Text Access :=
  [("ro".toList, read), ("rw".toList, write), ("rwc".toList, create), ("memory".toList, memory)]

/-- The access after one that is asked for. A store in memory may always be asked for, and no access
    that is wider than the present one. -/
def narrow (now asked : Access) : Option Access :=
  if asked = memory ∨ asked.rank ≤ now.rank then some asked else none

end Access

namespace StoreName

/-- The access of a connection that starts with `start`; none if a value asks for what is unknown
    or may not be had. -/
def access? (start : Access) (n : StoreName) : Option Access :=
  (n.values "mode").foldlM (fun now value => (Access.named.find? value).bind now.narrow) start

/-! ## 4. Other options -/

/-- Who uses what a connection has read: every connection of the run, or only itself. -/
def sharings : Table Text Bool := [("shared".toList, true), ("private".toList, false)]

/-- Whether the connections share what they have read; none if a value is unknown. -/
def shared? (n : StoreName) : Option Bool :=
  (n.values "cache").foldlM (fun _ value => sharings.find? value) false

/-- How files are locked. -/
inductive Locking where
  /-- Part by part, so that changes can be written ahead, with an index of them in a file. -/
  | parts
  /-- At once for all connections of a run, with the index in memory. -/
  | whole
  /-- In no way that lets changes be written ahead. -/
  | bare
  /-- There are no files. -/
  | memory
  deriving DecidableEq, Repr

/-- The ways of locking by their names. -/
def lockings : Table Text Locking :=
  [("unix".toList, .parts), ("unix-excl".toList, .whole), ("unix-none".toList, .bare),
    ("unix-dotfile".toList, .bare), ("memdb".toList, .memory)]

/-- How the file is locked, as the last value tells; none if that is unknown. -/
def locking? (n : StoreName) : Option Locking :=
  match (n.values "vfs").getLast? with
  | none => some .parts
  | some value => lockings.find? value

/-- Whether a value stands for yes: a word, or a number that is not zero in its last eight bits. -/
def isYes (value : Text) : Bool :=
  let digits := value.takeWhile Ascii.isDigit
  if digits.isEmpty then ["on".toList, "yes".toList, "true".toList].contains (Ascii.lower value)
  else ((Numeral.readInt64? digits).filter (· < 2147483648)).any fun n => n % 256 != 0

/-- Whether the first value of an option stands for yes. -/
def flag (option : String) (n : StoreName) : Bool := (n.values option).head?.any isYes

end StoreName

/-! ## 5. Places -/

/-- How the file of a store is used. -/
structure Usage where
  /-- What the connection that writes may do. -/
  access : Access
  /-- Whether another connection, which only reads, can be had. -/
  readable : Bool
  /-- Whether both connections share what they have read. -/
  shared : Bool
  /-- Whether changes can be written ahead of the file. -/
  ahead : Bool
  /-- Whether the index of changes is a file. -/
  indexed : Bool
  /-- Whether the file is taken for one that never changes. -/
  frozen : Bool
  deriving DecidableEq, Repr

/-- The use of a file that no option changes. -/
def Usage.usual : Usage :=
  { access := .create, readable := true, shared := false, ahead := true, indexed := true,
    frozen := false }

/-- Where a store is. -/
inductive Place where
  /-- In memory, for each connection another one. -/
  | apart
  /-- In memory, for both connections the same. -/
  | held
  | file (path : Text) (usage : Usage)
  deriving DecidableEq, Repr

namespace StoreName

/-- The path of a store that is in memory as long as the run lasts. -/
def inMemoryPath : Text := ":memory:".toList

/-- Whether a path in memory can be found by every connection. -/
def isRooted (path : Text) : Bool :=
  match path with
  | c :: _ :: _ => c == '/' || c == '\\'
  | _ => false

/-- Whether every connection finds the same store in memory. One without a path is never found. -/
def isHeld (shared rooted : Bool) (n : StoreName) : Bool :=
  !n.path.isEmpty && (rooted || shared && n.isLocator)

/-- Where the store is; none if the name asks for what is unknown or cannot be had. A store in memory
    is new, so both connections are needed, and it must be written. -/
def place? (n : StoreName) : Option Place := do
  let access ← n.access? .create
  let shared ← n.shared?
  let locking ← n.locking?
  let readable := (n.access? .read).isSome
  let frozen := n.flag "immutable"
  let inMemory (held frozen : Bool) : Option Place :=
    if access = .read ∨ !readable ∨ frozen then none else some (if held then .held else .apart)
  if n.path.isEmpty ∨ access = .memory ∨ n.path = inMemoryPath then
    inMemory (n.isHeld shared false) false
  else if locking = .memory then inMemory (n.isHeld shared (isRooted n.path)) frozen
  else
    some (.file n.path
      { access, readable, shared, ahead := locking != .bare && !n.flag "nolock",
        indexed := locking = .parts, frozen })

/-- **A plain path is the path of a file, used in the usual way.** -/
theorem place?_of_path {path : Text} (h : path ≠ []) (hm : path ≠ inMemoryPath) :
    place? { path, options := [], isLocator := false } = some (.file path Usage.usual) := by
  simp [place?, access?, shared?, locking?, values, flag, h, hm, Usage.usual]

end StoreName

/-- Where the store of a name is. -/
def Place.ofName? (name : Text) : Option Place := (StoreName.parse? name).bind StoreName.place?

end TrafficGate.CommandLine
