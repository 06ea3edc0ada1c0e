import TrafficGate.Rule.Kind
import TrafficGate.Text.Seq
import TrafficGate.Table
import TrafficGate.Text.Numeral
/-!
  # Arguments

  The words of a command line as the command that they ask for.

  1. `Command` and `Invocation` -- what can be asked for;
  2. `Level` -- the places of the command tree, with the options and values that each takes;
  3. `step` -- what one word does;
  4. `parse` -- all words.

  Options begin with two hyphens; their value is the next word or stands behind `=`. A word that
  begins with a hyphen is no value, except a single hyphen, until a word of two hyphens ends the
  options. Four options are taken on every level; given on several levels, the innermost counts.

  Main facts: **`steps_append`** (words are read one after the other) and **`parse_nil`** (a command
  is needed).
-/

namespace TrafficGate.CommandLine

/-! ## 1. Commands -/

/-- What is to be done. -/
inductive Command where
  | addRule (kind : Rule.Kind) (value : Text) (note : Option Text)
  | listRules (kind : Option Rule.Kind)
  | removeRule (id : Int)
  | switchRule (id : Int) (on : Bool)
  /-- Replay the capture of a file, and log the verdicts or not. -/
  | replay (capture : Text) (log : Bool)
  | verdicts (limit : Int)
  | prune (days : Int)
  deriving DecidableEq, Repr

/-- A command with the files that it uses. -/
structure Invocation where
  /-- The file of the configuration. -/
  config : Option Text
  /-- The name of the store. -/
  store : Option Text
  command : Command
  deriving DecidableEq, Repr

/-- Why no command is run. -/
inductive Halt where
  /-- The version was asked for. -/
  | version
  /-- Help was asked for. -/
  | help
  /-- The words make no command. -/
  | rejected
  deriving DecidableEq, Repr

/-! ## 2. Levels -/

/-- The places of the command tree. -/
inductive Level where
  | top
  | rules
  | add
  | list
  | remove
  | enable
  | disable
  | replay
  | verdicts
  | prune
  /-- The word that asks for help, as one on which help can be asked for. -/
  | help
  deriving DecidableEq, Repr

/-- What a value must look like. -/
inductive Shape where
  | anything
  /-- The name of a file, which is not empty. -/
  | path
  /-- The name of a kind of rules, in any case. -/
  | kind
  /-- A whole number of 64 bits. -/
  | number
  deriving DecidableEq, Repr

/-- Whether a value looks like that. -/
def Shape.fits : Shape → Text → Bool
  | anything, _ => true
  | path, t => !t.isEmpty
  | kind, t => (Rule.Kind.parse? t).isSome
  | number, t => (Numeral.readInt64? t).isSome

namespace Level

/-- The levels below a level, by their words. -/
def below : Level → Table Text Level
  | top => [("rules".toList, rules), ("replay".toList, replay), ("verdicts".toList, verdicts),
      ("prune".toList, prune)]
  | rules => [("add".toList, add), ("list".toList, list), ("remove".toList, remove),
      ("enable".toList, enable), ("disable".toList, disable)]
  | _ => []

/-- The options with a value that every level takes. -/
def commonOptions : Table Text Shape :=
  [("config".toList, .path), ("db".toList, .path), ("log-level".toList, .anything)]

/-- The options with a value that a level takes. -/
def options : Level → Table Text Shape
  | add => ("note".toList, .anything) :: commonOptions
  | list => ("type".toList, .kind) :: commonOptions
  | verdicts => ("limit".toList, .number) :: commonOptions
  | _ => commonOptions

/-- The options without a value that a level takes. -/
def flags : Level → List Text
  | replay => ["debug".toList, "no-log".toList]
  | _ => ["debug".toList]

/-- The values that stand alone, in their order. -/
def places : Level → List Shape
  | add => [.kind, .anything]
  | remove | enable | disable | prune => [.number]
  | replay => [.path]
  | _ => []

end Level

/-! ## 3. Words -/

/-- What was read so far. -/
structure Reading where
  level : Level
  /-- The options that were named on this level. -/
  named : List Text
  /-- The values of options, of all levels. -/
  values : Table Text Text
  /-- The values that stand alone, the last first. -/
  places : List Text
  /-- The option whose value comes next. -/
  awaiting : Option Text
  /-- Whether the options have ended. -/
  ended : Bool
  /-- Whether help on the level is asked for. -/
  helping : Bool
  deriving DecidableEq, Repr

namespace Reading

/-- Nothing was read. -/
def start : Reading :=
  { level := .top, named := [], values := [], places := [], awaiting := none, ended := false,
    helping := false }

/-- Names an option, which may be done once on a level. -/
def name (option : Text) (r : Reading) : Except Halt Reading :=
  if r.named.contains option then .error .rejected
  else .ok { r with named := option :: r.named }

/-- Gives an option its value. -/
def give (option value : Text) (r : Reading) : Except Halt Reading :=
  match r.level.options.find? option with
  | none => .error .rejected
  | some shape =>
    if shape.fits value then
      .ok { r with values := r.values.set option value, awaiting := none }
    else .error .rejected

/-- Reads an option, of which the hyphens are gone. -/
def long (t : Text) (r : Reading) : Except Halt Reading :=
  match Seq.cut? ['='] t with
  | some (option, value) =>
    if (r.level.options.find? option).isSome then (r.name option).bind (give option value)
    else .error .rejected
  | none =>
    if t = "help".toList then .error .help
    else if t = "version".toList ∧ r.level = .top then .error .version
    else if r.level.flags.contains t then r.name t
    else if (r.level.options.find? t).isSome then
      (r.name t).map fun r => { r with awaiting := some t }
    else .error .rejected

/-- Reads letters behind a hyphen; the first settles what comes of it. -/
def short (letters : Text) (r : Reading) : Except Halt Reading :=
  match letters.head? with
  | some 'h' => .error .help
  | some 'V' => if r.level = .top then .error .version else .error .rejected
  | _ => .error .rejected

/-- Reads a value that stands alone. -/
def place (t : Text) (r : Reading) : Except Halt Reading :=
  match r.level.places[r.places.length]? with
  | none => .error .rejected
  | some shape =>
    if shape.fits t then .ok { r with places := t :: r.places } else .error .rejected

/-- Goes down to a level. -/
def descend (level : Level) (r : Reading) : Reading := { r with level, named := [] }

/-- Reads the word of a level, or one that asks for help. After that only words of levels may come,
    and asking once more goes down to a level below which there is nothing. -/
def word (t : Text) (r : Reading) : Except Halt Reading :=
  match r.level.below.find? t with
  | some level => .ok (r.descend level)
  | none =>
    if r.level.below.isEmpty then (if r.helping then .error .rejected else r.place t)
    else if t = "help".toList then
      .ok (if r.helping then r.descend .help else { r with helping := true })
    else .error .rejected

/-- Reads a word that is no value of an option. -/
def next (t : Text) (r : Reading) : Except Halt Reading :=
  if r.ended then r.place t
  else if r.helping then r.word t
  else
    match t with
    | '-' :: '-' :: rest => if rest.isEmpty then .ok { r with ended := true } else r.long rest
    | '-' :: rest => if rest.isEmpty then r.word t else r.short rest
    | _ => r.word t

/-- Whether a word can be the value of an option. -/
def isValue (t : Text) : Bool := t == ['-'] || t.head? != some '-'

/-- Reads a word. -/
def step (r : Reading) (t : Text) : Except Halt Reading :=
  match r.awaiting with
  | some option => if isValue t then r.give option t else .error .rejected
  | none => r.next t

/-- Reads words. -/
def steps (r : Reading) : List Text → Except Halt Reading
  | [] => .ok r
  | t :: rest => (r.step t).bind fun r => r.steps rest

/-- **Words are read one after the other.** -/
theorem steps_append (r : Reading) (a b : List Text) :
    r.steps (a ++ b) = (r.steps a).bind fun r => r.steps b := by
  induction a generalizing r with
  | nil => rfl
  | cons t a ih =>
    simp only [List.cons_append, steps]
    cases r.step t with
    | error h => rfl
    | ok r' => exact ih r'

/-! ## 4. Commands -/

/-- The number that a value is. -/
def number? (t : Text) : Option Int := Numeral.readInt64? t

/-- How many verdicts are shown unless a limit is given. -/
def defaultLimit : Int := 20

/-- The command that was read. -/
def command? (r : Reading) : Option Command :=
  match r.level, r.places with
  | .add, [value, kind] =>
    (Rule.Kind.parse? kind).map fun kind => .addRule kind value (r.values.find? "note".toList)
  | .list, [] => some (.listRules ((r.values.find? "type".toList).bind Rule.Kind.parse?))
  | .remove, [id] => (number? id).map .removeRule
  | .enable, [id] => (number? id).map fun id => .switchRule id true
  | .disable, [id] => (number? id).map fun id => .switchRule id false
  | .replay, [capture] => some (.replay capture !(r.named.contains "no-log".toList))
  | .verdicts, [] =>
    some (.verdicts (((r.values.find? "limit".toList).bind number?).getD defaultLimit))
  | .prune, [days] => (number? days).map .prune
  | _, _ => none

/-- What was read, when no more words come. -/
def finish (r : Reading) : Except Halt Invocation :=
  if r.helping then .error .help
  else if r.awaiting.isSome then .error .rejected
  else
    match r.command? with
    | some command =>
      .ok { config := r.values.find? "config".toList, store := r.values.find? "db".toList, command }
    | none => .error .rejected

end Reading

/-- What the words of a command line ask for. -/
def parse (words : List Text) : Except Halt Invocation :=
  (Reading.start.steps words).bind Reading.finish

/-- **A command is needed.** -/
theorem parse_nil : parse [] = .error .rejected := rfl

end TrafficGate.CommandLine
