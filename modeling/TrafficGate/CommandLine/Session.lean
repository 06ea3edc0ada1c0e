import TrafficGate.Capture.Replay
import TrafficGate.CommandLine.Arguments
import TrafficGate.Store.Journal
/-!
  # Sessions

  One run of the program: a command, the files that it uses, and what it shows and leaves behind.

  1. `Failure` and `Report` -- what is shown;
  2. the commands on an open store;
  3. `execute` -- a run: the store is opened, the configuration read, the command carried out.

  Main facts: **`execute_store_error`** (a store that cannot be opened ends the run at once) and
  **`text_single`** (how one cause is shown).
-/

namespace TrafficGate.CommandLine

open Store Engine

/-! ## 1. What is shown -/

/-- Why a command was not carried out: what was tried, and the causes, the outermost first. -/
structure Failure where
  message : Text
  causes : List Text
  deriving DecidableEq, Repr

namespace Failure

/-- Causes with their numbers, from `n`. -/
def numbered (n : Nat) : List Text → Text
  | [] => []
  | cause :: rest =>
    "    ".toList ++ Numeral.decimal n ++ ": ".toList ++ cause ++ '\n' :: numbered (n + 1) rest

/-- The list of the causes; a single one has no number. -/
def causeText : List Text → Text
  | [] => []
  | [cause] => "\nCaused by:\n    ".toList ++ cause ++ ['\n']
  | causes => "\nCaused by:\n".toList ++ numbered 0 causes

/-- A failure as it is shown. -/
def text (f : Failure) : Text := "Error: ".toList ++ f.message ++ '\n' :: causeText f.causes

/-- **A single cause has no number.** -/
theorem text_single (message cause : Text) :
    text { message, causes := [cause] } =
      "Error: ".toList ++ message ++
        '\n' :: ("\nCaused by:\n    ".toList ++ cause ++ ['\n']) := rfl

/-- The failure of a request to the store. -/
def ofFault (f : Store.Fault) : Failure := { message := f.message, causes := f.causes }

/-- The failure while something was done. -/
def during (what : Text) (f : Failure) : Failure :=
  { message := what, causes := f.message :: f.causes }

end Failure

/-- What a run shows: its exit code, and what it writes to its output and about errors. -/
structure Report where
  exit : Nat
  output : Text
  errors : Text
  deriving DecidableEq, Repr

/-- How a command ends. -/
inductive Ending where
  | done (output errors : Text)
  | failed (f : Failure)
  /-- The command broke off. -/
  | crashed
  deriving DecidableEq, Repr

/-- What a run shows of how its command ended. -/
def Ending.report : Ending → Report
  | done output errors => { exit := 0, output, errors }
  | failed f => { exit := 1, output := [], errors := f.text }
  | crashed => { exit := 101, output := [], errors := [] }

/-! ## 2. Commands -/

/-- A text in a column, at the right end of it. -/
def alignRight (width : Nat) (t : Text) : Text := List.replicate (width - t.length) ' ' ++ t

/-- A text in a column, at the left end of it. -/
def alignLeft (width : Nat) (t : Text) : Text := t ++ List.replicate (width - t.length) ' '

/-- A rule as it is listed. -/
def ruleLine (r : StoredRule) : Text :=
  alignRight 5 (Numeral.integer r.id) ++ "  ".toList ++ alignLeft 8 r.kind.name ++ [' '] ++
    alignLeft 8 (if r.enabled then "enabled".toList else "disabled".toList) ++ [' '] ++ r.value ++
    (match r.note with
      | none => []
      | some note => "  # ".toList ++ note)

/-- Lines with their ends. -/
def linesText (lines : List Text) : Text := lines.flatMap fun l => l ++ ['\n']

/-- A command that ends with an output, unless the store has a fault. -/
def answer {α : Type} (shown : α → Text) : Except Store.Fault α → Ending
  | .ok a => .done (shown a) []
  | .error f => .failed (.ofFault f)

/-- The line about a number: what was done, and to which. -/
def doneLine (what : String) (id : Int) : Text :=
  linesText [what.toList ++ Numeral.integer id]

/-- Shows the newest verdicts, and on the side how many there are. -/
def showVerdicts (limit : Int) (now : Time.Timestamp) (d : Database) : Ending :=
  match d.recent limit 0 now with
  | .error f => .failed (.ofFault f)
  | .ok entries =>
    match d.counts with
    | .error f => .failed (.ofFault f)
    | .ok c =>
      .done (linesText (entries.map fun e => e.json.render))
        (linesText ["blocked: ".toList ++ Numeral.decimal c.blocked ++ ", passed: ".toList ++
          Numeral.decimal c.passed])

/-- Removes old verdicts. -/
def pruneVerdicts (days : Int) (now : Time.Timestamp) (d : Database) : Ending × Database :=
  match d.prune days now with
  | (.crashed, d) => (.crashed, d)
  | (.done result, d) =>
    (answer (fun n => linesText ["Deleted ".toList ++ Numeral.decimal n ++ " verdicts".toList])
      result, d)

/-- Replays a capture on the store, shows the journal and logs it if asked to. Without room for the
    cache of answers the command breaks off. -/
def replayCapture (config : Config) (file : Text) (data : Except ReadFault Bytes) (log : Bool)
    (now : Time.Moment) (d : Database) : Ending × Database :=
  match Capture.ofFile data with
  | .error f =>
    (.failed (Failure.during ("Failed to read capture ".toList ++ file)
      { message := f.message, causes := [f.cause] }), d)
  | .ok os =>
    match State.start? config d with
    | none => (.crashed, d)
    | some s =>
      let s := (Capture.replay Database.backend now os s).2
      let d := if log then (Store.Journal.record s.published (0, s.world)).2 else s.world
      (.done (linesText (Verdict.Journal.lines s.published)) [], d)

/-- Carries out a command on an open store. -/
def carryOut (command : Command) (config : Config) (capture : Except ReadFault Bytes)
    (now : Time.Moment) (d : Database) : Ending × Database :=
  match command with
  | .addRule kind value note =>
    match d.addRule kind value note now.wall with
    | (result, d) => (answer (doneLine "Added rule ") result, d)
  | .listRules kind =>
    (answer (fun rules => linesText (rules.map ruleLine)) (d.listRules kind now.wall), d)
  | .removeRule id =>
    match d.removeRule id with
    | (result, d) => (answer (fun _ => doneLine "Removed rule " id) result, d)
  | .switchRule id on =>
    match d.setRuleEnabled id on with
    | (result, d) => (answer (fun _ => []) result, d)
  | .replay file log => replayCapture config file capture log now d
  | .verdicts limit => (showVerdicts limit now.wall d, d)
  | .prune days => pruneVerdicts days now.wall d

/-! ## 3. Runs -/

/-- The files of a run, or why they cannot be had. -/
structure Files where
  /-- The store, opened. -/
  store : Except Store.Fault Database
  /-- The file of the configuration, if the run names one. -/
  config : Except ReadFault Bytes
  /-- The capture, if the run replays one. -/
  capture : Except ReadFault Bytes

/-- The configuration of a run. -/
def configOf (inv : Invocation) (files : Files) : Except Failure Config :=
  match inv.config with
  | none => .ok Config.defaults
  | some path =>
    match Config.ofFile files.config with
    | .ok c => .ok c
    | .error f =>
      .error (Failure.during ("Failed to load config from ".toList ++ path)
        { message := f.message, causes := f.cause?.toList })

/-- A run: what it shows, and the tables that it leaves in the store if that could be opened. -/
def execute (inv : Invocation) (files : Files) (now : Time.Moment) : Report × Option Tables :=
  match files.store with
  | .error f =>
    ((Ending.failed (Failure.during "Failed to open database".toList (.ofFault f))).report, none)
  | .ok d =>
    match configOf inv files with
    | .error f => ((Ending.failed f).report, some d.tables)
    | .ok config =>
      match carryOut inv.command config files.capture now d with
      | (ending, d) => (ending.report, some d.tables)

/-- **A store that cannot be opened ends the run at once**, and nothing is left in it. -/
theorem execute_store_error {inv : Invocation} {files : Files} {f : Store.Fault}
    (h : files.store = .error f) (now : Time.Moment) :
    (execute inv files now).1.exit = 1 ∧ (execute inv files now).2 = none := by
  simp [execute, h, Ending.report]

/-- The version that is shown. -/
def versionText : Text := "netsieve 0.3.0\n".toList

/-- What is shown to someone who asks for help. -/
def helpText : Text :=
  linesText
    ["Usage: netsieve [OPTIONS] <COMMAND>".toList, [],
      "Commands:".toList,
      "  rules add <TYPE> <VALUE> [--note <NOTE>]".toList,
      "  rules list [--type <TYPE>]".toList,
      "  rules remove|enable|disable <ID>".toList,
      "  replay <CAPTURE> [--no-log]".toList,
      "  verdicts [--limit <LIMIT>]".toList,
      "  prune <DAYS>".toList, [],
      "Options: --config <FILE>, --db <FILE>, --debug, --log-level <LEVEL>".toList]

/-- What is shown instead of a run. -/
def Halt.report : Halt → Report
  | .version => { exit := 0, output := versionText, errors := [] }
  | .help => { exit := 0, output := helpText, errors := [] }
  | .rejected => { exit := 2, output := [], errors := helpText }

end TrafficGate.CommandLine
