import TrafficGate.Json.Parse
import TrafficGate.Json.Render
import TrafficGate.Store.Database
import TrafficGate.Text.Base64
/-!
  # Snapshots

  The tables of a store as the text of a file, and back: JSON, with the rows as lists of their
  columns and bodies in base 64.

  1. rows;
  2. tables.

  Main facts: **`ruleRow?_ruleRowJson`** and **`logRow?_logRowJson`** (a row is read back).
-/

namespace TrafficGate.Store.Snapshot

/-! ## 1. Rows -/

/-- The row of a rule. -/
def ruleRowJson (r : RuleRow) : Json :=
  .arr [.int r.id, .text r.kindName, .text r.value, .int r.enabled, .ofOption .text r.note,
    .text r.createdAt]

/-- Reads the row of a rule. -/
def ruleRow? : Json → Option RuleRow
  | .arr [id, kindName, value, enabled, note, createdAt] => do
    some { id := ← id.int?, kindName := ← kindName.text?, value := ← value.text?,
           enabled := ← enabled.int?, note := ← Json.orNull Json.text? note,
           createdAt := ← createdAt.text? }
  | _ => none

/-- **The row of a rule is read back.** -/
theorem ruleRow?_ruleRowJson (r : RuleRow) : ruleRow? (ruleRowJson r) = some r := by
  simp [ruleRow?, ruleRowJson, Json.int?_int, Json.orNull_ofOption_text, Json.text, Json.text?]

/-- The row of a body. -/
def blobRowJson (b : StoredBlob) : Json :=
  .arr [.text b.hash, .text b.mimeType, .int b.size, .text (Base64.encode b.data)]

/-- Reads the row of a body. -/
def blobRow? : Json → Option StoredBlob
  | .arr [hash, mimeType, size, data] => do
    some { hash := ← hash.text?, mimeType := ← mimeType.text?, size := ← size.int?,
           data := ← (Base64.decode (Utf8.encode (← data.text?))).toOption }
  | _ => none

/-- The row of a verdict. -/
def logRowJson (r : LogRow) : Json :=
  .arr [.int r.id, .text r.transport, .text r.classification, .text r.method, .text r.url,
    .text r.canonical, .ofOption .int r.status, .ofOption .text r.ruleKind,
    .ofOption .text r.ruleValue, .ofOption .text r.dnsHost, .ofOption .text r.requestBlob,
    .ofOption .text r.responseBlob, .text r.createdAt]

/-- Reads the row of a verdict. -/
def logRow? : Json → Option LogRow
  | .arr [id, transport, classification, method, url, canonical, status, ruleKind, ruleValue,
      dnsHost, requestBlob, responseBlob, createdAt] => do
    some { id := ← id.int?, transport := ← transport.text?,
           classification := ← classification.text?, method := ← method.text?,
           url := ← url.text?, canonical := ← canonical.text?,
           status := ← Json.orNull Json.int? status, ruleKind := ← Json.orNull Json.text? ruleKind,
           ruleValue := ← Json.orNull Json.text? ruleValue, dnsHost := ← Json.orNull Json.text? dnsHost,
           requestBlob := ← Json.orNull Json.text? requestBlob,
           responseBlob := ← Json.orNull Json.text? responseBlob, createdAt := ← createdAt.text? }
  | _ => none

/-- **The row of a verdict is read back.** -/
theorem logRow?_logRowJson (r : LogRow) : logRow? (logRowJson r) = some r := by
  simp [logRow?, logRowJson, Json.int?_int, Json.orNull_ofOption_text, Json.orNull_ofOption_int, Json.text,
    Json.text?]

/-! ## 2. Tables -/

/-- Numbered rows with the last number that was given. -/
def numberedJson {α : Type} (row : α → Json) (lastId : Int) (rows : List α) : Json :=
  .arr [.int lastId, .arr (rows.map row)]

/-- Reads numbered rows. -/
def numbered? {α : Type} (row? : Json → Option α) : Json → Option (Int × List α)
  | .arr [lastId, .arr rows] => do some (← lastId.int?, ← rows.mapM row?)
  | _ => none

/-- The tables as JSON. -/
def json (t : Tables) : Json :=
  .arr [.int t.version, numberedJson ruleRowJson t.rules.lastId t.rules.rows,
    .arr (t.blobs.rows.map blobRowJson),
    .ofOption (fun l : Log => numberedJson logRowJson l.lastId l.rows) t.log]

/-- Reads the tables of a JSON value. -/
def ofJson? : Json → Option Tables
  | .arr [version, rules, .arr blobs, log] => do
    let (ruleId, rules) ← numbered? ruleRow? rules
    let log ← Json.orNull (numbered? logRow?) log
    some { version := ← version.int?, rules := { rows := rules, lastId := ruleId },
           blobs := { rows := ← blobs.mapM blobRow? },
           log := log.map fun p => { rows := p.2, lastId := p.1 } }
  | _ => none

/-- The tables as the bytes of a file. -/
def write (t : Tables) : Bytes := Utf8.encode (json t).render

/-- The tables of a file. An empty file has none. -/
def read (file : Bytes) : Except Fault (Option Tables) :=
  if file.isEmpty then .ok none
  else
    match ((Utf8.decode? file).bind Json.parse?).bind ofJson? with
    | some t => .ok (some t)
    | none => .error .refused

end TrafficGate.Store.Snapshot
