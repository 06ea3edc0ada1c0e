import TrafficGate.CommandLine.Session
import TrafficGate.Proofs.JsonTexts
import TrafficGate.Proofs.NamedUrls
import TrafficGate.Proofs.RuleStores
import TrafficGate.Proofs.WrittenTimes
/-!
  # Verdicts are written and logged once

  The writer takes one event after the other. A copy on the channel of all verdicts is a line of the
  output and a row of the log, any other copy is passed over. Both forms keep the event: the line is
  the JSON of it, and the row is read back as its fields.

  1. `Writing` and `writeOne` -- the writer, and what it comes to;
  2. lines: JSON that is read back, without line ends inside;
  3. rows: what is read back from the row of an event;
  4. `Works` -- a store that can be written and read, with a log -- and logging one event in it;
  5. logging all events: the rows, the entries, the counts.

  Main facts: **`write_eq`**, **`parse?_json`**, **`read?_under`** and **`record_eq`**.
-/

namespace TrafficGate

open Verdict

/-! ## 1. The writer -/

namespace Store.Journal

/-- What the writer has written and logged so far, and the store that it logs in. -/
structure Writing where
  output : Text
  written : Nat
  logged : Nat
  store : Database

/-- The writer before the first event. -/
def Writing.start (d : Database) : Writing := { output := [], written := 0, logged := 0, store := d }

/-- The writer takes an event. -/
def writeOne (w : Writing) (e : Event) : Writing :=
  if Verdict.Journal.isWritten e then
    { output := w.output ++ (e.json.render ++ ['\n'])
      written := w.written + 1
      logged := (recordOne (w.logged, w.store) e).1
      store := (recordOne (w.logged, w.store) e).2 }
  else w

/-- The writer takes all events. -/
def write (events : List Event) (d : Database) : Writing :=
  events.foldl writeOne (Writing.start d)

theorem foldl_writeOne (events : List Event) (w : Writing) :
    events.foldl writeOne w =
      { output := w.output ++ CommandLine.linesText (Verdict.Journal.lines events)
        written := w.written + (Verdict.Journal.written events).length
        logged := (record events (w.logged, w.store)).1
        store := (record events (w.logged, w.store)).2 } := by
  induction events generalizing w with
  | nil => simp [Verdict.Journal.lines, Verdict.Journal.written, CommandLine.linesText, record]
  | cons e events ih =>
    rw [List.foldl_cons, ih, writeOne]
    by_cases he : Verdict.Journal.isWritten e = true
    · simp [he, Verdict.Journal.lines, Verdict.Journal.written, CommandLine.linesText, record,
        Nat.add_comm, Nat.add_left_comm]
    · simp [he, Verdict.Journal.lines, Verdict.Journal.written, record]

/-- **The writer writes the lines of the journal and logs its events.** -/
theorem write_eq (events : List Event) (d : Database) :
    write events d =
      { output := CommandLine.linesText (Verdict.Journal.lines events)
        written := (Verdict.Journal.written events).length
        logged := (record events (0, d)).1
        store := (record events (0, d)).2 } := by
  rw [write, foldl_writeOne]
  simp [Writing.start]

end Store.Journal

/-! ## 2. Lines -/

namespace Verdict

open Json

theorem writable_flowJson (f : FlowId) : (flowJson f).Writable := by
  refine .record ?_
  simp only [List.forall_mem_cons]
  exact ⟨.nat _, .bool _, nofun⟩

theorem writable_ruleJson (r : Rule) : (ruleJson r).Writable := by
  refine .record ?_
  simp only [List.forall_mem_cons]
  exact ⟨.text _, .text _, nofun⟩

theorem BodyRef.writable_json (b : BodyRef) : b.json.Writable := by
  cases b with
  | inPlace bytes =>
    refine .record ?_
    simp only [List.forall_mem_cons]
    refine ⟨.text _, .arr fun v hv => ?_, nofun⟩
    obtain ⟨b, -, rfl⟩ := List.mem_map.mp hv
    exact .nat _
  | stored handle mimeType size =>
    refine .record ?_
    simp only [List.forall_mem_cons]
    exact ⟨.text _, .text _, .text _, .nat _, nofun⟩

namespace Event

theorem writable_json (e : Event) : e.json.Writable := by
  refine .record ?_
  simp only [List.forall_mem_cons]
  refine ⟨.ofOption writable_flowJson _, .text _, .text _, .text _, .text _, .text _, .text _,
    .text _, .ofOption .text _, .ofOption .nat _, .ofOption .text _, .ofOption .text _,
    .ofOption writable_ruleJson _, .ofOption BodyRef.writable_json _,
    .ofOption BodyRef.writable_json _, .ofOption .text _, .ofOption .text _,
    .arr fun v hv => ?_, .text _, nofun⟩
  obtain ⟨address, -, rfl⟩ := List.mem_map.mp hv
  exact .text _

/-- **A line is the JSON of its event.** -/
theorem parse?_json (e : Event) : parse? e.json.render = some e.json :=
  parse?_render e.writable_json

/-- **A line has no line end inside.** -/
theorem newline_not_mem_json (e : Event) : '\n' ∉ e.json.render := fun h =>
  absurd (visible_render e.writable_json '\n' h) (by decide)

end Event

end Verdict

/-! ## 3. Rows -/

theorem Transport.parse?_name (x : Transport) : parse? x.name = some x := by cases x <;> decide

namespace Store

/-- An event whose time has a year of four digits and whose status has 16 bits. -/
structure Loggable (e : Event) : Prop where
  time : e.timestamp.Usual
  status : ∀ n ∈ e.status, n < 65536

instance (e : Event) : Decidable (Loggable e) :=
  decidable_of_iff (_ ∧ _) ⟨fun h => ⟨h.1, h.2⟩, fun h => ⟨h.time, h.status⟩⟩

/-- The row of an event under a number. -/
def LogRow.under (id : Int) (e : Event) : LogRow := { LogRow.ofEvent e with id }

/-- What the log keeps of an event, under a number. -/
def LogEntry.ofEvent (id : Int) (e : Event) : LogEntry :=
  { id, transport := e.transport, classification := e.classification, method := e.method,
    url := e.url, canonical := e.canonical, status := e.status, rule := e.matched,
    dnsHost := e.dnsHost, requestBlob := e.requestBody.bind BodyRef.handle?,
    responseBlob := e.responseBody.bind BodyRef.handle?, createdAt := e.timestamp.toMicros }

/-- **The row of an event is read back as its fields.** -/
theorem read?_under {e : Event} (h : Loggable e) (id : Int) (now : Time.Timestamp) :
    (LogRow.under id e).read? now = some (LogEntry.ofEvent id e) := by
  have hstatus : (LogRow.under id e).status? = some e.status := by
    cases hs : e.status with
    | none => simp [LogRow.status?, LogRow.under, LogRow.ofEvent, hs]
    | some n =>
      have hn := h.status n hs
      have hrow : (LogRow.under id e).status = some (n : Int) := by
        simp [LogRow.under, LogRow.ofEvent, hs]
      rw [LogRow.status?, hrow]
      simp only []
      rw [if_pos (by omega), Int.toNat_natCast]
  have hrule : (LogRow.under id e).rule? = e.matched := by
    cases hm : e.matched with
    | none => simp [LogRow.rule?, LogRow.under, LogRow.ofEvent, hm]
    | some r => simp [LogRow.rule?, LogRow.under, LogRow.ofEvent, hm, Rule.Kind.parse?_name]
  have htime : readTime now (LogRow.under id e).createdAt = e.timestamp.toMicros := by
    simp only [readTime, LogRow.under, LogRow.ofEvent, h.time.read?_micros]
  rw [LogRow.read?, hstatus, Option.map_some, hrule, htime]
  simp [LogRow.under, LogRow.ofEvent, LogEntry.ofEvent, Transport.parse?_name,
    Classification.ofName?_name]

/-! ## 4. One event -/

/-- The events with the numbers behind a given one. -/
def numbered (last : Int) : List Event → List (Int × Event)
  | [] => []
  | e :: events => (last + 1, e) :: numbered (last + 1) events

/-- The log with rows for the events. -/
def Log.extend (events : List Event) (l : Log) : Log :=
  { rows := l.rows ++ (numbered l.lastId events).map fun p => LogRow.under p.1 p.2
    lastId := l.lastId + events.length }

theorem Log.extend_nil (l : Log) : l.extend [] = l := by
  simp [extend, numbered]

theorem Log.extend_cons (e : Event) (events : List Event) (l : Log) :
    (l.append (LogRow.ofEvent e)).2.extend events = l.extend (e :: events) := by
  simp only [extend, append, numbered, List.map_cons, List.length_cons, List.append_assoc,
    List.singleton_append, LogRow.under, Log.mk.injEq, true_and]
  omega

/-- A log whose rows stand by their numbers, with no number left to be given again. -/
structure Log.Ordered (l : Log) : Prop where
  ids : l.rows.Pairwise fun a b => a.id < b.id
  given : ∀ row ∈ l.rows, row.id ≤ l.lastId

theorem Log.Ordered.append {l : Log} (h : l.Ordered) (row : LogRow) : (l.append row).2.Ordered where
  ids := by
    refine List.pairwise_append.mpr ⟨h.ids, List.pairwise_singleton _ _, fun a ha b hb => ?_⟩
    obtain rfl := List.mem_singleton.mp hb
    exact Int.lt_add_one_of_le (h.given a ha)
  given := by
    intro a ha
    rcases List.mem_append.mp ha with hold | hnew
    · exact Int.le_trans (h.given a hold) (Int.le_add_one (Int.le_refl _))
    · obtain rfl := List.mem_singleton.mp hnew
      exact Int.le_refl _

/-- **The rows of events get increasing numbers.** -/
theorem Log.Ordered.extend {l : Log} (h : l.Ordered) (events : List Event) :
    (l.extend events).Ordered := by
  induction events generalizing l with
  | nil => rwa [Log.extend_nil]
  | cons e events ih =>
    rw [← Log.extend_cons]
    exact ih (h.append _)

/-- A store that is written and read through connections that work, with a log. -/
structure Database.Works (d : Database) (l : Log) : Prop where
  writer : d.writer = .anything
  reader : d.reader ≠ .blind
  log : d.tables.log = some l

/-- The store with another log. -/
def Database.withLog (l : Log) (d : Database) : Database :=
  { d with tables := { d.tables with log := some l } }

namespace Database.Works

variable {d : Database} {l : Log}

theorem readable (h : d.Works l) : d.Readable := readable_of_anything h.writer h.reader

theorem withLog (h : d.Works l) (l' : Log) : (d.withLog l').Works l' := ⟨h.writer, h.reader, rfl⟩

/-- **An event on the channel of all verdicts is logged**: it gets the next number and a row. -/
theorem record_all (h : d.Works l) {e : Event} (he : e.channel = .all) :
    d.record e = (.ok (some (l.lastId + 1)), d.withLog (l.append (LogRow.ofEvent e)).2) := by
  rw [Database.record, if_pos he, recordThrough]
  simp only [if_pos he, write, h.writer, onLog, h.log, Log.record]
  rw [← h.writer]
  rfl

theorem recordOne_all (h : d.Works l) {e : Event} (he : e.channel = .all) (n : Nat) :
    Journal.recordOne (n, d) e = (n + 1, d.withLog (l.append (LogRow.ofEvent e)).2) := by
  rw [Journal.recordOne, h.record_all he]

/-! ## 5. All events -/

theorem foldl_recordOne {events : List Event} (hall : ∀ e ∈ events, e.channel = .all)
    (h : d.Works l) (n : Nat) :
    events.foldl Journal.recordOne (n, d) = (n + events.length, d.withLog (l.extend events)) := by
  induction events generalizing d l n with
  | nil =>
    rw [Log.extend_nil, Database.withLog, ← h.log]
    rfl
  | cons e events ih =>
    obtain ⟨he, hrest⟩ := List.forall_mem_cons.mp hall
    rw [List.foldl_cons, h.recordOne_all he, ih hrest (h.withLog _), Log.extend_cons,
      List.length_cons, Nat.add_right_comm, Nat.add_assoc]
    rfl

theorem channel_of_mem_written {events : List Event} {e : Event}
    (he : e ∈ Verdict.Journal.written events) : e.channel = .all :=
  of_decide_eq_true (List.mem_filter.mp he).2

/-- **Logging adds a row for each event that is written**, in their order, and nothing else. -/
theorem record_eq (h : d.Works l) (events : List Event) :
    Journal.record events (0, d) =
      ((Verdict.Journal.written events).length,
        d.withLog (l.extend (Verdict.Journal.written events))) := by
  rw [Journal.record, foldl_recordOne (fun _ => channel_of_mem_written) h, Nat.zero_add]

/-- **The writer writes and logs every event on the channel of all verdicts**, and no other. -/
theorem write_eq (h : d.Works l) (events : List Event) :
    Journal.write events d =
      { output := (Verdict.Journal.written events).flatMap fun e => e.json.render ++ ['\n']
        written := (Verdict.Journal.written events).length
        logged := (Verdict.Journal.written events).length
        store := d.withLog (l.extend (Verdict.Journal.written events)) } := by
  rw [Journal.write_eq, h.record_eq, CommandLine.linesText, Verdict.Journal.lines,
    List.flatMap_map]

theorem entries_eq (h : d.Works l) (now : Time.Timestamp) : d.entries now = .ok (l.entries now) := by
  rw [entries, read_of_readable h.readable, Tables.log?, h.log]
  rfl

theorem recent_eq (h : d.Works l) (limit offset : Int) (now : Time.Timestamp) :
    d.recent limit offset now = .ok (l.recent limit offset now) := by
  rw [recent, read_of_readable h.readable, Tables.log?, h.log]
  rfl

theorem counts_eq (h : d.Works l) :
    d.counts = .ok { blocked := l.count .blocked, passed := l.count .passed } := by
  rw [counts, read_of_readable h.readable, Tables.log?, h.log]
  rfl

end Database.Works

namespace Log

/-- **The entries of the rows are those of the events.** -/
theorem entries_extend {events : List Event} (h : ∀ e ∈ events, Loggable e) (l : Log)
    (now : Time.Timestamp) :
    (l.extend events).entries now =
      l.entries now ++ (numbered l.lastId events).map fun p => LogEntry.ofEvent p.1 p.2 := by
  rw [entries, extend, List.filterMap_append]
  congr 1
  generalize l.lastId = last
  induction events generalizing last with
  | nil => rfl
  | cons e events ih =>
    obtain ⟨he, hrest⟩ := List.forall_mem_cons.mp h
    rw [numbered, List.map_cons, List.filterMap_cons, read?_under he, ih hrest, List.map_cons]

/-- **All newest entries are the entries**, in the order of their times. -/
theorem recent_perm (l : Log) {limit : Int} (h : limit < 0 ∨ l.rows.length ≤ limit)
    (now : Time.Timestamp) : (l.recent limit 0 now).Perm (l.entries now) := by
  have hall : takeInt limit ((l.rows.mergeSort newerFirst).drop (0 : Int).toNat) =
      l.rows.mergeSort newerFirst := by
    rw [takeInt, Int.toNat_zero, List.drop_zero]
    split
    · rfl
    · rw [List.take_of_length_le]
      rw [List.length_mergeSort]
      omega
  rw [recent, hall, entries]
  exact (List.mergeSort_perm l.rows newerFirst).filterMap _

/-- **The rows of a classification are those of its events.** -/
theorem count_extend (c : Classification) (events : List Event) (l : Log) :
    (l.extend events).count c =
      l.count c + (events.filter fun e => e.classification = c).length := by
  have hname (e : Event) (id : Int) :
      ((LogRow.under id e).classification == c.name) = decide (e.classification = c) := by
    simp only [LogRow.under, LogRow.ofEvent]
    cases e.classification <;> cases c <;> rfl
  rw [count, extend, List.filter_append, List.length_append, count]
  congr 1
  generalize l.lastId = last
  induction events generalizing last with
  | nil => rfl
  | cons e events ih =>
    rw [numbered, List.map_cons, List.filter_cons, List.filter_cons, hname]
    split
    · rw [List.length_cons, List.length_cons, ih]
    · exact ih _

end Log

end Store

end TrafficGate
