import TrafficGate.Proofs.LoggedVerdicts
import TrafficGate.Proofs.Acts
import TrafficGate.Proofs.Repetitions
/-!
  # The log of a run

  An engine submits verdicts to its dispatcher, which passes over repetitions and publishes every
  other verdict as a pair of copies. Of each pair one copy is on the channel of all verdicts, so the
  log of a run has one row for each submission that was not passed over.

  1. `sift` -- the submissions that are published, and `Told` -- how they are;
  2. `Tells` -- a stretch of a run with its submissions, and the acts of a call as such;
  3. operations, and `Dispatched` -- a run with what it published;
  4. writing and logging what a run published.

  Main facts: **`HandlesAll.tells`**, **`tells_ingress`**, **`Dispatched.length_written`** and
  **`Works.logs_once`**.
-/

namespace TrafficGate

open Http TrafficGate.Stream Exchange Rule Verdict

/-! ## 1. Submissions -/

namespace Verdict

/-- The submissions that are no repetitions, one after the other, and the dispatcher behind them. -/
def Dispatcher.sift : List Submission → Dispatcher → List Submission × Dispatcher
  | [], d => ([], d)
  | c :: rest, d =>
    let (first, d) := d.firstSeen c.request
    let (fresh, d) := d.sift rest
    (if first then c :: fresh else fresh, d)

/-- **What is seen first is no repetition of what follows.** -/
theorem Dispatcher.sift_append (a b : List Submission) (d : Dispatcher) :
    d.sift (a ++ b) =
      ((d.sift a).1 ++ ((d.sift a).2.sift b).1, ((d.sift a).2.sift b).2) := by
  induction a generalizing d with
  | nil => rfl
  | cons c a ih =>
    simp only [List.cons_append, sift, ih]
    split <;> rfl

/-- The copies of a verdict: one on the channel of its classification, one on that of all. -/
def Submission.Told (c : Submission) (copies : List Event) : Prop :=
  ∃ requestBody responseBody,
    let copy (channel : Channel) : Event :=
      Event.of c.request c.response c.matched requestBody responseBody channel c.now
    copies = [copy (Classification.ofMatch c.matched).channel, copy .all]

/-- **One copy of a verdict is written.** -/
theorem Submission.Told.length_written {c : Submission} {copies : List Event} (h : c.Told copies) :
    (Journal.written copies).length = 1 := by
  obtain ⟨requestBody, responseBody, rfl⟩ := h
  cases c.matched <;> rfl

theorem length_written_flatten {fresh : List Submission} {groups : List (List Event)}
    (h : List.Forall₂ Submission.Told fresh groups) :
    (Journal.written groups.flatten).length = fresh.length := by
  induction h with
  | nil => rfl
  | cons hone _ ih =>
    have hcopies := hone.length_written
    unfold Journal.written at *
    rw [List.flatten_cons, List.filter_append, List.length_append, hcopies, ih, List.length_cons,
      Nat.add_comm]

end Verdict

namespace Engine

variable {W : Type}

namespace State

/-! ## 2. Acts -/

/-- From one state to another these verdicts are submitted, and published but for repetitions. -/
structure Tells (s : State W) (submitted : List Submission) (t : State W) : Prop where
  dispatcher : t.dispatcher = (s.dispatcher.sift submitted).2
  published : ∃ groups, t.published = s.published ++ groups.flatten ∧
    List.Forall₂ Submission.Told (s.dispatcher.sift submitted).1 groups

/-- Where nothing is submitted nothing is published. -/
theorem Tells.nil {s t : State W} (hdispatcher : t.dispatcher = s.dispatcher)
    (hpublished : t.published = s.published) : Tells s [] t where
  dispatcher := hdispatcher
  published := ⟨[], hpublished.trans (List.append_nil _).symm, .nil⟩

/-- **Stretches are joined.** -/
theorem Tells.trans {s t u : State W} {a b : List Submission} (h : Tells s a t)
    (h' : Tells t b u) : Tells s (a ++ b) u := by
  obtain ⟨before, hbefore, htold⟩ := h.published
  obtain ⟨behind, hbehind, htold'⟩ := h'.published
  have hsift := Dispatcher.sift_append a b s.dispatcher
  rw [← h.dispatcher] at hsift
  refine ⟨?dispatcher, before ++ behind, ?published, ?told⟩
  case dispatcher => rw [h'.dispatcher, hsift]
  case published => rw [hbehind, hbefore, List.flatten_append, List.append_assoc]
  case told =>
    rw [hsift]
    exact List.rel_append htold htold'

/-- **Dispatching a verdict submits it.** -/
theorem tells_dispatch (backend : Backend W) (now : Time.Moment) (request : Request)
    (response : Option Response) (matched : Option Rule) (s : State W) :
    Tells s [⟨now.wall, request, response, matched⟩]
      (s.dispatch backend now request response matched).2 := by
  unfold dispatch Dispatcher.dispatch
  cases hf : s.dispatcher.firstSeen request with
  | mk first d =>
    cases first with
    | false =>
      refine ⟨?_, [], ?_, ?_⟩
      · simp only [Dispatcher.sift, hf]
      · rfl
      · simp only [Dispatcher.sift, hf]
        exact .nil
    | true =>
      refine ⟨?_, [_], congrArg (s.published ++ ·) (List.append_nil _).symm, ?_⟩
      · simp only [Dispatcher.sift, hf]
      · simp only [Dispatcher.sift, hf]
        exact .cons ⟨_, _, rfl⟩ .nil

/-- The verdict that an act submits. -/
def Act.submits (now : Time.Moment) (a : Act) : List Submission :=
  match a.verdict? with
  | some (request, response, matched) => [⟨now.wall, request, response, matched⟩]
  | none => []

section Handling

variable {backend : Backend W} {now : Time.Moment} {flow : FlowId} {side : Side}
  {snapshot : Option Text} {s t : State W} {f : Framed} {fs : List Framed} {a : Act}
  {as : List Act}

theorem tells_of_lookUp {value : Text} {found : Outcome (Option Rule)}
    (h : s.lookUp backend now value = (found, t)) : Tells s [] t := by
  obtain rfl : t = (s.lookUp backend now value).2 := by rw [h]
  exact .nil rfl rfl

/-- **Handling an entry submits the verdict of its act.** -/
theorem Handles.tells (h : Handles backend now flow snapshot s f side a t) :
    Tells s (a.submits now) t := by
  cases h with
  | unusable | announce | unasked => exact .nil rfl rfl
  | wait _ hl | breakOff _ hl | breakOffOldest _ _ hl =>
    have hnone := tells_of_lookUp hl
    exact ⟨hnone.dispatcher, hnone.published⟩
  | block _ hl => exact (tells_of_lookUp hl).trans (tells_dispatch backend now _ _ _ _)
  | conclude _ _ hl =>
    have hnone := tells_of_lookUp hl
    have htaken : Tells s [] _ := ⟨hnone.dispatcher, hnone.published⟩
    exact htaken.trans (tells_dispatch backend now _ _ _ _)

/-- **A call submits the verdicts of its acts**, in their order. -/
theorem HandlesAll.tells (h : HandlesAll backend now flow side snapshot s fs as t) :
    Tells s (as.flatMap (Act.submits now)) t := by
  induction h with
  | nil s => exact .nil rfl rfl
  | cons h _ _ ih => exact h.tells.trans ih
  | breakOff h _ =>
    rw [List.flatMap_cons, List.flatMap_nil, List.append_nil]
    exact h.tells

end Handling

/-! ## 3. Operations -/

/-- The verdict that judging a request submits, unless the look-up breaks off. -/
def judged (backend : Backend W) (now : Time.Moment) (request : Request)
    (response : Option Response) (value : Text) (s : State W) : List Submission :=
  match (s.lookUp backend now value).1 with
  | .done matched => [⟨now.wall, request, response, matched⟩]
  | .crashed => []

/-- The verdicts that an operation submits. -/
def submissions (backend : Backend W) (now : Time.Moment) (i : Ingress) (s : State W) :
    List Submission :=
  match i with
  | .bytes flow side bytes snapshot =>
    (s.callActs backend now flow side snapshot bytes).flatMap (Act.submits now)
  | .call call =>
    s.judged backend now (call.request s.config) (call.response.map (trimResponse s.config))
      (call.request s.config).canonical
  | .resolution host addresses snapshot =>
    let host := Text.trim host
    if host.isEmpty || addresses.isEmpty then []
    else s.judged backend now (resolution host addresses snapshot) none host
  | .closed _ | .pressure => []

section Operations

variable (backend : Backend W) (now : Time.Moment) (s : State W)

theorem tells_judge (request : Request) (response : Option Response) (value : Text) :
    Tells s (s.judged backend now request response value)
      (settle (s.judge backend now request response value)).2 := by
  unfold judged judge
  cases hl : s.lookUp backend now value with
  | mk found t =>
    cases found with
    | crashed => exact tells_of_lookUp hl
    | done matched => exact (tells_of_lookUp hl).trans (tells_dispatch backend now _ _ _ t)

/-- **Every operation submits its verdicts.** -/
theorem tells_ingress (i : Ingress) :
    Tells s (s.submissions backend now i) (s.ingress backend now i).2 := by
  cases i with
  | bytes flow side bytes snapshot =>
    have hcall := (handlesAll_onBytes backend now flow side snapshot s bytes).tells
    exact ⟨hcall.dispatcher, hcall.published⟩
  | call call => exact tells_judge backend now s _ _ _
  | resolution host addresses snapshot =>
    simp only [submissions, ingress, onResolution]
    split
    · exact .nil rfl rfl
    · exact tells_judge backend now s _ _ _
  | closed flow => exact .nil rfl rfl
  | pressure => exact .nil rfl rfl

end Operations

end State

/-- The states that runs reach, with the dispatches so far that were not passed over as
    repetitions. -/
inductive Dispatched (backend : Backend W) : State W → List Submission → Prop where
  | start {config : Config} {world : W} {s : State W} (hs : State.start? config world = some s) :
      Dispatched backend s []
  | ingress {s : State W} {fresh : List Submission} (h : Dispatched backend s fresh)
      (now : Time.Moment) (i : Ingress) :
      Dispatched backend (s.ingress backend now i).2
        (fresh ++ (s.dispatcher.sift (s.submissions backend now i)).1)
  | outside {s : State W} {fresh : List Submission} (h : Dispatched backend s fresh) (world : W) :
      Dispatched backend { s with world } fresh

section Runs

variable {backend : Backend W} {s : State W} {fresh : List Submission}

/-- **A run publishes the copies of what was not passed over**, and nothing else. -/
theorem Dispatched.published (h : Dispatched backend s fresh) :
    ∃ groups, s.published = groups.flatten ∧ List.Forall₂ Submission.Told fresh groups := by
  induction h with
  | start hs =>
    obtain ⟨_, _, rfl⟩ := Option.map_eq_some_iff.mp hs
    exact ⟨[], rfl, .nil⟩
  | @ingress s fresh _ now i ih =>
    obtain ⟨before, hbefore, htold⟩ := ih
    obtain ⟨behind, hbehind, htold'⟩ := (State.tells_ingress backend now s i).published
    refine ⟨before ++ behind, ?_, List.rel_append htold htold'⟩
    rw [hbehind, hbefore, List.flatten_append]
  | outside _ _ ih => exact ih

/-- **Each dispatch that was not passed over is written once.** -/
theorem Dispatched.length_written (h : Dispatched backend s fresh) :
    (Journal.written s.published).length = fresh.length := by
  obtain ⟨groups, hpublished, htold⟩ := h.published
  rw [hpublished, length_written_flatten htold]

end Runs

end Engine

/-! ## 4. Writing and logging -/

namespace Store

open Verdict.Journal (written)

/-- What the writer leaves behind of events, in a store with a log. -/
structure LoggedOnce (events : List Event) (d : Database) (l : Log) : Prop where
  /-- One line for each event on the channel of all verdicts, in their order. -/
  lines : (Journal.write events d).output =
    (written events).flatMap fun e => e.json.render ++ ['\n']
  /-- A line is JSON, and one line. -/
  json : ∀ e ∈ events, Json.parse? e.json.render = some e.json ∧ '\n' ∉ e.json.render
  /-- One row for each of them, in this order, under the next numbers. -/
  rows : (Journal.write events d).store = d.withLog
    { rows := l.rows ++ (numbered l.lastId (written events)).map fun p => LogRow.under p.1 p.2
      lastId := l.lastId + (written events).length }
  /-- The numbers increase. -/
  ordered : l.Ordered → (l.extend (written events)).Ordered
  counted : (Journal.write events d).written = (written events).length ∧
    (Journal.write events d).logged = (written events).length
  /-- The rows are read back as the fields of the events. -/
  entries : ∀ now, (Journal.write events d).store.entries now = .ok (l.entries now ++
    (numbered l.lastId (written events)).map fun p => LogEntry.ofEvent p.1 p.2)
  /-- So are the newest of them, in the order of their times. -/
  recent : ∀ now (limit : Int), limit < 0 ∨ ↑(l.rows.length + (written events).length) ≤ limit →
    ∃ found, (Journal.write events d).store.recent limit 0 now = .ok found ∧
      found.Perm (l.entries now ++
        (numbered l.lastId (written events)).map fun p => LogEntry.ofEvent p.1 p.2)
  /-- The counts grow by the events of each classification. -/
  counts : (Journal.write events d).store.counts = .ok
    { blocked :=
        l.count .blocked + ((written events).filter fun e => e.classification = .blocked).length
      passed :=
        l.count .passed + ((written events).filter fun e => e.classification = .passed).length }

theorem length_numbered (last : Int) (events : List Event) :
    (numbered last events).length = events.length := by
  induction events generalizing last with
  | nil => rfl
  | cons e events ih => rw [numbered, List.length_cons, ih, List.length_cons]

theorem Log.length_extend (l : Log) (events : List Event) :
    (l.extend events).rows.length = l.rows.length + events.length := by
  rw [extend, List.length_append, List.length_map, length_numbered]

namespace Database.Works

variable {d : Database} {l : Log} {events : List Event}

theorem loggedOnce (h : d.Works l) (he : ∀ e ∈ events, Loggable e) : LoggedOnce events d l := by
  have hwritten : ∀ e ∈ written events, Loggable e := fun e hmem => he e (List.mem_filter.mp hmem).1
  have hstore : (Journal.write events d).store = d.withLog (l.extend (written events)) := by
    rw [h.write_eq]
  have hafter := h.withLog (l.extend (written events))
  refine
    { lines := by rw [h.write_eq]
      json := fun e _ => ⟨e.parse?_json, e.newline_not_mem_json⟩
      rows := hstore
      ordered := fun hordered => hordered.extend _
      counted := by rw [h.write_eq]; exact ⟨rfl, rfl⟩
      entries := fun now => ?entries
      recent := fun now limit hlimit => ?recent
      counts := ?counts }
  case entries => rw [hstore, hafter.entries_eq, Log.entries_extend hwritten]
  case recent =>
    rw [← Log.length_extend] at hlimit
    refine ⟨_, by rw [hstore, hafter.recent_eq], ?_⟩
    rw [← Log.entries_extend hwritten]
    exact Log.recent_perm _ hlimit now
  case counts => rw [hstore, hafter.counts_eq, Log.count_extend, Log.count_extend]

/-- **Each verdict is written and logged once**, in a store that works: for the events on the channel
    of all verdicts, and no others, there is one line and one row each, in their order. The rows are
    read back as the fields of the events, and the counts grow by them. Of a run of an engine, all of
    whose verdicts go to the writer, the log gets one row for each dispatch that was not passed over
    as a repetition. -/
theorem logs_once (h : d.Works l) (he : ∀ e ∈ events, Loggable e) :
    LoggedOnce events d l ∧
      ∀ {W : Type} {backend : Engine.Backend W} {s : Engine.State W} {fresh : List Submission},
        Engine.Dispatched backend s fresh →
          (Journal.write s.published d).logged = fresh.length ∧
            ∃ l' : Log, (Journal.write s.published d).store = d.withLog l' ∧
              l'.rows.length = l.rows.length + fresh.length := by
  refine ⟨h.loggedOnce he, ?_⟩
  intro W backend s fresh hrun
  have hlength := hrun.length_written
  rw [h.write_eq]
  refine ⟨hlength, l.extend (written s.published), rfl, ?_⟩
  rw [Log.length_extend, hlength]

end Database.Works

/-- Of two requests in one piece, at the beginning of 2024, the first is blocked and logged. -/
theorem logs_once_two_paths :
    ∃ s fresh, Engine.Dispatched Engine.memory s fresh ∧ fresh.length = 1 ∧
      Database.inMemory.Works Log.empty ∧ (∀ e ∈ s.published, Loggable e) ∧
      LoggedOnce s.published Database.inMemory Log.empty ∧
      (Journal.write s.published Database.inMemory).logged = 1 := by
  obtain ⟨s, hs⟩ : ∃ s, Engine.State.start? Engine.Config.defaults
      (Engine.ruledPath, Shelf.empty) = some s := ⟨_, rfl⟩
  have hrun : Engine.Dispatched Engine.memory _ _ :=
    (Engine.Dispatched.start hs).ingress ⟨⟨1704067200, 0⟩, 0⟩
      (.bytes ⟨7, false⟩ .request Engine.twoPaths none)
  have hcomputed : ((Engine.State.start? Engine.Config.defaults
      (Engine.ruledPath, Shelf.empty)).all fun s =>
        let i := .bytes ⟨7, false⟩ .request Engine.twoPaths none
        decide (([] ++ (s.dispatcher.sift
          (s.submissions Engine.memory ⟨⟨1704067200, 0⟩, 0⟩ i)).1).length = 1 ∧
            ∀ e ∈ (s.ingress Engine.memory ⟨⟨1704067200, 0⟩, 0⟩ i).2.published,
              Loggable e)) = true := by
    decide +kernel
  rw [hs, Option.all_some] at hcomputed
  obtain ⟨hone, hloggable⟩ := of_decide_eq_true hcomputed
  have hworks : Database.inMemory.Works Log.empty := ⟨rfl, nofun, rfl⟩
  obtain ⟨honce, hengine⟩ := hworks.logs_once hloggable
  exact ⟨_, _, hrun, hone, hworks, hloggable, honce, (hengine hrun).1.trans hone⟩

end Store

end TrafficGate
