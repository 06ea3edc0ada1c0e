import TrafficGate.Store.Database
/-!
  # Requests that fail

  What a request to an open store leaves behind when it is not carried out. A request that is
  answered with a fault changes nothing, so that all later ones are answered as if it had not been
  made. A request that breaks off changes no table either, but the connection that writes is not
  used again: every later request through it is a fault.

  1. `Request` and `perform` -- the requests that an open store takes, with all their arguments;
  2. faults: a request that is refused leaves the store as it was;
  3. breaking off: only a span of days that is not handled does, and what it costs;
  4. every request.

  Main facts: **`snd_perform_of_error`**, **`perform_poisoned`** and **`perform_failed`**.
-/

namespace TrafficGate.Store

open Verdict

namespace Database

/-! ## 1. Requests -/

/-- A request to an open store. -/
inductive Request where
  | addRule (kind : Rule.Kind) (value : Text) (note : Option Text)
  | getRule (id : Int)
  | listRules (kind : Option Rule.Kind)
  | setRuleEnabled (id : Int) (on : Bool)
  | removeRule (id : Int)
  | findMatch (kind : Rule.Kind) (value : Text)
  | putBlob (data : Bytes) (mimeType : Text)
  | getBlob (hash : Text)
  | record (e : Event)
  | recent (limit offset : Int)
  | counts
  | prune (days : Int)
  deriving DecidableEq, Repr

/-- What a request is answered with. -/
inductive Answer where
  | done
  | number (n : Int)
  | rule (r : Option StoredRule)
  | rules (rs : List StoredRule)
  | found (r : Option Rule)
  | hash (t : Text)
  | blob (b : Option StoredBlob)
  | logged (id : Option Int)
  | entries (es : List LogEntry)
  | counts (c : Counts)
  deriving DecidableEq, Repr

/-- How a request ends: with an answer or a fault, or it breaks off. -/
abbrev Result := Rule.Outcome (Except Fault Answer)

namespace Request

/-- A request that changes the store, with its answer. -/
def writing {α : Type} (answer : α → Answer) (r : Except Fault α × Database) : Result × Database :=
  (.done (r.1.map answer), r.2)

/-- A request that leaves the store as it is, with its answer. -/
def reading {α : Type} (answer : α → Answer) (r : Except Fault α) (d : Database) :
    Result × Database :=
  (.done (r.map answer), d)

/-- Makes a request. -/
def perform (now : Time.Timestamp) (r : Request) (d : Database) : Result × Database :=
  match r with
  | addRule kind value note => writing .number (d.addRule kind value note now)
  | getRule id => reading .rule (d.getRule id now) d
  | listRules kind => reading .rules (d.listRules kind now) d
  | setRuleEnabled id on => writing (fun _ => .done) (d.setRuleEnabled id on)
  | removeRule id => writing (fun _ => .done) (d.removeRule id)
  | findMatch kind value => reading .found (d.findMatch kind value) d
  | putBlob data mimeType => writing .hash (d.putBlob data mimeType)
  | getBlob hash => reading .blob (d.getBlob hash) d
  | record e => writing .logged (d.record e)
  | recent limit offset => reading .entries (d.recent limit offset now) d
  | counts => reading .counts d.counts d
  | prune days =>
    match d.prune days now with
    | (.done result, d) => (.done (result.map fun n : Nat => .number n), d)
    | (.crashed, d) => (.crashed, d)

/-- Makes requests one after the other, each at its time. -/
def performAll : List (Time.Timestamp × Request) → Database → List Result × Database
  | [], d => ([], d)
  | (now, r) :: rest, d =>
    let (result, d) := r.perform now d
    let (results, d) := performAll rest d
    (result :: results, d)

/-- Whether a request is one that goes through the connection that writes, in a store that is read
    through the given one. A copy that is not logged needs no connection. -/
def needsWriter (reader : Reader) : Request → Bool
  | addRule .. | setRuleEnabled .. | removeRule .. | putBlob .. | prune .. => true
  | record e => decide (e.channel = .all)
  | getRule .. | listRules .. | findMatch .. | getBlob .. | recent .. | counts =>
    decide (reader = .shared)

end Request

/-! ## 2. Faults -/

variable {α : Type} {d d' : Database} {fault : Fault}

/-- **What is refused leaves the store as it was**, if it leaves the tables as they were. -/
theorem snd_write_of_error {f : Tables → Except Fault α × Tables}
    (hf : ∀ fault, (f d.tables).1 = .error fault → (f d.tables).2 = d.tables)
    (h : (d.write f).1 = .error fault) : (d.write f).2 = d := by
  unfold write at h ⊢
  cases hw : d.writer with
  | poisoned | barred => rfl
  | anything =>
    rw [hw] at h
    simp only [] at h ⊢
    rw [hf fault h, ← hw]

theorem onRules_of_error {f : Rules → Except Fault α × Rules} {t : Tables}
    (hf : ∀ fault, (f t.rules).1 = .error fault → (f t.rules).2 = t.rules)
    (h : (onRules f t).1 = .error fault) : (onRules f t).2 = t := by
  simp only [onRules] at h ⊢
  rw [hf fault h]

theorem onLog_of_error {f : Log → α × Log} {t : Tables} (h : (onLog f t).1 = .error fault) :
    (onLog f t).2 = t := by
  unfold onLog at h ⊢
  split
  · rfl
  · next hl =>
    rw [hl] at h
    cases h

end Database

namespace Rules

variable {t : Rules} {fault : Fault}

theorem snd_insert_of_error {kind : Rule.Kind} {value : Text} {note : Option Text}
    {now : Time.Timestamp} (h : (t.insert kind value note now).1 = .error fault) :
    (t.insert kind value note now).2 = t := by
  simp only [insert] at h ⊢
  split
  · rfl
  · next hne =>
    rw [if_neg hne] at h
    split at h <;> cases h

theorem snd_setEnabled_of_error {id : Int} {on : Bool}
    (h : (t.setEnabled id on).1 = .error fault) : (t.setEnabled id on).2 = t := by
  unfold setEnabled at h ⊢
  split
  · next hany =>
    rw [if_pos hany] at h
    cases h
  · rfl

theorem snd_remove_of_error {id : Int} (h : (t.remove id).1 = .error fault) :
    (t.remove id).2 = t := by
  unfold remove at h ⊢
  split
  · next hany =>
    rw [if_pos hany] at h
    cases h
  · rfl

end Rules

namespace Database

variable {d : Database} {fault : Fault}

theorem snd_record_of_error {e : Event} (h : (d.record e).1 = .error fault) :
    (d.record e).2 = d := by
  unfold record at h ⊢
  split
  · next hall =>
    rw [if_pos hall] at h
    refine snd_write_of_error (fun _ hf => ?_) h
    rw [if_pos hall] at hf ⊢
    exact onLog_of_error hf
  · rfl

/-- Pruning either breaks off, at a span that is not handled and through a connection that is in
    use, or writes. -/
theorem prune_cases (days : Int) (now : Time.Timestamp) (d : Database) :
    (d.writer ≠ .poisoned ∧ now.daysBefore? days = none ∧
        d.prune days now = (.crashed, { d with writer := .poisoned })) ∨
      (¬ (d.writer ≠ .poisoned ∧ now.daysBefore? days = none) ∧
        ∃ result d', d.prune days now = (.done result, d') ∧
          ∀ fault, result = .error fault → d' = d) := by
  unfold prune
  by_cases hw : d.writer = .poisoned
  · rw [if_pos hw]
    exact .inr ⟨fun h => h.1 hw, _, d, rfl, fun _ _ => rfl⟩
  · rw [if_neg hw]
    cases hspan : now.daysBefore? days with
    | none => exact .inl ⟨hw, rfl, rfl⟩
    | some cutoff =>
      refine .inr ⟨(fun h => nomatch h.2), _, _, rfl, fun fault hfault => ?_⟩
      exact snd_write_of_error (fun _ => onLog_of_error) hfault

namespace Request

variable {now : Time.Timestamp} {r : Request} {d : Database} {fault : Fault}

theorem error_of_map {α : Type} {answer : α → Answer} {x : Except Fault α}
    (h : Rule.Outcome.done (x.map answer) = .done (.error fault)) : x = .error fault := by
  cases x with
  | error f =>
    cases h
    rfl
  | ok a => cases h

/-- **A request that is answered with a fault changes nothing.** -/
theorem snd_perform_of_error (h : (r.perform now d).1 = .done (.error fault)) :
    (r.perform now d).2 = d := by
  cases r with
  | getRule | listRules | findMatch | getBlob | recent | counts => rfl
  | addRule kind value note =>
    exact snd_write_of_error
      (fun _ => onRules_of_error fun _ => Rules.snd_insert_of_error) (error_of_map h)
  | setRuleEnabled id on =>
    exact snd_write_of_error
      (fun _ => onRules_of_error fun _ => Rules.snd_setEnabled_of_error) (error_of_map h)
  | removeRule id =>
    exact snd_write_of_error
      (fun _ => onRules_of_error fun _ => Rules.snd_remove_of_error) (error_of_map h)
  | putBlob data mimeType =>
    exact snd_write_of_error (fun _ hput => nomatch hput) (error_of_map h)
  | record e => exact snd_record_of_error (error_of_map h)
  | prune days =>
    simp only [perform] at h ⊢
    rcases d.prune_cases days now with ⟨_, _, hprune⟩ | ⟨_, result, d', hprune, herror⟩
    · rw [hprune] at h
      cases h
    · rw [hprune] at h ⊢
      exact herror fault (error_of_map h)

/-! ## 3. Breaking off -/

/-- **A request breaks off exactly if it is to prune a span that is not handled**, through a
    connection that is in use. -/
theorem perform_crashed_iff :
    (r.perform now d).1 = .crashed ↔
      ∃ days, r = .prune days ∧ now.daysBefore? days = none ∧ d.writer ≠ .poisoned := by
  cases r with
  | prune days =>
    simp only [perform, prune.injEq, exists_eq_left']
    rcases d.prune_cases days now with ⟨hw, hspan, hprune⟩ | ⟨hnot, result, d', hprune, _⟩
    · rw [hprune]
      exact iff_of_true rfl ⟨hspan, hw⟩
    · rw [hprune]
      exact iff_of_false nofun fun h => hnot ⟨h.2, h.1⟩
  | _ => exact iff_of_false nofun nofun

/-- What breaks off changes no table, and the connection that writes is not used again. -/
theorem snd_perform_of_crashed (h : (r.perform now d).1 = .crashed) :
    (r.perform now d).2 = { d with writer := .poisoned } := by
  obtain ⟨days, rfl, hspan, hw⟩ := perform_crashed_iff.mp h
  simp only [perform]
  rcases d.prune_cases days now with ⟨_, _, hprune⟩ | ⟨hnot, _⟩
  · rw [hprune]
  · exact absurd ⟨hw, hspan⟩ hnot

end Request

/-- Reading past the connection that writes is not touched by its loss. -/
theorem read_poisoned {α : Type} (f : Tables → Except Fault α) (d : Database) :
    ({ d with writer := .poisoned } : Database).read f =
      if d.reader = .shared then .error .poisoned else d.read f := by
  unfold read
  cases d.reader <;> rfl

namespace Request

theorem reading_poisoned {α : Type} (answer : α → Answer) (f : Tables → Except Fault α)
    (d : Database) :
    reading answer (({ d with writer := .poisoned } : Database).read f)
        ({ d with writer := .poisoned } : Database) =
      (if decide (d.reader = .shared) then .done (.error .poisoned)
        else (reading answer (d.read f) d).1, { d with writer := .poisoned }) := by
  rw [read_poisoned, reading]
  by_cases hs : d.reader = .shared
  · rw [if_pos hs, if_pos (decide_eq_true hs)]
    rfl
  · rw [if_neg hs, if_neg (by simpa using hs)]
    rfl

/-- **Behind a request that broke off, whatever goes through the connection that writes is a
    fault**; all else is answered as before. Nothing changes the store any more. -/
theorem perform_poisoned (now : Time.Timestamp) (r : Request) (d : Database) :
    r.perform now { d with writer := .poisoned } =
      (if r.needsWriter d.reader then .done (.error .poisoned) else (r.perform now d).1,
        { d with writer := .poisoned }) := by
  cases r with
  | addRule | setRuleEnabled | removeRule | putBlob => rfl
  | getRule id => exact reading_poisoned .rule _ d
  | listRules kind => exact reading_poisoned .rules _ d
  | findMatch kind value => exact reading_poisoned .found _ d
  | getBlob hash => exact reading_poisoned .blob _ d
  | recent limit offset => exact reading_poisoned .entries _ d
  | counts => exact reading_poisoned .counts _ d
  | record e =>
    by_cases hall : e.channel = .all
    · simp only [perform, Database.record, needsWriter, hall, decide_true, if_true]
      rfl
    · simp only [perform, Database.record, needsWriter, hall, decide_false, if_false]
      rfl
  | prune days =>
    simp only [perform, Database.prune]
    rfl

theorem performAll_poisoned (later : List (Time.Timestamp × Request)) (d : Database) :
    performAll later { d with writer := .poisoned } =
      (later.map fun q => if q.2.needsWriter d.reader then .done (.error .poisoned)
        else (q.2.perform q.1 d).1, { d with writer := .poisoned }) := by
  induction later with
  | nil => rfl
  | cons q later ih =>
    obtain ⟨now, r⟩ := q
    simp only [performAll, perform_poisoned, ih, List.map_cons]

/-! ## 4. Every request -/

/-- A request that is not carried out leaves the tables as they were, and every later request is
    answered as if it had not been made. -/
def LeavesNoTrace (now : Time.Timestamp) (r : Request) (d : Database) : Prop :=
  (∀ answer, (r.perform now d).1 ≠ .done (.ok answer)) →
    (r.perform now d).2.tables = d.tables ∧
      ∀ later, (performAll later (r.perform now d).2).1 = (performAll later d).1

/-- **Every request that fails**, in any store and with any arguments. A fault leaves no trace. Only
    pruning a span that is not handled breaks off; the tables are unchanged then, but of the later
    requests all that need the connection that writes are faults, and the others are answered as
    before. -/
theorem perform_failed (now : Time.Timestamp) (r : Request) (d : Database) :
    (∀ fault, (r.perform now d).1 = .done (.error fault) →
      (r.perform now d).2 = d ∧
        ∀ later, performAll later (r.perform now d).2 = performAll later d) ∧
    ((r.perform now d).1 = .crashed ↔
      ∃ days, r = .prune days ∧ now.daysBefore? days = none ∧ d.writer ≠ .poisoned) ∧
    ((r.perform now d).1 = .crashed →
      (r.perform now d).2 = { d with writer := .poisoned } ∧
        ∀ later, (performAll later (r.perform now d).2).1 =
          later.map fun q => if q.2.needsWriter d.reader then .done (.error .poisoned)
            else (q.2.perform q.1 d).1) := by
  refine ⟨fun fault hfault => ?_, perform_crashed_iff, fun hcrashed => ?_⟩
  · have hsame := snd_perform_of_error hfault
    exact ⟨hsame, fun later => by rw [hsame]⟩
  · have hpoisoned := snd_perform_of_crashed hcrashed
    exact ⟨hpoisoned, fun later => by rw [hpoisoned, performAll_poisoned]⟩

/-- **A request can leave a store unusable**: pruning more days than are handled breaks off, and then
    a new store in memory does not even count its verdicts. -/
theorem exists_trace_left :
    ∃ (now : Time.Timestamp) (days : Int) (d : Database), d = inMemory ∧
      (perform now (.prune days) d).1 = .crashed ∧
      (perform now .counts d).1 = .done (.ok (.counts ⟨0, 0⟩)) ∧
      (perform now .counts (perform now (.prune days) d).2).1 = .done (.error .poisoned) ∧
      ¬ (prune days).LeavesNoTrace now d := by
  refine ⟨⟨0, 0⟩, 9223372036854775807, inMemory, rfl, rfl, rfl, rfl, ?_⟩
  intro h
  obtain ⟨_, hlater⟩ := h fun answer hanswer => by cases hanswer
  cases hlater [(⟨0, 0⟩, .counts)]

end Request

end Database

end TrafficGate.Store
