import TrafficGate.Capture.Record
import TrafficGate.Engine.Basic
/-!
  # Replaying a capture

  The observations of a capture are fed to an engine in their order, and counted.

  Main facts: **`run_append`** (two captures, one behind the other), **`observed_run`** (every
  observation is counted once) and **`aborted_run_le`** (no more are aborted than are fed).
-/

namespace TrafficGate.Capture

open Engine Verdict

/-! ## 1. Counts -/

/-- What was counted. -/
structure Summary where
  /-- How often bytes were fed. -/
  frames : Nat
  /-- How many of these and of the resolved names were to be aborted. -/
  aborted : Nat
  /-- How many resolved names were fed. -/
  resolutions : Nat
  /-- How many flows were closed. -/
  closed : Nat
  /-- How many requests were left waiting for a response. -/
  unanswered : Nat
  deriving DecidableEq, Repr

namespace Summary

/-- Nothing was counted. -/
def zero : Summary := { frames := 0, aborted := 0, resolutions := 0, closed := 0, unanswered := 0 }

/-- Counts an abort. -/
def countAbort (d : Disposition) (c : Summary) : Summary :=
  { c with aborted := c.aborted + (if d.isAbort then 1 else 0) }

/-- The counts as JSON. -/
def json (c : Summary) : Json :=
  .record [("frames".toList, .nat c.frames), ("aborted".toList, .nat c.aborted),
    ("resolutions".toList, .nat c.resolutions), ("closed".toList, .nat c.closed),
    ("unanswered".toList, .nat c.unanswered)]

end Summary

/-! ## 2. Feeding -/

variable {W : Type}

/-- Feeds one observation. -/
def feed (backend : Backend W) (now : Time.Moment) (o : Observation) (r : Summary × State W) :
    Summary × State W :=
  match o with
  | .bytes flow side data =>
    match r.2.onBytes backend now flow side data none with
    | (d, s) => ({ r.1 with frames := r.1.frames + 1 }.countAbort d, s)
  | .resolution host addresses =>
    match r.2.onResolution backend now host addresses none with
    | (d, s) => ({ r.1 with resolutions := r.1.resolutions + 1 }.countAbort d, s)
  | .closed flow => ({ r.1 with closed := r.1.closed + 1 }, r.2.onClosed flow)

/-- Feeds all observations in their order. -/
def run (backend : Backend W) (now : Time.Moment) (os : List Observation)
    (r : Summary × State W) : Summary × State W :=
  os.foldl (fun r o => feed backend now o r) r

/-- Feeds a capture to an engine, and counts at the end which requests still wait. -/
def replay (backend : Backend W) (now : Time.Moment) (os : List Observation) (s : State W) :
    Summary × State W :=
  match run backend now os (Summary.zero, s) with
  | (c, s) => ({ c with unanswered := s.pending.total }, s)

/-- **Two captures, one behind the other.** -/
theorem run_append (backend : Backend W) (now : Time.Moment) (a b : List Observation)
    (r : Summary × State W) :
    run backend now (a ++ b) r = run backend now b (run backend now a r) := by
  simp [run, List.foldl_append]

/-! ## 3. What the counts say -/

/-- One observation is counted once. -/
theorem observed_feed (backend : Backend W) (now : Time.Moment) (o : Observation)
    (r : Summary × State W) :
    let c := (feed backend now o r).1
    c.frames + c.resolutions + c.closed = r.1.frames + r.1.resolutions + r.1.closed + 1 := by
  cases o <;> simp only [feed, Summary.countAbort] <;> omega

/-- **Every observation is counted once.** -/
theorem observed_run (backend : Backend W) (now : Time.Moment) (os : List Observation)
    (r : Summary × State W) :
    let c := (run backend now os r).1
    c.frames + c.resolutions + c.closed =
      r.1.frames + r.1.resolutions + r.1.closed + os.length := by
  induction os generalizing r with
  | nil => rfl
  | cons o os ih =>
    have h := observed_feed backend now o r
    have := ih (feed backend now o r)
    simp only [run, List.foldl_cons, List.length_cons] at *
    omega

/-- One observation that is fed is aborted at most once. -/
theorem aborted_feed_le (backend : Backend W) (now : Time.Moment) (o : Observation)
    (r : Summary × State W) :
    let c := (feed backend now o r).1
    c.aborted + (r.1.frames + r.1.resolutions) ≤ r.1.aborted + (c.frames + c.resolutions) := by
  cases o <;> simp only [feed, Summary.countAbort]
  · split <;> omega
  · split <;> omega
  · omega

/-- **No more are aborted than are fed.** -/
theorem aborted_run_le (backend : Backend W) (now : Time.Moment) (os : List Observation)
    (r : Summary × State W) (h : r.1.aborted ≤ r.1.frames + r.1.resolutions) :
    let c := (run backend now os r).1
    c.aborted ≤ c.frames + c.resolutions := by
  induction os generalizing r with
  | nil => exact h
  | cons o os ih =>
    have hf := aborted_feed_le backend now o r
    apply ih (feed backend now o r)
    simp only at hf
    omega

end TrafficGate.Capture
