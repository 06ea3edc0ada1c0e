import Mathlib.Logic.Relation
import TrafficGate.Engine.Basic
import TrafficGate.Proofs.Absorption
/-!
  # Runs of an engine

  A run is any sequence of ingress operations. Everything an operation does to the state is one of
  seven changes, four of them handlings of what was framed or of a call; an invariant is shown for
  each change once, and holds in every state a run reaches.

  1. `Handling` and `Change` -- what can happen to a state;
  2. every operation is a sequence of changes;
  3. `Ingress` and `Reachable` -- operations, and the states of runs;
  4. the buffers of a run.

  Main facts: **`Handlings.frame`**, **`Reachable.invariant`** and **`Reachable.searched`**.
-/

namespace TrafficGate.Engine

open Http TrafficGate.Stream Exchange Rule Verdict

variable {W : Type}

namespace State

/-! ## 1. Changes -/

/-- What handling what was framed, or a call, can do to a state. -/
inductive Handling (backend : Backend W) : State W → State W → Prop where
  | lookUp (s : State W) (now : Time.Moment) (value : Text) :
      Handling backend s (s.lookUp backend now value).2
  | dispatch (s : State W) (now : Time.Moment) (request : Request) (response : Option Response)
      (matched : Option Rule) :
      Handling backend s (s.dispatch backend now request response matched).2
  | push (s : State W) (flow : FlowId) (r : Request) :
      Handling backend s { s with pending := s.pending.push flow r }
  | takeOldest (s : State W) (flow : FlowId) :
      Handling backend s { s with pending := (s.pending.takeOldest flow).2 }

/-- What can happen to a state. -/
inductive Change (backend : Backend W) : State W → State W → Prop where
  | handling {s t : State W} (h : Handling backend s t) : Change backend s t
  | receive (s : State W) (flow : FlowId) (side : Side) (answersHead : Nat → Bool)
      (bytes : Bytes) :
      Change backend s { s with buffers := (s.buffers.receive flow side answersHead bytes).2 }
  | close (s : State W) (flow : FlowId) : Change backend s (s.onClosed flow)
  | clear (s : State W) : Change backend s s.onPressure

/-- Any number of these. -/
abbrev Handlings (backend : Backend W) : State W → State W → Prop :=
  Relation.ReflTransGen (Handling backend)

/-- Any number of changes. -/
abbrev Changes (backend : Backend W) : State W → State W → Prop :=
  Relation.ReflTransGen (Change backend)

theorem Handlings.changes {backend : Backend W} {s t : State W} (h : Handlings backend s t) :
    Changes backend s t :=
  Relation.ReflTransGen.mono (fun _ _ => Change.handling) s t h

/-- **What every handling keeps is kept by any number of them.** -/
theorem Handlings.keep {backend : Backend W} {P : State W → Prop}
    (hstep : ∀ {s t}, Handling backend s t → P s → P t) {s t : State W}
    (h : Handlings backend s t) (hs : P s) : P t := by
  induction h with
  | refl => exact hs
  | tail _ hc ih => exact hstep hc ih

theorem Handling.frame {backend : Backend W} {s t : State W} (h : Handling backend s t) :
    t.config = s.config ∧ t.buffers = s.buffers := by
  cases h <;> exact ⟨rfl, rfl⟩

/-- **Handling leaves the limits and the buffers as they are.** -/
theorem Handlings.frame {backend : Backend W} {s t : State W} (h : Handlings backend s t) :
    t.config = s.config ∧ t.buffers = s.buffers := by
  refine h.keep (P := fun t => t.config = s.config ∧ t.buffers = s.buffers) (fun hstep hs => ?_)
    ⟨rfl, rfl⟩
  obtain ⟨hconfig, hbuffers⟩ := hstep.frame
  exact ⟨hconfig.trans hs.1, hbuffers.trans hs.2⟩

/-! ## 2. Operations as changes -/

section Operations

variable (backend : Backend W) (now : Time.Moment)

theorem handlings_judge (request : Request) (response : Option Response) (value : Text)
    (s : State W) : Handlings backend s (s.judge backend now request response value).2 := by
  have hlook : Handling backend s _ := .lookUp s now value
  unfold judge
  cases h : s.lookUp backend now value with
  | mk found s' =>
    rw [h] at hlook
    cases found with
    | crashed => exact .single hlook
    | done matched => exact .tail (.single hlook) (.dispatch s' now request response matched)

theorem handlings_handleRequest (flow : FlowId) (snapshot : Option Text) (m : Message)
    (s : State W) : Handlings backend s (s.handleRequest backend now flow snapshot m).2 := by
  unfold handleRequest
  split
  · exact .refl
  · next request hr =>
    simp only []
    have hlook : Handling backend s _ := .lookUp s now request.canonical
    cases h : s.lookUp backend now request.canonical with
    | mk found s' =>
      rw [h] at hlook
      match found with
      | .crashed => exact .single hlook
      | .done none => exact .tail (.single hlook) (.push s' flow _)
      | .done (some rule) => exact .tail (.single hlook) (.dispatch s' now _ none (some rule))

theorem handlings_handleAnswer (flow : FlowId) (response : Option Response) (s : State W) :
    Handlings backend s (s.handleAnswer backend now flow response).2 := by
  have htake : Handling backend s _ := .takeOldest s flow
  unfold handleAnswer
  cases h : s.pending.takeOldest flow with
  | mk oldest pending =>
    rw [h] at htake
    cases oldest with
    | none => exact .single htake
    | some request => exact .head htake (handlings_judge backend now request response _ _)

theorem handlings_handleResponse (flow : FlowId) (m : Message) (s : State W) :
    Handlings backend s (s.handleResponse backend now flow m).2 := by
  unfold handleResponse
  split
  · exact .refl
  · split
    · exact .refl
    · exact handlings_handleAnswer backend now flow _ s

theorem handlings_handleFramed (flow : FlowId) (side : Side) (snapshot : Option Text) (f : Framed)
    (s : State W) :
    Handlings backend s (s.handleFramed backend now flow side snapshot f).2 := by
  cases f with
  | message m | truncated m =>
    cases side with
    | request => exact handlings_handleRequest backend now flow snapshot m s
    | response => exact handlings_handleResponse backend now flow m s
  | lost n =>
    cases side with
    | request => exact .refl
    | response => exact handlings_handleAnswer backend now flow none s

/-- **Handling everything that was framed is a sequence of these changes**, however it ends. -/
theorem handlings_handleAll (flow : FlowId) (side : Side) (snapshot : Option Text)
    (fs : List Framed) (d : Disposition) (s : State W) :
    Handlings backend s (handleAll backend now flow side snapshot fs d s).2 := by
  induction fs generalizing d s with
  | nil => exact .refl
  | cons f rest ih =>
    have hf := handlings_handleFramed backend now flow side snapshot f s
    unfold handleAll
    cases h : s.handleFramed backend now flow side snapshot f with
    | mk o s' =>
      rw [h] at hf
      cases o with
      | crashed => exact hf
      | done next => exact hf.trans (ih _ s')

variable {backend now} in
theorem frame_of_handleAll {flow : FlowId} {side : Side} {snapshot : Option Text}
    {fs : List Framed} {d : Disposition} {o : Outcome Disposition} {s t : State W}
    (h : handleAll backend now flow side snapshot fs d s = (o, t)) :
    t.config = s.config ∧ t.buffers = s.buffers := by
  have hframe := (handlings_handleAll backend now flow side snapshot fs d s).frame
  rwa [h] at hframe

theorem snd_settle (r : Outcome Disposition × State W) : (settle r).2 = r.2 := by
  obtain ⟨o, s⟩ := r
  cases o <;> rfl

theorem changes_onBytes (flow : FlowId) (side : Side) (bytes : Bytes) (snapshot : Option Text)
    (s : State W) : Changes backend s (s.onBytes backend now flow side bytes snapshot).2 := by
  unfold onBytes
  simp only [snd_settle]
  exact .head (.receive s flow side _ bytes)
    (handlings_handleAll backend now flow side snapshot _ _ _).changes

theorem changes_onCall (call : Call) (s : State W) :
    Changes backend s (s.onCall backend now call).2 := by
  unfold onCall
  simp only [snd_settle]
  exact (handlings_judge backend now _ _ _ s).changes

theorem changes_onResolution (host : Text) (addresses : List Text) (snapshot : Option Text)
    (s : State W) :
    Changes backend s (s.onResolution backend now host addresses snapshot).2 := by
  unfold onResolution
  simp only []
  split
  · exact .refl
  · rw [snd_settle]
    exact (handlings_judge backend now _ _ _ s).changes

end Operations

end State

/-! ## 3. Runs -/

/-- An ingress operation. -/
inductive Ingress where
  | bytes (flow : FlowId) (side : Side) (bytes : Bytes) (snapshot : Option Text)
  | call (call : State.Call)
  | resolution (host : Text) (addresses : List Text) (snapshot : Option Text)
  | closed (flow : FlowId)
  | pressure
  deriving DecidableEq, Repr

/-- Carries out an operation. -/
def State.ingress (backend : Backend W) (now : Time.Moment) (i : Ingress) (s : State W) :
    Disposition × State W :=
  match i with
  | .bytes flow side bytes snapshot => s.onBytes backend now flow side bytes snapshot
  | .call call => s.onCall backend now call
  | .resolution host addresses snapshot => s.onResolution backend now host addresses snapshot
  | .closed flow => (.proceed, s.onClosed flow)
  | .pressure => (.proceed, s.onPressure)

/-- The states that runs reach in worlds that are fit. Between two operations the world may become
    any fit one, such as one with other rules. -/
inductive Reachable (backend : Backend W) (fit : W → Prop) : State W → Prop where
  | start {config : Config} {world : W} {s : State W} (hconfig : config.validate = .ok config)
      (hworld : fit world) (hs : State.start? config world = some s) : Reachable backend fit s
  | ingress {s : State W} (h : Reachable backend fit s) (now : Time.Moment) (i : Ingress) :
      Reachable backend fit (s.ingress backend now i).2
  | outside {s : State W} (h : Reachable backend fit s) {world : W} (hworld : fit world) :
      Reachable backend fit { s with world }

theorem changes_ingress (backend : Backend W) (now : Time.Moment) (i : Ingress) (s : State W) :
    State.Changes backend s (s.ingress backend now i).2 := by
  cases i with
  | bytes flow side bytes snapshot => exact State.changes_onBytes backend now flow side bytes _ s
  | call call => exact State.changes_onCall backend now call s
  | resolution host addresses snapshot => exact State.changes_onResolution backend now host _ _ s
  | closed flow => exact .single (.close s flow)
  | pressure => exact .single (.clear s)

theorem State.Changes.keep {backend : Backend W} {P : State W → Prop}
    (hchange : ∀ {s t}, State.Change backend s t → P s → P t) {s t : State W}
    (h : State.Changes backend s t) (hs : P s) : P t := by
  induction h with
  | refl => exact hs
  | tail _ hc ih => exact hchange hc ih

/-- **What every change keeps holds in every state of a run.** -/
theorem Reachable.invariant {backend : Backend W} {fit : W → Prop} {P : State W → Prop}
    (hstart : ∀ {config world s}, config.validate = .ok config → fit world →
      State.start? config world = some s → P s)
    (hchange : ∀ {s t}, State.Change backend s t → P s → P t)
    (hworld : ∀ {s world}, fit world → P s → P { s with world })
    {s : State W} (h : Reachable backend fit s) : P s := by
  induction h with
  | start hconfig hw hs => exact hstart hconfig hw hs
  | ingress _ now i ih => exact (changes_ingress backend now i _).keep hchange ih
  | outside _ hw ih => exact hworld hw ih

/-! ## 4. The buffers of a run -/

section BuffersOfRuns

variable {backend : Backend W} {fit : W → Prop} {s : State W}

theorem searched_change {s t : State W} (h : State.Change backend s t)
    (hs : s.buffers.Searched) : t.buffers.Searched := by
  cases h with
  | handling h =>
    rw [h.frame.2]
    exact hs
  | receive flow side answersHead bytes => exact hs.receive flow side answersHead bytes
  | close flow => exact hs.removeFlow flow
  | clear => exact hs

/-- **In every run no empty line starts before the next search of a buffer does.** -/
theorem Reachable.searched (h : Reachable backend fit s) : s.buffers.Searched := by
  refine h.invariant (fun {config world s} _ _ hs => ?_) searched_change (fun _ hs => hs)
  obtain ⟨_, _, rfl⟩ := Option.map_eq_some_iff.mp hs
  exact Buffers.searched_empty _

theorem limit_change {s t : State W} (h : State.Change backend s t)
    (hs : s.buffers.limit = s.config.maxBufferBytes) :
    t.buffers.limit = t.config.maxBufferBytes := by
  cases h with
  | handling h =>
    obtain ⟨hconfig, hbuffers⟩ := h.frame
    rw [hconfig, hbuffers, hs]
  | receive flow side answersHead bytes =>
    exact (Buffers.limit_receive flow side answersHead bytes s.buffers).trans hs
  | close flow => exact hs
  | clear => exact hs

/-- **In every run the limit of the buffers is the configured one.** -/
theorem Reachable.limit (h : Reachable backend fit s) :
    s.buffers.limit = s.config.maxBufferBytes := by
  refine h.invariant (fun {config world s} _ _ hs => ?_) limit_change (fun _ hs => hs)
  obtain ⟨_, _, rfl⟩ := Option.map_eq_some_iff.mp hs
  rfl

end BuffersOfRuns

end TrafficGate.Engine
