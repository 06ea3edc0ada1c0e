import TrafficGate.Engine.Basic
/-!
  # Engines in step

  Two engines that are handed the same things at times that correspond. A relation between their
  states that looking up, publishing and changes of queues and buffers keep is kept by everything
  they handle, and they decide alike, also when the source of rules fails or breaks off.

  1. `Lockstep` -- relations that are kept;
  2. handling.

  Main facts: **`Lockstep.handleFramed`**, **`Lockstep.handleAll`** and **`Lockstep.judge`**.
-/

namespace TrafficGate.Engine

open Http TrafficGate.Stream Exchange Rule Verdict

variable {W : Type}

/-! ## 1. Relations that are kept -/

/-- Results that are the same, with states that are related. -/
structure Together (R : State W → State W → Prop) {α : Type} (r r' : α × State W) : Prop where
  result : r.1 = r'.1
  state : R r.2 r'.2

theorem Together.settle {R : State W → State W → Prop} {r r' : Outcome Disposition × State W}
    (h : Together R r r') : Together R (State.settle r) (State.settle r') := by
  obtain ⟨o, s⟩ := r
  obtain ⟨o', t⟩ := r'
  obtain ⟨hsame, hstate⟩ := h
  obtain rfl : o = o' := hsame
  cases o <;> exact ⟨rfl, hstate⟩

/-- A relation between states that the parts of handling keep, at times that correspond. -/
structure Lockstep (backend : Backend W) (R : State W → State W → Prop)
    (inStep : Time.Moment → Time.Moment → Prop) : Prop where
  config : ∀ {s t}, R s t → s.config = t.config
  pending : ∀ {s t}, R s t → s.pending = t.pending
  withPending : ∀ {s t}, R s t → ∀ p, R { s with pending := p } { t with pending := p }
  withBuffers : ∀ {s t}, R s t → ∀ b c, R { s with buffers := b } { t with buffers := c }
  onPressure : ∀ {s t}, R s t → R s.onPressure t.onPressure
  lookUp : ∀ {s t now now'}, R s t → inStep now now' → ∀ value,
    Together R (s.lookUp backend now value) (t.lookUp backend now' value)
  dispatch : ∀ {s t now now'}, R s t → inStep now now' → ∀ request response matched,
    Together R (s.dispatch backend now request response matched)
      (t.dispatch backend now' request response matched)

namespace Lockstep

section Handling

variable {backend : Backend W} {R : State W → State W → Prop}
  {inStep : Time.Moment → Time.Moment → Prop} {s t : State W} {now now' : Time.Moment}

/-! ## 2. Handling -/

theorem judge (hl : Lockstep backend R inStep) (h : R s t) (hnow : inStep now now')
    (request : Request) (response : Option Response) (value : Text) :
    Together R (s.judge backend now request response value)
      (t.judge backend now' request response value) := by
  have hlook := hl.lookUp h hnow value
  unfold State.judge
  generalize s.lookUp backend now value = r at *
  generalize t.lookUp backend now' value = r' at *
  obtain ⟨found, s₁⟩ := r
  obtain ⟨found', t₁⟩ := r'
  obtain ⟨hfound, hstate⟩ := hlook
  obtain rfl : found = found' := hfound
  cases found with
  | crashed => exact ⟨rfl, hstate⟩
  | done matched =>
    obtain ⟨hsame, hbehind⟩ := hl.dispatch hstate hnow request response matched
    exact ⟨congrArg Outcome.done hsame, hbehind⟩

theorem handleRequest (hl : Lockstep backend R inStep) (h : R s t) (hnow : inStep now now')
    (flow : FlowId) (snapshot : Option Text) (m : Message) :
    Together R (s.handleRequest backend now flow snapshot m)
      (t.handleRequest backend now' flow snapshot m) := by
  unfold State.handleRequest
  rw [← hl.config h]
  cases Request.ofMessage flow m with
  | error flaw => exact ⟨rfl, h⟩
  | ok request =>
    have hlook := hl.lookUp h hnow request.canonical
    simp only []
    generalize s.lookUp backend now request.canonical = r at *
    generalize t.lookUp backend now' request.canonical = r' at *
    obtain ⟨found, s₁⟩ := r
    obtain ⟨found', t₁⟩ := r'
    obtain ⟨hfound, hstate⟩ := hlook
    obtain rfl : found = found' := hfound
    match found with
    | .crashed => exact ⟨rfl, hstate⟩
    | .done none =>
      refine ⟨rfl, ?_⟩
      simp only []
      rw [← hl.pending hstate]
      exact hl.withPending hstate _
    | .done (some rule) =>
      obtain ⟨hsame, hbehind⟩ := hl.dispatch hstate hnow
        { request with
          body := collect request.body s.config.collectRequestBody s.config.maxBodyBytes,
          snapshot } none (some rule)
      exact ⟨congrArg Outcome.done hsame, hbehind⟩

theorem handleAnswer (hl : Lockstep backend R inStep) (h : R s t) (hnow : inStep now now')
    (flow : FlowId) (response : Option Response) :
    Together R (s.handleAnswer backend now flow response)
      (t.handleAnswer backend now' flow response) := by
  unfold State.handleAnswer
  rw [← hl.pending h]
  obtain ⟨oldest, pending⟩ := s.pending.takeOldest flow
  have htaken := hl.withPending h pending
  cases oldest with
  | none => exact ⟨rfl, htaken⟩
  | some request => exact hl.judge htaken hnow request response request.canonical

theorem handleResponse (hl : Lockstep backend R inStep) (h : R s t) (hnow : inStep now now')
    (flow : FlowId) (m : Message) :
    Together R (s.handleResponse backend now flow m) (t.handleResponse backend now' flow m) := by
  unfold State.handleResponse
  rw [← hl.config h]
  cases Response.ofMessage m with
  | error flaw => exact ⟨rfl, h⟩
  | ok response =>
    simp only []
    split
    · exact ⟨rfl, h⟩
    · exact hl.handleAnswer h hnow flow _

/-- **Engines in step handle an entry alike.** -/
theorem handleFramed (hl : Lockstep backend R inStep) (h : R s t) (hnow : inStep now now')
    (flow : FlowId) (side : Side) (snapshot : Option Text) (f : Framed) :
    Together R (s.handleFramed backend now flow side snapshot f)
      (t.handleFramed backend now' flow side snapshot f) := by
  cases f with
  | message m | truncated m =>
    cases side with
    | request => exact hl.handleRequest h hnow flow snapshot m
    | response => exact hl.handleResponse h hnow flow m
  | lost n =>
    cases side with
    | request => exact ⟨rfl, h⟩
    | response => exact hl.handleAnswer h hnow flow none

/-- **Engines in step handle all entries alike.** -/
theorem handleAll (hl : Lockstep backend R inStep) (h : R s t) (hnow : inStep now now')
    (flow : FlowId) (side : Side) (snapshot : Option Text) (fs : List Framed) (d : Disposition) :
    Together R (State.handleAll backend now flow side snapshot fs d s)
      (State.handleAll backend now' flow side snapshot fs d t) := by
  induction fs generalizing d s t with
  | nil => exact ⟨rfl, h⟩
  | cons f fs ih =>
    have hf := hl.handleFramed h hnow flow side snapshot f
    unfold State.handleAll
    generalize s.handleFramed backend now flow side snapshot f = r at *
    generalize t.handleFramed backend now' flow side snapshot f = r' at *
    obtain ⟨o, s₁⟩ := r
    obtain ⟨o', t₁⟩ := r'
    obtain ⟨hsame, hstate⟩ := hf
    obtain rfl : o = o' := hsame
    cases o with
    | crashed => exact ⟨rfl, hstate⟩
    | done next => exact ih hstate _

theorem onClosed (hl : Lockstep backend R inStep) (h : R s t) (flow : FlowId) :
    R (s.onClosed flow) (t.onClosed flow) := by
  unfold State.onClosed
  rw [← hl.pending h]
  exact hl.withPending (hl.withBuffers h (s.buffers.removeFlow flow) (t.buffers.removeFlow flow)) _

theorem onCall (hl : Lockstep backend R inStep) (h : R s t) (hnow : inStep now now')
    (call : State.Call) :
    Together R (s.onCall backend now call) (t.onCall backend now' call) := by
  unfold State.onCall
  rw [← hl.config h]
  exact (hl.judge h hnow _ _ _).settle

theorem onResolution (hl : Lockstep backend R inStep) (h : R s t) (hnow : inStep now now')
    (host : Text) (addresses : List Text) (snapshot : Option Text) :
    Together R (s.onResolution backend now host addresses snapshot)
      (t.onResolution backend now' host addresses snapshot) := by
  unfold State.onResolution
  simp only []
  split
  · exact ⟨rfl, h⟩
  · exact (hl.judge h hnow _ _ _).settle

end Handling

end Lockstep

end TrafficGate.Engine
