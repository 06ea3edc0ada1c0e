import TrafficGate.Proofs.SteadyRules
import TrafficGate.Proofs.Exchanges
import TrafficGate.Proofs.Lockstep
/-!
  # States that agree

  Two states agree when they differ in nothing that shows while the rules do not change, but perhaps
  in the times of their events, in their caches, in what the source of rules keeps for itself, and
  in their buffers, at which handling does not look. Handling the same entries at any times, they
  stay so and decide alike. Two that are the same but for buffers and the times of events do so at
  the same ticks of the clock, whatever the collaborators do.

  1. `Agree`;
  2. publishing;
  3. handling entries;
  4. `Twin` -- clocks with the same ticks.

  Main facts: **`agree_dispatch`**, **`lockstep_agree`**, **`agree_handleAll`**, **`handleAll_or`**
  (what was decided before does not change what is decided) and **`lockstep_twin`**.
-/

namespace TrafficGate

open Http TrafficGate.Stream Exchange Rule Verdict

/-! ## 1. Agreement -/

/-- An event but for its time. -/
def Verdict.Event.undated (e : Event) (now : Time.Timestamp) : Event := { e with timestamp := now }

namespace Engine

variable {W S : Type}

/-- Two faithful states with the same limits, waiting requests, published keys and kept bodies, and
    with the same events but for their times. -/
structure State.Agree (fit : W → Prop) (answer : Kind → Text → Option Rule) (shelf : W → S)
    (s t : State W) : Prop where
  left : s.Faithful fit answer
  right : t.Faithful fit answer
  config : s.config = t.config
  pending : s.pending = t.pending
  dispatcher : s.dispatcher = t.dispatcher
  shelf : shelf s.world = shelf t.world
  published : s.published.map Event.undated = t.published.map Event.undated

namespace State

theorem Agree.refl {fit : W → Prop} {answer : Kind → Text → Option Rule} {shelf : W → S}
    {s : State W} (h : s.Faithful fit answer) : Agree fit answer shelf s s :=
  ⟨h, h, rfl, rfl, rfl, rfl, rfl⟩

theorem Agree.withBuffers {fit : W → Prop} {answer : Kind → Text → Option Rule} {shelf : W → S}
    {s t : State W} (h : Agree fit answer shelf s t) (b c : Buffers) :
    Agree fit answer shelf { s with buffers := b } { t with buffers := c } :=
  ⟨h.left, h.right, h.config, h.pending, h.dispatcher, h.shelf, h.published⟩

/-- Results that are the same in states that agree. -/
def AgreeDone (fit : W → Prop) (answer : Kind → Text → Option Rule) (shelf : W → S) {α : Type}
    (r r' : Outcome α × State W) : Prop :=
  ∃ a s t, r = (.done a, s) ∧ r' = (.done a, t) ∧ Agree fit answer shelf s t

section Handling

variable {backend : Backend W} {fit : W → Prop} {answer : Kind → Text → Option Rule}
  {shelf : W → S} {keeper : Keeper S} {s t : State W}

/-! ## 2. Publishing -/

/-- A body gets the same reference where the shelves are the same. -/
theorem agree_bodyRef (hb : backend.Steady fit answer shelf keeper) {w w' : W} (hw : fit w)
    (hw' : fit w') (hshelf : shelf w = shelf w') (d : Dispatcher) (body : Option Bytes)
    (mimeType : Option Text) :
    (d.bodyRef backend.blobs body mimeType w).1 = (d.bodyRef backend.blobs body mimeType w').1 ∧
      shelf (d.bodyRef backend.blobs body mimeType w).2 =
        shelf (d.bodyRef backend.blobs body mimeType w').2 := by
  unfold Dispatcher.bodyRef
  cases body with
  | none => exact ⟨rfl, hshelf⟩
  | some bytes =>
    simp only []
    split
    · exact ⟨rfl, hshelf⟩
    · have hhandle := hb.handle_keep hw bytes (mimeType.getD Dispatcher.defaultMimeType)
      have hhandle' := hb.handle_keep hw' bytes (mimeType.getD Dispatcher.defaultMimeType)
      have hkeep := hb.shelf_keep hw bytes (mimeType.getD Dispatcher.defaultMimeType)
      have hkeep' := hb.shelf_keep hw' bytes (mimeType.getD Dispatcher.defaultMimeType)
      rw [← hshelf] at hhandle' hkeep'
      have hsame := hhandle.trans hhandle'.symm
      have hsame' := hkeep.trans hkeep'.symm
      cases h : backend.blobs.keep bytes (mimeType.getD Dispatcher.defaultMimeType) w with
      | mk handle v =>
        cases h' : backend.blobs.keep bytes (mimeType.getD Dispatcher.defaultMimeType) w' with
        | mk handle' v' =>
          rw [h, h'] at hsame hsame'
          obtain rfl : handle = handle' := hsame
          cases handle <;> exact ⟨rfl, hsame'⟩

theorem agree_publish (hb : backend.Steady fit answer shelf keeper) {w w' : W} (hw : fit w)
    (hw' : fit w') (hshelf : shelf w = shelf w') (now now' : Time.Timestamp) (d : Dispatcher)
    (request : Request) (response : Option Response) (matched : Option Rule) :
    (d.publish backend.blobs now request response matched w).1.map Event.undated =
        (d.publish backend.blobs now' request response matched w').1.map Event.undated ∧
      shelf (d.publish backend.blobs now request response matched w).2 =
        shelf (d.publish backend.blobs now' request response matched w').2 := by
  obtain ⟨href, hshelf₁⟩ := agree_bodyRef hb hw hw' hshelf d request.body request.contentType
  obtain ⟨href', hshelf₂⟩ := agree_bodyRef hb (fit_bodyRef hb.toKeeps hw d _ _)
    (fit_bodyRef hb.toKeeps hw' d _ _) hshelf₁ d (response.bind (·.body))
    (response.bind (·.mimeType?))
  simp only [Dispatcher.publish, href, href']
  exact ⟨rfl, hshelf₂⟩

/-- **States that agree publish the same verdict.** -/
theorem agree_dispatch (hb : backend.Steady fit answer shelf keeper)
    (h : Agree fit answer shelf s t) (now now' : Time.Moment) (request : Request)
    (response : Option Response) (matched : Option Rule) :
    (s.dispatch backend now request response matched).1 =
        (t.dispatch backend now' request response matched).1 ∧
      Agree fit answer shelf (s.dispatch backend now request response matched).2
        (t.dispatch backend now' request response matched).2 := by
  have hfit := fit_dispatch hb.toKeeps h.left.1 now request response matched
  have hfit' := fit_dispatch hb.toKeeps h.right.1 now' request response matched
  unfold State.dispatch Dispatcher.dispatch at *
  rw [← h.dispatcher] at hfit' ⊢
  cases hfirst : s.dispatcher.firstSeen request with
  | mk first d =>
    rw [hfirst] at hfit hfit'
    cases first with
    | false =>
      exact ⟨rfl, ⟨h.left, h.right, h.config, h.pending, rfl, h.shelf, by
        simpa only [List.append_nil] using h.published⟩⟩
    | true =>
      obtain ⟨hevents, hshelf⟩ := agree_publish hb h.left.1 h.right.1 h.shelf now.wall now'.wall d
        request response matched
      refine ⟨rfl, ⟨⟨hfit, h.left.2⟩, ⟨hfit', h.right.2⟩, h.config, h.pending, rfl, hshelf, ?_⟩⟩
      simp only [List.map_append, h.published, hevents]

/-! ## 3. Handling -/

/-- States that agree find the same rule. -/
theorem agree_lookUp (hb : backend.Steady fit answer shelf keeper)
    (h : Agree fit answer shelf s t) (now now' : Time.Moment) (value : Text) :
    AgreeDone fit answer shelf (s.lookUp backend now value) (t.lookUp backend now' value) := by
  obtain ⟨cache, world, hlook, hs, hshelf⟩ := lookUp_steady hb h.left now value
  obtain ⟨cache', world', hlook', ht, hshelf'⟩ := lookUp_steady hb h.right now' value
  refine ⟨find answer value, _, _, hlook, hlook', hs, ht, h.config, h.pending, h.dispatcher, ?_,
    h.published⟩
  calc shelf world = shelf s.world := hshelf
    _ = shelf t.world := h.shelf
    _ = shelf world' := hshelf'.symm

theorem AgreeDone.together {α : Type} {r r' : Outcome α × State W}
    (h : AgreeDone fit answer shelf r r') : Together (Agree fit answer shelf) r r' := by
  obtain ⟨a, s, t, rfl, rfl, hagree⟩ := h
  exact ⟨rfl, hagree⟩

/-- **States that agree go in step at any times.** -/
theorem lockstep_agree (hb : backend.Steady fit answer shelf keeper) :
    Lockstep backend (Agree fit answer shelf) fun _ _ => True where
  config h := h.config
  pending h := h.pending
  withPending h _ := { h with left := h.left, right := h.right, pending := rfl }
  withBuffers h := h.withBuffers
  onPressure {s t} h :=
    { h with
      left := ⟨h.left.1, Cache.every_clear s.cache⟩
      right := ⟨h.right.1, Cache.every_clear t.cache⟩ }
  lookUp {s t now now'} h _ value := (agree_lookUp hb h now now' value).together
  dispatch {s t now now'} h _ request response matched := by
    obtain ⟨hsame, hagree⟩ := agree_dispatch hb h now now' request response matched
    exact ⟨hsame, hagree⟩

/-- **States that agree handle all entries alike**, and nothing breaks off. -/
theorem agree_handleAll (hb : backend.Steady fit answer shelf keeper)
    (h : Agree fit answer shelf s t) (now now' : Time.Moment) (flow : FlowId) (side : Side)
    (snapshot : Option Text) (fs : List Framed) (d : Disposition) :
    AgreeDone fit answer shelf (handleAll backend now flow side snapshot fs d s)
      (handleAll backend now' flow side snapshot fs d t) := by
  have htogether : Together (Agree fit answer shelf)
      (handleAll backend now flow side snapshot fs d s)
      (handleAll backend now' flow side snapshot fs d t) :=
    (lockstep_agree hb).handleAll h trivial flow side snapshot fs d
  obtain ⟨e, he⟩ := handleAll_done now flow side snapshot hb.calm h.left.1 fs d
  exact ⟨e, _, _, Prod.ext he rfl, Prod.ext (htogether.result.symm.trans he) rfl, htogether.state⟩

end Handling

/-- **What was decided before comes before what is decided now**, and changes nothing else. -/
theorem handleAll_or (backend : Backend W) (now : Time.Moment) (flow : FlowId) (side : Side)
    (snapshot : Option Text) (fs : List Framed) (d e : Disposition) (s : State W) :
    handleAll backend now flow side snapshot fs (d.or e) s =
      match handleAll backend now flow side snapshot fs e s with
      | (.done e', s') => (.done (d.or e'), s')
      | (.crashed, s') => (.crashed, s') := by
  induction fs generalizing e s with
  | nil => rfl
  | cons f fs ih =>
    simp only [handleAll]
    cases s.handleFramed backend now flow side snapshot f with
    | mk o s' =>
      cases o with
      | crashed => rfl
      | done next =>
        simp only [Disposition.or_assoc]
        exact ih (e.or next) s'

end State

/-! ## 4. Clocks with the same ticks -/

/-- Two states with the same but for the buffers, at which handling does not look, and the times of
    the events. -/
structure Twin (s t : State W) : Prop where
  config : s.config = t.config
  pending : s.pending = t.pending
  cache : s.cache = t.cache
  dispatcher : s.dispatcher = t.dispatcher
  world : s.world = t.world
  published : s.published.map Event.undated = t.published.map Event.undated

theorem Twin.refl (s : State W) : Twin s s := ⟨rfl, rfl, rfl, rfl, rfl, rfl⟩

theorem undated_publish (keeper : Keeper W) (now now' : Time.Timestamp) (d : Dispatcher)
    (request : Request) (response : Option Response) (matched : Option Rule) (w : W) :
    (d.publish keeper now request response matched w).1.map Event.undated =
        (d.publish keeper now' request response matched w).1.map Event.undated ∧
      (d.publish keeper now request response matched w).2 =
        (d.publish keeper now' request response matched w).2 := ⟨rfl, rfl⟩

/-- **Twins at the same ticks go in step**, whatever the collaborators do. -/
theorem lockstep_twin (backend : Backend W) :
    Lockstep backend Twin fun now now' => now.tick = now'.tick where
  config h := h.config
  pending h := h.pending
  withPending h _ := { h with pending := rfl }
  withBuffers h _ _ := { h with }
  onPressure h := { h with cache := congrArg Cache.clear h.cache }
  lookUp {s t now now'} h hnow value := by
    unfold State.lookUp
    rw [← h.cache, ← h.world, ← hnow]
    exact ⟨rfl, { h with cache := rfl, world := rfl }⟩
  dispatch {s t now now'} h _ request response matched := by
    unfold State.dispatch Dispatcher.dispatch
    rw [← h.dispatcher, ← h.world]
    cases s.dispatcher.firstSeen request with
    | mk first d =>
      cases first with
      | false =>
        refine ⟨rfl, { h with dispatcher := rfl, world := rfl, published := ?_ }⟩
        simpa only [List.append_nil] using h.published
      | true =>
        obtain ⟨hevents, hworld⟩ := undated_publish backend.blobs now.wall now'.wall d request
          response matched s.world
        refine ⟨rfl, { h with dispatcher := rfl, world := hworld, published := ?_ }⟩
        simp only [List.map_append, h.published, hevents]

end Engine

end TrafficGate
