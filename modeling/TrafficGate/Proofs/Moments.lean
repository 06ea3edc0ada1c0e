import TrafficGate.Proofs.FlowIsolation
import TrafficGate.Proofs.KeptBodies
/-!
  # The moments of a run

  A run is looked at after every entry of every call, and not only between its operations. Its rules
  are any, so a look-up may fail or break off, and they may change at any moment; its bodies go to a
  shelf in memory, where others may leave some, too.

  1. `Moment` and `Step` -- what happens in a run, entry by entry;
  2. `Leads` -- stretches of a run, and operations as stretches;
  3. `Grows` -- no stretch takes a verdict back, or a body off the shelf.

  Main facts: **`leads_ingress`**, **`leads_run`**, **`Step.grows`** and **`Leads.grows`**.
-/

namespace TrafficGate.Engine

open Http TrafficGate.Stream Exchange Rule Verdict

variable {R : Type}

/-! ## 1. Moments -/

/-- Any rules, and bodies on a shelf in memory. -/
def shelved (rules : Source R) : Backend (R × Shelf) where
  rules := {
    query := fun kind value w =>
      match rules.query kind value w.1 with
      | (reply, r) => (reply, r, w.2) }
  blobs := besideShelf R

/-- An entry that a call framed. -/
structure Entry where
  now : Time.Moment
  flow : FlowId
  side : Side
  snapshot : Option Text
  framed : Framed

/-- A moment of a run, with the entries of the call that are still to be handled. -/
structure Moment (R : Type) where
  state : State (R × Shelf)
  rest : List Entry

/-- What is observed: bytes, an entry that they complete, a call or a resolved name. -/
inductive Sight where
  | bytes (flow : FlowId) (side : Side) (bytes : Bytes)
  | framed (flow : FlowId) (side : Side) (snapshot : Option Text) (f : Framed)
  | call (call : State.Call)
  | resolution (host : Text) (addresses : List Text) (snapshot : Option Text)

/-- The moment behind an entry: where its look-up breaks off, the call ends. -/
def Entry.handle (rules : Source R) (e : Entry) (rest : List Entry) (s : State (R × Shelf)) :
    Moment R :=
  match s.handleFramed (shelved rules) e.now e.flow e.side e.snapshot e.framed with
  | (.done _, s) => { state := s, rest }
  | (.crashed, s) => { state := s, rest := [] }

/-- What happens next, with what is observed then. Between the entries the rules may change, and
    others may leave bodies on the shelf. -/
inductive Step (rules : Source R) : Moment R → List Sight → Moment R → Prop where
  | receive (s : State (R × Shelf)) (now : Time.Moment) (flow : FlowId) (side : Side)
      (bytes : Bytes) (snapshot : Option Text) :
      Step rules { state := s, rest := [] } [.bytes flow side bytes]
        { state := { s with buffers := (s.framed flow side bytes).2 },
          rest := (s.framed flow side bytes).1.map (Entry.mk now flow side snapshot) }
  | handle (s : State (R × Shelf)) (e : Entry) (rest : List Entry) :
      Step rules { state := s, rest := e :: rest }
        [.framed e.flow e.side e.snapshot e.framed] (e.handle rules rest s)
  | call (s : State (R × Shelf)) (now : Time.Moment) (call : State.Call) :
      Step rules { state := s, rest := [] } [.call call]
        { state := (s.onCall (shelved rules) now call).2, rest := [] }
  | resolution (s : State (R × Shelf)) (now : Time.Moment) (host : Text) (addresses : List Text)
      (snapshot : Option Text) :
      Step rules { state := s, rest := [] } [.resolution host addresses snapshot]
        { state := (s.onResolution (shelved rules) now host addresses snapshot).2, rest := [] }
  | closed (s : State (R × Shelf)) (flow : FlowId) :
      Step rules { state := s, rest := [] } [] { state := s.onClosed flow, rest := [] }
  | pressure (s : State (R × Shelf)) :
      Step rules { state := s, rest := [] } [] { state := s.onPressure, rest := [] }
  | outside (s : State (R × Shelf)) (rest : List Entry) (r : R) (shelf : Shelf)
      (h : s.world.2.Extends shelf) :
      Step rules { state := s, rest } [] { state := { s with world := (r, shelf) }, rest }

/-- The bytes that were observed of a flow and side. -/
def stream (seen : List Sight) (flow : FlowId) (side : Side) : Bytes :=
  seen.flatMap fun
    | .bytes flow' side' bytes => if (flow, side) = (flow', side') then bytes else []
    | .framed _ _ _ _ | .call _ | .resolution _ _ _ => []

theorem stream_append (a b : List Sight) (flow : FlowId) (side : Side) :
    stream (a ++ b) flow side = stream a flow side ++ stream b flow side := List.flatMap_append

/-- The bytes that come go to the end of their stream. -/
theorem stream_concat_bytes (seen : List Sight) (flow other : FlowId) (side side' : Side)
    (bytes : Bytes) :
    stream (seen ++ [.bytes flow side bytes]) other side' =
      stream seen other side' ++ if (other, side') = (flow, side) then bytes else [] := by
  rw [stream_append]
  exact congrArg (stream seen other side' ++ ·) (List.append_nil _)

/-! ## 2. Stretches -/

/-- What leads from one moment to another, with what is observed on the way. -/
inductive Leads (rules : Source R) (m : Moment R) : List Sight → Moment R → Prop where
  | refl : Leads rules m [] m
  | step {seen new : List Sight} {m' m'' : Moment R} (h : Leads rules m seen m')
      (hstep : Step rules m' new m'') : Leads rules m (seen ++ new) m''

section Stretches

variable {rules : Source R} {m m' : Moment R} {s t : State (R × Shelf)} {seen new : List Sight}

theorem Leads.trans {m'' : Moment R} (h : Leads rules m seen m') (h' : Leads rules m' new m'') :
    Leads rules m (seen ++ new) m'' := by
  induction h' with
  | refl => rwa [List.append_nil]
  | step _ hstep ih =>
    rw [← List.append_assoc]
    exact ih.step hstep

/-- The entries of a call are handled one after the other. -/
theorem leads_handleAll {now : Time.Moment} {flow : FlowId} {side : Side}
    {snapshot : Option Text} {fs : List Framed} (d : Disposition)
    (h : Leads rules m seen { state := s, rest := fs.map (Entry.mk now flow side snapshot) }) :
    ∃ seen, Leads rules m seen
      { state := (State.handleAll (shelved rules) now flow side snapshot fs d s).2
        rest := [] } := by
  induction fs generalizing d s seen with
  | nil => exact ⟨seen, h⟩
  | cons f fs ih =>
    have hnext := h.step (.handle s ⟨now, flow, side, snapshot, f⟩ _)
    rw [Entry.handle] at hnext
    rw [State.handleAll]
    cases hf : s.handleFramed (shelved rules) now flow side snapshot f with
    | mk o t =>
      simp only [hf] at hnext
      cases o with
      | crashed => exact ⟨_, hnext⟩
      | done next => exact ih _ hnext

variable (rules s) in
/-- **Every operation is a stretch of steps.** -/
theorem leads_ingress (now : Time.Moment) (i : Ingress) :
    ∃ seen, Leads rules { state := s, rest := [] } seen
      { state := (s.ingress (shelved rules) now i).2, rest := [] } := by
  cases i with
  | bytes flow side bytes snapshot =>
    have hframed : Leads rules { state := s, rest := [] } _ _ :=
      Leads.refl.step (.receive s now flow side bytes snapshot)
    obtain ⟨seen, hall⟩ := leads_handleAll .proceed hframed
    rw [← State.snd_settle] at hall
    exact ⟨seen, hall⟩
  | call call => exact ⟨_, Leads.refl.step (.call s now call)⟩
  | resolution host addresses snapshot =>
    exact ⟨_, Leads.refl.step (.resolution s now host addresses snapshot)⟩
  | closed flow => exact ⟨_, Leads.refl.step (.closed s flow)⟩
  | pressure => exact ⟨_, Leads.refl.step (.pressure s)⟩

variable (rules s) in
/-- **And so is every run.** -/
theorem leads_run (ops : List (Time.Moment × Ingress)) :
    ∃ seen, Leads rules { state := s, rest := [] } seen
      { state := (State.run (shelved rules) ops s).2, rest := [] } := by
  induction ops generalizing s with
  | nil => exact ⟨[], .refl⟩
  | cons op ops ih =>
    obtain ⟨now, i⟩ := op
    obtain ⟨first, hfirst⟩ := leads_ingress rules s now i
    obtain ⟨others, hothers⟩ := ih (s.ingress (shelved rules) now i).2
    exact ⟨first ++ others, hfirst.trans hothers⟩

/-! ## 3. What grows -/

/-- Neither rules nor bodies take a body off the shelf. -/
theorem keeps_shelved (rules : Source R) (shelf : Shelf) :
    (shelved rules).Keeps fun w => shelf.Extends w.2 where
  query h _ _ := h
  keep h _ _ := h.trans (Shelf.extends_keep _ _ _)

theorem published_change {backend : Backend (R × Shelf)} (h : State.Change backend s t) :
    s.published <+: t.published := by
  cases h with
  | handling h =>
    cases h with
    | dispatch now request response matched =>
      obtain ⟨events, hevents, -⟩ := State.published_dispatch backend now request response matched
      exact ⟨events, hevents.symm⟩
    | lookUp | push | takeOldest => exact List.prefix_refl _
  | receive | close | clear => exact List.prefix_refl _

/-- What grows: the verdicts that are published, and the bodies on the shelf. -/
structure Grows (s t : State (R × Shelf)) : Prop where
  published : s.published <+: t.published
  shelf : s.world.2.Extends t.world.2

theorem Grows.refl (s : State (R × Shelf)) : Grows s s := ⟨List.prefix_refl _, .refl _⟩

theorem Grows.trans {u : State (R × Shelf)} (h : Grows s t) (h' : Grows t u) : Grows s u :=
  ⟨h.published.trans h'.published, h.shelf.trans h'.shelf⟩

theorem grows_of_changes (h : State.Changes (shelved rules) s t) : Grows s t := by
  refine h.keep (P := fun t => Grows s t) (fun hchange hs => ?_) (.refl s)
  exact hs.trans ⟨published_change hchange, fit_change (keeps_shelved rules _) hchange (.refl _)⟩

theorem state_handle (rules : Source R) (e : Entry) (rest : List Entry) (s : State (R × Shelf)) :
    (e.handle rules rest s).state =
      (s.handleFramed (shelved rules) e.now e.flow e.side e.snapshot e.framed).2 := by
  unfold Entry.handle
  split <;> next h => rw [h]

/-- The other entries are left, or none. -/
theorem rest_handle (rules : Source R) (e : Entry) (rest : List Entry) (s : State (R × Shelf)) :
    (e.handle rules rest s).rest = rest ∨ (e.handle rules rest s).rest = [] := by
  unfold Entry.handle
  split
  · exact .inl rfl
  · exact .inr rfl

/-- **No step takes a verdict back, or a body off the shelf.** -/
theorem Step.grows (h : Step rules m new m') : Grows m.state m'.state := by
  cases h with
  | receive => exact ⟨List.prefix_refl _, .refl _⟩
  | handle s e rest =>
    rw [state_handle]
    exact grows_of_changes
      (State.handlings_handleFramed (shelved rules) e.now e.flow e.side e.snapshot e.framed s).changes
  | call s now call => exact grows_of_changes (State.changes_onCall (shelved rules) now call s)
  | resolution s now host addresses snapshot =>
    exact grows_of_changes (State.changes_onResolution (shelved rules) now host addresses snapshot s)
  | closed | pressure => exact ⟨List.prefix_refl _, .refl _⟩
  | outside s rest r shelf h => exact ⟨List.prefix_refl _, h⟩

/-- **Nor does a stretch.** -/
theorem Leads.grows (h : Leads rules m seen m') : Grows m.state m'.state := by
  induction h with
  | refl => exact .refl _
  | step _ hstep ih => exact ih.trans hstep.grows

end Stretches

end TrafficGate.Engine
