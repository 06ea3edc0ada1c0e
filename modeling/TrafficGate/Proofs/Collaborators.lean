import TrafficGate.Proofs.Runs
/-!
  # The collaborators of a run

  The source of rules and the keeper of bodies act on a world that the engine never looks into. What
  a run can rely on is said of the worlds it may be in.

  1. `Keeps` -- asking leaves a fit world fit, and so does every change of a run;
  2. `Calm` -- in fit worlds the source does not break off, so that looking up comes to an end;
  3. `memory` -- rules and bodies in memory.

  Main facts: **`Reachable.fit_world`**, **`lookUp_done`** and **`calm_memory`**.
-/

namespace TrafficGate.Engine

open Http TrafficGate.Stream Exchange Rule Verdict

variable {W : Type}

/-! ## 1. Fit worlds -/

/-- Worlds that are fit stay fit when the collaborators are asked. -/
structure Backend.Keeps (backend : Backend W) (fit : W → Prop) : Prop where
  query : ∀ {w}, fit w → ∀ kind value, fit (backend.rules.query kind value w).2
  keep : ∀ {w}, fit w → ∀ bytes mimeType, fit (backend.blobs.keep bytes mimeType w).2

/-- In fit worlds the source of rules does not break off. It may fail. -/
structure Backend.Calm (backend : Backend W) (fit : W → Prop) : Prop
    extends Backend.Keeps backend fit where
  answers : ∀ {w}, fit w → ∀ kind value, (backend.rules.query kind value w).1 ≠ .crashed

section Worlds

variable {backend : Backend W} {fit : W → Prop} {w : W} {cache : AnswerCache} {now : Nat}

theorem fit_lookup (hb : backend.Keeps fit) (hw : fit w) (now : Nat) (key : Key)
    (cache : AnswerCache) :
    fit (lookup backend.rules now key cache w).2.2 := by
  have hq := hb.query hw key.kind key.value
  unfold lookup
  split
  · exact hw
  · unfold ask
    split <;> next h => rw [h] at hq; exact hq

theorem fit_matchKinds (hb : backend.Keeps fit) (hw : fit w) (value : Text) (kinds : List Kind) :
    fit (matchKinds backend.rules now value kinds cache w).2.2 := by
  induction kinds generalizing cache w with
  | nil => exact hw
  | cons kind kinds ih =>
    have hl := fit_lookup hb hw now { kind, value := candidate value kind } cache
    unfold matchKinds
    split
    · next h =>
      rw [h] at hl
      exact ih hl
    · exact hl

theorem fit_matchAny (hb : backend.Keeps fit) (hw : fit w) (value : Text) :
    fit (matchAny backend.rules now value cache w).2.2 := by
  unfold matchAny
  split
  · exact hw
  · exact fit_matchKinds hb hw value Kind.all

theorem fit_lookUp (hb : backend.Keeps fit) {s : State W} (hw : fit s.world) (now : Time.Moment)
    (value : Text) : fit (s.lookUp backend now value).2.world :=
  fit_matchAny hb hw value

theorem fit_bodyRef (hb : backend.Keeps fit) (hw : fit w) (d : Dispatcher) (body : Option Bytes)
    (mimeType : Option Text) : fit (d.bodyRef backend.blobs body mimeType w).2 := by
  unfold Dispatcher.bodyRef
  split
  · exact hw
  · next bytes =>
    split
    · exact hw
    · have hk := hb.keep hw bytes (mimeType.getD Dispatcher.defaultMimeType)
      simp only []
      split <;> next h => rw [h] at hk; exact hk

theorem fit_dispatch (hb : backend.Keeps fit) {s : State W} (hw : fit s.world)
    (now : Time.Moment) (request : Request) (response : Option Response) (matched : Option Rule) :
    fit (s.dispatch backend now request response matched).2.world := by
  unfold State.dispatch Dispatcher.dispatch
  cases s.dispatcher.firstSeen request with
  | mk first d =>
    cases first with
    | false => exact hw
    | true => exact fit_bodyRef hb (fit_bodyRef hb hw d _ _) d _ _

theorem fit_handling (hb : backend.Keeps fit) {s t : State W} (h : State.Handling backend s t)
    (hw : fit s.world) : fit t.world := by
  cases h with
  | lookUp now value => exact fit_lookUp hb hw now value
  | dispatch now request response matched => exact fit_dispatch hb hw now request response matched
  | push flow r => exact hw
  | takeOldest flow => exact hw

theorem fit_change (hb : backend.Keeps fit) {s t : State W} (h : State.Change backend s t)
    (hw : fit s.world) : fit t.world := by
  cases h with
  | handling h => exact fit_handling hb h hw
  | receive flow side answersHead bytes => exact hw
  | close flow => exact hw
  | clear => exact hw

/-- **Runs stay in fit worlds.** -/
theorem Reachable.fit_world (hb : backend.Keeps fit) {s : State W} (h : Reachable backend fit s) :
    fit s.world := by
  refine h.invariant (fun {config world s} _ hw hs => ?_) (fit_change hb) (fun hw _ => hw)
  obtain ⟨_, _, rfl⟩ := Option.map_eq_some_iff.mp hs
  exact hw

/-! ## 2. Looking up comes to an end -/

theorem lookup_done (hb : backend.Calm fit) (hw : fit w) (now : Nat) (key : Key)
    (cache : AnswerCache) :
    ∃ r, (lookup backend.rules now key cache w).1 = .done r := by
  have ha := hb.answers hw key.kind key.value
  unfold lookup
  split
  · exact ⟨_, rfl⟩
  · unfold ask
    split
    · exact ⟨_, rfl⟩
    · exact ⟨_, rfl⟩
    · next h => rw [h] at ha; exact absurd rfl ha

theorem matchKinds_done (hb : backend.Calm fit) (hw : fit w) (value : Text) (kinds : List Kind) :
    ∃ r, (matchKinds backend.rules now value kinds cache w).1 = .done r := by
  induction kinds generalizing cache w with
  | nil => exact ⟨none, rfl⟩
  | cons kind kinds ih =>
    have hf := fit_lookup hb.toKeeps hw now { kind, value := candidate value kind } cache
    have hd := lookup_done hb hw now { kind, value := candidate value kind } cache
    unfold matchKinds
    split
    · next h =>
      rw [h] at hf
      exact ih hf
    · exact hd

/-- **Looking up comes to an end in a fit world.** -/
theorem lookUp_done (hb : backend.Calm fit) {s : State W} (hw : fit s.world) (now : Time.Moment)
    (value : Text) : ∃ r, (s.lookUp backend now value).1 = .done r := by
  show ∃ r, (matchAny backend.rules now.tick value s.cache s.world).1 = .done r
  unfold matchAny
  split
  · exact ⟨none, rfl⟩
  · exact matchKinds_done hb hw value Kind.all

end Worlds

/-! ## 3. Collaborators in memory -/

/-- Rules and bodies in memory. -/
def memory : Backend (Book × Shelf) where
  rules := {
    query := fun kind value w =>
      match w.1.query kind value with
      | (rule, book) => (.answer rule, book, w.2) }
  blobs := {
    keep := fun data mimeType w =>
      match w.2.keep data mimeType with
      | (handle, shelf) => (some handle, w.1, shelf) }

/-- **The book never breaks off**, whatever rules it has. -/
theorem calm_memory : memory.Calm fun _ => True where
  query _ _ _ := trivial
  keep _ _ _ := trivial
  answers _ _ _ := nofun

/-- The state of an engine with the usual limits behind its first operation. -/
def behind? (world : Book × Shelf) (i : Ingress) : Option (State (Book × Shelf)) :=
  (State.start? Config.defaults world).map fun s => (s.ingress memory ⟨⟨0, 0⟩, 0⟩ i).2

theorem reachable_behind? {fit : Book × Shelf → Prop} {world : Book × Shelf} {i : Ingress}
    {s : State (Book × Shelf)} (hworld : fit world) (h : behind? world i = some s) :
    Reachable memory fit s := by
  obtain ⟨s₀, hs₀, rfl⟩ := Option.map_eq_some_iff.mp h
  exact (Reachable.start Config.validate_defaults hworld hs₀).ingress _ _

/-- A HEAD request on a plain flow. -/
def headRequest : Ingress :=
  .bytes ⟨7, false⟩ .request (Utf8.encode "HEAD / HTTP/1.1\r\nHost: h\r\n\r\n".toList) none

/-- A book with a rule for one URL. -/
def ruledPath : Book := Book.empty.add .url "http://h/a".toList

/-- Two requests in one piece, the first of them for that URL. -/
def twoPaths : Bytes :=
  Utf8.encode "GET /a HTTP/1.1\r\nHost: h\r\n\r\nGET /b HTTP/1.1\r\nHost: h\r\n\r\n".toList

end TrafficGate.Engine
