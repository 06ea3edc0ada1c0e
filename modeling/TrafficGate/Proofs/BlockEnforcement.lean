import TrafficGate.Proofs.Acts
/-!
  # Published blocks and aborted calls

  A call that publishes a request as blocked is aborted, unless the source of rules breaks off while
  the call is handled. A call in which it does proceeds, whatever was published before: a fault of
  the source is never held against the traffic.

  1. where a look-up breaks off;
  2. a call, and one with a block that is not enforced.

  Main facts: **`HandlesAll.crashed`** and **`onBytes_enforces`**.
-/

namespace TrafficGate.Engine

open Http TrafficGate.Stream Exchange Rule Verdict

variable {W : Type}

/-! ## 1. Look-ups that break off -/

/-- The source broke off, and left this world. -/
def BrokeOff (source : Source W) (w : W) : Prop :=
  ∃ kind value w₀, source.query kind value w₀ = (.crashed, w)

theorem brokeOff_of_lookup {source : Source W} {now : Nat} {key : Key}
    {cache cache' : AnswerCache} {w w' : W}
    (h : lookup source now key cache w = (.crashed, cache', w')) : BrokeOff source w' := by
  unfold lookup at h
  split at h
  · cases h
  · unfold ask at h
    split at h
    · cases h
    · cases h
    · next hq =>
      cases h
      exact ⟨_, _, _, hq⟩

theorem brokeOff_of_matchKinds {source : Source W} {now : Nat} {value : Text} {kinds : List Kind}
    {cache cache' : AnswerCache} {w w' : W}
    (h : matchKinds source now value kinds cache w = (.crashed, cache', w')) :
    BrokeOff source w' := by
  induction kinds generalizing cache w with
  | nil => cases h
  | cons kind kinds ih =>
    unfold matchKinds at h
    split at h
    · exact ih h
    · exact brokeOff_of_lookup h

/-- **A look-up breaks off only where the source does.** -/
theorem brokeOff_of_lookUp {backend : Backend W} {now : Time.Moment} {value : Text}
    {s t : State W} (h : s.lookUp backend now value = (.crashed, t)) :
    BrokeOff backend.rules t.world := by
  have hmatch : matchAny backend.rules now.tick value s.cache s.world =
      (.crashed, t.cache, t.world) := by
    unfold State.lookUp at h
    cases hm : matchAny backend.rules now.tick value s.cache s.world with
    | mk found rest =>
      rw [hm] at h
      obtain ⟨rfl, rfl⟩ := Prod.mk.inj h
      rfl
  unfold matchAny at hmatch
  split at hmatch
  · cases hmatch
  · exact brokeOff_of_matchKinds hmatch

namespace State

section Calls

variable {backend : Backend W} {now : Time.Moment} {flow : FlowId} {side : Side}
  {snapshot : Option Text} {s t : State W} {f : Framed} {fs : List Framed} {a : Act}
  {as : List Act}

theorem Handles.crashed (h : Handles backend now flow snapshot s f side a t)
    (ha : a.breaksOff = true) : BrokeOff backend.rules t.world := by
  cases h with
  | breakOff _ hl | breakOffOldest _ _ hl => exact brokeOff_of_lookUp hl
  | _ => cases ha

/-- **A call breaks off only where the source does**, and ends there. -/
theorem HandlesAll.crashed (h : HandlesAll backend now flow side snapshot s fs as t)
    (ha : as.any Act.breaksOff = true) : BrokeOff backend.rules t.world := by
  induction h with
  | nil s => cases ha
  | cons _ hb _ ih =>
    rw [List.any_cons, hb, Bool.false_or] at ha
    exact ih ha
  | breakOff h hb => exact h.crashed hb

end Calls

/-! ## 2. A call -/

/-- **A published block is an enforced block, unless the source of rules breaks off.** Whatever the
    state, the bytes and the source, the entries that a call frames are handled act by act. When
    none breaks off and one of the events is published as blocked, the call is aborted. When one
    breaks off, so did the source; the call ends there and proceeds. -/
theorem onBytes_enforces (backend : Backend W) (now : Time.Moment) (flow : FlowId) (side : Side)
    (bytes : Bytes) (snapshot : Option Text) (s : State W) :
    ∃ as events,
      HandlesAll backend now flow side snapshot
        { s with buffers := (s.framed flow side bytes).2 } (s.framed flow side bytes).1 as
        (s.onBytes backend now flow side bytes snapshot).2 ∧
      (s.onBytes backend now flow side bytes snapshot).2.published = s.published ++ events ∧
      (as.any Act.breaksOff = false → (∃ e ∈ events, e.channel = .blocked) →
        (s.onBytes backend now flow side bytes snapshot).1.isAbort = true) ∧
      (as.any Act.breaksOff = true →
        (s.onBytes backend now flow side bytes snapshot).1 = .proceed ∧
          BrokeOff backend.rules
            (s.onBytes backend now flow side bytes snapshot).2.world) := by
  have hrun := handlesAll_onBytes backend now flow side snapshot s bytes
  obtain ⟨groups, hpublished, hgroups⟩ := hrun.published
  rw [fst_onBytes]
  refine ⟨_, groups.flatten, hrun, hpublished, fun hdone hblocked => ?_, fun hbroke => ?_⟩
  · obtain ⟨e, he, hchannel⟩ := hblocked
    obtain ⟨a, ha, events, hpublishes, hmem⟩ := exists_act_of_mem hgroups he
    rw [hdone]
    exact isAbort_firstAbort ha (hpublishes.isAbort hmem hchannel)
  · rw [hbroke]
    exact ⟨rfl, hrun.crashed hbroke⟩

/-- Rules and bodies in memory, with a source that breaks off when it is asked for a domain. -/
def brittle : Backend (Book × Shelf) :=
  { memory with
    rules := {
      query := fun kind value w =>
        if kind = .domain then (.crashed, w) else memory.rules.query kind value w } }

/-- A block can be published by a call that proceeds: the first request is blocked, and looking up
    the second one breaks off. -/
theorem exists_block_not_enforced :
    ¬ ∀ (backend : Backend (Book × Shelf)) (s : State (Book × Shelf)),
      Reachable backend (fun _ => True) s →
      ∀ now flow side bytes snapshot,
        (∃ e ∈ (s.onBytes backend now flow side bytes snapshot).2.published.drop
            s.published.length, e.channel = .blocked) →
          (s.onBytes backend now flow side bytes snapshot).1.isAbort = true := by
  intro hclaim
  obtain ⟨s, hs⟩ : ∃ s, State.start? Config.defaults (ruledPath, Shelf.empty) = some s := ⟨_, rfl⟩
  have hrun : ((State.start? Config.defaults (ruledPath, Shelf.empty)).all fun s =>
      ((s.onBytes brittle ⟨⟨0, 0⟩, 0⟩ ⟨7, false⟩ .request twoPaths none).2.published.drop
          s.published.length).any (fun e => decide (e.channel = .blocked)) &&
        !(s.onBytes brittle ⟨⟨0, 0⟩, 0⟩ ⟨7, false⟩ .request twoPaths none).1.isAbort) = true := by
    decide +kernel
  rw [hs, Option.all_some, Bool.and_eq_true, List.any_eq_true] at hrun
  obtain ⟨⟨e, he, hblocked⟩, hproceeds⟩ := hrun
  have habort := hclaim brittle s (.start Config.validate_defaults trivial hs) ⟨⟨0, 0⟩, 0⟩
    ⟨7, false⟩ .request twoPaths none ⟨e, he, of_decide_eq_true hblocked⟩
  rw [habort] at hproceeds
  cases hproceeds

end State

end TrafficGate.Engine
