import Mathlib.Data.List.DropRight
import TrafficGate.Proofs.PendingQueues
/-!
  # Decisions before the response

  A call on the request side decides its usable requests one after the other, each with the rules as
  they answer at its turn: a request that a rule matches is published as blocked and does not wait;
  every other one waits at the end of the queue of its flow, of which the last requests are kept.
  The first block is the disposition of the call.

  1. the last elements of a list, and a queue that makes room;
  2. `Decides` -- requests decided in turn, and what that does to queue and events;
  3. the entries of a call as decisions;
  4. a call on the request side.

  Main facts: **`Decides.queue`**, **`Decides.published`**, **`HandlesAll.decides`** and
  **`onBytes_decides`**.
-/

namespace TrafficGate

open Http TrafficGate.Stream Exchange Rule Verdict

/-! ## 1. The last elements -/

namespace Seq

variable {α : Type}

theorem rtake_of_length_le {n : Nat} {l : List α} (h : l.length ≤ n) : l.rtake n = l := by
  rw [List.rtake, Nat.sub_eq_zero_of_le h, List.drop_zero]

/-- **The last elements of the last elements** are the last of all. -/
theorem rtake_rtake_append (n : Nat) (a b : List α) :
    (a.rtake n ++ b).rtake n = (a ++ b).rtake n := by
  simp only [List.rtake, List.length_append, List.length_drop, List.drop_append, List.drop_drop]
  congr 2 <;> omega

end Seq

/-- **Room is made by giving up the oldest**: the last requests are kept. -/
theorem Exchange.Pending.makeRoom_concat {limit : Nat} {q : List Request} (hl : 0 < limit)
    (hq : q.length ≤ limit) (r : Request) : makeRoom limit q ++ [r] = (q ++ [r]).rtake limit := by
  obtain ⟨n, rfl⟩ : ∃ n, limit = n + 1 := ⟨limit - 1, by omega⟩
  rw [List.rtake_concat_succ, List.rtake, makeRoom]
  split
  · rw [show q.length - n = 1 by omega, List.drop_one]
  · rw [show q.length - n = 0 by omega, List.drop_zero]

namespace Engine.State

variable {W : Type}

/-! ## 2. Requests in turn -/

/-- Requests of a flow, decided one after the other with what looking them up finds then: a rule
    blocks, and without one the request waits. -/
inductive Decides (backend : Backend W) (now : Time.Moment) (flow : FlowId) :
    State W → List (Request × Option Rule) → State W → Prop where
  | nil (s : State W) : Decides backend now flow s [] s
  | wait {s t u : State W} {r : Request} {rest : List (Request × Option Rule)}
      (hl : s.lookUp backend now r.canonical = (.done none, t))
      (hrest : Decides backend now flow { t with pending := t.pending.push flow r } rest u) :
      Decides backend now flow s ((r, none) :: rest) u
  | block {s t u : State W} {r : Request} {rule : Rule} {rest : List (Request × Option Rule)}
      (hl : s.lookUp backend now r.canonical = (.done (some rule), t))
      (hrest : Decides backend now flow (t.dispatch backend now r none (some rule)).2 rest u) :
      Decides backend now flow s ((r, some rule) :: rest) u

/-- The requests that no rule blocks. -/
def waiting (verdicts : List (Request × Option Rule)) : List Request :=
  (verdicts.filter fun v => v.2.isNone).map Prod.fst

/-- The disposition of the first block. -/
def firstBlock (verdicts : List (Request × Option Rule)) : Disposition :=
  match verdicts.findSome? fun v => v.2.map fun rule => (v.1, rule) with
  | some (r, rule) => .abort r.url (some rule)
  | none => .proceed

/-- The events of a decision: copies of a block, or none. -/
def Announces (v : Request × Option Rule) (events : List Event) : Prop :=
  match v.2 with
  | some rule => ∀ e ∈ events, e.Tells v.1 none (some rule)
  | none => events = []

section Decisions

variable {backend : Backend W} {now : Time.Moment} {flow other : FlowId} {snapshot : Option Text}
  {s t : State W} {verdicts : List (Request × Option Rule)} {fs : List Framed} {as : List Act}

/-- **The queue behind decisions** holds the last of those that waited and wait now. -/
theorem Decides.queue (h : Decides backend now flow s verdicts t) (hs : s.pending.Kept) :
    t.pending.queue flow =
      (s.pending.queue flow ++ waiting verdicts).rtake s.pending.limit := by
  induction h with
  | nil s =>
    rw [waiting, List.filter_nil, List.map_nil, List.append_nil]
    exact (Seq.rtake_of_length_le (hs.count_le flow)).symm
  | @wait s t u r rest hl _ ih =>
    have hp := pending_of_lookUp hl
    have hqueue := ih (hp.symm ▸ hs.push flow r)
    simp only [hp, Pending.queue_push_self] at hqueue
    rw [Pending.makeRoom_concat hs.limit_pos (hs.count_le flow)] at hqueue
    rw [hqueue]
    show (_ ++ waiting rest).rtake s.pending.limit = (_ ++ r :: waiting rest).rtake s.pending.limit
    rw [Seq.rtake_rtake_append, List.append_assoc, List.singleton_append]
  | @block s t u r rule rest hl _ ih =>
    have hp := pending_of_lookUp hl
    have hqueue := ih (show t.pending.Kept from hp.symm ▸ hs)
    simp only [show (t.dispatch backend now r none (some rule)).2.pending = s.pending from hp]
      at hqueue
    exact hqueue

/-- **Decisions leave the queues of other flows.** -/
theorem Decides.queue_other (h : Decides backend now flow s verdicts t) (ho : other ≠ flow) :
    t.pending.queue other = s.pending.queue other := by
  induction h with
  | nil s => rfl
  | wait hl _ ih => rw [ih, Pending.queue_push_other ho, pending_of_lookUp hl]
  | block hl _ ih =>
    have hqueue := congrArg (Pending.queue other) (pending_of_lookUp hl)
    exact ih.trans hqueue

/-- **Decisions publish the blocks**, in their order, and nothing else. -/
theorem Decides.published (h : Decides backend now flow s verdicts t) :
    ∃ groups : List (List Event), t.published = s.published ++ groups.flatten ∧
      List.Forall₂ Announces verdicts groups := by
  induction h with
  | nil s => exact ⟨[], (List.append_nil _).symm, .nil⟩
  | wait hl _ ih =>
    obtain ⟨groups, hgroups, hrest⟩ := ih
    have hpublished := published_of_lookUp hl
    refine ⟨[] :: groups, ?_, .cons rfl hrest⟩
    rw [hgroups, List.flatten_cons, List.nil_append]
    exact congrArg (List.append · groups.flatten) hpublished
  | block hl _ ih =>
    obtain ⟨groups, hgroups, hrest⟩ := ih
    obtain ⟨events, hevents, htells⟩ := published_dispatch backend now _ _ _
    refine ⟨events :: groups, ?_, .cons htells hrest⟩
    rw [hgroups, hevents, published_of_lookUp hl, List.flatten_cons, List.append_assoc]

/-! ## 3. Entries as decisions -/

/-- **Entries of the request side are decisions on their usable requests.** -/
theorem HandlesAll.decides (h : HandlesAll backend now flow .request snapshot s fs as t)
    (hdone : as.any Act.breaksOff = false) :
    ∃ verdicts, verdicts.map Prod.fst = fs.filterMap (usable? s.config flow snapshot) ∧
      Decides backend now flow s verdicts t ∧ firstAbort as = firstBlock verdicts := by
  induction h with
  | nil s => exact ⟨[], rfl, .nil s, rfl⟩
  | breakOff _ hb =>
    rw [List.any_cons, hb, Bool.true_or] at hdone
    cases hdone
  | @cons s t u f fs a as h hb _ ih =>
    rw [List.any_cons, hb, Bool.false_or] at hdone
    obtain ⟨verdicts, hrequests, hdecides, habort⟩ := ih hdone
    rw [h.limits.1] at hrequests
    rw [firstAbort_cons, habort, List.filterMap_cons]
    cases h with
    | unusable hu =>
      rw [hu]
      exact ⟨verdicts, hrequests, hdecides, rfl⟩
    | @wait r _ hu hl =>
      rw [hu]
      exact ⟨(r, none) :: verdicts, congrArg (List.cons r) hrequests, .wait hl hdecides, rfl⟩
    | @block r rule _ hu hl =>
      rw [hu]
      exact ⟨(r, some rule) :: verdicts, congrArg (List.cons r) hrequests, .block hl hdecides,
        rfl⟩
    | breakOff hu hl => cases hb

/-! ## 4. A call on the request side -/

/-- **Every usable request of a call is decided at its turn.** In every state of a run, and whatever
    bytes come on the request side of a flow, the usable requests that they complete are decided in
    their order with what the rules answer then. Those that a rule matches are published as blocked,
    without a response, and nothing else is published; the others, and nothing else, come behind
    those that waited on the flow, of all of which the queue holds the last. The first block aborts
    the call, and without one it proceeds. -/
theorem onBytes_decides {fit : W → Prop} (hb : backend.Calm fit) (hs : Reachable backend fit s)
    (now : Time.Moment) (flow : FlowId) (bytes : Bytes) (snapshot : Option Text) :
    ∃ verdicts groups,
      verdicts.map Prod.fst =
        (s.framed flow .request bytes).1.filterMap (usable? s.config flow snapshot) ∧
      Decides backend now flow { s with buffers := (s.framed flow .request bytes).2 } verdicts
        (s.onBytes backend now flow .request bytes snapshot).2 ∧
      (s.onBytes backend now flow .request bytes snapshot).1 = firstBlock verdicts ∧
      (s.onBytes backend now flow .request bytes snapshot).2.pending.queue flow =
        (s.pending.queue flow ++ waiting verdicts).rtake (max s.config.maxPendingPerFlow 1) ∧
      (∀ other, other ≠ flow →
        (s.onBytes backend now flow .request bytes snapshot).2.pending.queue other =
          s.pending.queue other) ∧
      (s.onBytes backend now flow .request bytes snapshot).2.published =
        s.published ++ groups.flatten ∧
      List.Forall₂ Announces verdicts groups := by
  have hrun := handlesAll_onBytes backend now flow .request snapshot s bytes
  have hcalm := callActs_calm now flow .request snapshot hb (hs.fit_world hb.toKeeps) bytes
  obtain ⟨verdicts, hrequests, hdecides, habort⟩ := hrun.decides hcalm
  obtain ⟨groups, hpublished, hgroups⟩ := hdecides.published
  refine ⟨verdicts, groups, hrequests, hdecides, ?_, ?_, fun other ho => hdecides.queue_other ho,
    hpublished, hgroups⟩
  · rw [fst_onBytes, hcalm]
    exact habort
  · rw [hdecides.queue hs.kept]
    exact congrArg (List.rtake _) hs.pendingLimit

end Decisions

/-- Of two requests in one piece the first is blocked and the second waits. -/
theorem onBytes_decides_two_paths :
    ∃ s, start? Config.defaults (ruledPath, Shelf.empty) = some s ∧
      ∃ verdicts,
        verdicts.map Prod.fst = (s.framed ⟨7, false⟩ .request twoPaths).1.filterMap
          (usable? s.config ⟨7, false⟩ none) ∧
        (s.onBytes memory ⟨⟨0, 0⟩, 0⟩ ⟨7, false⟩ .request twoPaths none).1 = firstBlock verdicts ∧
        (s.onBytes memory ⟨⟨0, 0⟩, 0⟩ ⟨7, false⟩ .request twoPaths none).2.pending.queue ⟨7, false⟩ =
          (s.pending.queue ⟨7, false⟩ ++ waiting verdicts).rtake
            (max s.config.maxPendingPerFlow 1) := by
  obtain ⟨s, hs⟩ : ∃ s, start? Config.defaults (ruledPath, Shelf.empty) = some s := ⟨_, rfl⟩
  obtain ⟨verdicts, groups, hrequests, _, habort, hqueue, _⟩ :=
    onBytes_decides calm_memory (.start Config.validate_defaults trivial hs) ⟨⟨0, 0⟩, 0⟩ ⟨7, false⟩
      twoPaths none
  exact ⟨s, hs, verdicts, hrequests, habort, hqueue⟩

example : ((start? Config.defaults (ruledPath, Shelf.empty)).map fun s =>
    let r := s.onBytes memory ⟨⟨0, 0⟩, 0⟩ ⟨7, false⟩ .request twoPaths none
    (r.1, (r.2.pending.queue ⟨7, false⟩).map (·.url))) =
      some (.abort "http://h/a".toList (some { kind := .url, value := "http://h/a".toList }),
        ["http://h/b".toList]) := by
  decide +kernel

end Engine.State

end TrafficGate
