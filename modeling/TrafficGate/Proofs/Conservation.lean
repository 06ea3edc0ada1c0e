import TrafficGate.Proofs.RequestDecisions
/-!
  # Where requests go

  A request that waits on a flow leaves the queue once at most, and in the order of arrival: decided
  with the final response that was framed next, decided without one when the head of its response
  was lost, given up for a later request at the limit, or dropped when the flow is closed. A record
  of these moves beside a run says so: what arrived and was not blocked is what left and what waits,
  in this order.

  1. `Move` -- what arrives on a flow and what leaves its queue;
  2. the moves of an act, of a call and of an operation;
  3. `DepartsBy` -- how requests leave;
  4. `Booked` -- a run with the record of one flow;
  5. numbers of arrivals, and what became of each;
  6. every run.

  Main facts: **`HandlesAll.balanced`**, **`HandlesAll.takes`**, **`Booked.balanced`** and
  **`Booked.conserves`**.
-/

namespace TrafficGate.Engine

open Http TrafficGate.Stream Exchange Rule Verdict

variable {W : Type}

/-! ## 1. Moves -/

/-- How a request leaves its queue. -/
inductive Departure where
  /-- It is decided with the response that was framed next. -/
  | answered (response : Response) (matched : Option Rule)
  /-- It is decided without a response, the head of which was lost. -/
  | unanswered (matched : Option Rule)
  /-- It is given up for a later one. -/
  | evicted
  /-- Its flow is closed. -/
  | dropped
  /-- Looking it up broke off. -/
  | interrupted
  deriving DecidableEq, Repr

/-- Whether a departure is a decision, which is published. -/
def Departure.isDecision : Departure → Bool
  | answered _ _ | unanswered _ => true
  | evicted | dropped | interrupted => false

/-- What happens to a request of a flow. -/
inductive Move where
  /-- It arrives and is blocked. -/
  | blocked (r : Request) (rule : Rule)
  /-- It arrives and waits. -/
  | enters (r : Request)
  | leaves (r : Request) (how : Departure)
  deriving DecidableEq, Repr

/-- A request that arrives, with the rule that blocks it. -/
def Move.arrival? : Move → Option (Request × Option Rule)
  | blocked r rule => some (r, some rule)
  | enters r => some (r, none)
  | leaves _ _ => none

/-- A request that leaves its queue. -/
def Move.departure? : Move → Option (Request × Departure)
  | leaves r how => some (r, how)
  | blocked _ _ | enters _ => none

/-- The requests that arrived, in their order. -/
def arrivals (moves : List Move) : List (Request × Option Rule) := moves.filterMap Move.arrival?

/-- The requests that left the queue, in their order. -/
def departures (moves : List Move) : List (Request × Departure) := moves.filterMap Move.departure?

/-- The requests that arrived and were not blocked. -/
def entered (moves : List Move) : List Request := State.waiting (arrivals moves)

/-- The requests that left the queue, however they did. -/
def departed (moves : List Move) : List Request := (departures moves).map Prod.fst

theorem arrivals_append (a b : List Move) : arrivals (a ++ b) = arrivals a ++ arrivals b :=
  List.filterMap_append

theorem departures_append (a b : List Move) :
    departures (a ++ b) = departures a ++ departures b := List.filterMap_append

theorem entered_append (a b : List Move) : entered (a ++ b) = entered a ++ entered b := by
  rw [entered, arrivals_append, State.waiting, List.filter_append, List.map_append]
  rfl

theorem departed_append (a b : List Move) : departed (a ++ b) = departed a ++ departed b := by
  rw [departed, departures_append, List.map_append]
  rfl

/-- Moves that lead from one queue to another: who waited and who entered are who left and who
    waits. -/
def Balanced (q : List Request) (moves : List Move) (q' : List Request) : Prop :=
  q ++ entered moves = departed moves ++ q'

theorem Balanced.refl (q : List Request) : Balanced q [] q := List.append_nil q

/-- **Balanced moves behind balanced moves are balanced.** -/
theorem Balanced.trans {q q' q'' : List Request} {a b : List Move} (h : Balanced q a q')
    (h' : Balanced q' b q'') : Balanced q (a ++ b) q'' := by
  unfold Balanced at *
  rw [entered_append, departed_append, ← List.append_assoc, h, List.append_assoc, h',
    List.append_assoc]

/-! ## 2. Moves of acts -/

namespace State

/-- The request that is given up when another one comes. -/
def evictions (limit : Nat) (q : List Request) : List Move :=
  if limit ≤ q.length then (q.take 1).map (.leaves · .evicted) else []

/-- What an act does to the requests of its flow, of which `q` wait. -/
def Act.moves (limit : Nat) (q : List Request) : Act → List Move
  | wait r => evictions limit q ++ [.enters r]
  | block r rule => [.blocked r rule]
  | conclude r (some response) matched => [.leaves r (.answered response matched)]
  | conclude r none matched => [.leaves r (.unanswered matched)]
  | breakOff (some r) => [.leaves r .interrupted]
  | pass | unasked | breakOff none => []

/-- What acts do, one after the other. -/
def movesOf (limit : Nat) (q : List Request) : List Act → List Move
  | [] => []
  | a :: as => a.moves limit q ++ movesOf limit (a.queueAfter limit q) as

/-- What an operation does to the requests of a flow. -/
def moves (backend : Backend W) (now : Time.Moment) (flow : FlowId) (i : Ingress) (s : State W) :
    List Move :=
  match i with
  | .bytes flow' side bytes snapshot =>
    if flow' = flow then
      movesOf s.pending.limit (s.pending.queue flow)
        (s.callActs backend now flow side snapshot bytes)
    else []
  | .closed flow' =>
    if flow' = flow then (s.pending.queue flow).map (.leaves · .dropped) else []
  | .call _ | .resolution _ _ _ | .pressure => []

theorem departed_leaves (q : List Request) (how : Departure) :
    departed (q.map (.leaves · how)) = q ∧ entered (q.map (.leaves · how)) = [] := by
  induction q with
  | nil => exact ⟨rfl, rfl⟩
  | cons r q ih => exact ⟨congrArg (List.cons r) ih.1, ih.2⟩

theorem balanced_leaves (q : List Request) (how : Departure) :
    Balanced q (q.map (.leaves · how)) [] := by
  obtain ⟨hdeparted, hentered⟩ := departed_leaves q how
  rw [Balanced, hdeparted, hentered]

theorem balanced_take (r : Request) {q : List Request} (h : q.head? = some r) (how : Departure) :
    Balanced q [.leaves r how] q.tail := by
  obtain ⟨rest, rfl⟩ := List.head?_eq_some_iff.mp h
  exact List.append_nil _

/-- **Who is given up is the oldest.** -/
theorem balanced_wait (limit : Nat) (q : List Request) (r : Request) :
    Balanced q (evictions limit q ++ [.enters r]) (Pending.makeRoom limit q ++ [r]) := by
  unfold evictions Pending.makeRoom
  split
  · cases q with
    | nil => rfl
    | cons oldest q => rfl
  · rfl

section Handling

variable {backend : Backend W} {fit : W → Prop} {now : Time.Moment} {flow other : FlowId}
  {side : Side} {snapshot : Option Text} {s t : State W} {f : Framed} {fs : List Framed} {a : Act}
  {as : List Act}

theorem head?_of_takeOldest {p q : Pending} {r : Request}
    (h : p.takeOldest flow = (some r, q)) : (p.queue flow).head? = some r := by
  rw [← Pending.takeOldest_fst, h]

/-- **An act leaves no request unaccounted for.** -/
theorem Handles.balanced (h : Handles backend now flow snapshot s f side a t) :
    Balanced (s.pending.queue flow) (a.moves s.pending.limit (s.pending.queue flow))
      (t.pending.queue flow) := by
  have hqueue := h.queue
  rw [hqueue]
  cases h with
  | unusable | announce | breakOff => exact .refl _
  | block => exact List.append_nil (s.pending.queue flow)
  | wait => exact balanced_wait _ _ _
  | unasked _ hq =>
    have hnil : s.pending.queue flow = [] := by
      rw [← List.head?_eq_none_iff, ← Pending.takeOldest_fst, hq]
    rw [hnil]
    exact .refl _
  | @conclude r _ matched _ _ hq =>
    have hhead := head?_of_takeOldest hq
    cases answer? s.config f with
    | none => exact balanced_take r hhead _
    | some response => exact balanced_take r hhead _
  | @breakOffOldest r _ _ _ hq => exact balanced_take r (head?_of_takeOldest hq) _

/-- **Nor do the acts of a call.** -/
theorem HandlesAll.balanced (h : HandlesAll backend now flow side snapshot s fs as t) :
    Balanced (s.pending.queue flow) (movesOf s.pending.limit (s.pending.queue flow) as)
      (t.pending.queue flow) := by
  induction h with
  | nil s => exact .refl _
  | cons h _ _ ih =>
    rw [h.queue, h.limits.2] at ih
    rw [movesOf]
    have hstep := h.balanced
    rw [h.queue] at hstep
    exact hstep.trans ih
  | breakOff h _ =>
    rw [movesOf, movesOf, List.append_nil]
    exact h.balanced

theorem HandlesAll.queue_other (h : HandlesAll backend now flow side snapshot s fs as t)
    (ho : other ≠ flow) : t.pending.queue other = s.pending.queue other := by
  induction h with
  | nil s => rfl
  | cons h _ _ ih => rw [ih, h.queue_other ho]
  | breakOff h _ => exact h.queue_other ho

theorem pending_settle_judge (request : Request) (response : Option Response) (value : Text) :
    (settle (s.judge backend now request response value)).2.pending = s.pending := by
  rw [snd_settle, pending_judge]

/-- **Every operation accounts for the requests of every flow.** -/
theorem balanced_ingress (backend : Backend W) (now : Time.Moment) (flow : FlowId) (i : Ingress)
    (s : State W) :
    Balanced (s.pending.queue flow) (s.moves backend now flow i)
      ((s.ingress backend now i).2.pending.queue flow) := by
  cases i with
  | bytes flow' side bytes snapshot =>
    have hrun := handlesAll_onBytes backend now flow' side snapshot s bytes
    unfold moves
    simp only []
    split
    · next he =>
      subst he
      exact hrun.balanced
    · next hne =>
      have hqueue := hrun.queue_other (Ne.symm hne)
      simp only [ingress, hqueue]
      exact .refl _
  | call call =>
    simp only [ingress, onCall, pending_settle_judge]
    exact .refl _
  | resolution host addresses snapshot =>
    simp only [ingress, onResolution]
    split
    · exact .refl _
    · rw [pending_settle_judge]
      exact .refl _
  | closed flow' =>
    unfold moves
    simp only [ingress, onClosed]
    split
    · next he =>
      subst he
      rw [Pending.queue_removeFlow_self]
      exact balanced_leaves _ _
    · next hne =>
      rw [Pending.queue_removeFlow_other (Ne.symm hne)]
      exact .refl _
  | pressure => exact .refl _

end Handling

end State

/-! ## 3. How requests leave -/

/-- What an entry that ends an exchange makes of the request that it takes: a decision with its
    response, or without one when it was lost. -/
def Departure.EndsBy (config : Config) (f : Framed) : Departure → Prop
  | answered response _ => State.answer? config f = some response
  | unanswered _ => ∃ n, f = .lost n
  | evicted | dropped | interrupted => False

/-- Only where a response was lost there is none. -/
theorem lost_of_no_answer {config : Config} {f : Framed} (hf : f.IsOf .response)
    (h : State.answer? config f = none) : ∃ n, f = .lost n := by
  have hnone := Option.map_eq_none_iff.mp h
  cases f with
  | lost n => exact ⟨n, rfl⟩
  | message m | truncated m =>
    obtain ⟨line, hline, -⟩ := (hf m rfl).code
    simp only [Framed.response?, Response.ofMessage, hline] at hnone
    cases hnone

namespace State

/-- How requests of the flow leave when an operation comes: with the next entries that end an
    exchange, or for later requests, or when the flow is closed. -/
def DepartsBy (flow : FlowId) (i : Ingress) (s : State W) (ds : List (Request × Departure)) :
    Prop :=
  match i with
  | .bytes flow' side bytes _ =>
    if flow' = flow then
      match side with
      | .request => ∀ d ∈ ds, d.2 = .evicted
      | .response =>
        List.Forall₂ (fun taken d => d.1 = taken.1 ∧ d.2.EndsBy s.config taken.2)
          ((s.pending.queue flow).zip
            ((s.framed flow .response bytes).1.filter Framed.endsExchange)) ds
    else ds = []
  | .closed flow' =>
    ds = if flow' = flow then (s.pending.queue flow).map fun r => (r, .dropped) else []
  | .call _ | .resolution _ _ _ | .pressure => ds = []

section Departing

variable {backend : Backend W} {fit : W → Prop} {now : Time.Moment} {flow : FlowId}
  {snapshot : Option Text} {s t : State W} {f : Framed} {fs : List Framed} {a : Act}
  {as : List Act}

theorem departures_evictions (limit : Nat) (q : List Request) :
    ∀ d ∈ departures (evictions limit q), d.2 = .evicted := by
  unfold evictions
  split
  · cases q with
    | nil => exact List.forall_mem_nil _
    | cons oldest q => exact List.forall_mem_singleton.mpr rfl
  · exact List.forall_mem_nil _

theorem Handles.evicts (h : Handles backend now flow snapshot s f .request a t) (limit : Nat)
    (q : List Request) : ∀ d ∈ departures (a.moves limit q), d.2 = .evicted := by
  cases h with
  | unusable | block | breakOff => exact List.forall_mem_nil _
  | wait =>
    rw [Act.moves, departures_append]
    exact List.forall_mem_append.mpr ⟨departures_evictions limit q, List.forall_mem_nil _⟩

/-- **Requests that arrive make no others leave but at the limit.** -/
theorem HandlesAll.evicts (h : HandlesAll backend now flow .request snapshot s fs as t)
    (limit : Nat) (q : List Request) :
    ∀ d ∈ departures (movesOf limit q as), d.2 = .evicted := by
  induction h generalizing q with
  | nil s => exact List.forall_mem_nil _
  | cons h _ _ ih =>
    rw [movesOf, departures_append]
    exact List.forall_mem_append.mpr ⟨h.evicts limit q, ih _⟩
  | breakOff h _ =>
    rw [movesOf, movesOf, List.append_nil]
    exact h.evicts limit q

/-- An entry that ends an exchange takes the oldest request, and any other takes none; those behind
    it take the rest. -/
theorem Handles.takes (h : Handles backend now flow snapshot s f .response a t)
    (hf : f.IsOf .response) (hbreak : a.breaksOff = false) {behind : List Framed}
    {ds : List (Request × Departure)}
    (hbehind : List.Forall₂ (fun taken d => d.1 = taken.1 ∧ d.2.EndsBy s.config taken.2)
      ((t.pending.queue flow).zip behind) ds) :
    List.Forall₂ (fun taken d => d.1 = taken.1 ∧ d.2.EndsBy s.config taken.2)
      ((s.pending.queue flow).zip ([f].filter Framed.endsExchange ++ behind))
      (departures (a.moves s.pending.limit (s.pending.queue flow)) ++ ds) := by
  rw [h.queue] at hbehind
  cases h with
  | announce hpass =>
    rw [List.filter_cons_of_neg (by rw [hpass]; decide)]
    exact hbehind
  | unasked _ hq =>
    have hnil : s.pending.queue flow = [] := by
      rw [← List.head?_eq_none_iff, ← Pending.takeOldest_fst, hq]
    rw [hnil] at hbehind ⊢
    exact hbehind
  | conclude hends hq =>
    obtain ⟨q, hqueue⟩ := List.head?_eq_some_iff.mp (head?_of_takeOldest hq)
    rw [hqueue] at hbehind ⊢
    rw [List.filter_cons_of_pos hends]
    cases hanswer : answer? s.config f with
    | none => exact .cons ⟨rfl, lost_of_no_answer hf hanswer⟩ hbehind
    | some response => exact .cons ⟨rfl, hanswer⟩ hbehind
  | breakOffOldest => cases hbreak

/-- **The entries that end exchanges take the oldest requests**, one after the other. -/
theorem HandlesAll.takes (h : HandlesAll backend now flow .response snapshot s fs as t)
    (hfs : ∀ f ∈ fs, f.IsOf .response) (hcalm : as.any Act.breaksOff = false) :
    List.Forall₂ (fun taken d => d.1 = taken.1 ∧ d.2.EndsBy s.config taken.2)
      ((s.pending.queue flow).zip (fs.filter Framed.endsExchange))
      (departures (movesOf s.pending.limit (s.pending.queue flow) as)) := by
  induction h with
  | nil s =>
    rw [List.filter_nil, List.zip_nil_right]
    exact .nil
  | @cons s u t f fs a as h hbreak _ ih =>
    rw [List.any_cons, Bool.or_eq_false_iff] at hcalm
    obtain ⟨hf, hfs⟩ := List.forall_mem_cons.mp hfs
    have hbehind := ih hfs hcalm.2
    rw [h.limits.1, h.limits.2] at hbehind
    rw [movesOf, departures_append, ← List.singleton_append, List.filter_append, ← h.queue]
    exact h.takes hf hbreak hbehind
  | breakOff _ hbreak =>
    rw [List.any_cons, hbreak] at hcalm
    cases hcalm

/-- **Every operation makes requests leave in its own way.** -/
theorem departsBy_ingress (hb : backend.Calm fit) (hw : fit s.world) (now : Time.Moment)
    (flow : FlowId) (i : Ingress) :
    s.DepartsBy flow i (departures (s.moves backend now flow i)) := by
  cases i with
  | bytes flow' side bytes snapshot =>
    have hrun := handlesAll_onBytes backend now flow' side snapshot s bytes
    have hcalm := callActs_calm now flow' side snapshot hb hw bytes
    unfold DepartsBy moves
    simp only []
    split
    · next he =>
      subst he
      cases side with
      | request => exact hrun.evicts _ _
      | response => exact hrun.takes (isOf_framed s flow' .response bytes) hcalm
    · rfl
  | closed flow' =>
    unfold DepartsBy moves
    simp only []
    split
    · generalize s.pending.queue flow = q
      induction q with
      | nil => rfl
      | cons r q ih => exact congrArg (List.cons (r, Departure.dropped)) ih
    · rfl
  | call | resolution | pressure => rfl

end Departing

end State

/-! ## 4. Runs with a record -/

/-- The states that runs reach, with the moves on a flow so far. -/
inductive Booked (backend : Backend W) (fit : W → Prop) (flow : FlowId) :
    State W → List Move → Prop where
  | start {config : Config} {world : W} {s : State W} (hconfig : config.validate = .ok config)
      (hworld : fit world) (hs : State.start? config world = some s) :
      Booked backend fit flow s []
  | ingress {s : State W} {moves : List Move} (h : Booked backend fit flow s moves)
      (now : Time.Moment) (i : Ingress) :
      Booked backend fit flow (s.ingress backend now i).2
        (moves ++ s.moves backend now flow i)
  | outside {s : State W} {moves : List Move} (h : Booked backend fit flow s moves) {world : W}
      (hworld : fit world) : Booked backend fit flow { s with world } moves

section Runs

variable {backend : Backend W} {fit : W → Prop} {flow : FlowId} {s : State W} {moves : List Move}

theorem Booked.reachable (h : Booked backend fit flow s moves) : Reachable backend fit s := by
  induction h with
  | start hconfig hworld hs => exact .start hconfig hworld hs
  | ingress _ now i ih => exact ih.ingress now i
  | outside _ hworld ih => exact ih.outside hworld

/-- **Every run has its record.** -/
theorem Reachable.booked (h : Reachable backend fit s) (flow : FlowId) :
    ∃ moves, Booked backend fit flow s moves := by
  induction h with
  | start hconfig hworld hs => exact ⟨[], .start hconfig hworld hs⟩
  | ingress _ now i ih =>
    obtain ⟨moves, h⟩ := ih
    exact ⟨_, h.ingress now i⟩
  | outside _ hworld ih =>
    obtain ⟨moves, h⟩ := ih
    exact ⟨_, h.outside hworld⟩

/-- **In every run those who entered a queue are those who left it and those who wait.** -/
theorem Booked.balanced (h : Booked backend fit flow s moves) :
    entered moves = departed moves ++ s.pending.queue flow := by
  induction h with
  | start _ _ hs =>
    obtain ⟨_, _, rfl⟩ := Option.map_eq_some_iff.mp hs
    rfl
  | @ingress s moves _ now i ih =>
    have hstep := State.balanced_ingress backend now flow i s
    rw [entered_append, departed_append, ih, List.append_assoc, hstep, List.append_assoc]
  | outside _ _ ih => exact ih

/-- Moves without a look-up that breaks off. -/
def Uninterrupted (moves : List Move) : Prop := ∀ d ∈ departures moves, d.2 ≠ .interrupted

theorem uninterrupted_nil : Uninterrupted [] := List.forall_mem_nil _

theorem Uninterrupted.append {a b : List Move} (ha : Uninterrupted a) (hb : Uninterrupted b) :
    Uninterrupted (a ++ b) := by
  intro d hd
  rw [departures_append, List.mem_append] at hd
  exact hd.elim (ha d) (hb d)

theorem uninterrupted_leaves (q : List Request) {how : Departure} (h : how ≠ .interrupted) :
    Uninterrupted (q.map (.leaves · how)) := by
  induction q with
  | nil => exact uninterrupted_nil
  | cons r q ih => exact List.forall_mem_cons.mpr ⟨h, ih⟩

theorem uninterrupted_act {a : State.Act} (h : a.breaksOff = false) (limit : Nat)
    (q : List Request) : Uninterrupted (a.moves limit q) := by
  cases a with
  | pass | unasked | block => exact uninterrupted_nil
  | wait r =>
    refine Uninterrupted.append ?_ uninterrupted_nil
    unfold State.evictions
    split
    · exact uninterrupted_leaves _ (by decide)
    · exact uninterrupted_nil
  | conclude r response matched =>
    cases response with
    | none => exact uninterrupted_leaves [r] (by intro he; cases he)
    | some response => exact uninterrupted_leaves [r] (by intro he; cases he)
  | breakOff taken => cases h

theorem uninterrupted_acts {as : List State.Act} (h : as.any State.Act.breaksOff = false)
    (limit : Nat) (q : List Request) : Uninterrupted (State.movesOf limit q as) := by
  induction as generalizing q with
  | nil => exact uninterrupted_nil
  | cons a as ih =>
    rw [List.any_cons, Bool.or_eq_false_iff] at h
    exact (uninterrupted_act h.1 limit q).append (ih h.2 _)

/-- **With a calm source no look-up of a run breaks off.** -/
theorem Booked.uninterrupted (hb : backend.Calm fit) (h : Booked backend fit flow s moves) :
    Uninterrupted moves := by
  induction h with
  | start => exact uninterrupted_nil
  | @ingress s moves h now i ih =>
    refine ih.append ?_
    unfold State.moves
    cases i with
    | bytes flow' side bytes snapshot =>
      simp only []
      split
      · next he =>
        subst he
        exact uninterrupted_acts
          (State.callActs_calm now flow' side snapshot hb
            (h.reachable.fit_world hb.toKeeps) bytes) _ _
      · exact uninterrupted_nil
    | closed flow' =>
      simp only []
      split
      · exact uninterrupted_leaves _ (by decide)
      · exact uninterrupted_nil
    | call | resolution | pressure => exact uninterrupted_nil
  | outside _ _ ih => exact ih

/-! ## 5. Numbers -/

/-- The arrivals that were not blocked, with their numbers. -/
def tickets (as : List (Request × Option Rule)) : List ((Request × Option Rule) × Nat) :=
  as.zipIdx.filter fun e => e.1.2.isNone

/-- The numbers of the arrivals that were blocked. -/
def blockedNumbers (as : List (Request × Option Rule)) : List Nat :=
  (as.zipIdx.filter fun e => !e.1.2.isNone).map Prod.snd

/-- The requests that left the queue, each with its number and how it left: the `k`-th that leaves
    is the `k`-th that entered. -/
def numberedDepartures (moves : List Move) : List (Nat × Request × Departure) :=
  ((tickets (arrivals moves)).map Prod.snd).zip (departures moves)

/-- The numbers of the arrivals that were decided, when they came or later. -/
def decidedNumbers (moves : List Move) : List Nat :=
  blockedNumbers (arrivals moves) ++
    ((numberedDepartures moves).filter fun d => d.2.2.isDecision).map Prod.fst

theorem map_tickets (as : List (Request × Option Rule)) :
    (tickets as).map (fun e => e.1.1) = State.waiting as := by
  have hfst : as.zipIdx.map Prod.fst = as := List.zipIdx_map_fst 0 as
  rw [State.waiting]
  conv_rhs => rw [← hfst]
  rw [List.filter_map, List.map_map]
  rfl

/-- **Every arrival has a number of its own**, blocked or not. -/
theorem nodup_numbers (as : List (Request × Option Rule)) :
    (blockedNumbers as ++ (tickets as).map Prod.snd).Nodup := by
  have hall : (as.zipIdx.map Prod.snd).Nodup := by
    rw [List.zipIdx_map_snd]
    exact List.nodup_range'
  rw [blockedNumbers, tickets, ← List.map_append]
  refine ((List.Perm.map Prod.snd ?_).nodup_iff).mpr hall
  exact List.perm_append_comm.trans (List.filter_append_perm _ _)

theorem map_fst_zip_sublist {α β : Type} (l : List α) (m : List β) :
    ((l.zip m).map Prod.fst).Sublist l := by
  induction l generalizing m with
  | nil => exact List.Sublist.refl []
  | cons x l ih =>
    cases m with
    | nil => exact List.nil_sublist _
    | cons y m => exact (ih m).cons_cons x

/-- **No number is decided twice.** -/
theorem nodup_decidedNumbers (moves : List Move) : (decidedNumbers moves).Nodup := by
  refine (nodup_numbers (arrivals moves)).sublist (List.Sublist.append (.refl _) ?_)
  exact (List.filter_sublist.map Prod.fst).trans (map_fst_zip_sublist _ _)

/-- Who leaves under a number is who arrived under it and was not blocked. -/
theorem arrival_of_departure {q : List Request} (h : entered moves = departed moves ++ q)
    {n : Nat} {r : Request} {how : Departure} (hd : (n, r, how) ∈ numberedDepartures moves) :
    (arrivals moves)[n]? = some (r, none) := by
  obtain ⟨k, hk⟩ := List.mem_iff_getElem?.mp hd
  obtain ⟨hnumber, hleft⟩ := List.getElem?_zip_eq_some.mp hk
  rw [List.getElem?_map] at hnumber
  obtain ⟨e, he, rfl⟩ := Option.map_eq_some_iff.mp hnumber
  -- the `k`-th that entered is the `k`-th that left
  have hentered : (entered moves)[k]? = some e.1.1 := by
    rw [entered, ← map_tickets, List.getElem?_map, he]
    rfl
  have hdeparted : (departed moves)[k]? = some r := by
    rw [departed, List.getElem?_map, hleft]
    rfl
  have hr : e.1.1 = r := by
    rw [h, List.getElem?_append_left (List.getElem?_eq_some_iff.mp hdeparted).1, hdeparted]
      at hentered
    exact (Option.some.inj hentered).symm
  obtain ⟨hmem, hnone⟩ := List.mem_filter.mp (List.mem_of_getElem? he)
  have harrival := List.mem_zipIdx_iff_getElem?.mp hmem
  rw [harrival, ← hr]
  exact congrArg some (Prod.ext rfl (Option.isNone_iff_eq_none.mp hnone))

/-! ## 6. Every run -/

/-- What became of the requests of a flow of which `queue` wait. -/
structure Conserved (moves : List Move) (queue : List Request) : Prop where
  /-- Who entered has left, or waits, in the order of arrival. -/
  fifo : entered moves = departed moves ++ queue
  /-- Nobody leaves but by a decision, at the limit, or when the flow is closed. -/
  uninterrupted : Uninterrupted moves
  /-- Who leaves arrived before and was not blocked. -/
  arrived : ∀ n r how, (n, r, how) ∈ numberedDepartures moves →
    (arrivals moves)[n]? = some (r, none)
  /-- Nobody is decided twice, nor after being blocked. -/
  once : (decidedNumbers moves).Nodup
  /-- Nobody is lost. -/
  balance : (entered moves).length =
    (departures moves).countP (fun d => d.2.isDecision) +
      (departures moves).countP (fun d => decide (d.2 = .evicted)) +
      (departures moves).countP (fun d => decide (d.2 = .dropped)) + queue.length

theorem length_departures {ds : List (Request × Departure)} (h : ∀ d ∈ ds, d.2 ≠ .interrupted) :
    ds.length = ds.countP (fun d => d.2.isDecision) +
      ds.countP (fun d => decide (d.2 = .evicted)) +
      ds.countP (fun d => decide (d.2 = .dropped)) := by
  induction ds with
  | nil => rfl
  | cons d ds ih =>
    obtain ⟨hd, hrest⟩ := List.forall_mem_cons.mp h
    have hlength := ih hrest
    obtain ⟨r, how⟩ := d
    have hone : (if how.isDecision then 1 else 0) + (if decide (how = .evicted) then 1 else 0) +
        (if decide (how = .dropped) then 1 else 0) = 1 := by
      cases how with
      | interrupted => exact absurd rfl hd
      | _ => rfl
    simp only [List.length_cons, List.countP_cons]
    omega

/-- **Requests are conserved.** Beside every run from a new engine, with a source that does not
    break off, and on every flow: each request that entered the queue left it once at most and in the
    order of arrival, by a decision with the response framed next or without a lost one, at the
    limit, or when the flow was closed; none was decided twice, nor after it was blocked; and those
    that entered are those that left in these ways and those that wait. Each operation makes
    requests leave in its own way: the final responses that it frames, and the lost ones, take the
    oldest requests in their order. The requests that wait in all are those of the flows
    together. -/
theorem Booked.conserves (hb : backend.Calm fit) (h : Booked backend fit flow s moves) :
    Conserved moves (s.pending.queue flow) ∧
      (∀ now i, s.DepartsBy flow i (departures (s.moves backend now flow i))) ∧
      ∀ flows : List FlowId, flows.Nodup → (∀ other, s.pending.count other ≠ 0 → other ∈ flows) →
        s.pending.total = Seq.total (flows.map fun other => s.pending.count other) := by
  have hfifo := h.balanced
  have huninterrupted := h.uninterrupted hb
  refine ⟨⟨hfifo, huninterrupted, fun n r how => arrival_of_departure hfifo,
    nodup_decidedNumbers moves, ?_⟩, fun now i => State.departsBy_ingress hb
      (h.reachable.fit_world hb.toKeeps) now flow i, fun flows => h.reachable.kept.total_eq⟩
  rw [hfifo, List.length_append, ← length_departures huninterrupted, departed, List.length_map]

end Runs

/-- A response without a body. -/
def emptyResponse : Bytes := Utf8.encode "HTTP/1.1 204 No Content\r\n\r\n".toList

/-- Of two requests the first is blocked; the second waits, and is decided with the response. -/
theorem conserves_two_paths :
    ∃ s moves, Booked memory (fun _ => True) ⟨7, false⟩ s moves ∧
      (decidedNumbers moves = [0, 1] ∧ (entered moves).length = 1) ∧
      Conserved moves (s.pending.queue ⟨7, false⟩) := by
  obtain ⟨s, hs⟩ : ∃ s, State.start? Config.defaults (ruledPath, Shelf.empty) = some s := ⟨_, rfl⟩
  have hbooked : Booked memory (fun _ => True) ⟨7, false⟩ _ _ :=
    ((Booked.start Config.validate_defaults trivial hs).ingress ⟨⟨0, 0⟩, 0⟩
      (.bytes ⟨7, false⟩ .request twoPaths none)).ingress ⟨⟨1, 0⟩, 1⟩
      (.bytes ⟨7, false⟩ .response emptyResponse none)
  refine ⟨_, _, hbooked, ?_, (Booked.conserves calm_memory hbooked).1⟩
  have hrun : ((State.start? Config.defaults (ruledPath, Shelf.empty)).all fun s =>
      let i := .bytes ⟨7, false⟩ .request twoPaths none
      let j := .bytes ⟨7, false⟩ .response emptyResponse none
      let moves := [] ++ s.moves memory ⟨⟨0, 0⟩, 0⟩ ⟨7, false⟩ i ++
        (s.ingress memory ⟨⟨0, 0⟩, 0⟩ i).2.moves memory ⟨⟨1, 0⟩, 1⟩ ⟨7, false⟩ j
      decide (decidedNumbers moves = [0, 1] ∧ (entered moves).length = 1)) = true := by
    decide +kernel
  rw [hs, Option.all_some] at hrun
  exact of_decide_eq_true hrun

end TrafficGate.Engine
