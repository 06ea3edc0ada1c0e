import TrafficGate.Proofs.Conservation
/-!
  # Flows do not disturb each other

  All flows share the cache of answers, the keys that were published, the kept bodies and the tables
  of buffers and queues. What a flow has is still its own: its dispositions, its queue and its buffers
  are those of the run in which nothing but the flow itself takes place. Two flows with one number,
  of which one is secure, are different flows.

  1. rows of the buffers;
  2. `Constant` -- a source of rules that always gives the same answers, whatever the keeper of
     bodies does;
  3. `AlikeAt` -- states that have the same for a flow;
  4. operations elsewhere, which leave a flow as it is, whatever the source does;
  5. operations on the flow, told from the rules and from what the flow has;
  6. runs.

  Main facts: **`alikeAt_ingress_elsewhere`**, **`act_eq_ruledAct`**, **`AlikeAt.ingress`** and
  **`Reachable.isolates`**.
-/

namespace TrafficGate

open Http TrafficGate.Stream Exchange Rule Verdict

/-! ## 1. Rows -/

namespace Stream.Buffers

variable {flow other : FlowId} {side : Side}

theorem find?_keep_self (flow : FlowId) (side : Side) (b : Buffer) (s : Buffers) :
    (s.keep flow side b).table.find? (flow, side) = if b.isIdle then none else some b := by
  unfold keep
  split
  · exact Table.find?_erase_self _ _
  · exact Table.find?_set_self _ _ _

/-- **A flow that is dropped has no row left.** -/
theorem find?_removeFlow_self (flow : FlowId) (side : Side) (s : Buffers) :
    (s.removeFlow flow).table.find? (flow, side) = none := by
  cases side with
  | request =>
    exact (Table.find?_erase_other (by simp) _).trans (Table.find?_erase_self _ _)
  | response => exact Table.find?_erase_self _ _

/-- **The rows of the other flows stay.** -/
theorem find?_removeFlow_other (h : other ≠ flow) (side : Side) (s : Buffers) :
    (s.removeFlow flow).table.find? (other, side) = s.table.find? (other, side) := by
  have hkey : ∀ side', (other, side) ≠ (flow, side') := fun side' he => h (Prod.mk.inj he).1
  exact (Table.find?_erase_other (hkey .response) _).trans
    (Table.find?_erase_other (hkey .request) _)

end Stream.Buffers

namespace Engine

variable {W : Type}

/-! ## 2. Rules that stay the same -/

/-- In fit worlds the source always answers, and always the same. -/
structure Backend.Constant (backend : Backend W) (fit : W → Prop)
    (answer : Kind → Text → Option Rule) : Prop extends Backend.Keeps backend fit where
  answers : ∀ {w}, fit w → ∀ kind value,
    (backend.rules.query kind value w).1 = .answer (answer kind value)

/-- The collaborators with a keeper that keeps nothing. -/
def Backend.keepless (backend : Backend W) : Backend W :=
  { backend with blobs := { keep := fun _ _ w => (none, w) } }

section Constant

variable {backend : Backend W} {fit : W → Prop} {answer : Kind → Text → Option Rule}
  {s t : State W}

/-- Without bodies that are kept nothing but the answers has to be steady. -/
theorem Backend.Constant.steady_keepless (hb : backend.Constant fit answer) :
    backend.keepless.Steady fit answer (fun _ => ()) { keep := fun _ _ u => (none, u) } where
  query hw := hb.query hw
  keep hw _ _ := hw
  answers hw := hb.answers hw
  shelf_query _ _ _ := rfl
  handle_keep _ _ _ := rfl
  shelf_keep _ _ _ := rfl

/-- **A look-up finds what the rules say**, and the state stays faithful to them. The keeper of
    bodies is not asked. -/
theorem lookUp_constant (hb : backend.Constant fit answer) (hs : s.Faithful fit answer)
    (now : Time.Moment) (value : Text) :
    (s.lookUp backend now value).1 = .done (find answer value) ∧
      (s.lookUp backend now value).2.Faithful fit answer := by
  obtain ⟨cache, world, hlook, hfaithful, _⟩ := lookUp_steady hb.steady_keepless hs now value
  have hsame : s.lookUp backend now value = s.lookUp backend.keepless now value := rfl
  rw [hsame, hlook]
  exact ⟨rfl, hfaithful⟩

theorem Backend.Constant.faithful_change (hb : backend.Constant fit answer)
    (h : State.Change backend s t) (hs : s.Faithful fit answer) : t.Faithful fit answer := by
  refine ⟨fit_change hb.toKeeps h hs.1, ?_⟩
  cases h with
  | handling h =>
    cases h with
    | lookUp now value => exact (lookUp_constant hb hs now value).2.2
    | dispatch | push | takeOldest => exact hs.2
  | receive | close => exact hs.2
  | clear => exact Cache.every_clear s.cache

/-- **Every state of a run is faithful to rules that stay the same.** -/
theorem Backend.Constant.faithful (hb : backend.Constant fit answer)
    (h : Reachable backend fit s) : s.Faithful fit answer := by
  refine h.invariant (fun {config world s} _ hw hs => ?_) hb.faithful_change
    (fun hw hs => ⟨hw, hs.2⟩)
  obtain ⟨cache, hcache, rfl⟩ := Option.map_eq_some_iff.mp hs
  exact ⟨hw, Cache.every_new? hcache⟩

end Constant

namespace State

/-! ## 3. What a flow has -/

/-- Two states with the same limits, the same queue of the flow and the same buffers of both its
    sides, with what is being dropped there. -/
structure AlikeAt (flow : FlowId) (s t : State W) : Prop where
  config : s.config = t.config
  room : s.pending.limit = t.pending.limit
  queue : s.pending.queue flow = t.pending.queue flow
  limit : s.buffers.limit = t.buffers.limit
  rows : ∀ side, s.buffers.table.find? (flow, side) = t.buffers.table.find? (flow, side)

theorem AlikeAt.refl (flow : FlowId) (s : State W) : AlikeAt flow s s :=
  ⟨rfl, rfl, rfl, rfl, fun _ => rfl⟩

theorem AlikeAt.symm {flow : FlowId} {s t : State W} (h : AlikeAt flow s t) : AlikeAt flow t s :=
  ⟨h.config.symm, h.room.symm, h.queue.symm, h.limit.symm, fun side => (h.rows side).symm⟩

theorem AlikeAt.trans {flow : FlowId} {s t u : State W} (h : AlikeAt flow s t)
    (h' : AlikeAt flow t u) : AlikeAt flow s u :=
  ⟨h.config.trans h'.config, h.room.trans h'.room, h.queue.trans h'.queue,
    h.limit.trans h'.limit, fun side => (h.rows side).trans (h'.rows side)⟩

end State

/-! ## 4. Operations elsewhere -/

/-- Whether an operation is one on the flow. -/
def Ingress.concerns (flow : FlowId) : Ingress → Bool
  | .bytes other _ _ _ => other = flow
  | .closed other => other = flow
  | .call _ | .resolution _ _ _ | .pressure => false

namespace State

section Elsewhere

variable {backend : Backend W} {now : Time.Moment} {flow other : FlowId} {side : Side}
  {snapshot : Option Text} {s t : State W} {fs : List Framed} {as : List Act}

theorem HandlesAll.limits (h : HandlesAll backend now flow side snapshot s fs as t) :
    t.config = s.config ∧ t.pending.limit = s.pending.limit := by
  induction h with
  | nil s => exact ⟨rfl, rfl⟩
  | cons h _ _ ih => exact ⟨ih.1.trans h.limits.1, ih.2.trans h.limits.2⟩
  | breakOff h _ => exact h.limits

theorem alikeAt_settle_judge (backend : Backend W) (now : Time.Moment) (flow : FlowId)
    (request : Request) (response : Option Response) (value : Text) (s : State W) :
    AlikeAt flow s (settle (s.judge backend now request response value)).2 := by
  have hpending : (settle (s.judge backend now request response value)).2.pending = s.pending :=
    pending_settle_judge request response value
  obtain ⟨hconfig, hbuffers⟩ := (handlings_judge backend now request response value s).frame
  rw [← snd_settle] at hconfig hbuffers
  exact ⟨hconfig.symm, by rw [hpending], by rw [hpending], by rw [hbuffers], by simp [hbuffers]⟩

/-- **Closing a flow leaves every other one.** -/
theorem alikeAt_onClosed (h : flow ≠ other) (s : State W) : AlikeAt flow s (s.onClosed other) :=
  ⟨rfl, rfl, (Pending.queue_removeFlow_other h s.pending).symm, rfl,
    fun side => (Buffers.find?_removeFlow_other h side s.buffers).symm⟩

/-- **An operation elsewhere leaves what a flow has**, also when the source breaks off in it. -/
theorem alikeAt_ingress_elsewhere {i : Ingress} (h : i.concerns flow = false)
    (backend : Backend W) (now : Time.Moment) (s : State W) :
    AlikeAt flow s (s.ingress backend now i).2 := by
  cases i with
  | bytes other side bytes snapshot =>
    have hne : flow ≠ other := fun he => of_decide_eq_false h he.symm
    have hrun := handlesAll_onBytes backend now other side snapshot s bytes
    have hbuffers := buffers_onBytes backend now other side bytes snapshot s
    obtain ⟨hconfig, hlimit⟩ := hrun.limits
    refine ⟨hconfig.symm, hlimit.symm, (hrun.queue_other hne).symm, ?_, fun side' => ?_⟩
    · exact ((congrArg Buffers.limit hbuffers).trans (Buffers.limit_receive ..)).symm
    · have hkey : (flow, side') ≠ (other, side) := fun he => hne (Prod.mk.inj he).1
      simp only [ingress, hbuffers, framed]
      exact (Buffers.find?_receive_other hkey _ bytes s.buffers).symm
  | call call => exact alikeAt_settle_judge backend now flow _ _ _ s
  | resolution host addresses snapshot =>
    simp only [ingress, onResolution]
    split
    · exact .refl flow s
    · exact alikeAt_settle_judge backend now flow _ _ _ s
  | closed other => exact alikeAt_onClosed (fun he => of_decide_eq_false h he.symm) s
  | pressure => exact ⟨rfl, rfl, rfl, rfl, fun _ => rfl⟩

end Elsewhere

/-! ## 5. Operations on the flow -/

/-- The act of an entry as the rules and the queue of the flow tell it. -/
def ruledAct (answer : Kind → Text → Option Rule) (config : Config) (flow : FlowId) (side : Side)
    (snapshot : Option Text) (f : Framed) (queue : List Request) : Act :=
  match side with
  | .request =>
    match usable? config flow snapshot f with
    | none => .pass
    | some request =>
      match find answer request.canonical with
      | none => .wait request
      | some rule => .block request rule
  | .response =>
    if f.endsExchange then
      match queue.head? with
      | none => .unasked
      | some request => .conclude request (answer? config f) (find answer request.canonical)
    else .pass

section Own

variable {backend : Backend W} {fit : W → Prop} {answer : Kind → Text → Option Rule}
  {flow : FlowId} {side : Side} {s t : State W} {f : Framed} {fs : List Framed}

/-- **What an entry comes to does not depend on what the flows share.** -/
theorem act_eq_ruledAct (hb : backend.Constant fit answer) (hs : s.Faithful fit answer)
    (now : Time.Moment) (snapshot : Option Text) :
    s.act backend now flow side snapshot f =
      ruledAct answer s.config flow side snapshot f (s.pending.queue flow) := by
  unfold act ruledAct
  cases side with
  | request =>
    simp only []
    cases usable? s.config flow snapshot f with
    | none => rfl
    | some request =>
      simp only [(lookUp_constant hb hs now request.canonical).1]
      cases find answer request.canonical <;> rfl
  | response =>
    simp only []
    split
    · have hhead := Pending.takeOldest_fst flow s.pending
      cases hq : s.pending.takeOldest flow with
      | mk oldest pending =>
        rw [hq] at hhead
        obtain rfl : oldest = (s.pending.queue flow).head? := hhead
        cases (s.pending.queue flow).head? with
        | none => rfl
        | some request =>
          have htaken : State.Faithful fit answer { s with pending } := hs
          simp only [(lookUp_constant hb htaken now request.canonical).1]
    · rfl

/-- **Where a flow has the same, an entry comes to the same**, and the flow has the same behind
    it. -/
theorem AlikeAt.handleFramed (h : AlikeAt flow s t) (hb : backend.Constant fit answer)
    (hs : s.Faithful fit answer) (ht : t.Faithful fit answer) (now now' : Time.Moment)
    (snapshot : Option Text) (hf : f.IsOf side) :
    s.act backend now flow side snapshot f = t.act backend now' flow side snapshot f ∧
      AlikeAt flow (s.handleFramed backend now flow side snapshot f).2
        (t.handleFramed backend now' flow side snapshot f).2 := by
  have hact : s.act backend now flow side snapshot f = t.act backend now' flow side snapshot f := by
    rw [act_eq_ruledAct hb hs, act_eq_ruledAct hb ht, h.config, h.queue]
  have hstep := (handles_act backend now flow snapshot s hf).1
  have hstep' := (handles_act backend now' flow snapshot t hf).1
  have hbuffers := (handlings_handleFramed backend now flow side snapshot f s).frame.2
  have hbuffers' := (handlings_handleFramed backend now' flow side snapshot f t).frame.2
  refine ⟨hact, ?_, ?_, ?_, ?_, ?_⟩
  · rw [hstep.limits.1, hstep'.limits.1, h.config]
  · rw [hstep.limits.2, hstep'.limits.2, h.room]
  · rw [hstep.queue, hstep'.queue, hact, h.room, h.queue]
  · rw [hbuffers, hbuffers', h.limit]
  · rw [hbuffers, hbuffers']
    exact h.rows

theorem faithful_handleFramed (hb : backend.Constant fit answer) (hs : s.Faithful fit answer)
    (now : Time.Moment) (flow : FlowId) (side : Side) (snapshot : Option Text) (f : Framed) :
    (s.handleFramed backend now flow side snapshot f).2.Faithful fit answer :=
  (handlings_handleFramed backend now flow side snapshot f s).keep
    (fun hstep => hb.faithful_change (.handling hstep)) hs

/-- **So does every entry of a call.** -/
theorem AlikeAt.handleAll (h : AlikeAt flow s t) (hb : backend.Constant fit answer)
    (hs : s.Faithful fit answer) (ht : t.Faithful fit answer) (now now' : Time.Moment)
    (snapshot : Option Text) (hfs : ∀ f ∈ fs, f.IsOf side) (d : Disposition) :
    s.acts backend now flow side snapshot fs = t.acts backend now' flow side snapshot fs ∧
      AlikeAt flow (handleAll backend now flow side snapshot fs d s).2
        (handleAll backend now' flow side snapshot fs d t).2 := by
  induction fs generalizing d s t with
  | nil => exact ⟨rfl, h⟩
  | cons f fs ih =>
    have hf := hfs f List.mem_cons_self
    obtain ⟨hact, hbehind⟩ := h.handleFramed hb hs ht now now' snapshot hf
    have hrest := ih hbehind (faithful_handleFramed hb hs now flow side snapshot f)
      (faithful_handleFramed hb ht now' flow side snapshot f)
      (fun g hg => hfs g (List.mem_cons_of_mem f hg))
    rw [handleAll_cons_of_act hf, handleAll_cons_of_act hf, acts, acts, ← hact]
    split
    · exact ⟨rfl, hbehind⟩
    · exact ⟨congrArg _ (hrest .proceed).1, (hrest _).2⟩

/-- **Where a flow has the same, bytes are framed alike**, and the flow has the same buffers behind
    them. -/
theorem AlikeAt.framed (h : AlikeAt flow s t) (side : Side) (bytes : Bytes) :
    (s.framed flow side bytes).1 = (t.framed flow side bytes).1 ∧
      AlikeAt flow { s with buffers := (s.framed flow side bytes).2 }
        { t with buffers := (t.framed flow side bytes).2 } := by
  by_cases hbytes : bytes = []
  · subst hbytes
    exact ⟨rfl, h.config, h.room, h.queue, h.limit, h.rows⟩
  · have hasked : (fun n => s.pending.isHeadAt flow n) = fun n => t.pending.isHeadAt flow n := by
      funext n
      simp only [Pending.isHeadAt, h.queue]
    have hbuffer : s.buffers.buffer flow side = t.buffers.buffer flow side :=
      congrArg (·.getD Buffer.empty) (h.rows side)
    simp only [State.framed, Buffers.receive_of_ne_nil hbytes, hasked, hbuffer, h.limit]
    refine ⟨trivial, h.config, h.room, h.queue, ?_, fun side' => ?_⟩
    · simp only [Buffers.limit_keep, h.limit]
    · by_cases hside : side' = side
      · subst hside
        simp only [Buffers.find?_keep_self]
      · have hkey : (flow, side') ≠ (flow, side) := fun he => hside (Prod.mk.inj he).2
        simp only [Buffers.find?_keep_other hkey]
        exact h.rows side'

/-- **Where a flow has the same, an operation on it decides alike**, at whatever times, and the flow
    has the same behind it. -/
theorem AlikeAt.ingress (h : AlikeAt flow s t) (hb : backend.Constant fit answer)
    (hs : s.Faithful fit answer) (ht : t.Faithful fit answer) (now now' : Time.Moment) {i : Ingress}
    (hi : i.concerns flow = true) :
    (s.ingress backend now i).1 = (t.ingress backend now' i).1 ∧
      AlikeAt flow (s.ingress backend now i).2 (t.ingress backend now' i).2 := by
  cases i with
  | bytes other side bytes snapshot =>
    obtain rfl : other = flow := of_decide_eq_true hi
    obtain ⟨hframed, hbuffers⟩ := h.framed side bytes
    obtain ⟨hacts, hbehind⟩ := hbuffers.handleAll hb hs ht now now' snapshot
      (isOf_framed s other side bytes) .proceed
    have hcall : s.callActs backend now other side snapshot bytes =
        t.callActs backend now' other side snapshot bytes := by
      rw [callActs, callActs, hacts, hframed]
    refine ⟨?_, ?_⟩
    · simp only [State.ingress, fst_onBytes, hcall]
    · simp only [State.ingress, onBytes, snd_settle]
      rw [hframed] at hbehind
      exact hframed ▸ hbehind
  | closed other =>
    obtain rfl : other = flow := of_decide_eq_true hi
    refine ⟨rfl, h.config, h.room, ?_, h.limit, fun side => ?_⟩
    · simp only [State.ingress, onClosed, Pending.queue_removeFlow_self]
    · simp only [State.ingress, onClosed, Buffers.find?_removeFlow_self]
  | call | resolution | pressure => cases hi

end Own

/-! ## 6. Runs -/

/-- Carries out operations, each at its time: the disposition of each, and the state behind them. -/
def run (backend : Backend W) :
    List (Time.Moment × Ingress) → State W → List (Ingress × Disposition) × State W
  | [], s => ([], s)
  | (now, i) :: ops, s =>
    ((i, (s.ingress backend now i).1) :: (run backend ops (s.ingress backend now i).2).1,
      (run backend ops (s.ingress backend now i).2).2)

end State

/-- The operations on the flow. -/
def operationsOn (flow : FlowId) (ops : List (Time.Moment × Ingress)) :
    List (Time.Moment × Ingress) := ops.filter fun op => op.2.concerns flow

/-- The operations on the flow and their dispositions. -/
def decisionsOn (flow : FlowId) (decisions : List (Ingress × Disposition)) :
    List (Ingress × Disposition) := decisions.filter fun d => d.1.concerns flow

namespace State

/-- The second state has nothing of a flow and is the first one in everything else. -/
structure Releases (gone : FlowId) (s t : State W) : Prop where
  queue : t.pending.table.find? gone = none
  rows : ∀ side, t.buffers.table.find? (gone, side) = none
  elsewhere : ∀ flow, flow ≠ gone → AlikeAt flow s t
  shared : t.cache = s.cache ∧ t.dispatcher = s.dispatcher ∧ t.world = s.world ∧
    t.published = s.published

/-- **Closing a flow releases it**, and nothing else. -/
theorem releases_onClosed (gone : FlowId) (s : State W) : Releases gone s (s.onClosed gone) where
  queue := Table.find?_erase_self gone s.pending.table
  rows side := Buffers.find?_removeFlow_self gone side s.buffers
  elsewhere _ h := alikeAt_onClosed h s
  shared := ⟨rfl, rfl, rfl, rfl⟩

section Runs

variable {backend : Backend W} {fit : W → Prop} {answer : Kind → Text → Option Rule}
  {flow : FlowId} {s t : State W}

theorem faithful_ingress (hb : backend.Constant fit answer) (hs : s.Faithful fit answer)
    (now : Time.Moment) (i : Ingress) : (s.ingress backend now i).2.Faithful fit answer :=
  (changes_ingress backend now i s).keep hb.faithful_change hs

/-- **A run and its part on a flow, begun where the flow has the same, decide alike on it** and leave
    it with the same. -/
theorem AlikeAt.run (h : AlikeAt flow s t) (hb : backend.Constant fit answer)
    (hs : s.Faithful fit answer) (ht : t.Faithful fit answer)
    (ops : List (Time.Moment × Ingress)) :
    decisionsOn flow (s.run backend ops).1 = (t.run backend (operationsOn flow ops)).1 ∧
      AlikeAt flow (s.run backend ops).2 (t.run backend (operationsOn flow ops)).2 := by
  -- the run as a whole takes every operation, the other one those on the flow
  induction ops generalizing s t with
  | nil => exact ⟨rfl, h⟩
  | cons op ops ih =>
    obtain ⟨now, i⟩ := op
    have hs' := faithful_ingress hb hs now i
    cases hi : i.concerns flow with
    | false =>
      obtain ⟨hdecisions, hbehind⟩ :=
        ih ((alikeAt_ingress_elsewhere hi backend now s).symm.trans h) hs' ht
      simp only [State.run, operationsOn, decisionsOn, List.filter_cons, hi, Bool.false_eq_true,
        if_false]
      exact ⟨hdecisions, hbehind⟩
    | true =>
      obtain ⟨hdecision, hnext⟩ := h.ingress hb hs ht now now hi
      obtain ⟨hdecisions, hbehind⟩ := ih hnext hs' (faithful_ingress hb ht now i)
      simp only [State.run, operationsOn, decisionsOn, List.filter_cons, hi, if_true]
      exact ⟨congrArg₂ List.cons (congrArg (Prod.mk i) hdecision) hdecisions, hbehind⟩

end Runs

end State

/-- **Flows do not disturb each other.** With rules that stay the same, the dispositions of the
    operations on a flow, its queue and its buffers are those of the run of these operations alone;
    and closing a flow releases what it has and nothing of another one. -/
theorem Reachable.isolates {backend : Backend W} {fit : W → Prop}
    {answer : Kind → Text → Option Rule} {s : State W} (hb : backend.Constant fit answer)
    (hs : Reachable backend fit s) (flow : FlowId) (ops : List (Time.Moment × Ingress)) :
    decisionsOn flow (s.run backend ops).1 = (s.run backend (operationsOn flow ops)).1 ∧
      State.AlikeAt flow (s.run backend ops).2 (s.run backend (operationsOn flow ops)).2 ∧
      ∀ gone, State.Releases gone (s.run backend ops).2 ((s.run backend ops).2.onClosed gone) := by
  have hfaithful := hb.faithful hs
  obtain ⟨hdecisions, hbehind⟩ := (State.AlikeAt.refl flow s).run hb hfaithful hfaithful ops
  exact ⟨hdecisions, hbehind, fun gone => State.releases_onClosed gone _⟩

/-- A source that is steady is constant, whatever is known of the keeper. -/
theorem Backend.Steady.constant {S : Type} {backend : Backend W} {fit : W → Prop}
    {answer : Kind → Text → Option Rule} {shelf : W → S} {keeper : Keeper S}
    (hb : backend.Steady fit answer shelf keeper) : backend.Constant fit answer where
  toKeeps := hb.toKeeps
  answers := hb.answers

/-- Two flows of one number in turn, with a rule that blocks the first request of each. The secure
    one is closed before its response comes. -/
def twinFlows : List (Time.Moment × Ingress) :=
  [.bytes ⟨7, false⟩ .request twoPaths none, .bytes ⟨7, true⟩ .request twoPaths none, .pressure,
    .bytes ⟨7, true⟩ .response (Utf8.encode "HTTP/1.1 200 OK\r\n".toList) none, .closed ⟨7, true⟩,
    .bytes ⟨7, false⟩ .response emptyResponse none].map (⟨⟨0, 0⟩, 0⟩, ·)

/-- The plain flow is not disturbed by the secure one. -/
theorem isolates_twin_flows :
    ∃ s, State.start? Config.defaults (ruledPath, Shelf.empty) = some s ∧
      decisionsOn ⟨7, false⟩ (s.run memory twinFlows).1 =
        (s.run memory (operationsOn ⟨7, false⟩ twinFlows)).1 ∧
      State.AlikeAt ⟨7, false⟩ (s.run memory twinFlows).2
        (s.run memory (operationsOn ⟨7, false⟩ twinFlows)).2 := by
  obtain ⟨s, hs⟩ : ∃ s, State.start? Config.defaults (ruledPath, Shelf.empty) = some s := ⟨_, rfl⟩
  obtain ⟨hdecisions, hbehind, _⟩ := Reachable.isolates (steady_memory ruledPath.rules).constant
    (.start Config.validate_defaults rfl hs) ⟨7, false⟩ twinFlows
  exact ⟨s, hs, hdecisions, hbehind⟩

example : ((State.start? Config.defaults (ruledPath, Shelf.empty)).map fun s =>
    ((operationsOn ⟨7, false⟩ twinFlows).length,
      (decisionsOn ⟨7, false⟩ (s.run memory twinFlows).1).map fun d => d.2.isAbort)) =
      some (2, [true, false]) := by
  decide +kernel

end Engine

end TrafficGate
