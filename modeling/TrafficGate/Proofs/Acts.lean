import Mathlib.Data.List.Forall2
import TrafficGate.Proofs.HeadAlignment
/-!
  # What a call comes to

  Handling an entry comes to one act: a request waits, or is blocked; the oldest request is decided,
  with its response or without one; an answer finds no request; nothing is to be done; or the
  look-up breaks off. The act says which request enters or leaves the queue, what is published, and
  what becomes of the traffic.

  1. `Act`, and the act of an entry in a state;
  2. `Handles` -- everything that handling an entry can do, case by case;
  3. `HandlesAll` -- the entries of a call, up to the one that breaks off;
  4. the events that acts publish.

  Main facts: **`handles_act`**, **`handlesAll_acts`**, **`outcome_handleAll`** and
  **`HandlesAll.published`**.
-/

namespace TrafficGate

open Http TrafficGate.Stream Exchange Rule

namespace Verdict

/-- An event that tells the verdict on a request: of its classification or of all. -/
def Event.Tells (request : Request) (response : Option Response) (matched : Option Rule)
    (e : Event) : Prop :=
  ∃ requestBody responseBody channel now,
    e = Event.of request response matched requestBody responseBody channel now ∧
      (channel = (Classification.ofMatch matched).channel ∨ channel = .all)

/-- **Only a match is published as blocked.** -/
theorem Event.Tells.matched {request : Request} {response : Option Response}
    {matched : Option Rule} {e : Event} (h : e.Tells request response matched)
    (hblocked : e.channel = .blocked) : ∃ rule, matched = some rule := by
  obtain ⟨_, _, channel, _, rfl, hchannel⟩ := h
  obtain rfl : channel = .blocked := hblocked
  cases matched with
  | some rule => exact ⟨rule, rfl⟩
  | none => rcases hchannel with h | h <;> cases h

end Verdict

namespace Engine.State

open Verdict

variable {W : Type}

/-! ## 1. Acts -/

/-- What handling an entry comes to. -/
inductive Act where
  /-- Nothing: the request cannot be used, or the response only announces another. -/
  | pass
  /-- The request waits for its response. -/
  | wait (request : Request)
  /-- The request is blocked before its response. -/
  | block (request : Request) (rule : Rule)
  /-- No request waits for the answer. -/
  | unasked
  /-- The oldest request is decided with its response, or with none when that was lost. -/
  | conclude (request : Request) (response : Option Response) (matched : Option Rule)
  /-- The look-up broke off, of a new request or of the oldest, which is gone then. -/
  | breakOff (taken : Option Request)
  deriving DecidableEq, Repr

namespace Act

/-- The verdict that an act passes. -/
def verdict? : Act → Option (Request × Option Response × Option Rule)
  | block request rule => some (request, none, some rule)
  | conclude request response matched => some (request, response, matched)
  | pass | wait _ | unasked | breakOff _ => none

/-- What becomes of the traffic. -/
def disposition (a : Act) : Disposition :=
  match a.verdict? with
  | some (request, _, matched) => Dispatcher.dispositionFor request matched
  | none => .proceed

/-- How handling the entry ends. -/
def outcome : Act → Outcome Disposition
  | breakOff _ => .crashed
  | pass | wait _ | unasked => .done .proceed
  | block request rule => .done (Dispatcher.dispositionFor request (some rule))
  | conclude request _ matched => .done (Dispatcher.dispositionFor request matched)

/-- Whether an act is a look-up that broke off. -/
def breaksOff : Act → Bool
  | breakOff _ => true
  | _ => false

theorem outcome_of_breaksOff {a : Act} (h : a.breaksOff = false) :
    a.outcome = .done a.disposition := by
  cases a with
  | breakOff taken => cases h
  | _ => rfl

/-- The events of an act. -/
def Publishes (a : Act) (events : List Event) : Prop :=
  match a.verdict? with
  | some (request, response, matched) => ∀ e ∈ events, e.Tells request response matched
  | none => events = []

/-- **Who publishes a block aborts.** -/
theorem Publishes.isAbort {a : Act} {events : List Event} (h : a.Publishes events) {e : Event}
    (he : e ∈ events) (hblocked : e.channel = .blocked) : a.disposition.isAbort = true := by
  unfold Publishes at h
  unfold disposition
  cases hv : a.verdict? with
  | none =>
    rw [hv] at h
    rw [h] at he
    cases he
  | some verdict =>
    obtain ⟨request, response, matched⟩ := verdict
    rw [hv] at h
    obtain ⟨rule, rfl⟩ := (h e he).matched hblocked
    rfl

end Act

/-- The request that an entry brings, with what is kept of its body and a note about the caller;
    none when the entry cannot be used. -/
def usable? (config : Config) (flow : FlowId) (snapshot : Option Text) (f : Framed) :
    Option Request :=
  (f.message?.bind fun m => (Request.ofMessage flow m).toOption).map fun r =>
    { r with body := collect r.body config.collectRequestBody config.maxBodyBytes, snapshot }

/-- The response of an entry as it is joined to a request. -/
def answer? (config : Config) (f : Framed) : Option Response :=
  f.response?.map (trimResponse config)

/-- The act that handling an entry comes to. -/
def act (backend : Backend W) (now : Time.Moment) (flow : FlowId) (side : Side)
    (snapshot : Option Text) (f : Framed) (s : State W) : Act :=
  match side with
  | .request =>
    match usable? s.config flow snapshot f with
    | none => .pass
    | some request =>
      match (s.lookUp backend now request.canonical).1 with
      | .crashed => .breakOff none
      | .done none => .wait request
      | .done (some rule) => .block request rule
  | .response =>
    if f.endsExchange then
      match s.pending.takeOldest flow with
      | (none, _) => .unasked
      | (some request, pending) =>
        match (lookUp backend now request.canonical { s with pending }).1 with
        | .crashed => .breakOff (some request)
        | .done matched => .conclude request (answer? s.config f) matched
    else .pass

/-- The acts of a call, up to the look-up that breaks off. -/
def acts (backend : Backend W) (now : Time.Moment) (flow : FlowId) (side : Side)
    (snapshot : Option Text) : List Framed → State W → List Act
  | [], _ => []
  | f :: rest, s =>
    let a := s.act backend now flow side snapshot f
    if a.breaksOff then [a]
    else
      a :: acts backend now flow side snapshot rest
        (s.handleFramed backend now flow side snapshot f).2

/-! ## 2. One entry -/

/-- What handling an entry does to a state, with the act that it comes to. -/
inductive Handles (backend : Backend W) (now : Time.Moment) (flow : FlowId)
    (snapshot : Option Text) (s : State W) (f : Framed) : Side → Act → State W → Prop where
  | unusable (h : usable? s.config flow snapshot f = none) :
      Handles backend now flow snapshot s f .request .pass s
  | wait {r : Request} {t : State W} (h : usable? s.config flow snapshot f = some r)
      (hl : s.lookUp backend now r.canonical = (.done none, t)) :
      Handles backend now flow snapshot s f .request (.wait r)
        { t with pending := t.pending.push flow r }
  | block {r : Request} {rule : Rule} {t : State W}
      (h : usable? s.config flow snapshot f = some r)
      (hl : s.lookUp backend now r.canonical = (.done (some rule), t)) :
      Handles backend now flow snapshot s f .request (.block r rule)
        (t.dispatch backend now r none (some rule)).2
  | breakOff {r : Request} {t : State W} (h : usable? s.config flow snapshot f = some r)
      (hl : s.lookUp backend now r.canonical = (.crashed, t)) :
      Handles backend now flow snapshot s f .request (.breakOff none) t
  | announce (h : f.endsExchange = false) :
      Handles backend now flow snapshot s f .response .pass s
  | unasked {pending : Pending} (h : f.endsExchange = true)
      (hq : s.pending.takeOldest flow = (none, pending)) :
      Handles backend now flow snapshot s f .response .unasked { s with pending }
  | conclude {r : Request} {pending : Pending} {matched : Option Rule} {t : State W}
      (h : f.endsExchange = true) (hq : s.pending.takeOldest flow = (some r, pending))
      (hl : lookUp backend now r.canonical { s with pending } = (.done matched, t)) :
      Handles backend now flow snapshot s f .response (.conclude r (answer? s.config f) matched)
        (t.dispatch backend now r (answer? s.config f) matched).2
  | breakOffOldest {r : Request} {pending : Pending} {t : State W} (h : f.endsExchange = true)
      (hq : s.pending.takeOldest flow = (some r, pending))
      (hl : lookUp backend now r.canonical { s with pending } = (.crashed, t)) :
      Handles backend now flow snapshot s f .response (.breakOff (some r)) t

section Entries

variable {backend : Backend W} {now : Time.Moment} {flow : FlowId} {side : Side}
  {snapshot : Option Text} {s t : State W} {f : Framed} {a : Act}

/-- An entry with an unusable request is passed over; any other one is looked up. -/
theorem handleFramed_request (f : Framed) :
    s.handleFramed backend now flow .request snapshot f =
      match usable? s.config flow snapshot f with
      | none => (.done .proceed, s)
      | some r =>
        match s.lookUp backend now r.canonical with
        | (.crashed, t) => (.crashed, t)
        | (.done none, t) => (.done .proceed, { t with pending := t.pending.push flow r })
        | (.done (some rule), t) =>
          (.done (Dispatcher.dispositionFor r (some rule)),
            (t.dispatch backend now r none (some rule)).2) := by
  cases f with
  | lost n => rfl
  | message m | truncated m =>
    simp only [handleFramed, handleMessage, handleRequest, usable?, Framed.message?,
      Option.bind_some]
    cases Request.ofMessage flow m with
    | error flaw => rfl
    | ok r =>
      simp only [Except.toOption, Option.map_some]
      cases s.lookUp backend now r.canonical with
      | mk found t =>
        cases found with
        | crashed => rfl
        | done matched =>
          cases matched with
          | none => rfl
          | some rule =>
            simp only []
            rw [← Dispatcher.dispatch_disposition backend.blobs now.wall _ none (some rule)
              t.dispatcher t.world]
            rfl

variable (backend now flow snapshot s) in
/-- **Handling an entry is one of these cases**, and the act tells which. -/
theorem handles_act (hf : f.IsOf side) :
    Handles backend now flow snapshot s f side (s.act backend now flow side snapshot f)
        (s.handleFramed backend now flow side snapshot f).2 ∧
      (s.handleFramed backend now flow side snapshot f).1 =
        (s.act backend now flow side snapshot f).outcome := by
  cases side with
  | request =>
    rw [handleFramed_request]
    unfold act
    simp only []
    cases hu : usable? s.config flow snapshot f with
    | none => exact ⟨.unusable hu, rfl⟩
    | some r =>
      simp only []
      cases hl : s.lookUp backend now r.canonical with
      | mk found t =>
        match found with
        | .crashed => exact ⟨.breakOff hu hl, rfl⟩
        | .done none => exact ⟨.wait hu hl, rfl⟩
        | .done (some rule) => exact ⟨.block hu hl, rfl⟩
  | response =>
    rw [handleFramed_response hf]
    unfold act
    simp only []
    cases hends : f.endsExchange with
    | false => exact ⟨.announce hends, rfl⟩
    | true =>
      simp only [if_true]
      unfold handleAnswer
      cases hq : s.pending.takeOldest flow with
      | mk oldest pending =>
        cases oldest with
        | none => exact ⟨.unasked hends hq, rfl⟩
        | some r =>
          simp only [judge]
          cases hl : lookUp backend now r.canonical { s with pending } with
          | mk found t =>
            cases found with
            | crashed => exact ⟨.breakOffOldest hends hq hl, rfl⟩
            | done matched =>
              refine ⟨.conclude hends hq hl, ?_⟩
              exact congrArg Outcome.done (Dispatcher.dispatch_disposition ..)

end Entries

/-! ## 3. The entries of a call -/

/-- The disposition of acts that do not break off: the first abort. -/
def firstAbort (as : List Act) : Disposition :=
  as.foldr (fun a d => a.disposition.or d) .proceed

@[simp] theorem firstAbort_nil : firstAbort [] = .proceed := rfl

@[simp] theorem firstAbort_cons (a : Act) (as : List Act) :
    firstAbort (a :: as) = a.disposition.or (firstAbort as) := rfl

/-- **One abort among the acts aborts the call.** -/
theorem isAbort_firstAbort {a : Act} {as : List Act} (ha : a ∈ as)
    (habort : a.disposition.isAbort = true) : (firstAbort as).isAbort = true := by
  induction as with
  | nil => cases ha
  | cons b as ih =>
    rw [firstAbort_cons]
    cases hb : b.disposition with
    | abort url rule => rfl
    | proceed =>
      rcases List.mem_cons.mp ha with rfl | hmem
      · rw [hb] at habort
        cases habort
      · exact ih hmem

/-- What handling the entries of a call does to a state, act by act. -/
inductive HandlesAll (backend : Backend W) (now : Time.Moment) (flow : FlowId) (side : Side)
    (snapshot : Option Text) : State W → List Framed → List Act → State W → Prop where
  | nil (s : State W) : HandlesAll backend now flow side snapshot s [] [] s
  | cons {s t u : State W} {f : Framed} {fs : List Framed} {a : Act} {as : List Act}
      (h : Handles backend now flow snapshot s f side a t) (ha : a.breaksOff = false)
      (hrest : HandlesAll backend now flow side snapshot t fs as u) :
      HandlesAll backend now flow side snapshot s (f :: fs) (a :: as) u
  | breakOff {s t : State W} {f : Framed} {fs : List Framed} {a : Act}
      (h : Handles backend now flow snapshot s f side a t) (ha : a.breaksOff = true) :
      HandlesAll backend now flow side snapshot s (f :: fs) [a] t

section Calls

variable {backend : Backend W} {now : Time.Moment} {flow : FlowId} {side : Side}
  {snapshot : Option Text} {s t : State W} {f : Framed} {fs : List Framed} {a : Act}
  {as : List Act}

theorem handleAll_cons_of_act (hf : f.IsOf side) (d : Disposition) :
    handleAll backend now flow side snapshot (f :: fs) d s =
      if (s.act backend now flow side snapshot f).breaksOff then
        (.crashed, (s.handleFramed backend now flow side snapshot f).2)
      else
        handleAll backend now flow side snapshot fs
          (d.or (s.act backend now flow side snapshot f).disposition)
          (s.handleFramed backend now flow side snapshot f).2 := by
  have houtcome := (handles_act backend now flow snapshot s hf).2
  rw [handleAll]
  cases h : s.handleFramed backend now flow side snapshot f with
  | mk o t =>
    rw [h] at houtcome
    obtain rfl : o = _ := houtcome
    cases hb : (s.act backend now flow side snapshot f).breaksOff with
    | false => simp only [Act.outcome_of_breaksOff hb, Bool.false_eq_true, if_false]
    | true =>
      cases ha : s.act backend now flow side snapshot f with
      | breakOff taken => rfl
      | _ => rw [ha] at hb; cases hb

variable (backend now flow snapshot s) in
/-- **Handling the entries of a call is handling one after the other**, up to the one that breaks
    off. -/
theorem handlesAll_acts (hfs : ∀ f ∈ fs, f.IsOf side) (d : Disposition) :
    HandlesAll backend now flow side snapshot s fs
      (s.acts backend now flow side snapshot fs)
      (handleAll backend now flow side snapshot fs d s).2 := by
  induction fs generalizing d s with
  | nil => exact .nil s
  | cons f fs ih =>
    have hf := hfs f List.mem_cons_self
    have hstep := (handles_act backend now flow snapshot s hf).1
    rw [handleAll_cons_of_act hf, acts]
    cases hb : (s.act backend now flow side snapshot f).breaksOff with
    | true => exact .breakOff hstep hb
    | false => exact .cons hstep hb (ih _ (fun g hg => hfs g (List.mem_cons_of_mem f hg)) _)

variable (backend now flow snapshot s) in
/-- **The outcome of the entries is the first abort of their acts**, unless one broke off. -/
theorem outcome_handleAll (hfs : ∀ f ∈ fs, f.IsOf side) (d : Disposition) :
    (handleAll backend now flow side snapshot fs d s).1 =
      if (s.acts backend now flow side snapshot fs).any Act.breaksOff then .crashed
      else .done (d.or (firstAbort (s.acts backend now flow side snapshot fs))) := by
  induction fs generalizing d s with
  | nil => exact congrArg Outcome.done (Disposition.or_proceed d).symm
  | cons f fs ih =>
    rw [handleAll_cons_of_act (hfs f List.mem_cons_self), acts]
    cases hb : (s.act backend now flow side snapshot f).breaksOff with
    | true => simp only [if_true, List.any_cons, hb, Bool.true_or]
    | false =>
      simp only [Bool.false_eq_true, if_false, List.any_cons, hb, Bool.false_or, firstAbort_cons,
        ← Disposition.or_assoc]
      exact ih _ (fun g hg => hfs g (List.mem_cons_of_mem f hg)) _

variable (backend now flow side snapshot s) in
/-- The acts of a call. -/
def callActs (bytes : Bytes) : List Act :=
  acts backend now flow side snapshot (s.framed flow side bytes).1
    { s with buffers := (s.framed flow side bytes).2 }

theorem isOf_framed (s : State W) (flow : FlowId) (side : Side) (bytes : Bytes) :
    ∀ f ∈ (s.framed flow side bytes).1, f.IsOf side := fun _ hf => Buffers.isOf_receive hf

variable (backend now flow side snapshot s) in
/-- **A call handles the entries that it frames.** -/
theorem handlesAll_onBytes (bytes : Bytes) :
    HandlesAll backend now flow side snapshot
      { s with buffers := (s.framed flow side bytes).2 } (s.framed flow side bytes).1
      (s.callActs backend now flow side snapshot bytes)
      (s.onBytes backend now flow side bytes snapshot).2 := by
  have hrun := handlesAll_acts backend now flow snapshot
    { s with buffers := (s.framed flow side bytes).2 } (isOf_framed s flow side bytes) .proceed
  rw [← snd_settle] at hrun
  exact hrun

/-- **The disposition of a call is the first abort of its acts**, unless one broke off. -/
theorem fst_onBytes (bytes : Bytes) :
    (s.onBytes backend now flow side bytes snapshot).1 =
      if (s.callActs backend now flow side snapshot bytes).any Act.breaksOff then .proceed
      else firstAbort (s.callActs backend now flow side snapshot bytes) := by
  have houtcome := outcome_handleAll backend now flow snapshot
    { s with buffers := (s.framed flow side bytes).2 } (isOf_framed s flow side bytes) .proceed
  change (settle (handleAll backend now flow side snapshot (s.framed flow side bytes).1 .proceed
    { s with buffers := (s.framed flow side bytes).2 })).1 = _
  unfold callActs
  cases h : handleAll backend now flow side snapshot (s.framed flow side bytes).1 .proceed
      { s with buffers := (s.framed flow side bytes).2 } with
  | mk o t =>
    rw [h] at houtcome
    obtain rfl : o = _ := houtcome
    split <;> rfl

variable (now flow side snapshot) in
/-- **With a calm source no act breaks off.** -/
theorem callActs_calm {fit : W → Prop} (hb : backend.Calm fit) (hw : fit s.world) (bytes : Bytes) :
    (s.callActs backend now flow side snapshot bytes).any Act.breaksOff = false := by
  have houtcome := outcome_handleAll backend now flow snapshot
    { s with buffers := (s.framed flow side bytes).2 } (isOf_framed s flow side bytes) .proceed
  obtain ⟨d, hd⟩ := handleAll_done now flow side snapshot
    (s := { s with buffers := (s.framed flow side bytes).2 }) hb hw (s.framed flow side bytes).1
    .proceed
  rw [hd] at houtcome
  unfold callActs
  rw [Bool.eq_false_iff]
  intro hbroke
  rw [if_pos hbroke] at houtcome
  cases houtcome

/-! ## 4. What is published -/

theorem published_of_lookUp {value : Text} {found : Outcome (Option Rule)}
    (h : s.lookUp backend now value = (found, t)) : t.published = s.published := by
  obtain rfl : t = (s.lookUp backend now value).2 := by rw [h]
  rfl

variable (backend now) in
/-- **Dispatching publishes copies of the verdict**, or nothing. -/
theorem published_dispatch (request : Request) (response : Option Response)
    (matched : Option Rule) :
    ∃ events, (s.dispatch backend now request response matched).2.published =
        s.published ++ events ∧ ∀ e ∈ events, e.Tells request response matched := by
  unfold dispatch Dispatcher.dispatch
  cases s.dispatcher.firstSeen request with
  | mk first d =>
    cases first with
    | false => exact ⟨[], rfl, List.forall_mem_nil _⟩
    | true =>
      refine ⟨_, rfl, fun e he => ?_⟩
      rcases List.mem_pair.mp he with rfl | rfl
      · exact ⟨_, _, _, _, rfl, .inl rfl⟩
      · exact ⟨_, _, _, _, rfl, .inr rfl⟩

theorem Handles.published (h : Handles backend now flow snapshot s f side a t) :
    ∃ events, t.published = s.published ++ events ∧ a.Publishes events := by
  cases h with
  | unusable | announce | unasked => exact ⟨[], (List.append_nil _).symm, rfl⟩
  | wait _ hl | breakOff _ hl | breakOffOldest _ _ hl =>
    exact ⟨[], (published_of_lookUp hl).trans (List.append_nil _).symm, rfl⟩
  | block _ hl =>
    obtain ⟨events, hevents, htells⟩ := published_dispatch backend now _ _ _
    exact ⟨events, by rw [hevents, published_of_lookUp hl], htells⟩
  | conclude _ _ hl =>
    obtain ⟨events, hevents, htells⟩ := published_dispatch backend now _ _ _
    exact ⟨events, by rw [hevents, published_of_lookUp hl], htells⟩

/-- **A call publishes the events of its acts**, in their order. -/
theorem HandlesAll.published (h : HandlesAll backend now flow side snapshot s fs as t) :
    ∃ groups : List (List Event), t.published = s.published ++ groups.flatten ∧
      List.Forall₂ Act.Publishes as groups := by
  induction h with
  | nil s => exact ⟨[], (List.append_nil _).symm, .nil⟩
  | cons h _ _ ih =>
    obtain ⟨events, hevents, hpublishes⟩ := h.published
    obtain ⟨groups, hgroups, hrest⟩ := ih
    refine ⟨events :: groups, ?_, .cons hpublishes hrest⟩
    rw [hgroups, hevents, List.flatten_cons, List.append_assoc]
  | breakOff h _ =>
    obtain ⟨events, hevents, hpublishes⟩ := h.published
    refine ⟨[events], ?_, .cons hpublishes .nil⟩
    rw [hevents, List.flatten_cons, List.flatten_nil, List.append_nil]

/-- Every event stems from an act. -/
theorem exists_act_of_mem {groups : List (List Event)} (h : List.Forall₂ Act.Publishes as groups)
    {e : Event} (he : e ∈ groups.flatten) :
    ∃ a ∈ as, ∃ events, a.Publishes events ∧ e ∈ events := by
  induction h with
  | nil => cases he
  | cons hpublishes _ ih =>
    rw [List.flatten_cons, List.mem_append] at he
    rcases he with he | he
    · exact ⟨_, List.mem_cons_self, _, hpublishes, he⟩
    · obtain ⟨a, ha, rest⟩ := ih he
      exact ⟨a, List.mem_cons_of_mem _ ha, rest⟩

end Calls

end Engine.State

end TrafficGate
