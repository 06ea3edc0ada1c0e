import Mathlib.Data.List.DropRight
import TrafficGate.Proofs.FlowIsolation
import TrafficGate.Proofs.Agreement
import TrafficGate.Proofs.VeiledBuffers
/-!
  # Bodies that are not collected leave no trace

  When the bodies of a side are not collected, nothing that an engine does depends on them: neither
  the bytes that it delimits as a body of that side, nor the bodies of that side in completed calls.
  Two runs that differ in these only publish the same verdicts, decide alike and leave the same
  requests waiting and the same bodies kept. As where a message ends is searched for anew behind one
  of unknown length, no buffer of that side may be searching.

  1. handling entries and calls without bodies;
  2. buffers that differ under the veil;
  3. operations that differ in payload only;
  4. one operation;
  5. runs.

  Main facts: **`handleAll_map_bare`**, **`Buffers.Under.receive`**, **`Paired.ingress`** and
  **`Reachable.uncollected`**.
-/

namespace TrafficGate

open Http TrafficGate.Stream Exchange Rule Verdict

/-! ## 1. Without bodies -/

theorem Exchange.collect_false (body : Option Bytes) (limit : Nat) :
    collect body false limit = none := rfl

namespace Engine

variable {W : Type}

/-- Whether the bodies of a side are collected. -/
def Config.collects (side : Side) (c : Config) : Bool :=
  match side with
  | .request => c.collectRequestBody
  | .response => c.collectResponseBody

namespace State

section Handling

variable {backend : Backend W} {now : Time.Moment} {flow : FlowId} {snapshot : Option Text}
  {s : State W}

theorem handleRequest_bare (hc : s.config.collects .request = false) (m : Message) :
    s.handleRequest backend now flow snapshot m.bare =
      s.handleRequest backend now flow snapshot m := by
  have hc' : s.config.collectRequestBody = false := hc
  unfold handleRequest
  have hhead : m.bare.head = m.head := rfl
  rw [Request.ofMessage_of_head_eq hhead]
  cases Request.ofMessage flow m with
  | error flaw => rfl
  | ok request => simp only [Except.map, hc', collect_false]

theorem handleResponse_bare (hc : s.config.collects .response = false) (m : Message) :
    s.handleResponse backend now flow m.bare = s.handleResponse backend now flow m := by
  have hc' : s.config.collectResponseBody = false := hc
  unfold handleResponse
  have hhead : m.bare.head = m.head := rfl
  rw [Response.ofMessage_of_head_eq hhead]
  cases Response.ofMessage m with
  | error flaw => rfl
  | ok response => simp only [Except.map, trimResponse, hc', collect_false]

theorem handleFramed_bare {side : Side} (hc : s.config.collects side = false) (f : Framed) :
    s.handleFramed backend now flow side snapshot f.bare =
      s.handleFramed backend now flow side snapshot f := by
  cases f with
  | message m | truncated m =>
    cases side with
    | request => exact handleRequest_bare hc m
    | response => exact handleResponse_bare hc m
  | lost n => rfl

/-- **Entries are handled as without their bodies**, when those are not collected. -/
theorem handleAll_map_bare {side : Side} (hc : s.config.collects side = false) (fs : List Framed)
    (d : Disposition) :
    handleAll backend now flow side snapshot (fs.map Framed.bare) d s =
      handleAll backend now flow side snapshot fs d s := by
  induction fs generalizing d s with
  | nil => rfl
  | cons f fs ih =>
    have hframe := (handlings_handleFramed backend now flow side snapshot f s).frame
    simp only [List.map_cons, handleAll, handleFramed_bare hc f]
    generalize s.handleFramed backend now flow side snapshot f = r at *
    obtain ⟨o, s₁⟩ := r
    cases o with
    | crashed => rfl
    | done next => exact ih (by rw [hframe.1]; exact hc) _

/-- A call without the body of a side. -/
def Call.outline (side : Side) (call : Call) : Call :=
  match side with
  | .request => { call with requestBody := none }
  | .response => { call with response := call.response.map fun r => { r with body := none } }

/-- **Calls are handled as without the body** of a side that is not collected. -/
theorem onCall_outline {side : Side} (hc : s.config.collects side = false) (call : Call) :
    s.onCall backend now (call.outline side) = s.onCall backend now call := by
  cases side with
  | request =>
    have hc' : s.config.collectRequestBody = false := hc
    simp only [onCall, Call.outline, Call.request, hc', collect_false]
  | response =>
    have hc' : s.config.collectResponseBody = false := hc
    have htrim : (call.outline .response).response.map (trimResponse s.config) =
        call.response.map (trimResponse s.config) := by
      simp only [Call.outline, Option.map_map]
      congr 1
      funext r
      simp only [Function.comp, trimResponse, hc', collect_false]
    have hrequest : (call.outline .response).request s.config = call.request s.config := rfl
    simp only [onCall, htrim, hrequest]

end Handling

end State

end Engine

/-! ## 2. Buffers under the veil -/

namespace Stream.Buffers

/-- The second buffers differ from the first on one side only, where they have as many bytes, and
    what is there of a flow are the last bytes that were heard of it. -/
structure Under (side : Side) (heard : FlowId → Bytes) (a b : Buffers) : Prop where
  limit : b.limit = a.limit
  elsewhere : ∀ flow other, other ≠ side → b.buffer flow other = a.buffer flow other
  alike : ∀ flow, Buffer.Alike (a.buffer flow side) (b.buffer flow side)
  heard : ∀ flow, (b.buffer flow side).acc.unparsed <:+ heard flow

theorem Under.refl (side : Side) (a : Buffers) :
    Under side (fun flow => (a.buffer flow side).acc.unparsed) a a :=
  ⟨rfl, fun _ _ _ => rfl, fun _ => ⟨rfl, rfl⟩, fun _ => List.suffix_rfl⟩

theorem buffer_keep_self (flow : FlowId) (side : Side) (b : Buffer) (s : Buffers) :
    (s.keep flow side b).buffer flow side = if b.isIdle then Buffer.empty else b := by
  rw [buffer, find?_keep_self]
  split <;> rfl

section Arrival

variable {side : Side} {heard : FlowId → Bytes} {a b : Buffers}

/-- What was heard of a flow when more bytes of it come. -/
def hear (flow : FlowId) (bs : Bytes) (heard : FlowId → Bytes) : FlowId → Bytes :=
  Function.update heard flow (heard flow ++ bs)

theorem Under.keep (h : Under side heard a b) {flow : FlowId} {us : Bytes} {x y : Buffer}
    (halike : Buffer.Alike x y) (hsuffix : y.acc.unparsed <:+ heard flow ++ us) :
    Under side (hear flow us heard) (a.keep flow side x) (b.keep flow side y) := by
  have hx := same_buffer_keep flow side x a
  have hy := same_buffer_keep flow side y b
  refine ⟨?_, fun f other hother => ?_, fun f => ?_, fun f => ?_⟩
  · rw [limit_keep, limit_keep, h.limit]
  · have hkey : (f, other) ≠ (flow, side) := fun he => hother (Prod.mk.inj he).2
    rw [buffer_keep_other hkey, buffer_keep_other hkey, h.elsewhere f other hother]
  · by_cases hf : f = flow
    · subst hf
      exact ⟨hy.2.trans (halike.recovery.trans hx.2.symm),
        (congrArg List.length hy.1).trans (halike.length_eq.trans (congrArg List.length hx.1.symm))⟩
    · have hkey : (f, side) ≠ (flow, side) := fun he => hf (Prod.mk.inj he).1
      rw [buffer_keep_other hkey, buffer_keep_other hkey]
      exact h.alike f
  · by_cases hf : f = flow
    · subst hf
      rw [hear, Function.update_self, hy.1]
      exact hsuffix
    · have hkey : (f, side) ≠ (flow, side) := fun he => hf (Prod.mk.inj he).1
      rw [hear, Function.update_of_ne hf, buffer_keep_other hkey]
      exact h.heard f

/-- The last bytes that were heard, as many as wait and come, are those that wait and those that
    come. -/
theorem Under.rtake_heard (h : Under side heard a b) (flow : FlowId) {bs us : Bytes}
    (hbytes : us.length = bs.length) :
    (heard flow ++ us).rtake ((a.buffer flow side).acc.unparsed.length + bs.length) =
      (b.buffer flow side).acc.unparsed ++ us := by
  obtain ⟨front, hfront⟩ := h.heard flow
  have hlength := (h.alike flow).length_eq
  rw [List.rtake, ← hfront, List.append_assoc]
  refine List.drop_left' ?_
  simp only [List.length_append]
  omega

/-- **Bytes under the veil** complete the same messages but for their bodies, and leave buffers
    that differ under the veil. -/
theorem Under.receive (h : Under side heard a b) (ha : a.Searched) (hb : b.Searched) {flow : FlowId}
    {answersHead : Nat → Bool} {bs us : Bytes} (hbytes : us.length = bs.length)
    (hfits : bs ≠ [] → (a.buffer flow side).recovery ≠ .resync ∧
      Fits (Buffer.veil side answersHead
          { a.buffer flow side with acc := (a.buffer flow side).acc.append bs })
        ((heard flow ++ us).rtake ((a.buffer flow side).acc.unparsed.length + bs.length))) :
    (b.receive flow side answersHead us).1.map Framed.bare =
        (a.receive flow side answersHead bs).1.map Framed.bare ∧
      Under side (hear flow us heard) (a.receive flow side answersHead bs).2
        (b.receive flow side answersHead us).2 := by
  by_cases hbs : bs = []
  · subst hbs
    obtain rfl : us = [] := List.eq_nil_of_length_eq_zero hbytes
    have hheard : hear flow [] heard = heard := by
      rw [hear, List.append_nil, Function.update_eq_self]
    rw [receive_nil, receive_nil, hheard]
    exact ⟨rfl, h⟩
  · have hus : us ≠ [] := fun he => hbs (List.eq_nil_of_length_eq_zero (by rw [← hbytes, he]; rfl))
    obtain ⟨hr, hveil⟩ := hfits hbs
    rw [h.rtake_heard flow hbytes] at hveil
    obtain ⟨hframed, halike, hsuffix⟩ := Buffer.receive_of_fits (ha flow side) (hb flow side) hr
      (h.alike flow) hbytes hveil a.limit
    rw [receive_of_ne_nil hbs, receive_of_ne_nil hus, h.limit]
    refine ⟨hframed, h.keep halike (hsuffix.trans ?_)⟩
    obtain ⟨front, hfront⟩ := h.heard flow
    exact ⟨front, by rw [← List.append_assoc, hfront]⟩

/-- Bytes of the other side come to the same buffers. -/
theorem Under.receive_elsewhere (h : Under side heard a b) (flow : FlowId) {other : Side}
    (hother : other ≠ side) (answersHead : Nat → Bool) (bs : Bytes) :
    (b.receive flow other answersHead bs).1 = (a.receive flow other answersHead bs).1 ∧
      Under side heard (a.receive flow other answersHead bs).2
        (b.receive flow other answersHead bs).2 := by
  by_cases hbs : bs = []
  · subst hbs
    exact ⟨rfl, h⟩
  · rw [receive_of_ne_nil hbs, receive_of_ne_nil hbs, h.elsewhere flow other hother, h.limit]
    generalize (a.buffer flow other).receive a.limit other answersHead bs = r
    refine ⟨rfl, ?_, fun f side' hside => ?_, fun f => ?_, fun f => ?_⟩
    · simp only [limit_keep, h.limit]
    · by_cases hkey : (f, side') = (flow, other)
      · obtain ⟨rfl, rfl⟩ := Prod.mk.inj hkey
        simp only [buffer_keep_self]
      · simp only [buffer_keep_other hkey, h.elsewhere f side' hside]
    · have hkey : (f, side) ≠ (flow, other) := fun he => hother (Prod.mk.inj he).2.symm
      simp only [buffer_keep_other hkey]
      exact h.alike f
    · have hkey : (f, side) ≠ (flow, other) := fun he => hother (Prod.mk.inj he).2.symm
      simp only [buffer_keep_other hkey]
      exact h.heard f

theorem Under.removeFlow (h : Under side heard a b) (flow : FlowId) :
    Under side (Function.update heard flow []) (a.removeFlow flow) (b.removeFlow flow) := by
  refine ⟨h.limit, fun f other hother => ?_, fun f => ?_, fun f => ?_⟩
  · by_cases hf : f = flow
    · rw [hf, buffer_removeFlow_self, buffer_removeFlow_self]
    · rw [buffer_removeFlow_other hf, buffer_removeFlow_other hf, h.elsewhere f other hother]
  · by_cases hf : f = flow
    · rw [hf, buffer_removeFlow_self, buffer_removeFlow_self]
      exact ⟨rfl, rfl⟩
    · rw [buffer_removeFlow_other hf, buffer_removeFlow_other hf]
      exact h.alike f
  · by_cases hf : f = flow
    · rw [hf, buffer_removeFlow_self, Function.update_self]
      exact List.suffix_rfl
    · rw [buffer_removeFlow_other hf, Function.update_of_ne hf]
      exact h.heard f

end Arrival

end Stream.Buffers

namespace Engine

variable {W : Type}

/-! ## 3. Operations that differ in payload -/

/-- An operation without the payload of a side: of its bytes there is but the number, and of a call
    everything but the body of that side. -/
def Ingress.outline (side : Side) : Ingress → Ingress
  | .bytes flow other bs snapshot =>
    .bytes flow other (if other = side then List.replicate bs.length 0 else bs) snapshot
  | .call c => .call (c.outline side)
  | .resolution host addresses snapshot => .resolution host addresses snapshot
  | .closed flow => .closed flow
  | .pressure => .pressure

/-- What was heard on a side of each flow behind an operation, since the flow was closed last. -/
def Ingress.hear (side : Side) (i : Ingress) (heard : FlowId → Bytes) : FlowId → Bytes :=
  match i with
  | .bytes flow other bs _ => if other = side then Buffers.hear flow bs heard else heard
  | .closed flow => Function.update heard flow []
  | .call _ | .resolution _ _ _ | .pressure => heard

namespace State

/-- The veil over what is waiting on a side of a flow when bytes come. It hides what is delimited as
    a body then; of a message that goes on waiting, this is done anew when the next bytes come. -/
def veil (flow : FlowId) (side : Side) (bs : Bytes) (s : State W) : Veil :=
  Buffer.veil side (fun n => s.pending.isHeadAt flow n)
    { s.buffers.buffer flow side with acc := (s.buffers.buffer flow side).acc.append bs }

/-- The second operation, in a run that heard so much before, has other bytes than the first only
    where the state in front of the first delimits a body, and the buffer there is not searching for
    the start of a message. -/
def Respects (side : Side) (s : State W) (heard : FlowId → Bytes) (i i' : Ingress) : Prop :=
  match i, i' with
  | .bytes flow other bs _, .bytes _ _ us _ =>
    other = side → bs ≠ [] →
      (s.buffers.buffer flow side).recovery ≠ .resync ∧
        Fits (s.veil flow side bs)
          ((heard flow ++ us).rtake ((s.buffers.buffer flow side).acc.unparsed.length + bs.length))
  | _, _ => True

end State

/-- **Two runs that differ in the payload of a side only**: the same operations with fragments of the
    same lengths, and other bytes only where the first run delimits a body. -/
inductive PayloadOnly (backend : Backend W) (side : Side) : State W → (FlowId → Bytes) →
    List (Time.Moment × Ingress) → List (Time.Moment × Ingress) → Prop where
  | nil (s : State W) (heard : FlowId → Bytes) : PayloadOnly backend side s heard [] []
  | cons {s : State W} {heard : FlowId → Bytes} {now now' : Time.Moment} {i i' : Ingress}
      {ops ops' : List (Time.Moment × Ingress)} (houtline : i'.outline side = i.outline side)
      (hrespects : s.Respects side heard i i')
      (rest : PayloadOnly backend side (s.ingress backend now i).2 (i'.hear side heard) ops ops') :
      PayloadOnly backend side s heard ((now, i) :: ops) ((now', i') :: ops')

/-! ## 4. One operation -/

/-- Two states that are related and have buffers that differ under the veil. -/
structure Paired (R : State W → State W → Prop) (side : Side) (heard : FlowId → Bytes)
    (s t : State W) : Prop where
  related : R s t
  buffers : Buffers.Under side heard s.buffers t.buffers

section Step

variable {backend : Backend W} {R : State W → State W → Prop}
  {inStep : Time.Moment → Time.Moment → Prop} {side : Side} {heard : FlowId → Bytes}
  {s t : State W} {now now' : Time.Moment}

/-- What is framed of the bytes is handled alike when it is the same but for the bodies of a side
    that is not collected. -/
theorem Lockstep.onBytes (hl : Lockstep backend R inStep) (h : R s t) (hnow : inStep now now')
    (snapshot : Option Text) {flow : FlowId} {other : Side} {bs us : Bytes}
    (hframed : (s.framed flow other bs).1 = (t.framed flow other us).1 ∨
      s.config.collects other = false ∧
        (t.framed flow other us).1.map Framed.bare = (s.framed flow other bs).1.map Framed.bare) :
    Together R (s.onBytes backend now flow other bs snapshot)
      (t.onBytes backend now' flow other us snapshot) := by
  unfold State.onBytes
  unfold State.framed at hframed
  generalize s.buffers.receive flow other (fun n => s.pending.isHeadAt flow n) bs = r at *
  generalize t.buffers.receive flow other (fun n => t.pending.isHeadAt flow n) us = r' at *
  obtain ⟨framed, b⟩ := r
  obtain ⟨framed', c⟩ := r'
  have hstate := hl.withBuffers h b c
  refine Together.settle ?_
  rcases hframed with rfl | ⟨hc, hbare⟩
  · exact hl.handleAll hstate hnow flow other snapshot _ _
  · have hc' : ({ t with buffers := c } : State W).config.collects other = false := by
      rw [← hl.config hstate]
      exact hc
    rw [← State.handleAll_map_bare (s := { s with buffers := b }) hc,
      ← State.handleAll_map_bare hc', hbare]
    exact hl.handleAll hstate hnow flow other snapshot _ _

theorem buffers_onCall (call : State.Call) (s : State W) :
    (s.onCall backend now call).2.buffers = s.buffers := by
  unfold State.onCall
  rw [State.snd_settle]
  exact (State.handlings_judge backend now _ _ _ s).frame.2

theorem buffers_onResolution (host : Text) (addresses : List Text) (snapshot : Option Text)
    (s : State W) :
    (s.onResolution backend now host addresses snapshot).2.buffers = s.buffers := by
  unfold State.onResolution
  simp only []
  split
  · rfl
  · rw [State.snd_settle]
    exact (State.handlings_judge backend now _ _ _ s).frame.2

/-- Bytes of the side, other ones where a body is delimited. -/
theorem Paired.onBytes (hl : Lockstep backend R inStep) (h : Paired R side heard s t)
    (hs : s.buffers.Searched) (ht : t.buffers.Searched) (hc : s.config.collects side = false)
    (hnow : inStep now now') {flow : FlowId} {bs us : Bytes} (snapshot : Option Text)
    (hbytes : us.length = bs.length)
    (hfits : bs ≠ [] → (s.buffers.buffer flow side).recovery ≠ .resync ∧
      Fits (s.veil flow side bs)
        ((heard flow ++ us).rtake ((s.buffers.buffer flow side).acc.unparsed.length + bs.length))) :
    (s.onBytes backend now flow side bs snapshot).1 =
        (t.onBytes backend now' flow side us snapshot).1 ∧
      Paired R side (Buffers.hear flow us heard) (s.onBytes backend now flow side bs snapshot).2
        (t.onBytes backend now' flow side us snapshot).2 := by
  obtain ⟨hbare, hunder⟩ := h.buffers.receive hs ht hbytes hfits
  have hflags : t.framed flow side us =
      t.buffers.receive flow side (fun n => s.pending.isHeadAt flow n) us := by
    rw [State.framed, hl.pending h.related]
  obtain ⟨hsame, hstate⟩ := hl.onBytes h.related hnow snapshot
    (.inr ⟨hc, by rw [hflags]; exact hbare⟩)
  refine ⟨hsame, hstate, ?_⟩
  rw [State.buffers_onBytes, State.buffers_onBytes, hflags]
  exact hunder

/-- Bytes of the other side are the same in both runs. -/
theorem Paired.onBytes_elsewhere (hl : Lockstep backend R inStep) (h : Paired R side heard s t)
    (hnow : inStep now now') (flow : FlowId) {other : Side} (hother : other ≠ side) (bs : Bytes)
    (snapshot : Option Text) :
    (s.onBytes backend now flow other bs snapshot).1 =
        (t.onBytes backend now' flow other bs snapshot).1 ∧
      Paired R side heard (s.onBytes backend now flow other bs snapshot).2
        (t.onBytes backend now' flow other bs snapshot).2 := by
  obtain ⟨hframed, hunder⟩ := h.buffers.receive_elsewhere flow hother
    (fun n => s.pending.isHeadAt flow n) bs
  have hflags : t.framed flow other bs =
      t.buffers.receive flow other (fun n => s.pending.isHeadAt flow n) bs := by
    rw [State.framed, hl.pending h.related]
  obtain ⟨hsame, hstate⟩ := hl.onBytes h.related hnow snapshot
    (.inl (by rw [hflags]; exact hframed.symm))
  refine ⟨hsame, hstate, ?_⟩
  rw [State.buffers_onBytes, State.buffers_onBytes, hflags]
  exact hunder

/-- **Operations that differ in payload decide alike** and leave states that differ in payload. -/
theorem Paired.ingress (hl : Lockstep backend R inStep) (h : Paired R side heard s t)
    (hs : s.buffers.Searched) (ht : t.buffers.Searched) (hc : s.config.collects side = false)
    (hnow : inStep now now') {i i' : Ingress} (houtline : i'.outline side = i.outline side)
    (hrespects : s.Respects side heard i i') :
    (s.ingress backend now i).1 = (t.ingress backend now' i').1 ∧
      Paired R side (i'.hear side heard) (s.ingress backend now i).2
        (t.ingress backend now' i').2 := by
  cases i with
  | bytes flow other bs snapshot =>
    cases i' <;> simp only [Ingress.outline, Ingress.bytes.injEq, reduceCtorEq] at houtline
    next flow' other' us snapshot' =>
    obtain ⟨rfl, rfl, hbytes, rfl⟩ := houtline
    by_cases hside : other' = side
    · subst hside
      have hlength : us.length = bs.length := by simpa using congrArg List.length hbytes
      simp only [Ingress.hear, if_true]
      exact h.onBytes hl hs ht hc hnow snapshot' hlength (hrespects rfl)
    · rw [if_neg hside, if_neg hside] at hbytes
      subst hbytes
      simp only [Ingress.hear, if_neg hside]
      exact h.onBytes_elsewhere hl hnow flow' hside us snapshot'
  | call c =>
    cases i' <;> simp only [Ingress.outline, Ingress.call.injEq, reduceCtorEq] at houtline
    next c' =>
    have hct : t.config.collects side = false := by
      rw [← hl.config h.related]
      exact hc
    obtain ⟨hsame, hstate⟩ := hl.onCall h.related hnow (c.outline side)
    simp only [State.ingress, ← State.onCall_outline hc c, ← State.onCall_outline hct c', houtline]
    refine ⟨hsame, hstate, ?_⟩
    rw [buffers_onCall, buffers_onCall]
    exact h.buffers
  | resolution host addresses snapshot =>
    cases i' <;> simp only [Ingress.outline, Ingress.resolution.injEq, reduceCtorEq] at houtline
    obtain ⟨rfl, rfl, rfl⟩ := houtline
    obtain ⟨hsame, hstate⟩ := hl.onResolution h.related hnow _ _ _
    refine ⟨hsame, hstate, ?_⟩
    simp only [State.ingress, buffers_onResolution]
    exact h.buffers
  | closed flow =>
    cases i' <;> simp only [Ingress.outline, Ingress.closed.injEq, reduceCtorEq] at houtline
    subst houtline
    exact ⟨rfl, hl.onClosed h.related _, h.buffers.removeFlow _⟩
  | pressure =>
    cases i' <;> simp only [Ingress.outline, reduceCtorEq] at houtline
    exact ⟨rfl, hl.onPressure h.related, h.buffers⟩

end Step

/-! ## 5. Runs -/

theorem config_ingress (backend : Backend W) (now : Time.Moment) (i : Ingress) (s : State W) :
    (s.ingress backend now i).2.config = s.config := by
  refine (changes_ingress backend now i s).keep (P := fun t => t.config = s.config)
    (fun hchange hconfig => ?_) rfl
  cases hchange with
  | handling hhandling => exact hhandling.frame.1.trans hconfig
  | receive | close | clear => exact hconfig

theorem searched_ingress {s : State W} (hs : s.buffers.Searched) (backend : Backend W)
    (now : Time.Moment) (i : Ingress) : (s.ingress backend now i).2.buffers.Searched :=
  (changes_ingress backend now i s).keep (P := fun t => t.buffers.Searched) searched_change hs

/-- What two runs leave the same: the dispositions, the events but for their times, the requests that
    wait, and the bodies that are kept. -/
structure SameTrace {S : Type} (shelf : W → S)
    (r r' : List (Ingress × Disposition) × State W) : Prop where
  dispositions : r.1.map Prod.snd = r'.1.map Prod.snd
  published : r.2.published.map Event.undated = r'.2.published.map Event.undated
  pending : r.2.pending = r'.2.pending
  bodies : shelf r.2.world = shelf r'.2.world

section Runs

variable {backend : Backend W} {R : State W → State W → Prop}
  {inStep : Time.Moment → Time.Moment → Prop} {side : Side} {heard : FlowId → Bytes}
  {s t : State W} {ops ops' : List (Time.Moment × Ingress)}

/-- **Runs that differ in payload decide alike**, and what was related at their start is at their
    end. -/
theorem PayloadOnly.run (hops : PayloadOnly backend side s heard ops ops')
    (hl : Lockstep backend R inStep) (h : Paired R side heard s t) (hs : s.buffers.Searched)
    (ht : t.buffers.Searched) (hc : s.config.collects side = false)
    (hnow : ∀ pair ∈ ops.zip ops', inStep pair.1.1 pair.2.1) :
    (s.run backend ops).1.map Prod.snd = (t.run backend ops').1.map Prod.snd ∧
      R (s.run backend ops).2 (t.run backend ops').2 := by
  -- both runs make the first operation, and what follows differs in payload only
  induction hops generalizing t with
  | nil s heard => exact ⟨rfl, h.related⟩
  | @cons s heard now now' i i' ops ops' houtline hrespects rest ih =>
    have hfirst : inStep now now' := hnow ((now, i), (now', i')) (List.mem_cons_self ..)
    obtain ⟨hsame, hnext⟩ := h.ingress hl hs ht hc hfirst houtline hrespects
    obtain ⟨hlater, hlast⟩ := ih hnext (searched_ingress hs backend now i)
      (searched_ingress ht backend now' i') (by rw [config_ingress]; exact hc)
      fun pair hpair => hnow pair (List.mem_cons_of_mem _ hpair)
    simp only [State.run, List.map_cons]
    exact ⟨by rw [hsame, hlater], hlast⟩

variable {fit : W → Prop}

/-- **Bodies that are not collected leave no trace.** From any state of a run on, let two runs differ
    in the payload of a side only, of which bodies are not collected. With clocks of the same ticks,
    whatever the source of rules and the keeper of bodies do, they publish the same events but for
    their times, decide alike, and leave the same requests waiting and the same world. With rules that
    do not change the clocks may differ too. -/
theorem Reachable.uncollected (hs : Reachable backend fit s) (hc : s.config.collects side = false)
    (hops : PayloadOnly backend side s (fun flow => (s.buffers.buffer flow side).acc.unparsed)
      ops ops') :
    (ops.map (fun op => op.1.tick) = ops'.map (fun op => op.1.tick) →
      SameTrace id (s.run backend ops) (s.run backend ops')) ∧
    ∀ {S : Type} {answer : Kind → Text → Option Rule} {shelf : W → S} {keeper : Keeper S},
      backend.Steady fit answer shelf keeper →
      SameTrace shelf (s.run backend ops) (s.run backend ops') := by
  have hunder := Buffers.Under.refl side s.buffers
  refine ⟨fun hticks => ?_, fun {S answer shelf keeper} hb => ?_⟩
  · rw [← List.forall₂_eq_eq_eq, List.forall₂_map_left_iff, List.forall₂_map_right_iff] at hticks
    obtain ⟨hsame, htwin⟩ := hops.run (lockstep_twin backend) ⟨Twin.refl s, hunder⟩ hs.searched
      hs.searched hc fun pair hpair => List.forall₂_zip hticks hpair
    exact ⟨hsame, htwin.published, htwin.pending, htwin.world⟩
  · obtain ⟨hsame, hagree⟩ := hops.run (State.lockstep_agree hb)
      ⟨State.Agree.refl (hs.faithful hb), hunder⟩ hs.searched hs.searched hc fun _ _ => trivial
    exact ⟨hsame, hagree.published, hagree.pending, hagree.shelf⟩

end Runs

/-- Two requests and their responses, one of declared length that comes in two fragments and one in
    chunks, and a completed call. -/
def exchangesWith (wall : Nat) (front back chunk : Text) (body : Option Bytes) :
    List (Time.Moment × Ingress) :=
  [(⟨⟨wall, 0⟩, 0⟩, .bytes ⟨7, false⟩ .request twoPaths none),
    (⟨⟨wall, 0⟩, 1⟩, .bytes ⟨7, false⟩ .response
      (Utf8.encode ("HTTP/1.1 200 OK\r\nContent-Length: 5\r\n\r\n".toList ++ front)) none),
    (⟨⟨wall, 0⟩, 2⟩, .bytes ⟨7, false⟩ .response
      (Utf8.encode (back ++ "HTTP/1.1 200 OK\r\nTransfer-Encoding: chunked\r\n\r\n2\r\n".toList ++
        chunk ++ "\r\n0\r\n\r\n".toList)) none),
    (⟨⟨wall, 0⟩, 3⟩, .call
      { transport := .library, method := "GET".toList, url := "http://a.test/".toList,
        requestHeaders := [], requestBody := none, requestContentType := none,
        response := some
          { status := 200, statusMessage := "OK".toList, headers := [], body,
            contentDescriptor := none },
        snapshot := none })]

/-- The exchanges with words as bodies. -/
def wordBodies : List (Time.Moment × Ingress) :=
  exchangesWith 0 "fi".toList "rst".toList "no".toList none

/-- The exchanges, later, with bodies that look like empty lines and like a size line. -/
def lineBodies : List (Time.Moment × Ingress) :=
  exchangesWith 9 "\r\n".toList "\r\nH".toList "0\r".toList (some [1])

/-- An engine with the usual limits that has observed nothing. -/
def unused : State (Book × Shelf) :=
  (State.start? Config.defaults (Book.empty, Shelf.empty)).get rfl

theorem payloadOnly_lineBodies :
    PayloadOnly memory .response unused
      (fun flow => (unused.buffers.buffer flow .response).acc.unparsed) wordBodies lineBodies := by
  refine .cons rfl (fun h => nomatch h) ?_
  refine .cons (by decide +kernel) (fun _ _ => ⟨by decide +kernel, by decide +kernel⟩) ?_
  refine .cons (by decide +kernel) (fun _ _ => ⟨by decide +kernel, by decide +kernel⟩) ?_
  exact .cons rfl trivial (.nil _ _)

/-- Both runs publish three verdicts, each of them twice, and leave the same. -/
theorem uncollected_lineBodies :
    unused.config.collects .response = false ∧
      (unused.run memory wordBodies).2.published.length = 6 ∧
      SameTrace id (unused.run memory wordBodies) (unused.run memory lineBodies) ∧
      SameTrace Prod.snd (unused.run memory wordBodies) (unused.run memory lineBodies) := by
  have hreached : Reachable memory (fun w => w.1.rules = []) unused :=
    .start Config.validate_defaults rfl (Option.some_get _).symm
  have hc : unused.config.collects .response = false := rfl
  obtain ⟨hticks, hsteady⟩ := Reachable.uncollected hreached hc payloadOnly_lineBodies
  exact ⟨hc, by decide +kernel, hticks rfl, hsteady (steady_memory [])⟩

end Engine

end TrafficGate
