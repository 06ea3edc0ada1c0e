import TrafficGate.Proofs.BlockEnforcement
import TrafficGate.Proofs.PendingQueues
/-!
  # Calls that are interrupted

  On the response side each entry that ends an exchange takes one request, for as long as requests
  wait. A look-up that breaks off ends the call at its entry: the request of that entry is gone with
  those before it, and the entries behind it take none, so that their requests still wait when the
  next response comes.

  1. one entry;
  2. the entries of a call, up to the one that is interrupted;
  3. a call, and one that leaves a request behind.

  Main facts: **`HandlesAll.queue_response`**, **`HandlesAll.interrupted`** and
  **`onBytes_takes`**.
-/

namespace TrafficGate.Engine

open Http TrafficGate.Stream Exchange Rule Verdict

variable {W : Type}

namespace State

/-- How many exchanges the entries end that were handled, one for each act. -/
def endings (as : List Act) (fs : List Framed) : Nat :=
  (fs.take as.length).countP Framed.endsExchange

theorem endings_nil (fs : List Framed) : endings [] fs = 0 := by
  rw [endings, List.length_nil, List.take_zero, List.countP_nil]

theorem endings_cons (a : Act) (as : List Act) (f : Framed) (fs : List Framed) :
    endings (a :: as) (f :: fs) = (if f.endsExchange then 1 else 0) + endings as fs := by
  rw [endings, List.length_cons, List.take_succ_cons, List.countP_cons, Nat.add_comm]
  rfl

section Calls

variable {backend : Backend W} {now : Time.Moment} {flow : FlowId} {snapshot : Option Text}
  {s t : State W} {f : Framed} {fs : List Framed} {a : Act} {as : List Act}

/-! ## 1. One entry -/

/-- **An entry that ends an exchange takes the oldest request, any other one takes none**, also when
    its look-up breaks off. -/
theorem Handles.queue_response (h : Handles backend now flow snapshot s f .response a t) :
    t.pending.queue flow = (s.pending.queue flow).drop (if f.endsExchange then 1 else 0) := by
  rw [h.queue]
  cases h with
  | announce hpass =>
    rw [hpass]
    rfl
  | unasked hends | conclude hends | breakOffOldest hends =>
    rw [if_pos hends, List.drop_one]
    rfl

/-- A look-up that breaks off was that of the oldest request. -/
theorem Handles.interrupted (h : Handles backend now flow snapshot s f .response a t)
    (ha : a.breaksOff = true) :
    ∃ r, a = .breakOff (some r) ∧ f.endsExchange = true ∧ (s.pending.queue flow).head? = some r := by
  cases h with
  | @breakOffOldest r _ _ hends hq =>
    exact ⟨r, rfl, hends, by rw [← Pending.takeOldest_fst, hq]⟩
  | _ => cases ha

/-! ## 2. The entries of a call -/

/-- **As many requests leave as the handled entries end exchanges**, the oldest first. -/
theorem HandlesAll.queue_response (h : HandlesAll backend now flow .response snapshot s fs as t) :
    t.pending.queue flow = (s.pending.queue flow).drop (endings as fs) := by
  induction h with
  | nil s => rfl
  | cons h _ _ ih => rw [ih, h.queue_response, List.drop_drop, endings_cons]
  | breakOff h _ => rw [h.queue_response, endings_cons, endings_nil, Nat.add_zero]

/-- Without an interruption every entry is handled. -/
theorem HandlesAll.length_eq (h : HandlesAll backend now flow .response snapshot s fs as t)
    (hdone : as.any Act.breaksOff = false) : as.length = fs.length := by
  induction h with
  | nil s => rfl
  | cons _ _ _ ih =>
    rw [List.any_cons, Bool.or_eq_false_iff] at hdone
    rw [List.length_cons, List.length_cons, ih hdone.2]
  | breakOff _ hb =>
    rw [List.any_cons, hb] at hdone
    cases hdone

/-- How a call was interrupted: at the entry `f`, when its request `r` was looked up. The entries
    `front` were handled before it, with the acts `before`; those in `behind` were not. -/
structure Interrupted (queue : List Request) (fs : List Framed) (as : List Act)
    (front : List Framed) (before : List Act) (f : Framed) (r : Request) (behind : List Framed) :
    Prop where
  entries : fs = front ++ f :: behind
  acts : as = before ++ [.breakOff (some r)]
  handled : before.length = front.length
  ends : f.endsExchange = true
  request : queue[front.countP Framed.endsExchange]? = some r

/-- **An interrupted call ends at an entry that ends an exchange**, whose request it has taken. -/
theorem HandlesAll.interrupted (h : HandlesAll backend now flow .response snapshot s fs as t)
    (hbroke : as.any Act.breaksOff = true) :
    ∃ front before f r behind,
      Interrupted (s.pending.queue flow) fs as front before f r behind := by
  induction h with
  | nil s => cases hbroke
  | @cons s t u f fs a as h hb _ ih =>
    rw [List.any_cons, hb, Bool.false_or] at hbroke
    obtain ⟨front, before, g, r, behind, hi⟩ := ih hbroke
    refine ⟨f :: front, a :: before, g, r, behind, congrArg (f :: ·) hi.entries,
      congrArg (a :: ·) hi.acts, congrArg (· + 1) hi.handled, hi.ends, ?_⟩
    -- places are counted in the queue that the first entry left
    have hrequest := hi.request
    rw [h.queue_response, List.getElem?_drop] at hrequest
    rw [List.countP_cons, Nat.add_comm, hrequest]
  | @breakOff s t f fs a h hb =>
    obtain ⟨r, rfl, hends, holdest⟩ := h.interrupted hb
    have hrequest : (s.pending.queue flow)[0]? = some r := by rwa [← List.head?_eq_getElem?]
    exact ⟨[], [], f, r, fs, rfl, rfl, rfl, hends, hrequest⟩

end Calls

/-! ## 3. A call -/

/-- **Each exchange that ends takes one request, unless the source breaks off.** Whatever the state,
    the bytes and the source, the entries that a call frames are handled act by act, and exactly as
    many requests leave as these entries end exchanges, if as many wait. When none breaks off these
    are all the entries. When one does, so did the source; the call proceeds, and the entry at which
    it ended has taken the request that it was to be joined with. -/
theorem onBytes_takes (backend : Backend W) (now : Time.Moment) (flow : FlowId) (bytes : Bytes)
    (snapshot : Option Text) (s : State W) :
    ∃ as,
      HandlesAll backend now flow .response snapshot
        { s with buffers := (s.framed flow .response bytes).2 } (s.framed flow .response bytes).1 as
        (s.onBytes backend now flow .response bytes snapshot).2 ∧
      (s.onBytes backend now flow .response bytes snapshot).2.pending.queue flow =
        (s.pending.queue flow).drop (endings as (s.framed flow .response bytes).1) ∧
      (s.onBytes backend now flow .response bytes snapshot).2.pending.count flow +
          min (endings as (s.framed flow .response bytes).1) (s.pending.count flow) =
        s.pending.count flow ∧
      (as.any Act.breaksOff = false →
        endings as (s.framed flow .response bytes).1 =
          (s.framed flow .response bytes).1.countP Framed.endsExchange) ∧
      (as.any Act.breaksOff = true →
        (s.onBytes backend now flow .response bytes snapshot).1 = .proceed ∧
          BrokeOff backend.rules
            (s.onBytes backend now flow .response bytes snapshot).2.world ∧
          ∃ front before f r behind,
            Interrupted (s.pending.queue flow) (s.framed flow .response bytes).1 as front before f
              r behind) := by
  have hrun := handlesAll_onBytes backend now flow .response snapshot s bytes
  have hqueue : (s.onBytes backend now flow .response bytes snapshot).2.pending.queue flow =
      (s.pending.queue flow).drop _ := hrun.queue_response
  refine ⟨_, hrun, hqueue, ?_, fun hdone => ?_, fun hbroke => ?_⟩
  · rw [Pending.count, hqueue, List.length_drop, Pending.count]
    omega
  · rw [endings, hrun.length_eq hdone, List.take_length]
  · refine ⟨?_, hrun.crashed hbroke, hrun.interrupted hbroke⟩
    rw [fst_onBytes, if_pos hbroke]

/-- Rules and bodies in memory, with a source that breaks off once it was asked five times. -/
def weary : Backend (Book × Shelf) :=
  { memory with
    rules := {
      query := fun kind value w =>
        if 5 ≤ w.1.queries then (.crashed, w) else memory.rules.query kind value w } }

/-- Two final responses in one piece. -/
def twoAnswers : Bytes :=
  Utf8.encode "HTTP/1.1 204 X\r\n\r\nHTTP/1.1 204 Y\r\n\r\n".toList

/-- Two requests that wait, and no cached answers. -/
def asked (s : State (Book × Shelf)) : State (Book × Shelf) :=
  (s.onBytes weary ⟨⟨0, 0⟩, 0⟩ ⟨7, false⟩ .request twoPaths none).2.onPressure

/-- A request can be left behind: two responses come for two requests, and looking up the first of
    these breaks off. -/
theorem exists_request_left_behind :
    ¬ ∀ (backend : Backend (Book × Shelf)) (s : State (Book × Shelf)),
      Reachable backend (fun _ => True) s →
      ∀ now flow bytes snapshot,
        (s.onBytes backend now flow .response bytes snapshot).2.pending.count flow +
            min ((s.framed flow .response bytes).1.countP Framed.endsExchange)
              (s.pending.count flow) =
          s.pending.count flow := by
  intro hclaim
  obtain ⟨s, hs⟩ : ∃ s, State.start? Config.defaults (Book.empty, Shelf.empty) = some s := ⟨_, rfl⟩
  have hrun : ((State.start? Config.defaults (Book.empty, Shelf.empty)).all fun s =>
      decide ((s.asked.onBytes weary ⟨⟨0, 0⟩, 0⟩ ⟨7, false⟩ .response twoAnswers none).2.pending.count
          ⟨7, false⟩ = 1 ∧
        (s.asked.framed ⟨7, false⟩ .response twoAnswers).1.countP Framed.endsExchange = 2 ∧
        s.asked.pending.count ⟨7, false⟩ = 2)) = true := by
    decide +kernel
  rw [hs, Option.all_some, decide_eq_true_eq] at hrun
  obtain ⟨hleft, hended, hwaited⟩ := hrun
  have hreachable : Reachable weary (fun _ => True) s.asked :=
    ((Reachable.start Config.validate_defaults trivial hs).ingress ⟨⟨0, 0⟩, 0⟩
      (.bytes ⟨7, false⟩ .request twoPaths none)).ingress ⟨⟨0, 0⟩, 0⟩ .pressure
  have hcount := hclaim weary s.asked hreachable ⟨⟨0, 0⟩, 0⟩ ⟨7, false⟩ twoAnswers none
  rw [hleft, hended, hwaited] at hcount
  cases hcount

end State

end TrafficGate.Engine
