import TrafficGate.Proofs.Agreement
/-!
  # Decisions do not depend on fragments

  The bytes of a flow and side come in one call or in two, with a cut anywhere. The calls frame the
  same messages: on the response side the second call counts from the first request that the first
  call left in the queue, which is where the one call would have counted on. Handled one after the
  other, they lead to states that agree.

  1. the request side asks no questions about HEAD requests;
  2. bytes that stay within the limit;
  3. one cut.

  Main facts: **`absorb_request`**, **`receive_within`**, **`isHeadAt_handleAll`** and
  **`onBytes_append`**.
-/

namespace TrafficGate

namespace Stream

open Http

/-! ## 1. The request side -/

/-- Requests are carved the same whatever is known of HEAD requests. -/
theorem Accumulator.carveAll_request (answersHead other : Nat → Bool) (a : Accumulator) :
    a.carveAll .request answersHead = a.carveAll .request other := by
  induction answersHead, a using carve_induction .request generalizing other with
  | waits answersHead a k hk =>
    have hk' : a.step .request other 0 = .needMore k := hk
    rw [carveAll_of_none hk, carveAll_of_none hk']
  | piece answersHead a p hp ih =>
    have hp' : a.piece? (a.step .request other 0) = some p := hp
    rw [carveAll_of_some hp, carveAll_of_some hp', ih fun n => other (p.finals + n)]
    rfl

theorem Buffer.absorb_request (answersHead other : Nat → Bool) (bs : Bytes) (b : Buffer) :
    absorb .request answersHead bs b = absorb .request other bs b := by
  simp only [absorb, Accumulator.carveAll_request answersHead other]

theorem Buffers.receive_request (flow : FlowId) (answersHead other : Nat → Bool) (bs : Bytes)
    (s : Buffers) :
    s.receive flow .request answersHead bs = s.receive flow .request other bs := by
  simp only [receive, Buffer.receive_eq, Buffer.absorb_request answersHead other]

/-! ## 2. Within the limit -/

namespace Buffers

/-- **Bytes that stay within the limit** give the messages that they complete. -/
theorem receive_within {flow : FlowId} {side : Side} {answersHead : Nat → Bool} {bs : Bytes}
    {s : Buffers} (hbs : bs ≠ [])
    (h : ((s.buffer flow side).absorb side answersHead bs).2.acc.unparsed.length ≤ s.limit) :
    s.receive flow side answersHead bs =
      (Buffer.reported ((s.buffer flow side).absorb side answersHead bs).1,
        s.keep flow side ((s.buffer flow side).absorb side answersHead bs).2) := by
  rw [receive_of_ne_nil hbs, Buffer.receive_eq]
  simp only [if_neg (Nat.not_lt_of_le h)]

/-- The buffer that is kept last counts. -/
theorem find?_keep_keep (flow : FlowId) (side : Side) (b c : Buffer) (s : Buffers)
    (key : FlowId × Side) :
    ((s.keep flow side b).keep flow side c).table.find? key =
      (s.keep flow side c).table.find? key := by
  by_cases hkey : key = (flow, side)
  · rw [hkey]
    by_cases hidle : c.isIdle
    · simp only [keep, if_pos hidle, Table.find?_erase_self]
    · simp only [keep, if_neg hidle, Table.find?_set_self]
  · rw [find?_keep_other hkey, find?_keep_other hkey, find?_keep_other hkey]

end Buffers

end Stream

namespace Engine.State

open Http TrafficGate.Stream Exchange Rule Verdict

variable {W S : Type}

/-- How many bytes of a flow and side stay unframed when these come. -/
def unframed (flow : FlowId) (side : Side) (bytes : Bytes) (s : State W) : Nat :=
  ((s.buffers.buffer flow side).absorb side (fun n => s.pending.isHeadAt flow n)
    bytes).2.acc.unparsed.length

section Cut

variable {backend : Backend W} {fit : W → Prop} {answer : Kind → Text → Option Rule}
  {shelf : W → S} {keeper : Keeper S} {s : State W} {flow : FlowId} {side : Side}

/-- A call whose bytes stay within the limit handles the messages that they complete. -/
theorem onBytes_within (hs : Reachable backend fit s) {bytes : Bytes} (hbytes : bytes ≠ [])
    (h : s.unframed flow side bytes ≤ s.config.maxBufferBytes) (now : Time.Moment)
    (snapshot : Option Text) :
    s.onBytes backend now flow side bytes snapshot =
      let (pieces, after) := (s.buffers.buffer flow side).absorb side
        (fun n => s.pending.isHeadAt flow n) bytes
      settle (handleAll backend now flow side snapshot (Buffer.reported pieces) .proceed
        { s with buffers := s.buffers.keep flow side after }) := by
  rw [← hs.limit] at h
  rw [onBytes, Buffers.receive_within hbytes h]

/-- **Behind the responses of some pieces the questions go on where they stopped.** -/
theorem isHeadAt_handleAll (hb : backend.Calm fit) (hw : fit s.world) {pieces : List Carved}
    (hpieces : ∀ f ∈ Buffer.reported pieces, f.IsOf .response) (now : Time.Moment)
    (snapshot : Option Text) (d : Disposition) (n : Nat) :
    (handleAll backend now flow .response snapshot (Buffer.reported pieces) d s).2.pending.isHeadAt
        flow n = s.pending.isHeadAt flow (finalsIn pieces + n) := by
  rw [Pending.isHeadAt_eq, Pending.isHeadAt_eq,
    queue_handleAll_response now flow snapshot hb hw hpieces, finalsIn_eq_countP,
    List.getElem?_drop]

/-- **The buffer of a flow and side takes in the next bytes** as if the entries in front of them had
    not been handled, with the questions counted on. -/
theorem absorb_handleAll (hb : backend.Calm fit) (hs : Reachable backend fit s) (x y : Bytes)
    (now : Time.Moment) (snapshot : Option Text) {pieces : List Carved} {b : Buffer}
    {t : State W}
    (hx : (s.buffers.buffer flow side).absorb side (fun n => s.pending.isHeadAt flow n) x =
      (pieces, b))
    (ht : t = (handleAll backend now flow side snapshot (Buffer.reported pieces) .proceed
      { s with buffers := s.buffers.keep flow side b }).2) :
    (t.buffers.buffer flow side).absorb side (fun n => t.pending.isHeadAt flow n) y =
      b.absorb side (fun n => s.pending.isHeadAt flow (finalsIn pieces + n)) y := by
  have hsearched := Buffer.searched_absorb (hs.searched flow side) side
    (fun n => s.pending.isHeadAt flow n) x
  rw [hx] at hsearched
  have hbuffers : t.buffers = s.buffers.keep flow side b := by
    rw [ht]
    exact (handlings_handleAll backend now flow side snapshot _ _ _).frame.2
  rw [hbuffers, Buffer.absorb_congr (Buffers.searched_buffer_keep hsearched) hsearched
    (Buffers.same_buffer_keep flow side b s.buffers)]
  cases side with
  | request => exact Buffer.absorb_request _ _ y b
  | response =>
    have hpieces : ∀ f ∈ Buffer.reported pieces, f.IsOf .response := by
      obtain rfl : _ = pieces := congrArg Prod.fst hx
      exact fun f => Buffer.isOf_reported_absorb
    have hasked : (fun n => t.pending.isHeadAt flow n) =
        fun n => s.pending.isHeadAt flow (finalsIn pieces + n) := by
      funext n
      rw [ht]
      exact isHeadAt_handleAll (s := { s with buffers := s.buffers.keep flow .response b }) hb
        (hs.fit_world hb.toKeeps) hpieces now snapshot .proceed n
    rw [hasked]

/-- What one call and two calls leave the same: the events but for their times, the waiting
    requests, the buffered bytes of every flow and side, and the published keys. -/
def SameBehind (s t : State W) : Prop :=
  s.published.map Event.undated = t.published.map Event.undated ∧ s.pending = t.pending ∧
    (∀ key, s.buffers.table.find? key = t.buffers.table.find? key) ∧
    s.dispatcher.seen = t.dispatcher.seen

theorem Agree.sameBehind {t : State W} (h : Agree fit answer shelf s t)
    (hbuffers : ∀ key, s.buffers.table.find? key = t.buffers.table.find? key) :
    SameBehind s t :=
  ⟨h.published, h.pending, hbuffers, congrArg Dispatcher.seen h.dispatcher⟩

/-- One call at two times. -/
theorem onBytes_retimed (hb : backend.Steady fit answer shelf keeper)
    (hs : Reachable backend fit s) (flow : FlowId) (side : Side) (bytes : Bytes)
    (now now' : Time.Moment) (snapshot : Option Text) :
    (s.onBytes backend now flow side bytes snapshot).1 =
        (s.onBytes backend now' flow side bytes snapshot).1 ∧
      SameBehind (s.onBytes backend now flow side bytes snapshot).2
        (s.onBytes backend now' flow side bytes snapshot).2 := by
  unfold onBytes
  cases s.buffers.receive flow side (fun n => s.pending.isHeadAt flow n) bytes with
  | mk framed buffers =>
    obtain ⟨d, t, t', ht, ht', hagree⟩ := agree_handleAll hb
      ((Agree.refl (hs.faithful hb)).withBuffers buffers buffers) now now' flow side snapshot framed
      .proceed
    simp only [ht, ht']
    refine ⟨rfl, hagree.sameBehind fun key => ?_⟩
    simp only [(frame_of_handleAll ht).2, (frame_of_handleAll ht').2]

/-- A cut between two bytes. -/
theorem onBytes_cut (hb : backend.Steady fit answer shelf keeper) (hs : Reachable backend fit s)
    (hr : (s.buffers.buffer flow side).recovery ≠ .resync) {x y : Bytes} (hxnil : x ≠ [])
    (hynil : y ≠ []) (hx : s.unframed flow side x ≤ s.config.maxBufferBytes)
    (hxy : s.unframed flow side (x ++ y) ≤ s.config.maxBufferBytes)
    (now now₁ now₂ : Time.Moment) (snapshot : Option Text) :
    ∃ d e s₂ t₁ t₂, s.onBytes backend now flow side (x ++ y) snapshot = (d.or e, s₂) ∧
      s.onBytes backend now₁ flow side x snapshot = (d, t₁) ∧
      t₁.onBytes backend now₂ flow side y snapshot = (e, t₂) ∧ SameBehind s₂ t₂ := by
  have hxynil : x ++ y ≠ [] := fun h => hxnil (List.append_eq_nil_iff.mp h).1
  have hwhole := onBytes_within hs hxynil hxy now snapshot
  have hfirst := onBytes_within hs hxnil hx now₁ snapshot
  have hcut := Buffer.absorb_append (hs.searched flow side) hr side
    (fun n => s.pending.isHeadAt flow n) x y
  cases hpieces : (s.buffers.buffer flow side).absorb side (fun n => s.pending.isHeadAt flow n)
    x with
  | mk pieces b =>
    cases hlater : b.absorb side (fun n => s.pending.isHeadAt flow (finalsIn pieces + n)) y with
    | mk later c =>
      simp only [hpieces, hlater] at hcut hfirst
      simp only [hcut, Buffer.reported_append, handleAll_append] at hwhole
      -- the entries in front of the cut
      obtain ⟨d, s₁, t₁, hs₁, ht₁, hagree₁⟩ := agree_handleAll hb
        ((Agree.refl (hs.faithful hb)).withBuffers (s.buffers.keep flow side c)
          (s.buffers.keep flow side b)) now now₁ flow side snapshot (Buffer.reported pieces)
          .proceed
      have hframe := frame_of_handleAll ht₁
      rw [ht₁] at hfirst
      -- the call behind the cut
      have hreach : Reachable backend fit t₁ := by
        have := hs.ingress now₁ (.bytes flow side x snapshot)
        simp only [State.ingress, hfirst, settle] at this
        exact this
      have habsorb := absorb_handleAll hb.calm hs x y now₁ snapshot hpieces (t := t₁) (by rw [ht₁])
      have hy : t₁.unframed flow side y ≤ t₁.config.maxBufferBytes := by
        rw [unframed, habsorb, hlater, hframe.1]
        rwa [unframed, hcut] at hxy
      have hsecond := onBytes_within hreach hynil hy now₂ snapshot
      simp only [habsorb, hlater] at hsecond
      -- the entries behind the cut
      obtain ⟨e, s₂, t₂, hs₂, ht₂, hagree₂⟩ := agree_handleAll hb
        (hagree₁.withBuffers s₁.buffers (t₁.buffers.keep flow side c)) now now₂ flow side snapshot
        (Buffer.reported later) .proceed
      rw [ht₂] at hsecond
      have hor := handleAll_or backend now flow side snapshot (Buffer.reported later) d .proceed s₁
      rw [hs₂, Disposition.or_proceed] at hor
      simp only [hs₁, hor] at hwhole
      refine ⟨d, e, s₂, t₁, t₂, hwhole, hfirst, hsecond, hagree₂.sameBehind fun key => ?_⟩
      rw [(frame_of_handleAll hs₂).2, (frame_of_handleAll ht₂).2, (frame_of_handleAll hs₁).2,
        hframe.2, Buffers.find?_keep_keep]

/-- **Decisions do not depend on fragments.** In every state of a run with steady rules, bytes that
    stay within the limit decide and leave the same in one call as in two, wherever they are cut and
    whenever the calls are made. -/
theorem onBytes_append (hb : backend.Steady fit answer shelf keeper)
    (hs : Reachable backend fit s) (hr : (s.buffers.buffer flow side).recovery ≠ .resync)
    {x y : Bytes} (hx : s.unframed flow side x ≤ s.config.maxBufferBytes)
    (hxy : s.unframed flow side (x ++ y) ≤ s.config.maxBufferBytes)
    (now now₁ now₂ : Time.Moment) (snapshot : Option Text) :
    let whole := s.onBytes backend now flow side (x ++ y) snapshot
    let first := s.onBytes backend now₁ flow side x snapshot
    let second := first.2.onBytes backend now₂ flow side y snapshot
    whole.1 = first.1.or second.1 ∧ SameBehind whole.2 second.2 := by
  intro whole first second
  by_cases hxnil : x = []
  · subst hxnil
    exact onBytes_retimed hb hs flow side y now now₂ snapshot
  · by_cases hynil : y = []
    · have hretimed := onBytes_retimed hb hs flow side x now now₁ snapshot
      have hsecond : second = (.proceed, first.2) := by
        simp only [second, hynil]
        exact onBytes_nil backend now₂ flow side snapshot first.2
      rw [hsecond, Disposition.or_proceed]
      simp only [whole, hynil, List.append_nil]
      exact hretimed
    · obtain ⟨d, e, s₂, t₁, t₂, hwhole, hfirst, hsecond, hbehind⟩ :=
        onBytes_cut hb hs hr hxnil hynil hx hxy now now₁ now₂ snapshot
      have hfirst' : first = (d, t₁) := hfirst
      have hsecond' : second = (e, t₂) := by
        simp only [second, hfirst']
        exact hsecond
      have hwhole' : whole = (d.or e, s₂) := hwhole
      rw [hwhole', hsecond', hfirst']
      exact ⟨rfl, hbehind⟩

end Cut

/-- A response to a HEAD request that is cut in the name of a field. -/
theorem onBytes_append_behind_head :
    ∃ s, behind? (Book.empty, Shelf.empty) headRequest = some s ∧
      (s.buffers.buffer ⟨7, false⟩ .response).recovery ≠ .resync ∧
      s.unframed ⟨7, false⟩ .response (Utf8.encode "HTTP/1.1 200 OK\r\nContent-".toList) ≤
        s.config.maxBufferBytes ∧
      let whole := s.onBytes memory ⟨⟨1, 0⟩, 1⟩ ⟨7, false⟩ .response
        (Utf8.encode "HTTP/1.1 200 OK\r\nContent-".toList ++
          Utf8.encode "Length: 5\r\n\r\n".toList) none
      let first := s.onBytes memory ⟨⟨1, 0⟩, 1⟩ ⟨7, false⟩ .response
        (Utf8.encode "HTTP/1.1 200 OK\r\nContent-".toList) none
      let second := first.2.onBytes memory ⟨⟨2, 0⟩, 2⟩ ⟨7, false⟩ .response
        (Utf8.encode "Length: 5\r\n\r\n".toList) none
      whole.1 = first.1.or second.1 ∧ SameBehind whole.2 second.2 := by
  obtain ⟨s, hs⟩ : ∃ s, behind? (Book.empty, Shelf.empty) headRequest = some s := ⟨_, rfl⟩
  have hfacts : (behind? (Book.empty, Shelf.empty) headRequest).all (fun s =>
      decide ((s.buffers.buffer ⟨7, false⟩ .response).recovery ≠ .resync) &&
      decide (s.unframed ⟨7, false⟩ .response (Utf8.encode "HTTP/1.1 200 OK\r\nContent-".toList) ≤
        s.config.maxBufferBytes) &&
      decide (s.unframed ⟨7, false⟩ .response (Utf8.encode "HTTP/1.1 200 OK\r\nContent-".toList ++
        Utf8.encode "Length: 5\r\n\r\n".toList) ≤ s.config.maxBufferBytes)) = true := by
    decide +kernel
  rw [hs] at hfacts
  simp only [Option.all_some, Bool.and_eq_true, decide_eq_true_eq] at hfacts
  obtain ⟨⟨hr, hx⟩, hxy⟩ := hfacts
  have hreach : Reachable memory (fun w => w.1.rules = []) s := reachable_behind? rfl hs
  exact ⟨s, hs, hr, hx, onBytes_append (steady_memory []) hreach hr hx hxy ⟨⟨1, 0⟩, 1⟩
    ⟨⟨1, 0⟩, 1⟩ ⟨⟨2, 0⟩, 2⟩ none⟩

end Engine.State

end TrafficGate
