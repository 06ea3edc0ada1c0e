import TrafficGate.Proofs.HeadAlignment
import TrafficGate.Proofs.InputRuns
import TrafficGate.Proofs.ShortBytes
/-!
  # Buffers that search

  Behind a message that was given up and whose end is not known, bytes come in which no start is
  recognised. All but the last eight are dropped, and these complete no message. They are subject to
  the limit as any others are: under a limit of eight bytes or more nothing is reported, however many
  fragments come; under a smaller one what is kept is lost once more, whenever it is over the limit.

  1. `Leaves` -- what is kept of the bytes, and one arrival at a buffer;
  2. the buffers of all flows;
  3. `takeIn` -- fragments of a flow and side that arrive at an engine;
  4. a limit below eight bytes.

  Main facts: **`Buffer.receive_unfound`**, **`State.takeIn_unstarted`** and
  **`State.exists_lost_again`**.
-/

namespace TrafficGate

namespace Stream

open Http

/-! ## 1. One arrival -/

/-- What is `kept` of bytes in which no start is recognised, and what is `gone`. -/
structure Leaves (data gone kept : Bytes) : Prop where
  split : data = gone ++ kept
  short : kept.length ≤ openingLength
  quiet : findTerminator? kept 0 = none
  /-- All is kept, or what is kept starts with a line, or it is as long as a start can be. -/
  enough : gone = [] ∨ gone.getLast? = some 10 ∨ kept.length = openingLength

namespace Buffer

variable {b : Buffer} {side : Side} {bs : Bytes}

/-- **A search that finds nothing keeps the last bytes, reports nothing and goes on.** -/
theorem absorb_unfound (ha : b.acc.Searched) (hr : b.recovery = .resync)
    (hnone : findStart? side (b.acc.unparsed ++ bs) = none) (answersHead : Nat → Bool) :
    (∃ gone, Leaves (b.acc.unparsed ++ bs) gone
      (absorb side answersHead bs b).2.acc.unparsed) ∧
      (absorb side answersHead bs b).2.recovery = .resync ∧
      reported (absorb side answersHead bs b).1 = [] := by
  have hsearched : (b.acc.append bs).Searched := Accumulator.Searched.append ha bs
  obtain ⟨acc, recovery⟩ := b
  obtain rfl : recovery = .resync := hr
  change findStart? side (acc.append bs).unparsed = none at hnone
  change (∃ gone, Leaves (acc.append bs).unparsed gone _) ∧ _
  simp only [absorb, recover]
  generalize acc.append bs = a at *
  simp only [hnone]
  generalize hd : a.unparsed.length - min a.unparsed.length openingLength = d
  have hlength : (a.skip d).unparsed.length = min a.unparsed.length openingLength := by
    rw [Accumulator.unparsed_skip, List.length_drop]
    omega
  obtain ⟨n, -, hkept, hend, hquiet, hnothing⟩ := Accumulator.carveAll_short
    (hsearched.skip d).compact (Nat.le_trans (Nat.le_of_eq hlength) (Nat.min_le_right _ _))
    side answersHead
  rw [Accumulator.unparsed_compact, Accumulator.unparsed_skip] at hkept hend
  refine ⟨⟨a.unparsed.take (d + n), ?_, ?_, hquiet, ?_⟩, trivial, hnothing⟩
  · rw [hkept, List.drop_drop, List.take_append_drop]
  · rw [hkept, List.length_drop, ← Accumulator.unparsed_skip, hlength]
    omega
  · rcases hend with rfl | hend
    · -- no line was passed over
      rw [List.drop_zero] at hkept
      rcases Nat.le_total a.unparsed.length openingLength with hle | hle
      · left
        rw [Nat.min_eq_left hle, Nat.sub_self] at hd
        rw [← hd, Nat.add_zero, List.take_zero]
      · right
        right
        rw [hkept, ← Accumulator.unparsed_skip, hlength, Nat.min_eq_right hle]
    · right
      left
      obtain ⟨front, hfront⟩ := hend
      rw [List.take_add, ← hfront]
      simp [terminator]

/-- Bytes without an empty line are lost. -/
theorem overflow_quiet (hquiet : findTerminator? b.acc.unparsed 0 = none) :
    overflow side b = (some (.lost b.acc.unparsed.length),
      { acc := Accumulator.empty, recovery := .resync }) := by
  have hread : Truncated.read? b.acc.unparsed side = none := by
    rw [Truncated.read?, hquiet, Option.map_none]
  simp only [overflow, hread, Option.bind_none, recoveryFor, Accumulator.reset]

/-- **A search that finds nothing reports nothing**, unless what is kept is over the limit: then it is
    lost, and the search goes on without it. -/
theorem receive_unfound (ha : b.acc.Searched) (hr : b.recovery = .resync)
    (hnone : findStart? side (b.acc.unparsed ++ bs) = none) (limit : Nat)
    (answersHead : Nat → Bool) :
    ∃ gone kept, Leaves (b.acc.unparsed ++ bs) gone kept ∧
      (b.receive limit side answersHead bs).2.recovery = .resync ∧
      if limit < kept.length then
        (b.receive limit side answersHead bs).1 = [.lost kept.length] ∧
          (b.receive limit side answersHead bs).2.acc.unparsed = []
      else
        (b.receive limit side answersHead bs).1 = [] ∧
          (b.receive limit side answersHead bs).2.acc.unparsed = kept := by
  obtain ⟨⟨gone, hleaves⟩, hresync, hnothing⟩ := absorb_unfound ha hr hnone answersHead
  refine ⟨gone, _, hleaves, ?_⟩
  rw [receive_eq]
  generalize absorb side answersHead bs b = r at *
  simp only []
  split
  · rw [overflow_quiet hleaves.quiet, hnothing]
    exact ⟨rfl, rfl, rfl⟩
  · exact ⟨hresync, hnothing, rfl⟩

end Buffer

/-! ## 2. The buffers of all flows -/

/-- **Bytes without a start**: what is reported, if anything, are few bytes over the limit. -/
theorem Buffers.receive_unfound {flow : FlowId} {side : Side} {bs : Bytes} {s : Buffers}
    (ha : s.Searched) (hr : (s.buffer flow side).recovery = .resync)
    (hnone : findStart? side ((s.buffer flow side).acc.unparsed ++ bs) = none)
    (answersHead : Nat → Bool) :
    (∀ f ∈ (s.receive flow side answersHead bs).1,
        ∃ n, f = .lost n ∧ s.limit < n ∧ n ≤ openingLength) ∧
      ((s.receive flow side answersHead bs).2.buffer flow side).recovery = .resync := by
  by_cases hbs : bs = []
  · rw [hbs, receive_nil]
    exact ⟨nofun, hr⟩
  · obtain ⟨gone, kept, hleaves, hresync, hreport⟩ :=
      Buffer.receive_unfound (ha flow side) hr hnone s.limit answersHead
    rw [receive_of_ne_nil hbs]
    refine ⟨fun f hf => ?_, (same_buffer_keep flow side _ s).2.trans hresync⟩
    split at hreport
    · next hover =>
      rw [hreport.1] at hf
      exact ⟨kept.length, List.mem_singleton.mp hf, hover, hleaves.short⟩
    · rw [hreport.1] at hf
      cases hf

end Stream

namespace Engine

open Http TrafficGate.Stream Exchange Rule Verdict

variable {W : Type}

/-! ## 3. Fragments -/

/-- Bytes that arrive, with the time and a note about the caller. -/
structure Fragment where
  now : Time.Moment
  bytes : Bytes
  snapshot : Option Text

namespace State

variable (backend : Backend W) (flow : FlowId) (side : Side)

/-- Takes in fragments of a flow and side, one after the other: what is framed of them, and the state
    behind them. -/
def takeIn (fragments : List Fragment) (s : State W) : List Framed × State W :=
  takeEach (fun f s => ((s.framed flow side f.bytes).1,
    (s.onBytes backend f.now flow side f.bytes f.snapshot).2)) fragments s

/-- In none of the fragments a start is recognised, with what was kept of those before. -/
def Unstarted : List Fragment → State W → Prop
  | [], _ => True
  | f :: rest, s =>
    findStart? side ((s.buffers.buffer flow side).acc.unparsed ++ f.bytes) = none ∧
      Unstarted rest (s.onBytes backend f.now flow side f.bytes f.snapshot).2

instance decidableUnstarted :
    (fragments : List Fragment) → (s : State W) → Decidable (Unstarted backend flow side fragments s)
  | [], _ => isTrue trivial
  | f :: rest, s =>
    have := decidableUnstarted rest (s.onBytes backend f.now flow side f.bytes f.snapshot).2
    inferInstanceAs (Decidable (_ ∧ _))

variable {backend flow side} {fit : W → Prop} {s : State W}

/-- A call that frames nothing changes the buffers only. -/
theorem onBytes_of_framed_nil {f : Fragment} (h : (s.framed flow side f.bytes).1 = []) :
    s.onBytes backend f.now flow side f.bytes f.snapshot =
      (.proceed, { s with buffers := (s.framed flow side f.bytes).2 }) := by
  unfold framed at h
  simp only [onBytes, framed]
  generalize s.buffers.receive flow side (fun n => s.pending.isHeadAt flow n) f.bytes = r at *
  obtain ⟨framed, buffers⟩ := r
  obtain rfl : framed = [] := h
  rfl

theorem config_onBytes (now : Time.Moment) (bytes : Bytes) (snapshot : Option Text) (s : State W) :
    (s.onBytes backend now flow side bytes snapshot).2.config = s.config := by
  unfold onBytes
  simp only [snd_settle]
  exact (handlings_handleAll backend now flow side snapshot _ _ _).frame.1

/-- An engine that searches, with fragments to come in which no start is recognised. -/
structure SearchesOn (backend : Backend W) (fit : W → Prop) (flow : FlowId) (side : Side)
    (config : Config) (fragments : List Fragment) (s : State W) : Prop where
  reachable : Reachable backend fit s
  config_eq : s.config = config
  recovery : (s.buffers.buffer flow side).recovery = .resync
  unstarted : Unstarted backend flow side fragments s

/-- **One fragment**: what is reported, if anything, are few bytes over the limit, and the search goes
    on. -/
theorem SearchesOn.onBytes {config : Config} {f : Fragment} {rest : List Fragment}
    (h : SearchesOn backend fit flow side config (f :: rest) s) :
    (∀ entry ∈ (s.framed flow side f.bytes).1,
        ∃ n, entry = .lost n ∧ config.maxBufferBytes < n ∧ n ≤ openingLength) ∧
      SearchesOn backend fit flow side config rest
        (s.onBytes backend f.now flow side f.bytes f.snapshot).2 := by
  obtain ⟨hs, rfl, hr, hnone, hrest⟩ := h
  obtain ⟨hentries, hresync⟩ := Buffers.receive_unfound hs.searched hr hnone
    fun n => s.pending.isHeadAt flow n
  rw [hs.limit] at hentries
  refine ⟨hentries, hs.ingress f.now (.bytes flow side f.bytes f.snapshot),
    config_onBytes f.now f.bytes f.snapshot s, ?_, hrest⟩
  rw [buffers_onBytes]
  exact hresync

/-- **Any number of fragments.** -/
theorem SearchesOn.takeIn {config : Config} {fragments : List Fragment}
    (h : SearchesOn backend fit flow side config fragments s) :
    (∀ entry ∈ (takeIn backend flow side fragments s).1,
        ∃ n, entry = .lost n ∧ config.maxBufferBytes < n ∧ n ≤ openingLength) ∧
      SearchesOn backend fit flow side config [] (takeIn backend flow side fragments s).2 := by
  unfold State.takeIn
  exact takeEach_keeps (fun hs => hs.onBytes) h

/-- **While no start is recognised, nothing is reported** under a limit of eight bytes or more: the
    requests that wait, the events and the world stay as they are, for any number and size of
    fragments. Under a smaller limit nothing but bytes over it is reported, eight at most at a time.
    The search goes on. -/
theorem takeIn_unstarted {fragments : List Fragment} (h : Reachable backend fit s)
    (hr : (s.buffers.buffer flow side).recovery = .resync)
    (hun : Unstarted backend flow side fragments s) :
    (openingLength ≤ s.config.maxBufferBytes →
      (takeIn backend flow side fragments s).1 = [] ∧
        (takeIn backend flow side fragments s).2 =
          { s with buffers := (takeIn backend flow side fragments s).2.buffers }) ∧
      (∀ entry ∈ (takeIn backend flow side fragments s).1, ∃ n, entry = .lost n ∧
        s.config.maxBufferBytes < n ∧ n ≤ openingLength) ∧
      ((takeIn backend flow side fragments s).2.buffers.buffer flow side).recovery = .resync := by
  have hstart : SearchesOn backend fit flow side s.config fragments s := ⟨h, rfl, hr, hun⟩
  obtain ⟨hentries, hlast⟩ := hstart.takeIn
  refine ⟨fun hlimit => ?_, hentries, hlast.recovery⟩
  have hnothing : (takeIn backend flow side fragments s).1 = [] := by
    refine List.eq_nil_iff_forall_not_mem.mpr fun entry hentry => ?_
    obtain ⟨n, _, hover, hshort⟩ := hentries entry hentry
    omega
  have hkeeps : ∀ {f : Fragment} {t : State W}, (t.framed flow side f.bytes).1 = [] →
      t = { s with buffers := t.buffers } →
      (t.onBytes backend f.now flow side f.bytes f.snapshot).2 =
        { s with buffers := (t.onBytes backend f.now flow side f.bytes f.snapshot).2.buffers } := by
    intro f t hframed ht
    rw [onBytes_of_framed_nil hframed, ht]
  refine ⟨hnothing, ?_⟩
  unfold takeIn at hnothing ⊢
  exact takeEach_silent (I := fun t : State W => t = { s with buffers := t.buffers }) hkeeps
    hnothing rfl

/-- Two requests wait, and a response outgrows the limit before its head is complete. -/
def lostOnce (limit : Nat) : State (Book × Shelf) :=
  let s := (start? { Config.defaults with maxBufferBytes := limit } (Book.empty, Shelf.empty)).get rfl
  let s := (s.ingress memory ⟨⟨0, 0⟩, 0⟩ (.bytes ⟨7, false⟩ .request twoPaths none)).2
  (s.ingress memory ⟨⟨1, 0⟩, 1⟩
    (.bytes ⟨7, false⟩ .response (Utf8.encode "HTTP/1.1 200 OK".toList) none)).2

theorem reachable_lostOnce {limit : Nat} (h : 0 < limit) :
    Reachable memory (fun _ => True) (lostOnce limit) := by
  have hconfig : { Config.defaults with maxBufferBytes := limit }.validate =
      .ok { Config.defaults with maxBufferBytes := limit } :=
    (Config.validate_ok_iff _).mpr ⟨h, Nat.succ_pos _, Nat.succ_pos _, Nat.succ_pos _⟩
  exact ((Reachable.start hconfig trivial (Option.some_get _).symm).ingress _ _).ingress _ _

/-- The rest of the response, in two fragments. -/
def restOfResponse : List Fragment :=
  [⟨⟨⟨2, 0⟩, 2⟩, Utf8.encode " and more".toList, none⟩,
    ⟨⟨⟨3, 0⟩, 3⟩, Utf8.encode " of it\r\n\r\nand".toList, none⟩]

/-- Under a limit of twelve bytes the second request goes on waiting. -/
theorem takeIn_unstarted_twelve :
    (takeIn memory ⟨7, false⟩ .response restOfResponse (lostOnce 12)).1 = [] ∧
      (takeIn memory ⟨7, false⟩ .response restOfResponse (lostOnce 12)).2.pending =
        (lostOnce 12).pending := by
  have hreached : Reachable memory (fun _ => True) (lostOnce 12) := reachable_lostOnce (by decide)
  have hresync : ((lostOnce 12).buffers.buffer ⟨7, false⟩ .response).recovery = .resync := by
    decide +kernel
  have hun : Unstarted memory ⟨7, false⟩ .response restOfResponse (lostOnce 12) := by decide +kernel
  obtain ⟨hsilent, _⟩ := takeIn_unstarted hreached hresync hun
  obtain ⟨hnothing, hstate⟩ := hsilent (by decide +kernel)
  exact ⟨hnothing, by rw [hstate]⟩

/-! ## 4. A limit below eight bytes -/

/-- **Under a limit of four bytes one response ends two exchanges**: the eight bytes that are kept are
    lost once more, and the second request is joined to nothing. -/
theorem exists_lost_again :
    ∃ (s : State (Book × Shelf)) (fragments : List Fragment),
      Reachable memory (fun _ => True) s ∧
      (s.buffers.buffer ⟨7, false⟩ .response).recovery = .resync ∧
      Unstarted memory ⟨7, false⟩ .response fragments s ∧
      (takeIn memory ⟨7, false⟩ .response fragments s).1 = [.lost 8] ∧
      (s.pending.queue ⟨7, false⟩).length = 1 ∧
      ((takeIn memory ⟨7, false⟩ .response fragments s).2.pending.queue ⟨7, false⟩).length = 0 :=
  ⟨lostOnce 4, restOfResponse, reachable_lostOnce (by decide), by decide +kernel, by decide +kernel,
    by decide +kernel, by decide +kernel, by decide +kernel⟩

end State

end Engine

end TrafficGate
