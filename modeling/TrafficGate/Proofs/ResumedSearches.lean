import TrafficGate.Proofs.Resumption
/-!
  # A search that is resumed misses nothing

  The search for the end of a head goes on where it stopped. The offset at which it starts moves
  with the bytes that leave, is kept while more arrive, and starts afresh behind a message that was
  given up. In no state of a buffer does an empty line start in front of it.

  1. `Visits` -- the accumulators at which carving takes a step;
  2. `MissesNothing` -- a resumed search finds what one from the first byte finds;
  3. `Passes` -- the states of a buffer while bytes come in, and those of a run.

  Main facts: **`carveFrom_headScan`**, **`Passes.searched`** and **`Reached.misses_nothing`**.
-/

namespace TrafficGate.Stream

open Http

/-! ## 1. The steps of the carving -/

namespace Accumulator

/-- The accumulators at which carving takes a step, the rest behind each piece among them, with how
    many responses ended exchanges before. -/
inductive Visits (side : Side) (answersHead : Nat → Bool) (a : Accumulator) :
    Nat → Accumulator → Prop where
  | first : Visits side answersHead a 0 a
  | behind {finals : Nat} {b : Accumulator} {p : Carved} :
      Visits side answersHead a finals b → b.piece? (b.step side answersHead finals) = some p →
      Visits side answersHead a (finals + p.finals)
        (b.skip (b.step side answersHead finals).consumed)

theorem Visits.searched {side : Side} {answersHead : Nat → Bool} {a b : Accumulator} {finals : Nat}
    (h : a.Visits side answersHead finals b) (ha : a.Searched) : b.Searched := by
  induction h with
  | first => exact ha
  | behind _ _ ih => exact ih.skip _

/-! ## 2. Resumed searches -/

/-- A search never starts behind the bytes, so the offset counts up to their end only. -/
theorem carveFrom_headScan (a : Accumulator) (side : Side) (answersHead : Bool) :
    carveFrom a.unparsed side a.headScan answersHead =
      carveFrom a.unparsed side a.scanned answersHead := by
  rw [carveFrom, headScan, findTerminator?_min, carveFrom]

/-- The next search starts where no empty line starts before, and the step that goes on from there
    gives what one that searches from the first byte gives. -/
structure MissesNothing (a : Accumulator) : Prop where
  quiet : ∀ j < a.headScan, ¬ terminator <+: a.unparsed.drop j
  resumed : ∀ (side : Side) (answersHead : Bool),
    carveFrom a.unparsed side a.headScan answersHead = carveFrom a.unparsed side 0 answersHead
  /-- The step that carving takes is the resumed one. -/
  taken : ∀ (side : Side) (answersHead : Nat → Bool) (finals : Nat),
    a.step side answersHead finals =
      carveFrom a.unparsed side a.headScan (decide (side = .response) && answersHead finals)

theorem Searched.missesNothing {a : Accumulator} (h : a.Searched) : a.MissesNothing where
  quiet j hj := h.quiet j (Nat.lt_of_lt_of_le hj (Nat.min_le_left ..))
  resumed side answersHead := by
    rw [carveFrom_headScan]
    exact carveFrom_of_quiet h.quiet side answersHead
  taken side answersHead finals := (carveFrom_headScan a side _).symm

end Accumulator

/-! ## 3. The states of a buffer -/

namespace Buffer

/-- The states of a buffer while bytes come in: before them, when they are appended, at each step of
    the carving when what belongs to a message given up was dropped, when everything complete was
    carved, and behind the look at the limit. -/
inductive Passes (limit : Nat) (side : Side) (answersHead : Nat → Bool) (bs : Bytes) (b : Buffer) :
    Buffer → Prop where
  | before : Passes limit side answersHead bs b b
  | arrived : Passes limit side answersHead bs b { b with acc := b.acc.append bs }
  | carving {finals : Nat} {a : Accumulator} :
      (recover side { b with acc := b.acc.append bs }).acc.Visits side answersHead finals a →
      Passes limit side answersHead bs b
        { recover side { b with acc := b.acc.append bs } with acc := a }
  | carved : Passes limit side answersHead bs b (absorb side answersHead bs b).2
  | after : Passes limit side answersHead bs b (receive limit side answersHead bs b).2

/-- **No state that a buffer passes through has an empty line in front of its search.** -/
theorem Passes.searched {limit : Nat} {side : Side} {answersHead : Nat → Bool} {bs : Bytes}
    {b c : Buffer} (h : b.Passes limit side answersHead bs c) (hb : b.acc.Searched) :
    c.acc.Searched := by
  have happended : (b.acc.append bs).Searched := Accumulator.Searched.append hb bs
  cases h with
  | before => exact hb
  | arrived => exact happended
  | carving hvisits => exact hvisits.searched (searched_recover happended side)
  | carved => exact searched_absorb hb side answersHead bs
  | after => exact searched_receive hb limit side answersHead bs

end Buffer

namespace Buffers

/-- **A resumed search misses nothing**, in every state that a buffer passes through in a run: no
    empty line starts in front of the offset from which it goes on, and so the step from there is
    the one that searches from the first byte, whether or not the message answers a HEAD request. -/
theorem Reached.misses_nothing {limit : Nat} {s : Buffers} (h : Reached limit s) {flow : FlowId}
    {side : Side} {answersHead : Nat → Bool} {bs : Bytes} {b : Buffer}
    (hb : (s.buffer flow side).Passes limit side answersHead bs b) : b.acc.MissesNothing :=
  (hb.searched (h.searched.1 flow side)).missesNothing

/-- Buffers in which a response waits for the last byte of its empty line. -/
def cutInTerminator : Buffers :=
  ((empty 64).receive ⟨7, false⟩ .response (fun _ => false)
    (Utf8.encode "HTTP/1.1 204 X\r\n\r".toList)).2

/-- With the last byte there, the search goes on at the first of the four bytes. -/
theorem misses_nothing_cut_in_terminator :
    let a := (cutInTerminator.buffer ⟨7, false⟩ .response).acc.append [10]
    a.headScan = 14 ∧ findTerminator? a.unparsed 14 = some 14 ∧
      carveFrom a.unparsed .response a.headScan false = carve a.unparsed .response := by
  have hreached : Reached 64 cutInTerminator := .receive _ _ _ _ .empty
  have hstate : (cutInTerminator.buffer ⟨7, false⟩ .response).Passes 64 .response (fun _ => false)
      [10] _ := .arrived
  exact ⟨by decide +kernel, by decide +kernel,
    (Reached.misses_nothing hreached hstate).resumed .response false⟩

end Buffers

end TrafficGate.Stream
