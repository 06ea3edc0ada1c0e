import TrafficGate.Proofs.Fragmentation
import TrafficGate.Stream.Buffers
/-!
  # Taking bytes into a buffer

  A buffer takes in bytes in two parts: first what belongs to a message given up is dropped and
  every complete message carved, then the limit is looked at. The first part, `absorb`, does not
  depend on fragments while the end of a message given up is known.

  1. `absorb`, and `receive` in its terms;
  2. what a buffer is to the next bytes: its unparsed bytes and its recovery (`Same`);
  3. one cut;
  4. the buffers of all flows: each one is searched as far as it says.

  Main facts: **`receive_eq`**, **`absorb_congr`**, **`absorb_append`** and
  **`Buffers.Searched.receive`**.
-/

namespace TrafficGate.Stream

open Http

namespace Buffer

/-! ## 1. Before the limit -/

/-- Takes in bytes whatever the limit: drops what is to be dropped and carves every complete
    message. -/
def absorb (side : Side) (answersHead : Nat → Bool) (bs : Bytes) (b : Buffer) :
    List Carved × Buffer :=
  let b := recover side { b with acc := b.acc.append bs }
  let (carved, acc) := b.acc.carveAll side answersHead
  (carved, { b with acc })

/-- The messages among the pieces, as they are reported. -/
def reported (pieces : List Carved) : List Framed :=
  (pieces.filterMap Carved.message?).map Framed.message

theorem reported_append (a b : List Carved) : reported (a ++ b) = reported a ++ reported b := by
  simp [reported]

/-- **Bytes are taken in, and then the limit is looked at.** -/
theorem receive_eq (limit : Nat) (side : Side) (answersHead : Nat → Bool) (bs : Bytes)
    (b : Buffer) :
    receive limit side answersHead bs b =
      let (pieces, after) := absorb side answersHead bs b
      if limit < after.acc.unparsed.length then
        (reported pieces ++ (overflow side after).1.toList, (overflow side after).2)
      else (reported pieces, after) := rfl

/-! ## 2. What a buffer is to the next bytes -/

/-- Two buffers with the same bytes waiting and the same to be dropped. -/
def Same (b c : Buffer) : Prop := b.acc.unparsed = c.acc.unparsed ∧ b.recovery = c.recovery

theorem Same.append {b c : Buffer} (h : Same b c) (bs : Bytes) :
    Same { b with acc := b.acc.append bs } { c with acc := c.acc.append bs } :=
  ⟨congrArg (· ++ bs) h.1, h.2⟩

theorem Same.recover {b c : Buffer} (h : Same b c) (side : Side) :
    Same (recover side b) (recover side c) := by
  obtain ⟨hu, hr⟩ := h
  simp only [Buffer.recover, hr, hu]
  split
  · exact ⟨hu, rfl⟩
  · refine ⟨?_, rfl⟩
    simp only [Accumulator.unparsed_compact, Accumulator.unparsed_skip, hu]
  · split
    · refine ⟨?_, rfl⟩
      simp only [Accumulator.unparsed_compact, Accumulator.unparsed_skip, hu]
    · refine ⟨?_, rfl⟩
      simp only [Accumulator.unparsed_compact, Accumulator.unparsed_skip, hu]

theorem searched_recover {b : Buffer} (h : b.acc.Searched) (side : Side) :
    (recover side b).acc.Searched := by
  unfold recover
  split
  · exact h.compact
  · exact (h.skip _).compact
  · split
    · exact (h.skip _).compact
    · exact (h.skip _).compact

theorem searched_absorb {b : Buffer} (h : b.acc.Searched) (side : Side)
    (answersHead : Nat → Bool) (bs : Bytes) : (absorb side answersHead bs b).2.acc.Searched :=
  (searched_recover (h.append bs) side).carveAll side answersHead

theorem searched_receive {b : Buffer} (h : b.acc.Searched) (limit : Nat) (side : Side)
    (answersHead : Nat → Bool) (bs : Bytes) :
    (receive limit side answersHead bs b).2.acc.Searched := by
  rw [receive_eq]
  simp only []
  split
  · exact Accumulator.searched_empty
  · exact searched_absorb h side answersHead bs

/-- What is carved depends on what is left when bytes were dropped. -/
theorem absorb_of_same_recover {b c : Buffer} (hb : b.acc.Searched) (hc : c.acc.Searched)
    {side : Side} {x y : Bytes} (h : Same (recover side { b with acc := b.acc.append x })
      (recover side { c with acc := c.acc.append y })) (answersHead : Nat → Bool) :
    absorb side answersHead x b = absorb side answersHead y c := by
  have hcarve := Accumulator.carveAll_congr (searched_recover (hb.append x) side)
    (searched_recover (hc.append y) side) h.1 side answersHead
  simp only [absorb, hcarve, h.2]

/-- **What bytes do to a buffer depends on what it is to them.** -/
theorem absorb_congr {b c : Buffer} (hb : b.acc.Searched) (hc : c.acc.Searched) (h : Same b c)
    (side : Side) (answersHead : Nat → Bool) (bs : Bytes) :
    absorb side answersHead bs b = absorb side answersHead bs c :=
  absorb_of_same_recover hb hc ((h.append bs).recover side) answersHead

/-! ## 3. One cut -/

section Cut

variable {side : Side} {answersHead : Nat → Bool} {bs : Bytes} {a : Accumulator} {n : Nat}

/-- Taking in bytes when nothing is to be dropped. -/
theorem absorb_none (ha : a.Searched) :
    absorb side answersHead bs { acc := a, recovery := .none } =
      (((a.append bs).carveAll side answersHead).1,
        { acc := ((a.append bs).carveAll side answersHead).2, recovery := .none }) := by
  have hcarve := Accumulator.carveAll_congr (ha.append bs).compact (ha.append bs) rfl side
    answersHead
  simp only [absorb, recover, hcarve]

/-- Taking in bytes with which the message given up ends. -/
theorem absorb_discard (ha : a.Searched) (hn : n ≤ (a.append bs).unparsed.length) :
    absorb side answersHead bs { acc := a, recovery := .discard n } =
      ((((a.append bs).skip n).carveAll side answersHead).1,
        { acc := (((a.append bs).skip n).carveAll side answersHead).2, recovery := .none }) := by
  have hcarve := Accumulator.carveAll_congr ((ha.append bs).skip n).compact
    ((ha.append bs).skip n) rfl side answersHead
  simp only [absorb, recover, hcarve, afterDiscard, if_pos hn]

/-- Taking in bytes that all belong to the message given up. -/
theorem absorb_discard_all (ha : a.Searched) (hn : (a.append bs).unparsed.length < n) :
    absorb side answersHead bs { acc := a, recovery := .discard n } =
      ([], { acc := Accumulator.empty,
             recovery := .discard (n - (a.append bs).unparsed.length) }) := by
  have hnil : ((a.append bs).skip n).unparsed = [] :=
    List.drop_eq_nil_of_le (Nat.le_of_lt hn)
  have hcarve := Accumulator.carveAll_congr ((ha.append bs).skip n).compact
    Accumulator.searched_empty hnil side answersHead
  have hempty : Accumulator.empty.carveAll side answersHead = ([], Accumulator.empty) :=
    Accumulator.carveAll_of_none (k := 0) rfl
  simp only [absorb, recover, hcarve, hempty, afterDiscard, if_neg (Nat.not_le_of_lt hn)]

end Cut

/-- **A cut anywhere in the bytes**, while the end of a message given up is known. -/
theorem absorb_append {b : Buffer} (hb : b.acc.Searched) (hr : b.recovery ≠ .resync) (side : Side)
    (answersHead : Nat → Bool) (x y : Bytes) :
    absorb side answersHead (x ++ y) b =
      let (pieces, c) := absorb side answersHead x b
      let (later, d) := absorb side (fun n => answersHead (finalsIn pieces + n)) y c
      (pieces ++ later, d) := by
  obtain ⟨a, recovery⟩ := b
  have hx : (a.append x).Searched := Accumulator.Searched.append hb x
  cases recovery with
  | resync => exact absurd rfl hr
  | none =>
    rw [absorb_none hb, absorb_none hb, Accumulator.append_append, Accumulator.carveAll_append hx]
    simp only []
    rw [absorb_none (hx.carveAll side answersHead)]
  | discard n =>
    by_cases hn : n ≤ (a.append x).unparsed.length
    · -- the message given up ends before the cut
      have hxy : n ≤ (a.append (x ++ y)).unparsed.length := by
        simp only [Accumulator.unparsed_append, List.length_append] at hn ⊢
        omega
      rw [absorb_discard hb hn, absorb_discard hb hxy, Accumulator.append_append,
        Accumulator.skip_append hn, Accumulator.carveAll_append (hx.skip n)]
      simp only []
      rw [absorb_none ((hx.skip n).carveAll side answersHead)]
    · -- it goes on behind the cut, where nothing else is waiting
      have hlt := Nat.lt_of_not_le hn
      rw [absorb_discard_all hb hlt]
      simp only [List.nil_append, finalsIn, List.map_nil, Seq.total_nil, Nat.zero_add]
      refine absorb_of_same_recover hb Accumulator.searched_empty ?_ answersHead
      simp only [Accumulator.append_append]
      generalize a.append x = t at *
      constructor
      · simp only [recover, Accumulator.unparsed_compact, Accumulator.unparsed_skip,
          Accumulator.unparsed_append, List.drop_append, List.drop_eq_nil_of_le (Nat.le_of_lt hlt),
          Accumulator.empty, List.drop_nil, List.length_nil, Nat.sub_zero]
      · simp only [recover, afterDiscard, Accumulator.unparsed_append, List.length_append,
          Accumulator.empty, List.length_nil, Nat.zero_add, Nat.sub_sub]
        by_cases hy : n ≤ t.unparsed.length + y.length
        · rw [if_pos hy, if_pos (by omega)]
        · rw [if_neg hy, if_neg (by omega)]

end Buffer

/-! ## 4. The buffers of all flows -/

namespace Buffers

/-- **No empty line starts in a buffer before its next search does.** -/
def Searched (s : Buffers) : Prop := ∀ flow side, (s.buffer flow side).acc.Searched

theorem searched_empty (limit : Nat) : (empty limit).Searched :=
  fun _ _ => Accumulator.searched_empty

/-- A buffer that was kept is the same to the next bytes, also when it was idle and is gone. -/
theorem same_buffer_keep (flow : FlowId) (side : Side) (b : Buffer) (s : Buffers) :
    Buffer.Same ((s.keep flow side b).buffer flow side) b := by
  unfold keep buffer
  by_cases hidle : b.isIdle
  · rw [if_pos hidle, Table.find?_erase_self]
    simp only [Buffer.isIdle, Accumulator.isEmpty, Bool.and_eq_true, List.isEmpty_iff,
      decide_eq_true_eq] at hidle
    exact ⟨hidle.1.symm, hidle.2.symm⟩
  · rw [if_neg hidle, Table.find?_set_self]
    exact ⟨rfl, rfl⟩

theorem searched_buffer_keep {flow : FlowId} {side : Side} {b : Buffer} {s : Buffers}
    (h : b.acc.Searched) : ((s.keep flow side b).buffer flow side).acc.Searched := by
  unfold keep buffer
  by_cases hidle : b.isIdle
  · rw [if_pos hidle, Table.find?_erase_self]
    exact Accumulator.searched_empty
  · rw [if_neg hidle, Table.find?_set_self]
    exact h

theorem buffer_keep_other {flow other : FlowId} {side side' : Side}
    (h : (other, side') ≠ (flow, side)) (b : Buffer) (s : Buffers) :
    (s.keep flow side b).buffer other side' = s.buffer other side' := by
  rw [buffer, find?_keep_other h]
  rfl

theorem receive_of_ne_nil {flow : FlowId} {side : Side} {answersHead : Nat → Bool} {bs : Bytes}
    {s : Buffers} (h : bs ≠ []) :
    s.receive flow side answersHead bs =
      let (framed, b) := (s.buffer flow side).receive s.limit side answersHead bs
      (framed, s.keep flow side b) := by
  rw [receive, if_neg (by rwa [List.isEmpty_iff])]

theorem limit_keep (flow : FlowId) (side : Side) (b : Buffer) (s : Buffers) :
    (s.keep flow side b).limit = s.limit := by
  unfold keep
  split <;> rfl

theorem limit_receive (flow : FlowId) (side : Side) (answersHead : Nat → Bool) (bs : Bytes)
    (s : Buffers) : (s.receive flow side answersHead bs).2.limit = s.limit := by
  by_cases h : bs = []
  · rw [h, receive_nil]
  · rw [receive_of_ne_nil h]
    exact limit_keep flow side _ s

/-- **Taking in bytes keeps the invariant of the searches.** -/
theorem Searched.receive {s : Buffers} (h : s.Searched) (flow : FlowId) (side : Side)
    (answersHead : Nat → Bool) (bs : Bytes) :
    (s.receive flow side answersHead bs).2.Searched := by
  by_cases hbs : bs = []
  · rw [hbs, receive_nil]
    exact h
  · rw [receive_of_ne_nil hbs]
    intro other side'
    by_cases hkey : (other, side') = (flow, side)
    · obtain ⟨rfl, rfl⟩ := Prod.mk.inj hkey
      exact searched_buffer_keep (Buffer.searched_receive (h other side') _ _ _ _)
    · simp only []
      rw [buffer_keep_other hkey]
      exact h other side'

theorem buffer_removeFlow_self (flow : FlowId) (side : Side) (s : Buffers) :
    (s.removeFlow flow).buffer flow side = Buffer.empty := by
  simp only [buffer, removeFlow]
  cases side with
  | request =>
    rw [Table.find?_erase_other (by simp), Table.find?_erase_self]
    rfl
  | response =>
    rw [Table.find?_erase_self]
    rfl

theorem buffer_removeFlow_other {flow other : FlowId} (h : other ≠ flow) (side : Side)
    (s : Buffers) : (s.removeFlow flow).buffer other side = s.buffer other side := by
  have hkey : ∀ side', (other, side) ≠ (flow, side') := fun side' he => h (Prod.mk.inj he).1
  simp only [buffer, removeFlow]
  rw [Table.find?_erase_other (hkey .response), Table.find?_erase_other (hkey .request)]

/-- **Dropping a flow keeps the invariant of the searches.** -/
theorem Searched.removeFlow {s : Buffers} (h : s.Searched) (flow : FlowId) :
    (s.removeFlow flow).Searched := by
  intro other side
  by_cases hflow : other = flow
  · rw [hflow, buffer_removeFlow_self]
    exact Accumulator.searched_empty
  · rw [buffer_removeFlow_other hflow]
    exact h other side

end Buffers

end TrafficGate.Stream
