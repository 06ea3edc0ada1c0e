import Mathlib.Data.List.Perm.Basic
import TrafficGate.Proofs.PendingQueues
import TrafficGate.Proofs.SearchingBuffers
/-!
  # Bounded state

  What an engine keeps has bounds that its configuration gives, whatever bytes come and however
  often the source of rules breaks off: the bytes that wait, the buffers, the requests that wait
  and the keys that are remembered.

  1. `Buffer.Live` -- a buffer that is worth its row, and what an arrival of bytes leaves;
  2. `Buffers.Bounded` -- all buffers;
  3. the keys of a dispatcher;
  4. every state of a run.

  Main facts: **`Buffer.length_receive_le`**, **`Buffer.live_receive`**, **`Bounded.receive`**,
  **`Bounded.size_eq`** and **`Reachable.bounded`**.
-/

namespace TrafficGate

namespace Stream

/-! ## 1. A buffer -/

/-- Some bytes are to be dropped: a known number, or all up to the next start of a message. -/
def Recovery.Due : Recovery → Prop
  | none => False
  | discard remaining => 0 < remaining
  | resync => True

namespace Buffer

/-- A byte waits, or some are to be dropped. -/
def Live (b : Buffer) : Prop := b.acc.unparsed ≠ [] ∨ b.recovery.Due

theorem not_live_empty : ¬ empty.Live := by
  rintro (h | h)
  · exact h rfl
  · exact h

theorem due_afterDiscard (remaining present : Nat) :
    afterDiscard remaining present = .none ∨ (afterDiscard remaining present).Due := by
  unfold afterDiscard
  split
  · exact .inl rfl
  · next h => exact .inr (Nat.sub_pos_of_lt (Nat.lt_of_not_le h))

theorem due_recoveryFor (buffered : Nat) (framedLength : Option Nat) :
    recoveryFor buffered framedLength = .none ∨ (recoveryFor buffered framedLength).Due := by
  unfold recoveryFor
  split
  · split
    · next h => exact .inr (Nat.sub_pos_of_lt h)
    · exact .inl rfl
  · exact .inr trivial

theorem due_recover (side : Side) (b : Buffer) :
    (recover side b).recovery = .none ∨ (recover side b).recovery.Due := by
  unfold recover
  cases h : b.recovery with
  | none => exact .inl rfl
  | discard remaining => exact due_afterDiscard _ _
  | resync =>
    simp only []
    split
    · exact .inl rfl
    · exact .inr trivial

/-- **No more bytes than the limit wait behind an arrival.** -/
theorem length_receive_le (limit : Nat) (side : Side) (answersHead : Nat → Bool) (bs : Bytes)
    (b : Buffer) : (b.receive limit side answersHead bs).2.acc.unparsed.length ≤ limit := by
  unfold receive
  simp only []
  split
  · -- what is over the limit is given up with everything that waits
    exact Nat.zero_le limit
  · next h => exact Nat.le_of_not_lt h

theorem due_receive (limit : Nat) (side : Side) (answersHead : Nat → Bool) (bs : Bytes)
    (b : Buffer) :
    (b.receive limit side answersHead bs).2.recovery = .none ∨
      (b.receive limit side answersHead bs).2.recovery.Due := by
  unfold receive
  simp only []
  split
  · exact due_recoveryFor _ _
  · exact due_recover side _

/-- **A buffer that is not idle behind an arrival is live.** -/
theorem live_receive {limit : Nat} {side : Side} {answersHead : Nat → Bool} {bs : Bytes}
    {b : Buffer} (h : (b.receive limit side answersHead bs).2.isIdle = false) :
    (b.receive limit side answersHead bs).2.Live := by
  rcases due_receive limit side answersHead bs b with hnone | hdue
  · refine .inl fun hempty => ?_
    simp [isIdle, Accumulator.isEmpty, hempty, hnone] at h
  · exact .inr hdue

end Buffer

/-! ## 2. All buffers -/

namespace Buffers

/-- One row for each flow and side, every row live and none over the limit. -/
structure Bounded (s : Buffers) : Prop where
  keys : (s.table.map Prod.fst).Nodup
  live : ∀ row ∈ s.table, row.2.Live
  short : ∀ row ∈ s.table, row.2.acc.unparsed.length ≤ s.limit

theorem bounded_empty (limit : Nat) : (empty limit).Bounded where
  keys := List.nodup_nil
  live := List.forall_mem_nil _
  short := List.forall_mem_nil _

/-- Bounds survive erasing. -/
theorem Bounded.erase {s : Buffers} (h : s.Bounded) (k : FlowId × Side) :
    Bounded { s with table := s.table.erase k } where
  keys := Table.nodup_keys_erase h.keys k
  live row hrow := h.live row (Table.mem_of_mem_erase hrow)
  short row hrow := h.short row (Table.mem_of_mem_erase hrow)

theorem Bounded.removeFlow {s : Buffers} (h : s.Bounded) (flow : FlowId) :
    (s.removeFlow flow).Bounded :=
  (h.erase (flow, .request)).erase (flow, .response)

/-- **An arrival of bytes keeps the bounds.** -/
theorem Bounded.receive {s : Buffers} (h : s.Bounded) (flow : FlowId) (side : Side)
    (answersHead : Nat → Bool) (bs : Bytes) : (s.receive flow side answersHead bs).2.Bounded := by
  unfold Buffers.receive
  split
  · exact h
  · simp only [keep]
    split
    · exact h.erase (flow, side)
    · next hidle =>
      refine ⟨Table.nodup_keys_set h.keys _ _, fun row hrow => ?_, fun row hrow => ?_⟩
      · rcases Table.eq_or_mem_of_mem_set hrow with rfl | hrow
        · exact Buffer.live_receive (Bool.not_eq_true _ ▸ hidle)
        · exact h.live row hrow
      · rcases Table.eq_or_mem_of_mem_set hrow with rfl | hrow
        · exact Buffer.length_receive_le _ _ _ _ _
        · exact h.short row hrow

theorem Bounded.buffered_le {s : Buffers} (h : s.Bounded) (flow : FlowId) (side : Side) :
    s.buffered flow side ≤ s.limit := by
  unfold buffered buffer
  cases hfind : s.table.find? (flow, side) with
  | none => exact Nat.zero_le _
  | some b => exact h.short _ (Table.mem_of_find? hfind)

/-- A flow and side has a row just when its buffer is live. -/
theorem Bounded.mem_keys_iff {s : Buffers} (h : s.Bounded) (k : FlowId × Side) :
    k ∈ s.table.map Prod.fst ↔ (s.buffer k.1 k.2).Live := by
  have hbuffer : s.buffer k.1 k.2 = (s.table.find? k).getD Buffer.empty := rfl
  rw [hbuffer]
  constructor
  · intro hk
    obtain ⟨⟨_, b⟩, hrow, rfl⟩ := List.mem_map.mp hk
    rw [Table.find?_of_mem h.keys hrow]
    exact h.live _ hrow
  · intro hlive
    cases hfind : s.table.find? k with
    | none =>
      rw [hfind] at hlive
      exact absurd hlive Buffer.not_live_empty
    | some b => exact List.mem_map.mpr ⟨(k, b), Table.mem_of_find? hfind, rfl⟩

/-- **The buffers that are counted are the live ones**, each once. -/
theorem Bounded.size_eq {s : Buffers} (h : s.Bounded) {keys : List (FlowId × Side)}
    (hkeys : keys.Nodup) (hlive : ∀ k, k ∈ keys ↔ (s.buffer k.1 k.2).Live) :
    s.size = keys.length := by
  have hperm : (s.table.map Prod.fst).Perm keys :=
    (List.perm_ext_iff_of_nodup h.keys hkeys).mpr fun k => (h.mem_keys_iff k).trans (hlive k).symm
  have hlength := hperm.length_eq
  rwa [List.length_map] at hlength

end Buffers

end Stream

/-! ## 3. Keys -/

namespace Verdict.Dispatcher

open Exchange

/-- No more keys than there is room for, and each once. -/
structure Bounded (d : Dispatcher) : Prop where
  room : 0 < d.capacity
  nodup : d.seen.Nodup
  length_le : d.seen.length ≤ d.capacity

theorem bounded_empty (capacity threshold : Nat) : (empty capacity threshold).Bounded where
  room := Nat.le_max_right capacity 1
  nodup := List.nodup_nil
  length_le := Nat.zero_le _

theorem capacity_note (key : Text) (d : Dispatcher) : (d.note key).capacity = d.capacity := by
  unfold note
  split <;> rfl

/-- **A new key keeps the bounds.** -/
theorem Bounded.note {d : Dispatcher} (h : d.Bounded) {key : Text} (hnew : key ∉ d.seen) :
    (d.note key).Bounded where
  room := (capacity_note key d).symm ▸ h.room
  nodup := by
    unfold Dispatcher.note
    split
    · exact List.nodup_singleton key
    · exact List.nodup_cons.mpr ⟨hnew, h.nodup⟩
  length_le := (capacity_note key d).symm ▸ length_note_le h.room

variable {W : Type} {keeper : Keeper W} {now : Time.Timestamp} {request : Request}
  {response : Option Response} {matched : Option Rule} {d : Dispatcher} {w : W}

/-- What dispatching does to a dispatcher: nothing, or it notes a new key. -/
theorem dispatcher_dispatch :
    (dispatch keeper now request response matched d w).2.2.1 = d ∨
      ∃ key, key ∉ d.seen ∧
        (dispatch keeper now request response matched d w).2.2.1 = d.note key := by
  unfold dispatch firstSeen
  cases request.dedupKey? with
  | none => exact .inl rfl
  | some key =>
    by_cases hkey : key ∈ d.seen
    · refine .inl ?_
      simp [hkey]
    · refine .inr ⟨key, hkey, ?_⟩
      simp [hkey]

end Verdict.Dispatcher

/-! ## 4. Runs -/

namespace Engine

open Http TrafficGate.Stream Exchange Rule Verdict

variable {W : Type}

/-- The buffers and the keys within bounds, under a usable configuration. -/
structure State.Bounded (s : State W) : Prop where
  valid : s.config.validate = .ok s.config
  buffers : s.buffers.Bounded
  keys : s.dispatcher.Bounded
  capacity : s.dispatcher.capacity = max s.config.dedupCapacity 1

section Runs

variable {backend : Backend W} {fit : W → Prop} {s t : State W}

theorem State.Bounded.dispatch (h : s.Bounded) (now : Time.Moment) (request : Request)
    (response : Option Response) (matched : Option Rule) :
    (s.dispatch backend now request response matched).2.Bounded := by
  have hdispatcher : (s.dispatch backend now request response matched).2.dispatcher =
      (Dispatcher.dispatch backend.blobs now.wall request response matched s.dispatcher
        s.world).2.2.1 := rfl
  refine ⟨h.valid, h.buffers, ?_, ?_⟩
  · rw [hdispatcher]
    rcases Dispatcher.dispatcher_dispatch with hsame | ⟨key, hnew, hnote⟩
    · rw [hsame]
      exact h.keys
    · rw [hnote]
      exact h.keys.note hnew
  · rw [hdispatcher]
    rcases Dispatcher.dispatcher_dispatch with hsame | ⟨key, _, hnote⟩
    · rw [hsame]
      exact h.capacity
    · rw [hnote, Dispatcher.capacity_note]
      exact h.capacity

/-- **Every change keeps the bounds.** -/
theorem bounded_change (h : State.Change backend s t) (hs : s.Bounded) : t.Bounded := by
  cases h with
  | handling h =>
    cases h with
    | lookUp | push | takeOldest => exact ⟨hs.valid, hs.buffers, hs.keys, hs.capacity⟩
    | dispatch now request response matched => exact hs.dispatch now request response matched
  | receive flow side answersHead bytes =>
    exact ⟨hs.valid, hs.buffers.receive flow side answersHead bytes, hs.keys, hs.capacity⟩
  | close flow => exact ⟨hs.valid, hs.buffers.removeFlow flow, hs.keys, hs.capacity⟩
  | clear => exact ⟨hs.valid, hs.buffers, hs.keys, hs.capacity⟩

theorem Reachable.stateBounded (h : Reachable backend fit s) : s.Bounded := by
  refine h.invariant (fun {config world s} hconfig _ hs => ?_) bounded_change
    (fun _ hs => ⟨hs.valid, hs.buffers, hs.keys, hs.capacity⟩)
  obtain ⟨_, _, rfl⟩ := Option.map_eq_some_iff.mp hs
  exact ⟨hconfig, Buffers.bounded_empty _, Dispatcher.bounded_empty _ _, rfl⟩

/-- **In every state of a run**, with any source of rules and any keeper of bodies, no flow and side
    has more bytes waiting than configured, every row of the buffers is live, and as many are
    counted as are live; no flow has more requests waiting than configured, and no queue is empty;
    and no more keys than configured are remembered. -/
theorem Reachable.bounded (h : Reachable backend fit s) :
    (∀ flow side, s.buffers.buffered flow side ≤ s.config.maxBufferBytes) ∧
      (∀ row ∈ s.buffers.table, row.2.Live) ∧
      (∀ keys : List (FlowId × Side), keys.Nodup →
        (∀ k, k ∈ keys ↔ (s.buffers.buffer k.1 k.2).Live) → s.buffers.size = keys.length) ∧
      (∀ flow, s.pending.count flow ≤ s.config.maxPendingPerFlow) ∧
      (∀ row ∈ s.pending.table, row.2 ≠ []) ∧
      s.dispatcher.seen.Nodup ∧ s.dispatcher.seen.length ≤ s.config.dedupCapacity := by
  have hbounded := h.stateBounded
  have hkept := h.kept
  obtain ⟨_, hpending, _, hdedup⟩ := (Config.validate_ok_iff _).mp hbounded.valid
  refine ⟨fun flow side => ?_, hbounded.buffers.live, fun keys => hbounded.buffers.size_eq,
    fun flow => ?_, hkept.nonempty, hbounded.keys.nodup, ?_⟩
  · rw [← h.limit]
    exact hbounded.buffers.buffered_le flow side
  · have hcount := hkept.count_le flow
    rw [h.pendingLimit] at hcount
    omega
  · have hlength := hbounded.keys.length_le
    rw [hbounded.capacity] at hlength
    omega

end Runs

/-- Behind an overflow under a limit of twelve bytes one buffer is kept without a byte in it, as the
    bytes that follow are to be dropped. -/
theorem bounded_lostOnce :
    (State.lostOnce 12).buffers.size = 1 ∧
      (State.lostOnce 12).buffers.buffered ⟨7, false⟩ .response = 0 ∧
      (∀ flow side, (State.lostOnce 12).buffers.buffered flow side ≤ 12) ∧
      (∀ row ∈ (State.lostOnce 12).buffers.table, row.2.Live) ∧
      ∀ flow, (State.lostOnce 12).pending.count flow ≤ 32 := by
  obtain ⟨hbuffered, hlive, _, hcount, _⟩ :=
    Reachable.bounded (State.reachable_lostOnce (show 0 < 12 by decide))
  have hconfig : (State.lostOnce 12).config.maxBufferBytes = 12 ∧
      (State.lostOnce 12).config.maxPendingPerFlow = 32 := by decide +kernel
  rw [hconfig.1] at hbuffered
  rw [hconfig.2] at hcount
  exact ⟨by decide +kernel, by decide +kernel, hbuffered, hlive, hcount⟩

end Engine

end TrafficGate
