import Mathlib.Data.List.Nodup
import TrafficGate.Proofs.Acts
import TrafficGate.Proofs.SteadyRules
/-!
  # The queues of a run

  Each act changes the queue of its flow in one way, and no other queue. In every state of a run no
  queue is longer than the limit, none is kept without a request, and each flow has one at most, so
  that the requests that wait in all are those of the flows together.

  1. rows of a table;
  2. the queue of a flow when one is pushed, taken or dropped;
  3. what an act does to the queues;
  4. `Kept` -- the queues in every state of a run.

  Main facts: **`Handles.queue`**, **`Handles.queue_other`**, **`Reachable.kept`** and
  **`total_eq`**.
-/

namespace TrafficGate

/-! ## 1. Rows -/

namespace Table

variable {κ α : Type} [DecidableEq κ] {k : κ} {a : α} {t : Table κ α}

theorem eq_or_mem_of_mem_set {row : κ × α} (h : row ∈ set k a t) : row = (k, a) ∨ row ∈ t := by
  induction t with
  | nil => exact .inl (List.mem_singleton.mp h)
  | cons first rows ih =>
    obtain ⟨k', a'⟩ := first
    unfold set at h
    split at h
    · rcases List.mem_cons.mp h with h | h
      · exact .inl h
      · exact .inr (List.mem_cons_of_mem _ h)
    · rcases List.mem_cons.mp h with h | h
      · exact .inr (h ▸ List.mem_cons_self)
      · exact (ih h).imp_right (List.mem_cons_of_mem _)

/-- **Setting a key keeps one row for each key.** -/
theorem nodup_keys_set (h : (t.map Prod.fst).Nodup) (k : κ) (a : α) :
    ((set k a t).map Prod.fst).Nodup := by
  induction t with
  | nil => exact List.nodup_singleton k
  | cons first rows ih =>
    obtain ⟨k', a'⟩ := first
    obtain ⟨hnot, hrest⟩ := List.nodup_cons.mp h
    unfold set
    split
    · next hk => exact List.nodup_cons.mpr ⟨hk ▸ hnot, hrest⟩
    · next hk =>
      refine List.nodup_cons.mpr ⟨fun hmem => ?_, ih hrest⟩
      obtain ⟨row, hrow, hkey⟩ := List.mem_map.mp hmem
      rcases eq_or_mem_of_mem_set hrow with rfl | hrow
      · exact hk hkey.symm
      · exact hnot (List.mem_map.mpr ⟨row, hrow, hkey⟩)

/-- **Erasing a key keeps one row for each key.** -/
theorem nodup_keys_erase (h : (t.map Prod.fst).Nodup) (k : κ) :
    ((erase k t).map Prod.fst).Nodup :=
  h.sublist (List.filter_sublist.map Prod.fst)

/-- With one row for each key every row is found. -/
theorem find?_of_mem (hkeys : (t.map Prod.fst).Nodup) (h : (k, a) ∈ t) : find? k t = some a := by
  induction t with
  | nil => cases h
  | cons first rows ih =>
    obtain ⟨k', a'⟩ := first
    obtain ⟨hnot, hrest⟩ := List.nodup_cons.mp hkeys
    unfold find?
    rcases List.mem_cons.mp h with heq | h
    · cases heq
      exact if_pos rfl
    · have hne : k' ≠ k := fun he => hnot (he ▸ List.mem_map.mpr ⟨(k, a), h, rfl⟩)
      rw [if_neg hne]
      exact ih hrest h

theorem mem_of_mem_erase {row : κ × α} (h : row ∈ erase k t) : row ∈ t :=
  (List.mem_filter.mp h).1

end Table

namespace Seq

/-- **A total does not depend on the order.** -/
theorem total_perm {a b : List Nat} (h : a.Perm b) : total a = total b := by
  induction h with
  | nil => rfl
  | cons x _ ih => rw [total_cons, total_cons, ih]
  | swap x y l =>
    simp only [total_cons]
    omega
  | trans _ _ ih₁ ih₂ => exact ih₁.trans ih₂

theorem total_map_zero {α : Type} (l : List α) : total (l.map fun _ => 0) = 0 := by
  induction l with
  | nil => rfl
  | cons x l ih => rw [List.map_cons, total_cons, ih]

end Seq

/-! ## 2. Queues -/

namespace Exchange.Pending

variable {flow other : FlowId} {p : Pending}

theorem queue_takeOldest_other (h : other ≠ flow) (p : Pending) :
    (p.takeOldest flow).2.queue other = p.queue other := by
  unfold takeOldest
  split
  · simp only [queue, Table.find?_erase_other h]
  · simp only [queue, Table.find?_erase_other h]
  · simp only [queue, Table.find?_set_other h]

theorem queue_removeFlow_self (flow : FlowId) (p : Pending) :
    (p.removeFlow flow).queue flow = [] := by
  simp only [queue, removeFlow, Table.find?_erase_self, Option.getD_none]

theorem queue_removeFlow_other (h : other ≠ flow) (p : Pending) :
    (p.removeFlow flow).queue other = p.queue other := by
  simp only [queue, removeFlow, Table.find?_erase_other h]

theorem limit_takeOldest (flow : FlowId) (p : Pending) : (p.takeOldest flow).2.limit = p.limit := by
  unfold takeOldest
  split <;> rfl

/-- The queues as a run keeps them: one for each flow at most, none empty, none beyond the limit. -/
structure Kept (p : Pending) : Prop where
  limit_pos : 0 < p.limit
  keys : (p.table.map Prod.fst).Nodup
  nonempty : ∀ row ∈ p.table, row.2 ≠ []
  count_le : ∀ flow, p.count flow ≤ p.limit

theorem kept_empty (limit : Nat) : (empty limit).Kept where
  limit_pos := Nat.le_max_right limit 1
  keys := List.nodup_nil
  nonempty := List.forall_mem_nil _
  count_le _ := Nat.zero_le _

theorem Kept.push (h : p.Kept) (flow : FlowId) (r : Request) : (p.push flow r).Kept where
  limit_pos := h.limit_pos
  keys := Table.nodup_keys_set h.keys flow _
  nonempty row hrow := by
    rcases Table.eq_or_mem_of_mem_set hrow with rfl | hrow
    · exact List.append_ne_nil_of_right_ne_nil _ (List.cons_ne_nil r [])
    · exact h.nonempty row hrow
  count_le other := by
    by_cases ho : other = flow
    · subst ho
      exact length_push_le h.limit_pos (h.count_le other)
    · rw [count, queue_push_other ho]
      exact h.count_le other

theorem Kept.takeOldest (h : p.Kept) (flow : FlowId) : (p.takeOldest flow).2.Kept where
  limit_pos := (limit_takeOldest flow p).symm ▸ h.limit_pos
  keys := by
    unfold Pending.takeOldest
    split
    · exact Table.nodup_keys_erase h.keys flow
    · exact Table.nodup_keys_erase h.keys flow
    · exact Table.nodup_keys_set h.keys flow _
  nonempty row hrow := by
    unfold Pending.takeOldest at hrow
    split at hrow
    · exact h.nonempty row (Table.mem_of_mem_erase hrow)
    · exact h.nonempty row (Table.mem_of_mem_erase hrow)
    · next hrest _ =>
      rcases Table.eq_or_mem_of_mem_set hrow with rfl | hrow
      · exact fun he => hrest he
      · exact h.nonempty row hrow
  count_le other := by
    rw [limit_takeOldest]
    by_cases ho : other = flow
    · subst ho
      rw [count, queue_takeOldest, List.length_tail]
      exact Nat.le_trans (Nat.sub_le _ _) (h.count_le other)
    · rw [count, queue_takeOldest_other ho]
      exact h.count_le other

theorem Kept.removeFlow (h : p.Kept) (flow : FlowId) : (p.removeFlow flow).Kept where
  limit_pos := h.limit_pos
  keys := Table.nodup_keys_erase h.keys flow
  nonempty row hrow := h.nonempty row (Table.mem_of_mem_erase hrow)
  count_le other := by
    by_cases ho : other = flow
    · subst ho
      rw [count, queue_removeFlow_self]
      exact Nat.zero_le _
    · rw [count, queue_removeFlow_other ho]
      exact h.count_le other

/-- The requests of a table are those of its keys, whatever other keys are counted too. -/
theorem total_table {t : Table FlowId (List Request)} (hkeys : (t.map Prod.fst).Nodup)
    {flows : List FlowId} (hflows : flows.Nodup) (hmem : ∀ row ∈ t, row.1 ∈ flows) :
    Seq.total (t.map fun row => row.2.length) =
      Seq.total (flows.map fun flow => ((t.find? flow).getD []).length) := by
  induction t generalizing flows with
  | nil => exact (Seq.total_map_zero flows).symm
  | cons row rows ih =>
    obtain ⟨k, q⟩ := row
    obtain ⟨hnot, hrest⟩ := List.nodup_cons.mp hkeys
    have hk : k ∈ flows := hmem (k, q) List.mem_cons_self
    have hrows : ∀ row ∈ rows, row.1 ∈ flows.erase k := by
      intro row hrow
      refine (List.mem_erase_of_ne fun he => hnot ?_).mpr
        (hmem row (List.mem_cons_of_mem _ hrow))
      exact List.mem_map.mpr ⟨row, hrow, he⟩
    -- without the first key the others are looked up in the other rows
    have hothers : (flows.erase k).map (fun flow =>
          ((Table.find? flow ((k, q) :: rows)).getD []).length) =
        (flows.erase k).map fun flow => ((Table.find? flow rows).getD []).length := by
      refine List.map_congr_left fun flow hflow => ?_
      have hne : k ≠ flow := fun he => hflows.not_mem_erase (he ▸ hflow)
      rw [Table.find?, if_neg hne]
    rw [Seq.total_perm ((List.perm_cons_erase hk).map _), List.map_cons, List.map_cons,
      Seq.total_cons, Seq.total_cons, hothers, ih hrest (hflows.erase k) hrows, Table.find?,
      if_pos rfl, Option.getD_some]

/-- **The requests that wait in all are those of the flows together.** -/
theorem Kept.total_eq (h : p.Kept) {flows : List FlowId} (hflows : flows.Nodup)
    (hmem : ∀ flow, p.count flow ≠ 0 → flow ∈ flows) :
    p.total = Seq.total (flows.map fun flow => p.count flow) := by
  refine total_table h.keys hflows fun row hrow => hmem row.1 ?_
  have hfind : p.table.find? row.1 = some row.2 := Table.find?_of_mem h.keys hrow
  rw [count, queue, hfind, Option.getD_some]
  exact fun hlen => h.nonempty row hrow (List.length_eq_zero_iff.mp hlen)

end Exchange.Pending

namespace Engine

open Http TrafficGate.Stream Exchange Rule Verdict

variable {W : Type}

/-! ## 3. What acts do -/

namespace State

/-- The queue of the flow behind an act. -/
def Act.queueAfter (limit : Nat) (q : List Request) : Act → List Request
  | wait r => Pending.makeRoom limit q ++ [r]
  | unasked | conclude _ _ _ | breakOff (some _) => q.tail
  | pass | block _ _ | breakOff none => q

section Handling

variable {backend : Backend W} {now : Time.Moment} {flow other : FlowId} {side : Side}
  {snapshot : Option Text} {s t : State W} {f : Framed} {fs : List Framed} {a : Act}
  {as : List Act}

theorem pending_of_lookUp {value : Text} {found : Outcome (Option Rule)}
    (h : s.lookUp backend now value = (found, t)) : t.pending = s.pending := by
  obtain rfl : t = (s.lookUp backend now value).2 := by rw [h]
  rfl

theorem config_of_lookUp {value : Text} {found : Outcome (Option Rule)}
    (h : s.lookUp backend now value = (found, t)) : t.config = s.config := by
  obtain rfl : t = (s.lookUp backend now value).2 := by rw [h]
  rfl

theorem pending_of_takeOldest {flow : FlowId} {p q : Pending} {oldest : Option Request}
    (h : p.takeOldest flow = (oldest, q)) : q = (p.takeOldest flow).2 := by rw [h]

/-- **An act changes the queue of its flow in its own way.** -/
theorem Handles.queue (h : Handles backend now flow snapshot s f side a t) :
    t.pending.queue flow = a.queueAfter s.pending.limit (s.pending.queue flow) := by
  cases h with
  | unusable | announce => rfl
  | wait _ hl =>
    simp only [Pending.queue_push_self, pending_of_lookUp hl]
    rfl
  | breakOff _ hl => exact congrArg (Pending.queue flow) (pending_of_lookUp hl)
  | block _ hl =>
    have hqueue := congrArg (Pending.queue flow) (pending_of_lookUp hl)
    exact hqueue
  | unasked _ hq =>
    simp only [pending_of_takeOldest hq, Pending.queue_takeOldest]
    rfl
  | conclude _ hq hl | breakOffOldest _ hq hl =>
    have hqueue := congrArg (Pending.queue flow) (pending_of_lookUp hl)
    simp only [pending_of_takeOldest hq, Pending.queue_takeOldest] at hqueue
    exact hqueue

/-- **An act leaves the queues of the other flows.** -/
theorem Handles.queue_other (h : Handles backend now flow snapshot s f side a t)
    (ho : other ≠ flow) : t.pending.queue other = s.pending.queue other := by
  cases h with
  | unusable | announce => rfl
  | wait _ hl => simp only [Pending.queue_push_other ho, pending_of_lookUp hl]
  | breakOff _ hl => exact congrArg (Pending.queue other) (pending_of_lookUp hl)
  | block _ hl =>
    have hqueue := congrArg (Pending.queue other) (pending_of_lookUp hl)
    exact hqueue
  | unasked _ hq => simp only [pending_of_takeOldest hq, Pending.queue_takeOldest_other ho]
  | conclude _ hq hl | breakOffOldest _ hq hl =>
    have hqueue := congrArg (Pending.queue other) (pending_of_lookUp hl)
    simp only [pending_of_takeOldest hq, Pending.queue_takeOldest_other ho] at hqueue
    exact hqueue

/-- The limits of an engine stay as they are. -/
theorem Handles.limits (h : Handles backend now flow snapshot s f side a t) :
    t.config = s.config ∧ t.pending.limit = s.pending.limit := by
  cases h with
  | unusable | announce => exact ⟨rfl, rfl⟩
  | wait _ hl | block _ hl | breakOff _ hl =>
    have hlimit := congrArg Pending.limit (pending_of_lookUp hl)
    have hconfig := config_of_lookUp hl
    exact ⟨hconfig, hlimit⟩
  | unasked _ hq =>
    rw [pending_of_takeOldest hq]
    exact ⟨rfl, Pending.limit_takeOldest flow s.pending⟩
  | conclude _ hq hl | breakOffOldest _ hq hl =>
    have hlimit := congrArg Pending.limit (pending_of_lookUp hl)
    simp only [pending_of_takeOldest hq, Pending.limit_takeOldest] at hlimit
    have hconfig := config_of_lookUp hl
    exact ⟨hconfig, hlimit⟩

end Handling

end State

/-! ## 4. The queues of a run -/

section QueuesOfRuns

variable {backend : Backend W} {fit : W → Prop} {s : State W}

theorem kept_change {s t : State W} (h : State.Change backend s t) (hs : s.pending.Kept) :
    t.pending.Kept := by
  cases h with
  | handling h =>
    cases h with
    | lookUp | dispatch => exact hs
    | push flow r => exact hs.push flow r
    | takeOldest flow => exact hs.takeOldest flow
  | receive | clear => exact hs
  | close flow => exact hs.removeFlow flow

/-- **In every run the queues are kept so.** -/
theorem Reachable.kept (h : Reachable backend fit s) : s.pending.Kept := by
  refine h.invariant (fun {config world s} _ _ hs => ?_) kept_change (fun _ hs => hs)
  obtain ⟨_, _, rfl⟩ := Option.map_eq_some_iff.mp hs
  exact Pending.kept_empty _

theorem pendingLimit_change {s t : State W} (h : State.Change backend s t)
    (hs : s.pending.limit = max s.config.maxPendingPerFlow 1) :
    t.pending.limit = max t.config.maxPendingPerFlow 1 := by
  cases h with
  | handling h =>
    cases h with
    | lookUp | dispatch | push => exact hs
    | takeOldest flow => exact (Pending.limit_takeOldest flow s.pending).trans hs
  | receive | clear | close => exact hs

/-- **In every run the limit of the queues is the configured one**, or one when that is zero. -/
theorem Reachable.pendingLimit (h : Reachable backend fit s) :
    s.pending.limit = max s.config.maxPendingPerFlow 1 := by
  refine h.invariant (fun {config world s} _ _ hs => ?_) pendingLimit_change (fun _ hs => hs)
  obtain ⟨_, _, rfl⟩ := Option.map_eq_some_iff.mp hs
  rfl

end QueuesOfRuns

end Engine

end TrafficGate
