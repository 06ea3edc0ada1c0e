import TrafficGate.Proofs.LineStarts
import TrafficGate.Proofs.SearchingBuffers
/-!
  # Where a search ends

  A buffer that searches keeps eight bytes at most from one fragment to the next. As long as no cut
  misleads it, the search ends at the first line of the whole stream that starts like a message, with
  the fragment that completes this start, and what is framed from there on depends on the stream and
  not on its fragments. A cut misleads when the last eight bytes look like a start within a line: they
  are kept, and stand at the start of what is searched next.

  1. `Misleads` -- cuts of that kind;
  2. `SearchesIn` -- a buffer that searches a stream, and one fragment more;
  3. `takeIn` -- fragments at a buffer, the responses counted through;
  4. behind the end of the search;
  5. the search and what comes behind it;
  6. what a cut that misleads does;
  7. the buffers of all flows.

  Main facts: **`SearchesIn.absorb_found`**, **`SearchesIn.absorb_unfound`**, **`takeIn_carved`**,
  **`takeIn_misled`**, **`Buffers.takeIn_resumes`** and **`Buffers.exists_misled`**.
-/

namespace TrafficGate

namespace Http

/-! ## 1. Cuts that mislead -/

/-- A cut behind these bytes misleads a search: no line of them starts like a message, but their last
    eight bytes, none of which is passed over, look like a start. -/
def Misleads (side : Side) (data : Bytes) : Prop :=
  findStart? side data = none ∧
    looksLikeStart side (data.drop (data.length - openingLength)) = true ∧
    findTerminator? (data.drop (data.length - openingLength)) 0 = none

instance (side : Side) : DecidablePred (Misleads side) := fun _ =>
  inferInstanceAs (Decidable (_ ∧ _))

end Http

namespace Stream

open Http

namespace Buffer

variable {side : Side} {limit : Nat} {answersHead : Nat → Bool} {b : Buffer} {arrived bs : Bytes}
  {p : Nat}

/-! ## 2. A buffer and a stream -/

/-- The buffer searches a stream of which these bytes arrived. There was no start in them, and the
    search may go on with what is kept. -/
structure SearchesIn (side : Side) (arrived : Bytes) (b : Buffer) : Prop where
  searched : b.acc.Searched
  recovery : b.recovery = .resync
  unfound : findStart? side arrived = none
  resumable : ∃ front, arrived = front ++ b.acc.unparsed ∧ Resumable side front b.acc.unparsed

theorem searchesIn_nil (ha : b.acc.Searched) (hr : b.recovery = .resync)
    (hempty : b.acc.unparsed = []) : b.SearchesIn side [] where
  searched := ha
  recovery := hr
  unfound := by cases side <;> decide
  resumable := ⟨[], hempty.symm, .inl rfl⟩

namespace SearchesIn

/-- **A start that is complete ends the search there**: the buffer does with the fragment what a new
    one does with the bytes from the start on. -/
theorem absorb_found (h : b.SearchesIn side arrived)
    (hfound : findStart? side (arrived ++ bs) = some p) (answersHead : Nat → Bool) :
    absorb side answersHead bs b =
      absorb side answersHead ((arrived ++ bs).drop p) Buffer.empty := by
  obtain ⟨front, harrived, hresumable⟩ := h.resumable
  have hbehind := findStart?_behind hresumable (harrived ▸ h.unfound) bs
  rw [← List.append_assoc, ← harrived, hfound] at hbehind
  obtain ⟨k, hk, rfl⟩ := Option.map_eq_some_iff.mp hbehind.symm
  have hdrop : (arrived ++ bs).drop (front.length + k) = (b.acc.unparsed ++ bs).drop k := by
    rw [← List.drop_drop, harrived, List.append_assoc, List.drop_left]
  refine absorb_of_same_recover h.searched Accumulator.searched_empty ?_ answersHead
  simp only [recover, h.recovery, Accumulator.unparsed_append, hk, Buffer.empty]
  exact ⟨hdrop.symm, rfl⟩

/-- **Without a start the search goes on**, with nothing reported, and rightly if the cut does not
    mislead. -/
theorem absorb_unfound (h : b.SearchesIn side arrived) (hbs : bs ≠ [])
    (hnone : findStart? side (arrived ++ bs) = none) (answersHead : Nat → Bool) :
    reported (absorb side answersHead bs b).1 = [] ∧
      (absorb side answersHead bs b).2.recovery = .resync ∧
      (absorb side answersHead bs b).2.acc.unparsed.length ≤ openingLength ∧
      (¬ Misleads side (arrived ++ bs) →
        (absorb side answersHead bs b).2.SearchesIn side (arrived ++ bs)) := by
  obtain ⟨front, harrived, hresumable⟩ := h.resumable
  have hbehind := findStart?_behind hresumable (harrived ▸ h.unfound) bs
  rw [← List.append_assoc, ← harrived, hnone] at hbehind
  obtain ⟨⟨gone, hleaves⟩, hresync, hnothing⟩ := Buffer.absorb_unfound h.searched h.recovery
    (Option.map_eq_none_iff.mp hbehind.symm) answersHead
  have hsearched := searched_absorb h.searched side answersHead bs
  generalize absorb side answersHead bs b = r at *
  refine ⟨hnothing, hresync, hleaves.short, fun hclear =>
    ⟨hsearched, hresync, hnone, front ++ gone, ?_, ?_⟩⟩
  · rw [harrived, List.append_assoc, hleaves.split, List.append_assoc]
  · rcases hleaves.enough with rfl | hfeed | hlong
    · -- all is kept, so there were fewer than eight bytes before
      rw [List.append_nil]
      refine hresumable.imp_right (Or.imp_right fun ⟨hlong, _⟩ => ?_)
      have hpos := List.length_pos_iff.mpr hbs
      have hsplit := congrArg List.length hleaves.split
      have hshort := hleaves.short
      rw [List.length_append, List.nil_append] at hsplit
      omega
    · refine .inr (.inl ?_)
      rw [List.getLast?_append, hfeed]
      rfl
    · refine .inr (.inr ⟨hlong, ?_⟩)
      rw [← Bool.not_eq_true]
      intro hstart
      have hlast : (arrived ++ bs).drop ((arrived ++ bs).length - openingLength) =
          r.2.acc.unparsed := by
        have hall : arrived ++ bs = (front ++ gone) ++ r.2.acc.unparsed := by
          rw [harrived, List.append_assoc, hleaves.split, List.append_assoc]
        rw [hall, List.length_append, hlong, Nat.add_sub_cancel, List.drop_left]
      exact hclear ⟨hnone, by rwa [hlast], by rw [hlast]; exact hleaves.quiet⟩

end SearchesIn

/-! ## 3. Fragments -/

/-- Takes in fragments, one after the other. The entries that end exchanges are numbered through: `n`
    of them came before. -/
def takeIn (limit : Nat) (side : Side) (answersHead : Nat → Bool) (n : Nat) (fragments : List Bytes)
    (b : Buffer) : List Framed × Buffer :=
  takeNumbered (List.countP Framed.endsExchange)
    (fun answersHead bs b => b.receive limit side answersHead bs) answersHead n fragments b

theorem takeIn_cons (limit : Nat) (side : Side) (answersHead : Nat → Bool) (n : Nat) (bs : Bytes)
    (rest : List Bytes) (b : Buffer) : b.takeIn limit side answersHead n (bs :: rest) =
      let (framed, after) := b.receive limit side (fun i => answersHead (n + i)) bs
      let (more, last) :=
        after.takeIn limit side answersHead (n + framed.countP Framed.endsExchange) rest
      (framed ++ more, last) := takeNumbered_cons

/-- What is framed of bytes from the start of a message on, and what of them waits for more. -/
def carved (side : Side) (answersHead : Nat → Bool) (data : Bytes) : List Framed × Bytes :=
  let (pieces, rest) := (Accumulator.empty.append data).carveAll side answersHead
  (reported pieces, rest.unparsed)

/-! ## 4. Behind the end of a search -/

section Behind

variable {data : Bytes}

/-- Carving goes on where it was. -/
theorem carved_append (ha : b.acc.Searched)
    (hu : b.acc.unparsed = (carved side answersHead data).2) (bs : Bytes) :
    carved side answersHead (data ++ bs) =
      let later := (b.acc.append bs).carveAll side fun i =>
        answersHead ((carved side answersHead data).1.countP Framed.endsExchange + i)
      ((carved side answersHead data).1 ++ reported later.1, later.2.unparsed) := by
  have hdata : (Accumulator.empty.append data).Searched := Accumulator.searched_empty.append data
  have hcut := Accumulator.carveAll_append hdata side answersHead bs
  have hrest := hdata.carveAll side answersHead
  rw [← Accumulator.append_append] at hcut
  simp only [carved] at hu ⊢
  rw [hcut, ← finalsIn_eq_countP]
  generalize (Accumulator.empty.append data).carveAll side answersHead = r at *
  have hsame : (r.2.append bs).unparsed = (b.acc.append bs).unparsed := by
    rw [Accumulator.unparsed_append, Accumulator.unparsed_append, hu]
  simp only [Accumulator.carveAll_congr (hrest.append bs) (ha.append bs) hsame, reported_append]

/-- One fragment that leaves no more than the limit. -/
theorem receive_carved (ha : b.acc.Searched) (hr : b.recovery = .none)
    (hu : b.acc.unparsed = (carved side answersHead data).2)
    (hfits : (carved side answersHead (data ++ bs)).2.length ≤ limit) :
    ∃ framed after, b.receive limit side (fun i => answersHead
        ((carved side answersHead data).1.countP Framed.endsExchange + i)) bs = (framed, after) ∧
      after.acc.Searched ∧ after.recovery = .none ∧
      (carved side answersHead data).1 ++ framed = (carved side answersHead (data ++ bs)).1 ∧
      after.acc.unparsed = (carved side answersHead (data ++ bs)).2 := by
  rw [carved_append ha hu] at hfits ⊢
  obtain ⟨a, recovery⟩ := b
  obtain rfl : recovery = .none := hr
  have hsearched : (a.append bs).Searched := Accumulator.Searched.append ha bs
  rw [receive_eq, absorb_none ha]
  refine ⟨_, _, if_neg (Nat.not_lt_of_le hfits), hsearched.carveAll side _, rfl, rfl, rfl⟩

/-- **Behind a search the fragments do not show**: what is framed, and what waits, is what carving all
    bytes at once gives, as long as nothing goes over the limit. -/
theorem takeIn_carved {fragments : List Bytes} (ha : b.acc.Searched) (hr : b.recovery = .none)
    (hu : b.acc.unparsed = (carved side answersHead data).2)
    (hfits : ∀ k ≤ fragments.length,
      (carved side answersHead (data ++ (fragments.take k).flatten)).2.length ≤ limit) :
    let r := b.takeIn limit side answersHead
      ((carved side answersHead data).1.countP Framed.endsExchange) fragments
    (carved side answersHead data).1 ++ r.1 =
        (carved side answersHead (data ++ fragments.flatten)).1 ∧
      r.2.recovery = .none ∧
      r.2.acc.unparsed = (carved side answersHead (data ++ fragments.flatten)).2 := by
  induction fragments generalizing b data with
  | nil =>
    rw [List.flatten_nil, List.append_nil]
    exact ⟨List.append_nil _, hr, hu⟩
  | cons bs fragments ih =>
    have hfirst := hfits 1 (Nat.succ_le_succ (Nat.zero_le _))
    rw [List.take_succ_cons, List.take_zero, List.flatten_cons, List.flatten_nil,
      List.append_nil] at hfirst
    obtain ⟨framed, after, hreceive, hsearched, hnone, hframed, hwaits⟩ :=
      receive_carved ha hr hu hfirst
    have hrest : ∀ k ≤ fragments.length,
        (carved side answersHead (data ++ bs ++ (fragments.take k).flatten)).2.length ≤ limit := by
      intro k hk
      have hnext := hfits (k + 1) (Nat.succ_le_succ hk)
      rwa [List.take_succ_cons, List.flatten_cons, ← List.append_assoc] at hnext
    obtain ⟨hmore, hlast⟩ := ih hsearched hnone hwaits hrest
    rw [← hframed, List.countP_append, List.append_assoc, List.append_assoc] at hmore
    rw [← hframed, List.countP_append, List.append_assoc] at hlast
    simp only [takeIn_cons, hreceive, List.flatten_cons]
    exact ⟨hmore, hlast⟩

theorem carved_nil (side : Side) (answersHead : Nat → Bool) :
    carved side answersHead [] = ([], []) := by
  have hcarve : (Accumulator.empty.append []).carveAll side answersHead = ([], Accumulator.empty) :=
    Accumulator.carveAll_of_none (k := 0) rfl
  rw [carved, hcarve]
  rfl

/-- A new buffer. -/
theorem takeIn_empty {fragments : List Bytes}
    (hfits : ∀ k ≤ fragments.length,
      (carved side answersHead (data ++ (fragments.take k).flatten)).2.length ≤ limit) :
    (Buffer.empty.takeIn limit side answersHead 0 (data :: fragments)).1 =
        (carved side answersHead (data ++ fragments.flatten)).1 ∧
      (Buffer.empty.takeIn limit side answersHead 0 (data :: fragments)).2.recovery = .none ∧
      (Buffer.empty.takeIn limit side answersHead 0 (data :: fragments)).2.acc.unparsed =
        (carved side answersHead (data ++ fragments.flatten)).2 := by
  have hnil := carved_nil side answersHead
  have hall : ∀ k ≤ (data :: fragments).length,
      (carved side answersHead ([] ++ ((data :: fragments).take k).flatten)).2.length ≤ limit := by
    intro k hk
    cases k with
    | zero =>
      rw [List.take_zero, List.flatten_nil, List.append_nil, hnil]
      exact Nat.zero_le _
    | succ k =>
      rw [List.take_succ_cons, List.flatten_cons, List.nil_append]
      exact hfits k (Nat.le_of_succ_le_succ hk)
  have hrun := takeIn_carved (b := Buffer.empty) Accumulator.searched_empty rfl
    (congrArg Prod.snd hnil).symm hall
  simp only [hnil, List.countP_nil, List.nil_append, List.flatten_cons] at hrun
  exact hrun

end Behind

/-! ## 5. The search and what comes behind it -/

/-- **A run that ends the search is the run of a new buffer** with the bytes from the start on. -/
theorem SearchesIn.takeIn_found {fragments : List Bytes} (h : b.SearchesIn side arrived)
    (hfound : findStart? side (arrived ++ bs) = some p) (n : Nat) :
    b.takeIn limit side answersHead n (bs :: fragments) =
      Buffer.empty.takeIn limit side answersHead n ((arrived ++ bs).drop p :: fragments) := by
  simp only [takeIn_cons, receive_eq, h.absorb_found hfound]

theorem SearchesIn.receive_unfound (h : b.SearchesIn side arrived) (hbs : bs ≠ [])
    (hlimit : openingLength ≤ limit) (hnone : findStart? side (arrived ++ bs) = none)
    (answersHead : Nat → Bool) :
    ∃ after, b.receive limit side answersHead bs = ([], after) ∧ after.recovery = .resync ∧
      (¬ Misleads side (arrived ++ bs) → after.SearchesIn side (arrived ++ bs)) := by
  obtain ⟨hnothing, hresync, hshort, hsearches⟩ := h.absorb_unfound hbs hnone answersHead
  refine ⟨_, ?_, hresync, hsearches⟩
  rw [receive_eq]
  simp only [hnothing]
  exact if_neg (Nat.not_lt_of_le (Nat.le_trans hshort hlimit))

/-- **A search in any fragments.** While no line starts like a message nothing is framed; from the
    first that does, what is framed is what carving the bytes from there on gives. -/
theorem SearchesIn.takeIn {fragments : List Bytes} (h : b.SearchesIn side arrived)
    (hlimit : openingLength ≤ limit) (hne : ∀ bs ∈ fragments, bs ≠ [])
    (hclear : ∀ k < fragments.length, 0 < k →
      ¬ Misleads side (arrived ++ (fragments.take k).flatten)) (answersHead : Nat → Bool) :
    (findStart? side (arrived ++ fragments.flatten) = none →
      (b.takeIn limit side answersHead 0 fragments).1 = [] ∧
        (b.takeIn limit side answersHead 0 fragments).2.recovery = .resync) ∧
    ∀ p, findStart? side (arrived ++ fragments.flatten) = some p →
      (∀ k ≤ fragments.length, (carved side answersHead
        ((arrived ++ (fragments.take k).flatten).drop p)).2.length ≤ limit) →
      (b.takeIn limit side answersHead 0 fragments).1 =
          (carved side answersHead ((arrived ++ fragments.flatten).drop p)).1 ∧
        (b.takeIn limit side answersHead 0 fragments).2.recovery = .none ∧
        (b.takeIn limit side answersHead 0 fragments).2.acc.unparsed =
          (carved side answersHead ((arrived ++ fragments.flatten).drop p)).2 := by
  induction fragments generalizing b arrived with
  | nil =>
    rw [List.flatten_nil, List.append_nil, h.unfound]
    exact ⟨fun _ => ⟨rfl, h.recovery⟩, nofun⟩
  | cons bs fragments ih =>
    have hbs := hne bs List.mem_cons_self
    simp only [List.flatten_cons, ← List.append_assoc]
    cases hfound : findStart? side (arrived ++ bs) with
    | some q =>
      have hall := findStart?_append hfound fragments.flatten
      rw [hall]
      refine ⟨nofun, fun p hp hfits => ?_⟩
      cases hp
      have hq := findStart?_le hfound
      rw [h.takeIn_found hfound, List.drop_append_of_le_length hq]
      refine takeIn_empty fun k hk => ?_
      have hnext := hfits (k + 1) (Nat.succ_le_succ hk)
      rwa [List.take_succ_cons, List.flatten_cons, ← List.append_assoc,
        List.drop_append_of_le_length hq] at hnext
    | none =>
      obtain ⟨after, hreceive, hresync, hsearches⟩ :=
        h.receive_unfound hbs hlimit hfound fun i => answersHead (0 + i)
      simp only [Buffer.takeIn_cons, hreceive, List.nil_append, List.countP_nil, Nat.add_zero]
      by_cases hrest : fragments = []
      · -- the search goes on behind the last fragment, whatever the cut there
        subst hrest
        rw [List.flatten_nil, List.append_nil, hfound]
        exact ⟨fun _ => ⟨rfl, hresync⟩, nofun⟩
      · have hpos := List.length_pos_iff.mpr hrest
        have hfirst := hclear 1 (by rw [List.length_cons]; omega) Nat.one_pos
        rw [List.take_succ_cons, List.take_zero, List.flatten_cons, List.flatten_nil,
          List.append_nil] at hfirst
        obtain ⟨hquiet, hstart⟩ := ih (hsearches hfirst)
          (fun x hx => hne x (List.mem_cons_of_mem bs hx)) fun k hk _ => by
            have hnext := hclear (k + 1) (Nat.succ_lt_succ hk) (Nat.succ_pos k)
            rwa [List.take_succ_cons, List.flatten_cons, ← List.append_assoc] at hnext
        refine ⟨hquiet, fun p hp hfits => hstart p hp fun k hk => ?_⟩
        have hnext := hfits (k + 1) (Nat.succ_le_succ hk)
        rwa [List.take_succ_cons, List.flatten_cons, ← List.append_assoc] at hnext

/-! ## 6. A cut that misleads -/

/-- The last eight bytes are kept, and nothing is reported. -/
theorem absorb_misled (ha : b.acc.Searched) (hr : b.recovery = .resync)
    (hempty : b.acc.unparsed = []) (hmisled : Misleads side bs) (answersHead : Nat → Bool) :
    ∃ acc : Accumulator, acc.Searched ∧ acc.unparsed = bs.drop (bs.length - openingLength) ∧
      absorb side answersHead bs b = ([], { acc, recovery := .resync }) := by
  have hsearched : (b.acc.append bs).Searched := Accumulator.Searched.append ha bs
  have hu : (b.acc.append bs).unparsed = bs := by
    rw [Accumulator.unparsed_append, hempty, List.nil_append]
  obtain ⟨acc, recovery⟩ := b
  obtain rfl : recovery = .resync := hr
  obtain ⟨hnone, -, hquiet⟩ := hmisled
  simp only [absorb, recover]
  generalize acc.append bs = a at *
  have hkeep : a.unparsed.length - min a.unparsed.length openingLength =
      bs.length - openingLength := by
    rw [hu]
    omega
  simp only [hu, hnone]
  rw [← hu, hkeep, hu]
  generalize bs.length - openingLength = d at *
  have hkept : (a.skip d).compact.unparsed = bs.drop d := by
    rw [Accumulator.unparsed_compact, Accumulator.unparsed_skip, hu]
  have hsearched' : (a.skip d).compact.Searched := (hsearched.skip d).compact
  obtain ⟨k, hk⟩ : ∃ k, (a.skip d).compact.step side answersHead 0 = .needMore k := by
    rw [hsearched'.step_eq, hkept, carveFrom, hquiet]
    exact ⟨_, rfl⟩
  refine ⟨_, (hsearched'.setHeadScan hk).compact, ?_, by rw [Accumulator.carveAll_of_none hk]⟩
  exact hkept

/-- **A cut that misleads ends the search**, within a line: the bytes behind it are framed with the
    eight in front of it. -/
theorem takeIn_misled {next : Bytes} {fragments : List Bytes} (ha : b.acc.Searched)
    (hr : b.recovery = .resync) (hempty : b.acc.unparsed = []) (hlimit : openingLength ≤ limit)
    (hmisled : Misleads side bs) :
    b.takeIn limit side answersHead 0 (bs :: next :: fragments) =
      Buffer.empty.takeIn limit side answersHead 0
        ((bs ++ next).drop (bs.length - openingLength) :: fragments) := by
  obtain ⟨acc, hacc, hkept, habsorb⟩ :=
    absorb_misled ha hr hempty hmisled fun i => answersHead (0 + i)
  have hshort : acc.unparsed.length ≤ limit := by
    rw [hkept, List.length_drop]
    omega
  have hreceive : b.receive limit side (fun i => answersHead (0 + i)) bs =
      ([], { acc, recovery := .resync }) := by
    rw [receive_eq, habsorb]
    exact if_neg (Nat.not_lt_of_le hshort)
  have hfound : findStart? side (acc.unparsed ++ next) = some 0 := by
    rw [findStart?, if_pos]
    rw [hkept]
    exact looksLikeStart_append hmisled.2.1 next
  have hnext : absorb side (fun i => answersHead (0 + i)) next { acc, recovery := .resync } =
      absorb side (fun i => answersHead (0 + i))
        ((bs ++ next).drop (bs.length - openingLength)) Buffer.empty := by
    refine absorb_of_same_recover hacc Accumulator.searched_empty ?_ _
    simp only [recover, Accumulator.unparsed_append, hfound, Buffer.empty]
    refine ⟨?_, rfl⟩
    rw [List.drop_append_of_le_length (Nat.sub_le _ _), ← hkept]
    rfl
  simp only [takeIn_cons, hreceive, List.nil_append, List.countP_nil, Nat.add_zero, receive_eq,
    hnext]

end Buffer

/-! ## 7. The buffers of all flows -/

namespace Buffers

/-- The buffers of a run: bytes come in and flows are closed. -/
inductive Reached (limit : Nat) : Buffers → Prop where
  | empty : Reached limit (Buffers.empty limit)
  | receive {s : Buffers} (flow : FlowId) (side : Side) (answersHead : Nat → Bool) (bs : Bytes) :
      Reached limit s → Reached limit (s.receive flow side answersHead bs).2
  | removeFlow {s : Buffers} (flow : FlowId) : Reached limit s → Reached limit (s.removeFlow flow)

/-- Takes in fragments of a flow and side as one buffer does. -/
def takeIn (flow : FlowId) (side : Side) (answersHead : Nat → Bool) (n : Nat)
    (fragments : List Bytes) (s : Buffers) : List Framed × Buffers :=
  takeNumbered (List.countP Framed.endsExchange)
    (fun answersHead bs s => s.receive flow side answersHead bs) answersHead n fragments s

variable {limit : Nat} {flow : FlowId} {side : Side} {answersHead : Nat → Bool} {s : Buffers}
  {fragments : List Bytes}

theorem Reached.searched (h : Reached limit s) : s.Searched ∧ s.limit = limit := by
  induction h with
  | empty => exact ⟨searched_empty limit, rfl⟩
  | receive flow side answersHead bs _ ih =>
    exact ⟨ih.1.receive flow side answersHead bs,
      (limit_receive flow side answersHead bs _).trans ih.2⟩
  | removeFlow flow _ ih => exact ⟨ih.1.removeFlow flow, ih.2⟩

/-- A buffer does what that of the flow and side does. -/
structure Mirrors (limit : Nat) (flow : FlowId) (side : Side) (s : Buffers) (b : Buffer) : Prop where
  searched : s.Searched
  limit_eq : s.limit = limit
  own : b.acc.Searched
  same : Buffer.Same (s.buffer flow side) b

/-- One fragment. -/
theorem Mirrors.receive {b : Buffer} (h : Mirrors limit flow side s b) {bs : Bytes} (hbs : bs ≠ [])
    (answersHead : Nat → Bool) :
    (s.receive flow side answersHead bs).1 = (b.receive limit side answersHead bs).1 ∧
      Mirrors limit flow side (s.receive flow side answersHead bs).2
        (b.receive limit side answersHead bs).2 := by
  obtain ⟨hsearched, rfl, hown, hsame⟩ := h
  have hreceive : (s.buffer flow side).receive s.limit side answersHead bs =
      b.receive s.limit side answersHead bs := by
    simp only [Buffer.receive_eq, Buffer.absorb_congr (hsearched flow side) hown hsame]
  have hnext := hsearched.receive flow side answersHead bs
  rw [receive_of_ne_nil hbs, hreceive] at hnext ⊢
  exact ⟨rfl, hnext, limit_keep flow side _ s, Buffer.searched_receive hown s.limit side _ bs,
    same_buffer_keep flow side _ s⟩

/-- Fragments of a flow and side do what they do to its buffer. -/
theorem Mirrors.takeIn {b : Buffer} (h : Mirrors limit flow side s b) (hne : ∀ bs ∈ fragments, bs ≠ [])
    (answersHead : Nat → Bool) (n : Nat) :
    (s.takeIn flow side answersHead n fragments).1 =
        (b.takeIn limit side answersHead n fragments).1 ∧
      Mirrors limit flow side (s.takeIn flow side answersHead n fragments).2
        (b.takeIn limit side answersHead n fragments).2 :=
  takeNumbered_related (fun bs hbs answersHead _ _ hrun => hrun.receive (hne bs hbs) answersHead) h

/-- **A search ends at the first line that starts like a message**, in any fragments no cut between
    which misleads it. Until then nothing is framed. What is framed from there on, as long as nothing
    goes over the limit, is what carving the stream from there on gives, whatever its fragments. -/
theorem takeIn_resumes (h : Reached limit s) (hlimit : openingLength ≤ limit)
    (hr : (s.buffer flow side).recovery = .resync)
    (hempty : (s.buffer flow side).acc.unparsed = []) (hne : ∀ bs ∈ fragments, bs ≠ [])
    (hclear : ∀ k < fragments.length, ¬ Misleads side (fragments.take k).flatten)
    (answersHead : Nat → Bool) :
    let r := s.takeIn flow side answersHead 0 fragments
    ((∀ i, ¬ StartsAt side fragments.flatten i) →
      r.1 = [] ∧ (r.2.buffer flow side).recovery = .resync) ∧
    ∀ p, StartsAt side fragments.flatten p → (∀ j < p, ¬ StartsAt side fragments.flatten j) →
      (∀ k ≤ fragments.length,
        (Buffer.carved side answersHead ((fragments.take k).flatten.drop p)).2.length ≤ limit) →
      r.1 = (Buffer.carved side answersHead (fragments.flatten.drop p)).1 ∧
        (r.2.buffer flow side).recovery = .none ∧
        (r.2.buffer flow side).acc.unparsed =
          (Buffer.carved side answersHead (fragments.flatten.drop p)).2 := by
  obtain ⟨hsearched, rfl⟩ := h.searched
  have hstart : (s.buffer flow side).SearchesIn side [] :=
    Buffer.searchesIn_nil (hsearched flow side) hr hempty
  obtain ⟨hquiet, hfound⟩ := hstart.takeIn hlimit hne (fun k hk _ => hclear k hk) answersHead
  have hmirrors : Mirrors s.limit flow side s (s.buffer flow side) :=
    ⟨hsearched, rfl, hsearched flow side, rfl, rfl⟩
  obtain ⟨hframed, hlast⟩ := hmirrors.takeIn hne answersHead 0
  obtain ⟨hunparsed, hrecovery⟩ := hlast.same
  simp only [hframed, hunparsed, hrecovery]
  refine ⟨fun hnowhere => hquiet (findStart?_eq_none_iff.mpr hnowhere), fun p hat hbefore hfits => ?_⟩
  exact hfound p (findStart?_eq_some_iff.mpr ⟨hat, hbefore⟩) hfits

/-- Buffers that have lost a response. -/
def lostResponse : Buffers :=
  ((empty 16).receive ⟨7, false⟩ .response (fun _ => false)
    (Utf8.encode "HTTP/1.1 200 OK\r\nX".toList)).2

theorem reached_lostResponse : Reached 16 lostResponse := .receive _ _ _ _ .empty

/-- The end of a line, and a response that is cut in its opening. -/
def cutInOpening : List Bytes :=
  [Utf8.encode "abc\r\nHT".toList, Utf8.encode "TP/1.1 204 X\r\n\r\n".toList]

/-- The search ends behind the line, in front of the five bytes that are dropped. -/
theorem takeIn_resumes_cut_in_opening :
    (lostResponse.takeIn ⟨7, false⟩ .response (fun _ => false) 0 cutInOpening).1 =
      (Buffer.carved .response (fun _ => false)
        (Utf8.encode "HTTP/1.1 204 X\r\n\r\n".toList)).1 := by
  have hresync : (lostResponse.buffer ⟨7, false⟩ .response).recovery = .resync := by decide +kernel
  have hempty : (lostResponse.buffer ⟨7, false⟩ .response).acc.unparsed = [] := by decide +kernel
  have hne : ∀ bs ∈ cutInOpening, bs ≠ [] := by decide +kernel
  have hclear : ∀ k < cutInOpening.length, ¬ Misleads .response (cutInOpening.take k).flatten := by
    decide +kernel
  obtain ⟨_, hfound⟩ := takeIn_resumes reached_lostResponse (by decide) hresync hempty hne hclear
    fun _ => false
  exact (hfound 5 (by decide +kernel) (by decide +kernel) (by decide +kernel)).1

/-- **A cut can mislead a search**: of the same bytes, in which no line starts like a message, nothing
    is framed when they come at once, and a response when they are cut behind its version. -/
theorem exists_misled :
    ∃ (s : Buffers) (whole cut : List Bytes), Reached 16 s ∧
      (s.buffer ⟨7, false⟩ .response).recovery = .resync ∧
      (s.buffer ⟨7, false⟩ .response).acc.unparsed = [] ∧
      (∀ bs ∈ whole ++ cut, bs ≠ []) ∧ whole.flatten = cut.flatten ∧
      (∀ i, ¬ StartsAt .response whole.flatten i) ∧
      (s.takeIn ⟨7, false⟩ .response (fun _ => false) 0 whole).1 = [] ∧
      (s.takeIn ⟨7, false⟩ .response (fun _ => false) 0 cut).1.length = 1 :=
  ⟨lostResponse, [Utf8.encode "xHTTP/1.1 200 OK\r\n\r\n".toList],
    [Utf8.encode "xHTTP/1.1".toList, Utf8.encode " 200 OK\r\n\r\n".toList],
    reached_lostResponse, by decide +kernel, by decide +kernel, by decide +kernel,
    by decide +kernel, findStart?_eq_none_iff.mp (by decide +kernel), by decide +kernel,
    by decide +kernel⟩

end Buffers

end Stream

end TrafficGate
