import TrafficGate.Proofs.CheckedIndexes
import TrafficGate.Proofs.HeadAlignment
import TrafficGate.Proofs.ResumedSearches
/-!
  # Carving goes on and stays in the bytes

  A step that takes anything takes the four bytes of an empty line at least, and nothing that is not
  there. So carving ends after as many steps as there are fours of bytes, and a message that outgrew
  the limit is longer than what waits of it.

  1. `carveAllChecked?` -- the loop by checked indexes, in a number of rounds;
  2. how many pieces there are;
  3. what is missing of a message;
  4. what carving keeps to.

  Main facts: **`carveAllChecked?_eq`**, **`length_carveAll_le`**, **`length_lt_of_needMore`** and
  **`carving_in_bounds`**.
-/

namespace TrafficGate

open Http

namespace Stream

namespace Accumulator

/-! ## 1. The loop by checked indexes -/

/-- Takes pieces by checked indexes until more bytes are needed or none are left. It has to come to
    its end within the rounds. -/
def walkChecked? (side : Side) (answersHead : Nat → Bool) :
    Nat → Nat → Accumulator → Option (List Carved × Accumulator)
  | 0, _, _ => none
  | rounds + 1, finals, a => do
    let found ← carveChecked? a.unparsed side a.headScan
      (decide (side = .response) && answersHead finals)
    match a.piece? found with
    | none => some ([], a.setHeadScan (scanAfter found))
    | some p =>
      let rest := a.skip found.consumed
      if rest.isEmpty then some ([p], rest)
      else do
        let (more, last) ← walkChecked? side answersHead rounds (finals + p.finals) rest
        some (p :: more, last)

/-- Takes every complete message by checked indexes, within the rounds. -/
def carveAllChecked? (side : Side) (answersHead : Nat → Bool) (rounds : Nat) (a : Accumulator) :
    Option (List Carved × Accumulator) := do
  let (pieces, rest) ← walkChecked? side answersHead rounds 0 a
  some (pieces, rest.compact)

section Loop

variable {side : Side} {answersHead : Nat → Bool} {a : Accumulator}

/-- A step that finds a piece leaves four bytes less. -/
theorem length_skip_add_le {finals : Nat} {p : Carved}
    (h : a.piece? (a.step side answersHead finals) = some p) :
    (a.skip (a.step side answersHead finals).consumed).unparsed.length + terminator.length ≤
      a.unparsed.length := by
  have hbounds := consumed_carveFrom (isNeedMore_of_piece? h)
  rw [unparsed_skip, List.length_drop]
  unfold step at *
  omega

/-- **Each round takes four bytes at least**, so the loop comes to its end before the rounds do. -/
theorem walkChecked?_eq {rounds finals : Nat} (hfits : a.unparsed.length < memoryBound)
    (hrounds : a.unparsed.length < terminator.length * rounds) :
    a.walkChecked? side answersHead rounds finals = some (a.walk side answersHead finals) := by
  induction rounds generalizing finals a with
  | zero => exact absurd hrounds (Nat.not_lt_zero _)
  | succ rounds ih =>
    have hstep : carveChecked? a.unparsed side a.headScan
        (decide (side = .response) && answersHead finals) =
          some (a.step side answersHead finals) := by
      rw [carveChecked?_eq hfits, carveFrom_headScan]
      rfl
    simp only [walkChecked?, hstep, Option.bind_eq_bind, Option.bind_some]
    cases hp : a.piece? (a.step side answersHead finals) with
    | none => rw [walk_of_none hp]
    | some p =>
      have hshort := length_skip_add_le hp
      rw [walk_of_some hp]
      simp only []
      split
      · rfl
      · rw [Nat.mul_succ] at hrounds
        rw [ih (by omega) (by omega), Option.bind_some]

/-- **Carving ends after as many rounds as there are fours of bytes**, and one in which it waits. -/
theorem carveAllChecked?_eq (hfits : a.unparsed.length < memoryBound) :
    a.carveAllChecked? side answersHead (a.unparsed.length / terminator.length + 1) =
      some (a.carveAll side answersHead) := by
  have hrounds := Nat.lt_mul_div_succ a.unparsed.length (show 0 < terminator.length by decide)
  rw [carveAllChecked?, walkChecked?_eq hfits hrounds]
  rfl

/-! ## 2. How many pieces there are -/

theorem length_carveAll_mul_le (side : Side) (answersHead : Nat → Bool) (a : Accumulator) :
    (a.carveAll side answersHead).1.length * terminator.length ≤ a.unparsed.length := by
  induction answersHead, a using carve_induction side with
  | waits answersHead a k hk =>
    rw [carveAll_of_none hk, List.length_nil, Nat.zero_mul]
    exact Nat.zero_le _
  | piece answersHead a p hp ih =>
    have hshort := length_skip_add_le hp
    rw [carveAll_of_some hp]
    simp only [List.length_cons, Nat.succ_mul]
    omega

/-- **There are no more pieces than fours of bytes.** -/
theorem length_carveAll_le (side : Side) (answersHead : Nat → Bool) (a : Accumulator) :
    (a.carveAll side answersHead).1.length ≤ a.unparsed.length / terminator.length :=
  (Nat.le_div_iff_mul_le (by decide)).mpr (length_carveAll_mul_le side answersHead a)

end Loop

end Accumulator

end Stream

/-! ## 3. What is missing of a message -/

namespace Http

/-- A body that is not there yet is longer than the bytes behind the head, if its length is
    declared. -/
theorem length_lt_of_incomplete {head : Text} {side : Side} {status : Option Nat}
    {answersHead : Bool} {rest : Bytes}
    (h : Frame.resolve head side status answersHead rest = .incomplete)
    (hplain : ¬ (side = .response ∧ Head.isChunked head = true)) :
    rest.length < Head.contentLength head := by
  rw [Frame.resolve, if_neg hplain] at h
  split at h
  · cases h
  · unfold Frame.ofLength at h
    split at h
    · cases h
    · split at h
      · next hdrop =>
        rw [List.isEmpty_iff, List.drop_eq_nil_iff] at hdrop
        omega
      · cases h

/-- **A message that waits is longer than what is there of it**, if its head tells its length. -/
theorem length_lt_of_needMore {data : Bytes} {side : Side} {answersHead : Bool} {k total : Nat}
    {t : Truncated} (hmore : carveFrom data side 0 answersHead = .needMore k)
    (ht : Truncated.read? data side = some t) (htotal : t.framedLength = some total) :
    data.length < total ∧ total < Numeral.wordBound := by
  obtain ⟨i, hi, rfl⟩ := Option.map_eq_some_iff.mp ht
  refine ⟨?_, Truncated.framedLength?_lt htotal⟩
  have hroom := findTerminator?_le hi
  rw [carveFrom, hi] at hmore
  have hbody := (carveHead_eq_needMore hmore).2
  simp only [Truncated.framedLength?] at htotal
  split at htotal
  · cases htotal
  · next hplain =>
    have hmissing : (data.drop (i + terminator.length)).length <
        Head.contentLength (Head.decode side (data.take i)) :=
      length_lt_of_incomplete hbody hplain
    rw [List.length_drop] at hmissing
    split at htotal <;> cases htotal
    omega

end Http

/-! ## 4. What carving keeps to -/

namespace Stream

/-- What carving keeps to in bytes: it cuts no range that they do not have and adds no indexes
    beyond a word, each step that takes anything takes four of them at least, and the loop ends
    after as many rounds as there are fours of bytes, and one. -/
structure Keeps (data : Bytes) : Prop where
  checked : ∀ (side : Side) (scan : Nat) (answersHead : Bool),
    carveChecked? data side scan answersHead = some (carveFrom data side scan answersHead)
  progress : ∀ (side : Side) (scan : Nat) (answersHead : Bool),
    (carveFrom data side scan answersHead).isNeedMore = false →
      4 ≤ (carveFrom data side scan answersHead).consumed ∧
        (carveFrom data side scan answersHead).consumed ≤ data.length
  ends : ∀ (a : Accumulator) (side : Side) (answersHead : Nat → Bool), a.unparsed = data →
    a.carveAllChecked? side answersHead (data.length / 4 + 1) = some (a.carveAll side answersHead)

theorem keeps_of_lt {data : Bytes} (hfits : data.length < memoryBound) : Keeps data where
  checked := carveChecked?_eq hfits
  progress _ _ _ h := consumed_carveFrom h
  ends a side answersHead := by
    rintro rfl
    exact Accumulator.carveAllChecked?_eq hfits

namespace Buffers

/-- **Carving goes on and stays in bounds**, whatever lengths a peer declares: in the bytes and in a
    word, and with four bytes at least for each piece. What outgrows the limit, with a head that
    tells how long the message is, has less bytes than that, so those to be dropped are a number
    above zero. -/
theorem carving_in_bounds :
    (∀ data : Bytes, data.length < memoryBound → Keeps data) ∧
    (∀ (a : Accumulator) side answersHead,
      (a.carveAll side answersHead).1.length ≤ a.unparsed.length / 4) ∧
    ∀ limit s, Reached limit s → ∀ flow side answersHead bs, bs ≠ [] →
      let waiting := ((s.buffer flow side).absorb side answersHead bs).2.acc.unparsed
      limit < waiting.length → ∀ t total, Truncated.read? waiting side = some t →
      t.framedLength = some total →
        waiting.length < total ∧ total < Numeral.wordBound ∧ 0 < total - waiting.length ∧
          ((s.receive flow side answersHead bs).2.buffer flow side).recovery =
            .discard (total - waiting.length) := by
  refine ⟨fun data => keeps_of_lt, fun a side answersHead => a.length_carveAll_le side answersHead,
    ?_⟩
  intro limit s hs flow side answersHead bs hbs waiting hover t total ht htotal
  obtain ⟨hsearched, rfl⟩ := hs.searched
  obtain ⟨k, hmore⟩ := Buffer.exists_needMore_absorb (hsearched flow side) side answersHead bs
  obtain ⟨hlong, hword⟩ := length_lt_of_needMore hmore ht htotal
  refine ⟨hlong, hword, Nat.sub_pos_of_lt hlong, ?_⟩
  rw [receive_of_ne_nil hbs]
  refine (same_buffer_keep flow side _ s).2.trans ?_
  rw [Buffer.receive_eq]
  simp only [waiting] at hover ht hlong ⊢
  rw [if_pos hover]
  simp only [Buffer.overflow, ht, Option.bind_some, htotal, Buffer.recoveryFor, if_pos hlong]

/-- A response with a chunk whose size is the last number of a word. -/
def hugeChunk : Bytes :=
  Utf8.encode "HTTP/1.1 200 OK\r\nTransfer-Encoding: chunked\r\n\r\nffffffffffffffff\r\nab".toList

/-- A request whose body is almost as long as a word tells. -/
def hugeBody : Bytes :=
  Utf8.encode "POST / HTTP/1.1\r\nContent-Length: 18446744073709551000\r\n\r\nab".toList

/-- The chunk is waited for, as the sums with its size leave a word. Of the body as many bytes are
    dropped as it tells, but for the two that are there. -/
theorem carving_in_bounds_huge_lengths :
    carveChecked? hugeChunk .response 0 false = some (.needMore 43) ∧
      (((empty 16).receive ⟨7, false⟩ .request (fun _ => false) hugeBody).2.buffer ⟨7, false⟩
        .request).recovery = .discard 18446744073709550998 := by
  obtain ⟨hkeeps, -, hover⟩ := carving_in_bounds
  have hchunk := (hkeeps hugeChunk (by decide +kernel)).checked .response 0 false
  have hstep : carveFrom hugeChunk .response 0 false = .needMore 43 := by decide +kernel
  obtain ⟨-, -, -, hbody⟩ := hover 16 (empty 16) .empty ⟨7, false⟩ .request (fun _ => false)
    hugeBody (by decide +kernel) (by decide +kernel) _ 18446744073709551057
    (Option.some_get (by decide +kernel)).symm (by decide +kernel)
  exact ⟨hchunk.trans (congrArg some hstep), hbody.trans (by decide +kernel)⟩

end Buffers

end Stream

end TrafficGate
