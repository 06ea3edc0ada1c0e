import TrafficGate.Proofs.Veils
/-!
  # Carving by checked indexes

  A step told as arithmetic on indexes: each range that is cut from the bytes has to lie in them,
  and each sum of two indexes has to fit a word, unless the step itself looks whether it does. Where
  one of them does not, the result is `none`. This never happens to bytes that a memory can hold,
  whatever lengths a peer declares.

  1. `slice?` and `sum?` -- ranges and sums that are checked;
  2. `decodeChecked?` -- the chunked coding, one round for each chunk;
  3. `resolveChecked?` and `statusChecked?` -- bodies and start lines;
  4. `carveChecked?` -- the step.

  Main facts: **`exists_roundAt?`** (what a round finds), **`decodeChecked?_eq`**,
  **`resolveChecked?_eq`** and **`carveChecked?_eq`**.
-/

namespace TrafficGate

/-! ## 1. Ranges and sums -/

namespace Seq

section Slices

variable {α : Type} {i j n : Nat} {l : List α}

/-- The elements from `i` up to `j`, if the list has that range. -/
def slice? (i j : Nat) (l : List α) : Option (List α) :=
  if i ≤ j ∧ j ≤ l.length then some ((l.drop i).take (j - i)) else none

theorem slice?_of_le (hi : i ≤ j) (hj : j ≤ l.length) :
    slice? i j l = some ((l.drop i).take (j - i)) := if_pos ⟨hi, hj⟩

/-- The range in front of an index. -/
theorem slice?_front (h : n ≤ l.length) : slice? 0 n l = some (l.take n) :=
  slice?_of_le (Nat.zero_le n) h

/-- The range from an index to the end. -/
theorem slice?_rest (h : n ≤ l.length) : slice? n l.length l = some (l.drop n) := by
  rw [slice?_of_le h (Nat.le_refl _), ← List.length_drop, List.take_length]

end Slices

end Seq

namespace Http

/-- The sum of two indexes, if a word holds it. -/
def sum? (a b : Nat) : Option Nat := if a + b < Numeral.wordBound then some (a + b) else none

theorem sum?_of_lt {a b : Nat} (h : a + b < Numeral.wordBound) : sum? a b = some (a + b) := if_pos h

theorem eq_of_sum? {a b c : Nat} (h : sum? a b = some c) : a + b = c := by
  unfold sum? at h
  split at h
  · exact Option.some.inj h
  · cases h

/-- More bytes than a memory can hold, as an index into them has a bit to spare. -/
def memoryBound : Nat := Nat.pow 2 63

theorem memoryBound_lt : memoryBound < Numeral.wordBound := by decide

/-- An index into bytes in memory, or their end, fits a word. -/
theorem lt_wordBound {data : Bytes} (hfits : data.length < memoryBound) {n : Nat}
    (h : n ≤ data.length) : n < Numeral.wordBound :=
  Nat.lt_of_le_of_lt h (Nat.lt_trans hfits memoryBound_lt)

/-! ## 2. The chunked coding -/

namespace Chunked

/-- What a round finds at its position, as indexes. -/
inductive Round where
  /-- The chunk is not there yet, or its end is no index. -/
  | waits
  /-- No line end follows the chunk. -/
  | broken (frame : Nat) (flaw : Flaw)
  /-- The chunk without data. -/
  | last (frame : Nat)
  /-- A chunk with data from `start` up to `stop`. -/
  | chunk (start stop frame : Nat)

/-- Looks for the end of a chunk with its data from `start` on. The two sums with the size that its
    line announced may leave a word: then the chunk is waited for. -/
def chunkAt? (data : Bytes) (start size : Nat) : Option Round :=
  match sum? start size with
  | none => some .waits
  | some stop =>
    match sum? stop crlf.length with
    | none => some .waits
    | some frame =>
      if data.length < frame then some .waits
      else do
        let ending ← Seq.slice? stop frame data
        if ending ≠ crlf then some (.broken frame (.unendedChunk size stop))
        else if size = 0 then some (.last frame)
        else some (.chunk start stop frame)

/-- Reads the size line at a position, and looks for the end of its chunk. -/
def roundAt? (data : Bytes) (pos : Nat) : Option Round := do
  let ahead ← Seq.slice? pos data.length data
  match Seq.indexOf? crlf ahead with
  | none => some .waits
  | some lineLength =>
    let lineEnd ← sum? pos lineLength
    let line ← Seq.slice? pos lineEnd data
    let lineTaken ← sum? lineLength crlf.length
    let start ← sum? pos lineTaken
    chunkAt? data start (sizeOf line)

/-- The bytes of ranges, one behind the other. -/
def gather? (data : Bytes) : List (Nat × Nat) → Option Bytes
  | [] => some []
  | (start, stop) :: rest => do
    let chunk ← Seq.slice? start stop data
    let more ← gather? data rest
    some (chunk ++ more)

/-- Goes on round after round, `rounds` times at most. The data of the chunks is cut out when the
    last one is there. -/
def walkChecked? (data : Bytes) : Nat → Nat → List (Nat × Nat) → Option Chunked
  | 0, _, _ => none
  | rounds + 1, pos, chunks => do
    match ← roundAt? data pos with
    | .waits => some .incomplete
    | .broken frame flaw => some (.malformed frame flaw)
    | .last frame =>
      let body ← gather? data chunks
      some (.complete body frame)
    | .chunk start stop frame => walkChecked? data rounds frame (chunks ++ [(start, stop)])

/-- Reads the chunked body at the start of the bytes. -/
def decodeChecked? (data : Bytes) : Option Chunked := walkChecked? data (data.length + 1) 0 []

section Rounds

variable {data : Bytes} {pos rounds : Nat} {chunks : List (Nat × Nat)} {front : Bytes}

/-- A round tells what the walk from its position gives; the ranges that it names lie in the
    bytes. -/
def Round.Tells (data : Bytes) (pos : Nat) : Round → Prop
  | waits => walk pos (data.drop pos) = incomplete
  | broken frame flaw => walk pos (data.drop pos) = malformed frame flaw
  | last frame => walk pos (data.drop pos) = complete [] frame
  | chunk start stop frame =>
    start ≤ stop ∧ stop ≤ data.length ∧ pos < frame ∧ frame ≤ data.length ∧
      walk pos (data.drop pos) =
        addChunk ((data.drop start).take (stop - start)) (walk frame (data.drop frame))

/-- What is found of a chunk with its data from `start` on, if nothing is checked. -/
def chunkAt (data : Bytes) (start size : Nat) : Round :=
  let stop := start + size
  let frame := stop + crlf.length
  if data.length < frame then .waits
  else if (data.drop stop).take crlf.length ≠ crlf then .broken frame (.unendedChunk size stop)
  else if size = 0 then .last frame
  else .chunk start stop frame

/-- The end of a chunk is looked for in the bytes and in a word. -/
theorem chunkAt?_eq (hfits : data.length < memoryBound) (start size : Nat) :
    chunkAt? data start size = some (chunkAt data start size) := by
  unfold chunkAt? chunkAt
  by_cases hframe : data.length < start + size + crlf.length
  · -- whether or not one of the sums leaves a word
    rw [if_pos hframe]
    split
    · rfl
    · next hstop =>
      split
      · rfl
      · next stop _ frame hsum =>
        obtain rfl := eq_of_sum? hstop
        obtain rfl := eq_of_sum? hsum
        rw [if_pos hframe]
  · have hle := Nat.le_of_not_lt hframe
    have hending : Seq.slice? (start + size) (start + size + crlf.length) data =
        some ((data.drop (start + size)).take crlf.length) := by
      rw [Seq.slice?_of_le (Nat.le_add_right ..) hle, Nat.add_sub_cancel_left]
    rw [sum?_of_lt (lt_wordBound hfits (Nat.le_trans (Nat.le_add_right ..) hle))]
    simp only [sum?_of_lt (lt_wordBound hfits hle), if_neg hframe, hending, Option.bind_eq_bind,
      Option.bind_some]
    split
    · rfl
    · split <;> rfl

section Found

variable {i : Nat} (hfind : Seq.indexOf? crlf (data.drop pos) = some i)

include hfind

/-- The size line, and the start of the data behind it, lie in the bytes. -/
theorem room_of_found : pos + (i + crlf.length) ≤ data.length := by
  have hroom := Seq.indexOf?_add_le hfind
  rw [List.length_drop] at hroom
  simp only [crlf, List.length_cons, List.length_nil] at *
  omega

theorem roundAt?_of_found (hfits : data.length < memoryBound) :
    roundAt? data pos =
      some (chunkAt data (pos + (i + crlf.length)) (sizeOf ((data.drop pos).take i))) := by
  have hroom := room_of_found hfind
  have hahead := Seq.slice?_rest (Nat.le_trans (Nat.le_add_right ..) hroom)
  have hline : Seq.slice? pos (pos + i) data = some ((data.drop pos).take i) := by
    rw [Seq.slice?_of_le (Nat.le_add_right pos i) (by omega), Nat.add_sub_cancel_left]
  have hsum : ∀ a b, a + b ≤ data.length → sum? a b = some (a + b) := fun a b h =>
    sum?_of_lt (lt_wordBound hfits h)
  simp only [roundAt?, hahead, Option.bind_eq_bind, Option.bind_some, hfind, hline,
    hsum pos i (by omega), hsum i crlf.length (by omega), hsum pos (i + crlf.length) hroom]
  exact chunkAt?_eq hfits _ _

/-- What is found behind a size line tells what the walk gives. -/
theorem tells_chunkAt (hfits : data.length < memoryBound) :
    (chunkAt data (pos + (i + crlf.length)) (sizeOf ((data.drop pos).take i))).Tells data pos := by
  have hroom := room_of_found hfind
  have hcut : Seq.cut? crlf (data.drop pos) =
      some ((data.drop pos).take i, data.drop (pos + (i + crlf.length))) := by
    rw [Seq.cut?, hfind, Option.map_some, List.drop_drop]
  have hlength : ((data.drop pos).take i).length = i := by
    rw [List.length_take, List.length_drop]
    omega
  have hwalk : walk pos (data.drop pos) = _ := walk_of_cut? hcut
  have hpast : pos < pos + (i + crlf.length) :=
    Nat.lt_add_of_pos_right (Nat.add_pos_right i (by decide))
  simp only [hlength, length_ending_lt_iff, List.drop_drop] at hwalk
  generalize sizeOf ((data.drop pos).take i) = size at hwalk ⊢
  rw [Nat.add_assoc pos i] at hwalk
  generalize pos + (i + crlf.length) = start at hwalk hpast hroom ⊢
  simp only [chunkAt]
  by_cases hwaits : data.length < start + size + crlf.length
  · rw [if_pos (Or.inr hwaits)] at hwalk
    rw [if_pos hwaits]
    exact hwalk
  · have hframe : start + size + crlf.length ≤ data.length := Nat.le_of_not_lt hwaits
    rw [if_neg (not_or.mpr ⟨Nat.not_le.mpr (lt_wordBound hfits hframe), hwaits⟩)] at hwalk
    rw [if_neg hwaits]
    by_cases hend : (data.drop (start + size)).take crlf.length ≠ crlf
    · rw [if_pos hend] at hwalk ⊢
      exact hwalk
    · rw [if_neg hend] at hwalk ⊢
      by_cases hsize : size = 0
      · rw [if_pos hsize] at hwalk ⊢
        exact hwalk
      · rw [if_neg hsize] at hwalk ⊢
        refine ⟨Nat.le_add_right start size, by omega, by omega, hframe, ?_⟩
        rw [Nat.add_sub_cancel_left]
        exact hwalk

end Found

/-- **A round stays in the bytes and in a word**, and tells what the walk gives. -/
theorem exists_roundAt? (hfits : data.length < memoryBound) (hpos : pos ≤ data.length) :
    ∃ r, roundAt? data pos = some r ∧ r.Tells data pos := by
  cases hfind : Seq.indexOf? crlf (data.drop pos) with
  | none =>
    have hcut : Seq.cut? crlf (data.drop pos) = none := by rw [Seq.cut?, hfind, Option.map_none]
    refine ⟨.waits, ?_, walk_of_cut?_none hcut⟩
    simp only [roundAt?, Seq.slice?_rest hpos, Option.bind_eq_bind, Option.bind_some, hfind]
  | some i => exact ⟨_, roundAt?_of_found hfind hfits, tells_chunkAt hfind hfits⟩

theorem gather?_concat {start stop : Nat} {chunk : Bytes}
    (hfront : gather? data chunks = some front) (hchunk : Seq.slice? start stop data = some chunk) :
    gather? data (chunks ++ [(start, stop)]) = some (front ++ chunk) := by
  induction chunks generalizing front with
  | nil =>
    cases hfront
    simp only [List.nil_append, gather?, hchunk, Option.bind_eq_bind, Option.bind_some,
      List.append_nil]
  | cons c chunks ih =>
    simp only [gather?, Option.bind_eq_bind, Option.bind_eq_some_iff] at hfront
    obtain ⟨first, hfirst, more, hmore, hsum⟩ := hfront
    cases hsum
    simp only [List.cons_append, gather?, hfirst, ih hmore, Option.bind_eq_bind, Option.bind_some,
      List.append_assoc]

theorem addChunk_addChunk (a b : Bytes) (c : Chunked) :
    addChunk a (addChunk b c) = addChunk (a ++ b) c := by
  cases c <;> simp only [addChunk, List.append_assoc]

/-- **Round after round the indexes stay in the bytes and in a word**, and there are no more rounds
    than bytes. The ranges kept so far are data that stands in front of what the walk gives. -/
theorem walkChecked?_eq (hfits : data.length < memoryBound) (hpos : pos ≤ data.length)
    (hrounds : data.length - pos < rounds) (hfront : gather? data chunks = some front) :
    walkChecked? data rounds pos chunks = some (addChunk front (walk pos (data.drop pos))) := by
  induction rounds generalizing pos chunks front with
  | zero => exact absurd hrounds (Nat.not_lt_zero _)
  | succ rounds ih =>
    obtain ⟨r, hr, htells⟩ := exists_roundAt? hfits hpos
    simp only [walkChecked?, hr, Option.bind_eq_bind, Option.bind_some]
    cases r with
    | waits =>
      rw [htells]
      rfl
    | broken frame flaw =>
      rw [htells]
      rfl
    | last frame =>
      rw [htells]
      simp only [hfront, Option.bind_some, addChunk, List.append_nil]
    | chunk start stop frame =>
      obtain ⟨hstart, hstop, hpast, hframe, hwalk⟩ := htells
      have hmore := gather?_concat hfront (Seq.slice?_of_le hstart hstop)
      rw [hwalk, addChunk_addChunk]
      exact ih hframe (by omega) hmore

/-- **The chunked coding is read in the bytes and in a word.** -/
theorem decodeChecked?_eq (hfits : data.length < memoryBound) :
    decodeChecked? data = some (decode data) := by
  have hnone : gather? data [] = some [] := rfl
  have hwalk := walkChecked?_eq hfits (Nat.zero_le data.length)
    (Nat.lt_succ_of_le (Nat.sub_le ..)) hnone
  rw [decodeChecked?, hwalk, decode, List.drop_zero]
  cases walk 0 data <;> rfl

end Rounds

end Chunked

/-! ## 3. Bodies and start lines -/

/-- The body behind a head, cut out by its declared length or its coding. -/
def Frame.resolveChecked? (head : Text) (side : Side) (status : Option Nat) (answersHead : Bool)
    (rest : Bytes) : Option Frame :=
  if isForbidden status answersHead then some (framed none 0)
  else if side = .response ∧ Head.isChunked head then do
    let coding ← Chunked.decodeChecked? rest
    some (ofChunked coding)
  else if Head.contentLength head = 0 then some (framed none 0)
  else if rest.length < Head.contentLength head then some incomplete
  else do
    let body ← Seq.slice? 0 (Head.contentLength head) rest
    some (framed (some body) (Head.contentLength head))

/-- **A body is cut out of the bytes.** -/
theorem Frame.resolveChecked?_eq {rest : Bytes} (hfits : rest.length < memoryBound) (head : Text)
    (side : Side) (status : Option Nat) (answersHead : Bool) :
    resolveChecked? head side status answersHead rest =
      some (resolve head side status answersHead rest) := by
  unfold resolveChecked? resolve
  split
  · rfl
  · split
    · rw [Chunked.decodeChecked?_eq hfits]
      rfl
    · unfold ofLength
      split
      · rfl
      · have hempty : (rest.drop (Head.contentLength head - 1)).isEmpty ↔
            rest.length < Head.contentLength head := by
          rw [List.isEmpty_iff, List.drop_eq_nil_iff]
          omega
        by_cases hshort : rest.length < Head.contentLength head
        · rw [if_pos hshort, if_pos (hempty.mpr hshort)]
        · rw [if_neg hshort, if_neg (mt hempty.mp hshort),
            Seq.slice?_front (Nat.le_of_not_lt hshort)]
          rfl

/-- The part of a line that the text of a flaw shows, cut out by its length in bytes. -/
def Flaw.shownBytes? (line : Text) : Option Bytes :=
  if line.length ≤ shownLength then some (Utf8.encode line)
  else Seq.slice? 0 (Utf8.encode (line.take shownLength)).length (Utf8.encode line)

theorem Flaw.shownBytes?_eq (line : Text) :
    shownBytes? line = some (Utf8.encode (line.take shownLength)) := by
  unfold shownBytes?
  split
  · next h => rw [List.take_of_length_le h]
  · have hline : Utf8.encode line =
        Utf8.encode (line.take shownLength) ++ Utf8.encode (line.drop shownLength) := by
      rw [← Utf8.encode_append, List.take_append_drop]
    rw [hline, Seq.slice?_front (by rw [List.length_append]; exact Nat.le_add_right ..),
      List.take_left]

/-- Checks a start line; for the flaw of one that cannot be used a part of it is cut out. -/
def Head.statusChecked? (side : Side) (line : Text) : Option (Except Flaw (Option Nat)) :=
  match status side line with
  | .ok code => some (.ok code)
  | .error flaw => do
    let _ ← Flaw.shownBytes? line
    some (.error flaw)

theorem Head.statusChecked?_eq (side : Side) (line : Text) :
    statusChecked? side line = some (status side line) := by
  unfold statusChecked?
  split
  · next h => rw [h]
  · next h =>
    rw [Flaw.shownBytes?_eq, h]
    rfl

/-! ## 4. The step -/

/-- What the bytes are whose head ends at `headEnd`. -/
def carveHeadChecked? (data : Bytes) (side : Side) (answersHead : Bool) (headEnd : Nat) :
    Option Carve := do
  let bodyStart ← sum? headEnd terminator.length
  let front ← Seq.slice? 0 headEnd data
  let head := Head.decode side front
  let line := Head.startLine head
  if side = .request ∧ Head.opensTunnel line then some (.tunnel bodyStart)
  else do
    let status ← Head.statusChecked? side line
    let rest ← Seq.slice? bodyStart data.length data
    match ← Frame.resolveChecked? head side (Head.code? status) answersHead rest with
    | .incomplete => some (.needMore headEnd)
    | .misframed length flaw => do
      let consumed ← sum? bodyStart length
      some (.malformed consumed flaw)
    | .framed body length => do
      let consumed ← sum? bodyStart length
      match status with
      | .error flaw => some (.malformed consumed flaw)
      | .ok status => do
        let raw ← Seq.slice? 0 consumed data
        some (.complete { side, raw, head, body, status })

/-- One step over bytes that start at a message boundary. -/
def carveChecked? (data : Bytes) (side : Side) (scan : Nat) (answersHead : Bool) :
    Option Carve := do
  let start := min scan data.length
  let ahead ← Seq.slice? start data.length data
  match Seq.indexOf? terminator ahead with
  | none => some (.needMore (data.length - (terminator.length - 1)))
  | some found =>
    let headEnd ← sum? start found
    carveHeadChecked? data side answersHead headEnd

section Step

variable {data : Bytes}

/-- Behind the end of a head the step stays in the bytes and in a word. -/
theorem carveHeadChecked?_eq (hfits : data.length < memoryBound) {i : Nat}
    (hi : i + terminator.length ≤ data.length) (side : Side) (answersHead : Bool) :
    carveHeadChecked? data side answersHead i = some (carveHead data side answersHead i) := by
  have hle : i ≤ data.length := Nat.le_trans (Nat.le_add_right ..) hi
  have hrest : (data.drop (i + terminator.length)).length < memoryBound := by
    rw [List.length_drop]
    omega
  have hbody := length_bodyAt_le data side answersHead i
  have hword : ∀ n ≤ data.length - (i + terminator.length),
      i + terminator.length + n ≤ data.length := fun n hn => by omega
  simp only [bodyAt, statusAt, headAt] at hbody
  simp only [carveHead, carveHeadChecked?, sum?_of_lt (lt_wordBound hfits hi),
    Seq.slice?_front hle, Seq.slice?_rest hi, Head.statusChecked?_eq,
    Frame.resolveChecked?_eq hrest, Option.bind_eq_bind, Option.bind_some]
  split
  · rfl
  · generalize Frame.resolve _ _ _ _ _ = frame at hbody ⊢
    cases frame with
    | incomplete => rfl
    | misframed length flaw =>
      simp only [sum?_of_lt (lt_wordBound hfits (hword length hbody)), Option.bind_some]
    | framed body length =>
      have hconsumed := hword length hbody
      simp only [sum?_of_lt (lt_wordBound hfits hconsumed), Option.bind_some]
      cases Head.status side (Head.startLine (Head.decode side (data.take i))) with
      | error flaw => rfl
      | ok status =>
        simp only [Seq.slice?_front hconsumed, Option.bind_some]

/-- **The step stays in the bytes and in a word**, whatever lengths it reads from them and wherever
    its search starts, and finds what it finds without the checks. -/
theorem carveChecked?_eq (hfits : data.length < memoryBound) (side : Side) (scan : Nat)
    (answersHead : Bool) :
    carveChecked? data side scan answersHead = some (carveFrom data side scan answersHead) := by
  have hahead := Seq.slice?_rest (Nat.min_le_right scan data.length)
  simp only [carveChecked?, hahead, Option.bind_eq_bind, Option.bind_some]
  rw [carveFrom, ← findTerminator?_min, findTerminator?]
  cases hi : Seq.indexOf? terminator (data.drop (min scan data.length)) with
  | none => rfl
  | some found =>
    have hroom := Seq.indexOf?_add_le hi
    rw [List.length_drop] at hroom
    have hheadEnd : min scan data.length + found + terminator.length ≤ data.length := by
      have := Nat.min_le_right scan data.length
      omega
    have hword := lt_wordBound hfits (Nat.le_trans (Nat.le_add_right ..) hheadEnd)
    simp only [sum?_of_lt hword, Option.bind_some, Option.map_some]
    exact carveHeadChecked?_eq hfits hheadEnd side answersHead

end Step

end Http

end TrafficGate
