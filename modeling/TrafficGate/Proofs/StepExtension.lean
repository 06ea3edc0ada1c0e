import TrafficGate.Proofs.FirstOccurrence
/-!
  # A step that is decided stays decided

  A step looks at the bytes that are there. Once it found a message, a tunnel request or unusable
  bytes, it finds the same whatever bytes come behind: every branch reads only bytes in front of the
  place up to which it consumes.

  1. the chunked coding;
  2. bodies;
  3. the step;
  4. the place from which it searches for the end of the head.

  Main facts: **`Chunked.decode_append`**, **`Frame.resolve_append`**, **`carveFrom_append`**,
  **`carveFrom_of_quiet`** (where the search starts does not matter when no empty line starts
  before) and **`quiet_of_needMore`** (a step that waits names a place before which none starts).
-/

namespace TrafficGate.Http

/-! ## 1. The chunked coding -/

namespace Chunked

/-- What a walk makes of a chunk whose size line is there. -/
theorem walk_of_cut? {pos : Nat} {data line rest : Bytes}
    (h : Seq.cut? crlf data = some (line, rest)) :
    walk pos data =
      let size := sizeOf line
      let stop := pos + line.length + crlf.length + size
      let frame := stop + crlf.length
      let behind := rest.drop size
      let ending := behind.take crlf.length
      if Numeral.wordBound ≤ frame ∨ ending.length < crlf.length then incomplete
      else if ending ≠ crlf then malformed frame (.unendedChunk size stop)
      else if size = 0 then complete [] frame
      else addChunk (rest.take size) (walk frame (behind.drop crlf.length)) := by
  rw [walk]
  split
  · next hn => rw [h] at hn; cases hn
  · next line' rest' hs =>
    rw [h] at hs
    cases hs
    rfl

theorem addChunk_ne_incomplete {chunk : Bytes} {c : Chunked} (h : addChunk chunk c ≠ incomplete) :
    c ≠ incomplete := by
  rintro rfl
  exact h rfl

/-- The two bytes behind a chunk are there only if the whole chunk is. -/
theorem room_of_ending {size : Nat} {rest : Bytes}
    (h : ¬ ((rest.drop size).take crlf.length).length < crlf.length) :
    size + crlf.length ≤ rest.length := by
  simp only [List.length_take, List.length_drop, crlf, List.length_cons, List.length_nil] at *
  omega

/-- **A walk that ends in the bytes ends there whatever comes behind.** -/
theorem walk_append {pos : Nat} {data : Bytes} (h : walk pos data ≠ incomplete) (more : Bytes) :
    walk pos (data ++ more) = walk pos data := by
  induction hn : data.length using Nat.strongRecOn generalizing pos data with
  | _ n ih =>
    cases hcut : Seq.cut? crlf data with
    | none =>
      refine absurd ?_ h
      rw [walk]
      split
      · rfl
      · next hs => rw [hcut] at hs; cases hs
    | some parts =>
      obtain ⟨line, rest⟩ := parts
      have hshort := Seq.length_lt_of_cut? (by decide) hcut
      rw [walk_of_cut? hcut] at h ⊢
      rw [walk_of_cut? (Seq.cut?_append hcut more)]
      simp only [] at h ⊢
      by_cases hwait : Numeral.wordBound ≤
            pos + line.length + crlf.length + sizeOf line + crlf.length ∨
          ((rest.drop (sizeOf line)).take crlf.length).length < crlf.length
      · rw [if_pos hwait] at h
        exact absurd rfl h
      · rw [if_neg hwait] at h ⊢
        have hroom := room_of_ending (not_or.mp hwait).2
        -- nothing behind the line end of the chunk is looked at
        rw [List.drop_append_of_le_length (by omega),
          List.take_append_of_le_length (by rw [List.length_drop]; omega), if_neg hwait,
          List.take_append_of_le_length (by omega),
          List.drop_append_of_le_length (by rw [List.length_drop]; omega)]
        split
        · rfl
        · next hend =>
          rw [if_neg hend] at h
          split
          · rfl
          · next hsize =>
            rw [if_neg hsize] at h
            rw [ih _ _ (addChunk_ne_incomplete h) rfl]
            simp only [List.length_drop]
            omega

/-- **A coding that ends in the bytes ends there whatever comes behind.** -/
theorem decode_append {data : Bytes} (h : decode data ≠ incomplete) (more : Bytes) :
    decode (data ++ more) = decode data := walk_append h more

end Chunked

/-! ## 2. Bodies -/

namespace Frame

theorem ofChunked_ne_incomplete {c : Chunked} (h : ofChunked c ≠ incomplete) :
    c ≠ .incomplete := by
  rintro rfl
  exact h rfl

theorem ofLength_append {n : Nat} {rest : Bytes} (h : ofLength n rest ≠ incomplete)
    (more : Bytes) : ofLength n (rest ++ more) = ofLength n rest := by
  unfold ofLength at h ⊢
  by_cases hn : n = 0
  · rw [if_pos hn, if_pos hn]
  · rw [if_neg hn] at h ⊢
    rw [if_neg hn]
    by_cases hshort : (rest.drop (n - 1)).isEmpty
    · rw [if_pos hshort] at h
      exact absurd rfl h
    · have hlen : n ≤ rest.length := by
        rw [List.isEmpty_iff, List.drop_eq_nil_iff] at hshort
        omega
      have hlong : ¬ ((rest ++ more).drop (n - 1)).isEmpty := by
        rw [List.isEmpty_iff, List.drop_eq_nil_iff, List.length_append]
        omega
      rw [if_neg hshort, if_neg hlong, List.take_append_of_le_length hlen]

/-- **A body that is there is the same whatever comes behind.** -/
theorem resolve_append {head : Text} {side : Side} {status : Option Nat} {answersHead : Bool}
    {rest : Bytes} (h : resolve head side status answersHead rest ≠ incomplete) (more : Bytes) :
    resolve head side status answersHead (rest ++ more) =
      resolve head side status answersHead rest := by
  unfold resolve at h ⊢
  split
  · rfl
  · next hforbidden =>
    rw [if_neg hforbidden] at h
    split
    · next hchunked =>
      rw [if_pos hchunked] at h
      rw [Chunked.decode_append (ofChunked_ne_incomplete h)]
    · next hchunked =>
      rw [if_neg hchunked] at h
      exact ofLength_append h more

end Frame

/-! ## 3. The step -/

/-- The head that ends at `headEnd`. -/
def headAt (data : Bytes) (side : Side) (headEnd : Nat) : Text :=
  Head.decode side (data.take headEnd)

/-- What the start line of that head says. -/
def statusAt (data : Bytes) (side : Side) (headEnd : Nat) : Except Flaw (Option Nat) :=
  Head.status side (Head.startLine (headAt data side headEnd))

/-- The body behind that head. -/
def bodyAt (data : Bytes) (side : Side) (answersHead : Bool) (headEnd : Nat) : Frame :=
  Frame.resolve (headAt data side headEnd) side (Head.code? (statusAt data side headEnd))
    answersHead (data.drop (headEnd + terminator.length))

/-- The step in these terms. -/
theorem carveHead_eq (data : Bytes) (side : Side) (answersHead : Bool) (i : Nat) :
    carveHead data side answersHead i =
      if side = .request ∧ Head.opensTunnel (Head.startLine (headAt data side i)) then
        .tunnel (i + terminator.length)
      else
        match bodyAt data side answersHead i with
        | .incomplete => .needMore i
        | .misframed length flaw => .malformed (i + terminator.length + length) flaw
        | .framed body length =>
          match statusAt data side i with
          | .error flaw => .malformed (i + terminator.length + length) flaw
          | .ok status =>
            .complete { side, raw := data.take (i + terminator.length + length),
                        head := headAt data side i, body, status } := rfl

/-- What a step found when it found a message. -/
theorem carveHead_eq_complete {data : Bytes} {side : Side} {answersHead : Bool} {i : Nat}
    {m : Message} (h : carveHead data side answersHead i = .complete m) :
    ∃ body length status, bodyAt data side answersHead i = .framed body length ∧
      statusAt data side i = .ok status ∧
      m = { side, raw := data.take (i + terminator.length + length), head := headAt data side i,
            body, status } := by
  rw [carveHead_eq] at h
  split at h
  · cases h
  · cases hb : bodyAt data side answersHead i with
    | incomplete => rw [hb] at h; cases h
    | misframed length flaw => rw [hb] at h; cases h
    | framed body length =>
      rw [hb] at h
      cases hs : statusAt data side i with
      | error flaw => rw [hs] at h; cases h
      | ok status =>
        rw [hs] at h
        cases h
        exact ⟨body, length, status, rfl, rfl, rfl⟩

theorem headAt_append {data : Bytes} {i : Nat} (hi : i ≤ data.length) (more : Bytes)
    (side : Side) : headAt (data ++ more) side i = headAt data side i := by
  rw [headAt, headAt, List.take_append_of_le_length hi]

theorem statusAt_append {data : Bytes} {i : Nat} (hi : i ≤ data.length) (more : Bytes)
    (side : Side) : statusAt (data ++ more) side i = statusAt data side i := by
  rw [statusAt, statusAt, headAt_append hi]

theorem bodyAt_append {data : Bytes} {side : Side} {answersHead : Bool} {i : Nat}
    (hi : i + terminator.length ≤ data.length)
    (h : bodyAt data side answersHead i ≠ .incomplete) (more : Bytes) :
    bodyAt (data ++ more) side answersHead i = bodyAt data side answersHead i := by
  have hle : i ≤ data.length := Nat.le_trans (Nat.le_add_right _ _) hi
  rw [bodyAt, headAt_append hle, statusAt_append hle, List.drop_append_of_le_length hi]
  exact Frame.resolve_append h more

/-- A body takes no byte that is not behind its head. -/
theorem length_bodyAt_le (data : Bytes) (side : Side) (answersHead : Bool) (i : Nat) :
    (bodyAt data side answersHead i).length ≤ data.length - (i + terminator.length) := by
  have h := Frame.length_resolve_le (headAt data side i) side (Head.code? (statusAt data side i))
    answersHead (data.drop (i + terminator.length))
  rwa [List.length_drop] at h

/-- The step behind a head that was found is the same whatever comes behind. -/
theorem carveHead_append {data : Bytes} {side : Side} {answersHead : Bool} {i : Nat}
    (hi : i + terminator.length ≤ data.length)
    (hn : (carveHead data side answersHead i).isNeedMore = false) (more : Bytes) :
    carveHead (data ++ more) side answersHead i = carveHead data side answersHead i := by
  have hle : i ≤ data.length := Nat.le_trans (Nat.le_add_right _ _) hi
  have hlen := length_bodyAt_le data side answersHead i
  rw [carveHead_eq] at hn ⊢
  rw [carveHead_eq, headAt_append hle, statusAt_append hle]
  split
  · rfl
  · next htunnel =>
    rw [if_neg htunnel] at hn
    rw [bodyAt_append hi (by intro he; rw [he] at hn; cases hn)]
    cases hb : bodyAt data side answersHead i with
    | incomplete => rfl
    | misframed length flaw => rfl
    | framed body length =>
      rw [hb] at hlen
      simp only [Frame.length] at hlen
      simp only [List.take_append_of_le_length (show i + terminator.length + length ≤ data.length by
        omega)]

/-- **A step that is decided is the same whatever comes behind.** -/
theorem carveFrom_append {data : Bytes} {side : Side} {scan : Nat} {answersHead : Bool}
    (hn : (carveFrom data side scan answersHead).isNeedMore = false) (more : Bytes) :
    carveFrom (data ++ more) side scan answersHead = carveFrom data side scan answersHead := by
  unfold carveFrom at hn ⊢
  cases hf : findTerminator? data scan with
  | none => rw [hf] at hn; cases hn
  | some i =>
    rw [hf] at hn
    rw [findTerminator?_append hf]
    exact carveHead_append (findTerminator?_le hf) hn more

/-! ## 4. Where the search starts -/

/-- **Where the search starts does not matter when no empty line starts before.** -/
theorem carveFrom_of_quiet {data : Bytes} {scan : Nat}
    (h : ∀ j < scan, ¬ terminator <+: data.drop j) (side : Side) (answersHead : Bool) :
    carveFrom data side scan answersHead = carveFrom data side 0 answersHead := by
  unfold carveFrom
  rw [findTerminator?_of_quiet h]

/-- A step that waits behind its head names the end of the head. -/
theorem carveHead_eq_needMore {data : Bytes} {side : Side} {answersHead : Bool} {i k : Nat}
    (h : carveHead data side answersHead i = .needMore k) :
    k = i ∧ bodyAt data side answersHead i = .incomplete := by
  rw [carveHead_eq] at h
  split at h
  · cases h
  · cases hb : bodyAt data side answersHead i with
    | incomplete =>
      rw [hb] at h
      cases h
      exact ⟨rfl, rfl⟩
    | misframed length flaw => rw [hb] at h; cases h
    | framed body length =>
      rw [hb] at h
      simp only [] at h
      split at h <;> cases h

/-- **A step that waits names a place before which no empty line starts**, and before which none can
    start, as the bytes there are in front of others. -/
theorem quiet_of_needMore {data : Bytes} {side : Side} {scan k : Nat} {answersHead : Bool}
    (hscan : ∀ j < scan, ¬ terminator <+: data.drop j)
    (h : carveFrom data side scan answersHead = .needMore k) :
    ∀ j < k, j + terminator.length ≤ data.length ∧ ¬ terminator <+: data.drop j := by
  rw [carveFrom_of_quiet hscan] at h
  unfold carveFrom at h
  cases hf : findTerminator? data 0 with
  | none =>
    rw [hf] at h
    cases h
    intro j hj
    refine ⟨?_, findTerminator?_eq_none_iff.mp hf j (Nat.zero_le j)⟩
    simp only [terminator, List.length_cons, List.length_nil] at hj ⊢
    omega
  | some i =>
    rw [hf] at h
    obtain rfl := (carveHead_eq_needMore h).1
    obtain ⟨_, _, hbefore⟩ := findTerminator?_eq_some_iff.mp hf
    have hroom := findTerminator?_le hf
    intro j hj
    exact ⟨by omega, hbefore j (Nat.zero_le j) hj⟩

/-- A step that is decided consumes what was searched, and the empty line behind it. -/
theorem scan_le_consumed {data : Bytes} {side : Side} {scan : Nat} {answersHead : Bool}
    (hn : (carveFrom data side scan answersHead).isNeedMore = false) :
    scan ≤ (carveFrom data side scan answersHead).consumed := by
  unfold carveFrom at hn ⊢
  cases hf : findTerminator? data scan with
  | none => rw [hf] at hn; cases hn
  | some i =>
    rw [hf] at hn
    have hi := (findTerminator?_eq_some_iff.mp hf).1
    have hroom := findTerminator?_le hf
    have hlen := length_bodyAt_le data side answersHead i
    simp only [] at hn ⊢
    rw [carveHead_eq] at hn ⊢
    split
    · simp only [Carve.consumed]
      omega
    · next htunnel =>
      rw [if_neg htunnel] at hn
      cases hb : bodyAt data side answersHead i with
      | incomplete => rw [hb] at hn; cases hn
      | misframed length flaw =>
        simp only [Carve.consumed]
        omega
      | framed body length =>
        rw [hb] at hlen
        simp only [Frame.length] at hlen ⊢
        split
        · simp only [Carve.consumed]
          omega
        · simp only [Carve.consumed, List.length_take]
          omega

end TrafficGate.Http
