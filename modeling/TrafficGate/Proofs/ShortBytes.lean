import TrafficGate.Proofs.Absorption
/-!
  # Bytes too short for a message

  The few bytes that are kept while the next message is searched are carved as any others are. They
  have no room for a start line, so they complete no message: what stands in front of an empty line is
  passed over, and the rest waits.

  1. the lengths of the parts of a text;
  2. start lines and heads that are too short;
  3. one step, and all steps.

  Main facts: **`carveFrom_short`** and **`carveAll_short`**.
-/

namespace TrafficGate

/-! ## 1. Parts -/

theorem Seq.length_le_of_mem_pieces {α : Type} [DecidableEq α] {pat l p : List α}
    (h : p ∈ pieces pat l) : p.length ≤ l.length := by
  fun_induction pieces pat l with
  | case1 l => exact Nat.le_of_eq (congrArg List.length (List.mem_singleton.mp h))
  | case2 l hpat hnone => exact Nat.le_of_eq (congrArg List.length (List.mem_singleton.mp h))
  | case3 l hpat before after hcut ih =>
    have hparts := congrArg List.length (cut?_eq_some hcut)
    simp only [List.length_append] at hparts
    rcases List.mem_cons.mp h with rfl | h
    · omega
    · have hafter := ih h
      omega

theorem Seq.length_of_stripStart? {α : Type} [DecidableEq α] {pre l rest : List α}
    (h : stripStart? pre l = some rest) : rest.length + pre.length = l.length := by
  rw [stripStart?_eq_some_iff.mp h, List.length_append, Nat.add_comm]

theorem Ascii.length_of_sameWord {s t : Text} (h : sameWord s t = true) : s.length = t.length := by
  rw [← length_lower s, ← length_lower t, eq_of_beq h]

/-- A text has no more characters than its bytes are. -/
theorem Utf8.length_decodeLossy_le (bs : Bytes) : (decodeLossy bs).length ≤ bs.length := by
  fun_induction decodeLossy bs with
  | case1 => exact Nat.le_refl 0
  | case2 a rest c? left hfirst ih =>
    have hleft : left.length ≤ rest.length := by
      simpa only [hfirst] using length_decodeFirst_le a rest
    simp only [List.length_cons]
    omega

namespace Http

namespace Head

theorem length_decode_le (side : Side) (bs : Bytes) : (decode side bs).length ≤ bs.length := by
  cases side with
  | request => exact Utf8.length_decodeLossy_le bs
  | response => exact Nat.le_of_eq (length_decode_response bs)

theorem length_startLine_le (head : Text) : (startLine head).length ≤ head.length := by
  unfold startLine
  split
  · next line rest hcut =>
    have hparts := congrArg List.length (Seq.cut?_eq_some hcut)
    simp only [List.length_append] at hparts
    have hline : (dropReturn line).length ≤ line.length := by
      unfold dropReturn
      cases hstrip : Seq.stripEnd? ['\r'] line with
      | none => exact Nat.le_refl _
      | some front =>
        obtain rfl := Seq.stripEnd?_eq_some_iff.mp hstrip
        exact (List.prefix_append front ['\r']).length_le
    omega
  · exact Nat.le_refl _

/-- A name of a field is no longer than the head. -/
theorem length_name_le {head : Text} {f : Field} (h : f ∈ fields head) :
    f.name.length ≤ head.length := by
  obtain ⟨line, hline, hfield⟩ := List.mem_filterMap.mp h
  have hlength := Seq.length_le_of_mem_pieces (List.mem_of_mem_drop hline)
  obtain ⟨cut, hcut, rfl⟩ := Option.map_eq_some_iff.mp hfield
  have hparts := congrArg List.length (Seq.cut?_eq_some hcut)
  simp only [List.length_append] at hparts
  have hname := (Text.trim_sublist cut.1).length_le
  show (Text.trim cut.1).length ≤ _
  omega

theorem find?_of_short {name head : Text} (h : head.length < name.length) :
    find? name head = none := by
  rw [find?, Option.map_eq_none_iff, List.find?_eq_none]
  intro f hf hsame
  have hlength := length_name_le hf
  rw [Ascii.length_of_sameWord hsame] at hlength
  omega

theorem contentLength_of_short {head : Text} (h : head.length < 14) : contentLength head = 0 := by
  rw [contentLength, find?_of_short h]
  rfl

theorem isChunked_of_short {head : Text} (h : head.length < 17) : isChunked head = false := by
  rw [isChunked, List.any_eq_false]
  intro f hf hchunked
  rw [Bool.and_eq_true] at hchunked
  have hlength := length_name_le hf
  rw [Ascii.length_of_sameWord hchunked.1] at hlength
  exact absurd (Nat.lt_of_le_of_lt hlength h) (by decide)

end Head

/-! ## 2. Short heads -/

namespace StatusLine

/-- The word in front of the first space is no longer than the text, and what is behind is shorter. -/
theorem length_cutSpace_le (t : Text) : (cutSpace t).1.length ≤ t.length ∧
    ∀ rest, (cutSpace t).2 = some rest → rest.length + 1 ≤ t.length := by
  unfold cutSpace
  cases hcut : Seq.cut? [' '] t with
  | none => exact ⟨Nat.le_refl _, nofun⟩
  | some parts =>
    have hparts := congrArg List.length (Seq.cut?_eq_some hcut)
    simp only [List.length_append, List.length_singleton] at hparts
    refine ⟨?_, fun rest hrest => ?_⟩
    · show parts.1.length ≤ _
      omega
    · cases hrest
      omega

theorem length_of_code? {word : Text} {code : Nat} (h : code? word = some code) :
    word.length = 3 := by
  unfold code? at h
  split at h
  · next hlength => exact hlength
  · cases h

/-- A status line has room for the version, a space and the code. -/
theorem length_of_parse {line : Text} {s : StatusLine} (h : parse line = .ok s) :
    9 ≤ line.length := by
  unfold parse at h
  split at h
  · cases h
  · next rest hrest =>
    split at h
    · cases h
    · next after hafter =>
      simp only [] at h
      split at h
      · cases h
      · next code hcode =>
        have hversion := Seq.length_of_stripStart? hrest
        have hspace := (length_cutSpace_le rest).2 after hafter
        have hword := (length_cutSpace_le after).1
        rw [length_of_code? hcode] at hword
        change rest.length + 5 = line.length at hversion
        omega

end StatusLine

/-- A request line has room for the version. -/
theorem RequestLine.length_of_parse {line : Text} {r : RequestLine} (h : parse line = .ok r) :
    5 ≤ line.length := by
  have hversion : "HTTP/".toList.isPrefixOf (word 2 line) = true := by
    unfold parse at h
    simp only [] at h
    split at h
    · cases h
    · split at h
      · cases h
      · split at h
        · cases h
        · next hversion => simpa using hversion
  have hlong : 5 ≤ (word 2 line).length := (List.isPrefixOf_iff_prefix.mp hversion).length_le
  have hword : (word 2 line).length ≤ line.length := by
    unfold word
    cases hpiece : (Seq.pieces [' '] line)[2]? with
    | none => exact Nat.zero_le _
    | some piece => exact Seq.length_le_of_mem_pieces (List.mem_of_getElem? hpiece)
  exact Nat.le_trans hlong hword

namespace Head

variable {side : Side} {line : Text}

/-- Four characters are no start line. -/
theorem status_of_short (h : line.length ≤ 4) : ∃ flaw, status side line = .error flaw := by
  cases side with
  | request =>
    unfold status
    cases hp : RequestLine.parse line with
    | error flaw => exact ⟨flaw, rfl⟩
    | ok r =>
      have hparse := RequestLine.length_of_parse hp
      omega
  | response =>
    unfold status
    cases hp : StatusLine.parse line with
    | error flaw => exact ⟨flaw, rfl⟩
    | ok s =>
      have hparse := StatusLine.length_of_parse hp
      omega

theorem opensTunnel_of_short (h : line.length ≤ 4) : opensTunnel line = false := by
  rw [← Bool.not_eq_true]
  intro htunnel
  have hlength := Ascii.length_of_sameWord htunnel
  rw [List.length_take, Nat.min_eq_right (by omega)] at hlength
  exact absurd (hlength ▸ h) (by decide)

end Head

/-! ## 3. Short bytes -/

/-- **Bytes too short for a message wait, or are passed over** up to the end of an empty line. -/
theorem carveFrom_short {side : Side} {data : Bytes} (hlen : data.length ≤ openingLength)
    (answersHead : Bool) :
    (∃ k, findTerminator? data 0 = none ∧ carveFrom data side 0 answersHead = .needMore k) ∨
      ∃ i flaw, findTerminator? data 0 = some i ∧
        carveFrom data side 0 answersHead = .malformed (i + terminator.length) flaw := by
  unfold carveFrom
  cases hi : findTerminator? data 0 with
  | none => exact .inl ⟨_, rfl, rfl⟩
  | some i =>
    have hroom := findTerminator?_le hi
    have hhead : (Head.decode side (data.take i)).length ≤ 4 := by
      refine Nat.le_trans (Head.length_decode_le side _) ?_
      simp only [openingLength, terminator, List.length_take, List.length_cons,
        List.length_nil] at *
      omega
    have hline := Nat.le_trans (Head.length_startLine_le (Head.decode side (data.take i))) hhead
    obtain ⟨flaw, hflaw⟩ : ∃ flaw, Head.status side
        (Head.startLine (Head.decode side (data.take i))) = .error flaw :=
      Head.status_of_short hline
    have htunnel := Head.opensTunnel_of_short hline
    refine .inr ⟨i, flaw, rfl, ?_⟩
    have hplain := Head.isChunked_of_short (Nat.lt_of_le_of_lt hhead (by decide))
    have hlength := Head.contentLength_of_short (Nat.lt_of_le_of_lt hhead (by decide))
    simp [carveHead, htunnel, hflaw, Head.code?, Frame.resolve, Frame.isForbidden, hplain, hlength,
      Frame.ofLength]

/-- The bytes up to the end of an empty line end with it. -/
theorem take_findTerminator? {data : Bytes} {i : Nat} (h : findTerminator? data 0 = some i) :
    data.take (i + terminator.length) = data.take i ++ terminator := by
  have hat := (findTerminator?_eq_some_iff.mp h).2.1
  rw [List.take_add, ← List.prefix_iff_eq_take.mp hat]

end Http

namespace Stream

open Http

/-- **Carving few bytes gives no message**, and leaves all of them, or those behind an empty line. -/
theorem Accumulator.carveAll_short {a : Accumulator} (ha : a.Searched)
    (hlen : a.unparsed.length ≤ openingLength) (side : Side) (answersHead : Nat → Bool) :
    ∃ n ≤ a.unparsed.length, (a.carveAll side answersHead).2.unparsed = a.unparsed.drop n ∧
      (n = 0 ∨ terminator <:+ a.unparsed.take n) ∧
      findTerminator? (a.carveAll side answersHead).2.unparsed 0 = none ∧
      Buffer.reported (a.carveAll side answersHead).1 = [] := by
  induction answersHead, a using carve_induction side with
  | waits answersHead a k hk =>
    rcases carveFrom_short hlen (decide (side = .response) && answersHead 0) with
      ⟨_, hnone, _⟩ | ⟨i, flaw, _, hmalformed⟩
    · rw [carveAll_of_none hk]
      exact ⟨0, Nat.zero_le _, rfl, .inl rfl, hnone, rfl⟩
    · rw [ha.step_eq, hmalformed] at hk
      cases hk
  | piece answersHead a p hp ih =>
    rcases carveFrom_short hlen (decide (side = .response) && answersHead 0) with
      ⟨k, _, hk⟩ | ⟨i, flaw, hi, hmalformed⟩
    · rw [ha.step_eq, hk] at hp
      cases hp
    · have hstep : a.step side answersHead 0 = .malformed (i + terminator.length) flaw :=
        (ha.step_eq side answersHead 0).trans hmalformed
      have hroom := findTerminator?_le hi
      have hshort : (a.skip (i + terminator.length)).unparsed.length ≤ openingLength := by
        rw [unparsed_skip, List.length_drop]
        omega
      rw [hstep] at ih hp
      cases hp
      obtain ⟨n, hn, hafter, hend, hnone, hnothing⟩ := ih (ha.skip _) hshort
      have hroom' : n ≤ a.unparsed.length - (i + terminator.length) := by
        rw [← List.length_drop]
        exact hn
      rw [carveAll_of_some (p := .skipped _ _) (by rw [hstep]; rfl), hstep]
      refine ⟨i + terminator.length + n, by omega, ?_, .inr ?_, hnone, hnothing⟩
      · rw [← List.drop_drop]
        exact hafter
      · rw [List.take_add]
        rcases hend with rfl | hend
        · rw [List.take_zero, List.append_nil, take_findTerminator? hi]
          exact List.suffix_append _ _
        · exact hend.trans (List.suffix_append _ _)

end Stream

end TrafficGate
