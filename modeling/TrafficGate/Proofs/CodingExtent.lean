import TrafficGate.Proofs.ChunkedCoding
import TrafficGate.Proofs.Veils
/-!
  # How far a chunked coding reaches

  Reading a chunked body either waits for more bytes or gives a result, and the result says how many
  bytes it is about. Exactly these decide it: whatever comes behind them the result is the same, and
  while one of them is missing there is none.

  1. `Extent` -- the bytes that decide a walk;
  2. the chunk at which a walk ends, and a chunk behind which it goes on;
  3. every walk that ends, and every coding that is written.

  Main facts: **`Extent.frame`**, **`exists_extent`** and **`decode_exact`**.
-/

namespace TrafficGate.Http.Chunked

/-! ## 1. The bytes that decide a walk -/

/-- The bytes decide what a walk from `pos` gives: the result is about them and no others, it is the
    same whatever comes behind them, and in front of the last of them the walk waits. -/
structure Extent (pos : Nat) (bytes : Bytes) (result : Chunked) : Prop where
  consumed : result.consumed = pos + bytes.length
  decided : ∀ more, walk pos (bytes ++ more) = result
  waits : ∀ part, part <+: bytes → part ≠ bytes → walk pos part = incomplete

/-! ## 2. One chunk -/

/-- The bytes of a chunk that is there: its size line, its data, and the two bytes behind. -/
def frameOf (line chunk ending : Bytes) : Bytes := line ++ crlf ++ (chunk ++ ending)

section Chunk

variable {pos : Nat} {data line chunk ending behind : Bytes}

theorem length_frameOf (h : There pos line chunk ending) :
    pos + (frameOf line chunk ending).length =
      pos + line.length + crlf.length + sizeOf line + crlf.length := by
  have hchunk := h.chunk
  have hending := h.ending
  simp only [frameOf, List.length_append]
  omega

theorem cut?_frameOf (hcut : Seq.cut? crlf data = some (line, chunk ++ (ending ++ behind)))
    (more : Bytes) :
    Seq.cut? crlf (frameOf line chunk ending ++ more) = some (line, chunk ++ (ending ++ more)) := by
  have hfront := Seq.cut?_front hcut (chunk ++ (ending ++ more))
  rwa [← List.append_assoc chunk, ← List.append_assoc (line ++ crlf), List.append_assoc chunk]
    at hfront

/-- **In front of the end of a chunk a walk waits.** -/
theorem walk_of_part (hcut : Seq.cut? crlf data = some (line, chunk ++ (ending ++ behind)))
    (h : There pos line chunk ending) {part : Bytes} (hpart : part <+: frameOf line chunk ending)
    (hne : part ≠ frameOf line chunk ending) : walk pos part = incomplete := by
  cases hcut' : Seq.cut? crlf part with
  | none => exact walk_of_cut?_none hcut'
  | some parts =>
    obtain ⟨line', rest⟩ := parts
    obtain ⟨more, hmore⟩ := hpart
    -- the size line is the same, and some of what stands behind it is missing
    have hframe := cut?_frameOf hcut []
    rw [List.append_nil, List.append_nil, ← hmore, Seq.cut?_append hcut' more] at hframe
    obtain ⟨rfl, hrest⟩ := Prod.mk.inj (Option.some.inj hframe)
    have hmissing : 0 < more.length := by
      rw [List.length_pos_iff]
      rintro rfl
      exact hne (by rw [← hmore, List.append_nil])
    have hlength := congrArg List.length hrest
    have hchunk := h.chunk
    have hending := h.ending
    simp only [List.length_append] at hlength
    exact walk_of_waits hcut' (.inr (by omega))

/-- **A chunk at which a walk ends decides it.** -/
theorem extent_frameOf (hcut : Seq.cut? crlf data = some (line, chunk ++ (ending ++ behind)))
    (h : There pos line chunk ending) (hend : ending ≠ crlf ∨ sizeOf line = 0) :
    Extent pos (frameOf line chunk ending) (walk pos data) where
  consumed := by
    rw [walk_of_there hcut h, length_frameOf h]
    simp only []
    split
    · rfl
    · next hcrlf =>
      rw [if_pos (hend.resolve_left hcrlf)]
      rfl
  decided more := by
    rw [walk_of_there (cut?_frameOf hcut more) h, walk_of_there hcut h]
    simp only []
    split
    · rfl
    · next hcrlf => rw [if_pos (hend.resolve_left hcrlf), if_pos (hend.resolve_left hcrlf)]
  waits _ := walk_of_part hcut h

/-- **A chunk behind which a walk goes on** stands in front of what decides the rest. -/
theorem Extent.frame {bytes : Bytes} {result : Chunked}
    (hrest : Extent (pos + (frameOf line chunk crlf).length) bytes result)
    (hcut : Seq.cut? crlf data = some (line, chunk ++ (crlf ++ behind)))
    (h : There pos line chunk crlf) (hsize : sizeOf line ≠ 0) :
    Extent pos (frameOf line chunk crlf ++ bytes) (addChunk chunk result) := by
  have hwalk (rest : Bytes) : walk pos (frameOf line chunk crlf ++ rest) =
      addChunk chunk (walk (pos + (frameOf line chunk crlf).length) rest) := by
    rw [walk_of_there (cut?_frameOf hcut rest) h, length_frameOf h]
    simp only [ne_eq, not_true_eq_false, if_false, if_neg hsize]
  refine { consumed := ?_, decided := fun more => ?_, waits := fun part hpart hne => ?_ }
  · rw [consumed_addChunk, hrest.consumed, List.length_append, Nat.add_assoc]
  · rw [List.append_assoc, hwalk, hrest.decided]
  · by_cases hbehind : frameOf line chunk crlf <+: part
    · obtain ⟨rest, rfl⟩ := hbehind
      have hrest' : rest <+: bytes := (List.prefix_append_right_inj _).mp hpart
      rw [hwalk, hrest.waits rest hrest' fun he => hne (by rw [he])]
      rfl
    · have hin := (List.prefix_or_prefix_of_prefix hpart (List.prefix_append _ _)).resolve_right
        hbehind
      exact walk_of_part hcut h hin fun he => hbehind (he ▸ List.prefix_refl _)

end Chunk

/-! ## 3. Every walk -/

/-- **A walk that ends is decided by bytes at its start.** -/
theorem exists_extent {pos : Nat} {data : Bytes} (h : walk pos data ≠ incomplete) :
    ∃ bytes, bytes <+: data ∧ Extent pos bytes (walk pos data) := by
  induction hn : data.length using Nat.strongRecOn generalizing pos data with
  | _ n ih =>
    cases hcut : Seq.cut? crlf data with
    | none => exact absurd (walk_of_cut?_none hcut) h
    | some parts =>
      obtain ⟨line, rest⟩ := parts
      have hshort := Seq.length_lt_of_cut? (by decide) hcut
      rcases waits_or_there pos line rest with hwaits | ⟨chunk, ending, behind, rfl, hthere⟩
      · exact absurd (walk_of_waits hcut hwaits) h
      · have hdata : data = frameOf line chunk ending ++ behind := by
          rw [Seq.cut?_eq_some hcut, frameOf]
          simp only [List.append_assoc]
        by_cases hend : ending ≠ crlf ∨ sizeOf line = 0
        · exact ⟨_, hdata ▸ List.prefix_append _ _, extent_frameOf hcut hthere hend⟩
        · obtain ⟨hcrlf, hsize⟩ := not_or.mp hend
          obtain rfl := Classical.not_not.mp hcrlf
          have hwalk : walk pos data =
              addChunk chunk (walk (pos + (frameOf line chunk crlf).length) behind) := by
            rw [walk_of_there hcut hthere, length_frameOf hthere]
            simp only [ne_eq, not_true_eq_false, if_false, if_neg hsize]
          rw [hwalk] at h ⊢
          simp only [List.length_append] at hshort
          obtain ⟨bytes, hbytes, hextent⟩ :=
            ih behind.length (by omega) (addChunk_ne_incomplete h) rfl
          refine ⟨_, ?_, hextent.frame hcut hthere hsize⟩
          rw [hdata]
          exact (List.prefix_append_right_inj _).mpr hbytes

/-- **Reading a chunked body is exact.** A coding as it is written gives its data, and its own length
    as the extent, whatever comes behind it. And any bytes that give a result, be it a body or a
    flaw, hold the bytes that it is about; these give it whatever comes behind them, and less of them
    gives nothing yet. -/
theorem decode_exact :
    (∀ c : Coding, c.Proper → c.bytes.length < Numeral.wordBound →
      ∀ rest, decode (c.bytes ++ rest) = complete c.data c.bytes.length) ∧
    ∀ data, decode data ≠ incomplete →
      (decode data).consumed ≤ data.length ∧
      (∀ more, decode (data.take (decode data).consumed ++ more) = decode data) ∧
      ∀ part, part <+: data.take (decode data).consumed →
        part ≠ data.take (decode data).consumed → decode part = incomplete := by
  refine ⟨fun c hc hfits rest => decode_bytes hc hfits rest, fun data h => ?_⟩
  obtain ⟨bytes, ⟨rest, hdata⟩, hextent⟩ := exists_extent h
  have htake : data.take (decode data).consumed = bytes := by
    have hlength := hextent.consumed
    rw [Nat.zero_add] at hlength
    rw [decode, hlength, ← hdata, List.take_left]
  refine ⟨consumed_decode_le data, ?_, ?_⟩
  · rw [htake]
    exact hextent.decided
  · rw [htake]
    exact hextent.waits

/-- Eleven bytes that look like the end of a coding, and one more; the second size line has an
    extension that is not text. -/
def twoChunks : Coding where
  chunks := [⟨⟨"000B".toList, []⟩, Utf8.encode "a\r\n0\r\n\r\n0\r\n".toList⟩,
    ⟨⟨['1'], [59, 0xFF, 59]⟩, [0]⟩]
  last := ⟨"00".toList, Utf8.encode ";last".toList⟩

/-- A chunk of four bytes without a line end behind it. -/
def unended : Bytes := Utf8.encode "4\r\nWikiXY5\r\npedia\r\n0\r\n\r\n".toList

/-- Two chunks are read back, and a chunk that does not end is a flaw from its last byte on. -/
theorem decode_exact_two_chunks :
    twoChunks.Proper ∧ decode (twoChunks.bytes ++ unended) =
        complete (Utf8.encode "a\r\n0\r\n\r\n0\r\n".toList ++ [0]) 39 ∧
      decode unended = malformed 9 (.unendedChunk 4 7) ∧
      decode (unended.take 9 ++ crlf) = malformed 9 (.unendedChunk 4 7) ∧
      decode (unended.take 8) = incomplete := by
  have hproper : twoChunks.Proper := by decide +kernel
  have hread := decode_exact.1 twoChunks hproper (by decide +kernel) unended
  have hflaw : decode unended = malformed 9 (.unendedChunk 4 7) := by decide +kernel
  obtain ⟨_, hmore, hpart⟩ := decode_exact.2 unended (by rw [hflaw]; exact nofun)
  rw [hflaw] at hmore hpart
  refine ⟨hproper, ?_, hflaw, hmore crlf, hpart _ ?_ ?_⟩
  · rw [hread]
    decide +kernel
  · exact List.take_prefix_take_left (by decide)
  · decide +kernel

end TrafficGate.Http.Chunked
