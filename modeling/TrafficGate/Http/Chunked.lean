import TrafficGate.Http.Head
/-!
  # The chunked coding

  A body cut into chunks, each behind a line with its size: `decode` finds the end of the coding and
  puts the chunks together.

  1. `sizeOf` -- the size that a line announces;
  2. `walk` and `decode` -- from chunk to chunk;
  3. what a result says about the bytes it used.

  A size line that is no hexadecimal number counts as the last chunk. The last chunk has no data and
  an empty line behind it; trailer fields are not read.

  Main fact: **`consumed_decode_le`** (a result uses no byte that is not there).
-/

namespace TrafficGate.Http

/-- What the bytes at the start of a chunked body are. -/
inductive Chunked where
  /-- The coding ends after `consumed` bytes; its chunks make the body. -/
  | complete (body : Bytes) (consumed : Nat)
  /-- The coding does not end in these bytes. -/
  | incomplete
  /-- The first `consumed` bytes end in a chunk without a line end behind it. -/
  | malformed (consumed : Nat) (flaw : Flaw)
  deriving DecidableEq, Repr

namespace Chunked

/-! ## 1. Sizes -/

/-- The size that a line announces: a hexadecimal number before any semicolon. A line that has
    none, or one of 2^64 or more, announces zero. -/
def sizeOf (line : Bytes) : Nat :=
  let t := (Utf8.decodeLossy line).takeWhile (· != ';')
  (Numeral.readBase? 16 Numeral.wordBound (Text.trim t)).getD 0

/-! ## 2. From chunk to chunk -/

/-- The result with a chunk put in front of its body. -/
def addChunk (chunk : Bytes) : Chunked → Chunked
  | complete body consumed => complete (chunk ++ body) consumed
  | incomplete => incomplete
  | malformed consumed flaw => malformed consumed flaw

/-- Goes on with the chunk that starts at `data`, with `pos` bytes of the coding before it. -/
def walk (pos : Nat) (data : Bytes) : Chunked :=
  match _h : Seq.cut? crlf data with
  | none => incomplete
  | some (line, rest) =>
    let size := sizeOf line
    let stop := pos + line.length + crlf.length + size
    let frame := stop + crlf.length
    let behind := rest.drop size
    let ending := behind.take crlf.length
    if Numeral.wordBound ≤ frame ∨ ending.length < crlf.length then incomplete
    else if ending ≠ crlf then malformed frame (.unendedChunk size stop)
    else if size = 0 then complete [] frame
    else addChunk (rest.take size) (walk frame (behind.drop crlf.length))
termination_by data.length
decreasing_by
  have := Seq.length_lt_of_cut? (by decide) _h
  simp only [List.length_drop]
  omega

/-- Reads the chunked body at the start of the bytes. -/
def decode (data : Bytes) : Chunked := walk 0 data

/-! ## 3. What was used -/

/-- How many bytes a result used. -/
def consumed : Chunked → Nat
  | complete _ n => n
  | incomplete => 0
  | malformed n _ => n

@[simp] theorem consumed_addChunk (chunk : Bytes) (c : Chunked) :
    (addChunk chunk c).consumed = c.consumed := by
  cases c <;> rfl

/-- A walk from `pos` uses nothing beyond the `data` behind it. -/
theorem consumed_walk_le (pos : Nat) (data : Bytes) :
    (walk pos data).consumed ≤ pos + data.length := by
  fun_induction walk pos data with
  | case1 => exact Nat.zero_le _
  | case2 => exact Nat.zero_le _
  | case3 pos data line rest h size stop frame behind ending hroom _ =>
    have := congrArg List.length (Seq.cut?_eq_some h)
    simp only [List.length_append, List.length_take, List.length_drop, consumed, ending, behind,
      frame, stop, crlf, List.length_cons, List.length_nil] at *
    omega
  | case4 pos data line rest h size stop frame behind ending hroom _ =>
    have := congrArg List.length (Seq.cut?_eq_some h)
    simp only [List.length_append, List.length_take, List.length_drop, consumed, ending, behind,
      frame, stop, crlf, List.length_cons, List.length_nil] at *
    omega
  | case5 pos data line rest h size stop frame behind ending hroom _ _ ih =>
    have := congrArg List.length (Seq.cut?_eq_some h)
    rw [consumed_addChunk]
    simp only [List.length_append, List.length_take, List.length_drop, ending, behind, frame, stop,
      crlf, List.length_cons, List.length_nil] at *
    omega

/-- **Decoding uses no byte that is not there.** -/
theorem consumed_decode_le (data : Bytes) : (decode data).consumed ≤ data.length := by
  have := consumed_walk_le 0 data
  rwa [Nat.zero_add] at this

end Chunked

end TrafficGate.Http
