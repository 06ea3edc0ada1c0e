import TrafficGate.Proofs.DigitStrings
import TrafficGate.Proofs.JoinedLists
import TrafficGate.Proofs.StepExtension
/-!
  # The chunked coding as it is written

  A writer cuts a body into chunks. Each has a line with its size in hexadecimal digits, in any case
  and with any zeros in front, perhaps with an extension behind a semicolon. A chunk without data
  ends the coding. Whatever the chunks hold and whatever comes behind the coding, reading gives the
  data back and stops where the coding does.

  1. `SizeLine`, `Chunk` and `Coding`;
  2. the size that a line announces;
  3. from chunk to chunk.

  Main facts: **`sizeOf_bytes`**, **`walk_chunk`** and **`decode_bytes`**.
-/

namespace TrafficGate.Http.Chunked

/-! ## 1. Writing -/

/-- A size line: hexadecimal digits, and what stands behind them. -/
structure SizeLine where
  digits : Text
  extension : Bytes
  deriving DecidableEq, Repr

/-- The bytes of a size line. -/
def SizeLine.bytes (line : SizeLine) : Bytes := Utf8.encode line.digits ++ line.extension

/-- A line that announces a size: it has digits with that value, and behind them nothing or a
    semicolon and an extension without a line end. -/
structure SizeLine.Announces (size : Nat) (line : SizeLine) : Prop where
  digits_ne : line.digits ≠ []
  reads : Numeral.readDigits? 16 0 line.digits = some size
  marked : line.extension = [] ∨ line.extension.head? = some 59
  ends : 13 ∉ line.extension

instance (size : Nat) : DecidablePred (SizeLine.Announces size) := fun line =>
  decidable_of_iff (line.digits ≠ [] ∧ Numeral.readDigits? 16 0 line.digits = some size ∧
      (line.extension = [] ∨ line.extension.head? = some 59) ∧ 13 ∉ line.extension)
    ⟨fun ⟨hd, hr, hm, he⟩ => ⟨hd, hr, hm, he⟩, fun ⟨hd, hr, hm, he⟩ => ⟨hd, hr, hm, he⟩⟩

/-- A chunk: its size line and its data. -/
structure Chunk where
  line : SizeLine
  data : Bytes
  deriving DecidableEq, Repr

/-- The bytes of a chunk. -/
def Chunk.bytes (c : Chunk) : Bytes := c.line.bytes ++ (crlf ++ (c.data ++ crlf))

/-- The size line of a chunk announces its data. -/
def Chunk.Proper (c : Chunk) : Prop := c.line.Announces c.data.length

instance : DecidablePred Chunk.Proper := fun c =>
  inferInstanceAs (Decidable (c.line.Announces c.data.length))

/-- A coded body: chunks with data, and the size line of the chunk that has none. -/
structure Coding where
  chunks : List Chunk
  last : SizeLine
  deriving DecidableEq, Repr

namespace Coding

/-- The chunk without data. -/
def ending (c : Coding) : Chunk := { line := c.last, data := [] }

/-- The bytes of a coded body. -/
def bytes (c : Coding) : Bytes := c.chunks.flatMap Chunk.bytes ++ c.ending.bytes

/-- The body that was coded. -/
def data (c : Coding) : Bytes := c.chunks.flatMap Chunk.data

/-- Every line announces its chunk, and no chunk but the last is empty. -/
structure Proper (c : Coding) : Prop where
  chunks : ∀ chunk ∈ c.chunks, chunk.Proper ∧ chunk.data ≠ []
  last : c.ending.Proper

instance : DecidablePred Proper := fun c =>
  decidable_of_iff ((∀ chunk ∈ c.chunks, chunk.Proper ∧ chunk.data ≠ []) ∧ c.ending.Proper)
    ⟨fun ⟨hc, hl⟩ => ⟨hc, hl⟩, fun ⟨hc, hl⟩ => ⟨hc, hl⟩⟩

end Coding

/-! ## 2. Size lines -/

theorem SizeLine.Announces.not_mem {size : Nat} {line : SizeLine} (h : line.Announces size) :
    13 ∉ line.bytes := by
  intro hmem
  rcases List.mem_append.mp hmem with hmem | hmem
  · have hreturn : Latin1.char 13 ∈ line.digits := Utf8.mem_of_mem_encode (by decide) hmem
    exact Numeral.not_mem_of_readDigits? h.reads (by decide) hreturn
  · exact h.ends hmem

/-- What is read of a line up to a semicolon is its digits. -/
theorem takeWhile_line {size : Nat} {line : SizeLine} (h : line.Announces size) :
    (Utf8.decodeLossy line.bytes).takeWhile (· != ';') = line.digits := by
  have hdigits : ∀ c ∈ line.digits, (c != ';') = true := by
    intro c hc
    rw [bne_iff_ne]
    exact fun he => Numeral.not_mem_of_readDigits? h.reads (by decide) (he ▸ hc : ';' ∈ line.digits)
  rw [SizeLine.bytes, Utf8.decodeLossy_encode_append, List.takeWhile_append_of_pos hdigits]
  rcases h.marked with hnone | hmark
  · rw [hnone]
    simp [Utf8.decodeLossy]
  · obtain ⟨rest, hrest⟩ := List.head?_eq_some_iff.mp hmark
    have hsemicolon : Utf8.decodeLossy (59 :: rest) = ';' :: Utf8.decodeLossy rest :=
      Utf8.decodeLossy_encode_append [';'] rest
    rw [hrest, hsemicolon, List.takeWhile_cons_of_neg (by decide), List.append_nil]

/-- **A line is read as the size that it announces.** -/
theorem sizeOf_bytes {size : Nat} {line : SizeLine} (h : line.Announces size)
    (hsize : size < Numeral.wordBound) : sizeOf line.bytes = size := by
  simp only [sizeOf, takeWhile_line h, Numeral.trim_of_digits h.reads]
  rw [Numeral.readBase?_of_digits (by decide) h.digits_ne h.reads hsize, Option.getD_some]

/-! ## 3. From chunk to chunk -/

/-- **A walk takes a chunk, and goes on behind it** unless it is the one without data. -/
theorem walk_chunk {c : Chunk} (h : c.Proper) {pos : Nat}
    (hfits : pos + c.bytes.length < Numeral.wordBound) (rest : Bytes) :
    walk pos (c.bytes ++ rest) =
      if c.data = [] then complete [] (pos + c.bytes.length)
      else addChunk c.data (walk (pos + c.bytes.length) rest) := by
  have hlength : c.bytes.length =
      c.line.bytes.length + (crlf.length + (c.data.length + crlf.length)) := by
    simp only [Chunk.bytes, List.length_append]
  have hsize : sizeOf c.line.bytes = c.data.length := sizeOf_bytes h (by omega)
  have hdata : c.bytes ++ rest = c.line.bytes ++ (crlf ++ (c.data ++ (crlf ++ rest))) := by
    simp only [Chunk.bytes, List.append_assoc]
  have hcut : Seq.cut? crlf (c.bytes ++ rest) =
      some (c.line.bytes, c.data ++ (crlf ++ rest)) := by
    rw [hdata]
    exact Seq.cut?_of_not_mem h.not_mem _ _
  have hframe : pos + c.line.bytes.length + crlf.length + c.data.length + crlf.length =
      pos + c.bytes.length := by omega
  have hroom : ¬ (Numeral.wordBound ≤ pos + c.bytes.length ∨
      (List.take crlf.length (crlf ++ rest)).length < crlf.length) := by
    rw [List.take_left]
    omega
  rw [walk_of_cut? hcut]
  simp only [hsize, hframe, List.drop_left, List.take_left, List.length_eq_zero_iff] at hroom ⊢
  rw [if_neg hroom, if_neg (fun hne => hne rfl)]

/-- Reading the chunks of a coding from any position. -/
theorem walk_chunks {chunks : List Chunk} {ending : Chunk}
    (hchunks : ∀ c ∈ chunks, c.Proper ∧ c.data ≠ []) (hending : ending.Proper)
    (hnone : ending.data = []) {pos : Nat}
    (hfits : pos + (chunks.flatMap Chunk.bytes ++ ending.bytes).length < Numeral.wordBound)
    (rest : Bytes) :
    walk pos (chunks.flatMap Chunk.bytes ++ ending.bytes ++ rest) =
      complete (chunks.flatMap Chunk.data)
        (pos + (chunks.flatMap Chunk.bytes ++ ending.bytes).length) := by
  induction chunks generalizing pos with
  | nil =>
    rw [List.flatMap_nil, List.nil_append] at hfits ⊢
    rw [walk_chunk hending hfits, if_pos hnone]
    rfl
  | cons c chunks ih =>
    obtain ⟨⟨hc, hne⟩, hrest⟩ := List.forall_mem_cons.mp hchunks
    have hsplit : ∀ behind : Bytes, (c :: chunks).flatMap Chunk.bytes ++ behind =
        c.bytes ++ (chunks.flatMap Chunk.bytes ++ behind) := fun behind => by
      rw [List.flatMap_cons, List.append_assoc]
    have hlength : pos + ((c :: chunks).flatMap Chunk.bytes ++ ending.bytes).length =
        pos + c.bytes.length + (chunks.flatMap Chunk.bytes ++ ending.bytes).length := by
      rw [hsplit, List.length_append, Nat.add_assoc]
    rw [hlength] at hfits ⊢
    rw [hsplit, List.append_assoc c.bytes, walk_chunk hc (by omega), if_neg hne, ih hrest hfits,
      addChunk, List.flatMap_cons]

/-- **A coding is read back, whatever comes behind it**: the data of its chunks, and its own length
    as the extent. As any bytes in memory the coding is shorter than 2^64. -/
theorem decode_bytes {c : Coding} (h : c.Proper) (hfits : c.bytes.length < Numeral.wordBound)
    (rest : Bytes) : decode (c.bytes ++ rest) = complete c.data c.bytes.length := by
  have hwalk := walk_chunks h.chunks h.last rfl (by rw [Nat.zero_add]; exact hfits) rest
  rwa [Nat.zero_add] at hwalk

end TrafficGate.Http.Chunked
