import Mathlib.Data.List.Forall2
import TrafficGate.Proofs.StepExtension
/-!
  # What is read of a body

  A body is delimited, and none of its bytes is looked at. A veil over the bytes hides those that are
  delimited as a body: the ones that a declared length covers, and the data of chunks, but not their
  size lines and line ends. Any other bytes under the same veil are framed alike, but for the body
  itself.

  1. `Veil` -- bytes some of which are hidden; bytes that fit, what is hidden, and what it lies on;
  2. the veil of a chunked coding;
  3. the veil of a body.

  Main facts: **`Chunked.walk_of_fits`**, **`Frame.resolve_of_fits`** and **`Frame.covered_of_framed`**
  (what the veil of a body hides is the body).
-/

namespace TrafficGate.Http

/-! ## 1. Veils -/

/-- Bytes of which some are hidden. -/
abbrev Veil := List (Option UInt8)

/-- All bytes. -/
def shown (bs : Bytes) : Veil := bs.map some

/-- No bytes but their number. -/
def hidden (bs : Bytes) : Veil := bs.map fun _ => none

/-- Bytes fit a veil when they are those that it shows, and as many as it shows and hides. -/
def Fits (v : Veil) (bs : Bytes) : Prop := List.Forall₂ (fun place b => ∀ x ∈ place, x = b) v bs

instance (v : Veil) (bs : Bytes) : Decidable (Fits v bs) :=
  inferInstanceAs (Decidable (List.Forall₂ _ v bs))

@[simp] theorem length_shown (bs : Bytes) : (shown bs).length = bs.length := List.length_map _

@[simp] theorem length_hidden (bs : Bytes) : (hidden bs).length = bs.length := List.length_map _

theorem Fits.length_eq {v : Veil} {bs : Bytes} (h : Fits v bs) : bs.length = v.length :=
  (List.Forall₂.length_eq h).symm

theorem eq_of_fits_shown {bs : Bytes} {u : Bytes} (h : Fits (shown bs) u) : u = bs := by
  rw [Fits, shown, List.forall₂_map_left_iff] at h
  simp only [Option.mem_some_iff, forall_eq', List.forall₂_eq_eq_eq] at h
  exact h.symm

/-- What fits a veil of two parts has a part for each. -/
theorem Fits.split {v w : Veil} {bs : Bytes} (h : Fits (v ++ w) bs) :
    ∃ x y, bs = x ++ y ∧ Fits v x ∧ Fits w y := by
  refine ⟨bs.take v.length, bs.drop v.length, (List.take_append_drop _ _).symm, ?_, ?_⟩
  · have hfront := List.forall₂_take v.length h
    rwa [List.take_left] at hfront
  · have hback := List.forall₂_drop v.length h
    rwa [List.drop_left] at hback

/-- What fits a veil that shows its front begins with that. -/
theorem Fits.behind {bs : Bytes} {w : Veil} {u : Bytes} (h : Fits (shown bs ++ w) u) :
    ∃ y, u = bs ++ y ∧ Fits w y := by
  obtain ⟨x, y, rfl, hx, hy⟩ := h.split
  exact ⟨y, by rw [eq_of_fits_shown hx], hy⟩

theorem fits_shown (bs : Bytes) : Fits (shown bs) bs := by
  rw [Fits, shown, List.forall₂_map_left_iff, List.forall₂_same]
  exact fun b _ x hx => (Option.mem_some_iff.mp hx).symm

theorem fits_hidden (bs : Bytes) : Fits (hidden bs) bs := by
  rw [Fits, hidden, List.forall₂_map_left_iff, List.forall₂_same]
  exact fun b _ x hx => nomatch hx

theorem Fits.append {v w : Veil} {x y : Bytes} (h : Fits v x) (h' : Fits w y) :
    Fits (v ++ w) (x ++ y) := List.rel_append h h'

/-- A veil over the front of the bytes. -/
def LiesOn (v : Veil) (bs : Bytes) : Prop := ∃ x y, bs = x ++ y ∧ Fits v x

theorem LiesOn.behind {v w : Veil} {x bs : Bytes} (h : Fits v x) (h' : LiesOn w bs) :
    LiesOn (v ++ w) (x ++ bs) := by
  obtain ⟨y, z, rfl, hy⟩ := h'
  exact ⟨x ++ y, z, (List.append_assoc ..).symm, h.append hy⟩

theorem liesOn_nil (bs : Bytes) : LiesOn [] bs := ⟨[], bs, rfl, .nil⟩

theorem Fits.liesOn {v : Veil} {bs : Bytes} (h : Fits v bs) : LiesOn v bs :=
  ⟨bs, [], (List.append_nil bs).symm, h⟩

/-- The bytes at the places that a veil hides. -/
def covered : Veil → Bytes → Bytes
  | none :: v, b :: bs => b :: covered v bs
  | some _ :: v, _ :: bs => covered v bs
  | [], _ => []
  | _ :: _, [] => []

theorem covered_nil (bs : Bytes) : covered [] bs = [] := by cases bs <;> rfl

theorem covered_shown (x : Bytes) (v : Veil) (bs : Bytes) :
    covered (shown x ++ v) (x ++ bs) = covered v bs := by
  induction x with
  | nil => rfl
  | cons b x ih => exact ih

theorem covered_hidden (x : Bytes) (v : Veil) (bs : Bytes) :
    covered (hidden x ++ v) (x ++ bs) = x ++ covered v bs := by
  induction x with
  | nil => rfl
  | cons b x ih => exact congrArg (b :: ·) ih

/-! ## 2. The chunked coding -/

namespace Chunked

/-- A result without the body. -/
def bare : Chunked → Chunked
  | complete _ consumed => complete [] consumed
  | incomplete => incomplete
  | malformed consumed flaw => malformed consumed flaw

theorem bare_addChunk (chunk : Bytes) (c : Chunked) : (addChunk chunk c).bare = c.bare := by
  cases c <;> rfl

/-- How many of `present` bytes a result is about: all when the coding does not end in them. -/
def reach (present : Nat) : Chunked → Nat
  | complete _ consumed => consumed
  | incomplete => present
  | malformed consumed _ => consumed

theorem reach_addChunk (present : Nat) (chunk : Bytes) (c : Chunked) :
    (addChunk chunk c).reach present = c.reach present := by
  cases c <;> rfl

theorem complete_of_addChunk {chunk body : Bytes} {c : Chunked} {n : Nat}
    (h : addChunk chunk c = complete body n) : ∃ later, c = complete later n ∧ body = chunk ++ later := by
  cases c <;> cases h
  exact ⟨_, rfl, rfl⟩

/-- The veil over a chunked body, as far as its coding goes: hidden is what is there of the data of
    each chunk. -/
def veil (pos : Nat) (data : Bytes) : Veil :=
  match _h : Seq.cut? crlf data with
  | none => shown data
  | some (line, rest) =>
    let size := sizeOf line
    let frame := pos + line.length + crlf.length + size + crlf.length
    let behind := rest.drop size
    let ending := behind.take crlf.length
    let front := shown (line ++ crlf) ++ hidden (rest.take size)
    if Numeral.wordBound ≤ frame ∨ ending.length < crlf.length then front ++ shown behind
    else if ending ≠ crlf ∨ size = 0 then front ++ shown ending
    else front ++ (shown ending ++ veil frame (behind.drop crlf.length))
termination_by data.length
decreasing_by
  have := Seq.length_lt_of_cut? (by decide) _h
  simp only [List.length_drop]
  omega

theorem veil_of_cut? {pos : Nat} {data line rest : Bytes}
    (h : Seq.cut? crlf data = some (line, rest)) :
    veil pos data =
      let size := sizeOf line
      let frame := pos + line.length + crlf.length + size + crlf.length
      let behind := rest.drop size
      let ending := behind.take crlf.length
      let front := shown (line ++ crlf) ++ hidden (rest.take size)
      if Numeral.wordBound ≤ frame ∨ ending.length < crlf.length then front ++ shown behind
      else if ending ≠ crlf ∨ size = 0 then front ++ shown ending
      else front ++ (shown ending ++ veil frame (behind.drop crlf.length)) := by
  rw [veil]
  split
  · next hn => rw [h] at hn; cases hn
  · next line' rest' hs =>
    rw [h] at hs
    cases hs
    rfl

theorem walk_of_cut?_none {pos : Nat} {data : Bytes} (h : Seq.cut? crlf data = none) :
    walk pos data = incomplete := by
  rw [walk]
  split
  · rfl
  · next hs => rw [h] at hs; cases hs

theorem veil_of_cut?_none {pos : Nat} {data : Bytes} (h : Seq.cut? crlf data = none) :
    veil pos data = shown data := by
  rw [veil]
  split
  · rfl
  · next hs => rw [h] at hs; cases hs

/-- Whether the chunk with this size line is not there yet, or is too long to be one. -/
def Waits (pos : Nat) (line rest : Bytes) : Prop :=
  Numeral.wordBound ≤ pos + line.length + crlf.length + sizeOf line + crlf.length ∨
    rest.length < sizeOf line + crlf.length

/-- A chunk that is there, with the two bytes behind it. -/
structure There (pos : Nat) (line chunk ending : Bytes) : Prop where
  chunk : chunk.length = sizeOf line
  ending : ending.length = crlf.length
  word : pos + line.length + crlf.length + sizeOf line + crlf.length < Numeral.wordBound

theorem waits_or_there (pos : Nat) (line rest : Bytes) :
    Waits pos line rest ∨
      ∃ chunk ending behind, rest = chunk ++ (ending ++ behind) ∧ There pos line chunk ending := by
  by_cases h : Waits pos line rest
  · exact .inl h
  · obtain ⟨hword, hroom⟩ := not_or.mp h
    refine .inr ⟨rest.take (sizeOf line), (rest.drop (sizeOf line)).take crlf.length,
      (rest.drop (sizeOf line)).drop crlf.length, ?_, ?_, ?_, Nat.lt_of_not_le hword⟩
    · rw [List.take_append_drop, List.take_append_drop]
    · rw [List.length_take]
      omega
    · rw [List.length_take, List.length_drop]
      omega

section Chunk

variable {pos : Nat} {data line rest chunk ending behind u : Bytes}

theorem length_ending_lt_iff (size : Nat) (rest : Bytes) :
    ((rest.drop size).take crlf.length).length < crlf.length ↔
      rest.length < size + crlf.length := by
  simp only [List.length_take, List.length_drop, crlf, List.length_cons, List.length_nil]
  omega

theorem walk_of_waits (hcut : Seq.cut? crlf data = some (line, rest)) (h : Waits pos line rest) :
    walk pos data = incomplete := by
  rw [Waits, ← length_ending_lt_iff] at h
  rw [walk_of_cut? hcut]
  simp only [if_pos h]

theorem veil_of_waits (hcut : Seq.cut? crlf data = some (line, rest)) (h : Waits pos line rest) :
    veil pos data = shown (line ++ crlf) ++ (hidden (rest.take (sizeOf line)) ++
      shown (rest.drop (sizeOf line))) := by
  rw [Waits, ← length_ending_lt_iff] at h
  rw [veil_of_cut? hcut]
  simp only [if_pos h, List.append_assoc]

theorem There.not_waits (h : There pos line chunk ending) :
    ¬ (Numeral.wordBound ≤ pos + line.length + crlf.length + sizeOf line + crlf.length ∨
      ending.length < crlf.length) := by
  have := h.ending
  have := h.word
  omega

/-- What a walk makes of a chunk that is there. -/
theorem walk_of_there (hcut : Seq.cut? crlf data = some (line, chunk ++ (ending ++ behind)))
    (h : There pos line chunk ending) :
    walk pos data =
      let stop := pos + line.length + crlf.length + sizeOf line
      if ending ≠ crlf then malformed (stop + crlf.length) (.unendedChunk (sizeOf line) stop)
      else if sizeOf line = 0 then complete [] (stop + crlf.length)
      else addChunk chunk (walk (stop + crlf.length) behind) := by
  rw [walk_of_cut? hcut]
  simp only [List.drop_left' h.chunk, List.take_left' h.chunk, List.take_left' h.ending,
    List.drop_left' h.ending, if_neg (h.not_waits)]

theorem veil_of_there (hcut : Seq.cut? crlf data = some (line, chunk ++ (ending ++ behind)))
    (h : There pos line chunk ending) :
    veil pos data = shown (line ++ crlf) ++ (hidden chunk ++ (shown ending ++
      if ending ≠ crlf ∨ sizeOf line = 0 then []
      else veil (pos + line.length + crlf.length + sizeOf line + crlf.length) behind)) := by
  rw [veil_of_cut? hcut]
  simp only [List.drop_left' h.chunk, List.take_left' h.chunk, List.take_left' h.ending,
    List.drop_left' h.ending, if_neg (h.not_waits)]
  split <;> simp only [List.append_assoc, List.append_nil]

end Chunk

/-- **Bytes under the veil of a walk are walked alike**, but for the data of the chunks. -/
theorem walk_of_fits {pos : Nat} {data u : Bytes} (h : Fits (veil pos data) u) :
    (walk pos u).bare = (walk pos data).bare := by
  induction hn : data.length using Nat.strongRecOn generalizing pos data u with
  | _ n ih =>
    cases hcut : Seq.cut? crlf data with
    | none =>
      rw [veil_of_cut?_none hcut] at h
      rw [eq_of_fits_shown h]
    | some parts =>
      obtain ⟨line, rest⟩ := parts
      have hshort := Seq.length_lt_of_cut? (by decide) hcut
      rcases waits_or_there pos line rest with hwaits | ⟨chunk, ending, behind, rfl, hthere⟩
      · -- the chunk is not there, nor is it in bytes of the same length
        rw [veil_of_waits hcut hwaits] at h
        obtain ⟨y, rfl, hy⟩ := h.behind
        have hlength : y.length = rest.length := by
          rw [hy.length_eq, List.length_append, length_hidden, length_shown,
            ← List.length_append, List.take_append_drop]
        have hwaits' : Waits pos line y := by
          rw [Waits, hlength]
          exact hwaits
        rw [walk_of_waits hcut hwaits, walk_of_waits (Seq.cut?_front hcut y) hwaits']
      · rw [veil_of_there hcut hthere] at h
        obtain ⟨y, rfl, hy⟩ := h.behind
        obtain ⟨chunk', y, rfl, hchunk, hy⟩ := hy.split
        obtain ⟨behind', rfl, hbehind⟩ := hy.behind
        have hthere' : There pos line chunk' ending :=
          { hthere with chunk := by rw [hchunk.length_eq, length_hidden, hthere.chunk] }
        rw [walk_of_there hcut hthere, walk_of_there (Seq.cut?_front hcut _) hthere']
        simp only []
        by_cases hend : ending ≠ crlf
        · rw [if_pos hend, if_pos hend]
        · rw [if_neg hend, if_neg hend]
          by_cases hsize : sizeOf line = 0
          · rw [if_pos hsize, if_pos hsize]
          · rw [if_neg (not_or.mpr ⟨hend, hsize⟩)] at hbehind
            rw [if_neg hsize, if_neg hsize, bare_addChunk, bare_addChunk]
            refine ih _ ?_ hbehind rfl
            simp only [List.length_append] at hshort
            omega

/-- **The veil of a walk covers what the walk is about.** -/
theorem length_veil (pos : Nat) (data : Bytes) :
    pos + (veil pos data).length = (walk pos data).reach (pos + data.length) := by
  induction hn : data.length using Nat.strongRecOn generalizing pos data with
  | _ n ih =>
    cases hcut : Seq.cut? crlf data with
    | none =>
      rw [veil_of_cut?_none hcut, walk_of_cut?_none hcut, length_shown, hn, reach]
    | some parts =>
      obtain ⟨line, rest⟩ := parts
      have hshort := Seq.length_lt_of_cut? (by decide) hcut
      have hdata := congrArg List.length (Seq.cut?_eq_some hcut)
      rcases waits_or_there pos line rest with hwaits | ⟨chunk, ending, behind, rfl, hthere⟩
      · rw [veil_of_waits hcut hwaits, walk_of_waits hcut hwaits, List.length_append,
          List.length_append, length_hidden, length_shown, length_shown, ← List.length_append,
          List.take_append_drop, ← List.length_append, ← Seq.cut?_eq_some hcut, hn, reach]
      · have hchunk := hthere.chunk
        have hending := hthere.ending
        rw [walk_of_there hcut hthere, veil_of_there hcut hthere]
        simp only [List.length_append, length_shown, length_hidden] at hdata hshort ⊢
        by_cases hend : ending ≠ crlf
        · rw [if_pos hend, if_pos (.inl hend), List.length_nil]
          simp only [reach]
          omega
        · by_cases hsize : sizeOf line = 0
          · rw [if_neg hend, if_pos hsize, if_pos (.inr hsize), List.length_nil]
            simp only [reach]
            omega
          · rw [if_neg hend, if_neg hsize, if_neg (not_or.mpr ⟨hend, hsize⟩), reach_addChunk]
            have hbehind := ih behind.length (by omega)
              (pos + line.length + crlf.length + sizeOf line + crlf.length) behind rfl
            have htotal : pos + line.length + crlf.length + sizeOf line + crlf.length +
                behind.length = pos + n := by omega
            rw [htotal] at hbehind
            omega

theorem liesOn_veil (pos : Nat) (data : Bytes) : LiesOn (veil pos data) data := by
  induction hn : data.length using Nat.strongRecOn generalizing pos data with
  | _ n ih =>
    cases hcut : Seq.cut? crlf data with
    | none =>
      rw [veil_of_cut?_none hcut]
      exact (fits_shown data).liesOn
    | some parts =>
      obtain ⟨line, rest⟩ := parts
      have hshort := Seq.length_lt_of_cut? (by decide) hcut
      have hdata := Seq.cut?_eq_some hcut
      rcases waits_or_there pos line rest with hwaits | ⟨chunk, ending, behind, rfl, hthere⟩
      · rw [veil_of_waits hcut hwaits]
        conv_rhs => rw [hdata, ← List.take_append_drop (sizeOf line) rest]
        exact ((fits_shown _).append ((fits_hidden _).append (fits_shown _))).liesOn
      · rw [veil_of_there hcut hthere]
        conv_rhs => rw [hdata]
        refine .behind (fits_shown _) (.behind (fits_hidden _) (.behind (fits_shown _) ?_))
        split
        · exact liesOn_nil behind
        · refine ih behind.length ?_ _ behind rfl
          simp only [List.length_append] at hshort
          omega

theorem covered_of_complete {pos : Nat} {data body : Bytes} {n : Nat}
    (h : walk pos data = complete body n) : covered (veil pos data) data = body := by
  induction hn : data.length using Nat.strongRecOn generalizing pos data body with
  | _ k ih =>
    cases hcut : Seq.cut? crlf data with
    | none =>
      rw [walk_of_cut?_none hcut] at h
      cases h
    | some parts =>
      obtain ⟨line, rest⟩ := parts
      have hshort := Seq.length_lt_of_cut? (by decide) hcut
      rcases waits_or_there pos line rest with hwaits | ⟨chunk, ending, behind, rfl, hthere⟩
      · rw [walk_of_waits hcut hwaits] at h
        cases h
      · rw [veil_of_there hcut hthere]
        rw [walk_of_there hcut hthere] at h
        have hdata := Seq.cut?_eq_some hcut
        conv_lhs => rw [hdata]
        rw [covered_shown, covered_hidden, covered_shown]
        simp only [] at h
        by_cases hend : ending ≠ crlf
        · rw [if_pos hend] at h
          cases h
        · rw [if_neg hend] at h
          by_cases hsize : sizeOf line = 0
          · rw [if_pos hsize] at h
            cases h
            have hchunk := hthere.chunk
            rw [hsize] at hchunk
            rw [if_pos (.inr hsize), covered_nil, List.eq_nil_of_length_eq_zero hchunk]
            rfl
          · rw [if_neg hsize] at h
            rw [if_neg (not_or.mpr ⟨hend, hsize⟩)]
            obtain ⟨later, hwalk, rfl⟩ := complete_of_addChunk h
            rw [ih behind.length (by simp only [List.length_append] at hshort; omega) hwalk rfl]

end Chunked

/-! ## 3. Bodies -/

namespace Frame

/-- A result without the body. -/
def bare : Frame → Frame
  | framed _ length => framed none length
  | incomplete => incomplete
  | misframed length flaw => misframed length flaw

theorem eq_incomplete_of_bare {c : Frame} (h : c.bare = incomplete) : c = incomplete := by
  cases c <;> cases h
  rfl

theorem eq_misframed_of_bare {c : Frame} {length : Nat} {flaw : Flaw}
    (h : c.bare = misframed length flaw) : c = misframed length flaw := by
  cases c <;> cases h
  rfl

theorem eq_framed_of_bare {c : Frame} {length : Nat} (h : c.bare = framed none length) :
    ∃ body, c = framed body length := by
  cases c <;> cases h
  exact ⟨_, rfl⟩

theorem bare_ofChunked {c d : Chunked} (h : c.bare = d.bare) :
    (ofChunked c).bare = (ofChunked d).bare := by
  cases c <;> cases d <;> cases h <;> rfl

/-- The veil over the body behind a head, as far as it is there. -/
def veil (head : Text) (side : Side) (status : Option Nat) (answersHead : Bool) (rest : Bytes) :
    Veil :=
  if isForbidden status answersHead then []
  else if side = .response ∧ Head.isChunked head then Chunked.veil 0 rest
  else hidden (rest.take (Head.contentLength head))

theorem bare_ofLength_of_fits {n : Nat} {rest u : Bytes} (h : Fits (hidden (rest.take n)) u) :
    (ofLength n u).bare = (ofLength n rest).bare := by
  have hlength := h.length_eq
  rw [length_hidden, List.length_take] at hlength
  unfold ofLength
  by_cases hn : n = 0
  · rw [if_pos hn, if_pos hn]
  · have hsame : (u.drop (n - 1)).isEmpty = (rest.drop (n - 1)).isEmpty := by
      rw [Bool.eq_iff_iff, List.isEmpty_iff, List.isEmpty_iff, List.drop_eq_nil_iff,
        List.drop_eq_nil_iff]
      omega
    rw [if_neg hn, if_neg hn, hsame]
    split <;> rfl

/-- **Bytes under the veil of a body are framed alike**, but for the body. -/
theorem resolve_of_fits {head : Text} {side : Side} {status : Option Nat} {answersHead : Bool}
    {rest u : Bytes} (h : Fits (veil head side status answersHead rest) u) :
    (resolve head side status answersHead u).bare =
      (resolve head side status answersHead rest).bare := by
  unfold veil at h
  unfold resolve
  split
  · rfl
  · next hforbidden =>
    rw [if_neg hforbidden] at h
    split
    · next hchunked =>
      rw [if_pos hchunked] at h
      exact bare_ofChunked (Chunked.walk_of_fits h)
    · next hchunked =>
      rw [if_neg hchunked] at h
      exact bare_ofLength_of_fits h

/-- How many of `present` bytes a result is about: all when the body is not there. -/
def reach (present : Nat) : Frame → Nat
  | framed _ length => length
  | incomplete => present
  | misframed length _ => length

theorem reach_ofChunked (present : Nat) (c : Chunked) :
    (ofChunked c).reach present = c.reach present := by
  cases c <;> rfl

theorem reach_ofLength (n : Nat) (rest : Bytes) :
    (ofLength n rest).reach rest.length = min n rest.length := by
  unfold ofLength
  split
  · next hn =>
    rw [hn, Nat.zero_min]
    rfl
  · split
    · next hshort =>
      rw [List.isEmpty_iff, List.drop_eq_nil_iff] at hshort
      simp only [reach]
      omega
    · next hlong =>
      rw [List.isEmpty_iff, List.drop_eq_nil_iff] at hlong
      simp only [reach]
      omega

/-- **The veil of a body covers what its frame is about.** -/
theorem length_veil (head : Text) (side : Side) (status : Option Nat) (answersHead : Bool)
    (rest : Bytes) :
    (veil head side status answersHead rest).length =
      (resolve head side status answersHead rest).reach rest.length := by
  unfold veil resolve
  split
  · rfl
  · split
    · have hwalk := Chunked.length_veil 0 rest
      rw [Nat.zero_add, Nat.zero_add] at hwalk
      rw [reach_ofChunked, hwalk, Chunked.decode]
    · rw [reach_ofLength, length_hidden, List.length_take]

theorem liesOn_veil (head : Text) (side : Side) (status : Option Nat) (answersHead : Bool)
    (rest : Bytes) : LiesOn (veil head side status answersHead rest) rest := by
  unfold veil
  split
  · exact liesOn_nil rest
  · split
    · exact Chunked.liesOn_veil 0 rest
    · exact ⟨rest.take (Head.contentLength head), rest.drop (Head.contentLength head),
        (List.take_append_drop _ _).symm, fits_hidden _⟩

theorem getD_ofBytes (bs : Bytes) : (ofBytes bs).getD [] = bs := by
  cases bs <;> rfl

theorem covered_of_framed {head : Text} {side : Side} {status : Option Nat}
    {answersHead : Bool} {rest : Bytes} {body : Option Bytes} {n : Nat}
    (h : resolve head side status answersHead rest = framed body n) :
    covered (veil head side status answersHead rest) rest = body.getD [] := by
  unfold resolve at h
  unfold veil
  by_cases hforbidden : isForbidden status answersHead
  · rw [if_pos hforbidden] at h ⊢
    cases h
    exact covered_nil rest
  · rw [if_neg hforbidden] at h ⊢
    by_cases hchunked : side = .response ∧ Head.isChunked head
    · rw [if_pos hchunked] at h ⊢
      cases hwalk : Chunked.decode rest with
      | incomplete => rw [hwalk] at h; cases h
      | malformed length flaw => rw [hwalk] at h; cases h
      | complete chunks length =>
        rw [hwalk] at h
        cases h
        rw [Chunked.covered_of_complete hwalk, getD_ofBytes]
    · rw [if_neg hchunked] at h ⊢
      have hhidden : covered (hidden (rest.take (Head.contentLength head))) rest =
          rest.take (Head.contentLength head) := by
        have hcovered := covered_hidden (rest.take (Head.contentLength head)) []
          (rest.drop (Head.contentLength head))
        rwa [List.append_nil, List.take_append_drop, covered_nil, List.append_nil] at hcovered
      rw [hhidden]
      unfold ofLength at h
      split at h
      · next hzero =>
        cases h
        rw [hzero]
        rfl
      · split at h
        · cases h
        · cases h
          rfl

end Frame

end TrafficGate.Http
