import TrafficGate.Proofs.CarriedBodies
import TrafficGate.Engine.Basic
/-!
  # Bodies that are kept

  What a published verdict has of a body: nothing, the first bytes of the payload themselves, or a
  handle under which a shelf has them with their type. A shelf gives each body a handle of its own,
  and takes none away, so what was found under a handle is found there ever after.

  1. `Extends` -- shelves that took more bodies, and what is found on them;
  2. `Stands` -- what stands for a payload, and the reference that a dispatcher makes;
  3. media types.

  Main facts: **`find?_kept`**, **`Extends.find?`**, **`stands_bodyRef`** and
  **`mimeType?_ofMessage`**.
-/

namespace TrafficGate

open Http Exchange

namespace Verdict

/-! ## 1. Shelves -/

namespace Shelf

/-- A handle tells its number. -/
theorem handle_injective {m n : Nat} (h : handle m = handle n) : m = n := by
  have hdigits : Numeral.decimal m = Numeral.decimal n := List.append_cancel_left h
  have hread := Numeral.readDigits?_decimal m
  rw [hdigits, Numeral.readDigits?_decimal] at hread
  exact (Option.some.inj hread).symm

theorem findFrom?_handle_eq_none {k n : Nat} {blobs : List Blob} (h : n + blobs.length ≤ k) :
    findFrom? (handle k) n blobs = none := by
  induction blobs generalizing n with
  | nil => rfl
  | cons b rest ih =>
    rw [List.length_cons] at h
    rw [findFrom?, if_neg, ih (by omega)]
    intro he
    have := handle_injective he
    omega

/-- **A body that is kept is found under its handle.** -/
theorem find?_kept (data : Bytes) (mimeType : Text) (s : Shelf) :
    (s.keep data mimeType).2.find? (s.keep data mimeType).1 = some { mimeType, data } :=
  find?_keep (findFrom?_handle_eq_none (Nat.le_of_eq (Nat.zero_add _)))

/-- The other shelf took more bodies, or none. -/
def Extends (s t : Shelf) : Prop := s.blobs <+: t.blobs

theorem Extends.refl (s : Shelf) : s.Extends s := List.prefix_refl _

theorem Extends.trans {s t u : Shelf} (h : s.Extends t) (h' : t.Extends u) : s.Extends u :=
  List.IsPrefix.trans h h'

theorem extends_keep (data : Bytes) (mimeType : Text) (s : Shelf) :
    s.Extends (s.keep data mimeType).2 := List.prefix_append _ _

theorem findFrom?_append {t : Text} {n : Nat} {blobs : List Blob} {b : Blob}
    (h : findFrom? t n blobs = some b) (more : List Blob) :
    findFrom? t n (blobs ++ more) = some b := by
  induction blobs generalizing n with
  | nil => cases h
  | cons first rest ih =>
    rw [findFrom?] at h
    rw [List.cons_append, findFrom?]
    split
    · next he => rwa [if_pos he] at h
    · next hne =>
      rw [if_neg hne] at h
      exact ih h

/-- **What is found under a handle is found there ever after.** -/
theorem Extends.find? {s t : Shelf} (h : s.Extends t) {handle : Text} {b : Blob}
    (hb : s.find? handle = some b) : t.find? handle = some b := by
  obtain ⟨more, hmore⟩ := h
  rw [Shelf.find?, ← hmore]
  exact findFrom?_append hb more

end Shelf

/-! ## 2. What stands for a payload -/

/-- What stands for a payload in a verdict, when at most `limit` bytes of it are kept and as many as
    the threshold go to a shelf: nothing if there is no payload or none is wanted, else its first
    bytes, in place or on the shelf with their type. -/
inductive Stands (wanted : Bool) (limit threshold : Nat) (payload : Option Bytes)
    (mimeType : Text) (shelf : Shelf) : Option BodyRef → Prop where
  | nothing (h : wanted = false ∨ payload = none) :
      Stands wanted limit threshold payload mimeType shelf none
  | inPlace {bytes : Bytes} (hwanted : wanted = true) (hpayload : payload = some bytes)
      (hsmall : min bytes.length limit < threshold) :
      Stands wanted limit threshold payload mimeType shelf (some (.inPlace (bytes.take limit)))
  | stored {bytes : Bytes} {handle : Text} (hwanted : wanted = true)
      (hpayload : payload = some bytes) (hlarge : threshold ≤ min bytes.length limit)
      (hfound : shelf.find? handle = some { mimeType, data := bytes.take limit }) :
      Stands wanted limit threshold payload mimeType shelf
        (some (.stored handle mimeType (min bytes.length limit)))

/-- **What stands for a payload stands for it ever after.** -/
theorem Stands.mono {wanted : Bool} {limit threshold : Nat} {payload : Option Bytes}
    {mimeType : Text} {s t : Shelf} {ref : Option BodyRef}
    (h : Stands wanted limit threshold payload mimeType s ref) (hst : s.Extends t) :
    Stands wanted limit threshold payload mimeType t ref := by
  cases h with
  | nothing h => exact .nothing h
  | inPlace hwanted hpayload hsmall => exact .inPlace hwanted hpayload hsmall
  | stored hwanted hpayload hlarge hfound =>
    exact .stored hwanted hpayload hlarge (hst.find? hfound)

/-- A shelf as a keeper, beside something that it leaves alone. -/
def besideShelf (R : Type) : Keeper (R × Shelf) where
  keep data mimeType w := (some (w.2.keep data mimeType).1, w.1, (w.2.keep data mimeType).2)

section References

variable {R : Type} {body payload : Option Bytes} {wanted : Bool} {limit : Nat}

/-- A dispatcher takes no body from the shelf. -/
theorem extends_bodyRef (d : Dispatcher) (body : Option Bytes) (mimeType : Option Text)
    (w : R × Shelf) : w.2.Extends (d.bodyRef (besideShelf R) body mimeType w).2.2 := by
  unfold Dispatcher.bodyRef
  split
  · exact .refl _
  · split
    · exact .refl _
    · exact Shelf.extends_keep _ _ _

/-- **The reference that a dispatcher makes stands for the payload.** -/
theorem stands_bodyRef (h : body = collect payload wanted limit) (d : Dispatcher)
    (mimeType : Option Text) (w : R × Shelf) :
    Stands wanted limit d.threshold payload (mimeType.getD Dispatcher.defaultMimeType)
      (d.bodyRef (besideShelf R) body mimeType w).2.2
      (d.bodyRef (besideShelf R) body mimeType w).1 := by
  subst h
  cases wanted with
  | false => exact .nothing (.inl rfl)
  | true =>
    cases payload with
    | none => exact .nothing (.inr rfl)
    | some bytes =>
      have hlength : (bytes.take limit).length = min bytes.length limit := by
        rw [List.length_take, Nat.min_comm]
      simp only [collect, if_true, Option.map_some, Dispatcher.bodyRef, hlength]
      split
      · next hsmall => exact .inPlace rfl rfl hsmall
      · next hlarge => exact .stored rfl rfl (Nat.le_of_not_lt hlarge) (Shelf.find?_kept _ _ _)

end References

end Verdict

/-! ## 3. Media types -/

namespace Http.Head

/-- The value of a field is trimmed. -/
theorem trim_of_find? {name head value : Text} (h : find? name head = some value) :
    Text.trim value = value := by
  obtain ⟨f, hf, rfl⟩ := Option.map_eq_some_iff.mp h
  have hmem : f ∈ fields head := List.mem_of_find?_eq_some hf
  obtain ⟨line, -, hline⟩ := List.mem_filterMap.mp hmem
  obtain ⟨cut, -, rfl⟩ := Option.map_eq_some_iff.mp hline
  exact Text.trim_trim _

end Http.Head

namespace Exchange

/-- The media type of a declared content type: what stands before its parameters, if anything. -/
def mediaType? (contentType : Option Text) : Option Text :=
  nonBlank? (contentType.map fun t => t.takeWhile (· != ';'))

/-- What stands before the parameters of a descriptor is the media type of the content type. -/
theorem mediaType?_describeContent {contentType : Option Text}
    (h : ∀ t ∈ contentType, Text.trim t = t) (encoding : Option Text) :
    mediaType? (describeContent contentType encoding) = mediaType? contentType := by
  have hsuffix (enc : Text) :
      (encodingSuffix enc).takeWhile (· != ';') = [] := rfl
  have hbehind (t enc : Text) :
      (t ++ encodingSuffix enc).takeWhile (· != ';') = t.takeWhile (· != ';') := by
    rw [List.takeWhile_append]
    split
    · next hall =>
      rw [hsuffix, List.append_nil]
      exact (List.IsPrefix.eq_of_length (List.takeWhile_prefix _) hall).symm
    · rfl
  have hcontent : nonBlank? contentType = contentType.filter fun t => !t.isEmpty := by
    cases contentType with
    | none => rfl
    | some t => rw [nonBlank?, Option.map_some, h t rfl]
  unfold describeContent
  rw [hcontent]
  cases contentType with
  | none => cases nonBlank? encoding <;> rfl
  | some t =>
    cases t with
    | nil => cases nonBlank? encoding <;> rfl
    | cons c t =>
      simp only [Option.filter_some, List.isEmpty_cons, Bool.not_false, if_true]
      cases nonBlank? encoding with
      | none => rfl
      | some enc => simp only [mediaType?, Option.map_some, hbehind]

/-- **The type of a framed response is the media type of its content type.** -/
theorem mimeType?_ofMessage {m : Message} {r : Response} (h : Response.ofMessage m = .ok r) :
    r.mimeType? = mediaType? (m.field? "content-type".toList) := by
  unfold Response.ofMessage at h
  split at h
  · cases h
  · cases h
    exact mediaType?_describeContent (fun _ ht => Head.trim_of_find? ht) _

end Exchange

end TrafficGate
