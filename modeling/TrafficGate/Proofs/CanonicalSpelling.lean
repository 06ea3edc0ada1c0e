import TrafficGate.Proofs.PercentEscapes
import TrafficGate.Proofs.RuleConditions
import TrafficGate.Url.Canonical
/-!
  # The spelling that rules meet

  Rules are kept as they are written, traffic is looked up in canonical form. Bringing a URL into
  that form makes it no longer, but for the slash of an empty path, so that a URL is the beginning
  of its own canonical form only if it is written in it already.

  1. how many bytes texts take;
  2. percent-decoding makes nothing longer;
  3. the parts of a URL take no more bytes than the URL;
  4. URLs that start their canonical form.

  Main facts: **`size_percentDecode_le`**, **`size_parts?_le`** and **`prefix_canonical_iff`**.
-/

namespace TrafficGate

/-! ## 1. Bytes of texts -/

namespace Utf8

@[simp] theorem size_nil : size [] = 0 := rfl

@[simp] theorem size_cons (c : Char) (t : Text) : size (c :: t) = (encodeChar c).length + size t := rfl

theorem size_eq_length_encode (t : Text) : size t = (encode t).length := by
  induction t with
  | nil => rfl
  | cons c t ih => rw [size_cons, encode_cons, List.length_append, ih]

/-- Fewer characters take fewer bytes. -/
theorem size_le_of_sublist {s t : Text} (h : s.Sublist t) : size s ≤ size t := by
  induction h with
  | slnil => exact Nat.le_refl 0
  | cons c _ ih =>
    rw [size_cons]
    omega
  | cons_cons c _ ih =>
    rw [size_cons, size_cons]
    omega

/-- **A beginning that takes as many bytes is everything.** -/
theorem eq_of_prefix_of_size_le {s t : Text} (h : s <+: t) (hsize : size t ≤ size s) : s = t := by
  obtain ⟨more, rfl⟩ := h
  rw [size_append] at hsize
  rw [eq_nil_of_size_eq_zero (t := more) (by omega), List.append_nil]

theorem length_encodeChar_of_lt {c : Char} (h : c.toNat < 0x80) : (encodeChar c).length = 1 := by
  simp [encodeChar, h]

/-- **A text takes the bytes that it was read from.** -/
theorem size_of_decode? {bs : Bytes} {t : Text} (h : decode? bs = some t) : size t = bs.length := by
  rw [eq_encode_of_decode? h, size_eq_length_encode]

end Utf8

theorem Ascii.size_lower (t : Text) : Utf8.size (lower t) = Utf8.size t := by
  have hchar : ∀ c, (Utf8.encodeChar (lowerChar c)).length = (Utf8.encodeChar c).length := by
    intro c
    rcases lowerChar_cases c with ⟨-, hsame⟩ | ⟨_, _, hvalue⟩
    · rw [hsame]
    · rw [Utf8.length_encodeChar_of_lt (by omega), Utf8.length_encodeChar_of_lt (by omega)]
  induction t with
  | nil => rfl
  | cons c t ih =>
    show Utf8.size (lowerChar c :: lower t) = Utf8.size (c :: t)
    rw [Utf8.size_cons, Utf8.size_cons, hchar, ih]

namespace Url

/-! ## 2. Percent-decoding -/

/-- **Percent-decoding makes nothing longer.** -/
theorem size_percentDecode_le (t : Text) : Utf8.size (percentDecode t) ≤ Utf8.size t := by
  unfold percentDecode
  cases h : (unescape? (Utf8.encode t)).bind Utf8.decode? with
  | none => exact Nat.le_refl _
  | some out =>
    obtain ⟨bs, hbs, hout⟩ := Option.bind_eq_some_iff.mp h
    calc Utf8.size out = bs.length := Utf8.size_of_decode? hout
      _ ≤ (Utf8.encode t).length := (unescape?_eq_some_iff.mp hbs).length_le
      _ = Utf8.size t := (Utf8.size_eq_length_encode t).symm

/-! ## 3. The parts of a URL -/

theorem cutLast?_eq_some {x : Char} {t before after : Text}
    (h : Seq.cutLast? x t = some (before, after)) : t = before ++ x :: after := by
  induction t generalizing before with
  | nil => cases h
  | cons y ys ih =>
    unfold Seq.cutLast? at h
    split at h
    · next front back hys =>
      obtain ⟨rfl, rfl⟩ := Prod.mk.inj (Option.some.inj h)
      rw [ih hys, List.cons_append]
    · split at h
      · next hy =>
        obtain ⟨rfl, rfl⟩ := Prod.mk.inj (Option.some.inj h)
        rw [hy, List.nil_append]
      · cases h

theorem size_dropUser_le (authority : Text) :
    Utf8.size (dropUser authority) ≤ Utf8.size authority := by
  unfold dropUser
  split
  · next user hostPort h =>
    rw [cutLast?_eq_some h, Utf8.size_append, Utf8.size_cons]
    omega
  · exact Nat.le_refl _

/-- A port as it is written behind a host. -/
def writtenPort (port : Option Text) : Text :=
  match port with
  | some p => ':' :: p
  | none => []

theorem size_splitHostPort_le (hostPort : Text) :
    Utf8.size (splitHostPort hostPort).1 + Utf8.size (writtenPort (splitHostPort hostPort).2) ≤
      Utf8.size hostPort := by
  unfold splitHostPort
  split
  · unfold splitLiteral
    split
    · next inside behind h =>
      have hport : Utf8.size (writtenPort (Seq.stripStart? [':'] behind)) ≤ Utf8.size behind := by
        unfold Seq.stripStart?
        split
        · next hcolon =>
          obtain ⟨p, rfl⟩ := List.isPrefixOf_iff_prefix.mp hcolon
          exact Nat.le_refl _
        · exact Nat.zero_le _
      rw [Seq.cut?_eq_some h, Utf8.size_append _ behind]
      exact Nat.add_le_add_left hport _
    · exact Nat.le_refl _
  · unfold splitName
    split
    · next host port h =>
      split
      · rw [cutLast?_eq_some h, Utf8.size_append]
        exact Nat.le_refl _
      · exact Nat.le_refl _
    · exact Nat.le_refl _

theorem size_shownPort_le (scheme : Text) (port : Option Text) :
    Utf8.size (shownPort scheme (port.filter fun p => !p.isEmpty)) ≤
      Utf8.size (writtenPort port) := by
  cases port with
  | none => exact Nat.le_refl 0
  | some p =>
    unfold shownPort
    cases h : Option.filter (fun p => !p.isEmpty) (some p) with
    | none => exact Nat.zero_le _
    | some q =>
      obtain ⟨rfl, _⟩ := Option.filter_eq_some_iff.mp h |>.imp_left Option.some.inj
      simp only []
      split
      · exact Nat.zero_le _
      · exact Nat.le_refl _

/-- The canonical form of the parts of a URL without the path. -/
def Parts.origin (p : Parts) : Text :=
  Ascii.lower p.scheme ++ "://".toList ++ Ascii.lower p.host ++ shownPort (Ascii.lower p.scheme) p.port

/-- **The parts of a URL take no more bytes than the URL.** -/
theorem size_parts?_le {url : Text} {p : Parts} (h : parts? url = some p) :
    Utf8.size p.origin + Utf8.size p.path ≤ Utf8.size url := by
  unfold parts? at h
  split at h
  · cases h
  · next scheme rest hcut =>
    split at h
    · have hsplit := size_splitHostPort_le
        (dropUser (rest.takeWhile fun c => !endsAuthority c))
      have huser := size_dropUser_le (rest.takeWhile fun c => !endsAuthority c)
      have hrest : Utf8.size (rest.takeWhile fun c => !endsAuthority c) +
          Utf8.size (rest.dropWhile fun c => !endsAuthority c) = Utf8.size rest := by
        rw [← Utf8.size_append, List.takeWhile_append_dropWhile]
      simp only [] at h
      cases hhost : splitHostPort (dropUser (rest.takeWhile fun c => !endsAuthority c)) with
      | mk host port =>
        rw [hhost] at h hsplit
        have hport := size_shownPort_le (Ascii.lower scheme) port
        cases h
        rw [Seq.cut?_eq_some hcut]
        simp only [Parts.origin, Utf8.size_append, Ascii.size_lower] at hsplit ⊢
        omega
    · cases h

/-! ## 4. URLs that start their canonical form -/

theorem size_beforeQuery_le (url : Text) : Utf8.size (beforeQuery url) ≤ Utf8.size url :=
  Utf8.size_le_of_sublist (List.takeWhile_sublist _)

/-- **A URL is the beginning of its canonical form only if it is that form**, or that form without
    the slash of an empty path. -/
theorem prefix_canonical_iff {url : Text} :
    url <+: canonical url ↔ canonical url = url ∨ canonical url = url ++ ['/'] := by
  constructor
  · intro h
    have hquery := size_beforeQuery_le url
    unfold canonical at h ⊢
    cases hparts : parts? (beforeQuery url) with
    | none =>
      rw [hparts] at h
      have hdecode := size_percentDecode_le (beforeQuery url)
      exact .inl (Utf8.eq_of_prefix_of_size_le h (Nat.le_trans hdecode hquery)).symm
    | some p =>
      rw [hparts] at h
      have hsize := size_parts?_le hparts
      have hcanonical : p.canonical = p.origin ++ shownPath p.path := rfl
      simp only [hcanonical] at h ⊢
      by_cases hpath : p.path = []
      · -- the slash is all that can come behind the URL
        rw [hpath, Utf8.size_nil] at hsize
        have hslash : shownPath p.path = ['/'] := by rw [hpath]; rfl
        rw [hslash] at h ⊢
        rcases List.prefix_concat_iff.mp h with hwhole | hfront
        · exact .inl hwhole.symm
        · refine .inr (congrArg (· ++ ['/']) ?_)
          exact (Utf8.eq_of_prefix_of_size_le hfront (by omega)).symm
      · have hshown : shownPath p.path = percentDecode p.path := by
          unfold shownPath
          rw [if_neg (by rwa [List.isEmpty_iff])]
        have hdecode := size_percentDecode_le p.path
        rw [hshown] at h ⊢
        refine .inl (Utf8.eq_of_prefix_of_size_le h ?_).symm
        rw [Utf8.size_append]
        omega
  · rintro (h | h)
    · exact h.symm ▸ List.prefix_refl url
    · rw [h]
      exact List.prefix_append url ['/']

end Url

end TrafficGate
