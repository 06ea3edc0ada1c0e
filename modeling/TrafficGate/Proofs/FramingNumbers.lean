import Mathlib.Data.Nat.Digits.Defs
import TrafficGate.Proofs.CarriedBodies
import TrafficGate.Proofs.WrittenHeads
/-!
  # The numbers that frame a message

  The code of a response and the length of a body are written in digits. They are read like any
  numeral, in front of which a plus sign may stand: the sign is taken for the first of the three
  digits of a code, and passed over in front of a length. Apart from that only digits are read.

  1. `Writes` -- digits and the number that they write; `AsRead` -- what is read as a number;
  2. status lines whose code is written in one of the two ways;
  3. the length that a head declares;
  4. the body behind a head, and a sign that frames one.

  Main facts: **`Numeral.readBase?_eq_some_iff`**, **`StatusLine.parse_eq_ok_iff`**,
  **`Head.lengthExact_writes_iff`**, **`framing_numbers`** and **`exists_signed_number`**.
-/

namespace TrafficGate

namespace Numeral

/-! ## 1. Digits and their number -/

/-- The number that digits write, the most significant in front. -/
def valueOf (t : Text) : Nat := Nat.ofDigits 10 (t.reverse.map fun c => c.toNat - 48)

/-- The text is one or more digits that write the number. -/
structure Writes (t : Text) (n : Nat) : Prop where
  ne_nil : t ≠ []
  digits : ∀ c ∈ t, Ascii.isDigit c = true
  value : valueOf t = n

/-- The text is a plus sign, and digits that write the number. -/
def Signed (t : Text) (n : Nat) : Prop := ∃ digits, t = '+' :: digits ∧ Writes digits n

/-- The text is read as the number: digits that write it, with a plus sign in front or without. -/
def AsRead (t : Text) (n : Nat) : Prop := Writes t n ∨ Signed t n

variable {t : Text} {n acc bound : Nat}

theorem valueOf_cons (c : Char) (t : Text) :
    valueOf (c :: t) = (c.toNat - 48) * 10 ^ t.length + valueOf t := by
  rw [valueOf, List.reverse_cons, List.map_append, Nat.ofDigits_append, List.length_map,
    List.length_reverse, List.map_singleton, Nat.ofDigits_singleton, valueOf]
  ring

/-- **Digits are read as the number that they write**, behind the one read so far. -/
theorem readDigits?_eq_some_iff :
    readDigits? 10 acc t = some n ↔
      (∀ c ∈ t, Ascii.isDigit c = true) ∧ n = acc * 10 ^ t.length + valueOf t := by
  induction t generalizing acc with
  | nil =>
    have hvalue : acc * 10 ^ ([] : Text).length + valueOf [] = acc := by
      simp [valueOf, Nat.ofDigits_nil]
    rw [readDigits?, hvalue, Option.some_inj]
    exact ⟨fun h => ⟨List.forall_mem_nil _, h.symm⟩, fun h => h.2.symm⟩
  | cons c t ih =>
    rw [readDigits?, List.forall_mem_cons, valueOf_cons, List.length_cons]
    cases hd : digitIn? 10 c with
    | none =>
      refine iff_of_false (Option.some_ne_none n).symm fun h => ?_
      rw [digitIn?_ten_iff.mpr ⟨h.1.1, rfl⟩] at hd
      cases hd
    | some d =>
      obtain ⟨hc, rfl⟩ := digitIn?_ten_iff.mp hd
      have hvalue : (acc * 10 + (c.toNat - 48)) * 10 ^ t.length + valueOf t =
          acc * 10 ^ (t.length + 1) + ((c.toNat - 48) * 10 ^ t.length + valueOf t) := by ring
      simp only [ih, hvalue, hc, true_and]

theorem Writes.lt (h : Writes t n) : n < 10 ^ t.length := by
  have hread : readDigits? 10 0 t = some n :=
    readDigits?_eq_some_iff.mpr ⟨h.digits, by rw [Nat.zero_mul, Nat.zero_add, h.value]⟩
  simpa using readDigits?_lt hread

/-- Digits write one number. -/
theorem Writes.unique {m : Nat} (h : Writes t n) (h' : Writes t m) : n = m :=
  h.value.symm.trans h'.value

/-- A sign is no digit. -/
theorem Signed.not_writes {m : Nat} (h : Signed t n) : ¬ Writes t m := by
  obtain ⟨digits, rfl, -⟩ := h
  intro hwrites
  exact absurd (hwrites.digits '+' List.mem_cons_self) (by decide)

/-- What is read as a number are digits behind the sign that may stand in front. -/
theorem asRead_iff : AsRead t n ↔ Writes (dropPlus t) n := by
  by_cases hsign : ∃ digits, t = '+' :: digits
  · obtain ⟨digits, rfl⟩ := hsign
    show _ ↔ Writes digits n
    constructor
    · rintro (hwrites | ⟨_, heq, hwrites⟩)
      · exact absurd (hwrites.digits '+' List.mem_cons_self) (by decide)
      · rw [(List.cons.inj heq).2]
        exact hwrites
    · exact fun hwrites => .inr ⟨digits, rfl, hwrites⟩
  · have hdrop : dropPlus t = t := by
      unfold dropPlus
      split
      · next digits => exact absurd ⟨digits, rfl⟩ hsign
      · rfl
    rw [hdrop]
    exact or_iff_left fun ⟨digits, heq, _⟩ => hsign ⟨digits, heq⟩

/-- **What a numeral is read as**: a number below the bound, in digits or with a plus sign in front
    of them. -/
theorem readBase?_eq_some_iff :
    readBase? 10 bound t = some n ↔ AsRead t n ∧ n < bound := by
  rw [asRead_iff, readBase?]
  cases hdrop : dropPlus t with
  | nil => exact iff_of_false (Option.some_ne_none n).symm fun h => h.1.ne_nil rfl
  | cons c r =>
    have hwrites : Writes (c :: r) n ↔ readDigits? 10 0 (c :: r) = some n := by
      rw [readDigits?_eq_some_iff, Nat.zero_mul, Nat.zero_add]
      exact ⟨fun h => ⟨h.digits, h.value.symm⟩,
        fun h => ⟨List.cons_ne_nil c r, h.1, h.2.symm⟩⟩
    by_cases hbound : 0 < bound
    · simp only [if_pos hbound]
      rw [readBelow?_eq_filter (by decide) hbound, Option.filter_eq_some_iff, hwrites,
        decide_eq_true_eq]
    · simp only [if_neg hbound]
      exact iff_of_false (Option.some_ne_none n).symm fun h =>
        hbound (Nat.lt_of_le_of_lt (Nat.zero_le n) h.2)

/-- A character of a numeral is a digit or the sign. -/
theorem AsRead.mem (h : AsRead t n) {c : Char} (hc : c ∈ t) :
    Ascii.isDigit c = true ∨ c = '+' := by
  rcases h with hwrites | ⟨digits, rfl, hwrites⟩
  · exact .inl (hwrites.digits c hc)
  · rcases List.mem_cons.mp hc with rfl | hc
    · exact .inr rfl
    · exact .inl (hwrites.digits c hc)

theorem AsRead.space_not_mem (h : AsRead t n) : ' ' ∉ t := by
  intro hmem
  rcases h.mem hmem with hdigit | hsign
  · exact absurd hdigit (by decide)
  · exact absurd hsign (by decide)

theorem AsRead.lt (h : AsRead t n) : n < 10 ^ t.length := by
  rcases h with hwrites | ⟨digits, rfl, hwrites⟩
  · exact hwrites.lt
  · exact hwrites.lt.trans_le (Nat.pow_le_pow_right (by decide) (Nat.le_succ _))

/-- A text is read as one number. -/
theorem AsRead.unique {m : Nat} (h : AsRead t n) (h' : AsRead t m) : n = m :=
  (asRead_iff.mp h).unique (asRead_iff.mp h')

end Numeral

namespace Http

open Numeral

/-! ## 2. Status lines -/

namespace StatusLine

/-- The line tells what a status line says: a version of HTTP without a space, a space, the code in
    three characters that are written in this way, and then nothing or a space and the reason. -/
def ToldBy (written : Text → Nat → Prop) (line : Text) (s : StatusLine) : Prop :=
  ∃ f : StatusForm, line = f.text ∧ "HTTP/".toList <+: f.version ∧ ' ' ∉ f.version ∧
    f.code.length = codeLength ∧ written f.code s.code ∧ s.reason = Text.trim (f.reason?.getD [])

variable {line word : Text} {s : StatusLine}

theorem ToldBy.mono {written other : Text → Nat → Prop} (hmono : ∀ t n, written t n → other t n)
    (h : ToldBy written line s) : ToldBy other line s := by
  obtain ⟨f, hline, hhttp, hversion, hlength, hwritten, hreason⟩ := h
  exact ⟨f, hline, hhttp, hversion, hlength, hmono _ _ hwritten, hreason⟩

/-- A code is three characters that are read as a number. -/
theorem code?_eq_some_iff {code : Nat} :
    code? word = some code ↔ word.length = codeLength ∧ AsRead word code := by
  unfold code?
  by_cases hlength : word.length = codeLength
  · rw [if_pos hlength, readBase?_eq_some_iff]
    refine ⟨fun h => ⟨hlength, h.1⟩, fun h => ⟨h.2, ?_⟩⟩
    have hlt := h.2.lt
    rw [hlength, codeLength] at hlt
    omega
  · rw [if_neg hlength]
    exact iff_of_false nofun fun h => hlength h.1

/-- What is cut at the first space is joined by it. -/
theorem eq_joined_of_cutSpace {t : Text} {behind? : Option Text}
    (h : cutSpace t = (word, behind?)) :
    t = Seq.joined [' '] word behind?.toList ∧ ' ' ∉ word := by
  unfold cutSpace at h
  cases hcut : Seq.cut? [' '] t with
  | none =>
    rw [hcut] at h
    obtain ⟨rfl, rfl⟩ := Prod.mk.inj h
    exact ⟨(Seq.joined_nil [' '] t).symm, Seq.not_mem_of_cut?_eq_none hcut⟩
  | some cut =>
    rw [hcut] at h
    obtain ⟨rfl, rfl⟩ := Prod.mk.inj h
    refine ⟨?_, Seq.not_mem_of_cut? hcut⟩
    rw [Option.toList_some, Seq.joined_cons, Seq.joined_nil, ← List.append_assoc]
    exact Seq.cut?_eq_some hcut

/-- **What a status line is read as.** -/
theorem parse_eq_ok_iff : parse line = .ok s ↔ ToldBy AsRead line s := by
  constructor
  · intro h
    unfold parse at h
    cases hstrip : Seq.stripStart? "HTTP/".toList line with
    | none => rw [hstrip] at h; cases h
    | some rest =>
      obtain ⟨version, behind?, hversion⟩ : ∃ v b, cutSpace rest = (v, b) := ⟨_, _, rfl⟩
      simp only [hstrip, hversion] at h
      cases behind? with
      | none => cases h
      | some afterVersion =>
        obtain ⟨word, reason?, hword⟩ : ∃ w r, cutSpace afterVersion = (w, r) := ⟨_, _, rfl⟩
        simp only [hword] at h
        cases hcode : code? word with
        | none => rw [hcode] at h; cases h
        | some code =>
          rw [hcode] at h
          cases h
          obtain ⟨hrest, hplain⟩ := eq_joined_of_cutSpace hversion
          obtain ⟨hbehind, _⟩ := eq_joined_of_cutSpace hword
          obtain ⟨hlength, hread⟩ := code?_eq_some_iff.mp hcode
          refine ⟨⟨"HTTP/".toList ++ version, word, reason?⟩, ?_, List.prefix_append .., ?_, hlength,
            hread, rfl⟩
          · rw [Seq.stripStart?_eq_some_iff.mp hstrip, hrest, StatusForm.text, Option.toList_some,
              Seq.joined_cons, Seq.joined_nil, Seq.joined_cons, hbehind, List.append_assoc]
          · intro hmem
            exact (List.mem_append.mp hmem).elim (by decide) hplain
  · rintro ⟨f, rfl, hhttp, hversion, hlength, hread, hreason⟩
    rw [StatusForm.parse_of_code? hhttp hversion hread.space_not_mem
      (code?_eq_some_iff.mpr ⟨hlength, hread⟩), ← hreason]

/-- **A line that is accepted has a code in digits**, save one with a sign in its place. -/
theorem toldBy_writes_iff (h : parse line = .ok s) :
    ToldBy Writes line s ↔ ¬ ToldBy Signed line s := by
  constructor
  · rintro ⟨f, rfl, -, hversion, -, hwrites, -⟩ ⟨g, hline, -, hversion', -, hsigned, -⟩
    obtain rfl := StatusForm.text_injective hversion (AsRead.space_not_mem (.inl hwrites)) hversion'
      (AsRead.space_not_mem (.inr hsigned)) hline
    exact hsigned.not_writes hwrites
  · intro hplain
    obtain ⟨f, hline, hhttp, hversion, hlength, hread, hreason⟩ := parse_eq_ok_iff.mp h
    rcases hread with hwrites | hsigned
    · exact ⟨f, hline, hhttp, hversion, hlength, hwrites, hreason⟩
    · exact absurd ⟨f, hline, hhttp, hversion, hlength, hsigned, hreason⟩ hplain

end StatusLine

/-! ## 3. Declared lengths -/

namespace Head

/-- The first field with the name has the value. -/
def First (name head value : Text) : Prop :=
  ∃ before f after, fields head = before ++ f :: after ∧ Ascii.sameWord f.name name = true ∧
    (∀ g ∈ before, Ascii.sameWord g.name name = false) ∧ f.value = value

/-- The first `Content-Length` field is a number below 2^64 that is written in this way. -/
def Declares (written : Text → Nat → Prop) (head : Text) (n : Nat) : Prop :=
  n < wordBound ∧
    ∃ value, First "content-length".toList head value ∧ written (Text.trim value) n

/-- The length of the body is the number that is written in this way, and 0 when there is none. -/
def LengthExact (written : Text → Nat → Prop) (head : Text) : Prop :=
  ∀ n, contentLength head = n ↔
    Declares written head n ∨ n = 0 ∧ ¬ ∃ m, Declares written head m

variable {name head value : Text} {n : Nat}

/-- **What is found is the value of the first field with the name.** -/
theorem find?_eq_some_iff : find? name head = some value ↔ First name head value := by
  rw [find?, Option.map_eq_some_iff]
  constructor
  · rintro ⟨f, hfind, hvalue⟩
    obtain ⟨hname, before, after, hfields, hbefore⟩ := List.find?_eq_some_iff_append.mp hfind
    refine ⟨before, f, after, hfields, hname, fun g hg => ?_, hvalue⟩
    simpa using hbefore g hg
  · rintro ⟨before, f, after, hfields, hname, hbefore, hvalue⟩
    refine ⟨f, List.find?_eq_some_iff_append.mpr ⟨hname, before, after, hfields, fun g hg => ?_⟩,
      hvalue⟩
    rw [hbefore g hg]
    rfl

/-- The first field has one value. -/
theorem First.unique {other : Text} (h : First name head value) (h' : First name head other) :
    value = other :=
  Option.some.inj ((find?_eq_some_iff.mpr h).symm.trans (find?_eq_some_iff.mpr h'))

/-- The number that the first `Content-Length` field is read as. -/
theorem declares_asRead_iff :
    Declares AsRead head n ↔
      ((find? "content-length".toList head).map Text.trim).bind readWord? = some n := by
  rw [Option.bind_eq_some_iff]
  simp only [Option.map_eq_some_iff, find?_eq_some_iff, readWord?, readBase?_eq_some_iff]
  constructor
  · rintro ⟨hlt, value, hfirst, hread⟩
    exact ⟨_, ⟨value, hfirst, rfl⟩, hread, hlt⟩
  · rintro ⟨_, ⟨value, hfirst, rfl⟩, hread, hlt⟩
    exact ⟨hlt, value, hfirst, hread⟩

/-- A head declares one length. -/
theorem Declares.unique {m : Nat} (h : Declares AsRead head n) (h' : Declares AsRead head m) :
    n = m :=
  Option.some.inj ((declares_asRead_iff.mp h).symm.trans (declares_asRead_iff.mp h'))

theorem Declares.mono {written other : Text → Nat → Prop} (hmono : ∀ t n, written t n → other t n)
    (h : Declares written head n) : Declares other head n := by
  obtain ⟨hlt, value, hfirst, hwritten⟩ := h
  exact ⟨hlt, value, hfirst, hmono _ _ hwritten⟩

theorem declares_asRead_iff_or :
    Declares AsRead head n ↔ Declares Writes head n ∨ Declares Signed head n := by
  constructor
  · rintro ⟨hlt, value, hfirst, hwrites | hsigned⟩
    · exact .inl ⟨hlt, value, hfirst, hwrites⟩
    · exact .inr ⟨hlt, value, hfirst, hsigned⟩
  · rintro (h | h)
    · exact h.mono fun _ _ => .inl
    · exact h.mono fun _ _ => .inr

/-- A field with a sign in it is no field of digits. -/
theorem Declares.not_writes {m : Nat} (h : Declares Signed head n) : ¬ Declares Writes head m := by
  obtain ⟨-, value, hfirst, hsigned⟩ := h
  rintro ⟨-, other, hfirst', hwrites⟩
  rw [hfirst.unique hfirst'] at hsigned
  exact hsigned.not_writes hwrites

/-- **The length of the body is the number that the head declares**, with or without a sign. -/
theorem lengthExact_asRead (head : Text) : LengthExact AsRead head := by
  intro n
  simp only [declares_asRead_iff]
  unfold contentLength
  cases ((find? "content-length".toList head).map Text.trim).bind readWord? with
  | none =>
    rw [Option.getD_none]
    refine ⟨fun h => .inr ⟨h.symm, nofun⟩, ?_⟩
    rintro (h | ⟨rfl, -⟩)
    · cases h
    · rfl
  | some m =>
    rw [Option.getD_some]
    refine ⟨fun h => .inl (congrArg some h), ?_⟩
    rintro (h | ⟨-, hnone⟩)
    · exact Option.some.inj h
    · exact absurd ⟨m, rfl⟩ hnone

/-- **The length is the number in digits, and 0 without one**, unless a number other than 0 has a
    sign in front. -/
theorem lengthExact_writes_iff :
    LengthExact Writes head ↔ ∀ n, Declares Signed head n → n = 0 := by
  constructor
  · intro hexact n hsigned
    have hlength : contentLength head = n :=
      (lengthExact_asRead head n).mpr (.inl (declares_asRead_iff_or.mpr (.inr hsigned)))
    rcases (hexact n).mp hlength with hwrites | ⟨hzero, -⟩
    · exact absurd hwrites hsigned.not_writes
    · exact hzero
  · intro hzero n
    rw [lengthExact_asRead head n]
    by_cases hsome : ∃ m, Declares Signed head m
    · obtain ⟨m, hsigned⟩ := hsome
      have hread : Declares AsRead head m := declares_asRead_iff_or.mpr (.inr hsigned)
      have hnone : ¬ ∃ k, Declares Writes head k := fun ⟨_, hwrites⟩ => hsigned.not_writes hwrites
      obtain rfl := hzero m hsigned
      constructor
      · rintro (hn | ⟨-, hno⟩)
        · exact .inr ⟨hn.unique hread, hnone⟩
        · exact absurd ⟨0, hread⟩ hno
      · rintro (hwrites | ⟨rfl, -⟩)
        · exact absurd ⟨n, hwrites⟩ hnone
        · exact .inl hread
    · have hsame : ∀ k, Declares AsRead head k ↔ Declares Writes head k := fun k =>
        declares_asRead_iff_or.trans (or_iff_left fun h => hsome ⟨k, h⟩)
      simp only [hsame]

end Head

/-! ## 4. Bodies -/

/-- A body that is neither chunked nor forbidden is as long as its head declares. -/
theorem declares_of_resolve {head : Text} {side : Side} {status : Option Nat} {answersHead : Bool}
    {rest body : Bytes} {n : Nat}
    (hplain : ¬ (side = .response ∧ Head.isChunked head = true))
    (h : Frame.resolve head side status answersHead rest = .framed (some body) n) :
    Head.Declares AsRead head body.length := by
  unfold Frame.resolve at h
  split at h
  · cases h
  · obtain ⟨hlength, hbody⟩ := Frame.plain_of_ofLength h
    unfold Frame.ofBytes at hbody
    split at hbody
    · cases hbody
    · next hsome =>
      obtain rfl := Option.some.inj hbody
      rcases (Head.lengthExact_asRead head _).mp hlength.symm with hread | ⟨hzero, -⟩
      · exact hread
      · rw [List.isEmpty_iff, ← List.length_eq_zero_iff] at hsome
        exact absurd hzero hsome

/-- **The body of a message is as long as its head declares**, when it is not in chunks. -/
theorem declares_of_carveFrom {data : Bytes} {side : Side} {scan : Nat} {answersHead : Bool}
    {m : Message} {body : Bytes} (h : carveFrom data side scan answersHead = .complete m)
    (hbody : m.body = some body) (hplain : ¬ (side = .response ∧ Head.isChunked m.head = true)) :
    Head.Declares AsRead m.head body.length := by
  unfold carveFrom at h
  split at h
  · cases h
  · next i _ =>
    obtain ⟨found, length, status, hframe, -, rfl⟩ := carveHead_eq_complete h
    obtain rfl : found = some body := hbody
    exact declares_of_resolve hplain hframe

end Http

open Http Numeral

/-- **The numbers that frame a message.** Of a status line exactly the lines with a code in three
    characters that are read as a number are accepted, and they have three digits unless one is a
    sign. The length of a body is the number that its head declares, and it declares it in digits
    unless a sign stands in front. -/
theorem framing_numbers (line head : Text) :
    (∀ s, StatusLine.parse line = .ok s ↔ StatusLine.ToldBy AsRead line s) ∧
    ((∀ s, StatusLine.parse line = .ok s → StatusLine.ToldBy Writes line s) ↔
      ∀ s, ¬ StatusLine.ToldBy Signed line s) ∧
    Head.LengthExact AsRead head ∧
    (Head.LengthExact Writes head ↔ ∀ n, Head.Declares Signed head n → n = 0) ∧
    ∀ data side scan answersHead m body, carveFrom data side scan answersHead = .complete m →
      m.head = head → m.body = some body → ¬ (side = .response ∧ Head.isChunked head = true) →
        Head.Declares AsRead head body.length ∧
          (Head.Declares Writes head body.length ↔ ∀ n, ¬ Head.Declares Signed head n) := by
  refine ⟨fun s => StatusLine.parse_eq_ok_iff, ⟨?_, ?_⟩, Head.lengthExact_asRead head,
    Head.lengthExact_writes_iff, ?_⟩
  · intro hdigits s hsigned
    have hparse : StatusLine.parse line = .ok s :=
      StatusLine.parse_eq_ok_iff.mpr (hsigned.mono fun _ _ => .inr)
    exact (StatusLine.toldBy_writes_iff hparse).mp (hdigits s hparse) hsigned
  · exact fun hplain s hparse => (StatusLine.toldBy_writes_iff hparse).mpr (hplain s)
  · rintro data side scan answersHead m body hcarve rfl hbody hplain
    have hread := declares_of_carveFrom hcarve hbody hplain
    refine ⟨hread, fun hwrites n hsigned => hsigned.not_writes hwrites, fun hnone => ?_⟩
    rcases Head.declares_asRead_iff_or.mp hread with hwrites | hsigned
    · exact hwrites
    · exact absurd hsigned (hnone _)

/-- A post of five bytes whose head declares the length in this way. -/
def postFive (length : String) : Bytes :=
  Utf8.encode ("POST / HTTP/1.1\r\nContent-Length: ".toList ++ length.toList ++
    "\r\n\r\nhello".toList)

/-- The message of such a post. -/
def messageFive (length : String) : Message :=
  { side := .request
    raw := postFive length
    head := "POST / HTTP/1.1\r\nContent-Length: ".toList ++ length.toList
    body := some (Utf8.encode "hello".toList)
    status := none }

/-- The length of the post in digits. -/
theorem framing_numbers_five :
    carve (postFive "5") .request = .complete (messageFive "5") ∧
      Head.Declares Writes (messageFive "5").head 5 := by
  have hcarve : carve (postFive "5") .request = .complete (messageFive "5") := by decide +kernel
  have hfound : Head.find? "content-length".toList (messageFive "5").head = some "5".toList := by
    decide +kernel
  have hunsigned : ∀ n, ¬ Head.Declares Signed (messageFive "5").head n := by
    rintro n ⟨-, value, hfirst, digits, htrim, -⟩
    obtain rfl := Option.some.inj (hfound.symm.trans (Head.find?_eq_some_iff.mpr hfirst))
    have hfirst : some '5' = some '+' := congrArg List.head? htrim
    exact absurd hfirst (by decide)
  obtain ⟨-, -, -, -, hbody⟩ := framing_numbers [] (messageFive "5").head
  exact ⟨hcarve, (hbody _ _ _ _ _ _ hcarve rfl rfl (by decide)).2.mpr hunsigned⟩

/-- **A sign frames a message**: the code of a response is accepted with a plus sign for its first
    digit, and as many bytes are framed as a length behind a plus sign tells. -/
theorem exists_signed_number :
    (∃ s, StatusLine.parse "HTTP/1.1 +20 OK".toList = .ok s ∧ s.code = 20 ∧
      ¬ StatusLine.ToldBy Writes "HTTP/1.1 +20 OK".toList s) ∧
    ∃ m, carve (postFive "+5") .request = .complete m ∧
      m.body = some (Utf8.encode "hello".toList) ∧ Head.contentLength m.head = 5 ∧
      ¬ Head.LengthExact Writes m.head ∧ ¬ ∃ n, Head.Declares Writes m.head n := by
  have hsigned : Head.Declares Signed (messageFive "+5").head 5 :=
    ⟨by decide, "+5".toList, Head.find?_eq_some_iff.mp (by decide +kernel), "5".toList, by decide,
      by decide, List.all_eq_true.mp (by decide), by decide⟩
  refine ⟨⟨⟨20, "OK".toList⟩, by decide +kernel, rfl, ?_⟩, messageFive "+5", by decide +kernel, rfl,
    by decide +kernel, ?_, fun ⟨_, hwrites⟩ => hsigned.not_writes hwrites⟩
  · rw [StatusLine.toldBy_writes_iff (by decide +kernel), not_not]
    exact ⟨⟨"HTTP/1.1".toList, "+20".toList, some "OK".toList⟩, by decide, by decide, by decide,
      by decide, ⟨"20".toList, by decide, by decide, List.all_eq_true.mp (by decide), by decide⟩,
      by decide⟩
  · rw [Head.lengthExact_writes_iff]
    intro hzero
    exact absurd (hzero 5 hsigned) (by decide)

end TrafficGate
