import TrafficGate.Capture.Record
import TrafficGate.Proofs.Base64Texts
import TrafficGate.Proofs.JoinedLists
import TrafficGate.Proofs.StrictJson
import TrafficGate.Proofs.WrittenHeads
/-!
  # Captures that are written

  A record is written as JSON on a line of its own, with white space around it if one likes. Between
  such lines there may be others that say nothing. Reading the text gives the observations again; a
  line that is neither is reported by its number, in which the lines that say nothing count.

  1. `Record.Fits` -- records, their JSON and their lines;
  2. `Line` -- lines that are written, and what each says;
  3. texts of lines.

  Main facts: **`parse?_line`**, **`observe_ofObservation`**, **`readLines_lines`** and
  **`read_lines`**.
-/

namespace TrafficGate.Capture

/-! ## 1. Records -/

namespace Record

/-- The number of its flow, if it has one, is one of 64 bits. -/
def Fits : Record → Prop
  | bytes flow _ _ | closed flow => flow.id < Numeral.wordBound
  | resolution _ _ => True

instance : DecidablePred Fits := fun r =>
  match r with
  | bytes flow _ _ | closed flow => inferInstanceAs (Decidable (flow.id < Numeral.wordBound))
  | resolution _ _ => .isTrue trivial

/-- A record is written with texts and numbers. -/
theorem writable_json (r : Record) : Json.Writable r.json := by
  cases r with
  | bytes flow side payload =>
    refine .record ?_
    simp only [List.forall_mem_cons]
    exact ⟨.nat _, .bool _, .text _, .text _, List.forall_mem_nil _⟩
  | resolution host addresses =>
    refine .record ?_
    simp only [List.forall_mem_cons]
    refine ⟨.text _, .arr fun v hv => ?_, List.forall_mem_nil _⟩
    obtain ⟨t, -, rfl⟩ := List.mem_map.mp hv
    exact .text t
  | closed flow =>
    refine .record ?_
    simp only [List.forall_mem_cons]
    exact ⟨.nat _, .bool _, List.forall_mem_nil _⟩

theorem isSound_json {r : Record} (h : r.Fits) : r.json.isSound = true := by
  cases r with
  | bytes flow side payload =>
    have hnumber := Json.Number.isFinite_ofNat h
    simp [json, Json.record, Json.nat, Json.text, Json.isSound, Json.allMembersSound, hnumber]
  | resolution host addresses =>
    simp [json, Json.record, Json.text, Json.isSound, Json.allMembersSound, Json.allSound_texts]
  | closed flow =>
    have hnumber := Json.Number.isFinite_ofNat h
    simp [json, Json.record, Json.nat, Json.isSound, Json.allMembersSound, hnumber]

theorem depth_json (r : Record) : r.json.depth ≤ 2 := by
  cases r with
  | bytes flow side payload => exact Nat.le_succ 1
  | resolution host addresses =>
    simp only [json, Json.record, List.map_cons, List.map_nil, Json.depth, Json.maxMemberDepth,
      Json.text, Json.maxDepth_texts]
    decide
  | closed flow => exact Nat.le_succ 1

/-- **The record of its JSON**: of the three kinds the members fit this one only. -/
theorem ofJson?_json {r : Record} (h : r.Fits) : ofJson? r.json = some r := by
  cases r with
  | bytes flow side payload =>
    have hnumber : (Json.nat flow.id).nat? = some flow.id := Json.Number.natural?_ofNat h
    have hside : Side.ofName? side.name = some side := by cases side <;> rfl
    simp [json, ofJson?, bytes?, Json.record, Json.Members.nat?, Json.Members.flag?,
      Json.Members.name?, Json.Members.text?, Json.Members.read?, Json.Members.only?,
      Json.Members.values, hnumber, Json.bool?, Json.name?, Json.text?, Json.text, hside]
  | resolution host addresses =>
    have htexts := Json.texts?_texts addresses
    simp [json, ofJson?, bytes?, resolution?, Json.record, Json.Members.nat?, Json.Members.text?,
      Json.Members.texts?, Json.Members.read?, Json.Members.only?, Json.Members.values, Json.text?,
      Json.text, htexts]
  | closed flow =>
    have hnumber : (Json.nat flow.id).nat? = some flow.id := Json.Number.natural?_ofNat h
    simp [json, ofJson?, bytes?, resolution?, closed?, Json.record, Json.Members.nat?,
      Json.Members.flag?, Json.Members.text?, Json.Members.read?, Json.Members.only?,
      Json.Members.values, hnumber, Json.bool?]

/-- **A record is read back from its line.** -/
theorem parse?_line {r : Record} (h : r.Fits) : parse? r.line = some r := by
  have hdepth := Nat.le_trans r.depth_json (show 2 ≤ Json.maxNesting by decide)
  rw [parse?, line, Json.parseStrict?_render r.writable_json (isSound_json h) hdepth,
    Option.bind_some, ofJson?_json h]

/-- **The record of an observation is that observation**, whatever its bytes are. -/
theorem observe_ofObservation (o : Observation) : (ofObservation o).observe = .ok o := by
  cases o with
  | bytes flow side data => simp only [ofObservation, observe, Base64.decode_encode]
  | resolution host addresses => rfl
  | closed flow => rfl

/-- A record stands between braces. -/
theorem exists_line (r : Record) : ∃ inner, r.line = '\x7b' :: (inner ++ ['\x7d']) := by
  cases r <;> exact ⟨_, rfl⟩

theorem trim_line (r : Record) : Text.trim r.line = r.line := by
  obtain ⟨inner, hline⟩ := r.exists_line
  rw [hline]
  refine Text.trim_eq_self_of_ends (Text.trimStart_eq_self rfl) ?_
  rw [Text.trimEnd_eq_reverse, List.reverse_cons, List.reverse_append, List.reverse_singleton,
    List.append_assoc, List.singleton_append, Text.trimStart_eq_self rfl]
  simp

theorem isIgnored_line (r : Record) : isIgnored r.line = false := by
  obtain ⟨inner, hline⟩ := r.exists_line
  rw [hline]
  rfl

/-- A record has no line feed, whatever its texts have. -/
theorem unbroken_line (r : Record) : '\n' ∉ r.line := fun hmem =>
  absurd (Json.visible_render r.writable_json _ hmem) (by decide)

end Record

/-! ## 2. Lines -/

/-- White space on one line. A carriage return in front of the line feed is such, too. -/
structure Padding where
  text : Text
  blank : text.all Blank.isBlank = true
  unbroken : '\n' ∉ text

/-- A line of a capture. -/
inductive Line where
  /-- An observation, with white space around its record. -/
  | record (before : Padding) (o : Observation) (fits : (Record.ofObservation o).Fits)
    (behind : Padding)
  | blank (padding : Padding)
  /-- What follows the sign says nothing. -/
  | comment (t : Text) (unbroken : '\n' ∉ t)

namespace Line

/-- The text of a line. -/
def text : Line → Text
  | record before o _ behind => before.text ++ ((Record.ofObservation o).line ++ behind.text)
  | blank padding => padding.text
  | comment t _ => '#' :: t

/-- What a line says. -/
def observation? : Line → Option Observation
  | record _ o _ _ => some o
  | blank _ | comment _ _ => none

theorem unbroken (l : Line) : '\n' ∉ l.text := by
  cases l with
  | record before o fits behind =>
    simp only [text, List.mem_append, not_or]
    exact ⟨before.unbroken, Record.unbroken_line _, behind.unbroken⟩
  | blank padding => exact padding.unbroken
  | comment t unbroken => exact List.not_mem_cons_of_ne_of_not_mem (by decide) unbroken

end Line

theorem trim_padding (padding : Padding) : Text.trim padding.text = [] := by
  have hnil : Text.trimStart padding.text = [] :=
    List.dropWhile_eq_nil_iff.mpr (List.all_eq_true.mp padding.blank)
  rw [Text.trim, hnil]
  rfl

/-- What is left of a comment when it is trimmed is one, too. -/
theorem isIgnored_comment (t : Text) : isIgnored (Text.trim ('#' :: t)) = true := by
  have hfront : Text.trimEnd ('#' :: t) <+: '#' :: t := by
    rw [Text.trimEnd, ← List.reverse_suffix, List.reverse_reverse]
    exact List.dropWhile_suffix _
  rw [Text.trim, Text.trimStart_eq_self rfl]
  cases hleft : Text.trimEnd ('#' :: t) with
  | nil => rfl
  | cons c rest =>
    rw [hleft, List.cons_prefix_cons] at hfront
    rw [hfront.1]
    rfl

/-- **What a line says is read from it**, whatever its number is. -/
theorem readLine_line (n : Nat) (l : Line) :
    readLine n (Utf8.encode l.text) = .ok l.observation? := by
  unfold readLine
  rw [ReadFault.textOf_encode]
  cases l with
  | record before o fits behind =>
    have htrim := Text.trim_padded (List.all_eq_true.mp before.blank)
      (Record.trim_line (.ofObservation o)) (List.all_eq_true.mp behind.blank)
    simp only [Line.text, htrim, Record.isIgnored_line, Record.parse?_line fits,
      Record.observe_ofObservation, Bool.false_eq_true, if_false]
    rfl
  | blank padding =>
    simp only [Line.text, trim_padding]
    rfl
  | comment t unbroken =>
    simp only [Line.text, isIgnored_comment, if_true]
    rfl

/-! ## 3. Texts -/

/-- The number of the line that a fault tells of. -/
def Fault.line? : Fault → Option Nat
  | unreadable _ => none
  | notRecord n | badPayload n _ => some n

/-- A line that neither says nothing nor is the record of an observation. -/
structure Unusable (bad : Text) : Prop where
  unbroken : '\n' ∉ bad
  speaks : isIgnored (Text.trim bad) = false
  noRecord : ∀ r o, Record.parse? (Text.trim bad) = some r → r.observe ≠ .ok o

/-- **A line that cannot be used is reported by its number.** -/
theorem Unusable.readLine {bad : Text} (h : Unusable bad) (n : Nat) :
    ∃ fault, readLine n (Utf8.encode bad) = .error fault ∧ fault.line? = some n := by
  have hspeaks := h.speaks
  unfold Capture.readLine
  rw [ReadFault.textOf_encode]
  simp only [hspeaks, Bool.false_eq_true, if_false]
  cases hr : Record.parse? (Text.trim bad) with
  | none => exact ⟨.notRecord n, rfl, rfl⟩
  | some r =>
    cases ho : r.observe with
    | ok o => exact absurd ho (h.noRecord r o hr)
    | error cause => exact ⟨.badPayload n cause, by simp only [ho], rfl⟩

/-- Lines that are read leave the reading to those behind them. -/
theorem readLines_append (n : Nat) (lines : List Line) (rest : List Bytes) :
    readLines n (lines.map (fun l => Utf8.encode l.text) ++ rest) =
      (readLines (n + lines.length) rest).map (lines.filterMap Line.observation? ++ ·) := by
  induction lines generalizing n with
  | nil =>
    change readLines n rest = (readLines n rest).map ([] ++ ·)
    cases readLines n rest <;> rfl
  | cons l lines ih =>
    rw [List.map_cons, List.cons_append, readLines, readLine_line, ih, List.length_cons,
      Nat.add_right_comm, Nat.add_assoc]
    rw [List.filterMap_cons]
    cases readLines (n + (lines.length + 1)) rest with
    | error fault => rfl
    | ok os => cases l.observation? <;> rfl

/-- The text of lines, with a line feed between them. One at the end makes one more line, which is
    blank. -/
def textOf : List Text → Text
  | [] => []
  | first :: rest => Seq.joined ['\n'] first rest

/-- **A text is cut into its lines.** -/
theorem read_textOf {ts : List Text} (hne : ts ≠ []) (hlines : ∀ t ∈ ts, '\n' ∉ t) :
    read (Utf8.encode (textOf ts)) = readLines 1 (ts.map Utf8.encode) := by
  obtain ⟨first, rest, rfl⟩ := List.exists_cons_of_ne_nil hne
  have hunbroken : ∀ t ∈ first :: rest, 10 ∉ Utf8.encode t := fun t ht hmem =>
    hlines t ht (Utf8.mem_of_mem_encode (by decide) hmem)
  obtain ⟨hfirst, hrest⟩ := List.forall_mem_cons.mp hunbroken
  have hjoined : Utf8.encode (textOf (first :: rest)) =
      Seq.joined [10] (Utf8.encode first) (rest.map Utf8.encode) :=
    Seq.map_joined Utf8.encode_append ['\n'] first rest
  rw [read, hjoined, Seq.pieces_joined hfirst (List.forall_mem_map.mpr hrest)]
  rfl

theorem read_textOf_lines (lines : List Line) :
    read (Utf8.encode (textOf (lines.map Line.text))) =
      .ok (lines.filterMap Line.observation?) := by
  by_cases hne : lines = []
  · -- no lines are written as one that is empty
    subst hne
    have hempty : read (Utf8.encode (textOf [[]])) = readLines 1 [Utf8.encode []] :=
      read_textOf (List.cons_ne_nil _ _) (by simp)
    have hline := readLine_line 1 (.blank ⟨[], rfl, List.not_mem_nil⟩)
    exact hempty.trans (readLines_ignored hline [])
  · have hunbroken : ∀ t ∈ lines.map Line.text, '\n' ∉ t :=
      List.forall_mem_map.mpr fun l _ => l.unbroken
    have hall := readLines_append 1 lines []
    rw [List.append_nil] at hall
    rw [read_textOf (List.map_eq_nil_iff.not.mpr hne) hunbroken, List.map_map]
    refine hall.trans ?_
    rw [readLines, Except.map, List.append_nil]

/-- **What was written is read back**: of any lines the observations, in their order and as what
    they are. With a line more that cannot be used, at any place, reading fails with the number of
    that line, in which every line in front of it counts. -/
theorem read_lines (lines : List Line) :
    read (Utf8.encode (textOf (lines.map Line.text))) = .ok (lines.filterMap Line.observation?) ∧
      ∀ i bad, i ≤ lines.length → Unusable bad →
        ∃ fault, read (Utf8.encode (textOf
            ((lines.take i).map Line.text ++ bad :: (lines.drop i).map Line.text))) = .error fault ∧
          fault.line? = some (i + 1) := by
  refine ⟨read_textOf_lines lines, ?_⟩
  intro i bad hi hbad
  have hfront : (lines.take i).length = i := List.length_take_of_le hi
  obtain ⟨fault, hfault, hline⟩ := hbad.readLine (1 + i)
  refine ⟨fault, ?_, hline.trans (by rw [Nat.add_comm])⟩
  have hunbroken : ∀ t ∈ (lines.take i).map Line.text ++ bad :: (lines.drop i).map Line.text,
      '\n' ∉ t := by
    refine List.forall_mem_append.mpr ⟨List.forall_mem_map.mpr fun l _ => l.unbroken, ?_⟩
    exact List.forall_mem_cons.mpr ⟨hbad.unbroken, List.forall_mem_map.mpr fun l _ => l.unbroken⟩
  rw [read_textOf (by simp) hunbroken, List.map_append, List.map_map, List.map_cons]
  refine (readLines_append 1 (lines.take i) _).trans ?_
  rw [hfront, readLines, hfault]
  rfl

/-- The lines of a capture: bytes that are no text, on the flow with the last number, a comment that
    looks like a record, a name with a line feed and quotes, and an empty line behind it. -/
def threeRecords : List Line :=
  [.record ⟨[' '], rfl, by decide⟩ (.bytes ⟨18446744073709551615, true⟩ .response [0, 255, 10])
      (by decide) ⟨['\r'], rfl, by decide⟩,
    .comment "\x7b\"closed\":1\x7d".toList (by decide),
    .record ⟨[], rfl, by decide⟩ (.resolution "#a\n\"b\"".toList ["::1".toList, []]) trivial
      ⟨[], rfl, by decide⟩,
    .record ⟨[], rfl, by decide⟩ (.closed ⟨7, false⟩) (by decide) ⟨[], rfl, by decide⟩,
    .blank ⟨[], rfl, by decide⟩]

/-- With a number below zero in front of the third line, this is the line that is reported. -/
theorem read_lines_three_records :
    read (Utf8.encode (textOf (threeRecords.map Line.text))) =
        .ok [.bytes ⟨18446744073709551615, true⟩ .response [0, 255, 10],
          .resolution "#a\n\"b\"".toList ["::1".toList, []], .closed ⟨7, false⟩] ∧
      ∃ fault, read (Utf8.encode (textOf ((threeRecords.take 2).map Line.text ++
          "\x7b\"closed\":-1\x7d".toList :: (threeRecords.drop 2).map Line.text))) = .error fault ∧
        fault.line? = some 3 := by
  have hnone : Record.parse? (Text.trim "\x7b\"closed\":-1\x7d".toList) = none := by decide +kernel
  have hbad : Unusable "\x7b\"closed\":-1\x7d".toList :=
    { unbroken := by decide, speaks := by decide +kernel,
      noRecord := fun r o hr => by rw [hnone] at hr; cases hr }
  obtain ⟨hread, hreported⟩ := read_lines threeRecords
  exact ⟨hread, hreported 2 _ (by decide) hbad⟩

end TrafficGate.Capture
