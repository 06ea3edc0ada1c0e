import Mathlib.Data.List.Induction
import Mathlib.Data.List.Nodup
import Mathlib.Tactic.Push
import TrafficGate.Verdict.Dispatcher
/-!
  # Repetitions

  A dispatcher is asked for one verdict after the other. Which of them it publishes is said by the
  verdicts before: those since its set of keys was last emptied.

  1. `Submission`, `Ruling` and `history` -- what is asked for, and what becomes of it;
  2. a single ruling, for a new key and for any other;
  3. `since` -- the rulings since the set was last emptied, and `Recalls` -- their keys are in it;
  4. stretches of rulings in which nothing is forgotten;
  5. bodies, with a keeper that may refuse each of them;
  6. every history.

  Main facts: **`Recalls.ruling`** (one step), **`recalls_of_mem_history`** (a whole history),
  **`Ruling.clears_iff`** (when the set is emptied), **`countP_tells`** (each key once),
  **`Ruling.events_eq`** (where each body goes) and **`history_repetitions`**.
-/

namespace TrafficGate.Verdict

open Exchange

/-! ## 1. Histories -/

/-- A verdict that is to be published. -/
structure Submission where
  now : Time.Timestamp
  request : Request
  response : Option Response
  /-- The rule that matched. -/
  matched : Option Rule
  deriving DecidableEq, Repr

/-- What became of a submission, with the dispatcher and the world before and after. -/
structure Ruling (W : Type) where
  submission : Submission
  before : Dispatcher
  worldBefore : W
  disposition : Disposition
  events : List Event
  after : Dispatcher
  worldAfter : W

variable {W V : Type}

/-- What a dispatcher makes of a submission. -/
def Submission.ruling (keeper : Keeper W) (c : Submission) (d : Dispatcher) (w : W) : Ruling W :=
  let (disposition, events, after, worldAfter) :=
    Dispatcher.dispatch keeper c.now c.request c.response c.matched d w
  { submission := c, before := d, worldBefore := w, disposition, events, after, worldAfter }

/-- What a dispatcher makes of a sequence of submissions, one after the other. -/
def history (keeper : Keeper W) : List Submission → Dispatcher → W → List (Ruling W)
  | [], _, _ => []
  | c :: rest, d, w =>
    c.ruling keeper d w ::
      history keeper rest (c.ruling keeper d w).after (c.ruling keeper d w).worldAfter

namespace Ruling

/-- What a repetition of the request is recognised by. -/
def key? (o : Ruling W) : Option Text := o.submission.request.dedupKey?

/-- The channel of the classification. -/
def channel (o : Ruling W) : Channel := (Classification.ofMatch o.submission.matched).channel

/-- The set lost a key. -/
def Clears (o : Ruling W) : Prop := ∃ key ∈ o.before.seen, key ∉ o.after.seen

/-- The request has a key that none of the rulings has. -/
def NewTo (rulings : List (Ruling W)) (o : Ruling W) : Prop :=
  ∃ key, o.key? = some key ∧ ∀ p ∈ rulings, p.key? ≠ some key

/-- A verdict on a request of this key is published. -/
def Tells (key : Text) (o : Ruling W) : Prop := o.key? = some key ∧ o.events ≠ []

instance (o : Ruling W) : Decidable o.Clears := by
  unfold Clears
  infer_instance

instance (key : Text) (o : Ruling W) : Decidable (o.Tells key) := by
  unfold Tells
  infer_instance

end Ruling

/-! ## 2. A single ruling -/

section Single

variable {keeper : Keeper W} {c : Submission} {d : Dispatcher} {w : W} {key : Text}

/-- The ruling on a request with a key that the set does not hold. -/
theorem ruling_of_new (hk : c.request.dedupKey? = some key) (hn : key ∉ d.seen) :
    c.ruling keeper d w =
      { submission := c, before := d, worldBefore := w,
        disposition := Dispatcher.dispositionFor c.request c.matched,
        events := ((d.note key).publish keeper c.now c.request c.response c.matched w).1,
        after := d.note key,
        worldAfter := ((d.note key).publish keeper c.now c.request c.response c.matched w).2 } := by
  have hfirst : d.firstSeen c.request = (true, d.note key) := by
    unfold Dispatcher.firstSeen
    rw [hk]
    simp [hn]
  unfold Submission.ruling Dispatcher.dispatch
  rw [hfirst]

/-- The ruling on any other request. -/
theorem ruling_of_known (h : ∀ key, c.request.dedupKey? = some key → key ∈ d.seen) :
    c.ruling keeper d w =
      { submission := c, before := d, worldBefore := w,
        disposition := Dispatcher.dispositionFor c.request c.matched,
        events := [], after := d, worldAfter := w } := by
  have hfirst : d.firstSeen c.request = (false, d) := by
    unfold Dispatcher.firstSeen
    cases hk : c.request.dedupKey? with
    | none => rfl
    | some key => simp [h key hk]
  unfold Submission.ruling Dispatcher.dispatch
  rw [hfirst]

/-- **The disposition says whether a rule matched, whatever is published.** -/
theorem ruling_abort_iff {url : Text} {rule : Option Rule} :
    (c.ruling keeper d w).disposition = .abort url rule ↔
      url = c.request.url ∧ ∃ r, c.matched = some r ∧ rule = some r := by
  have h : (c.ruling keeper d w).disposition = Dispatcher.dispositionFor c.request c.matched :=
    Dispatcher.dispatch_disposition keeper c.now c.request c.response c.matched d w
  rw [h]
  unfold Dispatcher.dispositionFor
  cases c.matched with
  | none => simp
  | some r =>
    simp only [Disposition.abort.injEq, Option.some.injEq, exists_eq_left']
    constructor
    · rintro ⟨rfl, rfl⟩
      exact ⟨rfl, rfl⟩
    · rintro ⟨rfl, rfl⟩
      exact ⟨rfl, rfl⟩

end Single

/-! ## 3. What the set recalls -/

/-- The rulings since the set was last emptied, with the one that emptied it. -/
def since (rulings : List (Ruling W)) : List (Ruling W) :=
  rulings.foldl (fun window o => if o.Clears then [o] else window ++ [o]) []

@[simp] theorem since_nil : since ([] : List (Ruling W)) = [] := rfl

theorem since_concat (rulings : List (Ruling W)) (o : Ruling W) :
    since (rulings ++ [o]) = if o.Clears then [o] else since rulings ++ [o] := by
  simp [since, List.foldl_append]

/-- **Nothing was forgotten in the rulings since the set was last emptied**, and they reach back to
    the ruling that emptied it or to the beginning. -/
theorem since_spec (rulings : List (Ruling W)) :
    ∃ earlier, rulings = earlier ++ since rulings ∧ (∀ o ∈ (since rulings).tail, ¬ o.Clears) ∧
      (earlier = [] ∨ ∃ o ∈ (since rulings).head?, o.Clears) := by
  induction rulings using List.reverseRecOn with
  | nil => exact ⟨[], rfl, by simp, .inl rfl⟩
  | append_singleton rulings o ih =>
    obtain ⟨earlier, hsplit, hquiet, hstart⟩ := ih
    rw [since_concat]
    by_cases ho : o.Clears
    · rw [if_pos ho]
      exact ⟨rulings, rfl, by simp, .inr ⟨o, rfl, ho⟩⟩
    · rw [if_neg ho]
      refine ⟨earlier, by rw [← List.append_assoc, ← hsplit], ?_, ?_⟩
      · cases hs : since rulings with
        | nil => simp
        | cons first rest =>
          rw [hs] at hquiet
          intro p hp
          rcases List.mem_append.mp hp with hp | hp
          · exact hquiet p hp
          · rwa [List.mem_singleton.mp hp]
      · rcases hstart with rfl | ⟨p, hp, hc⟩
        · exact .inl rfl
        · refine .inr ⟨p, ?_, hc⟩
          rw [List.head?_append_of_ne_nil]
          · exact hp
          · rintro hnil
            rw [hnil] at hp
            cases hp

/-- A dispatcher of this capacity whose set holds the keys of the rulings, each once. -/
structure Recalls (capacity threshold : Nat) (window : List (Ruling W)) (d : Dispatcher) : Prop where
  capacity_eq : d.capacity = capacity
  threshold_eq : d.threshold = threshold
  nodup : d.seen.Nodup
  length_le : d.seen.length ≤ capacity
  mem_iff : ∀ key, key ∈ d.seen ↔ ∃ p ∈ window, p.key? = some key

/-- A new dispatcher recalls nothing. -/
theorem Recalls.empty (capacity threshold : Nat) :
    Recalls (W := W) (max capacity 1) threshold [] (Dispatcher.empty capacity threshold) :=
  ⟨rfl, rfl, List.nodup_nil, Nat.zero_le _, by simp [Dispatcher.empty]⟩

section Step

variable {capacity threshold : Nat} {window : List (Ruling W)} {keeper : Keeper W} {c : Submission}
  {d : Dispatcher} {w : W}

/-- The request of a ruling is new to a window just when the set does not hold its key. -/
theorem Recalls.newTo_iff (h : Recalls capacity threshold window d) :
    (c.ruling keeper d w).NewTo window ↔ ∃ key, c.request.dedupKey? = some key ∧ key ∉ d.seen := by
  have hkey : (c.ruling keeper d w).key? = c.request.dedupKey? := rfl
  unfold Ruling.NewTo
  rw [hkey]
  refine exists_congr fun key => and_congr_right fun _ => ?_
  rw [h.mem_iff]
  push Not
  rfl

/-- What is not new is held by the set. -/
theorem Recalls.known_of_not_newTo (h : Recalls capacity threshold window d)
    (hn : ¬ (c.ruling keeper d w).NewTo window) :
    ∀ key, c.request.dedupKey? = some key → key ∈ d.seen := by
  intro key hk
  by_contra hmem
  exact hn (h.newTo_iff.mpr ⟨key, hk, hmem⟩)

variable (keeper c w) in
/-- **The set is emptied just when a new key comes and the set is full.** -/
theorem Recalls.clears_iff (hc : 0 < capacity) (h : Recalls capacity threshold window d) :
    (c.ruling keeper d w).Clears ↔
      (c.ruling keeper d w).NewTo window ∧ d.seen.length = capacity := by
  by_cases hn : (c.ruling keeper d w).NewTo window
  · obtain ⟨key, hk, hmem⟩ := h.newTo_iff.mp hn
    rw [ruling_of_new hk hmem]
    simp only [Ruling.Clears, Dispatcher.note, h.capacity_eq]
    by_cases hfull : capacity ≤ d.seen.length
    · have hlen : d.seen.length = capacity := Nat.le_antisymm h.length_le hfull
      rw [if_pos hfull]
      refine iff_of_true ?_ ⟨hn, hlen⟩
      -- a full set holds some key, and the new one is another
      obtain ⟨old, hold⟩ := List.exists_mem_of_length_pos (show 0 < d.seen.length by omega)
      refine ⟨old, hold, fun heq => hmem ?_⟩
      rwa [← List.mem_singleton.mp heq]
    · rw [if_neg hfull]
      refine iff_of_false ?_ fun hand => hfull (Nat.le_of_eq hand.2.symm)
      rintro ⟨old, hold, hlost⟩
      exact hlost (List.mem_cons_of_mem key hold)
  · rw [ruling_of_known (h.known_of_not_newTo hn)]
    refine iff_of_false ?_ fun hand => hn hand.1
    rintro ⟨old, hold, hlost⟩
    exact hlost hold

variable (keeper c w) in
/-- **One ruling**: what the set recalls after it. -/
theorem Recalls.ruling (hc : 0 < capacity) (h : Recalls capacity threshold window d) :
    Recalls capacity threshold
      (if (c.ruling keeper d w).Clears then [c.ruling keeper d w]
        else window ++ [c.ruling keeper d w])
      (c.ruling keeper d w).after := by
  have hkey : (c.ruling keeper d w).key? = c.request.dedupKey? := rfl
  have hclears := h.clears_iff keeper c w hc
  by_cases hn : (c.ruling keeper d w).NewTo window
  · obtain ⟨key, hk, hmem⟩ := h.newTo_iff.mp hn
    have hafter : (c.ruling keeper d w).after = d.note key := by rw [ruling_of_new hk hmem]
    rw [hafter]
    by_cases hfull : d.seen.length = capacity
    · rw [if_pos (hclears.mpr ⟨hn, hfull⟩)]
      have hcap := h.capacity_eq
      have hnote : d.note key = { d with seen := [key] } := by
        rw [Dispatcher.note, if_pos (by omega)]
      rw [hnote]
      refine ⟨h.capacity_eq, h.threshold_eq, List.nodup_singleton key, hc, fun k => ?_⟩
      simp only [List.mem_singleton, exists_eq_left, hkey, hk, Option.some.injEq]
      exact eq_comm
    · rw [if_neg fun hcl => hfull (hclears.mp hcl).2]
      have hroom : d.seen.length < capacity := Nat.lt_of_le_of_ne h.length_le hfull
      have hcap := h.capacity_eq
      have hnote : d.note key = { d with seen := key :: d.seen } := by
        rw [Dispatcher.note, if_neg (by omega)]
      rw [hnote]
      refine ⟨h.capacity_eq, h.threshold_eq, List.nodup_cons.mpr ⟨hmem, h.nodup⟩, hroom, fun k => ?_⟩
      simp only [List.mem_cons, List.mem_append, List.not_mem_nil, or_false, h.mem_iff, or_and_right,
        exists_or, exists_eq_left, hkey, hk, Option.some.injEq]
      rw [or_comm, eq_comm (a := k)]
  · have hknown := h.known_of_not_newTo hn
    have hafter : (c.ruling keeper d w).after = d := by rw [ruling_of_known hknown]
    rw [if_neg fun hcl => hn (hclears.mp hcl).1, hafter]
    refine ⟨h.capacity_eq, h.threshold_eq, h.nodup, h.length_le, fun k => ?_⟩
    simp only [List.mem_append, List.mem_singleton, or_and_right, exists_or, exists_eq_left, hkey,
      ← h.mem_iff]
    exact ⟨.inl, fun hor => hor.elim id (hknown k)⟩

end Step

/-- **A whole history**: each ruling in it was made with a set that recalls what came before. -/
theorem recalls_of_mem_history {capacity threshold : Nat} (hc : 0 < capacity) {keeper : Keeper W}
    {calls : List Submission} {past before after : List (Ruling W)} {d : Dispatcher} {w : W}
    {o : Ruling W} (h : Recalls capacity threshold (since past) d)
    (hsplit : history keeper calls d w = before ++ o :: after) :
    Recalls capacity threshold (since (past ++ before)) o.before ∧
      o = o.submission.ruling keeper o.before o.worldBefore := by
  induction before generalizing past calls d w with
  | nil =>
    cases calls with
    | nil => cases hsplit
    | cons c rest =>
      obtain rfl : c.ruling keeper d w = o := (List.cons.inj hsplit).1
      rw [List.append_nil]
      exact ⟨h, rfl⟩
  | cons first before ih =>
    cases calls with
    | nil => cases hsplit
    | cons c rest =>
      obtain ⟨hfirst, hrest⟩ := List.cons.inj hsplit
      have hnext := h.ruling keeper c w hc
      rw [← since_concat, hfirst] at hnext
      rw [hfirst] at hrest
      have := ih hnext hrest
      rwa [List.append_assoc] at this

/-- The same from the beginning. -/
theorem recalls_of_mem_start {capacity threshold : Nat} (hc : 0 < capacity) {keeper : Keeper W}
    {calls : List Submission} {before after : List (Ruling W)} {d : Dispatcher} {w : W}
    {o : Ruling W} (h : Recalls (W := W) capacity threshold [] d)
    (hsplit : history keeper calls d w = before ++ o :: after) :
    Recalls capacity threshold (since before) o.before ∧
      o = o.submission.ruling keeper o.before o.worldBefore := by
  have hstart : Recalls capacity threshold (since ([] : List (Ruling W))) d := h
  exact recalls_of_mem_history hc hstart hsplit

/-! ## 4. Stretches -/

/-- What comes since a beginning or an emptying, when nothing is forgotten behind it. -/
theorem since_stretch {pre mid : List (Ruling W)} {first : Ruling W}
    (hstart : pre = [] ∨ first.Clears) (hquiet : ∀ o ∈ mid, ¬ o.Clears) :
    since (pre ++ first :: mid) = first :: mid := by
  induction mid using List.reverseRecOn with
  | nil =>
    rw [since_concat]
    rcases hstart with rfl | hclears
    · simp
    · rw [if_pos hclears]
  | append_singleton mid o ih =>
    have hbefore := ih fun p hp => hquiet p (List.mem_append_left [o] hp)
    have ho : ¬ o.Clears := hquiet o (List.mem_append_right mid (List.mem_singleton_self o))
    rw [← List.cons_append, ← List.append_assoc, since_concat, if_neg ho, hbefore]

/-- A verdict is published just when the request is new to what came before. -/
theorem Recalls.events_ne_nil_iff {capacity threshold : Nat} {window : List (Ruling W)} {keeper : Keeper W}
    {c : Submission} {d : Dispatcher} {w : W} (h : Recalls capacity threshold window d) :
    (c.ruling keeper d w).events ≠ [] ↔ (c.ruling keeper d w).NewTo window := by
  by_cases hn : (c.ruling keeper d w).NewTo window
  · obtain ⟨key, hk, hmem⟩ := h.newTo_iff.mp hn
    refine iff_of_true ?_ hn
    rw [ruling_of_new hk hmem]
    exact List.cons_ne_nil _ _
  · refine iff_of_false ?_ hn
    rw [ruling_of_known (h.known_of_not_newTo hn)]
    exact fun hne => hne rfl

/-- **Between two emptyings each key is published once.** -/
theorem countP_tells {capacity threshold : Nat} (hc : 0 < capacity) {keeper : Keeper W}
    {calls : List Submission} {pre mid post : List (Ruling W)} {first : Ruling W} {d : Dispatcher}
    {w : W} (h : Recalls (W := W) capacity threshold [] d)
    (hsplit : history keeper calls d w = pre ++ first :: mid ++ post)
    (hstart : pre = [] ∨ first.Clears) (hquiet : ∀ o ∈ mid, ¬ o.Clears) (key : Text) :
    (first :: mid).countP (·.Tells key) =
      if ∃ o ∈ first :: mid, o.key? = some key then 1 else 0 := by
  induction mid using List.reverseRecOn generalizing post with
  | nil =>
    have hsplit' : history keeper calls d w = pre ++ first :: post := by
      rw [hsplit, List.append_assoc]
      rfl
    obtain ⟨hrecalls, ho⟩ := recalls_of_mem_start hc h hsplit'
    -- the first ruling of a stretch is published when its request has a key at all
    have hpublished : first.key? = some key → first.events ≠ [] := by
      intro hkey
      rw [ho]
      refine hrecalls.events_ne_nil_iff.mpr ?_
      rcases hstart with rfl | hclears
      · exact ⟨key, hkey, by simp⟩
      · rw [ho] at hclears
        exact ((hrecalls.clears_iff keeper _ _ hc).mp hclears).1
    by_cases hkey : first.key? = some key
    · simp [Ruling.Tells, hkey, hpublished hkey]
    · simp [Ruling.Tells, hkey]
  | append_singleton mid o ih =>
    have hsplit' : history keeper calls d w = pre ++ first :: mid ++ o :: post := by
      rw [hsplit]
      simp
    have hquiet' : ∀ p ∈ mid, ¬ p.Clears := fun p hp => hquiet p (List.mem_append_left [o] hp)
    obtain ⟨hrecalls, ho⟩ := recalls_of_mem_start hc h hsplit'
    rw [since_stretch hstart hquiet'] at hrecalls
    have hpublished : o.events ≠ [] ↔ o.NewTo (first :: mid) := by
      rw [ho]
      exact hrecalls.events_ne_nil_iff
    rw [← List.cons_append, List.countP_append, ih hsplit' hquiet']
    by_cases hkey : o.key? = some key
    · -- the key is published here unless it was before
      have hnew : o.NewTo (first :: mid) ↔ ¬ ∃ p ∈ first :: mid, p.key? = some key := by
        simp only [Ruling.NewTo, hkey, Option.some.injEq, exists_eq_left', not_exists, not_and, ne_eq]
      by_cases hbefore : ∃ p ∈ first :: mid, p.key? = some key
      · have hquietly : ¬ o.events ≠ [] := fun hne => hnew.mp (hpublished.mp hne) hbefore
        obtain ⟨p, hp, hpk⟩ := hbefore
        rw [if_pos ⟨p, hp, hpk⟩, if_pos ⟨p, List.mem_append_left [o] hp, hpk⟩]
        simp [Ruling.Tells, not_not.mp hquietly]
      · have hloudly : o.events ≠ [] := hpublished.mpr (hnew.mpr hbefore)
        rw [if_neg hbefore,
          if_pos ⟨o, List.mem_append_right _ (List.mem_singleton_self o), hkey⟩]
        simp [Ruling.Tells, hkey, hloudly]
    · have hsame : (∃ p ∈ first :: mid ++ [o], p.key? = some key) ↔
          ∃ p ∈ first :: mid, p.key? = some key := by
        simp [hkey]
      simp only [hsame, List.countP_singleton, Ruling.Tells, hkey, false_and, decide_false,
        Bool.false_eq_true, if_false, Nat.add_zero]

/-! ## 5. Bodies -/

/-- The reference to a body, by what the keeper answered when it was asked to take it. -/
def reference (threshold : Nat) (body : Option Bytes) (mimeType : Option Text)
    (handle : Option Text) : Option BodyRef :=
  body.bind fun bytes =>
    if bytes.length < threshold then some (.inPlace bytes)
    else handle.map fun handle =>
      .stored handle (mimeType.getD Dispatcher.defaultMimeType) bytes.length

/-- What the keeper answers about a body, if it is asked at all. -/
def asked (keeper : Keeper W) (threshold : Nat) (body : Option Bytes) (mimeType : Option Text)
    (w : W) : Option Text × W :=
  match body with
  | none => (none, w)
  | some bytes =>
    if bytes.length < threshold then (none, w)
    else keeper.keep bytes (mimeType.getD Dispatcher.defaultMimeType) w

/-- **A body that is refused is left out**; any other is in place or has its handle. -/
theorem bodyRef_eq (keeper : Keeper W) (d : Dispatcher) (body : Option Bytes)
    (mimeType : Option Text) (w : W) :
    d.bodyRef keeper body mimeType w =
      (reference d.threshold body mimeType (asked keeper d.threshold body mimeType w).1,
        (asked keeper d.threshold body mimeType w).2) := by
  unfold Dispatcher.bodyRef reference asked
  cases body with
  | none => rfl
  | some bytes =>
    by_cases hlen : bytes.length < d.threshold
    · simp [hlen]
    · simp only [hlen, if_false, Option.bind_some]
      cases keeper.keep bytes (mimeType.getD Dispatcher.defaultMimeType) w with
      | mk handle w' => cases handle <;> rfl

namespace Ruling

/-- The keeper's answer about the body of the request. -/
def requestReply (keeper : Keeper W) (threshold : Nat) (o : Ruling W) : Option Text × W :=
  asked keeper threshold o.submission.request.body o.submission.request.contentType o.worldBefore

/-- The body of the response, and its type. -/
def responseBody (o : Ruling W) : Option Bytes × Option Text :=
  (o.submission.response.bind (·.body), o.submission.response.bind (·.mimeType?))

/-- The keeper's answer about the body of the response, which comes second. -/
def responseReply (keeper : Keeper W) (threshold : Nat) (o : Ruling W) : Option Text × W :=
  asked keeper threshold o.responseBody.1 o.responseBody.2 (o.requestReply keeper threshold).2

/-- The copy for a channel, with each body as the keeper answered about that body. -/
def copy (keeper : Keeper W) (threshold : Nat) (o : Ruling W) (channel : Channel) : Event :=
  Event.of o.submission.request o.submission.response o.submission.matched
    (reference threshold o.submission.request.body o.submission.request.contentType
      (o.requestReply keeper threshold).1)
    (reference threshold o.responseBody.1 o.responseBody.2 (o.responseReply keeper threshold).1)
    channel o.submission.now

/-- A ruling but for the bodies that it publishes and for the world. -/
def bodiless (o : Ruling W) : Submission × Disposition × List Event × Dispatcher × Dispatcher :=
  (o.submission, o.disposition,
    o.events.map fun e => { e with requestBody := none, responseBody := none },
    o.before, o.after)

end Ruling

/-- About a request that is not new nothing is published, and the keeper is not asked. -/
theorem Recalls.silent {capacity threshold : Nat} {window : List (Ruling W)} {d : Dispatcher}
    (h : Recalls capacity threshold window d) (keeper : Keeper W) (c : Submission) (w : W)
    (hn : ¬ (c.ruling keeper d w).NewTo window) :
    (c.ruling keeper d w).events = [] ∧
      (c.ruling keeper d w).worldAfter = (c.ruling keeper d w).worldBefore := by
  rw [ruling_of_known (h.known_of_not_newTo hn)]
  exact ⟨rfl, rfl⟩

/-- **What is published about a new request.** -/
theorem Recalls.events_eq {capacity threshold : Nat} {window : List (Ruling W)} {d : Dispatcher}
    (h : Recalls capacity threshold window d) (keeper : Keeper W) (c : Submission) (w : W)
    (hn : (c.ruling keeper d w).NewTo window) :
    (c.ruling keeper d w).events =
      [(c.ruling keeper d w).copy keeper threshold (c.ruling keeper d w).channel,
        (c.ruling keeper d w).copy keeper threshold .all] := by
  obtain ⟨key, hk, hmem⟩ := h.newTo_iff.mp hn
  have hthreshold : (d.note key).threshold = threshold := by
    rw [← h.threshold_eq]
    unfold Dispatcher.note
    split <;> rfl
  rw [ruling_of_new hk hmem]
  simp only [Dispatcher.publish, bodyRef_eq, hthreshold]
  rfl

/-- **A keeper changes nothing but the bodies.** Any two keepers, in any worlds, lead to the same
    rulings but for these. -/
theorem map_bodiless_history (keeper : Keeper W) (other : Keeper V) (calls : List Submission)
    (d : Dispatcher) (w : W) (v : V) :
    (history keeper calls d w).map (·.bodiless) = (history other calls d v).map (·.bodiless) := by
  induction calls generalizing d w v with
  | nil => rfl
  | cons c rest ih =>
    have hone : (c.ruling keeper d w).bodiless = (c.ruling other d v).bodiless := by
      by_cases hnew : ∃ key, c.request.dedupKey? = some key ∧ key ∉ d.seen
      · obtain ⟨key, hk, hmem⟩ := hnew
        rw [ruling_of_new hk hmem, ruling_of_new hk hmem]
        rfl
      · have hknown : ∀ key, c.request.dedupKey? = some key → key ∈ d.seen := by
          intro key hk
          by_contra hmem
          exact hnew ⟨key, hk, hmem⟩
        rw [ruling_of_known hknown, ruling_of_known hknown]
        rfl
    have hafter : (c.ruling keeper d w).after = (c.ruling other d v).after :=
      congrArg (fun b => b.2.2.2.2) hone
    simp only [history, List.map_cons, hone, hafter]
    rw [ih]

/-! ## 6. Every history -/

/-- **Every history of a dispatcher**, whatever its capacity and however often its keeper refuses a
    body. A rule that matched is an abort with the URL, published or not. What is new since the set
    was last emptied is published twice, the copies equal apart from the channel, and anything else
    not at all. The set stays within its capacity and is emptied just when a new key finds it full;
    in a stretch without that each key is published once. A refused body is left out, and any other
    keeper leads to the same rulings but for the bodies. -/
theorem history_repetitions (keeper : Keeper W) (capacity threshold : Nat)
    (calls : List Submission) (w : W) :
    let rulings := history keeper calls (Dispatcher.empty capacity threshold) w
    (∀ before o after, rulings = before ++ o :: after →
      (∀ url rule, o.disposition = .abort url rule ↔
        url = o.submission.request.url ∧ ∃ r, o.submission.matched = some r ∧ rule = some r) ∧
      (o.NewTo (since before) →
        ∃ e : Event, o.events = [{ e with channel := o.channel }, { e with channel := .all }]) ∧
      (¬ o.NewTo (since before) → o.events = [] ∧ o.worldAfter = o.worldBefore) ∧
      (o.after.seen.Nodup ∧ o.after.seen.length ≤ max capacity 1) ∧
      (o.Clears ↔ o.NewTo (since before) ∧ o.before.seen.length = max capacity 1) ∧
      (o.NewTo (since before) →
        o.events = [o.copy keeper threshold o.channel, o.copy keeper threshold .all])) ∧
    (∀ pre first mid post, rulings = pre ++ first :: mid ++ post →
      (pre = [] ∨ first.Clears) → (∀ o ∈ mid, ¬ o.Clears) →
      ∀ key, (∃ o ∈ first :: mid, o.key? = some key) →
        (first :: mid).countP (·.Tells key) = 1) ∧
    (∀ (V : Type) (other : Keeper V) (v : V),
      (history other calls (Dispatcher.empty capacity threshold) v).map (·.bodiless) =
        rulings.map (·.bodiless)) := by
  have hc : 0 < max capacity 1 := Nat.lt_of_lt_of_le Nat.zero_lt_one (Nat.le_max_right capacity 1)
  have hstart : Recalls (W := W) (max capacity 1) threshold [] (Dispatcher.empty capacity threshold) :=
    Recalls.empty capacity threshold
  intro rulings
  refine ⟨?ruling, ?stretch, ?keeper⟩
  case ruling =>
    intro before o after hsplit
    obtain ⟨hrecalls, ho⟩ := recalls_of_mem_start hc hstart hsplit
    have hnext := hrecalls.ruling keeper o.submission o.worldBefore hc
    have hclears := hrecalls.clears_iff keeper o.submission o.worldBefore hc
    have hevents := hrecalls.events_eq keeper o.submission o.worldBefore
    have hsilent := hrecalls.silent keeper o.submission o.worldBefore
    rw [← ho] at hnext hclears hevents hsilent
    refine ⟨fun url rule => ?_, fun hn => ⟨o.copy keeper threshold .all, hevents hn⟩, hsilent,
      ⟨hnext.nodup, hnext.length_le⟩, hclears, hevents⟩
    have habort := @ruling_abort_iff W keeper o.submission o.before o.worldBefore url rule
    rwa [← ho] at habort
  case stretch =>
    intro pre first mid post hsplit hat hquiet key hkey
    rw [countP_tells hc hstart hsplit hat hquiet key, if_pos hkey]
  case keeper =>
    intro V other v
    exact map_bodiless_history other keeper calls _ v w

end TrafficGate.Verdict
