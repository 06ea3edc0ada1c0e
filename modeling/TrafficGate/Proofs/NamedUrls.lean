import TrafficGate.Proofs.CanonicalSpelling
import TrafficGate.Proofs.RequestDecisions
import TrafficGate.Proofs.ServedKeys
/-!
  # The URL that a rule names

  A URL rule is kept as it is written. It blocks the URL that it was added from when that URL is in
  canonical form, if the source answers and the cache does not say otherwise from the time before
  the rule was added.

  1. requests that a key is looked up for;
  2. calls and requests for the URL;
  3. every URL in canonical form, and URLs that are not blocked.

  Main facts: **`Decides.finds`** (a run of look-ups), **`onBytes_finds`**, **`url_rule_blocks`** and
  **`url_rule_passed_over`**.
-/

namespace TrafficGate

namespace Engine

open Http TrafficGate.Stream Exchange Rule Verdict Store

/-! ## 1. Requests -/

namespace State

section Traffic

variable {W : Type} {backend : Backend W} {fit : W → Prop} {key : Key} {now : Time.Moment}
  {s : State W}

/-- **In a run of decisions every request that the key is looked up for is blocked.** -/
theorem Decides.finds {flow : FlowId} {t : State W} {verdicts : List (Request × Option Rule)}
    (h : Decides backend now flow s verdicts t) (hb : backend.Finds fit key)
    (hs : s.ReadyFor fit now key) :
    ∀ v ∈ verdicts, v.1.canonical ≠ [] → candidate v.1.canonical key.kind = key.value →
      v.2 ≠ none := by
  induction h with
  | nil s => exact List.forall_mem_nil _
  | @wait s t u r rest hl _ ih =>
    have ht : t.ReadyFor fit now key := by
      have hready := hs.lookUp hb r.canonical
      rwa [hl] at hready
    intro v hv hne hvalue
    rcases List.mem_cons.mp hv with rfl | hv
    · -- without a rule it would wait, but the look-up finds one
      obtain ⟨rule, hrule⟩ := lookUp_finds hb hs hne hvalue
      rw [hl] at hrule
      cases hrule
    · exact ih ⟨ht.world, ht.cache⟩ v hv hne hvalue
  | @block s t u r rule rest hl _ ih =>
    have ht : t.ReadyFor fit now key := by
      have hready := hs.lookUp hb r.canonical
      rwa [hl] at hready
    intro v hv hne hvalue
    rcases List.mem_cons.mp hv with rfl | hv
    · exact Option.some_ne_none rule
    · exact ih ⟨fit_dispatch hb.toKeeps ht.world now r none (some rule), ht.cache⟩ v hv hne hvalue

/-- One block among the decisions aborts. -/
theorem isAbort_firstBlock {verdicts : List (Request × Option Rule)}
    {v : Request × Option Rule} (hv : v ∈ verdicts) (hblock : v.2 ≠ none) :
    (firstBlock verdicts).isAbort = true := by
  unfold firstBlock
  cases hfind : verdicts.findSome? fun v => v.2.map fun rule => (v.1, rule) with
  | some found => rfl
  | none =>
    have hnone := List.findSome?_eq_none_iff.mp hfind v hv
    exact absurd (Option.map_eq_none_iff.mp hnone) hblock

/-- The request of a message whose target is an absolute URL. -/
theorem usable?_absolute (config : Config) (flow : FlowId) (snapshot : Option Text) {m : Message}
    {line : RequestLine} (hline : RequestLine.parse m.startLine = .ok line)
    (habsolute : Request.isAbsolute line.target = true) :
    ∃ r, usable? config flow snapshot (.message m) = some r ∧ r.url = line.target ∧
      r.canonical = Url.canonical line.target := by
  have hurl : ∀ field, Request.urlOf flow.scheme line.target field = .ok line.target := by
    intro field
    rw [Request.urlOf, if_pos habsolute]
  simp only [usable?, Framed.message?, Option.bind_some, Request.ofMessage, hline, hurl,
    Except.toOption, Option.map_some]
  exact ⟨_, rfl, rfl, rfl⟩

/-- **Bytes that complete a request that the key is looked up for are aborted**, and if they complete
    nothing else because of that request. -/
theorem onBytes_finds (hb : backend.Finds fit key) (hs : s.ReadyFor fit now key) {flow : FlowId}
    {bytes : Bytes} {snapshot : Option Text} {m : Message} {line : RequestLine}
    (hm : .message m ∈ (s.framed flow .request bytes).1)
    (hline : RequestLine.parse m.startLine = .ok line)
    (habsolute : Request.isAbsolute line.target = true) (hne : Url.canonical line.target ≠ [])
    (hvalue : candidate (Url.canonical line.target) key.kind = key.value) :
    (s.onBytes backend now flow .request bytes snapshot).1.isAbort = true ∧
      ((s.framed flow .request bytes).1 = [.message m] →
        ∃ rule, (s.onBytes backend now flow .request bytes snapshot).1 =
          .abort line.target (some rule)) := by
  have hrun := handlesAll_onBytes backend now flow .request snapshot s bytes
  have hcalm := callActs_calm now flow .request snapshot hb.toCalm hs.world bytes
  obtain ⟨verdicts, hrequests, hdecides, habort⟩ := hrun.decides hcalm
  have hdisposition :
      (s.onBytes backend now flow .request bytes snapshot).1 = firstBlock verdicts := by
    rw [fst_onBytes, hcalm]
    exact habort
  have hfinds := hdecides.finds hb ⟨hs.world, hs.cache⟩
  obtain ⟨r, hr, hurl, hcanonical⟩ := usable?_absolute s.config flow snapshot hline habsolute
  rw [← hcanonical] at hne hvalue
  rw [hdisposition]
  constructor
  · have hmem : r ∈ verdicts.map Prod.fst := by
      rw [hrequests]
      exact List.mem_filterMap.mpr ⟨.message m, hm, hr⟩
    obtain ⟨v, hv, rfl⟩ := List.mem_map.mp hmem
    exact isAbort_firstBlock hv (hfinds v hv hne hvalue)
  · intro hsingle
    have hone : verdicts.map Prod.fst = [r] := by
      rw [hrequests, hsingle, List.filterMap_cons_some hr, List.filterMap_nil]
    obtain ⟨v, rfl, rfl⟩ := List.map_eq_singleton_iff.mp hone
    obtain ⟨rule, hrule⟩ := Option.ne_none_iff_exists'.mp
      (hfinds v (List.mem_singleton_self v) hne hvalue)
    refine ⟨rule, ?_⟩
    rw [← hurl, firstBlock, List.findSome?_cons, hrule]
    rfl

/-! ## 2. The URL -/

/-- Every call for the URL is aborted because of it, and so are bytes that complete a request with
    the URL as its target, because of that request if they complete nothing else. -/
def AbortsUrl (backend : Backend W) (now : Time.Moment) (url : Text) (s : State W) : Prop :=
  (∀ call : Call, call.url = url →
    ∃ rule, (s.onCall backend now call).1 = .abort url (some rule)) ∧
  ∀ flow bytes snapshot m line, .message m ∈ (s.framed flow .request bytes).1 →
    RequestLine.parse m.startLine = .ok line → line.target = url →
    (s.onBytes backend now flow .request bytes snapshot).1.isAbort = true ∧
      ((s.framed flow .request bytes).1 = [.message m] →
        ∃ rule, (s.onBytes backend now flow .request bytes snapshot).1 = .abort url (some rule))

theorem abortsUrl {url : Text} (hb : backend.Finds fit { kind := .url, value := Url.canonical url })
    (hs : s.ReadyFor fit now { kind := .url, value := Url.canonical url })
    (hne : Url.canonical url ≠ []) (habsolute : Request.isAbsolute url = true) :
    s.AbortsUrl backend now url := by
  refine ⟨fun call hcall => ?_, fun flow bytes snapshot m line hm hline htarget => ?_⟩
  · subst hcall
    exact onCall_finds hb hs call hne rfl
  · subst htarget
    exact onBytes_finds hb hs hm hline habsolute hne rfl

end Traffic

end State

/-! ## 3. Every URL in canonical form -/

/-- **The rule of a URL matches what is looked up for it just when the URL is in canonical form**,
    but perhaps for the slash of an empty path. -/
theorem covers_canonical_iff {url : Text} (hne : url ≠ []) (htrim : Text.trim url = url) :
    Kind.url.covers (Kind.url.normalize url) (Url.canonical url) = true ↔
      Url.canonical url = url ∨ Url.canonical url = url ++ ['/'] := by
  have hrule : Kind.url.normalize url = url := htrim
  rw [hrule, Kind.covers_url_iff hne, Url.prefix_canonical_iff]

/-- **A URL rule blocks the URL it names when that is in canonical form.** For every absolute URL
    without white space around it: its rule matches what is looked up for it just when the URL is
    in canonical form, but perhaps for the slash of an empty path. Then every engine, in every
    state, aborts every call for the URL and every request with the URL as its target, if its book
    holds the rule, or its store answers and the rule is switched on there, and if no cached answer
    that is still good says that no URL rule matches. In a store the URL must have no NUL. Adding
    the URL brings the rule into the book and into the store. -/
theorem url_rule_blocks {url : Text} (habsolute : Request.isAbsolute url = true)
    (htrim : Text.trim url = url) :
    (Kind.url.covers (Kind.url.normalize url) (Url.canonical url) = true ↔
      Url.canonical url = url ∨ Url.canonical url = url ++ ['/']) ∧
    ((Url.canonical url = url ∨ Url.canonical url = url ++ ['/']) →
      (∀ book : Book, { kind := .url, value := Kind.url.normalize url } ∈ (book.add .url url).rules) ∧
      (∀ (s : State (Book × Shelf)) (now : Time.Moment),
        { kind := .url, value := Kind.url.normalize url } ∈ s.world.1.rules →
        s.cache.Without now.tick { kind := .url, value := Url.canonical url } none →
        s.AbortsUrl memory now url) ∧
      (url.NulFree →
        (∀ (d : Database) note time id, d.Readable → (d.addRule .url url note time).1 = .ok id →
          (d.addRule .url url note time).2.Offers .url (Kind.url.normalize url)) ∧
        ∀ (s : State Database) (now : Time.Moment), s.world.Offers .url (Kind.url.normalize url) →
          s.cache.Without now.tick { kind := .url, value := Url.canonical url } none →
          s.AbortsUrl Database.backend now url)) := by
  have hne : url ≠ [] := by
    rintro rfl
    exact absurd habsolute (by decide)
  have hrule : Kind.url.normalize url = url := htrim
  refine ⟨covers_canonical_iff hne htrim, fun hform => ?_⟩
  have hcovers := (covers_canonical_iff hne htrim).mpr hform
  have hprefix : url <+: Url.canonical url := Url.prefix_canonical_iff.mpr hform
  have hcanonical : Url.canonical url ≠ [] := fun hnil =>
    hne (List.prefix_nil.mp (hnil ▸ hprefix))
  refine ⟨fun book => List.mem_append_right _ (List.mem_singleton_self _), fun s now hw hc => ?_,
    fun hnul => ⟨fun d note time id hd h => Database.offers_addRule hd h, fun s now hw hc => ?_⟩⟩
  · exact State.abortsUrl (finds_memory hcovers) ⟨hw, hc⟩ hcanonical habsolute
  · rw [hrule] at hw hcovers
    have hvalue : (Url.canonical url).NulFree := by
      rcases hform with h | h
      · rwa [h]
      · rw [h]
        intro hmem
        rcases List.mem_append.mp hmem with hmem | hmem
        · exact hnul hmem
        · exact absurd hmem (by decide)
    exact State.abortsUrl (Database.finds_backend hne hnul hvalue hcovers) ⟨hw, hc⟩ hcanonical
      habsolute

/-- A call for a URL. -/
def callFor (url : Text) : State.Call :=
  { transport := .library, method := "GET".toList, url, requestHeaders := [], requestBody := none,
    requestContentType := none, response := none, snapshot := none }

/-- A request with `http://h/a` as its target. -/
def requestForPath : Message :=
  { side := .request, raw := Utf8.encode "GET http://h/a HTTP/1.1\r\n\r\n".toList,
    head := "GET http://h/a HTTP/1.1".toList, body := none, status := none }

/-- With the rule for `http://h/a` in the book, a call for that URL and a request with it as its
    target are aborted. -/
theorem url_rule_blocks_path :
    ∃ s, State.start? Config.defaults (ruledPath, Shelf.empty) = some s ∧
      (∃ rule, (s.onCall memory ⟨⟨0, 0⟩, 0⟩ (callFor "http://h/a".toList)).1 =
        .abort "http://h/a".toList (some rule)) ∧
      ∃ rule, (s.onBytes memory ⟨⟨0, 0⟩, 0⟩ ⟨7, false⟩ .request requestForPath.raw none).1 =
        .abort "http://h/a".toList (some rule) := by
  obtain ⟨s, hs⟩ : ∃ s, State.start? Config.defaults (ruledPath, Shelf.empty) = some s := ⟨_, rfl⟩
  have hframed : ((State.start? Config.defaults (ruledPath, Shelf.empty)).all fun s =>
      decide ((s.framed ⟨7, false⟩ .request requestForPath.raw).1 = [.message requestForPath])) =
        true := by
    decide +kernel
  rw [hs, Option.all_some, decide_eq_true_iff] at hframed
  obtain ⟨cache, hcache, hstart⟩ := Option.map_eq_some_iff.mp hs
  obtain ⟨hcall, hbytes⟩ := ((@url_rule_blocks "http://h/a".toList (by decide) (by decide)).2
    (.inl (by decide +kernel))).2.1 s ⟨⟨0, 0⟩, 0⟩ (hstart ▸ List.mem_singleton_self _)
    (hstart ▸ Cache.without_new? hcache)
  obtain ⟨_, habort⟩ := hbytes ⟨7, false⟩ requestForPath.raw none requestForPath
    ⟨"GET".toList, "http://h/a".toList⟩
    (hframed ▸ List.mem_singleton_self _) (by decide +kernel) rfl
  exact ⟨s, hs, hcall (callFor _) rfl, habort hframed⟩

/-- A capital letter in the host. -/
def capitalHost : Text := "https://Ads.test/".toList

/-- A URL in canonical form. -/
def plainUrl : Text := "https://ads.test/".toList

/-- A URL in canonical form with a NUL. -/
def nulUrl : Text := "https://ads.test/\x00".toList

/-- A URL without white space around it that leads to a host. -/
def Names (url : Text) : Prop :=
  Request.isAbsolute url = true ∧ Text.trim url = url ∧
    ∃ p, Url.parts? (Url.beforeQuery url) = some p ∧ p.host ≠ []

/-- What an engine with this store makes of a call for the URL. -/
def storeCall? (d : Database) (url : Text) : Option Disposition :=
  (State.start? Config.defaults d).map fun s =>
    (s.onCall Database.backend ⟨⟨0, 0⟩, 0⟩ (callFor url)).1

/-- **A URL rule does not always block the URL it names.** Not when the host has a capital letter,
    as the rule keeps it and the look-up does not; not when the answer from before the rule was
    added is cached; and not in a store when there is a NUL in the URL, when the store does not
    answer, or when the rule is switched off. -/
theorem url_rule_passed_over :
    (Names capitalHost ∧ Names plainUrl ∧ Names nulUrl) ∧
    ((State.start? Config.defaults (Book.empty.add .url capitalHost, Shelf.empty)).map fun s =>
      (s.onCall memory ⟨⟨0, 0⟩, 0⟩ (callFor capitalHost)).1) = some .proceed ∧
    ((State.start? Config.defaults (Book.empty, Shelf.empty)).map fun s =>
      let t := (s.onCall memory ⟨⟨0, 0⟩, 0⟩ (callFor plainUrl)).2
      ({ t with world := (t.world.1.add .url plainUrl, t.world.2) }.onCall memory ⟨⟨1, 0⟩, 1⟩
        (callFor plainUrl)).1) = some .proceed ∧
    storeCall? (Database.inMemory.addRule .url nulUrl none ⟨0, 0⟩).2 nulUrl = some .proceed ∧
    storeCall? (Database.apart.addRule .url plainUrl none ⟨0, 0⟩).2 plainUrl = some .proceed ∧
    storeCall? ((Database.inMemory.addRule .url plainUrl none ⟨0, 0⟩).2.setRuleEnabled 1 false).2
      plainUrl = some .proceed := by
  refine ⟨⟨⟨by decide, by decide, _, rfl, by decide⟩, ⟨by decide, by decide, _, rfl, by decide⟩,
    by decide, by decide, _, rfl, by decide⟩, ?_, ?_, ?_, ?_, ?_⟩ <;> decide +kernel

end Engine

end TrafficGate
