import TrafficGate.Proofs.JoinedLists
import TrafficGate.Proofs.PercentEscapes
import TrafficGate.Url.Canonical
/-!
  # One URL, many spellings

  A web URL may be written with capitals, with user information, with the port that its scheme stands
  for anyway, with a query and a fragment. None of them is left in its canonical form. As each part
  keeps clear of the characters that end it, the searches that take a URL apart find the parts it was
  put together from, in the URL and in its canonical form.

  1. small letters, and the last place of a character;
  2. `Authority` -- user information, host and port, and what is read of them;
  3. URLs put together from a scheme, an authority and a rest;
  4. `Spelling` -- web URLs in all their parts;
  5. the canonical form, and the host of both.

  Main facts: **`parts?_written`**, **`canonical_text`** and **`canonical_spellings`**.
-/

namespace TrafficGate

/-! ## 1. Texts -/

namespace Ascii

/-- A text without these signs has none of them in small letters. -/
theorem lower_plain {signs t : Text} (hsigns : signs.any isAlpha = false)
    (h : ∀ c ∈ t, c ∉ signs) : ∀ c ∈ lower t, c ∉ signs := by
  intro c hc hsign
  have hnone : isAlpha c = false := Bool.not_eq_true _ ▸ List.any_eq_false.mp hsigns c hsign
  exact h c ((mem_lower_iff hnone).mp hc) hsign

end Ascii

namespace Seq

section CutLast

variable {α : Type} [DecidableEq α] {x : α} {front behind : List α}

theorem cutLast?_eq_none (h : x ∉ behind) : cutLast? x behind = none := by
  induction behind with
  | nil => rfl
  | cons y behind ih =>
    obtain ⟨hy, hbehind⟩ := not_or.mp (mt List.mem_cons.mpr h)
    rw [cutLast?, ih hbehind]
    exact if_neg (Ne.symm hy)

/-- **The last cut is where the element stands and does not come again.** -/
theorem cutLast?_append (h : x ∉ behind) (front : List α) :
    cutLast? x (front ++ x :: behind) = some (front, behind) := by
  induction front with
  | nil =>
    rw [List.nil_append, cutLast?, cutLast?_eq_none h]
    exact if_pos rfl
  | cons y front ih => rw [List.cons_append, cutLast?, ih]

end CutLast

theorem mem_head?_append {α : Type} {x : α} {front behind : List α}
    (h : x ∈ (front ++ behind).head?) : x ∈ front.head? ∨ x ∈ behind.head? := by
  cases front with
  | nil => exact .inr h
  | cons y front => exact .inl h

end Seq

namespace Url

/-! ## 2. Authorities -/

/-- A part that is written behind a sign, if it is there. -/
def led (sign : Char) : Option Text → Text
  | some t => sign :: t
  | none => []

/-- What tells where a URL leads: user information, a host and a port. -/
structure Authority where
  user : Option Text
  host : Text
  port : Option Text

namespace Authority

/-- The user information, with the sign that ends it. -/
def userText (a : Authority) : Text :=
  match a.user with
  | some t => t ++ ['@']
  | none => []

/-- The authority as it is written. -/
def text (a : Authority) : Text := a.userText ++ (a.host ++ led ':' a.port)

end Authority

/-- The text is a host: a name, or a literal address in brackets. -/
inductive IsHost : Text → Prop where
  | name {t : Text} (hne : t ≠ []) (hplain : ∀ c ∈ t, c ∉ "/?#@:[".toList) : IsHost t
  | literal {inside : Text} (hplain : ∀ c ∈ inside, c ∉ "/?#@[]".toList) :
      IsHost ('[' :: inside ++ [']'])

/-- No part of the authority has a character that ends it. -/
structure Authority.Proper (a : Authority) : Prop where
  user : ∀ t ∈ a.user, ∀ c ∈ t, c ∉ "/?#".toList
  host : IsHost a.host
  port : ∀ p ∈ a.port, ∀ c ∈ p, Ascii.isDigit c = true

theorem IsHost.ne_nil {t : Text} (h : IsHost t) : t ≠ [] := by
  rcases h with ⟨hne, _⟩ | _
  · exact hne
  · exact List.cons_ne_nil _ _

/-- In a host are none of the signs around it. -/
theorem IsHost.not_mem {t : Text} (h : IsHost t) {c : Char} (hc : c ∈ "/?#@".toList) : c ∉ t := by
  intro hmem
  cases h with
  | name _ hplain => exact hplain c hmem (List.mem_append_left [':', '['] hc)
  | literal hplain =>
    rcases List.mem_append.mp hmem with hmem | hmem
    · rcases List.mem_cons.mp hmem with rfl | hmem
      · exact absurd hc (by decide)
      · exact hplain c hmem (List.mem_append_left ['[', ']'] hc)
    · rw [List.mem_singleton.mp hmem] at hc
      exact absurd hc (by decide)

/-- **Small letters make another host of a host.** -/
theorem IsHost.lower {t : Text} (h : IsHost t) : IsHost (Ascii.lower t) := by
  cases h with
  | name hne hplain =>
    refine .name ?_ (Ascii.lower_plain (by decide) hplain)
    rwa [Ascii.lower, ne_eq, List.map_eq_nil_iff]
  | @literal inside hplain =>
    have hlower : Ascii.lower ('[' :: inside ++ [']']) = '[' :: Ascii.lower inside ++ [']'] :=
      Ascii.lower_append ('[' :: inside) [']']
    rw [hlower]
    exact .literal (Ascii.lower_plain (by decide) hplain)

/-- Behind the colon of a port are digits only. -/
theorem Authority.Proper.not_mem_port {a : Authority} (h : a.Proper) {c : Char} (hcolon : c ≠ ':')
    (hdigit : Ascii.isDigit c = false) : c ∉ led ':' a.port := by
  intro hmem
  cases hport : a.port with
  | none =>
    rw [hport] at hmem
    cases hmem
  | some p =>
    rw [hport] at hmem
    rcases List.mem_cons.mp hmem with he | hmem
    · exact hcolon he
    · rw [h.port p hport c hmem] at hdigit
      cases hdigit

/-- **The user information is dropped**, whatever at signs it has. -/
theorem Authority.Proper.dropUser_text {a : Authority} (h : a.Proper) :
    dropUser a.text = a.host ++ led ':' a.port := by
  have hat : '@' ∉ a.host ++ led ':' a.port := by
    intro hmem
    rcases List.mem_append.mp hmem with hmem | hmem
    · exact h.host.not_mem (by decide) hmem
    · exact h.not_mem_port (by decide) (by decide) hmem
  cases huser : a.user with
  | none =>
    rw [text, userText, huser, dropUser, List.nil_append, Seq.cutLast?_eq_none hat]
  | some t =>
    have htext : a.text = t ++ '@' :: (a.host ++ led ':' a.port) := by
      rw [text, userText, huser, List.append_assoc]
      rfl
    rw [htext, dropUser, Seq.cutLast?_append hat]

section HostPort

variable {host inside : Text} {port : Option Text}

/-- A port comes behind the only colon of a name. -/
theorem splitName_written (hcolon : ':' ∉ host)
    (hport : ∀ p ∈ port, ∀ c ∈ p, Ascii.isDigit c = true) :
    splitName (host ++ led ':' port) = (host, port) := by
  rw [splitName]
  cases port with
  | none => rw [led, List.append_nil, Seq.cutLast?_eq_none hcolon]
  | some p =>
    have hdigits := hport p rfl
    have hnone : ':' ∉ p := fun hmem => absurd (hdigits _ hmem) (by decide)
    rw [led, Seq.cutLast?_append hnone]
    exact if_pos (List.all_eq_true.mpr hdigits)

/-- A port comes behind the bracket that ends a literal address, whatever colons are in it. -/
theorem splitLiteral_written (hclose : ']' ∉ '[' :: inside) (port : Option Text) :
    splitLiteral ('[' :: inside ++ [']'] ++ led ':' port) = ('[' :: inside ++ [']'], port) := by
  have hcut : Seq.cut? [']'] ('[' :: inside ++ [']'] ++ led ':' port) =
      some ('[' :: inside, led ':' port) := by
    rw [List.append_assoc]
    exact Seq.cut?_of_not_mem hclose [] _
  have hstrip : Seq.stripStart? [':'] (led ':' port) = port := by
    cases port <;> rfl
  rw [splitLiteral, hcut]
  simp only [hstrip]

/-- **A host and a port are told apart.** -/
theorem splitHostPort_written (hhost : IsHost host)
    (hport : ∀ p ∈ port, ∀ c ∈ p, Ascii.isDigit c = true) :
    splitHostPort (host ++ led ':' port) = (host, port) := by
  cases hhost with
  | name hne hplain =>
    have hcolon : ':' ∉ host := fun hmem => hplain _ hmem (by decide)
    have hbracket : "[".toList.isPrefixOf (host ++ led ':' port) = false := by
      obtain ⟨c, t, rfl⟩ := List.exists_cons_of_ne_nil hne
      have hc : '[' ≠ c := fun he => hplain c List.mem_cons_self (he ▸ by decide)
      show ('[' == c && _) = false
      rw [beq_eq_false_iff_ne.mpr hc, Bool.false_and]
    rw [splitHostPort, hbracket, if_neg Bool.false_ne_true, splitName_written hcolon hport]
  | @literal inside hplain =>
    have hclose : ']' ∉ '[' :: inside := by
      intro hmem
      rcases List.mem_cons.mp hmem with he | hmem
      · exact absurd he (by decide)
      · exact hplain _ hmem (by decide)
    have hbracket : "[".toList.isPrefixOf ('[' :: inside ++ [']'] ++ led ':' port) = true := rfl
    rw [splitHostPort, if_pos hbracket, splitLiteral_written hclose]

end HostPort

/-! ## 3. Written URLs -/

/-- The scheme is that of the web, in whatever letters. -/
def IsWeb (scheme : Text) : Prop :=
  Ascii.lower scheme = "http".toList ∨ Ascii.lower scheme = "https".toList

theorem IsWeb.lower {scheme : Text} (h : IsWeb scheme) : IsWeb (Ascii.lower scheme) := by
  rwa [IsWeb, Ascii.lower_lower]

theorem IsWeb.all_isAlpha {scheme : Text} (h : IsWeb scheme) :
    ∀ c ∈ scheme, Ascii.isAlpha c = true := by
  have hlower : (Ascii.lower scheme).all Ascii.isAlpha = true := by
    rcases h with h | h <;> rw [h] <;> decide
  intro c hc
  rw [← Ascii.isAlpha_lowerChar]
  exact List.all_eq_true.mp hlower _ (List.mem_map_of_mem hc)

theorem IsWeb.isScheme {scheme : Text} (h : IsWeb scheme) : isScheme scheme = true := by
  have hne : scheme ≠ [] := by
    rintro rfl
    rcases h with h | h <;> cases h
  rw [Url.isScheme, List.isEmpty_eq_false_iff.mpr hne, List.all_eq_true.mpr]
  · rfl
  · intro c hc
    rw [isSchemeChar, Ascii.isAlnum, h.all_isAlpha c hc]
    rfl

/-- An authority does not end inside. -/
theorem Authority.Proper.text_plain {a : Authority} (h : a.Proper) :
    ∀ c ∈ a.text, c ∉ "/?#".toList := by
  intro c hc hsign
  rcases List.mem_append.mp hc with huser | hc
  · rw [userText] at huser
    split at huser
    · next t ht =>
      rcases List.mem_append.mp huser with huser | hat
      · exact h.user t ht c huser hsign
      · rw [List.mem_singleton.mp hat] at hsign
        exact absurd hsign (by decide)
    · cases huser
  rcases List.mem_append.mp hc with hhost | hport
  · exact h.host.not_mem (List.mem_append_left ['@'] hsign) hhost
  · have hcases : c = '/' ∨ c = '?' ∨ c = '#' := by simpa using hsign
    rcases hcases with rfl | rfl | rfl <;> exact h.not_mem_port (by decide) (by decide) hport

theorem endsAuthority_iff {c : Char} : endsAuthority c = true ↔ c ∈ "/?#".toList := by
  simp [endsAuthority, or_assoc]

/-- A URL of a scheme, with an authority and what comes behind it. -/
def written (scheme : Text) (a : Authority) (rest : Text) : Text :=
  scheme ++ ("://".toList ++ (a.text ++ rest))

/-- **The parts that a web URL was put together from are read of it**; an empty port is none. -/
theorem parts?_written {scheme rest : Text} {a : Authority} (hscheme : IsWeb scheme) (ha : a.Proper)
    (hrest : ∀ c ∈ rest.head?, c ∈ "/?#".toList) :
    parts? (written scheme a rest) =
      some { scheme, host := a.host, port := a.port.filter fun p => !p.isEmpty, path := rest } := by
  have hcolon : ':' ∉ scheme := fun hmem => absurd (hscheme.all_isAlpha _ hmem) (by decide)
  have hcut : Seq.cut? "://".toList (written scheme a rest) = some (scheme, a.text ++ rest) :=
    Seq.cut?_of_not_mem hcolon "//".toList _
  have hplain : ∀ c ∈ a.text, (!endsAuthority c) = true := by
    intro c hc
    rw [Bool.not_eq_true', ← Bool.not_eq_true, endsAuthority_iff]
    exact ha.text_plain c hc
  have hend : ∀ c ∈ rest.head?, (!endsAuthority c) = false := by
    intro c hc
    rw [endsAuthority_iff.mpr (hrest c hc)]
    rfl
  have htake : (a.text ++ rest).takeWhile (fun c => !endsAuthority c) = a.text :=
    Seq.takeWhile_append_of_head hplain hend
  have hdrop : (a.text ++ rest).dropWhile (fun c => !endsAuthority c) = rest :=
    Seq.dropWhile_append_of_head hplain hend
  rw [parts?, hcut]
  simp only [hscheme.isScheme, if_true, htake, hdrop, ha.dropUser_text,
    splitHostPort_written ha.host ha.port]

/-! ## 4. Spellings -/

/-- A web URL as it is spelled, in its parts. -/
structure Spelling extends Authority where
  scheme : Text
  path : Text
  query : Option Text
  fragment : Option Text

namespace Spelling

/-- What is left behind the path. -/
def ignored (u : Spelling) : Text := led '?' u.query ++ led '#' u.fragment

/-- The URL as it is written. -/
def text (u : Spelling) : Text := written u.scheme u.toAuthority (u.path ++ u.ignored)

/-- The parts are written so that the URL has them: the path starts with a slash and ends before a
    query; queries and fragments are any texts. -/
structure Proper (u : Spelling) : Prop where
  scheme : IsWeb u.scheme
  authority : u.toAuthority.Proper
  slash : ∀ c ∈ u.path.head?, c = '/'
  path : ∀ c ∈ u.path, c ∉ "?#".toList

end Spelling

/-- The port that a web scheme stands for. -/
def usualPort (scheme : Text) : Text :=
  if Ascii.lower scheme = "https".toList then "443".toList else "80".toList

namespace Spelling

/-- The port, if it is not the one that the scheme stands for anyway. -/
def otherPort (u : Spelling) : Option Text :=
  u.port.filter fun p => p ≠ [] ∧ p ≠ usualPort u.scheme

/-- The path with its escapes decoded; an empty one is a slash. -/
def plainPath (u : Spelling) : Text := if u.path = [] then ['/'] else percentDecode u.path

/-- Where the URL leads. -/
def plainAuthority (u : Spelling) : Authority :=
  { user := none, host := Ascii.lower u.host, port := u.otherPort }

/-- The spelling that says no more than where the URL leads, in small letters. -/
def plain (u : Spelling) : Text := written (Ascii.lower u.scheme) u.plainAuthority u.plainPath

/-- Two spellings lead to the same place: they differ at most in the letters of scheme and host, in
    user information, query and fragment, in whether the usual port is spelled out, and in how the
    path is escaped. -/
structure Alike (u v : Spelling) : Prop where
  scheme : Ascii.lower u.scheme = Ascii.lower v.scheme
  host : Ascii.lower u.host = Ascii.lower v.host
  port : u.otherPort = v.otherPort
  path : u.plainPath = v.plainPath

end Spelling

/-! ## 5. The canonical form -/

/-- A text whose bytes start with a slash starts with one. -/
theorem exists_slash {out : Bytes} {s : Text} (h : 0x2F :: out = Utf8.encode s) :
    ∃ t, s = '/' :: t := by
  cases s with
  | nil => cases h
  | cons c s =>
    obtain ⟨a, bs, hchar, hfirst⟩ := Utf8.decodeFirst_encodeChar c (Utf8.encode s)
    rw [Utf8.encode_cons, hchar, List.cons_append] at h
    obtain ⟨rfl, -⟩ := List.cons.inj h
    have hread : Utf8.decodeFirst 0x2F (bs ++ Utf8.encode s) =
        (some '/', bs ++ Utf8.encode s) := rfl
    rw [hread] at hfirst
    obtain ⟨hc, -⟩ := Prod.mk.inj hfirst
    exact ⟨s, by rw [Option.some.inj hc]⟩

/-- **A text that starts with a slash does so when it is decoded.** -/
theorem percentDecode_slash (t : Text) : ∃ t', percentDecode ('/' :: t) = '/' :: t' := by
  unfold percentDecode
  cases h : (unescape? (Utf8.encode ('/' :: t))).bind Utf8.decode? with
  | none => exact ⟨t, rfl⟩
  | some s =>
    obtain ⟨bytes, hbytes, hs⟩ := Option.bind_eq_some_iff.mp h
    have hslash : unescape? (Utf8.encode ('/' :: t)) =
        (unescape? (Utf8.encode t)).map (0x2F :: ·) := unescape?_plain (by decide) (by decide) _
    rw [hslash] at hbytes
    obtain ⟨out, -, hout⟩ := Option.map_eq_some_iff.mp hbytes
    exact exists_slash (hout.trans (Utf8.decode?_eq_some_iff.mp hs))

theorem defaultPort?_of_web {scheme : Text} (h : IsWeb scheme) :
    defaultPort? (Ascii.lower scheme) = some (usualPort scheme) := by
  rcases h with h | h <;> rw [defaultPort?, usualPort, h] <;> rfl

/-- **The port is shown if it has to be**: neither an empty port nor the usual one is. -/
theorem shownPort_of_web {scheme : Text} (h : IsWeb scheme) (port : Option Text) :
    shownPort (Ascii.lower scheme) (port.filter fun p => !p.isEmpty) =
      led ':' (port.filter fun p => p ≠ [] ∧ p ≠ usualPort scheme) := by
  cases port with
  | none => rfl
  | some p =>
    by_cases hp : p = []
    · subst hp
      rfl
    · have hshown : (some p).filter (fun p => !p.isEmpty) = some p := by simp [Option.filter, hp]
      rw [hshown, shownPort, defaultPort?_of_web h]
      by_cases husual : usualPort scheme = p
      · simp [Option.filter, husual, led]
      · simp [Option.filter, husual, Ne.symm husual, hp, led]

theorem led_head {sign c : Char} {t : Option Text} (h : c ∈ (led sign t).head?) : c = sign := by
  cases t with
  | none => cases h
  | some t => exact (Option.some.inj h).symm

namespace Spelling

variable {u v : Spelling}

theorem Proper.plainPath_head (h : u.Proper) : ∃ t, u.plainPath = '/' :: t := by
  unfold plainPath
  split
  · exact ⟨[], rfl⟩
  · next hne =>
    obtain ⟨c, t, hpath⟩ := List.exists_cons_of_ne_nil hne
    have hc : c = '/' := h.slash c (by rw [hpath]; rfl)
    rw [hpath, hc]
    exact percentDecode_slash t

/-- Where a URL leads is an authority again. -/
theorem Proper.proper_plainAuthority (h : u.Proper) : u.plainAuthority.Proper where
  user := fun _ ht => nomatch ht
  host := h.authority.host.lower
  port := fun p hp => h.authority.port p (Option.filter_eq_some_iff.mp hp).1

theorem ignored_head (u : Spelling) {c : Char} (h : c ∈ u.ignored.head?) : c ∈ "?#".toList := by
  rcases Seq.mem_head?_append h with hquery | hfragment
  · rw [led_head hquery]
    decide
  · rw [led_head hfragment]
    decide

theorem Proper.beforeQuery_text (h : u.Proper) :
    beforeQuery u.text = written u.scheme u.toAuthority u.path := by
  have htext : u.text = written u.scheme u.toAuthority u.path ++ u.ignored := by
    simp only [text, written, List.append_assoc]
  have hquery : ∀ {c}, (c == '?' || c == '#') = true ↔ c ∈ "?#".toList := by simp
  rw [htext, beforeQuery]
  refine Seq.takeWhile_append_of_head (fun c hc => ?_) fun c hc => ?_
  · rw [Bool.not_eq_true', ← Bool.not_eq_true, hquery]
    intro hsign
    obtain ⟨hletter, hmark, hend⟩ :
        Ascii.isAlpha c = false ∧ c ∉ "://".toList ∧ c ∈ "/?#".toList := by
      have hcases : c = '?' ∨ c = '#' := by simpa using hsign
      rcases hcases with rfl | rfl <;> decide
    rcases List.mem_append.mp hc with hscheme | hc
    · rw [h.scheme.all_isAlpha c hscheme] at hletter
      cases hletter
    rcases List.mem_append.mp hc with hbetween | hc
    · exact hmark hbetween
    rcases List.mem_append.mp hc with hauthority | hpath
    · exact h.authority.text_plain c hauthority hend
    · exact h.path c hpath hsign
  · rw [hquery.mpr (u.ignored_head hc)]
    rfl

/-- What comes behind an authority ends it. -/
theorem Proper.path_head (h : u.Proper) : ∀ c ∈ u.path.head?, c ∈ "/?#".toList := by
  intro c hc
  rw [h.slash c hc]
  decide

/-- **The canonical form of a web URL is its plain spelling.** -/
theorem Proper.canonical_text (h : u.Proper) : canonical u.text = u.plain := by
  have hpath : shownPath u.path = u.plainPath := by
    rw [shownPath, plainPath]
    simp only [List.isEmpty_iff]
  rw [canonical, h.beforeQuery_text, parts?_written h.scheme h.authority h.path_head]
  simp only [Parts.canonical, shownPort_of_web h.scheme, hpath, plain, written, plainAuthority,
    Authority.text, Authority.userText, otherPort, List.append_assoc, List.nil_append]

/-- **The plain spelling is read in the same parts.** -/
theorem Proper.parts?_plain (h : u.Proper) :
    parts? u.plain = some
      { scheme := Ascii.lower u.scheme
        host := Ascii.lower u.host
        port := u.otherPort
        path := u.plainPath } := by
  have hhead : ∀ c ∈ u.plainPath.head?, c ∈ "/?#".toList := by
    obtain ⟨t, ht⟩ := h.plainPath_head
    intro c hc
    rw [ht] at hc
    rw [← Option.some.inj hc]
    decide
  have hport : u.otherPort.filter (fun p => !p.isEmpty) = u.otherPort := by
    rw [otherPort, Option.filter_filter]
    congr 1
    funext p
    cases p <;> simp
  have hparts := parts?_written h.scheme.lower h.proper_plainAuthority hhead
  rw [plain, hparts]
  simp only [plainAuthority, hport]

/-- **The host of a web URL** is read whatever its query and fragment. -/
theorem Proper.hostOf_text (h : u.Proper) : hostOf u.text = Ascii.lower u.host := by
  have hhead : ∀ c ∈ (u.path ++ u.ignored).head?, c ∈ "/?#".toList := by
    intro c hc
    rcases Seq.mem_head?_append hc with hpath | hbehind
    · exact h.path_head c hpath
    · exact List.mem_cons_of_mem _ (u.ignored_head hbehind)
  rw [hostOf, text, parts?_written h.scheme h.authority hhead]
  exact if_neg (by simpa using h.authority.host.ne_nil)

theorem Proper.hostOf_plain (h : u.Proper) : hostOf u.plain = Ascii.lower u.host := by
  have hne : ¬ (Ascii.lower u.host).isEmpty := by
    rw [List.isEmpty_iff]
    exact h.authority.host.lower.ne_nil
  rw [hostOf, h.parts?_plain]
  simp only [if_neg hne, Ascii.lower_lower]

/-- Plain spellings tell apart where URLs lead. -/
theorem plain_eq_iff (hu : u.Proper) (hv : v.Proper) : v.plain = u.plain ↔ v.Alike u := by
  constructor
  · intro he
    have hparts := hv.parts?_plain
    rw [he, hu.parts?_plain] at hparts
    obtain ⟨hscheme, hhost, hport, hpath⟩ := Parts.mk.inj (Option.some.inj hparts)
    exact ⟨hscheme.symm, hhost.symm, hport.symm, hpath.symm⟩
  · rintro ⟨hscheme, hhost, hport, hpath⟩
    simp only [plain, plainAuthority, hscheme, hhost, hport, hpath]

end Spelling

/-- **Canonicalisation identifies the spellings of a URL.** The canonical form of a web URL has its
    scheme and host in small letters, its port if that is not the usual one, and its path decoded, a
    slash if it is empty; nothing else. The host of the URL and of its canonical form is its host in
    small letters. Two web URLs have one canonical form exactly if their spellings are alike. -/
theorem canonical_spellings {u : Spelling} (h : u.Proper) :
    canonical u.text = u.plain ∧ hostOf u.text = Ascii.lower u.host ∧
      hostOf (canonical u.text) = Ascii.lower u.host ∧
      ∀ v : Spelling, v.Proper → (canonical v.text = canonical u.text ↔ v.Alike u) := by
  refine ⟨h.canonical_text, h.hostOf_text, ?_, fun v hv => ?_⟩
  · rw [h.canonical_text]
    exact h.hostOf_plain
  · rw [hv.canonical_text, h.canonical_text]
    exact Spelling.plain_eq_iff h hv

/-- A literal address in capitals, with all that may stand around it. -/
def capitals : Spelling where
  scheme := "HTTPS".toList
  user := some "me@home:pw".toList
  host := '[' :: "FE80::1".toList ++ [']']
  port := some "443".toList
  path := "/p%20a".toList
  query := some "to=a@b:80/c".toList
  fragment := some "?".toList

/-- The same address in small letters, with an empty port and no more. -/
def bare : Spelling where
  scheme := "https".toList
  user := none
  host := '[' :: "fe80::1".toList ++ [']']
  port := some []
  path := "/p%20a".toList
  query := none
  fragment := none

/-- Whether a text has none of the signs is checked character by character. -/
theorem plain_of_all {signs t : Text} (h : (t.all fun c => !signs.contains c) = true) :
    ∀ c ∈ t, c ∉ signs := by
  intro c hc hsign
  have hnone := List.all_eq_true.mp h c hc
  rw [List.contains_iff_mem.mpr hsign] at hnone
  cases hnone

theorem capitals_proper : capitals.Proper where
  scheme := .inr (by decide)
  authority :=
    { user := by
        rintro _ ⟨⟩
        exact plain_of_all (by decide)
      host := .literal (plain_of_all (by decide))
      port := by
        rintro _ ⟨⟩
        exact List.all_eq_true.mp (by decide) }
  slash := by
    rintro _ ⟨⟩
    rfl
  path := plain_of_all (by decide)

theorem bare_proper : bare.Proper where
  scheme := .inr (by decide)
  authority :=
    { user := nofun
      host := .literal (plain_of_all (by decide))
      port := by
        rintro _ ⟨⟩
        exact nofun }
  slash := by
    rintro _ ⟨⟩
    rfl
  path := plain_of_all (by decide)

/-- Both spellings of the address are one URL. -/
theorem canonical_spellings_literal :
    capitals.Proper ∧ bare.Proper ∧
      capitals.text = "HTTPS://me@home:pw@[FE80::1]:443/p%20a?to=a@b:80/c#?".toList ∧
      canonical capitals.text = "https://[fe80::1]/p a".toList ∧
      canonical bare.text = canonical capitals.text ∧
      hostOf capitals.text = "[fe80::1]".toList := by
  obtain ⟨hcanonical, hhost, -, halike⟩ := canonical_spellings capitals_proper
  refine ⟨capitals_proper, bare_proper, by decide, ?_, (halike bare bare_proper).mpr ?_, ?_⟩
  · rw [hcanonical]
    decide +kernel
  · exact ⟨by decide, by decide, by decide, rfl⟩
  · rw [hhost]
    decide

end Url

end TrafficGate
