import TrafficGate.Url.Percent
/-!
  # Canonical URLs

  The spelling of a URL that rules are matched against and repetitions are recognised by.

  1. `Parts` -- scheme, host, port and path of an absolute URL;
  2. `canonical` -- scheme and host in small letters, no user information, no default port, the
     path decoded, no query and no fragment;
  3. `hostOf` -- the host alone, for names and URLs alike.

  Main facts: **`beforeQuery_of_plain`** (a text without a query loses nothing) and
  **`lower_hostOf`** (a host is in small letters).
-/

namespace TrafficGate.Url

/-! ## 1. Parts -/

/-- The parts of an absolute URL that tell where it leads. -/
structure Parts where
  scheme : Text
  host : Text
  port : Option Text
  path : Text
  deriving DecidableEq, Repr

/-- The characters of a scheme. -/
def isSchemeChar (c : Char) : Bool := Ascii.isAlnum c || c == '+' || c == '-' || c == '.'

/-- Whether the text can be a scheme. -/
def isScheme (t : Text) : Bool := !t.isEmpty && t.all isSchemeChar

/-- The characters that end the authority of a URL. -/
def endsAuthority (c : Char) : Bool := c == '/' || c == '?' || c == '#'

/-- The authority without user information: what stands behind its last at sign. -/
def dropUser (authority : Text) : Text :=
  match Seq.cutLast? '@' authority with
  | some (_, hostPort) => hostPort
  | none => authority

/-- The host and the port of a literal address in brackets; without a closing bracket all of it is
    the host. -/
def splitLiteral (hostPort : Text) : Text × Option Text :=
  match Seq.cut? [']'] hostPort with
  | some (inside, behind) => (inside ++ [']'], Seq.stripStart? [':'] behind)
  | none => (hostPort, none)

/-- The host and the port of a name: a port stands behind the last colon and consists of digits. -/
def splitName (hostPort : Text) : Text × Option Text :=
  match Seq.cutLast? ':' hostPort with
  | some (host, port) => if port.all Ascii.isDigit then (host, some port) else (hostPort, none)
  | none => (hostPort, none)

/-- The host and the port of an authority without user information. -/
def splitHostPort (hostPort : Text) : Text × Option Text :=
  if "[".toList.isPrefixOf hostPort then splitLiteral hostPort else splitName hostPort

/-- The parts of an absolute URL; `none` for any other text. An empty port is none. -/
def parts? (url : Text) : Option Parts :=
  match Seq.cut? "://".toList url with
  | none => none
  | some (scheme, rest) =>
    if isScheme scheme then
      let authority := rest.takeWhile fun c => !endsAuthority c
      let path := rest.dropWhile fun c => !endsAuthority c
      let (host, port) := splitHostPort (dropUser authority)
      some { scheme, host, port := port.filter fun p => !p.isEmpty, path }
    else none

/-! ## 2. The canonical form -/

/-- The port that a scheme implies. -/
def defaultPort? (scheme : Text) : Option Text :=
  if scheme = "http".toList then some "80".toList
  else if scheme = "https".toList then some "443".toList
  else none

/-- The text before its first question mark or number sign. -/
def beforeQuery (t : Text) : Text := t.takeWhile fun c => !(c == '?' || c == '#')

/-- The port as the canonical form shows it: nothing when it is missing or implied. -/
def shownPort (scheme : Text) (port : Option Text) : Text :=
  match port with
  | some p => if defaultPort? scheme = some p then [] else ':' :: p
  | none => []

/-- The path as the canonical form shows it: decoded, and a slash when it is empty. -/
def shownPath (path : Text) : Text := if path.isEmpty then ['/'] else percentDecode path

/-- The canonical form of the parts of a URL. -/
def Parts.canonical (p : Parts) : Text :=
  let scheme := Ascii.lower p.scheme
  scheme ++ "://".toList ++ Ascii.lower p.host ++ shownPort scheme p.port ++ shownPath p.path

/-- The canonical form of a URL. A text that is no absolute URL only loses its query and is
    decoded. -/
def canonical (url : Text) : Text :=
  match parts? (beforeQuery url) with
  | some p => p.canonical
  | none => percentDecode (beforeQuery url)

/-- A text without a question mark and number sign is its own part before the query. -/
theorem beforeQuery_of_plain {t : Text} (h : ∀ c ∈ t, c ≠ '?' ∧ c ≠ '#') : beforeQuery t = t := by
  induction t with
  | nil => rfl
  | cons c t ih =>
    have hc := h c List.mem_cons_self
    have ht := ih fun d hd => h d (List.mem_cons_of_mem _ hd)
    simp only [beforeQuery] at ht ⊢
    rw [List.takeWhile_cons_of_pos (by simp [hc]), ht]

/-! ## 3. Hosts -/

/-- The host of an absolute URL that has one, else the whole text; in small letters. -/
def hostOf (value : Text) : Text :=
  match parts? value with
  | some p => if p.host.isEmpty then Ascii.lower value else Ascii.lower p.host
  | none => Ascii.lower value

/-- **A host is in small letters.** -/
theorem lower_hostOf (value : Text) : Ascii.lower (hostOf value) = hostOf value := by
  unfold hostOf
  split
  · split <;> exact Ascii.lower_lower _
  · exact Ascii.lower_lower _

end TrafficGate.Url
