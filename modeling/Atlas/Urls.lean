import Atlas.Lib.Cuts
import Atlas.Lib.Outcome
import Atlas.MatchingLaws

/-!
# Normalising a crawled URL

Hermes stores a source or a crawl target under its normalised URL.  The
normaliser takes the URL apart with `urlparse`, drops the user info, the
fragment, a default port and the trailing slashes of the path, and puts the
pieces together with `urlunparse`.  Both are the standard library's (CPython
3.12) and stand here in full: what matters is what is cut where.

The host is put back without the brackets it may have stood in.  The one thing
read from outside is `unicodedata.normalize`.
-/

namespace Atlas

/-- `unicodedata.normalize("NFKC", text)`.  Every result holds for any such
function that keeps to what Unicode says of it. -/
class PyNfkc where
  nfkc : Text → Text

/-- Text that is already normal, enough to run the model on ASCII inputs. -/
instance (priority := low) plainNfkc : PyNfkc where
  nfkc cs := cs

namespace Urls

open Cuts Outcome

/-- What `urlparse` raises: each a `ValueError` with a text of its own. -/
inductive UrllibError where
  | invalidIpv6Url
  | invalidIpvFuture
  | bracketedIpv4
  | notAnAddress (host : Text)
  | invalidUnderNfkc (netloc : Text)
deriving DecidableEq, Repr

/-- What the normaliser raises: a `ValueError` of its own, or one that passes
through from `urlparse`. -/
inductive UrlError where
  | refused (message : String)
  | unreadable (cause : UrllibError)
deriving DecidableEq, Repr

/-! ## Addresses in brackets -/

def isHexDigit (c : Char) : Bool :=
  c.isDigit || ('a' ≤ c && c ≤ 'f') || ('A' ≤ c && c ≤ 'F')

/-- `IPv4Address._parse_octet`. -/
def isOctet (part : Text) : Bool :=
  !part.isEmpty && part.all Char.isDigit && part.length ≤ 3 &&
    (part == ['0'] || part.head? != some '0') && Nat.ofDigitChars 10 part 0 ≤ 255

/-- `IPv4Address(host)` raises nothing. -/
def isIpv4 (host : Text) : Bool :=
  (host.splitOn '.').length == 4 && (host.splitOn '.').all isOctet

/-- `IPv6Address._parse_hextet`. -/
def isHextet (part : Text) : Bool :=
  !part.isEmpty && part.all isHexDigit && part.length ≤ 4

/-- The parts of an IPv6 address.  A last part in the notation of IPv4 stands for
two hextets. -/
def ipv6Parts (addr : Text) : Option (List Text) :=
  let parts := addr.splitOn ':'
  if parts.length < 3 then none
  else
    match parts.getLast? with
    | some last =>
        if '.' ∈ last then
          if isIpv4 last then some (parts.dropLast ++ [['0'], ['0']]) else none
        else some parts
    | none => none

/-- `IPv6Address._ip_int_from_string` raises nothing: eight hextets, or fewer on
the two sides of one `::`. -/
def isIpv6Parts (parts : List Text) : Bool :=
  match parts.tail.dropLast.findIdx? List.isEmpty with
  | none => parts.length == 8 && parts.all isHextet
  | some i =>
      let front := parts.take (i + 1)
      let back := parts.drop (i + 2)
      let high := if front = [[]] then [] else front
      let low := if back = [[]] then [] else back
      high.all isHextet && low.all isHextet && high.length + low.length < 8

/-- `IPv6Address(host)` raises nothing.  A scope may follow a `%`. -/
def isIpv6 (host : Text) : Bool :=
  '/' ∉ host && ('%' ∉ host || (behind '%' host ≠ [] && '%' ∉ behind '%' host)) &&
    (ipv6Parts (before '%' host)).any isIpv6Parts

/-- `re.match(r"\Av[a-fA-F0-9]+\..+\Z", host)`, behind the `v`. -/
def isIpvFuture (rest : Text) : Bool :=
  let version := rest.takeWhile isHexDigit
  match rest.dropWhile isHexDigit with
  | '.' :: address => !version.isEmpty && !address.isEmpty && '\n' ∉ address
  | _ => false

/-- `_check_bracketed_host(hostname)`. -/
def checkBracketedHost (host : Text) : Except UrllibError Unit :=
  match host with
  | 'v' :: rest => require (isIpvFuture rest) .invalidIpvFuture
  | _ =>
      if isIpv4 host then .error .bracketedIpv4
      else require (isIpv6 host) (.notAnAddress host)

/-- `_check_bracketed_netloc(netloc)`. -/
def checkBracketedNetloc (netloc : Text) : Except UrllibError Unit := do
  let hostAndPort := lastPart '@' netloc
  if '[' ∈ hostAndPort then
    require (before '[' hostAndPort = []) .invalidIpv6Url
    let bracketed := behind '[' hostAndPort
    let port := behind ']' bracketed
    require (port = [] ∨ port.head? = some ':') .invalidIpv6Url
    checkBracketedHost (before ']' bracketed)
  else checkBracketedHost (before ':' hostAndPort)

/-! ## `urlsplit` -/

structure SplitResult where
  scheme : Text
  netloc : Text
  path : Text
  query : Text
  fragment : Text
deriving DecidableEq, Repr

/-- A tab or a line break, removed from a URL wherever it stands. -/
def isUnsafe (c : Char) : Bool := c == '\t' || c == '\r' || c == '\n'

/-- The URL without leading control characters and blanks, tabs and line breaks. -/
def cleaned (url : Text) : Text :=
  (url.dropWhile fun c => c.toNat ≤ 32).filter fun c => !isUnsafe c

def isSchemeChar (c : Char) : Bool :=
  c.isAlphanum || c == '+' || c == '-' || c == '.'

/-- What stands before the first `:` of a URL, if there is one, is a scheme. -/
def HasScheme (url : Text) : Prop :=
  ':' ∈ url ∧ ((before ':' url).head?.any Char.isAlpha) = true ∧
    (before ':' url).all isSchemeChar = true

instance (url : Text) : Decidable (HasScheme url) := by
  unfold HasScheme
  infer_instance

/-- The scheme, in lower case, and what follows it. -/
def splitScheme (url : Text) : Text × Text :=
  if HasScheme url then ((before ':' url).map Char.toLower, behind ':' url) else ([], url)

/-- A character that ends the network location. -/
def isDelimiter (c : Char) : Bool := c == '/' || c == '?' || c == '#'

/-- The network location behind a `//`, and what follows it. -/
def splitNetloc : Text → Text × Text
  | '/' :: '/' :: rest => (rest.takeWhile fun c => !isDelimiter c, rest.dropWhile fun c => !isDelimiter c)
  | url => ([], url)

/-- The brackets of a network location, as `urlsplit` checks them. -/
def checkBrackets (netloc : Text) : Except UrllibError Unit :=
  if '[' ∈ netloc ∧ ']' ∉ netloc ∨ ']' ∈ netloc ∧ '[' ∉ netloc then .error .invalidIpv6Url
  else if '[' ∈ netloc ∧ ']' ∈ netloc then checkBracketedNetloc netloc
  else .ok ()

/-- The characters `_checknetloc` looks for. -/
def nfkcDelimiters : Text := ['/', '?', '#', '@', ':']

/-- A network location that NFKC leaves alone or turns into one without a
delimiter.  Those it contains already are set aside. -/
def StableUnderNfkc [PyNfkc] (netloc : Text) : Prop :=
  netloc = [] ∨ (∀ c ∈ netloc, c.toNat < 128) ∨
    let rest := netloc.filter fun c => c ∉ ['@', ':', '#', '?']
    rest = PyNfkc.nfkc rest ∨ ∀ d ∈ nfkcDelimiters, d ∉ PyNfkc.nfkc rest

instance [PyNfkc] (netloc : Text) : Decidable (StableUnderNfkc netloc) := by
  unfold StableUnderNfkc
  letI hascii : Decidable (∀ c ∈ netloc, c.toNat < 128) := List.decidableBAll _ netloc
  letI hnormal : ∀ rest : Text, Decidable (∀ d ∈ nfkcDelimiters, d ∉ PyNfkc.nfkc rest) := fun _ =>
    List.decidableBAll _ nfkcDelimiters
  infer_instance

/-- `_checknetloc(netloc)`. -/
def checkNetloc [PyNfkc] (netloc : Text) : Except UrllibError Unit :=
  require (StableUnderNfkc netloc) (.invalidUnderNfkc netloc)

/-- `urlsplit(url)`. -/
def urlsplit [PyNfkc] (url : Text) : Except UrllibError SplitResult := do
  let scheme := (splitScheme (cleaned url)).1
  let netloc := (splitNetloc (splitScheme (cleaned url)).2).1
  let rest := (splitNetloc (splitScheme (cleaned url)).2).2
  checkBrackets netloc
  checkNetloc netloc
  pure ⟨scheme, netloc, before '?' (before '#' rest), behind '?' (before '#' rest), behind '#' rest⟩

/-! ## `urlparse` and `urlunparse` -/

structure ParseResult where
  scheme : Text
  netloc : Text
  path : Text
  params : Text
  query : Text
  fragment : Text
deriving DecidableEq, Repr

def http : Text := ['h', 't', 't', 'p']

def https : Text := ['h', 't', 't', 'p', 's']

/-- `uses_params`. -/
def usesParams : List Text :=
  [[], "ftp".toList, "hdl".toList, "prospero".toList, http, "imap".toList, https, "shttp".toList,
    "rtsp".toList, "rtsps".toList, "rtspu".toList, "sip".toList, "sips".toList, "mms".toList,
    "sftp".toList, "tel".toList]

/-- `uses_netloc`. -/
def usesNetloc : List Text :=
  [[], "ftp".toList, http, "gopher".toList, "nntp".toList, "telnet".toList, "imap".toList,
    "wais".toList, "file".toList, "mms".toList, https, "shttp".toList, "snews".toList,
    "prospero".toList, "rtsp".toList, "rtsps".toList, "rtspu".toList, "rsync".toList, "svn".toList,
    "svn+ssh".toList, "sftp".toList, "nfs".toList, "git".toList, "git+ssh".toList, "ws".toList,
    "wss".toList, "itms-services".toList]

/-- `_splitparams(url)`: the parameters follow the first `;` of the last segment. -/
def splitParams (url : Text) : Text × Text :=
  if ';' ∈ lastPart '/' url then
    (upToLast '/' url ++ before ';' (lastPart '/' url), behind ';' (lastPart '/' url))
  else (url, [])

/-- `urlparse(url)`. -/
def urlparse [PyNfkc] (url : Text) : Except UrllibError ParseResult := do
  let split ← urlsplit url
  let pathAndParams :=
    if split.scheme ∈ usesParams ∧ ';' ∈ split.path then splitParams split.path else (split.path, [])
  pure ⟨split.scheme, split.netloc, pathAndParams.1, pathAndParams.2, split.query, split.fragment⟩

/-- `urlunsplit(components)`. -/
def urlunsplit (split : SplitResult) : Text :=
  let url :=
    if split.netloc ≠ [] then
      let rooted := if split.path ≠ [] ∧ split.path.head? ≠ some '/' then '/' :: split.path
        else split.path
      ['/', '/'] ++ split.netloc ++ rooted
    else if split.path.take 2 = ['/', '/'] then ['/', '/'] ++ split.path
    else if split.scheme ≠ [] ∧ split.scheme ∈ usesNetloc ∧
        (split.path = [] ∨ split.path.head? = some '/') then ['/', '/'] ++ split.path
    else split.path
  let url := if split.scheme ≠ [] then split.scheme ++ ':' :: url else url
  let url := if split.query ≠ [] then url ++ '?' :: split.query else url
  if split.fragment ≠ [] then url ++ '#' :: split.fragment else url

/-- A text led by a mark, nothing if it is empty. -/
def marked (mark : Char) (cs : Text) : Text := if cs = [] then [] else mark :: cs

/-- `urlunparse(components)`. -/
def urlunparse (p : ParseResult) : Text :=
  urlunsplit ⟨p.scheme, p.netloc, p.path ++ marked ';' p.params, p.query, p.fragment⟩

/-! ## Host and port -/

/-- `_hostinfo`: the host and the text of the port. -/
def hostinfo (netloc : Text) : Text × Text :=
  let hostAndPort := lastPart '@' netloc
  if '[' ∈ hostAndPort then
    let bracketed := behind '[' hostAndPort
    (before ']' bracketed, behind ':' (behind ']' bracketed))
  else (before ':' hostAndPort, behind ':' hostAndPort)

/-- `str.lower()` on the characters of a text. -/
def lowerText [PyText] (cs : Text) : Text := (PyText.lower (String.ofList cs)).toList

/-- The host in lower case.  The zone of a scoped address keeps its case. -/
def lowerHost [PyText] (host : Text) : Text :=
  lowerText (before '%' host) ++ if '%' ∈ host then '%' :: behind '%' host else []

/-- `hostname`, empty for `None`. -/
def hostname [PyText] (p : ParseResult) : Text :=
  if (hostinfo p.netloc).1 = [] then [] else lowerHost (hostinfo p.netloc).1

/-- The number a port is read as; `none` is the `ValueError`. -/
def portNumber (text : Text) : Option Nat :=
  if text.all Char.isDigit = true ∧ text.length ≤ intMaxStrDigits ∧
      Nat.ofDigitChars 10 text 0 ≤ 65535 then
    some (Nat.ofDigitChars 10 text 0)
  else none

/-- `port`: the outer `none` is the `ValueError`, the inner one Python's `None`. -/
def port (p : ParseResult) : Option (Option Nat) :=
  if (hostinfo p.netloc).2 = [] then some none else (portNumber (hostinfo p.netloc).2).map some

/-! ## The normaliser -/

/-- The path without its trailing slashes, the root for an empty one. -/
def trimPath (path : Text) : Text :=
  let trimmed :=
    if path ≠ ['/'] ∧ path.getLast? = some '/' then path.rdropWhile (· == '/') else path
  if trimmed = [] then ['/'] else trimmed

/-- The port that goes without saying. -/
def IsDefaultPort (scheme : Text) (port : Option Nat) : Prop :=
  scheme = http ∧ port = some 80 ∨ scheme = https ∧ port = some 443

instance (scheme : Text) (port : Option Nat) : Decidable (IsDefaultPort scheme port) := by
  unfold IsDefaultPort
  infer_instance

/-- The network location put back together: no user info and no brackets. -/
def joinNetloc (host : Text) : Option Nat → Text
  | none => host
  | some n => host ++ ':' :: Nat.toDigits 10 n

/-- What the normaliser makes of a parsed URL. -/
def normalizeParsed [PyText] (p : ParseResult) : Except UrlError Text := do
  let scheme := lowerText p.scheme
  require (scheme = http ∨ scheme = https)
    (.refused ("Only http/https URLs are allowed, got: '" ++ String.ofList scheme ++ "'"))
  require (hostname p ≠ []) (.refused "URL must include a hostname")
  let number ← fromOption (port p) (.refused "Invalid URL port")
  let number := if IsDefaultPort scheme number then none else number
  pure (urlunparse ⟨scheme, joinNetloc (hostname p) number, trimPath p.path, p.params, p.query, []⟩)

/-- `normalize_url(url)`. -/
def normalizeUrl [PyText] [PyNfkc] (url : Text) : Except UrlError Text := do
  let p ← (urlparse (stripChars url)).mapError .unreadable
  normalizeParsed p

/-- `validate_url(url)`. -/
def validateUrl [PyText] [PyNfkc] (url : Text) : Except UrlError Text := do
  require (url ≠ [] ∧ stripChars url ≠ []) (.refused "URL must not be empty")
  normalizeUrl url

example : normalizeUrl "HTTP://H:80/p/?q#s".toList = .ok "http://h/p?q".toList := by decide +kernel

end Urls

end Atlas
