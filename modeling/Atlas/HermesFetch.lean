import Atlas.IpAddresses
import Atlas.Lib.Effects
import Atlas.Lib.Histories
import Atlas.UrlJoins

/-!
# Fetching a URL from the server's side

A crawl target is a URL that someone else wrote, and the servers behind it may redirect
anywhere.  The guard takes a URL apart, looks its host up once and hands the address it
judged to the connection, so that no second lookup can come between.  Every redirect is
judged like the first URL, and there are only so many of them.

The outside is a state that may answer each question as it likes and differently every
time.  What the guard asks and where it connects is written down in order.
-/

namespace Atlas

namespace HermesFetch

open Cuts Urls IpAddresses Effects Histories

/-! ## Errors -/

/-- The subclasses of `HermesPermanentFetchError`, by what they are raised for. -/
inductive PermanentError where
  | unsupportedScheme (scheme : Text)
  | noHostname
  | notAllowed (host : Text)
  | blockedNetwork
  | unresolved (cause : String)
  | noAnswer
  | noUsableAddress
  | missingLocation
  | tooManyRedirects
  | tooLarge
deriving DecidableEq, Repr

/-- Any other exception: an error of the parser, of the port, of an address in an answer,
an HTTP status, or whatever the transport raises. -/
inductive FetchError where
  | permanent (cause : PermanentError)
  | unreadable (cause : UrllibError)
  | invalidPort
  | notAnAddress (text : Text)
  | httpStatus (status : Int)
  | transport (cause : String)
deriving DecidableEq, Repr

/-- `_MAX_CONTENT_BYTES`. -/
def maxContentBytes : Nat := 10 * 1024 * 1024

/-- `_MAX_REDIRECTS`. -/
def maxRedirects : Nat := 5

def PermanentError.message [PyRepr] : PermanentError → String
  | .unsupportedScheme scheme =>
      "Hermes fetch only allows http/https URLs (got scheme=" ++ PyRepr.repr (.str (String.ofList scheme)) ++ ")"
  | .noHostname => "Hermes fetch URL must include a hostname"
  | .notAllowed host =>
      "Hermes fetch target " ++ PyRepr.repr (.str (String.ofList host)) ++ " is not on HERMES_ALLOWED_HOSTS allowlist"
  | .blockedNetwork => "Hermes fetch target resolves to a blocked network"
  | .unresolved cause => "Hermes fetch target could not be resolved: " ++ cause
  | .noAnswer => "Hermes fetch target did not resolve"
  | .noUsableAddress => "Hermes fetch target did not resolve to a usable address"
  | .missingLocation => "Hermes redirect response was missing Location"
  | .tooManyRedirects => "Hermes fetch exceeded " ++ toString maxRedirects ++ " redirects"
  | .tooLarge =>
      "Hermes response exceeded " ++ toString maxContentBytes ++ " bytes and was not stored"

/-! ## The outside -/

/-- What is handed to a pinned connection, and the request sent over it. -/
structure Connection where
  secure : Bool
  logicalHost : Text
  connectHost : IpAddress
  port : Nat
  requestTarget : Text
  hostHeader : Text
deriving DecidableEq, Repr

/-- A response; reading its body may fail. -/
structure Response where
  status : Int
  contentType : Option Text
  location : Option Text
  contentLocation : Option Text
  body : Except String (List UInt8)

/-- Name servers and servers: each question may change what comes next.  The entries of
an answer are the first parts of `sockaddr`, `none` for one that is empty. -/
structure Web (ω : Type) where
  getaddrinfo : Text → Nat → ω → Except String (List (Option Text)) × ω
  exchange : Connection → ω → Except String Response × ω

inductive NetEvent where
  | lookup (host : Text) (port : Nat) (answer : Except String (List (Option Text)))
  | connect (connection : Connection)

/-- The outside and what was done to it, oldest first. -/
structure Net (ω : Type) where
  web : ω
  trace : List NetEvent

section Guard

variable {ω : Type} [PyText] [PyNfkc] (web : Web ω)

def lookupHost (host : Text) (port : Nat) :
    Action (Net ω) FetchError (Except String (List (Option Text))) :=
  ask fun net =>
    let answer := web.getaddrinfo host port net.web
    (answer.1, ⟨answer.2, net.trace ++ [.lookup host port answer.1]⟩)

def exchangeOver (connection : Connection) : Action (Net ω) FetchError (Except String Response) :=
  ask fun net =>
    let response := web.exchange connection net.web
    (response.1, ⟨response.2, net.trace ++ [.connect connection]⟩)

/-! ## The guard -/

/-- `_normalize_host_pattern`. -/
def normalizeHostPattern (pattern : Text) : Text :=
  (lowerText (stripChars pattern)).dropWhile (· == '.')

/-- What the host is compared as. -/
def comparedHost (host : Text) : Text := (lowerText (stripChars host)).rdropWhile (· == '.')

/-- `_host_matches_allowlist`. -/
def hostMatchesAllowlist (host : Text) (allowlist : List Text) : Bool :=
  allowlist.any fun raw =>
    let entry := normalizeHostPattern raw
    entry ≠ [] && (comparedHost host = entry || ('.' :: entry).isSuffixOf (comparedHost host))

/-- `parsed.port or (443 if https else 80)`. -/
def portOr (p : ParseResult) (number : Option Nat) : Nat :=
  let default := if lowerText p.scheme = https then 443 else 80
  match number with
  | some n => if n = 0 then default else n
  | none => default

/-- One entry of an answer: it is taken in place of the one before, or refused. -/
def chooseStep (chosen : Option IpAddress) : Option Text → Except FetchError (Option IpAddress)
  | none => .ok chosen
  | some text =>
      match ipAddress text with
      | none => .error (.notAnAddress text)
      | some ip => if ip.isBlocked then .error (.permanent .blockedNetwork) else .ok (some ip)

/-- The last address of an answer, if none of them is blocked. -/
def chooseAddress (infos : List (Option Text)) : Except FetchError IpAddress := do
  let chosen ← infos.foldlM chooseStep none
  Outcome.fromOption chosen (.permanent .noUsableAddress)

/-- What is checked before any lookup: the parts of the URL and its port. -/
def parseFetchUrl (url : Text) (allowedHosts : List Text) :
    Except FetchError (ParseResult × Nat) := do
  let p ← (urlparse url).mapError .unreadable
  Outcome.require (lowerText p.scheme = http ∨ lowerText p.scheme = https)
    (.permanent (.unsupportedScheme p.scheme))
  Outcome.require (hostname p ≠ []) (.permanent .noHostname)
  Outcome.require (allowedHosts = [] ∨ hostMatchesAllowlist (hostname p) allowedHosts = true)
    (.permanent (.notAllowed (hostname p)))
  let number ← Outcome.fromOption (port p) .invalidPort
  pure (p, portOr p number)

/-- The address of a host: its own if it is one, otherwise from one lookup. -/
def pinnedAddress (host : Text) (port : Nat) : Action (Net ω) FetchError IpAddress :=
  match ipAddress host with
  | some ip => if ip.isBlocked then throw (.permanent .blockedNetwork) else pure ip
  | none => do
      let answer ← lookupHost web host port
      match answer with
      | .error cause => throw (.permanent (.unresolved cause))
      | .ok infos =>
          if infos = [] then throw (.permanent .noAnswer) else fromExcept (chooseAddress infos)

/-- `_parse_and_validate_fetch_url`, with the port the URL stands for. -/
def parseAndValidateFetchUrl (url : Text) (allowedHosts : List Text) :
    Action (Net ω) FetchError ((ParseResult × Nat) × IpAddress) := do
  let parsed ← fromExcept (parseFetchUrl url allowedHosts)
  let ip ← pinnedAddress web (hostname parsed.1) parsed.2
  pure (parsed, ip)

/-! ## The fetch -/

/-- `_host_header`. -/
def hostHeader (p : ParseResult) (number : Option Nat) : Text :=
  let host := hostname p
  let host := if ':' ∈ host ∧ host.head? ≠ some '[' then '[' :: host ++ [']'] else host
  let defaultPort := if lowerText p.scheme = https then 443 else 80
  match number with
  | some n => if n ≠ 0 ∧ n ≠ defaultPort then host ++ ':' :: Nat.toDigits 10 n else host
  | none => host

/-- `_request_target`. -/
def requestTarget (p : ParseResult) : Text :=
  (if p.path = [] then ['/'] else p.path) ++ marked ';' p.params ++ marked '?' p.query

structure FetchResult where
  finalUrl : Text
  status : Int
  contentType : Option Text
  body : List UInt8
deriving DecidableEq

inductive Hop where
  | done (result : FetchResult)
  | redirect (url : Text)

/-- `_read_limited`: one byte more than is kept tells that there is too much. -/
def readLimited (response : Response) : Except FetchError (List UInt8) := do
  let sent ← response.body.mapError .transport
  let body := sent.take (maxContentBytes + 1)
  if maxContentBytes < body.length then .error (.permanent .tooLarge) else pure body

/-- The connection a validated URL is fetched over. -/
def connectionOf (p : ParseResult) (number : Nat) (ip : IpAddress) : Connection :=
  ⟨lowerText p.scheme = https, hostname p, ip, number, requestTarget p,
    hostHeader p ((port p).getD none)⟩

/-- A header that is there and not empty. -/
def present : Option Text → Option Text
  | some [] => none
  | header => header

/-- The URL the document is known under: `Content-Location`, which may be relative. -/
def finalUrlOf (url : Text) (response : Response) : Except FetchError Text :=
  match present response.contentLocation with
  | none => .ok url
  | some contentLocation => (urljoin url contentLocation).mapError .unreadable

/-- `_fetch_once_pinned`. -/
def fetchOncePinned (url : Text) (allowedHosts : List Text) : Action (Net ω) FetchError Hop := do
  let validated ← parseAndValidateFetchUrl web url allowedHosts
  let answer ← exchangeOver web (connectionOf validated.1.1 validated.1.2 validated.2)
  let response ← fromExcept (answer.mapError .transport)
  if response.status ∈ [301, 302, 303, 307, 308] then
    match present response.location with
    | none => throw (.permanent .missingLocation)
    | some location => do
        let next ← fromExcept ((urljoin url location).mapError .unreadable)
        pure (.redirect next)
  else if 400 ≤ response.status then throw (.httpStatus response.status)
  else do
    let body ← fromExcept (readLimited response)
    let finalUrl ← fromExcept (finalUrlOf url response)
    let _ ← parseAndValidateFetchUrl web finalUrl allowedHosts
    pure (.done ⟨finalUrl, response.status, response.contentType, body⟩)

/-- The loop over at most so many hops. -/
def followRedirects (allowedHosts : List Text) : Nat → Text → Action (Net ω) FetchError FetchResult
  | 0, _ => throw (.permanent .tooManyRedirects)
  | hops + 1, url => do
      let hop ← fetchOncePinned web url allowedHosts
      match hop with
      | .done result => pure result
      | .redirect next => followRedirects allowedHosts hops next

/-- `_fetch_url_with_allowlist`. -/
def fetchUrlWithAllowlist (url : Text) (allowedHosts : List Text) :
    Action (Net ω) FetchError FetchResult :=
  followRedirects web allowedHosts (maxRedirects + 1) url

end Guard

/-! ## The address of an answer -/

theorem chooseStep_ok {chosen out : Option IpAddress} {info : Option Text}
    (h : chooseStep chosen info = .ok out) :
    (info = none ∧ out = chosen) ∨
      ∃ text ip, info = some text ∧ ipAddress text = some ip ∧ ip.isBlocked = false ∧ out = some ip := by
  cases info with
  | none =>
      left
      exact ⟨rfl, (Except.ok.inj h).symm⟩
  | some text =>
      right
      unfold chooseStep at h
      dsimp only at h
      cases hip : ipAddress text with
      | none =>
          rw [hip] at h
          cases h
      | some ip =>
          rw [hip] at h
          dsimp only at h
          split at h
          next => cases h
          next hclear => exact ⟨text, ip, rfl, hip, by simpa using hclear, (Except.ok.inj h).symm⟩

/-- The loop over an answer: all of it is unblocked, and what it leaves is from it. -/
theorem foldlM_chooseStep_ok {infos : List (Option Text)} {chosen out : Option IpAddress}
    (h : infos.foldlM chooseStep chosen = .ok out) :
    (∀ text, some text ∈ infos → ∃ ip, ipAddress text = some ip ∧ ip.isBlocked = false) ∧
      (out = chosen ∨ ∃ text ip, some text ∈ infos ∧ ipAddress text = some ip ∧ out = some ip) := by
  induction infos generalizing chosen with
  | nil =>
      rw [List.foldlM_nil, Outcome.pure_ok] at h
      exact ⟨fun text htext => (List.not_mem_nil htext).elim, .inl h.symm⟩
  | cons info infos ih =>
      rw [List.foldlM_cons, Outcome.bind_ok] at h
      obtain ⟨next, hstep, hrest⟩ := h
      obtain ⟨hall, hout⟩ := ih hrest
      have hlater : ∀ {text ip}, some text ∈ infos → ipAddress text = some ip → out = some ip →
          ∃ text ip, some text ∈ info :: infos ∧ ipAddress text = some ip ∧ out = some ip :=
        fun hmem hip hfound => ⟨_, _, List.mem_cons_of_mem _ hmem, hip, hfound⟩
      cases chooseStep_ok hstep with
      | inl hskipped =>
          obtain ⟨rfl, rfl⟩ := hskipped
          constructor
          · intro text htext
            cases List.mem_cons.mp htext with
            | inl heq => cases heq
            | inr hmem => exact hall text hmem
          · cases hout with
            | inl hsame => exact .inl hsame
            | inr hfound =>
                obtain ⟨text, ip, hmem, hip, heq⟩ := hfound
                exact .inr (hlater hmem hip heq)
      | inr htaken =>
          obtain ⟨text, ip, rfl, hip, hclear, rfl⟩ := htaken
          constructor
          · intro text' htext'
            cases List.mem_cons.mp htext' with
            | inl heq =>
                obtain rfl := Option.some.inj heq
                exact ⟨ip, hip, hclear⟩
            | inr hmem => exact hall text' hmem
          · right
            cases hout with
            | inl hsame => exact ⟨text, ip, List.mem_cons_self, hip, hsame⟩
            | inr hfound =>
                obtain ⟨text', ip', hmem, hip', heq⟩ := hfound
                exact hlater hmem hip' heq

theorem chooseAddress_ok {infos : List (Option Text)} {ip : IpAddress}
    (h : chooseAddress infos = .ok ip) :
    (∃ text, some text ∈ infos ∧ ipAddress text = some ip) ∧
      ∀ text, some text ∈ infos → ∃ other, ipAddress text = some other ∧ other.isBlocked = false := by
  unfold chooseAddress at h
  rw [Outcome.bind_ok] at h
  obtain ⟨chosen, hloop, hchosen⟩ := h
  rw [Outcome.fromOption_ok] at hchosen
  subst hchosen
  obtain ⟨hall, hfound⟩ := foldlM_chooseStep_ok hloop
  cases hfound with
  | inl hnone => cases hnone
  | inr hsome =>
      obtain ⟨text, ip', hmem, hip, heq⟩ := hsome
      obtain rfl := Option.some.inj heq
      exact ⟨⟨text, hmem, hip⟩, hall⟩

theorem mapError_ok {ε ε' α : Type} {f : ε → ε'} {x : Except ε α} {a : α}
    (h : x.mapError f = .ok a) : x = .ok a := by
  cases x with
  | error e => cases h
  | ok b => exact congrArg _ (Except.ok.inj h)

theorem length_readLimited {response : Response} {body : List UInt8}
    (h : readLimited response = .ok body) : body.length ≤ maxContentBytes := by
  unfold readLimited at h
  rw [Outcome.bind_ok] at h
  obtain ⟨sent, -, hread⟩ := h
  dsimp only at hread
  split at hread
  next => cases hread
  next hsmall =>
    rw [← Except.ok.inj hread]
    exact not_lt.mp hsmall

section Laws

variable {ω : Type} {web : Web ω} {allowedHosts : List Text} {n : Nat} [PyText]

/-! ## What the guard vouches for -/

/-- An entry of the allowlist covers the host: the host itself, or a domain above it. -/
def OnAllowlist (host : Text) (allowlist : List Text) : Prop :=
  ∃ raw ∈ allowlist, normalizeHostPattern raw ≠ [] ∧
    (comparedHost host = normalizeHostPattern raw ∨
      ('.' :: normalizeHostPattern raw) <:+ comparedHost host)

theorem hostMatchesAllowlist_iff {host : Text} {allowlist : List Text} :
    hostMatchesAllowlist host allowlist = true ↔ OnAllowlist host allowlist := by
  unfold hostMatchesAllowlist OnAllowlist
  simp [List.any_eq_true]

/-- The address is the host itself, or one of the answer to the lookup just made, no
address of which is blocked. -/
def Pinned (before : List NetEvent) (host : Text) (port : Nat) (ip : IpAddress) : Prop :=
  ipAddress host = some ip ∨
    ∃ older infos, before = older ++ [.lookup host port (.ok infos)] ∧
      (∃ text, some text ∈ infos ∧ ipAddress text = some ip) ∧
        ∀ text, some text ∈ infos → ∃ other, ipAddress text = some other ∧ other.isBlocked = false

/-- What holds of a connection and of what was done before it. -/
structure Vetted (allowedHosts : List Text) (before : List NetEvent) (c : Connection) : Prop where
  host : c.logicalHost ≠ []
  allowed : allowedHosts = [] ∨ OnAllowlist c.logicalHost allowedHosts
  pinned : Pinned before c.logicalHost c.port c.connectHost
  notBlocked : c.connectHost.isBlocked = false

def EventVetted (allowedHosts : List Text) (before : List NetEvent) : NetEvent → Prop
  | .lookup _ _ _ => True
  | .connect c => Vetted allowedHosts before c

def isConnect : NetEvent → Bool
  | .lookup _ _ _ => false
  | .connect _ => true

/-- The connections of a trace are vetted, and there are at most so many. -/
structure Guarded (allowedHosts : List Text) (connections : Nat) (net : Net ω) : Prop where
  vetted : EachAfter (EventVetted allowedHosts) net.trace
  bounded : (net.trace.filter isConnect).length ≤ connections

/-! ## One specification for each action -/

/-- A lookup adds no connection. -/
theorem Guarded.lookup {net : Net ω} (h : Guarded allowedHosts n net) (host : Text) (port : Nat)
    (answer : Except String (List (Option Text))) (after : ω) :
    Guarded allowedHosts n ⟨after, net.trace ++ [.lookup host port answer]⟩ := by
  refine ⟨eachAfter_append.mpr ⟨h.vetted, trivial⟩, ?_⟩
  rw [List.filter_append]
  simpa [isConnect] using h.bounded

/-- A vetted connection counts. -/
theorem Guarded.connect {net : Net ω} (h : Guarded allowedHosts n net) {c : Connection}
    (hc : Vetted allowedHosts net.trace c) (after : ω) :
    Guarded allowedHosts (n + 1) ⟨after, net.trace ++ [.connect c]⟩ := by
  refine ⟨eachAfter_append.mpr ⟨h.vetted, hc⟩, ?_⟩
  rw [List.filter_append, List.length_append]
  have hone : ([NetEvent.connect c].filter isConnect).length = 1 := rfl
  have hbounded := h.bounded
  omega

/-- An address is returned as the trace vouches for it. -/
theorem spec_pinnedAddress (host : Text) (port : Nat) :
    Spec (Guarded allowedHosts n) (pinnedAddress web host port)
      (fun ip net => Guarded allowedHosts n net ∧ Pinned net.trace host port ip ∧ ip.isBlocked = false)
      (fun _ net => Guarded allowedHosts n net) := by
  unfold pinnedAddress
  cases hexplicit : ipAddress host with
  | some ip =>
      apply spec_ite
      · intro _
        exact spec_throw fun _ h => h
      · intro hclear
        exact spec_pure fun net h => ⟨h, .inl hexplicit, by simpa using hclear⟩
  | none =>
      unfold lookupHost
      apply Spec.bind (Q := fun answer net => Guarded allowedHosts n net ∧
        ∃ older, net.trace = older ++ [.lookup host port answer])
      · exact spec_ask fun net h => ⟨h.lookup _ _ _ _, net.trace, rfl⟩
      · intro answer
        cases answer with
        | error cause => exact spec_throw fun _ h => h.1
        | ok infos =>
            apply spec_ite
            · intro _
              exact spec_throw fun _ h => h.1
            · intro _
              apply spec_fromExcept
              · intro ip hip net h
                obtain ⟨hguarded, older, htrace⟩ := h
                obtain ⟨⟨text, hmem, hfound⟩, hall⟩ := chooseAddress_ok hip
                refine ⟨hguarded, .inr ⟨older, infos, htrace, ⟨text, hmem, hfound⟩, hall⟩, ?_⟩
                obtain ⟨other, hother, hclear⟩ := hall text hmem
                rw [hfound] at hother
                obtain rfl := Option.some.inj hother
                exact hclear
              · intro _ _ _ h
                exact h.1

theorem Guarded.mono {net : Net ω} (h : Guarded allowedHosts n net) {m : Nat} (hle : n ≤ m) :
    Guarded allowedHosts m net :=
  ⟨h.vetted, h.bounded.trans hle⟩

variable [PyNfkc]

theorem parseFetchUrl_ok {url : Text} {p : ParseResult} {number : Nat}
    (h : parseFetchUrl url allowedHosts = .ok (p, number)) :
    urlparse url = .ok p ∧ (lowerText p.scheme = http ∨ lowerText p.scheme = https) ∧
      hostname p ≠ [] ∧ (allowedHosts = [] ∨ OnAllowlist (hostname p) allowedHosts) ∧
        ∃ given, port p = some given ∧ number = portOr p given := by
  unfold parseFetchUrl at h
  simp only [Outcome.bind_ok, Outcome.require_ok, Outcome.fromOption_ok, Outcome.pure_ok] at h
  obtain ⟨p', hparse, -, hscheme, -, hhost, -, hallowed, given, hport, heq⟩ := h
  obtain ⟨rfl, rfl⟩ := Prod.mk.inj heq
  rw [hostMatchesAllowlist_iff] at hallowed
  exact ⟨mapError_ok hparse, hscheme, hhost, hallowed, given, hport, rfl⟩

/-- What is known when a URL was validated. -/
theorem spec_parseAndValidate (url : Text) :
    Spec (Guarded allowedHosts n) (parseAndValidateFetchUrl web url allowedHosts)
      (fun v net => Guarded allowedHosts n net ∧ parseFetchUrl url allowedHosts = .ok v.1 ∧
        Pinned net.trace (hostname v.1.1) v.1.2 v.2 ∧ v.2.isBlocked = false)
      (fun _ net => Guarded allowedHosts n net) := by
  unfold parseAndValidateFetchUrl
  apply Spec.bind (Q := fun parsed net => Guarded allowedHosts n net ∧
    parseFetchUrl url allowedHosts = .ok parsed)
  · apply spec_fromExcept
    · intro parsed hparsed net h
      exact ⟨h, hparsed⟩
    · intro _ _ _ h
      exact h
  · intro parsed
    by_cases hparsed : parseFetchUrl url allowedHosts = .ok parsed
    · apply Spec.bind (Q := fun ip net => Guarded allowedHosts n net ∧
        Pinned net.trace (hostname parsed.1) parsed.2 ip ∧ ip.isBlocked = false)
      · exact (spec_pinnedAddress (hostname parsed.1) parsed.2).imp (fun _ h => h.1)
          (fun _ _ h => h) (fun _ _ h => h)
      · intro ip
        exact spec_pure fun net h => ⟨h.1, hparsed, h.2⟩
    · intro net h
      exact absurd h.2 hparsed

omit [PyText] [PyNfkc] in
theorem not_isInternal {ip : IpAddress} (h : ip.isBlocked = false) : ¬ IsInternal ip := by
  intro hinternal
  have hblocked := isBlocked_of_isInternal hinternal
  rw [h] at hblocked
  cases hblocked

/-- A result keeps to the limits.  Its URL passed the checks of a URL that is fetched: those of
its parts, and its host has an address that is not internal, its own or one of the answer that
came last. -/
structure ResultVetted (allowedHosts : List Text) (trace : List NetEvent) (result : FetchResult) :
    Prop where
  body : result.body.length ≤ maxContentBytes
  status : result.status < 400
  finalUrl : ∃ p number ip, parseFetchUrl result.finalUrl allowedHosts = .ok (p, number) ∧
    Pinned trace (hostname p) number ip ∧ ¬ IsInternal ip

/-- **One hop** connects at most once, to the address just vouched for. -/
theorem spec_fetchOncePinned (url : Text) :
    Spec (Guarded allowedHosts n) (fetchOncePinned web url allowedHosts)
      (fun hop net => Guarded allowedHosts (n + 1) net ∧
        ∀ result, hop = .done result → ResultVetted allowedHosts net.trace result)
      (fun _ net => Guarded allowedHosts (n + 1) net) := by
  unfold fetchOncePinned
  apply ((spec_parseAndValidate url).imp (fun _ h => h) (fun _ _ h => h)
    (fun _ _ h => h.mono (Nat.le_succ n))).bind
  intro validated
  unfold exchangeOver
  apply Spec.bind (Q := fun _ net => Guarded allowedHosts (n + 1) net)
  · apply spec_ask
    intro net h
    obtain ⟨hguarded, hparsed, hpinned, hclear⟩ := h
    obtain ⟨-, -, hhost, hallowed, -⟩ := parseFetchUrl_ok hparsed
    have hvetted : Vetted allowedHosts net.trace
        (connectionOf validated.1.1 validated.1.2 validated.2) :=
      ⟨hhost, hallowed, hpinned, hclear⟩
    exact hguarded.connect hvetted (web.exchange _ net.web).2
  intro answer
  apply Spec.bind (Q := fun _ net => Guarded allowedHosts (n + 1) net)
  · exact spec_fromExcept (fun _ _ _ h => h) (fun _ _ _ h => h)
  intro response
  apply spec_ite
  · intro _
    cases present response.location with
    | none => exact spec_throw fun _ h => h
    | some location =>
        apply Spec.bind (Q := fun _ net => Guarded allowedHosts (n + 1) net)
        · exact spec_fromExcept (fun _ _ _ h => h) (fun _ _ _ h => h)
        · intro next
          apply spec_pure
          intro net h
          refine ⟨h, ?_⟩
          intro result hdone
          cases hdone
  intro _
  apply spec_ite
  · intro _
    exact spec_throw fun _ h => h
  intro hstatus
  apply Spec.bind (Q := fun body net => Guarded allowedHosts (n + 1) net ∧
    body.length ≤ maxContentBytes)
  · apply spec_fromExcept
    · intro body hbody net h
      exact ⟨h, length_readLimited hbody⟩
    · intro _ _ _ h
      exact h
  intro body
  apply Spec.bind (Q := fun _ net => Guarded allowedHosts (n + 1) net ∧
    body.length ≤ maxContentBytes)
  · exact spec_fromExcept (fun _ _ _ h => h) (fun _ _ _ h => h.1)
  intro finalUrl
  by_cases hlength : body.length ≤ maxContentBytes
  · apply ((spec_parseAndValidate finalUrl).imp (fun _ h => h.1) (fun _ _ h => h) (fun _ _ h => h)).bind
    intro last
    apply spec_pure
    intro net h
    refine ⟨h.1, ?_⟩
    intro result hdone
    rw [← Hop.done.inj hdone]
    exact ⟨hlength, not_le.mp hstatus, last.1.1, last.1.2, last.2, h.2.1, h.2.2.1,
      not_isInternal h.2.2.2⟩
  · intro net h
    exact absurd h.2 hlength

theorem spec_followRedirects (hops : Nat) (url : Text) :
    Spec (Guarded allowedHosts n) (followRedirects web allowedHosts hops url)
      (fun result net => Guarded allowedHosts (n + hops) net ∧
        ResultVetted allowedHosts net.trace result)
      (fun _ net => Guarded allowedHosts (n + hops) net) := by
  induction hops generalizing n url with
  | zero => exact spec_throw fun _ h => h
  | succ hops ih =>
      unfold followRedirects
      apply ((spec_fetchOncePinned url).imp (fun _ h => h) (fun _ _ h => h)
        (fun _ _ h => h.mono (by omega))).bind
      intro hop
      cases hop with
      | done result =>
          apply spec_pure
          intro net h
          exact ⟨h.1.mono (by omega), h.2 result rfl⟩
      | redirect next =>
          apply (ih next).imp
          · intro net h
            exact h.1
          · intro result net h
            exact ⟨h.1.mono (by omega), h.2⟩
          · intro _ net h
            exact h.mono (by omega)

/-- **A fetch stays outside.**  However name servers and servers answer, and however they
change their answers, every connection goes to an address that is not internal, that came
with the host being fetched or from the one lookup right before, and to a host of the
allowlist when there is one.  There are at most six connections, and a result is within the
size limit and under a URL that was validated as well, its address included. -/
theorem fetch_stays_outside (web : Web ω) (outside : ω) (url : Text) (allowedHosts : List Text) :
    let out := exec (fetchUrlWithAllowlist web url allowedHosts) ⟨outside, []⟩
    (∀ before c after, out.2.trace = before ++ .connect c :: after →
        ¬ IsInternal c.connectHost ∧ Pinned before c.logicalHost c.port c.connectHost ∧
          (allowedHosts ≠ [] → OnAllowlist c.logicalHost allowedHosts)) ∧
      (out.2.trace.filter isConnect).length ≤ 6 ∧
        ∀ result, out.1 = .ok result → ResultVetted allowedHosts out.2.trace result := by
  have hstart : Guarded allowedHosts 0 (⟨outside, []⟩ : Net ω) := ⟨eachAfter_nil, le_rfl⟩
  have hspec : Spec (Guarded allowedHosts 0) (fetchUrlWithAllowlist web url allowedHosts)
      (fun result net => Guarded allowedHosts (0 + (maxRedirects + 1)) net ∧
        ResultVetted allowedHosts net.trace result)
      (fun _ net => Guarded allowedHosts (0 + (maxRedirects + 1)) net) :=
    spec_followRedirects (maxRedirects + 1) url
  have hend := hspec.of_both (R := Guarded allowedHosts 6) (fun _ _ h => h.1) (fun _ _ h => h) hstart
  refine ⟨?_, hend.bounded, fun result hresult => (hspec.of_ok hstart hresult).2⟩
  intro before c after htrace
  have hvetted : Vetted allowedHosts before c := hend.vetted before (.connect c) after htrace
  exact ⟨not_isInternal hvetted.notBlocked, hvetted.pinned, hvetted.allowed.resolve_left⟩

end Laws

/-! ## References without a server -/

section Relative

variable [PyText] [PyNfkc] {url reference : Text} {allowedHosts : List Text} {p : ParseResult}
  {number : Nat}

/-- What is checked before a lookup is the scheme and the network location. -/
theorem parseFetchUrl_congr {next : Text} {q : ParseResult}
    (h : parseFetchUrl url allowedHosts = .ok (p, number)) (hnext : urlparse next = .ok q)
    (hscheme : q.scheme = p.scheme) (hnetloc : q.netloc = p.netloc) :
    parseFetchUrl next allowedHosts = .ok (q, number) ∧ hostname q = hostname p := by
  obtain ⟨-, hweb, hhost, hallowed, given, hport, hnumber⟩ := parseFetchUrl_ok h
  have hsameHost : hostname q = hostname p := by
    unfold hostname
    rw [hnetloc]
  have hsamePort : port q = port p := by
    unfold port
    rw [hnetloc]
  refine ⟨?_, hsameHost⟩
  rw [← hostMatchesAllowlist_iff] at hallowed
  unfold parseFetchUrl
  simp only [Outcome.bind_ok, Outcome.require_ok, Outcome.fromOption_ok, Outcome.pure_ok]
  refine ⟨q, by rw [hnext]; rfl, (), ?_, (), ?_, (), ?_, given, ?_, ?_⟩
  · rw [hscheme]
    exact hweb
  · rw [hsameHost]
    exact hhost
  · rw [hsameHost]
    exact hallowed
  · rw [hsamePort]
    exact hport
  · rw [hnumber]
    unfold portOr
    rw [hscheme]

/-- **A relative reference is never refused.**  Where a validated URL answers with a `Location`
or a `Content-Location` that names no server, the joined URL passes the checks as well, for the
same host and port. -/
theorem relative_reference_stays [LawfulPyText] {u : SplitResult}
    (hurl : parseFetchUrl url allowedHosts = .ok (p, number))
    (hreference : urlsplit reference = .ok u) (hnone : u.scheme = []) (hserver : u.netloc = []) :
    ∃ next q, urljoin url reference = .ok next ∧
      parseFetchUrl next allowedHosts = .ok (q, number) ∧ q.scheme = p.scheme ∧
        hostname q = hostname p := by
  obtain ⟨hparse, hweb, hhost, -⟩ := parseFetchUrl_ok hurl
  have hscheme : p.scheme = http ∨ p.scheme = https := by
    have hlower : lowerText p.scheme = p.scheme := (wellParsed_of_urlparse hparse).scheme
    rw [hlower] at hweb
    exact hweb
  have hnetloc : p.netloc ≠ [] := by
    intro hempty
    apply hhost
    unfold hostname
    rw [hempty]
    rfl
  obtain ⟨next, q, hjoin, hnext, hqscheme, hqnetloc⟩ :=
    urljoin_same_server hparse hscheme hnetloc hreference hnone hserver
  obtain ⟨hvalid, hsame⟩ := parseFetchUrl_congr hurl hnext hqscheme hqnetloc
  exact ⟨next, q, hjoin, hvalid, hqscheme, hsame⟩

end Relative

/-- A page that redirects to a path above its own. -/
theorem relative_reference_stays_up : ∃ next q,
    urljoin "https://h:8/a/b".toList "../../x?q".toList = .ok next ∧
      parseFetchUrl next ["h".toList] = .ok (q, 8) ∧ q.scheme = https ∧ hostname q = "h".toList := by
  have hhost : hostname ⟨https, "h:8".toList, "/a/b".toList, [], [], []⟩ = "h".toList := by
    decide +kernel
  have hstays := @relative_reference_stays _ _ "https://h:8/a/b".toList "../../x?q".toList
    ["h".toList] ⟨https, "h:8".toList, "/a/b".toList, [], [], []⟩ 8 _
    ⟨[], [], "../../x".toList, ['q'], []⟩ (by decide +kernel) (by decide +kernel) rfl rfl
  rwa [hhost] at hstays

end HermesFetch

end Atlas
