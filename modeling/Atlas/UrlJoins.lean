import Atlas.UrlParses

/-!
# Joining a URL with a reference

A redirect and a `Content-Location` may name their target relative to the URL that was
fetched.  `urljoin` of the standard library (CPython 3.12) works on the parsed pieces and
puts them together again, so what it returns means something only once it is parsed a
second time.  A reference that names no server stays on the server of its base, whatever
its path does.
-/

namespace Atlas

namespace Urls

open Cuts Outcome

/-- `urlparse(url, scheme)`: the scheme of a URL that has none. -/
def urlparseWith [PyNfkc] (scheme url : Text) : Except UrllibError ParseResult := do
  let split ← urlsplit url
  let scheme := if split.scheme = [] then scheme else split.scheme
  let pathAndParams :=
    if scheme ∈ usesParams ∧ ';' ∈ split.path then splitParams split.path else (split.path, [])
  pure ⟨scheme, split.netloc, pathAndParams.1, pathAndParams.2, split.query, split.fragment⟩

/-- `uses_relative`. -/
def usesRelative : List Text :=
  [[], "ftp".toList, http, "gopher".toList, "nntp".toList, "imap".toList, "wais".toList,
    "file".toList, https, "shttp".toList, "mms".toList, "prospero".toList, "rtsp".toList,
    "rtsps".toList, "rtspu".toList, "sftp".toList, "svn".toList, "svn+ssh".toList, "ws".toList,
    "wss".toList]

/-- The segments without those that are empty, the first and the last set aside. -/
def withoutEmpty : List Text → List Text
  | [] => []
  | [segment] => [segment]
  | first :: rest => first :: rest.dropLast.filter (· ≠ []) ++ rest.getLast?.toList

/-- The segments of the joined path, before `.` and `..` are resolved. -/
def joinedSegments (base path : Text) : List Text :=
  if path.head? = some '/' then path.splitOn '/'
  else
    let baseParts := base.splitOn '/'
    let directory := if baseParts.getLast? ≠ some [] then baseParts.dropLast else baseParts
    withoutEmpty (directory ++ path.splitOn '/')

/-- A segment is appended, `.` skipped, and `..` takes the last one back. -/
def resolveSegment (resolved : List Text) (segment : Text) : List Text :=
  if segment = ['.', '.'] then resolved.dropLast
  else if segment = ['.'] then resolved
  else resolved ++ [segment]

def resolvedPath (segments : List Text) : Text :=
  let resolved := segments.foldl resolveSegment []
  let resolved :=
    if segments.getLast? ∈ [some ['.'], some ['.', '.']] then resolved ++ [[]] else resolved
  let path := ['/'].intercalate resolved
  if path = [] then ['/'] else path

/-- `urljoin(base, url)`. -/
def urljoin [PyNfkc] (base url : Text) : Except UrllibError Text := do
  if base = [] then pure url
  else if url = [] then pure base
  else
    let b ← urlparse base
    let u ← urlparseWith b.scheme url
    if u.scheme ≠ b.scheme ∨ u.scheme ∉ usesRelative then pure url
    else if u.scheme ∈ usesNetloc ∧ u.netloc ≠ [] then pure (urlunparse u)
    else
      let netloc := if u.scheme ∈ usesNetloc then b.netloc else u.netloc
      if u.path = [] ∧ u.params = [] then
        let query := if u.query = [] then b.query else u.query
        pure (urlunparse ⟨u.scheme, netloc, b.path, b.params, query, u.fragment⟩)
      else
        pure (urlunparse ⟨u.scheme, netloc, resolvedPath (joinedSegments b.path u.path), u.params,
          u.query, u.fragment⟩)

example : urljoin "http://a/b/c/d;p?q".toList "../g".toList = .ok "http://a/b/g".toList := by
  decide +kernel

/-! ## References without a server -/

/-- Nothing, or something that ends a network location. -/
def Delimited (rest : Text) : Prop := ∀ c, rest.head? = some c → isDelimiter c = true

theorem not_isUnsafe_of_isDelimiter {c : Char} (h : isDelimiter c = true) : isUnsafe c = false := by
  simp only [isDelimiter, Bool.or_eq_true, beq_iff_eq] at h
  rcases h with (rfl | rfl) | rfl
  · rfl
  · rfl
  · rfl

/-- What follows the network location still ends it without tabs and line breaks. -/
theorem Delimited.filter {rest : Text} (h : Delimited rest) :
    Delimited (rest.filter fun c => !isUnsafe c) := by
  cases rest with
  | nil => exact h
  | cons c rest =>
      have hc := h c rfl
      rw [List.filter_cons_of_pos (by simp [not_isUnsafe_of_isDelimiter hc])]
      intro d hd
      rw [← Option.some.inj hd]
      exact hc

theorem Delimited.append {rest rest' : Text} (h : Delimited rest) (h' : Delimited rest') :
    Delimited (rest ++ rest') := by
  cases rest with
  | nil => exact h'
  | cons c rest => exact h

theorem splitNetloc_delimited {netloc rest : Text} (hnetloc : ∀ c ∈ netloc, isDelimiter c = false)
    (hrest : Delimited rest) : splitNetloc ('/' :: '/' :: (netloc ++ rest)) = (netloc, rest) := by
  have hclear : ∀ c ∈ netloc, (!isDelimiter c) = true := fun c hc => by simp [hnetloc c hc]
  simp only [splitNetloc]
  rw [List.takeWhile_append_of_pos hclear, List.dropWhile_append_of_pos hclear]
  cases rest with
  | nil => simp
  | cons c rest =>
      have hc := hrest c rfl
      simp [hc]

theorem cleaned_address_filter {scheme netloc rest : Text} (hscheme : scheme = http ∨ scheme = https)
    (hnetloc : ∀ c ∈ netloc, isUnsafe c = false) :
    cleaned (address scheme netloc rest) =
      address scheme netloc (rest.filter fun c => !isUnsafe c) := by
  have hdrop : (address scheme netloc rest).dropWhile (fun c => c.toNat ≤ 32) =
      address scheme netloc rest := by
    rcases hscheme with rfl | rfl <;> rfl
  have hkept : netloc.filter (fun c => !isUnsafe c) = netloc := by
    rw [List.filter_eq_self]
    intro c hc
    simp [hnetloc c hc]
  have hsafe : scheme.filter (fun c => !isUnsafe c) = scheme := by
    rcases hscheme with rfl | rfl <;> rfl
  rw [cleaned, hdrop, address, address, List.filter_append, hsafe]
  simp only [List.filter_cons, List.filter_append, hkept]
  rfl

/-- **A URL put together parses to the server it was put together from.** -/
theorem urlparse_server [PyNfkc] {scheme netloc rest : Text}
    (hscheme : scheme = http ∨ scheme = https)
    (hnetloc : ∀ c ∈ netloc, isDelimiter c = false ∧ isUnsafe c = false)
    (hbrackets : checkBrackets netloc = .ok ()) (hnfkc : StableUnderNfkc netloc)
    (hrest : Delimited rest) :
    ∃ q, urlparse (address scheme netloc rest) = .ok q ∧ q.scheme = scheme ∧ q.netloc = netloc := by
  have hclean := @cleaned_address_filter _ _ rest hscheme fun c hc => (hnetloc c hc).2
  have hfirst := splitScheme_address hscheme netloc (rest.filter fun c => !isUnsafe c)
  have hsecond := splitNetloc_delimited (fun c hc => (hnetloc c hc).1) hrest.filter
  have hsplit : ∃ split, urlsplit (address scheme netloc rest) = .ok split ∧
      split.scheme = scheme ∧ split.netloc = netloc := by
    unfold urlsplit checkNetloc
    rw [hclean, hfirst]
    dsimp only
    rw [hsecond, hbrackets]
    dsimp only
    rw [(require_ok (u := ())).mpr hnfkc]
    exact ⟨_, rfl, rfl, rfl⟩
  obtain ⟨split, hok, hs, hn⟩ := hsplit
  unfold urlparse
  rw [hok]
  exact ⟨_, rfl, hs, hn⟩

/-- What `urlunparse` writes behind scheme and network location. -/
theorem urlunparse_server {p : ParseResult} (hscheme : p.scheme ≠ []) (hnetloc : p.netloc ≠ []) :
    ∃ rest, Delimited rest ∧ urlunparse p = address p.scheme p.netloc rest := by
  have hpath : ∃ path, Delimited path ∧ (if p.path ++ marked ';' p.params ≠ [] ∧
      (p.path ++ marked ';' p.params).head? ≠ some '/' then '/' :: (p.path ++ marked ';' p.params)
      else p.path ++ marked ';' p.params) = path := by
    refine ⟨_, ?_, rfl⟩
    intro c hc
    split at hc
    next => 
      rw [← Option.some.inj hc]
      rfl
    next h =>
      by_cases hnil : p.path ++ marked ';' p.params = []
      · rw [hnil] at hc
        cases hc
      · have hroot : (p.path ++ marked ';' p.params).head? = some '/' := by
          by_contra hhead
          exact h ⟨hnil, hhead⟩
        rw [hroot] at hc
        rw [← Option.some.inj hc]
        rfl
  obtain ⟨path, hdelimited, hpath⟩ := hpath
  have hmarked : ∀ {mark : Char} {cs : Text}, isDelimiter mark = true → Delimited (marked mark cs) := by
    intro mark cs hmark c hc
    by_cases hcs : cs = []
    · rw [hcs] at hc
      cases hc
    · rw [marked_of_ne hcs] at hc
      rw [← Option.some.inj hc]
      exact hmark
  refine ⟨path ++ marked '?' p.query ++ marked '#' p.fragment, ?_, ?_⟩
  · exact (hdelimited.append (hmarked rfl)).append (hmarked rfl)
  · unfold urlunparse urlunsplit
    simp only [if_pos hnetloc, if_pos hscheme, hpath]
    by_cases hquery : p.query = []
    · by_cases hfragment : p.fragment = []
      · simp [hquery, hfragment, address, marked]
      · simp [hquery, hfragment, address, marked]
    · by_cases hfragment : p.fragment = []
      · simp [hquery, hfragment, address, marked]
      · simp [hquery, hfragment, address, marked]

/-- **A reference without a server stays where it is.**  Joined with a web URL it parses to
the scheme and the network location of that URL, and so to the same host and port. -/
theorem urljoin_same_server [PyNfkc] {base reference : Text} {p : ParseResult} {u : SplitResult}
    (hbase : urlparse base = .ok p) (hscheme : p.scheme = http ∨ p.scheme = https)
    (hnetloc : p.netloc ≠ []) (hreference : urlsplit reference = .ok u) (hnone : u.scheme = [])
    (hserver : u.netloc = []) :
    ∃ out q, urljoin base reference = .ok out ∧ urlparse out = .ok q ∧
      q.scheme = p.scheme ∧ q.netloc = p.netloc := by
  have hwell := wellParsed_of_urlparse hbase
  have hnamed : p.scheme ≠ [] := by
    cases hscheme with
    | inl h => simp [h, http]
    | inr h => simp [h, https]
  -- every branch that joins at all writes the server of the base
  have hserver' : ∀ path params query fragment, ∃ q,
      urlparse (urlunparse ⟨p.scheme, p.netloc, path, params, query, fragment⟩) = .ok q ∧
        q.scheme = p.scheme ∧ q.netloc = p.netloc := by
    intro path params query fragment
    obtain ⟨rest, hrest, hwritten⟩ :=
      @urlunparse_server ⟨p.scheme, p.netloc, path, params, query, fragment⟩ hnamed hnetloc
    rw [hwritten]
    exact urlparse_server hscheme hwell.netloc hwell.brackets hwell.nfkc hrest
  have hrelative : p.scheme ∈ usesRelative := by
    cases hscheme with
    | inl h => simp [h, usesRelative]
    | inr h => simp [h, usesRelative]
  have hnetlocs : p.scheme ∈ usesNetloc := by
    cases hscheme with
    | inl h => simp [h, usesNetloc]
    | inr h => simp [h, usesNetloc]
  have hempty : base ≠ [] := by
    intro hnil
    have hparsed : urlparse [] = .ok ⟨[], [], [], [], [], []⟩ := rfl
    rw [hnil, hparsed] at hbase
    rw [← Except.ok.inj hbase] at hnetloc
    exact hnetloc rfl
  obtain ⟨v, hv, hvscheme, hvnetloc⟩ : ∃ v, urlparseWith p.scheme reference = .ok v ∧
      v.scheme = p.scheme ∧ v.netloc = [] := by
    unfold urlparseWith
    rw [hreference]
    exact ⟨_, rfl, if_pos hnone, hserver⟩
  unfold urljoin
  rw [if_neg hempty]
  by_cases hsame : reference = []
  · rw [if_pos hsame]
    exact ⟨base, p, rfl, hbase, rfl, rfl⟩
  rw [if_neg hsame, hbase, ok_bind, hv, ok_bind, hvscheme, hvnetloc]
  have hjoined : ¬ (p.scheme ≠ p.scheme ∨ p.scheme ∉ usesRelative) := by
    intro h
    cases h with
    | inl hne => exact hne rfl
    | inr hnot => exact hnot hrelative
  have hserverless : ¬ (p.scheme ∈ usesNetloc ∧ ([] : Text) ≠ []) := fun h => h.2 rfl
  rw [if_neg hjoined, if_neg hserverless, if_pos hnetlocs]
  dsimp only
  split
  · obtain ⟨q, hq⟩ := hserver' p.path p.params (if v.query = [] then p.query else v.query) v.fragment
    exact ⟨_, q, rfl, hq⟩
  · obtain ⟨q, hq⟩ := hserver' (resolvedPath (joinedSegments p.path v.path)) v.params v.query
      v.fragment
    exact ⟨_, q, rfl, hq⟩

end Urls

end Atlas
