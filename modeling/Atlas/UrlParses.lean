import Atlas.FieldKeys
import Atlas.FloatTexts
import Atlas.Urls

/-!
# Parsing a URL and putting one together

The two halves of a round trip.  What `urlparse` leaves never holds the mark that
ended it, and the lower case of a host brings no mark into it.  A URL written as
scheme, network location and rest is cut by `urlparse` where it was put together.
-/

namespace Atlas

/-- What Unicode says of `str.lower` and of NFKC: a lower-cased text has no ASCII
character but letters that the text did not have, NFKC leaves ASCII alone, and
the delimiters in a normal form come from single characters, none of which is
the lower case of another character. -/
class LawfulUrlText [PyText] [PyNfkc] : Prop where
  lower_ascii : ∀ s : String, ∀ c ∈ (PyText.lower s).toList, c.toNat < 128 →
    c.isAlpha = true ∨ c ∈ s.toList
  nfkc_ascii : ∀ c : Char, c.toNat < 128 → PyNfkc.nfkc [c] = [c]
  nfkc_delimiter : ∀ cs : Text, ∀ d ∈ Urls.nfkcDelimiters,
    d ∈ PyNfkc.nfkc cs ↔ ∃ c ∈ cs, d ∈ PyNfkc.nfkc [c]
  nfkc_lower : ∀ s : String, ∀ c ∈ (PyText.lower s).toList, ∀ d ∈ Urls.nfkcDelimiters,
    d ∈ PyNfkc.nfkc [c] → c ∈ s.toList

theorem Urls.not_letter_of_delimiter {d : Char} (h : d ∈ nfkcDelimiters) :
    d.isAlpha = false ∧ d.isDigit = false := by
  simp only [nfkcDelimiters, List.mem_cons, List.not_mem_nil, or_false] at h
  rcases h with rfl | rfl | rfl | rfl | rfl <;> decide

theorem toLower_ascii (c : Char) : c.toLower.isAlpha = true ∨ c.toLower = c := by
  rcases toLower_cases c with ⟨hfixed, -⟩ | ⟨hupper, hmoved⟩
  · exact .inr hfixed
  · left
    unfold Char.isAlpha Char.isUpper Char.isLower
    simp only [ge_iff_le, UInt32.le_iff_toNat_le, Char.toNat_val, UInt32.reduceToNat,
      Char.reduceVal, Bool.or_eq_true, decide_eq_true_eq, Bool.and_eq_true]
    omega

/-- The ASCII tables. -/
instance : LawfulUrlText where
  lower_ascii s c hc _ := by
    change c ∈ (s.map Char.toLower).toList at hc
    rw [String.toList_map] at hc
    obtain ⟨b, hb, rfl⟩ := List.mem_map.mp hc
    rcases toLower_ascii b with halpha | hsame
    · exact .inl halpha
    · right
      rwa [hsame]
  nfkc_ascii _ _ := rfl
  nfkc_delimiter cs d _ := by
    change d ∈ cs ↔ ∃ c ∈ cs, d ∈ [c]
    simp
  nfkc_lower s c hc d hd hmem := by
    change d ∈ [c] at hmem
    obtain rfl := List.mem_singleton.mp hmem
    change d ∈ (s.map Char.toLower).toList at hc
    rw [String.toList_map] at hc
    obtain ⟨b, hb, rfl⟩ := List.mem_map.mp hc
    rcases toLower_ascii b with halpha | hsame
    · rw [(Urls.not_letter_of_delimiter hd).1] at halpha
      cases halpha
    · rwa [hsame]

namespace Urls

open Cuts Outcome

/-! ## Lower case -/

section Lower

variable [PyText] [PyNfkc] [LawfulPyText] [LawfulUrlText]

omit [PyNfkc] [LawfulUrlText] in
theorem lowerText_lowerText (cs : Text) : lowerText (lowerText cs) = lowerText cs := by
  have hfixed := LawfulPyText.lower_fixed _ (LawfulPyText.lower_lowered (String.ofList cs))
  unfold lowerText
  rw [String.ofList_toList, hfixed]

omit [PyNfkc] [LawfulUrlText] in
/-- ASCII text that is in lower case already. -/
theorem lowerText_of_ascii {cs : Text} (hascii : ∀ c ∈ cs, c.toNat < 128)
    (hlower : ∀ c ∈ cs, c.toLower = c) : lowerText cs = cs := by
  unfold lowerText
  rw [LawfulPyText.lower_ascii _ (by simpa using hascii), String.toList_ofList]
  conv_rhs => rw [← List.map_id cs]
  exact List.map_congr_left hlower

omit [LawfulPyText] in
/-- Lowering a text brings no punctuation into it. -/
theorem mem_of_mem_lowerText {cs : Text} {c : Char} (hascii : c.toNat < 128)
    (hletter : c.isAlpha = false) (h : c ∈ lowerText cs) : c ∈ cs := by
  rcases LawfulUrlText.lower_ascii _ c h hascii with halpha | hmem
  · rw [hletter] at halpha
    cases halpha
  · simpa using hmem

omit [PyNfkc] [LawfulPyText] [LawfulUrlText] in
theorem mem_lowerHost {host : Text} {c : Char} (h : c ∈ lowerHost host) :
    c ∈ lowerText (before '%' host) ∨ c ∈ host := by
  unfold lowerHost at h
  rcases List.mem_append.mp h with h | h
  · exact .inl h
  · right
    split_ifs at h with hzone
    · rcases List.mem_cons.mp h with rfl | h
      · exact hzone
      · exact mem_of_mem_behind h
    · cases h

omit [LawfulPyText] in
/-- Nor does lowering a host. -/
theorem mem_of_mem_lowerHost {host : Text} {c : Char} (hascii : c.toNat < 128)
    (hletter : c.isAlpha = false) (h : c ∈ lowerHost host) : c ∈ host := by
  rcases mem_lowerHost h with h | h
  · exact mem_of_mem_before (mem_of_mem_lowerText hascii hletter h)
  · exact h

theorem lowerHost_lowerHost (host : Text) : lowerHost (lowerHost host) = lowerHost host := by
  have hnone : '%' ∉ lowerText (before '%' host) := fun h =>
    not_mem_before (mem_of_mem_lowerText (by decide) (by decide) h)
  have hlower := lowerText_lowerText (before '%' host)
  by_cases hzone : '%' ∈ host
  · have hshape : lowerHost host = lowerText (before '%' host) ++ '%' :: behind '%' host := by
      simp [lowerHost, hzone]
    have hcut : before '%' (lowerHost host) = lowerText (before '%' host) := by
      rw [hshape, before_append hnone, before_cons_self, List.append_nil]
    have hleft : behind '%' (lowerHost host) = behind '%' host := by
      rw [hshape, behind_append hnone, behind_cons_self]
    have hmem : '%' ∈ lowerHost host := by simp [hshape]
    rw [lowerHost, hcut, hleft, if_pos hmem, hlower, hshape]
  · have hshape : lowerHost host = lowerText host := by
      simp [lowerHost, hzone, before_of_not_mem]
    rw [before_of_not_mem hzone] at hnone hlower
    rw [hshape, lowerHost, before_of_not_mem hnone, if_neg hnone, List.append_nil, hlower]

end Lower

/-! ## What a parse leaves -/

/-- What `urlparse` promises of its pieces: none holds the mark that ends it. -/
structure WellParsed [PyText] [PyNfkc] (p : ParseResult) : Prop where
  scheme : lowerText p.scheme = p.scheme
  netloc : ∀ c ∈ p.netloc, isDelimiter c = false ∧ isUnsafe c = false
  rooted : p.netloc ≠ [] → p.path = [] ∨ p.path.head? = some '/'
  path : ∀ c ∈ p.path, c ≠ '?' ∧ c ≠ '#' ∧ isUnsafe c = false
  params : ∀ c ∈ p.params, c ≠ '?' ∧ c ≠ '#' ∧ isUnsafe c = false
  oneSegment : '/' ∉ p.params
  segment : p.scheme ∈ usesParams → ';' ∉ lastPart '/' p.path
  query : ∀ c ∈ p.query, c ≠ '#' ∧ isUnsafe c = false
  brackets : checkBrackets p.netloc = .ok ()
  nfkc : StableUnderNfkc p.netloc

theorem safe_of_mem_cleaned {url : Text} {c : Char} (h : c ∈ cleaned url) : isUnsafe c = false := by
  simpa using (List.mem_filter.mp h).2

theorem mem_of_mem_splitScheme {url : Text} {c : Char} (h : c ∈ (splitScheme url).2) : c ∈ url := by
  unfold splitScheme at h
  split_ifs at h
  · exact mem_of_mem_behind h
  · exact h

theorem ascii_of_isSchemeChar {c : Char} (h : isSchemeChar c = true) : c.toNat < 128 := by
  unfold isSchemeChar Char.isAlphanum Char.isAlpha Char.isUpper Char.isLower Char.isDigit at h
  simp only [ge_iff_le, UInt32.le_iff_toNat_le, Char.toNat_val, UInt32.reduceToNat, Char.reduceVal,
    Bool.or_eq_true, decide_eq_true_eq, Bool.and_eq_true, beq_iff_eq] at h
  rcases h with ((h | rfl) | rfl) | rfl
  · omega
  · decide
  · decide
  · decide

/-- A scheme is ASCII text in lower case. -/
theorem splitScheme_ascii (url : Text) :
    ∀ c ∈ (splitScheme url).1, c.toNat < 128 ∧ c.toLower = c := by
  intro c hc
  unfold splitScheme at hc
  split_ifs at hc with hscheme
  · obtain ⟨b, hb, rfl⟩ := List.mem_map.mp hc
    have hchar : isSchemeChar b = true := List.all_eq_true.mp hscheme.2.2 b hb
    have hascii := ascii_of_isSchemeChar hchar
    refine ⟨?_, toLower_toLower b⟩
    rcases toLower_cases b with ⟨hfixed, -⟩ | ⟨hupper, hmoved⟩
    · rwa [hfixed]
    · omega
  · cases hc

/-- A network location without the characters that end one, and a rest that is
empty or begins with one. -/
theorem splitNetloc_spec (url : Text) :
    (∀ c ∈ (splitNetloc url).1, isDelimiter c = false ∧ c ∈ url) ∧
      (∀ c ∈ (splitNetloc url).2, c ∈ url) ∧
      ((splitNetloc url).1 ≠ [] → ∀ c ∈ (splitNetloc url).2.head?, isDelimiter c = true) := by
  unfold splitNetloc
  split
  · rename_i rest
    refine ⟨?_, ?_, ?_⟩
    · intro c hc
      have hmem := (List.takeWhile_prefix _).subset hc
      have hstop := List.mem_takeWhile_imp hc
      exact ⟨by simpa using hstop, by simp [hmem]⟩
    · intro c hc
      have hmem := (List.dropWhile_sublist _).subset hc
      simp [hmem]
    · intro _ c hc
      have hhead := List.head?_dropWhile_not (fun c => !isDelimiter c) rest
      simp only [Option.mem_def] at hc
      rw [hc] at hhead
      simpa using hhead
  · exact ⟨fun c hc => absurd hc List.not_mem_nil, fun c hc => hc, fun hne => absurd rfl hne⟩

theorem splitParams_spec (url : Text) :
    (∀ c ∈ (splitParams url).1, c ∈ url) ∧ (∀ c ∈ (splitParams url).2, c ∈ url) ∧
      '/' ∉ (splitParams url).2 ∧ ';' ∉ lastPart '/' (splitParams url).1 := by
  unfold splitParams
  split_ifs with h
  · refine ⟨?_, ?_, ?_, ?_⟩
    · intro c hc
      rcases List.mem_append.mp hc with hc | hc
      · exact mem_of_mem_upToLast hc
      · exact mem_of_mem_lastPart (mem_of_mem_before hc)
    · intro c hc
      exact mem_of_mem_lastPart (mem_of_mem_behind hc)
    · intro hslash
      exact not_mem_lastPart (mem_of_mem_behind hslash)
    · have hnone : '/' ∉ before ';' (lastPart '/' url) := fun hslash =>
        not_mem_lastPart (mem_of_mem_before hslash)
      have hempty : ';' ∉ lastPart '/' (upToLast '/' url) := by
        by_cases hslash : '/' ∈ url
        · obtain ⟨as, has⟩ := upToLast_of_mem hslash
          have hcut : lastPart '/' (as ++ '/' :: []) = [] := (last_cut (by simp)).2
          rw [has, hcut]
          simp
        · rw [upToLast_of_not_mem hslash]
          decide
      rw [lastPart_append hnone, List.mem_append]
      exact not_or.mpr ⟨hempty, not_mem_before⟩
  · exact ⟨fun c hc => hc, fun c hc => absurd hc List.not_mem_nil, List.not_mem_nil, h⟩

/-- What begins with a slash still does without its parameters. -/
theorem head_splitParams {url : Text} (h : url.head? = some '/') :
    (splitParams url).1.head? = some '/' := by
  unfold splitParams
  split_ifs
  · have hmem : '/' ∈ url := List.mem_of_mem_head? h
    obtain ⟨as, has⟩ := upToLast_of_mem hmem
    have hglue := upToLast_append_lastPart '/' url
    rw [← hglue, has, List.append_assoc] at h
    rw [has, List.append_assoc]
    cases as with
    | nil => rfl
    | cons a as => exact h
  · exact h

/-- `splitParams` on a path without a `;`, as `urlparse` skips it there. -/
theorem splitParams_of_not_mem {url : Text} (h : ';' ∉ url) : splitParams url = (url, []) :=
  if_neg fun hmem => h (mem_of_mem_lastPart hmem)

theorem urlsplit_ok [PyNfkc] {url : Text} {split : SplitResult} (h : urlsplit url = .ok split) :
    checkBrackets split.netloc = .ok () ∧ StableUnderNfkc split.netloc ∧
      split = ⟨(splitScheme (cleaned url)).1, (splitNetloc (splitScheme (cleaned url)).2).1,
        before '?' (before '#' (splitNetloc (splitScheme (cleaned url)).2).2),
        behind '?' (before '#' (splitNetloc (splitScheme (cleaned url)).2).2),
        behind '#' (splitNetloc (splitScheme (cleaned url)).2).2⟩ := by
  unfold urlsplit at h
  simp only [bind_ok, pure_ok] at h
  obtain ⟨_, hbrackets, _, hnfkc, rfl⟩ := h
  exact ⟨hbrackets, require_ok.mp hnfkc, rfl⟩

/-- **The pieces of a parse.** -/
theorem wellParsed_of_urlparse [PyText] [PyNfkc] [LawfulPyText] {url : Text} {p : ParseResult}
    (h : urlparse url = .ok p) : WellParsed p := by
  unfold urlparse at h
  simp only [bind_ok, pure_ok] at h
  obtain ⟨split, hsplit, rfl⟩ := h
  obtain ⟨hbrackets, hnfkc, hshape⟩ := urlsplit_ok hsplit
  have hscheme := splitScheme_ascii (cleaned url)
  obtain ⟨hnetloc, hrest, hstart⟩ := splitNetloc_spec (splitScheme (cleaned url)).2
  have hsafe : ∀ c ∈ (splitNetloc (splitScheme (cleaned url)).2).2, isUnsafe c = false := fun c hc =>
    safe_of_mem_cleaned (mem_of_mem_splitScheme (hrest c hc))
  have hpath : ∀ c ∈ split.path, c ≠ '?' ∧ c ≠ '#' ∧ isUnsafe c = false := by
    intro c hc
    rw [hshape] at hc
    have hfragment := mem_of_mem_before hc
    exact ⟨fun heq => not_mem_before (heq ▸ hc), fun heq => not_mem_before (heq ▸ hfragment),
      hsafe c (mem_of_mem_before hfragment)⟩
  have hquery : ∀ c ∈ split.query, c ≠ '#' ∧ isUnsafe c = false := by
    intro c hc
    rw [hshape] at hc
    have hfragment := mem_of_mem_behind hc
    exact ⟨fun heq => not_mem_before (heq ▸ hfragment), hsafe c (mem_of_mem_before hfragment)⟩
  have hrooted : split.netloc ≠ [] → split.path = [] ∨ split.path.head? = some '/' := by
    intro hne
    rw [hshape] at hne ⊢
    replace hstart := hstart hne
    generalize (splitNetloc (splitScheme (cleaned url)).2).2 = rest at hstart
    cases rest with
    | nil => exact .inl rfl
    | cons c rest =>
        have hc : isDelimiter c = true := hstart c rfl
        simp only [isDelimiter, Bool.or_eq_true, beq_iff_eq] at hc
        rcases hc with (rfl | rfl) | rfl
        · right
          simp [before]
        · left
          simp [before]
        · exact .inl (by simp)
  obtain ⟨hin, hparams, hslash, hsegment⟩ := splitParams_spec split.path
  have hlower : lowerText split.scheme = split.scheme := by
    rw [hshape]
    exact lowerText_of_ascii (fun c hc => (hscheme c hc).1) (fun c hc => (hscheme c hc).2)
  have hclean : ∀ c ∈ split.netloc, isDelimiter c = false ∧ isUnsafe c = false := by
    intro c hc
    rw [hshape] at hc
    exact ⟨(hnetloc c hc).1, safe_of_mem_cleaned (mem_of_mem_splitScheme (hnetloc c hc).2)⟩
  by_cases hsplit : split.scheme ∈ usesParams ∧ ';' ∈ split.path
  · simp only [if_pos hsplit]
    have hhead : split.netloc ≠ [] → (splitParams split.path).1 = [] ∨
        (splitParams split.path).1.head? = some '/' := by
      intro hne
      rcases hrooted hne with hnil | hslash
      · exact .inl (List.eq_nil_iff_forall_not_mem.mpr fun c hc => by simpa [hnil] using hin c hc)
      · exact .inr (head_splitParams hslash)
    exact ⟨hlower, hclean, hhead, fun c hc => hpath c (hin c hc), fun c hc => hpath c (hparams c hc),
      hslash, fun _ => hsegment, hquery, hbrackets, hnfkc⟩
  · simp only [if_neg hsplit]
    refine ⟨hlower, hclean, hrooted, hpath, fun c hc => absurd hc List.not_mem_nil,
      List.not_mem_nil, ?_, hquery, hbrackets, hnfkc⟩
    intro huses hmem
    exact hsplit ⟨huses, mem_of_mem_lastPart hmem⟩

/-! ## Putting a URL together -/

theorem trimPath_of_last {path : Text} (hne : path ≠ []) (h : path.getLast? ≠ some '/') :
    trimPath path = path := by
  simp [trimPath, h, hne]

/-- A path is trimmed to the root, or to one that does not end in a slash. -/
theorem trimPath_cases (path : Text) :
    trimPath path = ['/'] ∨ trimPath path ≠ [] ∧ (trimPath path).getLast? ≠ some '/' := by
  by_cases hroot : path = ['/']
  · simp [trimPath, hroot]
  · by_cases hlast : path.getLast? = some '/'
    · have hshape : trimPath path = if path.rdropWhile (· == '/') = [] then ['/']
          else path.rdropWhile (· == '/') := by
        simp [trimPath, hroot, hlast]
      rw [hshape]
      by_cases hempty : path.rdropWhile (· == '/') = []
      · simp [hempty]
      · right
        rw [if_neg hempty]
        refine ⟨hempty, ?_⟩
        have hstop := List.rdropWhile_last_not (· == '/') path hempty
        rw [List.getLast?_eq_some_getLast hempty]
        simpa using hstop
    · by_cases hempty : path = []
      · simp [trimPath, hempty]
      · right
        rw [trimPath_of_last hempty hlast]
        exact ⟨hempty, hlast⟩

theorem trimPath_trimPath (path : Text) : trimPath (trimPath path) = trimPath path := by
  rcases trimPath_cases path with hroot | ⟨hne, hlast⟩
  · rw [hroot]
    rfl
  · exact trimPath_of_last hne hlast

theorem trimPath_eq_self_iff {path : Text} (hne : path ≠ []) :
    trimPath path = path ↔ path = ['/'] ∨ path.getLast? ≠ some '/' := by
  constructor
  · intro h
    rcases trimPath_cases path with hroot | ⟨-, hlast⟩
    · exact .inl (h.symm.trans hroot)
    · exact .inr (h ▸ hlast)
  · rintro (rfl | hlast)
    · rfl
    · exact trimPath_of_last hne hlast

/-- Trimming keeps the beginning of a path that starts at the root. -/
theorem trimPath_spec {path : Text} (h : path.head? = some '/') :
    (trimPath path).head? = some '/' ∧ (trimPath path).length ≤ path.length ∧
      ∀ c ∈ trimPath path, c ∈ path := by
  obtain ⟨cs, rfl⟩ : ∃ cs, path = '/' :: cs := by
    cases path with
    | nil => cases h
    | cons c cs => exact ⟨cs, congrArg (· :: cs) (Option.some.inj h)⟩
  by_cases hlast : '/' :: cs ≠ ['/'] ∧ ('/' :: cs).getLast? = some '/'
  · have hshape : trimPath ('/' :: cs) = if List.rdropWhile (· == '/') ('/' :: cs) = [] then ['/']
        else List.rdropWhile (· == '/') ('/' :: cs) := by
      simp only [trimPath, if_pos hlast]
    obtain ⟨ds, hds⟩ := List.rdropWhile_prefix (· == '/') ('/' :: cs)
    rw [hshape]
    split_ifs with hempty
    · simp
    · generalize List.rdropWhile (· == '/') ('/' :: cs) = trimmed at hds hempty
      refine ⟨?_, ?_, ?_⟩
      · cases trimmed with
        | nil => exact absurd rfl hempty
        | cons c trimmed =>
            have hc : c = '/' := (List.cons.inj hds).1
            rw [hc]
            rfl
      · rw [← hds, List.length_append]
        omega
      · intro c hc
        rw [← hds]
        exact List.mem_append_left _ hc
  · have hshape : trimPath ('/' :: cs) = '/' :: cs := by
      simp only [trimPath, if_neg hlast, reduceCtorEq, if_false]
    rw [hshape]
    exact ⟨rfl, le_rfl, fun c hc => hc⟩

theorem trimPath_nil : trimPath [] = ['/'] := rfl

theorem marked_nil (mark : Char) : marked mark [] = [] := rfl

theorem marked_of_ne {mark : Char} {cs : Text} (h : cs ≠ []) : marked mark cs = mark :: cs :=
  if_neg h

theorem mem_marked {mark c : Char} {cs : Text} (h : c ∈ marked mark cs) : c = mark ∨ c ∈ cs := by
  unfold marked at h
  split_ifs at h
  · cases h
  · exact List.mem_cons.mp h

/-- Path and parameters, as the normaliser writes them. -/
def tail (p : ParseResult) : Text := trimPath p.path ++ marked ';' p.params

/-- Everything behind the network location, as the normaliser writes it. -/
def rest (p : ParseResult) : Text := tail p ++ marked '?' p.query

/-- A URL by its scheme, its network location and the rest. -/
def address (scheme netloc rest : Text) : Text := scheme ++ ':' :: '/' :: '/' :: (netloc ++ rest)

/-- The port the normaliser writes. -/
def shownPort (scheme : Text) (number : Option Nat) : Option Nat :=
  if IsDefaultPort scheme number then none else number

theorem joinNetloc_ne_nil {host : Text} (h : host ≠ []) (number : Option Nat) :
    joinNetloc host number ≠ [] := by
  cases number <;> simp [joinNetloc, h]

theorem urlunparse_eq {scheme netloc path params query : Text} (hscheme : scheme ≠ [])
    (hnetloc : netloc ≠ []) (hpath : path.head? = some '/') :
    urlunparse ⟨scheme, netloc, path, params, query, []⟩ =
      address scheme netloc (path ++ marked ';' params ++ marked '?' query) := by
  have hhead : (path ++ marked ';' params).head? = some '/' := by
    rw [List.head?_append, hpath]
    rfl
  have hrooted : ¬ (path ++ marked ';' params ≠ [] ∧
      (path ++ marked ';' params).head? ≠ some '/') := fun h => h.2 hhead
  simp only [urlunparse, urlunsplit, address, if_pos hnetloc, if_pos hscheme, if_neg hrooted,
    ne_eq, not_true_eq_false, if_false]
  by_cases hquery : query = []
  · simp [hquery, marked]
  · simp [hquery, marked]

section Normal

variable [PyText] [PyNfkc]

/-- The path of a URL with a host starts at the root, or is empty. -/
theorem head_trimmed {p : ParseResult} (hp : WellParsed p) (hne : p.netloc ≠ []) :
    (trimPath p.path).head? = some '/' := by
  rcases hp.rooted hne with hnil | hhead
  · rw [hnil]
    rfl
  · exact (trimPath_spec hhead).1

omit [PyNfkc] in
theorem netloc_ne_nil {p : ParseResult} (h : hostname p ≠ []) : p.netloc ≠ [] := by
  intro hnil
  apply h
  rw [hostname, hnil]
  rfl

/-- **What the normaliser writes.** -/
theorem normalizeParsed_ok {p : ParseResult} (hp : WellParsed p) {out : Text} :
    normalizeParsed p = .ok out ↔
      (p.scheme = http ∨ p.scheme = https) ∧ hostname p ≠ [] ∧ ∃ number, port p = some number ∧
        address p.scheme (joinNetloc (hostname p) (shownPort p.scheme number)) (rest p) = out := by
  unfold normalizeParsed
  simp only [bind_ok, pure_ok, require_ok, fromOption_ok, hp.scheme]
  constructor
  · rintro ⟨_, hscheme, _, hhost, number, hport, rfl⟩
    refine ⟨hscheme, hhost, number, hport, ?_⟩
    have hne : p.scheme ≠ [] := by
      rcases hscheme with h | h <;> simp [h, http, https]
    exact (urlunparse_eq hne (joinNetloc_ne_nil hhost _) (head_trimmed hp (netloc_ne_nil hhost))).symm
  · rintro ⟨hscheme, hhost, number, hport, rfl⟩
    have hne : p.scheme ≠ [] := by
      rcases hscheme with h | h <;> simp [h, http, https]
    exact ⟨(), hscheme, (), hhost, number, hport,
      urlunparse_eq hne (joinNetloc_ne_nil hhost _) (head_trimmed hp (netloc_ne_nil hhost))⟩

end Normal

/-! ## Taking it apart again -/

/-- The pieces of a URL by its scheme, its network location and the rest. -/
def pieces (scheme netloc rest : Text) : ParseResult :=
  ⟨scheme, netloc, (splitParams (before '?' (before '#' rest))).1,
    (splitParams (before '?' (before '#' rest))).2, behind '?' (before '#' rest), behind '#' rest⟩

theorem splitScheme_address {scheme : Text} (hscheme : scheme = http ∨ scheme = https)
    (netloc rest : Text) :
    splitScheme (address scheme netloc rest) = (scheme, '/' :: '/' :: (netloc ++ rest)) := by
  have hmem : ':' ∈ address scheme netloc rest := by simp [address]
  have hnone : ':' ∉ scheme := by
    rcases hscheme with rfl | rfl <;> decide
  have hcut : before ':' (address scheme netloc rest) = scheme := by
    rw [address, before_append hnone, before_cons_self, List.append_nil]
  have hleft : behind ':' (address scheme netloc rest) = '/' :: '/' :: (netloc ++ rest) := by
    rw [address, behind_append hnone, behind_cons_self]
  have hhas : HasScheme (address scheme netloc rest) := by
    refine ⟨hmem, ?_⟩
    rw [hcut]
    rcases hscheme with rfl | rfl <;> decide
  rw [splitScheme, if_pos hhas, hcut, hleft]
  rcases hscheme with rfl | rfl <;> rfl

theorem splitNetloc_address {netloc rest : Text} (hnetloc : ∀ c ∈ netloc, isDelimiter c = false)
    (hrest : rest.head? = some '/') :
    splitNetloc ('/' :: '/' :: (netloc ++ rest)) = (netloc, rest) := by
  have hclear : ∀ c ∈ netloc, (!isDelimiter c) = true := fun c hc => by simp [hnetloc c hc]
  cases rest with
  | nil => cases hrest
  | cons c rest =>
      obtain rfl : c = '/' := Option.some.inj hrest
      have hstop : isDelimiter '/' = true := rfl
      simp only [splitNetloc]
      rw [List.takeWhile_append_of_pos hclear, List.dropWhile_append_of_pos hclear]
      simp [hstop]

theorem cleaned_address {scheme netloc rest : Text} (hscheme : scheme = http ∨ scheme = https)
    (hnetloc : ∀ c ∈ netloc, isUnsafe c = false) (hrest : ∀ c ∈ rest, isUnsafe c = false) :
    cleaned (address scheme netloc rest) = address scheme netloc rest := by
  have hdrop : (address scheme netloc rest).dropWhile (fun c => c.toNat ≤ 32) =
      address scheme netloc rest := by
    rcases hscheme with rfl | rfl <;> rfl
  rw [cleaned, hdrop, List.filter_eq_self]
  intro c hc
  have hsafe : scheme.all (fun c => !isUnsafe c) = true := by
    rcases hscheme with rfl | rfl <;> decide
  simp only [address, List.mem_append, List.mem_cons] at hc
  rcases hc with hc | rfl | rfl | rfl | hc | hc
  · exact List.all_eq_true.mp hsafe c hc
  · rfl
  · rfl
  · rfl
  · simp [hnetloc c hc]
  · simp [hrest c hc]

theorem usesParams_of_web {scheme : Text} (h : scheme = http ∨ scheme = https) :
    scheme ∈ usesParams := by
  rcases h with rfl | rfl <;> simp [usesParams]

/-- **The second parse** cuts where the first put together, or refuses the network
location. -/
theorem urlparse_address [PyNfkc] {scheme netloc rest : Text}
    (hscheme : scheme = http ∨ scheme = https)
    (hnetloc : ∀ c ∈ netloc, isDelimiter c = false ∧ isUnsafe c = false)
    (hhead : rest.head? = some '/') (hrest : ∀ c ∈ rest, isUnsafe c = false) {q : ParseResult} :
    urlparse (address scheme netloc rest) = .ok q ↔
      checkBrackets netloc = .ok () ∧ StableUnderNfkc netloc ∧ pieces scheme netloc rest = q := by
  have hclean := cleaned_address hscheme (fun c hc => (hnetloc c hc).2) hrest
  have hfirst := splitScheme_address hscheme netloc rest
  have hsecond := splitNetloc_address (fun c hc => (hnetloc c hc).1) hhead
  have hparams : ∀ path : Text, (if scheme ∈ usesParams ∧ ';' ∈ path then splitParams path
      else (path, [])) = splitParams path := by
    intro path
    by_cases hmem : ';' ∈ path
    · rw [if_pos ⟨usesParams_of_web hscheme, hmem⟩]
    · rw [if_neg fun h => hmem h.2, splitParams_of_not_mem hmem]
  simp only [urlparse, urlsplit, hclean, hfirst, hsecond, bind_ok, pure_ok, checkNetloc, require_ok]
  constructor
  · rintro ⟨_, ⟨_, hbrackets, _, hnfkc, rfl⟩, rfl⟩
    refine ⟨hbrackets, hnfkc, ?_⟩
    simp only [hparams]
    rfl
  · rintro ⟨hbrackets, hnfkc, rfl⟩
    refine ⟨_, ⟨(), hbrackets, (), hnfkc, rfl⟩, ?_⟩
    simp only [hparams]
    rfl

end Urls

end Atlas
