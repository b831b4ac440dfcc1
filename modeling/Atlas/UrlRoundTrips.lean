import Atlas.UrlParses

/-!
# Normalised URLs

A normalised URL is put together from what the first parse took apart, and
parsed again it should fall into the same pieces.  It does unless a piece holds
what the second parse takes for a mark of its own: a bracket or a `:` in a host
that has lost its brackets, a `;` in the segment that the cut of trailing
slashes has made the last one, a blank that the cut of the fragment has left at
the end.  The main result says that nothing else goes wrong.
-/

namespace Atlas.Urls

open Cuts Outcome

/-! ## The network location again -/

/-- The text of a port. -/
def portText : Option Nat → Text
  | none => []
  | some n => Nat.toDigits 10 n

theorem portNumber_toDigits {n : Nat} (h : n ≤ 65535) : portNumber (Nat.toDigits 10 n) = some n := by
  have hdigits : (Nat.toDigits 10 n).all Char.isDigit = true :=
    List.all_eq_true.mpr fun c hc => isDigit_of_mem_toDigits hc
  have hlength : (Nat.toDigits 10 n).length ≤ intMaxStrDigits := by
    have hfive : (Nat.toDigits 10 n).length ≤ 5 :=
      (Nat.length_toDigits_le_iff (by omega) (by omega)).mpr (by omega)
    exact hfive.trans (by decide)
  rw [portNumber, Nat.ofDigitChars_ten_toDigits, if_pos ⟨hdigits, hlength, h⟩]

theorem port_le {p : ParseResult} {n : Nat} (h : port p = some (some n)) : n ≤ 65535 := by
  unfold port at h
  split_ifs at h with hnone
  · cases h
  · obtain ⟨m, hm, heq⟩ := Option.map_eq_some_iff.mp h
    obtain rfl := Option.some.inj heq
    unfold portNumber at hm
    split_ifs at hm with hread
    obtain rfl := Option.some.inj hm
    exact hread.2.2

theorem shownPort_shownPort (scheme : Text) (number : Option Nat) :
    shownPort scheme (shownPort scheme number) = shownPort scheme number := by
  by_cases hdefault : IsDefaultPort scheme number
  · simp [shownPort, hdefault]
  · simp [shownPort, hdefault]

theorem ascii_of_isDigit {c : Char} (h : c.isDigit = true) : c.toNat < 128 :=
  ascii_of_isSchemeChar (by simp [isSchemeChar, Char.isAlphanum, h])

theorem mem_hostinfo {netloc : Text} {c : Char} (h : c ∈ (hostinfo netloc).1) :
    c ∈ netloc ∧ c ≠ '@' := by
  have hlast : c ∈ lastPart '@' netloc := by
    by_cases hopen : '[' ∈ lastPart '@' netloc
    · simp only [hostinfo, if_pos hopen] at h
      exact mem_of_mem_behind (mem_of_mem_before h)
    · simp only [hostinfo, if_neg hopen] at h
      exact mem_of_mem_before h
  exact ⟨mem_of_mem_lastPart hlast, fun heq => not_mem_lastPart (heq ▸ hlast)⟩

/-- A host never holds both brackets. -/
theorem hostinfo_brackets (netloc : Text) :
    ']' ∉ (hostinfo netloc).1 ∨ '[' ∉ (hostinfo netloc).1 := by
  by_cases hopen : '[' ∈ lastPart '@' netloc
  · simp only [hostinfo, if_pos hopen]
    exact .inl not_mem_before
  · simp only [hostinfo, if_neg hopen]
    exact .inr fun hmem => hopen (mem_of_mem_before hmem)

/-- What would end a network location is neither letter nor digit. -/
theorem punctuation_of_stop {c : Char} (h : (isDelimiter c || isUnsafe c) = true) :
    c.toNat < 128 ∧ c.isAlpha = false ∧ c.isDigit = false := by
  simp only [isDelimiter, isUnsafe, Bool.or_eq_true, beq_iff_eq] at h
  rcases h with ((rfl | rfl) | rfl) | ((rfl | rfl) | rfl) <;> decide

theorem mem_joinNetloc {host : Text} {number : Option Nat} {c : Char}
    (h : c ∈ joinNetloc host number) : c ∈ host ∨ c = ':' ∨ c.isDigit = true := by
  cases number with
  | none => exact .inl h
  | some n =>
      rcases List.mem_append.mp h with h | h
      · exact .inl h
      · exact .inr ((List.mem_cons.mp h).imp_right isDigit_of_mem_toDigits)

/-- A host that can stand without brackets. -/
structure PlainHost (host : Text) : Prop where
  colon : ':' ∉ host
  opening : '[' ∉ host
  closing : ']' ∉ host

theorem hostinfo_joinNetloc {host : Text} {number : Option Nat} (hat : '@' ∉ host)
    (hplain : PlainHost host) : hostinfo (joinNetloc host number) = (host, portText number) := by
  have hlast : lastPart '@' (joinNetloc host number) = joinNetloc host number := by
    apply lastPart_of_not_mem
    intro hmem
    rcases mem_joinNetloc hmem with h | h | h
    · exact hat h
    · cases h
    · cases h
  have hopening : '[' ∉ joinNetloc host number := by
    intro hmem
    rcases mem_joinNetloc hmem with h | h | h
    · exact hplain.opening h
    · cases h
    · cases h
  rw [hostinfo, hlast, if_neg hopening]
  cases number with
  | none => rw [joinNetloc, before_of_not_mem hplain.colon, behind_of_not_mem hplain.colon, portText]
  | some n =>
      rw [joinNetloc, before_append hplain.colon, behind_append hplain.colon, before_cons_self,
        behind_cons_self, List.append_nil, portText]

section Host

variable [PyText] [PyNfkc] [LawfulPyText] [LawfulUrlText]

omit [LawfulPyText] in
theorem mem_of_mem_hostname {p : ParseResult} {c : Char} (hascii : c.toNat < 128)
    (hletter : c.isAlpha = false) (h : c ∈ hostname p) : c ∈ (hostinfo p.netloc).1 := by
  unfold hostname at h
  split_ifs at h
  · cases h
  · exact mem_of_mem_lowerHost hascii hletter h

omit [LawfulPyText] in
theorem at_not_mem_hostname (p : ParseResult) : '@' ∉ hostname p := fun h =>
  (mem_hostinfo (mem_of_mem_hostname (by decide) (by decide) h)).2 rfl

theorem lowerHost_hostname (p : ParseResult) (h : hostname p ≠ []) :
    lowerHost (hostname p) = hostname p := by
  unfold hostname at h ⊢
  split_ifs at h ⊢ with hempty
  · exact absurd rfl h
  · exact lowerHost_lowerHost _

omit [LawfulPyText] in
/-- The network location put back together ends where it should. -/
theorem clean_joinNetloc {p : ParseResult} (hp : WellParsed p) (number : Option Nat) :
    ∀ c ∈ joinNetloc (hostname p) number, isDelimiter c = false ∧ isUnsafe c = false := by
  intro c hc
  rw [← Bool.or_eq_false_iff]
  by_contra hstop
  rw [Bool.not_eq_false] at hstop
  obtain ⟨hascii, hletter, hdigit⟩ := punctuation_of_stop hstop
  rcases mem_joinNetloc hc with h | rfl | h
  · obtain ⟨hdelimiter, hunsafe⟩ :=
      hp.netloc c (mem_hostinfo (mem_of_mem_hostname hascii hletter h)).1
    rw [hdelimiter, hunsafe] at hstop
    cases hstop
  · exact absurd hstop (by decide)
  · rw [hdigit] at h
    cases h

/-- ... and passes the check for delimiters in disguise, which the first parse
made of the same characters. -/
theorem stable_joinNetloc {p : ParseResult} (hp : WellParsed p) (hne : hostname p ≠ [])
    (number : Option Nat) : StableUnderNfkc (joinNetloc (hostname p) number) := by
  have hshape : hostname p = lowerHost (hostinfo p.netloc).1 := by
    unfold hostname at hne ⊢
    split_ifs at hne ⊢ with hempty
    · exact absurd rfl hne
    · rfl
  rcases hp.nfkc with hnil | hascii | hnormal
  · exact absurd hnil (netloc_ne_nil hne)
  · right
    left
    have hhost : ∀ c ∈ (hostinfo p.netloc).1, c.toNat < 128 := fun c hc =>
      hascii c (mem_hostinfo hc).1
    intro c hc
    rcases mem_joinNetloc hc with h | rfl | hdigit
    · rw [hshape] at h
      rcases mem_lowerHost h with h | h
      · have hbefore : ∀ c ∈ before '%' (hostinfo p.netloc).1, c.toNat < 128 := fun c hc =>
          hhost c (mem_of_mem_before hc)
        unfold lowerText at h
        rw [LawfulPyText.lower_ascii _ (by simpa using hbefore), String.toList_ofList] at h
        obtain ⟨b, hb, rfl⟩ := List.mem_map.mp h
        have hsmall := hbefore b hb
        rcases toLower_cases b with ⟨hfixed, -⟩ | ⟨hupper, hmoved⟩
        · rwa [hfixed]
        · omega
      · exact hhost c h
    · decide
    · exact ascii_of_isDigit hdigit
  · right
    right
    right
    have hbase : ∀ d ∈ nfkcDelimiters,
        d ∉ PyNfkc.nfkc (p.netloc.filter fun c => c ∉ ['@', ':', '#', '?']) := by
      rcases hnormal with heq | hnone
      · intro d hd hmem
        rw [← heq, List.mem_filter] at hmem
        have hclear := (hp.netloc d hmem.1).1
        have hother : d ∉ ['@', ':', '#', '?'] := by simpa using hmem.2
        have hslash : d = '/' := by
          simp only [nfkcDelimiters, List.mem_cons, List.not_mem_nil] at hd hother
          tauto
        rw [hslash] at hclear
        cases hclear
      · exact hnone
    intro d hd hmem
    obtain ⟨c, hc, hdc⟩ := (LawfulUrlText.nfkc_delimiter _ d hd).mp hmem
    obtain ⟨hin, hother⟩ := List.mem_filter.mp hc
    have hold : c ∈ (hostinfo p.netloc).1 := by
      rcases mem_joinNetloc hin with h | rfl | hdigit
      · rw [hshape] at h
        rcases mem_lowerHost h with h | h
        · have hsource := LawfulUrlText.nfkc_lower _ c h d hd hdc
          exact mem_of_mem_before (by simpa using hsource)
        · exact h
      · exact absurd hother (by decide)
      · rw [LawfulUrlText.nfkc_ascii c (ascii_of_isDigit hdigit), List.mem_singleton] at hdc
        rw [← hdc, (not_letter_of_delimiter hd).2] at hdigit
        cases hdigit
    apply hbase d hd
    rw [LawfulUrlText.nfkc_delimiter _ d hd]
    exact ⟨c, List.mem_filter.mpr ⟨(mem_hostinfo hold).1, hother⟩, hdc⟩

end Host

/-! ## The rest again -/

/-- Path and parameters of a text, written anew. -/
def retail (text : Text) : Text :=
  trimPath (splitParams text).1 ++ marked ';' (splitParams text).2

/-- The last segment keeps its `;`: something follows the first one, and something
stands before it unless the segment hangs from the root. -/
def SegmentKept (text : Text) : Prop :=
  ';' ∈ lastPart '/' text → behind ';' (lastPart '/' text) ≠ [] ∧
    (before ';' (lastPart '/' text) = [] → upToLast '/' text = ['/'])

instance (text : Text) : Decidable (SegmentKept text) := by
  unfold SegmentKept
  infer_instance

/-- A text whose last segment has a `;`, cut there. -/
theorem splitParams_cut {text : Text} (h : ';' ∈ lastPart '/' text) :
    splitParams text = (upToLast '/' text ++ before ';' (lastPart '/' text),
      behind ';' (lastPart '/' text)) ∧
    upToLast '/' text ++ before ';' (lastPart '/' text) ++ ';' :: behind ';' (lastPart '/' text) =
      text := by
  refine ⟨if_pos h, ?_⟩
  rw [List.append_assoc, before_append_behind h, upToLast_append_lastPart]

theorem length_marked_le (mark : Char) (cs : Text) : (marked mark cs).length ≤ cs.length + 1 := by
  unfold marked
  split_ifs <;> simp

theorem length_retail_le {text : Text} (hhead : text.head? = some '/') :
    (retail text).length ≤ text.length := by
  have htrim := (trimPath_spec (head_splitParams hhead)).2.1
  rw [retail, List.length_append]
  by_cases hsemi : ';' ∈ lastPart '/' text
  · obtain ⟨hcut, hglue⟩ := splitParams_cut hsemi
    have hlength := congrArg List.length hglue
    have hmark := length_marked_le ';' (splitParams text).2
    rw [hcut] at htrim hmark ⊢
    simp only [List.length_append, List.length_cons] at hlength htrim hmark ⊢
    omega
  · have hwhole : splitParams text = (text, []) := if_neg hsemi
    rw [hwhole] at htrim ⊢
    simpa [marked] using htrim

/-- **Written anew, a trimmed path with its parameters is itself** exactly when
its last segment keeps its `;`. -/
theorem retail_eq_iff {text : Text} (hhead : text.head? = some '/')
    (htrim : ';' ∉ lastPart '/' text → trimPath text = text) :
    retail text = text ↔ SegmentKept text := by
  by_cases hsemi : ';' ∈ lastPart '/' text
  · obtain ⟨hcut, hglue⟩ := splitParams_cut hsemi
    have hstart := head_splitParams hhead
    have hslash : '/' ∉ before ';' (lastPart '/' text) := fun h =>
      not_mem_lastPart (mem_of_mem_before h)
    rw [hcut] at hstart
    rw [retail, hcut]
    simp only [SegmentKept, hsemi, true_imp_iff]
    have hne : upToLast '/' text ++ before ';' (lastPart '/' text) ≠ [] := by
      rintro hnil
      rw [hnil] at hstart
      cases hstart
    have hpath : trimPath (upToLast '/' text ++ before ';' (lastPart '/' text)) =
          upToLast '/' text ++ before ';' (lastPart '/' text) ↔
        (before ';' (lastPart '/' text) = [] → upToLast '/' text = ['/']) := by
      rw [trimPath_eq_self_iff hne]
      by_cases hempty : before ';' (lastPart '/' text) = []
      · obtain ⟨as, has⟩ := upToLast_of_mem (List.mem_of_mem_head? hhead)
        rw [hempty, List.append_nil, has]
        simp
      · rw [List.getLast?_append, List.getLast?_eq_some_getLast hempty]
        have hlast : (before ';' (lastPart '/' text)).getLast hempty ≠ '/' :=
          ne_of_mem_of_not_mem (List.getLast_mem hempty) hslash
        simp [hempty, hlast]
    by_cases hparams : behind ';' (lastPart '/' text) = []
    · simp only [hparams, ne_eq, not_true_eq_false, false_and, iff_false, marked_nil,
        List.append_nil]
      intro heq
      have hlength := congrArg List.length hglue
      have hshort := (trimPath_spec hstart).2.1
      rw [heq] at hshort
      simp only [List.length_append, List.length_cons] at hlength hshort
      omega
    · rw [marked_of_ne hparams]
      conv_lhs => rhs; rw [← hglue]
      rw [List.append_left_inj, hpath]
      simp [hparams]
  · have hwhole : splitParams text = (text, []) := if_neg hsemi
    rw [retail, hwhole, htrim hsemi]
    simp [SegmentKept, hsemi, marked]

theorem rest_pieces (scheme netloc text : Text) :
    rest (pieces scheme netloc text) =
      retail (before '?' (before '#' text)) ++ marked '?' (behind '?' (before '#' text)) :=
  rfl

theorem head_before {mark : Char} (hmark : mark ≠ '/') {text : Text}
    (hhead : text.head? = some '/') : (before mark text).head? = some '/' := by
  cases text with
  | nil => cases hhead
  | cons c text =>
      obtain rfl : c = '/' := Option.some.inj hhead
      simp [before, Ne.symm hmark]

/-- Writing the rest of a URL anew does not lengthen it. -/
theorem length_rest_pieces_le (scheme netloc : Text) {text : Text}
    (hhead : text.head? = some '/') :
    (rest (pieces scheme netloc text)).length ≤ text.length := by
  have hfragment : (before '#' text).length ≤ text.length := (List.takeWhile_prefix _).length_le
  have hfirst : (before '#' text).head? = some '/' := head_before (by decide) hhead
  have hsecond : (before '?' (before '#' text)).head? = some '/' := head_before (by decide) hfirst
  have htail := length_retail_le hsecond
  rw [rest_pieces, List.length_append]
  by_cases hquery : '?' ∈ before '#' text
  · have hcut := length_cut hquery
    have hmark := length_marked_le '?' (behind '?' (before '#' text))
    omega
  · rw [before_of_not_mem hquery] at htail ⊢
    rw [behind_of_not_mem hquery, marked_nil, List.length_nil]
    omega

/-- The first cut behind the mark of an appended piece. -/
theorem before_append_marked {mark : Char} {text cs : Text} (h : mark ∉ text) :
    before mark (text ++ marked mark cs) = text ∧ behind mark (text ++ marked mark cs) = cs := by
  rw [before_append h, behind_append h]
  by_cases hcs : cs = []
  · simp [hcs, marked]
  · simp [marked_of_ne hcs]

section Rest

variable [PyText] [PyNfkc]

theorem mem_tail {p : ParseResult} (hp : WellParsed p) (hne : p.netloc ≠ []) {c : Char}
    (h : c ∈ tail p) : c ≠ '?' ∧ c ≠ '#' ∧ isUnsafe c = false := by
  rcases List.mem_append.mp h with h | h
  · rcases hp.rooted hne with hnil | hhead
    · rw [hnil, trimPath_nil, List.mem_singleton] at h
      rw [h]
      decide
    · exact hp.path c ((trimPath_spec hhead).2.2 c h)
  · rcases mem_marked h with rfl | h
    · decide
    · exact hp.params c h

theorem mem_rest {p : ParseResult} (hp : WellParsed p) (hne : p.netloc ≠ []) {c : Char}
    (h : c ∈ rest p) : c ≠ '#' ∧ isUnsafe c = false := by
  rcases List.mem_append.mp h with h | h
  · exact (mem_tail hp hne h).2
  · rcases mem_marked h with rfl | h
    · decide
    · exact hp.query c h

theorem head_tail {p : ParseResult} (hp : WellParsed p) (hne : p.netloc ≠ []) :
    (tail p).head? = some '/' := by
  rw [tail, List.head?_append, head_trimmed hp hne]
  rfl

theorem head_rest {p : ParseResult} (hp : WellParsed p) (hne : p.netloc ≠ []) :
    (rest p).head? = some '/' := by
  rw [rest, List.head?_append, head_tail hp hne]
  rfl

/-- The rest the normaliser wrote falls into path and parameters, and the query. -/
theorem cut_rest {p : ParseResult} (hp : WellParsed p) (hne : p.netloc ≠ []) :
    before '?' (before '#' (rest p)) = tail p ∧ behind '?' (before '#' (rest p)) = p.query := by
  have hfragment : '#' ∉ rest p := fun h => (mem_rest hp hne h).1 rfl
  have hquery : '?' ∉ tail p := fun h => (mem_tail hp hne h).1 rfl
  rw [before_of_not_mem hfragment]
  exact before_append_marked hquery

/-- Without a `;` in its last segment the tail is a trimmed path. -/
theorem trimPath_tail {p : ParseResult} (hp : WellParsed p) (h : ';' ∉ lastPart '/' (tail p)) :
    trimPath (tail p) = tail p := by
  have hnone : p.params = [] := by
    by_contra hparams
    apply h
    have hslash : '/' ∉ marked ';' p.params := by
      rw [marked_of_ne hparams, List.mem_cons]
      exact not_or.mpr ⟨by decide, hp.oneSegment⟩
    rw [tail, lastPart_append hslash, marked_of_ne hparams]
    simp
  rw [tail, hnone, marked_nil, List.append_nil, trimPath_trimPath]

theorem retail_tail {p : ParseResult} (hp : WellParsed p) (hne : p.netloc ≠ []) :
    retail (tail p) = tail p ↔ SegmentKept (tail p) :=
  retail_eq_iff (head_tail hp hne) (trimPath_tail hp)

end Rest

/-- Blanks are stripped from the end of a URL only behind its last slash. -/
theorem stripChars_address {scheme : Text} (hscheme : scheme = http ∨ scheme = https)
    (netloc : Text) {text : Text} (hhead : text.head? = some '/') :
    stripChars (address scheme netloc text) = address scheme netloc (text.rdropWhile isSpace) := by
  have hdrop : (address scheme netloc text).dropWhile isSpace = address scheme netloc text := by
    rcases hscheme with rfl | rfl <;> rfl
  obtain ⟨cs, rfl⟩ : ∃ cs, text = '/' :: cs := by
    cases text with
    | nil => cases hhead
    | cons c cs => exact ⟨cs, congrArg (· :: cs) (Option.some.inj hhead)⟩
  have hkeep : List.dropWhile isSpace ('/' :: cs).reverse ≠ [] := by
    intro hnil
    have hblank := List.dropWhile_eq_nil_iff.mp hnil '/' (by simp)
    exact absurd hblank (by decide)
  rw [stripChars_eq, hdrop]
  unfold List.rdropWhile
  have hreverse : (address scheme netloc ('/' :: cs)).reverse =
      ('/' :: cs).reverse ++ (scheme ++ ':' :: '/' :: '/' :: netloc).reverse := by
    rw [← List.reverse_append]
    simp [address]
  rw [hreverse, List.dropWhile_append, if_neg (by simpa using hkeep), List.reverse_append,
    List.reverse_reverse]
  simp [address]

theorem head_rdropWhile {text : Text} (hhead : text.head? = some '/') :
    (text.rdropWhile isSpace).head? = some '/' := by
  have hne : text.rdropWhile isSpace ≠ [] := by
    intro hnil
    have hblank := List.rdropWhile_eq_nil_iff.mp hnil '/' (List.mem_of_mem_head? hhead)
    exact absurd hblank (by decide)
  obtain ⟨cs, hcs⟩ := List.rdropWhile_prefix isSpace text
  rw [← hcs, List.head?_append] at hhead
  cases hcase : text.rdropWhile isSpace with
  | nil => exact absurd hcase hne
  | cons c trimmed =>
      rw [hcase] at hhead
      exact hhead

theorem blank_iff (text : Text) :
    text.rdropWhile isSpace = text ↔ ∀ c ∈ text.getLast?, isSpace c = false := by
  rw [List.rdropWhile_eq_self_iff]
  constructor
  · intro h c hc
    have hne : text ≠ [] := by
      rintro rfl
      cases hc
    rw [List.getLast?_eq_some_getLast hne] at hc
    obtain rfl := Option.some.inj hc
    exact Bool.eq_false_of_not_eq_true (h hne)
  · intro h hne
    rw [h _ (List.getLast?_eq_some_getLast hne)]
    decide

theorem address_right_inj {scheme netloc text text' : Text}
    (h : address scheme netloc text = address scheme netloc text') : text = text' := by
  have hleft := List.append_cancel_left h
  exact List.append_cancel_left (List.cons.inj (List.cons.inj (List.cons.inj hleft).2).2).2

/-! ## Faithful normalisation -/

/-- The port a URL is fetched from. -/
def effectivePort (p : ParseResult) : Option Nat :=
  match port p with
  | some (some n) => some n
  | some none => if p.scheme = http then some 80 else if p.scheme = https then some 443 else none
  | none => none

section Faithful

variable [PyText] [PyNfkc]

/-- Two parses of URLs that name one resource. -/
structure SameParts (p q : ParseResult) : Prop where
  scheme : q.scheme = p.scheme
  host : hostname q = hostname p
  port : effectivePort q = effectivePort p
  query : q.query = p.query

/-- The normaliser accepts its own output, returns it unchanged, and the output
parses to the parts of the URL. -/
structure Faithful (url out : Text) : Prop where
  again : normalizeUrl out = .ok out
  parts : ∃ p q, urlparse (stripChars url) = .ok p ∧ urlparse out = .ok q ∧ SameParts p q

/-- A parse whose pieces hold no mark that a second parse would read: a host that
can stand without brackets, a last segment that keeps its `;`, no blank at the
end. -/
structure Settled (p : ParseResult) : Prop where
  host : PlainHost (hostname p)
  segment : SegmentKept (tail p)
  blank : ∀ c ∈ (rest p).getLast?, isSpace c = false

theorem normalizeUrl_ok {url out : Text} :
    normalizeUrl url = .ok out ↔
      ∃ p, urlparse (stripChars url) = .ok p ∧ normalizeParsed p = .ok out := by
  have hmap : ∀ (x : Except UrllibError ParseResult) p,
      x.mapError UrlError.unreadable = .ok p ↔ x = .ok p := by
    intro x p
    cases x <;> simp [Except.mapError]
  unfold normalizeUrl
  simp only [bind_ok, hmap]

variable [LawfulPyText]

/-- `validate_url` accepts what `normalize_url` accepts: a text of blanks is no URL
to either. -/
theorem validateUrl_ok {url out : Text} :
    validateUrl url = .ok out ↔ normalizeUrl url = .ok out := by
  unfold validateUrl
  simp only [bind_ok, require_ok]
  constructor
  · rintro ⟨_, -, h⟩
    exact h
  · intro h
    obtain ⟨p, hparse, hnormal⟩ := normalizeUrl_ok.mp h
    have hscheme := ((normalizeParsed_ok (wellParsed_of_urlparse hparse)).mp hnormal).1
    have hstrip : stripChars url ≠ [] := by
      intro hnil
      rw [hnil] at hparse
      unfold urlparse at hparse
      simp only [bind_ok, pure_ok] at hparse
      obtain ⟨split, hsplit, rfl⟩ := hparse
      rw [(urlsplit_ok hsplit).2.2] at hscheme
      rcases hscheme with h | h <;> cases h
    refine ⟨(), ⟨?_, hstrip⟩, h⟩
    rintro rfl
    exact hstrip rfl

variable [LawfulUrlText]

omit [PyNfkc] [LawfulPyText] [LawfulUrlText] in
theorem hostname_of_hostinfo {p : ParseResult} {host text : Text}
    (h : hostinfo p.netloc = (host, text)) (hne : host ≠ []) : hostname p = lowerHost host := by
  simp [hostname, h, hne]

omit [PyText] [PyNfkc] [LawfulPyText] [LawfulUrlText] in
theorem port_of_hostinfo {p : ParseResult} {host text : Text}
    (h : hostinfo p.netloc = (host, text)) :
    port p = if text = [] then some none else (portNumber text).map some := by
  simp [port, h]

/-- **A host that can stand without brackets** is read again, with the port that was
written, whatever the path looks like. -/
theorem host_pieces {p : ParseResult} {number : Option Nat} (hhost : hostname p ≠ [])
    (hplain : PlainHost (hostname p)) (hport : port p = some number) (text : Text) :
    hostname (pieces p.scheme (joinNetloc (hostname p) (shownPort p.scheme number)) text) =
        hostname p ∧
      port (pieces p.scheme (joinNetloc (hostname p) (shownPort p.scheme number)) text) =
        some (shownPort p.scheme number) := by
  have hinfo : hostinfo (pieces p.scheme
      (joinNetloc (hostname p) (shownPort p.scheme number)) text).netloc =
        (hostname p, portText (shownPort p.scheme number)) :=
    hostinfo_joinNetloc (at_not_mem_hostname p) hplain
  constructor
  · rw [hostname_of_hostinfo hinfo hhost]
    exact lowerHost_hostname p hhost
  · have hshown : ∀ n, shownPort p.scheme number = some n → n ≤ 65535 := by
      intro n hn
      unfold shownPort at hn
      split_ifs at hn
      exact port_le (hport.trans (congrArg some hn))
    rw [port_of_hostinfo hinfo]
    cases hcase : shownPort p.scheme number with
    | none => simp [portText]
    | some n =>
        have hdigits : Nat.toDigits 10 n ≠ [] := by
          intro hnil
          have hpos := Nat.length_toDigits_pos (b := 10) (n := n)
          rw [hnil] at hpos
          cases hpos
        simp [portText, hdigits, portNumber_toDigits (hshown n hcase)]

omit [PyText] [PyNfkc] [LawfulPyText] [LawfulUrlText] in
theorem effectivePort_pieces {p q : ParseResult} {number : Option Nat} (hscheme : q.scheme = p.scheme)
    (hp : port p = some number) (hq : port q = some (shownPort p.scheme number)) :
    effectivePort q = effectivePort p := by
  unfold effectivePort
  rw [hp, hq, hscheme]
  by_cases hdefault : IsDefaultPort p.scheme number
  · rcases hdefault with ⟨hs, rfl⟩ | ⟨hs, rfl⟩ <;> simp [shownPort, IsDefaultPort, hs, http, https]
  · simp [shownPort, hdefault]

/-- **Normalising what was read again** writes the same scheme and network location,
and the rest anew. -/
theorem normalizeParsed_pieces {p : ParseResult} {number : Option Nat}
    (hscheme : p.scheme = http ∨ p.scheme = https) (hhost : hostname p ≠ [])
    (hplain : PlainHost (hostname p)) (hport : port p = some number) {text out : Text}
    (hwell : WellParsed
      (pieces p.scheme (joinNetloc (hostname p) (shownPort p.scheme number)) text)) :
    normalizeParsed (pieces p.scheme (joinNetloc (hostname p) (shownPort p.scheme number)) text) =
        .ok out ↔
      address p.scheme (joinNetloc (hostname p) (shownPort p.scheme number))
        (rest (pieces p.scheme (joinNetloc (hostname p) (shownPort p.scheme number)) text)) = out := by
  obtain ⟨hname, hnumber⟩ := host_pieces hhost hplain hport text
  rw [normalizeParsed_ok hwell, hname, hnumber]
  constructor
  · rintro ⟨-, -, number', hnumber', rfl⟩
    obtain rfl := Option.some.inj hnumber'
    have hshown := shownPort_shownPort p.scheme number
    simp only [pieces] at hshown ⊢
    rw [hshown]
  · rintro rfl
    have hshown := shownPort_shownPort p.scheme number
    refine ⟨hscheme, hhost, _, rfl, ?_⟩
    simp only [pieces] at hshown ⊢
    rw [hshown]

omit [PyText] [PyNfkc] [LawfulPyText] [LawfulUrlText] in
/-- A network location with one kind of bracket is refused. -/
theorem brackets_of_check {netloc : Text} (h : checkBrackets netloc = .ok ()) :
    '[' ∈ netloc ↔ ']' ∈ netloc := by
  unfold checkBrackets at h
  split_ifs at h with hone <;> tauto

omit [LawfulPyText] in
/-- **A host that is read again can stand without brackets.** -/
theorem plainHost_of_again {p : ParseResult} {number : Option Nat}
    (hbrackets : checkBrackets (joinNetloc (hostname p) number) = .ok ()) {scheme text : Text}
    (hsame : hostname (pieces scheme (joinNetloc (hostname p) number) text) = hostname p) :
    PlainHost (hostname p) := by
  have hin : ∀ c, c ∈ hostname p → c ∈ joinNetloc (hostname p) number := by
    intro c hc
    cases number with
    | none => exact hc
    | some n => exact List.mem_append_left _ hc
  have hout : ∀ c, c ≠ ':' → c.isDigit = false → c ∈ joinNetloc (hostname p) number →
      c ∈ hostname p := by
    intro c hcolon hdigit hmem
    rcases mem_joinNetloc hmem with h | h | h
    · exact h
    · exact absurd h hcolon
    · rw [hdigit] at h
      cases h
  have hboth := brackets_of_check hbrackets
  have hopening : '[' ∉ joinNetloc (hostname p) number := by
    intro hopen
    have hfirst := mem_of_mem_hostname (by decide) (by decide) (hout '[' (by decide) rfl hopen)
    have hsecond := mem_of_mem_hostname (by decide) (by decide)
      (hout ']' (by decide) rfl (hboth.mp hopen))
    exact (hostinfo_brackets p.netloc).elim (fun h => h hsecond) fun h => h hfirst
  refine ⟨?_, fun h => hopening (hin _ h), fun h => hopening (hboth.mpr (hin _ h))⟩
  intro hcolon
  rw [← hsame] at hcolon
  have hread := mem_of_mem_hostname (by decide) (by decide) hcolon
  have hopen : '[' ∉ lastPart '@' (joinNetloc (hostname p) number) := fun h =>
    hopening (mem_of_mem_lastPart h)
  have hinfo : (hostinfo (joinNetloc (hostname p) number)).1 =
      before ':' (lastPart '@' (joinNetloc (hostname p) number)) := by
    simp only [hostinfo, if_neg hopen]
  have hbefore : ':' ∈ before ':' (lastPart '@' (joinNetloc (hostname p) number)) := hinfo ▸ hread
  exact not_mem_before hbefore

omit [LawfulPyText] [LawfulUrlText] [PyNfkc] in
theorem checkBrackets_joinNetloc {p : ParseResult} (number : Option Nat)
    (hplain : PlainHost (hostname p)) :
    checkBrackets (joinNetloc (hostname p) number) = .ok () := by
  have hopening : '[' ∉ joinNetloc (hostname p) number := by
    intro hmem
    rcases mem_joinNetloc hmem with h | h | h
    · exact hplain.opening h
    · cases h
    · cases h
  have hclosing : ']' ∉ joinNetloc (hostname p) number := by
    intro hmem
    rcases mem_joinNetloc hmem with h | h | h
    · exact hplain.closing h
    · cases h
    · cases h
  simp [checkBrackets, hopening, hclosing]

/-- **Exactly when a normalised URL is faithful**: the normaliser returns its output
unchanged, and the output parses to the parts of the URL, if the pieces of the
URL hold no mark that the second parse reads. -/
theorem normalize_url_faithful_iff {url out : Text} (h : normalizeUrl url = .ok out) :
    Faithful url out ↔ ∃ p, urlparse (stripChars url) = .ok p ∧ Settled p := by
  obtain ⟨p, hparse, hnormal⟩ := normalizeUrl_ok.mp h
  have hwell := wellParsed_of_urlparse hparse
  obtain ⟨hscheme, hhost, number, hport, rfl⟩ := (normalizeParsed_ok hwell).mp hnormal
  have hne := netloc_ne_nil hhost
  have hclean := clean_joinNetloc hwell (shownPort p.scheme number)
  have hstable := stable_joinNetloc hwell hhost (shownPort p.scheme number)
  have hhead := head_rest hwell hne
  have hsafe : ∀ c ∈ rest p, isUnsafe c = false := fun c hc => (mem_rest hwell hne hc).2
  have hhead' : ((rest p).rdropWhile isSpace).head? = some '/' := head_rdropWhile hhead
  have hsafe' : ∀ c ∈ (rest p).rdropWhile isSpace, isUnsafe c = false := fun c hc =>
    hsafe c ((List.rdropWhile_prefix isSpace (rest p)).subset hc)
  have hstrip := stripChars_address hscheme (joinNetloc (hostname p) (shownPort p.scheme number))
    hhead
  constructor
  · rintro ⟨hagain, p', q, hparse', hq, hsame⟩
    obtain rfl := Except.ok.inj (hparse.symm.trans hparse')
    obtain ⟨hbrackets, -, rfl⟩ := (urlparse_address hscheme hclean hhead hsafe).mp hq
    have hplain := plainHost_of_again hbrackets hsame.host
    obtain ⟨q, hq, hnormal'⟩ := normalizeUrl_ok.mp hagain
    rw [hstrip] at hq
    have hwell' := wellParsed_of_urlparse hq
    obtain ⟨-, -, rfl⟩ := (urlparse_address hscheme hclean hhead' hsafe').mp hq
    have hsame' := (normalizeParsed_pieces hscheme hhost hplain hport hwell').mp hnormal'
    have hrest := address_right_inj hsame'
    have hshort := length_rest_pieces_le p.scheme
      (joinNetloc (hostname p) (shownPort p.scheme number)) hhead'
    rw [hrest] at hshort
    have hwhole : (rest p).rdropWhile isSpace = rest p :=
      (List.rdropWhile_prefix isSpace (rest p)).eq_of_length_le hshort
    refine ⟨p, hparse, hplain, ?_, ?_⟩
    · rw [hwhole, rest_pieces, (cut_rest hwell hne).1, (cut_rest hwell hne).2] at hrest
      exact (retail_tail hwell hne).mp (List.append_cancel_right hrest)
    · exact (blank_iff (rest p)).mp hwhole
  · rintro ⟨p', hparse', hplain, hsegment, hblank⟩
    obtain rfl := Except.ok.inj (hparse.symm.trans hparse')
    have hbrackets := checkBrackets_joinNetloc (shownPort p.scheme number) hplain
    have hq := (urlparse_address hscheme hclean hhead hsafe).mpr ⟨hbrackets, hstable, rfl⟩
    have hwell' := wellParsed_of_urlparse hq
    have hwritten : rest (pieces p.scheme (joinNetloc (hostname p) (shownPort p.scheme number))
        (rest p)) = rest p := by
      rw [rest_pieces, (cut_rest hwell hne).1, (cut_rest hwell hne).2,
        (retail_tail hwell hne).mpr hsegment]
      rfl
    obtain ⟨hname, hnumber⟩ := host_pieces hhost hplain hport (rest p)
    have hstripped : urlparse (stripChars (address p.scheme
        (joinNetloc (hostname p) (shownPort p.scheme number)) (rest p))) = .ok
          (pieces p.scheme (joinNetloc (hostname p) (shownPort p.scheme number)) (rest p)) := by
      rw [hstrip, (blank_iff (rest p)).mpr hblank]
      exact hq
    refine ⟨normalizeUrl_ok.mpr ⟨_, hstripped, ?_⟩, p, _, hparse, hq, rfl, hname, ?_, ?_⟩
    · rw [normalizeParsed_pieces hscheme hhost hplain hport hwell', hwritten]
    · exact effectivePort_pieces rfl hport hnumber
    · exact (cut_rest hwell hne).2

end Faithful

/-- The parse of `HTTP://H:80/p/?q#s`. -/
def page : ParseResult := ⟨http, "H:80".toList, "/p/".toList, [], ['q'], ['s']⟩

/-- An ordinary URL is settled. -/
theorem page_faithful :
    normalizeUrl "HTTP://H:80/p/?q#s".toList = .ok "http://h/p?q".toList ∧
      Faithful "HTTP://H:80/p/?q#s".toList "http://h/p?q".toList := by
  have hnormal : normalizeUrl "HTTP://H:80/p/?q#s".toList = .ok "http://h/p?q".toList := by
    decide +kernel
  refine ⟨hnormal, (normalize_url_faithful_iff hnormal).mpr ⟨page, by decide +kernel, ?_, ?_, ?_⟩⟩
  · exact ⟨by decide +kernel, by decide +kernel, by decide +kernel⟩
  · decide +kernel
  · have hend : (rest page).getLast? = some 'q' := by decide +kernel
    rw [hend]
    simp
    decide

/-- **An address that has lost its brackets** is refused by the normaliser that wrote
it. -/
theorem bracketed_host_refused :
    ¬ ∀ url out, normalizeUrl url = .ok out → Faithful url out := by
  intro h
  have hnormal : normalizeUrl "http://[::1]/".toList = .ok "http://::1/".toList := by
    decide +kernel
  have hagain : normalizeUrl "http://::1/".toList ≠ .ok "http://::1/".toList := by
    decide +kernel
  exact hagain (h _ _ hnormal).again

end Atlas.Urls
