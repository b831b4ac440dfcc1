import Atlas.Publication
import Mathlib.Data.List.Chain
import Mathlib.Data.List.DropRight

/-!
# Slugs

`normalize_slug` rewrites any text to a slug, and `is_valid_slug` matches a text against the
pattern of slugs.  A text is a slug when its words of letters and digits are joined by single
hyphens; then normalising changes nothing, and whatever normalising returns is one.

The pattern ends with `$`, which also matches before a newline at the end of the text.
-/

namespace Atlas

/-- `SLUG_PATTERN` behind its `^`.  The flag says that a letter or a digit was just read. -/
def matchSlugPattern : Bool → List Char → Bool
  | word, [] => word
  | word, c :: cs =>
      if c = '\n' && cs.isEmpty then word
      else if isSlugChar c then matchSlugPattern true cs
      else c = '-' && word && matchSlugPattern false cs

/-- `is_valid_slug`. -/
def isValidSlug (value : String) : Bool :=
  !(value.toList.isEmpty || maxSlugLength < value.length) && matchSlugPattern false value.toList

/-! ## The form of a slug -/

/-- Letters, digits and hyphens, no two hyphens in a row. -/
structure Hyphenated (cs : List Char) : Prop where
  chars : ∀ c ∈ cs, isSlugChar c = true ∨ c = '-'
  single : cs.IsChain fun a b => ¬ (a = '-' ∧ b = '-')

/-- Words of letters and digits, joined by single hyphens. -/
structure SlugForm (cs : List Char) : Prop extends Hyphenated cs where
  nonempty : cs ≠ []
  first : cs.head? ≠ some '-'
  last : cs.getLast? ≠ some '-'

theorem isSlugChar_hyphen : isSlugChar '-' = false := rfl

theorem isSlugChar_newline : isSlugChar '\n' = false := rfl

theorem Hyphenated.nil : Hyphenated [] := ⟨by simp, .nil⟩

theorem Hyphenated.tail {c : Char} {cs : List Char} (h : Hyphenated (c :: cs)) : Hyphenated cs :=
  ⟨fun d hd => h.chars d (List.mem_cons_of_mem c hd), h.single.tail⟩

theorem hyphenated_cons_word {c : Char} {cs : List Char} (hc : isSlugChar c = true) :
    Hyphenated (c :: cs) ↔ Hyphenated cs := by
  have hne : c ≠ '-' := by
    rintro rfl
    cases hc
  refine ⟨Hyphenated.tail, fun h => ⟨?_, ?_⟩⟩
  · intro d hd
    rcases List.mem_cons.mp hd with rfl | hd
    · exact .inl hc
    · exact h.chars d hd
  · cases cs with
    | nil => exact .singleton c
    | cons d cs => exact .cons_cons (fun hboth => hne hboth.1) h.single

theorem hyphenated_cons_hyphen {cs : List Char} :
    Hyphenated ('-' :: cs) ↔ Hyphenated cs ∧ cs.head? ≠ some '-' := by
  constructor
  · intro h
    refine ⟨h.tail, ?_⟩
    cases cs with
    | nil => simp
    | cons d cs =>
        intro hd
        cases hd
        exact (List.isChain_cons_cons.mp h.single).1 ⟨rfl, rfl⟩
  · intro h
    obtain ⟨h, hhead⟩ := h
    refine ⟨?_, ?_⟩
    · intro d hd
      rcases List.mem_cons.mp hd with rfl | hd
      · exact .inr rfl
      · exact h.chars d hd
    · cases cs with
      | nil => exact .singleton _
      | cons d cs => exact .cons_cons (fun hboth => hhead (by rw [hboth.2]; rfl)) h.single

theorem Hyphenated.of_infix {as bs : List Char} (h : Hyphenated bs) (hsub : as <:+: bs) :
    Hyphenated as :=
  ⟨fun c hc => h.chars c (hsub.subset hc), h.single.infix hsub⟩

/-! ## What the pattern matches -/

/-- What is left to match: after a letter or a digit the text may end or go on with a hyphen. -/
def SlugRest (word : Bool) (cs : List Char) : Prop :=
  Hyphenated cs ∧ (word = false → cs.head? ≠ some '-' ∧ cs ≠ []) ∧ cs.getLast? ≠ some '-'

theorem slugRest_nil (word : Bool) : SlugRest word [] ↔ word = true := by
  unfold SlugRest
  constructor
  · intro h
    by_contra hword
    exact (h.2.1 (by simpa using hword)).2 rfl
  · rintro rfl
    exact ⟨.nil, by simp, by simp⟩

theorem slugRest_cons_word {word : Bool} {c : Char} {cs : List Char} (hc : isSlugChar c = true) :
    SlugRest word (c :: cs) ↔ SlugRest true cs := by
  have hne : c ≠ '-' := by
    rintro rfl
    cases hc
  unfold SlugRest
  rw [hyphenated_cons_word hc]
  cases cs with
  | nil => simp [hne]
  | cons d cs => simp [hne, List.getLast?_cons_cons]

theorem slugRest_cons_hyphen {word : Bool} {cs : List Char} :
    SlugRest word ('-' :: cs) ↔ word = true ∧ SlugRest false cs := by
  unfold SlugRest
  rw [hyphenated_cons_hyphen]
  cases cs with
  | nil => simp
  | cons d cs =>
      cases word with
      | false => simp
      | true => simp [List.getLast?_cons_cons, and_assoc]

theorem slugRest_cons_other {word : Bool} {c : Char} {cs : List Char} (hc : isSlugChar c = false)
    (hne : c ≠ '-') : ¬ SlugRest word (c :: cs) := by
  intro h
  rcases h.1.chars c List.mem_cons_self with hslug | hhyphen
  · rw [hc] at hslug
    cases hslug
  · exact hne hhyphen

/-- **What the pattern matches**: the rest of a slug, with or without a newline behind it. -/
theorem matchSlugPattern_iff (word : Bool) (cs : List Char) :
    matchSlugPattern word cs = true ↔
      SlugRest word cs ∨ ∃ body, cs = body ++ ['\n'] ∧ SlugRest word body := by
  induction cs generalizing word with
  | nil => simp [matchSlugPattern, slugRest_nil]
  | cons c cs ih =>
      by_cases hnewline : c = '\n' ∧ cs = []
      · obtain ⟨rfl, rfl⟩ := hnewline
        have hother : ¬ SlugRest word ['\n'] :=
          slugRest_cons_other isSlugChar_newline (by decide)
        have hbody : (∃ body, ['\n'] = body ++ ['\n'] ∧ SlugRest word body) ↔ SlugRest word [] := by
          constructor
          · intro h
            obtain ⟨body, hsplit, hrest⟩ := h
            have hnil : body = [] := by simpa using hsplit
            exact hnil ▸ hrest
          · intro h
            exact ⟨[], rfl, h⟩
        rw [hbody, slugRest_nil, or_iff_right hother]
        rfl
      · have hstep : matchSlugPattern word (c :: cs) =
            if isSlugChar c then matchSlugPattern true cs
            else c = '-' && word && matchSlugPattern false cs := by
          have hgo : ¬ (decide (c = '\n') && cs.isEmpty) = true := by simpa using hnewline
          exact if_neg hgo
        -- Every body begins with the character that was read.
        have hbodies : (SlugRest word (c :: cs) ∨ ∃ body, c :: cs = body ++ ['\n'] ∧ SlugRest word body) ↔
            SlugRest word (c :: cs) ∨ ∃ body, cs = body ++ ['\n'] ∧ SlugRest word (c :: body) := by
          refine or_congr_right ⟨?_, ?_⟩
          · intro h
            obtain ⟨body, hsplit, hbody⟩ := h
            cases body with
            | nil =>
                cases hsplit
                exact absurd ⟨rfl, rfl⟩ hnewline
            | cons d body =>
                cases hsplit
                exact ⟨body, rfl, hbody⟩
          · intro h
            obtain ⟨body, rfl, hbody⟩ := h
            exact ⟨c :: body, rfl, hbody⟩
        rw [hstep, hbodies]
        by_cases hc : isSlugChar c = true
        · rw [if_pos hc, ih, slugRest_cons_word hc]
          simp only [slugRest_cons_word hc]
        · rw [if_neg hc]
          by_cases hhyphen : c = '-'
          · subst hhyphen
            simp only [slugRest_cons_hyphen, decide_true, Bool.true_and, Bool.and_eq_true, ih]
            tauto
          · have hno : ∀ body, ¬ SlugRest word (c :: body) := fun body =>
              slugRest_cons_other (by simpa using hc) hhyphen
            simp [hhyphen, hno]

theorem slugRest_false_iff {cs : List Char} : SlugRest false cs ↔ SlugForm cs := by
  constructor
  · intro h
    exact ⟨h.1, (h.2.1 rfl).2, (h.2.1 rfl).1, h.2.2⟩
  · intro h
    exact ⟨h.toHyphenated, fun _ => ⟨h.first, h.nonempty⟩, h.last⟩

/-- A valid text is a slug of bounded length, or one with a newline behind it. -/
theorem isValidSlug_iff (s : String) : isValidSlug s = true ↔ s.length ≤ maxSlugLength ∧
    (SlugForm s.toList ∨ ∃ body, s.toList = body ++ ['\n'] ∧ SlugForm body) := by
  unfold isValidSlug
  rw [Bool.and_eq_true, matchSlugPattern_iff]
  simp only [slugRest_false_iff, Bool.not_eq_true', Bool.or_eq_false_iff, decide_eq_false_iff_not,
    not_lt, List.isEmpty_eq_false_iff]
  constructor
  · intro h
    exact ⟨h.1.2, h.2⟩
  · intro h
    refine ⟨⟨?_, h.1⟩, h.2⟩
    rcases h.2 with hform | ⟨body, hsplit, -⟩
    · exact hform.nonempty
    · simp [hsplit]

/-! ## Normalising a slug -/

theorem isSlugChar_iff (c : Char) : isSlugChar c = true ↔
    97 ≤ c.toNat ∧ c.toNat ≤ 122 ∨ 48 ≤ c.toNat ∧ c.toNat ≤ 57 := by
  simp [isSlugChar, Char.le_def, UInt32.le_iff_toNat_le]

theorem plain_of_slugChar {c : Char} (h : isSlugChar c = true ∨ c = '-') :
    c.toNat < 128 ∧ c.toLower = c ∧ isSpace c = false := by
  rcases h with h | rfl
  · rw [isSlugChar_iff] at h
    refine ⟨by omega, ?_, ?_⟩
    · unfold Char.toLower
      rw [dif_neg]
      simp only [ge_iff_le, UInt32.le_iff_toNat_le, Char.toNat_val, Char.reduceToNat]
      omega
    · unfold isSpace
      simp only [Bool.or_eq_false_iff, Bool.and_eq_false_iff, decide_eq_false_iff_not, beq_eq_false_iff_ne]
      omega
  · decide

theorem hyphenateRuns_of_hyphenated {cs : List Char} (h : Hyphenated cs) :
    hyphenateRuns false cs = cs := by
  have hboth : ∀ cs : List Char, Hyphenated cs → hyphenateRuns false cs = cs ∧
      (cs.head? ≠ some '-' → hyphenateRuns true cs = cs) := by
    intro cs
    induction cs with
    | nil => intro _; exact ⟨rfl, fun _ => rfl⟩
    | cons c cs ih =>
        intro h
        rcases h.chars c List.mem_cons_self with hc | rfl
        · simp [hyphenateRuns, hc, (ih h.tail).1]
        · obtain ⟨htail, hhead⟩ := hyphenated_cons_hyphen.mp h
          simp [hyphenateRuns, isSlugChar_hyphen, (ih htail).2 hhead]
  exact (hboth cs h).1

theorem collapseHyphens_of_hyphenated {cs : List Char} (h : Hyphenated cs) :
    collapseHyphens false cs = cs := by
  have hboth : ∀ cs : List Char, Hyphenated cs → collapseHyphens false cs = cs ∧
      (cs.head? ≠ some '-' → collapseHyphens true cs = cs) := by
    intro cs
    induction cs with
    | nil => intro _; exact ⟨rfl, fun _ => rfl⟩
    | cons c cs ih =>
        intro h
        by_cases hc : c = '-'
        · subst hc
          obtain ⟨htail, hhead⟩ := hyphenated_cons_hyphen.mp h
          simp [collapseHyphens, (ih htail).2 hhead]
        · simp [collapseHyphens, hc, (ih h.tail).1]
  exact (hboth cs h).1

/-- The rewrite leaves letters, digits and single hyphens. -/
theorem hyphenated_hyphenateRuns (cs : List Char) : Hyphenated (hyphenateRuns false cs) := by
  have hboth : ∀ (cs : List Char) (inRun : Bool), Hyphenated (hyphenateRuns inRun cs) ∧
      (inRun = true → (hyphenateRuns inRun cs).head? ≠ some '-') := by
    intro cs
    induction cs with
    | nil => intro inRun; exact ⟨.nil, by simp [hyphenateRuns]⟩
    | cons c cs ih =>
        intro inRun
        by_cases hc : isSlugChar c = true
        · have hne : c ≠ '-' := by
            rintro rfl
            cases hc
          simp [hyphenateRuns, hc, hyphenated_cons_word hc, (ih false).1, hne]
        · cases inRun with
          | true => simpa [hyphenateRuns, hc] using ih true
          | false =>
              simp [hyphenateRuns, hc, hyphenated_cons_hyphen, (ih true).1, (ih true).2 rfl]
  exact (hboth cs false).1

theorem rstripHyphens_eq (cs : List Char) : rstripHyphens cs = cs.rdropWhile (· = '-') := rfl

theorem last_rstripHyphens (cs : List Char) : (rstripHyphens cs).getLast? ≠ some '-' := by
  rw [rstripHyphens_eq]
  intro h
  have hne : cs.rdropWhile (· = '-') ≠ [] := by
    intro hnil
    rw [hnil] at h
    cases h
  rw [List.getLast?_eq_some_getLast hne, Option.some.injEq] at h
  have hlast := List.rdropWhile_last_not (· = '-') cs hne
  simp [h] at hlast

/-- A text without hyphens at its ends. -/
theorem SlugForm.of_rstrip {cs : List Char} (h : Hyphenated cs) (hfirst : cs.head? ≠ some '-')
    (hne : rstripHyphens cs ≠ []) : SlugForm (rstripHyphens cs) := by
  obtain ⟨rest, hrest⟩ := List.rdropWhile_prefix (· = '-') cs
  rw [← rstripHyphens_eq] at hrest
  have hinfix : rstripHyphens cs <:+: cs := ⟨[], rest, by rw [List.nil_append, hrest]⟩
  refine ⟨h.of_infix hinfix, hne, ?_, last_rstripHyphens cs⟩
  intro hhead
  refine hfirst ?_
  rw [← hrest, List.head?_append, hhead]
  rfl

theorem SlugForm.rstripHyphens_eq {cs : List Char} (h : SlugForm cs) : rstripHyphens cs = cs := by
  rw [Atlas.rstripHyphens_eq, List.rdropWhile_eq_self_iff]
  intro hne
  have hlast := h.last
  rw [List.getLast?_eq_some_getLast hne] at hlast
  simpa using hlast

/-- The collapsed text of `normalize_slug` is empty or a slug. -/
theorem slugForm_stripHyphens {cs : List Char} (h : Hyphenated cs) (hne : stripHyphens cs ≠ []) :
    SlugForm (stripHyphens cs) := by
  obtain ⟨front, hfront⟩ := List.dropWhile_suffix (l := cs) (· = '-')
  have hinfix : cs.dropWhile (· = '-') <:+: cs := ⟨front, [], by rw [List.append_nil, hfront]⟩
  refine SlugForm.of_rstrip (h.of_infix hinfix) ?_ hne
  intro hhead
  have hnot := List.head?_dropWhile_not (· = '-') cs
  rw [hhead] at hnot
  simp at hnot

theorem SlugForm.stripHyphens_eq {cs : List Char} (h : SlugForm cs) : stripHyphens cs = cs := by
  have hfront : cs.dropWhile (· = '-') = cs := by
    cases cs with
    | nil => rfl
    | cons c cs =>
        have hfirst := h.first
        rw [List.head?_cons] at hfirst
        exact List.dropWhile_cons_of_neg (by simpa using hfirst)
  unfold stripHyphens
  rw [hfront, h.rstripHyphens_eq]

/-- What `normalize_slug` collapses a text to. -/
def collapsedSlug (raw : String) : List Char :=
  stripHyphens (collapseHyphens false (hyphenateRuns false
    (stripChars ((raw.toList.filter fun c => c.toNat < 128).map Char.toLower))))

theorem slugForm_collapsedSlug {raw : String} (hne : collapsedSlug raw ≠ []) :
    SlugForm (collapsedSlug raw) := by
  unfold collapsedSlug at hne ⊢
  have hform := hyphenated_hyphenateRuns
    (stripChars ((raw.toList.filter fun c => c.toNat < 128).map Char.toLower))
  rw [collapseHyphens_of_hyphenated hform] at hne ⊢
  exact slugForm_stripHyphens hform hne

theorem normalizeSlug_eq (raw : String) : normalizeSlug raw =
    if collapsedSlug raw = [] then
      .error (.invalidSlug "slug normalization produced an empty value")
    else if maxSlugLength < (collapsedSlug raw).length then
      if rstripHyphens ((collapsedSlug raw).take maxSlugLength) = [] then
        .error (.invalidSlug "slug truncated to empty value")
      else .ok (String.ofList (rstripHyphens ((collapsedSlug raw).take maxSlugLength)))
    else .ok (String.ofList (collapsedSlug raw)) := rfl

theorem SlugForm.collapsedSlug_eq {s : String} (h : SlugForm s.toList) : collapsedSlug s = s.toList := by
  have hplain : ∀ c ∈ s.toList, c.toNat < 128 ∧ c.toLower = c ∧ isSpace c = false := fun c hc =>
    plain_of_slugChar (h.chars c hc)
  have hascii : (s.toList.filter fun c => c.toNat < 128) = s.toList :=
    List.filter_eq_self.mpr fun c hc => by simpa using (hplain c hc).1
  have hlower : s.toList.map Char.toLower = s.toList := by
    calc s.toList.map Char.toLower = s.toList.map id :=
        List.map_congr_left fun c hc => (hplain c hc).2.1
      _ = s.toList := List.map_id _
  have hstrip : stripChars s.toList = s.toList := by
    have hfront : s.toList.dropWhile isSpace = s.toList := by
      rw [List.dropWhile_eq_self_iff]
      intro hlen
      simp [(hplain _ (List.getElem_mem hlen)).2.2]
    have hback : s.toList.rdropWhile isSpace = s.toList := by
      rw [List.rdropWhile_eq_self_iff]
      intro hne
      simp [(hplain _ (List.getLast_mem hne)).2.2]
    unfold stripChars
    rw [hfront]
    exact hback
  unfold collapsedSlug
  rw [hascii, hlower, hstrip, hyphenateRuns_of_hyphenated h.toHyphenated,
    collapseHyphens_of_hyphenated h.toHyphenated, h.stripHyphens_eq]

/-- A slug of bounded length is its own normal form. -/
theorem normalizeSlug_of_slugForm {s : String} (h : SlugForm s.toList)
    (hlength : s.length ≤ maxSlugLength) : normalizeSlug s = .ok s := by
  rw [normalizeSlug_eq, h.collapsedSlug_eq, if_neg h.nonempty, if_neg, String.ofList_toList]
  rw [String.length_toList]
  omega

/-- What `normalize_slug` returns is a slug of bounded length. -/
theorem slugForm_of_normalizeSlug {raw slug : String} (h : normalizeSlug raw = .ok slug) :
    SlugForm slug.toList ∧ slug.length ≤ maxSlugLength := by
  rw [normalizeSlug_eq] at h
  split at h
  · cases h
  · rename_i hne
    have hform := slugForm_collapsedSlug hne
    split at h
    · split at h
      · cases h
      · rename_i htruncated
        obtain rfl := Except.ok.inj h
        have htaken : (collapsedSlug raw).take maxSlugLength <:+: collapsedSlug raw :=
          (List.take_prefix _ _).isInfix
        have hfirst : ((collapsedSlug raw).take maxSlugLength).head? ≠ some '-' := by
          rw [List.head?_take, if_neg (by decide)]
          exact hform.first
        rw [String.toList_ofList, String.length_ofList]
        refine ⟨SlugForm.of_rstrip (hform.of_infix htaken) hfirst htruncated, ?_⟩
        calc (rstripHyphens ((collapsedSlug raw).take maxSlugLength)).length
            ≤ ((collapsedSlug raw).take maxSlugLength).length :=
              (List.rdropWhile_prefix _ _).length_le
          _ ≤ maxSlugLength := List.length_take_le _ _
    · rename_i hshort
      obtain rfl := Except.ok.inj h
      rw [String.toList_ofList, String.length_ofList]
      exact ⟨hform, not_lt.mp hshort⟩

/-- A text is its own normal form exactly when it is a slug of bounded length. -/
theorem normalizeSlug_self_iff (s : String) :
    normalizeSlug s = .ok s ↔ SlugForm s.toList ∧ s.length ≤ maxSlugLength :=
  ⟨slugForm_of_normalizeSlug, fun h => normalizeSlug_of_slugForm h.1 h.2⟩

/-- **When validation and normalisation agree.**  Normalising a text again changes nothing, and
what it returns is valid.  A text is valid exactly when it is its own normal form, unless it is a
slug of bounded length with a newline behind it. -/
theorem slug_validation_agrees_iff (s : String) :
    ((isValidSlug s = true ↔ normalizeSlug s = .ok s) ∧
      ∀ slug, normalizeSlug s = .ok slug → normalizeSlug slug = .ok slug ∧ isValidSlug slug = true) ↔
    ¬ ∃ body, s.toList = body ++ ['\n'] ∧ SlugForm body ∧ s.length ≤ maxSlugLength := by
  have hagain : ∀ slug, normalizeSlug s = .ok slug →
      normalizeSlug slug = .ok slug ∧ isValidSlug slug = true := by
    intro slug h
    obtain ⟨hform, hlength⟩ := slugForm_of_normalizeSlug h
    exact ⟨normalizeSlug_of_slugForm hform hlength, (isValidSlug_iff slug).mpr ⟨hlength, .inl hform⟩⟩
  have hnewline : ∀ body : List Char, ¬ SlugForm (body ++ ['\n']) := by
    intro body h
    have hlast : '\n' ∈ body ++ ['\n'] := by simp
    rcases h.chars '\n' hlast with hc | hc
    · cases hc
    · cases hc
  rw [and_iff_left hagain, isValidSlug_iff, normalizeSlug_self_iff]
  constructor
  · intro h hbody
    obtain ⟨body, hsplit, hform, hlength⟩ := hbody
    have hself := h.mp ⟨hlength, .inr ⟨body, hsplit, hform⟩⟩
    rw [hsplit] at hself
    exact hnewline body hself.1
  · intro h
    refine ⟨fun hvalid => ?_, fun hself => ⟨hself.2, .inl hself.1⟩⟩
    obtain ⟨hlength, hform | ⟨body, hsplit, hform⟩⟩ := hvalid
    · exact ⟨hform, hlength⟩
    · exact absurd ⟨body, hsplit, hform, hlength⟩ h

/-- The pattern accepts a newline at the end, which normalising drops. -/
theorem newline_behind_slug_is_valid :
    ¬ ∀ s : String, isValidSlug s = true ↔ normalizeSlug s = .ok s := by
  intro h
  have hvalid : isValidSlug "boeing-737\n" = true := by decide +kernel
  have hnormal : normalizeSlug "boeing-737\n" = .ok "boeing-737" := by decide +kernel
  have hsame := (h "boeing-737\n").mp hvalid
  rw [hnormal] at hsame
  exact absurd (Except.ok.inj hsame) (by decide)

end Atlas
