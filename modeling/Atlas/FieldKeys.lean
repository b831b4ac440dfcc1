import Atlas.MatchingLaws
import Atlas.Normalizer
import Mathlib.Data.List.Chain

/-!
# Field keys

`normalise_field_key` makes lower-case words with single underscores between them, and a key of that
form is its own key.  So the name of a normalised claim is normal: it is such a key without a
generic alias, or a field that Atlas requires.
-/

namespace Atlas

/-- A lower-case letter or a digit. -/
def isKeyChar (c : Char) : Bool := isAsciiLower c || isAsciiDigit c

theorem isKeyChar_iff (c : Char) : isKeyChar c = true ↔
    97 ≤ c.toNat ∧ c.toNat ≤ 122 ∨ 48 ≤ c.toNat ∧ c.toNat ≤ 57 := by
  simp [isKeyChar, isAsciiLower, isAsciiDigit, Char.le_def, UInt32.le_iff_toNat_le]

/-- Lower-case letters, digits and underscores, no two underscores in a row. -/
structure Underscored (cs : List Char) : Prop where
  chars : ∀ c ∈ cs, isKeyChar c = true ∨ c = '_'
  single : cs.IsChain fun a b => ¬ (a = '_' ∧ b = '_')

/-- Words joined by single underscores, or nothing. -/
structure KeyForm (cs : List Char) : Prop extends Underscored cs where
  first : cs.head? ≠ some '_'
  last : cs.getLast? ≠ some '_'

theorem Underscored.tail {c : Char} {cs : List Char} (h : Underscored (c :: cs)) : Underscored cs :=
  ⟨fun d hd => h.chars d (List.mem_cons_of_mem c hd), h.single.tail⟩

theorem Underscored.of_infix {as bs : List Char} (h : Underscored bs) (hsub : as <:+: bs) :
    Underscored as :=
  ⟨fun c hc => h.chars c (hsub.subset hc), h.single.infix hsub⟩

theorem underscored_cons {c : Char} {cs : List Char} :
    Underscored (c :: cs) ↔
      Underscored cs ∧ (isKeyChar c = true ∨ c = '_') ∧ (c = '_' → cs.head? ≠ some '_') := by
  constructor
  · intro h
    refine ⟨h.tail, h.chars c List.mem_cons_self, ?_⟩
    rintro rfl hhead
    obtain ⟨d, rest, rfl⟩ : ∃ d rest, cs = d :: rest := by
      cases cs with
      | nil => cases hhead
      | cons d rest => exact ⟨d, rest, rfl⟩
    obtain rfl := Option.some.inj hhead
    exact (List.isChain_cons_cons.mp h.single).1 ⟨rfl, rfl⟩
  · rintro ⟨htail, hc, hhead⟩
    refine ⟨List.forall_mem_cons.mpr ⟨hc, htail.chars⟩, ?_⟩
    cases cs with
    | nil => exact .singleton c
    | cons d cs =>
        refine List.isChain_cons_cons.mpr ⟨?_, htail.single⟩
        rintro ⟨hc, rfl⟩
        exact hhead hc rfl

/-! ## What the key function leaves -/

/-- `toLower` moves the capitals of ASCII and nothing else. -/
theorem toLower_cases (c : Char) :
    c.toLower = c ∧ ¬ (65 ≤ c.toNat ∧ c.toNat ≤ 90) ∨
      (65 ≤ c.toNat ∧ c.toNat ≤ 90) ∧ c.toLower.toNat = c.toNat + 32 := by
  unfold Char.toLower
  simp only [ge_iff_le, UInt32.le_iff_toNat_le, Char.toNat_val, Char.reduceToNat]
  split
  · rename_i hupper
    refine .inr ⟨hupper, ?_⟩
    show (c.val + 32).toNat = c.toNat + 32
    rw [UInt32.toNat_add]
    simp only [Char.toNat_val, UInt32.reduceToNat]
    omega
  · rename_i hupper
    exact .inl ⟨rfl, hupper⟩

theorem keyChar_toLower {c : Char} (h : (isAsciiLower c || isAsciiUpper c || isAsciiDigit c) = true) :
    isKeyChar c.toLower = true := by
  simp only [isAsciiLower, isAsciiUpper, isAsciiDigit, Bool.or_eq_true, Bool.and_eq_true,
    decide_eq_true_eq, Char.le_def, UInt32.le_iff_toNat_le, Char.toNat_val, Char.reduceToNat] at h
  rw [isKeyChar_iff]
  rcases toLower_cases c with ⟨hfixed, hother⟩ | ⟨hupper, hmoved⟩
  · rw [hfixed]
    omega
  · omega

/-- Runs of other characters become single underscores. -/
theorem underscored_underscoreRuns (cs : List Char) :
    Underscored ((underscoreRuns false cs).map Char.toLower) := by
  have hboth : ∀ (cs : List Char) (written : Bool),
      Underscored ((underscoreRuns written cs).map Char.toLower) ∧
        (written = true → ((underscoreRuns written cs).map Char.toLower).head? ≠ some '_') := by
    intro cs
    induction cs with
    | nil => intro written; exact ⟨⟨by simp [underscoreRuns], .nil⟩, by simp [underscoreRuns]⟩
    | cons c cs ih =>
        intro written
        have hlow : '_'.toLower = '_' := by decide
        by_cases hc : (isAsciiLower c || isAsciiUpper c || isAsciiDigit c) = true
        · have hkey := keyChar_toLower hc
          have hne : c.toLower ≠ '_' := by
            intro h
            rw [h] at hkey
            cases hkey
          simp [underscoreRuns, hc, underscored_cons, (ih false).1, hne, hkey]
        · cases written with
          | true => simpa [underscoreRuns, hc] using ih true
          | false =>
              have hrun : (underscoreRuns false (c :: cs)).map Char.toLower =
                  '_' :: (underscoreRuns true cs).map Char.toLower := by
                simp [underscoreRuns, hc, hlow]
              rw [hrun, underscored_cons]
              exact ⟨⟨(ih true).1, .inr rfl, fun _ => (ih true).2 rfl⟩, by simp⟩
  exact (hboth cs false).1

theorem keyForm_stripUnderscores {cs : List Char} (h : Underscored cs) :
    KeyForm (stripUnderscores cs) := by
  obtain ⟨front, hfront⟩ := List.dropWhile_suffix (l := cs) (· = '_')
  obtain ⟨rest, hrest⟩ := List.rdropWhile_prefix (· = '_') (cs.dropWhile (· = '_'))
  have hstrip : stripUnderscores cs = (cs.dropWhile (· = '_')).rdropWhile (· = '_') := rfl
  rw [← hstrip] at hrest
  have hinfix : stripUnderscores cs <:+: cs := ⟨front, rest, by rw [List.append_assoc, hrest, hfront]⟩
  refine ⟨h.of_infix hinfix, ?_, ?_⟩
  · intro hhead
    have hnot := List.head?_dropWhile_not (· = '_') cs
    rw [← hrest, List.head?_append, hhead] at hnot
    simp at hnot
  · intro hlast
    have hne : (cs.dropWhile (· = '_')).rdropWhile (· = '_') ≠ [] := by
      intro hnil
      rw [hstrip, hnil] at hlast
      cases hlast
    have hnot := List.rdropWhile_last_not (· = '_') (cs.dropWhile (· = '_')) hne
    rw [hstrip, List.getLast?_eq_some_getLast hne, Option.some.injEq] at hlast
    simp [hlast] at hnot

theorem keyForm_normaliseFieldKey (s : String) : KeyForm (normaliseFieldKey s).toList := by
  unfold normaliseFieldKey
  rw [String.toList_ofList]
  exact keyForm_stripUnderscores (underscored_underscoreRuns _)

/-! ## Keys are their own keys -/

theorem plain_of_keyChar {c : Char} (h : isKeyChar c = true ∨ c = '_') :
    c.toLower = c ∧ isSpace c = false ∧ isAsciiUpper c = false := by
  rcases h with h | rfl
  · rw [isKeyChar_iff] at h
    refine ⟨?_, ?_, ?_⟩
    · rcases toLower_cases c with ⟨hfixed, -⟩ | ⟨hupper, -⟩
      · exact hfixed
      · omega
    · unfold isSpace
      simp only [Bool.or_eq_false_iff, Bool.and_eq_false_iff, decide_eq_false_iff_not, beq_eq_false_iff_ne]
      omega
    · simp only [isAsciiUpper, Bool.and_eq_false_iff, decide_eq_false_iff_not, Char.le_def,
        UInt32.le_iff_toNat_le, Char.toNat_val, Char.reduceToNat]
      omega
  · decide

theorem splitCamel_of_noUpper {cs : List Char} (h : ∀ c ∈ cs, isAsciiUpper c = false) :
    splitCamel cs = cs := by
  induction cs with
  | nil => rfl
  | cons a cs ih =>
      cases cs with
      | nil => rfl
      | cons b cs =>
          have hb : isAsciiUpper b = false := h b (by simp)
          simp [splitCamel, hb, ih fun c hc => h c (List.mem_cons_of_mem a hc)]

theorem underscoreRuns_of_underscored {cs : List Char} (h : Underscored cs) :
    underscoreRuns false cs = cs := by
  have hboth : ∀ cs : List Char, Underscored cs → underscoreRuns false cs = cs ∧
      (cs.head? ≠ some '_' → underscoreRuns true cs = cs) := by
    intro cs
    induction cs with
    | nil => intro _; exact ⟨rfl, fun _ => rfl⟩
    | cons c cs ih =>
        intro h
        obtain ⟨htail, hc, hhead⟩ := underscored_cons.mp h
        obtain ⟨hfalse, htrue⟩ := ih htail
        rcases hc with hc | rfl
        · have hword : (isAsciiLower c || isAsciiUpper c || isAsciiDigit c) = true := by
            unfold isKeyChar at hc
            cases hl : isAsciiLower c <;> simp_all
          simp [underscoreRuns, hword, hfalse]
        · have hword : (isAsciiLower '_' || isAsciiUpper '_' || isAsciiDigit '_') = false := by decide
          simp [underscoreRuns, hword, htrue (hhead rfl)]
  exact (hboth cs h).1

theorem KeyForm.stripUnderscores_eq {cs : List Char} (h : KeyForm cs) : stripUnderscores cs = cs := by
  have hfront : cs.dropWhile (· = '_') = cs := by
    cases cs with
    | nil => rfl
    | cons c cs =>
        have hfirst := h.first
        rw [List.head?_cons] at hfirst
        exact List.dropWhile_cons_of_neg (by simpa using hfirst)
  have hback : cs.rdropWhile (· = '_') = cs := by
    rw [List.rdropWhile_eq_self_iff]
    intro hne
    have hlast := h.last
    rw [List.getLast?_eq_some_getLast hne] at hlast
    simpa using hlast
  calc stripUnderscores cs = (cs.dropWhile (· = '_')).rdropWhile (· = '_') := rfl
    _ = cs := by rw [hfront, hback]

theorem normaliseFieldKey_of_keyForm {s : String} (h : KeyForm s.toList) : normaliseFieldKey s = s := by
  have hplain (c : Char) (hc : c ∈ s.toList) := plain_of_keyChar (h.chars c hc)
  have hlower : s.toList.map Char.toLower = s.toList :=
    (List.map_congr_left fun c hc => (hplain c hc).1).trans (List.map_id _)
  unfold normaliseFieldKey
  rw [stripChars_of_noSpace fun c hc => (hplain c hc).2.1,
    splitCamel_of_noUpper fun c hc => (hplain c hc).2.2,
    underscoreRuns_of_underscored h.toUnderscored, hlower, h.stripUnderscores_eq, String.ofList_toList]

/-- **A key is its own key.** -/
theorem normaliseFieldKey_normaliseFieldKey (s : String) :
    normaliseFieldKey (normaliseFieldKey s) = normaliseFieldKey s :=
  normaliseFieldKey_of_keyForm (keyForm_normaliseFieldKey s)

/-! ## The names of normalised claims -/

/-- The generic aliases leave the name alone. -/
def CanonicalName (name : String) : Prop := genericExternalFieldMapper.mapFieldName name = name

theorem canonicalName_required : ∀ name ∈ requiredFields, CanonicalName name := by
  unfold CanonicalName
  decide +kernel

/-- A mapper whose targets are fields that Atlas requires, as the constructor makes sure. -/
def SourceFieldMapper.Targets (m : SourceFieldMapper) : Prop := ∀ kv ∈ m.aliases, kv.2 ∈ requiredFields

theorem SourceFieldMapper.targets_of_make {aliases : List (String × String)} {m : SourceFieldMapper}
    (h : SourceFieldMapper.make aliases = .ok m) : m.Targets := by
  unfold SourceFieldMapper.make at h
  simp only [Outcome.bind_ok, Outcome.pure_ok] at h
  obtain ⟨entries, hentries, rfl⟩ := h
  intro kv hkv
  obtain ⟨entry, -, hentry⟩ := Outcome.exists_of_mem_mapM hentries hkv
  simp only [Outcome.bind_ok, Outcome.pure_ok] at hentry
  obtain ⟨canonical, hcanonical, rfl⟩ := hentry
  unfold canonicalFieldValue at hcanonical
  dsimp only at hcanonical
  split at hcanonical
  · rename_i hmem
    obtain rfl := Except.ok.inj hcanonical
    exact hmem
  · cases hcanonical

/-- A mapper maps a name to its key or to a target. -/
theorem SourceFieldMapper.mapFieldName_cases (m : SourceFieldMapper) (raw : String) :
    (m.aliases.reverse.lookup (normaliseFieldKey raw) = none ∧
      m.mapFieldName raw = normaliseFieldKey raw) ∨
      ∃ kv ∈ m.aliases, m.mapFieldName raw = kv.2 := by
  unfold SourceFieldMapper.mapFieldName
  dsimp only
  cases hlookup : m.aliases.reverse.lookup (normaliseFieldKey raw) with
  | none => exact .inl ⟨rfl, rfl⟩
  | some target =>
      obtain ⟨before, rest, hsplit, -⟩ := List.lookup_eq_some_iff.mp hlookup
      refine .inr ⟨(normaliseFieldKey raw, target), ?_, rfl⟩
      rw [← List.mem_reverse, hsplit]
      simp

theorem targets_generic : genericExternalFieldMapper.Targets :=
  SourceFieldMapper.targets_of_make genericExternalFieldMapper_made

theorem canonicalName_generic (raw : String) :
    CanonicalName (genericExternalFieldMapper.mapFieldName raw) := by
  rcases genericExternalFieldMapper.mapFieldName_cases raw with ⟨hnone, hkey⟩ | ⟨kv, hkv, htarget⟩
  · rw [hkey]
    unfold CanonicalName SourceFieldMapper.mapFieldName
    dsimp only
    rw [normaliseFieldKey_normaliseFieldKey, hnone]
    rfl
  · rw [htarget]
    exact canonicalName_required _ (targets_generic kv hkv)

/-- **Names.**  The generic aliases leave the name of a normalised claim alone. -/
theorem canonicalName_externalFieldName {mapper : Option SourceFieldMapper}
    (h : ∀ m ∈ mapper, m.Targets) (raw : String) : CanonicalName (externalFieldName mapper raw) := by
  unfold externalFieldName
  split
  · exact canonicalName_generic raw
  · rename_i m
    split
    · exact canonicalName_generic raw
    · rename_i hne
      rcases m.mapFieldName_cases raw with ⟨-, hkey⟩ | ⟨kv, hkv, htarget⟩
      · exact absurd hkey hne
      · rw [htarget]
        exact canonicalName_required _ (h m rfl kv hkv)

end Atlas
