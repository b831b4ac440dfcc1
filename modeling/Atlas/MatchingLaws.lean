import Mathlib.Data.List.DropRight
import Atlas.IdentityIndex

/-!
# Laws of the matcher

Normalised text stays as it is when it is normalised again, so what the index
stores compares equal to what the next submission brings.  This rests on what
Unicode says about lower case, the class `LawfulPyText`.

A row with the date and the registration of a submission reaches the threshold for
attaching, whatever its other fields; a row without the registration does not.
-/

namespace Atlas

/-! ## Text -/

/-- What Unicode says about `str.lower`: ASCII letters are lowered one by one, no
character of the result changes when it is lowered again, and a text of such
characters is its own lower case. -/
class LawfulPyText [PyText] : Prop where
  lower_ascii : ∀ s : String, (∀ c ∈ s.toList, c.toNat < 128) →
    (PyText.lower s).toList = s.toList.map Char.toLower
  lower_lowered : ∀ s : String, ∀ c ∈ (PyText.lower s).toList,
    PyText.lower (String.singleton c) = String.singleton c
  lower_fixed : ∀ s : String,
    (∀ c ∈ s.toList, PyText.lower (String.singleton c) = String.singleton c) → PyText.lower s = s

theorem toLower_toLower (c : Char) : c.toLower.toLower = c.toLower := by
  unfold Char.toLower
  split_ifs <;> grind

theorem map_toLower_singleton {c : Char} :
    (String.singleton c).map Char.toLower = String.singleton c ↔ c.toLower = c := by
  rw [← String.toList_inj]
  simp

/-- The ASCII tables. -/
instance : LawfulPyText where
  lower_ascii s _ := String.toList_map
  lower_lowered s c hc := by
    change c ∈ (s.map Char.toLower).toList at hc
    rw [String.toList_map] at hc
    obtain ⟨a, -, rfl⟩ := List.mem_map.mp hc
    exact map_toLower_singleton.mpr (toLower_toLower a)
  lower_fixed s hs := by
    change s.map Char.toLower = s
    rw [← String.toList_inj, String.toList_map]
    conv_rhs => rw [← List.map_id s.toList]
    exact List.map_congr_left fun c hc => map_toLower_singleton.mp (hs c hc)

/-! ### Stripping and collapsing -/

theorem stripChars_eq (cs : Text) : stripChars cs = (cs.dropWhile isSpace).rdropWhile isSpace := rfl

/-- Text without a blank at either end is its own `strip`. -/
theorem stripChars_eq_self {cs : Text} (hhead : ∀ c ∈ cs.head?, isSpace c = false)
    (hlast : ∀ c ∈ cs.getLast?, isSpace c = false) : stripChars cs = cs := by
  have hdrop : cs.dropWhile isSpace = cs := by
    cases cs with
    | nil => rfl
    | cons c cs => simp [hhead c rfl]
  rw [stripChars_eq, hdrop, List.rdropWhile_eq_self_iff]
  intro hne
  simp [hlast _ (List.getLast?_eq_some_getLast hne)]

theorem head_stripChars (cs : Text) : ∀ c ∈ (stripChars cs).head?, isSpace c = false := by
  intro c hc
  obtain ⟨rest, hrest⟩ := List.rdropWhile_prefix isSpace (cs.dropWhile isSpace)
  have hfirst : (cs.dropWhile isSpace).head? = some c := by
    rw [← hrest, List.head?_append, show (List.rdropWhile isSpace (cs.dropWhile isSpace)).head? =
      some c from hc]
    rfl
  have h := List.head?_dropWhile_not isSpace cs
  rw [hfirst] at h
  simpa using h

theorem last_stripChars (cs : Text) : ∀ c ∈ (stripChars cs).getLast?, isSpace c = false := by
  intro c hc
  have hne : stripChars cs ≠ [] := by
    rintro hnil
    simp [hnil] at hc
  rw [List.getLast?_eq_some_getLast hne, Option.mem_some_iff] at hc
  have h := List.rdropWhile_last_not isSpace (cs.dropWhile isSpace) hne
  rw [← hc]
  exact Bool.eq_false_of_not_eq_true h

theorem collapseBlanks_idem (cs : Text) (blank : Bool) :
    collapseBlanks blank (collapseBlanks blank cs) = collapseBlanks blank cs := by
  induction cs generalizing blank with
  | nil => rfl
  | cons c cs ih =>
      by_cases hc : isSpace c
      · cases blank with
        | true => simpa [collapseBlanks_cons, hc] using ih true
        | false =>
            have hblank : isSpace ' ' = true := by decide
            simpa [collapseBlanks_cons, hc, hblank] using ih true
      · simpa [collapseBlanks_cons, hc] using ih false

theorem collapseBlanks_concat {c : Char} (hc : isSpace c = false) (cs : Text) (blank : Bool) :
    collapseBlanks blank (cs ++ [c]) = collapseBlanks blank cs ++ [c] := by
  induction cs generalizing blank with
  | nil => simp [collapseBlanks_cons, hc]
  | cons d cs ih =>
      simp only [List.cons_append, collapseBlanks_cons]
      split_ifs <;> simp [ih]

theorem collapseBlanks_of_noSpace {cs : Text} (h : ∀ c ∈ cs, isSpace c = false) (blank : Bool) :
    collapseBlanks blank cs = cs := by
  induction cs generalizing blank with
  | nil => rfl
  | cons c cs ih =>
      simp [collapseBlanks_cons, h c (by simp), ih fun d hd => h d (by simp [hd])]

theorem mem_collapseBlanks {cs : Text} {blank : Bool} {c : Char} (h : c ∈ collapseBlanks blank cs) :
    c ∈ cs ∨ c = ' ' := by
  induction cs generalizing blank with
  | nil => cases h
  | cons d cs ih =>
      rw [collapseBlanks_cons] at h
      split_ifs at h
      · exact (ih h).imp_left (List.mem_cons_of_mem d)
      · rcases List.mem_cons.mp h with rfl | h
        · exact .inr rfl
        · exact (ih h).imp_left (List.mem_cons_of_mem d)
      · rcases List.mem_cons.mp h with rfl | h
        · exact .inl (by simp)
        · exact (ih h).imp_left (List.mem_cons_of_mem d)

/-- Collapsed text has no blank at an end where the text had none. -/
theorem stripChars_collapseBlanks (cs : Text) :
    stripChars (collapseBlanks false (stripChars cs)) = collapseBlanks false (stripChars cs) := by
  have hhead := head_stripChars cs
  have hlast := last_stripChars cs
  generalize stripChars cs = t at hhead hlast
  apply stripChars_eq_self
  · intro c hc
    cases t with
    | nil => cases hc
    | cons d t =>
        have hd : isSpace d = false := hhead d rfl
        simp only [collapseBlanks_cons, hd, Bool.false_eq_true, if_false, List.head?_cons,
          Option.mem_some_iff] at hc
        exact hc ▸ hd
  · intro c hc
    rcases List.eq_nil_or_concat t with rfl | ⟨u, d, rfl⟩
    · cases hc
    · have hd : isSpace d = false := hlast d (by simp)
      rw [List.concat_eq_append, collapseBlanks_concat hd] at hc
      simp only [List.getLast?_append, List.getLast?_singleton, Option.some_or,
        Option.mem_some_iff] at hc
      exact hc ▸ hd

theorem mem_stripChars {cs : Text} {c : Char} (h : c ∈ stripChars cs) : c ∈ cs := by
  rw [stripChars_eq] at h
  exact (List.dropWhile_sublist _).subset ((List.rdropWhile_prefix _ _).subset h)

theorem length_collapseBlanks_le (cs : Text) (blank : Bool) :
    (collapseBlanks blank cs).length ≤ cs.length := by
  induction cs generalizing blank with
  | nil => rfl
  | cons c cs ih =>
      rw [collapseBlanks_cons]
      split_ifs
      · exact (ih true).trans (by simp)
      · simpa using ih true
      · simpa using ih false

theorem length_stripChars_le (cs : Text) : (stripChars cs).length ≤ cs.length := by
  rw [stripChars_eq]
  exact (List.rdropWhile_prefix _ _).length_le.trans (List.dropWhile_sublist _).length_le

/-! ### Normalising again -/

theorem noSpace_dropSeparators {cs : Text} : ∀ c ∈ dropSeparators cs, isSpace c = false := by
  intro c hc
  have h := (List.mem_filter.mp hc).2
  simp at h
  exact h.2

theorem dropSeparators_idem (cs : Text) : dropSeparators (dropSeparators cs) = dropSeparators cs := by
  simp [dropSeparators, List.filter_filter]

theorem stripChars_of_noSpace {cs : Text} (h : ∀ c ∈ cs, isSpace c = false) : stripChars cs = cs :=
  stripChars_eq_self (fun c hc => h c (List.mem_of_mem_head? hc))
    (fun c hc => h c (List.mem_of_mem_getLast? hc))

section Lawful

variable [PyText] [LawfulPyText]

theorem lower_ofList {cs : Text}
    (h : ∀ c ∈ cs, PyText.lower (String.singleton c) = String.singleton c) :
    PyText.lower (String.ofList cs) = String.ofList cs :=
  LawfulPyText.lower_fixed _ (by simpa using h)

theorem lowered_space : PyText.lower (String.singleton ' ') = String.singleton ' ' := by
  have h := LawfulPyText.lower_ascii (String.singleton ' ') (by simp)
  rw [← String.toList_inj, h]
  rfl

theorem lowered_normText (s : String) :
    ∀ c ∈ normText s, PyText.lower (String.singleton c) = String.singleton c := by
  intro c hc
  rcases mem_collapseBlanks hc with hc | rfl
  · exact LawfulPyText.lower_lowered s c (mem_stripChars hc)
  · exact lowered_space

/-- **Normalised text is normal.** -/
theorem normText_normText (s : String) : normText (String.ofList (normText s)) = normText s := by
  have hlower := lower_ofList (lowered_normText s)
  calc normText (String.ofList (normText s))
      = collapseBlanks false (stripChars (normText s)) := by
        unfold normText at hlower ⊢
        rw [hlower, String.toList_ofList]
    _ = collapseBlanks false (normText s) := by
        unfold normText
        rw [stripChars_collapseBlanks]
    _ = normText s := collapseBlanks_idem _ false

theorem lower_dropSeparators (s : String) :
    PyText.lower (String.ofList (dropSeparators (normText s))) =
      String.ofList (dropSeparators (normText s)) :=
  lower_ofList fun c hc => lowered_normText s c (List.mem_of_mem_filter hc)

/-- A registration without its separators is normal. -/
theorem normText_dropSeparators (s : String) :
    normText (String.ofList (dropSeparators (normText s))) = dropSeparators (normText s) := by
  rw [normText, lower_dropSeparators, String.toList_ofList,
    stripChars_of_noSpace noSpace_dropSeparators,
    collapseBlanks_of_noSpace noSpace_dropSeparators]

/-- The lookup by registration looks for what the index stores. -/
theorem normaliseRegistrationLookup_dropSeparators (s : String) :
    IdentityStore.normaliseRegistrationLookup (dropSeparators (normText s)) =
      dropSeparators (normText s) := by
  rw [IdentityStore.normaliseRegistrationLookup, lower_dropSeparators, String.toList_ofList,
    stripChars_of_noSpace noSpace_dropSeparators, dropSeparators_idem]

theorem length_normText_le {s : String} (h : ∀ c ∈ s.toList, c.toNat < 128) :
    (normText s).length ≤ s.toList.length := by
  have hlower : (PyText.lower s).toList.length = s.toList.length := by
    rw [LawfulPyText.lower_ascii s h, List.length_map]
  exact (length_collapseBlanks_le _ _).trans ((length_stripChars_le _).trans_eq hlower)

omit [PyText] [LawfulPyText] in
theorem parseIsoDate_of_short {cs : Text} (h : cs.length < 8) : parseIsoDate cs = none := by
  unfold parseIsoDate
  split
  · simp only [List.length_cons] at h
    omega
  · rfl

theorem normDate_of_short {s : String} (hascii : ∀ c ∈ s.toList, c.toNat < 128)
    (h : s.toList.length < 8) : normDate s = none :=
  parseIsoDate_of_short ((length_normText_le hascii).trans_lt h)

variable [PyRepr]

/-- The texts of the values that count as absent. -/
def falsyTexts : List String := ["None", "False", "0", "0.0", "", "[]", "\x7b\x7d"]

omit [PyText] [LawfulPyText] in
theorem pyStr_of_falsy {v : Json} (h : v.truthy = false) : pyStr v ∈ falsyTexts := by
  cases v with
  | null => simp [pyStr, falsyTexts]
  | bool b =>
      have hb : b = false := h
      simp [pyStr, falsyTexts, hb]
  | num n =>
      have hzero : n.exact = .finite 0 := by simpa [Json.truthy] using h
      cases n with
      | int n =>
          have hn : n = 0 := by simpa [PyNum.exact] using hzero
          subst hn
          change toString (0 : Int) ∈ falsyTexts
          decide
      | float f =>
          have hf : f = .finite 0 := hzero
          simp [pyStr, falsyTexts, hf]
  | str s =>
      have hs : s = "" := by simpa [Json.truthy] using h
      simp [pyStr, falsyTexts, hs]
  | arr xs =>
      have hxs : xs = [] := by simpa [Json.truthy] using h
      simp [pyStr, falsyTexts, hxs]
  | obj kvs =>
      have hkvs : kvs = [] := by simpa [Json.truthy] using h
      simp [pyStr, falsyTexts, hkvs]

/-- Only a value that counts as present can be a date. -/
theorem truthy_of_normDate {v : Json} {d : PyDate} (h : normDate (pyStr v) = some d) :
    v.truthy = true := by
  by_contra hfalsy
  have hmem := pyStr_of_falsy (Bool.eq_false_of_not_eq_true hfalsy)
  have hshort : ∀ t ∈ falsyTexts,
      t.toList.all (fun c => c.toNat < 128) = true ∧ t.toList.length < 8 := by
    decide
  obtain ⟨hascii, hlength⟩ := hshort _ hmem
  rw [normDate_of_short (by simpa using hascii) hlength] at h
  exact absurd h (by simp)

end Lawful

/-! ## Scores -/

theorem double_exact : double 1 = 1 ∧ double (1 / 2) = 1 / 2 := by decide +kernel

/-- A field score lies between nought and one. -/
def IsScore (x : ℚ) : Prop := 0 ≤ x ∧ x ≤ 1

theorem isScore_zero : IsScore 0 := ⟨le_rfl, zero_le_one⟩
theorem isScore_one : IsScore 1 := ⟨zero_le_one, le_rfl⟩

theorem isScore_dateScore (a b : Option PyDate) : IsScore (dateScore a b) := by
  unfold dateScore
  split
  · split_ifs
    · exact isScore_one
    · exact ⟨by norm_num, by norm_num⟩
    · exact isScore_zero
  · exact isScore_zero

theorem isScore_tokenOverlap (a b : Text) : IsScore (tokenOverlap a b) := by
  unfold tokenOverlap
  dsimp only
  split_ifs with hempty
  · exact isScore_zero
  · generalize Rows.distinct (splitWords [] a) = ta at *
    generalize Rows.distinct (splitWords [] b) = tb at *
    have hle : ((ta.filter (· ∈ tb)).length : ℚ) ≤ (ta ++ tb.filter (· ∉ ta)).length := by
      have h := List.length_filter_le (fun x => decide (x ∈ tb)) ta
      rw [List.length_append]
      exact_mod_cast h.trans (Nat.le_add_right _ _)
    have hquot : ((ta.filter (· ∈ tb)).length : ℚ) / (ta ++ tb.filter (· ∉ ta)).length ≤ 1 :=
      div_le_one_of_le₀ hle (Nat.cast_nonneg _)
    have hnonneg : (0 : ℚ) ≤ ((ta.filter (· ∈ tb)).length : ℚ) / (ta ++ tb.filter (· ∉ ta)).length :=
      div_nonneg (Nat.cast_nonneg _) (Nat.cast_nonneg _)
    refine ⟨double_nonneg hnonneg (by linarith), ?_⟩
    calc double _ ≤ double 1 := double_mono hnonneg hquot (by norm_num)
      _ = 1 := double_exact.1

/-- Add a weighted field to the total. -/
def addField (weight total score : ℚ) : ℚ := double (total + double (weight * score))

/-- **A better field does not lower the total.** -/
theorem addField_mono {w x y s t : ℚ} (hw : 0 ≤ w ∧ w ≤ 1 / 2) (hx : 0 ≤ x) (hxy : x ≤ y)
    (hy : y ≤ 3 / 2) (hs : IsScore s) (ht : IsScore t) (hst : s ≤ t) :
    0 ≤ addField w x s ∧ addField w x s ≤ addField w y t := by
  have hws : 0 ≤ w * s := mul_nonneg hw.1 hs.1
  have hwst : w * s ≤ w * t := mul_le_mul_of_nonneg_left hst hw.1
  have hwt : w * t ≤ 1 / 2 := by
    calc w * t ≤ w * 1 := mul_le_mul_of_nonneg_left ht.2 hw.1
      _ ≤ 1 / 2 := by linarith [hw.2]
  have hterm : double (w * s) ≤ double (w * t) := double_mono hws hwst (by linarith)
  have hzero : 0 ≤ double (w * s) := double_nonneg hws (by linarith)
  have hhalf : double (w * t) ≤ 1 / 2 := by
    calc double (w * t) ≤ double (1 / 2) := double_mono (hws.trans hwst) hwt (by norm_num)
      _ = 1 / 2 := double_exact.2
  exact ⟨double_nonneg (by linarith) (by linarith), double_mono (by linarith) (by linarith)
    (by linarith)⟩

/-- The sum of the weighted fields, in the order of `_WEIGHTS`. -/
def totalScore (registration date operator location aircraftType : ℚ) : ℚ :=
  addField aircraftTypeWeight (addField locationWeight (addField operatorWeight
    (addField eventDateWeight (addField registrationWeight 0 registration) date) operator)
      location) aircraftType

theorem weightedSum_fieldScores [PyText] [PyRepr] (incoming : ClaimFields) (c : CandidateFields) :
    weightedSum (fieldScores incoming c) =
      totalScore (registrationScore (incoming "registration") c.registration)
        (eventDateScore (incoming "event_date") c.eventDate)
        (textScore (incoming "operator") c.operator) (textScore (incoming "location") c.location)
        (textScore (incoming "aircraft_type") c.aircraftType) := rfl

theorem addField_le {w y t B : ℚ} (C : ℚ) (hw : 0 ≤ w ∧ w ≤ 1 / 2) (hy : 0 ≤ y) (hyB : y ≤ B)
    (hB : B ≤ 3 / 2) (ht : IsScore t) (hnext : addField w B 1 ≤ C) :
    0 ≤ addField w y t ∧ addField w y t ≤ C := by
  obtain ⟨hzero, hle⟩ := addField_mono hw hy hyB hB ht isScore_one ht.2
  exact ⟨hzero, hle.trans hnext⟩

section Total

variable {r d o l a r' d' o' l' a' : ℚ}

/-- **A better match does not score lower**, and totals stay far below overflow. -/
theorem totalScore_mono (hr : IsScore r) (hd : IsScore d) (ho : IsScore o) (hl : IsScore l)
    (ha : IsScore a) (hr' : IsScore r') (hd' : IsScore d') (ho' : IsScore o') (hl' : IsScore l')
    (ha' : IsScore a') (hrr : r ≤ r') (hdd : d ≤ d') (hoo : o ≤ o') (hll : l ≤ l') (haa : a ≤ a') :
    0 ≤ totalScore r d o l a ∧ totalScore r d o l a ≤ totalScore r' d' o' l' a' ∧
      totalScore r' d' o' l' a' ≤ 3 / 2 := by
  have w₁ : 0 ≤ registrationWeight ∧ registrationWeight ≤ 1 / 2 := by decide +kernel
  have w₂ : 0 ≤ eventDateWeight ∧ eventDateWeight ≤ 1 / 2 := by decide +kernel
  have w₃ : 0 ≤ operatorWeight ∧ operatorWeight ≤ 1 / 2 := by decide +kernel
  have w₄ : 0 ≤ locationWeight ∧ locationWeight ≤ 1 / 2 := by decide +kernel
  have w₅ : 0 ≤ aircraftTypeWeight ∧ aircraftTypeWeight ≤ 1 / 2 := by decide +kernel
  -- Bounds on the partial sums of the larger scores.
  obtain ⟨z₁, b₁⟩ := addField_le (1 / 2) w₁ le_rfl le_rfl (by norm_num) hr' (by decide +kernel)
  obtain ⟨z₂, b₂⟩ := addField_le 1 w₂ z₁ b₁ (by norm_num) hd' (by decide +kernel)
  obtain ⟨z₃, b₃⟩ := addField_le (9 / 8) w₃ z₂ b₂ (by norm_num) ho' (by decide +kernel)
  obtain ⟨z₄, b₄⟩ := addField_le (5 / 4) w₄ z₃ b₃ (by norm_num) hl' (by decide +kernel)
  obtain ⟨-, b₅⟩ := addField_le (3 / 2) w₅ z₄ b₄ (by norm_num) ha' (by decide +kernel)
  obtain ⟨y₁, m₁⟩ := addField_mono w₁ le_rfl le_rfl (by norm_num) hr hr' hrr
  obtain ⟨y₂, m₂⟩ := addField_mono w₂ y₁ m₁ (b₁.trans (by norm_num)) hd hd' hdd
  obtain ⟨y₃, m₃⟩ := addField_mono w₃ y₂ m₂ (b₂.trans (by norm_num)) ho ho' hoo
  obtain ⟨y₄, m₄⟩ := addField_mono w₄ y₃ m₃ (b₃.trans (by norm_num)) hl hl' hll
  obtain ⟨y₅, m₅⟩ := addField_mono w₅ y₄ m₄ (b₄.trans (by norm_num)) ha ha' haa
  exact ⟨y₅, m₅, b₅⟩

/-- The scores on either side of the threshold. -/
theorem threshold_exact : highConfidence ≤ round4 (totalScore 1 1 0 0 0) ∧
    round4 (totalScore 0 1 1 1 1) < highConfidence := by
  decide +kernel

/-- The date and the registration alone reach the threshold. -/
theorem high_of_date_and_registration (ho : IsScore o) (hl : IsScore l) (ha : IsScore a) :
    highConfidence ≤ round4 (totalScore 1 1 o l a) := by
  obtain ⟨hzero, hle, htop⟩ := totalScore_mono isScore_one isScore_one isScore_zero isScore_zero
    isScore_zero isScore_one isScore_one ho hl ha le_rfl le_rfl ho.1 hl.1 ha.1
  exact threshold_exact.1.trans (round4_mono hzero hle htop)

/-- Everything but the registration does not. -/
theorem low_without_registration (hd : IsScore d) (ho : IsScore o) (hl : IsScore l)
    (ha : IsScore a) : round4 (totalScore 0 d o l a) < highConfidence := by
  obtain ⟨hzero, hle, htop⟩ := totalScore_mono isScore_zero hd ho hl ha isScore_zero isScore_one
    isScore_one isScore_one isScore_one le_rfl hd.2 ho.2 hl.2 ha.2
  exact (round4_mono hzero hle htop).trans_lt threshold_exact.2

end Total

section RowScores

variable [PyText] [PyRepr]

theorem isScore_textScore (incoming : Json) (candidate : Option Text) :
    IsScore (textScore incoming candidate) := by
  unfold textScore
  split
  · exact isScore_zero
  · exact isScore_tokenOverlap _ _

theorem isScore_eventDateScore (incoming : Json) (candidate : Option PyDate) :
    IsScore (eventDateScore incoming candidate) := isScore_dateScore _ _

/-- A candidate with the date and the registration is above the threshold. -/
theorem high_scoreMatch {incoming : ClaimFields} {c : CandidateFields}
    (hreg : registrationScore (incoming "registration") c.registration = 1)
    (hdate : eventDateScore (incoming "event_date") c.eventDate = 1) :
    highConfidence ≤ (scoreMatch incoming c).score := by
  have hmatched : "registration" ∈
      ((fieldScores incoming c).filter fun f => 0 < f.2.2).map Prod.fst := by
    simp [fieldScores, hreg]
  unfold scoreMatch
  dsimp only
  rw [if_neg (fun h => h.1 hmatched), weightedSum_fieldScores, hreg, hdate]
  exact high_of_date_and_registration (isScore_textScore _ _) (isScore_textScore _ _)
    (isScore_textScore _ _)

/-- A candidate without the registration, also among its aliases, is below it. -/
theorem low_scoreMatch {incoming : ClaimFields} {c : CandidateFields}
    (hreg : registrationScore (incoming "registration") c.registration = 0)
    (halias : matchesAlias (incoming "registration") c.registrationNorms = false) :
    (scoreMatch incoming c).score < highConfidence := by
  unfold scoreMatch
  dsimp only
  rw [if_neg (by simp [halias]), weightedSum_fieldScores, hreg]
  exact low_without_registration (isScore_eventDateScore _ _) (isScore_textScore _ _)
    (isScore_textScore _ _) (isScore_textScore _ _)

end RowScores

end Atlas
