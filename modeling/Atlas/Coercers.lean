import Atlas.DateTexts
import Atlas.FieldKeys
import Atlas.FloatTexts

/-!
# Coercing a coerced value

Every coercer of `ExternalSourceNormalizer` leaves its own results alone: the text of a date is read
back as the date, a count is a double and read back as it is, and a text with single blanks keeps
them, in upper case and in lower case too.
-/

namespace Atlas

open Outcome

/-! ## Case and blanks -/

/-- What a case mapping makes of a character: a blank stays, anything else becomes something without
blanks. -/
def KeepsBlank (c : Char) (piece : Text) : Prop :=
  if isSpace c then piece = [c] else piece ≠ [] ∧ ∀ d ∈ piece, isSpace d = false

/-- A case mapping of texts, which may look at the surroundings of a character. -/
def KeepsBlanks (f : String → String) : Prop :=
  ∀ s, ∃ pieces : List Text, (f s).toList = pieces.flatten ∧ List.Forall₂ KeepsBlank s.toList pieces

/-- What Unicode says about the case mappings of texts. -/
class LawfulCase [PyText] [PyUpper] : Prop where
  lower_blanks : KeepsBlanks PyText.lower
  upper_blanks : KeepsBlanks PyUpper.upper
  lower_lower : ∀ s, PyText.lower (PyText.lower s) = PyText.lower s
  upper_upper : ∀ s, PyUpper.upper (PyUpper.upper s) = PyUpper.upper s

/-- `date.fromisoformat` reads what `isoformat` writes. -/
class LawfulPyIso [PyIso] : Prop where
  date_isoformat : ∀ d : PyDate, PyIso.date d.isoformat = some d

/-- The ISO text of a date, and nothing else of it. -/
instance : LawfulPyIso where
  date_isoformat d := parseIsoDate_isoformat d

theorem flatten_of_word {w : Text} {pieces : List Text} (hw : ∀ c ∈ w, isSpace c = false)
    (h : List.Forall₂ KeepsBlank w pieces) :
    (w ≠ [] → pieces.flatten ≠ []) ∧ ∀ d ∈ pieces.flatten, isSpace d = false := by
  induction h with
  | nil => exact ⟨fun hne => absurd rfl hne, by simp⟩
  | cons hc _ ih =>
      rename_i c piece w pieces
      rw [List.forall_mem_cons] at hw
      unfold KeepsBlank at hc
      rw [hw.1, if_neg (by simp)] at hc
      refine ⟨fun _ => by simp [hc.1], ?_⟩
      intro d hd
      rw [List.flatten_cons, List.mem_append] at hd
      exact hd.elim (hc.2 d) ((ih hw.2).2 d)

theorem forall₂_append {α β : Type} {R : α → β → Prop} {as bs : List α} {cs : List β}
    (h : List.Forall₂ R (as ++ bs) cs) :
    ∃ cs₁ cs₂, cs = cs₁ ++ cs₂ ∧ List.Forall₂ R as cs₁ ∧ List.Forall₂ R bs cs₂ :=
  ⟨cs.take as.length, cs.drop as.length, (List.take_append_drop _ _).symm,
    (List.forall₂_take_append cs as bs h.flip).flip, (List.forall₂_drop_append cs as bs h.flip).flip⟩

/-- Words stay words. -/
theorem flatten_joinWords {ws : List Text} (hws : Words ws) {pieces : List Text}
    (h : List.Forall₂ KeepsBlank (joinWords ws) pieces) :
    ∃ vs, Words vs ∧ vs.length = ws.length ∧ pieces.flatten = joinWords vs := by
  induction ws generalizing pieces with
  | nil =>
      rw [joinWords_nil, List.forall₂_nil_left_iff] at h
      exact ⟨[], by simp [Words], rfl, by rw [h]; rfl⟩
  | cons w ws ih =>
      obtain ⟨hne, hw⟩ := hws w List.mem_cons_self
      cases ws with
      | nil =>
          rw [joinWords_singleton] at h
          obtain ⟨hsome, hspace⟩ := flatten_of_word hw h
          refine ⟨[pieces.flatten], ?_, rfl, (joinWords_singleton _).symm⟩
          intro v hv
          obtain rfl := List.mem_singleton.mp hv
          exact ⟨hsome hne, hspace⟩
      | cons u ws =>
          rw [joinWords_cons (by simp)] at h
          obtain ⟨front, back, rfl, hfront, hback⟩ := forall₂_append h
          obtain ⟨hsome, hspace⟩ := flatten_of_word hw hfront
          obtain ⟨blank, back, hblank, hrest, rfl⟩ := List.forall₂_cons_left_iff.mp hback
          obtain ⟨vs, hvs, hlength, hflat⟩ := ih hws.tail hrest
          have hvsne : vs ≠ [] := by
            rintro rfl
            simp at hlength
          obtain rfl : blank = [' '] := by
            unfold KeepsBlank at hblank
            rwa [if_pos (by decide)] at hblank
          refine ⟨front.flatten :: vs, List.forall_mem_cons.mpr ⟨⟨hsome hne, hspace⟩, hvs⟩,
            by simp [hlength], ?_⟩
          rw [joinWords_cons hvsne, ← hflat]
          simp

/-- A text of words with single blanks. -/
def Joined (s : String) : Prop := ∃ ws, ws ≠ [] ∧ Words ws ∧ s.toList = joinWords ws

theorem KeepsBlanks.joined {f : String → String} (hf : KeepsBlanks f) {s : String} (h : Joined s) :
    Joined (f s) := by
  obtain ⟨ws, hne, hws, hs⟩ := h
  obtain ⟨pieces, hpieces, hforall⟩ := hf s
  rw [hs] at hforall
  obtain ⟨vs, hvs, hlength, hflat⟩ := flatten_joinWords hws hforall
  refine ⟨vs, ?_, hvs, hpieces.trans hflat⟩
  rintro rfl
  exact hne (List.length_eq_zero_iff.mp hlength.symm)

/-! ### The ASCII mappings -/

theorem keepsBlanks_map {g : Char → Char} (hspace : ∀ c, isSpace (g c) = isSpace c)
    (hfixed : ∀ c, isSpace c = true → g c = c) : KeepsBlanks fun s => s.map g := by
  intro s
  refine ⟨s.toList.map fun c => [g c], ?_, ?_⟩
  · rw [String.toList_map]
    induction s.toList with
    | nil => rfl
    | cons c cs ih => simp [ih]
  · rw [List.forall₂_map_right_iff]
    refine List.forall₂_same.mpr fun c _ => ?_
    unfold KeepsBlank
    split
    · rename_i hc
      rw [hfixed c hc]
    · rename_i hc
      exact ⟨by simp, by simpa [hspace] using hc⟩

/-- A character whose number is that of an ASCII letter is no blank. -/
theorem isSpace_of_letter {c : Char} (h : 65 ≤ c.toNat ∧ c.toNat ≤ 122) : isSpace c = false := by
  unfold isSpace
  simp only [Bool.or_eq_false_iff, Bool.and_eq_false_iff, decide_eq_false_iff_not, beq_eq_false_iff_ne]
  omega

theorem toLower_blank (c : Char) :
    isSpace c.toLower = isSpace c ∧ (isSpace c = true → c.toLower = c) := by
  rcases toLower_cases c with ⟨hfixed, -⟩ | ⟨hupper, hmoved⟩
  · rw [hfixed]
    exact ⟨rfl, fun _ => rfl⟩
  · rw [isSpace_of_letter (c := c) (by omega), isSpace_of_letter (c := c.toLower) (by omega)]
    exact ⟨rfl, by simp⟩

/-- `toUpper` moves the small letters of ASCII and nothing else. -/
theorem toUpper_cases (c : Char) :
    c.toUpper = c ∨ (97 ≤ c.toNat ∧ c.toNat ≤ 122) ∧ c.toUpper.toNat = c.toNat - 32 := by
  unfold Char.toUpper
  simp only [UInt32.le_iff_toNat_le, Char.toNat_val, Char.reduceToNat]
  split
  · rename_i hlower
    refine .inr ⟨hlower, ?_⟩
    have hstep : ('A'.val - 'a'.val).toNat = 4294967264 := by decide
    show (c.val + ('A'.val - 'a'.val)).toNat = c.toNat - 32
    rw [UInt32.toNat_add, hstep]
    simp only [Char.toNat_val]
    omega
  · exact .inl rfl

theorem toUpper_blank (c : Char) :
    isSpace c.toUpper = isSpace c ∧ (isSpace c = true → c.toUpper = c) := by
  rcases toUpper_cases c with hfixed | ⟨hlower, hmoved⟩
  · rw [hfixed]
    exact ⟨rfl, fun _ => rfl⟩
  · rw [isSpace_of_letter (c := c) (by omega), isSpace_of_letter (c := c.toUpper) (by omega)]
    exact ⟨rfl, by simp⟩

theorem toUpper_toUpper (c : Char) : c.toUpper.toUpper = c.toUpper := by
  rcases toUpper_cases c with hfixed | ⟨hlower, hmoved⟩
  · rw [hfixed, hfixed]
  · rcases toUpper_cases c.toUpper with hfixed | ⟨hagain, -⟩
    · exact hfixed
    · omega

/-- The ASCII tables. -/
instance : LawfulCase where
  lower_blanks := keepsBlanks_map (fun c => (toLower_blank c).1) fun c => (toLower_blank c).2
  upper_blanks := keepsBlanks_map (fun c => (toUpper_blank c).1) fun c => (toUpper_blank c).2
  lower_lower s := by
    rw [← String.toList_inj]
    simp only [PyText.lower, String.toList_map, List.map_map]
    exact List.map_congr_left fun c _ => toLower_toLower c
  upper_upper s := by
    rw [← String.toList_inj]
    simp only [PyUpper.upper, String.toList_map, List.map_map]
    exact List.map_congr_left fun c _ => toUpper_toUpper c

/-! ## Texts -/

section Texts

variable [PyText] [PyRepr]

omit [PyText] [PyRepr] in
theorem intercalate_words (ws : List Text) :
    " ".intercalate (ws.map String.ofList) = String.ofList (joinWords ws) := by
  rw [← String.toList_inj, String.toList_intercalate, List.map_map]
  refine Eq.trans ?_ String.toList_ofList.symm
  unfold joinWords
  congr 1
  exact (List.map_congr_left fun w _ => by simp).trans (List.map_id _)

omit [PyText] in
theorem collapsed_eq {v : Json} (h : v ≠ .null) : collapsed v =
    if splitWords [] (stripChars (pyStr v).toList) = [] then none
    else some (String.ofList (joinWords (splitWords [] (stripChars (pyStr v).toList)))) := by
  rw [← intercalate_words]
  cases v with
  | null => exact absurd rfl h
  | _ => rfl

omit [PyText] in
/-- A text with single blanks keeps them. -/
theorem collapsed_of_joined {s : String} (h : Joined s) : collapsed (.str s) = some s := by
  obtain ⟨ws, hne, hws, hs⟩ := h
  have hsplit : splitWords [] (stripChars (pyStr (.str s)).toList) = ws := by
    simp only [pyStr]
    rw [hs, stripChars_joinWords hws, splitWords_joinWords hws]
  rw [collapsed_eq (by simp)]
  simp only [hsplit, hne, if_false]
  rw [← hs, String.ofList_toList]

omit [PyText] in
theorem joined_collapsed {v : Json} {s : String} (h : collapsed v = some s) : Joined s := by
  have hv : v ≠ .null := by
    rintro rfl
    cases h
  rw [collapsed_eq hv] at h
  split at h
  · cases h
  · rename_i hne
    obtain rfl := Option.some.inj h
    exact ⟨_, hne, words_splitWords (by simp), String.toList_ofList⟩

omit [PyText] in
theorem coerceString_again {v w : Json} (h : coerceString v = .ok w) : coerceString w = .ok w := by
  obtain rfl := Except.ok.inj h
  cases hc : collapsed v with
  | none => rfl
  | some s => simp [coerceString, jsonText, collapsed_of_joined (joined_collapsed hc)]

variable [PyUpper] [LawfulCase]

theorem coerceRegistration_again {v w : Json} (h : coerceRegistration v = .ok w) :
    coerceRegistration w = .ok w := by
  obtain rfl := Except.ok.inj h
  cases hc : collapsed v with
  | none => rfl
  | some s =>
      have hjoined := LawfulCase.upper_blanks.joined (joined_collapsed hc)
      simp [coerceRegistration, jsonText, collapsed_of_joined hjoined, LawfulCase.upper_upper]

theorem coerceFlightPhase_again {v w : Json} (h : coerceFlightPhase v = .ok w) :
    coerceFlightPhase w = .ok w := by
  obtain rfl := Except.ok.inj h
  cases hc : collapsed v with
  | none => rfl
  | some s =>
      have hjoined := LawfulCase.lower_blanks.joined (joined_collapsed hc)
      simp [coerceFlightPhase, jsonText, collapsed_of_joined hjoined, LawfulCase.lower_lower]

end Texts

/-! ## Dates -/

theorem isDigit_of_mem_padded {k n : Nat} {c : Char} (h : c ∈ padded k n) : c.isDigit = true := by
  unfold padded at h
  rcases List.mem_append.mp h with h | h
  · rw [List.eq_of_mem_replicate h]
    decide
  · exact isDigit_of_mem_toDigits h

theorem plain_of_digit {c : Char} (h : c.isDigit = true) :
    isSpace c = false ∧ c ≠ '-' ∧ c ≠ '.' ∧ c.toLower = c := by
  have hrange : 48 ≤ c.toNat ∧ c.toNat ≤ 57 := by
    simpa [Char.isDigit, UInt32.le_iff_toNat_le] using h
  refine ⟨?_, ?_, ?_, ?_⟩
  · unfold isSpace
    simp only [Bool.or_eq_false_iff, Bool.and_eq_false_iff, decide_eq_false_iff_not, beq_eq_false_iff_ne]
    omega
  · rintro rfl
    revert h
    decide
  · rintro rfl
    revert h
    decide
  · rcases toLower_cases c with ⟨hfixed, -⟩ | ⟨hupper, -⟩
    · exact hfixed
    · omega

theorem mem_isoformat {d : PyDate} {c : Char} (h : c ∈ d.isoformat.toList) :
    c.isDigit = true ∨ c = '-' := by
  unfold PyDate.isoformat at h
  simp only [String.toList_ofList, List.mem_append, List.mem_cons] at h
  rcases h with h | rfl | h | rfl | h
  · exact .inl (isDigit_of_mem_padded h)
  · exact .inr rfl
  · exact .inl (isDigit_of_mem_padded h)
  · exact .inr rfl
  · exact .inl (isDigit_of_mem_padded h)

theorem strip_isoformat (d : PyDate) : strip d.isoformat = d.isoformat := by
  unfold strip
  rw [stripChars_of_noSpace, String.ofList_toList]
  intro c hc
  rcases mem_isoformat hc with h | rfl
  · exact (plain_of_digit h).1
  · decide

theorem isoformat_ne_empty (d : PyDate) : d.isoformat ≠ "" := by
  intro h
  have hlist := congrArg String.toList h
  unfold PyDate.isoformat at hlist
  rw [String.toList_ofList] at hlist
  simp at hlist

section Dates

variable [PyText] [PyRepr] [PyIso]

omit [PyRepr] [PyIso] in
theorem decimalDigits_of_digits [LawfulDigits] {cs : Text} (h : ∀ c ∈ cs, c.isDigit = true) :
    ∃ ds, decimalDigits cs = some ds ∧ ds.length = cs.length := by
  induction cs with
  | nil => exact ⟨[], rfl, rfl⟩
  | cons c cs ih =>
      rw [List.forall_mem_cons] at h
      obtain ⟨ds, hds, hlength⟩ := ih h.2
      unfold decimalDigits at hds ⊢
      rw [List.mapM_cons, LawfulDigits.decimal_digit c h.1, hds]
      exact ⟨_, rfl, by simp [hlength]⟩

omit [PyRepr] [PyIso] in
theorem isIsoDate_isoformat [LawfulDigits] (d : PyDate) : isIsoDate d.isoformat.toList = true := by
  have hhyphen (k n : Nat) : ∀ c ∈ padded k n, decide (c = '-') = false := by
    intro c hc
    exact decide_eq_false (plain_of_digit (isDigit_of_mem_padded hc)).2.1
  have hsplit : d.isoformat.toList.splitOnP (fun c => c = '-') =
      [padded 4 d.year, padded 2 d.month, padded 2 d.day] := by
    unfold PyDate.isoformat
    rw [String.toList_ofList, List.splitOnP_append_cons_of_forall_mem (hhyphen 4 _) _ (by simp),
      List.splitOnP_append_cons_of_forall_mem (hhyphen 2 _) _ (by simp),
      List.splitOnP_eq_singleton (hhyphen 2 _)]
  obtain ⟨hyear, hmonth, hday⟩ := d.lengths
  obtain ⟨y, hy, hylength⟩ := @decimalDigits_of_digits _ _ (padded 4 d.year) fun c => isDigit_of_mem_padded
  obtain ⟨m, hm, hmlength⟩ := @decimalDigits_of_digits _ _ (padded 2 d.month) fun c => isDigit_of_mem_padded
  obtain ⟨n, hn, hnlength⟩ := @decimalDigits_of_digits _ _ (padded 2 d.day) fun c => isDigit_of_mem_padded
  unfold isIsoDate
  rw [hsplit]
  simp [hy, hm, hn, hylength, hmlength, hnlength, hyear, hmonth, hday]

/-- A coerced date is nothing or the text of a date. -/
theorem coerceDate_cases {v w : Json} (h : coerceDate v = .ok w) :
    w = .null ∨ ∃ d : PyDate, w = .str d.isoformat := by
  unfold coerceDate at h
  split at h
  · exact .inl (Except.ok.inj h).symm
  · dsimp only at h
    split at h
    · exact .inl (Except.ok.inj h).symm
    · split at h
      · split at h
        · exact .inr ⟨_, (Except.ok.inj h).symm⟩
        · cases h
      · split at h
        · exact .inr ⟨_, (Except.ok.inj h).symm⟩
        · split at h
          · exact .inr ⟨_, (Except.ok.inj h).symm⟩
          · cases h

omit [PyText] [PyIso] in
theorem isPresentBlank_of_strip {s : String} (hstrip : strip s = s) (hne : s ≠ "") :
    isPresentBlank (.str s) = false := by
  have hblank : isPresentBlank (.str s) = decide (strip s = "") := rfl
  rw [hblank, hstrip]
  exact decide_eq_false hne

/-- **Dates.**  A coerced date is not blank and is coerced to itself. -/
theorem coerceDate_again [LawfulDigits] [LawfulPyIso] {v w : Json} (h : coerceDate v = .ok w) :
    isPresentBlank w = false ∧ coerceDate w = .ok w := by
  rcases coerceDate_cases h with rfl | ⟨d, rfl⟩
  · simp [isPresentBlank, coerceDate]
  · have hne := isoformat_ne_empty d
    constructor
    · exact isPresentBlank_of_strip (strip_isoformat d) hne
    · simp only [coerceDate, pyStr, strip_isoformat, hne, if_false, isIsoDate_isoformat, if_true,
        LawfulPyIso.date_isoformat]

end Dates

/-! ## Counts -/

section Counts

variable [PyText] [PyRepr]

/-- The text of a count. -/
def countText (v : Json) : Text := stripChars (pyStr v).toList

/-- What `float` reads from the text of a count. -/
def countFloat (v : Json) : Option PyFloat := pyFloat ((countText v).map Char.toLower)

/-- The two steps of `coerce_non_negative_int` on a number that `float` reads. -/
def countOfFloat (v : Json) (f : PyFloat) : Except NormalizerError Json := do
  if '.' ∈ countText v then
    let n ← intOfFloat f
    require (f = .finite n) (.normalization v)
  match f with
  | .nan => .error (.normalization v)
  | f => do
      let n ← intOfFloat f
      require (0 ≤ n) (.normalization v)
      pure (.num (.int n))

theorem coerceNonNegativeInt_eq {v : Json} (h : v ≠ .null) : coerceNonNegativeInt v =
    match countFloat v with
    | none => .error (.normalization v)
    | some f => countOfFloat v f := by
  cases v with
  | null => exact absurd rfl h
  | _ => rfl

omit [PyText] in
/-- An infinite count overflows. -/
theorem countOfFloat_inf (v : Json) (negative : Bool) : countOfFloat v (.inf negative) = .error .overflow := by
  by_cases hpoint : '.' ∈ countText v
  · simp only [countOfFloat, hpoint, if_true]
    rfl
  · simp only [countOfFloat, hpoint, if_false]
    rfl

omit [PyText] [PyRepr] in
/-- The integer of a number that is no negative one is a double. -/
theorem roundDouble_intOfFloat {q : ℚ} (hq : roundDouble q = .finite q) {n : Int}
    (h : intOfFloat (.finite q) = .ok n) (hn : 0 ≤ n) : roundDouble n = .finite n := by
  unfold intOfFloat at h
  obtain rfl := Except.ok.inj h
  by_cases hpos : 0 ≤ q
  · rw [if_pos hpos]
    exact roundDouble_floor hpos hq
  · rw [if_neg hpos] at hn ⊢
    have hle : ⌈q⌉ ≤ 0 := Int.ceil_le.mpr (by exact_mod_cast (not_le.mp hpos).le)
    have hzero : ⌈q⌉ = 0 := by omega
    rw [hzero, Int.cast_zero, roundDouble_zero]

omit [PyText] in
/-- A finite one is refused or an integer that is a double. -/
theorem countOfFloat_finite (v : Json) {q : ℚ} (hq : roundDouble q = .finite q) :
    countOfFloat v (.finite q) = .error (.normalization v) ∨
      ∃ n : Int, 0 ≤ n ∧ roundDouble n = .finite n ∧ countOfFloat v (.finite q) = .ok (.num (.int n)) := by
  obtain ⟨n, hint⟩ : ∃ n, intOfFloat (.finite q) = .ok n := ⟨_, rfl⟩
  have hlast : (do
      let n ← intOfFloat (.finite q)
      require (0 ≤ n) (.normalization v)
      pure (.num (.int n)) : Except NormalizerError Json) =
        if 0 ≤ n then .ok (.num (.int n)) else .error (.normalization v) := by
    rw [hint, ok_bind]
    unfold require
    split <;> rfl
  have hcount : countOfFloat v (.finite q) =
      if '.' ∈ countText v ∧ ¬ PyFloat.finite q = .finite n then .error (.normalization v)
      else if 0 ≤ n then .ok (.num (.int n)) else .error (.normalization v) := by
    rw [← hlast]
    by_cases hpoint : '.' ∈ countText v
    · simp only [countOfFloat, hpoint, if_true, true_and]
      rw [hint, ok_bind, require]
      split <;> rfl
    · simp only [countOfFloat, hpoint, if_false, false_and]
  rw [hcount]
  split
  · exact .inl rfl
  · split
    · rename_i hn
      exact .inr ⟨n, hn, roundDouble_intOfFloat hq hint hn, rfl⟩
    · exact .inl rfl

/-- A text with a point is no NaN. -/
theorem countOfFloat_nan {v : Json} (h : countFloat v = some .nan) :
    countOfFloat v .nan = .error (.normalization v) := by
  have hpoint : '.' ∉ countText v := by
    intro hmem
    have hlower : '.' ∈ (countText v).map Char.toLower := List.mem_map.mpr ⟨'.', hmem, by decide⟩
    have hnan := pyFloat_eq_nan.mp h
    simp only [nanTexts, List.mem_cons, List.not_mem_nil, or_false] at hnan
    rcases hnan with hnan | hnan | hnan
    all_goals
      rw [hnan] at hlower
      revert hlower
      decide
  simp only [countOfFloat, hpoint, if_false]

/-- **Counts.**  What a count is coerced to. -/
theorem coerceNonNegativeInt_cases {v : Json} (hv : v ≠ .null) :
    ((∃ negative, countFloat v = some (.inf negative)) ∧ coerceNonNegativeInt v = .error .overflow) ∨
      ((¬ ∃ negative, countFloat v = some (.inf negative)) ∧
        (coerceNonNegativeInt v = .error (.normalization v) ∨
          ∃ n : Int, 0 ≤ n ∧ roundDouble n = .finite n ∧
            coerceNonNegativeInt v = .ok (.num (.int n)))) := by
  rw [coerceNonNegativeInt_eq hv]
  cases hread : countFloat v with
  | none => exact .inr ⟨by simp, .inl rfl⟩
  | some f =>
      cases f with
      | inf negative => exact .inl ⟨⟨negative, rfl⟩, countOfFloat_inf v negative⟩
      | nan => exact .inr ⟨by simp, .inl (countOfFloat_nan hread)⟩
      | finite q => exact .inr ⟨by simp, countOfFloat_finite v (roundDouble_pyFloat hread).2⟩

/-- A count that is a double is coerced to itself. -/
theorem coerceNonNegativeInt_double [LawfulDigits] {n : Int} (hn : 0 ≤ n)
    (h : roundDouble n = .finite n) : coerceNonNegativeInt (.num (.int n)) = .ok (.num (.int n)) := by
  have hdigits : (toString n).toList = Nat.toDigits 10 n.toNat := by
    rw [toList_toString_int, if_pos hn]
  have htext : countText (.num (.int n)) = Nat.toDigits 10 n.toNat := by
    unfold countText
    rw [show pyStr (.num (.int n)) = toString n from rfl, hdigits]
    exact stripChars_of_noSpace fun c hc => (plain_of_digit (isDigit_of_mem_toDigits hc)).1
  have hlower : (Nat.toDigits 10 n.toNat).map Char.toLower = Nat.toDigits 10 n.toNat :=
    (List.map_congr_left fun c hc =>
      (plain_of_digit (isDigit_of_mem_toDigits hc)).2.2.2).trans (List.map_id _)
  have hnat : ((n.toNat : Nat) : ℚ) = n := by exact_mod_cast Int.toNat_of_nonneg hn
  have hread : countFloat (.num (.int n)) = some (.finite n) := by
    unfold countFloat
    rw [htext, hlower, pyFloat_toDigits, hnat, h]
  have hpoint : '.' ∉ countText (.num (.int n)) := by
    rw [htext]
    intro hmem
    exact (plain_of_digit (isDigit_of_mem_toDigits hmem)).2.2.1 rfl
  have hint : intOfFloat (.finite n) = .ok n := by
    have hcast : (0 : ℚ) ≤ n := by exact_mod_cast hn
    simp [intOfFloat, hcast]
  rw [coerceNonNegativeInt_eq (by simp), hread]
  simp only [countOfFloat, hpoint, if_false]
  rw [hint]
  simp [require, hn, pure, Except.pure, bind, Except.bind]

theorem coerceNonNegativeInt_again [LawfulDigits] {v w : Json} (h : coerceNonNegativeInt v = .ok w) :
    coerceNonNegativeInt w = .ok w := by
  by_cases hv : v = .null
  · subst hv
    obtain rfl := Except.ok.inj h
    rfl
  · rcases coerceNonNegativeInt_cases hv with ⟨-, herr⟩ | ⟨-, herr | ⟨n, hn, hround, hok⟩⟩
    · rw [herr] at h
      cases h
    · rw [herr] at h
      cases h
    · rw [hok] at h
      obtain rfl := Except.ok.inj h
      exact coerceNonNegativeInt_double hn hround

end Counts

end Atlas
