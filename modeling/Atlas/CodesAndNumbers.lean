import Atlas.FloatTexts

/-!
# Codes and numbers

`_coerce_numeric` leaves a digit string with a leading zero to its second branch, and there `float`
reads it.  So `"007"` and `"7"` have one normal form, and so has every text that `float` reads with
the same text behind two zeros.  Only a text that `float` does not read is kept apart from all
others, or one that the first branch reads as an integer that is no double.
-/

namespace Atlas

/-! ## Normal forms of texts -/

section Texts

variable [PyText]

/-- The text is how `str` writes the integer that `int` reads from it. -/
def CanonicalInteger (cs : Text) (n : Int) : Prop := pyInt cs = some n ∧ (toString n).toList = cs

theorem CanonicalInteger.pyFloat {cs : Text} {n : Int} (h : CanonicalInteger cs n) :
    Atlas.pyFloat cs = some (roundDouble n) := by
  refine pyFloat_of_pyInt h.1 ?_
  rw [← h.2, signPart_toString_int]
  exact toDigits_notMem_floatNames _

/-- A canonical integer is kept as it is. -/
theorem coerceNumeric_of_canonical {s : String} {n : Int} (hs : strip s = s)
    (h : CanonicalInteger s.toList n) : coerceNumeric s = .num (.finite n) := by
  have htext : toString n = s := String.toList_inj.mp h.2
  have hzero : s = "0" ∨ s.toList.head? ≠ some '0' := by
    rcases lt_trichotomy n 0 with hn | rfl | hn
    · rw [← h.2, toList_toString_int, if_neg (by omega)]
      exact .inr (by simp)
    · exact .inl htext.symm
    · rw [← h.2, toList_toString_int, if_pos hn.le]
      exact .inr (head_toDigits (by omega))
  unfold coerceNumeric
  rw [hs]
  dsimp only
  rw [h.1]
  exact if_pos ⟨htext, hzero⟩

/-- A text that is no canonical integer is read as a number by `float` or stays. -/
theorem coerceNumeric_of_not_canonical {s : String} (hs : strip s = s)
    (h : ∀ n, ¬ CanonicalInteger s.toList n) :
    coerceNumeric s = ((Atlas.pyFloat s.toList).map PyVal.num).getD (.str s) := by
  rcases coerceNumeric_eq s with ⟨n, hcanonical, -⟩ | hfloat
  · rw [hs] at hcanonical
    exact absurd ⟨hcanonical.1, congrArg String.toList hcanonical.2⟩ (h n)
  · rw [hfloat, hs]

/-- `float` reads the text as a number, and as an integer if it is one. -/
def Reads (cs : Text) (f : PyFloat) : Prop :=
  Atlas.pyFloat cs = some f ∧ f ≠ .nan ∧ ∀ n, CanonicalInteger cs n → f = .finite n

/-- No other text has the normal form of this one: `float` refuses it, or reads a NaN, or the text is
an integer that is no double. -/
def ReadAlone (cs : Text) : Prop :=
  Atlas.pyFloat cs = none ∨ cs ∈ nanTexts ∨
    ∃ n : Int, CanonicalInteger cs n ∧ roundDouble n ≠ .finite n

theorem not_readAlone {cs : Text} : ¬ ReadAlone cs ↔ ∃ f, Reads cs f := by
  unfold ReadAlone Reads
  constructor
  · intro h
    rw [not_or, not_or] at h
    obtain ⟨hread, hnan, hcanonical⟩ := h
    obtain ⟨f, hf⟩ := Option.ne_none_iff_exists'.mp hread
    refine ⟨f, hf, ?_, ?_⟩
    · rintro rfl
      exact hnan (pyFloat_eq_nan.mp hf)
    · intro n hn
      have hround : roundDouble n = .finite n := by
        by_contra hne
        exact hcanonical ⟨n, hn, hne⟩
      have hread := hn.pyFloat
      rw [hf, hround] at hread
      exact Option.some.inj hread
  · rintro ⟨f, hf, hnan, hcanonical⟩ (hnone | htext | ⟨n, hn, hround⟩)
    · rw [hf] at hnone
      cases hnone
    · rw [pyFloat_eq_nan.mpr htext] at hf
      exact hnan (Option.some.inj hf).symm
    · rw [hn.pyFloat] at hf
      exact hround ((Option.some.inj hf).trans (hcanonical n hn))

/-- A text that is read has the number for its normal form. -/
theorem Reads.coerceNumeric {s : String} {f : PyFloat} (hs : strip s = s) (h : Reads s.toList f) :
    Atlas.coerceNumeric s = .num f := by
  by_cases hcanonical : ∃ n, CanonicalInteger s.toList n
  · obtain ⟨n, hn⟩ := hcanonical
    rw [coerceNumeric_of_canonical hs hn, h.2.2 n hn]
  · rw [coerceNumeric_of_not_canonical hs (not_exists.mp hcanonical), h.1]
    rfl

end Texts

/-! ## Texts with one normal form -/

section SameForm

variable [PyText]

/-- Two values are taken for one. -/
def SameNormalForm (a b : Json) : Prop := (normalizeValue a).pyEq (normalizeValue b) = true

/-- The normal form of a text that is not read. -/
theorem normalForm_of_readAlone {s : String} (h : ReadAlone (collapse s).toList) :
    normalizeValue (.str s) = .str (collapse s) ∨ normalizeValue (.str s) = .num .nan ∨
      ∃ n : Int, CanonicalInteger (collapse s).toList n ∧ roundDouble n ≠ .finite n ∧
        normalizeValue (.str s) = .num (.finite n) := by
  simp only [normalizeValue]
  rcases h with hnone | hnan | ⟨n, hn, hround⟩
  · refine .inl ?_
    have hcanonical (n : Int) : ¬ CanonicalInteger (collapse s).toList n := by
      intro hn
      rw [hn.pyFloat] at hnone
      cases hnone
    rw [coerceNumeric_of_not_canonical (strip_collapse s) hcanonical, hnone]
    rfl
  · exact .inr (.inl (coerceNumeric_eq_nan.mpr (by rwa [strip_collapse])))
  · exact .inr (.inr ⟨n, hn, hround, coerceNumeric_of_canonical (strip_collapse s) hn⟩)

theorem Reads.normalForm {s : String} {f : PyFloat} (h : Reads (collapse s).toList f) :
    normalizeValue (.str s) = .num f := by
  simp only [normalizeValue]
  exact h.coerceNumeric (strip_collapse s)

/-- A text that is not read shares its normal form with no other. -/
theorem collapse_eq_of_readAlone {s t : String} (h : ReadAlone (collapse s).toList)
    (hsame : SameNormalForm (.str s) (.str t)) : collapse s = collapse t := by
  unfold SameNormalForm PyVal.pyEq at hsame
  rw [Bool.and_eq_true, decide_eq_true_iff] at hsame
  obtain ⟨hsame, hnan⟩ := hsame
  by_cases ht : ReadAlone (collapse t).toList
  · rcases normalForm_of_readAlone h with hs | hs | ⟨n, hn, -, hs⟩
    · rw [hs] at hsame
      rcases normalForm_of_readAlone ht with ht | ht | ⟨m, -, -, ht⟩
      · exact PyVal.str.inj (hsame.trans ht)
      · cases hsame.trans ht
      · cases hsame.trans ht
    · rw [hs] at hnan
      cases hnan
    · rw [hs] at hsame
      rcases normalForm_of_readAlone ht with ht | ht | ⟨m, hm, -, ht⟩
      · cases hsame.trans ht
      · cases hsame.trans ht
      · have hint : n = m := by
          exact_mod_cast PyFloat.finite.inj (PyVal.num.inj (hsame.trans ht))
        rw [← String.toList_inj, ← hn.2, ← hm.2, hint]
  · obtain ⟨f, hf⟩ := not_readAlone.mp ht
    rw [hf.normalForm] at hsame
    rcases normalForm_of_readAlone h with hs | hs | ⟨n, hn, hround, hs⟩
    · cases hs.symm.trans hsame
    · rw [hs] at hnan
      cases hnan
    · obtain rfl := PyVal.num.inj (hs.symm.trans hsame)
      exact absurd (roundDouble_pyFloat hf.1).2 hround

/-! ## Numerals and codes -/

/-- The value of some digits. -/
def decimalValue (digits : Text) : Nat := digits.foldl (fun v c => v * 10 + (c.toNat - '0'.toNat)) 0

/-- A decimal numeral without a significant leading zero, and the number it denotes. -/
def PlainNumeral (cs : Text) (x : ℚ) : Prop :=
  ∃ (sign whole places : Text), sign ∈ [[], ['-'], ['+']] ∧
    (∀ c ∈ whole ++ places, c.isDigit = true) ∧ whole ≠ [] ∧
    (whole = ['0'] ∨ whole.head? ≠ some '0') ∧
    cs = sign ++ whole ++ (if places = [] then [] else '.' :: places) ∧
    x = (if sign = ['-'] then -1 else 1) * (decimalValue (whole ++ places) / 10 ^ places.length)

/-- A digit string with a leading zero. -/
def LeadingZeroCode (cs : Text) : Prop :=
  2 ≤ cs.length ∧ cs.head? = some '0' ∧ ∀ c ∈ cs, c.isDigit = true

theorem LeadingZeroCode.not_canonical {cs : Text} (h : LeadingZeroCode cs) {n : Int} :
    ¬ CanonicalInteger cs n := by
  rintro ⟨-, rfl⟩
  obtain ⟨hlength, hhead, -⟩ := h
  have hunsigned : Unsigned (toString n).toList := by
    intro c hc
    obtain rfl := Option.some.inj (hhead.symm.trans hc)
    decide
  have hdigits := signPart_toString_int n
  rw [signPart_unsigned hunsigned] at hdigits
  dsimp only at hdigits
  rw [hdigits] at hlength hhead
  rcases Nat.eq_zero_or_pos n.natAbs with hzero | hpos
  · rw [hzero] at hlength
    simp at hlength
  · exact head_toDigits hpos hhead

/-- Codes are not numbers, for one text: another text has its normal form only if both are numerals
of one number; and if it is a code, no text and no number has. -/
structure KeptApart (s : String) : Prop where
  texts : ∀ t, collapse s ≠ collapse t → SameNormalForm (.str s) (.str t) →
    ∃ x, PlainNumeral (collapse s).toList x ∧ PlainNumeral (collapse t).toList x
  codes : LeadingZeroCode (collapse s).toList →
    (∀ t, collapse s ≠ collapse t → ¬ SameNormalForm (.str s) (.str t)) ∧
      ∀ n : PyNum, ¬ SameNormalForm (.str s) (.num n)

omit [PyText] in
/-- Behind the sign of a numeral stands a digit, and behind a zero there no digit. -/
theorem PlainNumeral.behind_sign {cs : Text} {x : ℚ} (h : PlainNumeral cs x) :
    ∃ c rest, (signPart cs).2 = c :: rest ∧ c.isDigit = true ∧ (c = '0' → rest.head? ≠ some '0') := by
  obtain ⟨sign, whole, places, hsign, hdigits, hne, hzero, rfl, -⟩ := h
  obtain ⟨c, whole, rfl⟩ := List.exists_cons_of_ne_nil hne
  have hc : c.isDigit = true := hdigits c (by simp)
  refine ⟨c, whole ++ (if places = [] then [] else '.' :: places), ?_, hc, ?_⟩
  · rw [List.append_assoc, List.cons_append]
    simp only [List.mem_cons, List.not_mem_nil, or_false] at hsign
    rcases hsign with rfl | rfl | rfl
    · rw [List.nil_append, signPart_unsigned]
      intro d hd
      obtain rfl := Option.some.inj hd
      constructor
      · rintro rfl
        revert hc
        decide
      · rintro rfl
        revert hc
        decide
    · rfl
    · rfl
  · rintro rfl
    rcases hzero with hzero | hzero
    · obtain rfl := (List.cons_eq_cons.mp hzero).2
      split <;> simp
    · exact absurd rfl hzero

variable [LawfulPyText]

theorem letter_minus : Letter '-' := letter_of_ascii (by decide) (by decide) (by decide)

theorem letter_plus : Letter '+' := letter_of_ascii (by decide) (by decide) (by decide)

theorem letter_zero : Letter '0' := letter_of_ascii (by decide) (by decide) (by decide)

/-- Two zeros may be put behind the sign of a collapsed text. -/
theorem Collapsed.zeros {cs : Text} (h : Collapsed cs) :
    Collapsed (behindSign cs ('0' :: '0' :: (signPart cs).2)) := by
  rcases sign_cases cs with ⟨r, rfl⟩ | ⟨r, rfl⟩ | hcs
  · exact (h.insert letter_minus letter_zero).insert letter_minus letter_zero
  · exact (h.insert letter_plus letter_zero).insert letter_plus letter_zero
  · rw [behindSign_unsigned hcs, signPart_unsigned hcs]
    exact (h.cons letter_zero).cons letter_zero

theorem collapsed_name (cs : Text) {name : Text} (h : ∀ c ∈ name, Letter c) :
    Collapsed (behindSign cs name) := by
  have hname := collapsed_of_letters h
  rcases sign_cases cs with ⟨r, rfl⟩ | ⟨r, rfl⟩ | hcs
  · exact hname.cons letter_minus
  · exact hname.cons letter_plus
  · rwa [behindSign_unsigned hcs]

/-- Another text behind the sign, and read as the same number, has the same normal form. -/
theorem same_form_of_behindSign {s : String} {f : PyFloat} {more : Text}
    (h : Reads (collapse s).toList f) (hmore : Unsigned more) (hne : (signPart (collapse s).toList).2 ≠ more)
    (hcollapsed : Collapsed (behindSign (collapse s).toList more))
    (hread : pyFloat (behindSign (collapse s).toList more) = some f)
    (hdigits : ∀ n : Nat, Nat.toDigits 10 n ≠ more)
    (hplain : ∀ c rest, more = c :: rest → c.isDigit = true → c = '0' ∧ rest.head? = some '0') :
    ∃ t, collapse s ≠ collapse t ∧ SameNormalForm (.str s) (.str t) ∧
      ∀ x, ¬ PlainNumeral (collapse t).toList x := by
  have hsign := signPart_behindSign (collapse s).toList hmore
  have ht := hcollapsed.collapse_ofList
  have htext : (collapse (String.ofList (behindSign (collapse s).toList more))).toList =
      behindSign (collapse s).toList more := by rw [ht, String.toList_ofList]
  have htreads : Reads (collapse (String.ofList (behindSign (collapse s).toList more))).toList f := by
    rw [htext]
    refine ⟨hread, h.2.1, ?_⟩
    rintro n ⟨-, hn⟩
    have hdig := signPart_toString_int n
    rw [hn, hsign] at hdig
    exact absurd hdig.symm (hdigits _)
  refine ⟨String.ofList (behindSign (collapse s).toList more), ?_, ?_, ?_⟩
  · intro heq
    rw [← heq] at htext
    rw [← htext] at hsign
    exact hne (congrArg Prod.snd hsign)
  · unfold SameNormalForm PyVal.pyEq
    rw [h.normalForm, htreads.normalForm, Bool.and_eq_true, decide_eq_true_iff]
    refine ⟨rfl, ?_⟩
    have hnan := h.2.1
    cases f <;> simp_all [PyVal.hasNan]
  · intro x hx
    rw [htext] at hx
    obtain ⟨c, rest, hcs, hc, hzero⟩ := hx.behind_sign
    rw [hsign] at hcs
    obtain ⟨hc0, hrest⟩ := hplain c rest hcs hc
    exact hzero hc0 hrest

variable [LawfulDigits]

/-- A text that is read shares its normal form with another that is no numeral. -/
theorem exists_same_form {s : String} {f : PyFloat} (h : Reads (collapse s).toList f) :
    ∃ t, collapse s ≠ collapse t ∧ SameNormalForm (.str s) (.str t) ∧
      ∀ x, ¬ PlainNumeral (collapse t).toList x := by
  have hcs := collapsed_collapse s
  cases f with
  | finite q =>
      refine same_form_of_behindSign h (by simp [Unsigned]) ?_ hcs.zeros (pyFloat_zeros h.1) ?_ ?_
      · intro heq
        have hlength := congrArg List.length heq
        simp at hlength
        omega
      · intro n hn
        rcases Nat.eq_zero_or_pos n with rfl | hpos
        · simp at hn
        · exact head_toDigits hpos (by rw [hn]; rfl)
      · intro c rest heq _
        obtain ⟨rfl, rfl⟩ := List.cons_eq_cons.mp heq
        exact ⟨rfl, rfl⟩
  | inf negative =>
      have hname (name : Text) (hne : (signPart (collapse s).toList).2 ≠ name)
          (hinf : name = "inf".toList ∨ name = "infinity".toList) :
          ∃ t, collapse s ≠ collapse t ∧ SameNormalForm (.str s) (.str t) ∧
            ∀ x, ¬ PlainNumeral (collapse t).toList x := by
        have hall : name.all (fun c => decide (c.toNat < 128 ∧ c.toLower = c ∧ isSpace c = false)) =
            true := by
          rcases hinf with rfl | rfl <;> decide
        have hletters : ∀ c ∈ name, c.toNat < 128 ∧ c.toLower = c ∧ isSpace c = false := fun c hc =>
          of_decide_eq_true (List.all_eq_true.mp hall c hc)
        have hhead : name.head? = some 'i' := by rcases hinf with rfl | rfl <;> rfl
        refine same_form_of_behindSign h ?_ hne ?_ (pyFloat_infinity hinf h.1) ?_ ?_
        · intro c hc
          obtain rfl := Option.some.inj (hhead.symm.trans hc)
          decide
        · refine collapsed_name _ fun c hc => ?_
          obtain ⟨hascii, hlower, hspace⟩ := hletters c hc
          exact letter_of_ascii hascii hlower hspace
        · rintro n rfl
          have hi := isDigit_of_mem_toDigits (List.mem_of_mem_head? hhead)
          revert hi
          decide
        · rintro c rest rfl hc
          have hi : 'i'.isDigit = false := by decide
          obtain rfl := Option.some.inj hhead
          rw [hi] at hc
          cases hc
      by_cases hinf : (signPart (collapse s).toList).2 = "inf".toList
      · refine hname "infinity".toList ?_ (.inr rfl)
        rw [hinf]
        decide
      · exact hname "inf".toList hinf (.inl rfl)
  | nan => exact absurd rfl h.2.1

/-- **Codes and numbers.**  A text is kept apart from all others exactly when it is read alone. -/
theorem codes_kept_apart_iff (s : String) : KeptApart s ↔ ReadAlone (collapse s).toList := by
  constructor
  · intro h
    by_contra hread
    obtain ⟨f, hf⟩ := not_readAlone.mp hread
    obtain ⟨t, hne, hsame, hplain⟩ := exists_same_form hf
    obtain ⟨x, -, hx⟩ := h.texts t hne hsame
    exact hplain x hx
  · intro h
    have halone (t : String) (hne : collapse s ≠ collapse t) : ¬ SameNormalForm (.str s) (.str t) :=
      fun hsame => hne (collapse_eq_of_readAlone h hsame)
    refine ⟨fun t hne hsame => absurd hsame (halone t hne), fun hcode => ⟨halone, fun n hsame => ?_⟩⟩
    unfold SameNormalForm PyVal.pyEq at hsame
    rw [Bool.and_eq_true, decide_eq_true_iff] at hsame
    obtain ⟨hsame, hnan⟩ := hsame
    rcases normalForm_of_readAlone h with hs | hs | ⟨m, hm, -, hs⟩
    · rw [hs] at hsame
      simp [normalizeValue] at hsame
    · rw [hs] at hnan
      cases hnan
    · exact hcode.not_canonical hm

end SameForm

/-- A name is kept apart. -/
theorem name_kept_apart : KeptApart "Boeing" :=
  (codes_kept_apart_iff "Boeing").mpr (.inl (by decide +kernel))

/-- The code `"007"` is taken for the number seven. -/
theorem code_read_as_number :
    LeadingZeroCode (collapse "007").toList ∧ collapse "007" ≠ collapse "7" ∧
      SameNormalForm (.str "007") (.str "7") ∧ ¬ KeptApart "007" := by
  have hcode : LeadingZeroCode (collapse "007").toList := by
    exact ⟨by decide +kernel, by decide +kernel, List.all_eq_true.mp (by decide +kernel)⟩
  have hclosed : collapse "007" ≠ collapse "7" ∧
      (normalizeValue (.str "007")).pyEq (normalizeValue (.str "7")) = true := by decide +kernel
  exact ⟨hcode, hclosed.1, hclosed.2, fun h => (h.codes hcode).1 "7" hclosed.1 hclosed.2⟩

end Atlas
