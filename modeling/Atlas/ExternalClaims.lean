import Atlas.Coercers

/-!
# Normalising the claims of an external source

The loop catches one kind of exception.  `int(float(text))` raises another for a text that `float`
reads as infinite, and then the whole submission fails because of a count.  Otherwise every claim
is kept in its place, with a coerced value or its raw one, and normalising again changes nothing.
-/

namespace Atlas

open Outcome

section External

variable [PyText] [PyRepr] [PyUpper] [PyIso]

/-- The fields with counts. -/
def IsCount (fieldName : String) : Prop := fieldName = "fatalities_total" ∨ fieldName = "injuries_total"

/-- The claim is a count that `float` reads as infinite. -/
def InfiniteCount (mapper : Option SourceFieldMapper) (c : NormalisedClaim) : Prop :=
  IsCount (externalFieldName mapper c.fieldName) ∧ c.fieldValue ≠ .null ∧
    ∃ negative, countFloat c.fieldValue = some (.inf negative)

/-- The claim is a date that is blank or no date. -/
def RefusedDate (mapper : Option SourceFieldMapper) (c : NormalisedClaim) : Prop :=
  externalFieldName mapper c.fieldName = "event_date" ∧
    (isPresentBlank c.fieldValue = true ∨ ∃ e, coerceDate c.fieldValue = .error e)

/-- The exception is a `NormalizationError`. -/
def NormalizerError.IsNormalization : NormalizerError → Prop
  | .normalization _ => True
  | .blankEventDate => True
  | _ => False

/-- The coerced value, or the raw one where it cannot be coerced. -/
def keptValue (fieldName : String) (value : Json) : Json :=
  match fieldCoercer fieldName with
  | none => value
  | some coerce =>
      match coerce value with
      | .ok coerced => coerced
      | .error _ => value

/-- The claim under its name, with the value that is kept. -/
def keptClaim (mapper : Option SourceFieldMapper) (c : NormalisedClaim) : NormalisedClaim :=
  ⟨externalFieldName mapper c.fieldName, keptValue (externalFieldName mapper c.fieldName) c.fieldValue⟩

/-! ## One claim -/

/-- The coercers: two that may fail, and others that take every value and leave their results alone. -/
theorem fieldCoercer_cases [LawfulCase] (fieldName : String) :
    (fieldName = "event_date" ∧ fieldCoercer fieldName = some coerceDate) ∨
      (IsCount fieldName ∧ fieldCoercer fieldName = some coerceNonNegativeInt) ∨
      (fieldName ≠ "event_date" ∧ ¬ IsCount fieldName ∧
        (fieldCoercer fieldName = none ∨ ∃ coerce, fieldCoercer fieldName = some coerce ∧
          ∀ v, ∃ w, coerce v = .ok w ∧ coerce w = .ok w)) := by
  unfold fieldCoercer
  by_cases hdate : fieldName = "event_date"
  · exact .inl ⟨hdate, if_pos hdate⟩
  · by_cases hcount : IsCount fieldName
    · exact .inr (.inl ⟨hcount, (if_neg hdate).trans (if_pos hcount)⟩)
    · unfold IsCount at hcount ⊢
      rw [if_neg hdate, if_neg hcount]
      refine .inr (.inr ⟨hdate, hcount, ?_⟩)
      split_ifs
      · exact .inr ⟨_, rfl, fun v => ⟨_, rfl, coerceRegistration_again rfl⟩⟩
      · exact .inr ⟨_, rfl, fun v => ⟨_, rfl, coerceFlightPhase_again rfl⟩⟩
      · exact .inr ⟨_, rfl, fun v => ⟨_, rfl, coerceString_again rfl⟩⟩
      · exact .inl rfl

omit [PyUpper] in
theorem coerceDate_error {v : Json} {e : NormalizerError} (h : coerceDate v = .error e) :
    e = .normalization v := by
  unfold coerceDate at h
  split at h
  · cases h
  · dsimp only at h
    split at h
    · cases h
    · split at h
      · split at h
        · cases h
        · exact (Except.error.inj h).symm
      · split at h
        · cases h
        · split at h
          · cases h
          · exact (Except.error.inj h).symm

theorem normalizeClaim_none {mapper : Option SourceFieldMapper} {c : NormalisedClaim}
    (h : fieldCoercer (externalFieldName mapper c.fieldName) = none) :
    normalizeClaim mapper c = .ok (keptClaim mapper c) := by
  unfold normalizeClaim keptClaim keptValue
  dsimp only
  rw [h]

/-- A claim whose value is coerced. -/
theorem normalizeClaim_ok {mapper : Option SourceFieldMapper} {c : NormalisedClaim}
    {coerce : Json → Except NormalizerError Json} {w : Json}
    (hcoercer : fieldCoercer (externalFieldName mapper c.fieldName) = some coerce)
    (hblank : ¬ (externalFieldName mapper c.fieldName = "event_date" ∧ isPresentBlank c.fieldValue = true))
    (h : coerce c.fieldValue = .ok w) : normalizeClaim mapper c = .ok (keptClaim mapper c) := by
  unfold normalizeClaim keptClaim keptValue
  dsimp only
  rw [hcoercer]
  dsimp only
  rw [if_neg hblank, h]

/-- The except clause: a `NormalizationError` counts only for the fields of the identity. -/
def exceptClause (mapper : Option SourceFieldMapper) (c : NormalisedClaim) :
    NormalizerError → Except NormalizerError NormalisedClaim
  | .normalization v =>
      if identityCritical (externalFieldName mapper c.fieldName) then .error (.normalization v)
      else .ok (keptClaim mapper c)
  | e => .error e

/-- A claim whose value cannot be coerced. -/
theorem normalizeClaim_error {mapper : Option SourceFieldMapper} {c : NormalisedClaim}
    {coerce : Json → Except NormalizerError Json} {e : NormalizerError}
    (hcoercer : fieldCoercer (externalFieldName mapper c.fieldName) = some coerce)
    (hblank : ¬ (externalFieldName mapper c.fieldName = "event_date" ∧ isPresentBlank c.fieldValue = true))
    (h : coerce c.fieldValue = .error e) : normalizeClaim mapper c = exceptClause mapper c e := by
  unfold normalizeClaim exceptClause keptClaim keptValue
  dsimp only
  rw [hcoercer]
  dsimp only
  rw [if_neg hblank, h]
  cases e <;> rfl

/-- **One claim** is kept, or refused for its date, or overflows. -/
theorem normalizeClaim_cases [LawfulCase] (mapper : Option SourceFieldMapper) (c : NormalisedClaim) :
    (InfiniteCount mapper c ∧ normalizeClaim mapper c = .error .overflow) ∨
      (RefusedDate mapper c ∧
        ∃ e, NormalizerError.IsNormalization e ∧ normalizeClaim mapper c = .error e) ∨
      (¬ InfiniteCount mapper c ∧ ¬ RefusedDate mapper c ∧
        normalizeClaim mapper c = .ok (keptClaim mapper c)) := by
  rcases fieldCoercer_cases (externalFieldName mapper c.fieldName) with
    ⟨hname, hcoercer⟩ | ⟨hcount, hcoercer⟩ | ⟨hdate, hcount, hcoercer⟩
  · -- a date
    have hfinite : ¬ InfiniteCount mapper c := by
      rintro ⟨hcount, -⟩
      rw [hname] at hcount
      exact absurd hcount (by unfold IsCount; decide)
    by_cases hblank : isPresentBlank c.fieldValue = true
    · refine .inr (.inl ⟨⟨hname, .inl hblank⟩, .blankEventDate, trivial, ?_⟩)
      unfold normalizeClaim
      dsimp only
      rw [hcoercer]
      exact if_pos ⟨hname, hblank⟩
    · cases hcoerce : coerceDate c.fieldValue with
      | ok w =>
          refine .inr (.inr ⟨hfinite, ?_, normalizeClaim_ok hcoercer (fun h => hblank h.2) hcoerce⟩)
          rintro ⟨-, h | ⟨e, he⟩⟩
          · exact hblank h
          · rw [hcoerce] at he
            cases he
      | error e =>
          refine .inr (.inl ⟨⟨hname, .inr ⟨e, hcoerce⟩⟩, e, ?_, ?_⟩)
          · rw [coerceDate_error hcoerce]
            trivial
          · rw [normalizeClaim_error hcoercer (fun h => hblank h.2) hcoerce, coerceDate_error hcoerce]
            exact if_pos (by rw [hname]; rfl)
  · -- a count
    have hname : externalFieldName mapper c.fieldName ≠ "event_date" := by
      intro hname
      rw [hname] at hcount
      exact absurd hcount (by unfold IsCount; decide)
    have hcritical : identityCritical (externalFieldName mapper c.fieldName) = false := by
      rcases hcount with h | h <;> rw [h] <;> decide
    have hrefused : ¬ RefusedDate mapper c := fun h => hname h.1
    have hblank := fun h : externalFieldName mapper c.fieldName = "event_date" ∧
      isPresentBlank c.fieldValue = true => hname h.1
    by_cases hv : c.fieldValue = .null
    · refine .inr (.inr ⟨fun h => h.2.1 hv, hrefused, ?_⟩)
      exact normalizeClaim_ok (w := .null) hcoercer hblank (by rw [hv]; rfl)
    · rcases coerceNonNegativeInt_cases hv with ⟨hinf, herr⟩ | ⟨hinf, herr | ⟨n, -, -, hok⟩⟩
      · exact .inl ⟨⟨hcount, hv, hinf⟩, normalizeClaim_error hcoercer hblank herr⟩
      · refine .inr (.inr ⟨fun h => hinf h.2.2, hrefused, ?_⟩)
        rw [normalizeClaim_error hcoercer hblank herr]
        exact if_neg (by rw [hcritical]; simp)
      · exact .inr (.inr ⟨fun h => hinf h.2.2, hrefused, normalizeClaim_ok hcoercer hblank hok⟩)
  · -- any other field
    refine .inr (.inr ⟨fun h => hcount h.1, fun h => hdate h.1, ?_⟩)
    rcases hcoercer with hnone | ⟨coerce, hsome, htotal⟩
    · exact normalizeClaim_none hnone
    · obtain ⟨w, hw, -⟩ := htotal c.fieldValue
      exact normalizeClaim_ok hsome (fun h => hdate h.1) hw

theorem keptValue_of_ok {name : String} {coerce : Json → Except NormalizerError Json} {v w : Json}
    (hcoercer : fieldCoercer name = some coerce) (h : coerce v = .ok w) : keptValue name v = w := by
  unfold keptValue
  rw [hcoercer]
  dsimp only
  rw [h]

theorem keptValue_of_error {name : String} {coerce : Json → Except NormalizerError Json} {v : Json}
    {e : NormalizerError} (hcoercer : fieldCoercer name = some coerce) (h : coerce v = .error e) :
    keptValue name v = v := by
  unfold keptValue
  rw [hcoercer]
  dsimp only
  rw [h]

/-- The value that is kept is kept again. -/
theorem keptValue_again [LawfulDigits] [LawfulCase] [LawfulPyIso] {name : String} {v : Json}
    (hfinite : ¬ (IsCount name ∧ v ≠ .null ∧ ∃ negative, countFloat v = some (.inf negative)))
    (hrefused : ¬ (name = "event_date" ∧
      (isPresentBlank v = true ∨ ∃ e, coerceDate v = .error e))) :
    keptValue name (keptValue name v) = keptValue name v ∧
      ¬ (IsCount name ∧ keptValue name v ≠ .null ∧
        ∃ negative, countFloat (keptValue name v) = some (.inf negative)) ∧
      ¬ (name = "event_date" ∧ (isPresentBlank (keptValue name v) = true ∨
        ∃ e, coerceDate (keptValue name v) = .error e)) := by
  rcases fieldCoercer_cases name with ⟨rfl, hcoercer⟩ | ⟨hcount, hcoercer⟩ | ⟨hdate, hcount, hcoercer⟩
  · cases hw : coerceDate v with
    | error e => exact absurd ⟨rfl, .inr ⟨e, hw⟩⟩ hrefused
    | ok w =>
        obtain ⟨hblank, hagain⟩ := coerceDate_again hw
        rw [keptValue_of_ok hcoercer hw, keptValue_of_ok hcoercer hagain]
        refine ⟨rfl, fun h => absurd h.1 (by unfold IsCount; decide), ?_⟩
        rintro ⟨-, h | ⟨e, he⟩⟩
        · rw [hblank] at h
          cases h
        · rw [hagain] at he
          cases he
  · have hdate : name ≠ "event_date" := by rcases hcount with rfl | rfl <;> decide
    cases hw : coerceNonNegativeInt v with
    | error e =>
        rw [keptValue_of_error hcoercer hw, keptValue_of_error hcoercer hw]
        exact ⟨rfl, hfinite, fun h => hdate h.1⟩
    | ok w =>
        have hagain := coerceNonNegativeInt_again hw
        rw [keptValue_of_ok hcoercer hw, keptValue_of_ok hcoercer hagain]
        refine ⟨rfl, ?_, fun h => hdate h.1⟩
        rintro ⟨-, hne, hinf⟩
        rcases coerceNonNegativeInt_cases hne with ⟨-, herr⟩ | ⟨hnone, -⟩
        · rw [herr] at hagain
          cases hagain
        · exact hnone hinf
  · refine ⟨?_, fun h => hcount h.1, fun h => hdate h.1⟩
    rcases hcoercer with hnone | ⟨coerce, hsome, htotal⟩
    · simp [keptValue, hnone]
    · obtain ⟨w, hw, hagain⟩ := htotal v
      rw [keptValue_of_ok hsome hw, keptValue_of_ok hsome hagain]

/-- **A kept claim is kept again** under the generic aliases. -/
theorem normalizeClaim_again [LawfulDigits] [LawfulCase] [LawfulPyIso]
    {mapper : Option SourceFieldMapper} (hmapper : ∀ m ∈ mapper, m.Targets) {c d : NormalisedClaim}
    (h : normalizeClaim mapper c = .ok d) : normalizeClaim none d = .ok d := by
  obtain ⟨hfinite, hrefused, hkept⟩ : ¬ InfiniteCount mapper c ∧ ¬ RefusedDate mapper c ∧
      normalizeClaim mapper c = .ok (keptClaim mapper c) := by
    rcases normalizeClaim_cases mapper c with ⟨-, herr⟩ | ⟨-, e, -, herr⟩ | hok
    · rw [herr] at h
      cases h
    · rw [herr] at h
      cases h
    · exact hok
  obtain rfl := Except.ok.inj (h.symm.trans hkept)
  -- the name stays, so the value is coerced by the same coercer
  have hname : externalFieldName none (externalFieldName mapper c.fieldName) =
      externalFieldName mapper c.fieldName := canonicalName_externalFieldName hmapper c.fieldName
  obtain ⟨hvalue, hfinite', hrefused'⟩ := keptValue_again hfinite hrefused
  have hclaim : keptClaim none (keptClaim mapper c) = keptClaim mapper c := by
    unfold keptClaim
    dsimp only
    rw [hname, hvalue]
  rcases normalizeClaim_cases none (keptClaim mapper c) with ⟨hinf, -⟩ | ⟨href, -⟩ | ⟨-, -, hok⟩
  · unfold InfiniteCount keptClaim at hinf
    dsimp only at hinf
    rw [hname] at hinf
    exact absurd hinf hfinite'
  · unfold RefusedDate keptClaim at href
    dsimp only at href
    rw [hname] at href
    exact absurd href hrefused'
  · rw [hok, hclaim]

/-! ## The claims of a submission -/

/-- Normalising fails only for a date or a registration, keeps the claims in order, and changes
nothing the second time. -/
structure FailsWhereSaid (claims : List NormalisedClaim) (mapper : Option SourceFieldMapper) :
    Prop where
  outcome : externalNormalize claims mapper = .ok (claims.map (keptClaim mapper)) ∨
    ∃ c ∈ claims, identityCritical (externalFieldName mapper c.fieldName) = true ∧
      ∃ e, NormalizerError.IsNormalization e ∧ normalizeClaim mapper c = .error e ∧
        externalNormalize claims mapper = .error e
  again : ∀ out, externalNormalize claims mapper = .ok out → externalNormalize out none = .ok out

variable [LawfulDigits] [LawfulCase] [LawfulPyIso] {claims : List NormalisedClaim}
  {mapper : Option SourceFieldMapper}

omit [LawfulDigits] [LawfulPyIso] in
theorem eq_keptClaim {c d : NormalisedClaim} (h : normalizeClaim mapper c = .ok d) :
    ¬ RefusedDate mapper c ∧ keptClaim mapper c = d := by
  rcases normalizeClaim_cases mapper c with ⟨-, herr⟩ | ⟨-, e, -, herr⟩ | ⟨-, hrefused, hok⟩
  · rw [herr] at h
    cases h
  · rw [herr] at h
    cases h
  · exact ⟨hrefused, Except.ok.inj (hok.symm.trans h)⟩

omit [LawfulDigits] [LawfulPyIso] in
/-- An infinite count overflows unless a date is refused before it. -/
theorem externalNormalize_overflow {before : List NormalisedClaim} {c : NormalisedClaim}
    (rest : List NormalisedClaim) (hbefore : ∀ d ∈ before, ¬ RefusedDate mapper d)
    (hinf : InfiniteCount mapper c) :
    externalNormalize (before ++ c :: rest) mapper = .error .overflow := by
  unfold externalNormalize
  induction before with
  | nil =>
      rcases normalizeClaim_cases mapper c with ⟨-, herr⟩ | ⟨hrefused, -⟩ | ⟨hfinite, -, -⟩
      · rw [List.nil_append, List.mapM_cons, herr]
        rfl
      · have hcount := hinf.1
        rw [hrefused.1] at hcount
        exact absurd hcount (by unfold IsCount; decide)
      · exact absurd hinf hfinite
  | cons d before ih =>
      rw [List.forall_mem_cons] at hbefore
      rw [List.cons_append, List.mapM_cons]
      rcases normalizeClaim_cases mapper d with ⟨-, herr⟩ | ⟨hrefused, -⟩ | ⟨-, -, hok⟩
      · rw [herr]
        rfl
      · exact absurd hrefused hbefore.1
      · rw [hok, ok_bind, ih hbefore.2]
        rfl

/-- **Normalising external claims** fails only where it says exactly when every infinite count
comes after a date that is refused. -/
theorem external_normalisation_iff
    (h : ∀ m ∈ mapper, ∃ aliases, SourceFieldMapper.make aliases = .ok m) :
    FailsWhereSaid claims mapper ↔ ∀ before c rest, claims = before ++ c :: rest →
      InfiniteCount mapper c → ∃ d ∈ before, RefusedDate mapper d := by
  have htargets : ∀ m ∈ mapper, m.Targets := by
    intro m hm
    obtain ⟨aliases, hmade⟩ := h m hm
    exact SourceFieldMapper.targets_of_make hmade
  constructor
  · intro hfails before c rest hclaims hinf
    by_contra hnone
    have hoverflow : externalNormalize claims mapper = .error .overflow := by
      rw [hclaims]
      exact externalNormalize_overflow rest (fun d hd hrefused => hnone ⟨d, hd, hrefused⟩) hinf
    rcases hfails.outcome with hok | ⟨d, -, -, e, he, -, herr⟩
    · rw [hoverflow] at hok
      cases hok
    · rw [hoverflow] at herr
      obtain rfl := Except.error.inj herr
      exact he
  · intro hfirst
    refine ⟨?_, ?_⟩
    · cases hrun : externalNormalize claims mapper with
      | ok out =>
          left
          have hall : List.Forall₂ (fun c d => keptClaim mapper c = d) claims out :=
            (mapM_ok.mp hrun).imp fun c d hd => (eq_keptClaim hd).2
          rw [← List.forall₂_map_left_iff, List.forall₂_eq_eq_eq] at hall
          rw [hall]
      | error e =>
          right
          obtain ⟨before, c, rest, hclaims, hbefore, hc⟩ := mapM_error.mp hrun
          rcases normalizeClaim_cases mapper c with ⟨hinf, -⟩ | ⟨hrefused, e', he', herr⟩ | ⟨-, -, hok⟩
          · obtain ⟨d, hd, hrefused⟩ := hfirst before c rest hclaims hinf
            obtain ⟨z, hz⟩ := hbefore d hd
            exact absurd hrefused (eq_keptClaim hz).1
          · rw [herr] at hc
            obtain rfl := Except.error.inj hc
            refine ⟨c, ?_, ?_, e', he', herr, rfl⟩
            · rw [hclaims]
              simp
            · rw [hrefused.1]
              rfl
          · rw [hok] at hc
            cases hc
    · intro out hout
      refine mapM_ok.mpr (List.forall₂_same.mpr fun d hd => ?_)
      obtain ⟨c, -, hc⟩ := exists_of_mem_mapM hout hd
      exact normalizeClaim_again htargets hc

end External

/-- A source that has its own name for the fatalities. -/
def deathsMapper : SourceFieldMapper := ⟨[("deaths", "fatalities_total")]⟩

/-- Two deaths. -/
theorem two_deaths_normalised :
    FailsWhereSaid [⟨"Deaths", .str "2"⟩] (some deathsMapper) := by
  have hmade : ∀ m ∈ some deathsMapper, ∃ aliases, SourceFieldMapper.make aliases = .ok m := by
    intro m hm
    obtain rfl := Option.some.inj hm
    exact ⟨[("Deaths", "fatalitiesTotal")], by decide +kernel⟩
  refine (external_normalisation_iff hmade).mpr ?_
  rintro before c rest hclaims ⟨-, -, negative, hinf⟩
  have hc : c ∈ [(⟨"Deaths", .str "2"⟩ : NormalisedClaim)] := by
    rw [hclaims]
    simp
  obtain rfl := List.mem_singleton.mp hc
  have hfinite : countFloat (.str "2") = some (.finite 2) := by decide +kernel
  rw [hfinite] at hinf
  cases hinf

/-- An infinite count raises another exception. -/
theorem infinite_deaths_overflow :
    externalNormalize [⟨"fatalities", .str "inf"⟩] none = .error .overflow ∧
      ¬ FailsWhereSaid [⟨"fatalities", .str "inf"⟩] none := by
  have hrun : externalNormalize [⟨"fatalities", .str "inf"⟩] none = .error .overflow := by
    decide +kernel
  refine ⟨hrun, fun h => ?_⟩
  rcases h.outcome with hok | ⟨c, -, -, e, he, -, herr⟩
  · rw [hrun] at hok
    cases hok
  · rw [hrun] at herr
    obtain rfl := Except.error.inj herr
    exact he

end Atlas
