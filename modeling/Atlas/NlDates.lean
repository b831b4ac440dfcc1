import Mathlib.Data.List.Induction
import Mathlib.Data.Prod.Lex
import Atlas.NlPhrases

/-!
# The dates of a query

Every date phrase of a query writes one or both ends of one range, in the order of the rules: a
later phrase overwrites an earlier one.  The range that is left is the last start and the last
end that were written.  It honours every phrase exactly when the phrases come in a fitting order:
the last start is the latest of the starts, the last end is no later than the end of any phrase,
and the start is not behind the end.
-/

namespace Atlas

open Outcome Regex

/-! ## The order of dates -/

instance : LinearOrder PyDate :=
  LinearOrder.lift' (fun d => toLex (d.year, toLex (d.month, d.day))) (by
    intro d e h
    obtain ⟨y, m, day, hd⟩ := d
    obtain ⟨y', m', day', he⟩ := e
    simp only [EmbeddingLike.apply_eq_iff_eq, Prod.mk.injEq] at h
    obtain ⟨rfl, rfl, rfl⟩ := h
    rfl)

namespace PyDate

theorem le_iff {d e : PyDate} : d ≤ e ↔ d.year < e.year ∨ d.year = e.year ∧
    (d.month < e.month ∨ d.month = e.month ∧ d.day ≤ e.day) := by
  show toLex (d.year, toLex (d.month, d.day)) ≤ toLex (e.year, toLex (e.month, e.day)) ↔ _
  rw [Prod.Lex.toLex_le_toLex, Prod.Lex.toLex_le_toLex]

theorem mk?_some {y m d : Nat} (hy : 1 ≤ y ∧ y ≤ 9999) (hm : 1 ≤ m ∧ m ≤ 12)
    (hd : 1 ≤ d ∧ d ≤ daysInMonth y m) : ∃ h, mk? y m d = some ⟨y, m, d, h⟩ :=
  ⟨⟨hy.1, hy.2, hm.1, hm.2, hd⟩, dif_pos _⟩

theorem mk?_isSome {y m d : Nat} (hm : 1 ≤ m ∧ m ≤ 12) (hd : 1 ≤ d ∧ d ≤ daysInMonth y m) :
    (mk? y m d).isSome = true ↔ 1 ≤ y ∧ y ≤ 9999 := by
  unfold mk?
  split
  · rename_i h
    exact ⟨fun _ => ⟨h.1, h.2.1⟩, fun _ => rfl⟩
  · rename_i h
    refine ⟨fun hsome => by simp at hsome, fun hy => absurd ⟨hy.1, hy.2, hm.1, hm.2, hd⟩ h⟩

theorem daysInMonth_bounds (y m : Nat) : 28 ≤ daysInMonth y m ∧ daysInMonth y m ≤ 31 := by
  unfold daysInMonth
  split
  · split <;> decide
  all_goals decide

/-- The first day of a year, and where it stands. -/
theorem firstDay {y : Nat} (h : 1 ≤ y ∧ y ≤ 9999) :
    ∃ first, mk? y 1 1 = some first ∧ ∀ d, first ≤ d ↔ y ≤ d.year := by
  obtain ⟨hvalid, heq⟩ := mk?_some h (m := 1) (d := 1) ⟨le_rfl, by decide⟩
    ⟨le_rfl, le_trans (by decide) (daysInMonth_bounds y 1).1⟩
  refine ⟨_, heq, ?_⟩
  intro d
  have hd := d.valid
  rw [le_iff]
  dsimp only
  omega

/-- The last day of a year, and where it stands. -/
theorem lastDay {y : Nat} (h : 1 ≤ y ∧ y ≤ 9999) :
    ∃ last, mk? y 12 31 = some last ∧ ∀ d, d ≤ last ↔ d.year ≤ y := by
  obtain ⟨hvalid, heq⟩ := mk?_some h (m := 12) (d := 31) ⟨by decide, le_rfl⟩
    ⟨by decide, show 31 ≤ daysInMonth y 12 from le_rfl⟩
  refine ⟨_, heq, ?_⟩
  intro d
  have hd := d.valid
  have hdays := (daysInMonth_bounds d.year d.month).2
  rw [le_iff]
  dsimp only
  omega

end PyDate

/-! ## Phrases -/

/-- A date phrase, with the numbers of its months and years. -/
inductive DatePhrase where
  | monthRange (first last year : Nat)
  | between (y z : Nat)
  | before (year : Nat)
  | after (year : Nat)
  | year (year : Nat)
deriving DecidableEq, Repr

namespace DatePhrase

/-- The dates that the phrase speaks of. -/
def Admits : DatePhrase → PyDate → Prop
  | monthRange first last y, d => d.year = y ∧ first ≤ d.month ∧ d.month ≤ last
  | between y z, d => min y z ≤ d.year ∧ d.year ≤ max y z
  | before y, d => d.year < y
  | after y, d => y < d.year
  | year y, d => d.year = y

/-- The start that the rule of the phrase writes. -/
def lower : DatePhrase → Option PyDate
  | monthRange first _ y => PyDate.mk? y first 1
  | between y z => PyDate.mk? (min y z) 1 1
  | before _ => none
  | after y => PyDate.mk? (y + 1) 1 1
  | year y => PyDate.mk? y 1 1

/-- The end that the rule of the phrase writes; a month ends on its 28th. -/
def upper : DatePhrase → Option PyDate
  | monthRange _ last y => PyDate.mk? y last 28
  | between y z => PyDate.mk? (max y z) 12 31
  | before y => PyDate.mk? (y - 1) 12 31
  | after _ => none
  | year y => PyDate.mk? y 12 31

/-- The last day that the phrase speaks of. -/
def last : DatePhrase → Option PyDate
  | monthRange _ last y => PyDate.mk? y last (daysInMonth y last)
  | p => p.upper

/-- What the patterns ensure: the numbers of months are those of months, and a year has four
digits. -/
def WellFormed : DatePhrase → Prop
  | monthRange first last y => (1 ≤ first ∧ first ≤ 12) ∧ (1 ≤ last ∧ last ≤ 12) ∧ y ≤ 9999
  | between y z => y ≤ 9999 ∧ z ≤ 9999
  | before y => y ≤ 9999
  | after y => y ≤ 9999
  | year y => 1900 ≤ y ∧ y ≤ 2099

/-- The years that a phrase writes are years of the calendar. -/
def Valid : DatePhrase → Prop
  | monthRange _ _ y => 1 ≤ y
  | between y z => 1 ≤ y ∧ 1 ≤ z
  | before y => 2 ≤ y
  | after y => y ≤ 9998
  | year _ => True

instance : DecidablePred Valid
  | monthRange _ _ y => inferInstanceAs (Decidable (1 ≤ y))
  | between y z => inferInstanceAs (Decidable (1 ≤ y ∧ 1 ≤ z))
  | before y => inferInstanceAs (Decidable (2 ≤ y))
  | after y => inferInstanceAs (Decidable (y ≤ 9998))
  | year _ => inferInstanceAs (Decidable True)

def givesStart : DatePhrase → Bool
  | before _ => false
  | _ => true

def givesEnd : DatePhrase → Bool
  | after _ => false
  | _ => true

/-- The range with the ends of the phrase. -/
def narrow (p : DatePhrase) (parsed : ParsedQuery) : ParsedQuery :=
  { parsed with
    eventDateFrom := p.lower.or parsed.eventDateFrom
    eventDateTo := p.upper.or parsed.eventDateTo }

/-- An end that the phrase gives must be a date. -/
def checked (gives : Bool) (date : Option PyDate) : Except NlError (Option PyDate) :=
  if gives then (fromOption date (.valueError "date argument is out of range")).map some else pure none

/-- What the rule of the phrase does. -/
def write (p : DatePhrase) (parsed : ParsedQuery) : Except NlError ParsedQuery := do
  let lo ← checked p.givesStart p.lower
  let hi ← checked p.givesEnd p.upper
  pure { parsed with
    eventDateFrom := lo.or parsed.eventDateFrom
    eventDateTo := hi.or parsed.eventDateTo }

variable {p : DatePhrase}

/-- The range of a phrase: its dates are those from its start to its last day. -/
theorem admits_iff (hform : p.WellFormed) (hvalid : p.Valid) {d : PyDate} :
    p.Admits d ↔ (∀ lo ∈ p.lower, lo ≤ d) ∧ ∀ hi ∈ p.last, d ≤ hi := by
  cases p with
  | monthRange first last y =>
      obtain ⟨hfirst, hlast, hy⟩ := hform
      have hd := d.valid
      have hfull := (PyDate.daysInMonth_bounds y last).1
      obtain ⟨_, hlo⟩ := PyDate.mk?_some ⟨hvalid, hy⟩ hfirst (d := 1)
        ⟨le_rfl, le_trans (by decide) (PyDate.daysInMonth_bounds y first).1⟩
      obtain ⟨_, hhi⟩ := PyDate.mk?_some ⟨hvalid, hy⟩ hlast (d := daysInMonth y last)
        ⟨by omega, le_rfl⟩
      simp only [Admits, lower, DatePhrase.last, hlo, hhi, Option.mem_some_iff, forall_eq',
        PyDate.le_iff]
      constructor
      · intro h
        obtain ⟨rfl, hle, hle'⟩ := h
        refine ⟨.inr ⟨rfl, by omega⟩, .inr ⟨rfl, ?_⟩⟩
        rcases hle'.lt_or_eq with hlt | rfl
        · exact .inl hlt
        · exact .inr ⟨rfl, hd.2.2.2.2.2⟩
      · intro h
        omega
  | between y z =>
      obtain ⟨lo, hlo, hle⟩ := PyDate.firstDay (y := min y z)
        ⟨le_min hvalid.1 hvalid.2, le_trans (min_le_left _ _) hform.1⟩
      obtain ⟨hi, hhi, hge⟩ := PyDate.lastDay (y := max y z)
        ⟨le_trans hvalid.1 (le_max_left _ _), max_le hform.1 hform.2⟩
      simp only [Admits, lower, last, upper, hlo, hhi, Option.mem_some_iff, forall_eq', hle, hge]
  | before y =>
      obtain ⟨hi, hhi, hge⟩ := PyDate.lastDay (y := y - 1)
        ⟨Nat.le_sub_of_add_le hvalid, le_trans (Nat.sub_le y 1) hform⟩
      have hvalid : 2 ≤ y := hvalid
      simp only [Admits, lower, last, upper, hhi, Option.mem_some_iff, forall_eq', hge,
        Option.not_mem_none, false_implies, implies_true, true_and]
      omega
  | after y =>
      obtain ⟨lo, hlo, hle⟩ := PyDate.firstDay (y := y + 1) ⟨Nat.le_add_left 1 y, Nat.succ_le_succ hvalid⟩
      simp only [Admits, lower, last, upper, hlo, Option.mem_some_iff, forall_eq', hle,
        Option.not_mem_none, false_implies, implies_true, and_true, Nat.lt_iff_add_one_le]
  | year y =>
      obtain ⟨lo, hlo, hle⟩ := PyDate.firstDay (y := y) ⟨le_trans (by decide) hform.1, le_trans hform.2 (by decide)⟩
      obtain ⟨hi, hhi, hge⟩ := PyDate.lastDay (y := y) ⟨le_trans (by decide) hform.1, le_trans hform.2 (by decide)⟩
      simp only [Admits, lower, last, upper, hlo, hhi, Option.mem_some_iff, forall_eq', hle, hge]
      omega

/-- A phrase can be written when its years are in the calendar. -/
theorem isSome_iff (hform : p.WellFormed) :
    ((p.givesStart → p.lower.isSome) ∧ (p.givesEnd → p.upper.isSome)) ↔ p.Valid := by
  have hstart : ∀ y, (PyDate.mk? y 1 1).isSome = true ↔ 1 ≤ y ∧ y ≤ 9999 := fun y =>
    PyDate.mk?_isSome (by decide) ⟨le_rfl, show 1 ≤ 31 by decide⟩
  have hend : ∀ y, (PyDate.mk? y 12 31).isSome = true ↔ 1 ≤ y ∧ y ≤ 9999 := fun y =>
    PyDate.mk?_isSome (by decide) ⟨by decide, show 31 ≤ 31 from le_rfl⟩
  cases p with
  | monthRange first last y =>
      obtain ⟨hfirst, hlast, hy⟩ := hform
      have hlo : (PyDate.mk? y first 1).isSome = true ↔ 1 ≤ y ∧ y ≤ 9999 :=
        PyDate.mk?_isSome hfirst ⟨le_rfl, le_trans (by decide) (PyDate.daysInMonth_bounds y first).1⟩
      have hhi : (PyDate.mk? y last 28).isSome = true ↔ 1 ≤ y ∧ y ≤ 9999 :=
        PyDate.mk?_isSome hlast ⟨by decide, (PyDate.daysInMonth_bounds y last).1⟩
      simp only [givesStart, givesEnd, lower, upper, Valid, hlo, hhi, true_implies]
      omega
  | between y z =>
      obtain ⟨hy, hz⟩ := hform
      simp only [givesStart, givesEnd, lower, upper, Valid, hstart, hend, true_implies]
      omega
  | before y =>
      have hy : y ≤ 9999 := hform
      simp only [givesStart, givesEnd, lower, upper, Valid, hend, true_implies, Bool.false_eq_true,
        false_implies, true_and]
      omega
  | after y =>
      simp only [givesStart, givesEnd, lower, upper, Valid, hstart, true_implies,
        Bool.false_eq_true, false_implies, and_true]
      omega
  | year y =>
      obtain ⟨hy, hy'⟩ := hform
      simp only [givesStart, givesEnd, lower, upper, Valid, hstart, hend, true_implies, iff_true]
      omega

theorem lower_isSome (hform : p.WellFormed) (hvalid : p.Valid) : p.lower.isSome = p.givesStart := by
  have h := ((isSome_iff hform).mpr hvalid).1
  cases p with
  | before y => rfl
  | _ => exact h rfl

theorem upper_isSome (hform : p.WellFormed) (hvalid : p.Valid) : p.upper.isSome = p.givesEnd := by
  have h := ((isSome_iff hform).mpr hvalid).2
  cases p with
  | after y => rfl
  | _ => exact h rfl

theorem checked_eq {gives : Bool} {date : Option PyDate} (h : date.isSome = gives) :
    checked gives date = .ok date := by
  subst h
  cases date <;> rfl

theorem checked_ok {gives : Bool} {date out : Option PyDate} (h : checked gives date = .ok out) :
    gives = true → date.isSome = true := by
  intro hgives
  subst hgives
  cases date with
  | none => cases h
  | some d => rfl

theorem write_of_valid (hform : p.WellFormed) (hvalid : p.Valid) (parsed : ParsedQuery) :
    p.write parsed = .ok (p.narrow parsed) := by
  unfold write
  rw [checked_eq (lower_isSome hform hvalid), checked_eq (upper_isSome hform hvalid)]
  rfl

theorem valid_of_write (hform : p.WellFormed) {parsed parsed' : ParsedQuery}
    (h : p.write parsed = .ok parsed') : p.Valid := by
  unfold write at h
  simp only [bind_ok] at h
  obtain ⟨lo, hlo, hi, hhi, -⟩ := h
  exact (isSome_iff hform).mp ⟨checked_ok hlo, checked_ok hhi⟩

end DatePhrase

/-! ## All phrases of a query -/

/-- What the last phrase that has one gives. -/
def lastOf (f : DatePhrase → Option PyDate) (ps : List DatePhrase) : Option PyDate :=
  ps.foldl (fun acc p => (f p).or acc) none

/-- The ends that the phrases leave of a range. -/
def narrowAll (ps : List DatePhrase) (parsed : ParsedQuery) : ParsedQuery :=
  ps.foldl (fun parsed p => p.narrow parsed) parsed

theorem lastOf_append_single (f : DatePhrase → Option PyDate) (ps : List DatePhrase)
    (p : DatePhrase) : lastOf f (ps ++ [p]) = (f p).or (lastOf f ps) := by
  unfold lastOf
  rw [List.foldl_append]
  rfl

/-- The last one is that of a phrase. -/
theorem mem_of_lastOf {f : DatePhrase → Option PyDate} {ps : List DatePhrase} {d : PyDate}
    (h : lastOf f ps = some d) : ∃ p ∈ ps, f p = some d := by
  induction ps using List.reverseRecOn with
  | nil => cases h
  | append_singleton ps p ih =>
      rw [lastOf_append_single] at h
      cases hp : f p with
      | some e =>
          rw [hp, Option.some_or] at h
          exact ⟨p, by simp, hp.trans h⟩
      | none =>
          rw [hp, Option.none_or] at h
          obtain ⟨p', hp', heq⟩ := ih h
          exact ⟨p', List.mem_append_left _ hp', heq⟩

theorem lastOf_isSome {f : DatePhrase → Option PyDate} {ps : List DatePhrase} :
    (lastOf f ps).isSome = ps.any fun p => (f p).isSome := by
  induction ps using List.reverseRecOn with
  | nil => rfl
  | append_singleton ps p ih =>
      rw [lastOf_append_single, List.any_append, List.any_cons, List.any_nil, Bool.or_false, ← ih]
      cases f p <;> simp

theorem narrowAll_empty (ps : List DatePhrase) : narrowAll ps .empty =
    { ParsedQuery.empty with
      eventDateFrom := lastOf DatePhrase.lower ps
      eventDateTo := lastOf DatePhrase.upper ps } := by
  induction ps using List.reverseRecOn with
  | nil => rfl
  | append_singleton ps p ih =>
      rw [lastOf_append_single, lastOf_append_single]
      unfold narrowAll at ih ⊢
      rw [List.foldl_append, ih]
      rfl

/-- The phrases are written when the years of all are in the calendar. -/
theorem writeAll_of_valid {ps : List DatePhrase} (hform : ∀ p ∈ ps, p.WellFormed)
    (hvalid : ∀ p ∈ ps, p.Valid) (parsed : ParsedQuery) :
    ps.foldlM (fun parsed p => p.write parsed) parsed = .ok (narrowAll ps parsed) := by
  induction ps generalizing parsed with
  | nil => rfl
  | cons p ps ih =>
      rw [List.foldlM_cons, p.write_of_valid (hform p List.mem_cons_self) (hvalid p List.mem_cons_self)]
      exact ih (fun q hq => hform q (List.mem_cons_of_mem p hq))
        (fun q hq => hvalid q (List.mem_cons_of_mem p hq)) _

theorem writeAll_ok {ps : List DatePhrase} (hform : ∀ p ∈ ps, p.WellFormed)
    {parsed parsed' : ParsedQuery}
    (h : ps.foldlM (fun parsed p => p.write parsed) parsed = .ok parsed') : ∀ p ∈ ps, p.Valid := by
  induction ps generalizing parsed with
  | nil => simp
  | cons p ps ih =>
      rw [List.foldlM_cons, bind_ok] at h
      obtain ⟨parsed₁, hfirst, hrest⟩ := h
      intro q hq
      rcases List.mem_cons.mp hq with rfl | hq
      · exact q.valid_of_write (hform q List.mem_cons_self) hfirst
      · exact ih (fun q hq => hform q (List.mem_cons_of_mem p hq)) hrest q hq

section Query

variable [PyText] [PyRegex]

def monthPhrase (m : Match) : Option DatePhrase :=
  match monthOf (m.group 1), monthOf (m.group 2) with
  | some first, some last => some (.monthRange first last (numberOf (m.group 3)))
  | _, _ => none

def betweenPhrase (m : Match) : DatePhrase := .between (numberOf (m.group 1)) (numberOf (m.group 2))

def beforePhrase (m : Match) : DatePhrase := .before (numberOf (m.group 1))

def afterPhrase (m : Match) : DatePhrase := .after (numberOf (m.group 1))

def yearPhrase (m : Match) : DatePhrase := .year (numberOf m.text)

/-- The month ranges of the query whose months are known, with where they stand. -/
def monthReadings (query : List Char) : List (Match × DatePhrase) :=
  readings monthPhrase (finditer monthRangeRe query)

def betweenReadings (query : List Char) : List (Match × DatePhrase) :=
  readings (fun m => some (betweenPhrase m)) (finditer betweenRe query)

def beforeReadings (query : List Char) : List (Match × DatePhrase) :=
  readings (fun m => some (beforePhrase m)) (finditer beforeRe query)

def afterReadings (query : List Char) : List (Match × DatePhrase) :=
  readings (fun m => some (afterPhrase m)) (finditer afterRe query)

/-- The ranges that the query names. -/
def rangeReadings (query : List Char) : List (Match × DatePhrase) :=
  monthReadings query ++ betweenReadings query ++ beforeReadings query ++ afterReadings query

/-- The bare year that counts: the first that is no part of such a phrase, when these leave one end
of the range open. -/
def bareYear (query : List Char) : Option Match :=
  let readings := rangeReadings query
  if (readings.any fun r => r.2.givesStart) ∧ (readings.any fun r => r.2.givesEnd) then none
  else (finditer yearRe query).find? fun m => !readings.any fun r => (Span.of r.1).holds m

/-- The date phrases of the query, in the order of the rules. -/
def dateReadings (query : List Char) : List (Match × DatePhrase) :=
  rangeReadings query ++ ((bareYear query).map fun m => (m, yearPhrase m)).toList

def datePhrases (query : List Char) : List DatePhrase := (dateReadings query).map Prod.snd

def dateSpans (query : List Char) : List Span := (dateReadings query).map fun r => Span.of r.1

/-! ## The rules read the phrases -/

variable {query : List Char} {m : Match}

omit [PyRegex] in
theorem monthOf_range {text : List Char} {n : Nat} (h : monthOf text = some n) : 1 ≤ n ∧ n ≤ 12 := by
  have hall : ∀ e ∈ monthNames, 1 ≤ e.2 ∧ e.2 ≤ 12 := by decide
  obtain ⟨l₁, l₂, hsplit, -⟩ := List.lookup_eq_some_iff.mp h
  exact hall (PyText.lower (String.ofList text), n) (by rw [hsplit]; simp)

theorem IsYear.number_le {text : List Char} (h : IsYear text) : numberOf text ≤ 9999 := by
  have hlt := numberOf_lt text
  rw [h.2] at hlt
  omega

theorem monthRangeRule_eq (hm : m.Of monthRangeRe query) (parsed : ParsedQuery) :
    monthRangeRule parsed m = readingRule monthPhrase DatePhrase.write parsed m := by
  obtain ⟨a, b, y, hgroups, hy⟩ := groups_monthRange hm
  have h₁ : m.group 1 = a := Match.group_eq hgroups 1
  have h₂ : m.group 2 = b := Match.group_eq hgroups 2
  have h₃ : m.group 3 = y := Match.group_eq hgroups 3
  unfold monthRangeRule readingRule monthPhrase
  rw [h₁, h₂, h₃, readInt_digits hy.1]
  cases monthOf a with
  | none => rfl
  | some first =>
      cases monthOf b with
      | none => rfl
      | some last =>
          unfold DatePhrase.write DatePhrase.lower DatePhrase.upper pyDate
          simp only [ok_bind]
          cases PyDate.mk? (numberOf y) first 1 <;> cases PyDate.mk? (numberOf y) last 28 <;> rfl

theorem betweenRule_eq (hm : m.Of betweenRe query) (parsed : ParsedQuery) :
    betweenRule parsed m =
      readingRule (fun m => some (betweenPhrase m)) DatePhrase.write parsed m := by
  obtain ⟨y, z, hgroups, hy, hz⟩ := groups_between hm
  have h₁ : m.group 1 = y := Match.group_eq hgroups 1
  have h₂ : m.group 2 = z := Match.group_eq hgroups 2
  unfold betweenRule readingRule betweenPhrase
  dsimp only
  rw [h₁, h₂, readInt_digits hy.1, readInt_digits hz.1]
  unfold DatePhrase.write DatePhrase.lower DatePhrase.upper pyDate
  simp only [ok_bind]
  cases PyDate.mk? (min (numberOf y) (numberOf z)) 1 1 <;>
    cases PyDate.mk? (max (numberOf y) (numberOf z)) 12 31 <;> rfl

theorem beforeRule_eq (hm : m.Of beforeRe query) (parsed : ParsedQuery) :
    beforeRule parsed m =
      readingRule (fun m => some (beforePhrase m)) DatePhrase.write parsed m := by
  obtain ⟨y, hgroups, hy⟩ := groups_phraseYear hm
  have h₁ : m.group 1 = y := Match.group_eq hgroups 1
  unfold beforeRule readingRule beforePhrase
  dsimp only
  rw [h₁, readInt_digits hy.1]
  unfold DatePhrase.write DatePhrase.lower DatePhrase.upper pyDate
  simp only [ok_bind]
  cases PyDate.mk? (numberOf y - 1) 12 31 <;> rfl

theorem afterRule_eq (hm : m.Of afterRe query) (parsed : ParsedQuery) :
    afterRule parsed m =
      readingRule (fun m => some (afterPhrase m)) DatePhrase.write parsed m := by
  obtain ⟨y, hgroups, hy⟩ := groups_phraseYear hm
  have h₁ : m.group 1 = y := Match.group_eq hgroups 1
  unfold afterRule readingRule afterPhrase
  dsimp only
  rw [h₁, readInt_digits hy.1]
  unfold DatePhrase.write DatePhrase.lower DatePhrase.upper pyDate
  simp only [ok_bind]
  cases PyDate.mk? (numberOf y + 1) 1 1 <;> rfl

/-- Where phrases stand. -/
def spansIn (xs : List (Match × DatePhrase)) : List Span := xs.map fun x => Span.of x.1

/-- The state after these phrases were read. -/
def readAll (xs : List (Match × DatePhrase)) : Except NlError ParseState := do
  let parsed ← xs.foldlM (fun parsed x => x.2.write parsed) .empty
  pure ⟨parsed, spansIn xs⟩

/-- A further pass reads further phrases. -/
theorem readAll_pass {xs : List (Match × DatePhrase)} {rs : List Pattern} {e : Pattern} {rule : Rule}
    {f : Match → Option DatePhrase} (hspans : SpansOf rs query (spansIn xs))
    (hapart : (rs.all fun r => r.apart (.seq .edge e)) = true)
    (hrule : ∀ m, m.Of (.seq .edge e) query → ∀ parsed,
      rule parsed m = readingRule f DatePhrase.write parsed m) :
    (readAll xs >>= fun st => st.pass rule (finditer (.seq .edge e) query)) =
      readAll (xs ++ readings f (finditer (.seq .edge e) query)) := by
  unfold readAll
  rw [List.foldlM_append, bind_assoc, bind_assoc]
  refine bind_congr fun parsed => ?_
  rw [pure_bind, pass_apart hspans hapart hrule]
  unfold spansIn
  rw [List.map_append]

theorem spansOf_spansIn_append {rs rs' : List Pattern} {xs ys : List (Match × DatePhrase)}
    (hxs : SpansOf rs query (spansIn xs)) (hys : SpansOf rs' query (spansIn ys)) :
    SpansOf (rs ++ rs') query (spansIn (xs ++ ys)) := by
  unfold spansIn
  rw [List.map_append]
  exact hxs.append hys

theorem spansOf_months : SpansOf [monthRangeRe] query (spansIn (monthReadings query)) :=
  spansOf_readings

theorem spansOf_betweens : SpansOf ([monthRangeRe] ++ [betweenRe]) query
    (spansIn (monthReadings query ++ betweenReadings query)) :=
  spansOf_spansIn_append spansOf_months spansOf_readings

theorem spansOf_befores : SpansOf ([monthRangeRe] ++ [betweenRe] ++ [beforeRe]) query
    (spansIn (monthReadings query ++ betweenReadings query ++ beforeReadings query)) :=
  spansOf_spansIn_append spansOf_betweens spansOf_readings

theorem spansOf_ranges : SpansOf ([monthRangeRe] ++ [betweenRe] ++ [beforeRe] ++ [afterRe]) query
    (spansIn (rangeReadings query)) :=
  spansOf_spansIn_append spansOf_befores spansOf_readings

omit [PyText] [PyRegex] in
/-- Each range stands apart from those before it. -/
theorem ranges_apart : ([monthRangeRe].all fun r => r.apart betweenRe) = true ∧
    (([monthRangeRe] ++ [betweenRe]).all fun r => r.apart beforeRe) = true ∧
    (([monthRangeRe] ++ [betweenRe] ++ [beforeRe]).all fun r => r.apart afterRe) = true := by
  decide +kernel

/-- **The first four passes read every range.** -/
theorem parseDates_ranges : parseDates query .start =
    (readAll (rangeReadings query) >>= fun st => st.pass yearRule (finditer yearRe query)) := by
  have hnone : SpansOf [] query (spansIn []) := by simp [SpansOf, spansIn]
  have hmonths : ParseState.start.pass monthRangeRule (finditer monthRangeRe query) =
      readAll (monthReadings query) :=
    readAll_pass hnone rfl fun m hm parsed => monthRangeRule_eq hm parsed
  have hbetweens : (readAll (monthReadings query) >>= fun st =>
      st.pass betweenRule (finditer betweenRe query)) =
      readAll (monthReadings query ++ betweenReadings query) :=
    readAll_pass spansOf_months ranges_apart.1 fun m hm parsed => betweenRule_eq hm parsed
  have hbefores : (readAll (monthReadings query ++ betweenReadings query) >>= fun st =>
      st.pass beforeRule (finditer beforeRe query)) =
      readAll (monthReadings query ++ betweenReadings query ++ beforeReadings query) :=
    readAll_pass spansOf_betweens ranges_apart.2.1 fun m hm parsed => beforeRule_eq hm parsed
  have hafters : (readAll (monthReadings query ++ betweenReadings query ++ beforeReadings query) >>=
      fun st => st.pass afterRule (finditer afterRe query)) = readAll (rangeReadings query) :=
    readAll_pass spansOf_befores ranges_apart.2.2 fun m hm parsed => afterRule_eq hm parsed
  unfold parseDates
  rw [hmonths, ← bind_assoc, hbetweens, ← bind_assoc, hbefores, ← bind_assoc, hafters]

theorem yearRule_eq (hm : m.Of yearRe query) {parsed : ParsedQuery}
    (hopen : ¬ (parsed.eventDateFrom.isSome ∧ parsed.eventDateTo.isSome)) :
    yearRule parsed m = .ok (some ((yearPhrase m).narrow parsed)) := by
  obtain ⟨hdigits, hlo, hhi⟩ := text_year hm
  obtain ⟨first, hfirst, -⟩ := PyDate.firstDay (y := numberOf m.text) ⟨by omega, by omega⟩
  obtain ⟨last, hlast, -⟩ := PyDate.lastDay (y := numberOf m.text) ⟨by omega, by omega⟩
  unfold yearRule DatePhrase.narrow yearPhrase DatePhrase.lower DatePhrase.upper pyDate
  rw [if_neg hopen, readInt_digits hdigits]
  simp only [ok_bind, hfirst, hlast]
  rfl

omit [PyRegex] in
/-- A full range passes the bare years over. -/
theorem pass_years_full {st : ParseState} {ms : List Match}
    (hfull : st.parsed.eventDateFrom.isSome ∧ st.parsed.eventDateTo.isSome) :
    st.pass yearRule ms = .ok st := by
  induction ms with
  | nil => rfl
  | cons m ms ih =>
      have hrule : yearRule st.parsed m = .ok none := if_pos hfull
      rw [pass_cons, passOne_none hrule]
      exact ih

/-- One bare year fills the range, so the next are passed over. -/
theorem pass_years {st : ParseState} {ms : List Match} (hms : ∀ m ∈ ms, m.Of yearRe query)
    (hopen : ¬ (st.parsed.eventDateFrom.isSome ∧ st.parsed.eventDateTo.isSome)) :
    st.pass yearRule ms = .ok (match st.firstFree ms with
      | none => st
      | some m => st.consume ((yearPhrase m).narrow st.parsed) m) := by
  induction ms with
  | nil => rfl
  | cons m ms ih =>
      unfold ParseState.firstFree at ih ⊢
      rw [pass_cons]
      cases htaken : st.taken m with
      | true =>
          rw [passOne_taken htaken, List.find?_cons_of_neg (by simp [htaken])]
          exact ih fun m' hm' => hms m' (List.mem_cons_of_mem m hm')
      | false =>
          have hm := hms m List.mem_cons_self
          rw [passOne_some htaken (yearRule_eq hm hopen), List.find?_cons_of_pos (by simp [htaken])]
          refine pass_years_full ?_
          obtain ⟨-, hlo, hhi⟩ := text_year hm
          have hlower := (yearPhrase m).lower_isSome ⟨hlo, hhi⟩ trivial
          have hupper := (yearPhrase m).upper_isSome ⟨hlo, hhi⟩ trivial
          unfold ParseState.consume DatePhrase.narrow
          dsimp only
          rw [Option.isSome_or, Option.isSome_or, hlower, hupper]
          exact ⟨rfl, rfl⟩

theorem wellFormed_readings {f : Match → Option DatePhrase} {r : Pattern}
    (hform : ∀ m p, m.Of r query → f m = some p → p.WellFormed) :
    ∀ x ∈ readings f (finditer r query), x.2.WellFormed := by
  intro x hx
  obtain ⟨m, hm, hread⟩ := List.mem_filterMap.mp hx
  obtain ⟨p, hp, rfl⟩ := Option.map_eq_some_iff.mp hread
  exact hform m p (of_mem_finditer hm) hp

/-- **Every phrase of a query is well formed.** -/
theorem wellFormed_ranges : ∀ x ∈ rangeReadings query, x.2.WellFormed := by
  have hmonths : ∀ x ∈ monthReadings query, x.2.WellFormed := by
    refine wellFormed_readings ?_
    intro m p hm hp
    obtain ⟨a, b, y, hgroups, hy⟩ := groups_monthRange hm
    have h₃ : m.group 3 = y := Match.group_eq hgroups 3
    unfold monthPhrase at hp
    cases hfirst : monthOf (m.group 1) with
    | none => simp [hfirst] at hp
    | some first =>
        cases hlast : monthOf (m.group 2) with
        | none => simp [hfirst, hlast] at hp
        | some last =>
            rw [hfirst, hlast, h₃] at hp
            cases hp
            exact ⟨monthOf_range hfirst, monthOf_range hlast, hy.number_le⟩
  have hbetweens : ∀ x ∈ betweenReadings query, x.2.WellFormed := by
    refine wellFormed_readings ?_
    intro m p hm hp
    cases hp
    obtain ⟨y, z, hgroups, hy, hz⟩ := groups_between hm
    have h₁ : m.group 1 = y := Match.group_eq hgroups 1
    have h₂ : m.group 2 = z := Match.group_eq hgroups 2
    refine ⟨?_, ?_⟩
    · rw [h₁]
      exact hy.number_le
    · rw [h₂]
      exact hz.number_le
  have hbefores : ∀ x ∈ beforeReadings query, x.2.WellFormed := by
    refine wellFormed_readings ?_
    intro m p hm hp
    cases hp
    obtain ⟨y, hgroups, hy⟩ := groups_phraseYear hm
    have h₁ : m.group 1 = y := Match.group_eq hgroups 1
    show numberOf (m.group 1) ≤ 9999
    rw [h₁]
    exact hy.number_le
  have hafters : ∀ x ∈ afterReadings query, x.2.WellFormed := by
    refine wellFormed_readings ?_
    intro m p hm hp
    cases hp
    obtain ⟨y, hgroups, hy⟩ := groups_phraseYear hm
    have h₁ : m.group 1 = y := Match.group_eq hgroups 1
    show numberOf (m.group 1) ≤ 9999
    rw [h₁]
    exact hy.number_le
  intro x hx
  rcases List.mem_append.mp hx with hx | hx
  · rcases List.mem_append.mp hx with hx | hx
    · rcases List.mem_append.mp hx with hx | hx
      · exact hmonths x hx
      · exact hbetweens x hx
    · exact hbefores x hx
  · exact hafters x hx

theorem bareYear_of (h : bareYear query = some m) : m.Of yearRe query := by
  unfold bareYear at h
  dsimp only at h
  split at h
  · cases h
  · exact of_mem_finditer (List.mem_of_find?_eq_some h)

theorem wellFormed_phrases : ∀ p ∈ datePhrases query, p.WellFormed := by
  intro p hp
  obtain ⟨x, hx, rfl⟩ := List.mem_map.mp hp
  rcases List.mem_append.mp hx with hx | hx
  · exact wellFormed_ranges x hx
  · obtain ⟨m, hm, rfl⟩ := Option.map_eq_some_iff.mp (Option.mem_toList.mp hx)
    exact (text_year (bareYear_of hm)).2

def rangePhrases (query : List Char) : List DatePhrase := (rangeReadings query).map Prod.snd

theorem datePhrases_eq : datePhrases query =
    rangePhrases query ++ ((bareYear query).map yearPhrase).toList := by
  unfold datePhrases dateReadings rangePhrases
  rw [List.map_append]
  cases bareYear query <;> rfl

theorem wellFormed_rangePhrases : ∀ p ∈ rangePhrases query, p.WellFormed := by
  intro p hp
  obtain ⟨x, hx, rfl⟩ := List.mem_map.mp hp
  exact wellFormed_ranges x hx

theorem readAll_of_valid (hvalid : ∀ p ∈ rangePhrases query, p.Valid) :
    readAll (rangeReadings query) =
      .ok ⟨narrowAll (rangePhrases query) .empty, spansIn (rangeReadings query)⟩ := by
  have hwrite := writeAll_of_valid wellFormed_rangePhrases hvalid .empty
  unfold rangePhrases at hwrite ⊢
  rw [List.foldlM_map] at hwrite
  unfold readAll
  rw [hwrite]
  rfl

omit [PyText] [PyRegex] in
theorem any_congr_mem {p q : DatePhrase → Bool} {ps : List DatePhrase} (h : ∀ x ∈ ps, p x = q x) :
    ps.any p = ps.any q := by
  induction ps with
  | nil => rfl
  | cons x ps ih =>
      rw [List.any_cons, List.any_cons, h x List.mem_cons_self,
        ih fun y hy => h y (List.mem_cons_of_mem x hy)]

omit [PyText] [PyRegex] in
/-- The range is full after the phrases that give a start and an end. -/
theorem narrowAll_full {ps : List DatePhrase} (hform : ∀ p ∈ ps, p.WellFormed)
    (hvalid : ∀ p ∈ ps, p.Valid) :
    (narrowAll ps .empty).eventDateFrom.isSome = ps.any DatePhrase.givesStart ∧
      (narrowAll ps .empty).eventDateTo.isSome = ps.any DatePhrase.givesEnd := by
  rw [narrowAll_empty]
  refine ⟨?_, ?_⟩
  · rw [lastOf_isSome]
    exact any_congr_mem fun p hp => p.lower_isSome (hform p hp) (hvalid p hp)
  · rw [lastOf_isSome]
    exact any_congr_mem fun p hp => p.upper_isSome (hform p hp) (hvalid p hp)

/-- **What `_parse_dates` reads.**  When the years of all phrases are in the calendar, the range is
what the phrases leave of it, and the parts that were taken are the phrases. -/
theorem parseDates_of_valid (hvalid : ∀ p ∈ datePhrases query, p.Valid) :
    parseDates query .start =
      .ok ⟨narrowAll (datePhrases query) .empty, dateSpans query⟩ := by
  have hranges : ∀ p ∈ rangePhrases query, p.Valid := by
    intro p hp
    refine hvalid p ?_
    rw [datePhrases_eq]
    exact List.mem_append_left _ hp
  obtain ⟨hfrom, hto⟩ := narrowAll_full wellFormed_rangePhrases hranges
  have hcond : ((rangeReadings query).any fun r => r.2.givesStart) =
      (narrowAll (rangePhrases query) .empty).eventDateFrom.isSome ∧
      ((rangeReadings query).any fun r => r.2.givesEnd) =
      (narrowAll (rangePhrases query) .empty).eventDateTo.isSome := by
    rw [hfrom, hto]
    unfold rangePhrases
    rw [List.any_map, List.any_map]
    exact ⟨rfl, rfl⟩
  have hbare : bareYear query = if (narrowAll (rangePhrases query) .empty).eventDateFrom.isSome ∧
      (narrowAll (rangePhrases query) .empty).eventDateTo.isSome then none
      else (finditer yearRe query).find? fun m =>
        !(spansIn (rangeReadings query)).any fun s => s.holds m := by
    unfold bareYear spansIn
    dsimp only
    simp only [hcond.1, hcond.2, List.any_map]
    rfl
  rw [parseDates_ranges, readAll_of_valid hranges, ok_bind]
  unfold dateSpans dateReadings
  rw [datePhrases_eq]
  by_cases hfull : (narrowAll (rangePhrases query) .empty).eventDateFrom.isSome ∧
      (narrowAll (rangePhrases query) .empty).eventDateTo.isSome
  · rw [if_pos hfull] at hbare
    rw [pass_years_full hfull, hbare, Option.map_none, Option.map_none, Option.toList_none,
      List.append_nil, Option.toList_none, List.append_nil]
    rfl
  · rw [if_neg hfull] at hbare
    rw [pass_years (fun m hm => of_mem_finditer hm) hfull]
    unfold ParseState.firstFree ParseState.taken
    rw [← hbare]
    cases bareYear query with
    | none =>
        simp only [Option.map_none, Option.toList_none, List.append_nil]
        rfl
    | some m =>
        simp only [Option.map_some, Option.toList_some, List.map_append]
        unfold narrowAll
        rw [List.foldl_append]
        rfl

theorem valid_of_parseDates {st : ParseState} (h : parseDates query .start = .ok st) :
    ∀ p ∈ datePhrases query, p.Valid := by
  rw [parseDates_ranges, bind_ok] at h
  obtain ⟨st₁, hread, -⟩ := h
  unfold readAll at hread
  rw [bind_ok] at hread
  obtain ⟨parsed, hwrite, -⟩ := hread
  intro p hp
  rw [datePhrases_eq] at hp
  rcases List.mem_append.mp hp with hp | hp
  · have hall : (rangePhrases query).foldlM (fun parsed p => p.write parsed) .empty = .ok parsed := by
      unfold rangePhrases
      rw [List.foldlM_map]
      exact hwrite
    exact writeAll_ok wellFormed_rangePhrases hall p hp
  · obtain ⟨m, hm, rfl⟩ := Option.map_eq_some_iff.mp (Option.mem_toList.mp hp)
    trivial

end Query

end Atlas
