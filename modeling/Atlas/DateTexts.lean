import Atlas.EventMatching
import Atlas.Normalizer
import Mathlib.Tactic.IntervalCases

/-!
# The texts of dates

A number written with a fixed number of digits is read back, and nothing else reads as
it.  So a text that `_norm_date` reads spells the date in one of two ways: as `YYYY-MM-DD` with a
hyphen or a slash in either place, or as `YYYYMMDD` with nothing or two more bytes behind it.
-/

namespace Atlas

open Nat

theorem asciiDigit_eq_some {c : Char} {d : Nat} : asciiDigit c = some d ↔ d < 10 ∧ c = digitChar d := by
  constructor
  · intro h
    unfold asciiDigit at h
    split at h
    · rename_i hc
      obtain rfl := Option.some.inj h
      have hlow : 48 ≤ c.toNat := hc.1
      have hhigh : c.toNat ≤ 57 := hc.2
      have hlt : c.toNat - '0'.toNat < 10 := by
        have hzero : '0'.toNat = 48 := rfl
        omega
      refine ⟨hlt, ?_⟩
      rw [← Char.toNat_inj]
      have hzero : '0'.toNat = 48 := rfl
      rw [hzero]
      generalize hn : c.toNat = n at hlow hhigh
      interval_cases n <;> rfl
    · cases h
  · rintro ⟨hd, rfl⟩
    interval_cases d <;> rfl

theorem padded_one {n : Nat} (hn : n < 10) : padded 1 n = [digitChar n] := by
  unfold padded
  rw [toDigits_of_lt_base hn]
  rfl

/-- The last digit stands behind the others. -/
theorem padded_succ {k : Nat} (hk : 0 < k) (n : Nat) :
    padded (k + 1) n = padded k (n / 10) ++ [digitChar (n % 10)] := by
  unfold padded
  by_cases hn : n < 10
  · rw [toDigits_of_lt_base hn, div_eq_of_lt hn, mod_eq_of_lt hn, toDigits_zero]
    have hzeros : List.replicate (k - 1) '0' ++ ['0'] = List.replicate k '0' := by
      rw [← List.replicate_succ']
      congr 1
      omega
    simp [hzeros]
  · rw [toDigits_of_base_le (by omega) (by omega)]
    simp

@[simp] theorem length_padded {k : Nat} (hk : 0 < k) {n : Nat} (hn : n < 10 ^ k) :
    (padded k n).length = k := by
  have hle := (length_toDigits_le_iff (b := 10) (by omega) hk).mpr hn
  unfold padded
  simp only [List.length_append, List.length_replicate]
  omega

theorem asciiNumber_append (cs : List Char) (c : Char) :
    asciiNumber (cs ++ [c]) =
      (asciiNumber cs).bind fun n => (asciiDigit c).map (n * 10 + ·) := by
  unfold asciiNumber
  rw [List.foldlM_append]
  simp

/-- **A number of a fixed width** has one text. -/
theorem asciiNumber_eq_some {k : Nat} (hk : 0 < k) {cs : List Char} (hlen : cs.length = k) {n : Nat} :
    asciiNumber cs = some n ↔ n < 10 ^ k ∧ cs = padded k n := by
  induction k, hk using Nat.le_induction generalizing cs n with
  | base =>
      obtain ⟨c, rfl⟩ := List.length_eq_one_iff.mp hlen
      have hnumber : asciiNumber [c] = asciiDigit c := by
        unfold asciiNumber
        simp
      rw [hnumber, asciiDigit_eq_some, pow_one]
      constructor
      · rintro ⟨hn, rfl⟩
        exact ⟨hn, (padded_one hn).symm⟩
      · rintro ⟨hn, hc⟩
        rw [padded_one hn, List.singleton_inj] at hc
        exact ⟨hn, hc⟩
  | succ k hk ih =>
      obtain ⟨init, c, rfl⟩ : ∃ init c, cs = init ++ [c] := by
        refine ⟨cs.dropLast, cs.getLast (by rintro rfl; simp at hlen), ?_⟩
        exact (List.dropLast_append_getLast _).symm
      have hinit : init.length = k := by simpa using hlen
      rw [asciiNumber_append, Option.bind_eq_some_iff]
      constructor
      · rintro ⟨m, hm, hd⟩
        obtain ⟨d, hdigit, rfl⟩ := Option.map_eq_some_iff.mp hd
        obtain ⟨hlt, rfl⟩ := (ih hinit).mp hm
        obtain ⟨hten, rfl⟩ := asciiDigit_eq_some.mp hdigit
        have hdiv : (m * 10 + d) / 10 = m := by omega
        have hmod : (m * 10 + d) % 10 = d := by omega
        refine ⟨by rw [pow_succ]; omega, ?_⟩
        rw [padded_succ hk, hdiv, hmod]
      · rintro ⟨hn, hcs⟩
        rw [padded_succ hk] at hcs
        obtain rfl := List.append_inj_left' hcs rfl
        obtain rfl := List.singleton_inj.mp (List.append_inj_right' hcs rfl)
        rw [pow_succ] at hn
        refine ⟨n / 10, (ih hinit).mpr ⟨by omega, rfl⟩, ?_⟩
        rw [asciiDigit_eq_some.mpr ⟨Nat.mod_lt n (by omega), rfl⟩, Option.map_some]
        congr 1
        omega

theorem PyDate.mk?_eq_some {year month day : Nat} {d : PyDate} :
    PyDate.mk? year month day = some d ↔ d.year = year ∧ d.month = month ∧ d.day = day := by
  unfold PyDate.mk?
  constructor
  · intro h
    split at h
    · obtain rfl := Option.some.inj h
      exact ⟨rfl, rfl, rfl⟩
    · cases h
  · rintro ⟨rfl, rfl, rfl⟩
    rw [dif_pos d.valid]

/-- The spellings of a date that `_norm_date` reads. -/
def PyDate.spellings (d : PyDate) : Set Text :=
  {cs | (∃ s t, (s = '-' ∨ s = '/') ∧ (t = '-' ∨ t = '/') ∧
      cs = padded 4 d.year ++ s :: (padded 2 d.month ++ t :: padded 2 d.day)) ∨
    ∃ rest, (utf8Length rest = 0 ∨ utf8Length rest = 2) ∧
      cs = padded 4 d.year ++ (padded 2 d.month ++ (padded 2 d.day ++ rest))}

theorem PyDate.bounds (d : PyDate) : d.year < 10 ^ 4 ∧ d.month < 10 ^ 2 ∧ d.day < 10 ^ 2 := by
  obtain ⟨-, hyear, -, hmonth, -, hday⟩ := d.valid
  have hdays : daysInMonth d.year d.month ≤ 31 := by
    unfold daysInMonth
    repeat' split
    all_goals omega
  exact ⟨by omega, by omega, by omega⟩

theorem PyDate.lengths (d : PyDate) :
    (padded 4 d.year).length = 4 ∧ (padded 2 d.month).length = 2 ∧ (padded 2 d.day).length = 2 := by
  obtain ⟨hyear, hmonth, hday⟩ := d.bounds
  exact ⟨length_padded (by omega) hyear, length_padded (by omega) hmonth,
    length_padded (by omega) hday⟩

theorem build_eq_some {year month day : List Char} (hyear : year.length = 4)
    (hmonth : month.length = 2) (hday : day.length = 2) {d : PyDate} :
    parseIsoDate.build year month day = some d ↔
      year = padded 4 d.year ∧ month = padded 2 d.month ∧ day = padded 2 d.day := by
  have hbound := d.bounds
  unfold parseIsoDate.build
  simp only [Option.bind_eq_bind, Option.bind_eq_some_iff, PyDate.mk?_eq_some]
  constructor
  · rintro ⟨y, hy, m, hm, dd, hd, rfl, rfl, rfl⟩
    exact ⟨((asciiNumber_eq_some (by omega) hyear).mp hy).2,
      ((asciiNumber_eq_some (by omega) hmonth).mp hm).2, ((asciiNumber_eq_some (by omega) hday).mp hd).2⟩
  · rintro ⟨hy, hm, hd⟩
    exact ⟨d.year, (asciiNumber_eq_some (by omega) hyear).mpr ⟨hbound.1, hy⟩,
      d.month, (asciiNumber_eq_some (by omega) hmonth).mpr ⟨hbound.2.1, hm⟩,
      d.day, (asciiNumber_eq_some (by omega) hday).mpr ⟨hbound.2.2, hd⟩, rfl, rfl, rfl⟩

/-- A month does not begin with a separator. -/
theorem build_of_separator {year day : List Char} {s m : Char} (hs : s = '-' ∨ s = '/') :
    parseIsoDate.build year [s, m] day = none := by
  have hnone : asciiDigit s = none := by
    rcases hs with rfl | rfl
    · decide
    · decide
  have hmonth : asciiNumber [s, m] = none := by simp [asciiNumber, hnone]
  unfold parseIsoDate.build
  rw [hmonth]
  cases asciiNumber year with
  | none => rfl
  | some y => rfl

theorem parseIsoDate_separated {year month day : List Char} (hyear : year.length = 4)
    (hmonth : month.length = 2) (hday : day.length = 2) {s t : Char} (hs : s = '-' ∨ s = '/')
    (ht : t = '-' ∨ t = '/') :
    parseIsoDate (year ++ s :: (month ++ t :: day)) = parseIsoDate.build year month day :=
  match year, month, day, hyear, hmonth, hday with
  | [_, _, _, _], [_, _], [_, _], _, _, _ => if_pos ⟨hs, ht, rfl⟩

theorem parseIsoDate_compact {year month day rest : List Char} (hyear : year.length = 4)
    (hmonth : month.length = 2) (hday : day.length = 2) (hrest : utf8Length rest = 0 ∨ utf8Length rest = 2)
    {d : PyDate} (h : parseIsoDate.build year month day = some d) :
    parseIsoDate (year ++ (month ++ (day ++ rest))) = some d :=
  match year, month, day, hyear, hmonth, hday, h with
  | [_, _, _, _], [s, m], [_, _], _, _, _, h => by
      have hdigit : ¬ (s = '-' ∨ s = '/') := by
        intro hs
        rw [build_of_separator hs] at h
        cases h
      exact (if_neg fun hsep => hdigit hsep.1).trans ((if_pos hrest).trans h)

/-- **The texts of a date.**  A text is read as a date exactly when it spells it. -/
theorem parseIsoDate_eq_some {cs : Text} {d : PyDate} : parseIsoDate cs = some d ↔ cs ∈ d.spellings := by
  obtain ⟨hyear, hmonth, hday⟩ := d.lengths
  constructor
  · intro h
    unfold parseIsoDate at h
    split at h
    · rename_i y₁ y₂ y₃ y₄ s m₁ m₂ t rest
      split at h
      · rename_i hsep
        obtain ⟨hs, ht, hlength⟩ := hsep
        obtain ⟨hy, hm, hd⟩ := (build_eq_some rfl rfl hlength).mp h
        refine .inl ⟨s, t, hs, ht, ?_⟩
        rw [← hy, ← hm, ← hd]
        rfl
      · split at h
        · rename_i hrest
          obtain ⟨hy, hm, hd⟩ := (build_eq_some rfl rfl rfl).mp h
          refine .inr ⟨rest, hrest, ?_⟩
          rw [← hy, ← hm, ← hd]
          rfl
        · cases h
    · cases h
  · intro h
    have hbuild : parseIsoDate.build (padded 4 d.year) (padded 2 d.month) (padded 2 d.day) = some d :=
      (build_eq_some hyear hmonth hday).mpr ⟨rfl, rfl, rfl⟩
    rcases h with ⟨s, t, hs, ht, rfl⟩ | ⟨rest, hrest, rfl⟩
    · rw [parseIsoDate_separated hyear hmonth hday hs ht]
      exact hbuild
    · exact parseIsoDate_compact hyear hmonth hday hrest hbuild

example : (parseIsoDate "2024060312".toList).map PyDate.toOrdinal =
    (parseIsoDate "2024/06-03".toList).map PyDate.toOrdinal := by decide

/-- The text of a date is read back. -/
theorem parseIsoDate_isoformat (d : PyDate) : parseIsoDate d.isoformat.toList = some d := by
  refine parseIsoDate_eq_some.mpr (.inl ⟨'-', '-', .inl rfl, .inl rfl, ?_⟩)
  simp [PyDate.isoformat]

end Atlas
