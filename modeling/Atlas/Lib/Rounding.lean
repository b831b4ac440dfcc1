import Mathlib.Algebra.Order.Floor.Ring
import Mathlib.Data.Int.ConditionallyCompleteOrder
import Mathlib.Data.Int.Log
import Mathlib.Data.Rat.Floor
import Mathlib.Tactic.Linarith

/-!
# Rounding to a binary floating-point format

A format has a precision and a least exponent.  A positive rational is rounded to
a multiple of its last place: a power of two that depends on the size of the
number.  How the multiple is chosen is a parameter.  If it is monotone and keeps
the integers, the rounding of the whole format is monotone too, although the last
place jumps at every power of two.
-/

namespace Rounding

/-- Choosing an integer for a rational: monotone, and the integers stay. -/
structure IsRounding (R : ℚ → ℤ) : Prop where
  mono : Monotone R
  int : ∀ n : ℤ, R n = n

variable {R : ℚ → ℤ} {p emin : ℤ} {a b q : ℚ}

/-- The exponent of the last place of a positive rational, in a format with
`p + 1` bits. -/
def place (p emin : ℤ) (q : ℚ) : ℤ := max (Int.log 2 q - p) emin

def nearest (R : ℚ → ℤ) (p emin : ℤ) (q : ℚ) : ℚ :=
  R (q / (2 : ℚ) ^ place p emin q) * (2 : ℚ) ^ place p emin q

theorem two_zpow_pos (e : ℤ) : (0 : ℚ) < (2 : ℚ) ^ e := zpow_pos (by norm_num) e

/-- A power of two not below the last place is a multiple of it. -/
theorem zpow_div_zpow {k e : ℤ} (h : e ≤ k) :
    ∃ n : ℤ, (2 : ℚ) ^ k / (2 : ℚ) ^ e = n := by
  obtain ⟨d, hd⟩ := Int.eq_ofNat_of_zero_le (sub_nonneg.mpr h)
  refine ⟨2 ^ d, ?_⟩
  rw [← zpow_sub₀ (by norm_num), hd]
  push_cast
  exact zpow_natCast 2 d

theorem le_of_le_zpow (hR : IsRounding R) {k e : ℤ} (he : e ≤ k) (h : q ≤ (2 : ℚ) ^ k) :
    (R (q / (2 : ℚ) ^ e) : ℚ) * (2 : ℚ) ^ e ≤ (2 : ℚ) ^ k := by
  obtain ⟨n, hn⟩ := zpow_div_zpow he
  have hle : q / (2 : ℚ) ^ e ≤ n := by
    rw [← hn]
    exact div_le_div_of_nonneg_right h (two_zpow_pos e).le
  have hround : R (q / (2 : ℚ) ^ e) ≤ n := (hR.mono hle).trans_eq (hR.int n)
  calc (R (q / (2 : ℚ) ^ e) : ℚ) * (2 : ℚ) ^ e
      ≤ n * (2 : ℚ) ^ e :=
        mul_le_mul_of_nonneg_right (Int.cast_le.mpr hround) (two_zpow_pos e).le
    _ = (2 : ℚ) ^ k := by rw [← hn, div_mul_cancel₀ _ (two_zpow_pos e).ne']

theorem le_of_zpow_le (hR : IsRounding R) {k e : ℤ} (he : e ≤ k) (h : (2 : ℚ) ^ k ≤ q) :
    (2 : ℚ) ^ k ≤ (R (q / (2 : ℚ) ^ e) : ℚ) * (2 : ℚ) ^ e := by
  obtain ⟨n, hn⟩ := zpow_div_zpow he
  have hle : (n : ℚ) ≤ q / (2 : ℚ) ^ e := by
    rw [← hn]
    exact div_le_div_of_nonneg_right h (two_zpow_pos e).le
  have hround : n ≤ R (q / (2 : ℚ) ^ e) := (hR.int n).symm.le.trans (hR.mono hle)
  calc (2 : ℚ) ^ k = n * (2 : ℚ) ^ e := by rw [← hn, div_mul_cancel₀ _ (two_zpow_pos e).ne']
    _ ≤ (R (q / (2 : ℚ) ^ e) : ℚ) * (2 : ℚ) ^ e :=
        mul_le_mul_of_nonneg_right (Int.cast_le.mpr hround) (two_zpow_pos e).le

/-- **Rounding is monotone.**  Within one binade the last place is the same; across
binades the power of two between them separates the results. -/
theorem nearest_mono (hR : IsRounding R) (hp : 0 ≤ p) (ha : 0 < a) (hab : a ≤ b) :
    nearest R p emin a ≤ nearest R p emin b := by
  have hlog : Int.log 2 a ≤ Int.log 2 b := Int.log_mono_right ha hab
  have hplace : place p emin a ≤ place p emin b := max_le_max (by omega) le_rfl
  rcases hplace.eq_or_lt with heq | hlt
  · unfold nearest
    rw [heq]
    have hdiv : a / (2 : ℚ) ^ place p emin b ≤ b / (2 : ℚ) ^ place p emin b :=
      div_le_div_of_nonneg_right hab (two_zpow_pos _).le
    exact mul_le_mul_of_nonneg_right (Int.cast_le.mpr (hR.mono hdiv)) (two_zpow_pos _).le
  · have hb : place p emin b = Int.log 2 b - p := by
      unfold place at hlt ⊢
      omega
    have hne : Int.log 2 a + 1 ≤ Int.log 2 b := by
      unfold place at hlt
      omega
    have hbelow : a ≤ (2 : ℚ) ^ Int.log 2 b := by
      have h := Int.lt_zpow_succ_log_self (b := 2) (by norm_num) a
      exact h.le.trans (zpow_le_zpow_right₀ (by norm_num) hne)
    have habove : (2 : ℚ) ^ Int.log 2 b ≤ b :=
      Int.zpow_log_le_self (b := 2) (by norm_num) (ha.trans_le hab)
    have hka : place p emin a ≤ Int.log 2 b := by omega
    have hkb : place p emin b ≤ Int.log 2 b := by omega
    exact (le_of_le_zpow hR hka hbelow).trans (le_of_zpow_le hR hkb habove)

theorem nearest_nonneg (hR : IsRounding R) (hq : 0 ≤ q) : 0 ≤ nearest R p emin q := by
  have hzero : (0 : ℤ) ≤ R (q / (2 : ℚ) ^ place p emin q) := by
    have h := hR.mono (div_nonneg hq (two_zpow_pos (place p emin q)).le)
    have h0 : R 0 = 0 := by simpa using hR.int 0
    rwa [h0] at h
  exact mul_nonneg (Int.cast_nonneg hzero) (two_zpow_pos _).le

/-! ## The numbers of a format -/

/-- A positive number with at most `p + 1` bits above the least exponent.  (The power of two with one
more bit is one as well.) -/
def Representable (p emin : ℤ) (q : ℚ) : Prop :=
  ∃ m e : ℤ, q = m * (2 : ℚ) ^ e ∧ 0 < m ∧ (m : ℚ) ≤ (2 : ℚ) ^ (p + 1) ∧ emin ≤ e

/-- Rounding keeps the multiples of the last place. -/
theorem nearest_of_multiple (hR : IsRounding R) {n : ℤ} (h : q / (2 : ℚ) ^ place p emin q = n) :
    nearest R p emin q = q := by
  unfold nearest
  rw [h, hR.int, ← h, div_mul_cancel₀ _ (two_zpow_pos _).ne']

/-- Rounding keeps the numbers of the format. -/
theorem nearest_of_representable (hR : IsRounding R) (hp : 0 ≤ p) (h : Representable p emin q) :
    nearest R p emin q = q := by
  obtain ⟨m, e, rfl, hpos, hbits, hmin⟩ := h
  have hm : (0 : ℚ) < m := by exact_mod_cast hpos
  have hq : 0 < (m : ℚ) * (2 : ℚ) ^ e := mul_pos hm (two_zpow_pos e)
  by_cases hplace : place p emin (m * (2 : ℚ) ^ e) ≤ e
  · obtain ⟨n, hn⟩ := zpow_div_zpow hplace
    have hmul : (m : ℚ) * (2 : ℚ) ^ e / (2 : ℚ) ^ place p emin (m * (2 : ℚ) ^ e) = ((m * n : ℤ) : ℚ) := by
      rw [mul_div_assoc, hn]
      push_cast
      rfl
    exact nearest_of_multiple hR hmul
  · -- the number has one bit more, so it is a power of two
    have hlog : e + p + 1 ≤ Int.log 2 ((m : ℚ) * (2 : ℚ) ^ e) := by
      unfold place at hplace
      omega
    have hlow : (2 : ℚ) ^ (e + p + 1) ≤ m * (2 : ℚ) ^ e :=
      (Int.zpow_le_iff_le_log (b := 2) (by norm_num) hq).mpr hlog
    have hhigh : (m : ℚ) * (2 : ℚ) ^ e ≤ (2 : ℚ) ^ (e + p + 1) := by
      calc (m : ℚ) * (2 : ℚ) ^ e ≤ (2 : ℚ) ^ (p + 1) * (2 : ℚ) ^ e :=
            mul_le_mul_of_nonneg_right hbits (two_zpow_pos e).le
        _ = (2 : ℚ) ^ (e + p + 1) := by
            rw [← zpow_add₀ (by norm_num)]
            congr 1
            omega
    have heq : (m : ℚ) * (2 : ℚ) ^ e = (2 : ℚ) ^ (e + p + 1) := le_antisymm hhigh hlow
    have hlogeq : Int.log 2 ((2 : ℚ) ^ (e + p + 1)) = e + p + 1 := by
      have h := Int.log_zpow (R := ℚ) (b := 2) (by norm_num) (e + p + 1)
      simpa using h
    have hle : place p emin ((2 : ℚ) ^ (e + p + 1)) ≤ e + p + 1 := by
      unfold place
      rw [hlogeq]
      omega
    obtain ⟨n, hn⟩ := zpow_div_zpow hle
    rw [heq]
    exact nearest_of_multiple hR hn

/-- What rounding returns is a number of the format, or zero. -/
theorem representable_nearest (hR : IsRounding R) (hp : 0 ≤ p) (hpos : 0 < nearest R p emin q) :
    Representable p emin (nearest R p emin q) := by
  refine ⟨R (q / (2 : ℚ) ^ place p emin q), place p emin q, rfl, ?_, ?_, le_max_right _ _⟩
  · have h := pos_of_mul_pos_left hpos (two_zpow_pos _).le
    exact_mod_cast h
  · have hlt := Int.lt_zpow_succ_log_self (b := 2) (by norm_num) q
    have hbound : q / (2 : ℚ) ^ place p emin q ≤ (2 : ℚ) ^ (p + 1) := by
      rw [div_le_iff₀ (two_zpow_pos _), ← zpow_add₀ (by norm_num)]
      refine hlt.le.trans ?_
      simp only [Nat.cast_ofNat]
      refine zpow_le_zpow_right₀ (by norm_num) ?_
      unfold place
      omega
    obtain ⟨n, hn⟩ := zpow_div_zpow (k := p + 1) (e := 0) (by omega)
    rw [zpow_zero, div_one] at hn
    rw [hn] at hbound ⊢
    exact_mod_cast (hR.mono hbound).trans_eq (hR.int n)

/-- **Rounding twice is rounding once.** -/
theorem nearest_nearest (hR : IsRounding R) (hp : 0 ≤ p) (hpos : 0 < nearest R p emin q) :
    nearest R p emin (nearest R p emin q) = nearest R p emin q :=
  nearest_of_representable hR hp (representable_nearest hR hp hpos)

/-- A number of the format without its fraction is one. -/
theorem representable_floor (hmin : emin ≤ 0) (h : Representable p emin q)
    (hpos : 0 < ⌊q⌋) : Representable p emin (⌊q⌋ : ℚ) := by
  obtain ⟨m, e, hq, hm, hbits, he⟩ := h
  by_cases hint : 0 ≤ e
  · -- the number is an integer
    obtain ⟨n, hn⟩ := zpow_div_zpow hint
    rw [zpow_zero, div_one] at hn
    have hfloor : q = ((m * n : ℤ) : ℚ) := by
      rw [hq, hn]
      push_cast
      rfl
    rw [hfloor, Int.floor_intCast, ← hfloor]
    exact ⟨m, e, hq, hm, hbits, he⟩
  · refine ⟨⌊q⌋, 0, by simp, hpos, ?_, hmin⟩
    have hcast : (0 : ℚ) ≤ m := by exact_mod_cast hm.le
    have hone : (2 : ℚ) ^ e ≤ 1 := by
      calc (2 : ℚ) ^ e ≤ (2 : ℚ) ^ (0 : ℤ) := zpow_le_zpow_right₀ (by norm_num) (by omega)
        _ = 1 := zpow_zero 2
    calc (⌊q⌋ : ℚ) ≤ q := Int.floor_le q
      _ = m * (2 : ℚ) ^ e := hq
      _ ≤ m := mul_le_of_le_one_right hcast hone
      _ ≤ (2 : ℚ) ^ (p + 1) := hbits

end Rounding
