import Atlas.Lib.Rounding
import Atlas.Values

/-!
# Arithmetic in doubles

Match scores are sums and products of doubles.  `double` is the value an operation
returns for its exact result.  Scores and weights are small, so the infinities
never come into it; below them rounding is monotone, which is what the thresholds
of the matcher rest on.
-/

namespace Atlas

/-- The value of a finite double. -/
def PyFloat.toRat : PyFloat → ℚ
  | finite q => q
  | inf _ => 0
  | nan => 0

/-- The value of the double nearest to a rational below the overflow range. -/
@[irreducible] def double (q : ℚ) : ℚ := (roundDouble q).toRat

/-- `round(x, 4)`: the double nearest to the decimal with four places nearest to
`x`. -/
def round4 (x : ℚ) : ℚ := double (roundHalfEven (x * 10000) / 10000)

theorem roundDouble_ne_nan (q : ℚ) : roundDouble q ≠ .nan := by
  unfold roundDouble
  split
  · simp
  · dsimp only
    split <;> simp

/-! ## Rounding to integers -/

theorem floor_le_roundHalfEven (q : ℚ) : ⌊q⌋ ≤ roundHalfEven q := by
  unfold roundHalfEven
  dsimp only
  split_ifs <;> omega

theorem roundHalfEven_le_floor (q : ℚ) : roundHalfEven q ≤ ⌊q⌋ + 1 := by
  unfold roundHalfEven
  dsimp only
  split_ifs <;> omega

theorem roundHalfEven_isRounding : Rounding.IsRounding roundHalfEven := by
  refine ⟨?_, ?_⟩
  · intro a b hab
    rcases (Int.floor_mono hab).eq_or_lt with heq | hlt
    · unfold roundHalfEven
      dsimp only
      rw [heq]
      split_ifs <;> first | omega | (exfalso; linarith)
    · calc roundHalfEven a ≤ ⌊a⌋ + 1 := roundHalfEven_le_floor a
        _ ≤ ⌊b⌋ := hlt
        _ ≤ roundHalfEven b := floor_le_roundHalfEven b
  · intro n
    simp [roundHalfEven]

/-! ## The last place -/

theorem two_pow_log2_le {n : Nat} (h : n ≠ 0) : (2 : ℚ) ^ (Nat.log2 n : Int) ≤ n := by
  rw [zpow_natCast]
  exact_mod_cast Nat.log2_self_le h

theorem lt_two_pow_log2 (n : Nat) : (n : ℚ) < (2 : ℚ) ^ ((Nat.log2 n : Int) + 1) := by
  have h := @Nat.lt_log2_self n
  have hcast : ((Nat.log2 n : Int) + 1) = ((Nat.log2 n + 1 : Nat) : Int) := by push_cast; rfl
  rw [hcast, zpow_natCast]
  exact_mod_cast h

/-- A positive rational lies within a factor of two of the quotient of the powers
of two below its numerator and its denominator. -/
theorem log2_bounds {q : ℚ} (hq : 0 < q) :
    let e : Int := (Nat.log2 q.num.natAbs : Int) - Nat.log2 q.den
    (2 : ℚ) ^ (e - 1) ≤ q ∧ q < (2 : ℚ) ^ (e + 1) := by
  intro e
  have hnum : q.num.natAbs ≠ 0 := by
    rw [Int.natAbs_ne_zero]
    exact (Rat.num_pos.mpr hq).ne'
  have hden : (0 : ℚ) < q.den := by exact_mod_cast q.den_pos
  have hval : q = (q.num.natAbs : ℚ) / q.den := by
    have habs : ((q.num.natAbs : Int) : ℚ) = q.num := by
      rw [Int.natAbs_of_nonneg (Rat.num_pos.mpr hq).le]
    calc q = (q.num : ℚ) / q.den := (Rat.num_div_den q).symm
      _ = (q.num.natAbs : ℚ) / q.den := by rw [← habs]; rfl
  have htwo : (2 : ℚ) ≠ 0 := by norm_num
  rw [hval]
  constructor
  · rw [le_div_iff₀ hden]
    calc (2 : ℚ) ^ (e - 1) * q.den
        ≤ (2 : ℚ) ^ (e - 1) * (2 : ℚ) ^ ((Nat.log2 q.den : Int) + 1) :=
          mul_le_mul_of_nonneg_left (lt_two_pow_log2 q.den).le (Rounding.two_zpow_pos _).le
      _ = (2 : ℚ) ^ (Nat.log2 q.num.natAbs : Int) := by
          rw [← zpow_add₀ htwo]
          congr 1
          omega
      _ ≤ q.num.natAbs := two_pow_log2_le hnum
  · rw [div_lt_iff₀ hden]
    calc (q.num.natAbs : ℚ) < (2 : ℚ) ^ ((Nat.log2 q.num.natAbs : Int) + 1) :=
          lt_two_pow_log2 _
      _ = (2 : ℚ) ^ (e + 1) * (2 : ℚ) ^ (Nat.log2 q.den : Int) := by
          rw [← zpow_add₀ htwo]
          congr 1
          omega
      _ ≤ (2 : ℚ) ^ (e + 1) * q.den :=
          mul_le_mul_of_nonneg_left (two_pow_log2_le q.den_ne_zero) (Rounding.two_zpow_pos _).le

theorem eq_log_of_bounds {q : ℚ} (hq : 0 < q) {e : Int} (hlo : (2 : ℚ) ^ e ≤ q)
    (hhi : q < (2 : ℚ) ^ (e + 1)) : e = Int.log 2 q := by
  have h1 := (Int.zpow_le_iff_le_log (b := 2) (by norm_num) hq).mp hlo
  have h2 := (Int.lt_zpow_iff_log_lt (b := 2) (by norm_num) hq).mp hhi
  omega

theorem lastPlace_eq_place {q : ℚ} (hq : 0 < q) : lastPlace q = Rounding.place 52 (-1074) q := by
  obtain ⟨hlo, hhi⟩ := log2_bounds hq
  unfold lastPlace Rounding.place
  dsimp only
  split_ifs with h
  · rw [eq_log_of_bounds hq h hhi]
  · have hlt : q < (2 : ℚ) ^
        ((Nat.log2 q.num.natAbs : Int) - Nat.log2 q.den - 1 + 1) := by
      rw [sub_add_cancel]
      exact not_le.mp h
    rw [eq_log_of_bounds hq hlo hlt]

/-! ## Doubles -/

theorem roundDouble_zero : roundDouble 0 = .finite 0 := by simp [roundDouble]

theorem roundDouble_of_pos {q : ℚ} (hq : 0 < q) :
    roundDouble q =
      if (2 : ℚ) ^ (1024 : Int) ≤ Rounding.nearest roundHalfEven 52 (-1074) q then .inf false
      else .finite (Rounding.nearest roundHalfEven 52 (-1074) q) := by
  unfold roundDouble Rounding.nearest
  rw [if_neg hq.ne', abs_of_pos hq, lastPlace_eq_place hq]
  dsimp only
  rw [decide_eq_false (not_lt.mpr hq.le), if_neg (not_lt.mpr hq.le)]

theorem roundDouble_eq_inf {q : ℚ} {negative : Bool} (hq : 0 ≤ q)
    (h : roundDouble q = .inf negative) : negative = false := by
  rcases hq.eq_or_lt with rfl | hpos
  · rw [roundDouble_zero] at h
    cases h
  · rw [roundDouble_of_pos hpos] at h
    split at h
    · exact (PyFloat.inf.inj h).symm
    · cases h

theorem roundDouble_neg (q : ℚ) : roundDouble (-q) = (roundDouble q).neg := by
  rcases lt_trichotomy q 0 with hq | rfl | hq
  · have hneg : 0 < -q := neg_pos.mpr hq
    unfold roundDouble
    rw [if_neg hneg.ne', if_neg hq.ne, abs_neg]
    dsimp only
    split <;> simp [PyFloat.neg, hq, hq.le]
  · simp [roundDouble_zero, PyFloat.neg]
  · have hneg : -q < 0 := neg_neg_iff_pos.mpr hq
    unfold roundDouble
    rw [if_neg hneg.ne, if_neg hq.ne', abs_neg]
    dsimp only
    split <;> simp [PyFloat.neg, hq, hq.le]

/-- **A double is rounded to itself.** -/
theorem roundDouble_roundDouble {q r : ℚ} (h : roundDouble q = .finite r) :
    roundDouble r = .finite r := by
  have hpositive {q r : ℚ} (hq : 0 < q) (h : roundDouble q = .finite r) : roundDouble r = .finite r := by
    rw [roundDouble_of_pos hq] at h
    split at h
    · cases h
    · rename_i hfinite
      obtain rfl := PyFloat.finite.inj h
      have hnonneg : 0 ≤ Rounding.nearest roundHalfEven 52 (-1074) q :=
        Rounding.nearest_nonneg roundHalfEven_isRounding hq.le
      rcases hnonneg.eq_or_lt with hzero | hpos
      · rw [← hzero, roundDouble_zero]
      · rw [roundDouble_of_pos hpos,
          Rounding.nearest_nearest roundHalfEven_isRounding (by norm_num) hpos, if_neg hfinite]
  rcases lt_trichotomy q 0 with hq | rfl | hq
  · have hneg : roundDouble (-q) = .finite (-r) := by
      rw [roundDouble_neg, h]
      rfl
    have hfixed := hpositive (neg_pos.mpr hq) hneg
    rw [roundDouble_neg] at hfixed
    cases hr : roundDouble r <;> simp_all [PyFloat.neg]
  · rw [roundDouble_zero] at h
    obtain rfl := PyFloat.finite.inj h
    exact roundDouble_zero
  · exact hpositive hq h

/-- A double without its fraction is a double. -/
theorem roundDouble_floor {q : ℚ} (hq : 0 ≤ q) (h : roundDouble q = .finite q) :
    roundDouble (⌊q⌋ : ℚ) = .finite ⌊q⌋ := by
  rcases (Int.floor_nonneg.mpr hq).eq_or_lt with hzero | hpos
  · rw [← hzero, Int.cast_zero, roundDouble_zero]
  · have hle : (⌊q⌋ : ℚ) ≤ q := Int.floor_le q
    have hcast : (0 : ℚ) < ⌊q⌋ := by exact_mod_cast hpos
    have hqpos : 0 < q := hcast.trans_le hle
    rw [roundDouble_of_pos hqpos] at h
    split at h
    · cases h
    · rename_i hfinite
      have hfixed := PyFloat.finite.inj h
      have hrep : Rounding.Representable 52 (-1074) q := by
        have hnear := Rounding.representable_nearest roundHalfEven_isRounding (by norm_num)
          (hfixed.symm ▸ hqpos : 0 < Rounding.nearest roundHalfEven 52 (-1074) q)
        rwa [hfixed] at hnear
      have hkept := Rounding.nearest_of_representable roundHalfEven_isRounding (by norm_num)
        (Rounding.representable_floor (by norm_num) hrep hpos)
      rw [hfixed] at hfinite
      rw [roundDouble_of_pos hcast, hkept, if_neg fun hlarge => hfinite (hlarge.trans hle)]

theorem double_zero : double 0 = 0 := by
  simp [double, roundDouble, PyFloat.toRat]

section Range

variable {a b q : ℚ} {k : ℤ} (hk : -1074 ≤ k ∧ k < 1024)

include hk in
/-- Rounding does not leave the numbers up to a power of two. -/
theorem nearest_le_zpow (hq : 0 < q) (hle : q ≤ (2 : ℚ) ^ k) :
    Rounding.nearest roundHalfEven 52 (-1074) q ≤ (2 : ℚ) ^ k := by
  apply Rounding.le_of_le_zpow roundHalfEven_isRounding _ hle
  have hlog : Int.log 2 q ≤ Int.log 2 ((2 : ℚ) ^ k) := Int.log_mono_right hq hle
  have hpow : Int.log 2 ((2 : ℚ) ^ k) = k := by
    have h := Int.log_zpow (R := ℚ) (b := 2) (by norm_num) k
    simpa using h
  rw [hpow] at hlog
  unfold Rounding.place
  omega

include hk in
/-- Below the overflow range a positive rational is rounded in the format of
doubles. -/
theorem double_eq_nearest (hq : 0 < q) (hle : q ≤ (2 : ℚ) ^ k) :
    double q = Rounding.nearest roundHalfEven 52 (-1074) q := by
  have hfinite : ¬ (2 : ℚ) ^ (1024 : Int) ≤ Rounding.nearest roundHalfEven 52 (-1074) q :=
    not_le.mpr ((nearest_le_zpow hk hq hle).trans_lt (zpow_lt_zpow_right₀ (by norm_num) hk.2))
  unfold double roundDouble
  rw [if_neg hq.ne', abs_of_pos hq, lastPlace_eq_place hq]
  unfold Rounding.nearest at hfinite ⊢
  dsimp only
  rw [if_neg hfinite, if_neg (not_lt.mpr hq.le)]
  rfl

include hk in
/-- **Rounding to doubles is monotone**, below the overflow range. -/
theorem double_mono_of_le (ha : 0 ≤ a) (hab : a ≤ b) (hb : b ≤ (2 : ℚ) ^ k) : double a ≤ double b := by
  rcases ha.eq_or_lt with rfl | hpos
  · rw [double_zero]
    rcases hab.eq_or_lt with rfl | hpos
    · rw [double_zero]
    · rw [double_eq_nearest hk hpos hb]
      exact Rounding.nearest_nonneg roundHalfEven_isRounding hpos.le
  · rw [double_eq_nearest hk hpos (hab.trans hb), double_eq_nearest hk (hpos.trans_le hab) hb]
    exact Rounding.nearest_mono roundHalfEven_isRounding (by norm_num) hpos hab

include hk in
/-- So what is smaller as a double is smaller. -/
theorem lt_of_double_lt (hb : 0 ≤ b) (ha : a ≤ (2 : ℚ) ^ k) (h : double a < double b) : a < b := by
  by_contra hle
  exact absurd (double_mono_of_le hk hb (not_lt.mp hle) ha) (not_le.mpr h)

include hk in
theorem double_le_zpow (ha : 0 ≤ a) (hle : a ≤ (2 : ℚ) ^ k) : double a ≤ (2 : ℚ) ^ k := by
  rcases ha.eq_or_lt with rfl | hpos
  · rw [double_zero]
    exact (Rounding.two_zpow_pos k).le
  · rw [double_eq_nearest hk hpos hle]
    exact nearest_le_zpow hk hpos hle

end Range

theorem double_mono {a b : ℚ} (ha : 0 ≤ a) (hab : a ≤ b) (hb : b ≤ 2) : double a ≤ double b :=
  @double_mono_of_le a b 1 (by norm_num) ha hab (by simpa using hb)

theorem double_nonneg {a : ℚ} (ha : 0 ≤ a) (hle : a ≤ 2) : 0 ≤ double a := by
  have h := double_mono le_rfl ha hle
  rwa [double_zero] at h

theorem round4_mono {a b : ℚ} (ha : 0 ≤ a) (hab : a ≤ b) (hb : b ≤ 3 / 2) :
    round4 a ≤ round4 b := by
  have hint : roundHalfEven (a * 10000) ≤ roundHalfEven (b * 10000) :=
    roundHalfEven_isRounding.mono (by linarith)
  have hzero : 0 ≤ roundHalfEven (a * 10000) := by
    have h := roundHalfEven_isRounding.mono (show (0 : ℚ) ≤ a * 10000 by linarith)
    rwa [show roundHalfEven 0 = 0 by simpa using roundHalfEven_isRounding.int 0] at h
  have htop : roundHalfEven (b * 10000) ≤ 15000 := by
    have h := roundHalfEven_isRounding.mono (show b * 10000 ≤ ((15000 : Int) : ℚ) by
      push_cast; linarith)
    rwa [roundHalfEven_isRounding.int] at h
  have hzero' : (0 : ℚ) ≤ roundHalfEven (a * 10000) := by exact_mod_cast hzero
  have hint' : (roundHalfEven (a * 10000) : ℚ) ≤ roundHalfEven (b * 10000) := by exact_mod_cast hint
  have htop' : (roundHalfEven (b * 10000) : ℚ) ≤ 15000 := by exact_mod_cast htop
  exact double_mono (by linarith) (by linarith) (by linarith)

end Atlas
