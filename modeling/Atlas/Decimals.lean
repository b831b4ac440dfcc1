import Atlas.Doubles
import Mathlib.Tactic.Linarith

/-!
# Scores as exact decimals

`round(x, 4)` of a score that is computed exactly.  Rounding to even takes everything from half a
place below an even edge up to the edge.
-/

namespace Atlas

/-- `round(x, 4)`, as an exact decimal. -/
def exactRound4 (x : ℚ) : ℚ := roundHalfEven (x * 10000) / 10000

/-- What is rounded to an even number or above it. -/
theorem le_roundHalfEven_iff {n : Int} (hn : n % 2 = 0) {q : ℚ} :
    n ≤ roundHalfEven q ↔ (n : ℚ) - 1 / 2 ≤ q := by
  have hlow := Int.floor_le q
  have hhigh := Int.lt_floor_add_one q
  unfold roundHalfEven
  dsimp only
  generalize ⌊q⌋ = lo at hlow hhigh
  -- between integers, an order of rationals less than one apart is one of integers
  have hle (m : Int) (h : (n : ℚ) < m + 1) : n ≤ m := by
    have hlt : n < m + 1 := by exact_mod_cast h
    omega
  split
  · constructor
    · intro h
      have hcast : (n : ℚ) ≤ lo := by exact_mod_cast h
      linarith
    · intro h
      exact hle lo (by linarith)
  · split
    · constructor
      · intro h
        have hcast : (n : ℚ) ≤ (lo + 1 : Int) := by exact_mod_cast h
        push_cast at hcast
        linarith
      · intro h
        refine hle (lo + 1) ?_
        push_cast
        linarith
    · have hhalf : q = lo + 1 / 2 := by linarith
      subst hhalf
      have hnear : (n : ℚ) - 1 / 2 ≤ lo + 1 / 2 ↔ n ≤ lo + 1 := by
        constructor
        · intro h
          have hcast : (n : ℚ) ≤ (lo + 1 : Int) := by
            push_cast
            linarith
          exact_mod_cast hcast
        · intro h
          have hcast : (n : ℚ) ≤ (lo + 1 : Int) := by exact_mod_cast h
          push_cast at hcast
          linarith
      rw [hnear]
      split <;> omega

/-- **Edges.**  A score is rounded to an edge with an even last place, or above it, exactly from
half a place below the edge. -/
theorem edge_le_exactRound4 {n : Int} (hn : n % 2 = 0) {x : ℚ} :
    (n : ℚ) / 10000 ≤ exactRound4 x ↔ (n : ℚ) / 10000 - 1 / 20000 ≤ x := by
  unfold exactRound4
  rw [div_le_div_iff_of_pos_right (by norm_num), Int.cast_le, le_roundHalfEven_iff hn]
  constructor <;> intro h <;> linarith

end Atlas
