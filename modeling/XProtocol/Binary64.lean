import Mathlib.Data.Int.Log
import Mathlib.Data.Rat.Floor
import Mathlib.Tactic.Linarith
import Mathlib.Tactic.Positivity
import Mathlib.Tactic.NormNum
import Mathlib.Tactic.FieldSimp

/-! Rounding to binary64.

A number is rounded to 53 significant bits, a tie to the even neighbour. Nothing here is
so small or so large that the range of the exponent matters. An integer of 53 bits is
kept (`round_natCast`), and so is the ceiling of its hundredth part (`ceil_round_div`). -/
namespace Binary64

/-- The nearest integer; of two, the even one. -/
def nearest (x : ℚ) : ℤ :=
  if x - ⌊x⌋ < 1 / 2 then ⌊x⌋
  else if 1 / 2 < x - ⌊x⌋ then ⌊x⌋ + 1
  else if ⌊x⌋ % 2 = 0 then ⌊x⌋ else ⌊x⌋ + 1

/-- The unit in the last place. -/
def ulp (x : ℚ) : ℚ := 2 ^ (Int.log 2 x - 52)

def round (x : ℚ) : ℚ := nearest (x / ulp x) * ulp x

theorem nearest_intCast (n : ℤ) : nearest n = n := by simp [nearest]

theorem abs_nearest_sub_le (x : ℚ) : |nearest x - x| ≤ 1 / 2 := by
  have hfloor := Int.floor_le x
  have hlt := Int.lt_floor_add_one x
  unfold nearest
  rw [abs_le]
  split_ifs <;> push_cast <;> constructor <;> linarith

theorem ulp_pos (x : ℚ) : 0 < ulp x := zpow_pos two_pos _

theorem ulp_le {x : ℚ} (hx : 0 < x) : ulp x ≤ x / 2 ^ 52 := by
  have hlog := Int.zpow_log_le_self (b := 2) one_lt_two hx
  rw [ulp, zpow_sub₀ two_ne_zero]
  exact div_le_div_of_nonneg_right (by exact_mod_cast hlog) (by positivity)

theorem abs_round_sub_le (x : ℚ) : |round x - x| ≤ ulp x / 2 := by
  have hulp := ulp_pos x
  have hmul : round x - x = (nearest (x / ulp x) - x / ulp x) * ulp x := by
    rw [round, sub_mul, div_mul_cancel₀ _ hulp.ne']
  rw [hmul, abs_mul, abs_of_pos hulp]
  have hnear := mul_le_mul_of_nonneg_right (abs_nearest_sub_le (x / ulp x)) hulp.le
  linarith

/-- An integer of 53 bits is rounded to itself. -/
theorem round_natCast {n : ℕ} (hn : n < 2 ^ 53) : round n = n := by
  have hlog : Nat.log 2 n ≤ 52 := Nat.lt_succ_iff.mp (Nat.log_lt_of_lt_pow' (by decide) hn)
  have hulp : (n : ℚ) / ulp n = ((n * 2 ^ (52 - Nat.log 2 n) : ℕ) : ℤ) := by
    have hexp : (Nat.log 2 n : ℤ) - 52 = -((52 - Nat.log 2 n : ℕ) : ℤ) := by omega
    rw [ulp, Int.log_natCast, hexp, zpow_neg, div_inv_eq_mul, zpow_natCast]
    push_cast
    rfl
  rw [round, hulp, nearest_intCast, ← hulp, div_mul_cancel₀ _ (ulp_pos _).ne']

/-- The hundredth part of an integer of 53 bits keeps its ceiling. -/
theorem ceil_round_div {n : ℕ} (hn : n < 2 ^ 53) : ⌈round ((n : ℚ) / 100)⌉ = ⌈(n : ℚ) / 100⌉ := by
  by_cases hzero : n = 0
  · subst hzero
    simp [round, nearest]
  have hpos : 0 < (n : ℚ) / 100 := by
    have : 0 < n := Nat.pos_of_ne_zero hzero
    positivity
  -- the error is less than a hundredth, and so is the way to an integer that is not reached
  have herror : |round ((n : ℚ) / 100) - (n : ℚ) / 100| < 1 / 100 := by
    have hbound : (n : ℚ) < 2 ^ 53 := by exact_mod_cast hn
    have hulp := ulp_le hpos
    have hround := abs_round_sub_le ((n : ℚ) / 100)
    refine lt_of_le_of_lt (hround.trans (by linarith : ulp ((n : ℚ) / 100) / 2 ≤ n / 100 / 2 ^ 52 / 2)) ?_
    linarith
  obtain ⟨hlow, hhigh⟩ := abs_lt.mp herror
  have hceil := Int.le_ceil ((n : ℚ) / 100)
  have hlt := Int.ceil_lt_add_one ((n : ℚ) / 100)
  set k := ⌈(n : ℚ) / 100⌉ with hk
  have hcentre : (100 * (k - 1) : ℤ) < n := by
    have : (100 * (k - 1) : ℚ) < n := by linarith
    exact_mod_cast this
  have hcentre' : (100 * (k - 1) + 1 : ℚ) ≤ n := by exact_mod_cast hcentre
  rw [Int.ceil_eq_iff]
  refine ⟨by linarith, ?_⟩
  by_cases hexact : (n : ℚ) / 100 = k
  · obtain ⟨m, hm⟩ : ∃ m : ℕ, k = m := Int.eq_ofNat_of_zero_le (Int.ceil_nonneg hpos.le)
    have hcast : (k : ℚ) = m := by exact_mod_cast hm
    have hmn : m ≤ n := by
      have : (m : ℚ) ≤ n := by linarith
      exact_mod_cast this
    rw [hexact, hcast, round_natCast (lt_of_le_of_lt hmn hn)]
  · have hbelow : (n : ℚ) < 100 * k := by
      have hne := lt_of_le_of_ne hceil hexact
      linarith
    have hbelow' : (n : ℚ) + 1 ≤ 100 * k := by exact_mod_cast hbelow
    linarith

end Binary64
