import Memora.DecimalRounding

/-! What a double holds of a rational that is not too large: a nearest binary fraction with 53
significant digits, ties to even, and with no digits below the place of -1074. -/
namespace Memora.BinaryRounding
open DecimalRounding

/-- The place of the last binary digit that is kept. -/
def lastPlace (q : ℚ) : ℤ := max (Int.log 2 |q| - 52) (-1074)

def toDouble (q : ℚ) : ℚ := halfEven (q / 2 ^ lastPlace q) * 2 ^ lastPlace q

variable {p q : ℚ}

lemma lastPlace_neg (q : ℚ) : lastPlace (-q) = lastPlace q := by
  rw [lastPlace,lastPlace,abs_neg]

lemma toDouble_neg (q : ℚ) : toDouble (-q) = -toDouble q := by
  rw [toDouble,toDouble,lastPlace_neg,neg_div,halfEven_neg,Int.cast_neg,neg_mul]

lemma abs_lt_place (q : ℚ) : |q| < 2 ^ (lastPlace q+53) := by
  refine (Int.lt_zpow_succ_log_self one_lt_two |q|).trans_le ?_
  refine zpow_le_zpow_right₀ one_le_two ?_
  unfold lastPlace
  omega

lemma scaled_lt (q : ℚ) : |q / 2 ^ lastPlace q| < 2 ^ 53 := by
  have hpos : (0 : ℚ) < 2 ^ lastPlace q := by positivity
  rw [abs_div,abs_of_pos hpos,div_lt_iff₀ hpos]
  calc |q| < 2 ^ (lastPlace q+53) := abs_lt_place q
    _ = 2 ^ 53 * 2 ^ lastPlace q := by rw [add_comm,zpow_add₀ two_ne_zero]; norm_num

/-- A binary fraction with at most 53 digits, none of them too small, is kept as it is. -/
theorem toDouble_digits {m e : ℤ} (hm : |m| < 2 ^ 53) (he : -1074 ≤ e) :
    toDouble (m * 2 ^ e) = m * 2 ^ e := by
  rcases eq_or_ne m 0 with rfl | hne
  · simp [toDouble,halfEven]
  have hpos : (0 : ℚ) < 2 ^ e := by positivity
  have hmagnitude : |(m : ℚ) * 2 ^ e| < 2 ^ (53+e) := by
    rw [abs_mul,abs_of_pos hpos,zpow_add₀ two_ne_zero]
    refine mul_lt_mul_of_pos_right ?_ hpos
    exact_mod_cast hm
  have hlog : Int.log 2 |(m : ℚ) * 2 ^ e| < 53+e := by
    refine (Int.lt_zpow_iff_log_lt one_lt_two (abs_pos.mpr ?_)).mp (by exact_mod_cast hmagnitude)
    exact mul_ne_zero (by exact_mod_cast hne) hpos.ne'
  have hplace : lastPlace (m * 2 ^ e) ≤ e := by
    unfold lastPlace
    omega
  obtain ⟨k,hk⟩ := Int.le.dest hplace
  have hwhole : (m : ℚ) * 2 ^ e / 2 ^ lastPlace (m * 2 ^ e) = ((m * 2 ^ k : ℤ) : ℚ) := by
    rw [div_eq_iff (by positivity)]
    push_cast
    rw [mul_assoc,← zpow_natCast,← zpow_add₀ two_ne_zero,add_comm (k : ℤ),hk]
  rw [toDouble,hwhole,halfEven_intCast,← hwhole,div_mul_cancel₀ _ (by positivity)]

lemma toDouble_power {e : ℤ} (he : -1074 ≤ e) : toDouble (2 ^ e) = 2 ^ e := by
  have hdigits := toDouble_digits (m := 1) (by norm_num) he
  rwa [Int.cast_one,one_mul] at hdigits

lemma toDouble_intCast {n : ℤ} (hn : |n| < 2 ^ 53) : toDouble n = n := by
  have hdigits := toDouble_digits (e := 0) hn (by norm_num)
  rwa [zpow_zero,mul_one] at hdigits

lemma toDouble_nonneg (h : 0 ≤ q) : 0 ≤ toDouble q := by
  have hscaled : (0 : ℚ) ≤ q / 2 ^ lastPlace q := by positivity
  have hround := halfEven_mono hscaled
  rw [← Int.cast_zero,halfEven_intCast] at hround
  unfold toDouble
  positivity

lemma toDouble_mono_pos (hp : 0 < p) (h : p ≤ q) : toDouble p ≤ toDouble q := by
  have hlog : Int.log 2 p ≤ Int.log 2 q := Int.log_mono_right hp h
  have hplaces : lastPlace p ≤ lastPlace q := by
    unfold lastPlace
    rw [abs_of_pos hp,abs_of_pos (hp.trans_le h)]
    omega
  rcases hplaces.lt_or_eq with hlt | heq
  · -- a power of two is between the two numbers, and is kept as it is
    have hbound : ∀ x : ℚ, x < 2 ^ 53 → halfEven x ≤ 2 ^ 53 := by
      intro x hx
      have hround := halfEven_mono hx.le
      rwa [show (2 : ℚ) ^ 53 = ((2 ^ 53 : ℤ) : ℚ) by norm_num,halfEven_intCast] at hround
    have hlow : toDouble p ≤ 2 ^ (lastPlace p+53) := by
      have hround : (halfEven (p / 2 ^ lastPlace p) : ℚ) ≤ 2 ^ 53 := by
        exact_mod_cast hbound _ (lt_of_abs_lt (scaled_lt p))
      rw [toDouble,add_comm,zpow_add₀ two_ne_zero]
      refine mul_le_mul_of_nonneg_right ?_ (by positivity)
      exact_mod_cast hround
    have hplace : lastPlace q = Int.log 2 q - 52 := by
      unfold lastPlace at hlt ⊢
      rw [abs_of_pos (hp.trans_le h)] at hlt ⊢
      omega
    have hhigh : 2 ^ (lastPlace q+52) ≤ toDouble q := by
      have hself : ((2 ^ 52 : ℤ) : ℚ) ≤ q / 2 ^ lastPlace q := by
        rw [le_div_iff₀ (by positivity)]
        calc ((2 ^ 52 : ℤ) : ℚ) * 2 ^ lastPlace q = 2 ^ (52+lastPlace q) := by
              rw [zpow_add₀ two_ne_zero]; norm_num
          _ = (2 : ℕ) ^ Int.log 2 q := by rw [hplace]; norm_num
          _ ≤ q := Int.zpow_log_le_self one_lt_two (hp.trans_le h)
      have hround := halfEven_mono hself
      rw [halfEven_intCast] at hround
      rw [toDouble,add_comm,zpow_add₀ two_ne_zero]
      refine mul_le_mul_of_nonneg_right ?_ (by positivity)
      exact_mod_cast hround
    calc toDouble p ≤ 2 ^ (lastPlace p+53) := hlow
      _ ≤ 2 ^ (lastPlace q+52) := zpow_le_zpow_right₀ one_le_two (by omega)
      _ ≤ toDouble q := hhigh
  · unfold toDouble
    rw [heq]
    refine mul_le_mul_of_nonneg_right ?_ (by positivity)
    exact_mod_cast halfEven_mono ((div_le_div_iff_of_pos_right (by positivity)).mpr h)

theorem toDouble_mono (h : p ≤ q) : toDouble p ≤ toDouble q := by
  rcases lt_or_ge 0 p with hp | hp
  · exact toDouble_mono_pos hp h
  rcases lt_or_ge q 0 with hq | hq
  · have hneg := toDouble_mono_pos (neg_pos.mpr hq) (neg_le_neg h)
    rwa [toDouble_neg,toDouble_neg,neg_le_neg_iff] at hneg
  · have hlow := toDouble_nonneg (neg_nonneg.mpr hp)
    rw [toDouble_neg] at hlow
    linarith [toDouble_nonneg hq]

theorem toDouble_toDouble (q : ℚ) : toDouble (toDouble q) = toDouble q := by
  have hplace : -1074 ≤ lastPlace q := le_max_right _ _
  have hdigits : |halfEven (q / 2 ^ lastPlace q)| ≤ 2 ^ 53 := by
    have hscaled := abs_lt.mp (scaled_lt q)
    have hlow := halfEven_mono hscaled.1.le
    have hhigh := halfEven_mono hscaled.2.le
    rw [show -(2 : ℚ) ^ 53 = ((-2 ^ 53 : ℤ) : ℚ) by norm_num,halfEven_intCast] at hlow
    rw [show (2 : ℚ) ^ 53 = ((2 ^ 53 : ℤ) : ℚ) by norm_num,halfEven_intCast] at hhigh
    exact abs_le.mpr ⟨hlow,hhigh⟩
  change toDouble (halfEven (q / 2 ^ lastPlace q) * 2 ^ lastPlace q) =
    halfEven (q / 2 ^ lastPlace q) * 2 ^ lastPlace q
  generalize halfEven (q / 2 ^ lastPlace q) = m at hdigits ⊢
  rcases hdigits.lt_or_eq with hlt | heq
  · exact toDouble_digits hlt hplace
  · have hcarried : toDouble (2 ^ (53+lastPlace q)) = 2 ^ (53+lastPlace q) := toDouble_power (by omega)
    rw [zpow_add₀ two_ne_zero] at hcarried
    rcases abs_eq (by positivity) |>.mp heq with rfl | rfl
    · exact_mod_cast hcarried
    · rw [Int.cast_neg,neg_mul,toDouble_neg,neg_inj]
      exact_mod_cast hcarried

lemma toDouble_one : toDouble 1 = 1 := by
  have hone := toDouble_intCast (n := 1) (by norm_num)
  rwa [Int.cast_one] at hone

/-- A proper fraction of numbers below 2^53 does not round up to one. -/
theorem toDouble_fraction_lt {a b : ℕ} (hab : a < b) (hb : b < 2 ^ 53) : toDouble (a / b) < 1 := by
  have hgap : ((2 ^ 53 - 1 : ℤ) : ℚ) * 2 ^ (-53 : ℤ) < 1 := by norm_num
  refine lt_of_le_of_lt ?_ hgap
  rw [← toDouble_digits (by norm_num) (by norm_num)]
  refine toDouble_mono ?_
  have hpos : (0 : ℚ) < b := by exact_mod_cast Nat.zero_lt_of_lt hab
  have hstep : (a : ℚ) ≤ b - 1 := by
    have hle : a+1 ≤ b := hab
    have hcast : (a : ℚ)+1 ≤ b := by exact_mod_cast hle
    linarith
  have hbound : (b : ℚ) < 2 ^ 53 := by exact_mod_cast hb
  rw [div_le_iff₀ hpos]
  norm_num
  linarith

end Memora.BinaryRounding
