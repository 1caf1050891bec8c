import Mathlib

/-! A rounding takes a number to one of the nearest decimals with some digits after the point. A
decimal that bounds the number bounds what it is rounded to. -/
namespace Memora.DecimalRounding

structure Nearest (round : ℕ → ℚ → ℚ) : Prop where
  near : ∀ n q, |round n q - q| ≤ 1 / 2 / 10 ^ n
  decimal : ∀ n q, ∃ z : ℤ, round n q = z / 10 ^ n

section Bounds
variable {round : ℕ → ℚ → ℚ} (h : Nearest round) (n : ℕ) {q : ℚ}
include h

lemma Nearest.le_add : round n q ≤ q+1 / 2 / 10 ^ n := by
  have hnear := (abs_le.mp (h.near n q)).2
  linarith

lemma Nearest.sub_le : q - 1 / 2 / 10 ^ n ≤ round n q := by
  have hnear := (abs_le.mp (h.near n q)).1
  linarith

lemma Nearest.decimal_le {z : ℤ} (hz : (z : ℚ) / 10 ^ n ≤ q) : (z : ℚ) / 10 ^ n ≤ round n q := by
  obtain ⟨r,hr⟩ := h.decimal n q
  have hpos : (0 : ℚ) < 10 ^ n := by positivity
  have hnear := h.sub_le n (q := q)
  rw [hr] at hnear ⊢
  have hlow : (z : ℚ) / 10 ^ n - 1 / 2 / 10 ^ n ≤ r / 10 ^ n := by linarith
  rw [← sub_div,div_le_div_iff_of_pos_right hpos] at hlow
  have hint : z ≤ r := by
    have hlt : (z : ℚ) < r+1 := by linarith
    exact Int.lt_add_one_iff.mp (by exact_mod_cast hlt)
  exact (div_le_div_iff_of_pos_right hpos).mpr (by exact_mod_cast hint)

lemma Nearest.le_decimal {z : ℤ} (hz : q ≤ (z : ℚ) / 10 ^ n) : round n q ≤ (z : ℚ) / 10 ^ n := by
  obtain ⟨r,hr⟩ := h.decimal n q
  have hpos : (0 : ℚ) < 10 ^ n := by positivity
  have hnear := h.le_add n (q := q)
  rw [hr] at hnear ⊢
  have hhigh : (r : ℚ) / 10 ^ n - 1 / 2 / 10 ^ n ≤ z / 10 ^ n := by linarith
  rw [← sub_div,div_le_div_iff_of_pos_right hpos] at hhigh
  have hint : r ≤ z := by
    have hlt : (r : ℚ) < z+1 := by linarith
    exact Int.lt_add_one_iff.mp (by exact_mod_cast hlt)
  exact (div_le_div_iff_of_pos_right hpos).mpr (by exact_mod_cast hint)

end Bounds

def halfEven (q : ℚ) : ℤ :=
  if Int.fract q < 1 / 2 then ⌊q⌋
  else if 1 / 2 < Int.fract q then ⌊q⌋+1
  else if ⌊q⌋ % 2 = 0 then ⌊q⌋ else ⌊q⌋+1

lemma halfEven_near (q : ℚ) : |(halfEven q : ℚ) - q| ≤ 1 / 2 := by
  have hfract := Int.floor_add_fract q
  have hlow := Int.fract_nonneg q
  have hhigh := Int.fract_lt_one q
  unfold halfEven
  rw [abs_le]
  split
  · constructor <;> linarith
  split
  · push_cast
    constructor <;> linarith
  split
  · constructor <;> linarith
  · push_cast
    constructor <;> linarith

@[simp] lemma halfEven_intCast (z : ℤ) : halfEven (z : ℚ) = z := by
  simp [halfEven]

lemma halfEven_mono {p q : ℚ} (h : p ≤ q) : halfEven p ≤ halfEven q := by
  have hp := Int.floor_add_fract p
  have hq := Int.floor_add_fract q
  rcases (Int.floor_le_floor h).lt_or_eq with hlt | heq
  · have habove : ∀ q : ℚ, halfEven q ≤ ⌊q⌋+1 := by
      intro q
      unfold halfEven
      split_ifs <;> omega
    have hbelow : ∀ q : ℚ, ⌊q⌋ ≤ halfEven q := by
      intro q
      unfold halfEven
      split_ifs <;> omega
    linarith [habove p,hbelow q]
  · have hfract : Int.fract p ≤ Int.fract q := by
      rw [heq] at hp
      linarith
    unfold halfEven
    split_ifs <;> first | omega | linarith

lemma halfEven_neg (q : ℚ) : halfEven (-q) = -halfEven q := by
  by_cases hint : Int.fract q = 0
  · obtain ⟨z,rfl⟩ := Int.fract_eq_zero_iff.mp hint
    rw [← Int.cast_neg,halfEven_intCast,halfEven_intCast]
  · have hfract := Int.fract_neg hint
    have hfloor : ⌊-q⌋ = -⌊q⌋ - 1 := by
      have hq := Int.floor_add_fract q
      have hneg := Int.floor_add_fract (-q)
      have hsum : (⌊-q⌋ : ℚ) = -⌊q⌋ - 1 := by linarith
      exact_mod_cast hsum
    unfold halfEven
    split_ifs <;> first | omega | linarith

def roundTo (n : ℕ) (q : ℚ) : ℚ := halfEven (q * 10 ^ n) / 10 ^ n

lemma roundTo_nearest : Nearest roundTo := by
  refine ⟨fun n q => ?_,fun n q => ⟨_,rfl⟩⟩
  have hpos : (0 : ℚ) < 10 ^ n := by positivity
  have hsub : roundTo n q - q = ((halfEven (q * 10 ^ n) : ℚ) - q * 10 ^ n) / 10 ^ n := by
    unfold roundTo
    field_simp
  rw [hsub,abs_div,abs_of_pos hpos]
  exact (div_le_div_iff_of_pos_right hpos).mpr (halfEven_near _)

end Memora.DecimalRounding
