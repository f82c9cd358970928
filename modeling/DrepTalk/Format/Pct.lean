import Mathlib.Data.Rat.Floor

/-!
# Percentages

`src/lib/format/pct.ts`: a share of two amounts, cut off at four decimals (`pct4`), and a number
rounded to hundredths (`round2`), halves up as `Math.round` does. Numbers are exact.

**Cutting off first.** A boundary between two rounded hundredths is a value of four decimals, so a
share that is cut off there still rounds to the same hundredth (`round2_pct4`), and lies no further
from it than half a hundredth (`abs_pct4_sub_le`).
-/

namespace DrepTalk

/-- A share in percent, four decimals; zero of nothing. -/
def pct4 (part whole : ℤ) : ℚ :=
  if whole ≤ 0 then 0 else ((part * 1000000).tdiv whole : ℤ) / 10000

/-- `Math.round(n * 100) / 100`. -/
def round2 (n : ℚ) : ℚ := round (n * 100) / 100

def IsHundredth (q : ℚ) : Prop := ∃ n : ℤ, q = n / 100

variable {part whole : ℤ} {q : ℚ}

theorem floor_intCast_div (a : ℤ) (h : 0 ≤ whole) : ⌊(a : ℚ) / whole⌋ = a / whole := by
  rw [Int.floor_div_cast_of_nonneg h, Int.floor_intCast]

/-! ### Rounding -/

theorem round2_mono : Monotone round2 := by
  intro a b h
  have hround : round (a * 100) ≤ round (b * 100) := by
    rw [round_eq, round_eq]
    exact Int.floor_mono (by linarith)
  rw [round2, round2]
  exact div_le_div_of_nonneg_right (Int.cast_le.mpr hround) (by norm_num)

theorem round2_of_isHundredth (h : IsHundredth q) : round2 q = q := by
  obtain ⟨n, rfl⟩ := h
  rw [round2, div_mul_cancel₀ _ (by norm_num), round_intCast]

theorem round2_mem (h0 : 0 ≤ q) (h100 : q ≤ 100) : 0 ≤ round2 q ∧ round2 q ≤ 100 := by
  have hzero : round2 0 = 0 := round2_of_isHundredth ⟨0, by norm_num⟩
  have hhundred : round2 100 = 100 := round2_of_isHundredth ⟨10000, by norm_num⟩
  exact ⟨hzero ▸ round2_mono h0, hhundred ▸ round2_mono h100⟩

theorem eq_round2_iff {n : ℤ} : (n / 100 : ℚ) = round2 q ↔ n = round (q * 100) := by
  rw [round2, div_left_inj' (by norm_num), Int.cast_inj]

theorem abs_sub_round2_le (q : ℚ) : |q - round2 q| ≤ 1 / 200 := by
  have hround := abs_sub_round (q * 100)
  have hscale : q - round2 q = (q * 100 - round (q * 100)) / 100 := by
    rw [round2]
    ring
  rw [hscale, abs_div, abs_of_pos (by norm_num : (0 : ℚ) < 100)]
  linarith

/-- **Cutting off before rounding.** A number that is cut off at a grid with the halves in it rounds
to what it rounded to. -/
theorem round_floor_div (q : ℚ) {n : ℕ} (hn : n ≠ 0) :
    round ((⌊q * (2 * n : ℕ)⌋ : ℚ) / (2 * n : ℕ)) = round q := by
  have hhalf : 2 * ((⌊q * (2 * n : ℕ)⌋ : ℚ) / (2 * n : ℕ)) = (⌊2 * q * n⌋ : ℚ) / n := by
    have hfloor : q * (2 * n : ℕ) = 2 * q * n := by
      push_cast
      ring
    rw [hfloor]
    push_cast
    field_simp
  rw [round_eq_div, round_eq_div, hhalf, Int.floor_div_natCast, Int.floor_intCast,
    Int.mul_natCast_floor_div_cancel hn]

/-! ### Shares -/

theorem pct4_eq_floor (hpart : 0 ≤ part) (hwhole : 0 < whole) :
    pct4 part whole = ⌊100 * (part : ℚ) / whole * 10000⌋ / 10000 := by
  have hscale : 100 * (part : ℚ) / whole * 10000 = ((part * 1000000 : ℤ) : ℚ) / whole := by
    push_cast
    ring
  rw [pct4, if_neg (by omega), Int.tdiv_eq_ediv_of_nonneg (by omega), hscale,
    floor_intCast_div _ hwhole.le]

theorem round2_pct4 (hpart : 0 ≤ part) (hwhole : 0 < whole) :
    round2 (pct4 part whole) = round2 (100 * part / whole) := by
  have hgrid := round_floor_div (100 * (part : ℚ) / whole * 100) (n := 50) (by norm_num)
  have hscale : 100 * (part : ℚ) / whole * 100 * (2 * 50 : ℕ) = 100 * part / whole * 10000 := by
    push_cast
    ring
  have hcut : (⌊100 * (part : ℚ) / whole * 10000⌋ : ℚ) / 10000 * 100 =
      (⌊100 * (part : ℚ) / whole * 10000⌋ : ℚ) / (2 * 50 : ℕ) := by
    push_cast
    ring
  rw [hscale] at hgrid
  rw [round2, round2, pct4_eq_floor hpart hwhole, hcut, hgrid]

theorem abs_pct4_sub_le (hpart : 0 ≤ part) (hwhole : 0 < whole) :
    |pct4 part whole - round2 (100 * part / whole)| ≤ 1 / 200 := by
  rw [← round2_pct4 hpart hwhole]
  exact abs_sub_round2_le _

end DrepTalk
