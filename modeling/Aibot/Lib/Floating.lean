/-
Differences and comparisons of floats as IEEE 754 has them, with infinities and NaN: rounding is
monotone, and the sign of a difference is exact.
-/
import Aibot.Lib.Value

namespace Aibot

/-! ## Rounding is monotone -/

theorem nearest_mono {q r : ℚ} (h : q ≤ r) : nearest q ≤ nearest r := by
  have hfloor : ⌊q⌋ ≤ ⌊r⌋ := Int.floor_le_floor h
  have hq : nearest q ≤ ⌊q⌋ + 1 := by
    unfold nearest
    split_ifs <;> omega
  have hr : ⌊r⌋ ≤ nearest r := le_nearest (Int.floor_le r)
  rcases lt_or_eq_of_le hfloor with hlt | heq
  · omega
  · -- one floor, so the fractions decide
    unfold nearest
    rw [heq]
    by_cases hr' : r - ⌊r⌋ < 1 / 2 ∨ r - ⌊r⌋ = 1 / 2 ∧ ⌊r⌋ % 2 = 0
    · have hq' : q - ⌊r⌋ < 1 / 2 ∨ q - ⌊r⌋ = 1 / 2 ∧ ⌊r⌋ % 2 = 0 := by
        rcases hr' with hlt | ⟨hhalf, heven⟩
        · exact .inl (by linarith)
        · rcases lt_or_eq_of_le (show q - ⌊r⌋ ≤ 1 / 2 by linarith) with hlt | heq
          · exact .inl hlt
          · exact .inr ⟨heq, heven⟩
      rw [if_pos hr', if_pos hq']
    · rw [if_neg hr']
      split_ifs <;> omega

theorem rounded_zero : rounded 0 = 0 := by simp [rounded, nearest]

theorem rounded_nonneg {q : ℚ} (h : 0 ≤ q) : 0 ≤ rounded q := by
  have hquot : ((0 : ℤ) : ℚ) ≤ q / 2 ^ lastBit q := by
    rw [Int.cast_zero]
    exact div_nonneg h (two_zpow_pos _).le
  have hle : (0 : ℚ) ≤ (nearest (q / 2 ^ lastBit q) : ℤ) := by exact_mod_cast le_nearest hquot
  exact mul_nonneg hle (two_zpow_pos _).le

/-- A power of two between two numbers of different magnitude is between their roundings. -/
theorem rounded_le_two_zpow {q : ℚ} {k : ℤ} (hk : lastBit q ≤ k) (h : q ≤ 2 ^ k) : rounded q ≤ 2 ^ k := by
  obtain ⟨n, hn⟩ := Int.eq_ofNat_of_zero_le (sub_nonneg.2 hk)
  have hpow : (2 : ℚ) ^ k = ((2 ^ n : ℤ) : ℚ) * 2 ^ lastBit q := by
    push_cast
    rw [two_pow_mul_zpow, ← hn, sub_add_cancel]
  rw [hpow] at h ⊢
  have hle : nearest (q / 2 ^ lastBit q) ≤ 2 ^ n := nearest_le ((div_le_iff₀ (two_zpow_pos _)).2 h)
  exact mul_le_mul_of_nonneg_right (by exact_mod_cast hle) (two_zpow_pos _).le

theorem two_zpow_le_rounded {q : ℚ} {k : ℤ} (hk : lastBit q ≤ k) (h : 2 ^ k ≤ q) : 2 ^ k ≤ rounded q := by
  obtain ⟨n, hn⟩ := Int.eq_ofNat_of_zero_le (sub_nonneg.2 hk)
  have hpow : (2 : ℚ) ^ k = ((2 ^ n : ℤ) : ℚ) * 2 ^ lastBit q := by
    push_cast
    rw [two_pow_mul_zpow, ← hn, sub_add_cancel]
  rw [hpow] at h ⊢
  have hle : 2 ^ n ≤ nearest (q / 2 ^ lastBit q) := le_nearest ((le_div_iff₀ (two_zpow_pos _)).2 h)
  exact mul_le_mul_of_nonneg_right (by exact_mod_cast hle) (two_zpow_pos _).le

theorem rounded_mono_of_nonneg {q r : ℚ} (hq : 0 ≤ q) (h : q ≤ r) : rounded q ≤ rounded r := by
  rcases hq.eq_or_lt with rfl | hpos
  · rw [rounded_zero]
    exact rounded_nonneg h
  have hr : 0 < r := lt_of_lt_of_le hpos h
  have hlog : Int.log 2 |q| ≤ Int.log 2 |r| := by
    rw [abs_of_pos hpos, abs_of_pos hr]
    exact Int.log_mono_right hpos h
  rcases (show lastBit q ≤ lastBit r by unfold lastBit; omega).eq_or_lt with heq | hlt
  · unfold rounded
    rw [heq]
    have hle := nearest_mono (div_le_div_of_nonneg_right h (two_zpow_pos (lastBit r)).le)
    exact mul_le_mul_of_nonneg_right (by exact_mod_cast hle) (two_zpow_pos _).le
  · have hexp : lastBit r + 52 = Int.log 2 |r| := by
      unfold lastBit at hlt ⊢
      omega
    have hqlog : Int.log 2 |q| + 1 ≤ Int.log 2 |r| := by
      unfold lastBit at hlt
      omega
    have hqle : q ≤ 2 ^ (lastBit r + 52) := by
      have hlt' : |q| < ((2 : ℕ) : ℚ) ^ (Int.log 2 |q| + 1) := Int.lt_zpow_succ_log_self (by norm_num) |q|
      rw [abs_of_pos hpos] at hlt' hqlog
      rw [hexp]
      calc q ≤ (2 : ℚ) ^ (Int.log 2 q + 1) := by exact_mod_cast hlt'.le
        _ ≤ 2 ^ Int.log 2 |r| := zpow_le_zpow_right₀ (by norm_num) hqlog
    have hrle : (2 : ℚ) ^ (lastBit r + 52) ≤ r := by
      rw [hexp, abs_of_pos hr]
      exact_mod_cast Int.zpow_log_le_self (by norm_num) hr
    calc rounded q ≤ 2 ^ (lastBit r + 52) := rounded_le_two_zpow (by omega) hqle
      _ ≤ rounded r := two_zpow_le_rounded (by omega) hrle

theorem nearest_neg (q : ℚ) : nearest (-q) = -nearest q := by
  have hceil : ⌊-q⌋ = -⌈q⌉ := Int.floor_neg
  rcases eq_or_ne (⌊q⌋ : ℚ) q with hq | hq
  · rw [← hq, ← Int.cast_neg, nearest_intCast, nearest_intCast]
  · -- between two integers, the fractions add up to one
    have hup : ⌈q⌉ = ⌊q⌋ + 1 := by
      refine Int.ceil_eq_iff.2 ⟨?_, ?_⟩
      · push_cast
        linarith [lt_of_le_of_ne (Int.floor_le q) hq]
      · push_cast
        exact (Int.lt_floor_add_one q).le
    unfold nearest
    rw [hceil, hup]
    push_cast
    split_ifs with h1 h2 h2
    · rcases h1 with h1 | ⟨h1, h1'⟩ <;> rcases h2 with h2 | ⟨h2, h2'⟩
      · linarith
      · linarith
      · linarith
      · omega
    · omega
    · omega
    · push Not at h1 h2
      have hlo := h1.1
      have hhi := h2.1
      have heq : q - ⌊q⌋ = 1 / 2 := by linarith
      have hodd := h2.2 heq
      have hodd' := h1.2 (by linarith)
      omega

theorem rounded_neg (q : ℚ) : rounded (-q) = -rounded q := by
  have hbit : lastBit (-q) = lastBit q := by
    unfold lastBit
    rw [abs_neg]
  unfold rounded
  rw [hbit, neg_div, nearest_neg]
  push_cast
  ring

theorem rounded_mono : Monotone rounded := by
  intro q r h
  rcases le_total 0 q with hq | hq
  · exact rounded_mono_of_nonneg hq h
  · rcases le_total 0 r with hr | hr
    · have hneg := rounded_nonneg (q := -q) (by linarith)
      rw [rounded_neg] at hneg
      linarith [rounded_nonneg hr]
    · have hle := rounded_mono_of_nonneg (q := -r) (r := -q) (by linarith) (by linarith)
      rw [rounded_neg, rounded_neg] at hle
      linarith

/-- What is between two doubles rounds to a double. -/
theorem Double.round_of_between {q : ℚ} (x y : Double) (hx : x.val ≤ q) (hy : q ≤ y.val) :
    ∃ r, Double.round q = some r ∧ r.val = rounded q := by
  have hlow := rounded_mono hx
  have hhigh := rounded_mono hy
  rw [rounded_of_isDouble x.isDouble] at hlow
  rw [rounded_of_isDouble y.isDouble] at hhigh
  have hlt : |rounded q| < 2 ^ 1024 :=
    abs_lt.2 ⟨lt_of_lt_of_le (abs_lt.1 x.isDouble.abs_lt).1 hlow, lt_of_le_of_lt hhigh (abs_lt.1 y.isDouble.abs_lt).2⟩
  unfold Double.round
  rw [dif_pos hlt]
  exact ⟨_, rfl, rfl⟩

/-! ## Differences -/

/-- Doubles are multiples of the least one. -/
theorem Double.exists_multiple (x : Double) {low : ℤ} (hlow : low = -1074) :
    ∃ n : ℤ, x.val = n * 2 ^ low := by
  obtain ⟨m, e, -, he, -, hval⟩ := x.isDouble
  obtain ⟨k, hk⟩ := Int.eq_ofNat_of_zero_le (show 0 ≤ e - low by omega)
  refine ⟨m * 2 ^ k, ?_⟩
  rw [hval]
  push_cast
  rw [mul_assoc, two_pow_mul_zpow, ← hk, sub_add_cancel]

/-- A difference of doubles that rounds to no negative number is not negative. -/
theorem Double.le_of_rounded_nonneg {x y : Double} (h : 0 ≤ rounded (y.val - x.val)) : x.val ≤ y.val := by
  by_contra hlt
  rw [not_le] at hlt
  set q := y.val - x.val with hq
  have hneg : q < 0 := by rw [hq]; linarith
  suffices hle : nearest (q / 2 ^ lastBit q) ≤ -1 by
    have hcast : ((nearest (q / 2 ^ lastBit q) : ℤ) : ℚ) ≤ -1 := by exact_mod_cast hle
    have hprod : rounded q ≤ -1 * 2 ^ lastBit q :=
      mul_le_mul_of_nonneg_right hcast (two_zpow_pos _).le
    have := two_zpow_pos (lastBit q)
    linarith
  apply nearest_le
  rw [div_le_iff₀ (two_zpow_pos _)]
  push_cast
  by_cases hsmall : lastBit q = -1074
  · -- on the finest grid the difference is exact
    obtain ⟨m, hm⟩ := x.exists_multiple hsmall
    obtain ⟨n, hn⟩ := y.exists_multiple hsmall
    generalize lastBit q = low at hm hn
    have hmul : q = ((n - m : ℤ) : ℚ) * 2 ^ low := by
      rw [hq, hm, hn]
      push_cast
      ring
    rw [hmul] at hneg ⊢
    have hint : n - m ≤ -1 := by
      have hlt' : ((n - m : ℤ) : ℚ) < 0 := neg_of_mul_neg_left hneg (two_zpow_pos low).le
      have hlt'' : n - m < 0 := by exact_mod_cast hlt'
      omega
    exact mul_le_mul_of_nonneg_right (by exact_mod_cast hint) (two_zpow_pos _).le
  · -- elsewhere the last bit is below the leading one
    have hexp : lastBit q ≤ Int.log 2 |q| := by
      unfold lastBit at hsmall ⊢
      omega
    have hlog : (2 : ℚ) ^ Int.log 2 |q| ≤ |q| := by
      exact_mod_cast Int.zpow_log_le_self (by norm_num) (abs_pos.2 hneg.ne)
    have hpow : (2 : ℚ) ^ lastBit q ≤ 2 ^ Int.log 2 |q| := zpow_le_zpow_right₀ (by norm_num) hexp
    rw [abs_of_neg hneg] at hlog hpow
    linarith

namespace Floating

/-- `x - y`. -/
def sub : Floating → Floating → Floating
  | .finite x, .finite y => ((Double.sub x y).map .finite).getD (.infinite (x.val - y.val < 0))
  | .finite _, .infinite s => .infinite (!s)
  | .infinite s, .finite _ => .infinite s
  | .infinite s, .infinite t => if s = t then .nan else .infinite s
  | _, _ => .nan

/-- `x < y`. -/
def lt : Floating → Floating → Bool
  | .finite x, .finite y => x.val < y.val
  | .infinite true, .finite _ | .infinite true, .infinite false | .finite _, .infinite false => true
  | _, _ => false

/-- `x <= y`. -/
def le : Floating → Floating → Bool
  | .finite x, .finite y => x.val ≤ y.val
  | .infinite true, .finite _ | .infinite true, .infinite _ | .finite _, .infinite false
  | .infinite false, .infinite false => true
  | _, _ => false

def zero : Floating := .finite ⟨0, 0, 0, by norm_num, by norm_num, by norm_num, by norm_num⟩

/-- `max(0.0, x)`. -/
def maxZero (x : Floating) : Floating := if zero.lt x then x else zero

/-- `max(0.0, x)` is a number or infinite, and not below zero. -/
theorem maxZero_cases (x : Floating) :
    (∃ d : Double, 0 ≤ d.val ∧ maxZero x = .finite d) ∨ maxZero x = .infinite false := by
  unfold maxZero
  split_ifs with h
  · cases x with
    | finite d =>
      have hpos : (0 : ℚ) < d.val := of_decide_eq_true h
      exact .inl ⟨d, hpos.le, rfl⟩
    | infinite s =>
      cases s with
      | false => exact .inr rfl
      | true => cases h
    | nan => cases h
  · exact .inl ⟨_, le_refl _, rfl⟩

theorem sub_finite_of_lt {x y : Double} (h : |rounded (x.val - y.val)| < 2 ^ 1024) :
    sub (.finite x) (.finite y) = .finite ⟨rounded (x.val - y.val), isDouble_rounded h⟩ := by
  show ((Double.sub x y).map finite).getD _ = _
  unfold Double.sub Double.round
  rw [dif_pos h]
  rfl

theorem sub_finite_of_not_lt {x y : Double} (h : ¬ |rounded (x.val - y.val)| < 2 ^ 1024) :
    sub (.finite x) (.finite y) = .infinite (x.val - y.val < 0) := by
  show ((Double.sub x y).map finite).getD _ = _
  unfold Double.sub Double.round
  rw [dif_neg h]
  rfl

theorem sub_finite_ne_nan (x y : Double) : sub (.finite x) (.finite y) ≠ .nan := by
  by_cases h : |rounded (x.val - y.val)| < 2 ^ 1024
  · rw [sub_finite_of_lt h]
    exact Floating.noConfusion
  · rw [sub_finite_of_not_lt h]
    exact Floating.noConfusion

/-- Of a difference of numbers, what is not below a bound is at least the bound. -/
theorem maxZero_le_sub_of_not_lt {x y : Double} {bound : Floating}
    (h : (sub (.finite x) (.finite y)).lt (maxZero bound) = false) :
    (maxZero bound).le (sub (.finite x) (.finite y)) = true := by
  have hnan := sub_finite_ne_nan x y
  generalize sub (.finite x) (.finite y) = z at h hnan
  rcases maxZero_cases bound with ⟨d, -, hd⟩ | hd
  · rw [hd] at h ⊢
    cases z with
    | finite z =>
      have hle : ¬ z.val < d.val := of_decide_eq_false h
      exact decide_eq_true (not_lt.1 hle)
    | infinite s =>
      cases s with
      | false => rfl
      | true => cases h
    | nan => exact absurd rfl hnan
  · rw [hd] at h ⊢
    cases z with
    | finite z => cases h
    | infinite s =>
      cases s with
      | false => rfl
      | true => cases h
    | nan => exact absurd rfl hnan

/-- A difference that reaches a bound that is not negative is the rounding of one that is not negative. -/
theorem le_of_maxZero_le_sub {x y : Double} {bound : Floating}
    (h : (maxZero bound).le (sub (.finite x) (.finite y)) = true) : y.val ≤ x.val := by
  by_cases hin : |rounded (x.val - y.val)| < 2 ^ 1024
  · rw [sub_finite_of_lt hin] at h
    apply Double.le_of_rounded_nonneg
    rcases maxZero_cases bound with ⟨d, hd0, hd⟩ | hd
    · rw [hd] at h
      exact hd0.trans (of_decide_eq_true h)
    · rw [hd] at h
      cases h
  · by_contra hlt
    have hneg : x.val - y.val < 0 := by linarith
    rw [sub_finite_of_not_lt hin, decide_eq_true hneg] at h
    rcases maxZero_cases bound with ⟨d, -, hd⟩ | hd
    all_goals
      rw [hd] at h
      cases h

/-- From an earlier time on, a bound that is reached is still reached. -/
theorem maxZero_le_sub_mono {x y y' : Double} {bound : Floating} (hy : y'.val ≤ y.val)
    (h : (maxZero bound).le (sub (.finite x) (.finite y)) = true) :
    (maxZero bound).le (sub (.finite x) (.finite y')) = true := by
  have hxy := le_of_maxZero_le_sub h
  have hmono : rounded (x.val - y.val) ≤ rounded (x.val - y'.val) :=
    rounded_mono_of_nonneg (by linarith) (by linarith)
  have hpos : ¬ x.val - y'.val < 0 := by linarith
  have hrpos : 0 ≤ rounded (x.val - y.val) := rounded_nonneg (by linarith)
  by_cases hin : |rounded (x.val - y'.val)| < 2 ^ 1024
  · have hin' : |rounded (x.val - y.val)| < 2 ^ 1024 := by
      rw [abs_of_nonneg hrpos]
      rw [abs_of_nonneg (hrpos.trans hmono)] at hin
      exact lt_of_le_of_lt hmono hin
    rw [sub_finite_of_lt hin'] at h
    rw [sub_finite_of_lt hin]
    rcases maxZero_cases bound with ⟨d, -, hd⟩ | hd
    · rw [hd] at h ⊢
      exact decide_eq_true ((of_decide_eq_true h).trans hmono)
    · rw [hd] at h
      cases h
  · rw [sub_finite_of_not_lt hin, decide_eq_false hpos]
    rcases maxZero_cases bound with ⟨d, -, hd⟩ | hd
    all_goals
      rw [hd]
      rfl

end Floating

end Aibot
