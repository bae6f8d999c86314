/-
Binary64 numbers as the rationals they are: rounding to the nearest one, ties to even, and where an
operation is exact. Zero has one sign here.
-/
import Mathlib.Data.Int.Log
import Mathlib.Data.Rat.Floor
import Mathlib.Tactic

namespace Aibot

/-- The rationals that binary64 has. -/
def IsDouble (q : ℚ) : Prop := ∃ m e : ℤ, |m| < 2 ^ 53 ∧ -1074 ≤ e ∧ e ≤ 971 ∧ q = m * 2 ^ e

structure Double where
  val : ℚ
  isDouble : IsDouble val

@[ext] theorem Double.ext {x y : Double} (h : x.val = y.val) : x = y := by
  cases x
  cases y
  cases h
  rfl

instance : DecidableEq Double := fun x y => decidable_of_iff (x.val = y.val) ⟨Double.ext, congrArg _⟩

/-! ## Rounding -/

/-- The nearest integer, the even one of two. -/
def nearest (q : ℚ) : ℤ :=
  if q - ⌊q⌋ < 1 / 2 ∨ q - ⌊q⌋ = 1 / 2 ∧ ⌊q⌋ % 2 = 0 then ⌊q⌋ else ⌊q⌋ + 1

/-- The exponent of the last bit of the doubles around a rational. -/
def lastBit (q : ℚ) : ℤ := max (Int.log 2 |q|) (-1022) - 52

/-- The nearest multiple of the last bit. -/
def rounded (q : ℚ) : ℚ := nearest (q / 2 ^ lastBit q) * 2 ^ lastBit q

theorem nearest_intCast (n : ℤ) : nearest n = n := by simp [nearest]

theorem le_nearest {n : ℤ} {q : ℚ} (h : n ≤ q) : n ≤ nearest q := by
  have hfloor : n ≤ ⌊q⌋ := Int.le_floor.2 h
  unfold nearest
  split_ifs <;> omega

theorem nearest_le {n : ℤ} {q : ℚ} (h : q ≤ n) : nearest q ≤ n := by
  have hfloor : ⌊q⌋ ≤ n := by exact_mod_cast (Int.floor_le q).trans h
  unfold nearest
  split_ifs with hdown
  · exact hfloor
  · -- the fraction is positive, so the next integer is not above the bound
    have hne : (⌊q⌋ : ℚ) ≠ q := by
      intro heq
      refine hdown (.inl ?_)
      rw [heq, sub_self]
      norm_num
    have hlt : (⌊q⌋ : ℚ) < n := lt_of_lt_of_le (lt_of_le_of_ne (Int.floor_le q) hne) h
    have hlt' : ⌊q⌋ < n := by exact_mod_cast hlt
    omega

theorem two_zpow_pos (e : ℤ) : (0 : ℚ) < 2 ^ e := zpow_pos (by norm_num) e

theorem two_pow_mul_zpow (n : ℕ) (e : ℤ) : (2 : ℚ) ^ n * 2 ^ e = 2 ^ (n + e) := by
  rw [zpow_add₀ (by norm_num), zpow_natCast]

/-- The quotient by the last bit fits the significand. -/
theorem abs_div_lastBit_lt (q : ℚ) : |q / 2 ^ lastBit q| < 2 ^ 53 := by
  have hlog : |q| < (2 : ℚ) ^ (Int.log 2 |q| + 1) := by exact_mod_cast Int.lt_zpow_succ_log_self (by norm_num) |q|
  have hexp : Int.log 2 |q| + 1 ≤ 53 + lastBit q := by unfold lastBit; omega
  have hpow : (2 : ℚ) ^ (Int.log 2 |q| + 1) ≤ 2 ^ (53 + lastBit q) := zpow_le_zpow_right₀ (by norm_num) hexp
  rw [abs_div, abs_of_pos (two_zpow_pos _), div_lt_iff₀ (two_zpow_pos _)]
  calc |q| < 2 ^ (53 + lastBit q) := lt_of_lt_of_le hlog hpow
    _ = 2 ^ 53 * 2 ^ lastBit q := (two_pow_mul_zpow 53 _).symm

theorem abs_nearest_le {n : ℕ} {q : ℚ} (h : |q| ≤ n) : |nearest q| ≤ n := by
  obtain ⟨hlo, hhi⟩ := abs_le.1 h
  refine abs_le.2 ⟨le_nearest ?_, nearest_le ?_⟩
  · push_cast
    exact hlo
  · exact_mod_cast hhi

theorem le_abs_nearest {n : ℕ} {q : ℚ} (h : n ≤ |q|) : (n : ℤ) ≤ |nearest q| := by
  rcases le_abs.1 h with h | h
  · exact (le_nearest (by exact_mod_cast h)).trans (le_abs_self _)
  · have hneg : nearest q ≤ -(n : ℤ) := nearest_le (by push_cast; linarith)
    exact (by omega : (n : ℤ) ≤ -nearest q).trans (neg_le_abs _)

/-- What rounds into the range is a double. -/
theorem isDouble_rounded {q : ℚ} (h : |rounded q| < 2 ^ 1024) : IsDouble (rounded q) := by
  set e := lastBit q with he
  set m := nearest (q / 2 ^ e) with hm
  have hval : rounded q = m * 2 ^ e := rfl
  have hlow : -1074 ≤ e := by rw [he]; unfold lastBit; omega
  have hmle : |m| ≤ 2 ^ 53 := by
    have hle := abs_nearest_le (n := 2 ^ 53) (by exact_mod_cast (abs_div_lastBit_lt q).le)
    exact_mod_cast hle
  have habs : |rounded q| = |m| * 2 ^ e := by
    rw [hval, abs_mul, abs_of_pos (two_zpow_pos _), Int.cast_abs]
  rcases eq_or_lt_of_le hmle with htop | hlt
  · -- the carry goes to the exponent
    have hhigh : e < 971 := by
      rw [habs, htop] at h
      have hpow : (2 : ℚ) ^ (53 + e) < 2 ^ (1024 : ℤ) := by
        rw [zpow_add₀ (by norm_num)]
        exact_mod_cast h
      have := (zpow_lt_zpow_iff_right₀ (by norm_num)).1 hpow
      omega
    have hstep : (2 : ℚ) ^ 53 * 2 ^ e = 2 ^ 52 * 2 ^ (e + 1) := by
      rw [zpow_add_one₀ (by norm_num)]
      ring
    rcases abs_choice m with hpos | hneg
    · refine ⟨2 ^ 52, e + 1, by norm_num, by omega, by omega, ?_⟩
      rw [hval, ← hpos, htop]
      push_cast
      exact hstep
    · refine ⟨-2 ^ 52, e + 1, by norm_num, by omega, by omega, ?_⟩
      have hmval : m = -2 ^ 53 := by omega
      rw [hval, hmval]
      push_cast
      linarith
  · refine ⟨m, e, hlt, hlow, ?_, hval⟩
    by_contra hhigh
    have hlog : e + 52 = Int.log 2 |q| := by rw [he] at hhigh ⊢; unfold lastBit at hhigh ⊢; omega
    have hne : |q| ≠ 0 := by
      intro hzero
      rw [hzero, Int.log_zero_right] at hlog
      omega
    have hq : (2 : ℚ) ^ (e + 52) ≤ |q| := by
      rw [hlog]
      exact_mod_cast Int.zpow_log_le_self (by norm_num) (lt_of_le_of_ne (abs_nonneg q) hne.symm)
    have hquot : ((2 ^ 52 : ℕ) : ℚ) ≤ |q / 2 ^ e| := by
      rw [abs_div, abs_of_pos (two_zpow_pos _), le_div_iff₀ (two_zpow_pos _)]
      calc ((2 ^ 52 : ℕ) : ℚ) * 2 ^ e = 2 ^ (e + 52) := by rw [zpow_add₀ (by norm_num)]; push_cast; ring
        _ ≤ |q| := hq
    have hm52 : ((2 ^ 52 : ℕ) : ℤ) ≤ |m| := le_abs_nearest hquot
    have hbig : (2 : ℚ) ^ (1024 : ℤ) ≤ |rounded q| := by
      rw [habs]
      calc (2 : ℚ) ^ (1024 : ℤ) ≤ 2 ^ (52 + e) := zpow_le_zpow_right₀ (by norm_num) (by omega)
        _ = ((2 ^ 52 : ℕ) : ℤ) * 2 ^ e := by rw [zpow_add₀ (by norm_num)]; norm_num
        _ ≤ |m| * 2 ^ e := by gcongr
    exact absurd (lt_of_le_of_lt hbig h) (by norm_num)

/-! ## Exact values -/

theorem IsDouble.abs_lt {q : ℚ} (h : IsDouble q) : |q| < 2 ^ 1024 := by
  obtain ⟨m, e, hm, -, he, rfl⟩ := h
  have hm' : ((|m| : ℤ) : ℚ) < 2 ^ 53 := by exact_mod_cast hm
  have hpow : (2 : ℚ) ^ e ≤ 2 ^ (971 : ℤ) := zpow_le_zpow_right₀ (by norm_num) he
  rw [abs_mul, abs_of_pos (two_zpow_pos e), ← Int.cast_abs]
  calc ((|m| : ℤ) : ℚ) * 2 ^ e < 2 ^ 53 * 2 ^ e := mul_lt_mul_of_pos_right hm' (two_zpow_pos e)
    _ ≤ 2 ^ 53 * 2 ^ (971 : ℤ) := by gcongr
    _ = 2 ^ ((1024 : ℕ) : ℤ) := two_pow_mul_zpow 53 971
    _ = 2 ^ 1024 := zpow_natCast 2 1024

/-- A double is a multiple of its last bit. -/
theorem rounded_of_isDouble {q : ℚ} (h : IsDouble q) : rounded q = q := by
  by_cases hzero : q = 0
  · rw [hzero]
    simp [rounded, nearest]
  obtain ⟨m, e, hm, hlow, -, rfl⟩ := h
  have hle : lastBit (m * 2 ^ e) ≤ e := by
    have hlt : |(m : ℚ) * 2 ^ e| < ((2 : ℕ) : ℚ) ^ (53 + e) := by
      have hm' : ((|m| : ℤ) : ℚ) < 2 ^ 53 := by exact_mod_cast hm
      rw [abs_mul, abs_of_pos (two_zpow_pos e), ← Int.cast_abs]
      calc ((|m| : ℤ) : ℚ) * 2 ^ e < 2 ^ 53 * 2 ^ e := mul_lt_mul_of_pos_right hm' (two_zpow_pos e)
        _ = ((2 : ℕ) : ℚ) ^ (53 + e) := two_pow_mul_zpow 53 e
    have hlog := (Int.lt_zpow_iff_log_lt (by norm_num) (abs_pos.2 hzero)).1 hlt
    unfold lastBit
    omega
  obtain ⟨k, hk⟩ := Int.eq_ofNat_of_zero_le (sub_nonneg.2 hle)
  have hquot : (m : ℚ) * 2 ^ e / 2 ^ lastBit (m * 2 ^ e) = ((m * 2 ^ k : ℤ) : ℚ) := by
    rw [mul_div_assoc, ← zpow_sub₀ (by norm_num), hk]
    push_cast
    rfl
  unfold rounded
  rw [hquot, nearest_intCast, ← hquot, div_mul_cancel₀ _ (two_zpow_pos _).ne']

theorem isDouble_intCast {n : ℤ} (h : |n| < 2 ^ 53) : IsDouble n :=
  ⟨n, 0, h, by norm_num, by norm_num, by simp⟩

theorem isDouble_floor {q : ℚ} (h : IsDouble q) (hq : 0 ≤ q) : IsDouble ⌊q⌋ := by
  obtain ⟨m, e, hm, hlow, he, rfl⟩ := h
  have hm0 : 0 ≤ m := by
    by_contra hneg
    have hlt : (m : ℚ) * 2 ^ e < 0 :=
      mul_neg_of_neg_of_pos (by exact_mod_cast not_le.1 hneg) (two_zpow_pos e)
    exact absurd hq (not_le.2 hlt)
  rcases le_or_gt 0 e with hint | hfrac
  · obtain ⟨k, rfl⟩ := Int.eq_ofNat_of_zero_le hint
    have hcast : (m : ℚ) * 2 ^ (k : ℤ) = ((m * 2 ^ k : ℤ) : ℚ) := by push_cast; rfl
    rw [hcast, Int.floor_intCast, ← hcast]
    exact ⟨m, k, hm, hlow, he, rfl⟩
  · -- the floor is not above the significand
    refine isDouble_intCast ?_
    have hpow : (2 : ℚ) ^ e ≤ 1 := zpow_le_one_of_nonpos₀ (by norm_num) hfrac.le
    have hle : (m : ℚ) * 2 ^ e ≤ m := mul_le_of_le_one_right (by exact_mod_cast hm0) hpow
    have hfloor : ⌊(m : ℚ) * 2 ^ e⌋ ≤ m := by exact_mod_cast (Int.floor_le _).trans hle
    rw [abs_of_nonneg (Int.floor_nonneg.2 hq)]
    rw [abs_of_nonneg hm0] at hm
    omega

/-- An integer is subtracted exactly from a double that is not below it and not large. -/
theorem isDouble_sub_natCast {q : ℚ} (h : IsDouble q) {n : ℕ} (hn : n ≤ q) (hq : q < 2 ^ 53) :
    IsDouble (q - n) := by
  obtain ⟨m, e, hm, hlow, he, rfl⟩ := h
  rcases le_or_gt 0 e with hint | hfrac
  · obtain ⟨k, rfl⟩ := Int.eq_ofNat_of_zero_le hint
    have hcast : (m : ℚ) * 2 ^ (k : ℤ) - n = ((m * 2 ^ k - n : ℤ) : ℚ) := by push_cast; rfl
    have hcast' : (m : ℚ) * 2 ^ (k : ℤ) = ((m * 2 ^ k : ℤ) : ℚ) := by push_cast; rfl
    rw [hcast]
    rw [hcast'] at hn hq
    have hn' : (n : ℤ) ≤ m * 2 ^ k := by exact_mod_cast hn
    have hq' : m * 2 ^ k < 2 ^ 53 := by exact_mod_cast hq
    refine isDouble_intCast (abs_lt.2 ⟨?_, ?_⟩) <;> omega
  · obtain ⟨k, hk⟩ := Int.eq_ofNat_of_zero_le (Int.neg_nonneg.2 hfrac.le)
    have hone : (2 : ℚ) ^ k * 2 ^ e = 1 := by
      rw [← zpow_natCast, ← hk, ← zpow_add₀ (by norm_num)]
      simp
    have hval : (m : ℚ) * 2 ^ e - n = ((m - n * 2 ^ k : ℤ) : ℚ) * 2 ^ e := by
      push_cast
      calc (m : ℚ) * 2 ^ e - n = m * 2 ^ e - n * ((2 : ℚ) ^ k * 2 ^ e) := by rw [hone, mul_one]
        _ = (m - n * 2 ^ k) * 2 ^ e := by ring
    refine ⟨m - n * 2 ^ k, e, ?_, hlow, he, hval⟩
    have hge : (0 : ℤ) ≤ m - n * 2 ^ k := by
      have hnonneg : (0 : ℚ) ≤ ((m - n * 2 ^ k : ℤ) : ℚ) * 2 ^ e := by rw [← hval]; exact sub_nonneg.2 hn
      exact_mod_cast nonneg_of_mul_nonneg_left hnonneg (two_zpow_pos e)
    have hle : m - n * 2 ^ k ≤ m := by
      have : (0 : ℤ) ≤ n * 2 ^ k := by positivity
      omega
    rw [abs_of_nonneg hge]
    exact lt_of_le_of_lt hle (lt_of_le_of_lt (le_abs_self m) hm)

/-! ## Operations -/

namespace Double

instance : LE Double := ⟨fun x y => x.val ≤ y.val⟩

instance (x y : Double) : Decidable (x ≤ y) := inferInstanceAs (Decidable (x.val ≤ y.val))

/-- The nearest double; none where the value is out of range. -/
def round (q : ℚ) : Option Double :=
  if h : |rounded q| < 2 ^ 1024 then some ⟨rounded q, isDouble_rounded h⟩ else none

/-- The integer part. -/
def trunc (x : Double) : ℤ := if 0 ≤ x.val then ⌊x.val⌋ else ⌈x.val⌉

def sub (x y : Double) : Option Double := round (x.val - y.val)

/-- The floor of the quotient. -/
def floorDiv (x y : Double) : Option Double := round ⌊x.val / y.val⌋

theorem round_of_isDouble {q : ℚ} (h : IsDouble q) : round q = some ⟨q, h⟩ := by
  unfold round
  have hlt : |rounded q| < 2 ^ 1024 := by rw [rounded_of_isDouble h]; exact h.abs_lt
  rw [dif_pos hlt]
  exact congrArg some (ext (rounded_of_isDouble h))

theorem round_val (x : Double) : round x.val = some x := round_of_isDouble x.isDouble

/-- Rounding keeps the sign. -/
theorem round_nonpos {q : ℚ} (hq : q ≤ 0) {x : Double} (h : round q = some x) : x.val ≤ 0 := by
  unfold round at h
  split_ifs at h
  obtain rfl := Option.some.inj h
  have hquot : q / 2 ^ lastBit q ≤ ((0 : ℤ) : ℚ) := by
    rw [Int.cast_zero]
    exact div_nonpos_of_nonpos_of_nonneg hq (two_zpow_pos _).le
  have hle : ((nearest (q / 2 ^ lastBit q) : ℤ) : ℚ) ≤ 0 := by exact_mod_cast nearest_le hquot
  exact mul_nonpos_of_nonpos_of_nonneg hle (two_zpow_pos _).le

/-- What is well inside the range rounds to a double. -/
theorem round_isSome {q : ℚ} (hq : |q| < 2 ^ 900) : (round q).isSome = true := by
  have hlog : Int.log 2 |q| < 900 := by
    by_cases hzero : |q| = 0
    · rw [hzero, Int.log_zero_right]
      norm_num
    · exact (Int.lt_zpow_iff_log_lt (by norm_num) (lt_of_le_of_ne (abs_nonneg q) (Ne.symm hzero))).1
        (by exact_mod_cast hq)
  have hbit : lastBit q ≤ 900 := by unfold lastBit; omega
  have hm : |nearest (q / 2 ^ lastBit q)| ≤ 2 ^ 53 := by
    have hle := abs_nearest_le (n := 2 ^ 53) (by exact_mod_cast (abs_div_lastBit_lt q).le)
    exact_mod_cast hle
  have hm' : ((|nearest (q / 2 ^ lastBit q)| : ℤ) : ℚ) ≤ 2 ^ 53 := by exact_mod_cast hm
  have hlt : |rounded q| < 2 ^ 1024 := by
    unfold rounded
    rw [abs_mul, abs_of_pos (two_zpow_pos _), ← Int.cast_abs]
    calc ((|nearest (q / 2 ^ lastBit q)| : ℤ) : ℚ) * 2 ^ lastBit q ≤ 2 ^ 53 * 2 ^ (900 : ℤ) := by
          gcongr
          norm_num
      _ = 2 ^ (953 : ℤ) := two_pow_mul_zpow 53 900
      _ < 2 ^ ((1024 : ℕ) : ℤ) := zpow_lt_zpow_right₀ (by norm_num) (by norm_num)
      _ = 2 ^ 1024 := zpow_natCast 2 1024
  unfold round
  rw [dif_pos hlt]
  rfl

/-- A rational that is rounded to a double is not far out of the range of doubles. -/
theorem abs_lt_of_round {q : ℚ} (h : (round q).isSome = true) : |q| < 2 ^ 1024 := by
  by_contra hlarge
  rw [not_lt] at hlarge
  have hpos : (0 : ℚ) < |q| := lt_of_lt_of_le (by positivity) hlarge
  set k := Int.log 2 |q| with hk
  have hlow : ((2 : ℕ) : ℚ) ^ k ≤ |q| := Int.zpow_log_le_self (by norm_num) hpos
  have hlog : 1024 ≤ k := by
    rw [hk, ← Int.zpow_le_iff_le_log (by norm_num) hpos]
    exact_mod_cast hlarge
  have hbit : lastBit q = k - 52 := by
    unfold lastBit
    rw [← hk]
    omega
  -- the quotient by the last bit has all bits of the significand
  have hquot : ((2 ^ 52 : ℕ) : ℚ) ≤ |q / 2 ^ lastBit q| := by
    have hmul : ((2 ^ 52 : ℕ) : ℚ) * 2 ^ (k - 52) = ((2 : ℕ) : ℚ) ^ k := by
      rw [Nat.cast_pow, Nat.cast_ofNat, two_pow_mul_zpow]
      congr 1
      omega
    rw [abs_div, abs_of_pos (two_zpow_pos _), le_div_iff₀ (two_zpow_pos _), hbit, hmul]
    exact hlow
  have hnearest : ((2 ^ 52 : ℕ) : ℤ) ≤ |nearest (q / 2 ^ lastBit q)| := le_abs_nearest hquot
  have hrounded : (2 : ℚ) ^ 1024 ≤ |rounded q| := by
    unfold rounded
    rw [abs_mul, abs_of_pos (two_zpow_pos _), ← Int.cast_abs]
    have hnearest' : (2 : ℚ) ^ 52 ≤ ((|nearest (q / 2 ^ lastBit q)| : ℤ) : ℚ) := by exact_mod_cast hnearest
    calc (2 : ℚ) ^ 1024 = 2 ^ ((1024 : ℕ) : ℤ) := (zpow_natCast 2 1024).symm
      _ ≤ 2 ^ (52 + lastBit q) := zpow_le_zpow_right₀ (by norm_num) (by rw [hbit]; omega)
      _ = 2 ^ 52 * 2 ^ lastBit q := (two_pow_mul_zpow 52 _).symm
      _ ≤ _ := mul_le_mul_of_nonneg_right hnearest' (two_zpow_pos _).le
  unfold round at h
  rw [dif_neg (not_lt.2 hrounded)] at h
  cases h

theorem trunc_of_nonneg {x : Double} (h : 0 ≤ x.val) : x.trunc = ⌊x.val⌋ := if_pos h

theorem trunc_intCast {n : ℤ} (h : IsDouble n) : (Double.mk n h).trunc = n := by
  unfold trunc
  split_ifs
  · exact Int.floor_intCast n
  · exact Int.ceil_intCast n

/-- The integer part of a double is a double. -/
theorem round_trunc {x : Double} (h : 0 ≤ x.val) :
    round x.trunc = some ⟨⌊x.val⌋, isDouble_floor x.isDouble h⟩ := by
  rw [trunc_of_nonneg h]
  exact round_of_isDouble _

end Double

end Aibot
