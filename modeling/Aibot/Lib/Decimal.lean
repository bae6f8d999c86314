/-
Decimal numbers as the rationals they are, with infinities and NaNs, under a context that rounds half to even
and traps invalid operations, divisions by zero and overflows: when an operation overflows, and that rounding
is monotone. Zero has one sign here.
-/
import Aibot.Lib.Floating

namespace Aibot

/-- A `Decimal`. -/
inductive Decimal
  | finite (x : ℚ)
  | infinite (negative : Bool)
  | nan
  | snan
  deriving DecidableEq

namespace Decimal

/-- What a trap raises. -/
inductive Signal
  | invalidOperation
  | divisionByZero
  | overflow
  deriving DecidableEq

/-- A context of `prec` digits. -/
structure Context where
  prec : ℕ
  emax : ℤ
  emin : ℤ
  prec_pos : 0 < prec
  emax_nonneg : 0 ≤ emax
  emin_nonpos : emin ≤ 0

namespace Context

variable (c : Context)

/-- The least exponent. -/
def etiny : ℤ := c.emin - c.prec + 1

/-- The exponent of the last digit of the largest numbers. -/
def etop : ℤ := c.emax - c.prec + 1

/-- The exponent of the last digit that a rational is rounded to. -/
def quantum (q : ℚ) : ℤ := max (Int.log 10 |q| - c.prec + 1) c.etiny

/-- The nearest number, the even one of two. -/
def rounded (q : ℚ) : ℚ := nearest (q / 10 ^ c.quantum q) * 10 ^ c.quantum q

/-- The least magnitude that is out of range: it is half a digit above the largest number. -/
def limit : ℚ := (10 ^ c.prec - 1 / 2) * 10 ^ c.etop

/-- The result of an operation. -/
def round (q : ℚ) : Except Signal Decimal :=
  if Int.log 10 |c.rounded q| ≤ c.emax then .ok (.finite (c.rounded q)) else .error .overflow

end Context

/-! ## Operations -/

/-- The place of a number in the order; a NaN has none. -/
def rank : Decimal → Option (WithBot (WithTop ℚ))
  | finite x => some ((x : WithTop ℚ) : WithBot (WithTop ℚ))
  | infinite true => some ⊥
  | infinite false => some ((⊤ : WithTop ℚ) : WithBot (WithTop ℚ))
  | _ => none

def isNaN (d : Decimal) : Bool := d.rank.isNone

/-- `x <= y`. -/
def le (x y : Decimal) : Except Signal Bool :=
  match x.rank, y.rank with
  | some r, some s => .ok (r ≤ s)
  | _, _ => .error .invalidOperation

/-- `x < y`. -/
def lt (x y : Decimal) : Except Signal Bool :=
  match x.rank, y.rank with
  | some r, some s => .ok (r < s)
  | _, _ => .error .invalidOperation

/-- `x == y`. -/
def eq (x y : Decimal) : Except Signal Bool :=
  match x, y with
  | snan, _ | _, snan => .error .invalidOperation
  | nan, _ | _, nan => .ok false
  | x, y => .ok (x = y)

def neg : Decimal → Decimal
  | finite x => finite (-x)
  | infinite negative => infinite !negative
  | d => d

section Arithmetic

variable (c : Context)

/-- `x + y`. -/
def add : Decimal → Decimal → Except Signal Decimal
  | snan, _ | _, snan => .error .invalidOperation
  | nan, _ | _, nan => .ok nan
  | finite x, finite y => c.round (x + y)
  | infinite s, infinite t => if s = t then .ok (infinite s) else .error .invalidOperation
  | infinite s, finite _ | finite _, infinite s => .ok (infinite s)

/-- `x - y`. -/
def sub (x y : Decimal) : Except Signal Decimal := add c x y.neg

/-- `x * y`. -/
def mul : Decimal → Decimal → Except Signal Decimal
  | snan, _ | _, snan => .error .invalidOperation
  | nan, _ | _, nan => .ok nan
  | finite x, finite y => c.round (x * y)
  | infinite s, infinite t => .ok (infinite (s != t))
  | infinite s, finite x | finite x, infinite s =>
    if x = 0 then .error .invalidOperation else .ok (infinite (s != decide (x < 0)))

/-- `x / y`. -/
def div : Decimal → Decimal → Except Signal Decimal
  | snan, _ | _, snan => .error .invalidOperation
  | nan, _ | _, nan => .ok nan
  | finite x, finite y =>
    if y = 0 then .error (if x = 0 then .invalidOperation else .divisionByZero) else c.round (x / y)
  | infinite _, infinite _ => .error .invalidOperation
  | infinite s, finite x => .ok (infinite (s != decide (x < 0)))
  | finite _, infinite _ => .ok (finite 0)

end Arithmetic

/-! ## The order -/

section Order

variable {x y : Decimal}

@[simp] theorem isNaN_finite (a : ℚ) : (finite a).isNaN = false := rfl

@[simp] theorem isNaN_infinite (s : Bool) : (infinite s).isNaN = false := by
  cases s <;> rfl

theorem isNaN_eq_false_iff : x.isNaN = false ↔ ∃ r, x.rank = some r := by
  cases h : x.rank <;> simp [isNaN, h]

/-- A comparison with what is no number raises. -/
theorem le_of_isNaN (h : x.isNaN = true ∨ y.isNaN = true) : x.le y = .error .invalidOperation := by
  unfold isNaN at h
  unfold le
  cases hx : x.rank with
  | none => rfl
  | some r =>
    cases hy : y.rank with
    | none => rfl
    | some s => simp [hx, hy] at h

theorem isOk_lt : (x.lt y).isOk = true ↔ x.isNaN = false ∧ y.isNaN = false := by
  unfold lt isNaN
  cases x.rank <;> cases y.rank <;> simp [Except.isOk, Except.toBool]

/-- Of two numbers, one is at most the other. -/
theorem le_or_le (hx : x.isNaN = false) (hy : y.isNaN = false) :
    x.le y = .ok true ∨ x.le y = .ok false ∧ y.le x = .ok true := by
  obtain ⟨r, hr⟩ := isNaN_eq_false_iff.1 hx
  obtain ⟨s, hs⟩ := isNaN_eq_false_iff.1 hy
  simp only [le, hr, hs, Except.ok.injEq, decide_eq_true_eq, decide_eq_false_iff_not]
  rcases le_total r s with h | h
  · exact Or.inl h
  · by_cases h' : r ≤ s
    · exact Or.inl h'
    · exact Or.inr ⟨h', h⟩

theorem eq_of_isNaN_eq_false (hx : x.isNaN = false) (hy : y.isNaN = false) : x.eq y = .ok (decide (x = y)) := by
  cases x with
  | nan | snan => cases hx
  | finite a | infinite a =>
    cases y with
    | nan | snan => cases hy
    | finite b | infinite b => rfl

/-- What is no number equals nothing. -/
theorem eq_of_isNaN (h : x.isNaN = true ∨ y.isNaN = true) :
    x.eq y = .ok false ∨ x.eq y = .error .invalidOperation := by
  cases x with
  | snan => exact Or.inr (by cases y <;> rfl)
  | nan => cases y <;> simp [eq]
  | finite a | infinite a =>
    cases y with
    | nan => exact Or.inl rfl
    | snan => exact Or.inr rfl
    | finite b | infinite b => simp at h

end Order

/-! ## Rounding -/

section Rounding

theorem ten_zpow_pos (e : ℤ) : (0 : ℚ) < 10 ^ e := zpow_pos (by norm_num) e

theorem ten_pow_mul_zpow (n : ℕ) (e : ℤ) : (10 : ℚ) ^ n * 10 ^ e = 10 ^ (n + e) := by
  rw [zpow_add₀ (by norm_num), zpow_natCast]

/-- What is less than half below an integer stays below it. -/
theorem nearest_lt {n : ℤ} {q : ℚ} (h : q < n - 1 / 2) : nearest q < n := by
  have hfloor := Int.floor_le q
  have hlt : ⌊q⌋ < n := by
    have hcast : (⌊q⌋ : ℚ) < n := by linarith
    exact_mod_cast hcast
  unfold nearest
  split_ifs with hdown
  · exact hlt
  · rcases (by omega : ⌊q⌋ + 1 < n ∨ ⌊q⌋ = n - 1) with hlow | heq
    · exact hlow
    · refine absurd (Or.inl ?_) hdown
      rw [heq]
      push_cast
      linarith

/-- What is at most half below an even integer goes up to it. -/
theorem le_nearest_of_even {n : ℤ} (hn : n % 2 = 0) {q : ℚ} (h : n - 1 / 2 ≤ q) : n ≤ nearest q := by
  have hfloor := Int.lt_floor_add_one q
  have hle : n - 1 ≤ ⌊q⌋ := by
    have hcast : ((n - 1 : ℤ) : ℚ) ≤ q := by
      push_cast
      linarith
    exact Int.le_floor.2 hcast
  unfold nearest
  split_ifs with hdown
  · rcases (by omega : n ≤ ⌊q⌋ ∨ ⌊q⌋ = n - 1) with hhigh | heq
    · exact hhigh
    · rw [heq] at hdown
      push_cast at hdown
      rcases hdown with hlow | ⟨-, heven⟩
      · linarith
      · omega
  · omega

theorem abs_nearest_lt {n : ℕ} {q : ℚ} (h : |q| < n - 1 / 2) : |nearest q| < n := by
  obtain ⟨hlow, hhigh⟩ := abs_lt.1 h
  refine abs_lt.2 ⟨?_, nearest_lt (by exact_mod_cast hhigh)⟩
  have hneg : nearest (-q) < n := nearest_lt (by push_cast; linarith)
  rw [nearest_neg] at hneg
  omega

theorem le_abs_nearest_of_even {n : ℕ} (hn : n % 2 = 0) {q : ℚ} (h : n - 1 / 2 ≤ |q|) : (n : ℤ) ≤ |nearest q| := by
  have heven : (n : ℤ) % 2 = 0 := by omega
  rcases le_abs.1 h with h | h
  · exact (le_nearest_of_even heven (by exact_mod_cast h)).trans (le_abs_self _)
  · have hneg : (n : ℤ) ≤ nearest (-q) := le_nearest_of_even heven (by exact_mod_cast h)
    rw [nearest_neg] at hneg
    exact hneg.trans (neg_le_abs _)

variable {c : Context} {q : ℚ}

theorem abs_div_zpow (q : ℚ) (e : ℤ) : |q / 10 ^ e| = |q| / 10 ^ e := by
  rw [abs_div, abs_of_pos (ten_zpow_pos e)]

theorem abs_rounded (q : ℚ) :
    |c.rounded q| = ((|nearest (q / 10 ^ c.quantum q)| : ℤ) : ℚ) * 10 ^ c.quantum q := by
  unfold Context.rounded
  rw [abs_mul, abs_of_pos (ten_zpow_pos _), Int.cast_abs]

theorem etop_eq (c : Context) : (10 : ℚ) ^ c.prec * 10 ^ c.etop = 10 ^ (c.emax + 1) := by
  rw [ten_pow_mul_zpow]
  unfold Context.etop
  congr 1
  omega

theorem limit_lt (c : Context) : c.limit < 10 ^ (c.emax + 1) := by
  unfold Context.limit
  rw [← etop_eq]
  exact mul_lt_mul_of_pos_right (by linarith) (ten_zpow_pos _)

theorem limit_pos (c : Context) : 0 < c.limit := by
  unfold Context.limit
  refine mul_pos ?_ (ten_zpow_pos _)
  have hone : (1 : ℚ) ≤ 10 ^ c.prec := one_le_pow₀ (by norm_num)
  linarith

theorem log_le_of_lt {e : ℤ} (he : 0 ≤ e) (h : |q| < 10 ^ (e + 1)) : Int.log 10 |q| ≤ e := by
  by_cases hzero : |q| = 0
  · rw [hzero, Int.log_zero_right]
    exact he
  · have hpos : 0 < |q| := lt_of_le_of_ne (abs_nonneg q) (Ne.symm hzero)
    have hlt := (Int.lt_zpow_iff_log_lt (by norm_num : 1 < 10) hpos).1 (by exact_mod_cast h)
    omega

/-- What is in range rounds to at most the largest number. -/
theorem abs_rounded_le (h : |q| < c.limit) : |c.rounded q| ≤ (10 ^ c.prec - 1) * 10 ^ c.etop := by
  have hlog : Int.log 10 |q| ≤ c.emax := log_le_of_lt c.emax_nonneg (h.trans (limit_lt c))
  have hprec := c.prec_pos
  have hemin := c.emin_nonpos
  have hemax := c.emax_nonneg
  have hquantum : c.quantum q ≤ c.etop := by
    unfold Context.quantum Context.etop Context.etiny
    omega
  rw [abs_rounded]
  rcases hquantum.eq_or_lt with heq | hlt
  · -- the last digit is that of the largest numbers
    rw [heq]
    have hquot : |q / 10 ^ c.etop| < ((10 ^ c.prec : ℕ) : ℚ) - 1 / 2 := by
      rw [abs_div_zpow, div_lt_iff₀ (ten_zpow_pos _)]
      push_cast
      exact h
    have hnearest : |nearest (q / 10 ^ c.etop)| ≤ 10 ^ c.prec - 1 := by
      have hle := abs_nearest_lt hquot
      push_cast at hle
      omega
    refine mul_le_mul_of_nonneg_right ?_ (ten_zpow_pos _).le
    exact_mod_cast hnearest
  · have hexp : Int.log 10 |q| + 1 ≤ c.prec + c.quantum q := by
      unfold Context.quantum
      omega
    have hbelow : |q| < (10 : ℚ) ^ (c.prec + c.quantum q) := by
      have hpow : |q| < ((10 : ℕ) : ℚ) ^ (Int.log 10 |q| + 1) := Int.lt_zpow_succ_log_self (by norm_num) |q|
      exact lt_of_lt_of_le (by exact_mod_cast hpow) (zpow_le_zpow_right₀ (by norm_num) hexp)
    have hquot : |q / 10 ^ c.quantum q| ≤ ((10 ^ c.prec : ℕ) : ℚ) := by
      rw [abs_div_zpow, div_le_iff₀ (ten_zpow_pos _)]
      push_cast
      rw [ten_pow_mul_zpow]
      exact hbelow.le
    have hnearest : ((|nearest (q / 10 ^ c.quantum q)| : ℤ) : ℚ) ≤ 10 ^ c.prec := by
      exact_mod_cast abs_nearest_le hquot
    have hten : (10 : ℚ) ^ (c.prec - 1) ≤ 10 ^ c.prec - 1 := by
      obtain ⟨n, hn⟩ : ∃ n, c.prec = n + 1 := ⟨c.prec - 1, by omega⟩
      rw [hn, Nat.add_sub_cancel, pow_succ]
      have hone : (1 : ℚ) ≤ 10 ^ n := one_le_pow₀ (by norm_num)
      linarith
    calc ((|nearest (q / 10 ^ c.quantum q)| : ℤ) : ℚ) * 10 ^ c.quantum q
        ≤ 10 ^ c.prec * 10 ^ c.quantum q := mul_le_mul_of_nonneg_right hnearest (ten_zpow_pos _).le
      _ = 10 ^ (c.prec + c.quantum q) := ten_pow_mul_zpow _ _
      _ ≤ 10 ^ (((c.prec - 1 : ℕ) : ℤ) + c.etop) := zpow_le_zpow_right₀ (by norm_num) (by omega)
      _ = 10 ^ (c.prec - 1) * 10 ^ c.etop := (ten_pow_mul_zpow _ _).symm
      _ ≤ (10 ^ c.prec - 1) * 10 ^ c.etop := mul_le_mul_of_nonneg_right hten (ten_zpow_pos _).le

theorem abs_rounded_lt (h : |q| < c.limit) : |c.rounded q| < c.limit := by
  refine lt_of_le_of_lt (abs_rounded_le h) ?_
  unfold Context.limit
  exact mul_lt_mul_of_pos_right (by linarith) (ten_zpow_pos _)

/-- What is out of range rounds to what has too large an exponent. -/
theorem le_abs_rounded (h : c.limit ≤ |q|) : (10 : ℚ) ^ (c.emax + 1) ≤ |c.rounded q| := by
  have hprec := c.prec_pos
  have hemin := c.emin_nonpos
  have hemax := c.emax_nonneg
  have hpos : 0 < |q| := (limit_pos c).trans_le h
  have hlogLe : (10 : ℚ) ^ Int.log 10 |q| ≤ |q| := by exact_mod_cast Int.zpow_log_le_self (by norm_num) hpos
  have hten : (10 : ℚ) ^ c.emax ≤ |q| := by
    refine le_trans ?_ h
    unfold Context.limit
    have hsplit : (10 : ℚ) ^ c.emax = 10 ^ (c.prec - 1) * 10 ^ c.etop := by
      rw [ten_pow_mul_zpow]
      unfold Context.etop
      congr 1
      omega
    rw [hsplit]
    refine mul_le_mul_of_nonneg_right ?_ (ten_zpow_pos _).le
    obtain ⟨n, hn⟩ : ∃ n, c.prec = n + 1 := ⟨c.prec - 1, by omega⟩
    rw [hn, Nat.add_sub_cancel, pow_succ]
    have hone : (1 : ℚ) ≤ 10 ^ n := one_le_pow₀ (by norm_num)
    linarith
  have hlog : c.emax ≤ Int.log 10 |q| := (Int.zpow_le_iff_le_log (by norm_num) hpos).1 (by exact_mod_cast hten)
  rw [abs_rounded]
  rcases hlog.eq_or_lt with heq | hlt
  · have hquantum : c.quantum q = c.etop := by
      unfold Context.quantum Context.etop Context.etiny
      omega
    rw [hquantum]
    have hquot : ((10 ^ c.prec : ℕ) : ℚ) - 1 / 2 ≤ |q / 10 ^ c.etop| := by
      rw [abs_div_zpow, le_div_iff₀ (ten_zpow_pos _)]
      push_cast
      exact h
    have heven : 10 ^ c.prec % 2 = 0 := by
      obtain ⟨n, hn⟩ : ∃ n, c.prec = n + 1 := ⟨c.prec - 1, by omega⟩
      rw [hn, pow_succ]
      omega
    have hnearest : (10 : ℚ) ^ c.prec ≤ ((|nearest (q / 10 ^ c.etop)| : ℤ) : ℚ) := by
      exact_mod_cast le_abs_nearest_of_even heven hquot
    rw [← etop_eq]
    exact mul_le_mul_of_nonneg_right hnearest (ten_zpow_pos _).le
  · have hquantum : ((c.prec - 1 : ℕ) : ℤ) + c.quantum q = Int.log 10 |q| := by
      unfold Context.quantum Context.etiny
      omega
    have hquot : ((10 ^ (c.prec - 1) : ℕ) : ℚ) ≤ |q / 10 ^ c.quantum q| := by
      rw [abs_div_zpow, le_div_iff₀ (ten_zpow_pos _)]
      push_cast
      rw [ten_pow_mul_zpow, hquantum]
      exact hlogLe
    have hnearest : (10 : ℚ) ^ (c.prec - 1) ≤ ((|nearest (q / 10 ^ c.quantum q)| : ℤ) : ℚ) := by
      exact_mod_cast le_abs_nearest hquot
    calc (10 : ℚ) ^ (c.emax + 1) ≤ 10 ^ Int.log 10 |q| := zpow_le_zpow_right₀ (by norm_num) (by omega)
      _ = 10 ^ (c.prec - 1) * 10 ^ c.quantum q := by rw [ten_pow_mul_zpow, hquantum]
      _ ≤ _ := mul_le_mul_of_nonneg_right hnearest (ten_zpow_pos _).le

/-- A result is in range exactly below the limit. -/
theorem round_eq_ok_iff {d : Decimal} : c.round q = .ok d ↔ |q| < c.limit ∧ d = .finite (c.rounded q) := by
  unfold Context.round
  constructor
  · intro h
    split_ifs at h with hlog
    refine ⟨?_, (Except.ok.inj h).symm⟩
    by_contra hout
    have hbig := le_abs_rounded (not_lt.1 hout)
    have hpos : 0 < |c.rounded q| := (ten_zpow_pos _).trans_le hbig
    have hle := (Int.zpow_le_iff_le_log (by norm_num : 1 < 10) hpos).1 (by exact_mod_cast hbig)
    omega
  · rintro ⟨hlt, rfl⟩
    rw [if_pos (log_le_of_lt c.emax_nonneg ((abs_rounded_lt hlt).trans (limit_lt c)))]

theorem rounded_nonneg (hq : 0 ≤ q) : 0 ≤ c.rounded q := by
  have hquot : ((0 : ℤ) : ℚ) ≤ q / 10 ^ c.quantum q := by
    rw [Int.cast_zero]
    exact div_nonneg hq (ten_zpow_pos _).le
  have hle : (0 : ℚ) ≤ ((nearest (q / 10 ^ c.quantum q) : ℤ) : ℚ) := by exact_mod_cast le_nearest hquot
  exact mul_nonneg hle (ten_zpow_pos _).le

/-- A power of ten that is no finer than the last digit bounds what rounds. -/
theorem rounded_le_zpow {k : ℤ} (hk : c.quantum q ≤ k) (h : q ≤ 10 ^ k) : c.rounded q ≤ 10 ^ k := by
  obtain ⟨n, hn⟩ := Int.eq_ofNat_of_zero_le (sub_nonneg.2 hk)
  have hpow : (10 : ℚ) ^ k = 10 ^ n * 10 ^ c.quantum q := by
    rw [ten_pow_mul_zpow]
    congr 1
    omega
  have hquot : q / 10 ^ c.quantum q ≤ ((10 ^ n : ℤ) : ℚ) := by
    rw [div_le_iff₀ (ten_zpow_pos _)]
    push_cast
    rw [← hpow]
    exact h
  have hle : ((nearest (q / 10 ^ c.quantum q) : ℤ) : ℚ) ≤ 10 ^ n := by exact_mod_cast nearest_le hquot
  rw [hpow]
  exact mul_le_mul_of_nonneg_right hle (ten_zpow_pos _).le

theorem zpow_le_rounded {k : ℤ} (hk : c.quantum q ≤ k) (h : 10 ^ k ≤ q) : 10 ^ k ≤ c.rounded q := by
  obtain ⟨n, hn⟩ := Int.eq_ofNat_of_zero_le (sub_nonneg.2 hk)
  have hpow : (10 : ℚ) ^ k = 10 ^ n * 10 ^ c.quantum q := by
    rw [ten_pow_mul_zpow]
    congr 1
    omega
  have hquot : ((10 ^ n : ℤ) : ℚ) ≤ q / 10 ^ c.quantum q := by
    rw [le_div_iff₀ (ten_zpow_pos _)]
    push_cast
    rw [← hpow]
    exact h
  have hle : (10 : ℚ) ^ n ≤ ((nearest (q / 10 ^ c.quantum q) : ℤ) : ℚ) := by exact_mod_cast le_nearest hquot
  rw [hpow]
  exact mul_le_mul_of_nonneg_right hle (ten_zpow_pos _).le

/-- Rounding keeps the order. -/
theorem rounded_mono_of_nonneg {r : ℚ} (hq : 0 ≤ q) (h : q ≤ r) : c.rounded q ≤ c.rounded r := by
  rcases hq.eq_or_lt with rfl | hpos
  · have hzero : c.rounded 0 = 0 := by simp [Context.rounded, nearest]
    rw [hzero]
    exact rounded_nonneg h
  have hr : 0 < r := hpos.trans_le h
  have hprec := c.prec_pos
  have hlog : Int.log 10 |q| ≤ Int.log 10 |r| := by
    rw [abs_of_pos hpos, abs_of_pos hr]
    exact Int.log_mono_right hpos h
  have hquantum : c.quantum q ≤ c.quantum r := by
    unfold Context.quantum
    omega
  rcases hquantum.eq_or_lt with heq | hlt
  · unfold Context.rounded
    rw [heq]
    have hle := nearest_mono (div_le_div_of_nonneg_right h (ten_zpow_pos (c.quantum r)).le)
    exact mul_le_mul_of_nonneg_right (by exact_mod_cast hle) (ten_zpow_pos _).le
  · -- a power of ten is between the two
    have hbelow : q ≤ (10 : ℚ) ^ Int.log 10 |r| := by
      have hsucc : |q| < ((10 : ℕ) : ℚ) ^ (Int.log 10 |q| + 1) := Int.lt_zpow_succ_log_self (by norm_num) |q|
      have hexp : Int.log 10 |q| + 1 ≤ Int.log 10 |r| := by
        unfold Context.quantum at hlt
        omega
      calc q = |q| := (abs_of_pos hpos).symm
        _ ≤ (10 : ℚ) ^ (Int.log 10 |q| + 1) := by exact_mod_cast hsucc.le
        _ ≤ 10 ^ Int.log 10 |r| := zpow_le_zpow_right₀ (by norm_num) hexp
    have habove : (10 : ℚ) ^ Int.log 10 |r| ≤ r := by
      rw [abs_of_pos hr]
      exact_mod_cast Int.zpow_log_le_self (by norm_num) hr
    have hk : c.quantum r ≤ Int.log 10 |r| := by
      unfold Context.quantum at hlt ⊢
      omega
    exact (rounded_le_zpow (hquantum.trans hk) hbelow).trans (zpow_le_rounded hk habove)

/-- A quotient of at most one rounds to at most one. -/
theorem rounded_le_one (hq : 0 ≤ q) (h : q ≤ 1) : c.rounded q ≤ 1 := by
  have hprec := c.prec_pos
  have hemin := c.emin_nonpos
  have hlog : Int.log 10 |q| ≤ 0 := by
    by_cases hzero : q = 0
    · rw [hzero, abs_zero, Int.log_zero_right]
    · have hpos : 0 < |q| := abs_pos.2 hzero
      have hlt : |q| < ((10 : ℕ) : ℚ) ^ (1 : ℤ) := by
        rw [abs_of_nonneg hq]
        norm_num
        linarith
      have := (Int.lt_zpow_iff_log_lt (by norm_num : 1 < 10) hpos).1 hlt
      omega
  have hquantum : c.quantum q ≤ 0 := by
    unfold Context.quantum Context.etiny
    omega
  have hone := rounded_le_zpow hquantum (by rw [zpow_zero]; exact h)
  rw [zpow_zero] at hone
  exact hone

end Rounding

end Decimal

end Aibot
