/-
When the tip of a bundle comes about. A tip that comes about is in its range, and a tip that is remembered is
positive; whether one comes about is a matter of the decimals of the row, of which some make the arithmetic or
the rounding up raise what is not caught.
-/
import Aibot.Live.Tip

namespace Aibot.Live.Tip

open Decimal (Signal Context)

/-! ## Rows that can be read -/

/-- A tip that is no number, or is in range in lamports. -/
def Usable (tip : Decimal) : Prop :=
  tip = .nan ∨ ∃ x, tip = .finite x ∧ |x * LAMPORTS_PER_SOL| < context.limit

/-- The weight of the right one of two neighbours, from the percentile of the left one and its own: the
difference of the two is in range and does not round to zero, or the right one is infinite. -/
def Weight (target left : ℚ) : Decimal → ℚ → Prop
  | .finite right, w => |right - left| < context.limit ∧ context.rounded (right - left) ≠ 0 ∧
      w = context.rounded (context.rounded (target - left) / context.rounded (right - left))
  | .infinite false, w => |target - left| < context.limit ∧ w = 0
  | _, _ => False

/-- The tip between two neighbours with numbers for tips. -/
def between (x y w : ℚ) : ℚ := context.rounded (x + context.rounded (context.rounded (y - x) * w))

/-- The tips of two neighbours: none is a signaling NaN, and one is no number, or both are finite, and their
difference and the tip between them in lamports are in range. -/
def TipsFit (w : ℚ) (left right : Decimal) : Prop :=
  left ≠ .snan ∧ right ≠ .snan ∧ (left = .nan ∨ right = .nan ∨ ∃ x y, left = .finite x ∧ right = .finite y ∧
    |y - x| < context.limit ∧ |between x y w * LAMPORTS_PER_SOL| < context.limit)

/-- The tip between two neighbours can be computed. -/
def Interpolable (target : ℚ) (left right : Point) : Prop :=
  ∃ l w, left.1 = .finite l ∧ Weight target l right.1 w ∧ TipsFit w left.2 right.2

/-- The first point whose percentile is not below the target, and the one before it. -/
def neighbours (target : ℚ) : List Point → Option (Point × Point)
  | left :: right :: rest =>
    if (Decimal.finite target).le right.1 = .ok true then some (left, right) else neighbours target (right :: rest)
  | _ => none

/-- The tips of two points are compared where their percentiles are equal. -/
def Comparable (p q : Point) : Prop := p.1 = q.1 → p.2.isNaN = false ∧ q.2.isNaN = false

/-- The point that the tip comes from, or the two, can be used; the points are in order. -/
def SelectedFits (target : ℚ) (first : Point) (rest : List Point) : Prop :=
  let last := (first :: rest).getLast (List.cons_ne_nil first rest)
  if (Decimal.finite target).le first.1 = .ok true then Usable first.2
  else if last.1.le (.finite target) = .ok true then Usable last.2
  else ∀ left right, neighbours target (first :: rest) = some (left, right) → Interpolable target left right

/-- The points of a row can be ordered, and what the tip comes from can be used. -/
def PointsFit (target : ℚ) (points : List Point) : Prop :=
  (∀ p ∈ points, p.1.isNaN = false) ∧ points.Pairwise Comparable ∧
    ∀ first rest, ordered points = first :: rest → SelectedFits target first rest

/-- The first row of the response, if it has one, can be read. -/
def Readable (py : Platform) (urgency : Urgency) (response : Response) : Prop :=
  ∀ row rest, response = .json (.list (.dict row :: rest)) → PointsFit urgency.percentile (tipPoints py row)

/-! ## Computations that settle -/

/-- The computation returns, or raises what is caught. -/
def Settles {α : Type} : Except Raised α → Prop
  | .ok _ => True
  | .error e => e.caught = true

@[simp] theorem settles_ok {α : Type} (a : α) : Settles (.ok a : Except Raised α) := trivial

@[simp] theorem settles_valueError {α : Type} : Settles (.error .valueError : Except Raised α) := rfl

@[simp] theorem not_settles_signal {α : Type} (s : Signal) : ¬ Settles (.error (.signal s) : Except Raised α) :=
  Bool.false_ne_true

@[simp] theorem not_settles_overflowError {α : Type} : ¬ Settles (.error .overflowError : Except Raised α) :=
  Bool.false_ne_true

@[simp] theorem traps_ok {α : Type} (a : α) : traps (.ok a) = .ok a := rfl

@[simp] theorem traps_error {α : Type} (s : Signal) : traps (.error s : Except Signal α) = .error (.signal s) := rfl

@[simp] theorem isOk_ok {ε α : Type} (a : α) : (Except.ok a : Except ε α).isOk = true := rfl

@[simp] theorem isOk_error {ε α : Type} (e : ε) : (Except.error e : Except ε α).isOk = false := rfl

@[simp] theorem ok_bind {ε α β : Type} (a : α) (f : α → Except ε β) : ((.ok a : Except ε α) >>= f) = f a := rfl

@[simp] theorem error_bind {ε α β : Type} (e : ε) (f : α → Except ε β) :
    ((.error e : Except ε α) >>= f) = .error e := rfl

/-! ## One tip -/

theorem round_of_lt {q : ℚ} (h : |q| < context.limit) : context.round q = .ok (.finite (context.rounded q)) :=
  Decimal.round_eq_ok_iff.2 ⟨h, rfl⟩

theorem round_of_not_lt {q : ℚ} (h : ¬ |q| < context.limit) : context.round q = .error .overflow := by
  unfold Context.round
  split_ifs with hlog
  · exact absurd (Decimal.round_eq_ok_iff.1 (if_pos hlog)).1 h
  · rfl

theorem usable_finite {x : ℚ} : Usable (.finite x) ↔ |x * LAMPORTS_PER_SOL| < context.limit := by
  constructor
  · rintro (h | ⟨x', h, hlt⟩)
    · cases h
    · cases h
      exact hlt
  · exact fun h => Or.inr ⟨x, rfl, h⟩

theorem not_usable_infinite {negative : Bool} : ¬ Usable (.infinite negative) := by
  rintro (h | ⟨x, h, -⟩)
  · cases h
  · cases h

theorem not_usable_snan : ¬ Usable .snan := by
  rintro (h | ⟨x, h, -⟩)
  · cases h
  · cases h

theorem settles_lamportsOf {tip : Decimal} : Settles (lamportsOf tip) ↔ Usable tip := by
  unfold lamportsOf
  cases tip with
  | finite x =>
    rw [usable_finite, show Decimal.mul context (.finite x) (.finite LAMPORTS_PER_SOL) =
      context.round (x * LAMPORTS_PER_SOL) from rfl]
    by_cases hfits : |x * LAMPORTS_PER_SOL| < context.limit
    · rw [round_of_lt hfits, traps_ok, ok_bind]
      simp only [ceil, ok_bind, hfits, iff_true]
      split_ifs <;> simp
    · rw [round_of_not_lt hfits]
      simp only [traps_error, error_bind, not_settles_signal, hfits]
  | infinite s =>
    have hmul : Decimal.mul context (.infinite s) (.finite LAMPORTS_PER_SOL) = .ok (.infinite s) := by
      unfold LAMPORTS_PER_SOL
      cases s <;> simp [Decimal.mul]
    rw [hmul]
    simp [ceil, not_usable_infinite]
  | nan =>
    have husable : Usable .nan := Or.inl rfl
    simp [Decimal.mul, ceil, husable]
  | snan => simp [Decimal.mul, not_usable_snan]

/-! ## Two tips -/

/-- What is in range in lamports is in range. -/
theorem lt_limit_of_rounded {q : ℚ} (h : |context.rounded q * LAMPORTS_PER_SOL| < context.limit) :
    |q| < context.limit := by
  by_contra hout
  have hbig := Decimal.le_abs_rounded (not_lt.1 hout)
  have hlimit := Decimal.limit_lt context
  rw [abs_mul, show |LAMPORTS_PER_SOL| = 1000000000 by unfold LAMPORTS_PER_SOL; norm_num] at h
  have hpos := abs_nonneg (context.rounded q)
  linarith

/-- The tip between two tips. -/
def valueBetween (w : ℚ) (left right : Decimal) : Except Signal Decimal := do
  Decimal.add context left (← Decimal.mul context (← Decimal.sub context right left) (.finite w))

section Values

variable {w : ℚ}

theorem valueBetween_finite (hw0 : 0 ≤ w) (hw1 : w ≤ 1) {x y : ℚ} (hdiff : |y - x| < context.limit) :
    valueBetween w (.finite x) (.finite y) =
      context.round (x + context.rounded (context.rounded (y - x) * w)) := by
  have hsub : Decimal.sub context (.finite y) (.finite x) = .ok (.finite (context.rounded (y - x))) := by
    show context.round (y + -x) = _
    rw [← sub_eq_add_neg]
    exact round_of_lt hdiff
  have hproduct : |context.rounded (y - x) * w| < context.limit := by
    refine lt_of_le_of_lt ?_ (Decimal.abs_rounded_lt hdiff)
    rw [abs_mul, abs_of_nonneg hw0]
    exact mul_le_of_le_one_right (abs_nonneg _) hw1
  unfold valueBetween
  rw [hsub, ok_bind, show Decimal.mul context (.finite (context.rounded (y - x))) (.finite w) =
    context.round (context.rounded (y - x) * w) from rfl, round_of_lt hproduct, ok_bind]
  rfl

end Values

/-- The computation is invalid or infinite. -/
def Escapes (x : Except Signal Decimal) : Prop := x = .error .invalidOperation ∨ ∃ s, x = .ok (.infinite s)

theorem Escapes.bind {x : Except Signal Decimal} {f : Decimal → Except Signal Decimal} (h : Escapes x)
    (hf : ∀ s, Escapes (f (.infinite s))) : Escapes (x >>= f) := by
  rcases h with rfl | ⟨s, rfl⟩
  · exact Or.inl rfl
  · exact hf s

theorem Escapes.not_settles {x : Except Signal Decimal} (h : Escapes x) : ¬ Settles (traps x >>= lamportsOf) := by
  rcases h with rfl | ⟨s, rfl⟩
  · exact not_settles_signal _
  · rw [traps_ok, ok_bind, settles_lamportsOf]
    exact not_usable_infinite

theorem escapes_add {d : Decimal} (hd : d ≠ .nan) (s : Bool) : Escapes (Decimal.add context d (.infinite s)) := by
  cases d with
  | finite x => exact Or.inr ⟨s, rfl⟩
  | infinite t =>
    by_cases hst : t = s
    · exact Or.inr ⟨t, if_pos hst⟩
    · exact Or.inl (if_neg hst)
  | nan => exact absurd rfl hd
  | snan => exact Or.inl rfl

theorem escapes_mul (s : Bool) (w : ℚ) : Escapes (Decimal.mul context (.infinite s) (.finite w)) := by
  by_cases hzero : w = 0
  · exact Or.inl (if_pos hzero)
  · exact Or.inr ⟨_, if_neg hzero⟩

/-- An infinite tip leads to no tip, unless the other one is no number, and neither does a signaling NaN. -/
theorem escapes_valueBetween {w : ℚ} {left right : Decimal}
    (h : left = .snan ∨ right = .snan ∨ left ≠ .nan ∧ right ≠ .nan ∧
      ((∃ s, left = .infinite s) ∨ ∃ s, right = .infinite s)) :
    Escapes (valueBetween w left right) := by
  unfold valueBetween
  by_cases hleft : left = .nan
  · rw [hleft] at h ⊢
    have hright : right = .snan := by simpa using h
    rw [hright]
    exact Or.inl rfl
  · refine Escapes.bind ?_ fun s => (escapes_mul s w).bind fun t => escapes_add hleft t
    rcases h with rfl | rfl | ⟨-, hright, ⟨s, rfl⟩ | ⟨s, rfl⟩⟩
    · cases right <;> exact Or.inl rfl
    · exact Or.inl rfl
    · exact escapes_add hright _
    · cases left with
      | finite x => exact Or.inr ⟨s, rfl⟩
      | infinite t => exact escapes_add (by simp) (!t)
      | nan => exact absurd rfl hleft
      | snan => exact Or.inl rfl

section Values

variable {w : ℚ}

theorem valueBetween_nan {left right : Decimal} (hleft : left ≠ .snan) (hright : right ≠ .snan)
    (h : left = .nan ∨ right = .nan) : valueBetween w left right = .ok .nan := by
  unfold valueBetween
  rcases h with rfl | rfl
  · cases right with
    | snan => exact absurd rfl hright
    | _ => rfl
  · cases left with
    | snan => exact absurd rfl hleft
    | _ => rfl

/-- The tip between two tips comes about, or is caught, exactly where the two fit. -/
theorem settles_valueBetween (hw0 : 0 ≤ w) (hw1 : w ≤ 1) {left right : Decimal} :
    Settles (traps (valueBetween w left right) >>= lamportsOf) ↔ TipsFit w left right := by
  by_cases hsignaling : left = .snan ∨ right = .snan
  · have hescapes : Escapes (valueBetween w left right) :=
      escapes_valueBetween (hsignaling.imp_right Or.inl)
    refine iff_of_false hescapes.not_settles ?_
    rintro ⟨hleft, hright, -⟩
    exact hsignaling.elim hleft hright
  obtain ⟨hleft, hright⟩ := not_or.1 hsignaling
  by_cases hnan : left = .nan ∨ right = .nan
  · refine iff_of_true ?_ ⟨hleft, hright, hnan.imp_right Or.inl⟩
    rw [valueBetween_nan hleft hright hnan, traps_ok, ok_bind, settles_lamportsOf]
    exact Or.inl rfl
  obtain ⟨hleft', hright'⟩ := not_or.1 hnan
  by_cases hinfinite : (∃ s, left = .infinite s) ∨ ∃ s, right = .infinite s
  · have hescapes : Escapes (valueBetween w left right) :=
      escapes_valueBetween (Or.inr (Or.inr ⟨hleft', hright', hinfinite⟩))
    refine iff_of_false hescapes.not_settles ?_
    rintro ⟨-, -, h | h | ⟨x, y, rfl, rfl, -⟩⟩
    · exact hleft' h
    · exact hright' h
    · rcases hinfinite with ⟨s, hs⟩ | ⟨s, hs⟩ <;> cases hs
  obtain ⟨x, rfl⟩ : ∃ x, left = .finite x := by
    cases left with
    | finite x => exact ⟨x, rfl⟩
    | infinite s => exact absurd (Or.inl ⟨s, rfl⟩) hinfinite
    | nan => exact absurd rfl hleft'
    | snan => exact absurd rfl hleft
  obtain ⟨y, rfl⟩ : ∃ y, right = .finite y := by
    cases right with
    | finite y => exact ⟨y, rfl⟩
    | infinite s => exact absurd (Or.inr ⟨s, rfl⟩) hinfinite
    | nan => exact absurd rfl hright'
    | snan => exact absurd rfl hright
  have hfit : TipsFit w (.finite x) (.finite y) ↔
      |y - x| < context.limit ∧ |between x y w * LAMPORTS_PER_SOL| < context.limit := by
    constructor
    · rintro ⟨-, -, h | h | ⟨x', y', hx, hy, hfits⟩⟩
      · cases h
      · cases h
      · cases hx
        cases hy
        exact hfits
    · exact fun h => ⟨hleft, hright, Or.inr (Or.inr ⟨x, y, rfl, rfl, h⟩)⟩
  rw [hfit]
  by_cases hdiff : |y - x| < context.limit
  · rw [valueBetween_finite hw0 hw1 hdiff]
    by_cases hsum : |x + context.rounded (context.rounded (y - x) * w)| < context.limit
    · rw [round_of_lt hsum, traps_ok, ok_bind, settles_lamportsOf, usable_finite]
      exact ⟨fun h => ⟨hdiff, h⟩, fun h => h.2⟩
    · rw [round_of_not_lt hsum]
      exact iff_of_false (not_settles_signal _) fun h => hsum (lt_limit_of_rounded h.2)
  · have hsub : Decimal.sub context (.finite y) (.finite x) = .error .overflow := by
      show context.round (y + -x) = _
      rw [← sub_eq_add_neg]
      exact round_of_not_lt hdiff
    have herror : valueBetween w (.finite x) (.finite y) = .error .overflow := by
      unfold valueBetween
      rw [hsub]
      rfl
    rw [herror]
    exact iff_of_false (not_settles_signal _) fun h => hdiff h.1

end Values

/-! ## Two percentiles -/

/-- The weight of the right one of two percentiles. -/
def weightOf (target : ℚ) (left right : Decimal) : Except Signal Decimal := do
  Decimal.div context (← Decimal.sub context (.finite target) left) (← Decimal.sub context right left)

theorem one_lt_limit : 1 < context.limit := by
  have hone : (1 : ℚ) ≤ 10 ^ context.etop := one_le_zpow₀ (by norm_num) (by norm_num [Context.etop, context])
  unfold Context.limit
  rw [show context.prec = 28 from rfl]
  linarith

theorem Weight.unique {target left : ℚ} {right : Decimal} {w w' : ℚ} (h : Weight target left right w)
    (h' : Weight target left right w') : w = w' := by
  cases right with
  | finite kr => exact h.2.2.trans h'.2.2.symm
  | infinite s =>
    cases s with
    | true => exact h.elim
    | false => exact h.2.trans h'.2.symm
  | nan | snan => exact h.elim

theorem weightOf_finite {target l r : ℚ} (hl : l < target) (hr : target ≤ r) :
    (∃ w, Weight target l (.finite r) w ∧ 0 ≤ w ∧ w ≤ 1 ∧ weightOf target (.finite l) (.finite r) = .ok (.finite w)) ∨
      (∃ s, weightOf target (.finite l) (.finite r) = .error s) ∧ ∀ w, ¬ Weight target l (.finite r) w := by
  have hsub : ∀ x : ℚ, Decimal.sub context (.finite x) (.finite l) = context.round (x - l) := fun x => by
    rw [sub_eq_add_neg]
    rfl
  have hnonneg : 0 ≤ target - l := by linarith
  unfold weightOf
  rw [hsub, hsub]
  by_cases hdiff : |r - l| < context.limit
  · have hdiff' : |target - l| < context.limit := by
      rw [abs_of_nonneg hnonneg]
      rw [abs_of_nonneg (by linarith)] at hdiff
      linarith
    rw [round_of_lt hdiff, round_of_lt hdiff', ok_bind, ok_bind]
    by_cases hzero : context.rounded (r - l) = 0
    · right
      exact ⟨⟨_, if_pos hzero⟩, fun w hw => hw.2.1 hzero⟩
    · left
      -- rounding keeps the order of the two differences
      have hle : context.rounded (target - l) ≤ context.rounded (r - l) :=
        Decimal.rounded_mono_of_nonneg hnonneg (by linarith)
      have hpos : 0 < context.rounded (r - l) :=
        lt_of_le_of_ne (Decimal.rounded_nonneg (by linarith)) (Ne.symm hzero)
      have hquot0 : 0 ≤ context.rounded (target - l) / context.rounded (r - l) :=
        div_nonneg (Decimal.rounded_nonneg hnonneg) hpos.le
      have hquot1 : context.rounded (target - l) / context.rounded (r - l) ≤ 1 := (div_le_one hpos).2 hle
      have hquot : |context.rounded (target - l) / context.rounded (r - l)| < context.limit := by
        rw [abs_of_nonneg hquot0]
        exact hquot1.trans_lt one_lt_limit
      refine ⟨_, ⟨hdiff, hzero, rfl⟩, Decimal.rounded_nonneg hquot0, Decimal.rounded_le_one hquot0 hquot1, ?_⟩
      show (if context.rounded (r - l) = 0 then _ else context.round _) = _
      rw [if_neg hzero, round_of_lt hquot]
  · right
    refine ⟨⟨.overflow, ?_⟩, fun w hw => hdiff hw.1⟩
    rw [round_of_not_lt hdiff]
    by_cases hdiff' : |target - l| < context.limit
    · rw [round_of_lt hdiff']
      rfl
    · rw [round_of_not_lt hdiff']
      rfl

theorem weightOf_infinite {target l : ℚ} :
    (∃ w, Weight target l (.infinite false) w ∧ 0 ≤ w ∧ w ≤ 1 ∧
        weightOf target (.finite l) (.infinite false) = .ok (.finite w)) ∨
      (∃ s, weightOf target (.finite l) (.infinite false) = .error s) ∧ ∀ w, ¬ Weight target l (.infinite false) w := by
  have hsub : Decimal.sub context (.finite target) (.finite l) = context.round (target - l) := by
    rw [sub_eq_add_neg]
    rfl
  unfold weightOf
  rw [hsub]
  by_cases hdiff : |target - l| < context.limit
  · left
    rw [round_of_lt hdiff]
    exact ⟨0, ⟨hdiff, rfl⟩, le_rfl, zero_le_one, rfl⟩
  · right
    rw [round_of_not_lt hdiff]
    exact ⟨⟨_, rfl⟩, fun w hw => hdiff hw.1⟩

/-- The weight between neighbours around the target: it is in its range, or there is none. -/
theorem weightOf_cases {target : ℚ} {left right : Decimal} (hleft : (Decimal.finite target).le left = .ok false)
    (hright : (Decimal.finite target).le right = .ok true) :
    (∃ l w, left = .finite l ∧ Weight target l right w ∧ 0 ≤ w ∧ w ≤ 1 ∧ weightOf target left right = .ok (.finite w)) ∨
      (∃ s, weightOf target left right = .error s) ∧ ∀ l w, left = .finite l → ¬ Weight target l right w := by
  cases left with
  | finite l =>
    have hl : l < target := by
      simpa [Decimal.le, Decimal.rank] using hleft
    have hcases : (∃ w, Weight target l right w ∧ 0 ≤ w ∧ w ≤ 1 ∧ weightOf target (.finite l) right = .ok (.finite w)) ∨
        (∃ s, weightOf target (.finite l) right = .error s) ∧ ∀ w, ¬ Weight target l right w := by
      cases right with
      | finite r =>
        have hr : target ≤ r := by
          simpa [Decimal.le, Decimal.rank] using hright
        exact weightOf_finite hl hr
      | infinite s =>
        cases s with
        | true => simp [Decimal.le, Decimal.rank] at hright
        | false => exact weightOf_infinite
      | nan => cases hright
      | snan => cases hright
    rcases hcases with ⟨w, hw, hrest⟩ | ⟨herror, hnone⟩
    · exact Or.inl ⟨l, w, rfl, hw, hrest⟩
    · right
      refine ⟨herror, fun l' w heq => ?_⟩
      cases heq
      exact hnone w
  | infinite s =>
    cases s with
    | true =>
      right
      refine ⟨⟨.invalidOperation, ?_⟩, fun l w heq => by cases heq⟩
      cases right with
      | finite r => rfl
      | infinite t =>
        cases t with
        | true => simp [Decimal.le, Decimal.rank] at hright
        | false => rfl
      | nan => cases hright
      | snan => cases hright
    | false => simp [Decimal.le, Decimal.rank] at hleft
  | nan => cases hleft
  | snan => cases hleft

theorem interpolate_eq (target : ℚ) (left right : Point) :
    interpolate target left right = (do
      let weight ← weightOf target left.1 right.1
      Decimal.add context left.2 (← Decimal.mul context (← Decimal.sub context right.2 left.2) weight)) := by
  unfold interpolate weightOf
  cases Decimal.sub context (.finite target) left.1 with
  | error s => rfl
  | ok a => cases Decimal.sub context right.1 left.1 <;> rfl

/-- The tip between neighbours around the target comes about, or is caught, exactly where it can be computed. -/
theorem settles_interpolate {target : ℚ} {left right : Point} (hleft : (Decimal.finite target).le left.1 = .ok false)
    (hright : (Decimal.finite target).le right.1 = .ok true) :
    Settles (traps (interpolate target left right) >>= lamportsOf) ↔ Interpolable target left right := by
  rw [interpolate_eq]
  rcases weightOf_cases hleft hright with ⟨l, w, heq, hw, hw0, hw1, hweight⟩ | ⟨⟨s, hweight⟩, hnone⟩
  · rw [hweight, ok_bind]
    have hvalue : Settles (traps (valueBetween w left.2 right.2) >>= lamportsOf) ↔ TipsFit w left.2 right.2 :=
      settles_valueBetween hw0 hw1
    refine hvalue.trans ⟨fun h => ⟨l, w, heq, hw, h⟩, ?_⟩
    rintro ⟨l', w', heq', hw', h⟩
    rw [heq] at heq'
    cases heq'
    rw [hw.unique hw']
    exact h
  · rw [hweight, error_bind, traps_error, error_bind]
    refine iff_of_false (not_settles_signal s) ?_
    rintro ⟨l, w, heq, hw, -⟩
    exact hnone l w heq hw

/-! ## The neighbours of the target -/

/-- The walk over the neighbours, which starts below the target. -/
theorem settles_interpolateFrom {target : ℚ} (rest : List Point) {left : Point}
    (hnum : ∀ p ∈ left :: rest, p.1.isNaN = false) (hleft : (Decimal.finite target).le left.1 = .ok false) :
    Settles (interpolateFrom target (left :: rest) >>= lamportsOf) ↔
      ∀ l r, neighbours target (left :: rest) = some (l, r) → Interpolable target l r := by
  induction rest generalizing left with
  | nil => simp [interpolateFrom, neighbours]
  | cons right rest ih =>
    have hright : right.1.isNaN = false := hnum right (by simp)
    have hbelow : left.1.le (.finite target) = .ok true := by
      rcases Decimal.le_or_le (x := .finite target) rfl (hnum left (by simp)) with h | ⟨-, h⟩
      · rw [hleft] at h
        cases h
      · exact h
    rw [interpolateFrom, neighbours, hbelow]
    simp only [traps_ok, ok_bind, if_true]
    rcases Decimal.le_or_le (x := .finite target) rfl hright with h | ⟨h, -⟩
    · -- the two neighbours are around the target
      rw [h]
      simp only [traps_ok, ok_bind, if_true, Option.some.injEq, Prod.mk.injEq]
      rw [settles_interpolate hleft h]
      constructor
      · rintro hfits l r ⟨rfl, rfl⟩
        exact hfits
      · exact fun hfits => hfits left right ⟨rfl, rfl⟩
    · rw [h]
      simp only [traps_ok, ok_bind, Bool.false_eq_true, if_false, Except.ok.injEq]
      exact ih (fun p hp => hnum p (List.mem_cons_of_mem _ hp)) h

/-! ## The points in order -/

theorem isOk_lt_iff {p q : Point} (hp : p.1.isNaN = false) (hq : q.1.isNaN = false) :
    (Point.lt p q).isOk = true ↔ Comparable p q := by
  unfold Point.lt Comparable
  rw [Decimal.eq_of_isNaN_eq_false hp hq, ok_bind]
  by_cases hkey : p.1 = q.1
  · by_cases htips : p.2.isNaN = false ∧ q.2.isNaN = false
    · have hlt : (p.2.lt q.2).isOk = true := Decimal.isOk_lt.2 htips
      rw [Decimal.eq_of_isNaN_eq_false htips.1 htips.2]
      by_cases htip : p.2 = q.2 <;> simp [hkey, htip, htips, hlt, pure, Except.pure, isOk_ok]
    · have hlt : ¬ (p.2.lt q.2).isOk = true := fun h => htips (Decimal.isOk_lt.1 h)
      have hnan : p.2.isNaN = true ∨ q.2.isNaN = true := by
        by_contra h
        exact htips (by simpa using h)
      rcases Decimal.eq_of_isNaN hnan with heq | heq <;> simp [hkey, heq, htips, hlt]
  · have hlt : (p.1.lt q.1).isOk = true := Decimal.isOk_lt.2 ⟨hp, hq⟩
    simp [hkey, hlt]

theorem isNaN_of_isOk_lt {p q : Point} (h : (Point.lt p q).isOk = true) :
    p.1.isNaN = false ∧ q.1.isNaN = false := by
  by_contra hnone
  have hlt : ¬ (p.1.lt q.1).isOk = true := fun h => hnone (Decimal.isOk_lt.1 h)
  have hnan : p.1.isNaN = true ∨ q.1.isNaN = true := by
    by_contra h
    exact hnone (by simpa using h)
  unfold Point.lt at h
  rcases Decimal.eq_of_isNaN hnan with heq | heq <;> simp [heq, hlt] at h

theorem pairwise_isOk_lt_iff {points : List Point} (hnum : ∀ p ∈ points, p.1.isNaN = false) :
    points.Pairwise (fun p q => (Point.lt p q).isOk = true) ↔ points.Pairwise Comparable :=
  List.Pairwise.iff_of_mem fun hp hq => isOk_lt_iff (hnum _ hp) (hnum _ hq)

/-- A percentile that is no number is compared with another one, or with the target. -/
theorem numbers_of_pairwise {first second : Point} {rest : List Point}
    (h : (first :: second :: rest).Pairwise fun p q => (Point.lt p q).isOk = true) :
    ∀ p ∈ first :: second :: rest, p.1.isNaN = false := by
  obtain ⟨hfirst, -⟩ := List.pairwise_cons.1 h
  intro p hp
  rcases List.mem_cons.1 hp with rfl | hp
  · exact (isNaN_of_isOk_lt (hfirst second (by simp))).1
  · exact (isNaN_of_isOk_lt (hfirst p hp)).2

theorem mem_ordered {points : List Point} {p : Point} : p ∈ ordered points ↔ p ∈ points :=
  (List.perm_insertionSort _ points).mem_iff

/-- The percentile of points in order. -/
def percentileFrom (target : ℚ) (first : Point) (rest : List Point) : Except Raised Decimal := do
  let last := (first :: rest).getLast (List.cons_ne_nil first rest)
  if ← traps ((Decimal.finite target).le first.1) then return first.2
  if ← traps (last.1.le (.finite target)) then return last.2
  interpolateFrom target (first :: rest)

theorem settles_percentileFrom {target : ℚ} {first : Point} {rest : List Point}
    (hnum : ∀ p ∈ first :: rest, p.1.isNaN = false) :
    Settles (percentileFrom target first rest >>= lamportsOf) ↔ SelectedFits target first rest := by
  have hlast := List.getLast_mem (List.cons_ne_nil first rest)
  unfold percentileFrom SelectedFits
  rcases Decimal.le_or_le (x := .finite target) rfl (hnum first (by simp)) with h | ⟨h, -⟩
  · rw [h]
    exact settles_lamportsOf
  rw [h]
  simp only [traps_ok, ok_bind, Bool.false_eq_true, if_false, Except.ok.injEq]
  rcases Decimal.le_or_le (y := .finite target) (hnum _ hlast) rfl with h' | ⟨h', -⟩
  · rw [h']
    exact settles_lamportsOf
  · rw [h']
    simp only [traps_ok, ok_bind, Bool.false_eq_true, if_false, Except.ok.injEq]
    exact settles_interpolateFrom rest hnum h

/-- The percentile of a row comes about in lamports, or is caught, exactly where the points of the row fit. -/
theorem settles_tipPercentile {py : Platform} {row : List (Key × Value)} {target : ℚ} :
    Settles (tipPercentile py row target >>= lamportsOf) ↔ PointsFit target (tipPoints py row) := by
  unfold tipPercentile
  generalize tipPoints py row = points
  by_cases hnum : ∀ p ∈ points, p.1.isNaN = false
  · by_cases hpairs : points.Pairwise Comparable
    · rw [sortPoints, if_pos ((pairwise_isOk_lt_iff hnum).2 hpairs), traps_ok, ok_bind]
      cases hordered : ordered points with
      | nil =>
        refine iff_of_true settles_valueError ⟨hnum, hpairs, fun first rest heq => ?_⟩
        cases hordered.symm.trans heq
      | cons first rest =>
        have hnum' : ∀ p ∈ first :: rest, p.1.isNaN = false := by
          rw [← hordered]
          exact fun p hp => hnum p (mem_ordered.1 hp)
        refine (settles_percentileFrom hnum').trans ⟨fun h => ⟨hnum, hpairs, ?_⟩, fun h => h.2.2 first rest hordered⟩
        rintro first' rest' heq
        cases hordered.symm.trans heq
        exact h
    · rw [sortPoints, if_neg fun h => hpairs ((pairwise_isOk_lt_iff hnum).1 h), traps_error, error_bind, error_bind]
      exact iff_of_false (not_settles_signal _) fun h => hpairs h.2.1
  · refine iff_of_false ?_ fun h => hnum h.1
    unfold sortPoints
    split_ifs with hpairs
    · match points with
      | [] => exact absurd (by simp) hnum
      | [p] =>
        have hnan : p.1.isNaN = true := by simpa using hnum
        have hle : (Decimal.finite target).le p.1 = .error .invalidOperation := Decimal.le_of_isNaN (Or.inr hnan)
        simp [ordered, hle]
      | first :: second :: rest => exact absurd (numbers_of_pairwise hpairs) hnum
    · exact not_settles_signal _

/-! ## The tip -/

theorem settles_requestedTip {py : Platform} {urgency : Urgency} {response : Response} :
    Settles (requestedTip py urgency response) ↔ Readable py urgency response := by
  unfold requestedTip
  split
  · rename_i row rest
    refine settles_tipPercentile.trans ⟨fun h row' rest' heq => ?_, fun h => h row rest rfl⟩
    cases heq
    exact h
  · rename_i hnone
    exact iff_of_true settles_valueError fun row rest heq => absurd heq (hnone row rest)

theorem lamportsOf_pos {tip : Decimal} {requested : ℤ} (h : lamportsOf tip = .ok requested) : 0 < requested := by
  unfold lamportsOf at h
  obtain ⟨product, -, h⟩ := Aibot.bind_ok h
  obtain ⟨n, -, h⟩ := Aibot.bind_ok h
  split_ifs at h with hpos
  cases h
  omega

theorem requestedTip_pos {py : Platform} {urgency : Urgency} {response : Response} {requested : ℤ}
    (h : requestedTip py urgency response = .ok requested) : 0 < requested := by
  unfold requestedTip at h
  split at h
  · obtain ⟨tip, -, htip⟩ := Aibot.bind_ok h
    exact lamportsOf_pos htip
  · cases h

/-- The cap of the fee where it is at least the minimum. -/
theorem feeCap_eq {notional : ℤ} (h : JITO_MIN_TIP_LAMPORTS ≤ feeCap notional) :
    feeCap notional = min (notional * MAX_FEE_BASIS_POINTS / 10000) MAX_ABSOLUTE_FEE_LAMPORTS := by
  unfold feeCap JITO_MIN_TIP_LAMPORTS MAX_FEE_BASIS_POINTS at *
  by_cases hpos : 0 ≤ notional
  · rw [max_eq_right hpos]
  · rw [max_eq_left (by omega)] at h
    omega

/-- The tip is in its range, and the tip that is remembered is the one before it or positive. -/
structure Sound (last : Option ℤ) (notional : ℤ) (tip : ℤ) (last' : Option ℤ) : Prop where
  minimum : JITO_MIN_TIP_LAMPORTS ≤ tip
  cap : tip ≤ min (notional * MAX_FEE_BASIS_POINTS / 10000) MAX_ABSOLUTE_FEE_LAMPORTS
  remembered : last' = last ∨ ∃ requested, last' = some requested ∧ 0 < requested

theorem clamp_sound {notional : ℤ} (hcap : JITO_MIN_TIP_LAMPORTS ≤ feeCap notional) (requested : ℤ)
    {last last' : Option ℤ}
    (hlast : last' = last ∨ ∃ requested, last' = some requested ∧ 0 < requested) :
    Sound last notional (max JITO_MIN_TIP_LAMPORTS (min requested (feeCap notional))) last' := by
  constructor
  · exact le_max_left _ _
  · rw [← feeCap_eq hcap]
    exact max_le hcap (min_le_right _ _)
  · exact hlast

/-- The order is not blocked exactly where the response can be read: no exception of the decimals is among those
that are caught. -/
theorem tip_sound_iff (py : Platform) (last : Option ℤ) (notional : ℤ) (urgency : Urgency) (response : Response)
    (hcap : JITO_MIN_TIP_LAMPORTS ≤ feeCap notional) :
    (∃ tip last', dynamicJitoTip py last notional urgency response = .ok (tip, last') ∧ Sound last notional tip last') ↔
      Readable py urgency response := by
  rw [← settles_requestedTip]
  unfold dynamicJitoTip
  rw [if_neg (not_lt.2 hcap)]
  cases hrequested : requestedTip py urgency response with
  | ok requested =>
    have hpos := requestedTip_pos hrequested
    refine iff_of_true ⟨_, _, rfl, clamp_sound hcap requested (Or.inr ⟨requested, rfl, hpos⟩)⟩ (settles_ok requested)
  | error e =>
    by_cases hcaught : e.caught = true
    · refine iff_of_true ?_ hcaught
      simp only [hcaught, if_true]
      exact ⟨_, _, rfl, clamp_sound hcap _ (Or.inl rfl)⟩
    · refine iff_of_false ?_ hcaught
      simp [hcaught]

/-- A platform whose only texts are those of JSON strings. -/
def texts : Platform where
  text
    | .str s => s
    | _ => ""
  decimalDigit _ := none

theorem tip_sound_iff_one_sol :
    JITO_MIN_TIP_LAMPORTS ≤ feeCap 1000000000 ∧
      ((∃ tip last', dynamicJitoTip texts none 1000000000 .normal .failed = .ok (tip, last') ∧
        Sound none 1000000000 tip last') ↔ Readable texts .normal .failed) :=
  ⟨by decide, tip_sound_iff texts none 1000000000 .normal .failed (by decide)⟩

/-- An infinite tip. -/
def infiniteRow : List (Key × Value) := [(.str "landed_tips_95th_percentile", .str "Infinity")]

theorem tipPoints_infiniteRow : tipPoints texts infiniteRow = [(.finite 95, .infinite false)] := by
  decide +kernel

theorem requestedTip_infiniteRow :
    requestedTip texts .normal (.json (.list [.dict infiniteRow])) = .error .overflowError := by
  have hsort : sortPoints [(.finite 95, .infinite false)] = .ok [(.finite 95, .infinite false)] := by
    simp [sortPoints, ordered]
  have hle : (Decimal.finite (125 / 2)).le (.finite 95) = .ok true := by
    simp only [Decimal.le, Decimal.rank, Except.ok.injEq, decide_eq_true_eq]
    norm_cast
    norm_num
  have hpercentile : tipPercentile texts infiniteRow Urgency.normal.percentile = .ok (.infinite false) := by
    unfold tipPercentile
    rw [tipPoints_infiniteRow, hsort, traps_ok, ok_bind]
    show percentileFrom (125 / 2) (.finite 95, .infinite false) [] = _
    rw [percentileFrom, hle]
    rfl
  have hmul : Decimal.mul context (.infinite false) (.finite LAMPORTS_PER_SOL) = .ok (.infinite false) := by
    norm_num [Decimal.mul, LAMPORTS_PER_SOL]
  show (do lamportsOf (← tipPercentile texts infiniteRow Urgency.normal.percentile)) = _
  rw [hpercentile, ok_bind, lamportsOf, hmul]
  rfl

/-- The exception of the rounding is not caught. -/
theorem infinite_tip_blocks :
    ¬ ∃ tip last', dynamicJitoTip texts none 1000000000 .normal (.json (.list [.dict infiniteRow])) = .ok (tip, last') ∧
      Sound none 1000000000 tip last' := by
  have hcap : ¬ feeCap 1000000000 < JITO_MIN_TIP_LAMPORTS := by decide
  have hraises : dynamicJitoTip texts none 1000000000 .normal (.json (.list [.dict infiniteRow])) =
      .error .overflowError := by
    unfold dynamicJitoTip
    rw [if_neg hcap, requestedTip_infiniteRow]
    rfl
  rintro ⟨tip, last', h, -⟩
  rw [hraises] at h
  cases h

end Aibot.Live.Tip
