/-
Quantities that a run conserves up to what its events add, and sums over the values of a dictionary
under its updates, in the natural numbers.
-/
import Aibot.Lib.Dict
import Aibot.Lib.Run

namespace Aibot

section Quantity

variable {σ ε M : Type*} [AddCommMonoid M] {step : σ → ε → Option σ} {ok : σ → ε → Prop}

/-- A quantity to which every step adds the weight of its event grows by the weights of a run. -/
theorem Run.quantity {Inv : σ → Prop} {Q : σ → M} {w : ε → M}
    (hinv : ∀ s e t, Inv s → ok s e → step s e = some t → Inv t)
    (hstep : ∀ s e t, Inv s → ok s e → step s e = some t → Q t = Q s + w e) {s t : σ} {es : List ε}
    (h : Run step ok s es t) (hs : Inv s) : Q t = Q s + (es.map w).sum := by
  induction h with
  | nil s => simp
  | cons hok he _ ih =>
    rw [ih (hinv _ _ _ hs hok he), hstep _ _ _ hs hok he, List.map_cons, List.sum_cons, add_assoc]

/-- A quantity to which every step of a fold adds the weight of its item. -/
theorem foldl_quantity {α β : Type*} {f : β → α → β} (Inv : β → Prop) (Q : β → M) (w : α → M) :
    ∀ {items : List α}, (∀ a ∈ items, ∀ b, Inv b → Inv (f b a) ∧ Q (f b a) = Q b + w a) → ∀ {b : β}, Inv b →
      Inv (items.foldl f b) ∧ Q (items.foldl f b) = Q b + (items.map w).sum
  | [], _, b, hb => ⟨hb, by simp⟩
  | a :: items, h, b, hb => by
    obtain ⟨hinv, hq⟩ := h a (List.mem_cons_self ..) b hb
    obtain ⟨hend, hsum⟩ := foldl_quantity Inv Q w (fun a ha => h a (List.mem_cons_of_mem _ ha)) hinv
    refine ⟨hend, ?_⟩
    rw [List.foldl_cons, hsum, hq, List.map_cons, List.sum_cons, add_assoc]

end Quantity

namespace Dict

variable {κ α : Type*}

/-- `f` of the value of a key, zero where there is none. -/
def valueOf [DecidableEq κ] (f : α → Nat) (d : Dict κ α) (k : κ) : Nat := ((d.get? k).map f).getD 0

theorem cast_sumOf (f : α → Nat) (d : Dict κ α) : ((d.sumOf f : Nat) : Int) = d.sumOf fun a => (f a : Int) := by
  unfold sumOf
  induction d.values with
  | nil => rfl
  | cons a l ih => simp [ih]

variable [DecidableEq κ]

@[simp] theorem valueOf_empty (f : α → Nat) (k : κ) : (empty : Dict κ α).valueOf f k = 0 := rfl

@[simp] theorem valueOf_set (f : α → Nat) (d : Dict κ α) (k k' : κ) (v : α) :
    (d.set k v).valueOf f k' = if k' = k then f v else d.valueOf f k' := by
  unfold valueOf
  rw [get?_set]
  split <;> rfl

/-- What is put in the place of the value of a key changes the sum by the difference. -/
theorem sumOf_set_add (f : α → Nat) (d : Dict κ α) (k : κ) (v : α) :
    (d.set k v).sumOf f + d.valueOf f k = d.sumOf f + f v := by
  have hcast : (((d.set k v).sumOf f : Nat) : Int) + (d.valueOf f k : Nat) = (d.sumOf f : Nat) + (f v : Nat) := by
    rw [cast_sumOf, cast_sumOf]
    unfold valueOf
    cases h : d.get? k with
    | none =>
      rw [sumOf_set_of_none _ h]
      simp
    | some a =>
      rw [sumOf_set_of_get _ h]
      simp only [Option.map_some, Option.getD_some]
      ring
  omega

omit [DecidableEq κ] in
theorem sumOf_eq_sum (f : α → Nat) (d : Dict κ α) : d.sumOf f = (d.entries.map fun item => f item.2).sum := by
  unfold sumOf values
  rw [List.map_map]
  rfl

end Dict

/-! ## Items by their keys -/

/-- The sum of `f` over the items of a key. -/
def sumAt {κ α : Type*} [DecidableEq κ] (f : α → Nat) (k : κ) (items : List (κ × α)) : Nat :=
  (items.map fun item => if item.1 = k then f item.2 else 0).sum

section Items

variable {κ α : Type*} [DecidableEq κ]

theorem sumAt_eq_zero {f : α → Nat} {k : κ} {items : List (κ × α)} (h : k ∉ items.map Prod.fst) :
    sumAt f k items = 0 := by
  unfold sumAt
  rw [List.sum_eq_zero_iff]
  intro n hn
  obtain ⟨item, hitem, rfl⟩ := List.mem_map.1 hn
  exact if_neg fun heq => h (List.mem_map.2 ⟨item, hitem, heq⟩)

theorem sumAt_of_mem {f : α → Nat} {k : κ} {a : α} : ∀ {items : List (κ × α)}, (items.map Prod.fst).Nodup →
    (k, a) ∈ items → sumAt f k items = f a
  | [], _, h => absurd h List.not_mem_nil
  | item :: items, hn, h => by
    rw [List.map_cons, List.nodup_cons] at hn
    unfold sumAt
    rw [List.map_cons, List.sum_cons]
    change _ + sumAt f k items = _
    rcases List.mem_cons.1 h with rfl | h
    · rw [sumAt_eq_zero hn.1, if_pos rfl, Nat.add_zero]
    · have hne : item.1 ≠ k := fun heq => hn.1 (List.mem_map.2 ⟨(k, a), h, heq.symm⟩)
      rw [sumAt_of_mem hn.2 h, if_neg hne, Nat.zero_add]

/-- A dictionary has one item for a key. -/
theorem Dict.valueOf_eq_sumAt (f : α → Nat) (d : Dict κ α) (k : κ) : d.valueOf f k = sumAt f k d.entries := by
  unfold valueOf
  cases h : d.get? k with
  | none => rw [sumAt_eq_zero (Dict.get?_eq_none.1 h)]; rfl
  | some a => rw [sumAt_of_mem d.nodup (Dict.get?_eq_some.1 h)]; rfl

end Items

end Aibot
