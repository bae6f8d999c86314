/-
Stable sorting by a rank, the best first: `sorted(items, key=rank, reverse=True)`. Which items of a kind
a sorted list has, and where the items of one list land among those of another.
-/
import Mathlib.Data.List.Sort
import Mathlib.Tactic

namespace Aibot.Ranked

variable {α ρ : Type*} [LinearOrder ρ] (rank : α → ρ)

/-- The first item stands before the second one, or may. -/
def Before (a b : α) : Prop := rank b ≤ rank a

instance : DecidableRel (Before rank) := fun a b => inferInstanceAs (Decidable (rank b ≤ rank a))

instance : IsTrans α (Before rank) := ⟨fun _ _ _ hab hbc => hbc.trans hab⟩

instance : Std.Total (Before rank) := ⟨fun a b => le_total (rank b) (rank a)⟩

/-- Sort by rank, the best first, and items of one rank in the order they came in. -/
def sort (items : List α) : List α := items.insertionSort (Before rank)

variable {rank}

theorem sort_perm (items : List α) : (sort rank items).Perm items := List.perm_insertionSort ..

theorem mem_sort {items : List α} {a : α} : a ∈ sort rank items ↔ a ∈ items := (sort_perm items).mem_iff

theorem length_sort (items : List α) : (sort rank items).length = items.length := (sort_perm items).length_eq

theorem pairwise_sort (items : List α) : (sort rank items).Pairwise (Before rank) := List.pairwise_insertionSort ..

theorem sort_eq_self {items : List α} (h : items.Pairwise (Before rank)) : sort rank items = items :=
  h.insertionSort_eq

/-- Sorting the items of one list into the sorted items of another. -/
theorem sort_append (xs ys : List α) :
    sort rank (xs ++ ys) = xs.foldr (List.orderedInsert (Before rank)) (sort rank ys) :=
  List.foldr_append

/-! ## Items of a kind -/

/-- What is inserted into a sorted list is found among the items of its kind where it would be inserted
into these alone. -/
theorem filter_orderedInsert (p : α → Bool) {a : α} : ∀ {items : List α}, items.Pairwise (Before rank) →
    (items.orderedInsert (Before rank) a).filter p =
      if p a then (items.filter p).orderedInsert (Before rank) a else items.filter p
  | [], _ => by cases h : p a <;> simp [h]
  | b :: items, hs => by
    have ih := filter_orderedInsert p (a := a) hs.of_cons
    have hfirst : ∀ c ∈ items.filter p, Before rank b c := fun c hc =>
      List.rel_of_pairwise_cons hs (List.mem_of_mem_filter hc)
    by_cases hab : Before rank a b
    · rw [List.orderedInsert_cons_of_le _ _ hab]
      cases ha : p a with
      | false => simp [ha]
      | true =>
        rw [List.filter_cons_of_pos ha, if_pos rfl]
        have hbefore : ∀ c ∈ (b :: items).filter p, Before rank a c := by
          intro c hc
          rcases List.mem_cons.1 (List.mem_of_mem_filter hc) with rfl | hmem
          · exact hab
          · exact le_trans (List.rel_of_pairwise_cons hs hmem) hab
        cases hl : (b :: items).filter p with
        | nil => rfl
        | cons c rest =>
          rw [List.orderedInsert_cons_of_le]
          exact hbefore c (hl ▸ List.mem_cons_self)
    · rw [List.orderedInsert_of_not_le _ _ hab]
      cases hb : p b with
      | false => rw [List.filter_cons_of_neg (by simp [hb]), List.filter_cons_of_neg (by simp [hb]), ih]
      | true =>
        rw [List.filter_cons_of_pos hb, List.filter_cons_of_pos hb, ih]
        cases ha : p a with
        | false => rfl
        | true => rw [if_pos rfl, if_pos rfl, List.orderedInsert_of_not_le _ _ hab]

/-- The items of a kind stand as they would if they were sorted alone. -/
theorem filter_sort (p : α → Bool) : ∀ items : List α, (sort rank items).filter p = sort rank (items.filter p)
  | [] => rfl
  | a :: items => by
    show ((sort rank items).orderedInsert (Before rank) a).filter p = _
    rw [filter_orderedInsert p (pairwise_sort items), filter_sort p items]
    cases ha : p a <;> simp [ha, sort]

/-! ## Two lists -/

/-- What ranks below the first items is inserted behind them. -/
theorem orderedInsert_append {a : α} : ∀ {above : List α} (rest : List α), (∀ b ∈ above, rank a < rank b) →
    (above ++ rest).orderedInsert (Before rank) a = above ++ rest.orderedInsert (Before rank) a
  | [], _, _ => rfl
  | b :: above, rest, h => by
    have hb : ¬ Before rank a b := not_le.2 (h b List.mem_cons_self)
    rw [List.cons_append, List.orderedInsert_of_not_le _ _ hb,
      orderedInsert_append rest fun c hc => h c (List.mem_cons_of_mem _ hc), List.cons_append]

/-- Items that rank above all of another list, and above the rest of their own, come first. -/
theorem sort_append_above {xs above rest : List α} (hsorted : (above ++ rest).Pairwise (Before rank))
    (habove : ∀ a ∈ above, ∀ x ∈ xs, rank x < rank a) :
    sort rank (xs ++ (above ++ rest)) = above ++ sort rank (xs ++ rest) := by
  rw [sort_append xs, sort_append xs, sort_eq_self hsorted, sort_eq_self (List.pairwise_append.1 hsorted).2.1]
  induction xs with
  | nil => rfl
  | cons x xs ih =>
    rw [List.foldr_cons, List.foldr_cons, ih fun a ha y hy => habove a ha y (List.mem_cons_of_mem _ hy)]
    exact orderedInsert_append _ fun a ha => habove a ha x List.mem_cons_self

/-- An item of the second list stands before one of the first list only by a better rank. -/
theorem pairwise_sort_append (p : α → Prop) {xs ys : List α} (hxs : ∀ x ∈ xs, p x) (hys : ∀ y ∈ ys, ¬ p y) :
    (sort rank (xs ++ ys)).Pairwise fun a b => ¬ p a → p b → rank b < rank a := by
  rw [sort_append]
  induction xs with
  | nil =>
    refine List.pairwise_of_forall_mem_list fun a _ b hb _ hpb => ?_
    exact absurd hpb (hys b (mem_sort.1 hb))
  | cons x xs ih =>
    have hx := hxs x List.mem_cons_self
    specialize ih fun y hy => hxs y (List.mem_cons_of_mem _ hy)
    have hsorted : (sort rank (xs ++ ys)).Pairwise (Before rank) := pairwise_sort _
    rw [sort_append] at hsorted
    rw [List.foldr_cons]
    generalize xs.foldr (List.orderedInsert (Before rank)) (sort rank ys) = items at ih hsorted
    induction items with
    | nil => exact List.pairwise_singleton ..
    | cons b items ih' =>
      by_cases hxb : Before rank x b
      · rw [List.orderedInsert_cons_of_le _ _ hxb]
        exact List.pairwise_cons.2 ⟨fun c _ hnx => absurd hx hnx, ih⟩
      · rw [List.orderedInsert_of_not_le _ _ hxb]
        refine List.pairwise_cons.2 ⟨fun c hc => ?_, ih' ih.of_cons hsorted.of_cons⟩
        rcases (List.mem_orderedInsert _).1 hc with rfl | hc
        · exact fun _ _ => not_le.1 hxb
        · exact List.rel_of_pairwise_cons ih hc

end Aibot.Ranked
