/-
Listings from the greatest element down: what it takes to be among the first ones, and that thinning
out the rest leaves those alone. Lists in step, and parts of sorted lists.
-/
import Mathlib.Data.List.Forall2
import Mathlib.Order.Defs.LinearOrder
import Mathlib.Tactic

namespace Aibot

/-! ## The first elements -/

section Ranked

variable {α : Type*}

/-- In a strictly decreasing list an element is among the first `n` if fewer than `n` are greater. -/
theorem mem_take_iff_of_decreasing [LinearOrder α] {a : α} : ∀ {l : List α} {n : Nat}, l.Pairwise (· > ·) →
    (a ∈ l.take n ↔ a ∈ l ∧ (l.filter (a < ·)).length < n)
  | [], n, _ => by simp
  | b :: l, 0, _ => by simp
  | b :: l, n + 1, h => by
    obtain ⟨hb, hl⟩ := List.pairwise_cons.1 h
    rw [List.take_succ_cons, List.mem_cons, List.mem_cons, mem_take_iff_of_decreasing hl]
    by_cases hab : a = b
    · subst hab
      have hnone : (a :: l).filter (a < ·) = [] := by
        rw [List.filter_eq_nil_iff]
        rintro c hc
        rcases List.mem_cons.1 hc with rfl | hc
        · simp
        · simpa using (hb c hc).le
      simp [hnone]
    · constructor
      · rintro (h | ⟨ha, hn⟩)
        · exact absurd h hab
        · have : a < b := hb a ha
          simp only [this, decide_true, List.filter_cons_of_pos, List.length_cons]
          exact ⟨.inr ha, by omega⟩
      · rintro ⟨h | ha, hn⟩
        · exact absurd h hab
        · have : a < b := hb a ha
          simp only [this, decide_true, List.filter_cons_of_pos, List.length_cons] at hn
          exact .inr ⟨ha, by omega⟩

/-- What is greater than an element, in two such lists with the same greater elements. -/
theorem filter_lt_congr [LinearOrder α] {l m : List α} (hl : l.Pairwise (· > ·)) (hm : m.Pairwise (· > ·)) {a : α}
    (h : ∀ b, a < b → (b ∈ l ↔ b ∈ m)) : l.filter (a < ·) = m.filter (a < ·) := by
  apply List.Pairwise.eq_of_mem_iff (r := (· > ·)) (hl.sublist List.filter_sublist) (hm.sublist List.filter_sublist)
  intro b
  rw [List.mem_filter, List.mem_filter]
  constructor
  · rintro ⟨hb, hab⟩
    exact ⟨(h b (by simpa using hab)).1 hb, hab⟩
  · rintro ⟨hb, hab⟩
    exact ⟨(h b (by simpa using hab)).2 hb, hab⟩

theorem length_filter_lt_anti [LinearOrder α] (l : List α) {a b : α} (h : a ≤ b) :
    (l.filter (b < ·)).length ≤ (l.filter (a < ·)).length := by
  apply List.Sublist.length_le
  apply List.monotone_filter_right
  intro c hc
  simp only [decide_eq_true_eq] at hc ⊢
  exact lt_of_le_of_lt h hc

/-- An element that is not among the first `n` may come or go, and no other element's place among them
changes. -/
theorem first_congr [LinearOrder α] {l m : List α} (hl : l.Pairwise (· > ·)) (hm : m.Pairwise (· > ·)) {a : α}
    {n : Nat} (hout : n ≤ (l.filter (a < ·)).length) (h : ∀ b, b ≠ a → (b ∈ l ↔ b ∈ m)) (x : α) :
    (l.filter (x < ·)).length < n ↔ (m.filter (x < ·)).length < n := by
  have hsame : ∀ y, a ≤ y → l.filter (y < ·) = m.filter (y < ·) := fun y hy =>
    filter_lt_congr hl hm fun b hb => h b (ne_of_gt (lt_of_le_of_lt hy hb))
  rcases le_or_gt a x with hx | hx
  · rw [hsame x hx]
  · have hlx := length_filter_lt_anti l hx.le
    have hmx := length_filter_lt_anti m hx.le
    rw [← hsame a le_rfl] at hmx
    omega

end Ranked

/-! ## The order of texts -/

/-- Where the first parts have one length, the smaller first part makes the smaller text. -/
theorem append_lt_append {α : Type*} [LinearOrder α] : ∀ {x y : List α} (x' y' : List α), x.length = y.length →
    x < y → x ++ x' < y ++ y'
  | [], [], _, _, _, h => absurd h (lt_irrefl _)
  | a :: x, b :: y, x', y', hlength, h => by
    rw [List.cons_append, List.cons_append, List.cons_lt_cons_iff]
    rcases List.cons_lt_cons_iff.1 h with hab | ⟨rfl, hxy⟩
    · exact .inl hab
    · exact .inr ⟨rfl, append_lt_append x' y' (by simpa using hlength) hxy⟩

/-! ## Lists in step -/

section InStep

variable {α β γ : Type*} {R : α → β → Prop}

theorem exists_left_of_forall₂ : ∀ {l : List α} {m : List β}, List.Forall₂ R l m → ∀ {b}, b ∈ m → ∃ a ∈ l, R a b
  | _, _, .nil, _, hb => absurd hb List.not_mem_nil
  | _, _, .cons hR hrest, _, hb => by
    rcases List.mem_cons.1 hb with rfl | hb
    · exact ⟨_, List.mem_cons_self .., hR⟩
    · obtain ⟨a, ha, hab⟩ := exists_left_of_forall₂ hrest hb
      exact ⟨a, List.mem_cons_of_mem _ ha, hab⟩

theorem exists_right_of_forall₂ {l : List α} {m : List β} (h : List.Forall₂ R l m) {a : α} (ha : a ∈ l) :
    ∃ b ∈ m, R a b :=
  exists_left_of_forall₂ (R := flip R) (List.Forall₂.flip h) ha

/-- Lists in step: where what is taken of the second tells the first, the second has no repetition of it. -/
theorem nodup_map_of_forall₂ {f : β → γ} (hf : ∀ a a' b b', R a b → R a' b' → f b = f b' → a = a') {l : List α}
    {m : List β} (h : List.Forall₂ R l m) (hn : l.Nodup) : (m.map f).Nodup := by
  induction h with
  | nil => exact List.nodup_nil
  | cons hab hrest ih =>
    rw [List.nodup_cons] at hn
    rw [List.map_cons, List.nodup_cons]
    refine ⟨fun hmem => ?_, ih hn.2⟩
    obtain ⟨b', hb', heq⟩ := List.mem_map.1 hmem
    obtain ⟨a', ha', hab'⟩ := exists_left_of_forall₂ hrest hb'
    exact hn.1 (hf _ _ _ _ hab hab' heq.symm ▸ ha')

/-- What is chosen alike and named alike is listed alike. -/
theorem map_filter_of_forall₂ {f : α → γ} {g : β → γ} {p : α → Bool} {q : β → Bool}
    (hR : ∀ a b, R a b → f a = g b ∧ p a = q b) : ∀ {l : List α} {m : List β}, List.Forall₂ R l m →
      (l.filter p).map f = (m.filter q).map g
  | _, _, .nil => rfl
  | a :: l, b :: m, .cons hab hrest => by
    obtain ⟨hf, hp⟩ := hR a b hab
    rw [List.filter_cons, List.filter_cons, hp]
    split
    · rw [List.map_cons, List.map_cons, hf, map_filter_of_forall₂ hR hrest]
    · exact map_filter_of_forall₂ hR hrest

end InStep

/-! ## Sorted lists -/

/-- What a sort leaves of a part of a list depends on that part only, if no two of its elements are
equivalent. -/
theorem filter_mergeSort_congr {α : Type*} {le : α → α → Bool} {p : α → Bool} {l m : List α}
    (htrans : ∀ a b c, le a b = true → le b c = true → le a c = true)
    (htotal : ∀ a b, (le a b || le b a) = true) (hperm : (l.filter p).Perm (m.filter p))
    (hanti : ∀ a ∈ l.filter p, ∀ b ∈ l.filter p, le a b = true → le b a = true → a = b) :
    (l.mergeSort le).filter p = (m.mergeSort le).filter p := by
  have hl : ((l.mergeSort le).filter p).Perm (l.filter p) := (List.mergeSort_perm l le).filter p
  have hm : ((m.mergeSort le).filter p).Perm (m.filter p) := (List.mergeSort_perm m le).filter p
  apply @List.Perm.eq_of_pairwise _ fun a b => le a b = true
  · intro a b ha hb hab hba
    exact hanti a (hl.mem_iff.1 ha) b (hperm.mem_iff.2 (hm.mem_iff.1 hb)) hab hba
  · exact (List.pairwise_mergeSort htrans htotal l).filter _
  · exact (List.pairwise_mergeSort htrans htotal m).filter _
  · exact hl.trans (hperm.trans hm.symm)

/-- A sort of an order does not depend on the order of the list. -/
theorem mergeSort_eq_of_perm [LinearOrder α] {l l' : List α} (h : l.Perm l') :
    (l.mergeSort fun x y => decide (x ≤ y)) = l'.mergeSort fun x y => decide (x ≤ y) := by
  have hsorted : ∀ r : List α, (r.mergeSort fun x y => decide (x ≤ y)).Pairwise fun x y => x ≤ y := fun r =>
    (List.pairwise_mergeSort (fun x y z hxy hyz => decide_eq_true ((of_decide_eq_true hxy).trans (of_decide_eq_true hyz)))
      (fun x y => by simpa using le_total x y) r).imp of_decide_eq_true
  refine List.Perm.eq_of_pairwise (fun x y _ _ hxy hyx => le_antisymm hxy hyx) (hsorted l) (hsorted l') ?_
  exact (List.mergeSort_perm ..).trans (h.trans (List.mergeSort_perm ..).symm)

end Aibot
