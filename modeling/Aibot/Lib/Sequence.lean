/-
Passes over a list that may fail: one that succeeds has the result of each of its items, one that fails
fails at an item.
-/
import Mathlib.Data.List.Perm.Basic

namespace Aibot

/-! ## Results or nothing -/

section Option

variable {α β : Type*} {f : α → Option β}

/-- A sequence over a list that does not raise: each item has its result. -/
theorem forall₂_of_mapM : ∀ {items : List α} {results : List β},
    items.mapM f = some results → List.Forall₂ (fun a b => f a = some b) items results
  | [], results, h => by
    obtain rfl := Option.some.inj h
    exact .nil
  | a :: items, results, h => by
    rw [List.mapM_cons] at h
    obtain ⟨b, hb, h⟩ := Option.bind_eq_some_iff.1 h
    obtain ⟨rest, hrest, h⟩ := Option.bind_eq_some_iff.1 h
    obtain rfl := Option.some.inj h
    exact .cons hb (forall₂_of_mapM hrest)

/-- Every item of such a list has a result. -/
theorem exists_of_mem_mapM {items : List α} {results : List β}
    (h : items.mapM f = some results) {a : α} (ha : a ∈ items) : ∃ b ∈ results, f a = some b := by
  obtain ⟨i, hi, rfl⟩ := List.getElem_of_mem ha
  obtain ⟨hlength, hall⟩ := List.forall₂_iff_get.1 (forall₂_of_mapM h)
  exact ⟨results.get ⟨i, hlength ▸ hi⟩, List.get_mem .., hall i hi _⟩

/-- Every result of such a list has an item. -/
theorem exists_of_mem_results {items : List α} {results : List β}
    (h : items.mapM f = some results) {b : β} (hb : b ∈ results) : ∃ a ∈ items, f a = some b := by
  obtain ⟨i, hi, rfl⟩ := List.getElem_of_mem hb
  obtain ⟨hlength, hall⟩ := List.forall₂_iff_get.1 (forall₂_of_mapM h)
  exact ⟨items.get ⟨i, hlength ▸ hi⟩, List.get_mem .., hall i (hlength ▸ hi) hi⟩

/-- The result of an item stands where the item does. -/
theorem getElem?_of_mapM {items : List α} {results : List β}
    (h : items.mapM f = some results) {i : Nat} {a : α} (ha : items[i]? = some a) : results[i]? = f a := by
  obtain ⟨hi, rfl⟩ := List.getElem?_eq_some_iff.1 ha
  obtain ⟨hlength, hall⟩ := List.forall₂_iff_get.1 (forall₂_of_mapM h)
  rw [List.getElem?_eq_getElem (hlength ▸ hi)]
  exact (hall i hi (hlength ▸ hi)).symm

/-- A sequence depends on the function at its items only. -/
theorem mapM_congr_of_mem {g : α → Option β} : ∀ {items : List α}, (∀ a ∈ items, f a = g a) →
    items.mapM f = items.mapM g
  | [], _ => rfl
  | a :: items, h => by
    rw [List.mapM_cons, List.mapM_cons, h a List.mem_cons_self,
      mapM_congr_of_mem fun b hb => h b (List.mem_cons_of_mem _ hb)]

theorem mapM_isSome : ∀ {items : List α}, (items.mapM f).isSome = true ↔ ∀ a ∈ items, (f a).isSome = true
  | [] => by simp
  | a :: items => by
    have ih : (items.mapM f).isSome = true ↔ ∀ a ∈ items, (f a).isSome = true := mapM_isSome
    rw [List.mapM_cons, List.forall_mem_cons, ← ih]
    cases f a with
    | none => simp
    | some b => cases items.mapM f <;> simp

theorem mapM_eq_some {items : List α} {results : List β} (h : items.mapM f = some results) :
    items.map f = results.map some := by
  have hall := forall₂_of_mapM h
  clear h
  induction hall with
  | nil => rfl
  | cons hfirst _ ih => rw [List.map_cons, List.map_cons, hfirst, ih]

/-- The items of a pass that returns each item with its result. -/
theorem map_fst_of_mapM {items : List α} {results : List (α × β)}
    (h : items.mapM (fun a => (f a).map fun b => (a, b)) = some results) : results.map Prod.fst = items := by
  have hall := forall₂_of_mapM h
  clear h
  induction hall with
  | nil => rfl
  | cons hfirst _ ih =>
    obtain ⟨b, -, rfl⟩ := Option.map_eq_some_iff.1 hfirst
    rw [List.map_cons, ih]

end Option

/-! ## Results or errors -/

section Except

variable {ε α β : Type} {f : α → Except ε β}

/-- A pass over a list succeeds with the results of its items. -/
theorem mapM_ok_iff : ∀ {items : List α} {results : List β},
    items.mapM f = .ok results ↔ List.Forall₂ (fun a b => f a = .ok b) items results
  | [], results => by
    constructor
    · intro h
      obtain rfl : [] = results := Except.ok.inj h
      exact .nil
    · intro h
      cases h
      rfl
  | a :: items, results => by
    rw [List.mapM_cons]
    constructor
    · intro h
      cases ha : f a with
      | error e => rw [ha] at h; cases h
      | ok b =>
        rw [ha] at h
        cases hrest : items.mapM f with
        | error e => rw [hrest] at h; cases h
        | ok rest =>
          rw [hrest] at h
          obtain rfl : b :: rest = results := Except.ok.inj h
          exact .cons ha (mapM_ok_iff.1 hrest)
    · rintro (_ | ⟨ha, hrest⟩)
      rw [ha, mapM_ok_iff.2 hrest]
      rfl

/-- A pass over the items in another order has its results in another order. -/
theorem mapM_perm {items items' : List α} {results : List β} (h : items.Perm items')
    (hresults : items.mapM f = .ok results) : ∃ results', items'.mapM f = .ok results' ∧ results.Perm results' := by
  rw [mapM_ok_iff] at hresults
  obtain ⟨results', hall, hperm⟩ := List.perm_comp_forall₂ h.symm hresults
  exact ⟨results', mapM_ok_iff.2 hall, hperm.symm⟩

/-- A pass succeeds where every item does. -/
theorem exists_mapM_ok {items : List α} (h : ∀ a ∈ items, ∃ b, f a = .ok b) :
    ∃ results, items.mapM f = .ok results := by
  induction items with
  | nil => exact ⟨[], rfl⟩
  | cons a items ih =>
    obtain ⟨b, hb⟩ := h a (List.mem_cons_self ..)
    obtain ⟨rest, hrest⟩ := ih fun a ha => h a (List.mem_cons_of_mem _ ha)
    exact ⟨b :: rest, mapM_ok_iff.2 (.cons hb (mapM_ok_iff.1 hrest))⟩

/-- A pass fails at one of its items. -/
theorem exists_of_mapM_error {e : ε} : ∀ {items : List α}, items.mapM f = .error e → ∃ a ∈ items, f a = .error e
  | [], h => by cases h
  | a :: items, h => by
    rw [List.mapM_cons] at h
    cases ha : f a with
    | error e' =>
      rw [ha] at h
      obtain rfl : e' = e := Except.error.inj h
      exact ⟨a, List.mem_cons_self .., ha⟩
    | ok b =>
      rw [ha] at h
      cases hrest : items.mapM f with
      | error e' =>
        rw [hrest] at h
        obtain rfl : e' = e := Except.error.inj h
        obtain ⟨a', ha', he⟩ := exists_of_mapM_error hrest
        exact ⟨a', List.mem_cons_of_mem _ ha', he⟩
      | ok rest => rw [hrest] at h; cases h

end Except

end Aibot
