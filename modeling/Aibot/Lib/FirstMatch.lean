/-
List operations on the first elements with a property: modify the first one, modify or drop the
first few, in the order of the list.
-/
import Mathlib.Tactic

namespace Aibot

variable {α β : Type*}

/-- Apply `f` to the first element with `p`. -/
def modifyFirst (p : α → Bool) (f : α → α) : List α → List α
  | [] => []
  | x :: xs => if p x then f x :: xs else x :: modifyFirst p f xs

/-- Apply `f` to the first `n` elements with `p`. -/
def mapFirst (p : α → Bool) (f : α → α) : Nat → List α → List α
  | 0, xs => xs
  | _, [] => []
  | n + 1, x :: xs => if p x then f x :: mapFirst p f n xs else x :: mapFirst p f (n + 1) xs

/-- Drop those with `q` among the first `n` elements with `p`. -/
def dropFirst (p q : α → Bool) : Nat → List α → List α
  | 0, xs => xs
  | _, [] => []
  | n + 1, x :: xs =>
    if p x then (if q x then dropFirst p q n xs else x :: dropFirst p q n xs)
    else x :: dropFirst p q (n + 1) xs

/-- The elements that `dropFirst` drops. -/
def droppedFirst (p q : α → Bool) : Nat → List α → List α
  | 0, _ => []
  | _, [] => []
  | n + 1, x :: xs =>
    if p x then (if q x then x :: droppedFirst p q n xs else droppedFirst p q n xs)
    else droppedFirst p q (n + 1) xs

/-! ## Elements -/

theorem mem_modifyFirst {p : α → Bool} {f : α → α} {y : α} : ∀ {xs : List α}, y ∈ modifyFirst p f xs →
    y ∈ xs ∨ ∃ x, xs.find? p = some x ∧ y = f x
  | [], h => by cases h
  | x :: xs, h => by
    unfold modifyFirst at h
    split_ifs at h with hp
    · rcases List.mem_cons.1 h with rfl | h
      · exact .inr ⟨x, List.find?_cons_of_pos hp, rfl⟩
      · exact .inl (List.mem_cons_of_mem _ h)
    · rcases List.mem_cons.1 h with rfl | h
      · exact .inl List.mem_cons_self
      · rcases mem_modifyFirst h with h | ⟨z, hz, rfl⟩
        · exact .inl (List.mem_cons_of_mem _ h)
        · exact .inr ⟨z, by rw [List.find?_cons_of_neg hp]; exact hz, rfl⟩

theorem mem_mapFirst {p : α → Bool} {f : α → α} {y : α} : ∀ {n : Nat} {xs : List α},
    y ∈ mapFirst p f n xs → y ∈ xs ∨ ∃ x ∈ xs, p x = true ∧ y = f x
  | 0, xs, h => .inl (by simpa [mapFirst] using h)
  | n + 1, [], h => by cases h
  | n + 1, x :: xs, h => by
    unfold mapFirst at h
    split_ifs at h with hp
    all_goals rcases List.mem_cons.1 h with rfl | h
    · exact .inr ⟨x, List.mem_cons_self, hp, rfl⟩
    · rcases mem_mapFirst h with h | ⟨z, hz, hpz, rfl⟩
      · exact .inl (List.mem_cons_of_mem _ h)
      · exact .inr ⟨z, List.mem_cons_of_mem _ hz, hpz, rfl⟩
    · exact .inl List.mem_cons_self
    · rcases mem_mapFirst h with h | ⟨z, hz, hpz, rfl⟩
      · exact .inl (List.mem_cons_of_mem _ h)
      · exact .inr ⟨z, List.mem_cons_of_mem _ hz, hpz, rfl⟩

/-- No element is lost by mapping. -/
theorem mapFirst_mem {p : α → Bool} {f : α → α} {y : α} : ∀ (n : Nat) {xs : List α}, y ∈ xs →
    y ∈ mapFirst p f n xs ∨ p y = true ∧ f y ∈ mapFirst p f n xs
  | 0, xs, h => .inl (by unfold mapFirst; exact h)
  | n + 1, x :: xs, h => by
    unfold mapFirst
    split_ifs with hp
    all_goals rcases List.mem_cons.1 h with rfl | h
    · exact .inr ⟨hp, List.mem_cons_self⟩
    · exact (mapFirst_mem n h).imp (List.mem_cons_of_mem _) fun h => ⟨h.1, List.mem_cons_of_mem _ h.2⟩
    · exact .inl List.mem_cons_self
    · exact (mapFirst_mem (n + 1) h).imp (List.mem_cons_of_mem _) fun h =>
        ⟨h.1, List.mem_cons_of_mem _ h.2⟩

theorem dropFirst_sublist {p q : α → Bool} : ∀ (n : Nat) (xs : List α), (dropFirst p q n xs).Sublist xs
  | 0, xs => by unfold dropFirst; exact List.Sublist.refl xs
  | n + 1, [] => List.Sublist.slnil
  | n + 1, x :: xs => by
    unfold dropFirst
    split_ifs with hp hq
    · exact (dropFirst_sublist n xs).cons x
    · exact (dropFirst_sublist n xs).cons_cons x
    · exact (dropFirst_sublist (n + 1) xs).cons_cons x

theorem map_dropFirst (f : α → β) (p q : β → Bool) : ∀ (n : Nat) (xs : List α),
    (dropFirst (fun x => p (f x)) (fun x => q (f x)) n xs).map f = dropFirst p q n (xs.map f)
  | 0, xs => by unfold dropFirst; rfl
  | n + 1, [] => rfl
  | n + 1, x :: xs => by
    rw [List.map_cons]
    unfold dropFirst
    split_ifs
    · exact map_dropFirst f p q n xs
    · rw [List.map_cons, map_dropFirst f p q n xs]
    · rw [List.map_cons, map_dropFirst f p q (n + 1) xs]

theorem mem_droppedFirst {p q : α → Bool} {y : α} : ∀ {n : Nat} {xs : List α},
    y ∈ droppedFirst p q n xs → y ∈ xs ∧ p y = true ∧ q y = true
  | 0, xs, h => by simp [droppedFirst] at h
  | n + 1, [], h => by cases h
  | n + 1, x :: xs, h => by
    unfold droppedFirst at h
    split_ifs at h with hp hq
    · rcases List.mem_cons.1 h with rfl | h
      · exact ⟨List.mem_cons_self, hp, hq⟩
      · obtain ⟨hy, hpy, hqy⟩ := mem_droppedFirst h
        exact ⟨List.mem_cons_of_mem _ hy, hpy, hqy⟩
    all_goals
      obtain ⟨hy, hpy, hqy⟩ := mem_droppedFirst h
      exact ⟨List.mem_cons_of_mem _ hy, hpy, hqy⟩

/-- An element is kept or dropped. -/
theorem mem_dropFirst_or {p q : α → Bool} {y : α} : ∀ (n : Nat) {xs : List α}, y ∈ xs →
    y ∈ dropFirst p q n xs ∨ y ∈ droppedFirst p q n xs
  | 0, xs, h => .inl (by unfold dropFirst; exact h)
  | n + 1, x :: xs, h => by
    unfold dropFirst droppedFirst
    split_ifs with hp hq
    all_goals rcases List.mem_cons.1 h with rfl | h
    · exact .inr List.mem_cons_self
    · exact (mem_dropFirst_or n h).imp id (List.mem_cons_of_mem _)
    · exact .inl List.mem_cons_self
    · exact (mem_dropFirst_or n h).imp (List.mem_cons_of_mem _) id
    · exact .inl List.mem_cons_self
    · exact (mem_dropFirst_or (n + 1) h).imp (List.mem_cons_of_mem _) id

/-- The kept and the dropped elements are all there are. -/
theorem dropFirst_perm {p q : α → Bool} : ∀ (n : Nat) (xs : List α),
    (dropFirst p q n xs ++ droppedFirst p q n xs).Perm xs
  | 0, xs => by simp [dropFirst, droppedFirst]
  | n + 1, [] => by simp [dropFirst, droppedFirst]
  | n + 1, x :: xs => by
    unfold dropFirst droppedFirst
    split_ifs
    · exact List.perm_middle.trans ((dropFirst_perm n xs).cons x)
    · exact (dropFirst_perm n xs).cons x
    · exact (dropFirst_perm (n + 1) xs).cons x

/-- A search that neither the changed element nor what it becomes can meet. -/
theorem find?_modifyFirst {p q : α → Bool} {f : α → α}
    (h : ∀ x, p x = true → q x = false ∧ q (f x) = false) :
    ∀ xs : List α, (modifyFirst p f xs).find? q = xs.find? q
  | [] => rfl
  | x :: xs => by
    unfold modifyFirst
    split_ifs with hp
    · obtain ⟨hx, hfx⟩ := h x hp
      simp [hx, hfx]
    · rw [List.find?_cons, List.find?_cons, find?_modifyFirst h xs]

/-! ## A key that the operations keep -/

section Key

variable (key : α → β) {p q : α → Bool} {f : α → α}

theorem map_modifyFirst (hf : ∀ x, p x = true → key (f x) = key x) : ∀ xs : List α,
    (modifyFirst p f xs).map key = xs.map key
  | [] => rfl
  | x :: xs => by
    unfold modifyFirst
    split_ifs with hp
    · simp [hf x hp]
    · simp [map_modifyFirst hf xs]

theorem map_mapFirst (hf : ∀ x, p x = true → key (f x) = key x) : ∀ (n : Nat) (xs : List α),
    (mapFirst p f n xs).map key = xs.map key
  | 0, xs => by simp [mapFirst]
  | n + 1, [] => rfl
  | n + 1, x :: xs => by
    unfold mapFirst
    split_ifs with hp
    · simp [hf x hp, map_mapFirst hf n xs]
    · simp [map_mapFirst hf (n + 1) xs]

theorem modifyFirst_eq_map (hp : ∀ x y, p x = true → p y = true → key x = key y) :
    ∀ {xs : List α}, (xs.map key).Nodup → modifyFirst p f xs = xs.map fun x => if p x then f x else x
  | [], _ => rfl
  | x :: xs, h => by
    rw [List.map_cons, List.nodup_cons] at h
    unfold modifyFirst
    rw [List.map_cons]
    split_ifs with hx
    · -- the keys are distinct, so no later element has `p`
      have hrest : (xs.map fun y => if p y then f y else y) = xs := by
        conv_rhs => rw [← List.map_id xs]
        refine List.map_congr_left fun y hy => ?_
        have hpy : ¬ p y = true := fun hpy => h.1 (List.mem_map.2 ⟨y, hy, hp y x hpy hx⟩)
        simp [hpy]
      rw [hrest]
    · rw [modifyFirst_eq_map hp h.2]

end Key

end Aibot
