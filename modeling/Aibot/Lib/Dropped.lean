/-
Where the elements stand that a list operation takes from the first few with a property, and what is
left when some of them were taken before.
-/
import Aibot.Lib.FirstMatch

namespace Aibot

variable {α β : Type*} {p q : α → Bool}

/-- An element is dropped that has both properties, and few enough before it. -/
theorem mem_droppedFirst_iff {y : α} : ∀ {n : Nat} {xs : List α}, y ∈ droppedFirst p q n xs ↔
    ∃ before after, xs = before ++ y :: after ∧ p y = true ∧ q y = true ∧ before.countP p < n
  | 0, xs => by simp [droppedFirst]
  | n + 1, [] => by simp [droppedFirst]
  | n + 1, x :: xs => by
    have hcons : ∀ {m : Nat}, (∃ before after, x :: xs = before ++ y :: after ∧ p y = true ∧ q y = true ∧
        before.countP p < m) ↔ (x = y ∧ p y = true ∧ q y = true ∧ 0 < m) ∨
          ∃ before after, xs = before ++ y :: after ∧ p y = true ∧ q y = true ∧ (x :: before).countP p < m := by
      intro m
      constructor
      · rintro ⟨_ | ⟨z, before⟩, after, heq, hp, hq, hm⟩
        · exact .inl ⟨(List.cons.inj heq).1, hp, hq, by simpa using hm⟩
        · obtain ⟨rfl, rfl⟩ := List.cons.inj heq
          exact .inr ⟨before, after, rfl, hp, hq, hm⟩
      · rintro (⟨rfl, hp, hq, hm⟩ | ⟨before, after, rfl, hp, hq, hm⟩)
        · exact ⟨[], xs, rfl, hp, hq, hm⟩
        · exact ⟨x :: before, after, rfl, hp, hq, hm⟩
    rw [hcons]
    unfold droppedFirst
    split_ifs with hx hqx
    · simp only [List.mem_cons, mem_droppedFirst_iff (n := n), List.countP_cons_of_pos hx, Nat.add_lt_add_iff_right]
      constructor
      · rintro (rfl | h)
        · exact .inl ⟨rfl, hx, hqx, Nat.succ_pos n⟩
        · exact .inr h
      · rintro (⟨rfl, -⟩ | h)
        · exact .inl rfl
        · exact .inr h
    · simp only [mem_droppedFirst_iff (n := n), List.countP_cons_of_pos hx, Nat.add_lt_add_iff_right]
      constructor
      · exact .inr
      · rintro (⟨rfl, -, hqy, -⟩ | h)
        · exact absurd hqy hqx
        · exact h
    · simp only [mem_droppedFirst_iff (n := n + 1), List.countP_cons_of_neg hx]
      constructor
      · exact .inr
      · rintro (⟨rfl, hpy, -⟩ | h)
        · exact absurd hpy hx
        · exact h

theorem length_droppedFirst_le : ∀ (n : Nat) (xs : List α), (droppedFirst p q n xs).length ≤ n
  | 0, xs => by simp [droppedFirst]
  | n + 1, [] => by simp [droppedFirst]
  | n + 1, x :: xs => by
    unfold droppedFirst
    split_ifs
    · simpa using length_droppedFirst_le n xs
    · exact (length_droppedFirst_le n xs).trans (Nat.le_succ n)
    · exact length_droppedFirst_le (n + 1) xs

/-- What is left when some of the elements that are dropped are already gone. -/
theorem dropFirst_filter (gone : α → Bool) : ∀ {n : Nat} {xs : List α}, xs.Nodup →
    (∀ x ∈ xs, gone x = true → x ∈ droppedFirst p q n xs) →
    dropFirst p q (n - (xs.filter gone).length) (xs.filter fun x => !gone x) = dropFirst p q n xs
  | 0, xs, _, h => by
    have hnone : ∀ x ∈ xs, (!gone x) = true := by
      intro x hx
      cases hg : gone x with
      | false => rfl
      | true => simpa [droppedFirst] using h x hx hg
    rw [Nat.zero_sub, List.filter_eq_self.2 hnone]
  | n + 1, [], _, _ => by simp [dropFirst]
  | n + 1, x :: xs, hn, h => by
    obtain ⟨hx, hn⟩ := List.nodup_cons.1 hn
    have hrest : ∀ {m : Nat}, (∀ y ∈ xs, y ∈ droppedFirst p q (n + 1) (x :: xs) → y ∈ droppedFirst p q m xs) →
        ∀ y ∈ xs, gone y = true → y ∈ droppedFirst p q m xs :=
      fun hm y hy hg => hm y hy (h y (List.mem_cons_of_mem _ hy) hg)
    have hself : ∀ y ∈ xs, y ≠ x := fun y hy he => hx (he ▸ hy)
    by_cases hpx : p x = true
    · have hkept : ∀ y ∈ xs, gone y = true → y ∈ droppedFirst p q n xs := by
        refine hrest fun y hy hmem => ?_
        unfold droppedFirst at hmem
        rw [if_pos hpx] at hmem
        split_ifs at hmem
        · exact (List.mem_cons.1 hmem).resolve_left (hself y hy)
        · exact hmem
      have ih := dropFirst_filter gone hn hkept
      -- those that are gone of the rest are dropped there, so they are few
      have hfew : (xs.filter gone).length ≤ n := by
        refine le_trans ?_ (length_droppedFirst_le (p := p) (q := q) n xs)
        refine (List.subperm_of_subset (hn.filter _) fun y hy => ?_).length_le
        exact hkept y (List.mem_filter.1 hy).1 (List.mem_filter.1 hy).2
      cases hg : gone x with
      | true =>
        have hqx : q x = true := (mem_droppedFirst (h x List.mem_cons_self hg)).2.2
        rw [List.filter_cons_of_pos hg, List.filter_cons_of_neg (by simp [hg]), List.length_cons,
          Nat.add_sub_add_right, ih]
        simp [dropFirst, hpx, hqx]
      | false =>
        rw [List.filter_cons_of_neg (by simp [hg]), List.filter_cons_of_pos (by simp [hg]), Nat.sub_add_comm hfew]
        by_cases hqx : q x = true <;> simp [dropFirst, hpx, hqx, ih]
    · have hgx : gone x = false := by
        by_contra hg
        exact hpx (mem_droppedFirst (h x List.mem_cons_self (by simpa using hg))).2.1
      have hkept : ∀ y ∈ xs, gone y = true → y ∈ droppedFirst p q (n + 1) xs := by
        refine hrest fun y hy hmem => ?_
        unfold droppedFirst at hmem
        rwa [if_neg hpx] at hmem
      have ih := dropFirst_filter gone hn hkept
      rw [List.filter_cons_of_neg (by simp [hgx]), List.filter_cons_of_pos (by simp [hgx])]
      cases hm : n + 1 - (xs.filter gone).length with
      | zero =>
        rw [hm] at ih
        simp [dropFirst, hpx, ← ih]
      | succ m =>
        rw [hm] at ih
        simp [dropFirst, hpx, ih]

/-- Dropping is filtering by a key. -/
theorem dropFirst_eq_filter_key [DecidableEq β] (key : α → β) : ∀ {n : Nat} {xs : List α}, (xs.map key).Nodup →
    dropFirst p q n xs = xs.filter fun x => decide (key x ∉ (droppedFirst p q n xs).map key)
  | 0, xs, _ => by simp [dropFirst, droppedFirst]
  | n + 1, [], _ => by simp [dropFirst]
  | n + 1, x :: xs, h => by
    obtain ⟨hx, hn⟩ := List.nodup_cons.1 (List.map_cons .. ▸ h)
    -- the key of the first element is none of the rest's
    have hnot : ∀ m, key x ∉ (droppedFirst p q m xs).map key := by
      intro m hmem
      obtain ⟨y, hy, he⟩ := List.mem_map.1 hmem
      exact hx (List.mem_map.2 ⟨y, (mem_droppedFirst hy).1, he⟩)
    have hrest : ∀ m, (xs.filter fun y => decide (key y ∉ key x :: (droppedFirst p q m xs).map key)) =
        xs.filter fun y => decide (key y ∉ (droppedFirst p q m xs).map key) := by
      intro m
      refine List.filter_congr fun y hy => ?_
      have hne : key y ≠ key x := fun he => hx (List.mem_map.2 ⟨y, hy, he⟩)
      simp [hne]
    unfold dropFirst droppedFirst
    split_ifs with hpx hqx
    · rw [List.map_cons, List.filter_cons_of_neg (by simp), hrest]
      exact dropFirst_eq_filter_key key hn
    · rw [List.filter_cons_of_pos (by simpa using hnot n), ← dropFirst_eq_filter_key key hn]
    · rw [List.filter_cons_of_pos (by simpa using hnot (n + 1)), ← dropFirst_eq_filter_key key hn]

/-- Changing the first few is a change of the elements with their keys. -/
theorem mapFirst_eq_map [DecidableEq β] (key : α → β) {f : α → α} : ∀ {n : Nat} {xs : List α},
    (xs.map key).Nodup → mapFirst p f n xs =
      xs.map fun x => if key x ∈ ((xs.filter p).take n).map key then f x else x
  | 0, xs, _ => by simp [mapFirst]
  | n + 1, [], _ => by simp [mapFirst]
  | n + 1, x :: xs, h => by
    obtain ⟨hx, hn⟩ := List.nodup_cons.1 (List.map_cons .. ▸ h)
    have hnot : ∀ m, key x ∉ ((xs.filter p).take m).map key := by
      intro m hmem
      obtain ⟨y, hy, he⟩ := List.mem_map.1 hmem
      exact hx (List.mem_map.2 ⟨y, List.mem_of_mem_filter (List.mem_of_mem_take hy), he⟩)
    unfold mapFirst
    split_ifs with hpx
    · rw [List.filter_cons_of_pos hpx, List.take_succ_cons, List.map_cons, List.map_cons,
        if_pos List.mem_cons_self, mapFirst_eq_map key hn]
      refine congrArg (List.cons (f x)) (List.map_congr_left fun y hy => ?_)
      have hne : key y ≠ key x := fun he => hx (List.mem_map.2 ⟨y, hy, he⟩)
      simp [hne]
    · rw [List.filter_cons_of_neg hpx, List.map_cons, if_neg (hnot (n + 1)), mapFirst_eq_map key hn]

/-- Changing the first few, seen through another function. -/
theorem map_mapFirst_of {f : α → α} {g : α → β} {p' : β → Bool} {f' : β → β} (hp : ∀ x, p' (g x) = p x)
    (hf : ∀ x, g (f x) = f' (g x)) : ∀ (n : Nat) (xs : List α),
    (mapFirst p f n xs).map g = mapFirst p' f' n (xs.map g)
  | 0, xs => by simp [mapFirst]
  | n + 1, [] => rfl
  | n + 1, x :: xs => by
    rw [List.map_cons]
    unfold mapFirst
    rw [hp]
    split_ifs
    · rw [List.map_cons, hf, map_mapFirst_of hp hf n xs]
    · rw [List.map_cons, map_mapFirst_of hp hf (n + 1) xs]

/-- How many are left with a property that the change takes away. -/
theorem countP_mapFirst {f : α → α} (hf : ∀ x, p (f x) = false) : ∀ (n : Nat) (xs : List α),
    (mapFirst p f n xs).countP p = xs.countP p - n
  | 0, xs => by simp [mapFirst]
  | n + 1, [] => by simp [mapFirst]
  | n + 1, x :: xs => by
    unfold mapFirst
    split_ifs with hpx
    · rw [List.countP_cons_of_neg (by simp [hf]), List.countP_cons_of_pos hpx, countP_mapFirst hf n xs]
      omega
    · rw [List.countP_cons_of_neg hpx, List.countP_cons_of_neg hpx, countP_mapFirst hf (n + 1) xs]

end Aibot
