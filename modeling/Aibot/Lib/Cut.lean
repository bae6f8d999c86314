/-
Sorting by a key and cutting what is sorted: where a cut stands so that no key is on both sides of it,
and when the items behind a cut do not depend on the order in which they came.
-/
import Aibot.Lib.Ranked

namespace Aibot.Cut

open OrderDual (toDual)

variable {α ρ : Type*} [LinearOrder ρ] (key : α → ρ)

/-- `sorted(items, key=key)`. -/
def sort (items : List α) : List α := Ranked.sort (fun a => toDual (key a)) items

/-- Every item of the first list is below every item of the second one. -/
def Apart (xs ys : List α) : Prop := ∀ x ∈ xs, ∀ y ∈ ys, key x < key y

/-- The cut moves down while the items on its two sides have one key. -/
def untie (items : List α) : Nat → Nat
  | 0 => 0
  | cut + 1 => if items[cut]?.map key = items[cut + 1]?.map key then untie items cut else cut + 1

/-- The last items of the sorted list. -/
def last (n : Nat) (items : List α) : List α := (sort key items).drop (items.length - n)

variable {key}

/-! ## The sorted list -/

theorem sort_perm (items : List α) : (sort key items).Perm items := Ranked.sort_perm items

theorem mem_sort {items : List α} {a : α} : a ∈ sort key items ↔ a ∈ items := (sort_perm items).mem_iff

theorem length_sort (items : List α) : (sort key items).length = items.length := (sort_perm items).length_eq

variable (key) in
theorem ascending_sort (items : List α) : (sort key items).Pairwise fun a b => key a ≤ key b := by
  show (Ranked.sort (fun a => toDual (key a)) items).Pairwise (Ranked.Before fun a => toDual (key a))
  exact Ranked.pairwise_sort items

theorem sort_eq_self {items : List α} (h : items.Pairwise fun a b => key a ≤ key b) : sort key items = items := by
  have hbefore : items.Pairwise (Ranked.Before fun a => toDual (key a)) := h
  exact Ranked.sort_eq_self hbefore

theorem filter_sort (p : α → Bool) (items : List α) : (sort key items).filter p = sort key (items.filter p) :=
  Ranked.filter_sort p items

/-- Sorting depends on the keys alone. -/
theorem map_sort {β : Type*} {key' : β → ρ} {f : α → β} (h : ∀ a, key' (f a) = key a) (items : List α) :
    (sort key items).map f = sort key' (items.map f) := by
  refine List.map_insertionSort _ _ f items fun a _ b _ => ?_
  show toDual (key b) ≤ toDual (key a) ↔ toDual (key' (f b)) ≤ toDual (key' (f a))
  rw [h, h]

/-- Items of one key stand as they came. -/
theorem sort_of_forall_key {items : List α} {c : ρ} (h : ∀ a ∈ items, key a = c) : sort key items = items := by
  apply sort_eq_self
  refine List.pairwise_of_forall_mem_list fun a ha b hb => ?_
  rw [h a ha, h b hb]

/-- The keys of the sorted list do not depend on the order of the items. -/
theorem keys_of_perm {items items' : List α} (h : items.Perm items') :
    (sort key items).map key = (sort key items').map key := by
  have hsorted : ∀ l : List α, ((sort key l).map key).Pairwise (· ≤ ·) := fun l =>
    List.pairwise_map.2 (ascending_sort key l)
  refine List.Perm.eq_of_pairwise' (hsorted items) (hsorted items') (List.Perm.map key ?_)
  exact (sort_perm items).trans (h.trans (sort_perm items').symm)

/-! ## Cuts between keys -/

section Cuts

variable {items : List α} (h : items.Pairwise fun a b => key a ≤ key b)

include h

/-- A cut between two keys. -/
theorem apart_of_lt {cut : Nat} {a b : α} (ha : items[cut]? = some a) (hb : items[cut + 1]? = some b)
    (hlt : key a < key b) : Apart key (items.take (cut + 1)) (items.drop (cut + 1)) := by
  obtain ⟨hcut, rfl⟩ := List.getElem?_eq_some_iff.1 ha
  obtain ⟨hnext, rfl⟩ := List.getElem?_eq_some_iff.1 hb
  have hsorted := List.pairwise_iff_getElem.1 h
  intro x hx y hy
  obtain ⟨i, hi, rfl⟩ := List.mem_take_iff_getElem.1 hx
  obtain ⟨j, hj, rfl⟩ := List.mem_drop_iff_getElem.1 hy
  have hbelow : key items[i] ≤ key items[cut] := by
    rcases (by omega : i = cut ∨ i < cut) with rfl | hi
    · exact le_rfl
    · exact hsorted i cut _ hcut hi
  have habove : key items[cut + 1] ≤ key items[cut + 1 + j] := by
    rcases (by omega : j = 0 ∨ 0 < j) with rfl | hj
    · exact le_rfl
    · exact hsorted (cut + 1) (cut + 1 + j) hnext _ (by omega)
  exact lt_of_le_of_lt hbelow (lt_of_lt_of_le hlt habove)

/-- No key is on both sides of a cut that was moved. -/
theorem apart_untie : ∀ {cut : Nat}, cut < items.length →
    Apart key (items.take (untie key items cut)) (items.drop (untie key items cut))
  | 0, _ => by
    intro x hx
    cases hx
  | cut + 1, hcut => by
    unfold untie
    split_ifs with htie
    · exact apart_untie (by omega)
    · have ha := List.getElem?_eq_getElem (by omega : cut < items.length)
      have hb := List.getElem?_eq_getElem hcut
      rw [ha, hb, Option.map_some, Option.map_some, Option.some.injEq] at htie
      have hle := List.pairwise_iff_getElem.1 h cut (cut + 1) (by omega) hcut (by omega)
      exact apart_of_lt h ha hb (lt_of_le_of_ne hle htie)

end Cuts

variable (key) in
theorem untie_le (items : List α) : ∀ cut, untie key items cut ≤ cut
  | 0 => le_rfl
  | cut + 1 => by
    unfold untie
    split_ifs
    · exact (untie_le items cut).trans (Nat.le_succ cut)
    · exact le_rfl

/-- It is moved no further than it must. -/
theorem le_untie {items : List α} {k : Nat} (hk : Apart key (items.take k) (items.drop k)) :
    ∀ {cut : Nat}, cut < items.length → k ≤ cut → k ≤ untie key items cut
  | 0, _, hle => hle
  | cut + 1, hcut, hle => by
    unfold untie
    split_ifs with htie
    · refine le_untie hk (by omega) ?_
      -- the cut itself is between two items of one key
      by_contra hgt
      obtain rfl : k = cut + 1 := by omega
      rw [List.getElem?_eq_getElem (by omega), List.getElem?_eq_getElem hcut, Option.map_some, Option.map_some,
        Option.some.injEq] at htie
      have hlt := hk items[cut] (List.mem_take_iff_getElem.2 ⟨cut, by omega, rfl⟩) items[cut + 1]
        (List.mem_drop_iff_getElem.2 ⟨0, by omega, rfl⟩)
      exact absurd htie hlt.ne
    · exact hle

/-- Two lists that no key is in both of are a cut of their sorted union. -/
theorem apart_sort {xs ys items : List α} (hperm : (xs ++ ys).Perm items) (h : Apart key xs ys) :
    Apart key ((sort key items).take xs.length) ((sort key items).drop xs.length) := by
  have hunion : (sort key (sort key xs ++ sort key ys)).map key = (sort key items).map key :=
    keys_of_perm (((sort_perm xs).append (sort_perm ys)).trans hperm)
  have hsorted : sort key (sort key xs ++ sort key ys) = sort key xs ++ sort key ys := by
    refine sort_eq_self (List.pairwise_append.2 ⟨ascending_sort key xs, ascending_sort key ys, fun x hx y hy => ?_⟩)
    exact (h x (mem_sort.1 hx) y (mem_sort.1 hy)).le
  rw [hsorted, List.map_append] at hunion
  have hlength : ((sort key xs).map key).length = xs.length := by rw [List.length_map, length_sort]
  have hlow : ((sort key items).take xs.length).map key = (sort key xs).map key := by
    rw [List.map_take, ← hunion, ← hlength, List.take_left']
    rfl
  have hhigh : ((sort key items).drop xs.length).map key = (sort key ys).map key := by
    rw [List.map_drop, ← hunion, ← hlength, List.drop_left']
    rfl
  intro x hx y hy
  have hx' := List.mem_map_of_mem (f := key) hx
  have hy' := List.mem_map_of_mem (f := key) hy
  rw [hlow] at hx'
  rw [hhigh] at hy'
  obtain ⟨a, ha, hxa⟩ := List.mem_map.1 hx'
  obtain ⟨b, hb, hyb⟩ := List.mem_map.1 hy'
  rw [← hxa, ← hyb]
  exact h a (mem_sort.1 ha) b (mem_sort.1 hb)

/-! ## The last items -/

variable (key) in
/-- A sorted list is what a downward closed predicate holds of, and then the rest. -/
theorem filter_append_filter (p : α → Bool) (hp : ∀ a b, key a ≤ key b → p b = true → p a = true) :
    ∀ {items : List α}, items.Pairwise (fun a b => key a ≤ key b) →
      items.filter p ++ items.filter (fun a => !p a) = items
  | [], _ => rfl
  | a :: items, h => by
    obtain ⟨ha, hrest⟩ := List.pairwise_cons.1 h
    cases hpa : p a with
    | true => simp [hpa, filter_append_filter p hp hrest]
    | false =>
      have hnone : ∀ b ∈ items, p b = false := by
        intro b hb
        by_contra hpb
        rw [hp a b (ha b hb) (by simpa using hpb)] at hpa
        cases hpa
      have hempty : items.filter p = [] := List.filter_eq_nil_iff.2 fun b hb => by simp [hnone b hb]
      have hall : items.filter (fun b => !p b) = items := List.filter_eq_self.2 fun b hb => by simp [hnone b hb]
      simp [hpa, hempty, hall]

variable (key) in
/-- The items below a key, those of the key as they came, and those above it. -/
theorem sort_eq_parts (items : List α) (c : ρ) :
    sort key items = sort key (items.filter fun a => key a < c) ++
      (items.filter (fun a => key a = c) ++ sort key (items.filter fun a => c < key a)) := by
  have hbelow := filter_append_filter key (fun a => key a < c)
      (fun a b hab hb => by simpa using lt_of_le_of_lt hab (by simpa using hb)) (ascending_sort key items)
  have hlevel := filter_append_filter key (fun a => key a ≤ c)
      (fun a b hab hb => by simpa using hab.trans (by simpa using hb))
    (ascending_sort key (items.filter fun a => !decide (key a < c)))
  have hmiddle : (items.filter fun a => !decide (key a < c)).filter (fun a => key a ≤ c) =
      items.filter fun a => key a = c := by
    rw [List.filter_filter]
    refine List.filter_congr fun a _ => ?_
    rcases lt_trichotomy (key a) c with hlt | heq | hgt
    · simp [hlt, hlt.ne]
    · simp [heq]
    · simp [hgt.ne', hgt.not_ge]
  have hrest : (items.filter fun a => !decide (key a < c)).filter (fun a => !decide (key a ≤ c)) =
      items.filter fun a => c < key a := by
    rw [List.filter_filter]
    refine List.filter_congr fun a _ => ?_
    by_cases hgt : c < key a
    · simp [hgt, hgt.le]
    · simp [hgt, not_lt.1 hgt]
  rw [filter_sort, filter_sort, hmiddle, hrest] at hlevel
  rw [filter_sort, filter_sort, ← hlevel] at hbelow
  have hkey : ∀ a ∈ items.filter (fun a => key a = c), key a = c := fun a ha => by
    simpa using (List.mem_filter.1 ha).2
  rw [← hbelow, sort_of_forall_key hkey]

/-- Different items of one key are all among the last ones, or none of them is. -/
def Whole (key : α → ρ) (n : Nat) (items : List α) : Prop :=
  ∀ x ∈ items, ∀ y ∈ items, key x = key y → x ≠ y →
    n ≤ items.countP (fun a => key x < key a) ∨ items.countP (fun a => key x ≤ key a) ≤ n

theorem Whole.perm {n : Nat} {items items' : List α} (hwhole : Whole key n items) (h : items'.Perm items) :
    Whole key n items' := by
  intro x hx y hy hkey hne
  rw [h.countP_eq, h.countP_eq]
  exact hwhole x (h.mem_iff.1 hx) y (h.mem_iff.1 hy) hkey hne

variable (key) in
theorem countP_level (items : List α) (c : ρ) : items.countP (fun a => c ≤ key a) =
    (items.filter fun a => key a = c).length + items.countP fun a => c < key a := by
  rw [← List.countP_eq_length_filter]
  induction items with
  | nil => rfl
  | cons a items ih =>
    rw [List.countP_cons, List.countP_cons, List.countP_cons, ih]
    rcases lt_trichotomy (key a) c with hlt | heq | hgt
    · simp [hlt.ne, hlt.not_gt, hlt.not_ge]
    · simp [heq]
      omega
    · simp [hgt.ne', hgt, hgt.le]
      omega

/-- The last items, where the cut is at the items of a key. -/
theorem last_eq {n : Nat} {items : List α} {c : ρ} (habove : items.countP (fun a => c < key a) ≤ n)
    (hlevel : n ≤ items.countP fun a => c ≤ key a) :
    last key n items = (items.filter fun a => key a = c).drop (items.countP (fun a => c ≤ key a) - n) ++
      sort key (items.filter fun a => c < key a) := by
  have hcount := countP_level key items c
  have hlength := congrArg List.length (sort_eq_parts key items c)
  rw [List.length_append, List.length_append, length_sort, length_sort, length_sort,
    ← List.countP_eq_length_filter (p := fun a => decide (c < key a))] at hlength
  have hcut : items.length - n = (sort key (items.filter fun a => key a < c)).length +
      (items.countP (fun a => c ≤ key a) - n) := by
    rw [length_sort]
    omega
  unfold last
  rw [sort_eq_parts key items c, hcut, List.drop_length_add_append, List.drop_append_of_le_length]
  omega

variable (key) in
/-- There is a key whose items the cut is at. -/
theorem exists_level {n : Nat} {items : List α} (hpos : 0 < n) (hn : n < items.length) :
    ∃ c, items.countP (fun a => c < key a) < n ∧ n ≤ items.countP fun a => c ≤ key a := by
  have hsorted := List.pairwise_iff_getElem.1 (ascending_sort key items)
  have hsort : (sort key items).Perm items := sort_perm items
  have hlength := hsort.length_eq
  obtain ⟨cut, hsum⟩ : ∃ cut, cut + n = items.length := ⟨items.length - n, by omega⟩
  have hcut : cut < (sort key items).length := by omega
  have hlow : ∀ a ∈ (sort key items).take (cut + 1), key a ≤ key (sort key items)[cut] := by
    intro a ha
    obtain ⟨i, hi, rfl⟩ := List.mem_take_iff_getElem.1 ha
    rcases (by omega : i = cut ∨ i < cut) with rfl | hi
    · exact le_rfl
    · exact hsorted i cut _ hcut hi
  have hhigh : ∀ a ∈ (sort key items).drop cut, key (sort key items)[cut] ≤ key a := by
    intro a ha
    obtain ⟨j, hj, rfl⟩ := List.mem_drop_iff_getElem.1 ha
    rcases (by omega : j = 0 ∨ 0 < j) with rfl | hj
    · exact le_rfl
    · exact hsorted cut (cut + j) hcut _ (by omega)
  generalize key (sort key items)[cut] = c at hlow hhigh
  refine ⟨c, ?_, ?_⟩
  · have hzero : ((sort key items).take (cut + 1)).countP (fun a => c < key a) = 0 :=
      List.countP_eq_zero.2 fun a ha => by simpa using hlow a ha
    have hle := List.countP_le_length (p := fun a => decide (c < key a)) (l := (sort key items).drop (cut + 1))
    rw [List.length_drop] at hle
    rw [← hsort.countP_eq, ← List.take_append_drop (cut + 1) (sort key items), List.countP_append]
    omega
  · have hall : ((sort key items).drop cut).countP (fun a => c ≤ key a) = ((sort key items).drop cut).length :=
      List.countP_eq_length.2 fun a ha => by simpa using hhigh a ha
    rw [List.length_drop] at hall
    rw [← hsort.countP_eq, ← List.take_append_drop cut (sort key items), List.countP_append]
    omega

/-- Items that stand whole on one side of the cut may come in any order. -/
theorem last_perm {n : Nat} {items items' : List α} (hwhole : Whole key n items) (h : items'.Perm items) :
    (last key n items').Perm (last key n items) := by
  have hlength := h.length_eq
  by_cases hzero : n = 0
  · have hnil : ∀ l : List α, last key n l = [] := fun l => by
      refine List.drop_eq_nil_of_le ?_
      rw [length_sort]
      omega
    rw [hnil, hnil]
  by_cases hall : items.length ≤ n
  · unfold last
    rw [hlength, Nat.sub_eq_zero_of_le hall, List.drop_zero, List.drop_zero]
    exact (sort_perm items').trans (h.trans (sort_perm items).symm)
  obtain ⟨c, habove, hlevel⟩ := exists_level key (Nat.pos_of_ne_zero hzero) (not_le.1 hall)
  have hrest : (sort key (items'.filter fun a => c < key a)).Perm (sort key (items.filter fun a => c < key a)) :=
    (sort_perm _).trans ((h.filter _).trans (sort_perm _).symm)
  have hlevels := h.filter fun a => key a = c
  rw [last_eq habove.le hlevel,
    last_eq ((h.countP_eq _).le.trans habove.le) (hlevel.trans (h.countP_eq _).ge), h.countP_eq]
  rcases hlevel.eq_or_lt with heq | hlt
  · rw [← heq, Nat.sub_self, List.drop_zero, List.drop_zero]
    exact hlevels.append hrest
  · -- the cut is inside the level, so its items are all the same
    have hsame : ∀ x ∈ items.filter (fun a => key a = c), ∀ y ∈ items.filter (fun a => key a = c), x = y := by
      intro x hx y hy
      obtain ⟨hx, hxc⟩ := List.mem_filter.1 hx
      obtain ⟨hy, hyc⟩ := List.mem_filter.1 hy
      have hxc : key x = c := by simpa using hxc
      have hyc : key y = c := by simpa using hyc
      by_contra hne
      rcases hwhole x hx y hy (hxc.trans hyc.symm) hne with hin | hout
      · rw [hxc] at hin
        omega
      · rw [hxc] at hout
        omega
    have hany : ∀ l : List α, l.Pairwise fun _ _ => True := fun l => List.pairwise_of_forall fun _ _ => trivial
    have hlevel' : items'.filter (fun a => key a = c) = items.filter fun a => key a = c :=
      hlevels.eq_of_pairwise (fun x y hx hy _ _ => hsame x (hlevels.mem_iff.1 hx) y hy) (hany _) (hany _)
    rw [hlevel']
    exact (List.Perm.refl _).append hrest

/-- The last items of a list that begins with the items below a key and those of the key. -/
theorem last_append {n : Nat} {below level above : List α} {c : ρ} (hbelow : ∀ a ∈ below, key a < c)
    (hlevel : ∀ a ∈ level, key a = c) (habove : ∀ a ∈ above, c < key a) (hn : above.length ≤ n)
    (hn' : n ≤ level.length + above.length) :
    last key n (below ++ (level ++ above)) = level.drop (level.length + above.length - n) ++ sort key above := by
  have hmiddle : (below ++ (level ++ above)).filter (fun a => key a = c) = level := by
    rw [List.filter_append, List.filter_append,
      List.filter_eq_nil_iff.2 fun a ha => by simpa using (hbelow a ha).ne,
      List.filter_eq_self.2 fun a ha => by simpa using hlevel a ha,
      List.filter_eq_nil_iff.2 fun a ha => by simpa using (habove a ha).ne', List.append_nil, List.nil_append]
  have hhigh : (below ++ (level ++ above)).filter (fun a => c < key a) = above := by
    rw [List.filter_append, List.filter_append,
      List.filter_eq_nil_iff.2 fun a ha => by simpa using (hbelow a ha).le,
      List.filter_eq_nil_iff.2 fun a ha => by simp [hlevel a ha],
      List.filter_eq_self.2 fun a ha => by simpa using habove a ha, List.nil_append, List.nil_append]
  have hcount : (below ++ (level ++ above)).countP (fun a => c < key a) = above.length := by
    rw [List.countP_eq_length_filter, hhigh]
  have hcount' : (below ++ (level ++ above)).countP (fun a => c ≤ key a) = level.length + above.length := by
    rw [countP_level, hmiddle, hcount]
  rw [last_eq (by omega) (by omega : n ≤ (below ++ (level ++ above)).countP fun a => c ≤ key a), hmiddle, hhigh,
    hcount']

/-- Two items of a level that the cut goes through may be exchanged. -/
theorem whole_of_last_perm {n : Nat} {items : List α}
    (h : ∀ items', items'.Perm items → (last key n items').Perm (last key n items)) : Whole key n items := by
  classical
  intro x hx y hy hkey hne
  by_contra hcut
  obtain ⟨habove, hall⟩ := not_or.1 hcut
  rw [countP_level, List.countP_eq_length_filter] at hall
  rw [List.countP_eq_length_filter] at habove
  have hparts : (items.filter (fun a => key a < key x) ++
      (items.filter (fun a => key a = key x) ++ items.filter fun a => key x < key a)).Perm items := by
    have hsort : (sort key items).Perm items := sort_perm items
    rw [sort_eq_parts key items (key x)] at hsort
    exact ((sort_perm _).append ((List.Perm.refl _).append (sort_perm _))).symm.trans hsort
  have hmem : x ∈ items.filter fun a => key a = key x := List.mem_filter.2 ⟨hx, by simp⟩
  have hmem' : y ∈ (items.filter fun a => key a = key x).erase x :=
    (List.mem_erase_of_ne hne.symm).2 (List.mem_filter.2 ⟨hy, by simp [hkey]⟩)
  have hlevel := (List.perm_cons_erase hmem).trans ((List.perm_cons_erase hmem').cons x)
  have hbelow : ∀ a ∈ items.filter (fun a => key a < key x), key a < key x := fun a ha => by
    simpa using (List.mem_filter.1 ha).2
  have hhigh : ∀ a ∈ items.filter (fun a => key x < key a), key x < key a := fun a ha => by
    simpa using (List.mem_filter.1 ha).2
  have hkeys : ∀ a ∈ items.filter (fun a => key a = key x), key a = key x := fun a ha => by
    simpa using (List.mem_filter.1 ha).2
  generalize items.filter (fun a => key a < key x) = below at hparts hbelow
  generalize items.filter (fun a => key x < key a) = above at hparts habove hall hhigh
  generalize ((items.filter fun a => key a = key x).erase x).erase y = rest at hlevel
  generalize items.filter (fun a => key a = key x) = level at hparts hall hlevel hkeys
  have hlength := hlevel.length_eq
  rw [List.length_cons, List.length_cons] at hlength
  obtain ⟨i, hi⟩ : ∃ i, level.length + above.length - n = i + 1 := ⟨level.length + above.length - n - 1, by omega⟩
  have hile : i ≤ rest.length := by omega
  -- the cut is before the second of the two items in both of the orders
  have hdrop : ∀ a b, level.Perm (a :: b :: rest) → (b :: (rest.drop i ++ sort key above)).Perm (last key n items) := by
    intro a b hab
    have harranged : (rest.take i ++ a :: b :: rest.drop i).Perm level := by
      refine List.Perm.trans ?_ hab.symm
      refine List.perm_middle.trans ((List.perm_middle.trans ?_).cons a)
      rw [List.take_append_drop]
    have hnew : (below ++ ((rest.take i ++ a :: b :: rest.drop i) ++ above)).Perm items :=
      ((harranged.append_right above).append_left below).trans hparts
    have hlast := h _ hnew
    have hsize := harranged.length_eq
    rw [last_append hbelow (fun d hd => hkeys d (harranged.mem_iff.1 hd)) hhigh (by omega) (by omega), hsize, hi,
      show i + 1 = (rest.take i).length + 1 by rw [List.length_take, Nat.min_eq_left hile],
      List.drop_length_add_append] at hlast
    exact hlast
  have hswap := (hdrop x y hlevel).trans (hdrop y x (hlevel.trans (List.Perm.swap ..))).symm
  have hsingle : [y].Perm [x] := (List.perm_append_right_iff (rest.drop i ++ sort key above)).1 hswap
  exact hne (List.singleton_perm_singleton.1 hsingle).symm

theorem last_perm_iff {n : Nat} {items : List α} :
    (∀ items', items'.Perm items → (last key n items').Perm (last key n items)) ↔ Whole key n items :=
  ⟨whole_of_last_perm, fun h _ => last_perm h⟩

/-- A level that is whole among the last items stands there as it came. -/
theorem filter_last {n : Nat} {items : List α} {c : ρ} (h : items.countP (fun a => c ≤ key a) ≤ n) :
    (last key n items).filter (fun a => key a = c) = items.filter fun a => key a = c := by
  have hparts := sort_eq_parts key items c
  have hlength := congrArg List.length hparts
  have hcount := countP_level key items c
  rw [List.length_append, List.length_append, length_sort, length_sort, length_sort,
    ← List.countP_eq_length_filter (p := fun a => decide (c < key a))] at hlength
  have hcut : items.length - n ≤ (sort key (items.filter fun a => key a < c)).length := by
    rw [length_sort]
    omega
  have hbelow : ((sort key (items.filter fun a => key a < c)).drop (items.length - n)).filter
      (fun a => key a = c) = [] := by
    refine List.filter_eq_nil_iff.2 fun a ha => ?_
    simpa using (of_decide_eq_true (List.mem_filter.1 (mem_sort.1 (List.mem_of_mem_drop ha))).2).ne
  have habove : (sort key (items.filter fun a => c < key a)).filter (fun a => key a = c) = [] := by
    refine List.filter_eq_nil_iff.2 fun a ha => ?_
    simpa using (of_decide_eq_true (List.mem_filter.1 (mem_sort.1 ha)).2).ne'
  have hlevel : (items.filter fun a => key a = c).filter (fun a => key a = c) = items.filter fun a => key a = c :=
    List.filter_eq_self.2 fun a ha => (List.mem_filter.1 ha).2
  unfold last
  rw [hparts, List.drop_append_of_le_length hcut, List.filter_append, List.filter_append, hbelow, hlevel, habove,
    List.nil_append, List.append_nil]

/-- Fewer than so many items are above one of the last ones. -/
theorem mem_last {n : Nat} {items : List α} {a : α} (ha : a ∈ last key n items) :
    a ∈ items ∧ items.countP (fun b => key a < key b) < n := by
  refine ⟨mem_sort.1 (List.mem_of_mem_drop ha), ?_⟩
  by_contra hout
  have hparts := sort_eq_parts key items (key a)
  have hlength := congrArg List.length hparts
  rw [List.length_append, List.length_append, length_sort, length_sort, length_sort,
    ← List.countP_eq_length_filter (p := fun b => decide (key a < key b))] at hlength
  have hcut : (sort key (items.filter fun b => key b < key a) ++ items.filter fun b => key b = key a).length ≤
      items.length - n := by
    rw [List.length_append, length_sort]
    omega
  unfold last at ha
  rw [hparts, ← List.append_assoc, List.drop_append, List.drop_eq_nil_of_le hcut, List.nil_append] at ha
  have habove := List.mem_filter.1 (mem_sort.1 (List.mem_of_mem_drop ha))
  exact absurd (of_decide_eq_true habove.2) (lt_irrefl _)

/-- Where the levels are whole, that is all it takes. -/
theorem mem_last_of_whole {n : Nat} {items : List α} (hwhole : Whole key n items) {a : α} (ha : a ∈ items)
    (h : items.countP (fun b => key a < key b) < n) : a ∈ last key n items := by
  have hlevel : a ∈ items.filter fun b => key b = key a := List.mem_filter.2 ⟨ha, by simp⟩
  by_cases hin : items.countP (fun b => key a ≤ key b) ≤ n
  · rw [← filter_last hin] at hlevel
    exact List.mem_of_mem_filter hlevel
  · have hcount := countP_level key items (key a)
    have hpos : items.countP (fun b => key a ≤ key b) - n < (items.filter fun b => key b = key a).length := by omega
    rw [last_eq h.le (by omega), List.mem_append]
    left
    obtain ⟨b, hb⟩ := List.exists_mem_of_length_pos (by
      rw [List.length_drop]
      omega : 0 < ((items.filter fun b => key b = key a).drop (items.countP (fun b => key a ≤ key b) - n)).length)
    -- one item of the level is left, and the level has no other
    obtain ⟨hmem, hkey⟩ := List.mem_filter.1 (List.mem_of_mem_drop hb)
    have heq : a = b := by
      by_contra hne
      rcases hwhole a ha b hmem (of_decide_eq_true hkey).symm hne with hout | hall
      · omega
      · exact hin hall
    rw [heq]
    rw [heq] at hb
    exact hb

/-- A cut between keys leaves every level whole. -/
theorem whole_of_apart {k : Nat} {items : List α}
    (h : Apart key ((sort key items).take k) ((sort key items).drop k)) : Whole key (items.length - k) items := by
  have hsort : (sort key items).Perm items := sort_perm items
  have hlength := hsort.length_eq
  have hcount : ∀ p : α → Bool, items.countP p = ((sort key items).take k).countP p +
      ((sort key items).drop k).countP p := fun p => by
    rw [← hsort.countP_eq, ← List.countP_append, List.take_append_drop]
  intro x hx y _ _ _
  rw [← hsort.mem_iff, ← List.take_append_drop k (sort key items), List.mem_append] at hx
  rcases hx with hx | hx
  · left
    have hall : ((sort key items).drop k).countP (fun a => key x < key a) = ((sort key items).drop k).length :=
      List.countP_eq_length.2 fun a ha => by simpa using h x hx a ha
    rw [hcount, hall, List.length_drop, hlength]
    omega
  · right
    have hnone : ((sort key items).take k).countP (fun a => key x ≤ key a) = 0 :=
      List.countP_eq_zero.2 fun a ha => by simpa using h a ha x hx
    rw [hcount, hnone, Nat.zero_add]
    refine List.countP_le_length.trans ?_
    rw [List.length_drop, hlength]

/-- Where the cut comes to stand depends on the keys alone. -/
theorem untie_congr {items items' : List α} (h : items.map key = items'.map key) :
    ∀ cut, untie key items cut = untie key items' cut
  | 0 => rfl
  | cut + 1 => by
    unfold untie
    rw [← List.getElem?_map, ← List.getElem?_map, h, List.getElem?_map, List.getElem?_map, untie_congr h cut]

end Aibot.Cut
