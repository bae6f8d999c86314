/-
Insertion-ordered dictionaries: the association list behind a JSON object, with unique keys.
Lookup after every update, and how an update changes a sum over the values.
-/
import Mathlib.Algebra.BigOperators.Group.List.Basic
import Mathlib.Data.List.Nodup
import Mathlib.Tactic

namespace Aibot

/-- A dictionary as an association list in insertion order; no key occurs twice. -/
structure Dict (κ α : Type*) where
  entries : List (κ × α)
  nodup : (entries.map Prod.fst).Nodup

namespace Dict

variable {κ α : Type*}

/-- The dictionary `{}`. -/
def empty : Dict κ α := ⟨[], List.nodup_nil⟩

/-- The values in insertion order. -/
def values (d : Dict κ α) : List α := d.entries.map Prod.snd

theorem ext {d e : Dict κ α} (h : d.entries = e.entries) : d = e := by
  cases d; cases e; cases h; rfl

section Update

variable [DecidableEq κ]

/-- `d.get(k)`. -/
def get? (d : Dict κ α) (k : κ) : Option α := (d.entries.find? fun p => p.1 = k).map Prod.snd

/-- `d[k] = v`: an existing key keeps its place, a new one goes to the end. -/
def set (d : Dict κ α) (k : κ) (v : α) : Dict κ α :=
  if h : k ∈ d.entries.map Prod.fst then
    ⟨d.entries.map fun p => if p.1 = k then (k, v) else p, by
      have : (d.entries.map fun p => if p.1 = k then (k, v) else p).map Prod.fst =
          d.entries.map Prod.fst := by
        rw [List.map_map]
        refine List.map_congr_left fun p _ => ?_
        by_cases hp : p.1 = k <;> simp [hp]
      rw [this]; exact d.nodup⟩
  else
    ⟨d.entries ++ [(k, v)], by
      rw [List.map_append, List.nodup_append]
      refine ⟨d.nodup, by simp, fun a ha b hb => ?_⟩
      simp only [List.map_cons, List.map_nil, List.mem_singleton] at hb
      subst hb; rintro rfl; exact h ha⟩

/-- `del d[k]`. -/
def erase (d : Dict κ α) (k : κ) : Dict κ α :=
  ⟨d.entries.filter fun p => p.1 ≠ k, d.nodup.sublist (List.filter_sublist.map _)⟩

/-! ## Lookup -/

theorem get?_eq_some {d : Dict κ α} {k : κ} {v : α} : d.get? k = some v ↔ (k, v) ∈ d.entries := by
  unfold get?
  constructor
  · intro h
    obtain ⟨p, hp, rfl⟩ := Option.map_eq_some_iff.1 h
    have hk : p.1 = k := by simpa using List.find?_some hp
    rw [← hk]; exact List.mem_of_find?_eq_some hp
  · intro h
    cases hf : d.entries.find? fun p => p.1 = k with
    | none => simpa using List.find?_eq_none.1 hf (k, v) h
    | some p =>
      have hk : p.1 = k := by simpa using List.find?_some hf
      have := List.inj_on_of_nodup_map d.nodup (List.mem_of_find?_eq_some hf) h hk
      rw [this]; rfl

theorem get?_eq_none {d : Dict κ α} {k : κ} : d.get? k = none ↔ k ∉ d.entries.map Prod.fst := by
  unfold get?
  rw [Option.map_eq_none_iff, List.find?_eq_none]
  simp only [decide_eq_true_eq, List.mem_map, not_exists, not_and]

theorem mem_values {d : Dict κ α} {v : α} : v ∈ d.values ↔ ∃ k, d.get? k = some v := by
  simp only [values, List.mem_map, get?_eq_some]
  constructor
  · rintro ⟨p, hp, rfl⟩; exact ⟨p.1, hp⟩
  · rintro ⟨k, hk⟩; exact ⟨(k, v), hk, rfl⟩

/-- Dictionaries with the same values under every key have the same entries, maybe in another order. -/
theorem entries_perm {d e : Dict κ α} (h : ∀ k, d.get? k = e.get? k) : d.entries.Perm e.entries := by
  rw [List.perm_ext_iff_of_nodup (d.nodup.of_map _) (e.nodup.of_map _)]
  rintro ⟨k, a⟩
  rw [← get?_eq_some, ← get?_eq_some, h]

@[simp] theorem get?_empty (k : κ) : (empty : Dict κ α).get? k = none := rfl

theorem entries_set_of_get {d : Dict κ α} {k : κ} {a : α} (h : d.get? k = some a) (v : α) :
    (d.set k v).entries = d.entries.map fun p => if p.1 = k then (k, v) else p := by
  have hk : k ∈ d.entries.map Prod.fst := List.mem_map.2 ⟨(k, a), get?_eq_some.1 h, rfl⟩
  unfold set; rw [dif_pos hk]

theorem entries_set_of_none {d : Dict κ α} {k : κ} (h : d.get? k = none) (v : α) :
    (d.set k v).entries = d.entries ++ [(k, v)] := by
  unfold set; rw [dif_neg (get?_eq_none.1 h)]

@[simp] theorem get?_set_self (d : Dict κ α) (k : κ) (v : α) : (d.set k v).get? k = some v := by
  rw [get?_eq_some]
  cases h : d.get? k with
  | none => rw [entries_set_of_none h]; simp
  | some a =>
    rw [entries_set_of_get h]
    exact List.mem_map.2 ⟨(k, a), get?_eq_some.1 h, by simp⟩

theorem get?_set_of_ne (d : Dict κ α) {k k' : κ} (v : α) (hne : k' ≠ k) :
    (d.set k v).get? k' = d.get? k' := by
  refine Option.ext fun b => ?_
  rw [get?_eq_some, get?_eq_some]
  cases h : d.get? k with
  | none =>
    rw [entries_set_of_none h]
    simp [hne]
  | some a =>
    rw [entries_set_of_get h]
    constructor
    · intro hm
      obtain ⟨p, hp, he⟩ := List.mem_map.1 hm
      by_cases hpk : p.1 = k
      · rw [if_pos hpk] at he
        cases he; exact absurd rfl hne
      · rw [if_neg hpk] at he
        rw [← he]; exact hp
    · intro hm
      exact List.mem_map.2 ⟨(k', b), hm, by simp [hne]⟩

theorem get?_set (d : Dict κ α) (k k' : κ) (v : α) :
    (d.set k v).get? k' = if k' = k then some v else d.get? k' := by
  by_cases h : k' = k
  · subst h; simp
  · rw [if_neg h, get?_set_of_ne d v h]

theorem get?_erase (d : Dict κ α) (k k' : κ) :
    (d.erase k).get? k' = if k' = k then none else d.get? k' := by
  refine Option.ext fun b => ?_
  rw [get?_eq_some]
  by_cases h : k' = k
  · simp [erase, h]
  · rw [if_neg h, get?_eq_some]; simp [erase, h]

theorem erase_of_none {d : Dict κ α} {k : κ} (h : d.get? k = none) : d.erase k = d := by
  apply ext
  refine List.filter_eq_self.2 fun p hp => ?_
  have hne : p.1 ≠ k := by
    rintro rfl
    exact get?_eq_none.1 h (List.mem_map_of_mem hp)
  simpa using hne

/-- What is set is taken away with its key. -/
theorem erase_set_self (d : Dict κ α) (k : κ) (v : α) : (d.set k v).erase k = d.erase k := by
  apply ext
  show ((d.set k v).entries.filter fun p => p.1 ≠ k) = d.entries.filter fun p => p.1 ≠ k
  cases h : d.get? k with
  | none =>
    rw [entries_set_of_none h, List.filter_append]
    simp
  | some a =>
    rw [entries_set_of_get h, List.filter_map]
    have hsame : (d.entries.filter ((fun p => decide (p.1 ≠ k)) ∘ fun p => if p.1 = k then (k, v) else p)) =
        d.entries.filter fun p => p.1 ≠ k := by
      refine List.filter_congr fun p _ => ?_
      by_cases hp : p.1 = k <;> simp [hp]
    rw [hsame]
    refine (List.map_congr_left fun p hp => ?_).trans (List.map_id _)
    have hne : p.1 ≠ k := by simpa using (List.mem_filter.1 hp).2
    exact if_neg hne

/-- A new key is set and taken away. -/
theorem erase_set {d : Dict κ α} {k : κ} (h : d.get? k = none) (v : α) :
    (d.set k v).erase k = d := by
  rw [erase_set_self, erase_of_none h]

@[simp] theorem get?_erase_self (d : Dict κ α) (k : κ) : (d.erase k).get? k = none := by
  simp [get?_erase]

/-- The dictionary of a list of items: a later item replaces an earlier one of its key. -/
def ofList (items : List (κ × α)) : Dict κ α := items.foldl (fun d p => d.set p.1 p.2) empty

theorem get?_foldl_set {k : κ} {v : α} : ∀ (items : List (κ × α)) (d : Dict κ α),
    (items.foldl (fun d p => d.set p.1 p.2) d).get? k = some v → (k, v) ∈ items ∨ d.get? k = some v
  | [], _, h => .inr h
  | (k', v') :: items, d, h => by
    rcases get?_foldl_set items (d.set k' v') h with h | h
    · exact .inl (List.mem_cons_of_mem _ h)
    · rw [get?_set] at h
      split_ifs at h with hk
      · obtain rfl := Option.some.inj h
        subst hk
        exact .inl List.mem_cons_self
      · exact .inr h

/-- A loop that sets keys keeps the keys that are there. -/
theorem isSome_foldl_set {β : Type*} {change : Dict κ α → κ × β → α} {k : κ} :
    ∀ (items : List (κ × β)) {d : Dict κ α}, (d.get? k).isSome = true →
      ((items.foldl (fun d item => d.set item.1 (change d item)) d).get? k).isSome = true
  | [], _, h => h
  | item :: items, d, h => by
    refine isSome_foldl_set items ?_
    rw [get?_set]
    split_ifs
    · rfl
    · exact h

/-- What a dictionary of items holds is one of them. -/
theorem mem_of_get?_ofList {items : List (κ × α)} {k : κ} {v : α} (h : (ofList items).get? k = some v) :
    (k, v) ∈ items :=
  (get?_foldl_set items empty h).resolve_right (by simp)

theorem entries_foldl_set : ∀ (items : List (κ × α)) (d : Dict κ α),
    ((d.entries ++ items).map Prod.fst).Nodup →
      (items.foldl (fun d p => d.set p.1 p.2) d).entries = d.entries ++ items
  | [], d, _ => (List.append_nil _).symm
  | (k, v) :: items, d, h => by
    have hk : d.get? k = none := by
      rw [get?_eq_none]
      rw [List.map_append, List.map_cons] at h
      exact fun hk => (List.nodup_append.1 h).2.2 k hk k List.mem_cons_self rfl
    have hset := entries_set_of_none hk v
    rw [List.foldl_cons, entries_foldl_set items (d.set k v), hset]
    · simp
    · rw [hset]; simpa using h

/-- The entries of a dictionary give it back. -/
theorem ofList_entries (d : Dict κ α) : ofList d.entries = d :=
  ext (entries_foldl_set d.entries empty (by simpa [empty] using d.nodup))

section Index

variable {key : α → κ} {items : List α}

/-- The index of a list by a key that no two of its items share has all of its items. -/
theorem entries_index (h : (items.map key).Nodup) :
    (ofList (items.map fun a => (key a, a))).entries = items.map fun a => (key a, a) := by
  have hkeys : ((items.map fun a => (key a, a)).map Prod.fst).Nodup := by
    rw [List.map_map]
    exact h
  exact congrArg entries (ofList_entries ⟨items.map fun a => (key a, a), hkeys⟩)

theorem get?_index (h : (items.map key).Nodup) {k : κ} {a : α} :
    (ofList (items.map fun a => (key a, a))).get? k = some a ↔ a ∈ items ∧ key a = k := by
  rw [get?_eq_some, entries_index h, List.mem_map]
  constructor
  · rintro ⟨b, hb, heq⟩
    cases heq
    exact ⟨hb, rfl⟩
  · rintro ⟨ha, rfl⟩
    exact ⟨a, ha, rfl⟩

end Index

/-! ## The entries around a key -/

section Split

variable {d : Dict κ α} {k : κ} {a : α} {before after : List (κ × α)}

theorem exists_split (h : d.get? k = some a) : ∃ before after, d.entries = before ++ (k, a) :: after :=
  List.append_of_mem (get?_eq_some.1 h)

theorem get?_of_split (h : d.entries = before ++ (k, a) :: after) : d.get? k = some a := by
  rw [get?_eq_some, h]
  simp

omit [DecidableEq κ] in
theorem ne_of_split (h : d.entries = before ++ (k, a) :: after) {p : κ × α} (hp : p ∈ before ∨ p ∈ after) :
    p.1 ≠ k := by
  have hn := d.nodup
  rw [h, List.map_append, List.map_cons, List.nodup_append, List.nodup_cons] at hn
  obtain ⟨-, ⟨hafter, -⟩, hbefore⟩ := hn
  intro hk
  rcases hp with hp | hp
  · exact hbefore p.1 (List.mem_map_of_mem hp) k List.mem_cons_self hk
  · exact hafter (List.mem_map.2 ⟨p, hp, hk⟩)

theorem entries_erase_split (h : d.entries = before ++ (k, a) :: after) : (d.erase k).entries = before ++ after := by
  show (d.entries.filter fun p => p.1 ≠ k) = before ++ after
  rw [h, List.filter_append, List.filter_cons_of_neg (by simp)]
  congr 1
  · exact List.filter_eq_self.2 fun p hp => decide_eq_true (ne_of_split h (.inl hp))
  · exact List.filter_eq_self.2 fun p hp => decide_eq_true (ne_of_split h (.inr hp))

theorem entries_set_split (h : d.entries = before ++ (k, a) :: after) (b : α) :
    (d.set k b).entries = before ++ (k, b) :: after := by
  rw [entries_set_of_get (get?_of_split h), h, List.map_append, List.map_cons, if_pos rfl]
  congr 1
  · exact (List.map_congr_left fun p hp => if_neg (ne_of_split h (.inl hp))).trans (List.map_id _)
  · congr 1
    exact (List.map_congr_left fun p hp => if_neg (ne_of_split h (.inr hp))).trans (List.map_id _)

end Split

/-! ## Sums over the values -/

/-- The sum of `f` over the values. -/
def sumOf {M : Type*} [AddCommMonoid M] (f : α → M) (d : Dict κ α) : M := (d.values.map f).sum

section Sum

variable {M : Type*} [AddCommGroup M] (f : α → M)

omit [DecidableEq κ] in
@[simp] theorem sumOf_empty : (empty : Dict κ α).sumOf f = 0 := rfl

theorem sumOf_set_of_none {d : Dict κ α} {k : κ} (h : d.get? k = none) (v : α) :
    (d.set k v).sumOf f = d.sumOf f + f v := by
  unfold sumOf values; rw [entries_set_of_none h]; simp

theorem sumOf_set_of_get {d : Dict κ α} {k : κ} {a : α} (h : d.get? k = some a) (v : α) :
    (d.set k v).sumOf f = d.sumOf f - f a + f v := by
  obtain ⟨before, after, hsplit⟩ := exists_split h
  unfold sumOf values
  rw [entries_set_split hsplit, hsplit]
  simp only [List.map_append, List.map_cons, List.sum_append, List.sum_cons]
  abel

theorem sumOf_erase {d : Dict κ α} {k : κ} {a : α} (h : d.get? k = some a) :
    (d.erase k).sumOf f = d.sumOf f - f a := by
  obtain ⟨before, after, hsplit⟩ := exists_split h
  unfold sumOf values
  rw [entries_erase_split hsplit, hsplit]
  simp only [List.map_append, List.map_cons, List.sum_append, List.sum_cons]
  abel

end Sum

end Update

end Dict

end Aibot
