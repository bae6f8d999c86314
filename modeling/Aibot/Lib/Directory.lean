/-
Directories: files under distinct names, listed in the order of the names. Two directories are the same when
they hold the same files, and so are the files of two directories that pass a test.
-/
import Mathlib.Data.List.Sort
import Mathlib.Tactic

namespace Aibot

/-- Files in the order of their names. -/
structure Directory (κ α : Type*) [LinearOrder κ] where
  files : List (κ × α)
  sorted : files.Pairwise fun p q => p.1 < q.1

namespace Directory

variable {κ α : Type*} [LinearOrder κ] {d d' : Directory κ α} {k k' : κ} {a b : α}

def empty : Directory κ α := ⟨[], .nil⟩

/-- The file under a name. -/
def get? (d : Directory κ α) (k : κ) : Option α := (d.files.find? fun p => p.1 = k).map Prod.snd

theorem pairwise_put (d : Directory κ α) (k : κ) (a : α) :
    (d.files.filter (·.1 < k) ++ (k, a) :: d.files.filter (k < ·.1)).Pairwise fun p q => p.1 < q.1 := by
  rw [List.pairwise_append, List.pairwise_cons]
  refine ⟨d.sorted.filter _, ⟨fun q hq => ?_, d.sorted.filter _⟩, fun p hp q hq => ?_⟩
  · exact of_decide_eq_true (List.mem_filter.1 hq).2
  · have hlow : p.1 < k := of_decide_eq_true (List.mem_filter.1 hp).2
    rcases List.mem_cons.1 hq with rfl | hq
    · exact hlow
    · exact hlow.trans (of_decide_eq_true (List.mem_filter.1 hq).2)

/-- The directory with a file written. -/
def put (d : Directory κ α) (k : κ) (a : α) : Directory κ α :=
  ⟨d.files.filter (·.1 < k) ++ (k, a) :: d.files.filter (k < ·.1), pairwise_put d k a⟩

/-- The files, without their names. -/
def values (d : Directory κ α) : List α := d.files.map Prod.snd

/-! ## Lookup -/

theorem eq_of_mem_files (h : (k, a) ∈ d.files) (h' : (k, b) ∈ d.files) : a = b := by
  have hnodup : (d.files.map Prod.fst).Nodup := by
    rw [List.Nodup, List.pairwise_map]
    exact d.sorted.imp fun h => h.ne
  exact congrArg Prod.snd (List.inj_on_of_nodup_map hnodup h h' rfl)

theorem get?_eq_some : d.get? k = some a ↔ (k, a) ∈ d.files := by
  unfold get?
  constructor
  · intro h
    obtain ⟨p, hp, rfl⟩ := Option.map_eq_some_iff.1 h
    have hk : p.1 = k := by simpa using List.find?_some hp
    rw [← hk]
    exact List.mem_of_find?_eq_some hp
  · intro h
    cases hf : d.files.find? fun p => p.1 = k with
    | none => simpa using List.find?_eq_none.1 hf (k, a) h
    | some p =>
      have hk : p.1 = k := by simpa using List.find?_some hf
      have hp : (k, p.2) ∈ d.files := by
        rw [← hk]
        exact List.mem_of_find?_eq_some hf
      rw [eq_of_mem_files h hp]
      rfl

@[simp] theorem get?_empty (k : κ) : (empty : Directory κ α).get? k = none := rfl

theorem mem_files_put : (k', b) ∈ (d.put k a).files ↔ (k' = k ∧ b = a) ∨ (k' ≠ k ∧ (k', b) ∈ d.files) := by
  show (k', b) ∈ d.files.filter (·.1 < k) ++ (k, a) :: d.files.filter (k < ·.1) ↔ _
  rw [List.mem_append, List.mem_cons, List.mem_filter, List.mem_filter, Prod.mk.injEq, decide_eq_true_iff,
    decide_eq_true_iff]
  rcases lt_trichotomy k' k with h | h | h
  · simp [h, h.ne, h.not_gt]
  · simp [h]
  · simp [h, h.ne', h.not_gt]

@[simp] theorem get?_put_self (d : Directory κ α) (k : κ) (a : α) : (d.put k a).get? k = some a := by
  rw [get?_eq_some, mem_files_put]
  exact .inl ⟨rfl, rfl⟩

theorem get?_put_of_ne (d : Directory κ α) (a : α) (h : k' ≠ k) : (d.put k a).get? k' = d.get? k' := by
  refine Option.ext fun b => ?_
  rw [get?_eq_some, get?_eq_some, mem_files_put]
  constructor
  · rintro (⟨heq, -⟩ | ⟨-, hmem⟩)
    · exact absurd heq h
    · exact hmem
  · exact fun hmem => .inr ⟨h, hmem⟩

theorem get?_put (d : Directory κ α) (k k' : κ) (a : α) :
    (d.put k a).get? k' = if k' = k then some a else d.get? k' := by
  split_ifs with h
  · rw [h, get?_put_self]
  · exact get?_put_of_ne d a h

theorem mem_values : a ∈ d.values ↔ ∃ k, d.get? k = some a := by
  unfold values
  rw [List.mem_map]
  constructor
  · rintro ⟨p, hp, rfl⟩
    exact ⟨p.1, get?_eq_some.2 hp⟩
  · rintro ⟨k, hk⟩
    exact ⟨(k, a), get?_eq_some.1 hk, rfl⟩

/-! ## Extensionality -/

/-- Directories that hold the same files that pass a test list those alike. -/
theorem filter_files_congr {p : κ × α → Bool} (h : ∀ k a, p (k, a) = true → (d.get? k = some a ↔ d'.get? k = some a)) :
    d.files.filter p = d'.files.filter p := by
  apply List.Pairwise.eq_of_mem_iff (r := fun p q : κ × α => p.1 < q.1) (d.sorted.filter p) (d'.sorted.filter p)
  rintro ⟨k, a⟩
  rw [List.mem_filter, List.mem_filter, ← get?_eq_some, ← get?_eq_some]
  constructor
  · exact fun ⟨hmem, hp⟩ => ⟨(h k a hp).1 hmem, hp⟩
  · exact fun ⟨hmem, hp⟩ => ⟨(h k a hp).2 hmem, hp⟩

@[ext] theorem ext (h : ∀ k, d.get? k = d'.get? k) : d = d' := by
  have hfiles : d.files.filter (fun _ => true) = d'.files.filter (fun _ => true) :=
    filter_files_congr fun k a _ => by rw [h k]
  rw [List.filter_true, List.filter_true] at hfiles
  cases d
  cases d'
  cases hfiles
  rfl

/-! ## Parts -/

/-- Every file of the first directory is in the second. -/
def Within (d d' : Directory κ α) : Prop := ∀ k a, d.get? k = some a → d'.get? k = some a

theorem Within.refl (d : Directory κ α) : Within d d := fun _ _ h => h

theorem Within.trans {d'' : Directory κ α} (h : Within d d') (h' : Within d' d'') : Within d d'' :=
  fun k a hk => h' k a (h k a hk)

theorem Within.antisymm (h : Within d d') (h' : Within d' d) : d = d' := by
  ext k a
  exact ⟨h k a, h' k a⟩

theorem within_put (h : d.get? k = none) (a : α) : Within d (d.put k a) := by
  intro k' b hk'
  rw [get?_put_of_ne]
  · exact hk'
  · rintro rfl
    rw [h] at hk'
    cases hk'

theorem put_within (h : Within d d') (hk : d'.get? k = some a) : Within (d.put k a) d' := by
  intro k' b hk'
  rw [get?_put] at hk'
  split_ifs at hk' with heq
  · obtain rfl := Option.some.inj hk'
    rw [heq]
    exact hk
  · exact h k' b hk'

theorem Within.sublist (h : Within d d') : d.files.Sublist d'.files := by
  have hmem : ∀ p ∈ d.files, p ∈ d'.files := fun p hp => get?_eq_some.1 (h p.1 p.2 (get?_eq_some.2 hp))
  have hfilter : d'.files.filter (fun p => (d.get? p.1).isSome) = d.files := by
    apply List.Pairwise.eq_of_mem_iff (r := fun p q : κ × α => p.1 < q.1) (d'.sorted.filter _) d.sorted
    rintro ⟨k, a⟩
    rw [List.mem_filter]
    constructor
    · rintro ⟨hp, hsome⟩
      obtain ⟨b, hb⟩ := Option.isSome_iff_exists.1 hsome
      rw [eq_of_mem_files hp (get?_eq_some.1 (h k b hb))]
      exact get?_eq_some.1 hb
    · intro hp
      refine ⟨hmem _ hp, ?_⟩
      rw [get?_eq_some.2 hp]
      rfl
  rw [← hfilter]
  exact List.filter_sublist

end Directory

end Aibot
