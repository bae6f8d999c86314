/-
Reading a log newest first: the newest entry with a property, and the entries newer than it. A log
that is trimmed keeps a suffix; the newest entry found in the suffix is the newest of the whole log,
and it is found there exactly when it was kept.
-/
import Mathlib.Data.List.TakeWhile
import Mathlib.Tactic

namespace Aibot

variable {α β : Type*} (p : α → Bool)

/-- The newest entry with the property. -/
def newest (log : List α) : Option α := log.reverse.find? p

/-- The entries newer than the newest one with the property, newest first. -/
def newerThan (log : List α) : List α := log.reverse.takeWhile fun a => !p a

variable {p}

@[simp] theorem newest_nil : newest p [] = none := rfl

theorem newest_concat (log : List α) (a : α) :
    newest p (log ++ [a]) = if p a then some a else newest p log := by
  unfold newest
  rw [List.reverse_concat, List.find?_cons]
  cases p a <;> rfl

theorem newest_append (log new : List α) : newest p (log ++ new) = (newest p new).or (newest p log) := by
  unfold newest
  rw [List.reverse_append, List.find?_append]

theorem newest_mem {log : List α} {a : α} (h : newest p log = some a) : a ∈ log :=
  List.mem_reverse.1 (List.mem_of_find?_eq_some h)

theorem newest_prop {log : List α} {a : α} (h : newest p log = some a) : p a = true :=
  List.find?_some h

theorem newest_eq_none {log : List α} : newest p log = none ↔ ∀ a ∈ log, p a = false := by
  unfold newest
  rw [List.find?_eq_none]
  simp only [List.mem_reverse, Bool.not_eq_true]

theorem newest_isSome_of_mem {log : List α} {a : α} (h : a ∈ log) (hp : p a = true) :
    ∃ b, newest p log = some b := by
  cases hn : newest p log with
  | some b => exact ⟨b, rfl⟩
  | none =>
    have hfalse := newest_eq_none.1 hn a h
    rw [hp] at hfalse
    cases hfalse

theorem newest_eq_getLast? (log : List α) : newest p log = (log.filter p).getLast? := by
  unfold newest
  rw [← List.head?_filter, List.filter_reverse, List.head?_reverse]

/-- What a trimmed log finds is the newest of the whole log. -/
theorem newest_of_suffix {kept log : List α} (h : kept <:+ log) {a : α} (ha : newest p kept = some a) :
    newest p log = some a := by
  obtain ⟨old, rfl⟩ := h
  rw [newest_append, ha, Option.some_or]

/-- A trimmed log finds the newest entry exactly when it was kept. -/
theorem newest_suffix_iff {kept log : List α} (h : kept <:+ log) {a : α} (ha : newest p log = some a) :
    newest p kept = some a ↔ a ∈ kept := by
  constructor
  · exact newest_mem
  · intro hmem
    obtain ⟨b, hb⟩ := newest_isSome_of_mem hmem (newest_prop ha)
    have hwhole := newest_of_suffix h hb
    rw [ha] at hwhole
    rw [hb, hwhole]

/-- In a log ordered pairwise, every entry with the property is the newest one or related to it. -/
theorem newest_rel {R : α → α → Prop} {log : List α} (h : log.Pairwise R) {a b : α} (ha : newest p log = some a)
    (hb : b ∈ log) (hp : p b = true) : b = a ∨ R b a := by
  induction log using List.reverseRecOn with
  | nil => cases hb
  | append_singleton log c ih =>
    obtain ⟨hlog, -, hlast⟩ := List.pairwise_append.1 h
    rw [newest_concat] at ha
    by_cases hc : p c = true
    · rw [if_pos hc] at ha
      cases ha
      rcases List.mem_append.1 hb with hold | hnew
      · exact .inr (hlast b hold a (List.mem_singleton.2 rfl))
      · exact .inl (List.mem_singleton.1 hnew)
    · rw [if_neg hc] at ha
      rcases List.mem_append.1 hb with hold | hnew
      · exact ih hlog ha hold
      · rw [List.mem_singleton.1 hnew] at hp
        exact absurd hp hc

/-- Where the newest entry was kept, so were the newer ones. -/
theorem newerThan_suffix {kept log : List α} (h : kept <:+ log) {a : α} (ha : newest p kept = some a) :
    newerThan p kept = newerThan p log := by
  obtain ⟨old, rfl⟩ := h
  unfold newerThan
  rw [List.reverse_append, List.takeWhile_append, if_neg]
  intro hlength
  -- were all of the kept entries newer, none would have the property
  have hall : ∀ b ∈ kept.reverse, (!p b) = true := by
    have heq : kept.reverse.takeWhile (fun b => !p b) = kept.reverse :=
      (List.takeWhile_prefix _).eq_of_length hlength
    exact List.takeWhile_eq_self_iff.1 heq
  have hfalse := hall a (List.mem_reverse.2 (newest_mem ha))
  rw [newest_prop ha] at hfalse
  cases hfalse

end Aibot
