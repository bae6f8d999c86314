/-
Queues in the order of time that lose what is too old at the front, and dictionaries of such queues that
lose the keys whose queue is empty.
-/
import Aibot.Lib.Dict

namespace Aibot

/-! ## Queues -/

section Expire

variable {α τ : Type*} [LinearOrder τ] (time : α → τ)

/-- Drop from the front what is before the cutoff. -/
def expire (cutoff : τ) (queue : List α) : List α := queue.dropWhile fun a => time a < cutoff

/-- The queue is in the order of time. -/
def InOrder (queue : List α) : Prop := queue.Pairwise fun a b => time a ≤ time b

variable {time} {cutoff cutoff' : τ} {queue : List α}

theorem expire_sublist : (expire time cutoff queue).Sublist queue := List.dropWhile_sublist _

theorem InOrder.expire (h : InOrder time queue) (cutoff : τ) : InOrder time (expire time cutoff queue) :=
  List.Pairwise.sublist expire_sublist h

/-- In a queue in the order of time, what is too old is at the front. -/
theorem expire_eq_filter (h : InOrder time queue) : expire time cutoff queue = queue.filter (cutoff ≤ time ·) := by
  induction queue with
  | nil => rfl
  | cons a queue ih =>
    obtain ⟨hfirst, hrest⟩ := List.pairwise_cons.1 h
    unfold Aibot.expire
    by_cases ha : time a < cutoff
    · rw [List.dropWhile_cons_of_pos (by simpa using ha), List.filter_cons_of_neg (by simpa using ha)]
      exact ih hrest
    · rw [List.dropWhile_cons_of_neg (by simpa using ha), List.filter_eq_self.2]
      intro b hb
      rcases List.mem_cons.1 hb with rfl | hb
      · simpa using ha
      · simpa using (not_lt.1 ha).trans (hfirst b hb)

/-- What has expired has expired later on. -/
theorem expire_expire (h : cutoff ≤ cutoff') : expire time cutoff' (expire time cutoff queue) =
    expire time cutoff' queue := by
  induction queue with
  | nil => rfl
  | cons a queue ih =>
    unfold Aibot.expire at ih ⊢
    by_cases ha : time a < cutoff
    · rw [List.dropWhile_cons_of_pos (by simpa using ha),
        List.dropWhile_cons_of_pos (by simpa using lt_of_lt_of_le ha h)]
      exact ih
    · rw [List.dropWhile_cons_of_neg (by simpa using ha)]

theorem inOrder_concat {a : α} (h : InOrder time queue) (hlast : ∀ b ∈ queue, time b ≤ time a) :
    InOrder time (queue ++ [a]) := by
  refine List.pairwise_append.2 ⟨h, List.pairwise_singleton _ _, fun b hb c hc => ?_⟩
  obtain rfl := List.mem_singleton.1 hc
  exact hlast b hb

end Expire

/-! ## Dictionaries of queues -/

namespace Dict

variable {κ α τ : Type*} [DecidableEq κ]

/-- Rewrite every value, or drop its key. -/
def filterMap (f : α → Option α) (d : Dict κ α) : Dict κ α where
  entries := d.entries.filterMap fun p => (f p.2).map fun v => (p.1, v)
  nodup := by
    have hsub : ((d.entries.filterMap fun p => (f p.2).map fun v => (p.1, v)).map Prod.fst).Sublist
        (d.entries.map Prod.fst) := by
      induction d.entries with
      | nil => exact .slnil
      | cons p entries ih =>
        rw [List.filterMap_cons]
        cases hp : f p.2 with
        | none => exact ih.cons _
        | some v => exact ih.cons_cons _
    exact d.nodup.sublist hsub

theorem get?_filterMap (f : α → Option α) (d : Dict κ α) (k : κ) : (d.filterMap f).get? k = (d.get? k).bind f := by
  refine Option.ext fun v => ?_
  rw [get?_eq_some, Option.bind_eq_some_iff]
  show (k, v) ∈ d.entries.filterMap _ ↔ _
  rw [List.mem_filterMap]
  constructor
  · rintro ⟨⟨k', a⟩, hmem, ha⟩
    obtain ⟨b, hb, heq⟩ := Option.map_eq_some_iff.1 ha
    cases heq
    exact ⟨a, get?_eq_some.2 hmem, hb⟩
  · rintro ⟨a, ha, hv⟩
    exact ⟨(k, a), get?_eq_some.1 ha, by simp [hv]⟩

/-- Without the first keys. -/
def drop (n : Nat) (d : Dict κ α) : Dict κ α := ⟨d.entries.drop n, d.nodup.sublist ((List.drop_sublist _ _).map _)⟩

theorem get?_drop {n : Nat} {d : Dict κ α} {k : κ} (hk : k ∉ (d.entries.take n).map Prod.fst) :
    (d.drop n).get? k = d.get? k := by
  refine Option.ext fun v => ?_
  rw [get?_eq_some, get?_eq_some]
  constructor
  · exact fun h => (List.drop_sublist n d.entries).subset h
  · intro h
    rw [← List.take_append_drop n d.entries] at h
    rcases List.mem_append.1 h with h | h
    · exact absurd (List.mem_map_of_mem h) hk
    · exact h

variable [LinearOrder τ] (time : α → τ)

/-- The queue of a key, empty where there is none. -/
def queue (d : Dict κ (List α)) (k : κ) : List α := (d.get? k).getD []

/-- Every queue loses what is before the cutoff, and keys without anything left go. -/
def expire (cutoff : τ) (d : Dict κ (List α)) : Dict κ (List α) :=
  d.filterMap fun queue =>
    match Aibot.expire time cutoff queue with
    | [] => none
    | left => some left

theorem queue_expire (cutoff : τ) (d : Dict κ (List α)) (k : κ) :
    (d.expire time cutoff).queue k = Aibot.expire time cutoff (d.queue k) := by
  unfold expire queue
  rw [get?_filterMap]
  cases d.get? k with
  | none => rfl
  | some queue =>
    show Option.getD (match Aibot.expire time cutoff queue with | [] => none | left => some left) [] =
      Aibot.expire time cutoff queue
    cases Aibot.expire time cutoff queue <;> rfl

theorem queue_set (d : Dict κ (List α)) (k k' : κ) (items : List α) :
    (d.set k items).queue k' = if k' = k then items else d.queue k' := by
  unfold queue
  rw [get?_set]
  split_ifs <;> rfl

theorem queue_erase (d : Dict κ (List α)) (k k' : κ) :
    (d.erase k).queue k' = if k' = k then [] else d.queue k' := by
  unfold queue
  rw [get?_erase]
  split_ifs <;> rfl

end Dict

end Aibot
