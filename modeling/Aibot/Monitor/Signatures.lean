/-
The duplicate window of one connection: a queue of the last accepted signatures and the set of them, kept in
step by `add`.
-/
import Mathlib.Data.Finset.Basic
import Mathlib.Data.List.DropRight
import Mathlib.Tactic

namespace Aibot.Monitor

/-! ## The code -/

/-- The module's gauges of the window. -/
structure WindowGauges where
  activeSize : Nat
  activeMaxSize : Nat

structure SignatureWindow where
  maximum : ℤ
  ordered : List String
  seen : Finset String

namespace SignatureWindow

/-- `__init__`, with the gauges after it. -/
def init (maximum : ℤ) (gauges : WindowGauges) : SignatureWindow × WindowGauges :=
  (⟨max 1 maximum, [], ∅⟩, { gauges with activeSize := 0 })

/-- The loop that forgets the oldest signatures. -/
def evict (maximum : ℤ) : List String → Finset String → List String × Finset String
  | [], seen => ([], seen)
  | oldest :: rest, seen =>
    if (oldest :: rest).length > maximum then evict maximum rest (seen.erase oldest) else (oldest :: rest, seen)

/-- `add`: the answer, and the window and the gauges after it. -/
def add (w : SignatureWindow) (gauges : WindowGauges) (signature : String) :
    Bool × SignatureWindow × WindowGauges :=
  if signature ∈ w.seen then (false, w, gauges)
  else
    let (ordered, seen) := evict w.maximum (w.ordered ++ [signature]) (insert signature w.seen)
    (true, { w with ordered, seen }, ⟨ordered.length, max gauges.activeMaxSize ordered.length⟩)

end SignatureWindow

/-! ## Sequences of calls -/

/-- A window with the gauges, and the signatures that it has accepted. -/
structure Connection where
  window : SignatureWindow
  gauges : WindowGauges
  accepted : List String

namespace Connection

def opened (maximum : ℤ) (gauges : WindowGauges) : Connection :=
  let (window, gauges) := SignatureWindow.init maximum gauges
  ⟨window, gauges, []⟩

/-- A call of `add`. -/
def call (c : Connection) (signature : String) : Connection :=
  let (answer, window, gauges) := c.window.add c.gauges signature
  ⟨window, gauges, if answer then c.accepted ++ [signature] else c.accepted⟩

def calls (maximum : ℤ) (gauges : WindowGauges) (signatures : List String) : Connection :=
  signatures.foldl call (opened maximum gauges)

end Connection

/-! ## What a window holds -/

/-- The capacity of a window. -/
def capacity (maximum : ℤ) : Nat := (max 1 maximum).toNat

theorem capacity_pos (maximum : ℤ) : 0 < capacity maximum := by
  unfold capacity
  omega

theorem rtake_of_length_le {α : Type*} {n : Nat} {l : List α} (h : l.length ≤ n) : l.rtake n = l := by
  unfold List.rtake
  rw [Nat.sub_eq_zero_of_le h]
  rfl

theorem rtake_cons_of_le {α : Type*} {n : Nat} {a : α} {l : List α} (h : n ≤ l.length) :
    (a :: l).rtake n = l.rtake n := by
  unfold List.rtake
  rw [List.length_cons, Nat.succ_sub h]
  rfl

theorem rtake_concat_rtake {α : Type*} {n : Nat} (hn : 0 < n) (l : List α) (a : α) :
    (l.rtake n ++ [a]).rtake n = (l ++ [a]).rtake n := by
  obtain ⟨m, rfl⟩ := Nat.exists_eq_succ_of_ne_zero hn.ne'
  have hinner : (l.rtake (m + 1)).rtake m = l.rtake m := by
    simp [List.rtake_eq_reverse_take_reverse, List.take_take]
  rw [Nat.succ_eq_add_one, List.rtake_concat_succ, List.rtake_concat_succ, hinner]

theorem length_rtake_le {α : Type*} (n : Nat) (l : List α) : (l.rtake n).length ≤ n := by
  unfold List.rtake
  rw [List.length_drop]
  omega

namespace SignatureWindow

/-- Of distinct signatures and the set of them, the loop leaves the last ones and the set of these. -/
theorem evict_eq (maximum : ℤ) {ordered : List String} (h : ordered.Nodup) :
    evict (max 1 maximum) ordered ordered.toFinset =
      (ordered.rtake (capacity maximum), (ordered.rtake (capacity maximum)).toFinset) := by
  induction ordered with
  | nil => simp [evict]
  | cons oldest rest ih =>
    obtain ⟨hfresh, hrest⟩ := List.nodup_cons.1 h
    unfold evict
    split_ifs with hlong
    · have hle : capacity maximum ≤ rest.length := by
        unfold capacity
        simp only [List.length_cons] at hlong
        omega
      have herase : (oldest :: rest).toFinset.erase oldest = rest.toFinset := by
        rw [List.toFinset_cons, Finset.erase_insert (by simpa using hfresh)]
      rw [herase, rtake_cons_of_le hle]
      exact ih hrest
    · have hshort : (oldest :: rest).length ≤ capacity maximum := by
        unfold capacity
        omega
      rw [rtake_of_length_le hshort]

end SignatureWindow

namespace Connection

/-- The queue is the last accepted signatures, which are distinct, and the set is that of the queue. -/
structure InStep (maximum : ℤ) (c : Connection) : Prop where
  bound : c.window.maximum = max 1 maximum
  ordered : c.window.ordered = c.accepted.rtake (capacity maximum)
  distinct : c.window.ordered.Nodup
  seen : c.window.seen = c.window.ordered.toFinset

variable {maximum : ℤ} {c : Connection}

theorem inStep_opened (maximum : ℤ) (gauges : WindowGauges) : InStep maximum (opened maximum gauges) := by
  constructor
  · rfl
  · exact (List.rtake_nil ..).symm
  · exact List.nodup_nil
  · exact List.toFinset_nil.symm

theorem InStep.call (h : InStep maximum c) (signature : String) : InStep maximum (c.call signature) := by
  by_cases hseen : signature ∈ c.window.seen
  · have hcall : c.call signature = c := by
      simp [Connection.call, SignatureWindow.add, hseen]
    rw [hcall]
    exact h
  · have hfresh : signature ∉ c.window.ordered := by
      intro hmem
      apply hseen
      rw [h.seen]
      exact List.mem_toFinset.2 hmem
    have hdistinct : (c.window.ordered ++ [signature]).Nodup :=
      List.nodup_append.2 ⟨h.distinct, List.nodup_singleton _, by
        rintro a ha b hb rfl
        rw [List.mem_singleton.1 hb] at ha
        exact hfresh ha⟩
    have hinsert : insert signature c.window.seen = (c.window.ordered ++ [signature]).toFinset := by
      rw [h.seen]
      ext s
      simp
    have hevict : SignatureWindow.evict c.window.maximum (c.window.ordered ++ [signature])
        (insert signature c.window.seen) = ((c.accepted ++ [signature]).rtake (capacity maximum),
          ((c.accepted ++ [signature]).rtake (capacity maximum)).toFinset) := by
      rw [h.bound, hinsert, SignatureWindow.evict_eq maximum hdistinct, h.ordered,
        rtake_concat_rtake (capacity_pos maximum)]
    have hnodup : ((c.accepted ++ [signature]).rtake (capacity maximum)).Nodup := by
      rw [← rtake_concat_rtake (capacity_pos maximum), ← h.ordered]
      exact hdistinct.sublist (List.drop_sublist _ _)
    unfold Connection.call SignatureWindow.add
    simp only [hseen, if_false, hevict]
    constructor
    · exact h.bound
    · rfl
    · exact hnodup
    · rfl

theorem inStep_calls (maximum : ℤ) (gauges : WindowGauges) (signatures : List String) :
    InStep maximum (calls maximum gauges signatures) := by
  unfold calls
  induction signatures using List.reverseRecOn with
  | nil => exact inStep_opened maximum gauges
  | append_singleton signatures signature ih =>
    rw [List.foldl_append]
    exact ih.call signature

/-- A signature is refused exactly when it is among the last accepted ones, and the set is that of the queue. -/
theorem signatures_bounded (maximum : ℤ) (gauges : WindowGauges) (signatures : List String) (signature : String) :
    let c := calls maximum gauges signatures
    ((c.window.add c.gauges signature).1 = false ↔ signature ∈ c.accepted.rtake (max 1 maximum).toNat) ∧
      c.window.ordered.Nodup ∧ c.window.seen = c.window.ordered.toFinset ∧
      (c.window.ordered.length : ℤ) ≤ max 1 maximum := by
  intro c
  have h : InStep maximum c := inStep_calls maximum gauges signatures
  refine ⟨?_, h.distinct, h.seen, ?_⟩
  · have hadd : (c.window.add c.gauges signature).1 = false ↔ signature ∈ c.window.seen := by
      by_cases hseen : signature ∈ c.window.seen <;> simp [SignatureWindow.add, hseen]
    rw [hadd, h.seen, List.mem_toFinset, h.ordered]
    rfl
  · have hlength := length_rtake_le (capacity maximum) c.accepted
    rw [h.ordered]
    unfold capacity at hlength ⊢
    omega

end Connection

end Aibot.Monitor
