/-
Keeping the n largest items of a stream: a heap, kept here in ascending order, takes an item while it
has room, and afterwards in place of its least item where the new one is larger. What it holds does not
depend on the order of the stream.
-/
import Mathlib.Data.List.Sort
import Mathlib.Tactic

namespace Aibot.Largest

variable {α ρ : Type*} [LinearOrder ρ] (key : α → ρ) (n : Nat)

/-- `heapq.heappush`, of a heap in ascending order. -/
def push (heap : List α) (a : α) : List α := heap.orderedInsert (fun b c => key b ≤ key c) a

/-- One item of the stream. -/
def offer (heap : List α) (a : α) : List α :=
  if heap.length < n then push key heap a
  else
    match heap with
    | [] => []
    | least :: rest => if key least < key a then push key rest a else least :: rest

/-- The list has the n largest of the items, in ascending order. -/
structure Greatest (items : Set α) (kept : List α) : Prop where
  ascending : kept.Pairwise fun a b => key a < key b
  mem : ∀ a ∈ kept, a ∈ items
  length : kept.length ≤ n
  rest : ∀ a ∈ items, a ∉ kept → kept.length = n ∧ ∀ b ∈ kept, key a < key b

variable {key n}

instance keyIrrefl : Std.Irrefl fun a b : α => key a < key b := ⟨fun a => lt_irrefl (key a)⟩

instance keyTrans : IsTrans α fun a b : α => key a < key b := ⟨fun _ _ _ => lt_trans⟩

/-! ## The specification has one answer -/

theorem Greatest.subset {items : Set α} {kept kept' : List α} (h : Greatest key n items kept)
    (h' : Greatest key n items kept') : kept ⊆ kept' := by
  intro a ha
  by_contra hout
  obtain ⟨hfull, habove⟩ := h'.rest a (h.mem a ha) hout
  -- the other list has n items, none of them this one, so one of them is missing here
  have hmissing : ∃ b ∈ kept', b ∉ kept := by
    by_contra hall
    have hsubset : a :: kept' ⊆ kept := by
      intro b hb
      rcases List.mem_cons.1 hb with rfl | hb
      · exact ha
      · by_contra hb'
        exact hall ⟨b, hb, hb'⟩
    have hle := (List.subperm_of_subset (List.nodup_cons.2 ⟨hout, h'.ascending.nodup⟩) hsubset).length_le
    have hlength := h.length
    rw [List.length_cons] at hle
    omega
  obtain ⟨b, hb, hb'⟩ := hmissing
  exact lt_asymm (habove b hb) ((h.rest b (h'.mem b hb) hb').2 a ha)

theorem Greatest.unique {items : Set α} {kept kept' : List α} (h : Greatest key n items kept)
    (h' : Greatest key n items kept') : kept = kept' :=
  h.ascending.eq_of_mem_iff h'.ascending fun _ => ⟨fun ha => h.subset h' ha, fun ha => h'.subset h ha⟩

/-! ## The heap meets it -/

theorem mem_push {heap : List α} {a b : α} : b ∈ push key heap a ↔ b = a ∨ b ∈ heap := List.mem_orderedInsert ..

theorem length_push (heap : List α) (a : α) : (push key heap a).length = heap.length + 1 :=
  List.orderedInsert_length ..

theorem ascending_push {a : α} : ∀ {heap : List α}, heap.Pairwise (fun a b => key a < key b) →
    (∀ b ∈ heap, key b ≠ key a) → (push key heap a).Pairwise fun a b => key a < key b
  | [], _, _ => List.pairwise_singleton ..
  | b :: heap, h, hne => by
    obtain ⟨hb, hheap⟩ := List.pairwise_cons.1 h
    unfold push
    by_cases hle : key a ≤ key b
    · rw [List.orderedInsert_cons_of_le (r := fun b c => key b ≤ key c) _ hle]
      have hlt : key a < key b := lt_of_le_of_ne hle (hne b List.mem_cons_self).symm
      refine List.pairwise_cons.2 ⟨fun c hc => ?_, h⟩
      rcases List.mem_cons.1 hc with rfl | hc
      · exact hlt
      · exact hlt.trans (hb c hc)
    · rw [List.orderedInsert_of_not_le (r := fun b c => key b ≤ key c) _ hle]
      refine List.pairwise_cons.2 ⟨fun c hc => ?_, ascending_push hheap fun c hc => hne c (List.mem_cons_of_mem _ hc)⟩
      rcases mem_push.1 hc with rfl | hc
      · exact not_le.1 hle
      · exact hb c hc

theorem greatest_nil : Greatest key n ∅ [] where
  ascending := List.Pairwise.nil
  mem _ ha := absurd ha List.not_mem_nil
  length := Nat.zero_le _
  rest _ ha := absurd ha (Set.notMem_empty _)

/-- An item with a new key is offered. -/
theorem Greatest.offer {items : Set α} {heap : List α} (hn : 0 < n) (h : Greatest key n items heap) {a : α}
    (hnew : ∀ b ∈ items, key b ≠ key a) : Greatest key n (insert a items) (offer key n heap a) := by
  have hne : ∀ b ∈ heap, key b ≠ key a := fun b hb => hnew b (h.mem b hb)
  unfold Largest.offer
  split_ifs with hroom
  · -- there is room, so nothing was left out yet
    have hall : ∀ b ∈ items, b ∈ heap := by
      intro b hb
      by_contra hout
      exact absurd (h.rest b hb hout).1 hroom.ne
    constructor
    · exact ascending_push h.ascending hne
    · intro b hb
      exact (mem_push.1 hb).imp_right (h.mem b)
    · rw [length_push]
      exact hroom
    · intro b hb hout
      exact absurd (mem_push.2 (hb.imp_right (hall b))) hout
  · cases heap with
    | nil => exact absurd hn hroom
    | cons least rest =>
      have hfull : rest.length + 1 = n := le_antisymm h.length (not_lt.1 hroom)
      obtain ⟨hleast, hrest⟩ := List.pairwise_cons.1 h.ascending
      dsimp only
      split_ifs with hlt
      · constructor
        · exact ascending_push hrest fun b hb => hne b (List.mem_cons_of_mem _ hb)
        · intro b hb
          exact (mem_push.1 hb).imp_right fun hb => h.mem b (List.mem_cons_of_mem _ hb)
        · rw [length_push, hfull]
        · intro b hb hout
          rw [mem_push, not_or] at hout
          have hb : b ∈ items := hb.resolve_left hout.1
          refine ⟨by rw [length_push, hfull], fun c hc => ?_⟩
          -- what is left out is the least item of before, or below it
          have hbelow : key b ≤ key least := by
            by_cases hkept : b = least
            · rw [hkept]
            · have hgone : b ∉ least :: rest := by simp [hkept, hout.2]
              exact ((h.rest b hb hgone).2 least List.mem_cons_self).le
          rcases mem_push.1 hc with rfl | hc
          · exact hbelow.trans_lt hlt
          · exact hbelow.trans_lt (hleast c hc)
      · constructor
        · exact h.ascending
        · intro b hb
          exact .inr (h.mem b hb)
        · exact h.length
        · rintro b (rfl | hb) hout
          · have hbelow : key b < key least := lt_of_le_of_ne (not_lt.1 hlt) (hne least List.mem_cons_self).symm
            refine ⟨hfull, fun c hc => ?_⟩
            rcases List.mem_cons.1 hc with rfl | hc
            · exact hbelow
            · exact hbelow.trans (hleast c hc)
          · exact h.rest b hb hout

/-- A stream of items with distinct keys. -/
theorem greatest_foldl (hn : 0 < n) : ∀ {stream : List α} {items : Set α} {heap : List α},
    Greatest key n items heap → (stream.Pairwise fun a b => key a ≠ key b) →
    (∀ a ∈ items, ∀ b ∈ stream, key a ≠ key b) →
    Greatest key n {a | a ∈ stream ∨ a ∈ items} (stream.foldl (Largest.offer key n) heap)
  | [], items, heap, h, _, _ => by simpa using h
  | a :: stream, items, heap, h, hdistinct, hnew => by
    obtain ⟨ha, hstream⟩ := List.pairwise_cons.1 hdistinct
    have hoffer := h.offer hn (a := a) fun b hb => hnew b hb a List.mem_cons_self
    have hrest := greatest_foldl hn hoffer hstream (by
      rintro b (rfl | hb) c hc
      · exact ha c hc
      · exact hnew b hb c (List.mem_cons_of_mem _ hc))
    have hset : {b | b ∈ a :: stream ∨ b ∈ items} = {b | b ∈ stream ∨ b ∈ insert a items} := by
      ext b
      show (b ∈ a :: stream ∨ b ∈ items) ↔ b ∈ stream ∨ b = a ∨ b ∈ items
      rw [List.mem_cons]
      tauto
    rw [hset]
    exact hrest

theorem greatest_of_stream (hn : 0 < n) {stream : List α} (hdistinct : stream.Pairwise fun a b => key a ≠ key b) :
    Greatest key n {a | a ∈ stream} (stream.foldl (Largest.offer key n) []) := by
  have h := greatest_foldl hn greatest_nil hdistinct (fun a ha => absurd ha (Set.notMem_empty a))
  simpa using h

/-- Items that are kept together with their keys. -/
theorem Greatest.items {cohort : Set α} {kept : List (ρ × α)}
    (h : Greatest Prod.fst n {a : ρ × α | a.2 ∈ cohort ∧ a.1 = key a.2} kept) :
    Greatest key n cohort (kept.map Prod.snd) := by
  have hkey : ∀ a ∈ kept, a.1 = key a.2 := fun a ha => (h.mem a ha).2
  constructor
  · rw [List.pairwise_map]
    refine h.ascending.imp_of_mem fun ha hb hlt => ?_
    rwa [← hkey _ ha, ← hkey _ hb]
  · intro a ha
    obtain ⟨b, hb, rfl⟩ := List.mem_map.1 ha
    exact (h.mem b hb).1
  · rw [List.length_map]
    exact h.length
  · intro a ha hout
    have hpair : (key a, a) ∉ kept := fun hmem => hout (List.mem_map.2 ⟨_, hmem, rfl⟩)
    obtain ⟨hfull, habove⟩ := h.rest (key a, a) ⟨ha, rfl⟩ hpair
    refine ⟨by rwa [List.length_map], fun b hb => ?_⟩
    obtain ⟨c, hc, rfl⟩ := List.mem_map.1 hb
    rw [← hkey c hc]
    exact habove c hc

end Aibot.Largest
