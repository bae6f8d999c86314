/-
A call that runs through: the loop processes the events of the ledger one after another up to where it ends,
and what it leaves explains each of them.
-/
import Aibot.N3.Processed

namespace Aibot.N3

open Durable (Returns returns_bind returns_lift returns_read returns_pure returns_write not_returns_raise)

/-! ## The ledger -/

section Ledger

variable {env : Env} {event : ControlEvent} {events : List ControlEvent} {s : ℤ}

/-- A ledger of the Control: numbers go up, a sale sells something, and nothing is sold before it is bought. -/
structure Sound (ledger : ControlLedger) : Prop where
  sorted : ledger.events.Pairwise fun x y => x.eventSeq < y.eventSeq
  positive : ∀ event ∈ ledger.events, ∀ sell, event.body = .sell sell → 0 < sell.tokenAmountRaw
  boughtFirst : ∀ event ∈ ledger.events, ∀ event' ∈ ledger.events, ∀ sell buy, event.body = .sell sell →
    event'.body = .buy buy → sell.positionId = buy.positionId → event'.eventSeq < event.eventSeq

theorem Sound.eventsAfter (h : Sound env.ledger) (s : ℤ) :
    eventsAfter env s = env.ledger.events.filter fun event => s < event.eventSeq := by
  unfold N3.eventsAfter
  refine List.mergeSort_of_pairwise ((h.sorted.filter _).imp fun hlt => ?_)
  exact decide_eq_true hlt.le

theorem Sound.mem_eventsAfter (h : Sound env.ledger) :
    event ∈ N3.eventsAfter env s ↔ event ∈ env.ledger.events ∧ s < event.eventSeq := by
  rw [h.eventsAfter, List.mem_filter, decide_eq_true_iff]

theorem Sound.eq_of_eventSeq (h : Sound env.ledger) {event' : ControlEvent} (hmem : event ∈ env.ledger.events)
    (hmem' : event' ∈ env.ledger.events) (heq : event.eventSeq = event'.eventSeq) : event = event' := by
  have hnodup : (env.ledger.events.map ControlEvent.eventSeq).Nodup := by
    rw [List.Nodup, List.pairwise_map]
    exact h.sorted.imp fun hlt => hlt.ne
  exact List.inj_on_of_nodup_map hnodup hmem hmem' heq

/-- The events after the first of them. -/
theorem Sound.eventsAfter_cons (h : Sound env.ledger) (hcons : N3.eventsAfter env s = event :: events) :
    N3.eventsAfter env event.eventSeq = events ∧ event ∈ env.ledger.events ∧ s < event.eventSeq ∧
      ∀ event' ∈ env.ledger.events, s < event'.eventSeq → event.eventSeq ≤ event'.eventSeq := by
  have hfirst : event ∈ env.ledger.events ∧ s < event.eventSeq := by
    rw [← h.mem_eventsAfter, hcons]
    exact List.mem_cons_self
  have hsorted : (event :: events).Pairwise fun x y => x.eventSeq < y.eventSeq := by
    rw [← hcons, h.eventsAfter]
    exact h.sorted.filter _
  obtain ⟨hlt, hrest⟩ := List.pairwise_cons.1 hsorted
  have hleast : ∀ event' ∈ env.ledger.events, s < event'.eventSeq → event.eventSeq ≤ event'.eventSeq := by
    intro event' hmem hs
    have hmem' := h.mem_eventsAfter.2 ⟨hmem, hs⟩
    rw [hcons] at hmem'
    rcases List.mem_cons.1 hmem' with rfl | hmem'
    · exact le_rfl
    · exact (hlt event' hmem').le
  refine ⟨?_, hfirst.1, hfirst.2, hleast⟩
  apply List.Pairwise.eq_of_mem_iff (r := fun x y : ControlEvent => x.eventSeq < y.eventSeq) _ hrest
  · intro event'
    rw [h.mem_eventsAfter]
    constructor
    · rintro ⟨hmem, hs⟩
      have hmem' := h.mem_eventsAfter.2 ⟨hmem, hfirst.2.trans hs⟩
      rw [hcons] at hmem'
      exact (List.mem_cons.1 hmem').resolve_left fun heq => by rw [heq] at hs; exact lt_irrefl _ hs
    · intro hmem
      have hmem' : event' ∈ N3.eventsAfter env s := by
        rw [hcons]
        exact List.mem_cons_of_mem _ hmem
      exact ⟨(h.mem_eventsAfter.1 hmem').1, hlt event' hmem⟩
  · rw [h.eventsAfter]
    exact h.sorted.filter _

end Ledger

/-! ## The loop -/

section Loop

variable {m : Machine} {manifest : Manifest} {env : Env} {mem mem' : Memory} {d d' : Sidecar}

/-- The loop ends at the variables: the cohort is closed, there is no further event, or it waits. -/
def AtEnd (m : Machine) (manifest : Manifest) (env : Env) (mem : Memory) : Prop :=
  (∃ closure, mem.closure = some closure ∧ closure.endEventSeq = mem.cursor) ∨
    mem.closure = none ∧ (eventsAfter env mem.cursor = [] ∨ ∃ event events,
      eventsAfter env mem.cursor = event :: events ∧ event.eventSeq = mem.cursor + 1 ∧
        Stalls m manifest env mem event)

/-- What the loop has done where it has run through. -/
structure Passed (m : Machine) (manifest : Manifest) (env : Env) (mem : Memory) (d : Sidecar) (mem' : Memory)
    (d' : Sidecar) : Prop where
  tidy : Tidy m mem' d'
  extends_ : Extends mem.cursor d d'
  kept : Kept d d'
  cursor : mem.cursor ≤ mem'.cursor
  contiguous : ∀ s, mem.cursor < s → s ≤ mem'.cursor → ∃ event ∈ env.ledger.events, event.eventSeq = s
  explained : ∀ event ∈ env.ledger.events, mem.cursor < event.eventSeq → event.eventSeq ≤ mem'.cursor →
    Explained m manifest env d' event
  atEnd : AtEnd m manifest env mem'

theorem passed_of_atEnd (h : Tidy m mem d) (hend : AtEnd m manifest env mem) :
    Passed m manifest env mem d mem d where
  tidy := h
  extends_ := .refl _ _
  kept := .refl _
  cursor := le_rfl
  contiguous _ hs hs' := absurd hs hs'.not_gt
  explained _ _ hs hs' := absurd hs hs'.not_gt
  atEnd := hend

/-- One event further. -/
theorem Passed.cons {mem₁ : Memory} {d₁ : Sidecar} {event : ControlEvent} (hsound : Sound env.ledger)
    (hmem : event ∈ env.ledger.events) (hseq : event.eventSeq = mem.cursor + 1)
    (hfirst : Processed m manifest env mem d event mem₁ d₁) (hrest : Passed m manifest env mem₁ d₁ mem' d')
    (hreadable : Readable m d') : Passed m manifest env mem d mem' d' where
  tidy := hrest.tidy
  extends_ := hfirst.extends_.trans hrest.extends_ (by rw [hfirst.cursor, hseq]; linarith)
  kept := hfirst.kept.trans hrest.kept
  cursor := le_trans (by rw [hfirst.cursor, hseq]; linarith) hrest.cursor
  contiguous s hs hs' := by
    rcases lt_or_ge mem₁.cursor s with hlt | hle
    · exact hrest.contiguous s hlt hs'
    · rw [hfirst.cursor] at hle
      exact ⟨event, hmem, by omega⟩
  explained event' hmem' hs hs' := by
    rcases lt_or_ge mem₁.cursor event'.eventSeq with hlt | hle
    · exact hrest.explained event' hmem' hlt hs'
    · rw [hfirst.cursor] at hle
      obtain rfl := hsound.eq_of_eventSeq hmem hmem' (by omega)
      exact hfirst.explained.mono (hfirst.cursor ▸ hrest.extends_) hreadable (.refl env)
  atEnd := hrest.atEnd

theorem observeEvents_returns (hsound : Sound env.ledger) : ∀ {events : List ControlEvent} {mem : Memory} {d : Sidecar},
    eventsAfter env mem.cursor = events → Tidy m mem d → Readable m d' →
    Returns (observeEvents m manifest env events mem) d mem' d' → Passed m manifest env mem d mem' d'
  | [], mem, d, hevents, h, _, hr => by
    obtain ⟨rfl, rfl⟩ := returns_pure.1 hr
    refine passed_of_atEnd h ?_
    cases hclosure : mem.closure with
    | none => exact .inr ⟨hclosure, .inl hevents⟩
    | some closure => exact .inl ⟨closure, hclosure, h.closure closure (h.holds.closure ▸ hclosure)⟩
  | event :: events, mem, d, hevents, h, hreadable, hr => by
    obtain ⟨hafter, hmem, hlt, -⟩ := hsound.eventsAfter_cons hevents
    obtain ⟨result, d₁, hevent, hnext⟩ := returns_bind.1 hr
    cases hclosure : mem.closure with
    | some closure =>
      -- the loop breaks before the event: it is after the closure
      have hend := h.closure closure (h.holds.closure ▸ hclosure)
      unfold observeEvent at hevent
      rw [hclosure, Option.any_some, hend, decide_eq_true hlt, if_pos rfl] at hevent
      obtain ⟨rfl, rfl⟩ := returns_pure.1 hevent
      obtain ⟨rfl, rfl⟩ := returns_pure.1 hnext
      exact passed_of_atEnd h (.inl ⟨closure, hclosure, hend⟩)
    | none =>
      obtain ⟨hseq, hcases⟩ := observeEvent_returns h hclosure (hsound.positive event hmem) hevent
      rcases hcases with ⟨rfl, rfl, hstalls⟩ | ⟨mem₁, rfl, hprocessed⟩
      · obtain ⟨rfl, rfl⟩ := returns_pure.1 hnext
        exact passed_of_atEnd h (.inr ⟨hclosure, .inr ⟨event, events, hevents, hseq, hstalls⟩⟩)
      · dsimp only at hnext
        split_ifs at hnext with hclosed
        · obtain ⟨rfl, rfl⟩ := returns_pure.1 hnext
          obtain ⟨closure, hclosure₁, -⟩ := (Option.any_eq_true ..).1 hclosed
          have hend := hprocessed.tidy.closure closure (hprocessed.tidy.holds.closure ▸ hclosure₁)
          exact (passed_of_atEnd hprocessed.tidy (.inl ⟨closure, hclosure₁, hend⟩)).cons hsound hmem hseq
            hprocessed hreadable
        · refine (observeEvents_returns hsound ?_ hprocessed.tidy hreadable hnext).cons hsound hmem hseq
            hprocessed hreadable
          rw [hprocessed.cursor]
          exact hafter

end Loop

end Aibot.N3
