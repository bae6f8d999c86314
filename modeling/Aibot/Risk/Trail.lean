/-
The trail of events over whole runs: the events of the ledger are the latest of those ever recorded,
numbered one after another from 1, and no number is given twice, however often the list is trimmed.
-/
import Aibot.Risk.Claims

namespace Aibot.Risk

open Aibot.Store

/-! ## What a call appends -/

/-- The clock reading of a call that may record a BUY or a SELL. -/
def Op.now? : Op → Option Int
  | .buy _ _ now => some now
  | .sell _ now => some now
  | _ => none

/-- A BUY or a SELL event. -/
def Event.isTrade (e : Event) : Bool := e.body.buy?.isSome || e.body.sell?.isSome

/-- What a call appends: events numbered from the counter on, the trades at the time of the call, and
the ledger keeps the last of its events. -/
structure Appends (w : World) (op : Op) (w' : World) (new : List Event) : Prop where
  recorded : w'.recorded = w.recorded ++ new
  seqs : new.map Event.eventSeq = List.range' w.ledger.nextEventSeq new.length
  next : w'.ledger.nextEventSeq = w.ledger.nextEventSeq + new.length
  kept : w'.ledger.events <:+ w.ledger.events ++ new
  times : ∀ e ∈ new, e.isTrade = true → ∃ now, op.now? = some now ∧ e.at_ = .instant now

/-- A call that appends no trade has no time to tell. -/
theorem times_of_quiet {op : Op} {new : List Event} (hsells : sells new = []) (hbuys : buys new = []) :
    ∀ e ∈ new, e.isTrade = true → ∃ now, op.now? = some now ∧ e.at_ = .instant now := by
  intro e he ht
  rcases Bool.or_eq_true_iff.1 ht with h | h
  · exact absurd (List.filterMap_eq_nil_iff.1 hbuys e he) (Option.isSome_iff_ne_none.1 h)
  · exact absurd (List.filterMap_eq_nil_iff.1 hsells e he) (Option.isSome_iff_ne_none.1 h)

/-- A trim keeps the last events. -/
theorem trimEvents_suffix (ledger : Ledger) : ledger.trimEvents.events <:+ ledger.events := by
  unfold Ledger.trimEvents
  generalize ledger.events.length - eventLimit = n
  exact List.drop_suffix n _

theorem step_appends {w w' : World} {op : Op} (h : w.step op = some w') : ∃ new, Appends w op w' new := by
  obtain ⟨-, rfl⟩ := World.step_eq_some h
  obtain ⟨ledger', v, heff, hledger⟩ := op.run_effect w.ledger
  generalize (op.run w.ledger).1 = ret at heff
  have hevents : (w.after op).ledger.events = ledger'.events := by
    show (op.run w.ledger).2.events = _
    rw [hledger]
  have hnext : (w.after op).ledger.nextEventSeq = ledger'.nextEventSeq := by
    show (op.run w.ledger).2.nextEventSeq = _
    rw [hledger]
  have hrecorded : ∀ {new}, newEvents w.ledger ledger' = new → (w.after op).recorded = w.recorded ++ new := by
    intro new hnew
    show w.recorded ++ newEvents w.ledger (op.run w.ledger).2 = _
    rw [hledger, newEvents_version, hnew]
  -- a call that only writes a position appends nothing
  have quiet : ledger'.events = w.ledger.events → ledger'.nextEventSeq = w.ledger.nextEventSeq →
      ∃ new, Appends w op (w.after op) new := by
    intro he hn
    refine ⟨[], ?_, rfl, hnext.trans hn, ?_, fun e he => by cases he⟩
    · exact hrecorded (newEvents_of_append w.ledger.events [] (by rw [he, List.append_nil]) hn)
    · rw [hevents, he, List.append_nil]
  cases heff with
  | refused hret => exact quiet rfl rfl
  | claimed hp hs => exact quiet rfl rfl
  | released hp he => exact quiet rfl rfl
  | marked hp hv => exact quiet rfl rfl
  | armed hp ht => exact quiet rfl rfl
  | quoteFailed hp => exact quiet rfl rfl
  | bought hr hfree hnew hcash =>
    refine ⟨_, hrecorded (newEvents_of_append w.ledger.events _ rfl rfl), rfl, hnext, ?_, fun e he _ => ?_⟩
    · rw [hevents]; exact List.suffix_rfl
    · rw [List.mem_singleton.1 he]; exact ⟨_, rfl, rfl⟩
  | @noted _ now body hs hb =>
    refine ⟨_, hrecorded (newEvents_trim ..), rfl, hnext, ?_, times_of_quiet ?_ ?_⟩
    · rw [hevents]; exact trimEvents_suffix _
    · simp [sells, hs]
    · simp [buys, hb]
  | @lifecycled mint positionId items p hp =>
    obtain ⟨new, hfold, hsells, hbuys, hseqs⟩ := foldl_appendEvent mint positionId items w.ledger
    rw [hfold] at hevents hnext hrecorded
    refine ⟨new, hrecorded (newEvents_of_append w.ledger.events new rfl rfl), hseqs, hnext, ?_,
      times_of_quiet hsells hbuys⟩
    rw [hevents]; exact List.suffix_rfl
  | @sold r now p _ hp hm hsold =>
    obtain ⟨-, hn, he⟩ := settle_frame r p (min r.tokenAmountRaw p.tokenAmountRaw) now w.ledger
    refine ⟨_, hrecorded (newEvents_of_append w.ledger.events _ he hn), rfl, hnext.trans hn, ?_, fun e he' _ => ?_⟩
    · rw [hevents, he]
    · rw [List.mem_singleton.1 he']; exact ⟨_, rfl, rfl⟩

/-! ## The trail -/

/-- The events ever recorded are numbered from 1, the counter is the next number, the ledger keeps the
latest, and the trades have readable times. -/
structure Trail (w : World) : Prop where
  seqs : w.recorded.map Event.eventSeq = List.range' 1 w.recorded.length
  next : w.ledger.nextEventSeq = w.recorded.length + 1
  kept : w.ledger.events <:+ w.recorded
  times : ∀ e ∈ w.recorded, e.isTrade = true → ∃ t, e.at_ = .instant t

theorem start_trail : Trail World.start := ⟨rfl, rfl, List.suffix_rfl, fun e he => by cases he⟩

theorem Trail.step {w w' : World} {op : Op} (h : Trail w) (hstep : w.step op = some w') : Trail w' := by
  obtain ⟨new, ha⟩ := step_appends hstep
  refine ⟨?_, ?_, ?_, fun e he ht => ?_⟩
  · rw [ha.recorded, List.map_append, h.seqs, ha.seqs, h.next, List.length_append,
      Nat.add_comm w.recorded.length 1, List.range'_append_1]
  · rw [ha.next, h.next, ha.recorded, List.length_append]
    omega
  · obtain ⟨old, hold⟩ := h.kept
    rw [ha.recorded]
    refine ha.kept.trans ⟨old, ?_⟩
    rw [← List.append_assoc, hold]
  · rw [ha.recorded] at he
    rcases List.mem_append.1 he with hold | hnew
    · exact h.times e hold ht
    · obtain ⟨now, -, hat⟩ := ha.times e hnew ht
      exact ⟨now, hat⟩

/-- No event is recorded twice. -/
theorem Trail.nodup {w : World} (h : Trail w) : w.recorded.Nodup := by
  have hseqs : (w.recorded.map Event.eventSeq).Nodup := by
    rw [h.seqs]; exact List.nodup_range'
  exact hseqs.of_map _

theorem run_trail {ok : World → Op → Prop} {ops : List Op} {w : World}
    (h : Run World.step ok World.start ops w) :
    Trail w :=
  h.invariant (fun _ _ _ hw _ hstep => hw.step hstep) start_trail

/-- Along the events of the ledger the numbers increase strictly; the counter is above every number
ever given; and no number was given twice. -/
theorem event_identity (ops : List Op) (w : World) (h : Run World.step Run.anyStep World.start ops w) :
    w.ledger.events.Pairwise (fun a b => a.eventSeq < b.eventSeq) ∧
      (∀ e ∈ w.recorded, e.eventSeq < w.ledger.nextEventSeq) ∧ (w.recorded.map Event.eventSeq).Nodup ∧
      w.ledger.events <:+ w.recorded := by
  have ht := run_trail h
  have hincreasing : (w.recorded.map Event.eventSeq).Pairwise (· < ·) := by
    rw [ht.seqs]; exact List.pairwise_lt_range'
  refine ⟨?_, fun e he => ?_, hincreasing.imp fun hlt => Nat.ne_of_lt hlt, ht.kept⟩
  · exact (List.pairwise_map.1 hincreasing).sublist ht.kept.sublist
  · have hseq : e.eventSeq ∈ List.range' 1 w.recorded.length := ht.seqs ▸ List.mem_map_of_mem he
    rw [ht.next]
    have := (List.mem_range'_1.1 hseq).2
    omega

/-- A buy, two lifecycle items of one call, a rejection, and the same rejection once more. -/
theorem event_identity_mixed : ∃ w : World, w.recorded.map Event.eventSeq = [1, 2, 3, 4] ∧
    w.ledger.events.Pairwise (fun a b => a.eventSeq < b.eventSeq) ∧
      (∀ e ∈ w.recorded, e.eventSeq < w.ledger.nextEventSeq) := by
  obtain ⟨w, hrun, hw⟩ : ∃ w, Run World.step Run.anyStep World.start
      [.buy sampleBuy ⟨0⟩ 0,
        .lifecycle "mint" ⟨0⟩ [⟨"SENT", .instant 1⟩, ⟨"CONFIRMED", .instant 2⟩],
        .rejection "other" 10 ["score"] "signature" 3,
        .rejection "other" 20 ["liquidity"] "signature" 4] w ∧
      w.recorded.map Event.eventSeq = [1, 2, 3, 4] := Run.exists_of_any (by decide +kernel)
  obtain ⟨hincreasing, hbelow, -⟩ := event_identity _ w hrun
  exact ⟨w, hw, hincreasing, hbelow⟩

end Aibot.Risk
