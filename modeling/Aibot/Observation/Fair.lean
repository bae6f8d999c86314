/-
The selection of a tick as `_select_due_sample_batch` computes it: the timely samples by their deadline,
and in the room that is left the backlog, one sample of each observation in turn. The loop of the recovery
walks the keys of a dictionary from which it takes; `fairRecoveryCandidates` is what it returns.
-/
import Aibot.Lib.Turns
import Aibot.Observation.Due

namespace Aibot.Observation

open Aibot.Risk

/-! ## The loop of the source -/

/-- `limit`, as the source bounds it. -/
def boundedLimit (limit : Option Int) : Nat := (limit.getD observationSampleBatchSize).toNat

/-- The loop of `_fair_recovery_candidates`; none out of fuel, or where a queue is missing or empty. -/
def fairRecoveryLoop (fuel : Nat) (candidates : List DueSample) (limit : Nat) : Option (List DueSample) :=
  Turns.rounds limit fuel ⟨recoveryQueues candidates, []⟩

/-- The candidate is within its sample window. -/
def DueSample.timely (now : Int) (c : DueSample) : Bool := ¬ horizonSampleIsMissed now c.targetAtEpoch

/-- `_select_due_sample_batch`, with the loop of the recovery. -/
def selectDueSampleBatchLoop (fuel : Nat) (due : List DueSample) (now : Int) (limit : Option Int) :
    Option (List DueSample) :=
  let selected := (due.filter (DueSample.timely now)).take (boundedLimit limit)
  let remaining := boundedLimit limit - selected.length
  if remaining ≤ 0 then some selected
  else (fairRecoveryLoop fuel (due.filter fun c => !c.timely now) remaining).map (selected ++ ·)

/-! ## The queue at the front -/

section Turns

variable {κ α : Type*} [DecidableEq κ] {limit : Nat}

/-- A round takes from the queues in their order, and what is left of them waits behind the others. -/
theorem round_takeInTurn : ∀ {todo done : List (κ × List α)} {s s' : Turns.State κ α},
    s.queues.entries = done ++ todo → s.selected.length < limit →
    Turns.round limit (todo.map Prod.fst) s = some s' →
      s.selected ++ takeInTurn (limit - s.selected.length) ((todo ++ done).map Prod.snd) =
        s'.selected ++ takeInTurn (limit - s'.selected.length) (s'.queues.entries.map Prod.snd)
  | [], done, s, s', hqueues, _, h => by
    obtain rfl := Option.some.inj h
    rw [hqueues, List.append_nil, List.nil_append]
  | (k, []) :: todo, done, s, s', hqueues, _, h => by
    rw [List.map_cons, Turns.round, Dict.get?_of_split hqueues] at h
    cases h
  | (k, x :: queue) :: todo, done, s, s', hqueues, hlt, h => by
    rw [List.map_cons, Turns.round, Dict.get?_of_split hqueues] at h
    dsimp only at h
    have hlength : (s.take k x queue).selected.length = s.selected.length + 1 := List.length_append
    have htake : s.selected ++ takeInTurn (limit - s.selected.length) (((k, x :: queue) :: todo ++ done).map Prod.snd) =
        (s.take k x queue).selected ++ takeInTurn (limit - (s.take k x queue).selected.length)
          ((todo ++ done).map Prod.snd ++ if queue.isEmpty then [] else [queue]) := by
      obtain ⟨m, hm⟩ : ∃ m, limit - s.selected.length = m + 1 := ⟨limit - s.selected.length - 1, by omega⟩
      have hm' : limit - (s.take k x queue).selected.length = m := by omega
      rw [hm, hm', List.cons_append, List.map_cons, takeInTurn]
      unfold Turns.State.take
      simp
    rw [htake]
    split_ifs at h with hlimit
    · obtain rfl := Option.some.inj h
      rw [Nat.sub_eq_zero_of_le hlimit, takeInTurn, takeInTurn]
    · by_cases hempty : queue.isEmpty = true
      · have hentries : (s.take k x queue).queues.entries = done ++ todo := by
          unfold Turns.State.take
          rw [if_pos hempty]
          exact Dict.entries_erase_split hqueues
        rw [← round_takeInTurn hentries (not_le.1 hlimit) h, if_pos hempty, List.append_nil]
      · have hentries : (s.take k x queue).queues.entries = (done ++ [(k, queue)]) ++ todo := by
          unfold Turns.State.take
          rw [if_neg hempty, List.append_assoc]
          exact Dict.entries_set_split hqueues queue
        rw [← round_takeInTurn hentries (not_le.1 hlimit) h, if_neg hempty]
        simp

/-- The loop of the source takes what `takeInTurn` takes. -/
theorem rounds_takeInTurn : ∀ {fuel : Nat} {s : Turns.State κ α} {selected : List α},
    Turns.rounds limit fuel s = some selected →
      s.selected ++ takeInTurn (limit - s.selected.length) (s.queues.entries.map Prod.snd) = selected
  | fuel, s, selected, h => by
    by_cases hstop : s.queues.entries.isEmpty ∨ limit ≤ s.selected.length
    · have hselected : s.selected = selected := by
        cases fuel <;>
        · unfold Turns.rounds at h
          rw [if_pos hstop] at h
          exact Option.some.inj h
      rw [← hselected]
      rcases hstop with hempty | hlimit
      · rw [List.isEmpty_iff.1 hempty]
        cases limit - s.selected.length <;> simp [takeInTurn]
      · rw [Nat.sub_eq_zero_of_le hlimit]
        simp [takeInTurn]
    · cases fuel with
      | zero =>
        unfold Turns.rounds at h
        rw [if_neg hstop] at h
        cases h
      | succ fuel =>
        unfold Turns.rounds at h
        rw [if_neg hstop] at h
        obtain ⟨s', hround, h⟩ := Option.bind_eq_some_iff.1 h
        have hentries : s.queues.entries = [] ++ s.queues.entries := rfl
        have hturn := round_takeInTurn hentries (by omega) hround
        rw [List.append_nil] at hturn
        rw [hturn]
        exact rounds_takeInTurn h

end Turns

/-! ## Fairness -/

/-- `_fair_recovery_candidates`: the loop ends, with what `fairRecoveryCandidates` returns. -/
theorem fairRecoveryLoop_eq (candidates : List DueSample) {limit fuel : Nat} (hfuel : limit ≤ fuel) :
    fairRecoveryLoop fuel candidates limit = some (fairRecoveryCandidates candidates limit) ∧
      Turns.InTurn DueSample.observationId candidates (fairRecoveryCandidates candidates limit) ∧
      (fairRecoveryCandidates candidates limit).length = min limit candidates.length := by
  obtain ⟨selected, hrounds, hturn, hlength⟩ := Turns.inTurn_spec DueSample.observationId candidates hfuel
  have hselected : fairRecoveryCandidates candidates limit = selected := rounds_takeInTurn hrounds
  rw [hselected]
  exact ⟨hrounds, hturn, hlength⟩

/-- `_select_due_sample_batch`: with enough fuel the loop gives the batch. -/
theorem selectDueSampleBatchLoop_eq (due : List DueSample) (now : Int) (limit : Option Int) {fuel : Nat}
    (hfuel : boundedLimit limit ≤ fuel) :
    selectDueSampleBatchLoop fuel due now limit = some (selectDueSampleBatch due now (boundedLimit limit)) := by
  have hbacklog : (due.filter fun c => !c.timely now) =
      due.filter fun c => horizonSampleIsMissed now c.targetAtEpoch :=
    List.filter_congr fun c _ => by simp [DueSample.timely]
  unfold selectDueSampleBatchLoop selectDueSampleBatch
  dsimp only
  rw [hbacklog]
  split_ifs with hfull
  · have hnone : boundedLimit limit - ((due.filter fun c => ¬ horizonSampleIsMissed now c.targetAtEpoch).take
        (boundedLimit limit)).length = 0 := Nat.le_zero.1 hfull
    rw [hnone, fairRecoveryCandidates, takeInTurn, List.append_nil]
    rfl
  · rw [(fairRecoveryLoop_eq _ (by omega)).1]
    rfl

/-! ## The scan -/

theorem DueSample.le_total (a b : DueSample) : a.le b ∨ b.le a := by
  have hid := String.le_total a.observationId b.observationId
  unfold DueSample.le
  rcases hid with hid | hid <;> simp only [hid, and_true] <;> omega

theorem DueSample.le_trans {a b c : DueSample} (hab : a.le b) (hbc : b.le c) : a.le c := by
  unfold DueSample.le at *
  rcases hab with hab | ⟨hab, hab' | ⟨hab', hid⟩⟩ <;> rcases hbc with hbc | ⟨hbc, hbc' | ⟨hbc', hid'⟩⟩ <;>
    first
    | omega
    | exact .inr ⟨hab.trans hbc, .inr ⟨hab'.trans hbc', String.le_trans hid hid'⟩⟩

/-- `_due_sample_candidates`: the candidates stand in the order of the scan. -/
theorem pairwise_dueSampleCandidates (rows : List Row) (now : Int) :
    (dueSampleCandidates rows now).Pairwise DueSample.le := by
  have : Std.Total DueSample.le := ⟨DueSample.le_total⟩
  have : IsTrans DueSample DueSample.le := ⟨fun _ _ _ => DueSample.le_trans⟩
  exact List.pairwise_insertionSort ..

/-! ## The batch -/

/-- The samples of an observation. -/
def samplesOf (id : ObservationId) (cs : List DueSample) : List DueSample := cs.filter fun c => c.observationId = id

end Aibot.Observation
