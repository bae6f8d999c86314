/-
Which samples are due, and which of them a tick takes: the timely ones by their deadline, and with
the room that is left the backlog, one sample of each observation in turn.
-/
import Aibot.Lib.Dict
import Aibot.Observation.Row

namespace Aibot.Observation

open Aibot.Risk

/-- The place of a horizon in `OBSERVATION_INTERVALS`. -/
def Interval.order (i : Interval) : Nat := observationIntervals.idxOf i

/-- A due sample: the candidate tuple of the scan. -/
structure DueSample where
  observationId : ObservationId
  interval : Interval
  mint : Mint
  tokenAmountRaw : Int
  targetAtEpoch : Int
  deriving DecidableEq, Repr

/-- The order of the scan: by deadline, then by horizon, then by id. -/
def DueSample.le (a b : DueSample) : Prop :=
  a.targetAtEpoch < b.targetAtEpoch ∨ a.targetAtEpoch = b.targetAtEpoch ∧
    (a.interval.order < b.interval.order ∨
      a.interval.order = b.interval.order ∧ a.observationId ≤ b.observationId)

instance (a b : DueSample) : Decidable (a.le b) := inferInstanceAs (Decidable (_ ∨ _ ∧ (_ ∨ _ ∧ _)))

/-- The horizons of a row that have passed without a sample. -/
def Row.dueSamples (row : Row) (now : Int) : List DueSample :=
  (observationIntervals.filter fun i =>
    i ∉ row.completedIntervals ∧ row.startedAtEpoch + i.delay ≤ now).map fun i =>
      { observationId := row.observationId
        interval := i
        mint := row.mint
        tokenAmountRaw := row.tokenAmountRaw
        targetAtEpoch := row.startedAtEpoch + i.delay }

/-- `_due_sample_candidates`. -/
def dueSampleCandidates (rows : List Row) (now : Int) : List DueSample :=
  List.insertionSort DueSample.le
    ((rows.filter fun row => row.status = .pending).flatMap fun row => row.dueSamples now)

/-- `horizon_sample_is_missed`. -/
def horizonSampleIsMissed (now targetAtEpoch : Int) : Prop := maxHorizonSampleLag < now - targetAtEpoch

instance (now targetAtEpoch : Int) : Decidable (horizonSampleIsMissed now targetAtEpoch) :=
  inferInstanceAs (Decidable (_ < _))

/-- The queues of the recovery, one an observation, in the order of their first samples. -/
def recoveryQueues (candidates : List DueSample) : Dict ObservationId (List DueSample) :=
  candidates.foldl (fun queues c =>
    queues.set c.observationId ((queues.get? c.observationId).getD [] ++ [c])) Dict.empty

/-- One sample of each queue in turn, up to the limit: a queue that is not empty goes to the back. -/
def takeInTurn {α : Type*} : Nat → List (List α) → List α
  | 0, _ => []
  | _ + 1, [] => []
  | _ + 1, [] :: _ => []
  | limit + 1, (x :: queue) :: queues =>
    x :: takeInTurn limit (queues ++ if queue.isEmpty then [] else [queue])

/-- `_fair_recovery_candidates`. -/
def fairRecoveryCandidates (candidates : List DueSample) (limit : Nat) : List DueSample :=
  takeInTurn limit ((recoveryQueues candidates).entries.map Prod.snd)

/-- `_select_due_sample_batch`. -/
def selectDueSampleBatch (due : List DueSample) (now : Int) (limit : Nat) : List DueSample :=
  let timely := due.filter fun c => ¬ horizonSampleIsMissed now c.targetAtEpoch
  let selected := timely.take limit
  let historical := due.filter fun c => horizonSampleIsMissed now c.targetAtEpoch
  selected ++ fairRecoveryCandidates historical (limit - selected.length)

/-- `due_observation_samples`. -/
def dueObservationSamples (now : Int) (rows : List Row) : List DueSample :=
  selectDueSampleBatch (dueSampleCandidates rows now) now observationSampleBatchSize

end Aibot.Observation
