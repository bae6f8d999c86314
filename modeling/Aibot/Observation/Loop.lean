/-
`observation_loop`: the sampler with its two queues, step by step, among the other writers of the
ledger. Each step is one locked write, one quote with the write it leads to, or a move between two
of them. A write that does not get its lock raises `StateLockTimeout` and saves nothing.
-/
import Aibot.Observation.Due
import Aibot.Observation.Shadow

namespace Aibot.Observation

open Aibot.Risk

/-! ## Samples and attempts -/

/-- `_PendingSampleAttempt`: a failed quote whose attempt is not counted yet. -/
structure PendingSampleAttempt where
  observationId : ObservationId
  interval : Interval
  targetAtEpoch : Int
  error : String
  sampledAtEpoch : Int
  deriving DecidableEq, Repr

/-- The error a failed quote ends with. -/
def finalError (sampledAtEpoch targetAtEpoch : Int) (error : String) : String :=
  if horizonSampleIsMissed sampledAtEpoch targetAtEpoch then "HORIZON_MISSED" else error

/-- The result after the last attempt. -/
def PendingSampleAttempt.result (p : PendingSampleAttempt) : SampleResult :=
  ⟨p.observationId, p.interval, none, some (finalError p.sampledAtEpoch p.targetAtEpoch p.error),
    some p.sampledAtEpoch⟩

/-- What the quote of a worker comes to. -/
inductive QuoteOutcome
  | quoted (outAmount : Int)
  | noRoute (error : String)
  | failed (error : String)
  deriving DecidableEq, Repr

/-- `sample_due`, up to the write of an attempt: a result, or a failed quote. -/
def sampleDue (c : DueSample) (attemptedAt sampledAt : Int) (outcome : QuoteOutcome) :
    SampleResult ⊕ PendingSampleAttempt :=
  if horizonSampleIsMissed attemptedAt c.targetAtEpoch then
    .inl ⟨c.observationId, c.interval, none, some "HORIZON_MISSED", some attemptedAt⟩
  else match outcome with
    | .quoted outAmount =>
      if horizonSampleIsMissed sampledAt c.targetAtEpoch then
        .inl ⟨c.observationId, c.interval, none, some "HORIZON_MISSED", some sampledAt⟩
      else .inl ⟨c.observationId, c.interval, some outAmount, none, some sampledAt⟩
    | .noRoute error => .inl ⟨c.observationId, c.interval, none,
        some (finalError sampledAt c.targetAtEpoch error), some sampledAt⟩
    | .failed error => .inr ⟨c.observationId, c.interval, c.targetAtEpoch, error, sampledAt⟩

/-- The snapshots that `_emit_sample_side_effects` records, one an observation. -/
def sampleSideEffects : List ObservationId → List AppliedSample → List Row
  | _, [] => []
  | completedIds, item :: applied =>
    match item.completedSnapshot with
    | none => sampleSideEffects completedIds applied
    | some row =>
      if item.result.observationId ∈ completedIds then sampleSideEffects completedIds applied
      else row :: sampleSideEffects (item.result.observationId :: completedIds) applied

/-! ## The loop -/

/-- A worker of `run_due_sample_batch`: at its candidate, or done. -/
inductive Worker
  | waiting (c : DueSample)
  | done (result : Option SampleResult)

/-- The result of a worker that is done with one. -/
def Worker.result : Worker → Option SampleResult
  | .waiting _ => none
  | .done result => result

def Worker.isDone : Worker → Bool
  | .waiting _ => false
  | .done _ => true

/-- The two calls of `record_sample_batch`: of what was pending, and of what a scan has brought. -/
inductive BatchCall
  | pending (recoveredAttemptWrites : Bool)
  | scanned
  deriving DecidableEq, Repr

/-- Where the loop is. -/
inductive LoopPhase
  /-- At the start of a tick. -/
  | top
  /-- In the retry of the attempts that are left. -/
  | retrying (items : List PendingSampleAttempt) (recoveredAttemptWrites : Bool)
  /-- At a call of `record_sample_batch`. -/
  | batching (call : BatchCall)
  /-- In the side effects of a committed batch, with the snapshots that are left. -/
  | emitting (todo : List Row) (call : BatchCall)
  /-- At the due scan. -/
  | scanning
  | sampling (workers : List Worker)
  /-- An exception other than a timeout ends the loop. -/
  | raised

/-- The loop, the two documents it writes, and the backfills that have read but not written.
`completed` is history: the executable observations that a batch completed. -/
structure Observer where
  rows : List Row
  shadow : ShadowLedger
  backfills : Nat → Option (List ShadowTrade)
  phase : LoopPhase
  pendingFinalized : List SampleResult
  pendingSampleAttempts : List PendingSampleAttempt
  completed : List ObservationId

/-- The loop starts on the documents it finds. -/
def Observer.start (rows : List Row) (shadow : ShadowLedger) : Observer :=
  ⟨rows, shadow, fun _ => none, .top, [], [], []⟩

inductive ObserverAct
  /-- Another task or process writes the observation ledger. -/
  | writes (op : ObservationOp)
  /-- A drain persists its markers. -/
  | markers (snapshots : List Row)
  | backfillReads (backfill : Nat) (existingIds : List ObservationId) (now : Int)
  | backfillWrites (backfill : Nat)
  /-- The loop moves on without a write. -/
  | proceed
  | retry (locked : Bool)
  | batch (locked : Bool) (now : Int)
  | emit (locked : Bool) (now : Int)
  | scan (locked : Bool) (now : Int)
  | sample (worker : Nat) (attemptedAt sampledAt : Int) (outcome : QuoteOutcome) (locked : Bool)

/-- The loop alone takes samples. -/
def ObservationOp.sampling : ObservationOp → Bool
  | .sampleAttempt .. | .sampleBatch .. => true
  | _ => false

/-- The executable observations that a batch completes. -/
def newlyCompleted (rows touched : List Row) : List ObservationId :=
  (touched.filter fun row => row.status = .complete && row.quoteStatus = "EXECUTABLE" &&
    (findRow rows row.observationId).any fun row => row.status ≠ .complete).map Row.observationId

/-- After the first call of `record_sample_batch`: the tick ends if attempts were recovered. -/
def afterPending (recoveredAttemptWrites : Bool) : LoopPhase :=
  if recoveredAttemptWrites then .top else .scanning

/-- After a call of `record_sample_batch` and its side effects. -/
def BatchCall.next : BatchCall → LoopPhase
  | .pending recoveredAttemptWrites => afterPending recoveredAttemptWrites
  | .scanned => .top

/-- A move without a write. -/
def Observer.proceed (s : Observer) : Option Observer :=
  match s.phase with
  | .top =>
    match s.pendingSampleAttempts with
    | [] => some { s with phase := .batching (.pending false) }
    | items => some { s with phase := .retrying items false, pendingSampleAttempts := [] }
  | .retrying [] recovered =>
    if s.pendingSampleAttempts.isEmpty then some { s with phase := .batching (.pending recovered) }
    else some { s with phase := .top }
  | .batching (.pending recovered) =>
    if s.pendingFinalized.isEmpty then some { s with phase := afterPending recovered } else none
  | .emitting [] call => some { s with phase := call.next, pendingFinalized := [] }
  | .sampling workers =>
    if workers.all Worker.isDone then
      let finalized := workers.filterMap Worker.result
      if finalized.isEmpty then some { s with phase := .top }
      else some { s with
        phase := .batching .scanned
        pendingFinalized := s.pendingFinalized ++ finalized }
    else none
  | _ => none

/-- The retry of the next attempt. -/
def Observer.retry (s : Observer) (locked : Bool) : Option Observer :=
  match s.phase with
  | .retrying (item :: items) recovered =>
    if locked then
      let x := recordSampleAttempt item.observationId item.interval s.rows
      some { s with
        rows := x.2.rows
        phase := .retrying items true
        pendingFinalized :=
          if x.1 < maxSampleAttempts then s.pendingFinalized else s.pendingFinalized ++ [item.result] }
    else some { s with
      phase := .retrying [] recovered
      pendingSampleAttempts := s.pendingSampleAttempts ++ item :: items }
  | _ => none

/-- The ledger write of `record_sample_batch`. -/
def Observer.batch (s : Observer) (locked : Bool) (now : Int) : Option Observer :=
  match s.phase with
  | .batching call =>
    if s.pendingFinalized.isEmpty then none
    else if locked then
      match recordSampleBatch s.pendingFinalized now s.rows with
      | .error _ => some { s with phase := .raised }
      | .ok (applied, w) => some { s with
          rows := w.rows
          phase := .emitting (sampleSideEffects [] applied) call
          completed := s.completed ++ newlyCompleted s.rows w.touched }
    else some { s with phase := .top }
  | _ => none

/-- The next side effect of a committed batch: `record_completed_shadow_trade`. -/
def Observer.emit (s : Observer) (locked : Bool) (now : Int) : Option Observer :=
  match s.phase with
  | .emitting (row :: todo) call =>
    match completedShadowTrade row now with
    | none => some { s with phase := .emitting todo call }
    | some trade =>
      if locked then some { s with
        shadow := (recordCompletedShadowTrade trade s.shadow).2
        phase := .emitting todo call }
      else some { s with phase := .top }
  | _ => none

/-- The due scan, which only reads. -/
def Observer.scan (s : Observer) (locked : Bool) (now : Int) : Option Observer :=
  match s.phase with
  | .scanning =>
    if locked then some { s with phase := .sampling ((dueObservationSamples now s.rows).map .waiting) }
    else some { s with phase := .top }
  | _ => none

/-- A worker's quote, and the attempt it counts when the quote fails. -/
def Observer.sample (s : Observer) (worker : Nat) (attemptedAt sampledAt : Int) (outcome : QuoteOutcome)
    (locked : Bool) : Option Observer :=
  match s.phase with
  | .sampling workers =>
    match workers[worker]? with
    | some (.waiting c) =>
      match sampleDue c attemptedAt sampledAt outcome with
      | .inl result => some { s with phase := .sampling (workers.set worker (.done (some result))) }
      | .inr p =>
        if locked then
          let x := recordSampleAttempt p.observationId p.interval s.rows
          some { s with
            rows := x.2.rows
            phase := .sampling (workers.set worker
              (.done (if maxSampleAttempts ≤ x.1 then some p.result else none))) }
        else some { s with
          phase := .sampling (workers.set worker (.done none))
          pendingSampleAttempts := s.pendingSampleAttempts ++ [p] }
    | _ => none
  | _ => none

/-- One step. The workers take their turns in any order. -/
def Observer.step (s : Observer) : ObserverAct → Option Observer
  | .writes op => if op.sampling then none else some { s with rows := (op.write s.rows).rows }
  | .markers snapshots => some { s with rows := (persistArchiveMarkers snapshots s.rows).rows }
  | .backfillReads b existingIds now => some { s with
      backfills := Function.update s.backfills b (some (backfillCandidates s.rows existingIds now)) }
  | .backfillWrites b =>
    match s.backfills b with
    | none => none
    | some candidates => some { s with
        shadow := (backfillCompletedShadowTrades candidates s.shadow).2
        backfills := Function.update s.backfills b none }
  | .proceed => s.proceed
  | .retry locked => s.retry locked
  | .batch locked now => s.batch locked now
  | .emit locked now => s.emit locked now
  | .scan locked now => s.scan locked now
  | .sample worker attemptedAt sampledAt outcome locked =>
    s.sample worker attemptedAt sampledAt outcome locked

end Aibot.Observation
