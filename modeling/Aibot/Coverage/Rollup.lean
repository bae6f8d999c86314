/-
The hourly rollups of the coverage telemetry: the flushes of any number of processes write one raw document
and refresh the hours from what they have written. An hour is built again from the raw buckets there are,
and replaces the stored one when it is built from at least as many.
-/
import Aibot.Coverage.Flush

namespace Aibot.Coverage

def EXPECTED_BUCKETS_PER_HOUR : Nat := HOUR_SECONDS / BUCKET_SECONDS

def MAX_HOURLY_ROLLUPS : Nat := 72

/-! ## Hours -/

inductive HourStatus
  | complete
  /-- `PARTIAL`. -/
  | incomplete
  | missing
deriving DecidableEq

structure Hour (μ : Type) where
  hourStartEpoch : ℤ
  sourceBucketStarts : List ℤ
  sourceBucketCount : Nat
  missingSourceBucketStarts : List ℤ
  status : HourStatus
  complete : Bool
  overflow : Bool
  saturation : Bool
  /-- The fields that an hour has in common with a bucket. -/
  merged : Bucket μ

/-- The starts of the buckets of an hour. -/
def expectedStarts (hour : ℤ) : List ℤ :=
  (List.range EXPECTED_BUCKETS_PER_HOUR).map fun index : Nat => hour + index * BUCKET_SECONDS

/-- The hours of the window that ends with the hour of the time. -/
def expectedHours (now : ℚ) : List ℤ :=
  (List.range MAX_HOURLY_ROLLUPS).map fun index : Nat =>
    (hourStart now : ℤ) - MAX_HOURLY_ROLLUPS * HOUR_SECONDS + index * HOUR_SECONDS

section Hours

variable {μ : Type} (env : Env μ)

/-- The bitmap of the metric has no bit left. -/
def Metric.saturated (metric : Metric) : Bool := metric.uniqueBitmap = BitVec.allOnes UNIQUE_BITMAP_BITS

/-- `_hour_is_saturated(hour)`. -/
def hourIsSaturated (merged : Bucket μ) : Bool :=
  (merged.families.values.any fun stages => stages.values.any Metric.saturated) ||
    merged.rpcConfirmation.values.any Metric.saturated

/-- `_build_hourly_rollup(hour_start_epoch, raw_index)`. -/
def buildHourlyRollup (hour : ℤ) (rawIndex : Dict ℤ (Bucket μ)) : Hour μ :=
  let available := (expectedStarts hour).filter fun start => (rawIndex.get? start).isSome
  let merged := (available.filterMap rawIndex.get?).foldl env.mergeBucket (emptyBucket 0)
  { hourStartEpoch := hour
    sourceBucketStarts := available
    sourceBucketCount := available.length
    missingSourceBucketStarts := (expectedStarts hour).filter fun start => (rawIndex.get? start).isNone
    status := if available.length = EXPECTED_BUCKETS_PER_HOUR then .complete
      else if available.isEmpty then .missing else .incomplete
    complete := available.length = EXPECTED_BUCKETS_PER_HOUR
    overflow := merged.rpcDimensionOverflowEventCount ≠ 0 || merged.rpcMethodDimensionOverflowEventCount ≠ 0
    saturation := hourIsSaturated merged
    merged := merged }

/-- The raw buckets before the current hour, by their starts. -/
def rawIndex (document : List (Bucket μ)) (currentHour : Nat) : Dict ℤ (Bucket μ) :=
  Dict.ofList ((document.filter fun raw => raw.bucketStartEpoch < currentHour).map fun raw =>
    ((raw.bucketStartEpoch : ℤ), raw))

/-- The hour that is stored for a start: the one that is built, unless the prior one was built from more. -/
def selectedHour (index : Dict ℤ (Bucket μ)) (existing : Dict ℤ (Hour μ)) (start : ℤ) : Hour μ :=
  let rebuilt := buildHourlyRollup env start index
  match existing.get? start with
  | some prior => if prior.sourceBucketCount ≤ rebuilt.sourceBucketCount then rebuilt else prior
  | none => rebuilt

/-- `_refresh_hourly_rollups_body(raw_document, now_epoch)`. -/
def refreshHours (now : ℚ) (document : List (Bucket μ)) (hours : List (Hour μ)) : List (Hour μ) :=
  let existing := Dict.ofList (hours.map fun hour => (hour.hourStartEpoch, hour))
  let selected := (expectedHours now).map (selectedHour env (rawIndex document (hourStart now)) existing)
  selected.drop (selected.length - MAX_HOURLY_ROLLUPS)

end Hours

/-! ## Processes -/

/-- The globals of a process. -/
structure Process (μ : Type) where
  pending : Buckets μ
  lastRawHeartbeatBucketStart : Option Nat
  lastHourlyRefreshBucketStart : Option Nat

def Process.initial {μ : Type} : Process μ := ⟨.empty, none, none⟩

/-- The raw document as a flush wrote it. -/
structure Version (μ : Type) where
  now : ℚ
  buckets : List (Bucket μ)

/-- The processes, the flushes under way and the two files. -/
structure Host (μ : Type) where
  clock : ℚ
  processes : Nat → Process μ
  /-- The flushes before their write, with their processes. -/
  flushing : List (Nat × Flush μ)
  /-- The raw documents so far; the file has the last one. -/
  versions : List (Version μ)
  /-- The flushes that have written a version and still have to refresh the hours from it. -/
  refreshing : List (Nat × Nat)
  hours : List (Hour μ)
  /-- The version that the hours were last refreshed from. -/
  refreshed : Nat

/-- No file, and no process that has done anything. -/
def Host.initial {μ : Type} : Host μ := ⟨0, fun _ => .initial, [], [], [], [], 0⟩

/-- The buckets in the raw document. -/
def Host.document {μ : Type} (s : Host μ) : List (Bucket μ) := (s.versions.getLast?.map Version.buckets).getD []

/-- The host with another state of a process. -/
def Host.withProcess {μ : Type} (s : Host μ) (process : Nat) (p : Process μ) : Host μ :=
  { s with processes := Function.update s.processes process p }

inductive HostOp (μ : Type)
  | record (process : Nat) (event : Event μ)
  /-- A flush starts and detaches the pending buckets of its process. -/
  | detach (process : Nat) (now : ℚ)
  /-- The raw document of the flush is written. -/
  | save (flush : Nat)
  /-- `update_json` raises, and the batch is merged back. -/
  | fail (flush : Nat)
  /-- The refresh of the hours after a write succeeds or raises. -/
  | refresh (place : Nat) (done : Bool)
  /-- The process ends, and its flushes with it. -/
  | stop (process : Nat)

section Step

variable {μ : Type} (env : Env μ)

/-- The step of a call. The time of the flushes does not go back. -/
def hostStep (s : Host μ) : HostOp μ → Option (Host μ)
  | .record process event =>
    let p := s.processes process
    if event.supported then
      some (s.withProcess process { p with pending := changePending event.start (env.add · event) p.pending })
    else none
  | .detach process now =>
    let p := s.processes process
    let rollupNeeded := p.lastHourlyRefreshBucketStart ≠ some (hourStart now) ||
      p.pending.entries.any fun item => hourStart item.1 < hourStart now
    let needed := !p.pending.entries.isEmpty || p.lastRawHeartbeatBucketStart ≠ some (bucketStart now) || rollupNeeded
    if s.clock ≤ now then
      some { s.withProcess process { p with pending := .empty } with
        clock := now
        flushing := if needed then s.flushing ++ [(process, ⟨now, p.pending, rollupNeeded⟩)] else s.flushing }
    else none
  | .save i => s.flushing[i]?.map fun (process, flush) =>
    { s.withProcess process
        { s.processes process with lastRawHeartbeatBucketStart := some (bucketStart flush.now) } with
      flushing := s.flushing.eraseIdx i
      versions := s.versions ++ [⟨flush.now, mutate env flush.now flush.pending s.document⟩]
      refreshing := if flush.rollupNeeded then s.refreshing ++ [(process, s.versions.length)] else s.refreshing }
  | .fail i => s.flushing[i]?.map fun (process, flush) =>
    let p := s.processes process
    { s.withProcess process { p with pending := mergePendingBack env flush.pending p.pending } with
      flushing := s.flushing.eraseIdx i }
  | .refresh i done =>
    s.refreshing[i]?.bind fun (process, place) => s.versions[place]?.map fun version =>
      if done then
        { s.withProcess process
            { s.processes process with lastHourlyRefreshBucketStart := some (hourStart version.now) } with
          refreshing := s.refreshing.eraseIdx i
          hours := refreshHours env version.now version.buckets s.hours
          refreshed := place }
      else { s with refreshing := s.refreshing.eraseIdx i }
  | .stop process => some { s.withProcess process .initial with
      flushing := s.flushing.filter fun entry => entry.1 ≠ process
      refreshing := s.refreshing.filter fun entry => entry.1 ≠ process }

end Step

end Aibot.Coverage
