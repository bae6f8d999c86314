/-
The coverage telemetry in memory (`research/coverage_telemetry.py`): metrics, buckets, the events that
are recorded into a bucket, and the merge of two buckets. A bucket has a bounded number of dimensions;
what does not fit is counted in an overflow counter.
-/
import Aibot.Lib.Conserved
import Mathlib.Data.List.Sort

namespace Aibot.Coverage

def BUCKET_SECONDS : Nat := 900

def MAX_RPC_DIMENSIONS_PER_BUCKET : Nat := 64

def MAX_RPC_METHOD_DIMENSIONS_PER_BUCKET : Nat := 64

def UNIQUE_BITMAP_BITS : Nat := 512

def FUNNEL_STAGES : List String :=
  ["poll_candidate_observed", "candidate_considered", "rpc_confirmation_started", "rpc_confirmation_succeeded",
    "rpc_confirmation_failed", "observation_created", "analyzer_started", "analyzer_completed", "analyzer_failed",
    "quote_preflight_started", "quote_preflight_failed", "prospective_eligible", "horizon_60m_due",
    "horizon_60m_successful", "horizon_60m_missed", "horizon_60m_unavailable"]

def FAMILIES : List String := ["SMART_MONEY", "MOMENTUM", "UNKNOWN"]

def RPC_RESULTS : List String := ["success", "rate_limit", "timeout", "connection", "exhausted", "other"]

def RPC_METHODS : List String :=
  ["confirmation_bundle", "getAccountInfo", "getTokenSupply", "getBalance", "getTokenAccountsByOwner",
    "getTransaction", "getSignaturesForAddress", "getHealth", "unknown"]

def RPC_PROVIDERS : List String := ["alchemy", "chainstack", "ankr", "helius", "solana_public", "router", "unknown"]

/-! ## Metrics and buckets -/

structure Metric where
  eventCount : Nat
  uniqueBitmap : BitVec UNIQUE_BITMAP_BITS
deriving DecidableEq

/-- `_stage_metric()`. -/
def stageMetric : Metric := ⟨0, 0⟩

namespace Metric

/-- One more event, of a mint with the bit. -/
def record (metric : Metric) (bit : Nat) : Metric :=
  ⟨metric.eventCount + 1, metric.uniqueBitmap ||| BitVec.ofNat _ (1 <<< bit)⟩

/-- `_merge_metric(target, source)`. -/
def merge (target source : Metric) : Metric :=
  ⟨target.eventCount + source.eventCount, target.uniqueBitmap ||| source.uniqueBitmap⟩

end Metric

/-- What the telemetry asks its platform, and the metrics of the RPC methods, which have no event
counts. -/
structure Env (μ : Type) where
  upper : String → String
  lower : String → String
  /-- `_mint_bit(mint)`. -/
  mintBit : String → Nat
  /-- `_rpc_method_metric()`. -/
  rpcMethodMetric : μ
  /-- `_merge_rpc_method_metric(target, source)`. -/
  mergeRpcMethodMetric : μ → μ → μ
  requestCount : μ → Nat

structure Bucket (μ : Type) where
  bucketStartEpoch : Nat
  families : Dict String (Dict String Metric)
  rpcConfirmation : Dict String Metric
  rpcDimensionOverflowEventCount : Nat
  rpcMethods : Dict String μ
  rpcMethodDimensionOverflowEventCount : Nat
  heartbeatSeen : Bool

/-- `_empty_bucket(bucket_start_epoch)`. -/
def emptyBucket {μ : Type} (start : Nat) : Bucket μ := ⟨start, .empty, .empty, 0, .empty, 0, false⟩

/-- `_bucket_start(timestamp)` of a timestamp that `_safe_epoch` accepts, or of the time. -/
def bucketStart (epoch : ℚ) : Nat := (epoch / BUCKET_SECONDS).floor.toNat * BUCKET_SECONDS

/-! ## Events -/

/-- The calls that record something, with the epoch that their timestamp stands for. -/
inductive Event (μ : Type)
  | funnelStage (stage mint family : String) (epoch : ℚ)
  | confirmationResult (mint family method provider result : String) (epoch : ℚ)
  /-- What the call does to its metric, and the sum of its increments. -/
  | rpcMethodMetric (provider method : String) (change : μ → μ) (increments : Nat) (epoch : ℚ)

/-- A value into a dimension of a bounded number: what does not fit is counted by its spill. -/
def addCapped {α : Type} (limit spill : Nat) (key : String) (fresh : α) (change : α → α) (dimensions : Dict String α)
    (overflow : Nat) : Dict String α × Nat :=
  match dimensions.get? key with
  | some metric => (dimensions.set key (change metric), overflow)
  | none =>
    if limit ≤ dimensions.entries.length then (dimensions, overflow + spill)
    else (dimensions.set key (change fresh), overflow)

namespace Env

variable {μ : Type} (env : Env μ)

/-- `_family(value)`. -/
def family (value : String) : String :=
  let normalized := env.upper value
  let normalized :=
    if normalized = "A" then "SMART_MONEY" else if normalized = "B" then "MOMENTUM" else normalized
  if normalized ∈ FAMILIES then normalized else "UNKNOWN"

/-- The provider as the metrics name it. -/
def provider (value : String) : String :=
  if env.lower value ∈ RPC_PROVIDERS then env.lower value else "unknown"

/-- The method as the metrics name it. -/
def method (value : String) : String := if value ∈ RPC_METHODS then value else "unknown"

/-- The result as the metrics name it. -/
def result (value : String) : String := if env.lower value ∈ RPC_RESULTS then env.lower value else "other"

/-- `_add_stage(bucket, family, stage, mint_bit)`. -/
def addStage (bucket : Bucket μ) (family stage : String) (bit : Nat) : Bucket μ :=
  let stages := (bucket.families.get? family).getD .empty
  let metric := (stages.get? stage).getD stageMetric
  { bucket with families := bucket.families.set family (stages.set stage (metric.record bit)) }

/-- What an event does to its bucket. -/
def add (bucket : Bucket μ) : Event μ → Bucket μ
  | .funnelStage stage mint family _ => addStage bucket (env.family family) stage (env.mintBit mint)
  | .confirmationResult mint family method provider result _ =>
    let key := "|".intercalate [env.family family, Env.method method, env.provider provider, env.result result]
    let added := addCapped MAX_RPC_DIMENSIONS_PER_BUCKET 1 key stageMetric (·.record (env.mintBit mint))
      bucket.rpcConfirmation bucket.rpcDimensionOverflowEventCount
    { bucket with rpcConfirmation := added.1, rpcDimensionOverflowEventCount := added.2 }
  | .rpcMethodMetric provider method change increments _ =>
    let key := "|".intercalate [env.provider provider, Env.method method]
    let added := addCapped MAX_RPC_METHOD_DIMENSIONS_PER_BUCKET (max 1 increments) key env.rpcMethodMetric change
      bucket.rpcMethods bucket.rpcMethodDimensionOverflowEventCount
    { bucket with rpcMethods := added.1, rpcMethodDimensionOverflowEventCount := added.2 }

end Env

namespace Event

variable {μ : Type}

/-- The bucket that an event is recorded into. -/
def start : Event μ → Nat
  | .funnelStage _ _ _ epoch | .confirmationResult _ _ _ _ _ epoch | .rpcMethodMetric _ _ _ _ epoch =>
    bucketStart epoch

/-- The call raises for a stage that is none. -/
def supported : Event μ → Bool
  | .funnelStage stage _ _ _ => stage ∈ FUNNEL_STAGES
  | _ => true

end Event

/-! ## Merging -/

/-- The items of a dictionary in the order of their keys. -/
def sortedItems {α : Type} (d : Dict String α) : List (String × α) :=
  d.entries.insertionSort fun p q => p.1 ≤ q.1

/-- The stages of one family. -/
def mergeStages (target source : Dict String Metric) : Dict String Metric :=
  source.entries.foldl (fun t item => t.set item.1 (((t.get? item.1).getD stageMetric).merge item.2)) target

def mergeFamilies (target source : Dict String (Dict String Metric)) : Dict String (Dict String Metric) :=
  source.entries.foldl (fun t item => t.set item.1 (mergeStages ((t.get? item.1).getD .empty) item.2)) target

/-- The dimensions of a bounded number: what does not fit is counted by its spill. -/
def mergeCapped {α : Type} (limit : Nat) (spill : α → Nat) (fresh : α) (merge : α → α → α)
    (target : Dict String α × Nat) (source : Dict String α) : Dict String α × Nat :=
  (sortedItems source).foldl
    (fun t item => addCapped limit (spill item.2) item.1 fresh (merge · item.2) t.1 t.2) target

/-- `_merge_bucket(target, source)`. -/
def Env.mergeBucket {μ : Type} (env : Env μ) (target source : Bucket μ) : Bucket μ :=
  let dimensions := mergeCapped MAX_RPC_DIMENSIONS_PER_BUCKET Metric.eventCount stageMetric Metric.merge
    (target.rpcConfirmation, target.rpcDimensionOverflowEventCount) source.rpcConfirmation
  let methods := mergeCapped MAX_RPC_METHOD_DIMENSIONS_PER_BUCKET (fun metric => max 1 (env.requestCount metric))
    env.rpcMethodMetric env.mergeRpcMethodMetric
    (target.rpcMethods, target.rpcMethodDimensionOverflowEventCount) source.rpcMethods
  { target with
    heartbeatSeen := target.heartbeatSeen || source.heartbeatSeen
    families := mergeFamilies target.families source.families
    rpcConfirmation := dimensions.1
    rpcDimensionOverflowEventCount := dimensions.2 + source.rpcDimensionOverflowEventCount
    rpcMethods := methods.1
    rpcMethodDimensionOverflowEventCount := methods.2 + source.rpcMethodDimensionOverflowEventCount }

/-! ## Counting the events of a bucket -/

section Counting

variable {μ : Type} {env : Env μ}

/-- The confirmation results of a bucket: those of its dimensions and those that did not fit. -/
def confirmations (bucket : Bucket μ) : Nat :=
  bucket.rpcConfirmation.sumOf Metric.eventCount + bucket.rpcDimensionOverflowEventCount

/-- The funnel events of a bucket. -/
def stageEvents (bucket : Bucket μ) : Nat := bucket.families.sumOf (Dict.sumOf Metric.eventCount)

/-- A count of a bucket that an event adds its weight to, that a merge adds up and that knows nothing
of the heartbeat. -/
structure Tally (env : Env μ) (count : Bucket μ → Nat) (weight : Event μ → Nat) : Prop where
  empty : ∀ start, count (emptyBucket start) = 0
  add : ∀ bucket e, count (env.add bucket e) = count bucket + weight e
  merge : ∀ target source, count (env.mergeBucket target source) = count target + count source
  heartbeat : ∀ bucket : Bucket μ, count { bucket with heartbeatSeen := true } = count bucket

/-- What goes into a capped dictionary is in its sum or in its overflow. -/
theorem sumOf_addCapped {α : Type} {limit spill : Nat} {key : String} {fresh : α} {change : α → α} {f : α → Nat}
    (hfresh : f fresh = 0) (hchange : ∀ a, f (change a) = f a + spill) (dimensions : Dict String α) (overflow : Nat) :
    (addCapped limit spill key fresh change dimensions overflow).1.sumOf f +
      (addCapped limit spill key fresh change dimensions overflow).2 = dimensions.sumOf f + overflow + spill := by
  unfold addCapped
  cases hget : dimensions.get? key with
  | some metric =>
    have := Dict.sumOf_set_add f dimensions key (change metric)
    simp only [Dict.valueOf, hget, Option.map_some, Option.getD_some, hchange] at this ⊢
    omega
  | none =>
    dsimp only
    split
    · dsimp only
      omega
    · have := Dict.sumOf_set_add f dimensions key (change fresh)
      simp only [Dict.valueOf, hget, Option.map_none, Option.getD_none, hchange, hfresh] at this ⊢
      omega

theorem sumOf_mergeCapped {α : Type} {limit : Nat} {fresh : α} {merge : α → α → α} {f : α → Nat}
    (hfresh : f fresh = 0) (hmerge : ∀ a b, f (merge a b) = f a + f b) (target : Dict String α × Nat)
    (source : Dict String α) :
    (mergeCapped limit f fresh merge target source).1.sumOf f + (mergeCapped limit f fresh merge target source).2 =
      target.1.sumOf f + target.2 + source.sumOf f := by
  have hstep : ∀ item ∈ sortedItems source, ∀ t : Dict String α × Nat, True → True ∧
      (addCapped limit (f item.2) item.1 fresh (merge · item.2) t.1 t.2).1.sumOf f +
        (addCapped limit (f item.2) item.1 fresh (merge · item.2) t.1 t.2).2 = t.1.sumOf f + t.2 + f item.2 :=
    fun item _ t _ => ⟨trivial, sumOf_addCapped hfresh (fun a => hmerge a item.2) t.1 t.2⟩
  have hfold := (foldl_quantity (fun _ => True) (fun t : Dict String α × Nat => t.1.sumOf f + t.2)
    (fun item : String × α => f item.2) hstep (b := target) trivial).2
  have hperm : ((sortedItems source).map fun item => f item.2).sum = source.sumOf f := by
    rw [Dict.sumOf_eq_sum]
    exact ((List.perm_insertionSort _ source.entries).map _).sum_eq
  rw [hperm] at hfold
  exact hfold

/-- Merging item by item adds up the sums. -/
theorem sumOf_foldl_set {α : Type} {f : α → Nat} {change : Dict String α → String × α → α}
    (hchange : ∀ t item, f (change t item) = t.valueOf f item.1 + f item.2) (target source : Dict String α) :
    (source.entries.foldl (fun t item => t.set item.1 (change t item)) target).sumOf f =
      target.sumOf f + source.sumOf f := by
  have hstep : ∀ item ∈ source.entries, ∀ t : Dict String α, True → True ∧
      (t.set item.1 (change t item)).sumOf f = t.sumOf f + f item.2 := by
    intro item _ t _
    have := Dict.sumOf_set_add f t item.1 (change t item)
    rw [hchange] at this
    exact ⟨trivial, by omega⟩
  have hfold := (foldl_quantity (fun _ => True) (Dict.sumOf f) (fun item : String × α => f item.2) hstep
    (b := target) trivial).2
  rw [Dict.sumOf_eq_sum f source]
  exact hfold

theorem sumOf_mergeStages (target source : Dict String Metric) :
    (mergeStages target source).sumOf Metric.eventCount =
      target.sumOf Metric.eventCount + source.sumOf Metric.eventCount := by
  apply sumOf_foldl_set
  intro t item
  unfold Dict.valueOf
  cases t.get? item.1 <;> rfl

theorem sumOf_mergeFamilies (target source : Dict String (Dict String Metric)) :
    (mergeFamilies target source).sumOf (Dict.sumOf Metric.eventCount) =
      target.sumOf (Dict.sumOf Metric.eventCount) + source.sumOf (Dict.sumOf Metric.eventCount) := by
  apply sumOf_foldl_set
  intro t item
  rw [sumOf_mergeStages]
  unfold Dict.valueOf
  cases t.get? item.1 <;> rfl

theorem stageEvents_addStage (bucket : Bucket μ) (family stage : String) (bit : Nat) :
    stageEvents (Env.addStage bucket family stage bit) = stageEvents bucket + 1 := by
  unfold stageEvents Env.addStage
  dsimp only
  have houter := Dict.sumOf_set_add (Dict.sumOf Metric.eventCount) bucket.families family
    (((bucket.families.get? family).getD .empty).set stage
      (((((bucket.families.get? family).getD .empty).get? stage).getD stageMetric).record bit))
  have hinner := Dict.sumOf_set_add Metric.eventCount ((bucket.families.get? family).getD .empty) stage
    (((((bucket.families.get? family).getD .empty).get? stage).getD stageMetric).record bit)
  have hstages : bucket.families.valueOf (Dict.sumOf Metric.eventCount) family =
      ((bucket.families.get? family).getD .empty).sumOf Metric.eventCount := by
    unfold Dict.valueOf
    cases bucket.families.get? family <;> rfl
  have hmetric : (((((bucket.families.get? family).getD .empty).get? stage).getD stageMetric).record bit).eventCount =
      ((bucket.families.get? family).getD .empty).valueOf Metric.eventCount stage + 1 := by
    unfold Dict.valueOf
    cases ((bucket.families.get? family).getD Dict.empty).get? stage <;> rfl
  omega

/-- The weight of a confirmation result. -/
def confirmationWeight : Event μ → Nat
  | .confirmationResult .. => 1
  | _ => 0

/-- The weight of a funnel event. -/
def stageWeight : Event μ → Nat
  | .funnelStage .. => 1
  | _ => 0

theorem confirmations_tally : Tally env confirmations confirmationWeight where
  empty _ := rfl
  heartbeat _ := rfl
  add bucket e := by
    cases e with
    | confirmationResult mint family method provider result epoch =>
      exact sumOf_addCapped (f := Metric.eventCount) rfl (fun _ => rfl) _ _
    | funnelStage | rpcMethodMetric => rfl
  merge target source := by
    have := @sumOf_mergeCapped Metric MAX_RPC_DIMENSIONS_PER_BUCKET stageMetric Metric.merge Metric.eventCount rfl
      (fun _ _ => rfl) (target.rpcConfirmation, target.rpcDimensionOverflowEventCount) source.rpcConfirmation
    unfold confirmations Env.mergeBucket
    simp only at this ⊢
    omega

theorem stageEvents_tally : Tally env stageEvents stageWeight where
  empty _ := rfl
  heartbeat _ := rfl
  add bucket e := by
    cases e with
    | funnelStage stage mint family epoch => exact stageEvents_addStage ..
    | confirmationResult | rpcMethodMetric => rfl
  merge target source := sumOf_mergeFamilies target.families source.families

end Counting

end Aibot.Coverage
