/-
The features of a signal that a hypothesis may ask for: the fixed tables of `alpha_discovery.py`, the
values a research row has for them, the differences between its first and its last snapshot, and the
conditions of a hypothesis on them.
-/
import Aibot.Research.Prospective
import Aibot.Lib.Json

namespace Aibot.Research

open Observation (strip)

/-! ## Arithmetic -/

/-- The float arithmetic that scores rows. Nothing is assumed of it. -/
structure Arithmetic (F : Type) where
  ofDouble : Double → F
  ofNat : Nat → F
  add : F → F → F
  sub : F → F → F
  mul : F → F → F
  div : F → F → F
  abs : F → F
  lt : F → F → Bool
  le : F → F → Bool
  /-- The float, where it is finite. -/
  toDouble : F → Option Double
  /-- `math.fsum`, none where it raises. -/
  fsum : List F → Option F
  /-- `round(x, 4)`. -/
  round : F → F
  json : F → Json

namespace Arithmetic

variable {F : Type} (fl : Arithmetic F)

def eq (x y : F) : Bool := fl.le x y && fl.le y x

/-- `max(x, y)`. -/
def max (x y : F) : F := if fl.lt x y then y else x

def min (x y : F) : F := if fl.lt y x then y else x

/-- `max(items)` of items that begin with `x`. -/
def maxOf (x : F) (items : List F) : F := items.foldl fl.max x

def minOf (x : F) (items : List F) : F := items.foldl fl.min x

end Arithmetic

/-- What scoring needs besides the texts and the arithmetic: `str(x)`, `str.upper`, the digests, and the UTC
calendar, which ends with the year 9999. -/
structure Host extends Texts where
  text : Value → String
  upper : String → String
  /-- `sha256` of the canonical JSON text. -/
  digest : Value → String
  /-- The same of an object that may hold values that are not JSON, written with `default=str`. -/
  identityDigest : Value → String
  /-- `date().isoformat()`, none where `fromtimestamp` raises. -/
  day : Double → Option String
  /-- The year and the week of `isocalendar()`, as `2026-W05`. -/
  week : Double → Option String

/-- `_finite_number` of the alpha discovery and of the validation: a number of either sign. -/
def signedNumber (py : Texts) (value : Value) : Option Double :=
  match value with
  | .none | .bool _ => none
  | value =>
    match toFloat py value with
    | some (.finite number) => some number
    | _ => none

/-! ## The tables -/

structure BucketSpec where
  /-- The cuts as the source writes them; what is compared are the floats nearest to them. -/
  cuts : List ℚ
  labels : List String

structure FeatureSpec where
  sourcePath : List String
  buckets : BucketSpec
  scale : ℚ := 1
  minimum : Option ℚ := some 0
  maximum : Option ℚ := none

def whalePaidBuckets : BucketSpec :=
  ⟨[1, 3 / 2, 2, 3, 5],
    ["below_1", "1_to_below_1.5", "1.5_to_below_2", "2_to_below_3", "3_to_below_5", "5_or_more"]⟩

def safetyScoreBuckets : BucketSpec :=
  ⟨[55, 70, 85, 95], ["below_55", "55_to_below_70", "70_to_below_85", "85_to_below_95", "95_or_more"]⟩

def liquidityBuckets : BucketSpec :=
  ⟨[7500, 10000, 20000, 50000, 100000],
    ["below_7500", "7500_to_below_10000", "10000_to_below_20000", "20000_to_below_50000",
      "50000_to_below_100000", "100000_or_more"]⟩

def latencyBuckets : BucketSpec :=
  ⟨[1000, 3000, 10000, 30000],
    ["below_1000", "1000_to_below_3000", "3000_to_below_10000", "10000_to_below_30000", "30000_or_more"]⟩

def priceImpactBuckets : BucketSpec :=
  ⟨[1 / 4, 1 / 2, 1, 3 / 2],
    ["below_0.25", "0.25_to_below_0.5", "0.5_to_below_1", "1_to_below_1.5", "1.5_or_more"]⟩

def developerSupplyBuckets : BucketSpec :=
  ⟨[2, 5, 10, 20], ["below_2", "2_to_below_5", "5_to_below_10", "10_to_below_20", "20_or_more"]⟩

def lpLockedBuckets : BucketSpec :=
  ⟨[40, 80, 90], ["below_40", "40_to_below_80", "80_to_below_90", "90_or_more"]⟩

def copyGapBuckets : BucketSpec :=
  ⟨[-5, -2, -1, 0, 1, 2, 5],
    ["below_-5", "-5_to_below_-2", "-2_to_below_-1", "-1_to_below_0", "0_to_below_1", "1_to_below_2",
      "2_to_below_5", "5_or_more"]⟩

def momentumScoreBuckets : BucketSpec :=
  ⟨[55, 70, 85, 90, 95, 100],
    ["below_55", "55_to_below_70", "70_to_below_85", "85_to_below_90", "90_to_below_95", "95_to_below_100",
      "100_or_more"]⟩

def volumeBuckets : BucketSpec :=
  ⟨[10000, 15000, 25000, 50000, 100000],
    ["below_10000", "10000_to_below_15000", "15000_to_below_25000", "25000_to_below_50000",
      "50000_to_below_100000", "100000_or_more"]⟩

def countBuckets : BucketSpec :=
  ⟨[5, 10, 15, 25, 50],
    ["below_5", "5_to_below_10", "10_to_below_15", "15_to_below_25", "25_to_below_50", "50_or_more"]⟩

def ratioBuckets : BucketSpec :=
  ⟨[6 / 5, 3 / 2, 9 / 5, 5 / 2, 4],
    ["below_1.2", "1.2_to_below_1.5", "1.5_to_below_1.8", "1.8_to_below_2.5", "2.5_to_below_4", "4_or_more"]⟩

def pairAgeBuckets : BucketSpec :=
  ⟨[300, 900, 1800, 3600, 10800],
    ["below_300", "300_to_below_900", "900_to_below_1800", "1800_to_below_3600", "3600_to_below_10800",
      "10800_or_more"]⟩

def unknownWhaleBuckets : BucketSpec := ⟨[1, 2, 3, 4], ["0", "1", "2", "3", "4_or_more"]⟩

def smartMoneyFeatures : List (String × FeatureSpec) :=
  [("whale_paid_sol",
      { sourcePath := ["discovery_metadata", "whale_paid_lamports"], buckets := whalePaidBuckets,
        scale := 1 / 1000000000 }),
    ("safety_score", { sourcePath := ["safety_score"], buckets := safetyScoreBuckets }),
    ("developer_supply_percent",
      { sourcePath := ["safety_metrics", "developer_supply_percent"], buckets := developerSupplyBuckets }),
    ("lp_locked_percent", { sourcePath := ["safety_metrics", "lp_locked_percent"], buckets := lpLockedBuckets }),
    ("liquidity_usd", { sourcePath := ["safety_metrics", "liquidity_usd"], buckets := liquidityBuckets }),
    ("entry_price_impact_pct", { sourcePath := ["entry_price_impact_pct"], buckets := priceImpactBuckets }),
    ("exit_price_impact_pct", { sourcePath := ["exit_price_impact_pct"], buckets := priceImpactBuckets }),
    ("entry_latency_ms", { sourcePath := ["entry_latency_ms"], buckets := latencyBuckets }),
    ("copy_price_gap_pct", { sourcePath := ["copy_price_gap_pct"], buckets := copyGapBuckets, minimum := none })]

def momentumFeatures : List (String × FeatureSpec) :=
  [("dex_momentum_score", { sourcePath := ["dex_momentum_score"], buckets := momentumScoreBuckets }),
    ("volume_m5_usd", { sourcePath := ["momentum_metrics", "volume_m5_usd"], buckets := volumeBuckets }),
    ("buys_m5", { sourcePath := ["momentum_metrics", "buys_m5"], buckets := countBuckets }),
    ("sells_m5", { sourcePath := ["momentum_metrics", "sells_m5"], buckets := countBuckets }),
    ("net_buys_m5",
      { sourcePath := ["momentum_metrics", "net_buys_m5"], buckets := countBuckets, minimum := none }),
    ("buy_sell_ratio_m5", { sourcePath := ["momentum_metrics", "buy_sell_ratio_m5"], buckets := ratioBuckets }),
    ("liquidity_usd", { sourcePath := ["momentum_metrics", "liquidity_usd"], buckets := liquidityBuckets }),
    ("pair_age_seconds", { sourcePath := ["momentum_metrics", "pair_age_seconds"], buckets := pairAgeBuckets }),
    ("unknown_whale_count",
      { sourcePath := ["momentum_metrics", "unknown_whale_count"], buckets := unknownWhaleBuckets }),
    ("safety_score", { sourcePath := ["safety_score"], buckets := safetyScoreBuckets }),
    ("lp_locked_percent", { sourcePath := ["safety_metrics", "lp_locked_percent"], buckets := lpLockedBuckets }),
    ("developer_supply_percent",
      { sourcePath := ["safety_metrics", "developer_supply_percent"], buckets := developerSupplyBuckets }),
    ("entry_price_impact_pct", { sourcePath := ["entry_price_impact_pct"], buckets := priceImpactBuckets }),
    ("exit_price_impact_pct", { sourcePath := ["exit_price_impact_pct"], buckets := priceImpactBuckets }),
    ("entry_latency_ms", { sourcePath := ["entry_latency_ms"], buckets := latencyBuckets })]

/-- `FEATURES_BY_FAMILY`. -/
def featuresByFamily (family : String) : Option (List (String × FeatureSpec)) :=
  if family = "SMART_MONEY" then some smartMoneyFeatures
  else if family = "MOMENTUM" then some momentumFeatures
  else none

/-- Every table of buckets has one label more than it has cuts, and its cuts increase. -/
theorem buckets_wellFormed : ∀ entry ∈ smartMoneyFeatures ++ momentumFeatures,
    entry.2.buckets.labels.length = entry.2.buckets.cuts.length + 1 ∧
      entry.2.buckets.cuts.Pairwise (· < ·) := by
  decide +kernel

/-! ## The values of a row -/

/-- `isinstance(x, dict)`. -/
def isDict : Value → Bool
  | .dict _ => true
  | _ => false

/-- `_nested_value`. -/
def nestedValue (row : Value) : List String → Value
  | [] => row
  | part :: path =>
    match row with
    | .dict _ => nestedValue (row.get part) path
    | _ => .none

/-- The bounds of a feature. -/
def FeatureSpec.admits (spec : FeatureSpec) (number : Double) : Bool :=
  (spec.minimum.all fun minimum => minimum ≤ number.val) && spec.maximum.all fun maximum => number.val ≤ maximum

/-- `_feature_value`. A product with a scale of at most one is never out of range. -/
def featureValue (py : Texts) (row : Value) (spec : FeatureSpec) : Option Double :=
  (signedNumber py (nestedValue row spec.sourcePath)).bind fun number =>
    (Double.round (number.val * rounded spec.scale)).filter spec.admits

/-- `assign_bucket`, of a finite number. -/
def FeatureSpec.bucketOf (spec : FeatureSpec) (number : Double) : Option String :=
  if spec.admits number then
    ((spec.buckets.cuts.zip spec.buckets.labels).find? fun cut => number.val < rounded cut.1).elim
      spec.buckets.labels.getLast? fun cut => some cut.2
  else none

section Values

variable {F : Type} (fl : Arithmetic F) (py : Host)

/-- The number of a snapshot. -/
def snapshotNumber (item : Value) (key : String) : Option Double := signedNumber py.toTexts (item.get key)

/-- `float(x or 0)` of a number that may be missing. -/
def orZero (number : Option Double) : F := (number.map fl.ofDouble).getD (fl.ofNat 0)

/-- How many of the numbers are larger than the one before. -/
def risingSteps (numbers : List F) : F :=
  fl.ofNat ((numbers.zip numbers.tail).filter fun step => fl.lt step.1 step.2).length

/-- The differences between the first and the last of at least two snapshots. -/
def snapshotFeatures (ordered : List Value) (first last : Value) : List (String × F) :=
  let of item key := orZero fl (snapshotNumber py item key)
  let volumes := ordered.map (of · "volume_m5_usd")
  let buys := ordered.map (of · "buys_m5")
  let percent x y := fl.mul (fl.div (fl.sub y x) x) (fl.ofNat 100)
  let ratio item := fl.div (of item "buys_m5") (fl.max (fl.ofNat 1) (of item "sells_m5"))
  let net item := fl.sub (of item "buys_m5") (of item "sells_m5")
  let lastStep := match volumes.reverse with
    | y :: x :: _ => fl.sub y x
    | _ => fl.ofNat 0
  [("snapshot_count", fl.ofNat ordered.length),
    ("span_seconds", fl.sub (of last "snapshot_at_epoch") (of first "snapshot_at_epoch")),
    ("volume_delta", fl.sub (of last "volume_m5_usd") (of first "volume_m5_usd")),
    ("volume_delta_percent",
      if fl.lt (fl.ofNat 0) (of first "volume_m5_usd") then
        percent (of first "volume_m5_usd") (of last "volume_m5_usd") else fl.ofNat 0),
    ("buys_delta", fl.sub (of last "buys_m5") (of first "buys_m5")),
    ("sells_delta", fl.sub (of last "sells_m5") (of first "sells_m5")),
    ("net_buy_delta", fl.sub (net last) (net first)),
    ("buy_sell_ratio_delta", fl.sub (ratio last) (ratio first)),
    ("liquidity_delta", fl.sub (of last "liquidity_usd") (of first "liquidity_usd")),
    ("positive_volume_steps", risingSteps fl volumes),
    ("positive_buy_steps", risingSteps fl buys),
    ("last_volume_step", lastStep)] ++
  match snapshotNumber py first "price_usd", snapshotNumber py last "price_usd" with
  | some x, some y => if 0 < x.val then [("price_delta_percent", percent (fl.ofDouble x) (fl.ofDouble y))] else []
  | _, _ => []

/-- `derive_momentum_features`; none where it raises. -/
def deriveMomentumFeatures (row : Value) : Option (List (String × F)) :=
  (normalizeProspectiveFeatureCollection py.toTexts (row.get "prospective_feature_collection")
      (row.get "signal_detected_at")).map fun collection =>
    match collection.get "pre_signal_snapshots" with
    | .list snapshots =>
      let at_ item := orZero fl (snapshotNumber py item "snapshot_at_epoch")
      let ordered := (snapshots.filter isDict).mergeSort fun x y => fl.le (at_ x) (at_ y)
      match ordered.head?, ordered.getLast? with
      | some first, some last =>
        if snapshots.length < 2 ∨ ordered.length < 2 then []
        else if ["volume_m5_usd", "buys_m5", "sells_m5", "liquidity_usd"].any fun key =>
            (snapshotNumber py first key).isNone || (snapshotNumber py last key).isNone then []
        else snapshotFeatures fl py ordered first last
      | _, _ => []
    | _ => []

/-- `_features`; none where it raises. -/
def features (row : Value) (family : String) : Option (Dict String F) := do
  let specs ← featuresByFamily family
  let table := specs.filterMap fun entry =>
    (featureValue py.toTexts row entry.2).map fun number => (entry.1, fl.ofDouble number)
  if family = "MOMENTUM" then
    let derived ← deriveMomentumFeatures fl py row
    return Dict.ofList (table ++ derived)
  else return Dict.ofList table

/-! ## Conditions -/

/-- One item of `condition_definition`. -/
structure Condition where
  feature : String
  operator : String
  value : Value

/-- `assign_bucket(family, feature, number) == label`; none where it raises. -/
def bucketIs (family feature : String) (number : F) (label : String) : Option Bool :=
  (featuresByFamily family).bind fun specs =>
    (specs.find? fun entry => entry.1 = feature).map fun entry =>
      decide ((fl.toDouble number).bind entry.2.bucketOf = some label)

/-- `_condition_matches`; none where it raises. -/
def conditionMatches (family : String) (features : Dict String F) (condition : Condition) : Option Bool :=
  match features.get? condition.feature with
  | none => some false
  | some left =>
    if condition.operator = "bucket_eq" then bucketIs fl family condition.feature left (py.text condition.value)
    else
      let right := if condition.operator = "lte_feature" then features.get? (py.text condition.value)
        else (signedNumber py.toTexts condition.value).map fl.ofDouble
      some (right.any fun right =>
        if condition.operator = "gt" then fl.lt right left
        else if condition.operator = "gte" then fl.le right left
        else if condition.operator = "lt" then fl.lt left right
        else if condition.operator = "lte" ∨ condition.operator = "lte_feature" then fl.le left right
        else if condition.operator = "eq" then fl.eq left right
        else false)

/-- The conditions one after the other, to the first that fails; none where one raises. -/
def allMatch (family : String) (features : Dict String F) : List Condition → Option Bool
  | [] => some true
  | condition :: conditions =>
    (conditionMatches fl py family features condition).bind fun holds =>
      if holds then allMatch family features conditions else some false

end Values

end Aibot.Research
