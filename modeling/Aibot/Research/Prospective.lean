/-
`prospective_features.normalize_prospective_feature_collection`: the snapshots before a signal that a
research row keeps. What it makes of a collection depends on nothing later than the signal, and it is
its own normal form.
-/
import Aibot.Lib.Dict
import Aibot.Lib.Value
import Aibot.Observation.Row
import Aibot.Wallet.Performance

namespace Aibot.Research

open Observation (strip)
open Wallet (lastN lastN_suffix length_lastN lastN_of_length_le)

/-! ## The constants -/

def featureCollectionSchemaVersion : ℤ := 1

def momentumCollectorVersion : String := "momentum_pre_signal_v1"

def maxPreSignalSnapshots : Nat := 6

def seconds (n : ℤ) (h : |n| < 2 ^ 53) : Double := ⟨n, isDouble_intCast h⟩

/-- `SNAPSHOT_BUCKET_SECONDS`. -/
def snapshotBucketSeconds : Double := seconds 60 (by norm_num)

/-- `SNAPSHOT_TTL_SECONDS`. -/
def snapshotTtlSeconds : Double := seconds 900 (by norm_num)

/-- The end of the last year that a UTC datetime has. -/
def endOfTime : ℚ := 253402300800

/-! ## Texts -/

/-- What Python reads in texts, and how it writes a time. -/
structure Texts where
  /-- `float(text)`, none where it raises. -/
  float : String → Option Floating
  /-- The epoch of `datetime.fromisoformat(text.strip().replace("Z", "+00:00"))`, none where it raises or
  the time is naive. -/
  epoch : String → Option Double
  /-- The text of a UTC time, with `Z`. -/
  isoformat : Double → String

variable (py : Texts)

/-- `float(value)`, none where it raises. -/
def toFloat : Value → Option Floating
  | .bool b => (Double.round b.toInt).map .finite
  | .int n => (Double.round n).map .finite
  | .float x => some x
  | .str s => py.float s
  | .other number => number
  | .none | .list _ | .tuple _ | .dict _ => none

/-- `_finite_number`. -/
def finiteNumber (value : Value) : Option Double :=
  match value with
  | .none | .bool _ => none
  | value =>
    match toFloat py value with
    | some (.finite number) => if 0 ≤ number.val then some number else none
    | _ => none

/-- `_timestamp`. -/
def timestamp (value : Value) : Option Double :=
  match finiteNumber py value with
  | some number => some number
  | none =>
    match value with
    | .str s => if strip s = "" then none else (py.epoch s).filter fun epoch => 0 ≤ epoch.val
    | _ => none

/-- `_iso_timestamp`; it raises past the last year. The doubles before its end are so far from it that
none is rounded there. -/
def isoTimestamp (epoch : Double) : Option String :=
  if epoch.val < endOfTime then some (py.isoformat epoch) else none

/-! ## Snapshots -/

structure MomentumPreSignalSnapshot where
  snapshotAtEpoch : Double
  volumeM5Usd : Double
  buysM5 : ℤ
  sellsM5 : ℤ
  liquidityUsd : Double
  priceUsd : Option Double

def MomentumPreSignalSnapshot.projection (s : MomentumPreSignalSnapshot) : Value :=
  .dict
    [(.str "snapshot_at_epoch", .ofDouble s.snapshotAtEpoch),
      (.str "volume_m5_usd", .ofDouble s.volumeM5Usd),
      (.str "buys_m5", .int s.buysM5),
      (.str "sells_m5", .int s.sellsM5),
      (.str "liquidity_usd", .ofDouble s.liquidityUsd),
      (.str "price_usd", (s.priceUsd.map Value.ofDouble).getD .none)]

/-- The minute of a snapshot, `int(snapshot_at_epoch // 60.0)`. The quotient is never out of range. -/
def MomentumPreSignalSnapshot.bucket (s : MomentumPreSignalSnapshot) : ℤ :=
  ((s.snapshotAtEpoch.floorDiv snapshotBucketSeconds).map Double.trunc).getD 0

/-- `_normalized_snapshot`. -/
def normalizedSnapshot (value : Value) : Option MomentumPreSignalSnapshot :=
  match value with
  | .dict _ => do
    let epoch ← timestamp py (value.get "snapshot_at_epoch")
    let volume ← finiteNumber py (value.get "volume_m5_usd")
    let buys ← finiteNumber py (value.get "buys_m5")
    let sells ← finiteNumber py (value.get "sells_m5")
    let liquidity ← finiteNumber py (value.get "liquidity_usd")
    some ⟨epoch, volume, buys.trunc, sells.trunc, liquidity, finiteNumber py (value.get "price_usd")⟩
  | _ => none

/-- `signal_epoch - SNAPSHOT_TTL_SECONDS <= snapshot_at_epoch <= signal_epoch`. -/
def MomentumPreSignalSnapshot.within (signal : Double) (s : MomentumPreSignalSnapshot) : Bool :=
  (signal.sub snapshotTtlSeconds).any (fun oldest => oldest ≤ s.snapshotAtEpoch) && s.snapshotAtEpoch ≤ signal

/-! ## Collections -/

/-- The last snapshot of each minute, by minute. -/
def normalizedSnapshots (signal : Double) (snapshots : List Value) : Dict ℤ MomentumPreSignalSnapshot :=
  Dict.ofList <| (snapshots.filterMap fun raw =>
    (normalizedSnapshot py raw).filter fun snapshot => snapshot.within signal).map fun s => (s.bucket, s)

/-- The newest snapshots, oldest first. -/
def selectedSnapshots (signal : Double) (snapshots : List Value) : List MomentumPreSignalSnapshot :=
  lastN maxPreSignalSnapshots <| (normalizedSnapshots py signal snapshots).values.mergeSort
    fun s s' => s.snapshotAtEpoch ≤ s'.snapshotAtEpoch

/-- The collection of some snapshots, which are not none. -/
def collection (start : String) (selected : List MomentumPreSignalSnapshot) : Value :=
  .dict
    [(.str "schema_version", .int featureCollectionSchemaVersion),
      (.str "collector_version", .str momentumCollectorVersion),
      (.str "prospective_collection_start", .str start),
      (.str "snapshot_count", .int selected.length),
      (.str "pre_signal_snapshots", .list (selected.map (·.projection)))]

/-- `normalize_prospective_feature_collection`; none where it raises. -/
def normalizeProspectiveFeatureCollection (value signalTimestamp : Value) : Option Value :=
  match value with
  | .dict _ =>
    if ¬ (value.get "schema_version").eqInt featureCollectionSchemaVersion then some (.dict [])
    else if ¬ (value.get "collector_version").isStr momentumCollectorVersion then some (.dict [])
    else
      match timestamp py signalTimestamp, value.get "pre_signal_snapshots" with
      | some signal, .list snapshots =>
        match selectedSnapshots py signal snapshots with
        | [] => some (.dict [])
        | first :: rest =>
          (isoTimestamp py first.snapshotAtEpoch).map fun start => collection start (first :: rest)
      | _, _ => some (.dict [])
  | _ => some (.dict [])

/-- The collection of a decision row: the one given, or else the one that the row has. -/
def decisionCollection (given existing signalTimestamp : Value) : Option Value :=
  (normalizeProspectiveFeatureCollection py given signalTimestamp).bind fun normalized =>
    match normalized, existing with
    | .dict [], .dict _ =>
      normalizeProspectiveFeatureCollection py (existing.get "prospective_feature_collection") signalTimestamp
    | _, _ => some normalized

/-! ## Numbers read back -/

section Numbers

variable {py}

theorem finiteNumber_nonneg {value : Value} {x : Double} (h : finiteNumber py value = some x) : 0 ≤ x.val := by
  unfold finiteNumber at h
  split at h
  · cases h
  · cases h
  · split at h
    · split_ifs at h with hpos
      cases h
      exact hpos
    · cases h

theorem timestamp_nonneg {value : Value} {x : Double} (h : timestamp py value = some x) : 0 ≤ x.val := by
  unfold timestamp at h
  split at h
  · rename_i number hnumber
    obtain rfl := Option.some.inj h
    exact finiteNumber_nonneg hnumber
  · split at h
    · split_ifs at h
      exact of_decide_eq_true (Option.filter_eq_some_iff.1 h).2
    · cases h

theorem finiteNumber_ofDouble {x : Double} (hx : 0 ≤ x.val) : finiteNumber py (.ofDouble x) = some x := by
  simp [finiteNumber, Value.ofDouble, toFloat, hx]

theorem timestamp_ofDouble {x : Double} (hx : 0 ≤ x.val) : timestamp py (.ofDouble x) = some x := by
  unfold timestamp
  rw [finiteNumber_ofDouble hx]

/-- A count that was read once is read back. -/
theorem finiteNumber_trunc (py : Texts) {x : Double} (hx : 0 ≤ x.val) :
    ∃ y, finiteNumber py (.int x.trunc) = some y ∧ y.trunc = x.trunc := by
  have hfloor : (0 : ℚ) ≤ (⌊x.val⌋ : ℤ) := by exact_mod_cast Int.floor_nonneg.2 hx
  refine ⟨⟨⌊x.val⌋, isDouble_floor x.isDouble hx⟩, ?_, ?_⟩
  · simp [finiteNumber, toFloat, Double.round_trunc hx, hfloor]
  · rw [Double.trunc_intCast, Double.trunc_of_nonneg hx]

end Numbers

/-! ## Snapshots read back -/

/-- What a snapshot that was read holds. -/
structure MomentumPreSignalSnapshot.Valid (s : MomentumPreSignalSnapshot) : Prop where
  epoch : 0 ≤ s.snapshotAtEpoch.val
  volume : 0 ≤ s.volumeM5Usd.val
  buys : ∃ x : Double, 0 ≤ x.val ∧ x.trunc = s.buysM5
  sells : ∃ x : Double, 0 ≤ x.val ∧ x.trunc = s.sellsM5
  liquidity : 0 ≤ s.liquidityUsd.val
  price : ∀ x, s.priceUsd = some x → 0 ≤ x.val

/-- The time that a snapshot in a collection says, none where it is no snapshot. -/
def timeOf (raw : Value) : Option Double :=
  match raw with
  | .dict _ => timestamp py (raw.get "snapshot_at_epoch")
  | _ => none

/-- The time is at or before the signal. -/
def knownAt (signal : Double) (raw : Value) : Bool := (timeOf py raw).any fun epoch => epoch ≤ signal

section Snapshots

variable {py}

theorem normalizedSnapshot_valid {raw : Value} {s : MomentumPreSignalSnapshot}
    (h : normalizedSnapshot py raw = some s) : s.Valid ∧ timeOf py raw = some s.snapshotAtEpoch := by
  unfold normalizedSnapshot at h
  split at h
  · obtain ⟨epoch, hepoch, h⟩ := Option.bind_eq_some_iff.1 h
    obtain ⟨volume, hvolume, h⟩ := Option.bind_eq_some_iff.1 h
    obtain ⟨buys, hbuys, h⟩ := Option.bind_eq_some_iff.1 h
    obtain ⟨sells, hsells, h⟩ := Option.bind_eq_some_iff.1 h
    obtain ⟨liquidity, hliquidity, h⟩ := Option.bind_eq_some_iff.1 h
    obtain rfl := Option.some.inj h
    exact ⟨⟨timestamp_nonneg hepoch, finiteNumber_nonneg hvolume, ⟨buys, finiteNumber_nonneg hbuys, rfl⟩,
      ⟨sells, finiteNumber_nonneg hsells, rfl⟩, finiteNumber_nonneg hliquidity,
      fun _ hprice => finiteNumber_nonneg hprice⟩, hepoch⟩
  · cases h

theorem normalizedSnapshot_projection {s : MomentumPreSignalSnapshot} (hs : s.Valid) :
    normalizedSnapshot py s.projection = some s := by
  obtain ⟨buys, hbuys, hbuysM5⟩ := hs.buys
  obtain ⟨sells, hsells, hsellsM5⟩ := hs.sells
  obtain ⟨b, hb, hbtrunc⟩ := finiteNumber_trunc py hbuys
  obtain ⟨c, hc, hctrunc⟩ := finiteNumber_trunc py hsells
  have hprice : finiteNumber py ((s.priceUsd.map Value.ofDouble).getD .none) = s.priceUsd := by
    cases hp : s.priceUsd with
    | none => rfl
    | some x => exact finiteNumber_ofDouble (hs.price x hp)
  rw [hbuysM5] at hb hbtrunc
  rw [hsellsM5] at hc hctrunc
  simp [normalizedSnapshot, MomentumPreSignalSnapshot.projection, Value.get, timestamp_ofDouble hs.epoch,
    finiteNumber_ofDouble hs.volume, finiteNumber_ofDouble hs.liquidity, hb, hc, hbtrunc, hctrunc, hprice]

/-- A snapshot that is kept was known at the signal. -/
theorem knownAt_of_within {signal : Double} {raw : Value} {s : MomentumPreSignalSnapshot}
    (h : normalizedSnapshot py raw = some s) (hwithin : s.within signal = true) : knownAt py signal raw = true := by
  unfold knownAt
  rw [(normalizedSnapshot_valid h).2]
  unfold MomentumPreSignalSnapshot.within at hwithin
  rw [Bool.and_eq_true] at hwithin
  exact hwithin.2

/-- Only what was known at the signal counts. -/
theorem normalizedSnapshots_known (signal : Double) (snapshots : List Value) :
    normalizedSnapshots py signal (snapshots.filter (knownAt py signal)) =
      normalizedSnapshots py signal snapshots := by
  unfold normalizedSnapshots
  rw [List.filterMap_filter]
  refine congrArg (fun kept => Dict.ofList (kept.map fun s : MomentumPreSignalSnapshot => (s.bucket, s)))
    (List.filterMap_congr fun raw _ => ?_)
  split_ifs with hknown
  · rfl
  · symm
    rw [Option.filter_eq_none_iff]
    intro s hs hwithin
    exact hknown (knownAt_of_within hs hwithin)

end Snapshots

/-! ## The window and the minutes -/

/-- The minute of a snapshot. -/
def MomentumPreSignalSnapshot.minute (s : MomentumPreSignalSnapshot) : ℤ := ⌊s.snapshotAtEpoch.val / 60⌋

section Window

variable {signal : Double} {s : MomentumPreSignalSnapshot}

/-- The floats say what the numbers say: at most 900 seconds before the signal, and not after it. -/
theorem within_iff (hsignal : 0 ≤ signal.val) (hend : signal.val < endOfTime) (hs : 0 ≤ s.snapshotAtEpoch.val) :
    s.within signal = true ↔
      signal.val - 900 ≤ s.snapshotAtEpoch.val ∧ s.snapshotAtEpoch.val ≤ signal.val := by
  have hle : ∀ x y : Double, decide (x ≤ y) = true ↔ x.val ≤ y.val := fun _ _ => decide_eq_true_iff
  unfold MomentumPreSignalSnapshot.within
  rw [Bool.and_eq_true, hle]
  refine and_congr_left fun _ => ?_
  have hsub : signal.sub snapshotTtlSeconds = Double.round (signal.val - 900) := by
    unfold Double.sub snapshotTtlSeconds seconds
    norm_num
  rw [hsub]
  unfold endOfTime at hend
  rcases le_or_gt 900 signal.val with hlarge | hsmall
  · have hexact : IsDouble (signal.val - 900) := by
      have hlt : signal.val < 2 ^ 53 := lt_trans hend (by norm_num)
      have hnat : ((900 : ℕ) : ℚ) ≤ signal.val := by exact_mod_cast hlarge
      exact_mod_cast isDouble_sub_natCast signal.isDouble hnat hlt
    rw [Double.round_of_isDouble hexact]
    exact hle _ _
  · -- the difference is rounded, and is not positive before and after
    have hneg : signal.val - 900 ≤ 0 := by linarith
    have hrange : |signal.val - 900| < 2 ^ 900 :=
      calc |signal.val - 900| < 2 ^ 10 := abs_lt.2 ⟨by linarith, by linarith⟩
        _ ≤ 2 ^ 900 := pow_le_pow_right₀ (by norm_num) (by norm_num)
    obtain ⟨oldest, holdest⟩ := Option.isSome_iff_exists.1 (Double.round_isSome hrange)
    rw [holdest]
    have hnonpos := Double.round_nonpos hneg holdest
    simp only [Option.any_some]
    rw [hle]
    constructor <;> intro <;> linarith

theorem bucket_eq_minute (hs : 0 ≤ s.snapshotAtEpoch.val) (hend : s.snapshotAtEpoch.val < endOfTime) :
    s.bucket = s.minute := by
  unfold endOfTime at hend
  have hquot : 0 ≤ s.snapshotAtEpoch.val / 60 := by positivity
  have hfloor : 0 ≤ s.minute := Int.floor_nonneg.2 hquot
  have hlt : s.minute < 2 ^ 53 := by
    refine Int.floor_lt.2 ?_
    push_cast
    linarith
  have hdouble : IsDouble (s.minute : ℤ) := isDouble_intCast (abs_lt.2 ⟨by omega, hlt⟩)
  have hdiv : s.snapshotAtEpoch.floorDiv snapshotBucketSeconds = some ⟨s.minute, hdouble⟩ := by
    have hval : snapshotBucketSeconds.val = 60 := by norm_num [snapshotBucketSeconds, seconds]
    unfold Double.floorDiv
    rw [hval]
    exact Double.round_of_isDouble hdouble
  unfold MomentumPreSignalSnapshot.bucket
  rw [hdiv, Option.map_some, Option.getD_some, Double.trunc_intCast]

end Window

/-! ## The selected snapshots -/

/-- What a collection at a signal holds. -/
structure PreSignal (signal : Double) (selected : List MomentumPreSignalSnapshot) : Prop where
  few : selected.length ≤ maxPreSignalSnapshots
  minutes : (selected.map (·.minute)).Pairwise (· < ·)
  window : ∀ s ∈ selected, signal.val - 900 ≤ s.snapshotAtEpoch.val ∧ s.snapshotAtEpoch.val ≤ signal.val
  valid : ∀ s ∈ selected, s.Valid

section Selected

variable {py} {signal : Double}

/-- The kept snapshots with their minutes. -/
theorem mem_normalizedSnapshots {snapshots : List Value} {k : ℤ} {s : MomentumPreSignalSnapshot}
    (h : (k, s) ∈ (normalizedSnapshots py signal snapshots).entries) :
    k = s.bucket ∧ s.Valid ∧ s.within signal = true := by
  have hmem := Dict.mem_of_get?_ofList (Dict.get?_eq_some.2 h)
  obtain ⟨s', hs', heq⟩ := List.mem_map.1 hmem
  obtain ⟨rfl, rfl⟩ := Prod.mk.inj heq
  obtain ⟨raw, -, hraw⟩ := List.mem_filterMap.1 hs'
  obtain ⟨hnorm, hwithin⟩ := Option.filter_eq_some_iff.1 hraw
  exact ⟨rfl, (normalizedSnapshot_valid hnorm).1, hwithin⟩

theorem minute_mono {s s' : MomentumPreSignalSnapshot} (h : s.snapshotAtEpoch.val ≤ s'.snapshotAtEpoch.val) :
    s.minute ≤ s'.minute := Int.floor_le_floor (by linarith)

theorem selected_preSignal (hsignal : 0 ≤ signal.val) (hend : signal.val < endOfTime) (snapshots : List Value) :
    PreSignal signal (selectedSnapshots py signal snapshots) := by
  set d := normalizedSnapshots py signal snapshots with hd
  set sorted := d.values.mergeSort fun s s' => s.snapshotAtEpoch ≤ s'.snapshotAtEpoch with hsorted
  have hperm : sorted.Perm d.values := List.mergeSort_perm ..
  have hmem : ∀ s ∈ sorted, s.Valid ∧ signal.val - 900 ≤ s.snapshotAtEpoch.val ∧
      s.snapshotAtEpoch.val ≤ signal.val ∧ s.bucket = s.minute := by
    intro s hs
    obtain ⟨⟨k, s'⟩, hentry, rfl⟩ := List.mem_map.1 (hperm.mem_iff.1 hs)
    obtain ⟨-, hvalid, hwithin⟩ := mem_normalizedSnapshots hentry
    obtain ⟨hlow, hhigh⟩ := (within_iff hsignal hend hvalid.epoch).1 hwithin
    exact ⟨hvalid, hlow, hhigh, bucket_eq_minute hvalid.epoch (lt_of_le_of_lt hhigh hend)⟩
  have hnodup : (sorted.map (·.minute)).Nodup := by
    have hkeys : d.values.map (·.bucket) = d.entries.map Prod.fst := by
      unfold Dict.values
      rw [List.map_map]
      exact List.map_congr_left fun p hp => (mem_normalizedSnapshots hp).1.symm
    rw [List.map_congr_left fun s hs => (hmem s hs).2.2.2.symm, (hperm.map _).nodup_iff, hkeys]
    exact d.nodup
  have htimes : sorted.Pairwise fun s s' => s.snapshotAtEpoch.val ≤ s'.snapshotAtEpoch.val := by
    have hpair := @List.pairwise_mergeSort _ (fun s s' : MomentumPreSignalSnapshot =>
      decide (s.snapshotAtEpoch ≤ s'.snapshotAtEpoch)) ?_ ?_ d.values
    · exact hpair.imp fun h => of_decide_eq_true h
    · intro a b c hab hbc
      exact decide_eq_true (le_trans (of_decide_eq_true hab) (of_decide_eq_true hbc : b.snapshotAtEpoch.val ≤ _))
    · intro a b
      rcases le_total a.snapshotAtEpoch.val b.snapshotAtEpoch.val with h | h
      · rw [decide_eq_true (show a.snapshotAtEpoch ≤ b.snapshotAtEpoch from h)]
        rfl
      · rw [decide_eq_true (show b.snapshotAtEpoch ≤ a.snapshotAtEpoch from h), Bool.or_true]
  have hminutes : (sorted.map (·.minute)).Pairwise (· < ·) := by
    have hle : (sorted.map (·.minute)).Pairwise (· ≤ ·) := List.pairwise_map.2 (htimes.imp fun h => minute_mono h)
    exact (hle.and hnodup).imp fun h => lt_of_le_of_ne h.1 h.2
  have hsuffix : selectedSnapshots py signal snapshots <:+ sorted := lastN_suffix ..
  exact {
    few := (length_lastN ..).trans_le (min_le_left ..)
    minutes := hminutes.sublist (hsuffix.sublist.map _)
    window := fun s hs => ⟨(hmem s (hsuffix.mem hs)).2.1, (hmem s (hsuffix.mem hs)).2.2.1⟩
    valid := fun s hs => (hmem s (hsuffix.mem hs)).1 }

/-- Of valid snapshots in order, of different minutes, those within the window of a signal are selected. -/
theorem selectedSnapshots_eq {values : List MomentumPreSignalSnapshot} (hvalid : ∀ s ∈ values, s.Valid)
    (hsorted : values.Pairwise fun s s' => s.snapshotAtEpoch.val ≤ s'.snapshotAtEpoch.val)
    (hdistinct : values.Pairwise fun s s' => s.bucket ≠ s'.bucket) :
    selectedSnapshots py signal (values.map (·.projection)) =
      lastN maxPreSignalSnapshots (values.filter (·.within signal)) := by
  have hkept : ((values.map (·.projection)).filterMap fun raw =>
      (normalizedSnapshot py raw).filter fun snapshot => snapshot.within signal) = values.filter (·.within signal) := by
    rw [List.filterMap_map, ← List.filterMap_eq_filter]
    refine List.filterMap_congr fun s hs => ?_
    rw [Function.comp_apply, normalizedSnapshot_projection (hvalid s hs)]
    cases hw : s.within signal <;> simp [Option.filter, Option.guard, hw]
  have hnodup : ((values.filter (·.within signal)).map (·.bucket)).Nodup :=
    List.pairwise_map.2 (hdistinct.filter _)
  have hvalues : (normalizedSnapshots py signal (values.map (·.projection))).values =
      values.filter (·.within signal) := by
    unfold normalizedSnapshots Dict.values
    rw [hkept, Dict.entries_index hnodup, List.map_map]
    exact List.map_id _
  have hpairs : (values.filter (·.within signal)).Pairwise
      fun s s' => decide (s.snapshotAtEpoch ≤ s'.snapshotAtEpoch) = true :=
    (hsorted.filter _).imp fun h => decide_eq_true h
  unfold selectedSnapshots
  rw [hvalues, List.mergeSort_of_pairwise hpairs]

/-- Selected snapshots are selected again. -/
theorem selected_again (hsignal : 0 ≤ signal.val) (hend : signal.val < endOfTime)
    {selected : List MomentumPreSignalSnapshot} (h : PreSignal signal selected) :
    selectedSnapshots py signal (selected.map (·.projection)) = selected := by
  have hbucket : ∀ s ∈ selected, s.bucket = s.minute := fun s hs =>
    bucket_eq_minute (h.valid s hs).epoch (lt_of_le_of_lt (h.window s hs).2 hend)
  have hminutes : selected.Pairwise fun s s' => s.minute < s'.minute := List.pairwise_map.1 h.minutes
  have hsorted : selected.Pairwise fun s s' => s.snapshotAtEpoch.val ≤ s'.snapshotAtEpoch.val := by
    refine hminutes.imp fun {s s'} hlt => ?_
    by_contra hgt
    exact absurd hlt (not_lt.2 (minute_mono (le_of_not_ge hgt)))
  have hdistinct : selected.Pairwise fun s s' => s.bucket ≠ s'.bucket := by
    refine hminutes.imp_of_mem fun {s s'} hs hs' hlt => ?_
    rw [hbucket s hs, hbucket s' hs']
    exact ne_of_lt hlt
  have hwithin : selected.filter (·.within signal) = selected := List.filter_eq_self.2 fun s hs =>
    (within_iff hsignal hend (h.valid s hs).epoch).2 (h.window s hs)
  rw [selectedSnapshots_eq h.valid hsorted hdistinct, hwithin]
  exact lastN_of_length_le h.few

end Selected

/-! ## Collections -/

/-- The snapshots of a collection. -/
def snapshotsOf (value : Value) : List Value :=
  match value.get "pre_signal_snapshots" with
  | .list snapshots => snapshots
  | _ => []

/-- The signal time is one that a UTC datetime has. -/
def Representable (signalTimestamp : Value) : Prop :=
  ∀ epoch, timestamp py signalTimestamp = some epoch → (isoTimestamp py epoch).isSome = true

/-- The collection is of the version that is read. -/
def readable (value : Value) : Bool :=
  (value.get "schema_version").eqInt featureCollectionSchemaVersion &&
    (value.get "collector_version").isStr momentumCollectorVersion

/-- The result of a selection. -/
def collectionOf (selected : List MomentumPreSignalSnapshot) : Option Value :=
  match selected with
  | [] => some (.dict [])
  | first :: rest => (isoTimestamp py first.snapshotAtEpoch).map fun start => collection start (first :: rest)

/-- What a collection may hold at a signal: nothing, or some snapshots before it. -/
def NormalAt (signalTimestamp result : Value) : Prop :=
  (result = .dict [] ∨ ∃ signal start selected, timestamp py signalTimestamp = some signal ∧
    result = collection start selected ∧ PreSignal signal selected) ∧
  normalizeProspectiveFeatureCollection py result signalTimestamp = some result

section Collections

variable {py}

theorem Representable.lt {signalTimestamp : Value} (h : Representable py signalTimestamp) {signal : Double}
    (hsignal : timestamp py signalTimestamp = some signal) : signal.val < endOfTime := by
  have hsome := h signal hsignal
  unfold isoTimestamp at hsome
  split_ifs at hsome with hlt
  · exact hlt
  · cases hsome

/-- A collection counts through its version and its snapshots. -/
theorem normalize_eq (value signalTimestamp : Value) :
    normalizeProspectiveFeatureCollection py value signalTimestamp =
      if readable value then
        match timestamp py signalTimestamp with
        | some signal => collectionOf py (selectedSnapshots py signal (snapshotsOf value))
        | none => some (.dict [])
      else some (.dict []) := by
  have hempty : ∀ signal, selectedSnapshots py signal [] = [] := fun signal => by
    simp [selectedSnapshots, normalizedSnapshots, Dict.ofList, Dict.values, Dict.empty, lastN]
  unfold normalizeProspectiveFeatureCollection readable snapshotsOf
  cases value with
  | dict items =>
    dsimp only
    cases (Value.dict items).get "schema_version" |>.eqInt featureCollectionSchemaVersion <;>
      cases (Value.dict items).get "collector_version" |>.isStr momentumCollectorVersion <;>
      simp only [Bool.and_true, Bool.and_false, Bool.false_eq_true, not_true, not_false_eq_true, if_true, if_false]
    cases timestamp py signalTimestamp with
    | none => rfl
    | some signal =>
      cases (Value.dict items).get "pre_signal_snapshots" with
      | list snapshots => cases hsel : selectedSnapshots py signal snapshots <;> simp [hsel, collectionOf]
      | _ => simp [hempty, collectionOf]
  | _ => rfl

/-- A result is read again as it is. -/
theorem normalize_collection {signalTimestamp : Value} {signal : Double} (hrep : Representable py signalTimestamp)
    (hsignal : timestamp py signalTimestamp = some signal) {selected : List MomentumPreSignalSnapshot}
    (hselected : PreSignal signal selected) :
    ∃ result, collectionOf py selected = some result ∧
      (result = .dict [] ∨ ∃ start, result = collection start selected) ∧
      normalizeProspectiveFeatureCollection py result signalTimestamp = some result := by
  have hend := hrep.lt hsignal
  cases selected with
  | nil => exact ⟨.dict [], rfl, .inl rfl, by rw [normalize_eq]; rfl⟩
  | cons first rest =>
    have hfirst : first.snapshotAtEpoch.val < endOfTime :=
      lt_of_le_of_lt (hselected.window first List.mem_cons_self).2 hend
    have hresult : collectionOf py (first :: rest) =
        some (collection (py.isoformat first.snapshotAtEpoch) (first :: rest)) := by
      simp [collectionOf, isoTimestamp, hfirst]
    refine ⟨_, hresult, .inr ⟨_, rfl⟩, ?_⟩
    have hread : ∀ start, readable (collection start (first :: rest)) = true := by
      intro start
      simp [readable, collection, Value.get, Value.eqInt, Value.isStr]
    have hsnapshots : ∀ start,
        snapshotsOf (collection start (first :: rest)) = (first :: rest).map (·.projection) := by
      intro start
      simp [snapshotsOf, collection, Value.get]
    rw [normalize_eq, hread, hsignal, hsnapshots]
    simp only [if_true]
    rw [selected_again (timestamp_nonneg hsignal) hend hselected, hresult]

/-- It does not raise, and its result is a normal form. -/
theorem normalize_normal (value : Value) {signalTimestamp : Value} (hrep : Representable py signalTimestamp) :
    ∃ result, normalizeProspectiveFeatureCollection py value signalTimestamp = some result ∧
      NormalAt py signalTimestamp result := by
  have hempty : NormalAt py signalTimestamp (.dict []) := ⟨.inl rfl, by rw [normalize_eq]; rfl⟩
  rw [normalize_eq value]
  cases readable value with
  | false => exact ⟨.dict [], rfl, hempty⟩
  | true =>
    cases hsignal : timestamp py signalTimestamp with
    | none => exact ⟨.dict [], rfl, hempty⟩
    | some signal =>
      have hselected : PreSignal signal (selectedSnapshots py signal (snapshotsOf value)) :=
        selected_preSignal (timestamp_nonneg hsignal) (hrep.lt hsignal) _
      obtain ⟨result, hresult, hshape, hagain⟩ := normalize_collection hrep hsignal hselected
      refine ⟨result, hresult, ?_, hagain⟩
      rcases hshape with hnil | ⟨start, hcollection⟩
      · exact .inl hnil
      · exact .inr ⟨signal, start, _, hsignal, hcollection, hselected⟩

/-- Only the version and what was known at the signal count. -/
theorem normalize_congr {value value' signalTimestamp : Value}
    (hschema : value.get "schema_version" = value'.get "schema_version")
    (hcollector : value.get "collector_version" = value'.get "collector_version")
    (hpast : ∀ signal, timestamp py signalTimestamp = some signal →
      (snapshotsOf value).filter (knownAt py signal) = (snapshotsOf value').filter (knownAt py signal)) :
    normalizeProspectiveFeatureCollection py value signalTimestamp =
      normalizeProspectiveFeatureCollection py value' signalTimestamp := by
  have hreadable : readable value = readable value' := by
    unfold readable
    rw [hschema, hcollector]
  rw [normalize_eq value, normalize_eq value', hreadable]
  cases hsignal : timestamp py signalTimestamp with
  | none => rfl
  | some signal =>
    have hsame : selectedSnapshots py signal (snapshotsOf value) =
        selectedSnapshots py signal (snapshotsOf value') := by
      unfold selectedSnapshots
      rw [← normalizedSnapshots_known signal (snapshotsOf value), hpast signal hsignal, normalizedSnapshots_known]
    simp only [hsame]

/-- The row of a decision gets a normal form. -/
theorem decisionCollection_normal (given existing : Value) {signalTimestamp : Value}
    (hrep : Representable py signalTimestamp) :
    ∃ result, decisionCollection py given existing signalTimestamp = some result ∧
      NormalAt py signalTimestamp result := by
  obtain ⟨result, hresult, hnormal⟩ := normalize_normal given hrep
  unfold decisionCollection
  rw [hresult, Option.bind_some]
  split
  · exact normalize_normal _ hrep
  · exact ⟨result, rfl, hnormal⟩

/-- No look-ahead: what a collection normalizes to depends on what was known at the signal; it holds at
most six snapshots, of increasing minutes, from the 900 seconds before the signal; and it is its own
normal form. -/
theorem no_look_ahead {value value' signalTimestamp : Value}
    (hschema : value.get "schema_version" = value'.get "schema_version")
    (hcollector : value.get "collector_version" = value'.get "collector_version")
    (hpast : ∀ signal, timestamp py signalTimestamp = some signal →
      (snapshotsOf value).filter (knownAt py signal) = (snapshotsOf value').filter (knownAt py signal))
    (hrep : Representable py signalTimestamp) :
    normalizeProspectiveFeatureCollection py value signalTimestamp =
        normalizeProspectiveFeatureCollection py value' signalTimestamp ∧
      ∃ result, normalizeProspectiveFeatureCollection py value signalTimestamp = some result ∧
        NormalAt py signalTimestamp result :=
  ⟨normalize_congr hschema hcollector hpast, normalize_normal value hrep⟩

end Collections

/-! ## Two futures -/

/-- Texts that are no numbers and no times. -/
def plainTexts : Texts := ⟨fun _ => none, fun _ => none, fun _ => "1970-01-01T00:16:20Z"⟩

theorem exact_500 : |(500 : ℤ)| < 2 ^ 53 := by norm_num

theorem exact_1000 : |(1000 : ℤ)| < 2 ^ 53 := by norm_num

theorem exact_1500 : |(1500 : ℤ)| < 2 ^ 53 := by norm_num

theorem exact_2000 : |(2000 : ℤ)| < 2 ^ 53 := by norm_num

def snapshotAt (epoch : ℤ) (h : |epoch| < 2 ^ 53) : MomentumPreSignalSnapshot :=
  ⟨seconds epoch h, seconds 10 (by norm_num), 3, 2, seconds 500 exact_500, none⟩

/-- A collection whose second snapshot is later than the signal. -/
def followedBy (later : ℤ) (h : |later| < 2 ^ 53) : Value :=
  collection "" [snapshotAt 980 (by norm_num), snapshotAt later h]

/-- A signal at 1000. -/
def signalAt : Value := .ofDouble (seconds 1000 exact_1000)

theorem no_look_ahead_twoFutures :
    normalizeProspectiveFeatureCollection plainTexts (followedBy 1500 exact_1500) signalAt =
        normalizeProspectiveFeatureCollection plainTexts (followedBy 2000 exact_2000) signalAt ∧
      ∃ result, normalizeProspectiveFeatureCollection plainTexts (followedBy 1500 exact_1500) signalAt =
        some result ∧ NormalAt plainTexts signalAt result := by
  have hsignal : timestamp plainTexts signalAt = some (seconds 1000 exact_1000) :=
    timestamp_ofDouble (by simp [seconds])
  refine no_look_ahead rfl rfl (fun signal h => ?_) (fun epoch h => ?_)
  · obtain rfl := Option.some.inj (hsignal.symm.trans h)
    rfl
  · obtain rfl := Option.some.inj (hsignal.symm.trans h)
    norm_num [isoTimestamp, seconds, endOfTime]

end Aibot.Research
