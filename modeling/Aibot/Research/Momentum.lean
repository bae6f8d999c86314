/-
`MomentumSnapshotStore`: the last snapshots of each mint and pair, replaced within a minute, dropped as
they get old and as keys are touched less recently than others. What it holds is what the whole history
of a key says.
-/
import Aibot.Lib.Floating
import Aibot.Lib.Window
import Aibot.Observation.ShadowStored
import Aibot.Research.Prospective
import Mathlib.Data.List.DropRight

namespace Aibot.Research

open Observation.Stored.Shadow (strip)
open Wallet (lastN lastN_suffix length_lastN lastN_of_length_le lastN_append_of_le lastN_append_of_ge
  lastN_concat lastN_lastN_concat)

/-! ## The store -/

def maxTrackedMintPairs : Nat := 256

variable (py : Texts)

/-- The arguments of `record`. -/
structure RecordCall where
  mint : String
  pairAddress : String
  snapshotAtEpoch : Value
  volumeM5Usd : Value
  buysM5 : Value
  sellsM5 : Value
  liquidityUsd : Value
  priceUsd : Value

/-- `(str(mint).strip(), str(pair_address).strip())`. -/
def seriesKey (mint pairAddress : String) : String × String := (strip mint, strip pairAddress)

/-- The snapshot of the arguments. -/
def RecordCall.snapshot (call : RecordCall) : Option MomentumPreSignalSnapshot :=
  normalizedSnapshot py <| .ofItems
    [("snapshot_at_epoch", ((timestamp py call.snapshotAtEpoch).map Value.ofDouble).getD .none),
      ("volume_m5_usd", call.volumeM5Usd),
      ("buys_m5", call.buysM5),
      ("sells_m5", call.sellsM5),
      ("liquidity_usd", call.liquidityUsd),
      ("price_usd", call.priceUsd)]

/-- The key and the snapshot of a record that is accepted. -/
def RecordCall.accepted (call : RecordCall) : Option ((String × String) × MomentumPreSignalSnapshot) :=
  let key := seriesKey call.mint call.pairAddress
  match call.snapshot py with
  | none => none
  | some snapshot =>
    if key.1 = "" ∨ key.2 = "" ∨ 80 < key.1.length ∨ 160 < key.2.length then none else some (key, snapshot)

/-- A `deque` of at most six with the snapshot, in the place of the last one where that is of its minute. -/
def appended (values : List MomentumPreSignalSnapshot) (snapshot : MomentumPreSignalSnapshot) :
    List MomentumPreSignalSnapshot :=
  if values.getLast?.any fun last => last.bucket = snapshot.bucket then values.dropLast ++ [snapshot]
  else lastN maxPreSignalSnapshots (values ++ [snapshot])

structure MomentumSnapshotStore where
  /-- `_series`, the least recently recorded key first. -/
  series : Dict (String × String) (List MomentumPreSignalSnapshot)

namespace MomentumSnapshotStore

def empty : MomentumSnapshotStore := ⟨Dict.empty⟩

/-- `_evict_expired`. The difference is never out of range. -/
def evictExpired (nowEpoch : Double) (s : MomentumSnapshotStore) : MomentumSnapshotStore :=
  match nowEpoch.sub snapshotTtlSeconds with
  | some oldestAllowed => ⟨s.series.expire (fun snapshot => snapshot.snapshotAtEpoch.val) oldestAllowed.val⟩
  | none => s

/-- `record`, up to the limit of the keys. -/
def recorded (call : RecordCall) (s : MomentumSnapshotStore) : Bool × MomentumSnapshotStore :=
  match call.accepted py with
  | none => (false, s)
  | some (key, snapshot) =>
    let s := s.evictExpired snapshot.snapshotAtEpoch
    let values := s.series.queue key
    if values.getLast?.any fun last => ¬ last.snapshotAtEpoch ≤ snapshot.snapshotAtEpoch then (false, s)
    else (true, ⟨(s.series.erase key).set key (appended values snapshot)⟩)

/-- The keys over the limit. -/
def overLimit (s : MomentumSnapshotStore) : List (String × String) :=
  (s.series.entries.take (s.series.entries.length - maxTrackedMintPairs)).map Prod.fst

/-- `while len(self._series) > MAX_TRACKED_MINT_PAIRS: self._series.popitem(last=False)`. -/
def limited (s : MomentumSnapshotStore) : MomentumSnapshotStore :=
  ⟨s.series.drop (s.series.entries.length - maxTrackedMintPairs)⟩

def record (call : RecordCall) (s : MomentumSnapshotStore) : Bool × MomentumSnapshotStore :=
  let r := s.recorded py call
  (r.1, if r.1 then r.2.limited else r.2)

/-- `collection`; none where it raises. -/
def collection (mint pairAddress : String) (signalTimestamp : Value) (s : MomentumSnapshotStore) :
    Option Value × MomentumSnapshotStore :=
  match timestamp py signalTimestamp with
  | none => (some (.dict []), s)
  | some signal =>
    let s := s.evictExpired signal
    match s.series.queue (seriesKey mint pairAddress) with
    | [] => (some (.dict []), s)
    | values =>
      (normalizeProspectiveFeatureCollection py (.ofItems
        [("schema_version", .int featureCollectionSchemaVersion),
          ("collector_version", .str momentumCollectorVersion),
          ("pre_signal_snapshots", .list (values.map (·.projection)))]) (.ofDouble signal), s)

end MomentumSnapshotStore

/-- A call of the store. -/
inductive StoreCall
  | record (call : RecordCall)
  | collection (mint pairAddress : String) (signalTimestamp : Value)

namespace StoreCall

/-- The time of a call, none where its timestamp is not valid. -/
def time? : StoreCall → Option Double
  | .record call => timestamp py call.snapshotAtEpoch
  | .collection _ _ signalTimestamp => timestamp py signalTimestamp

/-- The valid times of some calls. -/
def validTimes (calls : List StoreCall) : List Double := calls.filterMap (time? py)

def after (s : MomentumSnapshotStore) : StoreCall → MomentumSnapshotStore
  | .record call => (s.record py call).2
  | .collection mint pairAddress signalTimestamp => (s.collection py mint pairAddress signalTimestamp).2

/-- The keys that a call evicts by the limit. -/
def evicted (s : MomentumSnapshotStore) : StoreCall → List (String × String)
  | .record call => if (s.recorded py call).1 then (s.recorded py call).2.overLimit else []
  | .collection .. => []

end StoreCall

/-! ## The specification -/

/-- The snapshots that a key has been given, oldest first. -/
def snapshotHistory (calls : List StoreCall) (key : String × String) : List MomentumPreSignalSnapshot :=
  calls.filterMap fun
    | .record call => (call.accepted py).bind fun p => if p.1 = key then some p.2 else none
    | .collection .. => none

/-- The last snapshot of each minute. -/
def lastOfMinutes : List MomentumPreSignalSnapshot → List MomentumPreSignalSnapshot
  | [] => []
  | s :: later => if later.any fun s' => s'.bucket = s.bucket then lastOfMinutes later else s :: lastOfMinutes later

/-- The latest six minutes that are within the time to live before the signal. -/
def specifiedSnapshots (signal : Double) (history : List MomentumPreSignalSnapshot) : List MomentumPreSignalSnapshot :=
  lastN maxPreSignalSnapshots ((lastOfMinutes history).filter (·.within signal))

def specifiedCollection (history : List MomentumPreSignalSnapshot) (signalTimestamp : Value) : Option Value :=
  match timestamp py signalTimestamp with
  | none => some (.dict [])
  | some signal => collectionOf py (specifiedSnapshots signal history)

/-! ## The newest of a list -/

/-- The newest of what is not too old. -/
theorem lastN_filter {α τ : Type*} [LinearOrder τ] {time : α → τ} {xs : List α} (h : InOrder time xs) (cutoff : τ)
    (n : Nat) : (lastN n xs).filter (cutoff ≤ time ·) = lastN n (xs.filter (cutoff ≤ time ·)) := by
  have hsorted : InOrder time (lastN n xs) := List.Pairwise.sublist (lastN_suffix n xs).sublist h
  rw [← expire_eq_filter h, ← expire_eq_filter hsorted]
  unfold Aibot.expire
  set old : α → Bool := fun a => decide (time a < cutoff)
  have hold : ∀ a ∈ xs.takeWhile old, old a = true := fun a ha => List.mem_takeWhile_imp ha
  have hfirst : ∀ zs : List α, (∀ a ∈ zs, old a = true) →
      (zs ++ xs.dropWhile old).dropWhile old = xs.dropWhile old := by
    intro zs hzs
    rw [List.dropWhile_append_of_pos hzs]
    exact List.dropWhile_idempotent old xs
  nth_rewrite 1 [← List.takeWhile_append_dropWhile (p := old) (l := xs)]
  rcases le_total n (xs.dropWhile old).length with hn | hn
  · rw [lastN_append_of_le hn]
    have hnew : ∀ a ∈ lastN n (xs.dropWhile old), ¬ old a = true := by
      intro a ha hold
      have hmem : a ∈ expire time cutoff xs := (lastN_suffix _ _).mem ha
      rw [expire_eq_filter h] at hmem
      exact absurd (of_decide_eq_true hold) (not_lt.2 (by simpa using (List.mem_filter.1 hmem).2))
    cases hlast : lastN n (xs.dropWhile old) with
    | nil => rfl
    | cons a rest => exact List.dropWhile_cons_of_neg (hnew a (hlast ▸ List.mem_cons_self))
  · rw [lastN_append_of_ge hn, hfirst _ fun a ha => hold a ((lastN_suffix _ _).mem ha),
      lastN_of_length_le hn]

/-! ## Times and minutes -/

/-- The time of a snapshot. -/
def MomentumPreSignalSnapshot.time (s : MomentumPreSignalSnapshot) : ℚ := s.snapshotAtEpoch.val

/-- The oldest time that is not too old. -/
def oldestAllowed (now : Double) : ℚ := rounded (now.val - 900)

theorem oldestAllowed_le (now : Double) : oldestAllowed now ≤ now.val := by
  have hle := rounded_mono (show now.val - 900 ≤ now.val by linarith)
  rwa [rounded_of_isDouble now.isDouble] at hle

theorem oldestAllowed_mono {now now' : Double} (h : now.val ≤ now'.val) : oldestAllowed now ≤ oldestAllowed now' :=
  rounded_mono (sub_le_sub_right h _)

theorem sub_snapshotTtlSeconds {now : Double} (hnow : 0 ≤ now.val) :
    ∃ oldest, now.sub snapshotTtlSeconds = some oldest ∧ oldest.val = oldestAllowed now := by
  have hsub : now.val - snapshotTtlSeconds.val = now.val - 900 := by norm_num [snapshotTtlSeconds, seconds]
  unfold Double.sub oldestAllowed
  rw [hsub]
  refine Double.round_of_between (seconds (-900) (by norm_num)) now ?_ (by linarith)
  show ((-900 : ℤ) : ℚ) ≤ now.val - 900
  push_cast
  linarith

theorem within_iff_oldestAllowed {signal : Double} (hsignal : 0 ≤ signal.val) (s : MomentumPreSignalSnapshot) :
    s.within signal = true ↔ oldestAllowed signal ≤ s.time ∧ s.time ≤ signal.val := by
  obtain ⟨oldest, hoo, hval⟩ := sub_snapshotTtlSeconds hsignal
  unfold MomentumPreSignalSnapshot.within
  rw [hoo, Option.any_some, Bool.and_eq_true, decide_eq_true_iff, decide_eq_true_iff, ← hval]
  rfl

theorem bucket_mono {s s' : MomentumPreSignalSnapshot} (hs : 0 ≤ s.time) (h : s.time ≤ s'.time) :
    s.bucket ≤ s'.bucket := by
  have hval : snapshotBucketSeconds.val = 60 := by norm_num [snapshotBucketSeconds, seconds]
  have hbucket : ∀ x : MomentumPreSignalSnapshot, 0 ≤ x.time → x.bucket = ⌊rounded (⌊x.time / 60⌋ : ℤ)⌋ := by
    intro x hx
    have hfloor : (0 : ℚ) ≤ (⌊x.time / 60⌋ : ℤ) := by exact_mod_cast Int.floor_nonneg.2 (by positivity)
    have hle : ((⌊x.time / 60⌋ : ℤ) : ℚ) ≤ x.time := (Int.floor_le _).trans (by linarith)
    obtain ⟨minute, hminute, hround⟩ := Double.round_of_between (seconds 0 (by norm_num)) x.snapshotAtEpoch
      (by simpa [seconds] using hfloor) hle
    have hdiv : x.snapshotAtEpoch.floorDiv snapshotBucketSeconds = some minute := by
      unfold Double.floorDiv
      rw [hval]
      exact hminute
    unfold MomentumPreSignalSnapshot.bucket
    rw [hdiv, Option.map_some, Option.getD_some, ← hround]
    exact Double.trunc_of_nonneg (hround ▸ rounded_nonneg hfloor)
  rw [hbucket s hs, hbucket s' (hs.trans h)]
  exact Int.floor_le_floor (rounded_mono (by exact_mod_cast Int.floor_le_floor (by linarith)))

/-! ## The last of each minute -/

theorem lastOfMinutes_sublist : ∀ history : List MomentumPreSignalSnapshot, (lastOfMinutes history).Sublist history
  | [] => .slnil
  | s :: later => by
    unfold lastOfMinutes
    split_ifs
    · exact (lastOfMinutes_sublist later).cons s
    · exact (lastOfMinutes_sublist later).cons_cons s

theorem lastOfMinutes_distinct : ∀ history : List MomentumPreSignalSnapshot,
    (lastOfMinutes history).Pairwise fun s s' => s.bucket ≠ s'.bucket
  | [] => .nil
  | s :: later => by
    unfold lastOfMinutes
    split_ifs with hlater
    · exact lastOfMinutes_distinct later
    · refine List.pairwise_cons.2 ⟨fun s' hs' heq => hlater ?_, lastOfMinutes_distinct later⟩
      exact List.any_eq_true.2 ⟨s', (lastOfMinutes_sublist later).subset hs', by simp [heq]⟩

/-- One more snapshot takes the place of the one of its minute. -/
theorem lastOfMinutes_concat (s : MomentumPreSignalSnapshot) : ∀ history : List MomentumPreSignalSnapshot,
    lastOfMinutes (history ++ [s]) = ((lastOfMinutes history).filter fun s' => s'.bucket ≠ s.bucket) ++ [s]
  | [] => rfl
  | first :: later => by
    rw [List.cons_append]
    unfold lastOfMinutes
    rw [List.any_append, lastOfMinutes_concat s later]
    by_cases hlater : (later.any fun s' => s'.bucket = first.bucket) = true
    · rw [hlater, Bool.true_or, if_pos rfl, if_pos rfl]
    · rw [Bool.not_eq_true] at hlater
      rw [hlater, Bool.false_or, if_neg Bool.false_ne_true]
      by_cases hs : s.bucket = first.bucket
      · rw [if_pos (by simp [hs]), List.filter_cons_of_neg (by simp [hs])]
      · rw [if_neg (by simp [hs]), List.filter_cons_of_pos (by simpa using Ne.symm hs), List.cons_append]

/-! ## What the store holds -/

/-- A series holds the latest minutes of its history that are not too old. -/
def HoldsLatest (values history : List MomentumPreSignalSnapshot) (cutoff : ℚ) : Prop :=
  values = lastN maxPreSignalSnapshots ((lastOfMinutes history).filter (cutoff ≤ ·.time))

/-- The snapshots of a history are valid, and came in the order of time up to `now`. -/
structure History (history : List MomentumPreSignalSnapshot) (now : ℚ) : Prop where
  valid : ∀ s ∈ history, s.Valid
  inOrder : InOrder MomentumPreSignalSnapshot.time history
  past : ∀ s ∈ history, s.time ≤ now

section Holds

variable {values history : List MomentumPreSignalSnapshot} {now : ℚ}

theorem History.minutes (h : History history now) : InOrder MomentumPreSignalSnapshot.time (lastOfMinutes history) :=
  List.Pairwise.sublist (lastOfMinutes_sublist history) h.inOrder

theorem History.later {now' : ℚ} (h : History history now) (hnow : now ≤ now') : History history now' :=
  ⟨h.valid, h.inOrder, fun s hs => (h.past s hs).trans hnow⟩

theorem History.concat (h : History history now) {s : MomentumPreSignalSnapshot} (hs : s.Valid) (hnow : now ≤ s.time) :
    History (history ++ [s]) s.time where
  valid s' hs' := by
    rcases List.mem_append.1 hs' with hs' | hs'
    · exact h.valid s' hs'
    · rw [List.mem_singleton.1 hs']
      exact hs
  inOrder := inOrder_concat h.inOrder fun s' hs' => (h.past s' hs').trans hnow
  past s' hs' := by
    rcases List.mem_append.1 hs' with hs' | hs'
    · exact (h.past s' hs').trans hnow
    · rw [List.mem_singleton.1 hs']

/-- Expiry leaves the latest minutes after a later cutoff. -/
theorem HoldsLatest.expire (hhistory : History history now) {cutoff cutoff' : ℚ} (h : HoldsLatest values history cutoff)
    (hcutoff : cutoff ≤ cutoff') :
    HoldsLatest (Aibot.expire MomentumPreSignalSnapshot.time cutoff' values) history cutoff' := by
  have hfull : InOrder MomentumPreSignalSnapshot.time ((lastOfMinutes history).filter (cutoff ≤ ·.time)) :=
    List.Pairwise.filter _ hhistory.minutes
  have hvalues : InOrder MomentumPreSignalSnapshot.time values := by
    rw [h]
    exact List.Pairwise.sublist (lastN_suffix _ _).sublist hfull
  unfold HoldsLatest
  rw [expire_eq_filter hvalues, h, lastN_filter hfull, List.filter_filter]
  congr 1
  refine List.filter_congr fun s _ => ?_
  by_cases hs : cutoff' ≤ s.time
  · simp [hs, hcutoff.trans hs]
  · simp [hs]

/-- Where the last minute is not that of a later snapshot, none is. -/
theorem History.other_minutes (h : History history now) {before : List MomentumPreSignalSnapshot}
    {last s : MomentumPreSignalSnapshot} (hsub : (before ++ [last]).Sublist (lastOfMinutes history))
    (hnow : now ≤ s.time) (hlast : last.bucket ≠ s.bucket) : ∀ s' ∈ before ++ [last], s'.bucket ≠ s.bucket := by
  intro s' hs'
  rcases List.mem_append.1 hs' with hbefore | hs'
  · have hmem : ∀ x ∈ before ++ [last], x ∈ history :=
      fun x hx => (lastOfMinutes_sublist history).subset (hsub.subset hx)
    have hlastmem : last ∈ before ++ [last] := List.mem_append_right _ List.mem_cons_self
    have hne := (List.pairwise_append.1 ((lastOfMinutes_distinct history).sublist hsub)).2.2 s' hbefore last
      List.mem_cons_self
    have hsorted := (List.pairwise_append.1 (List.Pairwise.sublist hsub h.minutes)).2.2
      s' hbefore last List.mem_cons_self
    have hle := bucket_mono (h.valid s' (hmem s' hs')).epoch hsorted
    have hle' := bucket_mono (h.valid last (hmem last hlastmem)).epoch ((h.past last (hmem last hlastmem)).trans hnow)
    omega
  · rw [List.mem_singleton.1 hs']
    exact hlast

/-- A snapshot that is appended is the last of its minute. -/
theorem HoldsLatest.appended (hhistory : History history now) {cutoff : ℚ} (h : HoldsLatest values history cutoff)
    {s : MomentumPreSignalSnapshot} (hnow : now ≤ s.time) (hcutoff : cutoff ≤ s.time) :
    HoldsLatest (Research.appended values s) (history ++ [s]) cutoff := by
  set full := (lastOfMinutes history).filter (cutoff ≤ ·.time) with hfull
  have hsub : full.Sublist (lastOfMinutes history) := List.filter_sublist
  have hnext : (lastOfMinutes (history ++ [s])).filter (cutoff ≤ ·.time) =
      full.filter (fun s' => s'.bucket ≠ s.bucket) ++ [s] := by
    rw [lastOfMinutes_concat, List.filter_append, List.filter_cons_of_pos (by simpa using hcutoff), List.filter_nil,
      hfull, List.filter_filter, List.filter_filter]
    exact congrArg (· ++ [s]) (List.filter_congr fun s' _ => Bool.and_comm _ _)
  have hnewest : ∀ (xs : List MomentumPreSignalSnapshot) (x : MomentumPreSignalSnapshot),
      lastN maxPreSignalSnapshots (xs ++ [x]) = lastN 5 xs ++ [x] := lastN_concat 5
  unfold HoldsLatest at h ⊢
  rw [hnext, h, ← hfull]
  rcases List.eq_nil_or_concat full with hnil | ⟨before, last, hlast⟩
  · rw [hnil]
    rfl
  · rw [List.concat_eq_append] at hlast
    rw [hlast] at hsub ⊢
    unfold Research.appended
    rw [hnewest before last, List.getLast?_concat, Option.any_some]
    split_ifs with hsame
    · -- the minute of the last one, and of no other
      have hbucket : last.bucket = s.bucket := of_decide_eq_true hsame
      have hothers := (List.pairwise_append.1 ((lastOfMinutes_distinct history).sublist hsub)).2.2
      have hbefore : before.filter (fun s' => s'.bucket ≠ s.bucket) = before := by
        refine List.filter_eq_self.2 fun s' hs' => ?_
        simpa [hbucket] using hothers s' hs' last List.mem_cons_self
      rw [List.dropLast_concat, List.filter_append, hbefore, List.filter_cons_of_neg (by simpa using hbucket),
        List.filter_nil, List.append_nil, hnewest]
    · have hbucket : last.bucket ≠ s.bucket := by simpa using hsame
      rw [List.filter_eq_self.2 fun s' hs' => by simpa using hhistory.other_minutes hsub hnow hbucket s' hs', ← hnewest]
      exact lastN_lastN_concat 5 (before ++ [last]) s

end Holds

/-! ## The store over a sequence of calls -/

/-- What a store holds of a key whose history is known up to `now`. -/
structure Tracks (s : MomentumSnapshotStore) (key : String × String) (history : List MomentumPreSignalSnapshot)
    (now : Double) : Prop where
  known : History history now.val
  latest : ∃ cutoff ≤ oldestAllowed now, HoldsLatest (s.series.queue key) history cutoff

section Tracks

variable {py} {s : MomentumSnapshotStore} {key : String × String} {history : List MomentumPreSignalSnapshot}
  {now now' : Double}

theorem Tracks.later (h : Tracks s key history now) (hnow : now.val ≤ now'.val) : Tracks s key history now' := by
  obtain ⟨cutoff, hcutoff, hlatest⟩ := h.latest
  exact ⟨h.known.later hnow, cutoff, hcutoff.trans (oldestAllowed_mono hnow), hlatest⟩

theorem tracks_empty (key : String × String) (now : Double) : Tracks .empty key [] now :=
  ⟨⟨fun _ h => absurd h List.not_mem_nil, .nil, fun _ h => absurd h List.not_mem_nil⟩, oldestAllowed now, le_rfl,
    by simp [HoldsLatest, MomentumSnapshotStore.empty, Dict.queue, lastOfMinutes, lastN]⟩

theorem Tracks.evictExpired (h : Tracks s key history now) (hnonneg : 0 ≤ now'.val) (hnow : now.val ≤ now'.val) :
    HoldsLatest ((s.evictExpired now').series.queue key) history (oldestAllowed now') := by
  obtain ⟨oldest, hoo, hval⟩ := sub_snapshotTtlSeconds hnonneg
  obtain ⟨cutoff, hcutoff, hlatest⟩ := h.latest
  unfold MomentumSnapshotStore.evictExpired
  rw [hoo, Dict.queue_expire, hval]
  exact hlatest.expire h.known (hcutoff.trans (oldestAllowed_mono hnow))

/-- The limit of the keys changes no series but those it evicts. -/
theorem queue_limited (hkey : key ∉ s.overLimit) : s.limited.series.queue key = s.series.queue key := by
  unfold MomentumSnapshotStore.limited Dict.queue
  rw [Dict.get?_drop hkey]

/-- What is accepted is appended to its series, unless that has a later snapshot. -/
theorem recorded_accepted {call : RecordCall} {snapshot : MomentumPreSignalSnapshot}
    (h : call.accepted py = some (key, snapshot)) :
    s.recorded py call =
      if ((s.evictExpired snapshot.snapshotAtEpoch).series.queue key).getLast?.any fun last =>
        ¬ last.snapshotAtEpoch ≤ snapshot.snapshotAtEpoch then (false, s.evictExpired snapshot.snapshotAtEpoch)
      else (true, ⟨((s.evictExpired snapshot.snapshotAtEpoch).series.erase key).set key
        (appended ((s.evictExpired snapshot.snapshotAtEpoch).series.queue key) snapshot)⟩) := by
  unfold MomentumSnapshotStore.recorded
  rw [h]

theorem accepted_time {call : RecordCall} {snapshot : MomentumPreSignalSnapshot}
    (h : call.accepted py = some (key, snapshot)) :
    timestamp py call.snapshotAtEpoch = some snapshot.snapshotAtEpoch ∧ snapshot.Valid := by
  unfold RecordCall.accepted at h
  dsimp only at h
  split at h
  · cases h
  · rename_i read hread
    split_ifs at h
    cases h
    unfold RecordCall.snapshot at hread
    obtain ⟨hvalid, htime⟩ := normalizedSnapshot_valid hread
    refine ⟨?_, hvalid⟩
    have hget : timestamp py (((timestamp py call.snapshotAtEpoch).map Value.ofDouble).getD .none) =
        some snapshot.snapshotAtEpoch := htime
    cases hcall : timestamp py call.snapshotAtEpoch with
    | none =>
      rw [hcall] at hget
      cases hget
    | some epoch =>
      rw [hcall, Option.map_some, Option.getD_some, timestamp_ofDouble (timestamp_nonneg hcall)] at hget
      exact hget

/-- A call without a valid time does nothing. -/
theorem after_of_time?_none {call : StoreCall} (h : call.time? py = none) :
    call.after py s = s ∧ snapshotHistory py [call] key = [] := by
  cases call with
  | record call =>
    have hrejected : call.accepted py = none := by
      cases haccepted : call.accepted py with
      | none => rfl
      | some p =>
        have hnone : timestamp py call.snapshotAtEpoch = none := h
        exact absurd (accepted_time haccepted).1 (by rw [hnone]; simp)
    refine ⟨?_, ?_⟩
    · show (s.record py call).2 = s
      unfold MomentumSnapshotStore.record MomentumSnapshotStore.recorded
      rw [hrejected]
      rfl
    · simp [snapshotHistory, hrejected]
  | collection mint pairAddress signalTimestamp =>
    refine ⟨?_, rfl⟩
    show (s.collection py mint pairAddress signalTimestamp).2 = s
    unfold MomentumSnapshotStore.collection
    rw [show timestamp py signalTimestamp = none from h]

/-- A call at a valid time, that does not evict the key. -/
theorem Tracks.after (h : Tracks s key history now) {call : StoreCall} {time : Double}
    (htime : call.time? py = some time)
    (hnow : now.val ≤ time.val) (hkey : key ∉ call.evicted py s) :
    Tracks (call.after py s) key (history ++ snapshotHistory py [call] key) time := by
  have hnonneg : 0 ≤ time.val := by
    cases call <;> exact timestamp_nonneg htime
  cases call with
  | collection mint pairAddress signalTimestamp =>
    have hafter : ((StoreCall.collection mint pairAddress signalTimestamp).after py s) = s.evictExpired time := by
      show (s.collection py mint pairAddress signalTimestamp).2 = _
      unfold MomentumSnapshotStore.collection
      rw [show timestamp py signalTimestamp = some time from htime]
      dsimp only
      split <;> rfl
    rw [hafter, show snapshotHistory py [.collection mint pairAddress signalTimestamp] key = [] from rfl,
      List.append_nil]
    exact ⟨h.known.later hnow, _, le_rfl, h.evictExpired hnonneg hnow⟩
  | record call =>
    show Tracks (s.record py call).2 key _ time
    cases haccepted : call.accepted py with
    | none =>
      have hhistory : snapshotHistory py [.record call] key = [] := by simp [snapshotHistory, haccepted]
      unfold MomentumSnapshotStore.record MomentumSnapshotStore.recorded
      rw [haccepted, hhistory, List.append_nil]
      exact h.later hnow
    | some p =>
      obtain ⟨key', snapshot⟩ := p
      obtain ⟨hcall, hvalid⟩ := accepted_time haccepted
      obtain rfl := Option.some.inj ((show timestamp py call.snapshotAtEpoch = some time from htime).symm.trans hcall)
      have hevicted := h.evictExpired hnonneg hnow
      have hhistory : snapshotHistory py [.record call] key = if key' = key then [snapshot] else [] := by
        unfold snapshotHistory
        rw [List.filterMap_cons, List.filterMap_nil]
        dsimp only
        rw [haccepted, Option.bind_some]
        split_ifs <;> rfl
      rw [hhistory]
      change key ∉ (if (s.recorded py call).1 then (s.recorded py call).2.overLimit else []) at hkey
      unfold MomentumSnapshotStore.record
      rw [recorded_accepted haccepted] at hkey ⊢
      set stored := s.evictExpired snapshot.snapshotAtEpoch
      have hqueue : ∀ values, ((stored.series.erase key').set key' values).queue key =
          if key = key' then values else stored.series.queue key := by
        intro values
        rw [Dict.queue_set]
        split_ifs with hsame
        · rfl
        · rw [Dict.queue_erase, if_neg hsame]
      by_cases hsame : key' = key
      · subst hsame
        rw [if_pos rfl]
        have hlast : ¬ ((stored.series.queue key').getLast?.any fun last =>
            ¬ last.snapshotAtEpoch ≤ snapshot.snapshotAtEpoch) = true := by
          intro hany
          obtain ⟨last, hlast, hlater⟩ := (Option.any_eq_true _ _).1 hany
          have hmem := List.mem_of_getLast? hlast
          rw [hevicted] at hmem
          have hold := (lastOfMinutes_sublist history).subset (List.mem_filter.1 ((lastN_suffix _ _).mem hmem)).1
          exact of_decide_eq_true hlater ((h.known.past last hold).trans hnow)
        rw [if_neg hlast] at hkey ⊢
        dsimp only at hkey ⊢
        rw [if_pos rfl] at hkey ⊢
        refine ⟨h.known.concat hvalid hnow, oldestAllowed snapshot.snapshotAtEpoch, le_rfl, ?_⟩
        rw [queue_limited hkey, hqueue, if_pos rfl]
        exact hevicted.appended h.known hnow (oldestAllowed_le _)
      · rw [if_neg hsame, List.append_nil]
        refine ⟨h.known.later hnow, oldestAllowed snapshot.snapshotAtEpoch, le_rfl, ?_⟩
        by_cases hlast : ((stored.series.queue key').getLast?.any fun last =>
            ¬ last.snapshotAtEpoch ≤ snapshot.snapshotAtEpoch) = true
        · rw [if_pos hlast]
          dsimp only
          rw [if_neg Bool.false_ne_true]
          exact hevicted
        · rw [if_neg hlast] at hkey ⊢
          dsimp only at hkey ⊢
          rw [if_pos rfl] at hkey ⊢
          rw [queue_limited hkey, hqueue, if_neg (Ne.symm hsame)]
          exact hevicted

/-- The store after some calls. -/
def afterCalls (py : Texts) (s : MomentumSnapshotStore) (calls : List StoreCall) : MomentumSnapshotStore :=
  calls.foldl (fun s call => call.after py s) s

/-- No call evicts the key by the limit. -/
def NeverEvicted (py : Texts) (key : String × String) : MomentumSnapshotStore → List StoreCall → Prop
  | _, [] => True
  | s, call :: calls => key ∉ call.evicted py s ∧ NeverEvicted py key (call.after py s) calls

theorem tracks_afterCalls : ∀ (calls : List StoreCall) {s : MomentumSnapshotStore}
    {history : List MomentumPreSignalSnapshot}
    {now : Double}, Tracks s key history now →
    (StoreCall.validTimes py calls).Pairwise (fun t t' => t.val ≤ t'.val) →
    (∀ t ∈ StoreCall.validTimes py calls, now.val ≤ t.val) → NeverEvicted py key s calls →
    ∀ later : Double, now.val ≤ later.val → (∀ t ∈ StoreCall.validTimes py calls, t.val ≤ later.val) →
      Tracks (afterCalls py s calls) key (history ++ snapshotHistory py calls key) later
  | [], s, history, now, h, _, _, _, later, hlater, _ => by
    rw [show snapshotHistory py [] key = [] from rfl, List.append_nil]
    exact h.later hlater
  | call :: calls, s, history, now, h, hsorted, hnow, hkey, later, hlater, hend => by
    have hhistory : snapshotHistory py (call :: calls) key =
        snapshotHistory py [call] key ++ snapshotHistory py calls key := by
      unfold snapshotHistory
      rw [← List.filterMap_append]
      rfl
    rw [hhistory, ← List.append_assoc]
    show Tracks (afterCalls py (call.after py s) calls) key _ later
    cases htime : call.time? py with
    | none =>
      unfold StoreCall.validTimes at hsorted hnow hend
      rw [List.filterMap_cons_none htime] at hsorted hnow hend
      obtain ⟨hafter, hnone⟩ : call.after py s = s ∧ snapshotHistory py [call] key = [] :=
        after_of_time?_none htime
      rw [hnone, List.append_nil]
      obtain ⟨-, hkey⟩ := hkey
      rw [hafter] at hkey ⊢
      exact tracks_afterCalls calls h hsorted hnow hkey later hlater hend
    | some time =>
      unfold StoreCall.validTimes at hsorted hnow hend
      rw [List.filterMap_cons_some htime] at hsorted hnow hend
      obtain ⟨hfirst, hrest⟩ := List.pairwise_cons.1 hsorted
      exact tracks_afterCalls calls (h.after htime (hnow time List.mem_cons_self) hkey.1) hrest hfirst hkey.2 later
        (hend time List.mem_cons_self) fun t ht => hend t (List.mem_cons_of_mem _ ht)

/-- The collection of a store that tracks the key. -/
theorem Tracks.collection (h : Tracks s key history now) {mint pairAddress : String}
    (hkey : seriesKey mint pairAddress = key) {signalTimestamp : Value}
    (hsignal : timestamp py signalTimestamp = some now) :
    (s.collection py mint pairAddress signalTimestamp).1 = collectionOf py (specifiedSnapshots now history) := by
  have hnonneg := timestamp_nonneg hsignal
  have hlatest := h.evictExpired hnonneg le_rfl
  have hfilter : (lastOfMinutes history).filter (oldestAllowed now ≤ ·.time) =
      (lastOfMinutes history).filter (·.within now) := by
    refine List.filter_congr fun s hs => ?_
    have hpast := h.known.past s ((lastOfMinutes_sublist history).subset hs)
    rw [Bool.eq_iff_iff, decide_eq_true_iff, within_iff_oldestAllowed hnonneg]
    exact ⟨fun hold => ⟨hold, hpast⟩, fun hwithin => hwithin.1⟩
  unfold HoldsLatest at hlatest
  rw [hfilter] at hlatest
  -- what is left of the series is selected again
  have hsub : (specifiedSnapshots now history).Sublist (lastOfMinutes history) :=
    (lastN_suffix _ _).sublist.trans List.filter_sublist
  have hwithin : (specifiedSnapshots now history).filter (·.within now) = specifiedSnapshots now history :=
    List.filter_eq_self.2 fun s hs => (List.mem_filter.1 ((lastN_suffix _ _).mem hs)).2
  have hselected : selectedSnapshots py now ((specifiedSnapshots now history).map (·.projection)) =
      specifiedSnapshots now history := by
    have hvalid : ∀ s ∈ specifiedSnapshots now history, s.Valid := fun s hs =>
      h.known.valid s ((lastOfMinutes_sublist history).subset (hsub.subset hs))
    have hsorted : InOrder MomentumPreSignalSnapshot.time (specifiedSnapshots now history) :=
      List.Pairwise.sublist hsub h.known.minutes
    have hdistinct : (specifiedSnapshots now history).Pairwise fun s s' => s.bucket ≠ s'.bucket :=
      List.Pairwise.sublist hsub (lastOfMinutes_distinct history)
    rw [selectedSnapshots_eq hvalid hsorted hdistinct, hwithin]
    exact lastN_of_length_le ((length_lastN _ _).trans_le (min_le_left _ _))
  have hread : ∀ values : List MomentumPreSignalSnapshot, normalizeProspectiveFeatureCollection py (.ofItems
      [("schema_version", .int featureCollectionSchemaVersion),
        ("collector_version", .str momentumCollectorVersion),
        ("pre_signal_snapshots", .list (values.map (·.projection)))]) (.ofDouble now) =
      collectionOf py (selectedSnapshots py now (values.map (·.projection))) := by
    intro values
    rw [normalize_eq, timestamp_ofDouble hnonneg]
    simp [readable, snapshotsOf, Value.ofItems, Value.get, Value.eqInt, Value.isStr]
  unfold MomentumSnapshotStore.collection
  rw [hsignal, hkey]
  dsimp only
  split
  · rename_i hnil
    rw [hlatest] at hnil
    change specifiedSnapshots now history = [] at hnil
    rw [hnil]
    rfl
  · rw [hread, hlatest]
    exact congrArg (collectionOf py) hselected

end Tracks

/-- Two snapshots of one minute, one of another pair, and one of a later minute. -/
def recordedCalls : List StoreCall :=
  [recordAt "pair" 961, recordAt "pair" 980, recordAt "other" 990, recordAt "pair" 1020].map .record
where
  recordAt (pairAddress : String) (epoch : ℤ) : RecordCall :=
    ⟨"mint", pairAddress, .int epoch, .int 10, .int 3, .int 2, .int 500, .none⟩

instance (py : Texts) (key : String × String) : ∀ (calls : List StoreCall) (s : MomentumSnapshotStore),
    Decidable (NeverEvicted py key s calls)
  | [], _ => .isTrue trivial
  | call :: calls, s =>
    haveI : Decidable (NeverEvicted py key (call.after py s) calls) := instDecidableNeverEvicted py key calls _
    inferInstanceAs (Decidable (_ ∧ _))

end Aibot.Research
