/-
The flush of the coverage telemetry: the pending buckets, the batches that flushes have detached, and
the stored document, under any interleaving of records and flushes that fail or succeed. No event of a
bucket that the retention never cuts is lost or counted twice.
-/
import Aibot.Coverage.Bucket

namespace Aibot.Coverage

def MAX_BUCKETS : Nat := 24

def HOUR_SECONDS : Nat := 3600

/-- `_hour_start(epoch)`. -/
def hourStart (epoch : ℚ) : Nat := (epoch / HOUR_SECONDS).floor.toNat * HOUR_SECONDS

/-! ## Pending buckets -/

section Pending

variable {μ : Type}

/-- The pending buckets by their starts. -/
abbrev Buckets (μ : Type) := Dict Nat (Bucket μ)

/-- `_pending_buckets.pop(min(_pending_buckets), None)`. -/
def popMin (pending : Buckets μ) : Buckets μ :=
  match (pending.entries.map Prod.fst).min? with
  | some start => pending.erase start
  | none => pending

/-- `_pending_bucket(start)`: the bucket is opened, and the oldest ones go while there are too many. -/
def pendingBucket (start : Nat) (pending : Buckets μ) : Buckets μ :=
  let opened := if (pending.get? start).isSome then pending else pending.set start (emptyBucket start)
  popMin^[opened.entries.length - MAX_BUCKETS] opened

/-- A change of the bucket that `_pending_bucket` returns; one that it has popped again is changed for
nothing. -/
def changePending (start : Nat) (change : Bucket μ → Bucket μ) (pending : Buckets μ) : Buckets μ :=
  let pending := pendingBucket start pending
  match pending.get? start with
  | some bucket => pending.set start (change bucket)
  | none => pending

/-- `_merge_pending_back(pending)`. -/
def mergePendingBack (env : Env μ) (batch pending : Buckets μ) : Buckets μ :=
  batch.entries.foldl (fun p item => changePending item.1 (env.mergeBucket · item.2) p) pending

end Pending

/-! ## The stored document -/

section Document

variable {μ : Type} (env : Env μ)

/-- The buckets of the document by their starts. -/
def indexDocument (document : List (Bucket μ)) : Buckets μ :=
  Dict.ofList (document.map fun raw => (raw.bucketStartEpoch, raw))

/-- The batch merged into the buckets of the document. -/
def mergeBatch (batch indexed : Buckets μ) : Buckets μ :=
  batch.entries.foldl
    (fun d item => d.set item.1 (env.mergeBucket ((d.get? item.1).getD (emptyBucket item.1)) item.2)) indexed

/-- The heartbeat of the current bucket. -/
def beat (now : ℚ) (indexed : Buckets μ) : Buckets μ :=
  indexed.set (bucketStart now)
    { (indexed.get? (bucketStart now)).getD (emptyBucket (bucketStart now)) with heartbeatSeen := true }

/-- The starts that the retention keeps: the last ones that are not before the cutoff. -/
def retained (now : ℚ) (indexed : Buckets μ) : List Nat :=
  let kept := ((indexed.entries.map Prod.fst).insertionSort (· ≤ ·)).filter fun start =>
    bucketStart now ≤ start + (MAX_BUCKETS - 1) * BUCKET_SECONDS
  kept.drop (kept.length - MAX_BUCKETS)

/-- The buckets of the mutated document, before the retention. -/
def mutated (now : ℚ) (batch : Buckets μ) (document : List (Bucket μ)) : Buckets μ :=
  beat now (mergeBatch env batch (indexDocument document))

/-- What `mutate` leaves of the document. -/
def mutate (now : ℚ) (batch : Buckets μ) (document : List (Bucket μ)) : List (Bucket μ) :=
  (retained now (mutated env now batch document)).filterMap (mutated env now batch document).get?

end Document

/-! ## Steps -/

/-- A flush between the detaching of its batch and its write. -/
structure Flush (μ : Type) where
  now : ℚ
  pending : Buckets μ
  rollupNeeded : Bool

structure State (μ : Type) where
  pending : Buckets μ
  flushing : List (Flush μ)
  /-- The hours that flushes past their write still have to roll up. -/
  rolling : List Nat
  document : List (Bucket μ)
  lastRawHeartbeatBucketStart : Option Nat
  lastHourlyRefreshBucketStart : Option Nat

/-- A process without pending buckets, and no file. -/
def State.initial {μ : Type} : State μ := ⟨.empty, [], [], [], none, none⟩

inductive Op (μ : Type)
  | record (event : Event μ)
  /-- A flush starts and detaches the pending buckets. -/
  | detach (now : ℚ)
  /-- The document of the flush is written. -/
  | save (flush : Nat)
  /-- `update_json` raises, and the batch is merged back. -/
  | fail (flush : Nat)
  /-- The hourly rollup after a write succeeds or raises. -/
  | rollup (place : Nat) (done : Bool)

section Step

variable {μ : Type} (env : Env μ)

/-- The step of a call. A flush of which nothing is needed returns at once. -/
def step (s : State μ) : Op μ → Option (State μ)
  | .record event =>
    if event.supported then
      some { s with pending := changePending event.start (env.add · event) s.pending }
    else none
  | .detach now =>
    let rollupNeeded := s.lastHourlyRefreshBucketStart ≠ some (hourStart now) ||
      s.pending.entries.any fun item => hourStart item.1 < hourStart now
    let needed := !s.pending.entries.isEmpty || s.lastRawHeartbeatBucketStart ≠ some (bucketStart now) ||
      rollupNeeded
    some { s with
      pending := .empty
      flushing := if needed then s.flushing ++ [⟨now, s.pending, rollupNeeded⟩] else s.flushing }
  | .save i => s.flushing[i]?.map fun flush => { s with
      flushing := s.flushing.eraseIdx i
      rolling := if flush.rollupNeeded then s.rolling ++ [hourStart flush.now] else s.rolling
      document := mutate env flush.now flush.pending s.document
      lastRawHeartbeatBucketStart := some (bucketStart flush.now) }
  | .fail i => s.flushing[i]?.map fun flush => { s with
      flushing := s.flushing.eraseIdx i
      pending := mergePendingBack env flush.pending s.pending }
  | .rollup i done => s.rolling[i]?.map fun hour => { s with
      rolling := s.rolling.eraseIdx i
      lastHourlyRefreshBucketStart := if done then some hour else s.lastHourlyRefreshBucketStart }

end Step

/-! ## The buckets in view -/

/-- The starts of some buckets. -/
def Buckets.starts {μ : Type} (d : Buckets μ) : Finset Nat := (d.entries.map Prod.fst).toFinset

section Conservation

variable {μ : Type} {env : Env μ} {count : Bucket μ → Nat} {weight : Event μ → Nat}

/-- The pending buckets and the detached ones. -/
def State.batches (s : State μ) : List (Buckets μ) := s.pending :: s.flushing.map (·.pending)

/-- The starts of the buckets that are pending or detached. -/
def State.starts (s : State μ) : Finset Nat := (s.batches.map Buckets.starts).foldr (· ∪ ·) ∅

/-- The start that an operation opens a bucket of. -/
def Op.starts : Op μ → Finset Nat
  | .record event => {event.start}
  | _ => ∅

/-- There are at most 24 distinct pending buckets. -/
def Narrow (s : State μ) (op : Op μ) : Prop := (s.starts ∪ op.starts).card ≤ MAX_BUCKETS

/-- A write drops the bucket for the retention. -/
def Cuts (env : Env μ) (start : Nat) (s : State μ) : Op μ → Prop
  | .save i => ∃ flush ∈ s.flushing[i]?, ((mutated env flush.now flush.pending s.document).get? start).isSome = true ∧
      start ∉ retained flush.now (mutated env flush.now flush.pending s.document)
  | _ => False

instance (s : State μ) (op : Op μ) : Decidable (Narrow s op) := inferInstanceAs (Decidable (_ ≤ _))

instance (env : Env μ) (start : Nat) (s : State μ) : (op : Op μ) → Decidable (Cuts env start s op)
  | .save i => inferInstanceAs (Decidable (∃ flush ∈ s.flushing[i]?,
      ((mutated env flush.now flush.pending s.document).get? start).isSome = true ∧
        start ∉ retained flush.now (mutated env flush.now flush.pending s.document)))
  | .record _ | .detach _ | .fail _ | .rollup _ _ => .isFalse id

/-! ## Pending buckets -/

@[simp] theorem mem_starts {d : Buckets μ} {start : Nat} : start ∈ d.starts ↔ (d.get? start).isSome = true := by
  unfold Buckets.starts
  rw [List.mem_toFinset, Option.isSome_iff_ne_none, ne_eq, Dict.get?_eq_none, not_not]

theorem length_entries (d : Buckets μ) : d.entries.length = d.starts.card := by
  unfold Buckets.starts
  rw [List.toFinset_card_of_nodup d.nodup, List.length_map]

theorem starts_set (d : Buckets μ) (start : Nat) (bucket : Bucket μ) :
    Buckets.starts (d.set start bucket) = insert start d.starts := by
  ext k
  rw [mem_starts, Dict.get?_set, Finset.mem_insert, mem_starts]
  split
  · rename_i h
    simp [h]
  · rename_i h
    simp [h]

/-- Where there are not too many starts, the bucket is opened and none goes. -/
theorem pendingBucket_of_narrow {start : Nat} {pending : Buckets μ}
    (h : (insert start pending.starts).card ≤ MAX_BUCKETS) : pendingBucket start pending =
      if (pending.get? start).isSome then pending else pending.set start (emptyBucket start) := by
  have hlength : (if (pending.get? start).isSome then pending
      else pending.set start (emptyBucket start)).entries.length ≤ MAX_BUCKETS := by
    split
    · rename_i hsome
      rw [Finset.insert_eq_of_mem (mem_starts.2 hsome)] at h
      rw [length_entries]
      exact h
    · rw [length_entries, starts_set]
      exact h
  unfold pendingBucket
  simp only
  rw [Nat.sub_eq_zero_of_le hlength]
  rfl

theorem get?_changePending {start : Nat} {change : Bucket μ → Bucket μ} {pending : Buckets μ}
    (h : (insert start pending.starts).card ≤ MAX_BUCKETS) (k : Nat) :
    (changePending start change pending).get? k =
      if k = start then some (change ((pending.get? start).getD (emptyBucket start))) else pending.get? k := by
  unfold changePending
  simp only [pendingBucket_of_narrow h]
  cases hget : pending.get? start with
  | some bucket => simp [hget, Dict.get?_set]
  | none =>
    simp only [Option.isSome_none, Bool.false_eq_true, if_false, Dict.get?_set_self, Option.getD_none]
    rw [Dict.get?_set]
    split
    · rfl
    · rename_i hne
      rw [Dict.get?_set_of_ne _ _ hne]

theorem starts_changePending {start : Nat} {change : Bucket μ → Bucket μ} {pending : Buckets μ}
    (h : (insert start pending.starts).card ≤ MAX_BUCKETS) :
    (changePending start change pending).starts = insert start pending.starts := by
  ext k
  rw [mem_starts, get?_changePending h, Finset.mem_insert, mem_starts]
  split
  · rename_i hk
    simp [hk]
  · rename_i hk
    simp [hk]

/-- A change of a pending bucket that adds to its count. -/
theorem valueOf_changePending (htally : Tally env count weight) {start : Nat} {change : Bucket μ → Bucket μ} {n : Nat}
    (hchange : ∀ bucket, count (change bucket) = count bucket + n) {pending : Buckets μ}
    (h : (insert start pending.starts).card ≤ MAX_BUCKETS) (k : Nat) :
    (changePending start change pending).valueOf count k = pending.valueOf count k + if start = k then n else 0 := by
  unfold Dict.valueOf
  rw [get?_changePending h]
  by_cases hk : k = start
  · subst hk
    cases pending.get? k with
    | some bucket => simp [hchange]
    | none => simp [hchange, htally.empty]
  · simp [hk, Ne.symm hk]

/-- Merged back, a batch adds its counts to the pending ones. -/
theorem valueOf_mergePendingBack (htally : Tally env count weight) {batch pending : Buckets μ}
    (h : (pending.starts ∪ batch.starts).card ≤ MAX_BUCKETS) (k : Nat) :
    (mergePendingBack env batch pending).valueOf count k = pending.valueOf count k + batch.valueOf count k := by
  have hstep : ∀ item ∈ batch.entries, ∀ p : Buckets μ, (p.starts ∪ batch.starts).card ≤ MAX_BUCKETS →
      ((changePending item.1 (env.mergeBucket · item.2) p).starts ∪ batch.starts).card ≤ MAX_BUCKETS ∧
        (changePending item.1 (env.mergeBucket · item.2) p).valueOf count k =
          p.valueOf count k + if item.1 = k then count item.2 else 0 := by
    rintro ⟨start, source⟩ hitem p hp
    have hmem : start ∈ batch.starts := mem_starts.2 (by rw [Dict.get?_eq_some.2 hitem]; rfl)
    have hunion : insert start p.starts ∪ batch.starts = p.starts ∪ batch.starts := by
      rw [Finset.insert_union, Finset.insert_eq_of_mem (Finset.mem_union_right _ hmem)]
    have hnarrow : (insert start p.starts).card ≤ MAX_BUCKETS :=
      le_trans (Finset.card_le_card (hunion ▸ Finset.subset_union_left)) hp
    refine ⟨?_, valueOf_changePending htally (fun bucket => htally.merge bucket source) hnarrow k⟩
    rw [starts_changePending hnarrow, hunion]
    exact hp
  have hfold := (foldl_quantity (fun p : Buckets μ => (p.starts ∪ batch.starts).card ≤ MAX_BUCKETS)
    (Dict.valueOf count · k) (fun item : Nat × Bucket μ => if item.1 = k then count item.2 else 0) hstep h).2
  rw [Dict.valueOf_eq_sumAt count batch]
  exact hfold

/-! ## The document -/

/-- The count of a bucket in the document. -/
def documentCount (count : Bucket μ → Nat) (document : List (Bucket μ)) (start : Nat) : Nat :=
  sumAt count start (document.map fun raw => (raw.bucketStartEpoch, raw))

/-- Every bucket lies under its start. -/
def Keyed (d : Buckets μ) : Prop := ∀ start bucket, d.get? start = some bucket → bucket.bucketStartEpoch = start

theorem keyed_set {d : Buckets μ} (h : Keyed d) {start : Nat} {bucket : Bucket μ}
    (hbucket : bucket.bucketStartEpoch = start) : Keyed (d.set start bucket) := by
  intro k b hb
  rw [Dict.get?_set] at hb
  split at hb
  · rename_i hk
    rw [← Option.some.inj hb, hbucket, hk]
  · exact h k b hb

theorem bucketStartEpoch_getD {d : Buckets μ} (h : Keyed d) (start : Nat) :
    ((d.get? start).getD (emptyBucket start)).bucketStartEpoch = start := by
  cases hget : d.get? start with
  | some bucket => exact h start bucket hget
  | none => rfl

theorem count_getD (htally : Tally env count weight) (d : Buckets μ) (start : Nat) :
    count ((d.get? start).getD (emptyBucket start)) = d.valueOf count start := by
  unfold Dict.valueOf
  cases d.get? start with
  | some bucket => rfl
  | none => exact htally.empty start

theorem indexDocument_spec (count : Bucket μ → Nat) {document : List (Bucket μ)}
    (h : (document.map (·.bucketStartEpoch)).Nodup) :
    Keyed (indexDocument document) ∧
      ∀ start, (indexDocument document).valueOf count start = documentCount count document start := by
  constructor
  · intro start bucket hget
    exact ((Dict.get?_index h).1 hget).2
  · intro start
    rw [Dict.valueOf_eq_sumAt, indexDocument, Dict.entries_index h]
    rfl

theorem mergeBatch_spec (htally : Tally env count weight) {indexed : Buckets μ} (h : Keyed indexed)
    (batch : Buckets μ) : Keyed (mergeBatch env batch indexed) ∧
      ∀ start, (mergeBatch env batch indexed).valueOf count start =
        indexed.valueOf count start + batch.valueOf count start := by
  have hstep : ∀ k, ∀ item ∈ batch.entries, ∀ d : Buckets μ, Keyed d →
      Keyed (d.set item.1 (env.mergeBucket ((d.get? item.1).getD (emptyBucket item.1)) item.2)) ∧
        (d.set item.1 (env.mergeBucket ((d.get? item.1).getD (emptyBucket item.1)) item.2)).valueOf count k =
          d.valueOf count k + if item.1 = k then count item.2 else 0 := by
    rintro k ⟨start, source⟩ - d hd
    refine ⟨keyed_set hd (bucketStartEpoch_getD hd start), ?_⟩
    rw [Dict.valueOf_set, htally.merge, count_getD htally]
    by_cases hk : k = start
    · subst hk
      simp
    · simp [hk, Ne.symm hk]
  have hfold := fun k => foldl_quantity Keyed (Dict.valueOf count · k)
    (fun item : Nat × Bucket μ => if item.1 = k then count item.2 else 0) (hstep k) h
  refine ⟨(hfold 0).1, fun start => ?_⟩
  rw [Dict.valueOf_eq_sumAt count batch]
  exact (hfold start).2

/-- Every bucket of the mutated document has what it had and what the batch adds. -/
theorem mutated_spec (htally : Tally env count weight) {document : List (Bucket μ)}
    (h : (document.map (·.bucketStartEpoch)).Nodup) (now : ℚ) (batch : Buckets μ) :
    Keyed (mutated env now batch document) ∧ ∀ start, (mutated env now batch document).valueOf count start =
      documentCount count document start + batch.valueOf count start := by
  obtain ⟨hindexed, hcount⟩ := indexDocument_spec count h
  obtain ⟨hmerged, hmergedCount⟩ := mergeBatch_spec htally hindexed batch
  refine ⟨keyed_set hmerged (bucketStartEpoch_getD hmerged _), fun start => ?_⟩
  unfold mutated beat
  rw [Dict.valueOf_set, htally.heartbeat, count_getD htally, ← hcount, ← hmergedCount]
  split
  · rename_i hstart
    rw [hstart]
  · rfl

theorem retained_nodup (now : ℚ) (indexed : Buckets μ) : (retained now indexed).Nodup := by
  unfold retained
  apply List.Nodup.sublist (List.drop_sublist _ _)
  apply List.Nodup.filter
  exact (List.perm_insertionSort _ _).nodup_iff.2 indexed.nodup

theorem mem_of_retained {now : ℚ} {indexed : Buckets μ} {start : Nat} (h : start ∈ retained now indexed) :
    (indexed.get? start).isSome = true := by
  unfold retained at h
  have hkey := (List.perm_insertionSort _ _).mem_iff.1 (List.mem_filter.1 (List.mem_of_mem_drop h)).1
  rw [Option.isSome_iff_ne_none, ne_eq, Dict.get?_eq_none, not_not]
  exact hkey

/-- The buckets of some starts, under their starts. -/
theorem map_filterMap_get? {d : Buckets μ} (h : Keyed d) (starts : List Nat) :
    (starts.filterMap d.get?).map (fun raw => (raw.bucketStartEpoch, raw)) =
      starts.filterMap fun start => (d.get? start).map fun raw => (start, raw) := by
  induction starts with
  | nil => rfl
  | cons start starts ih =>
    cases hget : d.get? start with
    | none => simp [hget, ih]
    | some bucket => simp [hget, ih, h start bucket hget]

theorem nodup_mutate (htally : Tally env count weight) {document : List (Bucket μ)}
    (h : (document.map (·.bucketStartEpoch)).Nodup) (now : ℚ) (batch : Buckets μ) :
    ((mutate env now batch document).map (·.bucketStartEpoch)).Nodup := by
  have hkeyed := (mutated_spec htally h now batch).1
  have hstarts : (mutate env now batch document).map (·.bucketStartEpoch) =
      (retained now (mutated env now batch document)).filterMap fun start =>
        ((mutated env now batch document).get? start).map fun _ => start := by
    unfold mutate
    rw [List.map_filterMap]
    apply List.filterMap_congr
    intro start _
    cases hget : (mutated env now batch document).get? start with
    | none => rfl
    | some bucket => simp [hkeyed start bucket hget]
  rw [hstarts]
  refine (retained_nodup now _).filterMap fun start start' k hk hk' => ?_
  obtain ⟨_, -, rfl⟩ := Option.map_eq_some_iff.1 hk
  obtain ⟨_, -, rfl⟩ := Option.map_eq_some_iff.1 hk'
  rfl

/-- A write has in the document what it had and what the batch adds, but for a bucket that is cut. -/
theorem documentCount_mutate (htally : Tally env count weight) {document : List (Bucket μ)}
    (h : (document.map (·.bucketStartEpoch)).Nodup) {now : ℚ} {batch : Buckets μ} {start : Nat}
    (hkept : ((mutated env now batch document).get? start).isSome = true →
      start ∈ retained now (mutated env now batch document)) :
    documentCount count (mutate env now batch document) start =
      documentCount count document start + batch.valueOf count start := by
  obtain ⟨hkeyed, hcount⟩ := mutated_spec htally h now batch
  have hnodup := nodup_mutate htally h now batch
  rw [← hcount]
  unfold documentCount
  cases hget : (mutated env now batch document).get? start with
  | none =>
    have hnot : start ∉ ((mutate env now batch document).map fun raw => (raw.bucketStartEpoch, raw)).map Prod.fst := by
      intro hmem
      unfold mutate at hmem
      rw [map_filterMap_get? hkeyed] at hmem
      obtain ⟨item, hitem, rfl⟩ := List.mem_map.1 hmem
      obtain ⟨k, -, hk⟩ := List.mem_filterMap.1 hitem
      obtain ⟨raw, hraw, rfl⟩ := Option.map_eq_some_iff.1 hk
      rw [hget] at hraw
      cases hraw
    rw [sumAt_eq_zero hnot, Dict.valueOf, hget]
    rfl
  | some bucket =>
    have hmem : (start, bucket) ∈ (mutate env now batch document).map fun raw => (raw.bucketStartEpoch, raw) := by
      unfold mutate
      rw [map_filterMap_get? hkeyed]
      refine List.mem_filterMap.2 ⟨start, hkept (by rw [hget]; rfl), ?_⟩
      rw [hget]
      rfl
    rw [sumAt_of_mem (by simpa [List.map_map, Function.comp_def] using hnodup) hmem, Dict.valueOf, hget]
    rfl

/-! ## Conservation -/

/-- The count of a bucket, persisted and pending together. -/
def total (count : Bucket μ → Nat) (start : Nat) (s : State μ) : Nat :=
  documentCount count s.document start + (s.batches.map (·.valueOf count start)).sum

/-- The weight of an operation for a bucket. -/
def opWeight (weight : Event μ → Nat) (start : Nat) : Op μ → Nat
  | .record event => if event.start = start then weight event else 0
  | _ => 0

/-- The document has one bucket for a start. -/
def Sound (s : State μ) : Prop := (s.document.map (·.bucketStartEpoch)).Nodup

theorem step_record {s t : State μ} {event : Event μ} (h : step env s (.record event) = some t) :
    t = { s with pending := changePending event.start (env.add · event) s.pending } := by
  change (if event.supported = true then _ else none) = _ at h
  split at h
  · exact (Option.some.inj h).symm
  · cases h

theorem sound_step (htally : Tally env count weight) {s t : State μ} {op : Op μ} (h : Sound s)
    (hstep : step env s op = some t) : Sound t := by
  cases op with
  | record event =>
    rw [step_record hstep]
    exact h
  | detach now =>
    rw [← Option.some.inj hstep]
    exact h
  | save i =>
    obtain ⟨flush, -, rfl⟩ := Option.map_eq_some_iff.1 hstep
    exact nodup_mutate htally h flush.now flush.pending
  | fail i | rollup i done =>
    obtain ⟨_, -, rfl⟩ := Option.map_eq_some_iff.1 hstep
    exact h

theorem sum_batches_eraseIdx (count : Bucket μ → Nat) (s : State μ) (start : Nat) {i : Nat} {flush : Flush μ}
    (h : s.flushing[i]? = some flush) :
    (((s.flushing.eraseIdx i).map (·.pending)).map (·.valueOf count start)).sum + flush.pending.valueOf count start =
      ((s.flushing.map (·.pending)).map (·.valueOf count start)).sum := by
  obtain ⟨hi, hflush⟩ := List.getElem?_eq_some_iff.1 h
  have hperm := List.getElem_cons_eraseIdx_perm hi
  rw [hflush] at hperm
  rw [← ((hperm.map (·.pending)).map (·.valueOf count start)).sum_eq]
  simp [add_comm]

theorem subset_foldr_union {d : Buckets μ} : ∀ {ds : List (Buckets μ)}, d ∈ ds →
    d.starts ⊆ (ds.map Buckets.starts).foldr (· ∪ ·) ∅
  | [], h => absurd h List.not_mem_nil
  | d' :: ds, h => by
    rw [List.map_cons, List.foldr_cons]
    rcases List.mem_cons.1 h with rfl | h
    · exact Finset.subset_union_left
    · exact (subset_foldr_union h).trans Finset.subset_union_right

/-- Every batch is in view. -/
theorem starts_subset {s : State μ} {d : Buckets μ} (h : d ∈ s.batches) : d.starts ⊆ s.starts :=
  subset_foldr_union h

/-- A step adds its weight to the total of a bucket that it does not cut. -/
theorem total_step (htally : Tally env count weight) {start : Nat} {s t : State μ} {op : Op μ} (h : Sound s)
    (hnarrow : Narrow s op) (hkept : ¬ Cuts env start s op) (hstep : step env s op = some t) :
    total count start t = total count start s + opWeight weight start op := by
  cases op with
  | record event =>
    rw [step_record hstep]
    have hcard : (insert event.start s.pending.starts).card ≤ MAX_BUCKETS := by
      refine le_trans (Finset.card_le_card ?_) hnarrow
      rw [Finset.insert_eq, Finset.union_comm]
      exact Finset.union_subset_union_left (starts_subset (List.mem_cons_self ..))
    have hpending := valueOf_changePending htally (fun bucket => htally.add bucket event) hcard start
    simp only [total, State.batches, List.map_cons, List.sum_cons, opWeight] at hpending ⊢
    omega
  | detach now =>
    rw [← Option.some.inj hstep]
    simp only [total, State.batches, List.map_cons, List.sum_cons, opWeight, Dict.valueOf_empty]
    split
    · simp only [List.map_append, List.map_cons, List.map_nil, List.sum_append, List.sum_cons, List.sum_nil]
      omega
    · rename_i hneeded
      -- a flush that returns at once has found nothing pending
      have hempty : s.pending.entries = [] := by
        simp only [Bool.or_eq_true, not_or] at hneeded
        simpa using hneeded.1.1
      have hzero : s.pending.valueOf count start = 0 := by
        rw [Dict.valueOf_eq_sumAt, hempty]
        rfl
      omega
  | save i =>
    obtain ⟨flush, hflush, rfl⟩ := Option.map_eq_some_iff.1 hstep
    have hdocument := documentCount_mutate htally h fun hsome => by
      by_contra hnot
      exact hkept ⟨flush, hflush, hsome, hnot⟩
    have herase := sum_batches_eraseIdx count s start hflush
    simp only [total, State.batches, List.map_cons, List.sum_cons, opWeight] at hdocument herase ⊢
    omega
  | fail i =>
    obtain ⟨flush, hflush, rfl⟩ := Option.map_eq_some_iff.1 hstep
    have hmem : flush.pending ∈ s.batches :=
      List.mem_cons_of_mem _ (List.mem_map.2 ⟨flush, List.mem_of_getElem? hflush, rfl⟩)
    have hcard : (s.pending.starts ∪ flush.pending.starts).card ≤ MAX_BUCKETS := by
      refine le_trans (Finset.card_le_card ?_) hnarrow
      exact (Finset.union_subset (starts_subset (List.mem_cons_self ..)) (starts_subset hmem)).trans
        Finset.subset_union_left
    have hback := valueOf_mergePendingBack htally hcard start
    have herase := sum_batches_eraseIdx count s start hflush
    simp only [total, State.batches, List.map_cons, List.sum_cons, opWeight] at hback herase ⊢
    omega
  | rollup i done =>
    obtain ⟨_, -, rfl⟩ := Option.map_eq_some_iff.1 hstep
    rfl

/-- The call records a confirmation result into the bucket. -/
def Op.recordsConfirmation (start : Nat) : Op μ → Bool
  | .record (.confirmationResult _ _ _ _ _ epoch) => bucketStart epoch = start
  | _ => false

/-- The call records a funnel event into the bucket. -/
def Op.recordsStage (start : Nat) : Op μ → Bool
  | .record (.funnelStage _ _ _ epoch) => bucketStart epoch = start
  | _ => false

theorem sum_map_eq_countP {w : Op μ → Nat} {p : Op μ → Bool} (h : ∀ op, w op = if p op then 1 else 0)
    (ops : List (Op μ)) :
    (ops.map w).sum = ops.countP p := by
  induction ops with
  | nil => rfl
  | cons op ops ih =>
    rw [List.map_cons, List.sum_cons, ih, h, List.countP_cons]
    omega

theorem opWeight_confirmation (start : Nat) (op : Op μ) :
    opWeight confirmationWeight start op = if op.recordsConfirmation start then 1 else 0 := by
  cases op with
  | record event =>
    cases event with
    | confirmationResult mint family method provider result epoch =>
      by_cases h : bucketStart epoch = start <;>
        simp [opWeight, confirmationWeight, Op.recordsConfirmation, Event.start, h]
    | funnelStage | rpcMethodMetric => exact ite_self 0
  | detach | save | fail | rollup => rfl

theorem opWeight_stage (start : Nat) (op : Op μ) :
    opWeight stageWeight start op = if op.recordsStage start then 1 else 0 := by
  cases op with
  | record event =>
    cases event with
    | funnelStage stage mint family epoch =>
      by_cases h : bucketStart epoch = start <;> simp [opWeight, stageWeight, Op.recordsStage, Event.start, h]
    | confirmationResult | rpcMethodMetric => exact ite_self 0
  | detach | save | fail | rollup => rfl

theorem total_run (htally : Tally env count weight) {start : Nat} {ops : List (Op μ)} {s : State μ}
    (h : Run (step env) (fun s op => Narrow s op ∧ ¬ Cuts env start s op) .initial ops s) :
    total count start s = (ops.map (opWeight weight start)).sum := by
  have hsound : ∀ s op t, Sound s → Narrow s op ∧ ¬ Cuts env start s op → step env s op = some t → Sound t :=
    fun _ _ _ hs _ hstep => sound_step htally hs hstep
  have htotal : ∀ s op t, Sound s → Narrow s op ∧ ¬ Cuts env start s op → step env s op = some t →
      total count start t = total count start s + opWeight weight start op :=
    fun _ _ _ hs hok hstep => total_step htally hs hok.1 hok.2 hstep
  have hrun := h.quantity hsound htotal List.nodup_nil
  simpa [total, State.initial, State.batches, documentCount, sumAt] using hrun

/-- In every run of records and flushes with at most 24 distinct pending buckets, for a bucket that no
write has cut: the confirmation results in its dimensions and its overflow, persisted and pending
together, are those recorded into it, and so are its funnel events. -/
theorem telemetry_conserved {start : Nat} {ops : List (Op μ)} {s : State μ}
    (h : Run (step env) (fun s op => Narrow s op ∧ ¬ Cuts env start s op) .initial ops s) :
    total confirmations start s = ops.countP (·.recordsConfirmation start) ∧
      total stageEvents start s = ops.countP (·.recordsStage start) := by
  constructor
  · rw [total_run confirmations_tally h, sum_map_eq_countP (opWeight_confirmation start)]
  · rw [total_run stageEvents_tally h, sum_map_eq_countP (opWeight_stage start)]

end Conservation

/-- Texts in one case only, every mint on one bit, and no metrics of methods. -/
def plainEnv : Env Unit := ⟨id, id, fun _ => 0, (), fun _ _ => (), fun _ => 0⟩

/-- A confirmation result at the epoch. -/
def confirmationAt (epoch : ℚ) : Op Unit := .record (.confirmationResult "mint" "A" "getHealth" "ankr" "success" epoch)

/-- A result is recorded, a flush fails, another result comes in between, and a second flush is
written. -/
def twoFlushes : List (Op Unit) :=
  [confirmationAt 10, .detach 20, confirmationAt 30, .fail 0, .detach 40, .save 0]

theorem telemetry_conserved_twoFlushes : ∃ s : State Unit,
    total confirmations 0 s = twoFlushes.countP (·.recordsConfirmation 0) ∧
    total stageEvents 0 s = twoFlushes.countP (·.recordsStage 0) := by
  have hrun : ∃ s, Run (step plainEnv) (fun s op => Narrow s op ∧ ¬ Cuts plainEnv 0 s op) .initial twoFlushes s ∧
      True := Run.exists_of_any (by decide +kernel)
  obtain ⟨s, hrun, -⟩ := hrun
  exact ⟨s, telemetry_conserved hrun⟩

end Aibot.Coverage
