/-
What the hourly rollups keep from refresh to refresh. A raw bucket only grows while the raw document has it,
and one that the retention has cut does not come back. So an hour that is built again does not shrink, where
the writes and the refreshes come in the order of their flushes and the buckets of the stored hour are there.
-/
import Aibot.Coverage.Rollup

namespace Aibot.Coverage

section Growth

variable {μ : Type} {env : Env μ} {count : Bucket μ → Nat} {weight : Event μ → Nat}

/-! ## The events of a stage -/

/-- The events of a stage of a family. -/
def stageCount (family stage : String) (bucket : Bucket μ) : Nat :=
  ((bucket.families.get? family).getD .empty).valueOf Metric.eventCount stage

theorem valueOf_foldl_set {α : Type} {f : α → Nat} {key : String} {change : Dict String α → String × α → α}
    (hchange : ∀ t item, f (change t item) = t.valueOf f item.1 + f item.2) (target source : Dict String α) :
    (source.entries.foldl (fun t item => t.set item.1 (change t item)) target).valueOf f key =
      target.valueOf f key + source.valueOf f key := by
  have hstep : ∀ item ∈ source.entries, ∀ t : Dict String α, True → True ∧
      (t.set item.1 (change t item)).valueOf f key = t.valueOf f key + if item.1 = key then f item.2 else 0 := by
    intro item _ t _
    refine ⟨trivial, ?_⟩
    rw [Dict.valueOf_set, hchange]
    by_cases hkey : key = item.1
    · rw [if_pos hkey, if_pos hkey.symm, hkey]
    · rw [if_neg hkey, if_neg (Ne.symm hkey), Nat.add_zero]
  have hfold := (foldl_quantity (fun _ => True) (Dict.valueOf f · key)
    (fun item : String × α => if item.1 = key then f item.2 else 0) hstep (b := target) trivial).2
  rw [Dict.valueOf_eq_sumAt f source]
  exact hfold

theorem valueOf_mergeStages (target source : Dict String Metric) (stage : String) :
    (mergeStages target source).valueOf Metric.eventCount stage =
      target.valueOf Metric.eventCount stage + source.valueOf Metric.eventCount stage := by
  apply valueOf_foldl_set
  intro t item
  unfold Dict.valueOf
  cases t.get? item.1 <;> rfl

/-- The weight of a funnel event of the stage of the family. -/
def stageCountWeight (env : Env μ) (family stage : String) : Event μ → Nat
  | .funnelStage stage' _ family' _ => if env.family family' = family ∧ stage' = stage then 1 else 0
  | _ => 0

theorem valueOf_getD (families : Dict String (Dict String Metric)) (family stage : String) :
    ((families.get? family).getD .empty).valueOf Metric.eventCount stage =
      families.valueOf (Dict.valueOf Metric.eventCount · stage) family := by
  unfold Dict.valueOf
  cases families.get? family <;> rfl

theorem stageCount_tally (family stage : String) :
    Tally env (stageCount family stage) (stageCountWeight env family stage) where
  empty _ := rfl
  heartbeat _ := rfl
  add bucket e := by
    cases e with
    | funnelStage stage' mint family' epoch =>
      unfold stageCount stageCountWeight
      show ((((bucket.families.set (env.family family')
        (((bucket.families.get? (env.family family')).getD .empty).set stage' _)).get?
          family).getD .empty).valueOf _ _) =
          _ + if env.family family' = family ∧ stage' = stage then 1 else 0
      rw [Dict.get?_set]
      by_cases hfamily : family = env.family family'
      · rw [if_pos hfamily, Option.getD_some, Dict.valueOf_set, ← hfamily]
        by_cases hstage : stage = stage'
        · rw [if_pos hstage, if_pos ⟨rfl, hstage.symm⟩, hstage]
          unfold Dict.valueOf
          cases ((bucket.families.get? family).getD Dict.empty).get? stage' <;> rfl
        · rw [if_neg hstage, if_neg fun h => hstage h.2.symm, Nat.add_zero]
      · rw [if_neg hfamily, if_neg fun h => hfamily h.1.symm, Nat.add_zero]
    | confirmationResult | rpcMethodMetric => rfl
  merge target source := by
    unfold stageCount
    rw [valueOf_getD, valueOf_getD, valueOf_getD]
    refine valueOf_foldl_set (fun t item => ?_) target.families source.families
    rw [valueOf_mergeStages, valueOf_getD]

/-! ## Raw buckets -/

/-- Every count of the first bucket is at most that of the second one. -/
def Bucket.Grows (env : Env μ) (raw raw' : Bucket μ) : Prop :=
  ∀ count weight, Tally env count weight → count raw ≤ count raw'

/-- The starts of the buckets of a version. -/
def Version.starts (v : Version μ) : List Nat := v.buckets.map (·.bucketStartEpoch)

/-- The retention has cut the bucket, or would cut it: it is before the cutoff, or as many buckets as are kept
are after it. -/
def Dead (start : Nat) (v : Version μ) : Prop :=
  start + (MAX_BUCKETS - 1) * BUCKET_SECONDS < bucketStart v.now ∨ MAX_BUCKETS ≤ v.starts.countP (start < ·)

/-- The second version comes after the first one: its buckets have grown, but for those that are cut, and those
stay cut. -/
structure Later (env : Env μ) (v w : Version μ) : Prop where
  le : v.now ≤ w.now
  grows : ∀ raw ∈ v.buckets, (∃ raw' ∈ w.buckets, raw'.bucketStartEpoch = raw.bucketStartEpoch ∧ raw.Grows env raw') ∨
    Dead raw.bucketStartEpoch w
  dead : ∀ start, Dead start v → Dead start w

theorem Later.trans {v w u : Version μ} (h : Later env v w) (h' : Later env w u) : Later env v u := by
  refine ⟨h.le.trans h'.le, fun raw hraw => ?_, fun start hstart => h'.dead start (h.dead start hstart)⟩
  rcases h.grows raw hraw with ⟨raw', hraw', hstart, hgrows⟩ | hdead
  · rw [← hstart]
    rcases h'.grows raw' hraw' with ⟨raw'', hraw'', hstart', hgrows'⟩ | hdead
    · left
      refine ⟨raw'', hraw'', hstart', fun count weight htally => ?_⟩
      exact (hgrows count weight htally).trans (hgrows' count weight htally)
    · exact Or.inr hdead
  · exact Or.inr (h'.dead _ hdead)

/-- A version has one bucket for a start, and none that is cut. -/
structure Version.Sound (v : Version μ) : Prop where
  nodup : v.starts.Nodup
  alive : ∀ start ∈ v.starts, ¬ Dead start v

theorem bucketStart_mono {epoch epoch' : ℚ} (h : epoch ≤ epoch') : bucketStart epoch ≤ bucketStart epoch' := by
  unfold bucketStart
  apply Nat.mul_le_mul_right
  apply Int.toNat_le_toNat
  apply Rat.floor_monotone
  exact div_le_div_of_nonneg_right h (by norm_num [BUCKET_SECONDS])

/-! ## The retention -/

section Retention

variable (now : ℚ) (indexed : Buckets μ)

/-- The starts that are not before the cutoff, in order. -/
def recent : List Nat :=
  ((indexed.entries.map Prod.fst).insertionSort (· ≤ ·)).filter fun start =>
    bucketStart now ≤ start + (MAX_BUCKETS - 1) * BUCKET_SECONDS

theorem retained_eq :
    retained now indexed = (recent now indexed).drop ((recent now indexed).length - MAX_BUCKETS) := rfl

theorem mem_recent {start : Nat} : start ∈ recent now indexed ↔
    (indexed.get? start).isSome = true ∧ bucketStart now ≤ start + (MAX_BUCKETS - 1) * BUCKET_SECONDS := by
  unfold recent
  rw [List.mem_filter, (List.perm_insertionSort _ _).mem_iff, decide_eq_true_eq, Option.isSome_iff_ne_none, ne_eq,
    Dict.get?_eq_none, not_not]

theorem sorted_recent : (recent now indexed).Pairwise (· < ·) := by
  have hnodup : (recent now indexed).Nodup :=
    ((List.perm_insertionSort (· ≤ ·) _).nodup_iff.2 indexed.nodup).filter _
  have hsorted : (recent now indexed).Pairwise (· ≤ ·) :=
    (List.pairwise_insertionSort (· ≤ ·) (indexed.entries.map Prod.fst)).filter _
  exact (hsorted.and hnodup).imp fun {a b} h => lt_of_le_of_ne h.1 h.2

variable {now indexed} {start : Nat}

/-- Where so many starts come after a start, all that are kept do. -/
theorem countP_retained (h : MAX_BUCKETS ≤ (recent now indexed).countP (start < ·)) :
    MAX_BUCKETS ≤ (retained now indexed).countP (start < ·) := by
  rw [retained_eq]
  have hsorted := sorted_recent now indexed
  generalize recent now indexed = l at h hsorted
  have hlength : l.countP (start < ·) ≤ l.length := List.countP_le_length
  have hall : ∀ x ∈ l.drop (l.length - MAX_BUCKETS), start < x := by
    intro x hx
    by_contra hle
    obtain ⟨pre, post, hsplit⟩ := List.append_of_mem hx
    have hpost : post.length < MAX_BUCKETS := by
      have hdrop := congrArg List.length hsplit
      rw [List.length_drop, List.length_append, List.length_cons] at hdrop
      omega
    -- what is before `x` is not after the start either
    have hwhole : l = (l.take (l.length - MAX_BUCKETS) ++ pre) ++ x :: post := by
      rw [List.append_assoc, ← hsplit, List.take_append_drop]
    rw [hwhole] at hsorted h
    have hbefore := (List.pairwise_append.1 hsorted).2.2
    have hzero : (l.take (l.length - MAX_BUCKETS) ++ pre).countP (start < ·) = 0 := by
      refine List.countP_eq_zero.2 fun y hy => ?_
      have hlt := hbefore y hy x List.mem_cons_self
      simpa using (hlt.le.trans (not_lt.1 hle))
    have hpostCount : post.countP (start < ·) ≤ post.length := List.countP_le_length
    rw [List.countP_append, hzero, List.countP_cons_of_neg (by simpa using hle)] at h
    omega
  have hcount : (l.drop (l.length - MAX_BUCKETS)).countP (start < ·) = (l.drop (l.length - MAX_BUCKETS)).length :=
    List.countP_eq_length.2 fun x hx => by simpa using hall x hx
  rw [hcount, List.length_drop]
  omega

/-- A recent start that is not kept is before all that are. -/
theorem countP_of_not_retained (h : start ∈ recent now indexed) (hnot : start ∉ retained now indexed) :
    MAX_BUCKETS ≤ (retained now indexed).countP (start < ·) := by
  rw [retained_eq] at hnot ⊢
  have hsorted := sorted_recent now indexed
  generalize recent now indexed = l at h hnot hsorted
  rw [← List.take_append_drop (l.length - MAX_BUCKETS) l, List.mem_append] at h
  have htake := h.resolve_right hnot
  rw [← List.take_append_drop (l.length - MAX_BUCKETS) l] at hsorted
  have hbefore := (List.pairwise_append.1 hsorted).2.2 start htake
  have hcount : (l.drop (l.length - MAX_BUCKETS)).countP (start < ·) = (l.drop (l.length - MAX_BUCKETS)).length :=
    List.countP_eq_length.2 fun x hx => by simpa using hbefore x hx
  have hpos := List.length_pos_of_mem htake
  rw [List.length_take] at hpos
  rw [hcount, List.length_drop]
  omega

end Retention

/-! ## A write -/

section Write

variable (env) {now : ℚ} {batch : Buckets μ} {document : List (Bucket μ)}

/-- The mutated document has the buckets that it had. -/
theorem isSome_mutated {start : Nat} (hnodup : (document.map (·.bucketStartEpoch)).Nodup)
    (h : start ∈ document.map (·.bucketStartEpoch)) : ((mutated env now batch document).get? start).isSome = true := by
  have hdocument : ((indexDocument document).get? start).isSome = true := by
    obtain ⟨raw, hraw, hstart⟩ := List.mem_map.1 h
    exact Option.isSome_iff_exists.2 ⟨raw, (Dict.get?_index hnodup).2 ⟨hraw, hstart⟩⟩
  have hmerged : ((mergeBatch env batch (indexDocument document)).get? start).isSome = true :=
    Dict.isSome_foldl_set batch.entries hdocument
  unfold mutated beat
  rw [Dict.get?_set]
  split_ifs
  · rfl
  · exact hmerged

theorem starts_mutate (hnodup : (document.map (·.bucketStartEpoch)).Nodup) :
    (mutate env now batch document).map (·.bucketStartEpoch) = retained now (mutated env now batch document) := by
  have hkeyed : Keyed (mutated env now batch document) := (mutated_spec confirmations_tally hnodup now batch).1
  unfold mutate
  rw [List.map_filterMap]
  refine (List.filterMap_congr fun start hstart => ?_).trans (List.filterMap_some ..)
  obtain ⟨bucket, hbucket⟩ := Option.isSome_iff_exists.1 (mem_of_retained hstart)
  rw [hbucket, Option.map_some, hkeyed start bucket hbucket]

/-- What is written has one bucket for a start, and none that is cut. -/
theorem sound_mutate (hnodup : (document.map (·.bucketStartEpoch)).Nodup) :
    Version.Sound (⟨now, mutate env now batch document⟩ : Version μ) := by
  have hstarts : Version.starts (⟨now, mutate env now batch document⟩ : Version μ) =
      retained now (mutated env now batch document) := starts_mutate env hnodup
  refine ⟨?_, fun start hstart hdead => ?_⟩
  · rw [hstarts]
    exact retained_nodup now _
  · rw [hstarts] at hstart
    rcases hdead with hcutoff | hafter
    · have hrecent : start ∈ recent now (mutated env now batch document) := List.mem_of_mem_drop hstart
      have hle := ((mem_recent _ _).1 hrecent).2
      dsimp only at hcutoff
      omega
    · -- the start itself is not after the start
      rw [hstarts] at hafter
      have hlength : (retained now (mutated env now batch document)).length ≤ MAX_BUCKETS := by
        rw [retained_eq, List.length_drop]
        omega
      have hlt : (retained now (mutated env now batch document)).countP (start < ·) ≠
          (retained now (mutated env now batch document)).length := by
        intro hall
        have := List.countP_eq_length.1 hall start hstart
        simp at this
      have hle : (retained now (mutated env now batch document)).countP (start < ·) ≤
          (retained now (mutated env now batch document)).length := List.countP_le_length
      omega

/-- A write comes after the version that it changes. -/
theorem later_mutate {v : Version μ} (hsound : v.Sound) (hle : v.now ≤ now) :
    Later env v ⟨now, mutate env now batch v.buckets⟩ := by
  have hstarts : Version.starts (⟨now, mutate env now batch v.buckets⟩ : Version μ) =
      retained now (mutated env now batch v.buckets) := starts_mutate env hsound.nodup
  refine ⟨hle, fun raw hraw => ?_, fun start hstart => ?_⟩
  · have hmem : raw.bucketStartEpoch ∈ v.starts := List.mem_map_of_mem hraw
    have hsome : ((mutated env now batch v.buckets).get? raw.bucketStartEpoch).isSome = true :=
      isSome_mutated env hsound.nodup hmem
    by_cases hkept : raw.bucketStartEpoch ∈ retained now (mutated env now batch v.buckets)
    · left
      obtain ⟨raw', hraw'⟩ := Option.isSome_iff_exists.1 hsome
      refine ⟨raw', List.mem_filterMap.2 ⟨_, hkept, hraw'⟩, ?_, fun count weight htally => ?_⟩
      · have hkeyed : Keyed (mutated env now batch v.buckets) :=
          (mutated_spec confirmations_tally hsound.nodup now batch).1
        exact hkeyed _ _ hraw'
      · have hcount := (mutated_spec htally hsound.nodup now batch).2 raw.bucketStartEpoch
        have hkeys : ((v.buckets.map fun raw => (raw.bucketStartEpoch, raw)).map Prod.fst).Nodup := by
          rw [List.map_map]
          exact hsound.nodup
        have hold : documentCount count v.buckets raw.bucketStartEpoch = count raw :=
          sumAt_of_mem hkeys (List.mem_map_of_mem hraw)
        unfold Dict.valueOf at hcount
        rw [hraw', Option.map_some, Option.getD_some, hold] at hcount
        omega
    · right
      by_cases hcutoff : bucketStart now ≤ raw.bucketStartEpoch + (MAX_BUCKETS - 1) * BUCKET_SECONDS
      · right
        rw [hstarts]
        exact countP_of_not_retained ((mem_recent _ _).2 ⟨hsome, hcutoff⟩) hkept
      · left
        exact not_le.1 hcutoff
  · by_cases hcutoff : bucketStart now ≤ start + (MAX_BUCKETS - 1) * BUCKET_SECONDS
    · right
      rw [hstarts]
      apply countP_retained
      rcases hstart with hbefore | hafter
      · have hmono := bucketStart_mono hle
        omega
      · -- the buckets after the start are still there, and they are recent
        refine hafter.trans ?_
        have hsub : (v.starts.filter (start < ·)).Subperm
            ((recent now (mutated env now batch v.buckets)).filter (start < ·)) := by
          refine List.subperm_of_subset (hsound.nodup.filter _) fun y hy => ?_
          obtain ⟨hy, hlt⟩ := List.mem_filter.1 hy
          refine List.mem_filter.2 ⟨(mem_recent _ _).2 ⟨isSome_mutated env hsound.nodup hy, ?_⟩, hlt⟩
          have hlt : start < y := of_decide_eq_true hlt
          omega
        rw [List.countP_eq_length_filter, List.countP_eq_length_filter]
        exact hsub.length_le
    · left
      exact not_le.1 hcutoff

end Write

/-! ## Hours -/

/-- The hour after has what the hour before had. -/
structure Hour.Grows (hour hour' : Hour μ) : Prop where
  start : hour'.hourStartEpoch = hour.hourStartEpoch
  sources : hour.sourceBucketCount ≤ hour'.sourceBucketCount
  complete : hour.status = .complete → hour'.status = .complete
  stages : ∀ family stage, stageCount family stage hour.merged ≤ stageCount family stage hour'.merged
  confirmations : confirmations hour.merged ≤ confirmations hour'.merged

theorem Hour.Grows.refl (hour : Hour μ) : hour.Grows hour :=
  ⟨rfl, le_rfl, id, fun _ _ => le_rfl, le_rfl⟩

theorem Hour.Grows.trans {hour hour' hour'' : Hour μ} (h : hour.Grows hour') (h' : hour'.Grows hour'') :
    hour.Grows hour'' where
  start := h'.start.trans h.start
  sources := h.sources.trans h'.sources
  complete hcomplete := h'.complete (h.complete hcomplete)
  stages family stage := (h.stages family stage).trans (h'.stages family stage)
  confirmations := h.confirmations.trans h'.confirmations

/-- The raw bucket of a start before the current hour. -/
theorem get?_rawIndex {document : List (Bucket μ)} (hnodup : (document.map (·.bucketStartEpoch)).Nodup)
    {currentHour : Nat} {start : ℤ} {raw : Bucket μ} : (rawIndex document currentHour).get? start = some raw ↔
      raw ∈ document ∧ raw.bucketStartEpoch < currentHour ∧ (raw.bucketStartEpoch : ℤ) = start := by
  have hinner : ((document.filter fun raw => raw.bucketStartEpoch < currentHour).map (·.bucketStartEpoch)).Nodup :=
    hnodup.sublist (List.filter_sublist.map _)
  have hkeys : ((document.filter fun raw => raw.bucketStartEpoch < currentHour).map
      fun raw => (raw.bucketStartEpoch : ℤ)).Nodup := by
    have hcast := hinner.map (Nat.cast_injective (R := ℤ))
    rwa [List.map_map] at hcast
  rw [rawIndex, Dict.get?_index hkeys, List.mem_filter, decide_eq_true_iff, and_assoc]

/-- An hour counts what the raw buckets that it is built from count. -/
theorem count_build (htally : Tally env count weight) (hour : ℤ) (index : Dict ℤ (Bucket μ)) :
    count (buildHourlyRollup env hour index).merged = ((expectedStarts hour).map (index.valueOf count)).sum := by
  have hstep : ∀ raw ∈ ((expectedStarts hour).filter fun start => (index.get? start).isSome).filterMap index.get?,
      ∀ b : Bucket μ, True → True ∧ count (env.mergeBucket b raw) = count b + count raw :=
    fun raw _ b _ => ⟨trivial, htally.merge b raw⟩
  have hfold := (foldl_quantity (fun _ => True) count count hstep (b := emptyBucket 0) trivial).2
  show count ((((expectedStarts hour).filter fun start => (index.get? start).isSome).filterMap index.get?).foldl
    env.mergeBucket (emptyBucket 0)) = _
  rw [hfold, htally.empty, Nat.zero_add]
  induction expectedStarts hour with
  | nil => rfl
  | cons start starts ih =>
    have hvalue : index.valueOf count start = ((index.get? start).map count).getD 0 := rfl
    rw [List.map_cons, List.sum_cons, ← ih, hvalue]
    cases hget : index.get? start with
    | none => simp [hget]
    | some raw => simp [hget]

/-- The raw document has a bucket for the start. -/
def Version.Has (v : Version μ) (start : ℤ) : Prop := ∃ raw ∈ v.buckets, (raw.bucketStartEpoch : ℤ) = start

instance (v : Version μ) : DecidablePred v.Has := fun _ => inferInstanceAs (Decidable (∃ _ ∈ _, _))

theorem mem_expectedHours {now : ℚ} {hour : ℤ} : hour ∈ expectedHours now ↔
    ∃ index < MAX_HOURLY_ROLLUPS, hour = hourStart now - MAX_HOURLY_ROLLUPS * HOUR_SECONDS + index * HOUR_SECONDS := by
  unfold expectedHours
  rw [List.mem_map]
  simp only [List.mem_range, eq_comm]

theorem hourStart_eq (now : ℚ) : (hourStart now : ℤ) = (now / HOUR_SECONDS).floor.toNat * HOUR_SECONDS := by
  unfold hourStart
  push_cast
  rfl

theorem hourStart_mono {now now' : ℚ} (h : now ≤ now') : hourStart now ≤ hourStart now' := by
  unfold hourStart
  apply Nat.mul_le_mul_right
  apply Int.toNat_le_toNat
  apply Rat.floor_monotone
  exact div_le_div_of_nonneg_right h (by norm_num [HOUR_SECONDS])

/-- An hour of a window is in a later window until that begins after it. -/
theorem mem_expectedHours_of_le {now now' : ℚ} {hour : ℤ} (h : hour ∈ expectedHours now) (hle : now ≤ now')
    (hwindow : (hourStart now' : ℤ) - MAX_HOURLY_ROLLUPS * HOUR_SECONDS ≤ hour) : hour ∈ expectedHours now' := by
  obtain ⟨index, hindex, rfl⟩ := mem_expectedHours.1 h
  have hmono : (hourStart now : ℤ) ≤ hourStart now' := by exact_mod_cast hourStart_mono hle
  have hstart := hourStart_eq now
  have hstart' := hourStart_eq now'
  generalize (now / HOUR_SECONDS).floor.toNat = k at hstart
  generalize (now' / HOUR_SECONDS).floor.toNat = k' at hstart'
  refine mem_expectedHours.2 ⟨index + k - k', ?_, ?_⟩
  · unfold MAX_HOURLY_ROLLUPS HOUR_SECONDS at *
    omega
  · unfold MAX_HOURLY_ROLLUPS HOUR_SECONDS at *
    omega

/-- The buckets of an hour of the window are before the current hour. -/
theorem lt_hourStart {now : ℚ} {hour start : ℤ} (h : hour ∈ expectedHours now) (hstart : start ∈ expectedStarts hour) :
    start < hourStart now := by
  obtain ⟨index, hindex, rfl⟩ := mem_expectedHours.1 h
  unfold expectedStarts at hstart
  obtain ⟨i, hi, rfl⟩ := List.mem_map.1 hstart
  have hi := List.mem_range.1 hi
  unfold EXPECTED_BUCKETS_PER_HOUR at hi
  unfold MAX_HOURLY_ROLLUPS HOUR_SECONDS BUCKET_SECONDS at *
  omega

theorem length_expectedStarts (hour : ℤ) : (expectedStarts hour).length = EXPECTED_BUCKETS_PER_HOUR := by
  unfold expectedStarts
  rw [List.length_map, List.length_range]

/-- The hour that a version gives. -/
abbrev Version.hour (env : Env μ) (v : Version μ) (start : ℤ) : Hour μ :=
  buildHourlyRollup env start (rawIndex v.buckets (hourStart v.now))

theorem isSome_rawIndex {v : Version μ} (hsound : v.Sound) {hour start : ℤ} (h : hour ∈ expectedHours v.now)
    (hstart : start ∈ expectedStarts hour) :
    ((rawIndex v.buckets (hourStart v.now)).get? start).isSome = true ↔ v.Has start := by
  have hlt := lt_hourStart h hstart
  rw [Option.isSome_iff_exists]
  constructor
  · rintro ⟨raw, hraw⟩
    obtain ⟨hmem, -, heq⟩ := (get?_rawIndex hsound.nodup).1 hraw
    exact ⟨raw, hmem, heq⟩
  · rintro ⟨raw, hmem, heq⟩
    exact ⟨raw, (get?_rawIndex hsound.nodup).2 ⟨hmem, by omega, heq⟩⟩

variable (env) in
/-- The buckets of an hour that a version has. -/
theorem sources_hour {v : Version μ} (hsound : v.Sound) {hour : ℤ} (h : hour ∈ expectedHours v.now) :
    (v.hour env hour).sourceBucketStarts = (expectedStarts hour).filter fun start => v.Has start := by
  refine List.filter_congr fun start hstart => ?_
  rw [Bool.eq_iff_iff, decide_eq_true_eq]
  exact isSome_rawIndex hsound h hstart

variable (env) in
theorem count_hour {v : Version μ} (hsound : v.Sound) {hour : ℤ} (h : hour ∈ expectedHours v.now) :
    (v.hour env hour).sourceBucketCount = (expectedStarts hour).countP fun start => v.Has start := by
  rw [List.countP_eq_length_filter, ← sources_hour env hsound h]
  rfl

theorem complete_hour {v : Version μ} {hour : ℤ} :
    (v.hour env hour).status = .complete ↔ (v.hour env hour).sourceBucketCount = EXPECTED_BUCKETS_PER_HOUR := by
  show (if (v.hour env hour).sourceBucketCount = EXPECTED_BUCKETS_PER_HOUR then HourStatus.complete else _) = _ ↔ _
  constructor
  · intro hstatus
    by_contra hne
    rw [if_neg hne] at hstatus
    split_ifs at hstatus
  · exact fun hcount => if_pos hcount

theorem count_hour_le {v : Version μ} {hour : ℤ} :
    (v.hour env hour).sourceBucketCount ≤ EXPECTED_BUCKETS_PER_HOUR := by
  rw [← length_expectedStarts hour]
  exact List.length_filter_le ..

theorem Later.refl (v : Version μ) : Later env v v :=
  ⟨le_rfl, fun raw hraw => Or.inl ⟨raw, hraw, rfl, fun _ _ _ => le_rfl⟩, fun _ => id⟩

theorem start_hour (v : Version μ) (hour : ℤ) : (v.hour env hour).hourStartEpoch = hour := rfl

/-- An hour that is built again from a later version has grown, where the version has its buckets. -/
theorem grows_hour {v w : Version μ} (hv : v.Sound) (hw : w.Sound) (h : Later env v w) {hour : ℤ}
    (hhour : hour ∈ expectedHours v.now) (hhour' : hour ∈ expectedHours w.now)
    (hcount : (v.hour env hour).sourceBucketCount ≤ (w.hour env hour).sourceBucketCount)
    (hcovered : ∀ start ∈ (v.hour env hour).sourceBucketStarts, w.Has start) :
    (v.hour env hour).Grows (w.hour env hour) := by
  have hgrows : ∀ count weight, Tally env count weight →
      count (v.hour env hour).merged ≤ count (w.hour env hour).merged := by
    intro count weight htally
    rw [count_build htally, count_build htally]
    refine List.sum_le_sum fun start hstart => ?_
    cases hraw : (rawIndex v.buckets (hourStart v.now)).get? start with
    | none =>
      unfold Dict.valueOf
      rw [hraw]
      exact Nat.zero_le _
    | some raw =>
      obtain ⟨hmem, -, rfl⟩ := (get?_rawIndex hv.nodup).1 hraw
      have hsource : (raw.bucketStartEpoch : ℤ) ∈ (v.hour env hour).sourceBucketStarts := by
        rw [sources_hour env hv hhour]
        exact List.mem_filter.2 ⟨hstart, decide_eq_true ⟨raw, hmem, rfl⟩⟩
      obtain ⟨raw₁, hmem₁, heq₁⟩ := hcovered _ hsource
      have hthere : raw.bucketStartEpoch ∈ w.starts := by
        have heq : raw₁.bucketStartEpoch = raw.bucketStartEpoch := by exact_mod_cast heq₁
        rw [← heq]
        exact List.mem_map_of_mem hmem₁
      obtain ⟨raw', hmem', heq, hle⟩ := (h.grows raw hmem).resolve_right (hw.alive _ hthere)
      have hraw' : (rawIndex w.buckets (hourStart w.now)).get? (raw.bucketStartEpoch : ℤ) = some raw' := by
        have hlt := lt_hourStart hhour' hstart
        refine (get?_rawIndex hw.nodup).2 ⟨hmem', ?_, ?_⟩
        · omega
        · rw [heq]
      unfold Dict.valueOf
      rw [hraw, hraw']
      exact hle count weight htally
  refine ⟨(start_hour w hour).trans (start_hour v hour).symm, hcount, fun hcomplete => ?_, fun family stage => ?_, ?_⟩
  · have hle : (w.hour env hour).sourceBucketCount ≤ EXPECTED_BUCKETS_PER_HOUR := count_hour_le
    have hfull := complete_hour.1 hcomplete
    exact complete_hour.2 (by omega)
  · exact hgrows _ _ (stageCount_tally family stage)
  · exact hgrows _ _ confirmations_tally

end Growth

end Aibot.Coverage
