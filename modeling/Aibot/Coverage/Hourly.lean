/-
The hours over whole runs of any number of processes. Where the writes and the refreshes come in the order of
their flushes, and every refresh that finds as many raw buckets as a stored hour was built from finds these
buckets, no hour of the window shrinks.
-/
import Aibot.Coverage.Growth

namespace Aibot.Coverage

section Runs

variable {μ : Type} {env : Env μ}

/-! ## Conditions on a step -/

/-- The first hour of the window. -/
def firstHour (now : ℚ) : ℤ := hourStart now - MAX_HOURLY_ROLLUPS * HOUR_SECONDS

/-- The step does not write after a later flush has written, and does not refresh the hours from a version
before the one that they were refreshed from. -/
def InOrder (s : Host μ) : HostOp μ → Prop
  | .save i => ∀ entry ∈ s.flushing[i]?, ∀ v ∈ s.versions.getLast?, v.now ≤ entry.2.now
  | .refresh i true => ∀ entry ∈ s.refreshing[i]?, s.refreshed ≤ entry.2
  | _ => True

/-- Where a refresh finds as many buckets of an hour as the stored hour was built from, it finds these. -/
def Covered (s : Host μ) : HostOp μ → Prop
  | .refresh i true => ∀ entry ∈ s.refreshing[i]?, ∀ v ∈ s.versions[entry.2]?, ∀ hour ∈ s.hours,
      firstHour v.now ≤ hour.hourStartEpoch →
        hour.sourceBucketCount ≤ (expectedStarts hour.hourStartEpoch).countP (fun start => v.Has start) →
          ∀ start ∈ hour.sourceBucketStarts, v.Has start
  | _ => True

instance (s : Host μ) : (op : HostOp μ) → Decidable (InOrder s op)
  | .save i => inferInstanceAs (Decidable (∀ entry ∈ s.flushing[i]?, ∀ v ∈ s.versions.getLast?, v.now ≤ entry.2.now))
  | .refresh i true => inferInstanceAs (Decidable (∀ entry ∈ s.refreshing[i]?, s.refreshed ≤ entry.2))
  | .refresh _ false | .record _ _ | .detach _ _ | .fail _ | .stop _ => .isTrue trivial

instance (s : Host μ) : (op : HostOp μ) → Decidable (Covered s op)
  | .refresh i true => inferInstanceAs (Decidable (∀ entry ∈ s.refreshing[i]?, ∀ v ∈ s.versions[entry.2]?,
      ∀ hour ∈ s.hours, firstHour v.now ≤ hour.hourStartEpoch →
        hour.sourceBucketCount ≤ (expectedStarts hour.hourStartEpoch).countP (fun start => v.Has start) →
          ∀ start ∈ hour.sourceBucketStarts, v.Has start))
  | .refresh _ false | .record _ _ | .detach _ _ | .save _ | .fail _ | .stop _ => .isTrue trivial

/-! ## The invariant -/

/-- The hour is what a version gives, up to the one that the hours were last refreshed from. -/
def Hour.Built (env : Env μ) (versions : List (Version μ)) (refreshed : Nat) (hour : Hour μ) : Prop :=
  ∃ i ≤ refreshed, ∃ v, versions[i]? = some v ∧ hour.hourStartEpoch ∈ expectedHours v.now ∧
    hour = v.hour env hour.hourStartEpoch

structure Host.Sound (env : Env μ) (s : Host μ) : Prop where
  flushing : ∀ entry ∈ s.flushing, entry.2.now ≤ s.clock
  clock : ∀ v ∈ s.versions, v.now ≤ s.clock
  versions : ∀ v ∈ s.versions, v.Sound
  later : s.versions.Pairwise (Later env)
  hours : ∀ hour ∈ s.hours, hour.Built env s.versions s.refreshed
  nodup : (s.hours.map (·.hourStartEpoch)).Nodup

theorem sound_initial : (Host.initial : Host μ).Sound env where
  flushing := by
    intro entry hentry
    cases hentry
  clock := by
    intro v hv
    cases hv
  versions := by
    intro v hv
    cases hv
  later := List.Pairwise.nil
  hours := by
    intro hour hhour
    cases hhour
  nodup := List.nodup_nil

/-- A version comes after the ones before it. -/
theorem Host.Sound.later_of_le {s : Host μ} (h : s.Sound env) {i j : Nat} {v w : Version μ} (hij : i ≤ j)
    (hv : s.versions[i]? = some v) (hw : s.versions[j]? = some w) : Later env v w := by
  obtain ⟨hi, rfl⟩ := List.getElem?_eq_some_iff.1 hv
  obtain ⟨hj, rfl⟩ := List.getElem?_eq_some_iff.1 hw
  rcases hij.eq_or_lt with rfl | hlt
  · exact Later.refl _
  · exact List.pairwise_iff_getElem.1 h.later i j hi hj hlt

/-! ## A write -/

/-- What a flush writes comes after every version, where no later flush has written before. -/
theorem Host.Sound.save {s : Host μ} (h : s.Sound env) {flush : Flush μ}
    (horder : ∀ v ∈ s.versions.getLast?, v.now ≤ flush.now) :
    (∀ v ∈ s.versions, Later env v ⟨flush.now, mutate env flush.now flush.pending s.document⟩) ∧
      Version.Sound (⟨flush.now, mutate env flush.now flush.pending s.document⟩ : Version μ) := by
  cases hlast : s.versions.getLast? with
  | none =>
    have hnil := List.getLast?_eq_none_iff.1 hlast
    refine ⟨fun v hv => ?_, sound_mutate env ?_⟩
    · rw [hnil] at hv
      cases hv
    · unfold Host.document
      rw [hlast]
      exact List.nodup_nil
  | some last =>
    have hdocument : s.document = last.buckets := by
      unfold Host.document
      rw [hlast]
      rfl
    have hsound := h.versions last (List.mem_of_getLast? hlast)
    have hwrite : Later env last ⟨flush.now, mutate env flush.now flush.pending last.buckets⟩ :=
      later_mutate env hsound (horder last hlast)
    rw [hdocument]
    refine ⟨fun v hv => ?_, sound_mutate env hsound.nodup⟩
    obtain ⟨i, hi⟩ := List.mem_iff_getElem?.1 hv
    have hlt := (List.getElem?_eq_some_iff.1 hi).1
    rw [List.getLast?_eq_getElem?] at hlast
    exact (h.later_of_le (by omega) hi hlast).trans hwrite

/-! ## A refresh -/

section Refresh

variable {now : ℚ} {document : List (Bucket μ)} {hours : List (Hour μ)}

theorem refreshHours_eq : refreshHours env now document hours = (expectedHours now).map
    (selectedHour env (rawIndex document (hourStart now))
      (Dict.ofList (hours.map fun hour => (hour.hourStartEpoch, hour)))) := by
  have hlength : ((expectedHours now).map (selectedHour env (rawIndex document (hourStart now))
      (Dict.ofList (hours.map fun hour => (hour.hourStartEpoch, hour))))).length - MAX_HOURLY_ROLLUPS = 0 := by
    unfold expectedHours
    rw [List.length_map, List.length_map, List.length_range, Nat.sub_self]
  unfold refreshHours
  dsimp only
  rw [hlength, List.drop_zero]

variable (env) in
/-- An hour that is stored is the one that was built, or the one that was stored before. -/
theorem selectedHour_cases (hnodup : (hours.map (·.hourStartEpoch)).Nodup) (index : Dict ℤ (Bucket μ)) (start : ℤ) :
    let selected := selectedHour env index (Dict.ofList (hours.map fun hour => (hour.hourStartEpoch, hour))) start
    selected = buildHourlyRollup env start index ∧ (∀ prior ∈ hours, prior.hourStartEpoch = start →
        prior.sourceBucketCount ≤ (buildHourlyRollup env start index).sourceBucketCount) ∨
      selected ∈ hours ∧ selected.hourStartEpoch = start := by
  dsimp only
  unfold selectedHour
  dsimp only
  cases hprior : (Dict.ofList (hours.map fun hour => (hour.hourStartEpoch, hour))).get? start with
  | none =>
    left
    refine ⟨rfl, fun prior hmem hstart => ?_⟩
    rw [(Dict.get?_index hnodup).2 ⟨hmem, hstart⟩] at hprior
    cases hprior
  | some prior =>
    dsimp only
    split_ifs with hle
    · left
      refine ⟨rfl, fun prior' hmem hstart => ?_⟩
      rw [(Dict.get?_index hnodup).2 ⟨hmem, hstart⟩] at hprior
      rw [Option.some.inj hprior]
      exact hle
    · right
      exact (Dict.get?_index hnodup).1 hprior

theorem start_selectedHour (hnodup : (hours.map (·.hourStartEpoch)).Nodup) (index : Dict ℤ (Bucket μ)) (start : ℤ) :
    (selectedHour env index (Dict.ofList (hours.map fun hour => (hour.hourStartEpoch, hour))) start).hourStartEpoch =
      start := by
  rcases selectedHour_cases env hnodup index start with ⟨heq, -⟩ | ⟨-, hstart⟩
  · rw [heq]
    rfl
  · exact hstart

theorem nodup_expectedHours (now : ℚ) : (expectedHours now).Nodup := by
  refine List.nodup_range.map fun index index' h => ?_
  unfold HOUR_SECONDS at h
  omega

theorem nodup_refreshHours (hnodup : (hours.map (·.hourStartEpoch)).Nodup) :
    ((refreshHours env now document hours).map (·.hourStartEpoch)).Nodup := by
  rw [refreshHours_eq, List.map_map]
  refine (List.map_congr_left fun start _ => ?_).trans (List.map_id _) ▸ nodup_expectedHours now
  exact start_selectedHour hnodup _ start

end Refresh

/-! ## Steps -/

/-- The version and the process of a refresh. -/
theorem hostStep_refresh {s t : Host μ} {i : Nat} {done : Bool} (h : hostStep env s (.refresh i done) = some t) :
    ∃ entry v, s.refreshing[i]? = some entry ∧ s.versions[entry.2]? = some v ∧ t.clock = s.clock ∧
      t.flushing = s.flushing ∧ t.versions = s.versions ∧
      t.hours = (if done then refreshHours env v.now v.buckets s.hours else s.hours) ∧
      t.refreshed = if done then entry.2 else s.refreshed := by
  obtain ⟨entry, hentry, h⟩ := Option.bind_eq_some_iff.1 h
  obtain ⟨v, hv, rfl⟩ := Option.map_eq_some_iff.1 h
  refine ⟨entry, v, hentry, hv, ?_⟩
  cases done with
  | true => exact ⟨rfl, rfl, rfl, rfl, rfl⟩
  | false => exact ⟨rfl, rfl, rfl, rfl, rfl⟩

/-- What a call that is no write and no refresh leaves alone. -/
theorem hostStep_other {s t : Host μ} {op : HostOp μ} (hsave : ∀ i, op ≠ .save i)
    (hrefresh : ∀ i done, op ≠ .refresh i done)
    (h : hostStep env s op = some t) : s.clock ≤ t.clock ∧ t.versions = s.versions ∧ t.hours = s.hours ∧
      t.refreshed = s.refreshed ∧ ∀ entry ∈ t.flushing, entry ∈ s.flushing ∨ entry.2.now ≤ t.clock := by
  cases op with
  | record process event =>
    change (if event.supported = true then _ else none) = _ at h
    split_ifs at h
    cases h
    exact ⟨le_rfl, rfl, rfl, rfl, fun _ => Or.inl⟩
  | detach process now =>
    change (if s.clock ≤ now then _ else none) = _ at h
    by_cases hclock : s.clock ≤ now
    · rw [if_pos hclock] at h
      cases h
      refine ⟨hclock, rfl, rfl, rfl, fun entry hentry => ?_⟩
      dsimp only at hentry
      split_ifs at hentry
      · rcases List.mem_append.1 hentry with hentry | hentry
        · exact Or.inl hentry
        · rw [List.mem_singleton.1 hentry]
          exact Or.inr le_rfl
      · exact Or.inl hentry
    · rw [if_neg hclock] at h
      cases h
  | save i => exact absurd rfl (hsave i)
  | fail i =>
    obtain ⟨entry, -, rfl⟩ := Option.map_eq_some_iff.1 h
    exact ⟨le_rfl, rfl, rfl, rfl, fun _ hentry => Or.inl (List.mem_of_mem_eraseIdx hentry)⟩
  | refresh i done => exact absurd rfl (hrefresh i done)
  | stop process =>
    cases h
    exact ⟨le_rfl, rfl, rfl, rfl, fun _ hentry => Or.inl (List.mem_of_mem_filter hentry)⟩

theorem Hour.Built.mono {versions versions' : List (Version μ)} {refreshed refreshed' : Nat} {hour : Hour μ}
    (h : hour.Built env versions refreshed) (hversions : versions <+: versions') (hle : refreshed ≤ refreshed') :
    hour.Built env versions' refreshed' := by
  obtain ⟨i, hi, v, hv, hstart, heq⟩ := h
  obtain ⟨rest, rfl⟩ := hversions
  refine ⟨i, hi.trans hle, v, ?_, hstart, heq⟩
  rw [List.getElem?_append_left (List.getElem?_eq_some_iff.1 hv).1]
  exact hv

/-- Every step in order keeps the invariant. -/
theorem sound_hostStep {s t : Host μ} {op : HostOp μ} (h : s.Sound env) (horder : InOrder s op)
    (hstep : hostStep env s op = some t) : t.Sound env := by
  cases op with
  | save i =>
    obtain ⟨⟨process, flush⟩, hentry, rfl⟩ := Option.map_eq_some_iff.1 hstep
    obtain ⟨hlater, hwritten⟩ := h.save (horder (process, flush) hentry)
    have hnow : flush.now ≤ s.clock := h.flushing (process, flush) (List.mem_of_getElem? hentry)
    exact {
      flushing := fun entry hmem => h.flushing entry (List.mem_of_mem_eraseIdx hmem)
      clock := by
        intro v hv
        rcases List.mem_append.1 hv with hv | hv
        · exact h.clock v hv
        · rw [List.mem_singleton.1 hv]
          exact hnow
      versions := by
        intro v hv
        rcases List.mem_append.1 hv with hv | hv
        · exact h.versions v hv
        · rw [List.mem_singleton.1 hv]
          exact hwritten
      later := by
        refine List.pairwise_append.2 ⟨h.later, List.pairwise_singleton .., fun v hv w hw => ?_⟩
        rw [List.mem_singleton.1 hw]
        exact hlater v hv
      hours := fun hour hhour => (h.hours hour hhour).mono (List.prefix_append ..) le_rfl
      nodup := h.nodup }
  | refresh i done =>
    obtain ⟨entry, v, hentry, hv, hclock, hflushing, hversions, hhours, hrefreshed⟩ := hostStep_refresh hstep
    cases done with
    | false =>
      rw [if_neg Bool.false_ne_true] at hhours hrefreshed
      exact ⟨by rw [hflushing, hclock]; exact h.flushing, by rw [hversions, hclock]; exact h.clock,
        by rw [hversions]; exact h.versions, by rw [hversions]; exact h.later,
        by rw [hhours, hversions, hrefreshed]; exact h.hours, by rw [hhours]; exact h.nodup⟩
    | true =>
      rw [if_pos rfl] at hhours hrefreshed
      refine ⟨by rw [hflushing, hclock]; exact h.flushing, by rw [hversions, hclock]; exact h.clock,
        by rw [hversions]; exact h.versions, by rw [hversions]; exact h.later, ?_,
        by rw [hhours]; exact nodup_refreshHours h.nodup⟩
      rw [hhours, hversions, hrefreshed, refreshHours_eq]
      intro hour hhour
      obtain ⟨start, hstart, rfl⟩ := List.mem_map.1 hhour
      rcases selectedHour_cases env h.nodup (rawIndex v.buckets (hourStart v.now)) start with
        ⟨heq, -⟩ | ⟨hmem, -⟩
      · rw [heq]
        exact ⟨entry.2, le_rfl, v, hv, hstart, rfl⟩
      · exact (h.hours _ hmem).mono (List.prefix_refl _) (horder entry hentry)
  | record | detach | fail | stop =>
    obtain ⟨hclock, hversions, hhours, hrefreshed, hflushing⟩ :=
      hostStep_other (fun _ heq => by cases heq) (fun _ _ heq => by cases heq) hstep
    refine ⟨fun entry hentry => ?_, fun v hv => ?_, by rw [hversions]; exact h.versions,
      by rw [hversions]; exact h.later,
      by rw [hhours, hversions, hrefreshed]; exact h.hours, by rw [hhours]; exact h.nodup⟩
    · rcases hflushing entry hentry with hold | hnow
      · exact (h.flushing entry hold).trans hclock
      · exact hnow
    · rw [hversions] at hv
      exact (h.clock v hv).trans hclock

/-- A refresh in order keeps or enlarges the hours of its window. -/
theorem grows_refresh {s : Host μ} (h : s.Sound env) {place : Nat} {v : Version μ} (hv : s.versions[place]? = some v)
    (horder : s.refreshed ≤ place) {hour : Hour μ} (hhour : hour ∈ s.hours)
    (hwindow : firstHour v.now ≤ hour.hourStartEpoch)
    (hcovered : hour.sourceBucketCount ≤ (expectedStarts hour.hourStartEpoch).countP (fun start => v.Has start) →
      ∀ start ∈ hour.sourceBucketStarts, v.Has start) :
    ∃ hour' ∈ refreshHours env v.now v.buckets s.hours, hour.Grows hour' := by
  obtain ⟨i, hi, w, hw, hstart, heq⟩ := h.hours hour hhour
  have hlater : Later env w v := h.later_of_le (hi.trans horder) hw hv
  have hsoundW := h.versions w (List.mem_of_getElem? hw)
  have hsoundV := h.versions v (List.mem_of_getElem? hv)
  have hstart' : hour.hourStartEpoch ∈ expectedHours v.now := mem_expectedHours_of_le hstart hlater.le hwindow
  rw [refreshHours_eq]
  refine ⟨_, List.mem_map_of_mem hstart', ?_⟩
  rcases selectedHour_cases env h.nodup (rawIndex v.buckets (hourStart v.now)) hour.hourStartEpoch with
    ⟨hbuilt, hcount⟩ | ⟨hmem, hsame⟩
  · rw [← count_hour env hsoundV hstart'] at hcovered
    have hle : hour.sourceBucketCount ≤ (v.hour env hour.hourStartEpoch).sourceBucketCount := hcount hour hhour rfl
    have hgrows : (w.hour env hour.hourStartEpoch).Grows (v.hour env hour.hourStartEpoch) := by
      refine grows_hour hsoundW hsoundV hlater hstart hstart' ?_ ?_
      · rw [← heq]
        exact hle
      · rw [← heq]
        exact hcovered hle
    rw [← heq] at hgrows
    rw [hbuilt]
    exact hgrows
  · -- the hour that was stored is stored again
    have hprior := List.inj_on_of_nodup_map h.nodup hmem hhour hsame
    rw [hprior]
    exact Hour.Grows.refl hour

/-! ## Runs -/

theorem clock_hostStep {s t : Host μ} {op : HostOp μ} (h : hostStep env s op = some t) : s.clock ≤ t.clock := by
  cases op with
  | save i =>
    obtain ⟨entry, -, rfl⟩ := Option.map_eq_some_iff.1 h
    exact le_rfl
  | refresh i done =>
    obtain ⟨_, _, -, -, hclock, -⟩ := hostStep_refresh h
    exact hclock.ge
  | record | detach | fail | stop =>
    exact (hostStep_other (fun _ heq => by cases heq) (fun _ _ heq => by cases heq) h).1

theorem clock_run {ok : Host μ → HostOp μ → Prop} {s t : Host μ} {ops : List (HostOp μ)}
    (h : Run (hostStep env) ok s ops t) : s.clock ≤ t.clock := by
  induction h with
  | nil s => exact le_rfl
  | cons _ hstep _ ih => exact (clock_hostStep hstep).trans ih

/-- A step in order, with the buckets of the stored hours, keeps or enlarges the hours of the window. -/
theorem grows_hostStep {s t : Host μ} {op : HostOp μ} (h : s.Sound env) (horder : InOrder s op)
    (hcovered : Covered s op)
    (hstep : hostStep env s op = some t) {now : ℚ} (hnow : s.clock ≤ now) {hour : Hour μ} (hhour : hour ∈ s.hours)
    (hwindow : firstHour now ≤ hour.hourStartEpoch) : ∃ hour' ∈ t.hours, hour.Grows hour' := by
  have hsame : t.hours = s.hours → ∃ hour' ∈ t.hours, hour.Grows hour' := fun heq =>
    ⟨hour, heq ▸ hhour, Hour.Grows.refl hour⟩
  cases op with
  | save i =>
    apply hsame
    obtain ⟨entry, -, rfl⟩ := Option.map_eq_some_iff.1 hstep
    rfl
  | refresh i done =>
    obtain ⟨entry, v, hentry, hv, -, -, -, hhours, -⟩ := hostStep_refresh hstep
    cases done with
    | false => exact hsame hhours
    | true =>
      rw [if_pos rfl] at hhours
      have hle : (hourStart v.now : ℤ) ≤ hourStart now := by
        exact_mod_cast hourStart_mono ((h.clock v (List.mem_of_getElem? hv)).trans hnow)
      have hfirst : firstHour v.now ≤ hour.hourStartEpoch := by
        unfold firstHour at hwindow ⊢
        omega
      rw [hhours]
      exact grows_refresh h hv (horder entry hentry) hhour hfirst (hcovered entry hentry v hv hour hhour hfirst)
  | record | detach | fail | stop =>
    exact hsame (hostStep_other (fun _ heq => by cases heq) (fun _ _ heq => by cases heq) hstep).2.2.1

theorem grows_run {s t : Host μ} {ops : List (HostOp μ)}
    (h : Run (hostStep env) (fun s op => InOrder s op ∧ Covered s op) s ops t) (hs : s.Sound env) {hour : Hour μ}
    (hhour : hour ∈ s.hours) (hwindow : firstHour t.clock ≤ hour.hourStartEpoch) :
    ∃ hour' ∈ t.hours, hour.Grows hour' := by
  induction h generalizing hour with
  | nil s => exact ⟨hour, hhour, Hour.Grows.refl hour⟩
  | cons hok hstep hrest ih =>
    have hclock := (clock_hostStep hstep).trans (clock_run hrest)
    obtain ⟨hour₁, hhour₁, hgrows₁⟩ := grows_hostStep hs hok.1 hok.2 hstep hclock hhour hwindow
    obtain ⟨hour₂, hhour₂, hgrows₂⟩ := ih (sound_hostStep hs hok.1 hstep) hhour₁ (by rw [hgrows₁.start]; exact hwindow)
    exact ⟨hour₂, hhour₂, hgrows₁.trans hgrows₂⟩

/-- In every run of flushes in which the writes and the refreshes come in the order of their flushes, and in
which every refresh that finds as many raw buckets as a stored hour was built from finds these buckets: there
is one hour for a start, and an hour that is stored is stored in every later state until the window has passed
it, with as many source buckets, complete if it was, and with as many events of every stage of every family
and as many confirmation results. -/
theorem hours_grow {s t : Host μ} {ops ops' : List (HostOp μ)}
    (h : Run (hostStep env) (fun s op => InOrder s op ∧ Covered s op) .initial ops s)
    (h' : Run (hostStep env) (fun s op => InOrder s op ∧ Covered s op) s ops' t) :
    (t.hours.map (·.hourStartEpoch)).Nodup ∧ ∀ hour ∈ s.hours, firstHour t.clock ≤ hour.hourStartEpoch →
      ∃ hour' ∈ t.hours, hour.Grows hour' := by
  have hkeep : ∀ s op t, Host.Sound env s → InOrder s op ∧ Covered s op → hostStep env s op = some t → t.Sound env :=
    fun _ _ _ hs hok hstep => sound_hostStep hs hok.1 hstep
  have hs : s.Sound env := h.invariant hkeep sound_initial
  have ht : t.Sound env := h'.invariant hkeep hs
  exact ⟨ht.nodup, fun hour hhour hwindow => grows_run h' hs hhour hwindow⟩

end Runs

/-! ## A late event -/

/-- A confirmation result at the epoch, in the first process. -/
def lateAt (epoch : ℚ) : HostOp Unit := .record 0 (.confirmationResult "mint" "A" "getHealth" "ankr" "success" epoch)

/-- Two results are recorded, and written and rolled up in the next hour. -/
def firstHourOps : List (HostOp Unit) :=
  [lateAt 10, lateAt 20, .detach 0 3700, .save 0, .refresh 0 true]

/-- A late result of the hour comes while its first bucket is still there, and is written by a second process. -/
def coveredOps : List (HostOp Unit) :=
  [.record 1 (.confirmationResult "mint" "A" "getHealth" "ankr" "success" 1000), .detach 1 7300, .save 0,
    .refresh 0 true]

theorem hours_grow_twoProcesses : ∃ s t : Host Unit, (t.hours.map (·.hourStartEpoch)).Nodup ∧ ∀ hour ∈ s.hours,
    firstHour t.clock ≤ hour.hourStartEpoch → ∃ hour' ∈ t.hours, hour.Grows hour' := by
  have hruns : ∃ s, Run (hostStep plainEnv) (fun s op => InOrder s op ∧ Covered s op) .initial firstHourOps s ∧
      (exec (guarded (hostStep plainEnv) fun s op => InOrder s op ∧ Covered s op) s coveredOps).isSome = true :=
    Run.exists_of_any (by decide +kernel)
  obtain ⟨s, hrun, hsome⟩ := hruns
  obtain ⟨t, ht⟩ := Option.isSome_iff_exists.1 hsome
  exact ⟨s, t, hours_grow hrun (Run.of_guarded ht)⟩

/-- A late result of the hour comes when its first bucket has expired and the second one has not. -/
def expiredOps : List (HostOp Unit) := [lateAt 1000, .detach 0 21700, .save 0, .refresh 0 true]

/-- The hour is then built from one other bucket, and has one result instead of two. -/
theorem hours_shrink : ¬ ∀ (ops ops' : List (HostOp Unit)) (s t : Host Unit),
    Run (hostStep plainEnv) Run.anyStep .initial ops s → Run (hostStep plainEnv) Run.anyStep s ops' t →
      ∀ hour ∈ s.hours, firstHour t.clock ≤ hour.hourStartEpoch → ∃ hour' ∈ t.hours, hour.Grows hour' := by
  intro hall
  have hruns : ∃ s, Run (hostStep plainEnv) Run.anyStep .initial firstHourOps s ∧
      ((∃ hour ∈ s.hours, hour.hourStartEpoch = 0 ∧ confirmations hour.merged = 2) ∧
        (exec (guarded (hostStep plainEnv) Run.anyStep) s expiredOps).any (fun t => firstHour t.clock ≤ 0 ∧
          ∀ hour' ∈ t.hours, hour'.hourStartEpoch = 0 → confirmations hour'.merged = 1) = true) :=
    Run.exists_of_any (by decide +kernel)
  obtain ⟨s, hrun, ⟨hour, hhour, hstart, htwo⟩, hrest⟩ := hruns
  obtain ⟨t, hrun', hfirst, hone⟩ := Run.exists_of_any hrest
  obtain ⟨hour', hhour', hgrows⟩ := hall _ _ s t hrun hrun' hour hhour (by rw [hstart]; exact hfirst)
  have hle := hgrows.confirmations
  rw [htwo, hone hour' hhour' (hgrows.start.trans hstart)] at hle
  omega

end Aibot.Coverage
