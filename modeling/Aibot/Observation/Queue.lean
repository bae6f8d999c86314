/-
The two queues of the sampler hold at most one batch, and no sample twice: the due scan brings at
most a batch of distinct samples and is made only when both queues are empty, and every other step
moves a sample from one place to another or drops it. What a quote has settled stays queued until a
batch with it is committed.
-/
import Aibot.Lib.Run
import Aibot.Observation.Effect
import Aibot.Observation.Loop

namespace Aibot.Observation

open Aibot.Risk

/-! ## Samples by observation and horizon -/

/-- A sample: the observation and the horizon. -/
abbrev SampleKey := ObservationId × Interval

def DueSample.key (c : DueSample) : SampleKey := (c.observationId, c.interval)

def SampleResult.key (result : SampleResult) : SampleKey := (result.observationId, result.interval)

def PendingSampleAttempt.key (p : PendingSampleAttempt) : SampleKey := (p.observationId, p.interval)

@[simp] theorem PendingSampleAttempt.result_key (p : PendingSampleAttempt) : p.result.key = p.key := rfl

/-- What a quote comes to is about the sample it was asked for. -/
theorem sampleDue_key (c : DueSample) (attemptedAt sampledAt : Int) (outcome : QuoteOutcome) :
    (sampleDue c attemptedAt sampledAt outcome).elim SampleResult.key PendingSampleAttempt.key = c.key := by
  unfold sampleDue
  by_cases hmissed : horizonSampleIsMissed attemptedAt c.targetAtEpoch
  · rw [if_pos hmissed]
    rfl
  · rw [if_neg hmissed]
    cases outcome with
    | quoted outAmount =>
      dsimp only
      split_ifs <;> rfl
    | noRoute error => rfl
    | failed error => rfl

/-! ## The due scan -/

theorem nodup_of_subperm {α : Type*} {l l' : List α} (h : l.Subperm l') (hl' : l'.Nodup) : l.Nodup := by
  obtain ⟨k, hperm, hsub⟩ := h
  exact hperm.nodup_iff.1 (hl'.sublist hsub)

theorem subperm_map {α β : Type*} (f : α → β) {l l' : List α} (h : l.Subperm l') :
    (l.map f).Subperm (l'.map f) := by
  obtain ⟨k, hperm, hsub⟩ := h
  exact ⟨k.map f, hperm.map f, hsub.map f⟩

theorem takeInTurn_length {α : Type*} (limit : Nat) (queues : List (List α)) :
    (takeInTurn limit queues).length ≤ limit := by
  induction limit, queues using takeInTurn.induct with
  | case1 queues => simp [takeInTurn]
  | case2 limit => simp [takeInTurn]
  | case3 limit queues => simp [takeInTurn]
  | case4 limit x queue queues ih => simpa [takeInTurn] using ih

/-- Taking in turn takes nothing twice. -/
theorem takeInTurn_subperm {α : Type*} (limit : Nat) (queues : List (List α)) :
    (takeInTurn limit queues).Subperm queues.flatten := by
  induction limit, queues using takeInTurn.induct with
  | case1 queues => exact List.nil_subperm
  | case2 limit => exact List.nil_subperm
  | case3 limit queues => exact List.nil_subperm
  | case4 limit x queue queues ih =>
    have hback : (queues ++ if queue.isEmpty then [] else [queue]).flatten = queues.flatten ++ queue := by
      cases queue <;> simp
    rw [hback] at ih
    refine ((List.subperm_cons x).2 ih).trans (List.Perm.subperm ?_)
    rw [List.flatten_cons, List.cons_append]
    exact (List.perm_append_comm).cons x

/-- A sample put at the end of its queue. -/
theorem count_queued (queues : Dict ObservationId (List DueSample)) (c x : DueSample) :
    ((queues.set c.observationId ((queues.get? c.observationId).getD [] ++ [c])).sumOf fun queue =>
      (queue.count x : ℤ)) = (queues.sumOf fun queue => (queue.count x : ℤ)) + ([c].count x : ℤ) := by
  cases hget : queues.get? c.observationId with
  | none =>
    rw [Dict.sumOf_set_of_none _ hget]
    rfl
  | some queue =>
    rw [Dict.sumOf_set_of_get _ hget, Option.getD_some, List.count_append]
    push_cast
    ring

/-- The queues of the recovery hold what was put into them. -/
theorem recoveryQueues_perm (candidates : List DueSample) :
    ((recoveryQueues candidates).entries.map Prod.snd).flatten.Perm candidates := by
  rw [List.perm_iff_count]
  intro x
  have hfold : ∀ (cs : List DueSample) (queues : Dict ObservationId (List DueSample)),
      ((cs.foldl (fun queues c => queues.set c.observationId
        ((queues.get? c.observationId).getD [] ++ [c])) queues).sumOf fun queue => (queue.count x : ℤ)) =
      (queues.sumOf fun queue => (queue.count x : ℤ)) + (cs.count x : ℤ) := by
    intro cs
    induction cs with
    | nil => intro queues; simp
    | cons c cs ih =>
      intro queues
      have hcons : (c :: cs).count x = [c].count x + cs.count x := by
        rw [← List.count_append, List.singleton_append]
      rw [List.foldl_cons, ih, count_queued, hcons]
      push_cast
      ring
  have hsum := hfold candidates Dict.empty
  rw [Dict.sumOf_empty, zero_add] at hsum
  rw [List.count_flatten]
  have hcast : (((recoveryQueues candidates).entries.map Prod.snd).map (List.count x)).sum =
      (recoveryQueues candidates).sumOf fun queue => (queue.count x : ℤ) := by
    unfold Dict.sumOf Dict.values
    simp [Function.comp_def]
  rw [show recoveryQueues candidates = _ from rfl] at hcast
  exact_mod_cast hcast.trans hsum

/-- A batch is a part of what is due. -/
theorem selectDueSampleBatch_subperm (due : List DueSample) (now : Int) (limit : Nat) :
    (selectDueSampleBatch due now limit).Subperm due := by
  unfold selectDueSampleBatch fairRecoveryCandidates
  have hsplit : (due.filter (fun c => ¬ horizonSampleIsMissed now c.targetAtEpoch) ++
      due.filter fun c => horizonSampleIsMissed now c.targetAtEpoch).Perm due := by
    have h := List.filter_append_perm (fun c : DueSample => horizonSampleIsMissed now c.targetAtEpoch) due
    refine List.perm_append_comm.trans ?_
    simpa using h
  refine List.Subperm.trans ?_ hsplit.subperm
  exact (List.take_sublist _ _).subperm.append
    ((takeInTurn_subperm _ _).trans (recoveryQueues_perm _).subperm)

theorem selectDueSampleBatch_length (due : List DueSample) (now : Int) (limit : Nat) :
    (selectDueSampleBatch due now limit).length ≤ limit := by
  unfold selectDueSampleBatch fairRecoveryCandidates
  dsimp only
  rw [List.length_append]
  have hturn := takeInTurn_length
    (limit - (List.take limit (due.filter fun c => ¬ horizonSampleIsMissed now c.targetAtEpoch)).length)
    ((recoveryQueues (due.filter fun c => horizonSampleIsMissed now c.targetAtEpoch)).entries.map Prod.snd)
  have htake := List.length_take_le limit
    (due.filter fun c => ¬ horizonSampleIsMissed now c.targetAtEpoch)
  omega

theorem Row.dueSamples_keys (row : Row) (now : Int) :
    ((row.dueSamples now).map DueSample.key).Sublist (observationIntervals.map fun i => (row.observationId, i)) := by
  unfold Row.dueSamples
  rw [List.map_map]
  exact List.filter_sublist.map _

/-- With one row an observation, each sample is due once. -/
theorem dueSampleCandidates_nodup {rows : List Row} (hu : UniqueIds rows) (now : Int) :
    ((dueSampleCandidates rows now).map DueSample.key).Nodup := by
  unfold dueSampleCandidates
  rw [((List.perm_insertionSort _ _).map DueSample.key).nodup_iff, List.map_flatMap, List.nodup_flatMap]
  constructor
  · intro row _
    refine List.Nodup.sublist (row.dueSamples_keys now) ?_
    exact List.Nodup.map (fun i j h => (Prod.mk.inj h).2) (by decide)
  · have hids : (rows.filter fun row => row.status = .pending).Pairwise
        fun a b => a.observationId ≠ b.observationId :=
      (List.pairwise_map.1 hu).sublist List.filter_sublist
    refine hids.imp fun {a b} hne => ?_
    -- the samples of two rows are told apart by the observation
    rintro k ha hb
    obtain ⟨i, -, rfl⟩ := List.mem_map.1 ((a.dueSamples_keys now).subset ha)
    obtain ⟨j, -, hj⟩ := List.mem_map.1 ((b.dueSamples_keys now).subset hb)
    exact hne (Prod.mk.inj hj).1.symm

/-- A due scan brings at most a batch, of distinct samples. -/
theorem dueObservationSamples_spec {rows : List Row} (hu : UniqueIds rows) (now : Int) :
    ((dueObservationSamples now rows).map DueSample.key).Nodup ∧
      (dueObservationSamples now rows).length ≤ observationSampleBatchSize :=
  ⟨nodup_of_subperm (subperm_map _ (selectDueSampleBatch_subperm _ _ _)) (dueSampleCandidates_nodup hu now),
    selectDueSampleBatch_length _ _ _⟩

/-! ## The queues -/

/-- The samples of the two queues together. -/
def Observer.queued (s : Observer) : List SampleKey :=
  s.pendingFinalized.map SampleResult.key ++ s.pendingSampleAttempts.map PendingSampleAttempt.key

/-- The sample a worker has in hand. -/
def Worker.key? : Worker → Option SampleKey
  | .waiting c => some c.key
  | .done result => result.map SampleResult.key

/-- The samples that a phase has in hand, outside the queues. -/
def LoopPhase.keys : LoopPhase → List SampleKey
  | .retrying items _ => items.map PendingSampleAttempt.key
  | .sampling workers => workers.filterMap Worker.key?
  | _ => []

/-- The samples on their way from a scan to a batch. -/
def Observer.inFlight (s : Observer) : List SampleKey := s.queued ++ s.phase.keys

/-- What is empty in a phase: the scan is made when nothing is queued. -/
def Observer.settled (s : Observer) : Prop :=
  match s.phase with
  | .batching (.pending _) | .emitting _ (.pending _) => s.pendingSampleAttempts = []
  | .scanning => s.pendingFinalized = [] ∧ s.pendingSampleAttempts = []
  | .raised => False
  | _ => True

structure QueueInv (s : Observer) : Prop where
  unique : UniqueIds s.rows
  distinct : s.inFlight.Nodup
  bounded : s.inFlight.length ≤ observationSampleBatchSize
  settled : s.settled

section Step

variable {s s' : Observer}

/-- A step that brings no sample: what is in flight after it was so before. -/
theorem QueueInv.move (hs : QueueInv s) (hrows : UniqueIds s'.rows) (hsub : s'.inFlight.Subperm s.inFlight)
    (hsettled : s'.settled) : QueueInv s' :=
  ⟨hrows, nodup_of_subperm hsub hs.distinct, hsub.length_le.trans hs.bounded, hsettled⟩

/-- A step that moves samples from one place to another. -/
theorem QueueInv.same (hs : QueueInv s) (hrows : UniqueIds s'.rows) (hperm : s'.inFlight.Perm s.inFlight)
    (hsettled : s'.settled) : QueueInv s' :=
  hs.move hrows hperm.subperm hsettled

theorem inFlight_eq {phase : LoopPhase} (h : s.phase = phase) : s.inFlight = s.queued ++ phase.keys := by
  unfold Observer.inFlight
  rw [h]

theorem settled_eq {phase : LoopPhase} (h : s.phase = phase) :
    s.settled = { s with phase := phase }.settled := by
  subst h
  rfl

/-- The worker that takes its turn, among the others. -/
theorem set_keys {workers : List Worker} {i : Nat} {w : Worker} (hw : workers[i]? = some w) (w' : Worker) :
    ∃ before after, workers.filterMap Worker.key? = before ++ w.key?.toList ++ after ∧
      (workers.set i w').filterMap Worker.key? = before ++ w'.key?.toList ++ after := by
  obtain ⟨hi, rfl⟩ := List.getElem?_eq_some_iff.1 hw
  refine ⟨(workers.take i).filterMap Worker.key?, (workers.drop (i + 1)).filterMap Worker.key?, ?_, ?_⟩
  · conv_lhs => rw [← List.take_append_drop i workers, List.drop_eq_getElem_cons hi]
    rw [List.filterMap_append, List.filterMap_cons]
    cases workers[i].key? <;> simp
  · rw [List.set_eq_take_append_cons_drop, if_pos hi, List.filterMap_append, List.filterMap_cons]
    cases w'.key? <;> simp

/-- Workers that are done have their results in hand. -/
theorem done_keys {workers : List Worker} (h : workers.all Worker.isDone) :
    (workers.filterMap Worker.result).map SampleResult.key = workers.filterMap Worker.key? := by
  rw [List.map_filterMap]
  refine List.filterMap_congr fun w hw => ?_
  cases w with
  | waiting c => cases List.all_eq_true.1 h _ hw
  | done result => rfl

theorem proceed_queue (hs : QueueInv s) (h : s.proceed = some s') : QueueInv s' := by
  have hrest := hs.settled
  unfold Observer.proceed at h
  split at h
  · rename_i hphase
    split at h
    · rename_i hnil
      obtain rfl := Option.some.inj h
      refine hs.same hs.unique ?_ hnil
      rw [inFlight_eq hphase]
      rfl
    · obtain rfl := Option.some.inj h
      refine hs.same hs.unique ?_ trivial
      rw [inFlight_eq hphase]
      simp [Observer.inFlight, Observer.queued, LoopPhase.keys]
  · rename_i recovered hphase
    split_ifs at h with hempty
    · obtain rfl := Option.some.inj h
      refine hs.same hs.unique ?_ (List.isEmpty_iff.1 hempty)
      rw [inFlight_eq hphase]
      rfl
    · obtain rfl := Option.some.inj h
      refine hs.same hs.unique ?_ trivial
      rw [inFlight_eq hphase]
      rfl
  · rename_i recovered hphase
    rw [settled_eq hphase] at hrest
    split_ifs at h with hempty
    obtain rfl := Option.some.inj h
    refine hs.same hs.unique ?_ ?_
    · rw [inFlight_eq hphase]
      cases recovered <;> rfl
    · -- the scan comes only when no attempt was recovered
      cases recovered
      · exact ⟨List.isEmpty_iff.1 hempty, hrest⟩
      · trivial
  · rename_i call hphase
    rw [settled_eq hphase] at hrest
    obtain rfl := Option.some.inj h
    have hkeys : call.next.keys = [] := by rcases call with (_ | _) | _ <;> rfl
    refine hs.move hs.unique ?_ ?_
    · -- the committed batch leaves the queue
      rw [inFlight_eq hphase, inFlight_eq rfl, hkeys]
      simpa [Observer.queued, LoopPhase.keys] using (List.sublist_append_right _ _).subperm
    · rcases call with (_ | _) | _
      · exact ⟨rfl, hrest⟩
      · trivial
      · trivial
  · rename_i workers hphase
    split_ifs at h with hdone
    dsimp only at h
    split_ifs at h with hnone
    · obtain rfl := Option.some.inj h
      refine hs.move hs.unique ?_ trivial
      rw [inFlight_eq hphase, inFlight_eq rfl]
      exact (List.Sublist.refl _).subperm.append (List.nil_subperm)
    · obtain rfl := Option.some.inj h
      refine hs.same hs.unique ?_ trivial
      rw [inFlight_eq hphase, inFlight_eq rfl]
      simp only [Observer.queued, LoopPhase.keys, List.map_append, done_keys hdone, List.append_nil]
      rw [List.append_assoc, List.append_assoc]
      exact List.perm_append_comm.append_left _
  · cases h

theorem retry_queue (hs : QueueInv s) {locked : Bool} (h : s.retry locked = some s') : QueueInv s' := by
  unfold Observer.retry at h
  split at h
  · rename_i item items recovered hphase
    split_ifs at h with hlocked
    · obtain rfl := Option.some.inj h
      refine hs.move (hs.unique.write (.sampleAttempt item.observationId item.interval)) ?_ trivial
      rw [inFlight_eq hphase, inFlight_eq rfl]
      simp only [Observer.queued, LoopPhase.keys, List.map_cons]
      split_ifs
      · exact (List.Sublist.refl _).subperm.append List.subperm_cons_self
      · -- the sample goes from the retry to the queue of the batch
        rw [List.map_append, List.append_assoc, List.append_assoc, List.append_assoc]
        refine (List.Perm.append_left _ ?_).subperm
        exact (@List.perm_middle _ _ (s.pendingSampleAttempts.map PendingSampleAttempt.key) _).symm
    · obtain rfl := Option.some.inj h
      refine hs.same hs.unique ?_ trivial
      rw [inFlight_eq hphase, inFlight_eq rfl]
      simp [Observer.queued, LoopPhase.keys]
  · cases h

theorem batch_queue (hs : QueueInv s) {locked : Bool} {now : Int} (h : s.batch locked now = some s') :
    QueueInv s' := by
  have hrest := hs.settled
  unfold Observer.batch at h
  split at h
  · rename_i call hphase
    rw [settled_eq hphase] at hrest
    split_ifs at h with hempty hlocked
    · split at h
      · -- a batch too large is never sent
        rename_i hbatch
        have hlen : s.pendingFinalized.length ≤ s.inFlight.length := by
          simp only [Observer.inFlight, Observer.queued, List.length_append, List.length_map]
          omega
        have hle := hlen.trans hs.bounded
        unfold recordSampleBatch at hbatch
        rw [if_neg hempty, if_neg (by omega)] at hbatch
        cases hbatch
      · rename_i applied w hbatch
        obtain rfl := Option.some.inj h
        refine hs.same ?_ ?_ ?_
        · have hrows := hs.unique.write (.sampleBatch s.pendingFinalized now)
          simp only [ObservationOp.write, hbatch] at hrows
          exact hrows
        · rw [inFlight_eq hphase]
          rfl
        · cases call with
          | pending recovered => exact hrest
          | scanned => trivial
    · obtain rfl := Option.some.inj h
      refine hs.same hs.unique ?_ trivial
      rw [inFlight_eq hphase]
      rfl
  · cases h

theorem emit_queue (hs : QueueInv s) {locked : Bool} {now : Int} (h : s.emit locked now = some s') :
    QueueInv s' := by
  have hrest := hs.settled
  unfold Observer.emit at h
  split at h
  · rename_i row todo call hphase
    rw [settled_eq hphase] at hrest
    have hnext : ∀ shadow, { s with shadow := shadow, phase := .emitting todo call }.settled := by
      intro shadow
      cases call with
      | pending recovered => exact hrest
      | scanned => trivial
    split at h
    · obtain rfl := Option.some.inj h
      refine hs.same hs.unique ?_ (hnext s.shadow)
      rw [inFlight_eq hphase]
      rfl
    · split_ifs at h
      · obtain rfl := Option.some.inj h
        refine hs.same hs.unique ?_ (hnext _)
        rw [inFlight_eq hphase]
        rfl
      · obtain rfl := Option.some.inj h
        refine hs.same hs.unique ?_ trivial
        rw [inFlight_eq hphase]
        rfl
  · cases h

/-- The only step that brings samples: both queues are empty when it is taken. -/
theorem scan_queue (hs : QueueInv s) {locked : Bool} {now : Int} (h : s.scan locked now = some s') :
    QueueInv s' := by
  have hrest := hs.settled
  unfold Observer.scan at h
  split at h
  · rename_i hphase
    rw [settled_eq hphase] at hrest
    have hfinalized : s.pendingFinalized = [] := hrest.1
    have hattempts : s.pendingSampleAttempts = [] := hrest.2
    split_ifs at h
    · obtain rfl := Option.some.inj h
      obtain ⟨hnodup, hlen⟩ := dueObservationSamples_spec hs.unique now
      have hflight : Observer.inFlight
          { s with phase := .sampling ((dueObservationSamples now s.rows).map .waiting) } =
          (dueObservationSamples now s.rows).map DueSample.key := by
        have hkeys : Worker.key? ∘ Worker.waiting = some ∘ DueSample.key := rfl
        rw [inFlight_eq rfl]
        simp only [Observer.queued, LoopPhase.keys, hfinalized, hattempts, List.filterMap_map, hkeys,
          List.filterMap_eq_map, List.map_nil, List.nil_append]
      refine ⟨hs.unique, ?_, ?_, trivial⟩
      · rw [hflight]
        exact hnodup
      · rw [hflight, List.length_map]
        exact hlen
    · obtain rfl := Option.some.inj h
      refine hs.same hs.unique ?_ trivial
      rw [inFlight_eq hphase]
      rfl
  · cases h

theorem sample_queue (hs : QueueInv s) {worker : Nat} {attemptedAt sampledAt : Int} {outcome : QuoteOutcome}
    {locked : Bool} (h : s.sample worker attemptedAt sampledAt outcome locked = some s') : QueueInv s' := by
  unfold Observer.sample at h
  split at h
  · rename_i workers hphase
    split at h
    · rename_i c hc
      have hkey := sampleDue_key c attemptedAt sampledAt outcome
      split at h
      · rename_i result hdue
        rw [hdue] at hkey
        obtain rfl := Option.some.inj h
        refine hs.same hs.unique ?_ trivial
        obtain ⟨before, after, hworkers, hset⟩ := set_keys hc (.done (some result))
        rw [inFlight_eq hphase, inFlight_eq rfl, LoopPhase.keys, LoopPhase.keys, hworkers, hset]
        replace hkey : result.key = c.key := hkey
        simp [Worker.key?, hkey, Observer.queued]
      · rename_i p hdue
        rw [hdue] at hkey
        replace hkey : p.key = c.key := hkey
        split_ifs at h
        · obtain rfl := Option.some.inj h
          refine hs.move (hs.unique.write (.sampleAttempt p.observationId p.interval)) ?_ trivial
          obtain ⟨before, after, hworkers, hset⟩ := set_keys hc
            (.done (if maxSampleAttempts ≤ (recordSampleAttempt p.observationId p.interval s.rows).1
              then some p.result else none))
          rw [inFlight_eq hphase, inFlight_eq rfl, LoopPhase.keys, LoopPhase.keys, hworkers, hset]
          refine List.Subperm.append (List.Subperm.refl _) ?_
          split_ifs
          · simpa [Worker.key?, hkey] using List.Subperm.refl _
          · -- the sample is left to a later scan
            simpa [Worker.key?] using
              ((List.sublist_cons_self c.key after).append_left before).subperm
        · obtain rfl := Option.some.inj h
          refine hs.same hs.unique ?_ trivial
          obtain ⟨before, after, hworkers, hset⟩ := set_keys hc (.done none)
          rw [inFlight_eq hphase, inFlight_eq rfl, LoopPhase.keys, LoopPhase.keys, hworkers, hset]
          simp only [Observer.queued, List.map_append, List.map_cons, List.map_nil, hkey, Worker.key?,
            Option.map_none, Option.toList_none, Option.toList_some, List.append_nil, List.append_assoc,
            List.singleton_append]
          -- the sample goes from its worker to the queue of the attempts
          refine List.Perm.append_left _ (List.Perm.append_left _ ?_)
          exact (List.perm_middle).symm
    · cases h
  · cases h

theorem queueInv_step {a : ObserverAct} (hs : QueueInv s) (h : s.step a = some s') : QueueInv s' := by
  cases a with
  | writes op =>
    simp only [Observer.step] at h
    split_ifs at h
    obtain rfl := Option.some.inj h
    exact ⟨hs.unique.write op, hs.distinct, hs.bounded, hs.settled⟩
  | markers snapshots =>
    obtain rfl := Option.some.inj h
    exact ⟨hs.unique.markers snapshots, hs.distinct, hs.bounded, hs.settled⟩
  | backfillReads b existingIds now =>
    obtain rfl := Option.some.inj h
    exact ⟨hs.unique, hs.distinct, hs.bounded, hs.settled⟩
  | backfillWrites b =>
    simp only [Observer.step] at h
    split at h
    · cases h
    · obtain rfl := Option.some.inj h
      exact ⟨hs.unique, hs.distinct, hs.bounded, hs.settled⟩
  | proceed => exact proceed_queue hs h
  | retry locked => exact retry_queue hs h
  | batch locked now => exact batch_queue hs h
  | emit locked now => exact emit_queue hs h
  | scan locked now => exact scan_queue hs h
  | sample worker attemptedAt sampledAt outcome locked => exact sample_queue hs h

end Step

theorem queueInv_start {rows : List Row} (hrows : UniqueIds rows) (shadow : ShadowLedger) :
    QueueInv (Observer.start rows shadow) :=
  ⟨hrows, List.nodup_nil, Nat.zero_le _, trivial⟩

/-! ## Nothing is lost -/

/-- The settled samples that no batch has committed: queued, or in the hands of a worker. -/
def Observer.uncommitted (s : Observer) : List SampleResult :=
  match s.phase with
  | .emitting _ _ => []
  | .sampling workers => s.pendingFinalized ++ workers.filterMap Worker.result
  | _ => s.pendingFinalized

/-- The step is a call of `record_sample_batch` that commits with the result. -/
def Observer.commits (s : Observer) (result : SampleResult) : ObserverAct → Prop
  | .batch locked now => locked = true ∧ result ∈ s.pendingFinalized ∧
    (recordSampleBatch s.pendingFinalized now s.rows).isOk = true
  | _ => False

theorem uncommitted_proceed {s s' : Observer} (h : s.proceed = some s') {result : SampleResult}
    (hresult : result ∈ s.uncommitted) : result ∈ s'.uncommitted := by
  unfold Observer.proceed at h
  unfold Observer.uncommitted at hresult
  split at h
  · rename_i hphase
    rw [hphase] at hresult
    split at h
    · obtain rfl := Option.some.inj h
      exact hresult
    · obtain rfl := Option.some.inj h
      exact hresult
  · rename_i recovered hphase
    rw [hphase] at hresult
    split_ifs at h
    · obtain rfl := Option.some.inj h
      exact hresult
    · obtain rfl := Option.some.inj h
      exact hresult
  · rename_i recovered hphase
    rw [hphase] at hresult
    split_ifs at h with hempty
    rw [List.isEmpty_iff.1 hempty] at hresult
    cases hresult
  · rename_i call hphase
    rw [hphase] at hresult
    cases hresult
  · rename_i workers hphase
    rw [hphase] at hresult
    split_ifs at h
    dsimp only at h hresult
    split_ifs at h with hnone
    · rw [List.isEmpty_iff.1 hnone, List.append_nil] at hresult
      obtain rfl := Option.some.inj h
      exact hresult
    · obtain rfl := Option.some.inj h
      exact hresult
  · cases h

theorem uncommitted_retry {s s' : Observer} {locked : Bool} (h : s.retry locked = some s')
    {result : SampleResult} (hresult : result ∈ s.uncommitted) : result ∈ s'.uncommitted := by
  unfold Observer.retry at h
  unfold Observer.uncommitted at hresult
  split at h
  · rename_i item items recovered hphase
    rw [hphase] at hresult
    split_ifs at h
    · obtain rfl := Option.some.inj h
      show result ∈ if _ then _ else _
      split_ifs
      · exact hresult
      · exact List.mem_append_left _ hresult
    · obtain rfl := Option.some.inj h
      exact hresult
  · cases h

theorem uncommitted_batch {s s' : Observer} {locked : Bool} {now : Int} (h : s.batch locked now = some s')
    {result : SampleResult} (hresult : result ∈ s.uncommitted) :
    result ∈ s'.uncommitted ∨ s.commits result (.batch locked now) := by
  unfold Observer.batch at h
  unfold Observer.uncommitted at hresult
  split at h
  · rename_i call hphase
    rw [hphase] at hresult
    split_ifs at h with hempty hlocked
    · split at h
      · obtain rfl := Option.some.inj h
        exact .inl hresult
      · rename_i applied w hbatch
        exact .inr ⟨hlocked, hresult, by rw [hbatch]; rfl⟩
    · obtain rfl := Option.some.inj h
      exact .inl hresult
  · cases h

theorem uncommitted_emit {s s' : Observer} {locked : Bool} {now : Int} (h : s.emit locked now = some s')
    {result : SampleResult} (hresult : result ∈ s.uncommitted) : result ∈ s'.uncommitted := by
  unfold Observer.emit at h
  unfold Observer.uncommitted at hresult
  split at h
  · rename_i row todo call hphase
    rw [hphase] at hresult
    cases hresult
  · cases h

theorem uncommitted_scan {s s' : Observer} {locked : Bool} {now : Int} (h : s.scan locked now = some s')
    {result : SampleResult} (hresult : result ∈ s.uncommitted) : result ∈ s'.uncommitted := by
  unfold Observer.scan at h
  unfold Observer.uncommitted at hresult
  split at h
  · rename_i hphase
    rw [hphase] at hresult
    split_ifs at h
    · obtain rfl := Option.some.inj h
      exact List.mem_append_left _ hresult
    · obtain rfl := Option.some.inj h
      exact hresult
  · cases h

/-- A worker's turn leaves the results of the others in hand. -/
theorem uncommitted_sample {s s' : Observer} {worker : Nat} {attemptedAt sampledAt : Int}
    {outcome : QuoteOutcome} {locked : Bool}
    (h : s.sample worker attemptedAt sampledAt outcome locked = some s') {result : SampleResult}
    (hresult : result ∈ s.uncommitted) : result ∈ s'.uncommitted := by
  unfold Observer.sample at h
  unfold Observer.uncommitted at hresult
  split at h
  · rename_i workers hphase
    rw [hphase] at hresult
    split at h
    · rename_i c hc
      have hkeep : ∀ w, result ∈ s.pendingFinalized ++ (workers.set worker w).filterMap Worker.result := by
        intro w
        rcases List.mem_append.1 hresult with hpending | hworker
        · exact List.mem_append_left _ hpending
        · obtain ⟨w', hw', hres⟩ := List.mem_filterMap.1 hworker
          obtain ⟨i, hi, rfl⟩ := List.getElem_of_mem hw'
          have hne : worker ≠ i := by
            rintro rfl
            rw [List.getElem?_eq_getElem hi] at hc
            rw [Option.some.inj hc] at hres
            cases hres
          refine List.mem_append_right _ (List.mem_filterMap.2 ⟨workers[i], ?_, hres⟩)
          rw [List.mem_iff_getElem]
          exact ⟨i, by simpa using hi, List.getElem_set_ne hne _⟩
      split at h
      · obtain rfl := Option.some.inj h
        exact hkeep _
      · split_ifs at h
        · obtain rfl := Option.some.inj h
          exact hkeep _
        · obtain rfl := Option.some.inj h
          exact hkeep _
    · cases h
  · cases h

/-- A result stays where it is, or is committed. -/
theorem uncommitted_step {s s' : Observer} {a : ObserverAct} (h : s.step a = some s') {result : SampleResult}
    (hresult : result ∈ s.uncommitted) : result ∈ s'.uncommitted ∨ s.commits result a := by
  cases a with
  | writes op =>
    simp only [Observer.step] at h
    split_ifs at h
    obtain rfl := Option.some.inj h
    exact .inl hresult
  | markers snapshots =>
    obtain rfl := Option.some.inj h
    exact .inl hresult
  | backfillReads b existingIds now =>
    obtain rfl := Option.some.inj h
    exact .inl hresult
  | backfillWrites b =>
    simp only [Observer.step] at h
    split at h
    · cases h
    · obtain rfl := Option.some.inj h
      exact .inl hresult
  | proceed => exact .inl (uncommitted_proceed h hresult)
  | retry locked => exact .inl (uncommitted_retry h hresult)
  | batch locked now => exact uncommitted_batch h hresult
  | emit locked now => exact .inl (uncommitted_emit h hresult)
  | scan locked now => exact .inl (uncommitted_scan h hresult)
  | sample worker attemptedAt sampledAt outcome locked => exact .inl (uncommitted_sample h hresult)

/-- Somewhere in the run, a batch with the result is committed. -/
def CommittedIn (s : Observer) (acts : List ObserverAct) (result : SampleResult) : Prop :=
  ∃ before a after u v, acts = before ++ a :: after ∧ Run Observer.step Run.anyStep s before u ∧
    u.step a = some v ∧ u.commits result a

theorem uncommitted_run {s t : Observer} {acts : List ObserverAct}
    (h : Run Observer.step Run.anyStep s acts t) {result : SampleResult} (hresult : result ∈ s.uncommitted) :
    result ∈ t.uncommitted ∨ CommittedIn s acts result := by
  induction h with
  | nil s => exact .inl hresult
  | @cons s u t a acts hok hstep _ ih =>
    rcases uncommitted_step hstep hresult with hkept | hcommits
    · rcases ih hkept with hkept | ⟨before, a', after, u', v, rfl, hrun, hstep', hcommits⟩
      · exact .inl hkept
      · exact .inr ⟨a :: before, a', after, u', v, rfl, .cons hok hstep hrun, hstep', hcommits⟩
    · exact .inr ⟨[], a, acts, s, u, rfl, .nil s, hstep, hcommits⟩

/-! ## Bounded and lossless -/

structure QueueSafe (s : Observer) : Prop where
  bounded : s.pendingFinalized.length + s.pendingSampleAttempts.length ≤ observationSampleBatchSize
  distinct : s.queued.Nodup
  /-- No batch has been too large. -/
  running : s.phase ≠ .raised

theorem QueueInv.safe {s : Observer} (hs : QueueInv s) : QueueSafe s where
  bounded := by
    have hlen : s.pendingFinalized.length + s.pendingSampleAttempts.length ≤ s.inFlight.length := by
      simp [Observer.inFlight, Observer.queued]
    exact hlen.trans hs.bounded
  distinct := hs.distinct.sublist (List.sublist_append_left _ _)
  running := by
    intro hphase
    have hrest := hs.settled
    rw [settled_eq hphase] at hrest
    exact hrest

/-- The queues hold at most a batch, without a sample twice, and a settled sample stays in the hands
of the loop until a batch with it is committed. -/
theorem sampling_queue {rows : List Row} {shadow : ShadowLedger} (hrows : UniqueIds rows)
    {acts : List ObserverAct} {s : Observer}
    (h : Run Observer.step Run.anyStep (Observer.start rows shadow) acts s) :
    QueueSafe s ∧ ∀ acts' t, Run Observer.step Run.anyStep s acts' t → ∀ result ∈ s.uncommitted,
      result ∈ t.uncommitted ∨ CommittedIn s acts' result := by
  have hs : QueueInv s :=
    h.invariant (fun _ _ _ hs _ h => queueInv_step hs h) (queueInv_start hrows shadow)
  exact ⟨hs.safe, fun _ _ hrun _ hresult => uncommitted_run hrun hresult⟩

/-- A tick an hour after a decision: five horizons are missed, the quote of the last fails, and no
write gets its lock. -/
def stalledTick : List ObserverAct :=
  let hour : Int := 3600000000
  [.writes (.decision sampleDecision 0), .proceed, .proceed, .scan true hour] ++
    (List.range 6).map (fun worker => .sample worker hour hour (.failed "timeout") false) ++
    [.proceed, .batch false hour]

theorem sampling_queue_stalled : ∃ s,
    Run Observer.step Run.anyStep (Observer.start [] ⟨[], []⟩) stalledTick s ∧
    (s.pendingFinalized.length = 5 ∧ s.pendingSampleAttempts.length = 1) ∧ QueueSafe s ∧
    ∀ acts' t, Run Observer.step Run.anyStep s acts' t → ∀ result ∈ s.uncommitted,
      result ∈ t.uncommitted ∨ CommittedIn s acts' result := by
  have hrun : ∃ s, Run Observer.step Run.anyStep (Observer.start [] ⟨[], []⟩) stalledTick s ∧
      (s.pendingFinalized.length = 5 ∧ s.pendingSampleAttempts.length = 1) :=
    Run.exists_of_any (by decide +kernel)
  obtain ⟨s, hrun, hlen⟩ := hrun
  have hrows : UniqueIds [] := List.nodup_nil
  exact ⟨s, hrun, hlen, sampling_queue hrows hrun⟩

end Aibot.Observation
