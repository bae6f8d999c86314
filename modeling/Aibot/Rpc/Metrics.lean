/-
The counts of a provider's state file: the totals, and for each method its requests, outcomes and
latencies. Every call first migrates the state that it reads, and then counts in the totals and in the
metric of its method; in every run of the calls of any processes the two stay consistent.
-/
import Aibot.Lib.Conserved
import Aibot.Rpc.Provider

namespace Aibot.Rpc

/-! ## Migration -/

def providerStateSchemaVersion : Nat := 5

/-- The method whose availability a state of an old schema keeps as the provider's. -/
def ProviderState.trigger (s : ProviderState) : Option ScopedMethod :=
  let method := if s.provider.circuitState = .closed then s.provider.lastFailureMethod
    else s.provider.lastCircuitOpenMethod
  if s.provider.lastFailureCategory = some "RATE_LIMIT" ∨ s.provider.lastFailureCategory = some "RPC_TRANSIENT" then
    if s.provider.circuitState ≠ .closed ∨ 0 < safeEpoch s.provider.cooldownUntilEpoch then method.bind scopedMethod
    else none
  else none

/-- The metrics of the methods that are counted. -/
def knownMetrics (metrics : Dict String MethodMetric) : Dict String MethodMetric :=
  ⟨metrics.entries.filter fun item => item.1 ∈ methodMetricNames,
    metrics.nodup.sublist (List.filter_sublist.map _)⟩

/-- `_migrate_provider_state`, of a state whose fields are all there. -/
def migrateProviderState (previousSchema : Nat) (s : ProviderState) : ProviderState :=
  let moved := match s.trigger with
    | some m =>
      if previousSchema < 5 then
        { s with
          methodAvailability := Function.update s.methodAvailability m s.provider
          provider := s.provider.reset }
      else s
    | none => s
  { moved with methodMetrics := knownMetrics moved.methodMetrics }

/-! ## The system -/

/-- A granted request whose outcome is not recorded yet. -/
structure InFlight where
  method : String
  reservation : ProviderReservation
  deriving DecidableEq, Repr

structure Meter where
  state : ProviderState
  inFlight : List InFlight

inductive MeterEvent
  | reserve (method : String) (retry failover : Bool) (now after : ℚ)
  | success (k : Nat) (latencyMs now : ℚ)
  | failed (k : Nat) (failure : ProviderFailure) (latencyMs now : ℚ)
  | exhaustion (method : String)
  /-- A process dies, or its call raises, before the outcome of its request is recorded. -/
  | lost (k : Nat)

namespace Meter

def initial : Meter := ⟨emptyProviderState, []⟩

/-- What a call reads: the state, migrated. -/
def read (s : Meter) : ProviderState := migrateProviderState providerStateSchemaVersion s.state

/-- One locked call, by whichever process, at any clock readings. -/
def step (provider : RpcProvider) (s : Meter) : MeterEvent → Option Meter
  | .reserve method retry failover now after =>
    match reserveProviderSlot provider method retry failover now after s.read with
    | .error _ => some s
    | .ok (reservation, state) => some ⟨state, s.inFlight ++ [⟨method, reservation⟩]⟩
  | .success k latencyMs now => s.inFlight[k]?.map fun g =>
      ⟨recordProviderSuccess g.method latencyMs now s.read, s.inFlight.eraseIdx k⟩
  | .failed k failure latencyMs now => s.inFlight[k]?.map fun g =>
      ⟨recordProviderFailure g.reservation failure g.method latencyMs now s.read, s.inFlight.eraseIdx k⟩
  | .exhaustion method => some { s with state := recordProviderExhaustion method s.read }
  | .lost k => s.inFlight[k]?.map fun _ => { s with inFlight := s.inFlight.eraseIdx k }

end Meter

/-! ## Consistent counts -/

/-- The latencies and the outcomes of a method are as many. -/
structure MethodMetric.Balanced (m : MethodMetric) : Prop where
  buckets : m.le250Ms + m.le1000Ms + m.le5000Ms + m.gt5000Ms = m.latencySampleCount
  outcomes : m.latencySampleCount = m.successCount + m.failureCount

/-- The counts of the state are consistent. -/
structure ProviderState.Consistent (s : ProviderState) : Prop where
  requests : s.methodMetrics.sumOf (·.requestCount) = s.requestCount
  successes : s.methodMetrics.sumOf (·.successCount) = s.successCount
  failures : s.methodMetrics.sumOf (·.failureCount) = s.failureCount
  rateLimits : s.methodMetrics.sumOf (·.rateLimitCount) = s.rateLimitCount
  metrics : ∀ m ∈ s.methodMetrics.values, m.Balanced ∧ m.successCount + m.failureCount ≤ m.requestCount
  total : s.successCount + s.failureCount ≤ s.requestCount

theorem metricMethod_mem (method : String) : metricMethod method ∈ methodMetricNames := by
  unfold metricMethod
  split_ifs with h
  · exact h
  · decide

/-- Every metric is of a method that is counted. -/
def ProviderState.Bounded (s : ProviderState) : Prop :=
  ∀ name ∈ s.methodMetrics.entries.map Prod.fst, name ∈ methodMetricNames

/-- Nothing is left to migrate in a state of the current schema. -/
theorem migrateProviderState_eq {s : ProviderState} (h : s.Bounded) :
    migrateProviderState providerStateSchemaVersion s = s := by
  have hmetrics : knownMetrics s.methodMetrics = s.methodMetrics := by
    apply Dict.ext
    exact List.filter_eq_self.2 fun item hitem => decide_eq_true (h item.1 (List.mem_map_of_mem hitem))
  have hmoved : (match s.trigger with
      | some m =>
        if providerStateSchemaVersion < 5 then
          { s with
            methodAvailability := Function.update s.methodAvailability m s.provider
            provider := s.provider.reset }
        else s
      | none => s) = s := by
    split
    · exact if_neg (by decide)
    · rfl
  unfold migrateProviderState
  rw [hmoved]
  dsimp only
  rw [hmetrics]

/-! ## One metric -/

section Metric

variable {s : ProviderState} {method : String} {f : MethodMetric → MethodMetric}

/-- The metric under a name. -/
def ProviderState.metricNamed (s : ProviderState) (name : String) : MethodMetric := (s.methodMetrics.get? name).getD {}

theorem metricNamed_modifyMetric (s : ProviderState) (method : String) (f : MethodMetric → MethodMetric)
    (name : String) : (s.modifyMetric method f).metricNamed name =
      if name = metricMethod method then f (s.methodMetric method) else s.metricNamed name := by
  unfold ProviderState.metricNamed ProviderState.modifyMetric
  rw [Dict.get?_set]
  split_ifs <;> rfl

/-- A total over the methods grows by what the metric of one of them grows. -/
theorem sumOf_modifyMetric {count : MethodMetric → Nat} {n : Nat} (hzero : count {} = 0)
    (hcount : count (f (s.methodMetric method)) = count (s.methodMetric method) + n) :
    (s.modifyMetric method f).methodMetrics.sumOf count = s.methodMetrics.sumOf count + n := by
  have hvalue : s.methodMetrics.valueOf count (metricMethod method) = count (s.methodMetric method) := by
    unfold Dict.valueOf ProviderState.methodMetric
    cases s.methodMetrics.get? (metricMethod method) with
    | none => exact hzero.symm
    | some m => rfl
  have hsum := Dict.sumOf_set_add count s.methodMetrics (metricMethod method) (f (s.methodMetric method))
  show (s.methodMetrics.set _ _).sumOf count = _
  omega

theorem bounded_modifyMetric (h : s.Bounded) : (s.modifyMetric method f).Bounded := by
  intro name hname
  obtain ⟨⟨name, m⟩, hitem, rfl⟩ := List.mem_map.1 hname
  have hget : (s.methodMetrics.set (metricMethod method) (f (s.methodMetric method))).get? name = some m :=
    Dict.get?_eq_some.2 hitem
  rw [Dict.get?_set] at hget
  split_ifs at hget with heq
  · subst heq
    exact metricMethod_mem method
  · exact h name (List.mem_map_of_mem (Dict.get?_eq_some.1 hget))

/-- One latency is counted in one bucket. -/
theorem recordLatency_counts (m : MethodMetric) (latencyMs : ℚ) :
    let m' := m.recordLatency latencyMs
    m'.latencySampleCount = m.latencySampleCount + 1 ∧
      m'.le250Ms + m'.le1000Ms + m'.le5000Ms + m'.gt5000Ms =
        m.le250Ms + m.le1000Ms + m.le5000Ms + m.gt5000Ms + 1 ∧
      m'.requestCount = m.requestCount ∧ m'.successCount = m.successCount ∧ m'.failureCount = m.failureCount ∧
      m'.rateLimitCount = m.rateLimitCount := by
  unfold MethodMetric.recordLatency
  dsimp only
  split_ifs <;> refine ⟨rfl, ?_, rfl, rfl, rfl, rfl⟩ <;> dsimp only <;> omega

end Metric

/-! ## What a call counts -/

/-- A call counts so many requests, successes, failures and rate limits, in the totals and in the metric
of its method, and a latency for each outcome. -/
structure Counted (s s' : ProviderState) (method : String) (requests successes failures rateLimits : Nat) : Prop where
  metrics : ∃ f, s'.methodMetrics = (s.modifyMetric method f).methodMetrics ∧
    (f (s.methodMetric method)).requestCount = (s.methodMetric method).requestCount + requests ∧
    (f (s.methodMetric method)).successCount = (s.methodMetric method).successCount + successes ∧
    (f (s.methodMetric method)).failureCount = (s.methodMetric method).failureCount + failures ∧
    (f (s.methodMetric method)).rateLimitCount = (s.methodMetric method).rateLimitCount + rateLimits ∧
    ((s.methodMetric method).Balanced → (f (s.methodMetric method)).Balanced)
  requests : s'.requestCount = s.requestCount + requests
  successes : s'.successCount = s.successCount + successes
  failures : s'.failureCount = s.failureCount + failures
  rateLimits : s'.rateLimitCount = s.rateLimitCount + rateLimits

theorem balanced_recordLatency {m counted : MethodMetric} (latencyMs : ℚ) (h : m.Balanced)
    (hbuckets : counted.le250Ms + counted.le1000Ms + counted.le5000Ms + counted.gt5000Ms =
      m.le250Ms + m.le1000Ms + m.le5000Ms + m.gt5000Ms)
    (hsamples : counted.latencySampleCount = m.latencySampleCount)
    (houtcomes : counted.successCount + counted.failureCount = m.successCount + m.failureCount + 1) :
    (counted.recordLatency latencyMs).Balanced := by
  obtain ⟨hcount, hsum, -, hsuccess, hfailure, -⟩ := recordLatency_counts counted latencyMs
  have hb := h.buckets
  have ho := h.outcomes
  constructor <;> omega

section Calls

variable {s : ProviderState} {method : String}

/-- The metric after a request. -/
def countRequest (retry failover : Bool) (m : MethodMetric) : MethodMetric :=
  { m with
    requestCount := m.requestCount + 1
    retryCount := if retry then m.retryCount + 1 else m.retryCount
    failoverCount := if failover then m.failoverCount + 1 else m.failoverCount }

/-- The metric after a success, before its latency. -/
def countSuccess (m : MethodMetric) : MethodMetric := { m with successCount := m.successCount + 1 }

/-- The metric after a failure, before its latency. -/
def countFailure (rateLimited : Bool) (m : MethodMetric) : MethodMetric :=
  { m with
    failureCount := m.failureCount + 1
    rateLimitCount := if rateLimited then m.rateLimitCount + 1 else m.rateLimitCount }

/-- The metric after an exhaustion. -/
def countExhaustion (m : MethodMetric) : MethodMetric := { m with exhaustionCount := m.exhaustionCount + 1 }

theorem counted_reserve {provider : RpcProvider} {retry failover : Bool} {now after : ℚ} {s' : ProviderState}
    {r : ProviderReservation} (h : reserveProviderSlot provider method retry failover now after s = .ok (r, s')) :
    Counted s s' method 1 0 0 0 := by
  unfold reserveProviderSlot at h
  split at h
  · cases h
  · obtain ⟨-, rfl⟩ := Prod.mk.inj (Except.ok.inj h)
    refine ⟨⟨countRequest retry failover, rfl, rfl, rfl, rfl, rfl, fun hm => ?_⟩, rfl, rfl, rfl, rfl⟩
    exact ⟨hm.buckets, hm.outcomes⟩

theorem counted_success (latencyMs now : ℚ) :
    Counted s (recordProviderSuccess method latencyMs now s) method 0 1 0 0 := by
  obtain ⟨-, -, hrequests, hsuccesses, hfailures, hlimits⟩ :=
    recordLatency_counts (countSuccess (s.methodMetric method)) latencyMs
  refine ⟨⟨fun m => (countSuccess m).recordLatency latencyMs, rfl, hrequests, hsuccesses, hfailures, hlimits,
    fun hm => ?_⟩, rfl, rfl, rfl, rfl⟩
  refine balanced_recordLatency latencyMs hm ?_ ?_ ?_
  · rfl
  · rfl
  · unfold countSuccess
    dsimp only
    omega

theorem counted_failure (r : ProviderReservation) (f : ProviderFailure) (latencyMs now : ℚ) :
    Counted s (recordProviderFailure r f method latencyMs now s) method 0 0 1 (if f.rateLimited then 1 else 0) := by
  obtain ⟨-, -, hrequests, hsuccesses, hfailures, hlimits⟩ :=
    recordLatency_counts (countFailure f.rateLimited (s.methodMetric method)) latencyMs
  have hlimit : (countFailure f.rateLimited (s.methodMetric method)).rateLimitCount =
      (s.methodMetric method).rateLimitCount + if f.rateLimited then 1 else 0 := by
    unfold countFailure
    split_ifs <;> rfl
  -- both ways to weigh a failure count it alike
  have hstate : (recordProviderFailure r f method latencyMs now s).methodMetrics =
      (s.modifyMetric method fun m => (countFailure f.rateLimited m).recordLatency latencyMs).methodMetrics ∧
      (recordProviderFailure r f method latencyMs now s).requestCount = s.requestCount ∧
      (recordProviderFailure r f method latencyMs now s).successCount = s.successCount ∧
      (recordProviderFailure r f method latencyMs now s).failureCount = s.failureCount + 1 ∧
      (recordProviderFailure r f method latencyMs now s).rateLimitCount =
        if f.rateLimited then s.rateLimitCount + 1 else s.rateLimitCount := by
    unfold recordProviderFailure
    dsimp only
    split <;> exact ⟨rfl, rfl, rfl, rfl, rfl⟩
  obtain ⟨hm, hr, hs, hf, hl⟩ := hstate
  refine ⟨⟨fun m => (countFailure f.rateLimited m).recordLatency latencyMs, hm, hrequests, hsuccesses, hfailures,
    hlimits.trans hlimit, fun hb => ?_⟩, hr, hs, hf, ?_⟩
  · refine balanced_recordLatency latencyMs hb ?_ ?_ ?_
    · rfl
    · rfl
    · unfold countFailure
      dsimp only
      omega
  · rw [hl]
    split_ifs <;> rfl

theorem counted_exhaustion : Counted s (recordProviderExhaustion method s) method 0 0 0 0 :=
  ⟨⟨countExhaustion, rfl, rfl, rfl, rfl, rfl, fun hm => ⟨hm.buckets, hm.outcomes⟩⟩, rfl, rfl, rfl, rfl⟩

end Calls

/-! ## The invariant -/

namespace Meter

/-- The requests in flight that are counted under a name. -/
def pending (inFlight : List InFlight) (name : String) : Nat := inFlight.countP fun g => metricMethod g.method = name

/-- The totals are the sums over the methods, and every outcome is that of a request. -/
structure Sound (s : Meter) : Prop where
  bounded : s.state.Bounded
  requests : s.state.methodMetrics.sumOf (·.requestCount) = s.state.requestCount
  successes : s.state.methodMetrics.sumOf (·.successCount) = s.state.successCount
  failures : s.state.methodMetrics.sumOf (·.failureCount) = s.state.failureCount
  rateLimits : s.state.methodMetrics.sumOf (·.rateLimitCount) = s.state.rateLimitCount
  balanced : ∀ name, (s.state.metricNamed name).Balanced
  outcomes : ∀ name, (s.state.metricNamed name).successCount + (s.state.metricNamed name).failureCount +
    pending s.inFlight name ≤ (s.state.metricNamed name).requestCount
  total : s.state.successCount + s.state.failureCount + s.inFlight.length ≤ s.state.requestCount

namespace Sound

theorem initial : Sound initial where
  bounded := fun name h => by cases h
  requests := rfl
  successes := rfl
  failures := rfl
  rateLimits := rfl
  balanced := fun name => ⟨rfl, rfl⟩
  outcomes := fun name => le_refl 0
  total := le_refl 0

variable {s : Meter}

theorem read_eq (h : Sound s) : s.read = s.state := migrateProviderState_eq h.bounded

/-- A call counts its outcome for a request that is no longer in flight. -/
theorem counted (h : Sound s) {state : ProviderState} {method : String} {r ok f l : Nat} {inFlight : List InFlight}
    (hc : Counted s.state state method r ok f l)
    (hpending : ∀ name, pending inFlight name + (if name = metricMethod method then ok + f else 0) ≤
      pending s.inFlight name + if name = metricMethod method then r else 0)
    (hlength : inFlight.length + (ok + f) ≤ s.inFlight.length + r) : Sound ⟨state, inFlight⟩ := by
  obtain ⟨g, hmetrics, hr, hok, hf, hl, hbalanced⟩ := hc.metrics
  have hnamed : ∀ name, state.metricNamed name =
      if name = metricMethod method then g (s.state.methodMetric method) else s.state.metricNamed name := by
    intro name
    rw [← metricNamed_modifyMetric]
    unfold ProviderState.metricNamed
    rw [hmetrics]
  constructor
  · show state.Bounded
    unfold ProviderState.Bounded
    rw [hmetrics]
    exact bounded_modifyMetric h.bounded
  · show state.methodMetrics.sumOf _ = state.requestCount
    rw [hmetrics, sumOf_modifyMetric rfl hr, h.requests, hc.requests]
  · show state.methodMetrics.sumOf _ = state.successCount
    rw [hmetrics, sumOf_modifyMetric rfl hok, h.successes, hc.successes]
  · show state.methodMetrics.sumOf _ = state.failureCount
    rw [hmetrics, sumOf_modifyMetric rfl hf, h.failures, hc.failures]
  · show state.methodMetrics.sumOf _ = state.rateLimitCount
    rw [hmetrics, sumOf_modifyMetric rfl hl, h.rateLimits, hc.rateLimits]
  · intro name
    show (state.metricNamed name).Balanced
    rw [hnamed]
    split_ifs with heq
    · exact hbalanced (h.balanced (metricMethod method))
    · exact h.balanced name
  · intro name
    show (state.metricNamed name).successCount + (state.metricNamed name).failureCount + pending inFlight name ≤ _
    have hname := hpending name
    have hold := h.outcomes name
    rw [hnamed]
    split_ifs at hname ⊢ with heq
    · subst heq
      change (s.state.methodMetric method).successCount + (s.state.methodMetric method).failureCount + _ ≤
        (s.state.methodMetric method).requestCount at hold
      omega
    · omega
  · show state.successCount + state.failureCount + inFlight.length ≤ state.requestCount
    have hold := h.total
    rw [hc.successes, hc.failures, hc.requests]
    omega

/-- The counts of a sound state are consistent. -/
theorem consistent (h : Sound s) : s.state.Consistent where
  requests := h.requests
  successes := h.successes
  failures := h.failures
  rateLimits := h.rateLimits
  metrics m hm := by
    obtain ⟨name, hname⟩ := Dict.mem_values.1 hm
    have hnamed : s.state.metricNamed name = m := by
      unfold ProviderState.metricNamed
      rw [hname]
      rfl
    rw [← hnamed]
    have := h.outcomes name
    exact ⟨h.balanced name, by omega⟩
  total := by
    have := h.total
    omega

end Sound

/-! ## Every run -/

/-- What is taken out of the flight is one request of its method. -/
theorem pending_eraseIdx {inFlight : List InFlight} {k : Nat} {g : InFlight} (h : inFlight[k]? = some g)
    (name : String) :
    pending (inFlight.eraseIdx k) name + (if name = metricMethod g.method then 1 else 0) = pending inFlight name := by
  obtain ⟨hlt, rfl⟩ := List.getElem?_eq_some_iff.1 h
  have hperm := List.getElem_cons_eraseIdx_perm hlt
  unfold pending
  rw [← hperm.countP_eq, List.countP_cons]
  congr 1
  exact if_congr (by rw [decide_eq_true_eq, eq_comm]) rfl rfl

theorem length_eraseIdx {inFlight : List InFlight} {k : Nat} {g : InFlight} (h : inFlight[k]? = some g) :
    (inFlight.eraseIdx k).length + 1 = inFlight.length :=
  List.length_eraseIdx_add_one (List.getElem?_eq_some_iff.1 h).1

theorem sound_step {provider : RpcProvider} {s t : Meter} {e : MeterEvent} (h : Sound s)
    (hstep : step provider s e = some t) : Sound t := by
  cases e with
  | reserve method retry failover now after =>
    simp only [step, h.read_eq] at hstep
    split at hstep <;> cases hstep
    · exact h
    · rename_i r state hreserved
      apply h.counted (counted_reserve hreserved)
      · intro name
        unfold pending
        rw [List.countP_append, List.countP_singleton]
        by_cases heq : name = metricMethod method
        · subst heq
          simp
        · simp [heq, Ne.symm heq]
      · simp
  | success k latencyMs now =>
    simp only [step, h.read_eq] at hstep
    obtain ⟨g, hg, rfl⟩ := Option.map_eq_some_iff.1 hstep
    apply h.counted (counted_success latencyMs now)
    · intro name
      have := pending_eraseIdx hg name
      simp only [ite_self, Nat.add_zero]
      omega
    · exact (length_eraseIdx hg).le
  | failed k failure latencyMs now =>
    simp only [step, h.read_eq] at hstep
    obtain ⟨g, hg, rfl⟩ := Option.map_eq_some_iff.1 hstep
    apply h.counted (counted_failure g.reservation failure latencyMs now)
    · intro name
      have := pending_eraseIdx hg name
      simp only [ite_self, Nat.add_zero, Nat.zero_add]
      omega
    · exact (length_eraseIdx hg).le
  | exhaustion method =>
    simp only [step, h.read_eq] at hstep
    cases hstep
    exact h.counted counted_exhaustion (fun name => by simp) (le_refl _)
  | lost k =>
    obtain ⟨g, hg, rfl⟩ := Option.map_eq_some_iff.1 hstep
    have hlength := length_eraseIdx hg
    have htotal := h.total
    refine ⟨h.bounded, h.requests, h.successes, h.failures, h.rateLimits, h.balanced, fun name => ?_, ?_⟩
    · have hpending := pending_eraseIdx hg name
      have hold := h.outcomes name
      dsimp only
      omega
    · dsimp only
      omega

/-- Provider metrics are consistent: in every state that the calls of any processes reach from the empty
one, for any methods, outcomes and clock readings, the totals are the sums over the methods, the latency
buckets of a method add up to its samples, which are its outcomes, and no more outcomes are counted than
requests. -/
theorem metrics_consistent (provider : RpcProvider) {es : List MeterEvent} {s : Meter}
    (h : Run (step provider) Run.anyStep initial es s) : s.state.Consistent :=
  (h.invariant (P := Sound) (fun _ _ _ hs _ he => sound_step hs he) Sound.initial).consistent

theorem metrics_consistent_sample :
    ∃ s, Run (step ⟨"primary", 1⟩) Run.anyStep initial
        [.reserve "getBalance" false false 100 100, .reserve "getSlot" false false 101 101, .success 1 300 102,
          .failed 0 ⟨true, true, 1, "RATE_LIMIT"⟩ 6000 103, .exhaustion "getBalance"] s ∧
      (s.state.requestCount, s.state.successCount, s.state.failureCount, s.state.rateLimitCount) = (2, 1, 1, 1) ∧
      s.state.Consistent := by
  have hrun : ∃ s, Run (step ⟨"primary", 1⟩) Run.anyStep initial
      [.reserve "getBalance" false false 100 100, .reserve "getSlot" false false 101 101, .success 1 300 102,
        .failed 0 ⟨true, true, 1, "RATE_LIMIT"⟩ 6000 103, .exhaustion "getBalance"] s ∧
      (s.state.requestCount, s.state.successCount, s.state.failureCount, s.state.rateLimitCount) = (2, 1, 1, 1) := by
    apply Run.exists_of_any
    decide +kernel
  obtain ⟨s, hs, hcounts⟩ := hrun
  exact ⟨s, hs, hcounts, metrics_consistent ⟨"primary", 1⟩ hs⟩

end Meter

end Aibot.Rpc
