/-
The state file of one RPC provider, and the four calls of the router that write it under its lock:
a reservation, and the success, the failure or the exhaustion of a request. Times are seconds since
the epoch.
-/
import Aibot.Lib.Dict

namespace Aibot.Rpc

/-! ## Constants -/

def circuitFailureThreshold : Nat := 3
def circuitCooldownSeconds : ℚ := 60
def halfOpenLeaseSeconds : ℚ := 20

/-- `RPC_METHOD_METRIC_NAMES`. -/
def methodMetricNames : List String :=
  ["getAccountInfo", "getTokenSupply", "getBalance", "getTokenAccountsByOwner", "getTransaction",
    "getSignaturesForAddress", "getHealth", "getProgramAccounts", "getMultipleAccounts", "getBlock", "other"]

/-- `METHOD_SCOPED_AVAILABILITY_METHODS`. -/
inductive ScopedMethod
  | getTransaction
  | getSignaturesForAddress
  deriving DecidableEq, Repr

/-- The method with an availability of its own that a name stands for. -/
def scopedMethod (method : String) : Option ScopedMethod :=
  if method = "getTransaction" then some .getTransaction
  else if method = "getSignaturesForAddress" then some .getSignaturesForAddress
  else none

/-- `_metric_method`. -/
def metricMethod (method : String) : String := if method ∈ methodMetricNames then method else "other"

/-! ## Availability -/

inductive Circuit
  | closed
  | opened
  | halfOpen
  deriving DecidableEq, Repr

/-- `_empty_availability_state`: what the provider and each scoped method keep. -/
structure Availability where
  consecutiveFailures : Nat := 0
  lastSuccessAtEpoch : Option ℚ := none
  lastFailureAtEpoch : Option ℚ := none
  lastFailureCategory : Option String := none
  lastFailureMethod : Option String := none
  lastRateLimitAtEpoch : Option ℚ := none
  lastRateLimitMethod : Option String := none
  lastCircuitOpenAtEpoch : Option ℚ := none
  lastCircuitOpenMethod : Option String := none
  cooldownUntilEpoch : ℚ := 0
  circuitState : Circuit := .closed
  circuitOpenCount : Nat := 0
  halfOpenLeaseUntilEpoch : ℚ := 0
  deriving DecidableEq, Repr

/-- `_safe_epoch`, of a number. -/
def safeEpoch (value : ℚ) : ℚ := max 0 value

inductive BlockReason
  | circuitOpenCooldown
  | halfOpenLease
  | cooldown
  deriving DecidableEq, Repr

/-- `_availability_block_reason`. -/
def Availability.blockReason (a : Availability) (now : ℚ) : Option BlockReason :=
  match a.circuitState with
  | .opened => if now < safeEpoch a.cooldownUntilEpoch then some .circuitOpenCooldown else none
  | .halfOpen => if now < safeEpoch a.halfOpenLeaseUntilEpoch then some .halfOpenLease else none
  | .closed => if now < safeEpoch a.cooldownUntilEpoch then some .cooldown else none

/-- The circuit takes a probe. -/
def Availability.probes (a : Availability) : Bool := a.circuitState ≠ .closed

/-- `_activate_half_open_probe`. -/
def Availability.activated (a : Availability) (now : ℚ) : Availability :=
  if a.probes then
    { a with circuitState := .halfOpen, halfOpenLeaseUntilEpoch := now + halfOpenLeaseSeconds }
  else a

/-- The availability after a success. -/
def Availability.succeeded (a : Availability) (now : ℚ) : Availability :=
  { a with
    consecutiveFailures := 0
    lastSuccessAtEpoch := some now
    lastFailureCategory := none
    cooldownUntilEpoch := 0
    circuitState := .closed
    halfOpenLeaseUntilEpoch := 0 }

structure ProviderFailure where
  transient : Bool
  rateLimited : Bool
  retryDelaySeconds : ℚ
  category : String
  deriving DecidableEq, Repr

/-- The failure is noted, before it is weighed. -/
def Availability.noted (a : Availability) (f : ProviderFailure) (method : String) (now : ℚ) : Availability :=
  { a with
    lastFailureAtEpoch := some now
    lastFailureCategory := some f.category
    lastFailureMethod := some (metricMethod method)
    lastRateLimitAtEpoch := if f.rateLimited then some now else a.lastRateLimitAtEpoch
    lastRateLimitMethod := if f.rateLimited then some (metricMethod method) else a.lastRateLimitMethod }

/-- The failure opens the circuit: of a probe, or the third in a row. -/
def Availability.opens (a : Availability) (f : ProviderFailure) (probe : Bool) : Bool :=
  f.transient && (probe || decide (circuitFailureThreshold ≤ a.consecutiveFailures + 1))

/-- The circuit is opened anew, and by whom. -/
def Availability.countOpen (a : Availability) (method : String) (now : ℚ) : Availability :=
  { a with
    circuitOpenCount := a.circuitOpenCount + 1
    lastCircuitOpenAtEpoch := some now
    lastCircuitOpenMethod := some (metricMethod method) }

/-- The availability that a failure is weighed on. -/
def Availability.failed (a : Availability) (f : ProviderFailure) (method : String) (probe : Bool) (now : ℚ) :
    Availability :=
  let noted := a.noted f method now
  if f.transient then
    let retryAt := max (safeEpoch a.cooldownUntilEpoch) (now + max 0 f.retryDelaySeconds)
    if a.opens f probe then
      { (if a.circuitState ≠ .opened then noted.countOpen method now else noted) with
        consecutiveFailures := a.consecutiveFailures + 1
        circuitState := .opened
        cooldownUntilEpoch := max retryAt (now + circuitCooldownSeconds)
        halfOpenLeaseUntilEpoch := 0 }
    else
      { noted with
        consecutiveFailures := a.consecutiveFailures + 1
        circuitState := .closed
        cooldownUntilEpoch := retryAt
        halfOpenLeaseUntilEpoch := 0 }
  else
    { noted with
      consecutiveFailures := 0
      circuitState := .closed
      cooldownUntilEpoch := 0
      halfOpenLeaseUntilEpoch := 0 }

/-! ## The provider -/

/-- `_method_metric`, without the sum and the maximum of the latencies. -/
structure MethodMetric where
  requestCount : Nat := 0
  successCount : Nat := 0
  failureCount : Nat := 0
  rateLimitCount : Nat := 0
  exhaustionCount : Nat := 0
  retryCount : Nat := 0
  failoverCount : Nat := 0
  latencySampleCount : Nat := 0
  le250Ms : Nat := 0
  le1000Ms : Nat := 0
  le5000Ms : Nat := 0
  gt5000Ms : Nat := 0
  deriving DecidableEq, Repr

/-- `_record_latency`. -/
def MethodMetric.recordLatency (m : MethodMetric) (latencyMs : ℚ) : MethodMetric :=
  let counted := { m with latencySampleCount := m.latencySampleCount + 1 }
  let value := max 0 latencyMs
  if value ≤ 250 then { counted with le250Ms := m.le250Ms + 1 }
  else if value ≤ 1000 then { counted with le1000Ms := m.le1000Ms + 1 }
  else if value ≤ 5000 then { counted with le5000Ms := m.le5000Ms + 1 }
  else { counted with gt5000Ms := m.gt5000Ms + 1 }

structure ProviderState where
  version : Nat := 0
  requestCount : Nat := 0
  successCount : Nat := 0
  failureCount : Nat := 0
  rateLimitCount : Nat := 0
  lastRequestAtEpoch : ℚ := 0
  /-- The availability fields of the state itself. -/
  provider : Availability := {}
  methodAvailability : ScopedMethod → Availability := fun _ => {}
  methodMetrics : Dict String MethodMetric := Dict.empty

/-- `_empty_provider_state`. -/
def emptyProviderState : ProviderState := {}

/-- What has an availability: the provider, or a scoped method. -/
abbrev Scope := Option ScopedMethod

namespace ProviderState

def availability (s : ProviderState) : Scope → Availability
  | none => s.provider
  | some m => s.methodAvailability m

def setAvailability (s : ProviderState) : Scope → Availability → ProviderState
  | none, a => { s with provider := a }
  | some m, a => { s with methodAvailability := Function.update s.methodAvailability m a }

/-- `_state_method_metric`. -/
def methodMetric (s : ProviderState) (method : String) : MethodMetric :=
  (s.methodMetrics.get? (metricMethod method)).getD {}

/-- Change the metric of a method. -/
def modifyMetric (s : ProviderState) (method : String) (f : MethodMetric → MethodMetric) : ProviderState :=
  { s with methodMetrics := s.methodMetrics.set (metricMethod method) (f (s.methodMetric method)) }

/-- The method availabilities, where that of a request's method is changed. -/
def modifyMethod (s : ProviderState) (method : String) (f : Availability → Availability) :
    ScopedMethod → Availability :=
  match scopedMethod method with
  | some m => Function.update s.methodAvailability m (f (s.methodAvailability m))
  | none => s.methodAvailability

end ProviderState

structure RpcProvider where
  name : String
  maxRps : ℚ

/-- `minimum_interval_seconds`. -/
def RpcProvider.minimumIntervalSeconds (p : RpcProvider) : ℚ := 1 / p.maxRps

structure ProviderReservation where
  halfOpenProbe : Bool
  methodHalfOpenProbe : Bool
  deriving DecidableEq, Repr

/-- The flag of a reservation that a failure weighed on a scope looks at. -/
def ProviderReservation.probe (r : ProviderReservation) : Scope → Bool
  | none => r.halfOpenProbe
  | some _ => r.methodHalfOpenProbe

/-- The scopes of a request: the provider, and the method where it has an availability. -/
def scopesOf (method : String) : List Scope := none :: ((scopedMethod method).map some).toList

/-- Why a reservation is refused: the provider is asked first. -/
def ProviderState.blockReason (s : ProviderState) (method : String) (now : ℚ) : Option BlockReason :=
  (scopesOf method).findSome? fun scope => (s.availability scope).blockReason now

/-- The time of a granted request: at the reading after the sleep, where the pace asks for one. -/
def requestTime (provider : RpcProvider) (s : ProviderState) (now after : ℚ) : ℚ :=
  let target := max now (safeEpoch s.lastRequestAtEpoch + provider.minimumIntervalSeconds)
  if now < target then after else target

/-- `_reserve_provider_slot_sync`; a refused reservation saves nothing. -/
def reserveProviderSlot (provider : RpcProvider) (method : String) (retry failover : Bool) (now after : ℚ)
    (s : ProviderState) : Except BlockReason (ProviderReservation × ProviderState) :=
  match s.blockReason method now with
  | some reason => .error reason
  | none =>
    let probed : ProviderState :=
      { s with
        provider := s.provider.activated now
        methodAvailability := s.modifyMethod method (·.activated now)
        requestCount := s.requestCount + 1
        lastRequestAtEpoch := requestTime provider s now after
        version := s.version + 1 }
    .ok (⟨s.provider.probes, (scopedMethod method).any fun m => (s.methodAvailability m).probes⟩,
      probed.modifyMetric method fun metric =>
        { metric with
          requestCount := metric.requestCount + 1
          retryCount := if retry then metric.retryCount + 1 else metric.retryCount
          failoverCount := if failover then metric.failoverCount + 1 else metric.failoverCount })

/-- `_record_provider_success_sync`: the provider and the method are available again. -/
def recordProviderSuccess (method : String) (latencyMs now : ℚ) (s : ProviderState) : ProviderState :=
  let counted := s.modifyMetric method fun metric =>
    { metric with successCount := metric.successCount + 1 }.recordLatency latencyMs
  { counted with
    successCount := s.successCount + 1
    provider := s.provider.succeeded now
    methodAvailability := s.modifyMethod method (·.succeeded now)
    version := s.version + 1 }

/-- `_failure_uses_method_availability`, with the method. -/
def failureScope (method : String) (f : ProviderFailure) : Scope :=
  if f.rateLimited ∨ f.category = "RPC_TRANSIENT" then scopedMethod method else none

/-- The provider after a failure that was weighed on a method. -/
def Availability.reset (a : Availability) : Availability :=
  { a with
    consecutiveFailures := 0
    cooldownUntilEpoch := 0
    circuitState := .closed
    halfOpenLeaseUntilEpoch := 0 }

/-- `_record_provider_failure_sync`. -/
def recordProviderFailure (r : ProviderReservation) (f : ProviderFailure) (method : String)
    (latencyMs now : ℚ) (s : ProviderState) : ProviderState :=
  let counted := s.modifyMetric method fun metric =>
    { metric with
      failureCount := metric.failureCount + 1
      rateLimitCount := if f.rateLimited then metric.rateLimitCount + 1 else metric.rateLimitCount
      }.recordLatency latencyMs
  let counted :=
    { counted with
      failureCount := s.failureCount + 1
      rateLimitCount := if f.rateLimited then s.rateLimitCount + 1 else s.rateLimitCount
      provider := s.provider.noted f method now
      version := s.version + 1 }
  match failureScope method f with
  | some m =>
    let a := s.methodAvailability m
    let noted := counted.provider.reset
    { counted with
      methodAvailability :=
        Function.update s.methodAvailability m (a.failed f method r.methodHalfOpenProbe now)
      provider :=
        if a.opens f r.methodHalfOpenProbe ∧ a.circuitState ≠ .opened then noted.countOpen method now
        else noted }
  | none =>
    { counted with
      provider := s.provider.failed f method r.halfOpenProbe now
      methodAvailability :=
        if r.methodHalfOpenProbe then
          s.modifyMethod method fun a => { a with halfOpenLeaseUntilEpoch := 0 }
        else s.methodAvailability }

/-- `_record_provider_exhaustion_sync`. -/
def recordProviderExhaustion (method : String) (s : ProviderState) : ProviderState :=
  { s.modifyMetric method fun metric => { metric with exhaustionCount := metric.exhaustionCount + 1 } with
    version := s.version + 1 }

/-! ## What an operation leaves of an availability -/

theorem mem_scopesOf {method : String} {m : ScopedMethod} :
    some m ∈ scopesOf method ↔ scopedMethod method = some m := by
  simp [scopesOf]

@[simp] theorem none_mem_scopesOf (method : String) : none ∈ scopesOf method := by simp [scopesOf]

@[simp] theorem modifyMetric_availability (s : ProviderState) (method : String)
    (f : MethodMetric → MethodMetric) (scope : Scope) :
    (s.modifyMetric method f).availability scope = s.availability scope := by
  cases scope <;> rfl

theorem modifyMethod_apply (s : ProviderState) (method : String) (f : Availability → Availability)
    (m : ScopedMethod) : s.modifyMethod method f m =
      if some m ∈ scopesOf method then f (s.methodAvailability m) else s.methodAvailability m := by
  unfold ProviderState.modifyMethod
  rw [if_congr mem_scopesOf rfl rfl]
  cases h : scopedMethod method with
  | none => rw [if_neg (by simp)]
  | some m' =>
    by_cases hm : m' = m
    · subst hm; simp
    · rw [if_neg (by simpa using hm)]
      exact Function.update_of_ne (Ne.symm hm) _ _

/-- A granted request: nothing in its scope was blocked, its flags are those of the circuits it
probes, and these become half-open. -/
theorem reserveProviderSlot_ok {provider : RpcProvider} {method : String} {retry failover : Bool} {now after : ℚ}
    {s s' : ProviderState} {r : ProviderReservation}
    (h : reserveProviderSlot provider method retry failover now after s = .ok (r, s')) :
    (∀ scope ∈ scopesOf method, (s.availability scope).blockReason now = none ∧
      r.probe scope = (s.availability scope).probes) ∧
    ∀ scope, s'.availability scope =
      if scope ∈ scopesOf method then (s.availability scope).activated now else s.availability scope := by
  unfold reserveProviderSlot at h
  cases hb : s.blockReason method now with
  | some reason => rw [hb] at h; cases h
  | none =>
    rw [hb] at h
    obtain ⟨rfl, rfl⟩ := Prod.mk.inj (Except.ok.inj h)
    refine ⟨fun scope hs => ⟨List.findSome?_eq_none_iff.1 hb scope hs, ?_⟩, fun scope => ?_⟩
    · cases scope with
      | none => rfl
      | some m => rw [mem_scopesOf] at hs; simp [ProviderReservation.probe, hs, ProviderState.availability]
    · rw [modifyMetric_availability]
      cases scope with
      | none => rw [if_pos (none_mem_scopesOf method)]; rfl
      | some m => exact modifyMethod_apply s method (·.activated now) m

theorem recordProviderSuccess_availability (method : String) (latencyMs now : ℚ) (s : ProviderState)
    (scope : Scope) : (recordProviderSuccess method latencyMs now s).availability scope =
      if scope ∈ scopesOf method then (s.availability scope).succeeded now else s.availability scope := by
  cases scope with
  | none => rw [if_pos (none_mem_scopesOf method)]; rfl
  | some m => exact modifyMethod_apply s method (·.succeeded now) m

/-- An open circuit that is not blocked has cooled down. -/
theorem Availability.cooldown_le {a : Availability} {now : ℚ} (hfree : a.blockReason now = none)
    (hs : a.circuitState = .opened) : a.cooldownUntilEpoch ≤ now := by
  unfold Availability.blockReason at hfree
  simp only [hs, ite_eq_right_iff, reduceCtorEq, imp_false, not_lt] at hfree
  exact (le_max_right _ _).trans hfree

/-- A half-open circuit that is not blocked has no lease in force. -/
theorem Availability.lease_le {a : Availability} {now : ℚ} (hfree : a.blockReason now = none)
    (hs : a.circuitState = .halfOpen) : a.halfOpenLeaseUntilEpoch ≤ now := by
  unfold Availability.blockReason at hfree
  simp only [hs, ite_eq_right_iff, reduceCtorEq, imp_false, not_lt] at hfree
  exact (le_max_right _ _).trans hfree

theorem le_requestTime {provider : RpcProvider} {s : ProviderState} {now after : ℚ} (h : now ≤ after) :
    now ≤ requestTime provider s now after := by
  simp only [requestTime]
  split_ifs
  · exact h
  · exact le_max_left _ _

/-- What a reservation reads of an availability. -/
def Availability.gate (a : Availability) : Circuit × ℚ × ℚ :=
  (a.circuitState, a.cooldownUntilEpoch, a.halfOpenLeaseUntilEpoch)

/-- A failure that opens the circuit leaves no earlier a cooldown, of a minute at least. -/
theorem Availability.failed_opens {a : Availability} {f : ProviderFailure} {probe : Bool}
    (h : a.opens f probe = true) (method : String) (now : ℚ) :
    (a.failed f method probe now).circuitState = .opened ∧
      a.cooldownUntilEpoch ≤ (a.failed f method probe now).cooldownUntilEpoch ∧
      now + circuitCooldownSeconds ≤ (a.failed f method probe now).cooldownUntilEpoch := by
  have ht : f.transient = true := (Bool.and_eq_true_iff.1 h).1
  unfold Availability.failed
  simp only [if_pos ht, if_pos h]
  refine ⟨trivial, ?_, le_max_right _ _⟩
  calc a.cooldownUntilEpoch ≤ safeEpoch a.cooldownUntilEpoch := le_max_right _ _
    _ ≤ max (safeEpoch a.cooldownUntilEpoch) (now + max 0 f.retryDelaySeconds) := le_max_left _ _
    _ ≤ _ := le_max_left _ _

/-- Any other failure closes it. -/
theorem Availability.failed_closes {a : Availability} {f : ProviderFailure} {probe : Bool}
    (h : a.opens f probe ≠ true) (method : String) (now : ℚ) :
    (a.failed f method probe now).circuitState = .closed := by
  unfold Availability.failed
  by_cases ht : f.transient = true
  · simp only [if_pos ht, if_neg h]
  · simp only [if_neg ht]

/-- A failure that is weighed on a method resets the provider and leaves the other method. -/
theorem recordProviderFailure_method (r : ProviderReservation) {f : ProviderFailure} {method : String}
    (latencyMs now : ℚ) (s : ProviderState) {m : ScopedMethod} (h : failureScope method f = some m) (scope : Scope) :
    let s' := recordProviderFailure r f method latencyMs now s
    s'.availability (some m) = (s.availability (some m)).failed f method r.methodHalfOpenProbe now ∧
      (s'.availability none).circuitState = .closed ∧
      (scope ≠ none → scope ≠ some m → s'.availability scope = s.availability scope) := by
  simp only [recordProviderFailure, h]
  refine ⟨Function.update_self .., ?_, fun h0 hm => ?_⟩
  · show Availability.circuitState (if _ then _ else _) = _
    split_ifs <;> rfl
  · cases scope with
    | none => exact absurd rfl h0
    | some m' => exact Function.update_of_ne (fun he : m' = m => hm (congrArg some he)) _ _

/-- A failure that is weighed on the provider ends the lease of the method it probed. -/
theorem recordProviderFailure_provider (r : ProviderReservation) {f : ProviderFailure} {method : String}
    (latencyMs now : ℚ) (s : ProviderState) (h : failureScope method f = none) (m : ScopedMethod) :
    let s' := recordProviderFailure r f method latencyMs now s
    s'.availability none = (s.availability none).failed f method r.halfOpenProbe now ∧
      s'.availability (some m) = if some m ∈ scopesOf method ∧ r.methodHalfOpenProbe = true then
        { s.availability (some m) with halfOpenLeaseUntilEpoch := 0 } else s.availability (some m) := by
  simp only [recordProviderFailure, h]
  refine ⟨rfl, ?_⟩
  show (if r.methodHalfOpenProbe = true then
    s.modifyMethod method (fun a => { a with halfOpenLeaseUntilEpoch := 0 }) else s.methodAvailability) m = _
  by_cases hp : r.methodHalfOpenProbe = true
  · rw [if_pos hp, modifyMethod_apply]
    simp only [hp, and_true]
    rfl
  · rw [if_neg hp, if_neg fun h => hp h.2]
    rfl

theorem recordProviderExhaustion_availability (method : String) (s : ProviderState) (scope : Scope) :
    (recordProviderExhaustion method s).availability scope = s.availability scope := by
  cases scope <;> rfl

end Aibot.Rpc
