/-
The circuit breaker of a provider over whole runs: requests of any number of processes are granted
and have their outcomes recorded in any order, each as late as it may be. Under an order of the
outcomes in which none closes a circuit that its request did not probe, an open circuit grants
nothing before its cooldown, is left by a probe alone, and a lease has one probe.
-/
import Aibot.Lib.Run
import Aibot.Rpc.Provider

namespace Aibot.Rpc

/-! ## The system -/

/-- A granted request whose outcome is not recorded yet. -/
structure Grant where
  method : String
  reservation : ProviderReservation
  grantedAt : ℚ
  deriving DecidableEq, Repr

/-- The request was granted as the probe of a scope. -/
def Grant.probes (g : Grant) (scope : Scope) : Prop :=
  scope ∈ scopesOf g.method ∧ g.reservation.probe scope = true

instance (g : Grant) (scope : Scope) : Decidable (g.probes scope) :=
  inferInstanceAs (Decidable (_ ∧ _))

/-- The end of the lease that a probe is granted with. -/
def Grant.leaseEnd (g : Grant) : ℚ := g.grantedAt + halfOpenLeaseSeconds

structure Breaker where
  state : ProviderState
  outstanding : Nat → Option Grant
  clock : ℚ
  /-- Every cooldown that the circuit of a scope was seen open with. -/
  openings : Scope → List ℚ

namespace Breaker

def initial : Breaker := ⟨emptyProviderState, fun _ => none, 0, fun _ => []⟩

def circuit (s : Breaker) (scope : Scope) : Circuit := (s.state.availability scope).circuitState
def cooldown (s : Breaker) (scope : Scope) : ℚ := (s.state.availability scope).cooldownUntilEpoch
def lease (s : Breaker) (scope : Scope) : ℚ := (s.state.availability scope).halfOpenLeaseUntilEpoch

/-- The state file is saved. -/
def saved (s : Breaker) (state : ProviderState) (clock : ℚ) : Breaker :=
  { s with
    state := state
    clock := clock
    openings := fun scope =>
      let a := state.availability scope
      if a.circuitState = .opened then a.cooldownUntilEpoch :: s.openings scope else s.openings scope }

end Breaker

inductive RpcEvent
  /-- `now` is read under the lock, and `after` is the reading after the sleep of the pace. -/
  | reserve (id : Nat) (method : String) (retry failover : Bool) (now after : ℚ)
  | success (id : Nat) (latencyMs now : ℚ)
  | failure (id : Nat) (failure : ProviderFailure) (latencyMs now : ℚ)
  | exhaustion (method : String)

namespace Breaker

/-- One locked call, by whichever process. A clock never runs back. -/
def step (provider : RpcProvider) (s : Breaker) : RpcEvent → Option Breaker
  | .reserve id method retry failover now after =>
    if s.clock ≤ now ∧ now ≤ after ∧ s.outstanding id = none then
      match reserveProviderSlot provider method retry failover now after s.state with
      | .error _ => some { s with clock := now }
      | .ok (reservation, state) =>
        some { s.saved state (requestTime provider s.state now after) with
          outstanding := Function.update s.outstanding id (some ⟨method, reservation, now⟩) }
    else none
  | .success id latencyMs now =>
    (s.outstanding id).bind fun g =>
      if s.clock ≤ now then
        some { s.saved (recordProviderSuccess g.method latencyMs now s.state) now with
          outstanding := Function.update s.outstanding id none }
      else none
  | .failure id failure latencyMs now =>
    (s.outstanding id).bind fun g =>
      if s.clock ≤ now then
        some { s.saved (recordProviderFailure g.reservation failure g.method latencyMs now s.state) now with
          outstanding := Function.update s.outstanding id none }
      else none
  | .exhaustion method => some (s.saved (recordProviderExhaustion method s.state) s.clock)

/-- The breaker keeps its word in a step. -/
structure Lawful (s t : Breaker) : Prop where
  /-- A request is granted after every cooldown that a circuit in its scope was opened with. -/
  cooled : ∀ id g, s.outstanding id = none → t.outstanding id = some g →
    ∀ scope ∈ scopesOf g.method, ∀ c ∈ s.openings scope, c ≤ g.grantedAt
  /-- An open circuit is left by granting a probe. -/
  probed : ∀ scope, s.circuit scope = .opened → t.circuit scope ≠ .opened →
    t.circuit scope = .halfOpen ∧
      ∃ id g, s.outstanding id = none ∧ t.outstanding id = some g ∧ g.probes scope
  /-- A circuit is closed by the outcome of a probe that was granted after all its cooldowns. -/
  closed : ∀ scope, s.circuit scope ≠ .closed → t.circuit scope = .closed →
    ∃ id g, s.outstanding id = some g ∧ t.outstanding id = none ∧ g.probes scope ∧
      ∀ c ∈ s.openings scope, c ≤ g.grantedAt
  /-- Two outstanding probes of a scope have leases apart. -/
  leases : ∀ scope i j g g', i ≠ j → t.outstanding i = some g → t.outstanding j = some g' →
    g.probes scope → g'.probes scope → g.leaseEnd ≤ g'.grantedAt ∨ g'.leaseEnd ≤ g.grantedAt

/-! ## Outcomes in time -/

/-- The outcome of a request may close the circuit of a scope: it is closed, or the request was
granted as its probe after its cooldown. -/
def mayClose (s : Breaker) (g : Grant) (scope : Scope) : Prop :=
  s.circuit scope = .closed ∨ g.probes scope ∧ s.cooldown scope ≤ g.grantedAt

/-- The outcome of a request may end the lease of a scope: it is the lease of the request, or it
has ended. -/
def mayFree (s : Breaker) (g : Grant) (scope : Scope) (now : ℚ) : Prop :=
  s.circuit scope = .halfOpen → s.lease scope = g.leaseEnd ∨ s.lease scope ≤ now

/-- A failure of the request opens the circuit of the scope. -/
def opens (s : Breaker) (g : Grant) (f : ProviderFailure) (scope : Scope) : Prop :=
  (s.state.availability scope).opens f (g.reservation.probe scope) = true

/-- A failure weighed on a method also closes the provider's circuit; one weighed on the provider
also ends the lease of the method it probed. -/
def failsInTime (s : Breaker) (g : Grant) (f : ProviderFailure) (now : ℚ) : Prop :=
  (∀ m ∈ failureScope g.method f, (s.opens g f (some m) ∨ s.mayClose g (some m)) ∧ s.mayClose g none) ∧
  (failureScope g.method f = none → (s.opens g f none ∨ s.mayClose g none) ∧
    ∀ scope ∈ scopesOf g.method, scope ≠ none → g.probes scope → s.mayFree g scope now)

/-- The outcome comes in time: where it closes a circuit that is not closed, or ends a lease, the
request is the probe. -/
def timely (s : Breaker) : RpcEvent → Prop
  | .reserve .. => True
  | .success id _ _ => ∀ g ∈ s.outstanding id, ∀ scope ∈ scopesOf g.method, s.mayClose g scope
  | .failure id f _ now => ∀ g ∈ s.outstanding id, s.failsInTime g f now
  | .exhaustion _ => True

section Decidable

variable (s : Breaker) (g : Grant) (f : ProviderFailure) (scope : Scope) (now : ℚ)

instance : Decidable (s.mayClose g scope) := inferInstanceAs (Decidable (_ ∨ _))
instance : Decidable (s.mayFree g scope now) := inferInstanceAs (Decidable (_ → _))
instance : Decidable (s.opens g f scope) := inferInstanceAs (Decidable (_ = _))
instance : Decidable (s.failsInTime g f now) := inferInstanceAs (Decidable (_ ∧ _))

instance : ∀ e, Decidable (s.timely e)
  | .reserve .. => .isTrue trivial
  | .success id _ _ => inferInstanceAs (Decidable (∀ g ∈ s.outstanding id, ∀ scope ∈ scopesOf g.method, _))
  | .failure id f _ now => inferInstanceAs (Decidable (∀ g ∈ s.outstanding id, s.failsInTime g f now))
  | .exhaustion _ => .isTrue trivial

end Decidable

/-! ## What a step does to a scope -/

/-- What an outcome at `now` leaves of an availability: it closes the circuit where it may, and
ends the lease where it may. -/
inductive Settles (now : ℚ) (may free : Prop) (a a' : Availability) : Prop
  | kept (hgate : a'.gate = a.gate)
  | opened (hopen : a'.circuitState = .opened) (hcool : a.cooldownUntilEpoch ≤ a'.cooldownUntilEpoch)
      (hnow : now + circuitCooldownSeconds ≤ a'.cooldownUntilEpoch)
  | closed (hmay : may) (hclosed : a'.circuitState = .closed)
  | freed (hfree : free) (hcircuit : a'.circuitState = a.circuitState)
      (hcool : a'.cooldownUntilEpoch = a.cooldownUntilEpoch)

theorem Settles.of_failed {may free : Prop} {a : Availability} {f : ProviderFailure} {probe : Bool}
    (h : a.opens f probe = true ∨ may) (method : String) (now : ℚ) :
    Settles now may free a (a.failed f method probe now) := by
  by_cases ho : a.opens f probe = true
  · obtain ⟨hopen, hcool, hnow⟩ := Availability.failed_opens ho method now
    exact .opened hopen hcool hnow
  · exact .closed (h.resolve_left ho) (Availability.failed_closes ho method now)

/-- A step: nothing a reservation reads is changed, or a request is granted, or an outcome comes. -/
inductive Turn (s t : Breaker) : Prop
  | idle (hout : t.outstanding = s.outstanding) (hclock : s.clock ≤ t.clock)
      (hgate : ∀ scope, (t.state.availability scope).gate = (s.state.availability scope).gate)
  | grant (id : Nat) (g : Grant) (hnone : s.outstanding id = none)
      (hout : t.outstanding = Function.update s.outstanding id (some g))
      (hbefore : s.clock ≤ g.grantedAt) (hafter : g.grantedAt ≤ t.clock)
      (hfree : ∀ scope ∈ scopesOf g.method, (s.state.availability scope).blockReason g.grantedAt = none ∧
        g.reservation.probe scope = (s.state.availability scope).probes)
      (havail : ∀ scope, t.state.availability scope = if scope ∈ scopesOf g.method then
        (s.state.availability scope).activated g.grantedAt else s.state.availability scope)
  | outcome (id : Nat) (g : Grant) (hsome : s.outstanding id = some g)
      (hout : t.outstanding = Function.update s.outstanding id none) (hclock : s.clock ≤ t.clock)
      (hsettles : ∀ scope, Settles t.clock (s.mayClose g scope) (g.probes scope ∧ s.mayFree g scope t.clock)
        (s.state.availability scope) (t.state.availability scope))

theorem success_settles {s : Breaker} {g : Grant} (hmay : ∀ scope ∈ scopesOf g.method, s.mayClose g scope)
    (latencyMs now : ℚ) (scope : Scope) :
    Settles now (s.mayClose g scope) (g.probes scope ∧ s.mayFree g scope now) (s.state.availability scope)
      ((recordProviderSuccess g.method latencyMs now s.state).availability scope) := by
  rw [recordProviderSuccess_availability]
  by_cases hs : scope ∈ scopesOf g.method
  · rw [if_pos hs]; exact .closed (hmay scope hs) rfl
  · rw [if_neg hs]; exact .kept rfl

theorem failure_settles {s : Breaker} {id : Nat} {g : Grant} {f : ProviderFailure} {latencyMs now : ℚ}
    (hg : s.outstanding id = some g) (ht : s.timely (.failure id f latencyMs now)) (scope : Scope) :
    Settles now (s.mayClose g scope) (g.probes scope ∧ s.mayFree g scope now) (s.state.availability scope)
      ((recordProviderFailure g.reservation f g.method latencyMs now s.state).availability scope) := by
  have ht := ht g hg
  cases hf : failureScope g.method f with
  | some m =>
    have ht := ht.1 m hf
    obtain ⟨hm, hnone, hother⟩ := recordProviderFailure_method g.reservation latencyMs now s.state hf scope
    by_cases h0 : scope = none
    · subst h0; exact .closed ht.2 hnone
    by_cases h1 : scope = some m
    · subst h1; rw [hm]; exact .of_failed ht.1 _ _
    · rw [hother h0 h1]; exact .kept rfl
  | none =>
    have ht := ht.2 hf
    cases scope with
    | none =>
      obtain ⟨hnone, -⟩ := recordProviderFailure_provider g.reservation latencyMs now s.state hf .getTransaction
      rw [hnone]; exact .of_failed ht.1 _ _
    | some m =>
      obtain ⟨-, hm⟩ := recordProviderFailure_provider g.reservation latencyMs now s.state hf m
      rw [hm]
      by_cases hp : some m ∈ scopesOf g.method ∧ g.reservation.methodHalfOpenProbe = true
      · rw [if_pos hp]
        exact .freed ⟨hp, ht.2 (some m) hp.1 (by simp) hp⟩ rfl rfl
      · rw [if_neg hp]; exact .kept rfl

/-- Every timely step is a turn. -/
theorem step_turn {provider : RpcProvider} {s t : Breaker} {e : RpcEvent} (ht : s.timely e)
    (h : s.step provider e = some t) : Turn s t := by
  cases e with
  | reserve id method retry failover now after =>
    simp only [step, Option.ite_none_right_eq_some] at h
    obtain ⟨⟨hclock, hafter, hnone⟩, h⟩ := h
    cases hr : reserveProviderSlot provider method retry failover now after s.state with
    | error reason =>
      rw [hr] at h
      obtain rfl := Option.some.inj h
      exact .idle rfl hclock fun _ => rfl
    | ok granted =>
      obtain ⟨r, state⟩ := granted
      rw [hr] at h
      obtain rfl := Option.some.inj h
      obtain ⟨hfree, havail⟩ := reserveProviderSlot_ok hr
      exact .grant id ⟨method, r, now⟩ hnone rfl hclock (le_requestTime hafter) hfree havail
  | success id latencyMs now =>
    simp only [step, Option.bind_eq_some_iff, Option.ite_none_right_eq_some, Option.some.injEq] at h
    obtain ⟨g, hg, hclock, rfl⟩ := h
    exact .outcome id g hg rfl hclock (success_settles (ht g hg) latencyMs now)
  | failure id f latencyMs now =>
    simp only [step, Option.bind_eq_some_iff, Option.ite_none_right_eq_some, Option.some.injEq] at h
    obtain ⟨g, hg, hclock, rfl⟩ := h
    exact .outcome id g hg rfl hclock (failure_settles hg ht)
  | exhaustion method =>
    obtain rfl := Option.some.inj h
    exact .idle rfl le_rfl fun scope => congrArg _ (recordProviderExhaustion_availability method s.state scope)

/-- What a step adds to the openings of a scope. -/
theorem step_openings {provider : RpcProvider} {s t : Breaker} {e : RpcEvent}
    (h : s.step provider e = some t) (scope : Scope) {c : ℚ} (hc : c ∈ t.openings scope) :
    c ∈ s.openings scope ∨ t.circuit scope = .opened ∧ c = t.cooldown scope := by
  have hsaved : ∀ state clock out, c ∈ ({ s.saved state clock with outstanding := out } : Breaker).openings scope →
      c ∈ s.openings scope ∨ (state.availability scope).circuitState = .opened ∧
        c = (state.availability scope).cooldownUntilEpoch := by
    intro state clock out hc
    simp only [saved] at hc
    split_ifs at hc with ho
    · exact (List.mem_cons.1 hc).symm.imp_right fun he => ⟨ho, he⟩
    · exact .inl hc
  cases e with
  | reserve id method retry failover now after =>
    simp only [step, Option.ite_none_right_eq_some] at h
    obtain ⟨-, h⟩ := h
    cases hr : reserveProviderSlot provider method retry failover now after s.state with
    | error reason =>
      rw [hr] at h
      obtain rfl := Option.some.inj h
      exact .inl hc
    | ok granted =>
      rw [hr] at h
      obtain rfl := Option.some.inj h
      exact hsaved _ _ _ hc
  | success id latencyMs now =>
    simp only [step, Option.bind_eq_some_iff, Option.ite_none_right_eq_some, Option.some.injEq] at h
    obtain ⟨g, -, -, rfl⟩ := h
    exact hsaved _ _ _ hc
  | failure id f latencyMs now =>
    simp only [step, Option.bind_eq_some_iff, Option.ite_none_right_eq_some, Option.some.injEq] at h
    obtain ⟨g, -, -, rfl⟩ := h
    exact hsaved _ _ _ hc
  | exhaustion method =>
    obtain rfl := Option.some.inj h
    exact hsaved _ _ s.outstanding hc

/-! ## The invariant -/

/-- Every cooldown the circuit was opened with is over, or within the one it has. -/
def Cooled (clock : ℚ) (a : Availability) (openings : List ℚ) : Prop :=
  match a.circuitState with
  | .closed => ∀ c ∈ openings, c ≤ clock
  | .opened => ∀ c ∈ openings, c ≤ a.cooldownUntilEpoch
  | .halfOpen => (∀ c ∈ openings, c ≤ a.cooldownUntilEpoch) ∧ a.cooldownUntilEpoch ≤ clock

/-- The lease of an outstanding probe is over before the circuit takes another. -/
def Leased (clock : ℚ) (a : Availability) (g : Grant) : Prop :=
  match a.circuitState with
  | .closed => True
  | .opened => g.leaseEnd ≤ a.cooldownUntilEpoch
  | .halfOpen => g.leaseEnd ≤ max a.halfOpenLeaseUntilEpoch clock

theorem Cooled.gate {clock clock' : ℚ} {a a' : Availability} {openings : List ℚ} (h : Cooled clock a openings)
    (hg : a'.gate = a.gate) (hclock : clock ≤ clock') : Cooled clock' a' openings := by
  obtain ⟨h1, h2, h3⟩ : a'.circuitState = a.circuitState ∧ a'.cooldownUntilEpoch = a.cooldownUntilEpoch ∧
      a'.halfOpenLeaseUntilEpoch = a.halfOpenLeaseUntilEpoch := by
    simpa [Availability.gate] using hg
  unfold Cooled at h ⊢
  rw [h1, h2]
  cases hc : a.circuitState with
  | closed => rw [hc] at h; exact fun c hm => (h c hm).trans hclock
  | opened => rw [hc] at h; exact h
  | halfOpen => rw [hc] at h; exact ⟨h.1, h.2.trans hclock⟩

/-- No cooldown is later than the circuit's own and the clock. -/
theorem Cooled.le_max {clock : ℚ} {a : Availability} {openings : List ℚ} (h : Cooled clock a openings)
    {c : ℚ} (hc : c ∈ openings) : c ≤ max a.cooldownUntilEpoch clock := by
  unfold Cooled at h
  cases hs : a.circuitState with
  | closed => rw [hs] at h; exact (h c hc).trans (le_max_right _ _)
  | opened => rw [hs] at h; exact (h c hc).trans (le_max_left _ _)
  | halfOpen => rw [hs] at h; exact (h.1 c hc).trans (le_max_left _ _)

/-- A circuit that is not blocked has cooled down. -/
theorem Cooled.of_unblocked {clock now : ℚ} {a : Availability} {openings : List ℚ} (h : Cooled clock a openings)
    (hclock : clock ≤ now) (hfree : a.blockReason now = none) {c : ℚ} (hc : c ∈ openings) : c ≤ now := by
  unfold Cooled at h
  cases hs : a.circuitState with
  | closed => rw [hs] at h; exact (h c hc).trans hclock
  | opened => rw [hs] at h; exact (h c hc).trans (Availability.cooldown_le hfree hs)
  | halfOpen => rw [hs] at h; exact (h.1 c hc).trans (h.2.trans hclock)

theorem Cooled.activated {clock now clock' : ℚ} {a : Availability} {openings : List ℚ} (h : Cooled clock a openings)
    (hclock : clock ≤ now) (hnow : now ≤ clock') (hfree : a.blockReason now = none) :
    Cooled clock' (a.activated now) openings := by
  by_cases hp : a.probes = true
  · have hcool : (∀ c ∈ openings, c ≤ a.cooldownUntilEpoch) ∧ a.cooldownUntilEpoch ≤ now := by
      unfold Cooled at h
      cases hs : a.circuitState with
      | closed => simp [Availability.probes, hs] at hp
      | opened => rw [hs] at h; exact ⟨h, Availability.cooldown_le hfree hs⟩
      | halfOpen => rw [hs] at h; exact ⟨h.1, h.2.trans hclock⟩
    unfold Availability.activated
    rw [if_pos hp]
    exact ⟨hcool.1, hcool.2.trans hnow⟩
  · unfold Availability.activated
    rw [if_neg hp]
    exact h.gate rfl (hclock.trans hnow)

theorem Cooled.settles {clock now : ℚ} {may free : Prop} {a a' : Availability} {openings : List ℚ}
    (h : Cooled clock a openings) (hclock : clock ≤ now) (hs : Settles now may free a a') (hlate : may →
      ∀ c ∈ openings, c ≤ now) : Cooled now a' openings := by
  cases hs with
  | kept hgate => exact h.gate hgate hclock
  | opened hopen hcool hnow =>
    unfold Cooled
    rw [hopen]
    intro c hc
    have hnow' : now ≤ a'.cooldownUntilEpoch := by
      unfold circuitCooldownSeconds at hnow; linarith
    exact (h.le_max hc).trans (max_le hcool (hclock.trans hnow'))
  | closed hmay hclosed =>
    unfold Cooled
    rw [hclosed]
    exact hlate hmay
  | freed hfree hcircuit hcool =>
    unfold Cooled at h ⊢
    rw [hcircuit, hcool]
    cases hc : a.circuitState with
    | closed => rw [hc] at h; exact fun c hm => (h c hm).trans hclock
    | opened => rw [hc] at h; exact h
    | halfOpen => rw [hc] at h; exact ⟨h.1, h.2.trans hclock⟩

/-- The openings that a step adds are the cooldown of an open circuit. -/
theorem Cooled.extend {clock : ℚ} {a : Availability} {openings openings' : List ℚ} (h : Cooled clock a openings)
    (hext : ∀ c ∈ openings', c ∈ openings ∨ a.circuitState = .opened ∧ c = a.cooldownUntilEpoch) :
    Cooled clock a openings' := by
  unfold Cooled at h ⊢
  cases hs : a.circuitState with
  | closed =>
    rw [hs] at h hext
    exact fun c hc => h c ((hext c hc).resolve_right fun ho => by cases ho.1)
  | opened =>
    rw [hs] at h hext
    intro c hc
    rcases hext c hc with hc | ⟨-, rfl⟩
    · exact h c hc
    · exact le_rfl
  | halfOpen =>
    rw [hs] at h hext
    exact ⟨fun c hc => h.1 c ((hext c hc).resolve_right fun ho => by cases ho.1), h.2⟩

theorem Leased.gate {clock clock' : ℚ} {a a' : Availability} {g : Grant} (h : Leased clock a g)
    (hg : a'.gate = a.gate) (hclock : clock ≤ clock') : Leased clock' a' g := by
  obtain ⟨h1, h2, h3⟩ : a'.circuitState = a.circuitState ∧ a'.cooldownUntilEpoch = a.cooldownUntilEpoch ∧
      a'.halfOpenLeaseUntilEpoch = a.halfOpenLeaseUntilEpoch := by
    simpa [Availability.gate] using hg
  unfold Leased at h ⊢
  rw [h1, h2, h3]
  cases hc : a.circuitState with
  | closed => trivial
  | opened => rw [hc] at h; exact h
  | halfOpen => rw [hc] at h; exact h.trans (max_le_max_left _ hclock)

/-- Where a probe is granted, the leases before it are over. -/
theorem Leased.ended {clock now : ℚ} {a : Availability} {g : Grant} (h : Leased clock a g)
    (hclock : clock ≤ now) (hfree : a.blockReason now = none) (hp : a.probes = true) : g.leaseEnd ≤ now := by
  unfold Leased at h
  cases hs : a.circuitState with
  | closed => simp [Availability.probes, hs] at hp
  | opened => rw [hs] at h; exact h.trans (Availability.cooldown_le hfree hs)
  | halfOpen => rw [hs] at h; exact h.trans (max_le (Availability.lease_le hfree hs) hclock)

theorem Leased.activated {clock now clock' : ℚ} {a : Availability} {g : Grant} (h : Leased clock a g)
    (hclock : clock ≤ now) (hnow : now ≤ clock') (hfree : a.blockReason now = none) :
    Leased clock' (a.activated now) g := by
  by_cases hp : a.probes = true
  · have hended := h.ended hclock hfree hp
    unfold Availability.activated
    rw [if_pos hp]
    exact hended.trans (hnow.trans (le_max_right _ _))
  · unfold Availability.activated
    rw [if_neg hp]
    exact h.gate rfl (hclock.trans hnow)

theorem Leased.settles {clock now : ℚ} {may free : Prop} {a a' : Availability} {g : Grant}
    (h : Leased clock a g) (hg : g.grantedAt ≤ clock) (hclock : clock ≤ now) (hs : Settles now may free a a')
    (hended : free → a.circuitState = .halfOpen → g.leaseEnd ≤ now) : Leased now a' g := by
  cases hs with
  | kept hgate => exact h.gate hgate hclock
  | opened hopen hcool hnow =>
    unfold Leased
    rw [hopen]
    show g.grantedAt + halfOpenLeaseSeconds ≤ _
    unfold circuitCooldownSeconds at hnow
    unfold halfOpenLeaseSeconds
    linarith
  | closed hmay hclosed => unfold Leased; rw [hclosed]; trivial
  | freed hfree hcircuit hcool =>
    unfold Leased at h ⊢
    rw [hcircuit, hcool]
    cases hc : a.circuitState with
    | closed => trivial
    | opened => rw [hc] at h; exact h
    | halfOpen => exact (hended hfree hc).trans (le_max_right _ _)

/-- What holds of every state of a timely run. -/
structure Inv (s : Breaker) : Prop where
  granted : ∀ id g, s.outstanding id = some g → g.grantedAt ≤ s.clock
  cooled : ∀ scope, Cooled s.clock (s.state.availability scope) (s.openings scope)
  leased : ∀ scope id g, s.outstanding id = some g → g.probes scope →
    Leased s.clock (s.state.availability scope) g
  apart : ∀ scope i j g g', i ≠ j → s.outstanding i = some g → s.outstanding j = some g' →
    g.probes scope → g'.probes scope → g.leaseEnd ≤ g'.grantedAt ∨ g'.leaseEnd ≤ g.grantedAt

theorem initial_inv : Inv initial where
  granted := fun _ _ h => by cases h
  cooled := fun scope => by cases scope <;> exact fun c hc => by cases hc
  leased := fun _ _ _ h => by cases h
  apart := fun _ _ _ _ _ _ h => by cases h

/-- The probe whose lease is the circuit's is the last one: every other has ended. -/
theorem Inv.ended_of_mayFree {s : Breaker} (h : Inv s) {scope : Scope} {i j : Nat} {g g' : Grant} {now : ℚ}
    (hne : i ≠ j) (hi : s.outstanding i = some g) (hj : s.outstanding j = some g') (hp : g.probes scope)
    (hp' : g'.probes scope) (hclock : s.clock ≤ now) (hfree : s.mayFree g scope now)
    (hhalf : s.circuit scope = .halfOpen) : g'.leaseEnd ≤ now := by
  have hleased : g'.leaseEnd ≤ max (s.lease scope) s.clock := by
    have hl := h.leased scope j g' hj hp'
    unfold Leased at hl
    rw [show (s.state.availability scope).circuitState = .halfOpen from hhalf] at hl
    exact hl
  rcases hfree hhalf with hmine | hover
  · rw [hmine] at hleased
    rcases h.apart scope i j g g' hne hi hj hp hp' with hafter | hbefore
    · -- a lease after this one ends after it, so it ends by the clock
      have hlt : g.leaseEnd < g'.leaseEnd := by
        unfold Grant.leaseEnd halfOpenLeaseSeconds at hafter ⊢; linarith
      exact ((le_max_iff.1 hleased).resolve_left (not_le.2 hlt)).trans hclock
    · exact hbefore.trans ((h.granted i g hi).trans hclock)
  · exact hleased.trans (max_le hover hclock)

/-- The cooldowns that may close a circuit are over. -/
theorem Inv.openings_of_mayClose {s : Breaker} (h : Inv s) {scope : Scope} {id : Nat} {g : Grant}
    (hg : s.outstanding id = some g) (hmay : s.mayClose g scope) {c : ℚ} (hc : c ∈ s.openings scope) :
    c ≤ s.clock := by
  have hcooled := h.cooled scope
  unfold Cooled at hcooled
  rcases hmay with hclosed | ⟨-, hcool⟩
  · rw [show (s.state.availability scope).circuitState = .closed from hclosed] at hcooled
    exact hcooled c hc
  · exact ((h.cooled scope).le_max hc).trans (max_le (hcool.trans (h.granted id g hg)) le_rfl)

/-- A turn keeps the invariant. -/
theorem Inv.turn {s t : Breaker} (h : Inv s) (ht : Turn s t) (hopen : ∀ scope, ∀ c ∈ t.openings scope,
    c ∈ s.openings scope ∨ t.circuit scope = .opened ∧ c = t.cooldown scope) : Inv t := by
  cases ht with
  | idle hout hclock hgate =>
    refine ⟨fun id g hg => ?_, fun scope => ?_, fun scope id g hg hp => ?_, ?_⟩
    · rw [hout] at hg; exact (h.granted id g hg).trans hclock
    · exact ((h.cooled scope).gate (hgate scope) hclock).extend (hopen scope)
    · rw [hout] at hg; exact (h.leased scope id g hg hp).gate (hgate scope) hclock
    · rw [hout]; exact h.apart
  | grant id g hnone hout hbefore hafter hfree havail =>
    refine ⟨fun j g' hg' => ?_, fun scope => ?_, fun scope j g' hg' hp => ?_,
      fun scope i j gi gj hne hi hj hpi hpj => ?_⟩
    · rw [hout] at hg'
      rcases update_eq_some hg' with ⟨-, he⟩ | ⟨-, hg'⟩
      · rw [← Option.some.inj he]; exact hafter
      · exact (h.granted j g' hg').trans (hbefore.trans hafter)
    · refine Cooled.extend ?_ (hopen scope)
      rw [havail scope]
      by_cases hs : scope ∈ scopesOf g.method
      · rw [if_pos hs]; exact (h.cooled scope).activated hbefore hafter (hfree scope hs).1
      · rw [if_neg hs]; exact (h.cooled scope).gate rfl (hbefore.trans hafter)
    · rw [hout] at hg'
      rw [havail scope]
      rcases update_eq_some hg' with ⟨-, he⟩ | ⟨-, hg'⟩
      · obtain rfl := Option.some.inj he
        have hprobes : (s.state.availability scope).probes = true := by
          rw [← (hfree scope hp.1).2]; exact hp.2
        rw [if_pos hp.1]
        unfold Availability.activated
        rw [if_pos hprobes]
        exact le_max_left _ _
      · have hl := h.leased scope j g' hg' hp
        by_cases hs : scope ∈ scopesOf g.method
        · rw [if_pos hs]; exact hl.activated hbefore hafter (hfree scope hs).1
        · rw [if_neg hs]; exact hl.gate rfl (hbefore.trans hafter)
    · -- a probe is granted where every other lease is over
      have hended : ∀ k g', s.outstanding k = some g' → g'.probes scope → g.probes scope →
          g'.leaseEnd ≤ g.grantedAt := by
        intro k g' hk hp' hp
        refine (h.leased scope k g' hk hp').ended hbefore (hfree scope hp.1).1 ?_
        rw [← (hfree scope hp.1).2]; exact hp.2
      rw [hout] at hi hj
      rcases update_eq_some hi with ⟨hid, hei⟩ | ⟨-, hi'⟩
      · obtain rfl := Option.some.inj hei
        rcases update_eq_some hj with ⟨hjd, -⟩ | ⟨-, hj'⟩
        · exact absurd (hid.trans hjd.symm) hne
        · exact .inr (hended j gj hj' hpj hpi)
      · rcases update_eq_some hj with ⟨-, hej⟩ | ⟨-, hj'⟩
        · obtain rfl := Option.some.inj hej
          exact .inl (hended i gi hi' hpi hpj)
        · exact h.apart scope i j gi gj hne hi' hj' hpi hpj
  | outcome id g hsome hout hclock hsettles =>
    have hold : ∀ {j g'}, t.outstanding j = some g' → j ≠ id ∧ s.outstanding j = some g' := by
      intro j g' hj
      rw [hout] at hj
      rcases update_eq_some hj with ⟨-, he⟩ | hj
      · cases he
      · exact hj
    refine ⟨fun j g' hj => (h.granted j g' (hold hj).2).trans hclock, fun scope => ?_, fun scope j g' hj hp => ?_,
      fun scope i j gi gj hne hi hj => h.apart scope i j gi gj hne (hold hi).2 (hold hj).2⟩
    · exact ((h.cooled scope).settles hclock (hsettles scope) fun hmay c hc =>
        (h.openings_of_mayClose hsome hmay hc).trans hclock).extend (hopen scope)
    · obtain ⟨hj0, hj⟩ := hold hj
      exact (h.leased scope j g' hj hp).settles (h.granted j g' hj) hclock (hsettles scope) fun hfree hhalf =>
        h.ended_of_mayFree (Ne.symm hj0) hsome hj hfree.1 hp hclock hfree.2 hhalf

/-! ## The breaker keeps its word -/

/-- A lease that is granted starts after every cooldown of its scopes. -/
theorem Inv.granted_cooled {s t : Breaker} (h : Inv s) (ht : Turn s t) {id : Nat} {g : Grant}
    (hnone : s.outstanding id = none) (hsome : t.outstanding id = some g) :
    ∀ scope ∈ scopesOf g.method, ∀ c ∈ s.openings scope, c ≤ g.grantedAt := by
  intro scope hs c hc
  cases ht with
  | idle hout => rw [hout, hnone] at hsome; cases hsome
  | grant id' g' hnone' hout hbefore hafter hfree =>
    rw [hout] at hsome
    rcases update_eq_some hsome with ⟨-, he⟩ | ⟨-, hs'⟩
    · obtain rfl := Option.some.inj he
      exact (h.cooled scope).of_unblocked hbefore (hfree scope hs).1 hc
    · rw [hnone] at hs'; cases hs'
  | outcome id' g' hsome' hout =>
    rw [hout] at hsome
    rcases update_eq_some hsome with ⟨-, he⟩ | ⟨-, hs'⟩
    · cases he
    · rw [hnone] at hs'; cases hs'

/-- An open circuit is left by granting a probe, whatever outcomes come in meanwhile. -/
theorem Inv.opened_probed {s t : Breaker} (h : Inv s) (ht : Turn s t) {scope : Scope}
    (ho : s.circuit scope = .opened) (hto : t.circuit scope ≠ .opened) :
    t.circuit scope = .halfOpen ∧
      ∃ id g, s.outstanding id = none ∧ t.outstanding id = some g ∧ g.probes scope := by
  cases ht with
  | idle hout hclock hgate => exact absurd ((congrArg Prod.fst (hgate scope)).trans ho) hto
  | grant id g hnone hout hbefore hafter hfree havail =>
    by_cases hs : scope ∈ scopesOf g.method
    · have hprobes : (s.state.availability scope).probes = true := by
        simp [Availability.probes, show (s.state.availability scope).circuitState = .opened from ho]
      refine ⟨?_, id, g, hnone, by rw [hout, Function.update_self], hs, (hfree scope hs).2.trans hprobes⟩
      show (t.state.availability scope).circuitState = _
      rw [havail scope, if_pos hs]
      unfold Availability.activated
      rw [if_pos hprobes]
    · refine absurd ?_ hto
      show (t.state.availability scope).circuitState = _
      rw [havail scope, if_neg hs]; exact ho
  | outcome id g hsome hout hclock hsettles =>
    cases hsettles scope with
    | kept hgate => exact absurd ((congrArg Prod.fst hgate).trans ho) hto
    | opened hopen => exact absurd hopen hto
    | freed hfree hcircuit => exact absurd (hcircuit.trans ho) hto
    | closed hmay hclosed =>
      -- a probe of an open circuit was granted a lease before the cooldown began
      rcases hmay with hmay | ⟨hp, hcool⟩
      · rw [ho] at hmay; cases hmay
      · have hl := h.leased scope id g hsome hp
        unfold Leased at hl
        rw [show (s.state.availability scope).circuitState = .opened from ho] at hl
        have hend : g.grantedAt + halfOpenLeaseSeconds ≤ g.grantedAt := hl.trans hcool
        unfold halfOpenLeaseSeconds at hend
        linarith

/-- The cooldowns of a circuit that is not closed are over when its current one is. -/
theorem Inv.openings_le {s : Breaker} (h : Inv s) {scope : Scope} (hs : s.circuit scope ≠ .closed) {x : ℚ}
    (hcool : s.cooldown scope ≤ x) : ∀ c ∈ s.openings scope, c ≤ x := by
  intro c hc
  refine le_trans ?_ hcool
  have hcooled := h.cooled scope
  unfold Cooled at hcooled
  cases hcs : (s.state.availability scope).circuitState with
  | closed => exact absurd hcs hs
  | opened => rw [hcs] at hcooled; exact hcooled c hc
  | halfOpen => rw [hcs] at hcooled; exact hcooled.1 c hc

/-- A circuit is closed by the outcome of a probe that was granted after its cooldowns. -/
theorem Inv.closed_probed {s t : Breaker} (h : Inv s) (ht : Turn s t) {scope : Scope}
    (hsc : s.circuit scope ≠ .closed) (htc : t.circuit scope = .closed) :
    ∃ id g, s.outstanding id = some g ∧ t.outstanding id = none ∧ g.probes scope ∧
      ∀ c ∈ s.openings scope, c ≤ g.grantedAt := by
  cases ht with
  | idle hout hclock hgate => exact absurd ((congrArg Prod.fst (hgate scope)).symm.trans htc) hsc
  | grant id g hnone hout hbefore hafter hfree havail =>
    -- a grant closes no circuit
    refine absurd ?_ hsc
    have htc : (t.state.availability scope).circuitState = .closed := htc
    rw [havail scope] at htc
    show (s.state.availability scope).circuitState = .closed
    split_ifs at htc
    · unfold Availability.activated at htc
      split_ifs at htc
      exact htc
    · exact htc
  | outcome id g hsome hout hclock hsettles =>
    cases hsettles scope with
    | kept hgate => exact absurd ((congrArg Prod.fst hgate).symm.trans htc) hsc
    | opened hopen => rw [show t.circuit scope = .opened from hopen] at htc; cases htc
    | freed hfree hcircuit => exact absurd (hcircuit.symm.trans htc) hsc
    | closed hmay hclosed =>
      obtain ⟨hp, hcool⟩ := hmay.resolve_left hsc
      exact ⟨id, g, hsome, by rw [hout, Function.update_self], hp, h.openings_le hsc hcool⟩

/-- From a state of a timely run, a turn is lawful. -/
theorem Inv.lawful {s t : Breaker} (h : Inv s) (ht : Turn s t) (htinv : Inv t) : Lawful s t where
  cooled _ _ hnone hsome := h.granted_cooled ht hnone hsome
  probed _ ho hto := h.opened_probed ht ho hto
  closed _ hsc htc := h.closed_probed ht hsc htc
  leases := htinv.apart

theorem run_inv {provider : RpcProvider} {events : List RpcEvent} {s : Breaker}
    (h : Run (step provider) timely initial events s) : Inv s :=
  h.invariant (fun _ _ _ hs htimely hstep => hs.turn (step_turn htimely hstep)
    fun scope _ hc => step_openings hstep scope hc) initial_inv

/-- Where every outcome comes in time, every step of the breaker is lawful. -/
theorem timely_lawful (provider : RpcProvider) (events : List RpcEvent) (s t : Breaker) (e : RpcEvent)
    (h : Run (step provider) timely initial events s) (htimely : s.timely e)
    (hstep : s.step provider e = some t) :
    Lawful s t :=
  (run_inv h).lawful (step_turn htimely hstep)
    ((run_inv h).turn (step_turn htimely hstep) fun scope _ hc => step_openings hstep scope hc)

/-- A provider of one request a second. -/
def sampleProvider : RpcProvider := ⟨"solana_public", 1⟩

def transientFailure : ProviderFailure := ⟨true, false, 0, "RPC_TRANSIENT"⟩

/-- Three failures open the circuit at 4 for a minute; the probe of 64 succeeds. -/
theorem timely_lawful_probe : ∃ s t, s.circuit none = .halfOpen ∧ s.openings none = [64] ∧
    t.circuit none = .closed ∧ Lawful s t := by
  obtain ⟨s, hs, hhalf, hopen, t, ht, htimely, hclosed⟩ : ∃ s, Run (step sampleProvider) timely initial
      [.reserve 0 "getBalance" false false 0 0, .reserve 1 "getBalance" false false 1 1,
        .reserve 2 "getBalance" false false 2 2, .failure 0 transientFailure 5 4,
        .failure 1 transientFailure 5 4, .failure 2 transientFailure 5 4,
        .reserve 3 "getBalance" false false 63 63, .reserve 4 "getBalance" false false 64 64] s ∧
      s.circuit none = .halfOpen ∧ s.openings none = [64] ∧ ∃ t ∈ s.step sampleProvider (.success 4 5 65),
        s.timely (.success 4 5 65) ∧ t.circuit none = .closed :=
    Run.exists_of_any (by decide +kernel)
  exact ⟨s, t, hhalf, hopen, hclosed, timely_lawful _ _ s t _ hs htimely ht⟩

/-- A rate-limited `getTransaction`, granted before the circuit opened, fails after it: the provider
is reset, and the next request is granted 58 seconds before the cooldown. -/
theorem open_circuit_reset : ¬ ∀ (provider : RpcProvider) (events : List RpcEvent) (s t : Breaker) (e : RpcEvent),
    Run (step provider) Run.anyStep initial events s → s.step provider e = some t → Lawful s t := by
  intro hall
  obtain ⟨s, hs, hopen, hnone, t, ht, hgrant⟩ : ∃ s, Run (step sampleProvider) Run.anyStep initial
      [.reserve 0 "getBalance" false false 0 0, .reserve 1 "getBalance" false false 1 1,
        .reserve 2 "getBalance" false false 2 2, .reserve 3 "getTransaction" false false 3 3,
        .failure 0 transientFailure 5 4, .failure 1 transientFailure 5 4, .failure 2 transientFailure 5 4,
        .failure 3 ⟨true, true, 1, "RATE_LIMIT"⟩ 5 5] s ∧
      64 ∈ s.openings none ∧ s.outstanding 4 = none ∧
      ∃ t ∈ s.step sampleProvider (.reserve 4 "getBalance" false false 6 6),
        t.outstanding 4 = some ⟨"getBalance", ⟨false, false⟩, 6⟩ :=
    Run.exists_of_any (by decide +kernel)
  have hlate := (hall _ _ s t _ hs ht).cooled 4 _ hnone hgrant none (none_mem_scopesOf _) 64 hopen
  exact absurd hlate (by decide +kernel)

end Breaker

end Aibot.Rpc
