/-
One call of the router: the providers in their order, a few attempts at each, and one budget for all of
them. Whether a reservation is granted and how a request ends are answers from outside; what the call
does with them is its trace.
-/
import Aibot.Lib.Object
import Aibot.Rpc.Provider

namespace Aibot.Rpc

/-! ## The order of the providers -/

/-- `HEAVY_RPC_METHODS`. -/
def heavyRpcMethods : List String := ["getTransaction", "getSignaturesForAddress"]

/-- `HEAVY_WORKLOADS`. -/
def heavyWorkloads : List String := ["transaction_history", "wallet_feeder"]

def lightProviderOrder : List String := ["alchemy", "chainstack", "ankr", "helius", "solana_public"]

def heavyProviderOrder : List String := ["ankr", "chainstack", "alchemy", "helius", "solana_public"]

/-- `PROVIDER_UNSUPPORTED_METHODS`. -/
def providerUnsupportedMethods (name : String) : List String :=
  if name = "chainstack" then ["getTokenAccountsByOwner"] else []

/-- `ordered_providers`. -/
def orderedProviders (providers : List RpcProvider) (method workload : String) : List RpcProvider :=
  let heavy := method ∈ heavyRpcMethods ∨ workload ∈ heavyWorkloads
  let order := if heavy then heavyProviderOrder else lightProviderOrder
  let indexed := Dict.ofList (providers.map fun provider => (provider.name, provider))
  order.filterMap fun name => if method ∈ providerUnsupportedMethods name then none else indexed.get? name

/-! ## What a call does -/

/-- An attempt at a provider: its place in the order, its name, and the number of the attempt there. -/
structure Visit where
  index : Nat
  provider : String
  localAttempt : Nat
  deriving DecidableEq, Repr

inductive CallEvent
  /-- `_reserve_provider_slot`. -/
  | reserved (visit : Visit) (retry failover granted : Bool)
  /-- `_provider_request_once`. -/
  | requested (visit : Visit)
  /-- `_record_provider_success_sync`, or `_record_provider_failure_sync` of a failure. -/
  | recorded (visit : Visit) (failure : Option ProviderFailure)
  | slept (seconds : ℚ)
  /-- `_record_provider_exhaustion_sync`. -/
  | exhausted (provider : String)
  deriving DecidableEq, Repr

/-- What comes from outside: whether a reservation is granted, and how a request ends. -/
structure Answers (ρ : Type) where
  reserve : Visit → Option ProviderReservation
  request : Visit → Except ProviderFailure ρ

/-- The variables of the loops, and what was done so far. -/
structure Progress where
  attemptsUsed : Nat := 0
  failures : List ProviderFailure := []
  lastAttemptedProvider : Option RpcProvider := none
  trace : List CallEvent := []

def Progress.log (s : Progress) (events : List CallEvent) : Progress := { s with trace := s.trace ++ events }

/-- How a turn of the inner loop ends. -/
inductive Turn (ρ : Type)
  | returned (result : ρ)
  | leave
  | again

def maxInlineBackoffSeconds : ℚ := 5

section Loops

variable {ρ : Type} (answers : Answers ρ) (totalBudget localBudget : Nat)

/-- A turn of the inner loop, at a provider that has so many providers after it. -/
def localTurn (index : Nat) (provider : RpcProvider) (providersAfterCurrent localAttempt : Nat) (s : Progress) :
    Turn ρ × Progress :=
  if totalBudget ≤ s.attemptsUsed then (.leave, s)
  else
    let visit : Visit := ⟨index, provider.name, localAttempt⟩
    let reserved := CallEvent.reserved visit (decide (0 < localAttempt)) (decide (0 < index))
    match answers.reserve visit with
    | none => (.leave, s.log [reserved false])
    | some _ =>
      let s := { s.log [reserved true, .requested visit] with
        attemptsUsed := s.attemptsUsed + 1
        lastAttemptedProvider := some provider }
      match answers.request visit with
      | .ok result => (.returned result, s.log [.recorded visit none])
      | .error failure =>
        let s := { s.log [.recorded visit (some failure)] with failures := s.failures ++ [failure] }
        if failure.rateLimited ∨ ¬ failure.transient then (.leave, s)
        else if localBudget ≤ localAttempt + 1 then (.leave, s)
        else if totalBudget - s.attemptsUsed ≤ providersAfterCurrent then (.leave, s)
        else if maxInlineBackoffSeconds < failure.retryDelaySeconds then (.leave, s)
        else (.again, s.log [.slept failure.retryDelaySeconds])

/-- The inner loop: so many attempts are left at the provider. -/
def localLoop (index : Nat) (provider : RpcProvider) (providersAfterCurrent : Nat) :
    Nat → Nat → Progress → Option ρ × Progress
  | 0, _, s => (none, s)
  | n + 1, localAttempt, s =>
    match localTurn answers totalBudget localBudget index provider providersAfterCurrent localAttempt s with
    | (.returned result, s) => (some result, s)
    | (.leave, s) => (none, s)
    | (.again, s) => localLoop index provider providersAfterCurrent n (localAttempt + 1) s

/-- The outer loop. -/
def providerLoop : List RpcProvider → Nat → Progress → Option ρ × Progress
  | [], _, s => (none, s)
  | provider :: providers, index, s =>
    match localLoop answers totalBudget localBudget index provider providers.length localBudget 0 s with
    | (some result, s) => (some result, s)
    | (none, s) => if totalBudget ≤ s.attemptsUsed then (none, s) else providerLoop providers (index + 1) s

end Loops

/-! ## The call -/

/-- `_positive_int`, of what `int` makes of the value; none where that raises. -/
def positiveInt (value : Option Int) (setting : String) (maximum : Int) : Except String Nat :=
  match value with
  | none => .error s!"{setting} must be a positive integer"
  | some number =>
    if number ≤ 0 ∨ maximum < number then .error s!"{setting} must be between 1 and {maximum}" else .ok number.toNat

/-- What an exhaustion error says. -/
structure Exhaustion where
  method : String
  attempts : Nat
  lastProvider : Option String
  lastCategory : Option String
  deriving DecidableEq, Repr

/-- `METHOD_RATE_LIMIT_REASONS`. -/
def methodRateLimitReasons : List (String × String) :=
  [("getAccountInfo", "RPC_GET_ACCOUNT_INFO_RATE_LIMIT_EXHAUSTED"),
    ("getTokenSupply", "RPC_GET_TOKEN_SUPPLY_RATE_LIMIT_EXHAUSTED"),
    ("getBalance", "RPC_GET_BALANCE_RATE_LIMIT_EXHAUSTED"),
    ("getTokenAccountsByOwner", "RPC_GET_TOKEN_ACCOUNTS_BY_OWNER_RATE_LIMIT_EXHAUSTED"),
    ("getTransaction", "RPC_GET_TRANSACTION_RATE_LIMIT_EXHAUSTED"),
    ("getSignaturesForAddress", "RPC_GET_SIGNATURES_FOR_ADDRESS_RATE_LIMIT_EXHAUSTED"),
    ("getHealth", "RPC_RATE_LIMIT_EXHAUSTED")]

/-- How a call ends. -/
inductive CallResult (ρ : Type)
  | returned (result : ρ)
  /-- `SolanaRpcConfigurationError`. -/
  | configurationError
  /-- The `RuntimeError` of a budget. -/
  | settingError (message : String)
  /-- `SolanaRpcRateLimitExhaustedError`. -/
  | rateLimitExhausted (error : Exhaustion)
  /-- `SolanaRpcExhaustedError`. -/
  | exhausted (error : Exhaustion)
  deriving DecidableEq

/-- The `canonical_reason` of an error. -/
def CallResult.canonicalReason {ρ : Type} : CallResult ρ → Option String
  | .configurationError => some "RPC_NO_PROVIDER_CONFIGURED"
  | .rateLimitExhausted error =>
    some (((Dict.ofList methodRateLimitReasons).get? error.method).getD "RPC_RATE_LIMIT_EXHAUSTED")
  | .exhausted _ => some "RPC_ALL_PROVIDERS_EXHAUSTED"
  | .returned _ | .settingError _ => none

/-- The call reports exhaustion, of whichever kind. -/
def CallResult.reportsExhaustion {ρ : Type} : CallResult ρ → Prop
  | .rateLimitExhausted _ | .exhausted _ => True
  | .returned _ | .configurationError | .settingError _ => False

/-- The call raises the rate-limit error. -/
def CallResult.reportsRateLimit {ρ : Type} : CallResult ρ → Prop
  | .rateLimitExhausted _ => True
  | .exhausted _ | .returned _ | .configurationError | .settingError _ => False

/-- The end of a call that has no result. -/
def exhaustedResult {ρ : Type} (method : String) (s : Progress) : CallResult ρ × List CallEvent :=
  let events := s.lastAttemptedProvider.toList.map fun provider => CallEvent.exhausted provider.name
  let error : Exhaustion :=
    { method, attempts := s.attemptsUsed
      lastProvider := (s.lastAttemptedProvider.map (·.name)).filter (· ≠ "")
      lastCategory := (s.failures.getLast?.map (·.category)).filter (· ≠ "") }
  (if s.failures ≠ [] ∧ ∀ failure ∈ s.failures, failure.rateLimited = true then .rateLimitExhausted error
    else .exhausted error, s.trace ++ events)

/-- `solana_rpc_call`: how it ends, and what it has done. The budgets are what `int` makes of the
arguments, or of the environment. -/
def solanaRpcCall {ρ : Type} (providers : List RpcProvider) (method workload : String)
    (overallAttemptBudget providerLocalAttempts : Option Int) (answers : Answers ρ) :
    CallResult ρ × List CallEvent :=
  let ordered := orderedProviders providers method workload
  if ordered.isEmpty then (.configurationError, [])
  else match positiveInt overallAttemptBudget "SOLANA_RPC_OVERALL_ATTEMPT_BUDGET" 20 with
    | .error message => (.settingError message, [])
    | .ok totalBudget =>
      match positiveInt providerLocalAttempts "SOLANA_RPC_PROVIDER_ATTEMPTS" 3 with
      | .error message => (.settingError message, [])
      | .ok localBudget =>
        match providerLoop answers totalBudget localBudget ordered 0 {} with
        | (some result, s) => (.returned result, s.trace)
        | (none, s) => exhaustedResult method s

/-! ## What a trace has -/

/-- The reservations that were asked for. -/
def reservations (trace : List CallEvent) : List Visit :=
  trace.filterMap fun | .reserved visit _ _ _ => some visit | _ => none

/-- The reservations that were granted. -/
def granted (trace : List CallEvent) : List Visit :=
  trace.filterMap fun | .reserved visit _ _ true => some visit | _ => none

/-- The attempts: the requests that were made. -/
def attempts (trace : List CallEvent) : List Visit :=
  trace.filterMap fun | .requested visit => some visit | _ => none

/-- The attempts whose outcome was recorded. -/
def recordedVisits (trace : List CallEvent) : List Visit :=
  trace.filterMap fun | .recorded visit _ => some visit | _ => none

/-- The failures that were recorded. -/
def failuresOf (trace : List CallEvent) : List ProviderFailure :=
  trace.filterMap fun | .recorded _ failure => failure | _ => none

/-- The attempts at the provider of an index. -/
def attemptsAt (trace : List CallEvent) (index : Nat) : List Visit := (attempts trace).filter fun v => v.index = index

/-- The provider of an index had its turn: its reservation was asked for, and it had an attempt if the
reservation was granted. -/
def HadTurn {ρ : Type} (answers : Answers ρ) (trace : List CallEvent) (index : Nat) : Prop :=
  ∃ visit ∈ reservations trace, visit.index = index ∧ visit.localAttempt = 0 ∧
    ((answers.reserve visit).isSome = true → visit ∈ attempts trace)

/-! ## A turn -/

/-- The variables after an attempt. -/
def Progress.attempted (s : Progress) (provider : RpcProvider) (visit : Visit) (retry failover : Bool)
    (failure : Option ProviderFailure) (rest : List CallEvent) : Progress where
  attemptsUsed := s.attemptsUsed + 1
  failures := s.failures ++ failure.toList
  lastAttemptedProvider := some provider
  trace := s.trace ++ ([.reserved visit retry failover true, .requested visit, .recorded visit failure] ++ rest)

section Turns

variable {ρ : Type} {answers : Answers ρ} {totalBudget localBudget index after localAttempt : Nat}
  {provider : RpcProvider} {s : Progress}

/-- How a turn ends, and what it leaves. -/
inductive TurnEnds (answers : Answers ρ) (totalBudget localBudget index after localAttempt : Nat)
    (provider : RpcProvider) (s : Progress) : Turn ρ × Progress → Prop
  | spent : totalBudget ≤ s.attemptsUsed →
      TurnEnds answers totalBudget localBudget index after localAttempt provider s (.leave, s)
  | refused (retry failover : Bool) : s.attemptsUsed < totalBudget →
      answers.reserve ⟨index, provider.name, localAttempt⟩ = none →
      TurnEnds answers totalBudget localBudget index after localAttempt provider s
        (.leave, s.log [.reserved ⟨index, provider.name, localAttempt⟩ retry failover false])
  | returned (retry failover : Bool) (result : ρ) : s.attemptsUsed < totalBudget →
      TurnEnds answers totalBudget localBudget index after localAttempt provider s
        (.returned result, s.attempted provider ⟨index, provider.name, localAttempt⟩ retry failover none [])
  | left (retry failover : Bool) (failure : ProviderFailure) : s.attemptsUsed < totalBudget →
      TurnEnds answers totalBudget localBudget index after localAttempt provider s
        (.leave, s.attempted provider ⟨index, provider.name, localAttempt⟩ retry failover (some failure) [])
  | again (retry failover : Bool) (failure : ProviderFailure) (seconds : ℚ) : s.attemptsUsed < totalBudget →
      localAttempt + 1 < localBudget → after < totalBudget - (s.attemptsUsed + 1) →
      TurnEnds answers totalBudget localBudget index after localAttempt provider s
        (.again, s.attempted provider ⟨index, provider.name, localAttempt⟩ retry failover (some failure)
          [.slept seconds])

theorem localTurn_ends : TurnEnds answers totalBudget localBudget index after localAttempt provider s
    (localTurn answers totalBudget localBudget index provider after localAttempt s) := by
  unfold localTurn
  by_cases hspent : totalBudget ≤ s.attemptsUsed
  · rw [if_pos hspent]
    exact .spent hspent
  · rw [if_neg hspent]
    rw [not_le] at hspent
    dsimp only
    split
    · rename_i hrefused
      exact .refused _ _ hspent hrefused
    · split
      · rename_i result _
        have hend : TurnEnds answers totalBudget localBudget index after localAttempt provider s
            (.returned result, s.attempted provider ⟨index, provider.name, localAttempt⟩ (decide (0 < localAttempt))
              (decide (0 < index)) none []) := .returned _ _ result hspent
        simpa [Progress.log, Progress.attempted] using hend
      · rename_i failure _
        have hleave : TurnEnds answers totalBudget localBudget index after localAttempt provider s
            (.leave, s.attempted provider ⟨index, provider.name, localAttempt⟩ (decide (0 < localAttempt))
              (decide (0 < index)) (some failure) []) := .left _ _ failure hspent
        split_ifs with hfinal hlast hreserved hlong
        · simpa [Progress.log, Progress.attempted] using hleave
        · simpa [Progress.log, Progress.attempted] using hleave
        · simpa [Progress.log, Progress.attempted] using hleave
        · simpa [Progress.log, Progress.attempted] using hleave
        · have hagain : TurnEnds answers totalBudget localBudget index after localAttempt provider s
              (.again, s.attempted provider ⟨index, provider.name, localAttempt⟩ (decide (0 < localAttempt))
                (decide (0 < index)) (some failure) [.slept failure.retryDelaySeconds]) :=
            .again _ _ failure _ hspent (not_le.1 hlast) (not_le.1 hreserved)
          simpa [Progress.log, Progress.attempted] using hagain

end Turns

/-! ## What a turn adds to the trace -/

section Trace

variable (s : Progress) (provider : RpcProvider) (visit : Visit) (retry failover : Bool)
  (failure : Option ProviderFailure)

/-- Nothing but sleeps and the record of an exhaustion. -/
def Rests (rest : List CallEvent) : Prop :=
  ∀ e ∈ rest, (∃ seconds, e = .slept seconds) ∨ ∃ provider, e = .exhausted provider

variable {rest : List CallEvent} (h : Rests rest)
include h

theorem filterMap_rests {α : Type} (f : CallEvent → Option α) (hslept : ∀ seconds, f (.slept seconds) = none)
    (hexhausted : ∀ provider, f (.exhausted provider) = none) : rest.filterMap f = [] := by
  rw [List.filterMap_eq_nil_iff]
  intro e he
  rcases h e he with ⟨seconds, rfl⟩ | ⟨provider, rfl⟩
  · exact hslept seconds
  · exact hexhausted provider

theorem reservations_attempted : reservations (s.attempted provider visit retry failover failure rest).trace =
    reservations s.trace ++ [visit] := by
  simp [reservations, Progress.attempted, filterMap_rests h]

theorem granted_attempted : granted (s.attempted provider visit retry failover failure rest).trace =
    granted s.trace ++ [visit] := by
  simp [granted, Progress.attempted, filterMap_rests h]

theorem attempts_attempted : attempts (s.attempted provider visit retry failover failure rest).trace =
    attempts s.trace ++ [visit] := by
  simp [attempts, Progress.attempted, filterMap_rests h]

theorem recordedVisits_attempted : recordedVisits (s.attempted provider visit retry failover failure rest).trace =
    recordedVisits s.trace ++ [visit] := by
  simp [recordedVisits, Progress.attempted, filterMap_rests h]

theorem failuresOf_attempted : failuresOf (s.attempted provider visit retry failover failure rest).trace =
    failuresOf s.trace ++ failure.toList := by
  cases failure <;> simp [failuresOf, Progress.attempted, filterMap_rests h]

end Trace

theorem mem_reservations_of_granted {trace : List CallEvent} {visit : Visit} (h : visit ∈ granted trace) :
    visit ∈ reservations trace := by
  unfold granted reservations at *
  rw [List.mem_filterMap] at h ⊢
  obtain ⟨e, he, hvisit⟩ := h
  refine ⟨e, he, ?_⟩
  split at hvisit
  · exact hvisit
  · cases hvisit

/-! ## The invariant -/

/-- What holds while the providers before an index have been visited, with the variables of the loops
true to the trace. -/
structure Inv (ordered : List RpcProvider) (totalBudget localBudget index : Nat) (s : Progress) : Prop where
  used : s.attemptsUsed = (attempts s.trace).length
  within : s.attemptsUsed ≤ totalBudget
  failures : s.failures = failuresOf s.trace
  granted : granted s.trace = attempts s.trace
  recorded : recordedVisits s.trace = attempts s.trace
  order : (reservations s.trace).Pairwise fun v w => v.index ≤ w.index
  place : ∀ v ∈ reservations s.trace, v.index < index ∧ (ordered[v.index]?).map (·.name) = some v.provider
  locals : ∀ i, (attemptsAt s.trace i).length ≤ localBudget

section Loops

variable {ρ : Type} {answers : Answers ρ} {ordered : List RpcProvider} {totalBudget localBudget index : Nat}
  {provider : RpcProvider} {s : Progress}

theorem Inv.initial : Inv ordered totalBudget localBudget 0 {} where
  used := rfl
  within := Nat.zero_le _
  failures := rfl
  granted := rfl
  recorded := rfl
  order := List.Pairwise.nil
  place := fun v h => by cases h
  locals := fun i => Nat.zero_le _

theorem Inv.mono (h : Inv ordered totalBudget localBudget index s) :
    Inv ordered totalBudget localBudget (index + 1) s :=
  { h with place := fun v hv => ⟨(h.place v hv).1.trans (Nat.lt_succ_self _), (h.place v hv).2⟩ }

/-- No attempt was made yet at the provider whose turn it is. -/
theorem Inv.attemptsAt_eq (h : Inv ordered totalBudget localBudget index s) : attemptsAt s.trace index = [] := by
  refine List.filter_eq_nil_iff.2 fun v hv => ?_
  rw [← h.granted] at hv
  simpa using (h.place v (mem_reservations_of_granted hv)).1.ne

section Turn

variable {localAttempt : Nat} (h : Inv ordered totalBudget localBudget (index + 1) s)
  (hprovider : ordered[index]? = some provider)
include h hprovider

variable (localAttempt) in
/-- One more reservation of the provider whose turn it is. -/
theorem Inv.reservations_append :
    ((reservations s.trace ++ [Visit.mk index provider.name localAttempt]).Pairwise
      fun v w => v.index ≤ w.index) ∧
    ∀ v ∈ reservations s.trace ++ [Visit.mk index provider.name localAttempt],
      v.index < index + 1 ∧ (ordered[v.index]?).map (·.name) = some v.provider := by
  constructor
  · refine List.pairwise_append.2 ⟨h.order, List.pairwise_singleton .., fun v hv w hw => ?_⟩
    obtain rfl := List.mem_singleton.1 hw
    exact Nat.lt_succ_iff.1 (h.place v hv).1
  · intro v hv
    rcases List.mem_append.1 hv with hv | hv
    · exact h.place v hv
    · obtain rfl := List.mem_singleton.1 hv
      exact ⟨Nat.lt_succ_self _, by rw [hprovider]; rfl⟩

theorem Inv.refused (retry failover : Bool) : Inv ordered totalBudget localBudget (index + 1)
    (s.log [.reserved ⟨index, provider.name, localAttempt⟩ retry failover false]) := by
  obtain ⟨horder, hplace⟩ := h.reservations_append localAttempt hprovider
  have hres : reservations (s.log [.reserved ⟨index, provider.name, localAttempt⟩ retry failover false]).trace =
      reservations s.trace ++ [⟨index, provider.name, localAttempt⟩] := by
    simp [reservations, Progress.log]
  have hattempts : attempts (s.log [.reserved ⟨index, provider.name, localAttempt⟩ retry failover false]).trace =
      attempts s.trace := by
    simp [attempts, Progress.log]
  constructor
  · exact h.used.trans (by rw [hattempts])
  · exact h.within
  · exact h.failures.trans (by simp [failuresOf, Progress.log])
  · rw [hattempts, ← h.granted]
    simp [Rpc.granted, Progress.log]
  · rw [hattempts, ← h.recorded]
    simp [recordedVisits, Progress.log]
  · rw [hres]
    exact horder
  · rw [hres]
    exact hplace
  · unfold attemptsAt
    rw [hattempts]
    exact h.locals

theorem Inv.attempted {retry failover : Bool} {failure : Option ProviderFailure} {rest : List CallEvent}
    (hrest : Rests rest) (hused : s.attemptsUsed < totalBudget)
    (hat : (attemptsAt s.trace index).length < localBudget) :
    Inv ordered totalBudget localBudget (index + 1)
      (s.attempted provider ⟨index, provider.name, localAttempt⟩ retry failover failure rest) := by
  obtain ⟨horder, hplace⟩ := h.reservations_append localAttempt hprovider
  constructor
  · rw [attempts_attempted _ _ _ _ _ _ hrest, List.length_append, ← h.used]
    rfl
  · exact hused
  · rw [failuresOf_attempted _ _ _ _ _ _ hrest, ← h.failures]
    rfl
  · rw [granted_attempted _ _ _ _ _ _ hrest, attempts_attempted _ _ _ _ _ _ hrest, h.granted]
  · rw [recordedVisits_attempted _ _ _ _ _ _ hrest, attempts_attempted _ _ _ _ _ _ hrest, h.recorded]
  · rw [reservations_attempted _ _ _ _ _ _ hrest]
    exact horder
  · rw [reservations_attempted _ _ _ _ _ _ hrest]
    exact hplace
  · intro i
    unfold attemptsAt
    rw [attempts_attempted _ _ _ _ _ _ hrest, List.filter_append, List.length_append]
    by_cases hi : index = i
    · subst hi
      simpa [attemptsAt] using hat
    · simpa [attemptsAt, hi] using h.locals i

end Turn

/-! ## The loops -/

/-- A turn that was had is in every longer trace. -/
theorem HadTurn.mono {trace trace' : List CallEvent} {i : Nat} (h : HadTurn answers trace i)
    (hreservations : reservations trace ⊆ reservations trace') (hattempts : attempts trace ⊆ attempts trace') :
    HadTurn answers trace' i := by
  obtain ⟨visit, hvisit, hindex, hlocal, hgranted⟩ := h
  exact ⟨visit, hreservations hvisit, hindex, hlocal, fun hsome => hattempts (hgranted hsome)⟩

/-- What an inner loop leaves: the invariant, the turn of its provider, the turns before, and an attempt
for each provider after it where there was one for each before. -/
structure Visited (answers : Answers ρ) (ordered : List RpcProvider) (totalBudget localBudget index after : Nat)
    (s s' : Progress) : Prop where
  inv : Inv ordered totalBudget localBudget (index + 1) s'
  turn : HadTurn answers s'.trace index
  kept : ∀ i, HadTurn answers s.trace i → HadTurn answers s'.trace i
  room : s.attemptsUsed + after < totalBudget → s'.attemptsUsed + after ≤ totalBudget

theorem Visited.trans {after : Nat} {s s' s'' : Progress}
    (hkept : ∀ i, HadTurn answers s.trace i → HadTurn answers s'.trace i)
    (hroom : s.attemptsUsed + after < totalBudget → s'.attemptsUsed + after < totalBudget)
    (h : Visited answers ordered totalBudget localBudget index after s' s'') :
    Visited answers ordered totalBudget localBudget index after s s'' :=
  ⟨h.inv, h.turn, fun i hi => h.kept i (hkept i hi), fun hs => h.room (hroom hs)⟩

/-- The inner loop, at the first attempt or after the provider had its turn. -/
theorem localLoop_visited (hprovider : ordered[index]? = some provider) {after : Nat} :
    ∀ (n localAttempt : Nat) (s : Progress), Inv ordered totalBudget localBudget (index + 1) s →
      (attemptsAt s.trace index).length ≤ localAttempt → localAttempt + n = localBudget →
      (localAttempt = 0 ∧ 0 < n ∧ s.attemptsUsed < totalBudget ∨ HadTurn answers s.trace index) →
      Visited answers ordered totalBudget localBudget index after s
        (localLoop answers totalBudget localBudget index provider after n localAttempt s).2
  | 0, localAttempt, s, h, _, _, hturn =>
    ⟨h, hturn.resolve_left fun hfirst => absurd hfirst.2.1 (lt_irrefl 0), fun _ hi => hi, le_of_lt⟩
  | n + 1, localAttempt, s, h, hat, hn, hturn => by
    have hlt : (attemptsAt s.trace index).length < localBudget := by omega
    -- an attempt gives the provider its turn, and takes one of the budget
    have hattempted : ∀ (retry failover : Bool) (failure : Option ProviderFailure) (rest : List CallEvent),
        Rests rest → s.attemptsUsed < totalBudget →
        Visited answers ordered totalBudget localBudget index after s
          (s.attempted provider ⟨index, provider.name, localAttempt⟩ retry failover failure rest) := by
      intro retry failover failure rest hrest hused
      have hreservations := reservations_attempted s provider ⟨index, provider.name, localAttempt⟩ retry failover
        failure hrest
      have hattempts := attempts_attempted s provider ⟨index, provider.name, localAttempt⟩ retry failover
        failure hrest
      have hkept : ∀ i, HadTurn answers s.trace i → HadTurn answers
          (s.attempted provider ⟨index, provider.name, localAttempt⟩ retry failover failure rest).trace i := by
        intro i hi
        refine hi.mono ?_ ?_
        · rw [hreservations]
          exact List.subset_append_left _ _
        · rw [hattempts]
          exact List.subset_append_left _ _
      refine ⟨h.attempted hprovider hrest hused hlt, ?_, hkept, fun hroom => ?_⟩
      swap
      · show s.attemptsUsed + 1 + after ≤ totalBudget
        omega
      rcases hturn with ⟨hfirst, -, -⟩ | hhad
      · refine ⟨⟨index, provider.name, localAttempt⟩, ?_, rfl, hfirst, fun _ => ?_⟩
        · rw [hreservations]
          exact List.mem_append_right _ (List.mem_singleton.2 rfl)
        · rw [hattempts]
          exact List.mem_append_right _ (List.mem_singleton.2 rfl)
      · exact hkept index hhad
    have hends : TurnEnds answers totalBudget localBudget index after localAttempt provider s
        (localTurn answers totalBudget localBudget index provider after localAttempt s) := localTurn_ends
    unfold localLoop
    revert hends
    generalize localTurn answers totalBudget localBudget index provider after localAttempt s = turn
    intro hends
    cases hends with
    | spent hspent =>
      refine ⟨h, hturn.resolve_left fun hfirst => ?_, fun _ hi => hi, le_of_lt⟩
      exact absurd hspent (not_le.2 hfirst.2.2)
    | refused retry failover hused hnone =>
      have hreservations : reservations
          (s.log [.reserved ⟨index, provider.name, localAttempt⟩ retry failover false]).trace =
            reservations s.trace ++ [⟨index, provider.name, localAttempt⟩] := by
        simp [reservations, Progress.log]
      have hkept : ∀ i, HadTurn answers s.trace i → HadTurn answers
          (s.log [.reserved ⟨index, provider.name, localAttempt⟩ retry failover false]).trace i := by
        intro i hi
        refine hi.mono ?_ ?_
        · rw [hreservations]
          exact List.subset_append_left _ _
        · unfold Progress.log attempts
          rw [List.filterMap_append]
          exact List.subset_append_left _ _
      refine ⟨h.refused hprovider retry failover, ?_, hkept, le_of_lt⟩
      rcases hturn with ⟨hfirst, -, -⟩ | hhad
      · refine ⟨⟨index, provider.name, localAttempt⟩, ?_, rfl, hfirst, fun hsome => ?_⟩
        · rw [hreservations]
          exact List.mem_append_right _ (List.mem_singleton.2 rfl)
        · rw [hnone] at hsome
          cases hsome
      · exact hkept index hhad
    | returned retry failover result hused => exact hattempted retry failover none [] nofun hused
    | left retry failover failure hused => exact hattempted retry failover (some failure) [] nofun hused
    | again retry failover failure seconds hused hlocal hroom =>
      have hrests : Rests [.slept seconds] := by
        rintro _ (_ | ⟨_, ⟨⟩⟩)
        exact .inl ⟨seconds, rfl⟩
      have hnext := hattempted retry failover (some failure) [.slept seconds] hrests hused
      refine Visited.trans hnext.kept (fun _ => ?_) ?_
      · show s.attemptsUsed + 1 + after < totalBudget
        omega
      · refine localLoop_visited hprovider n (localAttempt + 1) _ hnext.inv ?_ (by omega) (.inr hnext.turn)
        unfold attemptsAt
        rw [attempts_attempted _ _ _ _ _ _ hrests, List.filter_append, List.length_append]
        have : (attemptsAt s.trace index).length ≤ localAttempt := hat
        unfold attemptsAt at this
        simp
        omega

/-- What the loops leave: the invariant at the first provider that was not visited, a turn for each
before, and none left where the loops end without a result and the budget has an attempt for each. -/
structure Ended (answers : Answers ρ) (ordered : List RpcProvider) (totalBudget localBudget : Nat)
    (ended : Option ρ × Progress) (index : Nat) : Prop where
  inv : Inv ordered totalBudget localBudget index ended.2
  turns : ∀ i < index, HadTurn answers ended.2.trace i
  all : ended.1 = none → ordered.length ≤ totalBudget → ordered.length ≤ index

/-- The outer loop. -/
theorem providerLoop_ended (hlocal : 0 < localBudget) : ∀ (providers : List RpcProvider) (index : Nat) (s : Progress),
    ordered.drop index = providers → Inv ordered totalBudget localBudget index s →
    (∀ i < index, HadTurn answers s.trace i) → (providers ≠ [] → s.attemptsUsed < totalBudget) →
    (ordered.length ≤ totalBudget → s.attemptsUsed + providers.length ≤ totalBudget) →
    ∃ last, Ended answers ordered totalBudget localBudget
      (providerLoop answers totalBudget localBudget providers index s) last
  | [], index, s, hdrop, h, hturns, _, _ => ⟨index, h, hturns, fun _ _ => List.drop_eq_nil_iff.1 hdrop⟩
  | provider :: providers, index, s, hdrop, h, hturns, hused, hroom => by
    have hlt : index < ordered.length := by
      by_contra hge
      rw [List.drop_eq_nil_of_le (not_lt.1 hge)] at hdrop
      cases hdrop
    rw [List.drop_eq_getElem_cons hlt, List.cons.injEq] at hdrop
    have hprovider : ordered[index]? = some provider := by rw [List.getElem?_eq_getElem hlt, hdrop.1]
    have hlength : ordered.length = index + 1 + providers.length := by
      rw [← hdrop.2, List.length_drop]
      omega
    have hvisited : Visited answers ordered totalBudget localBudget index providers.length s
        (localLoop answers totalBudget localBudget index provider providers.length localBudget 0 s).2 :=
      localLoop_visited hprovider localBudget 0 s h.mono (by rw [h.attemptsAt_eq]; rfl) (Nat.zero_add _)
        (.inl ⟨rfl, hlocal, hused (List.cons_ne_nil _ _)⟩)
    have hnext : ∀ i < index + 1, HadTurn answers
        (localLoop answers totalBudget localBudget index provider providers.length localBudget 0 s).2.trace i := by
      intro i hi
      rcases Nat.lt_succ_iff_lt_or_eq.1 hi with hi | rfl
      · exact hvisited.kept i (hturns i hi)
      · exact hvisited.turn
    have hleft : ordered.length ≤ totalBudget →
        (localLoop answers totalBudget localBudget index provider providers.length localBudget 0 s).2.attemptsUsed +
          providers.length ≤ totalBudget := by
      intro hle
      have := hroom hle
      rw [List.length_cons] at this
      exact hvisited.room (by omega)
    unfold providerLoop
    revert hvisited hnext hleft
    generalize localLoop answers totalBudget localBudget index provider providers.length localBudget 0 s = ended
    obtain ⟨result, s'⟩ := ended
    intro hvisited hnext hleft
    cases result with
    | some result => exact ⟨index + 1, hvisited.inv, hnext, fun hnone => by cases hnone⟩
    | none =>
      dsimp only
      split_ifs with hspent
      · -- the budget is used up, so no provider is left to have its turn
        refine ⟨index + 1, hvisited.inv, hnext, fun _ hle => ?_⟩
        have := hleft hle
        dsimp only at this
        omega
      · exact providerLoop_ended hlocal providers (index + 1) s' hdrop.2 hvisited.inv hnext
          (fun _ => not_le.1 hspent) hleft

end Loops

/-! ## The call -/

theorem positiveInt_pos {value : Option Int} {setting : String} {maximum : Int} {n : Nat}
    (h : positiveInt value setting maximum = .ok n) : 0 < n := by
  unfold positiveInt at h
  split at h
  · cases h
  · split_ifs at h with hbounds
    rw [not_or] at hbounds
    cases h
    omega

section Call

variable {ρ : Type} (providers : List RpcProvider) (method workload : String)
  (overallAttemptBudget providerLocalAttempts : Option Int) (answers : Answers ρ)

/-- The attempts that a call may make, and those at one provider. -/
def totalBudgetOf : Option Nat := (positiveInt overallAttemptBudget "SOLANA_RPC_OVERALL_ATTEMPT_BUDGET" 20).toOption

def localBudgetOf : Option Nat := (positiveInt providerLocalAttempts "SOLANA_RPC_PROVIDER_ATTEMPTS" 3).toOption

/-- What a call did, however it ended. -/
structure Accounted (call : CallResult ρ × List CallEvent) : Prop where
  /-- No more attempts than the budget has. -/
  total : ∀ n ∈ totalBudgetOf overallAttemptBudget, (attempts call.2).length ≤ n
  /-- No more attempts at a provider than its own budget has. -/
  perProvider : ∀ n ∈ localBudgetOf providerLocalAttempts, ∀ index, (attemptsAt call.2 index).length ≤ n
  /-- The providers are visited in their order. -/
  order : (reservations call.2).Pairwise fun v w => v.index ≤ w.index
  /-- Each visit is to the provider of its place, after every provider before it had its turn. -/
  place : ∀ v ∈ reservations call.2,
    ((orderedProviders providers method workload)[v.index]?).map (·.name) = some v.provider ∧
      ∀ i < v.index, HadTurn answers call.2 i
  /-- Before exhaustion is reported, every provider had its turn, where there are attempts for all. -/
  turns : call.1.reportsExhaustion → ∀ n ∈ totalBudgetOf overallAttemptBudget,
    (orderedProviders providers method workload).length ≤ n →
      ∀ index < (orderedProviders providers method workload).length, HadTurn answers call.2 index
  /-- What kind of exhaustion is reported. -/
  rateLimit : call.1.reportsExhaustion → (call.1.reportsRateLimit ↔
    failuresOf call.2 ≠ [] ∧ ∀ failure ∈ failuresOf call.2, failure.rateLimited = true)
  /-- One outcome is recorded for each reservation that is granted. -/
  outcomes : recordedVisits call.2 = granted call.2

/-- A call that makes no attempt. -/
theorem accounted_nil {result : CallResult ρ} (h : ¬ result.reportsExhaustion) :
    Accounted providers method workload overallAttemptBudget providerLocalAttempts answers (result, []) where
  total _ _ := Nat.zero_le _
  perProvider _ _ _ := Nat.zero_le _
  order := List.Pairwise.nil
  place _ hv := by cases hv
  turns hreports := (h hreports).elim
  rateLimit hreports := (h hreports).elim
  outcomes := rfl

/-- A call whose loops have ended. -/
theorem accounted_of_ended {totalBudget localBudget last : Nat} {s : Progress} {result : CallResult ρ}
    {events : List CallEvent} (hrests : Rests events) (htotal : totalBudgetOf overallAttemptBudget = some totalBudget)
    (hlocal : localBudgetOf providerLocalAttempts = some localBudget)
    (hinv : Inv (orderedProviders providers method workload) totalBudget localBudget last s)
    (hturns : ∀ i < last, HadTurn answers s.trace i)
    (hall : result.reportsExhaustion → (orderedProviders providers method workload).length ≤ totalBudget →
      (orderedProviders providers method workload).length ≤ last)
    (hlimit : result.reportsExhaustion → (result.reportsRateLimit ↔
      s.failures ≠ [] ∧ ∀ failure ∈ s.failures, failure.rateLimited = true)) :
    Accounted providers method workload overallAttemptBudget providerLocalAttempts answers
      (result, s.trace ++ events) := by
  have hreservations : reservations (s.trace ++ events) = reservations s.trace := by
    simp [reservations, filterMap_rests hrests]
  have hattempts : attempts (s.trace ++ events) = attempts s.trace := by
    simp [attempts, filterMap_rests hrests]
  have hfailures : failuresOf (s.trace ++ events) = s.failures := by
    rw [hinv.failures]
    simp [failuresOf, filterMap_rests hrests]
  have hkept : ∀ i, HadTurn answers s.trace i → HadTurn answers (s.trace ++ events) i :=
    fun i hi => hi.mono (hreservations ▸ List.Subset.refl _) (hattempts ▸ List.Subset.refl _)
  constructor
  · intro n hn
    obtain rfl := Option.some.inj (htotal.symm.trans hn)
    rw [hattempts, ← hinv.used]
    exact hinv.within
  · intro n hn index
    obtain rfl := Option.some.inj (hlocal.symm.trans hn)
    unfold attemptsAt
    rw [hattempts]
    exact hinv.locals index
  · rw [hreservations]
    exact hinv.order
  · intro v hv
    rw [hreservations] at hv
    obtain ⟨hlt, hname⟩ := hinv.place v hv
    exact ⟨hname, fun i hi => hkept i (hturns i (hi.trans hlt))⟩
  · intro hreports n hn hle index hindex
    obtain rfl := Option.some.inj (htotal.symm.trans hn)
    exact hkept index (hturns index (hindex.trans_le (hall hreports hle)))
  · intro hreports
    rw [hfailures]
    exact hlimit hreports
  · have hrecorded : recordedVisits (s.trace ++ events) = recordedVisits s.trace := by
      simp [recordedVisits, filterMap_rests hrests]
    have hgranted : granted (s.trace ++ events) = granted s.trace := by
      simp [granted, filterMap_rests hrests]
    rw [hrecorded, hgranted, hinv.recorded, hinv.granted]

/-- Failover budget: a call makes no more attempts than its budget has, nor at a provider than its own
has; it visits the providers in their order; where the budget has an attempt for each, every provider has
its turn before exhaustion is reported; the exhaustion that is reported is the rate-limit error exactly
when an attempt failed and all failures were rate limits; and one outcome is recorded for each granted
reservation. -/
theorem solanaRpcCall_accounted :
    Accounted providers method workload overallAttemptBudget providerLocalAttempts answers
      (solanaRpcCall providers method workload overallAttemptBudget providerLocalAttempts answers) := by
  unfold solanaRpcCall
  dsimp only
  split_ifs with hempty
  · exact accounted_nil _ _ _ _ _ _ id
  split
  · exact accounted_nil _ _ _ _ _ _ id
  rename_i totalBudget htotal
  split
  · exact accounted_nil _ _ _ _ _ _ id
  rename_i localBudget hlocal
  have htotalOf : totalBudgetOf overallAttemptBudget = some totalBudget := by
    unfold totalBudgetOf
    rw [htotal]
    rfl
  have hlocalOf : localBudgetOf providerLocalAttempts = some localBudget := by
    unfold localBudgetOf
    rw [hlocal]
    rfl
  have hstart : Inv (orderedProviders providers method workload) totalBudget localBudget 0 {} := Inv.initial
  obtain ⟨last, hended⟩ : ∃ last, Ended answers (orderedProviders providers method workload) totalBudget localBudget
      (providerLoop answers totalBudget localBudget (orderedProviders providers method workload) 0 {}) last :=
    providerLoop_ended (positiveInt_pos hlocal) _ 0 {} List.drop_zero hstart nofun
      (fun _ => positiveInt_pos htotal) fun hle => (Nat.zero_add _).trans_le hle
  revert hended
  generalize providerLoop answers totalBudget localBudget (orderedProviders providers method workload) 0 {} = ended
  obtain ⟨result, s⟩ := ended
  intro hended
  cases result with
  | some result =>
    have haccounted : Accounted providers method workload overallAttemptBudget providerLocalAttempts answers
        (.returned result, s.trace ++ []) :=
      accounted_of_ended providers method workload overallAttemptBudget providerLocalAttempts answers
        nofun htotalOf hlocalOf hended.inv hended.turns False.elim False.elim
    rwa [List.append_nil] at haccounted
  | none =>
    refine accounted_of_ended providers method workload overallAttemptBudget providerLocalAttempts answers
      (fun e he => ?_) htotalOf hlocalOf hended.inv hended.turns (fun _ => hended.all rfl) fun _ => ?_
    · obtain ⟨provider, -, rfl⟩ := List.mem_map.1 he
      exact .inr ⟨provider.name, rfl⟩
    · split_ifs with hlimited
      · exact iff_of_true trivial hlimited
      · exact iff_of_false id hlimited

end Call

/-- The rate limit of one provider and the success of the next. -/
def rateLimitThenSuccess : Answers String where
  reserve _ := some ⟨false, false⟩
  request visit := if visit.index = 0 then .error ⟨true, true, 1, "RATE_LIMIT"⟩ else .ok "result"

/-- A call whose only failures are rate limits raises nothing when a later provider answers. -/
theorem rateLimit_without_error : ¬ ∀ (ρ : Type) (providers : List RpcProvider) (method workload : String)
    (overallAttemptBudget providerLocalAttempts : Option Int) (answers : Answers ρ),
    let call := solanaRpcCall providers method workload overallAttemptBudget providerLocalAttempts answers
    (call.1.reportsRateLimit ↔
      failuresOf call.2 ≠ [] ∧ ∀ failure ∈ failuresOf call.2, failure.rateLimited = true) := by
  intro h
  have hcall : (solanaRpcCall [⟨"alchemy", 3⟩, ⟨"ankr", 5⟩] "getBalance" "default" (some 6) (some 2)
      rateLimitThenSuccess).1 = .returned "result" ∧
      failuresOf (solanaRpcCall [⟨"alchemy", 3⟩, ⟨"ankr", 5⟩] "getBalance" "default" (some 6) (some 2)
        rateLimitThenSuccess).2 = [⟨true, true, 1, "RATE_LIMIT"⟩] := by
    decide +kernel
  obtain ⟨hresult, hfailures⟩ := hcall
  have hlimit := h String [⟨"alchemy", 3⟩, ⟨"ankr", 5⟩] "getBalance" "default" (some 6) (some 2) rateLimitThenSuccess
  dsimp only at hlimit
  rw [hresult, hfailures] at hlimit
  exact hlimit.2 ⟨List.cons_ne_nil _ _, fun failure hfailure => by rw [List.mem_singleton.1 hfailure]⟩

end Aibot.Rpc
