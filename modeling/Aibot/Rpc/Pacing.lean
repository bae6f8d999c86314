/-
The pace of a provider over whole runs: reservations of any number of processes, each of which waits for
the lock of the state file, reads the file, is refused or sleeps until its turn, and writes. Between any
two of these steps any other process takes a step, outcomes are recorded under the same lock, and any
process raises or dies.
-/
import Aibot.Lib.Run
import Aibot.Rpc.Provider

namespace Aibot.Rpc

/-! ## The system -/

/-- The arguments of a `_reserve_provider_slot_sync`; `now_epoch` stands for the clock where it is given. -/
structure ReservationCall where
  method : String
  retry : Bool
  failover : Bool
  nowEpoch : Option ℚ
  deriving DecidableEq

/-- What an outcome that is recorded under the lock does to the state. -/
inductive Outcome
  | success (method : String) (latencyMs now : ℚ)
  | failed (reservation : ProviderReservation) (failure : ProviderFailure) (method : String) (latencyMs now : ℚ)
  | exhaustion (method : String)

def Outcome.record : Outcome → ProviderState → ProviderState
  | .success method latencyMs now => recordProviderSuccess method latencyMs now
  | .failed reservation failure method latencyMs now => recordProviderFailure reservation failure method latencyMs now
  | .exhaustion method => recordProviderExhaustion method

/-- Where a process is in its reservation. -/
inductive Phase
  | idle
  /-- It polls the lock. -/
  | waiting (call : ReservationCall)
  /-- It holds the lock, and has not read the file. -/
  | locked (call : ReservationCall)
  /-- It has read the file at `now`, and the availability lets it through. -/
  | paced (call : ReservationCall) (state : ProviderState) (now : ℚ)
  /-- It has the state to write. -/
  | writing (state : ProviderState)

structure Pacing where
  file : ProviderState
  /-- The process that holds the lock of the file. -/
  holder : Option Nat
  phase : Nat → Phase
  /-- The latest reading of the clock. -/
  clock : ℚ
  /-- The request times that the granted reservations recorded, in order. -/
  granted : List ℚ

inductive PacingEvent
  /-- A process starts a reservation. -/
  | request (process : Nat) (call : ReservationCall)
  /-- It gets the lock. -/
  | acquire (process : Nat)
  /-- It reads the file and the clock, and looks at the availability. -/
  | check (process : Nat) (reading : ℚ)
  /-- It is let through, after its sleep where it has one. -/
  | pace (process : Nat) (reading : ℚ)
  /-- It writes the file and lets go of the lock. -/
  | write (process : Nat)
  /-- It raises or dies; the system lets go of its lock. -/
  | abandon (process : Nat)
  /-- A process records an outcome under the lock. -/
  | record (outcome : Outcome)

namespace Pacing

/-- Any state file, any clock, and no reservation under way. -/
def initial (file : ProviderState) (clock : ℚ) : Pacing := ⟨file, none, fun _ => .idle, clock, []⟩

/-- The process goes on to a phase. -/
def goto (s : Pacing) (process : Nat) (phase : Phase) : Pacing :=
  { s with phase := Function.update s.phase process phase }

/-- The process is done, and lets go of the lock if it holds it. -/
def release (s : Pacing) (process : Nat) : Pacing :=
  { s.goto process .idle with holder := if s.holder = some process then none else s.holder }

/-- The time up to which the pace lets the process sleep. -/
def target (provider : RpcProvider) (state : ProviderState) (now : ℚ) : ℚ :=
  max now (safeEpoch state.lastRequestAtEpoch + provider.minimumIntervalSeconds)

/-- The process sleeps: the clock is real, and its turn has not come. -/
def sleeps (provider : RpcProvider) (call : ReservationCall) (state : ProviderState) (now : ℚ) : Prop :=
  call.nowEpoch = none ∧ now < target provider state now

instance (provider : RpcProvider) (call : ReservationCall) (state : ProviderState) (now : ℚ) :
    Decidable (sleeps provider call state now) := inferInstanceAs (Decidable (_ ∧ _))

/-- `time.time()` after the sleep; with `now_epoch` the turn itself. -/
def awake (provider : RpcProvider) (call : ReservationCall) (state : ProviderState) (now reading : ℚ) : ℚ :=
  if call.nowEpoch = none then reading else target provider state now

/-- One step of whichever process. The clock never runs back, and a sleep is no shorter than it was asked
to be. -/
def step (provider : RpcProvider) (s : Pacing) : PacingEvent → Option Pacing
  | .request p call =>
    match s.phase p with
    | .idle => some (s.goto p (.waiting call))
    | _ => none
  | .acquire p =>
    match s.phase p, s.holder with
    | .waiting call, none => some { s.goto p (.locked call) with holder := some p }
    | _, _ => none
  | .check p reading =>
    match s.phase p with
    | .locked call =>
      if s.clock ≤ reading then
        let now := call.nowEpoch.getD reading
        match s.file.blockReason call.method now with
        | some _ => some { s.release p with clock := reading }
        | none => some { s.goto p (.paced call s.file now) with clock := reading }
      else none
    | _ => none
  | .pace p reading =>
    match s.phase p with
    | .paced call state now =>
      if s.clock ≤ reading ∧ (sleeps provider call state now → now + (target provider state now - now) ≤ reading) then
        match reserveProviderSlot provider call.method call.retry call.failover now
          (awake provider call state now reading) state with
        | .ok (_, reserved) => some { s.goto p (.writing reserved) with clock := reading }
        | .error _ => none
      else none
    | _ => none
  | .write p =>
    match s.phase p with
    | .writing state =>
      some { s.release p with file := state, granted := s.granted ++ [state.lastRequestAtEpoch] }
    | _ => none
  | .abandon p => some (s.release p)
  | .record outcome => if s.holder = none then some { s with file := outcome.record s.file } else none

/-- The event is a step of a reservation, and not the record of an outcome. -/
def reserves : PacingEvent → Prop
  | .record _ => False
  | _ => True

/-! ## The parts of a step -/

@[simp] theorem phase_goto_self (s : Pacing) (p : Nat) (phase : Phase) : (s.goto p phase).phase p = phase :=
  Function.update_self ..

theorem phase_goto_of_ne (s : Pacing) {p q : Nat} (phase : Phase) (h : q ≠ p) : (s.goto p phase).phase q = s.phase q :=
  Function.update_of_ne h ..

theorem phase_release (s : Pacing) (p q : Nat) : (s.release p).phase q = if q = p then .idle else s.phase q := by
  unfold release goto
  by_cases h : q = p
  · subst h
    simp
  · simp [h]

/-- No outcome touches the time of the last request. -/
theorem record_lastRequestAtEpoch (outcome : Outcome) (state : ProviderState) :
    (outcome.record state).lastRequestAtEpoch = state.lastRequestAtEpoch := by
  cases outcome with
  | success method latencyMs now => rfl
  | exhaustion method => rfl
  | failed reservation failure method latencyMs now =>
    simp only [Outcome.record, recordProviderFailure]
    split <;> rfl

theorem reserveProviderSlot_lastRequestAtEpoch {provider : RpcProvider} {method : String} {retry failover : Bool}
    {now after : ℚ} {state reserved : ProviderState} {r : ProviderReservation}
    (h : reserveProviderSlot provider method retry failover now after state = .ok (r, reserved)) :
    reserved.lastRequestAtEpoch = requestTime provider state now after := by
  unfold reserveProviderSlot at h
  split at h
  · cases h
  · obtain ⟨-, rfl⟩ := Prod.mk.inj (Except.ok.inj h)
    rfl

/-- The recorded time is a whole interval after the last one: after the sleep, or without one. -/
theorem interval_le_requestTime {provider : RpcProvider} {call : ReservationCall} {state : ProviderState}
    {now reading : ℚ} (hslept : sleeps provider call state now → now + (target provider state now - now) ≤ reading) :
    safeEpoch state.lastRequestAtEpoch + provider.minimumIntervalSeconds ≤
      requestTime provider state now (awake provider call state now reading) := by
  have htarget : safeEpoch state.lastRequestAtEpoch + provider.minimumIntervalSeconds ≤ target provider state now :=
    le_max_right _ _
  unfold requestTime awake
  dsimp only
  split_ifs with hwait hclock
  · have := hslept ⟨hclock, hwait⟩
    linarith
  · exact htarget
  · exact htarget

/-! ## The invariant -/

/-- The process holds the lock. -/
def Holds : Phase → Prop
  | .idle | .waiting _ => False
  | .locked _ | .paced .. | .writing _ => True

/-- One process at most works on the file; what it has read is what is there, and what it is about to
write comes an interval after the last request. -/
structure Inv (provider : RpcProvider) (s : Pacing) : Prop where
  holder : ∀ p, Holds (s.phase p) → s.holder = some p
  paced : ∀ p call state now, s.phase p = .paced call state now → state = s.file
  writing : ∀ p state, s.phase p = .writing state →
    safeEpoch s.file.lastRequestAtEpoch + provider.minimumIntervalSeconds ≤ state.lastRequestAtEpoch
  granted : s.granted.IsChain fun a b => a + provider.minimumIntervalSeconds ≤ b
  last : ∀ t ∈ s.granted.getLast?, t ≤ safeEpoch s.file.lastRequestAtEpoch

namespace Inv

variable {provider : RpcProvider} {s : Pacing}

theorem initial (file : ProviderState) (clock : ℚ) : Inv provider (initial file clock) where
  holder _ h := False.elim h
  paced _ _ _ _ h := by cases h
  writing _ _ h := by cases h
  granted := .nil
  last _ h := by cases h

/-- A process goes on to a phase that suits the file. -/
theorem goto (h : Inv provider s) {p : Nat} {phase : Phase} {holder : Option Nat} {clock : ℚ}
    (hother : ∀ q ≠ p, Holds (s.phase q) → holder = some q) (hself : Holds phase → holder = some p)
    (hpaced : ∀ call state now, phase = .paced call state now → state = s.file)
    (hwriting : ∀ state, phase = .writing state →
      safeEpoch s.file.lastRequestAtEpoch + provider.minimumIntervalSeconds ≤ state.lastRequestAtEpoch) :
    Inv provider { s.goto p phase with holder := holder, clock := clock } where
  holder q hq := by
    by_cases hqp : q = p
    · subst hqp
      exact hself (by rwa [← phase_goto_self s q phase])
    · exact hother q hqp (by rwa [← phase_goto_of_ne s phase hqp])
  paced q call state now hq := by
    by_cases hqp : q = p
    · subst hqp
      exact hpaced call state now ((phase_goto_self s q phase).symm.trans hq)
    · exact h.paced q call state now ((phase_goto_of_ne s phase hqp).symm.trans hq)
  writing q state hq := by
    by_cases hqp : q = p
    · subst hqp
      exact hwriting state ((phase_goto_self s q phase).symm.trans hq)
    · exact h.writing q state ((phase_goto_of_ne s phase hqp).symm.trans hq)
  granted := h.granted
  last := h.last

theorem release (h : Inv provider s) (p : Nat) (clock : ℚ) : Inv provider { s.release p with clock := clock } := by
  refine h.goto (fun q hqp hq => ?_) False.elim (fun _ _ _ hphase => ?_) fun _ hphase => ?_
  · show (if s.holder = some p then none else s.holder) = some q
    rw [h.holder q hq, if_neg fun heq => hqp (Option.some.inj heq)]
  · cases hphase
  · cases hphase

end Inv

theorem inv_step {provider : RpcProvider} {s t : Pacing} {e : PacingEvent} (h : Inv provider s)
    (hstep : step provider s e = some t) : Inv provider t := by
  cases e with
  | request p call =>
    simp only [step] at hstep
    split at hstep <;> cases hstep
    exact h.goto (fun q _ => h.holder q) False.elim (fun _ _ _ hphase => by cases hphase)
      fun _ hphase => by cases hphase
  | acquire p =>
    simp only [step] at hstep
    split at hstep <;> cases hstep
    rename_i hfree
    refine h.goto (fun q _ hq => ?_) (fun _ => rfl) (fun _ _ _ hphase => by cases hphase)
      fun _ hphase => by cases hphase
    have := h.holder q hq
    rw [hfree] at this
    cases this
  | check p reading =>
    simp only [step] at hstep
    split at hstep <;> try cases hstep
    rename_i call hphase
    split_ifs at hstep
    have hholder := h.holder p (by rw [hphase]; trivial)
    split at hstep <;> cases hstep
    · exact h.release p reading
    · refine h.goto (fun q _ => h.holder q) (fun _ => hholder) (fun _ _ _ hpaced => ?_) fun _ hpaced => by cases hpaced
      cases hpaced
      rfl
  | pace p reading =>
    simp only [step] at hstep
    split at hstep <;> try cases hstep
    rename_i call state now hphase
    split_ifs at hstep with hslept
    have hholder := h.holder p (by rw [hphase]; trivial)
    have hread := h.paced p call state now hphase
    split at hstep <;> cases hstep
    rename_i reserved hreserved
    refine h.goto (fun q _ => h.holder q) (fun _ => hholder) (fun _ _ _ hw => by cases hw) fun _ hw => ?_
    cases hw
    rw [reserveProviderSlot_lastRequestAtEpoch hreserved, ← hread]
    exact interval_le_requestTime hslept.2
  | write p =>
    simp only [step] at hstep
    split at hstep <;> cases hstep
    rename_i state hphase
    have hholder := h.holder p (by rw [hphase]; trivial)
    -- whoever else works on the file holds the lock, and the writer does
    have hothers : ∀ q, Holds ((s.release p).phase q) → False := by
      intro q hq
      rw [phase_release] at hq
      split_ifs at hq with hqp
      · exact hq
      · exact hqp (Option.some.inj ((h.holder q hq).symm.trans hholder))
    have hnext := h.writing p state hphase
    constructor
    · exact fun q hq => (hothers q hq).elim
    · exact fun q call state now hq => (hothers q (by rw [show (s.release p).phase q = _ from hq]; trivial)).elim
    · exact fun q state hq => (hothers q (by rw [show (s.release p).phase q = _ from hq]; trivial)).elim
    · refine List.isChain_append.2 ⟨h.granted, .singleton _, ?_⟩
      rintro t ht _ ⟨⟩
      have := h.last t ht
      linarith
    · intro t ht
      rw [List.getLast?_concat] at ht
      cases ht
      exact le_max_right _ _
  | abandon p =>
    cases hstep
    exact h.release p s.clock
  | record outcome =>
    simp only [step] at hstep
    split_ifs at hstep with hfree
    cases hstep
    have hnone : ∀ q, Holds (s.phase q) → False := by
      intro q hq
      have := h.holder q hq
      rw [hfree] at this
      cases this
    constructor
    · exact h.holder
    · exact fun q call state now hq => (hnone q (by rw [show s.phase q = _ from hq]; trivial)).elim
    · exact fun q state hq => (hnone q (by rw [show s.phase q = _ from hq]; trivial)).elim
    · exact h.granted
    · rw [record_lastRequestAtEpoch]
      exact h.last

/-- Only a granted reservation changes the pace, and of a reservation's steps only its write changes the
file. -/
theorem file_of_granted_eq {provider : RpcProvider} {s t : Pacing} {e : PacingEvent}
    (hstep : step provider s e = some t) (hgranted : t.granted = s.granted) :
    t.file.lastRequestAtEpoch = s.file.lastRequestAtEpoch ∧ (reserves e → t.file = s.file) := by
  cases e with
  | request p call =>
    simp only [step] at hstep
    split at hstep <;> cases hstep
    exact ⟨rfl, fun _ => rfl⟩
  | acquire p =>
    simp only [step] at hstep
    split at hstep <;> cases hstep
    exact ⟨rfl, fun _ => rfl⟩
  | check p reading =>
    simp only [step] at hstep
    split at hstep <;> try cases hstep
    split_ifs at hstep
    split at hstep <;> cases hstep <;> exact ⟨rfl, fun _ => rfl⟩
  | pace p reading =>
    simp only [step] at hstep
    split at hstep <;> try cases hstep
    split_ifs at hstep
    split at hstep <;> cases hstep
    exact ⟨rfl, fun _ => rfl⟩
  | write p =>
    simp only [step] at hstep
    split at hstep <;> cases hstep
    simp at hgranted
  | abandon p =>
    cases hstep
    exact ⟨rfl, fun _ => rfl⟩
  | record outcome =>
    simp only [step] at hstep
    split_ifs at hstep
    cases hstep
    exact ⟨record_lastRequestAtEpoch outcome s.file, False.elim⟩

/-! ## Every run -/

end Pacing

end Aibot.Rpc
