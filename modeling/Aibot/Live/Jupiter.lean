/-
The pace of the Jupiter requests of all processes: slots that sleep while they hold the lock of the file,
and cooldowns that any process publishes under the same lock. Between any two of their steps any other
process takes a step, and any process raises or dies.
-/
import Aibot.Lib.Run

namespace Aibot.Live.Jupiter

/-! ## The file -/

/-- The document of the rate limit; what is missing or null counts as zero. -/
structure RateLimit where
  lastRequestAtEpoch : Option ℚ
  notBeforeEpoch : Option ℚ
  deriving DecidableEq

namespace RateLimit

variable (state : RateLimit)

def lastRequest : ℚ := state.lastRequestAtEpoch.getD 0

def notBefore : ℚ := state.notBeforeEpoch.getD 0

/-- The time up to which a slot sleeps. -/
def target (interval now : ℚ) : ℚ := max now (max (state.lastRequest + interval) state.notBefore)

/-- What a slot writes: its request time, and no cooldown where that is over. -/
def request (requestAt : ℚ) : RateLimit where
  lastRequestAtEpoch := some requestAt
  notBeforeEpoch := if state.notBefore ≤ requestAt then some 0 else state.notBeforeEpoch

/-- `_defer_jupiter_until_sync`, under the lock. -/
def defer (notBeforeEpoch : ℚ) : RateLimit :=
  { state with notBeforeEpoch := some (max state.notBefore notBeforeEpoch) }

end RateLimit

/-- `JUPITER_RATE_LIMIT_FALLBACK`. -/
def fallback : RateLimit := ⟨some 0, some 0⟩

/-! ## The processes -/

inductive Call
  /-- `_wait_for_jupiter_slot_sync(interval_seconds)`. -/
  | waitForSlot (intervalSeconds : ℚ)
  /-- `_defer_jupiter_until_sync(not_before_epoch)`. -/
  | deferUntil (notBeforeEpoch : ℚ)
  deriving DecidableEq

/-- Where a process is in its call. -/
inductive Phase
  | idle
  /-- It polls the lock. -/
  | waiting (call : Call)
  /-- It holds the lock since the cooldowns `published`, and has not read the file. -/
  | locked (call : Call) (published : List ℚ)
  /-- Its slot has read the file at `now`, and sleeps until its turn. -/
  | sleeping (intervalSeconds : ℚ) (published : List ℚ) (state : RateLimit) (now : ℚ)
  /-- Its slot is awake, with the file to write. -/
  | requesting (intervalSeconds : ℚ) (published : List ℚ) (state : RateLimit) (requestAt : ℚ)
  /-- Its cooldown has read the file. -/
  | deferring (notBeforeEpoch : ℚ) (state : RateLimit)

/-- A request time that a slot has granted, with its interval and the cooldowns that were published before
it took the lock. -/
structure Grant where
  intervalSeconds : ℚ
  requestAt : ℚ
  published : List ℚ
  deriving DecidableEq

structure Slots where
  file : RateLimit
  /-- The process that holds the lock of the file. -/
  holder : Option Nat
  phase : Nat → Phase
  /-- The latest reading of the clock. -/
  clock : ℚ
  /-- The request times that the slots have granted, in order. -/
  granted : List Grant
  /-- The cooldowns that have been published, in order. -/
  published : List ℚ

inductive Event
  /-- A process starts a call. -/
  | call (process : Nat) (call : Call)
  /-- It gets the lock. -/
  | acquire (process : Nat)
  /-- It reads the file, and a slot the clock. -/
  | read (process : Nat) (reading : ℚ)
  /-- Its slot is awake and reads the clock again. -/
  | wake (process : Nat) (reading : ℚ)
  /-- It writes the file and lets go of the lock. -/
  | write (process : Nat)
  /-- It raises or dies; the system lets go of its lock. -/
  | abandon (process : Nat)

namespace Slots

/-- Any file, any clock, and no call under way. -/
def initial (file : RateLimit) (clock : ℚ) : Slots := ⟨file, none, fun _ => .idle, clock, [], []⟩

/-- The process goes on to a phase. -/
def goto (s : Slots) (process : Nat) (phase : Phase) : Slots :=
  { s with phase := Function.update s.phase process phase }

/-- The process is done, and lets go of the lock if it holds it. -/
def release (s : Slots) (process : Nat) : Slots :=
  { s.goto process .idle with holder := if s.holder = some process then none else s.holder }

/-- One step of whichever process. The clock never runs back, and a sleep is no shorter than it was asked
to be. -/
def step (s : Slots) : Event → Option Slots
  | .call p call =>
    match s.phase p with
    | .idle => some (s.goto p (.waiting call))
    | _ => none
  | .acquire p =>
    match s.phase p, s.holder with
    | .waiting call, none => some { s.goto p (.locked call s.published) with holder := some p }
    | _, _ => none
  | .read p reading =>
    match s.phase p with
    | .locked (.waitForSlot interval) published =>
      if s.clock ≤ reading then
        some { s.goto p (.sleeping interval published s.file reading) with clock := reading }
      else none
    | .locked (.deferUntil notBefore) _ => some (s.goto p (.deferring notBefore s.file))
    | _ => none
  | .wake p reading =>
    match s.phase p with
    | .sleeping interval published state now =>
      -- no delay, no sleep
      let delay := max 0 (state.target interval now - now)
      if s.clock ≤ reading ∧ now + delay ≤ reading then
        some { s.goto p (.requesting interval published (state.request reading) reading) with clock := reading }
      else none
    | _ => none
  | .write p =>
    match s.phase p with
    | .requesting interval published state requestAt =>
      some { s.release p with file := state, granted := s.granted ++ [⟨interval, requestAt, published⟩] }
    | .deferring notBefore state =>
      some { s.release p with file := state.defer notBefore, published := s.published ++ [notBefore] }
    | _ => none
  | .abandon p => some (s.release p)

/-! ## The parts of a step -/

@[simp] theorem phase_goto_self (s : Slots) (p : Nat) (phase : Phase) : (s.goto p phase).phase p = phase :=
  Function.update_self ..

theorem phase_goto_of_ne (s : Slots) {p q : Nat} (phase : Phase) (h : q ≠ p) : (s.goto p phase).phase q = s.phase q :=
  Function.update_of_ne h ..

theorem phase_release (s : Slots) (p q : Nat) : (s.release p).phase q = if q = p then .idle else s.phase q := by
  unfold release goto
  by_cases h : q = p
  · subst h
    simp
  · simp [h]

/-! ## The invariant -/

/-- The process holds the lock. -/
def Holds : Phase → Prop
  | .idle | .waiting _ => False
  | .locked .. | .sleeping .. | .requesting .. | .deferring .. => True

/-- What a process has read is what is there; a request time that it is about to grant comes an interval
after the last one, and after every cooldown. -/
def Fits (s : Slots) : Phase → Prop
  | .idle | .waiting _ => True
  | .locked _ published => published ⊆ s.published
  | .sleeping _ published state _ => published ⊆ s.published ∧ state = s.file
  | .requesting interval published state requestAt => published ⊆ s.published ∧ state = s.file.request requestAt ∧
      s.file.lastRequest + interval ≤ requestAt ∧ s.file.notBefore ≤ requestAt ∧ requestAt ≤ s.clock ∧
      (∀ d ∈ s.published, d ≤ requestAt) ∧ ∀ g ∈ s.granted, g.requestAt ≤ requestAt
  | .deferring _ state => state = s.file

structure Inv (s : Slots) : Prop where
  holder : ∀ p, Holds (s.phase p) → s.holder = some p
  fits : ∀ p, s.Fits (s.phase p)
  /-- No request time after the last one in the file, nor after the clock. -/
  last : ∀ g ∈ s.granted, g.requestAt ≤ s.file.lastRequest ∧ g.requestAt ≤ s.clock
  /-- A cooldown is in the file until it is over. -/
  cooldown : ∀ d ∈ s.published, d ≤ s.file.notBefore ∨ d ≤ s.clock
  apart : s.granted.Pairwise fun a b => a.requestAt + b.intervalSeconds ≤ b.requestAt
  after : ∀ g ∈ s.granted, ∀ d ∈ g.published, d ≤ g.requestAt

theorem Fits.of_not_holds {s : Slots} {phase : Phase} (h : ¬ Holds phase) : s.Fits phase := by
  cases phase <;> first | trivial | exact absurd trivial h

/-- Later on, with the same file, and the same cooldowns and grants. -/
theorem Fits.later {s t : Slots} {phase : Phase} (h : s.Fits phase) (hfile : t.file = s.file)
    (hpublished : t.published = s.published) (hgranted : t.granted = s.granted) (hclock : s.clock ≤ t.clock) :
    t.Fits phase := by
  cases phase with
  | idle | waiting _ => trivial
  | locked call published =>
    unfold Fits at h ⊢
    rwa [hpublished]
  | deferring notBefore state => exact h.trans hfile.symm
  | sleeping interval published state now =>
    unfold Fits at h ⊢
    rwa [hpublished, hfile]
  | requesting interval published state requestAt =>
    obtain ⟨hpub, hstate, hlast, hnot, hnow, hover, hgrants⟩ := h
    unfold Fits
    rw [hfile, hpublished, hgranted]
    exact ⟨hpub, hstate, hlast, hnot, hnow.trans hclock, hover, hgrants⟩

namespace Inv

variable {s : Slots}

theorem initial (file : RateLimit) (clock : ℚ) : Inv (initial file clock) where
  holder _ h := False.elim h
  fits _ := trivial
  last _ h := absurd h List.not_mem_nil
  cooldown _ h := absurd h List.not_mem_nil
  apart := .nil
  after _ h := absurd h List.not_mem_nil

/-- A process goes on to a phase that suits the file, and the clock goes on. -/
theorem goto (h : Inv s) {p : Nat} {phase : Phase} {holder : Option Nat} {clock : ℚ} (hclock : s.clock ≤ clock)
    (hother : ∀ q ≠ p, Holds (s.phase q) → holder = some q) (hself : Holds phase → holder = some p)
    (hfits : Fits { s with clock := clock } phase) :
    Inv { s.goto p phase with holder := holder, clock := clock } where
  holder q hq := by
    by_cases hqp : q = p
    · subst hqp
      exact hself (by rwa [← phase_goto_self s q phase])
    · exact hother q hqp (by rwa [← phase_goto_of_ne s phase hqp])
  fits q := by
    by_cases hqp : q = p
    · subst hqp
      rw [show Slots.phase { s.goto q phase with holder := holder, clock := clock } q = phase from phase_goto_self ..]
      exact hfits.later rfl rfl rfl le_rfl
    · rw [show Slots.phase { s.goto p phase with holder := holder, clock := clock } q = s.phase q from
        phase_goto_of_ne s phase hqp]
      exact (h.fits q).later rfl rfl rfl hclock
  last g hg := ⟨(h.last g hg).1, (h.last g hg).2.trans hclock⟩
  cooldown d hd := (h.cooldown d hd).imp_right (·.trans hclock)
  apart := h.apart
  after := h.after

theorem release (h : Inv s) (p : Nat) : Inv (s.release p) := by
  refine h.goto le_rfl (fun q hqp hq => ?_) False.elim trivial
  show (if s.holder = some p then none else s.holder) = some q
  rw [h.holder q hq, if_neg fun heq => hqp (Option.some.inj heq)]

/-- The process that works on the file is the only one. -/
theorem alone (h : Inv s) {p : Nat} (hp : Holds (s.phase p)) (q : Nat) : ¬ Holds ((s.release p).phase q) := by
  rw [phase_release]
  split_ifs with hqp
  · exact id
  · intro hq
    exact hqp (Option.some.inj ((h.holder q hq).symm.trans (h.holder p hp)))

end Inv

theorem inv_step {s t : Slots} {e : Event} (h : Inv s) (hstep : step s e = some t) : Inv t := by
  cases e with
  | call p call =>
    simp only [step] at hstep
    split at hstep <;> cases hstep
    exact h.goto le_rfl (fun q _ => h.holder q) False.elim trivial
  | acquire p =>
    simp only [step] at hstep
    split at hstep <;> cases hstep
    rename_i hfree
    refine h.goto le_rfl (fun q _ hq => ?_) (fun _ => rfl) (List.Subset.refl _)
    have := h.holder q hq
    rw [hfree] at this
    cases this
  | read p reading =>
    simp only [step] at hstep
    split at hstep
    · rename_i interval published hphase
      have hfits := h.fits p
      rw [hphase] at hfits
      have hholder := h.holder p (by rw [hphase]; trivial)
      split_ifs at hstep with hclock
      cases hstep
      exact h.goto hclock (fun q _ => h.holder q) (fun _ => hholder) ⟨hfits, rfl⟩
    · rename_i notBefore published hphase
      have hholder := h.holder p (by rw [hphase]; trivial)
      cases hstep
      exact h.goto le_rfl (fun q _ => h.holder q) (fun _ => hholder) rfl
    · cases hstep
  | wake p reading =>
    simp only [step] at hstep
    split at hstep <;> try cases hstep
    rename_i interval published state now hphase
    have hfits := h.fits p
    rw [hphase] at hfits
    obtain ⟨hpub, rfl⟩ := hfits
    have hholder := h.holder p (by rw [hphase]; trivial)
    split_ifs at hstep with hslept
    cases hstep
    obtain ⟨hclock, hslept⟩ := hslept
    have htarget : s.file.target interval now ≤ reading := by
      have := le_max_right 0 (s.file.target interval now - now)
      linarith
    have hlast : s.file.lastRequest + interval ≤ reading :=
      ((le_max_left _ _).trans (le_max_right _ _)).trans htarget
    have hnot : s.file.notBefore ≤ reading := ((le_max_right _ _).trans (le_max_right _ _)).trans htarget
    have hover : ∀ d ∈ s.published, d ≤ reading := fun d hd =>
      (h.cooldown d hd).elim (·.trans hnot) (·.trans hclock)
    have hgrants : ∀ g ∈ s.granted, g.requestAt ≤ reading := fun g hg => (h.last g hg).2.trans hclock
    exact h.goto hclock (fun q _ => h.holder q) (fun _ => hholder)
      ⟨hpub, rfl, hlast, hnot, le_rfl, hover, hgrants⟩
  | write p =>
    simp only [step] at hstep
    split at hstep
    · rename_i interval published state requestAt hphase
      have halone := h.alone (p := p) (by rw [hphase]; trivial)
      have hfits := h.fits p
      rw [hphase] at hfits
      obtain ⟨hpub, rfl, hlast, hnot, hnow, hover, hgrants⟩ := hfits
      cases hstep
      constructor
      · exact fun q hq => absurd hq (halone q)
      · exact fun q => .of_not_holds (halone q)
      · intro g hg
        rcases List.mem_append.1 hg with hg | hg
        · exact ⟨hgrants g hg, (h.last g hg).2⟩
        · obtain rfl := List.mem_singleton.1 hg
          exact ⟨le_rfl, hnow⟩
      · exact fun d hd => .inr ((hover d hd).trans hnow)
      · refine List.pairwise_append.2 ⟨h.apart, List.pairwise_singleton _ _, fun g hg g' hg' => ?_⟩
        obtain rfl := List.mem_singleton.1 hg'
        have := (h.last g hg).1
        show g.requestAt + interval ≤ requestAt
        linarith
      · intro g hg
        rcases List.mem_append.1 hg with hg | hg
        · exact h.after g hg
        · obtain rfl := List.mem_singleton.1 hg
          exact fun d hd => hover d (hpub hd)
    · rename_i notBefore state hphase
      have halone := h.alone (p := p) (by rw [hphase]; trivial)
      have hfits := h.fits p
      rw [hphase] at hfits
      obtain rfl := hfits
      cases hstep
      constructor
      · exact fun q hq => absurd hq (halone q)
      · exact fun q => .of_not_holds (halone q)
      · exact h.last
      · intro d hd
        rcases List.mem_append.1 hd with hd | hd
        · exact (h.cooldown d hd).imp_left (·.trans (le_max_left _ _))
        · obtain rfl := List.mem_singleton.1 hd
          exact .inl (le_max_right _ _)
      · exact h.apart
      · exact h.after
    · cases hstep
  | abandon p =>
    cases hstep
    exact h.release p

/-! ## Every run -/

/-- Organisation-wide pacing: in every run, from any file, a slot grants a request time a whole interval
after those of all slots before it, and none earlier than a cooldown that was published before the slot
took the lock. -/
theorem slots_apart (file : RateLimit) (clock : ℚ) {es : List Event} {s : Slots}
    (h : Run step Run.anyStep (initial file clock) es s) :
    (s.granted.Pairwise fun a b => a.requestAt + b.intervalSeconds ≤ b.requestAt) ∧
      ∀ g ∈ s.granted, ∀ d ∈ g.published, d ≤ g.requestAt := by
  have hinv : Inv s := h.invariant (P := Inv) (fun s e t hi _ he => inv_step hi he) (Inv.initial file clock)
  exact ⟨hinv.apart, hinv.after⟩

/-- A slot, a cooldown of three seconds, and a slot that sleeps until it is over. -/
def twoSlots : List Event :=
  [.call 0 (.waitForSlot (5 / 4)), .call 1 (.deferUntil 103), .call 2 (.waitForSlot (5 / 4)), .acquire 0, .read 0 100,
    .wake 0 100, .write 0, .acquire 1, .read 1 100, .write 1, .acquire 2, .read 2 101, .wake 2 103, .write 2]

theorem slots_apart_two : ∃ s, Run step Run.anyStep (initial fallback 100) twoSlots s ∧
    s.granted = [⟨5 / 4, 100, []⟩, ⟨5 / 4, 103, [103]⟩] ∧
    (s.granted.Pairwise fun a b => a.requestAt + b.intervalSeconds ≤ b.requestAt) ∧
      ∀ g ∈ s.granted, ∀ d ∈ g.published, d ≤ g.requestAt := by
  have hrun : ∃ s, Run step Run.anyStep (initial fallback 100) twoSlots s ∧
      s.granted = [⟨5 / 4, 100, []⟩, ⟨5 / 4, 103, [103]⟩] := by
    apply Run.exists_of_any
    decide +kernel
  obtain ⟨s, hs, hgranted⟩ := hrun
  exact ⟨s, hs, hgranted, slots_apart fallback 100 hs⟩

end Slots

end Aibot.Live.Jupiter
