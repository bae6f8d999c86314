/-
What one step of a call can do, said once: the steps that leave the files alone, the steps of the
call that holds the lock, and the ends.
-/
import Aibot.Store.Protocol

namespace Aibot.Store

open VersionedDocument Codec

variable {D χ ε ρ : Type*} [VersionedDocument D] [Codec D χ]

/-- The `finally` blocks that are left to run when the step at hand raises. -/
inductive Raises : Phase D χ ε ρ → Phase D χ ε ρ → Prop
  | waiting : Raises .waiting (.ended .failed)
  | opening : Raises .opening (.leaving .failed)
  | reading {i : Nat} {got : List χ} : Raises (.reading i got) (.leaving .failed)
  | loaded {d : D} : Raises (.loaded d) (.leaving .failed)
  | cleaning {a : Answer D ρ} {d : D} : Raises (.cleaning a d) (.leaving .failed)
  | writing {a : Answer D ρ} {d : D} {i : Nat} {todo : List χ} :
      Raises (.writing a d i todo) (.unwinding i .failed)
  | flushed {a : Answer D ρ} {d : D} {i : Nat} : Raises (.flushed a d i) (.unwinding i .failed)
  | unwinding {i : Nat} {o : Outcome D ε ρ} : Raises (.unwinding i o) (.leaving .failed)

/-- What a step of the call `c` does. -/
inductive CallStep (c : Nat) (r : Request D ε ρ) (f : Files χ) :
    Phase D χ ε ρ → CallEvent → Files χ → Phase D χ ε ρ → Option (Answer D ρ) → Prop
  | acquires : f.owner = none →
      CallStep c r f .waiting .acquire { f with owner := some c } .opening none
  | timesOut : CallStep c r f .waiting .timeout f (.ended .lockTimeout) none
  | findsNothing : f.path = none → CallStep c r f .opening .opens f (.loaded r.fallback) none
  | opens {i : Nat} : f.path = some i → CallStep c r f .opening .opens f (.reading i []) none
  | reads {i : Nat} {got : List χ} {x : χ} : (f.data i)[got.length]? = some x →
      CallStep c r f (.reading i got) .readFragment f (.reading i (got ++ [x])) none
  | loads {i : Nat} {got : List χ} {d : D} : got.length = (f.data i).length → load got = some d →
      CallStep c r f (.reading i got) .finishReading f (.loaded d) none
  | rejects {i : Nat} {got : List χ} : got.length = (f.data i).length → load (D := D) got = none →
      CallStep c r f (.reading i got) .finishReading f (.leaving .failed) none
  | refuses {d : D} {e : StoreError ε} : r.compute d = .error e →
      CallStep c r f (.loaded d) .compute f (.leaving (.refused e)) none
  | keeps {d : D} {a : Answer D ρ} : r.compute d = .ok (a, none) →
      CallStep c r f (.loaded d) .compute f (.leaving (.returned a)) (if r.locks then some a else none)
  | computes {d d' : D} {a : Answer D ρ} : r.compute d = .ok (a, some d') →
      CallStep c r f (.loaded d) .compute f (.cleaning a d') none
  | creates {a : Answer D ρ} {d : D} {stale : List Nat} :
      CallStep c r f (.cleaning a d) (.cleanUp stale) (f.createTemporary stale)
        (.writing a d f.nextInode (dump d).1) none
  | writes {a : Answer D ρ} {d : D} {i : Nat} {x : χ} {todo : List χ} :
      CallStep c r f (.writing a d i (x :: todo)) .writeFragment (f.append i x) (.writing a d i todo) none
  | flushes {a : Answer D ρ} {d : D} {i : Nat} : (dump d).2 = true →
      CallStep c r f (.writing a d i []) .finishWriting f (.flushed a d i) none
  | dumpRaises {a : Answer D ρ} {d : D} {i : Nat} : (dump d).2 = false →
      CallStep c r f (.writing a d i []) .finishWriting f (.unwinding i .notSerializable) none
  | replaces {a : Answer D ρ} {d : D} {i : Nat} : i ∈ f.temporaries →
      CallStep c r f (.flushed a d i) .replace (f.replace i) (.leaving (.returned a)) (some a)
  | unlinks {i : Nat} {o : Outcome D ε ρ} :
      CallStep c r f (.unwinding i o) .unlink (f.unlink i) (.leaving o) none
  | releases {o : Outcome D ε ρ} : CallStep c r f (.leaving o) .release (f.unlock c) (.ended o) none
  | raises {phase phase' : Phase D χ ε ρ} : Raises phase phase' →
      CallStep c r f phase .raises f phase' none
  | releaseRaises {o : Outcome D ε ρ} :
      CallStep c r f (.leaving o) .raises (f.unlock c) (.ended .failed) none
  | crashes {phase : Phase D χ ε ρ} : CallStep c r f phase .crash (f.unlock c) .crashed none

theorem stepCall_cases {c : Nat} {r : Request D ε ρ} {f f' : Files χ} {phase phase' : Phase D χ ε ρ}
    {event : CallEvent} {effect : Option (Answer D ρ)}
    (h : stepCall c r f phase event = some (f', phase', effect)) :
    CallStep c r f phase event f' phase' effect := by
  cases phase with
  | waiting =>
    cases event <;> simp only [stepCall, reduceCtorEq] at h
    case acquire => split_ifs at h with hfree; cases h; exact .acquires hfree
    case timeout => cases h; exact .timesOut
    case raises => cases h; exact .raises .waiting
    case crash => cases h; exact .crashes
  | opening =>
    cases event <;> simp only [stepCall, reduceCtorEq] at h
    case opens =>
      cases hp : f.path with
      | none => rw [hp] at h; cases h; exact .findsNothing hp
      | some i => rw [hp] at h; cases h; exact .opens hp
    case raises => cases h; exact .raises .opening
    case crash => cases h; exact .crashes
  | reading i got =>
    cases event <;> simp only [stepCall, reduceCtorEq] at h
    case readFragment =>
      obtain ⟨x, hx, h⟩ := Option.map_eq_some_iff.1 h
      cases h; exact .reads hx
    case finishReading =>
      split_ifs at h with hlen
      cases hl : load (D := D) got with
      | none => rw [hl] at h; cases h; exact .rejects hlen hl
      | some d => rw [hl] at h; cases h; exact .loads hlen hl
    case raises => cases h; exact .raises .reading
    case crash => cases h; exact .crashes
  | loaded d =>
    cases event <;> simp only [stepCall, reduceCtorEq] at h
    case compute =>
      split at h
      · rename_i hc; cases h; exact .refuses hc
      · rename_i hc; cases h; exact .keeps hc
      · rename_i hc; cases h; exact .computes hc
    case raises => cases h; exact .raises .loaded
    case crash => cases h; exact .crashes
  | cleaning a d =>
    cases event <;> simp only [stepCall, reduceCtorEq] at h
    case cleanUp => cases h; exact .creates
    case raises => cases h; exact .raises .cleaning
    case crash => cases h; exact .crashes
  | writing a d i todo =>
    cases todo <;> cases event <;> simp only [stepCall, reduceCtorEq] at h
    case nil.finishWriting =>
      split_ifs at h with hd
      · cases h; exact .flushes hd
      · cases h; exact .dumpRaises (by simpa using hd)
    case cons.writeFragment => cases h; exact .writes
    case nil.raises | cons.raises => cases h; exact .raises .writing
    case nil.crash | cons.crash => cases h; exact .crashes
  | flushed a d i =>
    cases event <;> simp only [stepCall, reduceCtorEq] at h
    case replace => split_ifs at h with hi; cases h; exact .replaces hi
    case raises => cases h; exact .raises .flushed
    case crash => cases h; exact .crashes
  | unwinding i o =>
    cases event <;> simp only [stepCall, reduceCtorEq] at h
    case unlink => cases h; exact .unlinks
    case raises => cases h; exact .raises .unwinding
    case crash => cases h; exact .crashes
  | leaving o =>
    cases event <;> simp only [stepCall, reduceCtorEq] at h
    case release => cases h; exact .releases
    case raises => cases h; exact .releaseRaises
    case crash => cases h; exact .crashes
  | ended o => cases event <;> simp only [stepCall, reduceCtorEq] at h
  | crashed => cases event <;> simp only [stepCall, reduceCtorEq] at h

end Aibot.Store
