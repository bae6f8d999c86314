/-
Runs of a guarded step function: `step s e = some t` when the event `e` can happen in `s` and
leads to `t`. A run carries a condition on each of its steps, read in the state before the step,
so one notion serves for every run and for the runs whose steps all meet a condition.
-/
import Mathlib.Tactic

namespace Aibot

variable {σ ε : Type*}

/-- `Run step ok s es t`: the events `es` lead from `s` to `t`, and each meets `ok` where it
happens. -/
inductive Run (step : σ → ε → Option σ) (ok : σ → ε → Prop) : σ → List ε → σ → Prop
  | nil (s : σ) : Run step ok s [] s
  | cons {s t u : σ} {e : ε} {es : List ε} :
      ok s e → step s e = some t → Run step ok t es u → Run step ok s (e :: es) u

/-- Execute a list of events. -/
def exec (step : σ → ε → Option σ) : σ → List ε → Option σ
  | s, [] => some s
  | s, e :: es => (step s e).bind fun t => exec step t es

/-- A step that is taken only where it meets the condition. -/
def guarded (step : σ → ε → Option σ) (ok : σ → ε → Prop) [∀ s e, Decidable (ok s e)] (s : σ) (e : ε) :
    Option σ :=
  if ok s e then step s e else none

namespace Run

variable {step : σ → ε → Option σ} {ok ok' : σ → ε → Prop}

/-- The condition that every step meets. -/
def anyStep (_ : σ) (_ : ε) : Prop := True

instance (s : σ) (e : ε) : Decidable (anyStep s e) := .isTrue trivial

/-- An invariant kept by every step that meets the condition holds at the end of a run. -/
theorem invariant {P : σ → Prop} (hstep : ∀ s e t, P s → ok s e → step s e = some t → P t)
    {s t : σ} {es : List ε} (h : Run step ok s es t) (hs : P s) : P t := by
  induction h with
  | nil _ => exact hs
  | cons hok he _ ih => exact ih (hstep _ _ _ hs hok he)

/-- What holds before every step after which it holds, holds at the start of a run at whose end it
holds. -/
theorem back {P : σ → Prop} (hstep : ∀ s e t, step s e = some t → P t → P s) {s t : σ} {es : List ε}
    (h : Run step ok s es t) (ht : P t) : P s := by
  induction h with
  | nil _ => exact ht
  | cons _ he _ ih => exact hstep _ _ _ he (ih ht)

/-- One run after another. -/
theorem append {s t u : σ} {es es' : List ε} (h : Run step ok s es t) (h' : Run step ok t es' u) :
    Run step ok s (es ++ es') u := by
  induction h with
  | nil _ => exact h'
  | cons hc hs _ ih => exact .cons hc hs (ih h')

/-- One more step. -/
theorem concat {s t u : σ} {es : List ε} {e : ε} (h : Run step ok s es t) (hok : ok t e)
    (he : step t e = some u) : Run step ok s (es ++ [e]) u :=
  h.append (.cons hok he (.nil u))

/-- A run whose steps meet a condition is a run whose steps meet a weaker one. -/
theorem weaken (hok : ∀ s e, ok s e → ok' s e) {s t : σ} {es : List ε} (h : Run step ok s es t) :
    Run step ok' s es t := by
  induction h with
  | nil s => exact .nil s
  | cons hc he _ ih => exact .cons (hok _ _ hc) he ih

/-- A run is one under any condition that each of its events meets in every state. -/
theorem of_forall_mem {s t : σ} {es : List ε} (h : Run step ok s es t)
    (hok : ∀ e ∈ es, ∀ s, ok' s e) : Run step ok' s es t := by
  induction h with
  | nil s => exact .nil s
  | cons _ he _ ih =>
    exact .cons (hok _ List.mem_cons_self _) he (ih fun e hmem => hok e (List.mem_cons_of_mem _ hmem))

/-- A law that a step keeps exactly when it meets the condition, and that holds before every state in
which it holds: it holds at the end of a run exactly when every step meets the condition. -/
theorem law_iff (Inv Law : σ → Prop) (hinv : ∀ s e t, Inv s → step s e = some t → Inv t)
    (hback : ∀ s e t, step s e = some t → Law t → Law s)
    (hiff : ∀ s e t, Inv s → Law s → step s e = some t → (Law t ↔ ok s e)) {s t : σ} {es : List ε}
    (h : Run step anyStep s es t) (hi : Inv s) (hl : Law s) : Law t ↔ Run step ok s es t := by
  induction h with
  | nil s => exact ⟨fun _ => .nil s, fun _ => hl⟩
  | @cons s u t e es _ hstep hrest ih =>
    have hi' := hinv s e u hi hstep
    constructor
    · intro hlaw
      have hu : Law u := hrest.back hback hlaw
      exact .cons ((hiff s e u hi hl hstep).1 hu) hstep ((ih hi' hu).1 hlaw)
    · intro hrun
      cases hrun with
      | cons hok hstep' hrun' =>
        obtain rfl := Option.some.inj (hstep.symm.trans hstep')
        exact (ih hi' ((hiff s e u hi hl hstep).2 hok)).2 hrun'

/-- An execution that checks the condition before every step is a run. -/
theorem of_guarded [∀ s e, Decidable (ok s e)] : ∀ {es : List ε} {s t : σ},
    exec (guarded step ok) s es = some t → Run step ok s es t
  | [], s, t, h => by cases h; exact .nil s
  | e :: es, s, t, h => by
    unfold exec at h
    obtain ⟨u, hu, h⟩ := Option.bind_eq_some_iff.1 h
    unfold guarded at hu
    split_ifs at hu with hok
    exact .cons hok hu (of_guarded h)

/-- A run to a state with a property, found by executing it. -/
theorem exists_of_any [∀ s e, Decidable (ok s e)] {P : σ → Prop} [DecidablePred P] {s : σ} {es : List ε}
    (h : (exec (guarded step ok) s es).any (P ·) = true) : ∃ t, Run step ok s es t ∧ P t := by
  obtain ⟨t, ht, hp⟩ := (Option.any_eq_true _ _).1 h
  exact ⟨t, of_guarded ht, of_decide_eq_true hp⟩

end Run

/-- What a family of tasks holds after one of its places was written. -/
theorem update_eq_some {κ α : Type*} [DecidableEq κ] {f : κ → Option α} {k j : κ} {v : Option α} {a : α}
    (h : Function.update f k v j = some a) : j = k ∧ v = some a ∨ j ≠ k ∧ f j = some a := by
  by_cases hj : j = k
  · subst hj; rw [Function.update_self] at h; exact .inl ⟨rfl, h⟩
  · rw [Function.update_of_ne hj] at h; exact .inr ⟨hj, h⟩

end Aibot
