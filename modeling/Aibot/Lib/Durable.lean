/-
Programs over a durable state that may be cut off: a program passes states, one before each of its writes,
and a cut leaves it in one of them. What a program returns, and rules for what every state on the way satisfies.
-/
import Mathlib.Tactic

namespace Aibot

/-- What a program has done: the states before its writes, the state after them, and its result. -/
structure Ran (σ ε α : Type) where
  visited : List σ
  final : σ
  result : Except ε α

def Durable (σ ε α : Type) := σ → Ran σ ε α

namespace Durable

variable {σ ε α β : Type}

/-- Nothing is read or written. -/
def lift (x : Except ε α) : Durable σ ε α := fun s => ⟨[], s, x⟩

def andThen (m : Durable σ ε α) (f : α → Durable σ ε β) : Durable σ ε β := fun s =>
  match (m s).result with
  | .ok a => ⟨(m s).visited ++ (f a (m s).final).visited, (f a (m s).final).final, (f a (m s).final).result⟩
  | .error e => ⟨(m s).visited, (m s).final, .error e⟩

instance monad : Monad (Durable σ ε) where
  pure a := lift (.ok a)
  bind := andThen

def raise (e : ε) : Durable σ ε α := lift (.error e)

def read (f : σ → Except ε α) : Durable σ ε α := fun s => ⟨[], s, f s⟩

def write (f : σ → σ) : Durable σ ε Unit := fun s => ⟨[s], f s, .ok ()⟩

/-- The states in which a cut leaves the program, and that after its end. -/
def cuts (m : Durable σ ε α) (s : σ) : List σ := (m s).visited ++ [(m s).final]

/-! ## What a program returns -/

/-- The program returns the value and leaves the second state. -/
def Returns (m : Durable σ ε α) (s : σ) (a : α) (s' : σ) : Prop := (m s).result = .ok a ∧ (m s).final = s'

section Returns

variable {m : Durable σ ε α} {f : α → Durable σ ε β} {s s' : σ} {a : α} {b : β}

theorem returns_lift {x : Except ε α} : Returns (lift x) s a s' ↔ x = .ok a ∧ s = s' := Iff.rfl

theorem returns_pure {a' : α} : Returns (pure a' : Durable σ ε α) s a s' ↔ a' = a ∧ s = s' := by
  show (Except.ok a' : Except ε α) = .ok a ∧ s = s' ↔ _
  rw [Except.ok.injEq]

theorem returns_read {g : σ → Except ε α} : Returns (read g) s a s' ↔ g s = .ok a ∧ s = s' := Iff.rfl

theorem returns_write {g : σ → σ} {u : Unit} : Returns (write g : Durable σ ε Unit) s u s' ↔ g s = s' :=
  ⟨fun h => h.2, fun h => ⟨rfl, h⟩⟩

theorem not_returns_raise {e : ε} : ¬ Returns (raise e : Durable σ ε α) s a s' := fun h => by cases h.1

theorem returns_bind : Returns (m >>= f) s b s' ↔ ∃ a t, Returns m s a t ∧ Returns (f a) t b s' := by
  show Returns (andThen m f) s b s' ↔ _
  unfold Returns andThen
  cases hm : (m s).result with
  | ok a =>
    constructor
    · exact fun h => ⟨a, _, ⟨rfl, rfl⟩, h⟩
    · rintro ⟨a', t, ⟨ha, rfl⟩, h⟩
      cases ha
      exact h
  | error e =>
    constructor
    · rintro ⟨h, -⟩
      cases h
    · rintro ⟨a', t, ⟨ha, -⟩, -⟩
      cases ha

theorem returns_of_toBool (h : (m s).result.toBool = true) : ∃ a, Returns m s a (m s).final := by
  cases hr : (m s).result with
  | ok a => exact ⟨a, hr, rfl⟩
  | error e =>
    rw [hr] at h
    cases h

end Returns

/-! ## Every state on the way -/

/-- The program returns a value, with the second condition on it and on the state it leaves, and every state
before a write satisfies the first condition. -/
structure Meets (m : Durable σ ε α) (s : σ) (inv : σ → Prop) (post : α → σ → Prop) : Prop where
  returns : ∃ a s', Returns m s a s' ∧ post a s'
  visited : ∀ v ∈ (m s).visited, inv v

section Meets

variable {m : Durable σ ε α} {f : α → Durable σ ε β} {s : σ} {inv : σ → Prop} {post post' : α → σ → Prop}
  {post₂ : β → σ → Prop}

theorem meets_pure {a : α} (h : post a s) : Meets (pure a : Durable σ ε α) s inv post :=
  ⟨⟨a, s, ⟨rfl, rfl⟩, h⟩, fun _ hv => absurd hv List.not_mem_nil⟩

theorem meets_lift {x : Except ε α} {a : α} (hx : x = .ok a) (h : post a s) : Meets (lift x) s inv post :=
  ⟨⟨a, s, ⟨hx, rfl⟩, h⟩, fun _ hv => absurd hv List.not_mem_nil⟩

theorem meets_read {g : σ → Except ε α} {a : α} (hg : g s = .ok a) (h : post a s) : Meets (read g) s inv post :=
  ⟨⟨a, s, ⟨hg, rfl⟩, h⟩, fun _ hv => absurd hv List.not_mem_nil⟩

theorem meets_write {g : σ → σ} {post : Unit → σ → Prop} (hs : inv s) (h : post () (g s)) :
    Meets (write g : Durable σ ε Unit) s inv post :=
  ⟨⟨(), g s, ⟨rfl, rfl⟩, h⟩, fun v hv => by rwa [List.mem_singleton.1 (show v ∈ [s] from hv)]⟩

theorem meets_bind (hm : Meets m s inv post) (hf : ∀ a s', post a s' → Meets (f a) s' inv post₂) :
    Meets (m >>= f) s inv post₂ := by
  obtain ⟨a, s', hreturns, hpost⟩ := hm.returns
  obtain ⟨b, s'', hreturns', hpost'⟩ := (hf a s' hpost).returns
  refine ⟨⟨b, s'', returns_bind.2 ⟨a, s', hreturns, hreturns'⟩, hpost'⟩, fun v hv => ?_⟩
  obtain ⟨hresult, rfl⟩ := hreturns
  have hvisited : ((m >>= f) s).visited = (m s).visited ++ (f a (m s).final).visited := by
    show (andThen m f s).visited = _
    unfold andThen
    rw [hresult]
  rw [hvisited, List.mem_append] at hv
  rcases hv with hv | hv
  · exact hm.visited v hv
  · exact (hf a _ hpost).visited v hv

theorem meets_lift_bind {x : Except ε α} {a : α} (hx : x = .ok a) (h : Meets (f a) s inv post₂) :
    Meets (lift x >>= f) s inv post₂ := by
  have hlift : Meets (lift x) s inv fun b s' => b = a ∧ s' = s := meets_lift hx ⟨rfl, rfl⟩
  refine meets_bind hlift fun b s' hb => ?_
  rw [hb.1, hb.2]
  exact h

theorem meets_read_bind {g : σ → Except ε α} {a : α} (hg : g s = .ok a) (h : Meets (f a) s inv post₂) :
    Meets (read g >>= f) s inv post₂ := by
  have hread : Meets (read g) s inv fun b s' => b = a ∧ s' = s := meets_read hg ⟨rfl, rfl⟩
  refine meets_bind hread fun b s' hb => ?_
  rw [hb.1, hb.2]
  exact h

/-- What a program returns is what it meets. -/
theorem Meets.of_returns {a : α} {s' : σ} (h : Meets m s inv post) (hr : Returns m s a s') : post a s' := by
  obtain ⟨b, t, ⟨hresult, rfl⟩, hpost⟩ := h.returns
  obtain ⟨hresult', rfl⟩ := hr
  rw [hresult] at hresult'
  rwa [← Except.ok.inj hresult']

/-- A cut leaves the program before a write or after its end. -/
theorem Meets.of_mem_cuts {v : σ} (h : Meets m s inv post) (hv : v ∈ cuts m s) :
    inv v ∨ ∃ a, Returns m s a v ∧ post a v := by
  rcases List.mem_append.1 hv with hv | hv
  · exact .inl (h.visited v hv)
  · obtain ⟨a, t, hreturns, hpost⟩ := h.returns
    obtain rfl := List.mem_singleton.1 hv
    obtain rfl := hreturns.2
    exact .inr ⟨a, hreturns, hpost⟩

theorem Meets.imp (h : Meets m s inv post) (himp : ∀ a s', post a s' → post' a s') : Meets m s inv post' := by
  obtain ⟨a, s', hreturns, hpost⟩ := h.returns
  exact ⟨⟨a, s', hreturns, himp a s' hpost⟩, h.visited⟩

end Meets

end Durable

end Aibot
