/-
The store is linearizable: in every run of any number of calls, the path holds the replay of the
calls that took effect, in the order in which they took the lock, and every answer is the one of
that sequential run.
-/
import Aibot.Store.Codec
import Aibot.Store.Preserve
import Aibot.Lib.Run

namespace Aibot.Store

open VersionedDocument Codec

variable {D χ ε ρ : Type*} [VersionedDocument D]

/-- How a call that took effect changed the version. -/
def Commit.Versioned (stored : Option D) (x : Commit D ε ρ) : Prop :=
  match x.request with
  | .update fallback expectedVersion _ =>
    ∃ v d, version (stored.getD fallback) = some v ∧
      (∀ expected, expectedVersion = some expected → expected = v) ∧
      x.request.effect stored = some d ∧ version d = some (v + 1)
  | .migrate fallback _ =>
    x.answer = .migrated true ∧ (∃ v d, version (stored.getD fallback) = some v ∧
      x.request.effect stored = some d ∧ version d = some (v + 1)) ∨
    x.answer = .migrated false ∧ x.request.effect stored = stored
  | .read _ => False

/-- The state is one of a sequential run of the committed calls. -/
structure Linearized [Codec D χ] (initial : Option D) (s : System D χ ε ρ) : Prop where
  /-- The path holds the document of the committed calls, and nothing while there is none. -/
  content : s.files.path.map (fun i => load (s.files.data i)) = (s.stored initial).map some
  /-- The calls took effect in the order in which they took the lock. -/
  order : (s.committed.map Commit.call).Sublist s.acquired
  /-- No call took effect twice. -/
  once : (s.committed.map Commit.call).Nodup
  /-- Each did on the document before it what it does alone. -/
  accepted : ∀ before x after, s.committed = before ++ x :: after →
    x.Accepted (replay initial (before.map Commit.request)) ∧
      x.Versioned (replay initial (before.map Commit.request))
  /-- A call that returned took effect, with the answer it returned. -/
  returned : ∀ c r a, s.calls c = some (r, .ended (.returned a)) → r.locks = true →
    ⟨c, r, a⟩ ∈ s.committed
  /-- A reader returned the document after some of the committed calls, or its fallback. -/
  readers : ∀ c r a, s.calls c = some (r, .ended (.returned a)) → r.locks = false →
    ∃ d, a = .document d ∧ s.Past initial r d
  /-- A call whose mutator or version check raised took no effect. -/
  refused : ∀ c r e, s.calls c = some (r, .ended (.refused e)) →
    c ∉ s.committed.map Commit.call ∧ ∃ d, s.Past initial r d ∧ r.compute d = .error e
  /-- Nor did one whose result is not JSON. -/
  notSerializable : ∀ c r, s.calls c = some (r, .ended .notSerializable) →
    c ∉ s.committed.map Commit.call
  lockTimeout : ∀ c r, s.calls c = some (r, .ended .lockTimeout) → c ∉ s.committed.map Commit.call
  /-- A call that expects another version than the stored one raises `VersionConflict`. -/
  conflict : ∀ c fallback expected mutator d v,
    s.calls c = some (.update fallback (some expected) mutator, .loaded d) →
    version d = some v → expected ≠ v → d = (s.stored initial).getD fallback ∧
      stepCall c (.update fallback (some expected) mutator) s.files (.loaded d) .compute =
        some (s.files, .leaving (.refused (.versionConflict expected v)), none)

theorem Commit.Accepted.versioned {stored : Option D} {x : Commit D ε ρ} (h : x.Accepted stored) :
    x.Versioned stored := by
  obtain ⟨c, r, answer⟩ := x
  obtain ⟨hl, written, hw⟩ := h
  cases r with
  | update fallback expectedVersion mutator =>
    simp only [Request.compute, Request.fallback] at hw
    cases hu : updateJson mutator expectedVersion (stored.getD fallback) with
    | error e => rw [hu] at hw; cases hw
    | ok y =>
      obtain ⟨result, d⟩ := y
      obtain ⟨v, d₁, hv, hx, -, rfl⟩ := updateJson_ok hu
      have hc : Request.compute (ε := ε) (stored.getD fallback) (.update fallback expectedVersion mutator) =
          .ok (.updated result, some (setVersion (v + 1) d₁)) := by
        simp only [Request.compute]
        rw [hu]; rfl
      exact ⟨v, setVersion (v + 1) d₁, hv, hx, effect_written hc, version_setVersion _ _⟩
  | migrate fallback migrator =>
    simp only [Request.compute, Request.fallback] at hw
    cases hm : migrateJson migrator.run (stored.getD fallback) with
    | error e => rw [hm] at hw; cases hw
    | ok y =>
      obtain ⟨changed, d⟩ := y
      rw [hm] at hw
      cases changed with
      | true =>
        cases hw
        obtain ⟨v, d₁, hrun, hv, rfl⟩ := migrateJson_changed hm
        have hc : Request.compute (ρ := ρ) (stored.getD fallback) (.migrate fallback migrator) =
            .ok (.migrated true, some (setVersion (v + 1) d₁)) := by
          simp only [Request.compute]
          rw [hm]; rfl
        have hv' : version (stored.getD fallback) = some v := by
          rw [← migrator.keepsVersion hrun]; exact hv
        exact .inl ⟨rfl, v, setVersion (v + 1) d₁, hv', effect_written hc, version_setVersion _ _⟩
      | false =>
        cases hw
        have hc : Request.compute (ρ := ρ) (stored.getD fallback) (.migrate fallback migrator) =
            .ok (.migrated false, none) := by
          simp only [Request.compute]
          rw [hm]; rfl
        exact .inr ⟨rfl, effect_kept hc⟩
  | read fallback => cases hl

/-- The invariant holds in every run. -/
theorem storeInv_run [Codec D χ] {content : Option (List χ)} {initial : Option D}
    (hstored : content.map load = initial.map some) {acts : List (StoreAct D ε ρ)}
    {s : System D χ ε ρ} (h : Run System.step Run.anyStep (System.start content) acts s) :
    StoreInv initial s := by
  have hstep : ∀ s (act : StoreAct D ε ρ) (s' : System D χ ε ρ), StoreInv initial s →
      Run.anyStep s act → s.step act = some s' → StoreInv initial s' :=
    fun _ _ _ hs _ h => storeInv_step hs h
  exact h.invariant hstep (storeInv_start hstored)

theorem linearizable [Codec D χ] {content : Option (List χ)} {initial : Option D}
    (hstored : content.map load = initial.map some) {acts : List (StoreAct D ε ρ)}
    {s : System D χ ε ρ} (h : Run System.step Run.anyStep (System.start content) acts s) :
    Linearized initial s := by
  have hs := storeInv_run hstored h
  refine
    { content := hs.content
      order := hs.order
      once := hs.once.sublist hs.order
      accepted := fun before x after he => ?_
      returned := fun c r a hc hl => ?_
      readers := fun c r a hc hl => ?_
      refused := fun c r e hc => hs.call c r _ hc
      notSerializable := fun c r hc => (hs.call c r _ hc).1
      lockTimeout := fun c r hc hcom => hs.call c r _ hc (hs.order.subset hcom)
      conflict := fun c fallback expected mutator d v hc hv hne => ?_ }
  · have hx := hs.accepted before x after he
    exact ⟨hx, hx.versioned⟩
  · have hinv := hs.call c r _ hc
    simpa [CallInv, OutcomeInv, hl] using hinv
  · have hinv := hs.call c r _ hc
    simpa [CallInv, OutcomeInv, hl] using hinv
  · refine ⟨(hs.call c _ _ hc).2.2 rfl, ?_⟩
    simp only [stepCall, Request.compute, updateJson_conflict mutator hv hne, Except.map]

def sampleDocument : JsonDocument := Dict.empty.set "version" (.int 3)

/-- An update of the sample document that changes its version only. -/
def sampleUpdate : Request JsonDocument String Unit := .update Dict.empty (some 3) fun d => .ok ((), d)

/-- A call reads the five fragments of the sample document. -/
def sampleLoad : List CallEvent :=
  [.opens, .readFragment, .readFragment, .readFragment, .readFragment, .readFragment, .finishReading, .compute]

def sampleSave : List CallEvent :=
  [.cleanUp [], .writeFragment, .writeFragment, .writeFragment, .writeFragment, .writeFragment,
    .finishWriting, .replace, .release]

/-- Call 1 is a reader that opens the file before call 0 replaces it; call 2 expects the
version that call 0 replaced. -/
def sampleStoreActs : List (StoreAct JsonDocument String Unit) :=
  List.flatten
    [[.begins 0 sampleUpdate, .begins 1 (.read Dict.empty), .begins 2 sampleUpdate],
      (sampleLoad.take 3).map (.happens 1), (.acquire :: sampleLoad).map (.happens 0),
      sampleSave.map (.happens 0), (sampleLoad.drop 3).map (.happens 1),
      (.acquire :: sampleLoad).map (.happens 2), [.happens 1 .release, .happens 2 .release]]

theorem linearizable_threeCalls : ∃ s : System JsonDocument Json.Token String Unit,
    Run System.step Run.anyStep (System.start (some (dump sampleDocument).1)) sampleStoreActs s ∧
    (s.acquired = [0, 2] ∧ s.committed.map Commit.call = [0]) ∧ Linearized (some sampleDocument) s := by
  have h : ∃ s : System JsonDocument Json.Token String Unit,
      Run System.step Run.anyStep (System.start (some (dump sampleDocument).1)) sampleStoreActs s ∧
      (s.acquired = [0, 2] ∧ s.committed.map Commit.call = [0]) := Run.exists_of_any (by decide +kernel)
  obtain ⟨s, hrun, hs⟩ := h
  have hload : (some (dump sampleDocument).1).map load = (some sampleDocument).map some :=
    congrArg some (load_dump sampleDocument (by decide +kernel))
  exact ⟨s, hrun, hs, linearizable hload hrun⟩

end Aibot.Store
