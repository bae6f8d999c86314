/-
What one `update_json` or `migrate_json` call does to the document it reads, once it holds the
lock: the compare-and-set check, the mutator, and the version field.
-/
import Mathlib.Tactic

namespace Aibot.Store

/-- A JSON document with a `version` field. `version` is `int(document.get("version", 0) or 0)`,
`none` where that conversion raises. -/
class VersionedDocument (D : Type*) where
  version : D → Option Int
  setVersion : Int → D → D
  version_setVersion : ∀ v d, version (setVersion v d) = some v

open VersionedDocument

variable {D ε ρ : Type*} [VersionedDocument D]

/-- Why a call raised before it wrote anything. -/
inductive StoreError (ε : Type*)
  | versionNotANumber
  | versionConflict (expected actual : Int)
  | mutator (error : ε)
  deriving DecidableEq, Repr

/-- `update_json` between the read and the save: check `expected_version`, mutate, and raise the
version by one. -/
def updateJson (mutator : D → Except ε (ρ × D)) (expectedVersion : Option Int) (document : D) :
    Except (StoreError ε) (ρ × D) :=
  match version document with
  | none => .error .versionNotANumber
  | some currentVersion =>
    match expectedVersion.filter (· ≠ currentVersion) with
    | some expected => .error (.versionConflict expected currentVersion)
    | none =>
      match mutator document with
      | .error e => .error (.mutator e)
      | .ok (result, mutated) => .ok (result, setVersion (currentVersion + 1) mutated)

/-- `migrate_json` between the read and the save: the document to write, or `none` when the
migrator reports no change. -/
def migrateJson (migrator : D → Except ε (Bool × D)) (document : D) :
    Except (StoreError ε) (Bool × D) :=
  match migrator document with
  | .error e => .error (.mutator e)
  | .ok (false, migrated) => .ok (false, migrated)
  | .ok (true, migrated) =>
    match version migrated with
    | none => .error .versionNotANumber
    | some currentVersion => .ok (true, setVersion (currentVersion + 1) migrated)

/-! ## What a successful call did -/

theorem updateJson_ok {m : D → Except ε (ρ × D)} {x : Option Int} {d d' : D} {r : ρ}
    (h : updateJson m x d = .ok (r, d')) :
    ∃ v d₁, version d = some v ∧ (∀ expected, x = some expected → expected = v) ∧
      m d = .ok (r, d₁) ∧ d' = setVersion (v + 1) d₁ := by
  unfold updateJson at h
  split at h
  · cases h
  · rename_i v hv
    split at h
    · cases h
    · rename_i hx
      split at h
      · cases h
      · rename_i r' d₁ hm
        cases h
        refine ⟨v, d₁, hv, ?_, hm, rfl⟩
        intro expected he
        subst he
        simpa [Option.filter_some] using hx

/-- A successful update raises the version by exactly one, whatever the mutator wrote. -/
theorem updateJson_version {m : D → Except ε (ρ × D)} {x : Option Int} {d d' : D} {r : ρ}
    (h : updateJson m x d = .ok (r, d')) :
    ∃ v, version d = some v ∧ version d' = some (v + 1) := by
  obtain ⟨v, d₁, hv, -, -, rfl⟩ := updateJson_ok h
  exact ⟨v, hv, version_setVersion _ _⟩

/-- A call whose `expected_version` is not the stored one raises `VersionConflict`. -/
theorem updateJson_conflict (m : D → Except ε (ρ × D)) {expected v : Int} {d : D}
    (hv : version d = some v) (hne : expected ≠ v) :
    updateJson m (some expected) d = .error (.versionConflict expected v) := by
  unfold updateJson
  rw [hv]
  simp [Option.filter_some, hne]

theorem migrateJson_changed {m : D → Except ε (Bool × D)} {d d' : D}
    (h : migrateJson m d = .ok (true, d')) :
    ∃ v d₁, m d = .ok (true, d₁) ∧ version d₁ = some v ∧ d' = setVersion (v + 1) d₁ := by
  unfold migrateJson at h
  split at h
  · cases h
  · cases h
  · rename_i d₁ hm
    split at h
    · cases h
    · rename_i v hv
      cases h
      exact ⟨v, d₁, hm, hv, rfl⟩

theorem migrateJson_unchanged {m : D → Except ε (Bool × D)} {d d' : D}
    (h : migrateJson m d = .ok (false, d')) : m d = .ok (false, d') := by
  unfold migrateJson at h
  split at h
  · cases h
  · rename_i hm; cases h; exact hm
  · split at h <;> cases h

end Aibot.Store
