/-
What bounds the ledger: the expiry of the oldest waiting rows, and the retention that every writer
applies to what it is about to save.
-/
import Aibot.Observation.Row

namespace Aibot.Observation

open Aibot.Risk

/-! ## Expiry -/

/-- A row that waits for samples without an open position. -/
def Row.expirable (row : Row) : Bool := !row.terminal && row.paperExperimentStatus ≠ .opened

/-- A row that is given up. -/
def Row.expire (row : Row) (now : Int) : Row :=
  { row with status := .expiredUnsampled, completedAt := some now }

/-- `expire_observation_backlog`. -/
def expireObservationBacklog (now : Int) (rows : List Row) : List Row :=
  mapFirst Row.expirable (fun row => row.expire now)
    ((rows.filter Row.expirable).length - maxActiveObservations) rows

/-! ## Retention -/

/-- A row the operational cap counts as completed; every other row is active. -/
def Row.completed (row : Row) : Bool := row.terminal && row.paperExperimentStatus ≠ .opened

/-- The number of completed rows, the oldest, that have no place beside the active ones. -/
def completedOverflow (rows : List Row) : Nat :=
  (rows.filter Row.completed).length -
    (maxObservations - (rows.filter fun row => !row.completed).length)

/-- `retained_observations`: all active rows, and the newest completed ones. -/
def retainedObservations (rows : List Row) : List Row :=
  dropFirst Row.completed (fun _ => true) (completedOverflow rows) rows

/-- `archive_and_retain_observations`: a terminal row without the archive marker is kept, also
beyond the cap. -/
def archiveAndRetainObservations (rows : List Row) : List Row :=
  dropFirst Row.completed Row.archived (completedOverflow rows) rows

/-- The rows that `archive_and_retain_observations` drops. -/
def evictedObservations (rows : List Row) : List Row :=
  droppedFirst Row.completed Row.archived (completedOverflow rows) rows

/-- The rows a writer leaves in its document: as they are, or through the retention. -/
inductive Write
  | keep (rows : List Row)
  | retain (rows : List Row)

/-- The rows before the retention. -/
def Write.touched : Write → List Row
  | .keep rows | .retain rows => rows

@[simp] theorem Write.touched_keep (rows : List Row) : (Write.keep rows).touched = rows := rfl

@[simp] theorem Write.touched_retain (rows : List Row) : (Write.retain rows).touched = rows := rfl

/-- The rows that are saved. -/
def Write.rows : Write → List Row
  | .keep rows => rows
  | .retain rows => archiveAndRetainObservations rows

def Write.evicted : Write → List Row
  | .keep _ => []
  | .retain rows => evictedObservations rows

/-! ## What they leave -/

theorem retain_sublist (rows : List Row) : (archiveAndRetainObservations rows).Sublist rows :=
  dropFirst_sublist _ _

/-- Only a completed row with the archive marker is ever dropped. -/
theorem evicted_completed {rows : List Row} {row : Row} (h : row ∈ evictedObservations rows) :
    row ∈ rows ∧ row.completed = true ∧ row.archived = true :=
  mem_droppedFirst h

theorem Write.rows_sublist (w : Write) : w.rows.Sublist w.touched := by
  cases w with
  | keep rows => exact List.Sublist.refl rows
  | retain rows => exact retain_sublist rows

theorem Write.evicted_completed {w : Write} {row : Row} (h : row ∈ w.evicted) :
    row ∈ w.touched ∧ row.completed = true ∧ row.archived = true := by
  cases w with
  | keep rows => cases h
  | retain rows => exact Observation.evicted_completed h

/-- A row is saved unless it is evicted. -/
theorem Write.saved_or_evicted {w : Write} {row : Row} (h : row ∈ w.touched) :
    row ∈ w.rows ∨ row ∈ w.evicted := by
  cases w with
  | keep rows => exact .inl h
  | retain rows => exact mem_dropFirst_or _ h

/-- The saved and the evicted rows are all that were touched. -/
theorem Write.rows_perm (w : Write) : (w.rows ++ w.evicted).Perm w.touched := by
  cases w with
  | keep rows => exact List.Perm.of_eq (List.append_nil rows)
  | retain rows => exact dropFirst_perm _ _

theorem map_expire {β : Type*} (key : Row → β) (now : Int) (hkey : ∀ row : Row, key (row.expire now) = key row)
    (rows : List Row) : (expireObservationBacklog now rows).map key = rows.map key := by
  unfold expireObservationBacklog
  exact map_mapFirst key (fun row _ => hkey row) _ _

theorem mem_expire {now : Int} {rows : List Row} {row : Row}
    (h : row ∈ expireObservationBacklog now rows) :
    row ∈ rows ∨ ∃ old ∈ rows, old.expirable = true ∧ row = old.expire now :=
  mem_mapFirst h

/-- Expiry leaves a row as it is, or gives it up. -/
theorem expire_mem (now : Int) {rows : List Row} {row : Row} (h : row ∈ rows) :
    row ∈ expireObservationBacklog now rows ∨
      row.expirable = true ∧ row.expire now ∈ expireObservationBacklog now rows :=
  mapFirst_mem _ h

end Aibot.Observation
