/-
`research_archive.archive_observation` as its processes run it, step by step between the OS calls,
and the two callers that leave the archive time on their row. The record of an observation lies
under the digest of its id; a call looks for it, writes it and publishes it under the lock of its
path. Any step may raise, and any call may die with its process.
-/
import Aibot.Lib.Run
import Aibot.Observation.Row
import Aibot.Observation.Stored
import Aibot.Store.Codec

namespace Aibot.Research

open Observation (strip)
open Observation.Stored (Conversions Fields upperIs clip)
open Store (JsonDocument Files Codec)

/-! ## Records -/

def archiveSchemaVersion : Int := 1

/-- `is_terminal_observation`. -/
def isTerminalObservation (row : Fields) : Bool :=
  upperIs (row.field "status") "COMPLETE" || upperIs (row.field "status") "EXPIRED_UNSAMPLED"

/-- `_observation_id`. -/
def observationIdOf (py : Conversions) (row : Fields) : String :=
  strip (py.text ((row.field "observation_id").orElse (.str "")))

/-- The record of a row. -/
def archiveDocument (row : Fields) (observationId archivedAt source : String) : JsonDocument :=
  Dict.ofList
    [("archive_schema_version", .int archiveSchemaVersion),
      ("observation_id", .str observationId),
      ("tracking_profile", row.field "tracking_profile"),
      ("signal_type", row.field "signal_type"),
      ("signal_detected_at", row.field "signal_detected_at"),
      ("archived_at", .str archivedAt),
      ("archive_source", .str (clip 80 source)),
      ("observation", .ofFields row)]

/-- The checks of `_existing_archive_record`; it raises where one fails. -/
def existingArchiveRecord (py : Conversions) (observationId : String) (document : JsonDocument) :
    Option JsonDocument :=
  if (document.field "archive_schema_version").eqInt archiveSchemaVersion ∧
      observationIdOf py document = observationId ∧ (document.field "observation").isObj then
    some document
  else none

/-! ## Calls -/

/-- Who calls `archive_observation`. -/
inductive ArchiveCaller
  | direct
  /-- `archive_observation_best_effort`. -/
  | bestEffort
  /-- A turn of `archive_terminal_rows`, which first looks for a record outside the lock. -/
  | terminalRows
  deriving DecidableEq, Repr

structure ArchiveCall where
  row : Fields
  source : String
  /-- `_now()`, read before the lock is taken. -/
  archivedAt : String
  caller : ArchiveCaller
  archivedAt_ne : archivedAt ≠ ""

/-- How a call ends. -/
inductive ArchiveOutcome
  | notTerminal
  | missingObservationId
  /-- Whether the record is newly written, and its `archived_at`. -/
  | returned (written : Bool) (archivedAt : Json)
  /-- It raised, or timed out on the lock. -/
  | failed

/-- Where a call is. -/
inductive ArchivePhase
  /-- Looking for the record outside the lock. -/
  | looking
  /-- Trying to take the lock. -/
  | waiting
  | opening
  /-- The record exists. -/
  | found (locked : Bool)
  | reading (locked : Bool) (inode : Nat) (got : List Json.Token)
  /-- In the metric update of a duplicate, under the lock. -/
  | counting (archivedAt : Json)
  | cleaning
  | writing (inode : Nat) (todo : List Json.Token)
  | flushed (inode : Nat)
  /-- In the `finally` block, with a temporary file to remove. -/
  | unwinding (inode : Nat)
  | leaving (outcome : ArchiveOutcome)
  /-- In the metric update of a success, after the lock. -/
  | reporting (archivedAt : Json)
  | ended (outcome : ArchiveOutcome)
  | crashed

inductive ArchiveEvent
  | acquire
  | timeout
  | exists
  | opens
  | readFragment
  | finishReading
  | countDuplicate
  /-- The stale files found and removed. -/
  | cleanUp (stale : List Nat)
  | writeFragment
  | finishWriting
  | replace
  | unlink
  | release
  | countSuccess
  | raises
  | crash

namespace ArchiveCall

variable (py : Conversions) (call : ArchiveCall)

def identity : String := observationIdOf py call.row

/-- The record that the call writes. -/
def document : JsonDocument := archiveDocument call.row (call.identity py) call.archivedAt call.source

/-- Where the call starts. -/
def enter : ArchivePhase :=
  if ¬ isTerminalObservation call.row then .ended .notTerminal
  else if call.identity py = "" then .ended .missingObservationId
  else if call.caller = .terminalRows then .looking
  else .waiting

/-- The row as the caller has it afterwards. -/
def leaves (outcome : ArchiveOutcome) : Fields :=
  match outcome, call.caller with
  | .returned _ archivedAt, .bestEffort | .returned _ archivedAt, .terminalRows =>
    (call.row.set "archive_schema_version" (.int archiveSchemaVersion)).set "archived_at" archivedAt
  | _, _ => call.row

end ArchiveCall

/-- One step of the call `c` on the files of its record: the files and the phase after it, and whether
it publishes the record. -/
def stepArchive (py : Conversions) (c : Nat) (call : ArchiveCall) (f : Files Json.Token) :
    ArchivePhase → ArchiveEvent → Option (Files Json.Token × ArchivePhase × Bool)
  | .looking, .exists =>
    match f.path with
    | none => some (f, .waiting, false)
    | some _ => some (f, .found false, false)
  | .waiting, .acquire => if f.owner = none then some ({ f with owner := some c }, .opening, false) else none
  | .waiting, .timeout => some (f, .ended .failed, false)
  | .opening, .exists =>
    match f.path with
    | none => some (f, .cleaning, false)
    | some _ => some (f, .found true, false)
  | .found locked, .opens =>
    match f.path with
    | some inode => some (f, .reading locked inode [], false)
    -- the record is gone: `{}` fails the checks, and outside the lock there is nothing to check
    | none => some (f, if locked then .leaving .failed else .ended (.returned false .null), false)
  | .reading locked inode got, .readFragment =>
    (f.data inode)[got.length]?.map fun fragment => (f, .reading locked inode (got ++ [fragment]), false)
  | .reading locked inode got, .finishReading =>
    if got.length = (f.data inode).length then
      match (Codec.load got).bind (existingArchiveRecord py (call.identity py)) with
      | none => some (f, if locked then .leaving .failed else .ended .failed, false)
      | some document =>
        if locked then
          some (f, .counting (.str (py.text ((document.field "archived_at").orElse (.str call.archivedAt)))), false)
        else some (f, .ended (.returned false (document.field "archived_at")), false)
    else none
  | .counting archivedAt, .countDuplicate => some (f, .leaving (.returned false archivedAt), false)
  | .cleaning, .cleanUp stale =>
    some (f.createTemporary stale, .writing f.nextInode (Codec.dump (call.document py)).1, false)
  | .writing inode (fragment :: todo), .writeFragment => some (f.append inode fragment, .writing inode todo, false)
  | .writing inode [], .finishWriting =>
    if (Codec.dump (call.document py)).2 then some (f, .flushed inode, false) else some (f, .unwinding inode, false)
  | .flushed inode, .replace =>
    if inode ∈ f.temporaries then
      some (f.replace inode, .leaving (.returned true (.str call.archivedAt)), true)
    else none
  | .unwinding inode, .unlink => some (f.unlink inode, .leaving .failed, false)
  | .leaving (.returned true archivedAt), .release => some (f.unlock c, .reporting archivedAt, false)
  | .leaving outcome, .release => some (f.unlock c, .ended outcome, false)
  | .reporting archivedAt, .countSuccess => some (f, .ended (.returned true archivedAt), false)
  -- an exception of the step: a temporary file is removed, then the lock is left
  | .looking, .raises | .waiting, .raises | .found false, .raises | .reading false _ _, .raises
  | .reporting _, .raises => some (f, .ended .failed, false)
  | .opening, .raises | .found true, .raises | .reading true _ _, .raises | .counting _, .raises
  | .cleaning, .raises | .unwinding _, .raises => some (f, .leaving .failed, false)
  | .writing inode _, .raises | .flushed inode, .raises => some (f, .unwinding inode, false)
  | .leaving _, .raises => some (f.unlock c, .ended .failed, false)
  | .ended _, .crash | .crashed, .crash => none
  | _, .crash => some (f.unlock c, .crashed, false)
  | _, _ => none

/-! ## The archive -/

/-- The files of each record and the calls of all processes. `writers` is history: the call that
published each record. -/
structure Archive (κ : Type*) where
  files : κ → Files Json.Token
  calls : Nat → Option (ArchiveCall × ArchivePhase)
  writers : κ → Option Nat

/-- An empty archive. -/
def Archive.start {κ : Type*} : Archive κ where
  files := fun _ => ⟨none, [], fun _ => [], 0, none⟩
  calls := fun _ => none
  writers := fun _ => none

inductive ArchiveAct
  | begins (c : Nat) (call : ArchiveCall)
  | happens (c : Nat) (event : ArchiveEvent)

section Step

variable {κ : Type*} [DecidableEq κ] (py : Conversions) (digest : String → κ)

/-- The archive after a step of the call `c`. -/
def Archive.after (s : Archive κ) (c : Nat) (call : ArchiveCall)
    (x : Files Json.Token × ArchivePhase × Bool) : Archive κ where
  files := Function.update s.files (digest (call.identity py)) x.1
  calls := Function.update s.calls c (some (call, x.2.1))
  writers := if x.2.2 then Function.update s.writers (digest (call.identity py)) (some c) else s.writers

def Archive.step (s : Archive κ) : ArchiveAct → Option (Archive κ)
  | .begins c call =>
    match s.calls c with
    | none => some { s with calls := Function.update s.calls c (some (call, call.enter py)) }
    | some _ => none
  | .happens c event =>
    match s.calls c with
    | none => none
    | some (call, phase) =>
      (stepArchive py c call (s.files (digest (call.identity py))) phase event).map (s.after py digest c call)

end Step

end Aibot.Research
