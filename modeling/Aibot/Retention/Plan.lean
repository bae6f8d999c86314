/-
The retention of deployment backups (`scripts/storage_retention.py`): the backup root as a listing in
the order of its names, the names it recognises, the deployment markers, and the plan that says of
every backup whether it may be deleted.
-/
import Aibot.Lib.Dict
import Mathlib.Data.String.Basic

namespace Aibot.Retention

/-! ## Names -/

/-- `[0-9a-f]`. -/
def isHex (c : Char) : Bool := ('0' ≤ c && c ≤ '9') || ('a' ≤ c && c ≤ 'f')

/-- A text that `SHA_PATTERN` fullmatches, by its characters. -/
structure Sha where
  digits : List Char
  hex : digits.length = 40 ∧ digits.all isHex = true
deriving DecidableEq

/-- `marker_sha[:12]`. -/
def Sha.abbrev (sha : Sha) : List Char := sha.digits.take 12

/-- What follows the prefix in a name, none where the name does not start with it. -/
def after (start name : String) : Option (List Char) :=
  if start.toList.isPrefixOf name.toList then some (name.toList.drop start.toList.length) else none

/-- `latest-<sha>.txt`. -/
def markerName (sha : Sha) : String := "latest-" ++ String.ofList sha.digits ++ ".txt"

/-- `MARKER_PATTERN.fullmatch(name)`: the SHA of a marker. -/
def markerPattern (name : String) : Option Sha :=
  (after "latest-" name).bind fun rest =>
    if h : ((rest.take 40).length = 40 ∧ (rest.take 40).all isHex = true) ∧ rest.drop 40 = ".txt".toList then
      some ⟨rest.take 40, h.1⟩
    else none

/-- The number of days of a month. -/
def daysIn (year month : Nat) : Nat :=
  if month = 2 then (if year % 4 = 0 ∧ (year % 100 ≠ 0 ∨ year % 400 = 0) then 29 else 28)
  else if month ∈ [4, 6, 9, 11] then 30 else 31

/-- The value of an ASCII digit. -/
def asciiDigit (c : Char) : Option Nat := if '0' ≤ c ∧ c ≤ '9' then some (c.toNat - '0'.toNat) else none

/-- A validation that fails for a reason, or any other exception. -/
inductive Failure
  | rejected (reason : String)
  | raised
deriving DecidableEq, Repr

/-- What the retention asks the platform and the content of a backup directory. -/
structure Reader (γ : Type) where
  /-- The value of a decimal digit of any script, as `\d` and `int` know them. -/
  decimal : Char → Option Nat
  /-- `Path(text.strip()).is_absolute()`. -/
  isAbsolute : String → Bool
  /-- The name in the backup root that `Path(text.strip()).resolve()` has. -/
  resolve : String → Except Failure String
  /-- `_validate_backup(candidate, name_revision)`: the revision, the logical and the allocated size. -/
  validateBackup : γ → List Char → Except Failure (Sha × Nat × Nat)
  /-- `_measure_regular_tree(candidate)`, or zeros where it fails. -/
  measureRegularTree : γ → Nat × Nat

namespace Reader

variable {γ : Type} (R : Reader γ)

/-- `\d{8}T\d{6}Z`. -/
def isStamp (cs : List Char) : Bool :=
  cs.length = 16 && (cs.take 8).all (fun c => (R.decimal c).isSome) && cs[8]? = some 'T' &&
    ((cs.drop 9).take 6).all (fun c => (R.decimal c).isSome) && cs[15]? = some 'Z'

/-- `BACKUP_PATTERN.fullmatch(name)`: the stamp and the short revision. -/
def backupPattern (name : String) : Option (List Char × List Char) :=
  (after "predeploy-" name).bind fun rest =>
    let stamp := rest.take 16
    let short := rest.drop 17
    if R.isStamp stamp && rest[16]? = some '-' && short.length = 12 && short.all isHex then some (stamp, short)
    else none

/-- `datetime.strptime(stamp, "%Y%m%dT%H%M%SZ")` does not raise. Of the two digits of a field the
expression of `strptime` spells out those that bound it, the others may be of any script. -/
def strptime : List Char → Bool
  | [y₁, y₂, y₃, y₄, m₁, m₂, d₁, d₂, _, h₁, h₂, n₁, n₂, s₁, s₂, _] =>
    (do
      let y₁ ← R.decimal y₁
      let y₂ ← R.decimal y₂
      let y₃ ← R.decimal y₃
      let y₄ ← R.decimal y₄
      let m₁ ← asciiDigit m₁
      let m₂ ← asciiDigit m₂
      let d₁ ← asciiDigit d₁
      let d₂ ← if d₁ = 1 ∨ d₁ = 2 then R.decimal d₂ else asciiDigit d₂
      let h₁ ← asciiDigit h₁
      let h₂ ← if h₁ = 2 then asciiDigit h₂ else R.decimal h₂
      let n₁ ← asciiDigit n₁
      let _ ← R.decimal n₂
      let s₁ ← asciiDigit s₁
      let _ ← R.decimal s₂
      let year := ((y₁ * 10 + y₂) * 10 + y₃) * 10 + y₄
      let month := m₁ * 10 + m₂
      let day := d₁ * 10 + d₂
      pure (decide (1 ≤ year ∧ 1 ≤ month ∧ month ≤ 12 ∧ 1 ≤ day ∧ day ≤ daysIn year month ∧
        h₁ * 10 + h₂ ≤ 23 ∧ n₁ ≤ 5 ∧ s₁ ≤ 5))).getD false
  | _ => false

/-- The short revision of a name whose pattern and timestamp are right. -/
def exactName (name : String) : Option (List Char) :=
  (R.backupPattern name).bind fun m => if R.strptime m.1 then some m.2 else none

end Reader

/-! ## The backup root -/

/-- What `lstat` and the file say of an entry of the root. -/
inductive Entry (γ : Type)
  | directory (content : γ)
  /-- A regular file; the text is none where it cannot be read as UTF-8. -/
  | regular (size allocated : Nat) (text : Option String)
  | symlink
  | other (size allocated : Nat)
  /-- `lstat` fails. -/
  | unreadable
deriving DecidableEq, Repr

/-- The entries of the backup root, listed in the order of their names. -/
structure Root (γ : Type) extends Dict String (Entry γ) where
  sorted : (entries.map Prod.fst).Pairwise (· < ·)

def MAX_RETENTION_ROOT_ENTRIES : Nat := 100000

def MAX_MARKER_BYTES : Nat := 4096

namespace Root

variable {γ : Type}

/-- `_bounded_children(root, limit, reason)`. -/
def boundedChildren (root : Root γ) (limit : Nat) (reason : String) : Except Failure (List (String × Entry γ)) :=
  if limit < root.entries.length then .error (.rejected reason) else .ok root.entries

/-- The root without an entry. -/
def remove (root : Root γ) (name : String) : Root γ :=
  ⟨root.toDict.erase name, root.sorted.sublist (List.filter_sublist.map _)⟩

end Root

/-! ## The plan -/

inductive Classification
  | safeToDelete
  | isProtected
  | invalidDoNotTouch
  | unknownDoNotTouch
deriving DecidableEq, Repr

structure Candidate where
  /-- The name of `path`, which lies in the root. -/
  name : String
  classification : Classification
  reason : String
  logicalBytes : Nat
  allocatedBytes : Nat
  /-- None is `""`. -/
  revision : Option Sha
deriving DecidableEq

structure RetentionPlan where
  candidates : List Candidate
  removedCount : Nat
  removedLogicalBytes : Nat
  removedAllocatedBytes : Nat
deriving DecidableEq

/-- `keep`, `deployed_sha` and `active_source_sha`. -/
structure Settings where
  keep : Nat
  deployed : Sha
  active : Sha

namespace Reader

variable {γ : Type} (R : Reader γ)

/-- The record of one entry whose name starts with `predeploy-`. -/
def classify (name : String) (entry : Entry γ) : Except Failure Candidate :=
  match R.exactName name with
  | none => .ok ⟨name, .invalidDoNotTouch, "invalid_name", 0, 0, none⟩
  | some short =>
    match entry with
    | .unreadable => .ok ⟨name, .unknownDoNotTouch, "unknown", 0, 0, none⟩
    | .symlink => .ok ⟨name, .invalidDoNotTouch, "symlink", 0, 0, none⟩
    | .regular size allocated _ | .other size allocated =>
      .ok ⟨name, .invalidDoNotTouch, "non_directory", size, allocated, none⟩
    | .directory content =>
      match R.validateBackup content short with
      | .ok (revision, logical, allocated) =>
        .ok ⟨name, .safeToDelete, "eligible", logical, allocated, some revision⟩
      | .error (.rejected reason) =>
        let measured := R.measureRegularTree content
        .ok ⟨name, if reason = "unknown" then .unknownDoNotTouch else .invalidDoNotTouch, reason, measured.1,
          measured.2, none⟩
      | .error .raised => .error .raised

/-- `_marker_target(root, marker, marker_sha)`. -/
def markerTarget (root : Root γ) (sha : Sha) : Entry γ → Except Failure String
  | .unreadable => .error (.rejected "unknown")
  | .symlink => .error (.rejected "symlink")
  | .directory _ | .other _ _ => .error (.rejected "unknown_marker_state")
  | .regular size _ text =>
    if MAX_MARKER_BYTES < size then .error (.rejected "unknown_marker_state")
    else
      match text with
      | none => .error (.rejected "unknown_marker_state")
      | some raw =>
        if R.isAbsolute raw = false then .error (.rejected "unknown_marker_state")
        else
          match R.resolve raw with
          | .error failure => .error failure
          | .ok target =>
            -- `resolve(strict=True)` wants the target to exist
            if (root.get? target).isNone then .error (.rejected "unknown_marker_state")
            else
              match R.backupPattern target with
              | some (_, short) =>
                if short = sha.abbrev then .ok target else .error (.rejected "unknown_marker_state")
              | none => .error (.rejected "unknown_marker_state")

/-- What `_validate_markers` does with one entry of the root: the SHA of a marker it accepts, none for
an entry that is no marker. -/
def checkMarker (root : Root γ) (revisionOf : String → Option Sha) (name : String) (entry : Entry γ) :
    Except Failure (Option Sha) :=
  if (after "latest-" name).isNone then .ok none
  else
    match markerPattern name with
    | none => .error (.rejected "unknown_marker_state")
    | some sha =>
      match R.markerTarget root sha entry with
      | .error failure => .error failure
      | .ok target =>
        if revisionOf target = some sha then .ok (some sha) else .error (.rejected "unknown_marker_state")

/-- `_validate_markers(root, valid_by_path, required_shas)`. -/
def validateMarkers (root : Root γ) (revisionOf : String → Option Sha) (required : List Sha) :
    Except Failure Unit := do
  let children ← root.boundedChildren MAX_RETENTION_ROOT_ENTRIES "too_many_root_entries"
  let found ← children.mapM fun e => R.checkMarker root revisionOf e.1 e.2
  if ∀ sha ∈ required, some sha ∈ found then .ok () else .error (.rejected "unknown_marker_state")

/-- `valid_by_path`, with the revision of each record. -/
def validByPath (candidates : List Candidate) (name : String) : Option Sha :=
  (candidates.find? fun c => c.name = name && c.classification = .safeToDelete).bind (·.revision)

/-- What becomes of a record when the marker state is not valid. -/
def markerStateUnknown (c : Candidate) : Candidate :=
  if c.classification = .safeToDelete then
    { c with classification := .unknownDoNotTouch, reason := "unknown_marker_state" }
  else c

/-- What becomes of a record when the marker state is valid. -/
def protect (s : Settings) (latestPaths : List String) (c : Candidate) : Candidate :=
  if c.classification ≠ .safeToDelete then c
  else if c.revision = some s.active then
    { c with classification := .isProtected, reason := "protected_active" }
  else if c.revision = some s.deployed then
    { c with classification := .isProtected, reason := "protected_successful" }
  else if c.name ∈ latestPaths then
    { c with classification := .isProtected, reason := "protected_latest" }
  else c

/-- The records of a plan before the markers are looked at, the greatest name first. -/
def survey (root : Root γ) : Except Failure (List Candidate) := do
  let rootEntries ← root.boundedChildren MAX_RETENTION_ROOT_ENTRIES "too_many_root_entries"
  (rootEntries.reverse.filter fun e => (after "predeploy-" e.1).isSome).mapM fun e => R.classify e.1 e.2

/-- `plan_validated_backups(root, keep=…, deployed_sha=…, active_source_sha=…)`. -/
def planValidatedBackups (s : Settings) (root : Root γ) : Except Failure RetentionPlan :=
  if s.keep < 1 then .error .raised
  else
    match R.survey root with
    | .error failure => .error failure
    | .ok candidates =>
      match R.validateMarkers root (validByPath candidates) [s.deployed, s.active] with
      | .error .raised => .error .raised
      | .error (.rejected _) => .ok ⟨candidates.map markerStateUnknown, 0, 0, 0⟩
      | .ok () =>
        let latestPaths := ((candidates.filter (·.revision.isSome)).take s.keep).map (·.name)
        .ok ⟨candidates.map (protect s latestPaths), 0, 0, 0⟩

end Reader

end Aibot.Retention
