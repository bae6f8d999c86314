/-
The trigger of a deployment (`deploy_contract.py`): what `git diff --name-status -z` prints is read into the
changed paths, and these are classified. What cannot be read is deployed.
-/
import Aibot.Lib.Utf8

namespace Aibot.Deploy

structure DeployTriggerDecision where
  deploy : Bool
  reason : String
  deriving DecidableEq

def NON_DEPLOY_EXACT_PATHS : List String :=
  [".github/workflows/deploy.yml", ".github/workflows/retention-tool-rollout.yml", "scripts/deploy_contract.py"]

def RETENTION_TOOL_PATH : String := "scripts/storage_retention.py"

def KNOWN_SINGLE_PATH_STATUSES : List String := ["A", "M", "D", "T", "U", "X", "B"]

/-! ## Paths -/

def isKnownNonRuntimePath (path : String) : Bool :=
  if path ∈ NON_DEPLOY_EXACT_PATHS then true
  else if "tests/".toList.isPrefixOf path.toList || "docs/".toList.isPrefixOf path.toList then true
  else !path.toList.contains '/' && ".md".toList.isSuffixOf path.toList

def classifyChangedPaths (paths : List String) : DeployTriggerDecision :=
  if paths = [] then ⟨false, "empty_diff"⟩
  else if RETENTION_TOOL_PATH ∈ paths && paths.all fun path =>
      path = RETENTION_TOOL_PATH || isKnownNonRuntimePath path then
    ⟨false, "retention_tool_only"⟩
  else if paths.all isKnownNonRuntimePath then ⟨false, "non_runtime_only"⟩
  else ⟨true, "runtime_or_unknown"⟩

/-- `Path(path).parts`: the root, and the parts between the slashes that say something. -/
def parts (path : String) : List String :=
  (if path.toList.head? = some '/' then ["/"] else []) ++
    ((path.toList.splitOn '/').filter fun part => part ≠ [] ∧ part ≠ ['.']).map String.ofList

/-! ## The output of git -/

/-- How reading the output raises. -/
inductive ParseError
  | unicodeError
  | valueError (message : String)
  deriving DecidableEq

/-- `decode("ascii")`. -/
def decodeAscii (bytes : List UInt8) : Except ParseError String :=
  if bytes.all (· < 128) then .ok (String.ofList (bytes.map fun b => Char.ofNat b.toNat)) else .error .unicodeError

/-- How many paths come after a status. -/
def pathCount (status : String) : Except ParseError Nat :=
  if status ∈ KNOWN_SINGLE_PATH_STATUSES then .ok 1
  else
    match status.toList with
    | letter :: score =>
      if (letter = 'R' ∨ letter = 'C') ∧ score ≠ [] ∧ score.all Char.isDigit then .ok 2
      else .error (.valueError "unsupported git diff status")
    | [] => .error (.valueError "unsupported git diff status")

/-- A path of a record. -/
def readPath (rawPath : List UInt8) : Except ParseError String :=
  match decodeUtf8 rawPath with
  | none => .error .unicodeError
  | some path =>
    if path = "" ∨ path.toList.head? = some '/' ∨ ".." ∈ parts path then .error (.valueError "git diff path is invalid")
    else .ok path

/-- The loop over the records: the paths of the fields that are left. -/
def readRecords : List (List UInt8) → Except ParseError (List String)
  | [] => .ok []
  | rawStatus :: fields => do
    let status ← decodeAscii rawStatus
    let count ← pathCount status
    if fields.length < count then throw (.valueError "git diff path record is incomplete")
    let paths ← (fields.take count).mapM readPath
    let others ← readRecords (fields.drop count)
    return paths ++ others
termination_by fields => fields.length
decreasing_by simp

def parseNameStatusZ (payload : List UInt8) : Except ParseError (List String) :=
  let fields := payload.splitOn 0
  if fields.getLast? ≠ some [] then .error (.valueError "git diff output is not NUL terminated")
  else readRecords fields.dropLast

/-! ## The decision -/

/-- How `git diff` ends: it cannot be run or takes too long, or it returns. -/
inductive GitRun
  | raised
  | finished (returncode : ℤ) (stdout : List UInt8)

/-- `SHA_PATTERN.fullmatch`. -/
def isSha (sha : String) : Bool :=
  sha.toList.length = 40 && sha.toList.all fun c => c.isDigit || ('a' ≤ c && c ≤ 'f')

def resolvePushDeployTrigger (beforeSha afterSha : String) (git : GitRun) : DeployTriggerDecision :=
  if !isSha beforeSha || !isSha afterSha || beforeSha = String.ofList (List.replicate 40 '0') then
    ⟨true, "resolver_unknown"⟩
  else
    match git with
    | .raised => ⟨true, "resolver_unknown"⟩
    | .finished returncode stdout =>
      if returncode ≠ 0 then ⟨true, "resolver_unknown"⟩
      else
        match parseNameStatusZ stdout with
        | .error _ => ⟨true, "resolver_unknown"⟩
        | .ok paths => classifyChangedPaths paths

end Aibot.Deploy
