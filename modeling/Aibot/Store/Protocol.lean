/-
The store as its processes run it: `update_json`, `migrate_json` and `read_json` on one path, step
by step between the OS calls. Any number of calls interleave; any step of any call may raise, and
any call may die with its process, which frees its lock and leaves its temporary file behind.
-/
import Aibot.Store.Document

namespace Aibot.Store

open VersionedDocument

/-- How `json.dump` writes a document, in fragments, and `json.loads` reads it. -/
class Codec (D : Type*) (χ : outParam Type*) where
  /-- The fragments `json.dump` writes, and whether it comes to the end: a value that is not JSON
  raises half way. -/
  dump : D → List χ × Bool
  load : List χ → Option D
  load_dump : ∀ d, (dump d).2 = true → load (dump d).1 = some d

open Codec

/-! ## Requests -/

/-- A migrator, which leaves the `version` field alone. -/
structure Migrator (D ε : Type*) [VersionedDocument D] where
  run : D → Except ε (Bool × D)
  keepsVersion : ∀ {document migrated changed}, run document = .ok (changed, migrated) →
    version migrated = version document

/-- A call, with its own fallback. -/
inductive Request (D ε ρ : Type*) [VersionedDocument D]
  | update (fallback : D) (expectedVersion : Option Int) (mutator : D → Except ε (ρ × D))
  | migrate (fallback : D) (migrator : Migrator D ε)
  | read (fallback : D)

/-- What a call returns besides the document. -/
inductive Answer (D ρ : Type*)
  | updated (result : ρ)
  | migrated (changed : Bool)
  | document (document : D)

/-- How a call ends. -/
inductive Outcome (D ε ρ : Type*)
  | returned (answer : Answer D ρ)
  /-- The version check, the mutator or the version conversion raised. -/
  | refused (error : StoreError ε)
  /-- `json.dump` raised. -/
  | notSerializable
  /-- `StateLockTimeout`. -/
  | lockTimeout
  /-- Any other exception of a step, such as an `OSError`. -/
  | failed

variable {D χ ε ρ : Type*} [VersionedDocument D]

namespace Request

/-- The call takes the lock. -/
def locks : Request D ε ρ → Bool
  | .update .. | .migrate .. => true
  | .read _ => false

def fallback : Request D ε ρ → D
  | .update fallback _ _ | .migrate fallback _ | .read fallback => fallback

/-- What the call does with the document it loaded: its answer, and the document to write. -/
def compute (document : D) : Request D ε ρ → Except (StoreError ε) (Answer D ρ × Option D)
  | .update _ expectedVersion mutator =>
    (updateJson mutator expectedVersion document).map fun x => (.updated x.1, some x.2)
  | .migrate _ migrator =>
    (migrateJson migrator.run document).map fun x => (.migrated x.1, if x.1 then some x.2 else none)
  | .read _ => .ok (.document document, none)

/-- What the call makes of the stored document, none being no file. -/
def effect (stored : Option D) (r : Request D ε ρ) : Option D :=
  match r.compute (stored.getD r.fallback) with
  | .ok (_, some written) => some written
  | _ => stored

end Request

/-- The document after a sequence of calls. -/
def replay (initial : Option D) (requests : List (Request D ε ρ)) : Option D :=
  requests.foldl Request.effect initial

/-! ## The file system -/

/-- The directory entries of the path and its temporary files, the contents, and the lock. -/
structure Files (χ : Type*) where
  path : Option Nat
  temporaries : List Nat
  data : Nat → List χ
  nextInode : Nat
  owner : Option Nat

/-- Append one fragment to a file. -/
def Files.append (f : Files χ) (inode : Nat) (fragment : χ) : Files χ :=
  { f with data := Function.update f.data inode (f.data inode ++ [fragment]) }

/-- Drop the directory entry of a temporary file. -/
def Files.unlink (f : Files χ) (inode : Nat) : Files χ :=
  { f with temporaries := f.temporaries.filter (· ≠ inode) }

/-- Remove stale temporary files and create a new, empty one. -/
def Files.createTemporary (f : Files χ) (stale : List Nat) : Files χ :=
  { f with
    temporaries := f.nextInode :: f.temporaries.filter (· ∉ stale)
    data := Function.update f.data f.nextInode []
    nextInode := f.nextInode + 1 }

/-- `os.replace`: the temporary file takes the path. -/
def Files.replace (f : Files χ) (inode : Nat) : Files χ := { f.unlink inode with path := some inode }

/-- Leave the lock, also by dying: nothing happens to a lock that another call holds. -/
def Files.unlock (f : Files χ) (c : Nat) : Files χ :=
  { f with owner := if f.owner = some c then none else f.owner }

/-- Reading on by one fragment. -/
theorem prefix_next {got data : List χ} {x : χ} (h : got <+: data) (hx : data[got.length]? = some x) :
    got ++ [x] <+: data := by
  obtain ⟨hlt, rfl⟩ := List.getElem?_eq_some_iff.1 hx
  exact List.concat_get_prefix h hlt

/-! ## Calls -/

/-- Where a call is. -/
inductive Phase (D χ ε ρ : Type*)
  /-- Trying to take the lock. -/
  | waiting
  /-- About to open the file, under the lock if it takes one. -/
  | opening
  /-- Reading an open file. -/
  | reading (inode : Nat) (got : List χ)
  | loaded (document : D)
  /-- About to clean up stale temporary files and to create its own. -/
  | cleaning (answer : Answer D ρ) (document : D)
  | writing (answer : Answer D ρ) (document : D) (inode : Nat) (todo : List χ)
  /-- Flushed and synced. -/
  | flushed (answer : Answer D ρ) (document : D) (inode : Nat)
  /-- In the `finally` block, with a temporary file to remove. -/
  | unwinding (inode : Nat) (outcome : Outcome D ε ρ)
  /-- Leaving the `with` block of the lock. -/
  | leaving (outcome : Outcome D ε ρ)
  | ended (outcome : Outcome D ε ρ)
  | crashed

/-- What happens to a call. -/
inductive CallEvent
  | acquire
  | timeout
  | opens
  | readFragment
  | finishReading
  | compute
  /-- The stale files found and removed. -/
  | cleanUp (stale : List Nat)
  | writeFragment
  /-- `json.dump` comes to its end, or raises. -/
  | finishWriting
  | replace
  | unlink
  | release
  | raises
  | crash

/-- One step of the call `c`: the files and the phase after it, and the answer of a call that takes
effect in this step. -/
def stepCall [Codec D χ] (c : Nat) (r : Request D ε ρ) (f : Files χ) :
    Phase D χ ε ρ → CallEvent → Option (Files χ × Phase D χ ε ρ × Option (Answer D ρ))
  | .waiting, .acquire =>
    if f.owner = none then some ({ f with owner := some c }, .opening, none) else none
  | .waiting, .timeout => some (f, .ended .lockTimeout, none)
  | .opening, .opens =>
    match f.path with
    | none => some (f, .loaded r.fallback, none)
    | some inode => some (f, .reading inode [], none)
  | .reading inode got, .readFragment =>
    (f.data inode)[got.length]?.map fun fragment => (f, .reading inode (got ++ [fragment]), none)
  | .reading inode got, .finishReading =>
    if got.length = (f.data inode).length then
      match load got with
      | some document => some (f, .loaded document, none)
      | none => some (f, .leaving .failed, none)
    else none
  | .loaded document, .compute =>
    match r.compute document with
    | .error e => some (f, .leaving (.refused e), none)
    | .ok (answer, none) => some (f, .leaving (.returned answer), if r.locks then some answer else none)
    | .ok (answer, some written) => some (f, .cleaning answer written, none)
  | .cleaning answer document, .cleanUp stale =>
    some (f.createTemporary stale, .writing answer document f.nextInode (dump document).1, none)
  | .writing answer document inode (fragment :: todo), .writeFragment =>
    some (f.append inode fragment, .writing answer document inode todo, none)
  | .writing answer document inode [], .finishWriting =>
    if (dump document).2 then some (f, .flushed answer document inode, none)
    else some (f, .unwinding inode .notSerializable, none)
  | .flushed answer _ inode, .replace =>
    if inode ∈ f.temporaries then some (f.replace inode, .leaving (.returned answer), some answer)
    else none
  | .unwinding inode outcome, .unlink => some (f.unlink inode, .leaving outcome, none)
  | .leaving outcome, .release => some (f.unlock c, .ended outcome, none)
  -- an exception of the step: a temporary file is removed, then the lock is left
  | .waiting, .raises => some (f, .ended .failed, none)
  | .opening, .raises | .reading .., .raises | .loaded _, .raises | .cleaning .., .raises
  | .unwinding .., .raises => some (f, .leaving .failed, none)
  | .writing _ _ inode _, .raises | .flushed _ _ inode, .raises =>
    some (f, .unwinding inode .failed, none)
  | .leaving _, .raises => some (f.unlock c, .ended .failed, none)
  | .ended _, .crash | .crashed, .crash => none
  | _, .crash => some (f.unlock c, .crashed, none)
  | _, _ => none

/-! ## The system -/

/-- A call that took effect. -/
structure Commit (D ε ρ : Type*) [VersionedDocument D] where
  call : Nat
  request : Request D ε ρ
  answer : Answer D ρ

/-- The files and the calls of all processes. `acquired` and `committed` are history: who took the
lock, and which calls took effect, in order. -/
structure System (D χ ε ρ : Type*) [VersionedDocument D] where
  files : Files χ
  calls : Nat → Option (Request D ε ρ × Phase D χ ε ρ)
  acquired : List Nat
  committed : List (Commit D ε ρ)

/-- The store before any call, on a path that holds `stored`. -/
def System.start (stored : Option (List χ)) : System D χ ε ρ :=
  { files := ⟨stored.map fun _ => 0, [], fun _ => stored.getD [], 1, none⟩
    calls := fun _ => none
    acquired := []
    committed := [] }

inductive StoreAct (D ε ρ : Type*) [VersionedDocument D]
  | begins (c : Nat) (request : Request D ε ρ)
  | happens (c : Nat) (event : CallEvent)

/-- The store after a step of the call `c`. -/
def System.after (s : System D χ ε ρ) (c : Nat) (r : Request D ε ρ) (event : CallEvent) (f : Files χ)
    (phase : Phase D χ ε ρ) (effect : Option (Answer D ρ)) : System D χ ε ρ :=
  { files := f
    calls := Function.update s.calls c (some (r, phase))
    acquired := match event with
      | .acquire => s.acquired ++ [c]
      | _ => s.acquired
    committed := s.committed ++ effect.toList.map fun answer => ⟨c, r, answer⟩ }

/-- The store with a new call. -/
def System.enter (s : System D χ ε ρ) (c : Nat) (r : Request D ε ρ) : System D χ ε ρ :=
  { s with calls := Function.update s.calls c (some (r, if r.locks then .waiting else .opening)) }

@[simp] theorem after_calls_self (s : System D χ ε ρ) (c : Nat) (r : Request D ε ρ) (event : CallEvent)
    (f : Files χ) (phase : Phase D χ ε ρ) (effect : Option (Answer D ρ)) :
    (s.after c r event f phase effect).calls c = some (r, phase) :=
  Function.update_self ..

@[simp] theorem enter_calls_self (s : System D χ ε ρ) (c : Nat) (r : Request D ε ρ) :
    (s.enter c r).calls c = some (r, if r.locks then .waiting else .opening) :=
  Function.update_self ..

theorem enter_calls_of_ne (s : System D χ ε ρ) {c c' : Nat} (r : Request D ε ρ) (h : c' ≠ c) :
    (s.enter c r).calls c' = s.calls c' :=
  Function.update_of_ne h ..

/-- A new call is the only one in its phase. -/
theorem enter_calls {s : System D χ ε ρ} {c c' : Nat} {r r' : Request D ε ρ} {phase : Phase D χ ε ρ}
    (h : (s.enter c r).calls c' = some (r', phase)) :
    c' = c ∧ r' = r ∧ phase = (if r.locks then .waiting else .opening) ∨
      c' ≠ c ∧ s.calls c' = some (r', phase) := by
  by_cases hne : c' = c
  · subst hne
    rw [enter_calls_self] at h
    obtain ⟨rfl, rfl⟩ := Prod.mk.inj (Option.some.inj h)
    exact .inl ⟨rfl, rfl, rfl⟩
  · rw [enter_calls_of_ne s r hne] at h
    exact .inr ⟨hne, h⟩

def System.step [Codec D χ] (s : System D χ ε ρ) : StoreAct D ε ρ → Option (System D χ ε ρ)
  | .begins c r =>
    match s.calls c with
    | none => some (s.enter c r)
    | some _ => none
  | .happens c event =>
    match s.calls c with
    | none => none
    | some (r, phase) =>
      (stepCall c r s.files phase event).map fun x => s.after c r event x.1 x.2.1 x.2.2

end Aibot.Store
