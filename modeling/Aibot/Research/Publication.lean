/-
`_publish_evaluation` as its processes run it: under the lock of the registry the report is replaced, and
then the registry. Any step may raise, and any call may die with its process between the two. Whenever the
report names the version of the registry, it is the report of that registry.
-/
import Aibot.Lib.Run
import Aibot.Research.Evaluation

namespace Aibot.Research

open Observation.Stored (texts)
open Store (JsonDocument Codec VersionedDocument updateJson updateJson_ok)

/-! ## Calls -/

/-- The registry, the report and the lock. -/
structure Publication where
  registry : Option (List Json.Token)
  report : Option (List Json.Token)
  owner : Option Nat

/-- A call that exits or dies leaves its lock. -/
def Publication.unlock (f : Publication) (c : Nat) : Publication :=
  { f with owner := if f.owner = some c then none else f.owner }

/-- A call, with the registry and the report its evaluator has. -/
structure PublishCall where
  registry : JsonDocument
  report : JsonDocument

/-- What a call computes before the lock. -/
structure Evaluated where
  updated : JsonDocument
  expectedVersion : Int
  frozen : Json

inductive PublishPhase
  | waiting (x : Evaluated)
  | opening (x : Evaluated)
  | loaded (x : Evaluated) (document : JsonDocument)
  /-- At the end of the mutator: about to replace the report, and then to save the document. -/
  | reporting (x : Evaluated) (document : JsonDocument)
  | saving (x : Evaluated) (document : JsonDocument)
  | leaving (published : Bool)
  | ended (published : Bool)
  | crashed

inductive PublishEvent
  | acquire
  | timeout
  | proceed
  | release
  | raises
  | crash

def PublishCall.publishedReport (call : PublishCall) (x : Evaluated) : JsonDocument :=
  call.report.set "registry_published_version" (.int (x.expectedVersion + 1))

/-- The document that `update_json` starts from without a file. -/
def noRegistry : JsonDocument := Dict.ofList [("schema_version", .int 2)]

section Publish

variable (ev : Evaluator)

/-- The call up to the lock. -/
def PublishCall.enter (call : PublishCall) : PublishPhase :=
  match ev.registryWithEvaluationStatuses call.registry call.report, VersionedDocument.version call.registry,
    ev.fingerprints call.registry with
  | some updated, some expectedVersion, some frozen => .waiting ⟨updated, expectedVersion, frozen⟩
  | _, _, _ => .ended false

/-- The checks of the mutator, and the document it leaves. -/
def mutate (x : Evaluated) (document : JsonDocument) : Except Unit (Unit × JsonDocument) :=
  if ev.valid document ∧ (ev.fingerprints document).any (·.equal x.frozen) then .ok ((), x.updated) else .error ()

/-- One step of the call `c`. -/
def stepPublish (c : Nat) (call : PublishCall) (f : Publication) :
    PublishPhase → PublishEvent → Option (Publication × PublishPhase)
  | .waiting x, .acquire => if f.owner = none then some ({ f with owner := some c }, .opening x) else none
  | .waiting _, .timeout => some (f, .ended false)
  | .opening x, .proceed =>
    match f.registry with
    | none => some (f, .loaded x noRegistry)
    | some tokens =>
      match Codec.load tokens with
      | none => some (f, .leaving false)
      | some document => some (f, .loaded x document)
  | .loaded x document, .proceed =>
    match updateJson (mutate ev x) (some x.expectedVersion) document with
    | .error _ => some (f, .leaving false)
    | .ok (_, document) => some (f, .reporting x document)
  | .reporting x document, .proceed =>
    if (Codec.dump (call.publishedReport x)).2 then
      some ({ f with report := some (Codec.dump (call.publishedReport x)).1 }, .saving x document)
    else some (f, .leaving false)
  | .saving _ document, .proceed =>
    if (Codec.dump document).2 then some ({ f with registry := some (Codec.dump document).1 }, .leaving true)
    else some (f, .leaving false)
  | .leaving published, .release => some (f.unlock c, .ended published)
  | .waiting _, .raises => some (f, .ended false)
  | .opening _, .raises | .loaded _ _, .raises | .reporting _ _, .raises | .saving _ _, .raises =>
    some (f, .leaving false)
  | .leaving _, .raises => some (f.unlock c, .ended false)
  | .ended _, .crash | .crashed, .crash => none
  | _, .crash => some (f.unlock c, .crashed)
  | _, _ => none

/-- The files and the calls of all evaluators. -/
structure Publications where
  files : Publication
  calls : Nat → Option (PublishCall × PublishPhase)

/-- A saved registry, and the report that may lie there. -/
def Publications.start (registry : List Json.Token) (report : Option (List Json.Token)) : Publications :=
  ⟨⟨some registry, report, none⟩, fun _ => none⟩

inductive PublishAct
  | begins (c : Nat) (call : PublishCall)
  | happens (c : Nat) (event : PublishEvent)

def Publications.step (s : Publications) : PublishAct → Option Publications
  | .begins c call =>
    match s.calls c with
    | none => some { s with calls := Function.update s.calls c (some (call, call.enter ev)) }
    | some _ => none
  | .happens c event =>
    match s.calls c with
    | none => none
    | some (call, phase) =>
      (stepPublish ev c call s.files phase event).map fun x =>
        ⟨x.1, Function.update s.calls c (some (call, x.2))⟩

end Publish

/-- A report that names the version of the registry is the report of the registry. -/
def Settled (py : Observation.Stored.Conversions) (f : Publication) : Prop :=
  ∀ registry report version, f.registry.bind Codec.load = some registry → f.report.bind Codec.load = some report →
    VersionedDocument.version registry = some version →
    (report.field "registry_published_version").eqInt version = true → Agrees py registry report

/-! ## The invariant -/

section Invariant

variable {ev : Evaluator} {c c' : Nat} {call : PublishCall} {f f' : Publication} {x : Evaluated}

/-- What a call has computed of its registry and its report. -/
def Evaluated.Of (ev : Evaluator) (call : PublishCall) (x : Evaluated) : Prop :=
  ev.registryWithEvaluationStatuses call.registry call.report = some x.updated

/-- The registry that the call is about to save. -/
def Evaluated.document (x : Evaluated) : JsonDocument :=
  VersionedDocument.setVersion (x.expectedVersion + 1) x.updated

/-- What holds of a call in each phase, of the files. -/
def PublishInv (ev : Evaluator) (c : Nat) (call : PublishCall) (f : Publication) : PublishPhase → Prop
  | .waiting x => x.Of ev call
  | .opening x => x.Of ev call ∧ f.owner = some c
  | .loaded x document => x.Of ev call ∧ f.owner = some c ∧
      ∀ registry : JsonDocument, f.registry.bind Codec.load = some registry → registry = document
  | .reporting x document => x.Of ev call ∧ f.owner = some c ∧ document = x.document ∧
      ∀ registry : JsonDocument, f.registry.bind Codec.load = some registry →
        VersionedDocument.version registry = some x.expectedVersion
  | .saving x document => x.Of ev call ∧ f.owner = some c ∧ document = x.document ∧
      f.report.bind Codec.load = some (call.publishedReport x)
  | .leaving _ => f.owner = some c
  | .ended _ | .crashed => True

/-- What was written to its end is loaded. -/
theorem load_dump {document : JsonDocument} (h : (Codec.dump document).2 = true) :
    (some (Codec.dump document).1).bind Codec.load = some document :=
  Codec.load_dump document h

/-- The new registry agrees with the new report. -/
theorem Evaluated.Of.agrees (h : x.Of ev call) : Agrees ev.py x.document (call.publishedReport x) :=
  (agrees_of_evaluation h).set (by decide) (by decide) ..

/-! ### One step -/

/-- A step of the call `c` changes nothing while another call holds the lock. -/
def LockKept (c : Nat) (f f' : Publication) : Prop :=
  ∀ c', c' ≠ c → f.owner = some c' → f' = f

theorem PublishInv.kept (h : LockKept c f f') (hne : c' ≠ c) {phase : PublishPhase}
    (hc : PublishInv ev c' call f phase) : PublishInv ev c' call f' phase := by
  cases phase with
  | waiting x => exact hc
  | opening x => rwa [h c' hne hc.2]
  | loaded x document | reporting x document | saving x document => rwa [h c' hne hc.2.1]
  | leaving published => rwa [h c' hne hc]
  | ended published | crashed => trivial

/-- What a step of the call `c` does to the files and to itself. -/
structure PublishOk (ev : Evaluator) (c : Nat) (call : PublishCall) (f : Publication)
    (y : Publication × PublishPhase) : Prop where
  kept : LockKept c f y.1
  settled : Settled ev.py y.1
  call : PublishInv ev c call y.1 y.2

theorem LockKept.of_owner (h : f.owner = some c) : LockKept c f f' :=
  fun _ hne ho => absurd (Option.some.inj (ho.symm.trans h)) hne

theorem LockKept.unlock : LockKept c f (f.unlock c) := by
  intro c' hne ho
  have hother : f.owner ≠ some c := by
    rw [ho]
    exact fun he => hne (Option.some.inj he)
  show { f with owner := if f.owner = some c then none else f.owner } = f
  rw [if_neg hother]

theorem PublishOk.stay (hs : Settled ev.py f) {phase : PublishPhase} (hc : PublishInv ev c call f phase) :
    PublishOk ev c call f (f, phase) :=
  ⟨fun _ _ _ => rfl, hs, hc⟩

theorem PublishOk.unlock (hs : Settled ev.py f) {phase : PublishPhase}
    (hc : PublishInv ev c call (f.unlock c) phase) : PublishOk ev c call f (f.unlock c, phase) :=
  ⟨.unlock, hs, hc⟩

theorem opening_ok (hs : Settled ev.py f) (hc : PublishInv ev c call f (.opening x))
    {y : Publication × PublishPhase} (h : stepPublish ev c call f (.opening x) .proceed = some y) :
    PublishOk ev c call f y := by
  obtain ⟨hx, howner⟩ := hc
  simp only [stepPublish] at h
  split at h
  · rename_i hnone
    cases h
    exact .stay hs ⟨hx, howner, by rw [hnone]; nofun⟩
  · rename_i tokens htokens
    split at h
    · cases h; exact .stay hs howner
    · rename_i document hload
      cases h
      refine .stay hs ⟨hx, howner, fun registry hregistry => ?_⟩
      rw [htokens, Option.bind_some, hload] at hregistry
      exact (Option.some.inj hregistry).symm

/-- An update that goes through saves the evaluation's document over the version it expects. -/
theorem updateJson_mutate {x : Evaluated} {document updated : JsonDocument} {u : Unit}
    (h : updateJson (mutate ev x) (some x.expectedVersion) document = .ok (u, updated)) :
    VersionedDocument.version document = some x.expectedVersion ∧ updated = x.document := by
  obtain ⟨version, mutated, hversion, hexpected, hmutate, rfl⟩ := updateJson_ok h
  obtain rfl := hexpected _ rfl
  unfold mutate at hmutate
  split_ifs at hmutate
  cases hmutate
  exact ⟨hversion, rfl⟩

/-- The version check: the registry that is there has the version that the call expects. -/
theorem loaded_ok (hs : Settled ev.py f) {document : JsonDocument}
    (hc : PublishInv ev c call f (.loaded x document)) {y : Publication × PublishPhase}
    (h : stepPublish ev c call f (.loaded x document) .proceed = some y) : PublishOk ev c call f y := by
  obtain ⟨hx, howner, hsame⟩ := hc
  simp only [stepPublish] at h
  split at h
  · cases h; exact .stay hs howner
  · rename_i mutated hupdate
    cases h
    obtain ⟨hversion, hdocument⟩ := updateJson_mutate hupdate
    exact .stay hs ⟨hx, howner, hdocument, fun registry hregistry => hsame registry hregistry ▸ hversion⟩

/-- The new report names a version that the registry does not have yet. -/
theorem reporting_ok (hs : Settled ev.py f) {document : JsonDocument}
    (hc : PublishInv ev c call f (.reporting x document)) {y : Publication × PublishPhase}
    (h : stepPublish ev c call f (.reporting x document) .proceed = some y) : PublishOk ev c call f y := by
  obtain ⟨hx, howner, hdocument, hversion⟩ := hc
  simp only [stepPublish] at h
  split_ifs at h with hdump
  · cases h
    have hload := load_dump hdump
    refine ⟨.of_owner howner, fun registry report version hregistry hreport hv hpublished => ?_,
      hx, howner, hdocument, hload⟩
    obtain rfl : report = call.publishedReport x := Option.some.inj (hreport.symm.trans hload)
    obtain rfl : version = x.expectedVersion := Option.some.inj (hv.symm.trans (hversion registry hregistry))
    have hfield : (call.publishedReport x).field "registry_published_version" = .int (x.expectedVersion + 1) :=
      Dict.field_set_self ..
    rw [hfield] at hpublished
    have heq : x.expectedVersion + 1 = x.expectedVersion := of_decide_eq_true hpublished
    omega
  · cases h; exact .stay hs howner

/-- The new registry agrees with the report that is there. -/
theorem saving_ok (hs : Settled ev.py f) {document : JsonDocument}
    (hc : PublishInv ev c call f (.saving x document)) {y : Publication × PublishPhase}
    (h : stepPublish ev c call f (.saving x document) .proceed = some y) : PublishOk ev c call f y := by
  obtain ⟨hx, howner, hdocument, hload⟩ := hc
  simp only [stepPublish] at h
  split_ifs at h with hdump
  · cases h
    refine ⟨.of_owner howner, fun registry report version hregistry hreport _ _ => ?_, howner⟩
    obtain rfl : registry = document := Option.some.inj (hregistry.symm.trans (load_dump hdump))
    obtain rfl : report = call.publishedReport x := Option.some.inj (hreport.symm.trans hload)
    rw [hdocument]
    exact hx.agrees
  · cases h; exact .stay hs howner

theorem stepPublish_ok {phase : PublishPhase} {event : PublishEvent} {y : Publication × PublishPhase}
    (hs : Settled ev.py f) (hc : PublishInv ev c call f phase) (h : stepPublish ev c call f phase event = some y) :
    PublishOk ev c call f y := by
  cases phase with
  | waiting x =>
    cases event with
    | acquire =>
      simp only [stepPublish] at h
      split_ifs at h with hfree
      cases h
      exact ⟨fun _ _ ho => (nomatch hfree.symm.trans ho), hs, hc, rfl⟩
    | timeout | raises => cases h; exact .stay hs trivial
    | crash => cases h; exact .unlock hs trivial
    | proceed | release => cases h
  | opening x =>
    cases event with
    | proceed => exact opening_ok hs hc h
    | raises => cases h; exact .stay hs hc.2
    | crash => cases h; exact .unlock hs trivial
    | acquire | timeout | release => cases h
  | loaded x document =>
    cases event with
    | proceed => exact loaded_ok hs hc h
    | raises => cases h; exact .stay hs hc.2.1
    | crash => cases h; exact .unlock hs trivial
    | acquire | timeout | release => cases h
  | reporting x document =>
    cases event with
    | proceed => exact reporting_ok hs hc h
    | raises => cases h; exact .stay hs hc.2.1
    | crash => cases h; exact .unlock hs trivial
    | acquire | timeout | release => cases h
  | saving x document =>
    cases event with
    | proceed => exact saving_ok hs hc h
    | raises => cases h; exact .stay hs hc.2.1
    | crash => cases h; exact .unlock hs trivial
    | acquire | timeout | release => cases h
  | leaving published =>
    cases event with
    | release | raises | crash => cases h; exact .unlock hs trivial
    | acquire | timeout | proceed => cases h
  | ended published | crashed => cases event <;> cases h

end Invariant

/-! ## Runs -/

section Runs

variable {ev : Evaluator}

structure PublicationsInv (ev : Evaluator) (s : Publications) : Prop where
  settled : Settled ev.py s.files
  calls : ∀ c call phase, s.calls c = some (call, phase) → PublishInv ev c call s.files phase

theorem publish_enter_inv (c : Nat) (call : PublishCall) (f : Publication) :
    PublishInv ev c call f (call.enter ev) := by
  unfold PublishCall.enter
  split
  · rename_i hupdated _ _
    exact hupdated
  · trivial

theorem Publications.step_inv {s s' : Publications} {act : PublishAct} (hs : PublicationsInv ev s)
    (h : s.step ev act = some s') : PublicationsInv ev s' := by
  cases act with
  | begins c call =>
    simp only [Publications.step] at h
    split at h
    · cases h
      refine ⟨hs.settled, fun c' call' phase hcall => ?_⟩
      rcases update_eq_some hcall with ⟨-, heq⟩ | ⟨-, hcall⟩
      · cases heq; exact publish_enter_inv c' call s.files
      · exact hs.calls c' call' phase hcall
    · cases h
  | happens c event =>
    simp only [Publications.step] at h
    split at h
    · cases h
    · rename_i call phase hcall
      obtain ⟨y, hy, rfl⟩ := Option.map_eq_some_iff.1 h
      have hok := stepPublish_ok hs.settled (hs.calls c call phase hcall) hy
      refine ⟨hok.settled, fun c' call' phase' hcall' => ?_⟩
      rcases update_eq_some hcall' with ⟨rfl, heq⟩ | ⟨hne, hcall'⟩
      · cases heq; exact hok.call
      · exact (hs.calls c' call' phase' hcall').kept hok.kept hne

/-- In every run of evaluators on a registry, a report that names the version of the registry is its
report, as it is at the start. -/
theorem report_agrees {registry : List Json.Token} {report : Option (List Json.Token)} {acts : List PublishAct}
    {s : Publications} (h : Run (Publications.step ev) Run.anyStep (Publications.start registry report) acts s)
    (hstart : Settled ev.py ⟨some registry, report, none⟩) : Settled ev.py s.files :=
  (h.invariant (fun _ _ _ hs _ hstep => Publications.step_inv hs hstep)
    ⟨hstart, fun _ _ _ hcall => nomatch hcall⟩ : PublicationsInv ev s).settled

end Runs

/-! ## A crash after the report -/

def sampleEvaluator : Evaluator where
  py := ⟨fun _ => none, fun _ => none, fun _ => "", fun _ => ""⟩
  sha256 := fun tokens => String.ofList (List.replicate 64 (if .str "later" ∈ tokens then '1' else '0'))
  valid := fun _ => true

/-- A saved registry with one hypothesis. -/
def sampleRegistry : JsonDocument :=
  Dict.ofList
    [("hypotheses", .arr [.obj [("hypothesis_id", .str "momentum"), ("definition_fingerprint", .str "f"),
        ("status", .str "READY_FOR_FUTURE_VALIDATION")]]),
      ("version", .int 1)]

/-- A report without samples. -/
def sampleReport (generatedAt : String) (runId : Char) : JsonDocument :=
  Dict.ofList
    [("generated_at", .str generatedAt), ("registry_source_version", .int 1),
      ("hypotheses", .arr [.obj [("hypothesis_id", .str "momentum"), ("future_status", .str "FUTURE_INSUFFICIENT"),
        ("registry_status_after_evaluation", .str "FUTURE_VALIDATING"),
        ("falsification_reasons", texts ["SAMPLE_TOO_SMALL", "INSUFFICIENT_UNIQUE_MINTS", "INSUFFICIENT_COVERAGE",
          "INSUFFICIENT_CHRONOLOGICAL_COVERAGE"]),
        ("horizons", .obj [("60m", .obj [("first_signal_per_mint", .obj [])])])]]),
      ("evaluation_run_id", .str (String.ofList (List.replicate 64 runId)))]

/-- The first call dies between the report and the registry; the second reuses its version number, and the
third is stale. -/
def crashedPublication : List PublishAct :=
  .begins 0 ⟨sampleRegistry, sampleReport "now" '0'⟩ ::
      [.acquire, .proceed, .proceed, .proceed, .crash].map (.happens 0) ++
    .begins 1 ⟨sampleRegistry, sampleReport "later" '1'⟩ ::
      [.acquire, .proceed, .proceed, .proceed, .proceed, .release].map (.happens 1) ++
    .begins 2 ⟨sampleRegistry, sampleReport "now" '0'⟩ ::
      [.acquire, .proceed, .proceed, .release].map (.happens 2)

/-- How a call has ended, and whether it published. -/
def endOf (s : Publications) (c : Nat) : Option Bool :=
  match s.calls c with
  | some (_, .ended published) => some published
  | _ => none

theorem report_agrees_crashed : ∃ s,
    Run (Publications.step sampleEvaluator) Run.anyStep (.start (Codec.dump sampleRegistry).1 none)
      crashedPublication s ∧
    (endOf s 0 = none ∧ endOf s 1 = some true ∧ endOf s 2 = some false) ∧ Settled sampleEvaluator.py s.files := by
  have hrun : ∃ s, Run (Publications.step sampleEvaluator) Run.anyStep (.start (Codec.dump sampleRegistry).1 none)
      crashedPublication s ∧ (endOf s 0 = none ∧ endOf s 1 = some true ∧ endOf s 2 = some false) :=
    Run.exists_of_any (by decide +kernel)
  obtain ⟨s, hrun, hends⟩ := hrun
  exact ⟨s, hrun, hends, report_agrees hrun fun _ _ _ _ hreport => nomatch hreport⟩

end Aibot.Research
