/-
`future_validation.main` as its processes run it: a run finds a frozen registry and its boundary manifest,
or it writes the manifest and then saves the registry that it has built. What it finds is looked up before
the lock is taken. While what a first run has found still holds when it writes, a saved registry keeps its
definitions and its manifest.
-/
import Aibot.Research.Publication

namespace Aibot.Research

open Store (JsonDocument Codec VersionedDocument updateJson updateJson_ok)

/-! ## Calls -/

/-- The registry, its manifest, the report and the lock of the registry. -/
structure LaneFiles extends Publication where
  manifest : Option (List Json.Token)

/-- What `build_hypothesis_registry` derives from its rows. -/
structure Built where
  createdAt : Json
  boundary : JsonDocument
  hypotheses : List Json

/-- The registry that `build_hypothesis_registry` returns. -/
def Built.registry (built : Built) (registryMode : String) : JsonDocument :=
  Dict.ofList
    [("schema_version", .int 2),
      ("created_at", built.createdAt),
      ("registry_mode", .str registryMode),
      ("discovery_boundary", .ofFields built.boundary),
      ("maximum_hypotheses_per_family", .int 8),
      ("selection_iteration", .int 1),
      ("multiple_testing_warning", .bool true),
      ("automatic_trading_changes", .bool false),
      ("hypotheses", .arr built.hypotheses)]

/-- A call of `main`: its arguments, and what it makes of its input rows at the time of its clock. -/
structure MainCall where
  registryMode : String
  discoveryDataEnd : Option String
  /-- `build_hypothesis_registry` with `created_at` and `discovery_data_end`; none where it raises. -/
  buildRegistry : Json → Json → Option Built
  /-- `build_future_validation`; none where it raises. -/
  buildValidation : JsonDocument → Option JsonDocument

inductive MainPhase
  | starting
  /-- The registry exists. -/
  | readingRegistry
  | lookingForManifest (registry : JsonDocument)
  | readingManifest (registry : JsonDocument)
  /-- The registry does not exist. -/
  | choosing
  /-- The registry does not exist, and the manifest does. -/
  | readingExisting
  | writingManifest (built : Built)
  | waiting (registry : JsonDocument)
  | opening (registry : JsonDocument)
  | saving (document : JsonDocument)
  | saved (document : JsonDocument)
  | evaluating (registry : JsonDocument)
  | publishing (call : PublishCall) (phase : PublishPhase)
  /-- After an exception under the lock of `_save`. -/
  | leaving
  | failed
  | crashed

/-- `read_json`. -/
def readJson (fallback : JsonDocument) : Option (List Json.Token) → Option JsonDocument
  | none => some fallback
  | some tokens => Codec.load tokens

/-- The boundary of the registry and the manifest have one canonical text. -/
def boundaryMatches (registry manifest : JsonDocument) : Bool :=
  match Json.canonical (registry.field "discovery_boundary"), Json.canonical (.ofFields manifest) with
  | some text, some text' => decide (text = text')
  | _, _ => false

/-- `hmac.compare_digest` raises for a text that is not ASCII. -/
def isAscii (x : Json) : Bool :=
  (Json.canonical x).any fun tokens => tokens.all fun
    | .str s => s.toList.all fun char => decide (char.toNat < 128)
    | _ => true

/-- The evaluator, and what `_validate_boundary_document` accepts. -/
structure LaneEvaluator extends Evaluator where
  validBoundary : JsonDocument → Bool

section Step

variable (ev : LaneEvaluator)

/-- `validate_boundary_manifest`; false where it raises. -/
def LaneEvaluator.validBoundaryManifest (registry manifest : JsonDocument) : Bool :=
  ev.valid registry && ev.validBoundary manifest && isAscii (registry.field "discovery_boundary") &&
    isAscii (.ofFields manifest) && boundaryMatches registry manifest

/-- The registry of a first run that finds a manifest; none where it raises. -/
def MainCall.rebuild (call : MainCall) (manifest : JsonDocument) : Option Built := do
  guard (ev.validBoundary manifest)
  let discoveryDataEnd ← manifest.get? "discovery_data_end"
  guard (call.discoveryDataEnd.all discoveryDataEnd.isStr)
  let createdAt ← manifest.get? "created_at"
  let built ← call.buildRegistry createdAt discoveryDataEnd
  guard ((Json.ofFields manifest).equal (.ofFields built.boundary))
  return built

/-- The lock of the call is free again. -/
def LaneFiles.unlock (f : LaneFiles) (c : Nat) : LaneFiles := { f with toPublication := f.toPublication.unlock c }

/-- One step of the call `c`. -/
def stepMain (c : Nat) (call : MainCall) (f : LaneFiles) :
    MainPhase → PublishEvent → Option (LaneFiles × MainPhase)
  | .publishing inner phase, event =>
    (stepPublish ev.toEvaluator c inner f.toPublication phase event).map fun y =>
      ({ f with toPublication := y.1 }, .publishing inner y.2)
  | .starting, .proceed => some (f, if f.registry.isSome then .readingRegistry else .choosing)
  | .readingRegistry, .proceed =>
    match readJson Dict.empty f.registry with
    | none => some (f, .failed)
    | some registry =>
      if ev.valid registry ∧ (registry.field "registry_mode").isStr call.registryMode then
        some (f, .lookingForManifest registry)
      else some (f, .failed)
  | .lookingForManifest registry, .proceed =>
    some (f, if f.manifest.isSome then .readingManifest registry else .failed)
  | .readingManifest registry, .proceed =>
    if (readJson Dict.empty f.manifest).any (ev.validBoundaryManifest registry) then some (f, .evaluating registry)
    else some (f, .failed)
  | .choosing, .proceed =>
    if f.manifest.isSome then some (f, .readingExisting)
    else
      match call.buildRegistry .null ((call.discoveryDataEnd.map Json.str).getD .null) with
      | none => some (f, .failed)
      | some built => some (f, .writingManifest built)
  | .readingExisting, .proceed =>
    match (readJson Dict.empty f.manifest).bind (call.rebuild ev) with
    | none => some (f, .failed)
    | some built => some (f, .waiting (built.registry call.registryMode))
  | .writingManifest built, .proceed =>
    if (Codec.dump built.boundary).2 then
      some ({ f with manifest := some (Codec.dump built.boundary).1 }, .waiting (built.registry call.registryMode))
    else some (f, .failed)
  -- `_save`: it replaces whatever registry is there
  | .waiting registry, .acquire =>
    if f.owner = none then some ({ f with owner := some c }, .opening registry) else none
  | .waiting _, .timeout => some (f, .failed)
  | .opening registry, .proceed =>
    match readJson noRegistry f.registry with
    | none => some (f, .leaving)
    | some document =>
      match updateJson (fun _ => (.ok ((), registry) : Except Unit (Unit × JsonDocument))) none document with
      | .error _ => some (f, .leaving)
      | .ok (_, document) => some (f, .saving document)
  | .saving document, .proceed =>
    if (Codec.dump document).2 then some ({ f with registry := some (Codec.dump document).1 }, .saved document)
    else some (f, .leaving)
  | .saved document, .release => some (f.unlock c, .evaluating document)
  | .leaving, .release => some (f.unlock c, .failed)
  | .evaluating registry, .proceed =>
    match call.buildValidation registry with
    | none => some (f, .failed)
    | some report =>
      let inner : PublishCall := ⟨registry, report⟩
      some (f, .publishing inner (inner.enter ev.toEvaluator))
  | .failed, .raises | .crashed, .raises | .failed, .crash | .crashed, .crash => none
  | .opening _, .raises | .saving _, .raises => some (f, .leaving)
  | .saved _, .raises | .leaving, .raises => some (f.unlock c, .failed)
  | _, .raises => some (f, .failed)
  | _, .crash => some (f.unlock c, .crashed)
  | _, _ => none

/-- The files and the runs on them. -/
structure Lane where
  files : LaneFiles
  calls : Nat → Option (MainCall × MainPhase)

/-- Before a registry is saved. -/
def Lane.start (manifest report : Option (List Json.Token)) : Lane :=
  ⟨⟨⟨none, report, none⟩, manifest⟩, fun _ => none⟩

inductive LaneAct
  | begins (c : Nat) (call : MainCall)
  | happens (c : Nat) (event : PublishEvent)

def Lane.step (s : Lane) : LaneAct → Option Lane
  | .begins c call =>
    match s.calls c with
    | none => some { s with calls := Function.update s.calls c (some (call, .starting)) }
    | some _ => none
  | .happens c event =>
    match s.calls c with
    | none => none
    | some (call, phase) =>
      (stepMain ev c call s.files phase event).map fun x =>
        ⟨x.1, Function.update s.calls c (some (call, x.2))⟩

end Step

/-! ## What a first run relies on -/

/-- At its writes no registry has been saved, and at the second the manifest is the one of its registry. -/
def MainPhase.ChecksHold (f : LaneFiles) : MainPhase → Prop
  | .writingManifest _ => f.registry = none
  | .saving document =>
    f.registry = none ∧ (f.manifest.bind Codec.load).any (boundaryMatches document) = true
  | _ => True

instance (f : LaneFiles) (phase : MainPhase) : Decidable (phase.ChecksHold f) := by
  cases phase <;> unfold MainPhase.ChecksHold <;> infer_instance

/-- The step writes nothing, or what the run has found before still holds. -/
def checksHold (s : Lane) : LaneAct → Prop
  | .happens c .proceed => ∀ x ∈ s.calls c, x.2.ChecksHold s.files
  | _ => True

instance (s : Lane) (act : LaneAct) : Decidable (checksHold s act) := by
  rcases act with ⟨c, call⟩ | ⟨c, event⟩
  · exact .isTrue trivial
  · cases event <;> unfold checksHold <;> infer_instance

/-! ## Definitions -/

/-- A hypothesis without its status. -/
def definition (item : Json) : Option JsonDocument := item.fields?.map fun item => item.erase "status"

/-- The definitions of a registry, with their fingerprints. -/
def definitions (registry : JsonDocument) : Option (List (Option JsonDocument)) :=
  (hypothesesOf registry).map fun items => items.map definition

/-- The second registry has the definitions and the boundary of the first. -/
structure SameFrozen (registry registry' : JsonDocument) : Prop where
  definitions : definitions registry' = definitions registry
  boundary : registry'.field "discovery_boundary" = registry.field "discovery_boundary"

namespace SameFrozen

variable {registry registry' registry'' : JsonDocument}

theorem refl (registry : JsonDocument) : SameFrozen registry registry := ⟨rfl, rfl⟩

theorem trans (h : SameFrozen registry registry') (h' : SameFrozen registry' registry'') :
    SameFrozen registry registry'' :=
  ⟨h'.definitions.trans h.definitions, h'.boundary.trans h.boundary⟩

theorem symm (h : SameFrozen registry registry') : SameFrozen registry' registry :=
  ⟨h.definitions.symm, h.boundary.symm⟩

theorem boundaryMatches (h : SameFrozen registry registry') (manifest : JsonDocument) :
    boundaryMatches registry' manifest = boundaryMatches registry manifest := by
  unfold Research.boundaryMatches
  rw [h.boundary]

end SameFrozen

/-! ### What an evaluation leaves -/

theorem withStatus_definition {py : Observation.Stored.Conversions} {statuses : Dict String String} {item item' : Json}
    (h : withStatus py statuses item = some item') : definition item' = definition item := by
  simp only [withStatus, bind, Option.bind_eq_some_iff, pure] at h
  obtain ⟨fields, hfields, -, -, status, -, h⟩ := h
  obtain rfl := Option.some.inj h
  unfold definition
  rw [hfields, Json.fields?_ofFields, Option.map_some, Option.map_some, Dict.erase_set_self]

theorem definitions_of_hypotheses {document : JsonDocument} {items : List Json}
    (h : hypothesesOf document = some items) : definitions document = some (items.map definition) := by
  unfold definitions
  rw [h, Option.map_some]

/-- A key that is not the list of hypotheses. -/
theorem definitions_set (document : JsonDocument) {key : String} (hkey : "hypotheses" ≠ key) (x : Json) :
    definitions (document.set key x) = definitions document := by
  unfold definitions hypothesesOf
  rw [Dict.get?_set_of_ne _ _ hkey]

/-- An evaluation changes the statuses, and nothing that is frozen. -/
theorem sameFrozen_of_evaluation {ev : Evaluator} {registry report updated : JsonDocument}
    (h : ev.registryWithEvaluationStatuses registry report = some updated) : SameFrozen registry updated := by
  simp only [Evaluator.registryWithEvaluationStatuses, bind, Option.bind_eq_some_iff, Option.guard_eq_some',
    pure] at h
  obtain ⟨-, -, source, -, -, -, -, -, -, -, rows, -, statuses, -, hypotheses, hhypotheses, ids, -, -, -,
    items, hitems, -, -, h⟩ := h
  obtain rfl := Option.some.inj h
  constructor
  · have hupdated : hypothesesOf (registry.update [("hypotheses", .arr items),
        ("last_evaluated_at", report.field "generated_at"),
        ("last_evaluation_run_id", .str (textOf ev.py report "evaluation_run_id")),
        ("last_evaluation_source_version", .int source)]) = some items := by
      unfold hypothesesOf
      rw [Dict.get?_update_of_mem _ (v := Json.arr items) (by simp) (by simp)]
    rw [definitions_of_hypotheses hupdated, definitions_of_hypotheses hhypotheses]
    have hsame : items.map definition = hypotheses.map definition := by
      rw [← List.forall₂_eq_eq_eq, List.forall₂_map_left_iff, List.forall₂_map_right_iff]
      exact ((forall₂_of_mapM hitems).imp fun _ _ hitem => withStatus_definition hitem).flip
    exact congrArg some hsame
  · exact Dict.field_update_of_not_mem _ (by simp)

/-! ## One step -/

section Invariant

variable {ev : LaneEvaluator} {c : Nat} {call : MainCall} {f f' f'' : LaneFiles} {registry : JsonDocument}

/-- The registry as it is read. -/
def OnDisk (f : LaneFiles) (registry : JsonDocument) : Prop := f.registry.bind Codec.load = some registry

/-- The registry and the manifest do not contradict each other. -/
def Consistent (f : LaneFiles) : Prop :=
  ∀ registry, OnDisk f registry →
    ∃ manifest, f.manifest.bind Codec.load = some manifest ∧ boundaryMatches registry manifest = true

/-- What is frozen once a registry is saved. -/
structure KeepsFrozen (f f' : LaneFiles) : Prop where
  present : f.registry.isSome → f'.registry.isSome
  manifest : ∀ registry, OnDisk f registry → f'.manifest = f.manifest
  registry : ∀ registry, OnDisk f registry → ∃ registry', OnDisk f' registry' ∧ SameFrozen registry registry'

/-- A registry that a run carries has the definitions and the boundary of the saved one. -/
def Known (f : LaneFiles) (registry : JsonDocument) : Prop := ∃ disk, OnDisk f disk ∧ SameFrozen registry disk

/-- What a publication carries. -/
def Publishes (ev : Evaluator) (inner : PublishCall) : PublishPhase → Prop
  | .waiting x | .opening x | .loaded x _ => x.Of ev inner
  | .reporting x document | .saving x document => x.Of ev inner ∧ document = x.document
  | _ => True

/-- What holds of a run in each phase, of the files. -/
def MainInv (ev : LaneEvaluator) (f : LaneFiles) : MainPhase → Prop
  | .readingRegistry => f.registry.isSome
  | .lookingForManifest registry | .readingManifest registry | .saved registry | .evaluating registry =>
    Known f registry
  | .publishing inner phase => Known f inner.registry ∧ Publishes ev.toEvaluator inner phase
  | _ => True

theorem KeepsFrozen.refl (f : LaneFiles) : KeepsFrozen f f :=
  ⟨id, fun _ _ => rfl, fun registry h => ⟨registry, h, .refl registry⟩⟩

theorem KeepsFrozen.trans (h : KeepsFrozen f f') (h' : KeepsFrozen f' f'') : KeepsFrozen f f'' := by
  refine ⟨h'.present ∘ h.present, fun registry hdisk => ?_, fun registry hdisk => ?_⟩
  · obtain ⟨registry', hdisk', -⟩ := h.registry registry hdisk
    rw [h'.manifest registry' hdisk', h.manifest registry hdisk]
  · obtain ⟨registry', hdisk', hsame⟩ := h.registry registry hdisk
    obtain ⟨registry'', hdisk'', hsame'⟩ := h'.registry registry' hdisk'
    exact ⟨registry'', hdisk'', hsame.trans hsame'⟩

/-- Nothing is frozen before a registry is saved. -/
theorem KeepsFrozen.of_none (h : f.registry = none) : KeepsFrozen f f' := by
  refine ⟨?_, fun registry hdisk => ?_, fun registry hdisk => ?_⟩
  · rw [h]
    nofun
  all_goals
    rw [OnDisk, h] at hdisk
    nomatch hdisk

theorem Known.kept (h : Known f registry) (hk : KeepsFrozen f f') : Known f' registry := by
  obtain ⟨disk, hdisk, hsame⟩ := h
  obtain ⟨disk', hdisk', hsame'⟩ := hk.registry disk hdisk
  exact ⟨disk', hdisk', hsame.trans hsame'⟩

/-- What a run has read agrees with the manifest that is there. -/
theorem Known.manifest (h : Known f registry) (hf : Consistent f) :
    ∃ manifest, f.manifest.bind Codec.load = some manifest ∧ boundaryMatches registry manifest = true := by
  obtain ⟨disk, hdisk, hsame⟩ := h
  obtain ⟨manifest, hload, hmatches⟩ := hf disk hdisk
  exact ⟨manifest, hload, (hsame.boundaryMatches manifest).symm.trans hmatches⟩

theorem MainInv.kept {phase : MainPhase} (h : MainInv ev f phase) (hk : KeepsFrozen f f') : MainInv ev f' phase := by
  cases phase with
  | readingRegistry => exact hk.present h
  | lookingForManifest registry | readingManifest registry | saved registry | evaluating registry =>
    exact Known.kept h hk
  | publishing inner phase => exact ⟨h.1.kept hk, h.2⟩
  | _ => trivial

/-- What a step of a run leaves. -/
structure MainOk (ev : LaneEvaluator) (f : LaneFiles) (y : LaneFiles × MainPhase) : Prop where
  kept : KeepsFrozen f y.1
  consistent : Consistent y.1
  call : MainInv ev y.1 y.2

/-- A step that leaves the registry and the manifest. -/
theorem MainOk.stay (hf : Consistent f) {y : LaneFiles × MainPhase} (hregistry : y.1.registry = f.registry)
    (hmanifest : y.1.manifest = f.manifest) (hc : MainInv ev f y.2) : MainOk ev f y := by
  have hdisk : ∀ registry, OnDisk y.1 registry ↔ OnDisk f registry := fun registry => by
    unfold OnDisk
    rw [hregistry]
  have hkept : KeepsFrozen f y.1 :=
    ⟨by rw [hregistry]; exact id, fun _ _ => hmanifest, fun registry h => ⟨registry, (hdisk registry).2 h, .refl _⟩⟩
  refine ⟨hkept, fun registry h => ?_, hc.kept hkept⟩
  rw [hmanifest]
  exact hf registry ((hdisk registry).1 h)

/-! ### The steps that read and write -/

/-- The manifest of a first run: no registry relies on the one that was there. -/
theorem writingManifest_ok {built : Built} (hf : Consistent f)
    (hchecks : MainPhase.ChecksHold f (.writingManifest built)) {y : LaneFiles × MainPhase}
    (h : stepMain ev c call f (.writingManifest built) .proceed = some y) : MainOk ev f y := by
  have hnone : f.registry = none := hchecks
  simp only [stepMain] at h
  split_ifs at h with hdump
  · cases h
    refine ⟨.of_none hnone, fun registry hdisk => ?_, trivial⟩
    rw [OnDisk, hnone] at hdisk
    nomatch hdisk
  · cases h
    exact .stay hf rfl rfl trivial

/-- The registry of a first run: it is the first one, and the manifest is its own. -/
theorem saving_main_ok {document : JsonDocument} (hf : Consistent f)
    (hchecks : MainPhase.ChecksHold f (.saving document)) {y : LaneFiles × MainPhase}
    (h : stepMain ev c call f (.saving document) .proceed = some y) : MainOk ev f y := by
  obtain ⟨hnone, hmatches⟩ := hchecks
  simp only [stepMain] at h
  split_ifs at h with hdump
  · cases h
    have hload := load_dump hdump
    refine ⟨.of_none hnone, fun registry hdisk => ?_, document, hload, .refl document⟩
    obtain rfl : registry = document := Option.some.inj (hdisk.symm.trans hload)
    exact (Option.any_eq_true _ _).1 hmatches
  · cases h
    exact .stay hf rfl rfl trivial

theorem readingRegistry_ok (hf : Consistent f) (hc : MainInv ev f .readingRegistry) {y : LaneFiles × MainPhase}
    (h : stepMain ev c call f .readingRegistry .proceed = some y) : MainOk ev f y := by
  obtain ⟨tokens, htokens⟩ := Option.isSome_iff_exists.1 hc
  simp only [stepMain, readJson, htokens] at h
  split at h
  · cases h
    exact .stay hf rfl rfl trivial
  · rename_i registry hload
    split_ifs at h with hvalid
    · cases h
      have hdisk : OnDisk f registry := by
        rw [OnDisk, htokens, Option.bind_some, hload]
      exact .stay hf rfl rfl ⟨registry, hdisk, .refl registry⟩
    · cases h
      exact .stay hf rfl rfl trivial

/-- A publication replaces the registry, if at all, by the one it has computed. -/
theorem publishes_step {inner : PublishCall} {p : Publication} {phase : PublishPhase} {event : PublishEvent}
    {y : Publication × PublishPhase} (hc : Publishes ev.toEvaluator inner phase)
    (h : stepPublish ev.toEvaluator c inner p phase event = some y) :
    Publishes ev.toEvaluator inner y.2 ∧
      (y.1.registry = p.registry ∨
        ∃ x : Evaluated, x.Of ev.toEvaluator inner ∧ y.1.registry.bind Codec.load = some x.document) := by
  cases phase with
  | waiting x =>
    cases event with
    | acquire =>
      simp only [stepPublish] at h
      split_ifs at h
      cases h
      exact ⟨hc, .inl rfl⟩
    | timeout | raises | crash => cases h; exact ⟨trivial, .inl rfl⟩
    | proceed | release => cases h
  | opening x =>
    cases event with
    | proceed =>
      simp only [stepPublish] at h
      split at h
      · cases h; exact ⟨hc, .inl rfl⟩
      · split at h
        · cases h; exact ⟨trivial, .inl rfl⟩
        · cases h; exact ⟨hc, .inl rfl⟩
    | raises | crash => cases h; exact ⟨trivial, .inl rfl⟩
    | acquire | timeout | release => cases h
  | loaded x document =>
    cases event with
    | proceed =>
      simp only [stepPublish] at h
      split at h
      · cases h; exact ⟨trivial, .inl rfl⟩
      · rename_i mutated hupdate
        cases h
        exact ⟨⟨hc, (updateJson_mutate hupdate).2⟩, .inl rfl⟩
    | raises | crash => cases h; exact ⟨trivial, .inl rfl⟩
    | acquire | timeout | release => cases h
  | reporting x document =>
    cases event with
    | proceed =>
      simp only [stepPublish] at h
      split_ifs at h
      · cases h; exact ⟨hc, .inl rfl⟩
      · cases h; exact ⟨trivial, .inl rfl⟩
    | raises | crash => cases h; exact ⟨trivial, .inl rfl⟩
    | acquire | timeout | release => cases h
  | saving x document =>
    cases event with
    | proceed =>
      simp only [stepPublish] at h
      split_ifs at h with hdump
      · cases h
        refine ⟨trivial, .inr ⟨x, hc.1, ?_⟩⟩
        rw [← hc.2]
        exact load_dump hdump
      · cases h; exact ⟨trivial, .inl rfl⟩
    | raises | crash => cases h; exact ⟨trivial, .inl rfl⟩
    | acquire | timeout | release => cases h
  | leaving published =>
    cases event with
    | release | raises | crash => cases h; exact ⟨trivial, .inl rfl⟩
    | acquire | timeout | proceed => cases h
  | ended published | crashed => cases event <;> cases h

/-- The registry that a publication saves has the definitions of the one it replaces. -/
theorem publishing_ok {inner : PublishCall} {phase : PublishPhase} {event : PublishEvent} (hf : Consistent f)
    (hc : MainInv ev f (.publishing inner phase)) {y : LaneFiles × MainPhase}
    (h : stepMain ev c call f (.publishing inner phase) event = some y) : MainOk ev f y := by
  obtain ⟨hknown, hpublishes⟩ := hc
  obtain ⟨z, hz, rfl⟩ : ∃ z, stepPublish ev.toEvaluator c inner f.toPublication phase event = some z ∧
      ({ f with toPublication := z.1 }, MainPhase.publishing inner z.2) = y := by
    cases event <;> exact Option.map_eq_some_iff.1 h
  obtain ⟨hpublishes', hregistry | ⟨x, hx, hload⟩⟩ := publishes_step hpublishes hz
  · exact .stay hf hregistry rfl ⟨hknown, hpublishes'⟩
  · have hsame : SameFrozen inner.registry x.document :=
      (sameFrozen_of_evaluation hx).trans
        ⟨definitions_set _ (by decide) _, Dict.field_set_of_ne _ _ (by decide)⟩
    have hkept : KeepsFrozen f { f with toPublication := z.1 } := by
      constructor
      · intro _
        exact Option.isSome_iff_exists.2 ((Option.bind_eq_some_iff.1 hload).imp fun _ htokens => htokens.1)
      · exact fun _ _ => rfl
      · intro registry hdisk
        obtain ⟨disk, hdisk', hinner⟩ := hknown
        obtain rfl : registry = disk := Option.some.inj (hdisk.symm.trans hdisk')
        exact ⟨x.document, hload, hinner.symm.trans hsame⟩
    refine ⟨hkept, fun registry hdisk => ?_, hknown.kept hkept, hpublishes'⟩
    obtain rfl : registry = x.document := Option.some.inj (hdisk.symm.trans hload)
    obtain ⟨manifest, hmanifest, hmatches⟩ := hknown.manifest hf
    exact ⟨manifest, hmanifest, (hsame.boundaryMatches manifest).trans hmatches⟩

/-! ### Every step -/

theorem enter_publishes (ev : Evaluator) (inner : PublishCall) : Publishes ev inner (inner.enter ev) := by
  unfold PublishCall.enter
  split
  · rename_i hupdated _ _
    exact hupdated
  · trivial

theorem proceed_ok {phase : MainPhase} (hf : Consistent f) (hc : MainInv ev f phase) (hchecks : phase.ChecksHold f)
    {y : LaneFiles × MainPhase} (h : stepMain ev c call f phase .proceed = some y) : MainOk ev f y := by
  cases phase with
  | starting =>
    simp only [stepMain] at h
    cases h
    by_cases hregistry : f.registry.isSome
    · refine .stay hf rfl rfl ?_
      rw [if_pos hregistry]
      exact hregistry
    · refine .stay hf rfl rfl ?_
      rw [if_neg hregistry]
      trivial
  | readingRegistry => exact readingRegistry_ok hf hc h
  | lookingForManifest registry =>
    simp only [stepMain] at h
    cases h
    split_ifs
    · exact .stay hf rfl rfl hc
    · exact .stay hf rfl rfl trivial
  | readingManifest registry =>
    simp only [stepMain] at h
    split_ifs at h
    · cases h; exact .stay hf rfl rfl hc
    · cases h; exact .stay hf rfl rfl trivial
  | choosing =>
    simp only [stepMain] at h
    split_ifs at h
    · cases h; exact .stay hf rfl rfl trivial
    · split at h <;> cases h <;> exact .stay hf rfl rfl trivial
  | readingExisting =>
    simp only [stepMain] at h
    split at h <;> cases h <;> exact .stay hf rfl rfl trivial
  | writingManifest built => exact writingManifest_ok hf hchecks h
  | opening registry =>
    simp only [stepMain] at h
    split at h
    · cases h; exact .stay hf rfl rfl trivial
    · split at h <;> cases h <;> exact .stay hf rfl rfl trivial
  | saving document => exact saving_main_ok hf hchecks h
  | evaluating registry =>
    simp only [stepMain] at h
    split at h
    · cases h; exact .stay hf rfl rfl trivial
    · cases h; exact .stay hf rfl rfl ⟨hc, enter_publishes ..⟩
  | publishing inner phase => exact publishing_ok hf hc h
  | waiting registry | saved document | leaving | failed | crashed => cases h

theorem stepMain_ok {phase : MainPhase} {event : PublishEvent} (hf : Consistent f) (hc : MainInv ev f phase)
    (hchecks : event = .proceed → phase.ChecksHold f) {y : LaneFiles × MainPhase}
    (h : stepMain ev c call f phase event = some y) : MainOk ev f y := by
  cases event with
  | proceed => exact proceed_ok hf hc (hchecks rfl) h
  | acquire =>
    cases phase with
    | waiting registry =>
      simp only [stepMain] at h
      split_ifs at h
      cases h
      exact .stay hf rfl rfl trivial
    | publishing inner phase => exact publishing_ok hf hc h
    | _ => cases h
  | timeout =>
    cases phase with
    | waiting registry => cases h; exact .stay hf rfl rfl trivial
    | publishing inner phase => exact publishing_ok hf hc h
    | _ => cases h
  | release =>
    cases phase with
    | saved document => cases h; exact .stay hf rfl rfl hc
    | leaving => cases h; exact .stay hf rfl rfl trivial
    | publishing inner phase => exact publishing_ok hf hc h
    | _ => cases h
  | raises =>
    cases phase with
    | publishing inner phase => exact publishing_ok hf hc h
    | failed | crashed => cases h
    | _ => cases h; exact .stay hf rfl rfl trivial
  | crash =>
    cases phase with
    | publishing inner phase => exact publishing_ok hf hc h
    | failed | crashed => cases h
    | _ => cases h; exact .stay hf rfl rfl trivial

end Invariant

/-! ## Runs -/

section Runs

variable {ev : LaneEvaluator}

structure LaneInv (ev : LaneEvaluator) (s : Lane) : Prop where
  consistent : Consistent s.files
  calls : ∀ c call phase, s.calls c = some (call, phase) → MainInv ev s.files phase

theorem LaneInv.start (manifest report : Option (List Json.Token)) : LaneInv ev (.start manifest report) := by
  constructor
  · rintro registry hdisk
    nomatch hdisk
  · rintro c call phase hcall
    nomatch hcall

theorem Lane.step_inv {s s' : Lane} {act : LaneAct} (hs : LaneInv ev s) (hok : checksHold s act)
    (h : s.step ev act = some s') : LaneInv ev s' ∧ KeepsFrozen s.files s'.files := by
  cases act with
  | begins c call =>
    simp only [Lane.step] at h
    split at h
    · cases h
      refine ⟨⟨hs.consistent, fun c' call' phase hcall => ?_⟩, .refl _⟩
      rcases update_eq_some hcall with ⟨-, heq⟩ | ⟨-, hcall⟩
      · cases heq; trivial
      · exact hs.calls c' call' phase hcall
    · cases h
  | happens c event =>
    simp only [Lane.step] at h
    split at h
    · cases h
    · rename_i call phase hcall
      obtain ⟨y, hy, rfl⟩ := Option.map_eq_some_iff.1 h
      have hchecks : event = .proceed → phase.ChecksHold s.files := by
        rintro rfl
        exact hok (call, phase) hcall
      have hmain := stepMain_ok hs.consistent (hs.calls c call phase hcall) hchecks hy
      refine ⟨⟨hmain.consistent, fun c' call' phase' hcall' => ?_⟩, hmain.kept⟩
      rcases update_eq_some hcall' with ⟨rfl, heq⟩ | ⟨-, hcall'⟩
      · cases heq; exact hmain.call
      · exact (hs.calls c' call' phase' hcall').kept hmain.kept

theorem LaneInv.run {s s' : Lane} {acts : List LaneAct} (h : Run (Lane.step ev) checksHold s acts s')
    (hs : LaneInv ev s) : LaneInv ev s' :=
  h.invariant (fun _ _ _ hs hok hstep => (Lane.step_inv hs hok hstep).1) hs

theorem LaneInv.kept {s s' : Lane} {acts : List LaneAct} (hs : LaneInv ev s)
    (h : Run (Lane.step ev) checksHold s acts s') : KeepsFrozen s.files s'.files := by
  induction h with
  | nil s => exact .refl _
  | cons hok hstep _ ih =>
    obtain ⟨hs', hkept⟩ := Lane.step_inv hs hok hstep
    exact hkept.trans (ih hs')

/-- From the state in which a registry is saved on, the manifest and the definitions of the registry stay,
and a run that finds a registry finds the manifest of this registry. -/
theorem frozen_stays {manifest report : Option (List Json.Token)} {acts acts' : List LaneAct} {s s' : Lane}
    (h : Run (Lane.step ev) checksHold (.start manifest report) acts s)
    (h' : Run (Lane.step ev) checksHold s acts' s') {registry : JsonDocument} (hregistry : OnDisk s.files registry) :
    s'.files.manifest = s.files.manifest ∧
      (∃ registry', OnDisk s'.files registry' ∧ SameFrozen registry registry') ∧
      Consistent s'.files ∧
      ∀ c call found, s'.calls c = some (call, .lookingForManifest found) ∨
          s'.calls c = some (call, .readingManifest found) →
        ∃ document, s'.files.manifest.bind Codec.load = some document ∧ boundaryMatches found document = true := by
  have hs := LaneInv.run h (.start manifest report)
  have hs' := LaneInv.run h' hs
  have hkept := hs.kept h'
  refine ⟨hkept.manifest registry hregistry, hkept.registry registry hregistry, hs'.consistent, ?_⟩
  rintro c call found (hcall | hcall)
  · exact Known.manifest (hs'.calls c call _ hcall) hs'.consistent
  · exact Known.manifest (hs'.calls c call _ hcall) hs'.consistent

end Runs

/-! ## Two first runs -/

def sampleLaneEvaluator : LaneEvaluator := { sampleEvaluator with validBoundary := fun _ => true }

/-- What is frozen of an input without rows; the time stands for the digests as well. -/
def sampleBuilt (frozenAt : Json) : Built where
  createdAt := frozenAt
  boundary := Dict.ofList
    [("schema_version", .int 1), ("immutable", .bool true), ("created_at", frozenAt), ("discovery_data_end", frozenAt),
      ("manifest_canonicalization", .str "timestamp_then_identity_for_digest_only_not_event_sequence"),
      ("manifest_count", .int 0), ("manifest_digest", .str "digest"), ("last_stable_timestamp", .null),
      ("last_stable_identity", .null), ("cutoff_stable_identity", .str ""), ("boundary_fingerprint", frozenAt)]
  hypotheses := [.obj [("hypothesis_id", .str "momentum"), ("created_at", frozenAt), ("discovery_data_end", frozenAt),
    ("validation_start", frozenAt), ("status", .str "READY_FOR_FUTURE_VALIDATION"),
    ("definition_fingerprint", frozenAt)]]

/-- A run on an input without rows: what it freezes is the time of its clock. -/
def sampleMain (clock : String) : MainCall where
  registryMode := "prospective-five"
  discoveryDataEnd := none
  buildRegistry createdAt _ := some (sampleBuilt (createdAt.orElse (.str clock)))
  buildValidation registry :=
    some ((sampleReport "now" '0').update
      [("registry_mode", registry.field "registry_mode"), ("discovery_boundary", registry.field "discovery_boundary")])

/-- A first run, and an evaluation of what it has frozen. -/
def undisturbedRuns : List LaneAct :=
  .begins 0 (sampleMain "monday") ::
      [.proceed, .proceed, .proceed, .acquire, .proceed, .proceed, .release].map (.happens 0) ++
    .begins 1 (sampleMain "tuesday") ::
      [.proceed, .proceed, .proceed, .proceed, .proceed, .acquire, .proceed, .proceed, .proceed, .proceed,
        .release].map (.happens 1)

/-- Two first runs have found no registry and no manifest, and one of them has frozen its own. -/
def overlappingRuns : List LaneAct :=
  .begins 0 (sampleMain "monday") :: [.proceed, .proceed].map (.happens 0) ++
    .begins 1 (sampleMain "tuesday") :: [.proceed, .proceed].map (.happens 1) ++
    [.proceed, .acquire, .proceed, .proceed, .release].map (.happens 0)

/-- The other one writes its manifest, and a third run reads the registry. -/
def contradictingRuns : List LaneAct :=
  .happens 1 .proceed :: .begins 2 (sampleMain "wednesday") :: [.proceed, .proceed, .proceed].map (.happens 2)

/-- It saves its registry as well. -/
def replacingRuns : List LaneAct := [.acquire, .proceed, .proceed].map (.happens 1)

/-- The registry that a run of the sample saves. -/
def sampleSaved (clock : String) (version : Int) : JsonDocument :=
  VersionedDocument.setVersion version ((sampleBuilt (.str clock)).registry "prospective-five")

theorem frozen_stays_undisturbed : ∃ s s',
    Run (Lane.step sampleLaneEvaluator) checksHold (.start none none) (undisturbedRuns.take 8) s ∧
    Run (Lane.step sampleLaneEvaluator) checksHold s (undisturbedRuns.drop 8) s' ∧
    s'.files.manifest = s.files.manifest ∧
    ∃ registry', OnDisk s'.files registry' ∧ SameFrozen (sampleSaved "monday" 1) registry' := by
  have hrun : ∃ s, Run (Lane.step sampleLaneEvaluator) checksHold (.start none none) (undisturbedRuns.take 8) s ∧
      s.files.registry = some (Codec.dump (sampleSaved "monday" 1)).1 ∧
      (exec (guarded (Lane.step sampleLaneEvaluator) checksHold) s (undisturbedRuns.drop 8)).any
        (fun _ => decide True) = true :=
    Run.exists_of_any (by decide +kernel)
  obtain ⟨s, hrun, hregistry, hrest⟩ := hrun
  obtain ⟨s', hrun', -⟩ := Run.exists_of_any (P := fun _ => True) hrest
  have hdisk : OnDisk s.files (sampleSaved "monday" 1) := by
    rw [OnDisk, hregistry]
    exact load_dump (by decide +kernel)
  obtain ⟨hmanifest, hsame, -⟩ := frozen_stays hrun hrun' hdisk
  exact ⟨s, s', hrun, hrun', hmanifest, hsame⟩

/-- The run has found a registry, and the manifest that is there is not the one of this registry. -/
def Lane.contradicts (s : Lane) (c : Nat) : Bool :=
  match s.calls c with
  | some (_, .readingManifest found) => (s.files.manifest.bind Codec.load).any fun m => !boundaryMatches found m
  | _ => false

/-- Two first runs: the manifest moves under a saved registry, a third run finds a registry and a manifest
that contradict each other, and then the definitions are replaced. -/
theorem boundary_moves : ∃ s t u,
    Run (Lane.step sampleLaneEvaluator) Run.anyStep (.start none none) overlappingRuns s ∧
    Run (Lane.step sampleLaneEvaluator) Run.anyStep s contradictingRuns t ∧
    Run (Lane.step sampleLaneEvaluator) Run.anyStep t replacingRuns u ∧
    (OnDisk s.files (sampleSaved "monday" 1) ∧
      s.files.manifest = some (Codec.dump (sampleBuilt (.str "monday")).boundary).1) ∧
    (t.files.manifest ≠ some (Codec.dump (sampleBuilt (.str "monday")).boundary).1 ∧ t.contradicts 2) ∧
    OnDisk u.files (sampleSaved "tuesday" 2) ∧
    definitions (sampleSaved "tuesday" 2) ≠ definitions (sampleSaved "monday" 1) := by
  have hrun : ∃ s, Run (Lane.step sampleLaneEvaluator) Run.anyStep (.start none none) overlappingRuns s ∧
      (s.files.registry = some (Codec.dump (sampleSaved "monday" 1)).1 ∧
        s.files.manifest = some (Codec.dump (sampleBuilt (.str "monday")).boundary).1) ∧
      (exec (guarded (Lane.step sampleLaneEvaluator) Run.anyStep) s contradictingRuns).any (fun t =>
        decide (t.files.manifest ≠ some (Codec.dump (sampleBuilt (.str "monday")).boundary).1 ∧ t.contradicts 2) &&
        (exec (guarded (Lane.step sampleLaneEvaluator) Run.anyStep) t replacingRuns).any (fun u =>
          decide (u.files.registry = some (Codec.dump (sampleSaved "tuesday" 2)).1))) = true :=
    Run.exists_of_any (by decide +kernel)
  obtain ⟨s, hs, ⟨hregistry, hmanifest⟩, hrest⟩ := hrun
  obtain ⟨t, ht, hrest⟩ := (Option.any_eq_true _ _).1 hrest
  obtain ⟨hmoved, hrest⟩ := (Bool.and_eq_true ..).mp hrest
  obtain ⟨u, hu, hreplaced⟩ := (Option.any_eq_true _ _).1 hrest
  refine ⟨s, t, u, hs, .of_guarded ht, .of_guarded hu, ⟨?_, hmanifest⟩, of_decide_eq_true hmoved, ?_, ?_⟩
  · rw [OnDisk, hregistry]
    exact load_dump (by decide +kernel)
  · rw [OnDisk, of_decide_eq_true hreplaced]
    exact load_dump (by decide +kernel)
  · intro hsame
    have hfingerprint := congrArg (fun items : Option (List (Option JsonDocument)) =>
      (items.getD []).any fun item => item.any fun item =>
        (item.field "definition_fingerprint").isStr "monday") hsame
    exact absurd hfingerprint (by decide +kernel)

end Aibot.Research
