/-
Immutable and exactly once: a record that is visible never changes, one call at most has written it,
and every call that returns an archive time returns the one of the record.
-/
import Aibot.Research.Record

namespace Aibot.Research

open Observation.Stored (Conversions Fields)
open Store (JsonDocument Files Codec)

variable {κ : Type*} (py : Conversions) (digest : String → κ)

/-! ## What a record says -/

/-- The published record among the files of its path. -/
def published (f : Files Json.Token) : Option JsonDocument := f.path.bind fun i => Codec.load (f.data i)

/-- There is a record, and this is its archive time. -/
def StoredAt (f : Files Json.Token) (archivedAt : Json) : Prop :=
  ∃ document, published f = some document ∧ document.field "archived_at" = archivedAt

/-- The contents of a record file under the digest `p`: what some call writes of a row. -/
def IsRecord (p : κ) (contents : List Json.Token) : Prop :=
  ∃ row observationId archivedAt source, digest observationId = p ∧ archivedAt ≠ "" ∧
    Codec.load contents = some (archiveDocument row observationId archivedAt source)

theorem archiveDocument_archivedAt (row : Fields) (observationId archivedAt source : String) :
    (archiveDocument row observationId archivedAt source).field "archived_at" = .str archivedAt := by
  refine Dict.field_of_get? (Dict.get?_ofList_of_mem ?_ ?_)
  · simp
  · simp

theorem archiveDocument_observationId (row : Fields) (observationId archivedAt source : String) :
    (archiveDocument row observationId archivedAt source).field "observation_id" = .str observationId := by
  refine Dict.field_of_get? (Dict.get?_ofList_of_mem ?_ ?_)
  · simp
  · simp

theorem existingArchiveRecord_some {observationId : String} {document document' : JsonDocument}
    (h : existingArchiveRecord py observationId document = some document') : document' = document := by
  unfold existingArchiveRecord at h
  split_ifs at h
  exact (Option.some.inj h).symm

/-! ## The invariant -/

section Invariant

variable {py digest}

/-- What an outcome says: the archive time is that of the record, and a call that has written it is the
writer. -/
def OutcomeInv (f : Files Json.Token) (writer : Option Nat) (c : Nat) : ArchiveOutcome → Prop
  | .returned written archivedAt => StoredAt f archivedAt ∧ (written = true → writer = some c)
  | _ => True

/-- What holds of a call in each phase, of the files of its record. -/
def CallInv (py : Conversions) (f : Files Json.Token) (writer : Option Nat) (c : Nat) (call : ArchiveCall) :
    ArchivePhase → Prop
  | .looking | .waiting | .crashed => True
  | .opening => f.owner = some c
  | .found locked => f.path ≠ none ∧ (locked = true → f.owner = some c)
  | .reading locked i got => f.path = some i ∧ got <+: f.data i ∧ (locked = true → f.owner = some c)
  | .counting archivedAt => f.owner = some c ∧ StoredAt f archivedAt
  | .cleaning => f.owner = some c ∧ f.path = none
  | .writing i todo => f.owner = some c ∧ f.path = none ∧ i < f.nextInode ∧
      f.data i ++ todo = (Codec.dump (call.document py)).1
  | .flushed i => f.owner = some c ∧ f.path = none ∧ i < f.nextInode ∧
      Codec.load (f.data i) = some (call.document py)
  | .unwinding _ => f.owner = some c
  | .leaving outcome => f.owner = some c ∧ OutcomeInv f writer c outcome
  | .reporting archivedAt => OutcomeInv f writer c (.returned true archivedAt)
  | .ended outcome => OutcomeInv f writer c outcome

/-- A visible file is the record of some observation. -/
def RecordInv (digest : String → κ) (p : κ) (f : Files Json.Token) : Prop :=
  ∀ i, f.path = some i → i < f.nextInode ∧ IsRecord digest p (f.data i)

structure ArchiveInv (py : Conversions) (digest : String → κ) (s : Archive κ) : Prop where
  record : ∀ p, RecordInv digest p (s.files p)
  call : ∀ c call phase, s.calls c = some (call, phase) →
    CallInv py (s.files (digest (call.identity py))) (s.writers (digest (call.identity py))) c call phase
  writer : ∀ p c, s.writers p = some c → (s.files p).path ≠ none

/-! ## What a step leaves to the others -/

/-- A step of the call `c`: a visible record stays as it is, and the lock of another call holds. -/
structure Kept (c : Nat) (f f' : Files Json.Token) : Prop where
  visible : ∀ i, f.path = some i → f'.path = some i ∧ f'.data i = f.data i
  held : ∀ c', c' ≠ c → f.owner = some c' → f'.owner = some c' ∧ f'.path = f.path ∧ f'.data = f.data ∧
    f'.nextInode = f.nextInode

variable {c c' : Nat} {f f' : Files Json.Token} {writer : Option Nat} {call : ArchiveCall}

theorem StoredAt.kept (h : Kept c f f') {archivedAt : Json} (hs : StoredAt f archivedAt) :
    StoredAt f' archivedAt := by
  obtain ⟨document, hpub, hat⟩ := hs
  refine ⟨document, ?_, hat⟩
  obtain ⟨i, hi, hload⟩ := Option.bind_eq_some_iff.1 hpub
  obtain ⟨hi', hdata⟩ := h.visible i hi
  unfold published
  rw [hi', Option.bind_some, hdata]
  exact hload

theorem OutcomeInv.kept (h : Kept c f f') {outcome : ArchiveOutcome} (ho : OutcomeInv f writer c' outcome) :
    OutcomeInv f' writer c' outcome := by
  cases outcome with
  | returned written archivedAt => exact ⟨ho.1.kept h, ho.2⟩
  | notTerminal | missingObservationId | failed => trivial

/-- A step of one call keeps what holds of another call of the same record. -/
theorem CallInv.kept (h : Kept c f f') (hne : c' ≠ c) {phase : ArchivePhase}
    (hc : CallInv py f writer c' call phase) : CallInv py f' writer c' call phase := by
  cases phase with
  | looking | waiting | crashed => trivial
  | opening => exact (h.held c' hne hc).1
  | found locked =>
    refine ⟨?_, fun hl => (h.held c' hne (hc.2 hl)).1⟩
    obtain ⟨i, hi⟩ := Option.ne_none_iff_exists'.1 hc.1
    rw [(h.visible i hi).1]
    exact Option.some_ne_none i
  | reading locked i got =>
    obtain ⟨hi, hgot, hlock⟩ := hc
    obtain ⟨hi', hdata⟩ := h.visible i hi
    exact ⟨hi', hdata ▸ hgot, fun hl => (h.held c' hne (hlock hl)).1⟩
  | counting archivedAt => exact ⟨(h.held c' hne hc.1).1, hc.2.kept h⟩
  | cleaning =>
    obtain ⟨ho, hp, -, -⟩ := h.held c' hne hc.1
    exact ⟨ho, hp.trans hc.2⟩
  | writing i todo =>
    obtain ⟨howner, hpath, hi, htodo⟩ := hc
    obtain ⟨ho, hp, hd, hn⟩ := h.held c' hne howner
    refine ⟨ho, hp.trans hpath, ?_, ?_⟩
    · rw [hn]
      exact hi
    · rw [hd]
      exact htodo
  | flushed i =>
    obtain ⟨howner, hpath, hi, hload⟩ := hc
    obtain ⟨ho, hp, hd, hn⟩ := h.held c' hne howner
    refine ⟨ho, hp.trans hpath, ?_, ?_⟩
    · rw [hn]
      exact hi
    · rw [hd]
      exact hload
  | unwinding i => exact (h.held c' hne hc).1
  | leaving outcome => exact ⟨(h.held c' hne hc.1).1, hc.2.kept h⟩
  | reporting archivedAt =>
    have ho : OutcomeInv f writer c' (.returned true archivedAt) := hc
    exact ho.kept h
  | ended outcome => exact OutcomeInv.kept h hc

/-! ## One step -/

/-- Before the record is published, its lock's owner may do as it likes. -/
theorem Kept.of_owner (howner : f.owner = some c) (hpath : f.path = none) : Kept c f f' where
  visible := fun i hi => by rw [hpath] at hi; cases hi
  held := fun c' hne ho => absurd (Option.some.inj (ho.symm.trans howner)) hne

theorem Kept.refl : Kept c f f := ⟨fun _ hi => ⟨hi, rfl⟩, fun _ _ ho => ⟨ho, rfl, rfl, rfl⟩⟩

theorem Kept.unlock : Kept c f (f.unlock c) := by
  refine ⟨fun _ hi => ⟨hi, rfl⟩, fun c' hne ho => ⟨?_, rfl, rfl, rfl⟩⟩
  have hother : f.owner ≠ some c := by
    rw [ho]
    exact fun he => hne (Option.some.inj he)
  exact (if_neg hother).trans ho

theorem Kept.acquire (hfree : f.owner = none) : Kept c f { f with owner := some c } := by
  refine ⟨fun _ hi => ⟨hi, rfl⟩, fun c' _ ho => ?_⟩
  rw [hfree] at ho
  cases ho

/-- What a step of the call `c` does to the files of its record and to itself. -/
structure StepOk (py : Conversions) (digest : String → κ) (c : Nat) (call : ArchiveCall)
    (f : Files Json.Token) (writer : Option Nat) (x : Files Json.Token × ArchivePhase × Bool) : Prop where
  kept : Kept c f x.1
  record : RecordInv digest (digest (call.identity py)) x.1
  call : CallInv py x.1 (if x.2.2 then some c else writer) c call x.2.1
  published : x.2.2 = true → f.path = none ∧ x.1.path ≠ none

/-- A step that leaves the files alone. -/
theorem StepOk.stay (hrec : RecordInv digest (digest (call.identity py)) f) {phase : ArchivePhase}
    (hc : CallInv py f writer c call phase) : StepOk py digest c call f writer (f, phase, false) :=
  ⟨.refl, hrec, hc, fun h => absurd h Bool.false_ne_true⟩

/-- A step that leaves the lock. -/
theorem StepOk.unlock (hrec : RecordInv digest (digest (call.identity py)) f) {phase : ArchivePhase}
    (hc : CallInv py (f.unlock c) writer c call phase) :
    StepOk py digest c call f writer (f.unlock c, phase, false) :=
  ⟨.unlock, hrec, hc, fun h => absurd h Bool.false_ne_true⟩

/-- A step on a temporary file, before there is a record. -/
theorem StepOk.prepare (howner : f.owner = some c) (hpath : f.path = none) (hpath' : f'.path = none)
    {phase : ArchivePhase} (hc : CallInv py f' writer c call phase) :
    StepOk py digest c call f writer (f', phase, false) :=
  ⟨.of_owner howner hpath, fun _ hi => absurd (hi.symm.trans hpath') (Option.some_ne_none _), hc,
    fun h => absurd h Bool.false_ne_true⟩

theorem stepArchive_ok {phase : ArchivePhase} {event : ArchiveEvent} {x : Files Json.Token × ArchivePhase × Bool}
    (hrec : RecordInv digest (digest (call.identity py)) f) (hc : CallInv py f writer c call phase)
    (h : stepArchive py c call f phase event = some x) : StepOk py digest c call f writer x := by
  cases phase with
  | looking =>
    cases event <;> simp only [stepArchive, reduceCtorEq] at h
    case «exists» =>
      split at h
      · cases h; exact .stay hrec trivial
      · rename_i i hi
        cases h
        refine .stay hrec ⟨?_, fun h => absurd h Bool.false_ne_true⟩
        rw [hi]
        exact Option.some_ne_none i
    case raises => cases h; exact .stay hrec trivial
    case crash => cases h; exact .unlock hrec trivial
  | waiting =>
    cases event <;> simp only [stepArchive, reduceCtorEq] at h
    case acquire =>
      split_ifs at h with hfree
      cases h
      exact ⟨.acquire hfree, hrec, rfl, fun h => absurd h Bool.false_ne_true⟩
    case timeout => cases h; exact .stay hrec trivial
    case raises => cases h; exact .stay hrec trivial
    case crash => cases h; exact .unlock hrec trivial
  | opening =>
    cases event <;> simp only [stepArchive, reduceCtorEq] at h
    case «exists» =>
      split at h
      · rename_i hnone
        cases h
        exact .stay hrec ⟨hc, hnone⟩
      · rename_i i hi
        cases h
        refine .stay hrec ⟨?_, fun _ => hc⟩
        rw [hi]
        exact Option.some_ne_none i
    case raises => cases h; exact .stay hrec ⟨hc, trivial⟩
    case crash => cases h; exact .unlock hrec trivial
  | found locked =>
    cases event <;> simp only [stepArchive, reduceCtorEq] at h
    case opens =>
      split at h
      · rename_i i hi
        cases h
        exact .stay hrec ⟨hi, List.nil_prefix, hc.2⟩
      · rename_i hnone
        exact absurd hnone hc.1
    case raises =>
      cases locked with
      | false => cases h; exact .stay hrec trivial
      | true => cases h; exact .stay hrec ⟨hc.2 rfl, trivial⟩
    case crash => cases h; exact .unlock hrec trivial
  | reading locked i got =>
    obtain ⟨hi, hgot, hlock⟩ := hc
    cases event <;> simp only [stepArchive, reduceCtorEq] at h
    case readFragment =>
      obtain ⟨x, hx, h⟩ := Option.map_eq_some_iff.1 h
      cases h
      exact .stay hrec ⟨hi, Store.prefix_next hgot hx, hlock⟩
    case finishReading =>
      by_cases hlen : got.length = (f.data i).length
      swap
      · rw [if_neg hlen] at h
        cases h
      rw [if_pos hlen, hgot.eq_of_length hlen] at h
      obtain ⟨-, row, observationId, archivedAt, source, -, hne, hload⟩ := hrec i hi
      have hpub : published f = some (archiveDocument row observationId archivedAt source) := by
        unfold published
        rw [hi]
        exact hload
      split at h
      · -- the record does not pass the checks
        cases locked with
        | false => cases h; exact .stay hrec trivial
        | true => cases h; exact .stay hrec ⟨hlock rfl, trivial⟩
      · rename_i document hdocument
        rw [hload, Option.bind_some] at hdocument
        rw [existingArchiveRecord_some py hdocument, archiveDocument_archivedAt] at h
        have hstored : StoredAt f (.str archivedAt) := ⟨_, hpub, archiveDocument_archivedAt ..⟩
        have hkept : py.text (Json.orElse (.str archivedAt) (.str call.archivedAt)) = archivedAt := by
          unfold Json.orElse
          rw [if_pos (by simpa [Json.truthy] using hne)]
          rfl
        rw [hkept] at h
        cases locked with
        | false => cases h; exact .stay hrec ⟨hstored, fun h => absurd h Bool.false_ne_true⟩
        | true => cases h; exact .stay hrec ⟨hlock rfl, hstored⟩
    case raises =>
      cases locked with
      | false => cases h; exact .stay hrec trivial
      | true => cases h; exact .stay hrec ⟨hlock rfl, trivial⟩
    case crash => cases h; exact .unlock hrec trivial
  | counting archivedAt =>
    cases event <;> simp only [stepArchive, reduceCtorEq] at h
    case countDuplicate => cases h; exact .stay hrec ⟨hc.1, hc.2, fun h => absurd h Bool.false_ne_true⟩
    case raises => cases h; exact .stay hrec ⟨hc.1, trivial⟩
    case crash => cases h; exact .unlock hrec trivial
  | cleaning =>
    obtain ⟨howner, hpath⟩ := hc
    cases event <;> simp only [stepArchive, reduceCtorEq] at h
    case cleanUp stale =>
      cases h
      have hpath' : (f.createTemporary stale).path = none := hpath
      refine .prepare howner hpath hpath' ⟨howner, hpath, Nat.lt_succ_self _, ?_⟩
      show Function.update f.data f.nextInode [] f.nextInode ++ _ = _
      rw [Function.update_self, List.nil_append]
    case raises => cases h; exact .stay hrec ⟨howner, trivial⟩
    case crash => cases h; exact .unlock hrec trivial
  | writing i todo =>
    obtain ⟨howner, hpath, hi, htodo⟩ := hc
    cases todo <;> cases event <;> simp only [stepArchive, reduceCtorEq] at h
    case nil.finishWriting =>
      split_ifs at h with hdump
      · cases h
        refine .stay hrec ⟨howner, hpath, hi, ?_⟩
        rw [List.append_nil] at htodo
        rw [htodo]
        exact Codec.load_dump _ hdump
      · cases h; exact .stay hrec howner
    case cons.writeFragment x todo =>
      cases h
      have hpath' : (f.append i x).path = none := hpath
      refine .prepare howner hpath hpath' ⟨howner, hpath, hi, ?_⟩
      show Function.update f.data i (f.data i ++ [x]) i ++ todo = _
      rw [Function.update_self, List.append_assoc]
      exact htodo
    case nil.raises | cons.raises => cases h; exact .stay hrec howner
    case nil.crash | cons.crash => cases h; exact .unlock hrec trivial
  | flushed i =>
    obtain ⟨howner, hpath, hi, hload⟩ := hc
    cases event <;> simp only [stepArchive, reduceCtorEq] at h
    case replace =>
      split_ifs at h
      cases h
      have hpub : published (f.replace i) = some (call.document py) := hload
      refine ⟨.of_owner howner hpath, ?_, ⟨howner, ⟨_, hpub, archiveDocument_archivedAt ..⟩, fun _ => rfl⟩,
        fun _ => ⟨hpath, Option.some_ne_none i⟩⟩
      intro j hj
      obtain rfl := Option.some.inj hj
      exact ⟨hi, _, _, _, _, rfl, call.archivedAt_ne, hload⟩
    case raises => cases h; exact .stay hrec howner
    case crash => cases h; exact .unlock hrec trivial
  | unwinding i =>
    cases event <;> simp only [stepArchive, reduceCtorEq] at h
    case unlink =>
      cases h
      exact ⟨⟨fun _ hj => ⟨hj, rfl⟩, fun _ _ ho => ⟨ho, rfl, rfl, rfl⟩⟩, hrec, ⟨hc, trivial⟩,
        fun h => absurd h Bool.false_ne_true⟩
    case raises => cases h; exact .stay hrec ⟨hc, trivial⟩
    case crash => cases h; exact .unlock hrec trivial
  | leaving outcome =>
    have hunlocked : OutcomeInv (f.unlock c) writer c outcome := hc.2.kept .unlock
    rcases outcome with _ | _ | ⟨_ | _, archivedAt⟩ | _
    all_goals
      cases event <;> simp only [stepArchive, reduceCtorEq] at h
      case release => cases h; exact .unlock hrec hunlocked
      case raises => cases h; exact .unlock hrec trivial
      case crash => cases h; exact .unlock hrec trivial
  | reporting archivedAt =>
    cases event <;> simp only [stepArchive, reduceCtorEq] at h
    case countSuccess => cases h; exact .stay hrec hc
    case raises => cases h; exact .stay hrec trivial
    case crash => cases h; exact .unlock hrec trivial
  | ended outcome => cases event <;> simp only [stepArchive, reduceCtorEq] at h
  | crashed => cases event <;> simp only [stepArchive, reduceCtorEq] at h

/-- Before the record is published no call has an archive time. -/
theorem CallInv.unpublished (hpath : f.path = none) {phase : ArchivePhase}
    (hc : CallInv py f writer c call phase) (writer' : Option Nat) : CallInv py f writer' c call phase := by
  have hout : ∀ {outcome}, OutcomeInv f writer c outcome → OutcomeInv f writer' c outcome := by
    intro outcome ho
    cases outcome with
    | returned written archivedAt =>
      obtain ⟨⟨document, hpub, -⟩, -⟩ := ho
      unfold published at hpub
      rw [hpath] at hpub
      cases hpub
    | notTerminal | missingObservationId | failed => trivial
  cases phase with
  | leaving outcome => exact ⟨hc.1, hout hc.2⟩
  | reporting archivedAt =>
    have ho : OutcomeInv f writer c (.returned true archivedAt) := hc
    exact hout ho
  | ended outcome => exact hout hc
  | _ => exact hc

/-! ## The archive -/

section Archive

variable [DecidableEq κ] {s s' : Archive κ}

omit [DecidableEq κ] in
theorem archiveInv_start : ArchiveInv py digest (Archive.start : Archive κ) where
  record := nofun
  call := nofun
  writer := nofun

/-- A call that enters holds nothing. -/
theorem enter_inv (py : Conversions) (call : ArchiveCall) (f : Files Json.Token) (writer : Option Nat) (c : Nat) :
    CallInv py f writer c call (call.enter py) := by
  unfold ArchiveCall.enter
  split
  · trivial
  · split
    · trivial
    · split <;> trivial

/-- What a step does to the archive: a call enters, or one call takes a step. -/
theorem archive_step_cases {a : ArchiveAct} (h : s.step py digest a = some s') :
    (∃ c call, s.calls c = none ∧
      s' = { s with calls := Function.update s.calls c (some (call, call.enter py)) }) ∨
    ∃ c event call phase x, s.calls c = some (call, phase) ∧
      stepArchive py c call (s.files (digest (call.identity py))) phase event = some x ∧
      s' = s.after py digest c call x := by
  cases a with
  | begins c call =>
    simp only [Archive.step] at h
    split at h
    · rename_i hnone
      exact .inl ⟨c, call, hnone, (Option.some.inj h).symm⟩
    · cases h
  | happens c event =>
    simp only [Archive.step] at h
    split at h
    · cases h
    · rename_i call phase hcall
      obtain ⟨x, hx, rfl⟩ := Option.map_eq_some_iff.1 h
      exact .inr ⟨c, event, call, phase, x, hcall, hx, rfl⟩

/-- The files of every record, before and after a step. -/
theorem archive_kept (hs : ArchiveInv py digest s) {a : ArchiveAct} (h : s.step py digest a = some s') (p : κ) :
    ∃ c, Kept c (s.files p) (s'.files p) := by
  rcases archive_step_cases h with ⟨c, call, -, rfl⟩ | ⟨c, event, call, phase, x, hcall, hx, rfl⟩
  · exact ⟨c, .refl⟩
  · refine ⟨c, ?_⟩
    simp only [Archive.after]
    by_cases hp : p = digest (call.identity py)
    · subst hp
      rw [Function.update_self]
      exact (stepArchive_ok (hs.record _) (hs.call c call phase hcall) hx).kept
    · rw [Function.update_of_ne hp]
      exact .refl

theorem archiveInv_step (hs : ArchiveInv py digest s) {a : ArchiveAct} (h : s.step py digest a = some s') :
    ArchiveInv py digest s' := by
  rcases archive_step_cases h with ⟨c, call, hnone, rfl⟩ | ⟨c, event, call, phase, x, hcall, hx, rfl⟩
  · refine ⟨hs.record, fun c' call' phase' hcall' => ?_, hs.writer⟩
    rcases update_eq_some hcall' with ⟨rfl, heq⟩ | ⟨-, hcall'⟩
    · obtain ⟨rfl, rfl⟩ := Prod.mk.inj (Option.some.inj heq)
      exact enter_inv ..
    · exact hs.call c' call' phase' hcall'
  · have hok := stepArchive_ok (hs.record _) (hs.call c call phase hcall) hx
    refine ⟨fun p => ?_, fun c' call' phase' hcall' => ?_, fun p c' hwriter => ?_⟩
    · simp only [Archive.after]
      by_cases hp : p = digest (call.identity py)
      · subst hp
        rw [Function.update_self]
        exact hok.record
      · rw [Function.update_of_ne hp]
        exact hs.record p
    · rcases update_eq_some hcall' with ⟨rfl, heq⟩ | ⟨hne, hcall'⟩
      · obtain ⟨rfl, rfl⟩ := Prod.mk.inj (Option.some.inj heq)
        have hown := hok.call
        simp only [Archive.after, Function.update_self]
        split_ifs at hown ⊢ with hwrote
        · rw [Function.update_self]
          exact hown
        · exact hown
      · have hother := hs.call c' call' phase' hcall'
        simp only [Archive.after]
        by_cases hp : digest (call'.identity py) = digest (call.identity py)
        · rw [hp] at hother ⊢
          rw [Function.update_self]
          split_ifs with hwrote
          · -- a record is published: no other call had seen one
            exact (hother.unpublished (hok.published hwrote).1 _).kept hok.kept hne
          · exact hother.kept hok.kept hne
        · rw [Function.update_of_ne hp]
          split_ifs
          · rw [Function.update_of_ne hp]
            exact hother
          · exact hother
    · simp only [Archive.after] at hwriter ⊢
      by_cases hp : p = digest (call.identity py)
      · subst hp
        rw [Function.update_self]
        split_ifs at hwriter with hwrote
        · exact (hok.published hwrote).2
        · obtain ⟨i, hi⟩ := Option.ne_none_iff_exists'.1 (hs.writer _ c' hwriter)
          rw [(hok.kept.visible i hi).1]
          exact Option.some_ne_none i
      · rw [Function.update_of_ne hp]
        split_ifs at hwriter
        · rw [Function.update_of_ne hp] at hwriter
          exact hs.writer p c' hwriter
        · exact hs.writer p c' hwriter

theorem archiveInv_run {acts : List ArchiveAct} (h : Run (Archive.step py digest) Run.anyStep .start acts s) :
    ArchiveInv py digest s :=
  h.invariant (fun _ _ _ hs _ h => archiveInv_step hs h) archiveInv_start

/-- A record that is visible stays as it is. -/
theorem visible_run (hs : ArchiveInv py digest s) {acts : List ArchiveAct}
    (h : Run (Archive.step py digest) Run.anyStep s acts s') (p : κ) {i : Nat}
    (hi : (s.files p).path = some i) :
    (s'.files p).path = some i ∧ (s'.files p).data i = (s.files p).data i := by
  induction h with
  | nil s => exact ⟨hi, rfl⟩
  | cons _ hstep _ ih =>
    obtain ⟨c, hkept⟩ := archive_kept hs hstep p
    obtain ⟨hi', hdata⟩ := hkept.visible i hi
    obtain ⟨hi'', hdata'⟩ := ih (archiveInv_step hs hstep) hi'
    exact ⟨hi'', hdata'.trans hdata⟩

/-- The archive is immutable and written once: a record lies under the digest of its observation, one
call at most has written it, and a call that returns has the archive time of the record, which the
callers that mark their row leave on it. -/
structure Archived (py : Conversions) (digest : String → κ) (s : Archive κ) : Prop where
  identified : ∀ p document, published (s.files p) = some document →
    ∃ observationId, document.field "observation_id" = .str observationId ∧ digest observationId = p
  once : ∀ c c' call call' archivedAt archivedAt',
    s.calls c = some (call, .ended (.returned true archivedAt)) →
    s.calls c' = some (call', .ended (.returned true archivedAt')) → call.identity py = call'.identity py → c = c'
  adopted : ∀ c call written archivedAt, s.calls c = some (call, .ended (.returned written archivedAt)) →
    (∃ document, published (s.files (digest (call.identity py))) = some document ∧
      document.field "archived_at" = archivedAt) ∧
    (call.caller ≠ .direct → (call.leaves (.returned written archivedAt)).field "archived_at" = archivedAt)

omit [DecidableEq κ] in
theorem ArchiveInv.archived (hs : ArchiveInv py digest s) : Archived py digest s where
  identified := by
    intro p document hpub
    obtain ⟨i, hi, hload⟩ := Option.bind_eq_some_iff.1 hpub
    obtain ⟨-, row, observationId, archivedAt, source, hp, -, hrecord⟩ := hs.record p i hi
    rw [Option.some.inj (hload.symm.trans hrecord)]
    exact ⟨observationId, archiveDocument_observationId .., hp⟩
  once := by
    intro c c' call call' archivedAt archivedAt' hc hc' hid
    have hw : s.writers (digest (call.identity py)) = some c := (hs.call c call _ hc).2 rfl
    have hw' : s.writers (digest (call'.identity py)) = some c' := (hs.call c' call' _ hc').2 rfl
    rw [hid, hw'] at hw
    exact (Option.some.inj hw).symm
  adopted := by
    intro c call written archivedAt hc
    refine ⟨(hs.call c call _ hc).1, fun hcaller => ?_⟩
    unfold ArchiveCall.leaves
    cases hk : call.caller with
    | direct => exact absurd hk hcaller
    | bestEffort => exact Dict.field_set_self ..
    | terminalRows => exact Dict.field_set_self ..

/-- In every interleaving of calls, with a crash or an exception at any step: the archive is written
once, and what is visible stays as it is. -/
theorem archived_once {acts : List ArchiveAct} (h : Run (Archive.step py digest) Run.anyStep .start acts s) :
    Archived py digest s ∧ ∀ acts' t, Run (Archive.step py digest) Run.anyStep s acts' t →
      ∀ p i, (s.files p).path = some i → (t.files p).path = some i ∧ (t.files p).data i = (s.files p).data i :=
  ⟨(archiveInv_run h).archived, fun _ _ h' p _ hi => visible_run (archiveInv_run h) h' p hi⟩

end Archive

end Invariant

/-! ## Two calls for one observation -/

/-- Conversions of a row whose values are texts. -/
def textOnly : Conversions := ⟨fun _ => none, fun _ => none, fun _ => "", fun _ => ""⟩

def completeRow : Fields :=
  Dict.ofList [("observation_id", .str "signature"), ("status", .str "COMPLETE")]

theorem first_ne : "first" ≠ "" := by decide

theorem second_ne : "second" ≠ "" := by decide

def firstCall : ArchiveCall := ⟨completeRow, "operational_ledger", "first", .direct, first_ne⟩

def secondCall : ArchiveCall := ⟨completeRow, "operational_ledger", "second", .bestEffort, second_ne⟩

/-- The fragments of the record. -/
def fragments : Nat := (Codec.dump (firstCall.document textOnly)).1.length

/-- What the first call does under the lock. -/
def publishes : List ArchiveEvent :=
  .acquire :: .exists :: .cleanUp [] ::
    (List.replicate fragments .writeFragment ++ [.finishWriting, .replace, .release])

/-- What the second call does under the lock. -/
def adopts : List ArchiveEvent :=
  .acquire :: .exists :: .opens ::
    (List.replicate fragments .readFragment ++ [.finishReading, .countDuplicate, .release])

/-- Both calls have read their clock; the second takes the lock when the first has left it. -/
def twoCalls : List ArchiveAct :=
  .begins 0 firstCall :: .begins 1 secondCall ::
    (publishes.map (.happens 0) ++ adopts.map (.happens 1) ++ [.happens 0 .countSuccess])

/-- What a call has returned: whether it has written the record, and the archive time. -/
def returnedBy (s : Archive Nat) (c : Nat) : Option (Bool × Option String) :=
  match s.calls c with
  | some (_, .ended (.returned written (.str archivedAt))) => some (written, some archivedAt)
  | some (_, .ended (.returned written _)) => some (written, none)
  | _ => none

theorem archived_once_adopted : ∃ s,
    Run (Archive.step textOnly String.length) Run.anyStep .start twoCalls s ∧
    (returnedBy s 0 = some (true, some "first") ∧ returnedBy s 1 = some (false, some "first")) ∧
    Archived textOnly String.length s ∧ ∀ acts' t, Run (Archive.step textOnly String.length) Run.anyStep s acts' t →
      ∀ p i, (s.files p).path = some i → (t.files p).path = some i ∧ (t.files p).data i = (s.files p).data i := by
  have hrun : ∃ s, Run (Archive.step textOnly String.length) Run.anyStep .start twoCalls s ∧
      (returnedBy s 0 = some (true, some "first") ∧ returnedBy s 1 = some (false, some "first")) :=
    Run.exists_of_any (by decide +kernel)
  obtain ⟨s, hrun, hreturned⟩ := hrun
  exact ⟨s, hrun, hreturned, archived_once hrun⟩

end Aibot.Research
