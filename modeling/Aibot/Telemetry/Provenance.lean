/-
Where the files of the streams come from: every record is a row that was persisted and is not too large,
and every index entry is the reservation of such a row.
-/
import Aibot.Telemetry.Immutable

namespace Aibot.Telemetry

open Store (JsonDocument Codec)

section Provenance

variable (pf : Platform) (source : RowKind → JsonDocument → Prop)

/-- The file of the row has at most the bytes of a row. -/
def Fits (document : JsonDocument) : Prop :=
  ∃ hash tokens, pf.digest document = some hash ∧ Json.canonical (.ofFields (sealed document hash)) = some tokens ∧
    pf.fileBytes tokens ≤ maxRowBytes

/-- The document is an index entry of the row under the path. -/
def Reserves (kind : RowKind) (document : JsonDocument) (path : String) (reserved : JsonDocument) : Prop :=
  ∃ row hash, pf.digest row = some hash ∧ reserved = reservation kind document path hash

/-- What a call has computed of its row. -/
def CallSourced (call : PersistCall) : PersistPhase → Prop
  | .waiting _ | .indexing _ | .recording _ _ | .storing _ => Fits pf call.document
  | .reserving p reserved _ => Fits pf call.document ∧ Reserves pf call.kind call.document p.path reserved
  | .leaving _ | .ended _ | .crashed => True

/-- The files of a stream come from rows that were persisted. -/
structure DirSourced (kind : RowKind) (d : StreamDir) : Prop where
  index : ∀ digest tokens, d.index digest = some tokens → ∃ document path reserved hash, source kind document ∧
    Located pf kind digest path document ∧ Reserves pf kind document path reserved ∧ pf.digest reserved = some hash ∧
    tokens = fileOf (sealed reserved hash)
  record : ∀ path tokens, d.records path = some tokens → ∃ document hash, source kind document ∧
    recordPath pf kind document = some path ∧ document.get? "content_hash" = none ∧ Fits pf document ∧
    pf.digest document = some hash ∧ tokens = fileOf (sealed document hash)

structure StreamsSourced (s : Streams) : Prop where
  dir : ∀ kind, DirSourced pf source kind (s.dirs kind)
  handed : ∀ c call phase, s.calls c = some (call, phase) → source call.kind call.document
  call : ∀ c call phase, s.calls c = some (call, phase) → CallSourced pf call phase

/-- A call begins with a row of the source. -/
def FromSource (_ : Streams) : PersistAct → Prop
  | .begins _ call => source call.kind call.document
  | .happens _ _ => True

end Provenance

section Step

variable {pf : Platform} {source : RowKind → JsonDocument → Prop} {c : Nat} {call : PersistCall} {d : StreamDir}

/-- What a step writes: a record, an index entry or nothing. -/
inductive Writes (pf : Platform) (call : PersistCall) (d d' : StreamDir) : PersistPhase → Prop
  | nothing {phase : PersistPhase} : d'.records = d.records → d'.index = d.index → Writes pf call d d' phase
  | index {p : Prepared} {reserved : JsonDocument} {recorded : Bool} {hash : String} :
    pf.digest reserved = some hash → d'.records = d.records →
    d'.index = Function.update d.index (pf.keyHash p.key) (some (fileOf (sealed reserved hash))) →
    Writes pf call d d' (.reserving p reserved recorded)
  | record {p : Prepared} : d'.index = d.index →
    d'.records = Function.update d.records p.path (some (fileOf (sealed call.document p.hash))) →
    Writes pf call d d' (.storing p)

/-- What a step writes, and what holds of the call after it. -/
structure StepSourced (pf : Platform) (call : PersistCall) (d : StreamDir) (phase : PersistPhase)
    (x : StreamDir × PersistPhase) : Prop where
  writes : Writes pf call d x.1 phase
  call : CallSourced pf call x.2

/-- A step that writes nothing. -/
theorem StepSourced.stay {phase phase' : PersistPhase} (hc : CallSourced pf call phase') :
    StepSourced pf call d phase (d, phase') :=
  ⟨.nothing rfl rfl, hc⟩

theorem recording_sourced {p : Prepared} (hp : p.Of pf call) {index : Option JsonDocument}
    (hc : CallSourced pf call (.recording p index)) {x : StreamDir × PersistPhase}
    (h : stepPersist pf c call d (.recording p index) .proceed = some x) :
    StepSourced pf call d (.recording p index) x := by
  simp only [stepPersist] at h
  split at h
  · split at h
    · cases h; exact .stay trivial
    · rename_i old hash hread
      obtain ⟨row, -, hrow⟩ := Option.bind_eq_some_iff.1 hread
      obtain ⟨hash', hhash, heq⟩ := Option.map_eq_some_iff.1 hrow
      cases heq
      split_ifs at h
      · cases h; exact .stay trivial
      · cases h; exact .stay ⟨hc, old, _, hhash, rfl⟩
      · cases h; exact .stay trivial
      · cases h; exact .stay trivial
  · cases h; exact .stay ⟨hc, call.document, p.hash, hp.hash, rfl⟩
  · cases h; exact .stay hc

theorem stepPersist_sourced {phase : PersistPhase} {event : PersistEvent} {x : StreamDir × PersistPhase}
    (hphase : PhaseInv pf c call d phase) (hc : CallSourced pf call phase)
    (h : stepPersist pf c call d phase event = some x) : StepSourced pf call d phase x := by
  cases phase with
  | waiting p =>
    cases event <;> simp only [stepPersist, reduceCtorEq] at h
    case acquire =>
      split_ifs at h
      cases h
      exact ⟨.nothing rfl rfl, hc⟩
    case timeout | raises => cases h; exact .stay trivial
    case crash => cases h; exact ⟨.nothing rfl rfl, trivial⟩
  | indexing p =>
    cases event <;> simp only [stepPersist, reduceCtorEq] at h
    case proceed =>
      split at h
      · cases h; exact .stay hc
      · split at h
        · cases h; exact .stay trivial
        · split_ifs at h
          · cases h; exact .stay trivial
          · cases h; exact .stay hc
          · cases h; exact .stay trivial
    case raises => cases h; exact .stay trivial
    case crash => cases h; exact ⟨.nothing rfl rfl, trivial⟩
  | recording p index =>
    have hp : p.Of pf call := by
      cases index with
      | none => exact hphase.1
      | some index => exact hphase.1
    cases event with
    | proceed => exact recording_sourced hp hc h
    | raises => cases h; exact .stay trivial
    | crash => cases h; exact ⟨.nothing rfl rfl, trivial⟩
    | acquire | timeout | release => simp only [stepPersist, reduceCtorEq] at h
  | reserving p reserved recorded =>
    cases event <;> simp only [stepPersist, reduceCtorEq] at h
    case proceed =>
      split at h
      · cases h; exact .stay trivial
      · rename_i hash hhash
        cases h
        refine ⟨.index hhash rfl rfl, ?_⟩
        cases recorded with
        | true => trivial
        | false => exact hc.1
    case raises => cases h; exact .stay trivial
    case crash => cases h; exact ⟨.nothing rfl rfl, trivial⟩
  | storing p =>
    cases event <;> simp only [stepPersist, reduceCtorEq] at h
    case proceed => cases h; exact ⟨.record rfl rfl, trivial⟩
    case raises => cases h; exact .stay trivial
    case crash => cases h; exact ⟨.nothing rfl rfl, trivial⟩
  | leaving outcome =>
    cases event <;> simp only [stepPersist, reduceCtorEq] at h
    case release | raises | crash => cases h; exact ⟨.nothing rfl rfl, trivial⟩
  | ended outcome => cases event <;> simp only [stepPersist, reduceCtorEq] at h
  | crashed => cases event <;> simp only [stepPersist, reduceCtorEq] at h

/-- A step of a call with a row of the source keeps where the files come from. -/
theorem DirSourced.step {phase : PersistPhase} {x : StreamDir × PersistPhase}
    (hd : DirSourced pf source call.kind d) (hsource : source call.kind call.document)
    (hphase : PhaseInv pf c call d phase) (hc : CallSourced pf call phase) (h : StepSourced pf call d phase x) :
    DirSourced pf source call.kind x.1 := by
  obtain ⟨d', phase'⟩ := x
  rcases h.writes with ⟨hrecords, hindex⟩ | ⟨hhash, hrecords, hindex⟩ | ⟨hindex, hrecords⟩
  · exact ⟨hindex ▸ hd.index, hrecords ▸ hd.record⟩
  · rename_i p reserved recorded hash
    refine ⟨fun digest tokens h => ?_, hrecords ▸ hd.record⟩
    dsimp only at h
    rw [hindex] at h
    rcases update_eq_some h with ⟨rfl, heq⟩ | ⟨-, h⟩
    · obtain rfl := Option.some.inj heq
      exact ⟨call.document, p.path, reserved, hash, hsource, hphase.1.located, hc.2, hhash, rfl⟩
    · exact hd.index digest tokens h
  · rename_i p
    refine ⟨hindex ▸ hd.index, fun path tokens h => ?_⟩
    dsimp only at h
    rw [hrecords] at h
    rcases update_eq_some h with ⟨rfl, heq⟩ | ⟨-, h⟩
    · obtain rfl := Option.some.inj heq
      exact ⟨call.document, p.hash, hsource, hphase.1.path, call.unsealed, hc, hphase.1.hash, rfl⟩
    · exact hd.record path tokens h

end Step

section Streams

variable {pf : Platform} {source : RowKind → JsonDocument → Prop} {s s' : Streams}

theorem streamsSourced_start : StreamsSourced pf source .start :=
  ⟨fun _ => ⟨fun _ _ h => absurd h (by simp [Streams.start]), fun _ _ h => absurd h (by simp [Streams.start])⟩,
    fun _ _ _ h => absurd h (by simp [Streams.start]), fun _ _ _ h => absurd h (by simp [Streams.start])⟩

theorem enter_sourced (call : PersistCall) : CallSourced pf call (call.enter pf) := by
  unfold PersistCall.enter
  split
  · trivial
  · rename_i hash hhash
    split
    · trivial
    · rename_i tokens htokens
      split_ifs with hlarge
      · trivial
      · split
        · exact ⟨hash, tokens, hhash, htokens, not_lt.1 hlarge⟩
        · trivial

theorem streamsSourced_step (hinv : StreamsInv pf s) (hs : StreamsSourced pf source s) {act : PersistAct}
    (hact : FromSource source s act) (h : s.step pf act = some s') : StreamsSourced pf source s' := by
  cases act with
  | begins c call =>
    simp only [Streams.step] at h
    split at h
    · cases h
      refine ⟨hs.dir, fun c' call' phase' hcall' => ?_, fun c' call' phase' hcall' => ?_⟩
      · rcases update_eq_some hcall' with ⟨rfl, heq⟩ | ⟨-, hcall'⟩
        · obtain ⟨rfl, rfl⟩ := Prod.mk.inj (Option.some.inj heq)
          exact hact
        · exact hs.handed c' call' phase' hcall'
      · rcases update_eq_some hcall' with ⟨rfl, heq⟩ | ⟨-, hcall'⟩
        · obtain ⟨rfl, rfl⟩ := Prod.mk.inj (Option.some.inj heq)
          exact enter_sourced call
        · exact hs.call c' call' phase' hcall'
    · cases h
  | happens c event =>
    simp only [Streams.step] at h
    split at h
    · cases h
    · rename_i call phase hcall
      obtain ⟨x, hx, rfl⟩ := Option.map_eq_some_iff.1 h
      have hphase := hinv.call c call phase hcall
      have hstep := stepPersist_sourced hphase (hs.call c call phase hcall) hx
      refine ⟨fun kind => ?_, fun c' call' phase' hcall' => ?_, fun c' call' phase' hcall' => ?_⟩
      · dsimp only
        by_cases hkind : kind = call.kind
        · subst hkind
          rw [Function.update_self]
          exact (hs.dir _).step (hs.handed c call phase hcall) hphase (hs.call c call phase hcall) hstep
        · rw [Function.update_of_ne hkind]
          exact hs.dir kind
      · rcases update_eq_some hcall' with ⟨rfl, heq⟩ | ⟨-, hcall'⟩
        · obtain ⟨rfl, rfl⟩ := Prod.mk.inj (Option.some.inj heq)
          exact hs.handed _ _ phase hcall
        · exact hs.handed c' call' phase' hcall'
      · rcases update_eq_some hcall' with ⟨rfl, heq⟩ | ⟨-, hcall'⟩
        · obtain ⟨rfl, rfl⟩ := Prod.mk.inj (Option.some.inj heq)
          exact hstep.call
        · exact hs.call c' call' phase' hcall'

end Streams

end Aibot.Telemetry
