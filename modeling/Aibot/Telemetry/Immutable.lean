/-
The records of a stream are immutable and unique: what is stored never changes, an identity has one
record over all days, and its index entry has the hash of the record.
-/
import Aibot.Telemetry.Stream

namespace Aibot.Telemetry

open Store (JsonDocument Codec)

/-! ## Documents as files -/

/-- A document without a value that is not JSON. -/
def Complete (document : JsonDocument) : Prop := Json.isJson (.ofFields document) = true

theorem complete_iff {document : JsonDocument} : Complete document ↔ (Codec.dump document).2 = true := by
  show _ ↔ (Json.print (.obj document.entries)).2 = true
  rw [Json.print_complete]
  rfl

theorem Complete.load {document : JsonDocument} (h : Complete document) :
    Codec.load (fileOf document) = some document :=
  Codec.load_dump document (complete_iff.1 h)

theorem isJson_ofFields (document : JsonDocument) :
    Json.isJson (.ofFields document) = document.entries.all fun p => Json.isJson p.2 := by
  unfold Json.ofFields
  rw [Json.isJson, Json.fieldsAreJson_eq]

theorem Complete.set {document : JsonDocument} (h : Complete document) (key : String) {x : Json}
    (hx : Json.isJson x = true) : Complete (document.set key x) := by
  unfold Complete at h ⊢
  rw [isJson_ofFields, List.all_eq_true] at h ⊢
  intro p hp
  have hget : (document.set key x).get? p.1 = some p.2 := Dict.get?_eq_some.2 hp
  by_cases hkey : p.1 = key
  · rw [hkey, Dict.get?_set_self] at hget
    rw [← Option.some.inj hget]
    exact hx
  · rw [Dict.get?_set_of_ne _ _ hkey] at hget
    exact h p (Dict.get?_eq_some.1 hget)

theorem Complete.of_digest {pf : Platform} {document : JsonDocument} {hash : String}
    (h : pf.digest document = some hash) : Complete document := by
  obtain ⟨tokens, htokens, -⟩ := Option.map_eq_some_iff.1 h
  unfold Complete
  rw [← Json.print_complete, ← Json.canonical_isSome, htokens]
  rfl

theorem sealed_complete {pf : Platform} {document : JsonDocument} {hash : String}
    (h : pf.digest document = some hash) (hash' : String) : Complete (sealed document hash') :=
  (Complete.of_digest h).set _ rfl

/-- What was sealed is read back. -/
theorem readSealed_sealed {pf : Platform} {document : JsonDocument} {hash : String}
    (hunsealed : document.get? "content_hash" = none) (hhash : pf.digest document = some hash) {bound : ℕ}
    {body : JsonDocument} (h : readSealed pf bound (fileOf (sealed document hash)) = some body) : body = document := by
  unfold readSealed at h
  split_ifs at h
  rw [(sealed_complete hhash hash).load, Option.bind_some] at h
  unfold sealed at h
  rw [Dict.erase_set hunsealed] at h
  dsimp only at h
  rw [hhash, Option.bind_some] at h
  split_ifs at h
  exact (Option.some.inj h).symm

/-! ## Paths -/

theorem slash_not_mem_of_safeKey {key : String} (h : safeKey key = true) : '/' ∉ key.toList := by
  unfold safeKey at h
  simp only [Bool.and_eq_true] at h
  intro hmem
  have hchar := List.all_eq_true.1 h.2 _ hmem
  revert hchar
  decide

/-- A path tells the key. -/
theorem relativePath_key {day day' key key' : String} (hkey : '/' ∉ key.toList) (hkey' : '/' ∉ key'.toList)
    (h : relativePath day key = relativePath day' key') : key = key' := by
  have hlast : ∀ day key : String, '/' ∉ key.toList →
      (relativePath day key).toList.reverse.takeWhile (· ≠ '/') = (key ++ ".json").toList.reverse := by
    intro day key hkey
    have hlist : (relativePath day key).toList = day.toList ++ '/' :: (key ++ ".json").toList := by
      simp [relativePath, String.toList_append]
    have hname : ∀ c ∈ (key ++ ".json").toList.reverse, decide (c ≠ '/') = true := by
      intro c hc
      rw [List.mem_reverse, String.toList_append, List.mem_append] at hc
      refine decide_eq_true ?_
      rintro rfl
      rcases hc with hc | hc
      · exact hkey hc
      · revert hc
        decide
    rw [hlist, List.reverse_append, List.reverse_cons, List.append_assoc, List.takeWhile_append_of_pos hname]
    simp
  have hsame := (hlast day key hkey).symm.trans ((congrArg (fun p => p.toList.reverse.takeWhile (· ≠ '/')) h).trans
    (hlast day' key' hkey'))
  have hnames : key ++ ".json" = key' ++ ".json" := String.toList_injective (List.reverse_injective hsame)
  have htexts := congrArg String.toList hnames
  rw [String.toList_append, String.toList_append] at htexts
  exact String.toList_injective (List.append_cancel_right htexts)

/-! ## The invariant -/

section Invariant

variable (pf : Platform) (kind : RowKind)

/-- The row has the path, and its key has the hash `digest`. -/
structure Located (digest path : String) (document : JsonDocument) : Prop where
  path : recordPath pf kind document = some path
  key : (keyOf kind document).map pf.keyHash = some digest

/-- The file of an index entry: the reservation of some row. -/
def IsIndex (digest path hash : String) (tokens : List Json.Token) : Prop :=
  ∃ document hash', Located pf kind digest path document ∧
    pf.digest (reservation kind document path hash) = some hash' ∧
    tokens = fileOf (sealed (reservation kind document path hash) hash')

/-- The file of a record. -/
def IsRecord (digest path hash : String) (tokens : List Json.Token) : Prop :=
  ∃ document, Located pf kind digest path document ∧ document.get? "content_hash" = none ∧
    pf.digest document = some hash ∧ tokens = fileOf (sealed document hash)

/-- Every index entry is a reservation, and every record has one. -/
structure DirInv (d : StreamDir) : Prop where
  index : ∀ digest tokens, d.index digest = some tokens → ∃ path hash, IsIndex pf kind digest path hash tokens
  record : ∀ path tokens, d.records path = some tokens → ∃ digest hash entry,
    IsRecord pf kind digest path hash tokens ∧ d.index digest = some entry ∧ IsIndex pf kind digest path hash entry

/-- What a call has computed of its row. -/
structure Prepared.Of (p : Prepared) (call : PersistCall) : Prop where
  hash : pf.digest call.document = some p.hash
  path : recordPath pf call.kind call.document = some p.path
  key : keyOf call.kind call.document = some p.key

/-- What holds of a call in each phase, of the files of its stream. -/
def PhaseInv (c : Nat) (call : PersistCall) (d : StreamDir) : PersistPhase → Prop
  | .waiting p => p.Of pf call
  | .indexing p => p.Of pf call ∧ d.owner = some c
  | .recording p none => p.Of pf call ∧ d.owner = some c ∧ d.index (pf.keyHash p.key) = none
  | .recording p (some index) => p.Of pf call ∧ d.owner = some c ∧ ∃ hash tokens,
      d.index (pf.keyHash p.key) = some tokens ∧ IsIndex pf call.kind (pf.keyHash p.key) p.path hash tokens ∧
      index.field "record_content_hash" = .str hash ∧ (d.records p.path = none → hash = p.hash)
  | .reserving p reserved recorded => p.Of pf call ∧ d.owner = some c ∧ d.index (pf.keyHash p.key) = none ∧
      ∃ hash, reserved = reservation call.kind call.document p.path hash ∧
        (recorded = false → hash = p.hash ∧ d.records p.path = none)
  | .storing p => p.Of pf call ∧ d.owner = some c ∧ d.records p.path = none ∧ ∃ tokens,
      d.index (pf.keyHash p.key) = some tokens ∧ IsIndex pf call.kind (pf.keyHash p.key) p.path p.hash tokens
  | .leaving _ => d.owner = some c
  | .ended _ | .crashed => True

end Invariant

section Step

variable {pf : Platform} {kind : RowKind} {c c' : Nat} {call : PersistCall} {d d' : StreamDir} {p : Prepared}

theorem Prepared.Of.located (h : p.Of pf call) : Located pf call.kind (pf.keyHash p.key) p.path call.document :=
  ⟨h.path, by rw [h.key]; rfl⟩

theorem reservation_field {document : JsonDocument} {path hash key : String} {x : Json}
    (h : (key, x) ∈ [("index_schema_version", Json.int 1), ("telemetry_epoch_id", document.field "telemetry_epoch_id"),
      ("stream", .str kind.stream), ("identity", document.field "identity"), ("record_relative_path", .str path),
      ("record_content_hash", .str hash)]) : (reservation kind document path hash).field key = x :=
  Dict.field_of_get? (Dict.get?_ofList_of_mem (by simp) h)

theorem reservation_unsealed (document : JsonDocument) (path hash : String) :
    (reservation kind document path hash).get? "content_hash" = none := by
  cases h : (reservation kind document path hash).get? "content_hash" with
  | none => rfl
  | some x =>
    have hmem := Dict.mem_of_get?_ofList h
    simp at hmem

/-- An index entry that is read says its path and the hash of its record. -/
theorem IsIndex.read {digest path hash : String} {tokens : List Json.Token}
    (h : IsIndex pf kind digest path hash tokens) {bound : ℕ} {index : JsonDocument}
    (hread : readSealed pf bound tokens = some index) :
    index.field "record_relative_path" = .str path ∧ index.field "record_content_hash" = .str hash := by
  obtain ⟨document, hash', -, hhash', rfl⟩ := h
  rw [readSealed_sealed (reservation_unsealed ..) hhash' hread]
  exact ⟨reservation_field (by simp), reservation_field (by simp)⟩

/-- The file of an index entry says its path and the hash of its record. -/
theorem IsIndex.fields {digest path hash : String} {tokens : List Json.Token}
    (h : IsIndex pf kind digest path hash tokens) :
    ∃ index : JsonDocument, Codec.load tokens = some index ∧ index.field "record_relative_path" = .str path ∧
      index.field "record_content_hash" = .str hash := by
  obtain ⟨document, hash', -, hhash', rfl⟩ := h
  refine ⟨_, (sealed_complete hhash' hash').load, ?_, ?_⟩
  · unfold sealed
    rw [Dict.field_set_of_ne _ _ (by decide)]
    exact reservation_field (by simp)
  · unfold sealed
    rw [Dict.field_set_of_ne _ _ (by decide)]
    exact reservation_field (by simp)

theorem IsIndex.same {digest digest' path path' hash hash' : String} {tokens : List Json.Token}
    (h : IsIndex pf kind digest path hash tokens) (h' : IsIndex pf kind digest' path' hash' tokens) :
    path = path' ∧ hash = hash' := by
  obtain ⟨index, hload, hpath, hhash⟩ := h.fields
  obtain ⟨index', hload', hpath', hhash'⟩ := h'.fields
  obtain rfl := Option.some.inj (hload.symm.trans hload')
  exact ⟨Json.str.inj (hpath.symm.trans hpath'), Json.str.inj (hhash.symm.trans hhash')⟩

/-! ## What a step leaves to the others -/

/-- A step of the call `c`: what is stored stays, and the lock of another call holds. -/
structure Kept (c : Nat) (d d' : StreamDir) : Prop where
  index : ∀ digest tokens, d.index digest = some tokens → d'.index digest = some tokens
  records : ∀ path tokens, d.records path = some tokens → d'.records path = some tokens
  held : ∀ c', c' ≠ c → d.owner = some c' → d'.owner = some c' ∧ d'.index = d.index ∧ d'.records = d.records

theorem Kept.refl : Kept c d d := ⟨fun _ _ h => h, fun _ _ h => h, fun _ _ h => ⟨h, rfl, rfl⟩⟩

theorem Kept.unlock : Kept c d (d.unlock c) := by
  refine ⟨fun _ _ h => h, fun _ _ h => h, fun c' hne ho => ⟨?_, rfl, rfl⟩⟩
  have hother : d.owner ≠ some c := by
    rw [ho]
    exact fun he => hne (Option.some.inj he)
  exact (if_neg hother).trans ho

theorem Kept.acquire (hfree : d.owner = none) : Kept c d { d with owner := some c } := by
  refine ⟨fun _ _ h => h, fun _ _ h => h, fun c' _ ho => ?_⟩
  rw [hfree] at ho
  cases ho

/-- A new file of the lock's owner. -/
theorem Kept.write (howner : d.owner = some c)
    (hindex : ∀ digest tokens, d.index digest = some tokens → d'.index digest = some tokens)
    (hrecords : ∀ path tokens, d.records path = some tokens → d'.records path = some tokens) : Kept c d d' :=
  ⟨hindex, hrecords, fun _ hne ho => absurd (Option.some.inj (ho.symm.trans howner)) hne⟩

theorem update_none {κ α : Type*} [DecidableEq κ] {f : κ → Option α} {k j : κ} {v : Option α} {a : α}
    (hk : f k = none) (h : f j = some a) : Function.update f k v j = some a := by
  have hne : j ≠ k := by
    rintro rfl
    rw [hk] at h
    cases h
  rw [Function.update_of_ne hne]
  exact h

/-- A step of one call keeps what holds of another call on the same stream. -/
theorem PhaseInv.kept (h : Kept c d d') (hne : c' ≠ c) {phase : PersistPhase} (hc : PhaseInv pf c' call d phase) :
    PhaseInv pf c' call d' phase := by
  cases phase with
  | waiting p => exact hc
  | indexing p => exact ⟨hc.1, (h.held c' hne hc.2).1⟩
  | recording p index =>
    cases index with
    | none =>
      obtain ⟨hp, howner, hindex⟩ := hc
      obtain ⟨ho, hi, -⟩ := h.held c' hne howner
      exact ⟨hp, ho, hi ▸ hindex⟩
    | some index =>
      obtain ⟨hp, howner, hash, tokens, hindex, hentry, hfield, hrecord⟩ := hc
      obtain ⟨ho, hi, hr⟩ := h.held c' hne howner
      exact ⟨hp, ho, hash, tokens, hi ▸ hindex, hentry, hfield, hr ▸ hrecord⟩
  | reserving p reserved recorded =>
    obtain ⟨hp, howner, hindex, hreserved⟩ := hc
    obtain ⟨ho, hi, hr⟩ := h.held c' hne howner
    exact ⟨hp, ho, hi ▸ hindex, hr ▸ hreserved⟩
  | storing p =>
    obtain ⟨hp, howner, hrecord, hindex⟩ := hc
    obtain ⟨ho, hi, hr⟩ := h.held c' hne howner
    exact ⟨hp, ho, hr ▸ hrecord, hi ▸ hindex⟩
  | leaving outcome => exact (h.held c' hne hc).1
  | ended outcome | crashed => trivial

/-! ## One step -/

/-- What a step of the call `c` does to the files of its stream and to itself. -/
structure StepOk (pf : Platform) (c : Nat) (call : PersistCall) (d : StreamDir) (x : StreamDir × PersistPhase) :
    Prop where
  kept : Kept c d x.1
  dir : DirInv pf call.kind x.1
  call : PhaseInv pf c call x.1 x.2

/-- A step that leaves the files alone. -/
theorem StepOk.stay (hd : DirInv pf call.kind d) {phase : PersistPhase} (hc : PhaseInv pf c call d phase) :
    StepOk pf c call d (d, phase) :=
  ⟨.refl, hd, hc⟩

/-- A step that leaves the lock. -/
theorem StepOk.unlock (hd : DirInv pf call.kind d) {phase : PersistPhase}
    (hc : PhaseInv pf c call (d.unlock c) phase) : StepOk pf c call d (d.unlock c, phase) :=
  ⟨.unlock, ⟨hd.index, hd.record⟩, hc⟩

/-- The call has looked at the index entry of its identity. -/
theorem indexing_ok (hd : DirInv pf call.kind d) (hp : p.Of pf call) (howner : d.owner = some c)
    {x : StreamDir × PersistPhase} (h : stepPersist pf c call d (.indexing p) .proceed = some x) :
    StepOk pf c call d x := by
  simp only [stepPersist] at h
  split at h
  · rename_i hnone
    cases h
    exact .stay hd ⟨hp, howner, hnone⟩
  · rename_i tokens htokens
    obtain ⟨path, hash, hentry⟩ := hd.index _ _ htokens
    split at h
    · cases h; exact .stay hd howner
    · rename_i index hread
      obtain ⟨hpath, hhash⟩ := hentry.read hread
      split_ifs at h with hreserved hcrashed
      · cases h; exact .stay hd howner
      · cases h
        have hsame : path = p.path := by
          have hall := List.all_eq_true.1 hreserved "record_relative_path" (by decide)
          have hfield : (reservation call.kind call.document p.path p.hash).field "record_relative_path" =
              .str p.path :=
            reservation_field (by simp)
          rw [hpath, hfield] at hall
          exact Json.str.inj (Json.eq_of_equal_str hall)
        subst hsame
        refine .stay hd ⟨hp, howner, hash, tokens, htokens, hentry, hhash, fun hnone => ?_⟩
        have hequal : (index.field "record_content_hash").equal (.str p.hash) = true :=
          not_not.1 (not_and.1 hcrashed hnone)
        rw [hhash] at hequal
        exact Json.str.inj (Json.eq_of_equal_str hequal)
      · cases h; exact .stay hd howner

/-- The call has looked at the record. -/
theorem recording_ok (hd : DirInv pf call.kind d) {index : Option JsonDocument}
    (hc : PhaseInv pf c call d (.recording p index)) {x : StreamDir × PersistPhase}
    (h : stepPersist pf c call d (.recording p index) .proceed = some x) : StepOk pf c call d x := by
  have howner : d.owner = some c := by
    cases index with
    | none => exact hc.2.1
    | some index => exact hc.2.1
  simp only [stepPersist] at h
  split at h
  · split at h
    · cases h; exact .stay hd howner
    · rename_i hash _
      split_ifs at h with hdiffers hsame hnew
      · cases h; exact .stay hd howner
      · -- a record without an index entry is given one
        cases h
        rw [Option.isNone_iff_eq_none] at hnew
        subst hnew
        exact .stay hd ⟨hc.1, howner, hc.2.2, hash, rfl, nofun⟩
      · cases h; exact .stay hd howner
      · cases h; exact .stay hd howner
  · rename_i hrecord
    cases h
    exact .stay hd ⟨hc.1, howner, hc.2.2, p.hash, rfl, fun _ => ⟨rfl, hrecord⟩⟩
  · rename_i index hrecord
    cases h
    obtain ⟨hp, -, hash, tokens, hindex, hentry, -, hcrashed⟩ := hc
    obtain rfl := hcrashed hrecord
    exact .stay hd ⟨hp, howner, hrecord, tokens, hindex, hentry⟩

/-- An index entry is written where there was none. -/
theorem reserving_ok (hd : DirInv pf call.kind d) {reserved : JsonDocument} {recorded : Bool}
    (hc : PhaseInv pf c call d (.reserving p reserved recorded)) {x : StreamDir × PersistPhase}
    (h : stepPersist pf c call d (.reserving p reserved recorded) .proceed = some x) : StepOk pf c call d x := by
  obtain ⟨hp, howner, hnone, hash, rfl, hnew⟩ := hc
  simp only [stepPersist] at h
  split at h
  · cases h; exact .stay hd howner
  · rename_i hash' hhash'
    cases h
    set d' : StreamDir := { d with
      index := Function.update d.index (pf.keyHash p.key)
        (some (fileOf (sealed (reservation call.kind call.document p.path hash) hash'))) } with hd'
    have hold : ∀ digest tokens, d.index digest = some tokens → d'.index digest = some tokens :=
      fun _ _ h => update_none hnone h
    have hself : d'.index (pf.keyHash p.key) = some _ := Function.update_self ..
    have hentry : IsIndex pf call.kind (pf.keyHash p.key) p.path hash
        (fileOf (sealed (reservation call.kind call.document p.path hash) hash')) :=
      ⟨call.document, hash', hp.located, hhash', rfl⟩
    refine ⟨.write howner hold fun _ _ h => h, ⟨fun digest tokens hindex => ?_, fun path tokens hrecord => ?_⟩, ?_⟩
    · rcases update_eq_some hindex with ⟨rfl, heq⟩ | ⟨-, hindex⟩
      · obtain rfl := Option.some.inj heq
        exact ⟨p.path, hash, hentry⟩
      · exact hd.index digest tokens hindex
    · obtain ⟨digest, hash₁, entry, hrow, hindex, hreserved⟩ := hd.record path tokens hrecord
      exact ⟨digest, hash₁, entry, hrow, hold _ _ hindex, hreserved⟩
    · cases recorded with
      | true => exact howner
      | false =>
        obtain ⟨rfl, hrecord⟩ := hnew rfl
        exact ⟨hp, howner, hrecord, _, hself, hentry⟩

/-- A record is written where there was none, under its index entry. -/
theorem storing_ok (hd : DirInv pf call.kind d) (hc : PhaseInv pf c call d (.storing p))
    {x : StreamDir × PersistPhase} (h : stepPersist pf c call d (.storing p) .proceed = some x) :
    StepOk pf c call d x := by
  obtain ⟨hp, howner, hnone, entry, hindex, hentry⟩ := hc
  simp only [stepPersist] at h
  cases h
  refine ⟨.write howner (fun _ _ h => h) fun _ _ h => update_none hnone h, ⟨hd.index, fun path tokens hrecord => ?_⟩,
    howner⟩
  rcases update_eq_some hrecord with ⟨rfl, heq⟩ | ⟨-, hrecord⟩
  · obtain rfl := Option.some.inj heq
    exact ⟨_, _, entry, ⟨call.document, hp.located, call.unsealed, hp.hash, rfl⟩, hindex, hentry⟩
  · exact hd.record path tokens hrecord

theorem stepPersist_ok {phase : PersistPhase} {event : PersistEvent} {x : StreamDir × PersistPhase}
    (hd : DirInv pf call.kind d) (hc : PhaseInv pf c call d phase) (h : stepPersist pf c call d phase event = some x) :
    StepOk pf c call d x := by
  cases phase with
  | waiting p =>
    cases event <;> simp only [stepPersist, reduceCtorEq] at h
    case acquire =>
      split_ifs at h with hfree
      cases h
      exact ⟨.acquire hfree, ⟨hd.index, hd.record⟩, hc, rfl⟩
    case timeout => cases h; exact .stay hd trivial
    case raises => cases h; exact .stay hd trivial
    case crash => cases h; exact .unlock hd trivial
  | indexing p =>
    cases event with
    | proceed => exact indexing_ok hd hc.1 hc.2 h
    | raises => cases h; exact .stay hd hc.2
    | crash => cases h; exact .unlock hd trivial
    | acquire | timeout | release => simp only [stepPersist, reduceCtorEq] at h
  | recording p index =>
    cases event with
    | proceed => exact recording_ok hd hc h
    | raises =>
      cases h
      cases index with
      | none => exact .stay hd hc.2.1
      | some index => exact .stay hd hc.2.1
    | crash => cases h; exact .unlock hd trivial
    | acquire | timeout | release => simp only [stepPersist, reduceCtorEq] at h
  | reserving p reserved recorded =>
    cases event with
    | proceed => exact reserving_ok hd hc h
    | raises => cases h; exact .stay hd hc.2.1
    | crash => cases h; exact .unlock hd trivial
    | acquire | timeout | release => simp only [stepPersist, reduceCtorEq] at h
  | storing p =>
    cases event with
    | proceed => exact storing_ok hd hc h
    | raises => cases h; exact .stay hd hc.2.1
    | crash => cases h; exact .unlock hd trivial
    | acquire | timeout | release => simp only [stepPersist, reduceCtorEq] at h
  | leaving outcome =>
    cases event <;> simp only [stepPersist, reduceCtorEq] at h
    case release | raises | crash => cases h; exact .unlock hd trivial
  | ended outcome => cases event <;> simp only [stepPersist, reduceCtorEq] at h
  | crashed => cases event <;> simp only [stepPersist, reduceCtorEq] at h

end Step

/-! ## The streams -/

section Streams

variable {pf : Platform} {s s' : Streams}

structure StreamsInv (pf : Platform) (s : Streams) : Prop where
  dir : ∀ kind, DirInv pf kind (s.dirs kind)
  call : ∀ c call phase, s.calls c = some (call, phase) → PhaseInv pf c call (s.dirs call.kind) phase

theorem streamsInv_start : StreamsInv pf .start where
  dir := fun _ => ⟨nofun, nofun⟩
  call := nofun

theorem enter_inv (c : Nat) (call : PersistCall) (d : StreamDir) : PhaseInv pf c call d (call.enter pf) := by
  unfold PersistCall.enter
  split
  · trivial
  · rename_i hash hhash
    split
    · trivial
    · split_ifs
      · trivial
      · split
        · rename_i path key hpath hkey
          exact ⟨hhash, hpath, hkey⟩
        · trivial

/-- What a step does to the streams: a call enters, or one call takes a step. -/
theorem streams_step_cases {a : PersistAct} (h : s.step pf a = some s') :
    (∃ c call, s.calls c = none ∧
      s' = { s with calls := Function.update s.calls c (some (call, call.enter pf)) }) ∨
    ∃ c event call phase x, s.calls c = some (call, phase) ∧
      stepPersist pf c call (s.dirs call.kind) phase event = some x ∧
      s' = ⟨Function.update s.dirs call.kind x.1, Function.update s.calls c (some (call, x.2))⟩ := by
  cases a with
  | begins c call =>
    simp only [Streams.step] at h
    split at h
    · rename_i hnone
      exact .inl ⟨c, call, hnone, (Option.some.inj h).symm⟩
    · cases h
  | happens c event =>
    simp only [Streams.step] at h
    split at h
    · cases h
    · rename_i call phase hcall
      obtain ⟨x, hx, rfl⟩ := Option.map_eq_some_iff.1 h
      exact .inr ⟨c, event, call, phase, x, hcall, hx, rfl⟩

/-- The files of every stream, before and after a step. -/
theorem streams_kept (hs : StreamsInv pf s) {a : PersistAct} (h : s.step pf a = some s') (kind : RowKind) :
    ∃ c, Kept c (s.dirs kind) (s'.dirs kind) := by
  rcases streams_step_cases h with ⟨c, call, -, rfl⟩ | ⟨c, event, call, phase, x, hcall, hx, rfl⟩
  · exact ⟨c, .refl⟩
  · refine ⟨c, ?_⟩
    dsimp only
    by_cases hkind : kind = call.kind
    · subst hkind
      rw [Function.update_self]
      exact (stepPersist_ok (hs.dir _) (hs.call c call phase hcall) hx).kept
    · rw [Function.update_of_ne hkind]
      exact .refl

theorem streamsInv_step (hs : StreamsInv pf s) {a : PersistAct} (h : s.step pf a = some s') : StreamsInv pf s' := by
  rcases streams_step_cases h with ⟨c, call, hnone, rfl⟩ | ⟨c, event, call, phase, x, hcall, hx, rfl⟩
  · refine ⟨hs.dir, fun c' call' phase' hcall' => ?_⟩
    rcases update_eq_some hcall' with ⟨rfl, heq⟩ | ⟨-, hcall'⟩
    · obtain ⟨rfl, rfl⟩ := Prod.mk.inj (Option.some.inj heq)
      exact enter_inv ..
    · exact hs.call c' call' phase' hcall'
  · have hok := stepPersist_ok (hs.dir _) (hs.call c call phase hcall) hx
    refine ⟨fun kind => ?_, fun c' call' phase' hcall' => ?_⟩
    · dsimp only
      by_cases hkind : kind = call.kind
      · subst hkind
        rw [Function.update_self]
        exact hok.dir
      · rw [Function.update_of_ne hkind]
        exact hs.dir kind
    · dsimp only
      rcases update_eq_some hcall' with ⟨rfl, heq⟩ | ⟨hne, hcall'⟩
      · obtain ⟨rfl, rfl⟩ := Prod.mk.inj (Option.some.inj heq)
        rw [Function.update_self]
        exact hok.call
      · have hother := hs.call c' call' phase' hcall'
        by_cases hkind : call'.kind = call.kind
        · rw [hkind] at hother ⊢
          rw [Function.update_self]
          exact hother.kept hok.kept hne
        · rw [Function.update_of_ne hkind]
          exact hother

theorem streamsInv_run {acts : List PersistAct} (h : Run (Streams.step pf) Run.anyStep .start acts s) :
    StreamsInv pf s :=
  h.invariant (fun _ _ _ hs _ h => streamsInv_step hs h) streamsInv_start

/-- What is stored stays as it is. -/
theorem stored_run (hs : StreamsInv pf s) {acts : List PersistAct}
    (h : Run (Streams.step pf) Run.anyStep s acts s') (kind : RowKind) :
    (∀ path tokens, (s.dirs kind).records path = some tokens → (s'.dirs kind).records path = some tokens) ∧
      ∀ digest tokens, (s.dirs kind).index digest = some tokens → (s'.dirs kind).index digest = some tokens := by
  induction h with
  | nil s => exact ⟨fun _ _ h => h, fun _ _ h => h⟩
  | cons _ hstep _ ih =>
    obtain ⟨c, hkept⟩ := streams_kept hs hstep kind
    obtain ⟨hrecords, hindex⟩ := ih (streamsInv_step hs hstep)
    exact ⟨fun path tokens h => hrecords path tokens (hkept.records path tokens h),
      fun digest tokens h => hindex digest tokens (hkept.index digest tokens h)⟩

/-! ## What is stored -/

/-- The files of a stream agree: an identity has one record over all days, it has an index entry under its
key, and the hash of an index entry is that of its record once there is one. -/
structure Consistent (pf : Platform) (kind : RowKind) (d : StreamDir) : Prop where
  unique : ∀ path path' tokens tokens' (document document' : JsonDocument) key,
    d.records path = some tokens → Codec.load tokens = some document → keyOf kind document = some key →
    d.records path' = some tokens' → Codec.load tokens' = some document' → keyOf kind document' = some key →
    path = path'
  indexed : ∀ path tokens, d.records path = some tokens → ∃ (document index : JsonDocument) (key : String),
    Codec.load tokens = some document ∧ keyOf kind document = some key ∧
    (∃ entry, d.index (pf.keyHash key) = some entry ∧ Codec.load entry = some index) ∧
    index.field "record_relative_path" = .str path
  matching : ∀ digest entry (index : JsonDocument) path, d.index digest = some entry → Codec.load entry = some index →
    index.field "record_relative_path" = .str path → ∀ tokens, d.records path = some tokens →
    ∃ (document : JsonDocument) (hash : String), Codec.load tokens = some document ∧
      pf.digest (document.erase "content_hash") = some hash ∧ index.field "record_content_hash" = .str hash

variable {kind : RowKind} {d : StreamDir}

/-- The record that a file holds. -/
theorem IsRecord.load {digest path hash : String} {tokens : List Json.Token}
    (h : IsRecord pf kind digest path hash tokens) : ∃ document : JsonDocument, Codec.load tokens = some document ∧
      (keyOf kind document).map pf.keyHash = some digest ∧
      pf.digest (document.erase "content_hash") = some hash := by
  obtain ⟨document, hlocated, hunsealed, hhash, rfl⟩ := h
  refine ⟨_, (sealed_complete hhash hash).load, ?_, ?_⟩
  · have hkey : keyOf kind (sealed document hash) = keyOf kind document := by
      unfold keyOf identityOf sealed
      rw [Dict.field_set_of_ne _ _ (by decide)]
    rw [hkey]
    exact hlocated.key
  · unfold sealed
    rw [Dict.erase_set hunsealed]
    exact hhash

theorem recordPath_some {document : JsonDocument} {path : String} (h : recordPath pf kind document = some path) :
    ∃ day key, keyOf kind document = some key ∧ safeKey key = true ∧ path = relativePath day key := by
  obtain ⟨identity, -, h⟩ := Option.bind_eq_some_iff.1 h
  obtain ⟨key, hkey, h⟩ := Option.bind_eq_some_iff.1 h
  split_ifs at h with hsafe
  split at h
  · obtain ⟨day, -, rfl⟩ := Option.map_eq_some_iff.1 h
    exact ⟨day, key, hkey, hsafe, rfl⟩
  · cases h

/-- A path belongs to one key. -/
theorem Located.same {digest digest' path : String} {document document' : JsonDocument}
    (h : Located pf kind digest path document) (h' : Located pf kind digest' path document') : digest = digest' := by
  obtain ⟨day, key, hkey, hsafe, hpath⟩ := recordPath_some h.path
  obtain ⟨day', key', hkey', hsafe', hpath'⟩ := recordPath_some h'.path
  obtain rfl := relativePath_key (slash_not_mem_of_safeKey hsafe) (slash_not_mem_of_safeKey hsafe')
    (hpath.symm.trans hpath')
  have hdigest := h.key
  have hdigest' := h'.key
  rw [hkey] at hdigest
  rw [hkey'] at hdigest'
  exact Option.some.inj (hdigest.symm.trans hdigest')

theorem IsIndex.digest_eq {digest digest' path hash hash' : String} {tokens tokens' : List Json.Token}
    (h : IsIndex pf kind digest path hash tokens) (h' : IsIndex pf kind digest' path hash' tokens') :
    digest = digest' := by
  obtain ⟨document, _, hlocated, -⟩ := h
  obtain ⟨document', _, hlocated', -⟩ := h'
  exact hlocated.same hlocated'

theorem DirInv.consistent (hd : DirInv pf kind d) : Consistent pf kind d where
  unique := by
    intro path path' tokens tokens' document document' key hrecord hload hkey hrecord' hload' hkey'
    obtain ⟨digest, hash, entry, hrow, hindex, hentry⟩ := hd.record path tokens hrecord
    obtain ⟨digest', hash', entry', hrow', hindex', hentry'⟩ := hd.record path' tokens' hrecord'
    obtain ⟨row, hrowload, hdigest, -⟩ := hrow.load
    obtain ⟨row', hrowload', hdigest', -⟩ := hrow'.load
    obtain rfl := Option.some.inj (hrowload.symm.trans hload)
    obtain rfl := Option.some.inj (hrowload'.symm.trans hload')
    rw [hkey] at hdigest
    rw [hkey'] at hdigest'
    obtain rfl := Option.some.inj (hdigest.symm.trans hdigest')
    obtain rfl := Option.some.inj (hindex.symm.trans hindex')
    exact (hentry.same hentry').1
  indexed := by
    intro path tokens hrecord
    obtain ⟨digest, hash, entry, hrow, hindex, hentry⟩ := hd.record path tokens hrecord
    obtain ⟨row, hload, hdigest, -⟩ := hrow.load
    obtain ⟨key, hkey, rfl⟩ := Option.map_eq_some_iff.1 hdigest
    obtain ⟨index, hentryload, hpath, -⟩ := hentry.fields
    exact ⟨row, index, key, hload, hkey, ⟨entry, hindex, hentryload⟩, hpath⟩
  matching := by
    intro digest entry index path hindex hload hpath tokens hrecord
    obtain ⟨path₁, hash₁, hentry⟩ := hd.index digest entry hindex
    obtain ⟨index₁, hload₁, hpath₁, hhash₁⟩ := hentry.fields
    obtain rfl := Option.some.inj (hload₁.symm.trans hload)
    obtain rfl := Json.str.inj (hpath₁.symm.trans hpath)
    obtain ⟨digest', hash, entry', hrow, hindex', hentry'⟩ := hd.record _ tokens hrecord
    -- the path is that of one key, so the record's entry is this one
    obtain rfl := hentry.digest_eq hentry'
    obtain rfl := Option.some.inj (hindex.symm.trans hindex')
    obtain ⟨-, rfl⟩ := hentry.same hentry'
    obtain ⟨row, hrowload, -, hbody⟩ := hrow.load
    exact ⟨row, _, hrowload, hbody, hhash₁⟩

/-- In every interleaving of calls, with an exception or a crash at any step: the files of every stream
agree, and what is stored never changes. -/
theorem records_immutable {acts : List PersistAct} (h : Run (Streams.step pf) Run.anyStep .start acts s) :
    (∀ kind, Consistent pf kind (s.dirs kind)) ∧
      ∀ acts' t, Run (Streams.step pf) Run.anyStep s acts' t → ∀ kind path tokens,
        (s.dirs kind).records path = some tokens → (t.dirs kind).records path = some tokens :=
  ⟨fun kind => ((streamsInv_run h).dir kind).consistent,
    fun _ _ h' kind path tokens hrecord => (stored_run (streamsInv_run h) h' kind).1 path tokens hrecord⟩

end Streams

/-! ## A crash after the reservation -/

/-- A platform of one day. -/
def oneDay : Platform := ⟨fun tokens => toString tokens.length, id, fun _ => some "2026-01-01", fun _ => 3, 1⟩

def sampleCall : PersistCall where
  kind := .predictor
  document := Dict.ofList [("identity", .obj [("signal_id", .str "a"), ("signal_detected_at", .str "t")])]
  unsealed := by decide

/-- The first call dies between the index entry and the record; the second writes the record. -/
def crashedReservation : List PersistAct :=
  .begins 0 sampleCall :: [.acquire, .proceed, .proceed, .proceed, .crash].map (.happens 0) ++
    .begins 1 sampleCall :: [.acquire, .proceed, .proceed, .proceed, .release].map (.happens 1)

/-- How a call has ended. -/
def outcomeOf (s : Streams) (c : Nat) : Option PersistOutcome :=
  match s.calls c with
  | some (_, .ended outcome) => some outcome
  | _ => none

theorem records_immutable_crashed : ∃ s, Run (Streams.step oneDay) Run.anyStep .start crashedReservation s ∧
    (outcomeOf s 0 = none ∧ outcomeOf s 1 = some .written) ∧ (∀ kind, Consistent oneDay kind (s.dirs kind)) ∧
    ∀ acts' t, Run (Streams.step oneDay) Run.anyStep s acts' t → ∀ kind path tokens,
      (s.dirs kind).records path = some tokens → (t.dirs kind).records path = some tokens := by
  have hrun : ∃ s, Run (Streams.step oneDay) Run.anyStep .start crashedReservation s ∧
      (outcomeOf s 0 = none ∧ outcomeOf s 1 = some .written) := Run.exists_of_any (by decide +kernel)
  obtain ⟨s, hrun, houtcomes⟩ := hrun
  exact ⟨s, hrun, houtcomes, records_immutable hrun⟩

end Aibot.Telemetry
