/-
The reader accepts what the recorders of an epoch have stored: every record passes its checks, its index
entry is there and is linked to it, and a reader beside any run of the writers never raises.
-/
import Aibot.Telemetry.Indexed

namespace Aibot.Telemetry

open Store (JsonDocument Codec)

/-! ## Where a document comes from -/

section Handed

variable {pf : Platform} {dt : Datetimes} {w : World pf dt} {kind : RowKind} {document document' : JsonDocument}

theorem writeStream_some {e : Epoch} {row : Option Value} (h : writeStream dt e kind row = some document) :
    ∃ value, row = some value ∧ value.json.fields? = some document := by
  obtain ⟨document', hdocument, h⟩ := Option.bind_eq_some_iff.1 h
  obtain ⟨value, hvalue, hfields⟩ := Option.bind_eq_some_iff.1 hdocument
  refine ⟨value, hvalue, ?_⟩
  obtain ⟨identity, -, h⟩ := Option.bind_eq_some_iff.1 h
  split at h
  · obtain ⟨stamp, -, h⟩ := Option.bind_eq_some_iff.1 h
    split_ifs at h
    split at h
    · rwa [← Option.some.inj h]
    · split_ifs at h
      rwa [← Option.some.inj h]
    · cases h
  · cases h

theorem Handed.ofPredictor (hdoc : Documented pf dt) (h : Handed w .predictor document) :
    ∃ c ∈ w.captures, IsRow w.epoch .predictor (predictorIdentity c) document ∧
      document.get? "execution_receipt" = none ∧ document.get? "outcome" = none ∧
      (c.receipt.tradeId.isNone = false → nested document "decision" "outcome" = .str "BUY") := by
  cases h with
  | @predictor r c _ hr hc hwrite =>
    obtain ⟨value, hrow, hvalue⟩ := writeStream_some hwrite
    exact ⟨c, hc, row_written hdoc ((w.finished c hc).captured hdoc) hr hrow hvalue⟩

theorem Handed.ofReceipt (hdoc : Documented pf dt) (h : Handed w .receipt document) :
    ∃ c ∈ w.captures, c.receipt.tradeId.truthy = true ∧ IsRow w.epoch .receipt (receiptIdentity c) document := by
  cases h with
  | @receipt r c _ hr hc htrade hwrite =>
    obtain ⟨value, hrow, hvalue⟩ := writeStream_some hwrite
    exact ⟨c, hc, htrade, receiptRow_written hdoc ((w.finished c hc).captured hdoc) hr hrow hvalue⟩

theorem Handed.ofOutcome (h : Handed w .outcome document) :
    ∃ t ∈ w.trades, ∃ row, submitOutcome dt w.epoch (completedTelemetry t.events t.position) = some row ∧
      IsRow w.epoch .outcome (outcomeIdentity row) document := by
  cases h with
  | @outcome r t _ hr ht hwrite =>
    obtain ⟨value, hvalue, hfields⟩ := writeStream_some hwrite
    obtain ⟨row, hrow, hvalue⟩ := Option.bind_eq_some_iff.1 hvalue
    exact ⟨t, ht, row, hrow, outcomeRow_written hr hvalue hfields⟩

/-- The position of a receipt is a text. -/
theorem Captured.tradeId_of_truthy {c : Capture} (h : Captured dt c) (htrade : c.receipt.tradeId.truthy = true) :
    ∃ id, IsIdentifier id ∧ c.receipt.tradeId = .str id := by
  rcases h.trade with hnone | hid
  · rw [hnone] at htrade
    cases htrade
  · exact hid

theorem isText_of_ne {s : String} (h : s ≠ "") : isText (.str s) = true := decide_eq_true h

theorem captureKeys_nodup : captureKeys.Nodup := by decide

theorem outcomeKeys_nodup : outcomeKeys.Nodup := by decide

/-- The identity in a row of a capture. -/
structure CaptureFields (c : Capture) (tradeId eventSeq : Value) (document : JsonDocument) : Prop where
  signalId : nested document "identity" "signal_id" = .str c.identity.signalId
  mint : nested document "identity" "mint" = .str c.identity.mint
  route : nested document "identity" "route_type" = .str c.identity.routeType
  family : nested document "identity" "strategy_family" = .str c.identity.strategyFamily
  signal : nested document "identity" "signal_detected_at" = .str c.identity.signalDetectedAt
  trade : nested document "identity" "trade_id" = tradeId.json
  number : nested document "identity" "event_seq" = eventSeq.json

theorem IsRow.captureFields {e : Epoch} {c : Capture} {tradeId eventSeq : Value}
    (h : IsRow e kind (captureIdentity c ++ [("trade_id", tradeId), ("event_seq", eventSeq)]) document) :
    CaptureFields c tradeId eventSeq document := by
  have hnested : ∀ {key : String} (x : Value),
      (key, x) ∈ captureIdentity c ++ [("trade_id", tradeId), ("event_seq", eventSeq)] →
      nested document "identity" key = x.json := fun x hmem => nested_of_get? h.identity captureKeys_nodup hmem
  exact ⟨hnested (.str _) (by simp [captureIdentity]), hnested (.str _) (by simp [captureIdentity]),
    hnested (.str _) (by simp [captureIdentity]), hnested (.str _) (by simp [captureIdentity]),
    hnested (.str _) (by simp [captureIdentity]), hnested tradeId (by simp), hnested eventSeq (by simp)⟩

/-- What the reader relies on in a document that is persisted. -/
structure Readable (e : Epoch) (kind : RowKind) (key : String) (identity : List (String × Value))
    (document : JsonDocument) : Prop where
  row : IsRow e kind identity document
  identifier : IsIdentifier key
  named : nested document "identity" kind.keyField = .str key
  mint : isText (nested document "identity" "mint") = true
  separated : validateIdentity kind document = .ok ()

theorem demand_of {condition : Bool} (h : condition = true) (message : String) : demand condition message = .ok () := by
  unfold demand
  rw [if_pos h]

theorem Handed.readable (hdoc : Documented pf dt) (h : Handed w kind document) :
    ∃ key identity, Readable w.epoch kind key identity document ∧ bytesOf pf (Value.ofItems identity).json ≤ 2900 := by
  cases kind with
  | predictor =>
    obtain ⟨c, hc, hrow, hreceipt, houtcome, -⟩ := h.ofPredictor hdoc
    have hcaptured := (w.finished c hc).captured hdoc
    have hfields := hrow.captureFields
    refine ⟨c.identity.signalId, predictorIdentity c, ⟨hrow, hcaptured.signalId, hfields.signalId, ?_, ?_⟩,
      hcaptured.bytes_identity hdoc (.inl rfl) (.inl rfl)⟩
    · rw [hfields.mint]
      exact isText_of_ne hcaptured.minted.1
    · refine demand_of ?_ _
      rw [hfields.signalId, hreceipt, houtcome, isText_of_ne hcaptured.signalId.nonempty]
      rfl
  | receipt =>
    obtain ⟨c, hc, htrade, hrow⟩ := h.ofReceipt hdoc
    have hcaptured := (w.finished c hc).captured hdoc
    have hfields := hrow.captureFields
    obtain ⟨id, hid, htradeId⟩ := hcaptured.tradeId_of_truthy htrade
    refine ⟨c.identity.signalId, receiptIdentity c, ⟨hrow, hcaptured.signalId, hfields.signalId, ?_, ?_⟩,
      hcaptured.bytes_identity hdoc (.inr ⟨id, hid, htradeId⟩)
        (hcaptured.number.imp_right fun ⟨n, hn, heq⟩ => ⟨n, heq, hn⟩)⟩
    · rw [hfields.mint]
      exact isText_of_ne hcaptured.minted.1
    · refine demand_of ?_ _
      rw [hfields.signalId, hfields.trade, htradeId, isText_of_ne hcaptured.signalId.nonempty]
      exact isText_of_ne hid.nonempty
  | outcome =>
    obtain ⟨t, ht, row, hsubmit, hrow⟩ := h.ofOutcome
    have hsubmitted := submitted hsubmit
    obtain ⟨-, -, -, -, n, id, last, -, -, -, -, hidentity⟩ := hsubmitted.identity
    have hnested : ∀ {key : String} {x : Value}, (key, x) ∈ outcomeIdentity row →
        nested document "identity" key = x.json :=
      fun hmem => nested_of_get? hrow.identity outcomeKeys_nodup hmem
    have htrade : nested document "identity" "trade_id" = .str t.position.positionId :=
      hnested (x := .str t.position.positionId) (by rw [hidentity]; simp)
    have hmint : nested document "identity" "mint" = .str (cutText t.position.mint) :=
      hnested (x := .str (cutText t.position.mint)) (by rw [hidentity]; simp)
    refine ⟨t.position.positionId, outcomeIdentity row, ⟨hrow, t.identified, htrade, ?_, ?_⟩,
      hsubmitted.bytes_identity hdoc⟩
    · rw [hmint]
      exact isText_of_ne (cutText_ne_empty t.minted)
    · refine demand_of ?_ _
      rw [htrade]
      exact isText_of_ne t.identified.nonempty

theorem outcome_tradeId {e : Epoch} {t : Trade} {row : Dict String Value}
    (hsubmit : submitOutcome dt e (completedTelemetry t.events t.position) = some row)
    (hrow : IsRow e .outcome (outcomeIdentity row) document) :
    nested document "identity" "trade_id" = .str t.position.positionId := by
  obtain ⟨-, -, -, -, n, id, last, -, -, -, -, hidentity⟩ := (submitted hsubmit).identity
  exact nested_of_get? hrow.identity outcomeKeys_nodup (x := .str t.position.positionId) (by rw [hidentity]; simp)

/-- Documents of one key have one identity. -/
theorem Handed.identity_unique (hdoc : Documented pf dt) (h : Handed w kind document) (h' : Handed w kind document')
    {key : String} (hkey : nested document "identity" kind.keyField = .str key)
    (hkey' : nested document' "identity" kind.keyField = .str key) :
    document.field "identity" = document'.field "identity" := by
  cases kind with
  | predictor =>
    obtain ⟨c, hc, hrow, -⟩ := h.ofPredictor hdoc
    obtain ⟨c', hc', hrow', -⟩ := h'.ofPredictor hdoc
    obtain rfl := w.distinct c hc c' hc' (Json.str.inj ((hrow.captureFields.signalId.symm.trans hkey).trans
      (hkey'.symm.trans hrow'.captureFields.signalId)))
    rw [Dict.field_of_get? hrow.identity, Dict.field_of_get? hrow'.identity]
  | receipt =>
    obtain ⟨c, hc, -, hrow⟩ := h.ofReceipt hdoc
    obtain ⟨c', hc', -, hrow'⟩ := h'.ofReceipt hdoc
    obtain rfl := w.distinct c hc c' hc' (Json.str.inj ((hrow.captureFields.signalId.symm.trans hkey).trans
      (hkey'.symm.trans hrow'.captureFields.signalId)))
    rw [Dict.field_of_get? hrow.identity, Dict.field_of_get? hrow'.identity]
  | outcome =>
    obtain ⟨t, ht, row, hsubmit, hrow⟩ := h.ofOutcome
    obtain ⟨t', ht', row', hsubmit', hrow'⟩ := h'.ofOutcome
    obtain rfl := w.closed t ht t' ht' (Json.str.inj (((outcome_tradeId hsubmit hrow).symm.trans hkey).trans
      (hkey'.symm.trans (outcome_tradeId hsubmit' hrow'))))
    obtain rfl := Option.some.inj (hsubmit.symm.trans hsubmit')
    rw [Dict.field_of_get? hrow.identity, Dict.field_of_get? hrow'.identity]

end Handed

/-! ## Sealed documents -/

section Sealed

variable {pf : Platform} {e : Epoch} {kind : RowKind} {document : JsonDocument} {hash key : String}
  {identity : List (String × Value)}

theorem sealed_field (document : JsonDocument) (hash : String) {key : String} (h : key ≠ "content_hash") :
    (sealed document hash).field key = document.field key :=
  Dict.field_set_of_ne document _ h

theorem sealed_nested (document : JsonDocument) (hash : String) {name key : String} (h : name ≠ "content_hash") :
    nested (sealed document hash) name key = nested document name key := by
  unfold nested sealed
  rw [Dict.get?_set_of_ne document _ h]

/-- A document has the hash it was sealed with. -/
theorem hashMatches_sealed (hunsealed : document.get? "content_hash" = none) (hhash : pf.digest document = some hash) :
    hashMatches pf (sealed document hash) = true := by
  unfold hashMatches sealed
  rw [Dict.erase_set hunsealed, hhash, Dict.field_set_self]
  exact decide_eq_true rfl

theorem validateIdentity_sealed (document : JsonDocument) (hash : String) (kind : RowKind) :
    validateIdentity kind (sealed document hash) = validateIdentity kind document := by
  have hidentity : ∀ key, nested (sealed document hash) "identity" key = nested document "identity" key := fun _ =>
    sealed_nested document hash (by decide)
  have hget : ∀ {key : String}, key ≠ "content_hash" → (sealed document hash).get? key = document.get? key := fun h =>
    Dict.get?_set_of_ne document _ h
  cases kind with
  | predictor =>
    unfold validateIdentity
    simp only [hidentity, hget (show "execution_receipt" ≠ "content_hash" by decide),
      hget (show "outcome" ≠ "content_hash" by decide)]
  | receipt | outcome =>
    unfold validateIdentity
    simp only [hidentity]

theorem demand_bind {condition : Bool} (h : condition = true) (message : String) {α : Type}
    (f : Unit → Except String α) : (demand condition message >>= f) = f () := by
  rw [demand_of h]
  rfl

theorem orRaise_bind {α β : Type} (message : String) (a : α) (f : α → Except String β) :
    (orRaise message (some a) >>= f) = f a := rfl

theorem ok_bind {α β : Type} (a : α) (f : α → Except String β) : ((.ok a : Except String α) >>= f) = f a := rfl

/-- The reader's checks accept a row with its hash. -/
theorem Readable.validate (h : Readable e kind key identity document)
    (hunsealed : document.get? "content_hash" = none) (hhash : pf.digest document = some hash) :
    validate pf kind (sealed document hash) = .ok () := by
  obtain ⟨session, hsession, hsessionId⟩ := h.row.session
  have hschemas : ((sealed document hash).field "schema_version").eqInt kind.schema &&
      ((sealed document hash).field kind.schemaField).eqInt kind.schema := by
    rw [sealed_field _ _ (by decide), sealed_field _ _ (by cases kind <;> decide), h.row.schema, h.row.kindSchema]
    simp [Json.eqInt]
  have hmint : isText (nested (sealed document hash) "identity" "mint") = true := by
    rw [sealed_nested _ _ (by decide)]
    exact h.mint
  have hprovenance : (["telemetry_epoch_id", "build_sha", "session_id"].all fun key =>
      isText ((sealed document hash).field key)) = true := by
    simp only [List.all_cons, List.all_nil, Bool.and_true]
    rw [sealed_field _ _ (by decide), sealed_field _ _ (by decide), sealed_field _ _ (by decide), h.row.epoch,
      h.row.build, hsessionId, isText_of_ne e.named.nonempty, isText_of_ne e.built.nonempty, isText_of_ne hsession]
    rfl
  have hconfig : isText (nested (sealed document hash) "provenance" "config_fingerprint") = true := by
    rw [sealed_nested _ _ (by decide), h.row.config]
    exact isText_of_ne e.configured.nonempty
  unfold Telemetry.validate
  rw [demand_bind (hashMatches_sealed hunsealed hhash), demand_bind hschemas, demand_bind hmint,
    demand_bind hprovenance, demand_bind hconfig, validateIdentity_sealed]
  exact h.separated

theorem Readable.keyOf (h : Readable e kind key identity document) : keyOf kind document = some key := by
  have hnamed := h.named
  have hnested : nested document "identity" kind.keyField = (documentOf identity).field kind.keyField := by
    unfold nested
    rw [h.row.identity, json_ofItems]
    rfl
  rw [hnested] at hnamed
  unfold Telemetry.keyOf
  rw [identityOf_of_get? h.row.identity, Option.bind_some, hnamed]

end Sealed

/-! ## Paths -/

section Paths

variable {pf : Platform} {kind : RowKind} {document : JsonDocument} {path : String}

/-- The path of a row, from a day that the platform gives and the key of the row. -/
theorem exists_day (h : recordPath pf kind document = some path) :
    ∃ text day key, pf.day text = some day ∧ keyOf kind document = some key ∧ safeKey key = true ∧
      path = relativePath day key := by
  obtain ⟨identity, -, h⟩ := Option.bind_eq_some_iff.1 h
  obtain ⟨key, hkey, h⟩ := Option.bind_eq_some_iff.1 h
  split_ifs at h with hsafe
  split at h
  · rename_i text _
    obtain ⟨day, hday, rfl⟩ := Option.map_eq_some_iff.1 h
    exact ⟨replaceZ text, day, key, hday, hkey, hsafe, rfl⟩
  · cases h

theorem slash_not_mem_of_isDay {day : String} (h : isDay day = true) : '/' ∉ day.toList := by
  unfold isDay at h
  split at h
  · rename_i y₁ y₂ y₃ y₄ m₁ m₂ d₁ d₂ heq
    split at h
    · rename_i hdigits
      rw [heq]
      intro hmem
      have hslash : '/' ∈ [y₁, y₂, y₃, y₄, m₁, m₂, d₁, d₂] := by
        simp only [List.mem_cons, List.not_mem_nil, or_false, show ¬ ('/' : Char) = '-' by decide, false_or] at hmem ⊢
        exact hmem
      obtain ⟨b, -, hb⟩ := exists_of_mem_mapM hdigits hslash
      rw [show digitOf '/' = none by decide] at hb
      cases hb
    · cases h
  · cases h

theorem partitionOf_relativePath {day : String} (h : '/' ∉ day.toList) (key : String) :
    partitionOf (relativePath day key) = day := by
  have hlist : (relativePath day key).toList = day.toList ++ '/' :: (key ++ ".json").toList := by
    simp [relativePath, String.toList_append]
  have hday : ∀ c ∈ day.toList, decide (c ≠ '/') = true := by
    intro c hc
    refine decide_eq_true ?_
    rintro rfl
    exact h hc
  unfold partitionOf
  rw [hlist, List.takeWhile_append_of_pos hday]
  simp

end Paths

/-! ## Stored records -/

section Stored

variable {pf : Platform} {dt : Datetimes} {w : World pf dt} {kind : RowKind} {d : StreamDir}

theorem load_sealed {document : JsonDocument} {hash : String} (hhash : pf.digest document = some hash) :
    Codec.load (fileOf (sealed document hash)) = some (sealed document hash) :=
  (sealed_complete hhash hash).load

/-- A file holds one sealed document. -/
theorem sealed_inj {document document' : JsonDocument} {hash hash' : String}
    (hunsealed : document.get? "content_hash" = none) (hunsealed' : document'.get? "content_hash" = none)
    (hhash : pf.digest document = some hash) (hhash' : pf.digest document' = some hash')
    (h : fileOf (sealed document hash) = fileOf (sealed document' hash')) : document = document' ∧ hash = hash' := by
  have hsame : sealed document hash = sealed document' hash' :=
    Option.some.inj ((load_sealed hhash).symm.trans ((congrArg Codec.load h).trans (load_sealed hhash')))
  constructor
  · have herase := congrArg (fun d : JsonDocument => d.erase "content_hash") hsame
    unfold sealed at herase
    rwa [Dict.erase_set hunsealed, Dict.erase_set hunsealed'] at herase
  · have hfield := congrArg (fun d : JsonDocument => d.field "content_hash") hsame
    unfold sealed at hfield
    rw [Dict.field_set_self, Dict.field_set_self] at hfield
    exact Json.str.inj hfield

/-- A stored record, with the index entry that reserves it. -/
structure Linked (w : World pf dt) (kind : RowKind) (d : StreamDir) (path : String) (tokens : List Json.Token)
    (document : JsonDocument) (hash : String) (reserving : JsonDocument) (hash' : String) : Prop where
  handed : Handed w kind document
  unsealed : document.get? "content_hash" = none
  digest : pf.digest document = some hash
  fits : Fits pf document
  stored : tokens = fileOf (sealed document hash)
  located : recordPath pf kind document = some path
  reserved : Handed w kind reserving
  relocated : recordPath pf kind reserving = some path
  indexDigest : pf.digest (reservation kind reserving path hash) = some hash'
  indexed : (keyOf kind document).bind (fun key => d.index (pf.keyHash key)) =
    some (fileOf (sealed (reservation kind reserving path hash) hash'))

theorem exists_linked (hd : DirInv pf kind d) (hs : DirSourced pf (Handed w) kind d) {path : String}
    {tokens : List Json.Token} (h : d.records path = some tokens) :
    ∃ document hash reserving hash', Linked w kind d path tokens document hash reserving hash' := by
  obtain ⟨document, hash, hhanded, hpath, hunsealed, hfits, hhash, htokens⟩ := hs.record path tokens h
  obtain ⟨digest, hash₀, entry, ⟨document₀, hlocated₀, hunsealed₀, hhash₀, htokens₀⟩, hindex, hentry⟩ :=
    hd.record path tokens h
  obtain ⟨rfl, rfl⟩ := sealed_inj hunsealed hunsealed₀ hhash hhash₀ (htokens.symm.trans htokens₀)
  obtain ⟨reserving, path', reserved, hash', hhanded', hlocated', ⟨row, hash₁, -, rfl⟩, hhash', rfl⟩ :=
    hs.index digest entry hindex
  obtain ⟨rfl, rfl⟩ := hentry.same ⟨reserving, hash', hlocated', hhash', rfl⟩
  refine ⟨document, hash, reserving, hash', hhanded, hunsealed, hhash, hfits, htokens, hpath, hhanded',
    hlocated'.path, hhash', ?_⟩
  obtain ⟨key, hkey, hdigest⟩ := Option.map_eq_some_iff.1 hlocated₀.key
  rw [hkey, Option.bind_some, hdigest, hindex]

variable {path hash hash' : String} {tokens : List Json.Token} {document reserving : JsonDocument}

theorem fileBytes_of_fits (hhash : pf.digest document = some hash) (h : Fits pf document) :
    pf.fileBytes (fileOf (sealed document hash)) ≤ maxRowBytes := by
  obtain ⟨hash₀, canonical, hhash₀, hcanonical, hbytes⟩ := h
  obtain rfl := Option.some.inj (hhash.symm.trans hhash₀)
  unfold Platform.fileBytes at hbytes ⊢
  rw [Json.length_canonical _ hcanonical] at hbytes
  exact hbytes

theorem keyOf_sealed (document : JsonDocument) (hash : String) :
    keyOf kind (sealed document hash) = keyOf kind document := by
  unfold keyOf identityOf
  rw [sealed_field document hash (by decide)]

/-- A path that two rows have is one of one key. -/
theorem key_unique {document' : JsonDocument} {key key' : String} (h : recordPath pf kind document = some path)
    (h' : recordPath pf kind document' = some path) (hkey : keyOf kind document = some key)
    (hkey' : keyOf kind document' = some key') : key = key' := by
  obtain ⟨-, day, key₁, -, hkey₁, hsafe, hpath⟩ := exists_day h
  obtain ⟨-, day', key₂, -, hkey₂, hsafe', hpath'⟩ := exists_day h'
  obtain rfl := Option.some.inj (hkey.symm.trans hkey₁)
  obtain rfl := Option.some.inj (hkey'.symm.trans hkey₂)
  exact relativePath_key (slash_not_mem_of_safeKey hsafe) (slash_not_mem_of_safeKey hsafe') (hpath.symm.trans hpath')

/-- The reader takes a stored record. -/
theorem Linked.read (hdoc : Documented pf dt) (h : Linked w kind d path tokens document hash reserving hash') :
    readRecord pf kind w.epoch.telemetryEpochId path tokens = .ok (sealed document hash) := by
  obtain ⟨key, identity, hreadable, -⟩ := h.handed.readable hdoc
  obtain ⟨text, day, key', hday, -, -, hpath⟩ := exists_day h.located
  have hpartition : isDay (partitionOf path) = true := by
    rw [hpath, partitionOf_relativePath (slash_not_mem_of_isDay (hdoc.day _ _ hday))]
    exact hdoc.day _ _ hday
  have hbytes : decide (pf.fileBytes tokens ≤ maxRowBytes) = true := by
    rw [h.stored]
    exact decide_eq_true (fileBytes_of_fits h.digest h.fits)
  have hload : Codec.load tokens = some (sealed document hash) := by
    rw [h.stored]
    exact load_sealed h.digest
  have hepoch : ((sealed document hash).field "telemetry_epoch_id").isStr w.epoch.telemetryEpochId = true := by
    rw [sealed_field _ _ (by decide), hreadable.row.epoch]
    exact decide_eq_true rfl
  unfold readRecord
  rw [demand_bind hpartition, demand_bind hbytes, hload, orRaise_bind, hreadable.validate h.unsealed h.digest, ok_bind,
    demand_bind hepoch]
  rfl

/-- The index entry is the one that the record asks for. -/
theorem Linked.expected (hdoc : Documented pf dt) (h : Linked w kind d path tokens document hash reserving hash') :
    expectedIndex kind path (sealed document hash) = reservation kind reserving path hash := by
  obtain ⟨key, identity, hreadable, -⟩ := h.handed.readable hdoc
  obtain ⟨key', identity', hreadable', -⟩ := h.reserved.readable hdoc
  obtain rfl := key_unique h.located h.relocated hreadable.keyOf hreadable'.keyOf
  have hidentity := h.handed.identity_unique hdoc h.reserved hreadable.named hreadable'.named
  unfold expectedIndex reservation
  rw [sealed_field _ _ (by decide), sealed_field _ _ (by decide), hreadable.row.epoch, hreadable'.row.epoch, hidentity,
    show (sealed document hash).field "content_hash" = .str hash from Dict.field_set_self ..]

/-- The reader takes the index entry of a stored record. -/
theorem Linked.check (hdoc : Documented pf dt) (h : Linked w kind d path tokens document hash reserving hash') :
    checkIdentityIndex pf kind ((keyOf kind (sealed document hash)).bind fun key => d.index (pf.keyHash key)) path
      (sealed document hash) = .ok () := by
  obtain ⟨key, identity, hreadable, hsmall⟩ := h.reserved.readable hdoc
  obtain ⟨text, day, key', hday, hkey', -, hpath⟩ := exists_day h.relocated
  obtain rfl := Option.some.inj (hreadable.keyOf.symm.trans hkey')
  have hpathBytes : textBytes path ≤ 130 := by
    rw [hpath]
    exact bytes_relativePath (hdoc.day _ _ hday) hreadable.identifier
  have hbytes := fileBytes_reservation hdoc hreadable.row hsmall hpathBytes (digest_identifier hdoc h.digest)
    h.indexDigest
  have hmatches := hashMatches_sealed (reservation_unsealed reserving path hash) h.indexDigest
  have hbody : (sealed (reservation kind reserving path hash) hash').erase "content_hash" =
      reservation kind reserving path hash := Dict.erase_set (reservation_unsealed reserving path hash) _
  rw [keyOf_sealed, h.indexed]
  unfold checkIdentityIndex
  rw [orRaise_bind, demand_bind (decide_eq_true hbytes), load_sealed h.indexDigest, orRaise_bind, demand_bind hmatches,
    hbody, h.expected hdoc]
  exact demand_of (Json.equal_refl _) _

end Stored

end Aibot.Telemetry
