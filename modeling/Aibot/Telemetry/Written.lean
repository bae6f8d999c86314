/-
What the documents hold that the recorders of an epoch persist: the epoch, the build and the configuration,
and the identity of the capture or of the position they come from.
-/
import Aibot.Telemetry.Told

namespace Aibot.Telemetry

open Store (JsonDocument)

/-! ## Documents of items -/

/-- The document that a row of items is. -/
def documentOf (items : List (String × Value)) : JsonDocument := Dict.ofList (items.map fun p => (p.1, p.2.json))

theorem jsonFields_items (items : List (String × Value)) :
    Value.jsonFields (items.map fun p => (.str p.1, p.2)) = items.map fun p => (p.1, p.2.json) := by
  induction items with
  | nil => rfl
  | cons p items ih => rw [List.map_cons, List.map_cons, Value.jsonFields, ih]

theorem json_ofItems (items : List (String × Value)) :
    (Value.ofItems items).json = .obj (items.map fun p => (p.1, p.2.json)) := by
  show Json.obj (Value.jsonFields _) = _
  rw [jsonFields_items]

section Items

variable {items : List (String × Value)} {key : String} {x : Value}

theorem fields?_ofItems (items : List (String × Value)) :
    (Value.ofItems items).json.fields? = some (documentOf items) := by
  rw [json_ofItems]
  rfl

theorem keys_items (items : List (String × Value)) :
    (items.map fun p => (p.1, p.2.json)).map Prod.fst = items.map Prod.fst := by
  rw [List.map_map]
  rfl

theorem get?_documentOf (hn : (items.map Prod.fst).Nodup) (h : (key, x) ∈ items) :
    (documentOf items).get? key = some x.json := by
  refine Dict.get?_ofList_of_mem (by rwa [keys_items]) ?_
  exact List.mem_map.2 ⟨(key, x), h, rfl⟩

theorem get?_documentOf_none (h : key ∉ items.map Prod.fst) : (documentOf items).get? key = none := by
  cases hget : (documentOf items).get? key with
  | none => rfl
  | some y =>
    refine absurd ?_ h
    rw [← keys_items]
    exact List.mem_map_of_mem (Dict.mem_of_get?_ofList hget)

theorem field_documentOf (hn : (items.map Prod.fst).Nodup) (h : (key, x) ∈ items) :
    (documentOf items).field key = x.json :=
  Dict.field_of_get? (get?_documentOf hn h)

/-- A field of an object in a document. -/
theorem nested_of_get? {document : JsonDocument} {name : String}
    (hname : document.get? name = some (Value.ofItems items).json) (hn : (items.map Prod.fst).Nodup)
    (h : (key, x) ∈ items) : nested document name key = x.json := by
  unfold nested
  rw [hname, json_ofItems]
  exact field_documentOf hn h

theorem identityOf_of_get? {document : JsonDocument}
    (h : document.get? "identity" = some (Value.ofItems items).json) :
    identityOf document = some (documentOf items) := by
  unfold identityOf
  rw [Dict.field_of_get? h, fields?_ofItems]

end Items

/-! ## Rows -/

/-- A row of the epoch, with its identity. -/
structure IsRow (e : Epoch) (kind : RowKind) (identity : List (String × Value)) (document : JsonDocument) : Prop where
  schema : document.field "schema_version" = .int kind.schema
  kindSchema : document.field kind.schemaField = .int kind.schema
  epoch : document.field "telemetry_epoch_id" = .str e.telemetryEpochId
  build : document.field "build_sha" = .str e.buildSha
  session : ∃ s : String, s ≠ "" ∧ document.field "session_id" = .str s
  config : nested document "provenance" "config_fingerprint" = .str e.configFingerprint
  identity : document.get? "identity" = some (Value.ofItems identity).json

def envelopeKeys (kind : RowKind) : List String :=
  ["schema_version", kind.schemaField, "telemetry_epoch_id", "build_sha", "session_id", "provenance"]

section Rows

variable {e : Epoch} {r : Recorder} {kind : RowKind} {envelope rest identity : List (String × Value)}

theorem projectAlone_scalar_str (s : String) : projectAlone .scalar (.str s) = safeAlone (.str s) := rfl

/-- The envelope of a recorder of the epoch. -/
theorem envelope_bound (hr : r.Bound e) (h : r.envelope kind = some envelope) :
    envelope.map Prod.fst = envelopeKeys kind ∧ ("schema_version", .int kind.schema) ∈ envelope ∧
      (kind.schemaField, .int kind.schema) ∈ envelope ∧
      ("telemetry_epoch_id", .str e.telemetryEpochId) ∈ envelope ∧ ("build_sha", .str e.buildSha) ∈ envelope ∧
      ("session_id", r.get "session_id") ∈ envelope ∧
      ∃ provenance, ("provenance", .ofItems provenance) ∈ envelope ∧ (provenance.map Prod.fst).Nodup ∧
        ("config_fingerprint", .str e.configFingerprint) ∈ provenance := by
  obtain ⟨provenance, hprovenance, h⟩ := Option.bind_eq_some_iff.1 h
  obtain rfl := Option.some.inj h
  rw [hr.epoch, hr.build]
  refine ⟨rfl, by simp, by simp, by simp, by simp, by simp, provenance ++ [("safe_config", r.safeConfig)], by simp,
    ?_, ?_⟩
  · have hkeys : provenance.map Prod.fst = provenanceFields := by
      refine map_fst_of_mapM (f := fun key => projectAlone .scalar (r.get key)) ?_
      rw [← hprovenance]
      refine mapM_congr_of_mem fun key _ => ?_
      cases projectAlone .scalar (r.get key) <;> rfl
    rw [List.map_append, hkeys]
    show (provenanceFields ++ ["safe_config"]).Nodup
    decide
  · obtain ⟨item, hitem, hvalue⟩ := exists_of_mem_mapM hprovenance
      (show "config_fingerprint" ∈ provenanceFields by decide)
    rw [hr.config, projectAlone_scalar_str, e.configured.safe] at hvalue
    obtain rfl := Option.some.inj hvalue
    exact List.mem_append_left _ hitem

/-- A row is its envelope, its identity and what its kind has besides. -/
theorem isRow_documentOf (hr : r.Bound e) (h : r.envelope kind = some envelope)
    (hn : (envelopeKeys kind ++ rest.map Prod.fst).Nodup) (hidentity : ("identity", .ofItems identity) ∈ rest) :
    IsRow e kind identity (documentOf (envelope ++ rest)) := by
  obtain ⟨hkeys, hschema, hkind, hepoch, hbuild, hsession, provenance, hprovenance, hdistinct, hconfig⟩ :=
    envelope_bound hr h
  have hnodup : ((envelope ++ rest).map Prod.fst).Nodup := by rwa [List.map_append, hkeys]
  have hleft : ∀ {key : String} {x : Value}, (key, x) ∈ envelope →
      (documentOf (envelope ++ rest)).get? key = some x.json :=
    fun hmem => get?_documentOf hnodup (List.mem_append_left _ hmem)
  obtain ⟨s, hs, hsessionId⟩ := hr.session
  rw [hsessionId] at hsession
  exact ⟨Dict.field_of_get? (hleft hschema), Dict.field_of_get? (hleft hkind), Dict.field_of_get? (hleft hepoch),
    Dict.field_of_get? (hleft hbuild), ⟨s, hs, Dict.field_of_get? (hleft hsession)⟩,
    nested_of_get? (hleft hprovenance) hdistinct hconfig, get?_documentOf hnodup (List.mem_append_right _ hidentity)⟩

end Rows

/-! ## Rows of captures -/

/-- The identity of a capture, as its rows have it. -/
def captureIdentity (c : Capture) : List (String × Value) :=
  [("signal_id", .str c.identity.signalId), ("mint", .str c.identity.mint), ("route_type", .str c.identity.routeType),
    ("strategy_family", .str c.identity.strategyFamily), ("signal_detected_at", .str c.identity.signalDetectedAt),
    ("source_wallet_hash", .ofText c.identity.sourceWalletHash),
    ("source_signature_hash", .ofText c.identity.sourceSignatureHash)]

section Captured

variable {pf : Platform} {dt : Datetimes} {c : Capture}

theorem plain_of_timeChars {s : String} (h : s.toList.all isTimeChar = true) : IsPlain s := by
  intro c hc
  have hchar := List.all_eq_true.1 h c hc
  constructor
  · rintro rfl
    revert hchar
    decide
  · rintro rfl
    revert hchar
    decide

theorem Captured.time_safe (hdoc : Documented pf dt) (h : Captured dt c) :
    safeAlone (.str c.identity.signalDetectedAt) = some (.str c.identity.signalDetectedAt) := by
  obtain ⟨instant, hcalendar, heq⟩ := h.time
  obtain ⟨hlength, hchars, -⟩ := hdoc.isoformat instant hcalendar
  rw [heq]
  exact safeAlone_plain (plain_of_timeChars hchars) (hlength.trans (by norm_num))

theorem routes_identifier {route : String} (h : route = "A" ∨ route = "B") :
    IsIdentifier route ∧ IsIdentifier (strategyFamily route) := by
  rcases h with rfl | rfl
  · exact ⟨⟨by decide, by decide, by decide⟩, ⟨by decide, by decide, by decide⟩⟩
  · exact ⟨⟨by decide, by decide, by decide⟩, ⟨by decide, by decide, by decide⟩⟩

theorem safeAlone_ofText {text : Option String} (h : ∀ s, text = some s → IsIdentifier s) :
    safeAlone (.ofText text) = some (.ofText text) := by
  cases text with
  | none => rfl
  | some s => exact (h s rfl).safe

/-- A copy of a text that is not left out is the text, cut at its bound. -/
theorem eq_of_safeAlone_str {s : String} {x : Value} (h : safeAlone (.str s) = some x) (hx : x.isNone = false) :
    x = .str (String.ofList (s.toList.take 256)) := by
  rw [safeAlone_str] at h
  split_ifs at h
  · obtain rfl := Option.some.inj h
    cases hx
  · exact (Option.some.inj h).symm

theorem take_of_length_le {s : String} (h : s.length ≤ 256) : String.ofList (s.toList.take 256) = s := by
  rw [List.take_of_length_le (by rwa [String.length_toList]), String.ofList_toList]

theorem Captured.identityItems (hdoc : Documented pf dt) (h : Captured dt c) {items : List (String × Value)}
    (hitems : c.identityItems = some items) : items = captureIdentity c := by
  obtain ⟨hroute, hfamily⟩ := routes_identifier h.routed
  rw [← h.family] at hfamily
  unfold Capture.identityItems at hitems
  dsimp only at hitems
  rw [h.signalId.safe, hroute.safe, hfamily.safe, h.time_safe hdoc, safeAlone_ofText h.wallet,
    safeAlone_ofText h.signature] at hitems
  simp only [Option.bind_eq_bind, Option.bind_some] at hitems
  obtain ⟨mint, hmint, hitems⟩ := Option.bind_eq_some_iff.1 hitems
  split_ifs at hitems with hguard
  obtain rfl := Option.some.inj hitems
  rw [not_or, not_or, Bool.not_eq_true] at hguard
  rw [eq_of_safeAlone_str hmint (by simpa using hguard.2.1), take_of_length_le h.minted.2]
  rfl

end Captured

/-! ## Decisions -/

/-- A sequence of copies that does not raise: neither part does. -/
theorem scan_bind_some {α β : Type} {x : Scan α} {f : α → Scan β} {budget : Budget} {b : β}
    (h : ((x >>= f).run budget).1 = some b) :
    ∃ a budget', x.run budget = (some a, budget') ∧ ((f a).run budget').1 = some b := by
  rw [OptionT.run_bind, Option.elimM] at h
  rcases hx : x.run budget with ⟨_ | a, budget'⟩
  · have hfail : (x.run >>= fun y => y.elim (pure none) fun a => (f a).run) budget = (none, budget') := by
      show StateT.bind x.run _ budget = _
      unfold StateT.bind
      rw [hx]
      rfl
    rw [hfail] at h
    cases h
  · have hgo : (x.run >>= fun y => y.elim (pure none) fun a => (f a).run) budget = (f a).run budget' := by
      show StateT.bind x.run _ budget = _
      unfold StateT.bind
      rw [hx]
      rfl
    rw [hgo] at h
    exact ⟨a, budget', rfl, h⟩

/-- The first field of a projection is that of the value. -/
theorem projectFields_head (key : String) (shape : Shape) (fields : List (String × Shape)) {depth : Nat}
    {items : List (Key × Value)} {item : Value} {budget : Budget} {result : List (Key × Value)}
    (hfind : (items.find? fun p => p.1 = .str key) = some (.str key, item))
    (hkept : ¬ (forbidden key && key ≠ "outcome") = true)
    (h : ((projectFields safeUncounted ((key, shape) :: fields) depth items).run budget).1 = some result) :
    ∃ projected budget' rest, (project safeUncounted shape depth item).run budget = (some projected, budget') ∧
      result = (.str key, projected) :: rest := by
  unfold projectFields at h
  rw [hfind] at h
  dsimp only at h
  rw [if_neg hkept] at h
  obtain ⟨projected, budget', hprojected, h⟩ := scan_bind_some h
  obtain ⟨rest, budget'', -, h⟩ := scan_bind_some h
  exact ⟨projected, budget', rest, hprojected, (Option.some.inj h).symm⟩

theorem exists_of_field {c : Capture} {name key : String} {value : Value} (h : c.field name key = value)
    (hvalue : value ≠ .none) : ∃ fields, c.sections.get? name = some fields ∧ fields.get? key = some value := by
  unfold Capture.field at h
  cases hfields : c.sections.get? name with
  | none =>
    rw [hfields] at h
    exact absurd h.symm hvalue
  | some fields =>
    rw [hfields, Option.bind_some] at h
    refine ⟨fields, rfl, ?_⟩
    cases hget : fields.get? key with
    | none =>
      rw [hget] at h
      exact absurd h.symm hvalue
    | some value' =>
      rw [hget] at h
      exact congrArg some h

/-- A section as a value has the fields of the section. -/
theorem find?_entries {fields : Dict String Value} {key : String} {value : Value} (h : fields.get? key = some value) :
    (fields.entries.map fun p => ((.str p.1, p.2) : Key × Value)).find? (fun p => p.1 = .str key) =
      some (.str key, value) := by
  obtain ⟨p, hp, rfl⟩ := Option.map_eq_some_iff.1
    (show (fields.entries.find? fun p => p.1 = key).map Prod.snd = _ from h)
  have hkey : p.1 = key := by simpa using List.find?_some hp
  rw [List.find?_map, ← hkey]
  have hsame : (fun q : String × Value => decide ((Key.str q.1 : Key) = .str p.1)) = fun q => decide (q.1 = key) := by
    funext q
    rw [hkey]
    simp
  show Option.map _ (fields.entries.find? fun q => decide ((Key.str q.1 : Key) = .str p.1)) = _
  rw [hsame, hp]
  rfl

/-- A decision BUY is the one of the row. -/
theorem rowDecision_bought {c : Capture} (hc : c.field "decision" "outcome" = .str "BUY")
    {decision : List (Key × Value)} {outcome : String} (h : c.rowDecision = some (decision, outcome)) :
    ∃ rest, decision = rest ++ [(.str "outcome", .str "BUY")] := by
  obtain ⟨fields, hfields, houtcome⟩ := exists_of_field hc fun h => by cases h
  unfold Capture.rowDecision Capture.sectionValue at h
  rw [hfields] at h
  split at h
  · rename_i items hprojected
    obtain ⟨known, hknown, h⟩ := Option.bind_eq_some_iff.1 h
    obtain ⟨rfl, rfl⟩ := Prod.mk.inj (Option.some.inj h)
    have hfind := find?_entries houtcome
    obtain ⟨result, budget, hresult, heq⟩ := scan_bind_some (show ((projectFields safeUncounted
      (((fieldsOf "decision").getD []).map fun key => (key, shapeOf "decision" key)) 1
      (fields.entries.map fun p => (.str p.1, p.2)) >>= fun result => pure (Value.dict result)).run freshBudget).1 = _
      from hprojected)
    obtain ⟨projected, budget', rest, hprojected', rfl⟩ := projectFields_head "outcome" .scalar
      [("reason", .scalar), ("reasons", .list .scalar), ("missing_reason", .scalar)] hfind (by decide)
      (congrArg Prod.fst hresult)
    have hbuy : projected = .str "BUY" := by
      have hidentifier : IsIdentifier "BUY" := ⟨by decide, by decide, by decide⟩
      have hrun : (project safeUncounted .scalar 1 (.str "BUY")).run freshBudget = (some (.str "BUY"), freshBudget) :=
        congrArg (fun x => (x, freshBudget)) hidentifier.safe
      exact (Option.some.inj (congrArg Prod.fst (hrun.symm.trans hprojected'))).symm
    obtain rfl := hbuy
    obtain rfl : (.str "outcome", .str "BUY") :: rest = items := Value.dict.inj (Option.some.inj heq)
    rw [Value.get_cons, if_pos rfl] at hknown
    have hbought : Capture.knownOutcome (.str "BUY") = some "BUY" := by decide
    obtain rfl : "BUY" = known := Option.some.inj (hbought.symm.trans hknown)
    exact ⟨_, rfl⟩
  · cases h

/-! ## The rows of a capture -/

section Rows

variable {pf : Platform} {dt : Datetimes} {e : Epoch} {r : Recorder} {c : Capture} {value : Value}
  {document : JsonDocument}

/-- The identity in a predictor of a capture. -/
def predictorIdentity (c : Capture) : List (String × Value) :=
  captureIdentity c ++ [("trade_id", .none), ("event_seq", .none)]

/-- The identity in a receipt of a capture. -/
def receiptIdentity (c : Capture) : List (String × Value) :=
  captureIdentity c ++ [("trade_id", c.receipt.tradeId), ("event_seq", c.receipt.eventSeq)]

theorem jsonFields_append (xs ys : List (Key × Value)) :
    Value.jsonFields (xs ++ ys) = Value.jsonFields xs ++ Value.jsonFields ys := by
  induction xs with
  | nil => rfl
  | cons p xs ih =>
    obtain ⟨key, x⟩ := p
    cases key with
    | str key => rw [List.cons_append, Value.jsonFields, ih, Value.jsonFields, List.cons_append]
    | other n => rw [List.cons_append, Value.jsonFields, ih, Value.jsonFields, List.cons_append]

/-- The last value of a key is the one that a dictionary keeps. -/
theorem field_ofList_concat (fields : List (String × Json)) (key : String) (x : Json) :
    (Dict.ofList (fields ++ [(key, x)])).field key = x := by
  unfold Dict.ofList
  rw [List.foldl_append]
  exact Dict.field_set_self _ key x

/-- The last field of an object in a document. -/
theorem nested_last {name key : String} (rest : List (Key × Value)) (x : Value)
    (h : document.get? name = some (Value.dict (rest ++ [(.str key, x)])).json) :
    nested document name key = x.json := by
  unfold nested
  rw [h]
  show (Dict.ofList (Value.jsonFields _)).field key = _
  rw [jsonFields_append]
  exact field_ofList_concat _ key x.json

theorem row_written (hdoc : Documented pf dt) (hc : Captured dt c) (hr : r.Bound e) (h : c.row dt r = some value)
    (hvalue : value.json.fields? = some document) :
    IsRow e .predictor (predictorIdentity c) document ∧ document.get? "execution_receipt" = none ∧
      document.get? "outcome" = none ∧
      (c.receipt.tradeId.isNone = false → nested document "decision" "outcome" = .str "BUY") := by
  obtain ⟨predictors, -, h⟩ := Option.bind_eq_some_iff.1 h
  obtain ⟨⟨decision, outcome⟩, hdecision, h⟩ := Option.bind_eq_some_iff.1 h
  obtain ⟨envelope, henvelope, h⟩ := Option.bind_eq_some_iff.1 h
  obtain ⟨items, hitems, h⟩ := Option.bind_eq_some_iff.1 h
  obtain rfl := hc.identityItems hdoc hitems
  obtain rfl := Option.some.inj h
  rw [fields?_ofItems] at hvalue
  obtain rfl := Option.some.inj hvalue
  have hkeys := (envelope_bound hr henvelope).1
  have hrest : (envelopeKeys .predictor ++
      ["identity", "decision", "decision_outcome", "predictors", "collection_limits"]).Nodup := by decide
  refine ⟨isRow_documentOf hr henvelope hrest (by simp [predictorIdentity]), ?_, ?_, fun htrade => ?_⟩
  · refine get?_documentOf_none ?_
    rw [List.map_append, hkeys]
    show _ ∉ envelopeKeys .predictor ++ ["identity", "decision", "decision_outcome", "predictors", "collection_limits"]
    decide
  · refine get?_documentOf_none ?_
    rw [List.map_append, hkeys]
    show _ ∉ envelopeKeys .predictor ++ ["identity", "decision", "decision_outcome", "predictors", "collection_limits"]
    decide
  · obtain ⟨rest, rfl⟩ := rowDecision_bought (hc.decision htrade) hdecision
    refine nested_last rest (.str "BUY") (get?_documentOf ?_ (List.mem_append_right envelope ?_))
    · rw [List.map_append, hkeys]
      exact hrest
    · simp

theorem receiptRow_written (hdoc : Documented pf dt) (hc : Captured dt c) (hr : r.Bound e)
    (h : c.receiptRow r = some value) (hvalue : value.json.fields? = some document) :
    IsRow e .receipt (receiptIdentity c) document := by
  obtain ⟨envelope, henvelope, h⟩ := Option.bind_eq_some_iff.1 h
  obtain ⟨items, hitems, h⟩ := Option.bind_eq_some_iff.1 h
  obtain ⟨created, -, h⟩ := Option.bind_eq_some_iff.1 h
  obtain rfl := hc.identityItems hdoc hitems
  obtain rfl := Option.some.inj h
  rw [fields?_ofItems] at hvalue
  obtain rfl := Option.some.inj hvalue
  refine isRow_documentOf hr henvelope ?_ (by simp [receiptIdentity])
  show (envelopeKeys .receipt ++ ["identity", "execution_receipt"]).Nodup
  decide

end Rows

end Aibot.Telemetry
