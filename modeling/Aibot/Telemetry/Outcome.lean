/-
The outcome of a completed position: what the scan of the ledger finds, what is submitted of it, and the
identity that its row has.
-/
import Aibot.Telemetry.Written

namespace Aibot.Telemetry

open Store (JsonDocument)

/-! ## The scan of the events -/

section Scan

variable {tradeId : String}

/-- The BUY that a scan finds is an event of the position. -/
theorem scanLegs_buy : ∀ {events : List Value} {scan : LegScan} {event : Value},
    (scanLegs tradeId events scan).buy = some event → scan.buy = some event ∨
      event ∈ events ∧ (event.get "position_id").isStr tradeId = true ∧ (event.get "type").isStr "BUY" = true
  | [], _, _, h => .inl h
  | event' :: events, scan, event, h => by
    have hlater : ∀ {scan' : LegScan}, (scanLegs tradeId events scan').buy = some event → scan'.buy = some event ∨
        event ∈ event' :: events ∧ (event.get "position_id").isStr tradeId = true ∧
          (event.get "type").isStr "BUY" = true := fun h =>
      (scanLegs_buy h).imp_right fun ⟨hmem, hrest⟩ => ⟨List.mem_cons_of_mem _ hmem, hrest⟩
    unfold scanLegs at h
    split_ifs at h with hother hbuy hsell hfull
    · obtain rfl := Option.some.inj h
      exact .inr ⟨List.mem_cons_self, hother, hbuy⟩
    · exact (hlater h :)
    · exact (hlater h :)
    · exact (hlater h :)
    · exact (hlater h :)

/-- A leg of a scan has the number of an event of the position. -/
theorem scanLegs_legs : ∀ {events : List Value} {scan : LegScan} {leg : Value},
    leg ∈ (scanLegs tradeId events scan).legs → leg ∈ scan.legs ∨
      ∃ event ∈ events, (event.get "position_id").isStr tradeId = true ∧ leg.get "event_seq" = event.get "event_seq"
  | [], _, _, h => .inl h
  | event' :: events, scan, leg, h => by
    have hlater : ∀ {scan' : LegScan}, leg ∈ (scanLegs tradeId events scan').legs → leg ∈ scan'.legs ∨
        ∃ event ∈ event' :: events, (event.get "position_id").isStr tradeId = true ∧
          leg.get "event_seq" = event.get "event_seq" := fun h =>
      (scanLegs_legs h).imp_right fun ⟨event, hmem, hrest⟩ => ⟨event, List.mem_cons_of_mem _ hmem, hrest⟩
    unfold scanLegs at h
    split_ifs at h with hother hbuy hsell hfull
    · exact .inl h
    · rcases hlater h with hleg | hleg
      · rcases List.mem_append.1 hleg with hleg | hleg
        · exact .inl hleg
        · rw [List.mem_singleton] at hleg
          subst hleg
          exact .inr ⟨event', List.mem_cons_self, hother, by simp [sellFields, get_ofItems_cons]⟩
      · exact .inr hleg
    · exact (hlater h :)
    · exact (hlater h :)
    · exact (hlater h :)

end Scan

/-! ## What is submitted -/

theorem safeScalar_str (s : String) : safeScalar (.str s) = safeAlone (.str s) := rfl

theorem safeScalar_int (n : ℤ) : safeScalar (.int n) = safeAlone (.int n) := rfl

/-- A number, or none, is copied as it is where it is copied. -/
theorem eq_of_safeScalar_number {value copied : Value} (hvalue : value = .none ∨ ∃ n, value = .int n)
    (h : safeScalar value = some copied) : copied = value ∧ ∀ n, value = .int n → isFiniteInt n = true := by
  rcases hvalue with rfl | ⟨n, rfl⟩
  · obtain rfl := Option.some.inj h
    exact ⟨rfl, fun _ h => by cases h⟩
  · rw [safeScalar_int, safeAlone_int] at h
    split_ifs at h with hfinite
    refine ⟨(Option.some.inj h).symm, fun m hm => ?_⟩
    cases hm
    exact hfinite

section Submit

variable {dt : Datetimes} {e : Epoch} {mapping : Value} {row : Dict String Value}

/-- A dictionary with distinct keys has its items. -/
theorem get_ofItems_of_mem {key : String} {value : Value} : ∀ {items : List (String × Value)},
    (items.map Prod.fst).Nodup → (key, value) ∈ items → (Value.ofItems items).get key = value
  | (key', value') :: items, hn, h => by
    rw [List.map_cons, List.nodup_cons] at hn
    rw [get_ofItems_cons]
    rcases List.mem_cons.1 h with heq | h
    · obtain ⟨rfl, rfl⟩ := Prod.mk.inj heq
      exact if_pos rfl
    · rw [if_neg]
      · exact get_ofItems_of_mem hn.2 h
      · rintro rfl
        exact hn.1 (List.mem_map.2 ⟨_, h, rfl⟩)

/-- The identity fields of what is submitted are copies of those of the mapping. -/
theorem submitOutcome_get (h : submitOutcome dt e mapping = some row) :
    (∀ key ∈ outcomeIdentityFields, ∃ value, safeScalar (mapping.get key) = some value ∧ row.get? key = some value) ∧
      ∃ tradeId mint text stamp, tradeId ≠ "" ∧ row.get? "trade_id" = some (.str tradeId) ∧
        row.get? "mint" = some (.str mint) ∧ row.get? "signal_detected_at" = some (.str text) ∧
        instantOf dt text = some stamp ∧ inEpoch e ((row.get? "buy_event_seq").getD .none) = true := by
  obtain ⟨items, hitems, h⟩ := Option.bind_eq_some_iff.1 h
  have hkeys : items.map Prod.fst = outcomeIdentityFields ++ outcomeValueFields := map_fst_of_mapM hitems
  have hnodup : (items.map Prod.fst).Nodup := by
    rw [hkeys]
    decide
  have hcopied : ∀ key ∈ outcomeIdentityFields, ∃ value, safeScalar (mapping.get key) = some value ∧
      (key, value) ∈ items := by
    intro key hkey
    obtain ⟨item, hitem, hvalue⟩ := exists_of_mem_mapM hitems (List.mem_append_left outcomeValueFields hkey)
    obtain ⟨value, hsafe, rfl⟩ := Option.map_eq_some_iff.1 hvalue
    exact ⟨value, hsafe, hitem⟩
  dsimp only at h
  split at h
  · rename_i tradeId mint text htrade hmint htext
    split_ifs at h with hempty
    obtain ⟨stamp, hstamp, h⟩ := Option.bind_eq_some_iff.1 h
    split_ifs at h with houtside
    obtain ⟨copied, -, h⟩ := Option.bind_eq_some_iff.1 h
    obtain rfl := Option.some.inj h
    have hrow : ∀ truncated, ∀ key ∈ outcomeIdentityFields, (((Dict.ofList items).set "sell_legs" (.list copied)).set
        "sell_legs_truncated" truncated).get? key = some ((Value.ofItems items).get key) := by
      intro truncated key hkey
      obtain ⟨value, -, hmem⟩ := hcopied key hkey
      rw [Dict.get?_set_of_ne, Dict.get?_set_of_ne, Dict.get?_ofList_of_mem hnodup hmem, get_ofItems_of_mem hnodup hmem]
      · rintro rfl
        revert hkey
        decide
      · rintro rfl
        revert hkey
        decide
    refine ⟨fun key hkey => ?_, tradeId, mint, text, stamp, hempty, ?_, ?_, ?_, hstamp, ?_⟩
    · obtain ⟨value, hsafe, hmem⟩ := hcopied key hkey
      refine ⟨value, hsafe, ?_⟩
      rw [hrow _ key hkey, get_ofItems_of_mem hnodup hmem]
    · rw [hrow _ _ (by decide), htrade]
    · rw [hrow _ _ (by decide), hmint]
    · rw [hrow _ _ (by decide), htext]
    · rw [hrow _ _ (by decide)]
      rw [not_or, not_not] at houtside
      exact houtside.2
  · cases h

end Submit

/-! ## The outcome of a position -/

/-- The text of a scalar, cut at its bound. -/
def cutText (s : String) : String := String.ofList (s.toList.take 256)

theorem cutText_of_length_le {s : String} (h : s.length ≤ 256) : cutText s = s := take_of_length_le h

theorem length_cutText (s : String) : (cutText s).length ≤ 256 := by
  unfold cutText
  rw [String.length_ofList]
  exact List.length_take_le _ _

theorem cutText_ne_empty {s : String} (h : s ≠ "") : cutText s ≠ "" := by
  intro hcut
  have hnil : s.toList.take 256 = [] := by
    have htexts := congrArg String.toList hcut
    rwa [cutText, String.toList_ofList] at htexts
  rw [List.take_eq_nil_iff] at hnil
  rcases hnil with hnil | hnil
  · cases hnil
  · exact h (String.toList_injective hnil)

/-- What an outcome says of its position. -/
structure Submitted (dt : Datetimes) (t : Trade) (row : Dict String Value) : Prop where
  tradeId : row.get? "trade_id" = some (.str t.position.positionId)
  mint : row.get? "mint" = some (.str (cutText t.position.mint))
  route : row.get? "route_type" = some (.str t.position.routeType)
  family : row.get? "strategy_family" = some (.str (strategyFamily t.position.routeType))
  signal : row.get? "signal_detected_at" = some (.str (cutText t.position.signalDetectedAt)) ∧
    ∃ instant, instantOf dt (cutText t.position.signalDetectedAt) = some instant
  buy : ∃ event ∈ t.events, (event.get "position_id").isStr t.position.positionId = true ∧
    (event.get "type").isStr "BUY" = true ∧ ∃ n id, event.get "event_seq" = .int n ∧ isFiniteInt n = true ∧
      row.get? "buy_event_seq" = some (.int n) ∧ IsIdentifier id ∧ row.get? "buy_event_id" = some (.str id)
  last : ∃ value, row.get? "event_seq" = some value ∧ (value = .none ∨ ∃ n, value = .int n ∧ isFiniteInt n = true)

section Submitted

variable {dt : Datetimes} {e : Epoch} {t : Trade} {row : Dict String Value}

/-- The fields of what the ledger says of a completed position. -/
theorem completedTelemetry_get (t : Trade) :
    (completedTelemetry t.events t.position).get "trade_id" = .str t.position.positionId ∧
      (completedTelemetry t.events t.position).get "mint" = .str t.position.mint ∧
      (completedTelemetry t.events t.position).get "route_type" = .str t.position.routeType ∧
      (completedTelemetry t.events t.position).get "strategy_family" = .str (strategyFamily t.position.routeType) ∧
      (completedTelemetry t.events t.position).get "signal_detected_at" = .str t.position.signalDetectedAt := by
  have hroute : (if t.position.routeType = "" then "A" else t.position.routeType) = t.position.routeType := by
    rw [if_neg]
    rcases t.routed with hr | hr <;> rw [hr] <;> decide
  unfold completedTelemetry
  dsimp only
  rw [hroute]
  simp [get_ofItems_cons]

/-- The numbers that the ledger says of a completed position: those of its BUY and of its last sale. -/
theorem completedTelemetry_numbers (t : Trade) :
    (((completedTelemetry t.events t.position).get "buy_event_seq" = .none) ∨
      ∃ event ∈ t.events, (event.get "position_id").isStr t.position.positionId = true ∧
        (event.get "type").isStr "BUY" = true ∧
        (completedTelemetry t.events t.position).get "buy_event_seq" = event.get "event_seq" ∧
        (completedTelemetry t.events t.position).get "buy_event_id" = event.get "event_id") ∧
      ((completedTelemetry t.events t.position).get "event_seq" = .none ∨
        ∃ n, (completedTelemetry t.events t.position).get "event_seq" = .int n) := by
  have hmem : ∀ {event : Value}, event ∈ t.events.reverse.take 2048 → event ∈ t.events := fun h =>
    List.mem_reverse.1 (List.mem_of_mem_take h)
  set scan := scanLegs t.position.positionId (t.events.reverse.take 2048) ⟨none, [], 0⟩ with hscan
  have hbuySeq : (completedTelemetry t.events t.position).get "buy_event_seq" = getOrNone scan.buy "event_seq" := by
    simp [completedTelemetry, get_ofItems_cons, hscan]
  have hbuyId : (completedTelemetry t.events t.position).get "buy_event_id" = getOrNone scan.buy "event_id" := by
    simp [completedTelemetry, get_ofItems_cons, hscan]
  have hseq : (completedTelemetry t.events t.position).get "event_seq" = getOrNone scan.legs.head? "event_seq" := by
    simp [completedTelemetry, get_ofItems_cons, hscan]
  rw [hbuySeq, hbuyId, hseq]
  constructor
  · cases hbuy : scan.buy with
    | none => exact .inl rfl
    | some event =>
      obtain ⟨hevent, hposition, htype⟩ := (scanLegs_buy hbuy).resolve_left fun h => by cases h
      exact .inr ⟨event, hmem hevent, hposition, htype, rfl, rfl⟩
  · cases hleg : scan.legs.head? with
    | none => exact .inl rfl
    | some leg =>
      obtain ⟨event, hevent, hposition, hnumber⟩ :=
        (scanLegs_legs (List.mem_of_head? hleg)).resolve_left (List.not_mem_nil)
      obtain ⟨⟨n, hn⟩, -⟩ := t.numbered event (hmem hevent) hposition
      exact .inr ⟨n, hnumber.trans hn⟩

theorem submitted (h : submitOutcome dt e (completedTelemetry t.events t.position) = some row) :
    Submitted dt t row := by
  obtain ⟨hcopied, tradeId, mint, text, stamp, hempty, htrade, hmint, htext, hstamp, hepoch⟩ := submitOutcome_get h
  obtain ⟨hid, hmintOf, hrouteOf, hfamilyOf, hsignalOf⟩ := completedTelemetry_get t
  obtain ⟨hbuy, hlast⟩ := completedTelemetry_numbers t
  obtain ⟨hroute, hfamily⟩ := routes_identifier t.routed
  -- a field that is copied, from what the mapping has
  have hfield : ∀ {key : String} {s : String}, key ∈ outcomeIdentityFields →
      (completedTelemetry t.events t.position).get key = .str s → IsIdentifier s → row.get? key = some (.str s) := by
    intro key s hkey hget hs
    obtain ⟨value, hsafe, hvalue⟩ := hcopied key hkey
    rw [hget, safeScalar_str, hs.safe] at hsafe
    rw [hvalue, Option.some.inj hsafe]
  have htextField : ∀ {key : String} {s text : String}, key ∈ outcomeIdentityFields →
      (completedTelemetry t.events t.position).get key = .str s → row.get? key = some (.str text) →
      text = cutText s := by
    intro key s text hkey hget hrow
    obtain ⟨value, hsafe, hvalue⟩ := hcopied key hkey
    obtain rfl := Option.some.inj (hrow.symm.trans hvalue)
    rw [hget, safeScalar_str] at hsafe
    exact Value.str.inj (eq_of_safeAlone_str hsafe rfl)
  obtain rfl := htextField (by decide) hmintOf hmint
  obtain rfl := htextField (by decide) hsignalOf htext
  refine ⟨hfield (by decide) hid t.identified, hmint, hfield (by decide) hrouteOf hroute,
    hfield (by decide) hfamilyOf hfamily, ⟨htext, stamp, hstamp⟩, ?_, ?_⟩
  · obtain ⟨copied, hsafe, hcopy⟩ := hcopied "buy_event_seq" (by decide)
    rcases hbuy with hnone | ⟨event, hevent, hposition, htype, hseq, hbuyId⟩
    · -- without a BUY there is no number, and nothing is submitted
      rw [hnone] at hsafe
      obtain rfl := Option.some.inj hsafe
      rw [hcopy] at hepoch
      cases hepoch
    · obtain ⟨⟨n, hn⟩, id, hidentifier, hname⟩ := t.numbered event hevent hposition
      obtain ⟨rfl, hfinite⟩ := eq_of_safeScalar_number (.inr ⟨n, hseq.trans hn⟩) hsafe
      refine ⟨event, hevent, hposition, htype, n, id, hn, hfinite n (hseq.trans hn), ?_, hidentifier,
        hfield (by decide) (hbuyId.trans hname) hidentifier⟩
      rw [hcopy, hseq, hn]
  · obtain ⟨copied, hsafe, hcopy⟩ := hcopied "event_seq" (by decide)
    obtain ⟨rfl, hfinite⟩ := eq_of_safeScalar_number hlast hsafe
    exact ⟨_, hcopy, hlast.imp_right fun ⟨n, hn⟩ => ⟨n, hn, hfinite n hn⟩⟩

/-- The identity in the row of an outcome. -/
def outcomeIdentity (row : Dict String Value) : List (String × Value) :=
  (outcomeIdentityFields.map fun key => (key, (row.get? key).getD .none)) ++ [("signal_id", .none)]

theorem outcomeRow_written {r : Recorder} (hr : r.Bound e) {value : Value} {document : JsonDocument}
    (h : outcomeRow r row = some value) (hvalue : value.json.fields? = some document) :
    IsRow e .outcome (outcomeIdentity row) document := by
  obtain ⟨envelope, henvelope, h⟩ := Option.bind_eq_some_iff.1 h
  obtain rfl := Option.some.inj h
  rw [fields?_ofItems] at hvalue
  obtain rfl := Option.some.inj hvalue
  refine isRow_documentOf hr henvelope ?_ (by simp [outcomeIdentity])
  show (envelopeKeys .outcome ++ ["identity", "outcome"]).Nodup
  decide

/-- The identity of a submitted outcome, with what its position says. -/
theorem Submitted.identity (h : Submitted dt t row) : ∃ event ∈ t.events,
    (event.get "position_id").isStr t.position.positionId = true ∧ (event.get "type").isStr "BUY" = true ∧
    ∃ n id last, event.get "event_seq" = .int n ∧ isFiniteInt n = true ∧ IsIdentifier id ∧
      (last = .none ∨ ∃ m, last = .int m ∧ isFiniteInt m = true) ∧
      outcomeIdentity row =
        [("trade_id", .str t.position.positionId), ("mint", .str (cutText t.position.mint)),
          ("route_type", .str t.position.routeType),
          ("strategy_family", .str (strategyFamily t.position.routeType)),
          ("signal_detected_at", .str (cutText t.position.signalDetectedAt)), ("buy_event_seq", .int n),
          ("buy_event_id", .str id), ("event_seq", last), ("signal_id", .none)] := by
  obtain ⟨event, hevent, hposition, htype, n, id, hn, hfinite, hbuySeq, hid, hbuyId⟩ := h.buy
  obtain ⟨last, hlast, hlastValue⟩ := h.last
  refine ⟨event, hevent, hposition, htype, n, id, last, hn, hfinite, hid, hlastValue, ?_⟩
  unfold outcomeIdentity outcomeIdentityFields
  simp only [List.map_cons, List.map_nil, List.cons_append, List.nil_append, h.tradeId, h.mint, h.route, h.family,
    h.signal.1, hbuySeq, hbuyId, hlast, Option.getD_some]

end Submitted

end Aibot.Telemetry
