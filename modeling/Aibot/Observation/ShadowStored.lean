/-
The shadow ledger as the JSON document it is, and the rows as whatever JSON a caller has: the migration
that every writer runs first, the projection of a row, and the calls of any processes that record one
row or fill in many. `Observation.Shadow` is the same ledger over rows in the current schema.
-/
import Aibot.Lib.Run
import Aibot.Lib.Sweep
import Aibot.Observation.Shadow
import Aibot.Observation.Stored
import Aibot.Store.Codec
import Aibot.Store.Document

namespace Aibot.Observation.Stored.Shadow

variable (py : Conversions)

/-! ## Texts -/

/-- The characters that `str.strip` takes away. -/
def isSpace (c : Char) : Bool :=
  let n := c.toNat
  (9 ≤ n && n ≤ 13) || (28 ≤ n && n ≤ 32) || n = 0x85 || n = 0xa0 || n = 0x1680 ||
    (0x2000 ≤ n && n ≤ 0x200a) || n = 0x2028 || n = 0x2029 || n = 0x202f || n = 0x205f || n = 0x3000

/-- `str.strip`. -/
def strip (s : String) : String :=
  String.ofList ((s.toList.dropWhile isSpace).reverse.dropWhile isSpace).reverse

/-- `str(row.get(key, ""))`. -/
def textOf (row : Fields) (key : String) : String := ((row.get? key).map py.text).getD ""

/-! ## The projection of a row -/

/-- `SHADOW_HORIZONS`. -/
def shadowHorizons : List String := ["1m", "3m", "5m", "15m", "30m", "60m"]

/-- `_finite_number`. -/
def finiteNumber : Json → Option ℚ
  | .bool _ | .null => none
  | x => py.toFloat x

/-- A strategy's result. -/
def strategyResult (status : String) (exitInterval : Json) (exitReason : Option String) (value : Option ℚ) : Json :=
  .ofFields (Dict.ofList ([("status", .str status), ("exit_interval", exitInterval)] ++
    (exitReason.map fun reason => ("exit_reason", .str reason)).toList ++ [("return_percent", number value)]))

/-- `sampled_route_exit`: the first horizon beyond a threshold, else the last with a return. -/
def sampledRouteExit (stopPercent takeProfitPercent : ℚ) (returnOf : String → Option ℚ) :
    List String → Option (String × ℚ) → Json
  | [], none => strategyResult "NO_ROUTE" .null (some "NO_VALID_SAMPLE") none
  | [], some (interval, value) => strategyResult "CLOSED" (.str interval) (some "SAMPLED_TIME_EXIT") (some value)
  | interval :: rest, lastValid =>
    match returnOf interval with
    | none => sampledRouteExit stopPercent takeProfitPercent returnOf rest lastValid
    | some value =>
      if value ≤ stopPercent then strategyResult "CLOSED" (.str interval) (some "SAMPLED_STOP_LOSS") (some value)
      else if takeProfitPercent ≤ value then
        strategyResult "CLOSED" (.str interval) (some "SAMPLED_TAKE_PROFIT") (some value)
      else sampledRouteExit stopPercent takeProfitPercent returnOf rest (some (interval, value))

/-- `_strategy_results`. -/
def strategyResults (row : Fields) : Json :=
  let byInterval : Dict String (Option ℚ) := Dict.ofList ((samplesOf row).map fun sample =>
    (py.text (sample.field "interval"), finiteNumber py (sample.field "return_percent")))
  let returnOf (interval : String) : Option ℚ := (byInterval.get? interval).join
  let routeB := upperIs (row.field "route_type") "B"
  let fixed := shadowHorizons.map fun interval => ("fixed_hold_" ++ interval,
    strategyResult (if (returnOf interval).isSome then "CLOSED" else "NO_ROUTE") (.str interval) none
      (returnOf interval))
  .ofFields (Dict.ofList (fixed ++ [("sampled_route_exit",
    sampledRouteExit (if routeB then -10 else -15) (if routeB then 30 else 50) returnOf shadowHorizons none)]))

/-- The intervals that `completed_shadow_trade` requires. -/
def requiredIntervals (row : Fields) : List String :=
  if (row.field "tracking_profile").isStr "legacy_15m" then ["1m", "5m", "15m"] else shadowHorizons

/-- The id a row is recorded under. -/
def identity (row : Fields) : String := strip (textOf py row "observation_id")

/-- A row of which a trade is made: complete, executable, with every required sample and an id. -/
def Tradable (row : Fields) : Prop :=
  upperIs (row.field "status") "COMPLETE" ∧ upperIs (row.field "quote_status") "EXECUTABLE" ∧
    (requiredIntervals row).all (hasSample row) ∧ identity py row ≠ ""

instance (row : Fields) : Decidable (Tradable py row) := inferInstanceAs (Decidable (_ ∧ _ ∧ _ ∧ _))

def copiedKeys : List String :=
  ["observation_id", "mint", "route_type", "source_wallet", "source_signature", "safety_score",
    "entry_cost_lamports", "token_amount_raw", "token_decimals", "entry_price_impact_pct",
    "exit_price_impact_pct", "expected_slippage_bps", "dex_momentum_score", "strategy_version",
    "strategy_variants", "safety_metrics", "momentum_metrics", "decision_status", "decision_reasons",
    "quote_status", "discovery_metadata", "signal_detected_at", "analysis_completed_at", "entry_quote_at",
    "entry_latency_ms", "started_at_epoch", "started_at", "candidate_v2_eligible",
    "candidate_v2_filter_reasons", "paper_experiment_status", "paper_experiment_position_id", "signal_type",
    "research_decision", "mfe_percent", "mae_percent", "excursion_basis", "tracking_profile"]

/-- `completed_shadow_trade`. -/
def completedShadowTrade (now : String) (row : Fields) : Option Fields :=
  if Tradable py row then
    some ((Dict.ofList (copiedKeys.map fun key => (key, row.field key))).update
      [("shadow_trade_id", .str (identity py row)),
        ("entry_event", .str "SHADOW_BUY"),
        ("exit_event", .str "SHADOW_SELL"),
        ("trade_status", .str "CLOSED"),
        ("samples", .arr ((samplesOf row).map .ofFields)),
        ("strategy_results", strategyResults py row),
        ("closed_at", .str now)])
  else none

/-! ## The document -/

inductive ShadowError
  | newerSchema
  | malformedLedger
  /-- A conversion that Python refuses. -/
  | typeError
  deriving DecidableEq, Repr

/-- The text of the exception. -/
def ShadowError.message : ShadowError → String
  | .newerSchema => "shadow trade schema is newer than this service"
  | .malformedLedger => "shadow trade ledger is malformed"
  | .typeError => ""

def shadowTradeSchemaVersion : Int := 2

/-- `empty_shadow_trades`. -/
def emptyShadowTrades (now : String) : Document :=
  Dict.ofList [("schema_version", .int shadowTradeSchemaVersion), ("trades", .arr []),
    ("updated_at", .str now), ("version", .int 0)]

/-- The trades of a document that are objects. -/
def tradesOf (document : Document) : List Fields := (document.field "trades").items.filterMap Json.fields?

/-- The ids of the trades, as `str(item.get("shadow_trade_id", ""))` reads them. -/
def shadowTradeIds (document : Document) : List String := (tradesOf document).map (textOf py · "shadow_trade_id")

/-- The fields that the current schema adds to a trade. -/
def defaults (trade : Fields) : List (String × Json) :=
  let legacyReturns := (samplesOf trade).filterMap fun sample => finiteNumber py (sample.field "return_percent")
  let storedMfe := finiteNumber py (trade.field "max_return_percent")
  let storedMae := finiteNumber py (trade.field "min_return_percent")
  let legacyMfe := if legacyReturns.isEmpty then none else some (legacyReturns.foldl max 0)
  let legacyMae := if legacyReturns.isEmpty then none else some (legacyReturns.foldl min 0)
  [("signal_type", .str (if upperIs (trade.field "route_type") "B" then "MOMENTUM" else "SMART_MONEY")),
    ("research_decision", .str (canonicalResearchDecision trade)),
    ("mfe_percent", number ((storedMfe.map (max 0)).or legacyMfe)),
    ("mae_percent", number ((storedMae.map (min 0)).or legacyMae)),
    ("excursion_basis", .str "scheduled_jupiter_executable_quotes"),
    ("tracking_profile", .str "legacy_15m")]

/-- `migrate_shadow_trade_document`: whether it changes the document, and the document after it. -/
def migrateShadowTradeDocument (now : String) (document : Document) : Except ShadowError (Bool × Document) := do
  let version ← orRaise .typeError (py.toInt ((document.field "schema_version").orElse (.int 1)))
  if shadowTradeSchemaVersion < version then .error .newerSchema
  else match (document.get? "trades").getD (.arr []) with
    | .arr items =>
      let trades ← orRaise .malformedLedger (items.mapM Json.fields?)
      let migrated := trades.map fun trade => Dict.setDefaults (defaults py trade) trade
      let document := document.set "trades" (.arr (migrated.map fun x => .ofFields x.2))
      if version ≠ shadowTradeSchemaVersion || migrated.any Prod.fst then
        .ok (true, document.update
          [("schema_version", .int shadowTradeSchemaVersion), ("updated_at", .str now)])
      else .ok (false, document)
    | _ => .error .malformedLedger

/-- `document["trades"] = trades[-MAX_COMPLETED_SHADOW_TRADES:]`, after more trades. -/
def keepTrades (now : String) (added : List Fields) (document : Document) : Document :=
  let trades := (document.field "trades").items ++ added.map .ofFields
  document.update [("trades", .arr (trades.drop (trades.length - maxCompletedShadowTrades))),
    ("updated_at", .str now)]

/-- The mutator of `record_completed_shadow_trade`. -/
def recordMutate (now : String) (trade : Fields) (document : Document) :
    Except ShadowError (Bool × Document) := do
  let x ← migrateShadowTradeDocument py now document
  if (tradesOf x.2).any fun item => (item.field "shadow_trade_id").isStr (textOf py trade "shadow_trade_id") then
    .ok (false, x.2)
  else .ok (true, keepTrades now [trade] x.2)

/-- The mutator of `backfill_completed_shadow_trades`. -/
def backfillMutate (now : String) (candidates : List Fields) (document : Document) :
    Except ShadowError (Nat × Document) := do
  let x ← migrateShadowTradeDocument py now document
  let existing := shadowTradeIds py x.2
  let added := candidates.filter fun trade => textOf py trade "shadow_trade_id" ∉ existing
  if added.isEmpty then .ok (0, x.2) else .ok (added.length, keepTrades now added x.2)

/-! ## Calls -/

/-- A backfill that knows what is missing and has not written yet: its rows, the ids it compared them
with, whether the caller gave it these ids, and the time of the projection. -/
structure Backfill where
  rows : List Json
  currentIds : List String
  given : Bool
  now : String

/-- The rows that are objects. -/
def Backfill.objects (b : Backfill) : List Fields := b.rows.filterMap Json.fields?

/-- The trades that it finds missing. With ids of the caller the rows are compared before they are projected. -/
def Backfill.candidates (b : Backfill) : List Fields :=
  if b.given then
    (b.objects.filter fun row => identity py row ∉ b.currentIds).filterMap (completedShadowTrade py b.now)
  else
    (b.objects.filterMap (completedShadowTrade py b.now)).filter fun trade =>
      textOf py trade "shadow_trade_id" ∉ b.currentIds

/-- The ledger file, none before the first write, and the backfills of all processes that have not
written yet. -/
structure System where
  ledger : Option Document
  pending : List Backfill

/-- What a process does next. -/
inductive Event
  /-- `record_completed_shadow_trade(row)`. -/
  | record (row : Fields) (now : String)
  /-- `backfill_completed_shadow_trades(rows, existing_ids=...)`, up to the lock. -/
  | backfillWith (rows : List Json) (existingIds : List String) (now : String)
  /-- `backfill_completed_shadow_trades(rows)`, up to the lock. -/
  | backfill (rows : List Json) (now : String)
  /-- A backfill takes the lock and writes. -/
  | write (k : Nat) (now : String)

/-- The file after an `update_json`; where it raises it writes nothing. -/
def update {ρ : Type} (now : String) (mutate : Document → Except ShadowError (ρ × Document)) (file : Option Document) :
    Option Document :=
  match Store.updateJson mutate none (file.getD (emptyShadowTrades now)) with
  | .ok x => some x.2
  | .error _ => file

/-- `current_shadow_trade_ids`: the ids, none where it raises, and the file after the migration. -/
def currentShadowTradeIds (now : String) (file : Option Document) : Option (List String) × Option Document :=
  match Store.migrateJson (migrateShadowTradeDocument py now) (file.getD (emptyShadowTrades now)) with
  | .ok (changed, document) => (some (shadowTradeIds py document), if changed then some document else file)
  | .error _ => (none, file)

/-- A backfill waits for the lock, unless nothing is missing. -/
def System.await (s : System) (b : Backfill) : System :=
  if (b.candidates py).isEmpty then s else { s with pending := s.pending ++ [b] }

def step (s : System) : Event → Option System
  | .record row now =>
    match completedShadowTrade py now row with
    | none => some s
    | some trade => some { s with ledger := update now (recordMutate py now trade) s.ledger }
  | .backfillWith rows existingIds now => some (s.await py ⟨rows, existingIds, true, now⟩)
  | .backfill rows now =>
    if ((rows.filterMap Json.fields?).filterMap (completedShadowTrade py now)).isEmpty then some s
    else match currentShadowTradeIds py now s.ledger with
      | (none, file) => some { s with ledger := file }
      | (some ids, file) => some (System.await py { s with ledger := file } ⟨rows, ids, false, now⟩)
  | .write k now => s.pending[k]?.map fun b =>
      ⟨update now (backfillMutate py now (b.candidates py)) s.ledger, s.pending.eraseIdx k⟩

/-- The ids in the file. -/
def System.ids (s : System) : List String := (s.ledger.map (shadowTradeIds py)).getD []

/-- The rows of a backfill whose trades are missing, also in the ledger it is about to write. -/
def System.missing (s : System) (b : Backfill) : List Fields :=
  b.objects.filter fun row =>
    Tradable py row ∧ identity py row ∉ b.currentIds ∧ identity py row ∉ s.ids py

/-- A backfill writes only while no two rows it would add have one id. -/
def Distinguished (s : System) : Event → Prop
  | .write k _ => ∀ b ∈ s.pending[k]?, ((s.missing py b).map (identity py)).Nodup
  | _ => True

/-! ## What is projected -/

/-- The id of a trade. -/
abbrev tradeId (trade : Fields) : String := textOf py trade "shadow_trade_id"

theorem textOf_str {trade : Fields} {key id : String} (h : trade.get? key = some (.str id)) :
    textOf py trade key = id := by
  unfold textOf
  rw [h]
  rfl

variable {py}

/-- `completed_shadow_trade`: a trade is recorded under the stripped id of its row. -/
theorem completedShadowTrade_some {now : String} {row trade : Fields}
    (h : completedShadowTrade py now row = some trade) :
    trade.get? "shadow_trade_id" = some (.str (identity py row)) := by
  unfold completedShadowTrade at h
  split_ifs at h
  obtain rfl := Option.some.inj h
  exact Dict.get?_update_of_mem _ (by simp) List.mem_cons_self

theorem completedShadowTrade_of_not {now : String} {row : Fields} (h : ¬ Tradable py row) :
    completedShadowTrade py now row = none := by
  unfold completedShadowTrade
  rw [if_neg h]

theorem completedShadowTrade_of_tradable {now : String} {row : Fields} (h : Tradable py row) :
    ∃ trade, completedShadowTrade py now row = some trade := by
  unfold completedShadowTrade
  rw [if_pos h]
  exact ⟨_, rfl⟩

/-- The ids of the projected trades are the ids of the rows they are made of. -/
theorem map_tradeId_projected (now : String) : ∀ rows : List Fields,
    (rows.filterMap (completedShadowTrade py now)).map (tradeId py) =
      (rows.filter fun row => Tradable py row).map (identity py)
  | [] => rfl
  | row :: rows => by
    by_cases h : Tradable py row
    · obtain ⟨trade, htrade⟩ : ∃ trade, completedShadowTrade py now row = some trade :=
        completedShadowTrade_of_tradable h
      rw [List.filterMap_cons_some htrade, List.filter_cons_of_pos (by simpa using h), List.map_cons, List.map_cons,
        map_tradeId_projected now rows, tradeId, textOf_str py (completedShadowTrade_some htrade)]
    · rw [List.filterMap_cons_none (completedShadowTrade_of_not h), List.filter_cons_of_neg (by simpa using h),
        map_tradeId_projected now rows]

/-- The two ways to compare the rows with the known ids find the same ids missing. -/
theorem map_tradeId_candidates (b : Backfill) : (b.candidates py).map (tradeId py) =
    (b.objects.filter fun row => Tradable py row ∧ identity py row ∉ b.currentIds).map (identity py) := by
  unfold Backfill.candidates
  split_ifs
  · rw [map_tradeId_projected, List.filter_filter]
    congr 1
    exact List.filter_congr fun row _ => by simp
  · have hfilter := List.filter_map (f := tradeId py) (p := fun id => decide (id ∉ b.currentIds))
      (l := b.objects.filterMap (completedShadowTrade py b.now))
    rw [map_tradeId_projected, List.filter_map, List.filter_filter] at hfilter
    refine hfilter.symm.trans ?_
    congr 1
    exact List.filter_congr fun row _ => by simp [Bool.and_comm]

/-- Every trade of a backfill has its id. -/
theorem named_of_mem_candidates {b : Backfill} {trade : Fields} (h : trade ∈ b.candidates py) :
    ∃ id, trade.get? "shadow_trade_id" = some (.str id) := by
  unfold Backfill.candidates at h
  split_ifs at h
  · obtain ⟨row, -, hrow⟩ := List.mem_filterMap.1 h
    exact ⟨_, completedShadowTrade_some hrow⟩
  · obtain ⟨row, -, hrow⟩ := List.mem_filterMap.1 (List.mem_filter.1 h).1
    exact ⟨_, completedShadowTrade_some hrow⟩

/-! ## What the ledger keeps -/

/-- The document holds the trades, each under an id of its own, and no more of them than it may. -/
structure Holds (py : Conversions) (trades : List Fields) (document : Document) : Prop where
  stored : document.get? "trades" = some (.arr (trades.map .ofFields))
  named : ∀ trade ∈ trades, ∃ id, trade.get? "shadow_trade_id" = some (.str id)
  distinct : (trades.map (tradeId py)).Nodup
  bounded : trades.length ≤ maxCompletedShadowTrades

theorem filterMap_ofFields (trades : List Fields) : (trades.map Json.ofFields).filterMap Json.fields? = trades := by
  rw [List.filterMap_map]
  exact (List.filterMap_congr fun trade _ => Json.fields?_ofFields trade).trans List.filterMap_some

theorem mapM_ofFields : ∀ trades : List Fields, (trades.map Json.ofFields).mapM Json.fields? = some trades
  | [] => rfl
  | trade :: trades => by
    rw [List.map_cons, List.mapM_cons, mapM_ofFields trades, Json.fields?_ofFields]
    rfl

namespace Holds

variable {trades : List Fields} {document document' : Document} {now : String}

theorem tradesOf_eq (h : Holds py trades document) : tradesOf document = trades := by
  unfold tradesOf
  rw [Dict.field_of_get? h.stored]
  exact filterMap_ofFields trades

theorem shadowTradeIds_eq (h : Holds py trades document) :
    shadowTradeIds py document = trades.map (tradeId py) := by
  unfold shadowTradeIds
  rw [h.tradesOf_eq]

theorem set (h : Holds py trades document) {key : String} (hkey : key ≠ "trades") (x : Json) :
    Holds py trades (document.set key x) :=
  ⟨(Dict.get?_set_of_ne document x hkey.symm).trans h.stored, h.named, h.distinct, h.bounded⟩

theorem emptyShadowTrades : Holds py [] (emptyShadowTrades now) :=
  ⟨rfl, nofun, List.nodup_nil, Nat.zero_le _⟩

/-- The defaults of a trade do not touch its id. -/
theorem get?_setDefaults_shadowTradeId (trade fields : Fields) :
    (Dict.setDefaults (defaults py trade) fields).2.get? "shadow_trade_id" = fields.get? "shadow_trade_id" := by
  rw [Dict.get?_setDefaults, List.find?_eq_none.2 (by simp [defaults])]
  exact Option.or_none

/-- `migrate_shadow_trade_document` keeps the ids in their order. -/
theorem migrate (h : Holds py trades document) {changed : Bool}
    (hm : migrateShadowTradeDocument py now document = .ok (changed, document')) :
    ∃ migrated, Holds py migrated document' ∧ migrated.map (tradeId py) = trades.map (tradeId py) := by
  set filled := trades.map fun trade => (Dict.setDefaults (defaults py trade) trade).2 with hfilled
  have hids : filled.map (tradeId py) = trades.map (tradeId py) := by
    rw [hfilled, List.map_map]
    exact List.map_congr_left fun trade _ => by
      simp only [Function.comp, tradeId, textOf, get?_setDefaults_shadowTradeId]
  have hset : Holds py filled (document.set "trades" (.arr (filled.map .ofFields))) := by
    refine ⟨Dict.get?_set_self .., ?_, by rw [hids]; exact h.distinct, by simpa [hfilled] using h.bounded⟩
    intro trade htrade
    obtain ⟨old, hold, rfl⟩ := List.mem_map.1 htrade
    obtain ⟨id, hid⟩ := h.named old hold
    exact ⟨id, by rw [get?_setDefaults_shadowTradeId, hid]⟩
  refine ⟨filled, ?_, hids⟩
  unfold migrateShadowTradeDocument at hm
  obtain ⟨version, -, hm⟩ := bind_ok hm
  split_ifs at hm
  rw [h.stored] at hm
  obtain ⟨items, hitems, hm⟩ := bind_ok (show (orRaise _ _ >>= _) = _ from hm)
  rw [mapM_ofFields] at hitems
  obtain rfl := Option.some.inj (orRaise_ok hitems)
  dsimp only at hm
  rw [List.map_map] at hm
  rw [hfilled, List.map_map] at hset
  split_ifs at hm
  · obtain ⟨-, rfl⟩ := Prod.mk.inj (Except.ok.inj hm)
    have hschema : "schema_version" ≠ "trades" := by decide
    have hupdated : "updated_at" ≠ "trades" := by decide
    exact (hset.set hschema _).set hupdated _
  · obtain ⟨-, rfl⟩ := Prod.mk.inj (Except.ok.inj hm)
    exact hset

/-- The last trades are kept, each still under an id of its own. -/
theorem keepTrades (h : Holds py trades document) {added : List Fields}
    (hnamed : ∀ trade ∈ added, ∃ id, trade.get? "shadow_trade_id" = some (.str id))
    (hdistinct : ((trades ++ added).map (tradeId py)).Nodup) :
    ∃ kept, Holds py kept (keepTrades now added document) := by
  set all := trades ++ added with hall
  refine ⟨all.drop (all.length - maxCompletedShadowTrades), ?_, ?_, ?_, ?_⟩
  · refine (Dict.get?_update_of_mem document (by simp) List.mem_cons_self).trans ?_
    rw [Dict.field_of_get? h.stored, Json.items_arr, ← List.map_append, ← hall, List.length_map, List.map_drop]
  · intro trade htrade
    exact (List.mem_append.1 (List.mem_of_mem_drop htrade)).elim (h.named trade) (hnamed trade)
  · rw [List.map_drop]
    exact hdistinct.sublist (List.drop_sublist ..)
  · rw [List.length_drop]
    omega

theorem recordMutate (h : Holds py trades document) {row trade : Fields} {recorded : Bool} {now' : String}
    (htrade : completedShadowTrade py now' row = some trade)
    (hm : recordMutate py now trade document = .ok (recorded, document')) : ∃ kept, Holds py kept document' := by
  unfold Shadow.recordMutate at hm
  obtain ⟨x, hx, hm⟩ := bind_ok hm
  obtain ⟨migrated, hmigrated, -⟩ := h.migrate hx
  have hid := completedShadowTrade_some htrade
  rw [hmigrated.tradesOf_eq, textOf_str py hid] at hm
  split_ifs at hm with hany
  · obtain ⟨-, rfl⟩ := Prod.mk.inj (Except.ok.inj hm)
    exact ⟨migrated, hmigrated⟩
  · obtain ⟨-, rfl⟩ := Prod.mk.inj (Except.ok.inj hm)
    refine hmigrated.keepTrades (by rintro _ (_ | ⟨_, ⟨⟩⟩); exact ⟨_, hid⟩) ?_
    rw [List.map_append, List.nodup_append]
    refine ⟨hmigrated.distinct, List.nodup_singleton _, ?_⟩
    rintro id hmem _ (_ | ⟨_, ⟨⟩⟩) rfl
    obtain ⟨item, hitem, hitemId⟩ := List.mem_map.1 hmem
    obtain ⟨id, hstr⟩ := hmigrated.named item hitem
    refine hany (List.any_eq_true.2 ⟨item, hitem, ?_⟩)
    rw [tradeId, tradeId, textOf_str py hstr, textOf_str py hid] at hitemId
    rw [Dict.field_of_get? hstr, Json.isStr, hitemId]
    exact decide_eq_true rfl

theorem backfillMutate (h : Holds py trades document) {candidates : List Fields} {added : Nat}
    (hnamed : ∀ trade ∈ candidates, ∃ id, trade.get? "shadow_trade_id" = some (.str id))
    (hdistinct : ((candidates.map (tradeId py)).filter fun id => id ∉ trades.map (tradeId py)).Nodup)
    (hm : backfillMutate py now candidates document = .ok (added, document')) : ∃ kept, Holds py kept document' := by
  unfold Shadow.backfillMutate at hm
  obtain ⟨x, hx, hm⟩ := bind_ok hm
  obtain ⟨migrated, hmigrated, hids⟩ := h.migrate hx
  dsimp only at hm
  rw [hmigrated.shadowTradeIds_eq, hids] at hm
  split_ifs at hm
  · obtain ⟨-, rfl⟩ := Prod.mk.inj (Except.ok.inj hm)
    exact ⟨migrated, hmigrated⟩
  · obtain ⟨-, rfl⟩ := Prod.mk.inj (Except.ok.inj hm)
    refine hmigrated.keepTrades (fun trade htrade => hnamed trade (List.mem_filter.1 htrade).1) ?_
    rw [List.filter_map] at hdistinct
    rw [List.map_append, List.nodup_append]
    refine ⟨hmigrated.distinct, hdistinct, ?_⟩
    rintro id hmem _ hadded rfl
    obtain ⟨trade, htrade, rfl⟩ := List.mem_map.1 hadded
    exact of_decide_eq_true (List.mem_filter.1 htrade).2 (hids ▸ hmem)

end Holds

/-! ## Every run -/

/-- The file, if it was written, holds its trades under distinct ids, and each waiting backfill has its
candidates. -/
def Sound (py : Conversions) (file : Option Document) : Prop := ∀ document ∈ file, ∃ trades, Holds py trades document

theorem Sound.getD {file : Option Document} (h : Sound py file) (now : String) :
    ∃ trades, Holds py trades (file.getD (emptyShadowTrades now)) ∧
      trades.map (tradeId py) = (file.map (shadowTradeIds py)).getD [] := by
  cases file with
  | none => exact ⟨[], Holds.emptyShadowTrades, rfl⟩
  | some document =>
    obtain ⟨trades, htrades⟩ := h document rfl
    exact ⟨trades, htrades, htrades.shadowTradeIds_eq.symm⟩

/-- A mutator that keeps the document sound keeps the file sound; the version changes no trade. -/
theorem Sound.update {file : Option Document} (h : Sound py file) {ρ : Type} {now : String}
    {mutate : Document → Except ShadowError (ρ × Document)}
    (hmutate : ∀ result document, mutate (file.getD (emptyShadowTrades now)) = .ok (result, document) →
      ∃ trades, Holds py trades document) : Sound py (update now mutate file) := by
  unfold Shadow.update
  cases hu : Store.updateJson mutate none (file.getD (emptyShadowTrades now)) with
  | error e => exact h
  | ok x =>
    obtain ⟨version, mutated, -, -, hm, hset⟩ := Store.updateJson_ok hu
    obtain ⟨trades, htrades⟩ := hmutate _ _ hm
    rintro document ⟨⟩
    rw [hset]
    exact ⟨trades, htrades.set (by decide) _⟩

theorem Sound.currentShadowTradeIds {file : Option Document} (h : Sound py file) (now : String) :
    Sound py (currentShadowTradeIds py now file).2 := by
  unfold Shadow.currentShadowTradeIds
  cases hm : Store.migrateJson (migrateShadowTradeDocument py now) (file.getD (emptyShadowTrades now)) with
  | error e => exact h
  | ok x =>
    obtain ⟨changed, document⟩ := x
    cases changed with
    | false => exact h
    | true =>
      obtain ⟨version, migrated, hmigrate, -, rfl⟩ := Store.migrateJson_changed hm
      obtain ⟨trades, htrades, -⟩ := h.getD now
      obtain ⟨kept, hkept, -⟩ := htrades.migrate hmigrate
      rintro document ⟨⟩
      exact ⟨kept, hkept.set (by decide) _⟩

theorem await_ledger (s : System) (b : Backfill) : (s.await py b).ledger = s.ledger := by
  unfold System.await
  split_ifs <;> rfl

theorem sound_step {s t : System} {e : Event} (h : Sound py s.ledger) (hok : Distinguished py s e)
    (hstep : step py s e = some t) : Sound py t.ledger := by
  cases e with
  | record row now =>
    simp only [step] at hstep
    split at hstep
    · obtain rfl := Option.some.inj hstep
      exact h
    · rename_i trade htrade
      obtain rfl := Option.some.inj hstep
      refine h.update fun result document hm => ?_
      obtain ⟨trades, htrades, -⟩ := h.getD now
      exact htrades.recordMutate htrade hm
  | backfillWith rows existingIds now =>
    obtain rfl := Option.some.inj hstep
    rw [await_ledger]
    exact h
  | backfill rows now =>
    have hread := h.currentShadowTradeIds now
    simp only [step] at hstep
    split_ifs at hstep
    · obtain rfl := Option.some.inj hstep
      exact h
    · split at hstep
      · rename_i hids
        obtain rfl := Option.some.inj hstep
        rwa [hids] at hread
      · rename_i hids
        obtain rfl := Option.some.inj hstep
        rw [await_ledger]
        rwa [hids] at hread
  | write k now =>
    obtain ⟨b, hb, rfl⟩ := Option.map_eq_some_iff.1 hstep
    refine h.update fun result document hm => ?_
    obtain ⟨trades, htrades, hids⟩ := h.getD now
    refine htrades.backfillMutate (fun trade => named_of_mem_candidates) ?_ hm
    -- the ids that are added are those of the missing rows
    have hmissing : ((b.candidates py).map (tradeId py)).filter (fun id => id ∉ trades.map (tradeId py)) =
        (s.missing py b).map (identity py) := by
      rw [map_tradeId_candidates, List.filter_map, List.filter_filter, hids]
      unfold System.missing System.ids
      congr 1
      exact List.filter_congr fun row _ => by simp [Bool.and_comm, Bool.and_assoc]
    rw [hmissing]
    exact hok b hb

/-- Shadow trade uniqueness: after any run of any processes' calls from the empty ledger, in which no
backfill adds two rows of one id, the ids in the ledger are pairwise distinct, and no more trades are
kept than may be. -/
theorem shadowTradeIds_distinct (py : Conversions) {file : Option Document}
    (hempty : ∀ document ∈ file, ∃ now, document = emptyShadowTrades now) {es : List Event} {s : System}
    (hrun : Run (step py) (Distinguished py) ⟨file, []⟩ es s) :
    ∀ document ∈ s.ledger, (shadowTradeIds py document).Nodup ∧
      (document.field "trades").items.length ≤ maxCompletedShadowTrades := by
  have hstart : Sound py file := fun document hdocument => by
    obtain ⟨now, rfl⟩ := hempty document hdocument
    exact ⟨[], Holds.emptyShadowTrades⟩
  have hsound : Sound py s.ledger :=
    hrun.invariant (P := fun s => Sound py s.ledger) (fun s e t h hok hstep => sound_step h hok hstep) hstart
  intro document hdocument
  obtain ⟨trades, htrades⟩ := hsound document hdocument
  refine ⟨htrades.shadowTradeIds_eq ▸ htrades.distinct, ?_⟩
  rw [Dict.field_of_get? htrades.stored, Json.items_arr, List.length_map]
  exact htrades.bounded

/-! ## One row under two spellings of its id -/

/-- Conversions that are asked for texts only. -/
def textOnly : Conversions := ⟨fun _ => none, fun _ => none, fun _ => "", fun _ => ""⟩

/-- A complete row of the old profile. -/
def completeRow (id : String) : Fields :=
  Dict.ofList [("observation_id", .str id), ("status", .str "COMPLETE"), ("quote_status", .str "EXECUTABLE"),
    ("tracking_profile", .str "legacy_15m"),
    ("samples", .arr (["1m", "5m", "15m"].map fun interval => .obj [("interval", .str interval)]))]

def backfillOf (ids : List String) : List Event :=
  [.record (completeRow "a") "first", .backfill (ids.map fun id => .ofFields (completeRow id)) "second",
    .write 0 "third"]

instance (s : System) (e : Event) : Decidable (Distinguished textOnly s e) :=
  match e with
  | .record .. | .backfillWith .. | .backfill .. => .isTrue trivial
  | .write k _ =>
    match h : s.pending[k]? with
    | none => .isTrue fun b hb => by rw [h] at hb; cases hb
    | some b =>
      if hn : ((s.missing textOnly b).map (identity textOnly)).Nodup then
        .isTrue fun b' hb => by rw [h] at hb; cases hb; exact hn
      else .isFalse fun hok => hn (hok b h)

theorem shadowTradeIds_distinct_abc : ∃ s : System, s.ids textOnly = ["a", "b", "c"] ∧
    ∀ document ∈ s.ledger, (shadowTradeIds textOnly document).Nodup ∧
      (document.field "trades").items.length ≤ maxCompletedShadowTrades := by
  have hrun : ∃ s, Run (step textOnly) (Distinguished textOnly) ⟨none, []⟩ (backfillOf ["a", "b", " c "]) s ∧
      s.ids textOnly = ["a", "b", "c"] := Run.exists_of_any (by decide +kernel)
  obtain ⟨s, hrun, hids⟩ := hrun
  have hempty : ∀ document ∈ (none : Option Document), ∃ now, document = emptyShadowTrades now := nofun
  exact ⟨s, hids, shadowTradeIds_distinct textOnly hempty hrun⟩

/-- A backfill of rows with the ids "b" and " b " records "b" twice. -/
theorem shadowTradeIds_repeated : ¬ ∀ (py : Conversions) (file : Option Document),
    (∀ document ∈ file, ∃ now, document = emptyShadowTrades now) → ∀ es s,
      Run (step py) Run.anyStep ⟨file, []⟩ es s →
        ∀ document ∈ s.ledger, (shadowTradeIds py document).Nodup := by
  intro h
  have hrun : ∃ s, Run (step textOnly) Run.anyStep ⟨none, []⟩ (backfillOf ["b", " b "]) s ∧
      s.ids textOnly = ["a", "b", "b"] := Run.exists_of_any (by decide +kernel)
  obtain ⟨s, hrun, hids⟩ := hrun
  unfold System.ids at hids
  cases hledger : s.ledger with
  | none =>
    rw [hledger] at hids
    cases hids
  | some document =>
    rw [hledger] at hids
    have hnodup := h textOnly none nofun _ s hrun document hledger
    rw [show shadowTradeIds textOnly document = _ from hids] at hnodup
    exact absurd hnodup (by decide)

end Aibot.Observation.Stored.Shadow
