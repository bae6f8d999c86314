/-
What entry telemetry may hold: the sections and their shapes, the keys that are refused, and the bounded
copy of a value. A copy may raise; what it took from its budget stays taken.
-/
import Aibot.Lib.Dict
import Aibot.Lib.Value

namespace Aibot.Telemetry

/-! ## The tables -/

def maxItems : Nat := 128

def maxString : Nat := 256

def maxDepth : Nat := 5

def maxCaptureNodes : ℤ := 256

def maxCaptureCharacters : ℤ := 8192

def timestampNames : List String :=
  ["signal_enqueued_at", "analysis_started_at", "analysis_completed_at", "risk_check_started_at",
    "risk_check_completed_at", "preflight_started_at", "quote_request_started_at", "quote_received_at",
    "entry_decision_at", "quote_buy_request_started_at", "quote_buy_received_at",
    "quote_exit_preflight_request_started_at", "quote_exit_preflight_received_at",
    "analysis_semaphore_acquired_at", "preflight_completed_at"]

def quoteFields : List String :=
  ["quote_timestamp", "quote_age_at_decision_sec", "quote_age_ms", "input_amount", "expected_output",
    "price_impact_pct", "route_count", "route_hash", "selected_route_hash", "dex_identifiers",
    "route_identifiers_truncated", "same_notional_quote_delta", "last_error_type", "missing_reason"]

def sectionFields : List (String × List String) :=
  [("signal", ["source", "strategy_family", "signal_timestamp", "sol_amount", "detected_at",
      "source_wallet_hash", "source_signature_hash", "dex_id", "pair_id_hash", "source_token_amount_raw",
      "source_token_decimals", "source_paid_lamports", "discovery_source", "prefilter_reasons"]),
    ("scores", ["safety", "momentum", "raw_components", "uncapped_total", "capped_total",
      "threshold_result", "missing_reason"]),
    ("wallets", ["wallet_hashes", "wallet_ids", "unique_wallet_count", "uncapped_wallet_count",
      "uncapped_whale_count", "capped_whale_count", "repeated_wallet_count", "contributions",
      "top_wallet_contribution", "concentration_ratio", "simultaneous_wallet_arrival_count",
      "missing_reason", "observed_whale_count", "observed_unique_wallet_count",
      "participating_wallet_ids", "paid_lamports_by_wallet", "count_is_lower_bound"]),
    ("short_flow", ["windows", "cadence_sec", "missing_reason", "window_seconds", "buy_count",
      "sell_count", "combined_volume_usd", "short_windows_missing_reason"]),
    ("trajectory", ["price_now", "liquidity_now", "volume_now", "history", "missing_reason",
      "schema_version", "collector_version", "prospective_collection_start", "snapshot_count",
      "pre_signal_snapshots"]),
    ("ages", ["mint_first_seen_at", "pool_first_seen_at", "pair_created_at", "pair_age_sec",
      "observation_age_sec", "signal_age_sec", "pair_age_seconds", "missing_reason"]),
    ("pressure", ["open_positions_count", "concurrent_candidate_count", "concurrent_analysis_count",
      "queue_depth", "pending_quote_count", "recent_signal_count", "recent_signal_window_sec",
      "missing_reason", "pending_signal_tasks", "pending_shadow_tasks", "analysis_semaphore_available",
      "permitted_analysis_concurrency", "risk_check_scope"]),
    ("wallet_performance", ["entry_time_snapshot", "missing_reason"]),
    ("rpc", ["last_error_type", "missing_reason", "scope", "confirmation_missing_reason"]),
    ("rpc_errors", ["last_error_type"]),
    ("quote_buy_errors", ["last_error_type"]),
    ("quote_exit_preflight_errors", ["last_error_type"]),
    ("analyzer_source", ["cache_hit", "shared_flight_owner", "raw_components_missing_reason",
      "rpc_attempt_attribution"]),
    ("safety_components", ["actualrawinputs", "actualallocated", "raw_inputs", "allocated_components",
      "uncapped_total", "capped_total", "cap_applied", "max_possible_total", "thresholds",
      "threshold_result", "mint_authority_renounced", "developer_supply_raw",
      "developer_supply_percent_raw", "lp_locked_percent_raw", "liquidity_usd_raw", "components",
      "maximum_possible_total"]),
    ("quote_buy", quoteFields),
    ("quote_exit_preflight", quoteFields),
    ("decision", ["outcome", "reason", "reasons", "missing_reason"])]

/-- `SECTION_FIELDS.get(name)`. -/
def fieldsOf (name : String) : Option (List String) := (sectionFields.find? fun p => p.1 = name).map Prod.snd

def counterNames : List String :=
  ["rpc_attempt_count", "rpc_retry_count", "quote_attempt_count", "quote_retry_count",
    "limiter_wait_count", "transient_error_count", "quote_buy_attempt_count", "quote_buy_retry_count",
    "quote_exit_preflight_attempt_count", "quote_exit_preflight_retry_count",
    "quote_buy_transient_error_count", "quote_exit_preflight_transient_error_count",
    "quote_limiter_wait_count", "rpc_transient_error_count", "rpc_limiter_wait_count",
    "rpc_failover_attempt_count", "rpc_local_retry_count"]

def durationNames : List String :=
  ["scheduler_wait_sec", "queue_wait_sec", "limiter_wait_sec", "retry_sleep_sec", "rpc_request_sec",
    "quote_request_sec", "quote_buy_request_sec", "quote_exit_preflight_request_sec",
    "quote_buy_request_duration_sec", "quote_buy_reservation_duration_sec", "quote_buy_retry_sleep_sec",
    "quote_exit_preflight_request_duration_sec", "quote_exit_preflight_reservation_duration_sec",
    "quote_exit_preflight_retry_sleep_sec", "quote_limiter_wait_duration_sec",
    "rpc_request_duration_sec", "rpc_retry_sleep_sec", "rpc_limiter_wait_duration_sec",
    "rpc_reservation_duration_sec", "rpc_reservation_queue_wait_sec"]

def outcomeNames : List String := ["BUY", "REJECT_ANALYZER", "REJECT_RISK", "QUOTE_FAILED", "RPC_SKIPPED", "OTHER"]

/-! ## Refused keys -/

def deniedWords : List String :=
  ["realizedpnl", "pnl", "profit", "loss", "exit", "sell", "closed", "outcome", "winner", "loser",
    "mae", "mfe", "horizon", "future", "finalstatus", "exitreason", "finalreturn", "postentry",
    "currentwalletperformance", "futurewalletperformance"]

def safeCollisions : List String := ["sell_count", "sells_m5", "quote_exit_preflight"]

def secretWords : List String :=
  ["secret", "apikey", "privatekey", "password", "cookie", "rpcurl", "authorization"]

/-- `re.sub(r"([a-z])([A-Z])", r"\1_\2", key)`. -/
def splitCamel : List Char → List Char
  | a :: b :: rest =>
    if a.isLower && b.isUpper then a :: '_' :: splitCamel (b :: rest) else a :: splitCamel (b :: rest)
  | rest => rest

/-- `str.lower`, on the letters whose lower case is ASCII. -/
def lowerLetters (c : Char) : List Char :=
  match c with
  | '\u212a' => ['k']
  | '\u0130' => ['i', '\u0307']
  | c => [c.toLower]

def isWordChar (c : Char) : Bool := c.isLower || c.isDigit

/-- `part in text`. -/
def contains (part text : List Char) : Bool := decide (part <:+: text)

/-- `forbidden`. -/
def forbidden (key : String) : Bool :=
  if key ∈ safeCollisions then false
  else
    let words := (((splitCamel key.toList).flatMap lowerLetters).splitOnP fun c => !isWordChar c).filter (· ≠ [])
    let normalized := words.flatten
    deniedWords.any (fun word => normalized = word.toList || words.contains word.toList) ||
      secretWords.any fun word => contains word.toList normalized

/-! ## Bounded copies -/

/-- The nodes and characters that a copy may still take. -/
structure Budget where
  nodes : ℤ
  characters : ℤ

def freshBudget : Budget := ⟨maxCaptureNodes, maxCaptureCharacters⟩

/-- A copy: the value, or none where it raises, and the budget left. -/
abbrev Scan := OptionT (StateM Budget)

/-- A dictionary built item by item. -/
def dictOf (items : List (Key × Value)) : Value := .dict (Dict.ofList items).entries

/-- `math.isfinite(n)` raises for an integer that no float is near. -/
def isFiniteInt (n : ℤ) : Bool := (Double.round n).isSome

/-- The text of a copy: URLs and tokens are left out. -/
def safeText (s : String) : Scan Value := do
  if contains "://".toList s.toList || ("bearer ".toList).isPrefixOf (s.toList.flatMap lowerLetters) then
    return .none
  let budget ← get
  let text := s.toList.take (min (maxString : ℤ) (max 0 budget.characters)).toNat
  set { budget with characters := budget.characters - text.length }
  return .str (String.ofList text)

/-- `_safe`, with the depth that is left. -/
def safe : Nat → Value → Scan Value
  | left, value => do
    let budget ← get
    if budget.nodes ≤ 0 then return .none
    set { budget with nodes := budget.nodes - 1 }
    match value with
    | .none | .bool _ | .float (.finite _) => return value
    | .int n => if isFiniteInt n then return value else failure
    | .float _ | .other _ => return .none
    | .str s => safeText s
    | .list items | .tuple items =>
      match left with
      | 0 => return .none
      | left + 1 => return .list (← (items.take maxItems).mapM (safe left))
    | .dict items =>
      match left with
      | 0 => return .none
      | left + 1 =>
        let kept ← (items.take maxItems).filterMapM fun
          | (.str key, item) =>
            if forbidden key then return none
            else return some (Key.str (String.ofList (key.toList.take 80)), ← safe left item)
          | (.other _, _) => return none
        return dictOf kept

/-- `_safe(value)` with a budget of its own; none where it raises. -/
def safeAlone (value : Value) : Option Value := ((safe maxDepth value).run freshBudget).1

/-- `_safe(value)` where no budget is kept. -/
def safeUncounted (value : Value) : Scan Value := OptionT.mk (pure (safeAlone value))

/-! ## Shapes -/

/-- What a field may hold. -/
inductive Shape
  | scalar
  | numericWalletMap
  | dict (fields : List (String × Shape))
  /-- A leaf, or a dictionary. -/
  | either (leaf branch : Shape)
  | list (item : Shape)

/-- A dictionary of scalars. -/
def scalars (keys : List String) : Shape := .dict (keys.map fun key => (key, .scalar))

def rawShape : Shape :=
  scalars ["volume_operand_before_cap", "volume_points", "positive_net_buys",
    "imbalance_operand_before_cap", "imbalance_points", "volume_m5_usd", "volume_operand",
    "net_buy_count", "net_buy_points", "net_buy_operand", "volume", "developer_supply_percent_raw",
    "lp_locked_percent_raw", "liquidity_usd_raw"]

def scoreShape : Shape :=
  .dict (("raw_components", rawShape) ::
    (["capped_total", "uncapped_total", "uncapped_total_missing_reason", "threshold_result",
      "missing_reason"].map fun key => (key, .scalar)))

def snapshotShape : Shape :=
  scalars ["snapshot_at_epoch", "volume_m5_usd", "buys_m5", "sells_m5", "liquidity_usd", "price_usd"]

def componentsShape : Shape := scalars ["mint_authority", "developer_holding", "lp_lock"]

def thresholdsShape : Shape :=
  scalars ["minimum_safety_score", "maximum_developer_percent", "minimum_lp_locked_percent",
    "minimum_liquidity_usd", "route_b_minimum_liquidity_usd"]

/-- `section_shapes`, of one field. -/
def shapeOf : String → String → Shape
  | "scores", "safety" | "scores", "momentum" => scoreShape
  | "scores", "raw_components" => rawShape
  | "signal", "prefilter_reasons" => .list .scalar
  | "wallets", "wallet_hashes" | "wallets", "wallet_ids" | "wallets", "participating_wallet_ids" => .list .scalar
  | "wallets", "paid_lamports_by_wallet" => .numericWalletMap
  | "wallets", "contributions" => .list (scalars ["wallet_id", "paid_lamports"])
  | "short_flow", "windows" => .list (scalars ["window_seconds", "buy_count", "sell_count", "combined_volume_usd"])
  | "trajectory", "history" | "trajectory", "pre_signal_snapshots" => .list snapshotShape
  | "safety_components", "actualrawinputs" | "safety_components", "raw_inputs" => rawShape
  | "safety_components", "actualallocated" | "safety_components", "allocated_components"
  | "safety_components", "components" => componentsShape
  | "safety_components", "thresholds" => thresholdsShape
  | "quote_buy", "dex_identifiers" | "quote_exit_preflight", "dex_identifiers" =>
    .list (.either .scalar (scalars ["ammKey", "label"]))
  | "decision", "reasons" => .list .scalar
  | _, _ => .scalar

/-- The shape of a section. -/
def sectionShape (name : String) : Shape :=
  .dict (((fieldsOf name).getD []).map fun key => (key, shapeOf name key))

section Project

variable (scalar : Value → Scan Value)

/-- The items of a map of wallets to numbers. -/
def projectWalletMap (items : List (Key × Value)) : Scan (List (Key × Value)) :=
  (items.take maxItems).filterMapM fun
    | (.str key, item) =>
      if key.length ≤ 256 && !forbidden key then
        match item with
        | .int n => if isFiniteInt n then return some (.str key, ← scalar item) else failure
        | .float (.finite _) => return some (.str key, ← scalar item)
        | _ => return none
      else return none
    | (.other _, _) => return none

mutual

/-- `project`: the part of a value that has the shape. -/
def project : Shape → Nat → Value → Scan Value
  | .scalar, _, value =>
    match value with
    | .str _ | .int _ | .float _ | .bool _ => scalar value
    | _ => return .none
  | .numericWalletMap, depth, value =>
    match value with
    | .dict items => if depth ≥ 5 then return .none else return dictOf (← projectWalletMap scalar items)
    | _ => return .none
  | .dict fields, depth, value =>
    match value with
    | .dict items => if depth ≥ 5 then return .none else return .dict (← projectFields fields (depth + 1) items)
    | _ => return .none
  | .either leaf branch, depth, value =>
    if depth ≥ 5 then return .none
    else
      match value with
      | .dict _ => project branch depth value
      | _ => project leaf depth value
  | .list item, depth, value =>
    match value with
    | .list items | .tuple items =>
      if depth ≥ 5 then return .none else return .list (← (items.take maxItems).mapM (project item (depth + 1)))
    | _ => return .none

def projectFields : List (String × Shape) → Nat → List (Key × Value) → Scan (List (Key × Value))
  | [], _, _ => return []
  | (key, shape) :: fields, depth, items =>
    match items.find? fun p => p.1 = .str key with
    | some (_, item) =>
      if forbidden key && key ≠ "outcome" then projectFields fields depth items
      else do
        let projected ← project shape depth item
        return (.str key, projected) :: (← projectFields fields depth items)
    | none => projectFields fields depth items

end

end Project

/-- `project(value, shape, _safe)`; none where it raises. -/
def projectAlone (shape : Shape) (value : Value) : Option Value :=
  ((project safeUncounted shape 0 value).run freshBudget).1

end Aibot.Telemetry
