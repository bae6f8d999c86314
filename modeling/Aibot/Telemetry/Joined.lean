/-
`join_streams` over records that fit together: it does not raise, every predictor is in one row, and every
receipt and every outcome is in one row or an orphan.
-/
import Aibot.Telemetry.Beside

namespace Aibot.Telemetry

open Store (JsonDocument Codec)

/-! ## Indexes -/

/-- The index of rows by their keys. -/
def indexOf (kind : RowKind) (rows : List JsonDocument) : Dict JoinKey JsonDocument :=
  Dict.ofList (rows.map fun row => (joinKey kind row, row))

section Index

variable {pf : Platform} {kind : RowKind}

/-- The index of rows that are valid and have keys of their own. -/
theorem indexRows_ok {rows : List JsonDocument} (hvalid : ∀ row ∈ rows, validate pf kind row = .ok ())
    (hn : (rows.map (joinKey kind)).Nodup) :
    indexRows pf kind rows = .ok (indexOf kind rows) := by
  have hloop : ∀ (rows : List JsonDocument) (d : Dict JoinKey JsonDocument),
      (∀ row ∈ rows, validate pf kind row = .ok ()) → (rows.map (joinKey kind)).Nodup →
      (∀ row ∈ rows, d.get? (joinKey kind row) = none) →
      rows.foldlM (fun result row => do
        validate pf kind row
        demand (result.get? (joinKey kind row)).isNone "duplicate telemetry join identity"
        return result.set (joinKey kind row) row) d =
      (.ok ((rows.map fun row => (joinKey kind row, row)).foldl (fun d p => d.set p.1 p.2) d) : Except String _) := by
    intro rows
    induction rows with
    | nil => exact fun _ _ _ _ => rfl
    | cons row rows ih =>
      intro d hvalid hn hnew
      rw [List.forall_mem_cons] at hvalid hnew
      rw [List.map_cons, List.nodup_cons] at hn
      rw [List.foldlM_cons, hvalid.1, ok_bind, demand_bind (by rw [hnew.1]; rfl)]
      refine ih (d.set (joinKey kind row) row) hvalid.2 hn.2 fun row' hrow' => ?_
      rw [Dict.get?_set_of_ne]
      · exact hnew.2 row' hrow'
      · intro heq
        exact hn.1 (heq ▸ List.mem_map_of_mem hrow')
  exact hloop rows .empty hvalid hn fun _ _ => rfl

theorem values_indexOf {rows : List JsonDocument} (h : (rows.map (joinKey kind)).Nodup) :
    (indexOf kind rows).values = rows := by
  unfold Dict.values indexOf
  rw [Dict.entries_index h, List.map_map]
  exact List.map_id rows

end Index

/-! ## The loop -/

section Loop

variable {dt : Datetimes} {buys closed : Dict JoinKey JsonDocument}

/-- The keys of the outcomes that the receipts of some predictors ask for. -/
def tradesOf (buys : Dict JoinKey JsonDocument) (keys : List JoinKey) : List JoinKey :=
  keys.filterMap fun key => (buys.get? key).map (tradeKey key)

/-- The row of a predictor. -/
def rowOf (buys closed : Dict JoinKey JsonDocument) (entry : JoinKey × JsonDocument) : JoinRow :=
  let receipt := buys.get? entry.1
  let outcome := receipt.bind fun receipt => closed.get? (tradeKey entry.1 receipt)
  ⟨entry.2, receipt, outcome, joinStatus (nested entry.2 "decision" "outcome") receipt outcome⟩

/-- The receipt and the outcome of a predictor fit to it. -/
def Fitting (dt : Datetimes) (buys closed : Dict JoinKey JsonDocument) (entry : JoinKey × JsonDocument) : Prop :=
  ∀ receipt, buys.get? entry.1 = some receipt →
    (nested entry.2 "decision" "outcome").isStr "BUY" = true ∧ consistent dt entry.2 receipt = .ok () ∧
      ∀ outcome, closed.get? (tradeKey entry.1 receipt) = some outcome → consistent dt receipt outcome = .ok () ∧
        ((nested receipt "identity" "event_seq").isNull || (nested receipt "identity" "event_seq").equal
          (nested outcome "identity" "buy_event_seq")) = true

/-- The variables of the loop after some predictors. -/
def Joining.after (buys closed : Dict JoinKey JsonDocument) (j : Joining) (entries : List (JoinKey × JsonDocument)) :
    Joining :=
  ⟨j.seenTrades ++ tradesOf buys (entries.map Prod.fst), j.usedReceipts ++ buys.found (entries.map Prod.fst),
    j.usedOutcomes ++ closed.found (tradesOf buys (entries.map Prod.fst)), j.rows ++ entries.map (rowOf buys closed)⟩

theorem joinPredictor_ok {j : Joining} {entry : JoinKey × JsonDocument} (hfit : Fitting dt buys closed entry)
    (hnew : ∀ trade ∈ tradesOf buys [entry.1], trade ∉ j.seenTrades) :
    joinPredictor dt buys closed j entry = .ok (j.after buys closed [entry]) := by
  obtain ⟨key, predictor⟩ := entry
  unfold joinPredictor
  dsimp only
  cases hreceipt : buys.get? key with
  | none => simp [Joining.after, rowOf, tradesOf, Dict.found, hreceipt, pure, Except.pure]
  | some receipt =>
    obtain ⟨hbuy, hconsistent, houtcome⟩ := hfit receipt hreceipt
    have hseen : decide (tradeKey key receipt ∉ j.seenTrades) = true := by
      refine decide_eq_true (hnew _ ?_)
      simp [tradesOf, hreceipt]
    dsimp only
    rw [demand_bind hbuy, hconsistent, ok_bind, demand_bind hseen]
    cases hclosed : closed.get? (tradeKey key receipt) with
    | none => simp [Joining.after, rowOf, tradesOf, Dict.found, hreceipt, hclosed, pure, Except.pure]
    | some outcome =>
      obtain ⟨houtcome, hnumber⟩ := houtcome outcome hclosed
      dsimp only
      rw [houtcome, ok_bind, demand_bind hnumber]
      simp [Joining.after, rowOf, tradesOf, Dict.found, hreceipt, hclosed, pure, Except.pure]

theorem tradesOf_cons (key : JoinKey) (keys : List JoinKey) :
    tradesOf buys (key :: keys) = tradesOf buys [key] ++ tradesOf buys keys := by
  unfold tradesOf
  rw [← List.filterMap_append]
  rfl

theorem Joining.after_append (j : Joining) (xs ys : List (JoinKey × JsonDocument)) :
    (j.after buys closed xs).after buys closed ys = j.after buys closed (xs ++ ys) := by
  simp [Joining.after, tradesOf, Dict.found]

/-- The loop goes through all predictors, where no two receipts name one trade. -/
theorem foldlM_joinPredictor : ∀ {entries : List (JoinKey × JsonDocument)} {j : Joining},
    (∀ entry ∈ entries, Fitting dt buys closed entry) → (tradesOf buys (entries.map Prod.fst)).Nodup →
    (∀ trade ∈ tradesOf buys (entries.map Prod.fst), trade ∉ j.seenTrades) →
    entries.foldlM (joinPredictor dt buys closed) j = .ok (j.after buys closed entries)
  | [], j, _, _, _ => by simp [Joining.after, tradesOf, Dict.found, pure, Except.pure]
  | entry :: entries, j, hfit, hn, hnew => by
    rw [List.forall_mem_cons] at hfit
    rw [List.map_cons, tradesOf_cons] at hn hnew
    rw [List.nodup_append] at hn
    rw [List.forall_mem_append] at hnew
    rw [List.foldlM_cons, joinPredictor_ok hfit.1 hnew.1, ok_bind, foldlM_joinPredictor hfit.2 hn.2.1,
      Joining.after_append]
    · rfl
    intro trade htrade hmem
    rcases List.mem_append.1 hmem with hseen | hfirst
    · exact hnew.2 trade htrade hseen
    · exact hn.2.2 trade hfirst trade htrade rfl

theorem rows_predictors (entries : List (JoinKey × JsonDocument)) :
    (entries.map (rowOf buys closed)).map JoinRow.predictor = entries.map Prod.snd := by
  rw [List.map_map]
  rfl

theorem rows_receipts (entries : List (JoinKey × JsonDocument)) :
    (entries.map (rowOf buys closed)).filterMap JoinRow.receipt = (entries.map Prod.fst).filterMap buys.get? := by
  rw [List.filterMap_map, List.filterMap_map]
  rfl

theorem rows_outcomes (entries : List (JoinKey × JsonDocument)) :
    (entries.map (rowOf buys closed)).filterMap JoinRow.outcome =
      (tradesOf buys (entries.map Prod.fst)).filterMap closed.get? := by
  unfold tradesOf
  rw [List.filterMap_map, List.filterMap_map, List.filterMap_filterMap]
  refine List.filterMap_congr fun entry _ => ?_
  show (buys.get? entry.1).bind _ = ((buys.get? entry.1).map _).bind _
  cases buys.get? entry.1 <;> rfl

end Loop

/-! ## The join -/

section Join

variable {pf : Platform} {dt : Datetimes} {predictors receipts outcomes : List JsonDocument}

/-- Records that fit together. -/
structure Joinable (pf : Platform) (dt : Datetimes) (predictors receipts outcomes : List JsonDocument) : Prop where
  predictor : (∀ row ∈ predictors, validate pf .predictor row = .ok ()) ∧ (predictors.map (joinKey .predictor)).Nodup
  receipt : (∀ row ∈ receipts, validate pf .receipt row = .ok ()) ∧ (receipts.map (joinKey .receipt)).Nodup
  outcome : (∀ row ∈ outcomes, validate pf .outcome row = .ok ()) ∧ (outcomes.map (joinKey .outcome)).Nodup
  /-- No two receipts are of one trade. -/
  trades : ∀ r ∈ receipts, ∀ r' ∈ receipts,
    tradeKey (joinKey .receipt r) r = tradeKey (joinKey .receipt r') r' → joinKey .receipt r = joinKey .receipt r'
  bought : ∀ p ∈ predictors, ∀ r ∈ receipts, joinKey .receipt r = joinKey .predictor p →
    (nested p "decision" "outcome").isStr "BUY" = true ∧ consistent dt p r = .ok ()
  closed : ∀ r ∈ receipts, ∀ o ∈ outcomes, joinKey .outcome o = tradeKey (joinKey .receipt r) r →
    consistent dt r o = .ok () ∧ ((nested r "identity" "event_seq").isNull || (nested r "identity" "event_seq").equal
      (nested o "identity" "buy_event_seq")) = true

/-- Every predictor is in one row, every receipt and every outcome in one row or an orphan. -/
structure JoinResult.Of (predictors receipts outcomes : List JsonDocument) (result : JoinResult) : Prop where
  predictors : result.rows.map JoinRow.predictor = predictors
  receipts : (result.rows.filterMap JoinRow.receipt ++ result.orphanReceipts).Perm receipts
  outcomes : (result.rows.filterMap JoinRow.outcome ++ result.orphanOutcomes).Perm outcomes

theorem Joinable.fitting (h : Joinable pf dt predictors receipts outcomes) :
    ∀ entry ∈ (indexOf .predictor predictors).entries,
      Fitting dt (indexOf .receipt receipts) (indexOf .outcome outcomes) entry := by
  intro entry hentry receipt hreceipt
  obtain ⟨hr, hkey⟩ := (Dict.get?_index h.receipt.2).1 hreceipt
  unfold indexOf at hentry
  rw [Dict.entries_index h.predictor.2] at hentry
  obtain ⟨predictor, hp, rfl⟩ := List.mem_map.1 hentry
  obtain ⟨hbuy, hconsistent⟩ := h.bought predictor hp receipt hr hkey
  refine ⟨hbuy, hconsistent, fun outcome houtcome => ?_⟩
  obtain ⟨ho, hkey'⟩ := (Dict.get?_index h.outcome.2).1 houtcome
  rw [← hkey] at hkey'
  exact h.closed receipt hr outcome ho hkey'

theorem Joinable.trades_nodup (h : Joinable pf dt predictors receipts outcomes) :
    (tradesOf (indexOf .receipt receipts) (predictors.map (joinKey .predictor))).Nodup := by
  refine h.predictor.2.filterMap fun key key' trade htrade htrade' => ?_
  obtain ⟨receipt, hreceipt, rfl⟩ := Option.map_eq_some_iff.1 htrade
  obtain ⟨receipt', hreceipt', heq⟩ := Option.map_eq_some_iff.1 htrade'
  obtain ⟨hr, rfl⟩ := (Dict.get?_index h.receipt.2).1 hreceipt
  obtain ⟨hr', rfl⟩ := (Dict.get?_index h.receipt.2).1 hreceipt'
  exact h.trades receipt hr receipt' hr' heq.symm

/-- The join of records that fit together. -/
theorem Joinable.join (h : Joinable pf dt predictors receipts outcomes) :
    ∃ result, joinStreams pf dt predictors receipts outcomes = .ok result ∧ result.Of predictors receipts outcomes := by
  have hentries : (indexOf .predictor predictors).entries = predictors.map fun row => (joinKey .predictor row, row) :=
    Dict.entries_index h.predictor.2
  have hkeys : (indexOf .predictor predictors).entries.map Prod.fst = predictors.map (joinKey .predictor) := by
    rw [hentries, List.map_map]
    rfl
  have hloop := foldlM_joinPredictor (j := ⟨[], [], [], []⟩) h.fitting (by rw [hkeys]; exact h.trades_nodup)
    fun _ _ => List.not_mem_nil
  unfold joinStreams
  rw [indexRows_ok h.predictor.1 h.predictor.2, ok_bind, indexRows_ok h.receipt.1 h.receipt.2, ok_bind,
    indexRows_ok h.outcome.1 h.outcome.2, ok_bind]
  rw [hloop, ok_bind]
  refine ⟨_, rfl, ?_, ?_, ?_⟩
  · exact (rows_predictors _).trans (values_indexOf h.predictor.2)
  · have hperm := (indexOf .receipt receipts).perm_orphans h.predictor.2
    rw [values_indexOf h.receipt.2, ← hkeys] at hperm
    rw [← rows_receipts] at hperm
    exact hperm
  · have hperm := (indexOf .outcome outcomes).perm_orphans h.trades_nodup
    rw [values_indexOf h.outcome.2, ← hkeys] at hperm
    rw [← rows_outcomes] at hperm
    exact hperm

end Join

end Aibot.Telemetry
