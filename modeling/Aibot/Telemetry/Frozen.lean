/-
Entry telemetry is frozen at the decision: whatever is called afterwards, the predictors of the row stay
as they are; after `finish` the whole row does; and no trajectory reaches past the signal.
-/
import Aibot.Lib.Object
import Aibot.Telemetry.Row

namespace Aibot.Telemetry

open Capture

/-! ## What a call after the decision may change -/

/-- The second capture has the predictors of the first, and is frozen or finished where the first is. -/
structure Frame (c c' : Capture) : Prop where
  identity : c'.identity = c.identity
  timestamps : c'.timestamps = c.timestamps
  counters : c'.counters = c.counters
  durations : c'.durations = c.durations
  sections : ∀ name, name ≠ "decision" → c'.sections.get? name = c.sections.get? name
  frozen : c.frozen = true → c'.frozen = true
  finished : c.finished = true → c'.finished = true

namespace Frame

variable {c c' c'' : Capture}

theorem refl (c : Capture) : Frame c c := ⟨rfl, rfl, rfl, rfl, fun _ _ => rfl, id, id⟩

theorem trans (h : Frame c c') (h' : Frame c' c'') : Frame c c'' where
  identity := h'.identity.trans h.identity
  timestamps := h'.timestamps.trans h.timestamps
  counters := h'.counters.trans h.counters
  durations := h'.durations.trans h.durations
  sections := fun name hname => (h'.sections name hname).trans (h.sections name hname)
  frozen := fun hf => h'.frozen (h.frozen hf)
  finished := fun hf => h'.finished (h.finished hf)

/-- The decision section is no predictor. -/
theorem setField (c : Capture) (key : String) (value : Value) : Frame c (c.setField "decision" key value) := by
  unfold Capture.setField
  split
  · exact ⟨rfl, rfl, rfl, rfl, fun name hname => Dict.get?_set_of_ne _ _ hname, id, id⟩
  · exact refl c

theorem markReceipt (c : Capture) (values : Dict String Value) : Frame c (c.markReceipt values).1 := by
  unfold Capture.markReceipt
  dsimp only
  split
  · exact refl c
  · split <;> exact ⟨rfl, rfl, rfl, rfl, fun _ _ => rfl, id, id⟩

theorem markPurchase (c : Capture) (stamp : Stamp) (values : Dict String Value) :
    Frame c (c.markPurchase stamp values) := by
  unfold Capture.markPurchase
  dsimp only
  set c₁ : Capture := { c with
    frozen := true,
    receipt := { c.receipt with paperBuyCreatedAt := c.receipt.paperBuyCreatedAt.orElse fun _ => stamp } } with hc₁
  have hfirst : Frame c c₁ := ⟨rfl, rfl, rfl, rfl, fun _ _ => rfl, fun _ => rfl, id⟩
  have hreceipt := markReceipt c₁ values
  split
  · rename_i c₂ heq
    rw [heq] at hreceipt
    exact hfirst.trans hreceipt
  · rename_i c₂ heq
    rw [heq] at hreceipt
    split_ifs
    · exact hfirst.trans hreceipt
    · exact (hfirst.trans hreceipt).trans (setField c₂ "outcome" (.str "BUY"))

theorem setFields (fields : List String) : ∀ (items : List (Key × Value)) (c : Capture),
    Frame c (c.setFields "decision" fields items)
  | [], c => refl c
  | (.other _, _) :: items, c => setFields fields items c
  | (.str key, value) :: items, c => by
    unfold Capture.setFields
    have hbudget : ∀ budget, Frame c { c with safeBudget := budget } := fun _ =>
      ⟨rfl, rfl, rfl, rfl, fun _ _ => rfl, id, id⟩
    split_ifs
    · split
      · exact hbudget _
      · exact ((hbudget _).trans (setField _ key _)).trans (setFields fields items _)
    · exact setFields fields items c

theorem mark {dt : Datetimes} {wallUtc : String} {monotonicNs : ℤ} {name : String} {values : Dict String Value}
    (h : c.frozen = true ∨ c.finished = true) : Frame c (c.mark dt wallUtc monotonicNs name values) := by
  unfold Capture.mark
  by_cases hfinished : c.finished = true
  · rw [if_pos hfinished]
    exact refl c
  · -- the capture is frozen, so only a purchase writes
    have hfrozen : c.frozen = true := h.resolve_right hfinished
    rw [if_neg hfinished]
    split
    · exact refl c
    · rename_i stamp _
      split_ifs with hpurchase htime hsignal
      · exact markPurchase c stamp values
      · exact absurd hfrozen htime.2
      · exact absurd hfrozen hsignal.2.1
      · exact refl c

theorem setSection {name : String} {mapping : Value} (h : c.frozen = true ∨ c.finished = true) :
    Frame c (c.setSection name mapping) := by
  unfold Capture.setSection
  split
  · split_ifs with hfinished hother hperformance
    · exact refl c
    · exact refl c
    · subst hperformance
      exact absurd ⟨h.resolve_right hfinished, by decide⟩ hother
    · have hname : name = "decision" := by
        by_contra hne
        exact hother ⟨h.resolve_right hfinished, hne⟩
      subst hname
      exact setFields _ _ c
  · exact refl c

theorem addCounter {name : String} {amount : Value} (h : c.frozen = true ∨ c.finished = true) :
    c.addCounter name amount = c := by
  unfold Capture.addCounter
  rw [if_neg]
  rintro ⟨hfrozen, hfinished, -⟩
  exact h.elim hfrozen hfinished

theorem duration {name : String} {amount : Value} (h : c.frozen = true ∨ c.finished = true) :
    c.duration name amount = c := by
  unfold Capture.duration
  rw [if_neg]
  rintro ⟨hfrozen, hfinished, -⟩
  exact h.elim hfrozen hfinished

theorem finish (c : Capture) (outcome tradeId eventSeq : Value) : Frame c (c.finish outcome tradeId eventSeq) := by
  unfold Capture.finish
  dsimp only
  set c₁ : Capture := { c with finished := true, frozen := true } with hc₁
  have hfirst : Frame c c₁ := ⟨rfl, rfl, rfl, rfl, fun _ _ => rfl, fun _ => rfl, fun _ => rfl⟩
  by_cases hfinished : c.finished = true
  · rw [if_pos hfinished]
    exact refl c
  · rw [if_neg hfinished]
    split
    · exact hfirst
    · rename_i known _
      have hsecond := hfirst.trans (setField c₁ "outcome" (.str known))
      split
      · exact hsecond.trans ⟨rfl, rfl, rfl, rfl, fun _ _ => rfl, id, id⟩
      · exact hsecond

/-- A call after the decision. -/
theorem after (dt : Datetimes) (hook : Hook) (h : c.frozen = true ∨ c.finished = true) :
    Frame c (c.after dt hook) := by
  cases hook with
  | mark wallUtc monotonicNs name values => exact mark h
  | setSection name mapping => exact setSection h
  | addCounter name amount =>
    show Frame c (c.addCounter name amount)
    rw [addCounter h]
    exact refl c
  | duration name seconds =>
    show Frame c (c.duration name seconds)
    rw [duration h]
    exact refl c
  | finish outcome tradeId eventSeq => exact finish c outcome tradeId eventSeq

/-- What the predictors are made of. -/
theorem predictors (dt : Datetimes) (h : Frame c c') : c'.predictors dt = c.predictors dt := by
  have hstamp : ∀ name, c'.stampOf name = c.stampOf name := fun name => by
    unfold stampOf
    rw [h.timestamps]
  have hsection : ∀ name, name ≠ "decision" → c'.rowSection dt name = c.rowSection dt name := by
    intro name hname
    have hboundary : c'.boundTrajectory dt = c.boundTrajectory dt := by
      funext item
      unfold boundTrajectory boundary
      rw [h.identity]
    unfold rowSection sectionValue
    rw [h.sections name hname, hboundary]
  have hsections : ((sectionFields.map Prod.fst).filter (· ≠ "decision")).mapM
        (fun name => return (name, ← c'.rowSection dt name)) =
      ((sectionFields.map Prod.fst).filter (· ≠ "decision")).mapM
        (fun name => (return (name, ← c.rowSection dt name) : Option (String × Value))) := by
    refine mapM_congr_of_mem fun name hname => ?_
    have hne : name ≠ "decision" := by simpa using (List.mem_filter.1 hname).2
    rw [hsection name hne]
  unfold Capture.predictors
  simp only [hstamp, h.counters, h.durations, hsections]

end Frame

/-! ## Runs -/

/-- The capture after some calls. -/
def Capture.run (dt : Datetimes) (c : Capture) (hooks : List Hook) : Capture := hooks.foldl (Capture.after dt) c

theorem Frame.run (dt : Datetimes) : ∀ (hooks : List Hook) {c : Capture}, c.frozen = true ∨ c.finished = true →
    Frame c (c.run dt hooks)
  | [], c, _ => .refl c
  | hook :: hooks, c, h => by
    have hstep : Frame c (c.after dt hook) := .after dt hook h
    exact hstep.trans (Frame.run dt hooks (h.imp hstep.frozen hstep.finished))

/-- Nothing is written after `finish`. -/
theorem after_finished (dt : Datetimes) {c : Capture} (h : c.finished = true) (hook : Hook) : c.after dt hook = c := by
  cases hook with
  | mark wallUtc monotonicNs name values => exact if_pos h
  | setSection name mapping =>
    show c.setSection name mapping = c
    unfold Capture.setSection
    split
    · exact if_pos h
    · rfl
  | addCounter name amount => exact Frame.addCounter (.inr h)
  | duration name seconds => exact Frame.duration (.inr h)
  | finish outcome tradeId eventSeq => exact if_pos h

theorem run_finished (dt : Datetimes) {c : Capture} (h : c.finished = true) : ∀ hooks : List Hook, c.run dt hooks = c
  | [] => rfl
  | hook :: hooks => by
    show (c.after dt hook).run dt hooks = c
    rw [after_finished dt h hook]
    exact run_finished dt h hooks

/-! ## The row -/

section Row

variable {dt : Datetimes} {r : Recorder} {c : Capture}

/-- Lookup in a dictionary that is written out. -/
theorem get_ofItems_cons (key key' : String) (value : Value) (items : List (String × Value)) :
    (Value.ofItems ((key', value) :: items)).get key = if key' = key then value else (Value.ofItems items).get key := by
  simp only [Value.ofItems, Value.get, List.map_cons, List.find?_cons, Key.str.injEq]
  split_ifs with h
  · rw [decide_eq_true h]
    rfl
  · rw [decide_eq_false h]

/-- Lookup in a dictionary that is computed key by key. -/
theorem get_ofItems_mapM {key : String} {f : String → Option Value} : ∀ {names : List String}
    {items : List (String × Value)}, (names.mapM fun name => return (name, ← f name)) = some items →
    key ∈ names → f key = some ((Value.ofItems items).get key)
  | name :: names, items, h, hkey => by
    rw [List.mapM_cons] at h
    obtain ⟨item, hitem, h⟩ := Option.bind_eq_some_iff.1 h
    obtain ⟨rest, hrest, h⟩ := Option.bind_eq_some_iff.1 h
    obtain rfl := Option.some.inj h
    obtain ⟨value, hvalue, hitem⟩ := Option.bind_eq_some_iff.1 hitem
    obtain rfl := Option.some.inj hitem
    rw [get_ofItems_cons]
    by_cases hname : name = key
    · rw [if_pos hname, ← hname]
      exact hvalue
    · rw [if_neg hname]
      exact get_ofItems_mapM hrest ((List.mem_cons.1 hkey).resolve_left (Ne.symm hname))

theorem row_predictors {row : Value} (h : c.row dt r = some row) : c.predictors dt = some (row.get "predictors") := by
  obtain ⟨predictors, hpredictors, h⟩ := Option.bind_eq_some_iff.1 h
  obtain ⟨⟨decision, outcome⟩, -, h⟩ := Option.bind_eq_some_iff.1 h
  obtain ⟨envelope, henvelope, h⟩ := Option.bind_eq_some_iff.1 h
  obtain ⟨identity, -, h⟩ := Option.bind_eq_some_iff.1 h
  obtain ⟨provenance, -, henvelope⟩ := Option.bind_eq_some_iff.1 henvelope
  obtain rfl := Option.some.inj henvelope
  obtain rfl := Option.some.inj h
  rw [hpredictors]
  simp [get_ofItems_cons, RowKind.schemaField]

/-- The list of a trajectory in a row. -/
def trajectoryOf (row : Value) (key : String) : Value :=
  (((row.get "predictors").get "sections").get "trajectory").get key

/-- A list of the trajectory holds no snapshot later than the signal. -/
theorem boundTrajectory_notLater {item : Key × Value} {key : String} {snapshots : List Value}
    (h : c.boundTrajectory dt item = some (.str key, .list snapshots))
    (hkey : key = "history" ∨ key = "pre_signal_snapshots") :
    ∃ boundary, c.boundary dt = some boundary ∧ ∀ s ∈ snapshots, notLater boundary s = true := by
  unfold boundTrajectory at h
  split at h
  · rename_i key' snapshots'
    split_ifs at h with hlist
    · obtain ⟨boundary, hboundary, h⟩ := Option.map_eq_some_iff.1 h
      cases h
      exact ⟨boundary, hboundary, fun s hs => (List.mem_filter.1 hs).2⟩
    · cases h
      exact absurd hkey hlist
  · rename_i hother
    obtain rfl := Option.some.inj h
    exact absurd rfl (hother _ _)

theorem trajectory_notLater {row : Value} (h : c.row dt r = some row) {key : String}
    (hkey : key = "history" ∨ key = "pre_signal_snapshots") {snapshots : List Value}
    (hlist : trajectoryOf row key = .list snapshots) :
    ∃ boundary, c.boundary dt = some boundary ∧ ∀ s ∈ snapshots, notLater boundary s = true := by
  have hpredictors := row_predictors h
  unfold trajectoryOf at hlist
  generalize row.get "predictors" = predictors at hpredictors hlist
  obtain ⟨timestamps, -, hpredictors⟩ := Option.bind_eq_some_iff.1 hpredictors
  obtain ⟨sections, hsections, hpredictors⟩ := Option.bind_eq_some_iff.1 hpredictors
  obtain ⟨counters, -, hpredictors⟩ := Option.bind_eq_some_iff.1 hpredictors
  obtain ⟨durations, -, hpredictors⟩ := Option.bind_eq_some_iff.1 hpredictors
  obtain rfl := Option.some.inj hpredictors
  have hget : (Value.ofItems [("timestamps", .ofItems timestamps),
      ("timestamp_missing_reason", .str "null means not reached or unavailable in existing flow"),
      ("sections", .ofItems sections), ("counters", .ofItems counters),
      ("durations", .ofItems durations)]).get "sections" = .ofItems sections := by
    simp [get_ofItems_cons]
  rw [hget] at hlist
  have hsection : c.rowSection dt "trajectory" = some ((Value.ofItems sections).get "trajectory") :=
    get_ofItems_mapM hsections (by decide)
  generalize (Value.ofItems sections).get "trajectory" = trajectory at hsection hlist
  obtain ⟨projected, -, hsection⟩ := Option.bind_eq_some_iff.1 hsection
  rw [if_neg (by decide), if_pos rfl] at hsection
  split at hsection
  · rename_i items
    obtain ⟨items', hitems', hsection⟩ := Option.bind_eq_some_iff.1 hsection
    obtain rfl := Option.some.inj hsection
    -- the list under the key is one that was bounded
    obtain ⟨item, -, hitem⟩ := exists_of_mem_results hitems' (Value.mem_of_get hlist nofun)
    exact boundTrajectory_notLater hitem hkey
  · cases hsection

/-- Frozen at the decision: what is called once a capture is frozen or finished leaves the predictors of
its row as they are, after `finish` the whole row, and no trajectory of a row reaches past the signal. -/
theorem telemetry_frozen (dt : Datetimes) (r : Recorder) (c : Capture) (hooks : List Hook) :
    (c.frozen = true ∨ c.finished = true → (c.run dt hooks).predictors dt = c.predictors dt) ∧
      (c.finished = true → (c.run dt hooks).row dt r = c.row dt r) ∧
      ∀ row, (c.run dt hooks).row dt r = some row →
        (c.run dt hooks).predictors dt = some (row.get "predictors") ∧
          ∀ key snapshots, key = "history" ∨ key = "pre_signal_snapshots" →
            trajectoryOf row key = .list snapshots →
            ∃ boundary, (c.run dt hooks).boundary dt = some boundary ∧ ∀ s ∈ snapshots, notLater boundary s = true := by
  refine ⟨fun h => (Frame.run dt hooks h).predictors dt, fun h => by rw [run_finished dt h], fun row hrow => ?_⟩
  exact ⟨row_predictors hrow, fun key snapshots hkey hlist => trajectory_notLater hrow hkey hlist⟩

end Row

/-! ## Calls after a decision -/

/-- Datetimes of one instant. -/
def oneInstant : Datetimes := ⟨fun _ => some (.aware 0), fun _ => "1970-01-01T00:00:00+00:00", fun _ => none⟩

/-- A capture whose entry is decided. -/
def decidedCapture : Capture :=
  (Capture.start ⟨"signal", "mint", "B", "dex_momentum_b", "1970-01-01T00:00:00+00:00", none, none⟩).run oneInstant
    [.mark "1970-01-01T00:00:01+00:00" 1 "quote_buy_received_at" .empty, .addCounter "rpc_attempt_count" (.int 0),
      .mark "1970-01-01T00:00:02+00:00" 2 "entry_decision_at" .empty]

/-- Calls of the RPC, the risk check and the executor that come too late. -/
def lateCalls : List Hook :=
  [.addCounter "rpc_attempt_count" (.int 0), .setSection "scores" (.ofItems [("capped_total", .bool true)]),
    .mark "1970-01-01T00:00:03+00:00" 3 "quote_received_at" .empty, .finish (.str "BUY") (.str "trade") .none]

theorem telemetry_frozen_lateCalls : decidedCapture.frozen = true ∧
    (decidedCapture.run oneInstant lateCalls).predictors oneInstant = decidedCapture.predictors oneInstant := by
  have hfrozen : decidedCapture.frozen = true := by decide +kernel
  exact ⟨hfrozen, (telemetry_frozen oneInstant ⟨.none, .empty, .none⟩ decidedCapture lateCalls).1 (.inl hfrozen)⟩

end Aibot.Telemetry
