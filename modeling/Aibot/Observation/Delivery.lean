/-
Delivery to the shadow ledger: an executable observation that a batch of the sampler completes has
its trade recorded. It holds in the runs in which no write of a trade that is missing times out; the
retry of a timed-out batch finds its samples applied, and records nothing.
-/
import Aibot.Lib.Run
import Aibot.Observation.Batch

namespace Aibot.Observation

open Aibot.Risk

/-! ## The invariant -/

/-- The snapshots whose side effects are left. -/
def LoopPhase.todo : LoopPhase → List Row
  | .emitting todo _ => todo
  | _ => []

/-- The trades are filed under the ids of their observations. -/
def FiledById (trades : List ShadowTrade) : Prop :=
  ∀ trade ∈ trades, trade.shadowTradeId = trade.observationId

/-- No write of a missing trade times out, and no observation is created with blanks around its id. -/
def recordsMissing (s : Observer) : ObserverAct → Prop
  | .writes op => op.clean
  | .emit locked _ => locked = true ∨ ∀ row ∈ s.phase.todo, row.tradable → s.shadow.Delivered row.observationId
  | _ => True

instance (s : Observer) : (a : ObserverAct) → Decidable (recordsMissing s a)
  | .writes op => inferInstanceAs (Decidable op.clean)
  | .emit locked _ => inferInstanceAs (Decidable (locked = true ∨ _))
  | .markers _ | .backfillReads .. | .backfillWrites _ | .proceed | .retry _ | .batch .. | .scan ..
  | .sample .. => .isTrue trivial

structure DeliveryInv (s : Observer) : Prop where
  rows : Identified s.rows
  trades : FiledById s.shadow.all
  backfills : ∀ b candidates, s.backfills b = some candidates → FiledById candidates
  snapshots : ∀ row ∈ s.phase.todo, strip row.observationId = row.observationId
  /-- The batch stays queued until its side effects are through. -/
  busy : s.phase.todo ≠ [] → s.pendingFinalized ≠ []
  delivered : ∀ id ∈ s.completed, s.shadow.Delivered id ∨
    ∃ row ∈ s.phase.todo, row.observationId = id ∧ row.tradable

section Step

variable {s s' : Observer}

/-- A move of the loop outside the side effects: it counts at most an attempt. -/
structure Quiet (s s' : Observer) : Prop where
  rows : s'.rows = s.rows ∨ ∃ id i, s'.rows = ((ObservationOp.sampleAttempt id i).write s.rows).rows
  shadow : s'.shadow = s.shadow
  backfills : s'.backfills = s.backfills
  completed : s'.completed = s.completed
  before : s.phase.todo = []
  after : s'.phase.todo = []

theorem proceed_quiet (h : s.proceed = some s') : Quiet s s' := by
  unfold Observer.proceed at h
  split at h
  · rename_i hphase
    split at h
    all_goals
      obtain rfl := Option.some.inj h
      exact ⟨.inl rfl, rfl, rfl, rfl, by rw [hphase]; rfl, rfl⟩
  · rename_i hphase
    split_ifs at h
    all_goals
      obtain rfl := Option.some.inj h
      exact ⟨.inl rfl, rfl, rfl, rfl, by rw [hphase]; rfl, rfl⟩
  · rename_i recovered hphase
    split_ifs at h
    obtain rfl := Option.some.inj h
    exact ⟨.inl rfl, rfl, rfl, rfl, by rw [hphase]; rfl, by cases recovered <;> rfl⟩
  · rename_i call hphase
    obtain rfl := Option.some.inj h
    refine ⟨.inl rfl, rfl, rfl, rfl, by rw [hphase]; rfl, ?_⟩
    rcases call with (_ | _) | _ <;> rfl
  · rename_i workers hphase
    split_ifs at h
    dsimp only at h
    split_ifs at h
    all_goals
      obtain rfl := Option.some.inj h
      exact ⟨.inl rfl, rfl, rfl, rfl, by rw [hphase]; rfl, rfl⟩
  · cases h

theorem retry_quiet {locked : Bool} (h : s.retry locked = some s') : Quiet s s' := by
  unfold Observer.retry at h
  split at h
  · rename_i hphase
    split_ifs at h
    · obtain rfl := Option.some.inj h
      exact ⟨.inr ⟨_, _, rfl⟩, rfl, rfl, rfl, by rw [hphase]; rfl, rfl⟩
    · obtain rfl := Option.some.inj h
      exact ⟨.inl rfl, rfl, rfl, rfl, by rw [hphase]; rfl, rfl⟩
  · cases h

theorem scan_quiet {locked : Bool} {now : Int} (h : s.scan locked now = some s') : Quiet s s' := by
  unfold Observer.scan at h
  split at h
  · rename_i hphase
    split_ifs at h
    all_goals
      obtain rfl := Option.some.inj h
      exact ⟨.inl rfl, rfl, rfl, rfl, by rw [hphase]; rfl, rfl⟩
  · cases h

theorem sample_quiet {worker : Nat} {attemptedAt sampledAt : Int} {outcome : QuoteOutcome} {locked : Bool}
    (h : s.sample worker attemptedAt sampledAt outcome locked = some s') : Quiet s s' := by
  unfold Observer.sample at h
  split at h
  · rename_i workers hphase
    split at h
    · split at h
      · obtain rfl := Option.some.inj h
        exact ⟨.inl rfl, rfl, rfl, rfl, by rw [hphase]; rfl, rfl⟩
      · split_ifs at h
        · obtain rfl := Option.some.inj h
          exact ⟨.inr ⟨_, _, rfl⟩, rfl, rfl, rfl, by rw [hphase]; rfl, rfl⟩
        · obtain rfl := Option.some.inj h
          exact ⟨.inl rfl, rfl, rfl, rfl, by rw [hphase]; rfl, rfl⟩
    · cases h
  · cases h

/-- A step that leaves no side effect behind, of snapshots whose trades are not missing. -/
theorem move_inv (hs : DeliveryInv s) (hrows : Identified s'.rows) (hshadow : s'.shadow = s.shadow)
    (hbackfills : s'.backfills = s.backfills) (hcompleted : s'.completed = s.completed)
    (hnone : s'.phase.todo = [])
    (hdone : ∀ row ∈ s.phase.todo, row.tradable → s.shadow.Delivered row.observationId) :
    DeliveryInv s' :=
  { rows := hrows
    trades := by rw [hshadow]; exact hs.trades
    backfills := by rw [hbackfills]; exact hs.backfills
    snapshots := by rw [hnone]; simp
    busy := fun h => absurd hnone h
    delivered := by
      intro id hid
      rw [hcompleted] at hid
      rw [hshadow]
      rcases hs.delivered id hid with hdel | ⟨row, hrow, rfl, htrade⟩
      · exact .inl hdel
      · exact .inl (hdone row hrow htrade) }

theorem Quiet.inv (h : Quiet s s') (hs : DeliveryInv s) : DeliveryInv s' := by
  refine move_inv hs ?_ h.shadow h.backfills h.completed h.after (by rw [h.before]; simp)
  rcases h.rows with hrows | ⟨id, i, hrows⟩
  · rw [hrows]
    exact hs.rows
  · rw [hrows]
    exact hs.rows.write trivial

/-- The rows are written by someone else. -/
theorem rows_inv (hs : DeliveryInv s) {rows : List Row} (hrows : Identified rows) :
    DeliveryInv { s with rows := rows } :=
  ⟨hrows, hs.trades, hs.backfills, hs.snapshots, hs.busy, hs.delivered⟩

/-- A batch, whose completed rows are left to be recorded. -/
theorem batch_inv (hs : DeliveryInv s) {locked : Bool} {now : Int} (h : s.batch locked now = some s') :
    DeliveryInv s' := by
  unfold Observer.batch at h
  split at h
  · rename_i call hphase
    have htodo : s.phase.todo = [] := by rw [hphase]; rfl
    split_ifs at h with hpending hlocked
    · split at h
      · obtain rfl := Option.some.inj h
        exact move_inv hs hs.rows rfl rfl rfl rfl (by rw [htodo]; simp)
      · rename_i applied w hbatch
        obtain rfl := Option.some.inj h
        have htouched : Identified w.touched := by
          have hclean : (ObservationOp.sampleBatch s.pendingFinalized now).clean := trivial
          have htouched := hs.rows.touched hclean
          simp only [ObservationOp.write, hbatch] at htouched
          exact htouched
        refine
          { rows := htouched.sublist w.rows_sublist
            trades := hs.trades
            backfills := hs.backfills
            snapshots := fun row hrow => ?_
            busy := fun _ hnil => hpending (by rw [hnil]; rfl)
            delivered := fun id hid => ?_ }
        · -- a snapshot is a row that the batch writes
          obtain ⟨item, hitem, hsnap⟩ := sampleSideEffects_mem hrow
          rcases recordSampleBatch_cases hbatch with ⟨rfl, -⟩ | ⟨rfl, rfl⟩
          · cases hitem
          · obtain ⟨result, -, hitem⟩ := List.mem_filterMap.1 hitem
            obtain ⟨x, hx, rfl⟩ := Option.map_eq_some_iff.1 hitem
            dsimp only at hsnap
            split_ifs at hsnap
            obtain rfl := Option.some.inj hsnap
            exact (htouched.clean _ (findRow_some hx).1).1
        · rcases List.mem_append.1 hid with hid | hid
          · rcases hs.delivered id hid with hdel | ⟨row, hrow, -⟩
            · exact .inl hdel
            · rw [htodo] at hrow
              cases hrow
          · refine .inr (batch_completes hs.rows.unique (fun row hrow => ?_) hbatch hid)
            obtain ⟨hstrip, hne⟩ := hs.rows.clean row hrow
            rw [hstrip]
            exact hne
    · obtain rfl := Option.some.inj h
      exact move_inv hs hs.rows rfl rfl rfl rfl (by rw [htodo]; simp)
  · cases h

/-- A trade that is recorded is in the ledger, and no other is lost. -/
theorem record_delivers {ledger : ShadowLedger} (hfiled : FiledById ledger.all) {trade : ShadowTrade}
    (hid : trade.shadowTradeId = trade.observationId) :
    FiledById (recordCompletedShadowTrade trade ledger).2.all ∧
      (recordCompletedShadowTrade trade ledger).2.Delivered trade.observationId ∧
      ∀ id, ledger.Delivered id → (recordCompletedShadowTrade trade ledger).2.Delivered id := by
  unfold recordCompletedShadowTrade
  split_ifs with hmem
  · obtain ⟨other, hother, heq⟩ := List.mem_map.1 hmem
    have hall : other ∈ ledger.all := List.mem_append_right _ hother
    exact ⟨hfiled, ⟨other, hall, by rw [← hfiled other hall, heq, hid]⟩, fun _ h => h⟩
  · refine ⟨fun other hother => ?_, ⟨trade, by rw [extend_all]; simp, rfl⟩, fun _ => delivered_extend⟩
    rw [extend_all] at hother
    rcases List.mem_append.1 hother with hother | hother
    · exact hfiled other hother
    · rw [List.mem_singleton.1 hother]
      exact hid

theorem emit_inv (hs : DeliveryInv s) {locked : Bool} {now : Int}
    (hok : locked = true ∨ ∀ row ∈ s.phase.todo, row.tradable → s.shadow.Delivered row.observationId)
    (h : s.emit locked now = some s') : DeliveryInv s' := by
  unfold Observer.emit at h
  split at h
  · rename_i row todo call hphase
    have htodo : s.phase.todo = row :: todo := by rw [hphase]; rfl
    have hbusy : s.pendingFinalized ≠ [] := hs.busy (by rw [htodo]; simp)
    have hsnap : ∀ x ∈ todo, strip x.observationId = x.observationId := fun x hx =>
      hs.snapshots x (by rw [htodo]; exact List.mem_cons_of_mem _ hx)
    split at h
    · -- a snapshot of which no trade is made
      rename_i hnone
      obtain rfl := Option.some.inj h
      refine ⟨hs.rows, hs.trades, hs.backfills, hsnap, fun _ => hbusy, fun id hid => ?_⟩
      rcases hs.delivered id hid with hdel | ⟨x, hx, rfl, htrade⟩
      · exact .inl hdel
      · rw [htodo] at hx
        rcases List.mem_cons.1 hx with rfl | hx
        · unfold completedShadowTrade at hnone
          rw [if_pos htrade] at hnone
          cases hnone
        · exact .inr ⟨x, hx, rfl, htrade⟩
    · rename_i trade hsome
      obtain ⟨-, hid, hshadow⟩ := completedShadowTrade_some hsome
      split_ifs at h with hlocked
      · obtain rfl := Option.some.inj h
        have hstrip := hs.snapshots row (by rw [htodo]; exact List.mem_cons_self)
        obtain ⟨hfiled, hrecorded, hmono⟩ := record_delivers hs.trades (hshadow.trans (hstrip.trans hid.symm))
        refine ⟨hs.rows, hfiled, hs.backfills, hsnap, fun _ => hbusy, fun id hid' => ?_⟩
        rcases hs.delivered id hid' with hdel | ⟨x, hx, rfl, htrade⟩
        · exact .inl (hmono id hdel)
        · rw [htodo] at hx
          rcases List.mem_cons.1 hx with rfl | hx
          · exact .inl (hid ▸ hrecorded)
          · exact .inr ⟨x, hx, rfl, htrade⟩
      · obtain rfl := Option.some.inj h
        exact move_inv hs hs.rows rfl rfl rfl rfl (hok.resolve_left hlocked)
  · cases h

theorem backfillReads_inv (hs : DeliveryInv s) (b : Nat) (existingIds : List ObservationId) (now : Int) :
    DeliveryInv { s with
      backfills := Function.update s.backfills b (some (backfillCandidates s.rows existingIds now)) } := by
  refine ⟨hs.rows, hs.trades, fun b' candidates h => ?_, hs.snapshots, hs.busy, hs.delivered⟩
  replace h : Function.update s.backfills b _ b' = some candidates := h
  rw [Function.update_apply] at h
  split_ifs at h
  · obtain rfl := Option.some.inj h
    intro trade htrade
    obtain ⟨row, hrow, hsome⟩ := List.mem_filterMap.1 htrade
    obtain ⟨-, hid, hshadow⟩ := completedShadowTrade_some hsome
    rw [hid, hshadow]
    exact (hs.rows.clean row (List.mem_of_mem_filter hrow)).1
  · exact hs.backfills b' candidates h

theorem backfillWrites_inv (hs : DeliveryInv s) {b : Nat} {candidates : List ShadowTrade}
    (hb : s.backfills b = some candidates) :
    DeliveryInv { s with
      shadow := (backfillCompletedShadowTrades candidates s.shadow).2
      backfills := Function.update s.backfills b none } := by
  have hback : ∀ b' candidates', Function.update s.backfills b none b' = some candidates' →
      FiledById candidates' := by
    intro b' candidates' h
    rw [Function.update_apply] at h
    split_ifs at h
    exact hs.backfills b' candidates' h
  unfold backfillCompletedShadowTrades
  dsimp only
  split_ifs
  · exact ⟨hs.rows, hs.trades, hback, hs.snapshots, hs.busy, hs.delivered⟩
  · refine ⟨hs.rows, fun trade htrade => ?_, hback, hs.snapshots, hs.busy, fun id hid => ?_⟩
    · replace htrade : trade ∈ (s.shadow.extend _).all := htrade
      rw [extend_all] at htrade
      rcases List.mem_append.1 htrade with htrade | htrade
      · exact hs.trades trade htrade
      · exact hs.backfills b candidates hb trade (List.mem_of_mem_filter htrade)
    · exact (hs.delivered id hid).imp_left delivered_extend

theorem deliveryInv_step {a : ObserverAct} (hs : DeliveryInv s) (hok : recordsMissing s a)
    (h : s.step a = some s') : DeliveryInv s' := by
  cases a with
  | writes op =>
    simp only [Observer.step] at h
    split_ifs at h
    obtain rfl := Option.some.inj h
    exact rows_inv hs (hs.rows.write hok)
  | markers snapshots =>
    obtain rfl := Option.some.inj h
    exact rows_inv hs (hs.rows.markers snapshots)
  | backfillReads b existingIds now =>
    obtain rfl := Option.some.inj h
    exact backfillReads_inv hs b existingIds now
  | backfillWrites b =>
    simp only [Observer.step] at h
    split at h
    · cases h
    · rename_i hb
      obtain rfl := Option.some.inj h
      exact backfillWrites_inv hs hb
  | proceed => exact (proceed_quiet h).inv hs
  | retry locked => exact (retry_quiet h).inv hs
  | batch locked now => exact batch_inv hs h
  | emit locked now => exact emit_inv hs hok h
  | scan locked now => exact (scan_quiet h).inv hs
  | sample worker attemptedAt sampledAt outcome locked => exact (sample_quiet h).inv hs

end Step

theorem deliveryInv_start {rows : List Row} {shadow : ShadowLedger} (hrows : Identified rows)
    (hshadow : FiledById shadow.all) : DeliveryInv (Observer.start rows shadow) :=
  { rows := hrows
    trades := hshadow
    backfills := by rintro b candidates ⟨⟩
    snapshots := by rintro row ⟨⟩
    busy := fun h => absurd rfl h
    delivered := by rintro id ⟨⟩ }

/-! ## Delivery -/

/-- Once the queues are empty, every executable observation that a batch completed has its trade in
the ledger, or had it there. -/
def DeliveredWhenIdle (s : Observer) : Prop :=
  s.pendingFinalized = [] → s.pendingSampleAttempts = [] → ∀ id ∈ s.completed, s.shadow.Delivered id

instance (s : Observer) : Decidable (DeliveredWhenIdle s) := inferInstanceAs (Decidable (_ → _ → _))

/-- Delivery, in every run in which no write of a missing trade times out. -/
theorem completed_delivered {rows : List Row} {shadow : ShadowLedger} (hrows : Identified rows)
    (hshadow : FiledById shadow.all) {acts : List ObserverAct} {s : Observer}
    (h : Run Observer.step recordsMissing (Observer.start rows shadow) acts s) : DeliveredWhenIdle s := by
  have hs : DeliveryInv s :=
    h.invariant (fun _ _ _ hs hok h => deliveryInv_step hs hok h) (deliveryInv_start hrows hshadow)
  intro hfinalized _ id hid
  rcases hs.delivered id hid with hdel | ⟨row, hrow, -⟩
  · exact hdel
  · -- a snapshot that is left keeps its batch queued
    exact absurd hfinalized (hs.busy (List.ne_nil_of_mem hrow))

/-- A tick an hour after a decision, which brings all six samples; only the last is in time. The
side effect of the batch gets its lock, or not. -/
def completingTick (recorded : Bool) : List ObserverAct :=
  let hour : Int := 3600000000
  [.writes (.decision sampleDecision 0), .proceed, .proceed, .scan true hour] ++
    (List.range 6).map (fun worker => .sample worker hour hour (.quoted 1100) true) ++
    [.proceed, .batch true hour, .emit recorded hour]

theorem completed_delivered_recorded : ∃ s,
    Run Observer.step recordsMissing (Observer.start [] ⟨[], []⟩) (completingTick true ++ [.proceed]) s ∧
    (s.completed = [sampleDecision.observationId] ∧ s.pendingFinalized = [] ∧ s.pendingSampleAttempts = []) ∧
    DeliveredWhenIdle s := by
  have hrun : ∃ s,
      Run Observer.step recordsMissing (Observer.start [] ⟨[], []⟩) (completingTick true ++ [.proceed]) s ∧
      (s.completed = [sampleDecision.observationId] ∧ s.pendingFinalized = [] ∧ s.pendingSampleAttempts = []) :=
    Run.exists_of_any (by decide +kernel)
  obtain ⟨s, hrun, hidle⟩ := hrun
  have hrows : Identified [] := by
    constructor
    · exact List.nodup_nil
    · rintro row ⟨⟩
  have hshadow : FiledById (ShadowLedger.all ⟨[], []⟩) := by rintro trade ⟨⟩
  exact ⟨s, hrun, hidle, completed_delivered hrows hshadow hrun⟩

/-- The write of the trade times out, and the retry of the batch finds every sample applied: the
queue is cleared without the trade. -/
theorem undelivered_after_timeout : ∃ s,
    Run Observer.step Run.anyStep (Observer.start [] ⟨[], []⟩)
      (completingTick false ++ [.proceed, .batch true 3615000000, .proceed]) s ∧ ¬ DeliveredWhenIdle s :=
  Run.exists_of_any (by decide +kernel)

end Aibot.Observation
