/-
The recovery of cooled-down wallets: a scan of the performance document, and then one status write
for each wallet whose day is over, interleaved with the calls that start cool-downs and with other
recoveries. A wallet leaves its cool-down a day after the latest start, where each write is about
the cool-down that its scan read.
-/
import Aibot.Lib.Run
import Aibot.Wallet.Performance

namespace Aibot.Wallet

open Risk (Mint IsoTime parseTime)
open Observation (strip)

/-! ## A recovery -/

/-- The start that the recovery reads: `cooldown_start_time`, where the row has one. -/
def WalletRow.recoveryStart (row : WalletRow) : Option Int :=
  (row.cooldownStartTime <|> row.cooldownStartedAt).bind parseTime

/-- The start of the row's cool-down: `cooldown_started_at` is what a cool-down writes. -/
def WalletRow.recordedStart (row : WalletRow) : Option Int :=
  row.cooldownStartedAt.bind parseTime <|> row.cooldownStartTime.bind parseTime

/-- The day of the row is over. -/
def WalletRow.recovers (row : WalletRow) (current : Int) : Bool :=
  row.recoveryStart.any fun started => cooldownMicros ≤ current - started

/-- One turn of the loop of `self_recovery_cooldown_wallets`. -/
def restoreWallet (current : Int) (entry : Address × WalletRow) (performance : Performance) : Performance :=
  if strip entry.1 ≠ "" ∧ entry.2.recovers current then
    match setWalletStatus (strip entry.1) statusActive false (some (.instant current)) performance with
    | .ok (_, restored) => restored
    | .error _ => performance
  else performance

/-- A `self_recovery_cooldown_wallets` after its scan. -/
structure Recovery where
  current : Int
  rows : List (Address × WalletRow)
  /-- When each wallet last started to cool down, at the scan. -/
  startedAtScan : Address → Option Int

structure Quarantine where
  performance : Performance
  clock : Int
  recoveries : Nat → Option Recovery
  /-- When each wallet last started to cool down. -/
  started : Address → Option Int

inductive QuarantineEvent
  | write (op : RowOp) (wallet : Address) (now : Int)
  /-- `current` is read before the scan. -/
  | scan (id : Nat) (current now : Int)
  /-- The next wallet of a recovery; `fails` where its write raises. -/
  | recover (id : Nat) (fails : Bool) (now : Int)
  deriving Repr

namespace Quarantine

/-- Any performance document, and no recovery under way. -/
def initial (performance : Performance) (clock : Int) : Quarantine where
  performance := performance
  clock := clock
  recoveries := fun _ => none
  started := fun wallet => (performance.get? wallet).bind fun row =>
    if upper row.status = statusCoolDown then row.recordedStart else none

def step (s : Quarantine) : QuarantineEvent → Option Quarantine
  | .write op wallet now =>
    if s.clock ≤ now then
      let result := op.run wallet now s.performance
      some { s with
        performance := result.2
        clock := now
        started := if result.1.isSome then Function.update s.started wallet (some now) else s.started }
    else none
  | .scan id current now =>
    if (s.recoveries id).isNone ∧ current ≤ now ∧ s.clock ≤ now then
      some { s with
        clock := now
        recoveries := Function.update s.recoveries id
          (some ⟨current, getWalletsByStatus statusCoolDown s.performance, s.started⟩) }
    else none
  | .recover id fails now =>
    (s.recoveries id).bind fun r =>
      if s.clock ≤ now then
        match r.rows with
        | [] => some { s with clock := now, recoveries := Function.update s.recoveries id none }
        | entry :: rest => some { s with
            performance := if fails then s.performance else restoreWallet r.current entry s.performance
            clock := now
            recoveries := Function.update s.recoveries id (some { r with rows := rest }) }
      else none

/-- A wallet that leaves its cool-down has served a day since it last started. -/
def Served (s t : Quarantine) : Prop :=
  ∀ wallet row row', s.performance.get? wallet = some row → t.performance.get? wallet = some row' →
    row.isCoolingDown = true → row'.isCoolingDown = false →
    ∃ start, s.started wallet = some start ∧ start + cooldownMicros ≤ t.clock

/-- The write is about the cool-down of its scan: the key is the wallet's, no cool-down of the wallet
has started since, and the day of `cooldown_started_at` is over as well. -/
def current (s : Quarantine) (r : Recovery) (entry : Address × WalletRow) : Prop :=
  strip entry.1 = entry.1 ∧ s.started entry.1 = r.startedAtScan entry.1 ∧
    ∀ start ∈ entry.2.recordedStart, start + cooldownMicros ≤ r.current

/-- Every wallet that is restored is restored from its current cool-down. -/
def timely (s : Quarantine) : QuarantineEvent → Prop
  | .recover id false _ => ∀ r ∈ s.recoveries id, ∀ entry ∈ r.rows.head?,
      entry.2.recovers r.current = true → s.current r entry
  | _ => True

section Decidable

variable (s : Quarantine) (r : Recovery) (entry : Address × WalletRow)

instance : Decidable (s.current r entry) := inferInstanceAs (Decidable (_ ∧ _))

instance : ∀ e, Decidable (s.timely e)
  | .recover id false _ => inferInstanceAs (Decidable (∀ r ∈ s.recoveries id, ∀ entry ∈ r.rows.head?, _))
  | .recover _ true _ => .isTrue trivial
  | .write .. => .isTrue trivial
  | .scan .. => .isTrue trivial

end Decidable

/-! ## The invariant -/

/-- The start in a row that cools down is the latest one, and so it was for the rows of a scan. -/
structure Inv (s : Quarantine) : Prop where
  started : ∀ wallet row, s.performance.get? wallet = some row → upper row.status = statusCoolDown →
    s.started wallet = row.recordedStart
  scanned : ∀ id r, s.recoveries id = some r → ∀ entry ∈ r.rows, r.startedAtScan entry.1 = entry.2.recordedStart
  current : ∀ id r, s.recoveries id = some r → r.current ≤ s.clock

theorem initial_inv (performance : Performance) (clock : Int) : Inv (initial performance clock) where
  started := fun wallet row hrow hs => by
    show ((performance.get? wallet).bind _) = _
    rw [show performance.get? wallet = some row from hrow]
    exact if_pos hs
  scanned := fun _ _ h => by cases h
  current := fun _ _ h => by cases h

end Quarantine

theorem SameStatus.recordedStart {row row' : WalletRow} (h : SameStatus row row') :
    row'.recordedStart = row.recordedStart := by
  unfold WalletRow.recordedStart
  rw [h.cooldownStartedAt, h.cooldownStartTime]

theorem CooledDown.recordedStart {now : Int} {row row' : WalletRow} (h : CooledDown now row row') :
    row'.recordedStart = some now := by
  unfold WalletRow.recordedStart
  rw [h.cooldownStartedAt]; rfl

/-- A row that recovers has a start on record. -/
theorem WalletRow.recordedStart_of_recovers {row : WalletRow} {current : Int}
    (h : row.recovers current = true) : ∃ start, row.recordedStart = some start := by
  obtain ⟨start, hs, -⟩ := (Option.any_eq_true _ _).1 h
  unfold recoveryStart at hs
  unfold recordedStart
  cases ha : row.cooldownStartedAt.bind parseTime with
  | some t => exact ⟨t, rfl⟩
  | none =>
    cases hb : row.cooldownStartTime with
    | none => rw [hb] at hs; rw [show row.cooldownStartedAt.bind parseTime = some start from hs] at ha; cases ha
    | some t => rw [hb] at hs; exact ⟨start, hs⟩

/-- What a turn of the recovery does to a wallet: it is restored, where the scanned row is its own
and recovers, or its row is kept. -/
theorem restoreWallet_cases (current : Int) (entry : Address × WalletRow) (performance : Performance)
    (wallet : Address) :
    (restoreWallet current entry performance).get? wallet = performance.get? wallet ∨
      strip (strip entry.1) = wallet ∧ entry.2.recovers current = true ∧
        ∃ row row', performance.get? wallet = some row ∧
          (restoreWallet current entry performance).get? wallet = some row' ∧ row'.status = statusActive := by
  unfold restoreWallet
  by_cases hd : strip entry.1 ≠ "" ∧ entry.2.recovers current
  · rw [if_pos hd]
    unfold setWalletStatus
    by_cases h1 : strip (strip entry.1) = ""
    · simp only [if_pos h1]; exact .inl trivial
    simp only [if_neg h1]
    rw [if_neg (by rw [upper_statusActive]; exact fun h => h.1 rfl)]
    cases hrow : performance.get? (strip (strip entry.1)) with
    | none => exact .inl rfl
    | some row =>
      by_cases hw : wallet = strip (strip entry.1)
      · subst hw
        exact .inr ⟨rfl, hd.2, row, _, hrow, Dict.get?_set_self .., upper_statusActive⟩
      · exact .inl (Dict.get?_set_of_ne _ _ hw)
  · rw [if_neg hd]; exact .inl rfl

namespace Quarantine

/-! ## Steps -/

/-- A call on one row: every other wallet is untouched, and the row keeps its status or cools down. -/
theorem write_cases {s : Quarantine} {op : RowOp} {wallet : Address} {now : Int} {t : Quarantine}
    (h : s.step (.write op wallet now) = some t) :
    s.clock ≤ t.clock ∧ t.recoveries = s.recoveries ∧
      (∀ w, w ≠ wallet → t.performance.get? w = s.performance.get? w ∧ t.started w = s.started w) ∧
      ∃ row', t.performance.get? wallet = some row' ∧
        (SameStatus ((s.performance.get? wallet).getD {}) row' ∧ t.started = s.started ∨
          CooledDown now ((s.performance.get? wallet).getD {}) row' ∧ t.started wallet = some now) := by
  simp only [step, Option.ite_none_right_eq_some, Option.some.injEq] at h
  obtain ⟨hclock, rfl⟩ := h
  refine ⟨hclock, rfl, fun w hw => ⟨Dict.get?_set_of_ne _ _ hw, ?_⟩, _, Dict.get?_set_self .., ?_⟩
  · show (if _ then Function.update s.started wallet (some now) else s.started) w = _
    split_ifs
    · exact Function.update_of_ne hw _ _
    · rfl
  · rcases op.mutate_status now (walletRow s.performance wallet) with ⟨hnone, hsame⟩ | ⟨hsome, hcooled⟩
    · exact .inl ⟨(walletRow_status s.performance wallet).trans hsame,
        if_neg fun hs => Option.isSome_iff_ne_none.1 hs hnone⟩
    · refine .inr ⟨⟨hcooled.before, hcooled.status, hcooled.cooldownStartTime, hcooled.cooldownStartedAt⟩, ?_⟩
      have hrun : (op.run wallet now s.performance).1.isSome = true := Option.isSome_iff_ne_none.2 hsome
      show (if _ then Function.update s.started wallet (some now) else s.started) wallet = _
      rw [if_pos hrun, Function.update_self]

/-- A scan: the rows that cool down, and the starts behind them. -/
theorem scan_cases {s : Quarantine} {id : Nat} {current now : Int} {t : Quarantine}
    (h : s.step (.scan id current now) = some t) :
    s.clock ≤ t.clock ∧ current ≤ t.clock ∧ t.performance = s.performance ∧ t.started = s.started ∧
      t.recoveries = Function.update s.recoveries id
        (some ⟨current, getWalletsByStatus statusCoolDown s.performance, s.started⟩) := by
  simp only [step, Option.ite_none_right_eq_some, Option.some.injEq] at h
  obtain ⟨⟨-, hcurrent, hclock⟩, rfl⟩ := h
  exact ⟨hclock, hcurrent, rfl, rfl, rfl⟩

/-- A turn of a recovery: it has ended, or it goes on with the next row. -/
theorem recover_cases {s : Quarantine} {id : Nat} {fails : Bool} {now : Int} {t : Quarantine}
    (h : s.step (.recover id fails now) = some t) :
    s.clock ≤ t.clock ∧ t.started = s.started ∧ ∃ r, s.recoveries id = some r ∧
      (t.performance = s.performance ∧ t.recoveries = Function.update s.recoveries id none ∨
        ∃ entry rest, r.rows = entry :: rest ∧
          t.recoveries = Function.update s.recoveries id (some { r with rows := rest }) ∧
          t.performance = if fails then s.performance else restoreWallet r.current entry s.performance) := by
  simp only [step, Option.bind_eq_some_iff, Option.ite_none_right_eq_some] at h
  obtain ⟨r, hr, hclock, h⟩ := h
  cases hrows : r.rows with
  | nil =>
    rw [hrows] at h
    obtain rfl := Option.some.inj h
    exact ⟨hclock, rfl, r, hr, .inl ⟨rfl, rfl⟩⟩
  | cons entry rest =>
    rw [hrows] at h
    obtain rfl := Option.some.inj h
    exact ⟨hclock, rfl, r, hr, .inr ⟨entry, rest, hrows, rfl, rfl⟩⟩

/-- A restored wallet has left its cool-down, so its start is no concern. -/
theorem started_restore {s : Quarantine} (h : Inv s) (current : Int) (entry : Address × WalletRow)
    {wallet : Address} {row : WalletRow} (hrow : (restoreWallet current entry s.performance).get? wallet = some row)
    (hs : upper row.status = statusCoolDown) : s.started wallet = row.recordedStart := by
  rcases restoreWallet_cases current entry s.performance wallet with hkept | ⟨-, -, _, row', -, hrow', hactive⟩
  · rw [hkept] at hrow; exact h.started wallet row hrow hs
  · obtain rfl := Option.some.inj (hrow.symm.trans hrow')
    rw [hactive, upper_statusActive] at hs
    exact absurd hs (by decide)

/-- Every step keeps the invariant. -/
theorem Inv.step {s t : Quarantine} {e : QuarantineEvent} (h : Inv s) (ht : s.step e = some t) : Inv t := by
  cases e with
  | write op wallet now =>
    obtain ⟨hclock, hrec, hother, row', hrow', hown⟩ := write_cases ht
    refine ⟨fun w row hrow hs => ?_, fun id r hr => ?_, fun id r hr => ?_⟩
    · by_cases hw : w = wallet
      · subst hw
        obtain rfl := Option.some.inj (hrow.symm.trans hrow')
        rcases hown with ⟨hsame, hstarted⟩ | ⟨hcooled, hstarted⟩
        · rw [hstarted, hsame.recordedStart]
          cases hold : s.performance.get? w with
          | none =>
            rw [hold] at hsame
            rw [hsame.status] at hs
            exact absurd (upper_statusActive.symm.trans hs) (by decide)
          | some old =>
            rw [hold] at hsame
            have hstatus : row.status = old.status := hsame.status
            exact h.started w old hold (hstatus ▸ hs)
        · rw [hstarted, hcooled.recordedStart]
      · obtain ⟨hget, hstarted⟩ := hother w hw
        rw [hstarted]
        exact h.started w row (hget ▸ hrow) hs
    · rw [hrec] at hr; exact h.scanned id r hr
    · rw [hrec] at hr; exact (h.current id r hr).trans hclock
  | scan id current now =>
    obtain ⟨hclock, hcurrent, hperf, hstarted, hrec⟩ := scan_cases ht
    refine ⟨fun w row hrow hs => ?_, fun j r hr => ?_, fun j r hr => ?_⟩
    · rw [hstarted]; exact h.started w row (hperf ▸ hrow) hs
    · rw [hrec] at hr
      rcases update_eq_some hr with ⟨-, he⟩ | ⟨-, hr⟩
      · -- the rows of a new scan are in their cool-down now
        obtain rfl := Option.some.inj he
        intro entry hentry
        obtain ⟨hmem, hs⟩ := List.mem_filter.1 hentry
        refine h.started entry.1 entry.2 (Dict.get?_eq_some.2 hmem) ?_
        rw [← upper_statusCoolDown]; exact of_decide_eq_true hs
      · exact h.scanned j r hr
    · rw [hrec] at hr
      rcases update_eq_some hr with ⟨-, he⟩ | ⟨-, hr⟩
      · obtain rfl := Option.some.inj he
        exact hcurrent
      · exact (h.current j r hr).trans hclock
  | recover id fails now =>
    obtain ⟨hclock, hstarted, r, hr, ⟨hperf, hrec⟩ | ⟨entry, rest, hrows, hrec, hperf⟩⟩ := recover_cases ht
    · refine ⟨?_, fun j r' hr' => ?_, fun j r' hr' => ?_⟩
      · rw [hperf, hstarted]; exact h.started
      · rw [hrec] at hr'
        rcases update_eq_some hr' with ⟨-, he⟩ | ⟨-, hr'⟩
        · cases he
        · exact h.scanned j r' hr'
      · rw [hrec] at hr'
        rcases update_eq_some hr' with ⟨-, he⟩ | ⟨-, hr'⟩
        · cases he
        · exact (h.current j r' hr').trans hclock
    · refine ⟨fun w row hrow hs => ?_, fun j r' hr' => ?_, fun j r' hr' => ?_⟩
      · rw [hstarted]
        rw [hperf] at hrow
        cases fails with
        | true => exact h.started w row hrow hs
        | false => exact started_restore h r.current entry hrow hs
      · rw [hrec] at hr'
        rcases update_eq_some hr' with ⟨-, he⟩ | ⟨-, hr'⟩
        · -- what is left of a scan is a part of it
          obtain rfl := Option.some.inj he
          exact fun e hmem => h.scanned id r hr e (hrows ▸ List.mem_cons_of_mem _ hmem)
        · exact h.scanned j r' hr'
      · rw [hrec] at hr'
        rcases update_eq_some hr' with ⟨-, he⟩ | ⟨-, hr'⟩
        · obtain rfl := Option.some.inj he
          exact (h.current id r hr).trans hclock
        · exact (h.current j r' hr').trans hclock

theorem run_inv {performance : Performance} {clock : Int} {events : List QuarantineEvent} {ok} {s : Quarantine}
    (h : Run step ok (initial performance clock) events s) : Inv s :=
  h.invariant (fun _ _ _ hs _ hstep => hs.step hstep) (initial_inv performance clock)

/-! ## A day is served -/

/-- Where every restored wallet is restored from its current cool-down, a wallet leaves its cool-down
a day after the latest start. -/
theorem timely_served (performance : Performance) (clock : Int) (events : List QuarantineEvent)
    (s t : Quarantine) (e : QuarantineEvent) (h : Run step timely (initial performance clock) events s)
    (htimely : s.timely e) (hstep : s.step e = some t) : Served s t := by
  intro wallet row row' hrow hrow' hcool hactive
  have hinv := run_inv h
  cases e with
  | write op w now =>
    obtain ⟨-, -, hother, row₁, hrow₁, hown⟩ := write_cases hstep
    by_cases hw : wallet = w
    · subst hw
      obtain rfl := Option.some.inj (hrow'.symm.trans hrow₁)
      rw [hrow] at hown
      rcases hown with ⟨hsame, -⟩ | ⟨hcooled, -⟩
      · rw [WalletRow.isCoolingDown, hsame.status] at hactive
        exact absurd (hcool.symm.trans hactive) (by simp)
      · exact absurd (hcool.symm.trans hcooled.before) (by simp)
    · rw [(hother wallet hw).1, hrow] at hrow'
      obtain rfl := Option.some.inj hrow'
      exact absurd (hcool.symm.trans hactive) (by simp)
  | scan id current now =>
    obtain ⟨-, -, hperf, -⟩ := scan_cases hstep
    rw [hperf, hrow] at hrow'
    obtain rfl := Option.some.inj hrow'
    exact absurd (hcool.symm.trans hactive) (by simp)
  | recover id fails now =>
    obtain ⟨hclock, -, r, hr, ⟨hperf, -⟩ | ⟨entry, rest, hrows, -, hperf⟩⟩ := recover_cases hstep
    · rw [hperf, hrow] at hrow'
      obtain rfl := Option.some.inj hrow'
      exact absurd (hcool.symm.trans hactive) (by simp)
    cases fails with
    | true =>
      rw [hperf, if_pos rfl, hrow] at hrow'
      obtain rfl := Option.some.inj hrow'
      exact absurd (hcool.symm.trans hactive) (by simp)
    | false =>
      rw [hperf, if_neg Bool.false_ne_true] at hrow'
      rcases restoreWallet_cases r.current entry s.performance wallet with hkept | ⟨hkey, hdue, -⟩
      · rw [hkept, hrow] at hrow'
        obtain rfl := Option.some.inj hrow'
        exact absurd (hcool.symm.trans hactive) (by simp)
      · -- the restored wallet is the scanned one, and its latest start is the scanned row's
        obtain ⟨hstrip, hstarted, hday⟩ := htimely r hr entry (by rw [hrows]; rfl) hdue
        rw [hstrip, hstrip] at hkey
        subst hkey
        obtain ⟨start, hstart⟩ := WalletRow.recordedStart_of_recovers hdue
        refine ⟨start, ?_, (hday start hstart).trans ((hinv.current id r hr).trans hclock)⟩
        rw [hstarted, hinv.scanned id r hr entry (by rw [hrows]; exact List.mem_cons_self), hstart]

/-- A wallet that cooled down at 0 is restored a day later. -/
theorem timely_served_day : ∃ s t, Served s t ∧ s.started "wallet" = some 0 ∧ t.clock = cooldownMicros ∧
    (t.performance.get? "wallet").map (·.status) = some statusActive := by
  obtain ⟨s, hs, hstarted, t, ht, htimely, hclock, hstatus⟩ : ∃ s, Run step timely (initial Dict.empty 0)
      [.write (.rejectUnsafeBuy "mint" "first") "wallet" 0, .write (.rejectUnsafeBuy "mint" "second") "wallet" 0,
        .scan 0 cooldownMicros cooldownMicros] s ∧ s.started "wallet" = some 0 ∧
      ∃ t ∈ s.step (.recover 0 false cooldownMicros), s.timely (.recover 0 false cooldownMicros) ∧
        t.clock = cooldownMicros ∧ (t.performance.get? "wallet").map (·.status) = some statusActive :=
    Run.exists_of_any (by decide +kernel)
  exact ⟨s, t, timely_served _ _ _ s t _ hs htimely ht, hstarted, hclock, hstatus⟩

/-- Two recoveries scan a wallet whose day is over, and the second writes after the wallet has cooled
down anew: it is restored a second into its cool-down. -/
theorem restored_at_once : ¬ ∀ (performance : Performance) (clock : Int) (events : List QuarantineEvent)
    (s t : Quarantine) (e : QuarantineEvent), Run step Run.anyStep (initial performance clock) events s →
      s.step e = some t → Served s t := by
  intro hall
  obtain ⟨s, hs, hbefore, t, ht, hafter⟩ : ∃ s, Run step Run.anyStep (initial Dict.empty 0)
      [.write (.rejectUnsafeBuy "mint" "first") "wallet" 0, .write (.rejectUnsafeBuy "mint" "second") "wallet" 0,
        .scan 0 cooldownMicros cooldownMicros, .scan 1 cooldownMicros cooldownMicros,
        .recover 0 false cooldownMicros,
        .write (.rejectUnsafeBuy "mint" "third") "wallet" cooldownMicros] s ∧
      (s.started "wallet", (s.performance.get? "wallet").map (·.isCoolingDown)) =
        (some cooldownMicros, some true) ∧
      ∃ t ∈ s.step (.recover 1 false 86401000000),
        ((t.performance.get? "wallet").map (·.isCoolingDown), t.clock) =
          (some false, 86401000000) :=
    Run.exists_of_any (by decide +kernel)
  obtain ⟨hstarted, hcool⟩ := Prod.mk.inj hbefore
  obtain ⟨hactive, hclock⟩ := Prod.mk.inj hafter
  obtain ⟨row, hrow, hcool⟩ := Option.map_eq_some_iff.1 hcool
  obtain ⟨row', hrow', hactive⟩ := Option.map_eq_some_iff.1 hactive
  obtain ⟨start, hstart, hday⟩ := hall _ _ _ s t _ hs ht "wallet" row row' hrow hrow' hcool hactive
  obtain rfl := Option.some.inj (hstarted.symm.trans hstart)
  rw [hclock] at hday
  exact absurd hday (by decide)

end Quarantine

end Aibot.Wallet
