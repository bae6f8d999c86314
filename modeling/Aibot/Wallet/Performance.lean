/-
The wallet performance document and the functions that write it under its lock: purchases observed,
paper buys counted, unsafe buys rejected, observations completed, and the status of a wallet set.
Two of them start the cool-down of a wallet.
-/
import Aibot.Lib.Dict
import Aibot.Observation.Row
import Aibot.Risk.Ledger

namespace Aibot.Wallet

open Risk (Mint IsoTime parseTime)
open Observation (strip)

/-! ## Constants -/

def statusActive : String := "ACTIVE"
def statusCoolDown : String := "COOL_DOWN"
def maxReturnPercent : ℚ := 5000
/-- `COOLDOWN_SECONDS`, in microseconds. -/
def cooldownMicros : Int := 86400000000

/-! ## The document -/

abbrev Address := String

/-- Why a cool-down was started. -/
inductive CooldownReason
  | performance (winRate average change : ℚ)
  | repeatedUnsafeTokenPurchases
  deriving DecidableEq, Repr

structure PendingSample where
  observationId : String
  entryPrice : ℚ
  deriving DecidableEq, Repr

structure Sample where
  observationId : String
  returnPercent : ℚ
  deriving DecidableEq, Repr

/-- A row of the document, with the defaults of `wallet_row`. -/
structure WalletRow where
  wins : Nat := 0
  losses : Nat := 0
  samples : List Sample := []
  pending : List PendingSample := []
  processedSignatures : List String := []
  processedCount : Nat := 0
  paperBuySignatures : List String := []
  paperBuyCount : Nat := 0
  safetyBlockSignatures : List String := []
  safetyBlockCount : Nat := 0
  status : String := statusActive
  evicted : Bool := false
  /-- `None` where the row has no such key. -/
  cooldownStartTime : Option IsoTime := none
  cooldownStartedAt : Option IsoTime := none
  cooldownReason : Option CooldownReason := none
  cooldownCompletedAt : Option IsoTime := none
  deriving DecidableEq, Repr

/-- The wallets of the document. -/
abbrev Performance := Dict Address WalletRow

/-- `wallet_is_cooling_down`. -/
def WalletRow.isCoolingDown (row : WalletRow) : Bool := row.status = statusCoolDown

/-- The wallet may not be listed: it is evicted, or it cools down. -/
def unavailable (performance : Performance) (wallet : Address) : Bool :=
  (performance.get? wallet).any fun row => row.evicted || row.isCoolingDown

/-- `sync_pipeline_counts`. -/
def WalletRow.sync (row : WalletRow) : WalletRow :=
  { row with processedCount := max row.processedCount row.processedSignatures.length }

/-- `wallet_row`. -/
def walletRow (performance : Performance) (wallet : Address) : WalletRow :=
  ((performance.get? wallet).getD {}).sync

/-- `items[-n:]`. -/
def lastN {α : Type*} (n : Nat) (items : List α) : List α := items.drop (items.length - n)

section LastN

variable {α : Type*}

theorem lastN_suffix (n : Nat) (items : List α) : lastN n items <:+ items := List.drop_suffix ..

theorem length_lastN (n : Nat) (items : List α) : (lastN n items).length = min n items.length := by
  unfold lastN
  rw [List.length_drop]
  omega

theorem lastN_of_length_le {n : Nat} {items : List α} (h : items.length ≤ n) : lastN n items = items := by
  unfold lastN
  rw [Nat.sub_eq_zero_of_le h, List.drop_zero]

theorem lastN_map {β : Type*} (f : α → β) (n : Nat) (items : List α) :
    lastN n (items.map f) = (lastN n items).map f := by
  unfold lastN
  rw [List.length_map, List.map_drop]

theorem lastN_append_of_le {n : Nat} {xs ys : List α} (h : n ≤ ys.length) : lastN n (xs ++ ys) = lastN n ys := by
  unfold lastN
  rw [List.length_append, List.drop_append, List.drop_of_length_le (by omega), List.nil_append]
  congr 1
  omega

theorem lastN_append_of_ge {n : Nat} {xs ys : List α} (h : ys.length ≤ n) :
    lastN n (xs ++ ys) = lastN (n - ys.length) xs ++ ys := by
  unfold lastN
  rw [List.length_append, List.drop_append, show xs.length + ys.length - n - xs.length = 0 by omega, List.drop_zero,
    show xs.length + ys.length - n = xs.length - (n - ys.length) by omega]

theorem lastN_concat (n : Nat) (xs : List α) (a : α) : lastN (n + 1) (xs ++ [a]) = lastN n xs ++ [a] :=
  lastN_append_of_ge (by simp)

theorem lastN_lastN {m n : Nat} (h : m ≤ n) (xs : List α) : lastN m (lastN n xs) = lastN m xs := by
  unfold lastN
  rw [List.drop_drop, List.length_drop]
  congr 1
  omega

/-- A window of the newest takes one more. -/
theorem lastN_lastN_concat (n : Nat) (xs : List α) (a : α) :
    lastN (n + 1) (lastN (n + 1) xs ++ [a]) = lastN (n + 1) (xs ++ [a]) := by
  rw [lastN_concat, lastN_lastN (Nat.le_succ n), lastN_concat]

end LastN

/-- `capped_return_percent`. -/
def cappedReturnPercent (value : ℚ) : ℚ := min value maxReturnPercent

/-- The average of the capped returns. -/
def WalletRow.averageReturn (row : WalletRow) : ℚ :=
  if row.samples = [] then 0
  else (row.samples.map fun sample => cappedReturnPercent sample.returnPercent).sum / row.samples.length

/-- `wins / total * 100`. -/
def WalletRow.winRate (row : WalletRow) : ℚ :=
  if row.wins + row.losses = 0 then 0 else row.wins / (row.wins + row.losses : Nat) * 100

/-- `round(x, digits)`: to the nearest, a tie to the even digit. -/
def roundTo (digits : Nat) (x : ℚ) : ℚ :=
  let scaled := x * 10 ^ digits
  let down := scaled.floor
  let rest := scaled - down
  let last := if rest < 1 / 2 then down else if 1 / 2 < rest then down + 1
    else if down % 2 = 0 then down else down + 1
  last / 10 ^ digits

/-- `str.upper`, of ASCII letters. -/
def upper (s : String) : String := String.ofList (s.toList.map Char.toUpper)

theorem upper_statusActive : upper statusActive = statusActive := by decide

theorem upper_statusCoolDown : upper statusCoolDown = statusCoolDown := by decide

/-! ## Operations -/

/-- The row starts to cool down. -/
def WalletRow.coolDown (row : WalletRow) (reason : CooldownReason) (now : Int) : WalletRow :=
  { row with
    status := statusCoolDown
    cooldownStartedAt := some (.instant now)
    cooldownReason := some reason
    evicted := false }

/-- `record_paper_buy_success.mutate`. -/
def recordPaperBuySuccess (signature : String) (row : WalletRow) : WalletRow :=
  (if signature ∈ row.paperBuySignatures then row
  else { row with
    paperBuyCount := row.paperBuyCount + 1
    paperBuySignatures := lastN 100 (row.paperBuySignatures ++ [signature]) }).sync

/-- `observe_buy.mutate`, of a purchase with a price. -/
def observeBuy (mint : Mint) (signature : String) (price : ℚ) (row : WalletRow) : WalletRow :=
  let row := if signature ∈ row.processedSignatures then row
    else { row with
      processedCount := row.processedCount + 1
      processedSignatures := lastN 1000 (row.processedSignatures ++ [signature]) }
  let observationId := s!"{signature}:{mint}"
  (if observationId ∈ row.pending.map (·.observationId) ++ row.samples.map (·.observationId) then row
  else { row with pending := row.pending ++ [⟨observationId, price⟩] }).sync

/-- `reject_unsafe_buy.mutate`: the second block starts a cool-down. -/
def rejectUnsafeBuy (mint : Mint) (signature : String) (now : Int) (row : WalletRow) :
    Option CooldownReason × WalletRow :=
  let key := if signature ≠ "unknown" then signature else s!"{mint}:{row.safetyBlockSignatures.length}"
  let row := (if key ∈ row.safetyBlockSignatures then row
    else { row with
      safetyBlockCount := row.safetyBlockCount + 1
      safetyBlockSignatures := lastN 100 (row.safetyBlockSignatures ++ [key]) }).sync
  if 2 ≤ row.safetyBlockCount ∧ ¬ row.isCoolingDown then
    (some .repeatedUnsafeTokenPurchases, row.coolDown .repeatedUnsafeTokenPurchases now)
  else (none, row)

/-- The sample of a completed observation. -/
def WalletRow.completed (row : WalletRow) (target : PendingSample) (change : ℚ) : WalletRow :=
  { row with
    samples := lastN 100 (row.samples ++ [Sample.mk target.observationId (roundTo 2 change)])
    pending := row.pending.eraseP (·.observationId = target.observationId)
    wins := if 0 < change then row.wins + 1 else row.wins
    losses := if 0 < change then row.losses else row.losses + 1 }.sync

/-- The return of a pending observation at a price. -/
def PendingSample.change (target : PendingSample) (currentPrice : ℚ) : ℚ :=
  if target.entryPrice ≠ 0 then (currentPrice / target.entryPrice - 1) * 100 else -100

/-- The performance that a wallet is cooled down for. -/
def WalletRow.underperforms (row : WalletRow) (change : ℚ) : Bool :=
  change ≤ -50 ∨ 3 ≤ row.wins + row.losses ∧ (row.winRate < 35 ∨ row.averageReturn < -20)

/-- `complete_observation.mutate`: a bad return, or a bad record, starts a cool-down. -/
def completeObservation (observationId : String) (currentPrice : ℚ) (now : Int) (row : WalletRow) :
    Option CooldownReason × WalletRow :=
  match row.pending.find? (·.observationId = observationId) with
  | none => (none, row)
  | some target =>
    let change := target.change currentPrice
    let row := row.completed target change
    let reason := CooldownReason.performance row.winRate row.averageReturn change
    if row.underperforms change ∧ ¬ row.isCoolingDown then (some reason, row.coolDown reason now)
    else (none, row)

/-- `skip_observation.mutate`. -/
def skipObservation (observationId : String) (row : WalletRow) : WalletRow :=
  { row with pending := row.pending.eraseP (·.observationId = observationId) }.sync

/-- A call that writes one row. -/
inductive RowOp
  | recordPaperBuySuccess (signature : String)
  | observeBuy (mint : Mint) (signature : String) (price : ℚ)
  | rejectUnsafeBuy (mint : Mint) (signature : String)
  | completeObservation (observationId : String) (currentPrice : ℚ)
  /-- The observation is tried again later. -/
  | failObservation (observationId : String)
  | skipObservation (observationId : String)
  deriving DecidableEq, Repr

/-- What the call does to the row, and why it starts a cool-down. -/
def RowOp.mutate (op : RowOp) (now : Int) (row : WalletRow) : Option CooldownReason × WalletRow :=
  match op with
  | .recordPaperBuySuccess signature => (none, Wallet.recordPaperBuySuccess signature row)
  | .observeBuy mint signature price => (none, Wallet.observeBuy mint signature price row)
  | .rejectUnsafeBuy mint signature => Wallet.rejectUnsafeBuy mint signature now row
  | .completeObservation observationId currentPrice =>
    Wallet.completeObservation observationId currentPrice now row
  | .failObservation _ => (none, row.sync)
  | .skipObservation observationId => (none, Wallet.skipObservation observationId row)

/-- The call on the document. -/
def RowOp.run (op : RowOp) (wallet : Address) (now : Int) (performance : Performance) :
    Option CooldownReason × Performance :=
  let result := op.mutate now (walletRow performance wallet)
  (result.1, performance.set wallet result.2)

inductive StatusError
  | walletAddressEmpty
  | statusInvalid
  deriving DecidableEq, Repr

/-- The row with its status set. -/
def WalletRow.withStatus (row : WalletRow) (status : String) (resetMetrics : Bool)
    (completedAt : Option IsoTime) : WalletRow :=
  let row := { row with status := status }
  let row := if status = statusActive then
      { row with
        cooldownStartedAt := none
        cooldownStartTime := none
        cooldownReason := none
        evicted := false
        cooldownCompletedAt := completedAt <|> row.cooldownCompletedAt }
    else row
  if resetMetrics then { row with wins := 0, losses := 0, samples := [] } else row

/-- `set_wallet_status`: whether there was a row. -/
def setWalletStatus (address status : String) (resetMetrics : Bool) (completedAt : Option IsoTime)
    (performance : Performance) : Except StatusError (Bool × Performance) :=
  let wallet := strip address
  let normalized := upper status
  if wallet = "" then .error .walletAddressEmpty
  else if normalized ≠ statusActive ∧ normalized ≠ statusCoolDown then .error .statusInvalid
  else match performance.get? wallet with
    | none => .ok (false, performance)
    | some row => .ok (true, performance.set wallet (row.withStatus normalized resetMetrics completedAt))

/-- `get_wallets_by_status`. -/
def getWalletsByStatus (status : String) (performance : Performance) : List (Address × WalletRow) :=
  performance.entries.filter fun entry => upper entry.2.status = upper status

/-! ## What an operation does to the status -/

/-- The status, the eviction and the start of the cool-down are kept. -/
structure SameStatus (row row' : WalletRow) : Prop where
  status : row'.status = row.status
  evicted : row'.evicted = row.evicted
  cooldownStartTime : row'.cooldownStartTime = row.cooldownStartTime
  cooldownStartedAt : row'.cooldownStartedAt = row.cooldownStartedAt

theorem SameStatus.trans {a b c : WalletRow} (h : SameStatus a b) (h' : SameStatus b c) : SameStatus a c :=
  ⟨h'.status.trans h.status, h'.evicted.trans h.evicted, h'.cooldownStartTime.trans h.cooldownStartTime,
    h'.cooldownStartedAt.trans h.cooldownStartedAt⟩

/-- A cool-down starts, at `now`, of a wallet that did not cool down. -/
structure CooledDown (now : Int) (row row' : WalletRow) : Prop where
  before : row.isCoolingDown = false
  status : row'.status = statusCoolDown
  cooldownStartTime : row'.cooldownStartTime = row.cooldownStartTime
  cooldownStartedAt : row'.cooldownStartedAt = some (.instant now)

/-- A call keeps the status, or it starts a cool-down and says why. -/
theorem RowOp.mutate_status (op : RowOp) (now : Int) (row : WalletRow) :
    ((op.mutate now row).1 = none ∧ SameStatus row (op.mutate now row).2) ∨
      ((op.mutate now row).1 ≠ none ∧ CooledDown now row (op.mutate now row).2) := by
  cases op with
  | recordPaperBuySuccess signature =>
    refine .inl ⟨rfl, ?_⟩
    simp only [RowOp.mutate, Wallet.recordPaperBuySuccess, WalletRow.sync]
    split_ifs <;> exact ⟨rfl, rfl, rfl, rfl⟩
  | observeBuy mint signature price =>
    refine .inl ⟨rfl, ?_⟩
    simp only [RowOp.mutate, Wallet.observeBuy, WalletRow.sync]
    split_ifs <;> exact ⟨rfl, rfl, rfl, rfl⟩
  | failObservation observationId => exact .inl ⟨rfl, rfl, rfl, rfl, rfl⟩
  | skipObservation observationId => exact .inl ⟨rfl, rfl, rfl, rfl, rfl⟩
  | rejectUnsafeBuy mint signature =>
    simp only [RowOp.mutate, Wallet.rejectUnsafeBuy]
    generalize hkey : (if signature ≠ "unknown" then signature else _) = key
    have hsame : SameStatus row (if key ∈ row.safetyBlockSignatures then row else
        { row with
          safetyBlockCount := row.safetyBlockCount + 1
          safetyBlockSignatures := lastN 100 (row.safetyBlockSignatures ++ [key]) }).sync := by
      by_cases hk : key ∈ row.safetyBlockSignatures
      · rw [if_pos hk]; exact ⟨rfl, rfl, rfl, rfl⟩
      · rw [if_neg hk]; exact ⟨rfl, rfl, rfl, rfl⟩
    generalize (if key ∈ row.safetyBlockSignatures then row else _).sync = blocked at hsame ⊢
    by_cases hc : 2 ≤ blocked.safetyBlockCount ∧ ¬ blocked.isCoolingDown = true
    · rw [if_pos hc]
      refine .inr ⟨by simp, ?_, rfl, hsame.cooldownStartTime, rfl⟩
      have := hc.2
      rw [WalletRow.isCoolingDown, hsame.status] at this
      simpa [WalletRow.isCoolingDown] using this
    · rw [if_neg hc]; exact .inl ⟨rfl, hsame⟩
  | completeObservation observationId currentPrice =>
    simp only [RowOp.mutate, Wallet.completeObservation]
    cases row.pending.find? (·.observationId = observationId) with
    | none => exact .inl ⟨rfl, rfl, rfl, rfl, rfl⟩
    | some target =>
      have hsame : SameStatus row (row.completed target (target.change currentPrice)) := ⟨rfl, rfl, rfl, rfl⟩
      simp only
      generalize row.completed target (target.change currentPrice) = done at hsame ⊢
      by_cases hc : done.underperforms (target.change currentPrice) = true ∧ ¬ done.isCoolingDown = true
      · rw [if_pos hc]
        refine .inr ⟨by simp, ?_, rfl, hsame.cooldownStartTime, rfl⟩
        have := hc.2
        rw [WalletRow.isCoolingDown, hsame.status] at this
        simpa [WalletRow.isCoolingDown] using this
      · rw [if_neg hc]; exact .inl ⟨rfl, hsame⟩

theorem walletRow_status (performance : Performance) (wallet : Address) :
    SameStatus ((performance.get? wallet).getD {}) (walletRow performance wallet) := ⟨rfl, rfl, rfl, rfl⟩

end Aibot.Wallet
