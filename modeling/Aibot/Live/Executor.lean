/-
The live executor as far as a sell goes: `execute_sell`, `execute_live_swap` and
`wait_for_bundle`, over what the wallet, the quote service and the block engine answer.
-/
import Aibot.Risk.Ledger

namespace Aibot.Live

open Aibot.Risk

/-! ## Waiting for the bundle -/

/-- One answer of `getBundleStatuses`. -/
inductive BundlePoll
  /-- No status yet, or one that is neither failed nor confirmed. -/
  | pending
  | failed (err : String)
  | confirmed (confirmation : String)
  /-- The call raises; a timeout is a `TimeoutError` too. -/
  | raises (isTimeout : Bool) (error : String)

/-- How `wait_for_bundle` raises. -/
inductive BundleError
  | timeout (message : String)
  | failure (message : String)

/-- `wait_for_bundle`: the polls until the deadline. -/
def waitForBundle : List BundlePoll → Except BundleError String
  | [] => .error
      (.timeout "bundle landing is unconfirmed; do not resubmit until signature history is checked")
  | .pending :: polls => waitForBundle polls
  | .failed err :: _ => .error (.failure ("Jito bundle failed: " ++ err))
  | .confirmed confirmation :: _ => .ok confirmation
  | .raises isTimeout error :: _ => .error (if isTimeout then .timeout error else .failure error)

/-! ## One swap -/

inductive ExecutionStatus
  | failed
  | landed
  | unknown
  /-- `paper_sell_…`: the process is not in live mode. -/
  | paperSell
  deriving DecidableEq, Repr

/-- What `run_risk_loop` and its caller read of an `ExecutionResult`. -/
structure ExecutionResult where
  submitted : Bool
  landed : Bool
  mint : Mint
  inputLamports : Int
  bundleId : Option String
  signature : Option String
  status : ExecutionStatus
  lifecycle : List LifecycleItem
  deriving DecidableEq

/-- What a swap meets on its way, and the clock readings of its lifecycle events. -/
structure SwapInput where
  tip : Except String Int
  build : Except String String
  /-- Signing, simulation and the compute-unit limit: the signature of the tuned transaction. -/
  simulation : Except String String
  send : Except String String
  polls : List BundlePoll
  builtAt : IsoTime
  simulatedAt : IsoTime
  submittedAt : IsoTime
  endedAt : IsoTime

/-- `execute_live_swap`. -/
def executeLiveSwap (i : SwapInput) (mint : Mint) (inputAmount : Int) : Except String ExecutionResult :=
  i.tip.bind fun _ => i.build.bind fun _ =>
    let built := [LifecycleItem.mk "BUILT" i.builtAt]
    match i.simulation with
    | .error _ =>
      .ok ⟨false, false, mint, inputAmount, none, none, .failed, built ++ [⟨"FAILED", i.endedAt⟩]⟩
    | .ok signature =>
      let simulated := built ++ [⟨"SIMULATED", i.simulatedAt⟩]
      match i.send with
      | .error _ =>
        .ok ⟨false, false, mint, inputAmount, none, some signature, .failed,
          simulated ++ [⟨"FAILED", i.endedAt⟩]⟩
      | .ok bundleId =>
        let submitted := simulated ++ [⟨"SUBMITTED", i.submittedAt⟩]
        match waitForBundle i.polls with
        | .ok _ =>
          .ok ⟨true, true, mint, inputAmount, some bundleId, some signature, .landed,
            submitted ++ [⟨"LANDED", i.endedAt⟩]⟩
        | .error (.timeout _) =>
          .ok ⟨true, false, mint, inputAmount, some bundleId, some signature, .unknown,
            submitted ++ [⟨"UNKNOWN", i.endedAt⟩]⟩
        | .error (.failure _) =>
          .ok ⟨true, false, mint, inputAmount, some bundleId, some signature, .failed,
            submitted ++ [⟨"FAILED", i.endedAt⟩]⟩

/-! ## Selling -/

/-- What a sell meets: the trading mode, the wallet checks, the token balance and the quote. -/
structure SellInput where
  isLive : Bool
  wallet : Except String Unit
  tokenBalance : Except String Int
  quote : Except String Int
  swap : SwapInput

/-- `execute_sell`. -/
def executeSell (i : SellInput) (mint : Mint) (percent : Int) : Except String ExecutionResult :=
  if percent ≠ 50 ∧ percent ≠ 100 then .error "risk exits may sell only 50% or 100%"
  else if ¬ i.isLive then .ok ⟨false, false, mint, 0, none, none, .paperSell, []⟩
  else i.wallet.bind fun _ => i.tokenBalance.bind fun balance =>
    let amount := if percent = 100 then balance else balance.fdiv 2
    if amount ≤ 0 then .error "no token balance available to sell"
    else i.quote.bind fun _ => executeLiveSwap i.swap mint amount

/-! ## What a result says -/

theorem bind_ok {ε α β : Type*} {x : Except ε α} {f : α → Except ε β} {b : β} (h : x.bind f = .ok b) :
    ∃ a, x = .ok a ∧ f a = .ok b := by
  cases x with
  | error e => cases h
  | ok a => exact ⟨a, rfl, h⟩

/-- The flags of a result agree with its status. -/
structure ExecutionResult.Consistent (r : ExecutionResult) : Prop where
  /-- `UNKNOWN`: submitted, and the landing is unconfirmed. -/
  unknown : r.status = .unknown → r.submitted = true ∧ r.landed = false
  landed : r.landed = true ↔ r.status = .landed
  submitted : r.landed = true → r.submitted = true

theorem executeLiveSwap_consistent {i : SwapInput} {mint : Mint} {amount : Int} {r : ExecutionResult}
    (h : executeLiveSwap i mint amount = .ok r) : r.Consistent := by
  obtain ⟨tip, -, h⟩ := bind_ok h
  obtain ⟨built, -, h⟩ := bind_ok h
  simp only at h
  split at h
  · cases h; exact ⟨by simp, by simp, by simp⟩
  · split at h
    · cases h; exact ⟨by simp, by simp, by simp⟩
    · split at h <;> cases h <;> exact ⟨by simp, by simp, by simp⟩

theorem executeSell_consistent {i : SellInput} {mint : Mint} {percent : Int} {r : ExecutionResult}
    (h : executeSell i mint percent = .ok r) : r.Consistent := by
  unfold executeSell at h
  split at h
  · cases h
  · split at h
    · cases h; exact ⟨by simp, by simp, by simp⟩
    · obtain ⟨wallet, -, h⟩ := bind_ok h
      obtain ⟨balance, -, h⟩ := bind_ok h
      simp only at h
      generalize (if percent = 100 then balance else balance.fdiv 2) = amount at h
      split at h
      · cases h
      · obtain ⟨quote, -, h⟩ := bind_ok h
        exact executeLiveSwap_consistent h

end Aibot.Live
