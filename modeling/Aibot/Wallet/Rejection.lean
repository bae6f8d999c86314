/-
A rejection of an unsafe purchase that is recorded again. It counts once while its signature is among
the last hundred; but the block count is never reset, and every call asks it whether the wallet is to
cool down.
-/
import Aibot.Wallet.Recovery

namespace Aibot.Wallet

open Risk (Mint)

/-- The call changes neither the block count nor the status of the wallet. -/
def Harmless (op : RowOp) (wallet : Address) (now : Int) (performance : Performance) : Prop :=
  let row := walletRow performance wallet
  let row' := walletRow (op.run wallet now performance).2 wallet
  row'.safetyBlockCount = row.safetyBlockCount ∧ row'.status = row.status

/-- The signature is among the wallet's last hundred rejections that counted, and there are fewer than
two of these or the wallet cools down already. -/
def Remembered (signature : String) (row : WalletRow) : Prop :=
  signature ∈ row.safetyBlockSignatures ∧ (row.safetyBlockCount < 2 ∨ row.isCoolingDown = true)

instance (op : RowOp) (wallet : Address) (now : Int) (performance : Performance) :
    Decidable (Harmless op wallet now performance) :=
  inferInstanceAs (Decidable (_ ∧ _))

instance (signature : String) (row : WalletRow) : Decidable (Remembered signature row) :=
  inferInstanceAs (Decidable (_ ∧ _))

theorem walletRow_run (op : RowOp) (wallet : Address) (now : Int) (performance : Performance) :
    walletRow (op.run wallet now performance).2 wallet = (op.mutate now (walletRow performance wallet)).2.sync := by
  unfold walletRow RowOp.run
  rw [Dict.get?_set_self]
  rfl

@[simp] theorem sync_status (row : WalletRow) : row.sync.status = row.status := rfl

@[simp] theorem sync_safetyBlockCount (row : WalletRow) : row.sync.safetyBlockCount = row.safetyBlockCount := rfl

section Rejection

variable {row : WalletRow} (mint : Mint) {signature : String} (now : Int)

/-- A signature that is still in the window is not counted again. -/
theorem rejectUnsafeBuy_of_mem (hsignature : signature ≠ "unknown") (h : signature ∈ row.safetyBlockSignatures) :
    (rejectUnsafeBuy mint signature now row).2.safetyBlockCount = row.safetyBlockCount ∧
      (rejectUnsafeBuy mint signature now row).2.status =
        if 2 ≤ row.safetyBlockCount ∧ ¬ row.isCoolingDown = true then statusCoolDown else row.status := by
  unfold rejectUnsafeBuy
  rw [if_pos hsignature]
  dsimp only
  rw [if_pos h]
  by_cases hcool : 2 ≤ row.safetyBlockCount ∧ ¬ row.isCoolingDown = true
  · have hsync : 2 ≤ row.sync.safetyBlockCount ∧ ¬ row.sync.isCoolingDown = true := hcool
    rw [if_pos hsync, if_pos hcool]
    exact ⟨rfl, rfl⟩
  · have hsync : ¬ (2 ≤ row.sync.safetyBlockCount ∧ ¬ row.sync.isCoolingDown = true) := hcool
    rw [if_neg hsync, if_neg hcool]
    exact ⟨rfl, rfl⟩

/-- One that has left the window counts once more. -/
theorem rejectUnsafeBuy_of_not_mem (hsignature : signature ≠ "unknown") (h : signature ∉ row.safetyBlockSignatures) :
    (rejectUnsafeBuy mint signature now row).2.safetyBlockCount = row.safetyBlockCount + 1 := by
  unfold rejectUnsafeBuy
  rw [if_pos hsignature]
  dsimp only
  rw [if_neg h]
  split_ifs <;> rfl

end Rejection

/-- A rejection that is recorded again changes neither the block count nor the status exactly when its
signature is still in the window and the wallet cools down already or has fewer than two blocks. -/
theorem replayed_harmless_iff (performance : Performance) (wallet : Address) (mint : Mint) {signature : String}
    (now : Int) (hsignature : signature ≠ "unknown") :
    Harmless (.rejectUnsafeBuy mint signature) wallet now performance ↔
      Remembered signature (walletRow performance wallet) := by
  unfold Harmless Remembered
  rw [walletRow_run]
  simp only [RowOp.mutate, sync_safetyBlockCount, sync_status]
  generalize walletRow performance wallet = row
  by_cases h : signature ∈ row.safetyBlockSignatures
  · obtain ⟨hcount, hstatus⟩ := rejectUnsafeBuy_of_mem mint now hsignature h
    rw [hcount, hstatus]
    simp only [h, true_and]
    constructor
    · intro hsame
      by_contra hnot
      rw [not_or, not_lt] at hnot
      rw [if_pos hnot] at hsame
      exact hnot.2 (decide_eq_true hsame.symm)
    · intro hcool
      rw [if_neg]
      rintro ⟨htwo, hactive⟩
      exact hcool.elim (fun hlt => absurd htwo (not_le.2 hlt)) hactive
  · have hcount := rejectUnsafeBuy_of_not_mem mint now hsignature h
    constructor
    · rintro ⟨hsame, -⟩
      omega
    · rintro ⟨hmem, -⟩
      exact absurd hmem h

/-- Two rejections, after which the wallet cools down. -/
def rejections : List QuarantineEvent :=
  [.write (.rejectUnsafeBuy "mint" "first") "wallet" 0, .write (.rejectUnsafeBuy "mint" "second") "wallet" 0]

/-- While the wallet cools down, its first rejection can be recorded again. -/
theorem replayed_harmless_coolingDown : ∃ s : Quarantine,
    Run Quarantine.step Run.anyStep (Quarantine.initial Dict.empty 0) rejections s ∧
      Harmless (.rejectUnsafeBuy "mint" "first") "wallet" 1 s.performance := by
  have hrun : ∃ s, Run Quarantine.step Run.anyStep (Quarantine.initial Dict.empty 0) rejections s ∧
      Remembered "first" (walletRow s.performance "wallet") := by
    apply Run.exists_of_any
    decide +kernel
  obtain ⟨s, hs, hremembered⟩ := hrun
  exact ⟨s, hs, (replayed_harmless_iff s.performance "wallet" "mint" 1 (by decide)).2 hremembered⟩

/-- The wallet is restored a day later, and its first rejection, recorded again, cools it down anew. -/
theorem replayed_cools_down : ¬ ∀ (performance : Performance) (clock : Int) (events : List QuarantineEvent)
    (s : Quarantine) (wallet : Address) (mint : Mint) (signature : String) (recorded now : Int),
    Run Quarantine.step Run.anyStep (Quarantine.initial performance clock) events s → signature ≠ "unknown" →
      .write (.rejectUnsafeBuy mint signature) wallet recorded ∈ events → s.clock ≤ now →
        Harmless (.rejectUnsafeBuy mint signature) wallet now s.performance := by
  intro hall
  have hrun : ∃ s, Run Quarantine.step Run.anyStep (Quarantine.initial Dict.empty 0)
      (rejections ++ [.scan 0 cooldownMicros cooldownMicros, .recover 0 false cooldownMicros]) s ∧
      (s.clock = cooldownMicros ∧
        ¬ Harmless (.rejectUnsafeBuy "mint" "first") "wallet" cooldownMicros s.performance) := by
    apply Run.exists_of_any
    decide +kernel
  obtain ⟨s, hs, hclock, hharm⟩ := hrun
  exact hharm (hall _ _ _ s "wallet" "mint" "first" 0 cooldownMicros hs (by decide) List.mem_cons_self hclock.le)

end Aibot.Wallet
