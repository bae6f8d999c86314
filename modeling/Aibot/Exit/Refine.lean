/-
The exit flows are runs of the ledger operations: forget the flows, and what is left is a run in
which every sale is made under a granted claim, of no more than the claimed amount. So whatever
holds of those runs (the books, no double sale) holds of any interleaving of flows.
-/
import Aibot.Exit.Flow

namespace Aibot.Exit

open Aibot.Risk

/-- The claim a flow holds and the amount it asks for. -/
def Flow.asks : Flow → Option (Plan × Uuid × Int)
  | .quoting plan exitId amount | .selling plan exitId amount _ => some (plan, exitId, amount)
  | _ => none

/-- The flows that ask for a positive amount were granted it. -/
def Granted (s : Exits) : Prop :=
  ∀ f plan exitId amount, (s.flows f).asks = some (plan, exitId, amount) →
    0 < amount ∧ ∃ g ∈ s.world.log.filterMap grantOf, g.mint = plan.snapshot.mint ∧
      g.positionId = plan.snapshot.position.positionId ∧ g.exitId = exitId ∧ amount ≤ g.amount

/-- No exit sells more than the claimed amount. -/
theorem exitAmount_le (reason : ExitReason) {currentAmount : Int} (h : 0 ≤ currentAmount) :
    exitAmount reason currentAmount ≤ currentAmount := by
  unfold exitAmount takeProfitSellPercent
  split_ifs
  · exact le_refl _
  · rw [Int.fdiv_eq_ediv_of_nonneg _ (by decide)]
    omega

/-- A flow that moves without a ledger call asks for nothing new. -/
theorem Exits.Moves.asks {s : Exits} {a : Act} {flow flow' : Flow} {x : Plan × Uuid × Int}
    (h : s.Moves a flow flow') (hx : flow'.asks = some x) : flow.asks = some x := by
  cases h with
  | quotes => exact hx
  | evaluates | skips | closes | detects | detectionFails | quoteFails | saleFails | releaseFails
  | writeFails | abandoned => cases hx

/-- A flow asks for something after its claim only. -/
theorem resume_asks {flow : Flow} {ret : Ret} {plan : Plan} {exitId : Uuid} {amount : Int}
    {freshId : Uuid} {now : Int} {op : Op} (hop : flow.request freshId now = some op)
    (hx : (flow.resume ret).asks = some (plan, exitId, amount)) : ∃ currentAmount,
      flow = .claiming plan ∧ ret.grant? = some (exitId, currentAmount) ∧ 0 < amount ∧
      amount = exitAmount plan.reason currentAmount := by
  cases flow with
  | idle | evaluating | quoting | finished => cases hop
  | failing => cases hx
  | marking snapshot value =>
    simp only [Flow.resume] at hx
    cases hp : exitPlan? snapshot value <;> rw [hp] at hx <;> cases hx
  | releasing plan' exitId' failure => cases failure <;> cases hx
  | selling plan' exitId' amount' proceeds =>
    simp only [Flow.resume] at hx
    split_ifs at hx <;> cases hx
  | claiming plan' =>
    simp only [Flow.resume] at hx
    split at hx
    · cases hx
    · rename_i e current hgrant
      unfold Plan.claimed at hx
      simp only at hx
      split_ifs at hx with hz
      · cases hx
      · split at hx
        · cases hx
          exact ⟨current, rfl, hgrant, by omega, rfl⟩
        · split_ifs at hx with hd
          · cases hx
          · cases hx
            exact ⟨current, rfl, hgrant, by omega, rfl⟩

/-- What a flow was granted, it still is after any ledger call. -/
theorem Granted.mono {s : Exits} {w : World} {op : Op} (hs : Granted s) (h : s.world.step op = some w)
    {f : Nat} {plan : Plan} {exitId : Uuid} {amount : Int}
    (hx : (s.flows f).asks = some (plan, exitId, amount)) :
    0 < amount ∧ ∃ g ∈ w.log.filterMap grantOf, g.mint = plan.snapshot.mint ∧
      g.positionId = plan.snapshot.position.positionId ∧ g.exitId = exitId ∧ amount ≤ g.amount := by
  obtain ⟨hpos, g, hg, hrest⟩ := hs f plan exitId amount hx
  exact ⟨hpos, g, grants_mono h hg, hrest⟩

theorem granted_step {s s' : Exits} {a : Act} (hs : Granted s) (hbooks : Books s.world)
    (h : s.step a = some s') : Granted s' := by
  intro g plan exitId amount hx
  cases step_shape h with
  | @moved _ f flow _ hmove =>
    by_cases hg : g = f
    · subst hg
      rw [move_flows_self] at hx
      exact hs g plan exitId amount (hmove.asks hx)
    · rw [move_flows_of_ne s flow hg] at hx
      exact hs g plan exitId amount hx
  | @wrote f freshId now op world hop hw =>
    by_cases hg : g = f
    · subst hg
      rw [wrote_flows_self] at hx
      obtain ⟨current, hflow, hgrant, hpos, rfl⟩ := resume_asks hop hx
      rw [hflow] at hop
      cases hop
      -- the claim was granted on the whole amount of the position
      obtain ⟨p, _, hp, -, -, hamount, -⟩ := grant_turn hw (grantOf_claim hgrant)
      have hopen := (hbooks.opened _ p hp).amountPos
      have hcurrent : current = p.tokenAmountRaw := hamount
      have hle : exitAmount plan.reason current ≤ current := exitAmount_le _ (by omega)
      exact ⟨hpos, _, grant_mem hw (grantOf_claim hgrant), rfl, rfl, rfl, hle⟩
    · rw [wrote_flows_of_ne s op world hg] at hx
      exact hs.mono hw hx
  | other _ hw => exact hs.mono hw hx

/-! ## The refinement -/

/-- The sale a flow makes is made under its claim. -/
theorem request_sale {s : Exits} (hs : Granted s) {f : Nat} {freshId : Uuid} {now : Int} {op : Op}
    (h : (s.flows f).request freshId now = some op) : sellsUnderClaim s.world op := by
  intro r hr
  cases hf : s.flows f with
  | idle | evaluating | quoting | finished => rw [hf] at h; cases h
  | marking | claiming | releasing | failing => rw [hf] at h; cases h; cases hr
  | selling plan exitId amount proceeds =>
    rw [hf] at h; cases h
    cases hr
    obtain ⟨-, g, hg, hm, hid, he, hle⟩ := hs f plan exitId amount (by rw [hf]; rfl)
    exact ⟨g, hg, hm.symm, by rw [hid], by rw [he], hle⟩

theorem offExit_sale {w : World} {op : Op} (h : op.offExit = true) : sellsUnderClaim w op := by
  intro r hr
  cases op <;> cases hr
  cases h

/-- A step of the flows is a ledger call under a claim, or no ledger call. -/
theorem step_world {s s' : Exits} {a : Act} (hs : Granted s) (h : s.step a = some s') :
    s'.world = s.world ∨ ∃ op, sellsUnderClaim s.world op ∧ s.world.step op = some s'.world := by
  cases step_shape h with
  | moved => exact .inl rfl
  | wrote hop hw => exact .inr ⟨_, request_sale hs hop, hw⟩
  | other hop hw => exact .inr ⟨_, offExit_sale hop, hw⟩

/-- Every interleaving of exit flows is a run of ledger operations that sells under claims. -/
theorem exits_refine {ok : Exits → Act → Prop} {acts : List Act} {s : Exits}
    (h : Run Exits.step ok Exits.start acts s) :
    Granted s ∧ ∃ ops, Run World.step sellsUnderClaim World.start ops s.world := by
  have hstep : ∀ s a s', (Granted s ∧ ∃ ops, Run World.step sellsUnderClaim World.start ops s.world) →
      ok s a → s.step a = some s' →
      Granted s' ∧ ∃ ops, Run World.step sellsUnderClaim World.start ops s'.world := by
    rintro s a s' ⟨hs, ops, hrun⟩ - h
    refine ⟨granted_step hs (run_books hrun) h, ?_⟩
    rcases step_world hs h with he | ⟨op, hop, hw⟩
    · exact ⟨ops, by rw [he]; exact hrun⟩
    · exact ⟨ops ++ [op], hrun.concat hop hw⟩
  refine h.invariant hstep ⟨?_, [], .nil _⟩
  intro f plan exitId amount hx
  cases hx

/-- The books are kept in any interleaving of exit flows. -/
theorem exits_books {ok : Exits → Act → Prop} {acts : List Act} {s : Exits}
    (h : Run Exits.step ok Exits.start acts s) : Books s.world := by
  obtain ⟨-, ops, hrun⟩ := exits_refine h
  exact run_books hrun

end Aibot.Exit
