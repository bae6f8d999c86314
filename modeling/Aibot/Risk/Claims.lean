/-
Exit claims over any run: who holds the exit of a position, and until when.
`record_quote_failure` writes `risk_state` without looking at a pending exit; every other
operation leaves `EXIT_PENDING` to the claim's own sale or release.
-/
import Aibot.Lib.Trace
import Aibot.Risk.Books

namespace Aibot.Risk

open Aibot.Store

/-! ## Grants and their ends in the log -/

/-- A claim that was granted. -/
structure Grant where
  mint : Mint
  positionId : Uuid
  exitId : Uuid
  amount : Int
  deriving DecidableEq

/-- The claim an entry of the log granted. -/
def grantOf : Op × Ret → Option Grant
  | (.claim mint positionId _ _, .claimed (some (exitId, amount))) =>
    some ⟨mint, positionId, exitId, amount⟩
  | _ => none

/-- The entry granted `exitId` for the position. -/
def Grants (mint : Mint) (positionId exitId : Uuid) (x : Op × Ret) : Prop :=
  ∃ amount, grantOf x = some ⟨mint, positionId, exitId, amount⟩

/-- The entry consumed `exitId` by a recorded sale, or gave it back. -/
def ends (mint : Mint) (positionId exitId : Uuid) : Op × Ret → Bool
  | (.release m id x _, _) => m = mint ∧ id = positionId ∧ x = exitId
  | (.sell r _, .sold result) => result.recorded ∧ r.mint = mint ∧ r.exitId = some exitId
  | _ => false

/-- The exit of a position is granted to one claim at a time: no other exit id is granted while
one is neither consumed nor given back. -/
def ExitExclusive (log : List (Op × Ret)) : Prop :=
  ∀ mint positionId exitId, NeverWhilePending (Grants mint positionId exitId)
    (ends mint positionId exitId ·) (fun x => ∃ other, other ≠ exitId ∧ Grants mint positionId other x) log

/-- The sales name the exit they are made under. -/
def sellsWithExitId (_ : World) (op : Op) : Prop := ∀ r ∈ op.sale?, r.exitId.isSome

/-- The position and the clock of a failed quote. -/
def Op.failedQuote? : Op → Option (Mint × Uuid × Int)
  | .quoteFailure mint positionId _ now => some (mint, positionId, now)
  | _ => none

/-- A failed quote that finds an exit pending does not degrade the position. -/
def failureKeepsExit (w : World) (op : Op) : Prop :=
  ∀ f ∈ op.failedQuote?, ∀ p ∈ w.ledger.positionWithId? f.1 f.2.1,
    p.riskState = .exitPending → p.degradesAt f.2.2 = false

theorem matches_iff {r : SellRequest} {p : Position} : r.matches p = true ↔
    (∀ id, r.positionId = some id → id = p.positionId) ∧
      (∀ e, r.exitId = some e → p.pendingExitId = some e) := by
  unfold SellRequest.matches
  simp [Option.all_eq_true]

/-- A granted claim found the position open and no exit pending, and took its exit. -/
theorem grant_turn {w w' : World} {op : Op} {g : Grant} (h : w.step op = some w')
    (hg : grantOf (op, (op.run w.ledger).1) = some g) : ∃ p reason,
      w.ledger.position? g.mint = some p ∧ p.positionId = g.positionId ∧ p.riskState ≠ .exitPending ∧
      g.amount = p.tokenAmountRaw ∧ g.exitId ∉ w.ids ∧ op.freshId = some g.exitId ∧
      w'.ledger.positions = w.ledger.positions.set g.mint (p.claimed g.exitId reason) := by
  have hturn := step_turn h
  generalize (op.run w.ledger).1 = ret at hturn hg
  cases hturn with
  | @claimed mint positionId exitId reason p hp hs hfresh hpos _ _ =>
    obtain ⟨hp, hid⟩ := positionWithId?_eq_some.1 hp
    cases hg
    exact ⟨p, reason, hp, hid, hs, rfl, hfresh, rfl, hpos⟩
  | idle hret | touched hret =>
    -- a refusal grants nothing
    obtain ⟨hnone, -⟩ := hret
    unfold grantOf at hg
    split at hg
    · rename_i he
      cases he
      cases hnone
    · cases hg
  | bought | released | sold => cases hg

theorem grantOf_claim {ret : Ret} {mint : Mint} {positionId freshId exitId : Uuid} {reason : ExitReason}
    {amount : Int} (h : ret.grant? = some (exitId, amount)) :
    grantOf (.claim mint positionId reason freshId, ret) = some ⟨mint, positionId, exitId, amount⟩ := by
  cases ret <;> cases h
  rfl

/-- The grants of a log stay in it. -/
theorem grants_mono {w w' : World} {op : Op} {g : Grant} (h : w.step op = some w')
    (hg : g ∈ w.log.filterMap grantOf) : g ∈ w'.log.filterMap grantOf := by
  rw [(step_log h).1, List.filterMap_append]
  exact List.mem_append_left _ hg

/-- What a call grants is in the log after it. -/
theorem grant_mem {w w' : World} {op : Op} {g : Grant} (h : w.step op = some w')
    (hg : grantOf (op, (op.run w.ledger).1) = some g) : g ∈ w'.log.filterMap grantOf := by
  rw [(step_log h).1, List.filterMap_append]
  refine List.mem_append_right _ ?_
  rw [List.mem_filterMap]
  exact ⟨_, List.mem_singleton.2 rfl, hg⟩

/-! ## Where a pending exit comes from -/

/-- A position in `EXIT_PENDING` was so before the call, under the same exit id, or the call has
just been granted its exit. -/
theorem exitPending_step {w w' : World} {op : Op} {mint : Mint} {p' : Position}
    (h : w.step op = some w') (hp' : w'.ledger.position? mint = some p')
    (hs : p'.riskState = .exitPending) :
    (∃ p, w.ledger.position? mint = some p ∧ p.positionId = p'.positionId ∧
      p.riskState = .exitPending ∧ p.pendingExitId = p'.pendingExitId) ∨
    ∃ exitId amount, p'.pendingExitId = some exitId ∧
      grantOf (op, (op.run w.ledger).1) = some ⟨mint, p'.positionId, exitId, amount⟩ := by
  rcases position_step h hp' with hp | hwrote
  · exact .inl ⟨p', hp, rfl, hs, rfl⟩
  · generalize (op.run w.ledger).1 = ret at hwrote ⊢
    cases hwrote with
    | bought => cases hs
    | @claimed _ _ exitId _ p _ hid =>
      refine .inr ⟨exitId, p.tokenAmountRaw, rfl, ?_⟩
      rw [← hid]; rfl
    | @released _ _ _ degraded =>
      simp only [Position.released] at hs
      split_ifs at hs
    | touched _ hp htouch =>
      have hsame := htouch.sameClaim
      exact .inl ⟨_, hp, hsame.positionId.symm, htouch.exitPending hs, hsame.pendingExitId.symm⟩
    | @sold r _ p _ sold => rw [(leaves_pending r p sold).2] at hs; cases hs

/-! ## A claim is held until it ends -/

/-- The position is open, and its exit is pending under `exitId`. -/
def Holds (w : World) (mint : Mint) (positionId exitId : Uuid) : Prop :=
  ∃ p, w.ledger.position? mint = some p ∧ p.positionId = positionId ∧
    p.pendingExitId = some exitId ∧ p.riskState = .exitPending

/-- Every claim that has not ended is held by its position. -/
def ClaimsHeld (w : World) : Prop :=
  ∀ mint positionId exitId,
    Pending (Grants mint positionId exitId) (ends mint positionId exitId ·) w.log →
      Holds w mint positionId exitId

/-- The touching operations keep a pending exit, a degrading quote failure apart. -/
theorem Touch.keepsExit {op : Op} {p p' : Position} (h : Touch op p p')
    (hok : ∀ f ∈ op.failedQuote?, p.degradesAt f.2.2 = false) (hs : p.riskState = .exitPending) :
    p'.riskState = .exitPending := by
  cases h with
  | marked _ _ => simp [Position.marked, hs]
  | lifecycled _ => exact hs
  | armed _ _ => exact hs
  | @quoteFailed mint positionId error now =>
    have hd := hok _ rfl
    simp [Position.quoteFailed, hd, hs]

/-- A call that does not end a held claim leaves it held. -/
theorem holds_step {w w' : World} {op : Op} {mint : Mint} {positionId exitId : Uuid}
    (hw : Holds w mint positionId exitId) (hsell : sellsWithExitId w op) (hok : failureKeepsExit w op)
    (h : w.step op = some w') (hne : ¬ ends mint positionId exitId (op, (op.run w.ledger).1)) :
    Holds w' mint positionId exitId := by
  obtain ⟨q, hq, hqid, hqe, hqs⟩ := hw
  rcases position_kept h hq with hq' | hacted
  · exact ⟨q, hq', hqid, hqe, hqs⟩
  · generalize (op.run w.ledger).1 = ret at hacted hne
    cases hacted with
    | claimed _ hs => exact absurd hqs hs
    | released hid he =>
      rw [hqe] at he; cases he
      exact absurd (by simp [ends, ← hqid, hid]) hne
    | touched htouch hq' =>
      have hsame := htouch.sameClaim
      refine ⟨_, hq', hsame.positionId.trans hqid, hsame.pendingExitId.trans hqe, ?_⟩
      refine htouch.keepsExit (fun f hf => hok f hf q ?_ hqs) hqs
      cases htouch with
      | marked | lifecycled | armed => cases hf
      | quoteFailed hid => cases hf; exact positionWithId?_eq_some.2 ⟨hq, hid⟩
    | @sold r _ _ _ hmatch =>
      obtain ⟨x, hx⟩ := Option.isSome_iff_exists.1 (hsell r rfl)
      have he := (matches_iff.1 hmatch).2 x hx
      rw [hqe] at he; cases he
      exact absurd (by simp [ends, hx]) hne

theorem claimsHeld_step {w w' : World} {op : Op} (hw : ClaimsHeld w) (hsell : sellsWithExitId w op)
    (hok : failureKeepsExit w op) (h : w.step op = some w') : ClaimsHeld w' := by
  intro mint positionId exitId hpend
  rw [(step_log h).1, pending_concat] at hpend
  rcases hpend with ⟨amount, hg⟩ | ⟨hpend, hne⟩
  · obtain ⟨p, reason, -, hid, -, -, -, -, hpos⟩ := grant_turn h hg
    exact ⟨p.claimed exitId reason, by rw [position?_of_set hpos, if_pos rfl], hid, rfl, rfl⟩
  · exact holds_step (hw _ _ _ hpend) hsell hok h hne

theorem exitExclusive_step {w w' : World} {op : Op} (hw : ClaimsHeld w) (hx : ExitExclusive w.log)
    (h : w.step op = some w') : ExitExclusive w'.log := by
  intro mint positionId exitId
  rw [(step_log h).1, neverWhilePending_concat]
  refine ⟨hx mint positionId exitId, ?_⟩
  rintro ⟨other, -, amount, hg⟩ hpend
  -- a grant finds no exit pending, and the pending claim is held
  obtain ⟨p, -, hp, -, hs, -⟩ := grant_turn h hg
  obtain ⟨q, hq, -, -, hqs⟩ := hw _ _ _ hpend
  rw [hp] at hq; cases hq
  exact hs hqs

/-- The condition of the exclusivity theorem. -/
def exclusiveWhen (w : World) (op : Op) : Prop := sellsWithExitId w op ∧ failureKeepsExit w op

/-- Exit-claim exclusivity. In every run whose sales name their exit, and in which no failed quote
degrades a position with a pending exit, once an exit id is granted for a position no other is
until that one is consumed by a recorded sale or given back. -/
theorem exit_exclusive {ops : List Op} {w : World}
    (h : Run World.step exclusiveWhen World.start ops w) : ExitExclusive w.log := by
  have hstep : ∀ w op w', ClaimsHeld w ∧ ExitExclusive w.log → exclusiveWhen w op →
      w.step op = some w' → ClaimsHeld w' ∧ ExitExclusive w'.log :=
    fun _ _ _ hw hok hs => ⟨claimsHeld_step hw.1 hok.1 hok.2 hs, exitExclusive_step hw.1 hw.2 hs⟩
  have hstart : ClaimsHeld World.start ∧ ExitExclusive World.start.log :=
    ⟨fun _ _ _ hp => absurd hp not_pending_nil, fun _ _ _ => neverWhilePending_nil⟩
  exact (h.invariant hstep hstart).2

instance (w : World) (op : Op) : Decidable (sellsWithExitId w op) :=
  inferInstanceAs (Decidable (∀ r ∈ op.sale?, r.exitId.isSome))

instance (w : World) (op : Op) : Decidable (exclusiveWhen w op) :=
  inferInstanceAs (Decidable ((∀ r ∈ op.sale?, r.exitId.isSome) ∧
    ∀ f ∈ op.failedQuote?, ∀ p ∈ w.ledger.positionWithId? f.1 f.2.1,
      p.riskState = .exitPending → p.degradesAt f.2.2 = false))

/-- A buy for the runs below, of ten tokens for a thousand lamports. -/
def sampleBuy : BuyRequest := ⟨"mint", 1000, 10, none, none, 0, "A", 0, "", none, none⟩

/-- Two claims in turn, with failed quotes and a release between them. -/
theorem exit_exclusive_inTurn : ∃ w : World, w.sales.length = 1 ∧ ExitExclusive w.log := by
  obtain ⟨w, hrun, hw⟩ : ∃ w, Run World.step exclusiveWhen World.start
      [.buy sampleBuy ⟨0⟩ 0, .claim "mint" ⟨0⟩ .stopLoss15 ⟨1⟩, .quoteFailure "mint" ⟨0⟩ "timeout" 1,
        .release "mint" ⟨0⟩ ⟨1⟩ true, .quoteFailure "mint" ⟨0⟩ "timeout" 2,
        .claim "mint" ⟨0⟩ .stopLoss15 ⟨2⟩,
        .sell ⟨"mint", 10, 900, .stopLoss15, some ⟨0⟩, some ⟨2⟩⟩ 3] w ∧ w.sales.length = 1 :=
    Run.exists_of_any (by decide +kernel)
  exact ⟨w, hw, exit_exclusive hrun⟩

/-- A quote that fails ten seconds after the last good one turns the pending exit into `DEGRADED`,
and a second claim is granted while the first is still out. -/
theorem exit_claimed_twice : ¬ ∀ (ops : List Op) (w : World),
    Run World.step sellsWithExitId World.start ops w → ExitExclusive w.log := by
  intro hall
  obtain ⟨w, hrun, hw⟩ : ∃ w, Run World.step sellsWithExitId World.start
      [.buy sampleBuy ⟨0⟩ 0, .claim "mint" ⟨0⟩ .stopLoss15 ⟨1⟩,
        .quoteFailure "mint" ⟨0⟩ "timeout" 10000000, .claim "mint" ⟨0⟩ .stopLoss15 ⟨2⟩] w ∧
      w.log.map (fun x => (grantOf x, ends "mint" ⟨0⟩ ⟨1⟩ x)) =
        [(none, false), (some ⟨"mint", ⟨0⟩, ⟨1⟩, 10⟩, false), (none, false),
          (some ⟨"mint", ⟨0⟩, ⟨2⟩, 10⟩, false)] := Run.exists_of_any (by decide +kernel)
  simp only [List.map_eq_cons_iff, List.map_eq_nil_iff, Prod.mk.injEq] at hw
  obtain ⟨bought, _, hlog, -, first, _, rfl, ⟨hfirst, -⟩, failed, _, rfl, ⟨-, hfailed⟩, second, _, rfl,
    ⟨hsecond, -⟩, rfl⟩ := hw
  refine hall _ w hrun "mint" ⟨0⟩ ⟨1⟩ [bought, first, failed] second [] hlog
    ⟨⟨2⟩, by decide, 10, hsecond⟩ ⟨[bought], first, [failed], rfl, ⟨10, hfirst⟩, ?_⟩
  intro y hy
  show ¬ ends "mint" ⟨0⟩ ⟨1⟩ y = true
  rw [List.mem_singleton.1 hy, hfailed]
  exact Bool.false_ne_true

end Aibot.Risk
