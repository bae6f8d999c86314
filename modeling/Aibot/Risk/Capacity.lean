/-
The position capacity of a strategy version: the buys count the open positions and insert under one
lock, so the count never passes the largest capacity a call names, no buy replaces an open position,
and a refused buy leaves the ledger alone.
-/
import Aibot.Risk.Claims
import Aibot.Risk.Stored

namespace Aibot.Risk

open Aibot.Store

/-! ## Counting open positions -/

/-- One for a position of the strategy version, zero for any other. -/
def countsFor (strategyVersion : String) (p : Position) : Int :=
  if orBaseline p.strategyVersion = orBaseline strategyVersion then 1 else 0

theorem length_filter_eq_sum {α : Type*} (p : α → Bool) : ∀ l : List α,
    ((l.filter p).length : Int) = (l.map fun x => if p x then (1 : Int) else 0).sum
  | [] => rfl
  | x :: l => by
    have ih := length_filter_eq_sum p l
    rw [List.map_cons, List.sum_cons, ← ih]
    by_cases hx : p x = true
    · rw [List.filter_cons_of_pos hx, if_pos hx, List.length_cons]
      omega
    · rw [List.filter_cons_of_neg hx, if_neg hx]
      omega

theorem openCount_eq_sumOf (ledger : Ledger) (strategyVersion : String) :
    (openCount ledger strategyVersion : Int) = ledger.positions.sumOf (countsFor strategyVersion) := by
  unfold openCount Dict.sumOf
  rw [length_filter_eq_sum]
  simp only [decide_eq_true_eq]
  rfl

theorem countsFor_nonneg (strategyVersion : String) (p : Position) : 0 ≤ countsFor strategyVersion p := by
  unfold countsFor
  split_ifs <;> omega

/-- Writing a position that keeps its strategy version keeps the count. -/
theorem sumOf_set_kept {d : Dict Mint Position} {mint : Mint} {p p' : Position} (hp : d.get? mint = some p)
    (hs : p'.strategyVersion = p.strategyVersion) (strategyVersion : String) :
    (d.set mint p').sumOf (countsFor strategyVersion) = d.sumOf (countsFor strategyVersion) := by
  have hcounts : countsFor strategyVersion p' = countsFor strategyVersion p := by
    unfold countsFor; rw [hs]
  rw [Dict.sumOf_set_of_get _ hp, hcounts]
  omega

theorem Touch.strategyVersion {op : Op} {p p' : Position} (h : Touch op p p') :
    p'.strategyVersion = p.strategyVersion := by
  cases h with
  | marked | lifecycled | armed | quoteFailed => rfl

theorem leaves_strategyVersion (r : SellRequest) (p : Position) (sold : Int) :
    (r.leaves p sold).strategyVersion = p.strategyVersion := by
  unfold SellRequest.leaves Position.markTakeProfit
  split_ifs <;> rfl

/-- A stored position counts as a call of its version does. -/
theorem orBaseline_orBaseline (strategyVersion : String) :
    orBaseline (orBaseline strategyVersion) = orBaseline strategyVersion := by
  by_cases h : strategyVersion = ""
  · subst h; rfl
  · have he : orBaseline strategyVersion = strategyVersion := if_neg h
    rw [he, he]

/-! ## The capacity -/

/-- Every buy of the strategy version names a capacity of `n` at most. -/
def cappedAt (strategyVersion : String) (n : Nat) (_ : World) (op : Op) : Prop :=
  ∀ r ∈ op.buy?, orBaseline r.strategyVersion = orBaseline strategyVersion →
    ∃ k ∈ r.maxStrategyOpenPositions, k ≤ (n : Int)

/-- A call other than a buy opens no position. -/
theorem sumOf_le_of_turn {w w' : World} {op : Op} {ret : Ret} (h : Turn w w' op ret)
    (hbuy : ∀ r positionId now, op ≠ .buy r positionId now) (strategyVersion : String) :
    w'.ledger.positions.sumOf (countsFor strategyVersion) ≤
      w.ledger.positions.sumOf (countsFor strategyVersion) := by
  cases h with
  | idle _ hpos => rw [hpos]
  | bought => exact absurd rfl (hbuy _ _ _)
  | @claimed _ _ exitId reason p hp _ _ hpos =>
    have hversion : (p.claimed exitId reason).strategyVersion = p.strategyVersion := rfl
    rw [hpos, sumOf_set_kept (positionWithId?_eq_some.1 hp).1 hversion]
  | @released _ _ _ degraded p hp _ hpos =>
    have hversion : (p.released degraded).strategyVersion = p.strategyVersion := rfl
    rw [hpos, sumOf_set_kept (positionWithId?_eq_some.1 hp).1 hversion]
  | touched _ hp htouch hpos => rw [hpos, sumOf_set_kept hp htouch.strategyVersion]
  | @sold r _ p sold _ hp _ _ _ hpos =>
    have hkept := sumOf_set_kept hp (leaves_strategyVersion r p sold) strategyVersion
    rw [hpos]
    split_ifs with hz
    · have hnonneg := countsFor_nonneg strategyVersion (r.leaves p sold)
      rw [Dict.sumOf_erase _ (Dict.get?_set_self ..), hkept]
      omega
    · rw [hkept]

theorem openCount_step {strategyVersion : String} {n : Nat} {w w' : World} {op : Op}
    (hw : openCount w.ledger strategyVersion ≤ n) (hcap : cappedAt strategyVersion n w op)
    (h : w.step op = some w') : openCount w'.ledger strategyVersion ≤ n := by
  have hturn := step_turn h
  zify at hw ⊢
  rw [openCount_eq_sumOf] at hw ⊢
  cases op with
  | buy r positionId now =>
    obtain ⟨-, rfl⟩ := World.step_eq_some h
    rcases run_buy r positionId now w.ledger with ⟨route, -, hfits, -, hrun⟩ | ⟨-, e, hrun⟩
    · show (((Op.buy r positionId now).run w.ledger).2.positions).sumOf _ ≤ _
      have hversion : (r.position route positionId (nextRoundIndex w.ledger r.mint)
        (.instant now)).strategyVersion = orBaseline r.strategyVersion := rfl
      rw [hrun]
      show (w.ledger.positions.set _ _).sumOf _ ≤ _
      rw [Dict.sumOf_set_of_none _ hfits.free]
      unfold countsFor at hw ⊢
      split_ifs with hv
      · -- the guard counted the positions of this very version
        rw [hversion, orBaseline_orBaseline] at hv
        obtain ⟨k, hk, hkn⟩ := hcap r rfl hv
        have hlt := (hfits.room k hk).2
        rw [openCount_eq_sumOf] at hlt
        unfold countsFor at hlt
        rw [hv] at hlt
        omega
      · omega
    · show (((Op.buy r positionId now).run w.ledger).2.positions).sumOf _ ≤ _
      rw [hrun]; exact hw
  | rejection | rpcSkip | claim | release | sell | mark | lifecycle | breakEvenFloor | quoteFailure =>
    exact le_trans (sumOf_le_of_turn hturn (fun _ _ _ => by simp) strategyVersion) hw

/-- Position capacity. Where every buy of a strategy version names a capacity of `n` at most, no more
than `n` of its positions are ever open. A buy that is accepted finds no open position of its mint,
and one that is refused leaves the ledger as it was. -/
theorem position_capacity (strategyVersion : String) (n : Nat) (ops : List Op) (w : World)
    (h : Run World.step (cappedAt strategyVersion n) World.start ops w) :
    openCount w.ledger strategyVersion ≤ n ∧
    ∀ r positionId now w', w.step (.buy r positionId now) = some w' →
      (((Op.buy r positionId now).run w.ledger).1 = .bought positionId ∧
        w.ledger.position? r.mint = none) ∨
      ((∃ e, ((Op.buy r positionId now).run w.ledger).1 = .raised e) ∧ w'.ledger = w.ledger) := by
  refine ⟨h.invariant (fun _ _ _ hw hok hs => openCount_step hw hok hs) (Nat.zero_le n), ?_⟩
  intro r positionId now w' hstep
  obtain ⟨-, rfl⟩ := World.step_eq_some hstep
  rcases run_buy r positionId now w.ledger with ⟨route, -, hfits, -, hrun⟩ | ⟨-, e, hrun⟩
  · exact .inl ⟨congrArg Prod.fst hrun, hfits.free⟩
  · exact .inr ⟨⟨e, congrArg Prod.fst hrun⟩, congrArg Prod.snd hrun⟩

/-- The capacity at the store: the file of any interleaving of the callers holds no more. -/
theorem stored_capacity {χ : Type*} [Codec Ledger χ] {strategyVersion : String} {n : Nat}
    {acts : List (StoreAct Ledger LedgerError Ret)} {s : System Ledger χ LedgerError Ret}
    (h : Run System.step Run.anyStep (System.start none) acts s) {ops : List Op}
    (hops : s.requests = ops.map Op.request) (hw : ∀ op ∈ ops, op.writes = true)
    (hids : (ops.flatMap fun op => op.freshId.toList).Nodup)
    (hcap : ∀ op ∈ ops, cappedAt strategyVersion n World.start op) :
    ∀ i, s.files.path = some i →
      ∃ ledger, Codec.load (s.files.data i) = some ledger ∧ openCount ledger strategyVersion ≤ n := by
  obtain ⟨w, hrun, hload⟩ := stored_world h hops hw hids
  refine fun i hi => ⟨w.ledger, hload i hi, ?_⟩
  have hcapped : Run World.step (cappedAt strategyVersion n) World.start ops w :=
    hrun.of_forall_mem fun op hop _ => hcap op hop
  exact hcapped.invariant (fun _ _ _ hw hok hs => openCount_step hw hok hs) (Nat.zero_le n)

instance (strategyVersion : String) (n : Nat) (w : World) (op : Op) :
    Decidable (cappedAt strategyVersion n w op) :=
  inferInstanceAs (Decidable (∀ r ∈ op.buy?, orBaseline r.strategyVersion = orBaseline strategyVersion →
    ∃ k ∈ r.maxStrategyOpenPositions, k ≤ (n : Int)))

/-- One place, two buys of different mints under two spellings of the version: the second is refused. -/
theorem position_capacity_one : ∃ w : World, openCount w.ledger "" = 1 ∧
    (w.ledger.position? "second").isNone ∧ openCount w.ledger "" ≤ 1 := by
  obtain ⟨w, hrun, hcount, hnone⟩ : ∃ w, Run World.step (cappedAt "" 1) World.start
      [.buy ⟨"first", 1000, 10, none, none, 0, "A", 0, "", none, some 1⟩ ⟨0⟩ 0,
        .buy ⟨"second", 1000, 10, none, none, 0, "A", 0, "baseline_v1", none, some 1⟩ ⟨1⟩ 1] w ∧
      openCount w.ledger "" = 1 ∧ (w.ledger.position? "second").isNone :=
    Run.exists_of_any (by decide +kernel)
  exact ⟨w, hcount, hnone, (position_capacity "" 1 _ w hrun).1⟩

end Aibot.Risk
