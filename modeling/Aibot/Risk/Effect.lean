/-
What one call of a ledger operation can do, said once: `Effect ledger op ret ledger'` lists every
way a call ends, with the guard it passed and the ledger it leaves, and `Op.run_effect` shows the
list is complete. The invariants of the ledger are proved by cases on it.
-/
import Aibot.Risk.Ops

namespace Aibot.Risk

open Aibot.Store

/-! ## Answers -/

/-- The claim a call was granted. -/
def Ret.grant? : Ret → Option (Uuid × Int)
  | .claimed claim => claim
  | _ => none

/-- The call recorded a sale. -/
def Ret.recordedSale : Ret → Bool
  | .sold result => result.recorded
  | _ => false

/-- The answers of a call that changed nothing. -/
def Ret.isRefusal (ret : Ret) : Prop := ret.grant? = none ∧ ret.recordedSale = false

/-! ## Effects -/

/-- The ways a call ends, up to the document version. -/
inductive Effect (ledger : Ledger) : Op → Ret → Ledger → Prop
  | refused {op : Op} {ret : Ret} : ret.isRefusal → Effect ledger op ret ledger
  | bought {r : BuyRequest} {route : RouteType} {positionId : Uuid} {now : Int} :
      r.check = .ok route → ledger.position? r.mint = none →
      buyRecorded ledger r.mint r.sourceSignature = false → r.costLamports ≤ ledger.cashLamports →
      Effect ledger (.buy r positionId now) (.bought positionId) (r.enter route positionId now ledger)
  | noted {op : Op} {now : Int} {body : EventBody} : body.sell? = none → body.buy? = none →
      Effect ledger op .done (ledger.appendEvent (.instant now) body).trimEvents
  | claimed {mint : Mint} {positionId exitId : Uuid} {reason : ExitReason} {p : Position} :
      ledger.positionWithId? mint positionId = some p → p.riskState ≠ .exitPending →
      Effect ledger (.claim mint positionId reason exitId) (.claimed (some (exitId, p.tokenAmountRaw)))
        (ledger.setPosition mint (p.claimed exitId reason))
  | released {mint : Mint} {positionId exitId : Uuid} {degraded : Bool} {p : Position} :
      ledger.positionWithId? mint positionId = some p → p.pendingExitId = some exitId →
      Effect ledger (.release mint positionId exitId degraded) .done
        (ledger.setPosition mint (p.released degraded))
  | sold {r : SellRequest} {now : Int} {p : Position} {closed : Option (ObservationId × Uuid)} :
      ledger.position? r.mint = some p → r.matches p = true →
      0 < min r.tokenAmountRaw p.tokenAmountRaw →
      Effect ledger (.sell r now) (.sold ⟨true, closed⟩)
        (r.settle p (min r.tokenAmountRaw p.tokenAmountRaw) now ledger)
  | marked {mint : Mint} {positionId : Uuid} {value now : Int} {p : Position} :
      ledger.positionWithId? mint positionId = some p → 0 ≤ value →
      Effect ledger (.mark mint positionId value now) .done (ledger.setPosition mint (p.marked value now))
  | lifecycled {mint : Mint} {positionId : Uuid} {items : List LifecycleItem} {p : Position} :
      ledger.positionWithId? mint positionId = some p →
      Effect ledger (.lifecycle mint positionId items) .done
        ((items.foldl (fun ledger item =>
          ledger.appendEvent item.at_ (.transactionLifecycle mint positionId item)) ledger).setPosition
            mint { p with version := p.version + 1 })
  | armed {mint : Mint} {positionId : Uuid} {p : Position} :
      ledger.positionWithId? mint positionId = some p → p.takeProfitDone = true →
      Effect ledger (.breakEvenFloor mint positionId) (.armed true)
        (ledger.setPosition mint
          { p with
            stopLossRatio := breakEvenStopRatio
            breakEvenFloorActive := true
            version := p.version + 1 })
  | quoteFailed {mint : Mint} {positionId : Uuid} {error : String} {now : Int} {p : Position} :
      ledger.positionWithId? mint positionId = some p →
      Effect ledger (.quoteFailure mint positionId error now)
        (.failures (some ((p.quoteFailed error now).consecutiveQuoteFailures,
          (p.quoteFailed error now).riskState)))
        (ledger.setPosition mint (p.quoteFailed error now))

theorem refusal_done : Ret.isRefusal .done := ⟨rfl, rfl⟩

theorem recordPaperBuyMutate_ok {ledger : Ledger} {r : BuyRequest} {route : RouteType}
    {positionId : Uuid} {now : Int} {x : Uuid × Ledger}
    (h : recordPaperBuyMutate r route positionId now ledger = .ok x) :
    ledger.position? r.mint = none ∧ buyRecorded ledger r.mint r.sourceSignature = false ∧
      r.costLamports ≤ ledger.cashLamports ∧ x = (positionId, r.enter route positionId now ledger) := by
  unfold recordPaperBuyMutate at h
  split_ifs at h with h1 h2 h3 h4 h5
  cases h
  exact ⟨by simpa using h3, by simpa using h4, by omega, rfl⟩

theorem buy_effect {ledger ledger' : Ledger} {r : BuyRequest} {positionId : Uuid} {now : Int} {ret : Ret}
    (h : Op.mutate (.buy r positionId now) ledger = .ok (ret, ledger')) :
    Effect ledger (.buy r positionId now) ret ledger' := by
  simp only [Op.mutate] at h
  cases hroute : r.check with
  | error e => rw [hroute] at h; cases h
  | ok route =>
    rw [hroute] at h
    cases hm : recordPaperBuyMutate r route positionId now ledger with
    | error e => simp only [hm] at h; cases h
    | ok x =>
      obtain ⟨hfree, hnew, hcash, rfl⟩ := recordPaperBuyMutate_ok hm
      simp only [hm] at h
      cases h
      exact .bought hroute hfree hnew hcash

theorem sell_effect (ledger : Ledger) (r : SellRequest) (now : Int) :
    Effect ledger (.sell r now) (.sold (recordPaperSell r now ledger).1)
      (recordPaperSell r now ledger).2 := by
  unfold recordPaperSell
  split
  · exact .refused ⟨rfl, rfl⟩
  · rename_i p hp
    obtain ⟨hp, hm⟩ := Option.filter_eq_some_iff.1 hp
    simp only
    split_ifs with hsold
    · exact .refused ⟨rfl, rfl⟩
    · exact .sold hp hm (by omega)
    · exact .sold hp hm (by omega)

/-- Every mutator that returns has one of the listed effects. -/
theorem Op.mutate_effect {op : Op} {ledger ledger' : Ledger} {ret : Ret}
    (h : op.mutate ledger = .ok (ret, ledger')) : Effect ledger op ret ledger' := by
  cases op with
  | buy r positionId now => exact buy_effect h
  | rejection mint score reasons signature now =>
    simp only [mutate, recordPaperRejection] at h
    split_ifs at h <;> cases h
    · exact .refused refusal_done
    · exact .noted rfl rfl
  | rpcSkip mint signature reason now =>
    simp only [mutate, recordRpcSkip] at h
    split_ifs at h <;> cases h
    · exact .refused refusal_done
    · exact .noted rfl rfl
  | claim mint positionId reason exitId =>
    simp only [mutate, claimPositionExit] at h
    cases hp : ledger.positionWithId? mint positionId with
    | none => simp only [hp] at h; cases h; exact .refused ⟨rfl, rfl⟩
    | some p =>
      simp only [hp] at h
      split_ifs at h with hs <;> cases h
      · exact .refused ⟨rfl, rfl⟩
      · exact .claimed hp hs
  | release mint positionId exitId degraded =>
    simp only [mutate, releaseExitClaim] at h
    cases hp : ledger.positionWithId? mint positionId with
    | none => simp only [hp] at h; cases h; exact .refused refusal_done
    | some p =>
      simp only [hp] at h
      split_ifs at h with hs <;> cases h
      · exact .released hp hs
      · exact .refused refusal_done
  | sell r now =>
    simp only [mutate, Except.ok.injEq, Prod.mk.injEq] at h
    obtain ⟨rfl, rfl⟩ := h
    exact sell_effect ledger r now
  | mark mint positionId value now =>
    simp only [mutate, recordPositionMark] at h
    cases hp : ledger.positionWithId? mint positionId with
    | none => simp only [hp] at h; cases h; exact .refused refusal_done
    | some p =>
      simp only [hp] at h
      split_ifs at h with hv <;> cases h
      · exact .refused refusal_done
      · exact .marked hp (by omega)
  | lifecycle mint positionId items =>
    simp only [mutate, recordLiveTransactionLifecycle] at h
    cases hp : ledger.positionWithId? mint positionId with
    | none => simp only [hp] at h; cases h; exact .refused refusal_done
    | some p => simp only [hp] at h; cases h; exact .lifecycled hp
  | breakEvenFloor mint positionId =>
    simp only [mutate, ensureBreakEvenFloor] at h
    cases hp : ledger.positionWithId? mint positionId with
    | none => simp only [hp] at h; cases h; exact .refused ⟨rfl, rfl⟩
    | some p =>
      simp only [hp] at h
      split_ifs at h with h1 h2 <;> cases h
      · exact .refused ⟨rfl, rfl⟩
      · exact .armed hp h1
      · exact .refused ⟨rfl, rfl⟩
  | quoteFailure mint positionId error now =>
    simp only [mutate, recordQuoteFailure] at h
    cases hp : ledger.positionWithId? mint positionId with
    | none => simp only [hp] at h; cases h; exact .refused ⟨rfl, rfl⟩
    | some p => simp only [hp] at h; cases h; exact .quoteFailed hp

/-- A call that writes answers what its mutator does, and raises the version only when that returns. -/
theorem Op.run_eq (op : Op) (hw : op.writes = true) (ledger : Ledger) :
    op.run ledger = match op.mutate ledger with
      | .ok (ret, ledger') => (ret, { ledger' with version := ledger.version + 1 })
      | .error e => (.raised e, ledger) := by
  unfold Op.run updateJson
  rw [if_pos hw]
  cases hm : op.mutate ledger with
  | ok x => obtain ⟨ret, ledger'⟩ := x; rfl
  | error e => rfl

/-- What a buy needs besides a new signal: room under the capacity it names, no open position of its
mint, and the cash. -/
structure BuyRequest.Fits (r : BuyRequest) (ledger : Ledger) : Prop where
  room : ∀ k ∈ r.maxStrategyOpenPositions, 0 < k ∧ (openCount ledger r.strategyVersion : Int) < k
  free : ledger.position? r.mint = none
  cash : r.costLamports ≤ ledger.cashLamports

/-- The mutator of a buy accepts exactly the buys that fit and whose signal is not recorded. -/
theorem recordPaperBuyMutate_eq (r : BuyRequest) (route : RouteType) (positionId : Uuid) (now : Int)
    (ledger : Ledger) :
    (r.Fits ledger ∧ buyRecorded ledger r.mint r.sourceSignature = false ∧
      recordPaperBuyMutate r route positionId now ledger = .ok (positionId, r.enter route positionId now ledger)) ∨
    (¬ (r.Fits ledger ∧ buyRecorded ledger r.mint r.sourceSignature = false) ∧
      ∃ e, recordPaperBuyMutate r route positionId now ledger = .error e) := by
  unfold recordPaperBuyMutate
  split_ifs with hpositive hroom hfree hnew hcash
  · refine .inr ⟨fun h => ?_, _, rfl⟩
    obtain ⟨k, hk, hle⟩ := (Option.any_eq_true _ _).1 hpositive
    have := (h.1.room k hk).1
    have := of_decide_eq_true hle
    omega
  · refine .inr ⟨fun h => ?_, _, rfl⟩
    obtain ⟨k, hk, hle⟩ := (Option.any_eq_true _ _).1 hroom
    have := (h.1.room k hk).2
    have := of_decide_eq_true hle
    omega
  · refine .inr ⟨fun h => ?_, _, rfl⟩
    rw [h.1.free] at hfree
    cases hfree
  · refine .inr ⟨fun h => ?_, _, rfl⟩
    rw [hnew] at h
    exact Bool.noConfusion h.2
  · exact .inr ⟨fun h => absurd h.1.cash (by omega), _, rfl⟩
  · refine .inl ⟨⟨fun k hk => ?_, by simpa using hfree, by omega⟩, by simpa using hnew, rfl⟩
    rw [Option.any_eq_true] at hpositive hroom
    constructor
    · by_contra hle
      exact hpositive ⟨k, hk, decide_eq_true (by omega)⟩
    · by_contra hle
      exact hroom ⟨k, hk, decide_eq_true (by omega)⟩

/-- A buy is accepted where its arguments pass the checks, it fits and its signal is not recorded; any
other raises and leaves the ledger it found. -/
theorem run_buy (r : BuyRequest) (positionId : Uuid) (now : Int) (ledger : Ledger) :
    (∃ route, r.check = .ok route ∧ r.Fits ledger ∧ buyRecorded ledger r.mint r.sourceSignature = false ∧
      (Op.buy r positionId now).run ledger =
        (.bought positionId, { r.enter route positionId now ledger with version := ledger.version + 1 })) ∨
    (¬ ((∃ route, r.check = .ok route) ∧ r.Fits ledger ∧
        buyRecorded ledger r.mint r.sourceSignature = false) ∧
      ∃ e, (Op.buy r positionId now).run ledger = (.raised e, ledger)) := by
  rw [Op.run_eq (.buy r positionId now) rfl]
  simp only [Op.mutate]
  cases hroute : r.check with
  | error e =>
    refine .inr ⟨?_, e, rfl⟩
    rintro ⟨⟨route, h⟩, -⟩
    cases h
  | ok route =>
    rcases recordPaperBuyMutate_eq r route positionId now ledger with ⟨hfits, hnew, hok⟩ | ⟨hno, e, herror⟩
    · exact .inl ⟨route, rfl, hfits, hnew, by simp only [hok]; rfl⟩
    · exact .inr ⟨fun h => hno h.2, e, by simp only [herror]; rfl⟩

/-- Every call has one of the listed effects, and besides it may raise the document version. -/
theorem Op.run_effect (op : Op) (ledger : Ledger) : ∃ ledger' v,
    Effect ledger op (op.run ledger).1 ledger' ∧ (op.run ledger).2 = { ledger' with version := v } := by
  unfold Op.run
  split_ifs
  · cases hu : updateJson op.mutate none ledger with
    | ok x =>
      obtain ⟨ret, written⟩ := x
      obtain ⟨v, ledger', -, -, hm, rfl⟩ := updateJson_ok hu
      exact ⟨ledger', v + 1, Op.mutate_effect hm, rfl⟩
    | error e => cases e <;> exact ⟨ledger, ledger.version, .refused ⟨rfl, rfl⟩, rfl⟩
  · exact ⟨ledger, ledger.version, .refused refusal_done, rfl⟩

end Aibot.Risk
