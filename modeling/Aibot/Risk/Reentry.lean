/-
The re-entry cool-down of a token: `token_cooldown_is_active` of the monitor reads the mint's latest
BUY and its latest stop from the events the ledger still holds.
-/
import Aibot.Lib.Newest
import Aibot.Observation.Row
import Aibot.Risk.Books
import Aibot.Risk.Flood

namespace Aibot.Risk

open Aibot.Store Aibot.Observation

/-! ## Constants -/

/-- `TOKEN_TRADE_COOLDOWN_SECONDS`, in microseconds. -/
def tokenTradeCooldown : Int := 2700000000
/-- `STOP_LOSS_TOKEN_COOLDOWN_SECONDS`, in microseconds. -/
def stopLossTokenCooldown : Int := 86400000000
def stopLossBlacklistMaxTokens : Int := 50

/-- The `stop_reasons` of `get_recent_stop_loss_time`. -/
def ExitReason.isStopLoss : ExitReason → Bool
  | .stopLoss15 | .routeBStopLoss10 | .liveStopLoss15 | .postTpTrailingStop50 => true
  | _ => false

/-! ## Reading the ledger -/

/-- A BUY of the token. -/
def Event.buysToken (token : Mint) (e : Event) : Bool := e.body.buy?.any fun record => record.mint = token

/-- `get_last_trade_time`; a BUY without a readable time counts as none. -/
def getLastTradeTime (ledger : Ledger) (tokenAddress : Mint) : Int :=
  let token := strip tokenAddress
  if token = "" then 0
  else match newest (Event.buysToken token) ledger.events with
    | some e => (parseTime e.at_).getD 0
    | none => 0

/-- The loop of `get_recent_stop_loss_time` over the events, newest first, with the tokens seen so
far; `none` where the time of the token's stop cannot be read and the function raises. -/
def recentStopLoop (token : Mint) (limit : Nat) : List Event → Finset Mint → Option Int
  | [], _ => some 0
  | e :: older, seenTokens =>
    match e.body with
    | .sell record =>
      if record.reason.isStopLoss then
        let eventMint := strip record.mint
        if eventMint = "" ∨ eventMint ∈ seenTokens then recentStopLoop token limit older seenTokens
        else if eventMint = token then parseTime e.at_
        else if limit ≤ (insert eventMint seenTokens).card then some 0
        else recentStopLoop token limit older (insert eventMint seenTokens)
      else recentStopLoop token limit older seenTokens
    | _ => recentStopLoop token limit older seenTokens

/-- `get_recent_stop_loss_time`. -/
def getRecentStopLossTime (ledger : Ledger) (tokenAddress : Mint) (maximumTokens : Int) : Option Int :=
  let token := strip tokenAddress
  let limit := max 1 (min 50 maximumTokens)
  if token = "" then some 0 else recentStopLoop token limit.toNat ledger.events.reverse ∅

/-- `token_cooldown_is_active`: closed also where the lookup raises. -/
def tokenCooldownIsActive (ledger : Ledger) (mint : Mint) (now : Int) : Bool :=
  match getRecentStopLossTime ledger mint stopLossBlacklistMaxTokens with
  | none => true
  | some lastStopLossTime =>
    if 0 < lastStopLossTime ∧ now - lastStopLossTime < stopLossTokenCooldown then true
    else
      let lastTradeTime := getLastTradeTime ledger mint
      decide (0 < lastTradeTime ∧ now - lastTradeTime < tokenTradeCooldown)

/-! ## What the cool-down is for -/

/-- The mint an initial stop or a trailing stop sold. -/
def Event.stopMint? (e : Event) : Option Mint :=
  (e.body.sell?.filter fun record => record.reason.isStopLoss).map SellRecord.mint

/-- A stop of the mint. -/
def Event.stops (mint : Mint) (e : Event) : Bool := e.stopMint? = some mint

/-- The mints stopped before the first stop of `mint` in a list of events. -/
def stopsBefore (mint : Mint) (newestFirst : List Event) : Finset Mint :=
  ((newestFirst.takeWhile fun e => !e.stops mint).filterMap Event.stopMint?).toFinset

/-- The other mints stopped after the latest stop of `mint`. -/
def stoppedSince (events : List Event) (mint : Mint) : Finset Mint := stopsBefore mint events.reverse

/-- The event is younger than `age`. -/
def Event.Young (age now : Int) (e : Event) : Prop := ∃ t, parseTime e.at_ = some t ∧ now - t < age

/-- The mint's latest BUY is less than 45 minutes old. -/
def YoungBuy (events : List Event) (mint : Mint) (now : Int) : Prop :=
  ∃ e, newest (Event.buysToken mint) events = some e ∧ e.Young tokenTradeCooldown now

/-- The mint's latest stop is younger than the stop-loss cool-down, and the mint is one of the fifty
stopped most recently. -/
def YoungStop (events : List Event) (mint : Mint) (now : Int) : Prop :=
  ∃ e, newest (Event.stops mint) events = some e ∧ e.Young stopLossTokenCooldown now ∧
    (stoppedSince events mint).card < 50

/-- What the cool-down promises of a mint at a time. -/
def CoolsDown (w : World) (mint : Mint) (now : Int) : Prop :=
  (YoungBuy w.recorded mint now → tokenCooldownIsActive w.ledger mint now = true) ∧
    (YoungStop w.recorded mint now → tokenCooldownIsActive w.ledger mint now = true)

/-! ## The scan -/

/-- A mint as the chain spells it. -/
def CleanMint (mint : Mint) : Prop := strip mint = mint ∧ mint ≠ ""

theorem recentStopLoop_skip {token : Mint} {limit : Nat} {e : Event} {older : List Event} {seen : Finset Mint}
    (h : e.stopMint? = none) :
    recentStopLoop token limit (e :: older) seen = recentStopLoop token limit older seen := by
  rw [recentStopLoop]
  unfold Event.stopMint? at h
  cases hb : e.body with
  | sell record =>
    rw [hb] at h
    have hreason : record.reason.isStopLoss = false := by simpa [EventBody.sell?, Option.filter_some] using h
    simp only [hreason]
    rfl
  | buy | signalRejected | skippedByRpcError | transactionLifecycle => rfl

theorem recentStopLoop_stop {token m : Mint} {limit : Nat} {e : Event} {older : List Event}
    {seen : Finset Mint} (h : e.stopMint? = some m) (hm : CleanMint m) :
    recentStopLoop token limit (e :: older) seen =
      if m ∈ seen then recentStopLoop token limit older seen
      else if m = token then parseTime e.at_
      else if limit ≤ (insert m seen).card then some 0
      else recentStopLoop token limit older (insert m seen) := by
  obtain ⟨record, hrecord, rfl⟩ := Option.map_eq_some_iff.1 h
  obtain ⟨hsell, hreason⟩ := Option.filter_eq_some_iff.1 hrecord
  rw [recentStopLoop]
  cases hb : e.body with
  | sell record' =>
    rw [hb] at hsell
    cases hsell
    simp only [hreason, hm.1, hm.2, if_true, false_or]
  | buy | signalRejected | skippedByRpcError | transactionLifecycle => rw [hb] at hsell; cases hsell

theorem stopsBefore_cons_none {mint : Mint} {e : Event} {older : List Event} (h : e.stopMint? = none) :
    stopsBefore mint (e :: older) = stopsBefore mint older := by
  have hs : e.stops mint = false := by simp [Event.stops, h]
  unfold stopsBefore
  rw [List.takeWhile_cons_of_pos (by simp [hs]), List.filterMap_cons_none h]

theorem stopsBefore_cons_some {mint m : Mint} {e : Event} {older : List Event} (h : e.stopMint? = some m)
    (hne : m ≠ mint) : stopsBefore mint (e :: older) = insert m (stopsBefore mint older) := by
  have hs : e.stops mint = false := by simp [Event.stops, h, hne]
  unfold stopsBefore
  rw [List.takeWhile_cons_of_pos (by simp [hs]), List.filterMap_cons_some h, List.toFinset_cons]

/-- The scan finds the latest stop of the token where fewer than `limit` tokens were seen before. -/
theorem recentStopLoop_eq (token : Mint) (limit : Nat) : ∀ (newestFirst : List Event) (seen : Finset Mint),
    (∀ e ∈ newestFirst, ∀ m, e.stopMint? = some m → CleanMint m) → token ∉ seen → seen.card < limit →
    recentStopLoop token limit newestFirst seen =
      match newestFirst.find? (Event.stops token) with
      | some e => if (seen ∪ stopsBefore token newestFirst).card < limit then parseTime e.at_ else some 0
      | none => some 0
  | [], _, _, _, _ => rfl
  | e :: older, seen, hclean, htoken, hcard => by
    have hclean' : ∀ e ∈ older, ∀ m, e.stopMint? = some m → CleanMint m :=
      fun e he => hclean e (List.mem_cons_of_mem _ he)
    cases hm : e.stopMint? with
    | none =>
      have hs : e.stops token = false := by simp [Event.stops, hm]
      rw [recentStopLoop_skip hm, List.find?_cons_of_neg (by simp [hs]), stopsBefore_cons_none hm]
      exact recentStopLoop_eq token limit older seen hclean' htoken hcard
    | some m =>
      rw [recentStopLoop_stop hm (hclean e List.mem_cons_self m hm)]
      by_cases heq : m = token
      · -- the token's own stop: every token seen so far is another one
        subst heq
        have hs : e.stops m = true := by simp [Event.stops, hm]
        have hnone : stopsBefore m (e :: older) = ∅ := by
          unfold stopsBefore
          rw [List.takeWhile_cons_of_neg (by simp [hs])]
          rfl
        rw [if_neg htoken, if_pos rfl, List.find?_cons_of_pos hs, hnone, Finset.union_empty]
        exact (if_pos hcard).symm
      · have hs : e.stops token = false := by simp [Event.stops, hm, heq]
        rw [if_neg heq, List.find?_cons_of_neg (by simp [hs]), stopsBefore_cons_some hm heq,
          Finset.union_insert, ← Finset.insert_union]
        by_cases hseen : m ∈ seen
        · rw [if_pos hseen, Finset.insert_eq_of_mem hseen]
          exact recentStopLoop_eq token limit older seen hclean' htoken hcard
        · rw [if_neg hseen]
          by_cases hlimit : limit ≤ (insert m seen).card
          · -- the limit is reached, and the token's stop is not among the latest
            have hlarge : ¬ (insert m seen ∪ stopsBefore token older).card < limit := by
              have hle := Finset.card_le_card (@Finset.subset_union_left _ _ (insert m seen)
                (stopsBefore token older))
              omega
            rw [if_pos hlimit]
            cases older.find? (Event.stops token) with
            | some e' => exact (if_neg hlarge).symm
            | none => rfl
          · have htoken' : token ∉ insert m seen := by
              rw [Finset.mem_insert]
              rintro (h | h)
              · exact heq h.symm
              · exact htoken h
            rw [if_neg hlimit]
            exact recentStopLoop_eq token limit older (insert m seen) hclean' htoken' (by omega)

/-! ## Tidy worlds -/

/-- The mints bought are spelt as on the chain, and the clock reads a time after the epoch. -/
def tidyStep (_ : World) (op : Op) : Prop :=
  (∀ r ∈ op.buy?, CleanMint r.mint) ∧ ∀ now ∈ op.now?, 0 < now

/-- What such calls leave: clean mints in every BUY and SELL, and a readable time. -/
structure Tidy (w : World) : Prop where
  books : Books w
  times : ∀ e ∈ w.recorded, e.isTrade = true → ∃ t, e.at_ = .instant t ∧ 0 < t
  buys : ∀ b ∈ buys w.recorded, CleanMint b.mint
  sells : ∀ s ∈ sells w.recorded, CleanMint s.mint

theorem tidy_start : Tidy World.start := by
  refine ⟨books_start, ?_, ?_, ?_⟩
  · intro e he; cases he
  · intro b hb; cases hb
  · intro s hs; cases hs

/-- The mint of an open position was bought. -/
theorem Tidy.position {w : World} (hw : Tidy w) {mint : Mint} {p : Position}
    (hp : w.ledger.position? mint = some p) : CleanMint mint := by
  obtain ⟨b, hb, rfl, -⟩ := (hw.books.opened mint p hp).bought
  exact hw.buys b hb

theorem Tidy.step {w w' : World} {op : Op} (hw : Tidy w) (hop : tidyStep w op) (h : w.step op = some w') :
    Tidy w' := by
  refine ⟨books_step hw.books h, ?_, ?_, ?_⟩
  · obtain ⟨new, ha⟩ := step_appends h
    intro e he ht
    rw [ha.recorded] at he
    rcases List.mem_append.1 he with hold | hnew
    · exact hw.times e hold ht
    · obtain ⟨now, hnow, hat⟩ := ha.times e hnew ht
      exact ⟨now, hat, hop.2 now hnow⟩
  · intro b hb
    have hturn := step_turn h
    generalize (op.run w.ledger).1 = ret at hturn
    cases hturn with
    | @bought r route positionId round now _ _ _ _ _ _ hrec =>
      rw [hrec.buys] at hb
      rcases List.mem_append.1 hb with hold | hnew
      · exact hw.buys b hold
      · rw [List.mem_singleton.1 hnew]
        exact hop.1 r rfl
    | idle _ _ _ hrec | claimed _ _ _ _ _ hrec | released _ _ _ _ hrec | touched _ _ _ _ _ hrec
    | sold _ _ _ _ _ _ hrec =>
      rw [hrec.buys, List.append_nil] at hb
      exact hw.buys b hb
  · intro s hs
    cases step_entry h with
    | @sold r p p' sold _ hp _ _ _ _ _ _ hrec =>
      rw [hrec.sells] at hs
      rcases List.mem_append.1 hs with hold | hnew
      · exact hw.sells s hold
      · rw [List.mem_singleton.1 hnew]
        exact hw.position hp
    | idle _ _ hrec | touched _ _ _ _ hrec | bought _ _ _ _ _ _ _ _ hrec =>
      rw [hrec.sells, List.append_nil] at hs
      exact hw.sells s hs

theorem run_tidy {ops : List Op} {w : World} (h : Run World.step tidyStep World.start ops w) : Tidy w :=
  h.invariant (fun _ _ _ hw hop hs => hw.step hop hs) tidy_start

theorem stopMint?_mem {events : List Event} {e : Event} {m : Mint} (he : e ∈ events)
    (hm : e.stopMint? = some m) : ∃ s ∈ sells events, s.mint = m := by
  obtain ⟨s, hs, rfl⟩ := Option.map_eq_some_iff.1 hm
  exact ⟨s, List.mem_filterMap.2 ⟨e, he, (Option.filter_eq_some_iff.1 hs).1⟩, rfl⟩

theorem buysToken_mem {events : List Event} {e : Event} {m : Mint} (he : e ∈ events)
    (hm : e.buysToken m = true) : ∃ b ∈ buys events, b.mint = m := by
  obtain ⟨b, hb, hbm⟩ := (Option.any_eq_true _ _).1 hm
  exact ⟨b, List.mem_filterMap.2 ⟨e, he, hb⟩, of_decide_eq_true hbm⟩

theorem Tidy.stopMint {w : World} (hw : Tidy w) {e : Event} (he : e ∈ w.recorded) {m : Mint}
    (hm : e.stopMint? = some m) : CleanMint m := by
  obtain ⟨s, hs, rfl⟩ := stopMint?_mem he hm
  exact hw.sells s hs

/-! ## The cool-down over the events of the ledger -/

/-- A readable time after the epoch is young exactly as the monitor decides it. -/
theorem young_iff {e : Event} {t age now : Int} (h : e.at_ = .instant t) :
    e.Young age now ↔ now - t < age := by
  unfold Event.Young
  rw [h]
  simp [parseTime]

theorem isTrade_of_buysToken {e : Event} {m : Mint} (h : e.buysToken m = true) : e.isTrade = true := by
  obtain ⟨b, hb, -⟩ := (Option.any_eq_true _ _).1 h
  unfold Event.isTrade
  rw [hb]; rfl

theorem isTrade_of_stops {e : Event} {m : Mint} (h : e.stops m = true) : e.isTrade = true := by
  obtain ⟨s, hs, -⟩ := Option.map_eq_some_iff.1 (of_decide_eq_true h)
  unfold Event.isTrade
  rw [(Option.filter_eq_some_iff.1 hs).1, Option.isSome_some, Bool.or_true]

/-- The events of a ledger whose trades have readable times and whose stops have clean mints. -/
structure TidyEvents (events : List Event) : Prop where
  times : ∀ e ∈ events, e.isTrade = true → ∃ t, e.at_ = .instant t ∧ 0 < t
  stops : ∀ e ∈ events, ∀ m, e.stopMint? = some m → CleanMint m

theorem lastTrade_young_iff {ledger : Ledger} {mint : Mint} {now : Int} (hmint : CleanMint mint)
    (ht : TidyEvents ledger.events) :
    0 < getLastTradeTime ledger mint ∧ now - getLastTradeTime ledger mint < tokenTradeCooldown ↔
      YoungBuy ledger.events mint now := by
  unfold getLastTradeTime YoungBuy
  simp only [hmint.1, hmint.2, if_false]
  cases hn : newest (Event.buysToken mint) ledger.events with
  | none => simp
  | some e =>
    obtain ⟨t, hat, hpos⟩ := ht.times e (newest_mem hn) (isTrade_of_buysToken (newest_prop hn))
    simp [hat, parseTime, hpos, young_iff]

/-- The lookup never raises on such events, and it answers with the time of a stop that counts. -/
theorem recentStop_young_iff {ledger : Ledger} {mint : Mint} (now : Int) (hmint : CleanMint mint)
    (ht : TidyEvents ledger.events) :
    ∃ t, getRecentStopLossTime ledger mint stopLossBlacklistMaxTokens = some t ∧
      (0 < t ∧ now - t < stopLossTokenCooldown ↔ YoungStop ledger.events mint now) := by
  have hloop := recentStopLoop_eq mint 50 ledger.events.reverse ∅
    (fun e he => ht.stops e (List.mem_reverse.1 he)) (Finset.notMem_empty mint) (by decide)
  have hget : getRecentStopLossTime ledger mint stopLossBlacklistMaxTokens =
      recentStopLoop mint 50 ledger.events.reverse ∅ := by
    unfold getRecentStopLossTime
    simp only [hmint.1, hmint.2, if_false]
    rfl
  rw [hget, hloop, Finset.empty_union]
  unfold YoungStop stoppedSince newest
  cases hn : ledger.events.reverse.find? (Event.stops mint) with
  | none => exact ⟨0, rfl, by simp⟩
  | some e =>
    obtain ⟨t, hat, hpos⟩ := ht.times e (newest_mem hn) (isTrade_of_stops (newest_prop hn))
    simp only
    by_cases hfew : (stopsBefore mint ledger.events.reverse).card < 50
    · refine ⟨t, by rw [if_pos hfew, hat]; rfl, ?_⟩
      simp [hpos, hfew, young_iff hat]
    · refine ⟨0, if_neg hfew, ?_⟩
      simp [hfew]

/-- The monitor's answer, from the events it reads. -/
theorem tokenCooldownIsActive_iff {ledger : Ledger} {mint : Mint} {now : Int} (hmint : CleanMint mint)
    (ht : TidyEvents ledger.events) : tokenCooldownIsActive ledger mint now = true ↔
      YoungBuy ledger.events mint now ∨ YoungStop ledger.events mint now := by
  obtain ⟨t, hget, hstop⟩ := recentStop_young_iff now hmint ht
  unfold tokenCooldownIsActive
  rw [hget]
  simp only
  split_ifs with hyoung
  · simp only [hstop.1 hyoung, or_true]
  · have hno : ¬ YoungStop ledger.events mint now := fun h => hyoung (hstop.2 h)
    rw [decide_eq_true_eq, lastTrade_young_iff hmint ht]
    simp [hno]

/-! ## The cool-down over runs -/

/-- The latest event of the kind that was ever recorded is still in the ledger. -/
def LatestKept (w : World) (kind : Event → Bool) : Prop :=
  ∃ e, newest kind w.recorded = some e ∧ e ∈ w.ledger.events

theorem youngBuy_kept {w : World} (h : w.ledger.events <:+ w.recorded) {mint : Mint} {now : Int} :
    YoungBuy w.ledger.events mint now ↔
      YoungBuy w.recorded mint now ∧ LatestKept w (Event.buysToken mint) := by
  constructor
  · rintro ⟨e, he, hyoung⟩
    have hwhole := newest_of_suffix h he
    exact ⟨⟨e, hwhole, hyoung⟩, e, hwhole, newest_mem he⟩
  · rintro ⟨⟨e, he, hyoung⟩, e', he', hmem⟩
    rw [he] at he'
    cases he'
    exact ⟨e, (newest_suffix_iff h he).2 hmem, hyoung⟩

theorem youngStop_kept {w : World} (h : w.ledger.events <:+ w.recorded) {mint : Mint} {now : Int} :
    YoungStop w.ledger.events mint now ↔
      YoungStop w.recorded mint now ∧ LatestKept w (Event.stops mint) := by
  have hsince : ∀ e, newest (Event.stops mint) w.ledger.events = some e →
      stoppedSince w.ledger.events mint = stoppedSince w.recorded mint := by
    intro e he
    have hnewer := newerThan_suffix h he
    unfold newerThan at hnewer
    unfold stoppedSince stopsBefore
    rw [hnewer]
  constructor
  · rintro ⟨e, he, hyoung, hfew⟩
    have hwhole := newest_of_suffix h he
    rw [hsince e he] at hfew
    exact ⟨⟨e, hwhole, hyoung, hfew⟩, e, hwhole, newest_mem he⟩
  · rintro ⟨⟨e, he, hyoung, hfew⟩, e', he', hmem⟩
    rw [he] at he'
    cases he'
    have hkept := (newest_suffix_iff h he).2 hmem
    rw [← hsince e hkept] at hfew
    exact ⟨e, hkept, hyoung, hfew⟩

theorem Tidy.events {w : World} (hw : Tidy w) (h : w.ledger.events <:+ w.recorded) :
    TidyEvents w.ledger.events :=
  ⟨fun e he => hw.times e (h.subset he), fun _ he _ hm => hw.stopMint (h.subset he) hm⟩

/-- A mint that counts as young was bought or stopped, so it is clean. -/
theorem Tidy.clean_of_young {w : World} (hw : Tidy w) {mint : Mint} {now : Int}
    (h : YoungBuy w.recorded mint now ∨ YoungStop w.recorded mint now) : CleanMint mint := by
  rcases h with ⟨e, he, -⟩ | ⟨e, he, -⟩
  · obtain ⟨b, hb, rfl⟩ := buysToken_mem (newest_mem he) (newest_prop he)
    exact hw.buys b hb
  · have hs : e.stops mint = true := newest_prop he
    exact hw.stopMint (newest_mem he) (of_decide_eq_true hs)

/-- The re-entry cool-down. In every run, the promise is kept for a mint at a time exactly when it is
idle, or the young BUY or the young stop that demands it is still in the ledger. -/
theorem reentry_cools_down (ops : List Op) (w : World) (h : Run World.step tidyStep World.start ops w)
    (mint : Mint) (now : Int) :
    CoolsDown w mint now ↔
      (YoungBuy w.recorded mint now ∨ YoungStop w.recorded mint now →
        (YoungBuy w.recorded mint now ∧ LatestKept w (Event.buysToken mint)) ∨
        (YoungStop w.recorded mint now ∧ LatestKept w (Event.stops mint))) := by
  have hw := run_tidy h
  have hkept := (run_trail h).kept
  have hpromise : CoolsDown w mint now ↔ (YoungBuy w.recorded mint now ∨ YoungStop w.recorded mint now →
      tokenCooldownIsActive w.ledger mint now = true) := or_imp.symm
  rw [hpromise]
  refine imp_congr_right fun hyoung => ?_
  rw [tokenCooldownIsActive_iff (hw.clean_of_young hyoung) (hw.events hkept), youngBuy_kept hkept,
    youngStop_kept hkept]

theorem noise_tidy {now : Int} (i : Nat) (w : World) : tidyStep w (noise i now) :=
  ⟨by simp [noise, Op.buy?], by simp [noise, Op.now?]⟩

instance (mint : Mint) : Decidable (CleanMint mint) := inferInstanceAs (Decidable (_ ∧ _))

instance (w : World) (op : Op) : Decidable (tidyStep w op) :=
  inferInstanceAs (Decidable ((∀ r ∈ op.buy?, CleanMint r.mint) ∧ ∀ now ∈ op.now?, 0 < now))

/-- A BUY of two seconds ago, still in the ledger. -/
theorem reentry_cools_down_bought : ∃ w : World, CoolsDown w "mint" 3000000 ∧
    YoungBuy w.recorded "mint" 3000000 := by
  obtain ⟨w, hrun, e, he, hat, hmem⟩ : ∃ w, Run World.step tidyStep World.start
      [.buy sampleBuy ⟨0⟩ 1000000, .rejection "other" 0 [] "signature" 2000000] w ∧
      ∃ e ∈ newest (Event.buysToken "mint") w.recorded, e.at_ = .instant 1000000 ∧
        e ∈ w.ledger.events := Run.exists_of_any (by decide +kernel)
  have hyoung : YoungBuy w.recorded "mint" 3000000 := ⟨e, he, (young_iff hat).2 (by decide)⟩
  exact ⟨w, (reentry_cools_down _ w hrun "mint" 3000000).2 fun _ => .inl ⟨hyoung, e, he, hmem⟩, hyoung⟩

/-- Events without trades have no newest trade of any kind. -/
theorem newest_noTrades {events : List Event} (h : ∀ e ∈ events, e.isTrade = false) {kind : Event → Bool}
    (hkind : ∀ e, kind e = true → e.isTrade = true) : newest kind events = none :=
  newest_eq_none.2 (kind_of_noTrades h hkind)

/-- A ledger without trades never cools a mint down. -/
theorem not_active_of_noTrades {ledger : Ledger} (h : ∀ e ∈ ledger.events, e.isTrade = false) {mint : Mint}
    (hmint : CleanMint mint) (now : Int) : ¬ tokenCooldownIsActive ledger mint now = true := by
  have hbuys : newest (Event.buysToken mint) ledger.events = none :=
    newest_noTrades h fun _ => isTrade_of_buysToken
  have hstops : ∀ m, newest (Event.stops m) ledger.events = none :=
    fun m => newest_noTrades h fun _ => isTrade_of_stops
  have ht : TidyEvents ledger.events := by
    refine ⟨fun e he ht => ?_, fun e he m hm => ?_⟩
    · rw [h e he] at ht; cases ht
    · have hs : e.stops m = true := decide_eq_true hm
      rw [newest_eq_none.1 (hstops m) e he] at hs
      cases hs
  rw [tokenCooldownIsActive_iff hmint ht]
  rintro (⟨e, he, -⟩ | ⟨e, he, -⟩)
  · rw [hbuys] at he; cases he
  · rw [hstops] at he; cases he

/-- A BUY, a stop a second later, and two thousand rejections after that: the ledger has forgotten both,
and the mint may be bought again within the same minute. -/
theorem reentry_forgotten : ¬ ∀ (ops : List Op) (w : World), Run World.step tidyStep World.start ops w →
    ∀ mint now, CoolsDown w mint now := by
  intro hall
  obtain ⟨w, hrun, hlength, htrades, e, he, hat⟩ : ∃ w, Run World.step tidyStep World.start
      [.buy sampleBuy ⟨0⟩ 1000000, .claim "mint" ⟨0⟩ .stopLoss15 ⟨1⟩,
        .sell ⟨"mint", 10, 800, .stopLoss15, some ⟨0⟩, some ⟨1⟩⟩ 2000000] w ∧
      w.ledger.events.length ≤ eventLimit ∧ (∀ e ∈ w.ledger.events, e.isTrade = true) ∧
      ∃ e ∈ newest (Event.buysToken "mint") w.recorded, e.at_ = .instant 1000000 :=
    Run.exists_of_any (by decide +kernel)
  obtain ⟨w', new, hrun', hnew, hevents, hrecorded, -⟩ :=
    flood_forgets hlength htrades 3000000 noise_tidy
  have hyoung : YoungBuy w'.recorded "mint" 4000000 := by
    refine ⟨e, ?_, (young_iff hat).2 (by decide)⟩
    have hnone : newest (Event.buysToken "mint") new = none :=
      newest_noTrades hnew fun _ => isTrade_of_buysToken
    rw [hrecorded, newest_append, hnone]
    exact he
  have hactive := (hall _ w' (hrun.append hrun') "mint" 4000000).1 hyoung
  exact not_active_of_noTrades (by rw [hevents]; exact hnew) (by decide) 4000000 hactive

end Aibot.Risk
