/-
The gate for the buys of whales: a trade passes by its own strength, or by what its wallet has paid for
the token within three minutes.
-/
import Aibot.Lib.Floating
import Aibot.Lib.Newest
import Aibot.Lib.Window

namespace Aibot.Monitor

/-! ## The code -/

def singleStrengthLamports : Int := 1500000000

def minAccumulationTradeLamports : Int := 1000000000

def accumulationTargetLamports : Int := 5000000000

def accumulationWindowSeconds : ℚ := 180

/-- How a difference of floats is rounded. -/
structure Rounding where
  round : ℚ → ℚ
  mono : Monotone round

/-- Differences as binary64 has them. -/
def binary64 : Rounding := ⟨rounded, rounded_mono⟩

/-- A call of `whale_buy_amount_allowed`, with `observed_at` or what `time.monotonic()` gives. -/
structure WhaleBuy where
  paidLamports : Int
  wallet : String
  mint : String
  signature : String
  observedAt : ℚ
  deriving DecidableEq

namespace WhaleBuy

/-- A history is kept for each wallet and token. -/
def key (buy : WhaleBuy) : String × String := (buy.wallet, buy.mint)

end WhaleBuy

/-- An item `(now, paid_lamports)` of a history, with the number of its call and its signature, which the
code does not keep. -/
structure Trade where
  observedAt : ℚ
  paidLamports : Int
  call : Nat
  signature : String
  deriving DecidableEq

/-- Where an answer comes from. -/
inductive Gate
  | noise
  | singleStrength
  | accumulation
  | waiting
  deriving DecidableEq

/-- An answer, with the trades that its log line counts. -/
structure Decision where
  gate : Gate
  trades : List Trade
  deriving DecidableEq

/-- What the call returns. -/
def Decision.approved (decision : Decision) : Bool :=
  match decision.gate with
  | .singleStrength | .accumulation => true
  | .noise | .waiting => false

/-- The module's state, with the number of the calls so far. -/
structure WhaleState where
  buyHistory : Dict (String × String) (List Trade)
  lastHistoryCleanupAt : ℚ
  calls : Nat

def total (trades : List Trade) : Int := (trades.map Trade.paidLamports).sum

variable (ρ : Rounding)

def cutoff (now : ℚ) : ℚ := ρ.round (now - accumulationWindowSeconds)

/-- The sweep over all histories, at most once a minute. -/
def cleanUp (now : ℚ) (s : WhaleState) : WhaleState :=
  if 60 ≤ ρ.round (now - s.lastHistoryCleanupAt) then
    { s with
      buyHistory := s.buyHistory.expire Trade.observedAt (cutoff ρ now)
      lastHistoryCleanupAt := now }
  else s

def WhaleState.trade (s : WhaleState) (buy : WhaleBuy) : Trade :=
  ⟨buy.observedAt, buy.paidLamports, s.calls, buy.signature⟩

/-- `whale_buy_amount_allowed`, after the sweep. -/
def gate (s : WhaleState) (buy : WhaleBuy) : Decision × Dict (String × String) (List Trade) :=
  let history := expire Trade.observedAt (cutoff ρ buy.observedAt) (s.buyHistory.queue buy.key)
  if buy.paidLamports ≤ minAccumulationTradeLamports then
    (⟨.noise, []⟩, if history.isEmpty then s.buyHistory.erase buy.key else s.buyHistory.set buy.key history)
  else
    let appended := history ++ [s.trade buy]
    if singleStrengthLamports ≤ buy.paidLamports then
      (⟨.singleStrength, [s.trade buy]⟩, s.buyHistory.set buy.key appended)
    else if accumulationTargetLamports ≤ total appended then
      (⟨.accumulation, appended⟩, s.buyHistory.erase buy.key)
    else (⟨.waiting, []⟩, s.buyHistory.set buy.key appended)

def whaleBuyAmountAllowed (s : WhaleState) (buy : WhaleBuy) : Decision × WhaleState :=
  let swept := cleanUp ρ buy.observedAt s
  let answer := gate ρ swept buy
  (answer.1, { swept with buyHistory := answer.2, calls := s.calls + 1 })

/-- The module after its import, or with any time of the last sweep. -/
def WhaleState.initial (lastHistoryCleanupAt : ℚ) : WhaleState := ⟨Dict.empty, lastHistoryCleanupAt, 0⟩

/-- The answers to calls in order. -/
def decisions : WhaleState → List WhaleBuy → List Decision
  | _, [] => []
  | s, buy :: buys => (whaleBuyAmountAllowed ρ s buy).1 :: decisions (whaleBuyAmountAllowed ρ s buy).2 buys

/-! ## The specification -/

/-- A call with the trade it brings and the answer it was given. -/
structure Answered where
  key : String × String
  trade : Trade
  gate : Gate

/-- The call was an accumulation approval of the wallet and token. -/
def Answered.resets (key : String × String) (a : Answered) : Bool := a.key = key ∧ a.gate = .accumulation

/-- The trades of a wallet and token above the noise floor since its last accumulation approval, in a
history that forgets nothing. -/
def counted (log : List Answered) (key : String × String) : List Trade :=
  ((newerThan (Answered.resets key) log).reverse.filter
    fun a => a.key = key ∧ minAccumulationTradeLamports < a.trade.paidLamports).map Answered.trade

/-- The trades that a call counts: those within the window, and its own. -/
def withinWindow (log : List Answered) (key : String × String) (trade : Trade) : List Trade :=
  (counted log key).filter (cutoff ρ trade.observedAt ≤ ·.observedAt) ++ [trade]

/-- The answer of the specification. -/
def specified (log : List Answered) (key : String × String) (trade : Trade) : Decision :=
  if trade.paidLamports ≤ minAccumulationTradeLamports then ⟨.noise, []⟩
  else if singleStrengthLamports ≤ trade.paidLamports then ⟨.singleStrength, [trade]⟩
  else if accumulationTargetLamports ≤ total (withinWindow ρ log key trade) then
    ⟨.accumulation, withinWindow ρ log key trade⟩
  else ⟨.waiting, []⟩

/-- The history after a call. -/
def extended (log : List Answered) (key : String × String) (trade : Trade) : List Answered :=
  log ++ [⟨key, trade, (specified ρ log key trade).gate⟩]

/-- The answers of the specification to calls in order. -/
def specification : List Answered → List WhaleBuy → List Decision
  | _, [] => []
  | log, buy :: buys =>
    let trade : Trade := ⟨buy.observedAt, buy.paidLamports, log.length, buy.signature⟩
    specified ρ log buy.key trade :: specification (extended ρ log buy.key trade) buys

variable {ρ}

/-! ## The full history -/

theorem counted_concat (log : List Answered) (a : Answered) (key : String × String) :
    counted (log ++ [a]) key = if a.resets key then [] else
      counted log key ++
        if a.key = key ∧ minAccumulationTradeLamports < a.trade.paidLamports then [a.trade] else [] := by
  unfold counted newerThan
  rw [List.reverse_append, List.reverse_singleton, List.singleton_append, List.takeWhile_cons]
  cases hreset : a.resets key with
  | true => rfl
  | false =>
    rw [Bool.not_false, if_pos rfl, if_neg Bool.false_ne_true, List.reverse_cons, List.filter_append, List.map_append]
    congr 1
    by_cases h : a.key = key ∧ minAccumulationTradeLamports < a.trade.paidLamports
    · rw [if_pos h, List.filter_cons_of_pos (by simpa using h)]
      rfl
    · rw [if_neg h, List.filter_cons_of_neg (by simpa using h)]
      rfl

theorem mem_counted {log : List Answered} {key : String × String} {trade : Trade} (h : trade ∈ counted log key) :
    ∃ a ∈ log, a.key = key ∧ a.trade = trade := by
  obtain ⟨a, ha, rfl⟩ := List.mem_map.1 h
  obtain ⟨hmem, hkey⟩ := List.mem_filter.1 ha
  unfold newerThan at hmem
  have hlog : a ∈ log := List.mem_reverse.1 ((List.takeWhile_sublist _).subset (List.mem_reverse.1 hmem))
  exact ⟨a, hlog, (by simpa using hkey : _ ∧ _).1, rfl⟩

/-- The calls of the history came in the order of time, and no later than `now`. -/
structure Before (log : List Answered) (now : ℚ) : Prop where
  ordered : log.Pairwise fun a b => a.trade.observedAt ≤ b.trade.observedAt
  past : ∀ a ∈ log, a.trade.observedAt ≤ now

theorem Before.counted {log : List Answered} {now : ℚ} (h : Before log now) (key : String × String) :
    InOrder Trade.observedAt (counted log key) := by
  unfold Monitor.counted InOrder
  rw [List.pairwise_map]
  refine List.Pairwise.filter _ ?_
  unfold newerThan
  rw [List.pairwise_reverse]
  exact (List.pairwise_reverse.2 h.ordered).sublist (List.takeWhile_sublist _)

theorem Before.extended {log : List Answered} {key : String × String} {trade : Trade}
    (h : Before log trade.observedAt) {now : ℚ} (hnow : trade.observedAt ≤ now) :
    Before (extended ρ log key trade) now where
  ordered := by
    refine List.pairwise_append.2 ⟨h.ordered, List.pairwise_singleton _ _, fun a ha b hb => ?_⟩
    obtain rfl := List.mem_singleton.1 hb
    exact h.past a ha
  past a ha := by
    rcases List.mem_append.1 ha with ha | ha
    · exact (h.past a ha).trans hnow
    · obtain rfl := List.mem_singleton.1 ha
      exact hnow

/-! ## The simulation -/

theorem cutoff_mono {now now' : ℚ} (h : now ≤ now') : cutoff ρ now ≤ cutoff ρ now' :=
  ρ.mono (sub_le_sub_right h _)

variable (ρ) in
/-- A history holds, of the trades of its wallet and token, those within the window of any later call. -/
def Windowed (queue full : List Trade) (now : ℚ) : Prop :=
  ∀ later, now ≤ later → expire Trade.observedAt (cutoff ρ later) queue =
    full.filter (cutoff ρ later ≤ ·.observedAt)

theorem Windowed.later {queue full : List Trade} {now now' : ℚ} (h : Windowed ρ queue full now) (hnow : now ≤ now') :
    Windowed ρ queue full now' := fun later hlater => h later (hnow.trans hlater)

/-- A sweep, or the expiry in a call, changes nothing. -/
theorem Windowed.expire {queue full : List Trade} {now : ℚ} (h : Windowed ρ queue full now) :
    Windowed ρ (expire Trade.observedAt (cutoff ρ now) queue) full now := by
  intro later hlater
  rw [expire_expire (cutoff_mono hlater)]
  exact h later hlater

/-- The trade of a call is within the windows of later ones or is not, on both sides. -/
theorem Windowed.append {queue full : List Trade} {now : ℚ} (h : Windowed ρ queue full now)
    (hqueue : InOrder Trade.observedAt queue) {trade : Trade} (htrade : ∀ t ∈ queue, t.observedAt ≤ trade.observedAt) :
    Windowed ρ (queue ++ [trade]) (full ++ [trade]) now := by
  intro later hlater
  rw [expire_eq_filter (inOrder_concat hqueue htrade), List.filter_append, List.filter_append,
    ← expire_eq_filter hqueue, h later hlater]

variable (ρ) in
/-- What the module holds of the full history. -/
structure Simulates (s : WhaleState) (log : List Answered) (now : ℚ) : Prop where
  calls : s.calls = log.length
  before : Before log now
  windowed : ∀ key, Windowed ρ (s.buyHistory.queue key) (counted log key) now
  kept : ∀ key, (s.buyHistory.queue key).Sublist (counted log key)

namespace Simulates

variable {s : WhaleState} {log : List Answered} {now : ℚ}

theorem initial (lastHistoryCleanupAt now : ℚ) : Simulates ρ (.initial lastHistoryCleanupAt) [] now where
  calls := rfl
  before := ⟨.nil, fun _ h => absurd h List.not_mem_nil⟩
  windowed _ _ _ := rfl
  kept _ := .slnil

theorem later {now' : ℚ} (h : Simulates ρ s log now) (hnow : now ≤ now') : Simulates ρ s log now' where
  calls := h.calls
  before := ⟨h.before.ordered, fun a ha => (h.before.past a ha).trans hnow⟩
  windowed key := (h.windowed key).later hnow
  kept := h.kept

theorem cleanUp (h : Simulates ρ s log now) : Simulates ρ (cleanUp ρ now s) log now := by
  unfold Monitor.cleanUp
  split_ifs
  · refine ⟨h.calls, h.before, fun key => ?_, fun key => ?_⟩
    · show Windowed ρ ((s.buyHistory.expire Trade.observedAt (cutoff ρ now)).queue key) _ now
      rw [Dict.queue_expire]
      exact (h.windowed key).expire
    · show ((s.buyHistory.expire Trade.observedAt (cutoff ρ now)).queue key).Sublist _
      rw [Dict.queue_expire]
      exact expire_sublist.trans (h.kept key)
  · exact h

/-- The history of the call's key is expired, and the trade appended or everything dropped. -/
theorem update {buy : WhaleBuy} (h : Simulates ρ s log buy.observedAt) (answer : Gate)
    {histories : Dict (String × String) (List Trade)} (hother : ∀ key ≠ buy.key,
      histories.queue key = s.buyHistory.queue key)
    (hself : histories.queue buy.key = if answer = .accumulation then [] else
      expire Trade.observedAt (cutoff ρ buy.observedAt) (s.buyHistory.queue buy.key) ++
        if minAccumulationTradeLamports < buy.paidLamports then [s.trade buy] else [])
    (hanswer : answer = (specified ρ log buy.key (s.trade buy)).gate) :
    Simulates ρ { s with buyHistory := histories, calls := s.calls + 1 } (extended ρ log buy.key (s.trade buy))
      buy.observedAt := by
  have hcounted : ∀ key, counted (extended ρ log buy.key (s.trade buy)) key =
      if buy.key = key ∧ answer = .accumulation then [] else
        counted log key ++
          if buy.key = key ∧ minAccumulationTradeLamports < buy.paidLamports then [s.trade buy] else [] := by
    intro key
    unfold extended
    rw [counted_concat, ← hanswer]
    simp only [Answered.resets, decide_eq_true_eq]
    rfl
  have hexpired := (h.windowed buy.key).expire
  have hsorted : InOrder Trade.observedAt
      (expire Trade.observedAt (cutoff ρ buy.observedAt) (s.buyHistory.queue buy.key)) :=
    InOrder.expire ((h.before.counted buy.key).sublist (h.kept buy.key)) _
  have hpast : ∀ t ∈ expire Trade.observedAt (cutoff ρ buy.observedAt) (s.buyHistory.queue buy.key),
      t.observedAt ≤ (s.trade buy).observedAt := by
    intro t ht
    obtain ⟨a, ha, -, rfl⟩ := mem_counted ((h.kept buy.key).subset (expire_sublist.subset ht))
    exact h.before.past a ha
  refine ⟨?_, h.before.extended le_rfl, fun key => ?_, fun key => ?_⟩
  · show s.calls + 1 = (extended ρ log buy.key (s.trade buy)).length
    unfold extended
    rw [h.calls, List.length_append, List.length_singleton]
  · rw [hcounted]
    show Windowed ρ (histories.queue key) _ _
    by_cases hkey : buy.key = key
    · subst hkey
      simp only [true_and, hself]
      split_ifs with hreset hnoise
      · exact fun _ _ => rfl
      · exact hexpired.append hsorted hpast
      · simpa using hexpired
    · simp only [hkey, false_and, if_false, List.append_nil, hother key (Ne.symm hkey)]
      exact h.windowed key
  · rw [hcounted]
    show (histories.queue key).Sublist _
    by_cases hkey : buy.key = key
    · subst hkey
      simp only [true_and, hself]
      split_ifs with hreset hnoise
      · exact .slnil
      · exact (expire_sublist.trans (h.kept buy.key)).append_right _
      · simpa using expire_sublist.trans (h.kept buy.key)
    · simp only [hkey, false_and, if_false, List.append_nil, hother key (Ne.symm hkey)]
      exact h.kept key

/-- A call decides as the specification does. -/
theorem gate {buy : WhaleBuy} (h : Simulates ρ s log buy.observedAt) :
    (gate ρ s buy).1 = specified ρ log buy.key (s.trade buy) ∧
      Simulates ρ { s with buyHistory := (Monitor.gate ρ s buy).2, calls := s.calls + 1 }
        (extended ρ log buy.key (s.trade buy)) buy.observedAt := by
  have hwindow : withinWindow ρ log buy.key (s.trade buy) =
      expire Trade.observedAt (cutoff ρ buy.observedAt) (s.buyHistory.queue buy.key) ++ [s.trade buy] := by
    rw [h.windowed buy.key buy.observedAt le_rfl]
    rfl
  have hother : ∀ (items : List Trade), ∀ key ≠ buy.key,
      (s.buyHistory.set buy.key items).queue key = s.buyHistory.queue key := by
    intro items key hkey
    rw [Dict.queue_set, if_neg hkey]
  have hself : ∀ items : List Trade, (s.buyHistory.set buy.key items).queue buy.key = items := by
    intro items
    rw [Dict.queue_set, if_pos rfl]
  have herased : ∀ key ≠ buy.key, (s.buyHistory.erase buy.key).queue key = s.buyHistory.queue key := by
    intro key hkey
    rw [Dict.queue_erase, if_neg hkey]
  have hgone : (s.buyHistory.erase buy.key).queue buy.key = [] := by
    rw [Dict.queue_erase, if_pos rfl]
  have hpaid : (s.trade buy).paidLamports = buy.paidLamports := rfl
  unfold Monitor.gate specified
  simp only [hwindow, hpaid]
  split_ifs with hnoise hempty hstrong htarget
  · refine ⟨rfl, h.update .noise herased ?_ ?_⟩
    · rw [hgone, List.isEmpty_iff.1 hempty, if_neg hnoise.not_gt]
      rfl
    · unfold specified
      rw [hpaid, if_pos hnoise]
  · refine ⟨rfl, h.update .noise (hother _) ?_ ?_⟩
    · rw [hself, if_neg hnoise.not_gt, List.append_nil]
      rfl
    · unfold specified
      rw [hpaid, if_pos hnoise]
  · refine ⟨rfl, h.update .singleStrength (hother _) ?_ ?_⟩
    · rw [hself, if_pos (not_le.1 hnoise)]
      rfl
    · unfold specified
      rw [hpaid, if_neg hnoise, if_pos hstrong]
  · refine ⟨rfl, h.update .accumulation herased hgone ?_⟩
    unfold specified
    rw [hpaid, hwindow, if_neg hnoise, if_neg hstrong, if_pos htarget]
  · refine ⟨rfl, h.update .waiting (hother _) ?_ ?_⟩
    · rw [hself, if_pos (not_le.1 hnoise)]
      rfl
    · unfold specified
      rw [hpaid, hwindow, if_neg hnoise, if_neg hstrong, if_neg htarget]

end Simulates

/-- The calls come in the order of time. -/
def Chronological (buys : List WhaleBuy) : Prop := InOrder WhaleBuy.observedAt buys

theorem decisions_eq : ∀ (buys : List WhaleBuy) {s : WhaleState} {log : List Answered},
    Chronological buys → (∀ buy ∈ buys, Simulates ρ s log buy.observedAt) →
    decisions ρ s buys = specification ρ log buys
  | [], _, _, _, _ => rfl
  | buy :: buys, s, log, hsorted, h => by
    obtain ⟨hfirst, hrest⟩ := List.pairwise_cons.1 hsorted
    have hswept := (h buy List.mem_cons_self).cleanUp
    have htrade : (cleanUp ρ buy.observedAt s).trade buy =
        ⟨buy.observedAt, buy.paidLamports, log.length, buy.signature⟩ := by
      unfold WhaleState.trade
      rw [hswept.calls]
    obtain ⟨hanswer, hnext⟩ := hswept.gate
    rw [htrade] at hanswer hnext
    have hcalls : (cleanUp ρ buy.observedAt s).calls = s.calls :=
      hswept.calls.trans (h buy List.mem_cons_self).calls.symm
    rw [hcalls] at hnext
    unfold decisions specification
    refine List.cons_eq_cons.2 ⟨hanswer, decisions_eq buys hrest fun later hlater => ?_⟩
    exact hnext.later (hfirst later hlater)

/-- The filter refines its specification: however its calls with times in order mix wallets and tokens,
each is answered as if the full history were kept, whatever the sweeps have dropped. -/
theorem whaleBuyAmountAllowed_refines (ρ : Rounding) (lastHistoryCleanupAt : ℚ) (buys : List WhaleBuy)
    (hsorted : Chronological buys) :
    (decisions ρ (.initial lastHistoryCleanupAt) buys).map Decision.approved =
      (specification ρ [] buys).map Decision.approved := by
  rw [decisions_eq buys hsorted fun buy _ => Simulates.initial lastHistoryCleanupAt buy.observedAt]

/-- Three trades, the first one exactly 180 seconds old at the fourth. -/
def fourBuys : List WhaleBuy :=
  [⟨1250000000, "wallet", "mint", "a", 1000⟩, ⟨1250000000, "wallet", "mint", "b", 1010⟩,
    ⟨1250000000, "wallet", "mint", "c", 1020⟩, ⟨1250000000, "wallet", "mint", "d", 1180⟩]

theorem whaleBuyAmountAllowed_refines_four :
    (decisions binary64 (.initial 0) fourBuys).map Decision.approved =
      (specification binary64 [] fourBuys).map Decision.approved := by
  refine whaleBuyAmountAllowed_refines binary64 0 fourBuys ?_
  unfold Chronological InOrder fourBuys
  decide +kernel

/-! ## Trades that justify two approvals -/

/-- Each call of the history brought a trade of its own. -/
structure Numbered (log : List Answered) : Prop where
  past : ∀ a ∈ log, a.trade.call < log.length
  alone : ∀ a ∈ log, ∀ b ∈ log, a.trade = b.trade → a.key = b.key

namespace Numbered

variable {log : List Answered}

theorem extended (h : Numbered log) (key : String × String) {trade : Trade} (htrade : trade.call = log.length) :
    Numbered (extended ρ log key trade) where
  past a ha := by
    unfold Monitor.extended at ha ⊢
    rw [List.length_append, List.length_singleton]
    rcases List.mem_append.1 ha with ha | ha
    · have := h.past a ha
      omega
    · obtain rfl := List.mem_singleton.1 ha
      show trade.call < _
      omega
  alone a ha b hb heq := by
    rcases List.mem_append.1 ha with ha | ha <;> rcases List.mem_append.1 hb with hb | hb
    · exact h.alone a ha b hb heq
    · obtain rfl := List.mem_singleton.1 hb
      have := h.past a ha
      rw [heq, htrade] at this
      omega
    · obtain rfl := List.mem_singleton.1 ha
      have := h.past b hb
      rw [← heq, htrade] at this
      omega
    · obtain rfl := List.mem_singleton.1 ha
      obtain rfl := List.mem_singleton.1 hb
      rfl

theorem counted_lt (h : Numbered log) {key : String × String} {trade : Trade} (ht : trade ∈ counted log key) :
    trade.call < log.length := by
  obtain ⟨a, ha, -, rfl⟩ := mem_counted ht
  exact h.past a ha

/-- A trade counts for one wallet and token. -/
theorem counted_key (h : Numbered log) {key key' : String × String} {trade : Trade} (ht : trade ∈ counted log key)
    (ht' : trade ∈ counted log key') : key = key' := by
  obtain ⟨a, ha, rfl, heq⟩ := mem_counted ht
  obtain ⟨b, hb, rfl, heq'⟩ := mem_counted ht'
  exact h.alone a ha b hb (heq.trans heq'.symm)

end Numbered

/-- What an approval counts: its own trade, and in an accumulation trades of the history. -/
theorem mem_specified_trades {log : List Answered} {key : String × String} {trade t : Trade}
    (h : t ∈ (specified ρ log key trade).trades) :
    t = trade ∨ (specified ρ log key trade).gate = .accumulation ∧ t ∈ counted log key := by
  unfold specified at h ⊢
  split_ifs at h ⊢ with hnoise hstrong htarget
  · exact absurd h List.not_mem_nil
  · exact .inl (List.mem_singleton.1 h)
  · rcases List.mem_append.1 h with h | h
    · exact .inr ⟨rfl, (List.mem_filter.1 h).1⟩
    · exact .inl (List.mem_singleton.1 h)
  · exact absurd h List.not_mem_nil

/-- After a call a history counts nothing new but its trade, and after an accumulation approval nothing
of its wallet and token. -/
theorem mem_counted_extended {log : List Answered} {key key' : String × String} {trade t : Trade}
    (h : t ∈ counted (extended ρ log key trade) key') :
    ¬ (key = key' ∧ (specified ρ log key trade).gate = .accumulation) ∧
      (t ∈ counted log key' ∨ key = key' ∧ t = trade) := by
  unfold extended at h
  rw [counted_concat] at h
  split_ifs at h with hreset hown
  · exact absurd h List.not_mem_nil
  · refine ⟨by simpa [Answered.resets] using hreset, ?_⟩
    rcases List.mem_append.1 h with h | h
    · exact .inl h
    · exact .inr ⟨hown.1, List.mem_singleton.1 h⟩
  · refine ⟨by simpa [Answered.resets] using hreset, ?_⟩
    rw [List.append_nil] at h
    exact .inl h

/-- A trade of an earlier call counts in accumulations only. -/
theorem mem_specification_trades : ∀ (buys : List WhaleBuy) {log : List Answered}, Numbered log →
    ∀ d ∈ specification ρ log buys, ∀ t ∈ d.trades, t.call < log.length →
      d.gate = .accumulation ∧ ∃ key, t ∈ counted log key
  | [], _, _, d, hd, _, _, _ => absurd hd List.not_mem_nil
  | buy :: buys, log, h, d, hd, t, ht, hlt => by
    unfold specification at hd
    rcases List.mem_cons.1 hd with rfl | hd
    · rcases mem_specified_trades ht with rfl | ⟨hgate, ht⟩
      · exact absurd hlt (lt_irrefl _)
      · exact ⟨hgate, buy.key, ht⟩
    · obtain ⟨hgate, key, ht⟩ := mem_specification_trades buys (h.extended buy.key rfl) d hd t ht (by
        unfold extended
        rw [List.length_append]
        omega)
      rcases (mem_counted_extended ht).2 with ht | ⟨-, rfl⟩
      · exact ⟨hgate, key, ht⟩
      · exact absurd hlt (lt_irrefl _)

/-- Of two approvals with a trade in common, the first is of that trade by its own strength and the second
by accumulation. -/
def SharesOnlyStrong (first second : Decision) : Prop :=
  first.approved = true → second.approved = true → ∀ t ∈ first.trades, t ∈ second.trades →
    first.gate = .singleStrength ∧ first.trades = [t] ∧ second.gate = .accumulation

theorem specification_shares : ∀ (buys : List WhaleBuy) {log : List Answered}, Numbered log →
    (specification ρ log buys).Pairwise SharesOnlyStrong
  | [], _, _ => .nil
  | buy :: buys, log, h => by
    unfold specification
    have hnumbered := h.extended (ρ := ρ) buy.key
      (show Trade.call ⟨buy.observedAt, buy.paidLamports, log.length, buy.signature⟩ = log.length from rfl)
    refine List.pairwise_cons.2 ⟨fun d hd hfirst hsecond t ht ht' => ?_, specification_shares buys hnumbered⟩
    have hlt : t.call < (extended ρ log buy.key
        ⟨buy.observedAt, buy.paidLamports, log.length, buy.signature⟩).length := by
      unfold extended
      rw [List.length_append, List.length_singleton]
      rcases mem_specified_trades ht with rfl | ⟨-, hold⟩
      · exact Nat.lt_succ_self _
      · exact (h.counted_lt hold).trans (Nat.lt_succ_self _)
    obtain ⟨hgate, key, hcounted⟩ := mem_specification_trades buys hnumbered d hd t ht' hlt
    obtain ⟨hnot, hcounted⟩ := mem_counted_extended hcounted
    -- an accumulation has reset its wallet and token, and trades of others it has not counted
    have hstrong : (specified ρ log buy.key
        ⟨buy.observedAt, buy.paidLamports, log.length, buy.signature⟩).gate ≠ .accumulation := by
      intro haccumulated
      refine hnot ⟨?_, haccumulated⟩
      rcases hcounted with hold' | ⟨hkey, -⟩
      · rcases mem_specified_trades ht with rfl | ⟨-, hold⟩
        · exact absurd (h.counted_lt hold') (lt_irrefl _)
        · exact h.counted_key hold hold'
      · exact hkey
    unfold Decision.approved at hfirst
    unfold specified at hfirst ht hstrong ⊢
    split_ifs at hfirst ht hstrong ⊢ with hnoise hstrength htarget
    · exact ⟨rfl, by rw [List.mem_singleton.1 ht], hgate⟩
    · exact absurd rfl hstrong

/-- A trade of one and a half SOL passes by its own strength, and counts again for the trades after it. -/
def strongThenWeak : List WhaleBuy :=
  [⟨1500000000, "wallet", "mint", "a", 1000⟩, ⟨1250000000, "wallet", "mint", "b", 1010⟩,
    ⟨1250000000, "wallet", "mint", "c", 1020⟩, ⟨1250000000, "wallet", "mint", "d", 1030⟩]

end Aibot.Monitor
