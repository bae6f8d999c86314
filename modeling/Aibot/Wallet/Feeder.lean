/-
The wallet feeder's functions: the score of a wallet, the selection of the active wallets, and the
lists that a refresh, a replenishment and a replacement write. The rank of a score is a parameter:
the source computes it with logarithms of floating-point numbers.
-/
import Aibot.Wallet.Performance
import Mathlib.Data.List.Sort

namespace Aibot.Wallet

structure FeederSettings where
  maxWallets : Nat
  minSolBalance : ℚ
  maxDailyTransactions : Nat
  maxCandidates : Nat
  eliteReservedSlots : Nat

/-- A row of `wallets.json` and of `wallet_candidates.json`. -/
structure WalletScore where
  address : Address
  balanceSol : ℚ
  dailyTransactions : Nat
  wins : Nat := 0
  losses : Nat := 0
  winRate : ℚ := 0
  averageReturnPercent : ℚ := 0
  cumulativeReturnPercent : ℚ := 0
  processedCount : Nat := 0
  paperBuyCount : Nat := 0
  verified : Bool := true
  source : String := "solana_rpc_dex_signer"
  isElite : Bool := false
  locked : Bool := false
  deriving DecidableEq, Repr

/-- `wallets.json`. -/
structure WalletList where
  wallets : List WalletScore := []
  count : Nat := 0
  deriving DecidableEq, Repr

def WalletList.addresses (list : WalletList) : List Address := list.wallets.map (·.address)

/-! ## Scores -/

/-- The row that `performance_for` reads. -/
def performanceRow (performance : Performance) (address : Address) : WalletRow :=
  (performance.get? address).getD {}

/-- `elite_performance`. -/
def elitePerformance (performance : Performance) (address : Address) : Bool :=
  let row := performanceRow performance address
  ¬ unavailable performance address ∧ (3 ≤ row.wins + row.losses ∧ 70 ≤ row.winRate ∨ 150 ≤ row.averageReturn)

/-- The sum of the capped returns. -/
def WalletRow.cumulativeReturn (row : WalletRow) : ℚ :=
  (row.samples.map fun sample => cappedReturnPercent sample.returnPercent).sum

/-- The score of a wallet with its counts from the performance document. -/
def walletScore (performance : Performance) (address : Address) (balanceSol : ℚ) (dailyTransactions : Nat)
    (verified : Bool) (source : String) : WalletScore :=
  let row := performanceRow performance address
  let elite := elitePerformance performance address
  { address, balanceSol, dailyTransactions
    wins := row.wins
    losses := row.losses
    winRate := row.winRate
    averageReturnPercent := row.averageReturn
    cumulativeReturnPercent := row.cumulativeReturn
    processedCount := row.processedCount
    paperBuyCount := row.paperBuyCount
    verified, source
    isElite := elite
    locked := elite }

/-- `evaluate`, with the balance and the transactions of the day that the RPC returned. -/
def evaluate (settings : FeederSettings) (performance : Performance) (address : Address) (balanceSol : ℚ)
    (daily : Nat) : Option WalletScore :=
  if unavailable performance address ∨ balanceSol < settings.minSolBalance ∨ settings.maxDailyTransactions < daily
  then none
  else some (walletScore performance address (roundTo 6 balanceSol) daily true "solana_rpc_dex_signer")

/-- `score_from_snapshot`. -/
def scoreFromSnapshot (row : WalletScore) (performance : Performance) : Option WalletScore :=
  if row.address = "" ∨ unavailable performance row.address then none
  else some (walletScore performance row.address row.balanceSol row.dailyTransactions row.verified row.source)

/-! ## Selection -/

section Selection

variable {ρ : Type*} [LinearOrder ρ] (scoreRank : WalletScore → ρ)

/-- `sorted(rows, key=score_rank, reverse=True)`. -/
def sortByRank (rows : List WalletScore) : List WalletScore :=
  rows.insertionSort fun a b => scoreRank b ≤ scoreRank a

/-- Keep the better score of an address. -/
def keepBest (best : Dict Address WalletScore) (score : WalletScore) : Dict Address WalletScore :=
  match best.get? score.address with
  | none => best.set score.address score
  | some current => if scoreRank current < scoreRank score then best.set score.address score else best

/-- The best score of each address, in the order of its first. -/
def bestByAddress (scores : List WalletScore) : Dict Address WalletScore :=
  scores.foldl (keepBest scoreRank) Dict.empty

/-- `select_active_wallets`: the incumbent elite, the reserve of new elite, and the best of the rest. -/
def selectActiveWallets (settings : FeederSettings) (scores : List WalletScore)
    (incumbentAddresses : List Address) : List WalletScore :=
  let unique := (bestByAddress scoreRank scores).values
  let incumbentElite := sortByRank scoreRank
    (unique.filter fun row => row.isElite ∧ row.address ∈ incumbentAddresses)
  let otherElite := sortByRank scoreRank
    (unique.filter fun row => row.isElite ∧ row.address ∉ incumbentAddresses)
  let general := sortByRank scoreRank (unique.filter fun row => ¬ row.isElite)
  let reserveNeeded := settings.eliteReservedSlots - incumbentElite.length
  let survivalPool := sortByRank scoreRank (otherElite.drop reserveNeeded ++ general)
  (incumbentElite ++ otherElite.take reserveNeeded ++ survivalPool).take settings.maxWallets

/-- What the RPC answers about an address: its balance and the transactions of the day, or nothing
where a call raised. -/
abbrev Replies := Address → Option (ℚ × Nat)

/-- The scores of a refresh: an incumbent whose calls raised keeps its snapshot. -/
def qualifiedWallets (settings : FeederSettings) (performance : Performance) (existing : List WalletScore)
    (candidates : List Address) (replies : Replies) : List WalletScore :=
  let existingByAddress := Dict.ofList (existing.map fun row => (row.address, row))
  sortByRank scoreRank (candidates.filterMap fun address =>
    match replies address with
    | some (balance, daily) => evaluate settings performance address balance daily
    | none => (existingByAddress.get? address).bind fun row => scoreFromSnapshot row performance)

/-- `candidate_wallets`: incumbents and historical elite come before the discovered signers. -/
def candidateWallets (settings : FeederSettings) (incumbents : List Address) (performance : Performance)
    (discovered : List Address) : List Address :=
  let historicalElite := (performance.entries.map Prod.fst).filter fun address =>
    elitePerformance performance address
  (incumbents ++ historicalElite ++ discovered).eraseDups.take settings.maxCandidates

/-- The rows of the list that `replenish_from_candidate_cache` keeps. -/
def keptRows (document : WalletList) (performance : Performance) : List WalletScore :=
  document.wallets.filter fun row => row.address ≠ "" ∧ ¬ unavailable performance row.address

/-- The wallets that `replenish_from_candidate_cache` selects. -/
def replenished (settings : FeederSettings) (document : WalletList) (performance : Performance)
    (candidates : List WalletScore) : List WalletScore :=
  let rows := keptRows document performance
  let scores := (rows ++ candidates).filterMap fun row =>
    if unavailable performance row.address ∨ row.verified = false then none
    else scoreFromSnapshot row performance
  selectActiveWallets scoreRank settings scores (rows.map (·.address))

end Selection

/-! ## The replacement of a wallet -/

/-- The order of `_cooldown_and_replace`: elite or locked first, then by win rate, then by average. -/
def keepsBefore (a b : WalletScore) : Prop :=
  toLex (b.isElite || b.locked, toLex (b.winRate, b.averageReturnPercent)) ≤
    toLex (a.isElite || a.locked, toLex (a.winRate, a.averageReturnPercent))

instance : DecidableRel keepsBefore := fun _ _ => inferInstanceAs (Decidable (_ ≤ _))

/-- The rows that stay when a wallet is taken out. -/
def rowsWithout (settings : FeederSettings) (wallet : Address) (list : WalletList) : List WalletScore :=
  ((list.wallets.filter fun row => row.address ≠ "" ∧ row.address ≠ wallet).insertionSort keepsBefore).take
    settings.maxWallets

/-- The first candidate that is neither active, nor the wallet, nor unavailable. -/
def replacementFor (wallet : Address) (rows candidates : List WalletScore) (performance : Performance) :
    Option WalletScore :=
  candidates.find? fun row =>
    row.address ∉ rows.map (·.address) ∧ row.address ≠ wallet ∧ ¬ unavailable performance row.address

/-- The replacement that is put in, where there is room. -/
def replacementPut (settings : FeederSettings) (wallet : Address) (list : WalletList)
    (candidates : List WalletScore) (performance : Performance) : Option WalletScore :=
  let rows := rowsWithout settings wallet list
  if rows.length < settings.maxWallets then replacementFor wallet rows candidates performance else none

/-- `_cooldown_and_replace.mutate`. -/
def cooldownReplaced (settings : FeederSettings) (wallet : Address) (list : WalletList)
    (candidates : List WalletScore) (performance : Performance) : WalletList :=
  let rows := rowsWithout settings wallet list ++
    (replacementPut settings wallet list candidates performance).toList
  ⟨rows, rows.length⟩

/-! ## Who is listed -/

theorem evaluate_available {settings : FeederSettings} {performance : Performance} {address : Address}
    {balanceSol : ℚ} {daily : Nat} {score : WalletScore}
    (h : evaluate settings performance address balanceSol daily = some score) :
    unavailable performance score.address = false := by
  unfold evaluate at h
  split_ifs at h with hu
  obtain rfl := Option.some.inj h
  exact Bool.eq_false_iff.2 fun hc => hu (.inl hc)

theorem scoreFromSnapshot_available {row score : WalletScore} {performance : Performance}
    (h : scoreFromSnapshot row performance = some score) : unavailable performance score.address = false := by
  unfold scoreFromSnapshot at h
  split_ifs at h with hu
  obtain rfl := Option.some.inj h
  exact Bool.eq_false_iff.2 fun hc => hu (.inr hc)

section Selection

variable {ρ : Type*} [LinearOrder ρ] {scoreRank : WalletScore → ρ}

theorem mem_sortByRank {rows : List WalletScore} {row : WalletScore} (h : row ∈ sortByRank scoreRank rows) :
    row ∈ rows :=
  (List.perm_insertionSort _ rows).mem_iff.1 h

theorem mem_keepBest {best : Dict Address WalletScore} {score row : WalletScore}
    (h : row ∈ (keepBest scoreRank best score).values) : row = score ∨ row ∈ best.values := by
  have hset : row ∈ (best.set score.address score).values → row = score ∨ row ∈ best.values := by
    intro h
    obtain ⟨k, hk⟩ := Dict.mem_values.1 h
    rw [Dict.get?_set] at hk
    split_ifs at hk
    · exact .inl (Option.some.inj hk).symm
    · exact .inr (Dict.mem_values.2 ⟨k, hk⟩)
  unfold keepBest at h
  cases hb : best.get? score.address with
  | none => rw [hb] at h; exact hset h
  | some current =>
    rw [hb] at h
    simp only at h
    split_ifs at h
    · exact hset h
    · exact .inr h

theorem mem_foldl_keepBest {row : WalletScore} : ∀ (scores : List WalletScore) (best : Dict Address WalletScore),
    row ∈ (scores.foldl (keepBest scoreRank) best).values → row ∈ scores ∨ row ∈ best.values
  | [], _, h => .inr h
  | score :: scores, best, h => by
    rcases mem_foldl_keepBest scores _ h with h | h
    · exact .inl (List.mem_cons_of_mem _ h)
    · rcases mem_keepBest h with rfl | h
      · exact .inl List.mem_cons_self
      · exact .inr h

/-- The selected wallets are among the scores. -/
theorem mem_of_selected {settings : FeederSettings} {scores : List WalletScore} {incumbents : List Address}
    {row : WalletScore} (h : row ∈ selectActiveWallets scoreRank settings scores incumbents) : row ∈ scores := by
  suffices hunique : row ∈ (bestByAddress scoreRank scores).values from
    (mem_foldl_keepBest scores _ hunique).resolve_right fun hnone => by cases hnone
  rcases List.mem_append.1 (List.mem_of_mem_take h) with h | h
  · rcases List.mem_append.1 h with h | h
    · exact List.mem_of_mem_filter (mem_sortByRank h)
    · exact List.mem_of_mem_filter (mem_sortByRank (List.mem_of_mem_take h))
  · rcases List.mem_append.1 (mem_sortByRank h) with h | h
    · exact List.mem_of_mem_filter (mem_sortByRank (List.mem_of_mem_drop h))
    · exact List.mem_of_mem_filter (mem_sortByRank h)

theorem qualified_available {settings : FeederSettings} {performance : Performance} {existing : List WalletScore}
    {candidates : List Address} {replies : Replies} {row : WalletScore}
    (h : row ∈ qualifiedWallets scoreRank settings performance existing candidates replies) :
    unavailable performance row.address = false := by
  obtain ⟨address, -, hrow⟩ := List.mem_filterMap.1 (mem_sortByRank h)
  cases hr : replies address with
  | some answer => rw [hr] at hrow; exact evaluate_available hrow
  | none =>
    rw [hr] at hrow
    obtain ⟨snapshot, -, hs⟩ := Option.bind_eq_some_iff.1 hrow
    exact scoreFromSnapshot_available hs

theorem replenished_available {settings : FeederSettings} {document : WalletList} {performance : Performance}
    {candidates : List WalletScore} {row : WalletScore}
    (h : row ∈ replenished scoreRank settings document performance candidates) :
    unavailable performance row.address = false := by
  obtain ⟨snapshot, -, hs⟩ := List.mem_filterMap.1 (mem_of_selected h)
  split_ifs at hs
  exact scoreFromSnapshot_available hs

end Selection

/-- Who is listed after a replacement: who was, the wallet apart, and the replacement. -/
theorem mem_cooldownReplaced {settings : FeederSettings} {wallet : Address} {list : WalletList}
    {candidates : List WalletScore} {performance : Performance} {address : Address}
    (h : address ∈ (cooldownReplaced settings wallet list candidates performance).addresses) :
    address ≠ wallet ∧ (address ∈ list.addresses ∨ unavailable performance address = false) := by
  obtain ⟨row, hrow, rfl⟩ := List.mem_map.1 h
  rcases List.mem_append.1 hrow with hkept | hput
  · have hfilter := (List.perm_insertionSort _ _).mem_iff.1 (List.mem_of_mem_take hkept)
    obtain ⟨hmem, hne⟩ := List.mem_filter.1 hfilter
    exact ⟨(of_decide_eq_true hne).2, .inl (List.mem_map_of_mem hmem)⟩
  · have hput := Option.mem_toList.1 hput
    unfold replacementPut at hput
    simp only at hput
    split_ifs at hput
    have hr := List.find?_some hput
    simp only [decide_eq_true_eq] at hr
    exact ⟨hr.2.1, .inr (Bool.eq_false_iff.2 hr.2.2)⟩

end Aibot.Wallet
