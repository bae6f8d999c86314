/-
What a wallet's wins and losses count: one for each observation completed. A purchase observed again
after its sample has left the last hundred is pending once more, and counts twice when it completes;
apart from such replays every observation counts at most once.
-/
import Aibot.Lib.Run
import Aibot.Wallet.Performance

namespace Aibot.Wallet

open Risk (Mint)

/-! ## The runs -/

/-- The document, and the observations that were counted, with their wallets. -/
structure Tally where
  performance : Performance
  counted : List (Address × String)

/-- The document `{"wallets": {}}`. -/
def Tally.start : Tally := ⟨Dict.empty, []⟩

/-- A call on the row of a wallet, at a clock reading. -/
structure Call where
  op : RowOp
  wallet : Address
  now : Int
  deriving DecidableEq, Repr

/-- The id under which a purchase is observed. -/
def observationId (mint : Mint) (signature : String) : String := s!"{signature}:{mint}"

/-- The observation that a call completes: the pending one of its id. -/
def RowOp.counts (row : WalletRow) : RowOp → Option String
  | .completeObservation observationId _ =>
    (row.pending.find? (·.observationId = observationId)).map (·.observationId)
  | _ => none

def Tally.step (s : Tally) (c : Call) : Option Tally :=
  some {
    performance := (c.op.run c.wallet c.now s.performance).2
    counted := s.counted ++ (c.op.counts (walletRow s.performance c.wallet)).toList.map (c.wallet, ·) }

namespace WalletRow

def pendingIds (row : WalletRow) : List String := row.pending.map (·.observationId)

def sampleIds (row : WalletRow) : List String := row.samples.map (·.observationId)

end WalletRow

/-- No purchase is observed again whose observation was counted and has left the samples. -/
def remembersSample (s : Tally) (c : Call) : Prop :=
  match c.op with
  | .observeBuy mint signature _ =>
    (c.wallet, observationId mint signature) ∈ s.counted →
      observationId mint signature ∈ (walletRow s.performance c.wallet).sampleIds
  | _ => True

/-! ## One row -/

@[simp] theorem sync_pending (row : WalletRow) : row.sync.pending = row.pending := rfl

@[simp] theorem sync_samples (row : WalletRow) : row.sync.samples = row.samples := rfl

@[simp] theorem coolDown_pending (row : WalletRow) (reason : CooldownReason) (now : Int) :
    (row.coolDown reason now).pending = row.pending := rfl

@[simp] theorem coolDown_samples (row : WalletRow) (reason : CooldownReason) (now : Int) :
    (row.coolDown reason now).samples = row.samples := rfl

/-- What a call does to the pending observations and to the tally of a row. -/
inductive Tallied (row row' : WalletRow) : RowOp → Option String → Prop
  | kept {op : RowOp} : row'.pending = row.pending → row'.wins + row'.losses = row.wins + row.losses →
      Tallied row row' op none
  | observed {mint : Mint} {signature : String} {price : ℚ} :
      observationId mint signature ∉ row.pendingIds → observationId mint signature ∉ row.sampleIds →
      row'.pendingIds = row.pendingIds ++ [observationId mint signature] →
      row'.wins + row'.losses = row.wins + row.losses →
      Tallied row row' (.observeBuy mint signature price) none
  | completed {id : String} {price : ℚ} : id ∈ row.pendingIds → row'.pendingIds = row.pendingIds.erase id →
      row'.wins + row'.losses = row.wins + row.losses + 1 →
      Tallied row row' (.completeObservation id price) (some id)
  | skipped {id : String} : row'.pendingIds = row.pendingIds.erase id →
      row'.wins + row'.losses = row.wins + row.losses → Tallied row row' (.skipObservation id) none

/-- Removing an item by its id. -/
theorem map_eraseP (pending : List PendingSample) (id : String) :
    (pending.eraseP (·.observationId = id)).map (·.observationId) =
      (pending.map (·.observationId)).erase id := by
  induction pending with
  | nil => rfl
  | cons p pending ih =>
    rw [List.map_cons, List.erase_cons]
    by_cases hp : p.observationId = id
    · simp [hp]
    · simp [hp, ih]

theorem mutate_tallied (op : RowOp) (now : Int) (row : WalletRow) :
    Tallied row (op.mutate now row).2 op (op.counts row) := by
  cases op with
  | recordPaperBuySuccess signature =>
    refine .kept ?_ ?_ <;> simp only [RowOp.mutate, Wallet.recordPaperBuySuccess] <;> split_ifs <;> rfl
  | failObservation observationId => exact .kept rfl rfl
  | skipObservation observationId => exact .skipped (map_eraseP _ _) rfl
  | rejectUnsafeBuy mint signature =>
    simp only [RowOp.mutate, Wallet.rejectUnsafeBuy]
    generalize (if signature ≠ "unknown" then signature else _) = key
    refine .kept ?_ ?_ <;> split_ifs <;> rfl
  | observeBuy mint signature price =>
    simp only [RowOp.mutate, Wallet.observeBuy]
    generalize hprocessed : (if signature ∈ row.processedSignatures then row else _) = processed
    have hsame : processed.pending = row.pending ∧ processed.samples = row.samples ∧
        processed.wins = row.wins ∧ processed.losses = row.losses := by
      rw [← hprocessed]
      split_ifs <;> exact ⟨rfl, rfl, rfl, rfl⟩
    obtain ⟨hp, hsamples, hw, hl⟩ := hsame
    split_ifs with hknown
    · exact .kept hp (by simp [WalletRow.sync, hw, hl])
    · rw [hp, hsamples, List.mem_append, not_or] at hknown
      refine .observed hknown.1 hknown.2 ?_ (by simp [WalletRow.sync, hw, hl])
      simp [WalletRow.pendingIds, observationId, hp]
  | completeObservation observationId currentPrice =>
    simp only [RowOp.mutate, Wallet.completeObservation, RowOp.counts]
    cases hfind : row.pending.find? (·.observationId = observationId) with
    | none => exact .kept rfl rfl
    | some target =>
      have hid : target.observationId = observationId := by simpa using List.find?_some hfind
      have hmem : observationId ∈ row.pendingIds :=
        List.mem_map.2 ⟨target, List.mem_of_find?_eq_some hfind, hid⟩
      have hwon : (row.completed target (target.change currentPrice)).wins +
          (row.completed target (target.change currentPrice)).losses = row.wins + row.losses + 1 := by
        simp only [WalletRow.completed, WalletRow.sync]
        split_ifs <;> omega
      have hpending : (row.completed target (target.change currentPrice)).pendingIds =
          row.pendingIds.erase observationId := by
        simp only [WalletRow.pendingIds, WalletRow.completed, sync_pending, hid]
        exact map_eraseP _ _
      rw [Option.map_some, hid]
      dsimp only
      -- a cool-down that starts leaves the tally as it is
      split_ifs
      · exact .completed hmem hpending hwon
      · exact .completed hmem hpending hwon

/-! ## The invariant -/

theorem walletRow_set (performance : Performance) (wallet other : Address) (row : WalletRow) :
    walletRow (performance.set wallet row) other =
      if other = wallet then row.sync else walletRow performance other := by
  unfold walletRow
  rw [Dict.get?_set]
  split_ifs <;> rfl

structure TallyInv (s : Tally) : Prop where
  once : s.counted.Nodup
  pending : ∀ wallet, (walletRow s.performance wallet).pendingIds.Nodup
  /-- What is pending was not counted. -/
  fresh : ∀ wallet, ∀ id ∈ (walletRow s.performance wallet).pendingIds, (wallet, id) ∉ s.counted
  total : ∀ wallet, (walletRow s.performance wallet).wins + (walletRow s.performance wallet).losses =
    (s.counted.filter fun entry => entry.1 = wallet).length

theorem tallyInv_start : TallyInv .start where
  once := List.nodup_nil
  pending := fun _ => List.nodup_nil
  fresh := fun _ _ h => by cases h
  total := fun _ => rfl

section Step

variable {s s' : Tally} {c : Call}

/-- The other wallets keep their rows and what they count. -/
theorem TallyInv.written (hs : TallyInv s) {wallet : Address} {row : WalletRow} (new : List String)
    (honce : (s.counted ++ new.map (wallet, ·)).Nodup) (hpending : row.pendingIds.Nodup)
    (hfresh : ∀ id ∈ row.pendingIds, (wallet, id) ∉ s.counted ++ new.map (wallet, ·))
    (htotal : row.wins + row.losses = (walletRow s.performance wallet).wins +
      (walletRow s.performance wallet).losses + new.length) :
    TallyInv ⟨s.performance.set wallet row, s.counted ++ new.map (wallet, ·)⟩ := by
  have hfilter : ∀ other, ((new.map (wallet, ·)).filter fun entry => entry.1 = other) =
      if other = wallet then new.map (wallet, ·) else [] := by
    intro other
    split_ifs with hw
    · subst hw
      exact List.filter_eq_self.2 (by simp)
    · exact List.filter_eq_nil_iff.2 (by simpa using fun _ _ => Ne.symm hw)
  refine ⟨honce, fun other => ?_, fun other id hid => ?_, fun other => ?_⟩
  · rw [walletRow_set]
    split_ifs
    · exact hpending
    · exact hs.pending other
  · rw [walletRow_set] at hid
    split_ifs at hid with hw
    · subst hw
      exact hfresh id hid
    · intro hmem
      rcases List.mem_append.1 hmem with hmem | hmem
      · exact hs.fresh other id hid hmem
      · obtain ⟨_, -, heq⟩ := List.mem_map.1 hmem
        exact hw (Prod.mk.inj heq).1.symm
  · rw [walletRow_set, List.filter_append, List.length_append, hfilter, ← hs.total other]
    split_ifs with hw
    · subst hw
      rw [List.length_map]
      exact htotal
    · rfl

theorem tallyInv_step (hs : TallyInv s) (hok : remembersSample s c) (h : s.step c = some s') : TallyInv s' := by
  obtain rfl := Option.some.inj h
  obtain ⟨op, wallet, now⟩ := c
  have hpending := hs.pending wallet
  have hfresh := hs.fresh wallet
  have htallied := mutate_tallied op now (walletRow s.performance wallet)
  simp only [RowOp.run]
  generalize (op.mutate now (walletRow s.performance wallet)).2 = row at htallied ⊢
  generalize op.counts (walletRow s.performance wallet) = new at htallied ⊢
  cases htallied with
  | kept hsame hsum =>
    have hids : row.pendingIds = (walletRow s.performance wallet).pendingIds := by
      unfold WalletRow.pendingIds
      rw [hsame]
    refine hs.written [] (by simpa using hs.once) ?_ ?_ hsum
    · rw [hids]
      exact hpending
    · simpa [hids] using hfresh
  | observed hp hsample hids hsum =>
    refine hs.written [] (by simpa using hs.once) ?_ ?_ hsum
    · rw [hids]
      exact List.Nodup.append hpending (List.nodup_singleton _) (by simpa using hp)
    · intro id hid
      rw [hids] at hid
      rcases List.mem_append.1 hid with hid | hid
      · simpa using hfresh id hid
      · -- an observation that was counted has its sample still
        obtain rfl := List.mem_singleton.1 hid
        intro hcounted
        rw [List.map_nil, List.append_nil] at hcounted
        exact hsample (hok hcounted)
  | completed hmem hids hsum =>
    refine hs.written [_] ?_ ?_ ?_ hsum
    · refine List.Nodup.append hs.once (List.nodup_singleton _) ?_
      simpa using hfresh _ hmem
    · rw [hids]
      exact hpending.erase _
    · intro id hid hcounted
      rw [hids] at hid
      obtain ⟨hne, hid⟩ := hpending.mem_erase_iff.1 hid
      rcases List.mem_append.1 hcounted with hcounted | hcounted
      · exact hfresh id hid hcounted
      · simp [hne] at hcounted
  | skipped hids hsum =>
    refine hs.written [] (by simpa using hs.once) ?_ ?_ hsum
    · rw [hids]
      exact hpending.erase _
    · intro id hid
      rw [hids] at hid
      simpa using hfresh id (List.mem_of_mem_erase hid)

end Step

/-- Along a run without late replays, every observation of a wallet is counted once, and its wins and
losses count the observations. -/
theorem counted_once {calls : List Call} {s : Tally} (h : Run Tally.step remembersSample .start calls s) :
    s.counted.Nodup ∧ ∀ wallet, (walletRow s.performance wallet).wins + (walletRow s.performance wallet).losses =
      (s.counted.filter fun entry => entry.1 = wallet).length := by
  have hs : TallyInv s := h.invariant (fun _ _ _ hs hok h => tallyInv_step hs hok h) tallyInv_start
  exact ⟨hs.once, hs.total⟩

instance (s : Tally) (c : Call) : Decidable (remembersSample s c) := by
  unfold remembersSample
  cases c.op <;> infer_instance

/-- A purchase observed, completed, observed again and completed again: it counts once. -/
theorem counted_once_replayed : ∃ calls s, Run Tally.step remembersSample .start calls s ∧
    (calls.length = 4 ∧ s.counted = [("wallet", "signature:mint")]) ∧ s.counted.Nodup ∧
    ∀ wallet, (walletRow s.performance wallet).wins + (walletRow s.performance wallet).losses =
      (s.counted.filter fun entry => entry.1 = wallet).length := by
  have hrun : ∃ s, Run Tally.step remembersSample .start
      [⟨.observeBuy "mint" "signature" 1, "wallet", 0⟩, ⟨.completeObservation "signature:mint" 2, "wallet", 1⟩,
        ⟨.observeBuy "mint" "signature" 1, "wallet", 2⟩, ⟨.completeObservation "signature:mint" 2, "wallet", 3⟩] s ∧
      s.counted = [("wallet", "signature:mint")] :=
    Run.exists_of_any (by decide +kernel)
  obtain ⟨s, hrun, hcounted⟩ := hrun
  exact ⟨_, s, hrun, ⟨rfl, hcounted⟩, counted_once hrun⟩

/-! ## A late replay -/

theorem observeBuy_new {mint : Mint} {signature : String} (price : ℚ) {row : WalletRow}
    (hp : observationId mint signature ∉ row.pendingIds) (hs : observationId mint signature ∉ row.sampleIds) :
    (observeBuy mint signature price row).pending = row.pending ++ [⟨observationId mint signature, price⟩] ∧
      (observeBuy mint signature price row).samples = row.samples := by
  unfold observeBuy
  unfold observationId at hp hs ⊢
  generalize hprocessed : (if signature ∈ row.processedSignatures then row else _) = processed
  have hsame : processed.pending = row.pending ∧ processed.samples = row.samples := by
    rw [← hprocessed]
    split_ifs <;> exact ⟨rfl, rfl⟩
  have hnew : s!"{signature}:{mint}" ∉
      processed.pending.map (·.observationId) ++ processed.samples.map (·.observationId) := by
    rw [hsame.1, hsame.2]
    exact List.mem_append.not.2 (not_or.2 ⟨hp, hs⟩)
  dsimp only
  rw [if_neg hnew]
  exact ⟨congrArg (· ++ _) hsame.1, hsame.2⟩

theorem completeObservation_only {target : PendingSample} (price : ℚ) (now : Int) {row : WalletRow}
    (hpending : row.pending = [target]) :
    (completeObservation target.observationId price now row).2.pending = [] ∧
      (completeObservation target.observationId price now row).2.sampleIds =
        lastN 100 (row.sampleIds ++ [target.observationId]) := by
  have hdone : (row.completed target (target.change price)).pending = [] ∧
      (row.completed target (target.change price)).sampleIds =
        lastN 100 (row.sampleIds ++ [target.observationId]) := by
    constructor
    · simp [WalletRow.completed, hpending]
    · simp [WalletRow.sampleIds, WalletRow.completed, lastN, List.map_drop]
  unfold completeObservation
  rw [hpending, List.find?_cons_of_pos (by simp)]
  dsimp only
  split_ifs
  · exact hdone
  · exact hdone

/-- A purchase, and its completion at twice the price. -/
def round (wallet : Address) (mint : Mint) (signature : String) : List Call :=
  [⟨.observeBuy mint signature 1, wallet, 0⟩, ⟨.completeObservation (observationId mint signature) 2, wallet, 0⟩]

/-- A row with nothing pending, and the samples it keeps of the observations that completed. -/
def Rests (s : Tally) (wallet : Address) (ids : List String) : Prop :=
  (walletRow s.performance wallet).pending = [] ∧ (walletRow s.performance wallet).sampleIds = lastN 100 ids

/-- A round of an observation that the samples do not show counts it, again or for the first time. -/
theorem round_counts {s : Tally} {wallet : Address} {mint : Mint} {signature : String} {ids : List String}
    (hs : Rests s wallet ids) (hid : observationId mint signature ∉ lastN 100 ids) :
    ∃ s', Run Tally.step Run.anyStep s (round wallet mint signature) s' ∧
      Rests s' wallet (ids ++ [observationId mint signature]) ∧
      s'.counted = s.counted ++ [(wallet, observationId mint signature)] := by
  obtain ⟨hpending, hsamples⟩ := hs
  set row := walletRow s.performance wallet with hrow
  have hnew : observationId mint signature ∉ row.pendingIds := by simp [WalletRow.pendingIds, hpending]
  have hunsampled : observationId mint signature ∉ row.sampleIds := by rw [hsamples]; exact hid
  obtain ⟨hobserved, hkept⟩ := observeBuy_new 1 hnew hunsampled
  rw [hpending, List.nil_append] at hobserved
  have hsynced : (observeBuy mint signature 1 row).sync.pending = [⟨observationId mint signature, 1⟩] := hobserved
  obtain ⟨hdone, hsampled⟩ := completeObservation_only 2 0 hsynced
  refine ⟨_, .cons trivial rfl (.cons trivial rfl (.nil _)), ⟨?_, ?_⟩, ?_⟩
  · simp only [RowOp.run, RowOp.mutate, walletRow_set, if_true]
    exact hdone
  · simp only [RowOp.run, RowOp.mutate, walletRow_set, if_true]
    refine hsampled.trans ?_
    have hsame : (observeBuy mint signature 1 row).sync.sampleIds = lastN 100 ids :=
      (congrArg (List.map _) hkept).trans hsamples
    rw [hsame]
    exact lastN_lastN_concat 99 ids _
  · have hcounts : RowOp.counts (observeBuy mint signature 1 row).sync
        (.completeObservation (observationId mint signature) 2) = some (observationId mint signature) := by
      unfold RowOp.counts
      dsimp only
      rw [sync_pending, hobserved, List.find?_cons_of_pos (by simp)]
      rfl
    simp only [RowOp.run, RowOp.mutate, walletRow_set, if_true]
    rw [← hrow, hcounts]
    simp [RowOp.counts]

theorem rounds_count (wallet : Address) (mint : Mint) : ∀ (signatures : List String) {s : Tally} {ids : List String},
    Rests s wallet ids → (ids ++ signatures.map fun signature => observationId mint signature).Nodup →
    ∃ s', Run Tally.step Run.anyStep s (signatures.flatMap (round wallet mint)) s' ∧
      Rests s' wallet (ids ++ signatures.map fun signature => observationId mint signature) ∧
      s'.counted = s.counted ++ signatures.map fun signature => (wallet, observationId mint signature)
  | [], s, ids, hs, _ => ⟨s, .nil s, by simpa using hs, by simp⟩
  | signature :: signatures, s, ids, hs, hnodup => by
    have hid : observationId mint signature ∉ lastN 100 ids := fun hmem =>
      (List.nodup_append.1 hnodup).2.2 _ (List.mem_of_mem_drop hmem) _ List.mem_cons_self rfl
    obtain ⟨u, hrun, hu, hcounted⟩ := round_counts hs hid
    obtain ⟨t, hrun', ht, hcounted'⟩ := rounds_count wallet mint signatures hu (by simpa using hnodup)
    refine ⟨t, hrun.append hrun', by simpa using ht, ?_⟩
    rw [hcounted', hcounted]
    simp

/-- The signature of a purchase, one of many. -/
def longSignature (n : Nat) : String := String.ofList (List.replicate n 'x')

theorem observationId_length (n : Nat) : (observationId "mint" (longSignature n)).length = n + 5 := by
  have hmint : (toString ":" ++ toString "mint" : String).length = 5 := by decide
  unfold observationId longSignature
  rw [String.append_assoc, String.length_append, hmint]
  show (String.ofList (List.replicate n 'x')).length + 5 = n + 5
  simp

/-- A purchase, a hundred others, and the first once more: it counts twice. -/
theorem late_replay : ¬ ∀ (calls : List Call) (s : Tally),
    Run Tally.step Run.anyStep .start calls s → s.counted.Nodup := by
  intro hall
  have hstart : Rests .start "wallet" [] := ⟨rfl, rfl⟩
  have hnodup : ((List.range 101).map fun n => observationId "mint" (longSignature n)).Nodup := by
    refine List.Nodup.map (fun n m h => ?_) List.nodup_range
    have hlength := congrArg String.length h
    rw [observationId_length, observationId_length] at hlength
    omega
  obtain ⟨s, hrun, hs, hcounted⟩ :=
    rounds_count "wallet" "mint" ((List.range 101).map longSignature) hstart
      (by rw [List.nil_append, List.map_map]; exact hnodup)
  rw [List.nil_append, List.map_map] at hs
  -- the first of the hundred and one has left the samples
  have hcut : observationId "mint" (longSignature 0) ∉
      lastN 100 ((List.range 101).map fun n => observationId "mint" (longSignature n)) := by
    unfold lastN
    rw [List.length_map, List.length_range, List.range_succ_eq_map, List.map_cons] at *
    exact (List.nodup_cons.1 hnodup).1
  obtain ⟨t, hrun', -, hcounted'⟩ := round_counts hs hcut
  have honce := hall _ t (hrun.append hrun')
  rw [hcounted', hcounted] at honce
  refine (List.nodup_append.1 honce).2.2 _ ?_ _ List.mem_cons_self rfl
  exact List.mem_append_right _ (List.mem_map.2 ⟨_, List.mem_map_of_mem (List.mem_range.2 (by omega)), rfl⟩)

end Aibot.Wallet
