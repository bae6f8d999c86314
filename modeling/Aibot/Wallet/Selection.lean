/-
The selection of the active wallets: no address twice, incumbent elite before all others, the reserve of
the elite, and that the wallets it selects are selected again when they are the incumbents.
-/
import Aibot.Lib.Ranked
import Aibot.Wallet.Feeder

namespace Aibot.Wallet

variable {ρ : Type*} [LinearOrder ρ] {scoreRank : WalletScore → ρ} {settings : FeederSettings}

/-! ## The best score of an address -/

/-- Each row of the dictionary stands under its own address. -/
def Addressed (best : Dict Address WalletScore) : Prop := ∀ p ∈ best.entries, p.2.address = p.1

theorem addressed_keepBest {best : Dict Address WalletScore} (h : Addressed best) (score : WalletScore) :
    Addressed (keepBest scoreRank best score) := by
  have hset : Addressed (best.set score.address score) := by
    rintro ⟨address, row⟩ hp
    have hget : (best.set score.address score).get? address = some row := Dict.get?_eq_some.2 hp
    rw [Dict.get?_set] at hget
    split_ifs at hget with heq
    · obtain rfl := Option.some.inj hget
      exact heq.symm
    · exact h _ (Dict.get?_eq_some.1 hget)
  unfold keepBest
  cases best.get? score.address with
  | none => exact hset
  | some current =>
    dsimp only
    split_ifs
    · exact hset
    · exact h

theorem addressed_bestByAddress (scores : List WalletScore) : Addressed (bestByAddress scoreRank scores) := by
  have hfold : ∀ (scores : List WalletScore) (best : Dict Address WalletScore), Addressed best →
      Addressed (scores.foldl (keepBest scoreRank) best) := by
    intro scores
    induction scores with
    | nil => exact fun _ h => h
    | cons score scores ih => exact fun best h => ih _ (addressed_keepBest h score)
  exact hfold scores Dict.empty nofun

variable (scoreRank) in
/-- No address has two rows. -/
theorem nodup_bestByAddress (scores : List WalletScore) :
    ((bestByAddress scoreRank scores).values.map (·.address)).Nodup := by
  have hkeys : (bestByAddress scoreRank scores).values.map (·.address) =
      (bestByAddress scoreRank scores).entries.map Prod.fst := by
    unfold Dict.values
    rw [List.map_map]
    exact List.map_congr_left fun p hp => addressed_bestByAddress scores p hp
  rw [hkeys]
  exact (bestByAddress scoreRank scores).nodup

variable (scoreRank) in
theorem get?_keepBest (best : Dict Address WalletScore) (score : WalletScore) :
    ∃ row, (keepBest scoreRank best score).get? score.address = some row ∧ scoreRank score ≤ scoreRank row ∧
      ∀ row', best.get? score.address = some row' → scoreRank row' ≤ scoreRank row := by
  unfold keepBest
  cases h : best.get? score.address with
  | none => exact ⟨score, Dict.get?_set_self .., le_refl _, nofun⟩
  | some current =>
    dsimp only
    split_ifs with hlt
    · refine ⟨score, Dict.get?_set_self .., le_refl _, ?_⟩
      rintro _ ⟨⟩
      exact hlt.le
    · refine ⟨current, h, not_lt.1 hlt, ?_⟩
      rintro _ ⟨⟩
      exact le_refl _

theorem get?_keepBest_of_ne {best : Dict Address WalletScore} {score : WalletScore} {address : Address}
    (h : address ≠ score.address) : (keepBest scoreRank best score).get? address = best.get? address := by
  unfold keepBest
  split
  · exact Dict.get?_set_of_ne best score h
  · split_ifs
    · exact Dict.get?_set_of_ne best score h
    · rfl

variable (scoreRank) in
/-- What an address has gets no worse. -/
theorem get?_foldl_keepBest {address : Address} {row : WalletScore} : ∀ (scores : List WalletScore)
    {best : Dict Address WalletScore}, best.get? address = some row →
      ∃ row', (scores.foldl (keepBest scoreRank) best).get? address = some row' ∧ scoreRank row ≤ scoreRank row'
  | [], _, h => ⟨row, h, le_refl _⟩
  | score :: scores, best, h => by
    by_cases heq : address = score.address
    · subst heq
      obtain ⟨kept, hkept, -, hbetter⟩ := get?_keepBest scoreRank best score
      obtain ⟨row', hrow', hle⟩ := get?_foldl_keepBest scores hkept
      exact ⟨row', hrow', (hbetter row h).trans hle⟩
    · exact get?_foldl_keepBest scores ((get?_keepBest_of_ne heq).trans h)

/-- The row of an address is its best score. -/
theorem exists_best {scores : List WalletScore} {score : WalletScore} (h : score ∈ scores) :
    ∃ row ∈ (bestByAddress scoreRank scores).values,
      row.address = score.address ∧ scoreRank score ≤ scoreRank row := by
  obtain ⟨before, after, rfl⟩ := List.append_of_mem h
  have hfold : bestByAddress scoreRank (before ++ score :: after) =
      after.foldl (keepBest scoreRank) (keepBest scoreRank (before.foldl (keepBest scoreRank) Dict.empty) score) := by
    unfold bestByAddress
    rw [List.foldl_append, List.foldl_cons]
  obtain ⟨kept, hkept, hle, -⟩ := get?_keepBest scoreRank
    (before.foldl (keepBest scoreRank) Dict.empty) score
  obtain ⟨row, hrow, hle'⟩ := get?_foldl_keepBest scoreRank after hkept
  rw [← hfold] at hrow
  refine ⟨row, Dict.mem_values.2 ⟨_, hrow⟩, ?_, hle.trans hle'⟩
  exact addressed_bestByAddress (before ++ score :: after) _ (Dict.get?_eq_some.1 hrow)

/-! ## The parts of a selection -/

section Parts

variable (scoreRank settings) (unique : List WalletScore) (incumbents : List Address)

def incumbentElite : List WalletScore :=
  sortByRank scoreRank (unique.filter fun row => row.isElite ∧ row.address ∈ incumbents)

def otherElite : List WalletScore :=
  sortByRank scoreRank (unique.filter fun row => row.isElite ∧ row.address ∉ incumbents)

def general : List WalletScore := sortByRank scoreRank (unique.filter fun row => ¬ row.isElite)

def reserveNeeded : Nat := settings.eliteReservedSlots - (incumbentElite scoreRank unique incumbents).length

/-- The incumbent elite and the reserve of new elite. -/
def front : List WalletScore :=
  incumbentElite scoreRank unique incumbents ++
    (otherElite scoreRank unique incumbents).take (reserveNeeded scoreRank settings unique incumbents)

def survivalPool : List WalletScore :=
  sortByRank scoreRank ((otherElite scoreRank unique incumbents).drop
    (reserveNeeded scoreRank settings unique incumbents) ++ general scoreRank unique)

/-- The selection among rows with distinct addresses. -/
def selection : List WalletScore :=
  (front scoreRank settings unique incumbents ++ survivalPool scoreRank settings unique incumbents).take
    settings.maxWallets

end Parts

theorem selectActiveWallets_eq (scores : List WalletScore) (incumbents : List Address) :
    selectActiveWallets scoreRank settings scores incumbents =
      selection scoreRank settings (bestByAddress scoreRank scores).values incumbents := rfl

section Selection

variable {unique : List WalletScore} {incumbents : List Address} {row : WalletScore}

theorem mem_incumbentElite : row ∈ incumbentElite scoreRank unique incumbents ↔
    row ∈ unique ∧ row.isElite = true ∧ row.address ∈ incumbents := by
  unfold incumbentElite sortByRank
  rw [List.mem_insertionSort, List.mem_filter, decide_eq_true_eq]

theorem mem_otherElite : row ∈ otherElite scoreRank unique incumbents ↔
    row ∈ unique ∧ row.isElite = true ∧ row.address ∉ incumbents := by
  unfold otherElite sortByRank
  rw [List.mem_insertionSort, List.mem_filter, decide_eq_true_eq]

theorem mem_general : row ∈ general scoreRank unique ↔ row ∈ unique ∧ ¬ row.isElite = true := by
  unfold general sortByRank
  rw [List.mem_insertionSort, List.mem_filter, decide_eq_true_eq]

theorem isElite_of_mem_front (h : row ∈ front scoreRank settings unique incumbents) : row.isElite = true := by
  rcases List.mem_append.1 h with h | h
  · exact (mem_incumbentElite.1 h).2.1
  · exact (mem_otherElite.1 (List.mem_of_mem_take h)).2.1

variable (scoreRank) in
/-- The elite are the incumbent ones and the others. -/
theorem length_elite (unique : List WalletScore) (incumbents : List Address) :
    (unique.filter (·.isElite)).length =
      (incumbentElite scoreRank unique incumbents).length + (otherElite scoreRank unique incumbents).length := by
  unfold incumbentElite otherElite sortByRank
  rw [List.length_insertionSort, List.length_insertionSort,
    List.length_eq_length_filter_add (fun row => decide (row.address ∈ incumbents)), List.filter_filter,
    List.filter_filter]
  congr 2 <;> exact List.filter_congr fun row _ => by simp [Bool.and_comm]

variable (scoreRank) in
/-- Every row has its place. -/
theorem perm_unique (settings : FeederSettings) (unique : List WalletScore) (incumbents : List Address) :
    (front scoreRank settings unique incumbents ++ survivalPool scoreRank settings unique incumbents).Perm unique := by
  have hpool : (survivalPool scoreRank settings unique incumbents).Perm
      ((otherElite scoreRank unique incumbents).drop (reserveNeeded scoreRank settings unique incumbents) ++
        general scoreRank unique) := List.perm_insertionSort ..
  refine (hpool.append_left _).trans ?_
  unfold front
  rw [List.append_assoc, ← List.append_assoc (List.take ..), List.take_append_drop, ← List.append_assoc]
  refine List.Perm.trans ?_ (List.filter_append_perm (·.isElite) unique)
  refine List.Perm.append ?_ ((List.perm_insertionSort ..).trans (.of_eq ?_))
  · refine List.Perm.trans ?_ (List.filter_append_perm (fun row => decide (row.address ∈ incumbents)) _)
    rw [List.filter_filter, List.filter_filter]
    refine List.Perm.append ((List.perm_insertionSort ..).trans (.of_eq ?_))
      ((List.perm_insertionSort ..).trans (.of_eq ?_))
    · exact List.filter_congr fun row _ => by simp [Bool.and_comm]
    · exact List.filter_congr fun row _ => by simp [Bool.and_comm]
  · exact List.filter_congr fun row _ => by simp

theorem selection_eq : selection scoreRank settings unique incumbents =
    (front scoreRank settings unique incumbents).take settings.maxWallets ++
      (survivalPool scoreRank settings unique incumbents).take
        (settings.maxWallets - (front scoreRank settings unique incumbents).length) :=
  List.take_append

theorem length_selection : (selection scoreRank settings unique incumbents).length =
    min settings.maxWallets unique.length := by
  unfold selection
  rw [List.length_take, (perm_unique scoreRank settings unique incumbents).length_eq]

theorem mem_unique_of_selected (h : row ∈ selection scoreRank settings unique incumbents) : row ∈ unique :=
  (perm_unique scoreRank settings unique incumbents).mem_iff.1 (List.mem_of_mem_take h)

/-- No address is selected twice. -/
theorem nodup_selection (hn : (unique.map (·.address)).Nodup) :
    ((selection scoreRank settings unique incumbents).map (·.address)).Nodup := by
  refine List.Nodup.sublist ((List.take_sublist ..).map _) ?_
  exact (((perm_unique scoreRank settings unique incumbents).map _).nodup_iff).2 hn

/-- An incumbent elite is left out only for other incumbent elite. -/
theorem selection_of_left_out (h : row ∈ incumbentElite scoreRank unique incumbents)
    (hout : row ∉ selection scoreRank settings unique incumbents) :
    selection scoreRank settings unique incumbents =
      (incumbentElite scoreRank unique incumbents).take settings.maxWallets ∧
        settings.maxWallets < (incumbentElite scoreRank unique incumbents).length := by
  have hlt : settings.maxWallets < (incumbentElite scoreRank unique incumbents).length := by
    by_contra hle
    apply hout
    unfold selection front
    rw [List.append_assoc, List.take_append, List.take_of_length_le (not_lt.1 hle)]
    exact List.mem_append_left _ h
  constructor
  · unfold selection front
    rw [List.append_assoc, List.take_append_of_le_length hlt.le]
  · exact hlt

variable (scoreRank unique incumbents) in
/-- The elite have their reserve. -/
theorem reserve_le_elite (hreserve : settings.eliteReservedSlots ≤ settings.maxWallets) :
    min settings.eliteReservedSlots (unique.filter (·.isElite)).length ≤
      ((selection scoreRank settings unique incumbents).filter (·.isElite)).length := by
  have hfront : ((front scoreRank settings unique incumbents).take settings.maxWallets).filter (·.isElite) =
      (front scoreRank settings unique incumbents).take settings.maxWallets :=
    List.filter_eq_self.2 fun row hrow => isElite_of_mem_front (List.mem_of_mem_take hrow)
  rw [selection_eq, List.filter_append, hfront, List.length_append, List.length_take,
    length_elite scoreRank unique incumbents]
  unfold front reserveNeeded
  rw [List.length_append, List.length_take]
  omega

/-! ## Selected again -/

/-- The rows that are selected and not elite. -/
abbrev selectedGeneral (scoreRank : WalletScore → ρ) (settings : FeederSettings) (unique : List WalletScore)
    (incumbents : List Address) : List WalletScore :=
  (selection scoreRank settings unique incumbents).filter fun row => !row.isElite

theorem selectedGeneral_eq : selectedGeneral scoreRank settings unique incumbents =
    ((survivalPool scoreRank settings unique incumbents).take
      (settings.maxWallets - (front scoreRank settings unique incumbents).length)).filter fun row => !row.isElite := by
  have hfront : ((front scoreRank settings unique incumbents).take settings.maxWallets).filter
      (fun row => !row.isElite) = [] :=
    List.filter_eq_nil_iff.2 fun row hrow => by simp [isElite_of_mem_front (List.mem_of_mem_take hrow)]
  unfold selectedGeneral
  rw [selection_eq, List.filter_append, hfront, List.nil_append]

/-- The selected rows that are not elite are the first of all that are not. -/
theorem exists_general_eq_append (scoreRank : WalletScore → ρ) (settings : FeederSettings)
    (unique : List WalletScore) (incumbents : List Address) :
    ∃ rest, general scoreRank unique = selectedGeneral scoreRank settings unique incumbents ++ rest := by
  have hpool : (survivalPool scoreRank settings unique incumbents).filter (fun row => !row.isElite) =
      general scoreRank unique := by
    show (Ranked.sort scoreRank _).filter _ = _
    rw [Ranked.filter_sort, List.filter_append]
    have hnone : ((otherElite scoreRank unique incumbents).drop
        (reserveNeeded scoreRank settings unique incumbents)).filter (fun row => !row.isElite) = [] :=
      List.filter_eq_nil_iff.2 fun row hrow => by simp [(mem_otherElite.1 (List.mem_of_mem_drop hrow)).2.1]
    have hall : (general scoreRank unique).filter (fun row => !row.isElite) = general scoreRank unique :=
      List.filter_eq_self.2 fun row hrow => by simp [(mem_general.1 hrow).2]
    rw [hnone, hall, List.nil_append]
    exact Ranked.sort_eq_self (Ranked.pairwise_sort _)
  rw [selectedGeneral_eq, ← hpool]
  refine ⟨((survivalPool scoreRank settings unique incumbents).drop
    (settings.maxWallets - (front scoreRank settings unique incumbents).length)).filter (fun row => !row.isElite), ?_⟩
  rw [← List.filter_append, List.take_append_drop]

/-- An elite is left out only for better ranks: of two rows of one rank the elite comes first. -/
theorem rank_lt_of_left_out {x y : WalletScore} (hx : x ∈ unique) (helite : x.isElite = true)
    (hout : x ∉ selection scoreRank settings unique incumbents)
    (hy : y ∈ selectedGeneral scoreRank settings unique incumbents) : scoreRank x < scoreRank y := by
  rw [selectedGeneral_eq] at hy
  obtain ⟨hytake, hgeneral⟩ := List.mem_filter.1 hy
  -- a general row is selected, so the front is selected as a whole
  have hroom : (front scoreRank settings unique incumbents).length < settings.maxWallets := by
    by_contra hle
    rw [Nat.sub_eq_zero_of_le (not_lt.1 hle), List.take_zero] at hytake
    cases hytake
  have hxdrop : x ∈ (survivalPool scoreRank settings unique incumbents).drop
      (settings.maxWallets - (front scoreRank settings unique incumbents).length) := by
    rw [selection_eq, List.take_of_length_le hroom.le] at hout
    have hmem := (perm_unique scoreRank settings unique incumbents).mem_iff.2 hx
    rw [← List.take_append_drop (settings.maxWallets - (front scoreRank settings unique incumbents).length)
      (survivalPool scoreRank settings unique incumbents), ← List.append_assoc] at hmem
    exact (List.mem_append.1 hmem).resolve_left hout
  have hpairs : (survivalPool scoreRank settings unique incumbents).Pairwise
      fun a b => ¬ a.isElite = true → b.isElite = true → scoreRank b < scoreRank a :=
    Ranked.pairwise_sort_append (fun row : WalletScore => row.isElite = true)
      (fun row hrow => (mem_otherElite.1 (List.mem_of_mem_drop hrow)).2.1) fun row hrow => (mem_general.1 hrow).2
  rw [← List.take_append_drop (settings.maxWallets - (front scoreRank settings unique incumbents).length)
    (survivalPool scoreRank settings unique incumbents)] at hpairs
  exact (List.pairwise_append.1 hpairs).2.2 y hytake x hxdrop (by simpa using hgeneral) helite

/-- The addresses of a selection, as incumbents. -/
abbrev selectedAddresses (scoreRank : WalletScore → ρ) (settings : FeederSettings) (unique : List WalletScore)
    (incumbents : List Address) : List Address :=
  (selection scoreRank settings unique incumbents).map (·.address)

theorem address_mem_selected (hn : (unique.map (·.address)).Nodup) (hrow : row ∈ unique) :
    row.address ∈ selectedAddresses scoreRank settings unique incumbents ↔
      row ∈ selection scoreRank settings unique incumbents := by
  constructor
  · intro h
    obtain ⟨row', hrow', heq⟩ := List.mem_map.1 h
    rwa [← List.inj_on_of_nodup_map hn (mem_unique_of_selected hrow') hrow heq]
  · exact List.mem_map_of_mem

variable (scoreRank) in
/-- The selected elite are the incumbent elite of the second selection. -/
theorem perm_incumbentElite (hn : (unique.map (·.address)).Nodup) :
    (incumbentElite scoreRank unique (selectedAddresses scoreRank settings unique incumbents)).Perm
      ((selection scoreRank settings unique incumbents).filter (·.isElite)) := by
  refine (List.perm_ext_iff_of_nodup ?_ ?_).2 fun row => ?_
  · exact (List.perm_insertionSort ..).nodup_iff.2 (hn.of_map.filter _)
  · exact (nodup_selection hn).of_map.filter _
  · rw [mem_incumbentElite, List.mem_filter]
    constructor
    · rintro ⟨hrow, helite, haddress⟩
      exact ⟨(address_mem_selected hn hrow).1 haddress, helite⟩
    · rintro ⟨hrow, helite⟩
      exact ⟨mem_unique_of_selected hrow, helite, List.mem_map_of_mem hrow⟩

variable (scoreRank incumbents) in
/-- The reserve is used up, or no elite is left for it. -/
theorem reserve_of_selected (hn : (unique.map (·.address)).Nodup)
    (hreserve : settings.eliteReservedSlots ≤ settings.maxWallets) :
    reserveNeeded scoreRank settings unique (selectedAddresses scoreRank settings unique incumbents) = 0 ∨
      otherElite scoreRank unique (selectedAddresses scoreRank settings unique incumbents) = [] := by
  have hmin := reserve_le_elite scoreRank unique incumbents hreserve
  have hlength := length_elite scoreRank unique
    (selectedAddresses scoreRank settings unique incumbents)
  rw [← (perm_incumbentElite scoreRank hn).length_eq] at hmin
  rw [← List.length_eq_zero_iff]
  unfold reserveNeeded
  omega

/-- Selected again, the wallets are the same. -/
theorem selection_again (hn : (unique.map (·.address)).Nodup)
    (hreserve : settings.eliteReservedSlots ≤ settings.maxWallets) :
    (selection scoreRank settings unique (selectedAddresses scoreRank settings unique incumbents)).Perm
      (selection scoreRank settings unique incumbents) := by
  set again := selectedAddresses scoreRank settings unique incumbents with hagain
  set chosen := selection scoreRank settings unique incumbents with hchosen
  have helite : (incumbentElite scoreRank unique again).Perm (chosen.filter (·.isElite)) :=
    perm_incumbentElite scoreRank hn
  obtain ⟨htake, hdrop⟩ : (otherElite scoreRank unique again).take (reserveNeeded scoreRank settings unique again) =
      [] ∧
      (otherElite scoreRank unique again).drop (reserveNeeded scoreRank settings unique again) =
        otherElite scoreRank unique again := by
    rcases reserve_of_selected scoreRank incumbents hn hreserve with h | h
    · rw [← hagain] at h
      rw [h]
      exact ⟨List.take_zero, List.drop_zero⟩
    · rw [← hagain] at h
      rw [h]
      exact ⟨List.take_nil, List.drop_nil⟩
  obtain ⟨rest, hgeneral⟩ := exists_general_eq_append scoreRank settings unique incumbents
  -- the general rows that were selected lead the second pool
  have hpool : survivalPool scoreRank settings unique again =
      selectedGeneral scoreRank settings unique incumbents ++
        sortByRank scoreRank (otherElite scoreRank unique again ++ rest) := by
    unfold survivalPool
    rw [hdrop, hgeneral]
    refine Ranked.sort_append_above (hgeneral ▸ Ranked.pairwise_sort _) fun y hy x hx => ?_
    obtain ⟨hmem, hxelite, haddress⟩ := mem_otherElite.1 hx
    exact rank_lt_of_left_out hmem hxelite (fun h => haddress (List.mem_map_of_mem h)) hy
  have hperm : (incumbentElite scoreRank unique again ++ selectedGeneral scoreRank settings unique incumbents).Perm
      chosen :=
    (helite.append_right _).trans (List.filter_append_perm (·.isElite) chosen)
  have hlength := hperm.length_eq
  have hmin : chosen.length = min settings.maxWallets unique.length := length_selection
  have hall := (perm_unique scoreRank settings unique again).length_eq
  unfold selection front at *
  rw [htake, List.append_nil, hpool, ← List.append_assoc] at hall ⊢
  rw [List.length_append] at hall
  refine List.Perm.trans (.of_eq ?_) hperm
  by_cases hfull : unique.length ≤ settings.maxWallets
  · have hnone : sortByRank scoreRank (otherElite scoreRank unique again ++ rest) = [] :=
      List.length_eq_zero_iff.1 (by omega)
    rw [hnone, List.append_nil, List.take_of_length_le (by omega)]
  · rw [List.take_append_of_le_length (by omega), List.take_of_length_le (by omega)]

end Selection

/-! ## The selection of the source -/

/-- Active wallet selection is sound and stable: no more wallets than there is room for and no address
twice; an incumbent elite is left out only where all the room is incumbent elite; the elite have their
reserve; and selecting again with the selected wallets as the incumbents selects the same. -/
theorem selectActiveWallets_stable (scoreRank : WalletScore → ρ) (settings : FeederSettings)
    (hreserve : settings.eliteReservedSlots ≤ settings.maxWallets) (scores : List WalletScore)
    (incumbents : List Address) :
    let best := (bestByAddress scoreRank scores).values
    let selected := selectActiveWallets scoreRank settings scores incumbents
    selected.length ≤ settings.maxWallets ∧
    (selected.map (·.address)).Nodup ∧
    (∀ row ∈ best, row.isElite = true → row.address ∈ incumbents → row ∉ selected →
      selected.length = settings.maxWallets ∧ ∀ row' ∈ selected, row'.isElite = true ∧ row'.address ∈ incumbents) ∧
    min settings.eliteReservedSlots (best.filter (·.isElite)).length ≤ (selected.filter (·.isElite)).length ∧
    ∀ address, address ∈ (selectActiveWallets scoreRank settings scores (selected.map (·.address))).map (·.address) ↔
      address ∈ selected.map (·.address) := by
  have hn := nodup_bestByAddress scoreRank scores
  refine ⟨List.length_take_le _ _, nodup_selection hn, ?_, reserve_le_elite scoreRank _ incumbents hreserve, ?_⟩
  · intro row hrow helite haddress hout
    have hmem : row ∈ incumbentElite scoreRank (bestByAddress scoreRank scores).values incumbents :=
      mem_incumbentElite.2 ⟨hrow, helite, haddress⟩
    rw [selectActiveWallets_eq] at hout ⊢
    obtain ⟨heq, hlt⟩ := selection_of_left_out hmem hout
    rw [heq]
    constructor
    · rw [List.length_take]
      omega
    · intro row' hrow'
      exact (mem_incumbentElite.1 (List.mem_of_mem_take hrow')).2
  · intro address
    exact ((selection_again hn hreserve).map _).mem_iff

/-- One incumbent elite, one new elite, two general wallets of one rank, and room for three. -/
def sampleScores : List WalletScore :=
  [{ address := "g1", balanceSol := 1, dailyTransactions := 0, winRate := 50 },
    { address := "g2", balanceSol := 1, dailyTransactions := 0, winRate := 50 },
    { address := "e1", balanceSol := 1, dailyTransactions := 0, winRate := 40, isElite := true },
    { address := "e2", balanceSol := 1, dailyTransactions := 0, winRate := 90, isElite := true }]

def sampleSettings : FeederSettings := ⟨3, 0, 300, 250, 2⟩

theorem selectActiveWallets_stable_sample :
    (selectActiveWallets (·.winRate) sampleSettings sampleScores ["e1"]).map (·.address) = ["e1", "e2", "g1"] ∧
    ∀ address, address ∈ (selectActiveWallets (·.winRate) sampleSettings sampleScores
        ((selectActiveWallets (·.winRate) sampleSettings sampleScores ["e1"]).map (·.address))).map (·.address) ↔
      address ∈ (selectActiveWallets (·.winRate) sampleSettings sampleScores ["e1"]).map (·.address) :=
  ⟨by decide +kernel,
    (selectActiveWallets_stable (·.winRate) sampleSettings (by decide) sampleScores ["e1"]).2.2.2.2⟩

end Aibot.Wallet
