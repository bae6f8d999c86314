/-
`research/alpha_discovery.py`: the newest rows of a cohort in order, and how the rows of a family are
divided into samples to train on and samples to hold out. No sort key is on both sides of a division,
and no token is in both of the samples of first signals.
-/
import Aibot.Lib.Cut
import Aibot.Research.Validation

namespace Aibot.Research.Discovery

open Wallet (lastN)
open Cut (Apart)

/-! ## Rows -/

structure PreparedRow where
  raw : Value
  family : String
  mint : String
  timestamp : Double
  stableId : String
  digest : String

/-- By time, then by the stable id, then by the digest. -/
def PreparedRow.sortKey (row : PreparedRow) : ℚ ×ₗ String ×ₗ String :=
  toLex (row.timestamp.val, toLex (row.stableId, row.digest))

/-- Why a row is left out. -/
inductive Exclusion
  | invalidRow
  | unknownSignalFamily
  | missingOrInvalidTimestamp
  | missingMint
  | outsideCohort
  deriving DecidableEq

def Exclusion.name : Exclusion → String
  | .invalidRow => "invalid_row"
  | .unknownSignalFamily => "unknown_signal_family"
  | .missingOrInvalidTimestamp => "missing_or_invalid_timestamp"
  | .missingMint => "missing_mint"
  | .outsideCohort => "outside_cohort"

/-- What `build_alpha_discovery` accepts. -/
structure Settings where
  holdoutFraction : Double
  fraction_pos : 0 < holdoutFraction.val
  fraction_lt_one : holdoutFraction.val < 1
  maximumRows : Nat
  one_le_maximum : 1 ≤ maximumRows
  maximum_le : maximumRows ≤ 10000
  cohort : String
  cohort_ne : cohort ≠ ""

section Prepare

variable (py : Host) (settings : Settings)

/-- One row of the input. -/
def prepareRow (item : Value) : Except Exclusion PreparedRow :=
  if ¬ isDict item then .error .invalidRow
  else
    match signalFamily py item, signalTimestamp py item with
    | none, _ => .error .unknownSignalFamily
    | some _, none => .error .missingOrInvalidTimestamp
    | some family, some timestamp =>
      let mint := strippedText py item "mint"
      if mint = "" then .error .missingMint
      else if ¬ (item.get "tracking_profile").isStr settings.cohort then .error .outsideCohort
      else .ok
        { raw := item
          family := family
          mint := mint
          timestamp := timestamp
          stableId := eventIdentity py item
          digest := signalIdentityDigest py item }

/-- The rows that are not left out, in the order of the input. -/
def preparedRows (rows : List Value) : List PreparedRow :=
  rows.filterMap fun item => (prepareRow py settings item).toOption

/-- How many rows are left out for a reason. -/
def excludedCount (rows : List Value) (reason : Exclusion) : Nat :=
  rows.countP fun item => match prepareRow py settings item with
    | .error reason' => reason' = reason
    | .ok _ => false

/-- `_prepare_rows`: the newest rows in order, and the numbers of the rows left out. -/
def prepareRows (rows : List Value) : List PreparedRow × List (String × Nat) :=
  let prepared := Cut.sort PreparedRow.sortKey (preparedRows py settings rows)
  let excluded := [Exclusion.invalidRow, .unknownSignalFamily, .missingOrInvalidTimestamp, .missingMint,
    .outsideCohort].map fun reason => (reason.name, excludedCount py settings rows reason)
  if settings.maximumRows < prepared.length then
    (lastN settings.maximumRows prepared,
      excluded ++ [("outside_latest_window", prepared.length - settings.maximumRows)])
  else (prepared, excluded ++ [("outside_latest_window", 0)])

end Prepare

/-! ## Samples -/

/-- The rows to hold out of a list of this length. The product is a float, and so is the length in it. -/
def holdoutCount (length : Nat) (fraction : Double) : Nat :=
  min (length - 1) (max 1 ⌈rounded (rounded length * fraction.val)⌉.toNat)

/-- `_chronological_split`: the rows to train on, and those to hold out. -/
def chronologicalSplit (rows : List PreparedRow) (fraction : Double) : List PreparedRow × List PreparedRow :=
  let ordered := Cut.sort PreparedRow.sortKey rows
  if ordered.length < 2 then (ordered, [])
  else
    let splitAt := Cut.untie PreparedRow.sortKey ordered (ordered.length - holdoutCount ordered.length fraction)
    (ordered.take splitAt, ordered.drop splitAt)

/-- The rows of a token that tie for the first one, as they came. -/
def tied (rows : List PreparedRow) (mint : String) : List PreparedRow :=
  let ordered := Cut.sort PreparedRow.sortKey (rows.filter fun row => row.mint = mint)
  match ordered with
  | [] => []
  | first :: _ => ordered.filter fun row => row.sortKey = first.sortKey

/-- The first of the rows that tie, none where another one differs from it. -/
def firstOf : List PreparedRow → Option PreparedRow
  | [] => none
  | first :: rest => if rest.any fun row => !row.raw.eq first.raw then none else some first

/-- The first row of a token, none where it is ambiguous. -/
def firstSignal (rows : List PreparedRow) (mint : String) : Option PreparedRow := firstOf (tied rows mint)

/-- The tokens, in order. -/
def mints (rows : List PreparedRow) : List String := (rows.map PreparedRow.mint).dedup.mergeSort (· ≤ ·)

/-- `_first_signal_per_mint`: the first rows, and the number of the tokens where it is ambiguous. -/
def firstSignalPerMint (rows : List PreparedRow) : List PreparedRow × Nat :=
  (Cut.sort PreparedRow.sortKey ((mints rows).filterMap (firstSignal rows)),
    (mints rows).countP fun mint => (firstSignal rows mint).isNone)

/-- The rows of a family and what they are divided into. -/
structure FamilySamples where
  eventRows : List PreparedRow
  eventTrain : List PreparedRow
  eventHoldout : List PreparedRow
  uniqueRows : List PreparedRow
  uniqueTrain : List PreparedRow
  uniqueHoldout : List PreparedRow
  ambiguousFirstMints : Nat

/-- `_family_analysis`, the samples that it evaluates. -/
def familyAnalysis (rows : List PreparedRow) (holdoutFraction : Double) : FamilySamples :=
  let eventRows := Cut.sort PreparedRow.sortKey rows
  let eventSplit := chronologicalSplit eventRows holdoutFraction
  let unique := firstSignalPerMint eventRows
  let uniqueSplit := chronologicalSplit unique.1 holdoutFraction
  ⟨eventRows, eventSplit.1, eventSplit.2, unique.1, uniqueSplit.1, uniqueSplit.2, unique.2⟩

def families : List String := ["SMART_MONEY", "MOMENTUM"]

/-- What `build_alpha_discovery` selects: the rows, the numbers of the rows left out, and the samples of each
family. -/
structure Selection where
  prepared : List PreparedRow
  excluded : List (String × Nat)
  samples : String → FamilySamples

def selection (py : Host) (settings : Settings) (rows : List Value) : Selection :=
  let prepared := prepareRows py settings rows
  ⟨prepared.1, prepared.2, fun family =>
    familyAnalysis (prepared.1.filter fun row => row.family = family) settings.holdoutFraction⟩

/-! ## The division -/

section Split

variable (rows : List PreparedRow) (fraction : Double)

theorem split_perm : ((chronologicalSplit rows fraction).1 ++ (chronologicalSplit rows fraction).2).Perm rows := by
  unfold chronologicalSplit
  dsimp only
  split_ifs
  · rw [List.append_nil]
    exact Cut.sort_perm rows
  · rw [List.take_append_drop]
    exact Cut.sort_perm rows

theorem holdoutCount_pos {length : Nat} (h : 2 ≤ length) : 1 ≤ holdoutCount length fraction := by
  unfold holdoutCount
  omega

theorem holdoutCount_lt {length : Nat} (h : 2 ≤ length) : holdoutCount length fraction < length := by
  unfold holdoutCount
  omega

theorem split_apart :
    Apart PreparedRow.sortKey (chronologicalSplit rows fraction).1 (chronologicalSplit rows fraction).2 := by
  unfold chronologicalSplit
  dsimp only
  split_ifs with hshort
  · intro x _ y hy
    cases hy
  · have hpos := holdoutCount_pos fraction (not_lt.1 hshort)
    exact Cut.apart_untie (Cut.ascending_sort _ rows) (by omega)

/-- The division of two rows or more. -/
theorem split_of_two {rows : List PreparedRow} (h : 2 ≤ rows.length) :
    ∃ cut, cut = Cut.untie PreparedRow.sortKey (Cut.sort PreparedRow.sortKey rows)
        (rows.length - holdoutCount rows.length fraction) ∧
      (chronologicalSplit rows fraction).2 = (Cut.sort PreparedRow.sortKey rows).drop cut := by
  refine ⟨_, rfl, ?_⟩
  unfold chronologicalSplit
  dsimp only
  rw [Cut.length_sort, if_neg (not_lt.2 h)]

theorem le_length_holdout {rows : List PreparedRow} (h : 2 ≤ rows.length) :
    holdoutCount rows.length fraction ≤ (chronologicalSplit rows fraction).2.length := by
  obtain ⟨cut, hcut, hsplit⟩ := split_of_two fraction h
  have hlt := holdoutCount_lt fraction h
  have hle := Cut.untie_le PreparedRow.sortKey (Cut.sort PreparedRow.sortKey rows)
    (rows.length - holdoutCount rows.length fraction)
  rw [hsplit, List.length_drop, Cut.length_sort]
  omega

/-- No division that holds out as many rows as asked for holds out fewer. -/
theorem length_holdout_le {rows train holdout : List PreparedRow} (h : 2 ≤ rows.length)
    (hperm : (train ++ holdout).Perm rows) (hapart : Apart PreparedRow.sortKey train holdout)
    (hcount : holdoutCount rows.length fraction ≤ holdout.length) :
    (chronologicalSplit rows fraction).2.length ≤ holdout.length := by
  obtain ⟨cut, hcut, hsplit⟩ := split_of_two fraction h
  have hlength := hperm.length_eq
  have hpos := holdoutCount_pos fraction h
  rw [List.length_append] at hlength
  have hle : train.length ≤ cut := by
    rw [hcut]
    refine Cut.le_untie (Cut.apart_sort hperm hapart) ?_ ?_
    · rw [Cut.length_sort]
      omega
    · omega
  rw [hsplit, List.length_drop, Cut.length_sort]
  omega

end Split

/-! ## The first rows -/

section Unique

variable (rows : List PreparedRow) (mint : String)

/-- The earliest rows of a token, as they came. -/
def earliest : List PreparedRow :=
  rows.filter fun row => row.mint = mint ∧ ∀ other ∈ rows, other.mint = mint → row.sortKey ≤ other.sortKey

/-- The token has an earliest row, and no other row of its sort key differs from it. -/
def Unambiguous : Prop :=
  ∃ first rest, earliest rows mint = first :: rest ∧ ∀ row ∈ rest, row.raw.eq first.raw = true

theorem tied_eq : tied rows mint = earliest rows mint := by
  have hsort : (Cut.sort PreparedRow.sortKey (rows.filter fun row => row.mint = mint)).Perm
      (rows.filter fun row => row.mint = mint) := Cut.sort_perm _
  have hascending := Cut.ascending_sort PreparedRow.sortKey (rows.filter fun row => row.mint = mint)
  unfold tied
  dsimp only
  cases hordered : Cut.sort PreparedRow.sortKey (rows.filter fun row => row.mint = mint) with
  | nil =>
    rw [hordered] at hsort
    refine (List.filter_eq_nil_iff.2 fun row hrow hfirst => ?_).symm
    have hmem : row ∈ rows.filter fun row => row.mint = mint :=
      List.mem_filter.2 ⟨hrow, by simpa using (of_decide_eq_true hfirst).1⟩
    rw [← hsort.nil_eq] at hmem
    cases hmem
  | cons first rest =>
    rw [hordered] at hsort hascending
    have hfirst : first ∈ rows ∧ first.mint = mint := by simpa using hsort.mem_iff.1 List.mem_cons_self
    have hleast : ∀ other ∈ rows, other.mint = mint → first.sortKey ≤ other.sortKey := by
      intro other hother hmint
      have hmem : other ∈ first :: rest := hsort.mem_iff.2 (by simp [hother, hmint])
      rcases List.mem_cons.1 hmem with rfl | hmem
      · exact le_rfl
      · exact List.rel_of_pairwise_cons hascending hmem
    have hkey : ∀ row ∈ (rows.filter fun row => row.mint = mint).filter (fun row => row.sortKey = first.sortKey),
        row.sortKey = first.sortKey := fun row hrow => by simpa using (List.mem_filter.1 hrow).2
    show (first :: rest).filter (fun row => row.sortKey = first.sortKey) = earliest rows mint
    rw [← hordered, Cut.filter_sort, Cut.sort_of_forall_key hkey, List.filter_filter]
    refine List.filter_congr fun row hrow => ?_
    rw [← Bool.decide_and, decide_eq_decide]
    constructor
    · rintro ⟨hrowKey, hmint⟩
      exact ⟨hmint, fun other hother hmint' => hrowKey.le.trans (hleast other hother hmint')⟩
    · rintro ⟨hmint, hbelow⟩
      exact ⟨le_antisymm (hbelow first hfirst.1 hfirst.2) (hleast row hrow hmint), hmint⟩

variable {rows mint}

theorem firstSignal_eq : firstSignal rows mint = firstOf (earliest rows mint) := congrArg firstOf (tied_eq rows mint)

theorem firstOf_cons (first : PreparedRow) (rest : List PreparedRow) :
    firstOf (first :: rest) = if rest.any fun row => !row.raw.eq first.raw then none else some first := rfl

theorem firstOf_eq_some {first : PreparedRow} {rest : List PreparedRow}
    (h : ∀ row ∈ rest, row.raw.eq first.raw = true) : firstOf (first :: rest) = some first := by
  have hsame : (rest.any fun row => !row.raw.eq first.raw) = false :=
    List.any_eq_false.2 fun row hrow => by simp [h row hrow]
  rw [firstOf_cons, hsame]
  rfl

theorem firstSignal_eq_some {first : PreparedRow} {rest : List PreparedRow}
    (h : earliest rows mint = first :: rest) (heq : ∀ row ∈ rest, row.raw.eq first.raw = true) :
    firstSignal rows mint = some first := by
  rw [firstSignal_eq, h, firstOf_eq_some heq]

theorem unambiguous_of_firstSignal {row : PreparedRow} (h : firstSignal rows mint = some row) :
    ∃ rest, earliest rows mint = row :: rest ∧ ∀ other ∈ rest, other.raw.eq row.raw = true := by
  rw [firstSignal_eq] at h
  cases hearliest : earliest rows mint with
  | nil =>
    rw [hearliest] at h
    cases h
  | cons first rest =>
    rw [hearliest, firstOf_cons] at h
    split_ifs at h with hany
    obtain rfl := Option.some.inj h
    refine ⟨rest, rfl, fun other hother => ?_⟩
    by_contra hdiffers
    exact hany (List.any_eq_true.2 ⟨other, hother, by simpa using hdiffers⟩)

theorem mint_of_firstSignal {row : PreparedRow} (h : firstSignal rows mint = some row) :
    row ∈ rows ∧ row.mint = mint := by
  obtain ⟨rest, hearliest, -⟩ := unambiguous_of_firstSignal h
  have hmem : row ∈ earliest rows mint := hearliest ▸ List.mem_cons_self
  obtain ⟨hrow, hfirst⟩ := List.mem_filter.1 hmem
  exact ⟨hrow, (of_decide_eq_true hfirst).1⟩

theorem nodup_mints : (mints rows).Nodup := (List.mergeSort_perm _ _).nodup_iff.2 (List.nodup_dedup _)

theorem mem_mints : mint ∈ mints rows ↔ ∃ row ∈ rows, row.mint = mint := by
  unfold mints
  rw [(List.mergeSort_perm _ _).mem_iff, List.mem_dedup, List.mem_map]

/-- What a list of tokens selects of one of them. -/
theorem filter_filterMap {f : String → Option PreparedRow} (hf : ∀ m row, f m = some row → row.mint = m) :
    ∀ {names : List String}, names.Nodup →
      (names.filterMap f).filter (fun row => row.mint = mint) = if mint ∈ names then (f mint).toList else []
  | [], _ => rfl
  | name :: names, hnodup => by
    obtain ⟨hnew, hnames⟩ := List.nodup_cons.1 hnodup
    have ih := filter_filterMap hf hnames
    by_cases hname : name = mint
    · subst hname
      rw [if_neg hnew] at ih
      rw [if_pos List.mem_cons_self]
      cases hrow : f name with
      | none => rw [List.filterMap_cons_none hrow, ih]; rfl
      | some row =>
        rw [List.filterMap_cons_some hrow, List.filter_cons_of_pos (by simp [hf name row hrow]), ih]
        rfl
    · have hmem : mint ∈ name :: names ↔ mint ∈ names := by
        rw [List.mem_cons]
        exact ⟨fun h => h.resolve_left fun heq => hname heq.symm, .inr⟩
      simp only [hmem]
      rw [← ih]
      cases hrow : f name with
      | none => rw [List.filterMap_cons_none hrow]
      | some row =>
        rw [List.filterMap_cons_some hrow, List.filter_cons_of_neg]
        simpa [hf name row hrow] using hname

/-- The first signals have the first row of each token. -/
theorem filter_firstSignalPerMint :
    (firstSignalPerMint rows).1.filter (fun row => row.mint = mint) = (firstSignal rows mint).toList := by
  unfold firstSignalPerMint
  rw [Cut.filter_sort, filter_filterMap (fun m row h => (mint_of_firstSignal h).2) nodup_mints]
  split_ifs with hmem
  · cases firstSignal rows mint with
    | none => rfl
    | some row => exact Cut.sort_eq_self (List.pairwise_singleton ..)
  · cases hrow : firstSignal rows mint with
    | none => rfl
    | some row =>
      obtain ⟨hrows, hmint⟩ := mint_of_firstSignal hrow
      exact absurd (mem_mints.2 ⟨row, hrows, hmint⟩) hmem

end Unique

/-! ## The samples of a family -/

section Family

variable (rows : List PreparedRow) (fraction : Double)

/-- Sorting does not move the earliest rows of a token, which all have one key. -/
theorem earliest_sort (mint : String) : earliest (Cut.sort PreparedRow.sortKey rows) mint = earliest rows mint := by
  have hkey : ∀ row ∈ earliest rows mint, ∀ other ∈ earliest rows mint, row.sortKey ≤ other.sortKey := by
    intro row hrow other hother
    obtain ⟨-, hfirst⟩ := List.mem_filter.1 hrow
    obtain ⟨hmem, hsecond⟩ := List.mem_filter.1 hother
    exact (of_decide_eq_true hfirst).2 other hmem (of_decide_eq_true hsecond).1
  have hfilter : earliest (Cut.sort PreparedRow.sortKey rows) mint =
      Cut.sort PreparedRow.sortKey (earliest rows mint) := by
    unfold earliest
    simp only [Cut.mem_sort]
    exact Cut.filter_sort _ rows
  rw [hfilter]
  exact Cut.sort_eq_self (List.pairwise_of_forall_mem_list hkey)

theorem firstSignal_sort (mint : String) :
    firstSignal (Cut.sort PreparedRow.sortKey rows) mint = firstSignal rows mint := by
  rw [firstSignal_eq, firstSignal_eq, earliest_sort]

theorem unique_perm : ((familyAnalysis rows fraction).uniqueTrain ++ (familyAnalysis rows fraction).uniqueHoldout).Perm
    (firstSignalPerMint (Cut.sort PreparedRow.sortKey rows)).1 :=
  split_perm _ fraction

/-- The samples of first signals have the first row of a token, and no other. -/
theorem filter_samples (mint : String) :
    ((familyAnalysis rows fraction).uniqueTrain ++ (familyAnalysis rows fraction).uniqueHoldout).filter
      (fun row => row.mint = mint) = (firstSignal rows mint).toList := by
  have hperm := (unique_perm rows fraction).filter fun row => row.mint = mint
  rw [filter_firstSignalPerMint, firstSignal_sort] at hperm
  cases hrow : firstSignal rows mint with
  | none =>
    rw [hrow] at hperm
    exact hperm.eq_nil
  | some row =>
    rw [hrow] at hperm
    exact hperm.eq_singleton

end Family

end Aibot.Research.Discovery
