/-
What the order of the input rows decides: `_prepare_rows` and the samples of `_family_analysis` sort by
time, stable id and identity digest, and rows that tie keep the order they came in. The selection is the
same for every order exactly when the cut to the newest rows does not go through different rows that tie,
and the rows that tie for the first one of a token are all the same or always ambiguous.
-/
import Aibot.Research.Discovery
import Aibot.Research.Leakage

namespace Aibot.Research.Discovery

open Wallet (lastN)
open Cut (Apart Whole)

/-! ## The same selection -/

/-- The same samples, in some order. -/
structure FamilySamples.Same (s s' : FamilySamples) : Prop where
  eventRows : s.eventRows.Perm s'.eventRows
  eventTrain : s.eventTrain.Perm s'.eventTrain
  eventHoldout : s.eventHoldout.Perm s'.eventHoldout
  uniqueRows : s.uniqueRows.Perm s'.uniqueRows
  uniqueTrain : s.uniqueTrain.Perm s'.uniqueTrain
  uniqueHoldout : s.uniqueHoldout.Perm s'.uniqueHoldout
  ambiguousFirstMints : s.ambiguousFirstMints = s'.ambiguousFirstMints

/-- The same rows and the same samples, in some order. -/
structure Selection.Same (s s' : Selection) : Prop where
  prepared : s.prepared.Perm s'.prepared
  excluded : s.excluded = s'.excluded
  samples : ∀ family ∈ families, (s.samples family).Same (s'.samples family)

/-! ## The condition -/

/-- The rows that fewer than `maximum_rows` rows are newer than. -/
def window (maximumRows : Nat) (rows : List PreparedRow) : List PreparedRow :=
  rows.filter fun row => rows.countP (fun other => row.sortKey < other.sortKey) < maximumRows

/-- The rows are all the same, or each one of them differs from another one. -/
def Settled (rows : List PreparedRow) : Prop :=
  (∀ row ∈ rows, ∀ row' ∈ rows, row = row') ∨
    ∀ first rest, (first :: rest).Perm rows → ∃ row ∈ rest, row.raw.eq first.raw = false

/-- The rows that tie for the first one of a token in a family. -/
def firsts (maximumRows : Nat) (rows : List PreparedRow) (family mint : String) : List PreparedRow :=
  earliest ((window maximumRows rows).filter fun row => row.family = family) mint

/-! ## Divisions -/

section Divisions

variable {rows rows' : List PreparedRow} (h : rows'.Perm rows)

include h

theorem holdout_perm (fraction : Double) :
    (chronologicalSplit rows' fraction).2.Perm (chronologicalSplit rows fraction).2 := by
  have hlength := h.length_eq
  by_cases hshort : rows.length < 2
  · have hnil : ∀ l : List PreparedRow, l.length < 2 → (chronologicalSplit l fraction).2 = [] := by
      intro l hl
      unfold chronologicalSplit
      dsimp only
      rw [Cut.length_sort, if_pos hl]
    rw [hnil rows hshort, hnil rows' (by omega)]
  · have htwo := not_lt.1 hshort
    obtain ⟨cut, hcut, hsplit⟩ := split_of_two fraction htwo
    obtain ⟨cut', hcut', hsplit'⟩ := split_of_two fraction (show 2 ≤ rows'.length by omega)
    have hsame : cut' = cut := by
      rw [hcut, hcut', hlength]
      exact Cut.untie_congr (Cut.keys_of_perm h) _
    have hpos := holdoutCount_pos fraction htwo
    have hapart : Apart PreparedRow.sortKey ((Cut.sort PreparedRow.sortKey rows).take cut)
        ((Cut.sort PreparedRow.sortKey rows).drop cut) := by
      rw [hcut]
      refine Cut.apart_untie (Cut.ascending_sort _ rows) ?_
      rw [Cut.length_sort]
      omega
    have hle : cut ≤ rows.length := by
      have := Cut.untie_le PreparedRow.sortKey (Cut.sort PreparedRow.sortKey rows)
        (rows.length - holdoutCount rows.length fraction)
      omega
    have hlast := Cut.last_perm (Cut.whole_of_apart hapart) h
    unfold Cut.last at hlast
    rw [hlength, Nat.sub_sub_self hle] at hlast
    rw [hsplit, hsplit', hsame]
    exact hlast

theorem train_perm (fraction : Double) :
    (chronologicalSplit rows' fraction).1.Perm (chronologicalSplit rows fraction).1 := by
  have hboth := (split_perm rows' fraction).trans (h.trans (split_perm rows fraction).symm)
  have hholdout := (holdout_perm h fraction).append_left (chronologicalSplit rows' fraction).1
  exact (List.perm_append_right_iff _).1 (hholdout.symm.trans hboth)

end Divisions

/-! ## Rows that tie -/

theorem earliest_perm {rows rows' : List PreparedRow} (h : rows'.Perm rows) (mint : String) :
    (earliest rows' mint).Perm (earliest rows mint) := by
  unfold earliest
  simp only [h.mem_iff]
  exact h.filter _

theorem firstOf_of_settled {rows rows' : List PreparedRow} (hsettled : Settled rows) (h : rows'.Perm rows) :
    firstOf rows' = firstOf rows := by
  rcases hsettled with hsame | hdiffers
  · have hany : ∀ l : List PreparedRow, l.Pairwise fun _ _ => True := fun l =>
      List.pairwise_of_forall fun _ _ => trivial
    rw [h.eq_of_pairwise (fun x y hx hy _ _ => hsame x (h.mem_iff.1 hx) y hy) (hany _) (hany _)]
  · have hnone : ∀ l : List PreparedRow, l.Perm rows → firstOf l = none := by
      intro l hl
      cases l with
      | nil => rfl
      | cons first rest =>
        obtain ⟨row, hrow, heq⟩ := hdiffers first rest hl
        rw [firstOf_cons, if_pos (List.any_eq_true.2 ⟨row, hrow, by simp [heq]⟩)]
    rw [hnone rows' h, hnone rows (List.Perm.refl _)]

theorem settled_of_firstOf {rows : List PreparedRow} (h : ∀ rows', rows'.Perm rows → firstOf rows' = firstOf rows) :
    Settled rows := by
  classical
  cases hfirst : firstOf rows with
  | none =>
    right
    intro first rest hperm
    have hnone := h _ hperm
    rw [hfirst, firstOf_cons] at hnone
    split_ifs at hnone with hany
    obtain ⟨row, hrow, hdiffers⟩ := List.any_eq_true.1 hany
    exact ⟨row, hrow, by simpa using hdiffers⟩
  | some first =>
    left
    -- whichever row comes first is the one that is taken
    have hall : ∀ row ∈ rows, row = first := by
      intro row hrow
      have hsome := h _ (List.perm_cons_erase hrow).symm
      rw [hfirst, firstOf_cons] at hsome
      split_ifs at hsome
      exact Option.some.inj hsome
    intro row hrow row' hrow'
    rw [hall row hrow, hall row' hrow']

/-! ## First signals -/

theorem mints_perm {rows rows' : List PreparedRow} (h : rows'.Perm rows) : (mints rows').Perm (mints rows) := by
  refine (List.perm_ext_iff_of_nodup nodup_mints nodup_mints).2 fun mint => ?_
  rw [mem_mints, mem_mints]
  simp only [h.mem_iff]

theorem firstSignals_perm {rows rows' : List PreparedRow} (h : rows'.Perm rows)
    (hfirst : ∀ mint, firstSignal rows' mint = firstSignal rows mint) :
    (firstSignalPerMint rows').1.Perm (firstSignalPerMint rows).1 ∧
      (firstSignalPerMint rows').2 = (firstSignalPerMint rows).2 := by
  have hsame : firstSignal rows' = firstSignal rows := funext hfirst
  unfold firstSignalPerMint
  rw [hsame]
  refine ⟨?_, (mints_perm h).countP_eq _⟩
  exact (Cut.sort_perm _).trans (((mints_perm h).filterMap _).trans (Cut.sort_perm _).symm)

/-- Where the rows that tie are settled, the samples of a family are the same in any order. -/
theorem familyAnalysis_same {rows rows' : List PreparedRow} (h : rows'.Perm rows)
    (hsettled : ∀ mint, Settled (earliest rows mint)) (fraction : Double) :
    (familyAnalysis rows' fraction).Same (familyAnalysis rows fraction) := by
  have hsort : (Cut.sort PreparedRow.sortKey rows').Perm (Cut.sort PreparedRow.sortKey rows) :=
    (Cut.sort_perm rows').trans (h.trans (Cut.sort_perm rows).symm)
  obtain ⟨hunique, hcount⟩ := firstSignals_perm hsort fun mint => by
    rw [firstSignal_sort, firstSignal_sort, firstSignal_eq, firstSignal_eq]
    exact firstOf_of_settled (hsettled mint) (earliest_perm h mint)
  exact ⟨hsort, train_perm hsort fraction, holdout_perm hsort fraction, hunique, train_perm hunique fraction,
    holdout_perm hunique fraction, hcount⟩

/-! ## The newest rows -/

section Window

variable {n : Nat} {rows rows' : List PreparedRow} {family mint : String}

theorem mem_window {row : PreparedRow} : row ∈ window n rows ↔
    row ∈ rows ∧ rows.countP (fun other => row.sortKey < other.sortKey) < n := by
  unfold window
  rw [List.mem_filter, decide_eq_true_iff]

/-- The rows in the window are the ones that are kept. -/
theorem mem_last_iff (hwhole : Whole PreparedRow.sortKey n rows) {row : PreparedRow} :
    row ∈ Cut.last PreparedRow.sortKey n rows ↔ row ∈ window n rows := by
  rw [mem_window]
  constructor
  · exact Cut.mem_last
  · rintro ⟨hrow, habove⟩
    exact Cut.mem_last_of_whole hwhole hrow habove

theorem mem_earliest {row : PreparedRow} : row ∈ earliest rows mint ↔
    row ∈ rows ∧ row.mint = mint ∧ ∀ other ∈ rows, other.mint = mint → row.sortKey ≤ other.sortKey := by
  unfold earliest
  rw [List.mem_filter, decide_eq_true_iff]

theorem sortKey_of_earliest {row row' : PreparedRow} (h : row ∈ earliest rows mint) (h' : row' ∈ earliest rows mint) :
    row.sortKey = row'.sortKey := by
  obtain ⟨hmem, hmint, hleast⟩ := mem_earliest.1 h
  obtain ⟨hmem', hmint', hleast'⟩ := mem_earliest.1 h'
  exact le_antisymm (hleast row' hmem' hmint') (hleast' row hmem hmint)

/-- The earliest rows of a token depend on which rows there are, and on those of their key. -/
theorem earliest_congr {first : PreparedRow} (hfirst : first ∈ earliest rows mint)
    (hmem : ∀ row, row ∈ rows ↔ row ∈ rows')
    (hlevel : rows.filter (fun row => row.sortKey = first.sortKey) =
      rows'.filter fun row => row.sortKey = first.sortKey) :
    earliest rows mint = earliest rows' mint := by
  have hsame : ∀ row, row ∈ earliest rows mint ↔ row ∈ earliest rows' mint := fun row => by
    rw [mem_earliest, mem_earliest]
    simp only [hmem]
  have hkeys : (earliest rows mint).filter (fun row => row.sortKey = first.sortKey) = earliest rows mint :=
    List.filter_eq_self.2 fun row hrow => by simpa using sortKey_of_earliest hrow hfirst
  have hkeys' : (earliest rows' mint).filter (fun row => row.sortKey = first.sortKey) = earliest rows' mint :=
    List.filter_eq_self.2 fun row hrow => by simpa using sortKey_of_earliest hrow ((hsame first).1 hfirst)
  rw [← hkeys, ← hkeys']
  unfold earliest
  rw [List.filter_comm, hlevel]
  simp only [hmem]
  exact List.filter_comm ..

/-- Different rows that tie for the first one are all kept, as they came. -/
theorem earliest_last (hwhole : Whole PreparedRow.sortKey n rows) {row row' : PreparedRow}
    (hrow : row ∈ firsts n rows family mint) (hrow' : row' ∈ firsts n rows family mint) (hne : row ≠ row') :
    earliest ((Cut.last PreparedRow.sortKey n rows).filter fun row => row.family = family) mint =
      firsts n rows family mint := by
  have hmem : ∀ r, r ∈ (window n rows).filter (fun row => row.family = family) ↔
      r ∈ (Cut.last PreparedRow.sortKey n rows).filter fun row => row.family = family := fun r => by
    rw [List.mem_filter, List.mem_filter, mem_last_iff hwhole]
  have hwindow := mem_window.1 (List.mem_of_mem_filter (mem_earliest.1 hrow).1)
  have hwindow' := mem_window.1 (List.mem_of_mem_filter (mem_earliest.1 hrow').1)
  have hall : rows.countP (fun other => row.sortKey ≤ other.sortKey) ≤ n := by
    rcases hwhole row hwindow.1 row' hwindow'.1 (sortKey_of_earliest hrow hrow') hne with hout | hall
    · exact absurd hwindow.2 (not_lt.2 hout)
    · exact hall
  have hlevel : (window n rows).filter (fun r => r.sortKey = row.sortKey) =
      rows.filter fun r => r.sortKey = row.sortKey := by
    unfold window
    rw [List.filter_filter]
    refine List.filter_congr fun r hr => ?_
    rw [Bool.and_eq_left_iff_imp]
    intro hkey
    rw [of_decide_eq_true hkey]
    exact decide_eq_true hwindow.2
  refine (earliest_congr hrow hmem ?_).symm
  rw [List.filter_comm, hlevel, List.filter_comm (l := Cut.last _ _ _), Cut.filter_last hall]

theorem settled_earliest_last (hwhole : Whole PreparedRow.sortKey n rows)
    (hsettled : Settled (firsts n rows family mint)) :
    Settled (earliest ((Cut.last PreparedRow.sortKey n rows).filter fun row => row.family = family) mint) := by
  by_cases hsame : ∀ row ∈ firsts n rows family mint, ∀ row' ∈ firsts n rows family mint, row = row'
  · left
    have hmem : ∀ row ∈ earliest ((Cut.last PreparedRow.sortKey n rows).filter fun row => row.family = family) mint,
        row ∈ firsts n rows family mint := by
      intro row hrow
      unfold firsts
      rw [mem_earliest] at hrow ⊢
      simp only [List.mem_filter, mem_last_iff hwhole] at hrow ⊢
      exact hrow
    exact fun row hrow row' hrow' => hsame row (hmem row hrow) row' (hmem row' hrow')
  · simp only [not_forall] at hsame
    obtain ⟨row, hrow, row', hrow', hne⟩ := hsame
    rw [earliest_last hwhole hrow hrow' hne]
    exact hsettled

/-- What makes a row of the list one of those that tie for the first one does not depend on the order. -/
theorem exists_predicate (n : Nat) (rows : List PreparedRow) (family mint : String) :
    ∃ p : PreparedRow → Bool, ∀ rows', rows'.Perm rows → firsts n rows' family mint = rows'.filter p := by
  refine ⟨fun row => decide (row.mint = mint ∧
    ∀ other ∈ (window n rows).filter fun (other : PreparedRow) => other.family = family,
      other.mint = mint → row.sortKey ≤ other.sortKey) &&
      (decide (row.family = family) && decide (rows.countP (fun other => row.sortKey < other.sortKey) < n)), ?_⟩
  intro rows' h
  have hmem : ∀ other, other ∈ (window n rows').filter (fun other => other.family = family) ↔
      other ∈ (window n rows).filter fun other => other.family = family := fun other => by
    rw [List.mem_filter, List.mem_filter, mem_window, mem_window, h.mem_iff, h.countP_eq]
  have hwindow : window n rows' =
      rows'.filter fun row => rows.countP (fun other => row.sortKey < other.sortKey) < n := by
    unfold window
    simp only [h.countP_eq]
  have hleast : ∀ row ∈ (window n rows').filter fun row => row.family = family,
      decide (row.mint = mint ∧ ∀ other ∈ (window n rows').filter fun (other : PreparedRow) => other.family = family,
        other.mint = mint → row.sortKey ≤ other.sortKey) =
      decide (row.mint = mint ∧ ∀ other ∈ (window n rows).filter fun (other : PreparedRow) => other.family = family,
        other.mint = mint → row.sortKey ≤ other.sortKey) := by
    intro row _
    rw [decide_eq_decide]
    simp only [hmem]
  unfold firsts earliest
  rw [List.filter_congr hleast, hwindow, List.filter_filter, List.filter_filter]
  simp only [Bool.and_assoc]

/-- The rows that tie for the first one may come in any order. -/
theorem exists_firsts {tying : List PreparedRow} (h : tying.Perm (firsts n rows family mint)) :
    ∃ rows', rows'.Perm rows ∧ firsts n rows' family mint = tying := by
  obtain ⟨p, hp⟩ := exists_predicate n rows family mint
  rw [hp rows (List.Perm.refl _)] at h
  have hperm : (tying ++ rows.filter fun row => !p row).Perm rows :=
    (h.append_right _).trans (List.filter_append_perm p rows)
  refine ⟨_, hperm, ?_⟩
  have htying : tying.filter p = tying :=
    List.filter_eq_self.2 fun row hrow => (List.mem_filter.1 (h.mem_iff.1 hrow)).2
  have hrest : (rows.filter fun row => !p row).filter p = [] :=
    List.filter_eq_nil_iff.2 fun row hrow => by simpa using (List.mem_filter.1 hrow).2
  rw [hp _ hperm, List.filter_append, htying, hrest, List.append_nil]

end Window

/-! ## The input -/

section Input

variable {py : Host} {settings : Settings} {rows rows' : List Value}

theorem prepared_eq : (prepareRows py settings rows).1 =
    Cut.last PreparedRow.sortKey settings.maximumRows (preparedRows py settings rows) := by
  unfold prepareRows Cut.last lastN
  dsimp only
  rw [Cut.length_sort]
  split_ifs with hlong
  · rfl
  · rw [Nat.sub_eq_zero_of_le (not_lt.1 hlong)]
    rfl

theorem raw_of_prepareRow {item : Value} {row : PreparedRow} (h : prepareRow py settings item = .ok row) :
    row.raw = item := by
  unfold prepareRow at h
  by_cases hdict : ¬ isDict item
  · rw [if_pos hdict] at h
    cases h
  · rw [if_neg hdict] at h
    split at h
    · cases h
    · cases h
    · dsimp only at h
      split_ifs at h
      cases h
      rfl

theorem prepareRow_raw {row : PreparedRow} (h : row ∈ preparedRows py settings rows) :
    prepareRow py settings row.raw = .ok row := by
  obtain ⟨item, -, hitem⟩ := List.mem_filterMap.1 h
  cases hprepare : prepareRow py settings item with
  | error reason =>
    rw [hprepare] at hitem
    cases hitem
  | ok row' =>
    rw [hprepare] at hitem
    cases hitem
    rw [raw_of_prepareRow hprepare, hprepare]

theorem map_raw_preparedRows : ∀ rows : List Value, (preparedRows py settings rows).map PreparedRow.raw =
    rows.filter fun item => (prepareRow py settings item).toOption.isSome
  | [] => rfl
  | item :: rows => by
    have ih := map_raw_preparedRows rows
    unfold preparedRows at ih ⊢
    cases hprepare : prepareRow py settings item with
    | error reason =>
      rw [List.filterMap_cons_none (by rw [hprepare]; rfl),
        List.filter_cons_of_neg (by rw [hprepare]; exact Bool.false_ne_true), ih]
    | ok row =>
      rw [List.filterMap_cons_some (by rw [hprepare]; rfl), List.filter_cons_of_pos (by rw [hprepare]; rfl),
        List.map_cons, ih, raw_of_prepareRow hprepare]

/-- Any order of the prepared rows comes from an order of the input. -/
theorem exists_rows {prepared : List PreparedRow} (h : prepared.Perm (preparedRows py settings rows)) :
    ∃ rows', rows'.Perm rows ∧ preparedRows py settings rows' = prepared := by
  refine ⟨prepared.map PreparedRow.raw ++ rows.filter fun item => !(prepareRow py settings item).toOption.isSome,
    ?_, ?_⟩
  · have hmap := h.map PreparedRow.raw
    rw [map_raw_preparedRows] at hmap
    exact (hmap.append_right _).trans (List.filter_append_perm _ rows)
  · have hkept : (prepared.map PreparedRow.raw).filterMap (fun item => (prepareRow py settings item).toOption) =
        prepared := by
      rw [List.filterMap_map, List.filterMap_congr, List.filterMap_some]
      intro row hrow
      show (prepareRow py settings row.raw).toOption = some row
      rw [prepareRow_raw (h.mem_iff.1 hrow)]
      rfl
    have hrest : (rows.filter fun item => !(prepareRow py settings item).toOption.isSome).filterMap
        (fun item => (prepareRow py settings item).toOption) = [] := by
      refine List.filterMap_eq_nil_iff.2 fun item hitem => ?_
      simpa using (List.mem_filter.1 hitem).2
    unfold preparedRows
    rw [List.filterMap_append, hkept, hrest, List.append_nil]

theorem preparedRows_perm (h : rows'.Perm rows) :
    (preparedRows py settings rows').Perm (preparedRows py settings rows) :=
  h.filterMap _

theorem excluded_perm (h : rows'.Perm rows) : (prepareRows py settings rows').2 = (prepareRows py settings rows).2 := by
  have hcount : excludedCount py settings rows' = excludedCount py settings rows := funext fun reason => h.countP_eq _
  unfold prepareRows
  dsimp only
  rw [hcount, Cut.length_sort, Cut.length_sort, (preparedRows_perm h).length_eq]
  split_ifs <;> rfl

theorem toList_perm {α : Type*} {x y : Option α} (h : x.toList.Perm y.toList) : x = y := by
  cases x with
  | none =>
    cases y with
    | none => rfl
    | some y => cases h.nil_eq
  | some x =>
    cases y with
    | none => cases h.eq_nil
    | some y => rw [List.singleton_perm_singleton.1 h]

/-- The selection does not depend on the order of the rows exactly when the cut to the newest rows goes
through no different rows that tie, and the rows that tie for the first one of a token are all the same or
each of them differs from another one. -/
theorem reordered_iff (py : Host) (settings : Settings) (rows : List Value) :
    (∀ rows', rows'.Perm rows → (selection py settings rows').Same (selection py settings rows)) ↔
      Whole PreparedRow.sortKey settings.maximumRows (preparedRows py settings rows) ∧
        ∀ family ∈ families, ∀ mint,
          Settled (firsts settings.maximumRows (preparedRows py settings rows) family mint) := by
  constructor
  · intro hsame
    have hwhole : Whole PreparedRow.sortKey settings.maximumRows (preparedRows py settings rows) := by
      refine Cut.whole_of_last_perm fun prepared hprepared => ?_
      obtain ⟨rows', hrows', rfl⟩ := exists_rows hprepared
      have hkept := (hsame rows' hrows').prepared
      unfold selection at hkept
      dsimp only at hkept
      rw [prepared_eq, prepared_eq] at hkept
      exact hkept
    refine ⟨hwhole, fun family hfamily mint => ?_⟩
    by_cases hall : ∀ row ∈ firsts settings.maximumRows (preparedRows py settings rows) family mint,
        ∀ row' ∈ firsts settings.maximumRows (preparedRows py settings rows) family mint, row = row'
    · exact .inl hall
    simp only [not_forall] at hall
    obtain ⟨row, hrow, row', hrow', hne⟩ := hall
    -- every order of the rows that tie comes from an order of the input, and is read there as it is
    have hread : ∀ tying, tying.Perm (firsts settings.maximumRows (preparedRows py settings rows) family mint) →
        ∃ rows', rows'.Perm rows ∧ firstSignal ((prepareRows py settings rows').1.filter
          fun row => row.family = family) mint = firstOf tying := by
      intro tying htying
      obtain ⟨prepared, hprepared, hfirsts⟩ := exists_firsts htying
      obtain ⟨rows', hrows', rfl⟩ := exists_rows hprepared
      refine ⟨rows', hrows', ?_⟩
      have hlast := earliest_last (hwhole.perm hprepared) (hfirsts ▸ htying.mem_iff.2 hrow)
        (hfirsts ▸ htying.mem_iff.2 hrow') hne
      rw [firstSignal_eq, prepared_eq, hlast, hfirsts]
    have hone : ∀ rows', rows'.Perm rows →
        firstSignal ((prepareRows py settings rows').1.filter fun row => row.family = family) mint =
          firstSignal ((prepareRows py settings rows).1.filter fun row => row.family = family) mint := by
      intro rows' hrows'
      have hsamples := (hsame rows' hrows').samples family hfamily
      have hfilter := (hsamples.uniqueTrain.append hsamples.uniqueHoldout).filter fun row => row.mint = mint
      unfold selection at hfilter
      dsimp only at hfilter
      rw [filter_samples, filter_samples] at hfilter
      exact toList_perm hfilter
    refine settled_of_firstOf fun tying htying => ?_
    obtain ⟨rows', hrows', hfirst⟩ := hread tying htying
    obtain ⟨rows'', hrows'', hfirst'⟩ := hread _ (List.Perm.refl _)
    rw [← hfirst, ← hfirst', hone rows' hrows', hone rows'' hrows'']
  · rintro ⟨hwhole, hsettled⟩ rows' hrows'
    have hprepared : (preparedRows py settings rows').Perm (preparedRows py settings rows) := preparedRows_perm hrows'
    have hkept : (prepareRows py settings rows').1.Perm (prepareRows py settings rows).1 := by
      rw [prepared_eq, prepared_eq]
      exact Cut.last_perm hwhole hprepared
    refine ⟨hkept, excluded_perm hrows', fun family hfamily => ?_⟩
    refine familyAnalysis_same (hkept.filter _) (fun mint => ?_) _
    rw [prepared_eq]
    exact settled_earliest_last hwhole (hsettled family hfamily mint)

end Input

/-! ## Two rows of one signal -/

/-- The newest row alone. -/
def newestOnly : Settings where
  holdoutFraction := ⟨1 / 2, 1, -1, by norm_num, by norm_num, by norm_num, by norm_num⟩
  fraction_pos := by norm_num
  fraction_lt_one := by norm_num
  maximumRows := 1
  one_le_maximum := le_rfl
  maximum_le := by norm_num
  cohort := "BASELINE"
  cohort_ne := by decide

/-- A row of a signal, with what was found for it. -/
def rowOf (quoteStatus : String) : Value :=
  .ofItems [("observation_id", .str "a"), ("mint", .str "mint"), ("signal_type", .str "MOMENTUM"),
    ("signal_detected_at", .ofDouble (seconds 1000 exact_1000)), ("tracking_profile", .str "BASELINE"),
    ("quote_status", .str quoteStatus)]

theorem prepareRow_rowOf (quoteStatus : String) : prepareRow firstDay newestOnly (rowOf quoteStatus) =
    .ok ⟨rowOf quoteStatus, "MOMENTUM", "mint", seconds 1000 exact_1000, "a", "digest"⟩ := by
  have htime : signalTimestamp firstDay (rowOf quoteStatus) = some (seconds 1000 exact_1000) := by
    have hget : (rowOf quoteStatus).get "signal_detected_at" = .ofDouble (seconds 1000 exact_1000) := rfl
    unfold signalTimestamp
    rw [List.findSome?_cons, hget, timestampValue_ofDouble (by norm_num [seconds])]
  have htype : strippedText firstDay (rowOf quoteStatus) "signal_type" = "MOMENTUM" := by
    show Observation.strip "MOMENTUM" = "MOMENTUM"
    decide +kernel
  have hmint : strippedText firstDay (rowOf quoteStatus) "mint" = "mint" := by
    show Observation.strip "mint" = "mint"
    decide +kernel
  have hobservation : strippedText firstDay (rowOf quoteStatus) "observation_id" = "a" := by
    show Observation.strip "a" = "a"
    decide +kernel
  have hid : eventIdentity firstDay (rowOf quoteStatus) = "a" := by
    unfold eventIdentity
    rw [hobservation]
    rfl
  have hcohort : ((rowOf quoteStatus).get "tracking_profile").isStr newestOnly.cohort = true := by rfl
  have hfamily : signalFamily firstDay (rowOf quoteStatus) = some "MOMENTUM" := by
    unfold signalFamily
    dsimp only
    rw [htype]
    rfl
  have hdict : isDict (rowOf quoteStatus) = true := rfl
  unfold prepareRow
  rw [htime, hfamily, hmint, hid, hcohort, hdict]
  rfl

theorem preparedRows_rowOf (first second : String) :
    preparedRows firstDay newestOnly [rowOf first, rowOf second] =
      [⟨rowOf first, "MOMENTUM", "mint", seconds 1000 exact_1000, "a", "digest"⟩,
        ⟨rowOf second, "MOMENTUM", "mint", seconds 1000 exact_1000, "a", "digest"⟩] := by
  unfold preparedRows
  rw [List.filterMap_cons_some (by rw [prepareRow_rowOf]; rfl),
    List.filterMap_cons_some (by rw [prepareRow_rowOf]; rfl)]
  rfl

theorem prepared_rowOf (first second : String) : (prepareRows firstDay newestOnly [rowOf first, rowOf second]).1 =
    [⟨rowOf second, "MOMENTUM", "mint", seconds 1000 exact_1000, "a", "digest"⟩] := by
  rw [prepared_eq, preparedRows_rowOf]
  unfold Cut.last
  rw [Cut.sort_eq_self]
  · rfl
  · exact List.pairwise_pair.2 le_rfl

/-- Of two rows of one signal, the one that comes last is kept. -/
theorem reordered_twoRows : ¬ ∀ rows', rows'.Perm [rowOf "EXECUTABLE", rowOf "NO_ROUTE"] →
    (selection firstDay newestOnly rows').Same
      (selection firstDay newestOnly [rowOf "EXECUTABLE", rowOf "NO_ROUTE"]) := by
  intro h
  have hkept := (h [rowOf "NO_ROUTE", rowOf "EXECUTABLE"] (List.Perm.swap ..)).prepared
  unfold selection at hkept
  dsimp only at hkept
  rw [prepared_rowOf, prepared_rowOf] at hkept
  have hraw := congrArg PreparedRow.raw (List.singleton_perm_singleton.1 hkept)
  have hstatus : (Value.str "EXECUTABLE") = .str "NO_ROUTE" := congrArg (Value.get "quote_status") hraw
  have htext := Value.str.inj hstatus
  exact absurd htext (by decide)

end Aibot.Research.Discovery
