/-
`archive_and_retain_observations` on the row objects themselves: what is kept is decided by the identity
of the objects. The retention drops the oldest archived rows and nothing else, and applied to what it has
left it drops nothing.
-/
import Aibot.Observation.Writers

namespace Aibot.Observation.Retained

open Stored (Fields terminalStatus opened archived unhashable upper upperIs)

/-! ## Objects -/

/-- A row object: its identity, and the fields it has. -/
structure RowObject where
  id : Nat
  fields : Fields

/-- The rows of a document: a list of distinct objects. -/
structure Rows where
  objects : List RowObject
  distinct : (objects.map RowObject.id).Nodup

/-- A row that the operational cap counts as completed; every other row is active. -/
def RowObject.completed (row : RowObject) : Bool := terminalStatus row.fields && !opened row.fields

/-- `str(row.get("status") or "").upper() in TERMINAL_OBSERVATION_STATUSES`, without the archive marker. -/
def RowObject.unarchived (row : RowObject) : Bool :=
  (upperIs (row.fields.field "status") "COMPLETE" || upperIs (row.fields.field "status") "EXPIRED_UNSAMPLED") &&
    !archived row.fields

/-- A status that is a text is in upper case; any other can be looked up in a set. -/
def RowObject.upperCase (row : RowObject) : Bool :=
  match row.fields.field "status" with
  | .str s => upper s = s
  | x => !unhashable x

/-- `retained_observations`. -/
def retainedObservations (rows : List RowObject) : List RowObject :=
  let active := rows.filter fun row => !row.completed
  let completed := rows.filter RowObject.completed
  let completedBudget := maxObservations - active.length
  let keptCompleted := if completedBudget = 0 then [] else completed.drop (completed.length - completedBudget)
  let keptIds := (active ++ keptCompleted).map RowObject.id
  rows.filter fun row => row.id ∈ keptIds

/-- `archive_and_retain_observations`. -/
def archiveAndRetainObservations (rows : List RowObject) : List RowObject :=
  let unarchivedIds := (rows.filter RowObject.unarchived).map RowObject.id
  let retained := retainedObservations rows
  let keptIds := retained.map RowObject.id
  if unarchivedIds ⊆ keptIds then retained
  else rows.filter fun row => row.id ∈ keptIds ∨ row.id ∈ unarchivedIds

/-! ## What is kept -/

/-- The number of completed rows, the oldest, that have no place beside the active ones. -/
def overflow (rows : List RowObject) : Nat :=
  (rows.filter RowObject.completed).length - (maxObservations - (rows.filter fun row => !row.completed).length)

/-- The completed rows beyond the cap. -/
def overdue (rows : List RowObject) : List RowObject := (rows.filter RowObject.completed).take (overflow rows)

variable {rows : List RowObject} {row : RowObject}

/-- Distinct objects are told apart by their identity. -/
theorem id_mem_iff (hd : (rows.map RowObject.id).Nodup) {part : List RowObject} (hpart : part ⊆ rows)
    (hrow : row ∈ rows) : row.id ∈ part.map RowObject.id ↔ row ∈ part := by
  constructor
  · intro h
    obtain ⟨row', hrow', hid⟩ := List.mem_map.1 h
    rwa [List.inj_on_of_nodup_map hd hrow (hpart hrow') hid.symm]
  · exact List.mem_map_of_mem

theorem mem_keptCompleted (hd : (rows.map RowObject.id).Nodup) (hrow : row ∈ rows) (hc : row.completed = true) :
    row ∈ (rows.filter RowObject.completed).drop (overflow rows) ↔ row ∉ overdue rows := by
  have hmem : row ∈ rows.filter RowObject.completed := List.mem_filter.2 ⟨hrow, hc⟩
  have hnodup : (rows.filter RowObject.completed).Nodup := (List.Nodup.of_map _ hd).filter _
  rw [← List.take_append_drop (overflow rows) (rows.filter RowObject.completed)] at hmem hnodup
  constructor
  · intro hdrop htake
    exact List.disjoint_of_nodup_append hnodup htake hdrop
  · intro htake
    exact (List.mem_append.1 hmem).resolve_left htake

/-- The completed rows that are kept: those that are not beyond the cap. -/
theorem mem_retained (hd : (rows.map RowObject.id).Nodup) (hrow : row ∈ rows) :
    row ∈ retainedObservations rows ↔ row ∉ overdue rows := by
  unfold retainedObservations
  have hdrop : (if maxObservations - (rows.filter fun row => !row.completed).length = 0 then [] else
      (rows.filter RowObject.completed).drop ((rows.filter RowObject.completed).length -
        (maxObservations - (rows.filter fun row => !row.completed).length))) =
      (rows.filter RowObject.completed).drop (overflow rows) := by
    unfold overflow
    split_ifs with h
    · rw [h, Nat.sub_zero, List.drop_length]
    · rfl
  simp only [hdrop]
  rw [List.mem_filter, decide_eq_true_eq, id_mem_iff hd _ hrow]
  · rw [and_iff_right hrow, List.mem_append, List.mem_filter]
    by_cases hc : row.completed = true
    · rw [mem_keptCompleted hd hrow hc]
      simp [hc]
    · have hnot : row ∉ overdue rows := fun h => hc (List.mem_filter.1 (List.mem_of_mem_take h)).2
      simp [hc, hrow, hnot]
  · intro row' h
    rcases List.mem_append.1 h with h | h
    · exact List.mem_of_mem_filter h
    · exact List.mem_of_mem_filter (List.mem_of_mem_drop h)

theorem overdue_subset : overdue rows ⊆ rows := fun _ h => List.mem_of_mem_filter (List.mem_of_mem_take h)

/-- A terminal status in upper case is one that `retained_observations` knows as well. -/
theorem unarchived_iff (hu : row.upperCase) :
    row.unarchived = true ↔ terminalStatus row.fields = true ∧ archived row.fields = false := by
  have hsame : (upperIs (row.fields.field "status") "COMPLETE" ||
      upperIs (row.fields.field "status") "EXPIRED_UNSAMPLED") = terminalStatus row.fields := by
    unfold RowObject.upperCase at hu
    unfold terminalStatus upperIs Json.isStr
    cases hs : row.fields.field "status" with
    | str s =>
      rw [hs] at hu
      simp only [show upper s = s from of_decide_eq_true hu]
    | _ => rfl
  unfold RowObject.unarchived
  rw [hsame]
  simp

/-- What the source keeps, in one condition: a row is dropped when it is beyond the cap and archived. -/
theorem archiveAndRetain_eq (hd : (rows.map RowObject.id).Nodup) (hu : ∀ row ∈ rows, row.upperCase) :
    archiveAndRetainObservations rows =
      rows.filter fun row => row.id ∉ (overdue rows).map RowObject.id ∨ archived row.fields = false := by
  have hretained : ∀ row ∈ rows, row.id ∈ (retainedObservations rows).map RowObject.id ↔ row ∉ overdue rows :=
    fun row hrow => (id_mem_iff hd (fun _ h => List.mem_of_mem_filter h) hrow).trans (mem_retained hd hrow)
  have hunarchived : ∀ row ∈ rows, row ∈ overdue rows →
      (row.id ∈ (rows.filter RowObject.unarchived).map RowObject.id ↔ archived row.fields = false) := by
    intro row hrow hover
    have hc : row.completed = true := (List.mem_filter.1 (List.mem_of_mem_take hover)).2
    have hterminal : terminalStatus row.fields = true := (Bool.and_eq_true_iff.1 hc).1
    rw [id_mem_iff hd (fun _ h => List.mem_of_mem_filter h) hrow, List.mem_filter, unarchived_iff (hu row hrow)]
    simp [hrow, hterminal]
  unfold archiveAndRetainObservations
  simp only
  split_ifs with hsub
  · -- nothing that is not archived is beyond the cap
    have hself : retainedObservations rows =
        rows.filter fun row => row.id ∈ (retainedObservations rows).map RowObject.id := by
      refine List.filter_congr fun row hrow => decide_eq_decide.2 ?_
      rw [hretained row hrow, ← mem_retained hd hrow]
      unfold retainedObservations
      rw [List.mem_filter, and_iff_right hrow, decide_eq_true_eq]
    rw [hself]
    refine List.filter_congr fun row hrow => decide_eq_decide.2 ?_
    rw [hretained row hrow, id_mem_iff hd overdue_subset hrow]
    refine ⟨Or.inl, fun h => h.elim id fun harchived hover => ?_⟩
    exact (hretained row hrow).1 (hsub ((hunarchived row hrow hover).2 harchived)) hover
  · refine List.filter_congr fun row hrow => decide_eq_decide.2 ?_
    rw [hretained row hrow, id_mem_iff hd overdue_subset hrow]
    by_cases hover : row ∈ overdue rows
    · simp only [hover, not_true, false_or]
      exact hunarchived row hrow hover
    · simp only [hover, not_false_eq_true, true_or]

/-! ## Safe and stable -/

/-- The completed rows that are kept: those beyond the cap that are not archived, and the newest. -/
theorem completed_kept (hd : (rows.map RowObject.id).Nodup) (hu : ∀ row ∈ rows, row.upperCase) :
    (archiveAndRetainObservations rows).filter RowObject.completed =
      ((overdue rows).filter fun row => !archived row.fields) ++
        (rows.filter RowObject.completed).drop (overflow rows) := by
  rw [archiveAndRetain_eq hd hu, List.filter_comm]
  conv_lhs => rw [← List.take_append_drop (overflow rows) (rows.filter RowObject.completed)]
  rw [List.filter_append]
  congr 1
  · refine List.filter_congr fun row hrow => ?_
    have hid : row.id ∈ (overdue rows).map RowObject.id := List.mem_map_of_mem hrow
    simp [hid]
  · refine List.filter_eq_self.2 fun row hrow => decide_eq_true (.inl ?_)
    have hmem := List.mem_filter.1 (List.mem_of_mem_drop hrow)
    rw [id_mem_iff hd overdue_subset hmem.1]
    exact (mem_keptCompleted hd hmem.1 hmem.2).1 hrow

/-- Every active row is kept. -/
theorem active_kept (hd : (rows.map RowObject.id).Nodup) (hu : ∀ row ∈ rows, row.upperCase) :
    (archiveAndRetainObservations rows).filter (fun row => !row.completed) =
      rows.filter fun row => !row.completed := by
  rw [archiveAndRetain_eq hd hu, List.filter_filter]
  refine List.filter_congr fun row hrow => ?_
  by_cases hc : row.completed = true
  · simp [hc]
  · have hid : row.id ∉ (overdue rows).map RowObject.id := by
      rw [id_mem_iff hd overdue_subset hrow]
      exact fun h => hc (List.mem_filter.1 (List.mem_of_mem_take h)).2
    simp [hc, hid]

/-- Of what is kept, only rows that are not archived are beyond the cap. -/
theorem overdue_kept (hd : (rows.map RowObject.id).Nodup) (hu : ∀ row ∈ rows, row.upperCase) :
    ∀ row ∈ overdue (archiveAndRetainObservations rows), archived row.fields = false := by
  intro row hrow
  have hcount : overflow (archiveAndRetainObservations rows) ≤
      ((overdue rows).filter fun row => !archived row.fields).length := by
    have hdrop : ((rows.filter RowObject.completed).drop (overflow rows)).length ≤
        maxObservations - (rows.filter fun row => !row.completed).length := by
      rw [List.length_drop]
      unfold overflow
      omega
    unfold overflow at hdrop ⊢
    rw [completed_kept hd hu, active_kept hd hu, List.length_append]
    unfold overflow at *
    omega
  unfold overdue at hrow
  rw [completed_kept hd hu, List.take_append_of_le_length hcount] at hrow
  simpa using (List.mem_filter.1 (List.mem_of_mem_take hrow)).2

/-- The retention keeps what is active, open or not archived, drops nothing below the cap and the oldest
rows first, and changes nothing of what it has left. -/
theorem archiveAndRetain_safe (rows : Rows) (hu : ∀ row ∈ rows.objects, row.upperCase) :
    let kept := archiveAndRetainObservations rows.objects
    kept.Sublist rows.objects ∧
    (∀ row ∈ rows.objects, terminalStatus row.fields = false ∨ opened row.fields = true ∨
      archived row.fields = false → row ∈ kept) ∧
    (rows.objects.length ≤ maxObservations → kept = rows.objects) ∧
    (∀ dropped ∈ rows.objects, dropped ∉ kept → ∀ survivor ∈ kept, terminalStatus survivor.fields = true →
      opened survivor.fields = false → archived survivor.fields = true →
        [dropped, survivor].Sublist rows.objects) ∧
    archiveAndRetainObservations kept = kept := by
  have hd := rows.distinct
  have hkept := archiveAndRetain_eq hd hu
  have hsub : (archiveAndRetainObservations rows.objects).Sublist rows.objects := by
    rw [hkept]
    exact List.filter_sublist
  have hdropped : ∀ row ∈ rows.objects, row ∉ archiveAndRetainObservations rows.objects ↔
      row ∈ overdue rows.objects ∧ archived row.fields = true := by
    intro row hrow
    rw [hkept, List.mem_filter, decide_eq_true_eq, id_mem_iff hd overdue_subset hrow]
    simp [hrow]
  refine ⟨hsub, fun row hrow hsafe => ?_, fun hlen => ?_, fun dropped hrow hgone survivor hkeep ht ho ha => ?_, ?_⟩
  · by_contra hgone
    obtain ⟨hover, harchived⟩ := (hdropped row hrow).1 hgone
    have hc : row.completed = true := (List.mem_filter.1 (List.mem_of_mem_take hover)).2
    unfold RowObject.completed at hc
    rcases hsafe with h | h | h
    · simp [h] at hc
    · simp [h] at hc
    · simp [h] at harchived
  · have hnone : overflow rows.objects = 0 := by
      have hsplit := List.length_eq_length_filter_add (l := rows.objects) RowObject.completed
      unfold overflow
      omega
    rw [hkept]
    refine List.filter_eq_self.2 fun row _ => decide_eq_true (.inl ?_)
    unfold overdue
    rw [hnone]
    simp
  · obtain ⟨hover, -⟩ := (hdropped dropped hrow).1 hgone
    have hmem : survivor ∈ rows.objects := hsub.subset hkeep
    have hc : survivor.completed = true := by
      unfold RowObject.completed
      simp [ht, ho]
    have hnot : survivor ∉ overdue rows.objects := fun h => (hdropped survivor hmem).2 ⟨h, ha⟩ hkeep
    have hlate := (mem_keptCompleted hd hmem hc).2 hnot
    have hpair : [dropped, survivor].Sublist (rows.objects.filter RowObject.completed) := by
      rw [← List.take_append_drop (overflow rows.objects) (rows.objects.filter RowObject.completed)]
      exact (List.singleton_sublist.2 hover).append (List.singleton_sublist.2 hlate)
    exact hpair.trans List.filter_sublist
  · have hd' := hd.sublist (hsub.map RowObject.id)
    rw [archiveAndRetain_eq hd' fun row hrow => hu row (hsub.subset hrow)]
    refine List.filter_eq_self.2 fun row hrow => decide_eq_true ?_
    by_cases hover : row ∈ overdue (archiveAndRetainObservations rows.objects)
    · exact .inr (overdue_kept hd hu row hover)
    · exact .inl (mt (id_mem_iff hd' overdue_subset hrow).1 hover)

/-- A waiting row and two completed ones, one of them archived. -/
def sampleRows : Rows where
  objects :=
    [⟨0, Dict.ofList [("status", .str "COMPLETE"), ("archive_schema_version", .int 1), ("archived_at", .str "now")]⟩,
      ⟨1, Dict.ofList [("status", .str "PENDING")]⟩, ⟨2, Dict.ofList [("status", .str "EXPIRED_UNSAMPLED")]⟩]
  distinct := by decide

theorem archiveAndRetain_safe_sample : archiveAndRetainObservations sampleRows.objects = sampleRows.objects := by
  have hupper : ∀ row ∈ sampleRows.objects, row.upperCase := by
    simp only [sampleRows, List.mem_cons, List.not_mem_nil, or_false, forall_eq_or_imp, forall_eq]
    exact ⟨by decide, by decide, by decide⟩
  have hlen : sampleRows.objects.length ≤ maxObservations := by
    unfold maxObservations
    decide
  exact (archiveAndRetain_safe sampleRows hupper).2.2.1 hlen

/-! ## The rows without their identity -/

theorem dropFirst_eq_filter {p q : RowObject → Bool} : ∀ {rows : List RowObject} (n : Nat),
    (rows.map RowObject.id).Nodup → dropFirst p q n rows =
      rows.filter fun row => row.id ∉ ((rows.filter p).take n).map RowObject.id ∨ q row = false
  | rows, 0, _ => by
    unfold dropFirst
    simp
  | [], n + 1, _ => rfl
  | row :: rows, n + 1, hd => by
    obtain ⟨hnew, hd'⟩ := List.nodup_cons.1 hd
    have hother : ∀ row' ∈ rows, row'.id ≠ row.id := fun row' h he => hnew (he ▸ List.mem_map_of_mem h)
    unfold dropFirst
    by_cases hp : p row = true
    · rw [if_pos hp, List.filter_cons_of_pos hp, List.take_succ_cons, List.map_cons, dropFirst_eq_filter n hd']
      have htail : (rows.filter fun row' => row'.id ∉ row.id :: ((rows.filter p).take n).map RowObject.id ∨
          q row' = false) = rows.filter fun row' => row'.id ∉ ((rows.filter p).take n).map RowObject.id ∨
          q row' = false := by
        refine List.filter_congr fun row' h => decide_eq_decide.2 ?_
        rw [List.mem_cons, not_or, and_iff_right (hother row' h)]
      rw [List.filter_cons, htail]
      cases hq : q row <;> simp
    · have hnot : row.id ∉ ((rows.filter p).take (n + 1)).map RowObject.id :=
        fun h => hnew ((((List.take_sublist _ _).trans List.filter_sublist).map RowObject.id).subset h)
      rw [if_neg hp, List.filter_cons_of_neg hp, dropFirst_eq_filter (n + 1) hd', List.filter_cons,
        if_pos (decide_eq_true (Or.inl hnot))]

/-- What the stored ledger keeps of its rows is what is kept of the objects. -/
theorem stored_archiveAndRetain (rows : Rows) (hu : ∀ row ∈ rows.objects, row.upperCase) :
    Stored.archiveAndRetainObservations (rows.objects.map RowObject.fields) =
      .ok ((archiveAndRetainObservations rows.objects).map RowObject.fields) := by
  have hhash : ((rows.objects.map RowObject.fields).any fun row => unhashable (row.field "status")) = false := by
    rw [List.any_eq_false]
    intro fields hfields
    obtain ⟨row, hrow, rfl⟩ := List.mem_map.1 hfields
    have hupper := hu row hrow
    unfold RowObject.upperCase at hupper
    cases hs : row.fields.field "status" with
    | str s => simp [unhashable, Json.isArr, Json.isObj]
    | _ => rw [hs] at hupper; simpa using hupper
  have hoverflow : overflow rows.objects =
      ((rows.objects.map RowObject.fields).filter fun row => terminalStatus row && !opened row).length -
        (maxObservations - ((rows.objects.map RowObject.fields).filter
          fun row => !(terminalStatus row && !opened row)).length) := by
    unfold overflow
    rw [List.filter_map, List.filter_map, List.length_map, List.length_map]
    rfl
  unfold Stored.archiveAndRetainObservations
  rw [if_neg (by rw [hhash]; exact Bool.false_ne_true)]
  dsimp only
  rw [← hoverflow, archiveAndRetain_eq rows.distinct hu]
  unfold overdue
  rw [← dropFirst_eq_filter (q := fun row => archived row.fields) _ rows.distinct]
  exact congrArg Except.ok (map_dropFirst RowObject.fields _ archived _ _).symm

end Aibot.Observation.Retained
