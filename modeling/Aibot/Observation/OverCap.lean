/-
Which rows the expiry gives up and which the retention drops, by their place in the ledger: a waiting row
of the backlog, and a completed row with the archive marker that is over the operational cap.
-/
import Aibot.Observation.RowWise

namespace Aibot.Observation

open Aibot.Risk

/-! ## The retention -/

/-- The row of the id is completed, carries the archive marker, and there are more rows than the cap and
the completed rows before it. -/
def OverCap (rows : List Row) (id : ObservationId) : Prop :=
  ∃ before row after, rows = before ++ row :: after ∧ row.observationId = id ∧ row.completed = true ∧
    row.archived = true ∧ before.countP Row.completed + maxObservations < rows.length

section Retention

variable {rows : List Row}

theorem mem_evicted_iff {row : Row} : row ∈ evictedObservations rows ↔
    ∃ before after, rows = before ++ row :: after ∧ row.completed = true ∧ row.archived = true ∧
      before.countP Row.completed + maxObservations < rows.length := by
  unfold evictedObservations
  rw [mem_droppedFirst_iff]
  refine exists₂_congr fun before after => ?_
  refine and_congr_right fun heq => and_congr_right fun hc => and_congr_right fun _ => ?_
  -- the row itself is completed, so fewer than all completed rows stand before it
  have hbefore : before.countP Row.completed < (rows.filter Row.completed).length := by
    rw [heq, ← List.countP_eq_length_filter, List.countP_append, List.countP_cons_of_pos hc]
    omega
  have hsum := List.length_eq_length_filter_add (l := rows) Row.completed
  unfold completedOverflow
  omega

theorem overCap_iff {id : ObservationId} : OverCap rows id ↔ id ∈ (evictedObservations rows).map Row.observationId := by
  rw [List.mem_map]
  constructor
  · rintro ⟨before, row, after, heq, hid, hrest⟩
    exact ⟨row, mem_evicted_iff.2 ⟨before, after, heq, hrest⟩, hid⟩
  · rintro ⟨row, hrow, hid⟩
    obtain ⟨before, after, heq, hrest⟩ := mem_evicted_iff.1 hrow
    exact ⟨before, row, after, heq, hid, hrest⟩

instance (rows : List Row) (id : ObservationId) : Decidable (OverCap rows id) := decidable_of_iff' _ overCap_iff

theorem OverCap.mem {id : ObservationId} (h : OverCap rows id) :
    ∃ row ∈ rows, row.observationId = id ∧ row.completed = true := by
  obtain ⟨before, row, after, rfl, hid, hc, -⟩ := h
  exact ⟨row, by simp, hid, hc⟩

theorem archiveAndRetain_eq_filter (hu : UniqueIds rows) :
    archiveAndRetainObservations rows = rows.filter fun row => decide (¬ OverCap rows row.observationId) := by
  unfold archiveAndRetainObservations
  rw [dropFirst_eq_filter_key Row.observationId hu]
  refine List.filter_congr fun row _ => decide_eq_decide.2 (not_congr ?_)
  exact overCap_iff.symm

theorem mem_archiveAndRetain (hu : UniqueIds rows) {row : Row} :
    row ∈ archiveAndRetainObservations rows ↔ row ∈ rows ∧ ¬ OverCap rows row.observationId := by
  rw [archiveAndRetain_eq_filter hu, List.mem_filter, decide_eq_true_iff]

/-- The retention of rows of which some that it would drop are gone already. -/
theorem archiveAndRetain_gone (hu : UniqueIds rows) (gone : Row → Bool)
    (h : ∀ row ∈ rows, gone row = true → OverCap rows row.observationId) :
    archiveAndRetainObservations (rows.filter fun row => !gone row) = archiveAndRetainObservations rows := by
  have hn : rows.Nodup := List.Nodup.of_map _ hu
  have hevicted : ∀ row ∈ rows, gone row = true → row ∈ evictedObservations rows := by
    intro row hrow hgone
    obtain ⟨row', hrow', hid⟩ := List.mem_map.1 (overCap_iff.1 (h row hrow hgone))
    rwa [List.inj_on_of_nodup_map hu hrow (mem_droppedFirst hrow').1 hid.symm]
  have hcompleted : ∀ row ∈ rows, gone row = true → row.completed = true :=
    fun row hrow hgone => (mem_droppedFirst (hevicted row hrow hgone)).2.1
  have hoverflow : completedOverflow (rows.filter fun row => !gone row) =
      completedOverflow rows - (rows.filter gone).length := by
    have hall := List.length_eq_length_filter_add (l := rows) gone
    have hkept := List.length_eq_length_filter_add (l := rows.filter fun row => !gone row) Row.completed
    have hbefore := List.length_eq_length_filter_add (l := rows) Row.completed
    have hactive : ((rows.filter fun row => !gone row).filter fun row => !row.completed) =
        rows.filter fun row => !row.completed := by
      rw [List.filter_filter]
      refine List.filter_congr fun row hrow => ?_
      cases hg : gone row with
      | false => simp
      | true => simp [hcompleted row hrow hg]
    unfold completedOverflow
    rw [hactive] at hkept ⊢
    omega
  unfold archiveAndRetainObservations
  rw [hoverflow]
  exact dropFirst_filter gone hn hevicted

/-- A completed row that is over the cap once others have completed was so before. -/
theorem OverCap.of_map (hu : UniqueIds rows) {g : Row → Row}
    (hid : ∀ row ∈ rows, (g row).observationId = row.observationId)
    (hg : ∀ row ∈ rows, row.completed = true → g row = row) {id : ObservationId} (h : OverCap (rows.map g) id)
    {row : Row} (hrow : row ∈ rows) (hrid : row.observationId = id) (hc : row.completed = true) : OverCap rows id := by
  obtain ⟨before', row', after', heq, hid', hc', ha', hlt⟩ := h
  obtain ⟨before, rest, rfl, rfl, hrest⟩ := List.map_eq_append_iff.1 heq
  obtain ⟨row'', after, rfl, rfl, rfl⟩ := List.map_eq_cons_iff.1 hrest
  have hmem : row'' ∈ before ++ row'' :: after := by simp
  obtain rfl : row = row'' :=
    List.inj_on_of_nodup_map hu hrow hmem (by rw [hrid, ← hid', hid _ hmem])
  rw [hg row hmem hc] at ha'
  refine ⟨before, row, after, rfl, hrid, hc, ha', ?_⟩
  have hcount : before.countP Row.completed ≤ (before.map g).countP Row.completed := by
    rw [List.countP_map]
    refine List.countP_mono_left fun x hx hxc => ?_
    have hxmem : x ∈ before ++ row :: after := List.mem_append_left _ hx
    show (g x).completed = true
    rw [hg x hxmem hxc]
    exact hxc
  rw [List.length_map] at hlt
  omega

/-- Rows with the same ids, of which the same are completed and archived. -/
theorem OverCap.congr {rows' : List Row}
    (hflags : rows.map (fun row => (row.observationId, row.completed, row.archived)) =
      rows'.map fun row => (row.observationId, row.completed, row.archived))
    {id : ObservationId} (h : OverCap rows id) : OverCap rows' id := by
  obtain ⟨before, row, after, rfl, hid, hc, ha, hlt⟩ := h
  rw [List.map_append, List.map_cons] at hflags
  obtain ⟨before', rest', rfl, hbefore, hrest⟩ := List.map_eq_append_iff.1 hflags.symm
  obtain ⟨row', after', rfl, hrow, hafter⟩ := List.map_eq_cons_iff.1 hrest
  simp only [Prod.mk.injEq] at hrow
  refine ⟨before', row', after', rfl, ?_, ?_, ?_, ?_⟩
  · exact hrow.1.trans hid
  · exact hrow.2.1.trans hc
  · exact hrow.2.2.trans ha
  · have hcount : before'.countP Row.completed = before.countP Row.completed := by
      have := congrArg (List.countP fun flags : ObservationId × Bool × Bool => flags.2.1) hbefore
      rwa [List.countP_map, List.countP_map] at this
    have hlb := congrArg List.length hbefore
    have hla := congrArg List.length hafter
    simp only [List.length_map, List.length_append, List.length_cons] at hlb hla hlt ⊢
    omega

end Retention

/-! ## The expiry -/

/-- The waiting rows beyond the limit, the oldest. -/
def backlog (rows : List Row) : List Row :=
  (rows.filter Row.expirable).take ((rows.filter Row.expirable).length - maxActiveObservations)

section Expiry

variable {rows : List Row} (now : Int)

theorem mem_backlog {row : Row} (h : row ∈ backlog rows) : row ∈ rows ∧ row.expirable = true :=
  List.mem_filter.1 (List.mem_of_mem_take h)

theorem backlog_eq_nil : backlog rows = [] ↔ (rows.filter Row.expirable).length ≤ maxActiveObservations := by
  have hpos : 0 < maxActiveObservations := by
    unfold maxActiveObservations
    decide
  unfold backlog
  rw [List.take_eq_nil_iff, ← List.length_eq_zero_iff]
  omega

theorem expire_eq_map (hu : UniqueIds rows) : expireObservationBacklog now rows =
    rows.map fun row => if row.observationId ∈ (backlog rows).map Row.observationId then row.expire now else row :=
  mapFirst_eq_map Row.observationId hu

theorem expire_of_le (h : (rows.filter Row.expirable).length ≤ maxActiveObservations) :
    expireObservationBacklog now rows = rows := by
  unfold expireObservationBacklog
  rw [Nat.sub_eq_zero_of_le h]
  simp [mapFirst]

/-- Afterwards no more rows wait than the limit. -/
theorem expire_waiting : ((expireObservationBacklog now rows).filter Row.expirable).length ≤ maxActiveObservations := by
  have hcount := countP_mapFirst (p := Row.expirable) (f := fun row => row.expire now) (fun _ => rfl)
    ((rows.filter Row.expirable).length - maxActiveObservations) rows
  rw [List.countP_eq_length_filter, List.countP_eq_length_filter] at hcount
  unfold expireObservationBacklog
  omega

theorem UniqueIds.expire (hu : UniqueIds rows) : UniqueIds (expireObservationBacklog now rows) := by
  unfold UniqueIds
  rw [map_expire Row.observationId now fun _ => rfl]
  exact hu

end Expiry

end Aibot.Observation
