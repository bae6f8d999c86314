/-
The research archive: `drain_research_archive` copies terminal rows to immutable records outside the
ledger lock and marks them afterwards; retention drops marked rows. The invariant says that the
copies agree with the rows, which holds as long as nothing is written to a copied observation.
-/
import Aibot.Observation.Effect
import Aibot.Lib.Run

namespace Aibot.Observation

open Aibot.Risk

/-! ## Records -/

/-- A record file of the archive. -/
structure ArchiveRecord where
  observation : Row
  archivedAt : Int

/-- How the archiving of one row ends: its record is not written, it is written but the call fails
after that, or the row gets its marker. -/
inductive ArchiveOutcome
  | failed
  | recorded
  | marked
  deriving DecidableEq, Repr

/-- The records, under the observation id of each. -/
abbrev Records := ObservationId → Option ArchiveRecord

/-- `archive_terminal_rows` on one row: the snapshot with its marker, and the records. An existing
record is never written again. -/
def archiveTerminalRow (outcome : ArchiveOutcome) (now : Int) (row : Row) (records : Records) :
    Row × Records :=
  let identity := strip row.observationId
  if row.terminal ∧ ¬ identity.isEmpty then
    match records identity, outcome with
    | _, .failed => (row, records)
    | some record, _ => ({ row with archivedAt := some record.archivedAt }, records)
    | none, .recorded => (row, Function.update records identity (some ⟨row, now⟩))
    | none, .marked =>
      ({ row with archivedAt := some now }, Function.update records identity (some ⟨row, now⟩))
  else (row, records)

/-- `_unarchived_terminal_snapshots`. -/
def unarchivedTerminalSnapshots (rows : List Row) : List Row :=
  (rows.filter fun row => row.terminal && !row.archived).take archiveDrainBatchSize

/-! ## The system -/

/-- A running `drain_research_archive`: the snapshots it has been through, and the others. -/
structure Drain where
  done : List Row
  todo : List Row

def Drain.snapshots (d : Drain) : List Row := d.done ++ d.todo

/-- The ledger, the archive and the drains. `evicted` is history: the rows that retention dropped,
each with the record its id had then. -/
structure Research where
  rows : List Row
  records : Records
  drains : Nat → Option Drain
  evicted : List (Row × Option ArchiveRecord)

def Research.start : Research := ⟨[], fun _ => none, fun _ => none, []⟩

inductive ResearchAct
  | writes (op : ObservationOp)
  /-- A drain reads the ledger. -/
  | snapshot (drain : Nat)
  /-- A drain archives its next snapshot. -/
  | archives (drain : Nat) (outcome : ArchiveOutcome) (now : Int)
  /-- A drain that is through persists its markers. -/
  | persists (drain : Nat)
  /-- A drain raises, or its process dies. -/
  | abandon (drain : Nat)

/-- The system after a write of the ledger. -/
def Research.save (s : Research) (w : Write) : Research :=
  { s with
    rows := w.rows
    evicted := s.evicted ++ w.evicted.map fun row => (row, s.records (strip row.observationId)) }

/-- The system with a drain set. -/
def Research.setDrain (s : Research) (d : Nat) (drain : Option Drain) : Research :=
  { s with drains := Function.update s.drains d drain }

def Research.step (s : Research) : ResearchAct → Option Research
  | .writes op => some (s.save (op.write s.rows))
  | .snapshot d =>
    match s.drains d with
    | none => some (s.setDrain d (some ⟨[], unarchivedTerminalSnapshots s.rows⟩))
    | some _ => none
  | .archives d outcome now =>
    match s.drains d with
    | some ⟨done, row :: todo⟩ =>
      let x := archiveTerminalRow outcome now row s.records
      some { s.setDrain d (some ⟨done ++ [x.1], todo⟩) with records := x.2 }
    | _ => none
  | .persists d =>
    match s.drains d with
    | some ⟨done, []⟩ => some ((s.setDrain d none).save (persistArchiveMarkers done s.rows))
    | _ => none
  | .abandon d => some (s.setDrain d none)

/-- Every dropped row has a record that says what the row said. -/
def ArchiveComplete (s : Research) : Prop :=
  ∀ x ∈ s.evicted, ∃ record, x.2 = some record ∧
    record.observation.observationId = x.1.observationId ∧ record.observation.content = x.1.content

/-! ## What a drain has copied -/

/-- A record or the snapshot of a running drain says this of the observation. -/
inductive Captures (s : Research) (id : ObservationId) : Status × DecisionStatus × List Sample → Prop
  | record {record : ArchiveRecord} : s.records id = some record →
      Captures s id record.observation.content
  | snapshot {d : Nat} {drain : Drain} {row : Row} : s.drains d = some drain → row ∈ drain.snapshots →
      row.observationId = id → Captures s id row.content

/-- A record or a running drain has a copy of the observation. -/
def Captured (s : Research) (id : ObservationId) : Prop := ∃ content, Captures s id content

/-- A new observation has an id without surrounding blanks, of which there is no copy. -/
def Research.mayCreate (s : Research) (id : ObservationId) : Prop :=
  findRow s.rows id = none → strip id = id ∧ ¬ Captured s id

/-- The step writes nothing new to an observation that has been copied. -/
def sparesCaptured (s : Research) : ResearchAct → Prop
  | .writes (.discovery r _) => s.mayCreate r.observationId
  | .writes (.decision r _) => r.valid → s.mayCreate r.observationId ∧
      ∀ row, findRow s.rows r.observationId = some row → row.quoteStatus ≠ "EXECUTABLE" →
        ¬ Captured s r.observationId
  | .writes (.finalize r _) => r.valid → ∀ row, findRow s.rows r.observationId = some row →
      Captured s r.observationId → row.status = .complete ∧ row.decisionStatus = r.decisionStatus
  | _ => True

/-! ## The invariant -/

structure ArchiveInv (s : Research) : Prop where
  unique : UniqueIds s.rows
  stripped : ∀ row ∈ s.rows, strip row.observationId = row.observationId
  /-- A record is filed under the id of its row. -/
  filed : ∀ id record, s.records id = some record → record.observation.observationId = id
  snapshotStripped : ∀ d drain, s.drains d = some drain → ∀ row ∈ drain.snapshots,
    strip row.observationId = row.observationId
  agree : ∀ id c c', Captures s id c → Captures s id c' → c = c'
  /-- A row that has been copied is terminal, and as it was. -/
  held : ∀ row ∈ s.rows, ∀ c, Captures s row.observationId c → row.terminal = true ∧ row.content = c
  marked : ∀ row ∈ s.rows, row.archived = true → (s.records row.observationId).isSome = true
  markedSnapshot : ∀ d drain, s.drains d = some drain → ∀ row ∈ drain.snapshots, row.archived = true →
    (s.records row.observationId).isSome = true
  complete : ArchiveComplete s

section Step

variable {s : Research}

/-- A write of rows that agree with the copies. -/
theorem save_inv (hs : ArchiveInv s) {w : Write} (hu : UniqueIds w.touched)
    (hstrip : ∀ row ∈ w.touched, strip row.observationId = row.observationId)
    (hheld : ∀ row ∈ w.touched, ∀ c, Captures s row.observationId c →
      row.terminal = true ∧ row.content = c)
    (hmarked : ∀ row ∈ w.touched, row.archived = true →
      (s.records row.observationId).isSome = true) : ArchiveInv (s.save w) := by
  have hcap : ∀ {id c}, Captures (s.save w) id c → Captures s id c := by
    intro id c h
    cases h with
    | record h => exact .record h
    | snapshot h hrow hid => exact .snapshot h hrow hid
  have hsub := w.rows_sublist
  refine
    { unique := hu.sublist (hsub.map _)
      stripped := fun row hrow => hstrip row (hsub.subset hrow)
      filed := hs.filed
      snapshotStripped := hs.snapshotStripped
      agree := fun id c c' h h' => hs.agree id c c' (hcap h) (hcap h')
      held := fun row hrow c h => hheld row (hsub.subset hrow) c (hcap h)
      marked := fun row hrow => hmarked row (hsub.subset hrow)
      markedSnapshot := hs.markedSnapshot
      complete := fun x hx => ?_ }
  rcases List.mem_append.1 hx with hx | hx
  · exact hs.complete x hx
  · obtain ⟨row, hrow, rfl⟩ := List.mem_map.1 hx
    obtain ⟨hmem, -, harch⟩ := Write.evicted_completed hrow
    obtain ⟨record, hrecord⟩ := Option.isSome_iff_exists.1 (hmarked row hmem harch)
    refine ⟨record, by rw [hstrip row hmem]; exact hrecord, hs.filed _ _ hrecord, ?_⟩
    exact (hheld row hmem _ (.record hrecord)).2.symm

/-- An edit that spares copied rows leaves a copied row's content. -/
theorem edit_content {op : ObservationOp} (hok : sparesCaptured s (.writes op)) {row row' : Row}
    (hu : UniqueIds s.rows) (hrow : row ∈ s.rows) (hedit : Edit s.rows op row row')
    (hcap : Captured s row.observationId) (ht : row.terminal = true) : row'.content = row.content := by
  cases hedit with
  | same => rfl
  | @decided r now _ hid hq hvalid =>
    have hfind : findRow s.rows r.observationId = some row := by
      rw [← hid]; exact findRow_mem hu hrow
    exact absurd (hid ▸ hcap) ((hok hvalid).2 row hfind hq)
  | @finalized r now _ hid hvalid =>
    obtain ⟨hstatus, hdecision⟩ := hok hvalid row (by rw [← hid]; exact findRow_mem hu hrow) (hid ▸ hcap)
    unfold Row.content FinalizeRequest.row
    rw [hstatus, hdecision]
  | marked => rfl
  | attempted => rfl
  | sampled h => rw [h.of_terminal ht]
  | reconciled h =>
    unfold Row.interrupted at h
    simp only [Bool.and_eq_true, decide_eq_true_eq] at h
    unfold Row.terminal at ht
    rw [h.1.1.1.1.1.1.1.1.1.1.1.1] at ht
    cases ht

/-- A write that spares copied rows agrees with the copies. -/
theorem writes_inv (hs : ArchiveInv s) {op : ObservationOp} (hok : sparesCaptured s (.writes op)) :
    ArchiveInv (s.save (op.write s.rows)) := by
  have heff := write_effect hs.unique op
  -- a row that is added is not copied, and has no blanks around its id
  have hfresh : ∀ row, Fresh s.rows op row → s.mayCreate row.observationId := by
    intro row hrow
    cases hrow with
    | discovered => exact hok
    | decided _ hvalid => exact (hok hvalid).1
  refine save_inv hs (heff.unique hs.unique) (fun row'' hrow'' => ?_) (fun row'' hrow'' c hcap => ?_)
    (fun row'' hrow'' harch => ?_)
  · rcases heff.backward hrow'' with ⟨row, hrow, row', hedit, haged⟩ | ⟨row', hnew, haged⟩
    · rw [haged.keeps.1, hedit.observationId]; exact hs.stripped row hrow
    · rw [haged.keeps.1]; exact (hfresh row' hnew hnew.notFound.1).1
  · rcases heff.backward hrow'' with ⟨row, hrow, row', hedit, haged⟩ | ⟨row', hnew, haged⟩
    · rw [haged.keeps.1, hedit.observationId] at hcap
      obtain ⟨ht, hc⟩ := hs.held row hrow c hcap
      have hcontent := edit_content hok hs.unique hrow hedit ⟨c, hcap⟩ ht
      have ht' : row'.terminal = true := by
        have hstatus : row'.status = row.status := congrArg Prod.fst hcontent
        unfold Row.terminal at ht ⊢
        rw [hstatus]; exact ht
      rw [haged.of_terminal ht']
      exact ⟨ht', hcontent.trans hc⟩
    · rw [haged.keeps.1] at hcap
      exact absurd ⟨c, hcap⟩ (hfresh row' hnew hnew.notFound.1).2
  · rcases heff.backward hrow'' with ⟨row, hrow, row', hedit, haged⟩ | ⟨row', hnew, haged⟩
    · rw [haged.keeps.1, hedit.observationId]
      refine hs.marked row hrow ?_
      unfold Row.archived at harch ⊢
      rw [haged.keeps.2.1, hedit.archivedAt] at harch
      exact harch
    · unfold Row.archived at harch
      rw [haged.keeps.2.1, hnew.notFound.2] at harch
      cases harch

/-! ## The drains -/

/-- The drains after one was set: it, and the others as they were. -/
theorem drains_of_setDrain {d d' : Nat} {new : Option Drain} {drain : Drain}
    (h : (s.setDrain d new).drains d' = some drain) : new = some drain ∨ s.drains d' = some drain :=
  (update_eq_some h).imp And.right And.right

/-- A step that makes no new copy, and leaves the ledger. -/
theorem noCopy_inv {s' : Research} (hs : ArchiveInv s) (hrows : s'.rows = s.rows)
    (hevicted : s'.evicted = s.evicted) (hcap : ∀ {id c}, Captures s' id c → Captures s id c)
    (hrecords : ∀ id, (s.records id).isSome = true → (s'.records id).isSome = true)
    (hfiled : ∀ id record, s'.records id = some record → record.observation.observationId = id)
    (hsnapshots : ∀ d drain, s'.drains d = some drain → ∀ row ∈ drain.snapshots,
      strip row.observationId = row.observationId ∧
        (row.archived = true → (s'.records row.observationId).isSome = true)) : ArchiveInv s' :=
  { unique := by rw [hrows]; exact hs.unique
    stripped := by rw [hrows]; exact hs.stripped
    filed := hfiled
    snapshotStripped := fun d drain h row hrow => (hsnapshots d drain h row hrow).1
    agree := fun id c c' h h' => hs.agree id c c' (hcap h) (hcap h')
    held := by rw [hrows]; exact fun row hrow c h => hs.held row hrow c (hcap h)
    marked := by rw [hrows]; exact fun row hrow harch => hrecords _ (hs.marked row hrow harch)
    markedSnapshot := fun d drain h row hrow => (hsnapshots d drain h row hrow).2
    complete := by unfold ArchiveComplete; rw [hevicted]; exact hs.complete }

/-- A drain that is gone has no copies. -/
theorem setDrain_none (hs : ArchiveInv s) (d : Nat) : ArchiveInv (s.setDrain d none) := by
  have hdrain : ∀ {d' drain}, (s.setDrain d none).drains d' = some drain → s.drains d' = some drain := by
    intro d' drain h
    exact (drains_of_setDrain h).resolve_left nofun
  refine noCopy_inv hs rfl rfl (fun h => ?_) (fun _ h => h) hs.filed fun d' drain h row hrow =>
    ⟨hs.snapshotStripped d' drain (hdrain h) row hrow, hs.markedSnapshot d' drain (hdrain h) row hrow⟩
  cases h with
  | record h => exact .record h
  | snapshot h hrow hid => exact .snapshot (hdrain h) hrow hid

/-- What the archiving of a row does: at most one new record, and a marker only beside a record. -/
theorem archiveTerminalRow_spec (outcome : ArchiveOutcome) (now : Int) (row : Row) (records : Records) :
    (archiveTerminalRow outcome now row records).1.observationId = row.observationId ∧
    (archiveTerminalRow outcome now row records).1.content = row.content ∧
    ((archiveTerminalRow outcome now row records).2 = records ∨
      records (strip row.observationId) = none ∧ (archiveTerminalRow outcome now row records).2 =
        Function.update records (strip row.observationId) (some ⟨row, now⟩)) ∧
    ((archiveTerminalRow outcome now row records).1.archived = true → row.archived = true ∨
      ((archiveTerminalRow outcome now row records).2 (strip row.observationId)).isSome = true) := by
  unfold archiveTerminalRow
  dsimp only
  split_ifs with hterminal
  · cases hr : records (strip row.observationId) with
    | some record =>
      cases outcome with
      | failed => exact ⟨rfl, rfl, .inl rfl, .inl⟩
      | recorded | marked =>
        have hsome : (records (strip row.observationId)).isSome = true := by rw [hr]; rfl
        exact ⟨rfl, rfl, .inl rfl, fun _ => .inr hsome⟩
    | none =>
      cases outcome with
      | failed => exact ⟨rfl, rfl, .inl rfl, .inl⟩
      | recorded => exact ⟨rfl, rfl, .inr ⟨rfl, rfl⟩, .inl⟩
      | marked => exact ⟨rfl, rfl, .inr ⟨rfl, rfl⟩, fun _ => .inr (by simp)⟩
  · exact ⟨rfl, rfl, .inl rfl, .inl⟩

/-- The archiving of a snapshot makes no copy that says anything new. -/
theorem archives_inv (hs : ArchiveInv s) {d : Nat} {done todo : List Row} {row : Row}
    (hd : s.drains d = some ⟨done, row :: todo⟩) (outcome : ArchiveOutcome) (now : Int) :
    ArchiveInv { s.setDrain d (some ⟨done ++ [(archiveTerminalRow outcome now row s.records).1], todo⟩) with
      records := (archiveTerminalRow outcome now row s.records).2 } := by
  obtain ⟨hid, hcontent, hrecords, harchived⟩ := archiveTerminalRow_spec outcome now row s.records
  generalize archiveTerminalRow outcome now row s.records = x at hid hcontent hrecords harchived ⊢
  have hrow : row ∈ (⟨done, row :: todo⟩ : Drain).snapshots := by simp [Drain.snapshots]
  have hstrip : strip row.observationId = row.observationId := hs.snapshotStripped d _ hd row hrow
  rw [hstrip] at hrecords harchived
  have hmono : ∀ id, (s.records id).isSome = true → (x.2 id).isSome = true := by
    intro id h
    rcases hrecords with hr | ⟨-, hr⟩
    · rw [hr]; exact h
    · rw [hr, Function.update_apply]
      split_ifs
      · rfl
      · exact h
  -- a snapshot of the new state is one of the old state, up to its marker
  have hsnap : ∀ d' drain, (s.setDrain d (some ⟨done ++ [x.1], todo⟩)).drains d' = some drain →
      ∀ y ∈ drain.snapshots, y = x.1 ∨
        ∃ d'' drain', s.drains d'' = some drain' ∧ y ∈ drain'.snapshots := by
    intro d' drain h y hy
    rcases drains_of_setDrain h with he | h
    · obtain rfl := Option.some.inj he
      simp only [Drain.snapshots, List.append_assoc, List.mem_append, List.mem_singleton] at hy
      rcases hy with hy | rfl | hy
      · exact .inr ⟨d, _, hd, by simp [Drain.snapshots, hy]⟩
      · exact .inl rfl
      · exact .inr ⟨d, _, hd, by simp [Drain.snapshots, hy]⟩
    · exact .inr ⟨d', drain, h, hy⟩
  -- a record of the new state is one of the old state, or the row's
  have hrec : ∀ id record, x.2 id = some record →
      s.records id = some record ∨ id = row.observationId ∧ record.observation = row := by
    intro id record h
    rcases hrecords with hr | ⟨-, hr⟩
    · exact .inl (hr ▸ h)
    · rw [hr] at h
      rcases update_eq_some h with ⟨he, hrow'⟩ | ⟨-, h⟩
      · obtain rfl := Option.some.inj hrow'
        exact .inr ⟨he, rfl⟩
      · exact .inl h
  refine noCopy_inv hs rfl rfl (fun {id c} h => ?_) hmono (fun id record h => ?_) fun d' drain h y hy => ?_
  · cases h with
    | @record record h =>
      rcases hrec id record h with h | ⟨rfl, he⟩
      · exact .record h
      · rw [he]
        exact .snapshot hd hrow rfl
    | snapshot h hy hyid =>
      rcases hsnap _ _ h _ hy with rfl | ⟨d'', drain', h', hy'⟩
      · rw [hcontent]
        exact .snapshot hd hrow (hid.symm.trans hyid)
      · exact .snapshot h' hy' hyid
  · rcases hrec id record h with h | ⟨rfl, he⟩
    · exact hs.filed id record h
    · rw [he]
  · rcases hsnap _ _ h _ hy with rfl | ⟨d'', drain', h', hy'⟩
    · rw [hid]
      refine ⟨hstrip, fun harch => ?_⟩
      rcases harchived harch with harch | hsome
      · exact hmono _ (hs.markedSnapshot d _ hd row hrow harch)
      · exact hsome
    · exact ⟨hs.snapshotStripped d'' drain' h' y hy',
        fun harch => hmono _ (hs.markedSnapshot d'' drain' h' y hy' harch)⟩

/-- The markers go to rows that have a record. -/
theorem persists_inv (hs : ArchiveInv s) {d : Nat} {done : List Row}
    (hd : s.drains d = some ⟨done, []⟩) :
    ArchiveInv ((s.setDrain d none).save (persistArchiveMarkers done s.rows)) := by
  have hs' := setDrain_none hs d
  unfold persistArchiveMarkers
  dsimp only
  split_ifs with hnone
  · exact save_inv hs' hs.unique hs.stripped (fun row hrow c h => hs'.held row hrow c h) hs.marked
  · rw [show s.rows = (s.setDrain d none).rows from rfl]
    set markers := Dict.ofList (done.filterMap fun row => row.archivedAt.map (row.observationId, ·))
    have hkeeps := withMarker_keeps markers
    refine save_inv hs' ?_ (fun row hrow => ?_) (fun row hrow c hcap => ?_) fun row hrow harch => ?_
    · show ((s.rows.map (Row.withMarker markers)).map Row.observationId).Nodup
      rw [map_withMarker]; exact hs.unique
    all_goals obtain ⟨old, hold, rfl⟩ := List.mem_map.1 hrow
    · rw [(hkeeps old).1]; exact hs.stripped old hold
    · rw [(hkeeps old).1] at hcap
      obtain ⟨ht, hc⟩ := hs'.held old hold c hcap
      have hcontent := (hkeeps old).2
      refine ⟨?_, hcontent.trans hc⟩
      have hstatus : (old.withMarker markers).status = old.status := congrArg Prod.fst hcontent
      unfold Row.terminal at ht ⊢
      rw [hstatus]; exact ht
    · rw [(hkeeps old).1]
      unfold Row.withMarker at harch
      cases hm : markers.get? old.observationId with
      | none =>
        rw [hm] at harch
        exact hs.marked old hold harch
      | some archivedAt =>
        obtain ⟨row, hrow, hmark⟩ := List.mem_filterMap.1 (Dict.mem_of_get?_ofList hm)
        obtain ⟨_, hat, he⟩ := Option.map_eq_some_iff.1 hmark
        obtain ⟨hid, -⟩ := Prod.mk.inj he
        have hsnap : row ∈ (⟨done, []⟩ : Drain).snapshots := by simpa [Drain.snapshots] using hrow
        rw [← hid]
        exact hs.markedSnapshot d _ hd row hsnap (by unfold Row.archived; rw [hat]; rfl)

/-- The snapshots are rows of the ledger, terminal and without marker. -/
theorem mem_snapshots {rows : List Row} {row : Row} (h : row ∈ unarchivedTerminalSnapshots rows) :
    row ∈ rows ∧ row.terminal = true ∧ row.archived = false := by
  have h := List.mem_filter.1 (List.mem_of_mem_take h)
  exact ⟨h.1, by simpa using h.2⟩

/-- A new drain copies what the rows say. -/
theorem snapshot_inv (hs : ArchiveInv s) {d : Nat} :
    ArchiveInv (s.setDrain d (some ⟨[], unarchivedTerminalSnapshots s.rows⟩)) := by
  have hdrain : ∀ {d' drain}, (s.setDrain d (some ⟨[], unarchivedTerminalSnapshots s.rows⟩)).drains d' =
      some drain → drain = ⟨[], unarchivedTerminalSnapshots s.rows⟩ ∨ s.drains d' = some drain := by
    intro d' drain h
    exact (drains_of_setDrain h).imp_left fun he => (Option.some.inj he).symm
  -- a copy is an old one, or says what the row of the ledger says
  have hcap : ∀ {id c}, Captures (s.setDrain d (some ⟨[], unarchivedTerminalSnapshots s.rows⟩)) id c →
      Captures s id c ∨ ∃ row ∈ s.rows, row.observationId = id ∧ row.terminal = true ∧ row.content = c := by
    intro id c h
    cases h with
    | record h => exact .inl (.record h)
    | snapshot h hrow hid =>
      rcases hdrain h with rfl | h
      · obtain ⟨hmem, ht, -⟩ := mem_snapshots (by simpa [Drain.snapshots] using hrow)
        exact .inr ⟨_, hmem, hid, ht, rfl⟩
      · exact .inl (.snapshot h hrow hid)
  have hrow : ∀ row ∈ s.rows, ∀ c,
      Captures (s.setDrain d (some ⟨[], unarchivedTerminalSnapshots s.rows⟩)) row.observationId c →
      row.terminal = true ∧ row.content = c := by
    intro row hrow c h
    rcases hcap h with h | ⟨row', hrow', hid, ht, hc⟩
    · exact hs.held row hrow c h
    · obtain rfl := List.inj_on_of_nodup_map hs.unique hrow' hrow hid
      exact ⟨ht, hc⟩
  refine
    { unique := hs.unique
      stripped := hs.stripped
      filed := hs.filed
      snapshotStripped := fun d' drain h row hmem => ?_
      agree := fun id c c' h h' => ?_
      held := hrow
      marked := hs.marked
      markedSnapshot := fun d' drain h row hmem harch => ?_
      complete := hs.complete }
  · rcases hdrain h with rfl | h
    · exact hs.stripped row (mem_snapshots (by simpa [Drain.snapshots] using hmem)).1
    · exact hs.snapshotStripped d' drain h row hmem
  · rcases hcap h with h₁ | ⟨row, hmem, rfl, -, hc⟩
    · rcases hcap h' with h₂ | ⟨row', hmem', rfl, -, hc'⟩
      · exact hs.agree id c c' h₁ h₂
      · exact ((hrow row' hmem' c h).2.symm.trans hc')
    · exact (hc.symm.trans (hrow row hmem c' h').2)
  · rcases hdrain h with rfl | h
    · have hnew := (mem_snapshots (by simpa [Drain.snapshots] using hmem)).2.2
      rw [harch] at hnew; cases hnew
    · exact hs.markedSnapshot d' drain h row hmem harch

theorem archiveInv_step {s' : Research} {a : ResearchAct} (hs : ArchiveInv s) (hok : sparesCaptured s a)
    (h : s.step a = some s') : ArchiveInv s' := by
  cases a with
  | writes op =>
    obtain rfl := Option.some.inj h
    exact writes_inv hs hok
  | snapshot d =>
    simp only [Research.step] at h
    split at h
    · obtain rfl := Option.some.inj h
      exact snapshot_inv hs
    · cases h
  | archives d outcome now =>
    simp only [Research.step] at h
    split at h
    · rename_i done row todo hd
      obtain rfl := Option.some.inj h
      exact archives_inv hs hd outcome now
    · cases h
  | persists d =>
    simp only [Research.step] at h
    split at h
    · rename_i done hd
      obtain rfl := Option.some.inj h
      exact persists_inv hs hd
    · cases h
  | abandon d =>
    obtain rfl := Option.some.inj h
    exact setDrain_none hs d

end Step

theorem archiveInv_start : ArchiveInv Research.start := by
  refine ⟨List.nodup_nil, ?_, ?_, ?_, ?_, ?_, ?_, ?_, ?_⟩
  · intro row hrow; cases hrow
  · intro id record h; cases h
  · intro d drain h; cases h
  · intro id c c' h
    cases h with
    | record h => cases h
    | snapshot h => cases h
  · intro row hrow; cases hrow
  · intro row hrow; cases hrow
  · intro d drain h; cases h
  · intro x hx; cases hx

end Aibot.Observation
