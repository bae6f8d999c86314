/-
What an event of the ledger leaves in the records: the entry of a BUY, the record of a sale and the closure at
a cap. Records that are added later, with higher numbers, leave it as it is.
-/
import Aibot.Lib.Floating
import Aibot.N3.Reading

namespace Aibot.N3

open Store (JsonDocument)

/-! ## The memory of the loop -/

section Holds

variable {m : Machine} {mem : Memory} {d d' : Sidecar} {entry : Entry} {name : String} {s : ℤ}

/-- The variables of the loop are what the files say. -/
structure Holds (m : Machine) (mem : Memory) (d : Sidecar) : Prop where
  entries : ∀ position entry, mem.entries.get? position = some entry ↔
    d.entries.get? (m.fileName position) = some entry ∧ entry.positionId = position
  closure : mem.closure = d.closure

theorem Holds.values_perm (h : Holds m mem d) (hnamed : Named m Entry.positionId d.entries) :
    mem.entries.values.Perm d.entries.values := by
  have hkey : ∀ p ∈ mem.entries.entries, p.2.positionId = p.1 := fun p hp =>
    ((h.entries p.1 p.2).1 (Dict.get?_eq_some.2 hp)).2
  have hnodup : mem.entries.values.Nodup := by
    refine List.Nodup.of_map Entry.positionId ?_
    have hkeys : mem.entries.values.map Entry.positionId = mem.entries.entries.map Prod.fst := by
      unfold Dict.values
      rw [List.map_map]
      exact List.map_congr_left hkey
    rw [hkeys]
    exact mem.entries.nodup
  rw [List.perm_ext_iff_of_nodup hnodup hnamed.nodup_values]
  intro entry
  rw [Dict.mem_values, Directory.mem_values]
  constructor
  · rintro ⟨position, hposition⟩
    exact ⟨_, ((h.entries position entry).1 hposition).1⟩
  · rintro ⟨k, hk⟩
    refine ⟨entry.positionId, (h.entries _ _).2 ⟨?_, rfl⟩⟩
    rw [hnamed k entry hk]
    exact hk

theorem Holds.length_eq (h : Holds m mem d) (hnamed : Named m Entry.positionId d.entries) :
    mem.entries.entries.length = d.entries.files.length := by
  have hlength := (h.values_perm hnamed).length_eq
  unfold Dict.values Directory.values at hlength
  rwa [List.length_map, List.length_map] at hlength

/-- The index of the files that a call reads first. -/
theorem holds_index (hnamed : Named m Entry.positionId d.entries) (cursor : ℤ) :
    Holds m ⟨Dict.ofList (d.entries.values.map fun entry => (entry.positionId, entry)), d.closure, cursor⟩ d := by
  refine ⟨fun position entry => ?_, rfl⟩
  have hnodup : (d.entries.values.map Entry.positionId).Nodup := by
    refine hnamed.nodup_values.map_on fun x hx y hy heq => ?_
    obtain ⟨k, hk⟩ := Directory.mem_values.1 hx
    obtain ⟨k', hk'⟩ := Directory.mem_values.1 hy
    exact hnamed.eq_of_identity hk hk' heq
  show (Dict.ofList (d.entries.values.map fun entry => (entry.positionId, entry))).get? position = some entry ↔ _
  rw [Dict.get?_index hnodup, Directory.mem_values]
  constructor
  · rintro ⟨⟨k, hk⟩, rfl⟩
    rw [← hnamed k entry hk] at hk
    exact ⟨hk, rfl⟩
  · rintro ⟨hget, rfl⟩
    exact ⟨⟨_, hget⟩, rfl⟩

/-- An entry set under its position, in the variables and in the files. -/
theorem Holds.set (h : Holds m mem d) (hname : m.fileName entry.positionId = name)
    (hfree : ∀ old, d.entries.get? name = some old → old = entry) (hclosure : d'.closure = d.closure)
    (hentries : d'.entries = d.entries.put name entry) (cursor : ℤ) :
    Holds m ⟨mem.entries.set entry.positionId entry, mem.closure, cursor⟩ d' := by
  refine ⟨fun position other => ?_, h.closure.trans hclosure.symm⟩
  show (mem.entries.set entry.positionId entry).get? position = some other ↔ _
  rw [Dict.get?_set, hentries, Directory.get?_put]
  by_cases hposition : position = entry.positionId
  · rw [if_pos hposition, if_pos (hposition ▸ hname)]
    constructor
    · intro heq
      obtain rfl := Option.some.inj heq
      exact ⟨rfl, hposition.symm⟩
    · exact And.left
  · rw [if_neg hposition]
    split_ifs with hsame
    · -- a position whose file name is that of the entry has no entry of its own
      constructor
      · intro heq
        obtain ⟨hget, hother⟩ := (h.entries position other).1 heq
        rw [hsame] at hget
        exact absurd (hother.symm.trans (congrArg Entry.positionId (hfree other hget))) hposition
      · rintro ⟨heq, hother⟩
        obtain rfl := Option.some.inj heq
        exact absurd hother.symm hposition
    · exact h.entries position other

end Holds

/-! ## Days and trades at a number -/

section Progress

variable {m : Machine} {mem : Memory} {v a d : Sidecar} {s : ℤ} {progress : ℕ × ℕ}

/-- An entry was sold at the number. -/
def Sidecar.soldAt (d : Sidecar) (s : ℤ) : Bool := (d.sellsTo s).any fun record => record.eventSeq = s

/-- The completed trades, looked at after a sale. -/
def tradesAt (m : Machine) (d : Sidecar) (s : ℤ) : Except String (List Trade) :=
  if d.soldAt s then completedTrades m d (some s) else .ok []

/-- The numbers that the caps bound: the active days and, at a sale, the completed trades. -/
def progressAt (m : Machine) (d : Sidecar) (s : ℤ) : Except String (ℕ × ℕ) := do
  let days ← (d.entriesTo s).mapM fun entry => m.kstDayOf entry.signalTimestamp
  let trades ← tradesAt m d s
  return (days.dedup.length, trades.length)

/-- A cap is reached. -/
def Capped (progress : ℕ × ℕ) : Prop := hardCapDays ≤ progress.1 ∨ hardCapCompleted ≤ progress.2

theorem soldAt_iff : d.soldAt s = true ↔ ∃ k record, d.sells.get? k = some record ∧ record.eventSeq = s := by
  unfold Sidecar.soldAt Sidecar.sellsTo
  rw [List.any_eq_true]
  constructor
  · rintro ⟨record, hrecord, hs⟩
    obtain ⟨k, hk⟩ := Directory.mem_values.1 (List.mem_filter.1 hrecord).1
    exact ⟨k, record, hk, of_decide_eq_true hs⟩
  · rintro ⟨k, record, hk, hs⟩
    exact ⟨record, List.mem_filter.2 ⟨Directory.mem_values.2 ⟨k, hk⟩, decide_eq_true hs.le⟩, decide_eq_true hs⟩

theorem AgreeTo.progressAt (h : AgreeTo s v a) (hv : Readable m v) (ha : Readable m a) :
    progressAt m v s = progressAt m a s := by
  unfold N3.progressAt tradesAt Sidecar.soldAt
  rw [h.entriesTo, h.sellsTo, h.completedTrades hv ha]

/-- The days of the variables are those of the files. -/
theorem Holds.activeDays_iff (h : Holds m mem d) (hnamed : Named m Entry.positionId d.entries) {n : ℕ} :
    (∃ days, activeDays m mem.entries s = .ok days ∧ days.length = n) ↔
      ∃ days, ((d.entriesTo s).mapM fun entry => m.kstDayOf entry.signalTimestamp) = .ok days ∧
        days.dedup.length = n := by
  have hperm : (mem.entries.values.filter fun entry => entry.buyEventSeq ≤ s).Perm (d.entriesTo s) :=
    (h.values_perm hnamed).filter _
  constructor
  · rintro ⟨days, hdays, rfl⟩
    obtain ⟨found, hfound, heq⟩ := bind_ok hdays
    obtain rfl := Except.ok.inj heq
    obtain ⟨found', hfound', hsame⟩ := mapM_perm hperm hfound
    exact ⟨found', hfound', hsame.symm.dedup.length_eq⟩
  · rintro ⟨found, hfound, rfl⟩
    obtain ⟨found', hfound', hsame⟩ := mapM_perm hperm.symm hfound
    refine ⟨found'.dedup, ?_, hsame.symm.dedup.length_eq⟩
    unfold activeDays
    rw [hfound']
    rfl

end Progress

/-! ## What an event leaves -/

section Explained

variable {m : Machine} {manifest : Manifest} {env env' : Env} {event : ControlEvent} {buy : Buy} {entry : Entry}
  {d a : Sidecar} {s : ℤ}

/-- A BUY has its entry: the snapshot was there, or the wait for it was over, and it passed its checks. -/
structure Admits (m : Machine) (manifest : Manifest) (env : Env) (event : ControlEvent) (buy : Buy)
    (entry : Entry) : Prop where
  snapshot : ∃ snapshot, env.snapshots (m.fileName buy.positionId) = .ok snapshot ∧
    if isEmpty snapshot then waits m env event = false ∧ entry.snapshot = missingSnapshot
    else checkCaptured manifest buy snapshot = .ok () ∧ entry.snapshot = snapshot
  times : checkTimes m event.at_ buy entry.snapshot = .ok ()
  record : entryRecord manifest event.eventSeq buy entry.snapshot = .ok entry

/-- The record of a sale. -/
def saleRecord (event : ControlEvent) (sell : Sell) : SellRecord := ⟨event.eventSeq, event.at_, sell⟩

/-- The records that a processed event leaves. -/
structure Explained (m : Machine) (manifest : Manifest) (env : Env) (d : Sidecar) (event : ControlEvent) : Prop where
  bought : ∀ buy, event.body = .buy buy → eligible m manifest event.eventSeq buy = true →
    ∃ entry, d.entries.get? (m.fileName buy.positionId) = some entry ∧ Admits m manifest env event buy entry
  entries : ∀ k entry, d.entries.get? k = some entry → entry.buyEventSeq = event.eventSeq →
    ∃ buy, event.body = .buy buy ∧ eligible m manifest event.eventSeq buy = true ∧ entry.positionId = buy.positionId
  sold : ∀ sell entry, event.body = .sell sell → d.entries.get? (m.fileName sell.positionId) = some entry →
    entry.positionId = sell.positionId → entry.buyEventSeq ≤ event.eventSeq →
    d.sells.get? (m.fileName (sellIdentity (saleRecord event sell))) = some (saleRecord event sell)
  sells : ∀ k record, d.sells.get? k = some record → record.eventSeq = event.eventSeq →
    event.body = .sell record.sell ∧ record = saleRecord event record.sell ∧
      ∃ entry, d.entries.get? (m.fileName record.sell.positionId) = some entry ∧
        entry.positionId = record.sell.positionId ∧ entry.buyEventSeq ≤ event.eventSeq
  closes : ∃ progress, progressAt m d event.eventSeq = .ok progress ∧
    (Capped progress → d.closure = some ⟨event.eventSeq, event.at_, progress.1⟩) ∧
    (¬ Capped progress → ∀ closure, d.closure = some closure → event.eventSeq < closure.endEventSeq)

theorem entryRecord_eq_ok {snapshot : JsonDocument} (h : entryRecord manifest s buy snapshot = .ok entry) :
    entry.positionId = buy.positionId ∧ entry.buyEventSeq = s ∧ entry.snapshot = snapshot ∧
      entry.entryCostLamports = buy.costLamports ∧ entry.entryTokenAmountRaw = buy.tokenAmountRaw := by
  unfold entryRecord at h
  by_cases hamounts : buy.costLamports ≤ 0 ∨ buy.tokenAmountRaw ≤ 0
  · rw [if_pos hamounts] at h
    cases h
  · rw [if_neg hamounts] at h
    obtain ⟨price, -, h⟩ := bind_ok h
    obtain rfl := Except.ok.inj h
    exact ⟨rfl, rfl, rfl, rfl, rfl⟩

theorem Admits.positionId (h : Admits m manifest env event buy entry) : entry.positionId = buy.positionId :=
  (entryRecord_eq_ok h.record).1

theorem Admits.buyEventSeq (h : Admits m manifest env event buy entry) : entry.buyEventSeq = event.eventSeq :=
  (entryRecord_eq_ok h.record).2.1

/-! ## Later -/

/-- A call after another: the recorder wrote no snapshot between them, and the clock went on. -/
structure Later (env env' : Env) : Prop where
  snapshots : env'.snapshots = env.snapshots
  now : ∀ event, (env.now event).val ≤ (env'.now event).val

theorem Later.refl (env : Env) : Later env env := ⟨rfl, fun _ => le_rfl⟩

theorem Later.trans {env'' : Env} (h : Later env env') (h' : Later env' env'') : Later env env'' :=
  ⟨h'.snapshots.trans h.snapshots, fun event => (h.now event).trans (h'.now event)⟩

/-- A wait that is over stays over. -/
theorem Later.waits (h : Later env env') (hwaits : waits m env event = false) : waits m env' event = false := by
  unfold N3.waits at hwaits ⊢
  cases hepoch : m.epoch event.at_ with
  | none => rw [hepoch] at hwaits; cases hwaits
  | some stamp =>
    rw [hepoch] at hwaits
    dsimp only at hwaits ⊢
    split_ifs at hwaits ⊢ with hzero
    rw [decide_eq_false_iff_not, not_lt] at hwaits ⊢
    exact hwaits.trans (rounded_mono (sub_le_sub_right (h.now event) _))

theorem Later.admits (h : Later env env') (hadmits : Admits m manifest env event buy entry) :
    Admits m manifest env' event buy entry := by
  obtain ⟨snapshot, hsnapshot, hcase⟩ := hadmits.snapshot
  refine ⟨⟨snapshot, ?_, ?_⟩, hadmits.times, hadmits.record⟩
  · rw [h.snapshots]
    exact hsnapshot
  · split_ifs at hcase ⊢ with hempty
    · exact ⟨h.waits hcase.1, hcase.2⟩
    · exact hcase

/-- More records, with numbers after `s`, and nothing else changed. -/
structure Extends (s : ℤ) (d a : Sidecar) : Prop where
  entries : d.entries.Within a.entries
  sells : d.sells.Within a.sells
  newEntries : ∀ k entry, a.entries.get? k = some entry → d.entries.get? k = some entry ∨ s < entry.buyEventSeq
  newSells : ∀ k record, a.sells.get? k = some record → d.sells.get? k = some record ∨ s < record.eventSeq
  closure : ∀ closure, d.closure = some closure → a.closure = some closure
  newClosure : ∀ closure, a.closure = some closure → d.closure = some closure ∨ s < closure.endEventSeq

theorem Extends.refl (s : ℤ) (d : Sidecar) : Extends s d d :=
  ⟨.refl _, .refl _, fun _ _ => .inl, fun _ _ => .inl, fun _ => id, fun _ => .inl⟩

theorem Extends.trans {s' : ℤ} {b : Sidecar} (h : Extends s d a) (h' : Extends s' a b) (hs : s ≤ s') :
    Extends s d b where
  entries := h.entries.trans h'.entries
  sells := h.sells.trans h'.sells
  newEntries k entry hk := (h'.newEntries k entry hk).elim (h.newEntries k entry) fun hlt => .inr (hs.trans_lt hlt)
  newSells k record hk := (h'.newSells k record hk).elim (h.newSells k record) fun hlt => .inr (hs.trans_lt hlt)
  closure closure hc := h'.closure closure (h.closure closure hc)
  newClosure closure hc := (h'.newClosure closure hc).elim (h.newClosure closure) fun hlt => .inr (hs.trans_lt hlt)

theorem Extends.agreeTo (h : Extends s d a) : AgreeTo s d a where
  entries k entry hs := ⟨h.entries k entry, fun hk => (h.newEntries k entry hk).resolve_right hs.not_gt⟩
  sells k record hs := ⟨h.sells k record, fun hk => (h.newSells k record hk).resolve_right hs.not_gt⟩

/-- Records with higher numbers and a later call change nothing of what an event left. -/
theorem Explained.mono (h : Explained m manifest env d event) (hd : Extends event.eventSeq d a)
    (ha : Readable m a) (hlater : Later env env') : Explained m manifest env' a event where
  bought buy hbody heligible := by
    obtain ⟨entry, hentry, hadmits⟩ := h.bought buy hbody heligible
    exact ⟨entry, hd.entries _ _ hentry, hlater.admits hadmits⟩
  entries k entry hk hs := h.entries k entry ((hd.agreeTo.entries k entry hs.le).2 hk) hs
  sold sell entry hbody hentry hposition hs :=
    hd.sells _ _ (h.sold sell entry hbody ((hd.agreeTo.entries _ entry hs).2 hentry) hposition hs)
  sells k record hk hs := by
    obtain ⟨hbody, hrecord, entry, hentry, hrest⟩ := h.sells k record ((hd.agreeTo.sells k record hs.le).2 hk) hs
    exact ⟨hbody, hrecord, entry, hd.entries _ _ hentry, hrest⟩
  closes := by
    obtain ⟨progress, hprogress, hcap, hno⟩ := h.closes
    refine ⟨progress, ?_, fun hcapped => hd.closure _ (hcap hcapped), fun hcapped closure hclosure => ?_⟩
    · rw [← hd.agreeTo.progressAt (ha.within hd.entries hd.sells) ha]
      exact hprogress
    · exact (hd.newClosure closure hclosure).elim (hno hcapped closure) id

end Explained

end Aibot.N3
