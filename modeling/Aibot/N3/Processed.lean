/-
What the loop does with an event when it runs through: an event that it processes leaves its records and no
others, and it stops before a BUY whose snapshot it waits for.
-/
import Aibot.N3.Explained

namespace Aibot.N3

open Store (JsonDocument)
open Durable (Returns Meets returns_bind returns_lift returns_read returns_pure returns_write not_returns_raise)

/-! ## Immutable records -/

section Immutable

variable {α : Type} {stored : Sidecar → Option α} {same : α → Bool} {store : Sidecar → Sidecar} {d d' : Sidecar}
  {u : Unit}

theorem immutable_returns (h : Returns (immutable stored same store) d u d') :
    (∃ old, stored d = some old ∧ same old = true ∧ d' = d) ∨ (stored d = none ∧ d' = store d) := by
  obtain ⟨found, t, hread, h⟩ := returns_bind.1 h
  obtain ⟨hfound, rfl⟩ := returns_read.1 hread
  cases hstored : stored d with
  | none =>
    rw [hstored] at hfound
    obtain rfl := Except.ok.inj hfound
    exact .inr ⟨rfl, (returns_write.1 h).symm⟩
  | some old =>
    rw [hstored] at hfound
    obtain rfl := Except.ok.inj hfound
    dsimp only at h
    split_ifs at h with hsame
    · exact .inl ⟨old, rfl, hsame, (returns_pure.1 h).2.symm⟩
    · exact absurd h not_returns_raise

end Immutable

/-! ## A BUY -/

section Admission

variable {m : Machine} {manifest : Manifest} {env : Env} {mem mem' : Memory} {event : ControlEvent} {buy : Buy}
  {d d' : Sidecar} {result : Option (Dict String Entry)}

/-- The loop waits for the snapshot of a BUY. -/
def Stalls (m : Machine) (manifest : Manifest) (env : Env) (mem : Memory) (event : ControlEvent) : Prop :=
  mem.closure = none ∧ ∃ buy snapshot, event.body = .buy buy ∧ eligible m manifest event.eventSeq buy = true ∧
    snapshotOf m env mem buy = .ok snapshot ∧ isEmpty snapshot = true ∧ waits m env event = true

theorem Holds.get?_eq (h : Holds m mem d) (h' : Holds m mem' d) (position : String) :
    mem.entries.get? position = mem'.entries.get? position := by
  ext entry
  rw [h.entries, h'.entries]

/-- Whether it waits is told by the files. -/
theorem Stalls.congr (h : Stalls m manifest env mem event) (hmem : Holds m mem d) (hmem' : Holds m mem' d) :
    Stalls m manifest env mem' event := by
  obtain ⟨hclosure, buy, snapshot, hbody, heligible, hsnapshot, hrest⟩ := h
  refine ⟨hmem'.closure.trans (hmem.closure.symm.trans hclosure), buy, snapshot, hbody, heligible, ?_, hrest⟩
  unfold snapshotOf at hsnapshot ⊢
  rw [← hmem.get?_eq hmem']
  exact hsnapshot

/-- The event is a BUY that is admitted where the cohort is open. -/
def Buys (m : Machine) (manifest : Manifest) (event : ControlEvent) (buy : Buy) : Prop :=
  event.body = .buy buy ∧ eligible m manifest event.eventSeq buy = true

theorem Buys.unique {buy' : Buy} (h : Buys m manifest event buy) (h' : Buys m manifest event buy') : buy = buy' :=
  EventBody.buy.inj (h.1.symm.trans h'.1)

theorem checkedSnapshot_eq_ok {snapshot checked : JsonDocument} (hnew : mem.entries.get? buy.positionId = none)
    (h : checkedSnapshot m manifest mem event buy snapshot = .ok checked) :
    (if isEmpty snapshot then checked = missingSnapshot
      else checkCaptured manifest buy snapshot = .ok () ∧ checked = snapshot) ∧
    checkTimes m event.at_ buy checked = .ok () := by
  obtain ⟨captured, hcaptured, h⟩ := bind_ok h
  obtain ⟨u, htimes, h⟩ := bind_ok h
  obtain rfl := Except.ok.inj h
  refine ⟨?_, htimes⟩
  unfold capturedSnapshot at hcaptured
  rw [hnew] at hcaptured
  split_ifs at hcaptured ⊢ with hempty
  · exact (Except.ok.inj hcaptured).symm
  · cases hcheck : checkCaptured manifest buy snapshot with
    | error e => rw [hcheck] at hcaptured; cases hcaptured
    | ok u =>
      rw [hcheck] at hcaptured
      exact ⟨rfl, (Except.ok.inj hcaptured).symm⟩
  · exact absurd rfl ‹_›

/-- An admitted BUY is a new entry. -/
theorem admitBuy_returns (hmem : Holds m mem d)
    (hold : ∀ k entry, d.entries.get? k = some entry → entry.buyEventSeq < event.eventSeq)
    (h : Returns (admitBuy m manifest env mem event buy) d result d') :
    (result = none ∧ d' = d ∧ ∃ snapshot, snapshotOf m env mem buy = .ok snapshot ∧ isEmpty snapshot = true ∧
      waits m env event = true) ∨
    ∃ entry, Admits m manifest env event buy entry ∧ d.entries.get? (m.fileName buy.positionId) = none ∧
      result = some (mem.entries.set buy.positionId entry) ∧
      d' = { d with entries := d.entries.put (m.fileName buy.positionId) entry } := by
  obtain ⟨snapshot, t, hlift, h⟩ := returns_bind.1 h
  obtain ⟨hsnapshot, rfl⟩ := returns_lift.1 hlift
  split_ifs at h with hwait
  · rw [Bool.and_eq_true] at hwait
    obtain ⟨rfl, rfl⟩ := returns_pure.1 h
    exact .inl ⟨rfl, rfl, snapshot, hsnapshot, hwait.1, hwait.2⟩
  · obtain ⟨checked, t, hlift, h⟩ := returns_bind.1 h
    obtain ⟨hchecked, rfl⟩ := returns_lift.1 hlift
    obtain ⟨entry, t, hlift, h⟩ := returns_bind.1 h
    obtain ⟨hentry, rfl⟩ := returns_lift.1 hlift
    obtain ⟨u, t, hwritten, h⟩ := returns_bind.1 h
    obtain ⟨hposition, hseq, hsame, -⟩ := entryRecord_eq_ok hentry
    -- an older file of this name is the record of another event
    have hfree : d.entries.get? (m.fileName buy.positionId) = none ∧
        t = { d with entries := d.entries.put (m.fileName buy.positionId) entry } := by
      rcases immutable_returns hwritten with ⟨old, hget, hequal, -⟩ | ⟨hfree, ht⟩
      · have hlt := hold _ old hget
        simp only [Entry.same, Bool.and_eq_true, decide_eq_true_eq] at hequal
        exact absurd (hequal.1.1.1.1.1.1.1.1.2.trans hseq) hlt.ne
      · exact ⟨hfree, ht⟩
    have hnew : mem.entries.get? buy.positionId = none := by
      cases hget : mem.entries.get? buy.positionId with
      | none => rfl
      | some old =>
        have hfile := ((hmem.entries _ _).1 hget).1
        rw [hfree.1] at hfile
        cases hfile
    dsimp only at h
    split_ifs at h with hlimit
    · exact absurd h not_returns_raise
    · obtain ⟨rfl, rfl⟩ := returns_pure.1 h
      obtain ⟨hcase, htimes⟩ := checkedSnapshot_eq_ok hnew hchecked
      unfold snapshotOf at hsnapshot
      rw [hnew] at hsnapshot
      refine .inr ⟨entry, ⟨⟨snapshot, hsnapshot, ?_⟩, ?_, ?_⟩, hfree.1, rfl, hfree.2⟩
      · split_ifs at hcase ⊢ with hempty
        · rw [hempty, Bool.true_and, Bool.not_eq_true] at hwait
          exact ⟨hwait, hsame.trans hcase⟩
        · exact ⟨hcase.1, hsame.trans hcase.2⟩
      · rw [hsame]
        exact htimes
      · rw [hsame]
        exact hentry

theorem admission_returns (hmem : Holds m mem d) (hopen : mem.closure = none)
    (hold : ∀ k entry, d.entries.get? k = some entry → entry.buyEventSeq < event.eventSeq)
    (h : Returns (admission m manifest env mem event) d result d') :
    (result = none ∧ d' = d ∧ Stalls m manifest env mem event) ∨
    ((∀ buy, ¬ Buys m manifest event buy) ∧ result = some mem.entries ∧ d' = d) ∨
    ∃ buy entry, Buys m manifest event buy ∧ Admits m manifest env event buy entry ∧
      d.entries.get? (m.fileName buy.positionId) = none ∧ result = some (mem.entries.set buy.positionId entry) ∧
      d' = { d with entries := d.entries.put (m.fileName buy.positionId) entry } := by
  unfold admission at h
  cases hbody : event.body with
  | buy buy =>
    rw [hbody] at h
    dsimp only at h
    rw [hopen] at h
    split_ifs at h with heligible
    · have hbuys : Buys m manifest event buy := ⟨hbody, heligible⟩
      rcases admitBuy_returns hmem hold h with ⟨hresult, hd, snapshot, hsnapshot⟩ | ⟨entry, hadmits, hfree, hresult, hd⟩
      · exact .inl ⟨hresult, hd, hopen, buy, snapshot, hbody, heligible, hsnapshot⟩
      · exact .inr (.inr ⟨buy, entry, hbuys, hadmits, hfree, hresult, hd⟩)
    · obtain ⟨rfl, rfl⟩ := returns_pure.1 h
      refine .inr (.inl ⟨fun buy' hbuys => heligible ?_, rfl, rfl⟩)
      rw [EventBody.buy.inj (hbody.symm.trans hbuys.1)]
      exact hbuys.2
  | sell sell =>
    rw [hbody] at h
    obtain ⟨rfl, rfl⟩ := returns_pure.1 h
    exact .inr (.inl ⟨fun buy hbuys => EventBody.noConfusion (hbody.symm.trans hbuys.1), rfl, rfl⟩)
  | other =>
    rw [hbody] at h
    obtain ⟨rfl, rfl⟩ := returns_pure.1 h
    exact .inr (.inl ⟨fun buy hbuys => EventBody.noConfusion (hbody.symm.trans hbuys.1), rfl, rfl⟩)

end Admission

/-! ## A SELL -/

section Sale

variable {m : Machine} {entries : Dict String Entry} {event : ControlEvent} {d d' : Sidecar} {sold : Bool}

theorem sellsEntry_eq_some {body : EventBody} {sell : Sell} : sellsEntry entries body = some sell ↔
    body = .sell sell ∧ (entries.get? sell.positionId).isSome = true := by
  cases body with
  | buy buy =>
    constructor
    · intro h
      cases h
    · rintro ⟨h, -⟩
      cases h
  | other =>
    constructor
    · intro h
      cases h
    · rintro ⟨h, -⟩
      cases h
  | sell sell' =>
    show (if (entries.get? sell'.positionId).isSome = true then some sell' else none) = some sell ↔ _
    rw [EventBody.sell.injEq]
    split_ifs with hsome
    · rw [Option.some.injEq]
      exact ⟨fun h => ⟨h, h ▸ hsome⟩, fun h => h.1⟩
    · constructor
      · intro h
        cases h
      · rintro ⟨rfl, h⟩
        exact absurd h hsome

theorem recordSale_returns
    (hold : ∀ k record, d.sells.get? k = some record → record.eventSeq < event.eventSeq)
    (h : Returns (recordSale m entries event) d sold d') :
    (sold = false ∧ sellsEntry entries event.body = none ∧ d' = d) ∨
    ∃ sell, sold = true ∧ sellsEntry entries event.body = some sell ∧
      d.sells.get? (m.fileName (sellIdentity (saleRecord event sell))) = none ∧
      d' = { d with
        sells := d.sells.put (m.fileName (sellIdentity (saleRecord event sell))) (saleRecord event sell) } := by
  unfold recordSale at h
  cases hsale : sellsEntry entries event.body with
  | none =>
    rw [hsale] at h
    obtain ⟨rfl, rfl⟩ := returns_pure.1 h
    exact .inl ⟨rfl, rfl, rfl⟩
  | some sell =>
    rw [hsale] at h
    obtain ⟨u, t, hwritten, h⟩ := returns_bind.1 h
    obtain ⟨rfl, rfl⟩ := returns_pure.1 h
    rcases immutable_returns hwritten with ⟨old, hget, hequal, -⟩ | ⟨hfree, ht⟩
    · have hlt := hold _ old hget
      rw [of_decide_eq_true hequal] at hlt
      exact absurd hlt (lt_irrefl _)
    · exact .inr ⟨sell, rfl, rfl, hfree, ht⟩

end Sale

/-! ## The caps -/

section Close

variable {m : Machine} {mem : Memory} {entries : Dict String Entry} {event : ControlEvent} {d d' : Sidecar}
  {closure : Option Closure}

/-- What the caps look at is told by the files. -/
theorem close_returns (hmem : Holds m ⟨entries, none, event.eventSeq⟩ d)
    (hnamed : Named m Entry.positionId d.entries)
    (h : Returns (close m none entries event (d.soldAt event.eventSeq)) d closure d') :
    ∃ progress, progressAt m d event.eventSeq = .ok progress ∧
      ((Capped progress ∧ closure = some ⟨event.eventSeq, event.at_, progress.1⟩ ∧ d' = { d with closure := closure }) ∨
        (¬ Capped progress ∧ closure = none ∧ d' = d)) := by
  obtain ⟨days, t, hlift, h⟩ := returns_bind.1 h
  obtain ⟨hdays, rfl⟩ := returns_lift.1 hlift
  obtain ⟨completed, t, hread, h⟩ := returns_bind.1 h
  obtain ⟨found, hfound, hlength⟩ := (hmem.activeDays_iff hnamed).1 ⟨days, hdays, rfl⟩
  have htrades : tradesAt m d event.eventSeq = .ok completed ∧ d = t := by
    unfold completedAt at hread
    unfold tradesAt
    split_ifs at hread ⊢ with hsold
    · exact returns_read.1 hread
    · obtain ⟨rfl, rfl⟩ := returns_pure.1 hread
      exact ⟨rfl, rfl⟩
  obtain ⟨htrades, rfl⟩ := htrades
  have hprogress : progressAt m d event.eventSeq = .ok (days.length, completed.length) := by
    unfold progressAt
    rw [hfound, htrades, ← hlength]
    rfl
  refine ⟨_, hprogress, ?_⟩
  have hcapped : (Option.isNone (none : Option Closure) &&
      (decide (hardCapDays ≤ days.length) || decide (hardCapCompleted ≤ completed.length))) = true ↔
      Capped (days.length, completed.length) := by simp [Capped]
  split_ifs at h with hcap
  · obtain ⟨u, t', hwritten, h⟩ := returns_bind.1 h
    obtain ⟨rfl, rfl⟩ := returns_pure.1 h
    rcases immutable_returns hwritten with ⟨old, hget, -, -⟩ | ⟨-, ht⟩
    · rw [← hmem.closure] at hget
      cases hget
    · exact .inl ⟨hcapped.1 hcap, rfl, ht⟩
  · obtain ⟨rfl, rfl⟩ := returns_pure.1 h
    exact .inr ⟨fun h => hcap (hcapped.2 h), rfl, rfl⟩

end Close

/-! ## An event -/

section Event

variable {m : Machine} {manifest : Manifest} {env : Env} {mem mem' : Memory} {event : ControlEvent}
  {entries : Dict String Entry} {d d' : Sidecar}

/-- The variables are those of the files, and every record has a number up to the cursor. -/
structure Tidy (m : Machine) (mem : Memory) (d : Sidecar) : Prop where
  holds : Holds m mem d
  entries : Named m Entry.positionId d.entries
  sells : Named m sellIdentity d.sells
  entrySeq : ∀ k entry, d.entries.get? k = some entry → entry.buyEventSeq ≤ mem.cursor
  sellSeq : ∀ k record, d.sells.get? k = some record → record.eventSeq ≤ mem.cursor
  positive : ∀ k record, d.sells.get? k = some record → 0 < record.sell.tokenAmountRaw
  closure : ∀ closure, d.closure = some closure → closure.endEventSeq = mem.cursor

/-- The files that the loop does not write. -/
structure Kept (d d' : Sidecar) : Prop where
  completed : d'.completed = d.completed
  state : d'.state = d.state
  report : d'.report = d.report

theorem Kept.refl (d : Sidecar) : Kept d d := ⟨rfl, rfl, rfl⟩

theorem Kept.trans {d'' : Sidecar} (h : Kept d d') (h' : Kept d' d'') : Kept d d'' :=
  ⟨h'.completed.trans h.completed, h'.state.trans h.state, h'.report.trans h.report⟩

/-- The entries after an event. -/
structure Admitted (m : Machine) (manifest : Manifest) (env : Env) (event : ControlEvent) (d d' : Sidecar) : Prop where
  named : Named m Entry.positionId d'.entries
  within : d.entries.Within d'.entries
  new : ∀ k entry, d'.entries.get? k = some entry → d.entries.get? k = some entry ∨
    (entry.buyEventSeq = event.eventSeq ∧ ∃ buy, Buys m manifest event buy ∧ entry.positionId = buy.positionId)
  bought : ∀ buy, Buys m manifest event buy →
    ∃ entry, d'.entries.get? (m.fileName buy.positionId) = some entry ∧ Admits m manifest env event buy entry
  rest : d' = { d with entries := d'.entries }

theorem admission_admitted {result : Option (Dict String Entry)} (h : Tidy m mem d) (hopen : mem.closure = none)
    (hseq : event.eventSeq = mem.cursor + 1) (hr : Returns (admission m manifest env mem event) d result d') :
    (result = none ∧ d' = d ∧ Stalls m manifest env mem event) ∨
    ∃ entries, result = some entries ∧ Admitted m manifest env event d d' ∧
      Holds m ⟨entries, none, event.eventSeq⟩ d' := by
  have hold : ∀ k entry, d.entries.get? k = some entry → entry.buyEventSeq < event.eventSeq :=
    fun k entry hk => by linarith [h.entrySeq k entry hk]
  have hnone : Holds m ⟨mem.entries, none, event.eventSeq⟩ d := ⟨h.holds.entries, hopen ▸ h.holds.closure⟩
  rcases admission_returns h.holds hopen hold hr with hstall | ⟨hnot, rfl, rfl⟩ |
    ⟨buy, entry, hbuys, hadmits, hfree, rfl, rfl⟩
  · exact .inl hstall
  · exact .inr ⟨_, rfl, ⟨h.entries, .refl _, fun _ _ => .inl, fun buy hbuys => absurd hbuys (hnot buy), rfl⟩, hnone⟩
  · have hname : m.fileName entry.positionId = m.fileName buy.positionId := by rw [hadmits.positionId]
    refine .inr ⟨_, rfl, ⟨?_, Directory.within_put hfree entry, fun k other hk => ?_, fun buy' hbuys' => ?_, rfl⟩, ?_⟩
    · rw [← hname]
      exact h.entries.put entry
    · rw [Directory.get?_put] at hk
      split_ifs at hk
      · obtain rfl := Option.some.inj hk
        exact .inr ⟨hadmits.buyEventSeq, buy, hbuys, hadmits.positionId⟩
      · exact .inl hk
    · obtain rfl := hbuys.unique hbuys'
      exact ⟨entry, Directory.get?_put_self .., hadmits⟩
    · rw [← hadmits.positionId]
      refine hnone.set rfl (fun old hget => ?_) (by rfl) (by rfl) event.eventSeq
      rw [hname, hfree] at hget
      cases hget

/-- The sales after an event. -/
structure Recorded (m : Machine) (entries : Dict String Entry) (event : ControlEvent) (d d' : Sidecar) : Prop where
  named : Named m sellIdentity d'.sells
  within : d.sells.Within d'.sells
  new : ∀ k record, d'.sells.get? k = some record → d.sells.get? k = some record ∨
    (record = saleRecord event record.sell ∧ sellsEntry entries event.body = some record.sell)
  sold : ∀ sell, sellsEntry entries event.body = some sell →
    d'.sells.get? (m.fileName (sellIdentity (saleRecord event sell))) = some (saleRecord event sell)
  rest : d' = { d with sells := d'.sells }

theorem recordSale_recorded {sold : Bool} (hnamed : Named m sellIdentity d.sells)
    (hold : ∀ k record, d.sells.get? k = some record → record.eventSeq < event.eventSeq)
    (hr : Returns (recordSale m entries event) d sold d') :
    Recorded m entries event d d' ∧ sold = d'.soldAt event.eventSeq := by
  rcases recordSale_returns hold hr with ⟨rfl, hsale, rfl⟩ | ⟨sell, rfl, hsale, hfree, rfl⟩
  · refine ⟨⟨hnamed, .refl _, fun _ _ => .inl, fun sell h => ?_, rfl⟩, ?_⟩
    · rw [hsale] at h
      cases h
    · rw [eq_comm, Bool.eq_false_iff]
      intro hsold
      obtain ⟨k, record, hk, hseq⟩ := soldAt_iff.1 hsold
      exact absurd hseq (hold k record hk).ne
  · refine ⟨⟨hnamed.put _, Directory.within_put hfree _, fun k record hk => ?_, fun sell' h => ?_, rfl⟩, ?_⟩
    · rw [Directory.get?_put] at hk
      split_ifs at hk
      · obtain rfl := Option.some.inj hk
        exact .inr ⟨rfl, hsale⟩
      · exact .inl hk
    · rw [hsale] at h
      obtain rfl := Option.some.inj h
      exact Directory.get?_put_self ..
    · exact (soldAt_iff.2 ⟨_, saleRecord event sell, Directory.get?_put_self .., rfl⟩).symm

/-- What the loop has done where it has processed an event. -/
structure Processed (m : Machine) (manifest : Manifest) (env : Env) (mem : Memory) (d : Sidecar)
    (event : ControlEvent) (mem' : Memory) (d' : Sidecar) : Prop where
  cursor : mem'.cursor = event.eventSeq
  tidy : Tidy m mem' d'
  explained : Explained m manifest env d' event
  extends_ : Extends mem.cursor d d'
  kept : Kept d d'

theorem observeEvent_returns {result : Option Memory} (h : Tidy m mem d) (hopen : mem.closure = none)
    (hpositive : ∀ sell, event.body = .sell sell → 0 < sell.tokenAmountRaw)
    (hr : Returns (observeEvent m manifest env mem event) d result d') :
    event.eventSeq = mem.cursor + 1 ∧ ((result = none ∧ d' = d ∧ Stalls m manifest env mem event) ∨
      ∃ mem', result = some mem' ∧ Processed m manifest env mem d event mem' d') := by
  unfold observeEvent at hr
  rw [hopen, Option.any_none, if_neg Bool.false_ne_true] at hr
  split_ifs at hr with hseq
  · exact absurd hr not_returns_raise
  rw [not_not] at hseq
  refine ⟨hseq, ?_⟩
  obtain ⟨admitted, d₁, hadmission, hnext⟩ := returns_bind.1 hr
  rcases admission_admitted h hopen hseq hadmission with ⟨rfl, rfl, hstalls⟩ | ⟨entries, rfl, hadmitted, hmem⟩
  · obtain ⟨rfl, rfl⟩ := returns_pure.1 hnext
    exact .inl ⟨rfl, rfl, hstalls⟩
  right
  obtain ⟨sold, d₂, hsale, hnext₂⟩ := returns_bind.1 hnext
  obtain ⟨closure, d₃, hclose, hnext₃⟩ := returns_bind.1 hnext₂
  obtain ⟨rfl, rfl⟩ := returns_pure.1 hnext₃
  have hrest₁ := hadmitted.rest
  have hsells₁ : d₁.sells = d.sells := by rw [hrest₁]
  obtain ⟨hrecorded, rfl⟩ := recordSale_recorded (by rw [hsells₁]; exact h.sells)
    (fun k record hk => by linarith [h.sellSeq k record (hsells₁ ▸ hk)]) hsale
  have hrest₂ := hrecorded.rest
  have hentries₂ : d₂.entries = d₁.entries := by rw [hrest₂]
  have hclosure₂ : d₂.closure = d.closure := by rw [hrest₂, hrest₁]
  have hmem₂ : Holds m ⟨entries, none, event.eventSeq⟩ d₂ :=
    ⟨by rw [hentries₂]; exact hmem.entries, by rw [hclosure₂, ← h.holds.closure, hopen]⟩
  obtain ⟨progress, hprogress, hcases⟩ := close_returns hmem₂ (by rw [hentries₂]; exact hadmitted.named) hclose
  -- what the caps have done leaves the entries and the sales
  have hlast : d₃.entries = d₁.entries ∧ d₃.sells = d₂.sells ∧ Kept d d₃ ∧ d₃.closure = closure ∧
      progressAt m d₃ event.eventSeq = .ok progress ∧
      (closure = none ∨ closure = some ⟨event.eventSeq, event.at_, progress.1⟩) ∧
      (Capped progress ↔ closure ≠ none) := by
    rcases hcases with ⟨hcap, rfl, rfl⟩ | ⟨hcap, rfl, rfl⟩
    · refine ⟨hentries₂, rfl, ⟨?_, ?_, ?_⟩, rfl, hprogress, .inr rfl, iff_of_true hcap (Option.some_ne_none _)⟩ <;>
        rw [hrest₂, hrest₁]
    · refine ⟨hentries₂, rfl, ⟨?_, ?_, ?_⟩, ?_, hprogress, .inl rfl, iff_of_false hcap (not_not.2 rfl)⟩
      · rw [hrest₂, hrest₁]
      · rw [hrest₂, hrest₁]
      · rw [hrest₂, hrest₁]
      · rw [hclosure₂, ← h.holds.closure, hopen]
  obtain ⟨hentries, hsells, hkept, hclosed, hprogress, hvalue, hcap⟩ := hlast
  have hentrySeq : ∀ k entry, d₃.entries.get? k = some entry → entry.buyEventSeq ≤ event.eventSeq := by
    intro k entry hk
    rw [hentries] at hk
    rcases hadmitted.new k entry hk with hk | ⟨heq, -⟩
    · linarith [h.entrySeq k entry hk]
    · exact heq.le
  have hsellSeq : ∀ k record, d₃.sells.get? k = some record → record.eventSeq ≤ event.eventSeq := by
    intro k record hk
    rw [hsells] at hk
    rcases hrecorded.new k record hk with hk | ⟨heq, -⟩
    · linarith [h.sellSeq k record (hsells₁ ▸ hk)]
    · rw [heq]
      exact le_rfl
  refine ⟨_, rfl, ⟨rfl, ?_, ?_, ?_, hkept⟩⟩
  · refine ⟨⟨by rw [hentries]; exact hmem.entries, hclosed.symm⟩, by rw [hentries]; exact hadmitted.named,
      by rw [hsells]; exact hrecorded.named, hentrySeq, hsellSeq, fun k record hk => ?_, fun closure' hc => ?_⟩
    · rw [hsells] at hk
      rcases hrecorded.new k record hk with hk | ⟨-, hsale⟩
      · exact h.positive k record (hsells₁ ▸ hk)
      · exact hpositive _ (sellsEntry_eq_some.1 hsale).1
    · rw [hclosed] at hc
      rcases hvalue with hvalue | hvalue
      · rw [hvalue] at hc
        cases hc
      · rw [hvalue] at hc
        obtain rfl := Option.some.inj hc
        rfl
  · refine ⟨fun buy hbody heligible => ?_, fun k entry hk heq => ?_, fun sell entry hbody hget hposition hle => ?_,
      fun k record hk heq => ?_, progress, hprogress, fun hcapped => ?_, fun hcapped closure' hc => ?_⟩
    · rw [hentries]
      exact hadmitted.bought buy ⟨hbody, heligible⟩
    · rw [hentries] at hk
      rcases hadmitted.new k entry hk with hk | ⟨-, buy, hbuys, hposition⟩
      · linarith [h.entrySeq k entry hk]
      · exact ⟨buy, hbuys.1, hbuys.2, hposition⟩
    · rw [hsells]
      rw [hentries] at hget
      refine hrecorded.sold sell (sellsEntry_eq_some.2 ⟨hbody, ?_⟩)
      rw [(hmem.entries sell.positionId entry).2 ⟨hget, hposition⟩]
      rfl
    · rw [hsells] at hk
      rcases hrecorded.new k record hk with hk | ⟨hrecord, hsale⟩
      · linarith [h.sellSeq k record (hsells₁ ▸ hk)]
      · obtain ⟨hbody, hsome⟩ := sellsEntry_eq_some.1 hsale
        obtain ⟨entry, hentry⟩ := Option.isSome_iff_exists.1 hsome
        obtain ⟨hget, hposition⟩ := (hmem.entries record.sell.positionId entry).1 hentry
        rw [← hentries] at hget
        exact ⟨hbody, hrecord, entry, hget, hposition, hentrySeq _ entry hget⟩
    · rw [hclosed]
      exact hvalue.resolve_left (hcap.1 hcapped)
    · rw [hclosed, not_not.1 fun hne => hcapped (hcap.2 hne)] at hc
      cases hc
  · refine ⟨by rw [hentries]; exact hadmitted.within, by rw [hsells, ← hsells₁]; exact hrecorded.within,
      fun k entry hk => ?_, fun k record hk => ?_, fun closure' hc => ?_, fun closure' hc => ?_⟩
    · rw [hentries] at hk
      rcases hadmitted.new k entry hk with hk | ⟨heq, -⟩
      · exact .inl hk
      · exact .inr (by linarith)
    · rw [hsells] at hk
      rcases hrecorded.new k record hk with hk | ⟨heq, -⟩
      · exact .inl (hsells₁ ▸ hk)
      · refine .inr ?_
        rw [heq]
        show mem.cursor < event.eventSeq
        linarith
    · rw [← h.holds.closure, hopen] at hc
      cases hc
    · rw [hclosed] at hc
      rcases hvalue with hvalue | hvalue
      · rw [hvalue] at hc
        cases hc
      · rw [hvalue] at hc
        obtain rfl := Option.some.inj hc
        refine .inr ?_
        show mem.cursor < event.eventSeq
        linarith

end Event

end Aibot.N3
