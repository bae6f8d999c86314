/-
The loop over files that are behind: it repeats the events that the records of a finished call explain, writes
what is not there yet, and ends with the same records.
-/
import Aibot.N3.Call

namespace Aibot.N3

open Store (JsonDocument)
open Durable (Meets meets_bind meets_pure meets_write meets_lift_bind meets_read_bind)

/-! ## Files behind others -/

section Behind

variable {s s' : ℤ} {v v' a : Sidecar}

/-- The files of `v` are among those of `a`, and those up to the number `s` are all there. -/
structure Behind (s : ℤ) (v a : Sidecar) : Prop where
  entries : v.entries.Within a.entries
  sells : v.sells.Within a.sells
  completed : v.completed.Within a.completed
  closure : ∀ closure, v.closure = some closure → a.closure = some closure
  report : ∀ report, v.report = some report → a.report = some report
  hasEntries : ∀ k entry, a.entries.get? k = some entry → entry.buyEventSeq ≤ s → v.entries.get? k = some entry
  hasSells : ∀ k record, a.sells.get? k = some record → record.eventSeq ≤ s → v.sells.get? k = some record
  hasClosure : ∀ closure, a.closure = some closure → closure.endEventSeq ≤ s → v.closure = some closure
  /-- The closure is written after the records. -/
  closed : v.closure ≠ none → a.entries.Within v.entries ∧ a.sells.Within v.sells

theorem Behind.refl (s : ℤ) (a : Sidecar) : Behind s a a :=
  ⟨.refl _, .refl _, .refl _, fun _ => id, fun _ => id, fun _ _ h _ => h, fun _ _ h _ => h, fun _ h _ => h,
    fun _ => ⟨.refl _, .refl _⟩⟩

theorem Behind.mono (h : Behind s v a) (hs : s' ≤ s) : Behind s' v a :=
  { h with
    hasEntries := fun k entry hk hle => h.hasEntries k entry hk (hle.trans hs)
    hasSells := fun k record hk hle => h.hasSells k record hk (hle.trans hs)
    hasClosure := fun closure hc hle => h.hasClosure closure hc (hle.trans hs) }

theorem Behind.agreeTo (h : Behind s v a) : AgreeTo s v a :=
  ⟨fun k entry hs => ⟨h.entries k entry, fun hk => h.hasEntries k entry hk hs⟩,
    fun k record hs => ⟨h.sells k record, fun hk => h.hasSells k record hk hs⟩⟩

/-- More records of `a` are written. -/
theorem Behind.write (h : Behind s v a) (hkept : Kept v v') (hclosure : v'.closure = v.closure)
    (hentries : v.entries.Within v'.entries) (hsells : v.sells.Within v'.sells)
    (hentries' : v'.entries.Within a.entries) (hsells' : v'.sells.Within a.sells) : Behind s v' a where
  entries := hentries'
  sells := hsells'
  completed := hkept.completed ▸ h.completed
  closure closure hc := h.closure closure (hclosure ▸ hc)
  report report hr := h.report report (hkept.report ▸ hr)
  hasEntries k entry hk hs := hentries k entry (h.hasEntries k entry hk hs)
  hasSells k record hk hs := hsells k record (h.hasSells k record hk hs)
  hasClosure closure hc hs := hclosure ▸ h.hasClosure closure hc hs
  closed hc :=
    ⟨(h.closed (hclosure ▸ hc)).1.trans hentries, (h.closed (hclosure ▸ hc)).2.trans hsells⟩

end Behind

/-! ## Immutable records -/

section Immutable

variable {α : Type} {stored : Sidecar → Option α} {same : α → Bool} {store : Sidecar → Sidecar} {v : Sidecar}
  {inv : Sidecar → Prop} {post : Unit → Sidecar → Prop}

theorem immutable_meets (hold : ∀ old, stored v = some old → same old = true ∧ post () v)
    (hnew : stored v = none → inv v ∧ post () (store v)) : Meets (immutable stored same store) v inv post := by
  refine meets_read_bind rfl ?_
  cases hstored : stored v with
  | none => exact meets_write (hnew hstored).1 (hnew hstored).2
  | some old =>
    show Meets (if same old then pure () else Durable.raise "conflicting immutable N3 record") v inv post
    rw [if_pos (hold old hstored).1]
    exact meets_pure (hold old hstored).2

end Immutable

/-! ## A BUY -/

section Admission

variable {m : Machine} {manifest : Manifest} {env : Env} {mem : Memory} {event : ControlEvent} {buy : Buy}
  {entry : Entry} {v a : Sidecar} {inv : Sidecar → Prop}

theorem Admits.not_isEmpty (h : Admits m manifest env event buy entry) : isEmpty entry.snapshot = false := by
  obtain ⟨snapshot, -, hcase⟩ := h.snapshot
  split_ifs at hcase with hempty
  · rw [hcase.2]
    rfl
  · rw [hcase.2]
    exact eq_false_of_ne_true hempty

/-- The snapshot of an explained BUY passes again, from its entry or from the recorder. -/
theorem Admits.snapshotOf (h : Admits m manifest env event buy entry) (hmem : ∀ old,
    mem.entries.get? buy.positionId = some old → old = entry) :
    ∃ snapshot, snapshotOf m env mem buy = .ok snapshot ∧ (isEmpty snapshot && waits m env event) = false ∧
      checkedSnapshot m manifest mem event buy snapshot = .ok entry.snapshot := by
  have hchecked : ∀ snapshot, capturedSnapshot manifest mem buy snapshot = .ok entry.snapshot →
      checkedSnapshot m manifest mem event buy snapshot = .ok entry.snapshot := by
    intro snapshot hcaptured
    unfold checkedSnapshot
    rw [hcaptured]
    show (checkTimes m event.at_ buy entry.snapshot >>= fun _ => Except.ok entry.snapshot) = _
    rw [h.times]
    rfl
  unfold N3.snapshotOf
  cases hget : mem.entries.get? buy.positionId with
  | some old =>
    obtain rfl := hmem old hget
    refine ⟨old.snapshot, rfl, by rw [h.not_isEmpty, Bool.false_and], hchecked _ ?_⟩
    unfold capturedSnapshot
    rw [h.not_isEmpty, hget]
    rfl
  | none =>
    obtain ⟨snapshot, hsnapshot, hcase⟩ := h.snapshot
    refine ⟨snapshot, hsnapshot, ?_, hchecked _ ?_⟩
    · split_ifs at hcase with hempty
      · rw [hcase.1, Bool.and_false]
      · rw [eq_false_of_ne_true hempty, Bool.false_and]
    · unfold capturedSnapshot
      rw [hget]
      split_ifs at hcase ⊢ with hempty hnone
      · rw [hcase.2]
      · rw [hcase.1, hcase.2]
        rfl
      · exact absurd rfl hnone

variable (hexplained : Explained m manifest env a event) (hreadable : Readable m a) (hmem : Holds m mem v)
  (hbehind : Behind mem.cursor v a) (hseq : event.eventSeq = mem.cursor + 1)
  (hinv : ∀ v', Behind mem.cursor v' a → Kept v v' → inv v')

/-- The entries after an event that is repeated are those of `a` up to its number. -/
structure Readmitted (m : Machine) (event : ControlEvent) (closure : Option Closure) (v a : Sidecar) (cursor : ℤ)
    (entries : Dict String Entry) (v' : Sidecar) : Prop where
  holds : Holds m ⟨entries, closure, event.eventSeq⟩ v'
  behind : Behind cursor v' a
  kept : Kept v v'
  hasEntries : ∀ k entry, a.entries.get? k = some entry → entry.buyEventSeq ≤ event.eventSeq →
    v'.entries.get? k = some entry

include hreadable hmem hbehind hinv in
/-- The entry of a BUY is written, or is there already. -/
theorem admitBuy_meets (hadmits : Admits m manifest env event buy entry)
    (hentry : a.entries.get? (m.fileName buy.positionId) = some entry) (hrest : ∀ k other,
      a.entries.get? k = some other → other.buyEventSeq ≤ event.eventSeq → other ≠ entry →
        v.entries.get? k = some other) :
    Meets (admitBuy m manifest env mem event buy) v inv fun result v' =>
      ∃ entries, result = some entries ∧ Readmitted m event mem.closure v a mem.cursor entries v' := by
  have hname : m.fileName entry.positionId = m.fileName buy.positionId := by rw [hadmits.positionId]
  have hstored : ∀ old, v.entries.get? (m.fileName buy.positionId) = some old → old = entry := fun old hold =>
    Option.some.inj ((hbehind.entries _ _ hold).symm.trans hentry)
  have hreadmitted : ∀ v', v'.entries = v.entries.put (m.fileName buy.positionId) entry → Kept v v' →
      v'.sells = v.sells → v'.closure = v.closure →
      Readmitted m event mem.closure v a mem.cursor (mem.entries.set buy.positionId entry) v' := by
    intro v' hentries hkept hsells hclosure
    have hwithin : v.entries.Within v'.entries := by
      intro k old hk
      rw [hentries, Directory.get?_put]
      split_ifs with heq
      · rw [heq] at hk
        rw [hstored old hk]
      · exact hk
    have hwithin' : v'.entries.Within a.entries := by
      rw [hentries]
      exact Directory.put_within hbehind.entries hentry
    refine ⟨?_, hbehind.write hkept hclosure hwithin (hsells ▸ .refl _) hwithin' (hsells ▸ hbehind.sells), hkept,
      fun k other hk hle => ?_⟩
    · rw [← hadmits.positionId]
      exact hmem.set hname hstored hclosure hentries _
    · by_cases heq : other = entry
      · have hk' : k = m.fileName buy.positionId := by rw [← hreadable.entries k other hk, heq, hname]
        rw [hentries, hk', Directory.get?_put_self, heq]
      · exact hwithin k other (hrest k other hk hle heq)
  obtain ⟨snapshot, hsnapshot, hwaits, hchecked⟩ := hadmits.snapshotOf fun old hold =>
    hstored old ((hmem.entries _ _).1 hold).1
  refine meets_lift_bind hsnapshot ?_
  rw [hwaits, if_neg Bool.false_ne_true]
  refine meets_lift_bind hchecked (meets_lift_bind hadmits.record ?_)
  have hwritten : Meets (immutableEntry (m.fileName buy.positionId) entry) v inv fun _ v' =>
      Readmitted m event mem.closure v a mem.cursor (mem.entries.set buy.positionId entry) v' := by
    refine immutable_meets (fun old hold => ?_) fun _ => ⟨hinv v hbehind (.refl v), ?_⟩
    · rw [hstored old hold]
      refine ⟨Entry.same_refl entry, hreadmitted v ?_ (.refl v) rfl rfl⟩
      ext k other
      rw [Directory.get?_put]
      split_ifs with heq
      · rw [heq, hold, hstored old hold]
      · rfl
    · exact hreadmitted _ rfl ⟨rfl, rfl, rfl⟩ rfl rfl
  refine meets_bind hwritten fun _ v' hv' => ?_
  have hlength : (mem.entries.set buy.positionId entry).entries.length ≤ entryLimit := by
    refine le_trans (hv'.holds.length_eq (hreadable.entries.within hv'.behind.entries)).le ?_
    exact hv'.behind.entries.sublist.length_le.trans hreadable.entryCount
  show Meets (if entryLimit < _ then _ else _) _ _ _
  rw [if_neg (not_lt.2 hlength)]
  exact meets_pure ⟨_, rfl, hv'⟩

include hexplained hreadable hmem hbehind hseq hinv in
theorem admission_meets : Meets (admission m manifest env mem event) v inv fun result v' =>
    ∃ entries, result = some entries ∧ Readmitted m event mem.closure v a mem.cursor entries v' := by
  -- an entry of the event is that of a BUY
  have hcases : ∀ k entry, a.entries.get? k = some entry → entry.buyEventSeq ≤ event.eventSeq →
      v.entries.get? k = some entry ∨ ∃ buy, Buys m manifest event buy ∧ entry.positionId = buy.positionId := by
    intro k entry hk hle
    rcases hle.lt_or_eq with hlt | heq
    · exact .inl (hbehind.hasEntries k entry hk (by omega))
    · obtain ⟨buy, hbody, heligible, hposition⟩ := hexplained.entries k entry hk heq
      exact .inr ⟨buy, ⟨hbody, heligible⟩, hposition⟩
  -- nothing is written where the event is no such BUY, or the cohort is closed and all entries are there
  have hunchanged : (∀ buy, Buys m manifest event buy → mem.closure ≠ none) →
      Meets (pure (some mem.entries) : Observing (Option (Dict String Entry))) v inv fun result v' =>
        ∃ entries, result = some entries ∧ Readmitted m event mem.closure v a mem.cursor entries v' := by
    intro hclosed
    refine meets_pure ⟨_, rfl, ⟨hmem.entries, hmem.closure⟩, hbehind, .refl v, fun k entry hk hle => ?_⟩
    rcases hcases k entry hk hle with hv | ⟨buy, hbuys, -⟩
    · exact hv
    · exact (hbehind.closed (hmem.closure ▸ hclosed buy hbuys)).1 k entry hk
  unfold admission
  cases hbody : event.body with
  | buy buy =>
    dsimp only
    split_ifs with hopen
    · rw [Bool.and_eq_true] at hopen
      obtain ⟨entry, hentry, hadmits⟩ := hexplained.bought buy hbody hopen.2
      refine admitBuy_meets hreadable hmem hbehind hinv hadmits hentry fun k other hk hle hne => ?_
      rcases hcases k other hk hle with hv | ⟨buy', hbuys, hposition⟩
      · exact hv
      · refine absurd (hreadable.entries.eq_of_identity hk hentry ?_) hne
        rw [hposition, hbuys.unique ⟨hbody, hopen.2⟩, hadmits.positionId]
    · refine hunchanged fun buy' hbuys hnone => hopen ?_
      obtain rfl : buy' = buy := EventBody.buy.inj (hbuys.1.symm.trans hbody)
      rw [hnone, hbuys.2]
      rfl
  | sell sell => exact hunchanged fun buy hbuys => EventBody.noConfusion (hbody.symm.trans hbuys.1)
  | other => exact hunchanged fun buy hbuys => EventBody.noConfusion (hbody.symm.trans hbuys.1)

end Admission

/-! ## A SELL and the caps -/

section Sale

variable {m : Machine} {manifest : Manifest} {env : Env} {mem : Memory} {event : ControlEvent}
  {entries : Dict String Entry} {v v₀ a : Sidecar} {inv : Sidecar → Prop}

variable (hexplained : Explained m manifest env a event) (hreadable : Readable m a)
  (hadmitted : Readmitted m event mem.closure v₀ a mem.cursor entries v) (hseq : event.eventSeq = mem.cursor + 1)
  (hinv : ∀ v', Behind mem.cursor v' a → Kept v₀ v' → inv v')

include hexplained hadmitted in
/-- Where the event sells no entry, `a` has no sale of its number. -/
theorem sale_of_eventSeq {k : String} {record : SellRecord} (hk : a.sells.get? k = some record)
    (heq : record.eventSeq = event.eventSeq) : sellsEntry entries event.body = some record.sell := by
  obtain ⟨hbody, -, entry, hentry, hposition, hle⟩ := hexplained.sells k record hk heq
  refine sellsEntry_eq_some.2 ⟨hbody, ?_⟩
  rw [(hadmitted.holds.entries record.sell.positionId entry).2
    ⟨hadmitted.hasEntries _ entry hentry hle, hposition⟩]
  rfl

include hexplained hreadable hadmitted hseq hinv in
theorem recordSale_meets (hfirst : ∀ sell k entry, event.body = .sell sell → a.entries.get? k = some entry →
      entry.positionId = sell.positionId → entry.buyEventSeq ≤ event.eventSeq) :
    Meets (recordSale m entries event) v inv fun sold v' =>
      Readmitted m event mem.closure v₀ a mem.cursor entries v' ∧ sold = v'.soldAt event.eventSeq ∧
        ∀ k record, a.sells.get? k = some record → record.eventSeq ≤ event.eventSeq →
          v'.sells.get? k = some record := by
  have hbehind := hadmitted.behind
  unfold recordSale
  cases hsale : sellsEntry entries event.body with
  | none =>
    have hall : ∀ k record, a.sells.get? k = some record → record.eventSeq ≤ event.eventSeq →
        v.sells.get? k = some record := by
      intro k record hk hle
      rcases hle.lt_or_eq with hlt | heq
      · exact hbehind.hasSells k record hk (by omega)
      · rw [sale_of_eventSeq hexplained hadmitted hk heq] at hsale
        cases hsale
    refine meets_pure ⟨hadmitted, ?_, hall⟩
    rw [eq_comm, Bool.eq_false_iff]
    intro hsold
    obtain ⟨k, record, hk, heq⟩ := soldAt_iff.1 hsold
    rw [sale_of_eventSeq hexplained hadmitted (hbehind.sells k record hk) heq] at hsale
    cases hsale
  | some sell =>
    obtain ⟨hbody, hsome⟩ := sellsEntry_eq_some.1 hsale
    obtain ⟨entry, hentry⟩ := Option.isSome_iff_exists.1 hsome
    obtain ⟨hget, hposition⟩ := (hadmitted.holds.entries sell.positionId entry).1 hentry
    have hrecord := hexplained.sold sell entry hbody (hbehind.entries _ _ hget) hposition
      (hfirst sell _ entry hbody (hbehind.entries _ _ hget) hposition)
    have hafter : ∀ v', v'.sells = v.sells.put (m.fileName (sellIdentity (saleRecord event sell)))
        (saleRecord event sell) → v.sells.Within v'.sells → v' = { v with sells := v'.sells } →
        Readmitted m event mem.closure v₀ a mem.cursor entries v' ∧ true = v'.soldAt event.eventSeq ∧
          ∀ k record, a.sells.get? k = some record → record.eventSeq ≤ event.eventSeq →
            v'.sells.get? k = some record := by
      intro v' hsells hwithin hrest
      have hentries : v'.entries = v.entries := by rw [hrest]
      have hclosure : v'.closure = v.closure := by rw [hrest]
      have hkept : Kept v v' := ⟨by rw [hrest], by rw [hrest], by rw [hrest]⟩
      have hmine : v'.sells.get? (m.fileName (sellIdentity (saleRecord event sell))) =
          some (saleRecord event sell) := by
        rw [hsells]
        exact Directory.get?_put_self ..
      refine ⟨⟨⟨?_, ?_⟩, ?_, hadmitted.kept.trans hkept, ?_⟩, ?_, fun k record hk hle => ?_⟩
      · rw [hentries]
        exact hadmitted.holds.entries
      · rw [hclosure]
        exact hadmitted.holds.closure
      · refine hbehind.write hkept hclosure (hentries ▸ .refl _) hwithin (hentries ▸ hbehind.entries) ?_
        rw [hsells]
        exact Directory.put_within hbehind.sells hrecord
      · rw [hentries]
        exact hadmitted.hasEntries
      · exact (soldAt_iff.2 ⟨_, _, hmine, rfl⟩).symm
      · rcases hle.lt_or_eq with hlt | heq
        · exact hwithin k record (hbehind.hasSells k record hk (by omega))
        · obtain ⟨hbody', hrecord', -⟩ := hexplained.sells k record hk heq
          obtain rfl := EventBody.sell.inj (hbody.symm.trans hbody')
          rw [← hreadable.sells k record hk, hrecord']
          exact hmine
    have hwritten : Meets (immutableSell (m.fileName (sellIdentity (saleRecord event sell))) (saleRecord event sell)) v
        inv fun _ v' => Readmitted m event mem.closure v₀ a mem.cursor entries v' ∧
          true = v'.soldAt event.eventSeq ∧ ∀ k record, a.sells.get? k = some record →
            record.eventSeq ≤ event.eventSeq → v'.sells.get? k = some record := by
      refine immutable_meets (fun old hold => ?_) fun hnone => ⟨hinv v hbehind hadmitted.kept, ?_⟩
      · have heq : old = saleRecord event sell := Option.some.inj ((hbehind.sells _ _ hold).symm.trans hrecord)
        refine ⟨decide_eq_true heq, hafter v ?_ (.refl _) rfl⟩
        ext k other
        rw [Directory.get?_put]
        split_ifs with hk
        · rw [hk, hold, heq]
        · rfl
      · exact hafter _ rfl (Directory.within_put hnone _) rfl
    exact meets_bind hwritten fun _ v' hv' => meets_pure hv'

include hexplained hreadable hadmitted hinv in
theorem close_meets (hsells : ∀ k record, a.sells.get? k = some record → record.eventSeq ≤ event.eventSeq →
      v.sells.get? k = some record) (hlast : ∀ closure, a.closure = some closure →
      (∀ k entry, a.entries.get? k = some entry → entry.buyEventSeq ≤ closure.endEventSeq) ∧
        ∀ k record, a.sells.get? k = some record → record.eventSeq ≤ closure.endEventSeq) :
    Meets (close m mem.closure entries event (v.soldAt event.eventSeq)) v inv fun closure v' =>
      Holds m ⟨entries, closure, event.eventSeq⟩ v' ∧ Behind event.eventSeq v' a ∧ Kept v₀ v' := by
  have hbehind := hadmitted.behind
  have hagree : AgreeTo event.eventSeq v a :=
    ⟨fun k entry hle => ⟨hbehind.entries k entry, fun hk => hadmitted.hasEntries k entry hk hle⟩,
      fun k record hle => ⟨hbehind.sells k record, fun hk => hsells k record hk hle⟩⟩
  have hvreadable : Readable m v := hreadable.within hbehind.entries hbehind.sells
  obtain ⟨progress, hprogress, hcap, hno⟩ := hexplained.closes
  rw [← hagree.progressAt hvreadable hreadable] at hprogress
  obtain ⟨days, hdays, hprogress⟩ := bind_ok hprogress
  obtain ⟨trades, hfetched, heq⟩ := bind_ok hprogress
  obtain rfl := Except.ok.inj heq
  obtain ⟨found, hfound, hlength⟩ := (hadmitted.holds.activeDays_iff hvreadable.entries).2 ⟨days, hdays, rfl⟩
  -- the records up to the number are there; the closure is there where no cap is left to close
  have hdone : ∀ v', v'.entries = v.entries → v'.sells = v.sells → Kept v v' →
      (∀ closure, v'.closure = some closure → a.closure = some closure) →
      (∀ closure, a.closure = some closure → closure.endEventSeq ≤ event.eventSeq → v'.closure = some closure) →
      (v'.closure ≠ none → a.entries.Within v.entries ∧ a.sells.Within v.sells) → Behind event.eventSeq v' a := by
    intro v' hentries hsells' hkept hclosure hclosure' hclosed
    exact ⟨hentries ▸ hbehind.entries, hsells' ▸ hbehind.sells, hkept.completed ▸ hbehind.completed, hclosure,
      hkept.report ▸ hbehind.report, hentries ▸ hadmitted.hasEntries, hsells' ▸ hsells, hclosure',
      fun hne => hentries ▸ hsells' ▸ hclosed hne⟩
  have hcompleted : Meets (completedAt m event (v.soldAt event.eventSeq)) v inv fun found v' =>
      found = trades ∧ v' = v := by
    unfold completedAt
    unfold tradesAt at hfetched
    split_ifs at hfetched ⊢ with hsold
    · exact Durable.meets_read hfetched ⟨rfl, rfl⟩
    · exact meets_pure ⟨(Except.ok.inj hfetched), rfl⟩
  refine meets_lift_bind hfound (meets_bind hcompleted fun trades' v' hsame => ?_)
  rw [hsame.1, hsame.2, hlength]
  cases hopen : mem.closure with
  | some closure =>
    have hclosed : v.closure = some closure := hadmitted.holds.closure.symm.trans hopen
    refine meets_pure ⟨⟨hadmitted.holds.entries, hclosed.symm⟩, ?_, hadmitted.kept⟩
    refine hdone v rfl rfl (.refl v) hbehind.closure (fun closure' hc _ => ?_) hbehind.closed
    rw [hclosed, ← hbehind.closure closure hclosed, hc]
  | none =>
    have hfree : v.closure = none := hadmitted.holds.closure.symm.trans hopen
    have hcond : (Option.isNone (none : Option Closure) && (decide (hardCapDays ≤ days.dedup.length) ||
        decide (hardCapCompleted ≤ trades.length))) = true ↔ Capped (days.dedup.length, trades.length) := by
      simp [Capped]
    by_cases hcapped : Capped (days.dedup.length, trades.length)
    · rw [if_pos (hcond.2 hcapped)]
      have hclosure := hcap hcapped
      have hwritten : Meets (immutableClosure ⟨event.eventSeq, event.at_, days.dedup.length⟩) v inv fun _ v' =>
          v' = { v with closure := some ⟨event.eventSeq, event.at_, days.dedup.length⟩ } := by
        refine immutable_meets (fun old hold => ?_) fun _ => ⟨hinv v hbehind hadmitted.kept, rfl⟩
        rw [hfree] at hold
        cases hold
      refine meets_bind hwritten fun _ v' hv' => meets_pure ?_
      rw [hv']
      refine ⟨⟨hadmitted.holds.entries, rfl⟩, ?_, hadmitted.kept.trans ⟨rfl, rfl, rfl⟩⟩
      refine hdone _ rfl rfl ⟨rfl, rfl, rfl⟩ (fun closure' hc => hclosure.trans hc)
        (fun closure' hc _ => hclosure.symm.trans hc) fun _ => ⟨fun k entry hk => ?_, fun k record hk => ?_⟩
      · exact hadmitted.hasEntries k entry hk ((hlast _ hclosure).1 k entry hk)
      · exact hsells k record hk ((hlast _ hclosure).2 k record hk)
    · rw [if_neg fun h => hcapped (hcond.1 h)]
      refine meets_pure ⟨⟨hadmitted.holds.entries, hfree.symm⟩, ?_, hadmitted.kept⟩
      exact hdone v rfl rfl (.refl v) hbehind.closure
        (fun closure' hc hle => absurd (hno hcapped closure' hc) hle.not_gt) hbehind.closed

end Sale

/-! ## The loop -/

section Loop

variable {m : Machine} {manifest : Manifest} {env : Env} {mem memA : Memory} {event : ControlEvent}
  {v v₀ a : Sidecar} {inv : Sidecar → Prop} {c : ℤ}

/-- The records of a finished call: they explain the events after `c`, and its loop has ended. -/
structure Finished (m : Machine) (manifest : Manifest) (env : Env) (c : ℤ) (mem : Memory) (a : Sidecar) : Prop where
  tidy : Tidy m mem a
  readable : Readable m a
  contiguous : ∀ s, c < s → s ≤ mem.cursor → ∃ event ∈ env.ledger.events, event.eventSeq = s
  explained : ∀ event ∈ env.ledger.events, c < event.eventSeq → event.eventSeq ≤ mem.cursor →
    Explained m manifest env a event
  atEnd : AtEnd m manifest env mem

variable (hsound : Sound env.ledger) (hfinished : Finished m manifest env c memA a) (hmem : Holds m mem v)
  (hbehind : Behind mem.cursor v a) (hcursor : c ≤ mem.cursor) (hkept : Kept v₀ v)
  (hinv : ∀ v', Behind c v' a → Kept v₀ v' → inv v')

include hfinished hmem hbehind in
/-- At the end of the finished call the records are the same. -/
theorem holds_of_cursor_eq (heq : mem.cursor = memA.cursor) : Holds m mem a := by
  have hentries : v.entries = a.entries := hbehind.entries.antisymm fun k entry hk =>
    hbehind.hasEntries k entry hk (heq ▸ hfinished.tidy.entrySeq k entry hk)
  have hclosure : v.closure = a.closure := by
    cases hc : a.closure with
    | some closure => exact hbehind.hasClosure closure hc (heq ▸ hfinished.tidy.closure closure hc).le
    | none =>
      cases hv : v.closure with
      | none => rfl
      | some closure =>
        rw [hbehind.closure closure hv] at hc
        cases hc
  exact ⟨hentries ▸ hmem.entries, hmem.closure.trans hclosure⟩

include hsound hfinished hmem hbehind hcursor hkept hinv in
/-- An event that the finished call has processed is processed again. -/
theorem observeEvent_meets (hevent : event ∈ env.ledger.events) (hseq : event.eventSeq = mem.cursor + 1)
    (hle : event.eventSeq ≤ memA.cursor) :
    Meets (observeEvent m manifest env mem event) v inv fun result v' => ∃ mem', result = some mem' ∧
      mem'.cursor = event.eventSeq ∧ Holds m mem' v' ∧ Behind event.eventSeq v' a ∧ Kept v₀ v' := by
  have hexplained := hfinished.explained event hevent (by omega) hle
  have hopen : (mem.closure.any fun closure => closure.endEventSeq < event.eventSeq) = false := by
    cases hclosure : mem.closure with
    | none => rfl
    | some closure =>
      have hend := hfinished.tidy.closure closure (hbehind.closure closure (hmem.closure ▸ hclosure))
      rw [Option.any_some, hend]
      exact decide_eq_false (not_lt.2 hle)
  -- an entry of the position that is sold was bought by an earlier event
  have hfirst : ∀ sell k entry, event.body = .sell sell → a.entries.get? k = some entry →
      entry.positionId = sell.positionId → entry.buyEventSeq ≤ event.eventSeq := by
    intro sell k entry hbody hk hposition
    by_contra hlt
    obtain ⟨event', hevent', heq⟩ := hfinished.contiguous entry.buyEventSeq (by omega)
      (hfinished.tidy.entrySeq k entry hk)
    obtain ⟨buy, hbody', -, hposition'⟩ := (hfinished.explained event' hevent' (by omega)
      (heq ▸ hfinished.tidy.entrySeq k entry hk)).entries k entry hk heq.symm
    have := hsound.boughtFirst event hevent event' hevent' sell buy hbody hbody' (hposition.symm.trans hposition')
    omega
  have hlast : ∀ closure, a.closure = some closure →
      (∀ k entry, a.entries.get? k = some entry → entry.buyEventSeq ≤ closure.endEventSeq) ∧
        ∀ k record, a.sells.get? k = some record → record.eventSeq ≤ closure.endEventSeq := by
    intro closure hclosure
    rw [hfinished.tidy.closure closure hclosure]
    exact ⟨hfinished.tidy.entrySeq, hfinished.tidy.sellSeq⟩
  have hinv' : ∀ v', Behind mem.cursor v' a → Kept v v' → inv v' := fun v' hv' hk =>
    hinv v' (hv'.mono hcursor) (hkept.trans hk)
  unfold observeEvent
  rw [hopen, if_neg Bool.false_ne_true, if_neg (not_not.2 hseq)]
  refine meets_bind (admission_meets hexplained hfinished.readable hmem hbehind hseq hinv') ?_
  rintro _ v₁ ⟨entries, rfl, hadmitted⟩
  refine meets_bind (recordSale_meets hexplained hfinished.readable hadmitted hseq hinv' hfirst) ?_
  rintro _ v₂ ⟨hadmitted₂, rfl, hsells⟩
  refine meets_bind (close_meets hexplained hfinished.readable hadmitted₂ hinv' hsells hlast) ?_
  rintro closure v₃ ⟨hmem₃, hbehind₃, hkept₃⟩
  exact meets_pure ⟨_, rfl, rfl, hmem₃, hbehind₃, hkept.trans hkept₃⟩

include hsound hfinished hmem hbehind in
/-- Before an event after the end of the finished call, the loop ends too. -/
theorem observeEvent_meets_end {events : List ControlEvent} (heq : mem.cursor = memA.cursor)
    (hevents : eventsAfter env mem.cursor = event :: events) :
    Meets (observeEvent m manifest env mem event) v inv fun result v' => result = none ∧ v' = v := by
  have hmemA := holds_of_cursor_eq hfinished hmem hbehind heq
  obtain ⟨-, -, hlt, -⟩ := hsound.eventsAfter_cons hevents
  have hsame : mem.closure = memA.closure := hmemA.closure.trans hfinished.tidy.holds.closure.symm
  unfold observeEvent
  rcases hfinished.atEnd with ⟨closure, hclosure, hend⟩ | ⟨-, hnone | ⟨event', events', hevents', hseq, hstalls⟩⟩
  · rw [hsame, hclosure, Option.any_some, hend, ← heq, decide_eq_true hlt, if_pos rfl]
    exact meets_pure ⟨rfl, rfl⟩
  · rw [← heq, hevents] at hnone
    cases hnone
  · rw [← heq, hevents] at hevents'
    obtain ⟨rfl, rfl⟩ := List.cons.inj hevents'
    obtain ⟨hopen, buy, snapshot, hbody, heligible, hsnapshot, hempty, hwaits⟩ :=
      hstalls.congr hfinished.tidy.holds hmemA
    have hstall : Meets (admission m manifest env mem event) v inv fun result v' => result = none ∧ v' = v := by
      unfold admission
      rw [hbody]
      dsimp only
      rw [hopen, heligible]
      refine meets_lift_bind hsnapshot ?_
      rw [hempty, hwaits]
      exact meets_pure ⟨rfl, rfl⟩
    rw [hopen, Option.any_none, if_neg Bool.false_ne_true, if_neg (not_not.2 (heq ▸ hseq))]
    refine meets_bind hstall fun result v' hresult => ?_
    rw [hresult.1, hresult.2]
    exact meets_pure ⟨rfl, rfl⟩

include hsound hfinished hinv in
/-- The loop repeats what the finished call has done and ends where it ended. -/
theorem observeEvents_meets : ∀ {events : List ControlEvent} {mem : Memory} {v : Sidecar},
    eventsAfter env mem.cursor = events → c ≤ mem.cursor → mem.cursor ≤ memA.cursor → Holds m mem v →
    Behind mem.cursor v a → Kept v₀ v →
    Meets (observeEvents m manifest env events mem) v inv fun mem' v' =>
      mem'.cursor = memA.cursor ∧ Holds m mem' v' ∧ Behind memA.cursor v' a ∧ Kept v₀ v'
  | [], mem, v, hevents, hcursor, hle, hmem, hbehind, hkept => by
    have heq : mem.cursor = memA.cursor := by
      by_contra hne
      obtain ⟨event, hevent, hseq⟩ := hfinished.contiguous (mem.cursor + 1) (by omega) (by omega)
      have hafter := hsound.mem_eventsAfter.2 ⟨hevent, (by omega : mem.cursor < event.eventSeq)⟩
      rw [hevents] at hafter
      exact List.not_mem_nil hafter
    exact meets_pure ⟨heq, hmem, heq ▸ hbehind, hkept⟩
  | event :: events, mem, v, hevents, hcursor, hle, hmem, hbehind, hkept => by
    rcases hle.eq_or_lt with heq | hlt
    · refine meets_bind (observeEvent_meets_end hsound hfinished hmem hbehind heq hevents) fun result v' hresult => ?_
      rw [hresult.1, hresult.2]
      exact meets_pure ⟨heq, hmem, heq ▸ hbehind, hkept⟩
    · obtain ⟨hafter, hevent, hfirst, hleast⟩ := hsound.eventsAfter_cons hevents
      have hseq : event.eventSeq = mem.cursor + 1 := by
        obtain ⟨next, hnext, heq⟩ := hfinished.contiguous (mem.cursor + 1) (by omega) (by omega)
        have := hleast next hnext (by omega)
        omega
      refine meets_bind (observeEvent_meets hsound hfinished hmem hbehind hcursor hkept hinv hevent hseq
        (by omega)) ?_
      rintro _ v' ⟨mem', rfl, hcursor', hmem', hbehind', hkept'⟩
      show Meets (if _ then _ else _) v' inv _
      split_ifs with hclosed
      · obtain ⟨closure, hclosure, hend⟩ := (Option.any_eq_true ..).1 hclosed
        have hend' := hfinished.tidy.closure closure (hbehind'.closure closure (hmem'.closure ▸ hclosure))
        have heq : mem'.cursor = memA.cursor := by
          have := of_decide_eq_true hend
          omega
        exact meets_pure ⟨heq, hmem', heq ▸ hcursor' ▸ hbehind', hkept'⟩
      · exact observeEvents_meets (hcursor' ▸ hafter) (by omega) (by omega) hmem' (hcursor' ▸ hbehind') hkept'

end Loop

end Aibot.N3
