/-
The cohort mirrors the ledger: its entries are the eligible BUYs, and what it counts as completed is a closed
account of the Control, with the profit that the ledger has for it.
-/
import Aibot.N3.Control

namespace Aibot.N3

open Durable (Returns)
open Risk (buys sellsOf soldAmountOf proceedsOf realizedPnlOf NotOpen)

/-! ## Explained events of the ledger -/

section Mirrors

variable {m : Machine} {manifest : Manifest} {notes : Notes} {w w' : Risk.World} {pending : Option Env} {env : Env}
  {mem mem' : Memory} {trades trades' : List Trade} {a b a' : Sidecar} {next : ObserverState}

/-- Every recorded event up to the cursor is explained, and there are no records of other events. -/
structure Mirrors (m : Machine) (manifest : Manifest) (notes : Notes) (w : Risk.World) (cursor : ℤ) (a : Sidecar) :
    Prop where
  begun : manifest.startEventSeq ≤ cursor + 1
  reached : cursor ≤ w.recorded.length ∨ cursor = manifest.startEventSeq - 1
  explained : ∀ event ∈ w.recorded, manifest.startEventSeq ≤ event.eventSeq → event.eventSeq ≤ cursor →
    ∃ env, Explained m manifest env a (controlEvent notes event)
  entries : ∀ k entry, a.entries.get? k = some entry → ∃ event ∈ w.recorded,
    manifest.startEventSeq ≤ event.eventSeq ∧ event.eventSeq ≤ cursor ∧ entry.buyEventSeq = event.eventSeq
  sells : ∀ k record, a.sells.get? k = some record → ∃ event ∈ w.recorded,
    manifest.startEventSeq ≤ event.eventSeq ∧ event.eventSeq ≤ cursor ∧ record.eventSeq = event.eventSeq

theorem mirrors_start (w : Risk.World) : Mirrors m manifest notes w (initialState manifest).cursor .empty where
  begun := (sub_add_cancel manifest.startEventSeq 1).ge
  reached := .inr rfl
  explained event _ hstart hle := by
    have hcursor : (initialState manifest).cursor = manifest.startEventSeq - 1 := rfl
    omega
  entries k entry hk := by cases hk
  sells k record hk := by cases hk

theorem Mirrors.trade (h : Mirrors m manifest notes w mem.cursor a) {op : Risk.Op} (hstep : w.step op = some w')
    (htrail : Risk.Trail w) : Mirrors m manifest notes w' mem.cursor a := by
  obtain ⟨new, happends⟩ := Risk.step_appends hstep
  have hsub : ∀ event ∈ w.recorded, event ∈ w'.recorded := fun event hevent =>
    happends.recorded ▸ List.mem_append_left new hevent
  have hlength : w.recorded.length ≤ w'.recorded.length := by
    rw [happends.recorded, List.length_append]
    exact Nat.le_add_right ..
  refine ⟨h.begun, ?_, fun event hevent hstart hle => ?_, fun k entry hk => ?_, fun k record hk => ?_⟩
  · rcases h.reached with hle | heq
    · exact .inl (hle.trans (Int.ofNat_le.2 hlength))
    · exact .inr heq
  · refine h.explained event ?_ hstart hle
    rw [happends.recorded, List.mem_append] at hevent
    refine hevent.resolve_right fun hnew => ?_
    -- a new event has a number that none has reached
    have hseq : event.eventSeq ∈ List.range' w.ledger.nextEventSeq new.length :=
      happends.seqs ▸ List.mem_map_of_mem hnew
    have hnext := (List.mem_range'_1.1 hseq).1
    rw [htrail.next] at hnext
    rcases h.reached with hreached | heq
    · omega
    · omega
  · obtain ⟨event, hevent, hrest⟩ := h.entries k entry hk
    exact ⟨event, hsub event hevent, hrest⟩
  · obtain ⟨event, hevent, hrest⟩ := h.sells k record hk
    exact ⟨event, hsub event hevent, hrest⟩

/-- A call explains the events that it has processed. -/
theorem Mirrors.called (h : Mirrors m manifest notes w mem.cursor a) (htrail : Risk.Trail w)
    (hledger : env.ledger = controlLedger notes w.ledger)
    (hcalled : Called m manifest env mem a next mem' trades' a') :
    Mirrors m manifest notes w mem'.cursor a' := by
  have hle := hcalled.cursor
  have hbegun := h.begun
  -- the events after the old cursor are those of the ledger that was read
  have hfound : ∀ s, mem.cursor < s → s ≤ mem'.cursor → ∃ event ∈ w.recorded, (event.eventSeq : ℤ) = s ∧
      controlEvent notes event ∈ env.ledger.events := by
    intro s hs hs'
    obtain ⟨read, hread, heq⟩ := hcalled.finished.contiguous s hs hs'
    rw [hledger] at hread ⊢
    obtain ⟨event, hevent, rfl⟩ := List.mem_map.1 hread
    exact ⟨event, htrail.kept.subset hevent, heq, List.mem_map_of_mem hevent⟩
  refine ⟨by omega, ?_, fun event hevent hstart hle' => ?_, fun k entry hk => ?_, fun k record hk => ?_⟩
  · rcases hle.eq_or_lt with heq | hlt
    · exact heq ▸ h.reached
    · obtain ⟨event, hevent, heq, -⟩ := hfound mem'.cursor hlt le_rfl
      have hseq : event.eventSeq ∈ List.range' 1 w.recorded.length := htrail.seqs ▸ List.mem_map_of_mem hevent
      have := (List.mem_range'_1.1 hseq).2
      exact .inl (by omega)
  · rcases le_or_gt (event.eventSeq : ℤ) mem.cursor with hold | hnew
    · obtain ⟨env₀, hexplained⟩ := h.explained event hevent hstart hold
      exact ⟨env₀, hexplained.mono (hcalled.extends_.mono hold) hcalled.finished.readable (.refl env₀)⟩
    · obtain ⟨event', hevent', heq, hread⟩ := hfound event.eventSeq hnew hle'
      obtain rfl := eq_of_trail htrail hevent' hevent (Int.ofNat_inj.1 heq)
      exact ⟨env, hcalled.finished.explained _ hread hnew hle'⟩
  · rcases hcalled.extends_.newEntries k entry hk with hold | hnew
    · obtain ⟨event, hevent, hstart, hle', heq⟩ := h.entries k entry hold
      exact ⟨event, hevent, hstart, hle'.trans hle, heq⟩
    · obtain ⟨event, hevent, heq, -⟩ := hfound entry.buyEventSeq hnew (hcalled.settled.tidy.entrySeq k entry hk)
      have hle' := hcalled.settled.tidy.entrySeq k entry hk
      exact ⟨event, hevent, by omega, by omega, heq.symm⟩
  · rcases hcalled.extends_.newSells k record hk with hold | hnew
    · obtain ⟨event, hevent, hstart, hle', heq⟩ := h.sells k record hold
      exact ⟨event, hevent, hstart, hle'.trans hle, heq⟩
    · obtain ⟨event, hevent, heq, -⟩ := hfound record.eventSeq hnew (hcalled.settled.tidy.sellSeq k record hk)
      have hle' := hcalled.settled.tidy.sellSeq k record hk
      exact ⟨event, hevent, by omega, by omega, heq.symm⟩

theorem Joint.mirrors (h : Joint m manifest notes w pending a b) :
    ∃ mem trades, Synced m manifest pending mem trades a b ∧ Mirrors m manifest notes w mem.cursor a := by
  induction h with
  | start =>
    obtain ⟨mem, trades, hsynced⟩ := synced_start
    refine ⟨mem, trades, hsynced, ?_⟩
    rw [← hsynced.cursor]
    exact mirrors_start _
  | trade h hstep ih =>
    obtain ⟨mem, trades, hsynced, hmirrors⟩ := ih
    exact ⟨mem, trades, hsynced, hmirrors.trade hstep h.follows.1.trail⟩
  | returns h hnext ha hb ih =>
    obtain ⟨mem, trades, hsynced, hmirrors⟩ := ih
    obtain ⟨hcontinues, hsound⟩ := h.follows.1.continues hnext
    obtain ⟨mem', trades', hcalled, hsynced'⟩ := hsynced.returns hcontinues hsound ha hb
    exact ⟨mem', trades', hsynced', hmirrors.called h.follows.1.trail hnext.ledger hcalled⟩
  | cut h hnext ha hv ih =>
    obtain ⟨mem, trades, hsynced, hmirrors⟩ := ih
    obtain ⟨hcontinues, hsound⟩ := h.follows.1.continues hnext
    obtain ⟨mem', trades', hcalled, hsynced'⟩ := hsynced.cut hcontinues hsound ha hv
    exact ⟨mem', trades', hsynced', hmirrors.called h.follows.1.trail hnext.ledger hcalled⟩

end Mirrors

/-! ## Entries and sales -/

section Sales

variable {m : Machine} {manifest : Manifest} {notes : Notes} {w : Risk.World} {mem : Memory} {trades : List Trade}
  {a : Sidecar} {cursor : ℤ} {k : String} {entry : Entry} {event : Risk.Event} {r : Risk.BuyRecord}
  {id : Risk.Uuid}

/-- The entry is that of the BUY. -/
structure EntryOf (notes : Notes) (seq : ℕ) (r : Risk.BuyRecord) (entry : Entry) : Prop where
  positionId : entry.positionId = notes.idText r.positionId
  buyEventSeq : entry.buyEventSeq = seq
  cost : entry.entryCostLamports = r.costLamports
  amount : entry.entryTokenAmountRaw = r.tokenAmountRaw

theorem entryOf_of_record {manifest : Manifest} {snapshot : Store.JsonDocument} {seq : ℕ}
    (h : entryRecord manifest seq (controlBuy notes seq r) snapshot = .ok entry) : EntryOf notes seq r entry := by
  obtain ⟨hposition, hseq, -, hcost, hamount⟩ := entryRecord_eq_ok h
  exact ⟨hposition, hseq, hcost, hamount⟩

/-- An eligible BUY up to the cursor has its entry. -/
theorem Mirrors.entry_of_buy (h : Mirrors m manifest notes w cursor a) (hevent : event ∈ w.recorded)
    (hbody : event.body = .buy r)
    (heligible : eligible m manifest event.eventSeq (controlBuy notes event.eventSeq r) = true)
    (hle : event.eventSeq ≤ cursor) :
    ∃ entry, a.entries.get? (m.fileName (notes.idText r.positionId)) = some entry ∧
      EntryOf notes event.eventSeq r entry := by
  obtain ⟨stamp, -, hstamp⟩ := (Option.any_eq_true ..).1 heligible
  rw [Bool.and_eq_true, decide_eq_true_iff, decide_eq_true_iff] at hstamp
  obtain ⟨env, hexplained⟩ := h.explained event hevent hstamp.2 hle
  have hread : (controlEvent notes event).body = .buy (controlBuy notes event.eventSeq r) := by
    show controlBody notes event.eventSeq event.body = _
    rw [hbody]
    rfl
  obtain ⟨entry, hentry, hadmits⟩ := hexplained.bought _ hread heligible
  exact ⟨entry, hentry, entryOf_of_record hadmits.record⟩

/-- An entry is that of an eligible BUY. -/
theorem Mirrors.buy_of_entry (h : Mirrors m manifest notes w cursor a) (hnamed : Named m Entry.positionId a.entries)
    (hk : a.entries.get? k = some entry) : ∃ event ∈ w.recorded, ∃ r, event.body = .buy r ∧
      eligible m manifest event.eventSeq (controlBuy notes event.eventSeq r) = true ∧
      manifest.startEventSeq ≤ event.eventSeq ∧ EntryOf notes event.eventSeq r entry := by
  obtain ⟨event, hevent, hstart, hle, heq⟩ := h.entries k entry hk
  obtain ⟨env, hexplained⟩ := h.explained event hevent hstart hle
  obtain ⟨buy, hbody, heligible, hposition⟩ := hexplained.entries k entry hk heq
  obtain ⟨entry', hentry', hadmits⟩ := hexplained.bought buy hbody heligible
  obtain rfl := hnamed.eq_of_identity hk hentry' (hposition.trans hadmits.positionId.symm)
  obtain ⟨r, hr, rfl⟩ := controlBody_buy hbody
  exact ⟨event, hevent, r, hr, heligible, hstart, entryOf_of_record hadmits.record⟩

/-- The record that a sale of the position leaves. -/
def saleOf (notes : Notes) (id : Risk.Uuid) (event : Risk.Event) : Option SellRecord :=
  (event.body.sell?.filter fun r => r.positionId = id).map fun r =>
    saleRecord (controlEvent notes event) (controlSell notes event.eventSeq r)

/-- The events up to a number. -/
def eventsTo (w : Risk.World) (cursor : ℤ) : List Risk.Event := w.recorded.filter fun event => event.eventSeq ≤ cursor

theorem saleOf_eq_some {record : SellRecord} : saleOf notes id event = some record ↔
    ∃ r, event.body = .sell r ∧ r.positionId = id ∧
      record = saleRecord (controlEvent notes event) (controlSell notes event.eventSeq r) := by
  unfold saleOf
  rw [Option.map_eq_some_iff]
  constructor
  · rintro ⟨r, hr, rfl⟩
    obtain ⟨hsell, hid⟩ := Option.filter_eq_some_iff.1 hr
    cases hbody : event.body with
    | sell r' =>
      rw [hbody] at hsell
      obtain rfl := Option.some.inj hsell
      exact ⟨r', rfl, of_decide_eq_true hid, rfl⟩
    | buy | signalRejected | skippedByRpcError | transactionLifecycle =>
      rw [hbody] at hsell
      cases hsell
  · rintro ⟨r, hbody, hid, rfl⟩
    refine ⟨r, Option.filter_eq_some_iff.2 ⟨?_, decide_eq_true hid⟩, rfl⟩
    rw [hbody]
    rfl

/-- The sale records of an entry are those of the sales of its position. -/
theorem Mirrors.legs_perm (h : Mirrors m manifest notes w mem.cursor a) (htidy : Tidy m mem a)
    (htrail : Risk.Trail w) (hordered : Ordered w) (hevent : event ∈ w.recorded) (hbody : event.body = .buy r)
    (hentry : a.entries.get? (m.fileName (notes.idText r.positionId)) = some entry)
    (hof : EntryOf notes event.eventSeq r entry) (hstart : manifest.startEventSeq ≤ event.eventSeq) :
    (legsOf (a.sellsTo mem.cursor) entry.positionId).Perm
      ((eventsTo w mem.cursor).filterMap (saleOf notes r.positionId)) := by
  refine (List.mergeSort_perm _ _).trans ?_
  rw [List.perm_ext_iff_of_nodup]
  · intro record
    rw [List.mem_filter, Sidecar.sellsTo, List.mem_filter, List.mem_filterMap]
    constructor
    · rintro ⟨⟨hmem, -⟩, hposition⟩
      obtain ⟨k, hk⟩ := Directory.mem_values.1 hmem
      obtain ⟨event', hevent', hstart', hle', heq⟩ := h.sells k record hk
      obtain ⟨env, hexplained⟩ := h.explained event' hevent' hstart' hle'
      obtain ⟨hsell, hrecord, -⟩ := hexplained.sells k record hk heq
      obtain ⟨r', hr', hsell'⟩ := controlBody_sell hsell
      refine ⟨event', List.mem_filter.2 ⟨hevent', decide_eq_true hle'⟩, saleOf_eq_some.2 ⟨r', hr', ?_, ?_⟩⟩
      · refine notes.idText_injective ?_
        rw [← hof.positionId, ← of_decide_eq_true hposition, hsell']
        rfl
      · rw [← hsell']
        exact hrecord
    · rintro ⟨event', hmem, hsale⟩
      obtain ⟨hevent', hle'⟩ := List.mem_filter.1 hmem
      obtain ⟨r', hr', hid, rfl⟩ := saleOf_eq_some.1 hsale
      have hle' := of_decide_eq_true hle'
      have hlt := hordered.lt_of_sold htrail hevent' hevent hr' hbody hid
      obtain ⟨env, hexplained⟩ := h.explained event' hevent' (by omega) hle'
      have hread : (controlEvent notes event').body = .sell (controlSell notes event'.eventSeq r') := by
        show controlBody notes event'.eventSeq event'.body = _
        rw [hr']
        rfl
      have hname : notes.idText r'.positionId = notes.idText r.positionId := by rw [hid]
      have hentry' : a.entries.get? (m.fileName (notes.idText r'.positionId)) = some entry := by
        rw [hname]
        exact hentry
      have hget := hexplained.sold (controlSell notes event'.eventSeq r') entry hread hentry'
        (hof.positionId.trans hname.symm) (by rw [hof.buyEventSeq]; exact Int.ofNat_le.2 hlt.le)
      refine ⟨⟨Directory.mem_values.2 ⟨_, hget⟩, decide_eq_true hle'⟩, decide_eq_true ?_⟩
      exact hname.trans hof.positionId.symm
  · exact (htidy.sells.nodup_values.filter _).filter _
  · refine List.pairwise_filterMap.2 ((List.pairwise_map.1 (increasing_of_trail htrail)).filter _ |>.imp ?_)
    intro x y hlt record hx record' hy heq
    obtain ⟨_, -, -, hx⟩ := saleOf_eq_some.1 hx
    obtain ⟨_, -, -, hy⟩ := saleOf_eq_some.1 hy
    rw [hx, hy] at heq
    exact hlt.ne (Int.ofNat_inj.1 (congrArg SellRecord.eventSeq heq))

end Sales

/-! ## Completed trades -/

section Completed

variable {m : Machine} {manifest : Manifest} {notes : Notes} {w : Risk.World} {pending : Option Env} {mem : Memory}
  {trades : List Trade} {a b : Sidecar} {cursor : ℤ} {entry : Entry} {event : Risk.Event} {r : Risk.BuyRecord}
  {id : Risk.Uuid} {legs : List SellRecord}

/-- The records of the sales carry their figures. -/
theorem sum_legs {f : SellRecord → ℤ} {g : Risk.SellRecord → ℤ} (hfg : ∀ event r,
      f (saleRecord (controlEvent notes event) (controlSell notes event.eventSeq r)) = g r)
    (hperm : legs.Perm ((eventsTo w cursor).filterMap (saleOf notes id))) :
    (legs.map f).sum = ((sellsOf (eventsTo w cursor) id).map g).sum := by
  rw [(hperm.map f).sum_eq, List.map_filterMap, sellsOf, Risk.sells, List.filter_filterMap, List.map_filterMap]
  refine congrArg List.sum (List.filterMap_congr fun event _ => ?_)
  unfold saleOf
  rw [Option.map_map]
  exact congrArg (Option.map · _) (funext fun r => hfg event r)

theorem length_legs (hperm : legs.Perm ((eventsTo w cursor).filterMap (saleOf notes id))) :
    legs.length = (sellsOf (eventsTo w cursor) id).length := by
  have hsum := sum_legs (f := fun _ => 1) (g := fun _ => 1) (fun _ _ => rfl) hperm
  simpa using hsum

theorem sellsOf_sublist (w : Risk.World) (cursor : ℤ) (id : Risk.Uuid) :
    (sellsOf (eventsTo w cursor) id).Sublist (sellsOf w.recorded id) :=
  (List.filter_sublist.filterMap _).filter _

/-- No more is sold of a position than was bought, and all of it only where the account is closed. -/
theorem soldAmountOf_le (hbooks : Risk.Books w) (hr : r ∈ buys w.recorded) :
    soldAmountOf w.recorded r.positionId ≤ r.tokenAmountRaw ∧
      (soldAmountOf w.recorded r.positionId = r.tokenAmountRaw ↔ NotOpen w r.positionId) := by
  by_cases hopen : NotOpen w r.positionId
  · have hamount := (hbooks.closed r hr hopen).amount
    exact ⟨hamount.le, iff_of_true hamount hopen⟩
  · obtain ⟨mint, p, hp, hid⟩ : ∃ mint p, w.ledger.position? mint = some p ∧ p.positionId = r.positionId := by
      by_contra hno
      exact hopen fun mint p hp hid => hno ⟨mint, p, hp, hid⟩
    have haccount := hbooks.opened mint p hp
    obtain ⟨b, hb, -, hbid, -, hbamount⟩ := haccount.bought
    obtain rfl := List.inj_on_of_nodup_map hbooks.buyOnce hb hr (hbid.trans hid)
    have hamount := haccount.amount
    have hpos := haccount.amountPos
    rw [hid] at hamount
    exact ⟨by omega, iff_of_false (by omega) hopen⟩

theorem isSome_of_tradeOf {sells : List SellRecord} {found : Option Trade} (h : tradeOf sells entry = .ok found)
    (hamount : soldAmount (legsOf sells entry.positionId) = entry.entryTokenAmountRaw) :
    ∃ trade, found = some trade := by
  cases found with
  | some trade => exact ⟨trade, rfl⟩
  | none =>
    unfold tradeOf at h
    rw [if_neg hamount.le.not_gt, if_neg (not_not.2 hamount)] at h
    dsimp only at h
    split_ifs at h
    all_goals
      obtain ⟨normalized, -, h⟩ := bind_ok h
      obtain ⟨delta, -, h⟩ := bind_ok h
      obtain ⟨last, -, h⟩ := bind_ok h
      cases Except.ok.inj h

variable (hmirrors : Mirrors m manifest notes w mem.cursor a) (hsettled : Settled m manifest mem trades a)
  (hfollows : Follows notes w pending)

include hmirrors hsettled hfollows in
/-- The sales of an entry up to the cursor, in the records and in the ledger. -/
theorem legs_of_entry {k : String} (hk : a.entries.get? k = some entry) : ∃ event ∈ w.recorded, ∃ r,
    event.body = .buy r ∧ r ∈ buys w.recorded ∧ EntryOf notes event.eventSeq r entry ∧
      (legsOf (a.sellsTo mem.cursor) entry.positionId).Perm
        ((eventsTo w mem.cursor).filterMap (saleOf notes r.positionId)) := by
  obtain ⟨event, hevent, r, hbody, -, hstart, hof⟩ := hmirrors.buy_of_entry hsettled.tidy.entries hk
  rw [← hsettled.tidy.entries k entry hk, hof.positionId] at hk
  refine ⟨event, hevent, r, hbody, List.mem_filterMap.2 ⟨event, hevent, ?_⟩, hof, hmirrors.legs_perm hsettled.tidy
    hfollows.trail hfollows.ordered hevent hbody hk hof hstart⟩
  rw [hbody]
  rfl

/-- A completed trade is a closed account of the ledger. -/
structure AccountOf (notes : Notes) (w : Risk.World) (r : Risk.BuyRecord) (trade : Trade) : Prop where
  positionId : trade.entry.positionId = notes.idText r.positionId
  closed : NotOpen w r.positionId
  pnl : trade.realizedPnlLamports = realizedPnlOf w.recorded r.positionId
  proceeds : trade.realizedPnlLamports = proceedsOf w.recorded r.positionId - r.costLamports
  sales : trade.sellEventCount = (sellsOf w.recorded r.positionId).length

include hmirrors hsettled hfollows in
theorem account_of_trade {trade : Trade} (htrade : trade ∈ trades) :
    ∃ r ∈ buys w.recorded, AccountOf notes w r trade := by
  obtain ⟨hentry, hof⟩ := (mem_completedTrades hsettled.found).1 htrade
  obtain ⟨k, hk⟩ := Directory.mem_values.1 (List.mem_filter.1 hentry).1
  obtain ⟨event, -, r, -, hr, hentryOf, hperm⟩ := legs_of_entry hmirrors hsettled hfollows hk
  obtain ⟨hamount, -, hpnl, hcount⟩ := tradeOf_eq_some hof
  obtain ⟨hle, hiff⟩ := soldAmountOf_le hfollows.books hr
  have hsold : ((sellsOf (eventsTo w mem.cursor) r.positionId).map Risk.SellRecord.tokenAmountRaw).sum =
      r.tokenAmountRaw := by
    rw [← sum_legs (f := fun record => record.sell.tokenAmountRaw) (fun _ _ => rfl) hperm, ← hentryOf.amount]
    exact hamount
  -- nothing is left to sell after the cursor
  have hall : sellsOf (eventsTo w mem.cursor) r.positionId = sellsOf w.recorded r.positionId := by
    refine sublist_eq_of_sum_le (sellsOf_sublist w mem.cursor r.positionId) (fun s hs => ?_) (hsold.symm ▸ hle)
    exact hfollows.ordered.positive s (List.mem_filter.1 hs).1
  rw [hall] at hsold
  have hclosed := hiff.1 hsold
  have hrealized : trade.realizedPnlLamports = realizedPnlOf w.recorded r.positionId := by
    rw [hpnl, sum_legs (fun _ _ => rfl) hperm, hall]
    rfl
  refine ⟨r, hr, hentryOf.positionId, hclosed, hrealized, ?_, ?_⟩
  · rw [hrealized]
    exact (hfollows.books.closed r hr hclosed).pnl
  · rw [hcount, length_legs hperm, hall]

include hmirrors hsettled hfollows in
/-- An entry whose account was closed by sales up to the cursor is a completed trade. -/
theorem trade_of_account {k : String} (hk : a.entries.get? k = some entry) (hr : r ∈ buys w.recorded)
    (hposition : entry.positionId = notes.idText r.positionId) (hclosed : NotOpen w r.positionId)
    (hsales : ∀ event ∈ w.recorded, ∀ s, event.body = .sell s → s.positionId = r.positionId →
      event.eventSeq ≤ mem.cursor) : ∃ trade ∈ trades, trade.entry = entry := by
  obtain ⟨event, -, r', -, hr', hentryOf, hperm⟩ := legs_of_entry hmirrors hsettled hfollows hk
  obtain rfl := List.inj_on_of_nodup_map hfollows.books.buyOnce hr' hr
    (notes.idText_injective (hentryOf.positionId.symm.trans hposition))
  have hall : (sellsOf (eventsTo w mem.cursor) r'.positionId) = sellsOf w.recorded r'.positionId := by
    unfold sellsOf Risk.sells eventsTo
    rw [List.filter_filterMap, List.filter_filterMap, List.filterMap_filter]
    refine List.filterMap_congr fun event hevent => ?_
    split_ifs with hle
    · rfl
    · cases hs : (event.body.sell?.filter fun s => decide (s.positionId = r'.positionId)) with
      | none => rfl
      | some s =>
        have hsale : saleOf notes r'.positionId event =
            some (saleRecord (controlEvent notes event) (controlSell notes event.eventSeq s)) := by
          unfold saleOf
          rw [hs]
          rfl
        obtain ⟨s', hbody, hid, -⟩ := saleOf_eq_some.1 hsale
        exact absurd (decide_eq_true (hsales event hevent s' hbody hid)) hle
  have hamount : soldAmount (legsOf (a.sellsTo mem.cursor) entry.positionId) = entry.entryTokenAmountRaw := by
    have hsum := sum_legs (f := fun record => record.sell.tokenAmountRaw) (g := Risk.SellRecord.tokenAmountRaw)
      (fun _ _ => rfl) hperm
    rw [hall] at hsum
    exact hsum.trans ((hfollows.books.closed r' hr' hclosed).amount.trans hentryOf.amount.symm)
  have hmem : entry ∈ a.entriesTo mem.cursor := List.mem_filter.2 ⟨Directory.mem_values.2 ⟨k, hk⟩,
    decide_eq_true (hsettled.tidy.entrySeq k entry hk)⟩
  obtain ⟨-, found, hfound, -⟩ := completedTrades_eq_ok hsettled.found
  obtain ⟨o, -, ho⟩ := exists_right_of_forall₂ (mapM_ok_iff.1 hfound) hmem
  obtain ⟨trade, rfl⟩ := isSome_of_tradeOf ho hamount
  obtain rfl := (tradeOf_eq_some ho).2.1
  exact ⟨trade, (mem_completedTrades hsettled.found).2 ⟨hmem, ho⟩, rfl⟩

end Completed

/-! ## The cohort -/

section Cohort

variable {m : Machine} {manifest : Manifest} {notes : Notes} {w : Risk.World} {pending : Option Env} {a b : Sidecar}

end Cohort

end Aibot.N3
