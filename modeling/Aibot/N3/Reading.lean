/-
What the observer reads: the records of a directory, the trades up to a number, which depend on the records up
to that number only, and a completed trade that stays as it is.
-/
import Aibot.Lib.Listing
import Aibot.N3.Observer

namespace Aibot.N3

/-! ## Records -/

section Records

variable {m : Machine} {α : Type} {identity : α → String} {limit : ℕ} {d d' : Directory String α} {records : List α}

/-- Every file is under the name of its identity. -/
def Named (m : Machine) (identity : α → String) (d : Directory String α) : Prop :=
  ∀ k x, d.get? k = some x → m.fileName (identity x) = k

theorem named_empty : Named m identity .empty := fun k x h => by
  rw [Directory.get?_empty] at h
  cases h

theorem Named.put (h : Named m identity d) (x : α) : Named m identity (d.put (m.fileName (identity x)) x) := by
  intro k y hk
  rw [Directory.get?_put] at hk
  split_ifs at hk with heq
  · rw [heq, Option.some.inj hk]
  · exact h k y hk

theorem Named.within (h : Named m identity d') (hw : d.Within d') : Named m identity d :=
  fun k x hk => h k x (hw k x hk)

/-- Files of one identity are one file. -/
theorem Named.eq_of_identity (h : Named m identity d) {k k' : String} {x y : α} (hx : d.get? k = some x)
    (hy : d.get? k' = some y) (heq : identity x = identity y) : x = y := by
  obtain rfl := h k x hx
  obtain rfl := h k' y hy
  rw [heq] at hx
  exact Option.some.inj (hx.symm.trans hy)

theorem Named.nodup_values (h : Named m identity d) : d.values.Nodup := by
  refine List.Nodup.of_map (fun x => m.fileName (identity x)) ?_
  have hnames : d.values.map (fun x => m.fileName (identity x)) = d.files.map Prod.fst := by
    unfold Directory.values
    rw [List.map_map]
    refine List.map_congr_left fun p hp => ?_
    exact h p.1 p.2 (Directory.get?_eq_some.2 hp)
  rw [hnames, List.Nodup, List.pairwise_map]
  exact d.sorted.imp fun h => h.ne

/-- All files are read where they are named after their identities and not too many. -/
theorem readRecords_eq_ok : readRecords m identity limit d = .ok records ↔
    Named m identity d ∧ d.files.length ≤ limit ∧ records = d.values := by
  have hnamed : Named m identity d ↔ ∀ p ∈ d.files, m.fileName (identity p.2) = p.1 :=
    ⟨fun h p hp => h p.1 p.2 (Directory.get?_eq_some.2 hp), fun h k x hk => h (k, x) (Directory.get?_eq_some.1 hk)⟩
  have hmap : ∀ {l : List (String × α)} {rs : List α}, l.mapM (fun p =>
      if m.fileName (identity p.2) = p.1 then (.ok p.2 : Except String α)
      else .error "N3 record filename/identity mismatch") = .ok rs ↔
      (∀ p ∈ l, m.fileName (identity p.2) = p.1) ∧ rs = l.map Prod.snd := by
    intro l rs
    rw [mapM_ok_iff]
    constructor
    · intro h
      induction h with
      | nil => exact ⟨fun _ hp => absurd hp List.not_mem_nil, rfl⟩
      | cons hab _ ih =>
        split_ifs at hab with hname
        obtain rfl := Except.ok.inj hab
        exact ⟨List.forall_mem_cons.2 ⟨hname, ih.1⟩, by rw [ih.2, List.map_cons]⟩
    · rintro ⟨h, rfl⟩
      rw [List.forall₂_map_right_iff, List.forall₂_same]
      exact fun p hp => if_pos (h p hp)
  unfold readRecords
  rw [hnamed]
  by_cases hlimit : d.files.length ≤ limit
  · rw [List.take_of_length_le hlimit]
    constructor
    · intro h
      obtain ⟨rs, hrs, h⟩ := bind_ok h
      rw [if_neg (not_lt.2 hlimit)] at h
      obtain ⟨hall, rfl⟩ := hmap.1 hrs
      exact ⟨hall, hlimit, (Except.ok.inj h).symm⟩
    · rintro ⟨hall, -, rfl⟩
      rw [hmap.2 ⟨hall, rfl⟩]
      exact if_neg (not_lt.2 hlimit)
  · constructor
    · intro h
      obtain ⟨rs, -, h⟩ := bind_ok h
      rw [if_pos (not_le.1 hlimit)] at h
      cases h
    · rintro ⟨-, h, -⟩
      exact absurd h hlimit

end Records

/-! ## What is readable -/

section Readable

variable {m : Machine} {d v a : Sidecar} {s s' : ℤ}

/-- Entries and sales under their names and within their limits. -/
structure Readable (m : Machine) (d : Sidecar) : Prop where
  entries : Named m Entry.positionId d.entries
  sells : Named m sellIdentity d.sells
  entryCount : d.entries.files.length ≤ entryLimit
  sellCount : d.sells.files.length ≤ sellLimit

theorem readEntries_eq_ok {entries : List Entry} (h : readEntries m d = .ok entries) : entries = d.entries.values :=
  (readRecords_eq_ok.1 h).2.2

theorem readSells_eq_ok {sells : List SellRecord} (h : readSells m d = .ok sells) : sells = d.sells.values :=
  (readRecords_eq_ok.1 h).2.2

theorem Readable.readEntries (h : Readable m d) : readEntries m d = .ok d.entries.values :=
  readRecords_eq_ok.2 ⟨h.entries, h.entryCount, rfl⟩

theorem Readable.readSells (h : Readable m d) : readSells m d = .ok d.sells.values :=
  readRecords_eq_ok.2 ⟨h.sells, h.sellCount, rfl⟩

theorem Readable.within (h : Readable m a) (hentries : v.entries.Within a.entries) (hsells : v.sells.Within a.sells) :
    Readable m v where
  entries := h.entries.within hentries
  sells := h.sells.within hsells
  entryCount := hentries.sublist.length_le.trans h.entryCount
  sellCount := hsells.sublist.length_le.trans h.sellCount

/-- The entries up to a number. -/
def Sidecar.entriesTo (d : Sidecar) (s : ℤ) : List Entry := d.entries.values.filter fun entry => entry.buyEventSeq ≤ s

/-- The sales up to a number. -/
def Sidecar.sellsTo (d : Sidecar) (s : ℤ) : List SellRecord := d.sells.values.filter fun record => record.eventSeq ≤ s

theorem completedTrades_eq_ok {trades : List Trade} (h : completedTrades m d (some s) = .ok trades) :
    Readable m d ∧ ∃ found, (d.entriesTo s).mapM (tradeOf (d.sellsTo s)) = .ok found ∧ trades = found.filterMap id := by
  obtain ⟨entries, hentries, h⟩ := bind_ok h
  obtain ⟨sells, hsells, h⟩ := bind_ok h
  obtain ⟨found, hfound, hresult⟩ := bind_ok h
  obtain ⟨hnamed, hcount, rfl⟩ := readRecords_eq_ok.1 hentries
  obtain ⟨hnamed', hcount', rfl⟩ := readRecords_eq_ok.1 hsells
  exact ⟨⟨hnamed, hnamed', hcount, hcount'⟩, found, hfound, (Except.ok.inj hresult).symm⟩

theorem Readable.completedTrades (h : Readable m d) (s : ℤ) :
    completedTrades m d (some s) = ((d.entriesTo s).mapM (tradeOf (d.sellsTo s))).map (·.filterMap id) := by
  unfold N3.completedTrades
  rw [h.readEntries, h.readSells]
  show ((d.entriesTo s).mapM (tradeOf (d.sellsTo s)) >>= fun trades => Except.ok (trades.filterMap id)) = _
  cases (d.entriesTo s).mapM (tradeOf (d.sellsTo s)) <;> rfl

/-- The records up to a number are the same. -/
structure AgreeTo (s : ℤ) (v a : Sidecar) : Prop where
  entries : ∀ k x, x.buyEventSeq ≤ s → (v.entries.get? k = some x ↔ a.entries.get? k = some x)
  sells : ∀ k x, x.eventSeq ≤ s → (v.sells.get? k = some x ↔ a.sells.get? k = some x)

theorem AgreeTo.symm (h : AgreeTo s v a) : AgreeTo s a v :=
  ⟨fun k x hx => (h.entries k x hx).symm, fun k x hx => (h.sells k x hx).symm⟩

theorem AgreeTo.mono (h : AgreeTo s v a) (hs : s' ≤ s) : AgreeTo s' v a :=
  ⟨fun k x hx => h.entries k x (hx.trans hs), fun k x hx => h.sells k x (hx.trans hs)⟩

theorem values_filter {κ α : Type} [LinearOrder κ] (d : Directory κ α) (p : α → Bool) :
    d.values.filter p = (d.files.filter fun f => p f.2).map Prod.snd := by
  unfold Directory.values
  rw [List.filter_map]
  rfl

theorem AgreeTo.entriesTo (h : AgreeTo s v a) : v.entriesTo s = a.entriesTo s := by
  unfold Sidecar.entriesTo
  rw [values_filter, values_filter,
    Directory.filter_files_congr fun k x hx => h.entries k x (of_decide_eq_true hx)]

theorem AgreeTo.sellsTo (h : AgreeTo s v a) : v.sellsTo s = a.sellsTo s := by
  unfold Sidecar.sellsTo
  rw [values_filter, values_filter, Directory.filter_files_congr fun k x hx => h.sells k x (of_decide_eq_true hx)]

/-- The completed trades up to a number depend on the records up to that number. -/
theorem AgreeTo.completedTrades (h : AgreeTo s v a) (hv : Readable m v) (ha : Readable m a) :
    completedTrades m v (some s) = completedTrades m a (some s) := by
  rw [hv.completedTrades, ha.completedTrades, h.entriesTo, h.sellsTo]

end Readable

/-! ## Completed trades -/

section Trades

variable {m : Machine} {d : Sidecar} {s s' : ℤ} {sells sells' : List SellRecord} {entry : Entry} {trade : Trade}

theorem tradeOf_eq_some (h : tradeOf sells entry = .ok (some trade)) :
    soldAmount (legsOf sells entry.positionId) = entry.entryTokenAmountRaw ∧ trade.entry = entry ∧
      trade.realizedPnlLamports = ((legsOf sells entry.positionId).map (·.sell.realizedPnlLamports)).sum ∧
      trade.sellEventCount = (legsOf sells entry.positionId).length := by
  unfold tradeOf at h
  dsimp only at h
  split_ifs at h with hmore hless
  · cases h
  all_goals
    obtain ⟨normalized, -, h⟩ := bind_ok h
    obtain ⟨delta, -, h⟩ := bind_ok h
    obtain ⟨last, -, h⟩ := bind_ok h
    obtain rfl := Option.some.inj (Except.ok.inj h)
    exact ⟨not_not.1 hless, rfl, rfl, rfl⟩

theorem not_more_of_tradeOf {found : Option Trade} (h : tradeOf sells entry = .ok found) :
    soldAmount (legsOf sells entry.positionId) ≤ entry.entryTokenAmountRaw := by
  by_contra hmore
  unfold tradeOf at h
  rw [if_pos (not_le.1 hmore)] at h
  cases h

/-- A part of positive numbers with the sum of all of them is all of them. -/
theorem sublist_eq_of_sum_le {α : Type} {f : α → ℤ} {l l' : List α} (h : l.Sublist l') (hpos : ∀ x ∈ l', 0 < f x)
    (hsum : (l'.map f).sum ≤ (l.map f).sum) : l = l' := by
  have hnonneg : ∀ {r r' : List α}, r.Sublist r' → (∀ x ∈ r', 0 < f x) → (r.map f).sum ≤ (r'.map f).sum := by
    intro r r' hr
    induction hr with
    | slnil => exact fun _ => le_rfl
    | cons b _ ih =>
      intro hpos
      rw [List.map_cons, List.sum_cons]
      linarith [ih fun x hx => hpos x (List.mem_cons_of_mem _ hx), hpos b (List.mem_cons_self ..)]
    | cons_cons b _ ih =>
      intro hpos
      rw [List.map_cons, List.map_cons, List.sum_cons, List.sum_cons]
      linarith [ih fun x hx => hpos x (List.mem_cons_of_mem _ hx)]
  induction h with
  | slnil => rfl
  | @cons r r' b hr ih =>
    rw [List.map_cons, List.sum_cons] at hsum
    have hrest := hnonneg hr fun x hx => hpos x (List.mem_cons_of_mem _ hx)
    linarith [hpos b (List.mem_cons_self ..)]
  | cons_cons b _ ih =>
    rw [List.map_cons, List.map_cons, List.sum_cons, List.sum_cons] at hsum
    rw [ih (fun x hx => hpos x (List.mem_cons_of_mem _ hx)) (by linarith)]

/-- A completed entry stays as it is while later sales do not sell more of it. -/
theorem tradeOf_stable {found : Option Trade} (h : tradeOf sells entry = .ok (some trade)) (hsub : sells.Sublist sells')
    (hpos : ∀ record ∈ sells', 0 < record.sell.tokenAmountRaw) (h' : tradeOf sells' entry = .ok found) :
    found = some trade := by
  have hamount : ∀ l : List SellRecord, soldAmount (legsOf l entry.positionId) =
      ((l.filter fun record => record.sell.positionId = entry.positionId).map (·.sell.tokenAmountRaw)).sum :=
    fun l => ((List.mergeSort_perm _ _).map _).sum_eq
  have hlegs : legsOf sells entry.positionId = legsOf sells' entry.positionId := by
    unfold legsOf
    rw [sublist_eq_of_sum_le (f := fun record : SellRecord => record.sell.tokenAmountRaw) (hsub.filter _)]
    · exact fun record hrecord => hpos record (List.mem_filter.1 hrecord).1
    · rw [← hamount, ← hamount, (tradeOf_eq_some h).1]
      exact not_more_of_tradeOf h'
  have heq : tradeOf sells entry = tradeOf sells' entry := by
    unfold tradeOf
    rw [hlegs]
  rw [← heq, h] at h'
  exact (Except.ok.inj h').symm

theorem mem_completedTrades {trades : List Trade} (h : completedTrades m d (some s) = .ok trades) :
    trade ∈ trades ↔ trade.entry ∈ d.entriesTo s ∧ tradeOf (d.sellsTo s) trade.entry = .ok (some trade) := by
  obtain ⟨-, found, hfound, rfl⟩ := completedTrades_eq_ok h
  rw [mapM_ok_iff] at hfound
  rw [List.mem_filterMap]
  constructor
  · rintro ⟨o, ho, rfl⟩
    obtain ⟨entry, hentry, htrade⟩ := exists_left_of_forall₂ hfound ho
    obtain rfl := (tradeOf_eq_some htrade).2.1
    exact ⟨hentry, htrade⟩
  · rintro ⟨hentry, htrade⟩
    obtain ⟨o, ho, heq⟩ := exists_right_of_forall₂ hfound hentry
    rw [htrade] at heq
    exact ⟨o, ho, (Except.ok.inj heq).symm⟩

/-- What was completed up to a number is completed, unchanged, up to a later one. -/
theorem completedTrades_stable {trades trades' : List Trade} (hs : s ≤ s')
    (hpos : ∀ record ∈ d.sells.values, 0 < record.sell.tokenAmountRaw)
    (h : completedTrades m d (some s) = .ok trades) (h' : completedTrades m d (some s') = .ok trades')
    (htrade : trade ∈ trades) : trade ∈ trades' := by
  obtain ⟨hentry, hof⟩ := (mem_completedTrades h).1 htrade
  obtain ⟨hmem, hseq⟩ := List.mem_filter.1 hentry
  have hentry' : trade.entry ∈ d.entriesTo s' :=
    List.mem_filter.2 ⟨hmem, decide_eq_true ((of_decide_eq_true hseq).trans hs)⟩
  obtain ⟨-, found, hfound, -⟩ := completedTrades_eq_ok h'
  obtain ⟨o, -, ho⟩ := exists_right_of_forall₂ (mapM_ok_iff.1 hfound) hentry'
  have hsub : (d.sellsTo s).Sublist (d.sellsTo s') :=
    List.monotone_filter_right _ fun record hrecord => decide_eq_true ((of_decide_eq_true hrecord).trans hs)
  have hstable := tradeOf_stable hof hsub (fun record hrecord => hpos record (List.mem_filter.1 hrecord).1) ho
  rw [hstable] at ho
  exact (mem_completedTrades h').2 ⟨hentry', ho⟩

/-- No two of the completed trades are under one name. -/
theorem completedTrades_injective {trades : List Trade} {trade' : Trade} (h : completedTrades m d (some s) = .ok trades)
    (htrade : trade ∈ trades) (htrade' : trade' ∈ trades)
    (heq : m.fileName trade.entry.positionId = m.fileName trade'.entry.positionId) : trade = trade' := by
  have hnamed := (completedTrades_eq_ok h).1.entries
  obtain ⟨hentry, hof⟩ := (mem_completedTrades h).1 htrade
  obtain ⟨hentry', hof'⟩ := (mem_completedTrades h).1 htrade'
  obtain ⟨k, hk⟩ := Directory.mem_values.1 (List.mem_filter.1 hentry).1
  obtain ⟨k', hk'⟩ := Directory.mem_values.1 (List.mem_filter.1 hentry').1
  rw [← hnamed k _ hk, heq, hnamed k' _ hk', hk'] at hk
  rw [← Option.some.inj hk, hof'] at hof
  exact (Option.some.inj (Except.ok.inj hof)).symm

end Trades

end Aibot.N3
