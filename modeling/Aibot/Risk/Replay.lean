/-
Replayed signals: a buy is refused when the ledger still holds a BUY of its mint under its signature,
and its round is one more than the largest round the ledger still holds. Over a run this keeps every
signal to one BUY and the rounds of a mint increasing as long as the ledger remembers the mint.
-/
import Aibot.Lib.Newest
import Aibot.Risk.Books
import Aibot.Risk.Flood

namespace Aibot.Risk

open Aibot.Store

/-! ## The law -/

/-- A BUY of this mint and this non-empty signature. -/
def BuyRecord.sameSignal (b : BuyRecord) (mint : Mint) (sourceSignature : Option String) : Prop :=
  b.mint = mint ∧ b.sourceSignature = sourceSignature ∧ ∃ signature ∈ sourceSignature, signature ≠ ""

/-- No signal was bought twice. -/
def SignalsOnce (records : List BuyRecord) : Prop :=
  records.Pairwise fun a b => ¬ a.sameSignal b.mint b.sourceSignature

/-- The rounds of each mint increase along its BUYs. -/
def RoundsIncrease (records : List BuyRecord) : Prop :=
  records.Pairwise fun a b => a.mint = b.mint → a.roundIndex < b.roundIndex

/-- What a buy that would be accepted finds in the ledger: a BUY of its mint if the mint was ever
bought, and one of its signal if the signal was. -/
def remembers (w : World) (op : Op) : Prop :=
  ∀ r ∈ op.buy?, (∃ route, r.check = .ok route) → r.Fits w.ledger →
    ((∃ b ∈ buys w.recorded, b.mint = r.mint) → ∃ b ∈ buys w.ledger.events, b.mint = r.mint) ∧
    ((∃ b ∈ buys w.recorded, b.sameSignal r.mint r.sourceSignature) →
      ∃ b ∈ buys w.ledger.events, b.sameSignal r.mint r.sourceSignature)

/-! ## What a buy records -/

theorem buyRecorded_iff {ledger : Ledger} {mint : Mint} {sourceSignature : Option String} :
    buyRecorded ledger mint sourceSignature = true ↔
      ∃ b ∈ buys ledger.events, b.sameSignal mint sourceSignature := by
  unfold buyRecorded BuyRecord.sameSignal
  rw [Option.any_eq_true]
  constructor
  · rintro ⟨signature, rfl, h⟩
    obtain ⟨hne, hany⟩ := of_decide_eq_true h
    obtain ⟨b, hb, hmatch⟩ := List.any_eq_true.1 hany
    obtain ⟨hs, hm⟩ := of_decide_eq_true hmatch
    exact ⟨b, hb, hm, hs, signature, rfl, hne⟩
  · rintro ⟨b, hb, hm, hs, signature, rfl, hne⟩
    refine ⟨signature, rfl, decide_eq_true ⟨hne, ?_⟩⟩
    exact List.any_eq_true.2 ⟨b, hb, decide_eq_true ⟨hs, hm⟩⟩

/-- A call other than a buy records none. -/
theorem buys_of_turn {w w' : World} {op : Op} {ret : Ret} (h : Turn w w' op ret)
    (hbuy : ∀ r positionId now, op ≠ .buy r positionId now) : buys w'.recorded = buys w.recorded := by
  cases h with
  | bought => exact absurd rfl (hbuy _ _ _)
  | idle _ _ _ hrec | claimed _ _ _ _ _ hrec | released _ _ _ _ hrec | touched _ _ _ _ _ hrec
  | sold _ _ _ _ _ _ hrec => rw [hrec.buys, List.append_nil]

/-- A call records a BUY where it is an accepted buy, and none otherwise. -/
theorem step_buys {w w' : World} {op : Op} (h : w.step op = some w') :
    (∃ r positionId now route, op = .buy r positionId now ∧ r.check = .ok route ∧ r.Fits w.ledger ∧
      buyRecorded w.ledger r.mint r.sourceSignature = false ∧
      buys w'.recorded = buys w.recorded ++ [r.record route positionId (nextRoundIndex w.ledger r.mint)]) ∨
    ((∀ r ∈ op.buy?, ¬ ((∃ route, r.check = .ok route) ∧ r.Fits w.ledger ∧
        buyRecorded w.ledger r.mint r.sourceSignature = false)) ∧
      buys w'.recorded = buys w.recorded) := by
  have hturn := step_turn h
  obtain ⟨-, rfl⟩ := World.step_eq_some h
  cases op with
  | buy r positionId now =>
    rcases run_buy r positionId now w.ledger with ⟨route, hroute, hfits, hnew, hrun⟩ | ⟨hno, e, hrun⟩
    · refine .inl ⟨r, positionId, now, route, rfl, hroute, hfits, hnew, ?_⟩
      have hevents : newEvents w.ledger ((Op.buy r positionId now).run w.ledger).2 =
          [⟨w.ledger.nextEventSeq, .instant now,
            .buy (r.record route positionId (nextRoundIndex w.ledger r.mint))⟩] := by
        rw [hrun, newEvents_version]
        exact newEvents_of_append w.ledger.events _ rfl rfl
      show buys (w.recorded ++ newEvents w.ledger ((Op.buy r positionId now).run w.ledger).2) = _
      rw [hevents, buys_append]
      rfl
    · refine .inr ⟨fun r' hr' => ?_, ?_⟩
      · cases hr'; exact hno
      · have hevents : newEvents w.ledger ((Op.buy r positionId now).run w.ledger).2 = [] := by
          rw [hrun]
          exact newEvents_of_append w.ledger.events [] (List.append_nil _).symm rfl
        show buys (w.recorded ++ newEvents w.ledger ((Op.buy r positionId now).run w.ledger).2) = _
        rw [hevents, List.append_nil]
  | rejection | rpcSkip | claim | release | sell | mark | lifecycle | breakEvenFloor | quoteFailure =>
    refine .inr ⟨(fun r hr => by cases hr), ?_⟩
    exact buys_of_turn hturn fun _ _ _ => by simp

/-- The round of a BUY is above every round of the mint that the ledger still holds. -/
theorem roundIndex_lt_next {ledger : Ledger} {b : BuyRecord} (hb : b ∈ buys ledger.events) :
    b.roundIndex < nextRoundIndex ledger b.mint := by
  unfold nextRoundIndex
  have hmem : b.roundIndex ∈ ((buys ledger.events).filter fun record => record.mint = b.mint).map
      BuyRecord.roundIndex :=
    List.mem_map_of_mem (List.mem_filter.2 ⟨hb, decide_eq_true rfl⟩)
  have hle := List.le_max_of_le' 0 hmem le_rfl
  omega

/-- Without a BUY of the mint the next round is the first. -/
theorem nextRoundIndex_first {ledger : Ledger} {mint : Mint} (h : ∀ b ∈ buys ledger.events, b.mint ≠ mint) :
    nextRoundIndex ledger mint = 1 := by
  unfold nextRoundIndex
  rw [List.filter_eq_nil_iff.2 fun b hb => by simpa using h b hb]
  rfl

/-! ## One call -/

/-- The law of the replays, over every BUY ever recorded. -/
structure Lawful (w : World) : Prop where
  signalsOnce : SignalsOnce (buys w.recorded)
  roundsIncrease : RoundsIncrease (buys w.recorded)

/-- What every run keeps besides: the trail of events, and rounds that count from one. -/
structure Counted (w : World) : Prop where
  trail : Trail w
  rounds : ∀ b ∈ buys w.recorded, 1 ≤ b.roundIndex

theorem counted_start : Counted World.start := ⟨start_trail, fun b hb => by cases hb⟩

theorem Counted.step {w w' : World} {op : Op} (hw : Counted w) (h : w.step op = some w') : Counted w' := by
  refine ⟨hw.trail.step h, fun b hb => ?_⟩
  rcases step_buys h with ⟨r, positionId, now, route, -, -, -, -, hbuys⟩ | ⟨-, hbuys⟩
  · rw [hbuys] at hb
    rcases List.mem_append.1 hb with hold | hnew
    · exact hw.rounds b hold
    · rw [List.mem_singleton.1 hnew]
      exact Nat.le_add_left 1 _
  · rw [hbuys] at hb
    exact hw.rounds b hb

/-- The BUY records of the ledger are the latest of those ever recorded. -/
theorem Counted.kept {w : World} (hw : Counted w) : buys w.ledger.events <:+ buys w.recorded := by
  obtain ⟨old, hold⟩ := hw.trail.kept
  exact ⟨buys old, by rw [← hold, buys_append]⟩

theorem pairwise_concat {α : Type*} {R : α → α → Prop} {l : List α} {a : α} :
    (l ++ [a]).Pairwise R ↔ l.Pairwise R ∧ ∀ b ∈ l, R b a := by
  rw [List.pairwise_append]
  simp

/-- An accepted buy keeps the law exactly where its signal is new and its round is the largest yet. -/
theorem lawful_record_iff {w w' : World} (hw : Lawful w) {b : BuyRecord}
    (hbuys : buys w'.recorded = buys w.recorded ++ [b]) :
    Lawful w' ↔ (∀ a ∈ buys w.recorded, ¬ a.sameSignal b.mint b.sourceSignature) ∧
      ∀ a ∈ buys w.recorded, a.mint = b.mint → a.roundIndex < b.roundIndex := by
  have honce : SignalsOnce (buys w'.recorded) ↔
      ∀ a ∈ buys w.recorded, ¬ a.sameSignal b.mint b.sourceSignature := by
    unfold SignalsOnce
    rw [hbuys, pairwise_concat]
    exact and_iff_right hw.signalsOnce
  have hrounds : RoundsIncrease (buys w'.recorded) ↔
      ∀ a ∈ buys w.recorded, a.mint = b.mint → a.roundIndex < b.roundIndex := by
    unfold RoundsIncrease
    rw [hbuys, pairwise_concat]
    exact and_iff_right hw.roundsIncrease
  rw [← honce, ← hrounds]
  exact ⟨fun h => ⟨h.1, h.2⟩, fun h => ⟨h.1, h.2⟩⟩

/-- A call keeps the law exactly where the ledger remembers what the call asks of it. -/
theorem lawful_step_iff {w w' : World} {op : Op} (hc : Counted w) (hw : Lawful w) (h : w.step op = some w') :
    Lawful w' ↔ remembers w op := by
  rcases step_buys h with ⟨r, positionId, now, route, rfl, hroute, hfits, hnew, hbuys⟩ | ⟨hrefused, hbuys⟩
  · rw [lawful_record_iff hw hbuys]
    have hforgot : ¬ ∃ b ∈ buys w.ledger.events, b.sameSignal r.mint r.sourceSignature := by
      rw [← buyRecorded_iff, hnew]
      exact Bool.false_ne_true
    constructor
    · rintro ⟨hsignal, hround⟩ r' hr' - -
      cases hr'
      refine ⟨?_, fun ⟨b, hb, hsame⟩ => absurd hsame (hsignal b hb)⟩
      rintro ⟨b, hb, hbm⟩
      by_contra hnone
      -- with every BUY of the mint forgotten the round starts over
      have hforgotten : ∀ a ∈ buys w.ledger.events, a.mint ≠ r.mint := fun a ha ham => hnone ⟨a, ha, ham⟩
      have hfirst := nextRoundIndex_first hforgotten
      have hlt := hround b hb hbm
      have hpos := hc.rounds b hb
      simp only [BuyRequest.record, hfirst] at hlt
      omega
    · intro hremembers
      obtain ⟨hmint, hsignal⟩ := hremembers r rfl ⟨route, hroute⟩ hfits
      refine ⟨fun a ha hsame => hforgot (hsignal ⟨a, ha, hsame⟩), fun a ha ham => ?_⟩
      -- the newest BUY of the mint is still held, and no earlier one has a larger round
      obtain ⟨k, hk, hkm⟩ := hmint ⟨a, ha, ham⟩
      obtain ⟨c, hkept⟩ : ∃ c, newest (fun b => decide (b.mint = r.mint)) (buys w.ledger.events) = some c :=
        newest_isSome_of_mem hk (decide_eq_true hkm)
      have hc' := newest_of_suffix hc.kept hkept
      have hcm := newest_prop hkept
      rw [decide_eq_true_eq] at hcm
      have hlt := roundIndex_lt_next (newest_mem hkept)
      rw [hcm] at hlt
      show a.roundIndex < nextRoundIndex w.ledger r.mint
      rcases newest_rel hw.roundsIncrease hc' ha (decide_eq_true ham) with rfl | hrel
      · exact hlt
      · exact lt_trans (hrel (ham.trans hcm.symm)) hlt
  · have hkeeps : Lawful w' := ⟨by rw [hbuys]; exact hw.signalsOnce, by rw [hbuys]; exact hw.roundsIncrease⟩
    refine ⟨fun _ r hr hroute hfits => ?_, fun _ => hkeeps⟩
    -- a buy that fits and is refused all the same found its signal in the ledger
    have hfound : ∃ b ∈ buys w.ledger.events, b.sameSignal r.mint r.sourceSignature := by
      rw [← buyRecorded_iff]
      by_contra hnot
      exact hrefused r hr ⟨hroute, hfits, Bool.not_eq_true _ ▸ hnot⟩
    obtain ⟨b, hb, hsame⟩ := hfound
    exact ⟨fun _ => ⟨b, hb, hsame.1⟩, fun _ => ⟨b, hb, hsame⟩⟩

/-! ## Whole runs -/

theorem buys_extended {ok : World → Op → Prop} {w w' : World} {ops : List Op} (h : Run World.step ok w ops w') :
    buys w.recorded <+: buys w'.recorded := by
  induction h with
  | nil w => exact List.prefix_rfl
  | cons _ hstep _ ih =>
    refine List.IsPrefix.trans ?_ ih
    rcases step_buys hstep with ⟨_, _, _, _, _, _, _, _, hbuys⟩ | ⟨-, hbuys⟩
    · exact ⟨_, hbuys.symm⟩
    · rw [hbuys]

/-- The law once broken stays broken. -/
theorem Lawful.of_run {ok : World → Op → Prop} {w w' : World} {ops : List Op} (hw : Lawful w')
    (h : Run World.step ok w ops w') : Lawful w :=
  ⟨hw.signalsOnce.sublist (buys_extended h).sublist, hw.roundsIncrease.sublist (buys_extended h).sublist⟩

theorem lawful_run_iff {w w' : World} {ops : List Op} (h : Run World.step Run.anyStep w ops w')
    (hc : Counted w) (hw : Lawful w) : Lawful w' ↔ Run World.step remembers w ops w' := by
  induction h with
  | nil w => exact ⟨fun _ => .nil w, fun _ => hw⟩
  | @cons w t u op ops _ hstep hrest ih =>
    have hstepIff := lawful_step_iff hc hw hstep
    constructor
    · intro hu
      have ht := hu.of_run hrest
      exact .cons (hstepIff.1 ht) hstep ((ih (hc.step hstep) ht).1 hu)
    · intro hrun
      cases hrun with
      | cons hok hstep' hrun' =>
        rw [hstep] at hstep'
        cases hstep'
        exact (ih (hc.step hstep) (hstepIff.2 hok)).2 hrun'

/-- Signal replay. Along a run no signal is bought twice and the rounds of each mint increase, exactly
when every buy that would be accepted finds its mint and its signal still in the ledger if they were
ever bought. -/
theorem replay_refused (ops : List Op) (w : World) (h : Run World.step Run.anyStep World.start ops w) :
    (SignalsOnce (buys w.recorded) ∧ RoundsIncrease (buys w.recorded)) ↔
      Run World.step remembers World.start ops w := by
  have hstart : Lawful World.start := ⟨List.Pairwise.nil, List.Pairwise.nil⟩
  rw [← lawful_run_iff h counted_start hstart]
  exact ⟨fun hw => ⟨hw.1, hw.2⟩, fun hw => ⟨hw.1, hw.2⟩⟩

instance (b : BuyRecord) (mint : Mint) (sourceSignature : Option String) :
    Decidable (b.sameSignal mint sourceSignature) :=
  inferInstanceAs (Decidable (b.mint = mint ∧ b.sourceSignature = sourceSignature ∧
    ∃ signature ∈ sourceSignature, signature ≠ ""))

instance (records : List BuyRecord) : Decidable (SignalsOnce records) :=
  inferInstanceAs (Decidable (records.Pairwise fun a b => ¬ a.sameSignal b.mint b.sourceSignature))

instance (records : List BuyRecord) : Decidable (RoundsIncrease records) :=
  inferInstanceAs (Decidable (records.Pairwise fun a b => a.mint = b.mint → a.roundIndex < b.roundIndex))

/-- A buy under a signature, for the runs below. -/
def signedBuy (signature : String) : BuyRequest :=
  ⟨"mint", 1000, 10, some signature, none, 0, "A", 0, "", none, none⟩

/-- A mint bought, sold and bought again under a new signature, after its old one was refused. -/
theorem replay_refused_twoRounds : ∃ w : World,
    (buys w.recorded).map (fun b => (b.sourceSignature, b.roundIndex)) = [(some "first", 1), (some "second", 2)] ∧
    ∃ ops, Run World.step remembers World.start ops w := by
  obtain ⟨w, hrun, hbuys, honce, hrounds⟩ : ∃ w, Run World.step Run.anyStep World.start
      [.buy (signedBuy "first") ⟨0⟩ 0, .sell ⟨"mint", 10, 900, .manualClose, none, none⟩ 1,
        .buy (signedBuy "first") ⟨1⟩ 2, .buy (signedBuy "second") ⟨2⟩ 3] w ∧
      (buys w.recorded).map (fun b => (b.sourceSignature, b.roundIndex)) =
        [(some "first", 1), (some "second", 2)] ∧
      SignalsOnce (buys w.recorded) ∧ RoundsIncrease (buys w.recorded) :=
    Run.exists_of_any (by decide +kernel)
  exact ⟨w, hbuys, _, (replay_refused _ w hrun).1 ⟨honce, hrounds⟩⟩

/-- A buy, its sale, two thousand rejections, and the same buy once more: it is accepted again, as the
first round. -/
theorem signal_replayed : ¬ ∀ (ops : List Op) (w : World), Run World.step Run.anyStep World.start ops w →
    SignalsOnce (buys w.recorded) ∧ RoundsIncrease (buys w.recorded) := by
  intro hall
  have hnoise : ∀ (i : Nat) (w : World), Run.anyStep w (noise i 2) := fun _ _ => trivial
  obtain ⟨w, hrun, hlength, htrades, hfree, hcash, hids, b, hb, hsame⟩ :
      ∃ w, Run World.step Run.anyStep World.start
        [.buy (signedBuy "signature") ⟨0⟩ 0, .sell ⟨"mint", 10, 900, .manualClose, none, none⟩ 1] w ∧
      w.ledger.events.length ≤ eventLimit ∧ (∀ e ∈ w.ledger.events, e.isTrade = true) ∧
      (w.ledger.positions.get? "mint").isNone ∧ 1000 ≤ w.ledger.cashLamports ∧ (⟨1⟩ : Uuid) ∉ w.ids ∧
      ∃ b ∈ buys w.recorded, b.sameSignal "mint" (some "signature") :=
    Run.exists_of_any (by decide +kernel)
  obtain ⟨w', new, hrun', hnew, hevents, hrecorded, hpositions, hcash', hids'⟩ :=
    flood_forgets hlength htrades 2 hnoise
  have hnone : buys new = [] := buys_noTrades hnew
  have hstep : w'.step (.buy (signedBuy "signature") ⟨1⟩ 3) =
      some (w'.after (.buy (signedBuy "signature") ⟨1⟩ 3)) := by
    unfold World.step
    refine if_pos fun id hid => ?_
    cases hid
    rw [hids']; exact hids
  -- nothing of the first buy is left to refuse the second
  have hfits : (signedBuy "signature").Fits w'.ledger := by
    refine ⟨(fun k hk => by cases hk), ?_, by rw [hcash']; exact hcash⟩
    unfold Ledger.position?
    rw [hpositions]
    exact Option.isNone_iff_eq_none.1 hfree
  have hnotRecorded : buyRecorded w'.ledger "mint" (some "signature") = false := by
    rw [← Bool.not_eq_true, buyRecorded_iff, hevents, hnone]
    rintro ⟨a, ha, -⟩
    cases ha
  have hlaw := hall _ _ ((hrun.append hrun').concat trivial hstep)
  rcases step_buys hstep with ⟨r, id, now, route, hop, -, -, -, hbuys⟩ | ⟨hrefused, -⟩
  · cases hop
    rw [hbuys] at hlaw
    refine (pairwise_concat.1 hlaw.1).2 b ?_ hsame
    rw [hrecorded, buys_append]
    exact List.mem_append_left _ hb
  · exact hrefused _ rfl ⟨⟨.A, by decide +kernel⟩, hfits, hnotRecorded⟩

end Aibot.Risk
