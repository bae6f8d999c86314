/-
Orphaned claims: a pending exit that no running flow holds. A flow gives its claim up by its sale
or its release, in an `except Exception` block at the latest; a cancelled task, a dead process or
a release that raises leaves the position in `EXIT_PENDING` with nobody to end it.
-/
import Aibot.Exit.Refine

namespace Aibot.Exit

open Aibot.Risk Aibot.Store

/-! ## Held exits -/

/-- The exit a flow holds: mint, position and exit id. -/
def Flow.held : Flow → Option (Mint × Uuid × Uuid)
  | .quoting plan exitId _ | .selling plan exitId _ _ | .releasing plan exitId _ =>
    some (plan.snapshot.mint, plan.snapshot.position.positionId, exitId)
  | _ => none

theorem Flow.holds_eq (flow : Flow) : flow.holds = flow.held.map fun x => x.2.2 := by
  cases flow <;> rfl

/-- Every position in `EXIT_PENDING` is held by a running flow. -/
def PendingHeld (s : Exits) : Prop :=
  ∀ mint p, s.world.ledger.position? mint = some p → p.riskState = .exitPending →
    ∃ exitId f, p.pendingExitId = some exitId ∧ (s.flows f).held = some (mint, p.positionId, exitId)

/-- An open position whose pending exit no running flow holds can be claimed, and is evaluated. -/
def NoOrphan (s : Exits) : Prop :=
  ∀ mint p, s.world.ledger.position? mint = some p →
    (∀ f exitId, (s.flows f).holds = some exitId → p.pendingExitId ≠ some exitId) →
    (∀ reason exitId, (claimPositionExit mint p.positionId reason exitId s.world.ledger).1 =
      some (exitId, p.tokenAmountRaw)) ∧ ¬ skips p

/-- The position the flow holds is in `EXIT_PENDING` under the flow's exit id. -/
def Exits.locks (s : Exits) (f : Nat) : Prop :=
  ∃ x ∈ (s.flows f).held, ∃ p ∈ s.world.ledger.position? x.1,
    p.positionId = x.2.1 ∧ p.riskState = .exitPending ∧ p.pendingExitId = some x.2.2

/-- The flow is about to give its claim back. -/
def Flow.isReleasing : Flow → Bool
  | .releasing .. => true
  | _ => false

/-- No flow is abandoned while it locks its position, and no release of a lock raises. -/
def letsGo (s : Exits) : Act → Prop
  | .abandon f => ¬ s.locks f
  | .writeRaises f _ => (s.flows f).isReleasing = true → ¬ s.locks f
  | _ => True

/-! ## A held exit ends with the flow's own call -/

/-- A sale under the pending exit is recorded. -/
theorem sell_recorded {ledger : Ledger} {r : SellRequest} {p : Position} (now : Int)
    (hp : ledger.position? r.mint = some p) (hm : r.matches p = true)
    (hpos : 0 < min r.tokenAmountRaw p.tokenAmountRaw) :
    ((Op.sell r now).run ledger).1.recordedSale = true := by
  have hfilter : (ledger.position? r.mint).filter r.matches = some p :=
    Option.filter_eq_some_iff.2 ⟨hp, hm⟩
  have hnot : ¬ min r.tokenAmountRaw p.tokenAmountRaw ≤ 0 := by omega
  have hsell : (recordPaperSell r now ledger).1.recorded = true := by
    unfold recordPaperSell
    rw [hfilter]
    simp only [hnot, if_false]
  have hrun : ((Op.sell r now).run ledger).1 = .sold (recordPaperSell r now ledger).1 := by
    simp [Op.run, Op.writes, Op.mutate, updateJson, VersionedDocument.version]
  rw [hrun]
  exact hsell

/-- A release of the pending exit clears it. -/
theorem release_clears {w w' : World} {mint : Mint} {positionId exitId : Uuid} {degraded : Bool}
    {p p' : Position} (h : w.step (.release mint positionId exitId degraded) = some w')
    (hp : w.ledger.position? mint = some p) (hid : p.positionId = positionId)
    (he : p.pendingExitId = some exitId) (hp' : w'.ledger.position? mint = some p') :
    p'.pendingExitId = none := by
  obtain ⟨-, rfl⟩ := World.step_eq_some h
  have hwith : w.ledger.positionWithId? mint positionId = some p := positionWithId?_eq_some.2 ⟨hp, hid⟩
  have hrun : ((Op.release mint positionId exitId degraded).run w.ledger).2.position? mint =
      some (p.released degraded) := by
    simp [Op.run, Op.writes, Op.mutate, updateJson, VersionedDocument.version, releaseExitClaim, hwith, he,
      VersionedDocument.setVersion, Ledger.position?, Ledger.setPosition]
  have hafter : (w.after (.release mint positionId exitId degraded)).ledger.position? mint =
      some (p.released degraded) := hrun
  rw [hafter] at hp'
  cases hp'
  rfl

/-- A sale under the pending exit clears it. -/
theorem sale_clears {w w' : World} {r : SellRequest} {now : Int} {p p' : Position}
    (h : w.step (.sell r now) = some w') (hp : w.ledger.position? r.mint = some p)
    (hm : r.matches p = true) (hpos : 0 < min r.tokenAmountRaw p.tokenAmountRaw)
    (hp' : w'.ledger.position? r.mint = some p') : p'.pendingExitId = none := by
  have hrecorded := sell_recorded now hp hm hpos
  have hturn := step_turn h
  generalize ((Op.sell r now).run w.ledger).1 = ret at hturn hrecorded
  cases hturn with
  | idle hret => rw [hret.2] at hrecorded; cases hrecorded
  | touched _ _ htouch => cases htouch
  | @sold _ _ q sold _ _ _ _ _ hwrite =>
    rw [position?_of_sold hwrite, if_pos rfl] at hp'
    split_ifs at hp'
    cases hp'
    exact (leaves_pending _ q _).1

/-- The call of a flow that holds the pending exit ends it. -/
theorem held_request_ends {s : Exits} {w : World} {f : Nat} {freshId : Uuid} {now : Int} {op : Op}
    {mint : Mint} {p p' : Position} {exitId : Uuid} (hs : Granted s) (hbooks : Books s.world)
    (hheld : (s.flows f).held = some (mint, p.positionId, exitId))
    (hop : (s.flows f).request freshId now = some op) (hw : s.world.step op = some w)
    (hp : s.world.ledger.position? mint = some p) (he : p.pendingExitId = some exitId)
    (hp' : w.ledger.position? mint = some p') : p'.pendingExitId = none := by
  cases hf : s.flows f with
  | idle | evaluating | marking | claiming | failing | finished => rw [hf] at hheld; cases hheld
  | quoting => rw [hf] at hop; cases hop
  | releasing plan e failure =>
    rw [hf] at hop hheld
    obtain ⟨rfl, hid, rfl⟩ : plan.snapshot.mint = mint ∧
        plan.snapshot.position.positionId = p.positionId ∧ e = exitId := by simpa [Flow.held] using hheld
    cases hop
    exact release_clears hw hp hid.symm he hp'
  | selling plan e amount proceeds =>
    have hasks : (s.flows f).asks = some (plan, e, amount) := by rw [hf]; rfl
    rw [hf] at hop hheld
    obtain ⟨rfl, hid, rfl⟩ : plan.snapshot.mint = mint ∧
        plan.snapshot.position.positionId = p.positionId ∧ e = exitId := by simpa [Flow.held] using hheld
    obtain ⟨hamount, -⟩ := hs f plan _ amount hasks
    have hpos := (hbooks.opened _ p hp).amountPos
    cases hop
    refine sale_clears hw hp (matches_iff.2 ⟨fun x hx => ?_, fun x hx => ?_⟩) (lt_min hamount hpos) hp'
    · cases hx; exact hid
    · cases hx; exact he

/-! ## Every pending exit is held -/

/-- A flow that locks its position keeps its exit while it waits. -/
theorem Exits.Moves.held {s : Exits} {a : Act} {f : Nat} {flow : Flow} {x : Mint × Uuid × Uuid}
    (h : s.Moves a (s.flows f) flow) (hf : a.flow? = some f) (hok : letsGo s a) (hlock : s.locks f)
    (hx : (s.flows f).held = some x) : flow.held = some x := by
  have holds : (s.flows f).holds ≠ none := by rw [Flow.holds_eq, hx]; exact Option.some_ne_none _
  generalize hcur : s.flows f = cur at h hx holds
  cases h with
  | quotes | quoteFails | saleFails => exact hx
  | evaluates | skips | closes | detects | detectionFails => cases hx
  | releaseFails =>
    cases hf
    exact absurd hlock (hok (by rw [hcur]; rfl))
  | writeFails hnone => exact absurd hnone holds
  | abandoned =>
    cases hf
    exact absurd hlock hok

/-- A granted claim is held by the flow that asked for it. -/
theorem granted_held {flow : Flow} {ret : Ret} {freshId : Uuid} {now : Int} {op : Op} {g : Grant}
    (hop : flow.request freshId now = some op) (hg : grantOf (op, ret) = some g) :
    (flow.resume ret).held = some (g.mint, g.positionId, g.exitId) := by
  cases flow with
  | idle | evaluating | quoting | finished => cases hop
  | marking | selling | releasing | failing => cases hop; cases hg
  | claiming plan =>
    cases hop
    cases ret with
    | claimed claim =>
      cases claim with
      | none => cases hg
      | some x =>
        cases hg
        simp only [Flow.resume, Ret.grant?, Plan.claimed]
        split_ifs
        · rfl
        · split
          · rfl
          · split_ifs <;> rfl
    | done | bought | sold | armed | failures | raised => cases hg

theorem pendingHeld_step {s s' : Exits} {a : Act} (hs : Granted s) (hbooks : Books s.world)
    (hheld : PendingHeld s) (hok : letsGo s a) (h : s.step a = some s') : PendingHeld s' := by
  intro mint p' hp' hstate
  cases step_shape h with
  | @moved _ f flow hf hmove =>
    obtain ⟨exitId, g, he, hg⟩ := hheld mint p' hp' hstate
    by_cases hgf : g = f
    · subst hgf
      have hlock : s.locks g := ⟨_, hg, p', hp', rfl, hstate, he⟩
      exact ⟨exitId, g, he, by rw [move_flows_self]; exact hmove.held hf hok hlock hg⟩
    · exact ⟨exitId, g, he, by rw [move_flows_of_ne s flow hgf]; exact hg⟩
  | @wrote f freshId now op world hop hw =>
    rcases exitPending_step hw hp' hstate with ⟨p, hp, hid, hpstate, hpe⟩ | ⟨exitId, amount, he, hgrant⟩
    · obtain ⟨exitId, g, he, hg⟩ := hheld mint p hp hpstate
      have hgf : g ≠ f := by
        rintro rfl
        have hnone := held_request_ends hs hbooks hg hop hw hp he hp'
        rw [← hpe, he] at hnone; cases hnone
      refine ⟨exitId, g, hpe ▸ he, ?_⟩
      rw [wrote_flows_of_ne s op world hgf, ← hid]; exact hg
    · exact ⟨exitId, f, he, by rw [wrote_flows_self]; exact granted_held hop hgrant⟩
  | @other op world hoff hw =>
    rcases exitPending_step hw hp' hstate with ⟨p, hp, hid, hpstate, hpe⟩ | ⟨exitId, amount, he, hgrant⟩
    · obtain ⟨exitId, g, he, hg⟩ := hheld mint p hp hpstate
      exact ⟨exitId, g, hpe ▸ he, by rw [← hid]; exact hg⟩
    · cases op <;> cases hoff <;> cases hgrant

/-! ## No orphan -/

/-- The invariant behind `NoOrphan`. -/
structure Kept (s : Exits) : Prop where
  granted : Granted s
  books : Books s.world
  held : PendingHeld s

theorem kept_step {s s' : Exits} {a : Act} (hs : Kept s) (hok : letsGo s a) (h : s.step a = some s') :
    Kept s' := by
  refine ⟨granted_step hs.granted hs.books h, ?_, pendingHeld_step hs.granted hs.books hs.held hok h⟩
  rcases step_world hs.granted h with he | ⟨op, -, hw⟩
  · rw [he]; exact hs.books
  · exact books_step hs.books hw

theorem kept_start : Kept Exits.start := by
  refine ⟨?_, books_start, ?_⟩
  · intro f plan exitId amount hx; cases hx
  · intro mint p hp; cases hp

/-- An open position that is not in `EXIT_PENDING` is claimable and is evaluated. -/
theorem claimable_of_free {w : World} (hbooks : Books w) {mint : Mint} {p : Position}
    (hp : w.ledger.position? mint = some p) (hfree : p.riskState ≠ .exitPending) :
    (∀ reason exitId, (claimPositionExit mint p.positionId reason exitId w.ledger).1 =
      some (exitId, p.tokenAmountRaw)) ∧ ¬ skips p := by
  have hopen := hbooks.opened mint p hp
  constructor
  · intro reason exitId
    have hwith : w.ledger.positionWithId? mint p.positionId = some p :=
      positionWithId?_eq_some.2 ⟨hp, rfl⟩
    unfold claimPositionExit
    rw [hwith]
    simp [hfree]
  · rintro (h | h | h)
    · have := hopen.amountPos; omega
    · have := hopen.costPos; omega
    · exact hfree h

/-- No orphaned claim. In every interleaving of exit flows in which no flow is abandoned while its
claim locks the position, and no release of such a claim raises, an open position whose pending
exit no running flow holds can be claimed again and is not skipped. -/
theorem no_orphan {acts : List Act} {s : Exits} (h : Run Exits.step letsGo Exits.start acts s) :
    NoOrphan s := by
  have hs : Kept s := h.invariant (fun _ _ _ hs hok h => kept_step hs hok h) kept_start
  intro mint p hp hnone
  refine claimable_of_free hs.books hp ?_
  intro hstate
  obtain ⟨exitId, f, he, hf⟩ := hs.held mint p hp hstate
  have hholds : (s.flows f).holds = some exitId := by rw [Flow.holds_eq, hf]; rfl
  exact hnone f exitId hholds he

instance (s : Exits) (f : Nat) : Decidable (s.locks f) :=
  inferInstanceAs (Decidable (∃ x ∈ (s.flows f).held, ∃ p ∈ s.world.ledger.position? x.1,
    p.positionId = x.2.1 ∧ p.riskState = .exitPending ∧ p.pendingExitId = some x.2.2))

instance (s : Exits) (a : Act) : Decidable (letsGo s a) := by
  cases a <;> unfold letsGo <;> infer_instance

/-- A take-profit whose exit quote fails: the claim is released. -/
theorem no_orphan_quoteFails : ∃ s : Exits, (s.world.ledger.position? "mint").isSome = true ∧
    NoOrphan s := by
  obtain ⟨s, hrun, hs⟩ : ∃ s, Run Exits.step letsGo Exits.start
      [.other (.buy sampleBuy ⟨0⟩ 0), .evaluate 0 "mint", .quoteArrives 0 1500, .writes 0 ⟨0⟩ 1,
        .writes 0 ⟨1⟩ 2, .quoteRaises 0 "timeout", .writes 0 ⟨0⟩ 3, .writes 0 ⟨0⟩ 4] s ∧
      (s.world.ledger.position? "mint").isSome = true := Run.exists_of_any (by decide +kernel)
  exact ⟨s, hs, no_orphan hrun⟩

/-- The actions move the first flow only. -/
def firstFlow (_ : Exits) (a : Act) : Prop := ∀ f ∈ a.flow?, f < 1

instance (s : Exits) (a : Act) : Decidable (firstFlow s a) :=
  inferInstanceAs (Decidable (∀ f ∈ a.flow?, f < 1))

/-- The flow is cancelled while it waits for its exit quote: the position stays in `EXIT_PENDING`
under an exit id nobody holds. -/
theorem cancelled_orphan : ¬ ∀ (acts : List Act) (s : Exits),
    Run Exits.step Run.anyStep Exits.start acts s → NoOrphan s := by
  intro hall
  obtain ⟨s, hrun, hs, hdone⟩ : ∃ s, Run Exits.step firstFlow Exits.start
      [.other (.buy sampleBuy ⟨0⟩ 0), .evaluate 0 "mint", .quoteArrives 0 1500, .writes 0 ⟨0⟩ 1,
        .writes 0 ⟨1⟩ 2, .abandon 0] s ∧
      (s.world.ledger.position? "mint").map (fun p => (p.riskState, p.pendingExitId)) =
        some (.exitPending, some ⟨1⟩) ∧ (s.flows 0).holds = none := Run.exists_of_any (by decide +kernel)
  obtain ⟨p, hp, hstate⟩ := Option.map_eq_some_iff.1 hs
  have hidle := flows_idle hrun
  refine (hall _ s (hrun.weaken fun _ _ _ => trivial) "mint" p hp ?_).2 (.inr (.inr ?_))
  · intro f exitId hf
    rcases Nat.eq_zero_or_pos f with rfl | hpos
    · rw [hdone] at hf; cases hf
    · rw [hidle f hpos] at hf; cases hf
  · exact congrArg Prod.fst hstate

/-! ## An orphan stays -/

/-- The position a flow works on. -/
def Flow.target : Flow → Option Uuid
  | .evaluating snapshot | .marking snapshot _ => some snapshot.position.positionId
  | .claiming plan | .quoting plan _ _ | .selling plan _ _ _ | .releasing plan _ _ =>
    some plan.snapshot.position.positionId
  | .failing _ positionId _ => some positionId
  | .idle | .finished => none

/-- The position a call of a flow is about. -/
def opAim : Op → Option Uuid
  | .claim _ positionId _ _ | .release _ positionId _ _ | .mark _ positionId _ _
  | .quoteFailure _ positionId _ _ => some positionId
  | .sell r _ => r.positionId
  | _ => none

theorem request_aim {flow : Flow} {freshId : Uuid} {now : Int} {op : Op}
    (h : flow.request freshId now = some op) : opAim op = flow.target := by
  cases flow with
  | idle | evaluating | quoting | finished => cases h
  | marking | claiming | selling | releasing | failing => cases h; rfl

/-- The position is in `EXIT_PENDING`, and the flows working on it are only about to ask for its
exit. -/
structure Stuck (s : Exits) (mint : Mint) (positionId exitId : Uuid) : Prop where
  held : Holds s.world mint positionId exitId
  flows : ∀ f, (s.flows f).target = some positionId → ∃ plan, s.flows f = .claiming plan

/-- A position that holds an exit keeps it through a call about other positions. -/
theorem holds_unaimed {w w' : World} {op : Op} {mint : Mint} {positionId exitId : Uuid}
    (hw : Holds w mint positionId exitId) (h : w.step op = some w')
    (hrelease : ∀ m e d, op ≠ .release m positionId e d)
    (hfailure : ∀ f ∈ op.failedQuote?, f.2.1 ≠ positionId)
    (hsale : ∀ r ∈ op.sale?, ∃ id, r.positionId = some id ∧ id ≠ positionId) :
    Holds w' mint positionId exitId := by
  obtain ⟨q, hq, hqid, hqe, hqs⟩ := hw
  rcases position_kept h hq with hq' | hacted
  · exact ⟨q, hq', hqid, hqe, hqs⟩
  · generalize (op.run w.ledger).1 = ret at hacted
    cases hacted with
    | claimed _ hs => exact absurd hqs hs
    | released hid => exact absurd (by rw [← hid, hqid]) (hrelease _ _ _)
    | touched htouch hq' =>
      have hsame := htouch.sameClaim
      refine ⟨_, hq', hsame.positionId.trans hqid, hsame.pendingExitId.trans hqe, ?_⟩
      refine htouch.keepsExit (fun f hf => ?_) hqs
      cases htouch with
      | marked | lifecycled | armed => cases hf
      | quoteFailed hid => exact absurd (by cases hf; rw [← hid, hqid]) (hfailure f hf)
    | sold hmatch =>
      obtain ⟨id, hid, hne⟩ := hsale _ rfl
      exact absurd ((matches_iff.1 hmatch).1 id hid |>.trans hqid) hne

/-- A flow that resumes works on the position it worked on. -/
theorem resume_target {flow : Flow} {ret : Ret} {positionId : Uuid}
    (h : (flow.resume ret).target = some positionId) : flow.target = some positionId := by
  cases flow with
  | idle | evaluating | quoting | finished => exact h
  | failing => cases h
  | marking snapshot value =>
    simp only [Flow.resume, exitPlan?] at h
    split_ifs at h <;> first | exact h | cases h
  | claiming plan =>
    simp only [Flow.resume] at h
    split at h
    · cases h
    · unfold Plan.claimed at h
      simp only at h
      split_ifs at h
      · exact h
      · split at h
        · exact h
        · split_ifs at h <;> exact h
  | selling plan =>
    simp only [Flow.resume] at h
    split_ifs at h
    · exact h
    · cases h
  | releasing plan e failure =>
    cases failure with
    | none => cases h
    | some => exact h

/-- No claim of the stuck position is granted. -/
theorem Stuck.refused {s : Exits} {w : World} {op : Op} {mint : Mint} {positionId exitId : Uuid}
    (hs : Stuck s mint positionId exitId) (hbooks : Books s.world) (h : s.world.step op = some w)
    {g : Grant} (hg : grantOf (op, (op.run s.world.ledger).1) = some g) : g.positionId ≠ positionId := by
  rintro rfl
  obtain ⟨q, hq, hqid, -, hqs⟩ := hs.held
  obtain ⟨p, -, hp, hid, hne, -⟩ := grant_turn h hg
  have hm := hbooks.idInjective hp hq (hid.trans hqid.symm)
  rw [hm, hq] at hp; cases hp
  exact hne hqs

/-- A flow that writes about the stuck position asks for its exit. -/
theorem Stuck.claims {s : Exits} {f : Nat} {freshId : Uuid} {now : Int} {op : Op} {mint : Mint}
    {positionId exitId : Uuid} (hs : Stuck s mint positionId exitId)
    (hop : (s.flows f).request freshId now = some op) (hid : opAim op = some positionId) :
    ∃ plan, s.flows f = .claiming plan ∧
      op = .claim plan.snapshot.mint positionId plan.reason freshId := by
  have ht : (s.flows f).target = some positionId := (request_aim hop).symm.trans hid
  obtain ⟨plan, hplan⟩ := hs.flows f ht
  rw [hplan] at hop ht
  cases hop; cases ht
  exact ⟨plan, hplan, rfl⟩

/-- The claim of the stuck position is refused, and its flow turns away from it. -/
theorem Stuck.turnsAway {s : Exits} {w : World} {f : Nat} {freshId : Uuid} {now : Int} {op : Op} {mint : Mint}
    {positionId exitId : Uuid} (hs : Stuck s mint positionId exitId) (hbooks : Books s.world)
    (hop : (s.flows f).request freshId now = some op) (hw : s.world.step op = some w) :
    ((s.flows f).resume (op.run s.world.ledger).1).target ≠ some positionId := by
  intro ht
  have ht' := resume_target ht
  obtain ⟨plan, hplan, hclaim⟩ := hs.claims hop ((request_aim hop).trans ht')
  have hnone : (op.run s.world.ledger).1.grant? = none := by
    cases hgrant : (op.run s.world.ledger).1.grant? with
    | none => rfl
    | some x =>
      have hof : grantOf (op, (op.run s.world.ledger).1) =
          some ⟨plan.snapshot.mint, positionId, x.1, x.2⟩ := by
        generalize (op.run s.world.ledger).1 = ret at hgrant
        rw [hclaim]
        exact grantOf_claim hgrant
      exact absurd rfl (hs.refused hbooks hw hof)
  rw [hplan] at ht
  simp only [Flow.resume, hnone] at ht
  cases ht

theorem stuck_step {s s' : Exits} {a : Act} {mint : Mint} {positionId exitId : Uuid}
    (hbooks : Books s.world) (hs : Stuck s mint positionId exitId) (h : s.step a = some s') :
    Stuck s' mint positionId exitId := by
  obtain ⟨q, hq, hqid, -, hqs⟩ := hs.held
  cases step_shape h with
  | @moved _ f flow _ hmove =>
    refine ⟨hs.held, fun g hg => ?_⟩
    by_cases hgf : g = f
    · subst hgf
      rw [move_flows_self] at hg ⊢
      have old := hs.flows g
      generalize s.flows g = cur at hmove old
      cases hmove with
      | @evaluates _ m p hp hskip =>
        -- the evaluation of the stuck position returns at once
        have hm := hbooks.idInjective hp hq ((Option.some.inj hg).trans hqid.symm)
        rw [hm, hq] at hp; cases hp
        exact absurd (.inr (.inr hqs)) hskip
      | closes => exact ⟨_, rfl⟩
      | skips | releaseFails | writeFails | abandoned => cases hg
      | detects | quotes | detectionFails | quoteFails | saleFails =>
        obtain ⟨plan, hplan⟩ := old hg
        cases hplan
    · rw [move_flows_of_ne s flow hgf] at hg ⊢
      exact hs.flows g hg
  | @wrote f freshId now op world hop hw =>
    -- only a claim is about the stuck position
    refine ⟨holds_unaimed hs.held hw ?_ ?_ ?_, fun g hg => ?_⟩
    · rintro m e d rfl
      obtain ⟨plan, -, hclaim⟩ := hs.claims hop rfl
      cases hclaim
    · intro x hx hid
      cases op <;> cases hx
      cases hid
      obtain ⟨plan, -, hclaim⟩ := hs.claims hop rfl
      cases hclaim
    · intro r hr
      cases op <;> cases hr
      obtain ⟨id, hid⟩ : ∃ id, r.positionId = some id := by
        generalize s.flows f = cur at hop
        cases cur <;> cases hop
        exact ⟨_, rfl⟩
      refine ⟨id, hid, ?_⟩
      rintro rfl
      obtain ⟨plan, -, hclaim⟩ := hs.claims hop hid
      cases hclaim
    · by_cases hgf : g = f
      · subst hgf
        rw [wrote_flows_self] at hg
        exact absurd hg (hs.turnsAway hbooks hop hw)
      · rw [wrote_flows_of_ne s op world hgf] at hg ⊢
        exact hs.flows g hg
  | @other op world hoff hw =>
    refine ⟨holds_unaimed hs.held hw ?_ ?_ ?_, hs.flows⟩
    · rintro m e d rfl; cases hoff
    · intro f hf; cases op <;> cases hf; cases hoff
    · intro r hr; cases op <;> cases hr; cases hoff

/-- An orphan stays: from a state in which a position is in `EXIT_PENDING` and no flow that works on
it is past asking for its exit, every further run of flows leaves it there, whatever is started. -/
theorem orphan_stays {acts acts' : List Act} {s s' : Exits} {mint : Mint} {positionId exitId : Uuid}
    (hrun : Run Exits.step Run.anyStep Exits.start acts s) (hs : Stuck s mint positionId exitId)
    (h : Run Exits.step Run.anyStep s acts' s') :
    ∃ p, s'.world.ledger.position? mint = some p ∧ p.positionId = positionId ∧ skips p ∧
      ∀ reason freshId, (claimPositionExit mint positionId reason freshId s'.world.ledger).1 = none := by
  obtain ⟨hgranted, hbooks⟩ : Granted s ∧ Books s.world := ⟨(exits_refine hrun).1, exits_books hrun⟩
  have hstep : ∀ s a s', (Stuck s mint positionId exitId ∧ Granted s ∧ Books s.world) → Run.anyStep s a →
      s.step a = some s' → Stuck s' mint positionId exitId ∧ Granted s' ∧ Books s'.world := by
    rintro s a s' ⟨hs, hgranted, hbooks⟩ - h
    refine ⟨stuck_step hbooks hs h, granted_step hgranted hbooks h, ?_⟩
    rcases step_world hgranted h with he | ⟨op, -, hw⟩
    · rw [he]; exact hbooks
    · exact books_step hbooks hw
  obtain ⟨hend, -, -⟩ := h.invariant hstep ⟨hs, hgranted, hbooks⟩
  obtain ⟨p, hp, hid, -, hstate⟩ := hend.held
  refine ⟨p, hp, hid, .inr (.inr hstate), fun reason freshId => ?_⟩
  unfold claimPositionExit
  rw [positionWithId?_eq_some.2 ⟨hp, hid⟩]
  simp [hstate]

end Aibot.Exit
