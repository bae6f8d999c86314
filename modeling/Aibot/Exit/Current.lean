/-
Decisions on the current position: between a flow's read of a position and its two commits (the
mark, then the claim and the sale) other flows may sell from it. The stop path compares the claimed
amount with the one it quoted for; the mark and the take-profit path do not look again.
-/
import Aibot.Exit.Refine

namespace Aibot.Exit

open Aibot.Risk

/-- Every mark was quoted for the amount it was stored on, and no take-profit was taken twice. -/
def DecidesOnCurrent (s : Exits) : Prop :=
  (∀ x ∈ s.stores, x.1 = x.2) ∧ ∀ done ∈ s.profitSales, done = false

/-- Nothing was sold from the position since the flow read it, if it is still open. -/
def Exits.unsoldSince (s : Exits) (snapshot : Snapshot) : Prop :=
  ∀ q ∈ s.world.ledger.positionWithId? snapshot.mint snapshot.position.positionId,
    s.salesOf q.positionId = snapshot.sales

/-- What a flow marks, or claims a take-profit on, is what it read as far as sales go. -/
def Exits.actsOnCurrent (s : Exits) : Flow → Prop
  | .marking snapshot _ => s.unsoldSince snapshot
  | .claiming plan => plan.reason = .takeProfit30Sell80 → s.unsoldSince plan.snapshot
  | _ => True

/-- The flows mark, and claim take-profits, on current positions only. -/
def readsCurrent (s : Exits) : Act → Prop
  | .writes f _ _ => s.actsOnCurrent (s.flows f)
  | _ => True

/-! ## What a snapshot still says -/

/-- As long as nothing was sold since, the position has the amount and the take-profit flag that
were read. -/
structure Faithful (w : World) (snapshot : Snapshot) : Prop where
  drawn : snapshot.position.positionId ∈ w.ids
  counted : snapshot.sales ≤ (sellsOf w.recorded snapshot.position.positionId).length
  same : (sellsOf w.recorded snapshot.position.positionId).length = snapshot.sales →
    ∀ mint q, w.ledger.position? mint = some q → q.positionId = snapshot.position.positionId →
      q.tokenAmountRaw = snapshot.position.tokenAmountRaw ∧
        q.takeProfitDone = snapshot.position.takeProfitDone

/-- The sales of a position only grow. -/
theorem sellsOf_step {w w' : World} {op : Op} (h : w.step op = some w') (positionId : Uuid) :
    (sellsOf w.recorded positionId).length ≤ (sellsOf w'.recorded positionId).length := by
  obtain ⟨-, rfl⟩ := World.step_eq_some h
  unfold sellsOf World.after
  simp only
  rw [sells_append, List.filter_append, List.length_append]
  exact Nat.le_add_right ..

/-- A recorded sale adds to the sales of its position. -/
theorem sellsOf_sold {w w' : World} {r : SellRequest} {now : Int} (h : w.step (.sell r now) = some w')
    (hret : ((Op.sell r now).run w.ledger).1.recordedSale = true) {p : Position}
    (hp : w.ledger.position? r.mint = some p) :
    (sellsOf w'.recorded p.positionId).length = (sellsOf w.recorded p.positionId).length + 1 := by
  have hturn := step_turn h
  generalize ((Op.sell r now).run w.ledger).1 = ret at hturn hret
  cases hturn with
  | idle hr => rw [hr.2] at hret; cases hret
  | touched _ _ htouch => cases htouch
  | @sold _ _ q sold _ hq _ _ _ _ _ hrec =>
    rw [hp] at hq; cases hq
    have hid : (r.record p sold).positionId = p.positionId := rfl
    rw [hrec.sale, if_pos hid, List.length_append, List.length_singleton]

/-- What a snapshot says stays true under every ledger call. -/
theorem Faithful.step {w w' : World} {op : Op} {snapshot : Snapshot} (hs : Faithful w snapshot)
    (h : w.step op = some w') : Faithful w' snapshot := by
  have hgrow := sellsOf_step h snapshot.position.positionId
  have hcounted := hs.counted
  refine ⟨?_, by omega, fun hcount mint q' hq' hid => ?_⟩
  · rw [(step_log h).2]; exact List.mem_append_left _ hs.drawn
  · have hsame := hs.same (by omega)
    rcases position_step h hq' with hq | hwrote
    · exact hsame mint q' hq hid
    · generalize hret : (op.run w.ledger).1 = ret at hwrote
      cases hwrote with
      | bought _ hfresh =>
        refine absurd hs.drawn ?_
        rw [← hid]; exact hfresh
      | @claimed _ _ _ _ p hq => exact hsame mint p hq hid
      | @released _ _ _ _ p hq => exact hsame mint p hq hid
      | touched _ hq htouch =>
        have hsc := htouch.sameClaim
        obtain ⟨ha, ht⟩ := hsame _ _ hq (hsc.positionId.symm.trans hid)
        exact ⟨hsc.tokenAmountRaw.trans ha, hsc.takeProfitDone.trans ht⟩
      | @sold r now p closed sold hq _ _ _ =>
        -- the sale is counted
        have hsold := sellsOf_sold h (by rw [hret]; rfl) hq
        have hpid : p.positionId = snapshot.position.positionId := by
          rw [← hid]; exact (leaves_positionId r p sold).symm
        rw [hpid] at hsold
        omega

/-- A snapshot taken now says what is. -/
theorem faithful_read {s : Exits} (hbooks : Books s.world) {mint m : Mint} {p : Position}
    (hp : s.world.ledger.position? mint = some p) :
    Faithful s.world ⟨m, p, s.salesOf p.positionId⟩ := by
  obtain ⟨b, hb, -, hbi, -⟩ := (hbooks.opened mint p hp).bought
  refine ⟨?_, le_refl _, fun _ mint' q hq hid => ?_⟩
  · show p.positionId ∈ s.world.ids
    rw [← hbi]; exact hbooks.buysIssued b hb
  · have hm := hbooks.idInjective hq hp hid
    rw [hm, hp] at hq; cases hq
    exact ⟨rfl, rfl⟩

/-! ## The invariant -/

/-- The snapshot of a flow that has not claimed yet. -/
def Flow.snapshot? : Flow → Option Snapshot
  | .evaluating snapshot | .marking snapshot _ => some snapshot
  | .claiming plan => some plan.snapshot
  | _ => none

/-- The plan of a flow. -/
def Flow.plan? : Flow → Option Plan
  | .claiming plan | .quoting plan _ _ | .selling plan _ _ _ => some plan
  | _ => none

/-- The exit of a take-profit finds the take-profit not done. -/
def ProfitOpen (w : World) (exitId : Uuid) : Prop :=
  exitId ∈ w.ids ∧ ∀ mint q, w.ledger.position? mint = some q → q.pendingExitId = some exitId →
    q.takeProfitDone = false

/-- What carries the decisions of the flows. -/
structure Sound (s : Exits) : Prop where
  snapshots : ∀ f snapshot, (s.flows f).snapshot? = some snapshot → Faithful s.world snapshot
  plans : ∀ f plan, (s.flows f).plan? = some plan → plan.reason = .takeProfit30Sell80 →
    plan.snapshot.position.takeProfitDone = false
  profits : ∀ f plan exitId amount, (s.flows f).asks = some (plan, exitId, amount) →
    plan.reason = .takeProfit30Sell80 → ProfitOpen s.world exitId
  current : DecidesOnCurrent s

/-- A take-profit's exit stays open for it: only a sale sets the flag, and it clears the exit. -/
theorem ProfitOpen.step {w w' : World} {op : Op} {exitId : Uuid} (hs : ProfitOpen w exitId)
    (h : w.step op = some w') : ProfitOpen w' exitId := by
  obtain ⟨hdrawn, hopen⟩ := hs
  refine ⟨by rw [(step_log h).2]; exact List.mem_append_left _ hdrawn, fun mint q' hq' he => ?_⟩
  rcases position_step h hq' with hq | hwrote
  · exact hopen mint q' hq he
  · generalize (op.run w.ledger).1 = ret at hwrote
    cases hwrote with
    | bought => rfl
    | claimed _ _ _ hfresh => cases he; exact absurd hdrawn hfresh
    | released => cases he
    | touched _ hq htouch =>
      have hsc := htouch.sameClaim
      rw [hsc.takeProfitDone]
      exact hopen _ _ hq (hsc.pendingExitId.symm.trans he)
    | @sold r _ p _ sold => rw [(leaves_pending r p sold).1] at he; cases he

/-- `evaluate_paper_position` takes profit only where the take-profit is not done. -/
theorem exitPlan_profit {snapshot : Snapshot} {value : Int} {plan : Plan}
    (h : exitPlan? snapshot value = some plan) : plan.snapshot = snapshot ∧
      (plan.reason = .takeProfit30Sell80 → snapshot.position.takeProfitDone = false) := by
  unfold exitPlan? at h
  simp only at h
  split_ifs at h with hstop hprofit
  · cases h
    refine ⟨rfl, fun hr => ?_⟩
    unfold stopReason at hr
    split_ifs at hr
  · cases h
    exact ⟨rfl, fun _ => by simpa using hprofit.2⟩

theorem claimed_snapshot (plan : Plan) (exitId : Uuid) (currentAmount : Int) :
    (plan.claimed exitId currentAmount).snapshot? = none := by
  unfold Plan.claimed
  simp only
  split_ifs
  · rfl
  · split
    · rfl
    · split_ifs <;> rfl

theorem claimed_plan {plan plan' : Plan} {exitId : Uuid} {currentAmount : Int}
    (h : (plan.claimed exitId currentAmount).plan? = some plan') : plan' = plan := by
  unfold Plan.claimed at h
  simp only at h
  split_ifs at h
  · cases h
  · split at h
    · cases h; rfl
    · split_ifs at h <;> cases h
      rfl

/-- A flow that resumes has no snapshot it did not have. -/
theorem resume_snapshot {flow : Flow} {ret : Ret} {snapshot : Snapshot}
    (h : (flow.resume ret).snapshot? = some snapshot) : flow.snapshot? = some snapshot := by
  cases flow with
  | idle | evaluating | quoting | finished => exact h
  | failing => cases h
  | marking sn value =>
    simp only [Flow.resume] at h
    cases hp : exitPlan? sn value with
    | none => rw [hp] at h; cases h
    | some plan =>
      rw [hp] at h; cases h
      rw [(exitPlan_profit hp).1]; rfl
  | claiming plan =>
    simp only [Flow.resume] at h
    split at h
    · cases h
    · rw [claimed_snapshot] at h; cases h
  | selling plan => simp only [Flow.resume] at h; split_ifs at h <;> cases h
  | releasing plan e failure => cases failure <;> cases h

/-- A flow that resumes goes on with its plan, or has just made it from its quote. -/
theorem resume_plan {flow : Flow} {ret : Ret} {plan : Plan} (h : (flow.resume ret).plan? = some plan) :
    flow.plan? = some plan ∨ ∃ snapshot value, exitPlan? snapshot value = some plan := by
  cases flow with
  | idle | evaluating | quoting | finished => exact .inl h
  | failing => cases h
  | marking sn value =>
    simp only [Flow.resume] at h
    cases hp : exitPlan? sn value with
    | none => rw [hp] at h; cases h
    | some made => rw [hp] at h; cases h; exact .inr ⟨sn, value, hp⟩
  | claiming plan' =>
    simp only [Flow.resume] at h
    split at h
    · cases h
    · exact .inl (by rw [claimed_plan h]; rfl)
  | selling plan' => simp only [Flow.resume] at h; split_ifs at h <;> cases h
  | releasing plan' e failure => cases failure <;> cases h

/-! ## Every step keeps it -/

theorem snapshots_step {s s' : Exits} {a : Act} (hs : Sound s) (hbooks : Books s.world)
    (h : s.step a = some s') : ∀ f snapshot, (s'.flows f).snapshot? = some snapshot →
      Faithful s'.world snapshot := by
  intro g snapshot hg
  cases step_shape h with
  | @moved _ f flow _ hmove =>
    by_cases hgf : g = f
    · subst hgf
      rw [move_flows_self] at hg
      have old := hs.snapshots g
      generalize s.flows g = cur at hmove old
      cases hmove with
      | evaluates hp => cases hg; exact faithful_read hbooks hp
      | closes hp => cases hg; exact faithful_read hbooks hp
      | detects => exact old snapshot hg
      | skips | quotes | detectionFails | quoteFails | saleFails | releaseFails | writeFails
      | abandoned => cases hg
    · rw [move_flows_of_ne s flow hgf] at hg
      exact hs.snapshots g snapshot hg
  | @wrote f _ _ op world _ hw =>
    by_cases hgf : g = f
    · subst hgf
      rw [wrote_flows_self] at hg
      exact (hs.snapshots g snapshot (resume_snapshot hg)).step hw
    · rw [wrote_flows_of_ne s op world hgf] at hg
      exact (hs.snapshots g snapshot hg).step hw
  | other _ hw => exact (hs.snapshots g snapshot hg).step hw

theorem plans_step {s s' : Exits} {a : Act} (hs : Sound s) (h : s.step a = some s') :
    ∀ f plan, (s'.flows f).plan? = some plan → plan.reason = .takeProfit30Sell80 →
      plan.snapshot.position.takeProfitDone = false := by
  intro g plan hg hr
  cases step_shape h with
  | @moved _ f flow _ hmove =>
    by_cases hgf : g = f
    · subst hgf
      rw [move_flows_self] at hg
      have old := hs.plans g
      generalize s.flows g = cur at hmove old
      cases hmove with
      | closes => cases hg; cases hr
      | quotes => exact old plan hg hr
      | evaluates | skips | detects | detectionFails | quoteFails | saleFails | releaseFails
      | writeFails | abandoned => cases hg
    · rw [move_flows_of_ne s flow hgf] at hg
      exact hs.plans g plan hg hr
  | @wrote f _ _ op world _ _ =>
    by_cases hgf : g = f
    · subst hgf
      rw [wrote_flows_self] at hg
      rcases resume_plan hg with hplan | ⟨snapshot, value, hplan⟩
      · exact hs.plans g plan hplan hr
      · obtain ⟨hsnap, hprofit⟩ := exitPlan_profit hplan
        rw [hsnap]; exact hprofit hr
    · rw [wrote_flows_of_ne s op world hgf] at hg
      exact hs.plans g plan hg hr
  | other => exact hs.plans g plan hg hr

/-- The exit a take-profit has just been granted is open for it. -/
theorem profitOpen_granted {s : Exits} {w : World} {f : Nat} {plan : Plan} {freshId : Uuid}
    (hs : Sound s) (hsales : SalesExact s.world) (hf : s.flows f = .claiming plan)
    (hr : plan.reason = .takeProfit30Sell80) (hcur : s.unsoldSince plan.snapshot)
    (hw : s.world.step (.claim plan.snapshot.mint plan.snapshot.position.positionId plan.reason freshId) =
      some w) : ProfitOpen w freshId := by
  have hfresh := (World.step_eq_some hw).1 freshId rfl
  refine ⟨by rw [(step_log hw).2]; exact List.mem_append_right _ (List.mem_singleton.2 rfl), ?_⟩
  intro mint q' hq' he
  rcases position_step hw hq' with hq | hwrote
  · -- an exit that was pending before was drawn before
    obtain ⟨hg, -⟩ := hsales.pending mint q' hq freshId he
    exact absurd (hsales.drawn _ hg) hfresh
  · generalize (Op.run _ s.world.ledger).1 = ret at hwrote
    cases hwrote with
    | touched _ _ htouch => cases htouch
    | @claimed _ _ _ _ p hp hid =>
      have hcount := hcur p (positionWithId?_eq_some.2 ⟨hp, hid⟩)
      have hfaith := hs.snapshots f plan.snapshot (by rw [hf]; rfl)
      have hsame := hfaith.same (by rw [← hid]; exact hcount) _ p hp hid
      exact hsame.2.trans (hs.plans f plan (by rw [hf]; rfl) hr)

theorem profits_step {s s' : Exits} {a : Act} (hs : Sound s) (hsales : SalesExact s.world)
    (hok : readsCurrent s a) (h : s.step a = some s') :
    ∀ f plan exitId amount, (s'.flows f).asks = some (plan, exitId, amount) →
      plan.reason = .takeProfit30Sell80 → ProfitOpen s'.world exitId := by
  intro g plan exitId amount hg hr
  cases step_shape h with
  | @moved _ f flow _ hmove =>
    by_cases hgf : g = f
    · subst hgf
      rw [move_flows_self] at hg
      exact hs.profits g plan exitId amount (hmove.asks hg) hr
    · rw [move_flows_of_ne s flow hgf] at hg
      exact hs.profits g plan exitId amount hg hr
  | @wrote f freshId now op world hop hw =>
    by_cases hgf : g = f
    · subst hgf
      rw [wrote_flows_self] at hg
      obtain ⟨current, hflow, hgrant, -, -⟩ := resume_asks hop hg
      simp only [readsCurrent, Exits.actsOnCurrent, hflow] at hok
      rw [hflow] at hop; cases hop
      obtain ⟨-, -, -, -, -, -, -, hfreshId, -⟩ := grant_turn hw (grantOf_claim hgrant)
      cases hfreshId
      exact profitOpen_granted hs hsales hflow hr (hok hr) hw
    · rw [wrote_flows_of_ne s op world hgf] at hg
      exact (hs.profits g plan exitId amount hg hr).step hw
  | other _ hw => exact (hs.profits g plan exitId amount hg hr).step hw

/-- A mark of the current amount. -/
theorem storing_current {s : Exits} (hs : Sound s) {f freshId now} (hok : readsCurrent s (.writes f freshId now))
    {x : Int × Int} (hx : s.storing (s.flows f) = some x) : x.1 = x.2 := by
  cases hf : s.flows f with
  | marking snapshot value =>
    simp only [readsCurrent, Exits.actsOnCurrent, hf] at hok
    rw [hf] at hx
    obtain ⟨q, hq, hx⟩ := Option.bind_eq_some_iff.1 hx
    split_ifs at hx
    cases hx
    obtain ⟨hq', hid⟩ := positionWithId?_eq_some.1 hq
    have hfaith := hs.snapshots f snapshot (by rw [hf]; rfl)
    have hcount := hok q hq
    exact (hfaith.same (by rw [← hid]; exact hcount) _ q hq' hid).1.symm
  | idle | evaluating | claiming | quoting | selling | releasing | failing | finished =>
    rw [hf] at hx; cases hx

/-- A first take-profit. -/
theorem profitTaking_first {s : Exits} (hs : Sound s) {f : Nat} {freshId : Uuid} {now : Int} {op : Op}
    {w : World} (hop : (s.flows f).request freshId now = some op) (hw : s.world.step op = some w)
    {done : Bool} (hx : s.profitTaking (op.run s.world.ledger).1 (s.flows f) = some done) :
    done = false := by
  cases hf : s.flows f with
  | selling plan exitId amount proceeds =>
    have hasks : (s.flows f).asks = some (plan, exitId, amount) := by rw [hf]; rfl
    rw [hf] at hx hop
    simp only [Exits.profitTaking] at hx
    split_ifs at hx with hsold
    obtain ⟨p, hp, rfl⟩ := Option.map_eq_some_iff.1 hx
    have hopen := (hs.profits f plan exitId amount hasks hsold.2).2
    cases hop
    have hrecorded := hsold.1
    have hturn := step_turn hw
    generalize (Op.run _ s.world.ledger).1 = ret at hturn hrecorded
    cases hturn with
    | idle hr => rw [hr.2] at hrecorded; cases hrecorded
    | touched _ _ htouch => cases htouch
    | @sold _ _ q sold _ hq hmatch =>
      rw [hp] at hq; cases hq
      exact hopen _ p hp ((matches_iff.1 hmatch).2 exitId rfl)
  | idle | evaluating | marking | claiming | quoting | releasing | failing | finished =>
    rw [hf] at hx; cases hx

theorem current_step {s s' : Exits} {a : Act} (hs : Sound s) (hok : readsCurrent s a)
    (h : s.step a = some s') : DecidesOnCurrent s' := by
  obtain ⟨hstores, hprofits⟩ := hs.current
  cases step_shape h with
  | moved => exact ⟨hstores, hprofits⟩
  | other => exact ⟨hstores, hprofits⟩
  | @wrote f freshId now op world hop hw =>
    constructor
    · intro x hx
      rcases List.mem_append.1 hx with hx | hx
      · exact hstores x hx
      · exact storing_current hs hok (Option.mem_toList.1 hx)
    · intro done hd
      rcases List.mem_append.1 hd with hd | hd
      · exact hprofits done hd
      · exact profitTaking_first hs hop hw (Option.mem_toList.1 hd)

theorem sound_step {s s' : Exits} {a : Act} (hs : Sound s) (hbooks : Books s.world)
    (hsales : SalesExact s.world) (hok : readsCurrent s a) (h : s.step a = some s') : Sound s' :=
  ⟨snapshots_step hs hbooks h, plans_step hs h, profits_step hs hsales hok h, current_step hs hok h⟩

theorem sound_start : Sound Exits.start := by
  refine ⟨?_, ?_, ?_, ?_, ?_⟩
  · intro f snapshot hf; cases hf
  · intro f plan hf; cases hf
  · intro f plan exitId amount hf; cases hf
  · intro x hx; cases hx
  · intro done hd; cases hd

/-! ## The decisions -/

/-- Decisions on the current state. In every interleaving in which a flow marks a position, and
claims a take-profit on it, only if nothing was sold from the position since the flow read it: every
stored value was quoted for the amount it is stored on, and no take-profit is sold twice. -/
theorem decides_on_current {acts : List Act} {s : Exits}
    (h : Run Exits.step readsCurrent Exits.start acts s) : DecidesOnCurrent s := by
  have hstep : ∀ s a s', (Sound s ∧ Granted s ∧ Books s.world ∧ SalesExact s.world) → readsCurrent s a →
      s.step a = some s' → Sound s' ∧ Granted s' ∧ Books s'.world ∧ SalesExact s'.world := by
    rintro s a s' ⟨hs, hgranted, hbooks, hsales⟩ hok h
    refine ⟨sound_step hs hbooks hsales hok h, granted_step hgranted hbooks h, ?_⟩
    rcases step_world hgranted h with he | ⟨op, hop, hw⟩
    · rw [he]; exact ⟨hbooks, hsales⟩
    · exact ⟨books_step hbooks hw, salesExact_step hsales hop hw⟩
  have hgranted : Granted Exits.start := by intro f plan exitId amount hx; cases hx
  exact (h.invariant hstep ⟨sound_start, hgranted, books_start, salesExact_start⟩).1.current

instance (s : Exits) (snapshot : Snapshot) : Decidable (s.unsoldSince snapshot) :=
  inferInstanceAs (Decidable (∀ q ∈
    s.world.ledger.positionWithId? snapshot.mint snapshot.position.positionId,
      s.salesOf q.positionId = snapshot.sales))

instance (s : Exits) : (flow : Flow) → Decidable (s.actsOnCurrent flow)
  | .marking snapshot _ => inferInstanceAs (Decidable (s.unsoldSince snapshot))
  | .claiming plan =>
    inferInstanceAs (Decidable (plan.reason = .takeProfit30Sell80 → s.unsoldSince plan.snapshot))
  | .idle | .evaluating _ | .quoting .. | .selling .. | .releasing .. | .failing .. | .finished =>
    .isTrue trivial

instance (s : Exits) : (a : Act) → Decidable (readsCurrent s a)
  | .writes f _ _ => inferInstanceAs (Decidable (s.actsOnCurrent (s.flows f)))
  | .evaluate .. | .close .. | .quoteArrives .. | .quoteRaises .. | .writeRaises .. | .abandon _
  | .other _ => .isTrue trivial

/-- One evaluation to its take-profit sale, and a second one, of what is left, to its mark. -/
theorem decides_on_current_inTurn : ∃ s : Exits, s.stores = [(10, 10), (2, 2)] ∧
    s.profitSales = [false] ∧ DecidesOnCurrent s := by
  obtain ⟨s, hrun, hs⟩ : ∃ s, Run Exits.step readsCurrent Exits.start
      [.other (.buy sampleBuy ⟨0⟩ 0), .evaluate 0 "mint", .quoteArrives 0 1500, .writes 0 ⟨0⟩ 1,
        .writes 0 ⟨1⟩ 2, .quoteArrives 0 1200, .writes 0 ⟨0⟩ 3, .evaluate 1 "mint", .quoteArrives 1 280,
        .writes 1 ⟨0⟩ 4] s ∧ s.stores = [(10, 10), (2, 2)] ∧ s.profitSales = [false] :=
    Run.exists_of_any (by decide +kernel)
  exact ⟨s, hs.1, hs.2, decides_on_current hrun⟩

/-- Two flows read the position before either sells. The second marks the quote of ten tokens on the
two that are left, and takes the profit again. -/
theorem stale_decisions : ¬ ∀ (acts : List Act) (s : Exits),
    Run Exits.step Run.anyStep Exits.start acts s → DecidesOnCurrent s := by
  intro hall
  obtain ⟨s, hrun, -, hprofits⟩ : ∃ s, Run Exits.step Run.anyStep Exits.start
      [.other (.buy sampleBuy ⟨0⟩ 0), .evaluate 0 "mint", .evaluate 1 "mint", .quoteArrives 0 1500,
        .quoteArrives 1 1500, .writes 0 ⟨0⟩ 1, .writes 0 ⟨1⟩ 2, .quoteArrives 0 1200, .writes 0 ⟨0⟩ 3,
        .writes 1 ⟨0⟩ 4, .writes 1 ⟨2⟩ 5, .quoteArrives 1 150, .writes 1 ⟨0⟩ 6] s ∧
      s.stores = [(10, 10), (10, 2)] ∧ s.profitSales = [false, true] :=
    Run.exists_of_any (by decide +kernel)
  have hbad := (hall _ s hrun).2
  rw [hprofits] at hbad
  exact absurd (hbad true (by simp)) (by decide)

end Aibot.Exit
