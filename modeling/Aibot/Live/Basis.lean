/-
The cost basis of an open position: no chain of partial sales, of whatever sizes, uses it up, so the
ratio of a quote to it always exists. Held against the two loops that divide by it.
-/
import Aibot.Exit.Refine
import Aibot.Live.Loop

namespace Aibot.Live

open Aibot.Risk Aibot.Exit

/-- A position a loop can value: it has tokens, and a cost basis to compare their value with. -/
structure Valuable (p : Position) : Prop where
  amount : 1 ≤ p.tokenAmountRaw
  cost : 1 ≤ p.remainingCostLamports

theorem valuable_of_books {w : World} (hw : Books w) {mint : Mint} {p : Position}
    (hp : w.ledger.position? mint = some p) : Valuable p := by
  have hopen := hw.opened mint p hp
  constructor
  · have := hopen.amountPos
    omega
  · have := hopen.costPos
    omega

/-- `evaluate_paper_position` returns at once only where an exit is pending. -/
theorem Valuable.skips_iff {p : Position} (h : Valuable p) : skips p ↔ p.riskState = .exitPending := by
  have hamount := h.amount
  have hcost := h.cost
  unfold skips
  constructor
  · rintro (hz | hz | hpending)
    · omega
    · omega
    · exact hpending
  · intro hpending
    exact .inr (.inr hpending)

/-- The live loop goes on to its mark with every quote. -/
theorem Valuable.quoted {p : Position} (h : Valuable p) (outAmount : Int) :
    (Visit.quoting p).quoted outAmount = some (.marking p outAmount) := by
  have hcost := h.cost
  simp only [Visit.quoted]
  rw [if_neg (by omega)]

/-! ## The live loop -/

/-- What the loop has polled can be valued, and so can what it is about to quote. -/
structure Polled (s : LiveLoop) : Prop where
  books : Books s.world
  queue : ∀ p ∈ s.queue, Valuable p
  visit : ∀ p, s.visit = .quoting p → Valuable p

theorem polled_start : Polled LiveLoop.start := by
  refine ⟨books_start, ?_, ?_⟩
  · intro p hp; cases hp
  · intro p hp; cases hp

/-- No ledger call leads the loop back to a quote. -/
theorem resume_ne_quoting {visit : Visit} {ret : Ret} {freshId : Uuid} {now : Int} {op : Op} {p : Position}
    (hop : visit.request freshId now = some op) : visit.resume ret ≠ .quoting p := by
  intro h
  cases visit with
  | idle | quoting | exitQuoting | executing => cases hop
  | recording | settling | releasing => cases h
  | marking q outAmount =>
    simp only [Visit.resume] at h
    split at h <;> cases h
  | claiming q outAmount reason percent =>
    simp only [Visit.resume] at h
    split at h
    · cases h
    · split_ifs at h

theorem polled_step {s s' : LiveLoop} {a : LiveAct} (hs : Polled s) (h : s.step a = some s') :
    Polled s' := by
  cases a with
  | poll =>
    simp only [LiveLoop.step] at h
    split at h
    · cases h
      refine ⟨hs.books, ?_, hs.visit⟩
      intro p hp
      obtain ⟨mint, hmint⟩ := Dict.mem_values.1 hp
      exact valuable_of_books hs.books hmint
    · cases h
  | next =>
    simp only [LiveLoop.step] at h
    split at h
    · rename_i p rest _ hqueue
      cases h
      have hall := hs.queue
      rw [hqueue] at hall
      refine ⟨hs.books, ?_, ?_⟩
      · intro q hq
        exact hall q (List.mem_cons_of_mem _ hq)
      · intro q hq
        cases hq
        exact hall p List.mem_cons_self
    · cases h
  | quoteArrives outAmount =>
    simp only [LiveLoop.step] at h
    split_ifs at h
    obtain ⟨visit, hv, rfl⟩ := Option.map_eq_some_iff.1 h
    refine ⟨hs.books, hs.queue, ?_⟩
    rintro p rfl
    generalize s.visit = cur at hv
    cases cur with
    | quoting q =>
      simp only [Visit.quoted] at hv
      split_ifs at hv
      all_goals cases hv
    | idle | marking | claiming | exitQuoting | executing | recording | settling | releasing => cases hv
  | executes input =>
    simp only [LiveLoop.step] at h
    split at h
    · split at h
      all_goals
        cases h
        refine ⟨hs.books, hs.queue, ?_⟩
        intro p hp
        cases hp
    · cases h
  | writes freshId now =>
    obtain ⟨op, hop, h⟩ := Option.bind_eq_some_iff.1 h
    obtain ⟨world, hw, rfl⟩ := Option.map_eq_some_iff.1 h
    refine ⟨books_step hs.books hw, hs.queue, ?_⟩
    intro p hp
    exact absurd hp (resume_ne_quoting hop)
  | raises =>
    obtain ⟨visit, hv, rfl⟩ := Option.map_eq_some_iff.1 h
    refine ⟨hs.books, hs.queue, ?_⟩
    rintro p rfl
    generalize s.visit = cur at hv
    cases cur <;> cases hv
  | other op =>
    simp only [LiveLoop.step] at h
    split_ifs at h
    obtain ⟨world, hw, rfl⟩ := Option.map_eq_some_iff.1 h
    exact ⟨books_step hs.books hw, hs.queue, hs.visit⟩

theorem run_polled {ok : LiveLoop → LiveAct → Prop} {acts : List LiveAct} {s : LiveLoop}
    (h : Run LiveLoop.step ok LiveLoop.start acts s) : Polled s :=
  h.invariant (fun _ _ _ hs _ hstep => polled_step hs hstep) polled_start

/-! ## No division by zero -/

/-- The cost basis never vanishes. In every ledger that the ledger operations reach, every open
position has at least one token and at least one lamport of cost left, and `evaluate_paper_position`
skips it only while an exit of it is pending. So in every interleaving of the exit flows the position
that a quote is compared with has a cost, and in every run of the live loop no quote of a polled
position raises `ZeroDivisionError`. -/
theorem costBasis_never_vanishes :
    (∀ ops w, Run World.step Run.anyStep World.start ops w →
      ∀ mint p, w.ledger.position? mint = some p →
        1 ≤ p.tokenAmountRaw ∧ 1 ≤ p.remainingCostLamports ∧ (skips p ↔ p.riskState = .exitPending)) ∧
    (∀ acts s, Run Exits.step Run.anyStep Exits.start acts s →
      ∀ mint p, s.world.ledger.position? mint = some p →
        p.remainingCostLamports ≠ 0 ∧ (skips p ↔ p.riskState = .exitPending)) ∧
    (∀ acts s, Run LiveLoop.step Run.anyStep LiveLoop.start acts s →
      ∀ p outAmount, s.visit = .quoting p →
        p.remainingCostLamports ≠ 0 ∧ s.visit.quoted outAmount = some (.marking p outAmount)) := by
  refine ⟨?_, ?_, ?_⟩
  · intro ops w hrun mint p hp
    have hv := valuable_of_books (run_books hrun) hp
    exact ⟨hv.amount, hv.cost, hv.skips_iff⟩
  · intro acts s hrun mint p hp
    have hv := valuable_of_books (exits_books hrun) hp
    have hcost := hv.cost
    exact ⟨by omega, hv.skips_iff⟩
  · intro acts s hrun p outAmount hvisit
    have hv := (run_polled hrun).visit p hvisit
    have hcost := hv.cost
    rw [hvisit]
    exact ⟨by omega, hv.quoted outAmount⟩

/-- A cost of one lamport for ten tokens, sold from twice: the basis stays whole. -/
theorem costBasis_never_vanishes_dust : ∃ w : World,
    (w.ledger.position? "mint").map (fun p => (p.tokenAmountRaw, p.remainingCostLamports)) = some (1, 1) ∧
    ∀ p, w.ledger.position? "mint" = some p → 1 ≤ p.remainingCostLamports := by
  obtain ⟨w, hrun, hw⟩ : ∃ w, Run World.step Run.anyStep World.start
      [.buy ⟨"mint", 1, 10, none, none, 0, "A", 0, "", none, none⟩ ⟨0⟩ 0,
        .sell ⟨"mint", 8, 1, .takeProfit30Sell80, none, none⟩ 1,
        .sell ⟨"mint", 1, 1, .manualClose, none, none⟩ 2] w ∧
      (w.ledger.position? "mint").map (fun p => (p.tokenAmountRaw, p.remainingCostLamports)) =
        some (1, 1) := Run.exists_of_any (by decide +kernel)
  refine ⟨w, hw, ?_⟩
  intro p hp
  exact (costBasis_never_vanishes.1 _ w hrun "mint" p hp).2.1

end Aibot.Live
