/-
The end of a call: the completed trades, the state and the report are functions of the records, whatever part
of them is written already.
-/
import Aibot.N3.Replay

namespace Aibot.N3

open Durable (Returns Meets meets_bind meets_pure meets_write meets_lift_bind meets_read_bind returns_bind returns_lift
  returns_read returns_pure)

/-! ## What a call computes of its variables -/

section Computed

variable {m : Machine} {mem mem' : Memory} {d : Sidecar} {state state' : ObserverState} {trades : List Trade}
  {sells : List SellRecord}

theorem Holds.entries_perm (h : Holds m mem d) (h' : Holds m mem' d) : mem.entries.entries.Perm mem'.entries.entries :=
  Dict.entries_perm (h.get?_eq h')

theorem missingCounts_perm {l l' : List Entry} (h : l.Perm l') : missingCounts l = missingCounts l' := by
  unfold missingCounts
  rw [mergeSort_eq_of_perm (h.flatMap_right _).dedup]
  exact List.map_congr_left fun field _ => by rw [(h.filter _).length_eq]

theorem Holds.nextState_eq (h : Holds m mem d) (h' : Holds m mem' d) (hcohort : state.cohortId = state'.cohortId)
    (hcursor : mem.cursor = mem'.cursor) : nextState state mem trades sells = nextState state' mem' trades sells := by
  have hperm := h.entries_perm h'
  have hvalues : mem.entries.values.Perm mem'.entries.values := hperm.map _
  unfold nextState
  rw [hcohort, hcursor, h.closure.trans h'.closure.symm, hperm.length_eq, (hvalues.filter _).length_eq,
    missingCounts_perm hvalues, hvalues.any_eq]

theorem Holds.censored_eq (h : Holds m mem d) (h' : Holds m mem' d) :
    censored mem.entries trades = censored mem'.entries trades :=
  mergeSort_eq_of_perm (((h.entries_perm h').map _).filter _)

end Computed

/-! ## The completed trades -/

section Trades

variable {m : Machine} {trades : List Trade} {d : Sidecar} {c : ℤ} {inv : Sidecar → Prop}

/-- The file of a completed trade. -/
def tradeName (m : Machine) (trade : Trade) : String := m.fileName trade.entry.positionId

/-- The files are those of some of the trades. -/
def PartOf (m : Machine) (trades : List Trade) (completed : Directory String Trade) : Prop :=
  ∀ k trade, completed.get? k = some trade → trade ∈ trades ∧ k = tradeName m trade

theorem writeTrades_meets (hinjective : ∀ x ∈ trades, ∀ y ∈ trades, tradeName m x = tradeName m y → x = y)
    (hinv : ∀ completed, d.completed.Within completed → PartOf m trades completed →
      inv { d with completed := completed }) :
    ∀ {rest : List Trade} {completed : Directory String Trade}, (∀ x ∈ rest, x ∈ trades) →
      d.completed.Within completed → PartOf m trades completed →
      Meets (rest.forM fun trade => immutableTrade (tradeName m trade) trade) { d with completed := completed } inv
        fun _ v => ∃ completed', v = { d with completed := completed' } ∧ completed.Within completed' ∧
          PartOf m trades completed' ∧
          ∀ x ∈ rest, completed'.get? (tradeName m x) = some x
  | [], completed, _, _, hpart => meets_pure ⟨completed, rfl, .refl _, hpart, fun _ hx => absurd hx List.not_mem_nil⟩
  | trade :: rest, completed, hrest, hwithin, hpart => by
    obtain ⟨hmem, hrest⟩ := List.forall_mem_cons.1 hrest
    have hwritten : Meets (immutableTrade (tradeName m trade) trade) { d with completed := completed } inv fun _ v =>
        ∃ completed', v = { d with completed := completed' } ∧ completed.Within completed' ∧
          PartOf m trades completed' ∧ completed'.get? (tradeName m trade) = some trade := by
      refine immutable_meets (fun old hold => ?_) fun hnone => ⟨hinv completed hwithin hpart, ?_⟩
      · obtain ⟨hold', hname⟩ := hpart _ old hold
        obtain rfl := hinjective trade hmem old hold' hname
        exact ⟨Trade.same_refl trade, completed, rfl, .refl _, hpart, hold⟩
      · refine ⟨_, rfl, Directory.within_put hnone trade, fun k x hx => ?_, Directory.get?_put_self ..⟩
        rw [Directory.get?_put] at hx
        split_ifs at hx with hk
        · obtain rfl := Option.some.inj hx
          exact ⟨hmem, hk⟩
        · exact hpart k x hx
    refine meets_bind hwritten ?_
    rintro _ _ ⟨completed₁, rfl, hwithin₁, hpart₁, hget⟩
    refine (writeTrades_meets hinjective hinv hrest (hwithin.trans hwithin₁) hpart₁).imp ?_
    rintro _ _ ⟨completed₂, rfl, hwithin₂, hpart₂, hall⟩
    exact ⟨completed₂, rfl, hwithin₁.trans hwithin₂, hpart₂, List.forall_mem_cons.2 ⟨hwithin₂ _ _ hget, hall⟩⟩

end Trades

/-! ## The last writes -/

section Finish

variable {m : Machine} {manifest : Manifest} {mem : Memory} {state : ObserverState} {trades : List Trade}
  {d : Sidecar} {inv : Sidecar → Prop}

/-- The report of a closed cohort. -/
def reportOf (manifest : Manifest) (mem : Memory) (trades : List Trade) (closure : Closure) (report : Json) :
    FinalReport :=
  ⟨manifest.cohortId, closure, censored mem.entries trades, report⟩

/-- The files after the end of a call. -/
structure Settled (m : Machine) (manifest : Manifest) (mem : Memory) (trades : List Trade) (d : Sidecar) : Prop where
  tidy : Tidy m mem d
  found : completedTrades m d (some mem.cursor) = .ok trades
  completed : ∀ k trade, d.completed.get? k = some trade ↔ trade ∈ trades ∧ k = tradeName m trade
  unreported : d.closure = none → d.report = none
  reported : ∀ closure, d.closure = some closure →
    ∃ report, m.evaluate trades = .ok report ∧ d.report = some (reportOf manifest mem trades closure report)

/-- What is there of the files before the end of a call. -/
structure Unsettled (m : Machine) (manifest : Manifest) (mem : Memory) (trades : List Trade) (d : Sidecar) : Prop where
  holds : Holds m mem d
  closure : ∀ closure, d.closure = some closure → closure.endEventSeq = mem.cursor
  found : completedTrades m d (some mem.cursor) = .ok trades
  completed : PartOf m trades d.completed
  unreported : d.closure = none → d.report = none
  reported : ∀ report', d.report = some report' → ∃ closure report, d.closure = some closure ∧
    m.evaluate trades = .ok report ∧ report' = reportOf manifest mem trades closure report
  evaluated : ∀ closure, d.closure = some closure → ∃ report, m.evaluate trades = .ok report

/-- What an end that runs through has computed. -/
theorem finishCall_returns {next : ObserverState} {d' : Sidecar}
    (hr : Returns (finishCall m manifest state mem) d next d') :
    ∃ trades, completedTrades m d (some ((mem.closure.map Closure.endEventSeq).getD mem.cursor)) = .ok trades ∧
      ∀ closure, mem.closure = some closure → ∃ report, m.evaluate trades = .ok report := by
  obtain ⟨trades, t, hread, hr⟩ := returns_bind.1 hr
  obtain ⟨hfound, -⟩ := returns_read.1 hread
  refine ⟨trades, hfound, fun closure hclosure => ?_⟩
  obtain ⟨u, t, -, hr⟩ := returns_bind.1 hr
  obtain ⟨sells, t, -, hr⟩ := returns_bind.1 hr
  obtain ⟨u, t, -, hr⟩ := returns_bind.1 hr
  rw [hclosure] at hr
  obtain ⟨report, t, hlift, -⟩ := returns_bind.1 hr
  exact ⟨report, (returns_lift.1 hlift).1⟩

theorem finishCall_meets (h : Unsettled m manifest mem trades d)
    (hinv : ∀ completed, d.completed.Within completed → PartOf m trades completed →
      inv { d with completed := completed })
    (hinv' : ∀ completed, (∀ k trade, completed.get? k = some trade ↔ trade ∈ trades ∧ k = tradeName m trade) →
      inv { d with
        completed := completed
        state := some (nextState state mem trades d.sells.values) }) :
    Meets (finishCall m manifest state mem) d inv fun next d' =>
      next = nextState state mem trades d.sells.values ∧ d'.entries = d.entries ∧ d'.sells = d.sells ∧
        d'.closure = d.closure ∧ d'.state = some next ∧
        (∀ k trade, d'.completed.get? k = some trade ↔ trade ∈ trades ∧ k = tradeName m trade) ∧
        (d.closure = none → d'.report = none) ∧ ∀ closure, d.closure = some closure →
          ∃ report, m.evaluate trades = .ok report ∧
            d'.report = some (reportOf manifest mem trades closure report) := by
  have hreadable := (completedTrades_eq_ok h.found).1
  have hend : (mem.closure.map Closure.endEventSeq).getD mem.cursor = mem.cursor := by
    cases hclosure : mem.closure with
    | none => rfl
    | some closure => exact h.closure closure (h.holds.closure ▸ hclosure)
  have hinjective : ∀ x ∈ trades, ∀ y ∈ trades, tradeName m x = tradeName m y → x = y :=
    fun x hx y hy heq => completedTrades_injective h.found hx hy heq
  unfold finishCall
  rw [hend]
  refine meets_read_bind h.found (meets_bind (writeTrades_meets hinjective hinv (fun x hx => hx) (.refl _)
    h.completed) ?_)
  rintro _ _ ⟨completed, rfl, hwithin, hpart, hall⟩
  have hcompleted : ∀ k trade, completed.get? k = some trade ↔ trade ∈ trades ∧ k = tradeName m trade :=
    fun k trade => ⟨hpart k trade, fun ⟨hmem, hk⟩ => hk ▸ hall trade hmem⟩
  have hsells : readSells m { d with completed := completed } = .ok d.sells.values := hreadable.readSells
  have hwritten : Meets (Durable.write fun s : Sidecar =>
      { s with state := some (nextState state mem trades d.sells.values) } : Observing Unit)
      { d with completed := completed } inv fun _ v => v = { d with
        completed := completed
        state := some (nextState state mem trades d.sells.values) } :=
    meets_write (hinv completed hwithin hpart) rfl
  refine meets_read_bind hsells (meets_bind hwritten ?_)
  rintro _ _ rfl
  cases hclosure : mem.closure with
  | none =>
    have hopen : d.closure = none := h.holds.closure.symm.trans hclosure
    refine meets_pure ⟨rfl, rfl, rfl, rfl, rfl, hcompleted, h.unreported, fun closure hc => ?_⟩
    rw [hopen] at hc
    cases hc
  | some closure =>
    have hclosed : d.closure = some closure := h.holds.closure.symm.trans hclosure
    obtain ⟨report, hreport⟩ := h.evaluated closure hclosed
    have hreported : Meets (immutableReport (reportOf manifest mem trades closure report)) { d with
          completed := completed
          state := some (nextState state mem trades d.sells.values) } inv fun _ v => v = { d with
          completed := completed
          state := some (nextState state mem trades d.sells.values)
          report := some (reportOf manifest mem trades closure report) } := by
      refine immutable_meets (fun old hold => ?_) fun hnone => ⟨hinv' completed hcompleted, rfl⟩
      -- a report that is there is that of the same closure and trades
      obtain ⟨closure', report', hclosure', hreport', rfl⟩ := h.reported old hold
      rw [hclosed] at hclosure'
      rw [hreport] at hreport'
      obtain rfl := Option.some.inj hclosure'
      obtain rfl := Except.ok.inj hreport'
      refine ⟨FinalReport.same_refl _, ?_⟩
      rw [← hold]
    refine meets_lift_bind hreport (meets_bind hreported ?_)
    rintro _ _ rfl
    refine meets_pure ⟨rfl, rfl, rfl, rfl, rfl, hcompleted, fun hopen => ?_, fun closure' hc => ?_⟩
    · rw [hclosed] at hopen
      cases hopen
    · rw [hclosed] at hc
      obtain rfl := Option.some.inj hc
      exact ⟨report, hreport, rfl⟩

end Finish

end Aibot.N3
