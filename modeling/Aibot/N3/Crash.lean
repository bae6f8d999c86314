/-
Calls that are cut off: after a cut at any point, the next call that runs through leaves the files and returns
the state that it would without the cut.
-/
import Aibot.N3.Finish

namespace Aibot.N3

open Durable (Returns Meets meets_bind meets_pure meets_read_bind returns_bind returns_read returns_pure)

/-! ## The start of a call -/

section Begin

variable {m : Machine} {manifest : Manifest} {env : Env} {s a v : Sidecar} {state : ObserverState}
  {events : List ControlEvent}

/-- The ledger has the event after a number where it has events after it. -/
def Connected (env : Env) (s : ℤ) : Prop :=
  s < env.ledger.nextEventSeq - 1 → ∃ event events, eventsAfter env s = event :: events ∧ event.eventSeq = s + 1

theorem beginCall_eq_ok : beginCall manifest env s = .ok (state, events) ↔
    env.build.equal manifest.build = true ∧ state = stateOf manifest s ∧ events = eventsAfter env state.cursor ∧
      state.cohortId = manifest.cohortId ∧ Connected env state.cursor := by
  have hconnected : ∀ c : ℤ, (c < env.ledger.nextEventSeq - 1 ∧
      ((eventsAfter env c).head?.all fun event => event.eventSeq ≠ c + 1) = true) ↔ ¬ Connected env c := by
    intro c
    unfold Connected
    rw [not_forall]
    cases heq : eventsAfter env c with
    | nil => simp
    | cons event events => simp
  unfold beginCall
  dsimp only
  by_cases hbuild : env.build.equal manifest.build = true
  · rw [if_neg (not_not.2 hbuild)]
    by_cases hcohort : (stateOf manifest s).cohortId = manifest.cohortId
    · rw [if_neg (not_not.2 hcohort)]
      by_cases hconn : Connected env (stateOf manifest s).cursor
      · rw [if_neg fun h => (hconnected _).1 h hconn, Except.ok.injEq, Prod.mk.injEq]
        constructor
        · rintro ⟨rfl, rfl⟩
          exact ⟨hbuild, rfl, rfl, hcohort, hconn⟩
        · rintro ⟨-, rfl, rfl, -, -⟩
          exact ⟨rfl, rfl⟩
      · rw [if_pos ((hconnected _).2 hconn)]
        refine iff_of_false (fun h => by cases h) ?_
        rintro ⟨-, rfl, -, -, h⟩
        exact hconn h
    · rw [if_pos hcohort]
      refine iff_of_false (fun h => by cases h) ?_
      rintro ⟨-, rfl, -, h, -⟩
      exact hcohort h
  · rw [if_pos hbuild]
    exact iff_of_false (fun h => by cases h) fun h => hbuild h.1

/-- A state counts the records up to its cursor. -/
structure Counted (m : Machine) (state : ObserverState) (s : Sidecar) : Prop where
  admitted : (s.entriesTo state.cursor).length = state.admittedCount
  sold : (s.sellsTo state.cursor).length = state.sellRecordCount
  completed : ∃ trades, completedTrades m s (some state.cursor) = .ok trades ∧ trades.length = state.completedCount

theorem Counted.congr (h : Counted m state s) (hagree : AgreeTo state.cursor s a) (hs : Readable m s)
    (ha : Readable m a) : Counted m state a := by
  refine ⟨?_, ?_, ?_⟩
  · rw [← hagree.entriesTo]
    exact h.admitted
  · rw [← hagree.sellsTo]
    exact h.sold
  · rw [← hagree.completedTrades hs ha]
    exact h.completed

theorem Counted.checkCommitted (h : Counted m state s) : checkCommitted m s state s.entries.values = .ok () := by
  obtain ⟨trades, htrades, hlength⟩ := h.completed
  unfold N3.checkCommitted
  rw [(completedTrades_eq_ok htrades).1.readSells]
  show (completedTrades m s (some state.cursor) >>= fun completed =>
    if (s.entriesTo state.cursor).length ≠ state.admittedCount ∨
      (s.sellsTo state.cursor).length ≠ state.sellRecordCount ∨ completed.length ≠ state.completedCount then
      .error "N3 committed sidecar records missing or inconsistent" else pure ()) = _
  rw [htrades]
  refine if_neg ?_
  rintro (hne | hne | hne)
  · exact hne h.admitted
  · exact hne h.sold
  · exact hne hlength

end Begin

/-! ## A call that runs through -/

section Call

variable {m : Machine} {manifest : Manifest} {env : Env} {mem : Memory} {trades : List Trade} {s : ℤ}
  {a a' d : Sidecar} {next : ObserverState}

theorem Extends.mono {s' : ℤ} (h : Extends s d a) (hs : s' ≤ s) : Extends s' d a :=
  { h with
    newEntries := fun k entry hk => (h.newEntries k entry hk).imp id hs.trans_lt
    newSells := fun k record hk => (h.newSells k record hk).imp id hs.trans_lt
    newClosure := fun closure hc => (h.newClosure closure hc).imp id hs.trans_lt }

theorem extends_of_eq (hentries : a.entries = d.entries) (hsells : a.sells = d.sells)
    (hclosure : a.closure = d.closure) : Extends s d a :=
  ⟨hentries ▸ .refl _, hsells ▸ .refl _, fun _ _ hk => .inl (hentries ▸ hk), fun _ _ hk => .inl (hsells ▸ hk),
    fun _ hc => hclosure.trans hc, fun _ hc => .inl (hclosure.symm.trans hc)⟩

theorem Tidy.congr {mem' : Memory} (h : Tidy m mem d) (hmem : Holds m mem' d) (hcursor : mem'.cursor = mem.cursor) :
    Tidy m mem' d :=
  ⟨hmem, h.entries, h.sells, hcursor ▸ h.entrySeq, hcursor ▸ h.sellSeq, h.positive, hcursor ▸ h.closure⟩

theorem Tidy.of_eq (h : Tidy m mem d) (hentries : a.entries = d.entries) (hsells : a.sells = d.sells)
    (hclosure : a.closure = d.closure) : Tidy m mem a :=
  ⟨⟨hentries ▸ h.holds.entries, h.holds.closure.trans hclosure.symm⟩, hentries ▸ h.entries, hsells ▸ h.sells,
    hentries ▸ h.entrySeq, hsells ▸ h.sellSeq, hsells ▸ h.positive, hclosure ▸ h.closure⟩

/-- Where the records are the same, so is what was completed. -/
theorem completedTrades_of_eq (hentries : a.entries = d.entries) (hsells : a.sells = d.sells) (end_ : Option ℤ) :
    completedTrades m a end_ = completedTrades m d end_ := by
  unfold completedTrades readEntries readSells
  rw [hentries, hsells]

/-- What a call that has run through has done. -/
structure Called (m : Machine) (manifest : Manifest) (env : Env) (mem : Memory) (a : Sidecar) (next : ObserverState)
    (mem' : Memory) (trades' : List Trade) (a' : Sidecar) : Prop where
  settled : Settled m manifest mem' trades' a'
  finished : Finished m manifest env mem.cursor mem' a'
  extends_ : Extends mem.cursor a a'
  cursor : mem.cursor ≤ mem'.cursor
  begins : env.build.equal manifest.build = true ∧ Connected env mem.cursor
  completed : a.completed.Within a'.completed
  report : ∀ report, a.report = some report → a'.report = some report
  state : a'.state = some next
  next : ∃ state : ObserverState, state.cohortId = manifest.cohortId ∧
    next = nextState state mem' trades' a'.sells.values

/-- What is there at the end of the loop, of a cohort that was settled before. -/
theorem Settled.unsettled {mem' : Memory} {trades' : List Trade} (h : Settled m manifest mem trades a)
    (hpassed : Passed m manifest env mem a mem' d)
    (hfound : completedTrades m d (some mem'.cursor) = .ok trades')
    (hevaluated : ∀ closure, d.closure = some closure → ∃ report, m.evaluate trades' = .ok report) :
    Unsettled m manifest mem' trades' d where
  holds := hpassed.tidy.holds
  closure := hpassed.tidy.closure
  found := hfound
  completed k trade hk := by
    rw [hpassed.kept.completed] at hk
    obtain ⟨htrade, rfl⟩ := (h.completed k trade).1 hk
    have hreadable := (completedTrades_eq_ok hfound).1
    have hbefore : completedTrades m d (some mem.cursor) = .ok trades := by
      rw [← hpassed.extends_.agreeTo.completedTrades (completedTrades_eq_ok h.found).1 hreadable]
      exact h.found
    refine ⟨completedTrades_stable hpassed.cursor (fun record hrecord => ?_) hbefore hfound htrade, rfl⟩
    obtain ⟨k, hk⟩ := Directory.mem_values.1 hrecord
    exact hpassed.tidy.positive k record hk
  unreported hopen := by
    rw [hpassed.kept.report]
    refine h.unreported ?_
    cases hc : a.closure with
    | none => rfl
    | some closure =>
      rw [hpassed.extends_.closure closure hc] at hopen
      cases hopen
  reported report' hreport := by
    rw [hpassed.kept.report] at hreport
    cases hc : a.closure with
    | none =>
      rw [h.unreported hc] at hreport
      cases hreport
    | some closure =>
      -- nothing is processed after the closure
      have hclosure := hpassed.extends_.closure closure hc
      have hcursor : mem.cursor = mem'.cursor := by
        rw [← h.tidy.closure closure hc, hpassed.tidy.closure closure hclosure]
      have hentries : a.entries = d.entries := hpassed.extends_.entries.antisymm fun k entry hk =>
        (hpassed.extends_.newEntries k entry hk).resolve_right
          (not_lt.2 (hcursor ▸ hpassed.tidy.entrySeq k entry hk))
      have htrades : trades = trades' := by
        rw [← hcursor, ← hpassed.extends_.agreeTo.completedTrades (completedTrades_eq_ok h.found).1
          (completedTrades_eq_ok hfound).1, h.found] at hfound
        exact Except.ok.inj hfound
      obtain ⟨report, hevaluate, heq⟩ := h.reported closure hc
      refine ⟨closure, report, hclosure, htrades ▸ hevaluate, ?_⟩
      rw [heq] at hreport
      rw [← Option.some.inj hreport, reportOf, reportOf, htrades]
      have hmem : Holds m mem d :=
        ⟨hentries ▸ h.tidy.holds.entries, h.tidy.holds.closure.trans (hc.trans hclosure.symm)⟩
      rw [hmem.censored_eq hpassed.tidy.holds]
  evaluated := hevaluated

theorem observeOnce_returns (hsound : Sound env.ledger) (h : Settled m manifest mem trades a)
    (hcursor : (stateOf manifest a).cursor = mem.cursor) (hr : Returns (observeOnce m manifest env) a next a') :
    ∃ mem' trades', Called m manifest env mem a next mem' trades' a' := by
  obtain ⟨⟨state, events⟩, t, hread, hr⟩ := returns_bind.1 hr
  obtain ⟨hbegin, rfl⟩ := returns_read.1 hread
  obtain ⟨hbuild, rfl, rfl, hcohort, hconnected⟩ := beginCall_eq_ok.1 hbegin
  obtain ⟨closure, t, hread, hr⟩ := returns_bind.1 hr
  obtain ⟨hclosure, rfl⟩ := returns_read.1 hread
  obtain rfl := Except.ok.inj hclosure
  obtain ⟨entries, t, hread, hr⟩ := returns_bind.1 hr
  obtain ⟨hentries, rfl⟩ := returns_read.1 hread
  obtain rfl := readEntries_eq_ok hentries
  obtain ⟨u, t, hread, hr⟩ := returns_bind.1 hr
  obtain ⟨-, rfl⟩ := returns_read.1 hread
  obtain ⟨mem', d, hloop, hfinish⟩ := returns_bind.1 hr
  rw [hcursor] at hloop hconnected
  -- the loop
  obtain ⟨trades', hfound, hevaluated⟩ := finishCall_returns hfinish
  have hreadable := (completedTrades_eq_ok hfound).1
  have htidy := h.tidy.congr (holds_index h.tidy.entries mem.cursor) rfl
  have hpassed := observeEvents_returns hsound rfl htidy hreadable hloop
  have hsettled : Settled m manifest ⟨_, _, mem.cursor⟩ trades a :=
    { h with
      tidy := htidy
      reported := fun closure hc => by
        obtain ⟨report, hevaluate, heq⟩ := h.reported closure hc
        refine ⟨report, hevaluate, ?_⟩
        rw [heq, reportOf, reportOf, h.tidy.holds.censored_eq htidy.holds] }
  have hend : (mem'.closure.map Closure.endEventSeq).getD mem'.cursor = mem'.cursor := by
    cases hclosure : mem'.closure with
    | none => rfl
    | some closure => exact hpassed.tidy.closure closure (hpassed.tidy.holds.closure ▸ hclosure)
  rw [hend] at hfound
  have hunsettled := hsettled.unsettled hpassed hfound fun closure hc =>
    hevaluated closure (hpassed.tidy.holds.closure.trans hc)
  -- the end
  obtain ⟨rfl, hentries, hsells, hclosure, hstate, hcompleted, hunreported, hreported⟩ :=
    (@finishCall_meets _ _ _ _ _ _ (fun _ => True) hunsettled (fun _ _ _ => trivial) fun _ _ => trivial).of_returns
      hfinish
  have htidy' := hpassed.tidy.of_eq hentries hsells hclosure
  have hfound' : completedTrades m a' (some mem'.cursor) = .ok trades' := by
    rw [completedTrades_of_eq hentries hsells]
    exact hfound
  have hreadable' := (completedTrades_eq_ok hfound').1
  refine ⟨mem', trades', ⟨⟨htidy', hfound', hcompleted, ?_, ?_⟩, ⟨htidy', hreadable', hpassed.contiguous,
    fun event hevent hlt hle => ?_, hpassed.atEnd⟩, ?_, hpassed.cursor, ⟨hbuild, hconnected⟩, fun k trade hk => ?_,
    fun report hreport => ?_, hstate, ⟨_, hcohort, ?_⟩⟩⟩
  · rw [hclosure]
    exact hunreported
  · rw [hclosure]
    exact hreported
  · exact (hpassed.explained event hevent hlt hle).mono (extends_of_eq hentries hsells hclosure) hreadable' (.refl env)
  · exact hpassed.extends_.trans (extends_of_eq hentries hsells hclosure) hpassed.cursor
  · rw [← hpassed.kept.completed] at hk
    exact (hcompleted k trade).2 (hunsettled.completed k trade hk)
  · rw [← hpassed.kept.report] at hreport
    obtain ⟨closure, document, hclosed, hevaluate, rfl⟩ := hunsettled.reported report hreport
    obtain ⟨document', hevaluate', hreported'⟩ := hreported closure hclosed
    rw [hevaluate] at hevaluate'
    rw [hreported', Except.ok.inj hevaluate']
  · rw [hsells]

end Call

/-! ## A call over files that are behind -/

section Rerun

variable {m : Machine} {manifest : Manifest} {env : Env} {mem : Memory} {trades : List Trade} {a b v : Sidecar}
  {state next : ObserverState}

/-- The files that a cut leaves: behind those of the call that runs through, with the old state or with the new. -/
def Cut (manifest : Manifest) (mem : Memory) (b a v : Sidecar) : Prop :=
  (Behind (stateOf manifest b).cursor v a ∧ v.state = b.state) ∨ (Behind mem.cursor v a ∧ v.state = a.state)

/-- With all its records, the files are those of a settled cohort, less what is written at the end. -/
theorem Settled.unsettled_of_behind {mem' : Memory} (h : Settled m manifest mem trades a) (hmem : Holds m mem' v)
    (hcursor : mem'.cursor = mem.cursor) (hbehind : Behind mem.cursor v a) :
    v.entries = a.entries ∧ v.sells = a.sells ∧ v.closure = a.closure ∧ Unsettled m manifest mem' trades v := by
  have hentries : v.entries = a.entries := hbehind.entries.antisymm fun k entry hk =>
    hbehind.hasEntries k entry hk (h.tidy.entrySeq k entry hk)
  have hsells : v.sells = a.sells := hbehind.sells.antisymm fun k record hk =>
    hbehind.hasSells k record hk (h.tidy.sellSeq k record hk)
  have hclosure : v.closure = a.closure := by
    cases hc : a.closure with
    | some closure => exact hbehind.hasClosure closure hc (h.tidy.closure closure hc).le
    | none =>
      cases hv : v.closure with
      | none => rfl
      | some closure =>
        rw [hbehind.closure closure hv] at hc
        cases hc
  refine ⟨hentries, hsells, hclosure, hmem, ?_, ?_, ?_, ?_, ?_, ?_⟩
  · rw [hclosure, hcursor]
    exact h.tidy.closure
  · rw [completedTrades_of_eq hentries hsells, hcursor]
    exact h.found
  · exact fun k trade hk => (h.completed k trade).1 (hbehind.completed k trade hk)
  · intro hopen
    cases hv : v.report with
    | none => rfl
    | some report =>
      have hreport := hbehind.report report hv
      rw [h.unreported (hclosure ▸ hopen)] at hreport
      cases hreport
  · intro report' hreport'
    have hreport := hbehind.report report' hreport'
    cases hc : a.closure with
    | none =>
      rw [h.unreported hc] at hreport
      cases hreport
    | some closure =>
      obtain ⟨report, hevaluate, heq⟩ := h.reported closure hc
      rw [heq] at hreport
      have hmemA : Holds m mem' a := ⟨hentries ▸ hmem.entries, hmem.closure.trans hclosure⟩
      refine ⟨closure, report, hclosure.trans hc, hevaluate, ?_⟩
      rw [← Option.some.inj hreport, reportOf, reportOf, h.tidy.holds.censored_eq hmemA]
  · intro closure hc
    obtain ⟨report, hevaluate, -⟩ := h.reported closure (hclosure ▸ hc)
    exact ⟨report, hevaluate⟩

theorem observeOnce_meets (hsound : Sound env.ledger) (h : Settled m manifest mem trades a)
    (hfinished : Finished m manifest env (stateOf manifest b).cursor mem a) (hstate : a.state = some next)
    (hnext : ∃ state : ObserverState, state.cohortId = manifest.cohortId ∧
      next = nextState state mem trades a.sells.values)
    (hbuild : env.build.equal manifest.build = true) (hconnected : Connected env (stateOf manifest b).cursor)
    (hcohort : (stateOf manifest b).cohortId = manifest.cohortId) (hcounted : Counted m (stateOf manifest b) a)
    (hcursor : (stateOf manifest b).cursor ≤ mem.cursor) (hbehind : Behind (stateOf manifest b).cursor b a) :
    Meets (observeOnce m manifest env) b (Cut manifest mem b a) fun next' b' => next' = next ∧ b' = a := by
  have hreadable : Readable m b := hfinished.readable.within hbehind.entries hbehind.sells
  have hcommitted := (hcounted.congr hbehind.agreeTo.symm hfinished.readable hreadable).checkCommitted
  refine meets_read_bind (beginCall_eq_ok.2 ⟨hbuild, rfl, rfl, hcohort, hconnected⟩)
    (meets_read_bind rfl (meets_read_bind hreadable.readEntries (meets_read_bind hcommitted ?_)))
  refine meets_bind (observeEvents_meets hsound hfinished (fun v hv hkept => .inl ⟨hv, hkept.state⟩) rfl le_rfl
    hcursor (holds_index hreadable.entries _) hbehind (.refl b)) ?_
  rintro mem' v ⟨hcursor', hmem', hbehind', hkept⟩
  obtain ⟨hentries, hsells, hclosure, hunsettled⟩ := h.unsettled_of_behind hmem' hcursor' hbehind'
  have hwritten : ∀ completed state', PartOf m trades completed →
      Behind mem.cursor { v with completed := completed, state := state' } a := by
    intro completed state' hpart
    exact { hbehind' with completed := fun k trade hk => (h.completed k trade).2 (hpart k trade hk) }
  obtain ⟨state, hcohort', rfl⟩ := hnext
  have hmemA : Holds m mem' a := ⟨hentries ▸ hmem'.entries, hmem'.closure.trans hclosure⟩
  have hsame : nextState (stateOf manifest b) mem' trades v.sells.values =
      nextState state mem trades a.sells.values := by
    rw [hsells]
    exact hmemA.nextState_eq h.tidy.holds (hcohort.trans hcohort'.symm) hcursor'
  refine (finishCall_meets hunsettled (fun completed _ hpart => .inl ⟨(hwritten completed v.state hpart).mono hcursor,
    hkept.state⟩) fun completed hall => .inr ⟨hwritten completed _ fun k trade hk => (hall k trade).1 hk, ?_⟩).imp ?_
  · rintro _ b' ⟨rfl, hentries', hsells', hclosure', hstate', hcompleted', hunreported', hreported'⟩
    refine ⟨hsame, ?_⟩
    have hcompleted : b'.completed = a.completed := by
      ext k trade
      rw [hcompleted', h.completed]
    have hreport : b'.report = a.report := by
      cases hc : v.closure with
      | none => rw [hunreported' hc, h.unreported (hclosure ▸ hc)]
      | some closure =>
        obtain ⟨report, hevaluate, heq⟩ := hreported' closure hc
        obtain ⟨report', hevaluate', heq'⟩ := h.reported closure (hclosure ▸ hc)
        rw [hevaluate] at hevaluate'
        rw [heq, heq', Except.ok.inj hevaluate', reportOf, reportOf, hmemA.censored_eq h.tidy.holds]
    rw [hsame, ← hstate] at hstate'
    exact Sidecar.ext (hentries'.trans hentries) (hsells'.trans hsells) hcompleted (hclosure'.trans hclosure) hstate'
      hreport
  · rw [hstate, hsame]

/-! ## Cuts -/

/-- A call after those that were cut off: the recorder wrote nothing meanwhile, and no event after the number was
trimmed. -/
def Continues (c : ℤ) (pending : Option Env) (env : Env) : Prop :=
  ∀ env₀ ∈ pending, Later env₀ env ∧ ∀ event ∈ env₀.ledger.events, c < event.eventSeq → event ∈ env.ledger.events

/-- Two sidecars that the same calls observe: at the first every call runs through, at the second calls are cut off.
The last call is pending where it was cut off. -/
inductive Beside (m : Machine) (manifest : Manifest) : Option Env → Sidecar → Sidecar → Prop
  | start : Beside m manifest none .empty .empty
  | returns {pending : Option Env} {env : Env} {a b a' b' : Sidecar} {state state' : ObserverState}
      (h : Beside m manifest pending a b) (hcontinues : Continues (stateOf manifest b).cursor pending env)
      (hsound : Sound env.ledger) (ha : Returns (observeOnce m manifest env) a state a')
      (hb : Returns (observeOnce m manifest env) b state' b') : Beside m manifest none a' b'
  | cut {pending : Option Env} {env : Env} {a b a' v : Sidecar} {state : ObserverState}
      (h : Beside m manifest pending a b) (hcontinues : Continues (stateOf manifest b).cursor pending env)
      (hsound : Sound env.ledger) (ha : Returns (observeOnce m manifest env) a state a')
      (hv : v ∈ Durable.cuts (observeOnce m manifest env) b) : Beside m manifest (some env) a' v

/-- What holds of two such sidecars. -/
structure Synced (m : Machine) (manifest : Manifest) (pending : Option Env) (mem : Memory) (trades : List Trade)
    (a b : Sidecar) : Prop where
  settled : Settled m manifest mem trades a
  cursor : (stateOf manifest a).cursor = mem.cursor
  behind : Behind (stateOf manifest b).cursor b a
  le : (stateOf manifest b).cursor ≤ mem.cursor
  cohort : (stateOf manifest b).cohortId = manifest.cohortId
  counted : Counted m (stateOf manifest b) a
  returned : pending = none → b = a
  finished : ∀ env ∈ pending, Finished m manifest env (stateOf manifest b).cursor mem a

theorem synced_start : ∃ mem trades, Synced m manifest none mem trades .empty .empty := by
  have hno : ∀ {α : Type} {k : String} {x : α}, (Directory.empty : Directory String α).get? k = some x → False :=
    fun h => by cases h
  have hfound : completedTrades m .empty (some (initialState manifest).cursor) = .ok [] := rfl
  refine ⟨⟨.empty, none, (initialState manifest).cursor⟩, [], ⟨⟨⟨⟨?_, rfl⟩, ?_, ?_, ?_, ?_, ?_, ?_⟩, hfound, ?_,
    fun _ => rfl, ?_⟩, rfl, .refl _ _, le_rfl, rfl, ⟨rfl, rfl, [], hfound, rfl⟩, fun _ => rfl, ?_⟩⟩
  · exact fun position entry => iff_of_false (fun h => by cases h) fun h => hno h.1
  · exact named_empty
  · exact named_empty
  · exact fun k entry h => (hno h).elim
  · exact fun k record h => (hno h).elim
  · exact fun k record h => (hno h).elim
  · exact fun closure h => by cases h
  · exact fun k trade => ⟨fun h => (hno h).elim, fun h => absurd h.1 List.not_mem_nil⟩
  · exact fun closure h => by cases h
  · exact fun env h => by cases h

theorem Finished.mono {c c' : ℤ} (h : Finished m manifest env c mem a) (hc : c ≤ c') :
    Finished m manifest env c' mem a :=
  { h with
    contiguous := fun s hs hle => h.contiguous s (hc.trans_lt hs) hle
    explained := fun event hevent hlt hle => h.explained event hevent (hc.trans_lt hlt) hle }

variable {pending : Option Env} {a' : Sidecar} {mem' : Memory} {trades' : List Trade}

/-- Files that were behind the old records are behind the new ones. -/
theorem Synced.behind_of_called (h : Synced m manifest pending mem trades a b)
    (hcalled : Called m manifest env mem a next mem' trades' a') : Behind (stateOf manifest b).cursor b a' where
  entries := h.behind.entries.trans hcalled.extends_.entries
  sells := h.behind.sells.trans hcalled.extends_.sells
  completed := h.behind.completed.trans hcalled.completed
  closure closure hc := hcalled.extends_.closure closure (h.behind.closure closure hc)
  report report hr := hcalled.report report (h.behind.report report hr)
  hasEntries k entry hk hle :=
    h.behind.hasEntries k entry ((hcalled.extends_.newEntries k entry hk).resolve_right (hle.trans h.le).not_gt) hle
  hasSells k record hk hle :=
    h.behind.hasSells k record ((hcalled.extends_.newSells k record hk).resolve_right (hle.trans h.le).not_gt) hle
  hasClosure closure hc hle :=
    h.behind.hasClosure closure ((hcalled.extends_.newClosure closure hc).resolve_right (hle.trans h.le).not_gt) hle
  closed hne := by
    obtain ⟨closure, hclosure⟩ := Option.ne_none_iff_exists'.1 hne
    have hclosed := h.behind.closure closure hclosure
    -- no record is added after the closure
    have hcursor : mem'.cursor = mem.cursor := by
      rw [← h.settled.tidy.closure closure hclosed,
        hcalled.settled.tidy.closure closure (hcalled.extends_.closure closure hclosed)]
    refine ⟨fun k entry hk => (h.behind.closed hne).1 k entry ?_,
      fun k record hk => (h.behind.closed hne).2 k record ?_⟩
    · exact (hcalled.extends_.newEntries k entry hk).resolve_right
        (hcursor ▸ hcalled.settled.tidy.entrySeq k entry hk).not_gt
    · exact (hcalled.extends_.newSells k record hk).resolve_right
        (hcursor ▸ hcalled.settled.tidy.sellSeq k record hk).not_gt

/-- The new call explains the events of the pending ones too. -/
theorem Synced.finished_of_called (h : Synced m manifest pending mem trades a b)
    (hcontinues : Continues (stateOf manifest b).cursor pending env) (hsound : Sound env.ledger)
    (hcalled : Called m manifest env mem a next mem' trades' a') :
    Finished m manifest env (stateOf manifest b).cursor mem' a' := by
  cases hpending : pending with
  | none =>
    rw [h.returned hpending, h.cursor]
    exact hcalled.finished
  | some env₀ =>
    have hfinished := h.finished env₀ hpending
    obtain ⟨hlater, hretained⟩ := hcontinues env₀ hpending
    refine { hcalled.finished with
      contiguous := fun s hs hle => ?_
      explained := fun event hevent hlt hle => ?_ }
    · rcases lt_or_ge mem.cursor s with hnew | hold
      · exact hcalled.finished.contiguous s hnew hle
      · obtain ⟨event, hevent, heq⟩ := hfinished.contiguous s hs hold
        exact ⟨event, hretained event hevent (heq ▸ hs), heq⟩
    · rcases lt_or_ge mem.cursor event.eventSeq with hnew | hold
      · exact hcalled.finished.explained event hevent hnew hle
      · obtain ⟨event₀, hevent₀, heq⟩ := hfinished.contiguous event.eventSeq hlt hold
        obtain rfl := hsound.eq_of_eventSeq (hretained event₀ hevent₀ (heq ▸ hlt)) hevent heq
        exact (hfinished.explained event₀ hevent₀ hlt hold).mono (hcalled.extends_.mono hold)
          hcalled.finished.readable hlater

theorem Synced.connected (h : Synced m manifest pending mem trades a b) (hsound : Sound env.ledger)
    (hcalled : Called m manifest env mem a next mem' trades' a')
    (hfinished : Finished m manifest env (stateOf manifest b).cursor mem' a') :
    Connected env (stateOf manifest b).cursor := by
  rcases h.le.eq_or_lt with heq | hlt
  · rw [heq]
    exact hcalled.begins.2
  · intro _
    have hle := hcalled.cursor
    obtain ⟨event, hevent, heq⟩ := hfinished.contiguous ((stateOf manifest b).cursor + 1) (by omega) (by omega)
    cases hevents : eventsAfter env (stateOf manifest b).cursor with
    | nil =>
      have hafter := hsound.mem_eventsAfter.2 ⟨hevent, (by omega : (stateOf manifest b).cursor < event.eventSeq)⟩
      rw [hevents] at hafter
      exact absurd hafter List.not_mem_nil
    | cons first events =>
      obtain ⟨-, -, hfirst, hleast⟩ := hsound.eventsAfter_cons hevents
      have := hleast event hevent (by omega)
      exact ⟨first, events, rfl, by omega⟩

/-- The call that runs through at the first sidecar runs through at the second, with the same files and state. -/
theorem Synced.call (h : Synced m manifest pending mem trades a b)
    (hcontinues : Continues (stateOf manifest b).cursor pending env) (hsound : Sound env.ledger)
    (ha : Returns (observeOnce m manifest env) a next a') :
    ∃ mem' trades', Called m manifest env mem a next mem' trades' a' ∧
      Finished m manifest env (stateOf manifest b).cursor mem' a' ∧ Behind (stateOf manifest b).cursor b a' ∧
      Counted m (stateOf manifest b) a' ∧
      Meets (observeOnce m manifest env) b (Cut manifest mem' b a') fun next' b' => next' = next ∧ b' = a' := by
  obtain ⟨mem', trades', hcalled⟩ := observeOnce_returns hsound h.settled h.cursor ha
  have hfinished := h.finished_of_called hcontinues hsound hcalled
  have hbehind := h.behind_of_called hcalled
  have hcounted : Counted m (stateOf manifest b) a' :=
    h.counted.congr (hcalled.extends_.agreeTo.mono h.le) (completedTrades_eq_ok h.settled.found).1
      hcalled.finished.readable
  exact ⟨mem', trades', hcalled, hfinished, hbehind, hcounted, observeOnce_meets hsound hcalled.settled hfinished
    hcalled.state hcalled.next hcalled.begins.1 (h.connected hsound hcalled hfinished) h.cohort hcounted
    (h.le.trans hcalled.cursor) hbehind⟩

/-- The state that a call has written counts its records. -/
theorem Called.counted (h : Called m manifest env mem a next mem' trades' a') :
    next.cursor = mem'.cursor ∧ next.cohortId = manifest.cohortId ∧ Counted m next a' := by
  obtain ⟨state, hcohort, rfl⟩ := h.next
  refine ⟨rfl, hcohort, ?_, rfl, trades', h.settled.found, rfl⟩
  have hall : a'.entriesTo mem'.cursor = a'.entries.values := by
    refine List.filter_eq_self.2 fun entry hentry => ?_
    obtain ⟨k, hk⟩ := Directory.mem_values.1 hentry
    exact decide_eq_true (h.settled.tidy.entrySeq k entry hk)
  show (a'.entriesTo mem'.cursor).length = mem'.entries.entries.length
  rw [hall, h.settled.tidy.holds.length_eq h.settled.tidy.entries]
  exact List.length_map ..

/-- With the new state the two sidecars differ in the files written after it at most. -/
theorem synced_of_state (hcalled : Called m manifest env mem a next mem' trades' a')
    (hfinished : pending = none ∨ pending = some env ∧ Finished m manifest env mem'.cursor mem' a')
    (hbehind : Behind mem'.cursor v a') (hstate : v.state = a'.state) (hreturned : pending = none → v = a') :
    Synced m manifest pending mem' trades' a' v := by
  obtain ⟨hcursor, hcohort, hcounted⟩ := hcalled.counted
  have hnext : stateOf manifest a' = next := by
    unfold stateOf
    rw [hcalled.state]
    rfl
  have hnext' : stateOf manifest v = next := by
    unfold stateOf
    rw [hstate, hcalled.state]
    rfl
  refine ⟨hcalled.settled, by rw [hnext, hcursor], ?_, ?_, ?_, ?_, hreturned, fun env' henv => ?_⟩
  · rw [hnext', hcursor]
    exact hbehind
  · rw [hnext', hcursor]
  · rw [hnext']
    exact hcohort
  · rw [hnext']
    exact hcounted
  · rcases hfinished with hnone | ⟨hsome, hfinished⟩
    · rw [hnone] at henv
      cases henv
    · rw [hsome] at henv
      obtain rfl := Option.some.inj henv
      rw [hnext', hcursor]
      exact hfinished

/-- Where both calls run through, the sidecars are the same. -/
theorem Synced.returns {b' : Sidecar} {next' : ObserverState} (h : Synced m manifest pending mem trades a b)
    (hcontinues : Continues (stateOf manifest b).cursor pending env) (hsound : Sound env.ledger)
    (ha : Returns (observeOnce m manifest env) a next a') (hb : Returns (observeOnce m manifest env) b next' b') :
    ∃ mem' trades', Called m manifest env mem a next mem' trades' a' ∧ Synced m manifest none mem' trades' a' b' := by
  obtain ⟨mem', trades', hcalled, -, -, -, hmeets⟩ := h.call hcontinues hsound ha
  obtain ⟨rfl, rfl⟩ := hmeets.of_returns hb
  exact ⟨mem', trades', hcalled, synced_of_state hcalled (.inl rfl) (.refl _ _) rfl fun _ => rfl⟩

/-- Where the second call is cut off, the second sidecar is behind. -/
theorem Synced.cut (h : Synced m manifest pending mem trades a b)
    (hcontinues : Continues (stateOf manifest b).cursor pending env) (hsound : Sound env.ledger)
    (ha : Returns (observeOnce m manifest env) a next a') (hv : v ∈ Durable.cuts (observeOnce m manifest env) b) :
    ∃ mem' trades', Called m manifest env mem a next mem' trades' a' ∧
      Synced m manifest (some env) mem' trades' a' v := by
  obtain ⟨mem', trades', hcalled, hfinished, -, hcounted, hmeets⟩ := h.call hcontinues hsound ha
  have hlast : Finished m manifest env mem'.cursor mem' a' := hcalled.finished.mono hcalled.cursor
  refine ⟨mem', trades', hcalled, ?_⟩
  rcases hmeets.of_mem_cuts hv with (⟨hbehind, hstate⟩ | ⟨hbehind, hstate⟩) | ⟨_, -, -, rfl⟩
  · -- before the state is written, the next call starts where this one did
    have hsame : stateOf manifest v = stateOf manifest b := congrArg (Option.getD · (initialState manifest)) hstate
    obtain ⟨hcursor, -, -⟩ := hcalled.counted
    have hle := h.le.trans hcalled.cursor
    refine ⟨hcalled.settled, ?_, hsame ▸ hbehind, hsame ▸ hle, hsame ▸ h.cohort, hsame ▸ hcounted,
      fun hnone => absurd hnone (Option.some_ne_none _), fun env' henv => ?_⟩
    · unfold stateOf
      rw [hcalled.state]
      exact hcursor
    · obtain rfl := Option.some.inj henv
      exact hsame ▸ hfinished
  · exact synced_of_state hcalled (.inr ⟨rfl, hlast⟩) hbehind hstate fun hnone => absurd hnone (Option.some_ne_none _)
  · exact synced_of_state hcalled (.inr ⟨rfl, hlast⟩) (.refl _ _) rfl fun hnone =>
      absurd hnone (Option.some_ne_none _)

theorem Beside.synced (h : Beside m manifest pending a b) : ∃ mem trades, Synced m manifest pending mem trades a b := by
  induction h with
  | start => exact synced_start
  | returns _ hcontinues hsound ha hb ih =>
    obtain ⟨mem, trades, h⟩ := ih
    obtain ⟨mem', trades', -, hsynced⟩ := h.returns hcontinues hsound ha hb
    exact ⟨mem', trades', hsynced⟩
  | cut _ hcontinues hsound ha hv ih =>
    obtain ⟨mem, trades, h⟩ := ih
    obtain ⟨mem', trades', -, hsynced⟩ := h.cut hcontinues hsound ha hv
    exact ⟨mem', trades', hsynced⟩

/-- After any cuts, a call that runs through without them runs through, with the same files and the same state. -/
theorem rerun_eq (h : Beside m manifest pending a b)
    (hcontinues : Continues (stateOf manifest b).cursor pending env) (hsound : Sound env.ledger)
    (ha : Returns (observeOnce m manifest env) a next a') : Returns (observeOnce m manifest env) b next a' := by
  obtain ⟨mem, trades, hsynced⟩ := h.synced
  obtain ⟨mem', trades', -, -, -, -, hmeets⟩ := hsynced.call hcontinues hsound ha
  obtain ⟨next', b', hreturns, rfl, rfl⟩ := hmeets.returns
  exact hreturns

end Rerun

end Aibot.N3
