/-
The report of `future_validation.build_future_validation`: what it counts besides the results of the
hypotheses. Rows of one event are compared with the first one that was read, so of an event with two
contents it depends on the order which rows count as exact duplicates; nothing else in the report does.
-/
import Aibot.Research.Leakage

namespace Aibot.Research.Report

open Observation.Stored (Conversions)
open Store (JsonDocument)

/-! ## Counting rows -/

section Count

variable (py : Host)

/-- The rows by identity, and the numbers of the rows that are not among them. -/
structure Tally where
  found : Deduplicated
  exactDuplicates : Nat
  malformed : Nat

def Tally.read (t : Tally) (row : Value) : Tally :=
  if ¬ isDict row then { t with malformed := t.malformed + 1 }
  else if eventIdentity py row = "" then { t with malformed := t.malformed + 1 }
  else
    match t.found.byId.get? (eventIdentity py row) with
    | none => { t with found := t.found.read py row }
    | some prior =>
      if prior.1 = py.digest row then { t with exactDuplicates := t.exactDuplicates + 1 }
      else { t with found := t.found.read py row }

/-- `_deduplicated_events`, the rows with their numbers. -/
def tally (rows : List Value) : Tally := rows.foldl (Tally.read py) ⟨⟨Dict.empty, []⟩, 0, 0⟩

/-- `_outcome_map`, the number of the intervals that were seen twice. -/
def horizonConflicts (row : Value) : Nat :=
  match row.get "samples" with
  | .list samples =>
    (samples.foldl (Outcomes.read py)
      ⟨Dict.ofList (horizons.map fun horizon => (horizon, none)), [], []⟩).conflicts.dedup.length
  | _ => 0

/-- The rows that make an event. -/
def scoredRows (rows : List Value) : List Value := rows.filter fun row => (scoredEvent py row).isSome

/-- `input_summary`. -/
def inputSummary (rows : List Value) : List (String × Nat) :=
  let t := tally py rows
  let deduplicated := deduplicatedEvents py rows
  let events := scoredEvents py rows
  [("input_row_count", rows.length),
    ("deduplicated_event_count", events.length),
    ("malformed_row_count", t.malformed + (deduplicated.filter fun row => (scoredEvent py row).isNone).length),
    ("exact_duplicate_count", t.exactDuplicates),
    ("conflicting_identity_count", t.found.conflicts.dedup.length),
    ("conflicting_horizon_sample_count", ((scoredRows py deduplicated).map (horizonConflicts py)).sum),
    ("canonical_outcome_read_count", events.length),
    ("rpc_request_count", 0)]

end Count

/-! ## The report -/

section Build

variable {F : Type} (fl : Arithmetic F) (py : Host)

/-- The identities of the events that the hypotheses select, one hypothesis after the other. -/
def memberships (registry : Registry) (events : List ScoredEvent) : Option (List String) :=
  (registry.hypotheses.mapM fun hypothesis =>
    (select fl py hypothesis (futureFamilyEvents hypothesis
      (((validationBoundaries py registry.hypotheses).get? hypothesis.hypothesisId).getD 0) events)).map
        fun selected => selected.1.map ScoredEvent.identity).map List.flatten

/-- The report, without the fields that are constant or repeat the registry. -/
structure Body where
  inputSummary : List (String × Nat)
  hypothesisCount : Nat
  hypotheses : List JsonDocument
  multiHypothesisEventCount : Nat
  maximumHypothesesPerEvent : Nat

/-- `build_future_validation`; none where it raises. -/
def report (conv : Conversions) (rows : List Value) (registry : Registry) : Option Body := do
  let results ← buildFutureValidation fl py conv rows registry
  let members ← memberships fl py registry (scoredEvents py rows)
  return {
    inputSummary := inputSummary py rows
    hypothesisCount := registry.hypotheses.length
    hypotheses := results
    multiHypothesisEventCount := (members.dedup.filter fun identity => 1 < members.count identity).length
    maximumHypothesesPerEvent := (members.map fun identity => members.count identity).foldl max 0 }

end Build

/-! ## What is counted -/

section Counted

variable (py : Host)

/-- The row is of the event and has the content. -/
def sameEvent (identity digest : String) (row : Value) : Bool :=
  identified py row && (decide (eventIdentity py row = identity) && decide (py.digest row = digest))

/-- What is held after some rows. -/
structure Counted (done : List Value) (t : Tally) : Prop where
  entries : ∀ {identity digest row}, t.found.byId.get? identity = some (digest, row) →
    row ∈ done ∧ identified py row = true ∧ eventIdentity py row = identity ∧ py.digest row = digest
  known : ∀ row ∈ done, identified py row = true → (t.found.byId.get? (eventIdentity py row)).isSome = true
  conflicts : ∀ identity, identity ∈ t.found.conflicts ↔ ∃ row ∈ done, identified py row = true ∧
    eventIdentity py row = identity ∧ ∃ prior, t.found.byId.get? identity = some prior ∧ prior.1 ≠ py.digest row
  exact : t.exactDuplicates + t.found.byId.entries.length =
    (t.found.byId.entries.map fun entry => done.countP (sameEvent py entry.1 entry.2.1)).sum
  malformed : t.malformed = done.countP fun row => !identified py row

variable {py}

theorem identified_iff {row : Value} : identified py row = true ↔ isDict row = true ∧ eventIdentity py row ≠ "" := by
  unfold identified
  rw [Bool.and_eq_true, decide_eq_true_eq]

theorem sameEvent_iff {identity digest : String} {row : Value} : sameEvent py identity digest row = true ↔
    identified py row = true ∧ eventIdentity py row = identity ∧ py.digest row = digest := by
  unfold sameEvent
  rw [Bool.and_eq_true, Bool.and_eq_true, decide_eq_true_eq, decide_eq_true_eq]

/-- What one row does. -/
theorem read_cases (t : Tally) (row : Value) :
    (identified py row = false ∧ t.read py row = { t with malformed := t.malformed + 1 }) ∨
    (identified py row = true ∧ t.found.byId.get? (eventIdentity py row) = none ∧ t.read py row = { t with
      found := { t.found with byId := t.found.byId.set (eventIdentity py row) (py.digest row, row) } }) ∨
    (identified py row = true ∧ ∃ prior, t.found.byId.get? (eventIdentity py row) = some prior ∧
      prior.1 = py.digest row ∧ t.read py row = { t with exactDuplicates := t.exactDuplicates + 1 }) ∨
    (identified py row = true ∧ ∃ prior, t.found.byId.get? (eventIdentity py row) = some prior ∧
      prior.1 ≠ py.digest row ∧ t.read py row = { t with
        found := { t.found with conflicts := eventIdentity py row :: t.found.conflicts } }) := by
  by_cases hident : identified py row = true
  · obtain ⟨hdict, hne⟩ := identified_iff.1 hident
    right
    cases hprior : t.found.byId.get? (eventIdentity py row) with
    | none =>
      left
      refine ⟨hident, rfl, ?_⟩
      unfold Tally.read
      rw [read_identified hident hprior]
      simp [hdict, hne, hprior]
    | some prior =>
      right
      by_cases hsame : prior.1 = py.digest row
      · left
        refine ⟨hident, prior, rfl, hsame, ?_⟩
        unfold Tally.read
        simp [hdict, hne, hprior, hsame]
      · right
        refine ⟨hident, prior, rfl, hsame, ?_⟩
        unfold Tally.read Deduplicated.read
        simp [hdict, hne, hprior, hsame]
  · left
    refine ⟨by simpa using hident, ?_⟩
    rw [identified_iff, not_and_or, not_not] at hident
    unfold Tally.read
    rcases hident with hdict | hempty
    · rw [if_pos hdict]
    · by_cases hdict : isDict row = true
      · simp [hdict, hempty]
      · rw [if_pos hdict]

theorem countP_snoc {p : Value → Bool} (done : List Value) (row : Value) :
    (done ++ [row]).countP p = done.countP p + if p row then 1 else 0 := by
  rw [List.countP_append, List.countP_singleton]

/-- A sum over the entries in which the entry of one key grows by one. -/
theorem sum_entries {d : Dict String (String × Value)} {identity : String} {prior : String × Value}
    (h : d.get? identity = some prior) {f g : String × String × Value → Nat}
    (hsame : ∀ entry ∈ d.entries, entry.1 ≠ identity → g entry = f entry)
    (hone : g (identity, prior) = f (identity, prior) + 1) :
    (d.entries.map g).sum = (d.entries.map f).sum + 1 := by
  obtain ⟨front, back, hsplit⟩ := Dict.exists_split h
  have hfront : front.map g = front.map f := List.map_congr_left fun entry hentry =>
    hsame entry (hsplit ▸ List.mem_append_left _ hentry) (Dict.ne_of_split hsplit (.inl hentry))
  have hback : back.map g = back.map f := List.map_congr_left fun entry hentry =>
    hsame entry (hsplit ▸ List.mem_append_right _ (List.mem_cons_of_mem _ hentry))
      (Dict.ne_of_split hsplit (.inr hentry))
  rw [hsplit, List.map_append, List.map_append, List.map_cons, List.map_cons, List.sum_append, List.sum_append,
    List.sum_cons, List.sum_cons, hfront, hback, hone]
  omega

section Step

variable {done : List Value} {t : Tally} {row : Value}

theorem mem_snoc {row' : Value} (h : row' ∈ done ++ [row]) : row' ∈ done ∨ row' = row := by
  rcases List.mem_append.1 h with hold | hnew
  · exact .inl hold
  · exact .inr (List.mem_singleton.1 hnew)

theorem countP_sameEvent_of_ne {identity digest : String}
    (h : identified py row = true → eventIdentity py row = identity → py.digest row ≠ digest) :
    (done ++ [row]).countP (sameEvent py identity digest) = done.countP (sameEvent py identity digest) := by
  rw [countP_snoc, if_neg, Nat.add_zero]
  rw [sameEvent_iff]
  rintro ⟨hident, hid, hdigest⟩
  exact h hident hid hdigest

/-- The conflicts are those of the rows before, where the row is of no event, or agrees with the first one. -/
theorem Counted.conflicts_of_agrees (h : Counted py done t)
    (hagrees : identified py row = true → ∀ prior, t.found.byId.get? (eventIdentity py row) = some prior →
      prior.1 = py.digest row) (identity : String) :
    identity ∈ t.found.conflicts ↔ ∃ row' ∈ done ++ [row], identified py row' = true ∧
      eventIdentity py row' = identity ∧ ∃ prior, t.found.byId.get? identity = some prior ∧
        prior.1 ≠ py.digest row' := by
  rw [h.conflicts]
  constructor
  · rintro ⟨row', hrow', hrest⟩
    exact ⟨row', List.mem_append_left _ hrow', hrest⟩
  · rintro ⟨row', hrow', hident, hid, prior, hprior, hdiffers⟩
    rcases mem_snoc hrow' with hrow' | rfl
    · exact ⟨row', hrow', hident, hid, prior, hprior, hdiffers⟩
    · exact absurd (hagrees hident prior (hid ▸ hprior)) hdiffers

/-- A row of no event. -/
theorem Counted.malformedRow (h : Counted py done t) (hident : identified py row = false) :
    Counted py (done ++ [row]) { t with malformed := t.malformed + 1 } where
  entries hget := by
    obtain ⟨hrow, hrest⟩ := h.entries hget
    exact ⟨List.mem_append_left _ hrow, hrest⟩
  known row' hrow' hident' := by
    rcases mem_snoc hrow' with hrow' | rfl
    · exact h.known row' hrow' hident'
    · rw [hident] at hident'
      cases hident'
  conflicts := h.conflicts_of_agrees fun hident' => by
    rw [hident] at hident'
    cases hident'
  exact := by
    refine h.exact.trans (congrArg List.sum (List.map_congr_left fun entry _ => ?_))
    refine (countP_sameEvent_of_ne fun hident' => ?_).symm
    rw [hident] at hident'
    cases hident'
  malformed := by
    show t.malformed + 1 = _
    rw [countP_snoc, h.malformed, hident]
    rfl

/-- The first row of its event. -/
theorem Counted.firstRow (h : Counted py done t) (hident : identified py row = true)
    (hnone : t.found.byId.get? (eventIdentity py row) = none) :
    Counted py (done ++ [row]) { t with
      found := { t.found with byId := t.found.byId.set (eventIdentity py row) (py.digest row, row) } } := by
  have hfresh : ∀ row' ∈ done, identified py row' = true → eventIdentity py row' ≠ eventIdentity py row := by
    intro row' hrow' hident' heq
    have hsome := h.known row' hrow' hident'
    rw [heq, hnone] at hsome
    cases hsome
  have hout : ∀ entry ∈ t.found.byId.entries, entry.1 ≠ eventIdentity py row := by
    intro entry hentry heq
    exact Dict.get?_eq_none.1 hnone (heq ▸ List.mem_map_of_mem hentry)
  refine ⟨fun {identity digest row'} hget => ?_, fun row' hrow' hident' => ?_, fun identity => ?_, ?_, ?_⟩
  · rw [Dict.get?_set] at hget
    split_ifs at hget with hid
    · cases hget
      exact ⟨List.mem_append_right _ List.mem_cons_self, hident, hid.symm, rfl⟩
    · obtain ⟨hrow, hrest⟩ := h.entries hget
      exact ⟨List.mem_append_left _ hrow, hrest⟩
  · rw [Dict.get?_set]
    split_ifs with hid
    · rfl
    · rcases mem_snoc hrow' with hrow' | rfl
      · exact h.known row' hrow' hident'
      · exact absurd rfl hid
  · rw [h.conflicts]
    constructor
    · rintro ⟨row', hrow', hident', hid, hprior⟩
      refine ⟨row', List.mem_append_left _ hrow', hident', hid, ?_⟩
      rw [Dict.get?_set_of_ne _ _ (hid ▸ hfresh row' hrow' hident')]
      exact hprior
    · rintro ⟨row', hrow', hident', hid, prior, hprior, hdiffers⟩
      rcases mem_snoc hrow' with hrow' | rfl
      · rw [Dict.get?_set_of_ne _ _ (hid ▸ hfresh row' hrow' hident')] at hprior
        exact ⟨row', hrow', hident', hid, prior, hprior, hdiffers⟩
      · rw [← hid, Dict.get?_set_self] at hprior
        cases hprior
        exact absurd rfl hdiffers
  · have hone : (done ++ [row]).countP (sameEvent py (eventIdentity py row) (py.digest row)) = 1 := by
      have hzero : done.countP (sameEvent py (eventIdentity py row) (py.digest row)) = 0 := by
        refine List.countP_eq_zero.2 fun row' hrow' hsame => ?_
        obtain ⟨hident', hid, -⟩ := sameEvent_iff.1 hsame
        exact hfresh row' hrow' hident' hid
      rw [countP_snoc, hzero, if_pos (sameEvent_iff.2 ⟨hident, rfl, rfl⟩)]
    have hrest : (t.found.byId.entries.map fun entry => (done ++ [row]).countP (sameEvent py entry.1 entry.2.1)) =
        t.found.byId.entries.map fun entry => done.countP (sameEvent py entry.1 entry.2.1) :=
      List.map_congr_left fun entry hentry => countP_sameEvent_of_ne fun _ hid => absurd hid.symm (hout entry hentry)
    have hexact := h.exact
    show t.exactDuplicates + (t.found.byId.set (eventIdentity py row) (py.digest row, row)).entries.length = _
    rw [Dict.entries_set_of_none hnone, List.length_append, List.map_append, List.sum_append, hrest, List.map_singleton,
      List.sum_singleton, hone, List.length_singleton]
    omega
  · show t.malformed = _
    rw [countP_snoc, h.malformed, hident]
    rfl

/-- A row that agrees with the first one of its event. -/
theorem Counted.sameRow (h : Counted py done t) (hident : identified py row = true) {prior : String × Value}
    (hprior : t.found.byId.get? (eventIdentity py row) = some prior) (hsame : prior.1 = py.digest row) :
    Counted py (done ++ [row]) { t with exactDuplicates := t.exactDuplicates + 1 } where
  entries hget := by
    obtain ⟨hrow, hrest⟩ := h.entries hget
    exact ⟨List.mem_append_left _ hrow, hrest⟩
  known row' hrow' hident' := by
    rcases mem_snoc hrow' with hrow' | rfl
    · exact h.known row' hrow' hident'
    · show (t.found.byId.get? (eventIdentity py row')).isSome = true
      rw [hprior]
      rfl
  conflicts := h.conflicts_of_agrees fun _ prior' hprior' => by
    rw [hprior] at hprior'
    cases hprior'
    exact hsame
  exact := by
    have hexact := h.exact
    have hsum := sum_entries hprior
      (f := fun entry => done.countP (sameEvent py entry.1 entry.2.1))
      (g := fun entry => (done ++ [row]).countP (sameEvent py entry.1 entry.2.1))
      (fun entry _ hne => countP_sameEvent_of_ne fun _ hid => absurd hid.symm hne)
      (by rw [countP_snoc, if_pos (sameEvent_iff.2 ⟨hident, rfl, hsame.symm⟩)])
    show t.exactDuplicates + 1 + t.found.byId.entries.length =
      (t.found.byId.entries.map fun entry => (done ++ [row]).countP (sameEvent py entry.1 entry.2.1)).sum
    omega
  malformed := by
    show t.malformed = _
    rw [countP_snoc, h.malformed, hident]
    rfl

/-- A row that conflicts with the first one of its event. -/
theorem Counted.conflictingRow (h : Counted py done t) (hident : identified py row = true) {prior : String × Value}
    (hprior : t.found.byId.get? (eventIdentity py row) = some prior) (hdiffers : prior.1 ≠ py.digest row) :
    Counted py (done ++ [row]) { t with
      found := { t.found with conflicts := eventIdentity py row :: t.found.conflicts } } where
  entries hget := by
    obtain ⟨hrow, hrest⟩ := h.entries hget
    exact ⟨List.mem_append_left _ hrow, hrest⟩
  known row' hrow' hident' := by
    rcases mem_snoc hrow' with hrow' | rfl
    · exact h.known row' hrow' hident'
    · show (t.found.byId.get? (eventIdentity py row')).isSome = true
      rw [hprior]
      rfl
  conflicts identity := by
    rw [List.mem_cons, h.conflicts]
    constructor
    · rintro (rfl | ⟨row', hrow', hrest⟩)
      · exact ⟨row, List.mem_append_right _ List.mem_cons_self, hident, rfl, prior, hprior, hdiffers⟩
      · exact ⟨row', List.mem_append_left _ hrow', hrest⟩
    · rintro ⟨row', hrow', hident', hid, hrest⟩
      rcases mem_snoc hrow' with hrow' | rfl
      · exact .inr ⟨row', hrow', hident', hid, hrest⟩
      · exact .inl hid.symm
  exact := by
    refine h.exact.trans (congrArg List.sum (List.map_congr_left fun entry hentry => ?_))
    refine (countP_sameEvent_of_ne fun _ hid hdigest => ?_).symm
    have hget : t.found.byId.get? entry.1 = some entry.2 := Dict.get?_eq_some.2 hentry
    rw [← hid, hprior] at hget
    cases hget
    exact hdiffers hdigest.symm
  malformed := by
    show t.malformed = _
    rw [countP_snoc, h.malformed, hident]
    rfl

/-- One row more is counted. -/
theorem Counted.read (h : Counted py done t) : Counted py (done ++ [row]) (t.read py row) := by
  rcases read_cases t row with ⟨hident, hread⟩ | ⟨hident, hnone, hread⟩ | ⟨hident, prior, hprior, hsame, hread⟩ |
    ⟨hident, prior, hprior, hdiffers, hread⟩
  · rw [hread]
    exact h.malformedRow hident
  · rw [hread]
    exact h.firstRow hident hnone
  · rw [hread]
    exact h.sameRow hident hprior hsame
  · rw [hread]
    exact h.conflictingRow hident hprior hdiffers

end Step

theorem Counted.run : ∀ (rows : List Value) {done : List Value} {t : Tally}, Counted py done t →
    Counted py (done ++ rows) (rows.foldl (Tally.read py) t)
  | [], done, t, h => by
    rw [List.append_nil]
    exact h
  | row :: rows, done, t, h => by
    have hread : Counted py (done ++ [row]) (t.read py row) := h.read
    have hstep := Counted.run rows hread
    rw [List.append_assoc, List.singleton_append] at hstep
    exact hstep

theorem counted_tally (rows : List Value) : Counted py rows (tally py rows) := by
  have hempty : Counted py [] ⟨⟨Dict.empty, []⟩, 0, 0⟩ := by
    refine ⟨fun hget => ?_, fun row hrow => ?_, fun identity => ?_, rfl, rfl⟩
    · cases hget
    · cases hrow
    · constructor
      · intro hmem
        cases hmem
      · rintro ⟨row, hrow, -⟩
        cases hrow
  exact hempty.run rows

end Counted

/-! ## Any order -/

section Order

variable (py : Host)

/-- Of every event, each content was seen as often as the others. -/
def Balanced (rows : List Value) : Prop :=
  ∀ row ∈ rows, ∀ row' ∈ rows, identified py row = true → identified py row' = true →
    eventIdentity py row = eventIdentity py row' →
      rows.countP (sameEvent py (eventIdentity py row) (py.digest row)) =
        rows.countP (sameEvent py (eventIdentity py row') (py.digest row'))

/-- Rows of one event with one digest are one row. -/
def ExactDigests (rows : List Value) : Prop :=
  ∀ row ∈ rows, ∀ row' ∈ rows, identified py row = true → identified py row' = true →
    eventIdentity py row = eventIdentity py row' → py.digest row = py.digest row' → row = row'

variable {py} {rows rows' : List Value}

theorem found_read (t : Tally) (row : Value) : (t.read py row).found = t.found.read py row := by
  rcases read_cases t row with ⟨hident, hread⟩ | ⟨hident, hnone, hread⟩ | ⟨hident, prior, hprior, hsame, hread⟩ |
    ⟨hident, prior, hprior, hdiffers, hread⟩
  · rw [hread, read_unidentified (by simp [hident])]
  · rw [hread, read_identified hident hnone]
  · obtain ⟨hdict, hne⟩ := identified_iff.1 hident
    rw [hread]
    unfold Deduplicated.read
    simp [hdict, hne, hprior, hsame]
  · obtain ⟨hdict, hne⟩ := identified_iff.1 hident
    rw [hread]
    unfold Deduplicated.read
    simp [hdict, hne, hprior, hdiffers]

theorem found_tally (rows : List Value) :
    (tally py rows).found = rows.foldl (Deduplicated.read py) ⟨Dict.empty, []⟩ := by
  have hrun : ∀ (rows : List Value) (t : Tally),
      (rows.foldl (Tally.read py) t).found = rows.foldl (Deduplicated.read py) t.found := by
    intro rows
    induction rows with
    | nil => exact fun _ => rfl
    | cons row rows ih =>
      intro t
      rw [List.foldl_cons, List.foldl_cons, ih, found_read]
  exact hrun rows _

theorem mem_keys {identity : String} : identity ∈ (tally py rows).found.byId.entries.map Prod.fst ↔
    ∃ row ∈ rows, identified py row = true ∧ eventIdentity py row = identity := by
  have hcounted : Counted py rows (tally py rows) := counted_tally rows
  constructor
  · intro hmem
    obtain ⟨entry, hentry, rfl⟩ := List.mem_map.1 hmem
    obtain ⟨hrow, hident, hid, -⟩ := hcounted.entries (Dict.get?_eq_some.2 hentry)
    exact ⟨entry.2.2, hrow, hident, hid⟩
  · rintro ⟨row, hrow, hident, rfl⟩
    by_contra hout
    have hsome := hcounted.known row hrow hident
    rw [Dict.get?_eq_none.2 hout] at hsome
    cases hsome

/-- An identity is in conflict when it was seen with two contents. -/
theorem mem_conflicts {identity : String} : identity ∈ (tally py rows).found.conflicts ↔
    ∃ row ∈ rows, ∃ row' ∈ rows, identified py row = true ∧ identified py row' = true ∧
      eventIdentity py row = identity ∧ eventIdentity py row' = identity ∧ py.digest row ≠ py.digest row' := by
  have hcounted : Counted py rows (tally py rows) := counted_tally rows
  rw [hcounted.conflicts]
  constructor
  · rintro ⟨row, hrow, hident, hid, prior, hprior, hdiffers⟩
    obtain ⟨hmem, hident', hid', hdigest⟩ := hcounted.entries hprior
    exact ⟨row, hrow, prior.2, hmem, hident, hident', hid, hid', fun heq => hdiffers (hdigest.symm.trans heq.symm)⟩
  · rintro ⟨row, hrow, row', hrow', hident, hident', hid, hid', hdiffers⟩
    obtain ⟨prior, hprior⟩ := Option.isSome_iff_exists.1 (hcounted.known row hrow hident)
    rw [hid] at hprior
    -- one of the two rows does not agree with the first one
    by_cases hfirst : prior.1 = py.digest row
    · exact ⟨row', hrow', hident', hid', prior, hprior, fun heq => hdiffers (hfirst.symm.trans heq)⟩
    · exact ⟨row, hrow, hident, hid, prior, hprior, hfirst⟩

/-- What is left are the rows of the events without a conflict. -/
theorem mem_deduplicatedEvents (hexact : ExactDigests py rows) {row : Value} : row ∈ deduplicatedEvents py rows ↔
    row ∈ rows ∧ identified py row = true ∧ eventIdentity py row ∉ (tally py rows).found.conflicts := by
  have hcounted : Counted py rows (tally py rows) := counted_tally rows
  unfold deduplicatedEvents
  dsimp only
  rw [← found_tally, List.mem_map]
  constructor
  · rintro ⟨entry, hentry, rfl⟩
    obtain ⟨hmem, hfree⟩ := List.mem_filter.1 hentry
    obtain ⟨hrow, hident, hid, -⟩ := hcounted.entries (Dict.get?_eq_some.2 hmem)
    refine ⟨hrow, hident, ?_⟩
    rw [hid]
    simpa using hfree
  · rintro ⟨hrow, hident, hfree⟩
    obtain ⟨prior, hprior⟩ := Option.isSome_iff_exists.1 (hcounted.known row hrow hident)
    obtain ⟨hmem, hident', hid', hdigest⟩ := hcounted.entries hprior
    refine ⟨(eventIdentity py row, prior), List.mem_filter.2 ⟨Dict.get?_eq_some.1 hprior, by simpa using hfree⟩, ?_⟩
    refine hexact prior.2 hmem row hrow hident' hident hid' ?_
    by_contra hdiffers
    exact hfree (mem_conflicts.2 ⟨prior.2, hmem, row, hrow, hident', hident, hid', rfl, hdiffers⟩)

theorem nodup_deduplicatedEvents (rows : List Value) : ((deduplicatedEvents py rows).map (eventIdentity py)).Nodup := by
  have hcounted : Counted py rows (tally py rows) := counted_tally rows
  have hkeys : (deduplicatedEvents py rows).map (eventIdentity py) =
      ((tally py rows).found.byId.entries.filter fun entry => entry.1 ∉ (tally py rows).found.conflicts).map
        Prod.fst := by
    unfold deduplicatedEvents
    dsimp only
    rw [← found_tally, List.map_map]
    refine List.map_congr_left fun entry hentry => ?_
    exact (hcounted.entries (Dict.get?_eq_some.2 (List.mem_of_mem_filter hentry))).2.2.1
  rw [hkeys]
  exact (tally py rows).found.byId.nodup.sublist (List.filter_sublist.map _)

section Perm

variable (h : rows'.Perm rows)

include h

theorem conflicts_perm (identity : String) :
    identity ∈ (tally py rows').found.conflicts ↔ identity ∈ (tally py rows).found.conflicts := by
  rw [mem_conflicts, mem_conflicts]
  simp only [h.mem_iff]

theorem deduplicatedEvents_perm (hexact : ExactDigests py rows) :
    (deduplicatedEvents py rows').Perm (deduplicatedEvents py rows) := by
  have hexact' : ExactDigests py rows' := fun row hrow row' hrow' =>
    hexact row (h.mem_iff.1 hrow) row' (h.mem_iff.1 hrow')
  refine (List.perm_ext_iff_of_nodup (nodup_deduplicatedEvents rows').of_map
    (nodup_deduplicatedEvents rows).of_map).2 fun row => ?_
  rw [mem_deduplicatedEvents hexact', mem_deduplicatedEvents hexact, h.mem_iff, conflicts_perm h]

theorem scoredEvents_perm (hexact : ExactDigests py rows) : scoredEvents py rows' = scoredEvents py rows := by
  have hperm : ((deduplicatedEvents py rows').filterMap (scoredEvent py)).Perm
      ((deduplicatedEvents py rows).filterMap (scoredEvent py)) := (deduplicatedEvents_perm h hexact).filterMap _
  -- two events of one identity are of one row
  have hanti : ∀ e ∈ (deduplicatedEvents py rows).filterMap (scoredEvent py),
      ∀ e' ∈ (deduplicatedEvents py rows).filterMap (scoredEvent py),
        ScoredEvent.le e e' = true → ScoredEvent.le e' e = true → e = e' := by
    intro e he e' he' hle hle'
    obtain ⟨row, hrow, hscored⟩ := List.mem_filterMap.1 he
    obtain ⟨row', hrow', hscored'⟩ := List.mem_filterMap.1 he'
    have hid := scored_antisymm hle hle'
    rw [(scoredEvent_row hscored).2.1, (scoredEvent_row hscored').2.1] at hid
    have hsame := List.inj_on_of_nodup_map (nodup_deduplicatedEvents rows) hrow hrow' hid
    rw [hsame, hscored'] at hscored
    exact (Option.some.inj hscored).symm
  have hsorted : ∀ l : List ScoredEvent, (l.mergeSort ScoredEvent.le).Pairwise fun e e' => ScoredEvent.le e e' = true :=
    fun l => List.pairwise_mergeSort scored_trans scored_total l
  unfold scoredEvents
  refine List.Perm.eq_of_pairwise (fun e e' he he' => ?_) (hsorted _) (hsorted _) ?_
  · exact hanti e (hperm.mem_iff.1 ((List.mergeSort_perm _ _).mem_iff.1 he)) e'
      ((List.mergeSort_perm _ _).mem_iff.1 he')
  · exact (List.mergeSort_perm _ _).trans (hperm.trans (List.mergeSort_perm _ _).symm)

theorem keys_perm : ((tally py rows').found.byId.entries.map Prod.fst).Perm
    ((tally py rows).found.byId.entries.map Prod.fst) := by
  refine (List.perm_ext_iff_of_nodup (tally py rows').found.byId.nodup (tally py rows).found.byId.nodup).2
    fun identity => ?_
  rw [mem_keys, mem_keys]
  simp only [h.mem_iff]

/-- Where the contents of every event were seen equally often, the order does not matter for the number of
exact duplicates. -/
theorem exactDuplicates_perm (hbalanced : Balanced py rows) :
    (tally py rows').exactDuplicates = (tally py rows).exactDuplicates := by
  have hcounted : Counted py rows (tally py rows) := counted_tally rows
  have hcounted' : Counted py rows' (tally py rows') := counted_tally rows'
  -- how often the first content of an event was seen, which is how often each of its contents was
  obtain ⟨seen, hseen⟩ : ∃ seen : String → Nat, ∀ row ∈ rows, identified py row = true →
      rows.countP (sameEvent py (eventIdentity py row) (py.digest row)) = seen (eventIdentity py row) := by
    refine ⟨fun identity => ((tally py rows).found.byId.get? identity).elim 0 fun prior =>
      rows.countP (sameEvent py identity prior.1), fun row hrow hident => ?_⟩
    obtain ⟨prior, hprior⟩ := Option.isSome_iff_exists.1 (hcounted.known row hrow hident)
    obtain ⟨hmem, hident', hid', hdigest⟩ := hcounted.entries hprior
    have heq := hbalanced row hrow prior.2 hmem hident hident' hid'.symm
    rw [hid', hdigest] at heq
    rw [heq]
    dsimp only
    rw [hprior]
    rfl
  have hsum : ((tally py rows).found.byId.entries.map fun entry => rows.countP (sameEvent py entry.1 entry.2.1)) =
      ((tally py rows).found.byId.entries.map Prod.fst).map seen := by
    rw [List.map_map]
    refine List.map_congr_left fun entry hentry => ?_
    obtain ⟨hmem, hident, hid, hdigest⟩ := hcounted.entries (Dict.get?_eq_some.2 hentry)
    have heq := hseen entry.2.2 hmem hident
    rw [hid, hdigest] at heq
    exact heq
  have hsum' : ((tally py rows').found.byId.entries.map fun entry => rows'.countP (sameEvent py entry.1 entry.2.1)) =
      ((tally py rows').found.byId.entries.map Prod.fst).map seen := by
    rw [List.map_map]
    refine List.map_congr_left fun entry hentry => ?_
    obtain ⟨hmem, hident, hid, hdigest⟩ := hcounted'.entries (Dict.get?_eq_some.2 hentry)
    have heq := hseen entry.2.2 (h.mem_iff.1 hmem) hident
    rw [hid, hdigest] at heq
    rw [h.countP_eq]
    exact heq
  have hexact := hcounted.exact
  have hexact' := hcounted'.exact
  have hperm : ((tally py rows').found.byId.entries.map Prod.fst).Perm
    ((tally py rows).found.byId.entries.map Prod.fst) := keys_perm h
  have hkeys := (hperm.map seen).sum_eq
  have hlength := hperm.length_eq
  rw [List.length_map, List.length_map] at hlength
  rw [hsum] at hexact
  rw [hsum'] at hexact'
  omega

end Perm

/-! ## Two rows in either order -/

/-- The content of the first row of an event. -/
def firstContent (t : Tally) (identity : String) : Option String := (t.found.byId.get? identity).map Prod.fst

theorem firstContent_read (t : Tally) (row : Value) (identity : String) :
    firstContent (t.read py row) identity = (firstContent t identity).or
      (if identified py row = true ∧ eventIdentity py row = identity then some (py.digest row) else none) := by
  unfold firstContent
  rcases read_cases t row with ⟨hident, hread⟩ | ⟨hident, hnone, hread⟩ | ⟨hident, prior, hprior, hsame, hread⟩ |
    ⟨hident, prior, hprior, hdiffers, hread⟩
  · rw [hread, if_neg (by simp [hident]), Option.or_none]
  · rw [hread]
    dsimp only
    rw [Dict.get?_set]
    by_cases hid : identity = eventIdentity py row
    · rw [if_pos hid, if_pos ⟨hident, hid.symm⟩, hid, hnone]
      rfl
    · rw [if_neg hid, if_neg fun hboth => hid hboth.2.symm, Option.or_none]
  · rw [hread]
    by_cases hid : eventIdentity py row = identity
    · rw [← hid, hprior]
      rfl
    · rw [if_neg fun hboth => hid hboth.2, Option.or_none]
  · rw [hread]
    by_cases hid : eventIdentity py row = identity
    · rw [← hid, hprior]
      rfl
    · rw [if_neg fun hboth => hid hboth.2, Option.or_none]

theorem exactDuplicates_read (t : Tally) (row : Value) : (t.read py row).exactDuplicates = t.exactDuplicates +
    if identified py row = true ∧ firstContent t (eventIdentity py row) = some (py.digest row) then 1 else 0 := by
  unfold firstContent
  rcases read_cases t row with ⟨hident, hread⟩ | ⟨hident, hnone, hread⟩ | ⟨hident, prior, hprior, hsame, hread⟩ |
    ⟨hident, prior, hprior, hdiffers, hread⟩
  · rw [hread, if_neg (by simp [hident])]
    rfl
  · rw [hread, hnone, if_neg (by simp)]
    rfl
  · rw [hread, hprior, if_pos ⟨hident, congrArg some hsame⟩]
  · rw [hread, hprior, if_neg fun hboth => hdiffers (Option.some.inj hboth.2)]
    rfl

/-- Two runs that differ in the first content of one event differ in how often these contents follow. -/
theorem exactDuplicates_compare {identity digest digest' : String} : ∀ (rest : List Value) {t t' : Tally},
    firstContent t identity = some digest → firstContent t' identity = some digest' →
    (∀ other ≠ identity, firstContent t other = firstContent t' other) →
    (rest.foldl (Tally.read py) t).exactDuplicates + t'.exactDuplicates +
        rest.countP (sameEvent py identity digest') =
      (rest.foldl (Tally.read py) t').exactDuplicates + t.exactDuplicates +
        rest.countP (sameEvent py identity digest)
  | [], _, _, _, _, _ => by
    rw [List.countP_nil, List.countP_nil, List.foldl_nil, List.foldl_nil]
    omega
  | row :: rest, t, t', hfirst, hfirst', hother => by
    have hread : firstContent (t.read py row) identity = some digest := by
      rw [firstContent_read, hfirst]
      rfl
    have hread' : firstContent (t'.read py row) identity = some digest' := by
      rw [firstContent_read, hfirst']
      rfl
    have ih := exactDuplicates_compare rest hread hread'
      fun other hne => by rw [firstContent_read, firstContent_read, hother other hne]
    rw [exactDuplicates_read, exactDuplicates_read] at ih
    rw [List.foldl_cons, List.foldl_cons, List.countP_cons, List.countP_cons]
    by_cases hevent : identified py row = true ∧ eventIdentity py row = identity
    · obtain ⟨hident, rfl⟩ := hevent
      have hsame : ∀ d, sameEvent py (eventIdentity py row) d row = true ↔ py.digest row = d := fun d => by
        rw [sameEvent_iff]
        exact ⟨fun h => h.2.2, fun h => ⟨hident, rfl, h⟩⟩
      simp only [hfirst, hfirst', hident, true_and, Option.some.injEq, eq_comm (b := py.digest row), hsame] at ih ⊢
      omega
    · have hnot : ∀ d, ¬ sameEvent py identity d row = true := fun d hsame =>
        hevent ⟨(sameEvent_iff.1 hsame).1, (sameEvent_iff.1 hsame).2.1⟩
      rw [if_neg (hnot _), if_neg (hnot _)]
      by_cases hident : identified py row = true
      · rw [hother _ fun hid => hevent ⟨hident, hid⟩] at ih
        omega
      · rw [if_neg fun hboth => hident hboth.1, if_neg fun hboth => hident hboth.1] at ih
        omega

section Two

variable {row row' : Value} (hident : identified py row = true) (hid : eventIdentity py row = eventIdentity py row')

include hident hid

theorem firstContent_two (identity : String) :
    firstContent (((⟨⟨Dict.empty, []⟩, 0, 0⟩ : Tally).read py row).read py row') identity =
      if eventIdentity py row = identity then some (py.digest row) else none := by
  have hempty : firstContent ⟨⟨Dict.empty, []⟩, 0, 0⟩ identity = none := rfl
  rw [firstContent_read, firstContent_read, hempty, Option.none_or]
  by_cases hother : eventIdentity py row = identity
  · rw [if_pos ⟨hident, hother⟩, if_pos hother]
    rfl
  · rw [if_neg fun hboth => hother hboth.2, if_neg fun hboth => hother (hid.trans hboth.2), if_neg hother]
    rfl

theorem exactDuplicates_two (hdigest : py.digest row ≠ py.digest row') :
    (((⟨⟨Dict.empty, []⟩, 0, 0⟩ : Tally).read py row).read py row').exactDuplicates = 0 := by
  have hempty : ∀ identity, firstContent ⟨⟨Dict.empty, []⟩, 0, 0⟩ identity = none := fun _ => rfl
  have hone : ((⟨⟨Dict.empty, []⟩, 0, 0⟩ : Tally).read py row).exactDuplicates = 0 := by
    rw [exactDuplicates_read, hempty, if_neg (by simp)]
  have hcontent : firstContent ((⟨⟨Dict.empty, []⟩, 0, 0⟩ : Tally).read py row) (eventIdentity py row') =
      some (py.digest row) := by
    rw [firstContent_read, hempty, Option.none_or, if_pos ⟨hident, hid⟩]
  rw [exactDuplicates_read, hone, hcontent, if_neg fun hboth => hdigest (Option.some.inj hboth.2)]

end Two

/-- Where the order does not matter for the number of exact duplicates, the contents of every event were seen
equally often. -/
theorem balanced_of_exactDuplicates
    (h : ∀ rows', rows'.Perm rows → (tally py rows').exactDuplicates = (tally py rows).exactDuplicates) :
    Balanced py rows := by
  classical
  intro row hrow row' hrow' hident hident' hid
  by_cases hdigest : py.digest row = py.digest row'
  · rw [hid, hdigest]
  have hne : row ≠ row' := fun heq => hdigest (congrArg _ heq)
  have hrest : row' ∈ rows.erase row := (List.mem_erase_of_ne hne.symm).2 hrow'
  have hperm := (List.perm_cons_erase hrow).trans ((List.perm_cons_erase hrest).cons row)
  generalize (rows.erase row).erase row' = rest at hperm
  -- the two rows come first, in the one order and in the other
  have hcompare : (tally py (row :: row' :: rest)).exactDuplicates +
        (((⟨⟨Dict.empty, []⟩, 0, 0⟩ : Tally).read py row').read py row).exactDuplicates +
          rest.countP (sameEvent py (eventIdentity py row) (py.digest row')) =
      (tally py (row' :: row :: rest)).exactDuplicates +
        (((⟨⟨Dict.empty, []⟩, 0, 0⟩ : Tally).read py row).read py row').exactDuplicates +
          rest.countP (sameEvent py (eventIdentity py row) (py.digest row)) := exactDuplicates_compare rest
    (by rw [firstContent_two hident hid, if_pos rfl]) (by rw [firstContent_two hident' hid.symm, if_pos hid.symm])
    fun other hother => by
      rw [firstContent_two hident hid, firstContent_two hident' hid.symm, if_neg hother.symm,
        if_neg (hid ▸ hother.symm)]
  rw [exactDuplicates_two hident hid hdigest, exactDuplicates_two hident' hid.symm (Ne.symm hdigest)] at hcompare
  have hsame := (h _ hperm.symm).trans (h _ ((List.Perm.swap ..).trans hperm.symm)).symm
  have hcount : rest.countP (sameEvent py (eventIdentity py row) (py.digest row')) =
      rest.countP (sameEvent py (eventIdentity py row) (py.digest row)) := by
    omega
  have hhead : ∀ digest, rows.countP (sameEvent py (eventIdentity py row) digest) =
      rest.countP (sameEvent py (eventIdentity py row) digest) +
        ((if py.digest row = digest then 1 else 0) + if py.digest row' = digest then 1 else 0) := by
    intro digest
    have hrow : sameEvent py (eventIdentity py row) digest row = decide (py.digest row = digest) := by
      unfold sameEvent
      simp [hident]
    have hrow' : sameEvent py (eventIdentity py row) digest row' = decide (py.digest row' = digest) := by
      unfold sameEvent
      simp [hident', hid]
    rw [hperm.countP_eq, List.countP_cons, List.countP_cons, hrow, hrow']
    simp only [decide_eq_true_eq]
    omega
  rw [← hid, hhead, hhead, hcount, if_pos rfl, if_neg (Ne.symm hdigest), if_neg hdigest, if_pos rfl]

end Order

/-! ## The report in any order -/

section Reordered

variable {py : Host} {rows rows' : List Value}

theorem inputSummary_perm (h : rows'.Perm rows) (hexact : ExactDigests py rows) (hbalanced : Balanced py rows) :
    inputSummary py rows' = inputSummary py rows := by
  have hdeduplicated := deduplicatedEvents_perm h hexact
  have hmalformed : (tally py rows').malformed = (tally py rows).malformed := by
    rw [(counted_tally rows').malformed, (counted_tally rows).malformed, h.countP_eq]
  have hconflicts : (tally py rows').found.conflicts.dedup.length = (tally py rows).found.conflicts.dedup.length := by
    refine List.Perm.length_eq
      ((List.perm_ext_iff_of_nodup (List.nodup_dedup _) (List.nodup_dedup _)).2 fun identity => ?_)
    rw [List.mem_dedup, List.mem_dedup, conflicts_perm h]
  have hhorizons : ((scoredRows py (deduplicatedEvents py rows')).map (horizonConflicts py)).sum =
      ((scoredRows py (deduplicatedEvents py rows)).map (horizonConflicts py)).sum :=
    ((hdeduplicated.filter _).map _).sum_eq
  have hmissing := (hdeduplicated.filter fun row => (scoredEvent py row).isNone).length_eq
  unfold inputSummary
  dsimp only
  rw [h.length_eq, scoredEvents_perm h hexact, exactDuplicates_perm h hbalanced, hmalformed, hconflicts, hhorizons,
    hmissing]

variable {F : Type} {fl : Arithmetic F} {conv : Conversions} {registry : Registry}

theorem summary_of_report {body : Body} (h : report fl py conv rows registry = some body) :
    body.inputSummary = inputSummary py rows := by
  unfold report at h
  obtain ⟨results, -, h⟩ := Option.bind_eq_some_iff.1 h
  obtain ⟨members, -, h⟩ := Option.bind_eq_some_iff.1 h
  cases h
  rfl

/-- Equal reports count equally many exact duplicates. -/
theorem exactDuplicates_of_report (hreturns : (report fl py conv rows registry).isSome = true)
    (h : report fl py conv rows' registry = report fl py conv rows registry) :
    (tally py rows').exactDuplicates = (tally py rows).exactDuplicates := by
  obtain ⟨body, hbody⟩ := Option.isSome_iff_exists.1 hreturns
  have hequal := (summary_of_report (h.trans hbody)).symm.trans (summary_of_report hbody)
  have hfourth := congrArg (fun summary => summary[3]?) hequal
  have hpair : ("exact_duplicate_count", (tally py rows').exactDuplicates) =
      ("exact_duplicate_count", (tally py rows).exactDuplicates) := Option.some.inj hfourth
  exact congrArg Prod.snd hpair

variable (fl py)

/-- Where the rows of one event with one digest are one row, and the evaluation returns: the report is the same
for every order of the rows exactly when of every event each content was seen as often as the others. -/
theorem report_reordered_iff (conv : Conversions) (registry : Registry) (rows : List Value)
    (hexact : ExactDigests py rows) (hreturns : (report fl py conv rows registry).isSome = true) :
    (∀ rows', rows'.Perm rows → report fl py conv rows' registry = report fl py conv rows registry) ↔
      Balanced py rows := by
  constructor
  · intro hsame
    exact balanced_of_exactDuplicates fun rows' h => exactDuplicates_of_report hreturns (hsame rows' h)
  · intro hbalanced rows' h
    unfold report buildFutureValidation
    rw [inputSummary_perm h hexact hbalanced, scoredEvents_perm h hexact]

end Reordered

/-! ## Three rows of one event -/

/-- A host whose digest is the token of a row. -/
def tokenDigests : Host :=
  { firstDay with
    digest := fun value => match value.get "mint" with
      | .str s => s
      | _ => "" }

def noHypotheses : Registry := ⟨[], List.nodup_nil⟩

/-- A row of the event `a`. -/
def contentOf (mint : String) : Value := signalOf "a" mint (seconds 500 exact_500)

theorem identified_contentOf (mint : String) :
    identified tokenDigests (contentOf mint) = true ∧ eventIdentity tokenDigests (contentOf mint) = "a" := by
  have hobservation : strippedText tokenDigests (contentOf mint) "observation_id" = "a" := by
    show Observation.strip "a" = "a"
    decide +kernel
  have hid : eventIdentity tokenDigests (contentOf mint) = "a" := by
    unfold eventIdentity
    rw [hobservation]
    rfl
  have hdict : isDict (contentOf mint) = true := rfl
  refine ⟨identified_iff.2 ⟨hdict, ?_⟩, hid⟩
  rw [hid]
  decide

theorem sameEvent_contentOf (mint digest : String) :
    sameEvent tokenDigests "a" digest (contentOf mint) = decide (mint = digest) := by
  obtain ⟨hident, hid⟩ := identified_contentOf mint
  have hdigest : tokenDigests.digest (contentOf mint) = mint := rfl
  unfold sameEvent
  simp [hident, hid, hdigest]

/-- Two rows that differ may come in either order. -/
theorem report_reordered_twoRows :
    report exactArithmetic tokenDigests textConversions [contentOf "y", contentOf "x"] noHypotheses =
      report exactArithmetic tokenDigests textConversions [contentOf "x", contentOf "y"] noHypotheses := by
  have hrows : ∀ row ∈ [contentOf "x", contentOf "y"], row = contentOf "x" ∨ row = contentOf "y" := by simp
  refine (report_reordered_iff tokenDigests exactArithmetic textConversions noHypotheses _ ?_ rfl).2 ?_ _
    (List.Perm.swap _ _ _)
  · intro row hrow row' hrow' _ _ _ hdigest
    rcases hrows row hrow with rfl | rfl <;> rcases hrows row' hrow' with rfl | rfl
    · rfl
    · exact absurd (show "x" = "y" from hdigest) (by decide)
    · exact absurd (show "y" = "x" from hdigest) (by decide)
    · rfl
  · have hone : ∀ row ∈ [contentOf "x", contentOf "y"], [contentOf "x", contentOf "y"].countP
        (sameEvent tokenDigests (eventIdentity tokenDigests row) (tokenDigests.digest row)) = 1 := by
      intro row hrow
      rcases hrows row hrow with rfl | rfl
      · rw [(identified_contentOf "x").2]
        simp [sameEvent_contentOf, show tokenDigests.digest (contentOf "x") = "x" from rfl]
      · rw [(identified_contentOf "y").2]
        simp [sameEvent_contentOf, show tokenDigests.digest (contentOf "y") = "y" from rfl]
    intro row hrow row' hrow' _ _ _
    rw [hone row hrow, hone row' hrow']

/-- Of two rows of one content and one of another, the first one decides whether there is a duplicate. -/
theorem report_threeRows : ¬ ∀ rows', rows'.Perm [contentOf "x", contentOf "x", contentOf "y"] →
    report exactArithmetic tokenDigests textConversions rows' noHypotheses =
      report exactArithmetic tokenDigests textConversions [contentOf "x", contentOf "x", contentOf "y"]
        noHypotheses := by
  intro h
  have hbalanced : Balanced tokenDigests [contentOf "x", contentOf "x", contentOf "y"] :=
    balanced_of_exactDuplicates fun rows' hperm => exactDuplicates_of_report rfl (h rows' hperm)
  obtain ⟨hident, hid⟩ := identified_contentOf "x"
  obtain ⟨hident', hid'⟩ := identified_contentOf "y"
  have hcount := hbalanced (contentOf "x") (by simp) (contentOf "y") (by simp) hident hident' (hid.trans hid'.symm)
  rw [hid, hid'] at hcount
  simp [sameEvent_contentOf, show tokenDigests.digest (contentOf "x") = "x" from rfl,
    show tokenDigests.digest (contentOf "y") = "y" from rfl] at hcount

end Aibot.Research.Report
