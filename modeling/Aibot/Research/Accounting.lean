/-
Where the rows of an analysis are counted, and what its strategies are compared on. Every row of the input
is outside of the window, invalid, without a time, of a token that was there before, or in the cohort; the
strategies have one cohort and one division of it. The analysis comes about exactly when no time and no
result of a strategy is of a kind that it cannot read, and no sum of outcomes overflows.
-/
import Aibot.Lib.Sequence
import Aibot.Research.Comparison
import Aibot.Research.Leakage

namespace Aibot.Research.Comparison

open Observation.Stored.Shadow (strip)
open Wallet (lastN length_lastN lastN_map)

variable {F : Type} {fl : Arithmetic F} {py : Reader} {settings : Settings}

/-! ## Counting -/

section Count

variable {interval : String}

/-- The rows that a reading has counted. -/
def Reading.count (reading : Reading) : Nat :=
  reading.invalidRows + reading.missingTimestamps + reading.cohort.length

def Distinct.count (d : Distinct) : Nat := d.invalidRows + d.duplicateMintRows + d.eligible.length

theorem readRow_count {reading reading' : Reading} {item : Value × Nat}
    (h : readRow py interval reading item = some reading') : reading'.count = reading.count + 1 := by
  unfold readRow at h
  unfold Reading.count
  by_cases hdict : ¬ isDict item.1 = true
  · rw [if_pos hdict] at h
    cases h
    dsimp only
    omega
  · rw [if_neg hdict] at h
    obtain ⟨started, -, rfl⟩ := Option.map_eq_some_iff.1 h
    cases started with
    | none =>
      dsimp only
      omega
    | some startedAt =>
      dsimp only
      rw [List.length_append, List.length_singleton]
      omega

theorem read_count : ∀ {items : List (Value × Nat)} {reading reading' : Reading},
    items.foldlM (readRow py interval) reading = some reading' → reading'.count = reading.count + items.length
  | [], reading, reading', h => by
    cases h
    rfl
  | item :: items, reading, reading', h => by
    rw [List.foldlM_cons] at h
    obtain ⟨next, hnext, hrest⟩ := Option.bind_eq_some_iff.1 h
    have ih := read_count hrest
    rw [readRow_count hnext] at ih
    rw [List.length_cons]
    omega

theorem take_count (d : Distinct) (entry : Entry) : (d.take py entry).count = d.count + 1 := by
  unfold Distinct.take Distinct.count
  dsimp only
  split_ifs
  · dsimp only
    omega
  · dsimp only
    omega
  · dsimp only
    rw [List.length_append, List.length_singleton]
    omega

theorem distinct_count : ∀ (entries : List Entry) (d : Distinct),
    (entries.foldl (Distinct.take py) d).count = d.count + entries.length
  | [], _ => rfl
  | entry :: entries, d => by
    have ih := distinct_count entries (d.take py entry)
    rw [take_count] at ih
    rw [List.foldl_cons, List.length_cons]
    omega

end Count

/-! ## The cohort -/

section Cohort

variable (py) in
/-- The entry of a row with a time. -/
def timedEntry (interval : String) (item : Value × Nat) : Option Entry :=
  if isDict item.1 then
    (startedAtEpoch py item.1).join.map fun startedAt => ⟨startedAt, item.2, item.1, intervalReturn py item.1 interval⟩
  else none

variable (py) in
/-- The entry has a token, and no entry of the token is before it. -/
def First (entries : List Entry) (entry : Entry) : Prop :=
  groupOf py entry.row ≠ "" ∧
    ∀ other ∈ entries, groupOf py other.row = groupOf py entry.row → entry.sortKey ≤ other.sortKey

instance (entries : List Entry) : DecidablePred (First py entries) := fun _ => inferInstanceAs (Decidable (_ ∧ _))

variable (py settings) in
/-- The rows that have a time, among the newest ones. -/
def timed (rows : List Value) : List Entry :=
  (lastN settings.maxRows rows).zipIdx.filterMap (timedEntry py settings.outcomeInterval)

variable (py settings) in
/-- The first ones of their tokens among them, by time. -/
def judged (rows : List Value) : List Entry :=
  Cut.sort Entry.sortKey ((timed py settings rows).filter (First py (timed py settings rows)))

theorem readRow_cohort {interval : String} {reading reading' : Reading} {item : Value × Nat}
    (h : readRow py interval reading item = some reading') :
    reading'.cohort = reading.cohort ++ (timedEntry py interval item).toList := by
  unfold readRow at h
  unfold timedEntry
  by_cases hdict : isDict item.1 = true
  · rw [if_neg (not_not.2 hdict)] at h
    obtain ⟨started, hstarted, rfl⟩ := Option.map_eq_some_iff.1 h
    rw [if_pos hdict, hstarted]
    cases started with
    | none => exact (List.append_nil _).symm
    | some startedAt => rfl
  · rw [if_pos hdict] at h
    cases h
    rw [if_neg hdict]
    exact (List.append_nil _).symm

theorem read_cohort {interval : String} : ∀ {items : List (Value × Nat)} {reading reading' : Reading},
    items.foldlM (readRow py interval) reading = some reading' →
      reading'.cohort = reading.cohort ++ items.filterMap (timedEntry py interval)
  | [], reading, reading', h => by
    cases h
    exact (List.append_nil _).symm
  | item :: items, reading, reading', h => by
    rw [List.foldlM_cons] at h
    obtain ⟨next, hnext, hrest⟩ := Option.bind_eq_some_iff.1 h
    rw [read_cohort hrest, readRow_cohort hnext, List.append_assoc, List.filterMap_cons]
    cases timedEntry py interval item <;> rfl

/-- The tokens that were seen are those of the entries so far. -/
def Distinct.Seen (py : Reader) (done : List Entry) (d : Distinct) : Prop :=
  ∀ group, group ∈ d.seenMints ↔ group ≠ "" ∧ ∃ entry ∈ done, groupOf py entry.row = group

theorem Distinct.Seen.take {done : List Entry} {d : Distinct} (h : d.Seen py done) (entry : Entry) :
    (d.take py entry).Seen py (done ++ [entry]) := by
  intro group
  have hsnoc : (∃ entry' ∈ done ++ [entry], groupOf py entry'.row = group) ↔
      (∃ entry' ∈ done, groupOf py entry'.row = group) ∨ groupOf py entry.row = group := by
    simp only [List.mem_append, List.mem_singleton, or_and_right, exists_or, exists_eq_left]
  rw [hsnoc]
  unfold Distinct.take
  dsimp only
  split_ifs with hempty hseen
  · rw [h group, hempty]
    constructor
    · rintro ⟨hne, hdone⟩
      exact ⟨hne, Or.inl hdone⟩
    · rintro ⟨hne, hdone | rfl⟩
      · exact ⟨hne, hdone⟩
      · exact absurd rfl hne
  · rw [h group]
    constructor
    · rintro ⟨hne, hdone⟩
      exact ⟨hne, Or.inl hdone⟩
    · rintro ⟨hne, hdone | rfl⟩
      · exact ⟨hne, hdone⟩
      · exact (h _).1 hseen
  · rw [List.mem_cons, h group]
    constructor
    · rintro (rfl | ⟨hne, hdone⟩)
      · exact ⟨hempty, Or.inr rfl⟩
      · exact ⟨hne, Or.inl hdone⟩
    · rintro ⟨hne, hdone | rfl⟩
      · exact Or.inr ⟨hne, hdone⟩
      · exact Or.inl rfl

/-- The entries that are taken are the first ones of their tokens. -/
theorem take_eligible : ∀ (rest : List Entry) {done : List Entry} {d : Distinct}, d.Seen py done →
    (done ++ rest).Pairwise (fun a b => a.sortKey < b.sortKey) →
      (rest.foldl (Distinct.take py) d).eligible = d.eligible ++ rest.filter (First py (done ++ rest))
  | [], _, d, _, _ => (List.append_nil d.eligible).symm
  | entry :: rest, done, d, hseen, hsorted => by
    have hsplit : done ++ entry :: rest = (done ++ [entry]) ++ rest := by rw [List.append_assoc, List.singleton_append]
    have ih := take_eligible rest (hseen.take entry) (hsplit ▸ hsorted)
    rw [List.foldl_cons, ih, ← hsplit, List.filter_cons]
    obtain ⟨-, hrest, hbefore⟩ := List.pairwise_append.1 hsorted
    -- the entry is the first one of its token when no entry before it has the token
    have hfirst : First py (done ++ entry :: rest) entry ↔
        groupOf py entry.row ≠ "" ∧ groupOf py entry.row ∉ d.seenMints := by
      unfold First
      rw [hseen]
      constructor
      · rintro ⟨hne, hall⟩
        refine ⟨hne, ?_⟩
        rintro ⟨-, other, hother, hgroup⟩
        have hlt := hbefore other hother entry List.mem_cons_self
        exact absurd (hall other (List.mem_append_left _ hother) hgroup) (not_le.2 hlt)
      · rintro ⟨hne, hnot⟩
        refine ⟨hne, fun other hother hgroup => ?_⟩
        rcases List.mem_append.1 hother with hother | hother
        · exact absurd ⟨hne, other, hother, hgroup⟩ hnot
        · rcases List.mem_cons.1 hother with rfl | hother
          · exact le_rfl
          · exact ((List.pairwise_cons.1 hrest).1 other hother).le
    unfold Distinct.take
    dsimp only
    by_cases hempty : groupOf py entry.row = ""
    · have hnot : ¬ First py (done ++ entry :: rest) entry := fun h => (hfirst.1 h).1 hempty
      rw [if_pos hempty, if_neg (by simpa using hnot)]
    rw [if_neg hempty]
    by_cases hmem : groupOf py entry.row ∈ d.seenMints
    · have hnot : ¬ First py (done ++ entry :: rest) entry := fun h => (hfirst.1 h).2 hmem
      rw [if_pos hmem, if_neg (by simpa using hnot)]
    · rw [if_neg hmem, if_pos (decide_eq_true (hfirst.2 ⟨hempty, hmem⟩)), List.append_assoc, List.singleton_append]

/-- The places of the entries are different. -/
theorem timed_index (rows : List Value) : (timed py settings rows).Pairwise fun a b => a.index ≠ b.index := by
  unfold timed
  rw [List.pairwise_filterMap]
  have hnodup : ((lastN settings.maxRows rows).zipIdx.map Prod.snd).Nodup := by
    rw [List.zipIdx_map_snd]
    exact List.nodup_range'
  refine (List.pairwise_map.1 hnodup).imp fun {item item'} hne entry hentry entry' hentry' => ?_
  have hindex : ∀ {item entry}, timedEntry py settings.outcomeInterval item = some entry → entry.index = item.2 := by
    intro item entry h
    unfold timedEntry at h
    split_ifs at h
    obtain ⟨startedAt, -, rfl⟩ := Option.map_eq_some_iff.1 h
    rfl
  rw [hindex hentry, hindex hentry']
  exact hne

theorem sorted_timed (rows : List Value) :
    (Cut.sort Entry.sortKey (timed py settings rows)).Pairwise fun a b => a.sortKey < b.sortKey := by
  have hperm : (Cut.sort Entry.sortKey (timed py settings rows)).Perm (timed py settings rows) := Cut.sort_perm _
  have hindex : (Cut.sort Entry.sortKey (timed py settings rows)).Pairwise fun a b => a.index ≠ b.index :=
    (hperm.pairwise_iff fun {_ _} h => Ne.symm h).2 (timed_index rows)
  refine ((Cut.ascending_sort Entry.sortKey _).and hindex).imp fun {a b} h => ?_
  obtain ⟨hle, hne⟩ := h
  refine lt_of_le_of_ne hle fun heq => hne ?_
  unfold Entry.sortKey at heq
  exact congrArg (fun key => (ofLex key).2) heq

/-- What is judged are the first rows of their tokens. -/
theorem eligible_of_cohortOf {rows : List Value} {reading : Reading} {distinct : Distinct}
    (h : cohortOf py settings rows = some (reading, distinct)) : distinct.eligible = judged py settings rows := by
  unfold cohortOf at h
  obtain ⟨reading', hread, hpair⟩ := Option.map_eq_some_iff.1 h
  obtain ⟨rfl, rfl⟩ := Prod.mk.inj hpair
  have hcohort : reading'.cohort = timed py settings rows := read_cohort hread
  have hnone : Distinct.Seen py [] ⟨[], [], 0, 0⟩ := fun group => by simp
  have htake := take_eligible (Cut.sort Entry.sortKey (timed py settings rows)) hnone (sorted_timed rows)
  rw [hcohort, htake]
  unfold judged
  dsimp only
  rw [List.nil_append, List.nil_append, ← Cut.filter_sort]
  refine List.filter_congr fun entry _ => decide_eq_decide.2 ?_
  unfold First
  simp only [Cut.mem_sort]

end Cohort

/-! ## When a reading comes about -/

/-- No time of a row is of a kind that raises. -/
def TimesReadable (py : Reader) (rows : List Value) : Prop :=
  ∀ row ∈ rows, isDict row = true → (startedAtEpoch py row).isSome = true

theorem readRow_isSome {interval : String} {reading : Reading} {item : Value × Nat} :
    (readRow py interval reading item).isSome = true ↔
      (isDict item.1 = true → (startedAtEpoch py item.1).isSome = true) := by
  unfold readRow
  by_cases hdict : isDict item.1 = true
  · rw [if_neg (not_not.2 hdict), Option.isSome_map]
    simp [hdict]
  · simp [hdict]

theorem read_isSome {interval : String} : ∀ {items : List (Value × Nat)} {reading : Reading},
    (items.foldlM (readRow py interval) reading).isSome = true ↔ TimesReadable py (items.map Prod.fst)
  | [], reading => by
    constructor
    · intro _ row hrow
      cases hrow
    · exact fun _ => rfl
  | item :: items, reading => by
    have hfirst : (readRow py interval reading item).isSome = true ↔
        (isDict item.1 = true → (startedAtEpoch py item.1).isSome = true) := readRow_isSome
    unfold TimesReadable
    rw [List.foldlM_cons, List.map_cons, List.forall_mem_cons, ← hfirst]
    cases hnext : readRow py interval reading item with
    | none => simp
    | some next =>
      have ih : (items.foldlM (readRow py interval) next).isSome = true ↔ TimesReadable py (items.map Prod.fst) :=
        read_isSome
      unfold TimesReadable at ih
      show (items.foldlM (readRow py interval) next).isSome = true ↔ _
      rw [ih]
      simp

/-! ## When an analysis comes about -/

/-- No sum that the metrics of some outcomes need overflows. -/
def Summable (fl : Arithmetic F) (outcomes : List (Option Double)) : Prop :=
  let ordered := ((outcomes.filterMap id).map fl.ofDouble).mergeSort fl.le
  let winning := ordered.filter (fl.lt (fl.ofNat 0) ·)
  let losing := ordered.filter (fl.lt · (fl.ofNat 0))
  (fl.fsum winning).isSome = true ∧ (fl.fsum losing).isSome = true ∧ (stableMean fl ordered).isSome = true ∧
    (stableMean fl winning).isSome = true ∧ (stableMean fl losing).isSome = true

/-- No sum over the returns of a cohort overflows: of the rows to train on and of those to hold out, of all of
them and of the ones that meet a condition. -/
def SumsFit (fl : Arithmetic F) (py : Reader) (settings : Settings) (cohort : List Entry) : Prop :=
  ∀ part ∈ [cohort.take (splitIndex settings cohort), cohort.drop (splitIndex settings cohort)],
    Summable fl (part.map Entry.outcome) ∧ ∀ key ∈ allKeys py cohort, Summable fl (outcomesOf py part key)

theorem sideOf_isSome {outcomes : List (Option Double)} :
    (sideOf fl settings outcomes).isSome = true ↔ Summable fl outcomes := by
  unfold sideOf Summable performanceMetrics
  dsimp only
  rw [Option.isSome_map]
  generalize ((outcomes.filterMap id).map fl.ofDouble).mergeSort fl.le = ordered
  cases fl.fsum (ordered.filter (fl.lt (fl.ofNat 0) ·)) with
  | none => simp
  | some grossProfit =>
    cases fl.fsum (ordered.filter (fl.lt · (fl.ofNat 0))) with
    | none => simp
    | some grossLoss =>
      cases stableMean fl ordered with
      | none => simp
      | some mean =>
        cases stableMean fl (ordered.filter (fl.lt (fl.ofNat 0) ·)) with
        | none => simp
        | some averageWin => cases stableMean fl (ordered.filter (fl.lt · (fl.ofNat 0))) <;> simp

theorem comparison_isSome {trainReturns holdoutReturns : List (Option Double)} :
    (comparison fl settings trainReturns holdoutReturns).isSome = true ↔
      Summable fl trainReturns ∧ Summable fl holdoutReturns := by
  have hside : ∀ outcomes : List (Option Double), Summable fl outcomes ↔ (sideOf fl settings outcomes).isSome = true :=
    fun _ => sideOf_isSome.symm
  rw [hside, hside]
  unfold comparison
  cases sideOf fl settings trainReturns with
  | none => simp
  | some train =>
    cases sideOf fl settings holdoutReturns with
    | none => simp
    | some holdout => simp

theorem cohortOf_isSome {rows : List Value} :
    (cohortOf py settings rows).isSome = true ↔ TimesReadable py (lastN settings.maxRows rows) := by
  unfold cohortOf
  rw [Option.isSome_map, read_isSome, List.zipIdx_map_fst]

theorem build_isSome {rows : List Value} : (buildObservationAnalysis fl py settings rows).isSome = true ↔
    TimesReadable py (lastN settings.maxRows rows) ∧ SumsFit fl py settings (judged py settings rows) := by
  rw [← cohortOf_isSome]
  unfold buildObservationAnalysis SumsFit
  cases hcohort : cohortOf py settings rows with
  | none => simp
  | some found =>
    obtain ⟨reading, distinct⟩ := found
    rw [← eligible_of_cohortOf hcohort]
    simp only [List.mem_cons, List.not_mem_nil, or_false, forall_eq_or_imp, forall_eq, Option.isSome_some, true_and,
      Option.bind_eq_bind, Option.bind_some]
    generalize distinct.eligible.take (splitIndex settings distinct.eligible) = train
    generalize distinct.eligible.drop (splitIndex settings distinct.eligible) = holdout
    have hoverall : (comparison fl settings (train.map Entry.outcome) (holdout.map Entry.outcome)).isSome = true ↔
        Summable fl (train.map Entry.outcome) ∧ Summable fl (holdout.map Entry.outcome) := comparison_isSome
    have hconditions : ((allKeys py distinct.eligible).mapM fun key =>
        (comparison fl settings (outcomesOf py train key) (outcomesOf py holdout key)).map fun compared =>
          (key, compared)).isSome = true ↔ ∀ key ∈ allKeys py distinct.eligible,
            Summable fl (outcomesOf py train key) ∧ Summable fl (outcomesOf py holdout key) := by
      rw [mapM_isSome]
      simp only [Option.isSome_map, comparison_isSome]
    have hkeys : ((Summable fl (train.map Entry.outcome) ∧
          ∀ key ∈ allKeys py distinct.eligible, Summable fl (outcomesOf py train key)) ∧
        Summable fl (holdout.map Entry.outcome) ∧
          ∀ key ∈ allKeys py distinct.eligible, Summable fl (outcomesOf py holdout key)) ↔
        (Summable fl (train.map Entry.outcome) ∧ Summable fl (holdout.map Entry.outcome)) ∧
          ∀ key ∈ allKeys py distinct.eligible,
            Summable fl (outcomesOf py train key) ∧ Summable fl (outcomesOf py holdout key) := by
      constructor
      · rintro ⟨⟨htrain, htrainKeys⟩, hholdout, hholdoutKeys⟩
        exact ⟨⟨htrain, hholdout⟩, fun key hkey => ⟨htrainKeys key hkey, hholdoutKeys key hkey⟩⟩
      · rintro ⟨⟨htrain, hholdout⟩, hall⟩
        exact ⟨⟨htrain, fun key hkey => (hall key hkey).1⟩, hholdout, fun key hkey => (hall key hkey).2⟩
    rw [hkeys, ← hoverall, ← hconditions]
    cases comparison fl settings (train.map Entry.outcome) (holdout.map Entry.outcome) with
    | none => simp
    | some overall =>
      cases (allKeys py distinct.eligible).mapM fun key =>
        (comparison fl settings (outcomesOf py train key) (outcomesOf py holdout key)).map fun compared =>
          (key, compared) with
      | none => simp
      | some conditions => simp

/-- The parts of an analysis that comes about. -/
theorem parts_of_build {rows : List Value} {analysis : Analysis F}
    (h : buildObservationAnalysis fl py settings rows = some analysis) :
    ∃ reading distinct, cohortOf py settings rows = some (reading, distinct) ∧
      analysis.eligible = distinct.eligible ∧
      analysis.train = distinct.eligible.take (splitIndex settings distinct.eligible) ∧
      analysis.holdout = distinct.eligible.drop (splitIndex settings distinct.eligible) ∧
      analysis.conditions.map Prod.fst = allKeys py distinct.eligible ∧
      analysis.excluded =
        ⟨rows.length - (lastN settings.maxRows rows).length, reading.invalidRows + distinct.invalidRows,
          reading.missingOutcomes, reading.missingTimestamps, distinct.duplicateMintRows⟩ := by
  unfold buildObservationAnalysis at h
  obtain ⟨⟨reading, distinct⟩, hcohort, h⟩ := Option.bind_eq_some_iff.1 h
  obtain ⟨overall, -, h⟩ := Option.bind_eq_some_iff.1 h
  obtain ⟨conditions, hconditions, h⟩ := Option.bind_eq_some_iff.1 h
  cases h
  refine ⟨reading, distinct, hcohort, rfl, rfl, rfl, ?_, rfl⟩
  exact map_fst_of_mapM hconditions

/-- Every row of the input is counted in one place. -/
theorem count_of_build {rows : List Value} {analysis : Analysis F}
    (h : buildObservationAnalysis fl py settings rows = some analysis) :
    analysis.excluded.outsideLatestWindow + analysis.excluded.invalidRow +
      analysis.excluded.missingOrInvalidTimestamp + analysis.excluded.duplicateMintObservation +
        analysis.eligible.length = rows.length := by
  obtain ⟨reading, distinct, hcohort, heligible, -, -, -, hexcluded⟩ := parts_of_build h
  unfold cohortOf at hcohort
  obtain ⟨reading', hread, hpair⟩ := Option.map_eq_some_iff.1 hcohort
  obtain ⟨rfl, rfl⟩ := Prod.mk.inj hpair
  have hreading := read_count hread
  have hdistinct : ((Cut.sort Entry.sortKey reading'.cohort).foldl (Distinct.take py) ⟨[], [], 0, 0⟩).count = _ :=
    distinct_count _ _
  have hbounded := length_lastN settings.maxRows rows
  rw [List.length_zipIdx] at hreading
  rw [Cut.length_sort] at hdistinct
  rw [hexcluded, heligible]
  unfold Reading.count at hreading
  unfold Distinct.count at hdistinct
  dsimp only at hreading hdistinct ⊢
  rw [List.length_nil] at hreading hdistinct
  omega

/-! ## Rows that differ in their samples -/

section Alike

/-- The rows have the same fields, but for their samples. -/
def Alike (row row' : Value) : Prop :=
  isDict row = isDict row' ∧ ∀ key, key ≠ "samples" → row.get key = row'.get key

theorem startedAtEpoch_alike {row row' : Value} (h : Alike row row') :
    startedAtEpoch py row = startedAtEpoch py row' := by
  unfold startedAtEpoch
  rw [h.2 "started_at_epoch" (by decide), h.2 "started_at" (by decide)]

theorem groupOf_alike {row row' : Value} (h : Alike row row') : groupOf py row = groupOf py row' := by
  unfold groupOf
  rw [h.2 "mint" (by decide), h.2 "observation_id" (by decide)]

theorem nestedValue_alike {row row' : Value} (h : Alike row row') {part : String} (hpart : part ≠ "samples")
    (path : List String) : nestedValue row (part :: path) = nestedValue row' (part :: path) := by
  have hget := h.2 part hpart
  have hdict := h.1
  cases row <;> cases row' <;> first
    | rfl
    | exact congrArg (fun value => nestedValue value path) hget
    | cases hdict

theorem numericSpecs_paths : ∀ spec ∈ numericSpecs, ∃ part path, spec.2.1 = part :: path ∧ part ≠ "samples" := by
  intro spec hspec
  have hall : numericSpecs.all (fun spec => spec.2.1.head?.any (· ≠ "samples")) = true := by decide
  have hpart := List.all_eq_true.1 hall spec hspec
  cases hpath : spec.2.1 with
  | nil =>
    rw [hpath] at hpart
    cases hpart
  | cons part path =>
    rw [hpath] at hpart
    exact ⟨part, path, rfl, by simpa using hpart⟩

theorem conditionKeys_alike {row row' : Value} (h : Alike row row') : conditionKeys py row = conditionKeys py row' := by
  have hnumbers : ∀ spec ∈ numericSpecs,
      conditionNumber py row spec.1 spec.2.1 = conditionNumber py row' spec.1 spec.2.1 := by
    intro spec hspec
    obtain ⟨part, path, hpath, hpart⟩ := numericSpecs_paths spec hspec
    unfold conditionNumber
    rw [hpath, nestedValue_alike h hpart]
  have hreasons : decisionReasons py row = decisionReasons py row' := by
    unfold decisionReasons
    rw [h.2 "decision_reasons" (by decide)]
  unfold conditionKeys
  rw [h.2 "route_type" (by decide), h.2 "decision_status" (by decide), h.2 "candidate_v2_eligible" (by decide),
    h.2 "paper_experiment_status" (by decide), hreasons]
  congr 1
  refine List.filterMap_congr fun spec hspec => ?_
  rw [hnumbers spec hspec]

theorem isDict_withField (row : Value) (key : String) (value : Value) :
    isDict (withField row key value) = isDict row := by
  cases row with
  | dict items =>
    unfold withField
    dsimp only
    split_ifs <;> rfl
  | _ => rfl

theorem get_withField_of_ne {key key' : String} (h : key' ≠ key) (row value : Value) :
    (withField row key value).get key' = row.get key' := by
  cases row with
  | dict items =>
    unfold withField
    dsimp only
    split_ifs
    · exact Value.get_replaced_of_ne h
    · exact Value.get_added_of_ne h
  | _ => rfl

theorem get_withField {row : Value} (h : isDict row = true) (key : String) (value : Value) :
    (withField row key value).get key = value := by
  cases row with
  | dict items =>
    unfold withField
    dsimp only
    split_ifs with hany
    · exact Value.get_replaced hany
    · exact Value.get_added hany
  | _ => cases h

end Alike

/-! ## Strategies -/

section Strategies

variable {strategyName : String}

/-- A row has a dictionary for every strategy, or nothing: no value, an empty text, a zero. -/
def ResultsReadable (rows : List Value) : Prop :=
  ∀ strategyName ∈ shadowStrategyNames, ∀ row ∈ rows, isDict row = true →
    isDict (strategyResult row strategyName) = true ∨ (strategyResult row strategyName).truthy = false

variable (py) in
/-- What a strategy returned on a row. -/
def strategyReturn (strategyName : String) (row : Value) : Option Double :=
  signedNumber py.toTexts ((strategyResult row strategyName).get "return_percent")

variable (py) in
/-- The row, with the return of a strategy as its sample. -/
def adapted (strategyName : String) (row : Value) : Value := (adapt py strategyName row).getD row

variable (py) in
/-- The entry, with the return of a strategy as its outcome. -/
def Entry.under (strategyName : String) (entry : Entry) : Entry :=
  { entry with row := adapted py strategyName entry.row, outcome := strategyReturn py strategyName entry.row }

theorem missingStatus_isSome {result : Value} :
    (missingStatus py result).isSome = true ↔ isDict result = true ∨ result.truthy = false := by
  cases result with
  | dict items => exact ⟨fun _ => Or.inl rfl, fun _ => rfl⟩
  | _ =>
    unfold missingStatus isDict
    dsimp only
    split_ifs with htruthy <;> simp [htruthy]

theorem get_of_not_isDict {value : Value} (h : ¬ isDict value = true) (key : String) : value.get key = .none := by
  cases value with
  | dict items => exact absurd rfl h
  | _ => rfl

theorem adapt_isSome {row : Value} : (adapt py strategyName row).isSome = true ↔ (isDict row = true →
    isDict (strategyResult row strategyName) = true ∨ (strategyResult row strategyName).truthy = false) := by
  unfold adapt
  by_cases hdict : isDict row = true
  · rw [if_neg (not_not.2 hdict)]
    dsimp only
    rw [Option.isSome_map]
    by_cases hresult : isDict (strategyResult row strategyName) = true
    · split_ifs with hnone
      · rw [Option.isSome_map, missingStatus_isSome]
        exact ⟨fun h _ => h, fun h => h hdict⟩
      · simp [hresult]
    · rw [get_of_not_isDict hresult, show Value.none.isNone = true from rfl, if_pos rfl, Option.isSome_map,
        missingStatus_isSome]
      exact ⟨fun h _ => h, fun h => h hdict⟩
  · rw [if_pos hdict]
    simp [hdict]

theorem alike_of_adapt {row row' : Value} (h : adapt py strategyName row = some row') : Alike row' row := by
  unfold adapt at h
  by_cases hdict : isDict row = true
  · rw [if_neg (not_not.2 hdict)] at h
    obtain ⟨error, -, rfl⟩ := Option.map_eq_some_iff.1 h
    exact ⟨isDict_withField _ _ _, fun key hkey => get_withField_of_ne hkey _ _⟩
  · rw [if_pos hdict] at h
    cases h
    exact ⟨rfl, fun _ _ => rfl⟩

theorem alike_adapted (row : Value) : Alike (adapted py strategyName row) row := by
  unfold adapted
  cases hrow : adapt py strategyName row with
  | none => exact ⟨rfl, fun _ _ => rfl⟩
  | some row' => exact alike_of_adapt hrow

/-- The outcome of the adapted row is what the strategy returned. -/
theorem intervalReturn_adapted {row : Value} (hdict : isDict row = true)
    (h : (adapt py strategyName row).isSome = true) :
    intervalReturn py (adapted py strategyName row) "15m" = strategyReturn py strategyName row := by
  obtain ⟨row', hrow'⟩ := Option.isSome_iff_exists.1 h
  unfold adapted strategyReturn
  rw [hrow', Option.getD_some]
  unfold adapt at hrow'
  rw [if_neg (not_not.2 hdict)] at hrow'
  obtain ⟨error, -, rfl⟩ := Option.map_eq_some_iff.1 hrow'
  unfold intervalReturn
  rw [get_withField hdict]
  have htext : py.text (.str "15m") = "15m" := py.text_str "15m"
  simp [isDict, Value.ofItems, Value.get, Value.truthy, htext]

/-- What the rows are adapted to, where that does not raise. -/
theorem adapted_of_mapM {rows rows' : List Value} (h : rows.mapM (adapt py strategyName) = some rows') :
    rows' = rows.map (adapted py strategyName) := by
  have hget : rows'.map some = rows.map (adapt py strategyName) := (mapM_eq_some h).symm
  refine (List.map_inj_right fun _ _ => Option.some.inj).1 (hget.trans ?_)
  rw [List.map_map]
  refine List.map_congr_left fun row hrow => ?_
  have hsome : (adapt py strategyName row).isSome = true :=
    mapM_isSome.1 (by rw [h]; rfl : (rows.mapM (adapt py strategyName)).isSome = true) row hrow
  obtain ⟨row', hrow'⟩ := Option.isSome_iff_exists.1 hsome
  rw [Function.comp_apply, adapted, hrow', Option.getD_some]

theorem times_adapted {n : Nat} {rows : List Value} :
    TimesReadable py (lastN n (rows.map (adapted py strategyName))) ↔ TimesReadable py (lastN n rows) := by
  unfold TimesReadable
  rw [lastN_map, List.forall_mem_map]
  refine forall₂_congr fun row _ => ?_
  have halike : Alike (adapted py strategyName row) row := alike_adapted row
  rw [halike.1, startedAtEpoch_alike halike]

/-- The entry of the adapted row is the entry of the row, for the strategy. -/
theorem timedEntry_adapted {row : Value} {index : Nat} (h : (adapt py strategyName row).isSome = true) :
    timedEntry py "15m" (adapted py strategyName row, index) =
      (timedEntry py "15m" (row, index)).map (Entry.under py strategyName) := by
  have halike : Alike (adapted py strategyName row) row := alike_adapted row
  unfold timedEntry
  dsimp only
  rw [halike.1, startedAtEpoch_alike halike]
  by_cases hdict : isDict row = true
  · rw [if_pos hdict, if_pos hdict, intervalReturn_adapted hdict h, Option.map_map]
    rfl
  · rw [if_neg hdict, if_neg hdict]
    rfl

theorem timed_adapted {rows : List Value} (hinterval : settings.outcomeInterval = "15m")
    (h : ∀ row ∈ rows, (adapt py strategyName row).isSome = true) :
    timed py settings (rows.map (adapted py strategyName)) =
      (timed py settings rows).map (Entry.under py strategyName) := by
  unfold timed
  rw [lastN_map, List.zipIdx_map, List.filterMap_map, List.map_filterMap, hinterval]
  refine List.filterMap_congr fun item hitem => ?_
  have hmem : item.1 ∈ lastN settings.maxRows rows := List.fst_mem_of_mem_zipIdx hitem
  exact timedEntry_adapted (h item.1 (List.mem_of_mem_drop hmem))

theorem first_under {entries : List Entry} {entry : Entry} :
    First py (entries.map (Entry.under py strategyName)) (entry.under py strategyName) ↔ First py entries entry := by
  have hgroup : ∀ entry : Entry, groupOf py (entry.under py strategyName).row = groupOf py entry.row := fun entry =>
    groupOf_alike (alike_adapted entry.row)
  unfold First
  rw [List.forall_mem_map, hgroup]
  simp only [hgroup]
  exact Iff.rfl

/-- What is judged for a strategy is what is judged, with the returns of the strategy. -/
theorem judged_adapted {rows : List Value} (hinterval : settings.outcomeInterval = "15m")
    (h : ∀ row ∈ rows, (adapt py strategyName row).isSome = true) :
    judged py settings (rows.map (adapted py strategyName)) =
      (judged py settings rows).map (Entry.under py strategyName) := by
  have hkey : ∀ entry : Entry, (entry.under py strategyName).sortKey = entry.sortKey := fun _ => rfl
  unfold judged
  rw [timed_adapted hinterval h, Cut.map_sort hkey, List.filter_map]
  refine congrArg (fun entries : List Entry => Cut.sort Entry.sortKey (entries.map (Entry.under py strategyName))) ?_
  refine List.filter_congr fun entry _ => decide_eq_decide.2 ?_
  exact first_under

theorem allKeys_under (entries : List Entry) :
    allKeys py (entries.map (Entry.under py strategyName)) = allKeys py entries := by
  unfold allKeys
  rw [List.flatMap_map]
  refine congrArg (fun keys : List (String × String) => keys.dedup.mergeSort fun key key' => toLex key ≤ toLex key') ?_
  refine List.flatMap_congr fun entry _ => ?_
  exact conditionKeys_alike (alike_adapted entry.row)

theorem splitIndex_map (f : Entry → Entry) (entries : List Entry) :
    splitIndex settings (entries.map f) = splitIndex settings entries := by
  unfold splitIndex
  rw [List.length_map]

end Strategies

/-! ## The results -/

/-- Every row of the input is outside of the window, invalid, without a time, of a token that was there
before, or in the cohort. -/
def Counted (rows : List Value) (analysis : Analysis F) : Prop :=
  analysis.excluded.outsideLatestWindow + analysis.excluded.invalidRow +
    analysis.excluded.missingOrInvalidTimestamp + analysis.excluded.duplicateMintObservation +
      (analysis.train.length + analysis.holdout.length) = rows.length

/-- Each strategy has its analysis, on the rows that are judged, divided where they are divided. -/
structure Paired (py : Reader) (settings : Settings) (rows : List Value)
    (comparisons : List (String × Analysis F)) : Prop where
  strategies : comparisons.map Prod.fst = shadowStrategyNames
  train : ∀ c ∈ comparisons, c.2.train =
    ((judged py settings rows).take (splitIndex settings (judged py settings rows))).map (Entry.under py c.1)
  holdout : ∀ c ∈ comparisons, c.2.holdout =
    ((judged py settings rows).drop (splitIndex settings (judged py settings rows))).map (Entry.under py c.1)
  conditions : ∀ c ∈ comparisons, c.2.conditions.map Prod.fst = allKeys py (judged py settings rows)
  counted : ∀ c ∈ comparisons, Counted rows c.2

section Results

variable {rows : List Value} {minimumSamples : { n : Nat // 1 ≤ n ∧ n ≤ 5000 }} {strategyName : String}

theorem counted_of_build {analysis : Analysis F} (h : buildObservationAnalysis fl py settings rows = some analysis) :
    Counted rows analysis := by
  obtain ⟨_, distinct, -, heligible, htrain, hholdout, -, -⟩ := parts_of_build h
  have hcount := count_of_build h
  have hlength := congrArg List.length
    (List.take_append_drop (splitIndex settings distinct.eligible) distinct.eligible)
  rw [List.length_append, ← htrain, ← hholdout, ← heligible] at hlength
  unfold Counted
  rw [hlength]
  exact hcount

variable (fl py minimumSamples rows) in
/-- The analysis of one strategy. -/
def strategyAnalysis (strategyName : String) : Option (Analysis F) :=
  (rows.mapM (adapt py strategyName)).bind (buildObservationAnalysis fl py (shadowSettings minimumSamples))

theorem comparisons_eq : buildShadowStrategyComparisons fl py minimumSamples rows =
    shadowStrategyNames.mapM fun strategyName =>
      (strategyAnalysis fl py rows minimumSamples strategyName).map fun analysis => (strategyName, analysis) := by
  unfold buildShadowStrategyComparisons
  refine congrArg (fun f => shadowStrategyNames.mapM f) (funext fun strategyName => ?_)
  unfold strategyAnalysis
  cases rows.mapM (adapt py strategyName) with
  | none => rfl
  | some rows' =>
    rw [Option.bind_some, Option.bind_eq_bind, Option.bind_some]
    cases buildObservationAnalysis fl py (shadowSettings minimumSamples) rows' <;> rfl

theorem strategyAnalysis_isSome : (strategyAnalysis fl py rows minimumSamples strategyName).isSome = true ↔
    (∀ row ∈ rows, (adapt py strategyName row).isSome = true) ∧ TimesReadable py (lastN 5000 rows) ∧
      SumsFit fl py (shadowSettings minimumSamples)
        ((judged py (shadowSettings minimumSamples) rows).map (Entry.under py strategyName)) := by
  rw [← mapM_isSome]
  unfold strategyAnalysis
  cases hrows : rows.mapM (adapt py strategyName) with
  | none => simp
  | some rows' =>
    have hall : ∀ row ∈ rows, (adapt py strategyName row).isSome = true := mapM_isSome.1 (by rw [hrows]; rfl)
    have hjudged : judged py (shadowSettings minimumSamples) rows' = _ :=
      adapted_of_mapM hrows ▸ judged_adapted rfl hall
    have htimes : TimesReadable py (lastN 5000 rows') ↔ TimesReadable py (lastN 5000 rows) :=
      adapted_of_mapM hrows ▸ times_adapted
    have hmaxRows : (shadowSettings minimumSamples).maxRows = 5000 := rfl
    rw [Option.bind_some, build_isSome, hjudged, hmaxRows, htimes]
    simp

theorem parts_of_strategyAnalysis {analysis : Analysis F}
    (h : strategyAnalysis fl py rows minimumSamples strategyName = some analysis) :
    let cohort := judged py (shadowSettings minimumSamples) rows
    analysis.train = (cohort.take (splitIndex (shadowSettings minimumSamples) cohort)).map
      (Entry.under py strategyName) ∧
      analysis.holdout =
        (cohort.drop (splitIndex (shadowSettings minimumSamples) cohort)).map (Entry.under py strategyName) ∧
      analysis.conditions.map Prod.fst = allKeys py cohort ∧ Counted rows analysis := by
  unfold strategyAnalysis at h
  obtain ⟨rows', hrows, hbuild⟩ := Option.bind_eq_some_iff.1 h
  have hall : ∀ row ∈ rows, (adapt py strategyName row).isSome = true := mapM_isSome.1 (by rw [hrows]; rfl)
  have hcounted := counted_of_build hbuild
  obtain ⟨reading, distinct, hcohort, -, htrain, hholdout, hconditions, -⟩ := parts_of_build hbuild
  rw [eligible_of_cohortOf hcohort, adapted_of_mapM hrows, judged_adapted rfl hall] at htrain hholdout hconditions
  rw [splitIndex_map] at htrain hholdout
  rw [← List.map_take] at htrain
  rw [← List.map_drop] at hholdout
  rw [allKeys_under] at hconditions
  refine ⟨htrain, hholdout, hconditions, ?_⟩
  unfold Counted at hcounted ⊢
  rw [hcounted, adapted_of_mapM hrows, List.length_map]

theorem paired_of_comparisons {comparisons : List (String × Analysis F)}
    (h : buildShadowStrategyComparisons fl py minimumSamples rows = some comparisons) :
    Paired py (shadowSettings minimumSamples) rows comparisons := by
  rw [comparisons_eq] at h
  have hparts : ∀ c ∈ comparisons, strategyAnalysis fl py rows minimumSamples c.1 = some c.2 := by
    intro c hc
    have hmem : some c ∈ comparisons.map some := List.mem_map_of_mem hc
    rw [← mapM_eq_some h] at hmem
    obtain ⟨strategyName, -, hname⟩ := List.mem_map.1 hmem
    obtain ⟨analysis, hanalysis, rfl⟩ := Option.map_eq_some_iff.1 hname
    exact hanalysis
  exact {
    strategies := map_fst_of_mapM h
    train := fun c hc => (parts_of_strategyAnalysis (hparts c hc)).1
    holdout := fun c hc => (parts_of_strategyAnalysis (hparts c hc)).2.1
    conditions := fun c hc => (parts_of_strategyAnalysis (hparts c hc)).2.2.1
    counted := fun c hc => (parts_of_strategyAnalysis (hparts c hc)).2.2.2 }

theorem comparisons_isSome : (buildShadowStrategyComparisons fl py minimumSamples rows).isSome = true ↔
    ResultsReadable rows ∧ TimesReadable py (lastN 5000 rows) ∧ ∀ strategyName ∈ shadowStrategyNames,
      SumsFit fl py (shadowSettings minimumSamples)
        ((judged py (shadowSettings minimumSamples) rows).map (Entry.under py strategyName)) := by
  rw [comparisons_eq, mapM_isSome]
  simp only [Option.isSome_map, strategyAnalysis_isSome]
  unfold ResultsReadable
  constructor
  · intro h
    refine ⟨fun name hname row hrow => adapt_isSome.1 ((h name hname).1 row hrow), ?_,
      fun name hname => (h name hname).2.2⟩
    exact (h "fixed_hold_1m" (by decide)).2.1
  · rintro ⟨hresults, htimes, hsums⟩ name hname
    exact ⟨fun row hrow => adapt_isSome.2 (hresults name hname row hrow), htimes, hsums name hname⟩

/-- An analysis comes about, with every row counted in one place, exactly when the times of its rows can be
read and no sum over its cohort overflows. The strategies are compared, on one cohort with one division,
exactly when the times and what the rows have for the strategies can be read, and no sum over the cohort
overflows for any strategy. -/
theorem comparisons_paired_iff (fl : Arithmetic F) (py : Reader) (settings : Settings)
    (minimumSamples : { n : Nat // 1 ≤ n ∧ n ≤ 5000 }) (rows : List Value) :
    ((∃ analysis, buildObservationAnalysis fl py settings rows = some analysis ∧ Counted rows analysis) ↔
      TimesReadable py (lastN settings.maxRows rows) ∧ SumsFit fl py settings (judged py settings rows)) ∧
    ((∃ comparisons, buildShadowStrategyComparisons fl py minimumSamples rows = some comparisons ∧
        Paired py (shadowSettings minimumSamples) rows comparisons) ↔
      ResultsReadable rows ∧ TimesReadable py (lastN 5000 rows) ∧ ∀ strategyName ∈ shadowStrategyNames,
        SumsFit fl py (shadowSettings minimumSamples)
          ((judged py (shadowSettings minimumSamples) rows).map (Entry.under py strategyName))) := by
  constructor
  · rw [← build_isSome, Option.isSome_iff_exists]
    constructor
    · rintro ⟨analysis, hbuild, -⟩
      exact ⟨analysis, hbuild⟩
    · rintro ⟨analysis, hbuild⟩
      exact ⟨analysis, hbuild, counted_of_build hbuild⟩
  · rw [← comparisons_isSome, Option.isSome_iff_exists]
    constructor
    · rintro ⟨comparisons, hbuild, -⟩
      exact ⟨comparisons, hbuild⟩
    · rintro ⟨comparisons, hbuild⟩
      exact ⟨comparisons, hbuild, paired_of_comparisons hbuild⟩

end Results

/-- A host that reads no text as a time. -/
def untimedTexts : Reader :=
  { firstDay with
    isoEpoch := fun _ => some none
    text_str := fun _ => rfl }

/-- A row with a text for a strategy. -/
def textResult : Value := .ofItems
  [("mint", .str "a"), ("started_at_epoch", .int 1), ("strategy_results", .ofItems [("fixed_hold_1m", .str "FILLED")])]

/-- A text has no `get`, and no strategy is compared. -/
theorem comparisons_textResult : ¬ ∃ comparisons,
    buildShadowStrategyComparisons exactArithmetic untimedTexts ⟨20, by decide⟩ [textResult] = some comparisons ∧
      Paired untimedTexts (shadowSettings ⟨20, by decide⟩) [textResult] comparisons := by
  rintro ⟨comparisons, hbuild, -⟩
  have hsome : (buildShadowStrategyComparisons exactArithmetic untimedTexts ⟨20, by decide⟩
      [textResult]).isSome = true := by
    rw [hbuild]
    rfl
  obtain ⟨hresults, -, -⟩ := comparisons_isSome.1 hsome
  rcases hresults "fixed_hold_1m" (by decide) textResult List.mem_cons_self rfl with hdict | hfalsy
  · cases hdict
  · revert hfalsy
    decide

end Aibot.Research.Comparison
