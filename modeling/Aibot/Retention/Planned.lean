/-
What a plan says: a backup is safe to delete exactly if the marker state is valid, the backup
validates, its revision is neither the deployed nor the active one, and at least `keep` valid backups
have a greater name.
-/
import Aibot.Lib.Listing
import Aibot.Lib.Object
import Aibot.Retention.Plan

namespace Aibot.Retention

/-! ## What the words mean -/

namespace Reader

variable {γ : Type} (R : Reader γ)

/-- The revision as which an entry validates under its name. -/
def validatedAs (name : String) (entry : Entry γ) : Option Sha :=
  match R.exactName name, entry with
  | some short, .directory content => (R.validateBackup content short).toOption.map (·.1)
  | _, _ => none

/-- The revision of the validated backup of a name. -/
def revisionOf (root : Root γ) (name : String) : Option Sha := (root.get? name).bind (R.validatedAs name)

/-- The names of the validated backups, the newest first. -/
def validNames (root : Root γ) : List String :=
  (root.entries.reverse.filter fun e => (R.validatedAs e.1 e.2).isSome).map Prod.fst

/-- A validated backup with fewer than `keep` newer ones. -/
def IsNewest (keep : Nat) (root : Root γ) (name : String) : Prop :=
  name ∈ R.validNames root ∧ ((R.validNames root).filter (name < ·)).length < keep

/-- A valid marker state: every `latest-` entry is a marker of a validated backup of its revision, and
the deployed and the active revision have one. -/
structure MarkersValid (s : Settings) (root : Root γ) : Prop where
  pointed : ∀ name entry, root.get? name = some entry → (after "latest-" name).isSome →
    ∃ sha target, markerPattern name = some sha ∧ R.markerTarget root sha entry = .ok target ∧
      R.revisionOf root target = some sha
  required : ∀ sha ∈ [s.deployed, s.active], ∃ name entry, root.get? name = some entry ∧
    markerPattern name = some sha

/-- A validated backup that nothing protects, under a valid marker state. -/
structure Deletable (s : Settings) (root : Root γ) (name : String) (sha : Sha) : Prop where
  validated : R.revisionOf root name = some sha
  not_deployed : sha ≠ s.deployed
  not_active : sha ≠ s.active
  not_newest : ¬ R.IsNewest s.keep root name
  markers : R.MarkersValid s root

end Reader

/-! ## The listing -/

namespace Root

variable {γ : Type} {root : Root γ}

theorem get?_eq_some {name : String} {entry : Entry γ} :
    root.get? name = some entry ↔ (name, entry) ∈ root.entries := Dict.get?_eq_some

@[simp] theorem get?_remove (root : Root γ) (name other : String) :
    (root.remove name).get? other = if other = name then none else root.get? other :=
  Dict.get?_erase root.toDict name other

/-- The entries that a plan has a record of. -/
def named (root : Root γ) : List (String × Entry γ) :=
  root.entries.reverse.filter fun e => (after "predeploy-" e.1).isSome

theorem decreasing (root : Root γ) : (root.entries.reverse.map Prod.fst).Pairwise (· > ·) := by
  rw [List.map_reverse, List.pairwise_reverse]
  exact root.sorted

theorem boundedChildren_ok {limit : Nat} {reason : String} {children : List (String × Entry γ)}
    (h : root.boundedChildren limit reason = .ok children) : children = root.entries := by
  unfold boundedChildren at h
  split at h
  · cases h
  · exact (Except.ok.inj h).symm

end Root

theorem isSome_after_of_bind {α : Type} {start name : String} {f : List Char → Option α}
    (h : ((after start name).bind f).isSome = true) : (after start name).isSome = true := by
  cases hafter : after start name with
  | none => rw [hafter] at h; cases h
  | some rest => rfl

namespace Reader

variable {γ : Type} {R : Reader γ} {root : Root γ}

theorem isSome_after_of_exactName {name : String} (h : (R.exactName name).isSome = true) :
    (after "predeploy-" name).isSome = true := by
  unfold exactName at h
  cases hpattern : R.backupPattern name with
  | none => rw [hpattern] at h; cases h
  | some m => exact isSome_after_of_bind (f := _) (by rw [← backupPattern, hpattern]; rfl)

theorem isSome_after_of_validatedAs {name : String} {entry : Entry γ} {sha : Sha}
    (h : R.validatedAs name entry = some sha) : (after "predeploy-" name).isSome = true := by
  apply isSome_after_of_exactName (R := R)
  unfold validatedAs at h
  cases hname : R.exactName name with
  | none => rw [hname] at h; cases h
  | some short => rfl

theorem mem_validNames {name : String} : name ∈ R.validNames root ↔ (R.revisionOf root name).isSome = true := by
  simp only [validNames, List.mem_map, List.mem_filter, List.mem_reverse, revisionOf]
  constructor
  · rintro ⟨⟨n, entry⟩, ⟨hmem, hvalid⟩, rfl⟩
    rw [Root.get?_eq_some.2 hmem]
    exact hvalid
  · intro h
    cases hget : root.get? name with
    | none => rw [hget] at h; cases h
    | some entry =>
      rw [hget] at h
      exact ⟨(name, entry), ⟨Root.get?_eq_some.1 hget, h⟩, rfl⟩

theorem validNames_decreasing (R : Reader γ) (root : Root γ) : (R.validNames root).Pairwise (· > ·) :=
  root.decreasing.sublist (List.filter_sublist.map _)

/-- The backup is among the first `keep` of the listing. -/
theorem mem_take_validNames {keep : Nat} {name : String} :
    name ∈ (R.validNames root).take keep ↔ R.IsNewest keep root name :=
  mem_take_iff_of_decreasing (R.validNames_decreasing root)

theorem backupPattern_stamp {name : String} {stamp short : List Char}
    (h : R.backupPattern name = some (stamp, short)) :
    stamp.length = 16 ∧ ∃ rest, name.toList = "predeploy-".toList ++ (stamp ++ rest) := by
  unfold backupPattern after at h
  split at h
  · rename_i hprefix
    simp only [Option.bind_some] at h
    split at h
    · rename_i hmatch
      obtain ⟨rfl, rfl⟩ := Prod.mk.inj (Option.some.inj h)
      simp only [isStamp, Bool.and_eq_true] at hmatch
      obtain ⟨rest, hrest⟩ := List.isPrefixOf_iff_prefix.1 hprefix
      refine ⟨by simpa using hmatch.1.1.1.1.1.1.1, rest.drop 16, ?_⟩
      rw [← hrest, List.drop_left, List.take_append_drop]
    · cases h
  · cases h

/-- The names of backups are in the order of their stamps: the greater name is the newer backup. -/
theorem lt_of_stamp_lt {older newer : String} {stamp stamp' short short' : List Char}
    (h : R.backupPattern older = some (stamp, short)) (h' : R.backupPattern newer = some (stamp', short'))
    (hlt : stamp < stamp') : older < newer := by
  obtain ⟨hlength, rest, hname⟩ := backupPattern_stamp h
  obtain ⟨hlength', rest', hname'⟩ := backupPattern_stamp h'
  rw [String.lt_iff_toList_lt, hname, hname']
  exact List.append_left_lt (append_lt_append rest rest' (hlength.trans hlength'.symm) hlt)

/-! ## The records -/

theorem classify_ok {name : String} {entry : Entry γ} {c : Candidate} (h : R.classify name entry = .ok c) :
    c.name = name ∧ c.revision = R.validatedAs name entry ∧
      (c.classification = .safeToDelete ↔ c.revision.isSome = true) := by
  unfold classify at h
  unfold validatedAs
  cases hname : R.exactName name with
  | none =>
    rw [hname] at h
    rw [← Except.ok.inj h]
    simp
  | some short =>
    rw [hname] at h
    cases entry with
    | directory content =>
      simp only at h ⊢
      cases hv : R.validateBackup content short with
      | ok v =>
        rw [hv] at h
        rw [← Except.ok.inj h]
        simp [Except.toOption]
      | error failure =>
        rw [hv] at h
        cases failure with
        | raised => cases h
        | rejected reason =>
          rw [← Except.ok.inj h]
          by_cases hr : reason = "unknown" <;> simp [Except.toOption, hr]
    | regular | symlink | other | unreadable =>
      rw [← Except.ok.inj h]
      simp

/-- The records of a survey, one for each entry of a backup's name. -/
theorem survey_ok {records : List Candidate} (h : R.survey root = .ok records) :
    List.Forall₂ (fun e c => R.classify e.1 e.2 = .ok c) root.named records := by
  obtain ⟨children, hchildren, h⟩ := bind_ok h
  rw [Root.boundedChildren_ok hchildren] at h
  exact mapM_ok_iff.1 h

theorem exists_of_mem_survey {records : List Candidate} (h : R.survey root = .ok records) {c : Candidate}
    (hc : c ∈ records) : ∃ entry, root.get? c.name = some entry ∧ R.classify c.name entry = .ok c := by
  obtain ⟨⟨name, entry⟩, hmem, hclass⟩ := exists_left_of_forall₂ (survey_ok h) hc
  obtain rfl := (classify_ok hclass).1
  exact ⟨entry, Root.get?_eq_some.2 (List.mem_reverse.1 (List.mem_filter.1 hmem).1), hclass⟩

theorem exists_of_named {records : List Candidate} (h : R.survey root = .ok records) {name : String}
    {entry : Entry γ} (hget : root.get? name = some entry) (hname : (after "predeploy-" name).isSome = true) :
    ∃ c ∈ records, R.classify name entry = .ok c :=
  exists_right_of_forall₂ (survey_ok h)
    (List.mem_filter.2 ⟨List.mem_reverse.2 (Root.get?_eq_some.1 hget), hname⟩)

theorem survey_names {records : List Candidate} (h : R.survey root = .ok records) :
    records.map (·.name) = root.named.map Prod.fst := by
  have hstep : ∀ (e : String × Entry γ) (c : Candidate), R.classify e.1 e.2 = .ok c →
      e.1 = c.name ∧ true = true := fun e c hc => ⟨(classify_ok hc).1.symm, rfl⟩
  simpa using (map_filter_of_forall₂ hstep (survey_ok h)).symm

theorem survey_nodup {records : List Candidate} (h : R.survey root = .ok records) :
    (records.map (·.name)).Nodup := by
  rw [survey_names h]
  have : (root.named.map Prod.fst).Pairwise (· > ·) := root.decreasing.sublist (List.filter_sublist.map _)
  exact this.imp fun hlt => ne_of_gt hlt

/-- The records with a revision are those of the valid backups, in their order. -/
theorem survey_valid {records : List Candidate} (h : R.survey root = .ok records) :
    (records.filter (·.revision.isSome)).map (·.name) = R.validNames root := by
  have hstep : ∀ (e : String × Entry γ) (c : Candidate), R.classify e.1 e.2 = .ok c →
      e.1 = c.name ∧ (R.validatedAs e.1 e.2).isSome = c.revision.isSome := fun e c hc =>
    ⟨(classify_ok hc).1.symm, by rw [(classify_ok hc).2.1]⟩
  rw [← map_filter_of_forall₂ hstep (survey_ok h)]
  unfold validNames Root.named
  rw [List.filter_filter]
  congr 1
  apply List.filter_congr
  rintro ⟨name, entry⟩ -
  cases hv : R.validatedAs name entry with
  | none => simp
  | some sha => simp [isSome_after_of_validatedAs hv]

/-- The record of a name has the revision as which its backup validates. -/
theorem revision_of_mem_survey {records : List Candidate} (h : R.survey root = .ok records) {c : Candidate}
    (hc : c ∈ records) : c.revision = R.revisionOf root c.name ∧
      (c.classification = .safeToDelete ↔ c.revision.isSome = true) := by
  obtain ⟨entry, hget, hclass⟩ := exists_of_mem_survey h hc
  obtain ⟨-, hrev, hsafe⟩ := classify_ok hclass
  refine ⟨?_, hsafe⟩
  rw [hrev, revisionOf, hget]
  rfl

theorem exists_record {records : List Candidate} (h : R.survey root = .ok records) {name : String} {sha : Sha}
    (hrev : R.revisionOf root name = some sha) : ∃ c ∈ records, c.name = name ∧ c.revision = some sha ∧
      c.classification = .safeToDelete := by
  obtain ⟨entry, hget, hvalid⟩ := Option.bind_eq_some_iff.1 hrev
  obtain ⟨c, hc, hclass⟩ :=
    exists_of_named h hget (isSome_after_of_validatedAs hvalid)
  obtain ⟨hname, hrevision, hsafe⟩ := classify_ok hclass
  rw [hvalid] at hrevision
  exact ⟨c, hc, hname, hrevision, hsafe.2 (by rw [hrevision]; rfl)⟩

/-- `valid_by_path` has the validated backups. -/
theorem validByPath_survey {records : List Candidate} (h : R.survey root = .ok records) :
    validByPath records = R.revisionOf root := by
  funext name
  unfold validByPath
  cases hfind : records.find? fun c => c.name = name && c.classification = .safeToDelete with
  | some c =>
    have hc := List.mem_of_find?_eq_some hfind
    obtain ⟨hname, -⟩ : c.name = name ∧ c.classification = .safeToDelete := by
      simpa using List.find?_some hfind
    rw [Option.bind_some, (revision_of_mem_survey h hc).1, hname]
  | none =>
    cases hrev : R.revisionOf root name with
    | none => rfl
    | some sha =>
      obtain ⟨c, hc, hname, -, hsafe⟩ := exists_record h hrev
      simpa [hname, hsafe] using List.find?_eq_none.1 hfind c hc

/-! ## The markers -/

theorem checkMarker_ok {revisionOf : String → Option Sha} {name : String} {entry : Entry γ} {o : Option Sha} :
    R.checkMarker root revisionOf name entry = .ok o ↔
      (after "latest-" name).isNone = true ∧ o = none ∨
      (after "latest-" name).isSome = true ∧ ∃ sha target, markerPattern name = some sha ∧
        R.markerTarget root sha entry = .ok target ∧ revisionOf target = some sha ∧ o = some sha := by
  unfold checkMarker
  cases hafter : after "latest-" name with
  | none => simp [eq_comm]
  | some rest =>
    cases hpattern : markerPattern name with
    | none => simp
    | some sha =>
      cases htarget : R.markerTarget root sha entry with
      | error failure => simp [htarget]
      | ok target =>
        by_cases hrev : revisionOf target = some sha
        · simp [htarget, hrev, eq_comm]
        · simp [htarget, hrev]

theorem isSome_after_of_markerPattern {name : String} {sha : Sha} (h : markerPattern name = some sha) :
    (after "latest-" name).isSome = true :=
  isSome_after_of_bind (f := _) (by rw [← markerPattern, h]; rfl)

/-- The markers pass their validation exactly if the marker state is valid. -/
theorem validateMarkers_ok_iff {s : Settings} (hsize : root.entries.length ≤ MAX_RETENTION_ROOT_ENTRIES) :
    R.validateMarkers root (R.revisionOf root) [s.deployed, s.active] = .ok () ↔ R.MarkersValid s root := by
  have hchildren : root.boundedChildren MAX_RETENTION_ROOT_ENTRIES "too_many_root_entries" = .ok root.entries :=
    if_neg (by omega)
  unfold validateMarkers
  rw [hchildren]
  constructor
  · intro h
    change (root.entries.mapM fun e => R.checkMarker root (R.revisionOf root) e.1 e.2) >>= _ = _ at h
    obtain ⟨found, hfound, h⟩ := bind_ok h
    have hpass := mapM_ok_iff.1 hfound
    refine ⟨fun name entry hget hafter => ?_, fun sha hsha => ?_⟩
    · obtain ⟨o, -, ho⟩ := exists_right_of_forall₂ hpass (Root.get?_eq_some.1 hget)
      rcases checkMarker_ok.1 ho with ⟨hnone, -⟩ | ⟨-, sha, target, hpattern, htarget, hrev, -⟩
      · rw [Option.isNone_iff_eq_none.1 hnone] at hafter
        cases hafter
      · exact ⟨sha, target, hpattern, htarget, hrev⟩
    · split at h
      · rename_i hrequired
        obtain ⟨⟨name, entry⟩, hmem, ho⟩ :=
          exists_left_of_forall₂ hpass (hrequired sha hsha)
        rcases checkMarker_ok.1 ho with ⟨-, hnone⟩ | ⟨-, sha', target, hpattern, -, -, hsome⟩
        · cases hnone
        · rw [Option.some.inj hsome]
          exact ⟨name, entry, Root.get?_eq_some.2 hmem, hpattern⟩
      · cases h
  · rintro ⟨hpointed, hrequired⟩
    have hall : ∀ e ∈ root.entries, ∃ o, R.checkMarker root (R.revisionOf root) e.1 e.2 = .ok o := by
      rintro ⟨name, entry⟩ hmem
      cases hafter : (after "latest-" name).isSome with
      | false => exact ⟨none, checkMarker_ok.2 (.inl ⟨by simpa using hafter, rfl⟩)⟩
      | true =>
        obtain ⟨sha, target, hpattern, htarget, hrev⟩ := hpointed name entry (Root.get?_eq_some.2 hmem) hafter
        exact ⟨some sha, checkMarker_ok.2 (.inr ⟨hafter, sha, target, hpattern, htarget, hrev, rfl⟩)⟩
    obtain ⟨found, hfound⟩ := exists_mapM_ok hall
    have hin : ∀ sha ∈ [s.deployed, s.active], some sha ∈ found := by
      intro sha hsha
      obtain ⟨name, entry, hget, hpattern⟩ := hrequired sha hsha
      obtain ⟨o, ho, hcheck⟩ := exists_right_of_forall₂ (mapM_ok_iff.1 hfound) (Root.get?_eq_some.1 hget)
      rcases checkMarker_ok.1 hcheck with ⟨hnone, -⟩ | ⟨-, sha', -, hpattern', -, -, hsome⟩
      · have := isSome_after_of_markerPattern hpattern
        rw [Option.isNone_iff_eq_none.1 hnone] at this
        cases this
      · obtain rfl := Option.some.inj (hpattern.symm.trans hpattern')
        exact hsome ▸ ho
    show (root.entries.mapM fun e => R.checkMarker root (R.revisionOf root) e.1 e.2) >>= _ = _
    rw [hfound]
    exact if_pos hin

/-! ## The plan -/

theorem survey_size {records : List Candidate} (h : R.survey root = .ok records) :
    root.entries.length ≤ MAX_RETENTION_ROOT_ENTRIES := by
  obtain ⟨children, hchildren, -⟩ := bind_ok h
  unfold Root.boundedChildren at hchildren
  split at hchildren
  · cases hchildren
  · omega

variable {s : Settings} {plan : RetentionPlan}

/-- A plan is made of the records of a survey, by the state of the markers. -/
theorem plan_ok (h : R.planValidatedBackups s root = .ok plan) : 1 ≤ s.keep ∧ ∃ records,
    R.survey root = .ok records ∧
      (R.MarkersValid s root ∧
          plan.candidates = records.map (protect s ((R.validNames root).take s.keep)) ∨
        ¬ R.MarkersValid s root ∧ plan.candidates = records.map markerStateUnknown) := by
  unfold planValidatedBackups at h
  split at h
  · cases h
  · refine ⟨by omega, ?_⟩
    cases hsurvey : R.survey root with
    | error failure => rw [hsurvey] at h; cases h
    | ok records =>
      rw [hsurvey] at h
      simp only [validByPath_survey hsurvey] at h
      have hiff := validateMarkers_ok_iff (R := R) (s := s) (survey_size hsurvey)
      refine ⟨records, rfl, ?_⟩
      cases hmarkers : R.validateMarkers root (R.revisionOf root) [s.deployed, s.active] with
      | ok _ =>
        rw [hmarkers] at h
        refine .inl ⟨hiff.1 hmarkers, ?_⟩
        rw [← survey_valid hsurvey, ← List.map_take, ← Except.ok.inj h]
      | error failure =>
        rw [hmarkers] at h
        have hinvalid : ¬ R.MarkersValid s root := by
          intro hvalid
          rw [hiff.2 hvalid] at hmarkers
          cases hmarkers
        cases failure with
        | raised => cases h
        | rejected reason => exact .inr ⟨hinvalid, by rw [← Except.ok.inj h]⟩

@[simp] theorem protect_name (s : Settings) (latest : List String) (c : Candidate) :
    (protect s latest c).name = c.name := by
  unfold protect
  repeat' split
  all_goals rfl

@[simp] theorem protect_revision (s : Settings) (latest : List String) (c : Candidate) :
    (protect s latest c).revision = c.revision := by
  unfold protect
  repeat' split
  all_goals rfl

/-- What is left safe is what none of the protections is for. -/
theorem protect_safe_iff {latest : List String} {c : Candidate} :
    (protect s latest c).classification = .safeToDelete ↔ c.classification = .safeToDelete ∧
      c.revision ≠ some s.active ∧ c.revision ≠ some s.deployed ∧ c.name ∉ latest := by
  unfold protect
  split
  · rename_i hsafe
    exact ⟨fun h => absurd h hsafe, fun h => absurd h.1 hsafe⟩
  · rename_i hsafe
    have hsafe := not_not.1 hsafe
    split
    · rename_i hactive
      simp [hactive]
    · split
      · rename_i hdeployed
        simp [hdeployed]
      · split
        · rename_i hlatest
          simp [hlatest]
        · rename_i hactive hdeployed hlatest
          exact ⟨fun _ => ⟨hsafe, hactive, hdeployed, hlatest⟩, fun _ => hsafe⟩

@[simp] theorem markerStateUnknown_name (c : Candidate) : (markerStateUnknown c).name = c.name := by
  unfold markerStateUnknown
  split <;> rfl

theorem markerStateUnknown_not_safe (c : Candidate) : (markerStateUnknown c).classification ≠ .safeToDelete := by
  unfold markerStateUnknown
  split
  · exact Classification.noConfusion
  · assumption

/-- What a plan holds safe to delete may be deleted. -/
theorem deletable_of_safe (h : R.planValidatedBackups s root = .ok plan) {c : Candidate}
    (hc : c ∈ plan.candidates) (hsafe : c.classification = .safeToDelete) :
    ∃ sha, c.revision = some sha ∧ R.Deletable s root c.name sha := by
  obtain ⟨-, records, hsurvey, ⟨hmarkers, hplan⟩ | ⟨-, hplan⟩⟩ := plan_ok h
  · rw [hplan] at hc
    obtain ⟨r, hr, rfl⟩ := List.mem_map.1 hc
    obtain ⟨hclass, hactive, hdeployed, hlatest⟩ := protect_safe_iff.1 hsafe
    obtain ⟨hrevision, hsome⟩ := revision_of_mem_survey hsurvey hr
    obtain ⟨sha, hsha⟩ := Option.isSome_iff_exists.1 (hsome.1 hclass)
    rw [hsha] at hactive hdeployed
    rw [protect_name, protect_revision]
    refine ⟨sha, hsha, ⟨hrevision ▸ hsha, ?_, ?_, fun hnewest => hlatest (mem_take_validNames.2 hnewest), hmarkers⟩⟩
    · rintro rfl
      exact hdeployed rfl
    · rintro rfl
      exact hactive rfl
  · rw [hplan] at hc
    obtain ⟨r, -, rfl⟩ := List.mem_map.1 hc
    exact absurd hsafe (markerStateUnknown_not_safe r)

/-- A plan holds safe to delete whatever may be deleted. -/
theorem exists_safe (h : R.planValidatedBackups s root = .ok plan) {name : String} {sha : Sha}
    (hd : R.Deletable s root name sha) : ∃ c ∈ plan.candidates, c.name = name ∧
      c.classification = .safeToDelete ∧ c.revision = some sha := by
  obtain ⟨-, records, hsurvey, ⟨-, hplan⟩ | ⟨hmarkers, -⟩⟩ := plan_ok h
  · obtain ⟨c, hc, rfl, hrevision, hsafe⟩ := exists_record hsurvey hd.validated
    refine ⟨_, hplan ▸ List.mem_map_of_mem hc, protect_name .., protect_safe_iff.2 ⟨hsafe, ?_, ?_, ?_⟩, ?_⟩
    · rw [hrevision]
      exact fun h => hd.not_active (Option.some.inj h)
    · rw [hrevision]
      exact fun h => hd.not_deployed (Option.some.inj h)
    · exact fun hlatest => hd.not_newest (mem_take_validNames.1 hlatest)
    · rw [protect_revision, hrevision]
  · exact absurd hd.markers hmarkers

theorem plan_nodup (h : R.planValidatedBackups s root = .ok plan) : (plan.candidates.map (·.name)).Nodup := by
  obtain ⟨-, records, hsurvey, ⟨-, hplan⟩ | ⟨-, hplan⟩⟩ := plan_ok h
  all_goals
    rw [hplan, List.map_map]
    simpa [Function.comp_def] using survey_nodup hsurvey

/-- The record that a plan has of a name is found by it. -/
theorem find?_plan (h : R.planValidatedBackups s root = .ok plan) {c : Candidate} (hc : c ∈ plan.candidates) :
    plan.candidates.find? (fun item => item.name = c.name) = some c := by
  cases hfind : plan.candidates.find? fun item => item.name = c.name with
  | none => simpa using List.find?_eq_none.1 hfind c hc
  | some item =>
    have hname : item.name = c.name := by simpa using List.find?_some hfind
    exact congrArg some (List.inj_on_of_nodup_map (plan_nodup h) (List.mem_of_find?_eq_some hfind) hc hname)

/-- A plan is made where every record is and the marker state is valid. -/
theorem exists_plan (hkeep : 1 ≤ s.keep) (hsize : root.entries.length ≤ MAX_RETENTION_ROOT_ENTRIES)
    (hrecords : ∀ e ∈ root.named, ∃ c, R.classify e.1 e.2 = .ok c) (hmarkers : R.MarkersValid s root) :
    ∃ plan, R.planValidatedBackups s root = .ok plan := by
  obtain ⟨records, hpass⟩ := exists_mapM_ok hrecords
  have hsurvey : R.survey root = .ok records := by
    unfold survey Root.boundedChildren
    rw [if_neg (by omega)]
    exact hpass
  unfold planValidatedBackups
  rw [if_neg (by omega), hsurvey]
  simp only [validByPath_survey hsurvey, (validateMarkers_ok_iff hsize).2 hmarkers]
  exact ⟨_, rfl⟩

end Reader

end Aibot.Retention
