/-
The execution of a plan, with anything happening to the backup root before each deletion. Whatever it
deletes may be deleted, both on the root it was planned on and on the root it is deleted from; and on
a root that nobody else touches nothing is left for a second run.
-/
import Aibot.Retention.Planned

namespace Aibot.Retention

/-! ## The execution -/

/-- What comes of one candidate. -/
inductive Turn (γ : Type)
  | passed (root : Root γ) (candidate : Candidate)
  | deleted (before : Root γ) (candidate : Candidate) (after : Root γ)
  | raised (root : Root γ)

/-- A directory that was removed, with the root before and after it. -/
structure Deletion (γ : Type) where
  before : Root γ
  candidate : Candidate
  after : Root γ

structure Outcome (γ : Type) where
  root : Root γ
  plan : RetentionPlan
  deletions : List (Deletion γ)
  /-- An exception ended the execution. -/
  raised : Bool

namespace Reader

variable {γ : Type} (R : Reader γ)

/-- `latest-<candidate.revision>.txt`. -/
def markerOf (c : Candidate) : String := "latest-" ++ String.ofList ((c.revision.map (·.digits)).getD []) ++ ".txt"

/-- The condition of `_remove_matching_marker`. The plan of just before has resolved the same text, so
`resolve` does not raise here. -/
def matchingMarker (root : Root γ) (c : Candidate) : Bool :=
  match root.get? (markerOf c) with
  | some (.regular _ _ (some text)) =>
    match R.resolve text with
    | .ok target => target = c.name
    | .error _ => false
  | _ => false

/-- `_remove_matching_marker(root, candidate)`. -/
def removeMatchingMarker (root : Root γ) (c : Candidate) : Root γ :=
  if R.matchingMarker root c then root.remove (markerOf c) else root

/-- One turn of the loop, with the `before_delete` hook as what it makes of the root. -/
def turn (s : Settings) (beforeDelete : String → Root γ → Root γ) (c : Candidate) (root : Root γ) : Turn γ :=
  if c.classification ≠ .safeToDelete then .passed root c
  else
    let root := beforeDelete c.name root
    match R.planValidatedBackups s root with
    | .error _ => .raised root
    | .ok refreshed =>
      match refreshed.candidates.find? fun item => item.name = c.name with
      | some current =>
        if current.classification = .safeToDelete then
          .deleted root c (R.removeMatchingMarker (root.remove c.name) c)
        else
          .passed root { c with classification := .unknownDoNotTouch, reason := "changed_during_validation" }
      | none =>
        .passed root { c with classification := .unknownDoNotTouch, reason := "changed_during_validation" }

/-- `_execute_backup_plan(plan, root, …)`. -/
def executeBackupPlan (s : Settings) (beforeDelete : String → Root γ → Root γ) :
    List Candidate → Root γ → Outcome γ
  | [], root => ⟨root, ⟨[], 0, 0, 0⟩, [], false⟩
  | c :: cs, root =>
    match R.turn s beforeDelete c root with
    | .raised root => ⟨root, ⟨c :: cs, 0, 0, 0⟩, [], true⟩
    | .passed root c =>
      let rest := executeBackupPlan s beforeDelete cs root
      { rest with plan := { rest.plan with candidates := c :: rest.plan.candidates } }
    | .deleted before c after =>
      let rest := executeBackupPlan s beforeDelete cs after
      { rest with
        plan := ⟨c :: rest.plan.candidates, rest.plan.removedCount + 1,
          rest.plan.removedLogicalBytes + c.logicalBytes, rest.plan.removedAllocatedBytes + c.allocatedBytes⟩
        deletions := ⟨before, c, after⟩ :: rest.deletions }

end Reader

/-- No hook. -/
def untouched {γ : Type} : String → Root γ → Root γ := fun _ root => root

/-! ## One turn -/

namespace Reader

variable {γ : Type} {R : Reader γ} {s : Settings} {beforeDelete : String → Root γ → Root γ}

/-- A turn that removes a directory found it safe to delete. -/
theorem turn_deleted {c c' : Candidate} {root before after : Root γ}
    (h : R.turn s beforeDelete c root = .deleted before c' after) :
    c' = c ∧ c.classification = .safeToDelete ∧ before = beforeDelete c.name root ∧
      after = R.removeMatchingMarker (before.remove c.name) c ∧ ∃ sha, R.Deletable s before c.name sha := by
  unfold turn at h
  split at h
  · cases h
  · rename_i hsafe
    cases hplan : R.planValidatedBackups s (beforeDelete c.name root) with
    | error failure => simp only [hplan] at h; cases h
    | ok refreshed =>
      simp only [hplan] at h
      cases hfind : refreshed.candidates.find? fun item => item.name = c.name with
      | none => rw [hfind] at h; cases h
      | some current =>
        simp only [hfind] at h
        split at h
        · rename_i hcurrent
          cases h
          obtain ⟨sha, -, hd⟩ := deletable_of_safe hplan (List.mem_of_find?_eq_some hfind) hcurrent
          have hname : current.name = c.name := by simpa using List.find?_some hfind
          exact ⟨rfl, not_not.1 hsafe, rfl, rfl, sha, hname ▸ hd⟩
        · cases h

/-- A turn that removes nothing leaves the root as the hook did, and passes over a safe candidate only
where it may not be deleted. -/
theorem turn_passed {c c' : Candidate} {root after : Root γ}
    (h : R.turn s beforeDelete c root = .passed after c') :
    (c.classification ≠ .safeToDelete ∧ after = root) ∨
      (after = beforeDelete c.name root ∧ ∀ sha, ¬ R.Deletable s after c.name sha) := by
  unfold turn at h
  split at h
  · rename_i hsafe
    cases h
    exact .inl ⟨hsafe, rfl⟩
  · cases hplan : R.planValidatedBackups s (beforeDelete c.name root) with
    | error failure => simp only [hplan] at h; cases h
    | ok refreshed =>
      simp only [hplan] at h
      cases hfind : refreshed.candidates.find? fun item => item.name = c.name with
      | none =>
        rw [hfind] at h
        cases h
        refine .inr ⟨rfl, fun sha hd => ?_⟩
        obtain ⟨item, hitem, hname, -, -⟩ := exists_safe hplan hd
        simpa [hname] using List.find?_eq_none.1 hfind item hitem
      | some current =>
        simp only [hfind] at h
        split at h
        · cases h
        · rename_i hcurrent
          cases h
          refine .inr ⟨rfl, fun sha hd => ?_⟩
          obtain ⟨item, hitem, hname, hsafe, -⟩ := exists_safe hplan hd
          have := find?_plan hplan hitem
          rw [hname, hfind] at this
          exact hcurrent (Option.some.inj this ▸ hsafe)

/-- The marker goes only where it names the candidate; nothing else goes with the directory. -/
theorem get?_removeMatchingMarker {c : Candidate} {root : Root γ} {name : String} :
    (R.removeMatchingMarker root c).get? name =
      if R.matchingMarker root c ∧ name = markerOf c then none else root.get? name := by
  unfold removeMatchingMarker
  split
  · rename_i h
    rw [Root.get?_remove]
    simp [h]
  · rename_i h
    simp [h]

/-! ## Every deletion -/

/-- A deletion is of a candidate of the plan, with what its turn found. -/
theorem deletion_mem : ∀ {cs : List Candidate} {root : Root γ} {d : Deletion γ},
    d ∈ (R.executeBackupPlan s beforeDelete cs root).deletions →
      d.candidate ∈ cs ∧ d.candidate.classification = .safeToDelete ∧
        d.after = R.removeMatchingMarker (d.before.remove d.candidate.name) d.candidate ∧
        ∃ sha, R.Deletable s d.before d.candidate.name sha
  | [], root, d, h => absurd h List.not_mem_nil
  | c :: cs, root, d, h => by
    unfold executeBackupPlan at h
    cases hturn : R.turn s beforeDelete c root with
    | raised after =>
      rw [hturn] at h
      exact absurd h List.not_mem_nil
    | passed after c' =>
      rw [hturn] at h
      obtain ⟨hmem, hrest⟩ := deletion_mem h
      exact ⟨List.mem_cons_of_mem _ hmem, hrest⟩
    | deleted before c' after =>
      rw [hturn] at h
      obtain ⟨rfl, hsafe, -, hafter, hd⟩ := turn_deleted hturn
      rcases List.mem_cons.1 h with rfl | h
      · exact ⟨List.mem_cons_self .., hsafe, hafter, hd⟩
      · obtain ⟨hmem, hrest⟩ := deletion_mem h
        exact ⟨List.mem_cons_of_mem _ hmem, hrest⟩

/-! ## Nothing is left for a second run -/

/-- Roots that differ in one name hold the same of every other validated backup. -/
def AgreeBut (R : Reader γ) (name : String) (root root' : Root γ) : Prop :=
  ∀ other, other ≠ name → R.revisionOf root' other = R.revisionOf root other

/-- A backup that is not among the newest may come or go without a change to who is. -/
theorem isNewest_congr {keep : Nat} {name : String} {root root' : Root γ} (h : AgreeBut R name root root')
    (hvalid : name ∈ R.validNames root) (hout : ¬ R.IsNewest keep root name) {other : String}
    (hother : other ∈ R.validNames root) (hother' : other ∈ R.validNames root') :
    R.IsNewest keep root' other ↔ R.IsNewest keep root other := by
  have hrank := first_congr (R.validNames_decreasing root) (R.validNames_decreasing root') (a := name) (n := keep)
    (not_lt.1 fun hlt => hout ⟨hvalid, hlt⟩)
    (fun b hb => by rw [mem_validNames, mem_validNames, h b hb]) other
  unfold IsNewest
  rw [hrank]
  simp [hother, hother']

/-- With a deletable backup gone, or changed, what may be deleted of the others could be before. -/
theorem deletable_of_agreeBut {name : String} {sha : Sha} {root root' : Root γ} (hd : R.Deletable s root name sha)
    (h : AgreeBut R name root root') {other : String} {sha' : Sha} (hne : other ≠ name)
    (hd' : R.Deletable s root' other sha') : R.Deletable s root other sha' := by
  have hother : R.revisionOf root other = some sha' := (h other hne) ▸ hd'.validated
  refine ⟨hother, hd'.not_deployed, hd'.not_active, fun hnewest => hd'.not_newest ?_, hd.markers⟩
  exact (isNewest_congr h (mem_validNames.2 (by rw [hd.validated]; rfl)) hd.not_newest
    (mem_validNames.2 (by rw [hother]; rfl)) (mem_validNames.2 (by rw [hd'.validated]; rfl))).2 hnewest

/-- A name is not both that of a marker and that of a backup. -/
theorem after_predeploy_of_latest {name : String} (h : (after "latest-" name).isSome = true) :
    after "predeploy-" name = none := by
  unfold after at h ⊢
  cases hname : name.toList with
  | nil =>
    rw [hname] at h
    cases h
  | cons c rest =>
    rw [hname] at h
    by_cases hc : c = 'l'
    · subst hc
      rfl
    · have : ("latest-".toList.isPrefixOf (c :: rest)) = false := by
        have hne : ('l' == c) = false := by simpa using fun h => hc h.symm
        show (('l' == c) && _) = false
        rw [hne]
        rfl
      rw [this] at h
      cases h

theorem isSome_after_markerOf (c : Candidate) : (after "latest-" (markerOf c)).isSome = true := by
  unfold after markerOf
  have : "latest-".toList.isPrefixOf
      ("latest-" ++ String.ofList ((c.revision.map (·.digits)).getD []) ++ ".txt").toList = true := by
    rw [List.isPrefixOf_iff_prefix, String.toList_append, String.toList_append, List.append_assoc]
    exact List.prefix_append _ _
  rw [if_pos this]
  rfl

theorem revisionOf_eq_none_of_latest {root : Root γ} {name : String} (h : (after "latest-" name).isSome = true) :
    R.revisionOf root name = none := by
  cases hrev : R.revisionOf root name with
  | none => rfl
  | some sha =>
    obtain ⟨entry, -, hvalid⟩ := Option.bind_eq_some_iff.1 hrev
    have := isSome_after_of_validatedAs hvalid
    rw [after_predeploy_of_latest h] at this
    cases this

theorem markerOf_ne {root : Root γ} {c : Candidate} {sha : Sha} (h : R.revisionOf root c.name = some sha) :
    markerOf c ≠ c.name := by
  intro heq
  have := isSome_after_markerOf c
  rw [heq] at this
  rw [revisionOf_eq_none_of_latest this] at h
  cases h

/-- Only the marker's own entry and the candidate's name decide whether the marker names it. -/
theorem matchingMarker_congr {root root' : Root γ} {c : Candidate}
    (h : root'.get? (markerOf c) = root.get? (markerOf c)) : R.matchingMarker root' c = R.matchingMarker root c := by
  unfold matchingMarker
  rw [h]

/-- The root after a deletion holds the other backups as before. -/
theorem agreeBut_of_deleted (c : Candidate) (root : Root γ) :
    AgreeBut R c.name root (R.removeMatchingMarker (root.remove c.name) c) := by
  intro other hne
  by_cases hmarker : other = markerOf c
  · subst hmarker
    rw [revisionOf_eq_none_of_latest (isSome_after_markerOf c), revisionOf_eq_none_of_latest (isSome_after_markerOf c)]
  · unfold revisionOf
    rw [get?_removeMatchingMarker, if_neg fun h => hmarker h.2, Root.get?_remove, if_neg hne]

theorem revisionOf_deleted (c : Candidate) (root : Root γ) :
    R.revisionOf (R.removeMatchingMarker (root.remove c.name) c) c.name = none := by
  unfold revisionOf
  rw [get?_removeMatchingMarker, Root.get?_remove]
  simp

/-- An execution that nobody disturbs and that ends leaves nothing that may be deleted, if everything
that could be was among its candidates. -/
theorem settled : ∀ {cs : List Candidate} {root : Root γ},
    (∀ name sha, R.Deletable s root name sha → ∃ c ∈ cs, c.name = name ∧ c.classification = .safeToDelete) →
      (R.executeBackupPlan s untouched cs root).raised = false →
      ∀ name sha, ¬ R.Deletable s (R.executeBackupPlan s untouched cs root).root name sha
  | [], root, hall, _, name, sha => fun hd => by
    obtain ⟨c, hc, -⟩ := hall name sha hd
    exact List.not_mem_nil hc
  | c :: cs, root, hall, hraised, name, sha => by
    unfold executeBackupPlan at hraised ⊢
    cases hturn : R.turn s untouched c root with
    | raised after =>
      rw [hturn] at hraised
      cases hraised
    | passed after c' =>
      rw [hturn] at hraised
      have hrest : ∀ name sha, R.Deletable s after name sha →
          ∃ c ∈ cs, c.name = name ∧ c.classification = .safeToDelete := by
        intro name sha hd
        rcases turn_passed hturn with ⟨hnsafe, rfl⟩ | ⟨rfl, hnot⟩
        · obtain ⟨c', hc', hname, hsafe⟩ := hall name sha hd
          rcases List.mem_cons.1 hc' with rfl | hc'
          · exact absurd hsafe hnsafe
          · exact ⟨c', hc', hname, hsafe⟩
        · obtain ⟨c', hc', hname, hsafe⟩ := hall name sha hd
          rcases List.mem_cons.1 hc' with rfl | hc'
          · exact absurd (hname ▸ hd) (hnot sha)
          · exact ⟨c', hc', hname, hsafe⟩
      exact settled hrest hraised name sha
    | deleted before c' after =>
      rw [hturn] at hraised
      obtain ⟨hc, -, hbefore, hafter, sha₀, hd₀⟩ := turn_deleted hturn
      change before = root at hbefore
      subst hc hbefore hafter
      refine settled (fun name sha hd => ?_) hraised name sha
      have hne : name ≠ c'.name := by
        rintro rfl
        have := hd.validated
        rw [revisionOf_deleted] at this
        cases this
      obtain ⟨c, hmem, hname, hsafe⟩ :=
        hall name sha (deletable_of_agreeBut hd₀ (agreeBut_of_deleted c' before) hne hd)
      rcases List.mem_cons.1 hmem with rfl | hmem
      · exact absurd hname.symm hne
      · exact ⟨c, hmem, hname, hsafe⟩

/-- What is not safe is passed over. -/
theorem deletions_cons_of_not_safe {c : Candidate} (h : c.classification ≠ .safeToDelete) (cs : List Candidate)
    (root : Root γ) : (R.executeBackupPlan s beforeDelete (c :: cs) root).deletions =
      (R.executeBackupPlan s beforeDelete cs root).deletions := by
  simp [executeBackupPlan, turn, h]

/-- A plan with nothing safe deletes nothing. -/
theorem deletions_eq_nil {cs : List Candidate} (h : ∀ c ∈ cs, c.classification ≠ .safeToDelete) (root : Root γ) :
    (R.executeBackupPlan s beforeDelete cs root).deletions = [] := by
  rw [List.eq_nil_iff_forall_not_mem]
  intro d hd
  obtain ⟨hmem, hsafe, -⟩ := deletion_mem hd
  exact h _ hmem hsafe

/-! ## The retention is safe -/

/-- Whatever the backup root holds and whatever happens to it before each deletion, what an execution
deletes is a validated backup that is neither the deployed nor the active revision nor one of the
`keep` newest valid ones, under a valid marker state, on the root of the plan and on the root it is
deleted from, and nothing else goes with it but its own marker. A plan made under an invalid marker
state deletes nothing, and neither does a second run after an undisturbed one. -/
theorem retention_safe {root : Root γ} {plan : RetentionPlan} (hplan : R.planValidatedBackups s root = .ok plan)
    (beforeDelete : String → Root γ → Root γ) :
    (∀ d ∈ (R.executeBackupPlan s beforeDelete plan.candidates root).deletions,
      (∃ sha, d.candidate.revision = some sha ∧ R.Deletable s root d.candidate.name sha) ∧
      (∃ sha, R.Deletable s d.before d.candidate.name sha) ∧
      ∀ name, d.after.get? name ≠ d.before.get? name →
        name = d.candidate.name ∨ name = markerOf d.candidate ∧ R.matchingMarker d.before d.candidate = true) ∧
    (¬ R.MarkersValid s root →
      (R.executeBackupPlan s beforeDelete plan.candidates root).deletions = []) ∧
    ((R.executeBackupPlan s untouched plan.candidates root).raised = false →
      ∀ again, R.planValidatedBackups s (R.executeBackupPlan s untouched plan.candidates root).root = .ok again →
        ∀ hook, (R.executeBackupPlan s hook again.candidates
          (R.executeBackupPlan s untouched plan.candidates root).root).deletions = []) := by
  refine ⟨fun d hd => ?_, fun hmarkers => ?_, fun hraised again hagain hook => ?_⟩
  · obtain ⟨hmem, hsafe, hafter, hbefore⟩ := deletion_mem hd
    refine ⟨deletable_of_safe hplan hmem hsafe, hbefore, fun name hname => ?_⟩
    obtain ⟨sha, hdel⟩ := hbefore
    have hmarker : R.matchingMarker (d.before.remove d.candidate.name) d.candidate =
        R.matchingMarker d.before d.candidate :=
      matchingMarker_congr (by rw [Root.get?_remove, if_neg (markerOf_ne hdel.validated)])
    rw [hafter, get?_removeMatchingMarker, hmarker, Root.get?_remove] at hname
    by_cases hself : name = d.candidate.name
    · exact .inl hself
    · right
      by_contra hnot
      apply hname
      rw [if_neg fun h => hnot ⟨h.2, h.1⟩, if_neg hself]
  · apply deletions_eq_nil
    intro c hc hsafe
    obtain ⟨sha, -, hd⟩ := deletable_of_safe hplan hc hsafe
    exact hmarkers hd.markers
  · apply deletions_eq_nil
    intro c hc hsafe
    obtain ⟨sha, -, hd⟩ := deletable_of_safe hagain hc hsafe
    refine settled (fun name sha hd => ?_) hraised c.name sha hd
    obtain ⟨c, hc, hname, hsafe, -⟩ := exists_safe hplan hd
    exact ⟨c, hc, hname, hsafe⟩

end Reader

/-! ## Three backups -/

namespace Sample

def sha (c : Char) (h : isHex c = true) : Sha :=
  ⟨List.replicate 40 c, by simp [h]⟩

/-- Revisions `aaa…`, `bbb…` and `ccc…`. -/
def a : Sha := sha 'a' (by decide)
def b : Sha := sha 'b' (by decide)
def c : Sha := sha 'c' (by decide)

/-- A directory is what its manifest says of its revision, none where it has no manifest. -/
def reader : Reader (Option Sha) where
  decimal := asciiDigit
  isAbsolute text := text.toList.head? = some '/'
  resolve text := match after "/home/deploy/aibot-backups/" text with
    | some name => .ok (String.ofList name)
    | none => .error (.rejected "unknown_marker_state")
  validateBackup
    | some revision, short =>
      if revision.abbrev = short then .ok (revision, 10, 4096) else .error (.rejected "deploy_sha_mismatch")
    | none, _ => .error (.rejected "manifest_missing")
  measureRegularTree _ := (10, 4096)

def settings : Settings := ⟨1, b, c⟩

def marker (name : String) : Entry (Option Sha) :=
  .regular 75 4096 (some ("/home/deploy/aibot-backups/" ++ name))

def oldest : String := "predeploy-20260901T010203Z-aaaaaaaaaaaa"
def middle : String := "predeploy-20260902T010203Z-bbbbbbbbbbbb"
def newest : String := "predeploy-20260903T010203Z-cccccccccccc"

def root : Root (Option Sha) where
  entries := [(markerName a, marker oldest), (markerName b, marker middle), (markerName c, marker newest),
    (oldest, .directory (some a)), (middle, .directory (some b)), (newest, .directory (some c))]
  nodup := by decide
  sorted := by decide

def plan : RetentionPlan :=
  ⟨[⟨newest, .isProtected, "protected_active", 10, 4096, some c⟩,
    ⟨middle, .isProtected, "protected_successful", 10, 4096, some b⟩,
    ⟨oldest, .safeToDelete, "eligible", 10, 4096, some a⟩], 0, 0, 0⟩

theorem planned : reader.planValidatedBackups settings root = .ok plan := by decide +kernel

/-- The record of the oldest backup. -/
def record : Candidate := ⟨oldest, .safeToDelete, "eligible", 10, 4096, some a⟩

theorem turned : reader.turn settings untouched record root =
    .deleted root record (reader.removeMatchingMarker (root.remove oldest) record) := by
  have hplan : reader.planValidatedBackups settings (untouched record.name root) = .ok plan := planned
  simp only [Reader.turn, hplan]
  rfl

end Sample

open Sample in
theorem retention_safe_sample :
    (reader.executeBackupPlan settings untouched plan.candidates root).deletions.map (·.candidate.name) = [oldest] ∧
      ∀ d ∈ (reader.executeBackupPlan settings untouched plan.candidates root).deletions,
        ∃ sha, d.candidate.revision = some sha ∧ reader.Deletable settings root d.candidate.name sha :=
  ⟨by
    unfold plan
    rw [Reader.deletions_cons_of_not_safe (by decide), Reader.deletions_cons_of_not_safe (by decide)]
    change (reader.executeBackupPlan settings untouched (record :: []) root).deletions.map _ = _
    unfold Reader.executeBackupPlan
    rw [turned]
    rfl,
  fun d hd => ((Reader.retention_safe planned untouched).1 d hd).1⟩

end Aibot.Retention
