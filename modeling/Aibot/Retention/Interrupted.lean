/-
An execution that is cut off. The removal of a directory and that of its marker are two steps, and a
marker without a validated backup makes the marker state invalid for every later run: the retention
recovers exactly from the other cuts.
-/
import Aibot.Retention.Execute

namespace Aibot.Retention

/-! ## Marker names -/

theorem toList_markerName (sha : Sha) :
    (markerName sha).toList = "latest-".toList ++ (sha.digits ++ ".txt".toList) := by
  simp [markerName]

theorem eq_markerName_of_markerPattern {name : String} {sha : Sha} (h : markerPattern name = some sha) :
    name = markerName sha := by
  unfold markerPattern after at h
  split at h
  · rename_i hprefix
    simp only [Option.bind_some] at h
    split at h
    · rename_i hmatch
      have hdigits : sha.digits = (name.toList.drop "latest-".toList.length).take 40 := by
        rw [← Option.some.inj h]
      obtain ⟨rest, hrest⟩ := List.isPrefixOf_iff_prefix.1 hprefix
      have hend := hmatch.2
      rw [← hrest, List.drop_left] at hdigits hend
      apply String.toList_injective
      rw [toList_markerName, ← hrest, hdigits, ← hend, List.take_append_drop]
    · cases h
  · cases h

theorem markerName_inj {sha sha' : Sha} (h : markerName sha = markerName sha') : sha = sha' := by
  have hlist := congrArg String.toList h
  rw [toList_markerName, toList_markerName] at hlist
  have hdigits : sha.digits = sha'.digits :=
    List.append_cancel_right (List.append_cancel_left hlist)
  cases sha
  cases sha'
  simpa using hdigits

namespace Root

variable {γ : Type}

theorem map_fst_replaced (entries : List (String × Entry γ)) (name : String) (entry : Entry γ) :
    (entries.map fun e => if e.1 = name then (name, entry) else e).map Prod.fst = entries.map Prod.fst := by
  rw [List.map_map]
  refine List.map_congr_left fun e _ => ?_
  by_cases he : e.1 = name <;> simp [he]

/-- The root with another entry of a name that it has. -/
def replace (root : Root γ) (name : String) (entry : Entry γ) : Root γ :=
  ⟨⟨root.entries.map fun e => if e.1 = name then (name, entry) else e,
    (map_fst_replaced root.entries name entry).symm ▸ root.nodup⟩,
    (map_fst_replaced root.entries name entry).symm ▸ root.sorted⟩

theorem get?_replace (root : Root γ) (name other : String) (entry : Entry γ) :
    (root.replace name entry).get? other =
      if other = name then (root.get? name).map fun _ => entry else root.get? other := by
  have hmem : ∀ e, (other, e) ∈ (root.replace name entry).entries ↔
      if other = name then e = entry ∧ ∃ old, (name, old) ∈ root.entries else (other, e) ∈ root.entries := by
    intro e
    show (other, e) ∈ root.entries.map _ ↔ _
    rw [List.mem_map]
    split
    · rename_i hname
      subst hname
      constructor
      · rintro ⟨⟨n, old⟩, hold, heq⟩
        by_cases hn : n = other
        · subst hn
          simp only [if_true, Prod.mk.injEq, true_and] at heq
          exact ⟨heq.symm, old, hold⟩
        · simp only [hn, if_false, Prod.mk.injEq, false_and] at heq
      · rintro ⟨rfl, old, hold⟩
        exact ⟨(other, old), hold, by simp⟩
    · rename_i hname
      constructor
      · rintro ⟨⟨n, old⟩, hold, heq⟩
        by_cases hn : n = name
        · simp only [hn, if_true, Prod.mk.injEq] at heq
          exact absurd heq.1.symm hname
        · simp only [hn, if_false] at heq
          exact heq ▸ hold
      · intro h
        exact ⟨(other, e), h, by simp [hname]⟩
  apply Option.ext
  intro e
  have hget : (root.replace name entry).get? other = some e ↔ (other, e) ∈ (root.replace name entry).entries :=
    get?_eq_some
  rw [hget, hmem]
  split
  · rw [Option.map_eq_some_iff]
    constructor
    · rintro ⟨rfl, old, hold⟩
      exact ⟨old, get?_eq_some.2 hold, rfl⟩
    · rintro ⟨old, hold, rfl⟩
      exact ⟨rfl, old, get?_eq_some.1 hold⟩
  · exact get?_eq_some.symm

/-- The root with what a removal has left of a directory. -/
def leave (root : Root γ) (name : String) : Option γ → Root γ
  | none => root.remove name
  | some content => root.replace name (.directory content)

end Root

namespace Reader

variable {γ : Type} {R : Reader γ} {s : Settings}

/-! ## The markers after a removal -/

theorem markerTarget_ok {root : Root γ} {sha : Sha} {entry : Entry γ} {target : String} :
    R.markerTarget root sha entry = .ok target ↔ ∃ size allocated raw, entry = .regular size allocated (some raw) ∧
      size ≤ MAX_MARKER_BYTES ∧ R.isAbsolute raw = true ∧ R.resolve raw = .ok target ∧
      (root.get? target).isSome = true ∧ ∃ stamp, R.backupPattern target = some (stamp, sha.abbrev) := by
  constructor
  · intro h
    unfold markerTarget at h
    split at h
    · cases h
    · cases h
    · cases h
    · cases h
    · rename_i size allocated text
      split at h
      · cases h
      · rename_i hsize
        split at h
        · cases h
        · rename_i raw
          split at h
          · cases h
          · rename_i habsolute
            split at h
            · cases h
            · rename_i target' hresolve
              split at h
              · cases h
              · rename_i hexists
                split at h
                · rename_i stamp short hpattern
                  split at h
                  · rename_i hshort
                    obtain rfl := Except.ok.inj h
                    subst hshort
                    exact ⟨size, allocated, raw, rfl, by omega, by simpa using habsolute, hresolve,
                      by simpa [Option.isSome_iff_ne_none] using hexists, stamp, hpattern⟩
                  · cases h
                · cases h
  · rintro ⟨size, allocated, raw, rfl, hsize, habsolute, hresolve, hexists, stamp, hpattern⟩
    have hexists' : (root.get? target).isNone = false := by simpa [Option.isSome_iff_ne_none] using hexists
    have hsize' : ¬ MAX_MARKER_BYTES < size := by omega
    simp [markerTarget, hsize', habsolute, hresolve, hexists', hpattern]

theorem matchingMarker_iff {root : Root γ} {c : Candidate} : R.matchingMarker root c = true ↔
    ∃ size allocated text, root.get? (markerOf c) = some (.regular size allocated (some text)) ∧
      R.resolve text = .ok c.name := by
  unfold matchingMarker
  constructor
  · intro h
    split at h
    · rename_i size allocated text hget
      split at h
      · rename_i target hresolve
        exact ⟨size, allocated, text, hget, by rw [hresolve, of_decide_eq_true h]⟩
      · cases h
    · cases h
  · rintro ⟨size, allocated, text, hget, hresolve⟩
    simp [hget, hresolve]

theorem backup_of_revisionOf {root : Root γ} {name : String} {sha : Sha} (h : R.revisionOf root name = some sha) :
    (root.get? name).isSome = true ∧ after "latest-" name = none := by
  constructor
  · obtain ⟨entry, hget, -⟩ := Option.bind_eq_some_iff.1 h
    rw [hget]
    rfl
  · cases hafter : after "latest-" name with
    | none => rfl
    | some rest =>
      rw [revisionOf_eq_none_of_latest (by rw [hafter]; rfl)] at h
      cases h

theorem isSome_after_of_revisionOf {root : Root γ} {name : String} {sha : Sha}
    (h : R.revisionOf root name = some sha) : (after "predeploy-" name).isSome = true := by
  obtain ⟨entry, -, hvalid⟩ := Option.bind_eq_some_iff.1 h
  exact isSome_after_of_validatedAs hvalid

theorem markerOf_eq {c : Candidate} {sha : Sha} (h : c.revision = some sha) : markerOf c = markerName sha := by
  simp [markerOf, markerName, h]

/-- A root after a removal, or in the midst of one: only the candidate's name and its marker have
changed, and the marker is there as before or gone. -/
structure Disturbed (c : Candidate) (root root' : Root γ) : Prop where
  others : ∀ name, name ≠ c.name → name ≠ markerOf c → root'.get? name = root.get? name
  marker : root'.get? (markerOf c) = root.get? (markerOf c) ∨ root'.get? (markerOf c) = none

theorem Disturbed.agreeBut {c : Candidate} {root root' : Root γ} (h : Disturbed c root root') :
    AgreeBut R c.name root root' := by
  intro other hne
  by_cases hmarker : other = markerOf c
  · subst hmarker
    rw [revisionOf_eq_none_of_latest (isSome_after_markerOf c), revisionOf_eq_none_of_latest (isSome_after_markerOf c)]
  · unfold revisionOf
    rw [h.others other hne hmarker]

/-- The marker state after the removal of a deletable backup is valid exactly if its marker is not
left behind, or the backup still validates as its revision. -/
theorem markersValid_iff {c : Candidate} {sha : Sha} {root root' : Root γ} (hd : R.Deletable s root c.name sha)
    (hc : c.revision = some sha) (h : Disturbed c root root') : R.MarkersValid s root' ↔
      (R.matchingMarker root' c = true → R.revisionOf root' c.name = some sha) := by
  constructor
  · intro hvalid hmatch
    obtain ⟨size, allocated, text, hget, hresolve⟩ := matchingMarker_iff.1 hmatch
    obtain ⟨sha', target, hpattern, htarget, hrevision⟩ := hvalid.pointed _ _ hget (isSome_after_markerOf c)
    obtain rfl : sha = sha' := markerName_inj ((markerOf_eq hc).symm.trans (eq_markerName_of_markerPattern hpattern))
    obtain ⟨_, _, raw, hentry, -, -, hraw, -⟩ := markerTarget_ok.1 htarget
    cases hentry
    obtain rfl : target = c.name := Except.ok.inj (hraw.symm.trans hresolve)
    exact hrevision
  · intro hstands
    have hold := hd.markers
    refine ⟨fun name entry hget hlatest => ?_, fun sha' hsha' => ?_⟩
    · have hne : name ≠ c.name := by
        rintro rfl
        rw [(backup_of_revisionOf hd.validated).2] at hlatest
        cases hlatest
      have hget' : root.get? name = some entry := by
        by_cases hmarker : name = markerOf c
        · subst hmarker
          rcases h.marker with hsame | hgone
          · rw [← hsame, hget]
          · rw [hgone] at hget
            cases hget
        · rw [← h.others name hne hmarker, hget]
      obtain ⟨sha', target, hpattern, htarget, hrevision⟩ := hold.pointed name entry hget' hlatest
      obtain ⟨size, allocated, raw, rfl, hsize, habsolute, hresolve, -, hstamp⟩ := markerTarget_ok.1 htarget
      have hrevision' : R.revisionOf root' target = some sha' := by
        by_cases htarget : target = c.name
        · subst htarget
          obtain rfl : sha' = sha := Option.some.inj (hrevision.symm.trans hd.validated)
          apply hstands
          rw [eq_markerName_of_markerPattern hpattern, ← markerOf_eq hc] at hget
          exact matchingMarker_iff.2 ⟨size, allocated, raw, hget, hresolve⟩
        · rw [h.agreeBut target htarget, hrevision]
      exact ⟨sha', target, hpattern, markerTarget_ok.2 ⟨size, allocated, raw, rfl, hsize, habsolute, hresolve,
        (backup_of_revisionOf hrevision').1, hstamp⟩, hrevision'⟩
    · obtain ⟨name, entry, hget, hpattern⟩ := hold.required sha' hsha'
      have hother : sha' ≠ sha := by
        rintro rfl
        rcases List.mem_cons.1 hsha' with hdeployed | hactive
        · exact hd.not_deployed hdeployed
        · exact hd.not_active (List.mem_singleton.1 hactive)
      have hmarker : name ≠ markerOf c := by
        rw [markerOf_eq hc, eq_markerName_of_markerPattern hpattern]
        exact fun heq => hother (markerName_inj heq)
      have hne : name ≠ c.name := by
        rintro rfl
        have := isSome_after_of_markerPattern hpattern
        rw [(backup_of_revisionOf hd.validated).2] at this
        cases this
      exact ⟨name, entry, by rw [h.others name hne hmarker, hget], hpattern⟩

/-! ## Planning after a removal -/

/-- A root for which a plan is made, under a valid marker state. -/
structure Plannable (R : Reader γ) (s : Settings) (root : Root γ) : Prop where
  keep : 1 ≤ s.keep
  size : root.entries.length ≤ MAX_RETENTION_ROOT_ENTRIES
  records : ∀ e ∈ root.named, ∃ c, R.classify e.1 e.2 = .ok c
  markers : R.MarkersValid s root

theorem Plannable.exists_plan {root : Root γ} (h : Plannable R s root) :
    ∃ plan, R.planValidatedBackups s root = .ok plan :=
  Reader.exists_plan h.keep h.size h.records h.markers

theorem plannable_of_plan {root : Root γ} {plan : RetentionPlan} (h : R.planValidatedBackups s root = .ok plan)
    (hmarkers : R.MarkersValid s root) : Plannable R s root := by
  obtain ⟨hkeep, records, hsurvey, -⟩ := plan_ok h
  refine ⟨hkeep, survey_size hsurvey, fun e he => ?_, hmarkers⟩
  obtain ⟨c, -, hc⟩ := exists_right_of_forall₂ (survey_ok hsurvey) he
  exact ⟨c, hc⟩

theorem mem_named {root : Root γ} {e : String × Entry γ} :
    e ∈ root.named ↔ root.get? e.1 = some e.2 ∧ (after "predeploy-" e.1).isSome = true := by
  unfold Root.named
  rw [List.mem_filter, List.mem_reverse, Root.get?_eq_some]

/-- No entry is new. -/
theorem Disturbed.isSome_get? {c : Candidate} {root root' : Root γ} (h : Disturbed c root root') {name : String}
    (hself : (root.get? c.name).isSome = true) (hname : (root'.get? name).isSome = true) :
    (root.get? name).isSome = true := by
  by_cases hne : name = c.name
  · exact hne ▸ hself
  · by_cases hmarker : name = markerOf c
    · subst hmarker
      rcases h.marker with hsame | hgone
      · exact hsame ▸ hname
      · rw [hgone] at hname
        cases hname
    · exact h.others name hne hmarker ▸ hname

theorem Disturbed.size {c : Candidate} {root root' : Root γ} (h : Disturbed c root root')
    (hself : (root.get? c.name).isSome = true) : root'.entries.length ≤ root.entries.length := by
  have hsubset : root'.entries.map Prod.fst ⊆ root.entries.map Prod.fst := by
    intro name hname
    obtain ⟨⟨_, entry⟩, hmem, rfl⟩ := List.mem_map.1 hname
    have hget := Root.get?_eq_some.2 hmem
    obtain ⟨old, hold⟩ := Option.isSome_iff_exists.1 (h.isSome_get? hself (by rw [hget]; rfl))
    exact List.mem_map.2 ⟨(_, old), Root.get?_eq_some.1 hold, rfl⟩
  simpa using (root'.nodup.subperm hsubset).length_le

/-- A plan can be made after a removal, if what it left can be looked at and no marker of it is left
behind. -/
theorem Plannable.disturbed {c : Candidate} {sha : Sha} {root root' : Root γ} (hroot : Plannable R s root)
    (hd : R.Deletable s root c.name sha) (hc : c.revision = some sha) (h : Disturbed c root root')
    (hleft : ∀ entry, root'.get? c.name = some entry → ∃ r, R.classify c.name entry = .ok r)
    (hstands : R.matchingMarker root' c = true → R.revisionOf root' c.name = some sha) : Plannable R s root' := by
  refine ⟨hroot.keep, le_trans (h.size (backup_of_revisionOf hd.validated).1) hroot.size, ?_,
    (markersValid_iff hd hc h).2 hstands⟩
  rintro ⟨name, entry⟩ hmem
  obtain ⟨hget, hname⟩ := mem_named.1 hmem
  by_cases hne : name = c.name
  · subst hne
    exact hleft entry hget
  · have hmarker : name ≠ markerOf c := by
      rintro rfl
      have := after_predeploy_of_latest (isSome_after_markerOf c)
      rw [this] at hname
      cases hname
    exact hroot.records (name, entry) (mem_named.2 ⟨h.others name hne hmarker ▸ hget, hname⟩)

/-- What could be deleted and still validates can be deleted. -/
theorem Deletable.disturbed {name : String} {sha : Sha} {root root' : Root γ} (hd : R.Deletable s root name sha)
    (h : AgreeBut R name root root') (hmarkers : R.MarkersValid s root') {other : String} {sha' : Sha}
    (hother : R.Deletable s root other sha') (hrev : R.revisionOf root' other = some sha') :
    R.Deletable s root' other sha' := by
  refine ⟨hrev, hother.not_deployed, hother.not_active, fun hnewest => hother.not_newest ?_, hmarkers⟩
  exact (isNewest_congr h (mem_validNames.2 (by rw [hd.validated]; rfl)) hd.not_newest
    (mem_validNames.2 (by rw [hother.validated]; rfl)) (mem_validNames.2 (by rw [hrev]; rfl))).1 hnewest

/-! ## An undisturbed execution -/

/-- A root on which the safe ones of the candidates are what may be deleted. -/
structure Ready (R : Reader γ) (s : Settings) (cs : List Candidate) (root : Root γ) : Prop where
  plannable : Plannable R s root
  candidates : ∀ name sha, R.Deletable s root name sha ↔
    ∃ c ∈ cs, c.name = name ∧ c.classification = .safeToDelete ∧ c.revision = some sha
  revised : ∀ c ∈ cs, c.classification = .safeToDelete → ∃ sha, c.revision = some sha
  nodup : (cs.map (·.name)).Nodup

theorem ready_of_plan {root : Root γ} {plan : RetentionPlan} (h : R.planValidatedBackups s root = .ok plan)
    (hmarkers : R.MarkersValid s root) : Ready R s plan.candidates root := by
  refine ⟨plannable_of_plan h hmarkers, fun name sha => ⟨exists_safe h, ?_⟩, fun c hc hsafe => ?_, plan_nodup h⟩
  · rintro ⟨c, hc, rfl, hsafe, hrevision⟩
    obtain ⟨sha', hrevision', hd⟩ := deletable_of_safe h hc hsafe
    rw [Option.some.inj (hrevision.symm.trans hrevision')]
    exact hd
  · obtain ⟨sha, hrevision, -⟩ := deletable_of_safe h hc hsafe
    exact ⟨sha, hrevision⟩

theorem Ready.passed {c : Candidate} {cs : List Candidate} {root : Root γ} (h : Ready R s (c :: cs) root)
    (hnsafe : c.classification ≠ .safeToDelete) : Ready R s cs root := by
  refine ⟨h.plannable, fun name sha => (h.candidates name sha).trans ?_,
    fun c hc => h.revised c (List.mem_cons_of_mem _ hc), (List.nodup_cons.1 h.nodup).2⟩
  constructor
  · rintro ⟨c', hc', hname, hsafe, hrevision⟩
    rcases List.mem_cons.1 hc' with rfl | hc'
    · exact absurd hsafe hnsafe
    · exact ⟨c', hc', hname, hsafe, hrevision⟩
  · rintro ⟨c', hc', h⟩
    exact ⟨c', List.mem_cons_of_mem _ hc', h⟩

theorem disturbed_deleted {c : Candidate} {sha : Sha} {root : Root γ} (hd : R.Deletable s root c.name sha) :
    Disturbed c root (R.removeMatchingMarker (root.remove c.name) c) := by
  constructor
  · intro name hne hmarker
    rw [get?_removeMatchingMarker, if_neg fun h => hmarker h.2, Root.get?_remove, if_neg hne]
  · rw [get?_removeMatchingMarker]
    split
    · exact .inr rfl
    · rw [Root.get?_remove, if_neg (markerOf_ne hd.validated)]
      exact .inl rfl

theorem matchingMarker_deleted (c : Candidate) (root : Root γ) :
    R.matchingMarker (R.removeMatchingMarker root c) c = false := by
  cases hmatch : R.matchingMarker root c with
  | false =>
    unfold removeMatchingMarker
    rw [hmatch]
    exact hmatch
  | true =>
    unfold matchingMarker
    rw [get?_removeMatchingMarker, if_pos ⟨hmatch, rfl⟩]

/-- The turn of a safe candidate on a root that nobody disturbs removes it, and its marker. -/
theorem Ready.deleted {c : Candidate} {cs : List Candidate} {root : Root γ} (h : Ready R s (c :: cs) root)
    (hsafe : c.classification = .safeToDelete) : ∃ sha, c.revision = some sha ∧ R.Deletable s root c.name sha ∧
      R.turn s untouched c root = .deleted root c (R.removeMatchingMarker (root.remove c.name) c) ∧
      Ready R s cs (R.removeMatchingMarker (root.remove c.name) c) := by
  obtain ⟨sha, hrevision⟩ := h.revised c (List.mem_cons_self ..) hsafe
  have hd : R.Deletable s root c.name sha := (h.candidates _ _).2 ⟨c, List.mem_cons_self .., rfl, hsafe, hrevision⟩
  have hdisturbed := disturbed_deleted hd
  refine ⟨sha, hrevision, hd, ?_, ?_⟩
  · obtain ⟨plan, hplan⟩ := h.plannable.exists_plan
    obtain ⟨item, hitem, hname, hitemSafe, -⟩ := exists_safe hplan hd
    have hfind := find?_plan hplan hitem
    rw [hname] at hfind
    unfold turn untouched
    simp only [hsafe, ne_eq, not_true_eq_false, if_false, hplan, hfind, hitemSafe, if_true]
  · have hplannable : Plannable R s (R.removeMatchingMarker (root.remove c.name) c) := by
      refine h.plannable.disturbed hd hrevision hdisturbed (fun entry hentry => ?_) fun hmatch => ?_
      · rw [get?_removeMatchingMarker, Root.get?_remove] at hentry
        simp at hentry
      · rw [matchingMarker_deleted] at hmatch
        cases hmatch
    refine ⟨hplannable, fun name sha' => ⟨fun hd' => ?_, ?_⟩, fun c hc => h.revised c (List.mem_cons_of_mem _ hc),
      (List.nodup_cons.1 h.nodup).2⟩
    · have hne : name ≠ c.name := by
        rintro rfl
        have := hd'.validated
        rw [revisionOf_deleted] at this
        cases this
      obtain ⟨c', hc', hname, hrest⟩ :=
        (h.candidates name sha').1 (deletable_of_agreeBut hd hdisturbed.agreeBut hne hd')
      rcases List.mem_cons.1 hc' with rfl | hc'
      · exact absurd hname.symm hne
      · exact ⟨c', hc', hname, hrest⟩
    · rintro ⟨c', hc', rfl, hsafe', hrevision'⟩
      have hd' : R.Deletable s root c'.name sha' :=
        (h.candidates _ _).2 ⟨c', List.mem_cons_of_mem _ hc', rfl, hsafe', hrevision'⟩
      have hne : c'.name ≠ c.name := fun heq =>
        (List.nodup_cons.1 h.nodup).1 (List.mem_map.2 ⟨c', hc', heq⟩)
      exact hd.disturbed hdisturbed.agreeBut hplannable.markers hd'
        ((hdisturbed.agreeBut c'.name hne).trans hd'.validated)

/-- What an undisturbed execution of the first candidates does. -/
structure Executed (R : Reader γ) (s : Settings) (done rest : List Candidate) (root : Root γ) (o : Outcome γ) :
    Prop where
  finished : o.raised = false
  ready : Ready R s rest o.root
  deletions : o.deletions.map (·.candidate) = done.filter (·.classification = .safeToDelete)
  gone : ∀ c ∈ done, c.classification = .safeToDelete → o.root.get? c.name = none
  kept : ∀ name, (∀ c ∈ done, c.classification = .safeToDelete → c.name ≠ name) → after "latest-" name = none →
    o.root.get? name = root.get? name

theorem execute_ready : ∀ {done rest : List Candidate} {root : Root γ}, Ready R s (done ++ rest) root →
    Executed R s done rest root (R.executeBackupPlan s untouched done root)
  | [], rest, root, h => ⟨rfl, h, rfl, fun _ hc => absurd hc List.not_mem_nil, fun _ _ _ => rfl⟩
  | c :: done, rest, root, h => by
    unfold executeBackupPlan
    by_cases hsafe : c.classification = .safeToDelete
    · have hcons : Ready R s (c :: (done ++ rest)) root := h
      obtain ⟨sha, hrevision, hd, hturn, hready⟩ := hcons.deleted hsafe
      have ih := execute_ready hready
      rw [hturn]
      have hlatest := (backup_of_revisionOf hd.validated).2
      refine ⟨ih.finished, ih.ready, ?_, ?_, ?_⟩
      · simp [hsafe, ih.deletions]
      · intro c' hc' hsafe'
        rcases List.mem_cons.1 hc' with rfl | hc'
        · have hothers : ∀ c'' ∈ done, c''.classification = .safeToDelete → c''.name ≠ c'.name :=
            fun c'' hc'' _ heq => (List.nodup_cons.1 h.nodup).1
              (List.mem_map.2 ⟨c'', List.mem_append_left _ hc'', heq⟩)
          refine (ih.kept c'.name hothers hlatest).trans ?_
          rw [get?_removeMatchingMarker, Root.get?_remove]
          simp
        · exact ih.gone c' hc' hsafe'
      · intro name hnot hname
        have hmarker : name ≠ markerOf c := by
          rintro rfl
          have := isSome_after_markerOf c
          rw [hname] at this
          cases this
        refine (ih.kept name (fun c' hc' => hnot c' (List.mem_cons_of_mem _ hc')) hname).trans ?_
        exact (disturbed_deleted hd).others name (hnot c (List.mem_cons_self ..) hsafe).symm hmarker
    · have hcons : Ready R s (c :: (done ++ rest)) root := h
      have ih := execute_ready (hcons.passed hsafe)
      have hturn : R.turn s untouched c root = .passed root c := by
        unfold turn
        rw [if_pos hsafe]
      rw [hturn]
      refine ⟨ih.finished, ih.ready, ?_, ?_, ?_⟩
      · simp [hsafe, ih.deletions]
      · intro c' hc' hsafe'
        rcases List.mem_cons.1 hc' with rfl | hc'
        · exact absurd hsafe' hsafe
        · exact ih.gone c' hc' hsafe'
      · intro name hnot hname
        exact ih.kept name (fun c' hc' => hnot c' (List.mem_cons_of_mem _ hc')) hname

/-! ## Recovery -/

/-- An uninterrupted run on the root, from planning on, deletes the backup. -/
def Deletes (R : Reader γ) (s : Settings) (root : Root γ) (name : String) : Prop :=
  ∃ plan, R.planValidatedBackups s root = .ok plan ∧
    ∃ d ∈ (R.executeBackupPlan s untouched plan.candidates root).deletions, d.candidate.name = name

theorem deletes_iff {root : Root γ} {name : String} : Deletes R s root name ↔
    (∃ plan, R.planValidatedBackups s root = .ok plan) ∧ ∃ sha, R.Deletable s root name sha := by
  constructor
  · rintro ⟨plan, hplan, d, hd, rfl⟩
    obtain ⟨hmem, hsafe, -⟩ := deletion_mem hd
    obtain ⟨sha, -, hdel⟩ := deletable_of_safe hplan hmem hsafe
    exact ⟨⟨plan, hplan⟩, sha, hdel⟩
  · rintro ⟨⟨plan, hplan⟩, sha, hdel⟩
    obtain ⟨c, hc, rfl, hsafe, -⟩ := exists_safe hplan hdel
    have hready : Ready R s (plan.candidates ++ []) root := by
      rw [List.append_nil]
      exact ready_of_plan hplan hdel.markers
    have hmem : c ∈ (R.executeBackupPlan s untouched plan.candidates root).deletions.map (·.candidate) := by
      rw [(execute_ready hready).deletions]
      exact List.mem_filter.2 ⟨hc, by simpa using hsafe⟩
    obtain ⟨d, hd, rfl⟩ := List.mem_map.1 hmem
    exact ⟨plan, hplan, d, hd, rfl⟩

/-- A later run deletes every backup that the uninterrupted one would have deleted and that still
stands intact. -/
def Recovers (R : Reader γ) (s : Settings) (root cut : Root γ) : Prop :=
  ∀ name content, Deletes R s root name → root.get? name = some (.directory content) →
    cut.get? name = some (.directory content) → Deletes R s cut name

end Reader

/-- Where an execution is cut off: between two candidates, or in the removal of one and of its marker,
with what is left of the directory, none once it is gone. -/
inductive Cut (γ : Type)
  | between (done rest : List Candidate)
  | removing (done : List Candidate) (candidate : Candidate) (rest : List Candidate) (left : Option γ)

namespace Cut

variable {γ : Type} (R : Reader γ) (s : Settings)

/-- The cut is one of the execution of the plan. -/
def Of (plan : RetentionPlan) : Cut γ → Prop
  | between done rest => plan.candidates = done ++ rest
  | removing done c rest _ => plan.candidates = done ++ c :: rest ∧ c.classification = .safeToDelete

/-- The root when the execution stops. -/
def root (start : Root γ) : Cut γ → Root γ
  | between done _ => (R.executeBackupPlan s untouched done start).root
  | removing done c _ left => (R.executeBackupPlan s untouched done start).root.leave c.name left

/-- The cut leaves no marker of a backup that no longer validates, and nothing that a validation
raises on, or no backup that is to be deleted was left. -/
def Clean (start : Root γ) : Cut γ → Prop
  | between _ _ => True
  | removing done c rest left =>
    (∀ c' ∈ rest, c'.classification ≠ .safeToDelete) ∨
      (∀ content ∈ left, R.classify c.name (.directory content) ≠ .error .raised) ∧
      (R.matchingMarker (R.executeBackupPlan s untouched done start).root c = true →
        (left.bind fun content => R.validatedAs c.name (.directory content)) = c.revision)

end Cut

namespace Reader

variable {γ : Type} {R : Reader γ} {s : Settings}

theorem get?_leave_of_ne (root : Root γ) {name other : String} (left : Option γ) (h : other ≠ name) :
    (root.leave name left).get? other = root.get? other := by
  cases left with
  | none => simp [Root.leave, h]
  | some content => simp [Root.leave, Root.get?_replace, h]

theorem get?_leave_self {root : Root γ} {name : String} (left : Option γ) (h : (root.get? name).isSome = true) :
    (root.leave name left).get? name = left.map .directory := by
  cases left with
  | none => simp [Root.leave]
  | some content =>
    obtain ⟨entry, hentry⟩ := Option.isSome_iff_exists.1 h
    simp [Root.leave, Root.get?_replace, hentry]

theorem disturbed_leave {c : Candidate} {sha : Sha} {root : Root γ} (hd : R.Deletable s root c.name sha)
    (left : Option γ) : Disturbed c root (root.leave c.name left) :=
  ⟨fun _ hne _ => get?_leave_of_ne root left hne, .inl (get?_leave_of_ne root left (markerOf_ne hd.validated))⟩

theorem classify_error {name : String} {entry : Entry γ} {failure : Failure}
    (h : R.classify name entry = .error failure) : failure = .raised := by
  unfold classify at h
  repeat' split at h
  all_goals first
    | cases h; rfl
    | cases h

theorem exists_classify {name : String} {entry : Entry γ} (h : R.classify name entry ≠ .error .raised) :
    ∃ c, R.classify name entry = .ok c := by
  cases hclass : R.classify name entry with
  | ok c => exact ⟨c, rfl⟩
  | error failure =>
    rw [classify_error hclass] at hclass
    exact absurd hclass h

/-- A validated backup is a directory. -/
theorem exists_directory {root : Root γ} {name : String} {sha : Sha} (h : R.revisionOf root name = some sha) :
    ∃ content, root.get? name = some (.directory content) := by
  obtain ⟨entry, hget, hvalid⟩ := Option.bind_eq_some_iff.1 h
  unfold validatedAs at hvalid
  split at hvalid
  · exact ⟨_, hget⟩
  · cases hvalid

section Cut

variable {start mid : Root γ} {done rest : List Candidate} {c : Candidate} {sha : Sha}

/-- Between two candidates nothing is lost. -/
theorem recovers_between (h : Ready R s (done ++ rest) start) :
    Recovers R s start (R.executeBackupPlan s untouched done start).root := by
  intro name content hdeletes _ hstands
  obtain ⟨-, sha, hd⟩ := deletes_iff.1 hdeletes
  have hex := execute_ready h
  obtain ⟨c, hc, rfl, hsafe, hrevision⟩ := (h.candidates name sha).1 hd
  rcases List.mem_append.1 hc with hc | hc
  · rw [hex.gone c hc hsafe] at hstands
    cases hstands
  · exact deletes_iff.2 ⟨hex.ready.plannable.exists_plan, sha,
      (hex.ready.candidates _ _).2 ⟨c, hc, rfl, hsafe, hrevision⟩⟩

/-- With the marker state valid after the cut, the others are deleted as before. -/
theorem deletes_leave (hready : Ready R s (c :: rest) mid) (hd : R.Deletable s mid c.name sha)
    (hrevision : c.revision = some sha) {left : Option γ}
    (hleft : ∀ content ∈ left, R.classify c.name (.directory content) ≠ .error .raised)
    (hstands : R.matchingMarker mid c = true → R.revisionOf (mid.leave c.name left) c.name = some sha)
    {name : String} {sha' : Sha} (hname : R.Deletable s mid name sha')
    (hrev : R.revisionOf (mid.leave c.name left) name = some sha') : Deletes R s (mid.leave c.name left) name := by
  have hdisturbed := disturbed_leave hd left
  have hplannable : Plannable R s (mid.leave c.name left) := by
    refine hready.plannable.disturbed hd hrevision hdisturbed (fun entry hentry => ?_) fun hmatch => ?_
    · rw [get?_leave_self left (backup_of_revisionOf hd.validated).1] at hentry
      obtain ⟨content, hcontent, rfl⟩ := Option.map_eq_some_iff.1 hentry
      exact exists_classify (hleft content hcontent)
    · apply hstands
      rw [← matchingMarker_congr (get?_leave_of_ne mid left (markerOf_ne hd.validated)), hmatch]
  exact deletes_iff.2 ⟨hplannable.exists_plan, sha',
    hd.disturbed hdisturbed.agreeBut hplannable.markers hname hrev⟩

theorem revisionOf_leave (hd : R.Deletable s mid c.name sha) (left : Option γ) :
    R.revisionOf (mid.leave c.name left) c.name =
      left.bind fun content => R.validatedAs c.name (.directory content) := by
  unfold revisionOf
  rw [get?_leave_self left (backup_of_revisionOf hd.validated).1]
  cases left <;> rfl

variable {left : Option γ}

/-- What is not reached before the cut is there as it was. -/
theorem get?_unreached (h : Ready R s (done ++ c :: rest) start) {c' : Candidate} (hc' : c' ∈ c :: rest)
    (hlatest : after "latest-" c'.name = none) :
    (R.executeBackupPlan s untouched done start).root.get? c'.name = start.get? c'.name := by
  refine (execute_ready h).kept c'.name (fun c'' hc'' _ heq => ?_) hlatest
  have hnodup := h.nodup
  rw [List.map_append, List.nodup_append] at hnodup
  exact hnodup.2.2 _ (List.mem_map.2 ⟨c'', hc'', rfl⟩) _ (List.mem_map.2 ⟨c', hc', rfl⟩) heq

theorem clean_of_recovers (h : Ready R s (done ++ c :: rest) start) (hsafe : c.classification = .safeToDelete)
    (hrecovers : Recovers R s start ((R.executeBackupPlan s untouched done start).root.leave c.name left)) :
    (Cut.removing done c rest left).Clean R s start := by
  have hex := execute_ready h
  obtain ⟨sha, hrevision, hd, -, -⟩ := hex.ready.deleted hsafe
  by_cases hrest : ∀ c' ∈ rest, c'.classification ≠ .safeToDelete
  · exact .inl hrest
  right
  -- a backup that is still to be deleted is deleted by the later run, which therefore makes a plan
  obtain ⟨c', hc', hsafe'⟩ : ∃ c' ∈ rest, c'.classification = .safeToDelete := by
    simpa using hrest
  obtain ⟨sha', hrevision'⟩ := hex.ready.revised c' (List.mem_cons_of_mem _ hc') hsafe'
  have hd' : R.Deletable s start c'.name sha' := (h.candidates _ _).2
    ⟨c', List.mem_append_right _ (List.mem_cons_of_mem _ hc'), rfl, hsafe', hrevision'⟩
  have hne : c'.name ≠ c.name := fun heq =>
    (List.nodup_cons.1 hex.ready.nodup).1 (List.mem_map.2 ⟨c', hc', heq⟩)
  obtain ⟨content, hcontent⟩ := exists_directory hd'.validated
  have hintact := (get?_leave_of_ne _ left hne).trans
    ((get?_unreached h (List.mem_cons_of_mem _ hc') (backup_of_revisionOf hd'.validated).2).trans hcontent)
  have hdeletes := deletes_iff.2 ⟨(h.plannable).exists_plan, sha', hd'⟩
  obtain ⟨⟨plan, hplan⟩, sha'', hd''⟩ := deletes_iff.1 (hrecovers _ content hdeletes hcontent hintact)
  refine ⟨fun left' hleft' hraised => ?_, fun hmatch => ?_⟩
  · have hget := get?_leave_self left (backup_of_revisionOf hd.validated).1
    rw [Option.mem_def.1 hleft', Option.map_some] at hget
    rw [Option.mem_def.1 hleft'] at hplan hd''
    obtain ⟨r, hr⟩ := (plannable_of_plan hplan hd''.markers).records (c.name, .directory left')
      (mem_named.2 ⟨hget, isSome_after_of_revisionOf hd.validated⟩)
    rw [hr] at hraised
    cases hraised
  · rw [hrevision, ← revisionOf_leave hd]
    apply (markersValid_iff hd hrevision (disturbed_leave hd left)).1 hd''.markers
    rw [matchingMarker_congr (get?_leave_of_ne _ left (markerOf_ne hd.validated)), hmatch]

theorem recovers_of_clean (h : Ready R s (done ++ c :: rest) start) (hsafe : c.classification = .safeToDelete)
    (hclean : (Cut.removing done c rest left).Clean R s start) :
    Recovers R s start ((R.executeBackupPlan s untouched done start).root.leave c.name left) := by
  have hex := execute_ready h
  obtain ⟨sha, hrevision, hd, -, -⟩ := hex.ready.deleted hsafe
  intro name content hdeletes hcontent hintact
  obtain ⟨-, sha', hd'⟩ := deletes_iff.1 hdeletes
  obtain ⟨c', hc', rfl, hsafe', hrevision'⟩ := (h.candidates name sha').1 hd'
  have hlatest := (backup_of_revisionOf hd'.validated).2
  rcases List.mem_append.1 hc' with hdone | hmem
  · -- removed before the cut
    have hgone := hex.gone c' hdone hsafe'
    have hne : c'.name ≠ c.name := by
      intro heq
      have hsome := (backup_of_revisionOf hd.validated).1
      rw [← heq, hgone] at hsome
      cases hsome
    rw [get?_leave_of_ne _ left hne, hgone] at hintact
    cases hintact
  have hmid : R.Deletable s (R.executeBackupPlan s untouched done start).root c'.name sha' :=
    (hex.ready.candidates _ _).2 ⟨c', hmem, rfl, hsafe', hrevision'⟩
  rcases List.mem_cons.1 hmem with rfl | hrest
  · -- the directory is as before its removal, so no marker of it is left behind
    rw [get?_leave_self left (backup_of_revisionOf hd.validated).1] at hintact
    obtain ⟨content', rfl, hcontent'⟩ := Option.map_eq_some_iff.1 hintact
    obtain rfl : content' = content := Entry.directory.inj hcontent'
    have hget := (get?_unreached h (List.mem_cons_self ..) hlatest).trans hcontent
    have hvalid : R.validatedAs c'.name (.directory content') = some sha := by
      have := hd.validated
      rwa [revisionOf, hget] at this
    have hrev : R.revisionOf ((R.executeBackupPlan s untouched done start).root.leave c'.name (some content'))
        c'.name = some sha := by rw [revisionOf_leave hd, Option.bind_some, hvalid]
    refine deletes_leave hex.ready hd hrevision (fun left hleft => ?_) (fun _ => hrev) hd hrev
    obtain rfl : content' = left := Option.some.inj hleft
    obtain ⟨r, hr⟩ := hex.ready.plannable.records (c'.name, .directory content')
      (mem_named.2 ⟨hget, isSome_after_of_revisionOf hd.validated⟩)
    rw [hr]
    intro hraised
    cases hraised
  · have hne : c'.name ≠ c.name := fun heq =>
      (List.nodup_cons.1 hex.ready.nodup).1 (List.mem_map.2 ⟨c', hrest, heq⟩)
    rcases hclean with hnone | ⟨hleft, hstands⟩
    · exact absurd hsafe' (hnone c' hrest)
    · refine deletes_leave hex.ready hd hrevision hleft (fun hmatch => ?_) hmid ?_
      · rw [revisionOf_leave hd, hstands hmatch, hrevision]
      · rw [(disturbed_leave hd left).agreeBut c'.name hne, hmid.validated]

end Cut

/-- For a backup root with a valid marker state and every point at which the execution of its plan is
cut off: a later run deletes what the uninterrupted one would have deleted and still stands intact,
exactly if the cut is not between the removal of a directory and that of the marker that names it, or
nothing more was to be deleted. -/
theorem recovers_iff {start : Root γ} {plan : RetentionPlan} (hplan : R.planValidatedBackups s start = .ok plan)
    (hmarkers : R.MarkersValid s start) {cut : Cut γ} (hcut : cut.Of plan) :
    Recovers R s start (cut.root R s start) ↔ cut.Clean R s start := by
  have hready := ready_of_plan hplan hmarkers
  cases cut with
  | between done rest =>
    have hof : plan.candidates = done ++ rest := hcut
    rw [hof] at hready
    exact ⟨fun _ => trivial, fun _ => recovers_between hready⟩
  | removing done c rest left =>
    obtain ⟨hof, hsafe⟩ := hcut
    rw [hof] at hready
    exact ⟨clean_of_recovers hready hsafe, recovers_of_clean hready hsafe⟩

end Reader

namespace Sample

def d : Sha := sha 'd' (by decide)

def ancient : String := "predeploy-20260831T010203Z-dddddddddddd"

/-- The three backups and an older one, which has no marker. -/
def older : Root (Option Sha) where
  entries := [(markerName a, marker oldest), (markerName b, marker middle), (markerName c, marker newest),
    (ancient, .directory (some d)), (oldest, .directory (some a)), (middle, .directory (some b)),
    (newest, .directory (some c))]
  nodup := by decide
  sorted := by decide

def ancientRecord : Candidate := ⟨ancient, .safeToDelete, "eligible", 10, 4096, some d⟩

def olderPlan : RetentionPlan := ⟨plan.candidates ++ [ancientRecord], 0, 0, 0⟩

theorem olderPlanned : reader.planValidatedBackups settings older = .ok olderPlan := by decide +kernel

theorem olderMarkers : reader.MarkersValid settings older := by
  obtain ⟨sha, -, hd⟩ := Reader.deletable_of_safe olderPlanned (c := ancientRecord) (by simp [olderPlan]) rfl
  exact hd.markers

/-- The directory of `aaa…` is removed, and its marker is not. -/
def afterDirectory : Cut (Option Sha) :=
  .removing (plan.candidates.take 2) record [ancientRecord] none

theorem afterDirectory_of : afterDirectory.Of olderPlan := ⟨rfl, rfl⟩

theorem afterDirectory_unclean : ¬ afterDirectory.Clean reader settings older := by
  rintro (hnone | ⟨-, hstands⟩)
  · exact hnone ancientRecord (List.mem_singleton_self _) rfl
  · have hmatch : reader.matchingMarker older record = true := by decide +kernel
    cases hstands hmatch

end Sample

open Sample in
theorem recovers_iff_sample :
    Reader.Recovers reader settings older (afterDirectory.root reader settings older) ↔
      afterDirectory.Clean reader settings older :=
  Reader.recovers_iff olderPlanned olderMarkers afterDirectory_of

open Sample in
/-- Cut off between a directory and its marker, the retention never deletes the older backup. -/
theorem marker_left_behind : reader.planValidatedBackups settings older = .ok olderPlan ∧
    reader.MarkersValid settings older ∧ afterDirectory.Of olderPlan ∧
    ¬ Reader.Recovers reader settings older (afterDirectory.root reader settings older) := by
  refine ⟨olderPlanned, olderMarkers, afterDirectory_of, fun hrecovers => afterDirectory_unclean ?_⟩
  have hready : Reader.Ready reader settings (plan.candidates.take 2 ++ record :: [ancientRecord]) older :=
    Reader.ready_of_plan olderPlanned olderMarkers
  exact Reader.clean_of_recovers hready rfl hrecovers

end Aibot.Retention
