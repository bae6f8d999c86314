/-
Every step of every call keeps the invariant: first what the step changes outside its call, then
what it makes of the call itself.
-/
import Aibot.Lib.Trace
import Aibot.Store.Invariant

namespace Aibot.Store

open VersionedDocument Codec

variable {D χ ε ρ : Type*} [VersionedDocument D] [Codec D χ]

/-! ## What a step changes outside its call -/

/-- The ways a step of the call `c` changes the files and the history. -/
inductive Change (s : System D χ ε ρ) (c : Nat) (r : Request D ε ρ) (s' : System D χ ε ρ) :
    Phase D χ ε ρ → Prop
  /-- Nothing changes, or `c` leaves its lock. -/
  | same {phase : Phase D χ ε ρ} : s'.files.path = s.files.path → s'.files.data = s.files.data →
      s'.files.nextInode = s.files.nextInode →
      (s'.files.owner = s.files.owner ∨ s'.files.owner = (s.files.unlock c).owner) →
      s'.acquired = s.acquired → s'.committed = s.committed → Change s c r s' phase
  | acquires : s.files.owner = none → s'.files = { s.files with owner := some c } →
      s'.acquired = s.acquired ++ [c] → s'.committed = s.committed → Change s c r s' .waiting
  | creates {a : Answer D ρ} {d : D} {stale : List Nat} : s'.files = s.files.createTemporary stale →
      s'.acquired = s.acquired → s'.committed = s.committed → Change s c r s' (.cleaning a d)
  | writes {a : Answer D ρ} {d : D} {i : Nat} {x : χ} {todo : List χ} : s'.files = s.files.append i x →
      s'.acquired = s.acquired → s'.committed = s.committed → Change s c r s' (.writing a d i (x :: todo))
  | replaces {a : Answer D ρ} {d : D} {i : Nat} : s'.files = s.files.replace i →
      s'.acquired = s.acquired → s'.committed = s.committed ++ [⟨c, r, a⟩] →
      Change s c r s' (.flushed a d i)
  /-- A migration that changes nothing takes effect. -/
  | keeps {d : D} {a : Answer D ρ} : r.locks = true → r.compute d = .ok (a, none) →
      s'.files = s.files → s'.acquired = s.acquired → s'.committed = s.committed ++ [⟨c, r, a⟩] →
      Change s c r s' (.loaded d)

theorem CallStep.change {s : System D χ ε ρ} {c : Nat} {r : Request D ε ρ} {f' : Files χ}
    {phase phase' : Phase D χ ε ρ} {event : CallEvent} {effect : Option (Answer D ρ)}
    (h : CallStep c r s.files phase event f' phase' effect) :
    Change s c r (s.after c r event f' phase' effect) phase := by
  cases h with
  | acquires hfree => exact .acquires hfree rfl rfl (List.append_nil _)
  | creates => exact .creates rfl rfl (List.append_nil _)
  | writes => exact .writes rfl rfl (List.append_nil _)
  | replaces => exact .replaces rfl rfl rfl
  | @keeps d a hd =>
    by_cases hl : r.locks = true
    · rw [if_pos hl]; exact .keeps hl hd rfl rfl rfl
    · rw [if_neg hl]; exact .same rfl rfl rfl (.inl rfl) rfl (List.append_nil _)
  | releases | releaseRaises | crashes => exact .same rfl rfl rfl (.inr rfl) rfl (List.append_nil _)
  | timesOut | findsNothing | opens | reads | loads | rejects | refuses | computes | flushes
  | dumpRaises | unlinks | raises => exact .same rfl rfl rfl (.inl rfl) rfl (List.append_nil _)

section Step

variable {s s' : System D χ ε ρ} {c : Nat} {r : Request D ε ρ} {phase phase' : Phase D χ ε ρ}
  {initial : Option D}

/-- The owner after a call left the lock that another one holds. -/
theorem unlock_owner_of_ne (f : Files χ) {c c' : Nat} (hne : c' ≠ c) (h : f.owner = some c') :
    (f.unlock c).owner = some c' := by
  unfold Files.unlock
  rw [h]
  have : ¬ (some c' = some c) := fun he => hne (Option.some.inj he)
  simp [this]

theorem Change.frame (h : Change s c r s' phase) (hs : StoreInv initial s)
    (hc : s.calls c = some (r, phase)) (hcalls : s'.calls = Function.update s.calls c (some (r, phase'))) :
    Frame s s' c := by
  have hinv := hs.call c r phase hc
  have hothers : ∀ c', c' ≠ c → s'.calls c' = s.calls c' := by
    intro c' hne
    rw [hcalls]; exact Function.update_of_ne hne ..
  -- a step that needs the lock: no other call holds it
  have hmine : s.files.owner = some c → ∀ c', c' ≠ c → s.files.owner = some c' → False := by
    intro ho c' hne ho'
    rw [ho] at ho'
    exact hne (Option.some.inj ho').symm
  cases h with
  | same hp hd hn ho ha hco =>
    refine ⟨hothers, fun c' hne ho' => ⟨?_, hp, hd, hn, ha, hco⟩, ⟨[], by rw [hco]; simp, by simp⟩,
      fun c' _ hc' => by rw [ha]; exact hc', fun i _ _ => by rw [hd], by rw [hn]⟩
    rcases ho with ho | ho
    · rw [ho]; exact ho'
    · rw [ho]; exact unlock_owner_of_ne _ hne ho'
  | acquires hfree hf ha hco =>
    refine ⟨hothers, fun c' _ ho => ?_, ⟨[], by rw [hco]; simp, by simp⟩, fun c' hne hc' => ?_,
      fun i _ _ => by rw [hf], by rw [hf]⟩
    · rw [hfree] at ho; cases ho
    · rw [ha]; simp [hc', hne]
  | creates hf ha hco =>
    have ho := (hinv.1 hinv.2.1).1
    refine ⟨hothers, fun c' hne ho' => (hmine ho c' hne ho').elim, ⟨[], by rw [hco]; simp, by simp⟩,
      fun c' _ hc' => by rw [ha]; exact hc', fun i hi _ => ?_, ?_⟩
    · rw [hf]
      exact Function.update_of_ne (by omega) ..
    · rw [hf]; show s.files.nextInode ≤ s.files.nextInode + 1; omega
  | @writes a d i x todo hf ha hco =>
    have ho := (hinv.1.1 hinv.1.2.1).1
    refine ⟨hothers, fun c' hne ho' => (hmine ho c' hne ho').elim, ⟨[], by rw [hco]; simp, by simp⟩,
      fun c' _ hc' => by rw [ha]; exact hc', fun j _ hw => ?_, by rw [hf]; rfl⟩
    rw [hf]
    refine Function.update_of_ne ?_ ..
    rintro rfl
    exact hw r a d (x :: todo) hc
  | replaces hf ha hco =>
    have ho := (hinv.1.1 hinv.1.2.1).1
    exact ⟨hothers, fun c' hne ho' => (hmine ho c' hne ho').elim, ⟨_, hco, by simp⟩,
      fun c' _ hc' => by rw [ha]; exact hc', fun i _ _ => by rw [hf]; rfl, by rw [hf]; rfl⟩
  | keeps hl _ hf ha hco =>
    have ho := (hinv.1 hl).1
    exact ⟨hothers, fun c' hne ho' => (hmine ho c' hne ho').elim, ⟨_, hco, by simp⟩,
      fun c' _ hc' => by rw [ha]; exact hc', fun i _ _ => by rw [hf], by rw [hf]⟩

theorem Change.content (h : Change s c r s' phase) (hs : StoreInv initial s)
    (hc : s.calls c = some (r, phase)) :
    s'.files.path.map (fun i => load (s'.files.data i)) = (s'.stored initial).map some := by
  have hinv := hs.call c r phase hc
  cases h with
  | same hp hd _ _ _ hco => rw [hp, hd, stored_same hco]; exact hs.content
  | acquires _ hf _ hco => rw [hf, stored_same hco]; exact hs.content
  | creates hf _ hco =>
    rw [hf, stored_same hco, ← hs.content]
    refine Option.map_congr fun i hi => ?_
    have hlt := hs.pathOld i hi
    exact congrArg load (Function.update_of_ne (by omega) ..)
  | @writes a d j x todo hf _ hco =>
    rw [hf, stored_same hco, ← hs.content]
    refine Option.map_congr fun i hi => congrArg load (Function.update_of_ne ?_ ..)
    rintro rfl
    exact hinv.2.2.2 hi
  | replaces hf _ hco =>
    rw [hf, stored_concat hco, effect_written hinv.1.2.2]
    exact congrArg some hinv.2.1
  | keeps hl hd hf _ hco =>
    rw [hinv.2.2 hl] at hd
    rw [hf, stored_concat hco, effect_kept hd]
    exact hs.content

theorem Change.pathOld (h : Change s c r s' phase) (hs : StoreInv initial s)
    (hc : s.calls c = some (r, phase)) :
    ∀ i, s'.files.path = some i → i < s'.files.nextInode := by
  have hinv := hs.call c r phase hc
  intro i hi
  cases h with
  | same hp _ hn => rw [hp] at hi; rw [hn]; exact hs.pathOld i hi
  | acquires _ hf => rw [hf] at hi ⊢; exact hs.pathOld i hi
  | creates hf =>
    rw [hf] at hi ⊢
    have := hs.pathOld i hi
    show i < s.files.nextInode + 1
    omega
  | writes hf => rw [hf] at hi ⊢; exact hs.pathOld i hi
  | replaces hf =>
    rw [hf] at hi ⊢
    obtain rfl := Option.some.inj hi
    exact hinv.2.2
  | keeps _ _ hf => rw [hf] at hi ⊢; exact hs.pathOld i hi

theorem Change.order (h : Change s c r s' phase) (hs : StoreInv initial s)
    (hc : s.calls c = some (r, phase)) : (s'.committed.map Commit.call).Sublist s'.acquired := by
  have hinv := hs.call c r phase hc
  cases h with
  | same _ _ _ _ ha hco => rw [ha, hco]; exact hs.order
  | acquires _ _ ha hco => rw [ha, hco]; exact hs.order.trans (List.sublist_append_left _ _)
  | creates _ ha hco => rw [ha, hco]; exact hs.order
  | writes _ ha hco => rw [ha, hco]; exact hs.order
  | replaces _ ha hco => exact order_concat hinv.1.1 hinv.1.2.1 ha hco
  | keeps hl _ _ ha hco => exact order_concat hinv.1 hl ha hco

theorem Change.once (h : Change s c r s' phase) (hs : StoreInv initial s)
    (hc : s.calls c = some (r, phase)) : s'.acquired.Nodup := by
  cases h with
  | same _ _ _ _ ha => rw [ha]; exact hs.once
  | acquires _ _ ha =>
    have hnew : c ∉ s.acquired := (hs.call c r _ hc).2
    rw [ha]
    refine List.nodup_append.2 ⟨hs.once, List.nodup_singleton c, fun a hac b hb => ?_⟩
    rintro rfl
    exact hnew (List.mem_singleton.1 hb ▸ hac)
  | creates _ ha | writes _ ha | replaces _ ha | keeps _ _ _ ha => rw [ha]; exact hs.once

theorem Change.begun (h : Change s c r s' phase) (hs : StoreInv initial s)
    (hcalls : s'.calls = Function.update s.calls c (some (r, phase'))) :
    ∀ c' ∈ s'.acquired, s'.calls c' ≠ none := by
  intro c' hc'
  rw [hcalls]
  by_cases hne : c' = c
  · subst hne; simp
  · rw [Function.update_of_ne hne]
    refine hs.begun c' ?_
    cases h with
    | same _ _ _ _ ha => rw [← ha]; exact hc'
    | acquires _ _ ha =>
      rw [ha] at hc'
      rcases List.mem_append.1 hc' with hc' | hc'
      · exact hc'
      · exact absurd (List.mem_singleton.1 hc') hne
    | creates _ ha | writes _ ha | replaces _ ha | keeps _ _ _ ha => rw [← ha]; exact hc'

/-- One more accepted call at the end of the history. -/
theorem accepted_concat (hs : StoreInv initial s) {x : Commit D ε ρ}
    (hco : s'.committed = s.committed ++ [x]) (hx : x.Accepted (s.stored initial)) :
    ∀ before y after, s'.committed = before ++ y :: after →
      y.Accepted (replay initial (before.map Commit.request)) := by
  intro before y after he
  rw [hco] at he
  rcases split_concat he with ⟨rfl, rfl, -⟩ | ⟨after', -, he⟩
  · exact hx
  · exact hs.accepted before y after' he

theorem Change.accepted (h : Change s c r s' phase) (hs : StoreInv initial s)
    (hc : s.calls c = some (r, phase)) :
    ∀ before x after, s'.committed = before ++ x :: after →
      x.Accepted (replay initial (before.map Commit.request)) := by
  have hinv := hs.call c r phase hc
  cases h with
  | same _ _ _ _ _ hco | acquires _ _ _ hco | creates _ _ hco | writes _ _ hco =>
    rw [hco]; exact hs.accepted
  | replaces _ _ hco => exact accepted_concat hs hco ⟨hinv.1.2.1, _, hinv.1.2.2⟩
  | keeps hl hd _ _ hco =>
    rw [hinv.2.2 hl] at hd
    exact accepted_concat hs hco ⟨hl, _, hd⟩

/-! ## What a step makes of its own call -/

/-- A call that finds no file finds that nothing was committed. -/
theorem StoreInv.stored_of_missing (hs : StoreInv initial s) (hp : s.files.path = none) :
    s.stored initial = none := by
  have hcont := hs.content
  rw [hp] at hcont
  exact Option.map_eq_none_iff.1 hcont.symm

/-- A call that finds a file finds the document of the committed calls in it. -/
theorem StoreInv.stored_of_path (hs : StoreInv initial s) {i : Nat} (hp : s.files.path = some i) :
    ∃ d, load (s.files.data i) = some d ∧ s.stored initial = some d := by
  have hcont := hs.content
  rw [hp] at hcont
  obtain ⟨d, hd, hload⟩ := Option.map_eq_some_iff.1 hcont.symm
  exact ⟨d, hload.symm, hd⟩

/-- What is left to run after an exception still holds the lock, and answers nothing. -/
theorem Raises.callInv (h : Raises phase phase') (hinv : CallInv initial s c r phase)
    (ho : s'.files.owner = s.files.owner) (ha : s'.acquired = s.acquired)
    (hco : s'.committed = s.committed) : CallInv initial s' c r phase' := by
  have hleave : s.Holds c r → CallInv initial s' c r (.leaving .failed) :=
    fun hh => ⟨fun hl => ((hh.congr ho ha hco) hl).1, trivial⟩
  cases h with
  | waiting => trivial
  | opening => exact hleave hinv
  | reading | loaded | cleaning | unwinding => exact hleave hinv.1
  | writing | flushed => exact ⟨hinv.1.1.congr ho ha hco, hinv.1.2.1, trivial⟩

theorem CallStep.callInv {event : CallEvent} {f' : Files χ} {effect : Option (Answer D ρ)}
    (h : CallStep c r s.files phase event f' phase' effect) (hs : StoreInv initial s)
    (hc : s.calls c = some (r, phase)) :
    CallInv initial (s.after c r event f' phase' effect) c r phase' := by
  have hinv := hs.call c r phase hc
  cases h with
  | acquires hfree =>
    intro _
    exact ⟨rfl, s.acquired, rfl, by simpa [System.after] using hs.order⟩
  | timesOut => exact hinv.2
  | findsNothing hp =>
    have hd : r.fallback = (s.stored initial).getD r.fallback := by rw [hs.stored_of_missing hp]; rfl
    refine ⟨hinv.congr rfl rfl (List.append_nil _), ?_, fun _ => ?_⟩
    · rw [hd]
      exact (past_stored initial s r).congr (List.append_nil _)
    · rw [stored_same (List.append_nil _)]
      exact hd
  | @opens i hp =>
    refine ⟨hinv.congr rfl rfl (List.append_nil _), hs.pathOld i hp, List.nil_prefix, ?_, fun _ => hp⟩
    obtain ⟨d, hload, hd⟩ := hs.stored_of_path hp
    exact ⟨d, s.requests, hload, by simp [System.after, System.requests], hd⟩
  | @reads i got x hx =>
    obtain ⟨hh, hi, hgot, ⟨d, before, hd, hb, hr⟩, hp⟩ := hinv
    exact ⟨hh.congr rfl rfl (List.append_nil _), hi, prefix_next hgot hx,
      ⟨d, before, hd, by simpa [System.after, System.requests] using hb, hr⟩, hp⟩
  | @loads i got d hlen hload =>
    obtain ⟨hh, hi, hgot, ⟨d', before, hd, hb, hr⟩, hp⟩ := hinv
    have hall : got = s.files.data i := hgot.eq_of_length hlen
    rw [hall, hd] at hload
    obtain rfl := Option.some.inj hload
    refine ⟨hh.congr rfl rfl (List.append_nil _), ?_, fun hl => ?_⟩
    · exact ⟨before, by simpa [System.after, System.requests] using hb, by rw [hr]; rfl⟩
    · -- under the lock the path still names the file that was read
      obtain ⟨d'', hd'', hstored⟩ := hs.stored_of_path (hp hl)
      rw [hd] at hd''
      rw [stored_same (List.append_nil _), hstored]
      exact Option.some.inj hd''
  | rejects hlen hload =>
    obtain ⟨hh, -, hgot, ⟨d', before, hd, -, -⟩, -⟩ := hinv
    exact ⟨fun hl => (hh hl).1, trivial⟩
  | @refuses d e he =>
    refine ⟨fun hl => (hinv.1 hl).1, ?_, d, hinv.2.1.congr (List.append_nil _), he⟩
    have := not_committed hs hinv.1 (locks_of_error he)
    simpa [System.after] using this
  | @keeps d a hd =>
    refine ⟨fun hl => (hinv.1 hl).1, ?_⟩
    simp only [OutcomeInv]
    split_ifs with hl
    · simp [System.after]
    · refine ⟨d, ?_, hinv.2.1.congr (by simp [System.after])⟩
      cases r with
      | update | migrate => exact absurd rfl hl
      | read => cases hd; rfl
  | @computes d d' a hd =>
    have hl := locks_of_written hd
    refine ⟨hinv.1.congr rfl rfl (List.append_nil _), hl, ?_⟩
    rw [stored_same (List.append_nil _), ← hinv.2.2 hl]
    exact hd
  | @creates a d stale =>
    refine ⟨hinv.congr rfl rfl (List.append_nil _), ?_, Nat.lt_succ_self _, fun hp => ?_⟩
    · simp [System.after, Files.createTemporary]
    · exact absurd (hs.pathOld _ hp) (lt_irrefl _)
  | @writes a d i x todo =>
    obtain ⟨hcomp, htodo, hi, hp⟩ := hinv
    refine ⟨hcomp.congr rfl rfl (List.append_nil _), ?_, hi, hp⟩
    simpa [System.after, Files.append] using htodo
  | @flushes a d i hd =>
    obtain ⟨hcomp, htodo, hi, -⟩ := hinv
    rw [List.append_nil] at htodo
    refine ⟨hcomp.congr rfl rfl (List.append_nil _), ?_, hi⟩
    show load (s.files.data i) = some d
    rw [htodo]
    exact load_dump d hd
  | @dumpRaises a d i hd =>
    obtain ⟨hcomp, -, -, -⟩ := hinv
    refine ⟨hcomp.1.congr rfl rfl (List.append_nil _), hcomp.2.1, ?_, ?_⟩
    · have := not_committed hs hcomp.1 hcomp.2.1
      simpa [System.after] using this
    · exact ⟨_, a, d, (past_stored initial s r).congr (List.append_nil _), hcomp.2.2, hd⟩
  | @replaces a d i =>
    refine ⟨fun hl => (hinv.1.1 hl).1, ?_⟩
    simp only [OutcomeInv]
    rw [if_pos hinv.1.2.1]
    simp [System.after]
  | unlinks => exact ⟨fun hl => (hinv.1 hl).1, hinv.2.2.congr rfl (List.append_nil _)⟩
  | releases => exact hinv.2.congr rfl (List.append_nil _)
  | raises hr => exact hr.callInv hinv rfl rfl (List.append_nil _)
  | releaseRaises => trivial
  | crashes => trivial

/-- No file is read and written at the same time: a call writes its own new file, and a reader opens
the one at the path. -/
theorem CallStep.apart {event : CallEvent} {f' : Files χ} {effect : Option (Answer D ρ)}
    (h : CallStep c r s.files phase event f' phase' effect) (hs : StoreInv initial s)
    (hc : s.calls c = some (r, phase)) (hframe : Frame s (s.after c r event f' phase' effect) c) :
    ∀ c₁ c₂ r₁ r₂ i j got a d todo,
      (s.after c r event f' phase' effect).calls c₁ = some (r₁, .reading i got) →
      (s.after c r event f' phase' effect).calls c₂ = some (r₂, .writing a d j todo) → i ≠ j := by
  intro c₁ c₂ r₁ r₂ i j got a d todo h₁ h₂
  have hself := after_calls_self s c r event f' phase' effect
  by_cases e₁ : c₁ = c <;> by_cases e₂ : c₂ = c
  · subst e₁ e₂
    rw [h₁] at h₂; cases h₂
  · -- this call reads on, or has just opened the path
    subst e₁
    rw [hframe.calls c₂ e₂] at h₂
    rw [hself] at h₁
    cases h₁
    cases h with
    | opens hp =>
      rintro rfl
      exact (hs.call c₂ r₂ _ h₂).2.2.2 hp
    | reads => exact hs.apart _ _ _ _ _ _ _ _ _ _ hc h₂
    | raises hr => cases hr
  · -- this call writes on, or has just created its file
    subst e₂
    rw [hframe.calls c₁ e₁] at h₁
    rw [hself] at h₂
    cases h₂
    cases h with
    | creates =>
      have hi := (hs.call c₁ r₁ _ h₁).2.1
      omega
    | writes => exact hs.apart _ _ _ _ _ _ _ _ _ _ h₁ hc
    | raises hr => cases hr
  · rw [hframe.calls c₁ e₁] at h₁
    rw [hframe.calls c₂ e₂] at h₂
    exact hs.apart _ _ _ _ _ _ _ _ _ _ h₁ h₂

theorem CallStep.storeInv {event : CallEvent} {f' : Files χ} {effect : Option (Answer D ρ)}
    (h : CallStep c r s.files phase event f' phase' effect) (hs : StoreInv initial s)
    (hc : s.calls c = some (r, phase)) : StoreInv initial (s.after c r event f' phase' effect) := by
  have hch := h.change
  have hframe := hch.frame hs hc rfl
  refine ⟨hch.content hs hc, hch.pathOld hs hc, hch.order hs hc, hch.once hs hc, hch.begun hs rfl,
    h.apart hs hc hframe, hch.accepted hs hc, fun c' r' phase₁ hc' => ?_⟩
  by_cases hne : c' = c
  · subst hne
    rw [after_calls_self] at hc'
    cases hc'
    exact h.callInv hs hc
  · rw [hframe.calls c' hne] at hc'
    exact hframe.callInv hs hne hc'

theorem enter_storeInv (hs : StoreInv initial s) (hc : s.calls c = none) :
    StoreInv initial (s.enter c r) := by
  refine ⟨hs.content, hs.pathOld, hs.order, hs.once, fun c' hc' => ?_, ?_, hs.accepted, ?_⟩
  · by_cases hne : c' = c
    · subst hne; simp
    · rw [enter_calls_of_ne s r hne]; exact hs.begun c' hc'
  · intro c₁ c₂ r₁ r₂ i j got a d todo h₁ h₂
    rcases enter_calls h₁ with ⟨-, -, h⟩ | ⟨-, h₁⟩
    · split_ifs at h
    rcases enter_calls h₂ with ⟨-, -, h⟩ | ⟨-, h₂⟩
    · split_ifs at h
    exact hs.apart _ _ _ _ _ _ _ _ _ _ h₁ h₂
  · intro c' r' phase₁ h
    rcases enter_calls h with ⟨rfl, rfl, rfl⟩ | ⟨hne, h⟩
    · split_ifs with hl
      · exact ⟨hl, fun hacq => hs.begun c' hacq hc⟩
      · exact fun hl' => absurd hl' hl
    · have hinv := hs.call c' r' phase₁ h
      cases phase₁ <;> exact hinv

theorem storeInv_step {act : StoreAct D ε ρ} (hs : StoreInv initial s) (h : s.step act = some s') :
    StoreInv initial s' := by
  cases act with
  | begins c r =>
    simp only [System.step] at h
    split at h
    · rename_i hc
      cases h
      exact enter_storeInv hs hc
    · cases h
  | happens c event =>
    simp only [System.step] at h
    split at h
    · cases h
    · rename_i r phase hc
      obtain ⟨⟨f', phase', effect⟩, hstep, rfl⟩ := Option.map_eq_some_iff.1 h
      exact (stepCall_cases hstep).storeInv hs hc

end Step

theorem storeInv_start {content : Option (List χ)} {initial : Option D}
    (hstored : content.map load = initial.map some) :
    StoreInv initial (System.start content : System D χ ε ρ) := by
  refine ⟨?_, ?_, List.Sublist.slnil, List.nodup_nil, ?_, ?_, ?_, ?_⟩
  · show (content.map fun _ => 0).map (fun _ => load (content.getD [])) = initial.map some
    rw [← hstored]
    cases content <;> rfl
  · intro i hi
    obtain ⟨_, -, rfl⟩ := Option.map_eq_some_iff.1 hi
    exact Nat.zero_lt_one
  · intro c hc; cases hc
  · intro c₁ c₂ r₁ r₂ i j got a d todo h; cases h
  · intro before x after h
    exact absurd (List.append_eq_nil_iff.1 h.symm).2 (List.cons_ne_nil _ _)
  · intro c r phase h; cases h

end Aibot.Store
