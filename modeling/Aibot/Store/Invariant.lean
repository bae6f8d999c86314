/-
The invariant behind the store: what the path holds is the replay of the calls that took effect,
the call that holds the lock works on that document, and a reader's file never changes under it.
-/
import Aibot.Store.Steps

namespace Aibot.Store

open VersionedDocument Codec

variable {D χ ε ρ : Type*} [VersionedDocument D]

/-! ## The history -/

/-- The requests that took effect, in order. -/
def System.requests (s : System D χ ε ρ) : List (Request D ε ρ) := s.committed.map Commit.request

/-- The document of the committed calls; none is no file. -/
def System.stored (initial : Option D) (s : System D χ ε ρ) : Option D := replay initial s.requests

/-- The call took effect on the stored document it found, with its answer. -/
def Commit.Accepted (stored : Option D) (x : Commit D ε ρ) : Prop :=
  x.request.locks = true ∧
    ∃ written, x.request.compute (stored.getD x.request.fallback) = .ok (x.answer, written)

/-- What a call finds after some of the committed calls, those up to a point. -/
def System.Past (initial : Option D) (s : System D χ ε ρ) (r : Request D ε ρ) (d : D) : Prop :=
  ∃ before, before <+: s.requests ∧ d = (replay initial before).getD r.fallback

/-! ## Calls -/

/-- A call that takes the lock has it, was the last to take it, and has not taken effect. -/
def System.Holds (s : System D χ ε ρ) (c : Nat) (r : Request D ε ρ) : Prop :=
  r.locks = true → s.files.owner = some c ∧
    ∃ earlier, s.acquired = earlier ++ [c] ∧ (s.committed.map Commit.call).Sublist earlier

/-- A call that holds the lock and is to write `d`. -/
def System.Computed (initial : Option D) (s : System D χ ε ρ) (c : Nat) (r : Request D ε ρ)
    (a : Answer D ρ) (d : D) : Prop :=
  s.Holds c r ∧ r.locks = true ∧ r.compute ((s.stored initial).getD r.fallback) = .ok (a, some d)

/-- A reader's call never raises by itself. -/
theorem locks_of_error {r : Request D ε ρ} {d : D} {e : StoreError ε} (h : r.compute d = .error e) :
    r.locks = true := by
  cases r with
  | update | migrate => rfl
  | read => cases h

theorem locks_of_written {r : Request D ε ρ} {d d' : D} {a : Answer D ρ}
    (h : r.compute d = .ok (a, some d')) : r.locks = true := by
  cases r with
  | update | migrate => rfl
  | read => cases h

theorem replay_concat (initial : Option D) (rs : List (Request D ε ρ)) (r : Request D ε ρ) :
    replay initial (rs ++ [r]) = r.effect (replay initial rs) := by
  unfold replay
  rw [List.foldl_append]; rfl

theorem past_stored (initial : Option D) (s : System D χ ε ρ) (r : Request D ε ρ) :
    s.Past initial r ((s.stored initial).getD r.fallback) :=
  ⟨s.requests, List.prefix_rfl, rfl⟩

/-! ## The other calls -/

/-- What a step of the call `c` leaves to the others. -/
structure Frame (s s' : System D χ ε ρ) (c : Nat) : Prop where
  calls : ∀ c', c' ≠ c → s'.calls c' = s.calls c'
  /-- Under another call's lock, nothing of the document moves. -/
  held : ∀ c', c' ≠ c → s.files.owner = some c' → s'.files.owner = some c' ∧
    s'.files.path = s.files.path ∧ s'.files.data = s.files.data ∧
    s'.files.nextInode = s.files.nextInode ∧ s'.acquired = s.acquired ∧ s'.committed = s.committed
  committed : ∃ xs, s'.committed = s.committed ++ xs ∧ ∀ x ∈ xs, x.call = c
  acquired : ∀ c', c' ≠ c → c' ∉ s.acquired → c' ∉ s'.acquired
  /-- A file that `c` is not writing keeps its contents. -/
  data : ∀ i, i < s.files.nextInode →
    (∀ r a d todo, s.calls c ≠ some (r, .writing a d i todo)) → s'.files.data i = s.files.data i
  next : s.files.nextInode ≤ s'.files.nextInode

section Frame

variable {s s' : System D χ ε ρ} {c c' : Nat} {r : Request D ε ρ} {initial : Option D}

theorem Frame.requests (h : Frame s s' c) : s.requests <+: s'.requests := by
  obtain ⟨xs, hxs, -⟩ := h.committed
  unfold System.requests
  rw [hxs, List.map_append]
  exact List.prefix_append _ _

theorem Frame.past (h : Frame s s' c) {d : D} (hd : s.Past initial r d) : s'.Past initial r d := by
  obtain ⟨before, hb, hd⟩ := hd
  exact ⟨before, hb.trans h.requests, hd⟩

theorem Frame.notCommitted (h : Frame s s' c) (hne : c' ≠ c) (hc : c' ∉ s.committed.map Commit.call) :
    c' ∉ s'.committed.map Commit.call := by
  obtain ⟨xs, hxs, hcall⟩ := h.committed
  rw [hxs, List.map_append]
  intro hmem
  rcases List.mem_append.1 hmem with hmem | hmem
  · exact hc hmem
  · obtain ⟨x, hx, rfl⟩ := List.mem_map.1 hmem
    exact hne (hcall x hx)

theorem Frame.holds (h : Frame s s' c) (hne : c' ≠ c) (hc : s.Holds c' r) : s'.Holds c' r := by
  intro hl
  obtain ⟨ho, hacq⟩ := hc hl
  obtain ⟨ho', -, -, -, ha, hco⟩ := h.held c' hne ho
  rw [ha, hco]
  exact ⟨ho', hacq⟩

theorem Frame.stored (h : Frame s s' c) (hne : c' ≠ c) (ho : s.files.owner = some c') :
    s'.stored initial = s.stored initial := by
  unfold System.stored System.requests
  rw [(h.held c' hne ho).2.2.2.2.2]

theorem Frame.computed (h : Frame s s' c) (hne : c' ≠ c) {a : Answer D ρ} {d : D}
    (hc : s.Computed initial c' r a d) : s'.Computed initial c' r a d := by
  obtain ⟨hh, hl, hd⟩ := hc
  refine ⟨h.holds hne hh, hl, ?_⟩
  rw [h.stored hne (hh hl).1]; exact hd

theorem effect_written {stored : Option D} {d : D} {a : Answer D ρ}
    (h : r.compute (stored.getD r.fallback) = .ok (a, some d)) : r.effect stored = some d := by
  unfold Request.effect; rw [h]

theorem effect_kept {stored : Option D} {a : Answer D ρ}
    (h : r.compute (stored.getD r.fallback) = .ok (a, none)) : r.effect stored = stored := by
  unfold Request.effect; rw [h]

/-- The document of the committed calls, after one more. -/
theorem stored_concat {a : Answer D ρ} (hco : s'.committed = s.committed ++ [⟨c, r, a⟩]) :
    s'.stored initial = r.effect (s.stored initial) := by
  unfold System.stored System.requests
  rw [hco, List.map_append]
  exact replay_concat ..

theorem stored_same (hco : s'.committed = s.committed) : s'.stored initial = s.stored initial := by
  unfold System.stored System.requests; rw [hco]

/-- A call that takes effect has the lock, as the last to take it. -/
theorem order_concat (hh : s.Holds c r) (hl : r.locks = true) {a : Answer D ρ}
    (ha : s'.acquired = s.acquired) (hco : s'.committed = s.committed ++ [⟨c, r, a⟩]) :
    (s'.committed.map Commit.call).Sublist s'.acquired := by
  obtain ⟨-, earlier, he, hsub⟩ := hh hl
  rw [ha, hco, he, List.map_append]
  exact hsub.append (List.Sublist.refl _)

theorem System.Past.congr {d : D} (h : s.Past initial r d) (hco : s'.committed = s.committed) :
    s'.Past initial r d := by
  unfold System.Past System.requests at *; rw [hco]; exact h

theorem System.Holds.congr (h : s.Holds c r) (ho : s'.files.owner = s.files.owner)
    (ha : s'.acquired = s.acquired) (hco : s'.committed = s.committed) : s'.Holds c r := by
  unfold System.Holds at *; rw [ho, ha, hco]; exact h

theorem System.Computed.congr {a : Answer D ρ} {d : D} (h : s.Computed initial c r a d)
    (ho : s'.files.owner = s.files.owner) (ha : s'.acquired = s.acquired)
    (hco : s'.committed = s.committed) : s'.Computed initial c r a d :=
  ⟨h.1.congr ho ha hco, h.2.1, by rw [stored_same hco]; exact h.2.2⟩

end Frame

/-! ## The invariant -/

variable [Codec D χ]

/-- What the outcome of a call says. -/
def OutcomeInv (initial : Option D) (s : System D χ ε ρ) (c : Nat) (r : Request D ε ρ) :
    Outcome D ε ρ → Prop
  | .returned a =>
    if r.locks then ⟨c, r, a⟩ ∈ s.committed else ∃ d, a = .document d ∧ s.Past initial r d
  | .refused e => c ∉ s.committed.map Commit.call ∧ ∃ d, s.Past initial r d ∧ r.compute d = .error e
  | .notSerializable =>
    c ∉ s.committed.map Commit.call ∧
      ∃ d a d', s.Past initial r d ∧ r.compute d = .ok (a, some d') ∧ (dump d').2 = false
  | .lockTimeout => c ∉ s.acquired
  | .failed => True

/-- What holds of a call in each phase. -/
def CallInv (initial : Option D) (s : System D χ ε ρ) (c : Nat) (r : Request D ε ρ) :
    Phase D χ ε ρ → Prop
  | .waiting => r.locks = true ∧ c ∉ s.acquired
  | .opening => s.Holds c r
  | .reading i got => s.Holds c r ∧ i < s.files.nextInode ∧ got <+: s.files.data i ∧
      (∃ d before, load (s.files.data i) = some d ∧ before <+: s.requests ∧ replay initial before = some d) ∧
      (r.locks = true → s.files.path = some i)
  | .loaded d => s.Holds c r ∧ s.Past initial r d ∧
      (r.locks = true → d = (s.stored initial).getD r.fallback)
  | .cleaning a d => s.Computed initial c r a d
  | .writing a d i todo => s.Computed initial c r a d ∧ s.files.data i ++ todo = (dump d).1 ∧
      i < s.files.nextInode ∧ s.files.path ≠ some i
  | .flushed a d i => s.Computed initial c r a d ∧ load (s.files.data i) = some d ∧
      i < s.files.nextInode
  | .unwinding _ o => s.Holds c r ∧ r.locks = true ∧ OutcomeInv initial s c r o
  | .leaving o => (r.locks = true → s.files.owner = some c) ∧ OutcomeInv initial s c r o
  | .ended o => OutcomeInv initial s c r o
  | .crashed => True

/-- The invariant of the system, on a path that held `initial`. -/
structure StoreInv (initial : Option D) (s : System D χ ε ρ) : Prop where
  content : s.files.path.map (fun i => load (s.files.data i)) = (s.stored initial).map some
  pathOld : ∀ i, s.files.path = some i → i < s.files.nextInode
  order : (s.committed.map Commit.call).Sublist s.acquired
  once : s.acquired.Nodup
  begun : ∀ c ∈ s.acquired, s.calls c ≠ none
  /-- No file is read and written at the same time. -/
  apart : ∀ c c' r r' i j got a d todo, s.calls c = some (r, .reading i got) →
    s.calls c' = some (r', .writing a d j todo) → i ≠ j
  accepted : ∀ before x after, s.committed = before ++ x :: after →
    x.Accepted (replay initial (before.map Commit.request))
  call : ∀ c r phase, s.calls c = some (r, phase) → CallInv initial s c r phase

/-! ## Holding the lock -/

/-- The phases inside the `with` block of the lock. -/
def Phase.inside : Phase D χ ε ρ → Bool
  | .waiting | .ended _ | .crashed => false
  | _ => true

/-- Mutual exclusion: a call inside its `with` block is the owner of the lock. -/
theorem owner_of_inside {initial : Option D} {s : System D χ ε ρ} {c : Nat} {r : Request D ε ρ}
    {phase : Phase D χ ε ρ} (h : CallInv initial s c r phase) (hin : phase.inside = true)
    (hl : r.locks = true) : s.files.owner = some c := by
  cases phase with
  | waiting | ended | crashed => cases hin
  | opening => exact (h hl).1
  | reading | loaded | unwinding => exact (h.1 hl).1
  | cleaning => exact (h.1 hl).1
  | writing | flushed => exact (h.1.1 hl).1
  | leaving => exact h.1 hl

theorem not_committed {initial : Option D} {s : System D χ ε ρ} (hs : StoreInv initial s) {c : Nat}
    {r : Request D ε ρ} (h : s.Holds c r) (hl : r.locks = true) : c ∉ s.committed.map Commit.call := by
  obtain ⟨-, earlier, he, hsub⟩ := h hl
  intro hc
  have hnd : (earlier ++ [c]).Nodup := he ▸ hs.once
  exact (List.nodup_append.1 hnd).2.2 c (hsub.subset hc) c (List.mem_singleton.2 rfl) rfl

/-! ## A step of another call -/

variable {s s' : System D χ ε ρ} {c c' : Nat} {r : Request D ε ρ} {initial : Option D}

theorem OutcomeInv.congr {o : Outcome D ε ρ} (h : OutcomeInv initial s c r o)
    (ha : s'.acquired = s.acquired) (hco : s'.committed = s.committed) : OutcomeInv initial s' c r o := by
  cases o <;> simp only [OutcomeInv, System.Past, System.requests] at h ⊢ <;>
    first | (rw [hco]; exact h) | (rw [ha]; exact h)

theorem Frame.outcome (h : Frame s s' c) (hne : c' ≠ c) {o : Outcome D ε ρ}
    (ho : OutcomeInv initial s c' r o) : OutcomeInv initial s' c' r o := by
  cases o with
  | returned a =>
    simp only [OutcomeInv] at ho ⊢
    split_ifs at ho ⊢ with hl
    · obtain ⟨xs, hxs, -⟩ := h.committed
      rw [hxs]
      exact List.mem_append_left _ ho
    · obtain ⟨d, ha, hd⟩ := ho
      exact ⟨d, ha, h.past hd⟩
  | refused e =>
    obtain ⟨hc, d, hd, he⟩ := ho
    exact ⟨h.notCommitted hne hc, d, h.past hd, he⟩
  | notSerializable =>
    obtain ⟨hc, d, a, d', hd, ha, hn⟩ := ho
    exact ⟨h.notCommitted hne hc, d, a, d', h.past hd, ha, hn⟩
  | lockTimeout => exact h.acquired c' hne ho
  | failed => trivial

/-- A step of one call keeps what holds of another. -/
theorem Frame.callInv (h : Frame s s' c) (hs : StoreInv initial s) (hne : c' ≠ c)
    {phase : Phase D χ ε ρ} (hc : s.calls c' = some (r, phase)) : CallInv initial s' c' r phase := by
  have hinv := hs.call c' r phase hc
  cases phase with
  | waiting => exact ⟨hinv.1, h.acquired c' hne hinv.2⟩
  | opening => exact h.holds hne hinv
  | reading i got =>
    obtain ⟨hh, hi, hgot, ⟨d, before, hd, hb, hr⟩, hp⟩ := hinv
    have hdata : s'.files.data i = s.files.data i :=
      h.data i hi fun r' a d' todo hw => hs.apart c' c r r' i i got a d' todo hc hw rfl
    refine ⟨h.holds hne hh, lt_of_lt_of_le hi h.next, by rw [hdata]; exact hgot,
      ⟨d, before, by rw [hdata]; exact hd, hb.trans h.requests, hr⟩, fun hl => ?_⟩
    rw [(h.held c' hne (hh hl).1).2.1]; exact hp hl
  | loaded d =>
    obtain ⟨hh, hd, hcur⟩ := hinv
    refine ⟨h.holds hne hh, h.past hd, fun hl => ?_⟩
    rw [h.stored hne (hh hl).1]; exact hcur hl
  | cleaning a d => exact h.computed hne hinv
  | writing a d i todo =>
    obtain ⟨hcomp, htodo, hi, hp⟩ := hinv
    obtain ⟨-, hpath, hdata, hnext, -, -⟩ := h.held c' hne (hcomp.1 hcomp.2.1).1
    rw [CallInv, hpath, hdata, hnext]
    exact ⟨h.computed hne hcomp, htodo, hi, hp⟩
  | flushed a d i =>
    obtain ⟨hcomp, hd, hi⟩ := hinv
    obtain ⟨-, -, hdata, hnext, -, -⟩ := h.held c' hne (hcomp.1 hcomp.2.1).1
    rw [CallInv, hdata, hnext]
    exact ⟨h.computed hne hcomp, hd, hi⟩
  | unwinding i o => exact ⟨h.holds hne hinv.1, hinv.2.1, h.outcome hne hinv.2.2⟩
  | leaving o => exact ⟨fun hl => (h.held c' hne (hinv.1 hl)).1, h.outcome hne hinv.2⟩
  | ended o => exact h.outcome hne hinv
  | crashed => trivial

end Aibot.Store
