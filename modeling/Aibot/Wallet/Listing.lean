/-
The list of active wallets over whole runs. A refresh, a replenishment and the replacement of a
cooled-down wallet read the two documents and the candidates, and write the list, in steps of their
own, while the calls of the performance document start and end cool-downs. Where a pass writes what
it read before no replacement that concerns it, no wallet that cools down stays listed.
-/
import Aibot.Lib.Run
import Aibot.Wallet.Feeder

namespace Aibot.Wallet

open Risk (IsoTime)

/-! ## The system -/

/-- What `_cooldown_and_replace` has done to the list. -/
structure Replacement where
  wallet : Address
  replacement : Option Address
  deriving DecidableEq, Repr

/-- What the RPC has found in a refresh. -/
structure Network where
  discovered : List Address
  replies : Replies

/-- The performance document that a task has read, and how many replacements there had been when it
began to read. -/
structure Snapshot where
  performance : Performance
  mark : Nat

/-- A call under way, by what it has read. `listMark` is the number of replacements that were made
when the list was read. -/
inductive Task
  /-- `_cooldown_and_replace`, of a wallet whose cool-down has started. -/
  | cooling (wallet : Address)
  | replacing (wallet : Address) (read : Snapshot)
  | choosing (wallet : Address) (read : Snapshot) (candidates : List WalletScore)
  /-- `refresh`. -/
  | refreshing (read : Snapshot)
  | discovering (read : Snapshot) (existing : List WalletScore)
  | merging (read : Snapshot) (existing : List WalletScore) (incumbents : List Address) (listMark : Nat)
      (discovered : List Address)
  | evaluating (read : Snapshot) (existing : List WalletScore) (candidates : List Address) (listMark : Nat)
  | saving (read : Snapshot) (qualified selected : List WalletScore) (listMark : Nat)
  | listing (read : Snapshot) (selected : List WalletScore) (listMark : Nat)
  /-- `replenish_from_candidate_cache`. -/
  | replenishing (document : WalletList) (listMark : Nat)
  | pooling (read : Snapshot) (document : WalletList) (listMark : Nat)
  | filling (read : Snapshot) (document : WalletList) (listMark : Nat) (candidates : List WalletScore)

/-- The wallet that is still to be taken out. -/
def Task.cools : Task → Option Address
  | .cooling wallet => some wallet
  | .replacing wallet _ => some wallet
  | .choosing wallet _ _ => some wallet
  | _ => none

/-- What the task has read of the performance document. -/
def Task.read? : Task → Option Snapshot
  | .cooling _ => none
  | .replacing _ read => some read
  | .choosing _ read _ => some read
  | .refreshing read => some read
  | .discovering read _ => some read
  | .merging read _ _ _ _ => some read
  | .evaluating read _ _ _ => some read
  | .saving read _ _ _ => some read
  | .listing read _ _ => some read
  | .replenishing _ _ => none
  | .pooling read _ _ => some read
  | .filling read _ _ _ => some read

/-- What a replacement that is about to choose has read. -/
def Task.chooses? : Task → Option Snapshot
  | .choosing _ read _ => some read
  | _ => none

/-- The list that a pass is about to write, and how many replacements it has read. -/
def Task.writes? {ρ : Type*} [LinearOrder ρ] (scoreRank : WalletScore → ρ) (settings : FeederSettings) :
    Task → Option (Snapshot × List WalletScore × Nat)
  | .listing read selected listMark =>
    if selected = [] then none else some (read, selected.take settings.maxWallets, listMark)
  | .filling read document listMark candidates =>
    let rows := keptRows document read.performance
    let selected := replenished scoreRank settings document read.performance candidates
    if selected ≠ rows ∨ rows.length ≠ document.count then some (read, selected, listMark) else none
  | _ => none

structure Feeder where
  performance : Performance
  list : WalletList
  candidates : List WalletScore
  tasks : Nat → Option Task
  /-- The replacements so far. -/
  replaced : List Replacement

inductive FeederAct
  /-- A call that writes one row; task `id` replaces the wallet where the call cools it down. -/
  | write (id : Nat) (op : RowOp) (wallet : Address) (now : Int)
  /-- The status write of a recovery. -/
  | restore (wallet : Address) (completedAt : IsoTime)
  | beginRefresh (id : Nat)
  | beginReplenish (id : Nat)
  | advance (id : Nat) (network : Network)
  /-- A refresh or a replenishment raises. -/
  | abort (id : Nat)

/-- The task of an act. -/
def FeederAct.id : FeederAct → Option Nat
  | .write id _ _ _ => some id
  | .restore _ _ => none
  | .beginRefresh id => some id
  | .beginReplenish id => some id
  | .advance id _ => some id
  | .abort id => some id

namespace Feeder

/-- Any documents, and no task. -/
def initial (performance : Performance) (list : WalletList) (candidates : List WalletScore) : Feeder :=
  ⟨performance, list, candidates, fun _ => none, []⟩

def setTask (s : Feeder) (id : Nat) (task : Option Task) : Feeder :=
  { s with tasks := Function.update s.tasks id task }

/-- The performance document as it is read now. -/
def snapshot (s : Feeder) : Snapshot := ⟨s.performance, s.replaced.length⟩

section Steps

variable {ρ : Type*} [LinearOrder ρ] (scoreRank : WalletScore → ρ) (settings : FeederSettings)

/-- The next step of a task: what becomes of the files, and of the task. -/
def advance (s : Feeder) (network : Network) : Task → Feeder × Option Task
  | .cooling wallet => (s, some (.replacing wallet s.snapshot))
  | .replacing wallet read => (s, some (.choosing wallet read s.candidates))
  | .choosing wallet read candidates =>
    ({ s with
        list := cooldownReplaced settings wallet s.list candidates read.performance
        replaced := s.replaced ++ [⟨wallet,
          (replacementPut settings wallet s.list candidates read.performance).map (·.address)⟩] }, none)
  | .refreshing read => (s, some (.discovering read s.list.wallets))
  | .discovering read existing =>
    (s, some (.merging read existing s.list.addresses s.replaced.length network.discovered))
  | .merging read existing incumbents listMark discovered =>
    (s, some (.evaluating read existing (candidateWallets settings incumbents s.performance discovered) listMark))
  | .evaluating read existing candidates listMark =>
    let qualified := qualifiedWallets scoreRank settings read.performance existing candidates network.replies
    (s, some (.saving read qualified
      (selectActiveWallets scoreRank settings qualified (existing.map (·.address))) listMark))
  | .saving read qualified selected listMark =>
    ({ s with candidates := qualified }, some (.listing read selected listMark))
  | .replenishing document listMark => (s, some (.pooling ⟨s.performance, listMark⟩ document listMark))
  | .pooling read document listMark => (s, some (.filling read document listMark s.candidates))
  | .listing read selected listMark =>
    match Task.writes? scoreRank settings (.listing read selected listMark) with
    | some (_, wallets, _) => ({ s with list := ⟨wallets, selected.length⟩ }, none)
    | none => (s, none)
  | .filling read document listMark candidates =>
    match Task.writes? scoreRank settings (.filling read document listMark candidates) with
    | some (_, wallets, _) => ({ s with list := ⟨wallets, wallets.length⟩ }, none)
    | none => (s, none)

def step (s : Feeder) : FeederAct → Option Feeder
  | .write id op wallet now =>
    if (s.tasks id).isNone then
      let result := op.run wallet now s.performance
      let written := { s with performance := result.2 }
      some (if result.1.isSome then written.setTask id (some (.cooling wallet)) else written)
    else none
  | .restore wallet completedAt =>
    some { s with
      performance := match setWalletStatus wallet statusActive false (some completedAt) s.performance with
        | .ok (_, restored) => restored
        | .error _ => s.performance }
  | .beginRefresh id =>
    if (s.tasks id).isNone then some (s.setTask id (some (.refreshing s.snapshot))) else none
  | .beginReplenish id =>
    if (s.tasks id).isNone then some (s.setTask id (some (.replenishing s.list s.replaced.length))) else none
  | .advance id network =>
    (s.tasks id).map fun task =>
      let result := s.advance scoreRank settings network task
      result.1.setTask id result.2
  | .abort id =>
    (s.tasks id).bind fun task => if task.cools = none then some (s.setTask id none) else none

end Steps

/-! ## The promises -/

/-- The wallet cools down. -/
def cooling (s : Feeder) (wallet : Address) : Prop :=
  (s.performance.get? wallet).any (·.isCoolingDown) = true

/-- Where nothing is under way, no listed wallet cools down. -/
def Clean (s : Feeder) : Prop := (∀ id, s.tasks id = none) → ∀ wallet ∈ s.list.addresses, ¬ s.cooling wallet

/-- A step undoes no replacement that it has not read: a wallet taken out stays out, and a wallet put
in stays in. -/
def Respects (s t : Feeder) (unread : List Replacement) : Prop :=
  ∀ r ∈ unread, (r.wallet ∉ s.list.addresses → r.wallet ∉ t.list.addresses) ∧
    ∀ wallet ∈ r.replacement, wallet ∈ s.list.addresses → wallet ∈ t.list.addresses

section Promises

variable {ρ : Type*} [LinearOrder ρ] (scoreRank : WalletScore → ρ) (settings : FeederSettings)

/-- The replacements that a step has not read: those since a pass has read the list that it now
overwrites. Every other step changes the list under its lock, or not at all. -/
def unread (s : Feeder) : FeederAct → List Replacement
  | .advance id _ => match (s.tasks id).bind (Task.writes? scoreRank settings) with
    | some (_, _, listMark) => s.replaced.drop listMark
    | none => []
  | _ => []

/-- Every wallet taken out since the task began to read was unavailable in what it read. -/
def informed (s : Feeder) (read : Snapshot) : Prop :=
  ∀ r ∈ s.replaced.drop read.mark, unavailable read.performance r.wallet = true

/-- No wallet put in since the task read the list is listed still. -/
def unreplaced (s : Feeder) (listMark : Nat) : Prop :=
  ∀ r ∈ s.replaced.drop listMark, ∀ wallet ∈ r.replacement, wallet ∉ s.list.addresses

/-- A pass writes the list where it is informed of every wallet taken out, and where no wallet has
been put in; a replacement chooses where it is informed. -/
def timely (s : Feeder) : FeederAct → Prop
  | .advance id _ => ∀ task ∈ s.tasks id, (∀ read ∈ task.chooses?, s.informed read) ∧
      ∀ w ∈ task.writes? scoreRank settings, s.informed w.1 ∧ s.unreplaced w.2.2
  | _ => True

section Decidable

variable (s : Feeder)

instance (wallet : Address) : Decidable (s.cooling wallet) := inferInstanceAs (Decidable (_ = _))

instance (read : Snapshot) : Decidable (s.informed read) :=
  inferInstanceAs (Decidable (∀ r ∈ s.replaced.drop read.mark, _))

instance (listMark : Nat) : Decidable (s.unreplaced listMark) :=
  inferInstanceAs (Decidable (∀ r ∈ s.replaced.drop listMark, ∀ wallet ∈ r.replacement, _))

instance : ∀ act, Decidable (s.timely scoreRank settings act)
  | .advance id _ => inferInstanceAs (Decidable (∀ task ∈ s.tasks id, (∀ read ∈ task.chooses?, _) ∧
      ∀ w ∈ task.writes? scoreRank settings, s.informed w.1 ∧ s.unreplaced w.2.2))
  | .write .. => .isTrue trivial
  | .restore .. => .isTrue trivial
  | .beginRefresh _ => .isTrue trivial
  | .beginReplenish _ => .isTrue trivial
  | .abort _ => .isTrue trivial

end Decidable

end Promises

/-! ## The invariant -/

/-- A task is about to take the wallet out of the list. -/
def Pending (s : Feeder) (wallet : Address) : Prop :=
  ∃ id task, s.tasks id = some task ∧ task.cools = some wallet

/-- Whoever cools down was unavailable in what was read, or is about to be taken out, or was taken out
since. -/
structure KnownBy (s : Feeder) (read : Snapshot) : Prop where
  mark : read.mark ≤ s.replaced.length
  known : ∀ wallet, s.cooling wallet → unavailable read.performance wallet = true ∨ s.Pending wallet ∨
    ∃ r ∈ s.replaced.drop read.mark, r.wallet = wallet

end Feeder

/-- What a task holds on its own. -/
def Task.Sound : Task → Prop
  | .merging read _ _ listMark _ => read.mark ≤ listMark
  | .evaluating read _ _ listMark => read.mark ≤ listMark
  | .saving read _ selected listMark => read.mark ≤ listMark ∧
      ∀ row ∈ selected, unavailable read.performance row.address = false
  | .listing read selected listMark => read.mark ≤ listMark ∧
      ∀ row ∈ selected, unavailable read.performance row.address = false
  | .pooling read _ listMark => read.mark ≤ listMark
  | .filling read _ listMark _ => read.mark ≤ listMark
  | _ => True

/-- The number of replacements there had been when the task began to read. -/
def Task.mark : Task → Nat
  | .replenishing _ listMark => listMark
  | task => task.read?.elim 0 (·.mark)

namespace Feeder

structure Inv (s : Feeder) : Prop where
  listed : ∀ wallet ∈ s.list.addresses, s.cooling wallet → s.Pending wallet
  read : ∀ id task, s.tasks id = some task → ∀ read ∈ task.read?, s.KnownBy read
  sound : ∀ id task, s.tasks id = some task → task.Sound
  marks : ∀ id task, s.tasks id = some task → task.mark ≤ s.replaced.length

/-- What every step leaves: whoever cools down afterwards did so before and is taken out if that was
pending, or it has just started and that is pending. -/
structure Progress (s t : Feeder) : Prop where
  replaced : ∃ more, t.replaced = s.replaced ++ more
  cooling : ∀ wallet, t.cooling wallet → t.Pending wallet ∨ s.cooling wallet ∧
    (s.Pending wallet → t.Pending wallet ∨ ∃ r ∈ t.replaced.drop s.replaced.length, r.wallet = wallet)

theorem KnownBy.progress {s t : Feeder} {read : Snapshot} (h : s.KnownBy read) (hp : Progress s t) :
    t.KnownBy read := by
  obtain ⟨more, hmore⟩ := hp.replaced
  refine ⟨by rw [hmore, List.length_append]; exact h.mark.trans (Nat.le_add_right _ _), fun wallet hc => ?_⟩
  have hold : ∀ r ∈ s.replaced.drop read.mark, r ∈ t.replaced.drop read.mark := by
    intro r hr
    rw [hmore, List.drop_append_of_le_length h.mark]
    exact List.mem_append_left _ hr
  have hnew : ∀ r ∈ t.replaced.drop s.replaced.length, r ∈ t.replaced.drop read.mark :=
    fun r hr => List.drop_subset_drop_left _ h.mark hr
  rcases hp.cooling wallet hc with hpend | ⟨hcool, htaken⟩
  · exact .inr (.inl hpend)
  · rcases h.known wallet hcool with hu | hpend | ⟨r, hr, hw⟩
    · exact .inl hu
    · rcases htaken hpend with hpend | ⟨r, hr, hw⟩
      · exact .inr (.inl hpend)
      · exact .inr (.inr ⟨r, hnew r hr, hw⟩)
    · exact .inr (.inr ⟨r, hold r hr, hw⟩)

/-- A read that is made now knows of everybody. -/
theorem knownBy_snapshot (s : Feeder) {mark : Nat} (h : mark ≤ s.replaced.length) :
    s.KnownBy ⟨s.performance, mark⟩ := by
  refine ⟨h, fun wallet hc => .inl ?_⟩
  obtain ⟨row, hrow, hcool⟩ := (Option.any_eq_true _ _).1 hc
  unfold unavailable
  rw [show s.performance.get? wallet = some row from hrow]
  simp [hcool]

/-- A task that goes on with its wallet still to be taken out, or had none, leaves all others pending. -/
theorem Pending.update {s t : Feeder} {wallet : Address} {id : Nat} {next : Option Task} (h : s.Pending wallet)
    (ht : t.tasks = Function.update s.tasks id next) (hkeep : ∀ old, s.tasks id = some old →
      old.cools = some wallet → ∃ new, next = some new ∧ new.cools = some wallet) : t.Pending wallet := by
  obtain ⟨j, old, hj, hc⟩ := h
  by_cases hid : j = id
  · subst hid
    obtain ⟨new, rfl, hn⟩ := hkeep old hj hc
    exact ⟨j, new, by rw [ht, Function.update_self], hn⟩
  · exact ⟨j, old, by rw [ht, Function.update_of_ne hid]; exact hj, hc⟩

theorem cooling_congr {s t : Feeder} (h : t.performance = s.performance) (wallet : Address) :
    t.cooling wallet ↔ s.cooling wallet := by
  unfold cooling; rw [h]

/-- The invariant after a step, from what the step leaves, who is listed, and the tasks that are new. -/
theorem Inv.of_progress {s t : Feeder} (h : Inv s) (hp : Progress s t)
    (hlisted : ∀ wallet ∈ t.list.addresses, t.cooling wallet → t.Pending wallet)
    (htasks : ∀ id task, t.tasks id = some task → s.tasks id = some task ∨
      (∀ read ∈ task.read?, t.KnownBy read) ∧ task.Sound ∧ task.mark ≤ t.replaced.length) : Inv t := by
  refine ⟨hlisted, fun id task hid => ?_, fun id task hid => ?_, fun id task hid => ?_⟩
  · rcases htasks id task hid with hold | ⟨hread, -, -⟩
    · exact fun read hr => (h.read id task hold read hr).progress hp
    · exact hread
  · rcases htasks id task hid with hold | ⟨-, hsound, -⟩
    · exact h.sound id task hold
    · exact hsound
  · rcases htasks id task hid with hold | ⟨-, -, hmark⟩
    · obtain ⟨more, hmore⟩ := hp.replaced
      rw [hmore, List.length_append]
      exact (h.marks id task hold).trans (Nat.le_add_right _ _)
    · exact hmark

theorem initial_inv {performance : Performance} {list : WalletList} {candidates : List WalletScore}
    (hclean : ∀ wallet ∈ list.addresses, ¬ (initial performance list candidates).cooling wallet) :
    Inv (initial performance list candidates) where
  listed := fun wallet hw hc => absurd hc (hclean wallet hw)
  read := fun _ _ h => by cases h
  sound := fun _ _ h => by cases h
  marks := fun _ _ h => by cases h

/-! ## What a call does to the cool-downs -/

/-- A call on one row cools down its own wallet at most. -/
theorem cooling_run (op : RowOp) (wallet : Address) (now : Int) (performance : Performance) {a : Address}
    (h : (((op.run wallet now performance).2.get? a).any (·.isCoolingDown)) = true) :
    (performance.get? a).any (·.isCoolingDown) = true ∨
      (op.run wallet now performance).1.isSome = true ∧ a = wallet := by
  by_cases ha : a = wallet
  · subst ha
    rw [show (op.run a now performance).2.get? a = some (op.mutate now (walletRow performance a)).2 from
      Dict.get?_set_self ..] at h
    rcases op.mutate_status now (walletRow performance a) with ⟨-, hsame⟩ | ⟨hsome, -⟩
    · have hstatus := (walletRow_status performance a).trans hsame
      have hcool : ((performance.get? a).getD {}).isCoolingDown = true := by
        rw [WalletRow.isCoolingDown, ← hstatus.status]; exact h
      cases hrow : performance.get? a with
      | none => rw [hrow] at hcool; exact absurd hcool (by decide)
      | some row => rw [hrow] at hcool; exact .inl hcool
    · exact .inr ⟨Option.isSome_iff_ne_none.2 hsome, rfl⟩
  · rw [show (op.run wallet now performance).2.get? a = performance.get? a from
      Dict.get?_set_of_ne _ _ ha] at h
    exact .inl h

/-- A restored wallet does not cool down. -/
theorem cooling_restored {wallet a : Address} {completedAt : Option IsoTime} {performance restored : Performance}
    {changed : Bool} (hset : setWalletStatus wallet statusActive false completedAt performance =
      .ok (changed, restored)) (h : ((restored.get? a).any (·.isCoolingDown)) = true) :
    (performance.get? a).any (·.isCoolingDown) = true := by
  unfold setWalletStatus at hset
  simp only at hset
  split_ifs at hset
  cases hrow : performance.get? (Observation.strip wallet) with
  | none =>
    rw [hrow] at hset
    obtain ⟨-, rfl⟩ := Prod.mk.inj (Except.ok.inj hset)
    exact h
  | some row =>
    rw [hrow] at hset
    obtain ⟨-, rfl⟩ := Prod.mk.inj (Except.ok.inj hset)
    by_cases ha : a = Observation.strip wallet
    · subst ha
      rw [Dict.get?_set_self] at h
      have hactive : upper statusActive = statusCoolDown := of_decide_eq_true h
      exact absurd (upper_statusActive.symm.trans hactive) (by decide)
    · rw [Dict.get?_set_of_ne _ _ ha] at h; exact h

/-! ## What a task does -/

section Steps

variable {ρ : Type*} [LinearOrder ρ] {scoreRank : WalletScore → ρ} {settings : FeederSettings}

/-- What a pass is about to write has nobody who was unavailable when it read. -/
theorem writes_sound {task : Task} (h : task.Sound) {w : Snapshot × List WalletScore × Nat}
    (hw : task.writes? scoreRank settings = some w) :
    w.1 ∈ task.read? ∧ w.1.mark ≤ w.2.2 ∧ task.cools = none ∧
      ∀ row ∈ w.2.1, unavailable w.1.performance row.address = false := by
  cases task with
  | listing read selected listMark =>
    simp only [Task.writes?] at hw
    split_ifs at hw
    obtain rfl := Option.some.inj hw
    exact ⟨rfl, h.1, rfl, fun row hrow => h.2 row (List.mem_of_mem_take hrow)⟩
  | filling read document listMark candidates =>
    simp only [Task.writes?] at hw
    split_ifs at hw
    obtain rfl := Option.some.inj hw
    exact ⟨rfl, h, rfl, fun row hrow => replenished_available hrow⟩
  | _ => cases hw

/-- One step of a task. -/
inductive Advances (scoreRank : WalletScore → ρ) (settings : FeederSettings) (s : Feeder) (task : Task)
    (t : Feeder) (next : Option Task) : Prop
  | goes (new : Task) (hnew : next = some new) (hlist : t.list = s.list) (hreplaced : t.replaced = s.replaced)
      (hcools : new.cools = task.cools)
      (hread : ∀ read ∈ new.read?, read ∈ task.read? ∨
        ∃ mark ≤ s.replaced.length, read = ⟨s.performance, mark⟩)
      (hsound : new.Sound) (hmark : new.mark ≤ s.replaced.length)
  | ends (hnext : next = none) (hlist : t.list = s.list) (hreplaced : t.replaced = s.replaced)
      (hcools : task.cools = none)
  | lists (w : Snapshot × List WalletScore × Nat) (hwrites : task.writes? scoreRank settings = some w)
      (hnext : next = none) (hlist : t.list.wallets = w.2.1) (hreplaced : t.replaced = s.replaced)
      (hcools : task.cools = none)
  | replaces (wallet : Address) (read : Snapshot) (candidates : List WalletScore)
      (htask : task = .choosing wallet read candidates) (hnext : next = none)
      (hlist : t.list = cooldownReplaced settings wallet s.list candidates read.performance)
      (hreplaced : ∃ r, t.replaced = s.replaced ++ [⟨wallet, r⟩])

/-- The tasks are no part of it. -/
theorem Advances.of_files {s t u : Feeder} {task : Task} {next : Option Task}
    (h : Advances scoreRank settings s task t next) (hlist : u.list = t.list)
    (hreplaced : u.replaced = t.replaced) :
    Advances scoreRank settings s task u next := by
  cases h with
  | goes new hnew hl hr hcools hread hsound hmark =>
    exact .goes new hnew (hlist.trans hl) (hreplaced.trans hr) hcools hread hsound hmark
  | ends hnext hl hr hcools => exact .ends hnext (hlist.trans hl) (hreplaced.trans hr) hcools
  | lists w hw hnext hl hr hcools => exact .lists w hw hnext (hlist ▸ hl) (hreplaced.trans hr) hcools
  | replaces wallet read candidates htask hnext hl hr =>
    exact .replaces wallet read candidates htask hnext (hlist.trans hl) (hreplaced ▸ hr)

variable (scoreRank settings) in
theorem advance_files (s : Feeder) (network : Network) (task : Task) :
    (s.advance scoreRank settings network task).1.tasks = s.tasks ∧
      (s.advance scoreRank settings network task).1.performance = s.performance := by
  cases task with
  | listing read selected listMark =>
    simp only [advance]
    cases Task.writes? scoreRank settings (.listing read selected listMark) <;> exact ⟨rfl, rfl⟩
  | filling read document listMark candidates =>
    simp only [advance]
    cases Task.writes? scoreRank settings (.filling read document listMark candidates) <;> exact ⟨rfl, rfl⟩
  | _ => exact ⟨rfl, rfl⟩

theorem advance_cases {s : Feeder} {task : Task} (hsound : task.Sound) (hmark : task.mark ≤ s.replaced.length)
    (network : Network) : Advances scoreRank settings s task (s.advance scoreRank settings network task).1
      (s.advance scoreRank settings network task).2 := by
  cases task with
  | cooling wallet =>
    refine .goes _ rfl rfl rfl rfl (fun read hread => .inr ⟨_, le_rfl, (Option.mem_some.1 hread).symm⟩) trivial le_rfl
  | replacing wallet read => exact .goes _ rfl rfl rfl rfl (fun _ hread => .inl hread) trivial hmark
  | choosing wallet read candidates => exact .replaces wallet read candidates rfl rfl rfl ⟨_, rfl⟩
  | refreshing read => exact .goes _ rfl rfl rfl rfl (fun _ hread => .inl hread) trivial hmark
  | discovering read existing => exact .goes _ rfl rfl rfl rfl (fun _ hread => .inl hread) hmark hmark
  | merging read existing incumbents listMark discovered =>
    exact .goes _ rfl rfl rfl rfl (fun _ hread => .inl hread) hsound hmark
  | evaluating read existing candidates listMark =>
    refine .goes _ rfl rfl rfl rfl (fun _ hread => .inl hread) ⟨hsound, fun row hrow => ?_⟩ hmark
    exact qualified_available (mem_of_selected hrow)
  | saving read qualified selected listMark =>
    exact .goes _ rfl rfl rfl rfl (fun _ hread => .inl hread) hsound hmark
  | replenishing document listMark =>
    exact .goes _ rfl rfl rfl rfl (fun read hread => .inr ⟨listMark, hmark, (Option.mem_some.1 hread).symm⟩)
      (le_refl listMark) hmark
  | pooling read document listMark => exact .goes _ rfl rfl rfl rfl (fun _ hread => .inl hread) hsound hmark
  | listing read selected listMark =>
    simp only [advance]
    cases hw : Task.writes? scoreRank settings (.listing read selected listMark) with
    | none => exact .ends rfl rfl rfl rfl
    | some w => exact .lists w hw rfl rfl rfl rfl
  | filling read document listMark candidates =>
    simp only [advance]
    cases hw : Task.writes? scoreRank settings (.filling read document listMark candidates) with
    | none => exact .ends rfl rfl rfl rfl
    | some w => exact .lists w hw rfl rfl rfl rfl

/-- A step that leaves the list, and starts no cool-down but pending ones. -/
theorem Inv.same_list {s t : Feeder} (h : Inv s) (hlist : t.list = s.list) (hreplaced : t.replaced = s.replaced)
    (hcooling : ∀ wallet, t.cooling wallet → t.Pending wallet ∨ s.cooling wallet)
    (hpending : ∀ wallet, s.Pending wallet → t.Pending wallet)
    (htasks : ∀ id task, t.tasks id = some task → s.tasks id = some task ∨
      (∀ read ∈ task.read?, (∃ id old, s.tasks id = some old ∧ read ∈ old.read?) ∨
        ∃ mark ≤ s.replaced.length, read = ⟨s.performance, mark⟩) ∧
      task.Sound ∧ task.mark ≤ s.replaced.length) : Inv t := by
  have hp : Progress s t := by
    refine ⟨⟨[], by rw [hreplaced, List.append_nil]⟩, fun wallet hc => ?_⟩
    exact (hcooling wallet hc).imp_right fun hcs => ⟨hcs, fun hpend => .inl (hpending wallet hpend)⟩
  refine h.of_progress hp (fun wallet hw hc => ?_) fun id task hid => ?_
  · rcases hcooling wallet hc with hpend | hcs
    · exact hpend
    · exact hpending wallet (h.listed wallet (hlist ▸ hw) hcs)
  · refine (htasks id task hid).imp_right fun ⟨hread, hsound, hmark⟩ => ⟨fun read hr => ?_, hsound, hreplaced ▸ hmark⟩
    rcases hread read hr with ⟨j, old, hj, hr⟩ | ⟨mark, hm, rfl⟩
    · exact (h.read j old hj read hr).progress hp
    · exact (s.knownBy_snapshot hm).progress hp

/-- An act changes its own task alone. -/
theorem step_tasks {s t : Feeder} {act : FeederAct} (h : s.step scoreRank settings act = some t) {id : Nat}
    (hid : act.id ≠ some id) : t.tasks id = s.tasks id := by
  have hne : ∀ {j}, act.id = some j → id ≠ j := fun hj he => hid (he ▸ hj)
  cases act with
  | write j op wallet now =>
    simp only [step, Option.ite_none_right_eq_some, Option.some.injEq] at h
    obtain ⟨-, rfl⟩ := h
    split_ifs
    · exact Function.update_of_ne (hne rfl) _ _
    · rfl
  | restore wallet completedAt => obtain rfl := Option.some.inj h; rfl
  | beginRefresh j =>
    simp only [step, Option.ite_none_right_eq_some, Option.some.injEq] at h
    obtain ⟨-, rfl⟩ := h
    exact Function.update_of_ne (hne rfl) _ _
  | beginReplenish j =>
    simp only [step, Option.ite_none_right_eq_some, Option.some.injEq] at h
    obtain ⟨-, rfl⟩ := h
    exact Function.update_of_ne (hne rfl) _ _
  | advance j network =>
    simp only [step, Option.map_eq_some_iff] at h
    obtain ⟨task, -, rfl⟩ := h
    refine (Function.update_of_ne (hne rfl) _ _).trans ?_
    rw [(advance_files _ _ s network task).1]
  | abort j =>
    simp only [step, Option.bind_eq_some_iff, Option.ite_none_right_eq_some, Option.some.injEq] at h
    obtain ⟨task, -, -, rfl⟩ := h
    exact Function.update_of_ne (hne rfl) _ _

/-- A run changes the tasks of its acts alone. -/
theorem run_tasks {ok : Feeder → FeederAct → Prop} {s t : Feeder} {acts : List FeederAct}
    (h : Run (step scoreRank settings) ok s acts t) {id : Nat} (hid : ∀ act ∈ acts, act.id ≠ some id) :
    t.tasks id = s.tasks id := by
  induction h with
  | nil s => rfl
  | cons hok hstep _ ih =>
    rw [ih fun act hact => hid act (List.mem_cons_of_mem _ hact), step_tasks hstep (hid _ List.mem_cons_self)]

/-- A task begins. -/
theorem Inv.begin {s t : Feeder} {id : Nat} {task : Task} (h : Inv s) (hnone : (s.tasks id).isNone = true)
    (hlist : t.list = s.list) (hreplaced : t.replaced = s.replaced) (hperf : t.performance = s.performance)
    (htasks : t.tasks = Function.update s.tasks id (some task))
    (hread : ∀ read ∈ task.read?, (∃ id old, s.tasks id = some old ∧ read ∈ old.read?) ∨
      ∃ mark ≤ s.replaced.length, read = ⟨s.performance, mark⟩)
    (hsound : task.Sound) (hmark : task.mark ≤ s.replaced.length) : Inv t := by
  rw [Option.isNone_iff_eq_none] at hnone
  refine h.same_list hlist hreplaced (fun a ha => .inr ((cooling_congr hperf a).1 ha))
    (fun a hpend => hpend.update htasks fun old hold => ?_) fun j new hj => ?_
  · rw [hnone] at hold; cases hold
  · rw [htasks] at hj
    rcases update_eq_some hj with ⟨-, he⟩ | ⟨-, hj⟩
    · obtain rfl := Option.some.inj he
      exact .inr ⟨hread, hsound, hmark⟩
    · exact .inl hj

/-- A task that has ended leaves only tasks that there were. -/
theorem task_of_update_none {s t : Feeder} {id : Nat} (ht : t.tasks = Function.update s.tasks id none)
    {j : Nat} {task : Task} (hj : t.tasks j = some task) : s.tasks j = some task := by
  rw [ht] at hj
  rcases update_eq_some hj with ⟨-, he⟩ | ⟨-, hj⟩
  · cases he
  · exact hj

/-- Whoever is listed and cools down is still to be taken out: a pass that was informed lists nobody
who was taken out since. -/
theorem Inv.pending_of_available {s : Feeder} (h : Inv s) {id : Nat} {task : Task} (hid : s.tasks id = some task)
    {read : Snapshot} (hread : read ∈ task.read?) (hinformed : s.informed read) {wallet : Address}
    (hc : s.cooling wallet) (hfree : unavailable read.performance wallet = false) : s.Pending wallet := by
  rcases (h.read id task hid read hread).known wallet hc with hu | hpend | ⟨r, hr, rfl⟩
  · rw [hfree] at hu; cases hu
  · exact hpend
  · rw [hinformed r hr] at hfree; cases hfree

/-- A step of a task keeps the invariant. -/
theorem Inv.advance {s t : Feeder} {id : Nat} {task : Task} {next : Option Task} (h : Inv s)
    (hid : s.tasks id = some task) (hperf : t.performance = s.performance)
    (htasks : t.tasks = Function.update s.tasks id next) (hadv : Advances scoreRank settings s task t next)
    (hchooses : ∀ read ∈ task.chooses?, s.informed read)
    (hwrites : ∀ w ∈ task.writes? scoreRank settings, s.informed w.1) : Inv t := by
  have hcooling := cooling_congr hperf
  cases hadv with
  | goes new hnew hlist hreplaced hcools hread hsound hmark =>
    subst hnew
    refine h.same_list hlist hreplaced (fun wallet hc => .inr ((hcooling wallet).1 hc))
      (fun wallet hpend => hpend.update htasks fun old hold hc => ?_) fun j task' hj => ?_
    · obtain rfl := Option.some.inj (hid.symm.trans hold)
      exact ⟨new, rfl, hcools.trans hc⟩
    · rw [htasks] at hj
      rcases update_eq_some hj with ⟨-, he⟩ | ⟨-, hj⟩
      · obtain rfl := Option.some.inj he
        exact .inr ⟨fun read hr => (hread read hr).imp_left fun hr => ⟨id, task, hid, hr⟩, hsound, hmark⟩
      · exact .inl hj
  | ends hnext hlist hreplaced hcools =>
    subst hnext
    refine h.same_list hlist hreplaced (fun wallet hc => .inr ((hcooling wallet).1 hc))
      (fun wallet hpend => hpend.update htasks fun old hold hc => ?_)
      fun j task' hj => .inl (task_of_update_none htasks hj)
    obtain rfl := Option.some.inj (hid.symm.trans hold)
    rw [hcools] at hc; cases hc
  | lists w hw hnext hlist hreplaced hcools =>
    subst hnext
    obtain ⟨hread, -, -, havailable⟩ := writes_sound (h.sound id task hid) hw
    have hpending : ∀ wallet, s.Pending wallet → t.Pending wallet := by
      intro wallet hpend
      refine hpend.update htasks fun old hold hc => ?_
      obtain rfl := Option.some.inj (hid.symm.trans hold)
      rw [hcools] at hc; cases hc
    refine h.of_progress ⟨⟨[], by rw [hreplaced, List.append_nil]⟩, fun wallet hc =>
      .inr ⟨(hcooling wallet).1 hc, fun hpend => .inl (hpending wallet hpend)⟩⟩ (fun wallet hmem hc => ?_)
      fun j task' hj => .inl (task_of_update_none htasks hj)
    obtain ⟨row, hrow, rfl⟩ := List.mem_map.1 hmem
    rw [hlist] at hrow
    exact hpending _ (h.pending_of_available hid hread (hwrites w hw) ((hcooling _).1 hc) (havailable row hrow))
  | replaces wallet read candidates htask hnext hlist hreplaced =>
    subst htask hnext
    obtain ⟨r, hr⟩ := hreplaced
    have hpending : ∀ a, a ≠ wallet → s.Pending a → t.Pending a := by
      intro a ha hpend
      refine hpend.update htasks fun old hold hc => ?_
      obtain rfl := Option.some.inj (hid.symm.trans hold)
      exact absurd (Option.some.inj hc).symm ha
    refine h.of_progress ⟨⟨_, hr⟩, fun a hc => .inr ⟨(hcooling a).1 hc, fun hpend => ?_⟩⟩ (fun a hmem hc => ?_)
      fun j task' hj => .inl (task_of_update_none htasks hj)
    · by_cases ha : a = wallet
      · refine .inr ⟨⟨wallet, r⟩, ?_, ha.symm⟩
        rw [hr, List.drop_left]; exact List.mem_singleton.2 rfl
      · exact .inl (hpending a ha hpend)
    · rw [hlist] at hmem
      obtain ⟨hne, hlisted | hfree⟩ := mem_cooldownReplaced hmem
      · exact hpending a hne (h.listed a hlisted ((hcooling a).1 hc))
      · exact hpending a hne (h.pending_of_available hid rfl (hchooses read rfl) ((hcooling a).1 hc) hfree)

/-- Every timely step keeps the invariant. -/
theorem Inv.step {s t : Feeder} {act : FeederAct} (h : Inv s) (htimely : s.timely scoreRank settings act)
    (hstep : s.step scoreRank settings act = some t) : Inv t := by
  cases act with
  | write id op wallet now =>
    simp only [Feeder.step, Option.ite_none_right_eq_some, Option.some.injEq] at hstep
    obtain ⟨hnone, rfl⟩ := hstep
    rw [Option.isNone_iff_eq_none] at hnone
    have hrun := fun a => @cooling_run op wallet now s.performance a
    by_cases hc : (op.run wallet now s.performance).1.isSome = true
    · rw [if_pos hc]
      have htasks : ∀ v : Feeder, (v.setTask id (some (.cooling wallet))).tasks id = some (.cooling wallet) :=
        fun v => Function.update_self ..
      refine h.same_list rfl rfl (fun a ha => ?_) (fun a hpend => hpend.update rfl fun old hold => ?_)
        fun j task hj => ?_
      · rcases hrun a ha with hold | ⟨-, rfl⟩
        · exact .inr hold
        · exact .inl ⟨id, _, htasks _, rfl⟩
      · rw [hnone] at hold; cases hold
      · rcases update_eq_some hj with ⟨-, he⟩ | ⟨-, hj⟩
        · obtain rfl := Option.some.inj he
          exact .inr ⟨fun read hr => (by cases hr), trivial, Nat.zero_le _⟩
        · exact .inl hj
    · rw [if_neg hc]
      refine h.same_list rfl rfl (fun a ha => ?_) (fun a hpend => hpend) fun j task hj => .inl hj
      rcases hrun a ha with hold | ⟨hsome, -⟩
      · exact .inr hold
      · exact absurd hsome hc
  | restore wallet completedAt =>
    obtain rfl := Option.some.inj hstep
    refine h.same_list rfl rfl (fun a ha => .inr ?_) (fun a hpend => hpend) fun j task hj => .inl hj
    cases hset : setWalletStatus wallet statusActive false (some completedAt) s.performance with
    | error e => unfold cooling at ha; rw [hset] at ha; exact ha
    | ok result =>
      obtain ⟨changed, restored⟩ := result
      unfold cooling at ha
      rw [hset] at ha
      exact cooling_restored hset ha
  | beginRefresh id =>
    simp only [Feeder.step, Option.ite_none_right_eq_some, Option.some.injEq] at hstep
    obtain ⟨hnone, rfl⟩ := hstep
    exact h.begin hnone rfl rfl rfl rfl
      (fun read hr => .inr ⟨_, le_rfl, (Option.mem_some.1 hr).symm⟩) trivial le_rfl
  | beginReplenish id =>
    simp only [Feeder.step, Option.ite_none_right_eq_some, Option.some.injEq] at hstep
    obtain ⟨hnone, rfl⟩ := hstep
    exact h.begin hnone rfl rfl rfl rfl (fun read hr => (by cases hr)) trivial le_rfl
  | advance id network =>
    simp only [Feeder.step, Option.map_eq_some_iff] at hstep
    obtain ⟨task, hid, rfl⟩ := hstep
    obtain ⟨hfiles, hperf⟩ := advance_files scoreRank settings s network task
    obtain ⟨hchooses, hwrites⟩ := htimely task hid
    have hadv : Advances scoreRank settings s task _ _ :=
      advance_cases (h.sound id task hid) (h.marks id task hid) network
    refine h.advance hid hperf (congrArg (Function.update · id _) hfiles) ?_ hchooses fun w hw => (hwrites w hw).1
    exact hadv.of_files rfl rfl
  | abort id =>
    simp only [Feeder.step, Option.bind_eq_some_iff, Option.ite_none_right_eq_some, Option.some.injEq] at hstep
    obtain ⟨task, hid, hcools, rfl⟩ := hstep
    refine h.same_list rfl rfl (fun a ha => .inr ha) (fun a hpend => hpend.update rfl fun old hold hc => ?_)
      fun j task' hj => .inl (task_of_update_none rfl hj)
    obtain rfl := Option.some.inj (hid.symm.trans hold)
    rw [hcools] at hc; cases hc

/-! ## Cool-downs and the list -/

theorem Inv.clean {s : Feeder} (h : Inv s) : Clean s := by
  intro hquiet wallet hw hc
  obtain ⟨id, task, hid, -⟩ := h.listed wallet hw hc
  rw [hquiet id] at hid; cases hid

/-- A timely step undoes nothing that it has not read. -/
theorem Inv.respects {s t : Feeder} {act : FeederAct} (h : Inv s) (htimely : s.timely scoreRank settings act)
    (hstep : s.step scoreRank settings act = some t) : Respects s t (s.unread scoreRank settings act) := by
  intro r hr
  cases act with
  | advance id network =>
    simp only [Feeder.step, Option.map_eq_some_iff] at hstep
    obtain ⟨task, hid, rfl⟩ := hstep
    simp only [unread, hid, Option.bind_some] at hr
    cases hw : task.writes? scoreRank settings with
    | none => rw [hw] at hr; cases hr
    | some w =>
      rw [hw] at hr
      obtain ⟨hinformed, hunreplaced⟩ := (htimely task hid).2 w hw
      obtain ⟨-, hmark, -, havailable⟩ := writes_sound (h.sound id task hid) hw
      have hlist : (s.advance scoreRank settings network task).1.list.wallets = w.2.1 := by
        cases task with
        | listing read selected listMark => simp only [Feeder.advance, hw]
        | filling read document listMark candidates => simp only [Feeder.advance, hw]
        | _ => cases hw
      refine ⟨fun _ hmem => ?_, fun wallet hput hlisted => absurd hlisted (hunreplaced r hr wallet hput)⟩
      obtain ⟨row, hrow, haddress⟩ := List.mem_map.1 hmem
      have hfree := havailable row (hlist ▸ hrow)
      rw [haddress, hinformed r (List.drop_subset_drop_left _ hmark hr)] at hfree
      cases hfree
  | _ => cases hr

/-- Where no pass overwrites a replacement that it should have read, and none chooses a wallet that
was taken out, no wallet that cools down is listed once nothing is under way, and no replacement is
undone unread. -/
theorem timely_clean (scoreRank : WalletScore → ρ) (settings : FeederSettings) (performance : Performance)
    (list : WalletList) (candidates : List WalletScore) (acts : List FeederAct) (s : Feeder)
    (hclean : ∀ wallet ∈ list.addresses, ¬ (initial performance list candidates).cooling wallet)
    (h : Run (step scoreRank settings) (timely scoreRank settings) (initial performance list candidates) acts s) :
    Clean s ∧ ∀ act t, s.timely scoreRank settings act → s.step scoreRank settings act = some t →
      Respects s t (s.unread scoreRank settings act) := by
  have hinv : Inv s := h.invariant (fun _ _ _ hs htimely hstep => hs.step htimely hstep) (initial_inv hclean)
  exact ⟨hinv.clean, fun act t htimely hstep => hinv.respects htimely hstep⟩

end Steps

def sampleSettings : FeederSettings := ⟨2, 0, 300, 250, 1⟩

/-- Every address has one SOL and one transaction. -/
def sampleNetwork : Network := ⟨["wallet"], fun _ => some (1, 1)⟩

/-- A refresh that finds one wallet and lists it. -/
def sampleRefresh (id : Nat) : List FeederAct :=
  .beginRefresh id :: List.replicate 6 (.advance id sampleNetwork)

/-- A wallet is listed, cools down and is taken out. -/
theorem timely_clean_removal : ∃ s, Clean s ∧ s.cooling "wallet" ∧ s.list.addresses = [] ∧
    s.replaced = [⟨"wallet", none⟩] := by
  obtain ⟨s, hs, hcool, hlist, hreplaced⟩ : ∃ s, Run (step (·.balanceSol) sampleSettings)
      (timely (·.balanceSol) sampleSettings) (initial Dict.empty {} [])
      (sampleRefresh 0 ++ [.write 1 (.rejectUnsafeBuy "mint" "first") "wallet" 0,
        .write 1 (.rejectUnsafeBuy "mint" "second") "wallet" 1, .advance 1 sampleNetwork,
        .advance 1 sampleNetwork, .advance 1 sampleNetwork]) s ∧
      s.cooling "wallet" ∧ s.list.addresses = [] ∧ s.replaced = [⟨"wallet", none⟩] :=
    Run.exists_of_any (by decide +kernel)
  exact ⟨s, (timely_clean _ _ _ _ _ _ s (fun _ h => by cases h) hs).1, hcool, hlist, hreplaced⟩

/-- A refresh is under way while a wallet cools down and is taken out. -/
def overtakenRefresh : List FeederAct :=
  sampleRefresh 0 ++ [.beginRefresh 0, .write 1 (.rejectUnsafeBuy "mint" "first") "wallet" 0,
    .write 1 (.rejectUnsafeBuy "mint" "second") "wallet" 1, .advance 1 sampleNetwork,
    .advance 1 sampleNetwork, .advance 1 sampleNetwork] ++ List.replicate 6 (.advance 0 sampleNetwork)

/-- A refresh reads the performance document, the wallet cools down and is taken out, and the refresh
lists it again. There is one wallet, so its rank is no matter. -/
theorem cooled_wallet_listed : ¬ ∀ (settings : FeederSettings) (acts : List FeederAct) (s : Feeder),
    Run (step (·.balanceSol) settings) Run.anyStep (initial Dict.empty {} []) acts s → Clean s := by
  intro hall
  obtain ⟨s, hs, hcool, hlisted, h0, h1⟩ : ∃ s, Run (step (·.balanceSol) sampleSettings) Run.anyStep
      (initial Dict.empty {} []) overtakenRefresh s ∧ s.cooling "wallet" ∧ "wallet" ∈ s.list.addresses ∧
      (s.tasks 0).isNone ∧ (s.tasks 1).isNone := Run.exists_of_any (by decide +kernel)
  refine hall sampleSettings overtakenRefresh s hs (fun id => ?_) "wallet" hlisted hcool
  by_cases hid0 : id = 0
  · subst hid0; exact Option.isNone_iff_eq_none.1 h0
  by_cases hid1 : id = 1
  · subst hid1; exact Option.isNone_iff_eq_none.1 h1
  refine run_tasks hs fun act hact hid => ?_
  have hids : ∀ act ∈ overtakenRefresh, act.id = some 0 ∨ act.id = some 1 := by decide
  rcases hids act hact with h | h
  · exact hid0 (Option.some.inj (hid.symm.trans h))
  · exact hid1 (Option.some.inj (hid.symm.trans h))

end Feeder

end Aibot.Wallet
