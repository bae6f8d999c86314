/-
Taking in turn from queues that are kept in a dictionary: each round walks the keys that there were at
its start and takes one item of each queue, until the limit is reached; an empty queue is removed. At any
time a key has had as many turns as rounds, or one more, unless its items are used up.
-/
import Aibot.Lib.Dict

namespace Aibot.Turns

variable {κ α : Type*} [DecidableEq κ]

/-! ## The loop -/

/-- The queues of the items, in the order of their first items. -/
def queuesOf (key : α → κ) (items : List α) : Dict κ (List α) :=
  items.foldl (fun queues x => queues.set (key x) ((queues.get? (key x)).getD [] ++ [x])) Dict.empty

/-- The queues, and what was taken from them. -/
structure State (κ α : Type*) where
  queues : Dict κ (List α)
  selected : List α

/-- The first item of a queue is taken, and the queue is removed when it was the last one. -/
def State.take (s : State κ α) (k : κ) (x : α) (queue : List α) : State κ α :=
  ⟨if queue.isEmpty then s.queues.erase k else s.queues.set k queue, s.selected ++ [x]⟩

/-- The rest of a round: the keys that still have their turn. None where a queue is missing or empty. -/
def round (limit : Nat) : List κ → State κ α → Option (State κ α)
  | [], s => some s
  | k :: keys, s =>
    match s.queues.get? k with
    | none | some [] => none
    | some (x :: queue) =>
      if limit ≤ (s.take k x queue).selected.length then some (s.take k x queue)
      else round limit keys (s.take k x queue)

/-- Rounds, while there are queues and the limit is not reached; none out of fuel. -/
def rounds (limit : Nat) : Nat → State κ α → Option (List α)
  | 0, s => if s.queues.entries.isEmpty ∨ limit ≤ s.selected.length then some s.selected else none
  | fuel + 1, s =>
    if s.queues.entries.isEmpty ∨ limit ≤ s.selected.length then some s.selected
    else (round limit (s.queues.entries.map Prod.fst) s).bind (rounds limit fuel)

/-! ## The turns of a key -/

section Invariant

variable (key : α → κ) (items : List α)

/-- The items of a key. -/
def itemsOf (k : κ) : List α := items.filter fun x => key x = k

/-- After `n` rounds, and in the next one the turns of all keys but those to do. -/
structure Inv (n : Nat) (todo : List κ) (s : State κ α) : Prop where
  taken : ∀ k, s.selected.filter (fun x => key x = k) = (itemsOf key items k).take (if k ∈ todo then n else n + 1)
  left : ∀ k, s.queues.get? k =
    let queue := (itemsOf key items k).drop (if k ∈ todo then n else n + 1)
    if queue.isEmpty then none else some queue
  todo : ∀ k ∈ todo, n < (itemsOf key items k).length

variable {key items} {n limit : Nat} {s : State κ α}

/-- The queue of a key that has its turn. -/
theorem Inv.queue {k : κ} {todo : List κ} (h : Inv key items n (k :: todo) s) :
    ∃ x, (itemsOf key items k)[n]? = some x ∧
      s.queues.get? k = some (x :: (itemsOf key items k).drop (n + 1)) := by
  have hlt : n < (itemsOf key items k).length := h.todo k List.mem_cons_self
  refine ⟨(itemsOf key items k)[n], List.getElem?_eq_getElem hlt, ?_⟩
  have hleft := h.left k
  rw [if_pos List.mem_cons_self, List.drop_eq_getElem_cons hlt] at hleft
  exact hleft

/-- One turn. -/
theorem Inv.turn {k : κ} {todo : List κ} {x : α} {queue : List α} (h : Inv key items n (k :: todo) s)
    (hk : k ∉ todo) (hqueue : s.queues.get? k = some (x :: queue)) : Inv key items n todo (s.take k x queue) := by
  obtain ⟨y, hy, hget⟩ := h.queue
  obtain ⟨rfl, rfl⟩ := List.cons.inj (Option.some.inj (hqueue.symm.trans hget))
  have hkey : key x = k := of_decide_eq_true (List.mem_filter.1 (List.mem_of_getElem? hy)).2
  constructor
  · intro j
    unfold State.take
    rw [List.filter_append, h.taken j]
    by_cases hj : j = k
    · subst hj
      rw [if_pos List.mem_cons_self, if_neg hk, List.take_add_one, hy]
      simp [hkey]
    · have hne : key x ≠ j := fun he => hj (he.symm.trans hkey)
      simp [hj, hne]
  · intro j
    by_cases hj : j = k
    · subst hj
      unfold State.take
      rw [if_neg hk]
      dsimp only
      split_ifs with hempty
      · exact Dict.get?_erase_self ..
      · exact Dict.get?_set_self ..
    · have hmem : j ∈ k :: todo ↔ j ∈ todo := by simp [hj]
      have hleft := h.left j
      simp only [hmem] at hleft
      rw [← hleft]
      unfold State.take
      dsimp only
      split_ifs with hempty
      · rw [Dict.get?_erase, if_neg hj]
      · exact Dict.get?_set_of_ne _ _ hj
  · exact fun j hj => h.todo j (List.mem_cons_of_mem _ hj)

/-- A round takes its turns, and stops early only at the limit. -/
theorem Inv.round : ∀ {todo : List κ} {s : State κ α}, Inv key items n todo s → todo.Nodup →
    s.selected.length < limit → ∃ rest s', round limit todo s = some s' ∧ Inv key items n rest s' ∧
      (rest = [] ∨ limit ≤ s'.selected.length) ∧ s'.selected.length ≤ limit ∧
      s.selected.length + min 1 todo.length ≤ s'.selected.length
  | [], s, h, _, hlt => ⟨[], s, rfl, h, .inl rfl, by omega, by simp⟩
  | k :: todo, s, h, hn, hlt => by
    obtain ⟨hk, hn⟩ := List.nodup_cons.1 hn
    obtain ⟨x, -, hget⟩ := h.queue
    have hturn := h.turn hk hget
    have hlength : (s.take k x ((itemsOf key items k).drop (n + 1))).selected.length = s.selected.length + 1 :=
      List.length_append
    unfold Turns.round
    rw [hget]
    dsimp only
    split_ifs with hlimit
    · exact ⟨todo, _, rfl, hturn, .inr hlimit, by omega, by omega⟩
    · obtain ⟨rest, s', hround, hinv, hstop, hle, hge⟩ := hturn.round hn (not_le.1 hlimit)
      exact ⟨rest, s', hround, hinv, hstop, hle, by omega⟩

/-! ## Whole rounds -/

variable (key items) in
/-- After `n` whole rounds. -/
structure Settled (n : Nat) (s : State κ α) : Prop where
  taken : ∀ k, s.selected.filter (fun x => key x = k) = (itemsOf key items k).take n
  left : ∀ k, s.queues.get? k =
    if ((itemsOf key items k).drop n).isEmpty then none else some ((itemsOf key items k).drop n)

theorem get?_foldl_queue (k : κ) : ∀ (xs : List α) (d : Dict κ (List α)),
    (xs.foldl (fun queues x => queues.set (key x) ((queues.get? (key x)).getD [] ++ [x])) d).get? k =
      if (itemsOf key xs k).isEmpty then d.get? k else some ((d.get? k).getD [] ++ itemsOf key xs k)
  | [], d => rfl
  | x :: xs, d => by
    rw [List.foldl_cons, get?_foldl_queue k xs]
    by_cases hk : key x = k
    · subst hk
      have hitems : itemsOf key (x :: xs) (key x) = x :: itemsOf key xs (key x) := List.filter_cons_of_pos (by simp)
      rw [hitems, Dict.get?_set_self]
      by_cases hempty : (itemsOf key xs (key x)).isEmpty = true
      · rw [if_pos hempty, if_neg (by simp), List.isEmpty_iff.1 hempty]
      · rw [if_neg hempty, if_neg (by simp)]
        simp
    · have hitems : itemsOf key (x :: xs) k = itemsOf key xs k := List.filter_cons_of_neg (by simpa using hk)
      rw [hitems, Dict.get?_set_of_ne _ _ (Ne.symm hk)]

/-- Before the first round. -/
theorem settled_start : Settled key items 0 ⟨queuesOf key items, []⟩ := by
  constructor
  · intro k
    simp
  · intro k
    unfold queuesOf
    rw [get?_foldl_queue, List.drop_zero]
    rfl

/-- The next round is about to start. -/
theorem Settled.inv (h : Settled key items n s) : Inv key items n (s.queues.entries.map Prod.fst) s := by
  have hkeys : ∀ k, k ∈ s.queues.entries.map Prod.fst ↔ n < (itemsOf key items k).length := by
    intro k
    rw [← not_iff_not, ← Dict.get?_eq_none, h.left k]
    split_ifs with hempty
    · simpa using hempty
    · simpa using hempty
  constructor
  · intro k
    rw [h.taken k]
    split_ifs with hk
    · rfl
    · have hle : (itemsOf key items k).length ≤ n := not_lt.1 (mt (hkeys k).2 hk)
      rw [List.take_of_length_le hle, List.take_of_length_le (by omega)]
  · intro k
    rw [h.left k]
    dsimp only
    split_ifs with hdrop hk hk' hk' <;> simp_all
    omega
  · exact fun k hk => (hkeys k).1 hk

/-- The round is over. -/
theorem Inv.settled (h : Inv key items n [] s) : Settled key items (n + 1) s :=
  ⟨fun k => by simpa using h.taken k, fun k => by simpa using h.left k⟩

/-! ## The result -/

variable (key items) in
/-- Every key has had its turns, and the last round may be cut short. -/
def InTurn (selected : List α) : Prop :=
  ∃ n, ∀ k, selected.filter (fun x => key x = k) = (itemsOf key items k).take n ∨
    selected.filter (fun x => key x = k) = (itemsOf key items k).take (n + 1)

theorem Inv.inTurn {todo : List κ} (h : Inv key items n todo s) : InTurn key items s.selected := by
  refine ⟨n, fun k => ?_⟩
  rw [h.taken k]
  split_ifs
  · exact .inl rfl
  · exact .inr rfl

theorem rounds_of_limit (h : limit ≤ s.selected.length) : ∀ fuel, rounds limit fuel s = some s.selected
  | 0 => by unfold rounds; rw [if_pos (.inr h)]
  | fuel + 1 => by unfold rounds; rw [if_pos (.inr h)]

/-- The loop ends, at the limit or with every item taken. -/
theorem rounds_spec : ∀ {fuel : Nat} {n : Nat} {s : State κ α}, Settled key items n s →
    s.selected.length ≤ limit → limit ≤ s.selected.length + fuel →
      ∃ selected, rounds limit fuel s = some selected ∧ InTurn key items selected ∧ selected.length ≤ limit ∧
        (selected.length = limit ∨ ∀ k, selected.filter (fun x => key x = k) = itemsOf key items k)
  | fuel, n, s, h, hle, hfuel => by
    have hturn : InTurn key items s.selected := ⟨n, fun k => .inl (h.taken k)⟩
    by_cases hlimit : limit ≤ s.selected.length
    · exact ⟨s.selected, rounds_of_limit hlimit fuel, hturn, hle, .inl (le_antisymm hle hlimit)⟩
    by_cases hempty : s.queues.entries.isEmpty = true
    · have hall : ∀ k, s.selected.filter (fun x => key x = k) = itemsOf key items k := by
        intro k
        have hnone : s.queues.get? k = none := by
          rw [Dict.get?_eq_none, List.isEmpty_iff.1 hempty]
          simp
        have hdrop := h.left k
        rw [hnone] at hdrop
        split_ifs at hdrop with hlen
        rw [h.taken k, List.take_of_length_le (by simpa using hlen)]
      refine ⟨s.selected, ?_, hturn, hle, .inr hall⟩
      cases fuel <;> (unfold rounds; rw [if_pos (.inl hempty)])
    cases fuel with
    | zero => omega
    | succ fuel =>
      obtain ⟨rest, s', hround, hinv, hstop, hle', hge⟩ := h.inv.round s.queues.nodup (not_le.1 hlimit)
      have hgrown : s.selected.length + 1 ≤ s'.selected.length := by
        have hkeys : 0 < (s.queues.entries.map Prod.fst).length := by
          rw [List.length_map, List.length_pos_iff]
          exact fun h => hempty (List.isEmpty_iff.2 h)
        omega
      have hrounds : rounds limit (fuel + 1) s = rounds limit fuel s' := by
        conv_lhs => unfold rounds
        rw [if_neg (by simp [hempty, hlimit]), hround, Option.bind_some]
      rw [hrounds]
      rcases hstop with rfl | hstop
      · exact rounds_spec hinv.settled hle' (by omega)
      · exact ⟨s'.selected, rounds_of_limit hstop fuel, hinv.inTurn, hle', .inl (le_antisymm hle' hstop)⟩

variable {selected : List α}

theorem InTurn.take (h : InTurn key items selected) (k : κ) :
    selected.filter (fun x => key x = k) <+: itemsOf key items k := by
  obtain ⟨n, hn⟩ := h
  rcases hn k with hk | hk
  · rw [hk]; exact List.take_prefix ..
  · rw [hk]; exact List.take_prefix ..

/-- A key that is more than one turn behind another has no items left. -/
theorem InTurn.exhausted (h : InTurn key items selected) {i j : κ}
    (hbehind : (selected.filter fun x => key x = i).length + 1 < (selected.filter fun x => key x = j).length) :
    selected.filter (fun x => key x = i) = itemsOf key items i := by
  obtain ⟨n, hn⟩ := h
  have hj : (selected.filter fun x => key x = j).length ≤ n + 1 := by
    rcases hn j with hj | hj
    · rw [hj, List.length_take]; omega
    · rw [hj, List.length_take]; omega
  rcases hn i with hi | hi
  all_goals
    have hlength := congrArg List.length hi
    rw [List.length_take] at hlength
    rw [hi, List.take_of_length_le (by omega)]

section Count

variable [DecidableEq α]

variable (key) in
theorem count_itemsOf (xs : List α) (x : α) : (itemsOf key xs (key x)).count x = xs.count x :=
  List.count_filter (by simp)

theorem InTurn.subperm (h : InTurn key items selected) : selected.Subperm items := by
  rw [List.subperm_ext_iff]
  intro x _
  rw [← count_itemsOf key selected x, ← count_itemsOf key items x]
  exact (h.take (key x)).sublist.count_le x

theorem perm_of_taken (h : ∀ k, selected.filter (fun x => key x = k) = itemsOf key items k) : selected.Perm items := by
  rw [List.perm_iff_count]
  intro x
  rw [← count_itemsOf key selected x, ← count_itemsOf key items x]
  exact congrArg (List.count x) (h (key x))

/-- With as much fuel as the limit the loop ends; it takes as much as it may, each key in its order and no
key more than one turn ahead of another that has items left. -/
theorem inTurn_spec (key : α → κ) (items : List α) {limit fuel : Nat} (hfuel : limit ≤ fuel) :
    ∃ selected, rounds limit fuel ⟨queuesOf key items, []⟩ = some selected ∧ InTurn key items selected ∧
      selected.length = min limit items.length := by
  have hstart : Settled key items 0 ⟨queuesOf key items, []⟩ := settled_start
  have hzero : ([] : List α).length ≤ limit := Nat.zero_le limit
  have hlimit : limit ≤ ([] : List α).length + fuel := by simpa using hfuel
  obtain ⟨selected, hrounds, hturn, hle, hstop⟩ := rounds_spec hstart hzero hlimit
  refine ⟨selected, hrounds, hturn, ?_⟩
  have hpart := hturn.subperm.length_le
  rcases hstop with hstop | hall
  · omega
  · have hwhole := (perm_of_taken hall).length_eq
    omega

end Count

end Invariant

end Aibot.Turns
