/-
Loops that rewrite a collection item by item and tell whether they changed one, and records whose
missing keys are filled in: when a second loop finds nothing to do.
-/
import Aibot.Lib.Object

namespace Aibot

/-! ## Lists -/

section Sweep

variable {α : Type}

/-- Rewrite each item; the flag tells whether one was changed. None where one raises. -/
def sweep (f : α → Option (Bool × α)) : List α → Option (Bool × List α)
  | [] => some (false, [])
  | a :: as => (f a).bind fun x => (sweep f as).map fun y => (x.1 || y.1, x.2 :: y.2)

variable {f : α → Option (Bool × α)}

theorem sweep_cons_eq_some {a : α} {as : List α} {x : Bool × List α} :
    sweep f (a :: as) = some x ↔
      ∃ y z, f a = some y ∧ sweep f as = some z ∧ x = (y.1 || z.1, y.2 :: z.2) := by
  rw [sweep, Option.bind_eq_some_iff]
  constructor
  · rintro ⟨y, hy, h⟩
    obtain ⟨z, hz, rfl⟩ := Option.map_eq_some_iff.1 h
    exact ⟨y, z, hy, hz, rfl⟩
  · rintro ⟨y, z, hy, hz, rfl⟩
    exact ⟨y, hy, Option.map_eq_some_iff.2 ⟨z, hz, rfl⟩⟩

theorem sweep_forall₂ : ∀ {as : List α} {x : Bool × List α}, sweep f as = some x →
    List.Forall₂ (fun a b => ∃ c, f a = some (c, b)) as x.2
  | [], x, h => by
    cases h
    exact .nil
  | a :: as, x, h => by
    obtain ⟨y, z, hy, hz, rfl⟩ := sweep_cons_eq_some.1 h
    exact .cons ⟨y.1, hy⟩ (sweep_forall₂ hz)

/-- Nothing is done to a list exactly when nothing is done to any item. -/
theorem sweep_unchanged_iff {as : List α} :
    sweep f as = some (false, as) ↔ ∀ a ∈ as, f a = some (false, a) := by
  induction as with
  | nil => simp [sweep]
  | cons a as ih =>
    rw [sweep_cons_eq_some, List.forall_mem_cons, ← ih]
    constructor
    · rintro ⟨⟨c, b⟩, ⟨d, bs⟩, hy, hz, hx⟩
      simp only [Prod.mk.injEq, List.cons.injEq] at hx
      obtain ⟨hflag, rfl, rfl⟩ := hx
      obtain ⟨rfl, rfl⟩ := Bool.or_eq_false_iff.1 hflag.symm
      exact ⟨hy, hz⟩
    · rintro ⟨ha, has⟩
      exact ⟨_, _, ha, has, rfl⟩

/-- Where the body makes no change that it does not report, neither does the loop. -/
theorem sweep_honest : ∀ {as bs : List α}, (∀ a ∈ as, ∀ b, f a = some (false, b) → b = a) →
    sweep f as = some (false, bs) → bs = as
  | [], bs, _, h => by
    cases h
    rfl
  | a :: as, bs, hf, h => by
    obtain ⟨⟨c, b⟩, ⟨d, cs⟩, hy, hz, hx⟩ := sweep_cons_eq_some.1 h
    simp only [Prod.mk.injEq] at hx
    obtain ⟨hflag, rfl⟩ := hx
    obtain ⟨rfl, rfl⟩ := Bool.or_eq_false_iff.1 hflag.symm
    rw [List.forall_mem_cons] at hf
    rw [hf.1 b hy, sweep_honest hf.2 hz]

end Sweep

/-! ## Dictionaries -/

namespace Dict

section Sweep

variable {κ α : Type} [DecidableEq κ]

/-- `sweep` of the values. -/
def sweep (f : κ → α → Option (Bool × α)) (d : Dict κ α) : Option (Bool × Dict κ α) :=
  (Aibot.sweep (fun p => (f p.1 p.2).map fun x => (x.1, (p.1, x.2))) d.entries).map
    fun x => (x.1, ofList x.2)

variable {f : κ → α → Option (Bool × α)} {d : Dict κ α}

/-- The values after a sweep are those of the values before. -/
theorem sweep_get? {x : Bool × Dict κ α} (h : d.sweep f = some x) {k : κ} {b : α} :
    x.2.get? k = some b ↔ ∃ a c, d.get? k = some a ∧ f k a = some (c, b) := by
  obtain ⟨y, hy, rfl⟩ := Option.map_eq_some_iff.1 h
  have hall := sweep_forall₂ hy
  have hkeys : y.2.map Prod.fst = d.entries.map Prod.fst := by
    rw [← List.forall₂_eq_eq_eq, List.forall₂_map_left_iff, List.forall₂_map_right_iff]
    refine hall.flip.imp ?_
    rintro p q ⟨c, hc⟩
    obtain ⟨z, -, hz⟩ := Option.map_eq_some_iff.1 hc
    simp only [Prod.mk.injEq] at hz
    rw [← hz.2]
  have hnodup : (y.2.map Prod.fst).Nodup := by rw [hkeys]; exact d.nodup
  constructor
  · intro hget
    have hmem := mem_of_get?_ofList hget
    obtain ⟨i, hi, hpair⟩ := List.getElem_of_mem hmem
    obtain ⟨hlength, hat⟩ := List.forall₂_iff_get.1 hall
    obtain ⟨c, hc⟩ := hat i (hlength ▸ hi) hi
    obtain ⟨z, hz, hzp⟩ := Option.map_eq_some_iff.1 hc
    simp only [List.get_eq_getElem, hpair, Prod.mk.injEq] at hz hzp
    obtain ⟨-, hkey, hval⟩ := hzp
    refine ⟨d.entries[i].2, z.1, ?_, ?_⟩
    · rw [get?_eq_some, ← hkey]
      exact List.getElem_mem _
    · rw [← hkey, hz, ← hval]
  · rintro ⟨a, c, ha, hf⟩
    obtain ⟨i, hi, hpair⟩ := List.getElem_of_mem (get?_eq_some.1 ha)
    obtain ⟨hlength, hat⟩ := List.forall₂_iff_get.1 hall
    obtain ⟨c', hc⟩ := hat i hi (hlength ▸ hi)
    simp only [List.get_eq_getElem, hpair, hf, Option.map_some, Option.some.injEq, Prod.mk.injEq] at hc
    refine get?_ofList_of_mem hnodup ?_
    rw [hc.2]
    exact List.getElem_mem _

/-- Nothing is done to a dictionary when nothing is done to any value. -/
theorem sweep_unchanged (h : ∀ k a, d.get? k = some a → f k a = some (false, a)) :
    d.sweep f = some (false, d) := by
  have hall : ∀ p ∈ d.entries, ((f p.1 p.2).map fun x => (x.1, (p.1, x.2))) = some (false, p) := by
    intro p hp
    rw [h p.1 p.2 (get?_eq_some.2 hp)]
    rfl
  unfold sweep
  rw [Aibot.sweep_unchanged_iff.2 hall, Option.map_some, ofList_entries]

end Sweep

/-! ## Missing keys -/

section Fill

variable {κ α : Type} [DecidableEq κ]

/-- What a record has after its defaults are set: what it had, else the first default. -/
theorem get?_setDefaults {k : κ} : ∀ (items : List (κ × α)) (d : Dict κ α),
    (setDefaults items d).2.get? k = (d.get? k).or ((items.find? fun p => p.1 = k).map Prod.snd)
  | [], d => by simp [setDefaults]
  | (k', v) :: items, d => by
    rw [setDefaults]
    split_ifs with hk'
    · rw [get?_setDefaults items d]
      obtain ⟨a, ha⟩ := Option.isSome_iff_exists.1 hk'
      by_cases hk : k' = k
      · rw [hk] at ha
        rw [ha, Option.some_or, Option.some_or]
      · rw [List.find?_cons_of_neg (by simpa using hk)]
    · rw [get?_setDefaults items (d.set k' v)]
      by_cases hk : k' = k
      · subst hk
        rw [Option.not_isSome_iff_eq_none] at hk'
        rw [get?_set_self, hk', List.find?_cons_of_pos (by simp)]
        rfl
      · rw [get?_set_of_ne d v (Ne.symm hk), List.find?_cons_of_neg (by simpa using hk)]

/-- Set each item whose key is absent, each value computed on the record so far; the flag tells
whether one was set. None where the computation of a value raises. -/
def fill : List (κ × (Dict κ α → Option α)) → Dict κ α → Option (Bool × Dict κ α)
  | [], d => some (false, d)
  | (k, v) :: items, d =>
    if (d.get? k).isSome then fill items d
    else (v d).bind fun a => (fill items (d.set k a)).map fun x => (true, x.2)

/-- Nothing is set where every key is there. -/
theorem fill_of_isSome : ∀ {items : List (κ × (Dict κ α → Option α))} {d : Dict κ α},
    (∀ k ∈ items.map Prod.fst, (d.get? k).isSome = true) → fill items d = some (false, d)
  | [], _, _ => rfl
  | (k, v) :: items, d, h => by
    rw [fill, if_pos (h k List.mem_cons_self)]
    exact fill_of_isSome fun k' hk' => h k' (List.mem_cons_of_mem _ hk')

/-- Where nothing was set, every key was there. -/
theorem isSome_of_fill_unchanged : ∀ {items : List (κ × (Dict κ α → Option α))} {d e : Dict κ α},
    fill items d = some (false, e) → e = d ∧ ∀ k ∈ items.map Prod.fst, (d.get? k).isSome = true
  | [], d, e, h => by
    cases h
    exact ⟨rfl, nofun⟩
  | (k, v) :: items, d, e, h => by
    rw [fill] at h
    split_ifs at h with hk
    · obtain ⟨rfl, hall⟩ := isSome_of_fill_unchanged h
      exact ⟨rfl, List.forall_mem_cons.2 ⟨hk, hall⟩⟩
    · obtain ⟨a, -, h⟩ := Option.bind_eq_some_iff.1 h
      obtain ⟨x, -, h⟩ := Option.map_eq_some_iff.1 h
      cases h

/-- Filling takes no key away. -/
theorem isSome_fill_of_isSome {k : κ} : ∀ {items : List (κ × (Dict κ α → Option α))} {d : Dict κ α}
    {x : Bool × Dict κ α}, fill items d = some x → (d.get? k).isSome = true → (x.2.get? k).isSome = true
  | [], d, x, h, hk => by
    cases h
    exact hk
  | (k', v) :: items, d, x, h, hk => by
    rw [fill] at h
    split_ifs at h
    · exact isSome_fill_of_isSome h hk
    · obtain ⟨a, -, h⟩ := Option.bind_eq_some_iff.1 h
      obtain ⟨y, hy, rfl⟩ := Option.map_eq_some_iff.1 h
      show (y.2.get? k).isSome = true
      exact isSome_fill_of_isSome hy (isSome_get?_set hk k' a)

/-- Every key is there after filling. -/
theorem isSome_fill {k : κ} : ∀ {items : List (κ × (Dict κ α → Option α))} {d : Dict κ α}
    {x : Bool × Dict κ α}, fill items d = some x → k ∈ items.map Prod.fst → (x.2.get? k).isSome = true
  | (k', v) :: items, d, x, h, hmem => by
    rw [fill] at h
    rcases List.mem_cons.1 hmem with rfl | hmem
    · split_ifs at h with hk
      · exact isSome_fill_of_isSome h hk
      · obtain ⟨a, -, h⟩ := Option.bind_eq_some_iff.1 h
        obtain ⟨y, hy, rfl⟩ := Option.map_eq_some_iff.1 h
        show (y.2.get? k).isSome = true
        refine isSome_fill_of_isSome hy ?_
        rw [get?_set_self]
        rfl
    · split_ifs at h
      · exact isSome_fill h hmem
      · obtain ⟨a, -, h⟩ := Option.bind_eq_some_iff.1 h
        obtain ⟨y, hy, rfl⟩ := Option.map_eq_some_iff.1 h
        show (y.2.get? k).isSome = true
        exact isSome_fill hy hmem

/-- A key that is none of the items' is left alone. -/
theorem get?_fill_of_not_mem {k : κ} : ∀ {items : List (κ × (Dict κ α → Option α))} {d : Dict κ α}
    {x : Bool × Dict κ α}, fill items d = some x → k ∉ items.map Prod.fst → x.2.get? k = d.get? k
  | [], d, x, h, _ => by
    cases h
    rfl
  | (k', v) :: items, d, x, h, hmem => by
    rw [fill] at h
    rw [List.map_cons, List.mem_cons, not_or] at hmem
    split_ifs at h
    · exact get?_fill_of_not_mem h hmem.2
    · obtain ⟨a, -, h⟩ := Option.bind_eq_some_iff.1 h
      obtain ⟨y, hy, rfl⟩ := Option.map_eq_some_iff.1 h
      rw [get?_fill_of_not_mem hy hmem.2, get?_set_of_ne d a hmem.1]

end Fill

end Dict

end Aibot
