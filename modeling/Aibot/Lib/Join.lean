/-
Lookups of distinct keys in a dictionary: what they find and what they leave are its values.
-/
import Aibot.Lib.Dict

namespace Aibot.Dict

variable {κ α : Type*} [DecidableEq κ]

/-- The value under a key, with the key. -/
def find? (d : Dict κ α) (k : κ) : Option (κ × α) := (d.get? k).map fun a => (k, a)

/-- The keys that some lookups find. -/
def found (d : Dict κ α) (keys : List κ) : List κ := keys.filter fun k => (d.get? k).isSome

/-- The values under no key of a list. -/
def orphans (d : Dict κ α) (used : List κ) : List α := (d.entries.filter fun p => p.1 ∉ used).map Prod.snd

theorem mem_filterMap_find? {d : Dict κ α} {keys : List κ} {p : κ × α} :
    p ∈ keys.filterMap d.find? ↔ p ∈ d.entries ∧ p.1 ∈ keys := by
  rw [List.mem_filterMap]
  constructor
  · rintro ⟨k, hk, hfind⟩
    obtain ⟨a, ha, rfl⟩ := Option.map_eq_some_iff.1 hfind
    exact ⟨get?_eq_some.1 ha, hk⟩
  · rintro ⟨hp, hk⟩
    refine ⟨p.1, hk, ?_⟩
    unfold find?
    rw [get?_eq_some.2 (show (p.1, p.2) ∈ d.entries from hp)]
    rfl

theorem nodup_filterMap_find? (d : Dict κ α) {keys : List κ} (h : keys.Nodup) : (keys.filterMap d.find?).Nodup := by
  refine h.filterMap fun k k' p hp hp' => ?_
  obtain ⟨a, -, rfl⟩ := Option.map_eq_some_iff.1 hp
  obtain ⟨a', -, heq⟩ := Option.map_eq_some_iff.1 hp'
  exact (congrArg Prod.fst heq).symm

/-- What lookups of distinct keys find, with the rest, is the dictionary. -/
theorem perm_orphans (d : Dict κ α) {keys : List κ} (h : keys.Nodup) :
    (keys.filterMap d.get? ++ d.orphans (d.found keys)).Perm d.values := by
  have hfound : (keys.filterMap d.find?).Perm (d.entries.filter fun p => p.1 ∈ keys) := by
    rw [List.perm_ext_iff_of_nodup (nodup_filterMap_find? d h) (d.nodup.of_map.filter _)]
    intro p
    rw [mem_filterMap_find?, List.mem_filter, decide_eq_true_iff]
  have hvalues : keys.filterMap d.get? = (keys.filterMap d.find?).map Prod.snd := by
    rw [List.map_filterMap]
    refine List.filterMap_congr fun k _ => ?_
    unfold find?
    cases d.get? k <;> rfl
  have horphans : d.orphans (d.found keys) = (d.entries.filter fun p => ¬ p.1 ∈ keys).map Prod.snd := by
    unfold orphans
    refine congrArg _ (List.filter_congr fun p hp => ?_)
    have hsome : (d.get? p.1).isSome = true := by
      rw [get?_eq_some.2 (show (p.1, p.2) ∈ d.entries from hp)]
      rfl
    simp [found, hsome]
  rw [hvalues, horphans, ← List.map_append]
  refine List.Perm.map _ ((hfound.append_right _).trans ?_)
  simpa using List.filter_append_perm (fun p : κ × α => decide (p.1 ∈ keys)) d.entries

end Aibot.Dict
