/-
Obligations in a log: an entry opens one, a later entry closes it. Whether one is pending at the
end of a log, and that no entry of a kind ever happens while one is.
-/
import Mathlib.Tactic

namespace Aibot

variable {α : Type*}

/-- Some entry of the log opens the obligation and no entry after it closes it. -/
def Pending (opens closes : α → Prop) (log : List α) : Prop :=
  ∃ before x after, log = before ++ x :: after ∧ opens x ∧ ∀ y ∈ after, ¬ closes y

/-- No entry of the kind `bad` comes while the obligation is pending. -/
def NeverWhilePending (opens closes bad : α → Prop) (log : List α) : Prop :=
  ∀ before x after, log = before ++ x :: after → bad x → ¬ Pending opens closes before

variable {opens closes bad : α → Prop}

/-- Where a log with one more entry is split: at that entry, or before it. -/
theorem split_concat {log before after : List α} {x y : α} (h : log ++ [x] = before ++ y :: after) :
    (before = log ∧ y = x ∧ after = []) ∨ ∃ after', after = after' ++ [x] ∧ log = before ++ y :: after' := by
  rcases List.eq_nil_or_concat after with rfl | ⟨after', z, rfl⟩
  · obtain ⟨rfl, he⟩ := List.append_inj' h rfl
    cases he
    exact .inl ⟨rfl, rfl, rfl⟩
  · rw [List.concat_eq_append, ← List.cons_append, ← List.append_assoc] at h
    obtain ⟨rfl, he⟩ := List.append_inj' h rfl
    cases he
    exact .inr ⟨after', List.concat_eq_append, rfl⟩

theorem not_pending_nil : ¬ Pending opens closes [] := by
  rintro ⟨before, x, after, h, -⟩
  exact List.cons_ne_nil _ _ (List.append_eq_nil_iff.1 h.symm).2

/-- One more entry: it opens the obligation, or it leaves a pending one pending. -/
theorem pending_concat {log : List α} {x : α} :
    Pending opens closes (log ++ [x]) ↔ opens x ∨ Pending opens closes log ∧ ¬ closes x := by
  constructor
  · rintro ⟨before, y, after, h, ho, hc⟩
    rcases split_concat h with ⟨-, rfl, -⟩ | ⟨after', rfl, rfl⟩
    · exact .inl ho
    · exact .inr ⟨⟨before, y, after', rfl, ho, fun v hv => hc v (List.mem_append_left _ hv)⟩,
        hc x (List.mem_append_right _ (List.mem_singleton.2 rfl))⟩
  · rintro (ho | ⟨⟨before, y, after, rfl, ho, hc⟩, hx⟩)
    · exact ⟨log, x, [], rfl, ho, by simp⟩
    · refine ⟨before, y, after ++ [x], by simp, ho, fun v hv => ?_⟩
      rcases List.mem_append.1 hv with hv | hv
      · exact hc v hv
      · rw [List.mem_singleton.1 hv]; exact hx

/-- Where nothing closes the obligation, it is pending once it was opened. -/
theorem pending_iff_of_never_closed (hc : ∀ x, ¬ closes x) {log : List α} :
    Pending opens closes log ↔ ∃ x ∈ log, opens x := by
  constructor
  · rintro ⟨before, x, after, rfl, ho, -⟩
    exact ⟨x, by simp, ho⟩
  · rintro ⟨x, hx, ho⟩
    obtain ⟨before, after, rfl⟩ := List.append_of_mem hx
    exact ⟨before, x, after, rfl, ho, fun y _ => hc y⟩

theorem neverWhilePending_nil : NeverWhilePending opens closes bad [] := by
  intro before x after h
  exact absurd (List.append_eq_nil_iff.1 h.symm).2 (List.cons_ne_nil _ _)

/-- One more entry keeps the rule unless it is a bad one in a pending log. -/
theorem neverWhilePending_concat {log : List α} {x : α} :
    NeverWhilePending opens closes bad (log ++ [x]) ↔
      NeverWhilePending opens closes bad log ∧ (bad x → ¬ Pending opens closes log) := by
  constructor
  · intro h
    exact ⟨fun before y after he => h before y (after ++ [x]) (by rw [he]; simp), h log x [] rfl⟩
  · rintro ⟨h, hx⟩ before y after he hy
    rcases split_concat he with ⟨rfl, rfl, -⟩ | ⟨after', -, rfl⟩
    · exact hx hy
    · exact h before y after' rfl hy

end Aibot
