/-
What two thousand rejections do to the ledger: each is recorded and trims the event list, so after
them the ledger holds no BUY and no SELL any more, while the positions and the cash are untouched.
-/
import Aibot.Risk.Trail

namespace Aibot.Risk

open Aibot.Store

/-! ## The calls -/

/-- A signature of its own for each number. -/
def noiseSignature (i : Nat) : String := String.ofList (List.replicate i 'x')

theorem noiseSignature_injective {i j : Nat} (h : noiseSignature i = noiseSignature j) : i = j := by
  have hlist := String.ofList_injective h
  simpa using congrArg List.length hlist

/-- A rejection of another mint. -/
def noise (i : Nat) (now : Int) : Op := .rejection "noise" 0 [] (noiseSignature i) now

/-- Rejections under distinct signatures. -/
def flood (n : Nat) (now : Int) : List Op := (List.range n).map fun i => noise i now

theorem flood_succ (n : Nat) (now : Int) : flood (n + 1) now = flood n now ++ [noise n now] := by
  unfold flood
  rw [List.range_succ, List.map_append, List.map_cons, List.map_nil]

/-- The event of a rejection of the flood, with a number below `n`. -/
def IsNoise (n : Nat) (e : Event) : Prop :=
  ∃ i < n, ∃ score reason, e.body = .signalRejected "noise" (noiseSignature i) score reason

theorem IsNoise.mono {n m : Nat} (h : n ≤ m) {e : Event} : IsNoise n e → IsNoise m e := by
  rintro ⟨i, hi, score, reason, he⟩
  exact ⟨i, by omega, score, reason, he⟩

theorem IsNoise.not_trade {n : Nat} {e : Event} (h : IsNoise n e) : e.isTrade = false := by
  obtain ⟨i, -, score, reason, he⟩ := h
  unfold Event.isTrade
  rw [he]
  rfl

theorem flood_offExit (n : Nat) (now : Int) : ∀ op ∈ flood n now, op.offExit = true := by
  intro op hop
  obtain ⟨i, -, rfl⟩ := List.mem_map.1 hop
  rfl

/-- Events that are no trades are of no kind that only trades are of. -/
theorem kind_of_noTrades {events : List Event} (h : ∀ e ∈ events, e.isTrade = false) {kind : Event → Bool}
    (hkind : ∀ e, kind e = true → e.isTrade = true) : ∀ e ∈ events, kind e = false := by
  intro e he
  rw [Bool.eq_false_iff]
  intro hb
  have hquiet := h e he
  rw [hkind e hb] at hquiet
  cases hquiet

/-- Events that are no trades hold no BUY. -/
theorem buys_noTrades {events : List Event} (h : ∀ e ∈ events, e.isTrade = false) : buys events = [] := by
  refine List.filterMap_eq_nil_iff.2 fun e he => ?_
  have hquiet := h e he
  unfold Event.isTrade at hquiet
  exact Option.isNone_iff_eq_none.1 (Option.isSome_eq_false_iff.1 (Bool.or_eq_false_iff.1 hquiet).1)

/-! ## Their effect -/

/-- A rejection whose mint and signature the ledger does not hold yet is recorded. -/
theorem recordPaperRejection_fresh {mint : Mint} {score : Int} {reasons : List String} {signature : String}
    {now : Int} {ledger : Ledger}
    (h : ∀ e ∈ ledger.events, ∀ score reason, e.body ≠ .signalRejected mint signature score reason) :
    recordPaperRejection mint score reasons signature now ledger =
      (ledger.appendEvent (.instant now)
        (.signalRejected mint signature score ("; ".intercalate reasons))).trimEvents := by
  unfold recordPaperRejection
  rw [if_neg]
  intro hany
  obtain ⟨e, he, hmatch⟩ := List.any_eq_true.1 hany
  split at hmatch
  · rename_i m s score reason hb
    obtain ⟨rfl, rfl⟩ := of_decide_eq_true hmatch
    exact h e he score reason hb
  · cases hmatch

/-- The world after some of them: the rejections follow the events that were there, and the ledger
keeps the last two thousand. -/
structure Flooded (w : World) (n : Nat) (w' : World) (new : List Event) : Prop where
  length : new.length = n
  isNoise : ∀ e ∈ new, IsNoise n e
  recorded : w'.recorded = w.recorded ++ new
  events : w'.ledger.events =
    (w.ledger.events ++ new).drop (w.ledger.events.length + n - eventLimit)
  positions : w'.ledger.positions = w.ledger.positions
  cashLamports : w'.ledger.cashLamports = w.ledger.cashLamports
  ids : w'.ids = w.ids

/-- The next rejection is under a signature the ledger does not hold. -/
theorem Flooded.fresh {w w' : World} {n : Nat} {new : List Event} (h : Flooded w n w' new)
    (htrades : ∀ e ∈ w.ledger.events, e.isTrade = true) : ∀ e ∈ w'.ledger.events, ∀ score reason,
      e.body ≠ .signalRejected "noise" (noiseSignature n) score reason := by
  intro e he score reason hb
  rw [h.events] at he
  rcases List.mem_append.1 (List.mem_of_mem_drop he) with hold | hnew
  · have ht := htrades e hold
    unfold Event.isTrade at ht
    rw [hb] at ht
    cases ht
  · obtain ⟨i, hi, _, _, hb'⟩ := h.isNoise e hnew
    rw [hb] at hb'
    have heq := noiseSignature_injective (EventBody.signalRejected.inj hb').2.1
    omega

/-- The last events of a list, after one more. -/
theorem drop_concat (old new : List Event) (e : Event) (limit : Nat) :
    ((old ++ new).drop (old.length + new.length - limit) ++ [e]).drop
        (((old ++ new).drop (old.length + new.length - limit) ++ [e]).length - limit) =
      (old ++ (new ++ [e])).drop (old.length + (new.length + 1) - limit) := by
  rw [← List.drop_append_of_le_length (by rw [List.length_append]; omega), List.drop_drop, List.append_assoc]
  congr 1
  simp only [List.length_drop, List.length_append, List.length_singleton]
  omega

/-- One more rejection. -/
theorem Flooded.step {w w' : World} {n : Nat} {new : List Event} (h : Flooded w n w' new)
    (htrades : ∀ e ∈ w.ledger.events, e.isTrade = true) (now : Int) :
    ∃ w'' e, w'.step (noise n now) = some w'' ∧ Flooded w (n + 1) w'' (new ++ [e]) := by
  have hrun : (noise n now).run w'.ledger = (.done,
      { (w'.ledger.appendEvent (.instant now) (.signalRejected "noise" (noiseSignature n) 0
          ("; ".intercalate []))).trimEvents with version := w'.ledger.version + 1 }) := by
    rw [Op.run_eq (noise n now) rfl]
    simp only [noise, Op.mutate]
    rw [recordPaperRejection_fresh (h.fresh htrades)]
  have hstep : w'.step (noise n now) = some (w'.after (noise n now)) := by
    unfold World.step
    refine if_pos fun id hid => ?_
    cases hid
  have hnew : newEvents w'.ledger ((noise n now).run w'.ledger).2 = [⟨w'.ledger.nextEventSeq,
      .instant now, .signalRejected "noise" (noiseSignature n) 0 ("; ".intercalate [])⟩] := by
    rw [hrun, newEvents_version, newEvents_trim]
  refine ⟨_, ⟨w'.ledger.nextEventSeq, .instant now, .signalRejected "noise" (noiseSignature n) 0
    ("; ".intercalate [])⟩, hstep, ?_, ?_, ?_, ?_, ?_, ?_, ?_⟩
  · rw [List.length_append, h.length, List.length_singleton]
  · intro e he
    rcases List.mem_append.1 he with he | he
    · exact (h.isNoise e he).mono (Nat.le_succ n)
    · rw [List.mem_singleton.1 he]
      exact ⟨n, Nat.lt_succ_self n, 0, _, rfl⟩
  · show w'.recorded ++ newEvents w'.ledger ((noise n now).run w'.ledger).2 = _
    rw [hnew, h.recorded, List.append_assoc]
  · show ((noise n now).run w'.ledger).2.events = _
    rw [hrun]
    simp only [Ledger.trimEvents, Ledger.appendEvent]
    rw [h.events, ← h.length]
    exact drop_concat ..
  · show ((noise n now).run w'.ledger).2.positions = _
    rw [hrun]; exact h.positions
  · show ((noise n now).run w'.ledger).2.cashLamports = _
    rw [hrun]; exact h.cashLamports
  · show w'.ids ++ (noise n now).freshId.toList = _
    rw [h.ids]; exact List.append_nil _

theorem flood_run {w : World} (hlength : w.ledger.events.length ≤ eventLimit)
    (htrades : ∀ e ∈ w.ledger.events, e.isTrade = true) (now : Int) :
    ∀ n, ∃ w' new, Run World.step Run.anyStep w (flood n now) w' ∧ Flooded w n w' new
  | 0 => by
    refine ⟨w, [], .nil w, rfl, (fun e he => by cases he), (List.append_nil _).symm, ?_, rfl, rfl, rfl⟩
    rw [List.append_nil, Nat.add_zero, Nat.sub_eq_zero_of_le hlength, List.drop_zero]
  | n + 1 => by
    obtain ⟨w', new, hrun, hflooded⟩ := flood_run hlength htrades now n
    obtain ⟨w'', e, hstep, hflooded'⟩ := hflooded.step htrades now
    rw [flood_succ]
    exact ⟨w'', new ++ [e], hrun.concat trivial hstep, hflooded'⟩

/-- Two thousand rejections leave no trade in the ledger, and change nothing else of the world but
what it recorded. -/
theorem flood_forgets {ok : World → Op → Prop} {w : World} (hlength : w.ledger.events.length ≤ eventLimit)
    (htrades : ∀ e ∈ w.ledger.events, e.isTrade = true) (now : Int)
    (hok : ∀ i w, ok w (noise i now)) : ∃ w' new,
      Run World.step ok w (flood eventLimit now) w' ∧ (∀ e ∈ new, e.isTrade = false) ∧
      w'.ledger.events = new ∧ w'.recorded = w.recorded ++ new ∧
      w'.ledger.positions = w.ledger.positions ∧ w'.ledger.cashLamports = w.ledger.cashLamports ∧
      w'.ids = w.ids := by
  obtain ⟨w', new, hrun, h⟩ := flood_run hlength htrades now eventLimit
  refine ⟨w', new, hrun.of_forall_mem ?_, fun e he => (h.isNoise e he).not_trade, ?_, h.recorded,
    h.positions, h.cashLamports, h.ids⟩
  · rintro op hop v
    obtain ⟨i, -, rfl⟩ := List.mem_map.1 hop
    exact hok i v
  · rw [h.events, Nat.add_sub_cancel, List.drop_left]

end Aibot.Risk
