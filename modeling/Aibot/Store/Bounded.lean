/-
The loop of a lock diagnosis ends: every turn returns or leaves fewer events, stacks or frames. What it returns is
JSON within the bound, and the whole payload where that fits.
-/
import Aibot.Store.Diagnostics

namespace Aibot.Store.Diagnostics

open Json (Floats)
open Value (Serializable)

/-! ## Items in place -/

section Items

variable {key key' : String} {value : Value} {items : Items}

theorem get_setItem_of_ne (h : key' ≠ key) :
    (Value.dict (setItem key value items)).get key' = (Value.dict items).get key' :=
  Value.get_replaced_of_ne h

theorem get_setItem (h : (Value.dict items).get key ≠ .none) :
    (Value.dict (setItem key value items)).get key = value :=
  Value.get_replaced (List.any_eq_true.2 ⟨_, Value.mem_of_get rfl h, decide_eq_true rfl⟩)

theorem serializable_setItem (h : Serializable (.dict items)) (hvalue : Serializable value) :
    Serializable (.dict (setItem key value items)) := by
  apply Value.serializable_dict.2
  intro p hp
  obtain ⟨q, hq, rfl⟩ := List.mem_map.1 hp
  obtain ⟨hkey, hitem⟩ := Value.serializable_dict.1 h q hq
  split_ifs
  · exact ⟨hkey, hvalue⟩
  · exact ⟨hkey, hitem⟩

end Items

/-! ## What is left to remove -/

def framesLeft (stack : Value) : Nat :=
  match stack.get "frames" with
  | .list frames => frames.length
  | _ => 0

/-- The stacks, and the frames of the one that stays to the end. -/
def stacksLeft : Value → Nat
  | .list (first :: rest) => rest.length + 1 + framesLeft first
  | _ => 0

def eventsLeft (candidate : Items) : Nat :=
  match (Value.dict candidate).get "recent_events" with
  | .list events => events.length
  | _ => 0

def turnsLeft (candidate : Items) : Nat := eventsLeft candidate + stacksLeft (stacksOf candidate)

theorem framesLeft_eq {stack : Value} {frames : List Value} (h : stack.get "frames" = .list frames) :
    framesLeft stack = frames.length := by
  unfold framesLeft
  rw [h]

theorem eventsLeft_eq {candidate : Items} {events : List Value}
    (h : (Value.dict candidate).get "recent_events" = .list events) : eventsLeft candidate = events.length := by
  unfold eventsLeft
  rw [h]

/-- A stack goes, or frames of the last one. -/
theorem stacksLeft_trimStacks (first : Value) (rest : List Value) :
    stacksLeft (.list (trimStacks first rest)) < stacksLeft (.list (first :: rest)) := by
  unfold trimStacks
  split_ifs with hmany
  · obtain ⟨second, rest, rfl⟩ : ∃ second rest', rest = second :: rest' := by
      cases rest with
      | nil => exact absurd hmany (by simp)
      | cons second rest => exact ⟨second, rest, rfl⟩
    simp [stacksLeft]
  · split
    · rename_i lastStack frame frames hframes
      simp only
      split_ifs with hone
      · simp [stacksLeft]
      · have hkept : framesLeft (.dict (setItem "frames"
            (.list ((frame :: frames).take (max 1 ((frame :: frames).length / 2)))) lastStack)) =
              ((frame :: frames).take (max 1 ((frame :: frames).length / 2))).length := by
          apply framesLeft_eq
          apply get_setItem
          rw [hframes]
          simp
        have hfewer : ((frame :: frames).take (max 1 ((frame :: frames).length / 2))).length <
            (frame :: frames).length := by
          rw [List.length_take] at hone ⊢
          simp only [List.length_cons] at hone ⊢
          omega
        simp only [stacksLeft, hkept, framesLeft_eq hframes, List.length_nil]
        omega
    · simp [stacksLeft]

theorem serializable_trimStacks {first : Value} {rest : List Value} (h : ∀ x ∈ first :: rest, Serializable x) :
    ∀ x ∈ trimStacks first rest, Serializable x := by
  unfold trimStacks
  split_ifs with hmany
  · exact fun x hx => h x (List.dropLast_subset _ hx)
  · split
    · rename_i lastStack frame frames hframes
      simp only
      split_ifs with hone
      · exact nofun
      · have hlast : Serializable (.dict lastStack) := h _ (by simp)
        have hlist : Serializable (.list (frame :: frames)) := by
          rw [← hframes]
          exact hlast.get "frames"
        intro x hx
        rw [List.mem_singleton.1 hx]
        apply serializable_setItem hlast
        exact Value.serializable_list.2 fun x hx => Value.serializable_list.1 hlist x (List.mem_of_mem_take hx)
    · exact nofun

/-! ## Stacks in place -/

section Stacks

variable {candidate record : Items} {trimmed : List Value}

theorem stacksOf_record (h : (Value.dict candidate).get "latest_timeout" = .dict record) :
    stacksOf candidate = (Value.dict record).get "same_process_traceback" := by
  unfold stacksOf
  rw [h]

theorem stacksOf_candidate (h : ∀ record, (Value.dict candidate).get "latest_timeout" ≠ .dict record) :
    stacksOf candidate = (Value.dict candidate).get "same_process_traceback" := by
  unfold stacksOf
  split
  · rename_i record hrecord
    exact absurd hrecord (h record)
  · rfl

theorem setStacks_record (h : (Value.dict candidate).get "latest_timeout" = .dict record) :
    setStacks trimmed candidate =
      setItem "latest_timeout" (.dict (setItem "same_process_traceback" (.list trimmed) record)) candidate := by
  unfold setStacks
  rw [h]

theorem setStacks_candidate (h : ∀ record, (Value.dict candidate).get "latest_timeout" ≠ .dict record) :
    setStacks trimmed candidate = setItem "same_process_traceback" (.list trimmed) candidate := by
  unfold setStacks
  split
  · rename_i record hrecord
    exact absurd hrecord (h record)
  · rfl

theorem stacksOf_setStacks (h : stacksOf candidate ≠ .none) :
    stacksOf (setStacks trimmed candidate) = .list trimmed := by
  by_cases hrecord : ∃ record, (Value.dict candidate).get "latest_timeout" = .dict record
  · obtain ⟨record, hrecord⟩ := hrecord
    rw [stacksOf_record hrecord] at h
    rw [setStacks_record hrecord, stacksOf_record (get_setItem (by rw [hrecord]; simp))]
    exact get_setItem h
  · have hnone : ∀ record, (Value.dict candidate).get "latest_timeout" ≠ .dict record :=
      fun record h => hrecord ⟨record, h⟩
    rw [stacksOf_candidate hnone] at h
    have hsame : (Value.dict (setItem "same_process_traceback" (.list trimmed) candidate)).get "latest_timeout" =
        (Value.dict candidate).get "latest_timeout" := get_setItem_of_ne (by decide)
    rw [setStacks_candidate hnone, stacksOf_candidate (by rw [hsame]; exact hnone)]
    exact get_setItem h

/-- The stacks are not among the events. -/
theorem eventsLeft_setStacks : eventsLeft (setStacks trimmed candidate) = eventsLeft candidate := by
  have hget : (Value.dict (setStacks trimmed candidate)).get "recent_events" =
      (Value.dict candidate).get "recent_events" := by
    unfold setStacks
    split
    · exact get_setItem_of_ne (by decide)
    · exact get_setItem_of_ne (by decide)
  unfold eventsLeft
  rw [hget]

theorem stacksOf_setEvents (events : List Value) :
    stacksOf (setItem "recent_events" (.list events) candidate) = stacksOf candidate := by
  unfold stacksOf
  rw [get_setItem_of_ne (by decide), get_setItem_of_ne (by decide)]

theorem serializable_stacksOf (h : Serializable (.dict candidate)) : Serializable (stacksOf candidate) := by
  unfold stacksOf
  have hrecord := h.get "latest_timeout"
  split
  · rename_i record heq
    rw [heq] at hrecord
    exact hrecord.get _
  · exact h.get _

theorem serializable_setStacks (h : Serializable (.dict candidate)) (htrimmed : ∀ x ∈ trimmed, Serializable x) :
    Serializable (.dict (setStacks trimmed candidate)) := by
  have hlist : Serializable (.list trimmed) := Value.serializable_list.2 htrimmed
  have hrecord := h.get "latest_timeout"
  unfold setStacks
  split
  · rename_i record heq
    rw [heq] at hrecord
    exact serializable_setItem h (serializable_setItem hrecord hlist)
  · exact serializable_setItem h hlist

end Stacks

/-! ## Turns -/

/-- The bytes are JSON within the bound. -/
structure Bounded (bytes : List UInt8) : Prop where
  json : ∃ text, bytes = utf8 (String.ofList text) ∧ Json.Text.IsDocument text
  bound : bytes.length ≤ MAX_SNAPSHOT_BYTES

variable {floats : Floats} {candidate : Items}

theorem encode_isSome : (encode floats candidate).isSome = true ↔ Serializable (.dict candidate) := by
  unfold encode
  rw [Option.isSome_map, Value.dumps_isSome]

theorem bounded_of_encode {bytes : List UInt8} (h : encode floats candidate = some bytes)
    (hbound : bytes.length ≤ MAX_SNAPSHOT_BYTES) : Bounded bytes := by
  unfold encode at h
  obtain ⟨text, htext, rfl⟩ := Option.map_eq_some_iff.1 h
  exact ⟨⟨_, rfl, text, ['\n'], Value.isValue_dumps htext, by simp, rfl⟩, hbound⟩

/-- The last resort as a value. -/
def fallback : Json :=
  .obj [("schema_version", .int 1), ("latest_timeout", .obj [("event", .str "TIMEOUT"), ("unavailable", .bool true)]),
    ("recent_events", .arr [])]

/-- A way to write floats, for payloads that have none but zero. -/
def zeroFloats : Floats where
  repr _ := ['0', '.', '0']
  number _ := ⟨[], ['0'], ['.', '0'], [], rfl, Or.inl rfl, Or.inl rfl,
    Or.inr ⟨['0'], rfl, by simp, by simp⟩, Or.inl rfl⟩

theorem fallbackText_eq :
    fallbackText = String.ofList (Json.Text.ofTokens zeroFloats (Json.print fallback).1 ++ ['\n']) := by
  decide +kernel

theorem bounded_fallback : Bounded (utf8 fallbackText) := by
  refine ⟨⟨_, congrArg utf8 fallbackText_eq, _, ['\n'], Json.Text.isValue_print zeroFloats fallback ?_, by simp, rfl⟩,
    ?_⟩
  · rfl
  · decide +kernel

theorem serializable_popItem {key : String} (h : Serializable (.dict candidate)) :
    Serializable (.dict (popItem key candidate)) :=
  Value.serializable_dict.2 fun p hp => Value.serializable_dict.1 h p (List.mem_filter.1 hp).1

theorem serializable_minimalCandidate (h : Serializable (.dict candidate)) :
    Serializable (.dict (minimalCandidate candidate)) := by
  have hsafe : ∀ items : Items, Serializable (.dict items) →
      Serializable (.ofItems ((safeKeys.filter (hasKey · items)).map
      fun key => (key, (Value.dict items).get key))) := by
    intro items hitems
    apply Value.serializable_ofItems
    intro p hp
    obtain ⟨key, -, rfl⟩ := List.mem_map.1 hp
    exact hitems.get key
  have hrecord := h.get "latest_timeout"
  apply Value.serializable_dict.2
  intro p hp
  simp only [minimalCandidate, List.mem_cons, List.not_mem_nil, or_false] at hp
  rcases hp with rfl | rfl | rfl
  · exact ⟨⟨_, rfl⟩, rfl⟩
  · refine ⟨⟨_, rfl⟩, hsafe _ ?_⟩
    split
    · rename_i record heq
      rw [heq] at hrecord
      exact serializable_popItem hrecord
    · exact serializable_popItem h
  · exact ⟨⟨_, rfl⟩, rfl⟩

/-- The last resort returns. -/
theorem minimalTurn_returns (h : Serializable (.dict candidate)) :
    ∃ bytes, minimalTurn floats candidate = .returned bytes ∧ Bounded bytes := by
  obtain ⟨encoded, hencoded⟩ := Option.isSome_iff_exists.1 (encode_isSome.2 (serializable_minimalCandidate h))
  unfold minimalTurn
  rw [hencoded]
  refine ⟨_, rfl, ?_⟩
  split_ifs with hfits
  · exact bounded_of_encode hencoded hfits
  · exact bounded_fallback

/-- A turn ends the loop with bounded bytes, or leaves less to remove. -/
theorem turn_cases (floats : Floats) (h : Serializable (.dict candidate)) :
    (∃ bytes, turn floats candidate = .returned bytes ∧ Bounded bytes) ∨
      ∃ candidate', turn floats candidate = .again candidate' ∧ Serializable (.dict candidate') ∧
        turnsLeft candidate' < turnsLeft candidate := by
  obtain ⟨encoded, hencoded⟩ := Option.isSome_iff_exists.1 (encode_isSome.2 h)
  unfold turn
  rw [hencoded]
  simp only
  split_ifs with hfits
  · exact Or.inl ⟨encoded, rfl, bounded_of_encode hencoded hfits⟩
  split
  · -- an event goes
    rename_i event events hevents
    have hlist : Serializable (.list (event :: events)) := by
      rw [← hevents]
      exact h.get _
    have hrest : Serializable (.list events) :=
      Value.serializable_list.2 fun x hx => Value.serializable_list.1 hlist x (List.mem_cons_of_mem _ hx)
    refine Or.inr ⟨_, rfl, serializable_setItem h hrest, ?_⟩
    unfold turnsLeft
    rw [stacksOf_setEvents, eventsLeft_eq hevents, eventsLeft_eq (get_setItem (by rw [hevents]; simp)),
      List.length_cons]
    omega
  · split
    · -- a stack or frames go
      rename_i first rest hstacks
      have hlist : Serializable (.list (first :: rest)) := by
        rw [← hstacks]
        exact serializable_stacksOf h
      have htrimmed := serializable_trimStacks (Value.serializable_list.1 hlist)
      refine Or.inr ⟨_, rfl, serializable_setStacks h htrimmed, ?_⟩
      have hfewer := stacksLeft_trimStacks first rest
      unfold turnsLeft
      rw [eventsLeft_setStacks, stacksOf_setStacks (by rw [hstacks]; simp), hstacks]
      omega
    · exact Or.inl (minimalTurn_returns h)

/-! ## The loop -/

theorem returns_of_turnsLeft (floats : Floats) {turns : Nat} (h : Serializable (.dict candidate))
    (hturns : turnsLeft candidate < turns) :
    ∃ bytes, boundedDiagnosticBytes floats turns candidate = some (.bytes bytes) ∧ Bounded bytes := by
  induction turns generalizing candidate with
  | zero => omega
  | succ turns ih =>
    unfold boundedDiagnosticBytes
    rcases turn_cases floats h with ⟨bytes, hturn, hbounded⟩ | ⟨candidate', hturn, hserializable, hless⟩
    · rw [hturn]
      exact ⟨bytes, rfl, hbounded⟩
    · rw [hturn]
      exact ih hserializable (by omega)

theorem returns_payload {payload : Items} {full : List UInt8} (h : encode floats payload = some full)
    (hfits : full.length ≤ MAX_SNAPSHOT_BYTES) (turns : Nat) :
    boundedDiagnosticBytes floats (turns + 1) payload = some (.bytes full) := by
  unfold boundedDiagnosticBytes turn
  rw [h]
  simp only [hfits, if_true]

/-- Turns to spare change nothing. -/
theorem returns_of_le {turns turns' : Nat} {result : Result} (hle : turns ≤ turns')
    (h : boundedDiagnosticBytes floats turns candidate = some result) :
    boundedDiagnosticBytes floats turns' candidate = some result := by
  induction turns generalizing candidate turns' with
  | zero => cases h
  | succ turns ih =>
    obtain ⟨more, rfl⟩ : ∃ more, turns' = more + 1 := ⟨turns' - 1, by omega⟩
    unfold boundedDiagnosticBytes at h ⊢
    cases hturn : turn floats candidate with
    | returned bytes =>
      rw [hturn] at h
      exact h
    | raised =>
      rw [hturn] at h
      exact h
    | again candidate' =>
      rw [hturn] at h
      exact ih (by omega) h

/-- The loop returns, whatever the payload: JSON within the bound, the whole payload where that fits. -/
theorem diagnostics_bounded (floats : Floats) (payload : Items) (h : Serializable (.dict payload)) :
    ∃ bytes, (∀ turns, turnsLeft payload < turns → boundedDiagnosticBytes floats turns payload = some (.bytes bytes)) ∧
      Bounded bytes ∧ ∀ full, encode floats payload = some full → full.length ≤ MAX_SNAPSHOT_BYTES → bytes = full := by
  obtain ⟨bytes, hreturns, hbounded⟩ := returns_of_turnsLeft floats h (Nat.lt_succ_self _)
  refine ⟨bytes, fun turns hturns => returns_of_le hturns hreturns, hbounded, fun full hfull hfits => ?_⟩
  rw [returns_payload hfull hfits] at hreturns
  cases hreturns
  rfl

/-- A timeout whose stacks are no list. -/
def timeoutPayload : Items := [(.str "event", .str "TIMEOUT"), (.str "same_process_traceback", .int 0)]

theorem diagnostics_bounded_timeout :
    Serializable (.dict timeoutPayload) ∧ ∃ bytes,
      (∀ turns, turnsLeft timeoutPayload < turns →
        boundedDiagnosticBytes zeroFloats turns timeoutPayload = some (.bytes bytes)) ∧
      Bounded bytes ∧
      ∀ full, encode zeroFloats timeoutPayload = some full → full.length ≤ MAX_SNAPSHOT_BYTES → bytes = full := by
  have hserializable : Serializable (.dict timeoutPayload) := rfl
  exact ⟨hserializable, diagnostics_bounded zeroFloats timeoutPayload hserializable⟩

end Aibot.Store.Diagnostics
