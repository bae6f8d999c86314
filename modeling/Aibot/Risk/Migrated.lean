/-
What the migration of the ledger leaves, and when it leaves that alone. A document of the second
schema is filled in once and for all. The pass over a document of the first schema gives a BUY event
no route, so the first migration after it writes again.
-/
import Aibot.Risk.Migration

namespace Aibot.Risk.Stored

open Aibot.Store

variable {py : Casts}

/-! ## Filled documents -/

/-- The loop over the positions finds nothing to do. -/
def PositionsFilled (py : Casts) (document : Fields) : Prop :=
  ∀ x, document.get? "positions" = some x → ∃ positions : Fields, x = .ofFields positions ∧
    ∀ mint a, positions.get? mint = some a → onObject (fillPosition py) a = some (false, a)

/-- The events are a list, or a value whose items are no objects. -/
inductive Iterated (items : List Json) : Option Json → Prop
  | list : Iterated items (some (.arr items))
  | absent : items = [] → Iterated items none
  | keys (fields : List (String × Json)) : items = [] → Iterated items (some (.obj fields))
  | chars (s : String) : items = [] → Iterated items (some (.str s))

/-- The loop over the events finds nothing to do. -/
def EventsFilled (document : Fields) : Prop :=
  ∃ items, Iterated items (document.get? "events") ∧ ∀ x ∈ items, onObject fillEvent x = some (false, x)

theorem fillPositions_of_filled {document : Fields} (h : PositionsFilled py document) :
    fillPositions py document = some (false, document) := by
  unfold fillPositions
  cases hx : document.get? "positions" with
  | none => rfl
  | some x =>
    obtain ⟨positions, rfl, hall⟩ := h x hx
    simp only [Json.fields?_ofFields]
    show ((positions.sweep fun _ position => onObject (fillPosition py) position).bind _) = _
    rw [Dict.sweep_unchanged hall, Option.bind_some, Dict.set_of_get? hx]

theorem fillEvents_unchanged_iff {document : Fields} :
    fillEvents document = some (false, document) ↔ EventsFilled document := by
  constructor
  · intro h
    unfold fillEvents at h
    split at h
    · rename_i hx
      exact ⟨[], by rw [hx]; exact .absent rfl, fun _ h => absurd h List.not_mem_nil⟩
    · rename_i hx
      exact ⟨[], by rw [hx]; exact .keys _ rfl, fun _ h => absurd h List.not_mem_nil⟩
    · rename_i hx
      exact ⟨[], by rw [hx]; exact .chars _ rfl, fun _ h => absurd h List.not_mem_nil⟩
    · rename_i items hx
      obtain ⟨y, hy, hpair⟩ := Option.map_eq_some_iff.1 h
      obtain ⟨hflag, hset⟩ := Prod.mk.inj hpair
      -- the list that is stored is the one that was read
      have hget : document.get? "events" = some (.arr y.2) := by
        rw [← hset, Dict.get?_set_self]
      rw [hx, Option.some.injEq, Json.arr.injEq] at hget
      refine ⟨items, by rw [hx]; exact .list, ?_⟩
      rw [← sweep_unchanged_iff, hy, ← hflag, hget]
    · cases h
  · rintro ⟨items, hiter, hall⟩
    unfold fillEvents
    generalize hx : document.get? "events" = x at hiter
    cases hiter with
    | list => simp only [sweep_unchanged_iff.2 hall, Option.map_some, Dict.set_of_get? hx]
    | absent | keys | chars => rfl

/-- A document with filled positions is left alone exactly where the events are filled too. -/
theorem fillLedger_unchanged_iff {document : Fields} (hp : PositionsFilled py document) (now : String) :
    fillLedger py now document = some (false, document) ↔ EventsFilled document := by
  rw [← fillEvents_unchanged_iff]
  unfold fillLedger
  rw [fillPositions_of_filled hp]
  show ((fillEvents document).bind _) = _ ↔ _
  constructor
  · intro h
    obtain ⟨y, hy, h⟩ := Option.bind_eq_some_iff.1 h
    split_ifs at h with hflag
    · cases h
    · obtain rfl : y.2 = document := (Prod.mk.inj (Option.some.inj h)).2
      have hfalse : y.1 = false := by simpa using hflag
      rw [hy, ← hfalse]
  · intro h
    rw [h]
    rfl

/-! ## One record -/

/-- A rewriting that leaves its results alone does so on values that may be no objects. -/
theorem onObject_settles {f : Fields → Option (Bool × Fields)}
    (hf : ∀ d x, f d = some x → f x.2 = some (false, x.2)) {a : Json} {x : Bool × Json}
    (h : onObject f a = some x) : onObject f x.2 = some (false, x.2) := by
  unfold onObject at h ⊢
  cases hd : a.fields? with
  | none =>
    rw [hd] at h
    cases h
    simp only [hd]
  | some d =>
    rw [hd] at h
    obtain ⟨y, hy, rfl⟩ := Option.map_eq_some_iff.1 h
    simp only [Json.fields?_ofFields, hf d y hy, Option.map_some]

theorem onObject_ofFields (f : Fields → Option (Bool × Fields)) (d : Fields) :
    onObject f (.ofFields d) = (f d).map fun y => (y.1, .ofFields y.2) := by
  unfold onObject
  rw [Json.fields?_ofFields]

theorem fillPosition_settles (position : Fields) (x : Bool × Fields) (h : fillPosition py position = some x) :
    fillPosition py x.2 = some (false, x.2) :=
  Dict.fill_of_isSome fun _ hk => Dict.isSome_fill h hk

/-- The keys that an event of the second schema may lack. -/
theorem eventDefaults_keys {event : Fields} {key : String}
    (h : key ∈ (eventDefaults event).map Prod.fst) :
    key = "route_type" ∨ key = "dex_momentum_score" ∨ key = "strategy_version" ∨ key = "observation_id" := by
  unfold eventDefaults at h
  simp only [List.map_append, List.mem_append] at h
  rcases h with h | h
  · split_ifs at h
    · simp at h
      tauto
    · cases h
  · split_ifs at h
    · simp at h
      tauto
    · cases h

theorem fillEvent_settles (event : Fields) (x : Bool × Fields) (h : fillEvent event = some x) :
    fillEvent x.2 = some (false, x.2) := by
  unfold fillEvent at h ⊢
  split_ifs at h with hhash
  have htype : x.2.field "type" = event.field "type" := by
    unfold Dict.field
    rw [Dict.get?_fill_of_not_mem h]
    intro hmem
    have := eventDefaults_keys hmem
    simp at this
  have hdefaults : eventDefaults x.2 = eventDefaults event := by
    unfold eventDefaults
    rw [htype]
  rw [htype, if_pos hhash, hdefaults]
  exact Dict.fill_of_isSome fun _ hk => Dict.isSome_fill h hk

theorem fillEvent_honest {event event' : Fields} (h : fillEvent event = some (false, event')) :
    event' = event := by
  unfold fillEvent at h
  split_ifs at h
  exact (Dict.isSome_of_fill_unchanged h).1

/-! ## The second schema -/

theorem positionsFilled_fillPositions {document : Fields} {x : Bool × Fields}
    (h : fillPositions py document = some x) :
    PositionsFilled py x.2 ∧ ∀ key, key ≠ "positions" → x.2.get? key = document.get? key := by
  unfold fillPositions at h
  split at h
  · rename_i hnone
    cases h
    refine ⟨?_, fun _ _ => rfl⟩
    intro x hx
    rw [hnone] at hx
    cases hx
  · obtain ⟨positions, -, h⟩ := Option.bind_eq_some_iff.1 h
    obtain ⟨y, hy, h⟩ := Option.bind_eq_some_iff.1 h
    cases h
    constructor
    · intro x hx
      rw [Dict.get?_set_self] at hx
      refine ⟨y.2, (Option.some.inj hx).symm, ?_⟩
      intro mint a ha
      obtain ⟨b, c, -, hb⟩ := (Dict.sweep_get? hy).1 ha
      exact onObject_settles fillPosition_settles hb
    · intro key hkey
      exact Dict.get?_set_of_ne _ _ hkey

theorem eventsFilled_fillEvents {document : Fields} {x : Bool × Fields} (h : fillEvents document = some x) :
    EventsFilled x.2 ∧ ∀ key, key ≠ "events" → x.2.get? key = document.get? key := by
  unfold fillEvents at h
  split at h
  · rename_i hx
    cases h
    refine ⟨⟨[], ?_, fun _ h => absurd h List.not_mem_nil⟩, fun _ _ => rfl⟩
    rw [hx]
    exact .absent rfl
  · rename_i hx
    cases h
    refine ⟨⟨[], ?_, fun _ h => absurd h List.not_mem_nil⟩, fun _ _ => rfl⟩
    rw [hx]
    exact .keys _ rfl
  · rename_i hx
    cases h
    refine ⟨⟨[], ?_, fun _ h => absurd h List.not_mem_nil⟩, fun _ _ => rfl⟩
    rw [hx]
    exact .chars _ rfl
  · obtain ⟨y, hy, rfl⟩ := Option.map_eq_some_iff.1 h
    refine ⟨⟨y.2, ?_, ?_⟩, ?_⟩
    · rw [Dict.get?_set_self]
      exact .list
    · intro b hb
      obtain ⟨i, hi, rfl⟩ := List.getElem_of_mem hb
      obtain ⟨hlength, hat⟩ := List.forall₂_iff_get.1 (sweep_forall₂ hy)
      obtain ⟨c, hc⟩ := hat i (hlength ▸ hi) hi
      exact onObject_settles fillEvent_settles hc
    · intro key hkey
      exact Dict.get?_set_of_ne _ _ hkey
  · cases h

/-- Nothing is left to do where neither field changed. -/
theorem PositionsFilled.congr {document document' : Fields} (h : PositionsFilled py document)
    (hget : document'.get? "positions" = document.get? "positions") : PositionsFilled py document' := by
  intro x hx
  rw [hget] at hx
  exact h x hx

theorem EventsFilled.congr {document document' : Fields} (h : EventsFilled document)
    (hget : document'.get? "events" = document.get? "events") : EventsFilled document' := by
  obtain ⟨items, hiter, hall⟩ := h
  exact ⟨items, by rw [hget]; exact hiter, hall⟩

/-- What the second schema's branch leaves is filled, and in the same schema. -/
theorem filled_fillLedger {document : Fields} {now : String} {x : Bool × Fields}
    (h : fillLedger py now document = some x) : PositionsFilled py x.2 ∧ EventsFilled x.2 ∧
      x.2.get? "schema_version" = document.get? "schema_version" := by
  obtain ⟨y, hy, h⟩ := Option.bind_eq_some_iff.1 h
  obtain ⟨z, hz, h⟩ := Option.bind_eq_some_iff.1 h
  obtain ⟨hp, hkeep⟩ := positionsFilled_fillPositions hy
  obtain ⟨he, hframe⟩ := eventsFilled_fillEvents hz
  have hp' := hp.congr (hframe "positions" (by decide))
  have hschema : z.2.get? "schema_version" = document.get? "schema_version" := by
    rw [hframe _ (by decide), hkeep _ (by decide)]
  split_ifs at h
  all_goals obtain rfl := Option.some.inj h
  · refine ⟨hp'.congr ?_, he.congr ?_, ?_⟩
    · exact Dict.get?_set_of_ne _ _ (by decide)
    · exact Dict.get?_set_of_ne _ _ (by decide)
    · rw [← hschema]
      exact Dict.get?_set_of_ne _ _ (by decide)
  · exact ⟨hp', he, hschema⟩

/-! ## The pass over the events of the first schema -/

theorem get?_withDefaults_of_not_mem {items : List (String × Json)} {d : Fields} {key : String}
    (h : key ∉ items.map Prod.fst) : (withDefaults items d).get? key = d.get? key := by
  unfold withDefaults
  rw [Dict.get?_setDefaults]
  have hnone : items.find? (fun p => p.1 = key) = none := by
    rw [List.find?_eq_none]
    intro p hp hkey
    exact h (List.mem_map.2 ⟨p, hp, by simpa using hkey⟩)
  rw [hnone, Option.map_none, Option.or_none]

theorem get?_withDefaults_of_none {items : List (String × Json)} {d : Fields} {key : String}
    (h : d.get? key = none) :
    (withDefaults items d).get? key = (items.find? fun p => p.1 = key).map Prod.snd := by
  unfold withDefaults
  rw [Dict.get?_setDefaults, h, Option.none_or]

/-- The fields that the pass may give an event. -/
def legacyKeys : List String :=
  ["strategy_version", "observation_id", "position_id", "event_id", "event_seq", "trigger_roi_percent",
    "realized_roi_percent", "quote_age_ms"]

theorem strategyDefaults_keys (event : Fields) :
    (strategyDefaults py event).map Prod.fst ⊆ ["strategy_version", "observation_id"] := by
  unfold strategyDefaults
  split_ifs
  · exact List.Subset.refl _
  · exact List.nil_subset _

theorem sellDefaults_keys {event : Fields} {items : List (String × Json)}
    (h : sellDefaults py event = some items) :
    items.map Prod.fst = ["trigger_roi_percent", "realized_roi_percent", "quote_age_ms"] := by
  obtain ⟨proceeds, -, h⟩ := Option.bind_eq_some_iff.1 h
  obtain ⟨pnl, -, h⟩ := Option.bind_eq_some_iff.1 h
  obtain ⟨roi, -, h⟩ := Option.bind_eq_some_iff.1 h
  cases h
  rfl

/-- What one turn of the pass does to an event and to the pass. -/
structure Turned (py : Casts) (fresh : Fresh) (index : Nat) (event : Fields) (pass : Pass)
    (y : Fields × Pass) : Prop where
  keeps : ∀ key ∉ legacyKeys, y.1.get? key = event.get? key
  strategy : eventType py event = "BUY" ∨ eventType py event = "SELL" →
    (y.1.get? "strategy_version").isSome = true ∧ (y.1.get? "observation_id").isSome = true
  positionId : event.get? "position_id" = none → y.1.get? "position_id" =
    some (.str ((y.2.openRounds.get? (eventMint py event)).getD (fresh.uuid (.loose index))).1)
  eventSeq : event.get? "event_seq" = none → y.1.get? "event_seq" = some (.int pass.sequence)
  openRounds : y.2.openRounds =
    (pass.enter fresh index (eventMint py event) (eventType py event)).openRounds
  roundCounts : y.2.roundCounts =
    (pass.enter fresh index (eventMint py event) (eventType py event)).roundCounts
  sequence : event.get? "event_seq" = none → y.2.sequence = pass.sequence + 1

theorem enter_sequence (fresh : Fresh) (index : Nat) (mint type : String) (pass : Pass) :
    (pass.enter fresh index mint type).sequence = pass.sequence := by
  unfold Pass.enter
  split_ifs <;> rfl

theorem legacyEvent_turned {fresh : Fresh} {index : Nat} {event : Fields} {pass : Pass} {y : Fields × Pass}
    (h : legacyEvent py fresh index event pass = some y) : Turned py fresh index event pass y := by
  unfold legacyEvent at h
  obtain ⟨eventSeq, hseq, h⟩ := Option.bind_eq_some_iff.1 h
  set pass' := pass.enter fresh index (eventMint py event) (eventType py event) with hpass
  set styled := withDefaults (strategyDefaults py event) event with hstyled
  set named := withDefaults (identityDefaults py fresh index styled pass') styled with hnamed
  have hstyle : ∀ key, key ≠ "strategy_version" → key ≠ "observation_id" →
      styled.get? key = event.get? key := by
    intro key h₁ h₂
    apply get?_withDefaults_of_not_mem
    intro hmem
    have := strategyDefaults_keys event hmem
    simp [h₁, h₂] at this
  have hname : ∀ key, key ≠ "position_id" → key ≠ "event_id" → key ≠ "event_seq" →
      named.get? key = styled.get? key := by
    intro key h₁ h₂ h₃
    apply get?_withDefaults_of_not_mem
    simp [identityDefaults, h₁, h₂, h₃]
  -- the event that is stored: a SELL is given its defaults last
  obtain ⟨hpassed, hevent⟩ : y.2 = { pass' with sequence := max (pass'.sequence + 1) (eventSeq + 1) } ∧
      ∀ key, key ∉ ["trigger_roi_percent", "realized_roi_percent", "quote_age_ms"] →
        y.1.get? key = named.get? key := by
    split_ifs at h with hsell
    · obtain ⟨items, hitems, h⟩ := Option.bind_eq_some_iff.1 h
      cases h
      refine ⟨rfl, ?_⟩
      intro key hkey
      apply get?_withDefaults_of_not_mem
      rw [sellDefaults_keys hitems]
      exact hkey
    · cases h
      exact ⟨rfl, fun _ _ => rfl⟩
  have hmint : eventMint py styled = eventMint py event := by
    unfold eventMint getOr
    rw [hstyle "mint" (by decide) (by decide)]
  have hseqOf : event.get? "event_seq" = none → named.get? "event_seq" = some (.int pass.sequence) := by
    intro hnone
    rw [hnamed, get?_withDefaults_of_none (by rw [hstyle _ (by decide) (by decide), hnone]),
      ← enter_sequence fresh index (eventMint py event) (eventType py event) pass]
    rfl
  refine ⟨?_, ?_, ?_, ?_, by rw [hpassed], by rw [hpassed], ?_⟩
  · intro key hkey
    simp only [legacyKeys, List.mem_cons, List.not_mem_nil, or_false, not_or] at hkey
    obtain ⟨h₁, h₂, h₃, h₄, h₅, h₆, h₇, h₈⟩ := hkey
    rw [hevent key (by simp [h₆, h₇, h₈]), hname key h₃ h₄ h₅, hstyle key h₁ h₂]
  · intro htype
    have hset : ∀ key ∈ ["strategy_version", "observation_id"], (styled.get? key).isSome = true := by
      intro key hkey
      apply Dict.isSome_setDefaults
      unfold strategyDefaults
      rw [if_pos htype]
      exact hkey
    constructor
    · rw [hevent _ (by decide), hname _ (by decide) (by decide) (by decide)]
      exact hset _ (by simp)
    · rw [hevent _ (by decide), hname _ (by decide) (by decide) (by decide)]
      exact hset _ (by simp)
  · intro hnone
    have hstyledNone : styled.get? "position_id" = none := by
      rw [hstyle _ (by decide) (by decide), hnone]
    have hfield : styled.field "position_id" = .null := by
      unfold Dict.field
      rw [hstyledNone]
      rfl
    have hid : pass'.positionId py fresh index (eventMint py styled) styled =
        ((pass'.openRounds.get? (eventMint py event)).getD (fresh.uuid (.loose index))).1 := by
      unfold Pass.positionId
      rw [hfield, hmint]
      rfl
    rw [hevent _ (by decide), hnamed, get?_withDefaults_of_none hstyledNone, hpassed, ← hid]
    rfl
  · intro hnone
    rw [hevent _ (by decide)]
    exact hseqOf hnone
  · intro hnone
    rw [Dict.field_of_get? (hseqOf hnone)] at hseq
    obtain rfl : pass.sequence = eventSeq := Option.some.inj hseq
    have hsame := enter_sequence fresh index (eventMint py event) (eventType py event) pass
    rw [hpassed]
    dsimp only
    rw [hpass, hsame, max_self]

/-- An item of the list before the pass, and after it. -/
inductive TurnedItem (py : Casts) (fresh : Fresh) : Json → Json → Prop
  | other {x : Json} : x.fields? = none → TurnedItem py fresh x x
  | event {x : Json} {index : Nat} {event : Fields} {pass : Pass} {y : Fields × Pass} :
      x.fields? = some event → Turned py fresh index event pass y → TurnedItem py fresh x (.ofFields y.1)

theorem legacyEvents_turned {fresh : Fresh} : ∀ {items : List Json} {index : Nat} {pass : Pass}
    {z : List Json × Pass}, legacyEvents py fresh index items pass = some z →
      List.Forall₂ (TurnedItem py fresh) items z.1
  | [], index, pass, z, h => by
    cases h
    exact .nil
  | x :: items, index, pass, z, h => by
    rw [legacyEvents] at h
    split at h
    · rename_i hx
      obtain ⟨y, hy, rfl⟩ := Option.map_eq_some_iff.1 h
      exact .cons (.other hx) (legacyEvents_turned hy)
    · rename_i event hx
      obtain ⟨y, hy, h⟩ := Option.bind_eq_some_iff.1 h
      obtain ⟨z', hz, h⟩ := Option.bind_eq_some_iff.1 h
      cases h
      exact .cons (.event hx (legacyEvent_turned hy)) (legacyEvents_turned hz)

/-! ## Events that have what the second schema adds -/

/-- An event to which the second schema adds nothing that the pass over the first does not: its type
can be looked up, and a BUY has a route. -/
structure Settled (event : Fields) : Prop where
  hashable : hashable (event.field "type") = true
  route : (event.field "type").isStr "BUY" = true →
    (event.get? "route_type").isSome = true ∧ (event.get? "dex_momentum_score").isSome = true

theorem eventType_of_isStr {event : Fields} {type : String} (h : (event.field "type").isStr type = true) :
    eventType py event = type := by
  unfold Dict.field at h
  unfold eventType getOr
  cases ht : event.get? "type" with
  | none =>
    rw [ht] at h
    cases h
  | some x =>
    rw [ht] at h
    cases x with
    | str s => exact of_decide_eq_true h
    | null | bool | int | float | arr | obj | other => cases h

theorem Turned.fill_iff {fresh : Fresh} {index : Nat} {event : Fields} {pass : Pass} {y : Fields × Pass}
    (h : Turned py fresh index event pass y) :
    fillEvent y.1 = some (false, y.1) ↔ Settled event := by
  have htype : y.1.field "type" = event.field "type" := by
    unfold Dict.field
    rw [h.keeps _ (by decide)]
  have hroute := h.keeps "route_type" (by decide)
  have hscore := h.keeps "dex_momentum_score" (by decide)
  unfold fillEvent
  rw [htype]
  constructor
  · intro hfill
    split_ifs at hfill with hhash
    refine ⟨hhash, ?_⟩
    intro hbuy
    have hkeys := (Dict.isSome_of_fill_unchanged hfill).2
    unfold eventDefaults at hkeys
    dsimp only at hkeys
    rw [htype, if_pos hbuy] at hkeys
    rw [← hroute, ← hscore]
    exact ⟨hkeys _ (by simp), hkeys _ (by simp)⟩
  · rintro ⟨hhash, hbuy⟩
    rw [if_pos hhash]
    apply Dict.fill_of_isSome
    intro key hkey
    unfold eventDefaults at hkey
    dsimp only at hkey
    rw [htype, List.map_append, List.mem_append] at hkey
    rcases hkey with hkey | hkey
    · split_ifs at hkey with htypeBuy
      · simp only [List.map_cons, List.map_nil, List.mem_cons, List.not_mem_nil, or_false] at hkey
        rcases hkey with rfl | rfl
        · rw [hroute]
          exact (hbuy htypeBuy).1
        · rw [hscore]
          exact (hbuy htypeBuy).2
      · cases hkey
    · split_ifs at hkey with htypeTrade
      · have htrade : eventType py event = "BUY" ∨ eventType py event = "SELL" := by
          rw [Bool.or_eq_true] at htypeTrade
          exact htypeTrade.imp eventType_of_isStr eventType_of_isStr
        simp only [List.map_cons, List.map_nil, List.mem_cons, List.not_mem_nil, or_false] at hkey
        rcases hkey with rfl | rfl
        · exact (h.strategy htrade).1
        · exact (h.strategy htrade).2
      · cases hkey

/-- The events of a document that are objects. -/
def eventsOf (document : Fields) : List Fields := (document.field "events").items.filterMap Json.fields?

theorem TurnedItem.fill_iff {fresh : Fresh} {x y : Json} (h : TurnedItem py fresh x y) :
    onObject fillEvent y = some (false, y) ↔ ∀ event, x.fields? = some event → Settled event := by
  cases h with
  | other hx =>
    unfold onObject
    rw [hx]
    simp
  | event hx hturned =>
    rw [onObject_ofFields, hx]
    simp only [Option.some.injEq, forall_eq', ← hturned.fill_iff]
    constructor
    · intro h
      obtain ⟨z, hz, hpair⟩ := Option.map_eq_some_iff.1 h
      obtain ⟨hflag, -⟩ := Prod.mk.inj hpair
      obtain ⟨c, z⟩ := z
      cases hflag
      obtain rfl := fillEvent_honest hz
      exact hz
    · intro h
      rw [h]
      rfl

/-- After the pass the loop of the second schema finds nothing to do exactly where every event was
settled before. -/
theorem turnedItems_filled_iff {fresh : Fresh} {items items' : List Json}
    (h : List.Forall₂ (TurnedItem py fresh) items items') :
    (∀ y ∈ items', onObject fillEvent y = some (false, y)) ↔
      ∀ event ∈ items.filterMap Json.fields?, Settled event := by
  induction h with
  | nil => simp
  | @cons x y items items' hxy _ ih =>
    rw [List.forall_mem_cons, ih, hxy.fill_iff]
    cases hx : x.fields? with
    | none => simp [List.filterMap_cons_none hx]
    | some event =>
      rw [List.filterMap_cons_some hx, List.forall_mem_cons]
      simp only [Option.some.injEq, forall_eq']

/-! ## Normalized positions -/

/-- The fields `_normalize_position` writes. -/
def normalizedKeys : List String :=
  ["position_id", "round_index", "mint", "signal_detected_at", "entry_quote_at", "entry_cost_lamports",
    "entry_token_amount_raw", "entry_price_impact_pct", "expected_slippage_bps", "whale_reference_price",
    "copy_price_gap_pct", "entry_latency_ms", "analysis_completed_at", "peak_exit_value_lamports",
    "last_quote_success_at", "consecutive_quote_failures", "risk_state", "route_type", "dex_momentum_score",
    "take_profit_done", "second_take_profit_done", "stop_loss_ratio", "break_even_floor_active",
    "break_even_price", "break_even_required_proceeds_lamports", "cumulative_proceeds_lamports",
    "post_tp_peak_exit_value_lamports", "post_tp_trailing_stop_ratio", "strategy_version",
    "observation_id", "version"]

theorem normalizedItems_keys (position : Fields) (mint positionId openedAt : String) (roundIndex : Nat)
    (amount cost : Int) :
    (normalizedItems py position mint positionId openedAt roundIndex amount cost).map Prod.fst =
      normalizedKeys := rfl

/-- Items that are computed one by one: the keys stay, and each has its value. -/
theorem computed_items {items : List (String × Option Json)} {results : List (String × Json)}
    (h : (items.mapM fun item => item.2.map (Prod.mk item.1)) = some results) :
    results.map Prod.fst = items.map Prod.fst ∧
      ∀ key x, (key, x) ∈ items → ∃ v, x = some v ∧ (key, v) ∈ results := by
  constructor
  · rw [← List.forall₂_eq_eq_eq, List.forall₂_map_left_iff, List.forall₂_map_right_iff]
    refine (forall₂_of_mapM h).flip.imp ?_
    intro result item hitem
    obtain ⟨v, -, rfl⟩ := Option.map_eq_some_iff.1 hitem
    rfl
  · intro key x hmem
    obtain ⟨result, hresult, hitem⟩ := exists_of_mem_mapM h hmem
    obtain ⟨v, hv, rfl⟩ := Option.map_eq_some_iff.1 hitem
    exact ⟨v, hv, hresult⟩

/-- What `_normalize_position` leaves: every field, and the identity it was given. -/
structure Normalized (py : Casts) (position : Fields) (positionId : String) (roundIndex : Nat)
    (position' : Fields) : Prop where
  keys : ∀ key ∈ normalizedKeys, (position'.get? key).isSome = true
  positionId : position'.get? "position_id" = some (.str positionId)
  roundIndex : ∃ n, py.intOr (getOr position "round_index" (.int roundIndex)) (.int roundIndex) = some n ∧
    position'.get? "round_index" = some (.int n)

theorem normalizePosition_normalized {position position' : Fields} {mint positionId clock : String}
    {roundIndex : Nat}
    (h : normalizePosition py position mint positionId clock roundIndex = some position') :
    Normalized py position positionId roundIndex position' := by
  obtain ⟨amount, -, h⟩ := Option.bind_eq_some_iff.1 h
  obtain ⟨cost, -, h⟩ := Option.bind_eq_some_iff.1 h
  obtain ⟨items, hitems, h⟩ := Option.bind_eq_some_iff.1 h
  cases h
  obtain ⟨hkeys, hvalues⟩ := computed_items hitems
  rw [normalizedItems_keys] at hkeys
  have hnodup : (items.map Prod.fst).Nodup := by
    rw [hkeys]
    decide
  refine ⟨?_, ?_, ?_⟩
  · intro key hkey
    rw [← hkeys] at hkey
    obtain ⟨p, hp, rfl⟩ := List.mem_map.1 hkey
    rw [Dict.get?_update_of_mem position hnodup hp]
    rfl
  · obtain ⟨v, hv, hmem⟩ := hvalues "position_id" (some (.str positionId)) (by simp [normalizedItems])
    rw [Dict.get?_update_of_mem position hnodup hmem, hv]
  · obtain ⟨v, hv, hmem⟩ := hvalues "round_index"
      ((py.intOr (getOr position "round_index" (.int roundIndex)) (.int roundIndex)).map .int)
      (by simp [normalizedItems])
    obtain ⟨n, hn, rfl⟩ := Option.map_eq_some_iff.1 hv
    exact ⟨n, hn, Dict.get?_update_of_mem position hnodup hmem⟩

/-- A normalized position has what the second schema adds. -/
theorem Normalized.filled {position position' : Fields} {positionId : String} {roundIndex : Nat}
    (h : Normalized py position positionId roundIndex position') :
    fillPosition py position' = some (false, position') := by
  apply Dict.fill_of_isSome
  intro key hkey
  apply h.keys
  have hsub : (positionDefaults py).map Prod.fst ⊆ normalizedKeys := by
    simp [positionDefaults, normalizedKeys]
  exact hsub hkey

/-! ## The first schema -/

/-- What the first schema's branch does to a document. -/
structure Migrated (py : Casts) (fresh : Fresh) (document document' : Fields) : Prop where
  schema : document'.get? "schema_version" = some (.int 2)
  parts : ∃ events pass positions y,
    legacyEventsOf py fresh ((withDefaults legacyDefaults document).field "events") = some (events, pass) ∧
    ((withDefaults legacyDefaults document).field "positions").fields? = some positions ∧
    positions.sweep (fun mint position => onObject (legacyPosition py fresh pass mint) position) = some y ∧
    document'.get? "events" = some events ∧ document'.get? "positions" = some (.ofFields y.2) ∧
    document'.get? "next_event_seq" = some (.int pass.sequence)

theorem migrateLegacy_migrated {fresh : Fresh} {document document' : Fields}
    (h : migrateLegacy py fresh document = some document') : Migrated py fresh document document' := by
  obtain ⟨⟨events, pass⟩, hevents, h⟩ := Option.bind_eq_some_iff.1 h
  obtain ⟨positions, hpositions, h⟩ := Option.bind_eq_some_iff.1 h
  obtain ⟨y, hy, h⟩ := Option.bind_eq_some_iff.1 h
  have hget : ∀ key x, (key, x) ∈ [("events", events), ("positions", .ofFields y.2),
      ("next_event_seq", .int pass.sequence), ("schema_version", .int 2), ("updated_at", .str fresh.now)] →
      document'.get? key = some x := by
    intro key x hmem
    rw [← Option.some.inj h]
    exact Dict.get?_update_of_mem _ (by simp) hmem
  refine ⟨hget _ _ (by simp), events, pass, positions, y, hevents, hpositions, hy, ?_, ?_, ?_⟩
  · exact hget _ _ (by simp)
  · exact hget _ _ (by simp)
  · exact hget _ _ (by simp)

theorem Migrated.positionsFilled {fresh : Fresh} {document document' : Fields}
    (h : Migrated py fresh document document') : PositionsFilled py document' := by
  obtain ⟨-, events, pass, positions, y, -, -, hy, -, hget, -⟩ := h
  intro x hx
  rw [hget] at hx
  refine ⟨y.2, (Option.some.inj hx).symm, ?_⟩
  intro mint a ha
  obtain ⟨b, c, -, hb⟩ := (Dict.sweep_get? hy).1 ha
  unfold onObject at hb
  cases hfields : b.fields? with
  | none =>
    rw [hfields] at hb
    cases hb
    unfold onObject
    rw [hfields]
  | some position =>
    rw [hfields] at hb
    obtain ⟨z, hz, hpair⟩ := Option.map_eq_some_iff.1 hb
    obtain ⟨position', hnormal, rfl⟩ := Option.map_eq_some_iff.1 hz
    obtain ⟨-, rfl⟩ := Prod.mk.inj hpair
    rw [onObject_ofFields, (normalizePosition_normalized hnormal).filled]
    rfl

/-- The events that the pass sees are those of the document, which has none where the key is absent. -/
theorem items_withDefaults (document : Fields) :
    ((withDefaults legacyDefaults document).field "events").items = (document.field "events").items := by
  unfold Dict.field withDefaults
  rw [Dict.get?_setDefaults]
  cases document.get? "events" with
  | none => rfl
  | some x => rfl

theorem Migrated.eventsFilled_iff {fresh : Fresh} {document document' : Fields}
    (h : Migrated py fresh document document') :
    EventsFilled document' ↔ ∀ event ∈ eventsOf document, Settled event := by
  obtain ⟨-, events, pass, positions, y, hevents, -, -, hget, -, -⟩ := h
  unfold eventsOf EventsFilled
  rw [hget, ← items_withDefaults]
  generalize (withDefaults legacyDefaults document).field "events" = x at hevents
  cases x with
  | arr items =>
    obtain ⟨z, hz, hpair⟩ := Option.map_eq_some_iff.1 hevents
    obtain ⟨rfl, -⟩ := Prod.mk.inj hpair
    rw [Json.items_arr, ← turnedItems_filled_iff (legacyEvents_turned hz)]
    constructor
    · rintro ⟨items', hiter, hall⟩
      cases hiter
      exact hall
    · intro hall
      exact ⟨z.1, .list, hall⟩
  | obj fields =>
    cases hevents
    exact ⟨fun _ => nofun, fun _ => ⟨[], .keys _ rfl, nofun⟩⟩
  | str s =>
    cases hevents
    exact ⟨fun _ => nofun, fun _ => ⟨[], .chars _ rfl, nofun⟩⟩
  | null | bool | int | float | other => cases hevents

/-! ## Migrating again -/

/-- The document is in the second schema, or all its events are settled. -/
def MigratesOnce (py : Casts) (document : Fields) : Prop :=
  (∃ version, schemaVersion py document = some version ∧ 2 ≤ version) ∨
    ∀ event ∈ eventsOf document, Settled event

/-- What the migration leaves: a document of the second schema with filled positions, and filled events
where one migration is enough. -/
structure Left (py : Casts) (document left : Fields) : Prop where
  version : ∃ version, schemaVersion py left = some version ∧ 2 ≤ version
  positions : PositionsFilled py left
  events : EventsFilled left ↔ MigratesOnce py document

theorem migrateLedgerDocument_left {fresh : Fresh} {document : Fields} {x : Bool × Fields}
    (h : migrateLedgerDocument py fresh document = some x) : Left py document x.2 := by
  obtain ⟨version, hversion, h⟩ := Option.bind_eq_some_iff.1 h
  split_ifs at h with hcurrent
  · obtain ⟨hp, he, hschema⟩ := filled_fillLedger h
    refine ⟨⟨version, ?_, hcurrent⟩, hp, ?_⟩
    · unfold schemaVersion getOr
      rw [hschema]
      exact hversion
    · exact ⟨fun _ => .inl ⟨version, hversion, hcurrent⟩, fun _ => he⟩
  · obtain ⟨document', hlegacy, rfl⟩ := Option.map_eq_some_iff.1 h
    have hmigrated := migrateLegacy_migrated hlegacy
    refine ⟨⟨2, ?_, le_refl 2⟩, hmigrated.positionsFilled, ?_⟩
    · unfold schemaVersion getOr
      rw [hmigrated.schema]
      rfl
    · rw [hmigrated.eventsFilled_iff]
      constructor
      · exact .inr
      · rintro (⟨version', hversion', hle⟩ | hall)
        · obtain rfl := Option.some.inj (hversion.symm.trans hversion')
          exact absurd hle hcurrent
        · exact hall

/-- Fields the migration does not read may be written meanwhile. -/
theorem Left.congr {document left left' : Fields} (h : Left py document left)
    (hget : ∀ key ∈ ["schema_version", "positions", "events"], left'.get? key = left.get? key) :
    Left py document left' := by
  obtain ⟨⟨version, hversion, hle⟩, hpositions, hevents⟩ := h
  refine ⟨⟨version, ?_, hle⟩, hpositions.congr (hget _ (by simp)), ?_⟩
  · unfold schemaVersion getOr at hversion ⊢
    rw [hget _ (by simp)]
    exact hversion
  · rw [← hevents]
    have hsame := hget "events" (by simp)
    exact ⟨fun h => h.congr hsame.symm, fun h => h.congr hsame⟩

theorem Left.migrate_iff {document left : Fields} (h : Left py document left) (fresh : Fresh) :
    migrateLedgerDocument py fresh left = some (false, left) ↔ MigratesOnce py document := by
  obtain ⟨⟨version, hversion, hle⟩, hpositions, hevents⟩ := h
  rw [← hevents, ← fillLedger_unchanged_iff hpositions fresh.now]
  unfold migrateLedgerDocument
  rw [hversion]
  show (if 2 ≤ version then fillLedger py fresh.now left else _) = _ ↔ _
  rw [if_pos hle]

/-- `migrate_json` writes nothing exactly where its migrator reports no change. -/
theorem ensure_unchanged_iff {fresh : Fresh} {document : Fields} :
    ensureLedgerMigrated py fresh document = .ok (false, document) ↔
      migrateLedgerDocument py fresh document = some (false, document) := by
  unfold ensureLedgerMigrated
  constructor
  · intro h
    exact orRaise_ok (migrateJson_unchanged h)
  · intro h
    unfold migrateJson
    dsimp only
    rw [h]
    rfl

/-- The migration is idempotent exactly on the documents of the second schema and on those of the first
whose events are all settled: there a second application reports no change and makes none, and the next
`ensure_ledger_migrated` writes nothing. Every other document that it migrates is changed again. -/
theorem migrate_again_iff {fresh : Fresh} {document : Fields} {x : Bool × Fields}
    (h : migrateLedgerDocument py fresh document = some x) (fresh' : Fresh) :
    (migrateLedgerDocument py fresh' x.2 = some (false, x.2) ↔ MigratesOnce py document) ∧
    ∀ y, ensureLedgerMigrated py fresh document = .ok y →
      (ensureLedgerMigrated py fresh' y.2 = .ok (false, y.2) ↔ MigratesOnce py document) := by
  have hleft := migrateLedgerDocument_left h
  refine ⟨hleft.migrate_iff fresh', ?_⟩
  rintro ⟨changed, left⟩ hensure
  rw [ensure_unchanged_iff]
  refine Left.migrate_iff ?_ fresh'
  cases changed with
  | false =>
    have hsame := orRaise_ok (migrateJson_unchanged hensure)
    rw [h] at hsame
    rw [Option.some.inj hsame] at hleft
    exact hleft
  | true =>
    obtain ⟨version, left', hmigrated, -, rfl⟩ := migrateJson_changed hensure
    have hsame := orRaise_ok hmigrated
    rw [h] at hsame
    rw [Option.some.inj hsame] at hleft
    refine hleft.congr ?_
    intro key hkey
    apply Dict.get?_set_of_ne
    rintro rfl
    simp at hkey

/-- Conversions of a file without numbers in texts. -/
def plainCasts : Casts := ⟨fun _ => none, fun _ => none, fun _ => ""⟩

/-- The text of an id that tells where it was drawn. -/
def Draw.letters : Draw → List Char
  | .round index => 'r' :: List.replicate index 'x'
  | .loose index => 'l' :: List.replicate index 'x'
  | .event index => 'e' :: List.replicate index 'x'
  | .position mint => 'p' :: mint.toList

/-- Ids that tell where they were drawn, and a clock that stands still. -/
def plainFresh : Fresh where
  uuid draw := ⟨String.ofList draw.letters, by
    intro h
    have := congrArg String.toList h
    cases draw <;> simp [Draw.letters] at this⟩
  openedAt _ := "now"
  now := "now"

/-- A ledger of the first schema with one event. -/
def legacyLedger (event : Fields) : Fields := Dict.ofList [("events", .arr [.ofFields event])]

theorem eventsOf_legacyLedger (event : Fields) : eventsOf (legacyLedger event) = [event] := by
  have hget : (legacyLedger event).field "events" = .arr [.ofFields event] := rfl
  unfold eventsOf
  rw [hget, Json.items_arr, List.filterMap_cons_some (Json.fields?_ofFields event)]
  rfl

theorem migrate_again_sell : ∃ x, migrateLedgerDocument plainCasts plainFresh
      (legacyLedger (Dict.ofList [("type", .str "SELL"), ("mint", .str "mint")])) = some x ∧ x.1 = true ∧
    migrateLedgerDocument plainCasts plainFresh x.2 = some (false, x.2) := by
  have hsome : (migrateLedgerDocument plainCasts plainFresh
      (legacyLedger (Dict.ofList [("type", .str "SELL"), ("mint", .str "mint")]))).any Prod.fst = true := by
    decide +kernel
  obtain ⟨x, hx, hchanged⟩ := (Option.any_eq_true _ _).1 hsome
  refine ⟨x, hx, hchanged, (migrate_again_iff hx plainFresh).1.2 (.inr ?_)⟩
  rw [eventsOf_legacyLedger, List.forall_mem_singleton]
  exact ⟨rfl, nofun⟩

/-- A BUY of the first schema has no route after the first migration, so the second one changes it. -/
theorem legacy_buy_migrated_twice : ¬ ∀ (py : Casts) (fresh fresh' : Fresh) (document : Fields)
    (x : Bool × Fields), migrateLedgerDocument py fresh document = some x →
      migrateLedgerDocument py fresh' x.2 = some (false, x.2) := by
  intro hall
  have hagain : ((migrateLedgerDocument plainCasts plainFresh
      (legacyLedger (Dict.ofList [("type", .str "BUY"), ("mint", .str "mint")]))).any fun x =>
        (migrateLedgerDocument plainCasts plainFresh x.2).any Prod.fst) = true := by
    decide +kernel
  obtain ⟨x, hx, hy⟩ := (Option.any_eq_true _ _).1 hagain
  rw [hall _ _ plainFresh _ x hx] at hy
  cases hy

end Aibot.Risk.Stored
