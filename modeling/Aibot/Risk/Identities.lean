/-
The identities that the migration gives a ledger of the first schema: the numbers of the events, the
rounds of each mint threaded through the pass, and the positions joined with them.
-/
import Aibot.Lib.Trace
import Aibot.Risk.Migrated

namespace Aibot.Risk.Stored

variable {py : Casts} {fresh : Fresh}

/-! ## Rounds -/

/-- The BUY events of a mint, oldest first. -/
def buysOf (py : Casts) (mint : String) (events : List Fields) : List Fields :=
  events.filter fun event => eventType py event = "BUY" ∧ eventMint py event = mint

/-- The latest BUY of a mint. -/
def latestBuy (py : Casts) (mint : String) (events : List Fields) : Option Fields :=
  (buysOf py mint events).getLast?

/-- The ids of the BUY events. -/
def roundIds (py : Casts) (events : List Fields) : List (Option Json) :=
  (events.filter fun event => eventType py event = "BUY").map fun event => event.get? "position_id"

/-- A SELL has the id of the latest BUY of its mint before it. -/
def SellsFollow (py : Casts) (events : List Fields) : Prop :=
  ∀ before sell after, events = before ++ sell :: after → eventType py sell = "SELL" →
    ∀ buy, latestBuy py (eventMint py sell) before = some buy →
      sell.get? "position_id" = buy.get? "position_id"

theorem buysOf_concat_of_buy {events : List Fields} {event : Fields} (h : eventType py event = "BUY") :
    buysOf py (eventMint py event) (events ++ [event]) = buysOf py (eventMint py event) events ++ [event] := by
  unfold buysOf
  rw [List.filter_append, List.filter_singleton]
  simp [h]

theorem buysOf_concat_of_ne {mint : String} {events : List Fields} {event : Fields}
    (h : eventType py event ≠ "BUY" ∨ eventMint py event ≠ mint) :
    buysOf py mint (events ++ [event]) = buysOf py mint events := by
  unfold buysOf
  rw [List.filter_append, List.filter_singleton]
  rcases h with h | h
  · simp [h]
  · simp [h]

theorem sellsFollow_concat {events : List Fields} {event : Fields} (h : SellsFollow py events)
    (hlast : eventType py event = "SELL" → ∀ buy, latestBuy py (eventMint py event) events = some buy →
      event.get? "position_id" = buy.get? "position_id") : SellsFollow py (events ++ [event]) := by
  intro before sell after heq
  rcases split_concat heq with ⟨rfl, rfl, -⟩ | ⟨after', -, rfl⟩
  · exact hlast
  · exact h before sell after' rfl

/-! ## The pass -/

/-- An event without identities. -/
structure Unnamed (event : Fields) : Prop where
  eventId : event.get? "event_id" = none
  eventSeq : event.get? "event_seq" = none
  positionId : event.get? "position_id" = none

/-- The events have the numbers from one on. -/
def Numbered (events : List Fields) : Prop :=
  events.map (fun event => event.get? "event_seq") =
    (List.range events.length).map fun i : Nat => some (Json.int (i + 1))

/-- The pass at a place of the list, after these events. -/
structure Passed (py : Casts) (fresh : Fresh) (events : List Fields) (index : Nat) (pass : Pass) : Prop where
  numbered : Numbered events
  sequence : pass.sequence = events.length + 1
  openRounds : ∀ mint, (latestBuy py mint events).map (fun buy => buy.get? "position_id") =
    (pass.openRounds.get? mint).map fun id => some (Json.str id.1)
  roundCounts : ∀ mint, (pass.roundCounts.get? mint).getD 0 = (buysOf py mint events).length
  drawn : ∀ id ∈ roundIds py events, ∃ i < index, id = some (.str (fresh.uuid (.round i)).1)
  distinct : (roundIds py events).Nodup
  follows : SellsFollow py events

theorem passed_start : Passed py fresh [] 0 .start := by
  refine ⟨rfl, rfl, fun _ => rfl, fun _ => rfl, nofun, List.nodup_nil, ?_⟩
  intro before sell after h
  exact absurd h.symm (by simp)

/-- An item that is no object. -/
theorem Passed.skip {events : List Fields} {index : Nat} {pass : Pass}
    (h : Passed py fresh events index pass) : Passed py fresh events (index + 1) pass := by
  refine ⟨h.numbered, h.sequence, h.openRounds, h.roundCounts, ?_, h.distinct, h.follows⟩
  intro id hid
  obtain ⟨i, hi, rfl⟩ := h.drawn id hid
  exact ⟨i, by omega, rfl⟩

theorem Turned.eventType {index : Nat} {event : Fields} {pass : Pass} {y : Fields × Pass}
    (h : Turned py fresh index event pass y) : Stored.eventType py y.1 = Stored.eventType py event := by
  unfold Stored.eventType getOr
  rw [h.keeps _ (by decide)]

theorem Turned.eventMint {index : Nat} {event : Fields} {pass : Pass} {y : Fields × Pass}
    (h : Turned py fresh index event pass y) : Stored.eventMint py y.1 = Stored.eventMint py event := by
  unfold Stored.eventMint getOr
  rw [h.keeps _ (by decide)]

/-- Every event is given the next number. -/
theorem Passed.number {events : List Fields} {index : Nat} {event : Fields} {pass : Pass} {y : Fields × Pass}
    (h : Passed py fresh events index pass) (hevent : Unnamed event)
    (hy : Turned py fresh index event pass y) :
    Numbered (events ++ [y.1]) ∧ y.2.sequence = (events ++ [y.1]).length + 1 := by
  constructor
  · unfold Numbered
    rw [List.map_append, h.numbered, List.length_append, List.length_singleton, List.range_succ,
      List.map_append, List.map_singleton, List.map_singleton, hy.eventSeq hevent.eventSeq, h.sequence]
  · rw [hy.sequence hevent.eventSeq, h.sequence, List.length_append, List.length_singleton]
    push_cast
    ring

/-- A BUY opens a round under a fresh id. -/
theorem Passed.buy {events : List Fields} {index : Nat} {event : Fields} {pass : Pass} {y : Fields × Pass}
    (hfresh : Function.Injective fresh.uuid) (h : Passed py fresh events index pass) (hevent : Unnamed event)
    (hy : Turned py fresh index event pass y) (htype : eventType py event = "BUY") :
    Passed py fresh (events ++ [y.1]) (index + 1) y.2 := by
  have htype' : eventType py y.1 = "BUY" := hy.eventType.trans htype
  have hopen : y.2.openRounds = pass.openRounds.set (eventMint py event) (fresh.uuid (.round index)) := by
    rw [hy.openRounds, Pass.enter, if_pos htype]
  have hcounts : y.2.roundCounts = pass.roundCounts.set (eventMint py event)
      ((pass.roundCounts.get? (eventMint py event)).getD 0 + 1) := by
    rw [hy.roundCounts, Pass.enter, if_pos htype]
  have hid : y.1.get? "position_id" = some (.str (fresh.uuid (.round index)).1) := by
    rw [hy.positionId hevent.positionId, hopen, Dict.get?_set_self]
    rfl
  have hids : roundIds py (events ++ [y.1]) =
      roundIds py events ++ [some (.str (fresh.uuid (.round index)).1)] := by
    unfold roundIds
    rw [List.filter_append, List.map_append, List.filter_singleton]
    simp [htype', hid]
  obtain ⟨hnumbered, hsequence⟩ := h.number hevent hy
  refine ⟨hnumbered, hsequence, ?_, ?_, ?_, ?_, ?_⟩
  · intro mint
    unfold latestBuy
    rw [hopen, Dict.get?_set]
    split_ifs with hmint
    · rw [hmint, ← hy.eventMint, buysOf_concat_of_buy htype', List.getLast?_concat, Option.map_some,
        Option.map_some, hid]
    · rw [buysOf_concat_of_ne (.inr (by rw [hy.eventMint]; exact Ne.symm hmint))]
      exact h.openRounds mint
  · intro mint
    rw [hcounts, Dict.get?_set]
    split_ifs with hmint
    · rw [hmint, Option.getD_some, h.roundCounts, ← hy.eventMint, buysOf_concat_of_buy htype',
        List.length_append, List.length_singleton]
    · rw [buysOf_concat_of_ne (.inr (by rw [hy.eventMint]; exact Ne.symm hmint))]
      exact h.roundCounts mint
  · intro id hmem
    rw [hids, List.mem_append, List.mem_singleton] at hmem
    rcases hmem with hmem | rfl
    · obtain ⟨i, hi, rfl⟩ := h.drawn id hmem
      exact ⟨i, by omega, rfl⟩
    · exact ⟨index, by omega, rfl⟩
  · rw [hids, List.nodup_append]
    refine ⟨h.distinct, List.nodup_singleton _, ?_⟩
    intro id hmem id' hmem' heq
    obtain ⟨i, hi, hdrawn⟩ := h.drawn id hmem
    rw [List.mem_singleton.1 hmem', hdrawn, Option.some.injEq, Json.str.injEq] at heq
    -- an id that was drawn at an earlier place is another one
    have hdraw := hfresh (Subtype.ext heq)
    cases hdraw
    omega
  · apply sellsFollow_concat h.follows
    intro hsell
    rw [htype'] at hsell
    exact absurd hsell (by decide)

/-- Any other event is given the open round of its mint. -/
theorem Passed.other {events : List Fields} {index : Nat} {event : Fields} {pass : Pass} {y : Fields × Pass}
    (h : Passed py fresh events index pass) (hevent : Unnamed event)
    (hy : Turned py fresh index event pass y) (htype : eventType py event ≠ "BUY") :
    Passed py fresh (events ++ [y.1]) (index + 1) y.2 := by
  have htype' : eventType py y.1 ≠ "BUY" := by
    rw [hy.eventType]
    exact htype
  have hopen : y.2.openRounds = pass.openRounds := by rw [hy.openRounds, Pass.enter, if_neg htype]
  have hcounts : y.2.roundCounts = pass.roundCounts := by rw [hy.roundCounts, Pass.enter, if_neg htype]
  have hids : roundIds py (events ++ [y.1]) = roundIds py events := by
    unfold roundIds
    rw [List.filter_append, List.filter_singleton]
    simp [htype']
  obtain ⟨hnumbered, hsequence⟩ := h.number hevent hy
  refine ⟨hnumbered, hsequence, ?_, ?_, ?_, ?_, ?_⟩
  · intro mint
    unfold latestBuy
    rw [hopen, buysOf_concat_of_ne (.inl htype')]
    exact h.openRounds mint
  · intro mint
    rw [hcounts, buysOf_concat_of_ne (.inl htype')]
    exact h.roundCounts mint
  · intro id hmem
    rw [hids] at hmem
    obtain ⟨i, hi, rfl⟩ := h.drawn id hmem
    exact ⟨i, by omega, rfl⟩
  · rw [hids]
    exact h.distinct
  · apply sellsFollow_concat h.follows
    intro _ buy hbuy
    have hround := h.openRounds (eventMint py event)
    rw [hy.eventMint] at hbuy
    rw [hbuy, Option.map_some] at hround
    obtain ⟨id, hid, hsame⟩ := Option.map_eq_some_iff.1 hround.symm
    rw [hy.positionId hevent.positionId, hopen, hid, Option.getD_some, hsame]

theorem legacyEvents_passed (hfresh : Function.Injective fresh.uuid) :
    ∀ {items : List Json} {events : List Fields} {index : Nat} {pass : Pass} {z : List Json × Pass},
      Passed py fresh events index pass → (∀ event ∈ items.filterMap Json.fields?, Unnamed event) →
      legacyEvents py fresh index items pass = some z →
      Passed py fresh (events ++ z.1.filterMap Json.fields?) (index + items.length) z.2
  | [], events, index, pass, z, hpass, _, h => by
    cases h
    simpa using hpass
  | x :: items, events, index, pass, z, hpass, hunnamed, h => by
    rw [legacyEvents] at h
    split at h
    · rename_i hx
      obtain ⟨y, hy, rfl⟩ := Option.map_eq_some_iff.1 h
      rw [List.filterMap_cons_none hx] at hunnamed
      have hrest := legacyEvents_passed hfresh hpass.skip hunnamed hy
      rw [Nat.add_right_comm] at hrest
      rw [List.filterMap_cons_none hx]
      exact hrest
    · rename_i event hx
      obtain ⟨y, hy, h⟩ := Option.bind_eq_some_iff.1 h
      obtain ⟨z', hz, h⟩ := Option.bind_eq_some_iff.1 h
      cases h
      rw [List.filterMap_cons_some hx, List.forall_mem_cons] at hunnamed
      have hturned := legacyEvent_turned hy
      have hnext : Passed py fresh (events ++ [y.1]) (index + 1) y.2 := by
        by_cases htype : eventType py event = "BUY"
        · exact hpass.buy hfresh hunnamed.1 hturned htype
        · exact hpass.other hunnamed.1 hturned htype
      have hrest := legacyEvents_passed hfresh hnext hunnamed.2 hz
      rw [← List.append_cons, Nat.add_right_comm] at hrest
      rw [List.filterMap_cons_some (Json.fields?_ofFields y.1)]
      exact hrest

/-! ## The identities -/

/-- The open position of a mint, where it is an object. -/
def positionOf (document : Fields) (mint : String) : Option Fields :=
  ((document.field "positions").fields?.bind fun positions => positions.get? mint).bind Json.fields?

/-- A ledger of the first schema whose events and positions have no identities. -/
structure Legacy (py : Casts) (document : Fields) : Prop where
  schema : ∃ version, schemaVersion py document = some version ∧ version < 2
  events : ∀ event ∈ eventsOf document, Unnamed event
  positions : ∀ mint position, positionOf document mint = some position →
    position.get? "position_id" = none

/-- The events keep their order, types and mints and have consistent identities, and a position of a
mint that was bought has the identity of the mint's last BUY. -/
structure Identified (py : Casts) (document migrated : Fields) : Prop where
  same : (eventsOf migrated).map (fun event => (eventType py event, eventMint py event)) =
    (eventsOf document).map fun event => (eventType py event, eventMint py event)
  numbered : Numbered (eventsOf migrated)
  next : migrated.get? "next_event_seq" = some (.int ((eventsOf migrated).length + 1))
  follows : SellsFollow py (eventsOf migrated)
  distinct : (roundIds py (eventsOf migrated)).Nodup
  positions : ∀ mint position, positionOf migrated mint = some position →
    ∀ buy, latestBuy py mint (eventsOf migrated) = some buy →
      position.get? "position_id" = buy.get? "position_id"

/-- A position of a mint that was bought has the number of the mint's BUYs as its round. -/
def RoundsCounted (py : Casts) (migrated : Fields) : Prop :=
  ∀ mint position, positionOf migrated mint = some position → latestBuy py mint (eventsOf migrated) ≠ none →
    position.get? "round_index" = some (.int (buysOf py mint (eventsOf migrated)).length)

/-- The same, but for the positions that came with a round of their own, which they keep. -/
def RoundsCountedOrKept (py : Casts) (document migrated : Fields) : Prop :=
  ∀ mint position, positionOf migrated mint = some position → latestBuy py mint (eventsOf migrated) ≠ none →
    ∃ before, positionOf document mint = some before ∧ position.get? "round_index" =
      ((if (before.field "round_index").truthy then py.toInt (before.field "round_index")
        else some ((buysOf py mint (eventsOf migrated)).length : Int)).map Json.int)

theorem positionOf_withDefaults (document : Fields) :
    positionOf (withDefaults legacyDefaults document) = positionOf document := by
  funext mint
  unfold positionOf Dict.field withDefaults
  rw [Dict.get?_setDefaults]
  cases document.get? "positions" with
  | none => rfl
  | some x => rfl

/-- The pass over a list of unnamed events. -/
theorem legacyEventsOf_passed (hfresh : Function.Injective fresh.uuid) {events events' : Json} {pass : Pass}
    (hunnamed : ∀ event ∈ events.items.filterMap Json.fields?, Unnamed event)
    (h : legacyEventsOf py fresh events = some (events', pass)) :
    (∃ index, Passed py fresh (events'.items.filterMap Json.fields?) index pass) ∧
    List.Forall₂ (TurnedItem py fresh) events.items events'.items := by
  cases events with
  | arr items =>
    obtain ⟨z, hz, hpair⟩ := Option.map_eq_some_iff.1 h
    obtain ⟨rfl, rfl⟩ := Prod.mk.inj hpair
    have hpassed := legacyEvents_passed hfresh passed_start hunnamed hz
    exact ⟨⟨_, hpassed⟩, legacyEvents_turned hz⟩
  | obj | str =>
    cases h
    exact ⟨⟨0, passed_start⟩, .nil⟩
  | null | bool | int | float | other => cases h

/-- The pass changes no type and no mint. -/
theorem turnedItems_same {items items' : List Json} (h : List.Forall₂ (TurnedItem py fresh) items items') :
    (items'.filterMap Json.fields?).map (fun event => (eventType py event, eventMint py event)) =
      (items.filterMap Json.fields?).map fun event => (eventType py event, eventMint py event) := by
  induction h with
  | nil => rfl
  | cons hxy _ ih =>
    cases hxy with
    | other hx =>
      rw [List.filterMap_cons_none hx, List.filterMap_cons_none hx]
      exact ih
    | event hx hturned =>
      rw [List.filterMap_cons_some hx, List.filterMap_cons_some (Json.fields?_ofFields _), List.map_cons,
        List.map_cons, ih, hturned.eventType, hturned.eventMint]

/-- A position after the migration, with the one it was before. -/
theorem position_normalized {pass : Pass} {positions : Fields} {y : Bool × Fields}
    (hy : positions.sweep (fun mint position => onObject (legacyPosition py fresh pass mint) position) =
      some y) {mint : String} {position : Fields}
    (h : (y.2.get? mint).bind Json.fields? = some position) :
    ∃ before, (positions.get? mint).bind Json.fields? = some before ∧
      (before.get? "position_id" = none → Normalized py before
        ((pass.openRounds.get? mint).getD (fresh.uuid (.position mint))).1
        (max 1 ((pass.roundCounts.get? mint).getD 0)) position) := by
  obtain ⟨b, hb, hfields⟩ := Option.bind_eq_some_iff.1 h
  obtain ⟨a, c, ha, hab⟩ := (Dict.sweep_get? hy).1 hb
  unfold onObject at hab
  cases hfieldsA : a.fields? with
  | none =>
    rw [hfieldsA] at hab
    cases hab
    rw [hfieldsA] at hfields
    cases hfields
  | some before =>
    rw [hfieldsA] at hab
    obtain ⟨z, hz, hpair⟩ := Option.map_eq_some_iff.1 hab
    obtain ⟨position', hnormal, rfl⟩ := Option.map_eq_some_iff.1 hz
    obtain ⟨-, rfl⟩ := Prod.mk.inj hpair
    rw [Json.fields?_ofFields] at hfields
    obtain rfl := Option.some.inj hfields
    refine ⟨before, by rw [ha]; exact hfieldsA, ?_⟩
    intro hnone
    have hfield : before.field "position_id" = .null := by
      unfold Dict.field
      rw [hnone]
      rfl
    rw [hfield] at hnormal
    exact normalizePosition_normalized hnormal

/-- The round that `_normalize_position` writes. -/
theorem Normalized.round {position position' : Fields} {positionId : String} {roundIndex : Nat}
    (h : Normalized py position positionId roundIndex position') (hpos : 0 < roundIndex) :
    position'.get? "round_index" =
      (if (position.field "round_index").truthy then py.toInt (position.field "round_index")
        else some (roundIndex : Int)).map Json.int := by
  obtain ⟨n, hn, hget⟩ := h.roundIndex
  rw [hget]
  have htruthy : (Json.int roundIndex).truthy = true := by
    simp only [Json.truthy, decide_eq_true_eq]
    omega
  unfold Casts.intOr getOr Json.orElse at hn
  unfold Dict.field
  cases hr : position.get? "round_index" with
  | none =>
    rw [hr, Option.getD_none, htruthy] at hn
    rw [Option.getD_none]
    exact (congrArg (Option.map Json.int) hn).symm
  | some r =>
    rw [hr, Option.getD_some] at hn
    rw [Option.getD_some]
    split_ifs at hn ⊢ with ht
    · rw [hn]
      rfl
    · exact (congrArg (Option.map Json.int) hn).symm

/-- The migration of a ledger without identities gives consistent ones: its events are numbered from
one on in the order of the list, and the next number is one more; a SELL has the id of the latest BUY of
its mint before it; no two BUYs share an id; and the position of a mint that was bought has the id of
its last BUY, with the number of its BUYs as its round unless the position had a round of its own. -/
theorem legacy_identified {document : Fields} {x : Bool × Fields}
    (h : migrateLedgerDocument py fresh document = some x) (hlegacy : Legacy py document)
    (hfresh : Function.Injective fresh.uuid) :
    Identified py document x.2 ∧ RoundsCountedOrKept py document x.2 := by
  obtain ⟨version, hversion, h⟩ := Option.bind_eq_some_iff.1 h
  obtain ⟨version', hversion', hlt⟩ := hlegacy.schema
  obtain rfl := Option.some.inj (hversion.symm.trans hversion')
  rw [if_neg (by omega)] at h
  obtain ⟨migrated, hmigrate, rfl⟩ := Option.map_eq_some_iff.1 h
  obtain ⟨-, events, pass, positions, y, hevents, hpositions, hy, hgetEvents, hgetPositions, hnext⟩ :=
    migrateLegacy_migrated hmigrate
  have hitems := items_withDefaults document
  have hold : ((withDefaults legacyDefaults document).field "events").items.filterMap Json.fields? =
      eventsOf document := by
    rw [hitems]
    rfl
  obtain ⟨⟨index, hpassed⟩, hturned⟩ :=
    legacyEventsOf_passed hfresh (by rw [hold]; exact hlegacy.events) hevents
  have hnew : eventsOf migrated = events.items.filterMap Json.fields? := by
    unfold eventsOf
    rw [Dict.field_of_get? hgetEvents]
  rw [← hnew] at hpassed
  have hsame := turnedItems_same hturned
  rw [hold, ← hnew] at hsame
  -- a position, before and after
  have hposition : ∀ mint position, positionOf migrated mint = some position →
      ∃ before, positionOf document mint = some before ∧ Normalized py before
        ((pass.openRounds.get? mint).getD (fresh.uuid (.position mint))).1
        (max 1 (buysOf py mint (eventsOf migrated)).length) position := by
    intro mint position hp
    unfold positionOf at hp
    rw [Dict.field_of_get? hgetPositions, Json.fields?_ofFields] at hp
    obtain ⟨before, hbefore, hnormal⟩ := position_normalized hy hp
    have hdocument : positionOf document mint = some before := by
      rw [← positionOf_withDefaults]
      unfold positionOf
      rw [hpositions]
      exact hbefore
    rw [hpassed.roundCounts] at hnormal
    exact ⟨before, hdocument, hnormal (hlegacy.positions mint before hdocument)⟩
  refine ⟨⟨hsame, hpassed.numbered, ?_, hpassed.follows, hpassed.distinct, ?_⟩, ?_⟩
  · rw [hnext, hpassed.sequence]
  · intro mint position hp buy hbuy
    obtain ⟨before, -, hnormal⟩ := hposition mint position hp
    have hround := hpassed.openRounds mint
    rw [hbuy, Option.map_some] at hround
    obtain ⟨id, hid, hsameId⟩ := Option.map_eq_some_iff.1 hround.symm
    rw [hnormal.positionId, hid, Option.getD_some, hsameId]
  · intro mint position hp hbought
    obtain ⟨before, hbefore, hnormal⟩ := hposition mint position hp
    have hpos : 0 < (buysOf py mint (eventsOf migrated)).length := by
      rw [List.length_pos_iff]
      intro hnil
      apply hbought
      unfold latestBuy
      rw [hnil]
      rfl
    refine ⟨before, hbefore, ?_⟩
    rw [hnormal.round (by omega), max_eq_right hpos]

/-- A BUY and a SELL of one mint, a row that is no object, and another BUY; with a position. -/
def legacyRounds (position : Fields) : Fields :=
  Dict.ofList [("events", .arr [
      .ofFields (Dict.ofList [("type", .str "BUY"), ("mint", .str "mint")]),
      .ofFields (Dict.ofList [("type", .str "SELL"), ("mint", .str "mint")]),
      .str "note",
      .ofFields (Dict.ofList [("type", .str "BUY"), ("mint", .str "mint")])]),
    ("positions", .ofFields (Dict.ofList [("mint", .ofFields position)]))]

theorem letters_injective : Function.Injective Draw.letters := by
  intro a b h
  cases a with
  | round i =>
    cases b with
    | round j =>
      have hlength := congrArg List.length h
      simp only [Draw.letters, List.length_cons, List.length_replicate, Nat.add_right_cancel_iff] at hlength
      rw [hlength]
    | loose | event | position => simp [Draw.letters] at h
  | loose i =>
    cases b with
    | loose j =>
      have hlength := congrArg List.length h
      simp only [Draw.letters, List.length_cons, List.length_replicate, Nat.add_right_cancel_iff] at hlength
      rw [hlength]
    | round | event | position => simp [Draw.letters] at h
  | event i =>
    cases b with
    | event j =>
      have hlength := congrArg List.length h
      simp only [Draw.letters, List.length_cons, List.length_replicate, Nat.add_right_cancel_iff] at hlength
      rw [hlength]
    | round | loose | position => simp [Draw.letters] at h
  | position mint =>
    cases b with
    | position mint' =>
      simp only [Draw.letters, List.cons.injEq, true_and] at h
      rw [String.toList_inj.1 h]
    | round | loose | event => simp [Draw.letters] at h

theorem plainFresh_injective : Function.Injective plainFresh.uuid := by
  intro a b h
  apply letters_injective
  have htext := congrArg (fun id : UuidText => id.1.toList) h
  simpa [plainFresh] using htext

theorem legacy_legacyRounds {position : Fields} (h : position.get? "position_id" = none) :
    Legacy plainCasts (legacyRounds position) := by
  have hevents : eventsOf (legacyRounds position) = [
      Dict.ofList [("type", .str "BUY"), ("mint", .str "mint")],
      Dict.ofList [("type", .str "SELL"), ("mint", .str "mint")],
      Dict.ofList [("type", .str "BUY"), ("mint", .str "mint")]] := rfl
  refine ⟨⟨1, rfl, by decide⟩, ?_, ?_⟩
  · intro event hmem
    rw [hevents] at hmem
    simp only [List.mem_cons, List.not_mem_nil, or_false] at hmem
    rcases hmem with rfl | rfl | rfl
    all_goals exact ⟨rfl, rfl, rfl⟩
  · intro mint position' hp
    obtain ⟨a, ha, hfields⟩ := Option.bind_eq_some_iff.1 hp
    have hentry : (Dict.ofList [("mint", Json.ofFields position)]).get? mint = some a := by
      obtain ⟨positions, hpositions, hget⟩ := Option.bind_eq_some_iff.1 ha
      have hfield : (legacyRounds position).field "positions" =
          .ofFields (Dict.ofList [("mint", .ofFields position)]) := rfl
      rw [hfield, Json.fields?_ofFields] at hpositions
      rw [Option.some.inj hpositions]
      exact hget
    have hmem := Dict.mem_of_get?_ofList hentry
    rw [List.mem_singleton, Prod.mk.injEq] at hmem
    rw [hmem.2, Json.fields?_ofFields] at hfields
    obtain rfl := Option.some.inj hfields
    exact h

theorem legacy_identified_rounds : ∃ x, migrateLedgerDocument plainCasts plainFresh
      (legacyRounds Dict.empty) = some x ∧ (eventsOf x.2).length = 3 ∧ Numbered (eventsOf x.2) := by
  have hsome : (migrateLedgerDocument plainCasts plainFresh (legacyRounds Dict.empty)).any
      (fun x => (eventsOf x.2).length = 3) = true := by decide +kernel
  obtain ⟨x, hx, hlength⟩ := (Option.any_eq_true _ _).1 hsome
  refine ⟨x, hx, of_decide_eq_true hlength, ?_⟩
  exact (legacy_identified hx (legacy_legacyRounds rfl) plainFresh_injective).1.numbered

/-- A position that comes with a round of its own keeps it, whatever the number of the mint's BUYs. -/
theorem legacy_round_kept : ¬ ∀ (py : Casts) (fresh : Fresh) (document : Fields) (x : Bool × Fields),
    migrateLedgerDocument py fresh document = some x → Legacy py document →
      Function.Injective fresh.uuid → RoundsCounted py x.2 := by
  intro hall
  have hseven : ((migrateLedgerDocument plainCasts plainFresh
      (legacyRounds (Dict.ofList [("round_index", .int 7)]))).any fun x =>
        (latestBuy plainCasts "mint" (eventsOf x.2)).isSome &&
        (positionOf x.2 "mint").any fun position => (position.field "round_index").eqInt 7 &&
          (buysOf plainCasts "mint" (eventsOf x.2)).length == 2) = true := by
    decide +kernel
  obtain ⟨x, hx, hrest⟩ := (Option.any_eq_true _ _).1 hseven
  rw [Bool.and_eq_true] at hrest
  obtain ⟨position, hp, hround⟩ := (Option.any_eq_true _ _).1 hrest.2
  rw [Bool.and_eq_true, beq_iff_eq] at hround
  have hbought : latestBuy plainCasts "mint" (eventsOf x.2) ≠ none := by
    intro hnone
    rw [hnone] at hrest
    exact absurd hrest.1 (by decide)
  have hcounted := hall _ _ _ x hx (legacy_legacyRounds rfl) plainFresh_injective "mint" position hp hbought
  rw [Dict.field_of_get? hcounted, hround.2] at hround
  exact absurd hround.1 (by decide)

end Aibot.Risk.Stored
