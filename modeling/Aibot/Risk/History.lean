/-
Runs of the ledger operations, from `empty_ledger` and in any order, by any number of callers:
the committed calls of all processes form one sequence (`Risk.Stored`). A `World` is the ledger
with the history of its run: the calls and their answers, every event ever appended (the ledger
itself keeps the last ones only), and the ids drawn from `uuid4`, which never repeats one.
-/
import Aibot.Risk.Effect
import Aibot.Lib.Run

namespace Aibot.Risk

open Aibot.Store

/-! ## Worlds -/

structure World where
  ledger : Ledger
  /-- The calls so far, with their answers. -/
  log : List (Op × Ret)
  /-- Every event ever appended to the ledger. -/
  recorded : List Event
  /-- The recorded sales: what was asked, and the SELL event it left. -/
  sales : List (SellRequest × SellRecord)
  /-- The ids drawn from `uuid4`. -/
  ids : List Uuid

def World.start : World := ⟨emptyLedger, [], [], [], []⟩

/-- The events a call appended: as many as it took from the event counter. -/
def newEvents (before after : Ledger) : List Event :=
  after.events.drop (after.events.length - (after.nextEventSeq - before.nextEventSeq))

/-- The id a call draws from `uuid4`. -/
def Op.freshId : Op → Option Uuid
  | .buy _ positionId _ => some positionId
  | .claim _ _ _ exitId => some exitId
  | _ => none

/-- The request of a buy. -/
def Op.buy? : Op → Option BuyRequest
  | .buy r _ _ => some r
  | _ => none

/-- The request of a sale. -/
def Op.sale? : Op → Option SellRequest
  | .sell r _ => some r
  | _ => none

/-- The world after a call that found the ledger of `w`. -/
def World.after (w : World) (op : Op) : World :=
  let new := newEvents w.ledger (op.run w.ledger).2
  { ledger := (op.run w.ledger).2
    log := w.log ++ [(op, (op.run w.ledger).1)]
    recorded := w.recorded ++ new
    sales := w.sales ++ (op.sale?.toList.flatMap fun r => (sells new).map (r, ·))
    ids := w.ids ++ op.freshId.toList }

/-- One call. The id it draws is a new one. -/
def World.step (w : World) (op : Op) : Option World :=
  if ∀ id ∈ op.freshId, id ∉ w.ids then some (w.after op) else none

theorem World.step_eq_some {w w' : World} {op : Op} (h : w.step op = some w') :
    (∀ id, op.freshId = some id → id ∉ w.ids) ∧ w' = w.after op := by
  unfold World.step at h
  split_ifs at h with hf
  cases h
  exact ⟨fun id hid => hf id hid, rfl⟩

/-! ## The events a call appends -/

theorem newEvents_of_append {before after : Ledger} (old new : List Event)
    (he : after.events = old ++ new) (hn : after.nextEventSeq = before.nextEventSeq + new.length) :
    newEvents before after = new := by
  unfold newEvents
  rw [he, hn, List.length_append]
  have : old.length + new.length - (before.nextEventSeq + new.length - before.nextEventSeq) =
      old.length := by omega
  rw [this, List.drop_left]

/-- The document version plays no part in it. -/
theorem newEvents_version (before after : Ledger) (v : Int) :
    newEvents before { after with version := v } = newEvents before after := rfl

theorem newEvents_trim (ledger : Ledger) (at_ : IsoTime) (body : EventBody) :
    newEvents ledger (ledger.appendEvent at_ body).trimEvents =
      [⟨ledger.nextEventSeq, at_, body⟩] := by
  refine newEvents_of_append (ledger.events.drop (ledger.events.length + 1 - eventLimit)) _ ?_ rfl
  unfold Ledger.trimEvents Ledger.appendEvent
  simp only [List.length_append, List.length_singleton]
  refine List.drop_append_of_le_length ?_
  unfold eventLimit; omega

/-- The ledger after a lifecycle's events: only the events and their counter moved. -/
theorem foldl_appendEvent (mint : Mint) (positionId : Uuid) :
    ∀ (items : List LifecycleItem) (ledger : Ledger), ∃ new : List Event,
      items.foldl (fun ledger item =>
          ledger.appendEvent item.at_ (.transactionLifecycle mint positionId item)) ledger =
        { ledger with
          nextEventSeq := ledger.nextEventSeq + new.length
          events := ledger.events ++ new } ∧
      sells new = [] ∧ buys new = [] ∧ new.map Event.eventSeq = List.range' ledger.nextEventSeq new.length
  | [], ledger => ⟨[], by simp, rfl, rfl, rfl⟩
  | item :: items, ledger => by
    obtain ⟨new, hfold, hsells, hbuys, hseqs⟩ := foldl_appendEvent mint positionId items
      (ledger.appendEvent item.at_ (.transactionLifecycle mint positionId item))
    refine ⟨⟨ledger.nextEventSeq, item.at_, .transactionLifecycle mint positionId item⟩ :: new, ?_,
      by simpa [sells, EventBody.sell?] using hsells, by simpa [buys, EventBody.buy?] using hbuys,
      by rw [List.map_cons, hseqs]; rfl⟩
    rw [List.foldl_cons, hfold]
    simp only [Ledger.appendEvent, List.append_assoc, List.cons_append, List.nil_append,
      List.length_cons]
    congr 1
    omega

end Aibot.Risk
