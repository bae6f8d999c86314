/-
`observe_once` of the N3 sidecar: the events after the cursor are turned into immutable records one by one, then
the completed trades, the state and the final report are written.
-/
import Aibot.N3.Records

namespace Aibot.N3

open Store (JsonDocument)

/-! ## A call -/

/-- What one call meets: the ledger, the snapshots of the recorder, the source it runs and the time at which
it looks at an event. -/
structure Env where
  ledger : ControlLedger
  /-- The snapshot under the name of a position; empty where there is none, and it raises on a damaged one. -/
  snapshots : String → Except String JsonDocument
  build : Json
  now : ControlEvent → Double

/-- The variables of the loop. -/
structure Memory where
  entries : Dict String Entry
  closure : Option Closure
  cursor : ℤ

/-- A step of the observer on its files. -/
abbrev Observing (α : Type) := Durable Sidecar String α

def hardCapDays : ℕ := 28

def hardCapCompleted : ℕ := 400

/-- `immutable`: a record that is there must be the same. -/
def immutable {α : Type} (stored : Sidecar → Option α) (same : α → Bool) (store : Sidecar → Sidecar) :
    Observing Unit := do
  match ← Durable.read fun s => .ok (stored s) with
  | some old => if same old then pure () else Durable.raise "conflicting immutable N3 record"
  | none => Durable.write store

def immutableEntry (name : String) (entry : Entry) : Observing Unit :=
  immutable (fun s => s.entries.get? name) (fun old => old.same entry) fun s =>
    { s with entries := s.entries.put name entry }

def immutableSell (name : String) (record : SellRecord) : Observing Unit :=
  immutable (fun s => s.sells.get? name) (fun old => old = record) fun s => { s with sells := s.sells.put name record }

def immutableTrade (name : String) (trade : Trade) : Observing Unit :=
  immutable (fun s => s.completed.get? name) (fun old => old.same trade) fun s =>
    { s with completed := s.completed.put name trade }

def immutableClosure (closure : Closure) : Observing Unit :=
  immutable Sidecar.closure (fun old => old = closure) fun s => { s with closure := some closure }

/-- The documents of two reports are equal. -/
def FinalReport.same (x y : FinalReport) : Bool :=
  x.cohortId = y.cohortId && x.closure = y.closure && x.censoredPositionIds = y.censoredPositionIds &&
    x.report.equal y.report

theorem FinalReport.same_refl (x : FinalReport) : x.same x = true := by simp [FinalReport.same, Json.equal_refl]

def immutableReport (report : FinalReport) : Observing Unit :=
  immutable Sidecar.report (fun old => old.same report) fun s => { s with report := some report }

section Observe

variable (m : Machine) (manifest : Manifest) (env : Env)

/-! ## One event -/

/-- The recorder of a position may still be writing: the time since its event is under the grace. -/
def waits (event : ControlEvent) : Bool :=
  match m.epoch event.at_ with
  | some stamp => if stamp.val = 0 then true else rounded ((env.now event).val - stamp.val) < 30
  | none => true

/-- The snapshot of a BUY: that of its entry, or what the recorder has left. -/
def snapshotOf (mem : Memory) (buy : Buy) : Except String JsonDocument :=
  match mem.entries.get? buy.positionId with
  | some entry => .ok entry.snapshot
  | none => env.snapshots (m.fileName buy.positionId)

def isEmpty (snapshot : JsonDocument) : Bool := snapshot.entries.isEmpty

/-- The snapshot that the entry of a BUY has: a new one is that of the position and the rule. -/
def capturedSnapshot (mem : Memory) (buy : Buy) (snapshot : JsonDocument) : Except String JsonDocument :=
  if isEmpty snapshot then .ok missingSnapshot
  else if (mem.entries.get? buy.positionId).isNone then (checkCaptured manifest buy snapshot).map fun _ => snapshot
  else .ok snapshot

/-- The snapshot, with the times of the event. -/
def checkedSnapshot (mem : Memory) (event : ControlEvent) (buy : Buy) (snapshot : JsonDocument) :
    Except String JsonDocument := do
  let checked ← capturedSnapshot manifest mem buy snapshot
  checkTimes m event.at_ buy checked
  return checked

/-- A BUY that may be admitted; none where the call waits for its snapshot. -/
def admitBuy (mem : Memory) (event : ControlEvent) (buy : Buy) : Observing (Option (Dict String Entry)) := do
  let snapshot ← Durable.lift (snapshotOf m env mem buy)
  if isEmpty snapshot && waits m env event then return none
  else
    let checked ← Durable.lift (checkedSnapshot m manifest mem event buy snapshot)
    let entry ← Durable.lift (entryRecord manifest event.eventSeq buy checked)
    immutableEntry (m.fileName buy.positionId) entry
    let entries := mem.entries.set buy.positionId entry
    if entryLimit < entries.entries.length then Durable.raise "N3 admission limit exceeded"
    else return some entries

/-- The event sells an entry. -/
def sellsEntry (entries : Dict String Entry) : EventBody → Option Sell
  | .sell sell => if (entries.get? sell.positionId).isSome then some sell else none
  | .buy _ | .other => none

/-- The KST days of the entries up to a number. -/
def activeDays (entries : Dict String Entry) (cursor : ℤ) : Except String (List String) := do
  let days ← (entries.values.filter fun entry => entry.buyEventSeq ≤ cursor).mapM fun entry =>
    m.kstDayOf entry.signalTimestamp
  return days.dedup

/-- The entries after an event; none where the loop waits. Nothing is admitted after the closure. -/
def admission (mem : Memory) (event : ControlEvent) : Observing (Option (Dict String Entry)) :=
  match event.body with
  | .buy buy =>
    if mem.closure.isNone && eligible m manifest event.eventSeq buy then admitBuy m manifest env mem event buy
    else pure (some mem.entries)
  | .sell _ | .other => pure (some mem.entries)

/-- A sale of an entry is recorded. -/
def recordSale (entries : Dict String Entry) (event : ControlEvent) : Observing Bool :=
  match sellsEntry entries event.body with
  | some sell => do
    let record : SellRecord := ⟨event.eventSeq, event.at_, sell⟩
    immutableSell (m.fileName (sellIdentity record)) record
    return true
  | none => pure false

/-- The completed trades, looked at after a sale. -/
def completedAt (event : ControlEvent) (sold : Bool) : Observing (List Trade) :=
  if sold then Durable.read fun s => completedTrades m s (some event.eventSeq) else pure []

/-- An event that reaches a cap closes the cohort. -/
def close (closure : Option Closure) (entries : Dict String Entry) (event : ControlEvent) (sold : Bool) :
    Observing (Option Closure) := do
  let days ← Durable.lift (activeDays m entries event.eventSeq)
  let completed ← completedAt m event sold
  if closure.isNone && (hardCapDays ≤ days.length || hardCapCompleted ≤ completed.length) then
    immutableClosure ⟨event.eventSeq, event.at_, days.length⟩
    return some ⟨event.eventSeq, event.at_, days.length⟩
  else return closure

/-- One event of the loop; none where the loop breaks before it. -/
def observeEvent (mem : Memory) (event : ControlEvent) : Observing (Option Memory) := do
  if mem.closure.any fun closure => closure.endEventSeq < event.eventSeq then return none
  else if event.eventSeq ≠ mem.cursor + 1 then Durable.raise "N3 noncontiguous Control event sequence"
  else
    match ← admission m manifest env mem event with
    | none => return none
    | some entries =>
      let sold ← recordSale m entries event
      let closure ← close m mem.closure entries event sold
      return some ⟨entries, closure, event.eventSeq⟩

/-- The loop over the events. -/
def observeEvents : List ControlEvent → Memory → Observing Memory
  | [], mem => pure mem
  | event :: events, mem => do
    match ← observeEvent m manifest env mem event with
    | none => return mem
    | some mem' =>
      if mem'.closure.any fun closure => closure.endEventSeq ≤ mem'.cursor then return mem'
      else observeEvents events mem'

/-! ## The call -/

/-- The state before the first call. -/
def initialState : ObserverState := ⟨manifest.cohortId, manifest.startEventSeq - 1, false, 0, 0, 0, 0, 0, [], false⟩

/-- The state that a call starts from. -/
def stateOf (s : Sidecar) : ObserverState := s.state.getD (initialState manifest)

/-- The events after a number, in order. -/
def eventsAfter (cursor : ℤ) : List ControlEvent :=
  (env.ledger.events.filter fun event => cursor < event.eventSeq).mergeSort fun x y => x.eventSeq ≤ y.eventSeq

/-- The records that an earlier state counts are there. -/
def checkCommitted (s : Sidecar) (state : ObserverState) (entries : List Entry) : Except String Unit := do
  let sells ← readSells m s
  let completed ← completedTrades m s (some state.cursor)
  if (entries.filter fun entry => entry.buyEventSeq ≤ state.cursor).length ≠ state.admittedCount ∨
      (sells.filter fun record => record.eventSeq ≤ state.cursor).length ≠ state.sellRecordCount ∨
      completed.length ≠ state.completedCount then
    .error "N3 committed sidecar records missing or inconsistent"
  else return ()

/-- The missing fields of a snapshot. -/
def missingFields (snapshot : JsonDocument) : List String :=
  ((snapshot.field "missing_fields").items).filterMap fun
    | .str s => some s
    | _ => none

/-- How many entries miss each field, in the order of the fields. -/
def missingCounts (entries : List Entry) : List (String × ℕ) :=
  ((entries.flatMap fun entry => missingFields entry.snapshot).dedup.mergeSort (· ≤ ·)).map fun field =>
    (field, (entries.filter fun entry => field ∈ missingFields entry.snapshot).length)

/-- The state that a call leaves. -/
def nextState (state : ObserverState) (mem : Memory) (trades : List Trade) (sells : List SellRecord) :
    ObserverState where
  cohortId := state.cohortId
  cursor := mem.cursor
  closed := mem.closure.isSome
  admittedCount := mem.entries.entries.length
  completedCount := trades.length
  openCount := mem.entries.entries.length - trades.length
  sellRecordCount := (sells.filter fun record => record.eventSeq ≤ mem.cursor).length
  missingSnapshotCount := (mem.entries.values.filter fun entry => entry.wouldSkip.isNull).length
  missingFieldCounts := missingCounts mem.entries.values
  missingSnapshots := mem.entries.values.any fun entry => entry.wouldSkip.isNull

/-- The positions that were not completed, in order. -/
def censored (entries : Dict String Entry) (trades : List Trade) : List String :=
  ((entries.entries.map Prod.fst).filter fun position =>
    position ∉ trades.map (·.entry.positionId)).mergeSort (· ≤ ·)

/-- The state that a call starts from, and its events. -/
def beginCall (s : Sidecar) : Except String (ObserverState × List ControlEvent) :=
  if ¬ env.build.equal manifest.build then .error "N3 observer build mismatch"
  else
    let state := stateOf manifest s
    let events := eventsAfter env state.cursor
    if state.cohortId ≠ manifest.cohortId then .error "N3 observer identity mismatch"
    else if state.cursor < env.ledger.nextEventSeq - 1 ∧
        events.head?.all fun event => event.eventSeq ≠ state.cursor + 1 then
      .error "N3 missing Control event sequence"
    else .ok (state, events)

/-- What a call writes after the loop. -/
def finishCall (state : ObserverState) (mem : Memory) : Observing ObserverState := do
  let endSeq := (mem.closure.map Closure.endEventSeq).getD mem.cursor
  let trades ← Durable.read fun s => completedTrades m s (some endSeq)
  trades.forM fun trade => immutableTrade (m.fileName trade.entry.positionId) trade
  let sells ← Durable.read fun s => readSells m s
  let next := nextState state mem trades sells
  Durable.write fun s => { s with state := some next }
  match mem.closure with
  | some closure =>
    let report ← Durable.lift (m.evaluate trades)
    immutableReport ⟨manifest.cohortId, closure, censored mem.entries trades, report⟩
  | none => pure ()
  return next

/-- `observe_once`. -/
def observeOnce : Observing ObserverState := do
  let (state, events) ← Durable.read (beginCall manifest env)
  let closure ← Durable.read fun s => .ok s.closure
  let entries ← Durable.read fun s => readEntries m s
  Durable.read fun s => checkCommitted m s state entries
  let byPosition := Dict.ofList (entries.map fun entry => (entry.positionId, entry))
  let mem ← observeEvents m manifest env events ⟨byPosition, closure, state.cursor⟩
  finishCall m manifest state mem

end Observe

end Aibot.N3
