/-
The observer beside the Control: the paper ledger moves between the calls, a call may be cut off at any write,
and what the observer ends with is what it would end with if none had been.
-/
import Aibot.N3.Crash
import Aibot.Risk.Trail

namespace Aibot.N3

open Durable (Returns)

/-! ## The order of trades -/

section Ordered

open Risk (World Op sells buys)

variable {w w' : World} {op : Op}

/-- A sale sells something, and no position is bought after it was sold. -/
structure Ordered (w : World) : Prop where
  positive : ∀ s ∈ sells w.recorded, 0 < s.tokenAmountRaw
  order : w.recorded.Pairwise fun x y => ∀ s b, x.body.sell? = some s → y.body.buy? = some b →
    s.positionId ≠ b.positionId

theorem start_ordered : Ordered World.start := ⟨fun _ hs => absurd hs List.not_mem_nil, .nil⟩

/-- New events follow the old ones in order. -/
theorem Ordered.append {new : List Risk.Event} (h : Ordered w) (hrecorded : w'.recorded = w.recorded ++ new)
    (hpositive : ∀ s ∈ sells new, 0 < s.tokenAmountRaw)
    (hold : ∀ s ∈ sells w.recorded, ∀ b ∈ buys new, s.positionId ≠ b.positionId)
    (hnew : sells new = [] ∨ buys new = []) : Ordered w' := by
  refine ⟨fun s hs => ?_, ?_⟩
  · rw [hrecorded, Risk.sells_append, List.mem_append] at hs
    exact hs.elim (h.positive s) (hpositive s)
  · rw [hrecorded, List.pairwise_append]
    refine ⟨h.order, List.pairwise_of_forall_mem_list fun x hx y hy s b hs hb => ?_, fun x hx y hy s b hs hb => ?_⟩
    · rcases hnew with hnone | hnone
      · have hmem : s ∈ sells new := List.mem_filterMap.2 ⟨x, hx, hs⟩
        rw [hnone] at hmem
        cases hmem
      · have hmem : b ∈ buys new := List.mem_filterMap.2 ⟨y, hy, hb⟩
        rw [hnone] at hmem
        cases hmem
    · exact hold s (List.mem_filterMap.2 ⟨x, hx, hs⟩) b (List.mem_filterMap.2 ⟨y, hy, hb⟩)

theorem Ordered.step (h : Ordered w) (hbooks : Risk.Books w) (hstep : w.step op = some w') : Ordered w' := by
  obtain ⟨new, happends⟩ := Risk.step_appends hstep
  have hnew : ∀ {sold bought sales}, Risk.Records w w' sold bought sales → sells new = sold ∧ buys new = bought := by
    intro sold bought sales hrecords
    have hsells := hrecords.sells
    have hbuys := hrecords.buys
    rw [happends.recorded, Risk.sells_append] at hsells
    rw [happends.recorded, Risk.buys_append] at hbuys
    exact ⟨List.append_cancel_left hsells, List.append_cancel_left hbuys⟩
  have hquiet : Risk.Records w w' [] [] [] → Ordered w' := by
    intro hrecords
    obtain ⟨hsells, hbuys⟩ := hnew hrecords
    refine h.append happends.recorded (fun s hs => ?_) (fun s _ b hb => ?_) (.inl hsells)
    · rw [hsells] at hs
      cases hs
    · rw [hbuys] at hb
      cases hb
  cases Risk.step_entry hstep with
  | idle _ _ hrecords => exact hquiet hrecords
  | touched _ _ _ _ hrecords => exact hquiet hrecords
  | bought _ hfresh _ _ _ _ _ _ hrecords =>
    obtain ⟨hsells, hbuys⟩ := hnew hrecords
    refine h.append happends.recorded (fun s hs => ?_) (fun s hs b hb heq => ?_) (.inl hsells)
    · rw [hsells] at hs
      cases hs
    · -- the position has a new id
      have hissued := hbooks.sellsIssued s hs
      rw [hbuys, List.mem_singleton] at hb
      rw [heq, hb] at hissued
      exact hfresh hissued
  | sold _ _ _ _ hpositive _ _ _ hrecords =>
    obtain ⟨hsells, hbuys⟩ := hnew hrecords
    refine h.append happends.recorded (fun s hs => ?_) (fun s _ b hb => ?_) (.inr hbuys)
    · rw [hsells, List.mem_singleton] at hs
      rw [hs]
      exact hpositive
    · rw [hbuys] at hb
      cases hb

end Ordered

/-! ## The ledger as the observer reads it -/

section Ledger

/-- The fields of the events that the paper ledger's own steps do not read, by the number of the event. -/
structure Notes where
  eventId : ℕ → String
  signalDetectedAt : ℕ → Json
  analysisCompletedAt : ℕ → Json
  entryQuoteAt : ℕ → Json
  timeText : Risk.IsoTime → String
  idText : Risk.Uuid → String
  idText_injective : Function.Injective idText

variable (notes : Notes)

def routeText : Risk.RouteType → String
  | .A => "A"
  | .B => "B"

def controlBuy (seq : ℕ) (r : Risk.BuyRecord) : Buy :=
  ⟨notes.idText r.positionId, notes.eventId seq, r.mint, .str (routeText r.routeType), .str r.strategyVersion,
    notes.signalDetectedAt seq, notes.analysisCompletedAt seq, notes.entryQuoteAt seq, r.costLamports, r.tokenAmountRaw⟩

def controlSell (seq : ℕ) (r : Risk.SellRecord) : Sell :=
  ⟨notes.idText r.positionId, notes.eventId seq, r.tokenAmountRaw, r.proceedsLamports, r.realizedPnlLamports⟩

def controlBody (seq : ℕ) : Risk.EventBody → EventBody
  | .buy r => .buy (controlBuy notes seq r)
  | .sell r => .sell (controlSell notes seq r)
  | .signalRejected .. | .skippedByRpcError .. | .transactionLifecycle .. => .other

def controlEvent (event : Risk.Event) : ControlEvent :=
  ⟨event.eventSeq, notes.timeText event.at_, controlBody notes event.eventSeq event.body⟩

def controlLedger (ledger : Risk.Ledger) : ControlLedger :=
  ⟨ledger.events.map (controlEvent notes), ledger.nextEventSeq⟩

variable {notes} {event : Risk.Event} {seq : ℕ} {body : Risk.EventBody}

theorem controlBody_sell {sell : Sell} (h : controlBody notes seq body = .sell sell) :
    ∃ r, body = .sell r ∧ sell = controlSell notes seq r := by
  cases body with
  | sell r => exact ⟨r, rfl, (EventBody.sell.inj h).symm⟩
  | buy | signalRejected | skippedByRpcError | transactionLifecycle => cases h

theorem controlBody_buy {buy : Buy} (h : controlBody notes seq body = .buy buy) :
    ∃ r, body = .buy r ∧ buy = controlBuy notes seq r := by
  cases body with
  | buy r => exact ⟨r, rfl, (EventBody.buy.inj h).symm⟩
  | sell | signalRejected | skippedByRpcError | transactionLifecycle => cases h

/-- In a list by increasing numbers, what holds in order holds by number. -/
theorem of_pairwise_lt {α : Type} {f : α → ℕ} {R : α → α → Prop} : ∀ {l : List α},
    (l.map f).Pairwise (· < ·) → l.Pairwise R → ∀ x ∈ l, ∀ y ∈ l, f x < f y → R x y
  | [], _, _, x, hx, _, _, _ => absurd hx List.not_mem_nil
  | a :: l, hlt, hr, x, hx, y, hy, hxy => by
    obtain ⟨hfirst, hlt⟩ := List.pairwise_cons.1 hlt
    obtain ⟨hfirst', hr⟩ := List.pairwise_cons.1 hr
    rcases List.mem_cons.1 hy with hya | hyl
    · rcases List.mem_cons.1 hx with hxa | hxl
      · rw [hxa, hya] at hxy
        exact absurd hxy (lt_irrefl _)
      · rw [hya] at hxy
        exact absurd hxy (hfirst (f x) (List.mem_map_of_mem hxl)).not_gt
    · rcases List.mem_cons.1 hx with hxa | hxl
      · rw [hxa]
        exact hfirst' y hyl
      · exact of_pairwise_lt hlt hr x hxl y hyl hxy

theorem increasing_of_trail {w : Risk.World} (h : Risk.Trail w) :
    (w.recorded.map Risk.Event.eventSeq).Pairwise (· < ·) := by
  rw [h.seqs]
  exact List.pairwise_lt_range'

/-- An event is told by its number. -/
theorem eq_of_trail {w : Risk.World} (h : Risk.Trail w) {event event' : Risk.Event} (hevent : event ∈ w.recorded)
    (hevent' : event' ∈ w.recorded) (heq : event.eventSeq = event'.eventSeq) : event = event' :=
  List.inj_on_of_nodup_map ((increasing_of_trail h).imp fun hlt => hlt.ne) hevent hevent' heq

/-- A position is bought before it is sold. -/
theorem Ordered.lt_of_sold {w : Risk.World} (htrail : Risk.Trail w) (hordered : Ordered w)
    {event event' : Risk.Event} (hevent : event ∈ w.recorded) (hevent' : event' ∈ w.recorded) {r : Risk.SellRecord}
    {r' : Risk.BuyRecord} (hr : event.body = .sell r) (hr' : event'.body = .buy r')
    (hsame : r.positionId = r'.positionId) : event'.eventSeq < event.eventSeq := by
  refine lt_of_le_of_ne (not_lt.1 fun hlt => ?_) fun heq => ?_
  · refine of_pairwise_lt (increasing_of_trail htrail) hordered.order event hevent event' hevent' hlt r r' ?_ ?_ hsame
    · rw [hr]
      rfl
    · rw [hr']
      rfl
  · -- one number is of one event, which is no sale and a buy at once
    rw [eq_of_trail htrail hevent' hevent heq, hr] at hr'
    cases hr'

/-- A ledger of the Control is one that the observer can follow. -/
theorem sound_controlLedger {w : Risk.World} (htrail : Risk.Trail w) (hordered : Ordered w) :
    Sound (controlLedger notes w.ledger) := by
  have hkept : ∀ event ∈ w.ledger.events, event ∈ w.recorded := fun event hevent => htrail.kept.subset hevent
  refine ⟨?_, ?_, ?_⟩
  · refine List.pairwise_map.2 (((List.pairwise_map.1 (increasing_of_trail htrail)).sublist
      htrail.kept.sublist).imp fun hlt => ?_)
    exact Int.ofNat_lt.2 hlt
  · rintro _ hread sell hbody
    obtain ⟨event, hevent, rfl⟩ := List.mem_map.1 hread
    obtain ⟨r, hr, rfl⟩ := controlBody_sell hbody
    refine hordered.positive r (List.mem_filterMap.2 ⟨event, hkept event hevent, ?_⟩)
    rw [hr]
    rfl
  · rintro _ hread _ hread' sell buy hbody hbody' hposition
    obtain ⟨event, hevent, rfl⟩ := List.mem_map.1 hread
    obtain ⟨event', hevent', rfl⟩ := List.mem_map.1 hread'
    obtain ⟨r, hr, rfl⟩ := controlBody_sell hbody
    obtain ⟨r', hr', rfl⟩ := controlBody_buy hbody'
    exact Int.ofNat_lt.2 (hordered.lt_of_sold htrail (hkept event hevent) (hkept event' hevent') hr hr'
      (notes.idText_injective hposition))

end Ledger

/-! ## The Control and the observer -/

section Joint

variable {m : Machine} {manifest : Manifest} {notes : Notes} {w w' : Risk.World} {pending : Option Env} {env : Env}
  {a b a' b' : Sidecar} {state state' : ObserverState}

/-- A call that may come next: it reads the ledger as it is, and where a call was cut off before it, the recorder
wrote nothing meanwhile and no event after the stored cursor was trimmed. -/
structure Next (notes : Notes) (w : Risk.World) (pending : Option Env) (cursor : ℤ) (env : Env) : Prop where
  ledger : env.ledger = controlLedger notes w.ledger
  later : ∀ env₀ ∈ pending, Later env₀ env
  kept : ∀ env₀ ∈ pending, ∀ event ∈ w.recorded, cursor < event.eventSeq → event ∈ w.ledger.events

/-- Steps of the Control and calls of the observer, in any order. At the first sidecar every call runs through, at
the second calls are cut off. -/
inductive Joint (m : Machine) (manifest : Manifest) (notes : Notes) :
    Risk.World → Option Env → Sidecar → Sidecar → Prop
  | start : Joint m manifest notes .start none .empty .empty
  | trade {w w' : Risk.World} {op : Risk.Op} {pending : Option Env} {a b : Sidecar}
      (h : Joint m manifest notes w pending a b) (hstep : w.step op = some w') : Joint m manifest notes w' pending a b
  | returns {w : Risk.World} {pending : Option Env} {env : Env} {a b a' b' : Sidecar} {state state' : ObserverState}
      (h : Joint m manifest notes w pending a b) (hnext : Next notes w pending (stateOf manifest b).cursor env)
      (ha : Returns (observeOnce m manifest env) a state a') (hb : Returns (observeOnce m manifest env) b state' b') :
      Joint m manifest notes w none a' b'
  | cut {w : Risk.World} {pending : Option Env} {env : Env} {a b a' v : Sidecar} {state : ObserverState}
      (h : Joint m manifest notes w pending a b) (hnext : Next notes w pending (stateOf manifest b).cursor env)
      (ha : Returns (observeOnce m manifest env) a state a') (hv : v ∈ Durable.cuts (observeOnce m manifest env) b) :
      Joint m manifest notes w (some env) a' v

/-- What is kept beside the sidecars: the trail and the order of the ledger's events. -/
structure Follows (notes : Notes) (w : Risk.World) (pending : Option Env) : Prop where
  trail : Risk.Trail w
  books : Risk.Books w
  ordered : Ordered w
  recorded : ∀ env₀ ∈ pending, ∀ event ∈ env₀.ledger.events, ∃ e ∈ w.recorded, event = controlEvent notes e

theorem Follows.continues (h : Follows notes w pending) {cursor : ℤ} (hnext : Next notes w pending cursor env) :
    Continues cursor pending env ∧ Sound env.ledger := by
  refine ⟨fun env₀ henv₀ => ⟨hnext.later env₀ henv₀, fun event hevent hlt => ?_⟩, ?_⟩
  · obtain ⟨e, he, rfl⟩ := h.recorded env₀ henv₀ event hevent
    rw [hnext.ledger]
    exact List.mem_map_of_mem (hnext.kept env₀ henv₀ e he hlt)
  · rw [hnext.ledger]
    exact sound_controlLedger h.trail h.ordered

theorem Joint.follows (h : Joint m manifest notes w pending a b) :
    Follows notes w pending ∧ Beside m manifest pending a b := by
  induction h with
  | start => exact ⟨⟨Risk.start_trail, Risk.books_start, start_ordered, fun env₀ h => by cases h⟩, .start⟩
  | trade _ hstep ih =>
    obtain ⟨hfollows, hbeside⟩ := ih
    refine ⟨⟨hfollows.trail.step hstep, Risk.books_step hfollows.books hstep,
      hfollows.ordered.step hfollows.books hstep, fun env₀ henv₀ event hevent => ?_⟩, hbeside⟩
    obtain ⟨e, he, heq⟩ := hfollows.recorded env₀ henv₀ event hevent
    obtain ⟨new, happends⟩ := Risk.step_appends hstep
    exact ⟨e, happends.recorded ▸ List.mem_append_left new he, heq⟩
  | returns _ hnext ha hb ih =>
    obtain ⟨hfollows, hbeside⟩ := ih
    obtain ⟨hcontinues, hsound⟩ := hfollows.continues hnext
    exact ⟨⟨hfollows.trail, hfollows.books, hfollows.ordered, fun env₀ h => by cases h⟩,
      .returns hbeside hcontinues hsound ha hb⟩
  | cut _ hnext ha hv ih =>
    obtain ⟨hfollows, hbeside⟩ := ih
    obtain ⟨hcontinues, hsound⟩ := hfollows.continues hnext
    refine ⟨⟨hfollows.trail, hfollows.books, hfollows.ordered, fun env₀ henv₀ event hevent => ?_⟩,
      .cut hbeside hcontinues hsound ha hv⟩
    obtain rfl := Option.some.inj henv₀
    rw [hnext.ledger] at hevent
    obtain ⟨e, he, rfl⟩ := List.mem_map.1 hevent
    exact ⟨e, hfollows.trail.kept.subset he, rfl⟩

end Joint

/-! ## A cut between the entry and the state -/

section Example

open Risk (World Op)

theorem step_of_fresh {w : World} {op : Op} (h : ∀ id ∈ op.freshId, id ∉ w.ids) : w.step op = some (w.after op) :=
  if_pos h

theorem abs_lt_of_fin (n : Fin 200) : |((n : ℕ) : ℤ)| < 2 ^ 53 := by
  rw [Nat.abs_cast]
  have := n.isLt
  omega

/-- A number of seconds, as a float. -/
def second (n : Fin 200) : Double := ⟨(n : ℕ), isDouble_intCast (abs_lt_of_fin n)⟩

def positionText : String := "00000000-0000-4000-8000-000000000000"

def oneMachine : Machine where
  fileName identity :=
    if identity = positionText then "db8055e0e0307d5a016bec4dc338d69875eb0fb7e614a8b125b08fb082095d98"
    else if identity = "2" then "d4735e3a265e16eee03f59718b9b5d03019c07d8b6c51f90da3a666eec13ab35" else identity
  epoch text :=
    if text = "1970-01-01T00:01:30+00:00" then some (second 90)
    else if text = "1970-01-01T00:01:40+00:00" then some (second 100) else none
  kstDay text := if text = "1970-01-01T00:01:30+00:00" then some "1970-01-01" else none
  evaluate _ := .error "no report"

def oneManifest : Manifest := ⟨"cohort", second 80, 1, .str "build"⟩

def idText (id : Risk.Uuid) : String := positionText ++ String.ofList (List.replicate id.token 'x')

theorem idText_injective : Function.Injective idText := by
  intro x y h
  have hlength := congrArg String.length h
  simp only [idText, String.length_append, String.length_ofList, List.length_replicate, Nat.add_left_cancel_iff]
    at hlength
  cases x
  cases y
  exact congrArg Risk.Uuid.mk hlength

def oneNotes : Notes where
  eventId seq := toString seq
  signalDetectedAt _ := .str "1970-01-01T00:01:30+00:00"
  analysisCompletedAt _ := .str "1970-01-01T00:01:30+00:00"
  entryQuoteAt _ := .str "1970-01-01T00:01:30+00:00"
  timeText time := if time = .instant 100000000 then "1970-01-01T00:01:40+00:00" else "1970-01-01T00:03:20+00:00"
  idText := idText
  idText_injective := idText_injective

/-- No snapshot was recorded, and the wait for one is over. -/
def oneEnv (w : World) : Env :=
  ⟨controlLedger oneNotes w.ledger, fun _ => .ok .empty, .str "build", fun _ => second 140⟩

def boughtOp : Op := .buy ⟨"mint", 1000, 10, none, none, 0, "A", 0, "", none, none⟩ ⟨0⟩ 100000000

def claimedOp : Op := .claim "mint" ⟨0⟩ .takeProfit30Sell80 ⟨1⟩

def soldOp : Op := .sell ⟨"mint", 10, 1300, .takeProfit30Sell80, some ⟨0⟩, some ⟨1⟩⟩ 200000000

def boughtWorld : World := World.start.after boughtOp

def soldWorld : World := (boughtWorld.after claimedOp).after soldOp

abbrev oneCall (w : World) : Observing ObserverState := observeOnce oneMachine oneManifest (oneEnv w)

/-- The call is cut off before it writes its state. -/
def cutSidecar : Sidecar := (oneCall boughtWorld .empty).visited.getLast?.getD .empty

def firstSidecar : Sidecar := (oneCall boughtWorld .empty).final

/-- The claim and the sale have identifiers of their own, and every event that is recorded is in the ledger. -/
theorem fresh_sold : (∀ id ∈ claimedOp.freshId, id ∉ boughtWorld.ids) ∧
    (∀ id ∈ soldOp.freshId, id ∉ (boughtWorld.after claimedOp).ids) ∧
    ∀ event ∈ soldWorld.recorded, event ∈ soldWorld.ledger.events := by
  decide +kernel

/-- Both calls return, the first one is cut off after its entry, and the second one completes the trade. -/
theorem calls_evaluated : (oneCall boughtWorld .empty).result.toBool = true ∧
    (oneCall boughtWorld .empty).visited.getLast?.isSome = true ∧ cutSidecar.state.isNone = true ∧
    cutSidecar.entries.files.length = 1 ∧ (oneCall soldWorld firstSidecar).result.toBool = true ∧
    (oneCall soldWorld firstSidecar).final.completed.files.length = 1 := by
  decide +kernel

theorem mem_cuts : cutSidecar ∈ Durable.cuts (oneCall boughtWorld) .empty := by
  obtain ⟨-, hsome, -⟩ := calls_evaluated
  obtain ⟨v, hv⟩ := Option.isSome_iff_exists.1 hsome
  have heq : cutSidecar = v := by
    unfold cutSidecar
    rw [hv]
    rfl
  rw [heq]
  exact List.mem_append_left _ (List.mem_of_getLast? hv)

/-- The position is bought, a call is cut off, and the position is sold. -/
theorem joint_cut :
    Joint oneMachine oneManifest oneNotes soldWorld (some (oneEnv boughtWorld)) firstSidecar cutSidecar := by
  obtain ⟨state, hfirst⟩ := Durable.returns_of_toBool calls_evaluated.1
  have hbought : Joint oneMachine oneManifest oneNotes boughtWorld none .empty .empty :=
    .trade .start (step_of_fresh (by decide))
  have hcut := Joint.cut hbought ⟨rfl, fun _ h => (Option.some_ne_none _ h.symm).elim,
    fun _ h => (Option.some_ne_none _ h.symm).elim⟩ hfirst mem_cuts
  obtain ⟨hclaimed, hsold, -⟩ := fresh_sold
  exact .trade (.trade hcut (step_of_fresh hclaimed)) (step_of_fresh hsold)

theorem next_sold : Next oneNotes soldWorld (some (oneEnv boughtWorld)) (stateOf oneManifest cutSidecar).cursor
    (oneEnv soldWorld) := by
  refine ⟨rfl, fun env₀ h => ?_, fun _ _ event hevent _ => fresh_sold.2.2 event hevent⟩
  obtain rfl := Option.some.inj h
  exact ⟨rfl, fun _ => le_rfl⟩

theorem returns_sold :
    ∃ state, Returns (oneCall soldWorld) firstSidecar state (oneCall soldWorld firstSidecar).final := by
  obtain ⟨-, -, -, -, hsold, -⟩ := calls_evaluated
  exact Durable.returns_of_toBool hsold

end Example

end Aibot.N3
