/-
The loss-streak circuit breaker: `get_route_initial_stop_streak` counts the initial stops at the head
of the closing SELLs the ledger still holds, each under the route of the BUY it still holds.
-/
import Aibot.Exit.Closing
import Aibot.Risk.Flood

namespace Aibot.Risk

/-! ## Reading the ledger -/

/-- `position_routes.get(position_id, "A")`, over the BUY events of the list. -/
def positionRoute (events : List Event) (positionId : Uuid) : RouteType :=
  match newest (fun record : BuyRecord => record.positionId = positionId) (buys events) with
  | some record => record.routeType
  | none => .A

/-- `initial_stop_reason`. -/
def initialStopReason : RouteType → ExitReason
  | .A => .stopLoss15
  | .B => .routeBStopLoss10

/-- The loop of `get_route_initial_stop_streak` over the events, newest first; `none` where the time of
a stop is missing, or the latest one cannot be read, and the function raises. -/
def initialStopLoop (positionRoutes : Uuid → RouteType) (route : RouteType) :
    List Event → Finset Uuid → Nat → Int → Option (Nat × Int)
  | [], _, streak, latestStopAt => some (streak, latestStopAt)
  | e :: older, seenPositions, streak, latestStopAt =>
    match e.body with
    | .sell record =>
      if record.reason.isTerminal then
        if record.positionId ∈ seenPositions then
          initialStopLoop positionRoutes route older seenPositions streak latestStopAt
        else if positionRoutes record.positionId ≠ route then
          initialStopLoop positionRoutes route older (insert record.positionId seenPositions) streak
            latestStopAt
        else if record.reason ≠ initialStopReason route then some (streak, latestStopAt)
        else if e.at_ = .unreadable "" then none
        else if streak = 0 then
          (parseTime e.at_).bind fun at_ =>
            initialStopLoop positionRoutes route older (insert record.positionId seenPositions) 1 at_
        else
          initialStopLoop positionRoutes route older (insert record.positionId seenPositions) (streak + 1)
            latestStopAt
      else initialStopLoop positionRoutes route older seenPositions streak latestStopAt
    | _ => initialStopLoop positionRoutes route older seenPositions streak latestStopAt

/-- `get_route_initial_stop_streak`, for a route it accepts. -/
def getRouteInitialStopStreak (ledger : Ledger) (route : RouteType) : Option (Nat × Int) :=
  initialStopLoop (positionRoute ledger.events) route ledger.events.reverse ∅ 0 0

/-! ## What the streak is for -/

/-- A closing SELL of a position that `routes` puts on the route. -/
def Event.ofRoute (routes : Uuid → RouteType) (route : RouteType) (e : Event) : Bool :=
  e.body.sell?.any fun record => routes record.positionId = route

/-- A SELL by the route's initial stop. -/
def Event.stopsInitially (route : RouteType) (e : Event) : Bool :=
  e.body.sell?.any fun record => record.reason = initialStopReason route

/-- The initial stops at the head of the closings of a route, newest first. -/
def initialStops (routes : Uuid → RouteType) (route : RouteType) (newestFirst : List Event) : List Event :=
  (newestFirst.filter (Event.ofRoute routes route)).takeWhile (Event.stopsInitially route)

/-- How many they are, and when the latest of them was. -/
def streakOf (stops : List Event) : Nat × Int :=
  (stops.length, ((stops.head?.bind fun e => parseTime e.at_).getD 0))

/-- The streak of a route: of the positions of the route in the order in which they were closed, those
closed last by its initial stop. -/
def routeStreak (w : World) (route : RouteType) : Nat × Int :=
  streakOf (initialStops (positionRoute w.recorded) route (closings w).reverse)

/-! ## The loop -/

/-- The position a SELL event is of. -/
def Event.soldPosition? (e : Event) : Option Uuid := e.body.sell?.map SellRecord.positionId

theorem initialStopLoop_skip {routes : Uuid → RouteType} {route : RouteType} {e : Event} {older : List Event}
    {seen : Finset Uuid} {streak : Nat} {latest : Int} (h : e.isTerminal = false) :
    initialStopLoop routes route (e :: older) seen streak latest =
      initialStopLoop routes route older seen streak latest := by
  rw [initialStopLoop]
  unfold Event.isTerminal at h
  cases hb : e.body with
  | sell record =>
    rw [hb] at h
    have hreason : record.reason.isTerminal = false := h
    simp only [hreason]
    rfl
  | buy | signalRejected | skippedByRpcError | transactionLifecycle => rfl

theorem initialStops_cons {routes : Uuid → RouteType} {route : RouteType} {e : Event} {record : SellRecord}
    (h : e.body.sell? = some record) (older : List Event) :
    initialStops routes route (e :: older) =
      if routes record.positionId = route then
        (if record.reason = initialStopReason route then e :: initialStops routes route older else [])
      else initialStops routes route older := by
  have hroute : e.ofRoute routes route = decide (routes record.positionId = route) := by
    unfold Event.ofRoute; rw [h]; rfl
  have hstop : e.stopsInitially route = decide (record.reason = initialStopReason route) := by
    unfold Event.stopsInitially; rw [h]; rfl
  unfold initialStops
  rw [List.filter_cons, hroute]
  simp only [decide_eq_true_eq]
  split_ifs with hr hs
  · rw [List.takeWhile_cons_of_pos (by rw [hstop]; exact decide_eq_true hs)]
  · rw [List.takeWhile_cons_of_neg (by rw [hstop]; simpa using hs)]
  · rfl

/-- A ledger without terminal SELLs shows no streak. -/
theorem streak_of_noneTerminal {ledger : Ledger} (h : ∀ e ∈ ledger.events, e.isTerminal = false)
    (route : RouteType) : getRouteInitialStopStreak ledger route = some (0, 0) := by
  have hloop : ∀ events : List Event, (∀ e ∈ events, e.isTerminal = false) →
      initialStopLoop (positionRoute ledger.events) route events ∅ 0 0 = some (0, 0) := by
    intro events hevents
    induction events with
    | nil => rfl
    | cons e older ih =>
      rw [initialStopLoop_skip (hevents e List.mem_cons_self)]
      exact ih fun e he => hevents e (List.mem_cons_of_mem _ he)
  exact hloop _ fun e he => h e (List.mem_reverse.1 he)

/-- The loop counts the initial stops at the head of the terminal SELLs, each position once. -/
theorem initialStopLoop_eq (routes : Uuid → RouteType) (route : RouteType) :
    ∀ (events : List Event) (seen : Finset Uuid) (streak : Nat) (latest : Int),
      (∀ e ∈ events, e.isTerminal = true → ∃ t, e.at_ = .instant t) →
      ((events.filter Event.isTerminal).filterMap Event.soldPosition?).Nodup →
      (∀ id ∈ (events.filter Event.isTerminal).filterMap Event.soldPosition?, id ∉ seen) →
      initialStopLoop routes route events seen streak latest =
        some (streak + (initialStops routes route (events.filter Event.isTerminal)).length,
          if streak = 0 then
            (((initialStops routes route (events.filter Event.isTerminal)).head?.bind fun e =>
              parseTime e.at_).getD latest)
          else latest)
  | [], seen, streak, latest, _, _, _ => by
    rw [initialStopLoop]
    split_ifs <;> rfl
  | e :: older, seen, streak, latest, htimes, hnodup, hseen => by
    have htimes' : ∀ e ∈ older, e.isTerminal = true → ∃ t, e.at_ = .instant t :=
      fun e he => htimes e (List.mem_cons_of_mem _ he)
    cases ht : e.isTerminal with
    | false =>
      rw [initialStopLoop_skip ht]
      rw [List.filter_cons_of_neg (by rw [ht]; exact Bool.false_ne_true)] at hnodup hseen ⊢
      exact initialStopLoop_eq routes route older seen streak latest htimes' hnodup hseen
    | true =>
      obtain ⟨record, hsell, hterminal⟩ := (Option.any_eq_true _ _).1 ht
      obtain ⟨t, hat⟩ := htimes e List.mem_cons_self ht
      have hsold : e.soldPosition? = some record.positionId := by
        unfold Event.soldPosition?; rw [hsell]; rfl
      rw [List.filter_cons_of_pos ht] at hnodup hseen ⊢
      rw [List.filterMap_cons_some hsold] at hnodup hseen
      obtain ⟨hfirst, hrest⟩ := List.nodup_cons.1 hnodup
      have hnew := hseen _ List.mem_cons_self
      have hseen' : ∀ id ∈ (older.filter Event.isTerminal).filterMap Event.soldPosition?,
          id ∉ insert record.positionId seen := by
        intro id hid hmem
        rcases Finset.mem_insert.1 hmem with rfl | hmem
        · exact hfirst hid
        · exact hseen id (List.mem_cons_of_mem _ hid) hmem
      have hbody : e.body = .sell record := by
        cases hb : e.body <;> rw [hb] at hsell <;> cases hsell
        rfl
      rw [initialStopLoop, hbody, initialStops_cons hsell]
      simp only [hterminal, if_true, if_neg hnew, ne_eq, ite_not]
      by_cases hroute : routes record.positionId = route
      · by_cases hreason : record.reason = initialStopReason route
        · rw [if_pos hroute, if_pos hreason, if_pos hroute, if_pos hreason, hat, if_neg (by simp)]
          by_cases hzero : streak = 0
          · -- the first stop of the streak is the latest
            subst hzero
            simp only [if_true, parseTime, Option.bind_some]
            rw [initialStopLoop_eq routes route older _ 1 t htimes' hrest hseen']
            simp [hat, Nat.add_comm]
          · rw [if_neg hzero, if_neg hzero,
              initialStopLoop_eq routes route older _ (streak + 1) latest htimes' hrest hseen']
            rw [if_neg (Nat.succ_ne_zero _), List.length_cons]
            congr 2
            omega
        · rw [if_pos hroute, if_neg hreason, if_pos hroute, if_neg hreason]
          split_ifs <;> rfl
      · rw [if_neg hroute, if_neg hroute]
        exact initialStopLoop_eq routes route older _ streak latest htimes' hrest hseen'

end Aibot.Risk

namespace Aibot.Exit

open Aibot.Risk

/-! ## Closing SELLs are the terminal ones -/

theorem sellsOf_eq (events : List Event) (positionId : Uuid) :
    sellsOf events positionId =
      (events.filter (Event.sellsFrom positionId)).filterMap fun e => e.body.sell? := by
  induction events with
  | nil => rfl
  | cons e events ih =>
    have hcons : sellsOf (e :: events) positionId =
        (e.body.sell?.toList.filter fun x => x.positionId = positionId) ++ sellsOf events positionId := by
      unfold sellsOf sells
      rw [List.filterMap_cons, ← List.filter_append]
      cases e.body.sell? <;> rfl
    rw [hcons, ih, List.filter_cons]
    unfold Event.sellsFrom
    cases hx : e.body.sell? with
    | none => simp
    | some x =>
      by_cases hid : x.positionId = positionId <;> simp [hid, hx]

theorem filterMap_eq_singleton {α β : Type*} {f : α → Option β} {l : List α} {b : β}
    (hall : ∀ a ∈ l, ∃ y, f a = some y) (h : l.filterMap f = [b]) : ∃ a, l = [a] ∧ f a = some b := by
  match l, h, hall with
  | [], h, _ => cases h
  | [a], h, hall =>
    obtain ⟨y, hy⟩ := hall a List.mem_cons_self
    rw [List.filterMap_cons_some hy] at h
    exact ⟨a, rfl, by rw [hy, (List.cons.inj h).1]⟩
  | a :: a' :: l, h, hall =>
    obtain ⟨y, hy⟩ := hall a List.mem_cons_self
    obtain ⟨z, hz⟩ := hall a' (List.mem_cons_of_mem _ List.mem_cons_self)
    rw [List.filterMap_cons_some hy, List.filterMap_cons_some hz] at h
    cases (List.cons.inj h).2

theorem sellsFrom_of_sell {e : Event} {x : SellRecord} (hx : e.body.sell? = some x) {id : Uuid}
    (hid : x.positionId = id) : e.sellsFrom id = true := by
  unfold Event.sellsFrom
  rw [hx]
  exact decide_eq_true hid

/-- The SELL that closed a position, once it is no longer open. -/
theorem closed_newest {w : World} (hw : ClosesByReason w) {id : Uuid} (hno : NotOpen w id) {e : Event}
    (he : e ∈ w.recorded) (hid : e.sellsFrom id = true) :
    ∃ e', newest (Event.sellsFrom id) w.recorded = some e' ∧ e'.isTerminal = true ∧
      (e.isTerminal = true → e = e') := by
  have hmem : e ∈ w.recorded.filter (Event.sellsFrom id) := List.mem_filter.2 ⟨he, hid⟩
  obtain ⟨x, hx, -⟩ := (Option.any_eq_true _ _).1 hid
  rcases hw.closed id hno with hnone | ⟨before, last, hsells, hlast, hbefore⟩
  · rw [sellsOf_eq] at hnone
    rw [List.filterMap_eq_nil_iff.1 hnone e hmem] at hx
    cases hx
  · rw [sellsOf_eq, List.filterMap_eq_append_iff] at hsells
    obtain ⟨earlier, final, hsplit, hearlier, hfinal⟩ := hsells
    -- every event of the position carries a record, so the last record is the last event's
    have hsell : ∀ a ∈ w.recorded.filter (Event.sellsFrom id), ∃ y, a.body.sell? = some y := by
      intro a ha
      obtain ⟨y, hy, -⟩ := (Option.any_eq_true _ _).1 (List.mem_filter.1 ha).2
      exact ⟨y, hy⟩
    obtain ⟨e', hfinal', hbody⟩ := filterMap_eq_singleton
      (fun a ha => hsell a (by rw [hsplit]; exact List.mem_append_right _ ha)) hfinal
    subst hfinal'
    refine ⟨e', ?_, ?_, fun hterminal => ?_⟩
    · rw [newest_eq_getLast?, hsplit, List.getLast?_concat]
    · unfold Event.isTerminal
      rw [hbody]
      exact hlast
    · rw [hsplit] at hmem
      rcases List.mem_append.1 hmem with hold | hnew
      · have hxb : x ∈ before := hearlier ▸ List.mem_filterMap.2 ⟨e, hold, hx⟩
        unfold Event.isTerminal at hterminal
        rw [hx] at hterminal
        exact absurd hterminal (by simp [hbefore x hxb])
      · exact List.mem_singleton.1 hnew

theorem notOpen_iff {w : World} {id : Uuid} : NotOpen w id ↔ w.ledger.isOpen id = false :=
  isOpen_eq_false.symm

/-- The SELL of an open position is not a terminal one. -/
theorem notOpen_of_terminal {w : World} (hw : ClosesByReason w) {e : Event} (he : e ∈ w.recorded)
    {x : SellRecord} (hx : e.body.sell? = some x) (hterminal : e.isTerminal = true) :
    NotOpen w x.positionId := by
  intro mint p hp hid
  have hmem : x ∈ sellsOf w.recorded p.positionId :=
    List.mem_filter.2 ⟨List.mem_filterMap.2 ⟨e, he, hx⟩, decide_eq_true hid.symm⟩
  have hpart := hw.opened mint p hp x hmem
  unfold Event.isTerminal at hterminal
  rw [hx] at hterminal
  exact absurd hterminal (by simp [hpart])

/-- In the paper mode a SELL closed its position exactly when its reason is terminal. -/
theorem closes_eq_isTerminal {w : World} (hw : ClosesByReason w) {e : Event} (he : e ∈ w.recorded) :
    e.closes w = e.isTerminal := by
  rw [Bool.eq_iff_iff]
  cases hx : e.body.sell? with
  | none => simp [Event.closes, Event.isTerminal, hx]
  | some x =>
    have hid := sellsFrom_of_sell hx rfl
    have hcloses : e.closes w = true ↔
        NotOpen w x.positionId ∧ newest (Event.sellsFrom x.positionId) w.recorded = some e := by
      unfold Event.closes
      rw [hx, notOpen_iff]
      simp
    rw [hcloses]
    constructor
    · rintro ⟨hno, hnewest⟩
      obtain ⟨e', hnewest', hterminal, -⟩ := closed_newest hw hno he hid
      rw [hnewest] at hnewest'
      cases hnewest'
      exact hterminal
    · intro hterminal
      have hno := notOpen_of_terminal hw he hx hterminal
      obtain ⟨e', hnewest, -, hsame⟩ := closed_newest hw hno he hid
      exact ⟨hno, by rw [hsame hterminal]; exact hnewest⟩

theorem closings_eq {w : World} (hw : ClosesByReason w) : closings w = w.recorded.filter Event.isTerminal :=
  List.filter_congr fun _ he => closes_eq_isTerminal hw he

/-- A position is closed once. -/
theorem closings_positions {w : World} (hw : ClosesByReason w) (hnodup : w.recorded.Nodup) :
    ((w.recorded.filter Event.isTerminal).filterMap Event.soldPosition?).Nodup := by
  unfold List.Nodup
  rw [List.pairwise_filterMap]
  refine (hnodup.filter _).imp_of_mem fun {a b} ha hb hne id hida id' hidb heq => hne ?_
  obtain ⟨ha, hat⟩ := List.mem_filter.1 ha
  obtain ⟨hb, hbt⟩ := List.mem_filter.1 hb
  obtain ⟨x, hx, rfl⟩ := Option.map_eq_some_iff.1 hida
  obtain ⟨y, hy, rfl⟩ := Option.map_eq_some_iff.1 hidb
  have hno := notOpen_of_terminal hw ha hx hat
  -- both are the last SELL of the position
  obtain ⟨e, hnewest, -, hsame⟩ := closed_newest hw hno ha (sellsFrom_of_sell hx rfl)
  obtain ⟨e', hnewest', -, hsame'⟩ := closed_newest hw hno hb (sellsFrom_of_sell hy heq.symm)
  rw [hnewest] at hnewest'
  cases hnewest'
  rw [hsame hat, hsame' hbt]

/-! ## The streak -/

/-- Going back through the positions closed so far one reaches a point with two properties. Every
position closed since is still in the ledger, and the ledger shows it under the route exactly when it is
of the route. Before that point neither the newest closing of the route, nor the newest one that the
ledger still holds and shows under the route, is by the route's initial stop. -/
def StreakKept (w : World) (route : RouteType) : Prop :=
  ∃ newer older, (closings w).reverse = newer ++ older ∧
    (∀ e ∈ newer, e ∈ w.ledger.events ∧
      e.ofRoute (positionRoute w.ledger.events) route = e.ofRoute (positionRoute w.recorded) route) ∧
    (∀ e ∈ older.find? (Event.ofRoute (positionRoute w.recorded) route), e.stopsInitially route = false) ∧
    ∀ e ∈ (older.filter (· ∈ w.ledger.events)).find? (Event.ofRoute (positionRoute w.ledger.events) route),
      e.stopsInitially route = false

theorem initialStops_nil {routes : Uuid → RouteType} {route : RouteType} {newestFirst : List Event}
    (h : ∀ e ∈ newestFirst.find? (Event.ofRoute routes route), e.stopsInitially route = false) :
    initialStops routes route newestFirst = [] := by
  unfold initialStops
  rw [← List.head?_filter] at h
  cases hf : newestFirst.filter (Event.ofRoute routes route) with
  | nil => rfl
  | cons e rest =>
    rw [hf] at h
    exact List.takeWhile_cons_of_neg (by rw [h e rfl]; exact Bool.false_ne_true)

theorem takeWhile_append_nil {α : Type*} {p : α → Bool} (l : List α) {l' : List α}
    (h : l'.takeWhile p = []) : (l ++ l').takeWhile p = l.takeWhile p := by
  rw [List.takeWhile_append, h, List.append_nil]
  split_ifs with hlength
  · exact ((List.takeWhile_prefix _).eq_of_length hlength).symm
  · rfl

/-- The streak of a list of closings is decided where an older closing of the route is no initial stop. -/
theorem initialStops_append {routes : Uuid → RouteType} {route : RouteType} (newer : List Event)
    {older : List Event} (h : initialStops routes route older = []) :
    initialStops routes route (newer ++ older) = initialStops routes route newer := by
  unfold initialStops at h ⊢
  rw [List.filter_append, takeWhile_append_nil _ h]

/-- A log without repetitions, filtered by a suffix of it. -/
theorem filter_mem_suffix {α : Type*} [DecidableEq α] {kept log : List α} (h : kept <:+ log)
    (hnodup : log.Nodup) :
    log.filter (· ∈ kept) = kept := by
  obtain ⟨old, rfl⟩ := h
  have hdisjoint := (List.nodup_append.1 hnodup).2.2
  rw [List.filter_append, List.filter_eq_nil_iff.2, List.filter_eq_self.2, List.nil_append]
  · exact fun a ha => decide_eq_true ha
  · intro a ha hmem
    exact hdisjoint a ha a (of_decide_eq_true hmem) rfl

theorem isTrade_of_isTerminal {e : Event} (h : e.isTerminal = true) : e.isTrade = true := by
  obtain ⟨x, hx, -⟩ := (Option.any_eq_true _ _).1 h
  unfold Event.isTrade
  rw [hx, Option.isSome_some, Bool.or_true]

/-- What the function reads: the closings the ledger still holds, newest first. -/
theorem getRouteInitialStopStreak_eq {w : World} (hw : ClosesByReason w) (ht : Trail w) (route : RouteType) :
    getRouteInitialStopStreak w.ledger route =
      some (streakOf (initialStops (positionRoute w.ledger.events) route
        ((closings w).reverse.filter (· ∈ w.ledger.events)))) := by
  have hkept : (closings w).reverse.filter (· ∈ w.ledger.events) =
      w.ledger.events.reverse.filter Event.isTerminal :=
    calc (closings w).reverse.filter (· ∈ w.ledger.events)
        = ((w.recorded.filter Event.isTerminal).filter (· ∈ w.ledger.events)).reverse := by
          rw [closings_eq hw, List.filter_reverse]
      _ = ((w.recorded.filter (· ∈ w.ledger.events)).filter Event.isTerminal).reverse := by
          rw [List.filter_comm]
      _ = (w.ledger.events.filter Event.isTerminal).reverse := by
          rw [filter_mem_suffix ht.kept ht.nodup]
      _ = w.ledger.events.reverse.filter Event.isTerminal := (List.filter_reverse ..).symm
  have hnodup : ((w.ledger.events.reverse.filter Event.isTerminal).filterMap Event.soldPosition?).Nodup := by
    rw [List.filter_reverse, List.filterMap_reverse, List.nodup_reverse]
    exact (closings_positions hw ht.nodup).sublist ((ht.kept.sublist.filter _).filterMap _)
  have htimes : ∀ e ∈ w.ledger.events.reverse, e.isTerminal = true → ∃ t, e.at_ = .instant t := by
    intro e he hterminal
    exact ht.times e (ht.kept.subset (List.mem_reverse.1 he)) (isTrade_of_isTerminal hterminal)
  unfold getRouteInitialStopStreak
  rw [initialStopLoop_eq _ _ _ ∅ 0 0 htimes hnodup (fun id _ => Finset.notMem_empty id), if_pos rfl, hkept,
    Nat.zero_add]
  rfl

/-- The loss streak. In every interleaving of the exit flows, where the ledger still holds what the
streak of a route is read from, the function answers with the route's streak: the number of its
positions closed last by the initial stop, and the time of the latest. -/
theorem streak_counted {acts : List Act} {s : Exits} (h : Run Exits.step Run.anyStep Exits.start acts s)
    {route : RouteType} (hkept : StreakKept s.world route) :
    getRouteInitialStopStreak s.world.ledger route = some (routeStreak s.world route) := by
  obtain ⟨newer, older, hsplit, hnewer, hroute, hshown⟩ := hkept
  have hw := run_closes h
  obtain ⟨-, ops, hrun⟩ := exits_refine h
  have ht := run_trail hrun
  have hall : newer.filter (· ∈ s.world.ledger.events) = newer :=
    List.filter_eq_self.2 fun e he => decide_eq_true (hnewer e he).1
  have hsame : initialStops (positionRoute s.world.ledger.events) route newer =
      initialStops (positionRoute s.world.recorded) route newer := by
    unfold initialStops
    rw [List.filter_congr fun e he => (hnewer e he).2]
  rw [getRouteInitialStopStreak_eq hw ht, routeStreak, hsplit, List.filter_append, hall,
    initialStops_append newer (initialStops_nil hshown), initialStops_append newer (initialStops_nil hroute),
    hsame]

/-- A buy, a detection quote 20% below its cost, and the stop it triggers. -/
def stoppedOut : List Act :=
  [.other (.buy sampleBuy ⟨0⟩ 0), .evaluate 0 "mint", .quoteArrives 0 800, .writes 0 ⟨0⟩ 1, .writes 0 ⟨1⟩ 2,
    .writes 0 ⟨0⟩ 3]

theorem streak_counted_stoppedOut : ∃ s : Exits,
    getRouteInitialStopStreak s.world.ledger .A = some (1, 3) ∧ routeStreak s.world .A = (1, 3) := by
  obtain ⟨s, hrun, hread, hkept⟩ : ∃ s, Run Exits.step Run.anyStep Exits.start stoppedOut s ∧
      getRouteInitialStopStreak s.world.ledger .A = some (1, 3) ∧
      ∀ e ∈ (closings s.world).reverse, e ∈ s.world.ledger.events ∧
        e.ofRoute (positionRoute s.world.ledger.events) .A = e.ofRoute (positionRoute s.world.recorded) .A :=
    Run.exists_of_any (by decide +kernel)
  have hkept' : StreakKept s.world .A :=
    ⟨_, [], (List.append_nil _).symm, hkept, (fun e he => by cases he), fun e he => by cases he⟩
  have hcounted := streak_counted hrun hkept'
  rw [hread] at hcounted
  exact ⟨s, hread, (Option.some.inj hcounted).symm⟩

/-! ## A forgotten streak -/

/-- Calls that are no step of an exit, as steps of the system. -/
theorem other_run {ok : World → Op → Prop} {w w' : World} {ops : List Op} (h : Run World.step ok w ops w')
    (hops : ∀ op ∈ ops, op.offExit = true) : ∀ s : Exits, s.world = w →
      ∃ s', Run Exits.step Run.anyStep s (ops.map .other) s' ∧ s'.world = w' := by
  induction h with
  | nil w => exact fun s hs => ⟨s, .nil s, hs⟩
  | @cons w t u op ops _ hstep _ ih =>
    rintro s rfl
    have hoff := hops op List.mem_cons_self
    obtain ⟨s', hrun, hs'⟩ := ih (fun op hop => hops op (List.mem_cons_of_mem _ hop)) { s with world := t } rfl
    refine ⟨s', .cons trivial ?_ hrun, hs'⟩
    simp only [Exits.step, hoff, if_true, hstep, Option.map_some]

/-- Events that are no trades change no streak. -/
theorem routeStreak_of_noTrades {w w' : World} (hw : ClosesByReason w) (hw' : ClosesByReason w')
    {new : List Event} (hnew : ∀ e ∈ new, e.isTrade = false) (hrecorded : w'.recorded = w.recorded ++ new)
    (route : RouteType) : routeStreak w' route = routeStreak w route := by
  have hroutes : positionRoute w'.recorded = positionRoute w.recorded := by
    funext id
    unfold positionRoute
    rw [hrecorded, buys_append, buys_noTrades hnew, List.append_nil]
  have hterminal : new.filter Event.isTerminal = [] := by
    refine List.filter_eq_nil_iff.2 fun e he => ?_
    rw [kind_of_noTrades hnew (fun _ => isTrade_of_isTerminal) e he]
    exact Bool.false_ne_true
  unfold routeStreak
  rw [closings_eq hw, closings_eq hw', hroutes, hrecorded, List.filter_append, hterminal, List.append_nil]

/-- One position of route A stopped out, then two thousand rejections: the ledger answers that no loss
was made. -/
theorem streak_forgotten : ¬ ∀ (acts : List Act) (s : Exits), Run Exits.step Run.anyStep Exits.start acts s →
    ∀ route, getRouteInitialStopStreak s.world.ledger route = some (routeStreak s.world route) := by
  intro hall
  obtain ⟨s, hrun, hread, hlength, htrades⟩ : ∃ s, Run Exits.step Run.anyStep Exits.start stoppedOut s ∧
      getRouteInitialStopStreak s.world.ledger .A = some (1, 3) ∧
      s.world.ledger.events.length ≤ eventLimit ∧ ∀ e ∈ s.world.ledger.events, e.isTrade = true :=
    Run.exists_of_any (by decide +kernel)
  have hnoise : ∀ (i : Nat) (w : World), Run.anyStep w (noise i 4) := fun _ _ => trivial
  obtain ⟨w, new, hflood, hnew, hevents, hrecorded, -⟩ := flood_forgets hlength htrades 4 hnoise
  obtain ⟨s', hrun', hs'⟩ := other_run hflood (flood_offExit _ _) s rfl
  subst hs'
  have hall' := hrun.append hrun'
  have hbefore := hall _ s hrun .A
  have hafter := hall _ s' hall' .A
  rw [hread] at hbefore
  -- the streak is what it was, and the ledger shows none
  rw [routeStreak_of_noTrades (run_closes hrun) (run_closes hall') hnew hrecorded .A, ← hbefore] at hafter
  have hnone : ∀ e ∈ s'.world.ledger.events, e.isTerminal = false := by
    rw [hevents]
    exact kind_of_noTrades hnew fun _ => isTrade_of_isTerminal
  rw [streak_of_noneTerminal hnone] at hafter
  cases hafter

end Aibot.Exit
