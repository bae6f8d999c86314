/-
What a capture holds that was handed over: the identity its signal began with, the position that its hooks
named, and the decision BUY where there is one.
-/
import Aibot.Telemetry.Reader

namespace Aibot.Telemetry

/-! ## Bounded copies of scalars -/

theorem safeAlone_int (n : ℤ) : safeAlone (.int n) = if isFiniteInt n then some (.int n) else none := by
  by_cases h : isFiniteInt n <;> simp [safeAlone, safe, h, freshBudget, maxCaptureNodes] <;> rfl

theorem safeAlone_str (s : String) :
    safeAlone (.str s) = some (if contains "://".toList s.toList ||
      ("bearer ".toList).isPrefixOf (s.toList.flatMap lowerLetters) then .none
      else .str (String.ofList (s.toList.take 256))) := by
  have hs : safeAlone (.str s) = ((safeText s).run ⟨255, 8192⟩).1 := rfl
  rw [hs]
  unfold safeText
  split_ifs <;> rfl

/-- A text without slashes and blanks is no URL and no token. -/
def IsPlain (s : String) : Prop := ∀ c ∈ s.toList, c ≠ '/' ∧ c ≠ ' '

theorem space_of_mem_lowerLetters {c : Char} (h : ' ' ∈ lowerLetters c) : c = ' ' := by
  unfold lowerLetters at h
  split at h
  · simp at h
  · simp at h
  · rw [List.mem_singleton] at h
    unfold Char.toLower at h
    split_ifs at h with hupper
    · -- a capital letter has no blank as its lower case
      have hval : (' ').val.toNat = (c.val + ('a'.val - 'A'.val)).toNat := congrArg (fun x : Char => x.val.toNat) h
      have hlow : 65 ≤ c.val.toNat := UInt32.le_iff_toNat_le.1 hupper.1
      have hhigh : c.val.toNat ≤ 90 := UInt32.le_iff_toNat_le.1 hupper.2
      have hshift : ('a'.val - 'A'.val).toNat = 32 := by decide
      have hblank : (' ').val.toNat = 32 := by decide
      rw [UInt32.toNat_add, hshift, hblank] at hval
      omega
    · exact h.symm

theorem safeAlone_plain {s : String} (h : IsPlain s) (hlength : s.length ≤ 256) :
    safeAlone (.str s) = some (.str s) := by
  rw [safeAlone_str, if_neg]
  · rw [List.take_of_length_le (by rwa [String.length_toList]), String.ofList_toList]
  · rw [Bool.or_eq_true, not_or]
    constructor
    · intro hurl
      have hmem : '/' ∈ s.toList := (of_decide_eq_true hurl).subset (by decide)
      exact (h _ hmem).1 rfl
    · intro htoken
      have hmem : ' ' ∈ s.toList.flatMap lowerLetters :=
        (List.isPrefixOf_iff_prefix.1 htoken).subset (by decide)
      obtain ⟨c, hc, hspace⟩ := List.mem_flatMap.1 hmem
      exact (h c hc).2 (space_of_mem_lowerLetters hspace)

theorem IsIdentifier.plain {s : String} (h : IsIdentifier s) : IsPlain s := by
  intro c hc
  have hchar := List.all_eq_true.1 h.chars c hc
  constructor
  · rintro rfl
    revert hchar
    decide
  · rintro rfl
    revert hchar
    decide

theorem IsIdentifier.safe {s : String} (h : IsIdentifier s) : safeAlone (.str s) = some (.str s) :=
  safeAlone_plain h.plain (h.length.trans (by norm_num))

/-! ## Hooks that tell of no purchase -/

/-- The second capture has the identity and the receipt of the first. -/
structure Quiet (c c' : Capture) : Prop where
  identity : c'.identity = c.identity
  receipt : c'.receipt = c.receipt
  decision : (c.sections.get? "decision").isSome = true → (c'.sections.get? "decision").isSome = true

namespace Quiet

variable {c c' c'' : Capture}

theorem refl (c : Capture) : Quiet c c := ⟨rfl, rfl, id⟩

theorem trans (h : Quiet c c') (h' : Quiet c' c'') : Quiet c c'' :=
  ⟨h'.identity.trans h.identity, h'.receipt.trans h.receipt, fun hd => h'.decision (h.decision hd)⟩

theorem sections (c : Capture) (name : String) (fields : Dict String Value) :
    Quiet c { c with sections := c.sections.set name fields } :=
  ⟨rfl, rfl, fun hd => Dict.isSome_get?_set hd _ _⟩

theorem setField (c : Capture) (name key : String) (value : Value) : Quiet c (c.setField name key value) := by
  unfold Capture.setField
  split
  · exact sections c name _
  · exact refl c

theorem setStamp (c : Capture) (name : String) (stamp : Stamp) : Quiet c (c.setStamp name stamp) := by
  unfold Capture.setStamp
  split_ifs
  · exact ⟨rfl, rfl, id⟩
  · exact refl c

theorem markDecision (c : Capture) (stamp : Stamp) : Quiet c (c.markDecision stamp) := by
  unfold Capture.markDecision
  split
  · exact ⟨rfl, rfl, id⟩
  · split
    · split
      · exact refl c
      · split_ifs
        · exact ((setField c _ _ _).trans (setField _ _ _ _)).trans ⟨rfl, rfl, id⟩
        · exact ⟨rfl, rfl, id⟩
    · exact refl c

theorem markTime (c : Capture) (name : String) (stamp : Stamp) : Quiet c (c.markTime name stamp) := by
  unfold Capture.markTime
  dsimp only
  have hfirst : Quiet c (c.setStamp name stamp) := setStamp c name stamp
  generalize c.setStamp name stamp = c₁ at hfirst
  have hsecond : Quiet c₁ (if name = "quote_buy_request_started_at" then
      c₁.setStamp "quote_request_started_at" { stamp with semantics := some "first BUY quote request alias" }
      else c₁) := by
    split_ifs
    · exact setStamp c₁ _ _
    · exact refl c₁
  generalize (if name = "quote_buy_request_started_at" then
      c₁.setStamp "quote_request_started_at" { stamp with semantics := some "first BUY quote request alias" }
      else c₁) = c₂ at hsecond
  have hthird := hfirst.trans hsecond
  split_ifs
  · exact hthird.trans (((setStamp c₂ _ _).trans (setField _ _ _ _)).trans (markDecision _ stamp))
  · exact hthird.trans (markDecision c₂ stamp)
  · exact hthird.trans ((setStamp c₂ _ _).trans (setField _ _ _ _))
  · exact hthird

theorem setFields (name : String) (fields : List String) : ∀ (items : List (Key × Value)) (c : Capture),
    Quiet c (c.setFields name fields items)
  | [], c => refl c
  | (.other _, _) :: items, c => setFields name fields items c
  | (.str key, value) :: items, c => by
    unfold Capture.setFields
    split_ifs
    · split
      · exact ⟨rfl, rfl, id⟩
      · rename_i projected budget _
        have hbudget : Quiet c { c with safeBudget := budget } := ⟨rfl, rfl, id⟩
        exact (hbudget.trans (setField _ name key projected)).trans (setFields name fields items _)
    · exact setFields name fields items c

theorem setSection (c : Capture) (name : String) (mapping : Value) : Quiet c (c.setSection name mapping) := by
  unfold Capture.setSection
  split
  · split_ifs
    · exact refl c
    · exact refl c
    · exact sections c name _
    · exact setFields name _ _ c
  · exact refl c

theorem addCounter (c : Capture) (name : String) (amount : Value) : Quiet c (c.addCounter name amount) := by
  unfold Capture.addCounter
  split_ifs
  · split
    · exact ⟨rfl, rfl, id⟩
    · exact refl c
  · exact refl c

theorem duration (c : Capture) (name : String) (amount : Value) : Quiet c (c.duration name amount) := by
  unfold Capture.duration
  split_ifs
  · split
    · exact ⟨rfl, rfl, id⟩
    · exact refl c
  · exact refl c

end Quiet

/-! ## What a purchase tells -/

/-- What the hooks have told a capture of the purchase. -/
structure Told (purchase : Option Purchase) (identity : Identity) (c : Capture) : Prop where
  identity : c.identity = identity
  trade : Purchase.Says purchase (fun p => .str p.positionId) c.receipt.tradeId
  number : Purchase.Says purchase (fun p => .int p.eventSeq) c.receipt.eventSeq
  finite : ∀ n, c.receipt.eventSeq = .int n → isFiniteInt n = true
  decision : (c.sections.get? "decision").isSome = true

section Told

variable {purchase : Option Purchase} {identity : Identity} {c c' : Capture}

theorem Told.quiet (h : Told purchase identity c) (hq : Quiet c c') : Told purchase identity c' where
  identity := hq.identity.trans h.identity
  trade := by rw [hq.receipt]; exact h.trade
  number := by rw [hq.receipt]; exact h.number
  finite := by rw [hq.receipt]; exact h.finite
  decision := hq.decision h.decision

theorem told_start (purchase : Option Purchase) (identity : Identity) :
    Told purchase identity (.start identity) where
  identity := rfl
  trade := .inl rfl
  number := .inl rfl
  finite _ h := by cases h
  decision := by
    refine Dict.isSome_get?_ofList ?_ ?_
    · decide
    · decide

/-- A copy of what a hook says, or the value of before. -/
def copiedOver (value old : Value) : Option Value := if value.isNone then some old else safeAlone value

theorem copiedOver_trade {value old new : Value} (h : copiedOver value old = some new)
    (hvalue : Purchase.Says purchase (fun p => .str p.positionId) value)
    (hold : Purchase.Says purchase (fun p => .str p.positionId) old) :
    Purchase.Says purchase (fun p => .str p.positionId) new := by
  rcases hvalue with rfl | ⟨p, hp, rfl⟩
  · obtain rfl := Option.some.inj h
    exact hold
  · have hsafe : copiedOver (.str p.positionId) old = some (.str p.positionId) := p.identified.safe
    obtain rfl := Option.some.inj (hsafe.symm.trans h)
    exact .inr ⟨p, hp, rfl⟩

theorem copiedOver_number {value old new : Value} (h : copiedOver value old = some new)
    (hvalue : Purchase.Says purchase (fun p => .int p.eventSeq) value)
    (hold : Purchase.Says purchase (fun p => .int p.eventSeq) old)
    (hfinite : ∀ n, old = .int n → isFiniteInt n = true) :
    Purchase.Says purchase (fun p => .int p.eventSeq) new ∧ ∀ n, new = .int n → isFiniteInt n = true := by
  rcases hvalue with rfl | ⟨p, hp, rfl⟩
  · obtain rfl := Option.some.inj h
    exact ⟨hold, hfinite⟩
  · have hsafe : copiedOver (.int p.eventSeq) old = if isFiniteInt p.eventSeq then some (.int p.eventSeq) else none :=
      safeAlone_int p.eventSeq
    rw [hsafe] at h
    split_ifs at h with hnumber
    obtain rfl := Option.some.inj h
    refine ⟨.inr ⟨p, hp, rfl⟩, fun n hn => ?_⟩
    cases hn
    exact hnumber

theorem Told.markReceipt (h : Told purchase identity c) {values : Dict String Value}
    (htrade : Purchase.Says purchase (fun p => .str p.positionId) ((values.get? "trade_id").getD .none))
    (hnumber : Purchase.Says purchase (fun p => .int p.eventSeq) ((values.get? "event_seq").getD .none)) :
    Told purchase identity (c.markReceipt values).1 := by
  unfold Capture.markReceipt
  dsimp only
  split
  · exact h
  · rename_i tradeId htradeId
    have hcopied : copiedOver ((values.get? "trade_id").getD .none) c.receipt.tradeId = some tradeId := by
      rw [← htradeId]
      cases values.get? "trade_id" <;> rfl
    have hfirst : Told purchase identity { c with receipt := { c.receipt with tradeId := tradeId } } :=
      ⟨h.identity, copiedOver_trade hcopied htrade h.trade, h.number, h.finite, h.decision⟩
    split
    · exact hfirst
    · rename_i eventSeq heventSeq
      have hcopied' : copiedOver ((values.get? "event_seq").getD .none) c.receipt.eventSeq = some eventSeq := by
        rw [← heventSeq]
        cases values.get? "event_seq" <;> rfl
      obtain ⟨htold, hfinite⟩ := copiedOver_number hcopied' hnumber h.number h.finite
      exact ⟨h.identity, hfirst.trade, htold, hfinite, h.decision⟩

theorem Told.markPurchase (h : Told purchase identity c) (stamp : Stamp) {values : Dict String Value}
    (htrade : Purchase.Says purchase (fun p => .str p.positionId) ((values.get? "trade_id").getD .none))
    (hnumber : Purchase.Says purchase (fun p => .int p.eventSeq) ((values.get? "event_seq").getD .none)) :
    Told purchase identity (c.markPurchase stamp values) := by
  unfold Capture.markPurchase
  dsimp only
  set c₁ : Capture := { c with
    frozen := true,
    receipt := { c.receipt with paperBuyCreatedAt := c.receipt.paperBuyCreatedAt.orElse fun _ => stamp } } with hc₁
  have hfirst : Told purchase identity c₁ := ⟨h.identity, h.trade, h.number, h.finite, h.decision⟩
  have hreceipt := hfirst.markReceipt htrade hnumber
  split
  · rename_i c₂ heq
    rw [heq] at hreceipt
    exact hreceipt
  · rename_i c₂ heq
    rw [heq] at hreceipt
    split_ifs
    · exact hreceipt
    · exact hreceipt.quiet (.setField c₂ _ _ _)

theorem Told.mark {dt : Datetimes} {wallUtc : String} {monotonicNs : ℤ} {name : String} {values : Dict String Value}
    (h : Told purchase identity c) (hhook : (Hook.mark wallUtc monotonicNs name values).Tells purchase) :
    Told purchase identity (c.mark dt wallUtc monotonicNs name values) := by
  unfold Capture.mark
  by_cases hfinished : c.finished = true
  · rw [if_pos hfinished]
    exact h
  · rw [if_neg hfinished]
    split
    · exact h
    · rename_i stamp _
      split_ifs with hname
      · exact h.markPurchase stamp (hhook hname).1 (hhook hname).2
      · exact h.quiet (.markTime c name stamp)
      · exact h.quiet ⟨rfl, rfl, id⟩
      · exact h

/-- The receipt that `finish` leaves says what the hooks do. -/
theorem Told.finish (h : Told purchase identity c) {outcome tradeId eventSeq : Value}
    (hhook : (Hook.finish outcome tradeId eventSeq).Tells purchase) :
    Told purchase identity (c.finish outcome tradeId eventSeq) := by
  unfold Capture.finish
  split_ifs
  · exact h
  · dsimp only
    have hfirst : Told purchase identity { c with finished := true, frozen := true } :=
      ⟨h.identity, h.trade, h.number, h.finite, h.decision⟩
    split
    · exact hfirst
    · rename_i known _
      have hsecond := hfirst.quiet (.setField _ "decision" "outcome" (.str known))
      split
      · rename_i tradeId' eventSeq' htrade hnumber
        obtain ⟨htold, hfinite⟩ := copiedOver_number hnumber hhook.2 hsecond.number hsecond.finite
        exact ⟨hsecond.identity, copiedOver_trade htrade hhook.1 hsecond.trade, htold, hfinite, hsecond.decision⟩
      · exact hsecond

theorem Told.after {dt : Datetimes} {hook : Hook} (h : Told purchase identity c) (hhook : hook.Tells purchase) :
    Told purchase identity (c.after dt hook) := by
  cases hook with
  | mark wallUtc monotonicNs name values => exact h.mark hhook
  | setSection name mapping => exact h.quiet (.setSection c name mapping)
  | addCounter name amount => exact h.quiet (.addCounter c name amount)
  | duration name seconds => exact h.quiet (.duration c name seconds)
  | finish outcome tradeId eventSeq => exact h.finish hhook

theorem Told.run (dt : Datetimes) : ∀ {hooks : List Hook} {c : Capture}, Told purchase identity c →
    (∀ hook ∈ hooks, hook.Tells purchase) → Told purchase identity (c.run dt hooks)
  | [], _, h, _ => h
  | hook :: hooks, c, h, hhooks => by
    rw [List.forall_mem_cons] at hhooks
    exact (h.after hhooks.1).run dt hhooks.2

end Told

/-! ## What is handed over -/

section HandOver

variable {purchase : Option Purchase} {identity : Identity} {c c' : Capture} {outcome tradeId eventSeq : Value}

theorem field_setField (c : Capture) (key : String) (value : Value) (h : (c.sections.get? "decision").isSome = true) :
    (c.setField "decision" key value).field "decision" key = value := by
  unfold Capture.setField
  split
  · unfold Capture.field
    dsimp only
    rw [Dict.get?_set_self, Option.bind_some, Dict.get?_set_self]
    rfl
  · rename_i hnone
    rw [hnone] at h
    cases h

/-- A purchase that the capture or the call names is the decision. -/
theorem finish_decision (hfinished : ¬ c.finished = true) (hbought : ¬ tradeId.isNone ∨ ¬ c.receipt.tradeId.isNone)
    (hdecision : (c.sections.get? "decision").isSome = true) :
    (c.finish outcome tradeId eventSeq).field "decision" "outcome" = .str "BUY" := by
  have hknown : Capture.knownOutcome (.str "BUY") = some "BUY" := by decide
  unfold Capture.finish
  rw [if_neg hfinished]
  dsimp only
  rw [if_pos hbought, hknown]
  dsimp only
  split <;> exact field_setField _ _ _ hdecision

/-- Without a purchase the receipt has no position. -/
theorem finish_tradeId (htrade : tradeId.isNone = true) (hold : c.receipt.tradeId.isNone = true) :
    (c.finish outcome tradeId eventSeq).receipt.tradeId.isNone = true := by
  unfold Capture.finish
  split_ifs
  · exact hold
  · dsimp only
    split
    · exact hold
    · rename_i known _
      have hquiet := Quiet.setField { c with finished := true, frozen := true } "decision" "outcome" (.str known)
      split
      · rename_i tradeId' eventSeq' htradeId _
        rw [if_pos htrade, hquiet.receipt] at htradeId
        obtain rfl := Option.some.inj htradeId
        exact hold
      · rw [hquiet.receipt]
        exact hold

theorem handOver_of_isSome (h : (c.handOver outcome tradeId eventSeq).isSome = true) :
    c.handOver outcome tradeId eventSeq = some (c.finish outcome tradeId eventSeq) := by
  unfold Capture.handOver at h ⊢
  split_ifs at h ⊢
  · rfl
  · cases h

/-- What is handed over is the capture that `finish` leaves, decided BUY where it has a position. -/
theorem handOver_some (h : c.handOver outcome tradeId eventSeq = some c')
    (hdecision : (c.sections.get? "decision").isSome = true) : c' = c.finish outcome tradeId eventSeq ∧
      (c'.receipt.tradeId.isNone = false → c'.field "decision" "outcome" = .str "BUY") := by
  unfold Capture.handOver at h
  split_ifs at h with hsteps
  obtain rfl := Option.some.inj h
  refine ⟨rfl, fun htrade => finish_decision hsteps.1 ?_ hdecision⟩
  by_contra hnone
  rw [not_or, not_not, not_not] at hnone
  rw [finish_tradeId hnone.1 hnone.2] at htrade
  cases htrade

end HandOver

/-! ## Finished captures -/

/-- The characters of an `isoformat`. -/
def isTimeChar (c : Char) : Bool := c.isDigit || c = '-' || c = ':' || c = 'T' || c = '+' || c = '.'

/-- The bytes of a text between its quotes. -/
def textBytes (s : String) : ℕ := (s.toList.map charBytes).sum

/-- What is documented of the platform. -/
structure Documented (pf : Platform) (dt : Datetimes) : Prop where
  sha256 : ∀ tokens, IsIdentifier (pf.sha256 tokens)
  keyHash : ∀ text, IsIdentifier (pf.keyHash text)
  /-- A day is written as `date.isoformat` writes it. -/
  day : ∀ text day, pf.day text = some day → isDay day = true
  newline : pf.newlineBytes ≤ 2
  isoformat : ∀ instant, inCalendar instant = true → (dt.isoformat instant).length ≤ 32 ∧
    (dt.isoformat instant).toList.all isTimeChar = true ∧ instantOf dt (dt.isoformat instant) = some instant
  /-- A text that is a time is ASCII, up to the character between the date and the time. -/
  parsed : ∀ text instant, instantOf dt text = some instant → textBytes text ≤ text.length + 5

/-- What is so of every capture that is handed over. -/
structure Captured (dt : Datetimes) (c : Capture) : Prop where
  signalId : IsIdentifier c.identity.signalId
  minted : c.identity.mint ≠ "" ∧ c.identity.mint.length ≤ 256
  routed : c.identity.routeType = "A" ∨ c.identity.routeType = "B"
  family : c.identity.strategyFamily = strategyFamily c.identity.routeType
  time : ∃ instant, inCalendar instant = true ∧ c.identity.signalDetectedAt = dt.isoformat instant
  wallet : ∀ hash, c.identity.sourceWalletHash = some hash → IsIdentifier hash
  signature : ∀ hash, c.identity.sourceSignatureHash = some hash → IsIdentifier hash
  trade : c.receipt.tradeId = .none ∨ ∃ id, IsIdentifier id ∧ c.receipt.tradeId = .str id
  number : c.receipt.eventSeq = .none ∨ ∃ n, isFiniteInt n = true ∧ c.receipt.eventSeq = .int n
  decision : c.receipt.tradeId.isNone = false → c.field "decision" "outcome" = .str "BUY"

section Finished

variable {pf : Platform} {dt : Datetimes} {e : Epoch}

theorem hashOf_identifier (hdoc : Documented pf dt) {text : Option String} {hash : String}
    (h : hashOf pf text = some hash) : IsIdentifier hash := by
  obtain ⟨s, -, rfl⟩ := Option.map_eq_some_iff.1 h
  exact hdoc.keyHash s

theorem digest_identifier (hdoc : Documented pf dt) {document : Store.JsonDocument} {hash : String}
    (h : pf.digest document = some hash) : IsIdentifier hash := by
  obtain ⟨tokens, -, rfl⟩ := Option.map_eq_some_iff.1 h
  exact hdoc.sha256 tokens

/-- The identity that a signal begins with. -/
theorem beginSignal_identity (hdoc : Documented pf dt) {signal : Signal} {identity : Identity}
    (h : beginSignal pf dt e signal = some identity) :
    IsIdentifier identity.signalId ∧ (identity.mint ≠ "" ∧ identity.mint.length ≤ 256) ∧
      (identity.routeType = "A" ∨ identity.routeType = "B") ∧
      identity.strategyFamily = strategyFamily identity.routeType ∧
      (∃ instant, inCalendar instant = true ∧ identity.signalDetectedAt = dt.isoformat instant) ∧
      (∀ hash, identity.sourceWalletHash = some hash → IsIdentifier hash) ∧
      ∀ hash, identity.sourceSignatureHash = some hash → IsIdentifier hash := by
  unfold beginSignal at h
  split_ifs at h with hcandidate hlarge htime
  obtain ⟨instant, -, h⟩ := Option.bind_eq_some_iff.1 h
  obtain ⟨stamp, hstamp, h⟩ := Option.bind_eq_some_iff.1 h
  split_ifs at h with hstart
  obtain ⟨signalId, hsignalId, h⟩ := Option.bind_eq_some_iff.1 h
  obtain rfl := Option.some.inj h
  unfold Datetimes.utcText at hstamp
  split_ifs at hstamp with hcalendar
  rw [not_or, not_or, not_lt, not_not] at hcandidate
  exact ⟨digest_identifier hdoc hsignalId, ⟨hcandidate.1, hcandidate.2.1⟩, hcandidate.2.2, rfl,
    ⟨instant, hcalendar, (Option.some.inj hstamp).symm⟩, fun _ h => hashOf_identifier hdoc h,
    fun _ h => hashOf_identifier hdoc h⟩

theorem Finished.captured (hdoc : Documented pf dt) {c : Capture} (h : Finished pf dt e c) : Captured dt c := by
  obtain ⟨purchase, signal, identity, hooks, outcome, tradeId, eventSeq, hbegin, hhooks, hfinish, hover⟩ := h
  obtain ⟨hsignalId, hmint, hroute, hfamily, htime, hwallet, hsignature⟩ := beginSignal_identity hdoc hbegin
  have hrun := (told_start purchase identity).run dt hhooks
  obtain ⟨rfl, hdecision⟩ := handOver_some hover hrun.decision
  have htold := hrun.finish hfinish
  have hidentity := htold.identity
  refine ⟨?_, ?_, ?_, ?_, ?_, ?_, ?_, ?_, ?_, hdecision⟩
  · rwa [hidentity]
  · rwa [hidentity]
  · rwa [hidentity]
  · rwa [hidentity]
  · rwa [hidentity]
  · rwa [hidentity]
  · rwa [hidentity]
  · rcases htold.trade with hnone | ⟨p, -, hp⟩
    · exact .inl hnone
    · exact .inr ⟨p.positionId, p.identified, hp⟩
  · rcases htold.number with hnone | ⟨p, -, hp⟩
    · exact .inl hnone
    · exact .inr ⟨p.eventSeq, htold.finite _ hp, hp⟩

end Finished

end Aibot.Telemetry
