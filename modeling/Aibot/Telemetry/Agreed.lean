/-
Writers and reader agree: beside the recorders of an epoch no reader raises, every stored record passes its
checks, and what readers have yielded of the three streams is joined without losing or doubling a record.
-/
import Aibot.Lib.Listing
import Aibot.Telemetry.Joined

namespace Aibot.Telemetry

open Store (JsonDocument Codec)

/-! ## Records that are read -/

section Taken

variable {pf : Platform} {dt : Datetimes} {w : World pf dt} {kind : RowKind} {d : StreamDir} {document : JsonDocument}

/-- A row of a recorder of the epoch, with its hash. -/
def Taken (w : World pf dt) (kind : RowKind) (document : JsonDocument) : Prop :=
  ∃ body hash, Handed w kind body ∧ body.get? "content_hash" = none ∧ pf.digest body = some hash ∧
    document = sealed body hash

theorem Reads.taken (hd : DirInv pf kind d) (hs : DirSourced pf (Handed w) kind d) {path : String}
    (h : Reads d path document) : Taken w kind document := by
  obtain ⟨tokens, hrecord, hload⟩ := h
  obtain ⟨body, hash, reserving, hash', hlinked⟩ := exists_linked hd hs hrecord
  refine ⟨body, hash, hlinked.handed, hlinked.unsealed, hlinked.digest, ?_⟩
  rw [hlinked.stored] at hload
  exact Option.some.inj (hload.symm.trans (load_sealed hlinked.digest))

theorem IsRow.withHash {e : Epoch} {identity : List (String × Value)} (h : IsRow e kind identity document)
    (hash : String) : IsRow e kind identity (sealed document hash) where
  schema := (sealed_field _ _ (by decide)).trans h.schema
  kindSchema := (sealed_field _ _ (by cases kind <;> decide)).trans h.kindSchema
  epoch := (sealed_field _ _ (by decide)).trans h.epoch
  build := (sealed_field _ _ (by decide)).trans h.build
  session := h.session.imp fun _ hs => ⟨hs.1, (sealed_field _ _ (by decide)).trans hs.2⟩
  config := (sealed_nested _ _ (by decide)).trans h.config
  identity := (Dict.get?_set_of_ne document _ (by decide)).trans h.identity

theorem Taken.valid (hdoc : Documented pf dt) (h : Taken w kind document) :
    validate pf kind document = .ok () := by
  obtain ⟨body, hash, hhanded, hunsealed, hhash, rfl⟩ := h
  obtain ⟨key, identity, hreadable, -⟩ := hhanded.readable hdoc
  exact hreadable.validate hunsealed hhash

/-- The key of a record in a join: the epoch, and the key of its file. -/
theorem Taken.keyed (hdoc : Documented pf dt) (h : Taken w kind document) : ∃ key, keyOf kind document = some key ∧
    nested document "identity" kind.keyField = .str key ∧
    joinKey kind document = (w.epoch.telemetryEpochId, key) := by
  obtain ⟨body, hash, hhanded, -, -, rfl⟩ := h
  obtain ⟨key, identity, hreadable, -⟩ := hhanded.readable hdoc
  have hnamed : nested (sealed body hash) "identity" kind.keyField = .str key :=
    (sealed_nested _ _ (by decide)).trans hreadable.named
  refine ⟨key, (keyOf_sealed body hash).trans hreadable.keyOf, hnamed, ?_⟩
  unfold joinKey
  rw [hnamed, (hreadable.row.withHash hash).epoch]
  rfl

theorem Taken.ofPredictor (hdoc : Documented pf dt) (h : Taken w .predictor document) :
    ∃ c ∈ w.captures, IsRow w.epoch .predictor (predictorIdentity c) document ∧
      (c.receipt.tradeId.isNone = false → nested document "decision" "outcome" = .str "BUY") := by
  obtain ⟨body, hash, hhanded, -, -, rfl⟩ := h
  obtain ⟨c, hc, hrow, -, -, hbuy⟩ := hhanded.ofPredictor hdoc
  exact ⟨c, hc, hrow.withHash hash, fun htrade => (sealed_nested _ _ (by decide)).trans (hbuy htrade)⟩

theorem Taken.ofReceipt (hdoc : Documented pf dt) (h : Taken w .receipt document) :
    ∃ c ∈ w.captures, c.receipt.tradeId.truthy = true ∧ IsRow w.epoch .receipt (receiptIdentity c) document := by
  obtain ⟨body, hash, hhanded, -, -, rfl⟩ := h
  obtain ⟨c, hc, htrade, hrow⟩ := hhanded.ofReceipt hdoc
  exact ⟨c, hc, htrade, hrow.withHash hash⟩

theorem Taken.ofOutcome (h : Taken w .outcome document) : ∃ t ∈ w.trades, ∃ row,
    submitOutcome dt w.epoch (completedTelemetry t.events t.position) = some row ∧
      IsRow w.epoch .outcome (outcomeIdentity row) document := by
  obtain ⟨body, hash, hhanded, -, -, rfl⟩ := h
  obtain ⟨t, ht, row, hsubmit, hrow⟩ := hhanded.ofOutcome
  exact ⟨t, ht, row, hsubmit, hrow.withHash hash⟩

end Taken

/-! ## Listings -/

section Listing

variable {pf : Platform} {dt : Datetimes} {w : World pf dt} {kind : RowKind} {d : StreamDir}
  {documents : List JsonDocument}

theorem Listing.taken (hd : DirInv pf kind d) (hs : DirSourced pf (Handed w) kind d) (h : Listing d documents) :
    ∀ document ∈ documents, Taken w kind document := by
  obtain ⟨paths, -, hreads⟩ := h
  intro document hdocument
  obtain ⟨path, -, hread⟩ := exists_left_of_forall₂ hreads hdocument
  exact hread.taken hd hs

/-- No two records of a listing have one key. -/
theorem Listing.keys_nodup (hdoc : Documented pf dt) (hd : DirInv pf kind d) (hs : DirSourced pf (Handed w) kind d)
    (h : Listing d documents) : (documents.map (joinKey kind)).Nodup := by
  obtain ⟨paths, hn, hreads⟩ := h
  refine nodup_map_of_forall₂ ?_ hreads hn
  intro path path' document document' hread hread' heq
  obtain ⟨key, hkey, -, hjoin⟩ := (hread.taken hd hs).keyed hdoc
  obtain ⟨key', hkey', -, hjoin'⟩ := (hread'.taken hd hs).keyed hdoc
  obtain rfl : key = key' := congrArg Prod.snd (hjoin.symm.trans (heq.trans hjoin'))
  obtain ⟨tokens, hrecord, hload⟩ := hread
  obtain ⟨tokens', hrecord', hload'⟩ := hread'
  exact hd.consistent.unique path path' tokens tokens' document document' key hrecord hload hkey hrecord' hload' hkey'

end Listing

/-! ## Records that fit together -/

section Fit

variable {pf : Platform} {dt : Datetimes} {w : World pf dt} {e : Epoch} {c : Capture} {t : Trade}

/-- Rows of one epoch with one mint, route and time are consistent where their sources are. -/
theorem consistent_ok {kind kind' : RowKind} {identity identity' : List (String × Value)} {left right : JsonDocument}
    (hleft : IsRow e kind identity left) (hright : IsRow e kind' identity' right)
    (hfields : ∀ key ∈ ["mint", "route_type", "strategy_family"],
      nested left "identity" key = nested right "identity" key)
    (hsources : ∀ key ∈ ["source_wallet_hash", "source_signature_hash"], sourceAgrees left right key = true)
    (stamp : String) (hleftTime : utcOf dt (nested left "identity" "signal_detected_at") = .ok stamp)
    (hrightTime : utcOf dt (nested right "identity" "signal_detected_at") = .ok stamp) :
    consistent dt left right = .ok () := by
  have hepoch : (["telemetry_epoch_id", "build_sha"].all fun key =>
      (left.field key).equal (right.field key)) = true := by
    simp only [List.all_cons, List.all_nil, hleft.epoch, hright.epoch, hleft.build, hright.build, Json.equal_refl,
      Bool.and_self]
  have hconfig : (nested left "provenance" "config_fingerprint").equal
      (nested right "provenance" "config_fingerprint") = true := by
    rw [hleft.config, hright.config]
    exact Json.equal_refl _
  have hidentity : (["mint", "route_type", "strategy_family"].all fun key =>
      (nested left "identity" key).equal (nested right "identity" key)) = true := by
    refine List.all_eq_true.2 fun key hkey => ?_
    rw [hfields key hkey]
    exact Json.equal_refl _
  unfold consistent
  rw [demand_bind hepoch, demand_bind hconfig, demand_bind hidentity, demand_bind (List.all_eq_true.2 hsources),
    hleftTime, ok_bind, hrightTime, ok_bind]
  exact demand_of (decide_eq_true rfl) _

/-- A value that both identities have is one that agrees. -/
theorem sourceAgrees_of_eq {left right : JsonDocument} {key : String}
    (h : ∀ x y, (identityOf left).bind (Dict.get? · key) = some x → (identityOf right).bind (Dict.get? · key) = some y →
      x = y) : sourceAgrees left right key = true := by
  unfold sourceAgrees
  split
  · rename_i x y hx hy
    have hget : ∀ {document : JsonDocument} {x : Json}, ((identityOf document).getD .empty).get? key = some x →
        (identityOf document).bind (Dict.get? · key) = some x := by
      intro document x hx
      cases hidentity : identityOf document with
      | none =>
        rw [hidentity] at hx
        cases hx
      | some identity =>
        rw [hidentity] at hx
        exact hx
    rw [h x y (hget hx) (hget hy)]
    exact Json.equal_refl _
  · rfl

theorem IsRow.source {kind : RowKind} {identity : List (String × Value)} {document : JsonDocument}
    (h : IsRow e kind identity document) (key : String) :
    (identityOf document).bind (Dict.get? · key) = (documentOf identity).get? key := by
  rw [identityOf_of_get? h.identity]
  rfl

theorem utcOf_ok {text stamp : String} (h : (instantOf dt text).bind dt.utcText = some stamp) :
    utcOf dt (.str text) = .ok stamp := by
  obtain ⟨instant, hinstant, hstamp⟩ := Option.bind_eq_some_iff.1 h
  show (orRaise _ (instantOf dt text) >>= fun instant => orRaise _ (dt.utcText instant)) = _
  rw [hinstant, orRaise_bind, hstamp]
  rfl

/-- The time of a capture, as the reader has it. -/
theorem Captured.utc (hdoc : Documented pf dt) (h : Captured dt c) :
    utcOf dt (.str c.identity.signalDetectedAt) = .ok c.identity.signalDetectedAt := by
  obtain ⟨instant, hcalendar, heq⟩ := h.time
  obtain ⟨-, -, hparsed⟩ := hdoc.isoformat instant hcalendar
  refine utcOf_ok ?_
  rw [heq, hparsed]
  exact if_pos hcalendar

/-- The predictor and the receipt of a capture fit together. -/
theorem consistent_receipt (hdoc : Documented pf dt) (h : Captured dt c) {left right : JsonDocument}
    (hleft : IsRow e .predictor (predictorIdentity c) left) (hright : IsRow e .receipt (receiptIdentity c) right) :
    consistent dt left right = .ok () := by
  have hl := hleft.captureFields
  have hr := hright.captureFields
  refine consistent_ok hleft hright ?_ ?_ c.identity.signalDetectedAt ?_ ?_
  · simp [hl.mint, hr.mint, hl.route, hr.route, hl.family, hr.family]
  · intro key hkey
    refine sourceAgrees_of_eq fun x y hx hy => ?_
    obtain ⟨value, hvalue⟩ : ∃ value, (key, value) ∈ captureIdentity c := by
      rcases List.mem_pair.1 hkey with rfl | rfl
      · exact ⟨.ofText c.identity.sourceWalletHash, by simp [captureIdentity]⟩
      · exact ⟨.ofText c.identity.sourceSignatureHash, by simp [captureIdentity]⟩
    have hpredictor : ((predictorIdentity c).map Prod.fst).Nodup := captureKeys_nodup
    have hreceipt : ((receiptIdentity c).map Prod.fst).Nodup := captureKeys_nodup
    rw [hleft.source, get?_documentOf hpredictor (List.mem_append_left _ hvalue)] at hx
    rw [hright.source, get?_documentOf hreceipt (List.mem_append_left _ hvalue)] at hy
    exact Option.some.inj (hx.symm.trans hy)
  · rw [hl.signal]
    exact h.utc hdoc
  · rw [hr.signal]
    exact h.utc hdoc

/-- The receipt of a capture and the outcome of the position it bought fit together. -/
theorem consistent_outcome (hdoc : Documented pf dt) (h : Captured dt c) (hcarries : Carries dt c t)
    {left right : JsonDocument} {row : Dict String Value}
    (hsubmit : submitOutcome dt e (completedTelemetry t.events t.position) = some row)
    (hleft : IsRow e .receipt (receiptIdentity c) left) (hright : IsRow e .outcome (outcomeIdentity row) right) :
    consistent dt left right = .ok () := by
  have hl := hleft.captureFields
  obtain ⟨-, -, -, -, n, id, last, -, -, -, -, hidentity⟩ := (submitted hsubmit).identity
  have hr : ∀ {key : String} (x : Value), (key, x) ∈ outcomeIdentity row → nested right "identity" key = x.json :=
    fun x hmem => nested_of_get? hright.identity outcomeKeys_nodup hmem
  have hmint : nested right "identity" "mint" = .str c.identity.mint := by
    rw [← hcarries.mint, ← cutText_of_length_le (s := t.position.mint) (by rw [hcarries.mint]; exact h.minted.2)]
    exact hr (.str _) (by rw [hidentity]; simp)
  have hroute : nested right "identity" "route_type" = .str c.identity.routeType := by
    rw [← hcarries.route]
    exact hr (.str _) (by rw [hidentity]; simp)
  have hfamily : nested right "identity" "strategy_family" = .str c.identity.strategyFamily := by
    rw [h.family, ← hcarries.route]
    exact hr (.str _) (by rw [hidentity]; simp)
  have htime : nested right "identity" "signal_detected_at" = .str t.position.signalDetectedAt := by
    rw [← cutText_of_length_le (s := t.position.signalDetectedAt) hcarries.length]
    exact hr (.str _) (by rw [hidentity]; simp)
  refine consistent_ok hleft hright ?_ ?_ c.identity.signalDetectedAt ?_ ?_
  · simp [hl.mint, hmint, hl.route, hroute, hl.family, hfamily]
  · intro key hkey
    refine sourceAgrees_of_eq fun x y _ hy => ?_
    -- an outcome has no sources
    rw [hright.source, get?_documentOf_none] at hy
    · cases hy
    · show key ∉ outcomeKeys
      rcases List.mem_pair.1 hkey with rfl | rfl <;> decide
  · rw [hl.signal]
    exact h.utc hdoc
  · rw [htime]
    exact utcOf_ok hcarries.signal

/-- The number that a receipt names is that of the BUY event of its outcome. -/
theorem numbers_ok (hc : c ∈ w.captures) (ht : t ∈ w.trades) (htrade : c.receipt.tradeId = .str t.position.positionId)
    {left right : JsonDocument} {row : Dict String Value}
    (hsubmit : submitOutcome dt w.epoch (completedTelemetry t.events t.position) = some row)
    (hleft : IsRow e .receipt (receiptIdentity c) left) (hright : IsRow e .outcome (outcomeIdentity row) right) :
    ((nested left "identity" "event_seq").isNull || (nested left "identity" "event_seq").equal
      (nested right "identity" "buy_event_seq")) = true := by
  obtain ⟨event, hevent, hposition, htype, n, id, last, hn, -, -, -, hidentity⟩ := (submitted hsubmit).identity
  have hnumber : nested right "identity" "buy_event_seq" = (Value.int n).json :=
    nested_of_get? hright.identity outcomeKeys_nodup (by rw [hidentity]; simp)
  rw [hleft.captureFields.number, hnumber]
  rcases w.told c hc t ht htrade event hevent hposition htype with hnone | htold
  · rw [hnone]
    rfl
  · rw [← htold, hn, Json.equal_refl, Bool.or_true]

end Fit

/-! ## The streams of an epoch -/

section Agree

variable {pf : Platform} {dt : Datetimes} {w : World pf dt} {s : Watched}

/-- The positions of a run have the mint, the route and the signal time of the captures that bought them. -/
def World.Carried (w : World pf dt) : Prop :=
  ∀ c ∈ w.captures, ∀ t ∈ w.trades, c.receipt.tradeId = .str t.position.positionId → Carries dt c t

theorem Taken.signal (hdoc : Documented pf dt) {kind : RowKind} {c : Capture} {tradeId eventSeq : Value}
    {document : JsonDocument} (h : Taken w kind document) (hkind : kind.keyField = "signal_id")
    (hrow : IsRow w.epoch kind (captureIdentity c ++ [("trade_id", tradeId), ("event_seq", eventSeq)]) document) :
    joinKey kind document = (w.epoch.telemetryEpochId, c.identity.signalId) := by
  obtain ⟨key, -, hkey, hjoin⟩ := h.keyed hdoc
  rw [hkind, hrow.captureFields.signalId] at hkey
  rw [hjoin, Json.str.inj hkey]

/-- What was read of the three streams fits together. -/
theorem joinable (hdoc : Documented pf dt) (hs : WatchedInv w s) (hcarried : w.Carried)
    {predictors receipts outcomes : List JsonDocument} (hp : Listing (s.streams.dirs .predictor) predictors)
    (hr : Listing (s.streams.dirs .receipt) receipts) (ho : Listing (s.streams.dirs .outcome) outcomes) :
    Joinable pf dt predictors receipts outcomes := by
  have hdir := hs.streams.dir
  have hsource := hs.sourced.dir
  have htakenP := hp.taken (hdir .predictor) (hsource .predictor)
  have htakenR := hr.taken (hdir .receipt) (hsource .receipt)
  have htakenO := ho.taken (hdir .outcome) (hsource .outcome)
  refine ⟨⟨fun row hrow => (htakenP row hrow).valid hdoc, hp.keys_nodup hdoc (hdir _) (hsource _)⟩,
    ⟨fun row hrow => (htakenR row hrow).valid hdoc, hr.keys_nodup hdoc (hdir _) (hsource _)⟩,
    ⟨fun row hrow => (htakenO row hrow).valid hdoc, ho.keys_nodup hdoc (hdir _) (hsource _)⟩, ?_, ?_, ?_⟩
  · -- the receipts of one position are those of one capture
    intro r hr r' hr' heq
    obtain ⟨c, hc, htrade, hrow⟩ := (htakenR r hr).ofReceipt hdoc
    obtain ⟨c', hc', htrade', hrow'⟩ := (htakenR r' hr').ofReceipt hdoc
    obtain ⟨id, -, hid⟩ := ((w.finished c hc).captured hdoc).tradeId_of_truthy htrade
    obtain ⟨id', -, hid'⟩ := ((w.finished c' hc').captured hdoc).tradeId_of_truthy htrade'
    have hsame : id = id' := by
      have htexts := congrArg Prod.snd heq
      simp only [tradeKey, hrow.captureFields.trade, hrow'.captureFields.trade, hid, hid'] at htexts
      exact htexts
    obtain rfl := w.bought c hc c' hc' (by rw [hid, hid', hsame]) (by rw [hid]; rfl)
    rw [(htakenR r hr).signal hdoc rfl hrow, (htakenR r' hr').signal hdoc rfl hrow']
  · intro p hp r hr hkey
    obtain ⟨c, hc, hrow, hbuy⟩ := (htakenP p hp).ofPredictor hdoc
    obtain ⟨c', hc', htrade, hrow'⟩ := (htakenR r hr).ofReceipt hdoc
    rw [(htakenP p hp).signal hdoc rfl hrow, (htakenR r hr).signal hdoc rfl hrow'] at hkey
    obtain rfl := w.distinct c hc c' hc' (congrArg Prod.snd hkey).symm
    have hcaptured := (w.finished c hc).captured hdoc
    obtain ⟨id, -, hid⟩ := hcaptured.tradeId_of_truthy htrade
    refine ⟨?_, consistent_receipt hdoc hcaptured hrow hrow'⟩
    rw [hbuy (by rw [hid]; rfl)]
    rfl
  · intro r hr o ho hkey
    obtain ⟨c, hc, htrade, hrow⟩ := (htakenR r hr).ofReceipt hdoc
    obtain ⟨t, ht, row, hsubmit, hrow'⟩ := (htakenO o ho).ofOutcome
    have hcaptured := (w.finished c hc).captured hdoc
    obtain ⟨id, -, hid⟩ := hcaptured.tradeId_of_truthy htrade
    obtain ⟨key, -, hnamed, hjoin⟩ := (htakenO o ho).keyed hdoc
    have hposition : c.receipt.tradeId = .str t.position.positionId := by
      have htexts := congrArg Prod.snd (hjoin.symm.trans hkey)
      simp only [tradeKey, hrow.captureFields.trade, hid] at htexts
      rw [show nested o "identity" RowKind.outcome.keyField = _ from outcome_tradeId hsubmit hrow'] at hnamed
      rw [hid, ← show key = id from htexts, ← Json.str.inj hnamed]
    exact ⟨consistent_outcome hdoc hcaptured (hcarried c hc t ht hposition) hsubmit hrow hrow',
      numbers_ok hc ht hposition hsubmit hrow hrow'⟩

end Agree

/-! ## A bought position -/

/-- The last digits of a number, the last one first. -/
def digits : ℕ → ℕ → List Char
  | 0, _ => []
  | k + 1, n => Char.ofNat (48 + n % 10) :: digits k (n / 10)

def numberOf : List Char → ℕ
  | [] => 0
  | c :: cs => c.toNat - 48 + 10 * numberOf cs

theorem length_digits : ∀ k n, (digits k n).length = k
  | 0, _ => rfl
  | k + 1, n => congrArg (· + 1) (length_digits k (n / 10))

theorem digits_all {p : Char → Bool} (hp : ∀ m < 10, p (Char.ofNat (48 + m)) = true) :
    ∀ k n, (digits k n).all p = true
  | 0, _ => rfl
  | k + 1, n => by
    rw [digits, List.all_cons, hp _ (Nat.mod_lt _ (by decide)), digits_all hp k]
    rfl

theorem numberOf_digits : ∀ {k n : ℕ}, n < 10 ^ k → numberOf (digits k n) = n
  | 0, n, h => by
    rw [Nat.pow_zero, Nat.lt_one_iff] at h
    exact h.symm
  | k + 1, n, h => by
    have hdigit : ∀ m < 10, (Char.ofNat (48 + m)).toNat - 48 = m := by decide
    have hrest : n / 10 < 10 ^ k := by
      rw [Nat.pow_succ] at h
      omega
    rw [digits, numberOf, hdigit _ (Nat.mod_lt _ (by decide)), numberOf_digits hrest]
    omega

/-- A checksum in place of a hash. -/
def checksum (codes : List ℕ) : String :=
  String.ofList (digits 16 (codes.foldl (fun sum code => (sum * 1000003 + code) % 10 ^ 16) 7))

def codesOf : Json.Token → List ℕ
  | .null => [1]
  | .bool b => [2, b.toNat]
  | .int n => [3, n.natAbs]
  | .float q => [4, q.num.natAbs, q.den]
  | .str s => 5 :: s.toList.map Char.toNat
  | .openArr => [6]
  | .closeArr => [7]
  | .openObj => [8]
  | .closeObj => [9]
  | .comma => [10]
  | .colon => [11]

def checksums : Platform where
  sha256 tokens := checksum (tokens.flatMap codesOf)
  keyHash text := checksum (text.toList.map Char.toNat)
  day _ := some "1970-01-01"
  floatBytes _ := 3
  newlineBytes := 1

/-- Times of an epoch that begins with the first instant; other instants are written as numbers. -/
def firstInstant : String := "1970-01-01T00:00:00+00:00"

def calendarStart : ℤ := -62135596800 * 10 ^ 6

def clock : Datetimes where
  fromisoformat text :=
    if text = firstInstant then some (.aware 0)
    else if text.length = 18 ∧ text.toList.all Char.isDigit then some (.aware (calendarStart + numberOf text.toList))
    else none
  isoformat instant :=
    if instant = 0 then firstInstant else String.ofList (digits 18 (instant - calendarStart).toNat)
  localEpoch _ := none

theorem identifier_checksum (codes : List ℕ) : IsIdentifier (checksum codes) where
  nonempty h := by
    have hlength := congrArg String.length h
    rw [checksum, String.length_ofList, length_digits] at hlength
    cases hlength
  length := by
    rw [checksum, String.length_ofList, length_digits]
    decide
  chars := by
    rw [checksum, String.toList_ofList]
    exact digits_all (by decide) 16 _

theorem replaceZ_of_timeChars {text : String} (h : text.toList.all isTimeChar = true) : replaceZ text = text := by
  have hkept : ∀ cs : List Char, cs.all isTimeChar = true →
      (cs.flatMap fun c => if c = 'Z' then "+00:00".toList else [c]) = cs := by
    intro cs hcs
    induction cs with
    | nil => rfl
    | cons c cs ih =>
      rw [List.all_cons, Bool.and_eq_true] at hcs
      have hc : c ≠ 'Z' := by
        rintro rfl
        exact absurd hcs.1 (by decide)
      rw [List.flatMap_cons, if_neg hc, ih hcs.2]
      rfl
  unfold replaceZ
  rw [hkept _ h, String.ofList_toList]

theorem isTimeChar_of_isDigit {c : Char} (h : c.isDigit = true) : isTimeChar c = true := by
  unfold isTimeChar
  rw [h]
  rfl

theorem charBytes_isTimeChar {c : Char} (h : isTimeChar c = true) : charBytes c ≤ 1 := by
  unfold isTimeChar at h
  simp only [Bool.or_eq_true, decide_eq_true_eq] at h
  rcases h with ((((hdigit | rfl) | rfl) | rfl) | rfl) | rfl
  · refine (charBytes_isFileChar ?_).le
    unfold isFileChar Char.isAlphanum
    rw [hdigit, Bool.or_true]
    rfl
  · decide
  · decide
  · decide
  · decide
  · decide

/-- What the clock reads is written in the characters of times. -/
theorem clock_timeChars {text : String} {instant : ℤ} (h : instantOf clock text = some instant) :
    (replaceZ text).toList.all isTimeChar = true := by
  unfold instantOf clock at h
  dsimp only at h
  split_ifs at h with hfirst hdigits
  · rw [hfirst]
    decide
  · exact List.all_eq_true.2 fun c hc => isTimeChar_of_isDigit (List.all_eq_true.1 hdigits.2 c hc)

theorem clock_parsed {text : String} {instant : ℤ} (h : instantOf clock text = some instant) :
    textBytes text ≤ text.length := by
  have hchars : ∀ c ∈ text.toList, charBytes c ≤ 1 := by
    intro c hc
    by_cases hz : c = 'Z'
    · rw [hz]
      decide
    · refine charBytes_isTimeChar (List.all_eq_true.1 (clock_timeChars h) c ?_)
      unfold replaceZ
      rw [String.toList_ofList]
      refine List.mem_flatMap.2 ⟨c, hc, ?_⟩
      rw [if_neg hz]
      exact List.mem_singleton_self c
  unfold textBytes
  have hsum := List.sum_le_card_nsmul (text.toList.map charBytes) 1 (List.forall_mem_map.2 hchars)
  rwa [List.length_map, String.length_toList, smul_eq_mul, mul_one] at hsum

theorem clock_digits {n : ℕ} (h : n < 10 ^ 18) :
    instantOf clock (String.ofList (digits 18 n)) = some (calendarStart + n) := by
  have hlist : (String.ofList (digits 18 n)).toList = digits 18 n := String.toList_ofList ..
  have hdigits : (String.ofList (digits 18 n)).toList.all Char.isDigit = true := by
    rw [hlist]
    exact digits_all (by decide) 18 n
  have hlength : (String.ofList (digits 18 n)).length = 18 := by
    rw [String.length_ofList, length_digits]
  have hfirst : String.ofList (digits 18 n) ≠ firstInstant := by
    intro heq
    rw [heq] at hlength
    exact absurd hlength (by decide)
  unfold instantOf
  rw [replaceZ_of_timeChars (List.all_eq_true.2 fun c hc => isTimeChar_of_isDigit (List.all_eq_true.1 hdigits c hc))]
  unfold clock
  dsimp only
  rw [if_neg hfirst, if_pos ⟨hlength, hdigits⟩, hlist, numberOf_digits h]

theorem documented_checksums : Documented checksums clock where
  sha256 _ := identifier_checksum _
  keyHash _ := identifier_checksum _
  day _ day h := by
    obtain rfl := Option.some.inj h
    decide
  newline := by decide
  isoformat instant hcalendar := by
    have hiso : clock.isoformat instant =
        if instant = 0 then firstInstant else String.ofList (digits 18 (instant - calendarStart).toNat) := rfl
    rw [hiso]
    split_ifs with hzero
    · rw [hzero]
      exact ⟨by decide, by decide, by decide⟩
    · unfold inCalendar at hcalendar
      rw [Bool.and_eq_true, decide_eq_true_iff, decide_eq_true_iff] at hcalendar
      have hsmall : (instant - calendarStart).toNat < 10 ^ 18 := by
        unfold calendarStart
        omega
      refine ⟨?_, ?_, ?_⟩
      · rw [String.length_ofList, length_digits]
        decide
      · rw [String.toList_ofList]
        exact digits_all (by decide) 18 _
      · rw [clock_digits hsmall]
        unfold calendarStart at hsmall ⊢
        refine congrArg some ?_
        omega
  parsed _ _ h := (clock_parsed h).trans (Nat.le_add_right _ _)

theorem identifier_epoch : IsIdentifier "epoch" := ⟨by decide, by decide, by decide⟩

theorem identifier_build : IsIdentifier "build" := ⟨by decide, by decide, by decide⟩

theorem identifier_config : IsIdentifier "config" := ⟨by decide, by decide, by decide⟩

theorem identifier_position : IsIdentifier "position" := ⟨by decide, by decide, by decide⟩

def oneEpoch : Epoch := ⟨"epoch", "build", "config", 1, 0, identifier_epoch, identifier_build, identifier_config⟩

def oneRecorder : Recorder :=
  ⟨.str "epoch", Dict.ofList [("git_sha", .str "build"), ("config_fingerprint", .str "config"),
    ("session_id", .str "session")], .none⟩

theorem bound_oneRecorder : oneRecorder.Bound oneEpoch := ⟨rfl, rfl, rfl, "session", by decide, rfl⟩

def oneSignal : Signal := ⟨"mint", "A", "1970-01-01T00:00:00Z", some "wallet", some "signature", none⟩

def onePurchase : Purchase := ⟨"position", 1, identifier_position⟩

def boughtHooks : List Hook :=
  [.setSection "decision" (.ofItems [("outcome", .str "BUY")]),
    .mark firstInstant 1 "paper_buy_created_at" (Dict.ofList [("trade_id", .str "position"), ("event_seq", .int 1)])]

def oneIdentity : Identity :=
  (beginSignal checksums clock oneEpoch oneSignal).getD ⟨"", "", "", "", "", none, none⟩

def decidedBuy : Capture := (Capture.start oneIdentity).run clock boughtHooks

def boughtCapture : Capture := decidedBuy.finish (.str "BUY") .none .none

def ledgerEvent (kind : String) (seq : ℤ) (id : String) : Value :=
  .ofItems [("event_id", .str id), ("event_seq", .int seq), ("type", .str kind), ("position_id", .str "position")]

def ledgerEvents : List Value := [ledgerEvent "BUY" 1 "buy", ledgerEvent "SELL" 2 "sell"]

theorem numbered_ledgerEvents : ∀ event ∈ ledgerEvents, (event.get "position_id").isStr "position" = true →
    (∃ n, event.get "event_seq" = .int n) ∧ ∃ id, IsIdentifier id ∧ event.get "event_id" = .str id := by
  intro event hevent _
  rcases List.mem_pair.1 hevent with rfl | rfl
  · exact ⟨⟨1, rfl⟩, "buy", ⟨by decide, by decide, by decide⟩, rfl⟩
  · exact ⟨⟨2, rfl⟩, "sell", ⟨by decide, by decide, by decide⟩, rfl⟩

theorem one_mint : "mint" ≠ "" := by decide

/-- A position that is bought and sold. -/
def oneTrade : Trade :=
  ⟨ledgerEvents, ⟨"position", "mint", "A", "1970-01-01T00:00:00Z", 100, 120⟩, identifier_position, one_mint,
    .inl rfl, numbered_ledgerEvents⟩

def receiptDocument : JsonDocument :=
  (writeStream clock oneEpoch .receipt (boughtCapture.receiptRow oneRecorder)).getD .empty

def outcomeDocument : JsonDocument :=
  (writeStream clock oneEpoch .outcome ((submitOutcome clock oneEpoch (completedTelemetry oneTrade.events
    oneTrade.position)).bind (outcomeRow oneRecorder))).getD .empty

/-- The recorders of the signal, the receipt and the outcome hand over a row each, and the position carries what
the signal captured. -/
theorem bought_recorded :
    (beginSignal checksums clock oneEpoch oneSignal).isSome = true ∧
    (decidedBuy.handOver (.str "BUY") .none .none).isSome = true ∧
    boughtCapture.receipt.tradeId.isNone = false ∧ boughtCapture.receipt.tradeId.truthy = true ∧
    (writeStream clock oneEpoch .receipt (boughtCapture.receiptRow oneRecorder)).isSome = true ∧
    (writeStream clock oneEpoch .outcome ((submitOutcome clock oneEpoch (completedTelemetry oneTrade.events
      oneTrade.position)).bind (outcomeRow oneRecorder))).isSome = true ∧
    receiptDocument.get? "content_hash" = none ∧ outcomeDocument.get? "content_hash" = none ∧
    oneTrade.position.mint = boughtCapture.identity.mint ∧
    oneTrade.position.routeType = boughtCapture.identity.routeType ∧
    oneTrade.position.signalDetectedAt.length ≤ maxString ∧
    (instantOf clock oneTrade.position.signalDetectedAt).bind clock.utcText =
      some boughtCapture.identity.signalDetectedAt := by
  decide +kernel

theorem some_getD_of_isSome {α : Type*} {x : Option α} (h : x.isSome = true) (a : α) : x = some (x.getD a) := by
  obtain ⟨b, rfl⟩ := Option.isSome_iff_exists.1 h
  rfl

theorem begun_oneIdentity : beginSignal checksums clock oneEpoch oneSignal = some oneIdentity :=
  some_getD_of_isSome bought_recorded.1 _

theorem tells_boughtHooks : ∀ hook ∈ boughtHooks, hook.Tells (some onePurchase) := by
  intro hook hhook
  rcases List.mem_pair.1 hhook with rfl | rfl
  · trivial
  · exact fun _ => ⟨.inr ⟨onePurchase, rfl, rfl⟩, .inr ⟨onePurchase, rfl, rfl⟩⟩

theorem finished_boughtCapture : Finished checksums clock oneEpoch boughtCapture :=
  ⟨some onePurchase, oneSignal, oneIdentity, boughtHooks, .str "BUY", .none, .none, begun_oneIdentity,
    tells_boughtHooks, ⟨.inl rfl, .inl rfl⟩, handOver_of_isSome bought_recorded.2.1⟩

theorem told_boughtCapture : Told (some onePurchase) oneIdentity boughtCapture :=
  ((told_start (some onePurchase) oneIdentity).run clock tells_boughtHooks).finish ⟨.inl rfl, .inl rfl⟩

theorem trade_boughtCapture : boughtCapture.receipt.tradeId = .str "position" := by
  obtain ⟨-, -, hsome, -⟩ := bought_recorded
  rcases told_boughtCapture.trade with hnone | ⟨p, hp, hstr⟩
  · rw [hnone] at hsome
    cases hsome
  · obtain rfl := Option.some.inj hp
    exact hstr

theorem told_ledgerEvents : ∀ event ∈ ledgerEvents, (event.get "position_id").isStr "position" = true →
    (event.get "type").isStr "BUY" = true →
    boughtCapture.receipt.eventSeq = .none ∨ event.get "event_seq" = boughtCapture.receipt.eventSeq := by
  intro event hevent _ hbuy
  rcases told_boughtCapture.number with hnone | ⟨p, hp, hnumber⟩
  · exact .inl hnone
  · obtain rfl := Option.some.inj hp
    rcases List.mem_pair.1 hevent with rfl | rfl
    · exact .inr hnumber.symm
    · exact absurd hbuy (by decide)

theorem finished_one : ∀ c ∈ ({boughtCapture} : Set Capture), Finished checksums clock oneEpoch c := by
  rintro c rfl
  exact finished_boughtCapture

theorem told_one : ∀ c ∈ ({boughtCapture} : Set Capture), ∀ t ∈ ({oneTrade} : Set Trade),
    c.receipt.tradeId = .str t.position.positionId → ∀ event ∈ t.events,
    (event.get "position_id").isStr t.position.positionId = true → (event.get "type").isStr "BUY" = true →
    c.receipt.eventSeq = .none ∨ event.get "event_seq" = c.receipt.eventSeq := by
  rintro c rfl t rfl _
  exact told_ledgerEvents

def oneWorld : World checksums clock where
  epoch := oneEpoch
  captures := {boughtCapture}
  trades := {oneTrade}
  finished := finished_one
  distinct _ hc _ hc' _ := hc.trans hc'.symm
  bought _ hc _ hc' _ _ := hc.trans hc'.symm
  closed _ ht _ ht' _ := ht.trans ht'.symm
  told := told_one

theorem carries_one : oneWorld.Carried := by
  rintro c rfl t rfl -
  obtain ⟨-, -, -, -, -, -, -, -, hmint, hroute, hlength, htime⟩ := bought_recorded
  exact ⟨hmint, hroute, hlength, htime⟩

theorem handed_receipt : Handed oneWorld .receipt receiptDocument := by
  obtain ⟨-, -, -, htrade, hreceipt, -⟩ := bought_recorded
  exact .receipt bound_oneRecorder rfl htrade (some_getD_of_isSome hreceipt _)

theorem handed_outcome : Handed oneWorld .outcome outcomeDocument := by
  obtain ⟨-, -, -, -, -, houtcome, -⟩ := bought_recorded
  exact .outcome bound_oneRecorder rfl (some_getD_of_isSome houtcome _)

theorem unsealed_receipt : receiptDocument.get? "content_hash" = none := by
  obtain ⟨-, -, -, -, -, -, hreceipt, -⟩ := bought_recorded
  exact hreceipt

theorem unsealed_outcome : outcomeDocument.get? "content_hash" = none := by
  obtain ⟨-, -, -, -, -, -, -, houtcome, -⟩ := bought_recorded
  exact houtcome

/-- Two recorders take up the receipt, a third one the outcome, and readers enter both streams. -/
def boughtActs : List WatchedAct :=
  [.enters 0 .receipt, .writes (.begins 0 ⟨.receipt, receiptDocument, unsealed_receipt⟩), .enters 1 .outcome,
    .writes (.begins 1 ⟨.receipt, receiptDocument, unsealed_receipt⟩),
    .writes (.begins 2 ⟨.outcome, outcomeDocument, unsealed_outcome⟩)]

theorem fromWorld_boughtActs (s : Watched) : ∀ act ∈ boughtActs, FromWorld oneWorld s act := by
  unfold boughtActs
  simp only [List.forall_mem_cons]
  exact ⟨trivial, handed_receipt, trivial, handed_receipt, handed_outcome, nofun⟩

end Aibot.Telemetry
