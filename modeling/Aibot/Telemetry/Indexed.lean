/-
The sizes of index entries: the reservation of every row that a recorder persists is within the bound under
which the reader takes an index entry.
-/
import Aibot.Telemetry.Outcome
import Aibot.Telemetry.Provenance

namespace Aibot.Telemetry

open Store (JsonDocument Codec)

/-! ## Numbers -/

theorem natAbs_lt_two_pow {n : ℤ} {k : ℕ} (h : |(n : ℚ)| < 2 ^ k) : n.natAbs < 2 ^ k := by
  rw [← Int.cast_abs, Int.abs_eq_natAbs, Int.cast_natCast] at h
  exact_mod_cast h

theorem two_pow_le_ten_pow {k m : ℕ} (h : k ≤ 3 * m) : 2 ^ k ≤ 10 ^ m :=
  calc 2 ^ k ≤ 2 ^ (3 * m) := Nat.pow_le_pow_right (by norm_num) h
    _ = (2 ^ 3) ^ m := pow_mul 2 3 m
    _ ≤ 10 ^ m := Nat.pow_le_pow_left (by norm_num) m

/-- An integer that a float is near has no more digits than this. -/
theorem natAbs_lt_of_isFiniteInt {n : ℤ} (h : isFiniteInt n = true) : n.natAbs < 10 ^ 342 :=
  (natAbs_lt_two_pow (Double.abs_lt_of_round h)).trans_le (two_pow_le_ten_pow (by norm_num))

theorem length_repr_le {m k : ℕ} (hk : 0 < k) (h : m < 10 ^ k) : (Nat.repr m).length ≤ k := by
  unfold Nat.repr
  rw [String.length_ofList]
  exact (Nat.length_toDigits_le_iff (by norm_num) hk).2 h

theorem length_toString_le {n : ℤ} (h : isFiniteInt n = true) : (toString n).length ≤ 343 := by
  have hlt := natAbs_lt_of_isFiniteInt h
  cases n with
  | ofNat m => exact (length_repr_le (by norm_num) hlt).trans (by norm_num)
  | negSucc m =>
    show ("-" ++ Nat.repr (m + 1)).length ≤ 343
    rw [String.length_append]
    exact Nat.add_le_add_left (length_repr_le (by norm_num) hlt) 1

/-! ## Texts -/

theorem charBytes_le (c : Char) : charBytes c ≤ 6 := by
  unfold charBytes
  split_ifs
  · norm_num
  · norm_num
  · exact (Char.utf8Size_le_four c).trans (by norm_num)

theorem textBytes_le (s : String) : textBytes s ≤ 6 * s.length := by
  have hsum : ∀ cs : List Char, (cs.map charBytes).sum ≤ 6 * cs.length := by
    intro cs
    induction cs with
    | nil => exact le_rfl
    | cons c cs ih =>
      have hc := charBytes_le c
      rw [List.map_cons, List.sum_cons, List.length_cons]
      omega
  rw [← String.length_toList]
  exact hsum s.toList

theorem toNat_lt_of_isFileChar {c : Char} (h : isFileChar c = true) : c.toNat < 128 := by
  unfold isFileChar Char.isAlphanum Char.isAlpha Char.isUpper Char.isLower Char.isDigit at h
  simp only [Bool.or_eq_true, decide_eq_true_eq, Bool.and_eq_true, UInt32.le_iff_toNat_le, ge_iff_le] at h
  show c.val.toNat < 128
  rcases h with ((((⟨-, h⟩ | ⟨-, h⟩) | ⟨-, h⟩) | rfl) | rfl)
  · exact h.trans_lt (by decide)
  · exact h.trans_lt (by decide)
  · exact h.trans_lt (by decide)
  · decide
  · decide

/-- The characters of identifiers are one byte each. -/
theorem charBytes_isFileChar {c : Char} (h : isFileChar c = true) : charBytes c = 1 := by
  have hall : ∀ n < 128, isFileChar (Char.ofNat n) = true → charBytes (Char.ofNat n) = 1 := by decide
  have hc := hall c.toNat (toNat_lt_of_isFileChar h)
  rw [Char.ofNat_toNat] at hc
  exact hc h

theorem textBytes_identifier {s : String} (h : IsIdentifier s) : textBytes s ≤ 64 := by
  have hsum : ∀ cs : List Char, cs.all isFileChar = true → (cs.map charBytes).sum = cs.length := by
    intro cs hcs
    induction cs with
    | nil => rfl
    | cons c cs ih =>
      rw [List.all_cons, Bool.and_eq_true] at hcs
      rw [List.map_cons, List.sum_cons, List.length_cons, charBytes_isFileChar hcs.1, ih hcs.2, add_comm]
  unfold textBytes
  rw [hsum _ h.chars, String.length_toList]
  exact h.length

theorem textBytes_append (s t : String) : textBytes (s ++ t) = textBytes s + textBytes t := by
  unfold textBytes
  rw [String.toList_append, List.map_append, List.sum_append]

/-! ## Values -/

section Bytes

variable {pf : Platform}

/-- The bytes of a value. -/
def bytesOf (pf : Platform) (x : Json) : ℕ := Json.weight pf.tokenBytes x

theorem bytesOf_str (s : String) : bytesOf pf (.str s) = 2 + textBytes s := rfl

theorem bytesOf_identifier {s : String} (h : IsIdentifier s) : bytesOf pf (.str s) ≤ 66 :=
  Nat.add_le_add_left (textBytes_identifier h) 2

theorem bytesOf_int {n : ℤ} (h : isFiniteInt n = true) : bytesOf pf (.int n) ≤ 343 := length_toString_le h

/-- The bytes of an object, of its keys and of its values. -/
theorem bytesOf_obj (fields : List (String × Json)) : bytesOf pf (.obj fields) ≤
    2 + ((fields.map Prod.fst).map fun key => 4 + textBytes key).sum +
      ((fields.map Prod.snd).map (bytesOf pf)).sum := by
  have hfields : Json.weightFields pf.tokenBytes fields + fields.length =
      ((fields.map Prod.fst).map fun key => 4 + textBytes key).sum +
        ((fields.map Prod.snd).map (bytesOf pf)).sum := by
    induction fields with
    | nil => rfl
    | cons p fields ih =>
      have hkey : pf.tokenBytes (.str p.1) = 2 + textBytes p.1 := rfl
      have hcolon : pf.tokenBytes .colon = 1 := rfl
      have hvalue : Json.weight pf.tokenBytes p.2 = bytesOf pf p.2 := rfl
      rw [Json.weightFields, hkey, hcolon, hvalue]
      simp only [List.map_cons, List.sum_cons, List.length_cons]
      omega
  have hobj : bytesOf pf (.obj fields) = 1 + Json.weightFields pf.tokenBytes fields + 1 + (fields.length - 1) * 1 := rfl
  omega

/-- The bytes of a dictionary of items. -/
theorem bytesOf_ofItems (items : List (String × Value)) : bytesOf pf (Value.ofItems items).json ≤
    2 + ((items.map Prod.fst).map fun key => 4 + textBytes key).sum +
      (items.map fun p => bytesOf pf p.2.json).sum := by
  rw [json_ofItems]
  refine (bytesOf_obj _).trans ?_
  rw [keys_items]
  simp only [List.map_map]
  exact le_rfl

theorem bytesOf_ofText {text : Option String} (h : ∀ s, text = some s → IsIdentifier s) :
    bytesOf pf (Value.ofText text).json ≤ 66 := by
  cases text with
  | none => exact (by decide : (4 : ℕ) ≤ 66)
  | some s => exact bytesOf_identifier (h s rfl)

theorem bytesOf_number {value : Value} (h : value = .none ∨ ∃ n, value = .int n ∧ isFiniteInt n = true) :
    bytesOf pf value.json ≤ 343 := by
  rcases h with rfl | ⟨n, rfl, hn⟩
  · exact (by decide : (4 : ℕ) ≤ 343)
  · exact bytesOf_int hn

/-! ## Identities -/

variable {dt : Datetimes}

/-- The keys of an identity of a capture. -/
def captureKeys : List String :=
  ["signal_id", "mint", "route_type", "strategy_family", "signal_detected_at", "source_wallet_hash",
    "source_signature_hash", "trade_id", "event_seq"]

/-- The keys of the identity of an outcome. -/
def outcomeKeys : List String := outcomeIdentityFields ++ ["signal_id"]

theorem captureKeys_bytes : (captureKeys.map fun key => 4 + textBytes key).sum = 148 := by decide

theorem outcomeKeys_bytes : (outcomeKeys.map fun key => 4 + textBytes key).sum = 134 := by decide

/-- The identity of a capture, with a position and a number, is not large. -/
theorem Captured.bytes_identity (hdoc : Documented pf dt) {c : Capture} (h : Captured dt c) {tradeId eventSeq : Value}
    (htrade : tradeId = .none ∨ ∃ id, IsIdentifier id ∧ tradeId = .str id)
    (hnumber : eventSeq = .none ∨ ∃ n, eventSeq = .int n ∧ isFiniteInt n = true) :
    bytesOf pf (Value.ofItems (captureIdentity c ++ [("trade_id", tradeId), ("event_seq", eventSeq)])).json ≤ 2900 := by
  obtain ⟨hroute, hfamily⟩ := routes_identifier h.routed
  rw [← h.family] at hfamily
  obtain ⟨instant, hcalendar, htime⟩ := h.time
  have hsignalBytes : bytesOf pf (.str c.identity.signalId) ≤ 66 := bytesOf_identifier h.signalId
  have hrouteBytes : bytesOf pf (.str c.identity.routeType) ≤ 66 := bytesOf_identifier hroute
  have hfamilyBytes : bytesOf pf (.str c.identity.strategyFamily) ≤ 66 := bytesOf_identifier hfamily
  have hmintBytes : bytesOf pf (.str c.identity.mint) ≤ 1538 := by
    have hmint := textBytes_le c.identity.mint
    have hlength := h.minted.2
    rw [bytesOf_str]
    omega
  have htimeBytes : bytesOf pf (.str c.identity.signalDetectedAt) ≤ 194 := by
    have htext := textBytes_le (dt.isoformat instant)
    have hlength := (hdoc.isoformat instant hcalendar).1
    rw [bytesOf_str, htime]
    omega
  have hwalletBytes : bytesOf pf (Value.ofText c.identity.sourceWalletHash).json ≤ 66 := bytesOf_ofText h.wallet
  have hsignatureBytes : bytesOf pf (Value.ofText c.identity.sourceSignatureHash).json ≤ 66 :=
    bytesOf_ofText h.signature
  have htradeBytes : bytesOf pf tradeId.json ≤ 66 := by
    rcases htrade with rfl | ⟨id, hid, rfl⟩
    · exact (by decide : (4 : ℕ) ≤ 66)
    · exact bytesOf_identifier hid
  have hnumberBytes : bytesOf pf eventSeq.json ≤ 343 := bytesOf_number hnumber
  refine (bytesOf_ofItems _).trans ?_
  have hkeys : ((captureIdentity c ++ [("trade_id", tradeId), ("event_seq", eventSeq)]).map Prod.fst) = captureKeys :=
    rfl
  rw [hkeys, captureKeys_bytes]
  simp only [captureIdentity, List.cons_append, List.nil_append, List.map_cons, List.map_nil, List.sum_cons,
    List.sum_nil, Value.json]
  omega

/-- The identity of an outcome is not large. -/
theorem Submitted.bytes_identity (hdoc : Documented pf dt) {t : Trade} {row : Dict String Value}
    (h : Submitted dt t row) : bytesOf pf (Value.ofItems (outcomeIdentity row)).json ≤ 2900 := by
  obtain ⟨hroute, hfamily⟩ := routes_identifier t.routed
  obtain ⟨-, -, -, -, n, id, last, -, hfinite, hid, hlast, hidentity⟩ := h.identity
  obtain ⟨-, instant, hinstant⟩ := h.signal
  have htradeBytes : bytesOf pf (.str t.position.positionId) ≤ 66 := bytesOf_identifier t.identified
  have hrouteBytes : bytesOf pf (.str t.position.routeType) ≤ 66 := bytesOf_identifier hroute
  have hfamilyBytes : bytesOf pf (.str (strategyFamily t.position.routeType)) ≤ 66 := bytesOf_identifier hfamily
  have hmintBytes : bytesOf pf (.str (cutText t.position.mint)) ≤ 1538 := by
    have hmint := textBytes_le (cutText t.position.mint)
    have hlength := length_cutText t.position.mint
    rw [bytesOf_str]
    omega
  have htimeBytes : bytesOf pf (.str (cutText t.position.signalDetectedAt)) ≤ 263 := by
    have htext := hdoc.parsed _ _ hinstant
    have hlength := length_cutText t.position.signalDetectedAt
    rw [bytesOf_str]
    omega
  have hbuyBytes : bytesOf pf (.int n) ≤ 343 := bytesOf_int hfinite
  have hidBytes : bytesOf pf (.str id) ≤ 66 := bytesOf_identifier hid
  have hlastBytes : bytesOf pf last.json ≤ 343 := bytesOf_number hlast
  have hnullBytes : bytesOf pf .null = 4 := rfl
  refine (bytesOf_ofItems _).trans ?_
  have hkeys : (outcomeIdentity row).map Prod.fst = outcomeKeys := rfl
  rw [hkeys, outcomeKeys_bytes, hidentity]
  simp only [List.map_cons, List.map_nil, List.sum_cons, List.sum_nil, Value.json]
  omega

/-! ## Index entries -/

theorem length_of_isDay {day : String} (h : isDay day = true) : day.length = 10 := by
  unfold isDay at h
  split at h
  · rename_i y₁ y₂ y₃ y₄ m₁ m₂ d₁ d₂ heq
    rw [← String.length_toList, heq]
    rfl
  · cases h

theorem bytes_relativePath {day key : String} (hday : isDay day = true) (hkey : IsIdentifier key) :
    textBytes (relativePath day key) ≤ 130 := by
  have hdayBytes := textBytes_le day
  have hkeyBytes := textBytes_identifier hkey
  have hslash : textBytes "/" = 1 := by decide
  have hsuffix : textBytes ".json" = 5 := by decide
  rw [length_of_isDay hday] at hdayBytes
  unfold relativePath
  rw [textBytes_append, textBytes_append, textBytes_append, hslash, hsuffix]
  omega

/-- The bytes of the file of a document. -/
theorem fileBytes_sealed {document : JsonDocument} {hash : String} (h : pf.digest document = some hash) :
    pf.fileBytes (fileOf (sealed document hash)) = bytesOf pf (.ofFields (sealed document hash)) + pf.newlineBytes := by
  have hcomplete : (Json.print (.ofFields (sealed document hash))).2 = true := by
    rw [Json.print_complete]
    exact sealed_complete h hash
  show Json.length pf.tokenBytes (Json.print (.ofFields (sealed document hash))).1 + _ = _
  rw [Json.length_print _ _ hcomplete]
  rfl

/-- The items of an index entry. -/
def reservationItems (kind : RowKind) (document : JsonDocument) (path hash hash' : String) : List (String × Json) :=
  [("index_schema_version", .int 1), ("telemetry_epoch_id", document.field "telemetry_epoch_id"),
    ("stream", .str kind.stream), ("identity", document.field "identity"), ("record_relative_path", .str path),
    ("record_content_hash", .str hash), ("content_hash", .str hash')]

theorem entries_reservation (kind : RowKind) (document : JsonDocument) (path hash hash' : String) :
    (sealed (reservation kind document path hash) hash').entries = reservationItems kind document path hash hash' := by
  have hentries : (reservation kind document path hash).entries =
      (reservationItems kind document path hash hash').take 6 := by
    refine congrArg Dict.entries (Dict.ofList_entries ⟨(reservationItems kind document path hash hash').take 6, ?_⟩)
    show (reservationFields ++ ["record_content_hash"]).Nodup
    decide
  unfold sealed
  rw [Dict.entries_set_of_none (reservation_unsealed document path hash), hentries]
  rfl

/-- The index entry of a row is within its bound. -/
theorem fileBytes_reservation (hdoc : Documented pf dt) {e : Epoch} {kind : RowKind} {document : JsonDocument}
    {identity : List (String × Value)} {path hash hash' : String} (hrow : IsRow e kind identity document)
    (hidentity : bytesOf pf (Value.ofItems identity).json ≤ 2900) (hpath : textBytes path ≤ 130)
    (hhash : IsIdentifier hash) (hhash' : pf.digest (reservation kind document path hash) = some hash') :
    pf.fileBytes (fileOf (sealed (reservation kind document path hash) hash')) ≤ maxIndexBytes := by
  have hepochBytes : bytesOf pf (.str e.telemetryEpochId) ≤ 66 := bytesOf_identifier e.named
  have hhashBytes : bytesOf pf (.str hash) ≤ 66 := bytesOf_identifier hhash
  have hsealBytes : bytesOf pf (.str hash') ≤ 66 := bytesOf_identifier (digest_identifier hdoc hhash')
  have hpathBytes : bytesOf pf (.str path) ≤ 132 := by
    rw [bytesOf_str]
    omega
  have hstreamBytes : bytesOf pf (.str kind.stream) ≤ 12 := by
    rw [bytesOf_str]
    cases kind <;> decide
  have honeBytes : bytesOf pf (.int 1) = 1 := rfl
  have hnewline := hdoc.newline
  have hkeys : (((reservationItems kind document path hash hash').map Prod.fst).map fun key => 4 + textBytes key).sum =
      131 := by
    show ((reservationFields ++ ["record_content_hash", "content_hash"]).map fun key => 4 + textBytes key).sum = 131
    decide
  have hobj : bytesOf pf (.obj (reservationItems kind document path hash hash')) ≤ _ := bytesOf_obj _
  rw [hkeys] at hobj
  simp only [reservationItems, List.map_cons, List.map_nil, List.sum_cons, List.sum_nil, hrow.epoch,
    Dict.field_of_get? hrow.identity] at hobj
  rw [fileBytes_sealed hhash', Json.ofFields, entries_reservation]
  unfold maxIndexBytes reservationItems
  rw [hrow.epoch, Dict.field_of_get? hrow.identity]
  omega

end Bytes

end Aibot.Telemetry
