/-
Texts as their UTF-8 bytes, and lists split at a separator: decoding is the inverse of encoding, an ASCII
byte stands for its character and for nothing else, so that splitting the bytes at it splits the text, and
terminated fields are what splitting at the terminator gives.
-/
import Mathlib.Tactic

namespace Aibot

/-! ## Bytes of a text -/

/-- The bytes of a text. -/
def utf8 (text : String) : List UInt8 := text.toList.flatMap String.utf8EncodeChar

/-- The text of some bytes; none where they are not UTF-8. -/
def decodeUtf8 (bytes : List UInt8) : Option String := String.fromUTF8? bytes.toByteArray

theorem toByteArray_utf8 (text : String) : (utf8 text).toByteArray = text.toByteArray :=
  String.utf8Encode_toList

theorem decodeUtf8_eq_some_iff {bytes : List UInt8} {text : String} :
    decodeUtf8 bytes = some text ↔ utf8 text = bytes := by
  unfold decodeUtf8 String.fromUTF8?
  rw [← List.toByteArray_inj, toByteArray_utf8]
  constructor
  · intro h
    split_ifs at h with hvalid
    rw [← Option.some.inj h]
    rfl
  · intro h
    have hvalid : bytes.toByteArray.IsValidUTF8 := h ▸ text.isValidUTF8
    rw [dif_pos hvalid]
    exact congrArg some (String.toByteArray_inj.1 h.symm)

theorem utf8_injective {s t : String} (h : utf8 s = utf8 t) : s = t :=
  Option.some.inj ((decodeUtf8_eq_some_iff.2 h).symm.trans (decodeUtf8_eq_some_iff.2 rfl))

theorem utf8_ofList (cs : List Char) : utf8 (String.ofList cs) = cs.flatMap String.utf8EncodeChar := by
  rw [utf8, String.toList_ofList]

/-- The bytes of a character: itself, or bytes that are not ASCII. -/
theorem utf8EncodeChar_cases (c : Char) :
    String.utf8EncodeChar c = [UInt8.ofNat c.toNat] ∧ c.toNat < 128 ∨
      128 ≤ c.toNat ∧ ∀ b ∈ String.utf8EncodeChar c, 128 ≤ b.toNat := by
  have hval : c.val.toNat = c.toNat := rfl
  unfold String.utf8EncodeChar
  simp only [hval]
  split_ifs with h
  · exact Or.inl ⟨rfl, by omega⟩
  all_goals
    refine Or.inr ⟨by omega, fun b hb => ?_⟩
    simp only [List.mem_cons, List.not_mem_nil, or_false] at hb
    rcases hb with rfl | rfl | rfl | rfl
  all_goals
    rw [UInt8.toNat_ofNat']
    omega

/-! ## Splitting at a separator -/

section Separated

variable {α β : Type*} [BEq α] [LawfulBEq α] [BEq β] [LawfulBEq β]

theorem splitOn_append_of_not_mem {a : α} {part : List α} (h : a ∉ part) (rest : List α) :
    (part ++ rest).splitOn a = (rest.splitOn a).modifyHead (part ++ ·) := by
  induction part with
  | nil =>
    rw [List.nil_append]
    cases rest.splitOn a <;> rfl
  | cons x part ih =>
    obtain ⟨hx, hpart⟩ := not_or.1 (List.mem_cons.not.1 h)
    rw [List.cons_append, List.splitOn_cons_eq_if_modifyHead, if_neg (by simpa using Ne.symm hx), ih hpart]
    cases rest.splitOn a <;> rfl

theorem not_mem_of_mem_splitOn {a : α} {l part : List α} (h : part ∈ l.splitOn a) : a ∉ part := by
  induction l generalizing part with
  | nil =>
    rw [List.splitOn_nil, List.mem_singleton] at h
    simp [h]
  | cons x l ih =>
    rw [List.splitOn_cons_eq_if_modifyHead] at h
    split_ifs at h with hx
    · rcases List.mem_cons.1 h with rfl | h
      · exact List.not_mem_nil
      · exact ih h
    · obtain ⟨head, tail, hsplit⟩ := List.exists_cons_of_ne_nil (List.splitOn_ne_nil a l)
      rw [hsplit] at h ih
      rcases List.mem_cons.1 h with rfl | h
      · rintro hmem
        rcases List.mem_cons.1 hmem with rfl | hmem
        · exact hx (beq_self_eq_true a)
        · exact ih List.mem_cons_self hmem
      · exact ih (List.mem_cons_of_mem _ h)

/-- An item whose code is one item, which no other code has, separates the codes as it separates the list. -/
theorem splitOn_flatMap {f : α → List β} {a : α} {b : β} (ha : f a = [b]) (hother : ∀ x, x ≠ a → b ∉ f x)
    (l : List α) : (l.flatMap f).splitOn b = (l.splitOn a).map (·.flatMap f) := by
  induction l with
  | nil => simp
  | cons x l ih =>
    rw [List.flatMap_cons, List.splitOn_cons_eq_if_modifyHead]
    by_cases hx : x = a
    · rw [hx, ha, List.singleton_append, List.splitOn_cons_eq_if_modifyHead, if_pos (beq_self_eq_true b),
        if_pos (beq_self_eq_true a), ih]
      rfl
    · rw [if_neg (by simpa using hx), splitOn_append_of_not_mem (hother x hx), ih]
      cases l.splitOn a <;> rfl

end Separated

/-- The bytes of a text are separated at an ASCII character as the text is. -/
theorem splitOn_utf8 {c : Char} (hc : c.toNat < 128) (cs : List Char) :
    (cs.flatMap String.utf8EncodeChar).splitOn (UInt8.ofNat c.toNat) =
      (cs.splitOn c).map (·.flatMap String.utf8EncodeChar) := by
  apply splitOn_flatMap
  · rcases utf8EncodeChar_cases c with ⟨hencode, -⟩ | ⟨hlarge, -⟩
    · exact hencode
    · omega
  · intro d hd hmem
    have hbyte : (UInt8.ofNat c.toNat).toNat = c.toNat := by
      rw [UInt8.toNat_ofNat']
      omega
    rcases utf8EncodeChar_cases d with ⟨hencode, hsmall⟩ | ⟨-, hlarge⟩
    · rw [hencode, List.mem_singleton] at hmem
      have hnat := congrArg UInt8.toNat hmem
      rw [hbyte, UInt8.toNat_ofNat', Nat.mod_eq_of_lt (by omega)] at hnat
      exact hd (Char.toNat_inj.1 hnat.symm)
    · have := hlarge _ hmem
      omega

/-! ## Terminated fields -/

theorem intercalate_concat_nil {α : Type*} {z : α} (fields : List (List α)) :
    [z].intercalate (fields ++ [[]]) = fields.flatMap (· ++ [z]) := by
  induction fields with
  | nil => simp
  | cons field fields ih =>
    rw [List.cons_append, List.intercalate_cons_of_ne_nil (by simp), ih, List.flatMap_cons, List.append_assoc]

section Terminated

variable {α : Type*} [BEq α] [LawfulBEq α] {z : α}

theorem splitOn_terminated {fields : List (List α)} (h : ∀ field ∈ fields, z ∉ field) :
    (fields.flatMap (· ++ [z])).splitOn z = fields ++ [[]] := by
  induction fields with
  | nil => simp
  | cons field fields ih =>
    rw [List.flatMap_cons, List.append_assoc, List.singleton_append,
      List.splitOn_append_cons_self_of_not_mem (h field (by simp)), ih fun f hf => h f (List.mem_cons_of_mem _ hf)]
    rfl

/-- What ends with the terminator is the concatenation of its fields, and none of these has it. -/
theorem eq_terminated_of_splitOn {l : List α} {fields : List (List α)} (h : l.splitOn z = fields ++ [[]]) :
    l = fields.flatMap (· ++ [z]) ∧ ∀ field ∈ fields, z ∉ field := by
  constructor
  · rw [← intercalate_concat_nil, ← h, List.intercalate_splitOn]
  · intro field hfield
    apply not_mem_of_mem_splitOn (l := l)
    rw [h]
    exact List.mem_append_left _ hfield

end Terminated

end Aibot
