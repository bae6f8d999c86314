/-
The texts of JSON values: the grammar without white space, the text of every token, and that what is printed to
its end is in the grammar. How a float is written is given.
-/
import Aibot.Lib.Json
import Mathlib.Data.Nat.Digits.Lemmas
import Mathlib.Tactic

namespace Aibot.Json

/-! ## The grammar -/

namespace Text

def IsDigits (cs : List Char) : Prop := cs ≠ [] ∧ ∀ c ∈ cs, c.isDigit = true

/-- Digits that do not begin with a zero, or a zero. -/
def IsWhole (cs : List Char) : Prop := cs = ['0'] ∨ IsDigits cs ∧ cs.head? ≠ some '0'

def IsFraction (cs : List Char) : Prop := cs = [] ∨ ∃ digits, cs = '.' :: digits ∧ IsDigits digits

def IsExponent (cs : List Char) : Prop :=
  cs = [] ∨ ∃ e sign digits, cs = e :: (sign ++ digits) ∧ (e = 'e' ∨ e = 'E') ∧
    (sign = [] ∨ sign = ['+'] ∨ sign = ['-']) ∧ IsDigits digits

def IsNumber (cs : List Char) : Prop :=
  ∃ sign whole fraction exponent, cs = sign ++ whole ++ fraction ++ exponent ∧ (sign = [] ∨ sign = ['-']) ∧
    IsWhole whole ∧ IsFraction fraction ∧ IsExponent exponent

def isHex (c : Char) : Bool := c.isDigit || ('a' ≤ c && c ≤ 'f') || ('A' ≤ c && c ≤ 'F')

/-- What stands between the quotes. -/
inductive IsChars : List Char → Prop
  | nil : IsChars []
  | plain {c : Char} {cs : List Char} (hc : ' ' ≤ c ∧ c ≠ '\x22' ∧ c ≠ '\x5c') (h : IsChars cs) : IsChars (c :: cs)
  | short {c : Char} {cs : List Char} (hc : c ∈ ['\x22', '\x5c', '/', 'b', 'f', 'n', 'r', 't']) (h : IsChars cs) :
    IsChars ('\x5c' :: c :: cs)
  | unicode {a b c d : Char} {cs : List Char} (hex : isHex a ∧ isHex b ∧ isHex c ∧ isHex d) (h : IsChars cs) :
    IsChars ('\x5c' :: 'u' :: a :: b :: c :: d :: cs)

def IsString (cs : List Char) : Prop := ∃ inner, IsChars inner ∧ cs = '\x22' :: (inner ++ ['\x22'])

mutual

inductive IsValue : List Char → Prop
  | null : IsValue ['n', 'u', 'l', 'l']
  | true : IsValue ['t', 'r', 'u', 'e']
  | false : IsValue ['f', 'a', 'l', 's', 'e']
  | number {cs : List Char} (h : IsNumber cs) : IsValue cs
  | string {cs : List Char} (h : IsString cs) : IsValue cs
  | emptyArray : IsValue ['[', ']']
  | array {cs : List Char} (h : IsItems cs) : IsValue ('[' :: (cs ++ [']']))
  | emptyObject : IsValue ['\x7b', '\x7d']
  | object {cs : List Char} (h : IsMembers cs) : IsValue ('\x7b' :: (cs ++ ['\x7d']))

inductive IsItems : List Char → Prop
  | one {cs : List Char} (h : IsValue cs) : IsItems cs
  | more {cs ds : List Char} (h : IsValue cs) (hs : IsItems ds) : IsItems (cs ++ ',' :: ds)

inductive IsMembers : List Char → Prop
  | one {ks cs : List Char} (hk : IsString ks) (h : IsValue cs) : IsMembers (ks ++ ':' :: cs)
  | more {ks cs ds : List Char} (hk : IsString ks) (h : IsValue cs) (hs : IsMembers ds) :
    IsMembers (ks ++ ':' :: (cs ++ ',' :: ds))

end

/-- A value and white space after it. -/
def IsDocument (cs : List Char) : Prop :=
  ∃ value space, IsValue value ∧ (∀ c ∈ space, c ∈ [' ', '\n', '\r', '\t']) ∧ cs = value ++ space

end Text

/-! ## The text of a value -/

/-- How floats are written. -/
structure Floats where
  repr : ℚ → List Char
  number : ∀ q, Text.IsNumber (repr q)

namespace Text

/-- Four hexadecimal digits. -/
def hex4 (n : Nat) : List Char :=
  [Nat.digitChar (n / 4096 % 16), Nat.digitChar (n / 256 % 16), Nat.digitChar (n / 16 % 16), Nat.digitChar (n % 16)]

/-- The escape of a character that has a short one. -/
def shortEscape (c : Char) : Option Char :=
  if c = '\x22' then some '\x22'
  else if c = '\x5c' then some '\x5c'
  else if c = '\n' then some 'n'
  else if c = '\r' then some 'r'
  else if c = '\t' then some 't'
  else if c.toNat = 12 then some 'f'
  else if c.toNat = 8 then some 'b'
  else none

/-- A character in ASCII. -/
def escape (c : Char) : List Char :=
  match shortEscape c with
  | some e => ['\x5c', e]
  | none =>
    if ' ' ≤ c ∧ c ≤ '~' then [c]
    else if c.toNat < 65536 then '\x5c' :: 'u' :: hex4 c.toNat
    else
      '\x5c' :: 'u' :: hex4 (55296 + (c.toNat - 65536) / 1024) ++
        '\x5c' :: 'u' :: hex4 (56320 + (c.toNat - 65536) % 1024)

def ofString (s : String) : List Char := '\x22' :: (s.toList.flatMap escape ++ ['\x22'])

def ofNat (n : Nat) : List Char := if n = 0 then ['0'] else (Nat.digits 10 n).reverse.map Nat.digitChar

def ofInt (n : ℤ) : List Char := (if n < 0 then ['-'] else []) ++ ofNat n.natAbs

def ofToken (floats : Floats) : Token → List Char
  | .null => ['n', 'u', 'l', 'l']
  | .bool true => ['t', 'r', 'u', 'e']
  | .bool false => ['f', 'a', 'l', 's', 'e']
  | .int n => ofInt n
  | .float q => floats.repr q
  | .str s => ofString s
  | .openArr => ['[']
  | .closeArr => [']']
  | .openObj => ['\x7b']
  | .closeObj => ['\x7d']
  | .comma => [',']
  | .colon => [':']

/-- The text of some tokens. -/
def ofTokens (floats : Floats) (tokens : List Token) : List Char := tokens.flatMap (ofToken floats)

/-! ## Tokens -/

theorem isChars_append {cs ds : List Char} (h : IsChars cs) (hds : IsChars ds) : IsChars (cs ++ ds) := by
  induction h with
  | nil => exact hds
  | plain hc _ ih => exact .plain hc ih
  | short hc _ ih => exact .short hc ih
  | unicode hex _ ih => exact .unicode hex ih

theorem isHex_digitChar (n : Nat) : isHex (Nat.digitChar (n % 16)) = true := by
  have hall : ∀ k < 16, isHex (Nat.digitChar k) = true := by decide
  exact hall _ (Nat.mod_lt _ (by norm_num))

theorem isChars_hex4 (n : Nat) : IsChars ('\x5c' :: 'u' :: hex4 n) :=
  .unicode ⟨isHex_digitChar _, isHex_digitChar _, isHex_digitChar _, isHex_digitChar _⟩ .nil

theorem isChars_escape (c : Char) : IsChars (escape c) := by
  unfold escape
  cases hshort : shortEscape c with
  | some e =>
    have hmem : e ∈ ['\x22', '\x5c', '/', 'b', 'f', 'n', 'r', 't'] := by
      unfold shortEscape at hshort
      split_ifs at hshort <;> cases hshort <;> decide
    exact .short hmem .nil
  | none =>
    simp only
    split_ifs with hplain hsmall
    · have hquote : c ≠ '\x22' ∧ c ≠ '\x5c' := by
        unfold shortEscape at hshort
        split_ifs at hshort with hquote hback
        exact ⟨hquote, hback⟩
      exact .plain ⟨hplain.1, hquote⟩ .nil
    · exact isChars_hex4 _
    · exact isChars_append (isChars_hex4 _) (isChars_hex4 _)

theorem isString_ofString (s : String) : IsString (ofString s) := by
  refine ⟨_, ?_, rfl⟩
  induction s.toList with
  | nil => exact .nil
  | cons c cs ih =>
    rw [List.flatMap_cons]
    exact isChars_append (isChars_escape c) ih

theorem isWhole_ofNat (n : Nat) : IsWhole (ofNat n) := by
  unfold ofNat
  split_ifs with hzero
  · exact Or.inl rfl
  · right
    have hdigit : ∀ d < 10, (Nat.digitChar d).isDigit = true := by decide
    have hnonzero : ∀ d < 10, d ≠ 0 → Nat.digitChar d ≠ '0' := by decide
    have hne : Nat.digits 10 n ≠ [] := Nat.digits_ne_nil_iff_ne_zero.2 hzero
    refine ⟨⟨by simpa using hne, ?_⟩, ?_⟩
    · intro c hc
      obtain ⟨d, hd, rfl⟩ := List.mem_map.1 hc
      exact hdigit d (Nat.digits_lt_base (by norm_num) (List.mem_reverse.1 hd))
    · -- the first digit is the last one of the expansion
      rw [List.head?_map, List.head?_reverse, List.getLast?_eq_some_getLast hne, Option.map_some, ne_eq,
        Option.some.injEq]
      exact hnonzero _ (Nat.digits_lt_base (by norm_num) (List.getLast_mem hne)) (Nat.getLast_digit_ne_zero 10 hzero)

theorem isNumber_ofInt (n : ℤ) : IsNumber (ofInt n) := by
  refine ⟨if n < 0 then ['-'] else [], ofNat n.natAbs, [], [], ?_, ?_, isWhole_ofNat _, Or.inl rfl, Or.inl rfl⟩
  · rw [List.append_nil, List.append_nil]
    rfl
  · split_ifs
    · exact Or.inr rfl
    · exact Or.inl rfl

/-! ## Values -/

section Values

variable (floats : Floats)

theorem ofTokens_append (a b : List Token) : ofTokens floats (a ++ b) = ofTokens floats a ++ ofTokens floats b :=
  List.flatMap_append

theorem ofTokens_seq {a b : List Token × Bool} (h : (seq a b).2 = true) :
    ofTokens floats (seq a b).1 = ofTokens floats a.1 ++ ofTokens floats b.1 := by
  rw [(seq_true h).2.2, ofTokens_append]

theorem ofTokens_singleton (t : Token) : ofTokens floats [t] = ofToken floats t := List.flatMap_singleton ..

mutual

/-- What is printed to its end is in the grammar. -/
theorem isValue_print : ∀ x : Json, (print x).2 = true → IsValue (ofTokens floats (print x).1)
  | .null, _ => .null
  | .bool true, _ => .true
  | .bool false, _ => .false
  | .int n, _ => by
    rw [print, ofTokens_singleton]
    exact .number (isNumber_ofInt n)
  | .float q, _ => by
    rw [print, ofTokens_singleton]
    exact .number (floats.number q)
  | .str s, _ => by
    rw [print, ofTokens_singleton]
    exact .string (isString_ofString s)
  | .arr [], _ => .emptyArray
  | .obj [], _ => .emptyObject
  | .arr (x :: items), h => by
    rw [print] at h ⊢
    obtain ⟨-, hrest, -⟩ := seq_true h
    obtain ⟨hx, hitems, -⟩ := seq_true hrest
    obtain ⟨cs, hcs, htext⟩ := isItems_print items hitems (isValue_print x hx)
    rw [ofTokens_seq floats h, ofTokens_seq floats hrest, htext]
    exact .array hcs
  | .obj ((k, x) :: fields), h => by
    rw [print] at h ⊢
    obtain ⟨-, hrest, -⟩ := seq_true h
    obtain ⟨hx, hfields, -⟩ := seq_true hrest
    obtain ⟨cs, hcs, htext⟩ := isMembers_print fields hfields (isString_ofString k) (isValue_print x hx)
    have hopen : ofTokens floats [.openObj, .str k, .colon] = '\x7b' :: (ofString k ++ [':']) := by
      simp [ofTokens, ofToken]
    have hkey : ofString k ++ [':'] ++ (ofTokens floats (print x).1 ++ ofTokens floats (printFields fields).1) =
        cs ++ ['\x7d'] := by
      rw [← htext]
      simp
    rw [ofTokens_seq floats h, ofTokens_seq floats hrest, hopen, List.cons_append, hkey]
    exact .object hcs
  | .other, h => by simp [print] at h

/-- The items after the first one, with it. -/
theorem isItems_print : ∀ (items : List Json) {cs : List Char}, (printItems items).2 = true → IsValue cs →
    ∃ ds, IsItems ds ∧ cs ++ ofTokens floats (printItems items).1 = ds ++ [']']
  | [], cs, _, hcs => ⟨cs, .one hcs, rfl⟩
  | x :: items, cs, h, hcs => by
    rw [printItems] at h ⊢
    obtain ⟨-, hrest, -⟩ := seq_true h
    obtain ⟨hx, hitems, -⟩ := seq_true hrest
    obtain ⟨ds, hds, htext⟩ := isItems_print items hitems (isValue_print x hx)
    refine ⟨cs ++ ',' :: ds, .more hcs hds, ?_⟩
    rw [ofTokens_seq floats h, ofTokens_seq floats hrest, htext]
    simp [ofTokens, ofToken]

theorem isMembers_print : ∀ (fields : List (String × Json)) {ks cs : List Char}, (printFields fields).2 = true →
    IsString ks → IsValue cs →
      ∃ ds, IsMembers ds ∧ ks ++ ':' :: cs ++ ofTokens floats (printFields fields).1 = ds ++ ['\x7d']
  | [], ks, cs, _, hks, hcs => ⟨ks ++ ':' :: cs, .one hks hcs, rfl⟩
  | (k, x) :: fields, ks, cs, h, hks, hcs => by
    rw [printFields] at h ⊢
    obtain ⟨-, hrest, -⟩ := seq_true h
    obtain ⟨hx, hfields, -⟩ := seq_true hrest
    obtain ⟨ds, hds, htext⟩ := isMembers_print fields hfields (isString_ofString k) (isValue_print x hx)
    refine ⟨ks ++ ':' :: (cs ++ ',' :: ds), .more hks hcs hds, ?_⟩
    have hcomma : ofTokens floats [.comma, .str k, .colon] = ',' :: (ofString k ++ [':']) := by
      simp [ofTokens, ofToken]
    have hkey : ofString k ++ ':' :: (ofTokens floats (print x).1 ++ ofTokens floats (printFields fields).1) =
        ds ++ ['\x7d'] := by
      rw [← htext]
      simp
    rw [ofTokens_seq floats h, ofTokens_seq floats hrest, hcomma]
    simp [← hkey]

end

end Values

end Text

end Aibot.Json
