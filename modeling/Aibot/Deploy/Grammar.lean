/-
What the reader of git's output accepts, over the bytes: the concatenations of well-formed records whose
paths are UTF-8. A diff that does not deploy touches the retention tool and known non-runtime paths only.
-/
import Aibot.Deploy.Trigger
import Aibot.Lib.Object

namespace Aibot.Deploy

/-! ## Records -/

/-- A record of the output: a status and its paths. -/
structure Record where
  status : List UInt8
  paths : List (List UInt8)

namespace Record

def fields (r : Record) : List (List UInt8) := r.status :: r.paths

/-- The record with every field terminated. -/
def encode (r : Record) : List UInt8 := r.fields.flatMap (· ++ [0])

end Record

/-- A known status with one path. -/
def OnePath (status : List UInt8) : Prop := status ∈ KNOWN_SINGLE_PATH_STATUSES.map utf8

/-- `R` or `C` with digits. -/
def TwoPaths (status : List UInt8) : Prop :=
  ∃ letter score, status = letter :: score ∧ (letter = 82 ∨ letter = 67) ∧ score ≠ [] ∧
    ∀ digit ∈ score, 48 ≤ digit ∧ digit ≤ 57

/-- The record has as many paths as its status says. -/
def Record.Counted (r : Record) : Prop :=
  OnePath r.status ∧ r.paths.length = 1 ∨ TwoPaths r.status ∧ r.paths.length = 2

/-- The path is not empty, relative and without a `..` component. -/
structure ValidPath (path : List UInt8) : Prop where
  nonempty : path ≠ []
  relative : path.head? ≠ some 47
  inside : [46, 46] ∉ path.splitOn 47

structure Record.WellFormed (r : Record) : Prop where
  counted : r.Counted
  valid : ∀ path ∈ r.paths, ValidPath path
  terminated : ∀ path ∈ r.paths, 0 ∉ path

/-! ## Paths -/

theorem head?_utf8 (cs : List Char) :
    (cs.flatMap String.utf8EncodeChar).head? = some 47 ↔ cs.head? = some '/' := by
  cases cs with
  | nil => simp
  | cons c cs =>
    rw [List.flatMap_cons, List.head?_cons]
    rcases utf8EncodeChar_cases c with ⟨hencode, hsmall⟩ | ⟨hlarge, hbytes⟩
    · rw [hencode, List.singleton_append, List.head?_cons, Option.some.injEq, Option.some.injEq]
      constructor
      · intro h
        have hnat := congrArg UInt8.toNat h
        rw [UInt8.toNat_ofNat', Nat.mod_eq_of_lt (by omega)] at hnat
        exact Char.toNat_inj.1 hnat
      · rintro rfl
        rfl
    · constructor
      · intro h
        have hmem : (47 : UInt8) ∈ String.utf8EncodeChar c := by
          obtain ⟨b, rest, hsplit⟩ := List.exists_cons_of_ne_nil (String.utf8EncodeChar_ne_nil (c := c))
          rw [hsplit] at h ⊢
          rw [← Option.some.inj h]
          exact List.mem_cons_self
        exact absurd (hbytes _ hmem) (by decide)
      · intro h
        rw [Option.some.inj h] at hlarge
        exact absurd hlarge (by decide)

theorem flatMap_utf8EncodeChar_injective {cs ds : List Char}
    (h : cs.flatMap String.utf8EncodeChar = ds.flatMap String.utf8EncodeChar) : cs = ds := by
  rw [← utf8_ofList, ← utf8_ofList] at h
  exact String.ofList_injective (utf8_injective h)

/-- A text has a `..` component where its bytes do. -/
theorem mem_parts_iff (path : String) : ".." ∈ parts path ↔ [46, 46] ∈ (utf8 path).splitOn 47 := by
  have hsplit : (utf8 path).splitOn 47 = (path.toList.splitOn '/').map (·.flatMap String.utf8EncodeChar) :=
    splitOn_utf8 (c := '/') (by decide) path.toList
  have hdots : ['.', '.'].flatMap String.utf8EncodeChar = [46, 46] := by decide
  rw [hsplit, ← hdots]
  unfold parts
  constructor
  · intro h
    rcases List.mem_append.1 h with h | h
    · split_ifs at h
      · rw [List.mem_singleton] at h
        exact absurd h (by decide)
      · exact absurd h List.not_mem_nil
    · obtain ⟨part, hpart, heq⟩ := List.mem_map.1 h
      have hchars : part = ['.', '.'] := by
        rw [← String.toList_ofList (l := part), heq]
        decide
      rw [hchars] at hpart
      exact List.mem_map.2 ⟨_, (List.mem_filter.1 hpart).1, rfl⟩
  · intro h
    obtain ⟨part, hpart, heq⟩ := List.mem_map.1 h
    rw [flatMap_utf8EncodeChar_injective heq] at hpart
    refine List.mem_append_right _ (List.mem_map.2 ⟨['.', '.'], ?_, rfl⟩)
    exact List.mem_filter.2 ⟨hpart, by decide⟩

theorem utf8_eq_nil_iff (path : String) : utf8 path = [] ↔ path = "" := by
  constructor
  · intro h
    exact utf8_injective h
  · rintro rfl
    rfl

/-- A path is read as the text of its bytes, if it is valid. -/
theorem readPath_eq_ok_iff {rawPath : List UInt8} {path : String} :
    readPath rawPath = .ok path ↔ utf8 path = rawPath ∧ ValidPath rawPath := by
  unfold readPath
  cases hdecode : decodeUtf8 rawPath with
  | none =>
    simp only [reduceCtorEq, false_iff]
    rintro ⟨htext, -⟩
    rw [decodeUtf8_eq_some_iff.2 htext] at hdecode
    cases hdecode
  | some text =>
    have htext : utf8 text = rawPath := decodeUtf8_eq_some_iff.1 hdecode
    have hvalid : ValidPath rawPath ↔
        ¬ (text = "" ∨ text.toList.head? = some '/' ∨ ".." ∈ parts text) := by
      rw [← htext, ← utf8_eq_nil_iff, ← head?_utf8, mem_parts_iff, not_or, not_or]
      exact ⟨fun h => ⟨h.nonempty, h.relative, h.inside⟩, fun h => ⟨h.1, h.2.1, h.2.2⟩⟩
    rw [hvalid]
    simp only
    split_ifs with hbad
    · simp [hbad]
    · rw [Except.ok.injEq]
      constructor
      · rintro rfl
        exact ⟨htext, hbad⟩
      · rintro ⟨hpath, -⟩
        exact utf8_injective (htext.trans hpath.symm)

theorem mapM_readPath_eq_ok_iff {rawPaths : List (List UInt8)} {paths : List String} :
    rawPaths.mapM readPath = .ok paths ↔ rawPaths = paths.map utf8 ∧ ∀ rawPath ∈ rawPaths, ValidPath rawPath := by
  rw [mapM_ok_iff]
  simp only [readPath_eq_ok_iff]
  constructor
  · intro h
    induction h with
    | nil => exact ⟨rfl, fun _ h => absurd h List.not_mem_nil⟩
    | cons hpath _ ih =>
      obtain ⟨htexts, hvalids⟩ := ih
      exact ⟨by rw [List.map_cons, hpath.1, htexts], List.forall_mem_cons.2 ⟨hpath.2, hvalids⟩⟩
  · rintro ⟨rfl, hvalid⟩
    rw [List.forall₂_map_left_iff, List.forall₂_same]
    exact fun path hpath => ⟨rfl, hvalid _ (List.mem_map_of_mem hpath)⟩

/-! ## Statuses -/

/-- The character of an ASCII byte. -/
theorem toNat_ofNat_of_ascii {b : UInt8} (h : b.toNat < 128) : (Char.ofNat b.toNat).toNat = b.toNat := by
  unfold Char.ofNat
  rw [dif_pos (Or.inl (by omega))]
  rfl

theorem utf8_ascii {bytes : List UInt8} (h : ∀ b ∈ bytes, b.toNat < 128) :
    utf8 (String.ofList (bytes.map fun b => Char.ofNat b.toNat)) = bytes := by
  rw [utf8_ofList]
  induction bytes with
  | nil => rfl
  | cons b bytes ih =>
    have hb := h b (by simp)
    have hchar := toNat_ofNat_of_ascii hb
    rw [List.map_cons, List.flatMap_cons, ih fun b' hb' => h b' (List.mem_cons_of_mem _ hb')]
    rcases utf8EncodeChar_cases (Char.ofNat b.toNat) with ⟨hencode, -⟩ | ⟨hlarge, -⟩
    · rw [hencode, hchar, UInt8.ofNat_toNat]
      rfl
    · omega

theorem ascii_of_onePath {status : List UInt8} (h : OnePath status) : ∀ b ∈ status, b.toNat < 128 := by
  have hall : ∀ known ∈ KNOWN_SINGLE_PATH_STATUSES.map utf8, ∀ b ∈ known, b.toNat < 128 := by decide +kernel
  exact hall status h

theorem ascii_of_twoPaths {status : List UInt8} (h : TwoPaths status) : ∀ b ∈ status, b.toNat < 128 := by
  obtain ⟨letter, score, rfl, hletter, -, hdigits⟩ := h
  intro b hb
  rcases List.mem_cons.1 hb with rfl | hb
  · rcases hletter with rfl | rfl <;> decide
  · have hle := UInt8.le_iff_toNat_le.1 (hdigits b hb).2
    have hnine : (57 : UInt8).toNat = 57 := rfl
    omega

theorem ofNat_eq_iff {b : UInt8} (h : b.toNat < 128) (c : UInt8) (hc : c.toNat < 128) :
    Char.ofNat b.toNat = Char.ofNat c.toNat ↔ b = c := by
  constructor
  · intro heq
    have hnat := congrArg Char.toNat heq
    rw [toNat_ofNat_of_ascii h, toNat_ofNat_of_ascii hc] at hnat
    exact UInt8.toNat_inj.1 hnat
  · rintro rfl
    rfl

theorem isDigit_ofNat_iff {b : UInt8} (h : b.toNat < 128) :
    (Char.ofNat b.toNat).isDigit = true ↔ 48 ≤ b ∧ b ≤ 57 := by
  have hnat := toNat_ofNat_of_ascii h
  have hval : (Char.ofNat b.toNat).val.toNat = b.toNat := hnat
  have hzero : (48 : UInt8).toNat = 48 := rfl
  have hnine : (57 : UInt8).toNat = 57 := rfl
  unfold Char.isDigit
  simp [UInt32.le_iff_toNat_le, UInt8.le_iff_toNat_le, hval, hzero, hnine]

theorem all_isDigit_iff {score : List UInt8} (h : ∀ b ∈ score, b.toNat < 128) :
    (score.map fun b => Char.ofNat b.toNat).all Char.isDigit = true ↔ ∀ digit ∈ score, 48 ≤ digit ∧ digit ≤ 57 := by
  simp only [List.all_map, List.all_eq_true, Function.comp]
  exact ⟨fun hall b hb => (isDigit_ofNat_iff (h b hb)).1 (hall b hb),
    fun hall b hb => (isDigit_ofNat_iff (h b hb)).2 (hall b hb)⟩

theorem not_twoPaths_of_onePath {status : List UInt8} (h : OnePath status) : ¬ TwoPaths status := by
  have hlength : ∀ known ∈ KNOWN_SINGLE_PATH_STATUSES.map utf8, known.length = 1 := by decide +kernel
  rintro ⟨letter, score, rfl, -, hscore, -⟩
  have hone := hlength _ h
  rw [List.length_cons, Nat.succ.injEq, List.length_eq_zero_iff] at hone
  exact hscore hone

/-- The condition of the code on an ASCII status that is none of the known ones. -/
theorem twoPaths_iff {letter : UInt8} {score : List UInt8} (h : ∀ b ∈ letter :: score, b.toNat < 128) :
    TwoPaths (letter :: score) ↔ (Char.ofNat letter.toNat = 'R' ∨ Char.ofNat letter.toNat = 'C') ∧
      (score.map fun b => Char.ofNat b.toNat) ≠ [] ∧
        (score.map fun b => Char.ofNat b.toNat).all Char.isDigit = true := by
  have hletter := h letter (by simp)
  rw [all_isDigit_iff fun b hb => h b (List.mem_cons_of_mem _ hb)]
  have hR : Char.ofNat letter.toNat = 'R' ↔ letter = 82 := ofNat_eq_iff hletter 82 (by decide)
  have hC : Char.ofNat letter.toNat = 'C' ↔ letter = 67 := ofNat_eq_iff hletter 67 (by decide)
  rw [hR, hC, ne_eq, List.map_eq_nil_iff]
  constructor
  · rintro ⟨letter', score', heq, hrest⟩
    cases heq
    exact hrest
  · exact fun hrest => ⟨letter, score, rfl, hrest⟩

/-- A status is read by its bytes. -/
theorem pathCount_eq_ok_iff {status : List UInt8} {n : Nat} :
    (decodeAscii status >>= pathCount) = .ok n ↔ OnePath status ∧ n = 1 ∨ TwoPaths status ∧ n = 2 := by
  unfold decodeAscii
  by_cases hascii : ∀ b ∈ status, b.toNat < 128
  · have hall : status.all (· < 128) = true := by
      simpa [UInt8.lt_iff_toNat_lt] using hascii
    rw [if_pos hall]
    show pathCount (String.ofList (status.map fun b => Char.ofNat b.toNat)) = _ ↔ _
    have hknown : String.ofList (status.map fun b => Char.ofNat b.toNat) ∈ KNOWN_SINGLE_PATH_STATUSES ↔
        OnePath status := by
      unfold OnePath
      rw [← List.mem_map_of_injective fun _ _ h => utf8_injective h, utf8_ascii hascii]
    unfold pathCount
    by_cases hone : OnePath status
    · rw [if_pos (hknown.2 hone), Except.ok.injEq]
      constructor
      · rintro rfl
        exact Or.inl ⟨hone, rfl⟩
      · rintro (⟨-, rfl⟩ | ⟨htwo, -⟩)
        · rfl
        · exact absurd htwo (not_twoPaths_of_onePath hone)
    · rw [if_neg fun h => hone (hknown.1 h), String.toList_ofList]
      cases status with
      | nil => simp [hone, TwoPaths]
      | cons letter score =>
        simp only [List.map_cons]
        split_ifs with hcount
        · have htwo : TwoPaths (letter :: score) := (twoPaths_iff hascii).2 hcount
          simp [hone, htwo, eq_comm]
        · have htwo : ¬ TwoPaths (letter :: score) := fun h => hcount ((twoPaths_iff hascii).1 h)
          simp [hone, htwo]
  · have hall : ¬ status.all (· < 128) = true := by
      simpa [UInt8.lt_iff_toNat_lt] using hascii
    rw [if_neg hall]
    refine iff_of_false (by rintro h; cases h) ?_
    rintro (⟨h, -⟩ | ⟨h, -⟩)
    · exact hascii (ascii_of_onePath h)
    · exact hascii (ascii_of_twoPaths h)

/-! ## Outputs -/

/-- A record has as many paths as the code counts. -/
theorem counted_iff {r : Record} : r.Counted ↔ (decodeAscii r.status >>= pathCount) = .ok r.paths.length :=
  pathCount_eq_ok_iff.symm

/-- The paths of a record that is not cut off, and then those of the rest. -/
theorem readRecords_record {r : Record} (h : r.Counted) (fields : List (List UInt8)) :
    readRecords (r.fields ++ fields) = do
      let paths ← r.paths.mapM readPath
      let others ← readRecords fields
      return paths ++ others := by
  obtain ⟨status, hstatus, hcount⟩ := Aibot.bind_ok (counted_iff.1 h)
  have hlong : ¬ (r.paths ++ fields).length < r.paths.length := by
    rw [List.length_append]
    omega
  unfold Record.fields
  rw [List.cons_append, readRecords, hstatus]
  show (pathCount status >>= _) = _
  rw [hcount]
  show (if (r.paths ++ fields).length < r.paths.length then _ else _) = _
  rw [if_neg hlong, List.take_left, List.drop_left]

/-- What is read begins with a record. -/
theorem record_of_readRecords {rawStatus : List UInt8} {fields : List (List UInt8)} {paths : List String}
    (h : readRecords (rawStatus :: fields) = .ok paths) :
    ∃ r : Record, ∃ rest, r.Counted ∧ rawStatus :: fields = r.fields ++ rest := by
  rw [readRecords] at h
  obtain ⟨status, hstatus, h⟩ := Aibot.bind_ok h
  obtain ⟨count, hcount, h⟩ := Aibot.bind_ok h
  split_ifs at h with hfew
  · cases h
  refine ⟨⟨rawStatus, fields.take count⟩, fields.drop count, ?_, ?_⟩
  · rw [counted_iff, hstatus, List.length_take_of_le (not_lt.1 hfew)]
    exact hcount
  · exact congrArg (rawStatus :: ·) (List.take_append_drop count fields).symm

/-- The loop reads exactly the fields of records, and returns their paths. -/
theorem readRecords_eq_ok_iff (fields : List (List UInt8)) {paths : List String} :
    readRecords fields = .ok paths ↔ ∃ records : List Record,
      (∀ r ∈ records, r.Counted ∧ ∀ path ∈ r.paths, ValidPath path) ∧ fields = records.flatMap Record.fields ∧
        records.flatMap Record.paths = paths.map utf8 := by
  constructor
  · intro h
    induction hn : fields.length using Nat.strong_induction_on generalizing fields paths with
    | _ n ih =>
      cases fields with
      | nil =>
        rw [readRecords] at h
        cases h
        exact ⟨[], fun _ h => absurd h List.not_mem_nil, rfl, rfl⟩
      | cons rawStatus fields =>
        obtain ⟨r, rest, hr, hsplit⟩ := record_of_readRecords h
        rw [hsplit, readRecords_record hr] at h
        obtain ⟨first, hfirst, h⟩ := Aibot.bind_ok h
        obtain ⟨others, hothers, h⟩ := Aibot.bind_ok h
        cases h
        have hshort : rest.length < n := by
          rw [← hn, hsplit, List.length_append]
          exact Nat.lt_add_of_pos_left (Nat.succ_pos _)
        obtain ⟨records, hrecords, hfields, hpaths⟩ := ih _ hshort rest hothers rfl
        obtain ⟨htexts, hvalid⟩ := mapM_readPath_eq_ok_iff.1 hfirst
        refine ⟨r :: records, ?_, ?_, ?_⟩
        · rintro r' hr'
          rcases List.mem_cons.1 hr' with rfl | hr'
          · exact ⟨hr, hvalid⟩
          · exact hrecords r' hr'
        · rw [hsplit, hfields]
          rfl
        · rw [List.flatMap_cons, htexts, hpaths, List.map_append]
  · rintro ⟨records, hrecords, rfl, hpaths⟩
    induction records generalizing paths with
    | nil =>
      rw [List.map_eq_nil_iff.1 hpaths.symm, List.flatMap_nil, readRecords]
    | cons r records ih =>
      obtain ⟨hr, hvalid⟩ := hrecords r (by simp)
      rw [List.flatMap_cons] at hpaths
      obtain ⟨first, others, rfl, hfirst, hothers⟩ := List.append_eq_map_iff.1 hpaths
      have hread : r.paths.mapM readPath = .ok first := mapM_readPath_eq_ok_iff.2 ⟨hfirst.symm, hvalid⟩
      rw [List.flatMap_cons, readRecords_record hr, hread,
        ih (fun r' hr' => hrecords r' (List.mem_cons_of_mem _ hr')) hothers.symm]
      rfl

/-- A status has no NUL. -/
theorem Record.Counted.terminated {r : Record} (h : r.Counted) : 0 ∉ r.status := by
  rcases h with ⟨hone, -⟩ | ⟨⟨letter, score, heq, hletter, -, hdigits⟩, -⟩
  · have hall : ∀ known ∈ KNOWN_SINGLE_PATH_STATUSES.map utf8, 0 ∉ known := by decide +kernel
    exact hall _ hone
  · rw [heq]
    intro hmem
    rcases List.mem_cons.1 hmem with rfl | hmem
    · exact absurd hletter (by decide)
    · exact absurd (hdigits 0 hmem).1 (by decide)

theorem flatMap_encode (records : List Record) :
    records.flatMap Record.encode = (records.flatMap Record.fields).flatMap (· ++ [0]) := by
  rw [List.flatMap_assoc]
  rfl

theorem splitOn_encode {records : List Record}
    (h : ∀ r ∈ records, r.Counted ∧ ∀ path ∈ r.paths, 0 ∉ path) :
    (records.flatMap Record.encode).splitOn 0 = records.flatMap Record.fields ++ [[]] := by
  rw [flatMap_encode]
  apply splitOn_terminated
  intro field hfield
  obtain ⟨r, hr, hfield⟩ := List.mem_flatMap.1 hfield
  rcases List.mem_cons.1 hfield with rfl | hfield
  · exact (h r hr).1.terminated
  · exact (h r hr).2 field hfield

/-- What git prints is read field by field. -/
theorem parse_encode {records : List Record} (h : ∀ r ∈ records, r.Counted ∧ ∀ path ∈ r.paths, 0 ∉ path) :
    parseNameStatusZ (records.flatMap Record.encode) = readRecords (records.flatMap Record.fields) := by
  unfold parseNameStatusZ
  simp [splitOn_encode h]

/-- The reader accepts exactly the concatenations of well-formed records with UTF-8 paths, and returns the
paths of all records in order. -/
theorem parse_eq_ok_iff (payload : List UInt8) (paths : List String) :
    parseNameStatusZ payload = .ok paths ↔ ∃ records : List Record, (∀ r ∈ records, r.WellFormed) ∧
      payload = records.flatMap Record.encode ∧ records.flatMap Record.paths = paths.map utf8 := by
  constructor
  · intro h
    simp only [parseNameStatusZ] at h
    split_ifs at h with hlast
    have hsplit : payload.splitOn 0 = (payload.splitOn 0).dropLast ++ [[]] :=
      (List.dropLast_append_getLast? [] (not_not.1 hlast)).symm
    obtain ⟨hpayload, hterminated⟩ := eq_terminated_of_splitOn hsplit
    obtain ⟨records, hrecords, hfields, hpaths⟩ := (readRecords_eq_ok_iff _).1 h
    refine ⟨records, fun r hr => ?_, ?_, hpaths⟩
    · obtain ⟨hcounted, hvalid⟩ := hrecords r hr
      refine ⟨hcounted, hvalid, fun path hpath => hterminated path ?_⟩
      rw [hfields]
      exact List.mem_flatMap.2 ⟨r, hr, List.mem_cons_of_mem _ hpath⟩
    · rw [flatMap_encode, ← hfields]
      exact hpayload
  · rintro ⟨records, hrecords, rfl, hpaths⟩
    rw [parse_encode fun r hr => ⟨(hrecords r hr).counted, (hrecords r hr).terminated⟩]
    exact (readRecords_eq_ok_iff _).2
      ⟨records, fun r hr => ⟨(hrecords r hr).counted, (hrecords r hr).valid⟩, rfl, hpaths⟩

/-! ## The decision -/

/-- The path does not touch what runs. -/
def Harmless (path : String) : Prop := path = RETENTION_TOOL_PATH ∨ isKnownNonRuntimePath path = true

theorem harmless_of_classify {paths : List String} (h : (classifyChangedPaths paths).deploy = false) :
    ∀ path ∈ paths, Harmless path := by
  unfold classifyChangedPaths at h
  split_ifs at h with hempty htool hknown
  · rw [hempty]
    exact nofun
  · have hall := (Bool.and_eq_true_iff.1 htool).2
    intro path hpath
    simpa [Harmless] using List.all_eq_true.1 hall path hpath
  · exact fun path hpath => Or.inr (List.all_eq_true.1 hknown path hpath)

theorem parse_of_resolve {beforeSha afterSha : String} {git : GitRun}
    (h : (resolvePushDeployTrigger beforeSha afterSha git).deploy = false) :
    ∃ stdout paths, git = .finished 0 stdout ∧ parseNameStatusZ stdout = .ok paths ∧
      (classifyChangedPaths paths).deploy = false := by
  unfold resolvePushDeployTrigger at h
  split_ifs at h
  cases git with
  | raised => cases h
  | finished returncode stdout =>
    simp only at h
    split_ifs at h with hcode
    rw [not_not] at hcode
    cases hparse : parseNameStatusZ stdout with
    | error e =>
      rw [hparse] at h
      cases h
    | ok paths =>
      rw [hparse] at h
      exact ⟨stdout, paths, by rw [hcode], hparse, h⟩

/-- Git prints the diff, where it returns: its statuses are known ones, and no path has a NUL. -/
structure Prints (git : GitRun) (diff : List Record) : Prop where
  records : ∀ r ∈ diff, r.Counted ∧ ∀ path ∈ r.paths, 0 ∉ path
  stdout : ∀ stdout, git = .finished 0 stdout → stdout = diff.flatMap Record.encode

/-- The records of an output are determined by it. -/
theorem paths_of_readRecords {diff : List Record} (h : ∀ r ∈ diff, r.Counted) {paths : List String}
    (hread : readRecords (diff.flatMap Record.fields) = .ok paths) : diff.flatMap Record.paths = paths.map utf8 := by
  induction diff generalizing paths with
  | nil =>
    rw [List.flatMap_nil, readRecords] at hread
    cases hread
    rfl
  | cons r diff ih =>
    rw [List.flatMap_cons, readRecords_record (h r (by simp))] at hread
    obtain ⟨first, hfirst, hread⟩ := Aibot.bind_ok hread
    obtain ⟨others, hothers, hread⟩ := Aibot.bind_ok hread
    cases hread
    rw [List.flatMap_cons, List.map_append, (mapM_readPath_eq_ok_iff.1 hfirst).1,
      ih (fun r' hr' => h r' (List.mem_cons_of_mem _ hr')) hothers]

theorem harmless_of_resolve {beforeSha afterSha : String} {git : GitRun} {diff : List Record}
    (hprints : Prints git diff)
    (h : (resolvePushDeployTrigger beforeSha afterSha git).deploy = false) :
    ∀ rawPath ∈ diff.flatMap Record.paths, ∃ path, utf8 path = rawPath ∧ Harmless path := by
  obtain ⟨stdout, paths, hgit, hparse, hclassify⟩ := parse_of_resolve h
  rw [hprints.stdout stdout hgit, parse_encode hprints.records] at hparse
  rw [paths_of_readRecords (fun r hr => (hprints.records r hr).1) hparse]
  intro rawPath hraw
  obtain ⟨path, hpath, htext⟩ := List.mem_map.1 hraw
  exact ⟨path, htext, harmless_of_classify hclassify path hpath⟩

/-- The reader accepts the well-formed outputs with UTF-8 paths and returns their paths, and a diff that does
not deploy touches the retention tool and known non-runtime paths only. -/
theorem trigger_sound :
    (∀ payload paths, parseNameStatusZ payload = .ok paths ↔ ∃ records : List Record, (∀ r ∈ records, r.WellFormed) ∧
      payload = records.flatMap Record.encode ∧ records.flatMap Record.paths = paths.map utf8) ∧
    ∀ beforeSha afterSha git diff, Prints git diff → (resolvePushDeployTrigger beforeSha afterSha git).deploy = false →
      ∀ rawPath ∈ diff.flatMap Record.paths, ∃ path, utf8 path = rawPath ∧ Harmless path :=
  ⟨parse_eq_ok_iff, fun _ _ _ _ => harmless_of_resolve⟩

/-- A change of a document. -/
def documentDiff : List Record := [⟨utf8 "M", [utf8 "docs/a.md"]⟩]

theorem counted_documentDiff : ∀ r ∈ documentDiff, r.Counted ∧ ∀ path ∈ r.paths, 0 ∉ path := by
  rintro r hr
  rw [List.mem_singleton.1 hr]
  exact ⟨Or.inl ⟨by unfold OnePath; decide +kernel, rfl⟩, by decide +kernel⟩

theorem parse_documentDiff : parseNameStatusZ (documentDiff.flatMap Record.encode) = .ok ["docs/a.md"] := by
  rw [parse_encode counted_documentDiff]
  refine (readRecords_eq_ok_iff _).2 ⟨documentDiff, ?_, rfl, rfl⟩
  rintro r hr
  refine ⟨(counted_documentDiff r hr).1, ?_⟩
  rw [List.mem_singleton.1 hr]
  rintro path hpath
  rw [List.mem_singleton.1 hpath]
  exact ⟨by decide +kernel, by decide +kernel, by decide +kernel⟩

theorem trigger_sound_document :
    (resolvePushDeployTrigger (String.ofList (List.replicate 40 'a')) (String.ofList (List.replicate 40 'b'))
        (.finished 0 (documentDiff.flatMap Record.encode))).deploy = false ∧
      ∀ rawPath ∈ documentDiff.flatMap Record.paths, ∃ path, utf8 path = rawPath ∧ Harmless path := by
  have hprints : Prints (.finished 0 (documentDiff.flatMap Record.encode)) documentDiff :=
    ⟨counted_documentDiff, fun stdout h => by cases h; rfl⟩
  have hdeploy : (resolvePushDeployTrigger (String.ofList (List.replicate 40 'a'))
      (String.ofList (List.replicate 40 'b'))
      (.finished 0 (documentDiff.flatMap Record.encode))).deploy = false := by
    unfold resolvePushDeployTrigger
    rw [if_neg (by decide +kernel)]
    simp only [ne_eq, not_true_eq_false, if_false, parse_documentDiff]
    decide +kernel
  exact ⟨hdeploy, trigger_sound.2 _ _ _ _ hprints hdeploy⟩

/-- A path of one byte that is no text is refused. -/
theorem parse_latin1 : ¬ ∀ payload, (∃ paths, parseNameStatusZ payload = .ok paths) ↔
    ∃ records : List Record, (∀ r ∈ records, r.WellFormed) ∧ payload = records.flatMap Record.encode := by
  intro h
  have hcounted : Record.Counted ⟨[77], [[255]]⟩ := Or.inl ⟨by unfold OnePath; decide +kernel, rfl⟩
  have hrecord : Record.WellFormed ⟨[77], [[255]]⟩ := by
    have hvalid : ValidPath [255] := ⟨by decide, by decide, by decide⟩
    exact ⟨hcounted, by simpa using hvalid, by simp⟩
  obtain ⟨paths, hparse⟩ := (h ([⟨[77], [[255]]⟩].flatMap Record.encode)).2
      ⟨[⟨[77], [[255]]⟩], by simpa using hrecord, rfl⟩
  rw [parse_encode (by simpa using hcounted)] at hparse
  have hpaths := paths_of_readRecords (by simpa using hcounted) hparse
  have hmem : [255] ∈ paths.map utf8 := by
    rw [← hpaths]
    simp
  obtain ⟨path, -, htext⟩ := List.mem_map.1 hmem
  have hnone : decodeUtf8 [255] = none := by decide
  rw [decodeUtf8_eq_some_iff.2 htext] at hnone
  cases hnone

end Aibot.Deploy
