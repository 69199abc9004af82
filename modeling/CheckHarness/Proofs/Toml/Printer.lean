import CheckHarness.Proofs.Text.Numeral
import CheckHarness.Proofs.Toml.Keys
import CheckHarness.Proofs.Toml.Strings
import CheckHarness.Toml.Document

namespace CheckHarness.Toml

variable {text rest digits : List Char} {name : String} {value : Value}

/-- Digits without separators are read as they are. -/
theorem joinedDigits?_eq_some (hdigits : Numeral.IsDigits digits) :
    joinedDigits? Char.isDigit digits = some digits := by
  obtain ⟨hne, hall⟩ := hdigits
  induction digits with
  | nil => exact absurd rfl hne
  | cons c digits ih =>
    rw [List.forall_mem_cons] at hall
    cases digits with
    | nil => rw [joinedDigits?, if_pos hall.1]
    | cons next digits =>
      have hjoin : ∀ more, next :: digits ≠ '_' :: more := by
        intro more hsame
        have hnext := hall.2 next List.mem_cons_self
        rw [(List.cons.inj hsame).1] at hnext
        cases hnext
      rw [joinedDigits?, if_pos hall.1, ih (List.cons_ne_nil _ _) hall.2]
      · rfl
      · exact nofun
      · exact hjoin

/-- Adding up digits from the left gives the number that they write. -/
theorem foldl_digits_eq_ofDigitChars (hdigits : ∀ c ∈ digits, c.isDigit = true) (start : Nat) :
    digits.foldl (fun value c => value * 10 + (Hex.value? c).getD 0) start =
      Nat.ofDigitChars 10 digits start := by
  induction digits generalizing start with
  | nil => rfl
  | cons c digits ih =>
    rw [List.forall_mem_cons] at hdigits
    have hvalue : Hex.value? c = some (c.toNat - '0'.toNat) := by
      rw [Hex.value?, if_pos hdigits.1]
    rw [List.foldl_cons, Nat.ofDigitChars_cons, hvalue, Option.getD_some, ih hdigits.2, Nat.mul_comm]

theorem isDate_eq_false (hdash : '-' ∉ text) : isDate text = false := by
  unfold isDate
  split
  · simp at hdash
  · rfl

theorem isTime_eq_false (offset : Bool) (hcolon : ':' ∉ text) : isTime offset text = false := by
  unfold isTime
  split
  · simp at hcolon
  · rfl

theorem isDatetime_eq_false (hdash : '-' ∉ text) (hcolon : ':' ∉ text) :
    isDatetime text = false := by
  have hfront : '-' ∉ text.take 10 := fun hmem => hdash (List.mem_of_mem_take hmem)
  rw [isDatetime, isTime_eq_false false hcolon, isDate_eq_false hdash, isDate_eq_false hfront]
  rfl

theorem splitSign_digits (hdigits : Numeral.IsDigits digits) : splitSign digits = (false, digits) := by
  unfold splitSign
  split
  · exact absurd List.mem_cons_self (hdigits.not_mem (by decide))
  · exact absurd List.mem_cons_self (hdigits.not_mem (by decide))
  · rfl

theorem isFloat_eq_false (hdigits : Numeral.IsDigits digits) : isFloat digits = false := by
  have hlacks : ∀ word : List Char, 'n' ∈ word → digits ≠ word := by
    rintro word hword rfl
    exact hdigits.not_mem (by decide) hword
  have hsign : (digits.any fun c => c = '.' || (c = 'e' || c = 'E')) = false := by
    rw [List.any_eq_false]
    intro c hc
    have hdigit := hdigits.isDigit c hc
    simp only [Bool.or_eq_true, decide_eq_true_eq]
    rintro (rfl | rfl | rfl) <;> cases hdigit
  rw [isFloat, splitSign_digits hdigits]
  dsimp only
  rw [if_neg]
  · split
    · rw [hsign, Bool.false_and]
    · rfl
  · rw [Bool.or_eq_true, decide_eq_true_eq, decide_eq_true_eq]
    exact not_or.mpr ⟨hlacks _ (by simp), hlacks _ (by simp)⟩

/-- A number that is written in digits is read back. -/
theorem integer?_digits {n : Nat} (hn : n < integerBound) :
    integer? (Numeral.digits n) = some (n : Int) := by
  have hdigits := Numeral.isDigits_digits n
  have hleading := (Numeral.shortest_digits n).leading
  have hdecimal : decimalDigits? (Numeral.digits n) = some (Numeral.digits n) := by
    rw [decimalDigits?, joinedDigits?_eq_some hdigits, Option.bind_eq_bind, Option.bind_some, if_neg]
    · rfl
    · simpa using hleading
  have hvalue : ofDigits 10 (Numeral.digits n) = n :=
    (foldl_digits_eq_ofDigitChars hdigits.isDigit 0).trans (Numeral.ofDigitChars_digits n)
  have hcheck : checkInteger (n : Int) = some (n : Int) := by
    rw [checkInteger, if_pos]
    omega
  have hsecond : ∀ c more, c.isDigit = false → Numeral.digits n ≠ '0' :: c :: more := by
    intro c more hc hsame
    exact hdigits.not_mem hc (hsame ▸ by simp)
  unfold integer?
  split
  · next hsame => exact absurd hsame (hsecond 'x' _ (by decide))
  · next hsame => exact absurd hsame (hsecond 'o' _ (by decide))
  · next hsame => exact absurd hsame (hsecond 'b' _ (by decide))
  · rw [splitSign_digits hdigits]
    dsimp only
    rw [hdecimal, Option.bind_eq_bind, Option.bind_some, hvalue]
    exact hcheck

/-- A number is read as a number and as nothing else. -/
theorem scalar?_digits {n : Nat} (hn : n < integerBound) :
    scalar? (Numeral.digits n) = some (.integer n) := by
  have hdigits := Numeral.isDigits_digits n
  have hword : ∀ word : List Char, 'e' ∈ word → Numeral.digits n ≠ word := by
    intro word hword hsame
    exact hdigits.not_mem (by decide) (hsame ▸ hword)
  rw [scalar?, if_neg (hword _ (by simp)), if_neg (hword _ (by simp)),
    isDatetime_eq_false (hdigits.not_mem (by decide)) (hdigits.not_mem (by decide)),
    isFloat_eq_false hdigits, integer?_digits hn]
  rfl

/-- A name that is written without quotes. -/
structure IsBare (name : String) : Prop where
  ne_nil : name.toList ≠ []
  chars : ∀ c ∈ name.toList, isBareKeyChar c = true

/-- The values that take no more than one line. -/
inductive IsPlain : Value → Prop where
  | string (text : String) : IsPlain (.string text)
  | natural {n : Nat} (hn : n < integerBound) : IsPlain (.integer n)

theorem IsBare.eq_cons (hname : IsBare name) :
    ∃ c more, name.toList = c :: more ∧ isBareKeyChar c = true := by
  obtain ⟨c, more, hcons⟩ := List.exists_cons_of_ne_nil hname.ne_nil
  exact ⟨c, more, hcons, hname.chars c (hcons ▸ List.mem_cons_self)⟩

theorem IsBare.nameChars_eq (hname : IsBare name) : nameChars name = name.toList := by
  have hempty : name.isEmpty = false := by
    rw [Bool.eq_false_iff, Ne, String.isEmpty_iff]
    rintro rfl
    exact hname.ne_nil rfl
  have hall : name.toList.all isBareKeyChar = true := List.all_eq_true.mpr hname.chars
  rw [nameChars, hempty, hall]
  rfl

theorem skipBlanks_cons {c : Char} (hc : isBlank c = false) :
    skipBlanks (c :: rest) = c :: rest :=
  List.dropWhile_cons_of_neg (by simp [hc])

/-- The characters that begin something else than a name. -/
def marks : List Char :=
  ['"', '\'', '[', '#', '\n', '\r']

/-- A character of a bare name is no blank and none of the marks. -/
theorem isBareKeyChar_cases {c : Char} (hc : isBareKeyChar c = true) :
    isBlank c = false ∧ c ∉ marks := by
  rw [Bool.eq_false_iff]
  constructor
  · intro hblank
    simp only [isBlank, Bool.or_eq_true, decide_eq_true_eq] at hblank
    rcases hblank with rfl | rfl <;> exact absurd hc (by decide)
  · intro hmem
    have hnone : (marks.all fun mark => !isBareKeyChar mark) = true := by decide
    have hnot := List.all_eq_true.mp hnone c hmem
    rw [hc] at hnot
    cases hnot

theorem IsBare.skipBlanks_append (hname : IsBare name) :
    skipBlanks (name.toList ++ rest) = name.toList ++ rest := by
  obtain ⟨c, more, hcons, hc⟩ := hname.eq_cons
  rw [hcons, List.cons_append, skipBlanks_cons (isBareKeyChar_cases hc).1]

/-- What begins with a name begins with no mark. -/
theorem IsBare.append_ne (hname : IsBare name) {mark : Char}
    (hmark : mark ∈ marks) (others : List Char) :
    name.toList ++ rest ≠ mark :: others := by
  obtain ⟨c, more, hcons, hc⟩ := hname.eq_cons
  rw [hcons]
  apply cons_ne_cons
  rintro rfl
  exact (isBareKeyChar_cases hc).2 hmark

/-- A bare name has no quotation marks to count. -/
theorem IsBare.hasCountableRuns (hname : IsBare name) :
    Quoting.hasCountableRuns name.toList = true := by
  have hmarks : ∀ mark ∈ marks, mark ∉ name.toList := fun mark hmark hmem =>
    (isBareKeyChar_cases (hname.chars mark hmem)).2 hmark
  exact hasCountableRuns_of_notMem (hmarks _ (by decide)) (hmarks _ (by decide))

/-- A name is read up to the first character that cannot be part of it. -/
theorem IsBare.key?_append (hname : IsBare name) (budget : Nat) {c : Char}
    (hc : isBareKeyChar c = false) (hpoint : ∀ more, skipBlanks (c :: rest) ≠ '.' :: more) :
    key? (budget + 1) (name.toList ++ c :: rest) = some ([name], skipBlanks (c :: rest)) := by
  have hstring : lineString? (name.toList ++ c :: rest) = none := by
    rw [lineString?]
    · exact hname.append_ne (by decide)
    · exact hname.append_ne (by decide)
  have hread : name? (name.toList ++ c :: rest) = some (name.toList, c :: rest) := by
    have hne : name.toList.isEmpty = false := by simpa using hname.ne_nil
    rw [name?, hstring]
    simp only [List.takeWhile_append_of_pos hname.chars, List.dropWhile_append_of_pos hname.chars,
      List.takeWhile_cons_of_neg (Bool.eq_false_iff.mp hc),
      List.dropWhile_cons_of_neg (Bool.eq_false_iff.mp hc), List.append_nil, hne]
    rfl
  rw [key?, hname.skipBlanks_append, hread, Option.bind_eq_bind, Option.bind_some]
  dsimp only
  split
  · next more hsame => exact absurd hsame (hpoint more)
  · rw [String.ofList_toList]
    rfl

/-- Digits are taken up to the end of their line. -/
theorem splitWord_digits (rest : List Char) (hdigits : ∀ c ∈ digits, c.isDigit = true) :
    splitWord (digits ++ '\n' :: rest) = (digits, '\n' :: rest) := by
  have hword : ∀ c ∈ digits, isWordChar c = true := by
    intro c hc
    simp [isWordChar, Char.isAlphanum, hdigits c hc]
  have hline : ¬ isWordChar '\n' = true := by decide
  rw [splitWord, List.takeWhile_append_of_pos hword, List.dropWhile_append_of_pos hword,
    List.takeWhile_cons_of_neg hline, List.dropWhile_cons_of_neg hline, List.append_nil]
  rfl

theorem valueChars_natural (n : Nat) : valueChars (.integer n) = Numeral.digits n := by
  rw [valueChars, integerChars, if_neg (by omega), Int.natAbs_natCast]

/-- A plain value is read back, up to the end of its line. -/
theorem value?_of_isPlain (hvalue : IsPlain value) (fuel depth : Nat) :
    value? (fuel + 1) depth (valueChars value ++ '\n' :: rest) = some (value, '\n' :: rest) := by
  cases hvalue with
  | string text =>
    have hread : string? (quote text.toList ++ '\n' :: rest) = some (text.toList, '\n' :: rest) :=
      string?_quote (by simp) (by simp)
    obtain ⟨more, hquote | hquote⟩ := quote_eq_cons text.toList <;>
    · rw [hquote, List.cons_append] at hread
      rw [valueChars, hquote, List.cons_append, value?, hread]
      simp
  | @natural n hn =>
    have hdigits := Numeral.isDigits_digits n
    obtain ⟨c, more, hcons⟩ := List.exists_cons_of_ne_nil hdigits.ne_nil
    -- A digit is none of the marks that the other kinds of values begin with.
    have hmark : ∀ mark : Char, mark.isDigit = false → ∀ others,
        c :: (more ++ '\n' :: rest) ≠ mark :: others := by
      intro mark hmark
      apply cons_ne_cons
      rintro rfl
      exact hdigits.not_mem hmark (hcons ▸ List.mem_cons_self)
    have hword := splitWord_digits rest hdigits.isDigit
    have hscalar := scalar?_digits hn
    rw [valueChars_natural]
    generalize Numeral.digits n = digits at *
    subst hcons
    rw [List.cons_append] at hword ⊢
    rw [value?, hword]
    · dsimp only
      rw [hscalar]
      rfl
    · exact hmark '"' (by decide)
    · exact hmark '\'' (by decide)
    · exact fun _ _ hsame _ => hmark '[' (by decide) _ hsame
    · exact fun _ _ hsame _ => hmark '\x7b' (by decide) _ hsame
    · exact fun _ hsame _ => hmark '[' (by decide) _ hsame
    · exact fun _ hsame _ => hmark '\x7b' (by decide) _ hsame

theorem skipBlanks_valueChars (hvalue : IsPlain value) :
    skipBlanks (valueChars value ++ rest) = valueChars value ++ rest := by
  have hfirst : ∃ c more, valueChars value = c :: more ∧ isBlank c = false := by
    cases hvalue with
    | string text =>
      obtain ⟨more, hquote | hquote⟩ := quote_eq_cons text.toList
      · exact ⟨'"', more, hquote, rfl⟩
      · exact ⟨'\'', more, hquote, rfl⟩
    | @natural n hn =>
      have hdigits := Numeral.isDigits_digits n
      obtain ⟨c, more, hcons⟩ := List.exists_cons_of_ne_nil hdigits.ne_nil
      refine ⟨c, more, (valueChars_natural n).trans hcons, ?_⟩
      have hc := hdigits.isDigit c (hcons ▸ List.mem_cons_self)
      have hbare : isBareKeyChar c = true := by
        simp [isBareKeyChar, Char.isAlphanum, hc]
      exact (isBareKeyChar_cases hbare).1
  obtain ⟨c, more, hcons, hblank⟩ := hfirst
  rw [hcons, List.cons_append, skipBlanks_cons hblank]

theorem statement?_header (hname : IsBare name) :
    statement? ('[' :: (name.toList ++ ']' :: rest)) = some (.header [name], rest) := by
  have hkey : key? maxKeyLength (name.toList ++ ']' :: rest) = some ([name], ']' :: rest) :=
    hname.key?_append 78 (by decide) nofun
  rw [statement?, hkey]
  · rfl
  · exact hname.append_ne (by decide)

/-- A line of an entry is read as this entry. -/
theorem statement?_keyValue (hname : IsBare name) (hvalue : IsPlain value) :
    statement? (name.toList ++ ' ' :: '=' :: ' ' :: (valueChars value ++ '\n' :: rest)) =
      some (.keyValue [name] value, '\n' :: rest) := by
  have hkey : key? maxKeyLength
      (name.toList ++ ' ' :: '=' :: ' ' :: (valueChars value ++ '\n' :: rest)) =
        some ([name], '=' :: ' ' :: (valueChars value ++ '\n' :: rest)) :=
    hname.key?_append 78 (by decide) nofun
  have hblanks : skipBlanks (' ' :: (valueChars value ++ '\n' :: rest)) =
      valueChars value ++ '\n' :: rest :=
    skipBlanks_valueChars hvalue
  rw [statement?, hkey]
  · simp only [Option.bind_eq_bind, Option.bind_some, hblanks, value?_of_isPlain hvalue]
    rfl
  · exact fun _ => hname.append_ne (by decide) _
  · exact hname.append_ne (by decide)

/-- The text is read to the statements, with so much fuel that each character could take some. -/
def Reads (text : List Char) (statements : List Statement) : Prop :=
  ∀ fuel, text.length < fuel → statements? fuel text = some statements

section Lines

variable {statement : Statement} {statements : List Statement}

theorem reads_nil : Reads [] [] := by
  intro fuel hfuel
  obtain ⟨fuel, rfl⟩ := Nat.exists_eq_succ_of_ne_zero (Nat.ne_of_gt hfuel)
  rfl

theorem Reads.blank (hrest : Reads rest statements) : Reads ('\n' :: rest) statements := by
  intro fuel hfuel
  obtain ⟨fuel, rfl⟩ := Nat.exists_eq_succ_of_ne_zero (Nat.ne_of_gt (Nat.zero_lt_of_lt hfuel))
  exact hrest fuel (Nat.lt_of_succ_lt_succ hfuel)

theorem finishLine?_newline : finishLine? ('\n' :: rest) = some rest :=
  rfl

/-- A line with a statement comes before the rest. -/
theorem Reads.line (hrest : Reads rest statements)
    (hstatement : statement? text = some (statement, '\n' :: rest))
    (hblanks : skipBlanks text = text) (hcomment : ∀ others, text ≠ '#' :: others)
    (hnewline : ∀ others, text ≠ '\n' :: others) (hreturn : ∀ others, text ≠ '\r' :: others)
    (hlength : rest.length < text.length) : Reads text (statement :: statements) := by
  intro fuel hfuel
  obtain ⟨fuel, rfl⟩ := Nat.exists_eq_succ_of_ne_zero (Nat.ne_of_gt (Nat.zero_lt_of_lt hfuel))
  have hline : lineEnd? text = none := by
    rw [lineEnd?]
    · exact hnewline
    · exact fun _ => hreturn _
  rw [statements?, hblanks]
  split
  · simp at hlength
  · exact absurd rfl (hcomment _)
  · rw [hline]
    dsimp only
    rw [hstatement, Option.bind_eq_bind, Option.bind_some, finishLine?_newline,
      Option.bind_eq_bind, Option.bind_some, hrest fuel (by omega)]
    rfl

theorem Reads.header (hrest : Reads rest statements) (hname : IsBare name) :
    Reads ('[' :: (nameChars name ++ ']' :: '\n' :: rest)) (.header [name] :: statements) := by
  rw [hname.nameChars_eq]
  apply hrest.line (statement?_header hname) (skipBlanks_cons (by decide))
  · simp
  · simp
  · simp
  · simp only [List.length_cons, List.length_append]
    omega

theorem Reads.keyValue (hrest : Reads rest statements) (hname : IsBare name)
    (hvalue : IsPlain value) :
    Reads (nameChars name ++ ' ' :: '=' :: ' ' :: (valueChars value ++ '\n' :: rest))
      (.keyValue [name] value :: statements) := by
  rw [hname.nameChars_eq]
  apply hrest.line (statement?_keyValue hname hvalue) hname.skipBlanks_append
  · exact hname.append_ne (by decide)
  · exact hname.append_ne (by decide)
  · exact hname.append_ne (by decide)
  · simp only [List.length_cons, List.length_append]
    omega

end Lines

namespace Section

/-- A section that takes one line for each of its entries, which have names of their own. -/
structure IsPlain (part : Section) : Prop where
  name : IsBare part.name
  names : ∀ entry ∈ part.entries, IsBare entry.1
  values : ∀ entry ∈ part.entries, Toml.IsPlain entry.2
  distinct : (part.entries.map Prod.fst).Nodup

theorem entriesAreWritable_iff {entries : List (String × Value)} :
    entriesAreWritable entries = true ↔
      ∀ entry ∈ entries, Quoting.hasCountableRuns entry.1.toList = true ∧
        Toml.isWritable entry.2 = true := by
  induction entries with
  | nil => simp [entriesAreWritable]
  | cons entry entries ih =>
    obtain ⟨name, value⟩ := entry
    rw [entriesAreWritable, Bool.and_eq_true, Bool.and_eq_true, ih, List.forall_mem_cons]

/-- With names that stand bare, only the values decide whether a section can be written. -/
theorem IsPlain.isWritable_iff {part : Section} (hpart : part.IsPlain) :
    part.isWritable = true ↔ ∀ entry ∈ part.entries, Toml.isWritable entry.2 = true := by
  rw [isWritable, Bool.and_eq_true, entriesAreWritable_iff]
  constructor
  · exact fun hwritable entry hentry => (hwritable.2 entry hentry).2
  · exact fun hvalues => ⟨hpart.name.hasCountableRuns,
      fun entry hentry => ⟨(hpart.names entry hentry).hasCountableRuns, hvalues entry hentry⟩⟩

/-- What a section states, line by line. -/
def statements (part : Section) : List Statement :=
  .header [part.name] :: part.entries.map fun entry => .keyValue [entry.1] entry.2

end Section

/-- The lines of entries are read as these entries. -/
theorem Reads.entries {statements : List Statement} {entries : List (String × Value)}
    (hrest : Reads rest statements) (hnames : ∀ entry ∈ entries, IsBare entry.1)
    (hvalues : ∀ entry ∈ entries, IsPlain entry.2) :
    Reads (((entryChars entries).flatMap fun line => line ++ ['\n']) ++ rest)
      ((entries.map fun entry => .keyValue [entry.1] entry.2) ++ statements) := by
  induction entries with
  | nil => exact hrest
  | cons entry entries ih =>
    obtain ⟨name, value⟩ := entry
    rw [List.forall_mem_cons] at hnames hvalues
    have hline := (ih hnames.2 hvalues.2).keyValue hnames.1 hvalues.1
    simpa [entryChars] using hline

/-- A section is read as its header and its entries. -/
theorem Reads.section {statements : List Statement} {part : Section} (hrest : Reads rest statements)
    (hpart : part.IsPlain) : Reads (part.chars ++ rest) (part.statements ++ statements) := by
  have hlines := (hrest.entries hpart.names hpart.values).header hpart.name
  simpa [Section.chars, Section.statements] using hlines

/-- Sections are read one after another. -/
theorem reads_sections {parts : List Section} (hparts : ∀ part ∈ parts, part.IsPlain) :
    Reads (join ['\n'] (parts.map Section.chars)) (parts.flatMap Section.statements) := by
  induction parts with
  | nil => exact reads_nil
  | cons part parts ih =>
    rw [List.forall_mem_cons] at hparts
    have hrest := ih hparts.2
    cases parts with
    | nil => simpa [join] using reads_nil.section hparts.1
    | cons next parts =>
      have hblank := hrest.blank.section hparts.1
      simpa [join] using hblank

namespace Entries

variable {entries table : Entries} {entry old : Entry}

/-- What comes before an entry is not touched when it is set. -/
theorem set_append (hname : name ∉ entries.map Prod.fst) (others : Entries) (entry : Entry) :
    set (entries ++ others) name entry = entries ++ set others name entry := by
  induction entries with
  | nil => rfl
  | cons first entries ih =>
    obtain ⟨key, old⟩ := first
    rw [List.map_cons, List.mem_cons, not_or] at hname
    rw [List.cons_append, set, if_neg (fun hsame => hname.1 hsame.symm), ih hname.2]
    rfl

theorem lookup_concat (hname : name ∉ entries.map Prod.fst) :
    List.lookup name (entries ++ [(name, entry)]) = some entry := by
  rw [List.lookup_append, lookup_eq_none_iff_notMem.mpr hname, Option.none_or,
    List.lookup_cons_self]

/-- The header of a new table puts it at the end. -/
theorem openTable_of_new (hname : name ∉ entries.map Prod.fst) :
    openTable [name] entries = some (entries ++ [(name, .table .header [])]) := by
  have hset := set_append hname [] (.table .header [])
  rw [List.append_nil] at hset
  rw [openTable, changeAt, lookup_eq_none_iff_notMem.mpr hname]
  exact congrArg some hset

/-- An entry below the last header goes to the end of the last table. -/
theorem insertAt_of_new {key : String} (hname : name ∉ entries.map Prod.fst)
    (hkey : key ∉ table.map Prod.fst) :
    insertAt [key] value [name] (entries ++ [(name, .table .header table)]) =
      some (entries ++ [(name, .table .header (table ++ [(key, .value value)]))]) := by
  have hinsert : insert [key] value table = some (table ++ [(key, .value value)]) := by
    rw [insert, List.getLast?_singleton]
    dsimp only
    rw [List.dropLast_singleton, insertDotted, lookup_eq_none_iff_notMem.mpr hkey]
    rfl
  rw [insertAt, if_neg (by simp), changeAt, lookup_concat hname]
  dsimp only
  rw [hinsert, Option.map_some, set_append hname, set, if_pos rfl]

/-- The entries of a table that holds nothing but values. -/
def ofValues (entries : List (String × Value)) : Entries :=
  entries.map fun entry => (entry.1, .value entry.2)

theorem values_ofValues (entries : List (String × Value)) : values (ofValues entries) = entries := by
  rw [values_eq_map, ofValues, List.map_map]
  exact List.map_id entries

theorem map_fst_ofValues (entries : List (String × Value)) :
    (ofValues entries).map Prod.fst = entries.map Prod.fst := by
  rw [ofValues, List.map_map]
  rfl

end Entries

namespace Document

open Entries (ofValues)

variable {earlier : Entries}

/-- The entries of a section come into the table that its header opened, one after the other. -/
theorem foldlM_keyValues {entries : List (String × Value)} (table : List (String × Value))
    (hname : name ∉ earlier.map Prod.fst) (hdistinct : ((table ++ entries).map Prod.fst).Nodup) :
    (entries.map fun entry => Statement.keyValue [entry.1] entry.2).foldlM add
        ⟨earlier ++ [(name, .table .header (ofValues table))], [name]⟩ =
      some ⟨earlier ++ [(name, .table .header (ofValues (table ++ entries)))], [name]⟩ := by
  induction entries generalizing table with
  | nil => rw [List.append_nil]; rfl
  | cons entry entries ih =>
    have hkey : entry.1 ∉ (ofValues table).map Prod.fst := by
      rw [Entries.map_fst_ofValues]
      rw [List.map_append, List.nodup_append] at hdistinct
      exact fun hmem => hdistinct.2.2 _ hmem entry.1 List.mem_cons_self rfl
    have hadd : add ⟨earlier ++ [(name, .table .header (ofValues table))], [name]⟩
        (.keyValue [entry.1] entry.2) =
          some ⟨earlier ++ [(name, .table .header (ofValues (table ++ [entry])))], [name]⟩ := by
      rw [add, Entries.insertAt_of_new hname hkey, ofValues, ofValues, List.map_append]
      rfl
    rw [List.append_cons table entry entries] at hdistinct ⊢
    rw [List.map_cons, List.foldlM_cons, hadd, Option.bind_eq_bind, Option.bind_some]
    exact ih _ hdistinct

/-- What a section adds to a document. -/
def sectionEntry (part : Section) : String × Entry :=
  (part.name, .table .header (ofValues part.entries))

/-- The statements of a section add its table. -/
theorem foldlM_section {part : Section} {header : List String}
    (hname : part.name ∉ earlier.map Prod.fst) (hdistinct : (part.entries.map Prod.fst).Nodup) :
    part.statements.foldlM add ⟨earlier, header⟩ =
      some ⟨earlier ++ [sectionEntry part], [part.name]⟩ := by
  rw [Section.statements, List.foldlM_cons, add, Entries.openTable_of_new hname, Option.map_some,
    Option.bind_eq_bind, Option.bind_some]
  exact foldlM_keyValues [] hname hdistinct

/-- The statements of several sections add their tables in order. -/
theorem foldlM_sections {parts : List Section} (earlier : Entries) (header : List String)
    (hnames : (earlier.map Prod.fst ++ parts.map Section.name).Nodup)
    (hdistinct : ∀ part ∈ parts, (part.entries.map Prod.fst).Nodup) :
    ∃ last, (parts.flatMap Section.statements).foldlM add ⟨earlier, header⟩ =
      some ⟨earlier ++ parts.map sectionEntry, last⟩ := by
  induction parts generalizing earlier header with
  | nil => exact ⟨header, by rw [List.map_nil, List.append_nil]; rfl⟩
  | cons part parts ih =>
    rw [List.forall_mem_cons] at hdistinct
    have hname : part.name ∉ earlier.map Prod.fst := by
      rw [List.nodup_append] at hnames
      exact fun hmem => hnames.2.2 _ hmem part.name List.mem_cons_self rfl
    obtain ⟨last, hrest⟩ := ih (earlier ++ [sectionEntry part]) [part.name]
      (by simpa [sectionEntry] using hnames) hdistinct.2
    refine ⟨last, ?_⟩
    rw [List.flatMap_cons, List.foldlM_append, foldlM_section hname hdistinct.1,
      Option.bind_eq_bind, Option.bind_some, hrest, List.append_assoc]
    rfl

end Document

/-- The tables that were added hold what the sections hold. -/
theorem values_sectionEntries (parts : List Section) :
    Entries.values (parts.map Document.sectionEntry) = tables parts := by
  rw [Entries.values_eq_map, List.map_map, tables]
  refine List.map_congr_left fun part _ => ?_
  change (part.name, Value.table (Entries.values (Entries.ofValues part.entries))) = _
  rw [Entries.values_ofValues]

theorem IsPlain.distinct (hvalue : IsPlain value) : value.Distinct := by
  cases hvalue with
  | string text => exact .string text
  | natural hn => exact .integer _

/-- The tables of sections with different names have no key twice. -/
theorem distinct_tables {parts : List Section} (hparts : ∀ part ∈ parts, part.IsPlain)
    (hnames : (parts.map Section.name).Nodup) : (Value.table (tables parts)).Distinct := by
  refine .table ?_ (List.forall_mem_map.mpr fun part hpart => ?_)
  · rwa [tables, List.map_map]
  · have hplain := hparts part hpart
    exact .table hplain.distinct fun entry hentry => (hplain.values entry hentry).distinct

/-- Sections with names of their own are read back from the document they are written to. -/
theorem parse?_render {parts : List Section} (hparts : ∀ part ∈ parts, part.IsPlain)
    (hnames : (parts.map Section.name).Nodup) : parse? (render parts) = some (tables parts) := by
  have hread := reads_sections hparts
  obtain ⟨last, hbuild⟩ := Document.foldlM_sections [] [] hnames
    fun part hpart => (hparts part hpart).distinct
  have hmark : ∀ more, join ['\n'] (parts.map Section.chars) ≠ '\uFEFF' :: more := by
    rcases parts with _ | ⟨part, _ | ⟨next, parts⟩⟩ <;> simp [join, Section.chars]
  rw [parse?, render, String.toList_ofList]
  split
  · next more hsame => exact absurd hsame (hmark more)
  · rw [hread _ (Nat.lt_succ_self _), Option.bind_eq_bind, Option.bind_some, Document.start, hbuild]
    exact congrArg some (values_sectionEntries parts)

end CheckHarness.Toml
