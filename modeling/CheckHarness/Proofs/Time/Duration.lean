import CheckHarness.Proofs.Fault
import CheckHarness.Proofs.Text.Numeral
import CheckHarness.Time.Duration.Reader
import CheckHarness.Time.Duration.Writer

namespace CheckHarness.Duration

variable {total sum : Duration} {stage : Stage} {value count offset : Nat} {unit : Unit}
  {letters text rest : List Char}

theorem word_eq_ok {n : Nat} (hn : n < UInt64.size) : word n = .ok n := by
  rw [word, if_pos hn]

/-- Adding a part gives the span whose length is the sum, if there is such a span. -/
theorem addPart_eq_ok {seconds nanoseconds : Nat} (hnanoseconds : nanoseconds < 1000000000)
    (hsum : sum.nanoseconds = total.nanoseconds + seconds * 1000000000 + nanoseconds) :
    addPart total seconds nanoseconds = .ok sum := by
  have hbelow : total.subsecond + nanoseconds < UInt64.size :=
    Nat.lt_of_lt_of_le (Nat.add_lt_add total.subsecond_lt hnanoseconds) (by decide)
  have hparts : (total.seconds + seconds) * 1000000000 + (total.subsecond + nanoseconds) =
      sum.nanoseconds := by
    rw [Nat.add_mul, Nat.add_add_add_comm, seconds_subsecond, ← Nat.add_assoc, hsum]
  have hrange : ofNanoseconds? sum.nanoseconds = some sum := by
    rw [ofNanoseconds?, dif_pos sum.inRange]
  rw [addPart, bind_eq_ok_iff]
  refine ⟨_, word_eq_ok hbelow, ?_⟩
  rw [hparts, hrange]

theorem Unit.nanoseconds_pos (unit : Unit) : 0 < unit.nanoseconds := by
  cases unit <;> decide

theorem Unit.seconds_of_not_isSubsecond (hunit : unit.isSubsecond = false) :
    unit.nanoseconds / 1000000000 * 1000000000 = unit.nanoseconds := by
  cases unit <;> first | rfl | cases hunit

theorem Unit.second_le_of_not_isSubsecond (hunit : unit.isSubsecond = false) :
    1000000000 ≤ unit.nanoseconds := by
  cases unit <;> first | decide | cases hunit

/-- A count of units can be added to the total, with a sum in range; of a unit below the second
there is less than a second's worth. -/
structure Adds (total : Duration) (count : Nat) (unit : Unit) (sum : Duration) : Prop where
  small : unit.isSubsecond = true → count * unit.nanoseconds < 1000000000
  sum : sum.nanoseconds = total.nanoseconds + count * unit.nanoseconds

theorem Adds.count_lt (hadds : Adds total count unit sum) : count < UInt64.size := by
  apply Nat.lt_of_mul_lt_mul_right (a := unit.nanoseconds)
  cases hunit : unit.isSubsecond with
  | true =>
    calc count * unit.nanoseconds < 1000000000 := hadds.small hunit
      _ ≤ UInt64.size * 1 := by decide
      _ ≤ UInt64.size * unit.nanoseconds := Nat.mul_le_mul_left _ unit.nanoseconds_pos
  | false =>
    calc count * unit.nanoseconds ≤ sum.nanoseconds := hadds.sum ▸ Nat.le_add_left _ _
      _ < UInt64.size * 1000000000 := sum.inRange
      _ ≤ UInt64.size * unit.nanoseconds :=
        Nat.mul_le_mul_left _ (Unit.second_le_of_not_isSubsecond hunit)

/-- A part without a fraction that can be added is added. -/
theorem addWhole_eq_ok (hadds : Adds total count unit sum) :
    addWhole total count unit = .ok sum := by
  have hsum := hadds.sum
  unfold addWhole
  cases hunit : unit.isSubsecond with
  | true =>
    have hsmall := hadds.small hunit
    rw [if_pos rfl, bind_eq_ok_iff]
    refine ⟨_, word_eq_ok (Nat.lt_trans hsmall (by decide)), addPart_eq_ok hsmall ?_⟩
    rw [hsum, Nat.zero_mul, Nat.add_zero]
  | false =>
    have hseconds : count * (unit.nanoseconds / 1000000000) * 1000000000 =
        count * unit.nanoseconds := by
      rw [Nat.mul_assoc, Unit.seconds_of_not_isSubsecond hunit]
    have hword : count * (unit.nanoseconds / 1000000000) < UInt64.size := by
      apply Nat.lt_of_mul_lt_mul_right (a := 1000000000)
      rw [hseconds]
      exact Nat.lt_of_le_of_lt (hsum ▸ Nat.le_add_left _ _) sum.inRange
    rw [if_neg Bool.false_ne_true, bind_eq_ok_iff]
    refine ⟨_, word_eq_ok hword, addPart_eq_ok (by decide) ?_⟩
    rw [hseconds, hsum, Nat.add_zero]

/-- A part is added by the name of its unit as it was read, letter by letter. -/
theorem addUnit_eq_ok (hname : Unit.ofName? (String.ofList letters.reverse) = some unit)
    (hadds : Adds total count unit sum) : addUnit total count none letters = .ok sum := by
  simp only [addUnit, hname, addWhole_eq_ok hadds, bind, Except.bind, pure, Except.pure]

/-- Before the number of a part. -/
inductive Stage.BeforePart : Stage → Prop where
  | first (start : Nat) : BeforePart (.first start)
  | next (start : Nat) : BeforePart (.next start)

theorem toNat_of_isUnitLetter {c : Char} (hc : isUnitLetter c = true) :
    (65 ≤ c.toNat ∧ c.toNat ≤ 90) ∨ (97 ≤ c.toNat ∧ c.toNat ≤ 122) ∨ c.toNat = 181 := by
  unfold isUnitLetter Char.isAlpha Char.isUpper Char.isLower at hc
  simp only [Bool.or_eq_true, Bool.and_eq_true, decide_eq_true_eq, ge_iff_le,
    UInt32.le_iff_toNat_le] at hc
  rcases hc with (hupper | hlower) | rfl
  · exact .inl hupper
  · exact .inr (.inl hlower)
  · exact .inr (.inr rfl)

theorem isDigit_eq_false_of_isUnitLetter {c : Char} (hc : isUnitLetter c = true) :
    c.isDigit = false := by
  have hletter := toNat_of_isUnitLetter hc
  rw [Bool.eq_false_iff]
  intro hdigit
  have := Numeral.toNat_of_isDigit hdigit
  omega

theorem isBlank_eq_false_of_isUnitLetter {c : Char} (hc : isUnitLetter c = true) :
    Text.isBlank c = false := by
  have hletter := toNat_of_isUnitLetter hc
  have houtside : ∀ range ∈ Text.blankRanges, range.2 < 65 ∨ 90 < range.1 ∧ range.2 < 97 ∨
      122 < range.1 ∧ range.2 < 181 ∨ 181 < range.1 := by decide
  rw [Text.isBlank, Text.inRanges_eq_false_iff]
  intro range hrange hfrom
  have := houtside range hrange
  omega

/-- Digits are read to the number that they stand for. -/
theorem readFrom_digits (total : Duration) (offset : Nat) (rest : List Char)
    (hdigits : ∀ c ∈ text, c.isDigit = true)
    (hvalue : Nat.ofDigitChars 10 text value < UInt64.size) :
    ∃ later, readFrom total (.whole value) offset (text ++ rest) =
      readFrom total (.whole (Nat.ofDigitChars 10 text value)) later rest := by
  induction text generalizing value offset with
  | nil => exact ⟨offset, rfl⟩
  | cons c text ih =>
    rw [List.forall_mem_cons] at hdigits
    rw [Nat.ofDigitChars_cons] at hvalue ⊢
    have hnext : value * 10 + Numeral.digitValue c = 10 * value + (c.toNat - '0'.toNat) := by
      rw [Numeral.digitValue, Nat.mul_comm]
    have hword := word_eq_ok (Nat.lt_of_le_of_lt (Numeral.le_ofDigitChars text _) hvalue)
    obtain ⟨later, hlater⟩ := ih (offset + c.utf8Size) hdigits.2 hvalue
    refine ⟨later, hlater ▸ ?_⟩
    simp only [List.cons_append, readFrom, advance, hdigits.1, if_true, hnext, hword, bind,
      Except.bind, pure, Except.pure]

/-- Reading a number leaves it waiting for its unit. -/
theorem readFrom_number (total : Duration) (offset : Nat) (rest : List Char)
    (hstage : stage.BeforePart) (hvalue : value < UInt64.size) :
    ∃ later, readFrom total stage offset (Numeral.digits value ++ rest) =
      readFrom total (.whole value) later rest := by
  obtain ⟨c, text, hdigits⟩ := List.exists_cons_of_ne_nil (Numeral.digits_ne_nil value)
  have hvalue' := Numeral.ofDigitChars_digits value
  have hall : ∀ d ∈ Numeral.digits value, d.isDigit = true :=
    fun _ => Numeral.isDigit_of_mem_digits
  rw [hdigits, List.forall_mem_cons] at hall
  rw [hdigits, Nat.ofDigitChars_cons, Nat.mul_zero, Nat.zero_add] at hvalue'
  obtain ⟨later, hlater⟩ :=
    readFrom_digits total (offset + c.utf8Size) rest hall.2 (hvalue'.symm ▸ hvalue)
  rw [hvalue'] at hlater
  refine ⟨later, hlater ▸ ?_⟩
  cases hstage <;>
    simp only [hdigits, List.cons_append, readFrom, advance, hall.1, if_true, Numeral.digitValue,
      bind, Except.bind]

/-- Letters of a unit are kept, the last one first. -/
theorem readFrom_letters (total : Duration) (value : Nat) (letters : List Char) (offset : Nat)
    (rest : List Char) (hletters : ∀ c ∈ text, isUnitLetter c = true) :
    ∃ later, readFrom total (.unit value none letters) offset (text ++ rest) =
      readFrom total (.unit value none (text.reverse ++ letters)) later rest := by
  induction text generalizing letters offset with
  | nil => exact ⟨offset, rfl⟩
  | cons c text ih =>
    rw [List.forall_mem_cons] at hletters
    obtain ⟨later, hlater⟩ := ih (c :: letters) (offset + c.utf8Size) hletters.2
    rw [List.reverse_cons, List.append_assoc, List.singleton_append]
    refine ⟨later, hlater ▸ ?_⟩
    simp [readFrom, advance, hletters.1, isDigit_eq_false_of_isUnitLetter hletters.1,
      isBlank_eq_false_of_isUnitLetter hletters.1, bind, Except.bind]

/-- The name of a unit after its number is kept until the part ends. -/
theorem readFrom_name (total : Duration) (value offset : Nat) (rest : List Char) (hne : text ≠ [])
    (hletters : ∀ c ∈ text, isUnitLetter c = true) :
    ∃ later, readFrom total (.whole value) offset (text ++ rest) =
      readFrom total (.unit value none text.reverse) later rest := by
  obtain ⟨c, text, rfl⟩ := List.exists_cons_of_ne_nil hne
  rw [List.forall_mem_cons] at hletters
  obtain ⟨later, hlater⟩ :=
    readFrom_letters total value [c] (offset + c.utf8Size) rest hletters.2
  rw [List.reverse_cons]
  refine ⟨later, hlater ▸ ?_⟩
  simp [readFrom, advance, hletters.1, isDigit_eq_false_of_isUnitLetter hletters.1,
    isBlank_eq_false_of_isUnitLetter hletters.1, bind, Except.bind]

/-- A blank completes a part. -/
theorem readFrom_blank (hadd : addUnit total value none letters = .ok sum) :
    readFrom total (.unit value none letters) offset (' ' :: rest) =
      readFrom sum (.next (offset + 1)) (offset + 1) rest := by
  have hblank : Text.isBlank ' ' = true := by decide
  have hsize : ' '.utf8Size = 1 := by decide
  have hdigit : ' '.isDigit = false := by decide
  simp [readFrom, advance, hblank, hsize, hdigit, hadd, bind, Except.bind, pure, Except.pure]

/-- A name that a unit is read by. -/
structure Unit.HasName (unit : Unit) (name : String) : Prop where
  ne_nil : name.toList ≠ []
  letters : ∀ c ∈ name.toList, isUnitLetter c = true
  read : Unit.ofName? name = some unit

namespace PartFormat

/-- The name of the unit after a count. -/
def nameOf (format : PartFormat) (count : Nat) : String :=
  format.name ++ if format.plural && 1 < count then "s" else ""

/-- The formats leave nothing of a number below the limit, and what they write can be read: the
names are names of their units, and of a unit below the second there is less than a second left. -/
def Exhausts : List PartFormat → Nat → Prop
  | [], limit => limit ≤ 1
  | format :: formats, limit =>
    (∀ count, format.unit.HasName (format.nameOf count)) ∧
      (format.unit.isSubsecond = true → limit ≤ 1000000000) ∧
        Exhausts formats format.unit.nanoseconds

/-- The name that a part is written with, singular or plural, is read as its unit. -/
theorem hasName_nameOf {format : PartFormat} (hone : format.unit.HasName format.name)
    (hmany : format.plural = true → format.unit.HasName (format.name ++ "s")) (count : Nat) :
    format.unit.HasName (format.nameOf count) := by
  unfold nameOf
  split
  · next hplural => exact hmany (Bool.and_eq_true_iff.mp hplural).1
  · rwa [String.append_empty]

end PartFormat

open PartFormat (Exhausts)

variable {formats : List PartFormat} {limit n : Nat}

theorem toList_writePart (format : PartFormat) (count : Nat) :
    (writePart format count).toList = Numeral.digits count ++ (format.nameOf count).toList := by
  rw [writePart, PartFormat.nameOf, String.append_assoc, String.toList_append, String.toList_ofList]

/-- Only a span of no length is written without parts. -/
theorem writeParts_eq_nil_iff (hformats : Exhausts formats limit) (hn : n < limit) :
    writeParts formats n = [] ↔ n = 0 := by
  induction formats generalizing n limit with
  | nil =>
    have hlimit : limit ≤ 1 := hformats
    exact ⟨fun _ => by omega, fun _ => rfl⟩
  | cons format formats ih =>
    obtain ⟨-, -, hrest⟩ := hformats
    have hpos := format.unit.nanoseconds_pos
    have hmod := ih hrest (Nat.mod_lt n hpos)
    rw [writeParts]
    split
    · next hcount => rw [hmod, Nat.mod_eq_of_lt (Nat.lt_of_div_eq_zero hpos hcount)]
    · next hcount =>
      refine ⟨nofun, ?_⟩
      rintro rfl
      exact absurd (Nat.zero_div _) hcount

/-- A number and a unit are read so that only a blank or the end is missing for the part. -/
theorem readFrom_part {name : String} (offset : Nat) (rest : List Char)
    (hname : unit.HasName name) (hstage : stage.BeforePart)
    (hadds : Adds total count unit sum) :
    addUnit total count none name.toList.reverse = .ok sum ∧
      ∃ later, readFrom total stage offset (Numeral.digits count ++ name.toList ++ rest) =
        readFrom total (.unit count none name.toList.reverse) later rest := by
  constructor
  · refine addUnit_eq_ok ?_ hadds
    rw [List.reverse_reverse, String.ofList_toList]
    exact hname.read
  · rw [List.append_assoc]
    obtain ⟨middle, hmiddle⟩ :=
      readFrom_number total offset (name.toList ++ rest) hstage hadds.count_lt
    obtain ⟨later, hlater⟩ := readFrom_name total count middle rest hname.ne_nil hname.letters
    exact ⟨later, hmiddle.trans hlater⟩

/-- The last part is added when the text ends. -/
theorem readFrom_last_part {name : String} (hname : unit.HasName name) (hstage : stage.BeforePart)
    (hadds : Adds total count unit sum) :
    readFrom total stage offset (Numeral.digits count ++ name.toList) = .ok sum := by
  obtain ⟨hadd, later, hpart⟩ := readFrom_part offset [] hname hstage hadds
  rw [List.append_nil] at hpart
  exact hpart.trans hadd

/-- A part is added when a blank ends it. -/
theorem readFrom_part_blank {name : String} (offset : Nat) (rest : List Char)
    (hname : unit.HasName name) (hstage : stage.BeforePart)
    (hadds : Adds total count unit sum) :
    ∃ later, readFrom total stage offset (Numeral.digits count ++ name.toList ++ ' ' :: rest) =
      readFrom sum (.next later) later rest := by
  obtain ⟨hadd, later, hpart⟩ := readFrom_part offset (' ' :: rest) hname hstage hadds
  exact ⟨later + 1, hpart.trans (readFrom_blank hadd)⟩

/-- The parts of a number that is not zero are read to the number, wherever a part may begin. -/
theorem readFrom_writeParts (hformats : Exhausts formats limit) (hn : n < limit) (hpos : n ≠ 0)
    (hstage : stage.BeforePart) (hsum : sum.nanoseconds = total.nanoseconds + n) :
    readFrom total stage offset (" ".intercalate (writeParts formats n)).toList = .ok sum := by
  -- On the formats: what a unit leaves over is below its length, which is the limit for the rest.
  have hrange := sum.inRange
  rw [String.toList_intercalate]
  induction formats generalizing n limit total stage offset with
  | nil => exact absurd ((writeParts_eq_nil_iff hformats hn).mp rfl) hpos
  | cons format formats ih =>
    obtain ⟨hname, hsubsecond, hrest⟩ := hformats
    have hmod := Nat.mod_lt n format.unit.nanoseconds_pos
    have hdiv := Nat.div_add_mod' n format.unit.nanoseconds
    rw [writeParts]
    split
    · next hcount =>
      rw [Nat.mod_eq_of_lt (Nat.lt_of_div_eq_zero format.unit.nanoseconds_pos hcount)] at hmod ⊢
      exact ih hrest hmod hpos hstage hsum
    · next hcount =>
      generalize n / format.unit.nanoseconds = count at *
      generalize n % format.unit.nanoseconds = remainder at *
      obtain ⟨next, hnext⟩ : ∃ next : Duration,
          next.nanoseconds = total.nanoseconds + count * format.unit.nanoseconds :=
        ⟨⟨_, by omega⟩, rfl⟩
      have hadds : Adds total count format.unit next :=
        ⟨fun hunit => by have := hsubsecond hunit; omega, hnext⟩
      by_cases hzero : remainder = 0
      · obtain rfl : next = sum := ext_nanoseconds (by omega)
        rw [(writeParts_eq_nil_iff hrest hmod).mpr hzero, List.map_cons, List.map_nil,
          List.intercalate_singleton, toList_writePart]
        exact readFrom_last_part (hname count) hstage hadds
      · have hmore := mt (writeParts_eq_nil_iff hrest hmod).mp hzero
        rw [List.map_cons, List.intercalate_cons_of_ne_nil (by simpa using hmore), toList_writePart,
          List.append_assoc]
        obtain ⟨later, hpart⟩ := readFrom_part_blank offset _ (hname count) hstage hadds
        exact hpart.trans (ih hrest hmod hzero (.next later) (by omega))

instance (unit : Unit) (name : String) : Decidable (unit.HasName name) :=
  decidable_of_iff (name.toList ≠ [] ∧ name.toList.all isUnitLetter = true ∧
      Unit.ofName? name = some unit)
    ⟨fun ⟨hne, hletters, hread⟩ => ⟨hne, List.all_eq_true.mp hletters, hread⟩,
      fun ⟨hne, hletters, hread⟩ => ⟨hne, List.all_eq_true.mpr hletters, hread⟩⟩

theorem hasName_nameOf_of_mem :
    ∀ format ∈ partFormats, ∀ count, format.unit.HasName (format.nameOf count) := by
  have hnames : ∀ format ∈ partFormats, format.unit.HasName format.name ∧
      (format.plural = true → format.unit.HasName (format.name ++ "s")) := by
    decide +kernel
  intro format hformat
  exact PartFormat.hasName_nameOf (hnames format hformat).1 (hnames format hformat).2

/-- The written parts make up every span there is. -/
theorem exhausts_partFormats : Exhausts partFormats (18446744073709551616 * 1000000000) := by
  have hname := hasName_nameOf_of_mem
  simp only [partFormats, List.forall_mem_cons] at hname
  simp [partFormats, Exhausts, hname, Unit.isSubsecond, Unit.nanoseconds]

/-- A span of time is read back from its text. -/
theorem parse_write (d : Duration) : parse d.write = .ok d := by
  by_cases hzero : d.nanoseconds = 0
  · obtain rfl : d = zero := ext_nanoseconds hzero
    decide +kernel
  · have hread : readFrom zero (.first 0) 0 d.write.toList = .ok d := by
      rw [write, isZero, if_neg (by simpa using hzero)]
      exact readFrom_writeParts exhausts_partFormats d.inRange hzero (.first 0) (Nat.zero_add _).symm
    have hlone : d.write ≠ "0" := by
      intro hlone
      rw [hlone] at hread
      cases hread
    rw [parse, if_neg hlone, hread]

/-- A character that spans of time are written with. -/
def IsSpanChar (c : Char) : Prop :=
  c.isDigit = true ∨ Text.isBlank c = true ∨ isUnitLetter c = true ∨ c = '.'

theorem isSpanChar_of_advance {c : Char} {result : Duration × Stage}
    (hread : advance total stage offset c = .ok result) : IsSpanChar c := by
  by_contra hother
  simp only [IsSpanChar, not_or, Bool.not_eq_true] at hother
  obtain ⟨hdigit, hblank, hletter, hpoint⟩ := hother
  cases stage <;> simp [advance, hdigit, hblank, hletter, hpoint] at hread

theorem isSpanChar_of_readFrom (hread : readFrom total stage offset text = .ok sum) :
    ∀ c ∈ text, IsSpanChar c := by
  induction text generalizing total stage offset with
  | nil => exact List.forall_mem_nil _
  | cons c text ih =>
    obtain ⟨next, hadvance, hrest⟩ := bind_eq_ok_iff.mp hread
    exact List.forall_mem_cons.mpr ⟨isSpanChar_of_advance hadvance, ih hrest⟩

/-- A text with any other character is not read. -/
theorem isSpanChar_of_parse {text : String} (hread : parse text = .ok sum) :
    ∀ c ∈ text.toList, IsSpanChar c := by
  unfold parse at hread
  split at hread
  · next hzero =>
    rw [hzero]
    simp [IsSpanChar]
  · exact isSpanChar_of_readFrom hread

end CheckHarness.Duration
