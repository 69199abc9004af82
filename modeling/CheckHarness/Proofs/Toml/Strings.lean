import CheckHarness.Toml.Printer
import Mathlib.Data.List.Basic
import Mathlib.Tactic.SplitIfs

namespace CheckHarness.Toml

variable {c : Char} {piece text body read rest : List Char}

theorem cons_ne_cons {first mark : Char} (hne : first ≠ mark) (more : List Char) :
    first :: rest ≠ mark :: more :=
  fun hsame => hne (List.cons.inj hsame).1

/-- The ways to write a character in a basic string. -/
inductive SpellsBasic (c : Char) : List Char → Prop where
  | plain (hquote : c ≠ '"') (hbackslash : c ≠ '\\') (hc : isCommentChar c = true) :
    SpellsBasic c [c]
  | short {letter} (hletter : escape? letter = some c) : SpellsBasic c ['\\', letter]
  | code {first second third fourth} (hcode : codePoint? [first, second, third, fourth] = some c) :
    SpellsBasic c ['\\', 'u', first, second, third, fourth]

/-- In a string of several lines a line end may stand for itself, too. -/
inductive SpellsBasicLines (c : Char) : List Char → Prop where
  | inLine {chars} (hpiece : SpellsBasic c chars) : SpellsBasicLines c chars
  | lineEnd (hc : c = '\n') : SpellsBasicLines c [c]

/-- A character of a literal string of several lines. -/
inductive SpellsLiteralLines (c : Char) : List Char → Prop where
  | itself (hquote : c ≠ '\'') (hc : isCommentChar c = true ∨ c = '\n') : SpellsLiteralLines c [c]

/-- These are all the letters that stand for a character after a backslash. -/
theorem mem_letters_of_escape? {letter : Char} (hletter : escape? letter = some c) :
    letter ∈ ['b', 't', 'n', 'f', 'r', '"', '\\'] := by
  unfold escape? at hletter
  split at hletter
  all_goals first | decide | cases hletter

/-- A spelled character is read as the character, in a basic string. -/
theorem SpellsBasic.basicString_append (hpiece : SpellsBasic c piece) :
    basicString read (piece ++ rest) = basicString (c :: read) rest := by
  cases hpiece with
  | plain hquote hbackslash hc =>
    rw [List.singleton_append, basicString, if_pos hc]
    · exact fun hsame => hquote hsame
    · exact fun _ _ _ _ _ hsame => absurd hsame hbackslash
    · exact fun _ _ _ _ _ _ _ _ _ hsame => absurd hsame hbackslash
    · exact fun _ _ hsame => absurd hsame hbackslash
  | @short letter hletter =>
    have hmem := mem_letters_of_escape? hletter
    change basicString read ('\\' :: letter :: rest) = _
    rw [basicString, hletter]
    · rfl
    · rintro _ _ _ _ _ rfl
      exact absurd hmem (by decide)
    · rintro _ _ _ _ _ _ _ _ _ rfl
      exact absurd hmem (by decide)
  | @code first second third fourth hcode =>
    change basicString read ('\\' :: 'u' :: first :: second :: third :: fourth :: rest) = _
    rw [basicString, hcode]
    rfl

theorem joinsLines_of_escape? {letter : Char} (hletter : escape? letter = some c) :
    joinsLines (letter :: rest) = false := by
  unfold escape? at hletter
  split at hletter
  all_goals first | rfl | cases hletter

theorem SpellsBasicLines.basicLines_append (hpiece : SpellsBasicLines c piece) :
    basicLines false read (piece ++ rest) = basicLines false (c :: read) rest := by
  cases hpiece with
  | lineEnd hc =>
    subst hc
    rw [List.singleton_append, basicLines]
    rfl
  | inLine hpiece =>
    cases hpiece with
    | plain hquote hbackslash hc =>
      rw [List.singleton_append, basicLines, if_neg (by simp), if_pos hc]
      · exact fun _ hsame => absurd hsame hquote
      · exact fun _ hsame => absurd hsame hquote
      · exact fun _ hsame => absurd hsame hquote
      · rintro _ rfl
        exact absurd hc (by decide)
      · rintro rfl
        exact absurd hc (by decide)
      · exact fun _ _ _ _ _ hsame => absurd hsame hbackslash
      · exact fun _ _ _ _ _ _ _ _ _ hsame => absurd hsame hbackslash
      · exact fun _ _ hsame => absurd hsame hbackslash
    | @short letter hletter =>
      have hmem := mem_letters_of_escape? hletter
      change basicLines false read ('\\' :: letter :: rest) = _
      rw [basicLines, joinsLines_of_escape? hletter, hletter]
      · rfl
      · rintro _ _ _ _ _ rfl
        exact absurd hmem (by decide)
      · rintro _ _ _ _ _ _ _ _ _ rfl
        exact absurd hmem (by decide)
    | @code first second third fourth hcode =>
      change basicLines false read ('\\' :: 'u' :: first :: second :: third :: fourth :: rest) = _
      rw [basicLines, hcode]
      rfl

theorem SpellsLiteralLines.literalLines_append (hpiece : SpellsLiteralLines c piece) :
    literalLines read (piece ++ rest) = literalLines (c :: read) rest := by
  cases hpiece with
  | itself hquote hc =>
    rw [List.singleton_append]
    rcases hc with hc | rfl
    · rw [literalLines, if_pos hc]
      · exact fun _ hsame => absurd hsame hquote
      · exact fun _ hsame => absurd hsame hquote
      · exact fun _ hsame => absurd hsame hquote
      · rintro _ rfl
        exact absurd hc (by decide)
      · rintro rfl
        exact absurd hc (by decide)
    · rw [literalLines]

/-- The ways to write a text in a string of several lines, given how many quotation marks stand
just before: two may follow each other, and whatever else there is keeps them apart. -/
inductive Spells (spell : Char → List Char → Prop) (quote : Char) :
    Nat → List Char → List Char → Prop where
  | nil {quotes} : Spells spell quote quotes [] []
  | quote {quotes text body} (hquotes : quotes < 2) (hrest : Spells spell quote (quotes + 1) text body) :
    Spells spell quote quotes (quote :: text) (quote :: body)
  | piece {quotes c piece text body} (hpiece : spell c piece) (hrest : Spells spell quote 0 text body) :
    Spells spell quote quotes (c :: text) (piece ++ body)

/-- How a string of several lines is read: the closing marks after up to two others, a mark that
no two others follow, and every other character in each way that it may be written. -/
structure ReadsLines (reader : List Char → List Char → Option (List Char × List Char))
    (spell : Char → List Char → Prop) (quote : Char) : Prop where
  close : ∀ read rest, (∀ more, rest ≠ quote :: more) →
    reader read (quote :: quote :: quote :: rest) = some (read.reverse, rest)
  close_one : ∀ read rest, (∀ more, rest ≠ quote :: more) →
    reader read (quote :: quote :: quote :: quote :: rest) = some ((quote :: read).reverse, rest)
  close_two : ∀ read rest,
    reader read (quote :: quote :: quote :: quote :: quote :: rest) =
      some ((quote :: quote :: read).reverse, rest)
  single : ∀ read rest, (∀ more, rest ≠ quote :: quote :: more) →
    reader read (quote :: rest) = reader (quote :: read) rest
  append : ∀ {c piece}, spell c piece → ∀ read rest,
    reader read (piece ++ rest) = reader (c :: read) rest
  apart : ∀ {c piece}, spell c piece → ∃ first more, piece = first :: more ∧ first ≠ quote ∧
    (c ≠ '\n' → first ≠ '\n' ∧ first ≠ '\r')
  mark : quote ≠ '\n' ∧ quote ≠ '\r'

section ReadsLines

variable {reader : List Char → List Char → Option (List Char × List Char)}
  {spell : Char → List Char → Prop} {quote : Char} {quotes : Nat}

/-- Where a character begins, there is no quotation mark. -/
theorem ReadsLines.append_ne (hreads : ReadsLines reader spell quote) (hpiece : spell c piece)
    (more : List Char) : piece ++ rest ≠ quote :: more := by
  obtain ⟨first, others, rfl, hfirst, -⟩ := hreads.apart hpiece
  exact cons_ne_cons hfirst more

/-- Nothing is skipped where no line ends. -/
theorem skipFirstLineEnd_of_ne (hnewline : ∀ more, text ≠ '\n' :: more)
    (hreturn : ∀ more, text ≠ '\r' :: more) : skipFirstLineEnd text = text := by
  rw [skipFirstLineEnd, lineEnd?]
  · rfl
  · exact hnewline
  · exact fun more => hreturn ('\n' :: more)

/-- A string that holds a line end begins on a line of its own, and no other string does. -/
theorem Spells.skipFirstLineEnd (hreads : ReadsLines reader spell quote)
    (hspells : Spells spell quote quotes text body) :
    skipFirstLineEnd ((if text.contains '\n' then ['\n'] else []) ++ (body ++ quote :: rest)) =
      body ++ quote :: rest := by
  split
  · rfl
  · next hnewline =>
    rw [List.nil_append]
    have hfirst : ∃ first more, body ++ quote :: rest = first :: more ∧
        first ≠ '\n' ∧ first ≠ '\r' := by
      cases hspells with
      | nil => exact ⟨quote, rest, rfl, hreads.mark⟩
      | quote => exact ⟨quote, _, rfl, hreads.mark⟩
      | piece hpiece hrest =>
        obtain ⟨first, more, rfl, -, hfirst⟩ := hreads.apart hpiece
        refine ⟨first, _, rfl, hfirst ?_⟩
        rintro rfl
        simp at hnewline
    obtain ⟨first, more, hbody, hline, hreturn⟩ := hfirst
    rw [hbody]
    exact skipFirstLineEnd_of_ne (cons_ne_cons hline) (cons_ne_cons hreturn)

/-- A text is read in whichever way it is written. -/
theorem Spells.read_eq (hreads : ReadsLines reader spell quote) (hquotes : quotes ≤ 2)
    (hrest : ∀ more, rest ≠ quote :: more) (hspells : Spells spell quote quotes text body) :
    reader read (body ++ (quote :: quote :: quote :: rest)) = some (read.reverse ++ text, rest) := by
  -- The marks before the closing three are read with these. So the cases are the next mark with
  -- all that could still belong to the same row.
  induction hspells generalizing read with
  | nil => rw [List.nil_append, List.append_nil, hreads.close read rest hrest]
  | @piece quotes c piece text body hpiece hbody ih =>
    rw [List.append_assoc, hreads.append hpiece, ih (by omega), List.reverse_cons,
      List.append_assoc, List.singleton_append]
  | @quote quotes text body hfew hbody ih =>
    have hlater := @ih (quote :: read) (by omega)
    rw [List.reverse_cons, List.append_assoc, List.singleton_append] at hlater
    rw [List.cons_append]
    cases hbody with
    | nil => rw [List.nil_append, hreads.close_one read rest hrest, List.reverse_cons]
    | piece hpiece hbody =>
      rw [← hlater, List.append_assoc]
      apply hreads.single
      intro more
      exact hreads.append_ne hpiece (quote :: more)
    | @quote _ text body hfew' hbody =>
      cases hbody with
      | nil =>
        rw [List.cons_append, List.nil_append, hreads.close_two, List.reverse_cons,
          List.reverse_cons, List.append_assoc]
        rfl
      | quote => omega
      | piece hpiece hbody =>
        rw [← hlater, List.cons_append, List.append_assoc]
        apply hreads.single
        intro more hsame
        exact hreads.append_ne hpiece more (List.cons.inj hsame).2

/-- A text that is written in lines of its own is read from there on. -/
theorem Spells.read_opened (hreads : ReadsLines reader spell quote)
    (hspells : Spells spell quote 0 text body) (hrest : ∀ more, rest ≠ quote :: more) :
    reader [] (Toml.skipFirstLineEnd ((if text.contains '\n' then ['\n'] else []) ++
      (body ++ quote :: quote :: quote :: rest))) = some (text, rest) := by
  rw [hspells.skipFirstLineEnd hreads, hspells.read_eq hreads (Nat.zero_le 2) hrest]
  rfl

end ReadsLines

/-- A spelled character does not begin with a quotation mark or a line end. -/
theorem SpellsBasic.apart (hpiece : SpellsBasic c piece) :
    ∃ first more, piece = first :: more ∧ first ≠ '"' ∧ first ≠ '\n' ∧ first ≠ '\r' := by
  cases hpiece with
  | plain hquote hbackslash hc =>
    refine ⟨c, [], rfl, hquote, ?_, ?_⟩ <;>
    · rintro rfl
      exact absurd hc (by decide)
  | short hletter => exact ⟨'\\', _, rfl, by decide⟩
  | code hcode => exact ⟨'\\', _, rfl, by decide⟩

/-- Basic strings of several lines are read as their spelling says. -/
theorem readsLines_basicLines : ReadsLines (basicLines false) SpellsBasicLines '"' where
  close read rest hrest := by
    rw [basicLines]
    · exact fun more hsame => hrest _ hsame
    · exact hrest
  close_one read rest hrest := by rw [basicLines]; exact hrest
  close_two read rest := by rw [basicLines]
  single read rest hrest := by
    rw [basicLines]
    · rfl
    · exact fun more _ hsame => hrest _ hsame
    · exact fun more _ hsame => hrest _ hsame
    · exact fun more _ hsame => hrest _ hsame
    · exact fun _ hsame => absurd hsame (by decide)
    · exact fun hsame => absurd hsame (by decide)
    · exact fun _ _ _ _ _ hsame => absurd hsame (by decide)
    · exact fun _ _ _ _ _ _ _ _ _ hsame => absurd hsame (by decide)
    · exact fun _ _ hsame => absurd hsame (by decide)
  append hpiece read rest := hpiece.basicLines_append
  apart hpiece := by
    cases hpiece with
    | inLine hpiece =>
      obtain ⟨first, more, hpiece, hquote, hfirst⟩ := hpiece.apart
      exact ⟨first, more, hpiece, hquote, fun _ => hfirst⟩
    | lineEnd hc =>
      subst hc
      exact ⟨'\n', [], rfl, by decide, fun hne => absurd rfl hne⟩
  mark := by decide

theorem readsLines_literalLines : ReadsLines literalLines SpellsLiteralLines '\'' where
  close read rest hrest := by
    rw [literalLines]
    · exact fun more hsame => hrest _ hsame
    · exact hrest
  close_one read rest hrest := by rw [literalLines]; exact hrest
  close_two read rest := by rw [literalLines]
  single read rest hrest := by
    rw [literalLines]
    · rfl
    · exact fun more _ hsame => hrest _ hsame
    · exact fun more _ hsame => hrest _ hsame
    · exact fun more _ hsame => hrest _ hsame
    · exact fun _ hsame => absurd hsame (by decide)
    · exact fun hsame => absurd hsame (by decide)
  append hpiece read rest := hpiece.literalLines_append
  apart hpiece := by
    cases hpiece with
    | itself hquote hc =>
      refine ⟨_, [], rfl, hquote, fun hnewline => ⟨hnewline, ?_⟩⟩
      rintro rfl
      exact absurd (hc.resolve_right hnewline) (by decide)
  mark := by decide

/-- The code that a control character is written with stands for it. -/
theorem codePoint?_control (hc : c.toNat < 128) :
    codePoint? ['0', '0', (Hex.digit (c.toNat / 16)).toUpper, (Hex.digit (c.toNat % 16)).toUpper] =
      some c := by
  have hall : ∀ n < 128, codePoint? ['0', '0', (Hex.digit (n / 16)).toUpper,
      (Hex.digit (n % 16)).toUpper] = some (Char.ofNat n) := by
    decide +kernel
  rw [hall c.toNat hc, Char.ofNat_toNat]

/-- A character that is no quotation mark is written in one of the ways to do so, whatever stands
around it. -/
theorem escapeChars_cons (lines : Bool) (hquote : c ≠ '"') :
    ∃ piece, (SpellsBasic c piece ∨ lines = true ∧ c = '\n' ∧ piece = [c]) ∧
      ∀ quotes text, escapeChars lines quotes (c :: text) = piece ++ escapeChars lines 0 text := by
  by_cases hletter : c ∈ ['\x08', '\t', '\x0c', '\r', '\\']
  · simp only [List.mem_cons, List.not_mem_nil, or_false] at hletter
    rcases hletter with rfl | rfl | rfl | rfl | rfl
    · exact ⟨['\\', 'b'], .inl (.short rfl), fun _ _ => by simp [escapeChars]⟩
    · exact ⟨['\\', 't'], .inl (.short rfl), fun _ _ => by simp [escapeChars]⟩
    · exact ⟨['\\', 'f'], .inl (.short rfl), fun _ _ => by simp [escapeChars]⟩
    · exact ⟨['\\', 'r'], .inl (.short rfl), fun _ _ => by simp [escapeChars]⟩
    · exact ⟨['\\', '\\'], .inl (.short rfl), fun _ _ => by simp [escapeChars]⟩
  · simp only [List.mem_cons, List.not_mem_nil, or_false, not_or] at hletter
    obtain ⟨hbell, htab, hfeed, hreturn, hbackslash⟩ := hletter
    by_cases hnewline : c = '\n'
    · subst hnewline
      cases lines with
      | false => exact ⟨['\\', 'n'], .inl (.short rfl), fun _ _ => by simp [escapeChars]⟩
      | true => exact ⟨['\n'], .inr ⟨rfl, rfl, rfl⟩, fun _ _ => by simp [escapeChars]⟩
    · by_cases hcontrol : c.toNat < 0x20 ∨ c.toNat = 0x7F
      · refine ⟨_, .inl (.code (codePoint?_control (by omega))), fun _ _ => ?_⟩
        simp [escapeChars, hquote, hbell, htab, hfeed, hreturn, hbackslash, hnewline, hcontrol]
      · have hc : isCommentChar c = true := by
          simp only [isCommentChar, Bool.or_eq_true, Bool.and_eq_true, decide_eq_true_eq, bne_iff_ne]
          omega
        refine ⟨[c], .inl (.plain hquote hbackslash hc), fun _ _ => ?_⟩
        simp [escapeChars, hquote, hbell, htab, hfeed, hreturn, hbackslash, hnewline, hcontrol]

/-- In a string of one line quotation marks are escaped like other characters. -/
theorem exists_spellsBasic (quotes : Nat) (c : Char) (text : List Char) :
    ∃ piece, SpellsBasic c piece ∧
      escapeChars false quotes (c :: text) = piece ++ escapeChars false 0 text := by
  by_cases hquote : c = '"'
  · subst hquote
    exact ⟨['\\', '"'], .short rfl, by simp [escapeChars]⟩
  · obtain ⟨piece, hpiece | ⟨hlines, -⟩, hwritten⟩ := escapeChars_cons false hquote
    · exact ⟨piece, hpiece, hwritten quotes text⟩
    · cases hlines

/-- A text written as a basic string is read back. -/
theorem basicString_escapeChars (quotes : Nat) :
    basicString read (escapeChars false quotes text ++ '"' :: rest) =
      some (read.reverse ++ text, rest) := by
  induction text generalizing read quotes with
  | nil => rw [escapeChars, List.nil_append, basicString, List.append_nil]
  | cons c text ih =>
    obtain ⟨piece, hpiece, hwritten⟩ := exists_spellsBasic quotes c text
    rw [hwritten, List.append_assoc, hpiece.basicString_append, ih, List.reverse_cons,
      List.append_assoc, List.singleton_append]

/-- A text written for several lines is spelled so. -/
theorem spells_escapeChars (quotes : Nat) (text : List Char) :
    Spells SpellsBasicLines '"' quotes text (escapeChars true quotes text) := by
  induction text generalizing quotes with
  | nil => exact .nil
  | cons c text ih =>
    by_cases hquote : c = '"'
    · subst hquote
      by_cases hfew : quotes < 2
      · rw [escapeChars, if_pos rfl, if_pos rfl, if_pos hfew]
        exact .quote hfew (ih _)
      · rw [escapeChars, if_pos rfl, if_pos rfl, if_neg hfew]
        have hpiece : SpellsBasic '"' ['\\', '"'] := .short rfl
        exact .piece (.inLine hpiece) (ih 0)
    · obtain ⟨piece, hpiece, hwritten⟩ := escapeChars_cons true hquote
      rw [hwritten]
      refine .piece ?_ (ih 0)
      rcases hpiece with hpiece | ⟨-, hnewline, rfl⟩
      · exact .inLine hpiece
      · exact .lineEnd hnewline

/-- The longest run is at least as long as the one it begins with. -/
theorem le_longestRun (c : Char) (current : Nat) (text : List Char) :
    current ≤ Quoting.longestRun c current text := by
  induction text generalizing current with
  | nil => exact Nat.le_refl current
  | cons other text ih =>
    rw [Quoting.longestRun]
    split
    · exact Nat.le_trans (Nat.le_succ current) (ih _)
    · exact Nat.le_max_left _ _

theorem longestRun_eq_zero_iff : Quoting.longestRun c 0 text = 0 ↔ c ∉ text := by
  induction text with
  | nil => simp [Quoting.longestRun]
  | cons other text ih =>
    rw [Quoting.longestRun, List.mem_cons, not_or]
    split
    · next hsame =>
      have := le_longestRun c (0 + 1) text
      exact ⟨fun hzero => by omega, fun hne => absurd hsame.symm hne.1⟩
    · next hother =>
      rw [Nat.zero_max, ih]
      exact ⟨fun hmem => ⟨fun hsame => hother hsame.symm, hmem⟩, And.right⟩

theorem hasCountableRuns_of_notMem (hdouble : '"' ∉ text) (hsingle : '\'' ∉ text) :
    Quoting.hasCountableRuns text = true := by
  rw [Quoting.hasCountableRuns, longestRun_eq_zero_iff.mpr hdouble,
    longestRun_eq_zero_iff.mpr hsingle]
  rfl

/-- A text with no more than two of its marks in a row may stand as it is. -/
theorem spells_literal {quotes : Nat} (hrun : Quoting.longestRun '\'' quotes text ≤ 2)
    (hchars : ∀ c ∈ text, isCommentChar c = true ∨ c = '\n') :
    Spells SpellsLiteralLines '\'' quotes text text := by
  induction text generalizing quotes with
  | nil => exact .nil
  | cons c text ih =>
    rw [List.forall_mem_cons] at hchars
    rw [Quoting.longestRun] at hrun
    split at hrun
    · next hquote =>
      subst hquote
      have := le_longestRun '\'' (quotes + 1) text
      exact .quote (by omega) (ih hrun hchars.2)
    · next hquote =>
      rw [← List.singleton_append]
      exact .piece (.itself hquote hchars.1) (ih (by omega) hchars.2)

/-- A text written as a literal string is read back. -/
theorem literalString_append (hchars : ∀ c ∈ text, c ≠ '\'' ∧ isCommentChar c = true) :
    literalString read (text ++ '\'' :: rest) = some (read.reverse ++ text, rest) := by
  induction text generalizing read with
  | nil => rw [List.nil_append, literalString, List.append_nil]
  | cons c text ih =>
    rw [List.forall_mem_cons] at hchars
    rw [List.cons_append, literalString, if_pos hchars.1.2, ih hchars.2, List.reverse_cons,
      List.append_assoc, List.singleton_append]
    exact hchars.1.1

/-- What the choice of a kind says about the text. -/
def Quoting.Holds : Quoting → List Char → Prop
  | .basic, _ | .basicLines, _ => True
  | .literal, text => text ≠ [] ∧ ∀ c ∈ text, c ≠ '\'' ∧ isCommentChar c = true
  | .literalLines, text =>
    longestRun '\'' 0 text ≤ 2 ∧ ∀ c ∈ text, isCommentChar c = true ∨ c = '\n'

/-- What needs no escape may stand in a literal string, the line end apart. -/
theorem isCommentChar_or_of_not_isControl (hc : Quoting.isControl c = false) :
    isCommentChar c = true ∨ c = '\n' := by
  by_cases hnewline : c = '\n'
  · exact .inr hnewline
  · left
    by_cases htab : c = '\t'
    · simp [isCommentChar, htab]
    · simp [Quoting.isControl, hnewline, htab] at hc
      simp [isCommentChar, hc]

theorem isCommentChar_or_of_any_isControl (hcontrols : text.any Quoting.isControl = false) :
    ∀ c ∈ text, isCommentChar c = true ∨ c = '\n' := by
  intro c hc
  apply isCommentChar_or_of_not_isControl
  simpa using List.any_eq_false.mp hcontrols c hc

/-- The kind of string that is chosen can hold the text. -/
theorem Quoting.holds_ofText (text : List Char) : (ofText text).Holds text := by
  unfold ofText
  dsimp only
  split_ifs with hbasic hliteral hbasicLines hliteralLines
  · trivial
  · simp only [Bool.and_eq_true, Bool.not_eq_true', decide_eq_true_eq] at hliteral
    obtain ⟨⟨hcontrols, hquotes⟩, hnewline⟩ := hliteral
    constructor
    · rintro rfl
      exact hbasic (by decide)
    · intro c hc
      constructor
      · rintro rfl
        exact longestRun_eq_zero_iff.mp hquotes hc
      · refine (isCommentChar_or_of_any_isControl hcontrols c hc).resolve_right ?_
        rintro rfl
        simp [hc] at hnewline
  · trivial
  · simp only [Bool.and_eq_true, Bool.not_eq_true', decide_eq_true_eq] at hliteralLines
    exact ⟨hliteralLines.2, isCommentChar_or_of_any_isControl hliteralLines.1⟩
  · trivial
  · trivial

section Kinds

variable (hdouble : ∀ more, rest ≠ '"' :: more) (hsingle : ∀ more, rest ≠ '\'' :: more)

include hdouble in
/-- A basic string of one line is read back. -/
theorem string?_basic :
    string? ('"' :: (escapeChars false 0 text ++ '"' :: rest)) = some (text, rest) := by
  have hbody : ∀ more, escapeChars false 0 text ++ '"' :: rest ≠ '"' :: '"' :: more := by
    cases text with
    | nil => exact fun more hsame => hdouble more (List.cons.inj hsame).2
    | cons c text =>
      obtain ⟨piece, hpiece, hwritten⟩ := exists_spellsBasic 0 c text
      obtain ⟨first, others, rfl, hfirst, -⟩ := hpiece.apart
      rw [hwritten]
      exact fun more => cons_ne_cons hfirst ('"' :: more)
  rw [string?]
  · exact basicString_escapeChars 0
  · exact hbody

theorem string?_literal (hne : text ≠ []) (hchars : ∀ c ∈ text, c ≠ '\'' ∧ isCommentChar c = true) :
    string? ('\'' :: (text ++ '\'' :: rest)) = some (text, rest) := by
  rw [string?]
  · exact literalString_append hchars
  · obtain ⟨c, text, rfl⟩ := List.exists_cons_of_ne_nil hne
    exact fun more => cons_ne_cons (hchars c List.mem_cons_self).1 ('\'' :: more)

include hdouble hsingle in
/-- A text between quotation marks is read, unless another such mark follows. -/
theorem string?_quote : string? (quote text ++ rest) = some (text, rest) := by
  have hholds := Quoting.holds_ofText text
  unfold quote
  cases hkind : Quoting.ofText text <;>
    simp only [Quoting.delimiter, Quoting.hasLines, Quoting.hasEscapes, Bool.false_and,
      Bool.true_and, if_true, Bool.false_eq_true, if_false, List.append_assoc, List.cons_append,
      List.nil_append]
  case basic => exact string?_basic hdouble
  case literal =>
    rw [hkind] at hholds
    exact string?_literal hholds.1 hholds.2
  case basicLines =>
    rw [string?]
    exact (spells_escapeChars 0 text).read_opened readsLines_basicLines hdouble
  case literalLines =>
    rw [hkind] at hholds
    rw [string?]
    exact (spells_literal hholds.1 hholds.2).read_opened readsLines_literalLines hsingle

end Kinds

theorem quote_eq_cons (text : List Char) : ∃ more, quote text = '"' :: more ∨ quote text = '\'' :: more := by
  unfold quote
  cases Quoting.ofText text
  · exact ⟨_, .inl rfl⟩
  · exact ⟨_, .inr rfl⟩
  · exact ⟨_, .inl rfl⟩
  · exact ⟨_, .inr rfl⟩

end CheckHarness.Toml
