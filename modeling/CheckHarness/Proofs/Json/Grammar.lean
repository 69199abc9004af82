import CheckHarness.Proofs.Json.Spelling
import CheckHarness.Proofs.Json.Tree

namespace CheckHarness.Json

/-- A text of blanks, tabs and line ends only. -/
def Blanks (text : Bytes) : Prop :=
  ∀ byte ∈ text, byte = 0x20 ∨ byte = 0x09 ∨ byte = 0x0A ∨ byte = 0x0D

theorem blanks_nil : Blanks [] :=
  nofun

def AreDigits (text : Bytes) : Prop :=
  ∀ byte ∈ text, Lexer.isDigit byte = true

/-- The part of a number before the point. Nothing follows a leading zero. -/
inductive WholePart : Bytes → Prop where
  | zero : WholePart [0x30]
  | digits {byte rest} (hfirst : Lexer.isDigit byte = true) (hnonzero : byte ≠ 0x30)
    (hrest : AreDigits rest) : WholePart (byte :: rest)

inductive FractionPart : Bytes → Prop where
  | absent : FractionPart []
  | point {digits} (hnonempty : digits ≠ []) (hdigits : AreDigits digits) :
    FractionPart (0x2E :: digits)

inductive ExponentPart : Bytes → Prop where
  | absent : ExponentPart []
  | letter {letter sign digits} (hletter : letter = 0x65 ∨ letter = 0x45)
    (hsign : sign = [] ∨ sign = [0x2B] ∨ sign = [0x2D]) (hnonempty : digits ≠ [])
    (hdigits : AreDigits digits) : ExponentPart (letter :: (sign ++ digits))

/-- The texts of a number. -/
inductive IsNumber : Bytes → Prop where
  | mk {sign whole fraction exponent} (hsign : sign = [] ∨ sign = [0x2D])
    (hwhole : WholePart whole) (hfraction : FractionPart fraction)
    (hexponent : ExponentPart exponent) : IsNumber (sign ++ (whole ++ (fraction ++ exponent)))

/-- Whether a byte stands for itself in a string. -/
def isPlain (byte : UInt8) : Bool :=
  0x20 ≤ byte && byte != 0x22 && byte != 0x5C

/-- What may stand between the quotes of a string. It need not be the text of anything: an escaped
surrogate may stand alone, and the bytes need not be UTF-8. -/
inductive IsBody : Bytes → Prop where
  | nil : IsBody []
  | plain {byte rest} (hbyte : isPlain byte = true) (hrest : IsBody rest) : IsBody (byte :: rest)
  | short {letter rest} (hletter : Lexer.isShortEscape letter = true) (hrest : IsBody rest) :
    IsBody (0x5C :: letter :: rest)
  | unit {a b c d rest} (hdigits : ∀ byte ∈ [a, b, c, d], Lexer.isHexDigit byte = true)
    (hrest : IsBody rest) : IsBody (0x5C :: 0x75 :: a :: b :: c :: d :: rest)

mutual

/-- The texts of a value, without blanks around them. -/
inductive Writes : Node → Bytes → Prop where
  | null : Writes .null [0x6E, 0x75, 0x6C, 0x6C]
  | true : Writes (.bool true) [0x74, 0x72, 0x75, 0x65]
  | false : Writes (.bool false) [0x66, 0x61, 0x6C, 0x73, 0x65]
  | number {lexeme} (hlexeme : IsNumber lexeme) : Writes (.number lexeme) lexeme
  | string {body} (hbody : IsBody body) : Writes (.string body) (0x22 :: (body ++ [0x22]))
  | emptyArray {blanks} (hblanks : Blanks blanks) : Writes (.array []) (0x5B :: (blanks ++ [0x5D]))
  | array {element elements text} (helements : WritesElements element elements text) :
    Writes (.array (element :: elements)) (0x5B :: (text ++ [0x5D]))
  | emptyObject {blanks} (hblanks : Blanks blanks) : Writes (.object []) (0x7B :: (blanks ++ [0x7D]))
  | object {key value members text} (hmembers : WritesMembers key value members text) :
    Writes (.object ((key, value) :: members)) (0x7B :: (text ++ [0x7D]))

/-- The texts of a value with blanks around it. -/
inductive WritesSpaced : Node → Bytes → Prop where
  | mk {node before text after} (hbefore : Blanks before) (hvalue : Writes node text)
    (hafter : Blanks after) : WritesSpaced node (before ++ (text ++ after))

/-- The texts of an element and the ones that come after it. -/
inductive WritesElements : Node → List Node → Bytes → Prop where
  | last {element text} (helement : WritesSpaced element text) : WritesElements element [] text
  | comma {element next elements text more} (helement : WritesSpaced element text)
    (hmore : WritesElements next elements more) :
    WritesElements element (next :: elements) (text ++ 0x2C :: more)

/-- The texts of a member with blanks around its key and its value. -/
inductive WritesMember : Bytes → Node → Bytes → Prop where
  | mk {key value before after text} (hbefore : Blanks before) (hkey : IsBody key)
    (hafter : Blanks after) (hvalue : WritesSpaced value text) :
    WritesMember key value (before ++ 0x22 :: (key ++ 0x22 :: (after ++ 0x3A :: text)))

/-- The texts of a member and the ones that come after it. -/
inductive WritesMembers : Bytes → Node → List (Bytes × Node) → Bytes → Prop where
  | last {key value text} (hmember : WritesMember key value text) : WritesMembers key value [] text
  | comma {key value name next members text more} (hmember : WritesMember key value text)
    (hmore : WritesMembers name next members more) :
    WritesMembers key value ((name, next) :: members) (text ++ 0x2C :: more)

end

section Number

open Lexer

variable {phase : NumberPhase} {text digits : Bytes}

/-- Digits are read in a phase that goes on with every digit. -/
theorem AreDigits.foldlM_next? (hdigits : AreDigits digits)
    (hstep : ∀ byte, Lexer.isDigit byte = true → NumberPhase.next? phase byte = some phase) :
    digits.foldlM NumberPhase.next? phase = some phase := by
  induction digits with
  | nil => rfl
  | cons byte digits ih =>
    rw [List.foldlM_cons, hstep byte (hdigits byte List.mem_cons_self)]
    exact ih fun other hother => hdigits other (List.mem_cons_of_mem byte hother)

/-- Of several digits the first begins a part of the number and the others go on with it. -/
theorem AreDigits.foldlM_next?_of_ne_nil {next : NumberPhase} (hdigits : AreDigits digits)
    (hnonempty : digits ≠ [])
    (hfirst : ∀ byte, Lexer.isDigit byte = true → NumberPhase.next? phase byte = some next)
    (hstep : ∀ byte, Lexer.isDigit byte = true → NumberPhase.next? next byte = some next) :
    digits.foldlM NumberPhase.next? phase = some next := by
  obtain ⟨byte, rest, rfl⟩ := List.exists_cons_of_ne_nil hnonempty
  rw [List.foldlM_cons, hfirst byte (hdigits byte List.mem_cons_self)]
  exact AreDigits.foldlM_next?
    (fun other hother => hdigits other (List.mem_cons_of_mem byte hother)) hstep

/-- The whole part of a number is read from its first byte on. -/
theorem WholePart.exists_phase (hwhole : WholePart text) :
    ∃ byte rest first last, text = byte :: rest ∧ NumberPhase.first? byte = some first ∧
      NumberPhase.next? .sign byte = some first ∧
      rest.foldlM NumberPhase.next? first = some last ∧ (last = .zero ∨ last = .whole) := by
  cases hwhole with
  | zero => exact ⟨_, _, _, _, rfl, rfl, rfl, rfl, .inl rfl⟩
  | @digits byte rest hfirst hnonzero hrest =>
    have hsign : byte ≠ 0x2D := by
      rintro rfl
      exact absurd hfirst (by decide)
    have hwhole : rest.foldlM NumberPhase.next? .whole = some .whole :=
      hrest.foldlM_next? fun other hother => by simp [NumberPhase.next?, hother]
    exact ⟨byte, rest, .whole, .whole, rfl, by simp [NumberPhase.first?, hsign, hnonzero, hfirst],
      by simp [NumberPhase.next?, hnonzero, hfirst], hwhole, .inr rfl⟩

/-- A fraction is read after the whole part. -/
theorem FractionPart.exists_phase (hfraction : FractionPart text)
    (hphase : phase = .zero ∨ phase = .whole) :
    ∃ last, text.foldlM NumberPhase.next? phase = some last ∧
      (last = .zero ∨ last = .whole ∨ last = .fraction) := by
  cases hfraction with
  | absent => exact ⟨phase, rfl, hphase.imp_right .inl⟩
  | @point digits hnonempty hdigits =>
    have hpoint : NumberPhase.next? phase 0x2E = some .point := by
      rcases hphase with rfl | rfl <;> rfl
    rw [List.foldlM_cons, hpoint]
    exact ⟨.fraction, hdigits.foldlM_next?_of_ne_nil hnonempty
      (fun byte hbyte => by simp [NumberPhase.next?, hbyte])
      (fun byte hbyte => by simp [NumberPhase.next?, hbyte]), .inr (.inr rfl)⟩

/-- An exponent is read after the rest of the number, which is then complete. -/
theorem ExponentPart.exists_phase (hexponent : ExponentPart text)
    (hphase : phase = .zero ∨ phase = .whole ∨ phase = .fraction) :
    ∃ last, text.foldlM NumberPhase.next? phase = some last ∧
      NumberPhase.isComplete last = true := by
  cases hexponent with
  | absent => exact ⟨phase, rfl, by rcases hphase with rfl | rfl | rfl <;> rfl⟩
  | @letter letter sign digits hletter hsign hnonempty hdigits =>
    have hbegin : NumberPhase.next? phase letter = some .letter := by
      rcases hphase with rfl | rfl | rfl <;> rcases hletter with rfl | rfl <;> rfl
    have hdigit : ∀ byte, Lexer.isDigit byte = true →
        NumberPhase.next? .exponent byte = some .exponent := fun byte hbyte => by
      simp [NumberPhase.next?, hbyte]
    rw [List.foldlM_cons, hbegin, Option.bind_eq_bind, Option.bind_some]
    refine ⟨.exponent, ?_, rfl⟩
    rcases hsign with rfl | rfl | rfl
    · exact hdigits.foldlM_next?_of_ne_nil hnonempty
        (fun byte hbyte => by simp [NumberPhase.next?, hbyte]) hdigit
    all_goals
      exact hdigits.foldlM_next?_of_ne_nil hnonempty
        (fun byte hbyte => by simp [NumberPhase.next?, hbyte]) hdigit

/-- A number of the grammar is a lexeme. -/
theorem IsNumber.lexeme (hnumber : IsNumber text) : Token.Lexeme (.number text) text := by
  cases hnumber with
  | @mk sign whole fraction exponent hsign hwhole hfraction hexponent =>
    obtain ⟨byte, rest, first, middle, rfl, hfirst, hsigned, hrest, hmiddle⟩ := hwhole.exists_phase
    obtain ⟨later, hlater, hphase⟩ := hfraction.exists_phase hmiddle
    obtain ⟨last, hlast, hcomplete⟩ := hexponent.exists_phase hphase
    have hall : (rest ++ (fraction ++ exponent)).foldlM NumberPhase.next? first = some last := by
      rw [List.foldlM_append, hrest, Option.bind_eq_bind, Option.bind_some, List.foldlM_append,
        hlater, Option.bind_eq_bind, Option.bind_some, hlast]
    rcases hsign with rfl | rfl
    · exact .number hfirst hall hcomplete
    · have hminus : NumberPhase.first? 0x2D = some .sign := rfl
      refine .number hminus ?_ hcomplete
      change (byte :: (rest ++ (fraction ++ exponent))).foldlM _ _ = _
      rw [List.foldlM_cons, hsigned]
      exact hall

end Number

/-- The bytes of a string are read without ending it. -/
theorem IsBody.within {body : Bytes} (hbody : IsBody body) :
    body.foldlM Lexer.StringPhase.within? .plain = some .plain := by
  induction hbody with
  | nil => rfl
  | @plain byte rest hbyte _ ih =>
    simp only [isPlain, Bool.and_eq_true, decide_eq_true_eq, bne_iff_ne] at hbyte
    obtain ⟨⟨hcontrol, hquote⟩, hescape⟩ := hbyte
    have hstep : Lexer.StringPhase.within? .plain byte = some .plain := by
      simp [Lexer.StringPhase.within?, Lexer.StringPhase.next?, hquote, hescape,
        UInt8.not_lt.mpr hcontrol]
    rw [List.foldlM_cons, hstep]
    exact ih
  | @short letter rest hletter _ ih =>
    have hunit : letter ≠ 0x75 := by
      rintro rfl
      exact absurd hletter (by decide)
    simpa [Lexer.StringPhase.within?, Lexer.StringPhase.next?, hunit, hletter] using ih
  | @unit a b c d rest hdigits _ ih =>
    have ha := hdigits a (by simp)
    have hb := hdigits b (by simp)
    have hc := hdigits c (by simp)
    have hd := hdigits d (by simp)
    simpa [Lexer.StringPhase.within?, Lexer.StringPhase.next?, ha, hb, hc, hd] using ih

/-- What may stand between quotes does not end the string. -/
theorem IsBody.lexeme {body : Bytes} (hbody : IsBody body) :
    Token.Lexeme (.string body) (0x22 :: (body ++ [0x22])) :=
  .string hbody.within

/-- What may stand between quotes may stand there in a row. -/
theorem IsBody.append {body more : Bytes} (hbody : IsBody body) (hmore : IsBody more) :
    IsBody (body ++ more) := by
  induction hbody with
  | nil => exact hmore
  | plain hbyte _ ih => exact .plain hbyte ih
  | short hletter _ ih => exact .short hletter ih
  | unit hdigits _ ih => exact .unit hdigits ih

/-- Plain bytes may stand between quotes. -/
theorem isBody_of_plain {body : Bytes} (hplain : ∀ byte ∈ body, isPlain byte = true) :
    IsBody body := by
  induction body with
  | nil => exact .nil
  | cons byte body ih =>
    exact .plain (hplain byte List.mem_cons_self)
      (ih fun other hother => hplain other (List.mem_cons_of_mem byte hother))

section Blanks

variable {blanks text : Bytes} {tokens : List Token}

theorem Blanks.isBlank (hblanks : Blanks blanks) :
    ∀ byte ∈ blanks, Lexer.isBlank byte = true := by
  intro byte hbyte
  rcases hblanks byte hbyte with rfl | rfl | rfl | rfl <;> rfl

/-- Blanks may stand before a text that spells tokens. -/
theorem Blanks.spells (hblanks : Blanks blanks) (hspells : Spells tokens text) :
    Spells tokens (blanks ++ text) := by
  induction blanks with
  | nil => exact hspells
  | cons byte blanks ih =>
    have hbyte := hblanks.isBlank byte List.mem_cons_self
    exact .blank hbyte (ih fun other hother => hblanks other (List.mem_cons_of_mem byte hother))

/-- No blank goes on with a number. -/
theorem Blanks.endsNumber (hblanks : Blanks blanks) (hends : Lexer.EndsNumber text) :
    Lexer.EndsNumber (blanks ++ text) := by
  cases blanks with
  | nil => exact hends
  | cons byte blanks =>
    rintro other ⟨rfl⟩
    rcases hblanks byte List.mem_cons_self with rfl | rfl | rfl | rfl <;> rfl

end Blanks

/-- A fixed lexeme may stand before a text that spells tokens. -/
theorem Spells.fixed {token : Token} {tokens : List Token} {lexeme text : Bytes}
    (hfixed : token.fixed? = some lexeme) (hspells : Spells tokens text) :
    Spells (token :: tokens) (lexeme ++ text) := by
  refine .token (.fixed hfixed) ?_ hspells
  rintro number rfl
  cases hfixed

theorem Spells.mark {token : Token} {tokens : List Token} {byte : UInt8} {text : Bytes}
    (hfixed : token.fixed? = some [byte]) (hspells : Spells tokens text) :
    Spells (token :: tokens) (byte :: text) :=
  .fixed hfixed hspells

theorem endsNumber_cons {byte : UInt8} (hbyte : byte = 0x2C ∨ byte = 0x5D ∨ byte = 0x7D)
    (text : Bytes) : Lexer.EndsNumber (byte :: text) := by
  rintro other ⟨rfl⟩
  rcases hbyte with rfl | rfl | rfl <;> rfl

mutual

/-- The texts of a value spell its tokens, before anything that does not go on with a number. -/
theorem Writes.spells {node : Node} {written text : Bytes} {tokens : List Token}
    (hwrites : Writes node written) (hspells : Spells tokens text)
    (hends : Lexer.EndsNumber text) : Spells (node.tokens ++ tokens) (written ++ text) := by
  cases hwrites with
  | null | true | false => exact .fixed rfl hspells
  | number hlexeme => exact .token hlexeme.lexeme (fun _ _ => hends) hspells
  | string hbody => exact .token hbody.lexeme nofun hspells
  | emptyArray hblanks =>
    have hclose : Spells (.closeBracket :: tokens) (0x5D :: text) := .mark rfl hspells
    have hopen : Spells (.openBracket :: .closeBracket :: tokens) (0x5B :: _) :=
      .mark rfl (hblanks.spells hclose)
    simpa [Node.tokens] using hopen
  | array helements =>
    have hclose : Spells (.closeBracket :: tokens) (0x5D :: text) := .mark rfl hspells
    have hinner := helements.spells hclose (endsNumber_cons (by simp) text)
    have hopen : Spells (.openBracket :: _) (0x5B :: _) := .mark rfl hinner
    simpa [Node.tokens] using hopen
  | emptyObject hblanks =>
    have hclose : Spells (.closeBrace :: tokens) (0x7D :: text) := .mark rfl hspells
    have hopen : Spells (.openBrace :: .closeBrace :: tokens) (0x7B :: _) :=
      .mark rfl (hblanks.spells hclose)
    simpa [Node.tokens] using hopen
  | object hmembers =>
    have hclose : Spells (.closeBrace :: tokens) (0x7D :: text) := .mark rfl hspells
    have hinner := hmembers.spells hclose (endsNumber_cons (by simp) text)
    have hopen : Spells (.openBrace :: _) (0x7B :: _) := .mark rfl hinner
    simpa [Node.tokens] using hopen
termination_by (sizeOf node, 0)

/-- A value with blanks around it spells the tokens of its tree. -/
theorem WritesSpaced.spells {node : Node} {written text : Bytes} {tokens : List Token}
    (hwrites : WritesSpaced node written) (hspells : Spells tokens text)
    (hends : Lexer.EndsNumber text) : Spells (node.tokens ++ tokens) (written ++ text) := by
  cases hwrites with
  | mk hbefore hvalue hafter =>
    have hinner := hvalue.spells (hafter.spells hspells) (hafter.endsNumber hends)
    simpa using hbefore.spells hinner
termination_by (sizeOf node, 1)
decreasing_by
  subst_vars
  decreasing_tactic

/-- Elements spell their tokens with commas between them. -/
theorem WritesElements.spells {element : Node} {elements : List Node} {written text : Bytes}
    {tokens : List Token} (hwrites : WritesElements element elements written)
    (hspells : Spells tokens text) (hends : Lexer.EndsNumber text) :
    Spells (element.tokens ++ (Node.moreElements elements ++ tokens)) (written ++ text) := by
  cases hwrites with
  | last helement => exact helement.spells hspells hends
  | comma helement hmore =>
    have hcomma : Spells (.comma :: _) (0x2C :: _) := .mark rfl (hmore.spells hspells hends)
    simpa [Node.moreElements] using helement.spells hcomma (endsNumber_cons (by simp) _)
termination_by (sizeOf element + sizeOf elements, 2)

/-- A member spells its key, a colon and the tokens of its value. -/
theorem WritesMember.spells {key : Bytes} {value : Node} {written text : Bytes}
    {tokens : List Token} (hwrites : WritesMember key value written) (hspells : Spells tokens text)
    (hends : Lexer.EndsNumber text) :
    Spells (.string key :: .colon :: (value.tokens ++ tokens)) (written ++ text) := by
  cases hwrites with
  | mk hbefore hkey hafter hvalue =>
    have hcolon : Spells (.colon :: _) (0x3A :: _) := .mark rfl (hvalue.spells hspells hends)
    simpa using hbefore.spells (.token hkey.lexeme nofun (hafter.spells hcolon))
termination_by (sizeOf value, 2)
decreasing_by
  subst_vars
  decreasing_tactic

/-- Members spell their tokens with commas between them. -/
theorem WritesMembers.spells {key : Bytes} {value : Node} {members : List (Bytes × Node)}
    {written text : Bytes} {tokens : List Token}
    (hwrites : WritesMembers key value members written) (hspells : Spells tokens text)
    (hends : Lexer.EndsNumber text) :
    Spells (.string key :: .colon :: (value.tokens ++ (Node.moreMembers members ++ tokens)))
      (written ++ text) := by
  cases hwrites with
  | last hmember => exact hmember.spells hspells hends
  | comma hmember hmore =>
    have hcomma : Spells (.comma :: _) (0x2C :: _) := .mark rfl (hmore.spells hspells hends)
    simpa [Node.moreMembers] using hmember.spells hcomma (endsNumber_cons (by simp) _)
termination_by (sizeOf value + sizeOf members, 3)

end

/-- A text of the grammar is read as the tree that it writes. -/
theorem WritesSpaced.parse?_eq {node : Node} {text : Bytes} (hwrites : WritesSpaced node text) :
    Node.parse? text = some node := by
  have hspells := hwrites.spells .nil nofun
  rw [List.append_nil, List.append_nil] at hspells
  rw [Node.parse?, tokens?_of_spells hspells, Option.bind_some, Node.ofTokens?_tokens]

end CheckHarness.Json
