import CheckHarness.Json.Token

namespace CheckHarness.Json

/-- The only lexeme of a token that is neither a number nor a string. -/
def Token.fixed? : Token → Option Bytes
  | .openBrace => some [0x7B]
  | .closeBrace => some [0x7D]
  | .openBracket => some [0x5B]
  | .closeBracket => some [0x5D]
  | .colon => some [0x3A]
  | .comma => some [0x2C]
  | .null => some [0x6E, 0x75, 0x6C, 0x6C]
  | .true => some [0x74, 0x72, 0x75, 0x65]
  | .false => some [0x66, 0x61, 0x6C, 0x73, 0x65]
  | .number _ | .string _ => none

namespace Lexer

/-- The phase of a number after its first byte. -/
def NumberPhase.first? (byte : UInt8) : Option NumberPhase :=
  if byte == 0x2D then some .sign
  else if byte == 0x30 then some .zero
  else if isDigit byte then some .whole
  else none

/-- The phase of a string after one more byte, which does not end it. -/
def StringPhase.within? (phase : StringPhase) (byte : UInt8) : Option StringPhase :=
  if phase = .plain && byte == 0x22 then none else StringPhase.next? phase byte

/-- The bytes that may follow a number as part of it. -/
def continuesNumber (byte : UInt8) : Bool :=
  isDigit byte || byte == 0x2E || byte == 0x65 || byte == 0x45

/-- The text does not begin with a byte that goes on with a number. -/
def EndsNumber (text : Bytes) : Prop :=
  ∀ byte ∈ text.head?, continuesNumber byte = false

end Lexer

/-- The lexemes of the tokens. -/
inductive Token.Lexeme : Token → Bytes → Prop where
  | fixed {token lexeme} (hfixed : token.fixed? = some lexeme) : Lexeme token lexeme
  | number {byte rest first last} (hfirst : Lexer.NumberPhase.first? byte = some first)
    (hrest : rest.foldlM Lexer.NumberPhase.next? first = some last)
    (hcomplete : Lexer.NumberPhase.isComplete last) :
    Lexeme (.number (byte :: rest)) (byte :: rest)
  | string {body} (hbody : body.foldlM Lexer.StringPhase.within? .plain = some .plain) :
    Lexeme (.string body) (0x22 :: (body ++ [0x22]))

/-- The text is made of the lexemes of the tokens in order, with any blanks around them. Two lexemes
may touch, except that a number ends only before a byte that does not go on with it. -/
inductive Spells : List Token → Bytes → Prop where
  | nil : Spells [] []
  | blank {tokens byte text} (hblank : Lexer.isBlank byte = true) (hspells : Spells tokens text) :
    Spells tokens (byte :: text)
  | token {token tokens lexeme text} (hlexeme : token.Lexeme lexeme)
    (hends : ∀ number, token = .number number → Lexer.EndsNumber text)
    (hspells : Spells tokens text) : Spells (token :: tokens) (lexeme ++ text)

namespace Lexer

/-- All bytes read so far belong to these tokens, the last of which may be a number that could go
on. The tokens are in reverse. -/
inductive Settled : Lexer → List Token → Prop where
  | between {tokens} : Settled ⟨tokens, .nothing⟩ tokens
  | number {tokens phase read} (hcomplete : NumberPhase.isComplete phase = true) :
    Settled ⟨tokens, .number phase read⟩ (.number read.reverse :: tokens)

/-- What comes next does not go on with a number that is being read. -/
def Parts (lexer : Lexer) (text : Bytes) : Prop :=
  lexer.pending = .nothing ∨ EndsNumber text

/-- A byte that a complete number goes on with. -/
theorem continuesNumber_of_next? {phase next : NumberPhase} {byte : UInt8}
    (hcomplete : NumberPhase.isComplete phase = true)
    (hnext : NumberPhase.next? phase byte = some next) : continuesNumber byte = true := by
  have hbyte : isDigit byte = true ∨ byte = 0x2E ∨ byte = 0x65 ∨ byte = 0x45 := by
    cases phase <;> simp_all [NumberPhase.next?, NumberPhase.isComplete] <;> grind
  rcases hbyte with hdigit | rfl | rfl | rfl
  · simp [continuesNumber, hdigit]
  · rfl
  · rfl
  · rfl

/-- A byte that is not part of what was read begins something new. -/
theorem Settled.step_eq_begin {lexer : Lexer} {done : List Token} {byte : UInt8} {text : Bytes}
    (hsettled : Settled lexer done) (hparts : lexer.Parts (byte :: text)) :
    lexer.step byte = begin done byte := by
  cases hsettled with
  | between => rfl
  | @number tokens phase read hcomplete =>
    have hends : continuesNumber byte = false :=
      hparts.resolve_left (by simp) byte (by simp)
    have hnone : NumberPhase.next? phase byte = none := by
      cases hnext : NumberPhase.next? phase byte with
      | none => rfl
      | some next => simp [continuesNumber_of_next? hcomplete hnext] at hends
    simp only [step, hnone, hcomplete, if_true]

/-- The bytes of a number are read in its phases. -/
theorem foldlM_step_number {tokens : List Token} {phase last : NumberPhase} {read rest : Bytes}
    (hrest : rest.foldlM NumberPhase.next? phase = some last) :
    rest.foldlM step ⟨tokens, .number phase read⟩ =
      some ⟨tokens, .number last (rest.reverse ++ read)⟩ := by
  induction rest generalizing phase read with
  | nil =>
    cases hrest
    rfl
  | cons byte rest ih =>
    rw [List.foldlM_cons] at hrest ⊢
    obtain ⟨next, hnext, hrest⟩ := Option.bind_eq_some_iff.mp hrest
    have hstep : step ⟨tokens, .number phase read⟩ byte =
        some ⟨tokens, .number next (byte :: read)⟩ := by
      simp only [step, hnext]
    rw [hstep, Option.bind_eq_bind, Option.bind_some, ih hrest, List.reverse_cons,
      List.append_assoc, List.singleton_append]

/-- The bytes of a string are read up to its end. -/
theorem foldlM_step_string {tokens : List Token} {phase last : StringPhase} {read rest : Bytes}
    (hrest : rest.foldlM StringPhase.within? phase = some last) :
    rest.foldlM step ⟨tokens, .string phase read⟩ =
      some ⟨tokens, .string last (rest.reverse ++ read)⟩ := by
  induction rest generalizing phase read with
  | nil =>
    cases hrest
    rfl
  | cons byte rest ih =>
    rw [List.foldlM_cons] at hrest ⊢
    obtain ⟨next, hnext, hrest⟩ := Option.bind_eq_some_iff.mp hrest
    rw [StringPhase.within?, Option.ite_none_left_eq_some] at hnext
    obtain ⟨hquote, hnext⟩ := hnext
    have hstep : step ⟨tokens, .string phase read⟩ byte =
        some ⟨tokens, .string next (byte :: read)⟩ := by
      simp only [step, if_neg hquote, hnext, Option.map_some]
    rw [hstep, Option.bind_eq_bind, Option.bind_some, ih hrest, List.reverse_cons,
      List.append_assoc, List.singleton_append]

theorem foldlM_begin_fixed {done : List Token} {token : Token} {byte : UInt8} {rest : Bytes}
    (hfixed : token.fixed? = some (byte :: rest)) :
    (begin done byte).bind (rest.foldlM step) = some ⟨token :: done, .nothing⟩ := by
  cases token <;> cases hfixed <;> rfl

theorem forall_byte {P : UInt8 → Prop} (hbyte : ∀ n < 256, P (UInt8.ofNat n)) (byte : UInt8) :
    P byte := by
  simpa using hbyte byte.toNat byte.toNat_lt

theorem mem_of_first? : ∀ byte, (NumberPhase.first? byte).isSome = true →
    byte ∈ ([0x2D, 0x30, 0x31, 0x32, 0x33, 0x34, 0x35, 0x36, 0x37, 0x38, 0x39] : Bytes) :=
  forall_byte (by decide +kernel)

/-- A byte that begins a number begins it after any token. -/
theorem begin_of_first? {done : List Token} {byte : UInt8} {phase : NumberPhase}
    (hfirst : NumberPhase.first? byte = some phase) :
    begin done byte = some ⟨done, .number phase [byte]⟩ := by
  have hbyte := mem_of_first? byte (by simp [hfirst])
  simp only [List.mem_cons, List.not_mem_nil, or_false] at hbyte
  rcases hbyte with rfl | rfl | rfl | rfl | rfl | rfl | rfl | rfl | rfl | rfl | rfl <;>
    cases hfirst <;> rfl

theorem begin_quote (done : List Token) : begin done 0x22 = some ⟨done, .string .plain []⟩ :=
  rfl

/-- Reading a lexeme adds its token. -/
theorem Settled.foldlM_lexeme {lexer : Lexer} {done : List Token} {token : Token}
    {lexeme text : Bytes} (hsettled : Settled lexer done) (hlexeme : token.Lexeme lexeme)
    (hparts : lexer.Parts (lexeme ++ text))
    (hends : ∀ number, token = .number number → EndsNumber text) :
    ∃ next, lexeme.foldlM step lexer = some next ∧ Settled next (token :: done) ∧
      next.Parts text := by
  cases hlexeme with
  | fixed hfixed =>
    cases lexeme with
    | nil => cases token <;> cases hfixed
    | cons byte rest =>
      refine ⟨⟨token :: done, .nothing⟩, ?_, .between, .inl rfl⟩
      rw [List.foldlM_cons, hsettled.step_eq_begin hparts]
      exact foldlM_begin_fixed hfixed
  | @number byte rest first last hfirst hrest hcomplete =>
    refine ⟨⟨done, .number last (rest.reverse ++ [byte])⟩, ?_, ?_, .inr (hends _ rfl)⟩
    · rw [List.foldlM_cons, hsettled.step_eq_begin hparts, begin_of_first? hfirst]
      exact foldlM_step_number hrest
    · have hread : byte :: rest = (rest.reverse ++ [byte]).reverse := by simp
      rw [hread]
      exact .number hcomplete
  | @string body hbody =>
    refine ⟨⟨.string body :: done, .nothing⟩, ?_, .between, .inl rfl⟩
    rw [List.foldlM_cons, hsettled.step_eq_begin hparts, begin_quote, Option.bind_eq_bind,
      Option.bind_some, List.foldlM_append, foldlM_step_string hbody]
    simp [step]

/-- Where a text may end, its tokens are the complete ones. -/
theorem Settled.finish {lexer : Lexer} {done : List Token} (hsettled : Settled lexer done) :
    lexer.finish = some done.reverse := by
  cases hsettled with
  | between => rfl
  | number hcomplete => simp only [Lexer.finish, hcomplete, if_true]

theorem begin_blank {done : List Token} {byte : UInt8} (hblank : isBlank byte = true) :
    begin done byte = some ⟨done, .nothing⟩ := by
  simp only [begin, hblank, if_true]

/-- From a place where a token may begin, the tokens of a text are read in their order. -/
theorem Settled.foldlM_spells {lexer : Lexer} {done tokens : List Token} {text : Bytes}
    (hsettled : Settled lexer done) (hspells : Spells tokens text) (hparts : lexer.Parts text) :
    (text.foldlM step lexer).bind Lexer.finish = some (done.reverse ++ tokens) := by
  induction hspells generalizing lexer done with
  | nil =>
    rw [List.append_nil]
    exact hsettled.finish
  | blank hblank _ ih =>
    rw [List.foldlM_cons, hsettled.step_eq_begin hparts, begin_blank hblank]
    exact ih .between (.inl rfl)
  | token hlexeme hends _ ih =>
    obtain ⟨next, hnext, hsettled, hparts⟩ := hsettled.foldlM_lexeme hlexeme hparts hends
    rw [List.foldlM_append, hnext, Option.bind_eq_bind, Option.bind_some, ih hsettled hparts,
      List.reverse_cons, List.append_assoc, List.singleton_append]

end Lexer

/-- A text that spells tokens is read as these tokens. -/
theorem tokens?_of_spells {tokens : List Token} {text : Bytes} (hspells : Spells tokens text) :
    tokens? text = some tokens :=
  Lexer.Settled.between.foldlM_spells hspells (.inl rfl)

end CheckHarness.Json
