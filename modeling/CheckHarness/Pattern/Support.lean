import CheckHarness.Pattern.Basic

namespace CheckHarness.Pattern

/-- How characters count at a place of a pattern. -/
structure Mode where
  ignoresCase : Bool
  unicode : Bool
  deriving DecidableEq, Repr

namespace Mode

def initial : Mode :=
  ⟨false, true⟩

def switch (mode : Mode) (switches : Switches) : Mode :=
  ⟨(switches.lookup .ignoresCase).getD mode.ignoresCase, (switches.lookup .unicode).getD mode.unicode⟩

/-- Whether a character can be matched. A written byte has to be ASCII, if it is one. -/
def supportsLiteral (mode : Mode) (lit : Literal) : Bool :=
  if mode.unicode then !mode.ignoresCase
  else lit.value.toNat < 0x80 || (!lit.isByte && !mode.ignoresCase)

/-- Whether a character can be in a class. -/
def supportsMember (mode : Mode) (lit : Literal) : Bool :=
  if mode.unicode then !mode.ignoresCase else lit.value.toNat < 0x80

/-- Whether a class can be negated. -/
def supportsNegation (mode : Mode) (negated : Bool) : Bool :=
  mode.unicode || !negated

mutual

/-- Whether a set of characters can be matched. -/
def supportsSet (mode : Mode) : ClassSet → Bool
  | .empty => true
  | .literal lit => mode.supportsMember lit
  | .range first last => mode.supportsMember first && mode.supportsMember last
  | .named negated => if mode.unicode then !mode.ignoresCase else !negated
  | .shorthand negated => !mode.unicode && !negated
  | .bracketed negated set => mode.supportsSet set && mode.supportsNegation negated
  | .union items => mode.supportsSets items
  | .operation left right => mode.supportsSet left && mode.supportsSet right

def supportsSets (mode : Mode) : List ClassSet → Bool
  | [] => true
  | item :: items => mode.supportsSet item && mode.supportsSets items

end

end Mode

/-- What is known of the part of a pattern up to a place. Matching works on bytes and has no data
about characters beyond ASCII: where characters count as Unicode there are no shorthands and no
letter case, and where they do not, nothing may match a part of a character. Conditions on words
need to know what a letter is, so they are for ASCII only. -/
structure Survey where
  mode : Mode
  /-- Whether nothing was found that cannot be matched. -/
  supported : Bool
  /-- Whether there is a condition on words of other letters than ASCII's. -/
  wordsBeyondAscii : Bool
  deriving DecidableEq, Repr

namespace Survey

def initial : Survey :=
  ⟨.initial, true, false⟩

def require (survey : Survey) (condition : Bool) : Survey :=
  { survey with supported := survey.supported && condition }

mutual

/-- Goes on over a pattern. Switches last to the end of their group, over all its branches. -/
def add (survey : Survey) : Pattern → Survey
  | .empty => survey
  | .switch switches => { survey with mode := survey.mode.switch switches }
  | .literal lit => survey.require (survey.mode.supportsLiteral lit)
  | .dot => survey.require survey.mode.unicode
  | .assertion aboutWords =>
    { survey with
      wordsBeyondAscii := survey.wordsBeyondAscii || (aboutWords && survey.mode.unicode) }
  | .shorthand negated => survey.require (!survey.mode.unicode && !negated)
  | .bracketed negated set =>
    survey.require (survey.mode.supportsSet set && survey.mode.supportsNegation negated)
  | .repetition body => survey.add body
  | .group switches body =>
    { (add { survey with mode := survey.mode.switch switches } body) with mode := survey.mode }
  | .concatenation items | .alternation items => survey.addAll items

def addAll (survey : Survey) : List Pattern → Survey
  | [] => survey
  | item :: items => (survey.add item).addAll items

end

end Survey

end CheckHarness.Pattern
