import CheckHarness.Pattern.Lexical

namespace CheckHarness.Pattern

/-- The classes of ASCII characters that have names. -/
def classNames : List String :=
  ["alnum", "alpha", "ascii", "blank", "cntrl", "digit", "graph", "lower", "print", "punct", "space",
    "upper", "word", "xdigit"]

/-- The rest of a named class behind its first colon, up to and with its brackets. -/
def className? (negated : Bool) (text : List Char) : Option (ClassSet × List Char) :=
  match text.dropWhile (· != ':') with
  | ':' :: ']' :: rest =>
    if classNames.contains (String.ofList (text.takeWhile (· != ':'))) then
      some (.named negated, rest)
    else none
  | _ => none

/-- A named class behind its opening bracket. -/
def namedClass? : List Char → Option (ClassSet × List Char)
  | ':' :: '^' :: rest => className? true rest
  | ':' :: rest => className? false rest
  | _ => none

def hyphen : ClassSet :=
  .literal ⟨'-', false⟩

/-- The hyphens that a class begins with. `fuel` bounds their number. -/
def leadingHyphens (spaced : Bool) : Nat → List Char → List ClassSet × List Char
  | fuel + 1, '-' :: rest =>
    let (hyphens, rest) := leadingHyphens spaced fuel (skip spaced rest)
    (hyphen :: hyphens, rest)
  | _, text => ([], text)

/-- The beginning of a class behind its bracket: whether it is negated, and its first items. -/
def openClass (spaced : Bool) (text : List Char) : Bool × List ClassSet × List Char :=
  let (negated, text) :=
    match skip spaced text with
    | '^' :: rest => (true, skip spaced rest)
    | text => (false, text)
  match leadingHyphens spaced text.length text with
  | ([], ']' :: rest) => (negated, [.literal ⟨']', false⟩], rest)
  | (hyphens, text) => (negated, hyphens, text)

/-- One character or escape of a class. -/
def classItem? (spaced : Bool) : List Char → Option (Escape × List Char)
  | [] => none
  | '\\' :: rest => escape? spaced rest
  | c :: rest => some (.literal ⟨c, false⟩, rest)

/-- An item that stands alone in a class. -/
def single? : Escape → Option ClassSet
  | .literal lit => some (.literal lit)
  | .shorthand negated => some (.shorthand negated)
  | .assertion _ => none

/-- An item that is a range. -/
def range? : Escape → Escape → Option ClassSet
  | .literal first, .literal last =>
    if first.value.toNat ≤ last.value.toNat then some (.range first last) else none
  | _, _ => none

/-- An item, or a range of which it is the first. A hyphen before a closing bracket or another
hyphen makes no range. -/
def classRange? (spaced : Bool) (text : List Char) : Option (ClassSet × List Char) := do
  let (first, rest) ← classItem? spaced text
  match skip spaced rest with
  | '-' :: after =>
    if peek? spaced after = some ']' || peek? spaced after = some '-' then
      return (← single? first, '-' :: after)
    else
      let (last, rest) ← classItem? spaced (skip spaced after)
      return (← range? first last, rest)
  | rest => return (← single? first, rest)

/-- The set that the last operand makes with what stands to its left. -/
def combine (left : Option ClassSet) (items : List ClassSet) : ClassSet :=
  match left with
  | none => .ofItems items
  | some left => .operation left (.ofItems items)

/-- The rest of a class up to and with its closing bracket. `left` is what stands before the last
operator, `items` what follows it, in reverse. `fuel` bounds the steps, of which each takes a
character. -/
def classRest? (spaced : Bool) (fuel : Nat) (left : Option ClassSet) (items : List ClassSet)
    (text : List Char) : Option (ClassSet × List Char) :=
  match fuel with
  | 0 => none
  | fuel + 1 =>
    match skip spaced text with
    | [] => none
    | ']' :: rest => some (combine left items.reverse, rest)
    | '[' :: rest =>
      match namedClass? rest with
      | some (item, rest) => classRest? spaced fuel left (item :: items) rest
      | none => do
        let (negated, first, rest) := openClass spaced rest
        let (set, rest) ← classRest? spaced fuel none first.reverse rest
        classRest? spaced fuel left (.bracketed negated set :: items) rest
    | '&' :: '&' :: rest => classRest? spaced fuel (some (combine left items.reverse)) [] rest
    | '-' :: '-' :: rest => classRest? spaced fuel (some (combine left items.reverse)) [] rest
    | '~' :: '~' :: rest => classRest? spaced fuel (some (combine left items.reverse)) [] rest
    | text => do
      let (item, rest) ← classRange? spaced text
      classRest? spaced fuel left (item :: items) rest

/-- A class behind its opening bracket. Up to the closing one stand single characters, ranges,
escapes and further classes. Two operands can be combined by a doubled ampersand, hyphen or tilde,
which bind less tightly than standing side by side. A closing bracket in first place is a character
of the class. -/
def class? (spaced : Bool) (text : List Char) : Option (Pattern × List Char) := do
  let (negated, first, rest) := openClass spaced text
  let (set, rest) ← classRest? spaced (rest.length + 1) none first.reverse rest
  return (.bracketed negated set, rest)

end CheckHarness.Pattern
