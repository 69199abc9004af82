namespace CheckHarness.Html

/-- The characters with entities, in the order in which they are replaced. -/
def entities : List (Char × String) :=
  [('&', "&amp;"), ('<', "&lt;"), ('>', "&gt;"), ('"', "&quot;")]

/-- Replaces every occurrence of a character. -/
def replaceChar (text : List Char) (c : Char) (entity : List Char) : List Char :=
  text.flatMap fun other => if other = c then entity else [other]

/-- A text with its entities, put in by one replacement after the other. -/
def escapeChars (text : List Char) : List Char :=
  entities.foldl (fun text entry => replaceChar text entry.1 entry.2.toList) text

/-- A text as it stands inside HTML. Four characters are written as entities, which are put in by
one replacement after the other; ampersands come first, so the ampersand of an entity is not escaped
again. -/
def escape (text : String) : String :=
  String.ofList (escapeChars text.toList)

/-- The written form of a character: its entity, if it has one. -/
def writtenChar (c : Char) : List Char :=
  ((entities.lookup c).map String.toList).getD [c]

/-- The text that an escaped text stands for. A character that begins no entity stands for
itself. -/
def unescapeChars : List Char → List Char
  | '&' :: 'a' :: 'm' :: 'p' :: ';' :: text => '&' :: unescapeChars text
  | '&' :: 'l' :: 't' :: ';' :: text => '<' :: unescapeChars text
  | '&' :: 'g' :: 't' :: ';' :: text => '>' :: unescapeChars text
  | '&' :: 'q' :: 'u' :: 'o' :: 't' :: ';' :: text => '"' :: unescapeChars text
  | c :: text => c :: unescapeChars text
  | [] => []

end CheckHarness.Html
