import CheckHarness.Text.Bytes

namespace CheckHarness.Http

/-- What a request asks for: a path with an optional query, a lone asterisk, the authority of a
server, or a scheme with an authority and then a path and a query. A fragment may end a path or
query and is dropped. -/
structure Target where
  scheme : Option String
  /-- The server with its port and the user, where one is named. -/
  authority : String
  /-- The path; a target without one has an empty path. -/
  path : String
  query : Option String
  deriving DecidableEq, Repr

namespace Target

/-- The target that is a path only. -/
def ofPath (path : String) : Target :=
  ⟨none, "", path, none⟩

/-- The most bytes that a target may have. -/
def maxLength : Nat :=
  65534

/-- The most characters that a scheme may have. -/
def maxSchemeLength : Nat :=
  64

def isSchemeChar (c : Char) : Bool :=
  c.isAlphanum || ['+', '-', '.', '~'].contains c

/-- The characters of an authority. A percent sign has rules of its own. -/
def isAuthorityChar (c : Char) : Bool :=
  c.isAlphanum || "!$&'()*+,-.:;=@[]_~%".toList.contains c

/-- The characters of a path. Those beyond ASCII are taken as they are. -/
def isPathChar (c : Char) : Bool :=
  0x80 ≤ c.toNat || (0x21 ≤ c.toNat && c.toNat ≤ 0x7E && !"#<>?`".toList.contains c)

/-- The characters of a query. -/
def isQueryChar (c : Char) : Bool :=
  0x80 ≤ c.toNat || (0x21 ≤ c.toNat && c.toNat ≤ 0x7E && !"\"#<>".toList.contains c)

/-- What is known of the beginning of an authority. -/
structure AuthorityScan where
  /-- The colons since the last bracket or at sign. -/
  colons : Nat
  opened : Bool
  closed : Bool
  /-- Whether there was a percent sign since then. -/
  percent : Bool
  /-- Whether an at sign came last. -/
  atSign : Bool
  deriving DecidableEq, Repr

namespace AuthorityScan

def start : AuthorityScan :=
  ⟨0, false, false, false, false⟩

/-- The most colons in a row of groups. -/
def maxColons : Nat :=
  8

/-- Goes on over a character, if it may stand here. -/
def add? (scan : AuthorityScan) (c : Char) : Option AuthorityScan :=
  let scan := { scan with atSign := c = '@' }
  if c = ':' then
    if maxColons ≤ scan.colons then none else some { scan with colons := scan.colons + 1 }
  else if c = '[' then
    if scan.percent || scan.opened then none else some { scan with opened := true }
  else if c = ']' then
    if !scan.opened || scan.closed then none
    else some { scan with closed := true, colons := 0, percent := false }
  else if c = '@' then some { scan with colons := 0, percent := false }
  else if c = '%' then some { scan with percent := true }
  else if isAuthorityChar c then some scan
  else none

/-- Whether an authority may end here: with its brackets closed, one port at most and a server
behind the user. -/
def isComplete (scan : AuthorityScan) : Bool :=
  scan.opened == scan.closed && scan.colons ≤ 1 && !scan.atSign && !scan.percent

end AuthorityScan

/-- Whether a character ends an authority. -/
def endsAuthority (c : Char) : Bool :=
  c = '/' || c = '?' || c = '#'

/-- The authority that a text begins with, and the text after it. -/
def authority? (text : List Char) : Option (List Char × List Char) := do
  let authority := text.takeWhile fun c => !endsAuthority c
  let scan ← authority.foldlM AuthorityScan.add? .start
  if scan.isComplete then return (authority, text.dropWhile fun c => !endsAuthority c) else none

/-- The scheme before a colon and two slashes, and the text after these. The scheme may be empty. -/
def scheme? (text : List Char) : Option (List Char × List Char) :=
  match text.dropWhile isSchemeChar with
  | ':' :: '/' :: '/' :: rest => some (text.takeWhile isSchemeChar, rest)
  | _ => none

/-- A path with its query, without a fragment. -/
def pathAndQuery? (text : List Char) : Option (List Char × Option (List Char)) :=
  let path := text.takeWhile isPathChar
  match text.dropWhile isPathChar with
  | [] | '#' :: _ => some (path, none)
  | '?' :: rest =>
    match rest.dropWhile isQueryChar with
    | [] | '#' :: _ => some (path, some (rest.takeWhile isQueryChar))
    | _ => none
  | _ => none

/-- A target that is a path. -/
def ofPathText? (text : List Char) : Option Target := do
  let (path, query) ← pathAndQuery? text
  return ⟨none, "", String.ofList path, query.map String.ofList⟩

/-- A target that is an authority. -/
def ofAuthorityText? (text : List Char) : Option Target :=
  match authority? text with
  | some (authority, []) => some ⟨none, String.ofList authority, "", none⟩
  | _ => none

/-- A target with a scheme. Its path is a slash if none is written. -/
def ofSchemeText? (scheme text : List Char) : Option Target := do
  let (authority, rest) ← authority? text
  let (path, query) ← pathAndQuery? rest
  if scheme.length ≤ maxSchemeLength && !authority.isEmpty then
    return {
      scheme := some (String.ofList scheme)
      authority := String.ofList authority
      path := if path.isEmpty then "/" else String.ofList path
      query := query.map String.ofList }
  else none

/-- The target that a text names. -/
def ofText? (text : String) : Option Target :=
  if maxLength < text.utf8ByteSize || text.isEmpty then none
  else if text = "*" then some (ofPath "*")
  else
    match text.toList with
    | '/' :: rest => ofPathText? ('/' :: rest)
    | text =>
      match scheme? text with
      | some (scheme, rest) => ofSchemeText? scheme rest
      | none => ofAuthorityText? text

end Target

end CheckHarness.Http
