import CheckHarness.Text.Bytes

namespace CheckHarness.LineStore

/-- What a store holds that speaks the protocol: values under their keys, the latest first. -/
abbrev Contents := List (Bytes × Bytes)

namespace Service

/-- The text up to the first blank, and what follows it if there is one. -/
def splitBlank (text : Bytes) : Bytes × Option Bytes :=
  match text.dropWhile (· != 0x20) with
  | [] => (text, none)
  | _ :: rest => (text.takeWhile (· != 0x20), some rest)

/-- The two or three words of a request. -/
def words (line : Bytes) : List Bytes :=
  match splitBlank line with
  | (first, none) => [first]
  | (first, some rest) =>
    match splitBlank rest with
    | (second, none) => [first, second]
    | (second, some third) => [first, second, third]

/-- A line without its line feed and one carriage return before it. A last line that no line feed
ends is kept as it is. -/
def content (line : Bytes) : Bytes :=
  if line.getLast? = some 0x0A then
    if line.dropLast.getLast? = some 0x0D then line.dropLast.dropLast else line.dropLast
  else line

/-- The answer to a line, without its line end, and the contents afterwards. -/
def answer (contents : Contents) (line : Bytes) : Bytes × Contents :=
  match words (content line) with
  | [command, key, value] =>
    if command = Bytes.ofText "SET" then (Bytes.ofText "OK", (key, value) :: contents)
    else (Bytes.ofText "ERR", contents)
  | [command, key] =>
    if command = Bytes.ofText "GET" then ((contents.lookup key).getD [], contents)
    else (Bytes.ofText "ERR", contents)
  | [command] =>
    if command = Bytes.ofText "PING" then (Bytes.ofText "PONG", contents)
    else (Bytes.ofText "ERR", contents)
  | _ => (Bytes.ofText "ERR", contents)

/-- The bytes that answer a line, and the contents afterwards. -/
def respond (contents : Contents) (line : Bytes) : Bytes × Contents :=
  ((answer contents line).1 ++ [0x0A], (answer contents line).2)

/-- The lines of what is received, each with its line feed. What follows the last line feed is a
line of its own. -/
def lines : Bytes → List Bytes
  | [] => []
  | byte :: rest =>
    if byte = 0x0A then [byte] :: lines rest
    else
      match lines rest with
      | [] => [[byte]]
      | line :: later => (byte :: line) :: later

/-- The answers to lines, one after the other, and the contents afterwards. -/
def respondAll (contents : Contents) : List Bytes → Bytes × Contents
  | [] => ([], contents)
  | line :: later =>
    let first := respond contents line
    let rest := respondAll first.2 later
    (first.1 ++ rest.1, rest.2)

/-- What is answered on a connection on which all these bytes are received, and the contents
afterwards. Every line is answered. -/
def serve (contents : Contents) (received : Bytes) : Bytes × Contents :=
  respondAll contents (lines received)

end Service

end CheckHarness.LineStore
