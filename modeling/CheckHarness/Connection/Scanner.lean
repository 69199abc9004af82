import CheckHarness.Text.Bytes

namespace CheckHarness

/-- Where the first occurrence of a delimiter ends, in a text that begins at `index`. -/
def endOfFirst? (delimiter : Bytes) (index : Nat) : Bytes → Option Nat
  | [] => none
  | byte :: text =>
    if delimiter.isPrefixOf (byte :: text) then some (index + delimiter.length)
    else endOfFirst? delimiter (index + 1) text

/-- The search for a delimiter in a buffer that grows between the searches. After a miss the next
search begins just early enough to find a delimiter that lies across the old end. -/
structure Scanner where
  delimiter : Bytes
  /-- The length of the buffer that was last searched in vain. -/
  scanned : Nat
  delimiter_ne_nil : delimiter ≠ []
  deriving DecidableEq, Repr

namespace Scanner

/-- A scanner that has not searched yet. There is none for the empty delimiter. -/
def ofDelimiter? (delimiter : Bytes) : Option Scanner :=
  if h : delimiter = [] then none else some ⟨delimiter, 0, h⟩

/-- Where the next search in a buffer begins. -/
def start (scanner : Scanner) (buffer : Bytes) : Nat :=
  min (scanner.scanned - (scanner.delimiter.length - 1)) buffer.length

/-- Where the first occurrence ends, if there is one. -/
def scan (scanner : Scanner) (buffer : Bytes) : Option Nat × Scanner :=
  let start := scanner.start buffer
  match endOfFirst? scanner.delimiter start (buffer.drop start) with
  -- Only a miss moves the mark.
  | some index => (some index, scanner)
  | none => (none, { scanner with scanned := buffer.length })

end Scanner

end CheckHarness
